import NoirVisor.Hooks.Ept
import NoirVisor.Words

/-!
# Construction of the hooks

A hook replaces the start of a function in a copy of its page, and the instructions that it covers are
kept in a detour (`xpf_core/windows/hooks.c`, `detour.c`). Its code is 23 bytes long and can reach into a
second page. The table has a slot for every page that was copied.
-/

namespace NoirVisor

def hookLength : Nat := 23
def detourLength : Nat := 14
def hookPageLimit : Nat := 8

/-- `BYTE_OFFSET` -/
def byteOffset (address : BitVec 64) : Nat := address.toNat % page4kbSize

/-- `ADDRESS_AND_SIZE_TO_SPAN_PAGES` -/
def spanPages (address : BitVec 64) (size : Nat) : Nat :=
  (byteOffset address + size + (page4kbSize - 1)) / page4kbSize

/-- The memory that is hooked, which frame a page is in, and how long the instructions are. -/
structure HookKernel where
  frame : Nat → Nat
  physical : Words.Memory
  getInstructionLength : BitVec 64 → Nat
  getInstructionLength_pos : ∀ address, 0 < getInstructionLength address

/-- The copy of a page, by offset. -/
structure HookedPage where
  virt : BitVec 64
  phys : Nat
  content : Words.Memory

/-- `NOIR_HOOK_PAGE` -/
structure HookSlot where
  originalVirt : BitVec 64
  originalPhys : Nat
  hooked : Option HookedPage
  locked : Bool

/-- A slot as the memory for it was allocated. -/
def HookSlot.zeroed : HookSlot := ⟨0, 0, none, false⟩

/-- A call of `NoirConstructHook`: whether there is memory for the detour, and for each of the pages
where its copy is put and whether it can be locked. -/
structure HookCall where
  address : BitVec 64
  proxy : BitVec 64
  detour : Bool
  pages : Nat → Option (BitVec 64)
  locks : Nat → Bool

def hookCode (proxy : BitVec 64) : Words.Memory :=
  Words.store (fun i => [0x50, 0x48, 0xB8, 0, 0, 0, 0, 0, 0, 0, 0, 0x48, 0x87, 0x04, 0x24, 0xC3].getD i 0)
    3 8 proxy

def detourCode (target : BitVec 64) : Words.Memory :=
  Words.store (fun i => [0xFF, 0x25].getD i 0) 6 8 target

def HookedPage.copyHook (page : HookedPage) (offset : Nat) (code : Words.Memory) (n : Nat) :
    HookedPage :=
  { page with content := fun i =>
      if offset ≤ i ∧ i < offset + n then code (i - offset) else page.content i }

namespace HookSlot

def patch (offset : Nat) (code : Words.Memory) (n : Nat) (slot : HookSlot) : HookSlot :=
  { slot with hooked := slot.hooked.map fun page => page.copyHook offset code n }

/-- The page is searched by physical address. -/
def Covers (slot : HookSlot) (fpa : Nat) : Prop :=
  slot.originalPhys ≤ fpa ∧ fpa < slot.originalPhys + page4kbSize

instance (slot : HookSlot) (fpa : Nat) : Decidable (slot.Covers fpa) :=
  inferInstanceAs (Decidable (_ ∧ _))

/-- The code is copied if the slot has a page. -/
def patchAt (table : List HookSlot) (i offset : Nat) (code : Words.Memory) (n : Nat) :
    Option Nat × List HookSlot :=
  if (table[i]?.bind hooked).isSome then (some n, table.modify i (patch offset code n))
  else (none, table)

end HookSlot

/-- What `NoirConstructHook` leaves behind. -/
structure HookOutcome where
  succeeded : Bool
  table : List HookSlot
  detour : Option Words.Memory

namespace HookKernel

variable (kernel : HookKernel)

/-- `NoirGetPhysicalAddress` -/
def physicalAddress (address : BitVec 64) : Nat :=
  kernel.frame (address.toNat / page4kbSize) * page4kbSize + byteOffset address

def read (address : BitVec 64) : BitVec 8 := kernel.physical (kernel.physicalAddress address)

/-- The loop of `GetPatchSize`. -/
def patchLoop (code : BitVec 64) (length s : Nat) : Nat :=
  if s < length then
    patchLoop code length (s + kernel.getInstructionLength (code + BitVec.ofNat 64 s))
  else s
termination_by length - s
decreasing_by
  have hpos := kernel.getInstructionLength_pos (code + BitVec.ofNat 64 s)
  omega

def getPatchSize (code : BitVec 64) (length : Nat) : Nat := kernel.patchLoop code length 0

/-- A slot for the page of this address, with the page as it is. -/
def newSlot (address virt : BitVec 64) (lock : Bool) : HookSlot where
  originalVirt := pageBase address
  originalPhys := kernel.physicalAddress (pageBase address)
  hooked := some ⟨virt, kernel.physicalAddress virt, fun i =>
    kernel.read (pageBase address + BitVec.ofNat 64 i)⟩
  locked := lock

/-- How much of the code is in the next page. -/
def remainderLength (address : BitVec 64) (length : Nat) : Nat :=
  if 1 < spanPages address length then byteOffset (address + BitVec.ofNat 64 length) else 0

/-- The length that is copied, if the call succeeds, and the table. -/
def noirConstructHookPage (table : List HookSlot) (page : Option (BitVec 64)) (lock : Bool)
    (address : BitVec 64) (code : Words.Memory) (length : Nat) : Option Nat × List HookSlot :=
  let copySize := length - remainderLength address length
  match table.findIdx? fun slot => slot.Covers (kernel.physicalAddress address) with
  | some i => HookSlot.patchAt table i (byteOffset address) code copySize
  | none =>
      if hookPageLimit ≤ table.length then (none, table)
      else
        match page with
        -- The slot is counted before its page is allocated.
        | none => (none, table ++ [HookSlot.zeroed])
        | some virt =>
            HookSlot.patchAt (table ++ [kernel.newSlot address virt lock]) table.length
              (byteOffset address) code copySize

/-- The loop over so many affected pages. -/
def hookLoop (call : HookCall) :
    Nat → Nat → BitVec 64 → Nat → List HookSlot → Bool × List HookSlot
  | 0, _, _, _, table => (true, table)
  | n + 1, i, target, index, table =>
      match kernel.noirConstructHookPage table (call.pages i) (call.locks i) target
          (fun k => hookCode call.proxy (index + k)) (hookLength - index) with
      | (some copied, table) =>
          hookLoop call n (i + 1) (target + BitVec.ofNat 64 copied) (index + copied) table
      | (none, table) => (false, table)

/-- The instructions that are replaced, and a jump behind them. -/
def detourOf (address : BitVec 64) : Words.Memory := fun i =>
  let patchSize := kernel.getPatchSize address hookLength
  if i < patchSize then kernel.read (address + BitVec.ofNat 64 i)
  else detourCode (address + BitVec.ofNat 64 patchSize) (i - patchSize)

def noirConstructHook (table : List HookSlot) (call : HookCall) : HookOutcome :=
  if call.detour then
    let (succeeded, table) :=
      kernel.hookLoop call (spanPages call.address hookLength) 0 call.address 0 table
    ⟨succeeded, table, some (kernel.detourOf call.address)⟩
  else ⟨false, table, none⟩

end HookKernel

/-- A hook whose call succeeded. -/
structure InstalledHook where
  address : BitVec 64
  proxy : BitVec 64

/-- The table, and the hooks that were installed, the last one first. -/
structure HookSession where
  table : List HookSlot
  installed : List InstalledHook

def HookSession.start : HookSession := ⟨[], []⟩

namespace HookKernel

variable (kernel : HookKernel)

def next (session : HookSession) (call : HookCall) : HookSession :=
  let outcome := kernel.noirConstructHook session.table call
  ⟨outcome.table,
    if outcome.succeeded then ⟨call.address, call.proxy⟩ :: session.installed else session.installed⟩

/-! ### What is expected of a call -/

/-- Where an instruction starts. -/
def instructionStart (address : BitVec 64) : Nat → Nat
  | 0 => 0
  | n + 1 => instructionStart address n +
      kernel.getInstructionLength (address + BitVec.ofNat 64 (instructionStart address n))

/-- Whole instructions, no more than are needed, and then a jump to what follows them, with an address
that comes after the jump. -/
structure Detours (address : BitVec 64) (detour : Words.Memory) : Prop where
  whole : ∃ n, kernel.instructionStart address n = kernel.getPatchSize address hookLength ∧
    ∀ m < n, kernel.instructionStart address m < hookLength
  enough : hookLength ≤ kernel.getPatchSize address hookLength
  original : ∀ i < kernel.getPatchSize address hookLength,
    detour i = kernel.read (address + BitVec.ofNat 64 i)
  jump : Words.load detour (kernel.getPatchSize address hookLength) 6 = 0x25FF
  target : Words.load detour (kernel.getPatchSize address hookLength + 6) 8 =
    address + BitVec.ofNat 64 (kernel.getPatchSize address hookLength)

/-- The ranges of two patches have no byte in common. -/
def Apart (hook hook' : InstalledHook) : Prop :=
  ∀ i < kernel.getPatchSize hook.address hookLength,
    ∀ j < kernel.getPatchSize hook'.address hookLength,
      kernel.physicalAddress (hook.address + BitVec.ofNat 64 i) ≠
        kernel.physicalAddress (hook'.address + BitVec.ofNat 64 j)

/-- The pages have the code of the hooks, and else are the original ones. -/
structure Shows (session : HookSession) : Prop where
  distinct : (session.table.map HookSlot.originalPhys).Nodup
  limited : session.table.length ≤ hookPageLimit
  kept : ∀ slot ∈ session.table, ∀ page, slot.hooked = some page → ∀ i < page4kbSize,
    (∀ hook ∈ session.installed, ∀ k < hookLength,
      kernel.physicalAddress (hook.address + BitVec.ofNat 64 k) ≠ slot.originalPhys + i) →
    page.content i = kernel.physical (slot.originalPhys + i)
  patched : session.installed.Pairwise kernel.Apart → ∀ hook ∈ session.installed, ∀ k < hookLength,
    ∃ slot ∈ session.table, ∃ page i, slot.hooked = some page ∧ i < page4kbSize ∧
      kernel.physicalAddress (hook.address + BitVec.ofNat 64 k) = slot.originalPhys + i ∧
      page.content i = hookCode hook.proxy k

structure Constructs (session : HookSession) (call : HookCall) : Prop where
  shows : kernel.Shows (kernel.next session call)
  detours : (kernel.noirConstructHook session.table call).succeeded = true →
    ∃ detour, (kernel.noirConstructHook session.table call).detour = some detour ∧
      kernel.Detours call.address detour
  failed : (kernel.noirConstructHook session.table call).succeeded = false →
    (kernel.next session call).table = session.table

/-! ### When a call does it -/

/-- The page of an address is in the table. -/
def Contains (table : List HookSlot) (address : BitVec 64) : Prop :=
  ∃ slot ∈ table, slot.Covers (kernel.physicalAddress address)

/-- The page of an address is in the table, or there is room for it next to so many others and memory
for its copy. -/
def Obtains (table : List HookSlot) (more : Nat) (address : BitVec 64) (page : Option (BitVec 64)) :
    Prop :=
  kernel.Contains table address ∨ (table.length + more < hookPageLimit ∧ page ≠ none)

/-- The page has this code in it. -/
def HasCode (table : List HookSlot) (address : BitVec 64) (code : Words.Memory) (n : Nat) : Prop :=
  ∀ slot ∈ table, slot.Covers (kernel.physicalAddress address) →
    ∀ page, slot.hooked = some page → ∀ k < n, page.content (byteOffset address + k) = code k

/-- How much of the code is in the first page. -/
def firstLength (address : BitVec 64) : Nat := min hookLength (page4kbSize - byteOffset address)

/-- The hook reaches into the next page. -/
def Crosses (address : BitVec 64) : Prop := page4kbSize < byteOffset address + hookLength

instance (address : BitVec 64) : Decidable (Crosses address) := inferInstanceAs (Decidable (_ < _))

def secondPage (address : BitVec 64) : BitVec 64 := address + BitVec.ofNat 64 (firstLength address)

/-- Both pages are one page of memory. -/
def SamePage (address address' : BitVec 64) : Prop :=
  kernel.frame (address.toNat / page4kbSize) = kernel.frame (address'.toNat / page4kbSize)

/-- Every page of the hook can be had. The one before the last may take a slot. -/
structure Obtainable (table : List HookSlot) (call : HookCall) : Prop where
  first : kernel.Obtains table 0 call.address (call.pages 0)
  second : Crosses call.address → kernel.SamePage call.address (secondPage call.address) ∨
    (kernel.Contains table call.address →
      kernel.Obtains table 0 (secondPage call.address) (call.pages 1)) ∧
    (¬kernel.Contains table call.address →
      kernel.Obtains table 1 (secondPage call.address) (call.pages 1))

/-- There is no slot left for the first page, or none for the second and the first page has its part of
the code already. -/
inductive Refusable (table : List HookSlot) (call : HookCall) : Prop where
  | first (hfull : hookPageLimit ≤ table.length) (hnot : ¬kernel.Contains table call.address)
  | second (hfull : hookPageLimit ≤ table.length) (hcrosses : Crosses call.address)
      (hnot : ¬kernel.Contains table (secondPage call.address))
      (hcode : kernel.HasCode table call.address (hookCode call.proxy) (firstLength call.address))

/-- There is no memory for the detour, or the pages can be had, or nothing is begun. -/
def Fits (session : HookSession) (call : HookCall) : Prop :=
  call.detour = true → kernel.Obtainable session.table call ∨ kernel.Refusable session.table call

end HookKernel

section Addresses

variable {kernel : HookKernel} {address : BitVec 64} {k n : Nat}

theorem byteOffset_lt : byteOffset address < page4kbSize := Nat.mod_lt _ (by decide)

/-- No page goes over the end of the address space. -/
theorem toNat_add_of_offset (h : byteOffset address + k < page4kbSize) :
    (address + BitVec.ofNat 64 k).toNat = address.toNat + k := by
  have hlt := address.isLt
  simp only [byteOffset, page4kbSize] at h
  rw [BitVec.toNat_add, BitVec.toNat_ofNat]
  omega

theorem byteOffset_add (h : byteOffset address + k < page4kbSize) :
    byteOffset (address + BitVec.ofNat 64 k) = byteOffset address + k := by
  have hadd := toNat_add_of_offset h
  simp only [byteOffset, page4kbSize] at h ⊢
  omega

theorem page_add (h : byteOffset address + k < page4kbSize) :
    (address + BitVec.ofNat 64 k).toNat / page4kbSize = address.toNat / page4kbSize := by
  have hadd := toNat_add_of_offset h
  simp only [byteOffset, page4kbSize] at h ⊢
  omega

theorem physicalAddress_add (h : byteOffset address + k < page4kbSize) :
    kernel.physicalAddress (address + BitVec.ofNat 64 k) = kernel.physicalAddress address + k := by
  unfold HookKernel.physicalAddress
  rw [page_add h, byteOffset_add h, Nat.add_assoc]

theorem pageBase_toNat : (pageBase address).toNat = address.toNat / page4kbSize * page4kbSize := by
  have hmask (i : Nat) : (0xFFF : BitVec 64).getLsbD i = decide (i < 12) := by
    rw [BitVec.ofNat_eq_ofNat, BitVec.getLsbD_ofNat]
    change (decide (i < 64) && Nat.testBit (2 ^ 12 - 1) i) = _
    rw [Nat.testBit_two_pow_sub_one]
    by_cases hi : i < 64
    · simp [hi]
    · simp [hi, show ¬i < 12 by omega]
  have hshift : pageBase address = address >>> 12 <<< 12 := by
    apply BitVec.eq_of_getLsbD_eq
    intro i hi
    unfold pageBase
    rw [BitVec.getLsbD_and, BitVec.getLsbD_not, BitVec.getLsbD_shiftLeft, BitVec.getLsbD_ushiftRight,
      hmask]
    by_cases hlow : i < 12
    · simp [hlow]
    · simp [hlow, hi, show 12 + (i - 12) = i by omega]
  have hlt := address.isLt
  rw [hshift, BitVec.toNat_shiftLeft, BitVec.toNat_ushiftRight, Nat.shiftLeft_eq,
    Nat.shiftRight_eq_div_pow]
  simp only [page4kbSize]
  omega

theorem byteOffset_pageBase : byteOffset (pageBase address) = 0 := by
  unfold byteOffset
  rw [pageBase_toNat, Nat.mul_mod_left]

theorem physicalAddress_pageBase : kernel.physicalAddress (pageBase address) =
    kernel.frame (address.toNat / page4kbSize) * page4kbSize := by
  unfold HookKernel.physicalAddress
  rw [byteOffset_pageBase, pageBase_toNat, Nat.mul_div_cancel _ (by decide), Nat.add_zero]

theorem physicalAddress_eq : kernel.physicalAddress address =
    kernel.physicalAddress (pageBase address) + byteOffset address := by
  rw [physicalAddress_pageBase]
  rfl

theorem read_pageBase (h : k < page4kbSize) : kernel.read (pageBase address + BitVec.ofNat 64 k) =
    kernel.physical (kernel.physicalAddress (pageBase address) + k) := by
  unfold HookKernel.read
  rw [physicalAddress_add (by rwa [byteOffset_pageBase, Nat.zero_add])]

/-- A slot is for a whole page. -/
def HookSlot.Aligned (slot : HookSlot) : Prop := ∃ n, slot.originalPhys = n * page4kbSize

theorem covers_iff {slot : HookSlot} (h : slot.Aligned) :
    slot.Covers (kernel.physicalAddress address) ↔
      slot.originalPhys = kernel.physicalAddress (pageBase address) := by
  obtain ⟨m, hm⟩ := h
  have hlt : byteOffset address < page4kbSize := byteOffset_lt
  unfold HookSlot.Covers
  rw [physicalAddress_eq, physicalAddress_pageBase, hm]
  simp only [page4kbSize] at hlt ⊢
  omega

theorem covers_add_iff {slot : HookSlot} (h : slot.Aligned) (hk : k < page4kbSize) :
    slot.Covers (kernel.physicalAddress (pageBase address) + k) ↔
      slot.originalPhys = kernel.physicalAddress (pageBase address) := by
  obtain ⟨m, hm⟩ := h
  unfold HookSlot.Covers
  rw [physicalAddress_pageBase, hm]
  simp only [page4kbSize] at hk ⊢
  omega

theorem samePage_iff {address' : BitVec 64} : kernel.SamePage address address' ↔
    kernel.physicalAddress (pageBase address) = kernel.physicalAddress (pageBase address') := by
  have hsize : page4kbSize ≠ 0 := by decide
  rw [physicalAddress_pageBase, physicalAddress_pageBase, Nat.mul_left_inj hsize]
  rfl

end Addresses

section Bytes

variable {kernel : HookKernel} {address : BitVec 64} {code : Words.Memory} {n p : Nat}

namespace HookKernel

/-- The code from an address on, by where it is in memory. -/
def bytesFrom (kernel : HookKernel) (address : BitVec 64) (code : Words.Memory) (n : Nat) :
    Nat → Option (BitVec 8) := fun p =>
  ((List.range n).find? fun k => kernel.physicalAddress (address + BitVec.ofNat 64 k) = p).map code

/-- Up to the end of a page the bytes are in one piece. -/
theorem bytesFrom_eq (h : byteOffset address + n ≤ page4kbSize) : kernel.bytesFrom address code n p =
    if kernel.physicalAddress address ≤ p ∧ p < kernel.physicalAddress address + n then
      some (code (p - kernel.physicalAddress address)) else none := by
  have hat {k : Nat} (hk : k < n) :
      kernel.physicalAddress (address + BitVec.ofNat 64 k) = kernel.physicalAddress address + k :=
    physicalAddress_add (by omega)
  unfold bytesFrom
  split
  · next hp =>
      have hfind : (List.range n).find? (fun k =>
          kernel.physicalAddress (address + BitVec.ofNat 64 k) = p) =
          some (p - kernel.physicalAddress address) := by
        rw [List.find?_range_eq_some]
        refine ⟨?_, List.mem_range.mpr (by omega), fun j hj => ?_⟩
        · rw [decide_eq_true_eq, hat (by omega)]
          omega
        · rw [Bool.not_eq_true', decide_eq_false_iff_not, hat (by omega)]
          omega
      rw [hfind, Option.map_some]
  · next hp =>
      have hfind : (List.range n).find? (fun k =>
          kernel.physicalAddress (address + BitVec.ofNat 64 k) = p) = none := by
        rw [List.find?_eq_none]
        intro k hk
        rw [decide_eq_true_eq, hat (List.mem_range.mp hk)]
        have hlt := List.mem_range.mp hk
        omega
      rw [hfind, Option.map_none]

theorem bytesFrom_add {m : Nat} : kernel.bytesFrom address code (n + m) p =
    (kernel.bytesFrom address code n p).or
      (kernel.bytesFrom (address + BitVec.ofNat 64 n) (fun k => code (n + k)) m p) := by
  unfold bytesFrom
  have hlater : ((fun k => decide (kernel.physicalAddress (address + BitVec.ofNat 64 k) = p)) ∘
      fun k => n + k) = fun k => decide (kernel.physicalAddress
        (address + BitVec.ofNat 64 n + BitVec.ofNat 64 k) = p) := by
    funext k
    rw [Function.comp_apply, BitVec.ofNat_add, BitVec.add_assoc]
  rw [List.range_add, List.find?_append, List.find?_map, Option.map_or, Option.map_map, hlater]
  rfl

end HookKernel

end Bytes

section Pages

variable {kernel : HookKernel} {address a : BitVec 64} {code : Words.Memory} {n : Nat}
  {table : List HookSlot} {slot : HookSlot} {i : Nat}

/-- What was written on top of what. -/
def overwrite (bytes written : Nat → Option (BitVec 8)) : Nat → Option (BitVec 8) :=
  fun p => (bytes p).or (written p)

variable {written : Nat → Option (BitVec 8)}

/-- The slots are for different pages, and their copies have what was written. -/
structure Mirrors (kernel : HookKernel) (written : Nat → Option (BitVec 8)) (table : List HookSlot) :
    Prop where
  distinct : (table.map HookSlot.originalPhys).Nodup
  limited : table.length ≤ hookPageLimit
  aligned : ∀ slot ∈ table, slot.Aligned
  content : ∀ slot ∈ table, ∃ page, slot.hooked = some page ∧ ∀ k < page4kbSize,
    page.content k = (written (slot.originalPhys + k)).getD (kernel.physical (slot.originalPhys + k))
  covered : ∀ p, written p ≠ none → ∃ slot ∈ table, slot.Covers p

theorem Mirrors.index_eq (h : Mirrors kernel written table) {j : Nat} {other : HookSlot}
    (hi : table[i]? = some slot) (hj : table[j]? = some other)
    (hsame : slot.originalPhys = other.originalPhys) : i = j := by
  have hlt : i < (table.map HookSlot.originalPhys).length := by
    rw [List.length_map]
    exact (List.getElem?_eq_some_iff.mp hi).1
  have hphys : (table.map HookSlot.originalPhys)[i]? = (table.map HookSlot.originalPhys)[j]? := by
    rw [List.getElem?_map, List.getElem?_map, hi, hj, Option.map_some, Option.map_some, hsame]
  exact (List.getElem?_inj hlt h.distinct).mp hphys

theorem map_modify_patch {offset : Nat} :
    (table.modify i (HookSlot.patch offset code n)).map HookSlot.originalPhys =
      table.map HookSlot.originalPhys := by
  apply List.ext_getElem?
  intro j
  rw [List.getElem?_map, List.getElem?_modify, List.getElem?_map]
  cases table[j]? with
  | none => rfl
  | some slot =>
      by_cases hij : i = j
      · simp [hij, HookSlot.patch]
      · simp [hij]

/-- Slots for the same pages. -/
theorem exists_of_map_eq {slots : List HookSlot} {P : Nat → Prop}
    (h : table.map HookSlot.originalPhys = slots.map HookSlot.originalPhys)
    (hslot : ∃ slot ∈ table, P slot.originalPhys) : ∃ slot ∈ slots, P slot.originalPhys := by
  obtain ⟨slot, hmem, hp⟩ := hslot
  have hphys : slot.originalPhys ∈ slots.map HookSlot.originalPhys := h ▸ List.mem_map_of_mem hmem
  obtain ⟨other, hother, hsame⟩ := List.mem_map.mp hphys
  exact ⟨other, hother, hsame ▸ hp⟩

/-- The code is put into the copy of a page. -/
theorem Mirrors.modify (code : Words.Memory) (h : Mirrors kernel written table) (hi : table[i]? = some slot)
    (hcovers : slot.Covers (kernel.physicalAddress address))
    (hfits : byteOffset address + n ≤ page4kbSize) :
    Mirrors kernel (overwrite (kernel.bytesFrom address code n) written)
      (table.modify i (HookSlot.patch (byteOffset address) code n)) := by
  have hmem : slot ∈ table := List.mem_of_getElem? hi
  have hphys := (covers_iff (h.aligned slot hmem)).mp hcovers
  have hslot {changed : HookSlot}
      (hchanged : changed ∈ table.modify i (HookSlot.patch (byteOffset address) code n)) :
      changed = slot.patch (byteOffset address) code n ∨
        changed ∈ table ∧ changed.originalPhys ≠ slot.originalPhys := by
    obtain ⟨j, hj⟩ := List.getElem?_of_mem hchanged
    rw [List.getElem?_modify, Option.map_eq_map, Option.map_eq_some_iff] at hj
    obtain ⟨other, hother, rfl⟩ := hj
    by_cases hij : i = j
    · subst hij
      obtain rfl := Option.some.inj (hi.symm.trans hother)
      exact .inl (if_pos rfl)
    · rw [if_neg hij]
      exact .inr ⟨List.mem_of_getElem? hother,
        fun hsame => hij (h.index_eq hi hother hsame.symm)⟩
  have hbytes (k : Nat) (hk : k < page4kbSize) : kernel.bytesFrom address code n (slot.originalPhys + k) =
      if byteOffset address ≤ k ∧ k < byteOffset address + n then some (code (k - byteOffset address))
      else none := by
    rw [HookKernel.bytesFrom_eq hfits, physicalAddress_eq, ← hphys]
    have hsub : slot.originalPhys + k - (slot.originalPhys + byteOffset address) =
        k - byteOffset address := by omega
    rw [hsub]
    exact if_congr (by omega) rfl rfl
  constructor
  · rw [map_modify_patch]
    exact h.distinct
  · rw [List.length_modify]
    exact h.limited
  · intro changed hchanged
    rcases hslot hchanged with rfl | ⟨hother, -⟩
    · exact h.aligned slot hmem
    · exact h.aligned changed hother
  · intro changed hchanged
    rcases hslot hchanged with rfl | ⟨hother, hne⟩
    · obtain ⟨page, hpage, hcontent⟩ := h.content slot hmem
      refine ⟨page.copyHook (byteOffset address) code n, by rw [HookSlot.patch, hpage, Option.map_some],
        fun k hk => ?_⟩
      unfold overwrite HookedPage.copyHook
      simp only [HookSlot.patch]
      rw [hbytes k hk]
      split
      · rfl
      · exact hcontent k hk
    · obtain ⟨page, hpage, hcontent⟩ := h.content changed hother
      refine ⟨page, hpage, fun k hk => ?_⟩
      have hnone : kernel.bytesFrom address code n (changed.originalPhys + k) = none := by
        obtain ⟨m, hm⟩ := h.aligned slot hmem
        obtain ⟨m', hm'⟩ := h.aligned changed hother
        rw [HookKernel.bytesFrom_eq hfits, physicalAddress_eq, ← hphys]
        refine if_neg fun hin => hne ?_
        simp only [page4kbSize] at hm hm' hk hfits
        omega
      rw [overwrite, hnone, Option.none_or]
      exact hcontent k hk
  · intro p hp
    refine exists_of_map_eq (P := fun phys => phys ≤ p ∧ p < phys + page4kbSize)
      map_modify_patch.symm ?_
    cases hbyte : kernel.bytesFrom address code n p with
    | none =>
        rw [overwrite, hbyte, Option.none_or] at hp
        exact h.covered p hp
    | some byte =>
        rw [HookKernel.bytesFrom_eq hfits, physicalAddress_eq, ← hphys] at hbyte
        split at hbyte
        · next hin => exact ⟨slot, hmem, by omega, by omega⟩
        · cases hbyte

/-- A page that was not in the table is as it was in memory. -/
theorem Mirrors.append (virt : BitVec 64) (lock : Bool) (h : Mirrors kernel written table)
    (hroom : table.length < hookPageLimit) (hnot : ¬kernel.Contains table address) :
    Mirrors kernel written (table ++ [kernel.newSlot address virt lock]) := by
  have haligned : (kernel.newSlot address virt lock).Aligned := ⟨_, physicalAddress_pageBase⟩
  have hfresh : ∀ slot ∈ table, slot.originalPhys ≠ kernel.physicalAddress (pageBase address) :=
    fun slot hslot hsame => hnot ⟨slot, hslot, (covers_iff (h.aligned slot hslot)).mpr hsame⟩
  constructor
  · rw [List.map_append, List.map_singleton, List.nodup_append]
    refine ⟨h.distinct, List.pairwise_singleton _ _, fun phys hphys new hnew => ?_⟩
    obtain ⟨slot, hslot, rfl⟩ := List.mem_map.mp hphys
    obtain rfl := List.mem_singleton.mp hnew
    exact hfresh slot hslot
  · rw [List.length_append, List.length_singleton]
    exact hroom
  · intro slot hslot
    rcases List.mem_append.mp hslot with hold | hnew
    · exact h.aligned slot hold
    · obtain rfl := List.mem_singleton.mp hnew
      exact haligned
  · intro slot hslot
    rcases List.mem_append.mp hslot with hold | hnew
    · exact h.content slot hold
    · obtain rfl := List.mem_singleton.mp hnew
      refine ⟨_, rfl, fun k hk => ?_⟩
      have hnone : written (kernel.physicalAddress (pageBase address) + k) = none := by
        by_contra hsome
        obtain ⟨slot, hslot, hcovers⟩ := h.covered _ hsome
        exact hfresh slot hslot ((covers_add_iff (h.aligned slot hslot) hk).mp hcovers)
      exact (read_pageBase hk).trans (by rw [HookKernel.newSlot, hnone, Option.getD_none])
  · intro p hp
    obtain ⟨slot, hslot, hcovers⟩ := h.covered p hp
    exact ⟨slot, List.mem_append_left _ hslot, hcovers⟩

/-! ### One page -/

variable {page : Option (BitVec 64)} {lock : Bool} {length : Nat}

theorem patchAt_of_content {offset : Nat} (h : Mirrors kernel written table)
    (hi : table[i]? = some slot) : HookSlot.patchAt table i offset code n =
      (some n, table.modify i (HookSlot.patch offset code n)) := by
  obtain ⟨copy, hcopy, -⟩ := h.content slot (List.mem_of_getElem? hi)
  rw [HookSlot.patchAt, hi, Option.bind_some, hcopy, if_pos (by rfl)]

theorem constructHookPage_of_contains (page : Option (BitVec 64)) (lock : Bool)
    (code : Words.Memory) (h : Mirrors kernel written table)
    (hin : kernel.Contains table address) (hn : length - HookKernel.remainderLength address length = n) :
    ∃ i slot, table[i]? = some slot ∧ slot.Covers (kernel.physicalAddress address) ∧
      kernel.noirConstructHookPage table page lock address code length =
        (some n, table.modify i (HookSlot.patch (byteOffset address) code n)) := by
  obtain ⟨slot, hslot, hcovers⟩ := hin
  cases hfind : table.findIdx? fun slot => slot.Covers (kernel.physicalAddress address) with
  | none =>
      have hnot := List.findIdx?_eq_none_iff.mp hfind slot hslot
      exact absurd hcovers (of_decide_eq_false hnot)
  | some i =>
      obtain ⟨hlt, hfound, -⟩ := List.findIdx?_eq_some_iff_getElem.mp hfind
      have hi : table[i]? = some table[i] := List.getElem?_eq_getElem hlt
      refine ⟨i, table[i], hi, of_decide_eq_true hfound, ?_⟩
      unfold HookKernel.noirConstructHookPage
      simp only [hn, hfind]
      exact patchAt_of_content h hi

theorem findIdx_of_not_contains (hnot : ¬kernel.Contains table address) :
    table.findIdx? (fun slot => slot.Covers (kernel.physicalAddress address)) = none := by
  rw [List.findIdx?_eq_none_iff]
  exact fun slot hslot => decide_eq_false fun hcovers => hnot ⟨slot, hslot, hcovers⟩

theorem constructHookPage_of_full (hnot : ¬kernel.Contains table address)
    (hfull : hookPageLimit ≤ table.length) :
    kernel.noirConstructHookPage table page lock address code length = (none, table) := by
  unfold HookKernel.noirConstructHookPage
  simp only [findIdx_of_not_contains hnot, if_pos hfull]

theorem constructHookPage_of_none (hnot : ¬kernel.Contains table address)
    (hroom : table.length < hookPageLimit) :
    kernel.noirConstructHookPage table none lock address code length =
      (none, table ++ [HookSlot.zeroed]) := by
  unfold HookKernel.noirConstructHookPage
  simp only [findIdx_of_not_contains hnot, if_neg (Nat.not_le.mpr hroom)]

theorem constructHookPage_of_room {virt : BitVec 64} (h : Mirrors kernel written table)
    (hnot : ¬kernel.Contains table address) (hroom : table.length < hookPageLimit)
    (hn : length - HookKernel.remainderLength address length = n) :
    kernel.noirConstructHookPage table (some virt) lock address code length =
      (some n, (table ++ [kernel.newSlot address virt lock]).modify table.length
        (HookSlot.patch (byteOffset address) code n)) := by
  have hlast : (table ++ [kernel.newSlot address virt lock])[table.length]? =
      some (kernel.newSlot address virt lock) := List.getElem?_concat_length
  unfold HookKernel.noirConstructHookPage
  simp only [hn, findIdx_of_not_contains hnot, if_neg (Nat.not_le.mpr hroom)]
  exact patchAt_of_content (h.append virt lock hroom hnot) hlast

/-- How many slots a page takes. -/
structure Takes (kernel : HookKernel) (address : BitVec 64) (table taken : List HookSlot) : Prop where
  contains : ∀ a, kernel.Contains taken a ↔ kernel.Contains table a ∨ kernel.SamePage address a
  old : kernel.Contains table address → taken.length = table.length
  new : ¬kernel.Contains table address → taken.length = table.length + 1

theorem contains_iff (h : ∀ slot ∈ table, slot.Aligned) : kernel.Contains table a ↔
    kernel.physicalAddress (pageBase a) ∈ table.map HookSlot.originalPhys := by
  rw [List.mem_map]
  constructor
  · rintro ⟨slot, hslot, hcovers⟩
    exact ⟨slot, hslot, (covers_iff (h slot hslot)).mp hcovers⟩
  · rintro ⟨slot, hslot, hphys⟩
    exact ⟨slot, hslot, (covers_iff (h slot hslot)).mpr hphys⟩

/-- A page that can be had gets its part of the code. -/
theorem constructHookPage_of_obtains (lock : Bool) (code : Words.Memory) (h : Mirrors kernel written table)
    (hobtains : kernel.Obtains table 0 address page)
    (hfits : byteOffset address + n ≤ page4kbSize)
    (hn : length - HookKernel.remainderLength address length = n) :
    ∃ taken, kernel.noirConstructHookPage table page lock address code length = (some n, taken) ∧
      Mirrors kernel (overwrite (kernel.bytesFrom address code n) written) taken ∧
      Takes kernel address table taken := by
  by_cases hin : kernel.Contains table address
  · obtain ⟨i, slot, hi, hcovers, hcall⟩ :=
      constructHookPage_of_contains page lock code h hin hn
    have hmirrors := h.modify code hi hcovers hfits
    refine ⟨_, hcall, hmirrors, fun a => ?_, fun _ => List.length_modify .., fun hnot => absurd hin hnot⟩
    rw [contains_iff hmirrors.aligned, map_modify_patch, ← contains_iff h.aligned]
    refine (or_iff_left_of_imp fun hsame => ?_).symm
    rw [contains_iff h.aligned] at hin ⊢
    exact samePage_iff.mp hsame ▸ hin
  · obtain ⟨hroom, hpage⟩ := hobtains.resolve_left hin
    obtain ⟨virt, rfl⟩ := Option.ne_none_iff_exists'.mp hpage
    have hnew := h.append virt lock hroom hin
    have hlast : (table ++ [kernel.newSlot address virt lock])[table.length]? =
        some (kernel.newSlot address virt lock) := List.getElem?_concat_length
    have hcovers : (kernel.newSlot address virt lock).Covers (kernel.physicalAddress address) :=
      (covers_iff ⟨_, physicalAddress_pageBase⟩).mpr rfl
    have hmirrors := hnew.modify code hlast hcovers hfits
    refine ⟨_, constructHookPage_of_room h hin hroom hn, hmirrors, fun a => ?_,
      fun hcontains => absurd hcontains hin, fun _ => by simp⟩
    rw [contains_iff hmirrors.aligned, map_modify_patch, List.map_append, List.mem_append,
      ← contains_iff h.aligned, samePage_iff, List.map_singleton, List.mem_singleton, eq_comm]
    rfl

/-- A page that has the code is left as it is. -/
theorem modify_patch_of_hasCode (hi : table[i]? = some slot)
    (hcovers : slot.Covers (kernel.physicalAddress address))
    (hcode : kernel.HasCode table address code n) :
    table.modify i (HookSlot.patch (byteOffset address) code n) = table := by
  have hpage (copy : HookedPage) (hcopy : slot.hooked = some copy) :
      copy.copyHook (byteOffset address) code n = copy := by
    have hcontent := hcode slot (List.mem_of_getElem? hi) hcovers copy hcopy
    have hsame : (copy.copyHook (byteOffset address) code n).content = copy.content := by
      funext k
      unfold HookedPage.copyHook
      simp only
      split
      · next hin =>
          rw [← hcontent (k - byteOffset address) (by omega)]
          congr 1
          omega
      · rfl
    obtain ⟨virt, phys, content⟩ := copy
    exact congrArg (HookedPage.mk virt phys) hsame
  have hslot : slot.patch (byteOffset address) code n = slot := by
    cases hhooked : slot.hooked with
    | none =>
        rw [HookSlot.patch, hhooked, Option.map_none, ← hhooked]
    | some copy =>
        rw [HookSlot.patch, hhooked, Option.map_some, hpage copy hhooked, ← hhooked]
  apply List.ext_getElem?
  intro j
  rw [List.getElem?_modify]
  by_cases hij : i = j
  · subst hij
    rw [hi, Option.map_eq_map, Option.map_some, if_pos rfl, hslot]
  · simp [hij]

end Pages

section Calls

open HookKernel

variable {kernel : HookKernel} {address : BitVec 64} {table taken : List HookSlot} {call : HookCall}
  {written : Nat → Option (BitVec 8)}

theorem byteOffset_add_mod {k : Nat} :
    byteOffset (address + BitVec.ofNat 64 k) = (byteOffset address + k) % page4kbSize := by
  unfold byteOffset
  rw [BitVec.toNat_add, BitVec.toNat_ofNat]
  simp only [page4kbSize]
  omega

theorem spanPages_of_crosses (h : Crosses address) : spanPages address hookLength = 2 := by
  have hlt : byteOffset address < page4kbSize := byteOffset_lt
  unfold spanPages Crosses at *
  simp only [hookLength, page4kbSize] at *
  omega

theorem spanPages_of_not_crosses (h : ¬Crosses address) : spanPages address hookLength = 1 := by
  unfold spanPages Crosses at *
  simp only [hookLength, page4kbSize] at *
  omega

theorem firstLength_eq :
    hookLength - remainderLength address hookLength = firstLength address := by
  have hlt : byteOffset address < page4kbSize := byteOffset_lt
  unfold remainderLength firstLength
  by_cases h : Crosses address
  · rw [spanPages_of_crosses h, if_pos (by decide), byteOffset_add_mod]
    unfold Crosses at h
    simp only [hookLength, page4kbSize] at *
    omega
  · rw [spanPages_of_not_crosses h, if_neg (by decide)]
    unfold Crosses at h
    simp only [hookLength, page4kbSize] at *
    omega

theorem firstLength_fits : byteOffset address + firstLength address ≤ page4kbSize := by
  have hlt : byteOffset address < page4kbSize := byteOffset_lt
  unfold firstLength
  omega

theorem byteOffset_secondPage (h : Crosses address) : byteOffset (secondPage address) = 0 := by
  have hlt : byteOffset address < page4kbSize := byteOffset_lt
  unfold secondPage
  rw [byteOffset_add_mod]
  unfold firstLength Crosses at *
  simp only [hookLength, page4kbSize] at *
  omega

theorem secondLength_eq (h : Crosses address) :
    hookLength - firstLength address -
        remainderLength (secondPage address) (hookLength - firstLength address) =
      hookLength - firstLength address := by
  have hspan : ¬1 < spanPages (secondPage address) (hookLength - firstLength address) := by
    unfold spanPages
    rw [byteOffset_secondPage h]
    simp only [hookLength, page4kbSize]
    omega
  rw [remainderLength, if_neg hspan, Nat.sub_zero]

/-- The two parts of a hook do not meet, not even in one page. -/
theorem overwrite_parts {code : Words.Memory} (h : Crosses address) :
    overwrite (kernel.bytesFrom (secondPage address) (fun k => code (firstLength address + k))
        (hookLength - firstLength address))
      (overwrite (kernel.bytesFrom address code (firstLength address)) written) =
      overwrite (kernel.bytesFrom address code hookLength) written := by
  have hsecond := byteOffset_secondPage h
  have hlt : byteOffset address < page4kbSize := byteOffset_lt
  have hfits : byteOffset (secondPage address) + (hookLength - firstLength address) ≤ page4kbSize := by
    rw [hsecond]
    simp only [hookLength, page4kbSize]
    omega
  have hlength : hookLength = firstLength address + (hookLength - firstLength address) := by
    unfold firstLength
    omega
  funext p
  have hsplit : kernel.bytesFrom address code hookLength p =
      (kernel.bytesFrom address code (firstLength address) p).or
        (kernel.bytesFrom (secondPage address) (fun k => code (firstLength address + k))
          (hookLength - firstLength address) p) := by
    conv_lhs => rw [hlength]
    exact bytesFrom_add
  have hapart : kernel.bytesFrom address code (firstLength address) p = none ∨
      kernel.bytesFrom (secondPage address) (fun k => code (firstLength address + k))
        (hookLength - firstLength address) p = none := by
    rw [bytesFrom_eq firstLength_fits, bytesFrom_eq hfits]
    by_cases hin : kernel.physicalAddress address ≤ p ∧
        p < kernel.physicalAddress address + firstLength address
    · refine .inr (if_neg fun hin' => ?_)
      rw [physicalAddress_eq, physicalAddress_pageBase] at hin hin'
      unfold firstLength Crosses at *
      simp only [hookLength, page4kbSize] at *
      omega
    · exact .inl (if_neg hin)
  unfold overwrite
  rw [hsplit]
  rcases hapart with hfirst | hsecond
  · rw [hfirst, Option.none_or, Option.none_or]
  · rw [hsecond, Option.none_or, Option.or_none]

/-! ### The two pages -/

theorem hookLoop_one {i index : Nat} {target : BitVec 64} :
    kernel.hookLoop call 1 i target index table =
      ((kernel.noirConstructHookPage table (call.pages i) (call.locks i) target
          (fun k => hookCode call.proxy (index + k)) (hookLength - index)).1.isSome,
        (kernel.noirConstructHookPage table (call.pages i) (call.locks i) target
          (fun k => hookCode call.proxy (index + k)) (hookLength - index)).2) := by
  unfold hookLoop
  rcases kernel.noirConstructHookPage table (call.pages i) (call.locks i) target
    (fun k => hookCode call.proxy (index + k)) (hookLength - index) with ⟨_ | copied, rest⟩
  · rfl
  · rfl

/-- What the loop makes of the first page. -/
theorem hookLoop_of_some
    (hcall : kernel.noirConstructHookPage table (call.pages 0) (call.locks 0) call.address
      (hookCode call.proxy) hookLength = (some (firstLength call.address), taken)) :
    kernel.hookLoop call (spanPages call.address hookLength) 0 call.address 0 table =
      if Crosses call.address then
        kernel.hookLoop call 1 1 (secondPage call.address) (firstLength call.address) taken
      else (true, taken) := by
  by_cases h : Crosses call.address
  · rw [spanPages_of_crosses h, if_pos h]
    unfold hookLoop
    simp only [Nat.zero_add, Nat.sub_zero, hcall]
    rfl
  · rw [spanPages_of_not_crosses h, if_neg h, hookLoop_one]
    simp only [Nat.zero_add, Nat.sub_zero, hcall]
    rfl

theorem hookLoop_of_none
    (hcall : kernel.noirConstructHookPage table (call.pages 0) (call.locks 0) call.address
      (hookCode call.proxy) hookLength = (none, taken)) :
    kernel.hookLoop call (spanPages call.address hookLength) 0 call.address 0 table =
      (false, taken) := by
  have hpages : ∃ n, spanPages call.address hookLength = n + 1 := by
    by_cases h : Crosses call.address
    · exact ⟨1, spanPages_of_crosses h⟩
    · exact ⟨0, spanPages_of_not_crosses h⟩
  obtain ⟨n, hn⟩ := hpages
  rw [hn, hookLoop]
  simp only [Nat.zero_add, Nat.sub_zero, hcall]

/-- The second page can be had if it could before, next to the slot of the first one. -/
theorem obtains_second_iff {page : Option (BitVec 64)} {second : BitVec 64}
    (h : Takes kernel address table taken) : kernel.Obtains taken 0 second page ↔
      kernel.SamePage address second ∨
        (kernel.Contains table address → kernel.Obtains table 0 second page) ∧
        (¬kernel.Contains table address → kernel.Obtains table 1 second page) := by
  unfold Obtains
  rw [h.contains second]
  by_cases hin : kernel.Contains table address
  · rw [h.old hin]
    constructor
    · rintro ((hold | hsame) | hroom)
      · exact .inr ⟨fun _ => .inl hold, fun hnot => absurd hin hnot⟩
      · exact .inl hsame
      · exact .inr ⟨fun _ => .inr hroom, fun hnot => absurd hin hnot⟩
    · rintro (hsame | ⟨hboth, -⟩)
      · exact .inl (.inr hsame)
      · exact (hboth hin).imp_left .inl
  · rw [h.new hin]
    constructor
    · rintro ((hold | hsame) | hroom)
      · exact .inr ⟨fun hnot => absurd hnot hin, fun _ => .inl hold⟩
      · exact .inl hsame
      · exact .inr ⟨fun hnot => absurd hnot hin, fun _ => .inr hroom⟩
    · rintro (hsame | ⟨-, hboth⟩)
      · exact .inl (.inr hsame)
      · exact (hboth hin).imp_left .inl

/-- What the loop makes of a hook with both of its pages. -/
theorem hookLoop_of_obtainable (h : Mirrors kernel written table)
    (hpages : kernel.Obtainable table call) :
    ∃ taken, kernel.hookLoop call (spanPages call.address hookLength) 0 call.address 0 table =
        (true, taken) ∧
      Mirrors kernel (overwrite (kernel.bytesFrom call.address (hookCode call.proxy) hookLength) written)
        taken := by
  obtain ⟨first, hfirst, hmirrors, htakes⟩ := constructHookPage_of_obtains
    (call.locks 0) (hookCode call.proxy) h hpages.first firstLength_fits firstLength_eq
  rw [hookLoop_of_some hfirst]
  by_cases hcrosses : Crosses call.address
  · have hsecond := (obtains_second_iff htakes).mpr (hpages.second hcrosses)
    have hfits : byteOffset (secondPage call.address) + (hookLength - firstLength call.address) ≤
        page4kbSize := by
      rw [byteOffset_secondPage hcrosses]
      simp only [hookLength, page4kbSize]
      omega
    obtain ⟨taken, htaken, hboth, -⟩ := constructHookPage_of_obtains (call.locks 1)
      (fun k => hookCode call.proxy (firstLength call.address + k)) hmirrors hsecond hfits
      (secondLength_eq hcrosses)
    refine ⟨taken, ?_, overwrite_parts hcrosses ▸ hboth⟩
    rw [if_pos hcrosses, hookLoop_one, htaken]
    rfl
  · have hwhole : firstLength call.address = hookLength := by
      unfold firstLength Crosses at *
      omega
    rw [if_neg hcrosses]
    exact ⟨first, rfl, hwhole ▸ hmirrors⟩

theorem hookLoop_of_refusable (h : Mirrors kernel written table)
    (hpages : kernel.Refusable table call) :
    kernel.hookLoop call (spanPages call.address hookLength) 0 call.address 0 table =
      (false, table) := by
  have hrefused (hfull : hookPageLimit ≤ table.length) (hnot : ¬kernel.Contains table call.address) :
      kernel.hookLoop call (spanPages call.address hookLength) 0 call.address 0 table = (false, table) :=
    hookLoop_of_none (constructHookPage_of_full hnot hfull)
  cases hpages with
  | first hfull hnot => exact hrefused hfull hnot
  | second hfull hcrosses hnot hcode =>
      by_cases hin : kernel.Contains table call.address
      · obtain ⟨i, slot, hi, hcovers, hcall⟩ := constructHookPage_of_contains (call.pages 0)
          (call.locks 0) (hookCode call.proxy) h hin firstLength_eq
        rw [modify_patch_of_hasCode hi hcovers hcode] at hcall
        rw [hookLoop_of_some hcall, if_pos hcrosses, hookLoop_one,
          constructHookPage_of_full hnot hfull]
        rfl
      · exact hrefused hfull hin

/-- What was written is there. -/
theorem Mirrors.hasCode {code : Words.Memory} {n : Nat}
    (h : Mirrors kernel (overwrite (kernel.bytesFrom address code n) written) table)
    (hfits : byteOffset address + n ≤ page4kbSize) : kernel.HasCode table address code n := by
  intro slot hslot hcovers page hpage k hk
  obtain ⟨copy, hcopy, hcontent⟩ := h.content slot hslot
  obtain rfl := Option.some.inj (hpage.symm.trans hcopy)
  have hphys := (covers_iff (h.aligned slot hslot)).mp hcovers
  rw [hcontent _ (by omega), overwrite, bytesFrom_eq hfits, hphys, ← Nat.add_assoc, ← physicalAddress_eq,
    if_pos (by omega), Nat.add_sub_cancel_left]
  rfl

/-- Otherwise something has been changed when a page cannot be had. -/
theorem hookLoop_of_neither (h : Mirrors kernel written table)
    (hnot : ¬(kernel.Obtainable table call ∨ kernel.Refusable table call)) :
    ∃ taken, kernel.hookLoop call (spanPages call.address hookLength) 0 call.address 0 table =
      (false, taken) ∧ taken ≠ table := by
  rw [not_or] at hnot
  obtain ⟨hnotObtainable, hnotRefusable⟩ := hnot
  have hlonger {taken : List HookSlot} (hlength : table.length ≤ taken.length) :
      taken ++ [HookSlot.zeroed] ≠ table := by
    intro hsame
    have hlengths := congrArg List.length hsame
    rw [List.length_append, List.length_singleton] at hlengths
    omega
  by_cases hobtains : kernel.Obtains table 0 call.address (call.pages 0)
  · obtain ⟨first, hfirst, hmirrors, htakes⟩ := constructHookPage_of_obtains
      (call.locks 0) (hookCode call.proxy) h hobtains firstLength_fits firstLength_eq
    have hcrosses : Crosses call.address := by
      by_contra hwithin
      exact hnotObtainable ⟨hobtains, fun hcrosses => absurd hcrosses hwithin⟩
    have hsecond : ¬kernel.Obtains first 0 (secondPage call.address) (call.pages 1) :=
      fun hsecond => hnotObtainable ⟨hobtains, fun _ => (obtains_second_iff htakes).mp hsecond⟩
    unfold Obtains at hsecond
    rw [not_or, not_and_not_right] at hsecond
    obtain ⟨hother, hnone⟩ := hsecond
    rw [hookLoop_of_some hfirst, if_pos hcrosses, hookLoop_one]
    by_cases hfull : hookPageLimit ≤ first.length
    · refine ⟨first, by rw [constructHookPage_of_full hother hfull]; rfl, fun hsame => ?_⟩
      subst hsame
      exact hnotRefusable (.second hfull hcrosses hother (hmirrors.hasCode firstLength_fits))
    · rw [hnone (by omega), constructHookPage_of_none hother (by omega)]
      refine ⟨_, rfl, hlonger ?_⟩
      by_cases hin : kernel.Contains table call.address
      · exact Nat.le_of_eq (htakes.old hin).symm
      · rw [htakes.new hin]
        omega
  · unfold Obtains at hobtains
    rw [not_or, not_and_not_right] at hobtains
    obtain ⟨hother, hnone⟩ := hobtains
    by_cases hfull : hookPageLimit ≤ table.length
    · exact absurd (.first hfull hother) hnotRefusable
    · have hcall : kernel.noirConstructHookPage table (call.pages 0) (call.locks 0) call.address
          (hookCode call.proxy) hookLength = (none, table ++ [HookSlot.zeroed]) := by
        rw [hnone (by omega)]
        exact constructHookPage_of_none hother (by omega)
      exact ⟨_, hookLoop_of_none hcall, hlonger (Nat.le_refl _)⟩

end Calls

section Detour

namespace HookKernel

variable {kernel : HookKernel} {address target : BitVec 64} {length s : Nat}

/-- The loop goes from the start of one instruction to the next. -/
theorem patchLoop_spec {n : Nat} (hn : kernel.instructionStart address n = s)
    (hbefore : ∀ m < n, kernel.instructionStart address m < length) :
    length ≤ kernel.patchLoop address length s ∧
      ∃ n', kernel.instructionStart address n' = kernel.patchLoop address length s ∧
        ∀ m < n', kernel.instructionStart address m < length := by
  induction s using patchLoop.induct kernel address length generalizing n with
  | case1 s hlt ih =>
      rw [patchLoop, if_pos hlt]
      refine ih (n := n + 1) (by rw [instructionStart, hn]) fun m hm => ?_
      rcases Nat.lt_succ_iff_lt_or_eq.mp hm with hbelow | rfl
      · exact hbefore m hbelow
      · exact hn ▸ hlt
  | case2 s hge =>
      rw [patchLoop, if_neg hge]
      exact ⟨Nat.not_lt.mp hge, n, hn, hbefore⟩

theorem low_eight : Words.low 8 target = target := by simp [Words.low]

/-- What follows the instructions. -/
theorem load_detourOf {k n : Nat} :
    Words.load (kernel.detourOf address) (kernel.getPatchSize address hookLength + k) n =
      Words.load (detourCode (address + BitVec.ofNat 64 (kernel.getPatchSize address hookLength))) k n := by
  refine Words.load_shift fun i hi => ?_
  unfold detourOf
  simp only
  rw [if_neg (by omega), Nat.add_assoc, Nat.add_sub_cancel_left]

theorem detours_detourOf : kernel.Detours address (kernel.detourOf address) := by
  have hstart : kernel.instructionStart address 0 = 0 := rfl
  have hbefore : ∀ m < 0, kernel.instructionStart address m < hookLength :=
    fun m hm => absurd hm (Nat.not_lt_zero m)
  obtain ⟨henough, hwhole⟩ := patchLoop_spec hstart hbefore
  refine ⟨hwhole, henough, fun i hi => if_pos hi, ?_, ?_⟩
  · refine (load_detourOf (k := 0)).trans ?_
    have hcode : Words.load (detourCode
        (address + BitVec.ofNat 64 (kernel.getPatchSize address hookLength))) 0 6 =
        Words.load (fun i => [0xFF, 0x25].getD i 0) 0 6 :=
      Words.load_congr fun k hk => Words.store_of_not_mem (.inl (by omega))
    rw [hcode]
    decide
  · rw [load_detourOf, detourCode, Words.load_store, low_eight]

end HookKernel

end Detour

section Sessions

open HookKernel Transition

variable {kernel : HookKernel} {session : HookSession} {call : HookCall} {hooks : List InstalledHook}
  {hook : InstalledHook} {p k : Nat}

/-- The code of the hooks, the last one on top. -/
def overlay (kernel : HookKernel) : List InstalledHook → Nat → Option (BitVec 8)
  | [] => fun _ => none
  | hook :: hooks =>
      overwrite (kernel.bytesFrom hook.address (hookCode hook.proxy) hookLength) (overlay kernel hooks)

theorem bytesFrom_eq_none {address : BitVec 64} {code : Words.Memory} {n : Nat}
    (h : ∀ k < n, kernel.physicalAddress (address + BitVec.ofNat 64 k) ≠ p) :
    kernel.bytesFrom address code n p = none := by
  have hfind : (List.range n).find? (fun k =>
      kernel.physicalAddress (address + BitVec.ofNat 64 k) = p) = none := by
    rw [List.find?_eq_none]
    intro k hk
    rw [decide_eq_true_eq]
    exact h k (List.mem_range.mp hk)
  rw [bytesFrom, hfind, Option.map_none]

/-- Two bytes of a hook have different offsets in their pages. -/
theorem bytesFrom_hook (hk : k < hookLength) :
    kernel.bytesFrom hook.address (hookCode hook.proxy) hookLength
      (kernel.physicalAddress (hook.address + BitVec.ofNat 64 k)) = some (hookCode hook.proxy k) := by
  have hoffset (j : Nat) : kernel.physicalAddress (hook.address + BitVec.ofNat 64 j) % page4kbSize =
      (byteOffset hook.address + j) % page4kbSize := by
    unfold physicalAddress
    rw [byteOffset_add_mod, Nat.mul_add_mod', Nat.mod_mod]
  have hfind : (List.range hookLength).find? (fun j =>
      kernel.physicalAddress (hook.address + BitVec.ofNat 64 j) =
        kernel.physicalAddress (hook.address + BitVec.ofNat 64 k)) = some k := by
    rw [List.find?_range_eq_some]
    refine ⟨decide_eq_true rfl, List.mem_range.mpr hk, fun j hj => ?_⟩
    rw [Bool.not_eq_true', decide_eq_false_iff_not]
    intro hsame
    have hoffsets := (hoffset j).symm.trans ((congrArg (· % page4kbSize) hsame).trans (hoffset k))
    simp only [hookLength, page4kbSize] at hk hoffsets
    omega
  rw [bytesFrom, hfind, Option.map_some]

theorem overlay_eq_none (h : ∀ hook ∈ hooks, ∀ k < hookLength,
    kernel.physicalAddress (hook.address + BitVec.ofNat 64 k) ≠ p) : overlay kernel hooks p = none := by
  induction hooks with
  | nil => rfl
  | cons hook hooks ih =>
      rw [overlay, overwrite, bytesFrom_eq_none (h hook List.mem_cons_self), Option.none_or]
      exact ih fun other hother => h other (List.mem_cons_of_mem _ hother)

/-- Where ranges are apart, no hook is on top of another. -/
theorem overlay_hook (hapart : hooks.Pairwise kernel.Apart) (hmem : hook ∈ hooks) (hk : k < hookLength) :
    overlay kernel hooks (kernel.physicalAddress (hook.address + BitVec.ofNat 64 k)) =
      some (hookCode hook.proxy k) := by
  induction hooks with
  | nil => cases hmem
  | cons first hooks ih =>
      rw [List.pairwise_cons] at hapart
      rw [overlay, overwrite]
      rcases List.mem_cons.mp hmem with rfl | hlater
      · rw [bytesFrom_hook hk, Option.some_or]
      · have hnone : kernel.bytesFrom first.address (hookCode first.proxy) hookLength
            (kernel.physicalAddress (hook.address + BitVec.ofNat 64 k)) = none :=
          bytesFrom_eq_none fun j hj => hapart.1 hook hlater j
            (Nat.lt_of_lt_of_le hj detours_detourOf.enough) k
            (Nat.lt_of_lt_of_le hk detours_detourOf.enough)
        rw [hnone, Option.none_or]
        exact ih hapart.2 hlater

theorem Mirrors.shows (h : Mirrors kernel (overlay kernel session.installed) session.table) :
    kernel.Shows session := by
  refine ⟨h.distinct, h.limited, fun slot hslot page hpage i hi hother => ?_,
    fun hapart hook hhook k hk => ?_⟩
  · obtain ⟨copy, hcopy, hcontent⟩ := h.content slot hslot
    obtain rfl := Option.some.inj (hpage.symm.trans hcopy)
    rw [hcontent i hi, overlay_eq_none hother, Option.getD_none]
  · have hbyte := overlay_hook hapart hhook hk
    obtain ⟨slot, hslot, hcovers⟩ := h.covered _ (hbyte ▸ Option.some_ne_none _)
    obtain ⟨copy, hcopy, hcontent⟩ := h.content slot hslot
    obtain ⟨i, hi⟩ := Nat.exists_eq_add_of_le hcovers.1
    have hlt : i < page4kbSize := by
      have hbelow := hcovers.2
      omega
    refine ⟨slot, hslot, copy, i, hcopy, hlt, hi, ?_⟩
    rw [hcontent i hlt, ← hi, hbyte, Option.getD_some]

/-- What a call makes of the table. -/
theorem constructHook_of_detour (hdetour : call.detour = true) {succeeded : Bool}
    {taken : List HookSlot} (hloop : kernel.hookLoop call (spanPages call.address hookLength) 0 call.address 0
      session.table = (succeeded, taken)) :
    kernel.noirConstructHook session.table call =
      ⟨succeeded, taken, some (kernel.detourOf call.address)⟩ := by
  rw [noirConstructHook, if_pos hdetour, hloop]

theorem next_of_outcome {outcome : HookOutcome}
    (hcall : kernel.noirConstructHook session.table call = outcome) : kernel.next session call =
      ⟨outcome.table, if outcome.succeeded then ⟨call.address, call.proxy⟩ :: session.installed
        else session.installed⟩ := by
  rw [next, hcall]

/-- A call that fails and leaves the table alone. -/
theorem constructs_of_failed (h : Mirrors kernel (overlay kernel session.installed) session.table)
    {detour : Option Words.Memory}
    (hcall : kernel.noirConstructHook session.table call = ⟨false, session.table, detour⟩) :
    kernel.Constructs session call ∧
      Mirrors kernel (overlay kernel (kernel.next session call).installed)
        (kernel.next session call).table := by
  have hnext : kernel.next session call = session := next_of_outcome hcall
  refine ⟨⟨hnext.symm ▸ h.shows, fun hsucceeded => ?_, fun _ => by rw [hnext]⟩, hnext.symm ▸ h⟩
  rw [hcall] at hsucceeded
  cases hsucceeded

theorem HookKernel.Fits.constructs (h : Mirrors kernel (overlay kernel session.installed) session.table)
    (hfits : kernel.Fits session call) : kernel.Constructs session call ∧
      Mirrors kernel (overlay kernel (kernel.next session call).installed)
        (kernel.next session call).table := by
  cases hdetour : call.detour with
  | false =>
      have hcall : kernel.noirConstructHook session.table call = ⟨false, session.table, none⟩ := by
        rw [noirConstructHook, if_neg (ne_true_of_eq_false hdetour)]
      exact constructs_of_failed h hcall
  | true =>
      rcases hfits hdetour with hobtainable | hrefusable
      · obtain ⟨taken, hloop, hmirrors⟩ := hookLoop_of_obtainable h hobtainable
        have hcall := constructHook_of_detour hdetour hloop
        have hnext := next_of_outcome hcall
        have hkept : Mirrors kernel (overlay kernel (kernel.next session call).installed)
            (kernel.next session call).table := by
          rw [hnext]
          exact hmirrors
        refine ⟨⟨hkept.shows, fun _ => ⟨_, by rw [hcall], detours_detourOf⟩, fun hfailed => ?_⟩, hkept⟩
        rw [hcall] at hfailed
        cases hfailed
      · exact constructs_of_failed h
          (constructHook_of_detour hdetour (hookLoop_of_refusable h hrefusable))

theorem HookKernel.Constructs.fits (h : Mirrors kernel (overlay kernel session.installed) session.table)
    (hconstructs : kernel.Constructs session call) : kernel.Fits session call := by
  intro hdetour
  by_contra hnot
  obtain ⟨taken, hloop, hchanged⟩ := hookLoop_of_neither h hnot
  have hcall := constructHook_of_detour hdetour hloop
  have hsame := hconstructs.failed (by rw [hcall])
  rw [next_of_outcome hcall] at hsame
  exact hchanged hsame

theorem mirrors_start : Mirrors kernel (overlay kernel HookSession.start.installed)
    HookSession.start.table where
  distinct := List.nodup_nil
  limited := Nat.zero_le _
  aligned := nofun
  content := nofun
  covered := fun _ hp => absurd rfl hp

/-- Every call of a sequence constructs its hook, or fails and leaves everything as it was, exactly if
every call has the pages it begins with. -/
theorem along_constructs_iff (kernel : HookKernel) (calls : List HookCall) :
    Along kernel.Constructs kernel.next HookSession.start calls ↔
      Along kernel.Fits kernel.next HookSession.start calls :=
  along_iff (I := fun session => Mirrors kernel (overlay kernel session.installed) session.table)
    (Q := fun _ _ => True) (fun _ _ h _ => ⟨Constructs.fits h, fun hfits => (Fits.constructs h hfits).1⟩)
    (fun _ _ h _ hfits => (Fits.constructs h hfits).2) mirrors_start (along_of_forall fun _ _ => trivial)

/-- A hook in the page that is at hand, with no memory for a copy. -/
def starvedCall : HookCall := ⟨0x1000, 0x8000, true, fun _ => none, fun _ => true⟩

def plainKernel : HookKernel := ⟨fun n => n, fun _ => 0x90, fun _ => 1, fun _ => Nat.one_pos⟩

/-- The slot is counted although there is no page for it. -/
theorem not_forall_along_constructs : ¬∀ (kernel : HookKernel) (calls : List HookCall),
    Along kernel.Constructs kernel.next HookSession.start calls := by
  intro hall
  have hfits := ((along_constructs_iff plainKernel [starvedCall]).mp (hall _ _)).1 rfl
  have hempty : ¬plainKernel.Contains HookSession.start.table starvedCall.address := by
    rintro ⟨slot, hslot, -⟩
    cases hslot
  rcases hfits with hobtainable | hrefusable
  · rcases hobtainable.first with hin | ⟨-, hpage⟩
    · exact hempty hin
    · exact hpage rfl
  · cases hrefusable with
    | first hfull => exact absurd hfull (by decide)
    | second hfull => exact absurd hfull (by decide)

end Sessions

end NoirVisor
