import NoirVisor.Radix.Place
import NoirVisor.Radix.Trail
import NoirVisor.VirtualMemory.Chunks
import NoirVisor.VirtualMemory.Entries

/-!
# Copies of host virtual memory

The walk of the host's tables and the copy that uses it (`xpf_core/noirhvm.c`). The walk tells what
an entry refuses at every level, and heeds it at the last one.
-/

namespace NoirVisor

open Transfer

/-- The host's tables. Their general entries have the fields of nested ones. -/
def hostFormat : Radix.Format NptEntry where
  present entry := entry.present
  leaf _ entry := entry.psize
  child entry := entry.base

/-- Levels count from zero here. -/
def nvcTranslateHostVirtualAddressRoutine64 (memory : Radix.Frames NptEntry) (va : Nat)
    (access : VaAccess) : (level pt : Nat) → NoirPageFaultErrorCode × Option Nat
  | 0, pt =>
    let entry := memory (page4kbCount pt) (pageEntryIndex64 (va / 2 ^ 12))
    let err := access.check entry
    if err.value then (err, none) else (err, some (page4kbMult entry.base + page4kbOffset va))
  | level + 1, pt =>
    let shiftDiff := 9 * (level + 1)
    let entry := memory (page4kbCount pt) (pageEntryIndex64 (va / 2 ^ (12 + shiftDiff)))
    let err := access.check entry
    -- The error is kept from here on when the entry maps a page, and has no effect otherwise.
    if entry.psize then
      let base := entry.base / 2 ^ shiftDiff * 2 ^ (12 + shiftDiff)
      (err, some (base + (va &&& offsetMask (level + 1))))
    else nvcTranslateHostVirtualAddressRoutine64 memory va access level (page4kbMult entry.base)

/-- The length copied, with the moves between the host's memory and the buffer. -/
def nvcCopyHostVirtualMemory64 (memory : Radix.Frames NptEntry) (pt : Nat) (write la57 : Bool) :
    (fuel va length : Nat) → CopyResult
  | 0, _, _ => .error .outOfFuel
  | fuel + 1, va, length =>
    if 0x1000 < (page4kbOffset va + length) % 2 ^ 64 then
      -- Has page-span.
      copyLoop (fun curVa copiedSize copySize => do
        let (length, moves) ←
          nvcCopyHostVirtualMemory64 memory pt write la57 fuel curVa copySize
        .ok (length, moves.map (Move.shift copiedSize))) va ((va + length) % 2 ^ 64) fuel va 0 0
    else
      -- No page-span.
      match (nvcTranslateHostVirtualAddressRoutine64 memory va ⟨true, write, false, false⟩
        (la57.toNat + 3) pt).2 with
      | some pa => .ok (length, run pa 0 length)
      | none => .ok (0, [])

/-! ### What the copy and the walk are for -/

/-- The tables below a root, of four or five levels. -/
structure HostTables where
  memory : Radix.Frames NptEntry
  root : Nat
  la57 : Bool

namespace HostTables

variable (tables : HostTables)

def top : Nat := tables.la57.toNat + 3

/-- The entries that the pointers of the tables lead an address past. -/
def trail (va : Nat) : Radix.Walk NptEntry :=
  Radix.trail hostFormat tables.memory tables.top tables.root va

/-- Where the processor finds an address for an access. A page is of 1 GiB at most. -/
def granted (access : VaAccess) (va : Nat) : Option Nat :=
  (Radix.mapped hostFormat tables.memory tables.top tables.root va).bind fun walk =>
    if walk.level < 3 ∧ walk.entries.all access.grantedBy then some (leafTarget walk va) else none

def translate (access : VaAccess) (va : Nat) : NoirPageFaultErrorCode × Option Nat :=
  nvcTranslateHostVirtualAddressRoutine64 tables.memory va access tables.top
    (page4kbMult tables.root)

def copy (write : Bool) (fuel va length : Nat) : CopyResult :=
  nvcCopyHostVirtualMemory64 tables.memory (page4kbMult tables.root) write tables.la57 fuel va length

/-- The access that a copy makes. -/
def copyAccess (write : Bool) : VaAccess := ⟨true, write, false, false⟩

/-- The entries of the levels above the last one. -/
def upper (va : Nat) : List NptEntry :=
  if (tables.trail va).level = 0 then (tables.trail va).above else (tables.trail va).entries

/-- The copy returns, and moves the bytes of the longest prefix that the processor would let through,
each at its address. -/
def CopiesPrefix (write : Bool) (va length : Nat) : Prop :=
  ∃ enough, ∀ fuel ≥ enough, ∃ n moves, tables.copy write fuel va length = .ok (n, moves) ∧
    Exact (fun k a => tables.granted (copyAccess write) (va + k) = some a) 0 length n moves ∧
    ∀ (bytes : Bytes (BitVec 8)) (place : Nat), n ≤ place →
      (perform write moves bytes).buffer place = bytes.buffer place

structure HostMemoryRight (write : Bool) (va length : Nat) (access : VaAccess) : Prop where
  copy : tables.CopiesPrefix write va length
  walk : (tables.translate access va).2.isSome = true →
    (tables.upper va).all access.grantedBy = true

/-- The walk comes to the right answer by the bits of the entries. -/
def Faithful (write : Bool) (va : Nat) : Prop :=
  if (tables.trail va).level = 0 then
    (tables.trail va).leaf.present = true → (write = true → (tables.trail va).leaf.write = true) →
      ((tables.trail va).leaf.noExecute = false ↔
        (tables.trail va).above.all (copyAccess write).grantedBy = true)
  else
    (tables.trail va).level < 3 ∧
      (tables.trail va).entries.all (copyAccess write).grantedBy = true

/-- Where the copy has several pages and its end is that of the address space, it does nothing. -/
def CopyServes (write : Bool) (va length : Nat) : Prop :=
  if 0x1000 < page4kbOffset va + length ∧ va + length = 2 ^ 64 then
    tables.granted (copyAccess write) va = none
  else
    ∀ k < length, (∀ j < k, (tables.granted (copyAccess write) (va + j)).isSome = true) →
      tables.Faithful write (va + k)

/-- The entries above the last level grant the access, or the one at the last level refuses it. -/
def WalkServes (access : VaAccess) (va : Nat) : Prop :=
  (tables.upper va).all access.grantedBy = true ∨
    ((tables.trail va).level = 0 ∧ (access.check (tables.trail va).leaf).value = true)

section Walk

variable {memory : Radix.Frames NptEntry} {va level frame : Nat} {access : VaAccess}

/-- A page entry that refuses the access stops the walk. Anything else goes through, to the address
that the entry maps where the mask of its offset is right. -/
structure WalkAnswers (access : VaAccess) (trail : Radix.Walk NptEntry) (va : Nat)
    (answer : Option Nat) : Prop where
  refused : trail.level = 0 → (access.check trail.leaf).value = true → answer = none
  found : ¬(trail.level = 0 ∧ (access.check trail.leaf).value = true) →
    ∃ pa, answer = some pa ∧ (trail.level < 3 → pa = leafTarget trail va)

theorem translate_zero : nvcTranslateHostVirtualAddressRoutine64 memory va access 0 (page4kbMult frame) =
    if (access.check (memory frame (Radix.index 0 va))).value then
      (access.check (memory frame (Radix.index 0 va)), none)
    else (access.check (memory frame (Radix.index 0 va)),
      some (page4kbMult (memory frame (Radix.index 0 va)).base + page4kbOffset va)) := by
  unfold nvcTranslateHostVirtualAddressRoutine64
  rw [page4kbCount_page4kbMult]
  rfl

theorem translate_of_leaf (h : (memory frame (Radix.index (level + 1) va)).psize = true) :
    nvcTranslateHostVirtualAddressRoutine64 memory va access (level + 1) (page4kbMult frame) =
      (access.check (memory frame (Radix.index (level + 1) va)),
        some ((memory frame (Radix.index (level + 1) va)).base / 2 ^ (9 * (level + 1)) *
          2 ^ (12 + 9 * (level + 1)) + (va &&& offsetMask (level + 1)))) := by
  conv_lhs => unfold nvcTranslateHostVirtualAddressRoutine64
  rw [page4kbCount_page4kbMult]
  exact if_pos h

theorem translate_of_table (h : (memory frame (Radix.index (level + 1) va)).psize = false) :
    nvcTranslateHostVirtualAddressRoutine64 memory va access (level + 1) (page4kbMult frame) =
      nvcTranslateHostVirtualAddressRoutine64 memory va access level
        (page4kbMult (memory frame (Radix.index (level + 1) va)).base) := by
  conv_lhs => unfold nvcTranslateHostVirtualAddressRoutine64
  rw [page4kbCount_page4kbMult]
  exact if_neg (Bool.eq_false_iff.mp h)

theorem walkAnswers (va : Nat) (access : VaAccess) (level frame : Nat) :
    WalkAnswers access (Radix.trail hostFormat memory level frame va) va
      (nvcTranslateHostVirtualAddressRoutine64 memory va access level (page4kbMult frame)).2 := by
  induction level generalizing frame with
  | zero =>
    rw [translate_zero, Radix.trail]
    cases hvalue : (access.check (memory frame (Radix.index 0 va))).value with
    | true => exact ⟨fun _ _ => rfl, fun h => absurd ⟨rfl, hvalue⟩ h⟩
    | false =>
      refine ⟨fun _ htrue => absurd (hvalue.symm.trans htrue) Bool.false_ne_true, fun _ => ?_⟩
      refine ⟨_, rfl, fun _ => ?_⟩
      simp [leafTarget, NptEntry.pageBase, page4kbMult, page4kbOffset]
  | succ level ih =>
    cases hpsize : (memory frame (Radix.index (level + 1) va)).psize with
    | true =>
      have hleaf : hostFormat.leaf (level + 1) (memory frame (Radix.index (level + 1) va)) = true :=
        hpsize
      rw [translate_of_leaf hpsize, Radix.trail_of_leaf hleaf]
      refine ⟨fun h => absurd h (Nat.succ_ne_zero level), fun _ => ⟨_, rfl, fun hlow => ?_⟩⟩
      rw [and_offsetMask va hlow]
      rfl
    | false =>
      have hleaf : hostFormat.leaf (level + 1) (memory frame (Radix.index (level + 1) va)) = false :=
        hpsize
      have hbelow := ih (memory frame (Radix.index (level + 1) va)).base
      rw [translate_of_table hpsize, Radix.trail_of_table hleaf]
      exact ⟨hbelow.refused, hbelow.found⟩

end Walk

section Copy

variable {tables : HostTables} {write : Bool} {va place length : Nat} {access : VaAccess}

theorem granted_eq (access : VaAccess) (va : Nat) : tables.granted access va =
    if (tables.trail va).level < 3 ∧ (tables.trail va).entries.all access.grantedBy then
      some (leafTarget (tables.trail va) va)
    else none := by
  unfold granted Radix.mapped
  rw [Radix.walk_eq_trail]
  change ((if (tables.trail va).above.all hostFormat.present then some (tables.trail va)
    else none).filter _).bind _ = _
  by_cases hpresent : (tables.trail va).entries.all hostFormat.present = true
  · have habove : (tables.trail va).above.all hostFormat.present = true := by
      rw [Radix.Walk.entries, List.all_append, Bool.and_eq_true] at hpresent
      exact hpresent.1
    rw [if_pos habove, Option.filter_some, if_pos hpresent]
    rfl
  · have hrefused : ¬((tables.trail va).level < 3 ∧
        (tables.trail va).entries.all access.grantedBy = true) := by
      rintro ⟨-, hall⟩
      refine hpresent (List.all_eq_true.mpr fun entry hentry => ?_)
      have hgranted := List.all_eq_true.mp hall entry hentry
      simp only [VaAccess.grantedBy, Bool.and_eq_true] at hgranted
      exact hgranted.1.1.1
    rw [if_neg hrefused]
    split
    · rw [Option.filter_some, if_neg hpresent]
      rfl
    · rfl

/-- A page entry that refuses the access as the walk compares it. -/
def Refused (tables : HostTables) (access : VaAccess) (va : Nat) : Prop :=
  (tables.trail va).level = 0 ∧ (access.check (tables.trail va).leaf).value = true

/-- The addresses the copy may use for a byte. -/
def Reaches (tables : HostTables) (write : Bool) (va place address : Nat) : Prop :=
  ¬tables.Refused (copyAccess write) (va + place) ∧
    ((tables.trail (va + place)).level < 3 →
      address = leafTarget (tables.trail (va + place)) (va + place))

theorem exists_reaches : (∃ address, tables.Reaches write va place address) ↔
    ¬tables.Refused (copyAccess write) (va + place) :=
  ⟨fun ⟨_, h⟩ => h.1, fun h => ⟨_, h, fun _ => rfl⟩⟩

theorem trail_add {k : Nat} (h : page4kbOffset va + k < 0x1000) :
    tables.trail (va + k) = tables.trail va := by
  refine Radix.trail_congr ?_
  unfold page4kbOffset at h
  unfold Radix.region
  omega

theorem translate_answers (access : VaAccess) (va : Nat) :
    WalkAnswers access (tables.trail va) va (tables.translate access va).2 :=
  walkAnswers va access tables.top tables.root

theorem copy_succ_of_page {fuel : Nat} (h : ¬0x1000 < (page4kbOffset va + length) % 2 ^ 64) :
    tables.copy write (fuel + 1) va length =
      match (tables.translate (copyAccess write) va).2 with
      | some pa => .ok (length, run pa 0 length)
      | none => .ok (0, []) := by
  unfold copy nvcCopyHostVirtualMemory64
  rw [if_neg h]
  rfl

/-- A copy within a page. -/
theorem copy_exact_of_page {fuel : Nat} (hpage : page4kbOffset va + length ≤ 0x1000) :
    ∃ n moves, tables.copy write (fuel + 1) va length = .ok (n, moves) ∧
      Exact (tables.Reaches write va) 0 length n moves := by
  have hspan : ¬0x1000 < (page4kbOffset va + length) % 2 ^ 64 := by
    rw [Nat.mod_eq_of_lt (by omega)]
    omega
  have hanswers := tables.translate_answers (copyAccess write) va
  rw [copy_succ_of_page hspan]
  by_cases hrefused : tables.Refused (copyAccess write) va
  · rw [hanswers.refused hrefused.1 hrefused.2]
    refine ⟨0, [], rfl, Nat.zero_le _, rfl, fun k hk => absurd hk (Nat.not_lt_zero k),
      fun _ a ha => ha.1 hrefused⟩
  · obtain ⟨pa, hpa, htarget⟩ := hanswers.found hrefused
    rw [hpa]
    refine ⟨length, run pa 0 length, rfl, Exact.run_iff.mpr fun k hk => ?_⟩
    have hk' : page4kbOffset va + k < 0x1000 := by omega
    rw [Nat.zero_add]
    refine ⟨?_, fun hlow => ?_⟩
    · rwa [Refused, trail_add hk']
    · rw [trail_add hk'] at hlow ⊢
      rw [leafTarget_add _ hk']
      exact congrArg (· + k) (htarget hlow)

/-- The chunks of a copy of several pages. -/
def chunk (tables : HostTables) (write : Bool) (fuel : Nat) (curVa copiedSize copySize : Nat) :
    CopyResult := do
  let (length, moves) ← tables.copy write fuel curVa copySize
  .ok (length, moves.map (Move.shift copiedSize))

theorem copy_succ_of_span {fuel : Nat} (h : 0x1000 < (page4kbOffset va + length) % 2 ^ 64) :
    tables.copy write (fuel + 1) va length =
      copyLoop (tables.chunk write fuel) va ((va + length) % 2 ^ 64) fuel va 0 0 := by
  conv_lhs => unfold copy nvcCopyHostVirtualMemory64
  rw [if_pos h]
  rfl

theorem reaches_add (c : Nat) :
    tables.Reaches write (va + c) = fun k => tables.Reaches write va (c + k) := by
  funext k a
  unfold Reaches
  rw [Nat.add_assoc]

/-- With fuel enough a copy that does not wrap ends, and it is exact for what the walk lets
through. The induction is on the fuel, of which a chunk needs less than the whole. -/
theorem copy_exact {fuel : Nat} (hfuel : length + 2 ≤ fuel)
    (hend : page4kbOffset va + length ≤ 0x1000 ∨ va + length < 2 ^ 64) :
    ∃ n moves, tables.copy write fuel va length = .ok (n, moves) ∧
      Exact (tables.Reaches write va) 0 length n moves := by
  induction fuel generalizing va length with
  | zero => exact absurd hfuel (by omega)
  | succ fuel ih =>
    by_cases hpage : page4kbOffset va + length ≤ 0x1000
    · exact copy_exact_of_page hpage
    · have hlt : va + length < 2 ^ 64 := hend.resolve_left hpage
      have hoffset : page4kbOffset va ≤ va := Nat.mod_le _ _
      have hspan : 0x1000 < (page4kbOffset va + length) % 2 ^ 64 := by
        rw [Nat.mod_eq_of_lt (by omega)]
        omega
      have hchunk : ∀ c size, 0 < size → size ≤ chunkSize va → c + size ≤ length →
          ∃ n moves, tables.chunk write fuel (va + c) c size = .ok (n, moves) ∧
            Exact (tables.Reaches write va) c size n moves := by
        intro c size hsize hle hin
        have hsmall : size < length := by
          unfold chunkSize at hle
          omega
        obtain ⟨n, moves, hcopy, hexact⟩ := @ih (va + c) size (by omega) (Or.inr (by omega))
        rw [reaches_add] at hexact
        refine ⟨n, moves.map (Move.shift c), ?_, hexact.shift⟩
        rw [chunk, hcopy]
        rfl
      have hexact : ChunksExact (tables.chunk write fuel) (tables.Reaches write va) va length 0 := by
        intro j hj _
        have hpos := chunkSize_pos va
        exact hchunk _ _ (by omega) (Nat.min_le_left _ _) (by omega)
      have hanswers : Answers (tables.chunk write fuel) va length := by
        intro c size n moves hsize hle hin hinner
        have hexact := (chunkExact_iff hinner).mp (hchunk c size hsize hle hin)
        exact ⟨hexact.le, hexact.count⟩
      have hloopFuel : length - 0 < fuel := by omega
      obtain ⟨n, moves, hloop, hwhole⟩ :=
        (copyLoop_exact_iff hanswers (Nat.zero_le length) hloopFuel).mpr hexact
      rw [copy_succ_of_span hspan, Nat.mod_eq_of_lt hlt]
      rw [Nat.zero_add] at hloop
      exact ⟨n, moves, hloop, hwhole⟩

/-- A copy of several pages up to the end of the address space does nothing. -/
theorem copy_of_wraps {fuel : Nat} (hspan : 0x1000 < page4kbOffset va + length)
    (hlength : length + 0x1000 ≤ 2 ^ 64) (hend : va + length = 2 ^ 64) :
    tables.copy write (fuel + 2) va length = .ok (0, []) := by
  have hoffset : page4kbOffset va < 0x1000 := Nat.mod_lt _ (by decide)
  rw [copy_succ_of_span (by rw [Nat.mod_eq_of_lt (by omega)]; exact hspan), hend, Nat.mod_self]
  rfl

theorem check_value_copyAccess (write : Bool) (entry : NptEntry) :
    ((copyAccess write).check entry).value = false ↔ entry.present = true ∧
      (write = true → entry.write = true) ∧ entry.noExecute = false := by
  unfold VaAccess.check NoirPageFaultErrorCode.value copyAccess
  dsimp only
  rw [decide_lt_eq, decide_lt_eq, decide_lt_eq]
  cases entry.present <;> cases entry.noExecute <;> cases write <;> simp [Bool.le_iff_imp]

theorem grantedBy_copyAccess (write : Bool) (entry : NptEntry) :
    (copyAccess write).grantedBy entry = true ↔
      entry.present = true ∧ (write = true → entry.write = true) := by
  cases write <;> simp [VaAccess.grantedBy, copyAccess]

/-- The walk and the processor let a byte through alike just when the bits do not tell them apart. -/
theorem faithful_iff : tables.Faithful write va ↔ (¬tables.Refused (copyAccess write) va ↔
    (tables.granted (copyAccess write) va).isSome = true) := by
  have hgranted : (tables.granted (copyAccess write) va).isSome = true ↔
      (tables.trail va).level < 3 ∧
        (tables.trail va).entries.all (copyAccess write).grantedBy = true := by
    rw [granted_eq]
    split
    · rename_i h
      exact iff_of_true rfl h
    · rename_i h
      exact iff_of_false nofun h
  rw [hgranted]
  unfold Faithful Refused
  split
  · rename_i hlevel
    have hentries : (tables.trail va).entries.all (copyAccess write).grantedBy = true ↔
        (tables.trail va).above.all (copyAccess write).grantedBy = true ∧
          (copyAccess write).grantedBy (tables.trail va).leaf = true := by
      rw [Radix.Walk.entries, List.all_append, Bool.and_eq_true]
      simp
    have hcheck := check_value_copyAccess write (tables.trail va).leaf
    rw [hentries, grantedBy_copyAccess, hlevel]
    simp only [true_and, Bool.not_eq_true, hcheck]
    generalize (tables.trail va).above.all (copyAccess write).grantedBy = granted
    constructor
    · intro h
      constructor
      · rintro ⟨hpresent, hwrite, hexecute⟩
        exact ⟨by decide, (h hpresent hwrite).mp hexecute, hpresent, hwrite⟩
      · rintro ⟨-, hgranted, hpresent, hwrite⟩
        exact ⟨hpresent, hwrite, (h hpresent hwrite).mpr hgranted⟩
    · intro h hpresent hwrite
      constructor
      · exact fun hexecute => (h.mp ⟨hpresent, hwrite, hexecute⟩).2.1
      · exact fun hgranted => (h.mpr ⟨by decide, hgranted, hpresent, hwrite⟩).2.2
  · rename_i hlevel
    exact ⟨fun h => iff_of_true (fun hrefused => hlevel hrefused.1) h,
      fun h => h.mp fun hrefused => hlevel hrefused.1⟩

theorem granted_of_reaches {a a' : Nat}
    (hgranted : tables.granted (copyAccess write) (va + place) = some a')
    (hreaches : tables.Reaches write va place a) : a = a' := by
  rw [granted_eq] at hgranted
  split at hgranted
  · rename_i h
    exact (hreaches.2 h.1).trans (Option.some.inj hgranted)
  · cases hgranted

theorem copiesPrefix_iff (hend : va + length ≤ 2 ^ 64) (hlength : length + 0x1000 ≤ 2 ^ 64) :
    tables.CopiesPrefix write va length ↔ tables.CopyServes write va length := by
  unfold CopyServes
  split
  · rename_i hwraps
    have hpos : 0 < length := by
      have hoffset : page4kbOffset va < 0x1000 := Nat.mod_lt _ (by decide)
      omega
    constructor
    · rintro ⟨enough, h⟩
      obtain ⟨n, moves, hcopy, hexact, -⟩ := h (enough + 2) (by omega)
      rw [copy_of_wraps hwraps.1 hlength hwraps.2] at hcopy
      cases hcopy
      have hnone := (Exact.nil_iff hpos).mp hexact
      exact Option.eq_none_iff_forall_ne_some.mpr hnone
    · intro hnone
      refine ⟨2, fun fuel hfuel => ⟨0, [], ?_, ?_, fun _ _ _ => rfl⟩⟩
      · rw [show fuel = fuel - 2 + 2 by omega]
        exact copy_of_wraps hwraps.1 hlength hwraps.2
      · exact (Exact.nil_iff hpos).mpr (Option.eq_none_iff_forall_ne_some.mp hnone)
  · rename_i hwraps
    have hfits : page4kbOffset va + length ≤ 0x1000 ∨ va + length < 2 ^ 64 := by omega
    have hagree : ∀ {n moves}, Exact (tables.Reaches write va) 0 length n moves →
        (Exact (fun k a => tables.granted (copyAccess write) (va + k) = some a) 0 length n moves ↔
          ∀ k < length, (∀ j < k,
            (tables.granted (copyAccess write) (va + j)).isSome = true) →
              tables.Faithful write (va + k)) := by
      intro n moves hexact
      rw [hexact.congr_iff fun place a a' ha' ha => granted_of_reaches ha' ha]
      simp only [Nat.zero_add, exists_reaches, ← Option.isSome_iff_exists, faithful_iff]
    constructor
    · rintro ⟨enough, h⟩
      obtain ⟨n, moves, hcopy, hexact, -⟩ := h (enough + length + 2) (by omega)
      obtain ⟨n', moves', hcopy', hexact'⟩ := @copy_exact tables write va length
        (enough + length + 2) (by omega) hfits
      rw [hcopy'] at hcopy
      cases hcopy
      exact (hagree hexact').mp hexact
    · intro hfaithful
      refine ⟨length + 2, fun fuel hfuel => ?_⟩
      obtain ⟨n, moves, hcopy, hexact⟩ := @copy_exact tables write va length fuel hfuel hfits
      have hgranted := (hagree hexact).mpr hfaithful
      exact ⟨n, moves, hcopy, hgranted,
        fun bytes place hplace => hgranted.buffer_past bytes (by omega)⟩

theorem walkServes_iff : ((tables.translate access va).2.isSome = true →
    (tables.upper va).all access.grantedBy = true) ↔ tables.WalkServes access va := by
  have hanswers := tables.translate_answers access va
  unfold WalkServes
  by_cases hrefused : tables.Refused access va
  · rw [hanswers.refused hrefused.1 hrefused.2]
    exact iff_of_true nofun (Or.inr hrefused)
  · obtain ⟨pa, hpa, -⟩ := hanswers.found hrefused
    rw [hpa]
    exact ⟨fun h => Or.inl (h rfl), fun h _ => h.resolve_right hrefused⟩

theorem hostMemoryRight_iff (tables : HostTables) (write : Bool) {va length : Nat}
    (access : VaAccess) (hend : va + length ≤ 2 ^ 64) (hlength : length + 0x1000 ≤ 2 ^ 64) :
    tables.HostMemoryRight write va length access ↔
      tables.CopyServes write va length ∧ tables.WalkServes access va := by
  rw [← copiesPrefix_iff hend hlength, ← walkServes_iff]
  exact ⟨fun h => ⟨h.copy, h.walk⟩, fun h => ⟨h.1, h.2⟩⟩

end Copy

/-- Tables whose first 2 MiB are one large page at the address zero, present or not. -/
def largePageTables (present : Bool) : HostTables where
  memory f i :=
    if i = 0 ∧ f < 2 then { present := true, write := true, base := f + 1 }
    else if i = 0 ∧ f = 2 then { present := present, write := true, psize := true }
    else {}
  root := 0
  la57 := false

theorem largePageTables_right :
    (largePageTables true).HostMemoryRight true 0xff8 0x10 (copyAccess true) := by
  have htrail : ∀ k < 0x10, (largePageTables true).trail (0xff8 + k) =
      (largePageTables true).trail 0xff8 := by decide
  refine (hostMemoryRight_iff _ _ _ (by decide) (by decide)).mpr ⟨?_, Or.inl (by decide)⟩
  rw [CopyServes, if_neg (by decide)]
  intro k hk _
  rw [Faithful, htrail k hk, if_neg (by decide)]
  exact ⟨by decide, by decide⟩

/-- The walk goes through a large page that is not present. -/
theorem not_forall_hostMemoryRight :
    ¬∀ (tables : HostTables) (write : Bool) (va length : Nat) (access : VaAccess),
      va + length ≤ 2 ^ 64 → length + 0x1000 ≤ 2 ^ 64 →
        tables.HostMemoryRight write va length access := by
  intro h
  have hright := h (largePageTables false) false 0 0 (copyAccess false) (by decide) (by decide)
  exact absurd (hright.walk (by decide)) (by decide)

end HostTables

end NoirVisor
