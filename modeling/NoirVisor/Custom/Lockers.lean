import NoirVisor.Platform
import NoirVisor.Tlb.Tagging
import NoirVisor.Transition

/-!
# Slots for lockers

A VM keeps what it locked in memory in slots. They are in a list of pages, each with a bitmap of the slots
that are in use.
-/

namespace NoirVisor

open Bitmap

def noirCvmLockersPerArray : Nat := 503

/-- `noir_cvm_lockers_list`, a page: the address of the next one, zero for none, then the bitmap, then the
lockers. -/
structure CvmLockersList where
  next : Nat
  bitmap : Nat → Bool
  lockers : Nat → Nat

/-- Where the lockers are in the page. -/
def lockersOffset : Nat := 72

/-- A bit counted from the start of the page. -/
def CvmLockersList.resetBitmap (list : CvmLockersList) (index : Nat) : CvmLockersList :=
  if index < 64 then { list with next := list.next - (list.next &&& 2 ^ index) }
  else { list with bitmap := Function.update list.bitmap (index - 64) false }

/-- The pages of a VM by address. Beside them stand the slots that are handed out and not freed. -/
structure LockerStore where
  lockerHead : Nat
  lockerTail : Nat
  pages : Nat → Option CvmLockersList
  live : List Nat

def slotAddress (page index : Nat) : Nat := page + lockersOffset + 8 * index

namespace LockerStore

variable (s : LockerStore)

/-- A page that the source follows a link to. -/
def page (address : Nat) : Outcome CvmLockersList := (s.pages address).elim (throw .outOfBounds) pure

def setPage (address : Nat) (list : CvmLockersList) : LockerStore :=
  { s with pages := Function.update s.pages address (some list) }

/-- The first page from this one with a clear bit. -/
def findSlot : Nat → Nat → Outcome (Option (Nat × Nat))
  | 0, cur => if cur = 0 then pure none else throw .outOfFuel
  | fuel + 1, cur =>
      if cur = 0 then pure none
      else do
        let list ← s.page cur
        let index := noirFindClearBit list.bitmap noirCvmLockersPerArray
        if index ≠ 0xffffffff then pure (some (cur, index)) else findSlot fuel list.next

/-- A new page is linked to the tail, which it does not become. `answer` is the address of the new page. -/
def nvcAllocLockerSlot (fuel : Nat) (answer : Option Nat) : Outcome (Option Nat × LockerStore) := do
  match ← s.findSlot fuel s.lockerHead with
  | some (cur, index) =>
      let list ← s.page cur
      pure (some (slotAddress cur index),
        s.setPage cur { list with bitmap := Function.update list.bitmap index true })
  | none =>
      let tail ← s.page s.lockerTail
      let s := s.setPage s.lockerTail { tail with next := answer.getD 0 }
      match answer with
      | none => pure (none, s)
      | some new =>
          pure (some (slotAddress new 0),
            s.setPage new { next := 0, bitmap := fun i => i == 0, lockers := fun _ => 0 })

/-- The index is that of the word of the slot, and the bitmap that of the page. -/
def nvcFreeLockerSlot (lockerSlot : Nat) : Outcome LockerStore := do
  let lockerList := lockerSlot / 2 ^ 12 * 2 ^ 12
  if lockerList = 0 then pure s
  else
    let list ← s.page lockerList
    let index := lockerSlot % 2 ^ 12 / 8
    let list := list.resetBitmap index
    pure (s.setPage lockerList
      { list with lockers := Function.update list.lockers (index - lockersOffset / 8) 0 })

/-- The slots of this page and the following whose lockers are unlocked. -/
def nvcReleaseLockers : Nat → Nat → Outcome (List Nat)
  | 0, cur => if cur = 0 then pure [] else throw .outOfFuel
  | fuel + 1, cur =>
      if cur = 0 then pure []
      else do
        let list ← s.page cur
        let rest ← nvcReleaseLockers fuel list.next
        pure (((List.range noirCvmLockersPerArray).filter fun i => list.lockers i != 0).map
          (slotAddress cur) ++ rest)

/-- The pages that are linked from this one. -/
def Linked : Nat → List Nat → Prop
  | address, [] => address = 0
  | address, page :: rest =>
      address ≠ 0 ∧ address = page ∧ ∃ list, s.pages page = some list ∧ Linked list.next rest

/-- What is in a slot. -/
def read (slot : Nat) : Nat :=
  (s.pages (slot / 2 ^ 12 * 2 ^ 12)).elim 0 fun list =>
    list.lockers (slot % 2 ^ 12 / 8 - lockersOffset / 8)

/-- The slots that are handed out are distinct and in the pages of the VM, the bit of every slot tells
whether it is handed out, and a release visits each of them that has a locker once. -/
structure Sound (pages : List Nat) : Prop where
  linked : s.Linked s.lockerHead pages
  nodup : s.live.Nodup
  inside : ∀ slot ∈ s.live, ∃ page ∈ pages, ∃ i < noirCvmLockersPerArray, slot = slotAddress page i
  bitmap : ∀ page ∈ pages, ∀ list, s.pages page = some list → ∀ i < noirCvmLockersPerArray,
    (list.bitmap i = true ↔ slotAddress page i ∈ s.live)
  visits : ∃ fuel visited, s.nvcReleaseLockers fuel s.lockerHead = .ok visited ∧ visited.Nodup ∧
    ∀ slot, slot ∈ visited ↔ slot ∈ s.live ∧ s.read slot ≠ 0

end LockerStore

/-- The calls, with the page there is for a new list. The owner of a slot puts a locker into it. -/
inductive LockerCall where
  | alloc (fuel answer : Nat)
  | free (slot : Nat)
  | write (slot locker : Nat)

namespace LockerCall

/-- A new page is a page, and nobody else's. -/
def Allowed (s : LockerStore) : LockerCall → Prop
  | alloc fuel answer => fuel ≠ 0 ∧ answer ≠ 0 ∧ answer % 2 ^ 12 = 0 ∧ s.pages answer = none
  | free slot => slot ∈ s.live
  | write slot _ => slot ∈ s.live

def run (s : LockerStore) : LockerCall → Outcome LockerStore
  | alloc fuel answer => do
      let (slot, s) ← s.nvcAllocLockerSlot fuel (some answer)
      pure { s with live := s.live ++ slot.toList }
  | free slot => do
      let s ← s.nvcFreeLockerSlot slot
      pure { s with live := s.live.erase slot }
  | write slot locker => do
      let list ← s.page (slot / 2 ^ 12 * 2 ^ 12)
      pure (s.setPage (slot / 2 ^ 12 * 2 ^ 12) { list with
        lockers := Function.update list.lockers (slot % 2 ^ 12 / 8 - lockersOffset / 8) locker })

/-- The call returns, what follows is sound, and no link changes but that of the last page. -/
def Behaves (s : LockerStore) (pages : List Nat) (call : LockerCall) : Prop :=
  ∃ s', call.run s = .ok s' ∧ ∃ pages', pages <+: pages' ∧ s'.Sound pages'

/-- No slot is freed, and no more are handed out than the first page has. -/
def Fits (s : LockerStore) : LockerCall → Prop
  | alloc _ _ => s.live.length < noirCvmLockersPerArray
  | free _ => False
  | write _ _ => True

end LockerCall

/-- A VM has one page at first, with nothing in it. -/
def LockerStore.Start (s : LockerStore) : Prop :=
  s.lockerHead ≠ 0 ∧ s.lockerHead % 2 ^ 12 = 0 ∧ s.lockerTail = s.lockerHead ∧ s.live = [] ∧
    s.pages = fun address =>
      if address = s.lockerHead then some ⟨0, fun _ => false, fun _ => 0⟩ else none

def LockersReachable (condition : LockerStore → LockerCall → Prop) : LockerStore → Prop :=
  Transition.Reachable LockerStore.Start fun s s' =>
    ∃ call : LockerCall, condition s call ∧ call.Allowed s ∧ call.run s = .ok s'

section Addresses

variable {page i j : Nat}

theorem slotAddress_page (hpage : page % 2 ^ 12 = 0) (hi : i < noirCvmLockersPerArray) :
    slotAddress page i / 2 ^ 12 * 2 ^ 12 = page := by
  unfold slotAddress lockersOffset
  unfold noirCvmLockersPerArray at hi
  omega

theorem slotAddress_index (hpage : page % 2 ^ 12 = 0) (hi : i < noirCvmLockersPerArray) :
    slotAddress page i % 2 ^ 12 / 8 = i + 9 := by
  unfold slotAddress lockersOffset
  unfold noirCvmLockersPerArray at hi
  omega

theorem slotAddress_inj (h : slotAddress page i = slotAddress page j) : i = j := by
  unfold slotAddress at h
  omega

/-- The first clear bit of a bitmap that is filled in order, even one past the array. -/
theorem noirFindClearBit_filled {n : Nat} (hn : n ≤ noirCvmLockersPerArray) :
    noirFindClearBit (fun i => decide (i < n)) noirCvmLockersPerArray = n := by
  have hfirst : FirstClear (fun i => decide (i < n)) (64 * 8) n := by
    refine ⟨?_, ?_, fun j hj => decide_eq_true hj⟩
    · unfold noirCvmLockersPerArray at hn
      omega
    · exact decide_eq_false (Nat.lt_irrefl n)
  have hscan := scan_eq_some.mpr hfirst
  unfold noirFindClearBit
  have hwords : noirCvmLockersPerArray / 64 +
      (if noirCvmLockersPerArray % 64 = 0 then 0 else 1) = 8 := rfl
  dsimp only
  rw [hwords, hscan, Option.getD_some]

end Addresses

namespace LockerStore

/-- The first page alone has slots, and they are handed out in order. -/
structure Filled (s : LockerStore) : Prop where
  head : s.lockerHead ≠ 0 ∧ s.lockerHead % 2 ^ 12 = 0
  live : s.live = (List.range s.live.length).map (slotAddress s.lockerHead)
  full : s.live.length ≤ noirCvmLockersPerArray
  page : ∃ lockers, s.pages s.lockerHead = some ⟨0, fun i => decide (i < s.live.length), lockers⟩ ∧
    ∀ i, s.live.length ≤ i → lockers i = 0

variable {s s' : LockerStore} {list : CvmLockersList} {slot fuel cur i : Nat} {call : LockerCall}
  {pages : List Nat}

theorem page_of_some (h : s.pages cur = some list) : s.page cur = .ok list := by
  unfold LockerStore.page
  rw [h]
  rfl

theorem setPage_pages : (s.setPage cur list).pages cur = some list := Function.update_self _ _ _

theorem findSlot_succ (hne : cur ≠ 0) (h : s.pages cur = some list)
    (hindex : noirFindClearBit list.bitmap noirCvmLockersPerArray = i) (hi : i ≠ 0xffffffff) :
    s.findSlot (fuel + 1) cur = .ok (some (cur, i)) := by
  unfold findSlot
  rw [if_neg hne, page_of_some h]
  change (if noirFindClearBit list.bitmap noirCvmLockersPerArray ≠ 0xffffffff then
    pure (some (cur, noirFindClearBit list.bitmap noirCvmLockersPerArray))
    else s.findSlot fuel list.next) = _
  rw [hindex, if_pos hi]
  rfl

theorem nvcReleaseLockers_last (hne : cur ≠ 0) (h : s.pages cur = some list) (hnext : list.next = 0) :
    s.nvcReleaseLockers 1 cur =
      .ok (((List.range noirCvmLockersPerArray).filter fun i => list.lockers i != 0).map
        (slotAddress cur)) := by
  unfold nvcReleaseLockers
  rw [if_neg hne, page_of_some h]
  change (s.nvcReleaseLockers 0 list.next >>= fun rest => _) = _
  rw [hnext]
  exact congrArg Except.ok (List.append_nil _)

theorem Filled.mem_live (h : s.Filled) :
    slot ∈ s.live ↔ ∃ i < s.live.length, slot = slotAddress s.lockerHead i := by
  conv_lhs => rw [h.live]
  rw [List.mem_map]
  constructor
  · rintro ⟨i, hi, rfl⟩
    exact ⟨i, List.mem_range.mp hi, rfl⟩
  · rintro ⟨i, hi, rfl⟩
    exact ⟨i, List.mem_range.mpr hi, rfl⟩

theorem Filled.slot_mem_iff (h : s.Filled) : slotAddress s.lockerHead i ∈ s.live ↔ i < s.live.length := by
  rw [h.mem_live]
  constructor
  · rintro ⟨j, hj, heq⟩
    rwa [slotAddress_inj heq]
  · exact fun hi => ⟨i, hi, rfl⟩

theorem Filled.nodup (h : s.Filled) : s.live.Nodup := by
  rw [h.live]
  exact List.nodup_range.map fun i j hij => slotAddress_inj hij

theorem Filled.read (h : s.Filled) {lockers : Nat → Nat}
    (hpage : s.pages s.lockerHead = some ⟨0, fun i => decide (i < s.live.length), lockers⟩)
    (hi : i < noirCvmLockersPerArray) : s.read (slotAddress s.lockerHead i) = lockers i := by
  unfold LockerStore.read
  rw [slotAddress_page h.head.2 hi, slotAddress_index h.head.2 hi, hpage]
  rfl

theorem Filled.sound (h : s.Filled) : s.Sound [s.lockerHead] := by
  obtain ⟨lockers, hpage, hzero⟩ := h.page
  refine ⟨⟨h.head.1, rfl, _, hpage, rfl⟩, h.nodup, fun slot hslot => ?_,
    fun page hpages list hlist i hi => ?_, 1, _, nvcReleaseLockers_last h.head.1 hpage rfl, ?_,
    fun slot => ?_⟩
  · obtain ⟨i, hi, rfl⟩ := h.mem_live.mp hslot
    exact ⟨s.lockerHead, List.mem_singleton.mpr rfl, i, Nat.lt_of_lt_of_le hi h.full, rfl⟩
  · obtain rfl := List.mem_singleton.mp hpages
    obtain rfl := Option.some.inj (hpage.symm.trans hlist)
    rw [h.slot_mem_iff]
    exact decide_eq_true_iff
  · exact (List.nodup_range.filter _).map fun i j hij => slotAddress_inj hij
  · rw [List.mem_map, h.mem_live]
    constructor
    · rintro ⟨i, hi, rfl⟩
      obtain ⟨hrange, hlocker⟩ := List.mem_filter.mp hi
      have hlt := List.mem_range.mp hrange
      have hne : lockers i ≠ 0 := bne_iff_ne.mp hlocker
      refine ⟨⟨i, ?_, rfl⟩, ?_⟩
      · by_contra hfull
        exact hne (hzero i (Nat.le_of_not_lt hfull))
      · rwa [h.read hpage hlt]
    · rintro ⟨⟨i, hi, rfl⟩, hread⟩
      have hlt := Nat.lt_of_lt_of_le hi h.full
      rw [h.read hpage hlt] at hread
      exact ⟨i, List.mem_filter.mpr ⟨List.mem_range.mpr hlt, bne_iff_ne.mpr hread⟩, rfl⟩

/-- The next slot is the one after those handed out, even when the array has no more. -/
theorem Filled.nvcAllocLockerSlot (h : s.Filled) {lockers : Nat → Nat} {answer : Option Nat}
    (hfuel : fuel ≠ 0)
    (hpage : s.pages s.lockerHead = some ⟨0, fun i => decide (i < s.live.length), lockers⟩) :
    s.nvcAllocLockerSlot fuel answer = .ok (some (slotAddress s.lockerHead s.live.length),
      s.setPage s.lockerHead
        ⟨0, Function.update (fun i => decide (i < s.live.length)) s.live.length true, lockers⟩) := by
  obtain ⟨fuel, rfl⟩ : ∃ n, fuel = n + 1 := Nat.exists_eq_succ_of_ne_zero hfuel
  have hle := h.full
  have hsmall : s.live.length ≠ 0xffffffff := by
    unfold noirCvmLockersPerArray at hle
    omega
  have hfind : s.findSlot (fuel + 1) s.lockerHead = .ok (some (s.lockerHead, s.live.length)) :=
    findSlot_succ h.head.1 hpage (noirFindClearBit_filled h.full) hsmall
  unfold LockerStore.nvcAllocLockerSlot
  rw [hfind]
  change (s.page s.lockerHead >>= fun list => _) = _
  rw [page_of_some hpage]
  rfl

theorem Filled.alloc_run (h : s.Filled) {lockers : Nat → Nat} (answer : Nat) (hfuel : fuel ≠ 0)
    (hpage : s.pages s.lockerHead = some ⟨0, fun i => decide (i < s.live.length), lockers⟩) :
    (LockerCall.alloc fuel answer).run s = .ok { s.setPage s.lockerHead
        ⟨0, Function.update (fun i => decide (i < s.live.length)) s.live.length true, lockers⟩ with
      live := s.live ++ [slotAddress s.lockerHead s.live.length] } := by
  change (s.nvcAllocLockerSlot fuel (some answer) >>= fun result => _) = _
  rw [h.nvcAllocLockerSlot hfuel hpage]
  rfl

theorem Filled.free_run (h : s.Filled) {lockers : Nat → Nat} (hi : i < noirCvmLockersPerArray)
    (hpage : s.pages s.lockerHead = some ⟨0, fun i => decide (i < s.live.length), lockers⟩) :
    ∃ lockers', (LockerCall.free (slotAddress s.lockerHead i)).run s = .ok { s.setPage s.lockerHead
        { (CvmLockersList.mk 0 (fun i => decide (i < s.live.length)) lockers).resetBitmap (i + 9) with
          lockers := lockers' } with
      live := s.live.erase (slotAddress s.lockerHead i) } := by
  unfold LockerCall.run nvcFreeLockerSlot
  dsimp only
  rw [slotAddress_page h.head.2 hi, if_neg h.head.1, page_of_some hpage, slotAddress_index h.head.2 hi]
  exact ⟨_, rfl⟩

/-- No bit of a slot of the page is reset by freeing that slot. -/
theorem resetBitmap_bitmap (hi : list.bitmap i = true) : (list.resetBitmap (i + 9)).bitmap i = true := by
  unfold CvmLockersList.resetBitmap
  split
  · exact hi
  · refine (Function.update_of_ne ?_ _ _).trans hi
    omega

theorem Sound.head_prefix (h : s.Sound pages) (hne : s.lockerHead ≠ 0) : [s.lockerHead] <+: pages := by
  have hlinked := h.linked
  cases pages with
  | nil => exact absurd hlinked hne
  | cons page rest =>
      rw [hlinked.2.1]
      exact List.prefix_append [page] rest

theorem Sound.pages_eq (h : s.Sound pages) (hne : s.lockerHead ≠ 0)
    (hpage : s.pages s.lockerHead = some list) (hnext : list.next = 0) : pages = [s.lockerHead] := by
  have hlinked := h.linked
  cases pages with
  | nil => exact absurd hlinked hne
  | cons page rest =>
      obtain ⟨-, rfl, list', hlist, hrest⟩ := hlinked
      obtain rfl := Option.some.inj (hpage.symm.trans hlist)
      cases rest with
      | nil => rfl
      | cons page' rest' => exact absurd hnext hrest.1

theorem Filled.alloc (h : s.Filled) {lockers : Nat → Nat} (hlt : s.live.length < noirCvmLockersPerArray)
    (hzero : ∀ i, s.live.length ≤ i → lockers i = 0) :
    Filled { s.setPage s.lockerHead
        ⟨0, Function.update (fun i => decide (i < s.live.length)) s.live.length true, lockers⟩ with
      live := s.live ++ [slotAddress s.lockerHead s.live.length] } where
  head := h.head
  live := by
    dsimp only [setPage]
    rw [List.length_append, List.length_singleton, List.range_succ, List.map_append, ← h.live]
    rfl
  full := by
    dsimp only [setPage]
    rw [List.length_append, List.length_singleton]
    exact hlt
  page := by
    refine ⟨lockers, setPage_pages.trans ?_, fun i hi => hzero i ?_⟩
    · refine congrArg some (congrArg (CvmLockersList.mk 0 · lockers) (funext fun i => ?_))
      rw [List.length_append, List.length_singleton]
      by_cases hi : i = s.live.length
      · subst hi
        rw [Function.update_self]
        exact (decide_eq_true (Nat.lt_succ_self _)).symm
      · rw [Function.update_of_ne hi]
        exact decide_eq_decide.mpr (by omega)
    · dsimp only at hi
      rw [List.length_append, List.length_singleton] at hi
      omega

/-- The slot after the last one of the array is no slot of the page. -/
theorem Filled.alloc_behaves_iff (h : s.Filled) {answer : Nat} (hfuel : fuel ≠ 0) :
    LockerCall.Behaves s [s.lockerHead] (.alloc fuel answer) ↔
      s.live.length < noirCvmLockersPerArray := by
  obtain ⟨lockers, hpage, hzero⟩ := h.page
  have hrun := h.alloc_run answer hfuel hpage
  constructor
  · rintro ⟨s', hok, pages, -, hsound⟩
    rw [hrun] at hok
    obtain rfl := Except.ok.inj hok
    obtain rfl := hsound.pages_eq h.head.1 setPage_pages rfl
    have hlast : slotAddress s.lockerHead s.live.length ∈
        s.live ++ [slotAddress s.lockerHead s.live.length] :=
      List.mem_append.mpr (Or.inr (List.mem_singleton.mpr rfl))
    obtain ⟨page, hpages, i, hi, hslot⟩ := hsound.inside _ hlast
    obtain rfl := List.mem_singleton.mp hpages
    rwa [slotAddress_inj hslot]
  · intro hlt
    exact ⟨_, hrun, _, List.prefix_rfl, (h.alloc hlt hzero).sound⟩

/-- A slot that is freed stays in use, as far as the bitmap goes. -/
theorem Filled.not_free_behaves (h : s.Filled) (hslot : slot ∈ s.live) :
    ¬LockerCall.Behaves s [s.lockerHead] (.free slot) := by
  obtain ⟨lockers, hpage, -⟩ := h.page
  obtain ⟨i, hi, rfl⟩ := h.mem_live.mp hslot
  have hbound := Nat.lt_of_lt_of_le hi h.full
  obtain ⟨lockers', hrun⟩ := h.free_run hbound hpage
  rintro ⟨s', hok, pages, -, hsound⟩
  rw [hrun] at hok
  obtain rfl := Except.ok.inj hok
  have hmem : [s.lockerHead] <+: pages := hsound.head_prefix h.head.1
  have hbit := (hsound.bitmap s.lockerHead (hmem.subset (List.mem_singleton.mpr rfl)) _ setPage_pages i hbound).mp
    (resetBitmap_bitmap (decide_eq_true hi))
  exact h.nodup.not_mem_erase hbit

theorem Filled.write_run (h : s.Filled) {lockers : Nat → Nat} {locker : Nat}
    (hi : i < s.live.length)
    (hpage : s.pages s.lockerHead = some ⟨0, fun i => decide (i < s.live.length), lockers⟩) :
    (LockerCall.write (slotAddress s.lockerHead i) locker).run s = .ok (s.setPage s.lockerHead
      ⟨0, fun i => decide (i < s.live.length), Function.update lockers i locker⟩) := by
  have hbound := Nat.lt_of_lt_of_le hi h.full
  unfold LockerCall.run
  dsimp only
  rw [slotAddress_page h.head.2 hbound, page_of_some hpage, slotAddress_index h.head.2 hbound]
  rfl

theorem Filled.write (h : s.Filled) {lockers : Nat → Nat} {locker : Nat} (hi : i < s.live.length)
    (hzero : ∀ i, s.live.length ≤ i → lockers i = 0) :
    (s.setPage s.lockerHead
      ⟨0, fun i => decide (i < s.live.length), Function.update lockers i locker⟩).Filled where
  head := h.head
  live := h.live
  full := h.full
  page := by
    refine ⟨_, setPage_pages, fun j hj => ?_⟩
    have hne : j ≠ i := by
      dsimp only [setPage] at hj
      omega
    exact (Function.update_of_ne hne _ _).trans (hzero j hj)

theorem Filled.behaves_iff (h : s.Filled) (hallowed : call.Allowed s) :
    call.Behaves s [s.lockerHead] ↔ call.Fits s := by
  cases call with
  | alloc fuel answer => exact h.alloc_behaves_iff hallowed.1
  | free slot => exact ⟨fun hbehaves => h.not_free_behaves hallowed hbehaves, False.elim⟩
  | write slot locker =>
      refine ⟨fun _ => trivial, fun _ => ?_⟩
      obtain ⟨lockers, hpage, hzero⟩ := h.page
      obtain ⟨i, hi, rfl⟩ := h.mem_live.mp hallowed
      exact ⟨_, h.write_run hi hpage, _, List.prefix_rfl, (h.write hi hzero).sound⟩

theorem Filled.step (h : s.Filled) (hfits : call.Fits s) (hallowed : call.Allowed s)
    (hrun : call.run s = .ok s') : s'.Filled := by
  obtain ⟨lockers, hpage, hzero⟩ := h.page
  cases call with
  | alloc fuel answer =>
      rw [h.alloc_run answer hallowed.1 hpage] at hrun
      obtain rfl := Except.ok.inj hrun
      exact h.alloc hfits hzero
  | free slot => exact hfits.elim
  | write slot locker =>
      obtain ⟨i, hi, rfl⟩ := h.mem_live.mp hallowed
      rw [h.write_run hi hpage] at hrun
      obtain rfl := Except.ok.inj hrun
      exact h.write hi hzero

theorem Start.filled (h : s.Start) : s.Filled := by
  obtain ⟨hne, haligned, -, hlive, hpages⟩ := h
  refine ⟨⟨hne, haligned⟩, ?_, ?_, fun _ => 0, ?_, fun _ _ => rfl⟩
  · rw [hlive]
    rfl
  · rw [hlive]
    exact Nat.zero_le _
  · rw [hpages, hlive]
    exact if_pos rfl

end LockerStore

/-- In every run that frees no slot and hands out no more than the first page has, the slots are as they
should be; and a further call keeps them so exactly when that holds of it, too. -/
theorem LockersReachable.lockers_behave_iff (s : LockerStore)
    (h : LockersReachable (fun s call => call.Fits s) s) :
    s.Sound [s.lockerHead] ∧
      ∀ call : LockerCall, call.Allowed s → (call.Behaves s [s.lockerHead] ↔ call.Fits s) := by
  have hfilled : s.Filled :=
    h.invariant (fun _ => LockerStore.Start.filled) fun _ _ _ hs ⟨_, hfits, hallowed, hrun⟩ =>
      hs.step hfits hallowed hrun
  exact ⟨hfilled.sound, fun _ => hfilled.behaves_iff⟩

/-! One slot, at the end of the first page of a VM. -/

def newLockers : LockerStore where
  lockerHead := 0x1000
  lockerTail := 0x1000
  pages address := if address = 0x1000 then some ⟨0, fun _ => false, fun _ => 0⟩ else none
  live := []

theorem newLockers_start : newLockers.Start := ⟨by decide, by decide, rfl, rfl, rfl⟩

/-- With its first slot handed out. -/
def oneLocker : LockerStore :=
  { newLockers.setPage 0x1000
      ⟨0, Function.update (fun i => decide (i < newLockers.live.length)) 0 true, fun _ => 0⟩ with
    live := [slotAddress 0x1000 0] }

theorem oneLocker_filled : oneLocker.Filled :=
  newLockers_start.filled.alloc (by decide) fun _ _ => rfl

theorem oneLocker_reachable {condition : LockerStore → LockerCall → Prop}
    (h : condition newLockers (.alloc 1 0x2000)) : LockersReachable condition oneLocker := by
  have hpage : newLockers.pages newLockers.lockerHead =
      some ⟨0, fun i => decide (i < newLockers.live.length), fun _ => 0⟩ := rfl
  have hrun : (LockerCall.alloc 1 0x2000).run newLockers = .ok oneLocker :=
    newLockers_start.filled.alloc_run 0x2000 Nat.one_ne_zero hpage
  exact .step (.start newLockers_start) ⟨.alloc 1 0x2000, h, ⟨by decide, by decide, by decide, rfl⟩, hrun⟩

theorem oneLocker_behaves :
    oneLocker.Sound [oneLocker.lockerHead] ∧ ∀ call : LockerCall, call.Allowed oneLocker →
      (call.Behaves oneLocker [oneLocker.lockerHead] ↔ call.Fits oneLocker) :=
  LockersReachable.lockers_behave_iff oneLocker (oneLocker_reachable (by decide : (0 : Nat) < 503))

/-- The first slot, freed again, is still marked as in use. -/
theorem not_forall_lockers_sound :
    ¬∀ s : LockerStore, LockersReachable (fun _ _ => True) s → ∃ pages, s.Sound pages := by
  intro h
  have hslot : slotAddress 0x1000 0 ∈ oneLocker.live := List.mem_singleton.mpr rfl
  obtain ⟨lockers, hpage, -⟩ := oneLocker_filled.page
  have hbound : 0 < noirCvmLockersPerArray := by decide
  obtain ⟨lockers', hrun⟩ := oneLocker_filled.free_run hbound hpage
  obtain ⟨pages, hsound⟩ := h _ (.step (oneLocker_reachable trivial) ⟨.free _, trivial, hslot, hrun⟩)
  exact oneLocker_filled.not_free_behaves hslot
    ⟨_, hrun, pages, hsound.head_prefix oneLocker_filled.head.1, hsound⟩

end NoirVisor
