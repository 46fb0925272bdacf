import Mathlib.Logic.Function.Basic
import NoirVisor.Platform

/-!
# The table of handles

Handles of VMs for the layered hypervisor are places in a tree of tables with 512 entries each. The level
of a table is in the low bits of the pointers to it.
-/

namespace NoirVisor

/-- A word of a table: zero, a pointer to a VM, or a pointer to a table with its level. -/
inductive TableWord where
  | null
  | object (vm : Nat)
  | table (levels : Nat) (entries : Nat → TableWord)

def handleTableCapacity : Nat := 512
def handleTableShiftBits : Nat := 9

/-- A shift of 64 bits, which takes the count modulo the width. -/
def handleIndex (handle levels : Nat) : Nat :=
  handle / 2 ^ (levels * handleTableShiftBits % 64) % handleTableCapacity

/-- The same for a shift to the left, of 32 bits. -/
def handlePart (i levels : Nat) : Nat :=
  i * 2 ^ (handleTableShiftBits * levels % 32) % 2 ^ 32

namespace TableWord

def isNull : TableWord → Bool
  | null => true
  | _ => false

theorem isNull_iff {word : TableWord} : word.isNull = true ↔ word = null := by
  cases word <;> simp [isNull]

/-- A new page, which is filled with zeros. -/
def empty (levels : Nat) : TableWord := table levels fun _ => null

end TableWord

def noirReferenceVirtualMachineByHandleUnsafe (handle : Nat) : (fuel : Nat) → TableWord →
    Outcome (Option Nat)
  | 0, _ => throw .outOfFuel
  | fuel + 1, .table levels entries =>
      let entry := entries (handleIndex handle levels)
      if levels = 0 then
        match entry with
        | .null => pure none
        | .object vm => pure (some vm)
        | .table .. => throw .outOfBounds
      else noirReferenceVirtualMachineByHandleUnsafe handle fuel entry
  -- The base of no table is null.
  | _ + 1, .null => throw .nullDereference
  | _ + 1, .object _ => throw .outOfBounds

def noirDeleteHandleUnsafe (handle : Nat) : (fuel : Nat) → TableWord → Outcome TableWord
  | 0, _ => throw .outOfFuel
  | fuel + 1, .table levels entries =>
      let refIndex := handleIndex handle levels
      if levels = 0 then pure (.table levels (Function.update entries refIndex .null))
      else do
        let entry ← noirDeleteHandleUnsafe handle fuel (entries refIndex)
        pure (.table levels (Function.update entries refIndex entry))
  | _ + 1, .null => throw .nullDereference
  | _ + 1, .object _ => throw .outOfBounds

/-- The status, the handle, what was changed and the memory that is left. -/
abbrev Creation (α : Type) := NoirStatus × Nat × α × Allocator

/-- The loop over the entries of a table that is not the lowest. -/
def searchTables (create : TableWord → Nat → Allocator → Outcome (Creation TableWord)) (levels : Nat) :
    List Nat → (Nat → TableWord) → Nat → Allocator → Outcome (Creation (Nat → TableWord))
  | [], entries, handle, memory => pure (.unsuccessful, handle, entries, memory)
  | i :: rest, entries, handle, memory => do
      if (entries i).isNull then
        let (allocated, memory) := memory.noirAllocNonpgMemory
        if !allocated then pure (.insufficientResources, handle, entries, memory)
        else
          let (st, handle, entry, memory) ← create (.empty (levels - 1)) handle memory
          let entries := Function.update entries i entry
          if st ≠ .success then pure (st, handle, entries, memory)
          else pure (.success, (handle + handlePart i levels) % 2 ^ 64, entries, memory)
      else
        let (st, handle, entry, memory) ← create (entries i) handle memory
        let entries := Function.update entries i entry
        if st = .success then
          pure (st, (handle + handlePart i levels) % 2 ^ 64, entries, memory)
        -- Whatever the reason, the next entry is tried.
        else searchTables create levels rest entries handle memory

def noirCreateHandleUnsafe (vm : Nat) : (fuel : Nat) → TableWord → Nat → Allocator →
    Outcome (Creation TableWord)
  | 0, _, _, _ => throw .outOfFuel
  | fuel + 1, .table levels entries, handle, memory =>
      if levels ≠ 0 then do
        let (st, handle, entries, memory) ← searchTables (noirCreateHandleUnsafe vm fuel) levels
          (List.range handleTableCapacity) entries handle memory
        pure (st, handle, .table levels entries, memory)
      else
        match (List.range handleTableCapacity).find? fun i => (entries i).isNull with
        | some i => pure (.success, i, .table levels (Function.update entries i (.object vm)), memory)
        | none => pure (.unsuccessful, 0, .table levels entries, memory)
  | _ + 1, .null, _, _ => throw .nullDereference
  | _ + 1, .object _, _, _ => throw .outOfBounds

/-- `NOIR_CVM_HANDLE_TABLE`. -/
structure NoirCvmHandleTable where
  tableCode : TableWord
  maximumHandleValue : Nat
  handleCount : Nat

/-- The level of a table has 12 bits. -/
def handleTableFuel : Nat := 4096

namespace NoirCvmHandleTable

variable (t : NoirCvmHandleTable)

def levels : Nat :=
  match t.tableCode with
  | .table levels _ => levels
  | _ => 0

def noirReferenceVirtualMachineByHandle (handle : Nat) : Outcome (Option Nat) :=
  noirReferenceVirtualMachineByHandleUnsafe handle handleTableFuel t.tableCode

/-- The root with one more level. -/
def increasedLevel (root : TableWord) (levels : Nat) : TableWord :=
  .table (levels + 1) (Function.update (fun _ => .null) 0 root)

/-- The search of the table, and of the next one if there is nothing free. -/
def createOrIncrease (vm handle : Nat) (memory : Allocator) : Outcome (Creation TableWord) := do
  let (st, handle, root, memory) ← noirCreateHandleUnsafe vm handleTableFuel t.tableCode handle memory
  if st = .unsuccessful then
    let (allocated, memory) := memory.noirAllocNonpgMemory
    if allocated then
      noirCreateHandleUnsafe vm handleTableFuel (increasedLevel root t.levels) handle memory
    else pure (.insufficientResources, handle, root, memory)
  else pure (st, handle, root, memory)

/-- `handle` is what the caller had in the place for the handle. -/
def noirCreateHandle (vm handle : Nat) (memory : Allocator) :
    Outcome (NoirStatus × Nat × NoirCvmHandleTable) := do
  let (st, handle, tableCode, _) ← t.createOrIncrease vm handle memory
  pure (st, handle,
    { tableCode
      handleCount := if st = .success then (t.handleCount + 1) % 2 ^ 64 else t.handleCount
      maximumHandleValue := max handle t.maximumHandleValue })

/-- What `NoirReleaseVirtualMachine` does to the table once the VM is released. -/
def deleteHandle (handle : Nat) : Outcome NoirCvmHandleTable := do
  match ← t.noirReferenceVirtualMachineByHandle handle with
  | none => pure t
  | some _ =>
      let tableCode ← noirDeleteHandleUnsafe handle handleTableFuel t.tableCode
      pure { t with tableCode, handleCount := (t.handleCount + 2 ^ 64 - 1) % 2 ^ 64 }

end NoirCvmHandleTable

namespace TableWord

/-- A table of a level, whose tables are of the level below. -/
def IsTable : (levels : Nat) → TableWord → Prop
  | 0, .table 0 entries => ∀ i < handleTableCapacity, entries i = .null ∨ ∃ vm, entries i = .object vm
  | levels + 1, .table levels' entries =>
      levels' = levels + 1 ∧ ∀ i < handleTableCapacity, entries i = .null ∨ IsTable levels (entries i)
  | _, _ => False

/-- The place of a handle in the table of a level. -/
def digit (handle levels : Nat) : Nat := handle / 512 ^ levels % 512

/-- The VM at the place of a handle. -/
def slot : (levels : Nat) → TableWord → Nat → Option Nat
  | 0, .table _ entries, handle =>
      match entries (digit handle 0) with
      | .object vm => some vm
      | _ => none
  | levels + 1, .table _ entries, handle => slot levels (entries (digit handle (levels + 1))) handle
  | _, _, _ => none

/-- Every table on the way to the place of a handle is there. -/
def Reaches : (levels : Nat) → TableWord → Nat → Prop
  | 0, .table _ _, _ => True
  | levels + 1, .table _ entries, handle => Reaches levels (entries (digit handle (levels + 1))) handle
  | _, _, _ => False

/-- A word that was changed but for one place. -/
structure Edited (levels : Nat) (word word' : TableWord) (place : Nat) (vm : Option Nat) : Prop where
  table : IsTable levels word'
  slot : ∀ handle, slot levels word' handle =
    if handle % 512 ^ (levels + 1) = place then vm else slot levels word handle
  reaches : ∀ handle, Reaches levels word handle → Reaches levels word' handle

/-- A word that has the same VMs as before. -/
structure Kept (levels : Nat) (word word' : TableWord) : Prop where
  entry : word' = .null ∨ IsTable levels word'
  slot : ∀ handle, slot levels word' handle = slot levels word handle
  reaches : ∀ handle, Reaches levels word handle → Reaches levels word' handle

section Words

variable {levels place handle i : Nat} {word word' word'' : TableWord} {entries entries' : Nat → TableWord}
  {vm : Option Nat}

theorem digit_lt (handle levels : Nat) : digit handle levels < 512 := Nat.mod_lt _ (by decide)

/-- A handle is its first digit and the rest. -/
theorem mod_eq_iff (hplace : place < 512 ^ (levels + 1)) (hi : i < 512) :
    handle % 512 ^ (levels + 2) = i * 512 ^ (levels + 1) + place ↔
      digit handle (levels + 1) = i ∧ handle % 512 ^ (levels + 1) = place := by
  have hsplit : handle % 512 ^ (levels + 2) =
      handle % 512 ^ (levels + 1) + 512 ^ (levels + 1) * digit handle (levels + 1) := by
    rw [Nat.pow_succ 512 (levels + 1), Nat.mod_mul]
    rfl
  have hlt := Nat.mod_lt handle (Nat.pow_pos (n := levels + 1) (by decide : 0 < 512))
  rw [hsplit, Nat.add_comm, Nat.mul_comm]
  constructor
  · intro heq
    have hdigit : digit handle (levels + 1) = i := by
      have hleft := congrArg (· / 512 ^ (levels + 1)) heq
      rwa [Nat.mul_comm, Nat.mul_add_div (by omega), Nat.div_eq_of_lt hlt, Nat.mul_comm i,
        Nat.mul_add_div (by omega), Nat.div_eq_of_lt hplace] at hleft
    subst hdigit
    exact ⟨rfl, Nat.add_left_cancel heq⟩
  · rintro ⟨rfl, rfl⟩
    rfl

theorem digit_mod {k : Nat} (hk : k ≤ levels) :
    digit (handle % 512 ^ (levels + 1)) k = digit handle k := by
  unfold digit
  obtain ⟨d, rfl⟩ := Nat.exists_eq_add_of_le hk
  have hdvd : 512 ∣ 512 ^ (d + 1) := ⟨512 ^ d, by rw [Nat.pow_succ, Nat.mul_comm]⟩
  rw [Nat.add_assoc, Nat.pow_add, Nat.mod_mul_right_div_self, Nat.mod_mod_of_dvd _ hdvd]

/-- What is above the digits of a table is not looked at. -/
theorem slot_mod (word : TableWord) {n : Nat} (hn : levels ≤ n) :
    slot levels word (handle % 512 ^ (n + 1)) = slot levels word handle := by
  induction levels generalizing word with
  | zero =>
      cases word with
      | table _ entries =>
          unfold slot
          rw [digit_mod hn]
      | _ => rfl
  | succ levels ih =>
      cases word with
      | table _ entries =>
          unfold slot
          rw [digit_mod hn, ih _ (by omega)]
      | _ => rfl

theorem reaches_mod (word : TableWord) {n : Nat} (hn : levels ≤ n) :
    Reaches levels word (handle % 512 ^ (n + 1)) ↔ Reaches levels word handle := by
  induction levels generalizing word with
  | zero => cases word <;> exact Iff.rfl
  | succ levels ih =>
      cases word with
      | table _ entries =>
          unfold Reaches
          rw [digit_mod hn]
          exact ih _ (by omega)
      | _ => exact Iff.rfl

theorem slot_null : slot levels .null handle = none := by cases levels <;> rfl

theorem slot_empty : slot levels (.empty levels) handle = none := by
  cases levels with
  | zero => rfl
  | succ levels => exact slot_null

theorem not_reaches_null : ¬Reaches levels .null handle := by cases levels <;> exact id

theorem isTable_empty : IsTable levels (.empty levels) := by
  cases levels with
  | zero => exact fun _ _ => .inl rfl
  | succ levels => exact ⟨rfl, fun _ _ => .inl rfl⟩

theorem Kept.refl (h : word = .null ∨ IsTable levels word) : Kept levels word word :=
  ⟨h, fun _ => rfl, fun _ => id⟩

theorem Kept.trans (h : Kept levels word word') (h' : Kept levels word' word'') :
    Kept levels word word'' :=
  ⟨h'.entry, fun handle => (h'.slot handle).trans (h.slot handle),
    fun handle hreaches => h'.reaches handle (h.reaches handle hreaches)⟩

/-- A new table has no more than the null pointer that was in its place. -/
theorem Kept.of_empty (h : Kept levels (.empty levels) word) : Kept levels .null word :=
  ⟨h.entry, fun handle => (h.slot handle).trans (slot_empty.trans slot_null.symm),
    fun _ hreaches => absurd hreaches not_reaches_null⟩

theorem Edited.of_empty (h : Edited levels (.empty levels) word place vm) :
    Edited levels .null word place vm where
  table := h.table
  slot handle := by rw [h.slot, slot_empty, slot_null]
  reaches _ hreaches := absurd hreaches not_reaches_null

theorem Kept.table (h : ∀ j < 512, Kept levels (entries j) (entries' j)) :
    Kept (levels + 1) (.table (levels + 1) entries) (.table (levels + 1) entries') where
  entry := .inr ⟨rfl, fun j hj => (h j hj).entry⟩
  slot handle := (h _ (digit_lt handle (levels + 1))).slot handle
  reaches handle := (h _ (digit_lt handle (levels + 1))).reaches handle

theorem Edited.ofEntry (hi : i < 512) (hplace : place < 512 ^ (levels + 1))
    (hentry : Edited levels (entries i) (entries' i) place vm)
    (hothers : ∀ j < 512, j ≠ i → Kept levels (entries j) (entries' j)) :
    Edited (levels + 1) (.table (levels + 1) entries) (.table (levels + 1) entries')
      (i * 512 ^ (levels + 1) + place) vm where
  table := by
    refine ⟨rfl, fun j hj => ?_⟩
    by_cases heq : j = i
    · exact heq ▸ .inr hentry.table
    · exact (hothers j hj heq).entry
  slot handle := by
    have hdigit := digit_lt handle (levels + 1)
    change TableWord.slot levels (entries' (digit handle (levels + 1))) handle = if _ then vm else
      TableWord.slot levels (entries (digit handle (levels + 1))) handle
    by_cases heq : digit handle (levels + 1) = i
    · simp only [mod_eq_iff hplace hi, heq, true_and]
      exact hentry.slot handle
    · rw [if_neg fun hmod => heq ((mod_eq_iff hplace hi).mp hmod).1]
      exact (hothers _ hdigit heq).slot handle
  reaches handle hreaches := by
    have hdigit := digit_lt handle (levels + 1)
    by_cases heq : digit handle (levels + 1) = i
    · have hchild : Reaches levels (entries (digit handle (levels + 1))) handle := hreaches
      rw [heq] at hchild
      have hchild' := hentry.reaches handle hchild
      rw [← heq] at hchild'
      exact hchild'
    · exact (hothers _ hdigit heq).reaches handle hreaches

theorem Edited.leaf {entry : TableWord} (h : IsTable 0 (.table 0 entries)) (hi : i < 512)
    (hentry : (entry = .null ∧ vm = none) ∨ ∃ o, entry = .object o ∧ vm = some o) :
    Edited 0 (.table 0 entries) (.table 0 (Function.update entries i entry)) i vm where
  table j hj := by
    by_cases heq : j = i
    · subst heq
      rw [Function.update_self]
      exact hentry.imp And.left fun ⟨o, ho, _⟩ => ⟨o, ho⟩
    · rw [Function.update_of_ne heq]
      exact h j hj
  slot other := by
    have hplace : other % 512 ^ (0 + 1) = digit other 0 := by simp [digit]
    simp only [hplace, TableWord.slot]
    by_cases heq : digit other 0 = i
    · rw [if_pos heq, heq, Function.update_self]
      obtain ⟨rfl, rfl⟩ | ⟨o, rfl, rfl⟩ := hentry <;> rfl
    · rw [if_neg heq, Function.update_of_ne heq]
  reaches _ := id

end Words

section Walks

variable {levels fuel handle : Nat} {word : TableWord}

theorem handleIndex_eq (hlevels : levels ≤ 7) : handleIndex handle levels = digit handle levels := by
  have hshift : levels * handleTableShiftBits % 64 = 9 * levels := by
    unfold handleTableShiftBits
    omega
  unfold handleIndex digit
  rw [hshift, Nat.pow_mul]
  rfl

theorem handlePart_eq {i : Nat} (hlevels : levels ≤ 3) (hi : i * 512 ^ levels < 2 ^ 32) :
    handlePart i levels = i * 512 ^ levels := by
  have hshift : handleTableShiftBits * levels % 32 = 9 * levels := by
    unfold handleTableShiftBits
    omega
  unfold handlePart
  rw [hshift, Nat.pow_mul]
  exact Nat.mod_eq_of_lt hi

/-- The lookup finds the place of the handle, if every table on the way is there. -/
theorem lookup_of_reaches (hlevels : levels ≤ 7) (hfuel : levels < fuel) (h : IsTable levels word)
    (hreaches : Reaches levels word handle) :
    noirReferenceVirtualMachineByHandleUnsafe handle fuel word = .ok (slot levels word handle) := by
  induction levels generalizing word fuel with
  | zero =>
      obtain ⟨fuel, rfl⟩ := Nat.exists_eq_succ_of_ne_zero (Nat.ne_of_gt hfuel)
      obtain _ | _ | ⟨_ | _, entries⟩ := word <;> try exact h.elim
      have hentry := h (digit handle 0) (digit_lt handle 0)
      unfold noirReferenceVirtualMachineByHandleUnsafe slot
      rw [handleIndex_eq hlevels]
      obtain hnull | ⟨vm, hvm⟩ := hentry
      · simp only [hnull]
        rfl
      · simp only [hvm]
        rfl
  | succ levels ih =>
      obtain ⟨fuel, rfl⟩ := Nat.exists_eq_succ_of_ne_zero (Nat.ne_of_gt (Nat.lt_of_le_of_lt (Nat.zero_le _) hfuel))
      obtain _ | _ | ⟨levels', entries⟩ := word <;> try exact h.elim
      obtain ⟨rfl, hentries⟩ := h
      unfold noirReferenceVirtualMachineByHandleUnsafe
      rw [handleIndex_eq hlevels]
      dsimp only
      rw [if_neg (Nat.succ_ne_zero levels)]
      obtain hnull | htable := hentries _ (digit_lt handle (levels + 1))
      · have hchild : Reaches levels (entries (digit handle (levels + 1))) handle := hreaches
        rw [hnull] at hchild
        exact absurd hchild not_reaches_null
      · exact ih (by omega) (by omega) htable hreaches

theorem lookup_of_not_reaches (hlevels : levels ≤ 7) (hfuel : levels < fuel) (h : IsTable levels word)
    (hreaches : ¬Reaches levels word handle) :
    noirReferenceVirtualMachineByHandleUnsafe handle fuel word = .error .nullDereference := by
  induction levels generalizing word fuel with
  | zero =>
      obtain _ | _ | ⟨_ | _, entries⟩ := word <;> first | exact h.elim | exact absurd trivial hreaches
  | succ levels ih =>
      obtain ⟨fuel, rfl⟩ := Nat.exists_eq_add_of_lt hfuel
      obtain _ | _ | ⟨levels', entries⟩ := word <;> try exact h.elim
      obtain ⟨rfl, hentries⟩ := h
      unfold noirReferenceVirtualMachineByHandleUnsafe
      rw [handleIndex_eq hlevels]
      dsimp only
      rw [if_neg (Nat.succ_ne_zero levels)]
      obtain hnull | htable := hentries _ (digit_lt handle (levels + 1))
      · rw [hnull, Nat.add_right_comm]
        rfl
      · exact ih (by omega) (by omega) htable hreaches

/-- The deletion clears the place of the handle and no other. -/
theorem delete_of_reaches (hlevels : levels ≤ 7) (hfuel : levels < fuel) (h : IsTable levels word)
    (hreaches : Reaches levels word handle) :
    ∃ word', noirDeleteHandleUnsafe handle fuel word = .ok word' ∧
      Edited levels word word' (handle % 512 ^ (levels + 1)) none := by
  induction levels generalizing word fuel with
  | zero =>
      obtain ⟨fuel, rfl⟩ := Nat.exists_eq_add_of_lt hfuel
      obtain _ | _ | ⟨_ | _, entries⟩ := word <;> try exact h.elim
      unfold noirDeleteHandleUnsafe
      rw [handleIndex_eq hlevels]
      have hplace : handle % 512 ^ (0 + 1) = digit handle 0 := by simp [digit]
      rw [hplace]
      exact ⟨_, rfl, .leaf h (digit_lt handle 0) (.inl ⟨rfl, rfl⟩)⟩
  | succ levels ih =>
      obtain ⟨fuel, rfl⟩ := Nat.exists_eq_add_of_lt hfuel
      obtain _ | _ | ⟨levels', entries⟩ := word <;> try exact h.elim
      obtain ⟨rfl, hentries⟩ := h
      have hdigit := digit_lt handle (levels + 1)
      have htable : IsTable levels (entries (digit handle (levels + 1))) := by
        obtain hnull | htable := hentries _ hdigit
        · have hchild : Reaches levels (entries (digit handle (levels + 1))) handle := hreaches
          rw [hnull] at hchild
          exact absurd hchild not_reaches_null
        · exact htable
      obtain ⟨entry, hdelete, hedited⟩ := @ih (levels + 1 + fuel) _ (by omega) (by omega) htable hreaches
      refine ⟨.table (levels + 1) (Function.update entries (digit handle (levels + 1)) entry), ?_, ?_⟩
      · unfold noirDeleteHandleUnsafe
        rw [handleIndex_eq hlevels]
        dsimp only
        rw [if_neg (Nat.succ_ne_zero levels), hdelete]
        rfl
      · have hplace : handle % 512 ^ (levels + 2) =
            digit handle (levels + 1) * 512 ^ (levels + 1) + handle % 512 ^ (levels + 1) :=
          (mod_eq_iff (Nat.mod_lt _ (Nat.pow_pos (by decide))) hdigit).mpr ⟨rfl, rfl⟩
        rw [hplace]
        refine .ofEntry hdigit (Nat.mod_lt _ (Nat.pow_pos (by decide))) ?_ fun j hj hne => ?_
        · rw [Function.update_self]
          exact hedited
        · rw [Function.update_of_ne hne]
          exact .refl (hentries j hj)

end Walks

/-- What a creation that succeeds makes of a word, and the handle it gives. -/
structure Placed (levels : Nat) (word word' : TableWord) (vm handle place : Nat) : Prop where
  bound : place < 512 ^ (levels + 1)
  free : slot levels word place = none
  reached : Reaches levels word' place
  edited : Edited levels word word' place (some vm)
  handle : levels ≤ 3 → place < 2 ^ 32 → handle = place

/-- What a creation makes of a word. -/
def Creates (vm levels : Nat) (create : TableWord → Nat → Allocator → Outcome (Creation TableWord)) : Prop :=
  ∀ word handle memory, IsTable levels word → ∃ st handle' word' memory',
    create word handle memory = .ok (st, handle', word', memory') ∧
      (st = .success ∧ (∃ place, Placed levels word word' vm handle' place) ∨
        st ≠ .success ∧ IsTable levels word' ∧ Kept levels word word')

section Creations

variable {levels fuel vm : Nat} {create : TableWord → Nat → Allocator → Outcome (Creation TableWord)}

theorem Placed.of_empty {word : TableWord} {handle place : Nat}
    (h : Placed levels (.empty levels) word vm handle place) : Placed levels .null word vm handle place :=
  ⟨h.bound, slot_null, h.reached, h.edited.of_empty, h.handle⟩

theorem Placed.ofEntry {entries entries' : Nat → TableWord} {handle place i : Nat} (hi : i < 512)
    (hplaced : Placed levels (entries i) (entries' i) vm handle place)
    (hothers : ∀ j < 512, j ≠ i → Kept levels (entries j) (entries' j)) :
    Placed (levels + 1) (.table (levels + 1) entries) (.table (levels + 1) entries') vm
      ((handle + handlePart i (levels + 1)) % 2 ^ 64) (i * 512 ^ (levels + 1) + place) := by
  have hbound := hplaced.bound
  have hlt : i * 512 ^ (levels + 1) + place < 512 ^ (levels + 2) := by
    calc
      i * 512 ^ (levels + 1) + place < (i + 1) * 512 ^ (levels + 1) := by
        rw [Nat.succ_mul]
        omega
      _ ≤ 512 * 512 ^ (levels + 1) := Nat.mul_le_mul_right _ hi
      _ = 512 ^ (levels + 2) := by rw [Nat.pow_succ 512 (levels + 1), Nat.mul_comm]
  obtain ⟨hdigit, hrest⟩ := (mod_eq_iff hbound hi).mp (Nat.mod_eq_of_lt hlt)
  have hfree := hplaced.free
  have hreached := hplaced.reached
  rw [← hrest, slot_mod _ (Nat.le_refl levels)] at hfree
  rw [← hrest, reaches_mod _ (Nat.le_refl levels)] at hreached
  refine ⟨hlt, ?_, ?_, .ofEntry hi hbound hplaced.edited hothers, fun hlevels hplace => ?_⟩
  · change slot levels (entries (digit _ (levels + 1))) _ = none
    rw [hdigit]
    exact hfree
  · change Reaches levels (entries' (digit _ (levels + 1))) _
    rw [hdigit]
    exact hreached
  · rw [handlePart_eq hlevels (by omega), hplaced.handle (by omega) (by omega)]
    omega

/-- A search leaves the entry where it has found a place, or ends without one. -/
theorem searchTables_spec (hcreate : Creates vm levels create) (n : Nat) {k : Nat} (hk : k + n ≤ 512)
    {entries : Nat → TableWord} (hentries : ∀ j < 512, entries j = .null ∨ IsTable levels (entries j))
    (handle : Nat) (memory : Allocator) :
    ∃ st handle' entries' memory',
      searchTables create (levels + 1) (List.range' k n) entries handle memory =
        .ok (st, handle', entries', memory') ∧
      (st = .success ∧ (∃ i handle₁ place, k ≤ i ∧ i < k + n ∧ (∀ j, k ≤ j → j < i → entries j ≠ .null) ∧
          Placed levels (entries i) (entries' i) vm handle₁ place ∧
          (∀ j < 512, j ≠ i → Kept levels (entries j) (entries' j)) ∧
          handle' = (handle₁ + handlePart i (levels + 1)) % 2 ^ 64) ∨
        st ≠ .success ∧ ∀ j < 512, Kept levels (entries j) (entries' j)) := by
  induction n generalizing k entries handle memory with
  | zero => exact ⟨_, _, _, _, rfl, .inr ⟨fun h => (nomatch h), fun j hj => .refl (hentries j hj)⟩⟩
  | succ n ih =>
      rw [List.range'_succ]
      unfold searchTables
      have hk' : k < 512 := by omega
      have hupdate (entry : TableWord) (hkept : Kept levels (entries k) entry) :
          ∀ j < 512, Kept levels (entries j) (Function.update entries k entry j) := by
        intro j hj
        by_cases heq : j = k
        · subst heq
          rwa [Function.update_self]
        · rw [Function.update_of_ne heq]
          exact .refl (hentries j hj)
      -- A place in the first of the entries ends the search.
      have hfound (entry : TableWord) {handle₁ place : Nat}
          (hplaced : Placed levels (entries k) entry vm handle₁ place) :
          ∃ i handle₂ place, k ≤ i ∧ i < k + (n + 1) ∧ (∀ j, k ≤ j → j < i → entries j ≠ .null) ∧
            Placed levels (entries i) (Function.update entries k entry i) vm handle₂ place ∧
            (∀ j < 512, j ≠ i → Kept levels (entries j) (Function.update entries k entry j)) ∧
            (handle₁ + handlePart k (levels + 1)) % 2 ^ 64 =
              (handle₂ + handlePart i (levels + 1)) % 2 ^ 64 := by
        refine ⟨k, handle₁, place, Nat.le_refl k, by omega, fun j hle hlt => absurd hle (by omega), ?_, ?_, rfl⟩
        · rwa [Function.update_self]
        · intro j hj hne
          rw [Function.update_of_ne hne]
          exact .refl (hentries j hj)
      by_cases hnull : entries k = .null
      · rw [if_pos (isNull_iff.mpr hnull)]
        rw [hnull] at hfound hupdate
        dsimp only [Allocator.noirAllocNonpgMemory]
        cases memory.nonpg 0 with
        | false =>
            exact ⟨_, _, _, _, rfl, .inr ⟨fun h => (nomatch h), fun j hj => .refl (hentries j hj)⟩⟩
        | true =>
            obtain ⟨st, handle', entry, memory', hrun, hcases⟩ := hcreate (.empty levels) handle
              { memory with nonpg := fun k => memory.nonpg (k + 1) } isTable_empty
            simp only [Nat.add_sub_cancel, hrun]
            obtain ⟨rfl, place, hplaced⟩ | ⟨hst, -, hkept⟩ := hcases
            · exact ⟨_, _, _, _, rfl, .inl ⟨rfl, hfound entry hplaced.of_empty⟩⟩
            · refine ⟨st, handle', Function.update entries k entry, memory', ?_,
                .inr ⟨hst, hupdate entry hkept.of_empty⟩⟩
              change (if st ≠ .success then _ else _) = _
              exact if_pos hst
      · rw [if_neg (isNull_iff.not.mpr hnull)]
        obtain ⟨st, handle', entry, memory', hrun, hcases⟩ :=
          hcreate (entries k) handle memory ((hentries k hk').resolve_left hnull)
        simp only [hrun]
        obtain ⟨rfl, place, hplaced⟩ | ⟨hst, -, hkept⟩ := hcases
        · exact ⟨_, _, _, _, rfl, .inl ⟨rfl, hfound entry hplaced⟩⟩
        · have hkept' := hupdate entry hkept
          obtain ⟨st', handle'', entries', memory'', hrest, hresult⟩ :=
            @ih (k + 1) (by omega) (Function.update entries k entry) (fun j hj => (hkept' j hj).entry)
              handle' memory'
          refine ⟨st', handle'', entries', memory'', ?_, ?_⟩
          · change (if st = .success then _ else _) = _
            rw [if_neg hst]
            exact hrest
          · obtain ⟨rfl, i, handle₁, place, hle, hlt, hbefore, hplaced, hothers, hhandle⟩ |
              ⟨hst', hall⟩ := hresult
            · have hne : i ≠ k := by omega
              rw [Function.update_of_ne hne] at hplaced
              refine .inl ⟨rfl, i, handle₁, place, by omega, by omega, fun j hj hji => ?_, hplaced, ?_, hhandle⟩
              · by_cases heq : j = k
                · exact heq ▸ hnull
                · have hnot := hbefore j (by omega) hji
                  rwa [Function.update_of_ne heq] at hnot
              · exact fun j hj hji => (hkept' j hj).trans (hothers j hj hji)
            · exact .inr ⟨hst', fun j hj => (hkept' j hj).trans (hall j hj)⟩

/-- A search that stops does not look at what comes after. -/
theorem searchTables_append {indices rest : List Nat} {entries entries' : Nat → TableWord}
    {handle handle' : Nat} {memory memory' : Allocator} {st : NoirStatus}
    (h : searchTables create levels indices entries handle memory = .ok (st, handle', entries', memory'))
    (hst : st ≠ .unsuccessful) :
    searchTables create levels (indices ++ rest) entries handle memory =
      .ok (st, handle', entries', memory') := by
  induction indices generalizing entries handle memory with
  | nil =>
      cases h
      exact absurd rfl hst
  | cons i indices ih =>
      rw [List.cons_append]
      unfold searchTables at h ⊢
      by_cases hnull : (entries i).isNull = true
      · rw [if_pos hnull] at h ⊢
        exact h
      · rw [if_neg hnull] at h ⊢
        cases hcreate : create (entries i) handle memory with
        | error fault =>
            rw [hcreate] at h
            cases h
        | ok result =>
            rw [hcreate] at h
            change (if result.1 = .success then _ else _) = _ at h
            change (if result.1 = .success then _ else _) = _
            by_cases hsuccess : result.1 = .success
            · rw [if_pos hsuccess] at h ⊢
              exact h
            · rw [if_neg hsuccess] at h ⊢
              exact ih h

/-- The search of a table that is not the lowest. -/
theorem noirCreateHandleUnsafe_table {entries entries' : Nat → TableWord} {handle handle' : Nat}
    {memory memory' : Allocator} {st : NoirStatus}
    (h : searchTables (noirCreateHandleUnsafe vm fuel) (levels + 1) (List.range handleTableCapacity) entries
      handle memory = .ok (st, handle', entries', memory')) :
    noirCreateHandleUnsafe vm (fuel + 1) (.table (levels + 1) entries) handle memory =
      .ok (st, handle', .table (levels + 1) entries', memory') := by
  unfold noirCreateHandleUnsafe
  rw [if_pos (Nat.succ_ne_zero levels)]
  change (searchTables (noirCreateHandleUnsafe vm fuel) (levels + 1)
    (List.range handleTableCapacity) entries handle memory >>= fun r =>
      pure (r.1, r.2.1, TableWord.table (levels + 1) r.2.2.1, r.2.2.2)) = _
  rw [h]
  rfl

/-- The search of a table finds a place in it, or changes nothing that can be looked up. -/
theorem noirCreateHandleUnsafe_creates (hfuel : levels < fuel) :
    Creates vm levels (noirCreateHandleUnsafe vm fuel) := by
  intro word handle memory h
  induction levels generalizing word fuel handle memory with
  | zero =>
      obtain ⟨fuel, rfl⟩ := Nat.exists_eq_add_of_lt hfuel
      obtain _ | _ | ⟨_ | _, entries⟩ := word <;> try exact h.elim
      unfold noirCreateHandleUnsafe
      rw [if_neg (not_not.mpr rfl)]
      cases hfind : (List.range handleTableCapacity).find? fun i => (entries i).isNull with
      | none => exact ⟨_, _, _, _, rfl, .inr ⟨fun h => (nomatch h), h, .refl (.inr h)⟩⟩
      | some i =>
          have hi : i < 512 := List.mem_range.mp (List.mem_of_find?_eq_some hfind)
          have hfound : (entries i).isNull = true := by simpa using List.find?_some hfind
          have hnull := isNull_iff.mp hfound
          have hdigit : digit i 0 = i := by simp [digit, Nat.mod_eq_of_lt hi]
          refine ⟨_, _, _, _, rfl, .inl ⟨rfl, i, by simpa using hi, ?_, trivial, ?_, fun _ _ => rfl⟩⟩
          · unfold slot
            rw [hdigit, hnull]
          · exact .leaf h hi (.inr ⟨vm, rfl, rfl⟩)
  | succ levels ih =>
      obtain ⟨fuel, rfl⟩ := Nat.exists_eq_add_of_lt hfuel
      obtain _ | _ | ⟨levels', entries⟩ := word <;> try exact h.elim
      obtain ⟨rfl, hentries⟩ := h
      have hcreate : Creates vm levels (noirCreateHandleUnsafe vm (levels + 1 + fuel)) :=
        fun word handle memory hword => ih (by omega) word handle memory hword
      obtain ⟨st, handle', entries', memory', hrun, hcases⟩ :=
        @searchTables_spec _ _ _ hcreate handleTableCapacity 0 (Nat.le_of_eq (Nat.zero_add _)) entries hentries handle memory
      rw [← List.range_eq_range'] at hrun
      refine ⟨st, handle', .table (levels + 1) entries', memory', noirCreateHandleUnsafe_table hrun, ?_⟩
      obtain ⟨hst, i, handle₁, place, -, hi, -, hplaced, hothers, rfl⟩ | ⟨hst, hall⟩ := hcases
      · rw [Nat.zero_add] at hi
        exact .inl ⟨hst, _, hplaced.ofEntry hi hothers⟩
      · exact .inr ⟨hst, ⟨rfl, fun j hj => (hall j hj).entry⟩, .table hall⟩

/-- The first null pointer of a table bounds the entry where a place is found. -/
theorem noirCreateHandleUnsafe_first {entries : Nat → TableWord} {n handle : Nat} (hfuel : levels < fuel)
    (hnull : entries n = .null)
    (hentries : ∀ j < 512, entries j = .null ∨ IsTable levels (entries j)) (memory : Allocator) :
    ∃ st handle' word' memory',
      noirCreateHandleUnsafe vm (fuel + 1) (.table (levels + 1) entries) handle memory =
        .ok (st, handle', word', memory') ∧
      (st = .success ∧ (∃ place < (n + 1) * 512 ^ (levels + 1),
          Placed (levels + 1) (.table (levels + 1) entries) word' vm handle' place) ∨
        st ≠ .success ∧ Kept (levels + 1) (.table (levels + 1) entries) word') := by
  obtain ⟨st, handle', entries', memory', hrun, hcases⟩ :=
    @searchTables_spec _ _ _ (noirCreateHandleUnsafe_creates hfuel) handleTableCapacity 0
      (Nat.le_of_eq (Nat.zero_add _)) entries hentries handle memory
  rw [← List.range_eq_range'] at hrun
  refine ⟨st, handle', .table (levels + 1) entries', memory', noirCreateHandleUnsafe_table hrun, ?_⟩
  obtain ⟨hst, i, handle₁, place, -, hi, hbefore, hplaced, hothers, rfl⟩ | ⟨hst, hall⟩ := hcases
  · rw [Nat.zero_add] at hi
    have hle : i ≤ n := by
      by_contra hlt
      exact hbefore n (Nat.zero_le n) (by omega) hnull
    refine .inl ⟨hst, _, ?_, hplaced.ofEntry hi hothers⟩
    have hbound := hplaced.bound
    have hmul := Nat.mul_le_mul_right (512 ^ (levels + 1)) hle
    rw [Nat.succ_mul]
    omega
  · exact .inr ⟨hst, .table hall⟩

end Creations

end TableWord

end NoirVisor
