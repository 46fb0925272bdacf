import NoirVisor.Words
import Mathlib.Algebra.Group.Nat.Defs

/-!
# The tables of ACPI

The tables that the root table lists are mapped at the start, and searched by signature, one after another
(`drv_core/acpi/acpi_main.c`). The search leaves its loop at the first table of the signature, whether it
is the one to return or the one before. A pointer of the older root table has four bytes, and the variable
for it eight.
-/

namespace NoirVisor

def acpiHeaderSize : Nat := 36

/-- The root table, as long as its header says. The older one has pointers of four bytes. -/
structure AcpiRoot where
  extended : Bool
  length : Nat
  memory : Words.Memory
  header_le : acpiHeaderSize ≤ length
  length_lt : length < 2 ^ 32

/-- A mapped table. Every slot has a mapping of its own. -/
structure AcpiTable where
  slot : Nat
  phys : Nat
deriving DecidableEq

/-- What the driver finds: the root table, the memory, what the stack has where a pointer is put, and
the tables that can be mapped, first their headers and then the whole. -/
structure AcpiSystem where
  root : AcpiRoot
  physical : Words.Memory
  stack : Nat → BitVec 64
  headMaps : Nat → Bool
  tableMaps : Nat → Bool

inductive AcpiSearch where
  | found (table : AcpiTable)
  | noSuchTable
  | fault
deriving DecidableEq

namespace AcpiSystem

variable (sys : AcpiSystem)

def increment : Nat := if sys.root.extended then 8 else 4

/-- `acpi_description_table_count` -/
def count : Nat := (sys.root.length - acpiHeaderSize) / sys.increment

/-- The address that the root table lists. -/
def listed (i : Nat) : Nat :=
  (Words.load sys.root.memory (acpiHeaderSize + i * sys.increment) sys.increment).toNat

/-- What `noir_movsb` makes of the variable. -/
def pointer (i : Nat) : Nat :=
  let bytes := Words.load sys.root.memory (acpiHeaderSize + i * sys.increment) sys.increment
  if sys.root.extended then bytes.toNat
  else (bytes ||| (sys.stack i >>> 32) <<< 32).toNat

/-- An entry of `acpi_description_tables`, which were zeroed. -/
def entry (i : Nat) : Option AcpiTable :=
  if sys.headMaps i && sys.tableMaps i then some ⟨i, sys.pointer i⟩ else none

def nvcAcpiInitialize : List (Option AcpiTable) := (List.range sys.count).map sys.entry

def signature (table : AcpiTable) : BitVec 32 := (Words.load sys.physical table.phys 4).setWidth 32

/-- The loop. `found` is `found_prev_instance`, which is true at first if there is no previous table. -/
def searchLoop (signature : BitVec 32) (found : Bool) : List (Option AcpiTable) → AcpiSearch
  | [] => .noSuchTable
  | none :: _ => .fault
  | some table :: tables =>
      if sys.signature table = signature then
        -- If it is the previous table, this is noted, and the loop is left all the same.
        if found then .found table else .noSuchTable
      else searchLoop signature found tables

def nvcAcpiSearchTable (signature : BitVec 32) (prev : Option AcpiTable) : AcpiSearch :=
  sys.searchLoop signature prev.isNone sys.nvcAcpiInitialize

/-- What the calls return, each with the result of the one before, until one fails. -/
inductive Returns (signature : BitVec 32) : Option AcpiTable → List AcpiTable → Prop where
  | last {prev : Option AcpiTable} (h : sys.nvcAcpiSearchTable signature prev = .noSuchTable) :
      Returns signature prev []
  | more {prev : Option AcpiTable} {table : AcpiTable} {tables : List AcpiTable}
      (h : sys.nvcAcpiSearchTable signature prev = .found table)
      (rest : Returns signature (some table) tables) : Returns signature prev (table :: tables)

/-- A table of this signature is mapped. -/
def Installed (signature : BitVec 32) (table : AcpiTable) : Prop :=
  some table ∈ sys.nvcAcpiInitialize ∧ sys.signature table = signature

/-- The tables are those that are listed, and the calls return each one of the signature once. -/
structure Enumerates (signature : BitVec 32) : Prop where
  placed : ∀ i table, sys.nvcAcpiInitialize[i]? = some (some table) → table.phys = sys.listed i
  returned : ∃ tables, sys.Returns signature none tables ∧ (tables.map AcpiTable.phys).Nodup ∧
    ∀ phys, phys ∈ tables.map AcpiTable.phys ↔
      ∃ table, sys.Installed signature table ∧ table.phys = phys

/-- In these entries, every one that is not mapped comes after a table of the signature. -/
def ShieldedIn (signature : BitVec 32) (entries : List (Option AcpiTable)) : Prop :=
  ∀ i : Nat, entries[i]? = some none →
    ∃ j < i, ∃ table, entries[j]? = some (some table) ∧ sys.signature table = signature

/-- The stack has zeroes above a pointer of four bytes, the signature belongs to one table, and no entry
that is not mapped comes before it. -/
structure Searchable (signature : BitVec 32) : Prop where
  stack : sys.root.extended = false → ∀ (i : Nat) table,
    sys.nvcAcpiInitialize[i]? = some (some table) → sys.stack i >>> 32 = 0
  single : ∀ table table', sys.Installed signature table → sys.Installed signature table' →
    table.phys = table'.phys
  shielded : sys.ShieldedIn signature sys.nvcAcpiInitialize

section Search

variable {sys} {signature : BitVec 32} {found : Bool} {table : AcpiTable}
  {entries : List (Option AcpiTable)}

theorem shieldedIn_cons_of_ne (h : sys.signature table ≠ signature) :
    sys.ShieldedIn signature (some table :: entries) ↔ sys.ShieldedIn signature entries := by
  constructor
  · intro hshielded i hnone
    obtain ⟨j, hj, other, hother, hsame⟩ := hshielded (i + 1) hnone
    cases j with
    | zero =>
        obtain rfl := Option.some.inj (Option.some.inj hother)
        exact absurd hsame h
    | succ j => exact ⟨j, by omega, other, hother, hsame⟩
  · intro hshielded i hnone
    cases i with
    | zero => cases hnone
    | succ i =>
        obtain ⟨j, hj, other, hother, hsame⟩ := hshielded i hnone
        exact ⟨j + 1, by omega, other, hother, hsame⟩

/-- The loop comes to an entry that is not mapped unless a table of the signature is before it. -/
theorem searchLoop_ne_fault_iff :
    sys.searchLoop signature found entries ≠ .fault ↔ sys.ShieldedIn signature entries := by
  induction entries with
  | nil => exact iff_of_true nofun fun i hnone => nomatch hnone
  | cons entry entries ih =>
      cases entry with
      | none =>
          refine iff_of_false (fun h => h rfl) fun hshielded => ?_
          obtain ⟨j, hj, -⟩ := hshielded 0 rfl
          exact absurd hj (Nat.not_lt_zero j)
      | some table =>
          unfold searchLoop
          split
          · next hsame =>
              refine iff_of_true (by split <;> nofun) fun i hnone => ?_
              cases i with
              | zero => cases hnone
              | succ i => exact ⟨0, Nat.succ_pos i, table, rfl, hsame⟩
          · next hother => rw [ih, shieldedIn_cons_of_ne hother]

theorem searchLoop_eq_found (h : sys.searchLoop signature found entries = .found table) :
    found = true ∧ some table ∈ entries ∧ sys.signature table = signature := by
  induction entries with
  | nil => cases h
  | cons entry entries ih =>
      cases entry with
      | none => cases h
      | some first =>
          unfold searchLoop at h
          split at h
          · next hsame =>
              split at h
              · next hfound =>
                  obtain rfl := AcpiSearch.found.inj h
                  exact ⟨hfound, List.mem_cons_self, hsame⟩
              · cases h
          · obtain ⟨hfound, hmem, hsame⟩ := ih h
            exact ⟨hfound, List.mem_cons_of_mem _ hmem, hsame⟩

/-- A search from the start that fails has come to the end. -/
theorem not_mem_of_noSuchTable (h : sys.searchLoop signature true entries = .noSuchTable)
    (hmem : some table ∈ entries) : sys.signature table ≠ signature := by
  induction entries with
  | nil => cases hmem
  | cons entry entries ih =>
      cases entry with
      | none => cases h
      | some first =>
          unfold searchLoop at h
          split at h
          · cases h
          · next hother =>
              rcases List.mem_cons.mp hmem with hfirst | hrest
              · obtain rfl := Option.some.inj hfirst
                exact hother
              · exact ih h hrest

/-- A call with a previous table fails, if it does not fault. -/
theorem search_some (h : sys.ShieldedIn signature sys.nvcAcpiInitialize) :
    sys.nvcAcpiSearchTable signature (some table) = .noSuchTable := by
  have hfault : sys.nvcAcpiSearchTable signature (some table) ≠ .fault :=
    searchLoop_ne_fault_iff.mpr h
  cases hsearch : sys.nvcAcpiSearchTable signature (some table) with
  | noSuchTable => rfl
  | fault => exact absurd hsearch hfault
  | found other => exact nomatch (searchLoop_eq_found hsearch).1

/-- No call after the first one returns a table. -/
theorem returns_some {tables : List AcpiTable} (h : sys.Returns signature (some table) tables) :
    tables = [] := by
  cases h with
  | last => rfl
  | more hfound rest => exact nomatch (searchLoop_eq_found hfound).1

/-- The bytes are kept, and the upper half comes on top of them. -/
theorem pointer_eq_iff {i : Nat} : sys.pointer i = sys.listed i ↔
    (sys.root.extended = false → sys.stack i >>> 32 = 0) := by
  unfold pointer listed increment
  cases sys.root.extended with
  | true => exact iff_of_true rfl nofun
  | false =>
      simp only [Bool.false_eq_true, if_false, forall_const]
      generalize hbytes : Words.load sys.root.memory (acpiHeaderSize + i * 4) 4 = bytes
      have hhigh (k : Nat) (hk : 32 ≤ k) (hlt : k < 64) : bytes.getLsbD k = false := by
        rw [← hbytes, Words.getLsbD_load hlt]
        simp [show ¬k < 32 by omega]
      rw [← BitVec.toNat_eq]
      constructor
      · intro heq
        apply BitVec.eq_of_getLsbD_eq
        intro k hk
        rw [BitVec.getLsbD_ushiftRight, BitVec.ofNat_eq_ofNat, BitVec.getLsbD_zero]
        by_cases hlt : k < 32
        · have hbit : (bytes ||| sys.stack i >>> 32 <<< 32).getLsbD (32 + k) = bytes.getLsbD (32 + k) :=
            congrArg (BitVec.getLsbD · (32 + k)) heq
          rw [BitVec.getLsbD_or, hhigh (32 + k) (by omega) (by omega), Bool.false_or,
            BitVec.getLsbD_shiftLeft, BitVec.getLsbD_ushiftRight, Nat.add_sub_cancel_left] at hbit
          simpa [show 32 + k < 64 by omega] using hbit
        · exact BitVec.getLsbD_of_ge _ _ (by omega)
      · intro hzero
        simp [hzero]

theorem entry_eq_some {i : Nat} (h : sys.nvcAcpiInitialize[i]? = some (some table)) :
    table = ⟨i, sys.pointer i⟩ := by
  unfold nvcAcpiInitialize at h
  rw [List.getElem?_map, Option.map_eq_some_iff] at h
  obtain ⟨j, hj, hentry⟩ := h
  obtain ⟨hlt, rfl⟩ := List.getElem?_eq_some_iff.mp hj
  rw [List.getElem_range] at hentry
  unfold entry at hentry
  split at hentry
  · exact (Option.some.inj hentry).symm
  · cases hentry

theorem Enumerates.searchable (h : sys.Enumerates signature) : sys.Searchable signature := by
  obtain ⟨tables, hreturns, -, hmem⟩ := h.returned
  refine ⟨fun hold i table hi => ?_, fun t t' ht ht' => ?_, ?_⟩
  · have hplaced := h.placed i table hi
    rw [entry_eq_some hi] at hplaced
    exact pointer_eq_iff.mp hplaced hold
  · have hboth {t : AcpiTable} (ht : sys.Installed signature t) : ∃ first, tables = [first] ∧
        t.phys = first.phys := by
      have hin := (hmem t.phys).mpr ⟨t, ht, rfl⟩
      cases hreturns with
      | last => cases hin
      | more hfound rest =>
          obtain rfl := returns_some rest
          exact ⟨_, rfl, List.mem_singleton.mp hin⟩
    obtain ⟨first, hfirst, heq⟩ := hboth ht
    obtain ⟨first', hfirst', heq'⟩ := hboth ht'
    obtain rfl := List.singleton_inj.mp (hfirst.symm.trans hfirst')
    exact heq.trans heq'.symm
  · have hfirst : sys.nvcAcpiSearchTable signature none ≠ .fault := by
      intro hfault
      cases hreturns with
      | last hnone => exact nomatch hfault.symm.trans hnone
      | more hfound rest => exact nomatch hfault.symm.trans hfound
    exact searchLoop_ne_fault_iff.mp hfirst

theorem Searchable.enumerates (h : sys.Searchable signature) : sys.Enumerates signature := by
  refine ⟨fun i table hi => ?_, ?_⟩
  · rw [entry_eq_some hi]
    exact pointer_eq_iff.mpr fun hold => h.stack hold i table hi
  · have hfirst : sys.nvcAcpiSearchTable signature none ≠ .fault :=
      searchLoop_ne_fault_iff.mpr h.shielded
    cases hsearch : sys.nvcAcpiSearchTable signature none with
    | fault => exact absurd hsearch hfirst
    | noSuchTable =>
        refine ⟨[], .last hsearch, List.nodup_nil, fun phys => iff_of_false nofun ?_⟩
        rintro ⟨table, ⟨hmem, hsame⟩, -⟩
        exact not_mem_of_noSuchTable hsearch hmem hsame
    | found table =>
        obtain ⟨-, hinstalled⟩ := searchLoop_eq_found hsearch
        have hlast : sys.nvcAcpiSearchTable signature (some table) = .noSuchTable :=
          search_some h.shielded
        refine ⟨[table], .more hsearch (.last hlast), by simp, fun phys => ?_⟩
        rw [List.map_singleton, List.mem_singleton]
        constructor
        · rintro rfl
          exact ⟨table, hinstalled, rfl⟩
        · rintro ⟨other, hother, rfl⟩
          exact h.single other table hother hinstalled

theorem enumerates_iff : sys.Enumerates signature ↔ sys.Searchable signature :=
  ⟨Enumerates.searchable, Searchable.enumerates⟩

end Search

end AcpiSystem

end NoirVisor
