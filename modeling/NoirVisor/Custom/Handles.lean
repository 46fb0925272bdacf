import NoirVisor.Custom.HandleTable
import NoirVisor.Transition
import Mathlib.Data.List.Nodup
import Mathlib.Data.List.Perm.Subperm

/-!
# Handles of VMs

Runs of creations and deletions of handles. A handle refers to its VM until it is deleted, as long as the
table stays small; what a value that is no handle refers to depends on the tables there are.
-/

namespace NoirVisor

open TableWord (slot Reaches IsTable digit digit_lt slot_null slot_mod reaches_mod Kept Edited Placed
  lookup_of_reaches lookup_of_not_reaches delete_of_reaches noirCreateHandleUnsafe_creates
  noirCreateHandleUnsafe_first noirCreateHandleUnsafe_table searchTables_append searchTables_spec)

/-- The table, and what its handles were created for. -/
structure HandleHost where
  table : NoirCvmHandleTable
  live : List (Nat × Nat)

namespace HandleHost

variable (s : HandleHost)

/-- What the handles promise their owners. -/
structure Sound : Prop where
  refers : ∀ entry ∈ s.live, s.table.noirReferenceVirtualMachineByHandle entry.1 = .ok (some entry.2)
  nodup : (s.live.map Prod.fst).Nodup
  count : s.table.handleCount = s.live.length

/-- A lookup returns, and finds no VM but for a live handle. -/
def LookupBehaves (handle : Nat) : Prop :=
  ∃ vm, s.table.noirReferenceVirtualMachineByHandle handle = .ok vm ∧
    ∀ vm', vm = some vm' → (handle, vm') ∈ s.live

/-- Every table on the way is there, and above the capacity of the table there is nothing at the place. -/
def LookupFits (handle : Nat) : Prop :=
  Reaches s.table.levels s.table.tableCode handle ∧
    (handle < 512 ^ (s.table.levels + 1) ∨ slot s.table.levels s.table.tableCode handle = none)

end HandleHost

inductive HandleCall where
  | create (vm handle : Nat) (memory : Allocator)
  | delete (handle : Nat)

namespace HandleCall

variable (s : HandleHost)

def run : HandleCall → Outcome (NoirStatus × Nat × HandleHost)
  | create vm handle memory => do
      let (st, handle, table) ← s.table.noirCreateHandle vm handle memory
      pure (st, handle, ⟨table, if st = .success then s.live ++ [(handle, vm)] else s.live⟩)
  | delete handle => do
      let table ← s.table.deleteHandle handle
      pure (.success, handle, ⟨table, s.live.filter fun entry => entry.1 ≠ handle⟩)

/-- A creation that fails changes no lookup. -/
def Behaves (call : HandleCall) : Prop :=
  ∃ st handle s', call.run s = .ok (st, handle, s') ∧ s'.Sound ∧
    match call with
    | create vm _ _ =>
        (st = .success → s'.live = s.live ++ [(handle, vm)]) ∧
          (st ≠ .success → s'.live = s.live ∧ ∀ value vm',
            s.table.noirReferenceVirtualMachineByHandle value = .ok vm' →
              s'.table.noirReferenceVirtualMachineByHandle value = .ok vm')
    | delete value => s'.live = s.live.filter fun entry => entry.1 ≠ value

end HandleCall

namespace NoirCvmHandleTable

variable (t : NoirCvmHandleTable) (vm handle : Nat) (memory : Allocator)

/-- The search among the first entries of the root does not come to their end. -/
def FirstEntriesSuffice : Prop :=
  match t.tableCode with
  | .table levels entries =>
      ∃ st handle' entries' memory',
        searchTables (noirCreateHandleUnsafe vm (handleTableFuel - 1)) levels (List.range 32) entries
          handle memory = .ok (st, handle', entries', memory') ∧ st ≠ .unsuccessful
  | _ => False

/-- If the table is full and gets one more level then a place is found. -/
def IncreaseSucceeds : Prop :=
  ∀ handle' root memory',
    noirCreateHandleUnsafe vm handleTableFuel t.tableCode handle memory =
        .ok (.unsuccessful, handle', root, memory') →
      memory'.nonpg 0 = true → ∃ handle'' root' memory'',
        noirCreateHandleUnsafe vm handleTableFuel (increasedLevel root t.levels) handle'
          memory'.noirAllocNonpgMemory.2 = .ok (.success, handle'', root', memory'')

end NoirCvmHandleTable

/-- The parts of a handle have 32 bits: a root of level three has no more than 32 entries of use. A value
is deleted if its lookup behaves. -/
def HandleCall.Fits (s : HandleHost) : HandleCall → Prop
  | create vm handle memory =>
      s.table.levels ≤ 2 ∧ s.table.IncreaseSucceeds vm handle memory ∨
        s.table.levels = 3 ∧ s.table.FirstEntriesSuffice vm handle memory
  | delete handle => s.LookupFits handle

/-- At first the table has one level. -/
def HandleHost.Start (s : HandleHost) : Prop :=
  s.table.tableCode = .empty 0 ∧ s.table.handleCount = 0 ∧ s.live = []

/-- Runs of calls that meet a condition. -/
def HandlesReachable (condition : HandleHost → HandleCall → Prop) : HandleHost → Prop :=
  Transition.Reachable HandleHost.Start fun s s' =>
    ∃ call : HandleCall, condition s call ∧ ∃ st handle, call.run s = .ok (st, handle, s')

/-- The places of the table are those of the handles. -/
structure HandleHost.Tracked (s : HandleHost) : Prop where
  levels : s.table.levels ≤ 3
  table : IsTable s.table.levels s.table.tableCode
  nodup : (s.live.map Prod.fst).Nodup
  bound : ∀ entry ∈ s.live, entry.1 < 512 ^ (s.table.levels + 1)
  reached : ∀ entry ∈ s.live, Reaches s.table.levels s.table.tableCode entry.1
  slots : ∀ handle < 512 ^ (s.table.levels + 1), ∀ vm,
    slot s.table.levels s.table.tableCode handle = some vm ↔ (handle, vm) ∈ s.live
  count : s.table.handleCount = s.live.length

namespace NoirCvmHandleTable

variable {t : NoirCvmHandleTable} {levels vm handle : Nat} {root : TableWord} {memory : Allocator}

theorem levels_eq (h : IsTable levels t.tableCode) : t.levels = levels := by
  obtain ⟨tableCode, _, _⟩ := t
  cases levels with
  | zero => obtain _ | _ | ⟨_ | _, entries⟩ := tableCode <;> first | exact h.elim | rfl
  | succ levels =>
      obtain _ | _ | ⟨levels', entries⟩ := tableCode <;> first | exact h.elim | exact h.1

theorem isTable_increasedLevel (h : IsTable levels root) :
    IsTable (levels + 1) (increasedLevel root levels) := by
  refine ⟨rfl, fun i _ => ?_⟩
  by_cases heq : i = 0
  · exact .inr (heq ▸ by rwa [Function.update_self])
  · exact .inl (Function.update_of_ne heq _ _)

theorem digit_eq_zero_iff (hhandle : handle < 512 ^ (levels + 2)) :
    digit handle (levels + 1) = 0 ↔ handle < 512 ^ (levels + 1) := by
  unfold digit
  rw [Nat.mod_eq_of_lt (Nat.div_lt_of_lt_mul (by rwa [← Nat.pow_succ])), Nat.div_eq_zero_iff]
  have hpos : 0 < 512 ^ (levels + 1) := Nat.pow_pos (by decide)
  omega

theorem increasedLevel_of_zero (hdigit : digit handle (levels + 1) = 0) :
    slot (levels + 1) (increasedLevel root levels) handle = slot levels root handle ∧
      (Reaches (levels + 1) (increasedLevel root levels) handle ↔ Reaches levels root handle) := by
  change slot levels (Function.update (fun _ => TableWord.null) 0 root (digit handle (levels + 1))) handle = _ ∧
    (Reaches levels (Function.update (fun _ => TableWord.null) 0 root (digit handle (levels + 1))) handle ↔ _)
  rw [hdigit, Function.update_self]
  exact ⟨rfl, Iff.rfl⟩

theorem increasedLevel_of_ne (hdigit : digit handle (levels + 1) ≠ 0) :
    slot (levels + 1) (increasedLevel root levels) handle = none := by
  change slot levels (Function.update (fun _ => TableWord.null) 0 root (digit handle (levels + 1))) handle = none
  rw [Function.update_of_ne hdigit]
  exact slot_null

/-- The table with a new handle, perhaps with one more level. -/
structure Grown (levels levels' : Nat) (word word' : TableWord) (vm handle : Nat) : Prop where
  small : levels' ≤ 3
  table : IsTable levels' word'
  larger : 512 ^ (levels + 1) ≤ 512 ^ (levels' + 1)
  bound : handle < 512 ^ (levels' + 1)
  free : handle < 512 ^ (levels + 1) → slot levels word handle = none
  slots : ∀ value < 512 ^ (levels' + 1), slot levels' word' value =
    if value = handle then some vm else if value < 512 ^ (levels + 1) then slot levels word value else none
  reaches : ∀ value < 512 ^ (levels + 1), Reaches levels word value → Reaches levels' word' value
  reached : Reaches levels' word' handle

variable {levels' place : Nat} {word word' : TableWord}

theorem Grown.ofPlaced (hlevels : levels ≤ 3) (hplaced : Placed levels word word' vm handle place)
    (hplace : place < 2 ^ 32) : Grown levels levels word word' vm handle := by
  obtain rfl := hplaced.handle hlevels hplace
  refine ⟨hlevels, hplaced.edited.table, Nat.le_refl _, hplaced.bound, fun _ => hplaced.free, ?_, ?_,
    hplaced.reached⟩
  · intro value hvalue
    rw [hplaced.edited.slot, Nat.mod_eq_of_lt hvalue, if_pos hvalue]
  · exact fun value _ => hplaced.edited.reaches value

theorem Grown.ofIncreased (hlevels : levels ≤ 2) (hkept : Kept levels word root)
    (hplaced : Placed (levels + 1) (increasedLevel root levels) word' vm handle place)
    (hplace : place < 2 ^ 32) : Grown levels (levels + 1) word word' vm handle := by
  obtain rfl := hplaced.handle (by omega) hplace
  have hold {value : Nat} (hvalue : value < 512 ^ (levels + 2)) :
      slot (levels + 1) (increasedLevel root levels) value =
        if value < 512 ^ (levels + 1) then slot levels word value else none := by
    by_cases hdigit : digit value (levels + 1) = 0
    · rw [(increasedLevel_of_zero hdigit).1, if_pos ((digit_eq_zero_iff hvalue).mp hdigit), hkept.slot]
    · rw [increasedLevel_of_ne hdigit, if_neg fun hlt => hdigit ((digit_eq_zero_iff hvalue).mpr hlt)]
  have hlarger : 512 ^ (levels + 1) ≤ 512 ^ (levels + 2) := Nat.pow_le_pow_right (by decide) (by omega)
  refine ⟨by omega, hplaced.edited.table, hlarger, hplaced.bound, fun hlt => ?_, ?_, ?_, hplaced.reached⟩
  · have hfree := hplaced.free
    rwa [hold hplaced.bound, if_pos hlt] at hfree
  · intro value hvalue
    rw [hplaced.edited.slot, Nat.mod_eq_of_lt hvalue, hold hvalue]
  · intro value hvalue hreaches
    have hdigit := (digit_eq_zero_iff (Nat.lt_of_lt_of_le hvalue hlarger)).mpr hvalue
    exact hplaced.edited.reaches value
      ((increasedLevel_of_zero hdigit).2.mpr (hkept.reaches value hreaches))

theorem createOrIncrease_of_small (hlevels : t.levels ≤ 2) (h : IsTable t.levels t.tableCode)
    (hincrease : t.IncreaseSucceeds vm handle memory) :
    ∃ st handle' root memory', t.createOrIncrease vm handle memory = .ok (st, handle', root, memory') ∧
      (st = .success ∧ (∃ levels', Grown t.levels levels' t.tableCode root vm handle') ∨
        st ≠ .success ∧ IsTable t.levels root ∧ Kept t.levels t.tableCode root) := by
  have hfuel : t.levels < handleTableFuel := Nat.lt_of_le_of_lt hlevels (by decide)
  have hsmall {levels place : Nat} (hlevels : levels ≤ 2) (hplace : place < 512 ^ (levels + 1)) :
      place < 2 ^ 32 := by
    calc
      place < 512 ^ (levels + 1) := hplace
      _ ≤ 512 ^ 3 := Nat.pow_le_pow_right (by decide) (by omega)
      _ < 2 ^ 32 := by decide
  obtain ⟨st, handle₁, root, memory₁, hrun, hcases⟩ :=
    @noirCreateHandleUnsafe_creates t.levels handleTableFuel vm hfuel t.tableCode handle memory h
  unfold createOrIncrease
  rw [hrun]
  obtain ⟨rfl, place, hplaced⟩ | ⟨hst, htable, hkept⟩ := hcases
  · refine ⟨_, _, _, _, rfl, .inl ⟨rfl, t.levels, .ofPlaced (by omega) hplaced ?_⟩⟩
    exact hsmall hlevels hplaced.bound
  · by_cases hfull : st = .unsuccessful
    · subst hfull
      cases hallocated : memory₁.nonpg 0 with
      | false =>
          refine ⟨.insufficientResources, handle₁, root, memory₁.noirAllocNonpgMemory.2, ?_,
            .inr ⟨fun hst => (nomatch hst), htable, hkept⟩⟩
          simp [bind, Except.bind, Allocator.noirAllocNonpgMemory, hallocated]
          rfl
      | true =>
          obtain ⟨handle₂, root', memory₂, hrun'⟩ := hincrease handle₁ root memory₁ hrun hallocated
          have hentries (j : Nat) (hj : j < 512) :
              Function.update (fun _ => TableWord.null) 0 root j = .null ∨
                IsTable t.levels (Function.update (fun _ => TableWord.null) 0 root j) :=
            (isTable_increasedLevel htable).2 j hj
          have hone : Function.update (fun _ => TableWord.null) 0 root 1 = .null :=
            Function.update_of_ne Nat.one_ne_zero _ _
          obtain ⟨st, handle₃, root₃, memory₃, hrun₃, hcases⟩ :=
            @noirCreateHandleUnsafe_first t.levels (handleTableFuel - 1) vm _ 1 handle₁
              (Nat.lt_of_le_of_lt hlevels (by decide)) hone hentries memory₁.noirAllocNonpgMemory.2
          cases hrun'.symm.trans hrun₃
          obtain ⟨-, place, hlt, hplaced⟩ | ⟨hst, -⟩ := hcases
          · refine ⟨.success, handle₂, root', memory₂, ?_, .inl ⟨rfl, t.levels + 1, ?_⟩⟩
            · change (if memory₁.nonpg 0 = true then
                noirCreateHandleUnsafe vm handleTableFuel (increasedLevel root t.levels) handle₁
                  memory₁.noirAllocNonpgMemory.2 else _) = _
              rw [if_pos hallocated]
              exact hrun'
            · refine .ofIncreased hlevels hkept hplaced (Nat.lt_of_lt_of_le hlt ?_)
              calc
                (1 + 1) * 512 ^ (t.levels + 1) ≤ 2 * 512 ^ 3 :=
                  Nat.mul_le_mul_left _ (Nat.pow_le_pow_right (by decide) (by omega))
                _ ≤ 2 ^ 32 := by decide
          · exact absurd rfl hst
    · refine ⟨st, handle₁, root, memory₁, ?_, .inr ⟨hst, htable, hkept⟩⟩
      change (if st = .unsuccessful then _ else _) = _
      exact if_neg hfull

theorem createOrIncrease_of_three (hlevels : t.levels = 3) (h : IsTable 3 t.tableCode)
    (hfirst : t.FirstEntriesSuffice vm handle memory) :
    ∃ st handle' root memory', t.createOrIncrease vm handle memory = .ok (st, handle', root, memory') ∧
      (st = .success ∧ Grown 3 3 t.tableCode root vm handle' ∨
        st ≠ .success ∧ IsTable 3 root ∧ Kept 3 t.tableCode root) := by
  obtain ⟨tableCode, maximumHandleValue, handleCount⟩ := t
  obtain _ | _ | ⟨levels', entries⟩ := tableCode <;> try exact h.elim
  obtain ⟨rfl, hentries⟩ := h
  obtain ⟨st, handle', entries', memory', hrun, hst⟩ := hfirst
  have hcreates := @noirCreateHandleUnsafe_creates 2 (handleTableFuel - 1) vm (by decide)
  obtain ⟨st₁, handle₁, entries₁, memory₁, hrun₁, hcases⟩ :=
    @searchTables_spec _ _ _ hcreates 32 0 (by omega) entries hentries handle memory
  rw [← List.range_eq_range'] at hrun₁
  cases hrun.symm.trans hrun₁
  have hsplit : List.range 32 ++ List.range' 32 480 = List.range handleTableCapacity := by
    rw [List.range_eq_range', List.range_eq_range']
    exact List.range'_append_1
  have hsearch := @searchTables_append _ _ _ (List.range' 32 480) _ _ _ _ _ _ _ hrun hst
  rw [hsplit] at hsearch
  have hroot : noirCreateHandleUnsafe vm handleTableFuel (.table 3 entries) handle memory =
      .ok (st, handle', .table 3 entries', memory') := noirCreateHandleUnsafe_table hsearch
  refine ⟨st, handle', .table 3 entries', memory', ?_, ?_⟩
  · unfold createOrIncrease
    rw [hroot]
    change (if st = .unsuccessful then _ else _) = _
    exact if_neg hst
  · obtain ⟨hsuccess, i, handle₂, place, -, hi, -, hplaced, hothers, rfl⟩ | ⟨hfailure, hall⟩ := hcases
    · refine .inl ⟨hsuccess, .ofPlaced (Nat.le_refl 3) (hplaced.ofEntry (by omega) hothers) ?_⟩
      have hbound := hplaced.bound
      have hmul : i * 512 ^ 3 ≤ 31 * 512 ^ 3 := Nat.mul_le_mul_right _ (by omega)
      have hsum : 31 * 512 ^ 3 + 512 ^ 3 ≤ 2 ^ 32 := by decide
      omega
    · exact .inr ⟨hfailure, ⟨rfl, fun j hj => (hall j hj).entry⟩, .table hall⟩

end NoirCvmHandleTable

namespace HandleHost

section Lookups

variable {s : HandleHost} {handle vm : Nat}

theorem Tracked.lookup (h : s.Tracked) (hreaches : Reaches s.table.levels s.table.tableCode handle) :
    s.table.noirReferenceVirtualMachineByHandle handle =
      .ok (slot s.table.levels s.table.tableCode handle) := by
  have hlevels := h.levels
  exact lookup_of_reaches (by omega) (Nat.lt_of_le_of_lt hlevels (by decide)) h.table hreaches

theorem Tracked.lookup_fails (h : s.Tracked)
    (hreaches : ¬Reaches s.table.levels s.table.tableCode handle) :
    s.table.noirReferenceVirtualMachineByHandle handle = .error .nullDereference := by
  have hlevels := h.levels
  exact lookup_of_not_reaches (by omega) (Nat.lt_of_le_of_lt hlevels (by decide)) h.table hreaches

theorem Tracked.sound (h : s.Tracked) : s.Sound where
  refers entry hentry := by
    rw [h.lookup (h.reached entry hentry), (h.slots entry.1 (h.bound entry hentry) entry.2).mpr hentry]
  nodup := h.nodup
  count := h.count

/-- What is found above the capacity of the table is the VM of another handle. -/
theorem Tracked.alias_mem (h : s.Tracked)
    (hvm : slot s.table.levels s.table.tableCode handle = some vm) :
    (handle % 512 ^ (s.table.levels + 1), vm) ∈ s.live := by
  refine (h.slots _ (Nat.mod_lt _ (Nat.pow_pos (by decide))) vm).mp ?_
  rw [slot_mod _ (Nat.le_refl _)]
  exact hvm

theorem Tracked.lookup_behaves_iff (h : s.Tracked) : s.LookupBehaves handle ↔ s.LookupFits handle := by
  by_cases hreaches : Reaches s.table.levels s.table.tableCode handle
  · have hlookup := h.lookup hreaches
    constructor
    · rintro ⟨vm, hrun, hlive⟩
      obtain rfl := Except.ok.inj (hlookup.symm.trans hrun)
      refine ⟨hreaches, ?_⟩
      cases hslot : slot s.table.levels s.table.tableCode handle with
      | none => exact .inr rfl
      | some vm => exact .inl (h.bound _ (hlive vm hslot))
    · rintro ⟨-, hlt | hnone⟩
      · exact ⟨_, hlookup, fun vm hvm => (h.slots handle hlt vm).mp hvm⟩
      · exact ⟨_, hlookup, fun vm hvm => (nomatch hnone.symm.trans hvm)⟩
  · refine iff_of_false ?_ fun hfits => hreaches hfits.1
    rintro ⟨vm, hrun, -⟩
    cases (h.lookup_fails hreaches).symm.trans hrun

end Lookups

section Calls

variable {s : HandleHost} {handle vm : Nat} {memory : Allocator}

theorem length_le {handles : List Nat} {n : Nat} (hnodup : handles.Nodup) (hlt : ∀ handle ∈ handles, handle < n) :
    handles.length ≤ n := by
  have hsubset : handles ⊆ List.range n := fun handle hhandle => List.mem_range.mpr (hlt handle hhandle)
  have hlength := (hnodup.subperm hsubset).length_le
  rwa [List.length_range] at hlength

theorem Tracked.length_lt (h : s.Tracked) : s.live.length < 2 ^ 64 - 1 := by
  have hle : (s.live.map Prod.fst).length ≤ 512 ^ (s.table.levels + 1) := by
    refine length_le h.nodup fun handle hhandle => ?_
    obtain ⟨entry, hentry, rfl⟩ := List.mem_map.mp hhandle
    exact h.bound entry hentry
  have hlevels := h.levels
  rw [List.length_map] at hle
  calc
    s.live.length ≤ 512 ^ (s.table.levels + 1) := hle
    _ ≤ 512 ^ 4 := Nat.pow_le_pow_right (by decide) (by omega)
    _ < 2 ^ 64 - 1 := by decide

/-- The handle of a place that was free is a new one. -/
theorem Tracked.push (h : s.Tracked) {table : NoirCvmHandleTable}
    (hgrown : NoirCvmHandleTable.Grown s.table.levels table.levels s.table.tableCode table.tableCode vm handle)
    (hcount : table.handleCount = (s.table.handleCount + 1) % 2 ^ 64) :
    (⟨table, s.live ++ [(handle, vm)]⟩ : HandleHost).Tracked := by
  have hlength := h.length_lt
  have hnew : ∀ entry ∈ s.live, entry.1 ≠ handle := by
    rintro entry hentry rfl
    have hbound := h.bound entry hentry
    have hvm := (h.slots entry.1 hbound entry.2).mpr hentry
    cases (hgrown.free hbound).symm.trans hvm
  constructor
  · exact hgrown.small
  · exact hgrown.table
  · rw [List.map_append, List.map_singleton]
    refine List.nodup_append.mpr ⟨h.nodup, List.nodup_singleton _, ?_⟩
    intro value hvalue other hother
    obtain ⟨entry, hentry, rfl⟩ := List.mem_map.mp hvalue
    rw [List.mem_singleton.mp hother]
    exact hnew entry hentry
  · intro entry hentry
    obtain hold | hnew := List.mem_append.mp hentry
    · exact Nat.lt_of_lt_of_le (h.bound entry hold) hgrown.larger
    · rw [List.mem_singleton.mp hnew]
      exact hgrown.bound
  · intro entry hentry
    obtain hold | hnew := List.mem_append.mp hentry
    · exact hgrown.reaches entry.1 (h.bound entry hold) (h.reached entry hold)
    · rw [List.mem_singleton.mp hnew]
      exact hgrown.reached
  · intro value hvalue vm'
    rw [hgrown.slots value hvalue, List.mem_append, List.mem_singleton]
    by_cases heq : value = handle
    · subst heq
      rw [if_pos rfl]
      constructor
      · intro hvm
        exact .inr (Prod.ext rfl (Option.some.inj hvm).symm)
      · rintro (hold | hsame)
        · exact absurd rfl (hnew _ hold)
        · exact congrArg some (congrArg Prod.snd hsame).symm
    · rw [if_neg heq]
      have hother : ¬(value, vm') = (handle, vm) := fun hsame => heq (congrArg Prod.fst hsame)
      by_cases hlt : value < 512 ^ (s.table.levels + 1)
      · rw [if_pos hlt, h.slots value hlt vm']
        exact ⟨.inl, fun hmem => hmem.resolve_right hother⟩
      · rw [if_neg hlt]
        refine iff_of_false (fun hnone => (nomatch hnone)) ?_
        rintro (hold | hsame)
        · exact hlt (h.bound _ hold)
        · exact hother hsame
  · rw [hcount, h.count, List.length_append, List.length_singleton]
    exact Nat.mod_eq_of_lt (by omega)

/-- What a search that finds nothing leaves. -/
theorem Tracked.keep (h : s.Tracked) {table : NoirCvmHandleTable} (hlevels : table.levels = s.table.levels)
    (htable : IsTable s.table.levels table.tableCode)
    (hkept : Kept s.table.levels s.table.tableCode table.tableCode)
    (hcount : table.handleCount = s.table.handleCount) : (⟨table, s.live⟩ : HandleHost).Tracked := by
  constructor
  · exact hlevels ▸ h.levels
  · exact hlevels ▸ htable
  · exact h.nodup
  · exact hlevels ▸ h.bound
  · dsimp only
    rw [hlevels]
    exact fun entry hentry => hkept.reaches entry.1 (h.reached entry hentry)
  · dsimp only
    rw [hlevels]
    intro value hvalue vm
    rw [hkept.slot]
    exact h.slots value hvalue vm
  · exact hcount.trans h.count

/-- A creation that fits keeps the promise to the owners of handles. -/
theorem Tracked.create (h : s.Tracked) (hfits : (HandleCall.create vm handle memory).Fits s) :
    ∃ st handle' table, s.table.noirCreateHandle vm handle memory = .ok (st, handle', table) ∧
      (st = .success ∧ (⟨table, s.live ++ [(handle', vm)]⟩ : HandleHost).Tracked ∨
        st ≠ .success ∧ (⟨table, s.live⟩ : HandleHost).Tracked ∧ table.levels = s.table.levels ∧
          Kept s.table.levels s.table.tableCode table.tableCode) := by
  have hcreate : ∃ st handle' root memory',
      s.table.createOrIncrease vm handle memory = .ok (st, handle', root, memory') ∧
        (st = .success ∧ (∃ levels',
            NoirCvmHandleTable.Grown s.table.levels levels' s.table.tableCode root vm handle') ∨
          st ≠ .success ∧ IsTable s.table.levels root ∧ Kept s.table.levels s.table.tableCode root) := by
    obtain ⟨hlevels, hincrease⟩ | ⟨hlevels, hfirst⟩ := hfits
    · exact NoirCvmHandleTable.createOrIncrease_of_small hlevels h.table hincrease
    · obtain ⟨st, handle', root, memory', hrun, hcases⟩ :=
        NoirCvmHandleTable.createOrIncrease_of_three hlevels (hlevels ▸ h.table) hfirst
      rw [hlevels]
      exact ⟨st, handle', root, memory', hrun, hcases.imp (And.imp_right fun hgrown => ⟨3, hgrown⟩) id⟩
  obtain ⟨st, handle', root, memory', hrun, hcases⟩ := hcreate
  unfold NoirCvmHandleTable.noirCreateHandle
  rw [hrun]
  refine ⟨st, handle', _, rfl, ?_⟩
  obtain ⟨rfl, levels', hgrown⟩ | ⟨hst, htable, hkept⟩ := hcases
  · refine .inl ⟨rfl, h.push ?_ rfl⟩
    obtain rfl : NoirCvmHandleTable.levels ⟨root, _, _⟩ = levels' :=
      @NoirCvmHandleTable.levels_eq ⟨root, 0, 0⟩ _ hgrown.table
    exact hgrown
  · have hlevels : NoirCvmHandleTable.levels ⟨root, _, _⟩ = s.table.levels :=
      @NoirCvmHandleTable.levels_eq ⟨root, 0, 0⟩ _ htable
    exact .inr ⟨hst, h.keep hlevels htable hkept (if_neg hst), hlevels, hkept⟩

/-- A value that is not a live handle is not in the list of them. -/
theorem filter_eq_self (hnone : ∀ entry ∈ s.live, entry.1 ≠ handle) :
    (s.live.filter fun entry => entry.1 ≠ handle) = s.live :=
  List.filter_eq_self.mpr fun entry hentry => decide_eq_true (hnone entry hentry)

theorem Tracked.nodup_live (h : s.Tracked) : s.live.Nodup := h.nodup.of_map _

/-- Two entries with one handle are one. -/
theorem Tracked.eq_of_handle (h : s.Tracked) {entry : Nat × Nat} (hentry : entry ∈ s.live)
    (hvm : (handle, vm) ∈ s.live) (heq : entry.1 = handle) : entry = (handle, vm) :=
  List.inj_on_of_nodup_map h.nodup hentry hvm heq

theorem Tracked.length_filter (h : s.Tracked) (hvm : (handle, vm) ∈ s.live) :
    (s.live.filter fun entry => entry.1 ≠ handle).length = s.live.length - 1 := by
  have herase : (s.live.filter fun entry => entry.1 ≠ handle) = s.live.erase (handle, vm) := by
    rw [h.nodup_live.erase_eq_filter]
    refine List.filter_congr fun entry hentry => ?_
    by_cases heq : entry.1 = handle
    · have hsame := h.eq_of_handle hentry hvm heq
      simp [hsame]
    · have hother : entry ≠ (handle, vm) := fun hsame => heq (congrArg Prod.fst hsame)
      simp [heq, hother]
  rw [herase, List.length_erase_of_mem hvm]

/-- The deletion of a live handle. -/
theorem Tracked.drop (h : s.Tracked) {table : NoirCvmHandleTable} (hlevels : table.levels = s.table.levels)
    (hvm : (handle, vm) ∈ s.live)
    (hedited : Edited s.table.levels s.table.tableCode table.tableCode handle none)
    (hcount : table.handleCount = (s.table.handleCount + 2 ^ 64 - 1) % 2 ^ 64) :
    (⟨table, s.live.filter fun entry => entry.1 ≠ handle⟩ : HandleHost).Tracked := by
  have hlength := h.length_lt
  have hpos := List.length_pos_of_mem hvm
  constructor
  · exact hlevels ▸ h.levels
  · exact hlevels ▸ hedited.table
  · exact h.nodup.sublist (List.filter_sublist.map _)
  · rw [hlevels]
    exact fun entry hentry => h.bound entry (List.mem_of_mem_filter hentry)
  · dsimp only
    rw [hlevels]
    exact fun entry hentry => hedited.reaches entry.1 (h.reached entry (List.mem_of_mem_filter hentry))
  · dsimp only
    rw [hlevels]
    intro value hvalue vm'
    rw [hedited.slot, Nat.mod_eq_of_lt hvalue, List.mem_filter]
    by_cases heq : value = handle
    · rw [if_pos heq]
      exact iff_of_false (fun hnone => (nomatch hnone)) fun hmem => by simp [heq] at hmem
    · rw [if_neg heq, h.slots value hvalue vm']
      exact ⟨fun hmem => ⟨hmem, decide_eq_true heq⟩, And.left⟩
  · dsimp only
    rw [hcount, h.count, h.length_filter hvm]
    omega

/-- The deletion of a value whose lookup behaves. -/
theorem Tracked.delete (h : s.Tracked) (hfits : s.LookupFits handle) :
    ∃ table, s.table.deleteHandle handle = .ok table ∧
      (⟨table, s.live.filter fun entry => entry.1 ≠ handle⟩ : HandleHost).Tracked := by
  obtain ⟨hreaches, hplace⟩ := hfits
  have hlevels := h.levels
  have hlookup := h.lookup hreaches
  unfold NoirCvmHandleTable.deleteHandle
  rw [hlookup]
  cases hslot : slot s.table.levels s.table.tableCode handle with
  | none =>
      refine ⟨s.table, rfl, ?_⟩
      rw [filter_eq_self]
      · exact h
      · rintro entry hentry rfl
        cases hslot.symm.trans ((h.slots entry.1 (h.bound entry hentry) entry.2).mpr hentry)
  | some vm =>
      have hlt : handle < 512 ^ (s.table.levels + 1) :=
        hplace.resolve_right fun hnone => (nomatch hnone.symm.trans hslot)
      obtain ⟨tableCode, hdelete, hedited⟩ :=
        @delete_of_reaches s.table.levels handleTableFuel handle s.table.tableCode (by omega)
          (Nat.lt_of_le_of_lt hlevels (by decide)) h.table hreaches
      rw [Nat.mod_eq_of_lt hlt] at hedited
      refine ⟨{ s.table with tableCode, handleCount := (s.table.handleCount + 2 ^ 64 - 1) % 2 ^ 64 }, ?_,
        h.drop ?_ ((h.slots handle hlt vm).mp hslot) hedited rfl⟩
      · change (noirDeleteHandleUnsafe handle handleTableFuel s.table.tableCode >>= _) = _
        rw [hdelete]
        rfl
      · exact @NoirCvmHandleTable.levels_eq ⟨tableCode, 0, 0⟩ _ hedited.table

end Calls

/-- At first nothing refers to a VM. -/
theorem Start.tracked {s : HandleHost} (h : s.Start) : s.Tracked := by
  obtain ⟨⟨tableCode, maximumHandleValue, handleCount⟩, live⟩ := s
  obtain ⟨rfl, rfl, rfl⟩ := h
  exact ⟨Nat.zero_le 3, TableWord.isTable_empty, List.nodup_nil, fun _ hmem => (nomatch hmem),
    fun _ hmem => (nomatch hmem), fun _ _ _ => iff_of_false (fun hnone => (nomatch hnone)) (fun hmem => (nomatch hmem)),
    rfl⟩

end HandleHost

section Runs

variable {s s' : HandleHost} {call : HandleCall}

open HandleCall HandleHost

/-- A call that fits behaves, and leaves a table whose places are those of the handles. -/
theorem HandleCall.Fits.run (h : s.Tracked) (hfits : call.Fits s) :
    ∃ st handle s', call.run s = .ok (st, handle, s') ∧ s'.Tracked ∧ call.Behaves s := by
  cases call with
  | create vm handle memory =>
      obtain ⟨st, handle', table, hrun, hcases⟩ := h.create hfits
      have hcall : (create vm handle memory).run s = .ok (st, handle',
          ⟨table, if st = .success then s.live ++ [(handle', vm)] else s.live⟩) := by
        unfold HandleCall.run
        dsimp only
        rw [hrun]
        rfl
      refine ⟨st, handle', _, hcall, ?_⟩
      obtain ⟨rfl, htracked⟩ | ⟨hst, htracked, hlevels, hkept⟩ := hcases
      · rw [if_pos rfl] at hcall ⊢
        exact ⟨htracked, _, _, _, hcall, htracked.sound, fun _ => rfl, fun hne => absurd rfl hne⟩
      · rw [if_neg hst] at hcall ⊢
        refine ⟨htracked, _, _, _, hcall, htracked.sound, fun heq => absurd heq hst, fun _ => ⟨rfl, ?_⟩⟩
        intro value vm' hlookup
        -- Only what could be looked up before is asked for.
        have hreaches : Reaches s.table.levels s.table.tableCode value := by
          by_contra hreaches
          cases (h.lookup_fails hreaches).symm.trans hlookup
        have hreaches' := hkept.reaches value hreaches
        rw [← hlevels] at hreaches'
        rw [htracked.lookup hreaches', ← hlookup, h.lookup hreaches, hlevels, hkept.slot]
  | delete handle =>
      obtain ⟨table, hrun, htracked⟩ := h.delete hfits
      have hcall : (delete handle).run s =
          .ok (.success, handle, ⟨table, s.live.filter fun entry => entry.1 ≠ handle⟩) := by
        unfold HandleCall.run
        dsimp only
        rw [hrun]
        rfl
      exact ⟨_, _, _, hcall, htracked, _, _, _, hcall, htracked.sound, rfl⟩

/-- The deletion of a value above the capacity of the table takes the VM of a live handle. -/
theorem HandleCall.Behaves.fits (h : s.Tracked) {handle : Nat} (hbehaves : (delete handle).Behaves s) :
    s.LookupFits handle := by
  obtain ⟨st, handle', s', hrun, hsound, hlive⟩ := hbehaves
  unfold HandleCall.run NoirCvmHandleTable.deleteHandle at hrun
  dsimp only at hrun
  by_cases hreaches : Reaches s.table.levels s.table.tableCode handle
  · refine ⟨hreaches, ?_⟩
    by_contra hplace
    obtain ⟨habove, hsome⟩ := not_or.mp hplace
    obtain ⟨vm, hslot⟩ := Option.ne_none_iff_exists'.mp hsome
    have hlevels := h.levels
    obtain ⟨tableCode, hdelete, hedited⟩ :=
      @delete_of_reaches s.table.levels handleTableFuel handle s.table.tableCode (by omega)
        (Nat.lt_of_le_of_lt hlevels (by decide)) h.table hreaches
    rw [h.lookup hreaches, hslot] at hrun
    change (noirDeleteHandleUnsafe handle handleTableFuel s.table.tableCode >>= fun tableCode => _) >>= _ = _
      at hrun
    rw [hdelete] at hrun
    cases hrun
    have halias := h.alias_mem hslot
    have hkeep : s.live.filter (fun entry => entry.1 ≠ handle) = s.live := by
      refine filter_eq_self fun entry hentry heq => habove ?_
      exact heq ▸ h.bound entry hentry
    rw [hkeep] at hsound
    have hrefers := hsound.refers _ halias
    have hbelow := h.bound _ halias
    have hfound : s.table.levels < handleTableFuel := Nat.lt_of_le_of_lt hlevels (by decide)
    have hlookup := @lookup_of_reaches s.table.levels handleTableFuel
      (handle % 512 ^ (s.table.levels + 1)) tableCode (by omega) hfound hedited.table
      (hedited.reaches _ (h.reached _ halias))
    have hnone := hedited.slot (handle % 512 ^ (s.table.levels + 1))
    rw [Nat.mod_eq_of_lt hbelow, if_pos rfl] at hnone
    rw [hnone] at hlookup
    cases hlookup.symm.trans hrefers
  · rw [h.lookup_fails hreaches] at hrun
    cases hrun

theorem HandlesReachable.tracked (h : HandlesReachable (fun s call => call.Fits s) s) : s.Tracked := by
  refine h.invariant (fun _ hstart => hstart.tracked) fun s s' _ htracked htaken => ?_
  obtain ⟨call, hfits, st, handle, hrun⟩ := htaken
  obtain ⟨_, _, _, hrun', htracked', -⟩ := hfits.run htracked
  cases hrun.symm.trans hrun'
  exact htracked'

/-- A table with the handle of one VM. -/
def oneHandle : HandleHost where
  table := ⟨.table 0 (Function.update (fun _ => .null) 0 (.object 1)), 0, 1⟩
  live := [(0, 1)]

theorem create_of_empty (vm fuel handle : Nat) (memory : Allocator) :
    noirCreateHandleUnsafe vm (fuel + 1) (.empty 0) handle memory =
      .ok (.success, 0, .table 0 (Function.update (fun _ => .null) 0 (.object vm)), memory) := by
  have hrange : List.range handleTableCapacity = 0 :: (List.range 511).map Nat.succ :=
    List.range_succ_eq_map
  have hfind : ((List.range handleTableCapacity).find? fun _ => TableWord.null.isNull) = some 0 := by
    rw [hrange]
    exact List.find?_cons_of_pos rfl
  unfold noirCreateHandleUnsafe TableWord.empty
  dsimp only
  rw [if_neg (not_not.mpr rfl), hfind]
  rfl

/-- An allocator that always has a page. -/
def plentyMemory : Allocator := ⟨fun _ => true, fun _ => none⟩

theorem oneHandle_reachable {condition : HandleHost → HandleCall → Prop}
    (hcondition : condition ⟨⟨.empty 0, 0, 0⟩, []⟩ (create 1 0 plentyMemory)) :
    HandlesReachable condition oneHandle := by
  refine .step (.start ⟨rfl, rfl, rfl⟩) ⟨_, hcondition, .success, 0, ?_⟩
  unfold HandleCall.run NoirCvmHandleTable.noirCreateHandle NoirCvmHandleTable.createOrIncrease
  dsimp only
  rw [show handleTableFuel = 4095 + 1 from rfl, create_of_empty]
  rfl

end Runs

end NoirVisor
