import NoirVisor.Acpi.Tables
import NoirVisor.Chain

/-!
# Discovery of the DMA remapping hardware

A DMAR table has structures one after another, each with its type and its length. The first pass over
them counts the units, and the third one fills a descriptor for each (`vt_core/vt_iommu.c`). Lengths are
taken from the table as they are.
-/

namespace NoirVisor

/-- The offset of `remapping_structures`. -/
def dmarHeaderSize : Nat := 48

/-- `RAMD`, with the first character in the lowest byte. -/
def dmarSignature : BitVec 32 := 0x52414D44

def intelIommuAcpiTypeDrhd : BitVec 64 := 0

/-- The sizes of the common header and of a DRHD. -/
def unitHeaderSize : Nat := 4
def drhdSize : Nat := 16

/-- What a pass uses of a DRHD. -/
structure DmarUnit where
  baseAddress : BitVec 64
  exponential : Nat
deriving DecidableEq

/-- What becomes of a unit: it is done with, its registers are read without a mapping, or an allocation
fails. -/
inductive UnitVisit where
  | next
  | fault
  | failed
deriving DecidableEq

inductive DmarWalk where
  | done (units : List DmarUnit)
  | failed (units : List DmarUnit)
  | fault
  | outside
  | running

/-- The loop goes on with the next table if a walk is done. -/
def DmarWalk.andThen (next : List DmarUnit → DmarWalk) : DmarWalk → DmarWalk
  | .done units => next units
  | ended => ended

namespace AcpiSystem

variable (sys : AcpiSystem) (table : AcpiTable)

def dmarLength : Nat := (Words.load sys.physical (table.phys + 4) 4).toNat

/-- `len_limit` -/
@[irreducible] def lenLimit : Nat := (sys.dmarLength table + 2 ^ 32 - dmarHeaderSize) % 2 ^ 32

def structureType (acc : Nat) : BitVec 64 :=
  Words.load sys.physical (table.phys + dmarHeaderSize + acc) 2

def structureLength (acc : Nat) : Nat :=
  (Words.load sys.physical (table.phys + dmarHeaderSize + acc + 2) 2).toNat

def unit (acc : Nat) : DmarUnit where
  baseAddress := Words.load sys.physical (table.phys + dmarHeaderSize + acc + 8) 8
  exponential := (Words.load sys.physical (table.phys + dmarHeaderSize + acc + 5) 1).toNat % 16

/-- `acc_len` is an `u32`. -/
def nextOffset (acc : Nat) : Nat := (acc + sys.structureLength table acc) % 2 ^ 32

/-- The walk over the structures of a table, from an offset and with the units before it. -/
def walk (visit : Nat → DmarUnit → UnitVisit) : Nat → Nat → List DmarUnit → DmarWalk
  | 0, _, _ => .running
  | fuel + 1, acc, units =>
      if acc < sys.lenLimit table then
        if sys.dmarLength table < dmarHeaderSize + acc + unitHeaderSize then .outside
        else if sys.structureType table acc = intelIommuAcpiTypeDrhd then
          if sys.dmarLength table < dmarHeaderSize + acc + drhdSize then .outside
          else
            match visit units.length (sys.unit table acc) with
            | .next => walk visit fuel (sys.nextOffset table acc) (units ++ [sys.unit table acc])
            | .fault => .fault
            | .failed => .failed (units ++ [sys.unit table acc])
        else walk visit fuel (sys.nextOffset table acc) units
      else .done units

/-- The loop over the tables. -/
def pass (visit : Nat → DmarUnit → UnitVisit) :
    Nat → Option AcpiTable → List DmarUnit → DmarWalk
  | 0, _, _ => .running
  | fuel + 1, prev, units =>
      match sys.nvcAcpiSearchTable dmarSignature prev with
      | .found table =>
          (sys.walk table visit fuel 0 units).andThen (pass visit fuel (some table))
      | .noSuchTable => .done units
      | .fault => .fault

/-- The features are read without a look at the mapping, and the units counted. -/
def firstPass (maps : DmarUnit → Bool) : Nat → DmarWalk := fun fuel =>
  sys.pass (fun _ unit => if maps unit then .next else .fault) fuel none []

/-- The descriptor at this index is filled, as far as there is memory. -/
def thirdPass (sets : Nat → DmarUnit → Bool) : Nat → DmarWalk := fun fuel =>
  sys.pass (fun i unit => if sets i unit then .next else .failed) fuel none []

/-- The first pass ends, and what the third one visits is what the first one counted, as far as it
comes. -/
def Discovers (maps : DmarUnit → Bool) (sets : Nat → DmarUnit → Bool) : Prop :=
  ∃ fuel units, sys.firstPass maps fuel = .done units ∧
    (sys.thirdPass sets fuel = .done units ∨
      ∃ visited, sys.thirdPass sets fuel = .failed visited ∧ visited <+: units)

/-- The place of a structure, if the walk comes to it. -/
def within (acc : Nat) : Option Nat := if acc < sys.lenLimit table then some acc else none

def link (acc : Nat) : Option Nat := sys.within table (sys.nextOffset table acc)

/-- A structure is inside of the table, and the registers of a unit can be mapped. -/
structure Holds (maps : DmarUnit → Bool) (acc : Nat) : Prop where
  header : dmarHeaderSize + acc + unitHeaderSize ≤ sys.dmarLength table
  drhd : sys.structureType table acc = intelIommuAcpiTypeDrhd →
    dmarHeaderSize + acc + drhdSize ≤ sys.dmarLength table ∧ maps (sys.unit table acc) = true

/-- Every structure that the lengths lead to is inside, and they lead to none of them again. -/
structure Linked (maps : DmarUnit → Bool) : Prop where
  holds : ∀ n acc, Chain.visits (sys.link table) (sys.within table 0) n = some acc →
    sys.Holds table maps acc
  acyclic : Chain.Acyclic (sys.link table) (sys.within table 0)

/-- The first table of a signature. -/
def firstTable (signature : BitVec 32) : Option AcpiTable :=
  (sys.nvcAcpiInitialize.filterMap id).find? fun table => sys.signature table = signature

/-- The first DMAR table is found, and its structures are linked. -/
structure Walkable (maps : DmarUnit → Bool) : Prop where
  shielded : sys.ShieldedIn dmarSignature sys.nvcAcpiInitialize
  linked : ∀ table, sys.firstTable dmarSignature = some table → sys.Linked table maps

section Walk

variable {sys} {table : AcpiTable} {visit : Nat → DmarUnit → UnitVisit} {maps : DmarUnit → Bool}
  {sets : Nat → DmarUnit → Bool} {fuel acc : Nat} {units units' : List DmarUnit}

/-- What one structure of a walk comes to. -/
theorem walk_succ (hacc : acc < sys.lenLimit table) (hholds : sys.Holds table maps acc) :
    sys.walk table visit (fuel + 1) acc units =
      if sys.structureType table acc = intelIommuAcpiTypeDrhd then
        match visit units.length (sys.unit table acc) with
        | .next => sys.walk table visit fuel (sys.nextOffset table acc) (units ++ [sys.unit table acc])
        | .fault => .fault
        | .failed => .failed (units ++ [sys.unit table acc])
      else sys.walk table visit fuel (sys.nextOffset table acc) units := by
  rw [walk, if_pos hacc, if_neg (Nat.not_lt.mpr hholds.header)]
  by_cases htype : sys.structureType table acc = intelIommuAcpiTypeDrhd
  · rw [if_pos htype, if_pos htype, if_neg (Nat.not_lt.mpr (hholds.drhd htype).1)]
  · rw [if_neg htype, if_neg htype]

/-- A walk of the first pass that ends has come to structures that hold. -/
theorem walk_first_done
    (h : sys.walk table (fun _ unit => if maps unit then .next else .fault) fuel acc units =
      .done units') (hacc : acc < sys.lenLimit table) :
    sys.Holds table maps acc ∧ ∃ fuel' units'', fuel = fuel' + 1 ∧
      sys.walk table (fun _ unit => if maps unit then .next else .fault) fuel'
        (sys.nextOffset table acc) units'' = .done units' := by
  cases fuel with
  | zero => cases h
  | succ fuel =>
      rw [walk, if_pos hacc] at h
      split at h
      · cases h
      · next hheader =>
          split at h
          · next htype =>
              split at h
              · cases h
              · next hdrhd =>
                  cases hmaps : maps (sys.unit table acc) with
                  | true =>
                      rw [hmaps, if_pos rfl] at h
                      exact ⟨⟨Nat.not_lt.mp hheader, fun _ => ⟨Nat.not_lt.mp hdrhd, hmaps⟩⟩, fuel,
                        _, rfl, h⟩
                  | false =>
                      rw [hmaps, if_neg Bool.false_ne_true] at h
                      cases h
          · next htype =>
              exact ⟨⟨Nat.not_lt.mp hheader, fun hdrhd => absurd hdrhd htype⟩, fuel, _, rfl, h⟩

theorem linked_of_done
    (h : sys.walk table (fun _ unit => if maps unit then .next else .fault) fuel acc units =
      .done units') :
    (∀ n b, Chain.visits (sys.link table) (sys.within table acc) n = some b →
      sys.Holds table maps b) ∧ Chain.Ends (sys.link table) (sys.within table acc) := by
  induction fuel generalizing acc units with
  | zero => cases h
  | succ fuel ih =>
      by_cases hacc : acc < sys.lenLimit table
      · obtain ⟨hholds, fuel', units'', hfuel, hrest⟩ := walk_first_done h hacc
        obtain rfl := Nat.succ.inj hfuel
        obtain ⟨hlater, k, hends⟩ := ih hrest
        rw [within, if_pos hacc]
        refine ⟨fun n b hn => ?_, k + 1, ?_⟩
        · cases n with
          | zero =>
              obtain rfl := Option.some.inj hn
              exact hholds
          | succ n => exact hlater n b (Chain.visits_succ.symm.trans hn)
        · exact Chain.visits_succ.trans hends
      · rw [within, if_neg hacc]
        exact ⟨fun n b hn => (nomatch Chain.visits_none.symm.trans hn), 0, rfl⟩

theorem walk_of_linked {k : Nat} (units : List DmarUnit)
    (hholds : ∀ n b, Chain.visits (sys.link table) (sys.within table acc) n = some b →
      sys.Holds table maps b)
    (hends : Chain.visits (sys.link table) (sys.within table acc) k = none) :
    ∃ units', sys.walk table (fun _ unit => if maps unit then .next else .fault) (k + 1) acc units =
      .done units' := by
  induction k generalizing acc units with
  | zero =>
      have hacc : ¬acc < sys.lenLimit table := fun hacc => by
        rw [Chain.visits, within, if_pos hacc] at hends
        cases hends
      exact ⟨units, by rw [walk, if_neg hacc]⟩
  | succ k ih =>
      by_cases hacc : acc < sys.lenLimit table
      · rw [within, if_pos hacc] at hholds hends
        have hhere : sys.Holds table maps acc := hholds 0 acc rfl
        have hlater : ∀ n b, Chain.visits (sys.link table)
            (sys.within table (sys.nextOffset table acc)) n = some b → sys.Holds table maps b :=
          fun n b hn => hholds (n + 1) b (Chain.visits_succ.trans hn)
        have hlast : Chain.visits (sys.link table) (sys.within table (sys.nextOffset table acc)) k =
            none := Chain.visits_succ.symm.trans hends
        rw [walk_succ hacc hhere]
        split
        · next htype =>
            rw [(hhere.drhd htype).2, if_pos rfl]
            exact ih _ hlater hlast
        · exact ih units hlater hlast
      · exact ⟨units, by rw [walk, if_neg hacc]⟩

/-- Units are only added at the end. -/
theorem units_isPrefix (h : sys.walk table visit fuel acc units = .done units') : units <+: units' := by
  induction fuel generalizing acc units with
  | zero => cases h
  | succ fuel ih =>
      rw [walk] at h
      split at h
      · split at h
        · cases h
        · split at h
          · split at h
            · cases h
            · split at h
              · exact (List.prefix_append units _).trans (ih h)
              · cases h
              · cases h
          · exact ih h
      · exact DmarWalk.done.inj h ▸ List.prefix_rfl

/-- The third pass visits the same units, until there is no memory. -/
theorem walk_third
    (h : sys.walk table (fun _ unit => if maps unit then .next else .fault) fuel acc units =
      .done units') :
    sys.walk table (fun i unit => if sets i unit then .next else .failed) fuel acc units =
        .done units' ∨
      ∃ visited, sys.walk table (fun i unit => if sets i unit then .next else .failed) fuel acc units =
        .failed visited ∧ visited <+: units' := by
  induction fuel generalizing acc units with
  | zero => cases h
  | succ fuel ih =>
      by_cases hacc : acc < sys.lenLimit table
      · obtain ⟨hholds, -⟩ := walk_first_done h hacc
        rw [walk_succ hacc hholds] at h ⊢
        split at h
        · next htype =>
            rw [(hholds.drhd htype).2, if_pos rfl] at h
            rw [if_pos htype]
            cases hsets : sets units.length (sys.unit table acc) with
            | true => exact ih h
            | false => exact .inr ⟨_, rfl, units_isPrefix h⟩
        · next htype =>
            rw [if_neg htype]
            exact ih h
      · rw [walk, if_neg hacc] at h ⊢
        exact .inl h

end Walk

section Pass

variable {sys} {signature : BitVec 32} {maps : DmarUnit → Bool} {sets : Nat → DmarUnit → Bool}
  {visit : Nat → DmarUnit → UnitVisit} {fuel : Nat} {table : AcpiTable} {units : List DmarUnit}
  {entries : List (Option AcpiTable)}

/-- Entries that are not mapped are not met, and the first table of the signature is found. -/
theorem searchLoop_of_shielded (h : sys.ShieldedIn signature entries) :
    sys.searchLoop signature true entries =
      ((entries.filterMap id).find? fun table => sys.signature table = signature).elim .noSuchTable
        .found := by
  induction entries with
  | nil => rfl
  | cons entry entries ih =>
      cases entry with
      | none =>
          obtain ⟨j, hj, -⟩ := h 0 rfl
          exact absurd hj (Nat.not_lt_zero j)
      | some first =>
          rw [List.filterMap_cons, id_eq, searchLoop]
          by_cases hsame : sys.signature first = signature
          · rw [if_pos hsame, if_pos rfl, List.find?_cons_of_pos (by simpa using hsame)]
            rfl
          · rw [if_neg hsame, List.find?_cons_of_neg (by simpa using hsame)]
            exact ih ((shieldedIn_cons_of_ne hsame).mp h)

theorem search_none (h : sys.ShieldedIn signature sys.nvcAcpiInitialize) :
    sys.nvcAcpiSearchTable signature none =
      (sys.firstTable signature).elim .noSuchTable .found :=
  searchLoop_of_shielded h

theorem pass_found {prev : Option AcpiTable}
    (h : sys.nvcAcpiSearchTable dmarSignature prev = .found table) :
    sys.pass visit (fuel + 1) prev units =
      (sys.walk table visit fuel 0 units).andThen (sys.pass visit fuel (some table)) := by
  rw [pass, h]

/-- A pass ends with the first table. -/
theorem pass_of_found (h : sys.ShieldedIn dmarSignature sys.nvcAcpiInitialize)
    (hfirst : sys.firstTable dmarSignature = some table) :
    sys.pass visit (fuel + 2) none [] = sys.walk table visit (fuel + 1) 0 [] := by
  have hsearch := search_none h
  rw [hfirst, Option.elim_some] at hsearch
  rw [pass_found hsearch]
  generalize sys.walk table visit (fuel + 1) 0 [] = walked
  cases walked with
  | done units => rw [DmarWalk.andThen, pass, search_some h]
  | _ => rfl

theorem pass_of_none (h : sys.ShieldedIn dmarSignature sys.nvcAcpiInitialize)
    (hfirst : sys.firstTable dmarSignature = none) :
    sys.pass visit (fuel + 1) none [] = .done [] := by
  rw [pass, search_none h, hfirst, Option.elim_none]

/-- A pass that ends has met no entry without a mapping. -/
theorem shieldedIn_of_done (h : sys.pass visit fuel none [] = .done units) :
    sys.ShieldedIn dmarSignature sys.nvcAcpiInitialize := by
  have hsearch : sys.nvcAcpiSearchTable dmarSignature none ≠ .fault := by
    intro hfault
    cases fuel with
    | zero => cases h
    | succ fuel =>
        rw [pass, hfault] at h
        cases h
  exact searchLoop_ne_fault_iff.mp hsearch

/-- The first pass comes to the end of the first table. -/
theorem walk_of_pass (h : sys.pass visit fuel none [] = .done units)
    (hfirst : sys.firstTable dmarSignature = some table) :
    ∃ fuel' units', sys.walk table visit fuel' 0 [] = .done units' := by
  cases fuel with
  | zero => cases h
  | succ fuel =>
      have hsearch := search_none (shieldedIn_of_done h)
      rw [hfirst, Option.elim_some] at hsearch
      rw [pass_found hsearch] at h
      refine ⟨fuel, ?_⟩
      generalize sys.walk table visit fuel 0 [] = walked at h ⊢
      cases walked with
      | done units' => exact ⟨units', rfl⟩
      | _ => cases h

theorem Discovers.walkable (h : sys.Discovers maps sets) : sys.Walkable maps := by
  obtain ⟨fuel, units, hdone, -⟩ := h
  refine ⟨shieldedIn_of_done hdone, fun table hfirst => ?_⟩
  obtain ⟨fuel', units', hwalk⟩ := walk_of_pass hdone hfirst
  obtain ⟨hholds, hends⟩ := linked_of_done hwalk
  exact ⟨hholds, hends.acyclic⟩

theorem lt_of_within {a b : Nat} (h : sys.within table b = some a) : a < sys.lenLimit table := by
  unfold within at h
  split at h
  · next hlt =>
      obtain rfl := Option.some.inj h
      exact hlt
  · cases h

theorem lt_of_visits {n a : Nat}
    (h : Chain.visits (sys.link table) (sys.within table 0) n = some a) : a < sys.lenLimit table := by
  cases n with
  | zero =>
      rw [Chain.visits] at h
      exact lt_of_within h
  | succ n =>
      rw [Chain.visits, Option.bind_eq_some_iff] at h
      obtain ⟨b, -, hb⟩ := h
      exact lt_of_within hb

/-- The places of a table are finitely many. -/
theorem Linked.ends (h : sys.Linked table maps) :
    Chain.Ends (sys.link table) (sys.within table 0) :=
  Chain.Acyclic.ends (Set.finite_lt_nat (sys.lenLimit table))
    (fun _ _ ha => lt_of_visits ha) h.acyclic

theorem Walkable.discovers (h : sys.Walkable maps) : sys.Discovers maps sets := by
  cases hfirst : sys.firstTable dmarSignature with
  | none => exact ⟨1, [], pass_of_none h.shielded hfirst, .inl (pass_of_none h.shielded hfirst)⟩
  | some table =>
      have hlinked := h.linked table hfirst
      obtain ⟨k, hends⟩ := hlinked.ends
      obtain ⟨units, hdone⟩ := walk_of_linked [] hlinked.holds hends
      refine ⟨k + 2, units, (pass_of_found h.shielded hfirst).trans hdone, ?_⟩
      unfold thirdPass
      rw [pass_of_found h.shielded hfirst]
      exact walk_third hdone

theorem discovers_iff : sys.Discovers maps sets ↔ sys.Walkable maps :=
  ⟨Discovers.walkable, Walkable.discovers⟩

end Pass

/-- Every table of a signature is returned, and the units are found, exactly if the tables can be searched
and the first one has its structures linked. -/
theorem discovery_iff (signature : BitVec 32) (maps : DmarUnit → Bool) (sets : Nat → DmarUnit → Bool) :
    sys.Enumerates signature ∧ sys.Discovers maps sets ↔
      sys.Searchable signature ∧ sys.Walkable maps :=
  and_congr enumerates_iff discovers_iff

/-- A root table with two tables of the signature `SSDT`. -/
def twoSsdts : AcpiSystem where
  root := {
    extended := true
    length := 52
    memory := fun i => if i = 37 then 0x10 else if i = 45 then 0x20 else 0
    header_le := by decide
    length_lt := by decide
  }
  physical := fun i =>
    match i % 0x1000 with
    | 0 => 0x53
    | 1 => 0x53
    | 2 => 0x44
    | 3 => 0x54
    | _ => 0
  stack := fun _ => 0
  headMaps := fun _ => true
  tableMaps := fun _ => true

def ssdtSignature : BitVec 32 := 0x54445353

theorem twoSsdts_tables :
    twoSsdts.nvcAcpiInitialize = [some ⟨0, 0x1000⟩, some ⟨1, 0x2000⟩] := by decide

/-- The second one is never returned. -/
theorem not_forall_discovery : ¬∀ (sys : AcpiSystem) (signature : BitVec 32) (maps : DmarUnit → Bool)
    (sets : Nat → DmarUnit → Bool), sys.Enumerates signature ∧ sys.Discovers maps sets := by
  intro h
  have hsearchable := ((discovery_iff _ _ _ _).mp
    (h twoSsdts ssdtSignature (fun _ => true) fun _ _ => true)).1
  have hfirst : twoSsdts.Installed ssdtSignature ⟨0, 0x1000⟩ :=
    ⟨by rw [twoSsdts_tables]; decide, by decide⟩
  have hsecond : twoSsdts.Installed ssdtSignature ⟨1, 0x2000⟩ :=
    ⟨by rw [twoSsdts_tables]; decide, by decide⟩
  exact absurd (hsearchable.single _ _ hfirst hsecond) (by decide)

end AcpiSystem

end NoirVisor
