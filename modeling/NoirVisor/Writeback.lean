import Mathlib.Data.Bool.Basic

/-!
# Registers cached in front of a control block

A control block holds registers by group, and a cache in front of it holds a copy of each. A group is
valid while the block has the newest values; a write to the cache invalidates the group, and a load
writes invalid groups back. Some registers are never in the block, and some only ever there.

Everything below is about one question: with a register file in mind, does every register have its
value where the protocol looks for it.
-/

namespace Writeback

variable {ρ γ ν : Type}

/-- Where the newest value of a register is: in the cache, in the block, or told by a group. -/
inductive Home (γ : Type) where
  | cache
  | block
  | group (g : γ)
deriving DecidableEq

/-- `encode` is what the block makes of a value written to it, and `decode` reads it back. -/
structure Protocol (ρ γ ν : Type) where
  home : ρ → Home γ
  loads : ρ → Bool
  loadsGroup : γ → Bool
  dumps : ρ → Bool
  encode : ρ → ν → ν
  decode : ρ → ν → ν

structure State (ρ γ ν : Type) where
  cache : ρ → ν
  block : ρ → ν
  valid : γ → Bool

/-- A change of the cache: the registers written, with their values, and the groups invalidated. -/
structure Edit (ρ γ ν : Type) where
  value : ρ → Option ν
  invalidates : γ → Bool

/-- A register file after a change. -/
def Edit.write (e : Edit ρ γ ν) (file : ρ → ν) : ρ → ν := fun r => (e.value r).getD (file r)

/-- The last value that a sequence of changes writes to a register. -/
def lastWrite (es : List (Edit ρ γ ν)) (r : ρ) : Option ν := es.reverse.findSome? (·.value r)

theorem writes_eq {es : List (Edit ρ γ ν)} {file : ρ → ν} {r : ρ} :
    es.foldl (fun file e => e.write file) file r = (lastWrite es r).getD (file r) := by
  induction es generalizing file with
  | nil => rfl
  | cons e es ih =>
      rw [List.foldl_cons, ih]
      unfold lastWrite
      rw [List.reverse_cons, List.findSome?_append]
      cases List.findSome? (·.value r) es.reverse with
      | some v => rfl
      | none => simp [Edit.write]

theorem lastWrite_cons (e : Edit ρ γ ν) (es : List (Edit ρ γ ν)) (r : ρ) :
    lastWrite (e :: es) r = (lastWrite es r).or (e.value r) := by
  unfold lastWrite
  rw [List.reverse_cons, List.findSome?_append, List.findSome?_singleton]

theorem lastWrite_eq_none {es : List (Edit ρ γ ν)} {r : ρ} (h : ∀ e ∈ es, e.value r = none) :
    lastWrite es r = none :=
  List.findSome?_eq_none_iff.mpr fun e hmem => h e (List.mem_reverse.mp hmem)

/-- The value of the last change that writes a register. -/
theorem lastWrite_eq_some {es : List (Edit ρ γ ν)} {r : ρ} {v : ν} {j : Nat} {e : Edit ρ γ ν}
    (hj : es[j]? = some e) (hvalue : e.value r = some v)
    (hlater : ∀ k e', j < k → es[k]? = some e' → e'.value r = none) : lastWrite es r = some v := by
  induction es generalizing j with
  | nil => cases hj
  | cons first es ih =>
      rw [lastWrite_cons]
      cases j with
      | zero =>
          obtain rfl := Option.some.inj hj
          have hnone : lastWrite es r = none := by
            refine lastWrite_eq_none fun e' hmem => ?_
            obtain ⟨k, hk⟩ := List.getElem?_of_mem hmem
            exact hlater (k + 1) e' (Nat.succ_pos k) hk
          rw [hnone, hvalue]
          rfl
      | succ j =>
          rw [ih hj fun k e' hk => hlater (k + 1) e' (Nat.succ_lt_succ hk)]
          rfl

/-- The state after a sequence of changes. -/
def State.edited (s : State ρ γ ν) (es : List (Edit ρ γ ν)) : State ρ γ ν where
  cache r := (lastWrite es r).getD (s.cache r)
  block := s.block
  valid g := s.valid g && !es.any (·.invalidates g)

namespace Protocol

variable (protocol : Protocol ρ γ ν)

def inBlock (valid : γ → Bool) (r : ρ) : Bool :=
  match protocol.home r with
  | .cache => false
  | .block => true
  | .group g => valid g

/-- A value as it is where the register is in use. -/
def stored (r : ρ) (value : ν) : ν :=
  match protocol.home r with
  | .cache => value
  | _ => protocol.encode r value

def load (s : State ρ γ ν) : State ρ γ ν where
  cache := s.cache
  block r := if protocol.loads r && !protocol.inBlock s.valid r then protocol.encode r (s.cache r)
    else s.block r
  valid g := s.valid g || protocol.loadsGroup g

/-- A register as it is in use after the next load. -/
def given (s : State ρ γ ν) (r : ρ) : ν :=
  match protocol.home r with
  | .cache => s.cache r
  | _ => (protocol.load s).block r

/-- The cache after a dump that reads this block. -/
def dump (read : ρ → ν) (s : State ρ γ ν) : State ρ γ ν where
  cache r := if protocol.dumps r && protocol.inBlock s.valid r then protocol.decode r (read r)
    else s.cache r
  block := s.block
  valid := s.valid

end Protocol

/-- A register file, each register as it is in use and as the cache shows it. -/
structure Image (ρ ν : Type) where
  held : ρ → ν
  seen : ρ → ν

/-- The register file after a sequence of changes. -/
def Image.edited (protocol : Protocol ρ γ ν) (es : List (Edit ρ γ ν)) (i : Image ρ ν) : Image ρ ν where
  held r := (lastWrite es r).elim (i.held r) (protocol.stored r)
  seen r := (lastWrite es r).getD (i.seen r)

/-- A state stands for a register file. -/
def Protocol.Stands (protocol : Protocol ρ γ ν) (i : Image ρ ν) (s : State ρ γ ν) : Prop :=
  ∀ r, if protocol.inBlock s.valid r then
      s.block r = i.held r ∧ protocol.decode r (i.held r) = i.seen r
    else s.cache r = i.seen r ∧ protocol.stored r (i.seen r) = i.held r

/-- What a sequence of changes must find for no register to lose its value: one that it writes is
looked for in the cache afterwards, and one that it does not write is not stale in the cache when its
group is invalidated. -/
structure Keeps (protocol : Protocol ρ γ ν) (es : List (Edit ρ γ ν)) (s : State ρ γ ν) : Prop where
  written : ∀ r value, lastWrite es r = some value →
    protocol.inBlock (s.edited es).valid r = true →
      s.block r = protocol.encode r value ∧ protocol.decode r (s.block r) = value
  kept : ∀ r, lastWrite es r = none → protocol.inBlock s.valid r = true →
    protocol.inBlock (s.edited es).valid r = false →
      s.cache r = protocol.decode r (s.block r) ∧ protocol.encode r (s.cache r) = s.block r

variable {protocol : Protocol ρ γ ν} {s : State ρ γ ν} {i : Image ρ ν} {es : List (Edit ρ γ ν)} {r : ρ}
  {read : ρ → ν}

/-- A register that is in the block is not loaded. -/
theorem Protocol.given_of_inBlock (h : protocol.inBlock s.valid r = true) :
    protocol.given s r = s.block r := by
  unfold Protocol.given Protocol.load
  cases hhome : protocol.home r with
  | cache =>
      rw [Protocol.inBlock, hhome] at h
      exact absurd h Bool.false_ne_true
  | block => simp [h]
  | group g => simp [h]

theorem Protocol.inBlock_of_valid {valid : γ → Bool} (hhome : protocol.home r ≠ .cache)
    (hvalid : ∀ g, protocol.home r = .group g → valid g = true) : protocol.inBlock valid r = true := by
  unfold Protocol.inBlock
  cases h : protocol.home r with
  | cache => exact absurd h hhome
  | block => rfl
  | group g => exact hvalid g h

theorem Protocol.given_of_cache (h : protocol.home r = .cache) : protocol.given s r = s.cache r := by
  rw [Protocol.given, h]

theorem Protocol.given_of_not_inBlock (h : protocol.inBlock s.valid r = false)
    (hloads : protocol.home r ≠ .cache → protocol.loads r = true) :
    protocol.given s r = protocol.stored r (s.cache r) := by
  unfold Protocol.given Protocol.stored Protocol.load
  cases hhome : protocol.home r with
  | cache => rfl
  | block => simp [h, hloads (by simp [hhome])]
  | group g => simp [h, hloads (by simp [hhome])]

theorem Protocol.Stands.of_inBlock (h : protocol.Stands i s) (hin : protocol.inBlock s.valid r = true) :
    s.block r = i.held r ∧ protocol.decode r (i.held r) = i.seen r := by
  have hr := h r
  rwa [if_pos hin] at hr

theorem Protocol.Stands.of_not_inBlock (h : protocol.Stands i s)
    (hin : protocol.inBlock s.valid r = false) :
    s.cache r = i.seen r ∧ protocol.stored r (i.seen r) = i.held r := by
  have hr := h r
  rwa [hin, if_neg Bool.false_ne_true] at hr

theorem stored_of_inBlock {valid : γ → Bool} (h : protocol.inBlock valid r = true) (value : ν) :
    protocol.stored r value = protocol.encode r value := by
  unfold Protocol.inBlock at h
  unfold Protocol.stored
  cases hhome : protocol.home r with
  | cache =>
      rw [hhome] at h
      exact absurd h Bool.false_ne_true
  | block => rfl
  | group g => rfl

theorem inBlock_of_edited (h : protocol.inBlock (s.edited es).valid r = true) :
    protocol.inBlock s.valid r = true := by
  unfold Protocol.inBlock at *
  cases hhome : protocol.home r with
  | cache =>
      rw [hhome] at h
      exact absurd h Bool.false_ne_true
  | block => rfl
  | group g =>
      rw [hhome] at h
      exact (Bool.and_eq_true_iff.mp h).1

/-- Changes that lose nothing keep a state standing for what they are asked to make of the file. -/
theorem Protocol.Stands.edited (h : protocol.Stands i s) (hkeeps : Keeps protocol es s) :
    protocol.Stands (i.edited protocol es) (s.edited es) := by
  intro r
  cases hwrite : lastWrite es r with
  | some value =>
      have hheld : (i.edited protocol es).held r = protocol.stored r value := by
        simp [Image.edited, hwrite]
      have hseen : (i.edited protocol es).seen r = value := by
        simp [Image.edited, hwrite]
      have hcache : (s.edited es).cache r = value := by
        simp [State.edited, hwrite]
      rw [hheld, hseen, hcache]
      split
      · next hin =>
          obtain ⟨hblock, hdecode⟩ := hkeeps.written r value hwrite hin
          rw [stored_of_inBlock hin]
          exact ⟨hblock, hblock ▸ hdecode⟩
      · exact ⟨rfl, rfl⟩
  | none =>
      have hheld : (i.edited protocol es).held r = i.held r := by
        simp [Image.edited, hwrite]
      have hseen : (i.edited protocol es).seen r = i.seen r := by
        simp [Image.edited, hwrite]
      have hcache : (s.edited es).cache r = s.cache r := by
        simp [State.edited, hwrite]
      rw [hheld, hseen, hcache]
      split
      · next hin => exact h.of_inBlock (inBlock_of_edited hin)
      · next hin =>
          have hin : protocol.inBlock (s.edited es).valid r = false := Bool.eq_false_iff.mpr hin
          cases hbefore : protocol.inBlock s.valid r with
          | false => exact h.of_not_inBlock hbefore
          | true =>
              obtain ⟨hblock, hseen⟩ := h.of_inBlock hbefore
              obtain ⟨hcache, hencode⟩ := hkeeps.kept r hwrite hbefore hin
              have hcache : s.cache r = i.seen r := by rw [hcache, hblock, hseen]
              exact ⟨hcache, by rw [stored_of_inBlock hbefore, ← hcache, hencode, hblock]⟩

/-- After a load the block has every register that is ever in it, if what is not loaded is there. -/
theorem Protocol.Stands.block_load (h : protocol.Stands i s) (hhome : protocol.home r ≠ .cache)
    (hloads : protocol.inBlock s.valid r = false → protocol.loads r = false → s.block r = i.held r) :
    (protocol.load s).block r = i.held r := by
  unfold Protocol.load
  dsimp only
  cases hin : protocol.inBlock s.valid r with
  | true =>
      rw [Bool.not_true, Bool.and_false, if_neg Bool.false_ne_true]
      exact (h.of_inBlock hin).1
  | false =>
      cases hload : protocol.loads r with
      | false => exact hloads hin hload
      | true =>
          obtain ⟨hcache, hstored⟩ := h.of_not_inBlock hin
          have hencode : protocol.stored r (s.cache r) = protocol.encode r (s.cache r) := by
            unfold Protocol.stored
            split
            · next hcache => exact absurd hcache hhome
            · rfl
          rw [Bool.not_false, Bool.and_true, if_pos rfl, ← hencode, hcache, hstored]

theorem Protocol.Stands.dump (h : protocol.Stands i s) : protocol.Stands i (protocol.dump read s) := by
  intro r
  have hr := h r
  unfold Protocol.dump
  dsimp only
  split
  · next hin => rwa [if_pos hin] at hr
  · next hin =>
      rw [Bool.eq_false_iff.mpr hin, Bool.and_false, if_neg Bool.false_ne_true]
      rwa [if_neg hin] at hr

theorem dump_cache_of_not_dumps (h : protocol.dumps r = false) :
    (protocol.dump read s).cache r = s.cache r := by
  simp [Protocol.dump, h]

/-- A dump shows a register if it reads the right value, or if the cache has it already. -/
theorem Protocol.Stands.cache_dump (h : protocol.Stands i s) :
    (protocol.dump read s).cache r = i.seen r ↔
      (protocol.inBlock s.valid r = true →
        if protocol.dumps r then protocol.decode r (read r) = protocol.decode r (s.block r)
        else s.cache r = protocol.decode r (s.block r)) := by
  unfold Protocol.dump
  dsimp only
  cases hin : protocol.inBlock s.valid r with
  | false => simpa using (h.of_not_inBlock hin).1
  | true =>
      obtain ⟨hblock, hseen⟩ := h.of_inBlock hin
      rw [hblock, hseen]
      cases protocol.dumps r <;> simp

/-! What the next load would make of a register, for registers that are followed one by one. -/

def Protocol.next (protocol : Protocol ρ γ ν) (s : State ρ γ ν) (r : ρ) : ν :=
  if protocol.inBlock s.valid r then s.block r else protocol.stored r (s.cache r)

/-- What a sequence of changes must find not to lose this register at the next load. -/
structure KeepsAt (protocol : Protocol ρ γ ν) (es : List (Edit ρ γ ν)) (s : State ρ γ ν) (r : ρ) :
    Prop where
  written : ∀ value, lastWrite es r = some value →
    protocol.inBlock (s.edited es).valid r = true → s.block r = protocol.encode r value
  kept : lastWrite es r = none → protocol.inBlock s.valid r = true →
    protocol.inBlock (s.edited es).valid r = false → protocol.encode r (s.cache r) = s.block r

theorem next_edited (h : KeepsAt protocol es s r) :
    protocol.next (s.edited es) r = (lastWrite es r).elim (protocol.next s r) (protocol.stored r) := by
  unfold Protocol.next
  cases hwrite : lastWrite es r with
  | some value =>
      have hcache : (s.edited es).cache r = value := by simp [State.edited, hwrite]
      rw [hcache, Option.elim_some]
      split
      · next hin => exact (h.written value hwrite hin).trans (stored_of_inBlock hin value).symm
      · rfl
  | none =>
      have hcache : (s.edited es).cache r = s.cache r := by simp [State.edited, hwrite]
      rw [hcache, Option.elim_none]
      split
      · next hin => rw [if_pos (inBlock_of_edited hin), State.edited]
      · next hin =>
          split
          · next hbefore =>
              rw [stored_of_inBlock hbefore]
              exact h.kept hwrite hbefore (Bool.eq_false_iff.mpr hin)
          · rfl

theorem block_load_eq_next (hhome : protocol.home r ≠ .cache) (hloads : protocol.loads r = true) :
    (protocol.load s).block r = protocol.next s r := by
  have hstored : protocol.stored r (s.cache r) = protocol.encode r (s.cache r) := by
    unfold Protocol.stored
    split
    · next hcache => exact absurd hcache hhome
    · rfl
  unfold Protocol.load Protocol.next
  rw [hstored]
  cases hin : protocol.inBlock s.valid r <;> simp [hloads, hin]

theorem next_of_cache (hhome : protocol.home r = .cache) : protocol.next s r = s.cache r := by
  simp [Protocol.next, Protocol.inBlock, Protocol.stored, hhome]

/-! A load made of blocks, one for each group. -/

section LoadsGroups

variable [DecidableEq γ] {s' s'' : State ρ γ ν} {g : γ} {gs : List γ}

/-- The group of the register is one of these, and has a value to load. -/
def Protocol.awaits (protocol : Protocol ρ γ ν) (s : State ρ γ ν) (gs : List γ) (r : ρ) : Bool :=
  match protocol.home r with
  | .group g => protocol.loads r && decide (g ∈ gs) && !s.valid g
  | _ => false

/-- Some groups are loaded. -/
structure Protocol.LoadsGroups (protocol : Protocol ρ γ ν) (s s' : State ρ γ ν) (gs : List γ) :
    Prop where
  cache : s'.cache = s.cache
  valid : ∀ g, s'.valid g = (s.valid g || decide (g ∈ gs))
  block : ∀ r, s'.block r =
    if protocol.awaits s gs r then protocol.encode r (s.cache r) else s.block r

theorem Protocol.awaits_of_group (h : protocol.home r = .group g) :
    protocol.awaits s gs r = (protocol.loads r && decide (g ∈ gs) && !s.valid g) := by
  simp only [awaits, h]

theorem Protocol.awaits_of_no_group (h : ∀ g, protocol.home r ≠ .group g) :
    protocol.awaits s gs r = false := by
  unfold awaits
  split
  · next g hhome => exact absurd hhome (h g)
  · rfl

namespace Protocol.LoadsGroups

theorem refl : protocol.LoadsGroups s s [] where
  cache := rfl
  valid g := by simp
  block r := by
    have hnot : protocol.awaits s [] r = false := by
      unfold awaits
      split <;> simp
    rw [hnot, if_neg Bool.false_ne_true]

/-- A group that is not loaded yet is loaded next. -/
theorem trans (h : protocol.LoadsGroups s s' gs) (h' : protocol.LoadsGroups s' s'' [g])
    (hnew : g ∉ gs) : protocol.LoadsGroups s s'' (gs ++ [g]) where
  cache := h'.cache.trans h.cache
  valid g' := by
    rw [h'.valid, h.valid]
    simp [Bool.or_assoc]
  block r := by
    rw [h'.block, h.block, h.cache]
    by_cases hgroup : ∃ g', protocol.home r = .group g'
    · obtain ⟨g', hhome⟩ := hgroup
      simp only [awaits_of_group hhome, h.valid]
      by_cases hg : g' = g
      · subst hg
        simp [hnew]
      · simp [hg]
    · have hnone (g') : protocol.home r ≠ .group g' := fun hhome => hgroup ⟨g', hhome⟩
      simp only [awaits_of_no_group hnone, Bool.false_eq_true, if_false]

theorem of_valid (hvalid : s.valid g = true) : protocol.LoadsGroups s s [g] where
  cache := rfl
  valid g' := by by_cases hg : g' = g <;> simp [hg, hvalid]
  block r := by
    by_cases hgroup : ∃ g', protocol.home r = .group g'
    · obtain ⟨g', hhome⟩ := hgroup
      rw [awaits_of_group hhome]
      by_cases hg : g' = g <;> simp [hg, hvalid]
    · have hnone (g') : protocol.home r ≠ .group g' := fun hhome => hgroup ⟨g', hhome⟩
      rw [awaits_of_no_group hnone, if_neg Bool.false_ne_true]

/-- A block that writes the registers of a group which is not valid. -/
theorem of_block {select : ρ → Bool} (hvalid : s.valid g = false)
    (hselect : ∀ r, select r = (protocol.loads r && decide (protocol.home r = .group g)))
    (hcache : s'.cache = s.cache) (hvalid' : s'.valid = fun g' => s.valid g' || decide (g' = g))
    (hblock : ∀ r, s'.block r =
      if select r then protocol.encode r (s.cache r) else s.block r) :
    protocol.LoadsGroups s s' [g] where
  cache := hcache
  valid g' := by simp [hvalid']
  block r := by
    rw [hblock, hselect]
    by_cases hgroup : ∃ g', protocol.home r = .group g'
    · obtain ⟨g', hhome⟩ := hgroup
      rw [awaits_of_group hhome, hhome]
      by_cases hg : g' = g <;> simp [hg, hvalid]
    · have hnone (g') : protocol.home r ≠ .group g' := fun hhome => hgroup ⟨g', hhome⟩
      simp [awaits_of_no_group hnone, hnone g]

/-- What is beside the registers does not matter. -/
theorem congr (h : protocol.LoadsGroups s s' gs) (heq : s'' = s') : protocol.LoadsGroups s s'' gs :=
  heq ▸ h

theorem eq_load (h : protocol.LoadsGroups s s' gs)
    (hgroups : ∀ g, decide (g ∈ gs) = protocol.loadsGroup g)
    (hloads : ∀ r, protocol.loads r = true → ∃ g ∈ gs, protocol.home r = .group g) :
    s' = protocol.load s := by
  have hvalid : s'.valid = (protocol.load s).valid := by
    funext g
    rw [h.valid, hgroups]
    rfl
  have hblock : s'.block = (protocol.load s).block := by
    funext r
    rw [h.block]
    refine congrArg (fun b : Bool => if b then _ else _) ?_
    cases hr : protocol.loads r with
    | false =>
        unfold awaits
        split <;> simp [hr]
    | true =>
        obtain ⟨g, hmem, hhome⟩ := hloads r hr
        rw [awaits_of_group hhome]
        simp [hr, hmem, inBlock, hhome]
  cases s' with
  | mk cache block valid =>
      obtain rfl : cache = s.cache := h.cache
      obtain rfl : block = _ := hblock
      obtain rfl : valid = _ := hvalid
      rfl

end Protocol.LoadsGroups

end LoadsGroups

end Writeback
