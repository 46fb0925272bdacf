import Mathlib.Data.Set.Finite.Basic
import Mathlib.Data.Fintype.Card

/-!
# Chains of links

Every place leads to another one, or is the last. A chain in a finite set of places ends unless it comes
back to a place where it has been.
-/

namespace Chain

variable {α : Type} (next : α → Option α)

/-- The place after so many links, if the chain is that long. -/
def visits (start : Option α) : Nat → Option α
  | 0 => start
  | n + 1 => (visits start n).bind next

def Ends (start : Option α) : Prop := ∃ n, visits next start n = none

/-- No place is visited again. -/
def Acyclic (start : Option α) : Prop :=
  ∀ i j a, i < j → visits next start i = some a → visits next start j ≠ some a

variable {next} {start : Option α} {m n : Nat} {a : α}

theorem visits_add : visits next start (m + n) = visits next (visits next start m) n := by
  induction n with
  | zero => rfl
  | succ n ih =>
      rw [← Nat.add_assoc, visits, ih]
      rfl

theorem visits_succ : visits next (some a) (n + 1) = visits next (next a) n := by
  rw [Nat.add_comm, visits_add]
  rfl

theorem visits_none : visits next none n = none := by
  induction n with
  | zero => rfl
  | succ n ih => rw [visits, ih, Option.bind_none]

theorem visits_of_le (hmn : m ≤ n) (hm : visits next start m = none) : visits next start n = none := by
  obtain ⟨k, rfl⟩ := Nat.exists_eq_add_of_le hmn
  rw [visits_add, hm, visits_none]

/-- From the second visit on, the chain repeats what followed the first one. -/
theorem Ends.acyclic (h : Ends next start) : Acyclic next start := by
  intro i j a hij hi hj
  obtain ⟨k, rfl⟩ := Nat.exists_eq_add_of_lt hij
  have hperiod (m : Nat) : visits next start (i + (k + 1) + m) = visits next start (i + m) := by
    rw [← Nat.add_assoc, visits_add, hj, visits_add, hi]
  have hnever (m : Nat) : visits next start (i + m) ≠ none := by
    induction m using Nat.strong_induction_on with
    | _ m ih =>
        by_cases hm : m < k + 1
        · intro hnone
          have hlast : visits next start (i + k + 1) = none := visits_of_le (by omega) hnone
          exact nomatch hlast.symm.trans hj
        · obtain ⟨l, rfl⟩ := Nat.exists_eq_add_of_le (Nat.le_of_not_lt hm)
          rw [← Nat.add_assoc, hperiod]
          exact ih l (by omega)
  obtain ⟨n, hn⟩ := h
  exact hnever n (visits_of_le (Nat.le_add_left n i) hn)

/-- There are not enough places for a chain that never ends. -/
theorem Acyclic.ends {places : Set α} (hfinite : places.Finite)
    (hplaces : ∀ n a, visits next start n = some a → a ∈ places) (h : Acyclic next start) :
    Ends next start := by
  by_contra hnot
  have hsome (n : Nat) : ∃ a, visits next start n = some a :=
    Option.ne_none_iff_exists'.mp fun hnone => hnot ⟨n, hnone⟩
  choose place hplace using hsome
  have hinjective : Function.Injective place := by
    intro i j hij
    rcases Nat.lt_trichotomy i j with hlt | heq | hgt
    · exact absurd (hij ▸ hplace j) (h i j _ hlt (hplace i))
    · exact heq
    · exact absurd (hij ▸ hplace i) (h j i _ hgt (hplace j))
  exact Set.infinite_of_injective_forall_mem hinjective (fun n => hplaces n _ (hplace n)) hfinite

end Chain
