import Mathlib.Data.Nat.Basic

/-!
# Runs of a transition system

The states a system reaches and the induction over its runs.
-/

namespace Transition

variable {σ : Type} {start : σ → Prop} {step step' : σ → σ → Prop}

inductive Reachable (start : σ → Prop) (step : σ → σ → Prop) : σ → Prop
  | start {s : σ} : start s → Reachable start step s
  | step {s s' : σ} : Reachable start step s → step s s' → Reachable start step s'

/-- What holds at the start and is kept by every step from a reachable state holds in every run. -/
theorem Reachable.invariant {P : σ → Prop} (hstart : ∀ s, start s → P s)
    (hstep : ∀ s s', Reachable start step s → P s → step s s' → P s') {s : σ}
    (h : Reachable start step s) : P s := by
  induction h with
  | start h => exact hstart _ h
  | step hreach htaken ih => exact hstep _ _ hreach ih htaken

theorem Reachable.mono (hsub : ∀ s s', step s s' → step' s s') {s : σ}
    (h : Reachable start step s) : Reachable start step' s :=
  h.invariant (fun _ => .start) fun s s' _ hs htaken => .step hs (hsub s s' htaken)

section

variable {ι : Type} {I : σ → Prop} {P Q K : σ → ι → Prop} {next : σ → ι → σ} {s : σ} {events : List ι}

/-- Every step of a run that takes the events in order. -/
def Along (P : σ → ι → Prop) (next : σ → ι → σ) : σ → List ι → Prop
  | _, [] => True
  | s, e :: events => P s e ∧ Along P next (next s e) events

theorem along_and (hp : Along P next s events) (hq : Along Q next s events) :
    Along (fun s e => P s e ∧ Q s e) next s events := by
  induction events generalizing s with
  | nil => exact trivial
  | cons e events ih => exact ⟨⟨hp.1, hq.1⟩, ih hp.2 hq.2⟩

theorem along_of_forall (h : ∀ s e, P s e) : Along P next s events := by
  induction events generalizing s with
  | nil => exact trivial
  | cons e events ih => exact ⟨h s e, ih⟩

/-- A property of steps that an invariant gives. -/
theorem along_of_invariant (hstep : ∀ s e, I s → Q s e → P s e ∧ I (next s e)) (hs : I s)
    (hpossible : Along Q next s events) : Along P next s events := by
  induction events generalizing s with
  | nil => exact trivial
  | cons e events ih =>
      obtain ⟨hfirst, hrest⟩ := hpossible
      obtain ⟨hp, hkept⟩ := hstep s e hs hfirst
      exact ⟨hp, ih hkept hrest⟩

/-- A property of steps is a condition on them if it is one in every state that the condition
leads to. -/
theorem along_iff (hiff : ∀ s e, I s → Q s e → (P s e ↔ K s e))
    (hkept : ∀ s e, I s → Q s e → K s e → I (next s e)) (hs : I s) (hpossible : Along Q next s events) :
    Along P next s events ↔ Along K next s events := by
  induction events generalizing s with
  | nil => exact Iff.rfl
  | cons e events ih =>
      obtain ⟨hfirst, hrest⟩ := hpossible
      have hstep := hiff s e hs hfirst
      constructor
      · rintro ⟨hp, hps⟩
        have hk := hstep.mp hp
        exact ⟨hk, (ih (hkept s e hs hfirst hk) hrest).mp hps⟩
      · rintro ⟨hk, hks⟩
        exact ⟨hstep.mpr hk, (ih (hkept s e hs hfirst hk) hrest).mpr hks⟩

end

section

variable {θ : Type} {unfinished blocked : θ → Prop} {rank : θ → Nat}

/-- If whoever is blocked waits for somebody of a higher rank, not all are blocked. -/
theorem exists_unblocked {bound : Nat} (hbound : ∀ t, rank t ≤ bound)
    (hwaits : ∀ t, unfinished t → blocked t → ∃ t', unfinished t' ∧ rank t < rank t') {t : θ}
    (ht : unfinished t) : ∃ t', unfinished t' ∧ ¬blocked t' := by
  induction hleft : bound - rank t using Nat.strong_induction_on generalizing t with
  | _ left ih =>
      by_cases hblocked : blocked t
      · obtain ⟨t', ht', hlt⟩ := hwaits t ht hblocked
        have hle := hbound t'
        exact ih (bound - rank t') (by omega) ht' rfl
      · exact ⟨t, ht, hblocked⟩

end

end Transition
