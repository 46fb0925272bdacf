import Mathlib.Logic.Function.Basic

/-!
# A slot with a signal

Writers leave a value in a slot and then signal it, in two steps. A reader that waits takes the
signal and then reads the value, twice.
-/

namespace Mailbox

inductive Reader (α : Type) where
  | idle
  | waiting
  | taken
  | first (value : α)

/-- `writing` are the values that were written and not signalled yet, and `sent` those that were
signalled since the reader began to wait. -/
@[ext]
structure Slot (π α : Type) where
  value : α
  full : Bool
  reader : Reader α
  writing : π → Option α
  sent : List α

inductive Action (π α : Type) where
  | wait
  | write (q : π) (value : α)
  | signal (q : π)
  | poll
  | first
  | second

namespace Slot

variable {π α : Type} (s : Slot π α)

def step [DecidableEq π] : Action π α → Slot π α
  | .wait => { s with reader := .waiting, sent := [] }
  | .write q value => { s with value, writing := Function.update s.writing q (some value) }
  | .signal q =>
      { s with
        full := true
        writing := Function.update s.writing q none
        sent := s.sent ++ (s.writing q).toList }
  | .poll => if s.full then { s with full := false, reader := .taken } else s
  | .first => { s with reader := .first s.value }
  | .second => { s with reader := .idle }

def Enabled : Action π α → Prop
  | .wait => s.reader = .idle
  | .write _ _ => True
  | .signal q => s.writing q ≠ none
  | .poll => s.reader = .waiting
  | .first => s.reader = .taken
  | .second => ∃ value, s.reader = .first value

/-- The value is still to be read. -/
def Held : Prop :=
  (s.reader = .waiting ∧ s.full = true) ∨ s.reader = .taken ∨ ∃ value, s.reader = .first value

/-- Nobody waits on a signal that is there already, and a value is overwritten neither before it is
signalled nor before it is read. -/
def Orderly : Action π α → Prop
  | .wait => s.full = false
  | .write _ _ => (∀ q, s.writing q = none) ∧ ¬s.Held
  | _ => True

structure Coherent : Prop where
  writer : ∀ q value, s.writing q = some value → s.value = value ∧ ∀ q', q' ≠ q → s.writing q' = none
  full : s.reader = .waiting → (s.full = true ↔ s.sent ≠ [])
  held : s.Held → s.value ∈ s.sent ∧ ∀ q, s.writing q = none
  first : ∀ value, s.reader = .first value → value = s.value

variable {s} {a : Action π α}

theorem held_of_taken (h : s.reader = .taken) : s.Held := .inr (.inl h)

theorem held_of_first {value : α} (h : s.reader = .first value) : s.Held := .inr (.inr ⟨value, h⟩)

/-- It reads the same value twice, and one that was sent. -/
theorem Coherent.read {value : α} (h : s.Coherent) (hfirst : s.reader = .first value) :
    value = s.value ∧ value ∈ s.sent := by
  have hvalue := h.first value hfirst
  exact ⟨hvalue, hvalue ▸ (h.held (held_of_first hfirst)).1⟩

variable [DecidableEq π]

theorem Coherent.wait (h : s.Coherent) (horderly : s.full = false) : (s.step .wait).Coherent where
  writer := h.writer
  full _ := by
    change s.full = true ↔ [] ≠ []
    rw [horderly]
    exact iff_of_false Bool.false_ne_true fun hne => hne rfl
  held hheld := by
    rcases hheld with ⟨-, hfull⟩ | htaken | ⟨value, hfirst⟩
    · exact absurd (horderly.symm.trans hfull) Bool.false_ne_true
    · exact (nomatch htaken)
    · exact (nomatch hfirst)
  first := nofun

theorem Coherent.write {q : π} {value : α} (h : s.Coherent) (hfree : ∀ q, s.writing q = none)
    (hheld : ¬s.Held) : (s.step (.write q value)).Coherent where
  writer q' value' hq' := by
    have hwriter : q' = q := by
      by_contra hne
      change Function.update s.writing q (some value) q' = _ at hq'
      rw [Function.update_of_ne hne, hfree] at hq'
      exact (nomatch hq')
    subst hwriter
    change Function.update s.writing q' (some value) q' = _ at hq'
    rw [Function.update_self] at hq'
    refine ⟨Option.some.inj hq', fun q'' hne => ?_⟩
    change Function.update s.writing q' (some value) q'' = none
    rw [Function.update_of_ne hne, hfree]
  full := h.full
  held hheld' := absurd hheld' hheld
  first value' hfirst := absurd (held_of_first hfirst) hheld

/-- Whoever signals finds the reader without a value. -/
theorem Coherent.signal {q : π} (h : s.Coherent) (henabled : s.writing q ≠ none) :
    (s.step (.signal q)).Coherent := by
  obtain ⟨value, hq⟩ := Option.ne_none_iff_exists'.mp henabled
  obtain ⟨hvalue, hother⟩ := h.writer q value hq
  have hheld : ¬s.Held := fun hheld => henabled ((h.held hheld).2 q)
  have hnone : ∀ q', Function.update s.writing q none q' = none := by
    intro q'
    by_cases hsame : q' = q
    · rw [hsame, Function.update_self]
    · rw [Function.update_of_ne hsame, hother q' hsame]
  have hsent : s.sent ++ (s.writing q).toList = s.sent ++ [value] := by rw [hq]; rfl
  constructor
  · intro q' value' hq'
    exact absurd ((hnone q').symm.trans hq') nofun
  · intro _
    change true = true ↔ s.sent ++ (s.writing q).toList ≠ []
    rw [hsent]
    exact iff_of_true rfl (List.append_ne_nil_of_right_ne_nil _ (List.cons_ne_nil _ _))
  · intro _
    change s.value ∈ s.sent ++ (s.writing q).toList ∧ ∀ q', Function.update s.writing q none q' = none
    rw [hsent, hvalue]
    exact ⟨List.mem_append_right _ List.mem_cons_self, hnone⟩
  · intro value' hfirst
    exact absurd (.inr (.inr ⟨value', hfirst⟩)) hheld

theorem Coherent.poll (h : s.Coherent) (hwaiting : s.reader = .waiting) :
    (s.step .poll).Coherent := by
  change (if s.full then _ else s).Coherent
  split
  case isFalse => exact h
  case isTrue hfull => exact ⟨h.writer, nofun, fun _ => h.held (.inl ⟨hwaiting, hfull⟩), nofun⟩

theorem Coherent.firstRead (h : s.Coherent) (htaken : s.reader = .taken) : (s.step .first).Coherent :=
  ⟨h.writer, nofun, fun _ => h.held (held_of_taken htaken),
    fun _ hfirst => (Reader.first.inj hfirst).symm⟩

theorem Coherent.secondRead (h : s.Coherent) : (s.step .second).Coherent where
  writer := h.writer
  full := nofun
  held hheld := by
    rcases hheld with ⟨hwaiting, -⟩ | htaken | ⟨value, hfirst⟩
    · exact (nomatch hwaiting)
    · exact (nomatch htaken)
    · exact (nomatch hfirst)
  first := nofun

theorem Coherent.step (h : s.Coherent) (henabled : s.Enabled a) (horderly : s.Orderly a) :
    (s.step a).Coherent := by
  cases a with
  | wait => exact h.wait horderly
  | write q value => exact h.write horderly.1 horderly.2
  | signal q => exact h.signal henabled
  | poll => exact h.poll henabled
  | first => exact h.firstRead henabled
  | second => exact h.secondRead

end Slot

end Mailbox
