import Mathlib.Logic.Function.Basic

/-!
# Locks and their holders

Every lock knows who holds it, and its holder knows it by where it is in its program. Only one thread moves
at a time.
-/

namespace Locking

variable {Lock Thread : Type} {owner : Lock → Option Thread} {holds holds' : Thread → Lock → Prop}
  {lock : Lock} {t t' : Thread}

/-- The locks are held by those who think that they hold them. -/
def Agrees (owner : Lock → Option Thread) (holds : Thread → Lock → Prop) : Prop :=
  ∀ lock t, owner lock = some t ↔ holds t lock

theorem Agrees.unique (h : Agrees owner holds) (hholds : holds t lock) (hholds' : holds t' lock) :
    t = t' :=
  Option.some.inj (((h lock t).mpr hholds).symm.trans ((h lock t').mpr hholds'))

theorem Agrees.move (h : Agrees owner holds)
    (hothers : ∀ t', t' ≠ t → ∀ lock, holds' t' lock ↔ holds t' lock)
    (hmoves : ∀ lock, holds' t lock ↔ holds t lock) : Agrees owner holds' := by
  intro lock t'
  by_cases ht : t' = t
  · rw [h lock t', ht, hmoves]
  · rw [h lock t', hothers t' ht]

variable [DecidableEq Lock]

theorem Agrees.acquire (h : Agrees owner holds) (hfree : owner lock = none)
    (hothers : ∀ t', t' ≠ t → ∀ lock, holds' t' lock ↔ holds t' lock)
    (hgains : ∀ lock', holds' t lock' ↔ holds t lock' ∨ lock' = lock) :
    Agrees (Function.update owner lock (some t)) holds' := by
  have hno (t' : Thread) : ¬holds t' lock := fun hholds => by
    simpa [hfree] using (h lock t').mpr hholds
  intro lock' t'
  by_cases hlock : lock' = lock <;> by_cases ht : t' = t
  · simp [hlock, ht, hgains]
  · simp [hlock, hothers t' ht, hno, Ne.symm ht]
  · simpa [hlock, ht, hgains] using h lock' t
  · simpa [hlock, hothers t' ht] using h lock' t'

theorem Agrees.release (h : Agrees owner holds) (hheld : holds t lock)
    (hothers : ∀ t', t' ≠ t → ∀ lock, holds' t' lock ↔ holds t' lock)
    (hloses : ∀ lock', holds' t lock' ↔ holds t lock' ∧ lock' ≠ lock) :
    Agrees (Function.update owner lock none) holds' := by
  intro lock' t'
  by_cases hlock : lock' = lock <;> by_cases ht : t' = t
  · simp [hlock, ht, hloses]
  · have hno : ¬holds t' lock := fun hholds => ht (h.unique hholds hheld)
    simp [hlock, hothers t' ht, hno]
  · simpa [hlock, ht, hloses] using h lock' t
  · simpa [hlock, hothers t' ht] using h lock' t'

end Locking
