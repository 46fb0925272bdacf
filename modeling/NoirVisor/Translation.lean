import Mathlib.Logic.Function.Basic

/-!
# Buffered translations

A buffer holds a part of a partial map and is sound if it holds nothing else.
-/

namespace Translation

open Function

variable {A G H : Type}

def Sound (buffer xlate : A → Option H) : Prop := ∀ a h, buffer a = some h → xlate a = some h

/-- Nothing that is translated is translated otherwise. -/
def Extends (xlate xlate' : A → Option H) : Prop := ∀ a h, xlate a = some h → xlate' a = some h

/-- Two maps in a row. -/
def through (first : A → Option G) (second : G → Option H) : A → Option H :=
  fun a => (first a).bind second

def flush : A → Option H := fun _ => none

/-- What is held is not looked up again. -/
def fill [DecidableEq A] (xlate : A → Option H) (a : A) (buffer : A → Option H) : A → Option H :=
  if buffer a = none then update buffer a (xlate a) else buffer

def evict [DecidableEq A] (a : A) (buffer : A → Option H) : A → Option H := update buffer a none

/-- What is translated otherwise from now on is not retained. -/
def retain [DecidableEq H] (xlate xlate' buffer : A → Option H) : A → Option H :=
  fun a => if xlate a = xlate' a then buffer a else none

section

variable {buffer xlate xlate' : A → Option H}

theorem sound_flush : Sound flush xlate := fun _ _ h => absurd h.symm (Option.some_ne_none _)

theorem Sound.extends (h : Sound buffer xlate) (hextends : Extends xlate xlate') :
    Sound buffer xlate' := fun a _ hheld => hextends a _ (h a _ hheld)

theorem Sound.fill [DecidableEq A] (h : Sound buffer xlate) (a : A) :
    Sound (fill xlate a buffer) xlate := by
  unfold Translation.fill
  split
  · intro b v hheld
    by_cases hb : b = a
    · rwa [hb, update_self, ← hb] at hheld
    · rw [update_of_ne hb] at hheld
      exact h b v hheld
  · exact h

theorem Sound.evict [DecidableEq A] (h : Sound buffer xlate) (a : A) :
    Sound (evict a buffer) xlate := by
  intro b v hheld
  unfold Translation.evict at hheld
  by_cases hb : b = a
  · rw [hb, update_self] at hheld
    exact absurd hheld.symm (Option.some_ne_none v)
  · rw [update_of_ne hb] at hheld
    exact h b v hheld

theorem Sound.retain [DecidableEq H] (h : Sound buffer xlate) :
    Sound (retain xlate xlate' buffer) xlate' := by
  intro a v hheld
  unfold Translation.retain at hheld
  split at hheld
  · next hsame => exact hsame ▸ h a v hheld
  · exact absurd hheld.symm (Option.some_ne_none v)

theorem Extends.refl : Extends xlate xlate := fun _ _ h => h

theorem Extends.through {first first' : A → Option G} {second second' : G → Option H}
    (hfirst : Extends first first') (hsecond : Extends second second') :
    Extends (through first second) (through first' second') := by
  intro a v hv
  unfold Translation.through at hv ⊢
  obtain ⟨g, hg, hv⟩ := Option.bind_eq_some_iff.mp hv
  exact Option.bind_eq_some_iff.mpr ⟨g, hfirst a g hg, hsecond g v hv⟩

end

end Translation
