import Mathlib.Data.List.Basic
import Mathlib.Logic.Function.Basic

/-!
# Copying ranges

A page is a function of the offset. A copy takes ranges of it from another page, and a list of copies
may leave some of them out.
-/

namespace Copying

structure Range where
  offset : Nat
  width : Nat
deriving DecidableEq

def Range.Has (r : Range) (i : Nat) : Prop := r.offset ≤ i ∧ i < r.offset + r.width

instance (r : Range) (i : Nat) : Decidable (r.Has i) := inferInstanceAs (Decidable (_ ∧ _))

def covers (rs : List Range) (i : Nat) : Bool := rs.any fun r => decide (r.Has i)

/-- Every range lies in one of the others. -/
def within (rs rs' : List Range) : Bool :=
  rs.all fun r => rs'.any fun r' =>
    decide (r'.offset ≤ r.offset ∧ r.offset + r.width ≤ r'.offset + r'.width)

def apart (rs rs' : List Range) : Bool :=
  rs.all fun r => rs'.all fun r' =>
    decide (r.offset + r.width ≤ r'.offset ∨ r'.offset + r'.width ≤ r.offset)

variable {α ι : Type}

def AgreeOn (rs : List Range) (p q : Nat → α) : Prop := ∀ i, covers rs i = true → p i = q i

def copyRange (src dest : Nat → α) (r : Range) : Nat → α := fun i => if r.Has i then src i else dest i

def copy (src dest : Nat → α) (rs : List Range) : Nat → α := rs.foldl (copyRange src) dest

variable {rs rs' : List Range} {src dest p q t : Nat → α} {i : Nat}

section Ranges

theorem covers_single {r : Range} : covers [r] i = true ↔ r.Has i := by
  unfold covers
  rw [List.any_cons, List.any_nil, Bool.or_false, decide_eq_true_eq]

theorem covers_append : covers (rs ++ rs') i = (covers rs i || covers rs' i) := List.any_append

theorem covers_flatMap {ranges : ι → List Range} {gs : List ι} :
    covers (gs.flatMap ranges) i = true ↔ ∃ g ∈ gs, covers (ranges g) i = true := by
  unfold covers
  rw [List.any_flatMap, List.any_eq_true]

theorem covers_of_within (hwithin : within rs rs' = true) (h : covers rs i = true) :
    covers rs' i = true := by
  unfold covers at h ⊢
  obtain ⟨r, hr, hi⟩ := List.any_eq_true.mp h
  obtain ⟨r', hr', hbounds⟩ := List.any_eq_true.mp (List.all_eq_true.mp hwithin r hr)
  have hi := of_decide_eq_true hi
  have hbounds := of_decide_eq_true hbounds
  refine List.any_eq_true.mpr ⟨r', hr', decide_eq_true ⟨?_, ?_⟩⟩
  · exact Nat.le_trans hbounds.1 hi.1
  · exact Nat.lt_of_lt_of_le hi.2 hbounds.2

theorem within_of_subset (h : rs ⊆ rs') : within rs rs' = true := by
  apply List.all_eq_true.mpr
  intro r hr
  exact List.any_eq_true.mpr ⟨r, h hr, decide_eq_true ⟨Nat.le_refl _, Nat.le_refl _⟩⟩

theorem covers_of_apart (hapart : apart rs rs' = true) (h : covers rs i = true) :
    covers rs' i = false := by
  obtain ⟨r, hr, hi⟩ := List.any_eq_true.mp h
  have hi := of_decide_eq_true hi
  rw [← Bool.not_eq_true]
  intro h'
  obtain ⟨r', hr', hi'⟩ := List.any_eq_true.mp h'
  have hi' := of_decide_eq_true hi'
  have hbounds := of_decide_eq_true (List.all_eq_true.mp (List.all_eq_true.mp hapart r hr) r' hr')
  unfold Range.Has at hi hi'
  omega

theorem not_has_of_apart {r : Range} (hapart : apart rs [r] = true) (hi : covers rs i = true) :
    ¬r.Has i := by
  rw [← covers_single, covers_of_apart hapart hi]
  exact Bool.false_ne_true

theorem apart_of_within {rs'' : List Range} (hapart : apart rs rs' = true)
    (hwithin : within rs'' rs' = true) : apart rs rs'' = true := by
  refine List.all_eq_true.mpr fun r hr => List.all_eq_true.mpr fun r'' hr'' => decide_eq_true ?_
  obtain ⟨r', hr', hbounds⟩ := List.any_eq_true.mp (List.all_eq_true.mp hwithin r'' hr'')
  have hbounds := of_decide_eq_true hbounds
  have hapart := of_decide_eq_true (List.all_eq_true.mp (List.all_eq_true.mp hapart r hr) r' hr')
  omega

end Ranges

section Copy

/-- A copy takes what the ranges cover, whatever their order. -/
theorem copy_apply : copy src dest rs i = if covers rs i then src i else dest i := by
  induction rs generalizing dest with
  | nil => rfl
  | cons r rs ih =>
      unfold copy at ih ⊢
      rw [List.foldl_cons, ih]
      unfold covers copyRange
      rw [List.any_cons]
      by_cases hr : r.Has i
      · simp [hr]
      · simp [hr]

theorem copy_of_covers (h : covers rs i = true) : copy src dest rs i = src i := by
  rw [copy_apply, if_pos h]

theorem copy_of_not_covers (h : covers rs i = false) : copy src dest rs i = dest i := by
  rw [copy_apply, if_neg (by rw [h]; exact Bool.false_ne_true)]

theorem copy_of_eq (h : dest i = src i) : copy src dest rs i = src i := by
  rw [copy_apply, h, ite_self]

/-- Several copies from one page, some of them left out. -/
theorem foldl_copy {step : (Nat → α) → ι → Nat → α} {ranges : ι → List Range} {taken : ι → Bool}
    {gs : List ι}
    (hstep : ∀ g ∈ gs, ∀ t, step t g i = if covers (ranges g) i then src i else t i) :
    gs.foldl (fun t g => if taken g then step t g else t) dest i =
      if gs.any (fun g => taken g && covers (ranges g) i) then src i else dest i := by
  induction gs generalizing dest with
  | nil => rfl
  | cons g gs ih =>
      rw [List.foldl_cons, ih fun g hg => hstep g (List.mem_cons_of_mem _ hg), List.any_cons]
      cases htaken : taken g with
      | false => simp
      | true =>
          rw [if_pos rfl, hstep g List.mem_cons_self]
          cases covers (ranges g) i with
          | false => simp
          | true => simp

theorem foldl_kept {step : (Nat → α) → ι → Nat → α} {taken : ι → Bool} {P : (Nat → α) → Prop}
    {gs : List ι} (hstep : ∀ g t, P t → P (step t g)) (h : P dest) :
    P (gs.foldl (fun t g => if taken g then step t g else t) dest) := by
  induction gs generalizing dest with
  | nil => exact h
  | cons g gs ih =>
      rw [List.foldl_cons]
      apply ih
      split
      · exact hstep g dest h
      · exact h

/-- What one copy brings about and the others keep. -/
theorem foldl_established {step : (Nat → α) → ι → Nat → α} {taken : ι → Bool}
    {P : (Nat → α) → Prop} {gs : List ι} {g : ι} (hg : g ∈ gs) (htaken : taken g = true)
    (hest : ∀ t, P (step t g)) (hstep : ∀ g t, P t → P (step t g)) :
    P (gs.foldl (fun t g => if taken g then step t g else t) dest) := by
  obtain ⟨before, after, rfl⟩ := List.append_of_mem hg
  rw [List.foldl_append, List.foldl_cons, if_pos htaken]
  exact foldl_kept hstep (hest _)

end Copy

namespace AgreeOn

theorem refl : AgreeOn rs p p := fun _ _ => rfl

theorem symm (h : AgreeOn rs p q) : AgreeOn rs q p := fun i hi => (h i hi).symm

theorem trans (h : AgreeOn rs p q) (h' : AgreeOn rs q t) : AgreeOn rs p t :=
  fun i hi => (h i hi).trans (h' i hi)

theorem mono (hwithin : within rs rs' = true) (h : AgreeOn rs' p q) : AgreeOn rs p q :=
  fun i hi => h i (covers_of_within hwithin hi)

theorem copy_src : AgreeOn rs (copy src dest rs) src := fun _ hi => copy_of_covers hi

/-- What a copy does not touch. -/
theorem copy_dest (hapart : apart rs rs' = true) : AgreeOn rs (copy src dest rs') dest :=
  fun _ hi => copy_of_not_covers (covers_of_apart hapart hi)

end AgreeOn

end Copying
