import Mathlib.Data.List.Basic
import Mathlib.Order.Lattice

/-!
# Intervals merged in one pass

Half-open intervals in the order of their lower ends. The interval that grows takes the next one in if that
one touches it and does not end before it.
-/

namespace Intervals

structure Interval (α : Type) where
  lo : α
  hi : α

variable {α : Type} [LinearOrder α]

def coalesce : Interval α → List (Interval α) → List (Interval α)
  | a, [] => [a]
  | a, b :: rest =>
      if b.lo ≤ a.hi ∧ a.hi ≤ b.hi then coalesce ⟨a.lo, b.hi⟩ rest else a :: coalesce b rest

def Covers (l : List (Interval α)) (x : α) : Prop := ∃ r ∈ l, r.lo ≤ x ∧ x < r.hi

def Positive (l : List (Interval α)) : Prop := ∀ r ∈ l, r.lo < r.hi

def Sorted (l : List (Interval α)) : Prop := l.Pairwise fun a b => a.lo ≤ b.lo

/-- Disjoint and not adjacent. -/
def Apart (l : List (Interval α)) : Prop := l.Pairwise fun a b => a.hi < b.lo

/-- None ends before one that precedes it. -/
def EndsSorted (l : List (Interval α)) : Prop := l.Pairwise fun a b => a.hi ≤ b.hi

variable {a b r : Interval α} {l rest : List (Interval α)} {x : α}

theorem covers_cons : Covers (a :: l) x ↔ a.lo ≤ x ∧ x < a.hi ∨ Covers l x := by
  unfold Covers
  rw [List.exists_mem_cons_iff]

/-- The interval that grows is in the place of the two. -/
theorem Sorted.merge (h : Sorted (a :: b :: rest)) (hi : α) : Sorted (⟨a.lo, hi⟩ :: rest) := by
  obtain ⟨hfirst, hrest⟩ := List.pairwise_cons.mp h
  exact List.pairwise_cons.mpr
    ⟨fun r hr => hfirst r (List.mem_cons_of_mem b hr), (List.pairwise_cons.mp hrest).2⟩

theorem Positive.merge (h : Positive (a :: b :: rest)) (hle : a.hi ≤ b.hi) :
    Positive (⟨a.lo, b.hi⟩ :: rest) := by
  obtain ⟨ha, hrest⟩ := List.forall_mem_cons.mp h
  exact List.forall_mem_cons.mpr ⟨lt_of_lt_of_le ha hle, (List.forall_mem_cons.mp hrest).2⟩

theorem coalesce_positive (h : Positive (a :: rest)) : Positive (coalesce a rest) := by
  induction rest generalizing a with
  | nil => exact h
  | cons b rest ih =>
      obtain ⟨ha, hrest⟩ := List.forall_mem_cons.mp h
      unfold coalesce
      split
      · next htouch => exact ih (h.merge htouch.2)
      · exact List.forall_mem_cons.mpr ⟨ha, ih hrest⟩

/-- The union does not change. -/
theorem covers_coalesce (hsorted : Sorted (a :: rest)) (hpos : Positive (a :: rest)) :
    Covers (coalesce a rest) x ↔ Covers (a :: rest) x := by
  induction rest generalizing a with
  | nil => exact Iff.rfl
  | cons b rest ih =>
      obtain ⟨hfirst, hrest⟩ := List.pairwise_cons.mp hsorted
      obtain ⟨ha, hposRest⟩ := List.forall_mem_cons.mp hpos
      have hab := hfirst b List.mem_cons_self
      unfold coalesce
      split
      · next htouch =>
        rw [ih (hsorted.merge b.hi) (hpos.merge htouch.2), covers_cons, covers_cons, covers_cons, ← or_assoc]
        apply or_congr_left
        constructor
        · rintro ⟨hlo, hhi⟩
          rcases lt_or_ge x a.hi with hlt | hge
          · exact .inl ⟨hlo, hlt⟩
          · exact .inr ⟨le_trans htouch.1 hge, hhi⟩
        · rintro (⟨hlo, hhi⟩ | ⟨hlo, hhi⟩)
          · exact ⟨hlo, lt_of_lt_of_le hhi htouch.2⟩
          · exact ⟨le_trans hab hlo, hhi⟩
      · rw [covers_cons, ih hrest hposRest, covers_cons (a := a)]

/-- What comes out starts where the first interval does. -/
theorem coalesce_head : ∃ hi tail, coalesce a rest = ⟨a.lo, hi⟩ :: tail := by
  induction rest generalizing a with
  | nil => exact ⟨a.hi, [], rfl⟩
  | cons b rest ih =>
      unfold coalesce
      split
      · exact ih (a := ⟨a.lo, b.hi⟩)
      · exact ⟨a.hi, coalesce b rest, rfl⟩

theorem le_of_mem_coalesce (hsorted : Sorted (a :: rest)) (hr : r ∈ coalesce a rest) :
    a.lo ≤ r.lo := by
  induction rest generalizing a with
  | nil =>
      obtain rfl := List.mem_singleton.mp hr
      exact le_refl _
  | cons b rest ih =>
      obtain ⟨hfirst, hrest⟩ := List.pairwise_cons.mp hsorted
      unfold coalesce at hr
      split at hr
      · exact ih (a := ⟨a.lo, b.hi⟩) (hsorted.merge b.hi) hr
      · rcases List.mem_cons.mp hr with rfl | hr
        · exact le_refl _
        · exact le_trans (hfirst b List.mem_cons_self) (ih hrest hr)

theorem coalesce_apart (hsorted : Sorted (a :: rest)) (hends : EndsSorted (a :: rest)) :
    Apart (coalesce a rest) := by
  induction rest generalizing a with
  | nil => exact List.pairwise_singleton _ _
  | cons b rest ih =>
      obtain ⟨hfirst, hrest⟩ := List.pairwise_cons.mp hsorted
      obtain ⟨hlast, hendsRest⟩ := List.pairwise_cons.mp hends
      unfold coalesce
      split
      · exact ih (hsorted.merge b.hi) (List.pairwise_cons.mpr (List.pairwise_cons.mp hendsRest))
      · next hgap =>
        have hlt : a.hi < b.lo := by
          by_contra hle
          exact hgap ⟨not_lt.mp hle, hlast b List.mem_cons_self⟩
        refine List.pairwise_cons.mpr ⟨fun r hr => ?_, ih hrest hendsRest⟩
        exact lt_of_lt_of_le hlt (le_of_mem_coalesce hrest hr)

/-- An interval that ends before one that precedes it starts a new one inside of that. -/
theorem endsSorted_of_apart (hpos : Positive (a :: rest)) (hapart : Apart (coalesce a rest)) :
    EndsSorted (a :: rest) := by
  induction rest generalizing a with
  | nil => exact List.pairwise_singleton _ _
  | cons b rest ih =>
      obtain ⟨ha, hposRest⟩ := List.forall_mem_cons.mp hpos
      have hb := (List.forall_mem_cons.mp hposRest).1
      have hextend : a.hi ≤ b.hi → EndsSorted (b :: rest) → EndsSorted (a :: b :: rest) := by
        intro hab hends
        refine List.pairwise_cons.mpr ⟨fun r hr => ?_, hends⟩
        rcases List.mem_cons.mp hr with rfl | hr
        · exact hab
        · exact le_trans hab ((List.pairwise_cons.mp hends).1 r hr)
      unfold coalesce at hapart
      split at hapart
      · next htouch =>
        have hends := List.pairwise_cons.mp (ih (hpos.merge htouch.2) hapart)
        exact hextend htouch.2 (List.pairwise_cons.mpr hends)
      · obtain ⟨hi, tail, hhead⟩ : ∃ hi tail, coalesce b rest = ⟨b.lo, hi⟩ :: tail := coalesce_head
        have hgap := (List.pairwise_cons.mp hapart).1 ⟨b.lo, hi⟩ (by rw [hhead]; exact List.mem_cons_self)
        exact hextend (le_of_lt (lt_trans hgap hb)) (ih hposRest (List.pairwise_cons.mp hapart).2)

theorem coalesce_apart_iff (hsorted : Sorted (a :: rest)) (hpos : Positive (a :: rest)) :
    Apart (coalesce a rest) ↔ EndsSorted (a :: rest) :=
  ⟨endsSorted_of_apart hpos, coalesce_apart hsorted⟩

end Intervals
