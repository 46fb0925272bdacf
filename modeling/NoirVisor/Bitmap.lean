import Mathlib.Data.List.Basic
import Mathlib.Logic.Function.Basic

/-!
# Bitmaps

The first clear bit of a bitmap, found word by word. Bits past the end of the bitmap are what memory
has there.
-/

namespace Bitmap

variable (bitmap : Nat → Bool) (width : Nat)

def scanWord (base : Nat) : Option Nat := (List.range width).find? fun j => !bitmap (base + j)

def scan (words : Nat) : Option Nat :=
  (List.range words).findSome? fun i => (scanWord bitmap width (width * i)).map (width * i + ·)

structure FirstClear (bitmap : Nat → Bool) (bound i : Nat) : Prop where
  lt : i < bound
  clear : bitmap i = false
  set : ∀ j < i, bitmap j = true

variable {bitmap width} {words bound i j base : Nat}

theorem scanWord_eq_some :
    scanWord bitmap width base = some j ↔ FirstClear (fun j => bitmap (base + j)) width j := by
  unfold scanWord
  rw [List.find?_range_eq_some, List.mem_range]
  constructor
  · intro ⟨hclear, hlt, hset⟩
    exact ⟨hlt, by simpa using hclear, fun k hk => by simpa using hset k hk⟩
  · intro h
    exact ⟨by simpa using h.clear, h.lt, fun k hk => by simpa using h.set k hk⟩

theorem scanWord_eq_none :
    scanWord bitmap width base = none ↔ ∀ j < width, bitmap (base + j) = true := by
  unfold scanWord
  rw [List.find?_range_eq_none]
  simp

/-- The bits below the word and those of the word. -/
theorem set_append (hlow : ∀ i < base, bitmap i = true)
    (hword : ∀ j < width, bitmap (base + j) = true) : ∀ i < base + width, bitmap i = true := by
  intro i hi
  by_cases hbefore : i < base
  · exact hlow i hbefore
  · have hsplit : base + (i - base) = i := by omega
    rw [← hsplit]
    exact hword _ (by omega)

theorem FirstClear.append (hlow : ∀ i < base, bitmap i = true)
    (h : FirstClear (fun j => bitmap (base + j)) width j) :
    FirstClear bitmap (base + width) (base + j) := by
  obtain ⟨hlt, hclear, hset⟩ := h
  exact ⟨by omega, hclear, set_append hlow hset⟩

theorem scan_succ :
    scan bitmap width (words + 1) =
      (scan bitmap width words).or
        ((scanWord bitmap width (width * words)).map (width * words + ·)) := by
  unfold scan
  rw [List.range_succ, List.findSome?_append, List.findSome?_singleton]

/-- Nothing is found exactly when every bit of every word is set. -/
theorem scan_eq_none :
    scan bitmap width words = none ↔ ∀ i < width * words, bitmap i = true := by
  induction words with
  | zero =>
      refine ⟨fun _ i hi => ?_, fun _ => rfl⟩
      rw [Nat.mul_zero] at hi
      exact absurd hi (Nat.not_lt_zero i)
  | succ words ih =>
      rw [scan_succ, Option.or_eq_none_iff, ih, Option.map_eq_none_iff, scanWord_eq_none]
      constructor
      · intro ⟨hbefore, hword⟩
        exact set_append hbefore hword
      · intro h
        refine ⟨fun i hi => h i ?_, fun j hj => h _ ?_⟩
        · rw [Nat.mul_succ]
          omega
        · rw [Nat.mul_succ]
          omega

theorem FirstClear.unique (hi : FirstClear bitmap bound i) (hj : FirstClear bitmap bound j) : i = j := by
  rcases Nat.lt_trichotomy i j with h | h | h
  · exact absurd (hi.clear.symm.trans (hj.set i h)) Bool.false_ne_true
  · exact h
  · exact absurd (hj.clear.symm.trans (hi.set j h)) Bool.false_ne_true

/-- The words are searched in order, and each from its lowest bit. -/
theorem scan_eq_some :
    scan bitmap width words = some i ↔ FirstClear bitmap (width * words) i := by
  have hfound : ∀ i, scan bitmap width words = some i → FirstClear bitmap (width * words) i := by
    induction words with
    | zero => exact fun i h => (nomatch h)
    | succ words ih =>
        intro i h
        rw [scan_succ, Option.or_eq_some_iff] at h
        rcases h with hfirst | ⟨hnone, hlast⟩
        · obtain ⟨hlt, hclear, hset⟩ := ih i hfirst
          refine ⟨?_, hclear, hset⟩
          rw [Nat.mul_succ]
          omega
        · obtain ⟨j, hj, rfl⟩ := Option.map_eq_some_iff.mp hlast
          exact FirstClear.append (scan_eq_none.mp hnone) (scanWord_eq_some.mp hj)
  refine ⟨hfound i, fun h => ?_⟩
  cases hscan : scan bitmap width words with
  | none => exact absurd (h.clear.symm.trans (scan_eq_none.mp hscan i h.lt)) Bool.false_ne_true
  | some j => rw [(hfound j hscan).unique h]

end Bitmap
