import Mathlib.Logic.Function.Basic
import Mathlib.Tactic.Common

/-!
# Words in a memory of bytes

Up to eight bytes are read and written as one little-endian word. A layout gives every field a place
of its own, and a memory under it is as good as a function of the fields.
-/

namespace Words

abbrev Memory := Nat → BitVec 8

def load (mem : Memory) (offset : Nat) : Nat → BitVec 64
  | 0 => 0
  | n + 1 => load mem offset n ||| (mem (offset + n)).setWidth 64 <<< (8 * n)

def store (mem : Memory) (offset n : Nat) (word : BitVec 64) : Memory :=
  fun i => if offset ≤ i ∧ i < offset + n then word.extractLsb' (8 * (i - offset)) 8 else mem i

/-- The lowest bytes of a word. -/
def low (n : Nat) (word : BitVec 64) : BitVec 64 := (word.setWidth (8 * n)).setWidth 64

variable {mem mem' : Memory} {offset offset' n n' : Nat} {word : BitVec 64}

theorem getLsbD_low {k : Nat} : (low n word).getLsbD k = (decide (k < 8 * n) && word.getLsbD k) := by
  unfold low
  rw [BitVec.getLsbD_setWidth, BitVec.getLsbD_setWidth]
  by_cases hk : k < 64
  · simp [hk]
  · simp [BitVec.getLsbD_of_ge word k (by omega)]

theorem getLsbD_load {k : Nat} (hk : k < 64) :
    (load mem offset n).getLsbD k =
      (decide (k < 8 * n) && (mem (offset + k / 8)).getLsbD (k % 8)) := by
  induction n with
  | zero => simp [load]
  | succ n ih =>
      unfold load
      rw [BitVec.getLsbD_or, ih, BitVec.getLsbD_shiftLeft, BitVec.getLsbD_setWidth]
      by_cases hlow : k < 8 * n
      · have hlt : k < 8 * (n + 1) := by omega
        simp [hlow, hlt]
      · by_cases hhere : k < 8 * (n + 1)
        · have hbyte : k / 8 = n := by omega
          have hbit : k - 8 * n = k % 8 := by omega
          have hsmall : k % 8 < 64 := by omega
          simp [hlow, hhere, hbyte, hbit, hk, hsmall]
        · have hout : 8 ≤ k - 8 * n := by omega
          simp [hlow, hhere, BitVec.getLsbD_of_ge _ _ hout]

theorem store_byte {k : Nat} (hk : k < n) :
    store mem offset n word (offset + k) = word.extractLsb' (8 * k) 8 := by
  unfold store
  rw [if_pos (by omega), Nat.add_sub_cancel_left]

theorem store_of_not_mem {i : Nat} (h : i < offset ∨ offset + n ≤ i) :
    store mem offset n word i = mem i := if_neg (by omega)

/-- The same bytes in another place. -/
theorem load_shift (h : ∀ k < n, mem (offset + k) = mem' (offset' + k)) :
    load mem offset n = load mem' offset' n := by
  induction n with
  | zero => rfl
  | succ n ih =>
      unfold load
      rw [ih fun k hk => h k (by omega), h n (by omega)]

theorem load_congr (h : ∀ k < n, mem (offset + k) = mem' (offset + k)) :
    load mem offset n = load mem' offset n := load_shift h

theorem load_store : load (store mem offset n word) offset n = low n word := by
  apply BitVec.eq_of_getLsbD_eq
  intro k hk
  rw [getLsbD_load hk, getLsbD_low]
  by_cases hlt : k < 8 * n
  · have hbit : 8 * (k / 8) + k % 8 = k := Nat.div_add_mod k 8
    rw [store_byte (by omega), BitVec.getLsbD_extractLsb', hbit,
      decide_eq_true (Nat.mod_lt k (by omega)), Bool.true_and]
  · rw [decide_eq_false hlt, Bool.false_and, Bool.false_and]

/-- The upper part of a word, as read on its own. -/
theorem load_upper {m : Nat} (hn : m + n ≤ 8) :
    load mem (offset + m) n = load mem offset (m + n) >>> (8 * m) := by
  apply BitVec.eq_of_getLsbD_eq
  intro k hk
  rw [getLsbD_load hk, BitVec.getLsbD_ushiftRight]
  by_cases hlt : k < 8 * n
  · have hbyte : (8 * m + k) / 8 = m + k / 8 := by omega
    have hbit : (8 * m + k) % 8 = k % 8 := by omega
    rw [getLsbD_load (by omega), hbyte, hbit, ← Nat.add_assoc, decide_eq_true hlt,
      decide_eq_true (show 8 * m + k < 8 * (m + n) by omega)]
  · rw [decide_eq_false hlt, Bool.false_and]
    by_cases hout : 8 * m + k < 64
    · rw [getLsbD_load hout, decide_eq_false (by omega), Bool.false_and]
    · rw [BitVec.getLsbD_of_ge _ _ (by omega)]

/-- A store to the upper part keeps the lower one. -/
theorem load_store_upper {m : Nat} :
    load (store mem (offset + m) n word) offset (m + n) =
      low m (load mem offset (m + n)) ||| low n word <<< (8 * m) := by
  apply BitVec.eq_of_getLsbD_eq
  intro k hk
  rw [getLsbD_load hk, BitVec.getLsbD_or, getLsbD_low, BitVec.getLsbD_shiftLeft, getLsbD_low,
    getLsbD_load hk]
  by_cases hlower : k < 8 * m
  · have hlt : k < 8 * (m + n) := by omega
    rw [store_of_not_mem (by omega)]
    simp [hlower, hlt]
  · by_cases hlt : k < 8 * (m + n)
    · have hbyte : offset + k / 8 = offset + m + (k / 8 - m) := by omega
      have hbit : 8 * (k / 8 - m) + k % 8 = k - 8 * m := by omega
      have hin : k - 8 * m < 8 * n := by omega
      rw [hbyte, store_byte (by omega), BitVec.getLsbD_extractLsb', hbit]
      simp [hlower, hlt, hk, hin, Nat.mod_lt k (by omega : 8 > 0)]
    · have hout : ¬k - 8 * m < 8 * n := by omega
      simp [hlower, hlt, hout]

/-- Fields of up to eight bytes that do not overlap. -/
structure Layout (ι : Type) where
  offset : ι → Nat
  width : ι → Nat
  width_le : ∀ f, width f ≤ 8
  apart : ∀ f g, f ≠ g → offset f + width f ≤ offset g ∨ offset g + width g ≤ offset f

namespace Layout

variable {ι : Type} (layout : Layout ι)

def contents (mem : Memory) : ι → BitVec 64 := fun f => load mem (layout.offset f) (layout.width f)

variable [DecidableEq ι] {layout} {f : ι}

theorem contents_of_kept {new : BitVec 64} {lo hi : Nat}
    (hlo : layout.offset f ≤ lo) (hhi : hi ≤ layout.offset f + layout.width f)
    (hkept : ∀ i, i < lo ∨ hi ≤ i → mem' i = mem i)
    (hnew : load mem' (layout.offset f) (layout.width f) = new) :
    layout.contents mem' = Function.update (layout.contents mem) f new := by
  funext g
  by_cases heq : g = f
  · subst heq
    rw [Function.update_self]
    exact hnew
  · rw [Function.update_of_ne heq]
    apply load_congr
    intro k hk
    have hapart := layout.apart g f heq
    exact hkept _ (by omega)

theorem contents_store :
    layout.contents (store mem (layout.offset f) (layout.width f) word) =
      Function.update (layout.contents mem) f (low (layout.width f) word) :=
  contents_of_kept (Nat.le_refl _) (Nat.le_refl _) (fun _ h => store_of_not_mem h) load_store

theorem contents_store_upper {m : Nat} (hwidth : layout.width f = m + n) :
    layout.contents (store mem (layout.offset f + m) n word) =
      Function.update (layout.contents mem) f
        (low m (layout.contents mem f) ||| low n word <<< (8 * m)) := by
  have hle := layout.width_le f
  refine contents_of_kept (Nat.le_add_right _ m) (by omega) (fun _ h => store_of_not_mem h) ?_
  unfold contents
  rw [hwidth]
  exact load_store_upper

end Layout

end Words
