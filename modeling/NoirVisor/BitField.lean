import Mathlib.Algebra.Group.Nat.Defs
import Mathlib.Data.Nat.Bits
import Mathlib.Tactic.Common

/-!
# Bit-fields of a word

A field is read and assigned on its own: an assignment changes the bits of the field and no others.
-/

namespace BitField

def get (word offset width : Nat) : Nat := word / 2 ^ offset % 2 ^ width

def set (word offset width value : Nat) : Nat :=
  word - get word offset width * 2 ^ offset + value % 2 ^ width * 2 ^ offset

variable {word offset offset' width width' value : Nat}

theorem set_eq :
    set word offset width value =
      2 ^ (offset + width) * (word / 2 ^ (offset + width)) +
        (2 ^ offset * (value % 2 ^ width) + word % 2 ^ offset) := by
  have hlow : word = 2 ^ offset * (word / 2 ^ offset) + word % 2 ^ offset :=
    (Nat.div_add_mod word (2 ^ offset)).symm
  have hhigh : word / 2 ^ offset =
      2 ^ width * (word / 2 ^ (offset + width)) + get word offset width := by
    rw [Nat.pow_add, ← Nat.div_div_eq_div_mul]
    exact (Nat.div_add_mod _ _).symm
  have hword : word = 2 ^ (offset + width) * (word / 2 ^ (offset + width)) +
      get word offset width * 2 ^ offset + word % 2 ^ offset := by
    calc
      word = 2 ^ offset * (word / 2 ^ offset) + word % 2 ^ offset := hlow
      _ = 2 ^ offset * (2 ^ width * (word / 2 ^ (offset + width)) + get word offset width) +
          word % 2 ^ offset := by rw [← hhigh]
      _ = _ := by rw [Nat.mul_add, ← Nat.mul_assoc, ← Nat.pow_add, Nat.mul_comm _ (get _ _ _)]
  unfold set
  rw [Nat.mul_comm (2 ^ offset) (value % 2 ^ width)]
  omega

theorem testBit_get {i : Nat} :
    (get word offset width).testBit i = (decide (i < width) && word.testBit (offset + i)) := by
  rw [get, Nat.testBit_mod_two_pow, Nat.testBit_div_two_pow, Nat.add_comm]

theorem testBit_set {i : Nat} :
    (set word offset width value).testBit i =
      if offset ≤ i ∧ i < offset + width then value.testBit (i - offset) else word.testBit i := by
  have hvalue : value % 2 ^ width < 2 ^ width := Nat.mod_lt _ (Nat.two_pow_pos _)
  have hlow : word % 2 ^ offset < 2 ^ offset := Nat.mod_lt _ (Nat.two_pow_pos _)
  have hfield : 2 ^ offset * (value % 2 ^ width) + word % 2 ^ offset < 2 ^ (offset + width) := by
    calc
      2 ^ offset * (value % 2 ^ width) + word % 2 ^ offset <
          2 ^ offset * (value % 2 ^ width) + 2 ^ offset := Nat.add_lt_add_left hlow _
      _ = 2 ^ offset * (value % 2 ^ width + 1) := by rw [Nat.mul_succ]
      _ ≤ 2 ^ offset * 2 ^ width := Nat.mul_le_mul_left _ hvalue
      _ = 2 ^ (offset + width) := (Nat.pow_add 2 offset width).symm
  rw [set_eq, Nat.testBit_two_pow_mul_add _ hfield, Nat.testBit_two_pow_mul_add _ hlow,
    Nat.testBit_mod_two_pow, Nat.testBit_mod_two_pow, Nat.testBit_div_two_pow]
  by_cases hin : offset ≤ i ∧ i < offset + width
  · have hnot : ¬i < offset := by omega
    have hlt : i - offset < width := by omega
    rw [if_pos hin.2, if_neg hnot, if_pos hin, decide_eq_true hlt, Bool.true_and]
  · rw [if_neg hin]
    by_cases hbelow : i < offset
    · have hlt : i < offset + width := by omega
      rw [if_pos hlt, if_pos hbelow, decide_eq_true hbelow, Bool.true_and]
    · have hnot : ¬i < offset + width := fun h => hin ⟨by omega, h⟩
      rw [if_neg hnot]
      congr 1
      omega

@[simp]
theorem get_set_self : get (set word offset width value) offset width = value % 2 ^ width := by
  apply Nat.eq_of_testBit_eq
  intro i
  rw [testBit_get, testBit_set, Nat.testBit_mod_two_pow, Nat.add_sub_cancel_left]
  by_cases hi : i < width
  · rw [if_pos ⟨by omega, by omega⟩]
  · rw [decide_eq_false hi, Bool.false_and, Bool.false_and]

theorem get_set_of_apart (h : offset + width ≤ offset' ∨ offset' + width' ≤ offset) :
    get (set word offset width value) offset' width' = get word offset' width' := by
  apply Nat.eq_of_testBit_eq
  intro i
  rw [testBit_get, testBit_get, testBit_set]
  by_cases hi : i < width'
  · rw [if_neg (by omega)]
  · rw [decide_eq_false hi, Bool.false_and, Bool.false_and]

end BitField
