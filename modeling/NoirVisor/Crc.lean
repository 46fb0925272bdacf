import NoirVisor.Words
import Mathlib.Data.BitVec

/-!
# Cyclic redundancy checks

The remainder of a polynomial over the field of two elements is taken with the lowest bit first, by
shifting it out one bit at a time. Bytes are fed one by one, and the bytes of a word at once. A check is
of a memory, and two checks that have once differed never agree again.
-/

namespace Crc

variable {w v : Nat}

/-- One bit is shifted out of the remainder. -/
def shiftBit (poly x : BitVec w) : BitVec w := if x.getLsbD 0 then (x >>> 1) ^^^ poly else x >>> 1

def shift (poly : BitVec w) : Nat → BitVec w → BitVec w
  | 0, x => x
  | n + 1, x => shiftBit poly (shift poly n x)

def byte (poly crc : BitVec w) (b : BitVec 8) : BitVec w := shift poly 8 (crc ^^^ b.setWidth w)

def feed (poly crc : BitVec w) (mem : Words.Memory) : Nat → BitVec w
  | 0 => crc
  | n + 1 => byte poly (feed poly crc mem n) (mem n)

/-- The first steps of the long division of polynomials, with the highest bit first. -/
def reduce (poly : BitVec w) (degree : Nat) : Nat → BitVec w → BitVec w
  | 0, x => x
  | j + 1, x =>
      let y := reduce poly degree j x
      if y.getLsbD (w - 1 - j) then y ^^^ poly <<< (w - 1 - degree - j) else y

variable {poly x y : BitVec w} {m n : Nat}

theorem shiftBit_xor : shiftBit poly (x ^^^ y) = shiftBit poly x ^^^ shiftBit poly y := by
  apply BitVec.eq_of_getLsbD_eq
  intro i hi
  unfold shiftBit
  rw [BitVec.getLsbD_xor]
  cases x.getLsbD 0 <;> cases y.getLsbD 0 <;> simp [BitVec.getLsbD_xor] <;> grind

theorem shift_xor : shift poly n (x ^^^ y) = shift poly n x ^^^ shift poly n y := by
  induction n with
  | zero => rfl
  | succ n ih =>
      unfold shift
      rw [ih, shiftBit_xor]

theorem shift_add : shift poly (m + n) x = shift poly m (shift poly n x) := by
  induction m with
  | zero => rw [Nat.zero_add, shift]
  | succ m ih =>
      rw [Nat.succ_add, shift, shift, ih]

/-- Bits that are clear are shifted out without a change. -/
theorem shift_eq_ushiftRight (hclear : ∀ i < n, x.getLsbD i = false) : shift poly n x = x >>> n := by
  induction n with
  | zero => rw [shift, BitVec.ushiftRight_zero]
  | succ n ih =>
      have hbit : (x >>> n).getLsbD 0 = false := by
        rw [BitVec.getLsbD_ushiftRight]
        exact hclear n (Nat.lt_succ_self n)
      rw [shift, ih fun i hi => hclear i (by omega), shiftBit, if_neg (by rw [hbit]; exact nofun),
        BitVec.shiftRight_add]

/-- The leading term of the polynomial tells what was shifted out. -/
theorem shiftBit_injective (hpoly : poly.getLsbD (w - 1) = true) :
    Function.Injective (shiftBit poly) := by
  have hbit (z : BitVec w) : (shiftBit poly z).getLsbD (w - 1) = z.getLsbD 0 := by
    have hout : z.getLsbD (1 + (w - 1)) = false := BitVec.getLsbD_of_ge z _ (by omega)
    unfold shiftBit
    cases hzero : z.getLsbD 0 <;> simp [hout, hpoly]
  intro x y hsame
  have hzero : x.getLsbD 0 = y.getLsbD 0 := by rw [← hbit x, ← hbit y, hsame]
  apply BitVec.eq_of_getLsbD_eq
  intro i hi
  cases i with
  | zero => exact hzero
  | succ i =>
      have hat := congrArg (·.getLsbD i) hsame
      unfold shiftBit at hat
      rw [hzero] at hat
      cases hy : y.getLsbD 0 <;> rw [hy] at hat <;> simpa [Nat.add_comm 1 i] using hat

theorem shift_injective (hpoly : poly.getLsbD (w - 1) = true) (n : Nat) :
    Function.Injective (shift poly n) := by
  induction n with
  | zero => exact fun x y hsame => hsame
  | succ n ih => exact (shiftBit_injective hpoly).comp ih

theorem byte_injective (hpoly : poly.getLsbD (w - 1) = true) (b : BitVec 8) :
    Function.Injective (byte poly · b) := by
  intro x y hsame
  exact (BitVec.xor_left_inj _).mp (shift_injective hpoly 8 hsame)

theorem byte_injective_right (hw : 8 ≤ w) (hpoly : poly.getLsbD (w - 1) = true) (crc : BitVec w) :
    Function.Injective (byte poly crc) := by
  intro a b hsame
  have hwide := (BitVec.xor_right_inj _).mp (shift_injective hpoly 8 hsame)
  have hback := congrArg (BitVec.setWidth 8) hwide
  rwa [BitVec.setWidth_setWidth_of_le _ hw, BitVec.setWidth_setWidth_of_le _ hw, BitVec.setWidth_eq,
    BitVec.setWidth_eq] at hback

variable {crc : BitVec w} {mem mem' : Words.Memory}

theorem feed_congr (h : ∀ i < n, mem i = mem' i) : feed poly crc mem n = feed poly crc mem' n := by
  induction n with
  | zero => rfl
  | succ n ih =>
      unfold feed
      rw [ih fun i hi => h i (by omega), h n (Nat.lt_succ_self n)]

/-- A byte at a time, with a table of what eight shifts make of the lowest byte. -/
theorem byte_eq (b : BitVec 8) :
    byte poly crc b = shift poly 8 (((crc ^^^ b.setWidth w).setWidth 8).setWidth w) ^^^ crc >>> 8 := by
  generalize hlow : ((crc ^^^ b.setWidth w).setWidth 8).setWidth w = low
  have hsplit : crc ^^^ b.setWidth w = low ^^^ (crc >>> 8) <<< 8 := by
    subst hlow
    apply BitVec.eq_of_getLsbD_eq
    intro i hi
    simp only [BitVec.getLsbD_xor, BitVec.getLsbD_setWidth, BitVec.getLsbD_shiftLeft,
      BitVec.getLsbD_ushiftRight, hi, decide_true, Bool.true_and]
    by_cases hbyte : i < 8
    · simp [hbyte]
    · have hback : 8 + (i - 8) = i := by omega
      simp [hbyte, hback, BitVec.getLsbD_of_ge b i (by omega)]
  have hclear : ∀ i < 8, ((crc >>> 8) <<< 8).getLsbD i = false := by
    intro i hi
    simp [hi]
  have hback : (crc >>> 8) <<< 8 >>> 8 = crc >>> 8 := by
    apply BitVec.eq_of_getLsbD_eq
    intro i hi
    have hnot : ¬8 + i < 8 := by omega
    by_cases hin : 8 + i < w
    · simp [hin, hnot]
    · simp [hin, BitVec.getLsbD_of_ge crc (8 + i) (by omega)]
  rw [byte, hsplit, shift_xor, shift_eq_ushiftRight hclear, hback]

theorem feed_injective (hpoly : poly.getLsbD (w - 1) = true) (mem : Words.Memory) (n : Nat) :
    Function.Injective (feed poly · mem n) := by
  induction n with
  | zero => exact fun x y hsame => hsame
  | succ n ih => exact (byte_injective hpoly (mem n)).comp ih

theorem shift_zero : shift poly n 0 = 0 := by
  induction n with
  | zero => rfl
  | succ n ih =>
      rw [shift, ih]
      simp [shiftBit]

/-- A difference of two remainders is carried along whatever is fed to them. -/
theorem feed_xor : feed poly (crc ^^^ x) mem n = feed poly crc mem n ^^^ shift poly (8 * n) x := by
  induction n with
  | zero => rfl
  | succ n ih =>
      have hsteps : 8 * (n + 1) = 8 + 8 * n := by omega
      rw [feed, feed, ih, byte, byte, BitVec.xor_assoc, BitVec.xor_comm (shift poly (8 * n) x),
        ← BitVec.xor_assoc, shift_xor, ← shift_add, hsteps]

theorem feed_add : feed poly crc mem (m + n) =
    feed poly (feed poly crc mem m) (fun i => mem (m + i)) n := by
  induction n with
  | zero => rfl
  | succ n ih =>
      rw [← Nat.add_assoc, feed, ih, feed]

/-- A byte that is changed changes every check that it is fed to. -/
theorem feed_update_ne (hw : 8 ≤ w) (hpoly : poly.getLsbD (w - 1) = true) {i : Nat} (hi : i < n)
    {b : BitVec 8} (hb : b ≠ mem i) :
    feed poly crc (Function.update mem i b) n ≠ feed poly crc mem n := by
  obtain ⟨k, rfl⟩ := Nat.exists_eq_add_of_lt hi
  have hsplit (mem : Words.Memory) : feed poly crc mem (i + k + 1) =
      feed poly (byte poly (feed poly crc mem i) (mem i)) (fun j => mem (i + 1 + j)) k := by
    rw [Nat.add_right_comm, feed_add, feed]
  have htail (check : BitVec w) :
      feed poly check (fun j => Function.update mem i b (i + 1 + j)) k =
        feed poly check (fun j => mem (i + 1 + j)) k :=
    feed_congr fun j _ => Function.update_of_ne (by omega) _ _
  have hhead : feed poly crc (Function.update mem i b) i = feed poly crc mem i :=
    feed_congr fun j hj => Function.update_of_ne (by omega) _ _
  rw [hsplit, hsplit, htail, hhead, Function.update_self]
  intro hsame
  exact hb (byte_injective_right hw hpoly _ (feed_injective hpoly _ k hsame))

/-! The register of a remainder may be wider than the polynomial. -/

theorem shift_setWidth (hwv : w ≤ v) :
    shift (poly.setWidth v) n (x.setWidth v) = (shift poly n x).setWidth v := by
  induction n with
  | zero => rfl
  | succ n ih =>
      unfold shift
      rw [ih]
      generalize shift poly n x = y
      apply BitVec.eq_of_getLsbD_eq
      intro i hi
      have hzero : (y.setWidth v).getLsbD 0 = y.getLsbD 0 := by
        rw [BitVec.getLsbD_setWidth, decide_eq_true (by omega), Bool.true_and]
      have hnext : (y.setWidth v).getLsbD (1 + i) = y.getLsbD (1 + i) := by
        rw [BitVec.getLsbD_setWidth]
        by_cases hin : 1 + i < v
        · rw [decide_eq_true hin, Bool.true_and]
        · rw [decide_eq_false hin, Bool.false_and, BitVec.getLsbD_of_ge y _ (by omega)]
      unfold shiftBit
      rw [hzero]
      cases y.getLsbD 0 <;> simp [hi, hnext]

theorem load_setWidth (mem : Words.Memory) (offset : Nat) (hn : n < 8) (hv : 64 ≤ v) :
    (Words.load mem offset (n + 1)).setWidth v =
      (Words.load mem offset n).setWidth v ^^^ (mem (offset + n)).setWidth v <<< (8 * n) := by
  apply BitVec.eq_of_getLsbD_eq
  intro i hi
  rw [BitVec.getLsbD_xor, BitVec.getLsbD_setWidth, BitVec.getLsbD_setWidth,
    BitVec.getLsbD_shiftLeft, BitVec.getLsbD_setWidth]
  by_cases hword : i < 64
  · rw [Words.getLsbD_load hword, Words.getLsbD_load hword]
    by_cases hlow : i < 8 * n
    · have hlt : i < 8 * (n + 1) := by omega
      simp [hi, hlow, hlt]
    · by_cases hhere : i < 8 * (n + 1)
      · have hdiv : i / 8 = n := by omega
        have hmod : i - 8 * n = i % 8 := by omega
        have hsmall : i % 8 < v := by omega
        simp [hi, hlow, hhere, hdiv, hmod, hsmall]
      · have hout : 8 ≤ i - 8 * n := by omega
        simp [hlow, hhere, BitVec.getLsbD_of_ge _ _ hout]
  · have hout : 8 ≤ i - 8 * n := by omega
    simp [BitVec.getLsbD_of_ge _ _ (Nat.le_of_not_lt hword), BitVec.getLsbD_of_ge _ _ hout]

/-- The bytes of a word are fed at once, the lowest one first. -/
theorem shift_load (hw : 8 ≤ w) (hwv : w ≤ v) (hv : 64 ≤ v) (offset : Nat) (hn : n ≤ 8) :
    shift (poly.setWidth v) (8 * n) (crc.setWidth v ^^^ (Words.load mem offset n).setWidth v) =
      (feed poly crc (fun i => mem (offset + i)) n).setWidth v := by
  induction n with
  | zero => simp [Words.load, shift, feed]
  | succ n ih =>
      have hclear : ∀ i < 8 * n, ((mem (offset + n)).setWidth v <<< (8 * n)).getLsbD i = false := by
        intro i hi
        simp [hi]
      have hback : (mem (offset + n)).setWidth v <<< (8 * n) >>> (8 * n) =
          (mem (offset + n)).setWidth v := by
        apply BitVec.eq_of_getLsbD_eq
        intro i hi
        by_cases hbyte : i < 8
        · have hin : 8 * n + i < v := by omega
          have hnot : ¬8 * n + i < 8 * n := by omega
          simp [hin, hnot, hi]
        · simp [BitVec.getLsbD_of_ge _ _ (Nat.le_of_not_lt hbyte)]
      have hsteps : 8 * (n + 1) = 8 + 8 * n := by omega
      have hwide : (mem (offset + n)).setWidth v = ((mem (offset + n)).setWidth w).setWidth v := by
        apply BitVec.eq_of_getLsbD_eq
        intro i hi
        rw [BitVec.getLsbD_setWidth, BitVec.getLsbD_setWidth, BitVec.getLsbD_setWidth]
        by_cases hin : i < w
        · rw [decide_eq_true hin, Bool.true_and]
        · rw [BitVec.getLsbD_of_ge (mem (offset + n)) i (by omega), Bool.and_false, Bool.and_false,
            Bool.and_false]
      rw [load_setWidth mem offset (by omega) hv, ← BitVec.xor_assoc, hsteps, shift_add, shift_xor,
        ih (by omega), shift_eq_ushiftRight hclear, hback, hwide, ← BitVec.setWidth_xor,
        shift_setWidth hwv, feed, byte]

theorem reverse_xor : (x ^^^ y).reverse = x.reverse ^^^ y.reverse := by
  apply BitVec.eq_of_getLsbD_eq
  intro i hi
  rw [BitVec.getLsbD_xor, BitVec.getLsbD_reverse, BitVec.getLsbD_reverse, BitVec.getLsbD_reverse,
    BitVec.getMsbD_xor]

theorem reverse_setWidth_shiftLeft {s : Nat} (x : BitVec w) (hv : w + s = v) :
    ((x.reverse.setWidth v) <<< s).reverse = x.setWidth v := by
  apply BitVec.eq_of_getLsbD_eq
  intro i hi
  rw [BitVec.getLsbD_reverse, BitVec.getMsbD_eq_getLsbD, BitVec.getLsbD_shiftLeft,
    BitVec.getLsbD_setWidth, BitVec.getLsbD_setWidth, BitVec.getLsbD_reverse,
    BitVec.getMsbD_eq_getLsbD]
  by_cases hin : i < w
  · have hat : w - 1 - (v - 1 - i - s) = i := by omega
    have hlow : ¬v - 1 - i < s := by omega
    simp [hi, hlow, hat, (by omega : v - 1 - i < v), (by omega : v - 1 - i - s < w),
      (by omega : v - 1 - i - s < v)]
  · rw [BitVec.getLsbD_of_ge x i (by omega), decide_eq_true (by omega : v - 1 - i < s)]
    simp

theorem reverse_setWidth (x : BitVec v) (hwv : w ≤ v) :
    (x.setWidth w).reverse = (x.reverse >>> (v - w)).setWidth w := by
  apply BitVec.eq_of_getLsbD_eq
  intro i hi
  rw [BitVec.getLsbD_reverse, BitVec.getMsbD_eq_getLsbD, BitVec.getLsbD_setWidth,
    BitVec.getLsbD_setWidth, BitVec.getLsbD_ushiftRight, BitVec.getLsbD_reverse,
    BitVec.getMsbD_eq_getLsbD]
  have hat : v - 1 - (v - w + i) = w - 1 - i := by omega
  simp [hi, hat, (by omega : w - 1 - i < w), (by omega : v - w + i < v)]

/-- The register is read from its other end: the bits that were divided are shifted out of it. -/
theorem reverse_reduce {rpoly : BitVec w} {degree : Nat}
    (hpoly : ∀ i, rpoly.getLsbD i = (decide (i < degree) && poly.getLsbD (degree - 1 - i)))
    (hn : n + degree ≤ w) :
    (reduce poly degree n x).reverse >>> n = shift rpoly n x.reverse := by
  induction n with
  | zero => rw [reduce, shift, BitVec.ushiftRight_zero]
  | succ n ih =>
      have hlead : (shift rpoly n x.reverse).getLsbD 0 =
          (reduce poly degree n x).getLsbD (w - 1 - n) := by
        rw [← ih (by omega), BitVec.getLsbD_ushiftRight, BitVec.getLsbD_reverse,
          BitVec.getMsbD_eq_getLsbD, Nat.add_zero, decide_eq_true (by omega : n < w), Bool.true_and]
      have hterm : (poly <<< (w - 1 - degree - n)).reverse >>> (n + 1) = rpoly := by
        apply BitVec.eq_of_getLsbD_eq
        intro i hi
        rw [BitVec.getLsbD_ushiftRight, BitVec.getLsbD_reverse, BitVec.getMsbD_eq_getLsbD,
          BitVec.getLsbD_shiftLeft, hpoly]
        by_cases hin : i < degree
        · have hat : w - 1 - (n + 1 + i) - (w - 1 - degree - n) = degree - 1 - i := by omega
          have hlow : ¬w - 1 - (n + 1 + i) < w - 1 - degree - n := by omega
          rw [hat, decide_eq_true (by omega : n + 1 + i < w), decide_eq_false hlow,
            decide_eq_true (by omega : w - 1 - (n + 1 + i) < w), decide_eq_true hin]
          rfl
        · rw [decide_eq_false hin, Bool.false_and]
          by_cases hout : n + 1 + i < w
          · rw [decide_eq_true (by omega : w - 1 - (n + 1 + i) < w - 1 - degree - n)]
            simp
          · rw [decide_eq_false hout, Bool.false_and]
      rw [reduce, shift, shiftBit, hlead, ← ih (by omega), ← BitVec.shiftRight_add]
      cases (reduce poly degree n x).getLsbD (w - 1 - n) with
      | false => rfl
      | true =>
          rw [if_pos rfl, if_pos rfl, reverse_xor, BitVec.ushiftRight_xor_distrib, hterm]

end Crc
