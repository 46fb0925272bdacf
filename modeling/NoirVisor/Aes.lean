import NoirVisor.Sizes
import Mathlib.Data.BitVec
import Mathlib.Data.Fin.Basic
import Mathlib.Logic.Function.Iterate
import Mathlib.Data.Fintype.EquivFin
import Mathlib.Data.Finite.Prod

/-!
# The AES block cipher

The cipher with keys of 128 bits, as the standard has it, and the instructions of processors for it. A
block is four words of four bytes, which are the columns of the state and the doublewords of a register.
-/

namespace Aes

abbrev Byte := BitVec 8
abbrev Word := Fin 4 → Byte
abbrev Block := Fin 4 → Word

/-! ### Bytes -/

/-- Multiplication by the indeterminate. -/
def xtime (b : Byte) : Byte := b <<< 1 ^^^ (if b.msb then 0x1B else 0)

/-- The multiples of `b` for the bits of `a`, added up. -/
def mul (a b : Byte) : Byte :=
  (List.range 8).foldl (fun sum i => if a.getLsbD i then sum ^^^ xtime^[i] b else sum) 0

/-- The substitution box. -/
def sboxTable : List Byte :=
  [0x63, 0x7C, 0x77, 0x7B, 0xF2, 0x6B, 0x6F, 0xC5, 0x30, 0x01, 0x67, 0x2B, 0xFE, 0xD7, 0xAB, 0x76,
   0xCA, 0x82, 0xC9, 0x7D, 0xFA, 0x59, 0x47, 0xF0, 0xAD, 0xD4, 0xA2, 0xAF, 0x9C, 0xA4, 0x72, 0xC0,
   0xB7, 0xFD, 0x93, 0x26, 0x36, 0x3F, 0xF7, 0xCC, 0x34, 0xA5, 0xE5, 0xF1, 0x71, 0xD8, 0x31, 0x15,
   0x04, 0xC7, 0x23, 0xC3, 0x18, 0x96, 0x05, 0x9A, 0x07, 0x12, 0x80, 0xE2, 0xEB, 0x27, 0xB2, 0x75,
   0x09, 0x83, 0x2C, 0x1A, 0x1B, 0x6E, 0x5A, 0xA0, 0x52, 0x3B, 0xD6, 0xB3, 0x29, 0xE3, 0x2F, 0x84,
   0x53, 0xD1, 0x00, 0xED, 0x20, 0xFC, 0xB1, 0x5B, 0x6A, 0xCB, 0xBE, 0x39, 0x4A, 0x4C, 0x58, 0xCF,
   0xD0, 0xEF, 0xAA, 0xFB, 0x43, 0x4D, 0x33, 0x85, 0x45, 0xF9, 0x02, 0x7F, 0x50, 0x3C, 0x9F, 0xA8,
   0x51, 0xA3, 0x40, 0x8F, 0x92, 0x9D, 0x38, 0xF5, 0xBC, 0xB6, 0xDA, 0x21, 0x10, 0xFF, 0xF3, 0xD2,
   0xCD, 0x0C, 0x13, 0xEC, 0x5F, 0x97, 0x44, 0x17, 0xC4, 0xA7, 0x7E, 0x3D, 0x64, 0x5D, 0x19, 0x73,
   0x60, 0x81, 0x4F, 0xDC, 0x22, 0x2A, 0x90, 0x88, 0x46, 0xEE, 0xB8, 0x14, 0xDE, 0x5E, 0x0B, 0xDB,
   0xE0, 0x32, 0x3A, 0x0A, 0x49, 0x06, 0x24, 0x5C, 0xC2, 0xD3, 0xAC, 0x62, 0x91, 0x95, 0xE4, 0x79,
   0xE7, 0xC8, 0x37, 0x6D, 0x8D, 0xD5, 0x4E, 0xA9, 0x6C, 0x56, 0xF4, 0xEA, 0x65, 0x7A, 0xAE, 0x08,
   0xBA, 0x78, 0x25, 0x2E, 0x1C, 0xA6, 0xB4, 0xC6, 0xE8, 0xDD, 0x74, 0x1F, 0x4B, 0xBD, 0x8B, 0x8A,
   0x70, 0x3E, 0xB5, 0x66, 0x48, 0x03, 0xF6, 0x0E, 0x61, 0x35, 0x57, 0xB9, 0x86, 0xC1, 0x1D, 0x9E,
   0xE1, 0xF8, 0x98, 0x11, 0x69, 0xD9, 0x8E, 0x94, 0x9B, 0x1E, 0x87, 0xE9, 0xCE, 0x55, 0x28, 0xDF,
   0x8C, 0xA1, 0x89, 0x0D, 0xBF, 0xE6, 0x42, 0x68, 0x41, 0x99, 0x2D, 0x0F, 0xB0, 0x54, 0xBB, 0x16]

def invSboxTable : List Byte :=
  [0x52, 0x09, 0x6A, 0xD5, 0x30, 0x36, 0xA5, 0x38, 0xBF, 0x40, 0xA3, 0x9E, 0x81, 0xF3, 0xD7, 0xFB,
   0x7C, 0xE3, 0x39, 0x82, 0x9B, 0x2F, 0xFF, 0x87, 0x34, 0x8E, 0x43, 0x44, 0xC4, 0xDE, 0xE9, 0xCB,
   0x54, 0x7B, 0x94, 0x32, 0xA6, 0xC2, 0x23, 0x3D, 0xEE, 0x4C, 0x95, 0x0B, 0x42, 0xFA, 0xC3, 0x4E,
   0x08, 0x2E, 0xA1, 0x66, 0x28, 0xD9, 0x24, 0xB2, 0x76, 0x5B, 0xA2, 0x49, 0x6D, 0x8B, 0xD1, 0x25,
   0x72, 0xF8, 0xF6, 0x64, 0x86, 0x68, 0x98, 0x16, 0xD4, 0xA4, 0x5C, 0xCC, 0x5D, 0x65, 0xB6, 0x92,
   0x6C, 0x70, 0x48, 0x50, 0xFD, 0xED, 0xB9, 0xDA, 0x5E, 0x15, 0x46, 0x57, 0xA7, 0x8D, 0x9D, 0x84,
   0x90, 0xD8, 0xAB, 0x00, 0x8C, 0xBC, 0xD3, 0x0A, 0xF7, 0xE4, 0x58, 0x05, 0xB8, 0xB3, 0x45, 0x06,
   0xD0, 0x2C, 0x1E, 0x8F, 0xCA, 0x3F, 0x0F, 0x02, 0xC1, 0xAF, 0xBD, 0x03, 0x01, 0x13, 0x8A, 0x6B,
   0x3A, 0x91, 0x11, 0x41, 0x4F, 0x67, 0xDC, 0xEA, 0x97, 0xF2, 0xCF, 0xCE, 0xF0, 0xB4, 0xE6, 0x73,
   0x96, 0xAC, 0x74, 0x22, 0xE7, 0xAD, 0x35, 0x85, 0xE2, 0xF9, 0x37, 0xE8, 0x1C, 0x75, 0xDF, 0x6E,
   0x47, 0xF1, 0x1A, 0x71, 0x1D, 0x29, 0xC5, 0x89, 0x6F, 0xB7, 0x62, 0x0E, 0xAA, 0x18, 0xBE, 0x1B,
   0xFC, 0x56, 0x3E, 0x4B, 0xC6, 0xD2, 0x79, 0x20, 0x9A, 0xDB, 0xC0, 0xFE, 0x78, 0xCD, 0x5A, 0xF4,
   0x1F, 0xDD, 0xA8, 0x33, 0x88, 0x07, 0xC7, 0x31, 0xB1, 0x12, 0x10, 0x59, 0x27, 0x80, 0xEC, 0x5F,
   0x60, 0x51, 0x7F, 0xA9, 0x19, 0xB5, 0x4A, 0x0D, 0x2D, 0xE5, 0x7A, 0x9F, 0x93, 0xC9, 0x9C, 0xEF,
   0xA0, 0xE0, 0x3B, 0x4D, 0xAE, 0x2A, 0xF5, 0xB0, 0xC8, 0xEB, 0xBB, 0x3C, 0x83, 0x53, 0x99, 0x61,
   0x17, 0x2B, 0x04, 0x7E, 0xBA, 0x77, 0xD6, 0x26, 0xE1, 0x69, 0x14, 0x63, 0x55, 0x21, 0x0C, 0x7D]

def sbox (b : Byte) : Byte := sboxTable.getD b.toNat 0

def invSbox (b : Byte) : Byte := invSboxTable.getD b.toNat 0

/-! ### The transformations of a block -/

def subBytes (b : Block) : Block := fun c r => sbox (b c r)

def invSubBytes (b : Block) : Block := fun c r => invSbox (b c r)

/-- Row `r` is shifted by `r` columns. -/
def shiftRows (b : Block) : Block := fun c r => b (c + r) r

def invShiftRows (b : Block) : Block := fun c r => b (c - r) r

def mixColumn (w : Word) : Word := fun r =>
  mul 2 (w r) ^^^ mul 3 (w (r + 1)) ^^^ w (r + 2) ^^^ w (r + 3)

def invMixColumn (w : Word) : Word := fun r =>
  mul 0xE (w r) ^^^ mul 0xB (w (r + 1)) ^^^ mul 0xD (w (r + 2)) ^^^ mul 9 (w (r + 3))

def mixColumns (b : Block) : Block := fun c => mixColumn (b c)

def invMixColumns (b : Block) : Block := fun c => invMixColumn (b c)

def addWord (w w' : Word) : Word := fun r => w r ^^^ w' r

def addRoundKey (b key : Block) : Block := fun c => addWord (b c) (key c)

/-! ### The expansion of a key and the cipher -/

def subWord (w : Word) : Word := fun r => sbox (w r)

def rotWord (w : Word) : Word := fun r => w (r + 1)

/-- A byte in the first place. -/
def firstByte (b : Byte) : Word := fun r => if r = 0 then b else 0

def rcon (i : Nat) : Word := firstByte (xtime^[i - 1] 1)

/-- The words of the expanded key. -/
def expandedWord (key : Block) (i : Nat) : Word :=
  if h : i < 4 then key ⟨i, h⟩
  else
    addWord (expandedWord key (i - 4))
      (if i % 4 = 0 then addWord (subWord (rotWord (expandedWord key (i - 1)))) (rcon (i / 4))
        else expandedWord key (i - 1))

def roundKey (key : Block) (i : Nat) : Block := fun c => expandedWord key (4 * i + c)

/-- The cipher of ten rounds. -/
def cipher (key block : Block) : Block :=
  let state := (List.range' 1 9).foldl
    (fun state i => addRoundKey (mixColumns (shiftRows (subBytes state))) (roundKey key i))
    (addRoundKey block (roundKey key 0))
  addRoundKey (shiftRows (subBytes state)) (roundKey key 10)

/-! ### The instructions -/

def aesenc (state key : Block) : Block := addRoundKey (mixColumns (subBytes (shiftRows state))) key

def aesenclast (state key : Block) : Block := addRoundKey (subBytes (shiftRows state)) key

def aesdec (state key : Block) : Block :=
  addRoundKey (invMixColumns (invSubBytes (invShiftRows state))) key

def aesdeclast (state key : Block) : Block := addRoundKey (invSubBytes (invShiftRows state)) key

def aesimc (key : Block) : Block := invMixColumns key

def pxor (dest src : Block) : Block := addRoundKey dest src

/-- The last doubleword and the second one are substituted, and for every other doubleword rotated. -/
def aeskeygenassist (src : Block) (imm : Byte) : Block := fun c =>
  match c with
  | 0 => subWord (src 1)
  | 1 => addWord (rotWord (subWord (src 1))) (firstByte imm)
  | 2 => subWord (src 3)
  | 3 => addWord (rotWord (subWord (src 3))) (firstByte imm)

/-- Two bits of an immediate byte. -/
def selector (imm : Byte) (i : Nat) : Fin 4 := Fin.ofNat 4 (imm.toNat / 4 ^ i)

def pshufd (src : Block) (imm : Byte) : Block := fun c => src (selector imm c)

/-- The lower half comes from the destination. -/
def shufps (dest src : Block) (imm : Byte) : Block := fun c =>
  if c.val < 2 then dest (selector imm c) else src (selector imm c)

/-! ### The inverse -/

theorem map_invSbox : sboxTable.map invSbox = (List.range 256).map (BitVec.ofNat 8) := by
  decide +kernel

theorem invSbox_sbox (b : Byte) : invSbox (sbox b) = b := by
  have hlt : b.toNat < 256 := b.isLt
  have hlength : sboxTable.length = 256 := by decide +kernel
  have hat : (sboxTable.map invSbox)[b.toNat]? = ((List.range 256).map (BitVec.ofNat 8))[b.toNat]? := by
    rw [map_invSbox]
  have hin : sboxTable[b.toNat]? = some (sbox b) := by
    rw [sbox, List.getD_eq_getElem?_getD, List.getElem?_eq_getElem (hlength ▸ hlt), Option.getD_some]
  rw [List.getElem?_map, List.getElem?_map, List.getElem?_range hlt, hin, Option.map_some,
    Option.map_some, Option.some_inj, BitVec.ofNat_toNat, BitVec.setWidth_eq] at hat
  exact hat

theorem xor_left_comm (a b c : Byte) : a ^^^ (b ^^^ c) = b ^^^ (a ^^^ c) := by
  rw [← BitVec.xor_assoc, BitVec.xor_comm a b, BitVec.xor_assoc]

theorem xor_xor_self (a b : Byte) : a ^^^ (a ^^^ b) = b := by
  rw [← BitVec.xor_assoc, BitVec.xor_self, BitVec.zero_xor]

theorem xtime_xor (a b : Byte) : xtime (a ^^^ b) = xtime a ^^^ xtime b := by
  unfold xtime
  rw [BitVec.shiftLeft_xor_distrib, BitVec.msb_xor]
  cases a.msb <;> cases b.msb <;>
    simp [BitVec.xor_assoc, BitVec.xor_comm, xor_left_comm]

theorem mul_two (a : Byte) : mul 2 a = xtime a := by simp [mul, List.range_succ]

theorem mul_three (a : Byte) : mul 3 a = a ^^^ xtime a := by simp [mul, List.range_succ]

theorem mul_nine (a : Byte) : mul 9 a = a ^^^ xtime (xtime (xtime a)) := by
  simp [mul, List.range_succ]

theorem mul_eleven (a : Byte) : mul 0xB a = a ^^^ xtime a ^^^ xtime (xtime (xtime a)) := by
  simp [mul, List.range_succ]

theorem mul_thirteen (a : Byte) : mul 0xD a = a ^^^ xtime (xtime a) ^^^ xtime (xtime (xtime a)) := by
  simp [mul, List.range_succ]

theorem mul_fourteen (a : Byte) :
    mul 0xE a = xtime a ^^^ xtime (xtime a) ^^^ xtime (xtime (xtime a)) := by
  simp [mul, List.range_succ]

theorem mul_xor (c a b : Byte) : mul c (a ^^^ b) = mul c a ^^^ mul c b := by
  have hiterate (i : Nat) : xtime^[i] (a ^^^ b) = xtime^[i] a ^^^ xtime^[i] b := by
    induction i generalizing a b with
    | zero => rfl
    | succ i ih => rw [Function.iterate_succ_apply, xtime_xor, ih]; rfl
  have hsum (is : List Nat) (x y : Byte) :
      is.foldl (fun sum i => if c.getLsbD i then sum ^^^ xtime^[i] (a ^^^ b) else sum) (x ^^^ y) =
        is.foldl (fun sum i => if c.getLsbD i then sum ^^^ xtime^[i] a else sum) x ^^^
          is.foldl (fun sum i => if c.getLsbD i then sum ^^^ xtime^[i] b else sum) y := by
    induction is generalizing x y with
    | nil => rfl
    | cons i is ih =>
        rw [List.foldl_cons, List.foldl_cons, List.foldl_cons]
        by_cases hi : c.getLsbD i = true
        · rw [if_pos hi, if_pos hi, if_pos hi, ← ih, hiterate]
          congr 1
          ac_rfl
        · rw [if_neg hi, if_neg hi, if_neg hi, ih]
  have hzero : (0 : Byte) = 0 ^^^ 0 := rfl
  unfold mul
  conv_lhs => rw [hzero]
  exact hsum _ 0 0

section Coefficients

variable (a : Byte)

/-- The coefficients of the two matrices. -/
theorem coefficient_same : mul 0xE (mul 2 a) ^^^ mul 0xB a ^^^ mul 0xD a ^^^ mul 9 (mul 3 a) = a := by
  simp only [mul_two, mul_three, mul_nine, mul_eleven, mul_thirteen, mul_fourteen, xtime_xor]
  simp [BitVec.xor_assoc, BitVec.xor_comm, xor_left_comm, xor_xor_self]

theorem coefficient_next : mul 0xE (mul 3 a) ^^^ mul 0xB (mul 2 a) ^^^ mul 0xD a ^^^ mul 9 a = 0#8 := by
  simp only [mul_two, mul_three, mul_nine, mul_eleven, mul_thirteen, mul_fourteen, xtime_xor]
  simp [BitVec.xor_assoc, BitVec.xor_comm, xor_left_comm, xor_xor_self]

theorem coefficient_opposite : mul 0xE a ^^^ mul 0xB (mul 3 a) ^^^ mul 0xD (mul 2 a) ^^^ mul 9 a = 0#8 := by
  simp only [mul_two, mul_three, mul_nine, mul_eleven, mul_thirteen, mul_fourteen, xtime_xor]
  simp [BitVec.xor_assoc, BitVec.xor_comm, xor_left_comm, xor_xor_self]

theorem coefficient_before : mul 0xE a ^^^ mul 0xB a ^^^ mul 0xD (mul 3 a) ^^^ mul 9 (mul 2 a) = 0#8 := by
  simp only [mul_two, mul_three, mul_nine, mul_eleven, mul_thirteen, mul_fourteen, xtime_xor]
  simp [BitVec.xor_assoc, BitVec.xor_comm, xor_left_comm, xor_xor_self]

end Coefficients

/-- The bytes of a column one by one. -/
theorem mixed_byte (a b c d : Byte) :
    mul 0xE (mul 2 a ^^^ mul 3 b ^^^ c ^^^ d) ^^^ mul 0xB (mul 2 b ^^^ mul 3 c ^^^ d ^^^ a) ^^^
      mul 0xD (mul 2 c ^^^ mul 3 d ^^^ a ^^^ b) ^^^ mul 9 (mul 2 d ^^^ mul 3 a ^^^ b ^^^ c) = a := by
  simp only [mul_xor]
  calc
    _ = (mul 0xE (mul 2 a) ^^^ mul 0xB a ^^^ mul 0xD a ^^^ mul 9 (mul 3 a)) ^^^
          (mul 0xE (mul 3 b) ^^^ mul 0xB (mul 2 b) ^^^ mul 0xD b ^^^ mul 9 b) ^^^
          (mul 0xE c ^^^ mul 0xB (mul 3 c) ^^^ mul 0xD (mul 2 c) ^^^ mul 9 c) ^^^
          (mul 0xE d ^^^ mul 0xB d ^^^ mul 0xD (mul 3 d) ^^^ mul 9 (mul 2 d)) := by ac_rfl
    _ = a := by
      rw [coefficient_same, coefficient_next, coefficient_opposite, coefficient_before,
        BitVec.xor_zero, BitVec.xor_zero, BitVec.xor_zero]

theorem invMixColumn_mixColumn (w : Word) : invMixColumn (mixColumn w) = w := by
  funext r
  have hplaces : r + 1 + 1 = r + 2 ∧ r + 1 + 2 = r + 3 ∧ r + 1 + 3 = r ∧ r + 2 + 1 = r + 3 ∧
      r + 2 + 2 = r ∧ r + 2 + 3 = r + 1 ∧ r + 3 + 1 = r ∧ r + 3 + 2 = r + 1 ∧ r + 3 + 3 = r + 2 := by
    revert r
    decide
  obtain ⟨h11, h12, h13, h21, h22, h23, h31, h32, h33⟩ := hplaces
  unfold invMixColumn mixColumn
  rw [h11, h12, h13, h21, h22, h23, h31, h32, h33]
  exact mixed_byte (w r) (w (r + 1)) (w (r + 2)) (w (r + 3))

theorem invMixColumn_addWord (w w' : Word) :
    invMixColumn (addWord w w') = addWord (invMixColumn w) (invMixColumn w') := by
  funext r
  simp only [invMixColumn, addWord, mul_xor]
  ac_rfl

theorem invMixColumns_mixColumns (b : Block) : invMixColumns (mixColumns b) = b :=
  funext fun c => invMixColumn_mixColumn (b c)

theorem invMixColumns_addRoundKey (b key : Block) :
    invMixColumns (addRoundKey b key) = addRoundKey (invMixColumns b) (invMixColumns key) :=
  funext fun c => invMixColumn_addWord (b c) (key c)

theorem addWord_addWord (w w' : Word) : addWord (addWord w w') w' = w := by
  funext r
  rw [addWord, addWord, BitVec.xor_assoc, BitVec.xor_self, BitVec.xor_zero]

theorem addWord_comm (w w' : Word) : addWord w w' = addWord w' w :=
  funext fun r => BitVec.xor_comm (w r) (w' r)

instance : Std.Commutative addWord := ⟨addWord_comm⟩

instance : Std.Associative addWord :=
  ⟨fun w w' w'' => funext fun r => BitVec.xor_assoc (w r) (w' r) (w'' r)⟩

theorem addRoundKey_addRoundKey (b key : Block) : addRoundKey (addRoundKey b key) key = b :=
  funext fun c => addWord_addWord (b c) (key c)

/-- The substitution with the shift, as every round has them. -/
def scramble (b : Block) : Block := subBytes (shiftRows b)

theorem unscramble (b : Block) : invSubBytes (invShiftRows (scramble b)) = b := by
  have hback : ∀ c r : Fin 4, c - r + r = c := by decide
  funext c r
  rw [invSubBytes, invShiftRows, scramble, subBytes, shiftRows, invSbox_sbox, hback]

/-- A round of the decryption with an inverted key undoes the round of the encryption before. -/
theorem aesdec_scramble (state key : Block) :
    aesdec (scramble (aesenc state key)) (aesimc key) = scramble state := by
  rw [aesdec, unscramble, aesenc, invMixColumns_addRoundKey, invMixColumns_mixColumns, aesimc,
    addRoundKey_addRoundKey]
  rfl

theorem foldl_aesdec (keys : List Block) (state : Block) :
    (keys.reverse.map aesimc).foldl aesdec (scramble (keys.foldl aesenc state)) = scramble state := by
  induction keys generalizing state with
  | nil => rfl
  | cons key keys ih =>
      rw [List.reverse_cons, List.map_append, List.foldl_append, List.foldl_cons, ih, List.map_singleton,
        List.foldl_cons, List.foldl_nil, aesdec_scramble]

/-- The instructions of an encryption with a first key, some in between and a last one. -/
def encryptWith (first : Block) (keys : List Block) (last block : Block) : Block :=
  aesenclast (keys.foldl aesenc (addRoundKey block first)) last

/-- Those of the decryption, with keys that are inverted already. -/
def decryptWith (first : Block) (keys : List Block) (last block : Block) : Block :=
  aesdeclast (keys.foldl aesdec (addRoundKey block first)) last

theorem decryptWith_encryptWith (first last block : Block) (keys : List Block) :
    decryptWith last (keys.reverse.map aesimc) first (encryptWith first keys last block) = block := by
  have hstart : addRoundKey (encryptWith first keys last block) last =
      scramble (keys.foldl aesenc (addRoundKey block first)) := addRoundKey_addRoundKey _ _
  rw [decryptWith, hstart, foldl_aesdec, aesdeclast, unscramble, addRoundKey_addRoundKey]

instance : Finite Byte := Finite.of_equiv _ BitVec.equivFin.symm.toEquiv

/-- On finitely many blocks what is undone is also done again. -/
theorem encryptWith_decryptWith (first last block : Block) (keys : List Block) :
    encryptWith first keys last (decryptWith last (keys.reverse.map aesimc) first block) = block := by
  have hinjective : Function.Injective (encryptWith first keys last) :=
    Function.LeftInverse.injective fun block => decryptWith_encryptWith first last block keys
  obtain ⟨plain, rfl⟩ := Finite.surjective_of_injective hinjective block
  rw [decryptWith_encryptWith]

theorem aesimc_injective : Function.Injective aesimc := by
  have hsurjective : Function.Surjective aesimc := fun b => ⟨mixColumns b, invMixColumns_mixColumns b⟩
  exact Finite.injective_iff_surjective.mpr hsurjective

/-- The cipher by the instructions. -/
theorem cipher_eq (key block : Block) : cipher key block =
    encryptWith (roundKey key 0) ((List.range' 1 9).map (roundKey key)) (roundKey key 10) block := by
  rw [encryptWith, List.foldl_map]
  rfl

/-! ### The words of a key after the other -/

theorem expandedWord_first (key : Block) (n : Nat) : expandedWord key (4 * (n + 1)) =
    addWord (expandedWord key (4 * n))
      (addWord (subWord (rotWord (expandedWord key (4 * n + 3)))) (rcon (n + 1))) := by
  rw [expandedWord, dif_neg (by omega), if_pos (by omega), show 4 * (n + 1) - 4 = 4 * n by omega,
    show 4 * (n + 1) - 1 = 4 * n + 3 by omega, show 4 * (n + 1) / 4 = n + 1 by omega]

theorem expandedWord_next (key : Block) {n c : Nat} (hpos : 0 < c) (hlt : c < 4) :
    expandedWord key (4 * (n + 1) + c) =
      addWord (expandedWord key (4 * n + c)) (expandedWord key (4 * (n + 1) + (c - 1))) := by
  rw [expandedWord, dif_neg (by omega), if_neg (by omega),
    show 4 * (n + 1) + c - 4 = 4 * n + c by omega,
    show 4 * (n + 1) + c - 1 = 4 * (n + 1) + (c - 1) by omega]

end Aes
