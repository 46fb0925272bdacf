import NoirVisor.Aes
import Mathlib.Logic.Function.Basic
import Mathlib.Data.Fin.VecNotation
import Mathlib.Tactic.FinCases

/-!
# Encryption of pages

The keys of a secure guest are expanded, and its pages encrypted and decrypted, with the AES instructions
of the processor (`xpf_core/msvc/aes.asm`). Keys and expanded keys are read before a page is touched.
-/

namespace NoirVisor

open Aes

abbrev Xmm := Fin 16 → Block

namespace Xmm

/-- An instruction with a destination that is also its first source. -/
def apply (xmm : Xmm) (instruction : Block → Block → Block) (dest src : Fin 16) : Xmm :=
  Function.update xmm dest (instruction (xmm dest) (xmm src))

/-- The first registers are taken from the stack. -/
def restore (xmm saved : Xmm) (n : Nat) : Xmm := fun i => if i.val < n then saved i else xmm i

end Xmm

/-! ### The expansion of a key -/

def noirAes128KeyCombine (xmm : Xmm) (dest keygenAssist fw0 : Fin 16) : Xmm :=
  let xmm : Xmm := Function.update xmm keygenAssist (pshufd (xmm keygenAssist) 0b11111111)
  let xmm := xmm.apply (fun fw0 dest => shufps fw0 dest 0b00010000) fw0 dest
  let xmm := xmm.apply pxor dest fw0
  let xmm := xmm.apply (fun fw0 dest => shufps fw0 dest 0b10001100) fw0 dest
  let xmm := xmm.apply pxor dest fw0
  xmm.apply pxor dest keygenAssist

def noirAes128KeyExpand (xmm : Xmm) (dest : Fin 16) (roundConst : Byte) (roundKey : Fin 16)
    (invert : Bool) (fw0 keygenAssist : Fin 16) : Xmm :=
  let xmm : Xmm := Function.update xmm keygenAssist (aeskeygenassist (xmm roundKey) roundConst)
  let xmm := noirAes128KeyCombine xmm roundKey keygenAssist fw0
  Function.update xmm dest (if invert then aesimc (xmm roundKey) else xmm roundKey)

/-- The constants of the ten rounds, and whether their keys are inverted. -/
def keyRounds (invert : Bool) : List (Byte × Bool) :=
  [(1, invert), (2, invert), (4, invert), (8, invert), (16, invert), (32, invert), (64, invert),
    (128, invert), (27, invert), (54, false)]

/-- A round, with the key that it stores. -/
def keyRound (state : Xmm × List Block) (round : Byte × Bool) : Xmm × List Block :=
  let xmm := noirAes128KeyExpand state.1 3 round.1 0 round.2 2 1
  (xmm, state.2 ++ [xmm 3])

/-- The registers afterwards, and the expanded keys. -/
def noirAes128ExpandKey (xmm : Xmm) (key : Block) (expandEncrypt : Bool) : Xmm × List Block :=
  let state := (keyRounds !expandEncrypt).foldl keyRound (Function.update xmm 0 key, [])
  (Xmm.restore state.1 xmm 4, state.2)

/-! ### Pages -/

structure PageMemory where
  mapped : Nat → Bool
  bytes : Nat → Byte

namespace PageMemory

variable (memory : PageMemory)

def blockAt (address : Nat) : Block := fun c r => memory.bytes (address + 4 * c + r)

/-- `movaps` wants an aligned address. -/
def Accessible (address : Nat) : Prop :=
  address % 16 = 0 ∧ ∀ i < 16, memory.mapped (address + i) = true

instance (address : Nat) : Decidable (memory.Accessible address) :=
  inferInstanceAs (Decidable (_ ∧ _))

def load (address : Nat) : Option Block :=
  if memory.Accessible address then some (memory.blockAt address) else none

/-- The bytes with a block at this address. -/
def putBlock (address : Nat) (block : Block) : PageMemory where
  mapped := memory.mapped
  bytes := fun i =>
    if address ≤ i ∧ i < address + 16 then
      block (Fin.ofNat 4 ((i - address) / 4)) (Fin.ofNat 4 (i - address))
    else memory.bytes i

def store (address : Nat) (block : Block) : Option PageMemory :=
  if memory.Accessible address then some (memory.putBlock address block) else none

end PageMemory

inductive CryptOutcome where
  | done (xmm : Xmm) (memory : PageMemory)
  | fault
  | running

/-- The expanded keys are in the registers from the first on, and the key in the last. -/
def loadKeys (xmm : Xmm) (expandedKeys : List Block) (key : Block) : Xmm := fun i =>
  if i = 11 then key
  else if 1 ≤ i ∧ i ≤ 10 then expandedKeys.getD (i.val - 1) fun _ _ => 0
  else xmm i

def encryptRounds (xmm : Xmm) : Xmm :=
  let xmm := [1, 2, 3, 4, 5, 6, 7, 8, 9].foldl (fun (xmm : Xmm) src => xmm.apply aesenc 0 src)
    (xmm.apply pxor 0 11)
  xmm.apply aesenclast 0 10

def decryptRounds (xmm : Xmm) : Xmm :=
  let xmm := [9, 8, 7, 6, 5, 4, 3, 2, 1].foldl (fun (xmm : Xmm) src => xmm.apply aesdec 0 src)
    (xmm.apply pxor 0 10)
  xmm.apply aesdeclast 0 11

/-- The loop over the blocks, which ends where the offset is the size. -/
def cryptLoop (rounds : Xmm → Xmm) (base size : BitVec 64) :
    Nat → BitVec 64 → Xmm → PageMemory → CryptOutcome
  | 0, _, _, _ => .running
  | fuel + 1, rax, xmm, memory =>
      match memory.load (base + rax).toNat with
      | none => .fault
      | some block =>
          let xmm := rounds (Function.update xmm 0 block)
          match memory.store (base + rax).toNat (xmm 0) with
          | none => .fault
          | some memory =>
              if rax + 0x10 = size then .done xmm memory
              else cryptLoop rounds base size fuel (rax + 0x10) xmm memory

def cryptPages (rounds : Xmm → Xmm) (fuel : Nat) (xmm : Xmm) (memory : PageMemory)
    (pageBase : BitVec 64) (expandedKeys : List Block) (pages : BitVec 64) (key : Block) :
    CryptOutcome :=
  match cryptLoop rounds pageBase (pages <<< 12) fuel 0 (loadKeys xmm expandedKeys key) memory with
  | .done xmm' memory => .done (Xmm.restore xmm' xmm 12) memory
  | ended => ended

def noirAes128EncryptPages := cryptPages encryptRounds

def noirAes128DecryptPages := cryptPages decryptRounds

/-! ### What is expected of them -/

/-- So many pages from an aligned address on, inside of the address space. -/
structure PageRange where
  base : BitVec 64
  count : Nat
  aligned : base.toNat % 0x1000 = 0
  fits : base.toNat + count * 0x1000 ≤ 2 ^ 64

namespace PageRange

variable (pages : PageRange)

def Has (address : Nat) : Prop :=
  pages.base.toNat ≤ address ∧ address < pages.base.toNat + pages.count * 0x1000

instance (address : Nat) : Decidable (pages.Has address) := inferInstanceAs (Decidable (_ ∧ _))

def Mapped (memory : PageMemory) : Prop := ∀ address, pages.Has address → memory.mapped address = true

/-- Every block of the pages is transformed, and nothing else. -/
structure Transformed (f : Block → Block) (memory memory' : PageMemory) : Prop where
  mapped : memory'.mapped = memory.mapped
  blocks : ∀ k < 256 * pages.count,
    memory'.blockAt (pages.base.toNat + 16 * k) = f (memory.blockAt (pages.base.toNat + 16 * k))
  other : ∀ address, ¬pages.Has address → memory'.bytes address = memory.bytes address

/-- With keys that were expanded while the registers had these values: whatever the registers and the
memory are, the pages are encrypted, they are decrypted again, and the other way round. -/
structure Crypts (key : Block) (forEncryption forDecryption : Xmm) : Prop where
  registers : (noirAes128ExpandKey forEncryption key true).1 = forEncryption ∧
    (noirAes128ExpandKey forDecryption key false).1 = forDecryption
  encrypts : ∀ xmm memory, pages.Mapped memory → ∃ fuel memory',
    noirAes128EncryptPages fuel xmm memory pages.base (noirAes128ExpandKey forEncryption key true).2
      (BitVec.ofNat 64 pages.count) key = .done xmm memory' ∧
    pages.Transformed (cipher key) memory memory'
  decrypted : ∀ xmm memory memory', pages.Mapped memory → pages.Transformed (cipher key) memory memory' →
    ∃ fuel, noirAes128DecryptPages fuel xmm memory' pages.base
      (noirAes128ExpandKey forDecryption key false).2 (BitVec.ofNat 64 pages.count) key = .done xmm memory
  decrypts : ∀ xmm memory, pages.Mapped memory → ∃ fuel memory',
    noirAes128DecryptPages fuel xmm memory pages.base (noirAes128ExpandKey forDecryption key false).2
      (BitVec.ofNat 64 pages.count) key = .done xmm memory' ∧
    pages.Transformed (cipher key) memory' memory

end PageRange

/-- The lowest doubleword of the scratch register. -/
def Xmm.scratch (xmm : Xmm) : Word := xmm 2 0

def zeroWord : Word := fun _ => 0

/-- The keys of the rounds, the inner ones inverted for the decryption. -/
def standardKeys (key : Block) (expandEncrypt : Bool) : List Block :=
  (List.range' 0 10).map fun i =>
    if !expandEncrypt && decide (i < 9) then aesimc (roundKey key (i + 1)) else roundKey key (i + 1)

section Expansion

variable {xmm : Xmm} {key : Block} {roundConst : Byte} {invert : Bool} {scratch : Word} {n : Nat}

/-- The next key, with a doubleword that is added to two of its words. -/
def nextKeyWith (scratch : Word) (roundConst : Byte) (key : Block) : Block := fun c =>
  let first := addWord (key 0) (addWord (rotWord (subWord (key 3))) (firstByte roundConst))
  match c with
  | 0 => first
  | 1 => addWord (addWord (key 1) first) scratch
  | 2 => addWord (addWord (key 2) (addWord (key 1) first)) scratch
  | 3 => addWord (key 3) (addWord (key 2) (addWord (key 1) first))

theorem pshufd_last (src : Block) (c : Fin 4) : pshufd src 0b11111111 c = src 3 := by
  fin_cases c <;> rfl

theorem shufps_first (dest src : Block) : shufps dest src 0b00010000 = ![dest 0, dest 0, src 1, src 0] := by
  funext c
  fin_cases c <;> rfl

theorem shufps_second (dest src : Block) : shufps dest src 0b10001100 = ![dest 0, dest 3, src 0, src 2] := by
  funext c
  fin_cases c <;> rfl

/-- What is added to the key, one after the other. -/
theorem keyExpand_registers : noirAes128KeyExpand xmm 3 roundConst 0 invert 2 1 0 =
    let first := shufps (xmm 2) (xmm 0) 0b00010000
    pxor (pxor (pxor (xmm 0) first) (shufps first (pxor (xmm 0) first) 0b10001100))
      (pshufd (aeskeygenassist (xmm 0) roundConst) 0b11111111) := by
  simp [noirAes128KeyExpand, noirAes128KeyCombine, Xmm.apply, Function.update]

/-- The shuffles add every word to those after it. -/
theorem keyExpand_key :
    noirAes128KeyExpand xmm 3 roundConst 0 invert 2 1 0 = nextKeyWith xmm.scratch roundConst (xmm 0) := by
  rw [keyExpand_registers]
  simp only [shufps_first, shufps_second]
  have hassist : aeskeygenassist (xmm 0) roundConst 3 =
      addWord (rotWord (subWord (xmm 0 3))) (firstByte roundConst) := rfl
  funext c
  simp only [pxor, addRoundKey, pshufd_last, hassist, nextKeyWith, Xmm.scratch]
  generalize addWord (rotWord (subWord (xmm 0 3))) (firstByte roundConst) = assist
  fin_cases c
  · show addWord (addWord (addWord (xmm 0 0) (xmm 2 0)) (xmm 2 0)) assist = addWord (xmm 0 0) assist
    rw [addWord_addWord]
  · show addWord (addWord (addWord (xmm 0 1) (xmm 2 0)) (xmm 0 0)) assist =
      addWord (addWord (xmm 0 1) (addWord (xmm 0 0) assist)) (xmm 2 0)
    ac_rfl
  · show addWord (addWord (addWord (xmm 0 2) (xmm 0 1)) (addWord (xmm 0 0) (xmm 2 0))) assist =
      addWord (addWord (xmm 0 2) (addWord (xmm 0 1) (addWord (xmm 0 0) assist))) (xmm 2 0)
    ac_rfl
  · show addWord (addWord (addWord (xmm 0 3) (xmm 0 0)) (addWord (xmm 0 2) (xmm 0 1))) assist =
      addWord (xmm 0 3) (addWord (xmm 0 2) (addWord (xmm 0 1) (addWord (xmm 0 0) assist)))
    ac_rfl

/-- The lowest doubleword of the scratch register stays where it is. -/
theorem keyExpand_scratch :
    (noirAes128KeyExpand xmm 3 roundConst 0 invert 2 1).scratch = xmm.scratch := by
  simp [noirAes128KeyExpand, noirAes128KeyCombine, Xmm.apply, Xmm.scratch, Function.update, shufps, selector]

theorem keyExpand_stored : noirAes128KeyExpand xmm 3 roundConst 0 invert 2 1 3 =
    if invert then aesimc (noirAes128KeyExpand xmm 3 roundConst 0 invert 2 1 0)
    else noirAes128KeyExpand xmm 3 roundConst 0 invert 2 1 0 := by
  simp [noirAes128KeyExpand]

theorem keyExpand_other {i : Fin 16} (hi : 4 ≤ i.val) :
    noirAes128KeyExpand xmm 3 roundConst 0 invert 2 1 i = xmm i := by
  have hne : i ≠ 0 ∧ i ≠ 1 ∧ i ≠ 2 ∧ i ≠ 3 := by
    refine ⟨?_, ?_, ?_, ?_⟩ <;> rintro rfl <;> exact absurd hi (by decide)
  simp [noirAes128KeyExpand, noirAes128KeyCombine, Xmm.apply, Function.update, hne]

/-- The keys that the rounds store. -/
def keysFrom (scratch : Word) : Block → List (Byte × Bool) → List Block
  | _, [] => []
  | key, (roundConst, invert) :: rounds =>
      let next := nextKeyWith scratch roundConst key
      (if invert then aesimc next else next) :: keysFrom scratch next rounds

theorem foldl_keyRound (rounds : List (Byte × Bool)) (xmm : Xmm) (keys : List Block) :
    (rounds.foldl keyRound (xmm, keys)).2 = keys ++ keysFrom xmm.scratch (xmm 0) rounds ∧
      ∀ i : Fin 16, 4 ≤ i.val → (rounds.foldl keyRound (xmm, keys)).1 i = xmm i := by
  induction rounds generalizing xmm keys with
  | nil => exact ⟨(List.append_nil keys).symm, fun i _ => rfl⟩
  | cons round rounds ih =>
      obtain ⟨roundConst, invert⟩ := round
      obtain ⟨hkeys, hother⟩ := ih (noirAes128KeyExpand xmm 3 roundConst 0 invert 2 1)
        (keys ++ [noirAes128KeyExpand xmm 3 roundConst 0 invert 2 1 3])
      rw [List.foldl_cons, keyRound]
      refine ⟨?_, fun i hi => (hother i hi).trans (keyExpand_other hi)⟩
      rw [hkeys, keysFrom, keyExpand_scratch, keyExpand_stored, keyExpand_key, List.append_assoc]
      rfl

/-- The registers are as they were, and the keys follow from the scratch register. -/
theorem expandKey_registers (expandEncrypt : Bool) :
    (noirAes128ExpandKey xmm key expandEncrypt).1 = xmm := by
  obtain ⟨-, hother⟩ := foldl_keyRound (keyRounds !expandEncrypt) (Function.update xmm 0 key) []
  funext i
  by_cases hi : i.val < 4
  · exact if_pos hi
  · have hne : i ≠ 0 := fun hzero => hi (hzero ▸ by decide)
    refine (if_neg hi).trans ((hother i (Nat.not_lt.mp hi)).trans ?_)
    exact Function.update_of_ne hne _ _

theorem expandKey_keys (expandEncrypt : Bool) :
    (noirAes128ExpandKey xmm key expandEncrypt).2 = keysFrom xmm.scratch key (keyRounds !expandEncrypt) := by
  obtain ⟨hkeys, -⟩ := foldl_keyRound (keyRounds !expandEncrypt) (Function.update xmm 0 key) []
  refine hkeys.trans ?_
  rw [Function.update_self, List.nil_append, Xmm.scratch, Function.update_of_ne (by decide)]
  rfl

/-! ### The keys of the standard -/

theorem addWord_zero (w : Word) : addWord w zeroWord = w := funext fun _ => BitVec.xor_zero

theorem addWord_eq_self_iff {w w' : Word} : addWord w w' = w ↔ w' = zeroWord := by
  constructor
  · intro h
    have hcancel : addWord (addWord w' w) w = w' := addWord_addWord w' w
    rw [addWord_comm w' w, h] at hcancel
    rw [← hcancel]
    exact funext fun r => BitVec.xor_self
  · rintro rfl
    exact addWord_zero w

theorem roundKey_zero : roundKey key 0 = key := by
  funext c
  rw [roundKey, Nat.mul_zero, Nat.zero_add, expandedWord, dif_pos c.isLt]

theorem nextKeyWith_zero (n : Nat) :
    nextKeyWith zeroWord (xtime^[n] 1) (roundKey key n) = roundKey key (n + 1) := by
  have hfirst : roundKey key (n + 1) 0 = addWord (roundKey key n 0)
      (addWord (rotWord (subWord (roundKey key n 3))) (firstByte (xtime^[n] 1))) :=
    expandedWord_first key n
  have hnext (c : Fin 4) (hc : 0 < c.val) : roundKey key (n + 1) c =
      addWord (roundKey key n c) (expandedWord key (4 * (n + 1) + (c - 1))) :=
    expandedWord_next key hc c.isLt
  have hone : roundKey key (n + 1) 1 = addWord (roundKey key n 1) (roundKey key (n + 1) 0) :=
    hnext 1 (by decide)
  have htwo : roundKey key (n + 1) 2 = addWord (roundKey key n 2) (roundKey key (n + 1) 1) :=
    hnext 2 (by decide)
  have hthree : roundKey key (n + 1) 3 = addWord (roundKey key n 3) (roundKey key (n + 1) 2) :=
    hnext 3 (by decide)
  funext c
  unfold nextKeyWith
  rw [← hfirst]
  simp only [addWord_zero, ← hone, ← htwo, ← hthree]
  fin_cases c <;> rfl

theorem keysFrom_zero (key : Block) (inverted : Nat → Bool) (m n : Nat) :
    keysFrom zeroWord (roundKey key n) ((List.range' n m).map fun i => (xtime^[i] 1, inverted i)) =
      (List.range' n m).map fun i =>
        if inverted i then aesimc (roundKey key (i + 1)) else roundKey key (i + 1) := by
  induction m generalizing n with
  | zero => rfl
  | succ m ih =>
      rw [List.range'_succ, List.map_cons, List.map_cons, keysFrom, nextKeyWith_zero, ih]

theorem keyRounds_eq : keyRounds invert =
    (List.range' 0 10).map fun i => (xtime^[i] 1, invert && decide (i < 9)) := by
  cases invert <;> decide

theorem keysFrom_zeroWord (key : Block) (expandEncrypt : Bool) :
    keysFrom zeroWord key (keyRounds !expandEncrypt) = standardKeys key expandEncrypt := by
  have hkey : roundKey key 0 = key := roundKey_zero
  have hkeys := keysFrom_zero key (fun i => !expandEncrypt && decide (i < 9)) 10 0
  rw [hkey] at hkeys
  rw [keyRounds_eq]
  exact hkeys

theorem expandKey_of_zero (h : xmm.scratch = zeroWord) (expandEncrypt : Bool) :
    (noirAes128ExpandKey xmm key expandEncrypt).2 = standardKeys key expandEncrypt := by
  rw [expandKey_keys, h, keysFrom_zeroWord]

/-- The keys are right exactly if the scratch register had zeroes. -/
theorem expandKey_iff (expandEncrypt : Bool) :
    (noirAes128ExpandKey xmm key expandEncrypt).2 = standardKeys key expandEncrypt ↔
      xmm.scratch = zeroWord := by
  refine ⟨fun h => ?_, fun h => expandKey_of_zero h expandEncrypt⟩
  rw [expandKey_keys] at h
  have hright : nextKeyWith zeroWord 1 key = roundKey key 1 := by
    have hnext : nextKeyWith zeroWord 1 (roundKey key 0) = roundKey key 1 := nextKeyWith_zero 0
    rw [roundKey_zero] at hnext
    exact hnext
  have hfirst : nextKeyWith xmm.scratch 1 key = roundKey key 1 := by
    cases expandEncrypt with
    | true => exact (List.cons_eq_cons.mp h).1
    | false => exact aesimc_injective (List.cons_eq_cons.mp h).1
  have hword := congrFun (hfirst.trans hright.symm) 1
  unfold nextKeyWith at hword
  simp only [addWord_zero] at hword
  exact addWord_eq_self_iff.mp hword

end Expansion

section Rounds

variable {xmm loaded : Xmm} {key block : Block}

/-- Instructions on the first register. -/
theorem foldl_apply (instruction : Block → Block → Block) (srcs : List (Fin 16))
    (hsrcs : ∀ src ∈ srcs, src ≠ 0) :
    srcs.foldl (fun (xmm : Xmm) src => xmm.apply instruction 0 src) (Function.update loaded 0 block) =
      Function.update loaded 0 ((srcs.map loaded).foldl instruction block) := by
  induction srcs generalizing block with
  | nil => rfl
  | cons src srcs ih =>
      have hsrc : src ≠ 0 := hsrcs src List.mem_cons_self
      rw [List.foldl_cons, Xmm.apply, Function.update_self, Function.update_of_ne hsrc,
        Function.update_idem, ih fun other hother => hsrcs other (List.mem_cons_of_mem _ hother)]
      rfl

theorem apply_update (instruction : Block → Block → Block) {src : Fin 16} (hsrc : src ≠ 0) :
    Xmm.apply (Function.update loaded 0 block) instruction 0 src =
      Function.update loaded 0 (instruction block (loaded src)) :=
  foldl_apply instruction [src] fun _ hother => List.mem_singleton.mp hother ▸ hsrc

theorem encryptRounds_update : encryptRounds (Function.update loaded 0 block) =
    Function.update loaded 0 (encryptWith (loaded 11) ([1, 2, 3, 4, 5, 6, 7, 8, 9].map loaded)
      (loaded 10) block) := by
  unfold encryptRounds
  rw [apply_update pxor (by decide), foldl_apply aesenc _ (by decide),
    apply_update aesenclast (by decide)]
  rfl

theorem decryptRounds_update : decryptRounds (Function.update loaded 0 block) =
    Function.update loaded 0 (decryptWith (loaded 10) ([9, 8, 7, 6, 5, 4, 3, 2, 1].map loaded)
      (loaded 11) block) := by
  unfold decryptRounds
  rw [apply_update pxor (by decide), foldl_apply aesdec _ (by decide),
    apply_update aesdeclast (by decide)]
  rfl

/-- The inverse of the cipher. -/
def decipher (key block : Block) : Block :=
  decryptWith (roundKey key 10) (((List.range' 1 9).map (roundKey key)).reverse.map aesimc)
    (roundKey key 0) block

theorem decipher_cipher (key block : Block) : decipher key (cipher key block) = block := by
  rw [cipher_eq]
  exact decryptWith_encryptWith _ _ _ _

theorem cipher_decipher (key block : Block) : cipher key (decipher key block) = block := by
  rw [cipher_eq]
  exact encryptWith_decryptWith _ _ _ _

/-- What the encryption makes of a block with the keys that a scratch register leads to. -/
def encryptedBy (scratch : Word) (key block : Block) : Block :=
  let keys := keysFrom scratch key (keyRounds false)
  encryptWith key (keys.take 9) (keys.getD 9 fun _ _ => 0) block

theorem encryptRounds_loadKeys (key : Block) {expansion : Xmm} :
    encryptRounds (Function.update (loadKeys xmm (noirAes128ExpandKey expansion key true).2 key) 0 block) =
      Function.update (loadKeys xmm (noirAes128ExpandKey expansion key true).2 key) 0
        (encryptedBy expansion.scratch key block) := by
  rw [encryptRounds_update, expandKey_keys]
  rfl

theorem encryptedBy_zeroWord (key : Block) : encryptedBy zeroWord key = cipher key := by
  funext block
  have hkeys : keysFrom zeroWord key (keyRounds false) = standardKeys key true :=
    keysFrom_zeroWord key true
  rw [cipher_eq, roundKey_zero, encryptedBy, hkeys]
  rfl

theorem decryptRounds_loadKeys (key : Block) {expansion : Xmm} (h : expansion.scratch = zeroWord) :
    decryptRounds (Function.update (loadKeys xmm (noirAes128ExpandKey expansion key false).2 key) 0 block) =
      Function.update (loadKeys xmm (noirAes128ExpandKey expansion key false).2 key) 0
        (decipher key block) := by
  rw [decryptRounds_update, decipher, roundKey_zero, expandKey_of_zero h]
  rfl

end Rounds

namespace PageMemory

variable {memory memory' : PageMemory} {f g : Block → Block} {lo j k : Nat}

/-- The first blocks from an address on are transformed. -/
def crypted (memory : PageMemory) (f : Block → Block) (lo k : Nat) : PageMemory where
  mapped := memory.mapped
  bytes := fun i =>
    if lo ≤ i ∧ i < lo + 16 * k then
      f (memory.blockAt (lo + 16 * ((i - lo) / 16))) (Fin.ofNat 4 ((i - lo) % 16 / 4))
        (Fin.ofNat 4 ((i - lo) % 16))
    else memory.bytes i

theorem crypted_zero : memory.crypted f lo 0 = memory := by
  have hbytes : (memory.crypted f lo 0).bytes = memory.bytes := funext fun i => if_neg (by omega)
  exact congrArg (PageMemory.mk memory.mapped) hbytes

/-- A byte by its place in its block. -/
theorem bytes_eq {i : Nat} (h : lo ≤ i) : memory.bytes i =
    memory.blockAt (lo + 16 * ((i - lo) / 16)) (Fin.ofNat 4 ((i - lo) % 16 / 4))
      (Fin.ofNat 4 ((i - lo) % 16)) := by
  unfold blockAt
  congr 1
  simp only [Fin.val_ofNat]
  omega

theorem blockAt_crypted (h : j < k) :
    (memory.crypted f lo k).blockAt (lo + 16 * j) = f (memory.blockAt (lo + 16 * j)) := by
  funext c r
  have hplace : lo + 16 * j + 4 * c.val + r.val - lo = 16 * j + (4 * c.val + r.val) := by omega
  have hblock : (16 * j + (4 * c.val + r.val)) / 16 = j := by omega
  have hbyte : (16 * j + (4 * c.val + r.val)) % 16 = 4 * c.val + r.val := by omega
  have hcolumn : Fin.ofNat 4 ((4 * c.val + r.val) / 4) = c := Fin.ext (by simp only [Fin.val_ofNat]; omega)
  have hrow : Fin.ofNat 4 (4 * c.val + r.val) = r := Fin.ext (by simp only [Fin.val_ofNat]; omega)
  unfold blockAt crypted
  simp only
  rw [if_pos (by omega), hplace, hblock, hbyte, hcolumn, hrow]
  rfl

theorem blockAt_crypted_of_le (h : k ≤ j) :
    (memory.crypted f lo k).blockAt (lo + 16 * j) = memory.blockAt (lo + 16 * j) := by
  funext c r
  exact if_neg (by omega)

theorem putBlock_crypted :
    (memory.crypted f lo k).putBlock (lo + 16 * k) (f (memory.blockAt (lo + 16 * k))) =
      memory.crypted f lo (k + 1) := by
  refine congrArg (PageMemory.mk memory.mapped) (funext fun i => ?_)
  simp only [crypted]
  by_cases hhere : lo + 16 * k ≤ i ∧ i < lo + 16 * k + 16
  · have hblock : (i - lo) / 16 = k := by omega
    have hbyte : (i - lo) % 16 = i - (lo + 16 * k) := by omega
    rw [if_pos hhere, if_pos (by omega), hblock, hbyte]
  · rw [if_neg hhere]
    exact if_congr (by omega) rfl rfl

end PageMemory

namespace PageRange

variable {pages : PageRange} {memory memory' : PageMemory} {f g : Block → Block}

theorem transformed_crypted : pages.Transformed f memory
    (memory.crypted f pages.base.toNat (256 * pages.count)) where
  mapped := rfl
  blocks := fun _ hk => PageMemory.blockAt_crypted hk
  other := by
    intro address hnot
    refine if_neg fun hin => hnot ⟨hin.1, ?_⟩
    have hbelow := hin.2
    omega

/-- The other way round. -/
theorem Transformed.symm (h : pages.Transformed g memory memory') (hinverse : ∀ block, f (g block) = block) :
    pages.Transformed f memory' memory where
  mapped := h.mapped.symm
  blocks := fun k hk => by rw [h.blocks k hk, hinverse]
  other := fun address hnot => (h.other address hnot).symm

/-- The inverse transformation of all blocks gives the memory back. -/
theorem Transformed.crypted (h : pages.Transformed f memory memory') (hinverse : ∀ block, g (f block) = block) :
    memory'.crypted g pages.base.toNat (256 * pages.count) = memory := by
  have hbytes : (memory'.crypted g pages.base.toNat (256 * pages.count)).bytes = memory.bytes := by
    funext i
    unfold PageMemory.crypted
    simp only
    split
    · next hin =>
        rw [h.blocks _ (by omega), hinverse]
        exact (PageMemory.bytes_eq hin.1).symm
    · next hnot =>
        refine h.other i fun hin => hnot ⟨hin.1, ?_⟩
        have hbelow := hin.2
        omega
  have hmapped : (memory'.crypted g pages.base.toNat (256 * pages.count)).mapped = memory.mapped :=
    h.mapped
  exact congrArg₂ PageMemory.mk hmapped hbytes

theorem address_eq {k : Nat} (hk : k < 256 * pages.count) :
    (pages.base + BitVec.ofNat 64 (16 * k)).toNat = pages.base.toNat + 16 * k := by
  have hfits := pages.fits
  rw [BitVec.toNat_add, BitVec.toNat_ofNat]
  omega

/-- The offset is the size after the last block, and not before. -/
theorem offset_eq_size_iff {k : Nat} (hk : k < 256 * pages.count) :
    BitVec.ofNat 64 (16 * k) + (0x10 : BitVec 64) = BitVec.ofNat 64 pages.count <<< 12 ↔
      k + 1 = 256 * pages.count := by
  have hfits := pages.fits
  rw [← BitVec.toNat_inj, BitVec.toNat_add, BitVec.toNat_shiftLeft, BitVec.toNat_ofNat, BitVec.toNat_ofNat,
    Nat.shiftLeft_eq]
  have hsixteen : (0x10 : BitVec 64).toNat = 16 := rfl
  rw [hsixteen]
  omega

variable {rounds : Xmm → Xmm} {loaded : Xmm}

theorem accessible {k : Nat} (hmapped : pages.Mapped memory) (hk : k < 256 * pages.count) :
    memory.Accessible (pages.base.toNat + 16 * k) := by
  have haligned := pages.aligned
  exact ⟨by omega, fun i hi => hmapped _ ⟨by omega, by omega⟩⟩

/-- What the loop does with one block. -/
theorem cryptLoop_succ (hmapped : pages.Mapped memory)
    (hrounds : ∀ block, rounds (Function.update loaded 0 block) = Function.update loaded 0 (f block))
    {fuel k : Nat} (hk : k < 256 * pages.count) (block : Block) :
    cryptLoop rounds pages.base (BitVec.ofNat 64 pages.count <<< 12) (fuel + 1)
        (BitVec.ofNat 64 (16 * k)) (Function.update loaded 0 block)
        (memory.crypted f pages.base.toNat k) =
      let xmm : Xmm := Function.update loaded 0 (f (memory.blockAt (pages.base.toNat + 16 * k)))
      if k + 1 = 256 * pages.count then .done xmm (memory.crypted f pages.base.toNat (k + 1))
      else cryptLoop rounds pages.base (BitVec.ofNat 64 pages.count <<< 12) fuel
        (BitVec.ofNat 64 (16 * (k + 1))) xmm (memory.crypted f pages.base.toNat (k + 1)) := by
  have hhere : (memory.crypted f pages.base.toNat k).Accessible (pages.base.toNat + 16 * k) :=
    accessible hmapped hk
  have hload : (memory.crypted f pages.base.toNat k).load (pages.base + BitVec.ofNat 64 (16 * k)).toNat =
      some (memory.blockAt (pages.base.toNat + 16 * k)) := by
    rw [address_eq hk, PageMemory.load, if_pos hhere, PageMemory.blockAt_crypted_of_le (Nat.le_refl k)]
  have hstore : (memory.crypted f pages.base.toNat k).store
      (pages.base + BitVec.ofNat 64 (16 * k)).toNat (f (memory.blockAt (pages.base.toNat + 16 * k))) =
      some (memory.crypted f pages.base.toNat (k + 1)) := by
    rw [address_eq hk, PageMemory.store, if_pos hhere, PageMemory.putBlock_crypted]
  have hnext : BitVec.ofNat 64 (16 * (k + 1)) = BitVec.ofNat 64 (16 * k) + 0x10 := by
    rw [Nat.mul_add, BitVec.ofNat_add]
    rfl
  rw [cryptLoop, hload]
  simp only [Function.update_idem, hrounds, Function.update_self, hstore, offset_eq_size_iff hk, hnext]

/-- The loop from one of the blocks on. -/
theorem cryptLoop_spec (hmapped : pages.Mapped memory)
    (hrounds : ∀ block, rounds (Function.update loaded 0 block) = Function.update loaded 0 (f block))
    (d k : Nat) (hk : k + (d + 1) = 256 * pages.count) (block : Block) :
    ∃ last, cryptLoop rounds pages.base (BitVec.ofNat 64 pages.count <<< 12) (d + 1)
        (BitVec.ofNat 64 (16 * k)) (Function.update loaded 0 block)
        (memory.crypted f pages.base.toNat k) =
      .done (Function.update loaded 0 last) (memory.crypted f pages.base.toNat (256 * pages.count)) := by
  induction d generalizing k block with
  | zero =>
      rw [cryptLoop_succ hmapped hrounds (by omega), if_pos hk, ← hk]
      exact ⟨_, rfl⟩
  | succ d ih =>
      rw [cryptLoop_succ hmapped hrounds (by omega), if_neg (by omega)]
      exact ih (k + 1) (by omega) _

/-- The pages are transformed, and the registers restored. -/
theorem cryptPages_spec (xmm : Xmm) {keys : List Block} {key : Block} (hcount : pages.count ≠ 0)
    (hmapped : pages.Mapped memory)
    (hrounds : ∀ block, rounds (Function.update (loadKeys xmm keys key) 0 block) =
      Function.update (loadKeys xmm keys key) 0 (f block)) :
    ∃ fuel, cryptPages rounds fuel xmm memory pages.base keys (BitVec.ofNat 64 pages.count) key =
      .done xmm (memory.crypted f pages.base.toNat (256 * pages.count)) := by
  obtain ⟨last, hlast⟩ := cryptLoop_spec hmapped hrounds (256 * pages.count - 1) 0 (by omega)
    (loadKeys xmm keys key 0)
  rw [PageMemory.crypted_zero, Function.update_eq_self] at hlast
  refine ⟨256 * pages.count - 1 + 1, ?_⟩
  have hrestored : Xmm.restore (Function.update (loadKeys xmm keys key) 0 last) xmm 12 = xmm := by
    funext i
    unfold Xmm.restore
    split
    · rfl
    · next hi =>
        have hzero : i ≠ 0 := fun h => hi (h ▸ by decide)
        have heleven : i ≠ 11 := fun h => hi (h ▸ by decide)
        have hten : ¬(1 ≤ i ∧ i ≤ 10) := fun h => hi (Nat.lt_of_le_of_lt (Fin.le_def.mp h.2) (by decide))
        rw [Function.update_of_ne hzero, loadKeys, if_neg heleven, if_neg hten]
  have hloop : cryptLoop rounds pages.base (BitVec.ofNat 64 pages.count <<< 12)
      (256 * pages.count - 1 + 1) 0 (loadKeys xmm keys key) memory =
      .done (Function.update (loadKeys xmm keys key) 0 last)
        (memory.crypted f pages.base.toNat (256 * pages.count)) := hlast
  rw [cryptPages, hloop]
  simp only [hrestored]

end PageRange

section Crypts

variable {pages : PageRange} {key : Block} {forEncryption forDecryption : Xmm}

theorem crypts_of_zero (hcount : pages.count ≠ 0) (hencryption : forEncryption.scratch = zeroWord)
    (hdecryption : forDecryption.scratch = zeroWord) : pages.Crypts key forEncryption forDecryption := by
  refine ⟨⟨expandKey_registers true, expandKey_registers false⟩, fun xmm memory hmapped => ?_,
    fun xmm memory memory' hmapped htransformed => ?_, fun xmm memory hmapped => ?_⟩
  · obtain ⟨fuel, hfuel⟩ := PageRange.cryptPages_spec xmm hcount hmapped
      fun block => encryptRounds_loadKeys key
    rw [hencryption, encryptedBy_zeroWord] at hfuel
    exact ⟨fuel, _, hfuel, PageRange.transformed_crypted⟩
  · have hmapped' : pages.Mapped memory' := fun address hin => by
      rw [htransformed.mapped]
      exact hmapped address hin
    obtain ⟨fuel, hfuel⟩ := PageRange.cryptPages_spec xmm hcount hmapped'
      fun block => decryptRounds_loadKeys key hdecryption
    exact ⟨fuel, htransformed.crypted (decipher_cipher key) ▸ hfuel⟩
  · obtain ⟨fuel, hfuel⟩ := PageRange.cryptPages_spec xmm hcount hmapped
      fun block => decryptRounds_loadKeys key hdecryption
    exact ⟨fuel, _, hfuel, PageRange.transformed_crypted.symm (cipher_decipher key)⟩

/-- Without a page the loop still begins with a block. -/
theorem PageRange.Crypts.count_ne_zero (h : pages.Crypts key forEncryption forDecryption) :
    pages.count ≠ 0 := by
  intro hzero
  have hmapped : pages.Mapped ⟨fun _ => false, fun _ => 0⟩ := fun address hin => by
    obtain ⟨hlower, hupper⟩ := hin
    omega
  obtain ⟨fuel, memory', hdone, -⟩ := h.encrypts forEncryption _ hmapped
  have hload (address : Nat) : PageMemory.load ⟨fun _ => false, fun _ => 0⟩ address = none :=
    if_neg fun haccessible => Bool.false_ne_true (haccessible.2 0 (by decide))
  cases fuel with
  | zero => cases hdone
  | succ fuel =>
      rw [noirAes128EncryptPages, cryptPages, cryptLoop, hload] at hdone
      cases hdone

/-- More fuel makes no difference to where the loop ends. -/
theorem cryptLoop_unique {rounds : Xmm → Xmm} {base size rax : BitVec 64} {fuel fuel' : Nat}
    {xmm last last' : Xmm} {memory memory' memory'' : PageMemory}
    (h : cryptLoop rounds base size fuel rax xmm memory = .done last memory')
    (h' : cryptLoop rounds base size fuel' rax xmm memory = .done last' memory'') :
    memory' = memory'' := by
  induction fuel generalizing fuel' rax xmm memory with
  | zero => cases h
  | succ fuel ih =>
      cases fuel' with
      | zero => cases h'
      | succ fuel' =>
          rw [cryptLoop] at h h'
          cases hload : memory.load (base + rax).toNat with
          | none =>
              rw [hload] at h
              cases h
          | some block =>
              simp only [hload] at h h'
              cases hstore : memory.store (base + rax).toNat (rounds (Function.update xmm 0 block) 0) with
              | none =>
                  rw [hstore] at h
                  cases h
              | some stored =>
                  simp only [hstore] at h h'
                  split at h
                  · next hlast =>
                      rw [if_pos hlast] at h'
                      cases h
                      cases h'
                      rfl
                  · next hmore =>
                      rw [if_neg hmore] at h'
                      exact ih h h'

theorem cryptPages_unique {rounds : Xmm → Xmm} {fuel fuel' : Nat} {xmm last last' : Xmm}
    {memory memory' memory'' : PageMemory} {base count : BitVec 64} {keys : List Block}
    (h : cryptPages rounds fuel xmm memory base keys count key = .done last memory')
    (h' : cryptPages rounds fuel' xmm memory base keys count key = .done last' memory'') :
    memory' = memory'' := by
  unfold cryptPages at h h'
  split at h
  · next hloop =>
      split at h'
      · next hloop' =>
          cases h
          cases h'
          exact cryptLoop_unique hloop hloop'
      · next hnot => exact absurd h' (hnot _ _)
  · next hnot => exact absurd h (hnot _ _)

/-- The keys that were expanded have to give the cipher. -/
theorem PageRange.Crypts.encryptedBy_eq (h : pages.Crypts key forEncryption forDecryption) :
    encryptedBy forEncryption.scratch key = cipher key := by
  funext block
  have hpos : 0 < 256 * pages.count := by
    have hcount := h.count_ne_zero
    omega
  -- A memory that has the block everywhere.
  let memory : PageMemory := ⟨fun _ => true, fun i => block (Fin.ofNat 4 (i % 16 / 4)) (Fin.ofNat 4 i)⟩
  have hmapped : pages.Mapped memory := fun _ _ => rfl
  have hblock : memory.blockAt (pages.base.toNat + 16 * 0) = block := by
    have haligned := pages.aligned
    funext c r
    have hcolumn : Fin.ofNat 4 ((pages.base.toNat + 16 * 0 + 4 * c.val + r.val) % 16 / 4) = c :=
      Fin.ext (by simp only [Fin.val_ofNat]; omega)
    have hrow : Fin.ofNat 4 (pages.base.toNat + 16 * 0 + 4 * c.val + r.val) = r :=
      Fin.ext (by simp only [Fin.val_ofNat]; omega)
    exact congrArg₂ block hcolumn hrow
  obtain ⟨fuel, memory', hdone, htransformed⟩ := h.encrypts forEncryption memory hmapped
  obtain ⟨fuel', hdone'⟩ := cryptPages_spec forEncryption h.count_ne_zero hmapped
    fun block => encryptRounds_loadKeys key
  have hmemory := cryptPages_unique hdone hdone'
  have hright := htransformed.blocks 0 hpos
  rw [hmemory, PageMemory.blockAt_crypted hpos, hblock] at hright
  exact hright

/-- Pages are encrypted and decrypted as they should be if there are any and the scratch register had
zeroes at both expansions. There must be a page, the keys have to give the cipher, and they are the keys
of the standard only with such a register. -/
theorem crypts_conditions (pages : PageRange) (key : Block) (forEncryption forDecryption : Xmm) :
    (pages.count ≠ 0 ∧ forEncryption.scratch = zeroWord ∧ forDecryption.scratch = zeroWord →
      pages.Crypts key forEncryption forDecryption) ∧
    (pages.Crypts key forEncryption forDecryption →
      pages.count ≠ 0 ∧ encryptedBy forEncryption.scratch key = cipher key) ∧
    ((noirAes128ExpandKey forEncryption key true).2 = standardKeys key true ↔
      forEncryption.scratch = zeroWord) ∧
    ((noirAes128ExpandKey forDecryption key false).2 = standardKeys key false ↔
      forDecryption.scratch = zeroWord) :=
  ⟨fun h => crypts_of_zero h.1 h.2.1 h.2.2, fun h => ⟨h.count_ne_zero, h.encryptedBy_eq⟩,
    expandKey_iff true, expandKey_iff false⟩

def onePage : PageRange := ⟨0x1000, 1, by decide, by decide⟩

def zeroBlock : Block := fun _ => zeroWord

theorem onePage_crypts : onePage.Crypts zeroBlock (fun _ => zeroBlock) fun _ => zeroBlock :=
  (crypts_conditions onePage zeroBlock (fun _ => zeroBlock) fun _ => zeroBlock).1
    ⟨by decide, rfl, rfl⟩

def noPages : PageRange := ⟨0x1000, 0, by decide, by decide⟩

theorem not_forall_crypts : ¬∀ (pages : PageRange) (key : Block) (forEncryption forDecryption : Xmm),
    pages.Crypts key forEncryption forDecryption := fun h =>
  (h noPages zeroBlock (fun _ => zeroBlock) fun _ => zeroBlock).count_ne_zero rfl

end Crypts

end NoirVisor
