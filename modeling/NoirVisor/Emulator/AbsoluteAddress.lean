import NoirVisor.Cvm.Register
import Mathlib.Data.Nat.Bitwise

/-!
# Addresses of memory operands

The emulator computes the address of a memory operand from what the decoder tells of it, and cuts
the whole sum to the width of addresses, the base of the segment included.
-/

namespace NoirVisor

/-- The registers that take part in an address. -/
inductive ZydisRegister where
  | none
  | gpr16 (i : Fin 16)
  | gpr32 (i : Fin 16)
  | gpr64 (i : Fin 16)
  | eip
  | rip
deriving DecidableEq, Repr

/-- A displacement is sign-extended by the decoder. -/
structure ZydisMemoryOperand where
  segment : SegmentName
  base : ZydisRegister
  index : ZydisRegister
  scale : BitVec 8
  hasDisplacement : Bool
  displacement : BitVec 64
deriving DecidableEq, Repr

structure AddressState where
  gpr : Fin 16 → BitVec 64
  segBase : SegmentName → BitVec 64
  rip : BitVec 64

section

variable (s : AddressState) (length : BitVec 8)

def baseOf : ZydisRegister → Nat
  | .gpr16 i => (s.gpr i).toNat % 2 ^ 16
  | .gpr32 i => (s.gpr i).toNat % 2 ^ 32
  | .gpr64 i => (s.gpr i).toNat
  | .eip => (s.rip.toNat % 2 ^ 32 + length.toNat) % 2 ^ 32
  | .rip => (s.rip.toNat + length.toNat) % 2 ^ 64
  | .none => 0

/-- A product of 32-bit integers is one itself. -/
def indexOf (scale : BitVec 8) : ZydisRegister → Nat
  | .gpr16 i => (s.gpr i).toNat % 2 ^ 16 * scale.toNat
  | .gpr32 i => ((s.gpr i).toNat % 2 ^ 32 * scale.toNat) % 2 ^ 32
  | .gpr64 i => ((s.gpr i).toNat * scale.toNat) % 2 ^ 64
  | _ => 0

/-- A shift by 64 places is one by none on the processor. -/
def addrMask (addressWidth : Nat) : Nat := 2 ^ (addressWidth % 64) - 1

def nvcEmuCalculateAbsoluteAddress (addressWidth : Nat) (operand : ZydisMemoryOperand) : Nat :=
  let absAddr := (s.segBase operand.segment).toNat + baseOf s length operand.base +
    indexOf s operand.scale operand.index
  let absAddr :=
    if operand.hasDisplacement then absAddr + operand.displacement.toNat else absAddr
  absAddr % 2 ^ 64 &&& addrMask addressWidth

end

namespace ZydisRegister

/-- The width of the registers in an address. -/
def HasWidth : ZydisRegister → Nat → Prop
  | none, _ => True
  | gpr16 _, width => width = 16
  | gpr32 _, width | eip, width => width = 32
  | gpr64 _, width | rip, width => width = 64

instance : (r : ZydisRegister) → (width : Nat) → Decidable (r.HasWidth width)
  | none, _ => isTrue trivial
  | gpr16 _, width => inferInstanceAs (Decidable (width = 16))
  | gpr32 _, width | eip, width => inferInstanceAs (Decidable (width = 32))
  | gpr64 _, width | rip, width => inferInstanceAs (Decidable (width = 64))

/-- Relative to the instruction that follows. -/
def read (s : AddressState) (length : BitVec 8) : ZydisRegister → Nat
  | none => 0
  | gpr16 i => (s.gpr i).toNat % 2 ^ 16
  | gpr32 i => (s.gpr i).toNat % 2 ^ 32
  | gpr64 i => (s.gpr i).toNat
  | eip | rip => s.rip.toNat + length.toNat

end ZydisRegister

/-- What the decoder returns for an address of this width. -/
structure OfWidth (operand : ZydisMemoryOperand) (width : Nat) : Prop where
  known : width = 16 ∨ width = 32 ∨ width = 64
  base : operand.base.HasWidth width
  index : operand.index.HasWidth width
  notRelative : operand.index ≠ .eip ∧ operand.index ≠ .rip

/-- The offset is cut to the width, and the base of the segment is not. -/
def effectiveAddress (s : AddressState) (length : BitVec 8) (width : Nat)
    (operand : ZydisMemoryOperand) : Nat :=
  let offset := operand.base.read s length + operand.index.read s length * operand.scale.toNat +
    if operand.hasDisplacement then operand.displacement.toNat else 0
  ((s.segBase operand.segment).toNat + offset % 2 ^ width) % 2 ^ 64

section

variable {s : AddressState} {length : BitVec 8} {operand : ZydisMemoryOperand} {width : Nat}

theorem baseOf_mod {r : ZydisRegister} (h : r.HasWidth width) :
    baseOf s length r % 2 ^ width = r.read s length % 2 ^ width := by
  cases r with
  | none | gpr16 i | gpr32 i | gpr64 i => rfl
  | eip =>
    obtain rfl : width = 32 := h
    simp only [baseOf, ZydisRegister.read]
    omega
  | rip =>
    obtain rfl : width = 64 := h
    simp only [baseOf, ZydisRegister.read]
    omega

theorem indexOf_mod {r : ZydisRegister} (h : r.HasWidth width) (hgpr : r ≠ .eip ∧ r ≠ .rip)
    (scale : BitVec 8) :
    indexOf s scale r % 2 ^ width = r.read s length * scale.toNat % 2 ^ width := by
  cases r with
  | none => simp [indexOf, ZydisRegister.read]
  | gpr16 i => rfl
  | gpr32 i =>
    obtain rfl : width = 32 := h
    exact Nat.mod_mod _ _
  | gpr64 i =>
    obtain rfl : width = 64 := h
    exact Nat.mod_mod _ _
  | eip => exact absurd rfl hgpr.1
  | rip => exact absurd rfl hgpr.2

/-- The mask keeps the remainder of the address, and none of it for the full width. -/
theorem nvcEmuCalculateAbsoluteAddress_eq (h : OfWidth operand width) :
    nvcEmuCalculateAbsoluteAddress s length width operand =
      effectiveAddress s length width operand % 2 ^ (width % 64) := by
  have hbase : baseOf s length operand.base % 2 ^ width =
      operand.base.read s length % 2 ^ width := baseOf_mod h.base
  have hindex : indexOf s operand.scale operand.index % 2 ^ width =
      operand.index.read s length * operand.scale.toNat % 2 ^ width :=
    indexOf_mod h.index h.notRelative operand.scale
  unfold nvcEmuCalculateAbsoluteAddress effectiveAddress addrMask
  dsimp only
  rw [Nat.and_two_pow_sub_one_eq_mod]
  generalize baseOf s length operand.base = base at hbase ⊢
  generalize indexOf s operand.scale operand.index = index at hindex ⊢
  generalize operand.base.read s length = base' at hbase ⊢
  generalize operand.index.read s length * operand.scale.toNat = index' at hindex ⊢
  obtain rfl | rfl | rfl := h.known <;> simp only [Nat.reduceMod] <;> split_ifs <;> omega

/-- The address is right if it is below what the mask leaves. -/
theorem nvcEmuCalculateAbsoluteAddress_iff (h : OfWidth operand width) :
    nvcEmuCalculateAbsoluteAddress s length width operand =
        effectiveAddress s length width operand ↔
      effectiveAddress s length width operand < 2 ^ (width % 64) := by
  rw [nvcEmuCalculateAbsoluteAddress_eq h]
  constructor
  · intro heq
    rw [← heq]
    exact Nat.mod_lt _ (Nat.two_pow_pos _)
  · exact Nat.mod_eq_of_lt

end

/-- Every register and every base of a segment is zero. -/
def zeroState : AddressState where
  gpr _ := 0
  segBase _ := 0
  rip := 0

def absoluteOperand : ZydisMemoryOperand where
  segment := .ds
  base := .none
  index := .none
  scale := 0
  hasDisplacement := true
  displacement := 0xFEE00080

theorem absoluteOperand_ofWidth : OfWidth absoluteOperand 32 where
  known := .inr (.inl rfl)
  base := trivial
  index := trivial
  notRelative := by decide

theorem absoluteOperand_right :
    nvcEmuCalculateAbsoluteAddress zeroState 5 32 absoluteOperand =
      effectiveAddress zeroState 5 32 absoluteOperand :=
  (nvcEmuCalculateAbsoluteAddress_iff absoluteOperand_ofWidth).mpr (by decide)

/-- With addresses of 64 bits the mask is empty. -/
theorem not_forall_absoluteAddress :
    ¬∀ (s : AddressState) (length : BitVec 8) (width : Nat) (operand : ZydisMemoryOperand),
      OfWidth operand width → nvcEmuCalculateAbsoluteAddress s length width operand =
        effectiveAddress s length width operand := by
  intro h
  have hwidth : OfWidth ⟨.ds, .rip, .none, 0, true, 0x1000⟩ 64 :=
    ⟨.inr (.inr rfl), rfl, trivial, by decide⟩
  exact absurd (h zeroState 7 64 _ hwidth) (by decide)

end NoirVisor
