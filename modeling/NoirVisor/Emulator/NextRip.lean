import NoirVisor.Cvm.SvmVcpu

/-!
# The next instruction

Where the hypervisor goes on after an instruction it has emulated or skipped. On SVM the processor
may tell; else three routines decode the instruction themselves, each with its own test of the
mode of the guest.
-/

namespace NoirVisor

inductive MachineMode where
  | long64
  | legacy32
  | real16
deriving DecidableEq, Repr

/-- What of the VMCB has to do with the instruction pointer. The attributes of the code segment
are packed into 12 bits. -/
structure SvmCode where
  efer : Nat
  csSelector : Nat
  csAttrib : Nat
  rip : Nat
  nextRip : Nat

/-- The exit context the emulator decodes for, with the attributes unpacked. -/
structure EmulatedCode where
  csSelector : Nat
  csAttrib : Nat
  rip : Nat
  nextRip : Nat

section

-- The length of the instruction that was fetched, as decoded in each mode.
variable (lengthIn : MachineMode → BitVec 8)

def noirGetInstructionLength (longMode : Bool) : Nat :=
  if longMode then (lengthIn .long64).toNat else (lengthIn .legacy32).toNat

def noirGetInstructionLengthEx (bits : Nat) : Nat :=
  match bits with
  | 16 => (lengthIn .real16).toNat
  | 32 => (lengthIn .legacy32).toNat
  | 64 => (lengthIn .long64).toNat
  | _ => 0

namespace SvmCode

/-- `mode` is a number below 4 and not one of bits. -/
def nvcSvmDecoderInstructionHandler (nrips : Bool) (vmcb : SvmCode) : SvmCode :=
  if nrips then vmcb
  else
    let mode := (if vmcb.csAttrib.testBit 9 then 2 else 0) +
      if vmcb.csAttrib.testBit 10 then 1 else 0
    let len := noirGetInstructionLengthEx lengthIn mode
    let nrip := (vmcb.rip + len) % 2 ^ 64
    { vmcb with nextRip := if vmcb.csAttrib.testBit 9 then nrip % 2 ^ 32 else nrip }

/-- A `next_rip` of zero counts as none. -/
def noirSvmAdvanceRip (vmcb : SvmCode) : SvmCode :=
  if vmcb.nextRip ≠ 0 then { vmcb with rip := vmcb.nextRip } else vmcb

/-- How the handler of nested page faults ignores the instruction that has faulted. -/
def nvcSvmNestedPfSkip (vmcb : SvmCode) : SvmCode :=
  let longMode := vmcb.csAttrib.testBit 9
  let gip := (vmcb.rip + noirGetInstructionLength lengthIn longMode) % 2 ^ 64
  { vmcb with rip := if longMode then gip else gip % 2 ^ 32 }

end SvmCode

def nvcSvmLoadBasicExitContext (vmcb : SvmCode) : EmulatedCode where
  csSelector := vmcb.csSelector
  csAttrib := svmAttribInverse vmcb.csAttrib
  rip := vmcb.rip
  nextRip := vmcb.nextRip

def selectedDecoder (csAttrib : Nat) : MachineMode :=
  if csAttrib.testBit 13 then .long64
  else if csAttrib.testBit 14 then .legacy32
  else .real16

/-- The end of `nvc_emu_decode_memory_access`, which tests a bit of the selector. -/
def nvcEmuDecodeNextRip (context : EmulatedCode) : EmulatedCode :=
  let nextRip := (context.rip + (lengthIn (selectedDecoder context.csAttrib)).toNat) % 2 ^ 64
  { context with
    nextRip := if context.csSelector.testBit 13 = false then nextRip % 2 ^ 32 else nextRip }

end

namespace SvmCode

/-- What the processor decodes the code of the guest as. -/
def mode (vmcb : SvmCode) : MachineMode :=
  if vmcb.efer.testBit 10 && vmcb.csAttrib.testBit 9 then .long64
  else if vmcb.csAttrib.testBit 10 then .legacy32
  else .real16

variable (lengthIn : MachineMode → BitVec 8) (vmcb : SvmCode)

def sum : Nat := vmcb.rip + (lengthIn vmcb.mode).toNat

def following : Nat :=
  if vmcb.mode = .long64 then vmcb.sum lengthIn % 2 ^ 64 else vmcb.sum lengthIn % 2 ^ 32

end SvmCode

variable {lengthIn : MachineMode → BitVec 8} {vmcb : SvmCode} {nrips : Bool}

/-- All of the routines agree with the processor. -/
structure AdvancesRight (lengthIn : MachineMode → BitVec 8) (nrips : Bool) (vmcb : SvmCode) :
    Prop where
  decoder : (SvmCode.nvcSvmDecoderInstructionHandler lengthIn nrips vmcb).nextRip =
    vmcb.following lengthIn
  exit :
    (SvmCode.noirSvmAdvanceRip (SvmCode.nvcSvmDecoderInstructionHandler lengthIn nrips vmcb)).rip =
      vmcb.following lengthIn
  skip : (SvmCode.nvcSvmNestedPfSkip lengthIn vmcb).rip = vmcb.following lengthIn
  emulator : (nvcEmuDecodeNextRip lengthIn (nvcSvmLoadBasicExitContext vmcb)).nextRip =
    vmcb.following lengthIn

/-- The processor saves the next instruction pointer, which is not zero, and both of the other
routines take the length and the width from the mode of the guest. -/
structure AdvanceMeets (lengthIn : MachineMode → BitVec 8) (nrips : Bool) (vmcb : SvmCode) :
    Prop where
  saved : nrips = true
  nonzero : vmcb.following lengthIn ≠ 0
  skipLength : noirGetInstructionLength lengthIn (vmcb.csAttrib.testBit 9) =
    (lengthIn vmcb.mode).toNat
  skipWidth : (vmcb.csAttrib.testBit 9 = true ↔ vmcb.mode = .long64) ∨
    vmcb.sum lengthIn % 2 ^ 64 < 2 ^ 32
  emulatorLength : lengthIn (selectedDecoder (svmAttribInverse vmcb.csAttrib)) =
    lengthIn vmcb.mode
  emulatorWidth : (vmcb.csSelector.testBit 13 = true ↔ vmcb.mode = .long64) ∨
    vmcb.sum lengthIn % 2 ^ 64 < 2 ^ 32

/-- Two next instruction pointers of which each is cut off or not. -/
theorem advanced_eq_iff {wide long : Prop} [Decidable wide] [Decidable long] {rip a b : Nat}
    (ha : a < 2 ^ 8) (hb : b < 2 ^ 8) :
    ((if wide then (rip + a) % 2 ^ 64 else (rip + a) % 2 ^ 64 % 2 ^ 32) =
      if long then (rip + b) % 2 ^ 64 else (rip + b) % 2 ^ 32) ↔
      a = b ∧ ((wide ↔ long) ∨ (rip + b) % 2 ^ 64 < 2 ^ 32) := by
  by_cases hwide : wide <;> by_cases hlong : long <;> simp only [hwide, hlong, if_true, if_false]
  · constructor
    · exact fun h => ⟨by omega, .inl trivial⟩
    · rintro ⟨rfl, -⟩
      rfl
  · constructor
    · exact fun h => ⟨by omega, .inr (by omega)⟩
    · rintro ⟨rfl, h | h⟩
      · exact absurd (h.mp trivial) not_false
      · omega
  · constructor
    · exact fun h => ⟨by omega, .inr (by omega)⟩
    · rintro ⟨rfl, h | h⟩
      · exact absurd (h.mpr trivial) not_false
      · omega
  · constructor
    · exact fun h => ⟨by omega, .inl trivial⟩
    · rintro ⟨rfl, -⟩
      omega

theorem noirGetInstructionLength_lt (longMode : Bool) :
    noirGetInstructionLength lengthIn longMode < 2 ^ 8 := by
  unfold noirGetInstructionLength
  split <;> exact BitVec.isLt _

theorem nvcSvmNestedPfSkip_iff :
    (SvmCode.nvcSvmNestedPfSkip lengthIn vmcb).rip = vmcb.following lengthIn ↔
    noirGetInstructionLength lengthIn (vmcb.csAttrib.testBit 9) = (lengthIn vmcb.mode).toNat ∧
      ((vmcb.csAttrib.testBit 9 = true ↔ vmcb.mode = .long64) ∨
        vmcb.sum lengthIn % 2 ^ 64 < 2 ^ 32) :=
  advanced_eq_iff (noirGetInstructionLength_lt _) (lengthIn vmcb.mode).isLt

theorem nvcEmuDecodeNextRip_iff :
    (nvcEmuDecodeNextRip lengthIn (nvcSvmLoadBasicExitContext vmcb)).nextRip =
        vmcb.following lengthIn ↔
      lengthIn (selectedDecoder (svmAttribInverse vmcb.csAttrib)) = lengthIn vmcb.mode ∧
        ((vmcb.csSelector.testBit 13 = true ↔ vmcb.mode = .long64) ∨
          vmcb.sum lengthIn % 2 ^ 64 < 2 ^ 32) := by
  have hcut : (nvcEmuDecodeNextRip lengthIn (nvcSvmLoadBasicExitContext vmcb)).nextRip =
      if vmcb.csSelector.testBit 13 = true then
        (vmcb.rip + (lengthIn (selectedDecoder (svmAttribInverse vmcb.csAttrib))).toNat) % 2 ^ 64
      else (vmcb.rip + (lengthIn (selectedDecoder (svmAttribInverse vmcb.csAttrib))).toNat) %
        2 ^ 64 % 2 ^ 32 := by
    unfold nvcEmuDecodeNextRip nvcSvmLoadBasicExitContext
    cases hbit : vmcb.csSelector.testBit 13 <;> simp
  rw [hcut, ← BitVec.toNat_inj]
  exact advanced_eq_iff (BitVec.isLt _) (BitVec.isLt _)

/-- Without the help of the processor the decoder finds a length of zero. -/
theorem nvcSvmDecoderInstructionHandler_ne (h : 0 < (lengthIn vmcb.mode).toNat) :
    (SvmCode.nvcSvmDecoderInstructionHandler lengthIn false vmcb).nextRip ≠
      vmcb.following lengthIn := by
  have hlt := (lengthIn vmcb.mode).isLt
  have hlength : ∀ mode < 4, noirGetInstructionLengthEx lengthIn mode = 0 := by
    intro mode hmode
    obtain rfl | rfl | rfl | rfl : mode = 0 ∨ mode = 1 ∨ mode = 2 ∨ mode = 3 := by omega
    all_goals rfl
  have hmode : ((if vmcb.csAttrib.testBit 9 then 2 else 0) +
      if vmcb.csAttrib.testBit 10 then 1 else 0) < 4 := by
    split_ifs <;> decide
  unfold SvmCode.nvcSvmDecoderInstructionHandler SvmCode.following SvmCode.sum
  rw [if_neg Bool.false_ne_true]
  dsimp only
  rw [hlength _ hmode]
  split_ifs <;> omega

/-- For every mode, instruction pointer and length, and every way a processor may tell the next
one. -/
theorem advancesRight_iff (hlength : 0 < (lengthIn vmcb.mode).toNat)
    (hsaved : nrips = true → vmcb.nextRip = vmcb.following lengthIn) :
    AdvancesRight lengthIn nrips vmcb ↔ AdvanceMeets lengthIn nrips vmcb := by
  constructor
  · rintro ⟨hdecoder, hexit, hskip, hemulator⟩
    have hnrips : nrips = true := by
      by_contra hnot
      rw [Bool.not_eq_true] at hnot
      subst hnot
      exact nvcSvmDecoderInstructionHandler_ne hlength hdecoder
    obtain ⟨hskipLength, hskipWidth⟩ := nvcSvmNestedPfSkip_iff.mp hskip
    obtain ⟨hemulatorLength, hemulatorWidth⟩ := nvcEmuDecodeNextRip_iff.mp hemulator
    refine ⟨hnrips, fun hzero => ?_, hskipLength, hskipWidth, hemulatorLength, hemulatorWidth⟩
    subst hnrips
    -- With a `next_rip` of zero the guest stays where it is, which is then address zero.
    have hrip : vmcb.rip = 0 := by
      have hnext := (hsaved rfl).trans hzero
      change (SvmCode.noirSvmAdvanceRip vmcb).rip = _ at hexit
      unfold SvmCode.noirSvmAdvanceRip at hexit
      rw [if_neg (not_not.mpr hnext), hzero] at hexit
      exact hexit
    have hlt := (lengthIn vmcb.mode).isLt
    unfold SvmCode.following SvmCode.sum at hzero
    rw [hrip] at hzero
    split_ifs at hzero <;> omega
  · rintro ⟨hnrips, hnonzero, hskipLength, hskipWidth, hemulatorLength, hemulatorWidth⟩
    subst hnrips
    have hnext := hsaved rfl
    refine ⟨hnext, ?_, nvcSvmNestedPfSkip_iff.mpr ⟨hskipLength, hskipWidth⟩,
      nvcEmuDecodeNextRip_iff.mpr ⟨hemulatorLength, hemulatorWidth⟩⟩
    change (SvmCode.noirSvmAdvanceRip vmcb).rip = _
    unfold SvmCode.noirSvmAdvanceRip
    rw [if_pos (by rwa [hnext])]
    exact hnext

/-- An instruction of two bytes in protected mode. -/
def protectedCode : SvmCode where
  efer := 0
  csSelector := 0x8
  csAttrib := 0xC9B
  rip := 0x401000
  nextRip := 0x401002

theorem protectedCode_advances : AdvancesRight (fun _ => 2) true protectedCode :=
  (advancesRight_iff (by decide) (by decide)).mpr
    ⟨rfl, by decide, by decide, .inr (by decide), by decide, .inr (by decide)⟩

/-- In 64-bit mode above 4 GiB the emulator looks for the mode in the selector. -/
theorem not_forall_advancesRight :
    ¬∀ (lengthIn : MachineMode → BitVec 8) (nrips : Bool) (vmcb : SvmCode),
      0 < (lengthIn vmcb.mode).toNat →
      (nrips = true → vmcb.nextRip = vmcb.following lengthIn) →
      AdvancesRight lengthIn nrips vmcb := by
  intro h
  have hright := h (fun _ => 2) true ⟨0x500, 0x10, 0x29B, 0xFFFFF80000001000, 0xFFFFF80000001002⟩
    (by decide) (by decide)
  exact absurd hright.emulator (by decide)

end NoirVisor
