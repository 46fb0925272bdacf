import NoirVisor.BitField
import NoirVisor.Cvm.SvmVcpu

/-!
# Exits of a virtual CPU on SVM

The decoders and the handlers of the exits of a customizable VM, and the exit handler that calls them.
A handler resumes the guest, or switches to the host.
-/

namespace NoirVisor

def noirBts (value n : Nat) : Nat := value ||| 2 ^ n

def noirBtr (value n : Nat) : Nat := value - (value &&& 2 ^ n)

def setBitTo (value n : Nat) (b : Bool) : Nat := if b then noirBts value n else noirBtr value n

section Bits

variable {value n k : Nat}

theorem noirBtr_eq : noirBtr value n = value - value / 2 ^ n % 2 * 2 ^ n := by
  unfold noirBtr
  rw [Nat.and_two_pow, Nat.toNat_testBit]

theorem noirBtr_eq_set : noirBtr value n = BitField.set value n 1 0 := by
  rw [noirBtr_eq, BitField.set, BitField.get, Nat.pow_one, Nat.zero_mod, Nat.zero_mul, Nat.add_zero]

theorem noirBts_testBit : (noirBts value n).testBit k = (value.testBit k || k == n) := by
  unfold noirBts
  rw [Nat.testBit_or, Nat.testBit_two_pow]
  congr 1
  exact decide_eq_decide.mpr eq_comm

theorem noirBts_testBit_self : (noirBts value n).testBit n = true := by
  rw [noirBts_testBit, beq_self_eq_true, Bool.or_true]

theorem noirBtr_testBit : (noirBtr value n).testBit k = (value.testBit k && k != n) := by
  rw [noirBtr_eq_set, BitField.testBit_set]
  by_cases hk : k = n
  · rw [if_pos ⟨by omega, by omega⟩, Nat.zero_testBit, hk, bne_self_eq_false, Bool.and_false]
  · rw [if_neg (by omega), bne_iff_ne.mpr hk, Bool.and_true]

theorem setBitTo_testBit {b : Bool} : (setBitTo value n b).testBit k = if k = n then b else value.testBit k := by
  unfold setBitTo
  cases b with
  | true =>
      rw [if_pos rfl, noirBts_testBit]
      by_cases hk : k = n <;> simp [hk]
  | false =>
      rw [if_neg Bool.false_ne_true, noirBtr_testBit]
      by_cases hk : k = n <;> simp [hk]

end Bits

/-- A write to the lower half of a 64-bit register. -/
def writeLow (old value : Nat) : Nat := old / 2 ^ 32 * 2 ^ 32 + value % 2 ^ 32

def externalVirtualInterrupt : Nat := 0
def faultTrapException : Nat := 3
def debugException : Nat := 1
def invalidOpcode : Nat := 6
def generalProtection : Nat := 13
def pageFault : Nat := 14

def cr4MceBit : Nat := 6
def rflagsTf : Nat := 8

namespace Vmcb

variable (vmcb : Vmcb)

def injectEvent (vector type : Nat) (ev valid : Bool) (errorCode : Nat) : Vmcb :=
  (vmcb.write .eventInjection
    (vector % 2 ^ 8 + type % 2 ^ 3 * 2 ^ 8 + ev.toNat * 2 ^ 11 + valid.toNat * 2 ^ 31)).write
      .eventErrorCode errorCode

/-- A guest that single-steps gets its trap. -/
def advanceRip : Vmcb :=
  let nrip := vmcb.field .nextRip
  let traced :=
    if (vmcb.field (.guest .rflags)).testBit rflagsTf then
      vmcb.injectEvent debugException faultTrapException false true 0
    else vmcb
  if nrip = 0 then traced else traced.write (.guest .rip) nrip

def segmentBase (name : SegmentName) : Nat := segmentHigh fun field => vmcb.field (.guest (.seg name field))

def writeBase (name : SegmentName) (value : Nat) : Vmcb :=
  { vmcb with
    field := fun f =>
      match f with
      | .guest (.seg name' (.baseByte i)) =>
          if name' = name then segmentField 0 value (.baseByte i) else vmcb.field f
      | _ => vmcb.field f }

end Vmcb

/-- The MSRs of the protected page, and the range of pages that a guest claims. -/
inductive SyntheticMsr where
  | vcHandlerCs | vcHandlerRsp | vcHandlerRip
  | vcReturnCs | vcReturnRsp | vcReturnRip | vcReturnRflags | vcNextRip
  | vcErrorCode | vcInfo1 | vcInfo2
  | claimGpaStart | claimGpaEnd
deriving DecidableEq, Repr

structure CpuidQuickpath where
  leaf : Nat
  subleaf : Nat
  hasSubleaf : Bool
  eax : Nat
  ebx : Nat
  ecx : Nat
  edx : Nat

/-- The classes of MSRs that can be intercepted one by one. -/
inductive MsrClass where
  | syscall | sysenter | smm | apic | mtrr | cet
deriving DecidableEq, Repr

/-- What the handlers read and do not change. `misplaced` stands for what becomes of the vCPU structure
where it is taken for the VMCB: that depends on its layout. -/
structure CvexitContext where
  cpu : Xsave.Features
  host : VirtualCpu
  nrips : Bool
  decodeAssists : Bool
  instructionLength : Nat
  exitInfo1 : Nat
  exitInfo2 : Nat
  tsc : Nat
  msrInterceptions : Option (MsrClass → Bool)
  quickpath : List CpuidQuickpath
  mtrrDefType : Nat
  vmsaArea : Xsave.Area
  misplaced : VirtualCpu → VirtualCpu

/-- What the handlers change. The registers of the frame are those of `p`. -/
structure CvexitState where
  p : Processor
  vcpu : SvmCustomVcpu
  nsvs : SyntheticMsr → Nat
  toHost : Bool

namespace CvexitState

variable (s : CvexitState)

def withVmcb (f : Vmcb → Vmcb) : CvexitState := { s with vcpu.vmcb := f s.vcpu.vmcb }

def withReg (r : Register) (value : Nat) : CvexitState :=
  { s with p.reg := Function.update s.p.reg r value }

def advanceRip : CvexitState := s.withVmcb Vmcb.advanceRip

/-- What rdmsr gives the guest, and wrmsr takes from it. -/
def withMsrValue (value : Nat) : CvexitState :=
  (s.withReg .rax (writeLow (s.p.reg .rax) value)).withReg (.gpr 2)
    (writeLow (s.p.reg (.gpr 2)) (value / 2 ^ 32))

def msrValue : Nat := s.p.reg .rax % 2 ^ 32 + s.p.reg (.gpr 2) % 2 ^ 32 * 2 ^ 32

def msrIndex : Nat := s.p.reg (.gpr 1) % 2 ^ 32

end CvexitState

section Handlers

variable (ctx : CvexitContext) (s : CvexitState)

/-- The handlers that only record why the guest exited do nothing else to its state. -/
def cvexitToHost : Option CvexitState :=
  (nvcSvmSwitchToHostVcpu ctx.cpu s.p ctx.host s.vcpu).map fun (p, vcpu) =>
    { s with p, vcpu, toHost := true }

def nvcSvmInjectCvmException (vector : Nat) (ev : Bool) (errorCode pfAddr : Nat) :
    Option CvexitState :=
  if s.vcpu.header.exceptionBitmap.testBit vector then cvexitToHost ctx s
  else
    some (s.withVmcb fun vmcb =>
      let injected := vmcb.injectEvent vector faultTrapException ev true errorCode
      if vector = pageFault then (injected.write (.guest .cr2) pfAddr).dirty .cr2 else injected)

/-- NoirVisor does not support nested virtualization of a customizable VM. -/
def injectInvalidOpcode : Option CvexitState := nvcSvmInjectCvmException ctx s invalidOpcode false 0 0

def nvcSvmCr4ReadCvexitHandler : CvexitState :=
  let cr4 := s.vcpu.vmcb.field (.guest .cr4)
  let value := if s.vcpu.shadowedBits.mce then cr4 else noirBtr cr4 cr4MceBit
  (s.withReg (.gpr (Fin.ofNat 16 ctx.exitInfo1)) value).advanceRip

/-- The clean bit of the control registers stays. -/
def nvcSvmCr4WriteCvexitHandler : CvexitState :=
  let value := s.p.reg (.gpr (Fin.ofNat 16 ctx.exitInfo1))
  let shadowed := { s with vcpu.shadowedBits.mce := value.testBit cr4MceBit }
  (shadowed.withVmcb (·.write (.guest .cr4) (noirBts value cr4MceBit))).advanceRip

/-- The virtual interrupt, or the window after it. The bits of the interrupt control are cached with
the TPR, but the clean bit reset is that of the APIC. -/
def nvcSvmVirtintCvexitHandler : Option CvexitState :=
  if s.vcpu.specialState.prevVirq then
    let vcpu := s.vcpu
    let vmcb := vcpu.vmcb.injectEvent (vcpu.vmcb.field .virtualInterruptVector)
      externalVirtualInterrupt false true 0
    some { s with
      vcpu := { vcpu with
        specialState.prevVirq := false
        vmcb := (vmcb.write .ignoreVirtualTpr 1).dirty .avic
        header.injectedEvent := { vcpu.header.injectedEvent with
          attributes := noirBtr vcpu.header.injectedEvent.attributes 31 } } }
  else
    let cancelled := s.withVmcb fun vmcb =>
      ((vmcb.write .ignoreVirtualTpr 0).write .virtualIrq 0).dirty .avic
    if s.vcpu.header.vcpuOptions.interceptInterruptWindow then cvexitToHost ctx cancelled
    else some cancelled

/-- A non-automatic exit of an NSV guest goes to its handler. -/
def nvcSvmNsvLoadNaeSyntheticMsrState (errorCode info1 info2 : Nat) : CvexitState :=
  let vmcb := s.vcpu.vmcb
  let guest : Register → Nat := fun r => vmcb.field (.guest r)
  { s with
    nsvs := fun msr =>
      match msr with
      | .vcReturnCs => guest (.seg .cs .selector) + guest (.seg .ss .selector) * 2 ^ 16
      | .vcReturnRsp => guest .rsp
      | .vcReturnRip => guest .rip
      | .vcReturnRflags => guest .rflags
      | .vcNextRip => vmcb.field .nextRip
      | .vcErrorCode => errorCode
      | .vcInfo1 => info1
      | .vcInfo2 => info2
      | _ => s.nsvs msr
    vcpu.vmcb := ((((((vmcb.write (.guest (.seg .cs .selector)) (s.nsvs .vcHandlerCs % 2 ^ 16)).write
      (.guest (.seg .ss .selector)) (s.nsvs .vcHandlerCs / 2 ^ 16 % 2 ^ 16)).dirty .segmentReg).write
      (.guest .rsp) (s.nsvs .vcHandlerRsp)).write (.guest .rip) (s.nsvs .vcHandlerRip)).write
      (.guest .rflags) (noirBtr (guest .rflags) 9)) }

def cvIoInstruction : Nat := 5
def cvCpuidInstruction : Nat := 6

/-- The first entry for this leaf, or zeros. -/
def cpuidQuickpath (list : List CpuidQuickpath) (leaf subleaf : Nat) : CpuidQuickpath :=
  (list.find? fun qp => qp.leaf == leaf && (!qp.hasSubleaf || qp.subleaf == subleaf)).getD
    ⟨leaf, subleaf, false, 0, 0, 0, 0⟩

def nvcSvmCpuidCvexitHandler : Option CvexitState :=
  if s.vcpu.header.vcpuOptions.interceptCpuid then
    if s.vcpu.nsvGuest then some (nvcSvmNsvLoadNaeSyntheticMsrState s cvCpuidInstruction 0 0)
    else cvexitToHost ctx s
  else
    let qp := cpuidQuickpath ctx.quickpath (s.p.reg .rax % 2 ^ 32) (s.p.reg (.gpr 1) % 2 ^ 32)
    let reg := s.p.reg
    some (((((s.withReg .rax (writeLow (reg .rax) qp.eax)).withReg (.gpr 3)
      (writeLow (reg (.gpr 3)) qp.ebx)).withReg (.gpr 1) (writeLow (reg (.gpr 1)) qp.ecx)).withReg
      (.gpr 2) (writeLow (reg (.gpr 2)) qp.edx)).advanceRip)

/-- The window for NMIs: the pending one is injected, and the interception kept on. -/
def nvcSvmIretCvexitHandler : Option CvexitState :=
  if s.vcpu.specialState.prevNmi then
    let event := s.vcpu.header.injectedEvent
    some { s with
      vcpu := { s.vcpu with
        specialState.prevNmi := false
        vmcb := (s.vcpu.vmcb.write .eventInjection event.attributes).write .eventErrorCode
          event.errorCode } }
  else if s.vcpu.header.vcpuOptions.interceptNmiWindow then
    (cvexitToHost ctx s).map fun s => s.withVmcb fun vmcb =>
      (vmcb.write .interceptInstruction1
        (noirBtr (vmcb.field .interceptInstruction1) 20)).dirty .interception
  else some s

/-- Halts and hypercalls of an NSV guest are finished before the host sees them. -/
def toHostAutomatic : Option CvexitState :=
  (cvexitToHost ctx s).map fun s => if s.vcpu.nsvGuest then s.advanceRip else s

/-- The kind of an I/O access: type, string, repeat, operand size and address width. The reserved bits
of the exit context are zero. -/
def ioAccess (info : Nat) : Nat :=
  info % 2 + info / 2 ^ 2 % 2 * 2 + info / 2 ^ 3 % 2 * 2 ^ 2 + info / 2 ^ 4 % 2 ^ 3 * 2 ^ 3 +
    info / 2 ^ 7 % 2 ^ 3 * 2 % 2 ^ 4 * 2 ^ 6

def nvcSvmIoCvexitHandler : Option CvexitState :=
  if s.vcpu.nsvGuest then
    some (nvcSvmNsvLoadNaeSyntheticMsrState s cvIoInstruction (ioAccess ctx.exitInfo1)
      (ctx.exitInfo1 / 2 ^ 16 % 2 ^ 16))
  else cvexitToHost ctx s

/-- The MSRs that an NSV guest reads, but the one of the GHCB. -/
def readableSyntheticMsrs : List (Nat × SyntheticMsr) :=
  [(0x40010140, .vcHandlerCs), (0x40010141, .vcHandlerRsp), (0x40010142, .vcHandlerRip),
    (0x40010150, .vcReturnCs), (0x40010151, .vcReturnRsp), (0x40010152, .vcReturnRip),
    (0x40010153, .vcReturnRflags), (0x40010154, .vcNextRip), (0x40010155, .vcErrorCode),
    (0x40010156, .vcInfo1), (0x40010157, .vcInfo2)]

/-- The ones that it writes, but those that are commands. -/
def writableSyntheticMsrs : List (Nat × SyntheticMsr) :=
  [(0x40010140, .vcHandlerCs), (0x40010141, .vcHandlerRsp), (0x40010142, .vcHandlerRip),
    (0x40010181, .claimGpaStart), (0x40010182, .claimGpaEnd)]

def injectGeneralProtection : CvexitState :=
  s.withVmcb (·.injectEvent generalProtection faultTrapException true true 0)

def nsvMsrGhcb : Nat := 0x40000001
def nsvMsrActivation : Nat := 0x40010130
def nsvMsrClaimGpaCmd : Nat := 0x40010180

def nvcSvmRdmsrNsvexitHandler : CvexitState :=
  if s.msrIndex = nsvMsrGhcb then (s.withMsrValue (s.vcpu.header.reg .ghcb)).advanceRip
  else match readableSyntheticMsrs.lookup s.msrIndex with
    | some msr => (s.withMsrValue (s.nsvs msr)).advanceRip
    | none => injectGeneralProtection s

/-- The protected page takes over from the vCPU structure, or the other way. -/
def nvcSvmNsvSynchronizeActivation (direction : Bool) : CvexitState :=
  let synchronized : Register → Bool := fun r => r.isGpr || r.isAddressBreakpoint || r == .xcr0
  if direction then
    { s with vcpu.vmsa.reg := copyRegisters synchronized s.vcpu.header.reg s.vcpu.vmsa.reg }
  else
    { s with
      vcpu := { s.vcpu with
        header.reg := copyRegisters synchronized s.vcpu.vmsa.reg s.vcpu.header.reg
        header.xsaveArea := ctx.vmsaArea } }

def CvexitState.withNsvs (msr : SyntheticMsr) (value : Nat) : CvexitState :=
  { s with nsvs := Function.update s.nsvs msr value }

/-- The number of pages to claim is a 64-bit difference. -/
def claimedPages : Nat :=
  (s.nsvs .claimGpaEnd + 2 ^ 64 - s.nsvs .claimGpaStart) % 2 ^ 64 / 2 ^ 12

/-- What a write does, and whether the guest goes on; none if it is a fault. -/
def writeSyntheticMsr : Option (Bool × CvexitState) :=
  let value := s.msrValue
  if s.msrIndex = nsvMsrGhcb then
    some (true, { s with vcpu.header.reg := Function.update s.vcpu.header.reg .ghcb value })
  else if s.msrIndex = nsvMsrActivation then
    if value / 2 ≠ 0 then none
    else some (false, nvcSvmNsvSynchronizeActivation ctx s (value.testBit 0))
  else if s.msrIndex = nsvMsrClaimGpaCmd then
    if s.vcpu.nsvGuest = false ∨ value / 2 ≠ 0 ∨ claimedPages s > 2 ^ 32 - 1 then none
    else some (false, s)
  else (writableSyntheticMsrs.lookup s.msrIndex).map fun msr => (true, s.withNsvs msr value)

def nvcSvmWrmsrNsvexitHandler : Bool × CvexitState :=
  match writeSyntheticMsr ctx s with
  | none => (true, injectGeneralProtection s)
  | some (noExit, s) => (noExit, s.advanceRip)

/-- The registers of MSRs that are in the VMCB and not cached. -/
def uncachedMsrs : List (Nat × Register) :=
  [(0x174, .sysenterCs), (0x175, .sysenterEsp), (0x176, .sysenterEip), (0xC0000081, .star),
    (0xC0000082, .lstar), (0xC0000083, .cstar), (0xC0000084, .sfmask), (0xC0000102, .gsswap)]

def baseMsrs : List (Nat × SegmentName) := [(0xC0000100, .fs), (0xC0000101, .gs)]

def amd64Tsc : Nat := 0x10
def amd64ApicBase : Nat := 0x1B
def amd64MtrrCap : Nat := 0xFE
def amd64Pat : Nat := 0x277
def amd64MtrrDefType : Nat := 0x2FF
def amd64Efer : Nat := 0xC0000080

def eferSvme : Nat := 12

/-- What the guest reads; none if the MSR is not emulated. -/
def nvcSvmRdmsrCvexitHandler : Option CvexitState :=
  let vmcb := s.vcpu.vmcb
  let guest : Register → Nat := fun r => vmcb.field (.guest r)
  let value : Option Nat :=
    if s.msrIndex = amd64Tsc then some ((guest .tscOffset + ctx.tsc) % 2 ^ 64)
    else if s.msrIndex = amd64ApicBase then some (s.vcpu.header.reg .apic)
    else if s.msrIndex = amd64MtrrCap then some 0x400
    else if s.msrIndex = amd64MtrrDefType then some ctx.mtrrDefType
    else if s.msrIndex = amd64Pat then some (guest .pat)
    else if s.msrIndex = amd64Efer then
      some (if s.vcpu.shadowedBits.svme then guest .efer else noirBtr (guest .efer) eferSvme)
    else match uncachedMsrs.lookup s.msrIndex with
      | some r => some (guest r)
      | none => (baseMsrs.lookup s.msrIndex).map vmcb.segmentBase
  value.map s.withMsrValue

def apicRsvdMask : Nat := 0xFFFF0000000006FF

/-- Only the bits of the APIC base that are neither its page nor the bootstrap flag may change. -/
def acceptsApicBase (old value : Nat) : Bool :=
  value &&& apicRsvdMask == 0 && value / 2 ^ 12 == old / 2 ^ 12 && value.testBit 8 == old.testBit 8

/-- What the guest writes; none if the MSR is not emulated or the value not accepted. -/
def nvcSvmWrmsrCvexitHandler : Option CvexitState :=
  let value := s.msrValue
  if s.msrIndex = amd64Tsc then
    some (s.withVmcb fun vmcb =>
      (vmcb.write (.guest .tscOffset) ((value + 2 ^ 64 - ctx.tsc) % 2 ^ 64)).dirty .interception)
  else if s.msrIndex = amd64ApicBase then
    if acceptsApicBase (s.vcpu.header.reg .apic) value then
      some { s with vcpu.header.reg := Function.update s.vcpu.header.reg .apic value }
    else none
  else if s.msrIndex = amd64Pat then
    some (s.withVmcb fun vmcb => (vmcb.write (.guest .pat) value).dirty .npt)
  else if s.msrIndex = amd64Efer then
    let shadowed := { s with vcpu.shadowedBits.svme := value.testBit eferSvme }
    some (shadowed.withVmcb fun vmcb =>
      (vmcb.write (.guest .efer) (noirBts value eferSvme)).dirty .controlReg)
  else match uncachedMsrs.lookup s.msrIndex with
    | some r => some (s.withVmcb (·.write (.guest r) value))
    | none => (baseMsrs.lookup s.msrIndex).map fun name => s.withVmcb (·.writeBase name value)

def msrClass (index : Nat) : Option MsrClass :=
  if index = 0x1B then some .apic
  else if index ∈ [0xFE, 0x250, 0x258, 0x259, 0x268, 0x269, 0x26A, 0x26B, 0x26C, 0x26D, 0x26E, 0x26F,
      0x277, 0x2FF] ∨ 0x200 ≤ index ∧ index ≤ 0x20F then some .mtrr
  else if index ∈ [0x174, 0x175, 0x176] then some .sysenter
  else if index ∈ [0x6A0, 0x6A2, 0x6A4, 0x6A5, 0x6A6, 0x6A7, 0x6A8] then some .cet
  else if index ∈ [0xC0000081, 0xC0000082, 0xC0000083, 0xC0000084, 0xC0000100, 0xC0000101,
      0xC0000102] then some .syscall
  else if index ∈ [0xC0010056, 0xC0010061, 0xC0010062, 0xC0010063, 0xC0010111, 0xC0010112,
      0xC0010113, 0xC001011A] then some .smm
  else if 0x800 ≤ index ∧ index ≤ 0x8FF then some .apic
  else none

/-- All are intercepted, unless the user hypervisor wants only some classes. -/
def interceptsMsr (index : Nat) : Bool :=
  match ctx.msrInterceptions with
  | none => true
  | some intercepts => (msrClass index).elim false intercepts

/-- After an emulated access RIP is advanced in the vCPU structure and not in the VMCB. An MSR that no
option intercepts is not emulated. -/
def nvcSvmMsrCvexitHandler : Option CvexitState :=
  let opWrite := ctx.exitInfo1 % 2 ^ 8 != 0
  if 0x40000000 ≤ s.msrIndex ∧ s.msrIndex < 0x80000000 then
    let (noExit, s) := if opWrite then nvcSvmWrmsrNsvexitHandler ctx s
      else (true, nvcSvmRdmsrNsvexitHandler s)
    if noExit then some s else cvexitToHost ctx s
  else if s.vcpu.header.vcpuOptions.interceptMsr then
    if interceptsMsr ctx s.msrIndex then cvexitToHost ctx s
    else match if opWrite then nvcSvmWrmsrCvexitHandler ctx s else nvcSvmRdmsrCvexitHandler ctx s with
      | some s => some { s with vcpu.header := ctx.misplaced s.vcpu.header }
      | none => injectInvalidOpcode ctx s
  else some s

/-! The tables of handlers and decoders by intercept code, and the handler of all exits. -/

/-- The code for invd is 0x76, for vmmcall 0x81. What is left, negative codes among it, goes to the
host. -/
def svmCvexitHandlers (code : Int) : Option CvexitState :=
  if code = 0x04 then some (nvcSvmCr4ReadCvexitHandler ctx s)
  else if code = 0x14 then some (nvcSvmCr4WriteCvexitHandler ctx s)
  else if code = 0x64 then nvcSvmVirtintCvexitHandler ctx s
  else if code = 0x72 then nvcSvmCpuidCvexitHandler ctx s
  else if code = 0x74 then nvcSvmIretCvexitHandler ctx s
  else if code = 0x76 then some s.advanceRip
  else if code = 0x78 ∨ code = 0x81 then toHostAutomatic ctx s
  else if code = 0x7B then nvcSvmIoCvexitHandler ctx s
  else if code = 0x7C then nvcSvmMsrCvexitHandler ctx s
  else if code = 0x7A ∨ 0x80 ≤ code ∧ code ≤ 0x86 then injectInvalidOpcode ctx s
  else if code = 0x401 ∨ code = 0x402 then some s
  else cvexitToHost ctx s

/-- The registers that fetching an instruction needs go to the vCPU structure. -/
def nvcSvmFetchInstruction : CvexitState :=
  let fetched : Register → Bool := fun r => r.inCrGroup || r == .efer
  { s with
    vcpu.header.reg := copyRegisters fetched (fun r => s.vcpu.vmcb.field (.guest r))
      s.vcpu.header.reg }

/-- The length of the instruction is found where the processor does not save the next RIP. -/
def nvcSvmDecoderInstructionHandler : CvexitState :=
  if ctx.nrips then s
  else
    let cs := s.vcpu.vmcb.field (.guest (.seg .cs .attrib))
    let nrip := s.vcpu.vmcb.field (.guest .rip) + ctx.instructionLength
    (nvcSvmFetchInstruction s).withVmcb
      (·.write .nextRip (if cs.testBit 9 then nrip % 2 ^ 32 else nrip % 2 ^ 64))

def nvcSvmDecoderIoHandler : CvexitState :=
  if ctx.nrips then s else s.withVmcb (·.write .nextRip ctx.exitInfo2)

/-- For page faults of the guest, and of nested paging. -/
def nvcSvmDecoderPfHandler : CvexitState :=
  if ctx.decodeAssists then s else nvcSvmFetchInstruction s

def isInstructionCode (code : Int) : Bool :=
  0x65 ≤ code && code ≤ 0x7D && code != 0x75 && code != 0x79 && code != 0x7B ||
    0x80 ≤ code && code ≤ 0x8E || 0xA0 ≤ code && code ≤ 0xA4 || code == 0x403

def svmDecoderHandlers (code : Int) : CvexitState :=
  if code = 0x4E ∨ code = 0x400 then nvcSvmDecoderPfHandler ctx s
  else if code = 0x7B then nvcSvmDecoderIoHandler ctx s
  else if isInstructionCode code then nvcSvmDecoderInstructionHandler ctx s
  else s

/-- RAX is in the VMCB while the guest runs, and in the frame while a handler does. -/
def CvexitState.exited (caching : Bool) : CvexitState :=
  let exited := (s.withReg .rax (s.vcpu.vmcb.field (.guest .rax))).withVmcb fun vmcb =>
    { vmcb with clean := fun b => caching || vmcb.clean b }.write .tlbControl 0
  { exited with vcpu.header.synchronized := false }

def CvexitState.resumed : CvexitState :=
  if s.toHost then s else s.withVmcb (·.write (.guest .rax) (s.p.reg .rax))

def nvcSvmExitHandler (caching : Bool) (code : Int) : Option CvexitState :=
  (svmCvexitHandlers ctx (svmDecoderHandlers ctx (s.exited caching) code) code).map
    CvexitState.resumed

end Handlers

/-- The bit that is set for every interception of exceptions. -/
def machineCheck : Nat := 18
def securityException : Nat := 30

/-- `vm` has the permission maps for the MSRs: the usual one, and the one that intercepts all. -/
structure SvmPermissionMaps where
  msrpm : Nat
  msrpmFull : Nat

def nvcSvmSetGuestVcpuOptions (vm : SvmPermissionMaps) (vcpu : SvmCustomVcpu) : SvmCustomVcpu :=
  let options := vcpu.header.vcpuOptions
  let vmcb := vcpu.vmcb
  let exceptions := if options.interceptExceptions then vcpu.header.exceptionBitmap else 0
  let exceptions := noirBts (noirBts exceptions machineCheck) securityException
  let accessCr := setBitTo (setBitTo (vmcb.field .interceptAccessCr) 0x03 options.interceptCr3) 0x13
    options.interceptCr3
  let rflags := vmcb.field (.guest .rflags)
  let set := ((((vmcb.write .interceptExceptions
      (if options.hiddenTf then noirBts exceptions debugException else exceptions)).write
    .interceptAccessCr accessCr).write
    .interceptAccessDr (if options.interceptDrx then 2 ^ 32 - 1 else 0)).write
    .msrpmPhysicalAddress (if options.interceptMsr then vm.msrpmFull else vm.msrpm)).write
    .interceptInstruction1 (setBitTo (vmcb.field .interceptInstruction1) 19 options.interceptRsm)
  { vcpu with
    specialState.mtfActive := options.hiddenTf
    shadowedBits.tf := if options.hiddenTf then rflags.testBit rflagsTf else vcpu.shadowedBits.tf
    vmcb := ((if options.hiddenTf then set.write (.guest .rflags) (noirBts rflags rflagsTf)
      else set).dirty .interception).dirty .iomsrpm }

end NoirVisor
