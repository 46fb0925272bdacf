import NoirVisor.Cvm.Processor

/-!
# Virtual CPUs on SVM

The VMCB of a customizable VM, the world switches to the guest and to the host, and the dump of the
guest state to the structure that the layered hypervisor sees.
-/

namespace NoirVisor

/-- Fields of the VMCB. The field of CR8 is the virtual TPR; a register without a field has an entry
that nothing uses. The parts of `avic_control` are fields of their own. -/
inductive VmcbField where
  | guest (r : Register)
  | interceptAccessCr | interceptAccessDr | interceptExceptions
  | interceptInstruction1 | interceptInstruction2
  | iopmPhysicalAddress | msrpmPhysicalAddress
  | guestAsid | tlbControl
  | virtualIrq | virtualInterruptPriority | ignoreVirtualTpr | virtualInterruptMasking
  | virtualInterruptVector
  | nptControl | nptCr3
  | eventInjection | eventErrorCode
  | nextRip
deriving DecidableEq, Repr

/-- The bits of `vmcb_clean_bits` that some field belongs to. -/
inductive CleanBit where
  | interception | iomsrpm | asid | tpr | npt | controlReg | debugReg | idtGdt | segmentReg | cr2
  | lbr | avic | cet
deriving DecidableEq, Repr

structure Vmcb where
  field : VmcbField → Nat
  clean : CleanBit → Bool

namespace Vmcb

def write (vmcb : Vmcb) (f : VmcbField) (value : Nat) : Vmcb :=
  { vmcb with field := Function.update vmcb.field f value }

/-- `noir_svm_vmcb_btr32` on the clean bits. -/
def dirty (vmcb : Vmcb) (b : CleanBit) : Vmcb :=
  { vmcb with clean := Function.update vmcb.clean b false }

end Vmcb

structure ShadowedBits where
  mce : Bool
  svme : Bool
  tf : Bool

structure SpecialState where
  prevVirq : Bool
  prevNmi : Bool
  mtfActive : Bool
  switchSuccess : Bool

/-- The protected page of an NSV guest. `parent` tells whether it still points to its vCPU. -/
structure NsvVirtualCpu where
  reg : Register → Nat
  parent : Bool

structure SvmCustomVcpu where
  header : VirtualCpu
  vmcb : Vmcb
  procId : Nat
  shadowedBits : ShadowedBits
  specialState : SpecialState
  nsvGuest : Bool
  vmsa : NsvVirtualCpu

def tlbControlFlushGuest : Nat := 3

def svmAttrib (a : Nat) : Nat := (a &&& 0xFF ||| (a &&& 0xF000) >>> 4) &&& 0xFFF

def svmAttribInverse (a : Nat) : Nat := (a &&& 0xF00) <<< 4 ||| a &&& 0xFF

def eferSvmeBit : Nat := 0x1000

/-- What the VMCB has for a register of this value. -/
def svmEncode : Register → Nat → Nat
  | .seg _ .attrib, value => svmAttrib value
  | .cr8, value => value &&& 0xF
  | .efer, value => value ||| eferSvmeBit
  | _, value => value

/-- What the dump reads for a register from the VMCB. -/
def svmDecode (svme : Bool) : Register → Nat → Nat
  | .seg _ .attrib, value => svmAttribInverse value
  | .cr8, value => value &&& 0xF
  | .efer, value => if svme then value else value - (value &&& eferSvmeBit)
  | _, value => value

namespace Register

def inGprGroup : Register → Bool
  | .gpr i => i == 0 || i == 4
  | .rip | .rflags => true
  | _ => false

def inDrGroup : Register → Bool
  | .dr6 | .dr7 => true
  | _ => false

def inFgGroup (r : Register) : Bool := r.inFsGs || r == .gsswap

end Register

namespace SvmCustomVcpu

variable (cvcpu : SvmCustomVcpu)

/-- One block of the switch: a group that is not valid is written to the VMCB, and the clean bit of
its fields reset. -/
def loadGroup (c : StateCache) (select : Register → Bool) (b : Option CleanBit) : SvmCustomVcpu :=
  if cvcpu.header.stateCache c then cvcpu
  else
    { cvcpu with
      header.stateCache := Function.update cvcpu.header.stateCache c true
      vmcb.field := fun f =>
        match f with
        | .guest r => if select r then svmEncode r (cvcpu.header.reg r) else cvcpu.vmcb.field f
        | _ => cvcpu.vmcb.field f
      vmcb.clean := fun b' => cvcpu.vmcb.clean b' && b != some b' }

def flushTlb : SvmCustomVcpu :=
  { cvcpu with vmcb := cvcpu.vmcb.write .tlbControl tlbControlFlushGuest }

/-- Changes made to control registers can cause TLBs to be invalid. -/
def loadControlRegisters : SvmCustomVcpu :=
  if cvcpu.header.stateCache .cr then cvcpu
  else (cvcpu.loadGroup .cr Register.inCrGroup (some .controlReg)).flushTlb

/-- LME, LMA and NXE. -/
def eferTlbMask : Nat := 0xD00

def loadEfer : SvmCustomVcpu :=
  if cvcpu.header.stateCache .ef then cvcpu
  else
    let efer := cvcpu.header.reg .efer
    let flushed :=
      if cvcpu.vmcb.field (.guest .efer) &&& eferTlbMask ≠ efer &&& eferTlbMask then cvcpu.flushTlb
      else cvcpu
    { flushed.loadGroup .ef (· == .efer) (some .controlReg) with
      shadowedBits := { cvcpu.shadowedBits with svme := efer.testBit 12 } }

/-- The registers that the VMCB holds, in the order of the source. -/
def loadVmcb : SvmCustomVcpu :=
  cvcpu
    |>.loadGroup .gpr Register.inGprGroup none
    |>.loadGroup .dr Register.inDrGroup (some .debugReg)
    |>.loadControlRegisters
    |>.loadGroup .cr2 (· == .cr2) (some .cr2)
    |>.loadGroup .tp (· == .cr8) (some .tpr)
    |>.loadGroup .sr Register.inSrGroup (some .segmentReg)
    |>.loadGroup .fg Register.inFgGroup none
    |>.loadGroup .lt Register.inLtGroup none
    |>.loadGroup .dt Register.isDescriptorTable (some .idtGdt)
    |>.loadEfer
    |>.loadGroup .pa (· == .pat) (some .npt)
    |>.loadGroup .se Register.inSeGroup none
    |>.loadGroup .sc Register.inScGroup none
    |>.loadGroup .ts (· == .tscOffset) (some .interception)

def nmiInterrupt : Nat := 2

/-- Bit 20 of the first vector of instruction intercepts. -/
def interceptVector1Iret : Nat := 2 ^ 20

def setEventInjection : SvmCustomVcpu :=
  let event := cvcpu.header.injectedEvent
  if event.type ≠ 0 then
    if event.vector = nmiInterrupt then
      -- The NMI waits for its window: the intercepted iret injects it.
      { cvcpu with
        vmcb := (cvcpu.vmcb.write .interceptInstruction1
          (cvcpu.vmcb.field .interceptInstruction1 ||| interceptVector1Iret)).dirty .interception
        specialState.prevNmi := true
        header.vcpuOptions.blockingByNmi := true }
    else
      { cvcpu with
        vmcb := (cvcpu.vmcb.write .eventInjection event.attributes).write .eventErrorCode
          event.errorCode }
  else if cvcpu.specialState.prevVirq then
    { cvcpu with
      vmcb := ((((cvcpu.vmcb.write .virtualIrq event.valid.toNat).write .virtualInterruptVector
        event.vector).write .virtualInterruptPriority event.priority).write .ignoreVirtualTpr 0).dirty
          .tpr }
  else cvcpu

def flushNestedPaging : SvmCustomVcpu :=
  if cvcpu.header.stateCache .tl then cvcpu
  else
    { cvcpu.flushTlb with
      header.stateCache := Function.update cvcpu.header.stateCache .tl true }

/-- A vCPU scheduled to another processor starts with no clean bit. -/
def schedule (procId : Nat) : SvmCustomVcpu :=
  if cvcpu.procId ≠ procId then
    { cvcpu with procId, vmcb.clean := fun _ => false }
  else cvcpu

end SvmCustomVcpu

/-- The registers of the subverted host, or of a guest, that the switch saves and loads itself. -/
def svmSwitched : Register → Bool := switched Register.isAddressBreakpoint

/-- A page that was replaced is not loaded from. -/
def nvcSvmNsvLoadGuestVcpu (cpu : Xsave.Features) (vmsa : NsvVirtualCpu) (p : Processor) :
    Option (Processor × Bool) :=
  if vmsa.parent then
    (((p.loadRegisters Register.isGpr vmsa.reg).loadRegisters Register.isAddressBreakpoint
      vmsa.reg).xsetbv cpu (vmsa.reg .xcr0)).map fun p => (p, true)
  else some (p, false)

/-- The states after the switch of the processor, of the structure that keeps the host, and of the
vCPU; none if an instruction raises an exception. -/
def nvcSvmSwitchToGuestVcpu (cpu : Xsave.Features) (procId : Nat) (p : Processor) (host : VirtualCpu)
    (cvcpu : SvmCustomVcpu) : Option (Processor × VirtualCpu × SvmCustomVcpu) :=
  let scheduled := cvcpu.schedule procId
  let host := (host.saveRegisters svmSwitched p).saveExtended p
  if cvcpu.nsvGuest then
    (nvcSvmNsvLoadGuestVcpu cpu cvcpu.vmsa p).map fun (p, success) =>
      (p, host, { scheduled with specialState.switchSuccess := success }
        |>.setEventInjection |>.flushNestedPaging)
  else
    (p.enterGuest cpu Register.isAddressBreakpoint cvcpu.header).map fun p =>
      (p, host, { scheduled.loadVmcb with specialState.switchSuccess := true }
        |>.setEventInjection |>.flushNestedPaging)

namespace SvmCustomVcpu

variable (cvcpu : SvmCustomVcpu)

/-- The general-purpose registers of the frame; RAX and RSP are in the VMCB. -/
def exitRegisters (p : Processor) : Register → Nat :=
  copyRegisters (fun r => r == .rax || r == .rsp) (fun r => cvcpu.vmcb.field (.guest r)) p.reg

def saveGuest (p : Processor) : SvmCustomVcpu :=
  { cvcpu with
    header.reg := fun r =>
      if svmSwitched r then cvcpu.exitRegisters p r
      else if r == .rip || r == .rflags then cvcpu.vmcb.field (.guest r)
      else cvcpu.header.reg r
    specialState.switchSuccess := true }

/-- The event injection field, and the virtual interrupt if there is no event in it. -/
def saveEventInjection : SvmCustomVcpu :=
  let event : EventInjection :=
    ⟨cvcpu.vmcb.field .eventInjection, cvcpu.vmcb.field .eventErrorCode⟩
  let event :=
    if !event.valid && cvcpu.specialState.prevVirq then
      { event with
        attributes := cvcpu.vmcb.field .virtualInterruptVector % 2 ^ 8 +
          cvcpu.vmcb.field .virtualInterruptPriority % 2 ^ 4 * 2 ^ 27 +
          cvcpu.vmcb.field .virtualIrq % 2 * 2 ^ 31 }
    else event
  { cvcpu with header.injectedEvent := event }

end SvmCustomVcpu

/-- A replaced page is not saved to. The RSP of an NSV guest stays in the VMCB. -/
def nvcSvmNsvSaveGuestVcpu (p : Processor) (cvcpu : SvmCustomVcpu) : SvmCustomVcpu :=
  if cvcpu.vmsa.parent then
    { cvcpu with
      vmsa.reg := fun r =>
        if svmSwitched r then p.reg r else cvcpu.vmsa.reg r
      specialState.switchSuccess := true }
  else { cvcpu with specialState.switchSuccess := false }

def nvcSvmSwitchToHostVcpu (cpu : Xsave.Features) (p : Processor) (host : VirtualCpu)
    (cvcpu : SvmCustomVcpu) : Option (Processor × SvmCustomVcpu) :=
  let saved :=
    (if cvcpu.nsvGuest then nvcSvmNsvSaveGuestVcpu p cvcpu else cvcpu.saveGuest p).saveEventInjection
  (p.leaveGuest cpu Register.isAddressBreakpoint host saved.header).map fun (p, header) =>
    (p, { saved with header })

namespace SvmCustomVcpu

variable (cvcpu : SvmCustomVcpu)

/-- One block of the dump: the registers of a valid group are read from the VMCB. -/
def dumpGroup (c : StateCache) (select : Register → Bool) : SvmCustomVcpu :=
  if cvcpu.header.stateCache c then
    { cvcpu with
      header.reg := fun r =>
        if select r then svmDecode cvcpu.shadowedBits.svme r (cvcpu.vmcb.field (.guest r))
        else cvcpu.header.reg r }
  else cvcpu

end SvmCustomVcpu

def nvcSvmDumpGuestVcpuState (vcpu : SvmCustomVcpu) : SvmCustomVcpu :=
  let dumped := vcpu
    |>.dumpGroup .cr Register.inCrGroup
    |>.dumpGroup .cr2 (· == .cr2)
    |>.dumpGroup .dr Register.inDrGroup
    |>.dumpGroup .sr Register.inSrGroup
    |>.dumpGroup .fg Register.inFsGs
    |>.dumpGroup .dt Register.isDescriptorTable
    |>.dumpGroup .lt Register.inLtGroup
    |>.dumpGroup .sc Register.inScGroup
    |>.dumpGroup .se Register.inSeGroup
    |>.dumpGroup .tp (· == .cr8)
    |>.dumpGroup .ef (· == .efer)
    |>.dumpGroup .pa (· == .pat)
  { dumped with header.synchronized := true }

end NoirVisor
