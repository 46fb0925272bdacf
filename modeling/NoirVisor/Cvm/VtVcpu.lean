import NoirVisor.Cvm.Processor

/-!
# Virtual CPUs on VT

The VMCS of a customizable VM with its list of MSRs, the world switches to the guest and to the host,
and the dump of the guest state to the structure that the layered hypervisor sees.
-/

namespace NoirVisor

/-- Fields of the VMCS. A register without a field has an entry that nothing uses. -/
inductive VmcsField where
  | guest (r : Register)
  | cr0ReadShadow | cr4ReadShadow
  | vmentryControls
  | vmentryInterruptionInformationField | vmentryExceptionErrorCode | vmentryInstructionLength
  | primaryProcessorBasedVmExecutionControls
  | guestInterruptibilityState
deriving DecidableEq, Repr

abbrev Vmcs := VmcsField → Nat

/-- The MSRs that fix the bits of CR0 and CR4. -/
structure VmxFixedBits where
  cr0Fixed0 : Nat
  cr0Fixed1 : Nat
  cr4Fixed0 : Nat
  cr4Fixed1 : Nat

/-- `msrAuto` is by the register that an entry of the list loads. -/
structure VtCustomVcpu where
  header : VirtualCpu
  vmcs : Vmcs
  msrAuto : Register → Nat
  procId : Nat

/-- What the switch reads and writes of the loader stack. -/
structure VtInitialStack where
  procId : Nat
  initialVmcs : Bool

/-- `noir_btr64`, and the other resets of bits. -/
def resetBits (value mask : Nat) : Nat := value - (value &&& mask)

def setBit (value n : Nat) (b : Bool) : Nat := resetBits value (2 ^ n) + b.toNat * 2 ^ n

def cr0Pe : Nat := 0
def cr0Pg : Nat := 31
def cr4VmxeBit : Nat := 0x2000
def eferLma : Nat := 10

/-- Unrestricted guest only allows PE and PG be cleared. -/
def vtCr0 (fixed : VmxFixedBits) (value : Nat) : Nat :=
  let cr0 := (value ||| fixed.cr0Fixed0) &&& fixed.cr0Fixed1
  let cr0 := if value.testBit cr0Pe then cr0 else resetBits cr0 (2 ^ cr0Pe)
  if value.testBit cr0Pg then cr0 else resetBits cr0 (2 ^ cr0Pg)

/-- What the VMCS has for a register of this value. -/
def vtEncode (fixed : VmxFixedBits) : Register → Nat → Nat
  | .cr0, value => vtCr0 fixed value
  | .cr4, value => (value ||| fixed.cr4Fixed0) &&& fixed.cr4Fixed1
  | _, value => value

/-- What the dump reads for a register. -/
def vtDecode : Register → Nat → Nat
  | .cr4, value => resetBits value cr4VmxeBit
  | .seg _ .attrib, value => value % 2 ^ 16
  | _, value => value

namespace Register

def inVtGprGroup : Register → Bool
  | .gpr i => i == 4
  | .rip | .rflags => true
  | _ => false

/-- What the switch loads and saves of the debug and control registers itself. -/
def isVtLate (r : Register) : Bool := r.isAddressBreakpoint || r == .dr6 || r == .cr2

end Register

def vtSwitched : Register → Bool := switched Register.isVtLate

namespace VtCustomVcpu

variable (fixed : VmxFixedBits) (cvcpu : VtCustomVcpu)

def loadGroup (c : StateCache) (select : Register → Bool) : VtCustomVcpu :=
  if cvcpu.header.stateCache c then cvcpu
  else
    { cvcpu with
      header.stateCache := Function.update cvcpu.header.stateCache c true
      vmcs := fun f =>
        match f with
        | .guest r => if select r then vtEncode fixed r (cvcpu.header.reg r) else cvcpu.vmcs f
        | _ => cvcpu.vmcs f }

/-- The guest reads what was set, and not the bits that VT-x requires. -/
def loadControlRegisters : VtCustomVcpu :=
  if cvcpu.header.stateCache .cr then cvcpu
  else
    let loaded := cvcpu.loadGroup fixed .cr Register.inCrGroup
    { loaded with
      vmcs := Function.update (Function.update loaded.vmcs .cr0ReadShadow (cvcpu.header.reg .cr0))
        .cr4ReadShadow (cvcpu.header.reg .cr4) }

/-- EFER.LMA must be identical to the IA-32e mode guest bit of the entry controls. -/
def loadEfer : VtCustomVcpu :=
  if cvcpu.header.stateCache .ef then cvcpu
  else
    let loaded := cvcpu.loadGroup fixed .ef (· == .efer)
    { loaded with
      vmcs := Function.update loaded.vmcs .vmentryControls
        (setBit (loaded.vmcs .vmentryControls) 9 ((cvcpu.header.reg .efer).testBit eferLma)) }

/-- The MSRs for the syscall instruction are in the list and not in the VMCS. -/
def loadSyscallMsrs : VtCustomVcpu :=
  if cvcpu.header.stateCache .sc then cvcpu
  else
    { cvcpu with
      header.stateCache := Function.update cvcpu.header.stateCache .sc true
      msrAuto := copyRegisters Register.inScGroup cvcpu.header.reg cvcpu.msrAuto }

/-- The registers that the VMCS and the list hold, in the order of the source. -/
def loadVmcs : VtCustomVcpu :=
  cvcpu
    |>.loadGroup fixed .gpr Register.inVtGprGroup
    |>.loadGroup fixed .dr (· == .dr7)
    |>.loadControlRegisters fixed
    |>.loadGroup fixed .sr Register.inSrGroup
    |>.loadGroup fixed .fg Register.inFsGs
    |>.loadGroup fixed .lt Register.inLtGroup
    |>.loadGroup fixed .dt Register.isDescriptorTable
    |>.loadEfer fixed
    |>.loadGroup fixed .pa (· == .pat)
    |>.loadGroup fixed .se Register.inSeGroup
    |>.loadSyscallMsrs

end VtCustomVcpu

def ia32ExternalInterrupt : Nat := 0
def ia32NonMaskableInterrupt : Nat := 2
def ia32NmiInterrupt : Nat := 2
def rflagsIf : Nat := 9

/-- `noir_vt_inject_event`. -/
def vtInjectEvent (vector type : Nat) (deliver : Bool) (length errCode : Nat) (vmcs : Vmcs) : Vmcs :=
  let information := vector % 2 ^ 8 + type % 2 ^ 3 * 2 ^ 8 + deliver.toNat * 2 ^ 11 + 2 ^ 31
  let vmcs := Function.update vmcs .vmentryInterruptionInformationField information
  let vmcs := if deliver then Function.update vmcs .vmentryExceptionErrorCode errCode else vmcs
  Function.update vmcs .vmentryInstructionLength length

/-- Wait for a window: the exit that it causes injects the event. -/
def setWindowExiting (n : Nat) (vmcs : Vmcs) : Vmcs :=
  Function.update vmcs .primaryProcessorBasedVmExecutionControls
    (setBit (vmcs .primaryProcessorBasedVmExecutionControls) n true)

def VtCustomVcpu.setEventInjection (cvcpu : VtCustomVcpu) : VtCustomVcpu :=
  let event := cvcpu.header.injectedEvent
  if !event.valid then
    { cvcpu with vmcs := Function.update cvcpu.vmcs .vmentryInterruptionInformationField 0 }
  else if event.type = ia32ExternalInterrupt then
    if event.priority > cvcpu.header.reg .cr8 % 2 ^ 4 then
      if !(cvcpu.header.reg .rflags).testBit rflagsIf then
        { cvcpu with
          vmcs := vtInjectEvent event.vector ia32ExternalInterrupt true 0 event.errorCode cvcpu.vmcs }
      else { cvcpu with vmcs := setWindowExiting 2 cvcpu.vmcs }
    else cvcpu
  else if event.type = ia32NonMaskableInterrupt then
    if !(cvcpu.vmcs .guestInterruptibilityState).testBit 3 then
      { cvcpu with
        vmcs := vtInjectEvent ia32NmiInterrupt ia32NonMaskableInterrupt false 0 0 cvcpu.vmcs }
    else { cvcpu with vmcs := setWindowExiting 22 cvcpu.vmcs }
  else
    { cvcpu with
      vmcs := Function.update
        (Function.update cvcpu.vmcs .vmentryInterruptionInformationField event.attributes)
        .vmentryExceptionErrorCode event.errorCode }

/-- A VMCS that was last used on another processor is cleared, and has to be launched. -/
def VtCustomVcpu.schedule (stack : VtInitialStack) (cvcpu : VtCustomVcpu) :
    VtInitialStack × VtCustomVcpu :=
  if cvcpu.procId ≠ stack.procId then
    ({ stack with initialVmcs := true }, { cvcpu with procId := stack.procId })
  else (stack, cvcpu)

/-- The states after the switch of the loader stack, of the processor, of the structure that keeps the
host, and of the vCPU; none if an instruction raises an exception. -/
def nvcVtSwitchToGuestVcpu (cpu : Xsave.Features) (fixed : VmxFixedBits) (stack : VtInitialStack)
    (p : Processor) (host : VirtualCpu) (cvcpu : VtCustomVcpu) :
    Option (VtInitialStack × Processor × VirtualCpu × VtCustomVcpu) :=
  let (stack, scheduled) := cvcpu.schedule stack
  let host := (host.saveRegisters vtSwitched p).saveExtended p
  (p.enterGuest cpu Register.isVtLate cvcpu.header).map fun p =>
    (stack, p, host, (scheduled.loadVmcs fixed).setEventInjection)

namespace VtCustomVcpu

variable (cvcpu : VtCustomVcpu)

/-- The general-purpose registers of the frame; RSP is in the VMCS. -/
def exitRegisters (p : Processor) : Register → Nat :=
  copyRegisters (· == .rsp) (fun r => cvcpu.vmcs (.guest r)) p.reg

def saveGuest (p : Processor) : VtCustomVcpu :=
  { cvcpu with
    header.reg := fun r =>
      if vtSwitched r then cvcpu.exitRegisters p r
      else if r == .rip || r == .rflags then cvcpu.vmcs (.guest r)
      else cvcpu.header.reg r }

end VtCustomVcpu

def nvcVtSwitchToHostVcpu (cpu : Xsave.Features) (p : Processor) (host : VirtualCpu)
    (cvcpu : VtCustomVcpu) : Option (Processor × VtCustomVcpu) :=
  let saved := cvcpu.saveGuest p
  (p.leaveGuest cpu Register.isVtLate host saved.header).map fun (p, header) =>
    (p, { saved with header })

namespace VtCustomVcpu

/-- One block of the dump: the registers of a valid group are read from the current VMCS. -/
def dumpGroup (read : Register → Nat) (c : StateCache) (select : Register → Bool)
    (cvcpu : VtCustomVcpu) : VtCustomVcpu :=
  if cvcpu.header.stateCache c then
    { cvcpu with header.reg := copyRegisters select (fun r => vtDecode r (read r)) cvcpu.header.reg }
  else cvcpu

end VtCustomVcpu

/-- The hypercall does not load the VMCS of the vCPU, so that `current` is another one. -/
def nvcVtDumpVcpuState (current : Vmcs) (vcpu : VtCustomVcpu) : VtCustomVcpu :=
  let vmread : Register → Nat := fun r => current (.guest r)
  vcpu
    |>.dumpGroup vmread .cr Register.inCrGroup
    |>.dumpGroup vmread .dr (· == .dr7)
    |>.dumpGroup vmread .sr Register.inSrGroup
    |>.dumpGroup vmread .fg Register.inFsGs
    |>.dumpGroup vcpu.msrAuto .fg (· == .gsswap)
    |>.dumpGroup vmread .dt Register.isDescriptorTable
    |>.dumpGroup vmread .lt Register.inLtGroup
    |>.dumpGroup vcpu.msrAuto .sc Register.inScGroup
    |>.dumpGroup vmread .se Register.inSeGroup

end NoirVisor
