import NoirVisor.BitField
import NoirVisor.Cvm.CpuidQuickpath
import NoirVisor.Cvm.SvmCvexit
import NoirVisor.Cvm.VtEvents

/-!
# Exits of a virtual CPU on VT

The handlers of the exits that an instruction of a customizable VM causes. The guest is resumed, or
the processor is switched to the host, which finds out from the exit context what has happened.
-/

namespace NoirVisor

def cvRdmsrInstruction : Nat := 7
def cvWrmsrInstruction : Nat := 8
def cvCrAccess : Nat := 9
def cvHypercall : Nat := 11
def cvException : Nat := 12

def ncvmCpuidLeafRangeAndVendorString : Nat := 0x40000000
def ncvmCpuidVendorNeutralInterfaceId : Nat := 0x40000001
def ncvmCpuidLeafLimit : Nat := 0x40000001
def ia32CpuidStdProcFeature : Nat := 1
def ia32CpuidVmx : Nat := 5
def ia32CpuidHvPresence : Nat := 31

def cr0Ts : Nat := 3
def cr4Vmxe : Nat := 13

/-- The part of `noir_cvm_exit_context` that every exit with a context has. -/
structure GenericExitContext where
  cs : SegmentField → Nat
  rip : Nat
  rflags : Nat
  nextRip : Nat
  instructionLength : Nat
  intShadow : Bool
  pe : Bool
  lm : Bool
  cpl : Nat

/-- The union is given by its 32-bit words: a context that does not fill in a word leaves what an
earlier one has put there. -/
structure VtExitContext where
  interceptCode : Nat
  word : Nat → Nat
  generic : GenericExitContext

/-- What the handlers read and do not change. The structure of the host was saved when the guest was
entered, so that its state can be loaded again. `stackEdx` is what a variable on the stack has
before it is assigned, and `atNull` what a copy from the null address gives. -/
structure VtCvexitInformation where
  cpu : Xsave.Features
  host : VirtualCpu
  loadable : HostLoadable cpu host
  qualification : Nat
  instructionLength : Nat
  instructionLength_pos : 0 < instructionLength
  instructionLength_le : instructionLength ≤ 15
  vpid : Nat
  cpuid : Nat → Nat → CpuidGeneralInfo
  stackEdx : Nat
  atNull : Option CpuidGeneralInfo

/-- What the handlers change. The registers of the frame are those of `p`, and `invalidated` has the
VPIDs that invvpid was executed for. -/
structure VtCvexitState where
  p : Processor
  vcpu : VtCustomVcpu
  pendingDebugExceptions : Nat
  invalidated : List Nat
  exitContext : VtExitContext
  toHost : Bool

/-- `ia32_cr_access_qualification`. -/
inductive ControlAccess where
  | write (cr gpr : Fin 16)
  | read (cr gpr : Fin 16)
  | clts
  | lmsw (src : Nat)
deriving DecidableEq

def controlAccess (qualification : Nat) : ControlAccess :=
  let crNum := Fin.ofNat 16 (BitField.get qualification 0 4)
  let gprNum := Fin.ofNat 16 (BitField.get qualification 8 4)
  match BitField.get qualification 4 2 with
  | 0 => .write crNum gprNum
  | 1 => .read crNum gprNum
  | 2 => .clts
  | _ => .lmsw (BitField.get qualification 16 16)

namespace VtCvexitState

variable (info : VtCvexitInformation) (s : VtCvexitState)

/-- What the guest has in its registers. -/
def held : Register → Nat := vtHeld s.p s.vcpu

def vmwrite (f : VmcsField) (value : Nat) : VtCvexitState :=
  { s with vcpu.vmcs := Function.update s.vcpu.vmcs f value }

def withReg (r : Register) (value : Nat) : VtCvexitState :=
  { s with p.reg := Function.update s.p.reg r value }

def noirVtSetSingleStepping : VtCvexitState :=
  { s with pendingDebugExceptions := setBit s.pendingDebugExceptions 14 true }.vmwrite
    .guestInterruptibilityState
    (setBit (setBit (s.vcpu.vmcs .guestInterruptibilityState) 0 false) 1 false)

/-- Out of long mode the upper half is cut off. -/
def advancedRip : Nat :=
  let gip := (s.vcpu.vmcs (.guest .rip) + info.instructionLength) % 2 ^ 64
  if (s.vcpu.vmcs (.guest (.seg .cs .attrib))).testBit 13 then gip else gip % 2 ^ 32

def noirVtAdvanceRip : VtCvexitState :=
  let stepped :=
    if (s.vcpu.vmcs (.guest .rflags)).testBit rflagsTf then s.noirVtSetSingleStepping else s
  stepped.vmwrite (.guest .rip) (s.advancedRip info)

def noirVtInjectEvent (vector type : Nat) (deliver : Bool) (length errCode : Nat) : VtCvexitState :=
  { s with vcpu.vmcs := vtInjectEvent vector type deliver length errCode s.vcpu.vmcs }

def noirVtInvvpid (vpid : Nat) : VtCvexitState := { s with invalidated := s.invalidated ++ [vpid] }

def genericContext : GenericExitContext where
  cs field := s.vcpu.vmcs (.guest (.seg .cs field))
  rip := s.vcpu.vmcs (.guest .rip)
  rflags := s.vcpu.vmcs (.guest .rflags)
  nextRip := (s.vcpu.vmcs (.guest .rip) + info.instructionLength) % 2 ^ 64
  instructionLength := info.instructionLength % 2 ^ 4
  intShadow := (s.vcpu.vmcs .guestInterruptibilityState).testBit 1
  pe := (s.vcpu.vmcs (.guest .cr0)).testBit cr0Pe
  lm := (s.vcpu.vmcs (.guest .efer)).testBit eferLma
  cpl := BitField.get (s.vcpu.vmcs (.guest (.seg .ss .attrib))) 5 2

def nvcVtSaveGenericCvexitContext : VtCvexitState :=
  { s with
    vcpu := s.vcpu.nvcVtSaveGenericCvexitContext
    exitContext.generic := s.genericContext info }

def switchToHost : Option VtCvexitState :=
  (nvcVtSwitchToHostVcpu info.cpu s.p info.host s.vcpu).map fun (p, vcpu) =>
    { s with p, vcpu, toHost := true }

/-- An assignment to the union of the exit context. -/
def assign (word offset width value : Nat) : VtCvexitState :=
  { s with
    exitContext.word := Function.update s.exitContext.word word
      (BitField.set (s.exitContext.word word) offset width value) }

def interceptedBy (code : Nat) : VtCvexitState := { s with exitContext.interceptCode := code }

/-- Without `reserved` and `fetched_bytes`, which not every handler assigns. -/
def assignException (vector : Nat) (evValid : Bool) : VtCvexitState :=
  (((s.interceptedBy cvException).assign 0 0 5 vector).assign 0 5 1 evValid.toNat).assign 1 0 32 0

end VtCvexitState

section Handlers

variable (info : VtCvexitInformation) (s : VtCvexitState)

def VtCvexitState.deliver : Option VtCvexitState :=
  (s.nvcVtSaveGenericCvexitContext info).switchToHost info

/-- What the handler of CPUID finds out: the vendor string is written over `ebx`, `ecx` and `edx`,
and the copy for the other leaves of the hypervisor has the value 0 as its source. -/
def nvcVtCpuidInfo (leaf subleaf : Nat) : Option CpuidGeneralInfo :=
  if leaf / 2 ^ 30 = 1 then
    if leaf = ncvmCpuidLeafRangeAndVendorString then
      some ⟨ncvmCpuidLeafLimit, 0x72696F4E, 0x6F736956, 0x545A2072⟩
    else if leaf = ncvmCpuidVendorNeutralInterfaceId then some ⟨0, 0, 0, info.stackEdx⟩
    else info.atNull
  else
    let general := info.cpuid leaf subleaf
    if leaf = ia32CpuidStdProcFeature then
      some { general with
        ecx := noirBtr (noirBts general.ecx ia32CpuidHvPresence) ia32CpuidVmx }
    else some general

def VtCvexitState.cpuidInfo : Option CpuidGeneralInfo :=
  nvcVtCpuidInfo info (s.p.reg .rax % 2 ^ 32) (s.p.reg (.gpr 1) % 2 ^ 32)

def nvcVtCpuidCvexitHandler : Option VtCvexitState :=
  if s.vcpu.header.vcpuOptions.interceptCpuid then
    (s.deliver info).map fun s =>
      ((s.interceptedBy cvCpuidInstruction).assign 0 0 32 (s.vcpu.header.reg .rax)).assign 1 0 32
        (s.vcpu.header.reg (.gpr 1))
  else
    -- No register is assigned.
    (s.cpuidInfo info).map fun _ => s.noirVtAdvanceRip info

def nvcVtVmcallCvexitHandler : Option VtCvexitState :=
  (s.deliver info).map (·.interceptedBy cvHypercall)

/-- Nested virtualization of a customizable VM is unsupported. -/
def unsupportedInstruction : Option VtCvexitState :=
  if s.vcpu.header.exceptionBitmap.testBit invalidOpcode &&
      s.vcpu.header.vcpuOptions.interceptExceptions then
    (((s.assignException invalidOpcode false).assign 0 6 26 0).assign 4 0 8 0).deliver info
  else some s

def nvcVtVmclearCvexitHandler : Option VtCvexitState := unsupportedInstruction info s
def nvcVtVmlaunchCvexitHandler : Option VtCvexitState := unsupportedInstruction info s
def nvcVtVmptrldCvexitHandler : Option VtCvexitState := unsupportedInstruction info s
def nvcVtVmptrstCvexitHandler : Option VtCvexitState := unsupportedInstruction info s
def nvcVtVmreadCvexitHandler : Option VtCvexitState := unsupportedInstruction info s
def nvcVtVmresumeCvexitHandler : Option VtCvexitState := unsupportedInstruction info s
def nvcVtVmwriteCvexitHandler : Option VtCvexitState := unsupportedInstruction info s
def nvcVtVmxoffCvexitHandler : Option VtCvexitState := unsupportedInstruction info s
def nvcVtVmxonCvexitHandler : Option VtCvexitState := unsupportedInstruction info s
def nvcVtInveptCvexitHandler : Option VtCvexitState := unsupportedInstruction info s
def nvcVtInvvpidCvexitHandler : Option VtCvexitState := unsupportedInstruction info s

/-- A write and a read of CR3 have the same context. -/
def reportCr3 (gpr : Fin 16) : Option VtCvexitState :=
  (s.deliver info).map fun s =>
    (((((s.interceptedBy cvCrAccess).assign 0 0 4 3).assign 0 4 4 gpr).assign 0 8 1 1).assign 0 9 1
      0).assign 0 10 22 0

/-- What a write and a read of CR3 do alike: the register goes to CR3. -/
def emulateCr3 (vpid : Nat) (gpr : Fin 16) : VtCvexitState :=
  let s := if gpr = 4 then s.withReg .rsp (s.vcpu.vmcs (.guest .rsp)) else s
  ((s.vmwrite (.guest .cr3) (s.p.reg (.gpr gpr))).noirVtInvvpid vpid).noirVtAdvanceRip info

/-- Nothing is written to CR4. -/
def emulateWriteCr4 (gpr : Fin 16) : Option VtCvexitState :=
  let val := s.vcpu.exitRegisters s.p (.gpr gpr)
  if val.testBit cr4Vmxe then
    if s.vcpu.header.exceptionBitmap.testBit generalProtection &&
        s.vcpu.header.vcpuOptions.interceptExceptions then
      (s.deliver info).map (·.assignException generalProtection true)
    else some (s.noirVtInjectEvent generalProtection ia32HardwareExceptionType true 0 0)
  else some s

def handleControlAccess : ControlAccess → Option VtCvexitState
  | .write 3 gpr =>
      if s.vcpu.header.vcpuOptions.interceptCr3 then reportCr3 info s gpr
      else some (emulateCr3 info s info.vpid gpr)
  | .write 4 gpr => emulateWriteCr4 info s gpr
  | .write 8 gpr => some { s with vcpu := s.vcpu.nvcVtCrAccessCvexitHandlerCr8 s.p gpr }
  | .read 3 gpr =>
      if s.vcpu.header.vcpuOptions.interceptCr3 then reportCr3 info s gpr
      else some (emulateCr3 info s 0 gpr)
  | .read 8 gpr =>
      let cr8 := s.vcpu.header.reg .cr8
      some (if gpr = 4 then s.vmwrite (.guest .rsp) cr8 else s.withReg (.gpr gpr) cr8)
  | .clts =>
      let reset := fun f => noirBtr (s.vcpu.vmcs f) cr0Ts
      some ((s.vmwrite (.guest .cr0) (reset (.guest .cr0))).vmwrite .cr0ReadShadow
        (reset .cr0ReadShadow))
  | .lmsw src =>
      let load := fun f => BitField.set (s.vcpu.vmcs f) 0 16 src
      some ((s.vmwrite (.guest .cr0) (load (.guest .cr0))).vmwrite .cr0ReadShadow
        (load .cr0ReadShadow))
  | .write _ _ | .read _ _ => some s

def nvcVtCrAccessCvexitHandler : Option VtCvexitState :=
  handleControlAccess info s (controlAccess info.qualification)

/-- The two handlers of an MSR differ in the code alone. -/
def msrCvexitHandler (code : Nat) : Option VtCvexitState :=
  if s.vcpu.header.vcpuOptions.interceptMsr then
    (s.deliver info).map fun s => (s.interceptedBy code).assign 0 0 32 (s.vcpu.header.reg .rax)
  else if !s.vcpu.header.vcpuOptions.interceptExceptions then
    some (s.noirVtInjectEvent generalProtection ia32HardwareExceptionType true 0 0)
  else (s.deliver info).map fun s => (s.assignException generalProtection true).assign 0 6 26 0

def nvcVtRdmsrCvexitHandler : Option VtCvexitState := msrCvexitHandler info s cvRdmsrInstruction
def nvcVtWrmsrCvexitHandler : Option VtCvexitState := msrCvexitHandler info s cvWrmsrInstruction

end Handlers

/-- The instructions that a VM has no support for. -/
inductive UnsupportedInstruction where
  | vmclear | vmlaunch | vmptrld | vmptrst | vmread | vmresume | vmwrite | vmxoff | vmxon
  | invept | invvpid
deriving DecidableEq

inductive VtCvexit where
  | cpuid
  | vmcall
  | unsupported (instruction : UnsupportedInstruction)
  | crAccess
  | msr (write : Bool)
deriving DecidableEq

/-- The entries of `vt_cvexit_handlers`. -/
def VtCvexit.handle (info : VtCvexitInformation) (s : VtCvexitState) :
    VtCvexit → Option VtCvexitState
  | cpuid => nvcVtCpuidCvexitHandler info s
  | vmcall => nvcVtVmcallCvexitHandler info s
  | unsupported .vmclear => nvcVtVmclearCvexitHandler info s
  | unsupported .vmlaunch => nvcVtVmlaunchCvexitHandler info s
  | unsupported .vmptrld => nvcVtVmptrldCvexitHandler info s
  | unsupported .vmptrst => nvcVtVmptrstCvexitHandler info s
  | unsupported .vmread => nvcVtVmreadCvexitHandler info s
  | unsupported .vmresume => nvcVtVmresumeCvexitHandler info s
  | unsupported .vmwrite => nvcVtVmwriteCvexitHandler info s
  | unsupported .vmxoff => nvcVtVmxoffCvexitHandler info s
  | unsupported .vmxon => nvcVtVmxonCvexitHandler info s
  | unsupported .invept => nvcVtInveptCvexitHandler info s
  | unsupported .invvpid => nvcVtInvvpidCvexitHandler info s
  | crAccess => nvcVtCrAccessCvexitHandler info s
  | msr false => nvcVtRdmsrCvexitHandler info s
  | msr true => nvcVtWrmsrCvexitHandler info s

/-- What the host is told. An exception has its error code if it is valid. -/
inductive VtReport where
  | cpuid (a c : Nat)
  | hypercall
  | msr (write : Bool) (eax edx ecx : Nat)
  | crAccess (number gpr : Nat) (mov write : Bool)
  | exception (vector : Nat) (errorCode : Option Nat)
deriving DecidableEq

namespace VtExitContext

def field (c : VtExitContext) (word offset width : Nat) : Nat :=
  BitField.get (c.word word) offset width

/-- The exit context as the host reads it: the code tells which member of the union is in use. -/
def report (c : VtExitContext) : Option VtReport :=
  if c.interceptCode = cvCpuidInstruction then some (.cpuid (c.field 0 0 32) (c.field 1 0 32))
  else if c.interceptCode = cvHypercall then some .hypercall
  else if c.interceptCode = cvRdmsrInstruction then
    some (.msr false (c.field 0 0 32) (c.field 1 0 32) (c.field 2 0 32))
  else if c.interceptCode = cvWrmsrInstruction then
    some (.msr true (c.field 0 0 32) (c.field 1 0 32) (c.field 2 0 32))
  else if c.interceptCode = cvCrAccess then
    some (.crAccess (c.field 0 0 4) (c.field 0 4 4) (c.field 0 8 1 == 1) (c.field 0 9 1 == 1))
  else if c.interceptCode = cvException then
    some (.exception (c.field 0 0 5) (if c.field 0 5 1 = 1 then some (c.field 1 0 32) else none))
  else none

end VtExitContext

/-- The guest sees its own VMXE, and the other bits of CR4 as the processor has them. -/
def VtCvexitState.guestCr4 (s : VtCvexitState) : Nat :=
  BitField.set (s.held .cr4) cr4Vmxe 1 ((s.vcpu.vmcs .cr4ReadShadow).testBit cr4Vmxe).toNat

/-- A control register as the guest sees it, of those that a mov instruction can have. -/
def VtCvexitState.seenControl (s : VtCvexitState) (cr : Fin 16) : Option Nat :=
  match cr with
  | 0 => some (s.held .cr0)
  | 3 => some (s.held .cr3)
  | 4 => some s.guestCr4
  | 8 => some (s.held .cr8)
  | _ => none

namespace ControlAccess

def controlRegister (cr : Fin 16) : Option Register :=
  match cr with
  | 0 => some .cr0
  | 3 => some .cr3
  | 4 => some .cr4
  | 8 => some .cr8
  | _ => none

/-- The register that an access writes. -/
def destination : ControlAccess → Option Register
  | write cr _ => controlRegister cr
  | read _ gpr => some (.gpr gpr)
  | clts | lmsw _ => some .cr0

/-- What the access is to leave in its destination. PE cannot be cleared. -/
def Emulated (s s' : VtCvexitState) : ControlAccess → Prop
  | write cr gpr => s'.seenControl cr = some (s.held (.gpr gpr))
  | read cr gpr => s.seenControl cr = some (s'.held (.gpr gpr))
  | clts => s'.held .cr0 = noirBtr (s.held .cr0) cr0Ts
  | lmsw src => s'.held .cr0 = BitField.set (s.held .cr0) 0 4 (src ||| (s.held .cr0) % 2)

/-- What the host is told of an access. -/
def report : ControlAccess → VtReport
  | write cr gpr => .crAccess cr gpr true true
  | read cr gpr => .crAccess cr gpr true false
  | clts | lmsw _ => .crAccess 0 0 false true

end ControlAccess

namespace VtCvexit

variable (info : VtCvexitInformation) (s : VtCvexitState)

/-- The exception that the instruction raises where it may not be executed, and whether it has an
error code. -/
def fault : VtCvexit → Option (Nat × Bool)
  | unsupported _ => some (invalidOpcode, false)
  | crAccess | msr _ => some (generalProtection, true)
  | cpuid | vmcall => none

/-- What the host is to be told of the instruction. -/
def instructionReport : VtCvexit → Option VtReport
  | cpuid => some (.cpuid (s.held .rax % 2 ^ 32) (s.held (.gpr 1) % 2 ^ 32))
  | vmcall => some .hypercall
  | unsupported _ => none
  | crAccess => some (controlAccess info.qualification).report
  | msr write =>
      some (.msr write (s.held .rax % 2 ^ 32) (s.held (.gpr 2) % 2 ^ 32) (s.held (.gpr 1) % 2 ^ 32))

/-- The host takes over the instruction, or the exception that it raises. -/
def Reportable (report : VtReport) (e : VtCvexit) : Prop :=
  e.instructionReport info s = some report ∨
    ∃ vector deliver, e.fault = some (vector, deliver) ∧
      report = .exception vector (if deliver then some 0 else none)

/-- The registers that the instruction writes besides RIP. -/
def writes : VtCvexit → Register → Prop
  | cpuid, r => r = .rax ∨ r = .gpr 3 ∨ r = .gpr 1 ∨ r = .gpr 2
  | crAccess, r => (controlAccess info.qualification).destination = some r
  | _, _ => False

/-- The results of the instruction are where they belong. -/
def Results (s' : VtCvexitState) : VtCvexit → Prop
  | cpuid => ∃ general, s.cpuidInfo info = some general ∧
      s'.held .rax % 2 ^ 32 = general.eax ∧ s'.held (.gpr 3) % 2 ^ 32 = general.ebx ∧
        s'.held (.gpr 1) % 2 ^ 32 = general.ecx ∧ s'.held (.gpr 2) % 2 ^ 32 = general.edx
  | crAccess => (controlAccess info.qualification).Emulated s s'
  | _ => False

inductive Disposition where
  | toHost | emulated | fault
deriving DecidableEq

def Ends (s' : VtCvexitState) (e : VtCvexit) : Disposition → Prop
  | .toHost => s'.toHost = true ∧ s'.exitContext.generic = s.genericContext info ∧
      ∃ report, s'.exitContext.report = some report ∧ e.Reportable info s report
  | .emulated => s'.toHost = false ∧ s'.held .rip = s.advancedRip info ∧ e.Results info s s' ∧
      ∀ r, r ≠ .rip → ¬e.writes info r → s'.held r = s.held r
  | .fault => s'.toHost = false ∧ (∀ r, s'.held r = s.held r) ∧
      ∃ vector deliver, e.fault = some (vector, deliver) ∧
        s'.vcpu.vmcs .vmentryInterruptionInformationField =
            interruptionInformation vector ia32HardwareExceptionType deliver ∧
          (deliver = true → s'.vcpu.vmcs .vmentryExceptionErrorCode = 0)

def EndsIn (e : VtCvexit) (disposition : Disposition) : Prop :=
  ∃ s', e.handle info s = some s' ∧ e.Ends info s s' disposition

/-- The guest executes the instruction again, with nothing changed. -/
def Repeats (e : VtCvexit) : Prop :=
  ∃ s', e.handle info s = some s' ∧ s'.toHost = false ∧ (∀ r, s'.held r = s.held r) ∧
    (s'.vcpu.vmcs .vmentryInterruptionInformationField).testBit 31 = false

def Behaves (e : VtCvexit) : Prop :=
  (∃! disposition, e.EndsIn info s disposition) ∧ ¬e.Repeats info s

/-- CR3 is written without interception, or read with it or into a register that has it already. A
write of CR4 sets VMXE. -/
def AccessSettled : ControlAccess → Prop
  | .write 3 _ => s.vcpu.header.vcpuOptions.interceptCr3 = false
  | .write 4 gpr => (s.held (.gpr gpr)).testBit cr4Vmxe = true
  | .read 3 gpr => s.vcpu.header.vcpuOptions.interceptCr3 = true ∨ s.held (.gpr gpr) = s.held .cr3
  | _ => False

/-- CPUID is intercepted, or the registers have its results anyway. The words of the exit context
that no handler of an MSR assigns have EDX and ECX. -/
def Settled : VtCvexit → Prop
  | cpuid => s.vcpu.header.vcpuOptions.interceptCpuid = true ∨ cpuid.Results info s s
  | vmcall => True
  | unsupported _ => s.vcpu.header.exceptionBitmap.testBit invalidOpcode = true ∧
      s.vcpu.header.vcpuOptions.interceptExceptions = true
  | crAccess => AccessSettled s (controlAccess info.qualification)
  | msr _ => s.vcpu.header.vcpuOptions.interceptMsr = true →
      s.exitContext.field 1 0 32 = s.held (.gpr 2) % 2 ^ 32 ∧
        s.exitContext.field 2 0 32 = s.held (.gpr 1) % 2 ^ 32

end VtCvexit

/-- A state at an exit: the exit has cleared the valid bit of the event. -/
structure VtCvexitState.AtExit (s : VtCvexitState) : Prop where
  guest : s.toHost = false
  noEvent : (s.vcpu.vmcs .vmentryInterruptionInformationField).testBit 31 = false

section Context

variable {s : VtCvexitState} {word word' offset offset' width width' value : Nat}

@[simp]
theorem field_assign_self :
    (s.assign word offset width value).exitContext.field word offset width = value % 2 ^ width := by
  simp [VtCvexitState.assign, VtExitContext.field]

@[simp]
theorem field_assign_of_ne (h : word' ≠ word) :
    (s.assign word offset width value).exitContext.field word' offset' width' =
      s.exitContext.field word' offset' width' := by
  simp [VtCvexitState.assign, VtExitContext.field, h]

theorem field_assign_of_apart (h : offset + width ≤ offset' ∨ offset' + width' ≤ offset) :
    (s.assign word offset width value).exitContext.field word offset' width' =
      s.exitContext.field word offset' width' := by
  simp [VtCvexitState.assign, VtExitContext.field, BitField.get_set_of_apart h]

/-- The exit context is one of this exception, whatever else it has. -/
structure VtExitContext.OfException (vector : Nat) (evValid : Bool) (c : VtExitContext) : Prop where
  code : c.interceptCode = cvException
  vector : c.field 0 0 5 = vector
  evValid : c.field 0 5 1 = evValid.toNat
  errorCode : c.field 1 0 32 = 0

theorem VtExitContext.OfException.report {vector : Nat} {evValid : Bool} {c : VtExitContext}
    (h : c.OfException vector evValid) :
    c.report = some (.exception vector (if evValid then some 0 else none)) := by
  unfold VtExitContext.report
  rw [h.code, h.vector, h.evValid, h.errorCode]
  cases evValid <;> rfl

theorem ofException_assignException {vector : Nat} {evValid : Bool} (hvector : vector < 2 ^ 5) :
    (s.assignException vector evValid).exitContext.OfException vector evValid := by
  unfold VtCvexitState.assignException
  refine ⟨rfl, ?_, ?_, field_assign_self⟩
  · rw [field_assign_of_ne (by decide), field_assign_of_apart (.inr (by decide)), field_assign_self,
      Nat.mod_eq_of_lt hvector]
  · rw [field_assign_of_ne (by decide), field_assign_self]
    cases evValid <;> rfl

/-- The rest of the first word, and the words after the error code. -/
theorem VtExitContext.OfException.assign {vector : Nat} {evValid : Bool}
    (h : s.exitContext.OfException vector evValid) (hrest : word = 0 ∧ 6 ≤ offset ∨ 2 ≤ word) :
    (s.assign word offset width value).exitContext.OfException vector evValid := by
  have hkept {offset' width' : Nat} (hlow : offset' + width' ≤ 6) :
      (s.assign word offset width value).exitContext.field 0 offset' width' =
        s.exitContext.field 0 offset' width' := by
    rcases hrest with ⟨rfl, hoffset⟩ | hword
    · exact field_assign_of_apart (.inr (hlow.trans hoffset))
    · exact field_assign_of_ne (by omega)
  refine ⟨h.code, (hkept (by decide)).trans h.vector, (hkept (by decide)).trans h.evValid, ?_⟩
  rw [field_assign_of_ne (by omega)]
  exact h.errorCode

theorem report_crAccess {c : VtExitContext} (hcode : c.interceptCode = cvCrAccess) :
    c.report = some (.crAccess (c.field 0 0 4) (c.field 0 4 4) (c.field 0 8 1 == 1)
      (c.field 0 9 1 == 1)) := by
  unfold VtExitContext.report
  rw [hcode]
  rfl

end Context

section Delivered

variable {info : VtCvexitInformation} {s : VtCvexitState}

theorem advancedRip_ne : s.advancedRip info ≠ s.held .rip := by
  have hrip : s.held .rip = s.vcpu.vmcs (.guest .rip) := rfl
  have hpos := info.instructionLength_pos
  have hle := info.instructionLength_le
  unfold VtCvexitState.advancedRip
  dsimp only
  rw [hrip]
  split <;> omega

theorem held_vmwrite_guest {r : Register} {value : Nat} (hhome : vtHome r ≠ .cache)
    (hlist : inMsrAuto r = false) :
    (s.vmwrite (.guest r) value).held = Function.update s.held r value := by
  funext r'
  by_cases hr : r' = r
  · subst hr
    rw [Function.update_self]
    unfold VtCvexitState.held vtHeld
    split
    · next hcache => exact absurd hcache hhome
    · simp [VtCustomVcpu.block, VtCvexitState.vmwrite, hlist]
  · rw [Function.update_of_ne hr]
    have hfield : VmcsField.guest r' ≠ .guest r := fun h => hr (VmcsField.guest.inj h)
    unfold VtCvexitState.held vtHeld VtCustomVcpu.block VtCvexitState.vmwrite
    dsimp only
    rw [Function.update_of_ne hfield]

/-- The registers of the guest are where they were. -/
theorem held_congr {s' : VtCvexitState} (hp : s'.p = s.p)
    (hreg : s'.vcpu.header.reg = s.vcpu.header.reg) (hlist : s'.vcpu.msrAuto = s.vcpu.msrAuto)
    (hvmcs : ∀ r, s'.vcpu.vmcs (.guest r) = s.vcpu.vmcs (.guest r)) : s'.held = s.held := by
  funext r
  unfold VtCvexitState.held vtHeld VtCustomVcpu.block
  rw [hp, hreg, hlist, hvmcs]

theorem held_vmwrite_of_not_guest {f : VmcsField} {value : Nat} (h : ∀ r, f ≠ .guest r) :
    (s.vmwrite f value).held = s.held :=
  held_congr rfl rfl rfl fun r => Function.update_of_ne (h r).symm _ _

theorem held_noirVtInjectEvent {vector type length errCode : Nat} {deliver : Bool} :
    (s.noirVtInjectEvent vector type deliver length errCode).held = s.held := by
  refine held_congr rfl rfl rfl fun r => ?_
  unfold VtCvexitState.noirVtInjectEvent
  dsimp only
  exact VtCustomVcpu.vtInjectEvent_guest

/-- RSP has a place in the frame, but is not there. -/
theorem held_withReg_rsp {value : Nat} : (s.withReg .rsp value).held = s.held := by
  funext r
  unfold VtCvexitState.held vtHeld
  split
  · next hcache =>
      have hr : r ≠ .rsp := by
        rintro rfl
        cases hcache
      simp [VtCvexitState.withReg, hr]
  · rfl

theorem held_withReg_gpr {i : Fin 16} {value : Nat} (hi : i ≠ 4) :
    (s.withReg (.gpr i) value).held = Function.update s.held (.gpr i) value := by
  have hhome : vtHome (.gpr i) = .cache := if_neg hi
  funext r
  by_cases hr : r = .gpr i
  · subst hr
    rw [Function.update_self]
    unfold VtCvexitState.held vtHeld
    rw [hhome]
    simp [VtCvexitState.withReg, vtSwitched, switched, Register.isGpr]
  · rw [Function.update_of_ne hr]
    simp [VtCvexitState.held, vtHeld, VtCvexitState.withReg, hr]

theorem held_noirVtAdvanceRip :
    (s.noirVtAdvanceRip info).held = Function.update s.held .rip (s.advancedRip info) := by
  unfold VtCvexitState.noirVtAdvanceRip
  dsimp only
  rw [held_vmwrite_guest (r := .rip) (by rintro ⟨⟩) rfl]
  split
  · unfold VtCvexitState.noirVtSetSingleStepping
    rw [held_vmwrite_of_not_guest (by rintro r ⟨⟩)]
    rfl
  · rfl

theorem exitRegisters_of_ne {i : Fin 16} {v : VtCustomVcpu} {p : Processor} (hi : i ≠ 4) :
    v.exitRegisters p (.gpr i) = p.reg (.gpr i) := by
  have hrsp : (Register.gpr i == Register.rsp) = false := by simp [Register.rsp, hi]
  exact copyRegisters_of_not_selected hrsp

theorem held_gpr {i : Fin 16} : s.held (.gpr i) = s.vcpu.exitRegisters s.p (.gpr i) := by
  by_cases hi : i = 4
  · subst hi
    rfl
  · rw [exitRegisters_of_ne hi]
    simp [VtCvexitState.held, vtHeld, vtHome, hi, vtSwitched, switched, Register.isGpr]

theorem exited_gpr {i : Fin 16} {v : VtCustomVcpu} {p : Processor} {xcr0 : Nat} :
    (v.exited xcr0 p).header.reg (.gpr i) = v.exitRegisters p (.gpr i) := by
  simp [VtCustomVcpu.exited, VtCustomVcpu.saveGuest, VirtualCpu.savedWith, vtSwitched, switched,
    Register.isGpr]

/-- What a write of CR8 does: it may let an interrupt through, or wait for the window for it. -/
structure VtCustomVcpu.WritesCr8 (p : Processor) (gpr : Fin 16) (v v' : VtCustomVcpu) : Prop where
  reg : v'.header.reg = Function.update v.header.reg .cr8 (v.exitRegisters p (.gpr gpr))
  options : v'.header.vcpuOptions = v.header.vcpuOptions
  msrAuto : v'.msrAuto = v.msrAuto
  guest : ∀ r, v'.vmcs (.guest r) = v.vmcs (.guest r)
  cr4ReadShadow : v'.vmcs .cr4ReadShadow = v.vmcs .cr4ReadShadow
  event :
    v'.vmcs .vmentryInterruptionInformationField = v.vmcs .vmentryInterruptionInformationField ∨
      ∃ vector deliver, v'.vmcs .vmentryInterruptionInformationField =
        interruptionInformation vector ia32ExternalInterrupt deliver

theorem VtCustomVcpu.writesCr8 (v : VtCustomVcpu) (p : Processor) (gpr : Fin 16) :
    v.WritesCr8 p gpr (v.nvcVtCrAccessCvexitHandlerCr8 p gpr) := by
  unfold VtCustomVcpu.nvcVtCrAccessCvexitHandlerCr8
  dsimp only
  split
  · split
    · have hevent : vtInjectEvent v.header.injectedEvent.vector ia32ExternalInterrupt
          (v.header.injectedEvent.attributes.testBit 11) 0 v.header.injectedEvent.errorCode v.vmcs
            .vmentryInterruptionInformationField = _ := vtInjectEvent_information
      refine ⟨rfl, rfl, rfl, fun r => ?_, ?_, .inr ⟨_, _, hevent⟩⟩
      · dsimp only
        exact vtInjectEvent_of_ne nofun nofun nofun
      · dsimp only
        exact vtInjectEvent_of_ne nofun nofun nofun
    · have hkept (f : VmcsField) (hf : f ≠ .primaryProcessorBasedVmExecutionControls) :
          setWindowExiting interruptWindowExiting v.vmcs f = v.vmcs f :=
        Function.update_of_ne hf _ _
      exact ⟨rfl, rfl, rfl, fun r => hkept (.guest r) nofun, hkept .cr4ReadShadow nofun,
        .inl (hkept .vmentryInterruptionInformationField nofun)⟩
  · exact ⟨rfl, rfl, rfl, fun _ => rfl, rfl, .inl rfl⟩

/-- The host runs, the structure has the registers of the guest, and nothing is in the union yet. -/
structure Delivered (info : VtCvexitInformation) (s s' : VtCvexitState) : Prop where
  toHost : s'.toHost = true
  context : s'.exitContext = { s.exitContext with generic := s.genericContext info }
  reg : ∀ i, s'.vcpu.header.reg (.gpr i) = s.held (.gpr i)

theorem exists_delivered (info : VtCvexitInformation) (s : VtCvexitState) :
    ∃ s', s.deliver info = some s' ∧ Delivered info s s' := by
  have hswitch : nvcVtSwitchToHostVcpu info.cpu s.p info.host s.vcpu.nvcVtSaveGenericCvexitContext =
      _ := nvcVtSwitchToHostVcpu_eq info.loadable
  exact ⟨_, congrArg _ hswitch, rfl, rfl, fun i => exited_gpr.trans held_gpr.symm⟩

theorem Delivered.generic {s' : VtCvexitState} (h : Delivered info s s') :
    s'.exitContext.generic = s.genericContext info := by rw [h.context]

theorem Delivered.ofException {s' : VtCvexitState} {vector : Nat} {evValid : Bool}
    (h : Delivered info s s') (hcontext : s.exitContext.OfException vector evValid) :
    s'.exitContext.OfException vector evValid := by
  rw [h.context]
  exact ⟨hcontext.code, hcontext.vector, hcontext.evValid, hcontext.errorCode⟩

end Delivered

namespace VtCvexit

section Ends

variable {info : VtCvexitInformation} {s s' : VtCvexitState} {e : VtCvexit}

theorem endsIn_iff (h : e.handle info s = some s') {disposition : Disposition} :
    e.EndsIn info s disposition ↔ e.Ends info s s' disposition := by
  constructor
  · rintro ⟨s'', hs'', hends⟩
    cases h.symm.trans hs''
    exact hends
  · exact fun hends => ⟨s', h, hends⟩

theorem Ends.toHost_eq {disposition : Disposition} (h : e.Ends info s s' disposition) :
    s'.toHost = (disposition == .toHost) := by
  cases disposition with
  | toHost => exact h.1
  | emulated => exact h.1
  | fault => exact h.1

/-- RIP is advanced or stays, so that a guest that goes on has one of two ends. -/
theorem not_emulated_and_fault (hemulated : e.Ends info s s' .emulated)
    (hfault : e.Ends info s s' .fault) : False :=
  advancedRip_ne (hemulated.2.1.symm.trans (hfault.2.1 .rip))

theorem behaves_iff_of_toHost {report : VtReport} (h : e.handle info s = some s')
    (hhost : s'.toHost = true) (hgeneric : s'.exitContext.generic = s.genericContext info)
    (hreport : s'.exitContext.report = some report) :
    e.Behaves info s ↔ e.Reportable info s report := by
  constructor
  · rintro ⟨⟨disposition, hends, -⟩, -⟩
    have hends := (endsIn_iff h).mp hends
    have hdisposition := hends.toHost_eq
    rw [hhost] at hdisposition
    cases disposition with
    | toHost =>
        obtain ⟨-, -, report', hreport', hreportable⟩ := hends
        cases hreport.symm.trans hreport'
        exact hreportable
    | emulated => cases hdisposition
    | fault => cases hdisposition
  · intro hreportable
    refine ⟨⟨.toHost, (endsIn_iff h).mpr ⟨hhost, hgeneric, report, hreport, hreportable⟩, ?_⟩, ?_⟩
    · intro disposition hends
      have hdisposition := ((endsIn_iff h).mp hends).toHost_eq
      rw [hhost] at hdisposition
      exact beq_iff_eq.mp hdisposition.symm
    · rintro ⟨s'', hs'', hguest, -⟩
      cases h.symm.trans hs''
      rw [hhost] at hguest
      cases hguest

theorem behaves_iff_of_resumed (h : e.handle info s = some s') (hguest : s'.toHost = false) :
    e.Behaves info s ↔ e.Ends info s s' .emulated ∨ e.Ends info s s' .fault := by
  constructor
  · rintro ⟨⟨disposition, hends, -⟩, -⟩
    have hends := (endsIn_iff h).mp hends
    cases disposition with
    | toHost =>
        have hhost := hends.toHost_eq
        rw [hguest] at hhost
        cases hhost
    | emulated => exact .inl hends
    | fault => exact .inr hends
  · intro hends
    have hrepeats : ¬e.Repeats info s := by
      rintro ⟨s'', hs'', -, hheld, hnone⟩
      cases h.symm.trans hs''
      rcases hends with hemulated | hfault
      · exact advancedRip_ne (hemulated.2.1.symm.trans (hheld .rip))
      · obtain ⟨-, -, vector, deliver, -, hinformation, -⟩ := hfault
        rw [hinformation, information_valid] at hnone
        cases hnone
    refine ⟨existsUnique_of_exists_of_unique ?_ ?_, hrepeats⟩
    · rcases hends with hemulated | hfault
      · exact ⟨_, (endsIn_iff h).mpr hemulated⟩
      · exact ⟨_, (endsIn_iff h).mpr hfault⟩
    · intro d d' hd hd'
      have hd := (endsIn_iff h).mp hd
      have hd' := (endsIn_iff h).mp hd'
      cases d with
      | toHost => exact absurd (hguest.symm.trans hd.toHost_eq) Bool.false_ne_true
      | emulated =>
          cases d' with
          | toHost => exact absurd (hguest.symm.trans hd'.toHost_eq) Bool.false_ne_true
          | emulated => rfl
          | fault => exact (not_emulated_and_fault hd hd').elim
      | fault =>
          cases d' with
          | toHost => exact absurd (hguest.symm.trans hd'.toHost_eq) Bool.false_ne_true
          | emulated => exact (not_emulated_and_fault hd' hd).elim
          | fault => rfl

/-- A handler that leaves RIP alone and raises no exception has none of the ends. -/
theorem not_behaves_of_stuck (h : e.handle info s = some s')
    (hguest : s'.toHost = false) (hrip : s'.held .rip = s.held .rip)
    (hevent : ∀ vector deliver, s'.vcpu.vmcs .vmentryInterruptionInformationField ≠
      interruptionInformation vector ia32HardwareExceptionType deliver) :
    ¬e.Behaves info s := by
  rw [behaves_iff_of_resumed h hguest]
  rintro (hemulated | ⟨-, -, vector, deliver, -, hinformation, -⟩)
  · exact advancedRip_ne (hemulated.2.1.symm.trans hrip)
  · exact hevent vector deliver hinformation

end Ends

section Exits

variable {info : VtCvexitInformation} {s : VtCvexitState}

/-- CPUID without interception leaves every register but RIP. -/
theorem results_noirVtAdvanceRip :
    cpuid.Results info s (s.noirVtAdvanceRip info) ↔ cpuid.Results info s s := by
  have hheld (i : Fin 16) : (s.noirVtAdvanceRip info).held (.gpr i) = s.held (.gpr i) := by
    rw [held_noirVtAdvanceRip]
    exact Function.update_of_ne (by rintro ⟨⟩) _ _
  unfold Results Register.rax
  simp only [hheld]

theorem cpuid_behaves_iff (hs : s.AtExit) : cpuid.Behaves info s ↔ cpuid.Settled info s := by
  unfold Settled
  by_cases hintercept : s.vcpu.header.vcpuOptions.interceptCpuid = true
  · obtain ⟨s', hdeliver, hdelivered⟩ := exists_delivered info s
    have hhandle : cpuid.handle info s = (s.deliver info).map _ := if_pos hintercept
    rw [hdeliver, Option.map_some] at hhandle
    rw [behaves_iff_of_toHost hhandle hdelivered.toHost hdelivered.generic (if_pos rfl)]
    refine iff_of_true (.inl ?_) (.inl hintercept)
    rw [field_assign_of_ne (by decide), field_assign_self, field_assign_self, hdelivered.reg]
    exact congrArg (fun a => some (VtReport.cpuid (a % 2 ^ 32) _)) (hdelivered.reg 0).symm
  · have hnot : s.vcpu.header.vcpuOptions.interceptCpuid ≠ true := hintercept
    have hhandle : cpuid.handle info s = (s.cpuidInfo info).map fun _ => s.noirVtAdvanceRip info :=
      if_neg hnot
    rw [or_iff_right hnot]
    cases hinfo : s.cpuidInfo info with
    | none =>
        refine iff_of_false ?_ ?_
        · rintro ⟨⟨disposition, ⟨s', hs', -⟩, -⟩, -⟩
          rw [hhandle, hinfo] at hs'
          cases hs'
        · rintro ⟨general, hgeneral, -⟩
          rw [hinfo] at hgeneral
          cases hgeneral
    | some general =>
        rw [hinfo] at hhandle
        have hrip : (s.noirVtAdvanceRip info).held .rip = s.advancedRip info := by
          rw [held_noirVtAdvanceRip, Function.update_self]
        have hguest : (s.noirVtAdvanceRip info).toHost = false := by
          unfold VtCvexitState.noirVtAdvanceRip
          dsimp only
          split <;> exact hs.guest
        rw [behaves_iff_of_resumed hhandle hguest, ← results_noirVtAdvanceRip]
        constructor
        · rintro (⟨-, -, hresults, -⟩ | ⟨-, hheld, -⟩)
          · exact hresults
          · exact absurd (hrip.symm.trans (hheld .rip)) advancedRip_ne
        · intro hresults
          refine .inl ⟨hguest, hrip, hresults, fun r hr _ => ?_⟩
          rw [held_noirVtAdvanceRip, Function.update_of_ne hr]

theorem vmcall_behaves : vmcall.Behaves info s := by
  obtain ⟨s', hdeliver, hdelivered⟩ := exists_delivered info s
  have hhandle : vmcall.handle info s = (s.deliver info).map _ := rfl
  rw [hdeliver, Option.map_some] at hhandle
  rw [behaves_iff_of_toHost hhandle hdelivered.toHost hdelivered.generic rfl]
  exact .inl rfl

theorem interruptionInformation_ne {event : Nat} (h : event.testBit 31 = false) (vector type : Nat)
    (deliver : Bool) : event ≠ interruptionInformation vector type deliver := by
  rintro rfl
  rw [information_valid] at h
  cases h

/-- A handler that neither advances RIP nor injects an event lets the guest execute the instruction
again. -/
theorem not_behaves_of_quiet {e : VtCvexit} {s' : VtCvexitState} (hs : s.AtExit)
    (h : e.handle info s = some s') (hguest : s'.toHost = s.toHost)
    (hrip : s'.held .rip = s.held .rip)
    (hevent : s'.vcpu.vmcs .vmentryInterruptionInformationField =
      s.vcpu.vmcs .vmentryInterruptionInformationField) : ¬e.Behaves info s := by
  refine not_behaves_of_stuck h (hguest.trans hs.guest) hrip fun vector deliver => ?_
  rw [hevent]
  exact interruptionInformation_ne hs.noEvent _ _ _

theorem unsupported_behaves_iff (hs : s.AtExit) {instruction : UnsupportedInstruction} :
    (unsupported instruction).Behaves info s ↔ (unsupported instruction).Settled info s := by
  have hhandle : (unsupported instruction).handle info s = unsupportedInstruction info s := by
    cases instruction <;> rfl
  unfold unsupportedInstruction at hhandle
  unfold Settled
  rw [← Bool.and_eq_true]
  split at hhandle
  · next hdelivers =>
      obtain ⟨s', hdeliver, hdelivered⟩ := exists_delivered info
        (((s.assignException invalidOpcode false).assign 0 6 26 0).assign 4 0 8 0)
      rw [hdeliver] at hhandle
      have hcontext : s'.exitContext.OfException invalidOpcode false :=
        hdelivered.ofException (((ofException_assignException (by decide)).assign
          (.inl ⟨rfl, le_rfl⟩)).assign (.inr (by decide)))
      rw [behaves_iff_of_toHost hhandle hdelivered.toHost hdelivered.generic hcontext.report]
      exact iff_of_true (.inr ⟨invalidOpcode, false, rfl, rfl⟩) hdelivers
  · next hdelivers => exact iff_of_false (not_behaves_of_quiet hs hhandle rfl rfl rfl) hdelivers

theorem injected_behaves {e : VtCvexit} (hs : s.AtExit)
    (hfault : e.fault = some (generalProtection, true))
    (h : e.handle info s =
      some (s.noirVtInjectEvent generalProtection ia32HardwareExceptionType true 0 0)) :
    e.Behaves info s := by
  rw [behaves_iff_of_resumed h hs.guest]
  refine .inr ⟨hs.guest, fun r => congrFun held_noirVtInjectEvent r, _, _, hfault, ?_, fun _ => ?_⟩
  · unfold VtCvexitState.noirVtInjectEvent
    dsimp only
    exact vtInjectEvent_information
  · simp [VtCvexitState.noirVtInjectEvent, vtInjectEvent]

theorem exception_behaves {e : VtCvexit} {s' t : VtCvexitState} (h : Delivered info s s')
    (hfault : e.fault = some (generalProtection, true)) (hhandle : e.handle info s = some t)
    (hhost : t.toHost = s'.toHost) (hgeneric : t.exitContext.generic = s'.exitContext.generic)
    (hcontext : t.exitContext.OfException generalProtection true) : e.Behaves info s := by
  rw [behaves_iff_of_toHost hhandle (hhost.trans h.toHost) (hgeneric.trans h.generic)
    hcontext.report]
  exact .inr ⟨generalProtection, true, hfault, rfl⟩

theorem msr_behaves_iff (hs : s.AtExit) {write : Bool} :
    (msr write).Behaves info s ↔ (msr write).Settled info s := by
  let code := if write then cvWrmsrInstruction else cvRdmsrInstruction
  have hhandle : (msr write).handle info s = msrCvexitHandler info s code := by
    cases write <;> rfl
  obtain ⟨s', hdeliver, hdelivered⟩ := exists_delivered info s
  unfold msrCvexitHandler at hhandle
  rw [hdeliver, Option.map_some, Option.map_some] at hhandle
  unfold Settled
  split at hhandle
  · next hintercept =>
      have hfields : ∀ word, word ≠ 0 →
          (((s'.interceptedBy code).assign 0 0 32 (s'.vcpu.header.reg .rax)).exitContext.field word
            0 32) = s.exitContext.field word 0 32 := by
        intro word hword
        rw [field_assign_of_ne hword]
        calc
          _ = s'.exitContext.field word 0 32 := rfl
          _ = s.exitContext.field word 0 32 := by rw [hdelivered.context]; rfl
      have hreport : ((s'.interceptedBy code).assign 0 0 32
          (s'.vcpu.header.reg .rax)).exitContext.report =
            some (.msr write (s.held .rax % 2 ^ 32) (s.exitContext.field 1 0 32)
              (s.exitContext.field 2 0 32)) := by
        rw [← hfields 1 (by decide), ← hfields 2 (by decide), Register.rax, ← hdelivered.reg,
          ← field_assign_self]
        cases write <;> rfl
      rw [behaves_iff_of_toHost hhandle hdelivered.toHost hdelivered.generic hreport]
      constructor
      · rintro (hreported | ⟨vector, deliver, -, hexception⟩) -
        · have hmsr := Option.some.inj hreported
          exact ⟨(VtReport.msr.inj hmsr).2.2.1.symm, (VtReport.msr.inj hmsr).2.2.2.symm⟩
        · cases hexception
      · intro hwords
        rw [(hwords hintercept).1, (hwords hintercept).2]
        exact .inl rfl
  · next hintercept =>
      refine iff_of_true ?_ fun h => absurd h hintercept
      split at hhandle
      · exact injected_behaves hs rfl hhandle
      · have hcontext : (s'.assignException generalProtection true).exitContext.OfException
            generalProtection true := ofException_assignException (by decide)
        exact exception_behaves hdelivered rfl hhandle rfl rfl
          (hcontext.assign (.inl ⟨rfl, le_rfl⟩))

theorem reportCr3_behaves_iff {gpr : Fin 16} (h : crAccess.handle info s = reportCr3 info s gpr) :
    crAccess.Behaves info s ↔
      (controlAccess info.qualification).report = .crAccess 3 gpr true false := by
  obtain ⟨s', hdeliver, hdelivered⟩ := exists_delivered info s
  unfold reportCr3 at h
  rw [hdeliver, Option.map_some] at h
  have hreport := report_crAccess (c := ((((((s'.interceptedBy cvCrAccess).assign 0 0 4 3).assign 0
    4 4 gpr).assign 0 8 1 1).assign 0 9 1 0).assign 0 10 22 0).exitContext) rfl
  simp (disch := decide) only [field_assign_of_apart, field_assign_self] at hreport
  have hgpr : gpr.val % 2 ^ 4 = gpr := Nat.mod_eq_of_lt gpr.isLt
  rw [hgpr] at hreport
  have hreport : _ = some (VtReport.crAccess 3 gpr true false) := hreport
  rw [behaves_iff_of_toHost h hdelivered.toHost hdelivered.generic hreport]
  constructor
  · rintro (hreported | ⟨vector, deliver, -, hexception⟩)
    · exact Option.some.inj hreported
    · cases hexception
  · exact fun hreported => .inl (congrArg some hreported)

theorem held_emulateCr3 {vpid : Nat} {gpr : Fin 16} :
    (emulateCr3 info s vpid gpr).held =
      Function.update (Function.update s.held .cr3 (s.held (.gpr gpr))) .rip
        (s.advancedRip info) := by
  have hcr3 (t : VtCvexitState) (value : Nat) :
      ((t.vmwrite (.guest .cr3) value).noirVtInvvpid vpid).held =
        Function.update t.held .cr3 value := by
    rw [← held_vmwrite_guest (r := .cr3) (by rintro ⟨⟩) rfl]
    rfl
  unfold emulateCr3
  rw [held_noirVtAdvanceRip, hcr3, held_gpr]
  by_cases hgpr : gpr = 4
  · subst hgpr
    rw [if_pos rfl, held_withReg_rsp]
    have hvalue {value : Nat} : (s.withReg .rsp value).p.reg (.gpr 4) = value := by
      simp [VtCvexitState.withReg, Register.rsp]
    rw [hvalue]
    rfl
  · rw [if_neg hgpr, exitRegisters_of_ne hgpr]
    rfl

theorem emulateCr3_toHost {vpid : Nat} {gpr : Fin 16} :
    (emulateCr3 info s vpid gpr).toHost = s.toHost := by
  unfold emulateCr3 VtCvexitState.noirVtAdvanceRip
  dsimp only
  split <;> split <;> rfl

theorem emulateCr3_behaves_iff (hs : s.AtExit) {vpid : Nat} {gpr : Fin 16}
    (h : crAccess.handle info s = some (emulateCr3 info s vpid gpr)) :
    crAccess.Behaves info s ↔
      crAccess.Results info s (emulateCr3 info s vpid gpr) ∧
        (¬crAccess.writes info .cr3 → s.held (.gpr gpr) = s.held .cr3) := by
  have hguest : (emulateCr3 info s vpid gpr).toHost = false := emulateCr3_toHost.trans hs.guest
  have hrip : (emulateCr3 info s vpid gpr).held .rip = s.advancedRip info := by
    rw [held_emulateCr3, Function.update_self]
  have hcr3 : (emulateCr3 info s vpid gpr).held .cr3 = s.held (.gpr gpr) := by
    rw [held_emulateCr3, Function.update_of_ne (by decide), Function.update_self]
  rw [behaves_iff_of_resumed h hguest]
  constructor
  · rintro (⟨-, -, hresults, hothers⟩ | ⟨-, hheld, -⟩)
    · exact ⟨hresults, fun hwrites => hcr3.symm.trans (hothers .cr3 (by decide) hwrites)⟩
    · exact absurd (hrip.symm.trans (hheld .rip)) advancedRip_ne
  · rintro ⟨hresults, hothers⟩
    refine .inl ⟨hguest, hrip, hresults, fun r hr hwrites => ?_⟩
    by_cases hregister : r = .cr3
    · subst hregister
      rw [hcr3, hothers hwrites]
    · rw [held_emulateCr3, Function.update_of_ne hr, Function.update_of_ne hregister]

/-- An interrupt that is let through is no exception. -/
theorem not_behaves_of_writeCr8 (hs : s.AtExit) {e : VtCvexit} {gpr : Fin 16}
    (h : e.handle info s =
      some { s with vcpu := s.vcpu.nvcVtCrAccessCvexitHandlerCr8 s.p gpr }) :
    ¬e.Behaves info s := by
  have hwritten := VtCustomVcpu.writesCr8 s.vcpu s.p gpr
  refine not_behaves_of_stuck h hs.guest (hwritten.guest .rip) fun vector deliver => ?_
  rcases hwritten.event with hkept | ⟨vector', deliver', hinjected⟩
  · rw [hkept]
    exact interruptionInformation_ne hs.noEvent _ _ _
  · rw [hinjected]
    intro hinformation
    have htype := congrArg (fun event => event / 2 ^ 8 % 2 ^ 3) hinformation
    rw [information_type, information_type] at htype
    exact absurd htype (by decide)

theorem writeCr4_behaves_iff (hs : s.AtExit) {gpr : Fin 16}
    (hhandle : crAccess.handle info s = emulateWriteCr4 info s gpr) :
    crAccess.Behaves info s ↔ (s.held (.gpr gpr)).testBit cr4Vmxe = true := by
  unfold emulateWriteCr4 at hhandle
  rw [← held_gpr] at hhandle
  dsimp only at hhandle
  split at hhandle
  · next hvmxe =>
      refine iff_of_true ?_ hvmxe
      split at hhandle
      · obtain ⟨s', hdeliver, hdelivered⟩ := exists_delivered info s
        rw [hdeliver, Option.map_some] at hhandle
        exact exception_behaves hdelivered rfl hhandle rfl rfl
          (ofException_assignException (by decide))
      · exact injected_behaves hs rfl hhandle
  · next hvmxe => exact iff_of_false (not_behaves_of_quiet hs hhandle rfl rfl rfl) hvmxe

theorem cr3_behaves_iff (hs : s.AtExit) {gpr : Fin 16} (write : Bool)
    (haccess : controlAccess info.qualification = if write then .write 3 gpr else .read 3 gpr) :
    crAccess.Behaves info s ↔
      if write then s.vcpu.header.vcpuOptions.interceptCr3 = false
      else s.vcpu.header.vcpuOptions.interceptCr3 = true ∨ s.held (.gpr gpr) = s.held .cr3 := by
  have hhandle : crAccess.handle info s =
      if s.vcpu.header.vcpuOptions.interceptCr3 then reportCr3 info s gpr
      else some (emulateCr3 info s (if write then info.vpid else 0) gpr) := by
    change handleControlAccess info s (controlAccess info.qualification) = _
    rw [haccess]
    cases write <;> rfl
  have hcr3 {vpid : Nat} : (emulateCr3 info s vpid gpr).held .cr3 = s.held (.gpr gpr) := by
    rw [held_emulateCr3, Function.update_of_ne (by decide), Function.update_self]
  have hgpr {vpid : Nat} : (emulateCr3 info s vpid gpr).held (.gpr gpr) = s.held (.gpr gpr) := by
    rw [held_emulateCr3, Function.update_of_ne (by rintro ⟨⟩), Function.update_of_ne (by rintro ⟨⟩)]
  by_cases hintercept : s.vcpu.header.vcpuOptions.interceptCr3 = true
  · rw [if_pos hintercept] at hhandle
    rw [reportCr3_behaves_iff hhandle, haccess, hintercept]
    cases write <;> simp [ControlAccess.report]
  · rw [if_neg hintercept] at hhandle
    rw [emulateCr3_behaves_iff hs hhandle]
    unfold Results writes
    rw [haccess]
    cases write with
    | true =>
        have hresult : ControlAccess.Emulated s (emulateCr3 info s info.vpid gpr) (.write 3 gpr) :=
          congrArg some hcr3
        exact iff_of_true ⟨hresult, fun h => absurd rfl h⟩ (Bool.eq_false_iff.mpr hintercept)
    | false =>
        have hresult : ControlAccess.Emulated s (emulateCr3 info s 0 gpr) (.read 3 gpr) ↔
            some (s.held .cr3) = some (s.held (.gpr gpr)) := by rw [← hgpr]; exact Iff.rfl
        constructor
        · exact fun h => .inr (Option.some.inj (hresult.mp h.1)).symm
        · rintro (h | h)
          · exact absurd h hintercept
          · exact ⟨hresult.mpr (congrArg some h.symm), fun _ => h⟩

theorem crAccess_behaves_iff (hs : s.AtExit) :
    crAccess.Behaves info s ↔ crAccess.Settled info s := by
  have hhandle : crAccess.handle info s =
      handleControlAccess info s (controlAccess info.qualification) := rfl
  unfold handleControlAccess at hhandle
  have hquiet {s' : VtCvexitState} (h : crAccess.handle info s = some s')
      (hguest : s'.toHost = s.toHost) (hrip : s'.held .rip = s.held .rip)
      (hevent : s'.vcpu.vmcs .vmentryInterruptionInformationField =
        s.vcpu.vmcs .vmentryInterruptionInformationField) : crAccess.Behaves info s ↔ False :=
    iff_of_false (not_behaves_of_quiet hs h hguest hrip hevent) id
  change _ ↔ AccessSettled s (controlAccess info.qualification)
  split at hhandle
  · next gpr haccess =>
      rw [haccess]
      exact cr3_behaves_iff hs true haccess
  · next gpr haccess =>
      rw [haccess]
      exact writeCr4_behaves_iff hs hhandle
  · next gpr haccess =>
      rw [haccess]
      exact iff_of_false (not_behaves_of_writeCr8 hs hhandle) id
  · next gpr haccess =>
      rw [haccess]
      exact cr3_behaves_iff hs false haccess
  · next gpr haccess =>
      rw [haccess]
      refine hquiet hhandle ?_ ?_ ?_
      · split <;> rfl
      · split <;> rfl
      · split <;> rfl
  · next haccess =>
      rw [haccess]
      exact hquiet hhandle rfl rfl rfl
  · next src haccess =>
      rw [haccess]
      exact hquiet hhandle rfl rfl rfl
  · next cr gpr h3 h4 h8 haccess =>
      rw [haccess]
      refine (hquiet hhandle rfl rfl rfl).trans ?_
      unfold AccessSettled
      split
      · next heq => exact absurd (ControlAccess.write.inj heq).1 h3
      · next heq => exact absurd (ControlAccess.write.inj heq).1 h4
      · next heq => cases heq
      · exact Iff.rfl
  · next cr gpr h3 h8 haccess =>
      rw [haccess]
      refine (hquiet hhandle rfl rfl rfl).trans ?_
      unfold AccessSettled
      split
      · next heq => cases heq
      · next heq => cases heq
      · next heq => exact absurd (ControlAccess.read.inj heq).1 h3
      · exact Iff.rfl

theorem behaves_iff_settled (hs : s.AtExit) (e : VtCvexit) :
    e.Behaves info s ↔ e.Settled info s := by
  cases e with
  | cpuid => exact cpuid_behaves_iff hs
  | vmcall => exact iff_of_true vmcall_behaves trivial
  | unsupported instruction => exact unsupported_behaves_iff hs
  | crAccess => exact crAccess_behaves_iff hs
  | msr write => exact msr_behaves_iff hs

end Exits

end VtCvexit

/-! The first exits of a guest, on a processor whose CPUID has 13 standard leaves. -/

def firstExitInformation : VtCvexitInformation where
  cpu := anyFeatures
  host := (zeroVirtualCpu.saveRegisters vtSwitched zeroProcessor).saveExtended zeroProcessor
  loadable := saved_loadable rfl rfl rfl fun _ h => absurd h Bool.false_ne_true
  qualification := 0
  instructionLength := 2
  instructionLength_pos := by decide
  instructionLength_le := by decide
  vpid := 1
  cpuid _ _ := ⟨0xD, 0x756E6547, 0x6C65746E, 0x49656E69⟩
  stackEdx := 0
  atNull := none

def firstExitState : VtCvexitState where
  p := zeroProcessor
  vcpu := newVtVcpu
  pendingDebugExceptions := 0
  invalidated := []
  exitContext := ⟨0, fun _ => 0, ⟨fun _ => 0, 0, 0, 0, 0, false, false, false, 0⟩⟩
  toHost := false

theorem firstExitState_atExit : firstExitState.AtExit := ⟨rfl, rfl⟩

theorem firstExitState_rdmsr_behaves :
    (VtCvexit.msr false).Behaves firstExitInformation firstExitState :=
  (VtCvexit.behaves_iff_settled firstExitState_atExit _).mpr fun h => absurd h Bool.false_ne_true

theorem not_forall_vtCvexit_behaves :
    ¬∀ (info : VtCvexitInformation) (s : VtCvexitState) (e : VtCvexit),
      s.AtExit → e.Behaves info s := by
  intro h
  have hcpuid := h firstExitInformation firstExitState .cpuid firstExitState_atExit
  rcases (VtCvexit.cpuid_behaves_iff firstExitState_atExit).mp hcpuid with
    hintercept | ⟨general, hgeneral, heax, -⟩
  · cases hintercept
  · cases Option.some.inj hgeneral
    have hzero : 0 = 0xD := heax
    exact absurd hzero (by decide)

end NoirVisor
