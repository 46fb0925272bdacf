import NoirVisor.Host.Init
import NoirVisor.Host.Npiep
import NoirVisor.Host.HypercallPage

/-!
# The MSRs of the subverted host

The host may read and write MSRs that the hypervisor keeps for itself, and synthetic ones that no
processor has. Both instructions are intercepted: a handler finds the value, or queues a fault, and
the instruction is skipped in either case.
-/

namespace NoirVisor

open Copying SvmVmcbOffset

def noirIsSyntheticMsr (index : BitVec 32) : Bool := index >>> 30 == 1

inductive HostSyntheticMsr where
  | mshv (msr : MshvMsr)
  | vpIndex | npiepConfig | eoi | icr | tpr
  | other (index : BitVec 32)
deriving DecidableEq

/-- The MSRs that the handlers tell apart. -/
inductive HostMsr where
  | synthetic (msr : HostSyntheticMsr)
  | apicBase | x2apicIcr | efer | lstar | vmcr | hsavePa
  | unknown (index : BitVec 32)
deriving DecidableEq

/-- The registers one by one, those of the interface among them. -/
@[elab_as_elim] theorem HostMsr.each {motive : HostMsr → Prop}
    (guestOsId : motive (.synthetic (.mshv .guestOsId)))
    (hypercall : motive (.synthetic (.mshv .hypercall)))
    (vpIndex : motive (.synthetic .vpIndex)) (npiepConfig : motive (.synthetic .npiepConfig))
    (eoi : motive (.synthetic .eoi)) (icr : motive (.synthetic .icr))
    (tpr : motive (.synthetic .tpr)) (other : ∀ index, motive (.synthetic (.other index)))
    (apicBase : motive .apicBase) (x2apicIcr : motive .x2apicIcr) (efer : motive .efer)
    (lstar : motive .lstar) (vmcr : motive .vmcr) (hsavePa : motive .hsavePa)
    (unknown : ∀ index, motive (.unknown index)) (msr : HostMsr) : motive msr := by
  cases msr with
  | synthetic msr =>
      cases msr with
      | mshv msr => cases msr <;> assumption
      | other index => exact other index
      | _ => assumption
  | unknown index => exact unknown index
  | _ => assumption

/-- `hv_x64_msr_*`. -/
def syntheticMsr (index : BitVec 32) : HostSyntheticMsr :=
  if index = 0x40000000 then .mshv .guestOsId
  else if index = 0x40000001 then .mshv .hypercall
  else if index = 0x40000002 then .vpIndex
  else if index = 0x40000040 then .npiepConfig
  else if index = 0x40000070 then .eoi
  else if index = 0x40000071 then .icr
  else if index = 0x40000072 then .tpr
  else .other index

/-- `amd64_*`. -/
def hostMsr (index : BitVec 32) : HostMsr :=
  if noirIsSyntheticMsr index then .synthetic (syntheticMsr index)
  else if index = 0x1B then .apicBase
  else if index = 0x830 then .x2apicIcr
  else if index = 0xC0000080 then .efer
  else if index = 0xC0000082 then .lstar
  else if index = 0xC0010114 then .vmcr
  else if index = 0xC0010117 then .hsavePa
  else .unknown index

def amd64EferSvme := 12
def amd64VmcrRInit := 1
def amd64ApicExtd := 10

/-- Registers of the processor itself. -/
structure HostRegisters where
  cr8 : BitVec 64
  apicBase : BitVec 64
  x2apicIcr : BitVec 64
  eoi : BitVec 64

/-- None if the processor raises an exception, which nobody handles. -/
def HostRegisters.noirWritecr8 (host : HostRegisters) (val : BitVec 64) : Option HostRegisters :=
  if val < 16 then some { host with cr8 := val } else none

/-- The APIC takes nothing but zero in this mode. -/
def HostRegisters.noirWrmsrX2apicEoi (host : HostRegisters) (val : BitVec 64) :
    Option HostRegisters :=
  if val = 0 then some { host with eoi := val } else none

/-- How the hypervisor is built and set up. `takesApicBase` tells the values that the processor
lets it write. -/
structure MsrHost where
  hvType1 : Bool
  caching : Bool
  cpuidHvPresence : Bool
  nestedVirtualization : Bool
  apicBase : BitVec 64
  noirSystemCall : BitVec 64
  origSystemCall : BitVec 64
  mapping : HostMapping
  takesApicBase : HostRegisters → BitVec 64 → Bool

structure MsrVcpu extends SubvertedVcpu where
  svme : Bool
  rInit : Bool
  x2apic : Bool
  hsaveGpa : BitVec 64
  hsaveHva : BitVec 64
  vpIndex : BitVec 64
  icr : BitVec 64
  mshv : MshvMsrs
  host : HostRegisters

namespace MsrVcpu

variable (h : MsrHost) (v : MsrVcpu)

def efer : BitVec 64 := v.vmcb.vmread64 guestEfer

def lstar : BitVec 64 := v.vmcb.vmread64 guestLstar

def queueEvent (event : BitVec 64) : MsrVcpu :=
  { v with vmcb := v.vmcb.vmwrite64 eventInjection event }

def injectGp : MsrVcpu :=
  { v with vmcb :=
      noirSvmInjectEvent v.vmcb amd64GeneralProtection amd64FaultTrapException true true 0 }

def nvcMshvRdmsrHandler : HostSyntheticMsr → BitVec 64
  | .mshv msr => (v.mshv.handle h.mapping (.rdmsr msr)).value
  | .vpIndex => v.vpIndex
  | .npiepConfig => v.npiepConfig
  | _ => 0

/-- None if the hypercall page is not mapped. -/
def nvcMshvWrmsrHandler (val : BitVec 64) : HostSyntheticMsr → Option MsrVcpu
  | .mshv msr =>
    let outcome := v.mshv.handle h.mapping (.wrmsr msr val)
    if outcome.page.all fun va => (h.mapping.frameOf va).isSome then
      some { v with mshv := outcome.msrs }
    else none
  | .npiepConfig =>
    some { v with toSubvertedVcpu := v.toSubvertedVcpu.nvcMshvMsrR40000040Handler val }
  | _ => some v

/-- The handlers of `hv_x64_msr_*` raise no event. -/
def rdmsrSynthetic : HostSyntheticMsr → MsrVcpu × BitVec 64
  | .eoi => (v.injectGp, 0)
  | .icr => (v, v.icr)
  | .tpr => (v, v.host.cr8)
  | msr => (v.queueEvent 0, v.nvcMshvRdmsrHandler h msr)

/-- The vCPU, with the value that goes to the registers also after a fault. -/
def nvcSvmRdmsrHandler : HostMsr → MsrVcpu × BitVec 64
  | .synthetic msr => if h.cpuidHvPresence then v.rdmsrSynthetic h msr else (v.injectGp, 0)
  | .efer => (v, if v.svme then v.efer else v.efer &&& ~~~amd64EferSvmeBit)
  | .hsavePa => ({ v with hsaveGpa := 0 }, 0)
  | .lstar =>
    (v, if h.hvType1 then 0 else if v.lstar = h.noirSystemCall then h.origSystemCall else v.lstar)
  | _ => (v, 0)

/-- `hv_x64_msr_eoi` and `hv_x64_msr_tpr` go to the processor. -/
def wrmsrType1 (val : BitVec 64) : HostSyntheticMsr → Option MsrVcpu
  | .eoi =>
    if v.x2apic then (v.host.noirWrmsrX2apicEoi val).map fun host => { v with host := host }
    else some { v with host := { v.host with eoi := val &&& 0xFFFFFFFF } }
  | .icr => some { v with icr := val }
  | .tpr => (v.host.noirWritecr8 val).map fun host => { v with host := host }
  | msr => (v.nvcMshvWrmsrHandler h val msr).map (queueEvent · 0)

def wrmsrSynthetic (val : BitVec 64) (msr : HostSyntheticMsr) : Option MsrVcpu :=
  if h.hvType1 then v.wrmsrType1 h val msr
  else (v.nvcMshvWrmsrHandler h val msr).map (queueEvent · 0)

def wrmsrApicBase (val : BitVec 64) : Option MsrVcpu :=
  if val &&& ~~~0xFFF#64 ≠ h.apicBase then some v.injectGp
  else if h.takesApicBase v.host val then
    some { v with x2apic := val.getLsbD amd64ApicExtd, host := { v.host with apicBase := val } }
  else none

/-- The bit of SVM itself is always set. -/
def writeEfer (val : BitVec 64) : MsrVcpu :=
  { v with
    vmcb := (v.vmcb.vmwrite64 guestEfer (val ||| amd64EferSvmeBit)).vmcbBtr vmcbCleanBits
      noirSvmCleanControlReg
    svme := val.getLsbD amd64EferSvme }

def wrmsrEfer (val : BitVec 64) : MsrVcpu :=
  if val.getLsbD amd64EferSvme && !h.nestedVirtualization then v.injectGp else v.writeEfer val

def wrmsrHsavePa (val : BitVec 64) : MsrVcpu :=
  if val &&& 0xFFF ≠ 0 then v.injectGp
  else { v with hsaveGpa := val, hsaveHva := h.mapping.noirFindVirtByPhys val }

def wrmsrLstar (val : BitVec 64) : MsrVcpu :=
  { v with
    vmcb := v.vmcb.vmwrite64 guestLstar
      (if val = h.origSystemCall then h.noirSystemCall else val) }

/-- None if the processor raises an exception in the hypervisor. The branch of the APIC base is
only there in type 1, that of LSTAR only in type 2. -/
def nvcSvmWrmsrHandler (val : BitVec 64) : HostMsr → Option MsrVcpu
  | .synthetic msr => if h.cpuidHvPresence then v.wrmsrSynthetic h val msr else some v.injectGp
  | .apicBase => if h.hvType1 then v.wrmsrApicBase h val else some v
  | .efer => some (v.wrmsrEfer h val)
  | .vmcr => some { v with rInit := val.getLsbD amd64VmcrRInit }
  | .hsavePa => some (v.wrmsrHsavePa h val)
  | .lstar => some (if h.hvType1 then v else v.wrmsrLstar h val)
  | _ => some v

end MsrVcpu

/-- An exit for `rdmsr` or `wrmsr`. `left` is what the processor and the decoder leave in the VMCB,
with the next instruction pointer that was found; `following` is where the next instruction is. -/
structure MsrExit where
  left : Page
  write : Bool
  gpr : BitVec 4 → BitVec 64
  following : BitVec 64
  following_ne : following ≠ left.vmread64 guestRip

namespace MsrExit

variable (e : MsrExit)

def msr : HostMsr := hostMsr ((e.gpr 1).setWidth 32)

def value : BitVec 64 := (e.gpr 2).setWidth 32 ++ (e.gpr 0).setWidth 32

/-- While the host runs, its EFER and LSTAR stay, as do the fields of NPIEP. -/
def kept : List Range := NpiepExit.kept ++ [vmcopy64 guestEfer, vmcopy64 guestLstar]

/-- No event is left in the VMCB by an exit. -/
def vmcb (page : Page) : Page :=
  let vmcb := (Page.vmcopy e.left page kept).vmwrite64 exitInfo1 (if e.write then 1 else 0)
  (vmcb.vmwrite64 guestRax (e.gpr 0)).vmwrite64 eventInjection 0

end MsrExit

/-- What the host goes on with. -/
structure HostLeft where
  vcpu : MsrVcpu
  gpr : BitVec 4 → BitVec 64

namespace MsrVcpu

variable (h : MsrHost) (e : MsrExit) (v : MsrVcpu)

def exited : MsrVcpu :=
  let vmcb := e.vmcb v.vmcb
  let vmcb := if h.caching then vmcb.vmwrite32 vmcbCleanBits (BitVec.allOnes 32) else vmcb
  { v with vmcb := vmcb.vmwrite32 tlbControl 0 }

/-- Higher halves of `rax` and `rdx` are cleared. -/
def read : HostLeft :=
  let (vcpu, val) := v.nvcSvmRdmsrHandler h e.msr
  ⟨vcpu, Function.update (Function.update e.gpr 0 ((val.setWidth 32).setWidth 64)) 2
    ((val >>> 32).setWidth 64)⟩

def nvcSvmMsrHandler : Option HostLeft :=
  let opWrite := v.vmcb exitInfo1 != 0
  let left :=
    if opWrite then (v.nvcSvmWrmsrHandler h e.value e.msr).map (HostLeft.mk · e.gpr)
    else some (v.read h e)
  left.map fun left =>
    { left with vcpu := { left.vcpu with vmcb := noirSvmAdvanceRip left.vcpu.vmcb } }

/-- `rax` goes back to the VMCB. -/
def nvcSvmExitHandler : Option HostLeft :=
  ((v.exited h e).nvcSvmMsrHandler h e).map fun left =>
    { left with vcpu :=
        { left.vcpu with vmcb := left.vcpu.vmcb.vmwrite64 guestRax (left.gpr 0) } }

/-- The value that each MSR has for the host. -/
def virtualMsr : HostMsr → BitVec 64
  | .synthetic (.mshv .guestOsId) => v.mshv.noirMshvGuestOsId
  | .synthetic (.mshv .hypercall) => v.mshv.noirMshvHypercallCtrl
  | .synthetic .vpIndex => v.vpIndex
  | .synthetic .npiepConfig => v.npiepConfig
  | .synthetic .eoi => v.host.eoi
  | .synthetic .icr => v.icr
  | .synthetic .tpr => v.host.cr8
  | .apicBase => v.host.apicBase
  | .x2apicIcr => v.host.x2apicIcr
  | .efer => if v.svme then v.efer else v.efer &&& ~~~amd64EferSvmeBit
  | .lstar =>
    if h.hvType1 = false ∧ v.lstar = h.noirSystemCall then h.origSystemCall else v.lstar
  | .vmcr => if v.rInit then 1#64 <<< amd64VmcrRInit else 0
  | .hsavePa => v.hsaveGpa
  | .synthetic (.other _) => 0
  | .unknown _ => 0

end MsrVcpu

end NoirVisor
