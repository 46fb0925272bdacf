import NoirVisor.NestedVmx.Store
import NoirVisor.Hypercall.Vt

/-!
# VMX instructions of a nested hypervisor

The handlers keep whether the nested hypervisor is in VMX operation, the region that it gave to
`vmxon`, and its current VMCS.
-/

namespace NoirVisor

open Words

/-- `memory_descriptor`. A pointer is told by the physical page that it points to. -/
structure VmxRegion where
  phys : BitVec 64
  virt : Option (BitVec 64)

inductive VmxInstruction where
  | vmclear | vmptrld | vmptrst | vmxoff | vmxon
  | writeCr4 (gpr : BitVec 4)

/-- An exit for one of them: the registers, what the VMCS tells of the instruction, and memory. The
frame has no register 4. A place is where eight bytes lie, if the access may be made; an access that
may not be made has the vector of an exception. -/
structure VmxExit where
  instruction : VmxInstruction
  rip : BitVec 64
  rflags : BitVec 64
  instructionLength : BitVec 64
  longMode : Bool
  cpl : BitVec 2
  vmxonRefused : Bool
  gprState : BitVec 4 → BitVec 64
  rsp : BitVec 64
  base : BitVec 4
  baseInvalid : Bool
  index : BitVec 4
  indexInvalid : Bool
  scaling : BitVec 2
  addressSize : Nat
  segmentBase : BitVec 64
  displacement : BitVec 64
  page : BitVec 64 → Memory
  word : BitVec 64 → BitVec 64
  hostPlace : Bool → BitVec 64 → Option (BitVec 64)
  guestPlace : Bool → BitVec 64 → Except (BitVec 8) (BitVec 64)

namespace VmxExit

variable (e : VmxExit)

/-- The base register is taken for the index as well. -/
def nvcVtParseVmxPointer : BitVec 64 :=
  let pointer := e.gprState e.base
  let pointer := pointer + e.gprState e.base <<< e.scaling
  let pointer := pointer + e.segmentBase
  pointer + e.displacement

def gpr (r : BitVec 4) : BitVec 64 := if r = 4 then e.rsp else e.gprState r

/-- The address of the operand as the processor forms it. -/
def operandAddress : BitVec 64 :=
  let base := if e.baseInvalid then 0 else e.gpr e.base
  let index := if e.indexInvalid then 0 else e.gpr e.index <<< e.scaling
  e.segmentBase + ((base + index + e.displacement).setWidth e.addressSize).setWidth 64

/-- Out of long mode, the instruction pointer has 32 bits. -/
def nextRip : BitVec 64 :=
  let gip := e.rip + e.instructionLength
  if e.longMode then gip else gip &&& 0xFFFFFFFF

def hostWord (pointer : BitVec 64) : Option (BitVec 64) := (e.hostPlace false pointer).map e.word

def guestWord : Except (BitVec 8) (BitVec 64) := (e.guestPlace false e.operandAddress).map e.word

end VmxExit

/-- `mapped` tells for which pages `noir_find_virt_by_phys` has a pointer. -/
structure VmxProcessor where
  revisionId : BitVec 31
  physicalWidth : Nat
  vmcsShadowing : Bool
  mapped : BitVec 64 → Bool

def VmxProcessor.noirFindVirtByPhys (cpu : VmxProcessor) (phys : BitVec 64) : Option (BitVec 64) :=
  if cpu.mapped phys then some phys else none

/-- `vmx_msr[0]`. Bit 31 of it is always zero. -/
def VmxProcessor.trueRevisionId (cpu : VmxProcessor) : BitVec 32 := 0#1 ++ cpu.revisionId

/-- The vCPU while an exit is handled. `event` is injected at the entry, and `stored` is what went to
the memory of the guest. -/
structure NestedVmxVcpu where
  vmxe : Bool
  vmxon : Bool
  vmxonRegion : VmxRegion
  vmcsC : VmxRegion
  guestCr4 : BitVec 64
  cr4ReadShadow : BitVec 64
  rflags : BitVec 64
  rip : BitVec 64
  event : Option (BitVec 8)
  stored : Option (BitVec 64 × BitVec 64)
  page : BitVec 64 → Memory

def ia32GeneralProtection : BitVec 8 := 13

def ia32Cr4Vmxe := 13
def ia32Cr4VmxeBit : BitVec 64 := 0x2000

/-! The numbers of the errors. -/

def vmclearWithInvalidPa : BitVec 64 := 2
def vmclearWithVmxonRegion : BitVec 64 := 3
def vmptrldWithInvalidPa : BitVec 64 := 9
def vmptrldWithVmxonRegion : BitVec 64 := 10
def vmptrldWithIncorrectRevid : BitVec 64 := 11
def vmxonInVmxRoot : BitVec 64 := 15

/-- The first word of a page. The header has the revision in 31 bits of it. -/
def revisionWord (page : Memory) : BitVec 32 := (load page 0 4).setWidth 32

/-- The clean fields are at this offset; `active` is the last bit of them, and `launched` no longer
fits. -/
def cleanFields := 0x28

def writeActive (page : Memory) (active : Bool) : Memory :=
  let word := load page cleanFields 8
  store page cleanFields 8 (if active then word ||| 1#64 <<< 63 else word &&& ~~~(1#64 <<< 63))

def clearLaunched (page : Memory) : Memory :=
  store page (cleanFields + 8) 8 (load page (cleanFields + 8) 8 &&& ~~~(1#64 <<< 0))

def isPageAligned (phys : BitVec 64) : Bool := phys &&& 0xFFF == 0

def noCurrentVmcs : BitVec 64 := BitVec.allOnes 64

namespace NestedVmxVcpu

variable (vcpu : NestedVmxVcpu) (cpu : VmxProcessor) (e : VmxExit) (depth : Nat)

def noirVtVmsuccess : NestedVmxVcpu := { vcpu with rflags := vmsuccessFlags vcpu.rflags }

def noirVtVmfailInvalid : NestedVmxVcpu := { vcpu with rflags := vmfailInvalidFlags vcpu.rflags }

def noirVtVmfailValid : NestedVmxVcpu := { vcpu with rflags := vmfailValidFlags vcpu.rflags }

/-- Whatever `noir_vt_nested_vmwrite` does to the flags, they are set again. -/
def noirVtVmfail (message : BitVec 64) : Option NestedVmxVcpu :=
  if vcpu.vmcsC.phys ≠ noCurrentVmcs then
    vcpu.vmcsC.virt.bind fun p =>
      (NestedVmcs.noirVtNestedVmwrite depth ⟨vcpu.page p, vcpu.rflags⟩ vmInstructionError
        message).map fun r =>
          { vcpu with page := Function.update vcpu.page p r.2.page }.noirVtVmfailValid
  else some vcpu.noirVtVmfailInvalid

def noirVtAdvanceRip : NestedVmxVcpu := { vcpu with rip := e.nextRip }

def noirVtInjectEvent (vector : BitVec 8) : NestedVmxVcpu := { vcpu with event := some vector }

/-! The handlers give nothing if they do not return. -/

def nvcVtVmclearHandler : Option NestedVmxVcpu :=
  if vcpu.vmxon then
    (e.hostWord e.nvcVtParseVmxPointer).bind fun vmcsPa =>
      Option.map (·.noirVtAdvanceRip e) <|
        if !isPageAligned vmcsPa then vcpu.noirVtVmfail depth vmclearWithInvalidPa
        else if vmcsPa = vcpu.vmxonRegion.phys then vcpu.noirVtVmfail depth vmclearWithVmxonRegion
        else (cpu.noirFindVirtByPhys vmcsPa).map fun header =>
          let vcpu := { vcpu with
            page := Function.update vcpu.page header
              (clearLaunched (writeActive (vcpu.page header) false)) }
          let vcpu := if vmcsPa = vcpu.vmcsC.phys then
            { vcpu with vmcsC := ⟨noCurrentVmcs, none⟩ } else vcpu
          vcpu.noirVtVmsuccess
  else some (vcpu.noirVtInjectEvent ia32InvalidOpcode)

def nvcVtVmptrldHandler : Option NestedVmxVcpu :=
  if vcpu.vmxon then
    (e.hostWord e.nvcVtParseVmxPointer).bind fun vmcsPa =>
      Option.map (·.noirVtAdvanceRip e) <|
        if !isPageAligned vmcsPa then vcpu.noirVtVmfail depth vmptrldWithInvalidPa
        else if vmcsPa = vcpu.vmxonRegion.phys then vcpu.noirVtVmfail depth vmptrldWithVmxonRegion
        else (cpu.noirFindVirtByPhys vmcsPa).bind fun header =>
          let revisionId := ((revisionWord (vcpu.page header)).setWidth 31).setWidth 32
          if revisionId ≠ cpu.trueRevisionId then vcpu.noirVtVmfail depth vmptrldWithIncorrectRevid
          else
            let vcpu := { vcpu with
              page := Function.update vcpu.page header (writeActive (vcpu.page header) true)
              vmcsC := ⟨vmcsPa, some header⟩ }
            some vcpu.noirVtVmsuccess
  else some (vcpu.noirVtInjectEvent ia32InvalidOpcode)

def nvcVtVmptrstHandler : Option NestedVmxVcpu :=
  if vcpu.vmxon then
    (e.hostPlace true e.nvcVtParseVmxPointer).map fun place =>
      let vcpu := { vcpu with stored := some (place, vcpu.vmcsC.phys) }
      vcpu.noirVtAdvanceRip e
  else some (vcpu.noirVtInjectEvent ia32InvalidOpcode)

def nvcVtVmxoffHandler : NestedVmxVcpu :=
  if vcpu.vmxon then
    let vcpu := { vcpu with vmxon := false }
    vcpu.noirVtVmsuccess.noirVtAdvanceRip e
  else vcpu.noirVtInjectEvent ia32InvalidOpcode

/-- Where the region has a pointer, the handler returns early. -/
def nvcVtVmxonHandler : Option NestedVmxVcpu :=
  if vcpu.vmxe then
    if !vcpu.vmxon then
      (e.hostWord e.nvcVtParseVmxPointer).map fun phys =>
        let vcpu := { vcpu with vmxonRegion := ⟨phys, vcpu.vmxonRegion.virt⟩ }
        if isPageAligned phys then
          let virt := cpu.noirFindVirtByPhys phys
          let vcpu := { vcpu with vmxonRegion := ⟨phys, virt⟩ }
          match virt with
          | some region =>
              let revisionId := revisionWord (vcpu.page region)
              if revisionId.getLsbD 31 = true ∨ revisionId ≠ cpu.trueRevisionId then
                vcpu.noirVtVmfailInvalid
              else
                let vcpu := { vcpu with vmcsC := ⟨noCurrentVmcs, none⟩, vmxon := true }
                vcpu.noirVtVmsuccess
          | none => vcpu.noirVtVmfailInvalid.noirVtAdvanceRip e
        else vcpu.noirVtVmfailInvalid.noirVtAdvanceRip e
    else (vcpu.noirVtVmfail depth vmxonInVmxRoot).map (·.noirVtAdvanceRip e)
  else some (vcpu.noirVtInjectEvent ia32InvalidOpcode)

/-- The branch for CR4. Here `rsp` was put into the frame. -/
def nvcVtCrAccessHandlerCr4 (gpr : BitVec 4) : NestedVmxVcpu :=
  let data := e.gpr gpr
  let vcpu :=
    if data.getLsbD ia32Cr4Vmxe then { vcpu with vmxe := true }
    else if vcpu.vmxon then vcpu.noirVtInjectEvent ia32GeneralProtection
    else { vcpu with vmxe := false }
  let vcpu := { vcpu with guestCr4 := data ||| ia32Cr4VmxeBit, cr4ReadShadow := data }
  vcpu.noirVtAdvanceRip e

/-- What the exit leaves to the handler. -/
def entered : NestedVmxVcpu :=
  { vcpu with rflags := e.rflags, rip := e.rip, event := none, stored := none, page := e.page }

def handle : Option NestedVmxVcpu :=
  match e.instruction with
  | .vmclear => (vcpu.entered e).nvcVtVmclearHandler cpu e depth
  | .vmptrld => (vcpu.entered e).nvcVtVmptrldHandler cpu e depth
  | .vmptrst => (vcpu.entered e).nvcVtVmptrstHandler e
  | .vmxoff => some ((vcpu.entered e).nvcVtVmxoffHandler e)
  | .vmxon => (vcpu.entered e).nvcVtVmxonHandler cpu e depth
  | .writeCr4 gpr => some ((vcpu.entered e).nvcVtCrAccessHandlerCr4 e gpr)

end NestedVmxVcpu

/-! ### What the instructions do on a processor -/

structure VirtualVmx where
  vmxe : Bool
  vmxon : Bool
  vmxonPointer : BitVec 64
  current : BitVec 64
deriving DecidableEq

inductive VmxOutcome where
  | faults (vector : BitVec 8)
  | completes
  | succeeds
  | failsInvalid
  | failsValid (error : BitVec 64)

namespace VirtualVmx

variable (cpu : VmxProcessor) (e : VmxExit) (v : VirtualVmx)

/-- A failure is reported in the current VMCS, if there is one. -/
def vmfail (error : BitVec 64) : VirtualVmx × VmxOutcome :=
  (v, if v.current = noCurrentVmcs then .failsInvalid else .failsValid error)

end VirtualVmx

/-- The address of a page that the processor can have. -/
def VmxProcessor.isPage (cpu : VmxProcessor) (phys : BitVec 64) : Bool :=
  isPageAligned phys && decide (phys.toNat < 2 ^ cpu.physicalWidth)

namespace VirtualVmx

variable (cpu : VmxProcessor) (e : VmxExit) (v : VirtualVmx)

/-- In VMX operation, with the operand read. -/
def withOperand (operand : Except (BitVec 8) (BitVec 64))
    (go : BitVec 64 → VirtualVmx × VmxOutcome) : VirtualVmx × VmxOutcome :=
  if v.vmxon then
    if e.cpl ≠ 0 then (v, .faults ia32GeneralProtection)
    else match operand with
      | .error vector => (v, .faults vector)
      | .ok phys => go phys
  else (v, .faults ia32InvalidOpcode)

def vmclear : VirtualVmx × VmxOutcome :=
  v.withOperand e e.guestWord fun phys =>
    if !cpu.isPage phys then v.vmfail vmclearWithInvalidPa
    else if phys = v.vmxonPointer then v.vmfail vmclearWithVmxonRegion
    else ({ v with current := if phys = v.current then noCurrentVmcs else v.current }, .succeeds)

def vmptrld : VirtualVmx × VmxOutcome :=
  v.withOperand e e.guestWord fun phys =>
    if !cpu.isPage phys then v.vmfail vmptrldWithInvalidPa
    else if phys = v.vmxonPointer then v.vmfail vmptrldWithVmxonRegion
    else
      let revision := revisionWord (e.page phys)
      if revision.setWidth 31 ≠ cpu.revisionId ∨
          (revision.getLsbD 31 = true ∧ cpu.vmcsShadowing = false) then
        v.vmfail vmptrldWithIncorrectRevid
      else ({ v with current := phys }, .succeeds)

def vmptrst : VirtualVmx × VmxOutcome :=
  v.withOperand e (e.guestPlace true e.operandAddress) fun _ => (v, .succeeds)

def vmxoff : VirtualVmx × VmxOutcome :=
  v.withOperand e (.ok 0) fun _ => ({ v with vmxon := false }, .succeeds)

def vmxonOutside : VirtualVmx × VmxOutcome :=
  if e.cpl ≠ 0 ∨ e.vmxonRefused = true then (v, .faults ia32GeneralProtection)
  else match e.guestWord with
    | .error vector => (v, .faults vector)
    | .ok phys =>
        if !cpu.isPage phys then (v, .failsInvalid)
        else if (revisionWord (e.page phys)).setWidth 31 ≠ cpu.revisionId ∨
            (revisionWord (e.page phys)).getLsbD 31 = true then (v, .failsInvalid)
        else ({ v with vmxon := true, vmxonPointer := phys, current := noCurrentVmcs }, .succeeds)

def vmxonInstruction : VirtualVmx × VmxOutcome :=
  if v.vmxe then
    if v.vmxon then
      if e.cpl ≠ 0 then (v, .faults ia32GeneralProtection) else v.vmfail vmxonInVmxRoot
    else v.vmxonOutside cpu e
  else (v, .faults ia32InvalidOpcode)

def writeCr4 (gpr : BitVec 4) : VirtualVmx × VmxOutcome :=
  let vmxe := (e.gpr gpr).getLsbD ia32Cr4Vmxe
  if v.vmxon && !vmxe then (v, .faults ia32GeneralProtection)
  else ({ v with vmxe := vmxe }, .completes)

def execute : VirtualVmx × VmxOutcome :=
  match e.instruction with
  | .vmclear => v.vmclear cpu e
  | .vmptrld => v.vmptrld cpu e
  | .vmptrst => v.vmptrst e
  | .vmxoff => v.vmxoff e
  | .vmxon => v.vmxonInstruction cpu e
  | .writeCr4 gpr => v.writeCr4 e gpr

end VirtualVmx

namespace NestedVmxVcpu

def virtual (vcpu : NestedVmxVcpu) : VirtualVmx where
  vmxe := vcpu.vmxe
  vmxon := vcpu.vmxon
  vmxonPointer := vcpu.vmxonRegion.phys
  current := vcpu.vmcsC.phys

/-- In VMX operation, a current VMCS has a virtual address. -/
def HasAddress (vcpu : NestedVmxVcpu) : Prop :=
  vcpu.vmxon = true → vcpu.vmcsC.phys ≠ noCurrentVmcs → vcpu.vmcsC.virt.isSome = true

/-- The guest goes on behind the instruction, with these flags. -/
def Ends (e : VmxExit) (flags : BitVec 64 → Prop) (vcpu : NestedVmxVcpu) : Prop :=
  vcpu.event = none ∧ vcpu.rip = e.nextRip ∧ flags vcpu.rflags

def Shows (e : VmxExit) (vcpu : NestedVmxVcpu) : VmxOutcome → Prop
  | .faults vector => vcpu.event = some vector ∧ vcpu.rip = e.rip ∧ vcpu.rflags = e.rflags
  | .completes => vcpu.Ends e (· = e.rflags)
  | .succeeds => vcpu.Ends e (VmxFlags false false)
  | .failsInvalid => vcpu.Ends e (VmxFlags true false)
  | .failsValid _ => vcpu.Ends e (VmxFlags false true)

/-- An exit has the effect that the instruction has on a processor. -/
structure Performs (cpu : VmxProcessor) (e : VmxExit) (vcpu vcpu' : NestedVmxVcpu) : Prop where
  state : vcpu'.virtual = (vcpu.virtual.execute cpu e).1
  shows : vcpu'.Shows e (vcpu.virtual.execute cpu e).2
  hasAddress : vcpu'.HasAddress
  stored : e.instruction = .vmptrst → (vcpu.virtual.execute cpu e).2 = .succeeds →
    ∃ place, e.guestPlace true e.operandAddress = .ok place ∧
      vcpu'.stored = some (place, vcpu.vmcsC.phys)

def Returns (cpu : VmxProcessor) (e : VmxExit) (vcpu vcpu' : NestedVmxVcpu) : Prop :=
  ∃ depth, vcpu.handle cpu e depth = some vcpu'

/-- Every exit of a run returns and has the effect that it should have. -/
def PerformsAll (cpu : VmxProcessor) : NestedVmxVcpu → List VmxExit → Prop
  | vcpu, [] => vcpu.HasAddress
  | vcpu, e :: es => ∃ vcpu', vcpu.Returns cpu e vcpu' ∧ vcpu.Performs cpu e vcpu' ∧
      vcpu'.PerformsAll cpu es

end NestedVmxVcpu

/-! ### Where the handlers do the same -/

/-- The pointer of the code leads to the operand. -/
def VmxExit.Finds (e : VmxExit) (write : Bool) (place : BitVec 64) : Prop :=
  e.hostPlace write e.nvcVtParseVmxPointer = some place ∧
    e.guestPlace write e.operandAddress = .ok place

namespace NestedVmxVcpu

variable (cpu : VmxProcessor) (e : VmxExit) (vcpu : NestedVmxVcpu)

/-- The code refuses this operand of `vmclear` or `vmptrld` before it looks at the page. -/
def Refuses (phys : BitVec 64) : Prop := isPageAligned phys = false ∨ phys = vcpu.vmxonRegion.phys

/-- A failure comes back only without a current VMCS, and nothing but the alignment of an address is
checked. -/
structure FitsOperand (good : BitVec 64 → Prop) : Prop where
  cpl : e.cpl = 0
  operand : ∃ place, e.Finds false place ∧
    (vcpu.Refuses (e.word place) → vcpu.vmcsC.phys = noCurrentVmcs) ∧
    (¬vcpu.Refuses (e.word place) →
      cpu.isPage (e.word place) = true ∧ cpu.mapped (e.word place) = true ∧ good (e.word place))

/-- A page for `vmptrld`. -/
def FitsRevision (phys : BitVec 64) : Prop :=
  if (revisionWord (e.page phys)).setWidth 31 = cpu.revisionId then
    (revisionWord (e.page phys)).getLsbD 31 = true → cpu.vmcsShadowing = true
  else vcpu.vmcsC.phys = noCurrentVmcs

/-- `vmxon` outside VMX operation: it has to fail, and to name the region of the last one. -/
structure FitsVmxonOutside : Prop where
  cpl : e.cpl = 0
  allowed : e.vmxonRefused = false
  operand : ∃ place, e.Finds false place ∧ e.word place = vcpu.vmxonRegion.phys ∧
    (isPageAligned (e.word place) = true → cpu.mapped (e.word place) = false ∧
      (cpu.isPage (e.word place) = false ∨
        (revisionWord (e.page (e.word place))).setWidth 31 ≠ cpu.revisionId ∨
        (revisionWord (e.page (e.word place))).getLsbD 31 = true))

def Fits : Prop :=
  match e.instruction with
  | .vmclear => vcpu.vmxon = true → vcpu.FitsOperand cpu e fun _ => True
  | .vmptrld => vcpu.vmxon = true → vcpu.FitsOperand cpu e (vcpu.FitsRevision cpu e)
  | .vmptrst => vcpu.vmxon = true → e.cpl = 0 ∧ (∃ place, e.Finds true place) ∧
      VmxFlags false false e.rflags
  | .vmxoff => vcpu.vmxon = true → e.cpl = 0
  | .vmxon => vcpu.vmxe = true →
      if vcpu.vmxon then e.cpl = 0 ∧ vcpu.vmcsC.phys = noCurrentVmcs
      else vcpu.FitsVmxonOutside cpu e
  | .writeCr4 gpr => vcpu.vmxon = true → (e.gpr gpr).getLsbD ia32Cr4Vmxe = true

/-- Every exit of the run fits, in the state that it is made in. -/
def FitsAll (cpu : VmxProcessor) : NestedVmxVcpu → List VmxExit → Prop
  | _, [] => True
  | vcpu, e :: es => vcpu.Fits cpu e ∧ ∀ vcpu', vcpu.Returns cpu e vcpu' → vcpu'.FitsAll cpu es

end NestedVmxVcpu

namespace NestedVmxVcpu

section Step

variable {cpu : VmxProcessor} {e : VmxExit} {vcpu vcpu' : NestedVmxVcpu} {depth : Nat}

theorem noirVtVmfail_of_none {message : BitVec 64} (h : vcpu.vmcsC.phys = noCurrentVmcs) :
    vcpu.noirVtVmfail depth message = some vcpu.noirVtVmfailInvalid :=
  if_neg (not_not.mpr h)

theorem not_aligned_or_vmxon {phys : BitVec 64} (h : ¬vcpu.Refuses phys) :
    isPageAligned phys = true ∧ phys ≠ vcpu.vmxonRegion.phys := by
  unfold Refuses at h
  rw [not_or, Bool.not_eq_false] at h
  exact h

theorem hostWord_of_finds {place : BitVec 64} (h : e.Finds false place) :
    e.hostWord e.nvcVtParseVmxPointer = some (e.word place) ∧ e.guestWord = .ok (e.word place) := by
  unfold VmxExit.hostWord VmxExit.guestWord
  rw [h.1, h.2]
  exact ⟨rfl, rfl⟩

/-- An exit outside VMX operation raises the exception of the instruction. -/
theorem performs_of_fault {vector : BitVec 8} (haddress : vcpu.HasAddress)
    (harch : vcpu.virtual.execute cpu e = (vcpu.virtual, .faults vector)) :
    vcpu.Performs cpu e ((vcpu.entered e).noirVtInjectEvent vector) where
  state := by rw [harch]; rfl
  shows := by rw [harch]; exact ⟨rfl, rfl, rfl⟩
  hasAddress := haddress
  stored _ h := by rw [harch] at h; exact (nomatch h)

/-- A failure without a current VMCS. -/
theorem performs_of_failure {flagged : NestedVmxVcpu} (hnot : e.instruction ≠ .vmptrst)
    (harch : vcpu.virtual.execute cpu e = (vcpu.virtual, .failsInvalid))
    (hstate : flagged.virtual = vcpu.virtual) (haddress : flagged.HasAddress)
    (hevent : flagged.event = none) :
    vcpu.Performs cpu e (flagged.noirVtVmfailInvalid.noirVtAdvanceRip e) where
  state := by rw [harch]; exact hstate
  shows := by rw [harch]; exact ⟨hevent, rfl, vmxFlags_vmfailInvalidFlags⟩
  hasAddress := haddress
  stored h := absurd h hnot

/-- The architecture in VMX operation, once the operand is there. -/
theorem withOperand_eq {v : VirtualVmx} {operand : Except (BitVec 8) (BitVec 64)} {phys : BitVec 64}
    {go : BitVec 64 → VirtualVmx × VmxOutcome} (hon : v.vmxon = true) (hcpl : e.cpl = 0)
    (hoperand : operand = .ok phys) : v.withOperand e operand go = go phys := by
  unfold VirtualVmx.withOperand
  rw [if_pos hon, if_neg (not_not.mpr hcpl), hoperand]

theorem withOperand_outside {v : VirtualVmx} {operand : Except (BitVec 8) (BitVec 64)}
    {go : BitVec 64 → VirtualVmx × VmxOutcome} (hoff : v.vmxon = false) :
    v.withOperand e operand go = (v, .faults ia32InvalidOpcode) := by
  unfold VirtualVmx.withOperand
  rw [if_neg (Bool.eq_false_iff.mp hoff)]

theorem vmfail_of_none {error : BitVec 64} (h : vcpu.vmcsC.phys = noCurrentVmcs) :
    vcpu.virtual.vmfail error = (vcpu.virtual, .failsInvalid) := by
  unfold VirtualVmx.vmfail
  rw [if_pos (show vcpu.virtual.current = noCurrentVmcs from h)]

/-- The checks of the processor fail as well, whichever of them it is. -/
theorem refused_fails {phys : BitVec 64} {first second : BitVec 64}
    {otherwise : VirtualVmx × VmxOutcome} (hrefuses : vcpu.Refuses phys)
    (hnone : vcpu.vmcsC.phys = noCurrentVmcs) :
    (if !cpu.isPage phys then vcpu.virtual.vmfail first
      else if phys = vcpu.virtual.vmxonPointer then vcpu.virtual.vmfail second else otherwise) =
      (vcpu.virtual, .failsInvalid) := by
  rw [vmfail_of_none hnone, vmfail_of_none hnone]
  rcases hrefuses with haligned | hregion
  · have hpage : cpu.isPage phys = false := by
      unfold VmxProcessor.isPage
      rw [haligned, Bool.false_and]
    rw [if_pos (by rw [hpage]; rfl)]
  · rw [if_pos (show phys = vcpu.virtual.vmxonPointer from hregion), ite_self]

theorem vmfail_entered {message : BitVec 64} (hnone : vcpu.vmcsC.phys = noCurrentVmcs) :
    (vcpu.entered e).noirVtVmfail depth message = some (vcpu.entered e).noirVtVmfailInvalid :=
  noirVtVmfail_of_none hnone

/-- The checks that `vmclear` and `vmptrld` make first. -/
theorem checks_of_refused {phys first second : BitVec 64} {otherwise : Option NestedVmxVcpu}
    (hrefuses : vcpu.Refuses phys) (hnone : vcpu.vmcsC.phys = noCurrentVmcs) :
    (if !isPageAligned phys then (vcpu.entered e).noirVtVmfail depth first
      else if phys = (vcpu.entered e).vmxonRegion.phys then
        (vcpu.entered e).noirVtVmfail depth second
      else otherwise) = some (vcpu.entered e).noirVtVmfailInvalid := by
  rw [vmfail_entered hnone, vmfail_entered hnone]
  rcases hrefuses with haligned | hregion
  · rw [haligned]
    rfl
  · rw [if_pos (show phys = (vcpu.entered e).vmxonRegion.phys from hregion), ite_self]

theorem checks_of_accepted {phys : BitVec 64} {first second otherwise : Option NestedVmxVcpu}
    (hrefuses : ¬vcpu.Refuses phys) :
    (if !isPageAligned phys then first
      else if phys = (vcpu.entered e).vmxonRegion.phys then second else otherwise) = otherwise := by
  obtain ⟨haligned, hne⟩ := not_aligned_or_vmxon hrefuses
  rw [if_neg (by rw [haligned]; exact Bool.false_ne_true),
    if_neg (show phys ≠ (vcpu.entered e).vmxonRegion.phys from hne)]

theorem vmclear_of_refused {phys : BitVec 64} (hon : vcpu.vmxon = true)
    (hhost : e.hostWord e.nvcVtParseVmxPointer = some phys) (hrefuses : vcpu.Refuses phys)
    (hnone : vcpu.vmcsC.phys = noCurrentVmcs) :
    (vcpu.entered e).nvcVtVmclearHandler cpu e depth =
      some ((vcpu.entered e).noirVtVmfailInvalid.noirVtAdvanceRip e) := by
  unfold nvcVtVmclearHandler
  rw [if_pos (show (vcpu.entered e).vmxon = true from hon), hhost]
  rw [Option.bind_some, checks_of_refused hrefuses hnone]
  rfl

theorem vmptrld_of_refused {phys : BitVec 64} (hon : vcpu.vmxon = true)
    (hhost : e.hostWord e.nvcVtParseVmxPointer = some phys) (hrefuses : vcpu.Refuses phys)
    (hnone : vcpu.vmcsC.phys = noCurrentVmcs) :
    (vcpu.entered e).nvcVtVmptrldHandler cpu e depth =
      some ((vcpu.entered e).noirVtVmfailInvalid.noirVtAdvanceRip e) := by
  unfold nvcVtVmptrldHandler
  rw [if_pos (show (vcpu.entered e).vmxon = true from hon), hhost]
  rw [Option.bind_some, checks_of_refused hrefuses hnone]
  rfl

theorem accepted_goes_on {phys : BitVec 64} {first second otherwise : VirtualVmx × VmxOutcome}
    (hpage : cpu.isPage phys = true) (hrefuses : ¬vcpu.Refuses phys) :
    (if !cpu.isPage phys then first else if phys = vcpu.virtual.vmxonPointer then second
      else otherwise) = otherwise := by
  have hne : phys ≠ vcpu.virtual.vmxonPointer := (not_aligned_or_vmxon hrefuses).2
  rw [if_neg (by rw [hpage]; exact Bool.false_ne_true), if_neg hne]

/-- What `vmclear` leaves before it reports success. -/
def vmcleared (vcpu : NestedVmxVcpu) (phys : BitVec 64) : NestedVmxVcpu :=
  let vcpu := { vcpu with
    page := Function.update vcpu.page phys (clearLaunched (writeActive (vcpu.page phys) false)) }
  if phys = vcpu.vmcsC.phys then { vcpu with vmcsC := ⟨noCurrentVmcs, none⟩ } else vcpu

theorem vmclear_of_accepted {phys : BitVec 64} (hon : vcpu.vmxon = true)
    (hhost : e.hostWord e.nvcVtParseVmxPointer = some phys) (hrefuses : ¬vcpu.Refuses phys)
    (hmapped : cpu.mapped phys = true) :
    (vcpu.entered e).nvcVtVmclearHandler cpu e depth =
      some (((vcpu.entered e).vmcleared phys).noirVtVmsuccess.noirVtAdvanceRip e) := by
  unfold nvcVtVmclearHandler VmxProcessor.noirFindVirtByPhys
  rw [if_pos (show (vcpu.entered e).vmxon = true from hon), hhost]
  rw [Option.bind_some, checks_of_accepted hrefuses, if_pos hmapped]
  rfl

/-- What `vmptrld` leaves before it reports success. -/
def vmloaded (vcpu : NestedVmxVcpu) (phys : BitVec 64) : NestedVmxVcpu :=
  { vcpu with
    page := Function.update vcpu.page phys (writeActive (vcpu.page phys) true)
    vmcsC := ⟨phys, some phys⟩ }

/-- The revision is compared in 32 bits, of which the header has 31. -/
theorem revision_ne_iff {revision : BitVec 32} :
    (revision.setWidth 31).setWidth 32 ≠ cpu.trueRevisionId ↔
      revision.setWidth 31 ≠ cpu.revisionId := by
  unfold VmxProcessor.trueRevisionId
  rw [not_iff_not]
  constructor
  · intro h
    have hwidth := congrArg (BitVec.setWidth 31) h
    rw [BitVec.setWidth_append_eq_right] at hwidth
    rw [← hwidth]
    apply BitVec.eq_of_getLsbD_eq
    intro i hi
    have hlt : i < 32 := by omega
    simp [hi, hlt]
  · intro h
    rw [h]
    apply BitVec.eq_of_getLsbD_eq
    intro i hi
    rw [BitVec.getLsbD_append, BitVec.getLsbD_setWidth]
    by_cases hlt : i < 31
    · simp [hlt, hi]
    · simp [hlt, BitVec.getLsbD_of_ge cpu.revisionId i (by omega)]

theorem vmptrld_of_accepted {phys : BitVec 64} (hon : vcpu.vmxon = true)
    (hhost : e.hostWord e.nvcVtParseVmxPointer = some phys) (hrefuses : ¬vcpu.Refuses phys)
    (hmapped : cpu.mapped phys = true) :
    (vcpu.entered e).nvcVtVmptrldHandler cpu e depth =
      if (revisionWord (e.page phys)).setWidth 31 ≠ cpu.revisionId then
        ((vcpu.entered e).noirVtVmfail depth vmptrldWithIncorrectRevid).map (·.noirVtAdvanceRip e)
      else some (((vcpu.entered e).vmloaded phys).noirVtVmsuccess.noirVtAdvanceRip e) := by
  unfold nvcVtVmptrldHandler VmxProcessor.noirFindVirtByPhys
  rw [if_pos (show (vcpu.entered e).vmxon = true from hon), hhost]
  rw [Option.bind_some, checks_of_accepted hrefuses, if_pos hmapped, Option.bind_some]
  have hpage : (vcpu.entered e).page phys = e.page phys := rfl
  dsimp only
  by_cases hrevision : (revisionWord (e.page phys)).setWidth 31 ≠ cpu.revisionId
  · rw [hpage, if_pos (revision_ne_iff.mpr hrevision), if_pos hrevision]
  · rw [hpage, if_neg (mt revision_ne_iff.mp hrevision), if_neg hrevision]
    rfl

theorem performs_of_success {v : VirtualVmx} {flagged : NestedVmxVcpu}
    (hnot : e.instruction ≠ .vmptrst) (harch : vcpu.virtual.execute cpu e = (v, .succeeds))
    (hstate : flagged.virtual = v) (haddress : flagged.HasAddress) (hevent : flagged.event = none) :
    vcpu.Performs cpu e (flagged.noirVtVmsuccess.noirVtAdvanceRip e) where
  state := by rw [harch]; exact hstate
  shows := by rw [harch]; exact ⟨hevent, rfl, vmxFlags_vmsuccessFlags⟩
  hasAddress := haddress
  stored h := absurd h hnot

theorem performs_vmclear (hinstruction : e.instruction = .vmclear) (haddress : vcpu.HasAddress)
    (hfits : vcpu.Fits cpu e) :
    ∃ vcpu', vcpu.Returns cpu e vcpu' ∧ vcpu.Performs cpu e vcpu' := by
  unfold Fits at hfits
  rw [hinstruction] at hfits
  have hexecute : vcpu.virtual.execute cpu e = vcpu.virtual.vmclear cpu e := by
    unfold VirtualVmx.execute
    rw [hinstruction]
  have hhandle : vcpu.handle cpu e 0 = (vcpu.entered e).nvcVtVmclearHandler cpu e 0 := by
    unfold handle
    rw [hinstruction]
  cases hon : vcpu.vmxon with
  | false =>
      refine ⟨_, ⟨0, hhandle.trans (if_neg (Bool.eq_false_iff.mp hon))⟩, ?_⟩
      exact performs_of_fault haddress (hexecute.trans (withOperand_outside hon))
  | true =>
      obtain ⟨hcpl, place, hfinds, hrefused, haccepted⟩ := hfits hon
      obtain ⟨hhost, hguest⟩ := hostWord_of_finds hfinds
      generalize e.word place = phys at *
      have harch := hexecute.trans (withOperand_eq hon hcpl hguest)
      by_cases hrefuses : vcpu.Refuses phys
      · have hnone := hrefused hrefuses
        refine ⟨_, ⟨0, hhandle.trans (vmclear_of_refused hon hhost hrefuses hnone)⟩, ?_⟩
        exact performs_of_failure (by rw [hinstruction]; exact nofun)
          (harch.trans (refused_fails hrefuses hnone)) rfl haddress rfl
      · obtain ⟨hpage, hmapped, -⟩ := haccepted hrefuses
        have hsteps := @vmclear_of_accepted cpu e vcpu 0 phys hon hhost hrefuses hmapped
        refine ⟨_, ⟨0, hhandle.trans hsteps⟩, ?_⟩
        refine performs_of_success (by rw [hinstruction]; exact nofun)
          (harch.trans (accepted_goes_on hpage hrefuses)) ?_ ?_ ?_
        · unfold vmcleared
          by_cases hsame : phys = vcpu.vmcsC.phys
          · rw [if_pos (show phys = (vcpu.entered e).vmcsC.phys from hsame),
              if_pos (show phys = vcpu.virtual.current from hsame)]
            rfl
          · rw [if_neg (show phys ≠ (vcpu.entered e).vmcsC.phys from hsame),
              if_neg (show phys ≠ vcpu.virtual.current from hsame)]
            rfl
        · unfold vmcleared
          dsimp only
          split
          · exact fun _ hcurrent => absurd rfl hcurrent
          · exact haddress
        · unfold vmcleared
          dsimp only
          split <;> rfl

theorem performs_vmptrld (hinstruction : e.instruction = .vmptrld) (haddress : vcpu.HasAddress)
    (hfits : vcpu.Fits cpu e) :
    ∃ vcpu', vcpu.Returns cpu e vcpu' ∧ vcpu.Performs cpu e vcpu' := by
  unfold Fits at hfits
  rw [hinstruction] at hfits
  have hexecute : vcpu.virtual.execute cpu e = vcpu.virtual.vmptrld cpu e := by
    unfold VirtualVmx.execute
    rw [hinstruction]
  have hhandle : vcpu.handle cpu e 0 = (vcpu.entered e).nvcVtVmptrldHandler cpu e 0 := by
    unfold handle
    rw [hinstruction]
  have hnot : e.instruction ≠ .vmptrst := by rw [hinstruction]; exact nofun
  cases hon : vcpu.vmxon with
  | false =>
      refine ⟨_, ⟨0, hhandle.trans (if_neg (Bool.eq_false_iff.mp hon))⟩, ?_⟩
      exact performs_of_fault haddress (hexecute.trans (withOperand_outside hon))
  | true =>
      obtain ⟨hcpl, place, hfinds, hrefused, haccepted⟩ := hfits hon
      obtain ⟨hhost, hguest⟩ := hostWord_of_finds hfinds
      generalize e.word place = phys at *
      have harch := hexecute.trans (withOperand_eq hon hcpl hguest)
      by_cases hrefuses : vcpu.Refuses phys
      · have hnone := hrefused hrefuses
        refine ⟨_, ⟨0, hhandle.trans (vmptrld_of_refused hon hhost hrefuses hnone)⟩, ?_⟩
        exact performs_of_failure hnot (harch.trans (refused_fails hrefuses hnone)) rfl haddress rfl
      · obtain ⟨hpage, hmapped, hrevision⟩ := haccepted hrefuses
        have hsteps := @vmptrld_of_accepted cpu e vcpu 0 phys hon hhost hrefuses hmapped
        replace harch := harch.trans (accepted_goes_on hpage hrefuses)
        unfold FitsRevision at hrevision
        by_cases hsame : (revisionWord (e.page phys)).setWidth 31 = cpu.revisionId
        · rw [if_pos hsame] at hrevision
          rw [if_neg (not_not.mpr hsame)] at hsteps
          refine ⟨_, ⟨0, hhandle.trans hsteps⟩, ?_⟩
          refine performs_of_success hnot (harch.trans (if_neg ?_)) rfl (fun _ _ => rfl) rfl
          rintro (hne | ⟨hshadow, hno⟩)
          · exact hne hsame
          · exact Bool.false_ne_true (hno.symm.trans (hrevision hshadow))
        · rw [if_neg hsame] at hrevision
          rw [if_pos hsame, vmfail_entered hrevision, Option.map_some] at hsteps
          refine ⟨_, ⟨0, hhandle.trans hsteps⟩, ?_⟩
          refine performs_of_failure hnot ?_ rfl haddress rfl
          exact (harch.trans (if_pos (.inl hsame))).trans (vmfail_of_none hrevision)

theorem performs_vmptrst (hinstruction : e.instruction = .vmptrst) (haddress : vcpu.HasAddress)
    (hfits : vcpu.Fits cpu e) :
    ∃ vcpu', vcpu.Returns cpu e vcpu' ∧ vcpu.Performs cpu e vcpu' := by
  unfold Fits at hfits
  rw [hinstruction] at hfits
  have hexecute : vcpu.virtual.execute cpu e = vcpu.virtual.vmptrst e := by
    unfold VirtualVmx.execute
    rw [hinstruction]
  have hhandle : vcpu.handle cpu e 0 = (vcpu.entered e).nvcVtVmptrstHandler e := by
    unfold handle
    rw [hinstruction]
  cases hon : vcpu.vmxon with
  | false =>
      refine ⟨_, ⟨0, hhandle.trans (if_neg (Bool.eq_false_iff.mp hon))⟩, ?_⟩
      exact performs_of_fault haddress (hexecute.trans (withOperand_outside hon))
  | true =>
      obtain ⟨hcpl, ⟨place, hhost, hguest⟩, hflags⟩ := hfits hon
      have harch := hexecute.trans (withOperand_eq hon hcpl hguest)
      have hsteps : vcpu.handle cpu e 0 = some ({ vcpu.entered e with
          stored := some (place, vcpu.vmcsC.phys) }.noirVtAdvanceRip e) := by
        rw [hhandle, nvcVtVmptrstHandler, if_pos (show (vcpu.entered e).vmxon = true from hon), hhost]
        rfl
      refine ⟨_, ⟨0, hsteps⟩, ?_, ?_, haddress, fun _ _ => ⟨place, hguest, rfl⟩⟩
      · rw [harch]
        rfl
      · rw [harch]
        exact ⟨rfl, rfl, hflags⟩

theorem performs_vmxoff (hinstruction : e.instruction = .vmxoff) (haddress : vcpu.HasAddress)
    (hfits : vcpu.Fits cpu e) :
    ∃ vcpu', vcpu.Returns cpu e vcpu' ∧ vcpu.Performs cpu e vcpu' := by
  unfold Fits at hfits
  rw [hinstruction] at hfits
  have hexecute : vcpu.virtual.execute cpu e = vcpu.virtual.vmxoff e := by
    unfold VirtualVmx.execute
    rw [hinstruction]
  have hhandle : vcpu.handle cpu e 0 = some ((vcpu.entered e).nvcVtVmxoffHandler e) := by
    unfold handle
    rw [hinstruction]
  cases hon : vcpu.vmxon with
  | false =>
      refine ⟨_, ⟨0, hhandle.trans (congrArg some (if_neg (Bool.eq_false_iff.mp hon)))⟩, ?_⟩
      exact performs_of_fault haddress (hexecute.trans (withOperand_outside hon))
  | true =>
      refine ⟨_, ⟨0, hhandle.trans (congrArg some (if_pos hon))⟩, ?_⟩
      exact performs_of_success (by rw [hinstruction]; exact nofun)
        (hexecute.trans (withOperand_eq hon (hfits hon) rfl)) rfl
        (fun hoff => absurd hoff Bool.false_ne_true) rfl

theorem vmxonOutside_fails (hfits : vcpu.FitsVmxonOutside cpu e) :
    vcpu.virtual.vmxonOutside cpu e = (vcpu.virtual, .failsInvalid) := by
  obtain ⟨hcpl, hallowed, place, hfinds, -, hpage⟩ := hfits
  have hnot : ¬(e.cpl ≠ 0 ∨ e.vmxonRefused = true) := by
    rintro (hne | hrefused)
    · exact hne hcpl
    · exact Bool.false_ne_true (hallowed.symm.trans hrefused)
  unfold VirtualVmx.vmxonOutside
  rw [if_neg hnot, (hostWord_of_finds hfinds).2]
  dsimp only
  cases hgood : cpu.isPage (e.word place) with
  | false => rfl
  | true =>
      have haligned : isPageAligned (e.word place) = true := (Bool.and_eq_true_iff.mp hgood).1
      rcases (hpage haligned).2 with hbad | hrevision
      · exact absurd (hbad.symm.trans hgood) Bool.false_ne_true
      · exact if_pos hrevision

theorem performs_vmxon (hinstruction : e.instruction = .vmxon) (haddress : vcpu.HasAddress)
    (hfits : vcpu.Fits cpu e) :
    ∃ vcpu', vcpu.Returns cpu e vcpu' ∧ vcpu.Performs cpu e vcpu' := by
  unfold Fits at hfits
  rw [hinstruction] at hfits
  have hexecute : vcpu.virtual.execute cpu e = vcpu.virtual.vmxonInstruction cpu e := by
    unfold VirtualVmx.execute
    rw [hinstruction]
  have hhandle : vcpu.handle cpu e 0 = (vcpu.entered e).nvcVtVmxonHandler cpu e 0 := by
    unfold handle
    rw [hinstruction]
  have hnot : e.instruction ≠ .vmptrst := by rw [hinstruction]; exact nofun
  cases henabled : vcpu.vmxe with
  | false =>
      have hoff := Bool.eq_false_iff.mp henabled
      refine ⟨_, ⟨0, hhandle.trans (if_neg hoff)⟩, ?_⟩
      exact performs_of_fault haddress (hexecute.trans (if_neg hoff))
  | true =>
      have hfits := hfits henabled
      replace hhandle := hhandle.trans (if_pos henabled)
      replace hexecute := hexecute.trans (if_pos henabled)
      cases hon : vcpu.vmxon with
      | true =>
          rw [if_pos hon] at hfits
          obtain ⟨hcpl, hnone⟩ := hfits
          have hin : ¬(!(vcpu.entered e).vmxon) = true := by
            rw [show (vcpu.entered e).vmxon = true from hon]
            exact Bool.false_ne_true
          rw [if_neg hin, vmfail_entered hnone] at hhandle
          refine ⟨_, ⟨0, hhandle⟩, performs_of_failure hnot ?_ rfl haddress rfl⟩
          rw [hexecute, if_pos (show vcpu.virtual.vmxon = true from hon),
            if_neg (not_not.mpr hcpl), vmfail_of_none hnone]
      | false =>
          rw [if_neg (Bool.eq_false_iff.mp hon)] at hfits
          have hoff : ¬vcpu.virtual.vmxon = true := Bool.eq_false_iff.mp hon
          have harch := (hexecute.trans (if_neg hoff)).trans (vmxonOutside_fails hfits)
          obtain ⟨-, -, place, hfinds, hregion, hpage⟩ := hfits
          have hout : (!(vcpu.entered e).vmxon) = true := by
            rw [show (vcpu.entered e).vmxon = false from hon]
            rfl
          rw [if_pos hout, (hostWord_of_finds hfinds).1, Option.map_some] at hhandle
          cases haligned : isPageAligned (e.word place) with
          | false =>
              rw [if_neg (Bool.eq_false_iff.mp haligned)] at hhandle
              refine ⟨_, ⟨0, hhandle⟩, performs_of_failure hnot harch ?_ (fun hset => ?_) rfl⟩
              · rw [hregion]
                rfl
              · exact absurd hset hoff
          | true =>
              have hnull : cpu.noirFindVirtByPhys (e.word place) = none :=
                if_neg (Bool.eq_false_iff.mp (hpage haligned).1)
              rw [if_pos haligned, hnull] at hhandle
              refine ⟨_, ⟨0, hhandle⟩, performs_of_failure hnot harch ?_ (fun hset => ?_) rfl⟩
              · rw [hregion]
                rfl
              · exact absurd hset hoff

theorem performs_writeCr4 {gpr : BitVec 4} (hinstruction : e.instruction = .writeCr4 gpr)
    (haddress : vcpu.HasAddress) (hfits : vcpu.Fits cpu e) :
    ∃ vcpu', vcpu.Returns cpu e vcpu' ∧ vcpu.Performs cpu e vcpu' := by
  unfold Fits at hfits
  rw [hinstruction] at hfits
  have hexecute : vcpu.virtual.execute cpu e = vcpu.virtual.writeCr4 e gpr := by
    unfold VirtualVmx.execute
    rw [hinstruction]
  have hhandle : vcpu.handle cpu e 0 = some ((vcpu.entered e).nvcVtCrAccessHandlerCr4 e gpr) := by
    unfold handle
    rw [hinstruction]
  refine ⟨_, ⟨0, hhandle⟩, ?_⟩
  have hnot : e.instruction ≠ .vmptrst := by rw [hinstruction]; exact nofun
  unfold VirtualVmx.writeCr4 at hexecute
  unfold nvcVtCrAccessHandlerCr4
  dsimp only at hexecute ⊢
  cases hvmxe : (e.gpr gpr).getLsbD ia32Cr4Vmxe with
  | true =>
      rw [hvmxe, Bool.not_true, Bool.and_false, if_neg Bool.false_ne_true] at hexecute
      rw [if_pos rfl]
      exact ⟨by rw [hexecute]; rfl, by rw [hexecute]; exact ⟨rfl, rfl, rfl⟩, haddress,
        fun h => absurd h hnot⟩
  | false =>
      have hoff : vcpu.vmxon = false := by
        by_contra hon
        rw [hfits (Bool.not_eq_false _ ▸ hon)] at hvmxe
        exact (nomatch hvmxe)
      have hallowed : ¬(vcpu.virtual.vmxon && !false) = true := by
        rw [show vcpu.virtual.vmxon = false from hoff]
        exact Bool.false_ne_true
      rw [hvmxe, if_neg hallowed] at hexecute
      rw [if_neg Bool.false_ne_true,
        if_neg (show ¬(vcpu.entered e).vmxon = true from Bool.eq_false_iff.mp hoff)]
      exact ⟨by rw [hexecute]; rfl, by rw [hexecute]; exact ⟨rfl, rfl, rfl⟩, haddress,
        fun h => absurd h hnot⟩

/-- One exit that fits. -/
theorem performs_of_fits (haddress : vcpu.HasAddress) (hfits : vcpu.Fits cpu e) :
    ∃ vcpu', vcpu.Returns cpu e vcpu' ∧ vcpu.Performs cpu e vcpu' := by
  cases hinstruction : e.instruction with
  | vmclear => exact performs_vmclear hinstruction haddress hfits
  | vmptrld => exact performs_vmptrld hinstruction haddress hfits
  | vmptrst => exact performs_vmptrst hinstruction haddress hfits
  | vmxoff => exact performs_vmxoff hinstruction haddress hfits
  | vmxon => exact performs_vmxon hinstruction haddress hfits
  | writeCr4 gpr => exact performs_writeCr4 hinstruction haddress hfits

theorem performsAll_of_fitsAll {es : List VmxExit} (haddress : vcpu.HasAddress)
    (hfits : vcpu.FitsAll cpu es) : vcpu.PerformsAll cpu es := by
  induction es generalizing vcpu with
  | nil => exact haddress
  | cons e es ih =>
      obtain ⟨hfit, hrest⟩ := hfits
      obtain ⟨vcpu', hreturns, hperforms⟩ := performs_of_fits haddress hfit
      exact ⟨vcpu', hreturns, hperforms, ih hperforms.hasAddress (hrest vcpu' hreturns)⟩

/-! A nested hypervisor that enables VMX and executes `vmxon`, and one that is in VMX operation. -/

def anyProcessor : VmxProcessor := ⟨0, 36, false, fun _ => true⟩

/-- An exit for an instruction with this operand. -/
def exitFor (instruction : VmxInstruction) (operand : BitVec 64) : VmxExit where
  instruction := instruction
  rip := 0
  rflags := 2
  instructionLength := 4
  longMode := true
  cpl := 0
  vmxonRefused := false
  gprState _ := 0
  rsp := 0
  base := 0
  baseInvalid := false
  index := 0
  indexInvalid := true
  scaling := 0
  addressSize := 64
  segmentBase := 0
  displacement := 0
  page _ _ := 0
  word _ := operand
  hostPlace _ pointer := some pointer
  guestPlace _ address := .ok address

def afterReset : NestedVmxVcpu where
  vmxe := false
  vmxon := false
  vmxonRegion := ⟨0, none⟩
  vmcsC := ⟨0, none⟩
  guestCr4 := 0x2000
  cr4ReadShadow := 0
  rflags := 2
  rip := 0
  event := none
  stored := none
  page _ _ := 0

def enableVmx : VmxExit := { exitFor (.writeCr4 3) 0 with gprState := fun _ => 0x2000 }

theorem returns_unique {a b : NestedVmxVcpu} (ha : ∀ depth, vcpu.handle cpu e depth = some a)
    (hb : vcpu.Returns cpu e b) : b = a := by
  obtain ⟨depth, hb⟩ := hb
  exact Option.some.inj (hb.symm.trans (ha depth))

theorem not_forall_performsAll : ¬∀ (cpu : VmxProcessor) (vcpu : NestedVmxVcpu)
    (es : List VmxExit), vcpu.HasAddress → vcpu.PerformsAll cpu es := by
  intro h
  obtain ⟨vcpu, henable, -, vcpu', hvmxon, hperforms, -⟩ :=
    h anyProcessor afterReset [enableVmx, exitFor .vmxon 0x1000] nofun
  obtain rfl := returns_unique (fun _ => rfl) henable
  obtain rfl := returns_unique (fun _ => rfl) hvmxon
  have hrip := hperforms.shows.2.1
  exact absurd hrip (by decide)

/-- VMX operation with the region at `0x1000`, and no current VMCS. -/
def inOperation : NestedVmxVcpu :=
  { afterReset with
    vmxe := true
    vmxon := true
    vmxonRegion := ⟨0x1000, some 0x1000⟩
    vmcsC := ⟨noCurrentVmcs, none⟩ }

theorem finds_exitFor {instruction : VmxInstruction} {operand : BitVec 64} {write : Bool} :
    (exitFor instruction operand).Finds write 0 := ⟨rfl, rfl⟩

theorem fits_vmptrld : inOperation.Fits anyProcessor (exitFor .vmptrld 0x2000) := by
  intro _
  refine ⟨rfl, 0, finds_exitFor, fun _ => rfl, fun _ => ⟨by decide, rfl, ?_⟩⟩
  exact fun hset => absurd hset (by decide)

theorem inOperation_performsAll :
    inOperation.PerformsAll anyProcessor
      [exitFor .vmptrld 0x2000, exitFor .vmptrst 0, exitFor .vmclear 0x2000, exitFor .vmxoff 0] := by
  refine performsAll_of_fitsAll (fun _ hne => absurd rfl hne) ⟨fits_vmptrld, fun loaded hloaded => ?_⟩
  obtain rfl := returns_unique (fun _ => rfl) hloaded
  refine ⟨fun _ => ⟨rfl, ⟨0, finds_exitFor⟩, by decide, by decide, by decide⟩, fun stored hstored => ?_⟩
  obtain rfl := returns_unique (fun _ => rfl) hstored
  refine ⟨fun _ => ⟨rfl, 0, finds_exitFor, ?_, fun _ => ⟨by decide, rfl, trivial⟩⟩, ?_⟩
  · rintro (haligned | hregion)
    · exact absurd haligned (by decide)
    · exact absurd hregion (by decide)
  · intro cleared hcleared
    obtain rfl := returns_unique (fun _ => rfl) hcleared
    exact ⟨fun _ => rfl, fun _ _ => trivial⟩

end Step

end NestedVmxVcpu

end NoirVisor
