import NoirVisor.Cvm.SvmCr4
import NoirVisor.Cvm.SvmEvents

/-!
# Options of a virtual CPU on SVM

The interceptions that a VMCB starts with, and those that the options of its vCPU add. The options, the
interceptions and the trap flag of the guest are a state of their own, of which the switches and the
handlers of exits change little.
-/

namespace NoirVisor

open SvmCustomVcpu (nmiInterrupt interceptVector1Iret)

/-! The VMCB of a new vCPU. -/

/-- What a VMCB has of its VM. -/
structure SvmGuestVm where
  asid : Nat
  iopm : Nat
  ncr3 : Nat
  maps : SvmPermissionMaps

/-- Reads of CR4, and writes to it. -/
def mandatoryAccessCr : List Nat := [0x04, 0x14]

/-- External interrupts, NMIs, SMIs, virtual interrupts, cpuid, invd, hlt, invlpga, I/O, MSRs and
shutdowns. -/
def mandatoryInstruction1 : List Nat := [0, 1, 2, 4, 18, 22, 24, 26, 27, 28, 31]

/-- The instructions vmrun, vmmcall, vmload, vmsave, stgi, clgi and skinit. -/
def mandatoryInstruction2 : List Nat := [0, 1, 2, 3, 4, 5, 6]

def noirBtsAll (value : Nat) (bits : List Nat) : Nat := bits.foldl noirBts value

/-- The parts of the interrupt control that are not set are reset. -/
def nvcSvmInitializeCvmVmcb (vm : SvmGuestVm) (vcpu : SvmCustomVcpu) : SvmCustomVcpu :=
  let vmcb := vcpu.vmcb
  let intercepting := (((vmcb.write .interceptExceptions
      (noirBtsAll (vmcb.field .interceptExceptions) [machineCheck, securityException])).write
    .interceptAccessCr (noirBtsAll 0 mandatoryAccessCr)).write
    .interceptInstruction1 (noirBtsAll 0 mandatoryInstruction1)).write
    .interceptInstruction2 (noirBtsAll 0 mandatoryInstruction2)
  let interrupting := ((((((intercepting.write .guestAsid vm.asid).write
    .tlbControl tlbControlFlushGuest).write (.guest .cr8) 0).write .virtualIrq 0).write
    .virtualInterruptPriority 0).write .ignoreVirtualTpr 0).write .virtualInterruptVector 0
  { vcpu with
    vmcb := (((((interrupting.write .virtualInterruptMasking 1).write .nptControl 1).write
      .nptCr3 vm.ncr3).write .iopmPhysicalAddress vm.iopm).write .msrpmPhysicalAddress vm.maps.msrpm)
    vmsa.parent := true }

/-! The bits of the interceptions. -/

section Bits

variable {value n k : Nat} {bits : List Nat} {b : Bool}

theorem testBit_noirBtsAll : (noirBtsAll value bits).testBit k = (value.testBit k || bits.contains k) := by
  induction bits generalizing value with
  | nil => exact (Bool.or_false _).symm
  | cons n bits ih =>
      refine (@ih (noirBts value n)).trans ?_
      rw [noirBts_testBit, List.contains_cons, Bool.or_assoc]

theorem testBit_noirBtsAll_zero : (noirBtsAll 0 bits).testBit k = bits.contains k := by
  rw [testBit_noirBtsAll, Nat.zero_testBit, Bool.false_or]

end Bits

/-- What the options of a vCPU are about. The trap flag of the guest is in the VMCB and, as it was saved
last, in the structure. -/
@[ext]
structure OptionState where
  options : VcpuOptions
  exceptionBitmap : Nat
  exceptions : Nat
  accessCr : Nat
  accessDr : Nat
  instruction1 : Nat
  instruction2 : Nat
  msrpm : Nat
  vmcbTf : Bool
  headerTf : Bool
  gprValid : Bool
  prevNmi : Bool
  nsvGuest : Bool

namespace OptionState

variable (o : OptionState)

/-- The trap flag that the guest has in the VMCB once the switch has written what it has to. -/
def ownTf : Bool := if o.gprValid || o.nsvGuest then o.vmcbTf else o.headerTf

def loaded : OptionState := { o with vmcbTf := o.ownTf, gprValid := o.gprValid || !o.nsvGuest }

/-- An NMI waits for the iret of the guest. -/
def waiting (nmi : Bool) : OptionState :=
  if nmi then
    { o with
      options := { o.options with blockingByNmi := true }
      instruction1 := o.instruction1 ||| interceptVector1Iret
      prevNmi := true }
  else o

def entered (nmi : Bool) : OptionState := o.loaded.waiting nmi

/-- The flags of an NSV guest are not saved. -/
def passed (toHost : Bool) : OptionState :=
  if toHost then { o with headerTf := if o.nsvGuest then o.headerTf else o.vmcbTf } else o

def exited (code : Int) (toHost : Bool) : OptionState :=
  if code = 0x74 then
    if o.prevNmi then { o with prevNmi := false }
    else if toHost then { o.passed true with instruction1 := noirBtr o.instruction1 20 }
    else o
  else o.passed toHost

/-- What edits do that write this trap flag, if any, and invalidate the general-purpose registers or do
not. -/
def edited (tf : Option Bool) (invalidates : Bool) : OptionState :=
  { o with headerTf := tf.getD o.headerTf, gprValid := o.gprValid && !invalidates }

/-- What the options make of the VMCB. -/
def configured (vm : SvmPermissionMaps) : OptionState :=
  let exceptions := noirBts (noirBts (if o.options.interceptExceptions then o.exceptionBitmap else 0)
    machineCheck) securityException
  { o with
    exceptions := if o.options.hiddenTf then noirBts exceptions debugException else exceptions
    accessCr := setBitTo (setBitTo o.accessCr 0x03 o.options.interceptCr3) 0x13 o.options.interceptCr3
    accessDr := if o.options.interceptDrx then 2 ^ 32 - 1 else 0
    msrpm := if o.options.interceptMsr then vm.msrpmFull else vm.msrpm
    instruction1 := setBitTo o.instruction1 19 o.options.interceptRsm
    vmcbTf := o.options.hiddenTf || o.vmcbTf }

variable {o}

theorem loaded_of_nsvGuest (h : o.nsvGuest = true) : o.loaded = o := by
  unfold loaded ownTf
  rw [h, Bool.or_true, if_pos rfl, Bool.not_true, Bool.or_false, ← h]

end OptionState

namespace SvmCustomVcpu

variable {v v' : SvmCustomVcpu} {c : StateCache} {select : Register → Bool} {b : Option CleanBit}
  {procId : Nat}

def optionState (v : SvmCustomVcpu) : OptionState where
  options := v.header.vcpuOptions
  exceptionBitmap := v.header.exceptionBitmap
  exceptions := v.vmcb.field .interceptExceptions
  accessCr := v.vmcb.field .interceptAccessCr
  accessDr := v.vmcb.field .interceptAccessDr
  instruction1 := v.vmcb.field .interceptInstruction1
  instruction2 := v.vmcb.field .interceptInstruction2
  msrpm := v.vmcb.field .msrpmPhysicalAddress
  vmcbTf := (v.vmcb.field (.guest .rflags)).testBit rflagsTf
  headerTf := (v.header.reg .rflags).testBit rflagsTf
  gprValid := v.header.stateCache .gpr
  prevNmi := v.specialState.prevNmi
  nsvGuest := v.nsvGuest

/-- Only the first group has the flags. -/
theorem optionState_loadGroup (hgroup : c ≠ .gpr) (hflags : select .rflags = false) :
    (v.loadGroup c select b).optionState = v.optionState := by
  unfold loadGroup
  split
  · rfl
  · refine OptionState.ext rfl rfl rfl rfl rfl rfl rfl rfl ?_ rfl ?_ rfl rfl
    · dsimp only [optionState]
      rw [hflags, if_neg Bool.false_ne_true]
    · exact Function.update_of_ne hgroup.symm _ _

theorem optionState_loadFlags :
    (v.loadGroup .gpr Register.inGprGroup none).optionState =
      { v.optionState with
        vmcbTf := if v.header.stateCache .gpr then v.optionState.vmcbTf else v.optionState.headerTf
        gprValid := true } := by
  unfold loadGroup
  split
  · next hvalid =>
      exact OptionState.ext rfl rfl rfl rfl rfl rfl rfl rfl rfl rfl hvalid rfl rfl
  · refine OptionState.ext rfl rfl rfl rfl rfl rfl rfl rfl rfl rfl ?_ rfl rfl
    exact Function.update_self StateCache.gpr true v.header.stateCache

theorem optionState_loadControlRegisters : v.loadControlRegisters.optionState = v.optionState := by
  unfold loadControlRegisters
  split
  · rfl
  · exact optionState_loadGroup (by decide) rfl

theorem optionState_loadEfer : v.loadEfer.optionState = v.optionState := by
  unfold loadEfer
  split
  · rfl
  · dsimp only
    have hload (w : SvmCustomVcpu) :
        optionState { w.loadGroup .ef (· == Register.efer) (some .controlReg) with
          shadowedBits := { v.shadowedBits with
            svme := (v.header.reg .efer).testBit 12 } } = w.optionState :=
      optionState_loadGroup (by decide) rfl
    rw [hload]
    split <;> rfl

theorem optionState_schedule : (v.schedule procId).optionState = v.optionState := by
  unfold schedule
  split <;> rfl

theorem optionState_flushNestedPaging : v.flushNestedPaging.optionState = v.optionState := by
  unfold flushNestedPaging
  split
  · rfl
  · refine OptionState.ext rfl rfl rfl rfl rfl rfl rfl rfl rfl rfl ?_ rfl rfl
    exact Function.update_of_ne (show StateCache.gpr ≠ .tl by decide) true v.header.stateCache

theorem optionState_loadVmcb (hnsv : v.nsvGuest = false) :
    v.loadVmcb.optionState = v.optionState.loaded := by
  unfold loadVmcb
  rw [optionState_loadGroup (c := .ts) (by decide) rfl, optionState_loadGroup (c := .sc) (by decide) rfl,
    optionState_loadGroup (c := .se) (by decide) rfl, optionState_loadGroup (c := .pa) (by decide) rfl,
    optionState_loadEfer, optionState_loadGroup (c := .dt) (by decide) rfl,
    optionState_loadGroup (c := .lt) (by decide) rfl, optionState_loadGroup (c := .fg) (by decide) rfl,
    optionState_loadGroup (c := .sr) (by decide) rfl, optionState_loadGroup (c := .tp) (by decide) rfl,
    optionState_loadGroup (c := .cr2) (by decide) rfl, optionState_loadControlRegisters,
    optionState_loadGroup (c := .dr) (by decide) rfl, optionState_loadFlags,
    OptionState.loaded, OptionState.ownTf]
  have hguest : v.optionState.nsvGuest = false := hnsv
  rw [hguest, Bool.or_false, Bool.not_false, Bool.or_true]
  exact OptionState.ext rfl rfl rfl rfl rfl rfl rfl rfl rfl rfl rfl rfl hguest

/-- The event of the structure is taken for an NMI by its type and vector. -/
def entersNmi (v : SvmCustomVcpu) : Bool :=
  v.header.injectedEvent.type != 0 && v.header.injectedEvent.vector == nmiInterrupt

theorem optionState_setEventInjection :
    v.setEventInjection.optionState = v.optionState.waiting v.entersNmi := by
  unfold setEventInjection entersNmi
  dsimp only
  by_cases htype : v.header.injectedEvent.type ≠ 0
  · by_cases hvector : v.header.injectedEvent.vector = nmiInterrupt
    · rw [if_pos htype, if_pos hvector, bne_iff_ne.mpr htype, beq_iff_eq.mpr hvector]
      rfl
    · rw [if_pos htype, if_neg hvector, beq_eq_false_iff_ne.mpr hvector, Bool.and_false]
      rfl
  · rw [if_neg htype, not_not.mp htype]
    split <;> rfl

theorem entersNmi_congr (h : v'.header.injectedEvent = v.header.injectedEvent) :
    v'.entersNmi = v.entersNmi := by
  unfold entersNmi
  rw [h]

theorem entersNmi_loadVmcb : v.loadVmcb.entersNmi = v.entersNmi :=
  entersNmi_congr (congrArg EventState.injected events_loadVmcb)

theorem entersNmi_schedule : (v.schedule procId).entersNmi = v.entersNmi :=
  entersNmi_congr (congrArg EventState.injected events_schedule)

theorem optionState_switchToGuest {cpu : Xsave.Features} {p p' : Processor} {host host' : VirtualCpu}
    (h : nvcSvmSwitchToGuestVcpu cpu procId p host v = some (p', host', v')) :
    v'.optionState = v.optionState.entered v.entersNmi := by
  unfold nvcSvmSwitchToGuestVcpu at h
  dsimp only at h
  unfold OptionState.entered
  split at h
  · next hnsv =>
      obtain ⟨⟨q, success⟩, -, heq⟩ := Option.map_eq_some_iff.mp h
      cases heq
      have hnmi : entersNmi { v.schedule procId with
          specialState.switchSuccess := success } = v.entersNmi := entersNmi_schedule
      have hstate : optionState { v.schedule procId with
          specialState.switchSuccess := success } = v.optionState := optionState_schedule
      have hguest : v.optionState.nsvGuest = true := hnsv
      rw [optionState_flushNestedPaging, optionState_setEventInjection, hnmi, hstate,
        OptionState.loaded_of_nsvGuest hguest]
  · next hnsv =>
      obtain ⟨q, -, heq⟩ := Option.map_eq_some_iff.mp h
      cases heq
      have hguest : (v.schedule procId).optionState.nsvGuest = false := by
        rw [optionState_schedule]
        exact Bool.eq_false_iff.mpr hnsv
      have hnmi : entersNmi { (v.schedule procId).loadVmcb with
          specialState.switchSuccess := true } = v.entersNmi :=
        entersNmi_loadVmcb.trans entersNmi_schedule
      have hstate : optionState { (v.schedule procId).loadVmcb with
          specialState.switchSuccess := true } = v.optionState.loaded :=
        (optionState_loadVmcb hguest).trans (congrArg OptionState.loaded optionState_schedule)
      rw [optionState_flushNestedPaging, optionState_setEventInjection, hnmi, hstate]

theorem optionState_switchToHost {cpu : Xsave.Features} {p p' : Processor} {host : VirtualCpu}
    (h : nvcSvmSwitchToHostVcpu cpu p host v = some (p', v')) :
    v'.optionState = v.optionState.passed true := by
  unfold nvcSvmSwitchToHostVcpu at h
  dsimp only at h
  obtain ⟨⟨q, header⟩, hleave, heq⟩ := Option.map_eq_some_iff.mp h
  obtain ⟨-, -, rfl⟩ := leaveGuest_eq_some hleave
  obtain ⟨-, rfl⟩ := Prod.mk.inj heq
  unfold OptionState.passed
  rw [if_pos rfl]
  cases hnsv : v.nsvGuest with
  | true =>
      have hguest : v.optionState.nsvGuest = true := hnsv
      rw [hguest, if_pos rfl, if_pos rfl]
      unfold nvcSvmNsvSaveGuestVcpu
      split <;> exact OptionState.ext rfl rfl rfl rfl rfl rfl rfl rfl rfl rfl rfl rfl hnsv
  | false =>
      have hguest : v.optionState.nsvGuest = false := hnsv
      rw [hguest, if_neg Bool.false_ne_true, if_neg Bool.false_ne_true]
      exact OptionState.ext rfl rfl rfl rfl rfl rfl rfl rfl rfl rfl rfl rfl hnsv

theorem optionState_askVirq : v.askVirq.optionState = v.optionState := by
  unfold askVirq
  split <;> rfl

theorem optionState_dump : (nvcSvmDumpGuestVcpuState v).optionState = v.optionState := by
  have hgroup (w : SvmCustomVcpu) (c : StateCache) (select : Register → Bool)
      (hflags : select .rflags = false) : (w.dumpGroup c select).optionState = w.optionState := by
    unfold dumpGroup
    split
    · refine OptionState.ext rfl rfl rfl rfl rfl rfl rfl rfl rfl ?_ rfl rfl rfl
      dsimp only [optionState]
      rw [hflags, if_neg Bool.false_ne_true]
    · rfl
  have hsynchronized (w : SvmCustomVcpu) :
      optionState { w with header.synchronized := true } = w.optionState := rfl
  unfold nvcSvmDumpGuestVcpuState
  rw [hsynchronized]
  repeat rw [hgroup _ _ _ rfl]

theorem optionState_options (vm : SvmPermissionMaps) :
    (nvcSvmSetGuestVcpuOptions vm v).optionState = v.optionState.configured vm := by
  unfold nvcSvmSetGuestVcpuOptions OptionState.configured
  have hoptions : v.optionState.options.hiddenTf = v.header.vcpuOptions.hiddenTf := rfl
  rw [hoptions]
  dsimp only
  cases hhidden : v.header.vcpuOptions.hiddenTf with
  | true =>
      simp only [if_true]
      refine OptionState.ext rfl rfl rfl rfl rfl rfl rfl rfl ?_ rfl rfl rfl rfl
      exact noirBts_testBit.trans (Bool.or_true _)
  | false =>
      simp only [Bool.false_eq_true, if_false]
      exact OptionState.ext rfl rfl rfl rfl rfl rfl rfl rfl rfl rfl rfl rfl rfl

theorem optionState_initialize {vm : SvmGuestVm} :
    (nvcSvmInitializeCvmVmcb vm v).optionState =
      { v.optionState with
        exceptions := noirBtsAll v.optionState.exceptions [machineCheck, securityException]
        accessCr := noirBtsAll 0 mandatoryAccessCr
        instruction1 := noirBtsAll 0 mandatoryInstruction1
        instruction2 := noirBtsAll 0 mandatoryInstruction2
        msrpm := vm.maps.msrpm } := rfl

/-- The trap flag that edits write. -/
def writtenTf (calls : List EditCall) : Option Bool :=
  (Writeback.lastWrite (EditCalls.edits calls) .rflags).map (·.testBit rflagsTf)

theorem edited_options {supportedSizeMax : Nat} {calls : List EditCall} :
    (v.edited supportedSizeMax calls).header.vcpuOptions = v.header.vcpuOptions ∧
      (v.edited supportedSizeMax calls).header.exceptionBitmap = v.header.exceptionBitmap := by
  have hedits (es : List RegisterEdit) (vcpu : VirtualCpu) :
      (es.foldl VirtualCpu.edit vcpu).vcpuOptions = vcpu.vcpuOptions ∧
        (es.foldl VirtualCpu.edit vcpu).exceptionBitmap = vcpu.exceptionBitmap := by
    induction es generalizing vcpu with
    | nil => exact ⟨rfl, rfl⟩
    | cons e es ih => exact ih (vcpu.edit e)
  unfold edited
  dsimp only
  rw [EditCalls.run_eq]
  exact hedits _ _

theorem optionState_edited {supportedSizeMax : Nat} {calls : List EditCall} :
    (v.edited supportedSizeMax calls).optionState =
      v.optionState.edited (writtenTf calls) ((EditCalls.edits calls).any (·.invalidates .gpr)) := by
  refine OptionState.ext edited_options.1 edited_options.2 rfl rfl rfl rfl rfl rfl rfl ?_
    (EditCalls.run_stateCache .gpr) rfl rfl
  have hreg : (v.edited supportedSizeMax calls).header.reg .rflags = _ :=
    EditCalls.run_reg supportedSizeMax .rflags
  dsimp only [optionState, OptionState.edited, writtenTf]
  rw [hreg]
  cases Writeback.lastWrite (EditCalls.edits calls) .rflags <;> rfl

/-- The flags are not written unless their group is invalidated. -/
theorem invalidates_of_writtenTf {calls : List EditCall} {tf : Bool} (h : writtenTf calls = some tf) :
    (EditCalls.edits calls).any (·.invalidates .gpr) = true := by
  obtain ⟨value, hwrite, -⟩ := Option.map_eq_some_iff.mp h
  refine any_invalidates_of_lastWrite (fun e he => ?_) hwrite rfl
  obtain ⟨call, -, hedit⟩ := List.mem_flatMap.mp he
  exact EditCall.invalidating hedit

end SvmCustomVcpu

/-! What an exit leads to. -/

/-- The event injection has an exception of this vector. -/
def Vmcb.Injects (vmcb : Vmcb) (vector : Nat) : Prop :=
  let event : EventInjection := ⟨vmcb.field .eventInjection, vmcb.field .eventErrorCode⟩
  event.valid = true ∧ event.type = faultTrapException ∧ event.vector = vector

/-- Whether the handler of an exit switches to the host, and the exception that it raises. -/
structure CvexitOutcome where
  toHost : Bool
  raised : Option Nat

section Outcomes

variable (ctx : CvexitContext) (s : CvexitState)

/-- The trap of a guest that single-steps, when an instruction is emulated. -/
def singleStepTrap : Option Nat :=
  if (s.vcpu.vmcb.field (.guest .rflags)).testBit rflagsTf then some debugException else none

def invalidOpcodeOutcome : CvexitOutcome :=
  ⟨s.vcpu.header.exceptionBitmap.testBit invalidOpcode, some invalidOpcode⟩

def nsvMsrOutcome : CvexitOutcome :=
  if ctx.exitInfo1 % 2 ^ 8 != 0 then
    match writeSyntheticMsr ctx s with
    | none => ⟨false, some generalProtection⟩
    | some (noExit, _) => ⟨!noExit, singleStepTrap s⟩
  else if s.msrIndex = nsvMsrGhcb ∨ (readableSyntheticMsrs.lookup s.msrIndex).isSome then
    ⟨false, singleStepTrap s⟩
  else ⟨false, some generalProtection⟩

/-- Whether the hypervisor has the MSR, and takes the value that is written. -/
def emulatesMsr : Bool :=
  (if ctx.exitInfo1 % 2 ^ 8 != 0 then nvcSvmWrmsrCvexitHandler ctx s
    else nvcSvmRdmsrCvexitHandler ctx s).isSome

def msrOutcome : CvexitOutcome :=
  if 0x40000000 ≤ s.msrIndex ∧ s.msrIndex < 0x80000000 then nsvMsrOutcome ctx s
  else if s.vcpu.header.vcpuOptions.interceptMsr then
    if interceptsMsr ctx s.msrIndex then ⟨true, none⟩
    else if emulatesMsr ctx s then ⟨false, none⟩
    else invalidOpcodeOutcome s
  else ⟨false, none⟩

/-- By intercept code, as `svmCvexitHandlers`. -/
def svmCvexitOutcomes (code : Int) : CvexitOutcome :=
  let options := s.vcpu.header.vcpuOptions
  if code = 0x04 then ⟨false, singleStepTrap s⟩
  else if code = 0x14 then ⟨false, singleStepTrap s⟩
  else if code = 0x64 then
    ⟨!s.vcpu.specialState.prevVirq && options.interceptInterruptWindow, none⟩
  else if code = 0x72 then
    if options.interceptCpuid then ⟨!s.vcpu.nsvGuest, none⟩ else ⟨false, singleStepTrap s⟩
  else if code = 0x74 then ⟨!s.vcpu.specialState.prevNmi && options.interceptNmiWindow, none⟩
  else if code = 0x76 then ⟨false, singleStepTrap s⟩
  else if code = 0x78 ∨ code = 0x81 then
    ⟨true, if s.vcpu.nsvGuest then singleStepTrap s else none⟩
  else if code = 0x7B then ⟨!s.vcpu.nsvGuest, none⟩
  else if code = 0x7C then msrOutcome ctx s
  else if code = 0x7A ∨ 0x80 ≤ code ∧ code ≤ 0x86 then invalidOpcodeOutcome s
  else if code = 0x401 ∨ code = 0x402 then ⟨false, none⟩
  else ⟨true, none⟩

end Outcomes

/-- The header that takes the place of the misplaced one has the same options and flags: what is written
is the base of SS, and the leaves of cpuid that are answered quickly. -/
def CvexitContext.KeepsOptions (ctx : CvexitContext) : Prop :=
  ∀ header, (ctx.misplaced header).vcpuOptions = header.vcpuOptions ∧
    (ctx.misplaced header).exceptionBitmap = header.exceptionBitmap ∧
    (ctx.misplaced header).reg .rflags = header.reg .rflags ∧
    (ctx.misplaced header).stateCache .gpr = header.stateCache .gpr

namespace CvexitState

variable {s s' s'' : CvexitState} {outcome : CvexitOutcome} {result : Option CvexitState}
  {f : Vmcb → Vmcb} {r : Register} {value : Nat}

/-- Neither the options nor the event injection change. -/
structure Keeps (s s' : CvexitState) : Prop where
  optionState : s'.vcpu.optionState = s.vcpu.optionState
  injection : s'.vcpu.vmcb.field .eventInjection = s.vcpu.vmcb.field .eventInjection
  errorCode : s'.vcpu.vmcb.field .eventErrorCode = s.vcpu.vmcb.field .eventErrorCode
  toHost : s'.toHost = s.toHost

theorem Keeps.refl : s.Keeps s := ⟨rfl, rfl, rfl, rfl⟩

theorem Keeps.trans (h : s.Keeps s') (h' : s'.Keeps s'') : s.Keeps s'' :=
  ⟨h'.optionState.trans h.optionState, h'.injection.trans h.injection,
    h'.errorCode.trans h.errorCode, h'.toHost.trans h.toHost⟩

theorem Keeps.injects_iff (h : s.Keeps s') {vector : Nat} :
    s'.vcpu.vmcb.Injects vector ↔ s.vcpu.vmcb.Injects vector := by
  unfold Vmcb.Injects
  rw [h.injection, h.errorCode]

/-- The exception is injected, and goes to the host only if it is an invalid opcode that the bitmap
has. -/
def Raised (s s' : CvexitState) (vector : Nat) : Prop :=
  s'.toHost = true ∧ ¬s'.vcpu.vmcb.Injects vector ↔
    vector = invalidOpcode ∧ s.vcpu.header.exceptionBitmap.testBit vector = true

structure LeadsTo (s : CvexitState) (outcome : CvexitOutcome) (s' : CvexitState) : Prop where
  toHost : s'.toHost = outcome.toHost
  optionState : s'.vcpu.optionState = s.vcpu.optionState.passed outcome.toHost
  raised : ∀ vector, outcome.raised = some vector → s.Raised s' vector

structure ExitsTo (s : CvexitState) (code : Int) (outcome : CvexitOutcome) (s' : CvexitState) : Prop where
  toHost : s'.toHost = outcome.toHost
  optionState : s'.vcpu.optionState = s.vcpu.optionState.exited code outcome.toHost
  raised : ∀ vector, outcome.raised = some vector → s.Raised s' vector

/-- A handler that may switch to the host. -/
def Leads (s : CvexitState) (outcome : CvexitOutcome) (result : Option CvexitState) : Prop :=
  ∀ s', result = some s' → s.LeadsTo outcome s'

theorem leads_some (h : s.LeadsTo outcome s') : s.Leads outcome (some s') :=
  fun _ hs' => Option.some.inj hs' ▸ h

/-- The table and the handlers have the same cases. -/
theorem leads_ite {p : Prop} [Decidable p] {outcome' : CvexitOutcome} {result' : Option CvexitState}
    (h : p → s.Leads outcome result) (h' : ¬p → s.Leads outcome' result') :
    s.Leads (if p then outcome else outcome') (if p then result else result') := by
  by_cases hp : p
  · rw [if_pos hp, if_pos hp]
    exact h hp
  · rw [if_neg hp, if_neg hp]
    exact h' hp

theorem Keeps.leads (h : s.Keeps s') (hresult : s'.Leads outcome result) : s.Leads outcome result := by
  intro s'' hs''
  obtain ⟨htoHost, hstate, hraised⟩ := hresult s'' hs''
  refine ⟨htoHost, hstate.trans (congrArg (·.passed outcome.toHost) h.optionState), fun vector hvector => ?_⟩
  have hbitmap : s'.vcpu.header.exceptionBitmap = s.vcpu.header.exceptionBitmap :=
    congrArg OptionState.exceptionBitmap h.optionState
  unfold Raised
  rw [← hbitmap]
  exact hraised vector hvector

theorem leadsTo_quiet (hstate : s'.vcpu.optionState = s.vcpu.optionState) (htoHost : s'.toHost = false) :
    s.LeadsTo ⟨false, none⟩ s' := ⟨htoHost, hstate, fun _ hraised => nomatch hraised⟩

theorem Keeps.leadsTo (h : s.Keeps s') (hguest : s.toHost = false) : s.LeadsTo ⟨false, none⟩ s' :=
  leadsTo_quiet h.optionState (h.toHost.trans hguest)

theorem raised_of_injects {vector : Nat} (h : s'.vcpu.vmcb.Injects vector) (hother : vector ≠ invalidOpcode) :
    s.Raised s' vector := iff_of_false (fun hhost => hhost.2 h) fun hbitmap => hother hbitmap.1

theorem keeps_withReg : s.Keeps (s.withReg r value) := ⟨rfl, rfl, rfl, rfl⟩

theorem keeps_withMsrValue : s.Keeps (s.withMsrValue value) := ⟨rfl, rfl, rfl, rfl⟩

theorem keeps_withShadowedBits {bits : ShadowedBits} : s.Keeps { s with vcpu.shadowedBits := bits } :=
  ⟨rfl, rfl, rfl, rfl⟩

end CvexitState

/-- The fields that the options are about, and the event injection. -/
def isOptionField : VmcbField → Bool
  | .interceptExceptions | .interceptAccessCr | .interceptAccessDr => true
  | .interceptInstruction1 | .interceptInstruction2 | .msrpmPhysicalAddress => true
  | .guest .rflags | .eventInjection | .eventErrorCode => true
  | _ => false

namespace Vmcb

variable {vmcb vmcb' vmcb'' : Vmcb} {f : VmcbField} {value vector errorCode : Nat} {ev : Bool}

theorem injects_injectEvent (h : vector < 2 ^ 8) :
    (vmcb.injectEvent vector faultTrapException ev true errorCode).Injects vector := by
  unfold Injects
  change EventInjection.valid ⟨vector % 2 ^ 8 + faultTrapException % 2 ^ 3 * 2 ^ 8 + ev.toNat * 2 ^ 11 +
      true.toNat * 2 ^ 31, errorCode⟩ = true ∧
    (vector % 2 ^ 8 + faultTrapException % 2 ^ 3 * 2 ^ 8 + ev.toNat * 2 ^ 11 +
      true.toNat * 2 ^ 31) / 2 ^ 8 % 2 ^ 3 = faultTrapException ∧
    (vector % 2 ^ 8 + faultTrapException % 2 ^ 3 * 2 ^ 8 + ev.toNat * 2 ^ 11 +
      true.toNat * 2 ^ 31) % 2 ^ 8 = vector
  have hev : ev.toNat ≤ 1 := Bool.toNat_le ev
  rw [EventInjection.valid_iff]
  simp only [faultTrapException, Bool.toNat_true]
  refine ⟨?_, ?_, ?_⟩ <;> omega

theorem not_injects (h : (EventInjection.mk (vmcb.field .eventInjection)
    (vmcb.field .eventErrorCode)).valid = false) : ¬vmcb.Injects vector :=
  fun hinjects => Bool.false_ne_true (h.symm.trans hinjects.1)

end Vmcb

namespace CvexitState

variable {s s' s₁ : CvexitState} {f : Vmcb → Vmcb} {field : VmcbField} {value : Nat} {b : CleanBit}

theorem keeps_withVmcb (h : ∀ field, isOptionField field = true →
    (f s.vcpu.vmcb).field field = s.vcpu.vmcb.field field) : s.Keeps (s.withVmcb f) := by
  refine ⟨?_, h _ rfl, h _ rfl, rfl⟩
  refine OptionState.ext rfl rfl (h _ rfl) (h _ rfl) (h _ rfl) (h _ rfl) (h _ rfl) (h _ rfl) ?_ rfl rfl rfl rfl
  exact congrArg (·.testBit rflagsTf) (h (.guest .rflags) rfl)

theorem keeps_withVmcb_write (h : isOptionField field = false) :
    s.Keeps (s.withVmcb (·.write field value)) := by
  refine keeps_withVmcb fun field' hfield' => Vmcb.field_write_of_ne ?_
  rintro rfl
  exact Bool.false_ne_true (h.symm.trans hfield')

theorem keeps_withVmcb_dirty (h : isOptionField field = false) :
    s.Keeps (s.withVmcb fun vmcb => (vmcb.write field value).dirty b) := by
  refine keeps_withVmcb fun field' hfield' => Vmcb.field_write_of_ne ?_
  rintro rfl
  exact Bool.false_ne_true (h.symm.trans hfield')

theorem optionState_advanceRip : s.advanceRip.vcpu.optionState = s.vcpu.optionState := by
  unfold advanceRip withVmcb Vmcb.advanceRip
  dsimp only
  split
  · split <;> rfl
  · split <;> rfl

theorem injects_advanceRip (h : s₁.vcpu.optionState.vmcbTf = s.vcpu.optionState.vmcbTf) {vector : Nat}
    (htrap : singleStepTrap s = some vector) :
    s₁.advanceRip.vcpu.vmcb.Injects vector ∧ vector ≠ invalidOpcode := by
  obtain ⟨htf, hvector⟩ := Option.ite_none_right_eq_some.mp htrap
  obtain rfl := Option.some.inj hvector
  have htf₁ : (s₁.vcpu.vmcb.field (.guest .rflags)).testBit rflagsTf = true := h.trans htf
  have hinjects (vmcb : Vmcb) :
      (vmcb.injectEvent debugException faultTrapException false true 0).Injects debugException :=
    Vmcb.injects_injectEvent (by decide)
  refine ⟨?_, by decide⟩
  unfold advanceRip withVmcb Vmcb.advanceRip
  dsimp only
  rw [if_pos htf₁]
  split <;> exact hinjects s₁.vcpu.vmcb

theorem raised_advanceRip (h : s₁.vcpu.optionState.vmcbTf = s.vcpu.optionState.vmcbTf) {vector : Nat}
    (htrap : singleStepTrap s = some vector) : s.Raised s₁.advanceRip vector := by
  obtain ⟨hinjects, hother⟩ := injects_advanceRip h htrap
  exact raised_of_injects hinjects hother

/-- An instruction that has been emulated. -/
theorem Keeps.advanceRip (h : s.Keeps s₁) (hguest : s.toHost = false) :
    s.LeadsTo ⟨false, singleStepTrap s⟩ s₁.advanceRip where
  toHost := h.toHost.trans hguest
  optionState := optionState_advanceRip.trans h.optionState
  raised _ := raised_advanceRip (congrArg OptionState.vmcbTf h.optionState)

end CvexitState

section Handlers

open CvexitState

variable {ctx : CvexitContext} {s s' : CvexitState} {code : Int}

theorem leads_cvexitToHost : s.Leads ⟨true, none⟩ (cvexitToHost ctx s) := by
  intro s' hs'
  obtain ⟨⟨p, v⟩, hswitch, rfl⟩ := Option.map_eq_some_iff.mp hs'
  exact ⟨rfl, SvmCustomVcpu.optionState_switchToHost hswitch, fun _ hraised => nomatch hraised⟩

theorem leads_injectInvalidOpcode (hguest : s.toHost = false)
    (hclear : ∀ vector, ¬s.vcpu.vmcb.Injects vector) :
    s.Leads (invalidOpcodeOutcome s) (injectInvalidOpcode ctx s) := by
  unfold injectInvalidOpcode nvcSvmInjectCvmException invalidOpcodeOutcome
  by_cases hbitmap : s.vcpu.header.exceptionBitmap.testBit invalidOpcode = true
  · rw [if_pos hbitmap, hbitmap]
    intro s' hs'
    obtain ⟨htoHost, hstate, -⟩ := leads_cvexitToHost s' hs'
    obtain ⟨⟨p, v⟩, hswitch, rfl⟩ := Option.map_eq_some_iff.mp hs'
    refine ⟨htoHost, hstate, fun vector hvector => ?_⟩
    obtain rfl := Option.some.inj hvector
    refine iff_of_true ⟨rfl, ?_⟩ ⟨rfl, hbitmap⟩
    dsimp only
    rw [(switchToHost_same hswitch).1]
    exact hclear _
  · rw [if_neg hbitmap, Bool.eq_false_iff.mpr hbitmap]
    refine leads_some ⟨hguest, rfl, fun vector hvector => ?_⟩
    obtain rfl := Option.some.inj hvector
    refine iff_of_false (fun hhost => hhost.2 ?_) fun h => hbitmap h.2
    exact Vmcb.injects_injectEvent (by decide)

theorem keeps_nvcSvmNsvLoadNaeSyntheticMsrState {errorCode info1 info2 : Nat} :
    s.Keeps (nvcSvmNsvLoadNaeSyntheticMsrState s errorCode info1 info2) := by
  refine ⟨OptionState.ext rfl rfl rfl rfl rfl rfl rfl rfl ?_ rfl rfl rfl rfl, rfl, rfl, rfl⟩
  exact noirBtr_testBit.trans (Bool.and_true _)

theorem leadsTo_injectGeneralProtection (hguest : s.toHost = false) :
    s.LeadsTo ⟨false, some generalProtection⟩ (injectGeneralProtection s) := by
  refine ⟨hguest, rfl, fun vector hvector => ?_⟩
  obtain rfl := Option.some.inj hvector
  exact raised_of_injects (Vmcb.injects_injectEvent (by decide)) (by decide)

theorem leads_nvcSvmVirtintCvexitHandler (hguest : s.toHost = false) :
    s.Leads ⟨!s.vcpu.specialState.prevVirq && s.vcpu.header.vcpuOptions.interceptInterruptWindow, none⟩
      (nvcSvmVirtintCvexitHandler ctx s) := by
  unfold nvcSvmVirtintCvexitHandler
  by_cases hvirq : s.vcpu.specialState.prevVirq = true
  · rw [if_pos hvirq, hvirq, Bool.not_true, Bool.false_and]
    exact leads_some (leadsTo_quiet rfl hguest)
  · rw [if_neg hvirq, Bool.eq_false_iff.mpr hvirq, Bool.not_false, Bool.true_and]
    dsimp only
    have hcancelled : s.Keeps (s.withVmcb fun vmcb =>
        ((vmcb.write .ignoreVirtualTpr 0).write .virtualIrq 0).dirty .avic) := ⟨rfl, rfl, rfl, rfl⟩
    by_cases hwindow : s.vcpu.header.vcpuOptions.interceptInterruptWindow = true
    · rw [if_pos hwindow, hwindow]
      exact hcancelled.leads leads_cvexitToHost
    · rw [if_neg hwindow, Bool.eq_false_iff.mpr hwindow]
      exact leads_some (hcancelled.leadsTo hguest)

theorem leads_nvcSvmCpuidCvexitHandler (hguest : s.toHost = false) :
    s.Leads (if s.vcpu.header.vcpuOptions.interceptCpuid then ⟨!s.vcpu.nsvGuest, none⟩
      else ⟨false, singleStepTrap s⟩) (nvcSvmCpuidCvexitHandler ctx s) := by
  unfold nvcSvmCpuidCvexitHandler
  split
  · split
    · next hnsv =>
        rw [hnsv]
        exact leads_some (keeps_nvcSvmNsvLoadNaeSyntheticMsrState.leadsTo hguest)
    · next hnsv =>
        rw [Bool.eq_false_iff.mpr hnsv]
        exact leads_cvexitToHost
  · refine leads_some (Keeps.advanceRip ?_ hguest)
    exact ⟨rfl, rfl, rfl, rfl⟩

/-- An iret is a window for NMIs: the one that waits is injected, or the window is reported. -/
theorem exited_nvcSvmIretCvexitHandler (hguest : s.toHost = false)
    (h : nvcSvmIretCvexitHandler ctx s = some s') :
    s'.toHost = (!s.vcpu.specialState.prevNmi && s.vcpu.header.vcpuOptions.interceptNmiWindow) ∧
      s'.vcpu.optionState = s.vcpu.optionState.exited 0x74 s'.toHost := by
  unfold OptionState.exited
  rw [if_pos rfl]
  unfold nvcSvmIretCvexitHandler at h
  dsimp only at h
  split at h
  · next hnmi =>
      cases h
      rw [hnmi, hguest, if_pos (show s.vcpu.optionState.prevNmi = true from hnmi)]
      exact ⟨rfl, rfl⟩
  · next hnmi =>
      rw [Bool.eq_false_iff.mpr hnmi, if_neg (show ¬s.vcpu.optionState.prevNmi = true from hnmi)]
      split at h
      · next hwindow =>
          obtain ⟨s₁, hhost, rfl⟩ := Option.map_eq_some_iff.mp h
          obtain ⟨htoHost, hstate, -⟩ := leads_cvexitToHost s₁ hhost
          have htoHost' : (s₁.withVmcb fun vmcb => (vmcb.write .interceptInstruction1
            (noirBtr (vmcb.field .interceptInstruction1) 20)).dirty .interception).toHost = true := htoHost
          rw [hwindow, htoHost', if_pos rfl, ← hstate]
          refine ⟨rfl, OptionState.ext rfl rfl rfl rfl rfl ?_ rfl rfl rfl rfl rfl rfl rfl⟩
          exact congrArg (noirBtr · 20) (congrArg OptionState.instruction1 hstate)
      · next hwindow =>
          cases h
          rw [Bool.eq_false_iff.mpr hwindow, hguest, if_neg Bool.false_ne_true]
          exact ⟨rfl, rfl⟩

theorem leads_toHostAutomatic :
    s.Leads ⟨true, if s.vcpu.nsvGuest then singleStepTrap s else none⟩ (toHostAutomatic ctx s) := by
  intro s' hs'
  obtain ⟨s₁, hhost, rfl⟩ := Option.map_eq_some_iff.mp hs'
  obtain ⟨htoHost, hstate, -⟩ := leads_cvexitToHost s₁ hhost
  have hnsv : s₁.vcpu.nsvGuest = s.vcpu.nsvGuest := congrArg OptionState.nsvGuest hstate
  have htf : s₁.vcpu.optionState.vmcbTf = (s.vcpu.optionState.passed true).vmcbTf :=
    congrArg OptionState.vmcbTf hstate
  rw [hnsv]
  split
  · exact ⟨htoHost, optionState_advanceRip.trans hstate, fun _ => raised_advanceRip htf⟩
  · exact ⟨htoHost, hstate, fun _ hraised => nomatch hraised⟩

theorem leads_nvcSvmIoCvexitHandler (hguest : s.toHost = false) :
    s.Leads ⟨!s.vcpu.nsvGuest, none⟩ (nvcSvmIoCvexitHandler ctx s) := by
  unfold nvcSvmIoCvexitHandler
  split
  · next hnsv =>
      rw [hnsv]
      exact leads_some (keeps_nvcSvmNsvLoadNaeSyntheticMsrState.leadsTo hguest)
  · next hnsv =>
      rw [Bool.eq_false_iff.mpr hnsv]
      exact leads_cvexitToHost

theorem leadsTo_nvcSvmRdmsrNsvexitHandler (hguest : s.toHost = false) :
    s.LeadsTo (if s.msrIndex = nsvMsrGhcb ∨ (readableSyntheticMsrs.lookup s.msrIndex).isSome then
      ⟨false, singleStepTrap s⟩ else ⟨false, some generalProtection⟩) (nvcSvmRdmsrNsvexitHandler s) := by
  unfold nvcSvmRdmsrNsvexitHandler
  by_cases hghcb : s.msrIndex = nsvMsrGhcb
  · rw [if_pos hghcb, if_pos (.inl hghcb)]
    exact keeps_withMsrValue.advanceRip hguest
  · rw [if_neg hghcb]
    cases hread : readableSyntheticMsrs.lookup s.msrIndex with
    | some msr =>
        rw [if_pos (.inr rfl)]
        exact keeps_withMsrValue.advanceRip hguest
    | none =>
        rw [if_neg (by simp [hghcb])]
        exact leadsTo_injectGeneralProtection hguest

theorem keeps_writeSyntheticMsr {noExit : Bool} (h : writeSyntheticMsr ctx s = some (noExit, s')) :
    s.Keeps s' := by
  have hreg (r : Register) (value : Nat) (hr : Register.rflags ≠ r) :
      s.Keeps { s with vcpu.header.reg := Function.update s.vcpu.header.reg r value } := by
    refine ⟨OptionState.ext rfl rfl rfl rfl rfl rfl rfl rfl rfl ?_ rfl rfl rfl, rfl, rfl, rfl⟩
    exact congrArg (·.testBit rflagsTf) (Function.update_of_ne hr value s.vcpu.header.reg)
  unfold writeSyntheticMsr at h
  dsimp only at h
  split at h
  · cases h
    exact hreg _ _ (by decide)
  · split at h
    · split at h
      · cases h
      · cases h
        unfold nvcSvmNsvSynchronizeActivation
        dsimp only
        split <;> exact ⟨rfl, rfl, rfl, rfl⟩
    · split at h
      · split at h <;> cases h
        exact .refl
      · obtain ⟨msr, -, heq⟩ := Option.map_eq_some_iff.mp h
        cases heq
        exact ⟨rfl, rfl, rfl, rfl⟩

/-- The trap of the instruction is injected before the switch to the host. -/
theorem leads_advanceRip_cvexitToHost {s₁ : CvexitState} (h : s.Keeps s₁) :
    s.Leads ⟨true, singleStepTrap s⟩ (cvexitToHost ctx s₁.advanceRip) := by
  intro s' hs'
  obtain ⟨htoHost, hstate, -⟩ := leads_cvexitToHost s' hs'
  have hkept : s₁.advanceRip.vcpu.optionState = s.vcpu.optionState :=
    optionState_advanceRip.trans h.optionState
  have hvmcb : s'.vcpu.vmcb = s₁.advanceRip.vcpu.vmcb := by
    obtain ⟨⟨p, v⟩, hswitch, rfl⟩ := Option.map_eq_some_iff.mp hs'
    exact (switchToHost_same hswitch).1
  refine ⟨htoHost, hstate.trans (congrArg (·.passed true) hkept), fun vector hvector => ?_⟩
  obtain ⟨hinjects, hother⟩ := injects_advanceRip (congrArg OptionState.vmcbTf h.optionState) hvector
  exact raised_of_injects (hvmcb ▸ hinjects) hother

theorem leads_nsvMsr (hguest : s.toHost = false) :
    s.Leads (nsvMsrOutcome ctx s)
      (let (noExit, s) := if ctx.exitInfo1 % 2 ^ 8 != 0 then nvcSvmWrmsrNsvexitHandler ctx s
        else (true, nvcSvmRdmsrNsvexitHandler s)
      if noExit then some s else cvexitToHost ctx s) := by
  unfold nsvMsrOutcome
  split
  · unfold nvcSvmWrmsrNsvexitHandler
    cases hwrite : writeSyntheticMsr ctx s with
    | none => exact leads_some (leadsTo_injectGeneralProtection hguest)
    | some written =>
        obtain ⟨noExit, s₁⟩ := written
        have hkeeps : s.Keeps s₁ := keeps_writeSyntheticMsr hwrite
        cases noExit with
        | true => exact leads_some (hkeeps.advanceRip hguest)
        | false => exact leads_advanceRip_cvexitToHost hkeeps
  · exact leads_some (leadsTo_nvcSvmRdmsrNsvexitHandler hguest)

theorem keeps_nvcSvmRdmsrCvexitHandler (h : nvcSvmRdmsrCvexitHandler ctx s = some s') : s.Keeps s' := by
  obtain ⟨value, -, rfl⟩ := Option.map_eq_some_iff.mp h
  exact keeps_withMsrValue

theorem isOptionField_uncachedMsrs : ∀ entry ∈ uncachedMsrs, isOptionField (.guest entry.2) = false := by
  decide

theorem keeps_nvcSvmWrmsrCvexitHandler (h : nvcSvmWrmsrCvexitHandler ctx s = some s') : s.Keeps s' := by
  unfold nvcSvmWrmsrCvexitHandler at h
  dsimp only at h
  split at h
  · cases h
    exact keeps_withVmcb_dirty rfl
  split at h
  · split at h <;> cases h
    exact ⟨rfl, rfl, rfl, rfl⟩
  split at h
  · cases h
    exact keeps_withVmcb_dirty rfl
  split at h
  · cases h
    exact keeps_withShadowedBits.trans (keeps_withVmcb_dirty rfl)
  split at h
  · next r hr =>
      cases h
      exact keeps_withVmcb_write (isOptionField_uncachedMsrs _ (mem_of_lookup hr))
  · obtain ⟨name, -, rfl⟩ := Option.map_eq_some_iff.mp h
    refine keeps_withVmcb fun field hfield => ?_
    unfold Vmcb.writeBase
    dsimp only
    split
    · cases hfield
    · rfl

theorem leads_nvcSvmMsrCvexitHandler (hctx : ctx.KeepsOptions) (hguest : s.toHost = false)
    (hclear : ∀ vector, ¬s.vcpu.vmcb.Injects vector) :
    s.Leads (msrOutcome ctx s) (nvcSvmMsrCvexitHandler ctx s) := by
  unfold msrOutcome nvcSvmMsrCvexitHandler
  dsimp only
  split
  · exact leads_nsvMsr hguest
  · split
    · split
      · exact leads_cvexitToHost
      · have hemulated (s' : CvexitState) (h : (if ctx.exitInfo1 % 2 ^ 8 != 0 then
            nvcSvmWrmsrCvexitHandler ctx s else nvcSvmRdmsrCvexitHandler ctx s) = some s') :
            s.Keeps s' := by
          split at h
          · exact keeps_nvcSvmWrmsrCvexitHandler h
          · exact keeps_nvcSvmRdmsrCvexitHandler h
        unfold emulatesMsr
        generalize (if ctx.exitInfo1 % 2 ^ 8 != 0 then nvcSvmWrmsrCvexitHandler ctx s
          else nvcSvmRdmsrCvexitHandler ctx s) = emulated at hemulated ⊢
        cases emulated with
        | some s' =>
            rw [Option.isSome_some, if_pos rfl]
            obtain ⟨hoptions, hbitmap, hflags, hvalid⟩ := hctx s'.vcpu.header
            refine leads_some (Keeps.leadsTo (.trans (hemulated s' rfl) ?_) hguest)
            refine ⟨OptionState.ext hoptions hbitmap rfl rfl rfl rfl rfl rfl rfl ?_ hvalid rfl rfl, rfl, rfl, rfl⟩
            exact congrArg (·.testBit rflagsTf) hflags
        | none =>
            rw [Option.isSome_none, if_neg Bool.false_ne_true]
            exact leads_injectInvalidOpcode hguest hclear
    · exact leads_some (Keeps.refl.leadsTo hguest)

theorem leads_svmCvexitHandlers (hctx : ctx.KeepsOptions) (hguest : s.toHost = false)
    (hclear : ∀ vector, ¬s.vcpu.vmcb.Injects vector) (hiret : code ≠ 0x74) :
    s.Leads (svmCvexitOutcomes ctx s code) (svmCvexitHandlers ctx s code) := by
  unfold svmCvexitOutcomes svmCvexitHandlers
  refine leads_ite (fun _ => leads_some (keeps_withReg.advanceRip hguest)) fun _ => ?_
  refine leads_ite (fun _ => leads_some (Keeps.advanceRip ?_ hguest)) fun _ => ?_
  · exact keeps_withShadowedBits.trans (keeps_withVmcb_write rfl)
  refine leads_ite (fun _ => leads_nvcSvmVirtintCvexitHandler hguest) fun _ => ?_
  refine leads_ite (fun _ => leads_nvcSvmCpuidCvexitHandler hguest) fun _ => ?_
  refine leads_ite (fun hcode => absurd hcode hiret) fun _ => ?_
  refine leads_ite (fun _ => leads_some (Keeps.refl.advanceRip hguest)) fun _ => ?_
  refine leads_ite (fun _ => leads_toHostAutomatic) fun _ => ?_
  refine leads_ite (fun _ => leads_nvcSvmIoCvexitHandler hguest) fun _ => ?_
  refine leads_ite (fun _ => leads_nvcSvmMsrCvexitHandler hctx hguest hclear) fun _ => ?_
  refine leads_ite (fun _ => leads_injectInvalidOpcode hguest hclear) fun _ => ?_
  exact leads_ite (fun _ => leads_some (Keeps.refl.leadsTo hguest)) fun _ => leads_cvexitToHost

theorem exitsTo_svmCvexitHandlers (hctx : ctx.KeepsOptions) (hguest : s.toHost = false)
    (hclear : ∀ vector, ¬s.vcpu.vmcb.Injects vector) (h : svmCvexitHandlers ctx s code = some s') :
    s.ExitsTo code (svmCvexitOutcomes ctx s code) s' := by
  by_cases hiret : code = 0x74
  · subst hiret
    obtain ⟨htoHost, hstate⟩ := exited_nvcSvmIretCvexitHandler hguest h
    refine ⟨htoHost, ?_, fun _ hraised => nomatch hraised⟩
    rw [hstate, htoHost]
    rfl
  · obtain ⟨htoHost, hstate, hraised⟩ := leads_svmCvexitHandlers hctx hguest hclear hiret s' h
    refine ⟨htoHost, ?_, hraised⟩
    unfold OptionState.exited
    rwa [if_neg hiret]

theorem keeps_svmDecoderHandlers : s.Keeps (svmDecoderHandlers ctx s code) := by
  have hfetch : s.Keeps (nvcSvmFetchInstruction s) := ⟨rfl, rfl, rfl, rfl⟩
  unfold svmDecoderHandlers
  split
  · unfold nvcSvmDecoderPfHandler
    split
    · exact .refl
    · exact hfetch
  · split
    · unfold nvcSvmDecoderIoHandler
      split
      · exact .refl
      · exact keeps_withVmcb_write rfl
    · split
      · unfold nvcSvmDecoderInstructionHandler
        split
        · exact .refl
        · exact hfetch.trans (keeps_withVmcb_write rfl)
      · exact .refl

/-- What a handler gets, after the decoder of the exit. -/
def CvexitState.decoded (ctx : CvexitContext) (caching : Bool) (code : Int) (s : CvexitState) : CvexitState :=
  svmDecoderHandlers ctx (s.exited caching) code

theorem CvexitState.keeps_decoded {caching : Bool} : s.Keeps (s.decoded ctx caching code) :=
  have hexited : s.Keeps (s.exited caching) := ⟨rfl, rfl, rfl, rfl⟩
  hexited.trans keeps_svmDecoderHandlers

/-- Every exit leads to what the table says. -/
theorem exitsTo_nvcSvmExitHandler {caching : Bool} (hctx : ctx.KeepsOptions) (hguest : s.toHost = false)
    (hclear : ∀ vector, ¬s.vcpu.vmcb.Injects vector)
    (h : nvcSvmExitHandler ctx s caching code = some s') :
    s.ExitsTo code (svmCvexitOutcomes ctx (s.decoded ctx caching code) code) s' := by
  obtain ⟨s₁, hhandler, rfl⟩ := Option.map_eq_some_iff.mp h
  have hdecoded : s.Keeps (s.decoded ctx caching code) := keeps_decoded
  have hresumed : s₁.Keeps s₁.resumed := by
    unfold CvexitState.resumed
    split
    · exact .refl
    · exact keeps_withVmcb_write rfl
  have hhandled := exitsTo_svmCvexitHandlers hctx (hdecoded.toHost.trans hguest)
    (fun vector hinjects => hclear vector (hdecoded.injects_iff.mp hinjects)) hhandler
  refine ⟨hresumed.toHost.trans hhandled.toHost, ?_, fun vector hvector => ?_⟩
  · rw [hresumed.optionState, hhandled.optionState, hdecoded.optionState]
  · have hbitmap : (s.decoded ctx caching code).vcpu.header.exceptionBitmap =
        s.vcpu.header.exceptionBitmap := congrArg OptionState.exceptionBitmap hdecoded.optionState
    have hraised := hhandled.raised vector hvector
    unfold Raised at hraised ⊢
    rwa [hresumed.toHost, hresumed.injects_iff, ← hbitmap]

end Handlers

end NoirVisor
