import NoirVisor.Cvm.SvmCvexit
import NoirVisor.Cvm.SvmEdits
import NoirVisor.Marking
import NoirVisor.Transition

/-!
# Clean bits of the VMCB

A processor that runs a VMCB again may keep the fields of the groups whose clean bits are set. What it
keeps is what the VMCB has, as long as no exit is one of the two whose handlers change a cached field
and leave its clean bit.
-/

namespace NoirVisor

open Marking

/-- The clean bit of a field. Fields without one are loaded at every vmrun, or by vmload. -/
def cleanBitOf : VmcbField → Option CleanBit
  | .guest .cr0 | .guest .cr3 | .guest .cr4 | .guest .efer => some .controlReg
  | .guest .dr6 | .guest .dr7 => some .debugReg
  | .guest .cr2 => some .cr2
  | .guest .cr8 => some .tpr
  | .guest .pat => some .npt
  | .guest .tscOffset => some .interception
  | .guest .debugCtrl | .guest .lastBranchFromIp | .guest .lastBranchToIp => some .lbr
  | .guest .lastExceptionFromIp | .guest .lastExceptionToIp => some .lbr
  | .guest (.seg .cs _) | .guest (.seg .ds _) => some .segmentReg
  | .guest (.seg .es _) | .guest (.seg .ss _) => some .segmentReg
  | .guest (.seg .gdtr _) | .guest (.seg .idtr _) => some .idtGdt
  | .guest _ => none
  | .interceptAccessCr | .interceptAccessDr | .interceptExceptions => some .interception
  | .interceptInstruction1 | .interceptInstruction2 => some .interception
  | .iopmPhysicalAddress | .msrpmPhysicalAddress => some .iomsrpm
  | .guestAsid => some .asid
  | .virtualIrq | .virtualInterruptPriority | .ignoreVirtualTpr => some .tpr
  | .virtualInterruptMasking | .virtualInterruptVector => some .tpr
  | .nptControl | .nptCr3 => some .npt
  | .tlbControl | .eventInjection | .eventErrorCode | .nextRip => none

/-- What an exit writes back to the VMCB. -/
def savedAtExit : VmcbField → Bool
  | .guest .pat | .guest .tscOffset => false
  | .guest _ | .virtualIrq | .eventInjection | .eventErrorCode | .nextRip => true
  | _ => false

namespace Vmcb

def block (vmcb : Vmcb) : Block VmcbField CleanBit Nat := ⟨vmcb.field, vmcb.clean⟩

/-- A change of the VMCB resets the clean bit of every cached field that it changes. -/
def Cleans (vmcb vmcb' : Vmcb) : Prop := Marks cleanBitOf vmcb.block vmcb'.block

/-- A processor that has these values cached works with the ones in the VMCB. -/
def Disciplined (cached : VmcbField → Nat) (vmcb : Vmcb) : Prop := vmcb.block.Marked cleanBitOf cached

/-- What the processor has after it ran the VMCB, and what it wrote back. -/
structure Executes (cached : VmcbField → Nat) (vmcb : Vmcb) (cached' : VmcbField → Nat)
    (vmcb' : Vmcb) : Prop where
  kept : ∀ f, savedAtExit f = false → cached' f = vmcb.block.read cleanBitOf cached f
  field : ∀ f, vmcb'.field f = if savedAtExit f then cached' f else vmcb.field f
  clean : vmcb'.clean = vmcb.clean

variable {vmcb vmcb' vmcb'' : Vmcb} {f : VmcbField} {b : CleanBit} {value : Nat}
  {cached cached' : VmcbField → Nat}

theorem Disciplined.executes (h : vmcb.Disciplined cached) (hrun : Executes cached vmcb cached' vmcb') :
    vmcb'.field = cached' := by
  have hread : vmcb.block.read cleanBitOf cached = vmcb.field := read_eq_iff.mpr h
  funext f
  rw [hrun.field]
  split
  · rfl
  · next hsaved =>
      rw [hrun.kept f (Bool.eq_false_iff.mpr hsaved), hread]

theorem Cleans.refl : vmcb.Cleans vmcb := Marks.refl

theorem Cleans.trans (h : vmcb.Cleans vmcb') (h' : vmcb'.Cleans vmcb'') : vmcb.Cleans vmcb'' :=
  Marks.trans h h'

theorem field_write_of_ne {f' : VmcbField} (h : f' ≠ f) : (vmcb.write f value).field f' = vmcb.field f' :=
  Function.update_of_ne h _ _

theorem cleans_write (h : cleanBitOf f = none) : vmcb.Cleans (vmcb.write f value) :=
  Marks.of_uncached rfl fun _ _ hgroup =>
    field_write_of_ne fun hf => (nomatch (hf ▸ hgroup).symm.trans h)

theorem clean_dirty : (vmcb.dirty b).clean b = false := Function.update_self _ _ _

theorem clean_of_dirty {b' : CleanBit} (h : (vmcb.dirty b).clean b' = true) :
    vmcb.clean b' = true := by
  by_cases hb : b' = b
  · subst hb
    exact absurd (clean_dirty.symm.trans h) Bool.false_ne_true
  · exact (Function.update_of_ne hb _ _).symm.trans h

/-- Writes to the fields of one group, before its clean bit is reset. -/
theorem cleans_dirty (hclean : vmcb'.clean = vmcb.clean)
    (hfield : ∀ f, cleanBitOf f ≠ none → cleanBitOf f ≠ some b → vmcb'.field f = vmcb.field f) :
    vmcb.Cleans (vmcb'.dirty b) :=
  Marks.of_group clean_dirty (fun _ hb' => (congrFun hclean _).symm.trans (clean_of_dirty hb')) hfield

theorem cleans_write_dirty (h : cleanBitOf f = some b) : vmcb.Cleans ((vmcb.write f value).dirty b) :=
  cleans_dirty rfl fun _ _ hne => field_write_of_ne fun hf => hne (hf ▸ h)

theorem cleans_injectEvent {vector type errorCode : Nat} {ev valid : Bool} :
    vmcb.Cleans (vmcb.injectEvent vector type ev valid errorCode) :=
  (cleans_write rfl).trans (cleans_write rfl)

theorem cleans_advanceRip : vmcb.Cleans vmcb.advanceRip := by
  have htraced : vmcb.Cleans (if (vmcb.field (.guest .rflags)).testBit rflagsTf then
      vmcb.injectEvent debugException faultTrapException false true 0 else vmcb) := by
    split
    · exact cleans_injectEvent
    · exact .refl
  unfold advanceRip
  dsimp only
  split
  · exact htraced
  · exact htraced.trans (cleans_write rfl)

end Vmcb

/-- A vCPU, the processor that is about to run it, and what every processor has cached of its VMCB. -/
structure SvmCleanState where
  vcpu : SvmCustomVcpu
  running : Option Nat
  cached : Nat → VmcbField → Nat

/-- What happens to a vCPU. The other functions of the host change the structure only, and a run is
from vmrun to the end of the exit handler. -/
inductive SvmCleanEvent where
  | edit (supportedSizeMax : Nat) (call : EditCall)
  | dump
  | other (vcpu : SvmCustomVcpu)
  | options (vm : SvmPermissionMaps) (vcpuOptions : VcpuOptions) (exceptionBitmap : Nat)
  | enter (cpu : Xsave.Features) (procId : Nat) (p : Processor) (host : VirtualCpu)
  | run (cached : VmcbField → Nat) (vmcb : Vmcb) (ctx : CvexitContext) (p : Processor)
      (nsvs : SyntheticMsr → Nat) (code : Int)

namespace SvmCleanState

/-- The processor that has run the vCPU last may use what it has cached. -/
def Disciplined (s : SvmCleanState) : Prop := s.vcpu.vmcb.Disciplined (s.cached s.vcpu.procId)

def Created (s : SvmCleanState) : Prop := s.running = none ∧ ∀ b, s.vcpu.vmcb.clean b = false

end SvmCleanState

def SvmCleanEvent.Takes (caching : Bool) (s : SvmCleanState) : SvmCleanEvent → SvmCleanState → Prop
  | edit supportedSizeMax call, s' =>
      s.running = none ∧ s' = { s with vcpu := s.vcpu.edited supportedSizeMax [call] }
  | dump, s' => s.running = none ∧ s' = { s with vcpu := nvcSvmDumpGuestVcpuState s.vcpu }
  | other vcpu, s' =>
      s.running = none ∧ vcpu.vmcb = s.vcpu.vmcb ∧ vcpu.procId = s.vcpu.procId ∧
        s' = { s with vcpu }
  | options vm vcpuOptions exceptionBitmap, s' =>
      s.running = none ∧
        s' = { s with
          vcpu := nvcSvmSetGuestVcpuOptions vm
            { s.vcpu with
              header := { s.vcpu.header with vcpuOptions, exceptionBitmap } } }
  | enter cpu procId p host, s' =>
      s.running = none ∧
        ∃ p' host' vcpu, nvcSvmSwitchToGuestVcpu cpu procId p host s.vcpu = some (p', host', vcpu) ∧
          s' = { s with vcpu, running := some procId }
  | run cached vmcb ctx p nsvs code, s' =>
      ∃ procId exited, s.running = some procId ∧
        Vmcb.Executes (s.cached procId) s.vcpu.vmcb cached vmcb ∧
        nvcSvmExitHandler ctx ⟨p, { s.vcpu with vmcb }, nsvs, false⟩ caching code = some exited ∧
        s' = { s with
          vcpu := exited.vcpu
          running := if exited.toHost then none else some procId
          cached := Function.update s.cached procId cached }

/-- The value that the guest moves to CR4. -/
def cr4Operand (ctx : CvexitContext) (p : Processor) (vmcb : Vmcb) : Nat :=
  Function.update p.reg .rax (vmcb.field (.guest .rax)) (.gpr (Fin.ofNat 16 ctx.exitInfo1))

/-- A guest that moves to CR4 must not change it, and a virtual interrupt must find the bits of the
interrupt control as it leaves them. -/
def SvmCleanEvent.Kept (caching : Bool) (s : SvmCleanState) : SvmCleanEvent → Prop
  | run _ vmcb ctx p _ code =>
      caching = true →
        (code = 0x14 → noirBts (cr4Operand ctx p vmcb) cr4MceBit = vmcb.field (.guest .cr4)) ∧
          (code = 0x64 →
            if s.vcpu.specialState.prevVirq then vmcb.field .ignoreVirtualTpr = 1
            else vmcb.field .ignoreVirtualTpr = 0 ∧ vmcb.field .virtualIrq = 0)
  | _ => True

def SvmCleanReachable (caching : Bool) (condition : SvmCleanState → SvmCleanEvent → Prop) :
    SvmCleanState → Prop :=
  Transition.Reachable SvmCleanState.Created fun s s' =>
    ∃ e, condition s e ∧ SvmCleanEvent.Takes caching s e s'

/-- Without the feature no clean bit is ever set. -/
structure SvmCleanState.Coherent (caching : Bool) (s : SvmCleanState) : Prop where
  disciplined : s.Disciplined
  procId : ∀ procId, s.running = some procId → s.vcpu.procId = procId
  unset : caching = false → ∀ b, s.vcpu.vmcb.clean b = false

/-! What the handlers do to the VMCB. -/

namespace CvexitState

/-- A handler resets the clean bits of what it changes, and leaves the vCPU on its processor. -/
structure Cleans (s s' : CvexitState) : Prop where
  vmcb : s.vcpu.vmcb.Cleans s'.vcpu.vmcb
  procId : s'.vcpu.procId = s.vcpu.procId

variable {s s' s'' : CvexitState} {f : Vmcb → Vmcb}

theorem Cleans.refl : s.Cleans s := ⟨.refl, rfl⟩

theorem Cleans.trans (h : s.Cleans s') (h' : s'.Cleans s'') : s.Cleans s'' :=
  ⟨h.vmcb.trans h'.vmcb, h'.procId.trans h.procId⟩

/-- Everything but the VMCB changes freely. -/
theorem Cleans.of_same (hvmcb : s'.vcpu.vmcb = s.vcpu.vmcb) (hprocId : s'.vcpu.procId = s.vcpu.procId) :
    s.Cleans s' := ⟨hvmcb ▸ .refl, hprocId⟩

theorem cleans_withVmcb (h : s.vcpu.vmcb.Cleans (f s.vcpu.vmcb)) : s.Cleans (s.withVmcb f) := ⟨h, rfl⟩

theorem cleans_withVmcb_write {f : VmcbField} {value : Nat} (h : cleanBitOf f = none) :
    s.Cleans (s.withVmcb (·.write f value)) := cleans_withVmcb (Vmcb.cleans_write h)

theorem cleans_withVmcb_dirty {f : VmcbField} {b : CleanBit} {value : Nat}
    (h : cleanBitOf f = some b) : s.Cleans (s.withVmcb fun vmcb => (vmcb.write f value).dirty b) :=
  cleans_withVmcb (Vmcb.cleans_write_dirty h)

theorem cleans_advanceRip : s.Cleans s.advanceRip := cleans_withVmcb Vmcb.cleans_advanceRip

theorem cleans_withReg {r : Register} {value : Nat} : s.Cleans (s.withReg r value) := .of_same rfl rfl

theorem cleans_withShadowedBits {bits : ShadowedBits} :
    s.Cleans { s with vcpu.shadowedBits := bits } := .of_same rfl rfl

theorem cleans_withMsrValue {value : Nat} : s.Cleans (s.withMsrValue value) := .of_same rfl rfl

end CvexitState

/-- A handler that may switch to the host. -/
def OptionCleans (s : CvexitState) (result : Option CvexitState) : Prop :=
  ∀ s', result = some s' → s.Cleans s'

section Handlers

variable {ctx : CvexitContext} {s : CvexitState}

theorem optionCleans_some {s' : CvexitState} (h : s.Cleans s') : OptionCleans s (some s') :=
  fun _ hs' => Option.some.inj hs' ▸ h

theorem OptionCleans.map {result : Option CvexitState} {f : CvexitState → CvexitState}
    (h : OptionCleans s result) (hf : ∀ s : CvexitState, s.Cleans (f s)) : OptionCleans s (result.map f) := by
  intro s' hs'
  obtain ⟨s'', hresult, rfl⟩ := Option.map_eq_some_iff.mp hs'
  exact (h s'' hresult).trans (hf s'')

theorem OptionCleans.of_cleans {s' : CvexitState} {result : Option CvexitState} (h : s.Cleans s')
    (hresult : OptionCleans s' result) : OptionCleans s result :=
  fun s'' hs'' => h.trans (hresult s'' hs'')

theorem switchToHost_same {p p' : Processor} {host : VirtualCpu} {v v' : SvmCustomVcpu}
    (h : nvcSvmSwitchToHostVcpu ctx.cpu p host v = some (p', v')) :
    v'.vmcb = v.vmcb ∧ v'.procId = v.procId := by
  unfold nvcSvmSwitchToHostVcpu at h
  dsimp only at h
  obtain ⟨result, -, heq⟩ := Option.map_eq_some_iff.mp h
  obtain ⟨-, rfl⟩ := Prod.mk.inj heq
  have hsave : (nvcSvmNsvSaveGuestVcpu p v).vmcb = v.vmcb ∧
      (nvcSvmNsvSaveGuestVcpu p v).procId = v.procId := by
    unfold nvcSvmNsvSaveGuestVcpu
    split <;> exact ⟨rfl, rfl⟩
  dsimp only [SvmCustomVcpu.saveEventInjection]
  split
  · exact hsave
  · exact ⟨rfl, rfl⟩

theorem cleans_cvexitToHost : OptionCleans s (cvexitToHost ctx s) := by
  intro s' hs'
  obtain ⟨⟨p, v⟩, hswitch, rfl⟩ := Option.map_eq_some_iff.mp hs'
  obtain ⟨hvmcb, hprocId⟩ := switchToHost_same hswitch
  exact .of_same hvmcb hprocId

theorem cleans_nvcSvmInjectCvmException {vector errorCode pfAddr : Nat} {ev : Bool} :
    OptionCleans s (nvcSvmInjectCvmException ctx s vector ev errorCode pfAddr) := by
  unfold nvcSvmInjectCvmException
  split
  · exact cleans_cvexitToHost
  · refine optionCleans_some (CvexitState.cleans_withVmcb ?_)
    dsimp only
    split
    · exact Vmcb.cleans_injectEvent.trans (Vmcb.cleans_write_dirty rfl)
    · exact Vmcb.cleans_injectEvent

theorem cleans_nvcSvmNsvLoadNaeSyntheticMsrState {errorCode info1 info2 : Nat} :
    s.Cleans (nvcSvmNsvLoadNaeSyntheticMsrState s errorCode info1 info2) := by
  refine ⟨?_, rfl⟩
  have hselectors : s.vcpu.vmcb.Cleans (((s.vcpu.vmcb.write (.guest (.seg .cs .selector))
      (s.nsvs .vcHandlerCs % 2 ^ 16)).write (.guest (.seg .ss .selector))
      (s.nsvs .vcHandlerCs / 2 ^ 16 % 2 ^ 16)).dirty .segmentReg) := by
    refine Vmcb.cleans_dirty rfl fun f _ hne => ?_
    have hcs : f ≠ .guest (.seg .cs .selector) := fun hf => hne (hf ▸ rfl)
    have hss : f ≠ .guest (.seg .ss .selector) := fun hf => hne (hf ▸ rfl)
    rw [Vmcb.field_write_of_ne hss, Vmcb.field_write_of_ne hcs]
  exact ((hselectors.trans (Vmcb.cleans_write rfl)).trans (Vmcb.cleans_write rfl)).trans
    (Vmcb.cleans_write rfl)

theorem cleans_nvcSvmCpuidCvexitHandler : OptionCleans s (nvcSvmCpuidCvexitHandler ctx s) := by
  unfold nvcSvmCpuidCvexitHandler
  split
  · split
    · exact optionCleans_some cleans_nvcSvmNsvLoadNaeSyntheticMsrState
    · exact cleans_cvexitToHost
  · refine optionCleans_some (CvexitState.Cleans.trans ?_ CvexitState.cleans_advanceRip)
    exact .of_same rfl rfl

theorem cleans_nvcSvmIretCvexitHandler : OptionCleans s (nvcSvmIretCvexitHandler ctx s) := by
  unfold nvcSvmIretCvexitHandler
  split
  · exact optionCleans_some ⟨(Vmcb.cleans_write rfl).trans (Vmcb.cleans_write rfl), rfl⟩
  · split
    · refine cleans_cvexitToHost.map fun s => CvexitState.cleans_withVmcb ?_
      exact Vmcb.cleans_write_dirty rfl
    · exact optionCleans_some .refl

theorem cleans_toHostAutomatic : OptionCleans s (toHostAutomatic ctx s) := by
  refine cleans_cvexitToHost.map fun s => ?_
  split
  · exact CvexitState.cleans_advanceRip
  · exact .refl

theorem cleans_nvcSvmIoCvexitHandler : OptionCleans s (nvcSvmIoCvexitHandler ctx s) := by
  unfold nvcSvmIoCvexitHandler
  split
  · exact optionCleans_some cleans_nvcSvmNsvLoadNaeSyntheticMsrState
  · exact cleans_cvexitToHost

theorem cleans_injectGeneralProtection : s.Cleans (injectGeneralProtection s) :=
  ⟨Vmcb.cleans_injectEvent, rfl⟩

theorem cleans_nvcSvmRdmsrNsvexitHandler : s.Cleans (nvcSvmRdmsrNsvexitHandler s) := by
  unfold nvcSvmRdmsrNsvexitHandler
  split
  · exact CvexitState.cleans_withMsrValue.trans CvexitState.cleans_advanceRip
  · split
    · exact CvexitState.cleans_withMsrValue.trans CvexitState.cleans_advanceRip
    · exact cleans_injectGeneralProtection

theorem cleans_nvcSvmNsvSynchronizeActivation {direction : Bool} :
    s.Cleans (nvcSvmNsvSynchronizeActivation ctx s direction) := by
  unfold nvcSvmNsvSynchronizeActivation
  dsimp only
  split <;> exact .of_same rfl rfl

theorem cleans_writeSyntheticMsr {noExit : Bool} {s' : CvexitState}
    (h : writeSyntheticMsr ctx s = some (noExit, s')) : s.Cleans s' := by
  unfold writeSyntheticMsr at h
  dsimp only at h
  split at h
  · cases h
    exact .of_same rfl rfl
  · split at h
    · split at h
      · cases h
      · cases h
        exact cleans_nvcSvmNsvSynchronizeActivation
    · split at h
      · split at h <;> cases h
        exact .refl
      · obtain ⟨msr, -, heq⟩ := Option.map_eq_some_iff.mp h
        cases heq
        exact .of_same rfl rfl

theorem cleans_nvcSvmWrmsrNsvexitHandler : s.Cleans (nvcSvmWrmsrNsvexitHandler ctx s).2 := by
  unfold nvcSvmWrmsrNsvexitHandler
  split
  · exact cleans_injectGeneralProtection
  · next noExit s' hwrite => exact (cleans_writeSyntheticMsr hwrite).trans CvexitState.cleans_advanceRip

theorem cleans_nvcSvmRdmsrCvexitHandler : OptionCleans s (nvcSvmRdmsrCvexitHandler ctx s) := by
  intro s' hs'
  obtain ⟨value, -, rfl⟩ := Option.map_eq_some_iff.mp hs'
  exact CvexitState.cleans_withMsrValue

theorem cleanBitOf_uncachedMsrs : ∀ entry ∈ uncachedMsrs, cleanBitOf (.guest entry.2) = none := by
  decide

theorem baseMsrs_names : ∀ entry ∈ baseMsrs, entry.2 = .fs ∨ entry.2 = .gs := by decide

theorem cleans_writeBase {vmcb : Vmcb} {name : SegmentName} {value : Nat}
    (h : name = .fs ∨ name = .gs) : vmcb.Cleans (vmcb.writeBase name value) := by
  refine Marks.of_uncached rfl fun f b hgroup => ?_
  dsimp only [Vmcb.block, Vmcb.writeBase]
  split
  · next name' i =>
      split
      · next hsame =>
          subst hsame
          obtain rfl | rfl := h <;> cases hgroup
      · rfl
  · rfl

theorem cleans_nvcSvmWrmsrCvexitHandler : OptionCleans s (nvcSvmWrmsrCvexitHandler ctx s) := by
  unfold nvcSvmWrmsrCvexitHandler
  dsimp only
  split
  · exact optionCleans_some (CvexitState.cleans_withVmcb_dirty rfl)
  split
  · split
    · exact optionCleans_some (.of_same rfl rfl)
    · exact fun _ hs' => (nomatch hs')
  split
  · exact optionCleans_some (CvexitState.cleans_withVmcb_dirty rfl)
  split
  · have hefer : cleanBitOf (.guest .efer) = some .controlReg := rfl
    exact optionCleans_some
      (CvexitState.cleans_withShadowedBits.trans (CvexitState.cleans_withVmcb_dirty hefer))
  split
  · next r hr =>
      have huncached := cleanBitOf_uncachedMsrs _ (mem_of_lookup hr)
      exact optionCleans_some (CvexitState.cleans_withVmcb_write huncached)
  · intro s' hs'
    obtain ⟨name, hname, rfl⟩ := Option.map_eq_some_iff.mp hs'
    exact CvexitState.cleans_withVmcb (cleans_writeBase (baseMsrs_names _ (mem_of_lookup hname)))

theorem cleans_nvcSvmMsrCvexitHandler : OptionCleans s (nvcSvmMsrCvexitHandler ctx s) := by
  unfold nvcSvmMsrCvexitHandler
  dsimp only
  split
  · have hnsv : s.Cleans (if ctx.exitInfo1 % 2 ^ 8 != 0 then nvcSvmWrmsrNsvexitHandler ctx s
        else (true, nvcSvmRdmsrNsvexitHandler s)).2 := by
      split
      · exact cleans_nvcSvmWrmsrNsvexitHandler
      · exact cleans_nvcSvmRdmsrNsvexitHandler
    generalize (if ctx.exitInfo1 % 2 ^ 8 != 0 then nvcSvmWrmsrNsvexitHandler ctx s
      else (true, nvcSvmRdmsrNsvexitHandler s)) = result at hnsv ⊢
    split
    · exact optionCleans_some hnsv
    · exact .of_cleans hnsv cleans_cvexitToHost
  · split
    · split
      · exact cleans_cvexitToHost
      · have hmsr : OptionCleans s (if ctx.exitInfo1 % 2 ^ 8 != 0 then nvcSvmWrmsrCvexitHandler ctx s
            else nvcSvmRdmsrCvexitHandler ctx s) := by
          split
          · exact cleans_nvcSvmWrmsrCvexitHandler
          · exact cleans_nvcSvmRdmsrCvexitHandler
        split
        · next s' hs' => exact optionCleans_some ((hmsr s' hs').trans (.of_same rfl rfl))
        · exact cleans_nvcSvmInjectCvmException
    · exact optionCleans_some .refl

theorem cleans_nvcSvmCr4ReadCvexitHandler : s.Cleans (nvcSvmCr4ReadCvexitHandler ctx s) :=
  CvexitState.cleans_withReg.trans CvexitState.cleans_advanceRip

/-- The two handlers that leave the clean bit of what they change are the only ones. -/
theorem cleans_svmCvexitHandlers {code : Int} (hcr4 : code ≠ 0x14) (hvirtint : code ≠ 0x64) :
    OptionCleans s (svmCvexitHandlers ctx s code) := by
  unfold svmCvexitHandlers
  split
  · exact optionCleans_some cleans_nvcSvmCr4ReadCvexitHandler
  split
  · exact cleans_nvcSvmCpuidCvexitHandler
  split
  · exact cleans_nvcSvmIretCvexitHandler
  split
  · exact optionCleans_some CvexitState.cleans_advanceRip
  split
  · exact cleans_toHostAutomatic
  split
  · exact cleans_nvcSvmIoCvexitHandler
  split
  · exact cleans_nvcSvmMsrCvexitHandler
  split
  · exact cleans_nvcSvmInjectCvmException
  split
  · exact optionCleans_some .refl
  · exact cleans_cvexitToHost

theorem cleans_svmDecoderHandlers {code : Int} : s.Cleans (svmDecoderHandlers ctx s code) := by
  have hfetch : s.Cleans (nvcSvmFetchInstruction s) := .of_same rfl rfl
  unfold svmDecoderHandlers
  split
  · unfold nvcSvmDecoderPfHandler
    split
    · exact .refl
    · exact hfetch
  · split
    · unfold nvcSvmDecoderIoHandler
      split
      · exact .refl
      · exact CvexitState.cleans_withVmcb (Vmcb.cleans_write rfl)
    · split
      · unfold nvcSvmDecoderInstructionHandler
        split
        · exact .refl
        · exact hfetch.trans (CvexitState.cleans_withVmcb (Vmcb.cleans_write rfl))
      · exact .refl

theorem cleans_resumed : s.Cleans s.resumed := by
  unfold CvexitState.resumed
  split
  · exact .refl
  · exact CvexitState.cleans_withVmcb_write rfl

/-- Every exit but two leaves the clean bits right. -/
theorem cleans_nvcSvmExitHandler {caching : Bool} {code : Int} (hcr4 : code ≠ 0x14)
    (hvirtint : code ≠ 0x64) :
    OptionCleans (s.exited caching) (nvcSvmExitHandler ctx s caching code) :=
  (OptionCleans.of_cleans cleans_svmDecoderHandlers (cleans_svmCvexitHandlers hcr4 hvirtint)).map
    fun _ => cleans_resumed

end Handlers

/-! What the host does to the VMCB before it runs again. -/

namespace SvmCustomVcpu

/-- The vCPU stays on its processor, and the clean bits of what changes are reset. -/
structure Cleans (v v' : SvmCustomVcpu) : Prop where
  vmcb : v.vmcb.Cleans v'.vmcb
  procId : v'.procId = v.procId

variable {v v' v'' : SvmCustomVcpu} {c : StateCache} {select : Register → Bool} {b : Option CleanBit}

theorem Cleans.refl : v.Cleans v := ⟨.refl, rfl⟩

theorem Cleans.trans (h : v.Cleans v') (h' : v'.Cleans v'') : v.Cleans v'' :=
  ⟨h.vmcb.trans h'.vmcb, h'.procId.trans h.procId⟩

/-- The clean bit that a block resets is that of the registers it loads. -/
theorem cleans_loadGroup (h : ∀ r b', select r = true → cleanBitOf (.guest r) = some b' → b = some b') :
    v.Cleans (v.loadGroup c select b) := by
  unfold loadGroup
  split
  · exact .refl
  · refine ⟨⟨fun b' hb' => (Bool.and_eq_true_iff.mp hb').1, fun f b' hgroup hb' => ?_⟩, rfl⟩
    have hb' : b ≠ some b' := bne_iff_ne.mp (Bool.and_eq_true_iff.mp hb').2
    dsimp only [Vmcb.block]
    split
    · next r =>
        by_cases hr : select r = true
        · exact absurd (h r b' hr hgroup) hb'
        · rw [if_neg hr]
    · rfl

theorem cleans_flushTlb : v.Cleans v.flushTlb := ⟨Vmcb.cleans_write rfl, rfl⟩

/-- The clean bit that the load of a group resets. -/
def loadedCleanBit : StateCache → Option CleanBit
  | .cr | .ef => some .controlReg
  | .cr2 => some .cr2
  | .dr => some .debugReg
  | .sr => some .segmentReg
  | .dt => some .idtGdt
  | .tp => some .tpr
  | .pa => some .npt
  | .ts => some .interception
  | _ => none

theorem loadedCleanBit_eq {r : Register} {b : CleanBit} (hhome : svmHome r = .group c)
    (hb : cleanBitOf (.guest r) = some b) : loadedCleanBit c = some b := by
  cases r with
  | gpr i => cases hb
  | seg name field =>
      cases name with
      | gdtr | idtr => cases field <;> cases hhome <;> exact hb
      | _ => cases hhome; exact hb
  | _ => cases hhome <;> exact hb

theorem cleans_loadSelected : v.Cleans (v.loadGroup c (svmSelect c) (loadedCleanBit c)) :=
  cleans_loadGroup fun r _ hselect =>
    loadedCleanBit_eq (of_decide_eq_true ((svmSelect_eq c r).symm.trans hselect))

theorem cleans_loadControlRegisters : v.Cleans v.loadControlRegisters := by
  unfold loadControlRegisters
  split
  · exact .refl
  · exact (cleans_loadSelected (c := .cr)).trans cleans_flushTlb

theorem cleans_loadEfer : v.Cleans v.loadEfer := by
  unfold loadEfer
  split
  · exact .refl
  · dsimp only
    have hload (w : SvmCustomVcpu) : w.Cleans (w.loadGroup .ef (· == .efer) (some .controlReg)) :=
      cleans_loadSelected (c := .ef)
    split
    · have hflushed := cleans_flushTlb.trans (hload v.flushTlb)
      exact ⟨hflushed.vmcb, hflushed.procId⟩
    · exact ⟨(hload v).vmcb, (hload v).procId⟩

theorem cleans_loadVmcb : v.Cleans v.loadVmcb := by
  have h : v.Cleans v := .refl
  have h := h.trans (cleans_loadSelected (c := .gpr))
  have h := h.trans (cleans_loadSelected (c := .dr))
  have h := h.trans cleans_loadControlRegisters
  have h := h.trans (cleans_loadSelected (c := .cr2))
  have h := h.trans (cleans_loadSelected (c := .tp))
  have h := h.trans (cleans_loadSelected (c := .sr))
  have h := h.trans (cleans_loadSelected (c := .fg))
  have h := h.trans (cleans_loadSelected (c := .lt))
  have h := h.trans (cleans_loadSelected (c := .dt))
  have h := h.trans cleans_loadEfer
  have h := h.trans (cleans_loadSelected (c := .pa))
  have h := h.trans (cleans_loadSelected (c := .se))
  have h := h.trans (cleans_loadSelected (c := .sc))
  exact h.trans (cleans_loadSelected (c := .ts))

theorem cleans_setEventInjection : v.Cleans v.setEventInjection := by
  unfold setEventInjection
  dsimp only
  split
  · split
    · exact ⟨Vmcb.cleans_write_dirty rfl, rfl⟩
    · exact ⟨(Vmcb.cleans_write rfl).trans (Vmcb.cleans_write rfl), rfl⟩
  · split
    · refine ⟨Vmcb.cleans_dirty rfl fun f _ hne => ?_, rfl⟩
      have hother (f' : VmcbField) (hf' : cleanBitOf f' = some .tpr) : f ≠ f' := fun hf => hne (hf ▸ hf')
      rw [Vmcb.field_write_of_ne (hother _ rfl), Vmcb.field_write_of_ne (hother _ rfl),
        Vmcb.field_write_of_ne (hother _ rfl), Vmcb.field_write_of_ne (hother _ rfl)]
    · exact .refl

theorem cleans_flushNestedPaging : v.Cleans v.flushNestedPaging := by
  unfold flushNestedPaging
  split
  · exact .refl
  · exact ⟨Vmcb.cleans_write rfl, rfl⟩

/-- After a vCPU is scheduled, its clean bits are those of the processor that runs it. -/
theorem disciplined_schedule (procId : Nat) {cached : Nat → VmcbField → Nat}
    (h : v.vmcb.Disciplined (cached v.procId)) :
    (v.schedule procId).vmcb.Disciplined (cached procId) ∧ (v.schedule procId).procId = procId := by
  unfold schedule
  split
  · exact ⟨marked_of_not_clean fun _ => rfl, rfl⟩
  · next hsame =>
      rw [not_not] at hsame
      exact ⟨hsame ▸ h, hsame⟩

theorem cleans_nvcSvmSwitchToGuestVcpu {cpu : Xsave.Features} {procId : Nat} {p p' : Processor}
    {host host' : VirtualCpu}
    (h : nvcSvmSwitchToGuestVcpu cpu procId p host v = some (p', host', v')) :
    (v.schedule procId).Cleans v' := by
  have hevent (w : SvmCustomVcpu) (hw : (v.schedule procId).Cleans w) :
      (v.schedule procId).Cleans w.setEventInjection.flushNestedPaging :=
    (hw.trans cleans_setEventInjection).trans cleans_flushNestedPaging
  unfold nvcSvmSwitchToGuestVcpu at h
  dsimp only at h
  split at h
  · obtain ⟨⟨q, success⟩, -, heq⟩ := Option.map_eq_some_iff.mp h
    cases heq
    exact hevent _ ⟨.refl, rfl⟩
  · obtain ⟨q, -, heq⟩ := Option.map_eq_some_iff.mp h
    cases heq
    exact hevent _ ⟨cleans_loadVmcb.vmcb, cleans_loadVmcb.procId⟩

/-- Two clean bits are reset, of what the options change. -/
theorem cleans_nvcSvmSetGuestVcpuOptions (vm : SvmPermissionMaps) (v : SvmCustomVcpu) :
    v.Cleans (nvcSvmSetGuestVcpuOptions vm v) := by
  have hclean : (nvcSvmSetGuestVcpuOptions vm v).vmcb.clean =
      ((v.vmcb.dirty .interception).dirty .iomsrpm).clean := by
    unfold nvcSvmSetGuestVcpuOptions
    dsimp only
    split <;> rfl
  refine ⟨⟨fun b hb => ?_, fun f b hgroup hb => ?_⟩, rfl⟩
  · exact Vmcb.clean_of_dirty (Vmcb.clean_of_dirty ((congrFun hclean b).symm.trans hb))
  replace hb := (congrFun hclean b).symm.trans hb
  have hiomsrpm : b ≠ .iomsrpm := fun hsame => by
    rw [hsame] at hb
    exact absurd (Vmcb.clean_dirty.symm.trans hb) Bool.false_ne_true
  have hinterception : b ≠ .interception := fun hsame => by
    rw [hsame] at hb
    exact absurd (Vmcb.clean_dirty.symm.trans (Vmcb.clean_of_dirty hb)) Bool.false_ne_true
  have hkept : cleanBitOf f ≠ none ∧ cleanBitOf f ≠ some .interception ∧
      cleanBitOf f ≠ some .iomsrpm := by
    simp [hgroup, hiomsrpm, hinterception]
  have hother (f' : VmcbField) (hf' : cleanBitOf f' = none ∨ cleanBitOf f' = some .interception ∨
      cleanBitOf f' = some .iomsrpm) : f ≠ f' := by
    rintro rfl
    exact hf'.elim hkept.1 (Or.elim · hkept.2.1 hkept.2.2)
  have hexceptions := hother .interceptExceptions (.inr (.inl rfl))
  have haccessCr := hother .interceptAccessCr (.inr (.inl rfl))
  have haccessDr := hother .interceptAccessDr (.inr (.inl rfl))
  have hmsrpm := hother .msrpmPhysicalAddress (.inr (.inr rfl))
  have hinstruction := hother .interceptInstruction1 (.inr (.inl rfl))
  have hrflags := hother (.guest .rflags) (.inl rfl)
  unfold nvcSvmSetGuestVcpuOptions
  dsimp only [Vmcb.block, Vmcb.dirty]
  split
  · rw [Vmcb.field_write_of_ne hrflags, Vmcb.field_write_of_ne hinstruction,
      Vmcb.field_write_of_ne hmsrpm, Vmcb.field_write_of_ne haccessDr,
      Vmcb.field_write_of_ne haccessCr, Vmcb.field_write_of_ne hexceptions]
  · rw [Vmcb.field_write_of_ne hinstruction, Vmcb.field_write_of_ne hmsrpm,
      Vmcb.field_write_of_ne haccessDr, Vmcb.field_write_of_ne haccessCr,
      Vmcb.field_write_of_ne hexceptions]

end SvmCustomVcpu

end NoirVisor
