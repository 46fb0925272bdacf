import NoirVisor.Cvm.SvmOptionState

/-!
# Runs of a virtual CPU on SVM with options

What the options of a vCPU ask for at each entry, exceptions that the hypervisor raises itself, and the
trap flag of a guest that is single-stepped without its knowledge. Two options are not implemented, the
bitmap of exceptions is looked at where exceptions are not intercepted, and nobody takes the hidden trap
flag away again.
-/

namespace NoirVisor

open Transition

/-! What the steps of a vCPU do to the state of its options. -/

namespace SvmEventRun

variable {caching : Bool} {s : SvmEventRun}

theorem next_edit {supportedSizeMax : Nat} {calls : List EditCall}
    (h : s.Possible caching (.edit supportedSizeMax calls)) :
    s.inGuest = false ∧
      s.next caching (.edit supportedSizeMax calls) =
        { s with vcpu := s.vcpu.edited supportedSizeMax calls } := by
  obtain ⟨hguest, heq⟩ := Option.ite_none_left_eq_some.mp h.step_eq
  exact ⟨Bool.eq_false_iff.mpr hguest, (Option.some.inj heq).symm⟩

theorem next_dump (h : s.Possible caching .dump) :
    s.inGuest = false ∧
      s.next caching .dump = { s with vcpu := nvcSvmDumpGuestVcpuState s.vcpu } := by
  obtain ⟨hguest, heq⟩ := Option.ite_none_left_eq_some.mp h.step_eq
  exact ⟨Bool.eq_false_iff.mpr hguest, (Option.some.inj heq).symm⟩

theorem next_options {vm : SvmPermissionMaps} {vcpuOptions : VcpuOptions} {exceptionBitmap : Nat}
    (h : s.Possible caching (.options vm vcpuOptions exceptionBitmap)) :
    s.inGuest = false ∧
      s.next caching (.options vm vcpuOptions exceptionBitmap) =
        { s with
          vcpu := nvcSvmSetGuestVcpuOptions vm
            { s.vcpu with header := { s.vcpu.header with vcpuOptions, exceptionBitmap } } } := by
  obtain ⟨hguest, heq⟩ := Option.ite_none_left_eq_some.mp h.step_eq
  exact ⟨Bool.eq_false_iff.mpr hguest, (Option.some.inj heq).symm⟩

theorem next_enter {cpu : Xsave.Features} {procId : Nat} {p : Processor} {host : VirtualCpu}
    (h : s.Possible caching (.enter cpu procId p host)) :
    s.inGuest = false ∧ (s.next caching (.enter cpu procId p host)).inGuest = true ∧
      (s.next caching (.enter cpu procId p host)).vcpu.optionState =
        s.vcpu.optionState.entered s.vcpu.entersNmi := by
  obtain ⟨hguest, hentered⟩ := Option.ite_none_left_eq_some.mp h.step_eq
  obtain ⟨⟨p', host', v'⟩, hswitch, heq⟩ := Option.map_eq_some_iff.mp hentered
  have hnmi : s.vcpu.askVirq.entersNmi = s.vcpu.entersNmi :=
    SvmCustomVcpu.entersNmi_congr
      ((congrArg EventState.injected events_askVirq).trans EventState.asked_same.1)
  rw [← heq, SvmCustomVcpu.optionState_switchToGuest hswitch, SvmCustomVcpu.optionState_askVirq, hnmi]
  exact ⟨Bool.eq_false_iff.mpr hguest, rfl, rfl⟩

/-- After the guest has run, the table says what the exit leads to. -/
theorem next_exit {vmcb : Vmcb} {ctx : CvexitContext} {p : Processor} {nsvs : SyntheticMsr → Nat}
    {code : Int} {interrupted iret : Bool}
    (h : s.Possible caching (.exit vmcb ctx p nsvs code interrupted iret)) (hctx : ctx.KeepsOptions) :
    s.inGuest = true ∧ ∃ exited : CvexitState,
      s.next caching (.exit vmcb ctx p nsvs code interrupted iret) = ⟨exited.vcpu, !exited.toHost⟩ ∧
        CvexitState.ExitsTo ⟨p, { s.vcpu with vmcb }, nsvs, false⟩ code
          (svmCvexitOutcomes ctx
            (CvexitState.decoded ctx caching code ⟨p, { s.vcpu with vmcb }, nsvs, false⟩) code) exited := by
  obtain ⟨hguest, hexited⟩ := Option.ite_none_right_eq_some.mp h.step_eq
  obtain ⟨exited, hhandler, heq⟩ := Option.map_eq_some_iff.mp hexited
  have hclear (vector : Nat) : ¬vmcb.Injects vector :=
    Vmcb.not_injects (exits_of_eventTaken (v := s.vcpu) h.2.1).valid
  exact ⟨hguest, exited, heq.symm, exitsTo_nvcSvmExitHandler hctx rfl hclear hhandler⟩

end SvmEventRun

/-! The runs. -/

/-- A vCPU, the latest options and exception bitmap, and what is known of its guest: the trap flag that
it has set, and whether an NMI has been entered whose window has not been reported. -/
structure SvmOptionRun where
  run : SvmEventRun
  maps : SvmPermissionMaps
  asked : VcpuOptions
  exceptionBitmap : Nat
  guestTf : Bool
  nmiWindow : Bool

/-- An exit tells what the guest has made of its trap flag, if it has changed it. -/
structure SvmOptionStep where
  step : SvmEventStep
  setsTf : Option Bool

/-- What the processor makes of a VMCB while the guest runs. -/
structure Vmcb.Runs (vmcb vmcb' : Vmcb) (setsTf : Option Bool) : Prop where
  kept : ∀ f, savedAtExit f = false → vmcb'.field f = vmcb.field f
  tf : (vmcb'.field (.guest .rflags)).testBit rflagsTf =
    setsTf.getD ((vmcb.field (.guest .rflags)).testBit rflagsTf)

/-- The structure and the VMCB as they are allocated. -/
structure SvmCustomVcpu.Allocated (v : SvmCustomVcpu) : Prop where
  vmcb : ∀ f, v.vmcb.field f = 0
  rflags : v.header.reg .rflags = 0
  stateCache : ∀ c, v.header.stateCache c = false
  options : v.header.vcpuOptions = zeroVirtualCpu.vcpuOptions
  exceptionBitmap : v.header.exceptionBitmap = 0
  prevNmi : v.specialState.prevNmi = false

namespace SvmOptionRun

section Steps

variable (caching : Bool) (s : SvmOptionRun)

/-- A vCPU that has not run yet. -/
structure Created : Prop where
  guest : s.run.inGuest = false
  vcpu : ∃ vm v, SvmCustomVcpu.Allocated v ∧ s.run.vcpu = nvcSvmInitializeCvmVmcb vm v ∧ vm.maps = s.maps
  asked : s.asked = zeroVirtualCpu.vcpuOptions
  exceptionBitmap : s.exceptionBitmap = 0
  guestTf : s.guestTf = false
  nmiWindow : s.nmiWindow = false

/-- The window of an NMI is reported by the iret after the one that injects it. -/
def reportsWindow (code : Int) : Bool :=
  code == 0x74 && !s.run.vcpu.specialState.prevNmi && s.asked.interceptNmiWindow

def next (e : SvmOptionStep) : SvmOptionRun :=
  let next := { s with run := s.run.next caching e.step }
  match e.step with
  | .edit _ calls =>
      { next with
        guestTf := s.run.vcpu.optionState.tfAfterEdits s.guestTf (SvmCustomVcpu.writtenTf calls) }
  | .options _ vcpuOptions exceptionBitmap => { next with asked := vcpuOptions, exceptionBitmap }
  | .enter .. => { next with nmiWindow := s.nmiWindow || s.run.vcpu.entersNmi }
  | .exit _ _ _ _ code _ _ =>
      { next with
        guestTf := e.setsTf.getD s.guestTf
        nmiWindow := s.nmiWindow && !s.reportsWindow code }
  | _ => next

/-- The maps are those of the VM. -/
def Possible (e : SvmOptionStep) : Prop :=
  s.run.Possible caching e.step ∧
    match e.step with
    | .options vm _ _ => vm = s.maps
    | .exit vmcb ctx _ _ _ _ _ => s.run.vcpu.vmcb.Runs vmcb e.setsTf ∧ ctx.KeepsOptions
    | _ => True

/-- What the exit leads to, by the table. -/
def outcome (vmcb : Vmcb) (ctx : CvexitContext) (p : Processor) (nsvs : SyntheticMsr → Nat) (code : Int) :
    CvexitOutcome :=
  svmCvexitOutcomes ctx
    (CvexitState.decoded ctx caching code ⟨p, { s.run.vcpu with vmcb }, nsvs, false⟩) code

/-- A view shows the trap flag that the guest has set, while another is hidden from it, and the VMCB has
it if none is. -/
def ShowsOwnTf : Prop :=
  if s.asked.hiddenTf then s.run.inGuest = false → s.run.vcpu.ShowsTf s.guestTf
  else s.run.vcpu.optionState.ownTf = s.guestTf

/-- An entry is with the mandatory interceptions and those that the latest options ask for, and iret is
intercepted, too, while an NMI waits for one. An exception that the hypervisor raises goes to the host
exactly if the options intercept it. -/
def Respects (e : SvmOptionStep) : Prop :=
  let s' := s.next caching e
  (match e.step with
    | .enter .. =>
        s'.run.vcpu.optionState.Intercepts s.maps s.asked s.exceptionBitmap fun n =>
          s.asked.interceptsInstruction1 n || s'.run.vcpu.specialState.prevNmi && n == 20
    | .exit vmcb ctx p nsvs code _ _ =>
        ∀ vector, (s.outcome caching vmcb ctx p nsvs code).raised = some vector →
          (s'.run.inGuest = false ∧ ¬s'.run.vcpu.vmcb.Injects vector ↔
            s.asked.interceptsException s.exceptionBitmap vector = true)
    | _ => True) ∧ s'.ShowsOwnTf

/-- Neither pause nor NPIEP is asked for at an entry, and if no NMI waits the window of the last one is
asked for unless it has been reported. An invalid opcode is not in the bitmap unless exceptions are
intercepted, and another exception that is raised is not intercepted. The hidden trap flag has been taken
away when it is turned off, and when the guest is left that has not set its own. -/
def Observed (e : SvmOptionStep) : Prop :=
  let o := s.run.vcpu.optionState
  match e.step with
  | .edit _ calls =>
      o.nsvGuest = true → s.asked.hiddenTf = true →
        (SvmCustomVcpu.writtenTf calls).getD o.headerTf = s.guestTf
  | .options _ vcpuOptions _ =>
      if vcpuOptions.hiddenTf then o.nsvGuest = true → o.headerTf = s.guestTf
      else s.asked.hiddenTf = true → (o.gprValid || o.nsvGuest) = true → o.vmcbTf = s.guestTf
  | .enter .. =>
      s.asked.interceptPause = false ∧ s.asked.npiep = false ∧
        (s.run.vcpu.entersNmi = true ∨ o.prevNmi = true ∨ s.nmiWindow = s.asked.interceptNmiWindow)
  | .exit vmcb ctx p nsvs code _ _ =>
      let outcome := s.outcome caching vmcb ctx p nsvs code
      (∀ vector, outcome.raised = some vector →
        if vector = invalidOpcode then
          s.exceptionBitmap.testBit invalidOpcode = true → s.asked.interceptExceptions = true
        else s.asked.interceptsException s.exceptionBitmap vector = false) ∧
      (s.asked.hiddenTf = true → outcome.toHost = true →
        (if o.nsvGuest then o.headerTf else e.setsTf.getD o.vmcbTf) = e.setsTf.getD s.guestTf)
  | _ => True

/-- What the source keeps in any case. -/
structure Kept : Prop where
  intercepts : s.run.vcpu.optionState.Intercepts s.maps s.asked s.exceptionBitmap
    (s.asked.programsInstruction1 s.nmiWindow)
  windowOption : s.run.vcpu.header.vcpuOptions.interceptNmiWindow = s.asked.interceptNmiWindow
  exceptionBitmap : s.run.vcpu.header.exceptionBitmap = s.exceptionBitmap
  waits : s.run.vcpu.specialState.prevNmi = true → s.nmiWindow = true
  keepsTf : s.run.vcpu.optionState.KeepsTf s.asked.hiddenTf s.run.inGuest s.guestTf
  tracksTf : s.run.vcpu.optionState.TracksTf s.run.inGuest s.guestTf

end Steps

variable {caching : Bool} {s : SvmOptionRun} {e : SvmOptionStep}

theorem showsOwnTf_iff :
    s.ShowsOwnTf ↔ s.run.vcpu.optionState.KeepsTf s.asked.hiddenTf s.run.inGuest s.guestTf := by
  unfold ShowsOwnTf OptionState.KeepsTf
  split
  · exact forall_congr' fun _ => SvmCustomVcpu.showsTf_iff
  · exact Iff.rfl

theorem Created.kept (h : s.Created) : s.Kept := by
  obtain ⟨vm, v, hnew, hvcpu, hmaps⟩ := h.vcpu
  have hstate : s.run.vcpu.optionState = _ :=
    (congrArg SvmCustomVcpu.optionState hvcpu).trans SvmCustomVcpu.optionState_initialize
  have hheaderTf : v.optionState.headerTf = false := by
    dsimp only [SvmCustomVcpu.optionState]
    rw [hnew.rflags, Nat.zero_testBit]
  have hvmcbTf : v.optionState.vmcbTf = false := by
    dsimp only [SvmCustomVcpu.optionState]
    rw [hnew.vmcb, Nat.zero_testBit]
  refine ⟨⟨fun n => ?_, fun n => ?_, fun n => ?_, fun n => ?_, fun n => ?_, ?_⟩, ?_, ?_, fun hnmi => ?_,
    ?_, ?_⟩
  · have hexceptions : v.optionState.exceptions = 0 := hnew.vmcb _
    rw [hstate, h.asked]
    dsimp only
    rw [hexceptions, testBit_noirBtsAll_zero]
    exact (Bool.or_false _).symm
  · rw [hstate, h.asked]
    dsimp only
    rw [testBit_noirBtsAll_zero]
    exact (Bool.or_false _).symm
  · have haccessDr : v.optionState.accessDr = 0 := hnew.vmcb _
    rw [hstate, h.asked]
    dsimp only
    rw [haccessDr, Nat.zero_testBit]
    rfl
  · rw [hstate, h.asked, h.nmiWindow]
    dsimp only
    rw [testBit_noirBtsAll_zero]
    exact (Bool.or_false _).symm
  · rw [hstate]
    dsimp only
    rw [testBit_noirBtsAll_zero]
  · rw [hstate, h.asked, ← hmaps]
    rfl
  · rw [hvcpu, h.asked]
    exact congrArg VcpuOptions.interceptNmiWindow hnew.options
  · rw [hvcpu, h.exceptionBitmap]
    exact hnew.exceptionBitmap
  · rw [hvcpu] at hnmi
    exact absurd (hnew.prevNmi.symm.trans hnmi) Bool.false_ne_true
  · rw [hstate, h.asked, h.guestTf]
    have hown : v.optionState.ownTf = false := by
      unfold OptionState.ownTf
      rw [hvmcbTf, hheaderTf, ite_self]
    exact hown
  · rw [hstate, h.guest, h.guestTf]
    exact ⟨fun _ _ => hheaderTf, fun _ hguest => nomatch hguest⟩

/-- An event, or a dump, is of no concern to the options. -/
theorem Kept.of_same {run' : SvmEventRun} (h : s.Kept)
    (hstate : run'.vcpu.optionState = s.run.vcpu.optionState) (hguest : run'.inGuest = s.run.inGuest) :
    ({ s with run := run' } : SvmOptionRun).Kept where
  intercepts := by
    dsimp only
    rw [hstate]
    exact h.intercepts
  windowOption :=
    (congrArg (·.options.interceptNmiWindow) hstate).trans h.windowOption
  exceptionBitmap := (congrArg OptionState.exceptionBitmap hstate).trans h.exceptionBitmap
  waits hnmi := h.waits ((congrArg OptionState.prevNmi hstate).symm.trans hnmi)
  keepsTf := by
    dsimp only
    rw [hstate, hguest]
    exact h.keepsTf
  tracksTf := by
    dsimp only
    rw [hstate, hguest]
    exact h.tracksTf

theorem Kept.edit {supportedSizeMax : Nat} {calls : List EditCall} {setsTf : Option Bool} (h : s.Kept)
    (hpossible : s.Possible caching ⟨.edit supportedSizeMax calls, setsTf⟩) :
    (s.Respects caching ⟨.edit supportedSizeMax calls, setsTf⟩ ↔
        s.Observed caching ⟨.edit supportedSizeMax calls, setsTf⟩) ∧
      (s.Observed caching ⟨.edit supportedSizeMax calls, setsTf⟩ →
        (s.next caching ⟨.edit supportedSizeMax calls, setsTf⟩).Kept) := by
  obtain ⟨hguest, hnext⟩ := SvmEventRun.next_edit hpossible.1
  have hstate : (s.run.next caching (.edit supportedSizeMax calls)).vcpu.optionState = _ :=
    (congrArg (·.vcpu.optionState) hnext).trans SvmCustomVcpu.optionState_edited
  have hguest' : (s.run.next caching (.edit supportedSizeMax calls)).inGuest = false :=
    (congrArg SvmEventRun.inGuest hnext).trans hguest
  have htracks := h.tracksTf
  have hkeeps := h.keepsTf
  rw [hguest] at htracks hkeeps
  have hiff := htracks.edited_iff hkeeps fun tf (htf : SvmCustomVcpu.writtenTf calls = some tf) =>
    SvmCustomVcpu.invalidates_of_writtenTf htf
  have hown : (s.next caching ⟨.edit supportedSizeMax calls, setsTf⟩).ShowsOwnTf ↔
      s.Observed caching ⟨.edit supportedSizeMax calls, setsTf⟩ := by
    rw [showsOwnTf_iff]
    dsimp only [next, Observed]
    rw [hstate, hguest']
    exact hiff
  refine ⟨(and_iff_right trivial).trans hown, fun hobserved => ?_⟩
  have hkept := showsOwnTf_iff.mp (hown.mpr hobserved)
  refine ⟨?_, ?_, ?_, ?_, hkept, ?_⟩
  · dsimp only [next]
    rw [hstate]
    exact { h.intercepts with }
  · exact (congrArg (·.options.interceptNmiWindow) hstate).trans h.windowOption
  · exact (congrArg OptionState.exceptionBitmap hstate).trans h.exceptionBitmap
  · exact fun hnmi => h.waits ((congrArg OptionState.prevNmi hstate).symm.trans hnmi)
  · dsimp only [next]
    rw [hstate, hguest']
    exact htracks.edited

theorem Kept.options {vm : SvmPermissionMaps} {vcpuOptions : VcpuOptions} {exceptionBitmap : Nat}
    {setsTf : Option Bool} (h : s.Kept)
    (hpossible : s.Possible caching ⟨.options vm vcpuOptions exceptionBitmap, setsTf⟩) :
    (s.Respects caching ⟨.options vm vcpuOptions exceptionBitmap, setsTf⟩ ↔
        s.Observed caching ⟨.options vm vcpuOptions exceptionBitmap, setsTf⟩) ∧
      (s.Observed caching ⟨.options vm vcpuOptions exceptionBitmap, setsTf⟩ →
        (s.next caching ⟨.options vm vcpuOptions exceptionBitmap, setsTf⟩).Kept) := by
  obtain ⟨hguest, hnext⟩ := SvmEventRun.next_options hpossible.1
  obtain rfl : vm = s.maps := hpossible.2
  have hstate : (s.run.next caching (.options s.maps vcpuOptions exceptionBitmap)).vcpu.optionState =
      OptionState.configured { s.run.vcpu.optionState with options := vcpuOptions, exceptionBitmap }
        s.maps :=
    (congrArg (·.vcpu.optionState) hnext).trans (SvmCustomVcpu.optionState_options s.maps)
  have hguest' : (s.run.next caching (.options s.maps vcpuOptions exceptionBitmap)).inGuest = false :=
    (congrArg SvmEventRun.inGuest hnext).trans hguest
  have htracks := h.tracksTf
  have hkeeps := h.keepsTf
  rw [hguest] at htracks hkeeps
  have hown : (s.next caching ⟨.options s.maps vcpuOptions exceptionBitmap, setsTf⟩).ShowsOwnTf ↔
      s.Observed caching ⟨.options s.maps vcpuOptions exceptionBitmap, setsTf⟩ := by
    rw [showsOwnTf_iff]
    dsimp only [next, Observed]
    rw [hstate, hguest']
    exact htracks.configured_iff hkeeps
  refine ⟨(and_iff_right trivial).trans hown, fun hobserved => ?_⟩
  have hkept := showsOwnTf_iff.mp (hown.mpr hobserved)
  refine ⟨?_, ?_, ?_, ?_, hkept, ?_⟩
  · dsimp only [next]
    rw [hstate]
    exact h.intercepts.configured
  · exact congrArg (·.options.interceptNmiWindow) hstate
  · exact congrArg OptionState.exceptionBitmap hstate
  · exact fun hnmi => h.waits ((congrArg OptionState.prevNmi hstate).symm.trans hnmi)
  · dsimp only [next]
    rw [hstate, hguest']
    exact htracks.configured

theorem Kept.enter {cpu : Xsave.Features} {procId : Nat} {p : Processor} {host : VirtualCpu}
    {setsTf : Option Bool} (h : s.Kept)
    (hpossible : s.Possible caching ⟨.enter cpu procId p host, setsTf⟩) :
    (s.Respects caching ⟨.enter cpu procId p host, setsTf⟩ ↔
        s.Observed caching ⟨.enter cpu procId p host, setsTf⟩) ∧
      (s.Observed caching ⟨.enter cpu procId p host, setsTf⟩ →
        (s.next caching ⟨.enter cpu procId p host, setsTf⟩).Kept) := by
  obtain ⟨hguest, hguest', hstate⟩ := SvmEventRun.next_enter hpossible.1
  have hloaded : s.run.vcpu.optionState.loaded.Intercepts s.maps s.asked s.exceptionBitmap
      (s.asked.programsInstruction1 s.nmiWindow) := { h.intercepts with }
  have hintercepts := hloaded.waiting s.run.vcpu.entersNmi
  obtain ⟨hwindow, hbitmap, hwaits⟩ := OptionState.entered_same s.run.vcpu.entersNmi
    (o := s.run.vcpu.optionState)
  have hprev : (s.run.next caching (.enter cpu procId p host)).vcpu.specialState.prevNmi =
      (s.run.vcpu.optionState.prevNmi || s.run.vcpu.entersNmi) :=
    (congrArg OptionState.prevNmi hstate).trans hwaits
  have hkeeps := h.keepsTf
  rw [hguest] at hkeeps
  have hkept : (s.next caching ⟨.enter cpu procId p host, setsTf⟩).Kept := by
    refine ⟨?_, ?_, ?_, fun hnmi => ?_, ?_, ?_⟩
    · dsimp only [next]
      rw [hstate]
      exact hintercepts
    · exact ((congrArg (·.options.interceptNmiWindow) hstate).trans hwindow).trans h.windowOption
    · exact ((congrArg OptionState.exceptionBitmap hstate).trans hbitmap).trans h.exceptionBitmap
    · obtain hnmi | hnmi := Bool.or_eq_true_iff.mp (hprev.symm.trans hnmi)
      · exact Bool.or_eq_true_iff.mpr (.inl (h.waits hnmi))
      · exact Bool.or_eq_true_iff.mpr (.inr hnmi)
    · dsimp only [next]
      rw [hstate, hguest']
      exact hkeeps.entered
    · dsimp only [next]
      rw [hstate, hguest']
      exact OptionState.tracksTf_entered
  refine ⟨?_, fun _ => hkept⟩
  have hasked := OptionState.Intercepts.asked_iff
    (s.run.next caching (.enter cpu procId p host)).vcpu.specialState.prevNmi hkept.intercepts
  refine (and_iff_left (showsOwnTf_iff.mpr hkept.keepsTf)).trans (hasked.trans ?_)
  refine and_congr_right fun _ => and_congr_right fun _ => ?_
  rw [hprev]
  change (s.nmiWindow || s.run.vcpu.entersNmi) = (s.asked.interceptNmiWindow ||
    (s.run.vcpu.specialState.prevNmi || s.run.vcpu.entersNmi)) ↔ s.run.vcpu.entersNmi = true ∨
      s.run.vcpu.specialState.prevNmi = true ∨ s.nmiWindow = s.asked.interceptNmiWindow
  cases s.run.vcpu.entersNmi with
  | true => simp
  | false =>
      cases hnmi : s.run.vcpu.specialState.prevNmi with
      | true => simp [h.waits hnmi]
      | false => simp

/-- A vCPU whose guest has run. -/
theorem optionState_ran {v : SvmCustomVcpu} {vmcb : Vmcb} {setsTf : Option Bool}
    (h : v.vmcb.Runs vmcb setsTf) :
    SvmCustomVcpu.optionState { v with vmcb } = v.optionState.ran setsTf :=
  OptionState.ext rfl rfl (h.kept _ rfl) (h.kept _ rfl) (h.kept _ rfl) (h.kept _ rfl) (h.kept _ rfl)
    (h.kept _ rfl) h.tf rfl rfl rfl rfl

/-- The table says what an exit leads to, after the guest has run. -/
theorem Possible.exited {vmcb : Vmcb} {ctx : CvexitContext} {p : Processor} {nsvs : SyntheticMsr → Nat}
    {code : Int} {interrupted iret : Bool} {setsTf : Option Bool}
    (h : s.Possible caching ⟨.exit vmcb ctx p nsvs code interrupted iret, setsTf⟩) :
    let outcome := s.outcome caching vmcb ctx p nsvs code
    let o := s.run.vcpu.optionState
    s.run.inGuest = true ∧ ∃ v : SvmCustomVcpu,
      s.run.next caching (.exit vmcb ctx p nsvs code interrupted iret) = ⟨v, !outcome.toHost⟩ ∧
        v.optionState = (o.ran setsTf).exited code outcome.toHost ∧
        ∀ vector, outcome.raised = some vector →
          (outcome.toHost = true ∧ ¬v.vmcb.Injects vector ↔
            vector = invalidOpcode ∧ o.exceptionBitmap.testBit vector = true) := by
  obtain ⟨hruns, hctx⟩ := h.2
  obtain ⟨hguest, exited, hnext, htoHost, hstate, hraised⟩ := SvmEventRun.next_exit h.1 hctx
  change exited.toHost = (s.outcome caching vmcb ctx p nsvs code).toHost at htoHost
  refine ⟨hguest, exited.vcpu, htoHost ▸ hnext, ?_, fun vector hvector => ?_⟩
  · rw [← optionState_ran hruns]
    exact hstate
  · rw [← htoHost]
    exact hraised vector hvector

/-- By the table, iret exits to the host to report a window. -/
theorem Kept.outcome_iret {vmcb : Vmcb} {ctx : CvexitContext} {p : Processor} {nsvs : SyntheticMsr → Nat}
    (h : s.Kept) : (s.outcome caching vmcb ctx p nsvs 0x74).toHost = s.reportsWindow 0x74 := by
  have hdecoded := @CvexitState.keeps_decoded ctx ⟨p, { s.run.vcpu with vmcb }, nsvs, false⟩ 0x74 caching
  have hnmi := congrArg OptionState.prevNmi hdecoded.optionState
  have hwindow := congrArg (·.options.interceptNmiWindow) hdecoded.optionState
  exact congrArg₂ (fun nmi window => !nmi && window) hnmi (hwindow.trans h.windowOption)

theorem Kept.reportsWindow_eq {vmcb : Vmcb} {ctx : CvexitContext} {p : Processor}
    {nsvs : SyntheticMsr → Nat} {code : Int} (h : s.Kept) :
    (code == 0x74 && !s.run.vcpu.specialState.prevNmi &&
      (s.outcome caching vmcb ctx p nsvs code).toHost) = s.reportsWindow code := by
  by_cases hcode : code = 0x74
  · subst hcode
    rw [h.outcome_iret]
    exact Bool.and_self_left _ _
  · unfold reportsWindow
    rw [beq_eq_false_iff_ne.mpr hcode]
    rfl

theorem Kept.exit {vmcb : Vmcb} {ctx : CvexitContext} {p : Processor} {nsvs : SyntheticMsr → Nat}
    {code : Int} {interrupted iret : Bool} {setsTf : Option Bool} (h : s.Kept)
    (hpossible : s.Possible caching ⟨.exit vmcb ctx p nsvs code interrupted iret, setsTf⟩) :
    (s.Respects caching ⟨.exit vmcb ctx p nsvs code interrupted iret, setsTf⟩ ↔
        s.Observed caching ⟨.exit vmcb ctx p nsvs code interrupted iret, setsTf⟩) ∧
      (s.Observed caching ⟨.exit vmcb ctx p nsvs code interrupted iret, setsTf⟩ →
        (s.next caching ⟨.exit vmcb ctx p nsvs code interrupted iret, setsTf⟩).Kept) := by
  obtain ⟨hguest, v, hnext, hstate, hraised⟩ := hpossible.exited
  obtain ⟨hoptions, hbitmap, hnmi⟩ := OptionState.exited_same code
    (s.outcome caching vmcb ctx p nsvs code).toHost (o := s.run.vcpu.optionState.ran setsTf)
  have hstate' : (s.run.next caching (.exit vmcb ctx p nsvs code interrupted iret)).vcpu.optionState = _ :=
    (congrArg (·.vcpu.optionState) hnext).trans hstate
  have hguest' : (s.run.next caching (.exit vmcb ctx p nsvs code interrupted iret)).inGuest = _ :=
    congrArg SvmEventRun.inGuest hnext
  have hwaits : code = 0x74 → s.run.vcpu.specialState.prevNmi = true →
      (s.outcome caching vmcb ctx p nsvs code).toHost = false := by
    rintro rfl hprev
    rw [h.outcome_iret, reportsWindow, hprev, Bool.not_true, Bool.and_false, Bool.false_and]
  have htracks := h.tracksTf
  have hkeeps := h.keepsTf
  rw [hguest] at htracks hkeeps
  have hown : (s.next caching ⟨.exit vmcb ctx p nsvs code interrupted iret, setsTf⟩).ShowsOwnTf ↔
      (s.asked.hiddenTf = true → (s.outcome caching vmcb ctx p nsvs code).toHost = true →
        (if s.run.vcpu.optionState.nsvGuest then s.run.vcpu.optionState.headerTf
          else setsTf.getD s.run.vcpu.optionState.vmcbTf) = setsTf.getD s.guestTf) := by
    rw [showsOwnTf_iff]
    dsimp only [next]
    rw [hstate', hguest']
    exact htracks.exited_iff hwaits hkeeps
  have hgoes (vector : Nat) (hvector : (s.outcome caching vmcb ctx p nsvs code).raised = some vector) :
      ((s.next caching ⟨.exit vmcb ctx p nsvs code interrupted iret, setsTf⟩).run.inGuest = false ∧
        ¬(s.next caching ⟨.exit vmcb ctx p nsvs code interrupted iret, setsTf⟩).run.vcpu.vmcb.Injects
          vector ↔
          s.asked.interceptsException s.exceptionBitmap vector = true) ↔
        if vector = invalidOpcode then
          s.exceptionBitmap.testBit invalidOpcode = true → s.asked.interceptExceptions = true
        else s.asked.interceptsException s.exceptionBitmap vector = false := by
    dsimp only [next]
    rw [hguest', hnext, Bool.not_eq_false', hraised vector hvector]
    have hsame : s.run.vcpu.optionState.exceptionBitmap = s.exceptionBitmap := h.exceptionBitmap
    rw [hsame]
    exact VcpuOptions.interceptsException_iff
  refine ⟨and_congr (forall₂_congr hgoes) hown, fun hobserved => ?_⟩
  have hkept := showsOwnTf_iff.mp (hown.mpr hobserved.2)
  have hran : (s.run.vcpu.optionState.ran setsTf).Intercepts s.maps s.asked s.exceptionBitmap
      (s.asked.programsInstruction1 s.nmiWindow) := { h.intercepts with }
  refine ⟨?_, ?_, ?_, fun hprev => ?_, hkept, ?_⟩
  · dsimp only [next]
    rw [hstate', ← h.reportsWindow_eq]
    exact hran.exited
  · exact (congrArg (·.options.interceptNmiWindow) hstate').trans
      ((congrArg VcpuOptions.interceptNmiWindow hoptions).trans h.windowOption)
  · exact ((congrArg OptionState.exceptionBitmap hstate').trans hbitmap).trans h.exceptionBitmap
  · obtain ⟨hprev, hcode⟩ := Bool.and_eq_true_iff.mp
      (((congrArg OptionState.prevNmi hstate').trans hnmi).symm.trans hprev)
    dsimp only [next]
    rw [h.waits hprev, reportsWindow, beq_eq_false_iff_ne.mpr (bne_iff_ne.mp hcode)]
    rfl
  · dsimp only [next]
    dsimp only [next] at hkept
    rw [hstate', hguest'] at hkept ⊢
    exact htracks.exited hwaits hkeeps hkept

/-- A step that leaves both the options and the guest alone. -/
theorem Kept.same {step : SvmEventStep} {setsTf : Option Bool} (h : s.Kept)
    (hrespects : s.Respects caching ⟨step, setsTf⟩ ↔ True ∧ (s.next caching ⟨step, setsTf⟩).ShowsOwnTf)
    (hobserved : s.Observed caching ⟨step, setsTf⟩)
    (hnext : s.next caching ⟨step, setsTf⟩ = { s with run := s.run.next caching step })
    (hstate : (s.run.next caching step).vcpu.optionState = s.run.vcpu.optionState)
    (hguest : (s.run.next caching step).inGuest = s.run.inGuest) :
    (s.Respects caching ⟨step, setsTf⟩ ↔ s.Observed caching ⟨step, setsTf⟩) ∧
      (s.Observed caching ⟨step, setsTf⟩ → (s.next caching ⟨step, setsTf⟩).Kept) := by
  have hkept : (s.next caching ⟨step, setsTf⟩).Kept := hnext ▸ h.of_same hstate hguest
  have hshows := hrespects.mpr ⟨trivial, showsOwnTf_iff.mpr hkept.keepsTf⟩
  exact ⟨iff_of_true hshows hobserved, fun _ => hkept⟩

/-- The condition for one step. -/
theorem Kept.respects_iff (h : s.Kept) (hpossible : s.Possible caching e) :
    (s.Respects caching e ↔ s.Observed caching e) ∧
      (s.Observed caching e → (s.next caching e).Kept) := by
  obtain ⟨step, setsTf⟩ := e
  cases step with
  | set event => exact h.same Iff.rfl trivial rfl rfl rfl
  | edit supportedSizeMax calls => exact h.edit hpossible
  | dump =>
      obtain ⟨hguest, hnext⟩ := SvmEventRun.next_dump hpossible.1
      exact h.same Iff.rfl trivial rfl
        ((congrArg (·.vcpu.optionState) hnext).trans SvmCustomVcpu.optionState_dump)
        (congrArg SvmEventRun.inGuest hnext :)
  | options vm vcpuOptions exceptionBitmap => exact h.options hpossible
  | enter cpu procId p host => exact h.enter hpossible
  | exit vmcb ctx p nsvs code interrupted iret => exact h.exit hpossible

theorem Kept.along_respects_iff {steps : List SvmOptionStep} (h : s.Kept)
    (hpossible : Along (Possible caching) (next caching) s steps) :
    Along (Respects caching) (next caching) s steps ↔ Along (Observed caching) (next caching) s steps :=
  along_iff (fun _ _ (hkept : Kept _) hstep => (hkept.respects_iff hstep).1)
    (fun _ _ hkept hstep => (hkept.respects_iff hstep).2) h hpossible

/-- In every run of a new vCPU the options are respected exactly where the runs avoid what is not
implemented, and the hidden trap flag. -/
theorem optionsRespected_iff {steps : List SvmOptionStep} (hcreated : s.Created)
    (hpossible : Along (Possible caching) (next caching) s steps) :
    Along (Respects caching) (next caching) s steps ↔ Along (Observed caching) (next caching) s steps :=
  hcreated.kept.along_respects_iff hpossible

/-! The bitmap has an invalid opcode, and the options intercept exceptions or not. -/

def freshVcpu : SvmCustomVcpu := { quietVcpu with header.stateCache := fun _ => false }

def freshVm : SvmGuestVm := ⟨1, 0x1000, 0x4000, ⟨0x5000, 0x7000⟩⟩

def freshStart : SvmOptionRun where
  run := ⟨nvcSvmInitializeCvmVmcb freshVm freshVcpu, false⟩
  maps := freshVm.maps
  asked := zeroVirtualCpu.vcpuOptions
  exceptionBitmap := 0
  guestTf := false
  nmiWindow := false

def opcodeOptions (interceptExceptions : Bool) : SvmOptionStep :=
  ⟨.options freshVm.maps { zeroVirtualCpu.vcpuOptions with interceptExceptions } (2 ^ invalidOpcode), none⟩

def quietEnter : SvmOptionStep := ⟨.enter anyFeatures 0 zeroProcessor zeroVirtualCpu, none⟩

def opcodeEntered (interceptExceptions : Bool) : SvmOptionRun :=
  next true (next true freshStart (opcodeOptions interceptExceptions)) quietEnter

/-- The guest executes invlpga. -/
def opcodeExit (interceptExceptions : Bool) : SvmOptionStep :=
  ⟨.exit ((opcodeEntered interceptExceptions).run.vcpu.vmcb.write .eventInjection 0) quietContext
    zeroProcessor (fun _ => 0) 0x7A false false, none⟩

def opcodeSteps (interceptExceptions : Bool) : List SvmOptionStep :=
  [opcodeOptions interceptExceptions, quietEnter, opcodeExit interceptExceptions]

theorem freshStart_created : freshStart.Created where
  guest := rfl
  vcpu := ⟨freshVm, freshVcpu, ⟨fun _ => rfl, rfl, fun _ => rfl, rfl, rfl, rfl⟩, rfl, rfl⟩
  asked := rfl
  exceptionBitmap := rfl
  guestTf := rfl
  nmiWindow := rfl

theorem isSome_injectInvalidOpcode {ctx : CvexitContext} {s : CvexitState} (hnsv : s.vcpu.nsvGuest = false)
    (hloadable : HostLoadable ctx.cpu ctx.host) : (injectInvalidOpcode ctx s).isSome := by
  unfold injectInvalidOpcode nvcSvmInjectCvmException
  split
  · exact isSome_cvexitToHost hnsv hloadable
  · rfl

theorem opcodeSteps_possible (interceptExceptions : Bool) :
    Along (Possible true) (next true) freshStart (opcodeSteps interceptExceptions) := by
  have hloadable : GuestLoadable anyFeatures zeroVirtualCpu zeroProcessor :=
    ⟨⟨fun _ h => absurd h Bool.false_ne_true, fun _ => rfl⟩, rfl⟩
  have henter : Possible true (next true freshStart (opcodeOptions interceptExceptions)) quietEnter := by
    refine ⟨⟨?_, trivial⟩, trivial⟩
    have hentered : SvmEventRun.step true
        ⟨(next true freshStart (opcodeOptions interceptExceptions)).run.vcpu, false⟩ quietEnter.step = _ :=
      SvmEventRun.step_enter rfl ⟨hloadable.area, rfl⟩
    exact Option.isSome_iff_exists.mpr ⟨_, hentered⟩
  obtain ⟨-, hguest, hstate⟩ := SvmEventRun.next_enter henter.1
  have hnsv : (opcodeEntered interceptExceptions).run.vcpu.nsvGuest = false :=
    (congrArg OptionState.nsvGuest hstate).trans OptionState.entered_nsvGuest
  have hother (field : VmcbField) (hfield : field ≠ .eventInjection) :
      ((opcodeEntered interceptExceptions).run.vcpu.vmcb.write .eventInjection 0).field field =
        (opcodeEntered interceptExceptions).run.vcpu.vmcb.field field := Vmcb.field_write_of_ne hfield
  have hexit : ((opcodeEntered interceptExceptions).run.step true
      (opcodeExit interceptExceptions).step).isSome := by
    refine SvmEventRun.isSome_exit hguest ?_
    have hopcode (s : CvexitState) :
        svmCvexitHandlers quietContext s 0x7A = injectInvalidOpcode quietContext s := rfl
    unfold nvcSvmExitHandler
    rw [Option.isSome_map, hopcode]
    exact isSome_injectInvalidOpcode hnsv ⟨hloadable.area, rfl⟩
  refine ⟨⟨⟨rfl, trivial⟩, rfl⟩, henter, ⟨⟨hexit, ⟨.inl ?_, ?_, ?_, ?_⟩, fun _ => rfl⟩,
    ⟨fun field hkept => ?_, ?_⟩, fun _ => ⟨rfl, rfl, rfl, rfl⟩⟩, trivial⟩
  · rfl
  · exact hother _ (by decide)
  · exact hother _ (by decide)
  · exact hother _ (by decide)
  · refine hother field ?_
    rintro rfl
    cases hkept
  · exact congrArg (·.testBit rflagsTf) (hother (.guest .rflags) (by decide))

/-- The host gets the exception that it has asked for. -/
theorem invalidOpcode_intercepted :
    Along (Respects true) (next true) freshStart (opcodeSteps true) := by
  refine (optionsRespected_iff freshStart_created (opcodeSteps_possible true)).mpr ?_
  refine ⟨fun h => (nomatch h), ⟨rfl, rfl, .inr (.inr rfl)⟩,
    ⟨fun vector hvector => ?_, fun h => (nomatch h)⟩, trivial⟩
  obtain rfl := Option.some.inj hvector
  exact fun _ => rfl

/-- The host gets an exception that it has not asked for. -/
theorem not_forall_optionsRespected :
    ¬∀ (s : SvmOptionRun) (steps : List SvmOptionStep), s.Created →
      Along (Possible true) (next true) s steps → Along (Respects true) (next true) s steps := by
  intro h
  have hrespects := h freshStart (opcodeSteps false) freshStart_created (opcodeSteps_possible false)
  have hobserved := (freshStart_created.kept.along_respects_iff (opcodeSteps_possible false)).mp hrespects
  exact Bool.false_ne_true (hobserved.2.2.1.1 invalidOpcode rfl (by decide))

end SvmOptionRun

end NoirVisor
