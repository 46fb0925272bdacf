import NoirVisor.BitField
import NoirVisor.Cvm.VtRuns

/-!
# Events of a virtual CPU on VT

An event that the host sets stays in the structure of the vCPU. The switch to the guest, the exits at the
windows and the writes of CR8 decide each by themselves whether they inject it, and none of them notes
that it has been injected.
-/

namespace NoirVisor

def interruptWindowExiting : Nat := 2
def nmiWindowExiting : Nat := 22

/-- The exit at a window that nothing waits for is not wanted any more. -/
def resetWindowExiting (n : Nat) (vmcs : Vmcs) : Vmcs :=
  Function.update vmcs .primaryProcessorBasedVmExecutionControls
    (setBit (vmcs .primaryProcessorBasedVmExecutionControls) n false)

/-- The registers that the generic exit context is filled with. -/
def Register.inExitContext : Register → Bool
  | .seg .cs _ | .rip | .rflags => true
  | _ => false

namespace VtCustomVcpu

variable (cvcpu : VtCustomVcpu)

def nvcVtSaveGenericCvexitContext : VtCustomVcpu :=
  { cvcpu with
    header.reg := copyRegisters Register.inExitContext (fun r => cvcpu.vmcs (.guest r)) cvcpu.header.reg }

/-- Whether the handler switches to the host, and the vCPU before that. -/
def nvcVtInterruptWindowCvexitHandler : Bool × VtCustomVcpu :=
  let event := cvcpu.header.injectedEvent
  if event.valid && event.type == ia32ExternalInterrupt &&
      decide (event.priority > cvcpu.header.reg .cr8 % 2 ^ 4) then
    (false, { cvcpu with
      vmcs := vtInjectEvent event.vector ia32ExternalInterrupt (event.attributes.testBit 11) 0
        event.errorCode cvcpu.vmcs })
  else
    let cvcpu := { cvcpu with vmcs := resetWindowExiting interruptWindowExiting cvcpu.vmcs }
    if cvcpu.header.vcpuOptions.interceptInterruptWindow then
      (true, cvcpu.nvcVtSaveGenericCvexitContext)
    else (false, cvcpu)

def nvcVtNmiWindowCvexitHandler : Bool × VtCustomVcpu :=
  let event := cvcpu.header.injectedEvent
  if event.valid && event.type == ia32NonMaskableInterrupt then
    (false, { cvcpu with
      vmcs := vtInjectEvent ia32NmiInterrupt ia32NonMaskableInterrupt false 0 0 cvcpu.vmcs })
  else
    let cvcpu := { cvcpu with vmcs := resetWindowExiting nmiWindowExiting cvcpu.vmcs }
    if cvcpu.header.vcpuOptions.interceptNmiWindow then (true, cvcpu.nvcVtSaveGenericCvexitContext)
    else (false, cvcpu)

/-- `nvc_vt_cr_access_cvexit_handler` for a write of CR8. RIP is not advanced. -/
def nvcVtCrAccessCvexitHandlerCr8 (p : Processor) (gpr : Fin 16) : VtCustomVcpu :=
  let cr8 := cvcpu.exitRegisters p (.gpr gpr)
  let cvcpu := { cvcpu with header.reg := Function.update cvcpu.header.reg .cr8 cr8 }
  let event := cvcpu.header.injectedEvent
  if cr8 < event.priority && event.type == ia32ExternalInterrupt then
    if (cvcpu.vmcs (.guest .rflags)).testBit rflagsIf then
      { cvcpu with
        vmcs := vtInjectEvent event.vector ia32ExternalInterrupt (event.attributes.testBit 11) 0
          event.errorCode cvcpu.vmcs }
    else { cvcpu with vmcs := setWindowExiting interruptWindowExiting cvcpu.vmcs }
  else cvcpu

/-- The processor is to inject an event of this type. -/
def Injects (type : Nat) : Prop :=
  (cvcpu.vmcs .vmentryInterruptionInformationField).testBit 31 = true ∧
    cvcpu.vmcs .vmentryInterruptionInformationField / 2 ^ 8 % 2 ^ 3 = type

def Armed (n : Nat) : Prop :=
  (cvcpu.vmcs .primaryProcessorBasedVmExecutionControls).testBit n = true

/-- No instruction before delays interrupts. -/
def Unshadowed : Prop :=
  (cvcpu.vmcs .guestInterruptibilityState).testBit 0 = false ∧
    (cvcpu.vmcs .guestInterruptibilityState).testBit 1 = false

def NmiBlocked : Prop := (cvcpu.vmcs .guestInterruptibilityState).testBit 3 = true

def InterruptsEnabled : Prop := (cvcpu.vmcs (.guest .rflags)).testBit rflagsIf = true

/-- The event in the structure is an interrupt that CR8 does not hold back. -/
def InterruptDue : Prop :=
  cvcpu.header.injectedEvent.valid = true ∧
    cvcpu.header.injectedEvent.type = ia32ExternalInterrupt ∧
      cvcpu.header.reg .cr8 % 2 ^ 4 < cvcpu.header.injectedEvent.priority

def NmiDue : Prop :=
  cvcpu.header.injectedEvent.valid = true ∧
    cvcpu.header.injectedEvent.type = ia32NonMaskableInterrupt

end VtCustomVcpu

def EventInjection.IsInterrupt (e : EventInjection) : Prop :=
  e.valid = true ∧ (e.type = ia32ExternalInterrupt ∨ e.type = ia32NonMaskableInterrupt)

instance (e : EventInjection) : Decidable e.IsInterrupt := inferInstanceAs (Decidable (_ ∧ _))

/-- What is known of the event that was set last: it is no interrupt, it was set while the guest runs and
is looked at when it is entered next, it waits, or it has been injected. -/
inductive EventWait where
  | idle | queued | waiting | delivered
deriving DecidableEq

namespace EventWait

def afterSet (event : EventInjection) (inGuest : Bool) : EventWait :=
  if event.IsInterrupt then if inGuest then queued else waiting else idle

def noticed : EventWait → EventWait
  | queued => waiting
  | w => w

def Pending (w : EventWait) : Prop := w = queued ∨ w = waiting

/-- An entry that injects the event. -/
def entered (w : EventWait) (v : VtCustomVcpu) : EventWait :=
  if (v.vmcs .vmentryInterruptionInformationField).testBit 31 = true ∧
      (v.vmcs .vmentryInterruptionInformationField / 2 ^ 8 % 2 ^ 3 = ia32ExternalInterrupt ∨
        v.vmcs .vmentryInterruptionInformationField / 2 ^ 8 % 2 ^ 3 = ia32NonMaskableInterrupt) then
    delivered
  else w

end EventWait

structure VtEventRun where
  vcpu : VtCustomVcpu
  inGuest : Bool
  wait : EventWait

/-- The exits, where any other one may raise an exception and switch to the host. -/
inductive VtEventExit where
  | interruptWindow
  | nmiWindow
  | writeCr8 (gpr : Fin 16)
  | other (header : VirtualCpu) (raised : Option (Nat × Bool × Nat)) (toHost : Bool)

def ia32HardwareExceptionType : Nat := 3

/-- Whether the handler switches to the host, and the vCPU before that. -/
def VtEventExit.handle (p : Processor) (cvcpu : VtCustomVcpu) : VtEventExit → Bool × VtCustomVcpu
  | interruptWindow => cvcpu.nvcVtInterruptWindowCvexitHandler
  | nmiWindow => cvcpu.nvcVtNmiWindowCvexitHandler
  | writeCr8 gpr => (false, cvcpu.nvcVtCrAccessCvexitHandlerCr8 p gpr)
  | other header none toHost => (toHost, { cvcpu with header })
  | other header (some (vector, deliver, errorCode)) _ =>
      (false, { cvcpu with
        header
        vmcs := vtInjectEvent vector ia32HardwareExceptionType deliver 0 errorCode cvcpu.vmcs })

/-- The host sets an event at any time, and changes the rest of the structure while the guest does not
run. An exit has the VMCS as the guest left it. -/
inductive VtEventStep where
  | set (event : EventInjection)
  | host (header : VirtualCpu)
  | enter (cpu : Xsave.Features) (fixed : VmxFixedBits) (stack : VtInitialStack) (p : Processor)
      (host : VirtualCpu)
  | exit (vmcs : Vmcs) (cpu : Xsave.Features) (p : Processor) (host : VirtualCpu) (kind : VtEventExit)

namespace VtEventRun

/-- None if an instruction of a switch raises an exception. -/
def step (s : VtEventRun) : VtEventStep → Option VtEventRun
  | .set event =>
      some ⟨{ s.vcpu with header.injectedEvent := event }, s.inGuest,
        EventWait.afterSet event s.inGuest⟩
  | .host header => some { s with vcpu := { s.vcpu with header } }
  | .enter cpu fixed stack p host =>
      (nvcVtSwitchToGuestVcpu cpu fixed stack p host s.vcpu).map fun (_, _, _, cvcpu) =>
        ⟨cvcpu, true, s.wait.noticed.entered cvcpu⟩
  | .exit vmcs cpu p host kind =>
      let (toHost, cvcpu) := kind.handle p { s.vcpu with vmcs }
      if toHost then
        (nvcVtSwitchToHostVcpu cpu p host cvcpu).map fun (_, cvcpu) => ⟨cvcpu, false, s.wait⟩
      else some ⟨cvcpu, true, s.wait.entered cvcpu⟩

def next (s : VtEventRun) (e : VtEventStep) : VtEventRun := (s.step e).getD s

/-- A VM exit clears the valid bit of the interruption information, and leaves the controls. -/
structure Exited (s : VtEventRun) (vmcs : Vmcs) : Prop where
  information : (vmcs .vmentryInterruptionInformationField).testBit 31 = false
  controls : vmcs .primaryProcessorBasedVmExecutionControls =
    s.vcpu.vmcs .primaryProcessorBasedVmExecutionControls

def Possible (s : VtEventRun) (e : VtEventStep) : Prop :=
  s.step e ≠ none ∧
    match e with
    | .set _ => True
    | .host header =>
        s.inGuest = false ∧ header.injectedEvent = s.vcpu.header.injectedEvent ∧
          (header.stateCache .gpr = true → header.reg .rflags = s.vcpu.vmcs (.guest .rflags))
    | .enter .. => s.inGuest = false
    | .exit vmcs _ _ _ kind =>
        s.inGuest = true ∧ s.Exited vmcs ∧
          match kind with
          | .interruptWindow =>
              s.vcpu.Armed interruptWindowExiting ∧
                { s.vcpu with vmcs }.InterruptsEnabled ∧ { s.vcpu with vmcs }.Unshadowed
          | .nmiWindow => s.vcpu.Armed nmiWindowExiting ∧ ¬{ s.vcpu with vmcs }.NmiBlocked
          | .writeCr8 _ => True
          | .other header _ _ =>
              header.injectedEvent = s.vcpu.header.injectedEvent ∧
                header.reg .cr8 = s.vcpu.header.reg .cr8

end VtEventRun

/-- An entry of the guest with this vCPU, and with this known of its event before. -/
structure VtCustomVcpu.EntersWell (cvcpu : VtCustomVcpu) (w : EventWait) : Prop where
  external : cvcpu.Injects ia32ExternalInterrupt →
    w.Pending ∧ cvcpu.InterruptDue ∧ cvcpu.InterruptsEnabled ∧ cvcpu.Unshadowed ∧
      cvcpu.vmcs .vmentryInterruptionInformationField % 2 ^ 8 = cvcpu.header.injectedEvent.vector ∧
        (cvcpu.vmcs .vmentryInterruptionInformationField).testBit 11 = false
  nmi : cvcpu.Injects ia32NonMaskableInterrupt → w.Pending ∧ cvcpu.NmiDue ∧ ¬cvcpu.NmiBlocked
  interruptWaits : w = .waiting → cvcpu.InterruptDue →
    cvcpu.Injects ia32ExternalInterrupt ∨ cvcpu.Armed interruptWindowExiting
  nmiWaits : w = .waiting → cvcpu.NmiDue →
    cvcpu.Injects ia32NonMaskableInterrupt ∨ cvcpu.Armed nmiWindowExiting
  /-- Nothing is left of an event that has been injected. -/
  left : w.entered cvcpu = .delivered →
    (cvcpu.header.injectedEvent.type = ia32ExternalInterrupt → ¬cvcpu.Armed interruptWindowExiting) ∧
      (cvcpu.header.injectedEvent.type = ia32NonMaskableInterrupt → ¬cvcpu.Armed nmiWindowExiting)

namespace VtEventRun

/-- Each entry is as it should be, and an exit at a window injects what waits for it. -/
def Delivers (s : VtEventRun) (e : VtEventStep) : Prop :=
  match e with
  | .set _ | .host _ => True
  | .enter .. => (s.next e).vcpu.EntersWell s.wait.noticed
  | .exit _ _ _ _ kind =>
      ((s.next e).inGuest = true → (s.next e).vcpu.EntersWell s.wait) ∧
        match kind with
        | .interruptWindow =>
            s.wait.Pending → s.vcpu.InterruptDue →
              (s.next e).inGuest = true ∧ (s.next e).vcpu.Injects ia32ExternalInterrupt
        | .nmiWindow =>
            s.wait.Pending → s.vcpu.NmiDue →
              (s.next e).inGuest = true ∧ (s.next e).vcpu.Injects ia32NonMaskableInterrupt
        | _ => True

/-- A run has no interrupt that CR8 does not hold back, or one that waits and interrupts enabled; it has no
NMI, or one that waits, and no exit at its window is left from before if it can be injected. No exit at
a window has an event for it. A write of CR8 that lets an interrupt through has one that waits, with
interrupts enabled and not delayed and no exit at the window left from before. -/
def Kept (s : VtEventRun) (e : VtEventStep) : Prop :=
  match e with
  | .set _ | .host _ => True
  | .enter .. =>
      (s.vcpu.InterruptDue →
        s.wait ≠ .delivered ∧ (s.vcpu.header.reg .rflags).testBit rflagsIf = true) ∧
        (s.vcpu.NmiDue →
          s.wait ≠ .delivered ∧ (s.vcpu.NmiBlocked ∨ ¬s.vcpu.Armed nmiWindowExiting))
  | .exit vmcs _ p _ kind =>
      match kind with
      | .interruptWindow => ¬s.vcpu.InterruptDue
      | .nmiWindow => ¬s.vcpu.NmiDue
      | .writeCr8 gpr =>
          let cvcpu := { s.vcpu with vmcs }
          let cr8 := cvcpu.exitRegisters p (.gpr gpr)
          let event := s.vcpu.header.injectedEvent
          if cr8 < event.priority ∧ event.type = ia32ExternalInterrupt then
            if (vmcs (.guest .rflags)).testBit rflagsIf = true then
              s.wait.Pending ∧ event.attributes.testBit 11 = false ∧ cvcpu.Unshadowed ∧
                ¬s.vcpu.Armed interruptWindowExiting
            else s.wait ≠ .delivered
          else
            s.wait = .waiting → event.type = ia32ExternalInterrupt → cr8 % 2 ^ 4 < event.priority →
              s.vcpu.Armed interruptWindowExiting
      | .other .. => True

/-- What holds in a run whose steps all meet the condition. -/
structure EventsKept (s : VtEventRun) : Prop where
  sound : s.wait ≠ .idle ↔ s.vcpu.header.injectedEvent.IsInterrupt
  information : s.inGuest = false →
    (s.vcpu.vmcs .vmentryInterruptionInformationField).testBit 31 = false
  rflags : s.inGuest = false → s.vcpu.header.stateCache .gpr = true →
    s.vcpu.header.reg .rflags = s.vcpu.vmcs (.guest .rflags)
  interruptWaits : s.inGuest = true → s.wait = .waiting → s.vcpu.InterruptDue →
    s.vcpu.Armed interruptWindowExiting
  nmiWaits : s.inGuest = true → s.wait = .waiting → s.vcpu.NmiDue → s.vcpu.Armed nmiWindowExiting
  left : s.wait = .delivered →
    (s.vcpu.header.injectedEvent.type = ia32ExternalInterrupt → ¬s.vcpu.Armed interruptWindowExiting) ∧
      (s.vcpu.header.injectedEvent.type = ia32NonMaskableInterrupt → ¬s.vcpu.Armed nmiWindowExiting)

end VtEventRun

section Fields

variable {value vector type length errorCode m n : Nat} {deliver b : Bool} {vmcs : Vmcs} {f : VmcsField}

theorem setBit_eq_set : setBit value n b = BitField.set value n 1 b.toNat := by
  rw [setBit, resetBits, Nat.and_two_pow, Nat.toNat_testBit, BitField.set, BitField.get, Nat.pow_one]
  cases b <;> rfl

theorem testBit_setBit : (setBit value n b).testBit m = if m = n then b else value.testBit m := by
  rw [setBit_eq_set, BitField.testBit_set]
  by_cases hsame : m = n
  · subst hsame
    rw [if_pos ⟨Nat.le_refl m, Nat.lt_succ_self m⟩, if_pos rfl, Nat.sub_self]
    cases b <;> rfl
  · rw [if_neg (by omega), if_neg hsame]

/-- What the injection of an event writes. -/
def interruptionInformation (vector type : Nat) (deliver : Bool) : Nat :=
  vector % 2 ^ 8 + type % 2 ^ 3 * 2 ^ 8 + deliver.toNat * 2 ^ 11 + 2 ^ 31

theorem vtInjectEvent_information :
    vtInjectEvent vector type deliver length errorCode vmcs .vmentryInterruptionInformationField =
      interruptionInformation vector type deliver := by
  unfold vtInjectEvent interruptionInformation
  cases deliver <;> simp

theorem vtInjectEvent_of_ne (hinformation : f ≠ .vmentryInterruptionInformationField)
    (herror : f ≠ .vmentryExceptionErrorCode) (hlength : f ≠ .vmentryInstructionLength) :
    vtInjectEvent vector type deliver length errorCode vmcs f = vmcs f := by
  unfold vtInjectEvent
  cases deliver <;> simp [hinformation, herror, hlength]

theorem information_valid : (interruptionInformation vector type deliver).testBit 31 = true := by
  have hd : deliver.toNat ≤ 1 := Bool.toNat_le deliver
  rw [Nat.testBit_eq_decide_div_mod_eq, interruptionInformation, decide_eq_true_eq]
  omega

theorem information_type :
    interruptionInformation vector type deliver / 2 ^ 8 % 2 ^ 3 = type % 2 ^ 3 := by
  have hd : deliver.toNat ≤ 1 := Bool.toNat_le deliver
  rw [interruptionInformation]
  omega

theorem information_vector : interruptionInformation vector type deliver % 2 ^ 8 = vector % 2 ^ 8 := by
  rw [interruptionInformation]
  omega

theorem information_deliver : (interruptionInformation vector type deliver).testBit 11 = deliver := by
  rw [Nat.testBit_eq_decide_div_mod_eq, interruptionInformation]
  cases deliver <;> simp only [Bool.toNat_false, Bool.toNat_true, decide_eq_false_iff_not,
    decide_eq_true_eq] <;> omega

end Fields

namespace VtCustomVcpu

variable {v : VtCustomVcpu} {w : EventWait} {n : Nat} {vmcs : Vmcs}

theorem not_injects_of_clear (hclear : (v.vmcs .vmentryInterruptionInformationField).testBit 31 = false)
    (n : Nat) : ¬v.Injects n := fun h => Bool.false_ne_true (hclear.symm.trans h.1)

theorem entered_of_none (hexternal : ¬v.Injects ia32ExternalInterrupt)
    (hnmi : ¬v.Injects ia32NonMaskableInterrupt) : w.entered v = w :=
  if_neg fun hinjects =>
    hinjects.2.elim (fun h => hexternal ⟨hinjects.1, h⟩) fun h => hnmi ⟨hinjects.1, h⟩

theorem entered_of_external (h : v.Injects ia32ExternalInterrupt) : w.entered v = .delivered :=
  if_pos ⟨h.1, .inl h.2⟩

theorem entered_of_nmi (h : v.Injects ia32NonMaskableInterrupt) : w.entered v = .delivered :=
  if_pos ⟨h.1, .inr h.2⟩

/-- An entry without an interrupt. -/
theorem entersWell_of_none (hexternal : ¬v.Injects ia32ExternalInterrupt)
    (hnmi : ¬v.Injects ia32NonMaskableInterrupt) :
    v.EntersWell w ↔
      (w = .waiting → v.InterruptDue → v.Armed interruptWindowExiting) ∧
        (w = .waiting → v.NmiDue → v.Armed nmiWindowExiting) ∧
          (w = .delivered →
            (v.header.injectedEvent.type = ia32ExternalInterrupt → ¬v.Armed interruptWindowExiting) ∧
              (v.header.injectedEvent.type = ia32NonMaskableInterrupt → ¬v.Armed nmiWindowExiting)) := by
  have hsame : w.entered v = w := entered_of_none hexternal hnmi
  constructor
  · intro h
    refine ⟨fun hw hdue => ?_, fun hw hdue => ?_, fun hw => h.left (hsame.trans hw)⟩
    · exact (h.interruptWaits hw hdue).resolve_left hexternal
    · exact (h.nmiWaits hw hdue).resolve_left hnmi
  · rintro ⟨hinterruptWaits, hnmiWaits, hleft⟩
    exact
      { external := fun h => absurd h hexternal
        nmi := fun h => absurd h hnmi
        interruptWaits := fun hw hdue => .inr (hinterruptWaits hw hdue)
        nmiWaits := fun hw hdue => .inr (hnmiWaits hw hdue)
        left := fun hw => hleft (hsame.symm.trans hw) }

theorem entersWell_of_clear
    (hclear : (v.vmcs .vmentryInterruptionInformationField).testBit 31 = false) :
    v.EntersWell w ↔
      (w = .waiting → v.InterruptDue → v.Armed interruptWindowExiting) ∧
        (w = .waiting → v.NmiDue → v.Armed nmiWindowExiting) ∧
          (w = .delivered →
            (v.header.injectedEvent.type = ia32ExternalInterrupt → ¬v.Armed interruptWindowExiting) ∧
              (v.header.injectedEvent.type = ia32NonMaskableInterrupt → ¬v.Armed nmiWindowExiting)) :=
  entersWell_of_none (not_injects_of_clear hclear _) (not_injects_of_clear hclear _)

/-- An entry with an external interrupt. -/
theorem entersWell_of_external (hinjects : v.Injects ia32ExternalInterrupt) :
    v.EntersWell w ↔
      (w.Pending ∧ v.InterruptDue ∧ v.InterruptsEnabled ∧ v.Unshadowed ∧
        v.vmcs .vmentryInterruptionInformationField % 2 ^ 8 = v.header.injectedEvent.vector ∧
          (v.vmcs .vmentryInterruptionInformationField).testBit 11 = false) ∧
        ¬v.Armed interruptWindowExiting := by
  have htypes : ia32ExternalInterrupt ≠ ia32NonMaskableInterrupt := by decide
  constructor
  · intro h
    have hall := h.external hinjects
    exact ⟨hall, (h.left (entered_of_external hinjects)).1 hall.2.1.2.1⟩
  · rintro ⟨hall, harmed⟩
    have htype := hall.2.1.2.1
    exact
      { external := fun _ => hall
        nmi := fun h => absurd (hinjects.2.symm.trans h.2) htypes
        interruptWaits := fun _ _ => .inl hinjects
        nmiWaits := fun _ hdue => absurd (htype.symm.trans hdue.2) htypes
        left := fun _ => ⟨fun _ => harmed, fun hnmi => absurd (htype.symm.trans hnmi) htypes⟩ }

theorem entersWell_of_nmi (hinjects : v.Injects ia32NonMaskableInterrupt) :
    v.EntersWell w ↔ (w.Pending ∧ v.NmiDue ∧ ¬v.NmiBlocked) ∧ ¬v.Armed nmiWindowExiting := by
  have htypes : ia32ExternalInterrupt ≠ ia32NonMaskableInterrupt := by decide
  constructor
  · intro h
    have hall := h.nmi hinjects
    exact ⟨hall, (h.left (entered_of_nmi hinjects)).2 hall.2.1.2⟩
  · rintro ⟨hall, harmed⟩
    have htype := hall.2.1.2
    exact
      { external := fun h => absurd (h.2.symm.trans hinjects.2) htypes
        nmi := fun _ => hall
        interruptWaits := fun _ hdue => absurd (hdue.2.1.symm.trans htype) htypes
        nmiWaits := fun _ _ => .inl hinjects
        left := fun _ => ⟨fun hexternal => absurd (hexternal.symm.trans htype) htypes, fun _ => harmed⟩ }

/-- What an entry that is as it should be leaves. -/
theorem EntersWell.kept (h : v.EntersWell w) (hsound : w ≠ .idle ↔ v.header.injectedEvent.IsInterrupt) :
    VtEventRun.EventsKept ⟨v, true, w.entered v⟩ := by
  have hcases : w.entered v = w ∨ w.entered v = .delivered ∧ v.header.injectedEvent.IsInterrupt := by
    by_cases hexternal : v.Injects ia32ExternalInterrupt
    · obtain ⟨-, hdue, -⟩ := h.external hexternal
      exact .inr ⟨entered_of_external hexternal, hdue.1, .inl hdue.2.1⟩
    by_cases hnmi : v.Injects ia32NonMaskableInterrupt
    · obtain ⟨-, hdue, -⟩ := h.nmi hnmi
      exact .inr ⟨entered_of_nmi hnmi, hdue.1, .inr hdue.2⟩
    · exact .inl (entered_of_none hexternal hnmi)
  have hwaiting (hw : w.entered v = .waiting) :
      w = .waiting ∧ ¬v.Injects ia32ExternalInterrupt ∧ ¬v.Injects ia32NonMaskableInterrupt := by
    have hne : w.entered v ≠ .delivered := fun heq => by simp [hw] at heq
    refine ⟨?_, fun h => hne (entered_of_external h), fun h => hne (entered_of_nmi h)⟩
    obtain hsame | hdelivered := hcases
    · exact hsame.symm.trans hw
    · exact absurd hdelivered.1 hne
  exact
    { sound := by
        obtain hsame | ⟨hdelivered, hinterrupt⟩ := hcases
        · rw [hsame]
          exact hsound
        · simp [hdelivered, hinterrupt]
      information := fun hhost => (nomatch hhost)
      rflags := fun hhost => (nomatch hhost)
      interruptWaits := fun _ hw hdue =>
        (h.interruptWaits (hwaiting hw).1 hdue).resolve_left (hwaiting hw).2.1
      nmiWaits := fun _ hw hdue => (h.nmiWaits (hwaiting hw).1 hdue).resolve_left (hwaiting hw).2.2
      left := h.left }

/-- The vCPU with an event to inject. -/
def injecting (v : VtCustomVcpu) (vector type : Nat) (deliver : Bool) (errorCode : Nat) : VtCustomVcpu :=
  { v with vmcs := vtInjectEvent vector type deliver 0 errorCode v.vmcs }

section

variable {vector type errorCode : Nat} {deliver : Bool}

theorem injecting_information :
    (v.injecting vector type deliver errorCode).vmcs .vmentryInterruptionInformationField =
      interruptionInformation vector type deliver :=
  @vtInjectEvent_information vector type 0 errorCode deliver v.vmcs

theorem injecting_injects (htype : type < 8) : (v.injecting vector type deliver errorCode).Injects type := by
  refine ⟨?_, ?_⟩
  · rw [injecting_information]
    exact information_valid
  · rw [injecting_information, information_type, show (2 : Nat) ^ 3 = 8 from rfl,
      Nat.mod_eq_of_lt htype]

theorem injecting_armed : (v.injecting vector type deliver errorCode).Armed n ↔ v.Armed n := by
  simp [Armed, injecting, vtInjectEvent_of_ne]

theorem injecting_nmiBlocked : (v.injecting vector type deliver errorCode).NmiBlocked ↔ v.NmiBlocked := by
  simp [NmiBlocked, injecting, vtInjectEvent_of_ne]

theorem injecting_unshadowed : (v.injecting vector type deliver errorCode).Unshadowed ↔ v.Unshadowed := by
  simp [Unshadowed, injecting, vtInjectEvent_of_ne]

theorem injecting_interruptsEnabled :
    (v.injecting vector type deliver errorCode).InterruptsEnabled ↔ v.InterruptsEnabled := by
  simp [InterruptsEnabled, injecting, vtInjectEvent_guest]

end

theorem armed_setWindowExiting : Armed { v with vmcs := setWindowExiting n v.vmcs } n := by
  simp [Armed, setWindowExiting, testBit_setBit]

/-- The injection on the way into the guest. -/
theorem setEventInjection_entersWell_iff
    (hclear : (v.vmcs .vmentryInterruptionInformationField).testBit 31 = false)
    (hsound : w ≠ .idle ↔ v.header.injectedEvent.IsInterrupt)
    (hrflags : v.vmcs (.guest .rflags) = v.header.reg .rflags)
    (hleft : w = .delivered →
      (v.header.injectedEvent.type = ia32ExternalInterrupt → ¬v.Armed interruptWindowExiting) ∧
        (v.header.injectedEvent.type = ia32NonMaskableInterrupt → ¬v.Armed nmiWindowExiting))
    (hnoticed : w ≠ .queued) :
    v.setEventInjection.EntersWell w ↔
      (v.InterruptDue → w ≠ .delivered ∧ (v.header.reg .rflags).testBit rflagsIf = true) ∧
        (v.NmiDue → w ≠ .delivered ∧ (v.NmiBlocked ∨ ¬v.Armed nmiWindowExiting)) := by
  have htypes : ia32ExternalInterrupt ≠ ia32NonMaskableInterrupt := by decide
  have hwaiting (hdelivered : w ≠ .delivered) (hinterrupt : v.header.injectedEvent.IsInterrupt) :
      w = .waiting := by
    have hidle := hsound.mpr hinterrupt
    cases w <;> simp_all
  unfold setEventInjection
  dsimp only
  by_cases hvalid : v.header.injectedEvent.valid = true
  swap
  · rw [if_pos (by simp [hvalid]), entersWell_of_clear (by simp)]
    have hidle : w = .idle := not_not.mp fun h => hvalid (hsound.mp h).1
    simp [InterruptDue, NmiDue, hvalid, hidle]
  rw [if_neg (by simp [hvalid])]
  by_cases hexternal : v.header.injectedEvent.type = ia32ExternalInterrupt
  · have hnmi : ¬v.NmiDue := fun h => htypes (hexternal.symm.trans h.2)
    rw [if_pos hexternal]
    by_cases hpriority : v.header.injectedEvent.priority > v.header.reg .cr8 % 2 ^ 4
    · have hdue : v.InterruptDue := ⟨hvalid, hexternal, hpriority⟩
      rw [if_pos hpriority]
      by_cases hif : (v.header.reg .rflags).testBit rflagsIf = true
      · rw [if_neg (by simp [hif]), entersWell_of_clear (by simpa [setWindowExiting] using hclear)]
        have harmed := armed_setWindowExiting (v := v) (n := 2)
        constructor
        · rintro ⟨-, -, hdelivered⟩
          exact ⟨fun _ => ⟨fun hw => (hdelivered hw).1 hexternal harmed, hif⟩, fun h => absurd h hnmi⟩
        · rintro ⟨hkept, -⟩
          exact ⟨fun _ _ => harmed, fun _ h => absurd h hnmi, fun hw => absurd hw (hkept hdue).1⟩
      · rw [if_pos (by simp [hif])]
        change (v.injecting _ _ _ _).EntersWell w ↔ _
        rw [entersWell_of_external (injecting_injects (by decide)), injecting_interruptsEnabled]
        constructor
        · rintro ⟨⟨-, -, henabled, -⟩, -⟩
          rw [InterruptsEnabled, hrflags] at henabled
          exact absurd henabled hif
        · rintro ⟨hkept, -⟩
          exact absurd (hkept hdue).2 hif
    · have hdue : ¬v.InterruptDue := fun h => hpriority h.2.2
      rw [if_neg hpriority, entersWell_of_clear hclear]
      exact ⟨fun _ => ⟨fun h => absurd h hdue, fun h => absurd h hnmi⟩,
        fun _ => ⟨fun _ h => absurd h hdue, fun _ h => absurd h hnmi, hleft⟩⟩
  rw [if_neg hexternal]
  have hdue : ¬v.InterruptDue := fun h => hexternal h.2.1
  by_cases htype : v.header.injectedEvent.type = ia32NonMaskableInterrupt
  · have hnmi : v.NmiDue := ⟨hvalid, htype⟩
    rw [if_pos htype]
    by_cases hblocked : (v.vmcs .guestInterruptibilityState).testBit 3 = true
    · rw [if_neg (by simp [hblocked]), entersWell_of_clear (by simpa [setWindowExiting] using hclear)]
      have harmed := armed_setWindowExiting (v := v) (n := 22)
      constructor
      · rintro ⟨-, -, hdelivered⟩
        exact ⟨fun h => absurd h hdue,
          fun _ => ⟨fun hw => (hdelivered hw).2 htype harmed, .inl hblocked⟩⟩
      · rintro ⟨-, hkept⟩
        exact ⟨fun _ h => absurd h hdue, fun _ _ => harmed, fun hw => absurd hw (hkept hnmi).1⟩
    · rw [if_pos (by simp [hblocked])]
      change (v.injecting _ _ _ _).EntersWell w ↔ _
      rw [entersWell_of_nmi (injecting_injects (by decide)), injecting_nmiBlocked, injecting_armed]
      constructor
      · rintro ⟨⟨hpending, -, -⟩, harmed⟩
        refine ⟨fun h => absurd h hdue, fun _ => ⟨?_, .inr harmed⟩⟩
        rintro rfl
        obtain h | h := hpending <;> cases h
      · rintro ⟨-, hkept⟩
        obtain ⟨hdelivered, hwindow⟩ := hkept hnmi
        have hpending := hwaiting hdelivered ⟨hvalid, .inr htype⟩
        exact ⟨⟨.inr hpending, hnmi, hblocked⟩, hwindow.resolve_left hblocked⟩
  · have hnmi : ¬v.NmiDue := fun h => htype h.2
    have hidle : w = .idle := not_not.mp fun h => (hsound.mp h).2.elim hexternal htype
    rw [if_neg htype, entersWell_of_none]
    · simp [hdue, hnmi, hidle]
    · exact fun h => hexternal (by simpa [EventInjection.type] using h.2)
    · exact fun h => htype (by simpa [EventInjection.type] using h.2)

/-- The same event, with what decides on it apart from RFLAGS. -/
structure SameEvents (v v' : VtCustomVcpu) : Prop where
  injectedEvent : v'.header.injectedEvent = v.header.injectedEvent
  reg : v'.header.reg = v.header.reg
  information : v'.vmcs .vmentryInterruptionInformationField = v.vmcs .vmentryInterruptionInformationField
  controls : v'.vmcs .primaryProcessorBasedVmExecutionControls =
    v.vmcs .primaryProcessorBasedVmExecutionControls
  interruptibility : v'.vmcs .guestInterruptibilityState = v.vmcs .guestInterruptibilityState

theorem SameEvents.trans {v₁ v₂ v₃ : VtCustomVcpu} (h : SameEvents v₁ v₂) (h' : SameEvents v₂ v₃) :
    SameEvents v₁ v₃ where
  injectedEvent := h'.injectedEvent.trans h.injectedEvent
  reg := h'.reg.trans h.reg
  information := h'.information.trans h.information
  controls := h'.controls.trans h.controls
  interruptibility := h'.interruptibility.trans h.interruptibility

theorem SameEvents.interruptDue {v v' : VtCustomVcpu} (h : SameEvents v v') :
    v'.InterruptDue ↔ v.InterruptDue := by
  rw [InterruptDue, InterruptDue, h.injectedEvent, h.reg]

theorem SameEvents.nmiDue {v v' : VtCustomVcpu} (h : SameEvents v v') : v'.NmiDue ↔ v.NmiDue := by
  rw [NmiDue, NmiDue, h.injectedEvent]

theorem SameEvents.armed {v v' : VtCustomVcpu} (h : SameEvents v v') (n : Nat) :
    v'.Armed n ↔ v.Armed n := by
  rw [Armed, Armed, h.controls]

theorem SameEvents.nmiBlocked {v v' : VtCustomVcpu} (h : SameEvents v v') :
    v'.NmiBlocked ↔ v.NmiBlocked := by
  rw [NmiBlocked, NmiBlocked, h.interruptibility]

section Load

variable (v) (fixed : VmxFixedBits) (stack : VtInitialStack)

theorem sameEvents_loadGroup (c : StateCache) (select : Register → Bool) :
    SameEvents v (v.loadGroup fixed c select) := by
  unfold loadGroup
  split <;> exact ⟨rfl, rfl, rfl, rfl, rfl⟩

theorem sameEvents_loadControlRegisters : SameEvents v (v.loadControlRegisters fixed) := by
  have hgroup := sameEvents_loadGroup v fixed .cr Register.inCrGroup
  unfold loadControlRegisters
  split
  · exact ⟨rfl, rfl, rfl, rfl, rfl⟩
  · exact hgroup.trans ⟨rfl, rfl, by simp, by simp, by simp⟩

theorem sameEvents_loadEfer : SameEvents v (v.loadEfer fixed) := by
  have hgroup := sameEvents_loadGroup v fixed .ef (· == .efer)
  unfold loadEfer
  split
  · exact ⟨rfl, rfl, rfl, rfl, rfl⟩
  · exact hgroup.trans ⟨rfl, rfl, by simp, by simp, by simp⟩

theorem sameEvents_loadSyscallMsrs : SameEvents v v.loadSyscallMsrs := by
  unfold loadSyscallMsrs
  split <;> exact ⟨rfl, rfl, rfl, rfl, rfl⟩

theorem sameEvents_loadVmcs : SameEvents v (v.loadVmcs fixed) := by
  have hgroup (v : VtCustomVcpu) (c : StateCache) (select : Register → Bool) :=
    sameEvents_loadGroup v fixed c select
  have h := (hgroup v .gpr Register.inVtGprGroup).trans (hgroup _ .dr (· == .dr7))
  have h := h.trans (sameEvents_loadControlRegisters _ fixed)
  have h := (h.trans (hgroup _ .sr Register.inSrGroup)).trans (hgroup _ .fg Register.inFsGs)
  have h := (h.trans (hgroup _ .lt Register.inLtGroup)).trans (hgroup _ .dt Register.isDescriptorTable)
  have h := (h.trans (sameEvents_loadEfer _ fixed)).trans (hgroup _ .pa (· == .pat))
  exact (h.trans (hgroup _ .se Register.inSeGroup)).trans (sameEvents_loadSyscallMsrs _)

theorem sameEvents_schedule : SameEvents v (v.schedule stack).2 := by
  unfold schedule
  split <;> exact ⟨rfl, rfl, rfl, rfl, rfl⟩

/-- The guest starts with the RFLAGS of the structure. -/
theorem loadVmcs_rflags (hrflags : v.header.stateCache .gpr = true →
    v.header.reg .rflags = v.vmcs (.guest .rflags)) :
    (v.loadVmcs fixed).vmcs (.guest .rflags) = v.header.reg .rflags := by
  have hload := congrArg (fun state => Writeback.State.block state .rflags)
    (@writeback_loadVmcs v fixed)
  have hblock : ((v.loadVmcs fixed).writeback).block .rflags = (v.loadVmcs fixed).vmcs (.guest .rflags) :=
    rfl
  rw [← hblock, show (v.loadVmcs fixed).writeback.block .rflags = _ from hload]
  by_cases hvalid : v.header.stateCache .gpr = true
  · rw [hrflags hvalid]
    simp [Writeback.Protocol.load, vtProtocol, Writeback.Protocol.inBlock, vtHome, writeback, hvalid, block,
      inMsrAuto, Register.inScGroup]
  · simp [Writeback.Protocol.load, vtProtocol, Writeback.Protocol.inBlock, vtHome, writeback, hvalid, vtLoads,
      vtEncode]

end Load

theorem setEventInjection_injectedEvent :
    v.setEventInjection.header.injectedEvent = v.header.injectedEvent := by
  unfold setEventInjection
  dsimp only
  split
  · rfl
  · split
    · split
      · split <;> rfl
      · rfl
    · split
      · split <;> rfl
      · rfl

end VtCustomVcpu

namespace EventWait

variable {w : EventWait}

theorem noticed_idle : w.noticed ≠ .idle ↔ w ≠ .idle := by cases w <;> simp [noticed]

theorem noticed_delivered : w.noticed = .delivered ↔ w = .delivered := by cases w <;> simp [noticed]

theorem noticed_queued : w.noticed ≠ .queued := by cases w <;> simp [noticed]

theorem afterSet_idle {event : EventInjection} {inGuest : Bool} :
    afterSet event inGuest ≠ .idle ↔ event.IsInterrupt := by
  unfold afterSet
  by_cases h : event.IsInterrupt <;> cases inGuest <;> simp [h]

theorem afterSet_delivered {event : EventInjection} {inGuest : Bool} :
    afterSet event inGuest ≠ .delivered := by
  unfold afterSet
  by_cases h : event.IsInterrupt <;> cases inGuest <;> simp [h]

end EventWait

namespace VtEventRun

variable {s : VtEventRun} {event : EventInjection} {header : VirtualCpu} {cpu : Xsave.Features}
  {fixed : VmxFixedBits} {stack : VtInitialStack} {p : Processor} {hostVcpu : VirtualCpu} {vmcs : Vmcs}
  {kind : VtEventExit}

theorem EventsKept.set (h : s.EventsKept) : (s.next (.set event)).EventsKept where
  sound := EventWait.afterSet_idle
  information := h.information
  rflags := h.rflags
  interruptWaits hguest hw := by
    have hguest : s.inGuest = true := hguest
    have hw : EventWait.afterSet event s.inGuest = .waiting := hw
    rw [hguest, EventWait.afterSet] at hw
    split at hw <;> cases hw
  nmiWaits hguest hw := by
    have hguest : s.inGuest = true := hguest
    have hw : EventWait.afterSet event s.inGuest = .waiting := hw
    rw [hguest, EventWait.afterSet] at hw
    split at hw <;> cases hw
  left hw := absurd hw EventWait.afterSet_delivered

theorem EventsKept.host (h : s.EventsKept) (hpossible : s.Possible (.host header)) :
    (s.next (.host header)).EventsKept := by
  obtain ⟨-, hhost, hsame, hrflags⟩ := hpossible
  have hguest (hin : s.inGuest = true) : False := Bool.false_ne_true (hhost.symm.trans hin)
  exact
    { sound := (show header.injectedEvent = _ from hsame) ▸ h.sound
      information := h.information
      rflags := fun _ => hrflags
      interruptWaits := fun hin => (hguest hin).elim
      nmiWaits := fun hin => (hguest hin).elim
      left := (show header.injectedEvent = _ from hsame) ▸ h.left }

theorem EventsKept.enter (h : s.EventsKept) (hpossible : s.Possible (.enter cpu fixed stack p hostVcpu)) :
    (s.Delivers (.enter cpu fixed stack p hostVcpu) ↔ s.Kept (.enter cpu fixed stack p hostVcpu)) ∧
      (s.Kept (.enter cpu fixed stack p hostVcpu) →
        (s.next (.enter cpu fixed stack p hostVcpu)).EventsKept) := by
  obtain ⟨hstep, hhost⟩ := hpossible
  have hhost : s.inGuest = false := hhost
  obtain ⟨s', hs'⟩ := Option.ne_none_iff_exists'.mp hstep
  have hnext : s.next (.enter cpu fixed stack p hostVcpu) = s' := by rw [next, hs', Option.getD_some]
  obtain ⟨⟨stack', p', host', v'⟩, hswitch, hv'⟩ := Option.map_eq_some_iff.mp hs'
  rw [nvcVtSwitchToGuestVcpu_eq] at hswitch
  obtain ⟨_, -, hentered⟩ := Option.map_eq_some_iff.mp hswitch
  obtain rfl : v' = s.vcpu.entered fixed stack := by
    simp only [Prod.mk.injEq] at hentered
    exact hentered.2.2.2.symm
  -- The event is set up from what the VMCS was loaded with.
  have hsame : VtCustomVcpu.SameEvents s.vcpu ((s.vcpu.schedule stack).2.loadVmcs fixed) :=
    (VtCustomVcpu.sameEvents_schedule s.vcpu stack).trans (VtCustomVcpu.sameEvents_loadVmcs _ fixed)
  have hrflags : ((s.vcpu.schedule stack).2.loadVmcs fixed).vmcs (.guest .rflags) =
      ((s.vcpu.schedule stack).2.loadVmcs fixed).header.reg .rflags := by
    rw [hsame.reg, VtCustomVcpu.loadVmcs_rflags]
    · rw [(VtCustomVcpu.sameEvents_schedule s.vcpu stack).reg]
    · have hschedule : (s.vcpu.schedule stack).2.header = s.vcpu.header ∧
          (s.vcpu.schedule stack).2.vmcs = s.vcpu.vmcs := by
        unfold VtCustomVcpu.schedule
        split <;> exact ⟨rfl, rfl⟩
      rw [hschedule.1, hschedule.2]
      exact h.rflags hhost
  have hsound : s.wait.noticed ≠ .idle ↔
      ((s.vcpu.schedule stack).2.loadVmcs fixed).header.injectedEvent.IsInterrupt := by
    rw [hsame.injectedEvent, EventWait.noticed_idle]
    exact h.sound
  have hiff := VtCustomVcpu.setEventInjection_entersWell_iff (w := s.wait.noticed)
    (hsame.information.symm ▸ h.information hhost) hsound hrflags
    (fun hw => by
      rw [hsame.injectedEvent, hsame.armed, hsame.armed]
      exact h.left (EventWait.noticed_delivered.mp hw))
    EventWait.noticed_queued
  rw [hsame.interruptDue, hsame.nmiDue, hsame.armed, hsame.nmiBlocked, hsame.reg, ne_eq,
    EventWait.noticed_delivered] at hiff
  have hdelivers : s.Delivers (.enter cpu fixed stack p hostVcpu) ↔
      (s.vcpu.entered fixed stack).EntersWell s.wait.noticed := by
    rw [Delivers, hnext, ← hv']
  refine ⟨hdelivers.trans hiff, fun hkept => ?_⟩
  have hinjected := VtCustomVcpu.setEventInjection_injectedEvent
    (v := (s.vcpu.schedule stack).2.loadVmcs fixed)
  rw [hnext, ← hv']
  exact VtCustomVcpu.EntersWell.kept (hiff.mpr hkept) (hinjected.symm ▸ hsound)

theorem Exited.armed (h : s.Exited vmcs) (n : Nat) :
    { s.vcpu with vmcs }.Armed n ↔ s.vcpu.Armed n := by
  rw [VtCustomVcpu.Armed, VtCustomVcpu.Armed, ← h.controls]

section Exits

variable {v v' : VtCustomVcpu} {w : EventWait}

theorem next_of_resume (hhandle : kind.handle p { s.vcpu with vmcs } = (false, v')) :
    s.next (.exit vmcs cpu p hostVcpu kind) = ⟨v', true, s.wait.entered v'⟩ := by
  rw [next, step, hhandle]
  rfl

/-- A switch to the host leaves the VMCS, and the structure gets RFLAGS from it. -/
theorem next_of_host (hhandle : kind.handle p { s.vcpu with vmcs } = (true, v'))
    (hstep : s.step (.exit vmcs cpu p hostVcpu kind) ≠ none) :
    ∃ left, s.next (.exit vmcs cpu p hostVcpu kind) = ⟨left, false, s.wait⟩ ∧ left.vmcs = v'.vmcs ∧
      left.header.injectedEvent = v'.header.injectedEvent ∧
        left.header.reg .rflags = v'.vmcs (.guest .rflags) := by
  obtain ⟨s', hs'⟩ := Option.ne_none_iff_exists'.mp hstep
  have hnext : s.next (.exit vmcs cpu p hostVcpu kind) = s' := by rw [next, hs', Option.getD_some]
  rw [step, hhandle] at hs'
  obtain ⟨⟨p', left⟩, hswitch, hleft⟩ := Option.map_eq_some_iff.mp hs'
  obtain ⟨⟨p'', header⟩, hleave, heq⟩ := Option.map_eq_some_iff.mp hswitch
  obtain ⟨-, -, hheader⟩ := leaveGuest_eq_some hleave
  obtain ⟨rfl, rfl⟩ := Prod.mk.inj heq
  refine ⟨_, hnext.trans hleft.symm, rfl, ?_, ?_⟩
  · rw [hheader]
    rfl
  · rw [hheader]
    rfl

/-- An exit at a window that closes it leaves the other one as it was. -/
theorem Exited.resetWindow {n m : Nat} (h : s.Exited vmcs) (hother : m ≠ n)
    (hvmcs : v.vmcs = resetWindowExiting n vmcs) :
    (v.vmcs .vmentryInterruptionInformationField).testBit 31 = false ∧ ¬v.Armed n ∧
      (v.Armed m ↔ s.vcpu.Armed m) := by
  have hinformation : v.vmcs .vmentryInterruptionInformationField =
      vmcs .vmentryInterruptionInformationField := by
    rw [hvmcs]
    simp [resetWindowExiting]
  have hcontrols : v.vmcs .primaryProcessorBasedVmExecutionControls =
      setBit (s.vcpu.vmcs .primaryProcessorBasedVmExecutionControls) n false := by
    rw [hvmcs, ← h.controls]
    simp [resetWindowExiting]
  unfold VtCustomVcpu.Armed
  rw [hinformation, hcontrols, testBit_setBit, testBit_setBit, if_pos rfl, if_neg hother]
  exact ⟨h.information, Bool.false_ne_true, Iff.rfl⟩

/-- A vCPU that the host gets back. -/
theorem EventsKept.of_host (hsound : w ≠ .idle ↔ v.header.injectedEvent.IsInterrupt)
    (hclear : (v.vmcs .vmentryInterruptionInformationField).testBit 31 = false)
    (hrflags : v.header.reg .rflags = v.vmcs (.guest .rflags))
    (hleft : w = .delivered →
      (v.header.injectedEvent.type = ia32ExternalInterrupt → ¬v.Armed interruptWindowExiting) ∧
        (v.header.injectedEvent.type = ia32NonMaskableInterrupt → ¬v.Armed nmiWindowExiting)) :
    EventsKept ⟨v, false, w⟩ where
  sound := hsound
  information _ := hclear
  rflags _ _ := hrflags
  interruptWaits hguest := (nomatch hguest)
  nmiWaits hguest := (nomatch hguest)
  left := hleft

/-- An exit whose handler injects no interrupt and asks for no window. -/
theorem EventsKept.quiet {toHost : Bool} (h : s.EventsKept)
    (hstep : s.step (.exit vmcs cpu p hostVcpu kind) ≠ none)
    (hhandle : kind.handle p { s.vcpu with vmcs } = (toHost, v))
    (hevent : v.header.injectedEvent = s.vcpu.header.injectedEvent)
    (hexternal : ¬v.Injects ia32ExternalInterrupt) (hnmi : ¬v.Injects ia32NonMaskableInterrupt)
    (hclear : toHost = true → (v.vmcs .vmentryInterruptionInformationField).testBit 31 = false)
    (hinterruptWaits : s.wait = .waiting → v.InterruptDue → v.Armed interruptWindowExiting)
    (hnmiWaits : s.wait = .waiting → v.NmiDue → v.Armed nmiWindowExiting)
    (harmed : (v.Armed interruptWindowExiting → s.vcpu.Armed interruptWindowExiting) ∧
      (v.Armed nmiWindowExiting → s.vcpu.Armed nmiWindowExiting)) :
    ((s.next (.exit vmcs cpu p hostVcpu kind)).inGuest = true →
        (s.next (.exit vmcs cpu p hostVcpu kind)).vcpu.EntersWell s.wait) ∧
      (s.next (.exit vmcs cpu p hostVcpu kind)).EventsKept := by
  have hsound : s.wait ≠ .idle ↔ v.header.injectedEvent.IsInterrupt := hevent.symm ▸ h.sound
  have hleft (hw : s.wait = .delivered) :
      (v.header.injectedEvent.type = ia32ExternalInterrupt → ¬v.Armed interruptWindowExiting) ∧
        (v.header.injectedEvent.type = ia32NonMaskableInterrupt → ¬v.Armed nmiWindowExiting) := by
    rw [hevent]
    exact ⟨fun ht ha => (h.left hw).1 ht (harmed.1 ha), fun ht ha => (h.left hw).2 ht (harmed.2 ha)⟩
  cases toHost with
  | false =>
      have henters := (VtCustomVcpu.entersWell_of_none hexternal hnmi).mpr
        ⟨hinterruptWaits, hnmiWaits, hleft⟩
      rw [next_of_resume hhandle]
      exact ⟨fun _ => henters, henters.kept hsound⟩
  | true =>
      obtain ⟨left, hnext, hvmcs, hinjected, hrflags⟩ := next_of_host hhandle hstep
      rw [hnext]
      refine ⟨fun hguest => (nomatch hguest), EventsKept.of_host ?_ ?_ ?_ ?_⟩
      · rw [hinjected]
        exact hsound
      · rw [hvmcs]
        exact hclear rfl
      · rw [hvmcs]
        exact hrflags
      · rw [hinjected, VtCustomVcpu.Armed, VtCustomVcpu.Armed, hvmcs]
        exact hleft

theorem EventsKept.interruptWindow (h : s.EventsKept)
    (hpossible : s.Possible (.exit vmcs cpu p hostVcpu .interruptWindow)) :
    (s.Delivers (.exit vmcs cpu p hostVcpu .interruptWindow) ↔ ¬s.vcpu.InterruptDue) ∧
      (¬s.vcpu.InterruptDue → (s.next (.exit vmcs cpu p hostVcpu .interruptWindow)).EventsKept) := by
  obtain ⟨hstep, hguest, hexited, hwindow, -, -⟩ := hpossible
  have hcondition : (s.vcpu.header.injectedEvent.valid &&
      s.vcpu.header.injectedEvent.type == ia32ExternalInterrupt &&
        decide (s.vcpu.header.injectedEvent.priority > s.vcpu.header.reg .cr8 % 2 ^ 4)) = true ↔
      s.vcpu.InterruptDue := by
    simp [VtCustomVcpu.InterruptDue, and_assoc]
  by_cases hdue : s.vcpu.InterruptDue
  · refine ⟨iff_of_false ?_ (not_not.mpr hdue), fun hnot => absurd hdue hnot⟩
    rintro ⟨henters, -⟩
    have hhandle : VtEventExit.interruptWindow.handle p { s.vcpu with vmcs } = (false,
        VtCustomVcpu.injecting { s.vcpu with vmcs } s.vcpu.header.injectedEvent.vector
          ia32ExternalInterrupt (s.vcpu.header.injectedEvent.attributes.testBit 11)
          s.vcpu.header.injectedEvent.errorCode) := if_pos (hcondition.mpr hdue)
    rw [next_of_resume hhandle] at henters
    have hnot := ((VtCustomVcpu.entersWell_of_external
      (VtCustomVcpu.injecting_injects (by decide))).mp (henters rfl)).2
    rw [VtCustomVcpu.injecting_armed, hexited.armed] at hnot
    exact hnot hwindow
  · have hhandle : ∃ toHost v, VtEventExit.interruptWindow.handle p { s.vcpu with vmcs } = (toHost, v) ∧
        v.vmcs = resetWindowExiting interruptWindowExiting vmcs ∧
          v.header.injectedEvent = s.vcpu.header.injectedEvent ∧
            v.header.reg .cr8 = s.vcpu.header.reg .cr8 := by
      unfold VtEventExit.handle VtCustomVcpu.nvcVtInterruptWindowCvexitHandler
      dsimp only
      rw [if_neg (hcondition.not.mpr hdue)]
      split <;> exact ⟨_, _, rfl, rfl, rfl, rfl⟩
    obtain ⟨toHost, v, hhandle, hvmcs, hevent, hcr8⟩ := hhandle
    obtain ⟨hvclear, harmed⟩ := hexited.resetWindow (by decide : nmiWindowExiting ≠ interruptWindowExiting) hvmcs
    have hnotDue : ¬v.InterruptDue := by
      rw [VtCustomVcpu.InterruptDue, hevent, hcr8]
      exact hdue
    have hquiet := h.quiet hstep hhandle hevent (VtCustomVcpu.not_injects_of_clear hvclear _)
      (VtCustomVcpu.not_injects_of_clear hvclear _) (fun _ => hvclear) (fun _ h => absurd h hnotDue)
      (fun hw hnmi => harmed.2.mpr (h.nmiWaits hguest hw (by
        rw [VtCustomVcpu.NmiDue, ← hevent]
        exact hnmi)))
      ⟨fun ha => absurd ha harmed.1, harmed.2.mp⟩
    exact ⟨⟨fun _ => hdue, fun _ => ⟨hquiet.1, fun _ h => absurd h hdue⟩⟩, fun _ => hquiet.2⟩

theorem EventsKept.nmiWindow (h : s.EventsKept)
    (hpossible : s.Possible (.exit vmcs cpu p hostVcpu .nmiWindow)) :
    (s.Delivers (.exit vmcs cpu p hostVcpu .nmiWindow) ↔ ¬s.vcpu.NmiDue) ∧
      (¬s.vcpu.NmiDue → (s.next (.exit vmcs cpu p hostVcpu .nmiWindow)).EventsKept) := by
  obtain ⟨hstep, hguest, hexited, hwindow, -⟩ := hpossible
  have hcondition : (s.vcpu.header.injectedEvent.valid &&
      s.vcpu.header.injectedEvent.type == ia32NonMaskableInterrupt) = true ↔ s.vcpu.NmiDue := by
    simp [VtCustomVcpu.NmiDue]
  by_cases hdue : s.vcpu.NmiDue
  · refine ⟨iff_of_false ?_ (not_not.mpr hdue), fun hnot => absurd hdue hnot⟩
    rintro ⟨henters, -⟩
    have hhandle : VtEventExit.nmiWindow.handle p { s.vcpu with vmcs } = (false,
        VtCustomVcpu.injecting { s.vcpu with vmcs } ia32NmiInterrupt ia32NonMaskableInterrupt false 0) :=
      if_pos (hcondition.mpr hdue)
    rw [next_of_resume hhandle] at henters
    have hnot := ((VtCustomVcpu.entersWell_of_nmi
      (VtCustomVcpu.injecting_injects (by decide))).mp (henters rfl)).2
    rw [VtCustomVcpu.injecting_armed, hexited.armed] at hnot
    exact hnot hwindow
  · have hhandle : ∃ toHost v, VtEventExit.nmiWindow.handle p { s.vcpu with vmcs } = (toHost, v) ∧
        v.vmcs = resetWindowExiting nmiWindowExiting vmcs ∧
          v.header.injectedEvent = s.vcpu.header.injectedEvent ∧
            v.header.reg .cr8 = s.vcpu.header.reg .cr8 := by
      unfold VtEventExit.handle VtCustomVcpu.nvcVtNmiWindowCvexitHandler
      dsimp only
      rw [if_neg (hcondition.not.mpr hdue)]
      split <;> exact ⟨_, _, rfl, rfl, rfl, rfl⟩
    obtain ⟨toHost, v, hhandle, hvmcs, hevent, hcr8⟩ := hhandle
    obtain ⟨hvclear, harmed⟩ := hexited.resetWindow (by decide : interruptWindowExiting ≠ nmiWindowExiting) hvmcs
    have hnotDue : ¬v.NmiDue := by
      rw [VtCustomVcpu.NmiDue, hevent]
      exact hdue
    have hquiet := h.quiet hstep hhandle hevent (VtCustomVcpu.not_injects_of_clear hvclear _)
      (VtCustomVcpu.not_injects_of_clear hvclear _) (fun _ => hvclear)
      (fun hw hinterrupt => harmed.2.mpr (h.interruptWaits hguest hw (by
        rw [VtCustomVcpu.InterruptDue, ← hevent, ← hcr8]
        exact hinterrupt)))
      (fun _ h => absurd h hnotDue) ⟨harmed.2.mp, fun ha => absurd ha harmed.1⟩
    exact ⟨⟨fun _ => hdue, fun _ => ⟨hquiet.1, fun _ h => absurd h hdue⟩⟩, fun _ => hquiet.2⟩

theorem EventsKept.other {raised : Option (Nat × Bool × Nat)} {toHost : Bool} (h : s.EventsKept)
    (hpossible : s.Possible (.exit vmcs cpu p hostVcpu (.other header raised toHost))) :
    s.Delivers (.exit vmcs cpu p hostVcpu (.other header raised toHost)) ∧
      (s.next (.exit vmcs cpu p hostVcpu (.other header raised toHost))).EventsKept := by
  obtain ⟨hstep, hguest, hexited, hevent, hcr8⟩ := hpossible
  have hhandle : ∃ leaves v, (VtEventExit.other header raised toHost).handle p { s.vcpu with vmcs } =
      (leaves, v) ∧ v.header = header ∧ (∀ n, v.Armed n ↔ s.vcpu.Armed n) ∧
        ¬v.Injects ia32ExternalInterrupt ∧ ¬v.Injects ia32NonMaskableInterrupt ∧
          (leaves = true → (v.vmcs .vmentryInterruptionInformationField).testBit 31 = false) := by
    cases raised with
    | none =>
        have hnot := VtCustomVcpu.not_injects_of_clear (v := { s.vcpu with header, vmcs })
          hexited.information
        exact ⟨toHost, { s.vcpu with header, vmcs }, rfl, rfl, hexited.armed, hnot _, hnot _,
          fun _ => hexited.information⟩
    | some exception =>
        obtain ⟨vector, deliver, errorCode⟩ := exception
        have htype : (VtCustomVcpu.injecting { s.vcpu with header, vmcs } vector ia32HardwareExceptionType
            deliver errorCode).Injects ia32HardwareExceptionType :=
          VtCustomVcpu.injecting_injects (by decide)
        refine ⟨false, VtCustomVcpu.injecting { s.vcpu with header, vmcs } vector ia32HardwareExceptionType
          deliver errorCode, rfl, rfl, fun n => ?_, fun hinjects => ?_, fun hinjects => ?_,
          fun h => absurd h Bool.false_ne_true⟩
        · rw [VtCustomVcpu.injecting_armed]
          exact hexited.armed n
        · exact absurd (htype.2.symm.trans hinjects.2) (by decide)
        · exact absurd (htype.2.symm.trans hinjects.2) (by decide)
  obtain ⟨leaves, v, hhandle, hheader, harmed, hexternal, hnmi, hclear⟩ := hhandle
  have hquiet := h.quiet hstep hhandle (hheader ▸ hevent) hexternal hnmi hclear
    (fun hw hinterrupt => (harmed _).mpr (h.interruptWaits hguest hw (by
      rw [VtCustomVcpu.InterruptDue, ← hevent, ← hcr8, ← hheader]
      exact hinterrupt)))
    (fun hw hdue => (harmed _).mpr (h.nmiWaits hguest hw (by
      rw [VtCustomVcpu.NmiDue, ← hevent, ← hheader]
      exact hdue)))
    ⟨(harmed _).mp, (harmed _).mp⟩
  exact ⟨⟨hquiet.1, trivial⟩, hquiet.2⟩

theorem EventsKept.resume {condition : Prop} (h : s.EventsKept)
    (hhandle : kind.handle p { s.vcpu with vmcs } = (false, v))
    (hevent : v.header.injectedEvent = s.vcpu.header.injectedEvent)
    (hiff : v.EntersWell s.wait ↔ condition) :
    (((s.next (.exit vmcs cpu p hostVcpu kind)).inGuest = true →
        (s.next (.exit vmcs cpu p hostVcpu kind)).vcpu.EntersWell s.wait) ↔ condition) ∧
      (condition → (s.next (.exit vmcs cpu p hostVcpu kind)).EventsKept) := by
  rw [next_of_resume hhandle]
  refine ⟨⟨fun henters => hiff.mp (henters rfl), fun hc _ => hiff.mpr hc⟩, fun hc => ?_⟩
  exact (hiff.mpr hc).kept (hevent.symm ▸ h.sound)

/-- The vCPU with what the guest writes to CR8. -/
def withCr8 (s : VtEventRun) (vmcs : Vmcs) (cr8 : Nat) : VtCustomVcpu :=
  { s.vcpu with vmcs, header.reg := Function.update s.vcpu.header.reg .cr8 cr8 }

section WriteCr8

variable {cr8 : Nat}

theorem withCr8_interruptDue (h : s.EventsKept) (hinterrupt : s.wait.Pending) :
    (s.withCr8 vmcs cr8).InterruptDue ↔
      s.vcpu.header.injectedEvent.type = ia32ExternalInterrupt ∧
        cr8 % 2 ^ 4 < s.vcpu.header.injectedEvent.priority := by
  have hidle : s.wait ≠ .idle := by
    obtain hw | hw := hinterrupt <;> simp [hw]
  have hvalid := (h.sound.mp hidle).1
  simp [VtCustomVcpu.InterruptDue, withCr8, hvalid]

/-- CR8 is low enough, and interrupts are enabled. -/
theorem withCr8_injecting_iff (h : s.EventsKept) (hexited : s.Exited vmcs)
    (hpriority : cr8 < s.vcpu.header.injectedEvent.priority)
    (htype : s.vcpu.header.injectedEvent.type = ia32ExternalInterrupt)
    (hif : (vmcs (.guest .rflags)).testBit rflagsIf = true) :
    ((s.withCr8 vmcs cr8).injecting s.vcpu.header.injectedEvent.vector ia32ExternalInterrupt
        (s.vcpu.header.injectedEvent.attributes.testBit 11)
        s.vcpu.header.injectedEvent.errorCode).EntersWell s.wait ↔
      s.wait.Pending ∧ s.vcpu.header.injectedEvent.attributes.testBit 11 = false ∧
        { s.vcpu with vmcs }.Unshadowed ∧ ¬s.vcpu.Armed interruptWindowExiting := by
  have harmed : (s.withCr8 vmcs cr8).Armed interruptWindowExiting ↔
      s.vcpu.Armed interruptWindowExiting := hexited.armed _
  have hvector : s.vcpu.header.injectedEvent.vector % 2 ^ 8 = s.vcpu.header.injectedEvent.vector :=
    Nat.mod_mod _ _
  have hlow : cr8 % 2 ^ 4 < s.vcpu.header.injectedEvent.priority :=
    Nat.lt_of_le_of_lt (Nat.mod_le _ _) hpriority
  rw [VtCustomVcpu.entersWell_of_external (VtCustomVcpu.injecting_injects (by decide)),
    VtCustomVcpu.injecting_armed, VtCustomVcpu.injecting_unshadowed,
    VtCustomVcpu.injecting_interruptsEnabled, VtCustomVcpu.injecting_information, information_vector,
    information_deliver, harmed]
  constructor
  · rintro ⟨⟨hpending, -, -, hunshadowed, -, hdeliver⟩, hnot⟩
    exact ⟨hpending, hdeliver, hunshadowed, hnot⟩
  · rintro ⟨hpending, hdeliver, hunshadowed, hnot⟩
    have hdue : (s.withCr8 vmcs cr8).InterruptDue :=
      (withCr8_interruptDue h hpending).mpr ⟨htype, hlow⟩
    exact ⟨⟨hpending, hdue, hif, hunshadowed, hvector, hdeliver⟩, hnot⟩

theorem EventsKept.writeCr8 {gpr : Fin 16} (h : s.EventsKept)
    (hpossible : s.Possible (.exit vmcs cpu p hostVcpu (.writeCr8 gpr))) :
    (s.Delivers (.exit vmcs cpu p hostVcpu (.writeCr8 gpr)) ↔
        s.Kept (.exit vmcs cpu p hostVcpu (.writeCr8 gpr))) ∧
      (s.Kept (.exit vmcs cpu p hostVcpu (.writeCr8 gpr)) →
        (s.next (.exit vmcs cpu p hostVcpu (.writeCr8 gpr))).EventsKept) := by
  obtain ⟨-, hguest, hexited, -⟩ := hpossible
  have htypes : ia32ExternalInterrupt ≠ ia32NonMaskableInterrupt := by decide
  have hdelivers : s.Delivers (.exit vmcs cpu p hostVcpu (.writeCr8 gpr)) ↔
      ((s.next (.exit vmcs cpu p hostVcpu (.writeCr8 gpr))).inGuest = true →
        (s.next (.exit vmcs cpu p hostVcpu (.writeCr8 gpr))).vcpu.EntersWell s.wait) :=
    and_iff_left trivial
  rw [hdelivers]
  unfold Kept
  dsimp only
  generalize hcr8 : VtCustomVcpu.exitRegisters { s.vcpu with vmcs } p (.gpr gpr) = cr8
  have hhandle : (VtEventExit.writeCr8 gpr).handle p { s.vcpu with vmcs } = (false,
      VtCustomVcpu.nvcVtCrAccessCvexitHandlerCr8 { s.vcpu with vmcs } p gpr) := rfl
  rw [VtCustomVcpu.nvcVtCrAccessCvexitHandlerCr8, hcr8] at hhandle
  dsimp only at hhandle
  have hclear : ((s.withCr8 vmcs cr8).vmcs .vmentryInterruptionInformationField).testBit 31 = false :=
    hexited.information
  by_cases hlow : cr8 < s.vcpu.header.injectedEvent.priority ∧
      s.vcpu.header.injectedEvent.type = ia32ExternalInterrupt
  · rw [if_pos (by simpa using hlow)] at hhandle
    rw [if_pos hlow]
    by_cases hif : (vmcs (.guest .rflags)).testBit rflagsIf = true
    · rw [if_pos hif] at hhandle ⊢
      exact h.resume hhandle rfl (withCr8_injecting_iff h hexited hlow.1 hlow.2 hif)
    · rw [if_neg hif] at hhandle ⊢
      have harmed : VtCustomVcpu.Armed { s.withCr8 vmcs cr8 with
          vmcs := setWindowExiting interruptWindowExiting (s.withCr8 vmcs cr8).vmcs }
            interruptWindowExiting := VtCustomVcpu.armed_setWindowExiting
      refine h.resume hhandle rfl ((VtCustomVcpu.entersWell_of_clear ?_).trans ?_)
      · simpa [setWindowExiting] using hexited.information
      · constructor
        · rintro ⟨-, -, hleft⟩ hw
          exact (hleft hw).1 hlow.2 harmed
        · intro hw
          exact ⟨fun _ _ => harmed, fun _ hnmi => absurd (hlow.2.symm.trans hnmi.2) htypes,
            fun hdelivered => absurd hdelivered hw⟩
  · rw [if_neg (by simpa using hlow)] at hhandle
    rw [if_neg hlow]
    have harmed (n : Nat) : (s.withCr8 vmcs cr8).Armed n ↔ s.vcpu.Armed n := hexited.armed n
    refine h.resume (v := s.withCr8 vmcs cr8) hhandle rfl
      ((VtCustomVcpu.entersWell_of_clear hclear).trans ?_)
    rw [harmed, harmed]
    constructor
    · rintro ⟨hwaits, -, -⟩ hw htype hlow
      exact hwaits hw ((withCr8_interruptDue h (.inr hw)).mpr ⟨htype, hlow⟩)
    · intro hwaits
      refine ⟨fun hw hdue => ?_, h.nmiWaits hguest, h.left⟩
      obtain ⟨htype, hlow⟩ := (withCr8_interruptDue h (.inr hw)).mp hdue
      exact hwaits hw htype hlow

end WriteCr8

end Exits

open Transition

variable {steps : List VtEventStep}

/-- A vCPU that has not run, with what the host set. -/
def Created (s : VtEventRun) : Prop :=
  s.inGuest = false ∧ (∀ c, s.vcpu.header.stateCache c = false) ∧
    (s.vcpu.vmcs .vmentryInterruptionInformationField).testBit 31 = false ∧
      s.wait = EventWait.afterSet s.vcpu.header.injectedEvent false

theorem Created.kept (h : s.Created) : s.EventsKept := by
  obtain ⟨hhost, hcache, hclear, hwait⟩ := h
  have hguest (hin : s.inGuest = true) : False := Bool.false_ne_true (hhost.symm.trans hin)
  exact
    { sound := hwait ▸ EventWait.afterSet_idle
      information := fun _ => hclear
      rflags := fun _ hvalid => absurd ((hcache .gpr).symm.trans hvalid) Bool.false_ne_true
      interruptWaits := fun hin => (hguest hin).elim
      nmiWaits := fun hin => (hguest hin).elim
      left := fun hw => absurd (hwait.symm.trans hw) EventWait.afterSet_delivered }

theorem EventsKept.delivers_iff {e : VtEventStep} (h : s.EventsKept) (hpossible : s.Possible e) :
    (s.Delivers e ↔ s.Kept e) ∧ (s.Kept e → (s.next e).EventsKept) := by
  cases e with
  | set event => exact ⟨Iff.rfl, fun _ => h.set⟩
  | host header => exact ⟨Iff.rfl, fun _ => h.host hpossible⟩
  | enter cpu fixed stack p hostVcpu => exact h.enter hpossible
  | exit vmcs cpu p hostVcpu kind =>
      cases kind with
      | interruptWindow => exact h.interruptWindow hpossible
      | nmiWindow => exact h.nmiWindow hpossible
      | writeCr8 gpr => exact h.writeCr8 hpossible
      | other header raised toHost =>
          exact ⟨iff_of_true (h.other hpossible).1 trivial, fun _ => (h.other hpossible).2⟩

/-- Events are delivered as they should be in exactly the runs in which no entry has an interrupt with
interrupts disabled or an event that was injected before, and no exit at a window has one to inject. -/
theorem vtEventsDelivered_iff (hcreated : s.Created) (hpossible : Along Possible next s steps) :
    Along Delivers next s steps ↔ Along Kept next s steps :=
  along_iff (fun _ _ hkept hstep => (EventsKept.delivers_iff hkept hstep).1)
    (fun _ _ hkept hstep => (EventsKept.delivers_iff hkept hstep).2) hcreated.kept hpossible

/-! The host sets an NMI, or an interrupt for a guest that has them disabled. -/

def newEventRun : VtEventRun := ⟨newVtVcpu, false, .idle⟩

def disabledInterrupt : EventInjection := ⟨0x20 + 2 ^ 27 + 2 ^ 31, 0⟩

def firstEntry : VtEventStep := .enter anyFeatures anyFixedBits ⟨0, false⟩ zeroProcessor zeroVirtualCpu

theorem newEventRun_created : newEventRun.Created := ⟨rfl, fun _ => rfl, rfl, rfl⟩

theorem firstEntry_possible (event : EventInjection) :
    Along Possible next newEventRun [.set event, firstEntry] := by
  refine ⟨⟨Option.some_ne_none _, trivial⟩, ⟨?_, rfl⟩, trivial⟩
  have hloadable : GuestLoadable anyFeatures newVtVcpu.header zeroProcessor :=
    ⟨⟨fun c h => absurd h Bool.false_ne_true, fun _ => rfl⟩, rfl⟩
  have henter : zeroProcessor.enterGuest anyFeatures Register.isVtLate
      { newVtVcpu.header with injectedEvent := event } = _ :=
    enterGuest_of_loadable ⟨hloadable.area, hloadable.xcr0⟩
  rw [next, newEventRun, firstEntry]
  simp only [step, Option.getD_some, nvcVtSwitchToGuestVcpu_eq, henter, Option.map_some]
  exact Option.some_ne_none _

def firstNmi : EventInjection := ⟨2 + 2 * 2 ^ 8 + 2 ^ 31, 0⟩

theorem firstNmi_delivered : Along Delivers next newEventRun [.set firstNmi, firstEntry] := by
  apply (vtEventsDelivered_iff newEventRun_created (firstEntry_possible firstNmi)).mpr
  have hwait : (newEventRun.next (.set firstNmi)).wait = EventWait.afterSet firstNmi false := rfl
  have hunarmed : ¬newVtVcpu.Armed nmiWindowExiting := by
    rw [VtCustomVcpu.Armed]
    decide
  refine ⟨trivial, ⟨fun hdue => absurd hdue.2.1 (by decide), fun _ => ⟨?_, .inr hunarmed⟩⟩, trivial⟩
  rw [hwait]
  exact EventWait.afterSet_delivered

/-- The interrupt is injected although RFLAGS.IF is clear. -/
theorem not_forall_vtEventsDelivered :
    ¬∀ (s : VtEventRun) (steps : List VtEventStep), s.Created → Along Possible next s steps →
      Along Delivers next s steps := by
  intro h
  have hpossible := firstEntry_possible disabledInterrupt
  have hdelivers := (h _ _ newEventRun_created hpossible).2.1
  have hkept := (newEventRun_created.kept.delivers_iff hpossible.1).2 trivial
  have henabled := ((hkept.delivers_iff hpossible.2.1).1.mp hdelivers).1 ⟨by decide, by decide, by decide⟩
  exact absurd henabled.2 (by decide)

end VtEventRun

end NoirVisor
