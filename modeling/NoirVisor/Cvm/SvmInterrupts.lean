import NoirVisor.Cvm.SvmEvents
import NoirVisor.Transition

/-!
# External interrupts of a virtual CPU on SVM

An interrupt that the host sets waits as a virtual one until the guest opens its window, and is injected
there. It is lost only if it is set while the guest runs, or if an exit interrupts its delivery.
-/

namespace NoirVisor

open SvmCustomVcpu (nmiInterrupt)

namespace EventState

variable {e e₁ e' : EventState} {i : EventInjection} {toHost : Bool} {code : Int}

/-- The processor is asked for the window of this interrupt. -/
structure Armed (i : EventInjection) (e : EventState) : Prop where
  virq : e.prevVirq = true
  pending : e.virtualIrq % 2 = 1
  vector : e.vector = i.vector
  priority : e.priority = i.priority

theorem Armed.of_sameWindows (h : e.Armed i) (hsame : e.SameWindows e') : e'.Armed i where
  virq := hsame.prevVirq.trans h.virq
  pending := by rw [hsame.virtualIrq, h.pending]
  vector := hsame.vector.trans h.vector
  priority := hsame.priority.trans h.priority

theorem asked_of_not_external (h : ¬e.injected.IsExternal) : e.asked = e := by
  refine if_neg fun hasks => h ?_
  rwa [Bool.and_eq_true_iff, beq_iff_eq] at hasks

theorem asked_of_external (h : e.injected.IsExternal) : e.asked = { e with prevVirq := true } := by
  refine if_pos ?_
  rwa [Bool.and_eq_true_iff, beq_iff_eq]

theorem entered_of_type (htype : e.injected.type ≠ 0) (hvector : e.injected.vector ≠ nmiInterrupt) :
    e.entered = { e with injection := e.injected } := (if_pos htype).trans (if_neg hvector)

theorem entered_of_virq (htype : e.injected.type = 0) (hvirq : e.prevVirq = true) :
    e.entered = { e with
      virtualIrq := e.injected.valid.toNat
      vector := e.injected.vector
      priority := e.injected.priority } := (if_neg (not_not.mpr htype)).trans (if_pos hvirq)

/-- An interrupt in the structure is asked for at the next entry. -/
theorem armed_of_external (h : e.injected.IsExternal) : e.asked.entered.Armed e.injected := by
  have hentered := entered_of_virq (e := { e with prevVirq := true }) h.2 rfl
  rw [asked_of_external h, hentered]
  refine ⟨rfl, ?_, rfl, rfl⟩
  dsimp only
  rw [h.1]
  rfl

/-- A run that ends asks again at the next entry. -/
theorem Armed.passes_host (h : e.Armed i) (hpasses : e.Passes true e')
    (hvalid : e.injection.valid = false) : e'.asked.entered.Armed i := by
  have harmed := h.of_sameWindows hpasses.sameWindows
  obtain hsaved | hraised := hpasses.injected_host
  · have hinjected : e'.injected = ⟨e.virqAttributes, e.injection.errorCode⟩ := by
      rw [hsaved]
      unfold saved
      rw [hvalid, h.virq]
      rfl
    have hexternal : e'.injected.IsExternal := by
      rw [hinjected]
      exact ⟨virqAttributes_valid.mpr h.pending, virqAttributes_type⟩
    have hentered := armed_of_external hexternal
    refine ⟨hentered.virq, hentered.pending, hentered.vector.trans ?_, hentered.priority.trans ?_⟩
    · rw [hinjected, virqAttributes_vector, h.vector]
      exact Nat.mod_mod _ _
    · rw [hinjected, virqAttributes_priority, h.priority]
      exact Nat.mod_mod _ _
  · have htype : e'.injected.type ≠ 0 := by
      rw [hraised.2.1]
      decide
    rw [asked_of_not_external hraised.not_external, entered_of_type htype hraised.2.2]
    exact ⟨harmed.virq, harmed.pending, harmed.vector, harmed.priority⟩

theorem Exits.plain (h : e.Exits e₁) (hplain : e.injection.Plain) : e₁.injection.Plain := by
  obtain ⟨⟨attributes, errorCode⟩, rfl | rfl, rfl⟩ := h
  · exact fun htype => absurd (by simp [EventInjection.type]) htype
  · exact hplain.cleared _

theorem Passes.not_external (h : e.Passes toHost e') (hvalid : e.injection.valid = false) :
    ¬e'.injection.IsExternal := by
  obtain hsame | hraised := h.injection
  · rw [hsame]
    exact fun hexternal => Bool.false_ne_true (hvalid.symm.trans hexternal.1)
  · exact hraised.not_external

theorem Passes.plain_injection (h : e.Passes toHost e') (hplain : e.injection.Plain) :
    e'.injection.Plain := by
  obtain hsame | hraised := h.injection
  · rwa [hsame]
  · exact hraised.plain

theorem Passes.plain_injected (h : e.Passes toHost e') (hinjected : e.injected.Plain)
    (hinjection : e.injection.Plain) : e'.injected.Plain := by
  cases toHost with
  | false => rwa [h.injected_guest]
  | true =>
      obtain hsaved | hraised := h.injected_host
      · rw [hsaved]
        unfold saved
        dsimp only
        split
        · exact fun htype => absurd virqAttributes_type htype
        · exact hinjection
      · exact hraised.plain

/-- Without a virtual interrupt the host finds none. -/
theorem Passes.unasked (h : e.Passes true e') (hvirq : e.prevVirq = false)
    (hvalid : e.injection.valid = false) : ¬e'.injected.IsExternal := by
  obtain hsaved | hraised := h.injected_host
  · rw [hsaved]
    unfold saved
    rw [hvirq, Bool.and_false]
    exact fun hexternal => Bool.false_ne_true (hvalid.symm.trans hexternal.1)
  · exact hraised.not_external

/-- Without an NMI that waits there are two kinds of exits. -/
theorem Handled.of_no_nmi (h : e.Handled code toHost e') (hnmi : e.prevNmi = false) :
    if code = 0x64 ∧ e.prevVirq = true then toHost = false ∧ e' = e.virqInjected
    else (if code = 0x64 then { e with virtualIrq := 0 } else e).Passes toHost e' := by
  unfold Handled at h
  by_cases hcode : code = 0x64
  · rw [if_pos hcode] at h
    rw [if_pos hcode]
    simp only [hcode, true_and]
    exact h
  · rw [if_neg hcode, if_neg fun hwindow => Bool.false_ne_true (hnmi.symm.trans hwindow.2)] at h
    rwa [if_neg fun hwindow => hcode hwindow.1, if_neg hcode]

end EventState

namespace EventRun

open EventState

variable {r r' : EventRun} {pending : Option EventInjection} {action : EventAction} {i : EventInjection}

/-- The interrupt is asked for while the guest runs, or will be at its next entry. -/
def Recorded (i : EventInjection) (r : EventRun) : Prop :=
  (if r.inGuest then r.events else r.events.asked.entered).Armed i

/-- What has to be injected yet: first the interrupt whose delivery the exit has interrupted. -/
def due (r : EventRun) (pending : Option EventInjection) (interrupted : Bool) : Option EventInjection :=
  if interrupted = true ∧ r.events.injection.IsExternal then some r.events.injection else pending

/-- The last interrupt that was set, until it is injected. -/
def pendingAfter (r : EventRun) (pending : Option EventInjection) :
    EventAction → Option EventInjection
  | .set event => some event
  | .exit code interrupted _ => if code = 0x64 then none else r.due pending interrupted
  | _ => pending

def Injects (r : EventRun) : Option EventInjection → Prop
  | some i =>
      r.inGuest = true ∧ r.events.injection.IsExternal ∧ r.events.injection.vector = i.vector
  | none => ¬r.events.injection.IsExternal

/-- The guest gets an interrupt at its window and no other time, and one that waits is recorded. -/
def Delivers (r : EventRun) (pending : Option EventInjection) (action : EventAction) (r' : EventRun) :
    Prop :=
  (∀ i, r.pendingAfter pending action = some i → r'.Recorded i) ∧
    match action with
    | .set _ | .host => True
    | .enter => r'.Injects none
    | .exit code interrupted _ => r'.Injects (if code = 0x64 then r.due pending interrupted else none)

/-- No interrupt is set while the guest runs, unless it is the one that is asked for, and no exit
interrupts the delivery of one. -/
def Undisturbed (r : EventRun) : EventAction → Prop
  | .set event => r.inGuest = false ∨ r.events.Armed event
  | .exit _ interrupted _ => ¬(interrupted = true ∧ r.events.injection.IsExternal)
  | _ => True

/-- What holds in a run of external interrupts. -/
structure InterruptsKept (r : EventRun) (pending : Option EventInjection) : Prop where
  prevNmi : r.events.prevNmi = false
  injected : r.events.injected.Plain
  injection : r.events.injection.Plain
  recorded : ∀ i, pending = some i → r.Recorded i
  unasked : pending = none →
    r.events.prevVirq = false ∧ (r.inGuest = false → ¬r.events.injected.IsExternal)
  uninjected : pending ≠ none ∨ r.inGuest = false → ¬r.events.injection.IsExternal

theorem not_recorded (hvirq : r.events.prevVirq = false)
    (hinjected : r.inGuest = false → ¬r.events.injected.IsExternal) : ¬r.Recorded i := by
  unfold Recorded
  intro harmed
  cases hguest : r.inGuest with
  | true =>
      rw [hguest] at harmed
      exact Bool.false_ne_true (hvirq.symm.trans harmed.virq)
  | false =>
      rw [hguest, if_neg Bool.false_ne_true, asked_of_not_external (hinjected hguest)] at harmed
      exact Bool.false_ne_true (hvirq.symm.trans (entered_prevVirq.symm.trans harmed.virq))

/-- An interrupt whose delivery is interrupted is lost: nothing asks for it again. -/
theorem InterruptsKept.lost {e e₁ e' : EventState} {code : Int} {toHost iret : Bool}
    (hkept : InterruptsKept ⟨e, true⟩ pending) (hexternal : e.injection.IsExternal)
    (hexits : e.Exits e₁) (hhandled : e₁.Handled code toHost e') :
    ¬Delivers ⟨e, true⟩ pending (.exit code true iret) ⟨e', !toHost⟩ := by
  have hnone : pending = none := by
    by_contra hsome
    exact hkept.uninjected (.inl hsome) hexternal
  have hdue : due ⟨e, true⟩ pending true = some e.injection := if_pos ⟨rfl, hexternal⟩
  have hvirq : e₁.prevVirq = false := hexits.sameWindows.prevVirq.trans (hkept.unasked hnone).1
  have hpasses := hhandled.of_no_nmi (hexits.sameWindows.prevNmi.trans hkept.prevNmi)
  rw [if_neg fun hwindow => Bool.false_ne_true (hvirq.symm.trans hwindow.2)] at hpasses
  rintro ⟨hrecorded, hinjects⟩
  dsimp only at hinjects
  dsimp only [pendingAfter] at hrecorded
  rw [hdue] at hinjects hrecorded
  by_cases hcode : code = 0x64
  · rw [if_pos hcode] at hinjects hpasses
    exact hpasses.not_external hexits.valid hinjects.2.1
  · rw [if_neg hcode] at hrecorded hpasses
    refine not_recorded (hpasses.sameWindows.prevVirq.trans hvirq) (fun hhost => ?_)
      (hrecorded _ rfl)
    obtain rfl : toHost = true := Bool.not_eq_eq_eq_not.mp hhost
    exact hpasses.unasked hvirq hexits.valid

/-- An exit without the window of a pending interrupt. -/
theorem interruptsKept_of_passes {e e' : EventState} {toHost : Bool} (hpasses : e.Passes toHost e')
    (hvalid : e.injection.valid = false) (hinjection : e.injection.Plain) (hinjected : e.injected.Plain)
    (hnmi : e.prevNmi = false) (hrecorded : ∀ i, pending = some i → Recorded i ⟨e', !toHost⟩)
    (hunasked : pending = none → e.prevVirq = false) : InterruptsKept ⟨e', !toHost⟩ pending where
  prevNmi := hpasses.sameWindows.prevNmi.trans hnmi
  injected := hpasses.plain_injected hinjected hinjection
  injection := hpasses.plain_injection hinjection
  recorded := hrecorded
  unasked hnone := by
    refine ⟨hpasses.sameWindows.prevVirq.trans (hunasked hnone), fun hhost => ?_⟩
    obtain rfl : toHost = true := Bool.not_eq_eq_eq_not.mp hhost
    exact hpasses.unasked (hunasked hnone) hvalid
  uninjected _ := hpasses.not_external hvalid

theorem Recorded.passes {e e' : EventState} {toHost : Bool} (h : e.Armed i) (hpasses : e.Passes toHost e')
    (hvalid : e.injection.valid = false) : Recorded i ⟨e', !toHost⟩ := by
  cases toHost with
  | false => exact h.of_sameWindows hpasses.sameWindows
  | true => exact h.passes_host hpasses hvalid

/-- The window of the interrupt that waits. -/
theorem InterruptsKept.window {e e₁ : EventState} {interrupted iret : Bool}
    (hkept : InterruptsKept ⟨e, true⟩ pending) (hexits : e.Exits e₁) (hvirq : e₁.prevVirq = true)
    (hdue : due ⟨e, true⟩ pending interrupted = pending) :
    Delivers ⟨e, true⟩ pending (.exit 0x64 interrupted iret) ⟨e₁.virqInjected, true⟩ ∧
      InterruptsKept ⟨e₁.virqInjected, true⟩ none := by
  have hasked : e.prevVirq = true := hexits.sameWindows.prevVirq.symm.trans hvirq
  obtain ⟨i, hi⟩ : ∃ i, pending = some i := by
    refine Option.ne_none_iff_exists'.mp fun hnone => ?_
    exact Bool.false_ne_true ((hkept.unasked hnone).1.symm.trans hasked)
  have harmed : e.Armed i := hkept.recorded i hi
  have hvector : e₁.virqInjected.injection.vector = i.vector := by
    change (e₁.vector % 2 ^ 8 + 2 ^ 31) % 2 ^ 8 = i.attributes % 2 ^ 8
    rw [hexits.sameWindows.vector, harmed.vector]
    change (i.attributes % 2 ^ 8 % 2 ^ 8 + 2 ^ 31) % 2 ^ 8 = _
    omega
  have hexternal : e₁.virqInjected.injection.IsExternal := by
    have hlt := Nat.mod_lt e₁.vector (show 0 < 2 ^ 8 by decide)
    refine ⟨EventInjection.valid_iff.mpr ?_, ?_⟩
    · change (e₁.vector % 2 ^ 8 + 2 ^ 31) / 2 ^ 31 % 2 = 1
      omega
    · change (e₁.vector % 2 ^ 8 + 2 ^ 31) / 2 ^ 8 % 2 ^ 3 = 0
      omega
  refine ⟨⟨fun _ hsome => (nomatch hsome), ?_⟩, ?_⟩
  · dsimp only
    rw [if_pos rfl, hdue, hi]
    exact ⟨rfl, hexternal, hvector⟩
  · have hinjected : e₁.injected.Plain := by
      rw [hexits.injected]
      exact hkept.injected
    exact
      { prevNmi := hexits.sameWindows.prevNmi.trans hkept.prevNmi
        injected := hinjected.cleared _
        injection := fun htype => absurd hexternal.2 htype
        recorded := fun _ hsome => (nomatch hsome)
        unasked := fun _ => ⟨rfl, fun hhost => (nomatch hhost)⟩
        uninjected := fun h => absurd rfl (h.resolve_right fun hhost => (nomatch hhost)) }

/-- An exit that interrupts no interrupt injects the one that waits, at its window. -/
theorem InterruptsKept.exit {e e₁ e' : EventState} {code : Int} {toHost interrupted iret : Bool}
    (hkept : InterruptsKept ⟨e, true⟩ pending) (hexits : e.Exits e₁)
    (hhandled : e₁.Handled code toHost e')
    (hundisturbed : ¬(interrupted = true ∧ e.injection.IsExternal)) :
    Delivers ⟨e, true⟩ pending (.exit code interrupted iret) ⟨e', !toHost⟩ ∧
      InterruptsKept ⟨e', !toHost⟩
        (pendingAfter ⟨e, true⟩ pending (.exit code interrupted iret)) := by
  have hdue : due ⟨e, true⟩ pending interrupted = pending := if_neg hundisturbed
  have hnmi : e₁.prevNmi = false := hexits.sameWindows.prevNmi.trans hkept.prevNmi
  have hplain : e₁.injected.Plain := by
    rw [hexits.injected]
    exact hkept.injected
  have hpasses := hhandled.of_no_nmi hnmi
  dsimp only [pendingAfter]
  by_cases hwindow : code = 0x64 ∧ e₁.prevVirq = true
  · rw [if_pos hwindow] at hpasses
    obtain ⟨rfl, rfl⟩ := hpasses
    obtain ⟨rfl, hvirq⟩ := hwindow
    rw [if_pos rfl]
    exact hkept.window hexits hvirq hdue
  rw [if_neg hwindow] at hpasses
  by_cases hcode : code = 0x64
  · have hvirq : e₁.prevVirq = false := Bool.eq_false_iff.mpr fun hvirq => hwindow ⟨hcode, hvirq⟩
    have hnone : pending = none := by
      by_contra hsome
      obtain ⟨i, hi⟩ := Option.ne_none_iff_exists'.mp hsome
      have harmed : e.Armed i := hkept.recorded i hi
      exact Bool.false_ne_true (hvirq.symm.trans (hexits.sameWindows.prevVirq.trans harmed.virq))
    rw [if_pos hcode] at hpasses ⊢
    refine ⟨⟨fun i hi => ?_, ?_⟩, ?_⟩
    · dsimp only [pendingAfter] at hi
      rw [if_pos hcode] at hi
      cases hi
    · dsimp only
      rw [if_pos hcode, hdue, hnone]
      exact hpasses.not_external hexits.valid
    · exact interruptsKept_of_passes hpasses hexits.valid (hexits.plain hkept.injection) hplain hnmi
        (fun _ hsome => (nomatch hsome)) fun _ => hvirq
  · rw [if_neg hcode] at hpasses ⊢
    rw [hdue]
    have hrecorded (i : EventInjection) (hi : pending = some i) : Recorded i ⟨e', !toHost⟩ := by
      have harmed : e.Armed i := hkept.recorded i hi
      exact Recorded.passes (harmed.of_sameWindows hexits.sameWindows) hpasses hexits.valid
    refine ⟨⟨fun i hi => ?_, ?_⟩, ?_⟩
    · dsimp only [pendingAfter] at hi
      rw [if_neg hcode, hdue] at hi
      exact hrecorded i hi
    · dsimp only
      rw [if_neg hcode]
      exact hpasses.not_external hexits.valid
    · exact interruptsKept_of_passes hpasses hexits.valid (hexits.plain hkept.injection) hplain hnmi
        hrecorded fun hnone => hexits.sameWindows.prevVirq.trans (hkept.unasked hnone).1

theorem InterruptsKept.set {e : EventState} {inGuest : Bool} {event : EventInjection}
    (hkept : InterruptsKept ⟨e, inGuest⟩ pending) (hexternal : event.IsExternal)
    (hundisturbed : inGuest = false ∨ e.Armed event) :
    Recorded event ⟨{ e with injected := event }, inGuest⟩ ∧
      InterruptsKept ⟨{ e with injected := event }, inGuest⟩ (some event) := by
  have hrecorded : Recorded event ⟨{ e with injected := event }, inGuest⟩ := by
    cases inGuest with
    | false => exact armed_of_external (e := { e with injected := event }) hexternal
    | true =>
        have harmed := hundisturbed.resolve_left (Bool.false_ne_true ·.symm)
        exact ⟨harmed.virq, harmed.pending, harmed.vector, harmed.priority⟩
  have huninjected : ¬e.injection.IsExternal := by
    refine hkept.uninjected (hundisturbed.symm.imp_left fun harmed hnone => ?_)
    exact Bool.false_ne_true ((hkept.unasked hnone).1.symm.trans harmed.virq)
  refine ⟨hrecorded, hkept.prevNmi, fun htype => absurd hexternal.2 htype, hkept.injection, ?_, ?_, ?_⟩
  · rintro i hi
    cases hi
    exact hrecorded
  · exact fun hnone => (nomatch hnone)
  · exact fun _ => huninjected

theorem InterruptsKept.enter {e : EventState} (hkept : InterruptsKept ⟨e, false⟩ pending) :
    Injects ⟨e.asked.entered, true⟩ none ∧ InterruptsKept ⟨e.asked.entered, true⟩ pending := by
  have huninjected : ¬e.injection.IsExternal := hkept.uninjected (.inr rfl)
  have hrecorded (i : EventInjection) (hi : pending = some i) : Recorded i ⟨e.asked.entered, true⟩ :=
    hkept.recorded i hi
  have hinjected : e.asked.entered.injected = e.injected := entered_injected.trans asked_same.1
  have hnmi : e.asked.entered.prevNmi = false := by
    rw [entered_prevNmi (by rw [asked_same.1]; exact hkept.injected)]
    exact asked_same.2.2.trans hkept.prevNmi
  have hinjection := entered_injection (e := e.asked)
  rw [asked_same.1, asked_same.2.1] at hinjection
  have hnot : ¬e.asked.entered.injection.IsExternal := by
    obtain hsame | ⟨hsame, htype, -⟩ := hinjection
    · rwa [hsame]
    · rw [hsame]
      exact fun hexternal => htype hexternal.2
  refine ⟨hnot, hnmi, ?_, ?_, hrecorded, fun hnone => ⟨?_, fun hhost => (nomatch hhost)⟩, fun _ => hnot⟩
  · dsimp only
    rw [hinjected]
    exact hkept.injected
  · dsimp only
    obtain hsame | ⟨hsame, -⟩ := hinjection
    · rw [hsame]
      exact hkept.injection
    · rw [hsame]
      exact hkept.injected
  · obtain ⟨hvirq, hhost⟩ := hkept.unasked hnone
    rw [asked_of_not_external (hhost rfl)]
    exact entered_prevVirq.trans hvirq

/-- A step delivers interrupts as long as nothing disturbs it. -/
theorem InterruptsKept.delivers_iff (hkept : r.InterruptsKept pending) (htakes : r.Takes action r')
    (hset : ∀ event, action = .set event → event.IsExternal) :
    (r.Delivers pending action r' ↔ r.Undisturbed action) ∧
      (r.Undisturbed action → r'.InterruptsKept (r.pendingAfter pending action)) := by
  cases htakes with
  | @set e inGuest event =>
      have hexternal := hset event rfl
      refine ⟨⟨fun hdelivers => ?_, fun h => ?_⟩, fun h => (hkept.set hexternal h).2⟩
      · cases inGuest with
        | false => exact .inl rfl
        | true =>
            have harmed : Armed event { e with injected := event } := hdelivers.1 event rfl
            exact .inr ⟨harmed.virq, harmed.pending, harmed.vector, harmed.priority⟩
      · refine ⟨fun i hi => ?_, trivial⟩
        cases hi
        exact (hkept.set hexternal h).1
  | host => exact ⟨⟨fun _ => trivial, fun _ => ⟨hkept.recorded, trivial⟩⟩, fun _ => hkept⟩
  | enter =>
      obtain ⟨hinjects, hkept'⟩ := hkept.enter
      exact ⟨⟨fun _ => trivial, fun _ => ⟨hkept'.recorded, hinjects⟩⟩, fun _ => hkept'⟩
  | @exit e e₁ e' code interrupted iret toHost hexits hhandled =>
      refine ⟨⟨fun hdelivers hdisturbed => ?_, fun h => (hkept.exit hexits hhandled h).1⟩,
        fun h => (hkept.exit hexits hhandled h).2⟩
      obtain ⟨rfl, hexternal⟩ := hdisturbed
      exact hkept.lost hexternal hexits hhandled hdelivers

end EventRun

/-- A vCPU, with the last interrupt that was set and is not injected yet. -/
structure SvmInterruptRun where
  run : SvmEventRun
  pending : Option EventInjection

namespace SvmInterruptRun

open Transition

def Created (s : SvmInterruptRun) : Prop :=
  s.run.inGuest = false ∧ s.run.vcpu.events.Clear ∧ s.pending = none

def next (caching : Bool) (s : SvmInterruptRun) (step : SvmEventStep) : SvmInterruptRun :=
  ⟨s.run.next caching step, s.run.view.pendingAfter s.pending step.action⟩

/-- The events that are set are external interrupts. -/
def Possible (caching : Bool) (s : SvmInterruptRun) (step : SvmEventStep) : Prop :=
  s.run.Possible caching step ∧ ∀ event, step.action = .set event → event.IsExternal

def Delivers (caching : Bool) (s : SvmInterruptRun) (step : SvmEventStep) : Prop :=
  s.run.view.Delivers s.pending step.action (s.run.next caching step).view

def Undisturbed (s : SvmInterruptRun) (step : SvmEventStep) : Prop :=
  s.run.view.Undisturbed step.action

variable {caching : Bool} {s : SvmInterruptRun} {steps : List SvmEventStep}

def Kept (s : SvmInterruptRun) : Prop := s.run.view.InterruptsKept s.pending

theorem Created.kept (h : s.Created) : s.Kept := by
  obtain ⟨hguest, hclear, hnone⟩ := h
  have hnot {x : EventInjection} (hx : x.attributes = 0) : ¬x.IsExternal := fun hexternal =>
    Bool.false_ne_true ((EventInjection.valid_of_zero hx).symm.trans hexternal.1)
  have hplain {x : EventInjection} (hx : x.attributes = 0) : x.Plain := fun htype => by
    unfold EventInjection.type at htype
    rw [hx] at htype
    exact absurd (by decide) htype
  refine ⟨hclear.prevNmi, hplain hclear.injected, hplain hclear.injection, ?_, fun _ => ?_, fun _ => ?_⟩
  · intro i hi
    exact (nomatch hnone.symm.trans hi)
  · exact ⟨hclear.prevVirq, fun _ => hnot hclear.injected⟩
  · exact hnot hclear.injection

/-- Interrupts are delivered exactly once, in every run where none is set under a guest that runs and
no exit interrupts the delivery of one, and in no other run. -/
theorem interruptsDelivered_iff (hcreated : s.Created)
    (hpossible : Along (Possible caching) (next caching) s steps) :
    Along (Delivers caching) (next caching) s steps ↔ Along Undisturbed (next caching) s steps :=
  along_iff
    (fun _ _ (hkept : Kept _) hstep => (hkept.delivers_iff hstep.1.takes hstep.2).1)
    (fun _ _ hkept hstep => (hkept.delivers_iff hstep.1.takes hstep.2).2) hcreated.kept hpossible

/-! An interrupt is set and injected at its window, and the next exit interrupts its delivery. -/

def timerInterrupt : EventInjection := ⟨0x20 + 2 ^ 31, 0⟩

def quietStart : SvmInterruptRun := ⟨⟨quietVcpu, false⟩, none⟩

def quietSet : SvmInterruptRun :=
  ⟨⟨{ quietVcpu with header.injectedEvent := timerInterrupt }, false⟩, some timerInterrupt⟩

/-- The exit at the window of interrupts. -/
def windowExit : SvmEventStep :=
  .exit (quietEntered timerInterrupt).vcpu.vmcb quietContext zeroProcessor (fun _ => 0) 0x64 false false

def injectedRun : SvmInterruptRun := next true ⟨quietEntered timerInterrupt, some timerInterrupt⟩ windowExit

/-- A page of the stack is not there when the interrupt is delivered. -/
def faultExit : SvmEventStep :=
  .exit (injectedRun.run.vcpu.vmcb.write .eventInjection 0) quietContext zeroProcessor (fun _ => 0) 0x400
    true false

theorem quietStart_created : quietStart.Created := ⟨rfl, ⟨rfl, rfl, rfl, rfl⟩, rfl⟩

theorem next_quietSet :
    next true quietSet (.enter anyFeatures 0 zeroProcessor zeroVirtualCpu) =
      ⟨quietEntered timerInterrupt, some timerInterrupt⟩ := by
  unfold next SvmEventRun.next
  rw [show quietSet.run.step true _ = _ from step_quietEntry true timerInterrupt]
  rfl

/-- What follows the entry decides whether the run is possible, and what holds along it. -/
theorem along_quietEntry {P : SvmInterruptRun → SvmEventStep → Prop} (steps : List SvmEventStep) :
    Along P (next true) quietStart (quietEntry timerInterrupt ++ steps) ↔
      (P quietStart (.set timerInterrupt) ∧
        P quietSet (.enter anyFeatures 0 zeroProcessor zeroVirtualCpu)) ∧
      Along P (next true) ⟨quietEntered timerInterrupt, some timerInterrupt⟩ steps := by
  rw [← next_quietSet]
  exact and_assoc.symm

theorem quietEntry_possible :
    Possible true quietStart (.set timerInterrupt) ∧
      Possible true quietSet (.enter anyFeatures 0 zeroProcessor zeroVirtualCpu) := by
  refine ⟨⟨⟨rfl, trivial⟩, fun event hevent => ?_⟩, ⟨?_, trivial⟩, fun _ hevent => (nomatch hevent)⟩
  · cases hevent
    decide
  · rw [show quietSet.run.step true _ = _ from step_quietEntry true timerInterrupt]
    rfl

theorem windowExit_possible :
    Possible true ⟨quietEntered timerInterrupt, some timerInterrupt⟩ windowExit :=
  ⟨⟨rfl, ⟨.inl rfl, rfl, rfl, rfl⟩, fun _ => rfl⟩, fun _ hevent => (nomatch hevent)⟩

theorem timerInterrupt_delivered :
    Along (Delivers true) (next true) quietStart (quietEntry timerInterrupt ++ [windowExit]) := by
  have hpossible := (along_quietEntry [windowExit]).mpr ⟨quietEntry_possible, windowExit_possible, trivial⟩
  refine (interruptsDelivered_iff quietStart_created hpossible).mpr ?_
  refine (along_quietEntry [windowExit]).mpr ⟨⟨.inl rfl, trivial⟩, ?_, trivial⟩
  exact fun hinterrupted => (nomatch hinterrupted.1)

theorem faultExit_possible : Possible true injectedRun faultExit := by
  refine ⟨⟨?_, ⟨.inl rfl, rfl, rfl, rfl⟩, fun _ => rfl⟩, fun _ hevent => (nomatch hevent)⟩
  have hloadable : HostLoadable quietContext.cpu quietContext.host :=
    ⟨⟨fun _ h => absurd h Bool.false_ne_true, fun _ => rfl⟩, rfl⟩
  have hfault (s : CvexitState) :
      svmCvexitHandlers quietContext s 0x400 = cvexitToHost quietContext s := rfl
  refine SvmEventRun.isSome_exit rfl ?_
  unfold nvcSvmExitHandler
  rw [Option.isSome_map, hfault]
  exact isSome_cvexitToHost rfl hloadable

theorem injectedRun_kept : injectedRun.Kept where
  prevNmi := rfl
  injected := fun htype => absurd rfl htype
  injection := fun htype => absurd rfl htype
  recorded := fun _ hsome => (nomatch hsome)
  unasked := fun _ => ⟨rfl, fun hhost => (nomatch hhost)⟩
  uninjected := fun h => absurd rfl (h.resolve_right fun hhost => (nomatch hhost))

/-- The interrupt is lost. -/
theorem not_forall_interruptsDelivered :
    ¬∀ (s : SvmInterruptRun) (steps : List SvmEventStep), s.Created →
      Along (Possible true) (next true) s steps → Along (Delivers true) (next true) s steps := by
  intro h
  have hpossible := (along_quietEntry [windowExit, faultExit]).mpr
    ⟨quietEntry_possible, windowExit_possible, faultExit_possible, trivial⟩
  have hdelivers := ((along_quietEntry [windowExit, faultExit]).mp
    (h _ _ quietStart_created hpossible)).2.2.1
  have hundisturbed := (injectedRun_kept.delivers_iff faultExit_possible.1.takes
    faultExit_possible.2).1.mp hdelivers
  exact hundisturbed ⟨rfl, by decide⟩

end SvmInterruptRun

end NoirVisor
