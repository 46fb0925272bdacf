import NoirVisor.Cvm.SvmEvents
import NoirVisor.Transition

/-!
# Non-maskable interrupts of a virtual CPU on SVM

An NMI waits in the structure of the vCPU for the next iret of the guest, even if none is blocked, and
the switch to the host writes over it. The host never sees one that it has set injected at an entry.
-/

namespace NoirVisor

open SvmCustomVcpu (nmiInterrupt)

/-- Whether an NMI is set and has to be injected yet, and whether the guest handles an earlier one. -/
structure NmiWait where
  pending : Bool
  blocked : Bool

namespace NmiWait

def unblocked (n : NmiWait) (iret : Bool) : NmiWait := { n with blocked := n.blocked && !iret }

/-- The first entry with NMIs not blocked injects the one that waits. -/
def injects (n : NmiWait) : Bool := n.pending && !n.blocked

def entered (n : NmiWait) : NmiWait := if n.injects then ⟨false, true⟩ else n

def after (n : NmiWait) (r' : EventRun) : EventAction → NmiWait
  | .set event => { n with pending := decide event.IsNmi }
  | .host => n
  | .enter => n.entered
  | .exit _ _ iret => if r'.inGuest then (n.unblocked iret).entered else n.unblocked iret

end NmiWait

namespace EventState

variable {e e₁ e' : EventState} {toHost : Bool} {code : Int}

theorem entered_not_nmi (h : ¬e.injection.IsNmi) : ¬e.asked.entered.injection.IsNmi := by
  obtain hsame | ⟨hsame, -, hvector⟩ := entered_injection (e := e.asked)
  · rwa [hsame, asked_same.2.1]
  · rw [hsame]
    exact fun hnmi => hvector hnmi.2.2

/-- The switch to the host finds no NMI in the VMCB. -/
theorem saved_not_nmi (h : ¬e.injection.IsNmi) : ¬e.saved.injected.IsNmi := by
  unfold saved
  dsimp only
  split
  · exact fun hnmi => (nomatch virqAttributes_type.symm.trans hnmi.2.1)
  · exact h

theorem Passes.injection_not_nmi (h : e.Passes toHost e') (hinjection : ¬e.injection.IsNmi) :
    ¬e'.injection.IsNmi := by
  obtain hsame | hraised := h.injection
  · rwa [hsame]
  · exact hraised.not_nmi

theorem Passes.injected_not_nmi (h : e.Passes toHost e') (hinjection : ¬e.injection.IsNmi)
    (hinjected : ¬e.injected.IsNmi) : ¬e'.injected.IsNmi := by
  cases toHost with
  | false => rwa [h.injected_guest]
  | true =>
      obtain hsaved | hraised := h.injected_host
      · rw [hsaved]
        exact saved_not_nmi hinjection
      · exact hraised.not_nmi

/-- No exit makes an NMI of what is none. -/
theorem Handled.not_nmi (h : e.Handled code toHost e') (hvalid : e.injection.valid = false)
    (hinjected : ¬e.injected.IsNmi) : ¬e'.injection.IsNmi ∧ ¬e'.injected.IsNmi := by
  have hinjection : ¬e.injection.IsNmi := fun hnmi => Bool.false_ne_true (hvalid.symm.trans hnmi.1)
  unfold Handled at h
  split at h
  · split at h
    · obtain ⟨-, rfl⟩ := h
      refine ⟨fun hnmi => ?_, fun hnmi => ?_⟩
      · have htype : (e.vector % 2 ^ 8 + 2 ^ 31) / 2 ^ 8 % 2 ^ 3 = 2 := hnmi.2.1
        omega
      · exact Bool.false_ne_true ((EventInjection.cleared_valid _ _).symm.trans hnmi.1)
    · have hpasses := h.injected_not_nmi hinjection hinjected
      exact ⟨h.injection_not_nmi hinjection, hpasses⟩
  · split at h
    · obtain ⟨-, rfl⟩ := h
      exact ⟨hinjected, hinjected⟩
    · exact ⟨h.injection_not_nmi hinjection, h.injected_not_nmi hinjection hinjected⟩

end EventState

namespace EventRun

open EventState

variable {r r' : EventRun} {n : NmiWait} {action : EventAction}

/-- The NMI is in the structure, or will be when the guest stops running. -/
def NmiRecorded (r : EventRun) : Prop :=
  (if r.inGuest then r.events.saved.injected else r.events.injected).IsNmi

/-- An entry injects the NMI that waits if none is blocked, and no other; one that waits is recorded. -/
def DeliversNmi (n : NmiWait) (action : EventAction) (r' : EventRun) : Prop :=
  ((n.after r' action).pending = true → r'.NmiRecorded) ∧
    match action with
    | .set _ | .host => True
    | .enter => r'.events.injection.IsNmi ↔ n.injects = true
    | .exit _ _ iret =>
        r'.inGuest = true → (r'.events.injection.IsNmi ↔ (n.unblocked iret).injects = true)

/-- No NMI is set while the guest runs, and none waits when it is entered. -/
def WithoutNmi (r : EventRun) (n : NmiWait) : EventAction → Prop
  | .set event => event.IsNmi → r.inGuest = false
  | .enter => n.pending = false
  | _ => True

structure NmiKept (r : EventRun) (n : NmiWait) : Prop where
  injected : r.events.injected.IsNmi ↔ n.pending = true
  guest : r.inGuest = true → n.pending = false
  injection : ¬r.events.injection.IsNmi

theorem NmiKept.set {e : EventState} {inGuest : Bool} {event : EventInjection}
    (hkept : NmiKept ⟨e, inGuest⟩ n) (h : event.IsNmi → inGuest = false) :
    NmiKept ⟨{ e with injected := event }, inGuest⟩ { n with pending := decide event.IsNmi } where
  injected := decide_eq_true_iff.symm
  guest hguest := decide_eq_false fun hnmi => Bool.false_ne_true ((h hnmi).symm.trans hguest)
  injection := hkept.injection

theorem NmiKept.set_iff {e : EventState} {inGuest : Bool} {event : EventInjection}
    (hkept : NmiKept ⟨e, inGuest⟩ n) :
    DeliversNmi n (.set event) ⟨{ e with injected := event }, inGuest⟩ ↔
      (event.IsNmi → inGuest = false) := by
  constructor
  · rintro ⟨hrecorded, -⟩ hnmi
    by_contra hguest
    obtain rfl : inGuest = true := Bool.of_not_eq_false hguest
    have hsaved : e.saved.injected.IsNmi := hrecorded (decide_eq_true hnmi)
    exact saved_not_nmi hkept.injection hsaved
  · refine fun h => ⟨fun hpending => ?_, trivial⟩
    have hnmi : event.IsNmi := of_decide_eq_true hpending
    unfold NmiRecorded
    rwa [h hnmi]

theorem NmiWait.entered_of_not_pending (h : n.pending = false) : n.injects = false ∧ n.entered = n := by
  have hinjects : n.injects = false := by
    unfold NmiWait.injects
    rw [h]
    rfl
  exact ⟨hinjects, if_neg (hinjects.trans_ne Bool.false_ne_true)⟩

theorem NmiKept.enter {e : EventState} (hkept : NmiKept ⟨e, false⟩ n) (h : n.pending = false) :
    NmiKept ⟨e.asked.entered, true⟩ n where
  injected := by
    rw [show e.asked.entered.injected = e.injected from entered_injected.trans asked_same.1]
    exact hkept.injected
  guest _ := h
  injection := entered_not_nmi hkept.injection

theorem NmiKept.enter_iff {e : EventState} (hkept : NmiKept ⟨e, false⟩ n) :
    DeliversNmi n .enter ⟨e.asked.entered, true⟩ ↔ n.pending = false := by
  have hinjection : ¬e.asked.entered.injection.IsNmi := entered_not_nmi hkept.injection
  constructor
  · rintro ⟨hrecorded, hinjects⟩
    by_contra hpending
    have hblocked : ¬n.injects = true := fun h => hinjection (hinjects.mpr h)
    have hwaits : (n.after ⟨e.asked.entered, true⟩ .enter).pending = true := by
      dsimp only [NmiWait.after]
      unfold NmiWait.entered
      rw [if_neg hblocked]
      exact Bool.of_not_eq_false hpending
    have hsaved : e.asked.entered.saved.injected.IsNmi := hrecorded hwaits
    exact saved_not_nmi hinjection hsaved
  · intro hpending
    obtain ⟨hinjects, hentered⟩ := NmiWait.entered_of_not_pending hpending
    refine ⟨fun hwaits => ?_, fun hnmi => absurd hnmi hinjection, fun h => ?_⟩
    · dsimp only [NmiWait.after] at hwaits
      rw [hentered, hpending] at hwaits
      exact absurd hwaits Bool.false_ne_true
    · exact absurd (hinjects.symm.trans h) Bool.false_ne_true

theorem NmiKept.exit {e e₁ e' : EventState} {code : Int} {interrupted iret toHost : Bool}
    (hkept : NmiKept ⟨e, true⟩ n) (hexits : e.Exits e₁) (hhandled : e₁.Handled code toHost e') :
    DeliversNmi n (.exit code interrupted iret) ⟨e', !toHost⟩ ∧
      NmiKept ⟨e', !toHost⟩ (n.after ⟨e', !toHost⟩ (.exit code interrupted iret)) := by
  have hpending : n.pending = false := hkept.guest rfl
  have hinjected : ¬e₁.injected.IsNmi := by
    rw [hexits.injected]
    exact fun hnmi => Bool.false_ne_true (hpending.symm.trans (hkept.injected.mp hnmi))
  obtain ⟨hinjection', hinjected'⟩ := hhandled.not_nmi hexits.valid hinjected
  obtain ⟨hinjects, hentered⟩ := NmiWait.entered_of_not_pending (n := n.unblocked iret) hpending
  have hafter : (n.after ⟨e', !toHost⟩ (.exit code interrupted iret)).pending = false := by
    dsimp only [NmiWait.after]
    split
    · rw [hentered]
      exact hpending
    · exact hpending
  refine ⟨⟨fun hwaits => ?_, fun _ => ⟨fun hnmi => absurd hnmi hinjection', fun h => ?_⟩⟩, ?_, ?_, ?_⟩
  · exact absurd (hafter.symm.trans hwaits) Bool.false_ne_true
  · exact absurd (hinjects.symm.trans h) Bool.false_ne_true
  · rw [hafter]
    exact ⟨fun hnmi => absurd hnmi hinjected', fun h => absurd h Bool.false_ne_true⟩
  · exact fun _ => hafter
  · exact hinjection'

theorem NmiKept.deliversNmi_iff (hkept : r.NmiKept n) (htakes : r.Takes action r') :
    (r'.DeliversNmi n action ↔ r.WithoutNmi n action) ∧
      (r.WithoutNmi n action → r'.NmiKept (n.after r' action)) := by
  cases htakes with
  | set event => exact ⟨hkept.set_iff, hkept.set⟩
  | host => exact ⟨⟨fun _ => trivial, fun _ => ⟨hkept.injected.mpr, trivial⟩⟩, fun _ => hkept⟩
  | enter =>
      refine ⟨hkept.enter_iff, fun hpending => ?_⟩
      dsimp only [NmiWait.after]
      rw [(NmiWait.entered_of_not_pending hpending).2]
      exact hkept.enter hpending
  | exit hexits hhandled =>
      exact ⟨⟨fun _ => trivial, fun _ => (hkept.exit hexits hhandled).1⟩,
        fun _ => (hkept.exit hexits hhandled).2⟩

end EventRun

/-- A vCPU, with what is known of its NMIs. -/
structure SvmNmiRun where
  run : SvmEventRun
  wait : NmiWait

namespace SvmNmiRun

open Transition

def Created (s : SvmNmiRun) : Prop :=
  s.run.inGuest = false ∧ s.run.vcpu.events.Clear ∧ s.wait = ⟨false, false⟩

def next (caching : Bool) (s : SvmNmiRun) (step : SvmEventStep) : SvmNmiRun :=
  ⟨s.run.next caching step, s.wait.after (s.run.next caching step).view step.action⟩

def Possible (caching : Bool) (s : SvmNmiRun) (step : SvmEventStep) : Prop :=
  s.run.Possible caching step

def Delivers (caching : Bool) (s : SvmNmiRun) (step : SvmEventStep) : Prop :=
  (s.run.next caching step).view.DeliversNmi s.wait step.action

def WithoutNmi (s : SvmNmiRun) (step : SvmEventStep) : Prop :=
  s.run.view.WithoutNmi s.wait step.action

variable {caching : Bool} {s : SvmNmiRun} {steps : List SvmEventStep}

def Kept (s : SvmNmiRun) : Prop := s.run.view.NmiKept s.wait

theorem Created.kept (h : s.Created) : s.Kept := by
  obtain ⟨hguest, hclear, hwait⟩ := h
  have hnot {x : EventInjection} (hx : x.attributes = 0) : ¬x.IsNmi := fun hnmi =>
    Bool.false_ne_true ((EventInjection.valid_of_zero hx).symm.trans hnmi.1)
  refine ⟨⟨fun hnmi => absurd hnmi (hnot hclear.injected), fun h => ?_⟩, fun h => ?_, hnot hclear.injection⟩
  · rw [hwait] at h
    exact absurd h Bool.false_ne_true
  · exact absurd (hguest.symm.trans h) Bool.false_ne_true

/-- NMIs are delivered as they should be in exactly the runs without any: one that is set is replaced
before the next entry. -/
theorem nmisDelivered_iff (hcreated : s.Created)
    (hpossible : Along (Possible caching) (next caching) s steps) :
    Along (Delivers caching) (next caching) s steps ↔ Along WithoutNmi (next caching) s steps :=
  along_iff (fun _ _ (hkept : Kept _) hstep => (hkept.deliversNmi_iff hstep.takes).1)
    (fun _ _ hkept hstep => (hkept.deliversNmi_iff hstep.takes).2) hcreated.kept hpossible

/-! The host sets an NMI, and another event in its place or not. -/

def nmiEvent : EventInjection := ⟨2 + 2 * 2 ^ 8 + 2 ^ 31, 0⟩

def breakpointEvent : EventInjection := ⟨3 + 3 * 2 ^ 8 + 2 ^ 31, 0⟩

def nmiStart : SvmNmiRun := ⟨⟨quietVcpu, false⟩, ⟨false, false⟩⟩

theorem nmiStart_created : nmiStart.Created := ⟨rfl, ⟨rfl, rfl, rfl, rfl⟩, rfl⟩

theorem quietEntry_possible (event : EventInjection) (pending : Bool) :
    Possible true ⟨⟨{ quietVcpu with header.injectedEvent := event }, false⟩, ⟨pending, false⟩⟩
      (.enter anyFeatures 0 zeroProcessor zeroVirtualCpu) := by
  refine ⟨?_, trivial⟩
  rw [step_quietEntry]
  rfl

theorem replacedNmi_delivered :
    Along (Delivers true) (next true) nmiStart (.set nmiEvent :: quietEntry breakpointEvent) := by
  have hpossible : Along (Possible true) (next true) nmiStart
      (.set nmiEvent :: quietEntry breakpointEvent) :=
    ⟨⟨rfl, trivial⟩, ⟨rfl, trivial⟩, quietEntry_possible breakpointEvent false, trivial⟩
  exact (nmisDelivered_iff nmiStart_created hpossible).mpr ⟨fun _ => rfl, fun _ => rfl, rfl, trivial⟩

/-- The guest is entered without the NMI. -/
theorem not_forall_nmisDelivered :
    ¬∀ (s : SvmNmiRun) (steps : List SvmEventStep), s.Created →
      Along (Possible true) (next true) s steps → Along (Delivers true) (next true) s steps := by
  intro h
  have hpossible : Along (Possible true) (next true) nmiStart (quietEntry nmiEvent) :=
    ⟨⟨rfl, trivial⟩, quietEntry_possible nmiEvent true, trivial⟩
  have hdelivers := (h _ _ nmiStart_created hpossible).2.1
  have hkept : Kept ⟨⟨{ quietVcpu with header.injectedEvent := nmiEvent }, false⟩, ⟨true, false⟩⟩ :=
    ⟨by decide, fun hguest => (nomatch hguest), by decide⟩
  have hwaits := (hkept.deliversNmi_iff (quietEntry_possible nmiEvent true).takes).1.mp hdelivers
  exact Bool.false_ne_true hwaits.symm

end SvmNmiRun

end NoirVisor
