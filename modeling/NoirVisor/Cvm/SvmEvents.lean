import NoirVisor.Cvm.SvmCvexit
import NoirVisor.Cvm.SvmExit

/-!
# Events of a virtual CPU on SVM

An event that the host sets moves between the structure of the vCPU, the interrupt control and the
event injection of the VMCB. What the switches and the handlers do to it is a machine of its own.
-/

namespace NoirVisor

open SvmCustomVcpu (nmiInterrupt)

namespace EventInjection

variable {e : EventInjection}

def IsExternal (e : EventInjection) : Prop := e.valid = true ∧ e.type = 0

def IsNmi (e : EventInjection) : Prop := e.valid = true ∧ e.type = 2 ∧ e.vector = nmiInterrupt

/-- An exception that a handler raises. -/
def IsRaised (e : EventInjection) : Prop :=
  e.valid = true ∧ e.type = faultTrapException ∧ e.vector ≠ nmiInterrupt

instance (e : EventInjection) : Decidable e.IsExternal := inferInstanceAs (Decidable (_ ∧ _))

instance (e : EventInjection) : Decidable e.IsNmi := inferInstanceAs (Decidable (_ ∧ _ ∧ _))

theorem valid_iff : e.valid = true ↔ e.attributes / 2 ^ 31 % 2 = 1 := by
  unfold valid
  rw [Nat.testBit_eq_decide_div_mod_eq, decide_eq_true_iff]

theorem valid_of_zero (h : e.attributes = 0) : e.valid = false := by
  unfold valid
  rw [h]
  exact Nat.zero_testBit 31

/-- The valid bit is above all the others. -/
theorem cleared_valid (a errorCode : Nat) : (EventInjection.mk (noirBtr a 31) errorCode).valid = false := by
  rw [Bool.eq_false_iff]
  intro hvalid
  replace hvalid := valid_iff.mp hvalid
  dsimp only at hvalid
  rw [noirBtr_eq] at hvalid
  omega

theorem cleared_type (a errorCode : Nat) :
    (EventInjection.mk (noirBtr a 31) errorCode).type = (EventInjection.mk a errorCode).type := by
  unfold type
  dsimp only
  rw [noirBtr_eq]
  omega

theorem cleared_vector (a errorCode : Nat) :
    (EventInjection.mk (noirBtr a 31) errorCode).vector = (EventInjection.mk a errorCode).vector := by
  unfold vector
  dsimp only
  rw [noirBtr_eq]
  omega

/-- The switch to the guest does not take it for an NMI. -/
def Plain (e : EventInjection) : Prop := e.type ≠ 0 → e.vector ≠ nmiInterrupt

theorem Plain.cleared {a errorCode : Nat} (h : Plain ⟨a, errorCode⟩) (errorCode' : Nat) :
    Plain ⟨noirBtr a 31, errorCode'⟩ := by
  intro htype
  have hplain := h ((cleared_type a errorCode).symm.trans_ne htype)
  exact (cleared_vector a errorCode').trans_ne hplain

theorem IsRaised.plain (h : e.IsRaised) : e.Plain := fun _ => h.2.2

theorem IsRaised.not_external (h : e.IsRaised) : ¬e.IsExternal := fun hexternal =>
  (nomatch h.2.1.symm.trans hexternal.2)

theorem IsRaised.not_nmi (h : e.IsRaised) : ¬e.IsNmi := fun hnmi => h.2.2 hnmi.2.2

end EventInjection

/-- What the structure of a vCPU and its VMCB say about events. The event injection of the VMCB is
`injection`, and its virtual interrupt the last three. -/
@[ext]
structure EventState where
  injected : EventInjection
  prevVirq : Bool
  prevNmi : Bool
  injection : EventInjection
  virtualIrq : Nat
  vector : Nat
  priority : Nat

namespace EventState

variable {e e₁ e₂ e' : EventState} {toHost : Bool} {n : Nat}

/-- No event at all, as in a vCPU that has just been created. -/
structure Clear (e : EventState) : Prop where
  injected : e.injected.attributes = 0
  injection : e.injection.attributes = 0
  prevVirq : e.prevVirq = false
  prevNmi : e.prevNmi = false

/-- A run that starts with an external interrupt asks for the virtual one. -/
def asked (e : EventState) : EventState :=
  if e.injected.valid && e.injected.type == 0 then { e with prevVirq := true } else e

def entered (e : EventState) : EventState :=
  if e.injected.type ≠ 0 then
    if e.injected.vector = nmiInterrupt then { e with prevNmi := true }
    else { e with injection := e.injected }
  else if e.prevVirq then
    { e with
      virtualIrq := e.injected.valid.toNat
      vector := e.injected.vector
      priority := e.injected.priority }
  else e

/-- The attributes of the virtual interrupt. -/
def virqAttributes (e : EventState) : Nat :=
  e.vector % 2 ^ 8 + e.priority % 2 ^ 4 * 2 ^ 27 + e.virtualIrq % 2 * 2 ^ 31

def saved (e : EventState) : EventState :=
  { e with
    injected :=
      if !e.injection.valid && e.prevVirq then { e.injection with attributes := e.virqAttributes }
      else e.injection }

def virqInjected (e : EventState) : EventState :=
  { e with
    injection := ⟨e.vector % 2 ^ 8 + 2 ^ 31, 0⟩
    prevVirq := false
    injected := { e.injected with attributes := noirBtr e.injected.attributes 31 } }

def nmiInjected (e : EventState) : EventState := { e with injection := e.injected, prevNmi := false }

/-- What of an exit is not about the windows: an exception may be raised before it, and after a switch
to the host one that the next entry gives the guest. -/
def Raises (e e' : EventState) : Prop := e' = e ∨ ∃ x, x.IsRaised ∧ e' = { e with injection := x }

def Passes (e : EventState) (toHost : Bool) (e' : EventState) : Prop :=
  ∃ e₁, e.Raises e₁ ∧ if toHost then e₁.saved.Raises e' else e' = e₁

/-- What the exit handler does to the events. -/
def Handled (e : EventState) (code : Int) (toHost : Bool) (e' : EventState) : Prop :=
  if code = 0x64 then
    if e.prevVirq then toHost = false ∧ e' = e.virqInjected
    else { e with virtualIrq := 0 }.Passes toHost e'
  else if code = 0x74 ∧ e.prevNmi = true then toHost = false ∧ e' = e.nmiInjected
  else e.Passes toHost e'

/-- At an exit the event of the entry has been taken, or interrupted: it is not valid any more. -/
def Exits (e e' : EventState) : Prop :=
  ∃ x : EventInjection, (x.attributes = 0 ∨ x.attributes = noirBtr e.injection.attributes 31) ∧
    e' = { e with injection := x }

theorem Raises.refl : e.Raises e := .inl rfl

theorem Raises.trans (h : e.Raises e₁) (h' : e₁.Raises e₂) : e.Raises e₂ := by
  obtain rfl | ⟨x, hx, rfl⟩ := h'
  · exact h
  · obtain rfl | ⟨y, -, rfl⟩ := h
    · exact .inr ⟨x, hx, rfl⟩
    · exact .inr ⟨x, hx, rfl⟩

theorem Raises.passes (h : e.Raises e') : e.Passes false e' := ⟨e', h, rfl⟩

theorem passes_saved : e.Passes true e.saved := ⟨e, .refl, .refl⟩

theorem Passes.of_raises (h : e.Raises e₁) (h' : e₁.Passes toHost e') : e.Passes toHost e' := by
  obtain ⟨e₂, hraises, hrest⟩ := h'
  exact ⟨e₂, h.trans hraises, hrest⟩

theorem Passes.raises (h : e.Passes toHost e₁) (h' : e₁.Raises e') : e.Passes toHost e' := by
  obtain ⟨e₂, hraises, hrest⟩ := h
  cases toHost with
  | false =>
      obtain rfl : e₁ = e₂ := hrest
      exact ⟨e', hraises.trans h', rfl⟩
  | true =>
      have hsaved : e₂.saved.Raises e₁ := hrest
      exact ⟨e₂, hraises, hsaved.trans h'⟩

/-- What the virtual interrupt and the windows are about is the same. -/
structure SameWindows (e e' : EventState) : Prop where
  prevVirq : e'.prevVirq = e.prevVirq
  prevNmi : e'.prevNmi = e.prevNmi
  virtualIrq : e'.virtualIrq = e.virtualIrq
  vector : e'.vector = e.vector
  priority : e'.priority = e.priority

theorem Raises.sameWindows (h : e.Raises e') : e.SameWindows e' := by
  obtain rfl | ⟨x, -, rfl⟩ := h <;> exact ⟨rfl, rfl, rfl, rfl, rfl⟩

theorem Passes.sameWindows (h : e.Passes toHost e') : e.SameWindows e' := by
  obtain ⟨e₁, hraises, hrest⟩ := h
  cases toHost with
  | false =>
      obtain rfl : e' = e₁ := hrest
      exact hraises.sameWindows
  | true =>
      have hsaved : e₁.saved.SameWindows e' := Raises.sameWindows hrest
      have hfirst := hraises.sameWindows
      exact ⟨hsaved.prevVirq.trans hfirst.prevVirq, hsaved.prevNmi.trans hfirst.prevNmi,
        hsaved.virtualIrq.trans hfirst.virtualIrq, hsaved.vector.trans hfirst.vector,
        hsaved.priority.trans hfirst.priority⟩

theorem Raises.injection (h : e.Raises e') : e'.injection = e.injection ∨ e'.injection.IsRaised := by
  obtain rfl | ⟨x, hx, rfl⟩ := h
  · exact .inl rfl
  · exact .inr hx

theorem Raises.injected (h : e.Raises e') : e'.injected = e.injected := by
  obtain rfl | ⟨x, -, rfl⟩ := h <;> rfl

theorem Passes.injection (h : e.Passes toHost e') :
    e'.injection = e.injection ∨ e'.injection.IsRaised := by
  obtain ⟨e₁, hraises, hrest⟩ := h
  cases toHost with
  | false =>
      obtain rfl : e' = e₁ := hrest
      exact hraises.injection
  | true =>
      have hsaved : e₁.saved.Raises e' := hrest
      obtain hsame | hraised := hsaved.injection
      · rw [hsame]
        exact hraises.injection
      · exact .inr hraised

theorem Passes.injected_guest (h : e.Passes false e') : e'.injected = e.injected := by
  obtain ⟨e₁, hraises, hrest⟩ := h
  obtain rfl : e' = e₁ := hrest
  exact hraises.injected

theorem Passes.injected_host (h : e.Passes true e') :
    e'.injected = e.saved.injected ∨ e'.injected.IsRaised := by
  obtain ⟨e₁, hraises, hrest⟩ := h
  have hsaved : e₁.saved.Raises e' := hrest
  rw [hsaved.injected]
  obtain rfl | ⟨x, hx, rfl⟩ := hraises
  · exact .inl rfl
  · refine .inr ?_
    unfold saved
    dsimp only
    rw [hx.1]
    exact hx

theorem asked_same : e.asked.injected = e.injected ∧ e.asked.injection = e.injection ∧
    e.asked.prevNmi = e.prevNmi := by
  unfold asked
  split <;> exact ⟨rfl, rfl, rfl⟩

theorem entered_injected : e.entered.injected = e.injected := by
  unfold entered
  split
  · split <;> rfl
  · split <;> rfl

theorem entered_prevVirq : e.entered.prevVirq = e.prevVirq := by
  unfold entered
  split
  · split <;> rfl
  · split <;> rfl

theorem entered_prevNmi (h : e.injected.Plain) : e.entered.prevNmi = e.prevNmi := by
  unfold entered
  split
  · next htype => rw [if_neg (h htype)]
  · split <;> rfl

/-- An entry injects neither an NMI nor an external interrupt. -/
theorem entered_injection :
    e.entered.injection = e.injection ∨
      e.entered.injection = e.injected ∧ e.injected.type ≠ 0 ∧ e.injected.vector ≠ nmiInterrupt := by
  unfold entered
  split
  · next htype =>
      split
      · exact .inl rfl
      · next hvector => exact .inr ⟨rfl, htype, hvector⟩
  · split <;> exact .inl rfl

theorem Exits.valid (h : e.Exits e₁) : e₁.injection.valid = false := by
  obtain ⟨⟨attributes, errorCode⟩, rfl | rfl, rfl⟩ := h
  · exact EventInjection.valid_of_zero rfl
  · exact EventInjection.cleared_valid _ _

theorem Exits.sameWindows (h : e.Exits e₁) : e.SameWindows e₁ := by
  obtain ⟨x, -, rfl⟩ := h
  exact ⟨rfl, rfl, rfl, rfl, rfl⟩

theorem Exits.injected (h : e.Exits e₁) : e₁.injected = e.injected := by
  obtain ⟨x, -, rfl⟩ := h
  rfl

theorem virqAttributes_vector : (EventInjection.mk e.virqAttributes n).vector = e.vector % 2 ^ 8 := by
  unfold EventInjection.vector virqAttributes
  dsimp only
  omega

theorem virqAttributes_type : (EventInjection.mk e.virqAttributes n).type = 0 := by
  unfold EventInjection.type virqAttributes
  dsimp only
  omega

theorem virqAttributes_priority :
    (EventInjection.mk e.virqAttributes n).priority = e.priority % 2 ^ 4 := by
  unfold EventInjection.priority virqAttributes
  dsimp only
  omega

theorem virqAttributes_valid :
    (EventInjection.mk e.virqAttributes n).valid = true ↔ e.virtualIrq % 2 = 1 := by
  rw [EventInjection.valid_iff]
  unfold virqAttributes
  dsimp only
  omega

end EventState

/-! The machine is that of the switches and the handlers. -/

/-- The fields of the VMCB for events. -/
def isEventField : VmcbField → Bool
  | .eventInjection | .eventErrorCode => true
  | .virtualIrq | .virtualInterruptVector | .virtualInterruptPriority => true
  | _ => false

namespace SvmCustomVcpu

variable {v v' : SvmCustomVcpu} {c : StateCache} {select : Register → Bool} {b : Option CleanBit}
  {procId : Nat}

def events (v : SvmCustomVcpu) : EventState where
  injected := v.header.injectedEvent
  prevVirq := v.specialState.prevVirq
  prevNmi := v.specialState.prevNmi
  injection := ⟨v.vmcb.field .eventInjection, v.vmcb.field .eventErrorCode⟩
  virtualIrq := v.vmcb.field .virtualIrq
  vector := v.vmcb.field .virtualInterruptVector
  priority := v.vmcb.field .virtualInterruptPriority

theorem events_loadGroup : (v.loadGroup c select b).events = v.events := by
  unfold loadGroup
  split <;> rfl

theorem events_loadControlRegisters : v.loadControlRegisters.events = v.events := by
  unfold loadControlRegisters
  split
  · rfl
  · exact events_loadGroup

theorem events_loadEfer : v.loadEfer.events = v.events := by
  unfold loadEfer
  split
  · rfl
  · dsimp only
    have hload (w : SvmCustomVcpu) :
        events { w.loadGroup .ef (· == Register.efer) (some .controlReg) with
          shadowedBits := { v.shadowedBits with
            svme := (v.header.reg .efer).testBit 12 } } = w.events := events_loadGroup
    rw [hload]
    split <;> rfl

theorem events_loadVmcb : v.loadVmcb.events = v.events := by
  simp only [loadVmcb, events_loadGroup, events_loadControlRegisters, events_loadEfer]

theorem events_setEventInjection : v.setEventInjection.events = v.events.entered := by
  unfold setEventInjection EventState.entered
  dsimp only
  by_cases htype : v.header.injectedEvent.type ≠ 0
  · by_cases hvector : v.header.injectedEvent.vector = nmiInterrupt
    · rw [if_pos htype, if_pos hvector]
      exact ((if_pos htype).trans (if_pos hvector)).symm
    · rw [if_pos htype, if_neg hvector]
      exact ((if_pos htype).trans (if_neg hvector)).symm
  · rw [if_neg htype]
    refine Eq.trans ?_ (if_neg htype).symm
    cases hvirq : v.specialState.prevVirq with
    | false => exact (if_neg (hvirq.trans_ne Bool.false_ne_true)).symm
    | true => exact (if_pos hvirq).symm

theorem events_flushNestedPaging : v.flushNestedPaging.events = v.events := by
  unfold flushNestedPaging
  split <;> rfl

theorem events_schedule : (v.schedule procId).events = v.events := by
  unfold schedule
  split <;> rfl

theorem events_switchToGuest {cpu : Xsave.Features} {p p' : Processor} {host host' : VirtualCpu}
    (h : nvcSvmSwitchToGuestVcpu cpu procId p host v = some (p', host', v')) :
    v'.events = v.events.entered := by
  unfold nvcSvmSwitchToGuestVcpu at h
  dsimp only at h
  split at h
  · obtain ⟨⟨q, success⟩, -, heq⟩ := Option.map_eq_some_iff.mp h
    cases heq
    rw [events_flushNestedPaging, events_setEventInjection]
    exact congrArg EventState.entered events_schedule
  · obtain ⟨q, -, heq⟩ := Option.map_eq_some_iff.mp h
    cases heq
    rw [events_flushNestedPaging, events_setEventInjection]
    exact congrArg EventState.entered (events_loadVmcb.trans events_schedule)

theorem events_saveEventInjection : v.saveEventInjection.events = v.events.saved := by
  unfold saveEventInjection EventState.saved
  rfl

theorem events_switchToHost {cpu : Xsave.Features} {p p' : Processor} {host : VirtualCpu}
    (h : nvcSvmSwitchToHostVcpu cpu p host v = some (p', v')) : v'.events = v.events.saved := by
  unfold nvcSvmSwitchToHostVcpu at h
  dsimp only at h
  obtain ⟨⟨q, header⟩, hleave, heq⟩ := Option.map_eq_some_iff.mp h
  obtain ⟨-, -, rfl⟩ := leaveGuest_eq_some hleave
  obtain ⟨-, rfl⟩ := Prod.mk.inj heq
  have hguest :
      (if v.nsvGuest then nvcSvmNsvSaveGuestVcpu p v else v.saveGuest p).events = v.events := by
    unfold nvcSvmNsvSaveGuestVcpu
    split
    · split <;> rfl
    · rfl
  rw [← hguest]
  exact events_saveEventInjection

end SvmCustomVcpu

namespace Vmcb

variable {vmcb vmcb' vmcb'' : Vmcb} {f : VmcbField} {value : Nat} {name : SegmentName}

def SameEvents (vmcb vmcb' : Vmcb) : Prop := ∀ f, isEventField f = true → vmcb'.field f = vmcb.field f

theorem sameEvents_write (h : isEventField f = false) : vmcb.SameEvents (vmcb.write f value) := by
  intro f' hf'
  refine Function.update_of_ne ?_ _ _
  rintro rfl
  exact absurd (h.symm.trans hf') Bool.false_ne_true

theorem sameEvents_writeBase : vmcb.SameEvents (vmcb.writeBase name value) := by
  intro f hf
  unfold writeBase
  dsimp only
  split
  · cases hf
  · rfl

/-- An exception, as it is injected. -/
theorem isRaised_injectEvent {vector errorCode : Nat} {ev : Bool} (hbound : vector < 2 ^ 8)
    (hvector : vector ≠ nmiInterrupt) :
    EventInjection.IsRaised ⟨(vmcb.injectEvent vector faultTrapException ev true errorCode).field
      .eventInjection, errorCode⟩ := by
  change EventInjection.IsRaised ⟨vector % 2 ^ 8 + faultTrapException % 2 ^ 3 * 2 ^ 8 + ev.toNat * 2 ^ 11 +
    true.toNat * 2 ^ 31, errorCode⟩
  have hev : ev.toNat ≤ 1 := Bool.toNat_le ev
  refine ⟨EventInjection.valid_iff.mpr ?_, ?_, ?_⟩
  all_goals simp only [EventInjection.type, EventInjection.vector, faultTrapException, Bool.toNat_true]
  · omega
  · omega
  · rwa [show (vector % 2 ^ 8 + 3 % 2 ^ 3 * 2 ^ 8 + ev.toNat * 2 ^ 11 + 1 * 2 ^ 31) % 2 ^ 8 = vector by omega]

end Vmcb

namespace CvexitState

variable {s s' s'' : CvexitState} {f : Vmcb → Vmcb} {r : Register} {value vector errorCode : Nat} {ev : Bool}

/-- The guest goes on, with at most an exception more. -/
structure Raises (s s' : CvexitState) : Prop where
  events : s.vcpu.events.Raises s'.vcpu.events
  toHost : s'.toHost = s.toHost

theorem Raises.refl : s.Raises s := ⟨.refl, rfl⟩

theorem Raises.trans (h : s.Raises s') (h' : s'.Raises s'') : s.Raises s'' :=
  ⟨h.events.trans h'.events, h'.toHost.trans h.toHost⟩

theorem raises_of_same (hevents : s'.vcpu.events = s.vcpu.events) (htoHost : s'.toHost = s.toHost) :
    s.Raises s' := ⟨.inl hevents, htoHost⟩

theorem raises_withVmcb (h : s.vcpu.vmcb.SameEvents (f s.vcpu.vmcb)) : s.Raises (s.withVmcb f) := by
  refine raises_of_same (EventState.ext rfl rfl rfl ?_ (h _ rfl) (h _ rfl) (h _ rfl)) rfl
  exact congrArg₂ EventInjection.mk (h .eventInjection rfl) (h .eventErrorCode rfl)

theorem raises_withVmcb_write {f : VmcbField} (h : isEventField f = false) :
    s.Raises (s.withVmcb (·.write f value)) := raises_withVmcb (Vmcb.sameEvents_write h)

theorem raises_withVmcb_dirty {f : VmcbField} {b : CleanBit} (h : isEventField f = false) :
    s.Raises (s.withVmcb fun vmcb => (vmcb.write f value).dirty b) :=
  raises_withVmcb (Vmcb.sameEvents_write h)

theorem raises_injectEvent (hbound : vector < 2 ^ 8) (hvector : vector ≠ nmiInterrupt) :
    s.Raises (s.withVmcb (·.injectEvent vector faultTrapException ev true errorCode)) :=
  ⟨.inr ⟨_, Vmcb.isRaised_injectEvent hbound hvector, rfl⟩, rfl⟩

theorem raises_advanceRip : s.Raises s.advanceRip := by
  have hrip (s : CvexitState) (nrip : Nat) : s.Raises (s.withVmcb (·.write (.guest .rip) nrip)) :=
    raises_withVmcb_write rfl
  have htrap : s.Raises (s.withVmcb (·.injectEvent debugException faultTrapException false true 0)) :=
    raises_injectEvent (by decide) (by decide)
  unfold advanceRip withVmcb Vmcb.advanceRip
  dsimp only
  split
  · split
    · exact htrap
    · exact .refl
  · split
    · exact htrap.trans (hrip _ _)
    · exact hrip _ _

theorem raises_withReg : s.Raises (s.withReg r value) := raises_of_same rfl rfl

theorem raises_withShadowedBits {bits : ShadowedBits} : s.Raises { s with vcpu.shadowedBits := bits } :=
  raises_of_same rfl rfl

theorem raises_withMsrValue : s.Raises (s.withMsrValue value) := raises_of_same rfl rfl

/-- A handler of a guest that may switch to the host. -/
def Passes (s : CvexitState) (result : Option CvexitState) : Prop :=
  ∀ s', result = some s' → s.vcpu.events.Passes s'.toHost s'.vcpu.events

variable {result : Option CvexitState} {g : CvexitState → CvexitState}

theorem passes_some (hguest : s.toHost = false) (h : s.Raises s') : s.Passes (some s') := by
  intro s'' hs''
  cases hs''
  rw [h.toHost, hguest]
  exact h.events.passes

theorem Passes.of_raises (h : s.Raises s') (h' : s'.Passes result) : s.Passes result :=
  fun s'' hs'' => .of_raises h.events (h' s'' hs'')

theorem Passes.map (h : s.Passes result) (hg : ∀ s : CvexitState, s.Raises (g s)) :
    s.Passes (result.map g) := by
  intro s' hs'
  obtain ⟨s'', hresult, rfl⟩ := Option.map_eq_some_iff.mp hs'
  rw [(hg s'').toHost]
  exact (h s'' hresult).raises (hg s'').events

end CvexitState

section Handlers

open CvexitState

variable {ctx : CvexitContext} {s s' : CvexitState} {code : Int}

theorem passes_cvexitToHost : s.Passes (cvexitToHost ctx s) := by
  intro s' hs'
  obtain ⟨⟨p, v⟩, hswitch, rfl⟩ := Option.map_eq_some_iff.mp hs'
  change s.vcpu.events.Passes true v.events
  rw [SvmCustomVcpu.events_switchToHost hswitch]
  exact EventState.passes_saved

theorem passes_injectInvalidOpcode (hguest : s.toHost = false) : s.Passes (injectInvalidOpcode ctx s) := by
  unfold injectInvalidOpcode nvcSvmInjectCvmException
  split
  · exact passes_cvexitToHost
  · exact passes_some hguest (raises_injectEvent (by decide) (by decide))

theorem raises_nvcSvmNsvLoadNaeSyntheticMsrState {errorCode info1 info2 : Nat} :
    s.Raises (nvcSvmNsvLoadNaeSyntheticMsrState s errorCode info1 info2) := raises_of_same rfl rfl

theorem raises_injectGeneralProtection : s.Raises (injectGeneralProtection s) :=
  raises_injectEvent (by decide) (by decide)

theorem passes_nvcSvmCpuidCvexitHandler (hguest : s.toHost = false) :
    s.Passes (nvcSvmCpuidCvexitHandler ctx s) := by
  unfold nvcSvmCpuidCvexitHandler
  split
  · split
    · exact passes_some hguest raises_nvcSvmNsvLoadNaeSyntheticMsrState
    · exact passes_cvexitToHost
  · refine passes_some hguest (Raises.trans ?_ raises_advanceRip)
    exact raises_of_same rfl rfl

theorem passes_toHostAutomatic : s.Passes (toHostAutomatic ctx s) := by
  refine passes_cvexitToHost.map fun s => ?_
  split
  · exact raises_advanceRip
  · exact .refl

theorem passes_nvcSvmIoCvexitHandler (hguest : s.toHost = false) :
    s.Passes (nvcSvmIoCvexitHandler ctx s) := by
  unfold nvcSvmIoCvexitHandler
  split
  · exact passes_some hguest raises_nvcSvmNsvLoadNaeSyntheticMsrState
  · exact passes_cvexitToHost

theorem raises_nvcSvmRdmsrNsvexitHandler : s.Raises (nvcSvmRdmsrNsvexitHandler s) := by
  unfold nvcSvmRdmsrNsvexitHandler
  split
  · exact raises_withMsrValue.trans raises_advanceRip
  · split
    · exact raises_withMsrValue.trans raises_advanceRip
    · exact raises_injectGeneralProtection

theorem raises_writeSyntheticMsr {noExit : Bool} (h : writeSyntheticMsr ctx s = some (noExit, s')) :
    s.Raises s' := by
  unfold writeSyntheticMsr at h
  dsimp only at h
  split at h
  · cases h
    exact raises_of_same rfl rfl
  · split at h
    · split at h
      · cases h
      · cases h
        unfold nvcSvmNsvSynchronizeActivation
        dsimp only
        split <;> exact raises_of_same rfl rfl
    · split at h
      · split at h <;> cases h
        exact .refl
      · obtain ⟨msr, -, heq⟩ := Option.map_eq_some_iff.mp h
        cases heq
        exact raises_of_same rfl rfl

theorem raises_nvcSvmWrmsrNsvexitHandler : s.Raises (nvcSvmWrmsrNsvexitHandler ctx s).2 := by
  unfold nvcSvmWrmsrNsvexitHandler
  split
  · exact raises_injectGeneralProtection
  · next noExit s' hwrite => exact (raises_writeSyntheticMsr hwrite).trans raises_advanceRip

theorem raises_nvcSvmRdmsrCvexitHandler (h : nvcSvmRdmsrCvexitHandler ctx s = some s') : s.Raises s' := by
  obtain ⟨value, -, rfl⟩ := Option.map_eq_some_iff.mp h
  exact raises_withMsrValue

theorem raises_nvcSvmWrmsrCvexitHandler (h : nvcSvmWrmsrCvexitHandler ctx s = some s') : s.Raises s' := by
  unfold nvcSvmWrmsrCvexitHandler at h
  dsimp only at h
  split at h
  · cases h
    exact raises_withVmcb_dirty rfl
  split at h
  · split at h <;> cases h
    exact raises_of_same rfl rfl
  split at h
  · cases h
    exact raises_withVmcb_dirty rfl
  split at h
  · cases h
    exact raises_withShadowedBits.trans (raises_withVmcb_dirty rfl)
  split at h
  · next r _ =>
      cases h
      exact raises_withVmcb_write rfl
  · obtain ⟨name, -, rfl⟩ := Option.map_eq_some_iff.mp h
    exact raises_withVmcb Vmcb.sameEvents_writeBase

/-- The header that takes the place of the misplaced one has the same event. -/
def CvexitContext.KeepsEvents (ctx : CvexitContext) : Prop :=
  ∀ header, (ctx.misplaced header).injectedEvent = header.injectedEvent

theorem passes_nvcSvmMsrCvexitHandler (hctx : ctx.KeepsEvents) (hguest : s.toHost = false) :
    s.Passes (nvcSvmMsrCvexitHandler ctx s) := by
  unfold nvcSvmMsrCvexitHandler
  dsimp only
  split
  · have hnsv : s.Raises (if ctx.exitInfo1 % 2 ^ 8 != 0 then nvcSvmWrmsrNsvexitHandler ctx s
        else (true, nvcSvmRdmsrNsvexitHandler s)).2 := by
      split
      · exact raises_nvcSvmWrmsrNsvexitHandler
      · exact raises_nvcSvmRdmsrNsvexitHandler
    generalize (if ctx.exitInfo1 % 2 ^ 8 != 0 then nvcSvmWrmsrNsvexitHandler ctx s
      else (true, nvcSvmRdmsrNsvexitHandler s)) = result at hnsv ⊢
    split
    · exact passes_some hguest hnsv
    · exact .of_raises hnsv passes_cvexitToHost
  · split
    · split
      · exact passes_cvexitToHost
      · split
        · next s' hs' =>
            have hmsr : s.Raises s' := by
              split at hs'
              · exact raises_nvcSvmWrmsrCvexitHandler hs'
              · exact raises_nvcSvmRdmsrCvexitHandler hs'
            refine passes_some hguest (hmsr.trans (raises_of_same ?_ rfl))
            exact EventState.ext (hctx _) rfl rfl rfl rfl rfl rfl
        · exact passes_injectInvalidOpcode hguest
    · exact passes_some hguest .refl

/-- The interrupt window. The event of the structure is not valid after its injection. -/
theorem handled_nvcSvmVirtintCvexitHandler (hguest : s.toHost = false)
    (h : nvcSvmVirtintCvexitHandler ctx s = some s') :
    s.vcpu.events.Handled 0x64 s'.toHost s'.vcpu.events := by
  have hcancelled : ({ s.vcpu.events with virtualIrq := 0 } : EventState) =
      (s.withVmcb fun vmcb => ((vmcb.write .ignoreVirtualTpr 0).write .virtualIrq 0).dirty
        .avic).vcpu.events := rfl
  unfold EventState.Handled
  rw [if_pos rfl, hcancelled]
  unfold nvcSvmVirtintCvexitHandler at h
  dsimp only at h
  split at h
  · next hvirq =>
      cases h
      rw [if_pos (show s.vcpu.events.prevVirq = true from hvirq)]
      exact ⟨hguest, rfl⟩
  · next hvirq =>
      rw [if_neg (show ¬s.vcpu.events.prevVirq = true from hvirq)]
      split at h
      · exact passes_cvexitToHost _ h
      · exact passes_some (s := s.withVmcb _) hguest .refl _ h

theorem handled_nvcSvmIretCvexitHandler (hguest : s.toHost = false)
    (h : nvcSvmIretCvexitHandler ctx s = some s') :
    s.vcpu.events.Handled 0x74 s'.toHost s'.vcpu.events := by
  unfold EventState.Handled
  rw [if_neg (by decide)]
  unfold nvcSvmIretCvexitHandler at h
  dsimp only at h
  split at h
  · next hnmi =>
      cases h
      rw [if_pos ⟨rfl, hnmi⟩]
      exact ⟨hguest, rfl⟩
  · next hnmi =>
      rw [if_neg fun hiret => hnmi hiret.2]
      split at h
      · exact passes_cvexitToHost.map (fun _ => raises_withVmcb_dirty rfl) _ h
      · exact passes_some hguest .refl _ h

/-- The decoders leave the events alone. -/
theorem events_svmDecoderHandlers :
    (svmDecoderHandlers ctx s code).vcpu.events = s.vcpu.events ∧
      (svmDecoderHandlers ctx s code).toHost = s.toHost := by
  unfold svmDecoderHandlers
  split
  · unfold nvcSvmDecoderPfHandler
    split <;> exact ⟨rfl, rfl⟩
  · split
    · unfold nvcSvmDecoderIoHandler
      split <;> exact ⟨rfl, rfl⟩
    · split
      · unfold nvcSvmDecoderInstructionHandler
        split <;> exact ⟨rfl, rfl⟩
      · exact ⟨rfl, rfl⟩

theorem handled_svmCvexitHandlers (hctx : ctx.KeepsEvents) (hguest : s.toHost = false)
    (h : svmCvexitHandlers ctx s code = some s') :
    s.vcpu.events.Handled code s'.toHost s'.vcpu.events := by
  by_cases hvirtint : code = 0x64
  · subst hvirtint
    exact handled_nvcSvmVirtintCvexitHandler hguest h
  by_cases hiret : code = 0x74
  · subst hiret
    exact handled_nvcSvmIretCvexitHandler hguest h
  unfold EventState.Handled
  rw [if_neg hvirtint, if_neg fun hnmi => hiret hnmi.1]
  suffices hpasses : s.Passes (svmCvexitHandlers ctx s code) from hpasses s' h
  unfold svmCvexitHandlers
  rw [if_neg hvirtint, if_neg hiret]
  split
  · exact passes_some hguest (raises_withReg.trans raises_advanceRip)
  split
  · refine passes_some hguest (Raises.trans ?_ raises_advanceRip)
    exact raises_withShadowedBits.trans (raises_withVmcb_write rfl)
  split
  · exact passes_nvcSvmCpuidCvexitHandler hguest
  split
  · exact passes_some hguest raises_advanceRip
  split
  · exact passes_toHostAutomatic
  split
  · exact passes_nvcSvmIoCvexitHandler hguest
  split
  · exact passes_nvcSvmMsrCvexitHandler hctx hguest
  split
  · exact passes_injectInvalidOpcode hguest
  split
  · exact passes_some hguest .refl
  · exact passes_cvexitToHost

/-- Every exit does to the events what the machine allows. -/
theorem handled_nvcSvmExitHandler {caching : Bool} (hctx : ctx.KeepsEvents) (hguest : s.toHost = false)
    (h : nvcSvmExitHandler ctx s caching code = some s') :
    s.vcpu.events.Handled code s'.toHost s'.vcpu.events := by
  obtain ⟨s'', hhandler, rfl⟩ := Option.map_eq_some_iff.mp h
  have hresumed : s''.resumed.vcpu.events = s''.vcpu.events ∧ s''.resumed.toHost = s''.toHost := by
    unfold CvexitState.resumed
    split <;> exact ⟨rfl, rfl⟩
  have hdecoded : (svmDecoderHandlers ctx (s.exited caching) code).vcpu.events = s.vcpu.events :=
    events_svmDecoderHandlers.1
  rw [hresumed.1, hresumed.2, ← hdecoded]
  exact handled_svmCvexitHandlers hctx (events_svmDecoderHandlers.2.trans hguest) hhandler

end Handlers

/-! What the host does to the events, but for setting them. -/

theorem EditCalls.run_injectedEvent {supportedSizeMax : Nat} {calls : List EditCall} {vcpu : VirtualCpu} :
    (EditCalls.run supportedSizeMax calls vcpu).injectedEvent = vcpu.injectedEvent := by
  have hedits (es : List RegisterEdit) (vcpu : VirtualCpu) :
      (es.foldl VirtualCpu.edit vcpu).injectedEvent = vcpu.injectedEvent := by
    induction es generalizing vcpu with
    | nil => rfl
    | cons e es ih => exact ih (vcpu.edit e)
  rw [EditCalls.run_eq]
  exact hedits _ _

namespace SvmCustomVcpu

variable {v : SvmCustomVcpu}

theorem events_edited {supportedSizeMax : Nat} {calls : List EditCall} :
    (v.edited supportedSizeMax calls).events = v.events :=
  EventState.ext EditCalls.run_injectedEvent rfl rfl rfl rfl rfl rfl

theorem events_dump : (nvcSvmDumpGuestVcpuState v).events = v.events := by
  have hgroup (w : SvmCustomVcpu) (c : StateCache) (select : Register → Bool) :
      (w.dumpGroup c select).events = w.events := by
    unfold dumpGroup
    split <;> rfl
  have hsynchronized (w : SvmCustomVcpu) :
      events { w with header.synchronized := true } = w.events := rfl
  simp only [nvcSvmDumpGuestVcpuState, hsynchronized, hgroup]

theorem events_options (vm : SvmPermissionMaps) : (nvcSvmSetGuestVcpuOptions vm v).events = v.events := by
  unfold nvcSvmSetGuestVcpuOptions
  dsimp only
  split <;> rfl

end SvmCustomVcpu

/-! The runs of a vCPU. -/

structure EventRun where
  events : EventState
  inGuest : Bool

/-- An exit tells whether it interrupted the delivery of an event, and whether the guest has executed
iret since it was entered. -/
inductive EventAction where
  | set (event : EventInjection)
  | host
  | enter
  | exit (code : Int) (interrupted iret : Bool)

inductive EventRun.Takes : EventRun → EventAction → EventRun → Prop
  | set {e : EventState} {inGuest : Bool} (event : EventInjection) :
      Takes ⟨e, inGuest⟩ (.set event) ⟨{ e with injected := event }, inGuest⟩
  | host {e : EventState} : Takes ⟨e, false⟩ .host ⟨e, false⟩
  | enter {e : EventState} : Takes ⟨e, false⟩ .enter ⟨e.asked.entered, true⟩
  | exit {e e₁ e' : EventState} {code : Int} {interrupted iret toHost : Bool} (hexits : e.Exits e₁)
      (hhandled : e₁.Handled code toHost e') :
      Takes ⟨e, true⟩ (.exit code interrupted iret) ⟨e', !toHost⟩

def nvcSetEventInjection (event : EventInjection) (vcpu : VirtualCpu) : VirtualCpu :=
  { vcpu with injectedEvent := event }

/-- What `nvc_svmc_run_vcpu` does before it enters the guest. -/
def SvmCustomVcpu.askVirq (v : SvmCustomVcpu) : SvmCustomVcpu :=
  if v.header.injectedEvent.valid && v.header.injectedEvent.type == 0 then
    { v with specialState.prevVirq := true }
  else v

structure SvmEventRun where
  vcpu : SvmCustomVcpu
  inGuest : Bool

/-- What happens to a vCPU. Only an event can be set while the guest runs. The VMCB is that after the
guest has run, and the last two tell what `EventAction.exit` does. -/
inductive SvmEventStep where
  | set (event : EventInjection)
  | edit (supportedSizeMax : Nat) (calls : List EditCall)
  | dump
  | options (vm : SvmPermissionMaps) (vcpuOptions : VcpuOptions) (exceptionBitmap : Nat)
  | enter (cpu : Xsave.Features) (procId : Nat) (p : Processor) (host : VirtualCpu)
  | exit (vmcb : Vmcb) (ctx : CvexitContext) (p : Processor) (nsvs : SyntheticMsr → Nat) (code : Int)
      (interrupted iret : Bool)

def SvmEventStep.action : SvmEventStep → EventAction
  | set event => .set event
  | enter .. => .enter
  | exit _ _ _ _ code interrupted iret => .exit code interrupted iret
  | _ => .host

/-- The processor asks for its window again and again: it does not change the virtual interrupt. -/
structure Vmcb.EventTaken (vmcb vmcb' : Vmcb) : Prop where
  injection : vmcb'.field .eventInjection = 0 ∨
    vmcb'.field .eventInjection = noirBtr (vmcb.field .eventInjection) 31
  virtualIrq : vmcb'.field .virtualIrq = vmcb.field .virtualIrq
  vector : vmcb'.field .virtualInterruptVector = vmcb.field .virtualInterruptVector
  priority : vmcb'.field .virtualInterruptPriority = vmcb.field .virtualInterruptPriority

namespace SvmEventRun

def step (caching : Bool) (s : SvmEventRun) : SvmEventStep → Option SvmEventRun
  | .set event => some { s with vcpu.header := nvcSetEventInjection event s.vcpu.header }
  | .edit supportedSizeMax calls =>
      if s.inGuest then none else some { s with vcpu := s.vcpu.edited supportedSizeMax calls }
  | .dump => if s.inGuest then none else some { s with vcpu := nvcSvmDumpGuestVcpuState s.vcpu }
  | .options vm vcpuOptions exceptionBitmap =>
      if s.inGuest then none
      else
        some { s with
          vcpu := nvcSvmSetGuestVcpuOptions vm
            { s.vcpu with header := { s.vcpu.header with vcpuOptions, exceptionBitmap } } }
  | .enter cpu procId p host =>
      if s.inGuest then none
      else (nvcSvmSwitchToGuestVcpu cpu procId p host s.vcpu.askVirq).map fun entered =>
        ⟨entered.2.2, true⟩
  | .exit vmcb ctx p nsvs code _ _ =>
      if s.inGuest then
        (nvcSvmExitHandler ctx ⟨p, { s.vcpu with vmcb }, nsvs, false⟩ caching code).map fun exited =>
          ⟨exited.vcpu, !exited.toHost⟩
      else none

def next (caching : Bool) (s : SvmEventRun) (step : SvmEventStep) : SvmEventRun :=
  (s.step caching step).getD s

/-- No switch raises an exception. -/
def Possible (caching : Bool) (s : SvmEventRun) (step : SvmEventStep) : Prop :=
  (s.step caching step).isSome ∧
    match step with
    | .exit vmcb ctx _ _ _ _ _ => s.vcpu.vmcb.EventTaken vmcb ∧ ctx.KeepsEvents
    | _ => True

def view (s : SvmEventRun) : EventRun := ⟨s.vcpu.events, s.inGuest⟩

variable {caching : Bool} {s s' : SvmEventRun} {step : SvmEventStep}

theorem events_askVirq {v : SvmCustomVcpu} : v.askVirq.events = v.events.asked := by
  unfold SvmCustomVcpu.askVirq EventState.asked
  by_cases hasks : (v.header.injectedEvent.valid && v.header.injectedEvent.type == 0) = true
  · rw [if_pos hasks]
    exact (if_pos hasks).symm
  · rw [if_neg hasks]
    exact (if_neg hasks).symm

theorem Possible.step_eq (h : s.Possible caching step) :
    s.step caching step = some (s.next caching step) := by
  obtain ⟨s', hs'⟩ := Option.isSome_iff_exists.mp h.1
  unfold next
  rw [hs']
  rfl

theorem takes_host (hguest : s.inGuest = false) {v : SvmCustomVcpu} (h : v.events = s.vcpu.events) :
    s.view.Takes .host (SvmEventRun.view { s with vcpu := v }) := by
  unfold view
  rw [hguest, h]
  exact .host

theorem exits_of_eventTaken {v : SvmCustomVcpu} {vmcb : Vmcb} (h : v.vmcb.EventTaken vmcb) :
    v.events.Exits { v with vmcb }.events :=
  ⟨⟨vmcb.field .eventInjection, vmcb.field .eventErrorCode⟩, h.injection,
    EventState.ext rfl rfl rfl rfl h.virtualIrq h.vector h.priority⟩

/-- What happens to a vCPU happens to its events. -/
theorem Possible.takes (h : s.Possible caching step) :
    s.view.Takes step.action (s.next caching step).view := by
  have hstep := h.step_eq
  generalize s.next caching step = s' at hstep ⊢
  cases step with
  | set event =>
      cases hstep
      exact .set event
  | edit supportedSizeMax calls =>
      obtain ⟨hguest, heq⟩ := Option.ite_none_left_eq_some.mp hstep
      cases heq
      exact takes_host (Bool.eq_false_iff.mpr hguest) SvmCustomVcpu.events_edited
  | dump =>
      obtain ⟨hguest, heq⟩ := Option.ite_none_left_eq_some.mp hstep
      cases heq
      exact takes_host (Bool.eq_false_iff.mpr hguest) SvmCustomVcpu.events_dump
  | options vm vcpuOptions exceptionBitmap =>
      obtain ⟨hguest, heq⟩ := Option.ite_none_left_eq_some.mp hstep
      cases heq
      exact takes_host (Bool.eq_false_iff.mpr hguest) (SvmCustomVcpu.events_options vm)
  | enter cpu procId p host =>
      obtain ⟨hguest, hentered⟩ := Option.ite_none_left_eq_some.mp hstep
      obtain ⟨⟨p', host', v'⟩, hswitch, rfl⟩ := Option.map_eq_some_iff.mp hentered
      unfold view
      rw [Bool.eq_false_iff.mpr hguest, SvmCustomVcpu.events_switchToGuest hswitch, events_askVirq]
      exact .enter
  | exit vmcb ctx p nsvs code interrupted iret =>
      obtain ⟨htaken, hctx⟩ := h.2
      obtain ⟨hguest, hexited⟩ := Option.ite_none_right_eq_some.mp hstep
      obtain ⟨exited, hhandler, rfl⟩ := Option.map_eq_some_iff.mp hexited
      unfold view
      rw [hguest]
      exact .exit (exits_of_eventTaken htaken) (handled_nvcSvmExitHandler hctx rfl hhandler)

theorem step_enter {cpu : Xsave.Features} {procId : Nat} {p : Processor} {host : VirtualCpu}
    {v : SvmCustomVcpu} (hnsv : v.nsvGuest = false) (hloadable : GuestLoadable cpu v.header p) :
    SvmEventRun.step caching ⟨v, false⟩ (.enter cpu procId p host) =
      some ⟨v.askVirq.entered procId, true⟩ := by
  have hasked : v.askVirq.header = v.header ∧ v.askVirq.nsvGuest = v.nsvGuest := by
    unfold SvmCustomVcpu.askVirq
    split <;> exact ⟨rfl, rfl⟩
  have hswitch : nvcSvmSwitchToGuestVcpu cpu procId p host v.askVirq = _ :=
    nvcSvmSwitchToGuestVcpu_eq (hasked.2.trans hnsv)
  rw [enterGuest_of_loadable (hasked.1 ▸ hloadable)] at hswitch
  change (nvcSvmSwitchToGuestVcpu cpu procId p host v.askVirq).map
    (fun entered => (⟨entered.2.2, true⟩ : SvmEventRun)) = _
  rw [hswitch]
  rfl

theorem isSome_exit {vmcb : Vmcb} {ctx : CvexitContext} {p : Processor} {nsvs : SyntheticMsr → Nat}
    {code : Int} {interrupted iret : Bool} (hguest : s.inGuest = true)
    (h : (nvcSvmExitHandler ctx ⟨p, { s.vcpu with vmcb }, nsvs, false⟩ caching code).isSome) :
    (s.step caching (.exit vmcb ctx p nsvs code interrupted iret)).isSome := by
  dsimp only [SvmEventRun.step]
  rw [if_pos hguest, Option.isSome_map]
  exact h

end SvmEventRun

theorem isSome_cvexitToHost {ctx : CvexitContext} {s : CvexitState} (hnsv : s.vcpu.nsvGuest = false)
    (hloadable : HostLoadable ctx.cpu ctx.host) : (cvexitToHost ctx s).isSome := by
  unfold cvexitToHost
  rw [nvcSvmSwitchToHostVcpu_eq hnsv hloadable]
  rfl

/-! A vCPU with nothing in it, on a processor that has every feature. -/

def quietVcpu : SvmCustomVcpu where
  header := zeroVirtualCpu
  vmcb := ⟨fun _ => 0, fun _ => false⟩
  procId := 0
  shadowedBits := ⟨false, false, false⟩
  specialState := ⟨false, false, false, false⟩
  nsvGuest := false
  vmsa := ⟨fun _ => 0, true⟩

def quietContext : CvexitContext where
  cpu := anyFeatures
  host := zeroVirtualCpu
  nrips := true
  decodeAssists := true
  instructionLength := 0
  exitInfo1 := 0
  exitInfo2 := 0
  tsc := 0
  msrInterceptions := none
  quickpath := []
  mtrrDefType := 0
  vmsaArea := zeroArea
  misplaced := id

/-- The host sets an event, and the guest is entered. -/
def quietEntry (event : EventInjection) : List SvmEventStep :=
  [.set event, .enter anyFeatures 0 zeroProcessor zeroVirtualCpu]

def quietEntered (event : EventInjection) : SvmEventRun :=
  ⟨({ quietVcpu with header.injectedEvent := event } : SvmCustomVcpu).askVirq.entered 0, true⟩

theorem step_quietEntry (caching : Bool) (event : EventInjection) :
    SvmEventRun.step caching ⟨{ quietVcpu with header.injectedEvent := event }, false⟩
      (.enter anyFeatures 0 zeroProcessor zeroVirtualCpu) = some (quietEntered event) :=
  SvmEventRun.step_enter rfl ⟨⟨fun _ h => absurd h Bool.false_ne_true, fun _ => rfl⟩, rfl⟩

end NoirVisor
