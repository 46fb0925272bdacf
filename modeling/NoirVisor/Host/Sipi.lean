import NoirVisor.Host.Init
import NoirVisor.Mailbox
import NoirVisor.Transition
import Mathlib.Data.List.FinRange

/-!
# Start-up IPIs between processors

A processor that takes an INIT waits for a start-up IPI. A write to the interrupt command register of
the APIC leaves the vector with the target and signals it.
-/

namespace NoirVisor

open Copying Mailbox Transition SvmVmcbOffset

def amd64ApicIcrMsgSipi : BitVec 3 := 6
def amd64ApicIcrDshDestination : BitVec 2 := 0
def amd64ApicIcrDshExclusive : BitVec 2 := 3

/-! The fields of `amd64_apic_register_icr_lo` and `amd64_apic_register_icr_hi`. -/

namespace IcrLo

variable (lo : BitVec 32)

def vector : BitVec 8 := lo.extractLsb' 0 8

def msgType : BitVec 3 := lo.extractLsb' 8 3

def destMode : Bool := lo.getLsbD 11

def destShorthand : BitVec 2 := lo.extractLsb' 18 2

end IcrLo

def icrHiDestination (hi : BitVec 32) : BitVec 8 := hi.extractLsb' 24 8

/-- Where a processor is. It sends to the targets in order; a target is `none` where the index is
outside `virtual_cpu`, and `written` tells that the first has its vector. -/
inductive SipiPhase (n : Nat) where
  | guest
  | waiting
  | released
  | selected (vector : BitVec 8)
  | sending (vector : BitVec 8) (targets : List (Option (Fin n))) (written : Bool)

/-- `gif`, `rInit` and `pendingInit` are those of its nested hypervisor. -/
structure SipiCpu (n : Nat) extends InitState where
  cpuidFms : BitVec 32
  gif : Bool
  rInit : Bool
  pendingInit : Bool
  icrHi : BitVec 32
  sipiSent : Bool
  sipiVector : BitVec 8
  phase : SipiPhase n

namespace SipiCpu

variable {n : Nat} (cpu : SipiCpu n)

def inject (vector : BitVec 8) (errorCode : BitVec 32) : SipiCpu n :=
  { cpu with vmcb :=
      noirSvmInjectEvent cpu.vmcb vector amd64FaultTrapException true true errorCode }

/-- `nvc_svm_sx_exception_handler`, up to the wait. -/
def nvcSvmSxInitRedirection : SipiCpu n :=
  if cpu.gif then { cpu with pendingInit := true }
  else if cpu.rInit then cpu.inject amd64SecurityException amd64SxInitRedirection
  else
    { cpu with
      toInitState := nvcSvmEmulateInitSignal cpu.toInitState cpu.cpuidFms, phase := .waiting }

/-- `noir_locked_btr` ends the wait if the bit was set. -/
def poll : SipiCpu n :=
  if cpu.sipiSent then { cpu with sipiSent := false, phase := .released } else cpu

def selectCs : SipiCpu n :=
  { cpu with
    vmcb := cpu.vmcb.vmwrite guestCsSelector 2 (cpu.sipiVector.setWidth 16 <<< 8)
    phase := .selected cpu.sipiVector }

def resume : SipiCpu n :=
  { cpu with
    vmcb := (cpu.vmcb.vmwrite64 (guestCsSelector + 8) (cpu.sipiVector.setWidth 64 <<< 12)).vmwrite64
      guestRip 0
    phase := .guest }

end SipiCpu

section Send

variable {n : Nat} (apicId : Fin n → BitVec 8)

/-- `none` stands for `0xFFFFFFFF`. -/
def nvcSvmConvertApicId (id : BitVec 8) : Option (Fin n) :=
  (List.finRange n).find? fun i => apicId i == id

inductive IcrWrite (n : Nat) where
  | passes
  | faults
  | sends (vector : BitVec 8) (targets : List (Option (Fin n)))

/-- What the handler of nested page faults does with a write to `ICR_LO`. The destination mode is not
looked at. -/
def nvcSvmIcrLoWrite (p : Fin n) (hi lo : BitVec 32) : IcrWrite n :=
  if IcrLo.msgType lo = amd64ApicIcrMsgSipi then
    if IcrLo.destShorthand lo = amd64ApicIcrDshDestination then
      if icrHiDestination hi = 0xFF then .faults
      else .sends (IcrLo.vector lo) [nvcSvmConvertApicId apicId (icrHiDestination hi)]
    else if IcrLo.destShorthand lo = amd64ApicIcrDshExclusive then
      .sends (IcrLo.vector lo) (((List.finRange n).filter fun i => p ≠ i).map some)
    else .faults
  else .passes

def SipiPhase.send (vector : BitVec 8) : List (Option (Fin n)) → SipiPhase n
  | [] => .guest
  | targets => .sending vector targets false

end Send

/-- `outside` tells that memory outside `virtual_cpu` was written. -/
structure SipiHost (n : Nat) where
  cpu : Fin n → SipiCpu n
  outside : Bool

inductive SipiEvent (n : Nat) where
  | init (p : Fin n)
  | icrHi (p : Fin n) (value : BitVec 32)
  | icrLo (p : Fin n) (value : BitVec 32)
  | x2apicIcr (p : Fin n) (value : BitVec 64)
  | write (p : Fin n)
  | signal (p : Fin n)
  | poll (p : Fin n)
  | selectCs (p : Fin n)
  | resume (p : Fin n)

namespace SipiHost

variable {n : Nat} (apicId : Fin n → BitVec 8) (h : SipiHost n)

def modify (p : Fin n) (f : SipiCpu n → SipiCpu n) : SipiHost n :=
  { h with cpu := Function.update h.cpu p (f (h.cpu p)) }

def setPhase (p : Fin n) (phase : SipiPhase n) : SipiHost n := h.modify p ({ · with phase })

def icrLo (p : Fin n) (lo : BitVec 32) : SipiHost n :=
  match nvcSvmIcrLoWrite apicId p (h.cpu p).icrHi lo with
  | .passes => h
  | .faults => h.modify p (·.inject amd64GeneralProtection 0)
  | .sends vector targets => h.setPhase p (.send vector targets)

/-- A target gets the vector. -/
def writeVector (p : Fin n) : SipiHost n :=
  match (h.cpu p).phase with
  | .sending vector (some t :: targets) _ =>
      (h.modify t ({ · with sipiVector := vector })).setPhase p (.sending vector (some t :: targets) true)
  | .sending vector (none :: targets) _ =>
      { h.setPhase p (.sending vector (none :: targets) true) with outside := true }
  | _ => h

/-- `noir_locked_bts`. -/
def signal (p : Fin n) : SipiHost n :=
  match (h.cpu p).phase with
  | .sending vector (some t :: targets) _ =>
      (h.modify t ({ · with sipiSent := true })).setPhase p (.send vector targets)
  | .sending vector (none :: targets) _ =>
      { h.setPhase p (.send vector targets) with outside := true }
  | _ => h

/-- The write of `amd64_x2apic_icr` is swallowed. -/
def step : SipiEvent n → SipiHost n
  | .init p => h.modify p (·.nvcSvmSxInitRedirection)
  | .icrHi p icrHi => h.modify p ({ · with icrHi })
  | .icrLo p lo => h.icrLo apicId p lo
  | .x2apicIcr _ _ => h
  | .write p => h.writeVector p
  | .signal p => h.signal p
  | .poll p => h.modify p (·.poll)
  | .selectCs p => h.modify p (·.selectCs)
  | .resume p => h.modify p (·.resume)

variable {h} {p q u : Fin n} {f : SipiCpu n → SipiCpu n} {phase : SipiPhase n}

theorem modify_cpu : (h.modify p f).cpu q = if q = p then f (h.cpu p) else h.cpu q :=
  Function.update_apply _ _ _ _

theorem modify_field {α : Type} (field : SipiCpu n → α) (hkept : ∀ cpu, field (f cpu) = field cpu) :
    field ((h.modify p f).cpu q) = field (h.cpu q) := by
  rw [modify_cpu]
  split
  case isTrue hsame => rw [hkept, hsame]
  case isFalse => rfl

theorem setPhase_phase : ((h.setPhase p phase).cpu q).phase =
    if q = p then phase else (h.cpu q).phase := by
  rw [setPhase, modify_cpu]
  split <;> rfl

theorem setPhase_field {α : Type} (field : SipiCpu n → α)
    (hkept : ∀ cpu, field { cpu with phase } = field cpu) :
    field ((h.setPhase p phase).cpu q) = field (h.cpu q) := modify_field field hkept

end SipiHost

/-- `amd64_x2apic_register_icr`. The destination is in the upper half. -/
def x2apicIcrLo (icr : BitVec 64) : BitVec 32 := icr.setWidth 32

/-- `sent` are the vectors of the start-up IPIs that were addressed to a processor since it took its
last INIT. -/
structure SipiRun (n : Nat) extends SipiHost n where
  sent : Fin n → List (BitVec 8)

namespace SipiRun

variable {n : Nat} (apicId : Fin n → BitVec 8) (x2apicId : Fin n → BitVec 32) (r : SipiRun n)

def phase (p : Fin n) : SipiPhase n := (r.cpu p).phase

/-- An INIT that starts a wait. -/
def takesInit (p : Fin n) : Bool := !(r.cpu p).gif && !(r.cpu p).rInit

/-- A start-up IPI that is written to `amd64_x2apic_icr` is addressed to the processor. -/
def x2apicAddressed (p t : Fin n) (icr : BitVec 64) : Bool :=
  IcrLo.msgType (x2apicIcrLo icr) == amd64ApicIcrMsgSipi &&
    (IcrLo.destShorthand (x2apicIcrLo icr) == amd64ApicIcrDshDestination &&
        x2apicId t == icr.extractLsb' 32 32 ||
      IcrLo.destShorthand (x2apicIcrLo icr) == amd64ApicIcrDshExclusive && t != p)

/-- A start-up IPI through the APIC page is sent by the signal. -/
def nextSent (e : SipiEvent n) (t : Fin n) : List (BitVec 8) :=
  match e with
  | .init p => if r.takesInit p ∧ t = p then [] else r.sent t
  | .x2apicIcr p icr =>
      if x2apicAddressed x2apicId p t icr then r.sent t ++ [IcrLo.vector (x2apicIcrLo icr)]
      else r.sent t
  | .signal p =>
      match r.phase p with
      | .sending vector (some u :: _) _ => if t = u then r.sent t ++ [vector] else r.sent t
      | _ => r.sent t
  | _ => r.sent t

def next (e : SipiEvent n) : SipiRun n where
  toSipiHost := r.toSipiHost.step apicId e
  sent := r.nextSent x2apicId e

/-- Every processor does one thing after the other. -/
def Takes : SipiEvent n → Prop
  | .init p => r.phase p = .guest
  | .icrHi p _ => r.phase p = .guest
  | .icrLo p _ => r.phase p = .guest
  | .x2apicIcr p _ => r.phase p = .guest
  | .write p => ∃ vector t targets, r.phase p = .sending vector (t :: targets) false
  | .signal p => ∃ vector t targets, r.phase p = .sending vector (t :: targets) true
  | .poll p => r.phase p = .waiting
  | .selectCs p => r.phase p = .released
  | .resume p => ∃ vector, r.phase p = .selected vector

/-- The code and the base of CS are those of the vector. -/
def Started (vmcb : Page) (vector : BitVec 8) : Prop :=
  vmcb.vmread16 guestCsSelector = vector.setWidth 16 <<< 8 ∧
    vmcb.vmread64 (guestCsSelector + 8) = vector.setWidth 64 <<< 12 ∧ vmcb.vmread64 guestRip = 0

/-- What is to hold of a step. A processor leaves the wait exactly if a start-up IPI was sent to it. -/
structure Behaves (e : SipiEvent n) : Prop where
  polled : ∀ p, e = .poll p →
    ((r.next apicId x2apicId e).phase p ≠ .waiting ↔ r.sent p ≠ [])
  resumed : ∀ p, e = .resume p → (r.next apicId x2apicId e).phase p = .guest ∧
    ∃ vector ∈ r.sent p, Started ((r.next apicId x2apicId e).cpu p).vmcb vector
  inside : (r.next apicId x2apicId e).outside = false

/-- The vector of a target is overwritten neither before it is signalled nor before it is read. -/
def Leaves (t : Fin n) : Prop :=
  (∀ q vector targets, r.phase q ≠ .sending vector (some t :: targets) true) ∧
    ¬(r.phase t = .waiting ∧ (r.cpu t).sipiSent = true) ∧ r.phase t ≠ .released ∧
      ∀ vector, r.phase t ≠ .selected vector

/-- An INIT finds no signal, an IPI goes through the APIC page to a processor there is, and the vector
of its target is free. -/
def Fits : SipiEvent n → Prop
  | .init p => r.takesInit p = true → (r.cpu p).sipiSent = false
  | .icrLo p lo => ∀ vector targets, nvcSvmIcrLoWrite apicId p (r.cpu p).icrHi lo =
      .sends vector targets → none ∉ targets ∧
        (IcrLo.destShorthand lo = amd64ApicIcrDshDestination → IcrLo.destMode lo = false)
  | .x2apicIcr _ icr => IcrLo.msgType (x2apicIcrLo icr) ≠ amd64ApicIcrMsgSipi
  | .write p => ∀ vector t targets, r.phase p = .sending vector (some t :: targets) false → r.Leaves t
  | _ => True

/-- Every processor runs its guest, and no signal is there. -/
structure Start : Prop where
  guest : ∀ p, r.phase p = .guest
  clear : ∀ p, (r.cpu p).sipiSent = false
  inside : r.outside = false

/-! ## The slot of a processor -/

def reader : SipiPhase n → Reader (BitVec 8)
  | .waiting => .waiting
  | .released => .taken
  | .selected vector => .first vector
  | _ => .idle

def writing (t : Fin n) : SipiPhase n → Option (BitVec 8)
  | .sending vector (some u :: _) true => if t = u then some vector else none
  | _ => none

def slot (t : Fin n) : Slot (Fin n) (BitVec 8) where
  value := (r.cpu t).sipiVector
  full := (r.cpu t).sipiSent
  reader := reader (r.phase t)
  writing q := writing t (r.phase q)
  sent := r.sent t

variable {r} {apicId x2apicId} {p q t u : Fin n} {e : SipiEvent n}

/-- A processor that begins to send has written nothing. -/
theorem writing_send {vector : BitVec 8} {targets : List (Option (Fin n))} :
    writing t (.send vector targets) = none := by
  cases targets with
  | nil => rfl
  | cons u targets => cases u <;> rfl

theorem reader_send {vector : BitVec 8} {targets : List (Option (Fin n))} :
    reader (.send vector targets : SipiPhase n) = .idle := by
  cases targets with
  | nil => rfl
  | cons u targets => rfl

/-- A processor does something by itself. -/
theorem slot_modify {f : SipiCpu n → SipiCpu n} {sent : Fin n → List (BitVec 8)}
    (hwriting : writing t (f (r.cpu p)).phase = writing t (r.phase p)) :
    slot ⟨r.modify p f, sent⟩ t =
      if t = p then ⟨(f (r.cpu p)).sipiVector, (f (r.cpu p)).sipiSent, reader (f (r.cpu p)).phase,
        (r.slot t).writing, sent t⟩
      else { r.slot t with sent := sent t } := by
  have hphases : ∀ q, writing t ((r.modify p f).cpu q).phase = writing t (r.phase q) := by
    intro q
    rw [SipiHost.modify_cpu]
    split
    case isTrue hq => rw [hwriting, hq]
    case isFalse => rfl
  have hcpu : (r.modify p f).cpu t = if t = p then f (r.cpu p) else r.cpu t := SipiHost.modify_cpu
  split
  case isTrue ht =>
    rw [if_pos ht] at hcpu
    ext1
    · exact congrArg SipiCpu.sipiVector hcpu
    · exact congrArg SipiCpu.sipiSent hcpu
    · exact congrArg (fun cpu => reader cpu.phase) hcpu
    · exact funext hphases
    · rfl
  case isFalse ht =>
    rw [if_neg ht] at hcpu
    ext1
    · exact congrArg SipiCpu.sipiVector hcpu
    · exact congrArg SipiCpu.sipiSent hcpu
    · exact congrArg (fun cpu => reader cpu.phase) hcpu
    · exact funext hphases
    · rfl

/-- A processor sends something to a target, which can be itself. -/
theorem slot_send {g : SipiCpu n → SipiCpu n} {phase : SipiPhase n} {sent : Fin n → List (BitVec 8)}
    (hkept : ∀ cpu, (g cpu).phase = cpu.phase) (hreader : reader phase = reader (r.phase p)) :
    slot ⟨(r.modify u g).setPhase p phase, sent⟩ t =
      ⟨if t = u then (g (r.cpu t)).sipiVector else (r.cpu t).sipiVector,
        if t = u then (g (r.cpu t)).sipiSent else (r.cpu t).sipiSent, (r.slot t).reader,
        Function.update (r.slot t).writing p (writing t phase), sent t⟩ := by
  have hphase : ∀ q, (((r.modify u g).setPhase p phase).cpu q).phase =
      if q = p then phase else r.phase q := by
    intro q
    rw [SipiHost.setPhase_phase]
    split
    · rfl
    · exact SipiHost.modify_field SipiCpu.phase hkept
  have hcpu : (r.modify u g).cpu t = if t = u then g (r.cpu t) else r.cpu t := by
    rw [SipiHost.modify_cpu]
    split
    case isTrue ht => rw [ht]
    case isFalse => rfl
  ext1
  · change (((r.modify u g).setPhase p phase).cpu t).sipiVector = _
    rw [SipiHost.setPhase_field SipiCpu.sipiVector (fun _ => rfl), hcpu]
    split <;> rfl
  · change (((r.modify u g).setPhase p phase).cpu t).sipiSent = _
    rw [SipiHost.setPhase_field SipiCpu.sipiSent (fun _ => rfl), hcpu]
    split <;> rfl
  · change reader (((r.modify u g).setPhase p phase).cpu t).phase = reader (r.phase t)
    rw [hphase]
    split
    case isTrue ht => rw [hreader, ht]
    case isFalse => rfl
  · funext q
    change writing t (((r.modify u g).setPhase p phase).cpu q).phase =
      Function.update (r.slot t).writing p (writing t phase) q
    rw [hphase, Function.update_apply]
    split <;> rfl
  · rfl

/-- The targets are processors, and a selector that was written is in the VMCB. -/
def Settled (cpu : SipiCpu n) : Prop :=
  match cpu.phase with
  | .sending _ targets _ => none ∉ targets
  | .selected vector =>
      ∃ vmcb : Page, cpu.vmcb = vmcb.vmwrite guestCsSelector 2 (vector.setWidth 16 <<< 8)
  | _ => True

theorem Settled.targets {cpu : SipiCpu n} {vector : BitVec 8} {targets : List (Option (Fin n))}
    {written : Bool} (h : Settled cpu) (hphase : cpu.phase = .sending vector targets written) :
    none ∉ targets := by
  unfold Settled at h
  rw [hphase] at h
  exact h

theorem Settled.selected {cpu : SipiCpu n} {vector : BitVec 8} (h : Settled cpu)
    (hphase : cpu.phase = .selected vector) :
    ∃ vmcb : Page, cpu.vmcb = vmcb.vmwrite guestCsSelector 2 (vector.setWidth 16 <<< 8) := by
  unfold Settled at h
  rw [hphase] at h
  exact h

theorem settled_of_same {cpu cpu' : SipiCpu n} (h : Settled cpu) (hphase : cpu'.phase = cpu.phase)
    (hvmcb : cpu'.vmcb = cpu.vmcb) : Settled cpu' := by
  unfold Settled at h ⊢
  rw [hphase, hvmcb]
  exact h

/-- A processor whose guest runs is settled. -/
theorem settled_of_guest {cpu : SipiCpu n} (hphase : cpu.phase = .guest) : Settled cpu := by
  unfold Settled
  rw [hphase]
  trivial

theorem settled_send {cpu : SipiCpu n} {vector : BitVec 8} {targets : List (Option (Fin n))}
    (hphase : cpu.phase = .send vector targets) (htargets : none ∉ targets) : Settled cpu := by
  unfold Settled
  rw [hphase]
  cases targets with
  | nil => trivial
  | cons u targets => exact htargets

theorem settled_modify {h : SipiHost n} {f : SipiCpu n → SipiCpu n}
    (hsettled : ∀ q, Settled (h.cpu q)) (hp : Settled (f (h.cpu p))) (q : Fin n) :
    Settled ((h.modify p f).cpu q) := by
  rw [SipiHost.modify_cpu]
  split
  · exact hp
  · exact hsettled q

theorem slot_same {f : SipiCpu n → SipiCpu n}
    (hvector : (f (r.cpu p)).sipiVector = (r.cpu p).sipiVector)
    (hsent : (f (r.cpu p)).sipiSent = (r.cpu p).sipiSent)
    (hwriting : writing t (f (r.cpu p)).phase = writing t (r.phase p))
    (hreader : reader (f (r.cpu p)).phase = reader (r.phase p)) :
    slot ⟨r.modify p f, r.sent⟩ t = r.slot t := by
  rw [slot_modify hwriting]
  split
  case isTrue ht =>
    subst ht
    rw [hvector, hsent, hreader]
    rfl
  case isFalse => rfl

theorem slot_icrLo {lo : BitVec 32} (hphase : r.phase p = .guest) :
    slot ⟨r.icrLo apicId p lo, r.sent⟩ t = r.slot t := by
  unfold SipiHost.icrLo
  split
  · rfl
  · exact slot_same rfl rfl rfl rfl
  · apply slot_same rfl rfl
    · rw [hphase]
      exact writing_send
    · rw [hphase]
      exact reader_send

theorem initRedirection_of_taken (htaken : r.takesInit p = true) :
    (r.cpu p).nvcSvmSxInitRedirection = { r.cpu p with
      toInitState := nvcSvmEmulateInitSignal (r.cpu p).toInitState (r.cpu p).cpuidFms
      phase := .waiting } := by
  obtain ⟨hgif, hrInit⟩ := Bool.and_eq_true_iff.mp htaken
  unfold SipiCpu.nvcSvmSxInitRedirection
  rw [if_neg ((Bool.not_eq_true' _).mp hgif ▸ Bool.false_ne_true),
    if_neg ((Bool.not_eq_true' _).mp hrInit ▸ Bool.false_ne_true)]

/-- An INIT that is not taken leaves the processor where it is. -/
theorem initRedirection_of_not_taken (htaken : r.takesInit p = false) :
    (r.cpu p).nvcSvmSxInitRedirection.phase = r.phase p ∧
      (r.cpu p).nvcSvmSxInitRedirection.sipiSent = (r.cpu p).sipiSent ∧
        (r.cpu p).nvcSvmSxInitRedirection.sipiVector = (r.cpu p).sipiVector := by
  unfold SipiCpu.nvcSvmSxInitRedirection
  split
  case isTrue => exact ⟨rfl, rfl, rfl⟩
  case isFalse hgif =>
    split
    case isTrue => exact ⟨rfl, rfl, rfl⟩
    case isFalse hrInit =>
      unfold takesInit at htaken
      rw [Bool.eq_false_of_not_eq_true hgif, Bool.eq_false_of_not_eq_true hrInit] at htaken
      exact absurd htaken (by decide)

theorem slot_init (hphase : r.phase p = .guest) :
    (r.next apicId x2apicId (.init p)).slot t =
      if r.takesInit p ∧ t = p then (r.slot t).step .wait else r.slot t := by
  have hsent : (r.next apicId x2apicId (.init p)).sent t =
      if r.takesInit p ∧ t = p then [] else r.sent t := rfl
  cases htaken : r.takesInit p with
  | true =>
      have hstep := initRedirection_of_taken htaken
      have hwriting : writing t (r.cpu p).nvcSvmSxInitRedirection.phase = writing t (r.phase p) := by
        rw [hstep, hphase]
        rfl
      refine (slot_modify hwriting).trans ?_
      rw [hstep]
      by_cases ht : t = p
      · subst ht
        rw [if_pos rfl, if_pos ⟨rfl, rfl⟩]
        ext1
        · rfl
        · rfl
        · rfl
        · rfl
        · exact hsent.trans (if_pos ⟨htaken, rfl⟩)
      · rw [if_neg ht, if_neg fun h => ht h.2]
        ext1
        · rfl
        · rfl
        · rfl
        · rfl
        · exact hsent.trans (if_neg fun h => ht h.2)
  | false =>
      obtain ⟨hkept, hbit, hvector⟩ := initRedirection_of_not_taken htaken
      have hsame : r.nextSent x2apicId (.init p) = r.sent := by
        funext t
        exact if_neg fun h => Bool.false_ne_true (htaken.symm.trans h.1)
      rw [if_neg fun h => Bool.false_ne_true h.1]
      change slot ⟨r.modify p (·.nvcSvmSxInitRedirection), r.nextSent x2apicId (.init p)⟩ t = _
      rw [hsame]
      exact slot_same hvector hbit (congrArg _ hkept) (congrArg _ hkept)

theorem writeVector_of_sending {vector : BitVec 8} {targets : List (Option (Fin n))}
    (hphase : r.phase p = .sending vector (some u :: targets) false) :
    r.writeVector p = (r.modify u ({ · with sipiVector := vector })).setPhase p
      (.sending vector (some u :: targets) true) := by
  unfold SipiHost.writeVector
  rw [show (r.cpu p).phase = _ from hphase]

theorem signal_of_sending {vector : BitVec 8} {targets : List (Option (Fin n))}
    (hphase : r.phase p = .sending vector (some u :: targets) true) :
    r.signal p = (r.modify u ({ · with sipiSent := true })).setPhase p (.send vector targets) := by
  unfold SipiHost.signal
  rw [show (r.cpu p).phase = _ from hphase]

theorem slot_write {vector : BitVec 8} {targets : List (Option (Fin n))}
    (hphase : r.phase p = .sending vector (some u :: targets) false) :
    slot ⟨r.writeVector p, r.sent⟩ t =
      if t = u then (r.slot t).step (.write p vector) else r.slot t := by
  have hreader : reader (.sending vector (some u :: targets) true) = reader (r.phase p) := by
    rw [hphase]
    rfl
  rw [writeVector_of_sending hphase, slot_send (g := ({ · with sipiVector := vector })) (fun _ => rfl) hreader]
  have hwriting : writing t (.sending vector (some u :: targets) true) =
      if t = u then some vector else none := rfl
  rw [hwriting]
  by_cases ht : t = u
  · rw [if_pos ht, if_pos ht, if_pos ht, if_pos ht]
    rfl
  · rw [if_neg ht, if_neg ht, if_neg ht, if_neg ht]
    have hnone : (r.slot t).writing p = none := by
      change writing t (r.phase p) = none
      rw [hphase]
      rfl
    rw [← hnone, Function.update_eq_self]
    rfl

theorem slot_signal {vector : BitVec 8} {targets : List (Option (Fin n))}
    (hphase : r.phase p = .sending vector (some u :: targets) true) :
    (r.next apicId x2apicId (.signal p)).slot t =
      if t = u then (r.slot t).step (.signal p) else r.slot t := by
  have hsent : r.nextSent x2apicId (.signal p) t =
      if t = u then r.sent t ++ [vector] else r.sent t := by
    unfold nextSent
    dsimp only
    rw [hphase]
  have hbefore : (r.slot t).writing p = if t = u then some vector else none := by
    change writing t (r.phase p) = _
    rw [hphase]
    rfl
  change slot ⟨r.signal p, r.nextSent x2apicId (.signal p)⟩ t = _
  have hreader : reader (.send vector targets) = reader (r.phase p) := by
    rw [hphase]
    exact reader_send
  rw [signal_of_sending hphase, slot_send (g := ({ · with sipiSent := true })) (fun _ => rfl) hreader,
    hsent, writing_send]
  by_cases ht : t = u
  · rw [if_pos ht] at hbefore
    rw [if_pos ht, if_pos ht, if_pos ht, if_pos ht]
    ext1
    · rfl
    · rfl
    · rfl
    · rfl
    · change r.sent t ++ [vector] = r.sent t ++ ((r.slot t).writing p).toList
      rw [hbefore]
      rfl
  · rw [if_neg ht] at hbefore
    rw [if_neg ht, if_neg ht, if_neg ht, if_neg ht, ← hbefore, Function.update_eq_self]
    rfl

theorem slot_poll (hphase : r.phase p = .waiting) :
    slot ⟨r.modify p (·.poll), r.sent⟩ t = if t = p then (r.slot t).step .poll else r.slot t := by
  have hwriting : writing t (r.cpu p).poll.phase = writing t (r.phase p) := by
    unfold SipiCpu.poll
    split
    · rw [hphase]
      rfl
    · rfl
  rw [slot_modify hwriting]
  split
  case isFalse => rfl
  case isTrue ht =>
    subst ht
    change _ = if (r.cpu t).sipiSent then { r.slot t with full := false, reader := .taken } else r.slot t
    unfold SipiCpu.poll
    split <;> rfl

theorem slot_selectCs (hphase : r.phase p = .released) :
    slot ⟨r.modify p (·.selectCs), r.sent⟩ t = if t = p then (r.slot t).step .first else r.slot t := by
  have hwriting : writing t (r.cpu p).selectCs.phase = writing t (r.phase p) := by
    rw [hphase]
    rfl
  rw [slot_modify hwriting]
  split
  case isFalse => rfl
  case isTrue ht =>
    subst ht
    rfl

theorem slot_resume {vector : BitVec 8} (hphase : r.phase p = .selected vector) :
    slot ⟨r.modify p (·.resume), r.sent⟩ t = if t = p then (r.slot t).step .second else r.slot t := by
  have hwriting : writing t (r.cpu p).resume.phase = writing t (r.phase p) := by
    rw [hphase]
    rfl
  rw [slot_modify hwriting]
  split
  case isFalse => rfl
  case isTrue ht =>
    subst ht
    rfl

/-- A target that is left alone takes a vector in an orderly way. -/
theorem Leaves.orderly {vector : BitVec 8} (h : r.Leaves t) :
    (r.slot t).Orderly (.write p vector) := by
  obtain ⟨hwriting, hsignalled, hreleased, hselected⟩ := h
  constructor
  · intro q
    change writing t (r.phase q) = none
    cases hphase : r.phase q with
    | sending vector targets written =>
        cases targets with
        | nil => rfl
        | cons u targets =>
            cases u with
            | none => rfl
            | some u =>
                cases written with
                | false => rfl
                | true =>
                    refine if_neg fun ht => ?_
                    subst ht
                    exact hwriting q vector targets hphase
    | _ => rfl
  · change ¬((reader (r.phase t) = .waiting ∧ (r.cpu t).sipiSent = true) ∨ reader (r.phase t) = .taken ∨
      ∃ vector, reader (r.phase t) = .first vector)
    cases hphase : r.phase t with
    | waiting =>
        rintro (⟨-, hbit⟩ | htaken | ⟨vector, hfirst⟩)
        · exact hsignalled ⟨hphase, hbit⟩
        · exact (nomatch htaken)
        · exact (nomatch hfirst)
    | released => exact absurd hphase hreleased
    | selected vector => exact absurd hphase (hselected vector)
    | guest => rintro (⟨hwaiting, -⟩ | htaken | ⟨vector, hfirst⟩) <;> contradiction
    | sending vector targets written =>
        rintro (⟨hwaiting, -⟩ | htaken | ⟨vector, hfirst⟩) <;> contradiction

/-- A step does to the slot of a processor at most one thing, which the slot allows. -/
theorem slot_next (hsettled : ∀ p, Settled (r.cpu p)) (htakes : r.Takes e) (hfits : r.Fits apicId e) :
    (r.next apicId x2apicId e).slot t = r.slot t ∨ ∃ a, (r.slot t).Enabled a ∧
      (r.slot t).Orderly a ∧ (r.next apicId x2apicId e).slot t = (r.slot t).step a := by
  have hchoose : ∀ {c : Prop} [Decidable c] {slot' : Slot (Fin n) (BitVec 8)} {a},
      slot' = (if c then (r.slot t).step a else r.slot t) →
      (c → (r.slot t).Enabled a ∧ (r.slot t).Orderly a) →
      slot' = r.slot t ∨ ∃ a, (r.slot t).Enabled a ∧ (r.slot t).Orderly a ∧
        slot' = (r.slot t).step a := by
    intro c _ slot' a hslot hallowed
    by_cases hc : c
    · rw [if_pos hc] at hslot
      exact .inr ⟨a, (hallowed hc).1, (hallowed hc).2, hslot⟩
    · rw [if_neg hc] at hslot
      exact .inl hslot
  cases e with
  | init p =>
      apply hchoose (slot_init htakes)
      rintro ⟨htaken, rfl⟩
      exact ⟨congrArg reader htakes, hfits htaken⟩
  | icrHi p value => exact .inl (slot_same (f := ({ · with icrHi := value })) rfl rfl rfl rfl)
  | icrLo p lo => exact .inl (slot_icrLo htakes)
  | x2apicIcr p icr =>
      have hsent : r.nextSent x2apicId (.x2apicIcr p icr) = r.sent := by
        funext t
        refine if_neg fun haddressed => hfits ?_
        exact eq_of_beq (Bool.and_eq_true_iff.mp haddressed).1
      left
      change slot ⟨r.toSipiHost, r.nextSent x2apicId (.x2apicIcr p icr)⟩ t = _
      rw [hsent]
  | write p =>
      obtain ⟨vector, u, targets, hphase⟩ := htakes
      cases u with
      | none => exact absurd List.mem_cons_self ((hsettled p).targets hphase)
      | some u =>
          apply hchoose (slot_write hphase)
          rintro rfl
          exact ⟨trivial, (hfits vector t targets hphase).orderly⟩
  | signal p =>
      obtain ⟨vector, u, targets, hphase⟩ := htakes
      cases u with
      | none => exact absurd List.mem_cons_self ((hsettled p).targets hphase)
      | some u =>
          apply hchoose (slot_signal hphase)
          rintro rfl
          refine ⟨?_, trivial⟩
          change writing t (r.phase p) ≠ none
          rw [hphase]
          exact fun hnone => (nomatch (if_pos rfl).symm.trans hnone)
  | poll p =>
      apply hchoose (slot_poll htakes)
      rintro rfl
      exact ⟨congrArg reader htakes, trivial⟩
  | selectCs p =>
      apply hchoose (slot_selectCs htakes)
      rintro rfl
      exact ⟨congrArg reader htakes, trivial⟩
  | resume p =>
      obtain ⟨vector, hphase⟩ := htakes
      apply hchoose (slot_resume hphase)
      rintro rfl
      exact ⟨⟨vector, congrArg reader hphase⟩, trivial⟩

theorem settled_init (hphase : r.phase p = .guest) :
    Settled (r.cpu p).nvcSvmSxInitRedirection := by
  cases htaken : r.takesInit p with
  | true =>
      rw [initRedirection_of_taken htaken]
      trivial
  | false =>
      obtain ⟨hkept, -⟩ := initRedirection_of_not_taken htaken
      exact settled_of_guest (hkept.trans hphase)

theorem settled_next (h : ∀ q, Settled (r.cpu q)) (htakes : r.Takes e) (hfits : r.Fits apicId e)
    (q : Fin n) : Settled ((r.next apicId x2apicId e).cpu q) := by
  cases e with
  | init p => exact settled_modify h (settled_init htakes) q
  | icrHi p value =>
      refine settled_modify (f := ({ · with icrHi := value })) h ?_ q
      exact settled_of_same (h p) rfl rfl
  | icrLo p lo =>
      change Settled ((r.icrLo apicId p lo).cpu q)
      unfold SipiHost.icrLo
      split
      · exact h q
      · refine settled_modify h ?_ q
        exact settled_of_guest htakes
      case h_3 vector targets hwrite =>
        refine settled_modify h ?_ q
        exact settled_send rfl (hfits vector targets hwrite).1
  | x2apicIcr p icr => exact h q
  | write p =>
      obtain ⟨vector, u, targets, hphase⟩ := htakes
      have htargets := (h p).targets hphase
      cases u with
      | none => exact absurd List.mem_cons_self htargets
      | some u =>
          rw [show (r.next apicId x2apicId (.write p)).cpu = _ from
            congrArg SipiHost.cpu (writeVector_of_sending hphase)]
          refine settled_modify (settled_modify h ?_) ?_ q
          · exact settled_of_same (h u) rfl rfl
          · exact htargets
  | signal p =>
      obtain ⟨vector, u, targets, hphase⟩ := htakes
      have htargets := (h p).targets hphase
      cases u with
      | none => exact absurd List.mem_cons_self htargets
      | some u =>
          rw [show (r.next apicId x2apicId (.signal p)).cpu = _ from
            congrArg SipiHost.cpu (signal_of_sending hphase)]
          refine settled_modify (settled_modify h ?_) ?_ q
          · exact settled_of_same (h u) rfl rfl
          · exact settled_send rfl fun hmem => htargets (List.mem_cons_of_mem _ hmem)
  | poll p =>
      refine settled_modify h ?_ q
      unfold SipiCpu.poll
      split
      · trivial
      · exact h p
  | selectCs p =>
      refine settled_modify h ?_ q
      exact ⟨_, rfl⟩
  | resume p =>
      refine settled_modify h ?_ q
      exact settled_of_guest rfl

/-- What the runs of the condition keep. -/
structure Orderly (r : SipiRun n) : Prop where
  coherent : ∀ t, (r.slot t).Coherent
  settled : ∀ p, Settled (r.cpu p)
  inside : r.outside = false

theorem Start.orderly (h : r.Start) : r.Orderly where
  coherent t := by
    have hwriting : ∀ q, (r.slot t).writing q = none := by
      intro q
      change writing t (r.phase q) = none
      rw [h.guest q]
      rfl
    have hidle : (r.slot t).reader = .idle := congrArg reader (h.guest t)
    constructor
    · exact fun q value hq => (nomatch (hwriting q).symm.trans hq)
    · exact fun hwaiting => (nomatch hidle.symm.trans hwaiting)
    · rintro (⟨hwaiting, -⟩ | htaken | ⟨value, hfirst⟩)
      · exact (nomatch hidle.symm.trans hwaiting)
      · exact (nomatch hidle.symm.trans htaken)
      · exact (nomatch hidle.symm.trans hfirst)
    · exact fun value hfirst => (nomatch hidle.symm.trans hfirst)
  settled p := settled_of_guest (h.guest p)
  inside := h.inside

/-- No processor is addressed that is not there. -/
theorem Orderly.inside_next (h : r.Orderly) (htakes : r.Takes e) :
    (r.next apicId x2apicId e).outside = false := by
  cases e with
  | icrLo p lo =>
      change (r.icrLo apicId p lo).outside = false
      unfold SipiHost.icrLo
      split <;> exact h.inside
  | write p =>
      obtain ⟨vector, u, targets, hphase⟩ := htakes
      cases u with
      | none => exact absurd List.mem_cons_self ((h.settled p).targets hphase)
      | some u =>
          change (r.writeVector p).outside = false
          rw [writeVector_of_sending hphase]
          exact h.inside
  | signal p =>
      obtain ⟨vector, u, targets, hphase⟩ := htakes
      cases u with
      | none => exact absurd List.mem_cons_self ((h.settled p).targets hphase)
      | some u =>
          change (r.signal p).outside = false
          rw [signal_of_sending hphase]
          exact h.inside
  | _ => exact h.inside

theorem Orderly.next (h : r.Orderly) (htakes : r.Takes e) (hfits : r.Fits apicId e) :
    (r.next apicId x2apicId e).Orderly where
  coherent t := by
    have hslot : (r.next apicId x2apicId e).slot t = r.slot t ∨ _ :=
      slot_next h.settled htakes hfits
    obtain hsame | ⟨a, henabled, horderly, hstep⟩ := hslot
    · rw [hsame]
      exact h.coherent t
    · rw [hstep]
      exact (h.coherent t).step henabled horderly
  settled := settled_next h.settled htakes hfits
  inside := h.inside_next htakes

/-- The vector that was read twice is that of the selector and of the base. -/
theorem started_startupIpi (vmcb : Page) (vector : BitVec 8) :
    Started (startupIpi vmcb vector vector) vector :=
  ⟨startupIpi_csSelector, startupIpi_csBase, startupIpi_rip⟩

theorem Orderly.resumed (h : r.Orderly) {vector : BitVec 8} (hphase : r.phase p = .selected vector) :
    (r.next apicId x2apicId (.resume p)).phase p = .guest ∧
      ∃ vector ∈ r.sent p, Started ((r.next apicId x2apicId (.resume p)).cpu p).vmcb vector := by
  have hcpu : (r.next apicId x2apicId (.resume p)).cpu p = (r.cpu p).resume :=
    Function.update_self ..
  obtain ⟨hsame, hsent⟩ := (h.coherent p).read (congrArg reader hphase)
  obtain ⟨vmcb, hvmcb⟩ := (h.settled p).selected hphase
  have hvector : (r.cpu p).sipiVector = vector := hsame.symm
  unfold phase
  rw [hcpu]
  refine ⟨rfl, vector, hsent, ?_⟩
  unfold SipiCpu.resume
  rw [hvmcb, hvector]
  exact started_startupIpi vmcb vector

theorem Orderly.polled (h : r.Orderly) (hphase : r.phase p = .waiting) :
    (r.next apicId x2apicId (.poll p)).phase p ≠ .waiting ↔ r.sent p ≠ [] := by
  have hcpu : (r.next apicId x2apicId (.poll p)).cpu p = (r.cpu p).poll := Function.update_self ..
  have hslot : (r.cpu p).sipiSent = true ↔ r.sent p ≠ [] :=
    (h.coherent p).full (congrArg reader hphase)
  rw [← hslot]
  unfold phase
  rw [hcpu]
  change (r.cpu p).poll.phase ≠ .waiting ↔ (r.cpu p).sipiSent = true
  unfold SipiCpu.poll
  split
  case isTrue hbit => exact iff_of_true nofun hbit
  case isFalse hbit => exact iff_of_false (fun hne => hne hphase) hbit

/-- Along a run of the condition INITs and start-up IPIs behave, for any number of processors. -/
theorem behaves_of_fits (apicId : Fin n → BitVec 8) (x2apicId : Fin n → BitVec 32) (r : SipiRun n)
    (events : List (SipiEvent n)) (hstart : r.Start)
    (htakes : Along Takes (next apicId x2apicId) r events)
    (hfits : Along (Fits apicId) (next apicId x2apicId) r events) :
    Along (Behaves apicId x2apicId) (next apicId x2apicId) r events := by
  have hboth := along_and htakes hfits
  refine along_of_invariant (I := Orderly) (fun r e h hstep => ⟨?_, ?_⟩) hstart.orderly hboth
  · refine ⟨?_, ?_, h.inside_next hstep.1⟩
    · rintro p rfl
      exact h.polled hstep.1
    · rintro p rfl
      obtain ⟨vector, hphase⟩ := hstep.1
      exact h.resumed hphase
  · exact h.next hstep.1 hstep.2

def firstSipiCpu : SipiCpu 2 where
  vmcb := fun _ => 0
  gprState := fun _ => 0
  dr := fun _ => 0
  cpuidFms := 0
  gif := false
  rInit := false
  pendingInit := false
  icrHi := 0
  sipiSent := false
  sipiVector := 0
  phase := .guest

def firstSipiRun : SipiRun 2 where
  cpu := fun _ => firstSipiCpu
  outside := false
  sent := fun _ => []

def firstApicId (p : Fin 2) : BitVec 8 := BitVec.ofNat 8 p

theorem firstSipiRun_start : firstSipiRun.Start := ⟨fun _ => rfl, fun _ => rfl, rfl⟩

/-- The first processor sends a start-up IPI to the second. -/
def startSecond : List (SipiEvent 2) :=
  [.icrHi 0 0x01000000, .icrLo 0 0x610, .write 0, .signal 0]

theorem firstSipiRun_behaves :
    Along (Behaves firstApicId (fun _ => 0)) (next firstApicId fun _ => 0) firstSipiRun
      ([.init 1] ++ startSecond ++ [.poll 1, .selectCs 1, .resume 1]) := by
  apply behaves_of_fits _ _ _ _ firstSipiRun_start
  · exact ⟨rfl, rfl, rfl, ⟨0x10, some 1, [], rfl⟩, ⟨0x10, some 1, [], rfl⟩, rfl, rfl, ⟨0x10, rfl⟩, trivial⟩
  · refine ⟨fun _ => rfl, trivial, ?_, ?_, trivial, trivial, trivial, trivial, trivial⟩
    · rintro vector targets ⟨⟩
      exact ⟨by decide, fun _ => rfl⟩
    · rintro vector t targets ⟨⟩
      refine ⟨fun q vector targets hphase => ?_, ?_, ?_, ?_⟩
      · match q, hphase with
        | 0, hphase => exact (nomatch hphase)
        | 1, hphase => exact (nomatch hphase)
      · exact fun hheld => (nomatch hheld.2)
      · exact nofun
      · exact fun _ => nofun

/-- The signal of an IPI to a processor that does not wait stays until it takes an INIT. -/
theorem not_forall_behaves : ¬∀ (n : Nat) (apicId : Fin n → BitVec 8) (x2apicId : Fin n → BitVec 32)
    (r : SipiRun n) (events : List (SipiEvent n)), r.Start →
      Along Takes (next apicId x2apicId) r events →
        Along (Behaves apicId x2apicId) (next apicId x2apicId) r events := by
  intro h
  have htakes : Along Takes (next firstApicId fun _ => 0) firstSipiRun
      (startSecond ++ [.init 1, .poll 1]) :=
    ⟨rfl, rfl, ⟨0x10, some 1, [], rfl⟩, ⟨0x10, some 1, [], rfl⟩, rfl, rfl, trivial⟩
  have hbehaves := h 2 firstApicId (fun _ => 0) firstSipiRun _ firstSipiRun_start htakes
  obtain ⟨-, -, -, -, -, hpoll, -⟩ := hbehaves
  exact (hpoll.polled 1 rfl).mp nofun rfl

end SipiRun

end NoirVisor
