import NoirVisor.Transition
import NoirVisor.Host.Init
import NoirVisor.Nested.Switch

/-!
# The global interrupt flag of a nested hypervisor

`stgi` and `clgi` only set a flag of the vCPU. The handlers of the events that a clear flag holds back
look at it.
-/

namespace NoirVisor

open Copying Transition SvmVmcbOffset

/-- The events that the vCPU can record as pending. An INIT comes as a security exception. -/
inductive HeldEvent where
  | debug | nmi | machineCheck | init
deriving DecidableEq

namespace HeldEvent

/-- Where a VMCB has the intercept of the event. -/
def intercept : HeldEvent → Nat × Nat
  | debug => (interceptExceptions, 1)
  | nmi => (interceptInstruction1, 1)
  | machineCheck => (interceptExceptions, 18)
  | init => (interceptExceptions, 30)

def code : HeldEvent → BitVec 64
  | debug => 0x41
  | nmi => 0x61
  | machineCheck => 0x52
  | init => 0x5E

def errorCode : HeldEvent → BitVec 64
  | init => amd64SxInitRedirection.setWidth 64
  | _ => 0

def vector : HeldEvent → BitVec 8
  | debug => amd64DebugException
  | nmi => 2
  | machineCheck => 18
  | init => amd64SecurityException

/-- What the processor leaves when the event makes a guest exit. No event is left to be injected. -/
def exited (k : HeldEvent) (vmcb : Page) : Page :=
  ((vmcb.vmwrite64 exitCode k.code).vmwrite64 exitInfo1 k.errorCode).vmcbBtr eventInjection 31

end HeldEvent

def intercepts (vmcb : Page) (k : HeldEvent) : Bool := vmcb.vmcbBt k.intercept.1 k.intercept.2

def amd64Dr6Bd := 13
def amd64Dr6Bs := 14
def amd64Dr6Bt := 15

/-- `pending` are the flags `pending_db`, `pending_nmi`, `pending_mc` and `pending_init`. -/
structure GifVcpu extends NestedVcpu where
  gprState : BitVec 4 → BitVec 64
  dr : BitVec 2 → BitVec 64
  cpuidFms : BitVec 32
  gif : Bool
  rInit : Bool
  pending : HeldEvent → Bool

namespace GifVcpu

variable (s : GifVcpu)

def hold (k : HeldEvent) : GifVcpu := { s with pending := Function.update s.pending k true }

def injectEvent (vector : BitVec 8) (errorValid : Bool) (errorCode : BitVec 32) : GifVcpu :=
  { s with vmcb :=
      noirSvmInjectEvent s.vmcb vector amd64FaultTrapException errorValid true errorCode }

/-- A breakpoint is discarded while the flag is clear. -/
def nvcSvmDbExceptionHandler : GifVcpu :=
  if !s.gif && s.svme then
    if s.vmcb.vmcbBt guestDr6 amd64Dr6Bs then s.hold .debug
    else if s.vmcb.vmcbBt guestDr6 amd64Dr6Bd || s.vmcb.vmcbBt guestDr6 amd64Dr6Bt then
      s.injectEvent amd64DebugException false 0
    else s
  else s

def nvcSvmMcExceptionHandler : GifVcpu := if !s.gif then s.hold .machineCheck else s

/-- The host takes the NMI. -/
def nvcSvmNmiHandler : GifVcpu := s.hold .nmi

/-- The wait for a start-up IPI ends with `sipiVector`. -/
def emulateInit (sipiVector : BitVec 8) : GifVcpu :=
  let init := nvcSvmEmulateInitSignal ⟨s.vmcb, s.gprState, s.dr⟩ s.cpuidFms
  { s with vmcb := startupIpi init.vmcb sipiVector sipiVector, gprState := init.gprState,
           dr := init.dr }

def nvcSvmSxExceptionHandler (sipiVector : BitVec 8) : GifVcpu :=
  let errorCode := s.vmcb.vmread32 exitInfo1
  if errorCode = amd64SxInitRedirection then
    -- The test is for the flag being set.
    if s.gif then s.hold .init
    else if s.rInit then s.injectEvent amd64SecurityException true amd64SxInitRedirection
    else s.emulateInit sipiVector
  else s.injectEvent amd64SecurityException true errorCode

/-- The handlers of `stgi` and `clgi`. What is pending is not looked at. -/
def setGif (gif : Bool) : GifVcpu :=
  if s.svme then { s with gif, vmcb := noirSvmAdvanceRip s.vmcb }
  else s.injectEvent amd64InvalidOpcode false 0

def nvcSvmStgiHandler : GifVcpu := s.setGif true

def nvcSvmClgiHandler : GifVcpu := s.setGif false

def handleEvent (sipiVector : BitVec 8) : HeldEvent → GifVcpu
  | .debug => s.nvcSvmDbExceptionHandler
  | .nmi => s.nvcSvmNmiHandler
  | .machineCheck => s.nvcSvmMcExceptionHandler
  | .init => s.nvcSvmSxExceptionHandler sipiVector

/-- The exit of L2 for an event. -/
def nestedExited (n : BitVec 4) (k : HeldEvent) : NestedVcpu :=
  { s.toNestedVcpu with
    nodePool := Function.update s.nodePool n
      { s.nodePool n with vmcbT := k.exited (s.nodePool n).vmcbT } }

/-- An event that is not intercepted is delivered by the processor to whoever runs. -/
def arrives (k : HeldEvent) (sipiVector : BitVec 8) : GifVcpu :=
  match s.guestVmcb with
  | none =>
      if intercepts s.vmcb k then handleEvent { s with vmcb := k.exited s.vmcb } sipiVector k else s
  | some n =>
      if intercepts (s.nodePool n).vmcbT k then
        { s with toNestedVcpu := (s.nestedExited n k).nvcSvmExitHandler n 0 }
      else s

end GifVcpu

/-- `vmcr` is a write of L1 to the register that redirects INITs. -/
inductive GifEvent where
  | nested (e : NestedEvent)
  | vmcr (rInit : Bool)
  | stgi
  | clgi
  | arrives (k : HeldEvent) (sipiVector : BitVec 8)

namespace GifVcpu

variable (ncr3 : BitVec 64) (s s' : GifVcpu)

def step : GifEvent → GifVcpu
  | .nested e => { s with toNestedVcpu := s.toNestedVcpu.step ncr3 e }
  | .vmcr rInit => { s with rInit }
  | .stgi => s.nvcSvmStgiHandler
  | .clgi => s.nvcSvmClgiHandler
  | .arrives k sipiVector => s.arrives k sipiVector

/-- What L1 does not write to its own VMCB: the intercepts and how interrupts are masked. -/
def hostControl : List Range := [⟨interceptAccessCr, 0x18⟩, vmcopy64 avicControl]

/-- L1 keeps nested virtualization enabled. -/
def Takes : GifEvent → Prop
  | .nested e => s.toNestedVcpu.Takes e ∧ ∀ vmcb memory svme, e = .l1 vmcb memory svme →
      svme = true ∧ AgreeOn hostControl vmcb s.vmcb
  | .arrives _ _ => True
  | _ => s.guestVmcb = none

/-- What the handlers leave of an event that is given to L1. -/
def DeliveredTo (k : HeldEvent) : Prop :=
  (s'.vmcb eventInjection = k.vector ∧ s'.vmcb.vmcbBt eventInjection 31 = true) ∨
  (k = .init ∧ ∃ t sipiVector, s' = emulateInit t sipiVector)

/-- The event has its effect on whoever runs: it is delivered, or L2 exits to L1. -/
def ActedOn (k : HeldEvent) : Prop :=
  match s.guestVmcb with
  | none => intercepts s.vmcb k = false ∨ s'.DeliveredTo k
  | some n => intercepts (s.nodePool n).vmcbT k = false ∨ s'.guestVmcb = none

/-- What is to hold of a step from `s` to `s'`. An event that is pending is delivered once the flag
is set, one at a time. -/
structure HoldsBack (e : GifEvent) : Prop where
  recorded : ∀ k sipiVector, e = .arrives k sipiVector → s.gif = false →
    s'.pending k = true ∧ ¬ActedOn s s' k
  atOnce : ∀ k sipiVector, e = .arrives k sipiVector → s.gif = true →
    ActedOn s s' k ∧ s'.pending = s.pending
  delivered : s'.gif = true → ∀ k, s.pending k = true → ∃ k, s.pending k = true ∧
    s'.DeliveredTo k ∧ s'.pending = Function.update s.pending k false
  kept : s'.gif = false → ∀ k, s.pending k = true → s'.pending k = true

/-- A debug exception is recorded for the single step, or another one was before and it is
discarded. -/
def Records (k : HeldEvent) : Prop :=
  intercepts s.vmcb k = true ∧ k ≠ .init ∧ (k = .debug → s.vmcb.vmcbBt guestDr6 amd64Dr6Bs = true ∨
    (s.pending .debug = true ∧ s.vmcb.vmcbBt guestDr6 amd64Dr6Bd = false ∧
      s.vmcb.vmcbBt guestDr6 amd64Dr6Bt = false))

/-- The event is recorded while the flag is clear, not intercepted while it is set, and nothing is
pending when the flag is set. -/
def Fits : GifEvent → Prop
  | .arrives k _ =>
      if s.gif then s.guestVmcb = none → intercepts s.vmcb k = false
      else s.guestVmcb = none ∧ s.Records k
  | .stgi => ∀ k, s.pending k = false
  | _ => True

/-- External interrupts reach L1. -/
def TakesInterrupts : Prop :=
  s.guestVmcb = none ∧
    (if s.vmcb.vmcbBt avicControl avicControlVintrMask then s.hostIf
     else s.vmcb.vmcbBt guestRflags amd64RflagsIf) = true

end GifVcpu

/-- `afterExit` tells that there was no `stgi` since the last nested exit, and `ownIf` that L1 left
its interrupt flag alone since then. -/
structure GifRun where
  vcpu : GifVcpu
  afterExit : Bool
  ownIf : Bool

namespace GifRun

variable (ncr3 : BitVec 64) (r : GifRun) (e : GifEvent)

def exits : Bool := r.vcpu.guestVmcb.isSome && (r.vcpu.step ncr3 e).guestVmcb.isNone

/-- L1 writes its interrupt flag. -/
def changesIf : Bool :=
  match e with
  | .nested (.l1 vmcb _ _) =>
      vmcb.vmcbBt guestRflags amd64RflagsIf != r.vcpu.vmcb.vmcbBt guestRflags amd64RflagsIf
  | _ => false

def sets : Bool :=
  match e with
  | .stgi => true
  | _ => false

def next : GifRun where
  vcpu := r.vcpu.step ncr3 e
  afterExit := r.exits ncr3 e || (r.afterExit && !sets e)
  ownIf := r.exits ncr3 e || (r.ownIf && !r.changesIf e)

def Takes : Prop := r.vcpu.Takes e

def HoldsBack : Prop := GifVcpu.HoldsBack r.vcpu (r.vcpu.step ncr3 e) e

def Fits : Prop := r.vcpu.Fits e

/-- No interrupt before the `stgi`. A nested exit leaves the interrupt flag of L1 as it was only if
it was clear. -/
def Masks : Prop :=
  ((r.next ncr3 e).afterExit = true → (r.next ncr3 e).ownIf = true →
    ¬(r.next ncr3 e).vcpu.TakesInterrupts) ∧
  (r.exits ncr3 e = true → (r.next ncr3 e).vcpu.vmcb.vmcbBt guestRflags amd64RflagsIf = false)

/-- Interrupts are not masked by the VMCB, and nothing is pending. -/
structure Start : Prop where
  svme : r.vcpu.svme = true
  vintrMask : r.vcpu.vmcb.vmcbBt avicControl avicControlVintrMask = false
  idle : r.vcpu.guestVmcb = none
  pending : ∀ k, r.vcpu.pending k = false
  afterExit : r.afterExit = false

/-- What every step keeps. -/
structure Masked : Prop where
  vintrMask : r.vcpu.vmcb.vmcbBt avicControl avicControlVintrMask = false
  masked : r.vcpu.guestVmcb = none → r.afterExit = true → r.ownIf = true →
    r.vcpu.vmcb.vmcbBt guestRflags amd64RflagsIf = false

/-- What the steps keep that hold back events. -/
structure Drained : Prop where
  svme : r.vcpu.svme = true
  drained : r.vcpu.gif = true → ∀ k, r.vcpu.pending k = false

end GifRun

/-- How L1 masks interrupts. -/
def maskFields : List Range := [vmcopy64 avicControl, vmcopy64 guestRflags]

theorem HeldEvent.exited_agree {k : HeldEvent} {vmcb : Page} :
    AgreeOn maskFields (k.exited vmcb) vmcb := by
  apply (Page.vmcbBtr_agree (by decide)).trans
  exact (Page.vmwrite_agree (by decide)).trans (Page.vmwrite_agree (by decide))

/-- Nothing is injected after an exit. -/
theorem HeldEvent.exited_valid {k : HeldEvent} {vmcb : Page} :
    (k.exited vmcb).vmcbBt eventInjection 31 = false := Page.vmcbBt_vmcbBtr_self

theorem injectEvent_agree {vmcb : Page} {vector : BitVec 8} {errorValid : Bool}
    {errorCode : BitVec 32} : AgreeOn maskFields
      (noirSvmInjectEvent vmcb vector amd64FaultTrapException errorValid true errorCode) vmcb :=
  Page.vmwrite_agree (by decide)

namespace NestedVcpu

variable {ncr3 : BitVec 64} {s execute : NestedVcpu} {rax : BitVec 64}

theorem withNestedVmcb_agree (h : AgreeOn maskFields execute.vmcb s.vmcb) :
    AgreeOn maskFields (s.withNestedVmcb rax execute).vmcb s.vmcb := by
  unfold withNestedVmcb
  split
  · split
    · exact injectEvent_agree
    · exact (noirSvmAdvanceRip_agree (by decide)).trans h
  · exact injectEvent_agree

/-- The instructions of L1 that are handled leave alone how it masks interrupts. -/
theorem step_agree {e : NestedEvent} (hidle : s.guestVmcb = none)
    (he : ∀ vmcb memory svme, e ≠ .l1 vmcb memory svme) :
    AgreeOn maskFields (s.step ncr3 e).vmcb s.vmcb := by
  cases e with
  | l1 vmcb memory svme => exact absurd rfl (he vmcb memory svme)
  | vmload rax => exact withNestedVmcb_agree (AgreeOn.copy_dest (by decide))
  | vmsave rax => exact withNestedVmcb_agree .refl
  | vmrun rax =>
      apply withNestedVmcb_agree
      obtain ⟨hostIf, hswitch⟩ := nvcSvmSwitchToNestedVcpu_eq ncr3
        (s.takeNode (nvcSvmGetNestedVcpuNode rax) rax) (nvcSvmGetNestedVcpuNode rax)
      rw [hswitch, takeNode_eq]
      exact .refl
  | l2 vmcbT memory =>
      change AgreeOn maskFields (match s.guestVmcb with | none => s | some k => _).vmcb s.vmcb
      rw [hidle]
      exact .refl
  | exit eax =>
      change AgreeOn maskFields (match s.guestVmcb with | none => s | some k => _).vmcb s.vmcb
      rw [hidle]
      exact .refl

/-- An exit that L1 is told of masks interrupts. -/
theorem exit_masks {k : BitVec 4} {eax : BitVec 32} (hrun : s.guestVmcb = some k)
    (hexit : (s.nvcSvmExitHandler k eax).guestVmcb = none) :
    (s.nvcSvmExitHandler k eax).vmcb.vmcbBt guestRflags amd64RflagsIf = false := by
  by_cases hforwards : s.Forwards k
  · rw [exit_of_forwards hforwards]
    exact Page.vmcbBt_vmcbBtr_self
  · rw [exit_of_not_forwards hforwards] at hexit
    exact (nomatch hrun.symm.trans hexit)

theorem exit_avicControl {k : BitVec 4} {eax : BitVec 32} :
    AgreeOn [vmcopy64 avicControl] (s.nvcSvmExitHandler k eax).vmcb s.vmcb := by
  by_cases hforwards : s.Forwards k
  · rw [exit_of_forwards hforwards]
    exact (Page.vmcbBtr_agree (by decide)).trans (AgreeOn.copy_dest (by decide))
  · rw [exit_of_not_forwards hforwards]
    exact .refl

end NestedVcpu

namespace GifVcpu

variable {ncr3 : BitVec 64} {s : GifVcpu} {k : HeldEvent} {sipiVector : BitVec 8} {n : BitVec 4}

/-- What a handler of an event does: it records the event, injects one, emulates an INIT, or nothing. -/
theorem handleEvent_cases (s : GifVcpu) (k : HeldEvent) (sipiVector : BitVec 8) :
    s.handleEvent sipiVector k = s.hold k ∨
    (∃ vector errorValid errorCode,
      s.handleEvent sipiVector k = s.injectEvent vector errorValid errorCode) ∨
    s.handleEvent sipiVector k = s.emulateInit sipiVector ∨ s.handleEvent sipiVector k = s := by
  cases k with
  | debug =>
      unfold handleEvent nvcSvmDbExceptionHandler
      dsimp only
      split
      · split
        · exact .inl rfl
        · split
          · exact .inr (.inl ⟨_, _, _, rfl⟩)
          · exact .inr (.inr (.inr rfl))
      · exact .inr (.inr (.inr rfl))
  | nmi => exact .inl rfl
  | machineCheck =>
      unfold handleEvent nvcSvmMcExceptionHandler
      dsimp only
      split
      · exact .inl rfl
      · exact .inr (.inr (.inr rfl))
  | init =>
      unfold handleEvent nvcSvmSxExceptionHandler
      dsimp only
      split
      · split
        · exact .inl rfl
        · split
          · exact .inr (.inl ⟨_, _, _, rfl⟩)
          · exact .inr (.inr (.inl rfl))
      · exact .inr (.inl ⟨_, _, _, rfl⟩)

theorem emulateInit_avicControl :
    AgreeOn [vmcopy64 avicControl] (s.emulateInit sipiVector).vmcb s.vmcb :=
  (startupIpi_agree (by decide)).trans (nvcSvmEmulateInitSignal_agree (by decide))

theorem emulateInit_if :
    (s.emulateInit sipiVector).vmcb.vmcbBt guestRflags amd64RflagsIf = false := by
  have hstartup : AgreeOn [vmcopy64 guestRflags] (s.emulateInit sipiVector).vmcb
      (nvcSvmEmulateInitSignal ⟨s.vmcb, s.gprState, s.dr⟩ s.cpuidFms).vmcb :=
    startupIpi_agree (by decide)
  rw [Page.vmcbBt_of_agree hstartup (by decide)]
  exact nvcSvmEmulateInitSignal_if

/-- The frame of the handlers. -/
theorem handleEvent_frame (s : GifVcpu) (k : HeldEvent) (sipiVector : BitVec 8) :
    (s.handleEvent sipiVector k).guestVmcb = s.guestVmcb ∧
    (s.handleEvent sipiVector k).svme = s.svme ∧ (s.handleEvent sipiVector k).gif = s.gif := by
  obtain h | ⟨vector, errorValid, errorCode, h⟩ | h | h := handleEvent_cases s k sipiVector
  all_goals
    rw [h]
    exact ⟨rfl, rfl, rfl⟩

theorem handleEvent_avicControl :
    AgreeOn [vmcopy64 avicControl] (s.handleEvent sipiVector k).vmcb s.vmcb := by
  obtain h | ⟨vector, errorValid, errorCode, h⟩ | h | h := handleEvent_cases s k sipiVector
  · rw [h]
    exact .refl
  · rw [h]
    exact Page.vmwrite_agree (by decide)
  · rw [h]
    exact emulateInit_avicControl
  · rw [h]
    exact .refl

/-- The handlers leave interrupts masked. -/
theorem handleEvent_if (hif : s.vmcb.vmcbBt guestRflags amd64RflagsIf = false) :
    (s.handleEvent sipiVector k).vmcb.vmcbBt guestRflags amd64RflagsIf = false := by
  obtain h | ⟨vector, errorValid, errorCode, h⟩ | h | h := handleEvent_cases s k sipiVector
  · rw [h]
    exact hif
  · rw [h, ← hif]
    exact Page.vmcbBt_of_agree injectEvent_agree (by decide)
  · rw [h]
    exact emulateInit_if
  · rw [h]
    exact hif

theorem arrives_of_idle (hidle : s.guestVmcb = none) : s.arrives k sipiVector =
    if intercepts s.vmcb k then handleEvent { s with vmcb := k.exited s.vmcb } sipiVector k
    else s := by
  unfold arrives
  rw [hidle]

theorem arrives_of_running (hrun : s.guestVmcb = some n) : s.arrives k sipiVector =
    if intercepts (s.nodePool n).vmcbT k then
      { s with toNestedVcpu := (s.nestedExited n k).nvcSvmExitHandler n 0 }
    else s := by
  unfold arrives
  rw [hrun]

/-- L1 is told of the events that it intercepts. -/
theorem nestedExited_forwards (s : GifVcpu) (n : BitVec 4) (k : HeldEvent) :
    (s.nestedExited n k).Forwards n := by
  intro hcpuid
  have hcode : ∀ vmcb : Page, (k.exited vmcb).vmread32 exitCode = k.code.setWidth 32 := by
    intro vmcb
    have hread : (vmcb.vmwrite64 exitCode k.code).vmread32 exitCode =
        k.code.extractLsb' (8 * 0) 32 :=
      Page.vmread32_vmwrite 0 (Nat.add_zero exitCode).symm (by decide)
    have hkept : AgreeOn [vmcopy32 exitCode] (k.exited vmcb) (vmcb.vmwrite64 exitCode k.code) :=
      (Page.vmcbBtr_agree (by decide)).trans (Page.vmwrite_agree (by decide))
    rw [Page.vmread32_of_eq fun j hj => hkept (exitCode + j) ?_, hread]
    · cases k <;> rfl
    · rw [covers_single]
      exact ⟨Nat.le_add_right _ _, Nat.add_lt_add_left hj _⟩
  unfold nestedExited at hcpuid
  dsimp only at hcpuid
  rw [Function.update_self, hcode] at hcpuid
  cases k <;> exact absurd hcpuid (by decide)

theorem setGif_agree {gif : Bool} : AgreeOn maskFields (s.setGif gif).vmcb s.vmcb := by
  unfold setGif
  split
  · exact noirSvmAdvanceRip_agree (by decide)
  · exact injectEvent_agree

theorem arrives_avicControl :
    AgreeOn [vmcopy64 avicControl] (s.arrives k sipiVector).vmcb s.vmcb := by
  cases hrun : s.guestVmcb with
  | none =>
      rw [arrives_of_idle hrun]
      split
      · exact handleEvent_avicControl.trans (k.exited_agree.mono (by decide))
      · exact .refl
  | some n =>
      rw [arrives_of_running hrun]
      split
      · exact NestedVcpu.exit_avicControl
      · exact .refl

/-- The hypervisor masks interrupts in no other way than L1. -/
theorem step_avicControl {e : GifEvent} (htakes : s.Takes e) :
    AgreeOn [vmcopy64 avicControl] (s.step ncr3 e).vmcb s.vmcb := by
  cases e with
  | nested e =>
      obtain ⟨hnested, hkeeps⟩ := htakes
      cases e with
      | l1 vmcb memory svme => exact (hkeeps vmcb memory svme rfl).2.mono (by decide)
      | l2 vmcbT memory =>
          obtain ⟨n, hrun, -⟩ := hnested
          change AgreeOn _ (s.toNestedVcpu.step ncr3 (.l2 vmcbT memory)).vmcb s.vmcb
          rw [NestedVcpu.step_l2 ncr3 hrun]
          exact .refl
      | exit eax =>
          obtain ⟨n, hrun⟩ := Option.ne_none_iff_exists'.mp hnested
          change AgreeOn _ (s.toNestedVcpu.step ncr3 (.exit eax)).vmcb s.vmcb
          rw [NestedVcpu.step_exit ncr3 hrun]
          exact NestedVcpu.exit_avicControl
      | _ =>
          refine (NestedVcpu.step_agree hnested ?_).mono (by decide)
          exact fun _ _ _ => nofun
  | vmcr rInit => exact .refl
  | stgi => exact setGif_agree.mono (by decide)
  | clgi => exact setGif_agree.mono (by decide)
  | arrives k sipiVector => exact arrives_avicControl

/-- A nested exit masks interrupts. -/
theorem step_masks {e : GifEvent} (hrun : s.guestVmcb = some n) (htakes : s.Takes e)
    (hexit : (s.step ncr3 e).guestVmcb = none) :
    (s.step ncr3 e).vmcb.vmcbBt guestRflags amd64RflagsIf = false := by
  cases e with
  | nested e =>
      cases e with
      | l2 vmcbT memory =>
          change (s.toNestedVcpu.step ncr3 (.l2 vmcbT memory)).guestVmcb = none at hexit
          rw [NestedVcpu.step_l2 ncr3 hrun] at hexit
          exact (nomatch hrun.symm.trans hexit)
      | exit eax =>
          change (s.toNestedVcpu.step ncr3 (.exit eax)).guestVmcb = none at hexit
          change (s.toNestedVcpu.step ncr3 (.exit eax)).vmcb.vmcbBt guestRflags amd64RflagsIf = false
          rw [NestedVcpu.step_exit ncr3 hrun] at hexit ⊢
          exact NestedVcpu.exit_masks hrun hexit
      | _ => exact (nomatch hrun.symm.trans htakes.1)
  | arrives k sipiVector =>
      change (s.arrives k sipiVector).guestVmcb = none at hexit
      change (s.arrives k sipiVector).vmcb.vmcbBt guestRflags amd64RflagsIf = false
      rw [arrives_of_running hrun] at hexit ⊢
      split at hexit
      case isTrue hintercept =>
        rw [if_pos hintercept]
        exact NestedVcpu.exit_masks (s := s.nestedExited n k) hrun hexit
      case isFalse => exact (nomatch hrun.symm.trans hexit)
  | _ => exact (nomatch hrun.symm.trans htakes)

/-- As long as L1 runs, only L1 unmasks interrupts. -/
theorem step_masked {e : GifEvent} (hidle : s.guestVmcb = none)
    (hif : s.vmcb.vmcbBt guestRflags amd64RflagsIf = false)
    (hown : ∀ vmcb memory svme, e = .nested (.l1 vmcb memory svme) →
      vmcb.vmcbBt guestRflags amd64RflagsIf = false) :
    (s.step ncr3 e).vmcb.vmcbBt guestRflags amd64RflagsIf = false := by
  have hagree : ∀ vmcb : Page, AgreeOn maskFields vmcb s.vmcb →
      vmcb.vmcbBt guestRflags amd64RflagsIf = false := by
    intro vmcb h
    rw [← hif]
    exact Page.vmcbBt_of_agree h (by decide)
  cases e with
  | nested e =>
      cases e with
      | l1 vmcb memory svme => exact hown vmcb memory svme rfl
      | _ => exact hagree _ (NestedVcpu.step_agree hidle (fun _ _ _ => nofun))
  | vmcr rInit => exact hif
  | stgi => exact hagree _ setGif_agree
  | clgi => exact hagree _ setGif_agree
  | arrives k sipiVector =>
      change (s.arrives k sipiVector).vmcb.vmcbBt guestRflags amd64RflagsIf = false
      rw [arrives_of_idle hidle]
      split
      · exact handleEvent_if (hagree _ k.exited_agree)
      · exact hif

/-! What an intercepted event does to L1. -/

/-- L1 as the event made it exit. -/
def exitedFor (s : GifVcpu) (k : HeldEvent) : GifVcpu := { s with vmcb := k.exited s.vmcb }

theorem not_deliveredTo_of_vmcb {s' : GifVcpu} (hk : k ≠ .init)
    (hvmcb : s'.vmcb = k.exited s.vmcb) : ¬s'.DeliveredTo k := by
  rintro (⟨-, hvalid⟩ | ⟨hinit, -⟩)
  · rw [hvmcb, HeldEvent.exited_valid] at hvalid
    exact Bool.false_ne_true hvalid
  · exact hk hinit

theorem deliveredTo_injectEvent {errorValid : Bool} {errorCode : BitVec 32} :
    (s.injectEvent k.vector errorValid errorCode).DeliveredTo k := by
  have hbyte : ∀ j < 8, (s.injectEvent k.vector errorValid errorCode).vmcb (eventInjection + j) =
      (amd64EventInjection k.vector amd64FaultTrapException errorValid true errorCode).extractLsb'
        (8 * j) 8 := fun j hj => Page.vmwrite_byte rfl hj
  left
  constructor
  · exact (hbyte 0 (by decide)).trans amd64EventInjection_vector
  · unfold Page.vmcbBt
    rw [hbyte 3 (by decide), BitVec.getLsbD_extractLsb']
    exact amd64EventInjection_valid

theorem sxHandler_exitedFor (s : GifVcpu) (sipiVector : BitVec 8) : (s.exitedFor .init).nvcSvmSxExceptionHandler sipiVector =
    if s.gif then (s.exitedFor .init).hold .init
    else if s.rInit then
      (s.exitedFor .init).injectEvent amd64SecurityException true amd64SxInitRedirection
    else (s.exitedFor .init).emulateInit sipiVector := by
  have hcode : (s.exitedFor .init).vmcb.vmread32 exitInfo1 = amd64SxInitRedirection := by
    have hread : ((s.vmcb.vmwrite64 exitCode HeldEvent.init.code).vmwrite64 exitInfo1
        HeldEvent.init.errorCode).vmread32 exitInfo1 =
          HeldEvent.init.errorCode.extractLsb' (8 * 0) 32 :=
      Page.vmread32_vmwrite 0 (Nat.add_zero exitInfo1).symm (by decide)
    have hkept : AgreeOn [vmcopy32 exitInfo1] (s.exitedFor .init).vmcb
        ((s.vmcb.vmwrite64 exitCode HeldEvent.init.code).vmwrite64 exitInfo1
          HeldEvent.init.errorCode) := Page.vmcbBtr_agree (by decide)
    rw [Page.vmread32_of_agree hkept, hread]
    rfl
  unfold nvcSvmSxExceptionHandler
  dsimp only
  rw [if_pos hcode]
  rfl

theorem dbHandler_exitedFor (hgif : s.gif = false) (hsvme : s.svme = true) :
    (s.exitedFor .debug).nvcSvmDbExceptionHandler =
      if s.vmcb.vmcbBt guestDr6 amd64Dr6Bs then (s.exitedFor .debug).hold .debug
      else if s.vmcb.vmcbBt guestDr6 amd64Dr6Bd || s.vmcb.vmcbBt guestDr6 amd64Dr6Bt then
        (s.exitedFor .debug).injectEvent amd64DebugException false 0
      else s.exitedFor .debug := by
  have hdr6 : AgreeOn [vmcopy64 guestDr6] (s.exitedFor .debug).vmcb s.vmcb := by
    apply (Page.vmcbBtr_agree (by decide)).trans
    exact (Page.vmwrite_agree (by decide)).trans (Page.vmwrite_agree (by decide))
  have hclear : (!(s.exitedFor .debug).gif && (s.exitedFor .debug).svme) = true := by
    change (!s.gif && s.svme) = true
    rw [hgif, hsvme]
    rfl
  unfold nvcSvmDbExceptionHandler
  rw [if_pos hclear, Page.vmcbBt_of_agree hdr6 (by decide), Page.vmcbBt_of_agree hdr6 (by decide),
    Page.vmcbBt_of_agree hdr6 (by decide)]

/-- Each handler records the event of the condition and no other. -/
theorem handleEvent_records_iff (hgif : s.gif = false) (hsvme : s.svme = true)
    (hintercept : intercepts s.vmcb k = true) :
    (((s.exitedFor k).handleEvent sipiVector k).pending k = true ∧
      ¬((s.exitedFor k).handleEvent sipiVector k).DeliveredTo k) ↔ s.Records k := by
  have hheld : ((s.exitedFor k).hold k).pending k = true := Function.update_self ..
  cases k with
  | nmi =>
      have hquiet : ¬((s.exitedFor .nmi).hold .nmi).DeliveredTo .nmi :=
        not_deliveredTo_of_vmcb (by decide) rfl
      exact iff_of_true ⟨hheld, hquiet⟩ ⟨hintercept, by decide, nofun⟩
  | machineCheck =>
      have hstep : (s.exitedFor .machineCheck).handleEvent sipiVector .machineCheck =
          (s.exitedFor .machineCheck).hold .machineCheck := by
        change (if !s.gif then _ else _) = _
        rw [hgif]
        rfl
      have hquiet : ¬((s.exitedFor .machineCheck).hold .machineCheck).DeliveredTo .machineCheck :=
        not_deliveredTo_of_vmcb (by decide) rfl
      rw [hstep]
      exact iff_of_true ⟨hheld, hquiet⟩ ⟨hintercept, by decide, nofun⟩
  | init =>
      have hstep := sxHandler_exitedFor s sipiVector
      have hgiven : ((s.exitedFor .init).handleEvent sipiVector .init).DeliveredTo .init := by
        change ((s.exitedFor .init).nvcSvmSxExceptionHandler sipiVector).DeliveredTo .init
        rw [hstep, hgif, if_neg Bool.false_ne_true]
        split
        · exact deliveredTo_injectEvent (s := s.exitedFor .init) (k := .init)
        · exact .inr ⟨rfl, _, _, rfl⟩
      exact iff_of_false (fun h => h.2 hgiven) fun h => h.2.1 rfl
  | debug =>
      change ((s.exitedFor .debug).nvcSvmDbExceptionHandler.pending .debug = true ∧
        ¬(s.exitedFor .debug).nvcSvmDbExceptionHandler.DeliveredTo .debug) ↔ _
      rw [dbHandler_exitedFor hgif hsvme]
      unfold Records
      by_cases hbs : s.vmcb.vmcbBt guestDr6 amd64Dr6Bs = true
      · have hquiet : ¬((s.exitedFor .debug).hold .debug).DeliveredTo .debug :=
          not_deliveredTo_of_vmcb (by decide) rfl
        rw [if_pos hbs]
        exact iff_of_true ⟨hheld, hquiet⟩ ⟨hintercept, by decide, fun _ => .inl hbs⟩
      rw [if_neg hbs]
      by_cases hfires : (s.vmcb.vmcbBt guestDr6 amd64Dr6Bd || s.vmcb.vmcbBt guestDr6 amd64Dr6Bt) = true
      · rw [if_pos hfires]
        refine iff_of_false (fun h => h.2 ?_) ?_
        · exact deliveredTo_injectEvent (s := s.exitedFor .debug) (k := .debug)
        rintro ⟨-, -, hrecords⟩
        rcases hrecords rfl with hbs' | ⟨-, hbd, hbt⟩
        · exact hbs hbs'
        · rw [hbd, hbt] at hfires
          exact Bool.false_ne_true hfires
      · have hquiet : ¬(s.exitedFor .debug).DeliveredTo .debug :=
          not_deliveredTo_of_vmcb (by decide) rfl
        rw [if_neg hfires]
        rw [Bool.not_eq_true, Bool.or_eq_false_iff] at hfires
        constructor
        · rintro ⟨hpending, -⟩
          exact ⟨hintercept, by decide, fun _ => .inr ⟨hpending, hfires⟩⟩
        · rintro ⟨-, -, hrecords⟩
          rcases hrecords rfl with hbs' | ⟨hpending, -⟩
          · exact absurd hbs' hbs
          · exact ⟨hpending, hquiet⟩

/-- While the flag is set, no handler acts on its event. -/
theorem handleEvent_not_atOnce (hgif : s.gif = true) (hpending : ∀ k, s.pending k = false)
    (h : ((s.exitedFor k).handleEvent sipiVector k).DeliveredTo k)
    (hkept : ((s.exitedFor k).handleEvent sipiVector k).pending = s.pending) : False := by
  have hheld : ∀ t : GifVcpu, t = (s.exitedFor k).hold k → t.pending ≠ s.pending := by
    rintro t rfl hsame
    have hk : Function.update s.pending k true k = s.pending k := congrFun hsame k
    rw [Function.update_self, hpending] at hk
    exact Bool.false_ne_true hk.symm
  cases k with
  | nmi => exact hheld _ rfl hkept
  | machineCheck =>
      have hstep : (s.exitedFor .machineCheck).handleEvent sipiVector .machineCheck =
          s.exitedFor .machineCheck := by
        change (if !s.gif then _ else _) = _
        rw [hgif]
        rfl
      rw [hstep] at h
      exact not_deliveredTo_of_vmcb (by decide) rfl h
  | init =>
      have hstep := sxHandler_exitedFor s sipiVector
      rw [hgif, if_pos rfl] at hstep
      exact hheld _ hstep hkept
  | debug =>
      have hstep : (s.exitedFor .debug).handleEvent sipiVector .debug = s.exitedFor .debug := by
        change (if !s.gif && s.svme then _ else _) = _
        rw [hgif]
        rfl
      rw [hstep] at h
      exact not_deliveredTo_of_vmcb (by decide) rfl h

end GifVcpu

namespace GifVcpu

variable {ncr3 : BitVec 64} {s : GifVcpu} {k : HeldEvent} {sipiVector : BitVec 8} {n : BitVec 4}
  {e : GifEvent}

theorem exit_svme {s : NestedVcpu} {eax : BitVec 32} : (s.nvcSvmExitHandler n eax).svme = s.svme := by
  by_cases hforwards : s.Forwards n
  · rw [NestedVcpu.exit_of_forwards hforwards]
  · rw [NestedVcpu.exit_of_not_forwards hforwards]

/-- What an event leaves of the flag, of its permission, and of the events that are pending. -/
theorem arrives_frame (s : GifVcpu) (k : HeldEvent) (sipiVector : BitVec 8) :
    (s.arrives k sipiVector).gif = s.gif ∧ (s.arrives k sipiVector).svme = s.svme ∧
      ∀ k', s.pending k' = true → (s.arrives k sipiVector).pending k' = true := by
  cases hrun : s.guestVmcb with
  | some n =>
      rw [arrives_of_running hrun]
      split
      · exact ⟨rfl, exit_svme, fun _ h => h⟩
      · exact ⟨rfl, rfl, fun _ h => h⟩
  | none =>
      rw [arrives_of_idle hrun]
      split
      case isFalse => exact ⟨rfl, rfl, fun _ h => h⟩
      case isTrue =>
        change ((s.exitedFor k).handleEvent sipiVector k).gif = _ ∧ _ ∧ _
        obtain ⟨-, hsvme, hgif⟩ := handleEvent_frame (s.exitedFor k) k sipiVector
        refine ⟨hgif, hsvme, fun k' hk' => ?_⟩
        change ((s.exitedFor k).handleEvent sipiVector k).pending k' = true
        obtain h | ⟨vector, errorValid, errorCode, h⟩ | h | h :=
          handleEvent_cases (s.exitedFor k) k sipiVector
        · rw [h]
          change Function.update s.pending k true k' = true
          by_cases hsame : k' = k
          · rw [hsame, Function.update_self]
          · rw [Function.update_of_ne hsame, hk']
        · rw [h]
          exact hk'
        · rw [h]
          exact hk'
        · rw [h]
          exact hk'

theorem nested_svme {e : NestedEvent} (htakes : s.Takes (.nested e)) (h : s.svme = true) :
    (s.toNestedVcpu.step ncr3 e).svme = true := by
  have hwith : ∀ (t execute : NestedVcpu) (rax : BitVec 64), t.svme = true → execute.svme = true →
      (t.withNestedVmcb rax execute).svme = true := by
    intro t execute rax ht hexecute
    by_cases hexec : t.Executes rax
    · rw [NestedVcpu.withNestedVmcb_of_executes hexec]
      exact hexecute
    · obtain ⟨vmcb, hwith⟩ : ∃ vmcb, t.withNestedVmcb rax execute = { t with vmcb } :=
        NestedVcpu.withNestedVmcb_of_not_executes hexec
      rw [hwith]
      exact ht
  cases e with
  | l1 vmcb memory svme => exact (htakes.2 vmcb memory svme rfl).1
  | vmload rax => exact hwith _ _ _ h h
  | vmsave rax => exact hwith _ _ _ h h
  | vmrun rax =>
      apply hwith _ _ _ h
      obtain ⟨hostIf, hswitch⟩ := NestedVcpu.nvcSvmSwitchToNestedVcpu_eq ncr3
        (s.takeNode (nvcSvmGetNestedVcpuNode rax) rax) (nvcSvmGetNestedVcpuNode rax)
      rw [hswitch, NestedVcpu.takeNode_eq]
      exact h
  | l2 vmcbT memory =>
      obtain ⟨n, hrun, -⟩ := htakes.1
      rw [NestedVcpu.step_l2 ncr3 hrun]
      exact h
  | exit eax =>
      obtain ⟨n, hrun⟩ := Option.ne_none_iff_exists'.mp htakes.1
      rw [NestedVcpu.step_exit ncr3 hrun, exit_svme]
      exact h

theorem setGif_of_svme {gif : Bool} (h : s.svme = true) :
    s.setGif gif = { s with gif, vmcb := noirSvmAdvanceRip s.vmcb } := by
  unfold setGif
  rw [if_pos h]

/-- A step that is no event, and after which nothing is pending that could be delivered. -/
theorem holdsBack_of_pending {s' : GifVcpu} (he : ∀ k v, e ≠ .arrives k v)
    (hpending : s'.pending = s.pending) (hdrained : s'.gif = true → ∀ k, s.pending k = false) :
    GifVcpu.HoldsBack s s' e where
  recorded k v h := absurd h (he k v)
  atOnce k v h := absurd h (he k v)
  delivered hgif k hk := absurd ((hdrained hgif k).symm.trans hk) Bool.false_ne_true
  kept _ k hk := by rw [hpending, hk]

theorem actedOn_of_running {s' : GifVcpu} (hrun : s.guestVmcb = some n) : ActedOn s s' k ↔
    (intercepts (s.nodePool n).vmcbT k = false ∨ s'.guestVmcb = none) := by
  unfold ActedOn
  rw [hrun]

theorem actedOn_of_idle {s' : GifVcpu} (hidle : s.guestVmcb = none) : ActedOn s s' k ↔
    (intercepts s.vmcb k = false ∨ s'.DeliveredTo k) := by
  unfold ActedOn
  rw [hidle]

/-- While L2 runs, an event has its effect at once. -/
theorem arrives_actedOn (hrun : s.guestVmcb = some n) :
    ActedOn s (s.arrives k sipiVector) k ∧ (s.arrives k sipiVector).pending = s.pending := by
  rw [actedOn_of_running hrun, arrives_of_running hrun]
  split
  case isTrue =>
    rw [NestedVcpu.exit_of_forwards (nestedExited_forwards s n k)]
    exact ⟨.inr rfl, rfl⟩
  case isFalse hintercept => exact ⟨.inl (Bool.eq_false_of_not_eq_true hintercept), rfl⟩

/-- An event that is not intercepted goes to L1 past the hypervisor. -/
theorem arrives_of_not_intercepted (hidle : s.guestVmcb = none)
    (hintercept : intercepts s.vmcb k = false) : s.arrives k sipiVector = s := by
  rw [arrives_of_idle hidle, hintercept]
  rfl

theorem arrives_of_intercepted (hidle : s.guestVmcb = none)
    (hintercept : intercepts s.vmcb k = true) :
    s.arrives k sipiVector = (s.exitedFor k).handleEvent sipiVector k := by
  rw [arrives_of_idle hidle, if_pos hintercept]
  rfl

theorem arrives_atOnce_iff (k : HeldEvent) (sipiVector : BitVec 8) (hgif : s.gif = true) (hpending : ∀ k, s.pending k = false) :
    (ActedOn s (s.arrives k sipiVector) k ∧ (s.arrives k sipiVector).pending = s.pending) ↔
      (s.guestVmcb = none → intercepts s.vmcb k = false) := by
  cases hrun : s.guestVmcb with
  | some n => exact iff_of_true (arrives_actedOn hrun) nofun
  | none =>
      cases hintercept : intercepts s.vmcb k with
      | false =>
          rw [actedOn_of_idle hrun, arrives_of_not_intercepted hrun hintercept]
          exact iff_of_true ⟨.inl hintercept, rfl⟩ fun _ => rfl
      | true =>
          rw [actedOn_of_idle hrun, arrives_of_intercepted hrun hintercept, hintercept]
          refine iff_of_false ?_ fun h => Bool.false_ne_true (h rfl).symm
          rintro ⟨hacted, hkept⟩
          rcases hacted with hfalse | hdelivered
          · exact Bool.false_ne_true hfalse.symm
          · exact handleEvent_not_atOnce hgif hpending hdelivered hkept

theorem arrives_recorded_iff (k : HeldEvent) (sipiVector : BitVec 8) (hgif : s.gif = false) (hsvme : s.svme = true) :
    ((s.arrives k sipiVector).pending k = true ∧ ¬ActedOn s (s.arrives k sipiVector) k) ↔
      (s.guestVmcb = none ∧ s.Records k) := by
  cases hrun : s.guestVmcb with
  | some n => exact iff_of_false (fun h => h.2 (arrives_actedOn hrun).1) fun h => (nomatch h.1)
  | none =>
      cases hintercept : intercepts s.vmcb k with
      | false =>
          rw [actedOn_of_idle hrun]
          refine iff_of_false (fun h => h.2 (.inl hintercept)) fun h => ?_
          exact Bool.false_ne_true (hintercept.symm.trans h.2.1)
      | true =>
          rw [actedOn_of_idle hrun, arrives_of_intercepted hrun hintercept, hintercept,
            ← handleEvent_records_iff hgif hsvme hintercept]
          constructor
          · rintro ⟨hheld, hacted⟩
            exact ⟨rfl, hheld, fun h => hacted (.inr h)⟩
          · rintro ⟨-, hheld, hquiet⟩
            refine ⟨hheld, ?_⟩
            rintro (hfalse | hdelivered)
            · exact Bool.false_ne_true hfalse.symm
            · exact hquiet hdelivered

end GifVcpu

namespace GifRun

variable {ncr3 : BitVec 64} {r : GifRun} {e : GifEvent}

/-- One step that holds back events is one of the condition. -/
theorem Drained.holdsBack_iff (h : r.Drained) (htakes : r.Takes e) :
    r.HoldsBack ncr3 e ↔ r.Fits e := by
  unfold HoldsBack Fits
  cases e with
  | nested e => exact iff_of_true (GifVcpu.holdsBack_of_pending nofun rfl h.drained) trivial
  | vmcr rInit => exact iff_of_true (GifVcpu.holdsBack_of_pending nofun rfl h.drained) trivial
  | stgi =>
      have hstep : r.vcpu.step ncr3 .stgi = { r.vcpu with
          gif := true, vmcb := noirSvmAdvanceRip r.vcpu.vmcb } := GifVcpu.setGif_of_svme h.svme
      rw [hstep]
      constructor
      · intro hholds k
        by_contra hk
        rw [Bool.not_eq_false] at hk
        obtain ⟨k', hk', -, hgone⟩ := hholds.delivered rfl k hk
        have hupdate : r.vcpu.pending k' = Function.update r.vcpu.pending k' false k' :=
          congrFun hgone k'
        rw [hk', Function.update_self] at hupdate
        exact Bool.false_ne_true hupdate.symm
      · exact fun hfits => GifVcpu.holdsBack_of_pending nofun rfl fun _ => hfits
  | clgi =>
      have hstep : r.vcpu.step ncr3 .clgi = { r.vcpu with
          gif := false, vmcb := noirSvmAdvanceRip r.vcpu.vmcb } := GifVcpu.setGif_of_svme h.svme
      rw [hstep]
      exact iff_of_true (GifVcpu.holdsBack_of_pending nofun rfl nofun) trivial
  | arrives k sipiVector =>
      obtain ⟨hsame, -, hkept⟩ := GifVcpu.arrives_frame r.vcpu k sipiVector
      change GifVcpu.HoldsBack r.vcpu (r.vcpu.arrives k sipiVector) _ ↔
        if r.vcpu.gif then _ else _
      cases hgif : r.vcpu.gif with
      | true =>
          have hpending := h.drained hgif
          rw [if_pos rfl, ← GifVcpu.arrives_atOnce_iff k sipiVector hgif hpending]
          constructor
          · exact fun hholds => hholds.atOnce k sipiVector rfl hgif
          · intro hacted
            refine ⟨fun _ _ _ hclear => ?_, ?_, fun _ k' hk' => ?_, fun hclear => ?_⟩
            · exact absurd (hgif.symm.trans hclear) (by decide)
            · rintro k' v hsame -
              cases hsame
              exact hacted
            · exact absurd ((hpending k').symm.trans hk') (by decide)
            · exact absurd (hgif.symm.trans (hsame.symm.trans hclear)) (by decide)
      | false =>
          rw [if_neg Bool.false_ne_true,
            ← GifVcpu.arrives_recorded_iff k sipiVector hgif h.svme]
          constructor
          · exact fun hholds => hholds.recorded k sipiVector rfl hgif
          · intro hrecorded
            refine ⟨?_, fun _ _ _ hset => ?_, fun hset => ?_, fun _ => hkept⟩
            · rintro k' v hsame -
              cases hsame
              exact hrecorded
            · exact absurd (hgif.symm.trans hset) (by decide)
            · exact absurd (hgif.symm.trans (hsame.symm.trans hset)) (by decide)

theorem Drained.next (h : r.Drained) (htakes : r.Takes e) (hfits : r.Fits e) :
    (r.next ncr3 e).Drained := by
  unfold Fits at hfits
  cases e with
  | nested e => exact ⟨GifVcpu.nested_svme htakes h.svme, h.drained⟩
  | vmcr rInit => exact ⟨h.svme, h.drained⟩
  | stgi =>
      have hstep : (r.next ncr3 .stgi).vcpu = { r.vcpu with
          gif := true, vmcb := noirSvmAdvanceRip r.vcpu.vmcb } := GifVcpu.setGif_of_svme h.svme
      constructor
      · rw [hstep]
        exact h.svme
      · rw [hstep]
        exact fun _ => hfits
  | clgi =>
      have hstep : (r.next ncr3 .clgi).vcpu = { r.vcpu with
          gif := false, vmcb := noirSvmAdvanceRip r.vcpu.vmcb } := GifVcpu.setGif_of_svme h.svme
      constructor
      · rw [hstep]
        exact h.svme
      · rw [hstep]
        exact nofun
  | arrives k sipiVector =>
      obtain ⟨hsame, hsvme, -⟩ := GifVcpu.arrives_frame r.vcpu k sipiVector
      refine ⟨hsvme.trans h.svme, fun hset => ?_⟩
      have hgif : r.vcpu.gif = true := hsame.symm.trans hset
      change if r.vcpu.gif then _ else _ at hfits
      rw [hgif, if_pos rfl] at hfits
      have hkept := ((GifVcpu.arrives_atOnce_iff k sipiVector hgif
        (h.drained hgif)).mpr hfits).2
      intro k'
      change (r.vcpu.arrives k sipiVector).pending k' = false
      rw [hkept]
      exact h.drained hgif k'

/-- Interrupts stay masked between a nested exit and its `stgi`, whatever arrives. -/
theorem Masked.next (h : r.Masked) (htakes : r.Takes e) :
    r.Masks ncr3 e ∧ (r.next ncr3 e).Masked := by
  have hexit : r.exits ncr3 e = true →
      (r.next ncr3 e).vcpu.vmcb.vmcbBt guestRflags amd64RflagsIf = false := by
    intro hexits
    obtain ⟨hsome, hnone⟩ := Bool.and_eq_true_iff.mp hexits
    obtain ⟨n, hrun⟩ := Option.isSome_iff_exists.mp hsome
    exact GifVcpu.step_masks hrun htakes (Option.isNone_iff_eq_none.mp hnone)
  have hvintr : (r.next ncr3 e).vcpu.vmcb.vmcbBt avicControl avicControlVintrMask = false := by
    rw [← h.vintrMask]
    exact Page.vmcbBt_of_agree (GifVcpu.step_avicControl htakes) (by decide)
  have hmasked : (r.next ncr3 e).vcpu.guestVmcb = none → (r.next ncr3 e).afterExit = true →
      (r.next ncr3 e).ownIf = true →
        (r.next ncr3 e).vcpu.vmcb.vmcbBt guestRflags amd64RflagsIf = false := by
    intro hidle' hafter hown
    cases hrun : r.vcpu.guestVmcb with
    | some n => exact GifVcpu.step_masks hrun htakes hidle'
    | none =>
        have hstays : r.exits ncr3 e = false := by
          unfold exits
          rw [hrun]
          rfl
        unfold GifRun.next at hafter hown
        dsimp only at hafter hown
        rw [hstays, Bool.false_or, Bool.and_eq_true] at hafter hown
        have hif := h.masked hrun hafter.1 hown.1
        refine GifVcpu.step_masked hrun hif ?_
        rintro vmcb memory svme rfl
        have hkept := hown.2
        unfold changesIf at hkept
        dsimp only at hkept
        rw [hif] at hkept
        cases hbit : vmcb.vmcbBt guestRflags amd64RflagsIf with
        | false => rfl
        | true => exact absurd (hbit ▸ hkept) (by decide)
  refine ⟨⟨fun hafter hown htakes => ?_, hexit⟩, hvintr, hmasked⟩
  have hunmasked := htakes.2
  rw [if_neg (Bool.eq_false_iff.mp hvintr), hmasked htakes.1 hafter hown] at hunmasked
  exact Bool.false_ne_true hunmasked

theorem Start.masked (h : r.Start) : r.Masked :=
  ⟨h.vintrMask, fun _ hafter => absurd (h.afterExit.symm.trans hafter) Bool.false_ne_true⟩

theorem Start.drained (h : r.Start) : r.Drained := ⟨h.svme, fun _ => h.pending⟩

/-- Interrupts are masked in every run. Events are held back in the runs of the condition. -/
theorem masks_and_holdsBack_iff (ncr3 : BitVec 64) (r : GifRun) (events : List GifEvent)
    (hstart : r.Start) (htakes : Along Takes (next ncr3) r events) :
    Along (Masks ncr3) (next ncr3) r events ∧
      (Along (HoldsBack ncr3) (next ncr3) r events ↔ Along Fits (next ncr3) r events) := by
  constructor
  · exact along_of_invariant (fun _ _ h => h.next) hstart.masked htakes
  · exact along_iff (fun _ _ h => h.holdsBack_iff) (fun _ _ h => h.next) hstart.drained htakes

/-- A vCPU whose security exceptions are intercepted. -/
def firstGifRun : GifRun where
  vcpu :=
    { vmcb := fun i => if i = interceptExceptions + 3 then 0x40 else 0
      memory := fun _ _ => 0
      nodePool := fun _ => ⟨0, fun _ => 0, false⟩
      svme := true
      hostIf := false
      guestVmcb := none
      gprState := fun _ => 0
      dr := fun _ => 0
      cpuidFms := 0
      gif := false
      rInit := false
      pending := fun _ => false }
  afterExit := false
  ownIf := false

theorem firstGifRun_start : firstGifRun.Start := ⟨rfl, rfl, rfl, fun _ => rfl, rfl⟩

theorem firstGifRun_masks_and_holdsBack_iff :
    Along (Masks 0) (next 0) firstGifRun [.stgi, .arrives .init 0x10] ∧
      (Along (HoldsBack 0) (next 0) firstGifRun [.stgi, .arrives .init 0x10] ↔
        Along Fits (next 0) firstGifRun [.stgi, .arrives .init 0x10]) :=
  masks_and_holdsBack_iff 0 firstGifRun _ firstGifRun_start ⟨rfl, trivial, trivial⟩

/-- An INIT that comes while the flag is set is recorded, and nothing happens. -/
theorem not_forall_holdsBack : ¬∀ (ncr3 : BitVec 64) (r : GifRun) (events : List GifEvent), r.Start →
    Along Takes (next ncr3) r events → Along (HoldsBack ncr3) (next ncr3) r events := by
  intro h
  have htakes : Along Takes (next 0) firstGifRun [.stgi, .arrives .init 0x10] :=
    ⟨rfl, trivial, trivial⟩
  have hholds := (h 0 firstGifRun _ firstGifRun_start htakes).2.1
  have hdrained : (firstGifRun.next 0 .stgi).Drained :=
    firstGifRun_start.drained.next rfl fun _ => rfl
  have hfits : (firstGifRun.next 0 .stgi).Fits (.arrives .init 0x10) :=
    (hdrained.holdsBack_iff htakes.2.1).mp hholds
  exact absurd (hfits rfl) (by decide)

end GifRun

end NoirVisor
