import NoirVisor.Cvm.SvmCleanRuns
import NoirVisor.Cvm.SvmMsr
import NoirVisor.Cvm.SvmViews

/-!
# The shadow of CR4.MCE on SVM

A guest must not turn machine checks off: the moves to and from CR4 are intercepted, and the bit that
the guest has is kept beside the VMCB. The operand of a move is looked for in the frame, where the RSP
is the one of the last entry; and neither a view of the control registers nor their load from the
structure knows of the shadow.
-/

namespace NoirVisor

open Transition

namespace CvexitState

variable (s : CvexitState)

/-- What a guest that exits in this state has in its registers. -/
def guestRegister : Register → Nat := (svmExitFile s.p s.vcpu).reg

/-- The CR4 that the processor runs the guest with. -/
def hardwareCr4 : Nat := s.vcpu.vmcb.field (.guest .cr4)

/-- What a move from CR4 gives. -/
def shownCr4 : Nat :=
  if s.vcpu.shadowedBits.mce then s.hardwareCr4 else noirBtr s.hardwareCr4 cr4MceBit

/-- Nothing changes that the guest can see but these registers. -/
def OnlyChanges (registers : List Register) (s s' : CvexitState) : Prop :=
  (∀ r, r ∉ registers → s'.guestRegister r = s.guestRegister r) ∧ s'.p.xstate = s.p.xstate

/-- What the guest, and the handlers of its other exits, leave alone. -/
structure KeepsCr4 (s s' : CvexitState) : Prop where
  toHost : s'.toHost = s.toHost
  nsvGuest : s'.vcpu.nsvGuest = s.vcpu.nsvGuest
  mce : s'.vcpu.shadowedBits.mce = s.vcpu.shadowedBits.mce
  stateCache : s'.vcpu.header.stateCache .cr = s.vcpu.header.stateCache .cr
  hardware : s'.hardwareCr4 = s.hardwareCr4

end CvexitState

/-- The register of a move to or from CR4. -/
def CvexitContext.operand (ctx : CvexitContext) : Register := .gpr (Fin.ofNat 16 ctx.exitInfo1)

/-- A vCPU, and beside it what the guest moved to CR4, unless the layered hypervisor edited control
registers since. -/
structure Cr4Session where
  state : CvexitState
  written : Option Nat

/-- `execute` is whatever goes on in the guest between two of the other events. -/
inductive Cr4Event where
  | execute (state : CvexitState)
  | moveToCr4 (ctx : CvexitContext) (caching : Bool)
  | moveFromCr4 (ctx : CvexitContext) (caching : Bool)
  | leave (ctx : CvexitContext) (caching : Bool)
  | view (b : Buffer) (size tsc : Nat)
  | edit (call : EditCall)
  | enter (cpu : Xsave.Features) (procId : Nat) (p : Processor) (host : VirtualCpu)

section Events

variable (supportedSizeMax : Nat)

/-- A view of the control registers. -/
def viewControlRegisters (vcpu : SvmCustomVcpu) (b : Buffer) (size tsc : Nat) :
    NoirStatus × SvmCustomVcpu × Buffer :=
  nvcViewVcpuRegisters SvmCustomVcpu.header nvcSvmDumpGuestVcpuState supportedSizeMax tsc vcpu
    .controlRegister b size

/-- None if the guest, or the host, is not the one that runs, or if an instruction of a switch raises an
exception. -/
def Cr4Event.result (s : CvexitState) : Cr4Event → Option CvexitState
  | execute s' => if s.toHost then none else some s'
  | moveToCr4 ctx caching => if s.toHost then none else nvcSvmExitHandler ctx s caching 0x14
  | moveFromCr4 ctx caching => if s.toHost then none else nvcSvmExitHandler ctx s caching 0x04
  | leave ctx caching => if s.toHost then none else cvexitToHost ctx (s.exited caching)
  | view b size tsc =>
      if s.toHost then
        some { s with vcpu := (viewControlRegisters supportedSizeMax s.vcpu b size tsc).2.1 }
      else none
  | edit call =>
      if s.toHost then some { s with vcpu := s.vcpu.edited supportedSizeMax [call] } else none
  | enter cpu procId p host =>
      if s.toHost then
        (nvcSvmSwitchToGuestVcpu cpu procId p host s.vcpu).map fun (p, _, vcpu) =>
          { s with p, vcpu, toHost := false }
      else none

namespace Cr4Session

variable (s : Cr4Session)

def writtenAfter : Cr4Event → Option Nat
  | .moveToCr4 ctx _ => some (s.state.guestRegister ctx.operand)
  | .edit call => if call.edits.any (·.invalidates .cr) then none else s.written
  | _ => s.written

def next (e : Cr4Event) : Cr4Session :=
  ⟨(e.result supportedSizeMax s.state).getD s.state, s.writtenAfter e⟩

def Possible (e : Cr4Event) : Prop :=
  (∀ s', e = .execute s' → s.state.KeepsCr4 s') ∧ (e.result supportedSizeMax s.state).isSome

/-- The guest runs with machine checks on. A move takes the register of the guest, changes only what it
is to change, and gives what was last moved to CR4; so does a view. -/
def Transparent (e : Cr4Event) : Prop :=
  let s' := s.next supportedSizeMax e
  (s'.state.toHost = false → s'.state.hardwareCr4.testBit cr4MceBit = true) ∧
    match e with
    | .moveToCr4 ctx _ =>
        s'.state.shownCr4 = s.state.guestRegister ctx.operand ∧
          s.state.OnlyChanges [.cr4, .rip] s'.state
    | .moveFromCr4 ctx _ =>
        (∀ value, s.written = some value → s'.state.guestRegister ctx.operand = value) ∧
          s.state.OnlyChanges [ctx.operand, .rip] s'.state
    | .view b size tsc =>
        24 ≤ size → ∀ value, s.written = some value →
          (viewControlRegisters supportedSizeMax s.state.vcpu b size tsc).2.2.word 2 = value
    | _ => True

/-- RSP is an operand only if its value is also where the handler looks for it or has to put it. The
host views the control registers only if the guest has the bit set, and has it set in those it loads
itself. -/
def Unshadowed (s : Cr4Session) : Cr4Event → Prop
  | .moveToCr4 ctx _ =>
      ctx.operand = .rsp → s.state.p.reg .rsp = s.state.vcpu.vmcb.field (.guest .rsp)
  | .moveFromCr4 ctx _ =>
      ctx.operand = .rsp →
        ∀ value, s.written = some value → s.state.vcpu.vmcb.field (.guest .rsp) = value
  | .view _ size _ =>
      24 ≤ size → ∀ value, s.written = some value →
        if s.state.vcpu.header.stateCache .cr then value.testBit cr4MceBit = true
        else s.state.vcpu.header.reg .cr4 = value
  | .enter .. =>
      s.state.vcpu.header.stateCache .cr = false →
        (if s.state.vcpu.nsvGuest then s.state.hardwareCr4
          else s.state.vcpu.header.reg .cr4).testBit cr4MceBit = true
  | _ => True

/-- A vCPU that has not run yet. -/
def Created : Prop :=
  s.state.toHost = true ∧ (∀ c, s.state.vcpu.header.stateCache c = false) ∧ s.written = none

/-- The shadow has the bit of what the guest moved to CR4, and the VMCB the rest of it. -/
structure Coherent : Prop where
  mce : s.state.toHost = false ∨ s.state.vcpu.header.stateCache .cr = true →
    s.state.hardwareCr4.testBit cr4MceBit = true
  loaded : s.state.toHost = false ∨ s.written.isSome →
    s.state.vcpu.header.stateCache .cr = true ∨ s.state.vcpu.nsvGuest = true
  written : ∀ value, s.written = some value →
    s.state.hardwareCr4 = noirBts value cr4MceBit ∧
      s.state.vcpu.shadowedBits.mce = value.testBit cr4MceBit
  dumped : s.state.toHost = true → s.state.vcpu.header.stateCache .cr = true →
    s.state.vcpu.header.synchronized = true →
      s.state.vcpu.header.reg .cr4 = s.state.hardwareCr4

end Cr4Session

end Events

theorem Vmcb.advanceRip_guest {vmcb : Vmcb} {r : Register} (h : r ≠ .rip) :
    vmcb.advanceRip.field (.guest r) = vmcb.field (.guest r) := by
  have hrip : VmcbField.guest r ≠ .guest .rip := fun heq => h (VmcbField.guest.inj heq)
  unfold Vmcb.advanceRip
  dsimp only
  split
  · split <;> rfl
  · split
    · exact Vmcb.field_write_of_ne hrip
    · exact Vmcb.field_write_of_ne hrip

namespace CvexitState

variable {s s' : CvexitState} {registers : List Register} {ctx : CvexitContext} {caching : Bool}

/-- RAX and RSP are in the VMCB, the other registers that a switch saves in the frame. -/
theorem onlyChanges_of
    (hvmcb : ∀ r, r ∉ registers → s'.vcpu.vmcb.field (.guest r) = s.vcpu.vmcb.field (.guest r))
    (hreg : ∀ r, r ∉ registers → r ≠ .rax → s'.p.reg r = s.p.reg r)
    (hheader : s'.vcpu.header.reg = s.vcpu.header.reg)
    (hsvme : s'.vcpu.shadowedBits.svme = s.vcpu.shadowedBits.svme)
    (hxstate : s'.p.xstate = s.p.xstate) : OnlyChanges registers s s' := by
  refine ⟨fun r hr => ?_, hxstate⟩
  unfold guestRegister svmExitFile
  dsimp only
  by_cases hswitched : svmSwitched r = true
  · rw [if_pos hswitched, if_pos hswitched]
    unfold SvmCustomVcpu.exitRegisters copyRegisters
    by_cases hheld : (r == .rax || r == .rsp) = true
    · rw [if_pos hheld, if_pos hheld]
      exact hvmcb r hr
    · rw [if_neg hheld, if_neg hheld]
      exact hreg r hr fun hrax => hheld (by rw [hrax]; rfl)
  · rw [if_neg hswitched, if_neg hswitched]
    have hdumped : s'.vcpu.dumped r = s.vcpu.dumped r := by
      unfold SvmCustomVcpu.dumped
      rw [hsvme, hvmcb r hr]
    rw [hheader, hdumped]

theorem exited_reg (s : CvexitState) (caching : Bool) (r : Register) :
    (s.exited caching).p.reg r = if r = .rax then s.vcpu.vmcb.field (.guest .rax) else s.p.reg r := by
  by_cases h : r = .rax
  · rw [if_pos h, h]
    exact Function.update_self Register.rax (s.vcpu.vmcb.field (.guest .rax)) s.p.reg
  · rw [if_neg h]
    exact Function.update_of_ne h _ _

theorem guestRegister_gpr (i : Fin 16) :
    s.guestRegister (.gpr i) =
      if Register.gpr i = .rax ∨ Register.gpr i = .rsp then s.vcpu.vmcb.field (.guest (.gpr i))
      else s.p.reg (.gpr i) := by
  have hread : s.guestRegister (.gpr i) = s.vcpu.exitRegisters s.p (.gpr i) := rfl
  rw [hread]
  unfold SvmCustomVcpu.exitRegisters copyRegisters
  simp

/-- The guest has its own RAX in the frame while a handler runs, but not its RSP. -/
theorem exited_operand (s : CvexitState) (ctx : CvexitContext) (caching : Bool) :
    (s.exited caching).p.reg ctx.operand = s.guestRegister ctx.operand ↔
      (ctx.operand = .rsp → s.p.reg .rsp = s.vcpu.vmcb.field (.guest .rsp)) := by
  have hread : s.guestRegister ctx.operand = _ := guestRegister_gpr (Fin.ofNat 16 ctx.exitInfo1)
  rw [hread, exited_reg]
  change (if ctx.operand = .rax then _ else _) =
    (if ctx.operand = .rax ∨ ctx.operand = .rsp then _ else _) ↔ _
  by_cases hrax : ctx.operand = .rax
  · have hrsp : ctx.operand ≠ .rsp := by
      rw [hrax]
      exact by decide
    rw [if_pos hrax, if_pos (.inl hrax)]
    exact iff_of_true (by rw [← hrax]; rfl) fun h => absurd h hrsp
  · rw [if_neg hrax]
    by_cases hrsp : ctx.operand = .rsp
    · rw [if_pos (.inr hrsp), hrsp]
      exact ⟨fun h _ => by rw [h, ← hrsp]; rfl, fun h => (h rfl).trans (by rw [← hrsp]; rfl)⟩
    · rw [if_neg (by tauto)]
      exact iff_of_true rfl fun h => absurd h hrsp

theorem resumed_guest (htoHost : s.toHost = false) {r : Register} :
    s.resumed.vcpu.vmcb.field (.guest r) =
      if r = .rax then s.p.reg .rax else s.vcpu.vmcb.field (.guest r) := by
  unfold resumed
  rw [htoHost, if_neg Bool.false_ne_true]
  by_cases h : r = .rax
  · rw [if_pos h, h]
    exact Vmcb.field_write_self
  · rw [if_neg h]
    exact Vmcb.field_write_of_ne fun heq => h (VmcbField.guest.inj heq)

/-- The handlers of the moves do not change what belongs to the hypervisor. -/
structure Resumes (s s' : CvexitState) : Prop where
  toHost : s'.toHost = false
  nsvGuest : s'.vcpu.nsvGuest = s.vcpu.nsvGuest
  stateCache : s'.vcpu.header.stateCache = s.vcpu.header.stateCache
  reg : s'.vcpu.header.reg = s.vcpu.header.reg
  svme : s'.vcpu.shadowedBits.svme = s.vcpu.shadowedBits.svme
  xstate : s'.p.xstate = s.p.xstate

theorem resumed_eq_withVmcb (htoHost : s.toHost = false) :
    s.resumed = s.withVmcb (·.write (.guest .rax) (s.p.reg .rax)) := by
  unfold resumed
  rw [htoHost, if_neg Bool.false_ne_true]

section MoveTo

variable (ctx s caching)

def movedToCr4 : CvexitState := (nvcSvmCr4WriteCvexitHandler ctx (s.exited caching)).resumed

def movedFromCr4 : CvexitState := (nvcSvmCr4ReadCvexitHandler ctx (s.exited caching)).resumed

end MoveTo

theorem resumes_movedToCr4 (htoHost : s.toHost = false) : s.Resumes (movedToCr4 s ctx caching) := by
  have hheld : (nvcSvmCr4WriteCvexitHandler ctx (s.exited caching)).toHost = false := htoHost
  unfold movedToCr4
  rw [resumed_eq_withVmcb hheld]
  exact ⟨htoHost, rfl, rfl, rfl, rfl, rfl⟩

theorem resumes_movedFromCr4 (htoHost : s.toHost = false) :
    s.Resumes (movedFromCr4 s ctx caching) := by
  have hheld : (nvcSvmCr4ReadCvexitHandler ctx (s.exited caching)).toHost = false := htoHost
  unfold movedFromCr4
  rw [resumed_eq_withVmcb hheld]
  exact ⟨htoHost, rfl, rfl, rfl, rfl, rfl⟩

theorem movedToCr4_guest (htoHost : s.toHost = false) {r : Register} (hrip : r ≠ .rip) :
    (movedToCr4 s ctx caching).vcpu.vmcb.field (.guest r) =
      if r = .cr4 then noirBts ((s.exited caching).p.reg ctx.operand) cr4MceBit
      else s.vcpu.vmcb.field (.guest r) := by
  have hheld : (nvcSvmCr4WriteCvexitHandler ctx (s.exited caching)).toHost = false := htoHost
  unfold movedToCr4
  rw [resumed_guest hheld]
  by_cases hrax : r = .rax
  · have hcr4 : r ≠ .cr4 := by
      rw [hrax]
      exact by decide
    rw [if_pos hrax, if_neg hcr4, hrax]
    exact (exited_reg s caching .rax).trans (if_pos rfl)
  · rw [if_neg hrax]
    refine (Vmcb.advanceRip_guest hrip).trans ?_
    by_cases hcr4 : r = .cr4
    · rw [if_pos hcr4, hcr4]
      exact Vmcb.field_write_self
    · rw [if_neg hcr4]
      exact Vmcb.field_write_of_ne fun heq => hcr4 (VmcbField.guest.inj heq)

theorem movedToCr4_hardware (htoHost : s.toHost = false) :
    (movedToCr4 s ctx caching).hardwareCr4 =
      noirBts ((s.exited caching).p.reg ctx.operand) cr4MceBit :=
  (movedToCr4_guest htoHost (by decide)).trans (if_pos rfl)

theorem movedToCr4_mce (htoHost : s.toHost = false) :
    (movedToCr4 s ctx caching).vcpu.shadowedBits.mce =
      ((s.exited caching).p.reg ctx.operand).testBit cr4MceBit := by
  have hheld : (nvcSvmCr4WriteCvexitHandler ctx (s.exited caching)).toHost = false := htoHost
  unfold movedToCr4
  rw [resumed_eq_withVmcb hheld]
  rfl

theorem movedToCr4_shown (htoHost : s.toHost = false) :
    (movedToCr4 s ctx caching).shownCr4 = (s.exited caching).p.reg ctx.operand := by
  unfold shownCr4
  rw [movedToCr4_hardware htoHost, movedToCr4_mce htoHost]
  exact btr_bts_shadowed

theorem movedToCr4_onlyChanges (htoHost : s.toHost = false) :
    OnlyChanges [.cr4, .rip] s (movedToCr4 s ctx caching) := by
  have hresumes : s.Resumes (movedToCr4 s ctx caching) := resumes_movedToCr4 htoHost
  refine onlyChanges_of (fun r hr => ?_) (fun r _ hrax => ?_) hresumes.reg hresumes.svme
    hresumes.xstate
  · obtain ⟨hcr4, hrip⟩ : r ≠ .cr4 ∧ r ≠ .rip := by simpa using hr
    exact (movedToCr4_guest htoHost hrip).trans (if_neg hcr4)
  · have hheld : (nvcSvmCr4WriteCvexitHandler ctx (s.exited caching)).toHost = false := htoHost
    unfold movedToCr4
    rw [resumed_eq_withVmcb hheld]
    exact (exited_reg s caching r).trans (if_neg hrax)

theorem readHandler_reg (ctx : CvexitContext) (s : CvexitState) (r : Register) :
    (nvcSvmCr4ReadCvexitHandler ctx s).p.reg r =
      if r = ctx.operand then s.shownCr4 else s.p.reg r := by
  by_cases h : r = ctx.operand
  · rw [if_pos h, h]
    exact Function.update_self _ _ _
  · rw [if_neg h]
    exact Function.update_of_ne h _ _

theorem movedFromCr4_reg (htoHost : s.toHost = false) (r : Register) :
    (movedFromCr4 s ctx caching).p.reg r =
      if r = ctx.operand then s.shownCr4 else (s.exited caching).p.reg r := by
  have hheld : (nvcSvmCr4ReadCvexitHandler ctx (s.exited caching)).toHost = false := htoHost
  unfold movedFromCr4
  rw [resumed_eq_withVmcb hheld]
  exact readHandler_reg ctx (s.exited caching) r

theorem movedFromCr4_guest (htoHost : s.toHost = false) {r : Register} (hrip : r ≠ .rip) :
    (movedFromCr4 s ctx caching).vcpu.vmcb.field (.guest r) =
      if r = .rax ∧ ctx.operand = .rax then s.shownCr4 else s.vcpu.vmcb.field (.guest r) := by
  have hheld : (nvcSvmCr4ReadCvexitHandler ctx (s.exited caching)).toHost = false := htoHost
  unfold movedFromCr4
  rw [resumed_guest hheld, readHandler_reg]
  by_cases hrax : r = .rax
  · rw [if_pos hrax]
    by_cases hoperand : ctx.operand = .rax
    · rw [if_pos hoperand.symm, if_pos ⟨hrax, hoperand⟩]
      rfl
    · rw [if_neg (Ne.symm hoperand), if_neg fun h => hoperand h.2, hrax]
      exact (exited_reg s caching .rax).trans (if_pos rfl)
  · rw [if_neg hrax, if_neg fun h => hrax h.1]
    exact Vmcb.advanceRip_guest hrip

theorem movedFromCr4_operand (htoHost : s.toHost = false) :
    (movedFromCr4 s ctx caching).guestRegister ctx.operand =
      if ctx.operand = .rsp then s.vcpu.vmcb.field (.guest .rsp) else s.shownCr4 := by
  have hread : (movedFromCr4 s ctx caching).guestRegister ctx.operand = _ :=
    guestRegister_gpr (Fin.ofNat 16 ctx.exitInfo1)
  have hrip : ctx.operand ≠ .rip := fun h => nomatch h
  rw [hread]
  change (if ctx.operand = .rax ∨ ctx.operand = .rsp then
    (movedFromCr4 s ctx caching).vcpu.vmcb.field (.guest ctx.operand) else
    (movedFromCr4 s ctx caching).p.reg ctx.operand) = _
  rw [movedFromCr4_guest htoHost hrip, movedFromCr4_reg htoHost, if_pos rfl]
  by_cases hrsp : ctx.operand = .rsp
  · have hrax : ctx.operand ≠ .rax := by
      rw [hrsp]
      exact by decide
    rw [if_pos (.inr hrsp), if_neg fun h => hrax h.1, if_pos hrsp, hrsp]
  · rw [if_neg hrsp]
    by_cases hrax : ctx.operand = .rax
    · rw [if_pos (.inl hrax), if_pos ⟨hrax, hrax⟩]
    · rw [if_neg (by tauto)]

theorem movedFromCr4_hardware (htoHost : s.toHost = false) :
    (movedFromCr4 s ctx caching).hardwareCr4 = s.hardwareCr4 :=
  (movedFromCr4_guest htoHost (by decide)).trans (if_neg fun h => nomatch h.1)

theorem movedFromCr4_mce (htoHost : s.toHost = false) :
    (movedFromCr4 s ctx caching).vcpu.shadowedBits.mce = s.vcpu.shadowedBits.mce := by
  have hheld : (nvcSvmCr4ReadCvexitHandler ctx (s.exited caching)).toHost = false := htoHost
  unfold movedFromCr4
  rw [resumed_eq_withVmcb hheld]
  rfl

theorem movedFromCr4_onlyChanges (htoHost : s.toHost = false) :
    OnlyChanges [ctx.operand, .rip] s (movedFromCr4 s ctx caching) := by
  have hresumes : s.Resumes (movedFromCr4 s ctx caching) := resumes_movedFromCr4 htoHost
  refine onlyChanges_of (fun r hr => ?_) (fun r hr hrax => ?_) hresumes.reg hresumes.svme
    hresumes.xstate
  · obtain ⟨hoperand, hrip⟩ : r ≠ ctx.operand ∧ r ≠ .rip := by simpa using hr
    rw [movedFromCr4_guest htoHost hrip, if_neg]
    rintro ⟨hrax, hsame⟩
    exact hoperand (hrax.trans hsame.symm)
  · obtain ⟨hoperand, -⟩ : r ≠ ctx.operand ∧ r ≠ .rip := by simpa using hr
    rw [movedFromCr4_reg htoHost, if_neg hoperand]
    exact (exited_reg s caching r).trans (if_neg hrax)

end CvexitState

/-! The switches, the view and the edits. -/

namespace SvmCustomVcpu

variable {v : SvmCustomVcpu} {procId : Nat} {c : StateCache} {select : Register → Bool}
  {b : Option CleanBit}

/-- What no load of registers does to the shadow of CR4. -/
theorem loadGroup_mce : (v.loadGroup c select b).shadowedBits.mce = v.shadowedBits.mce := by
  unfold loadGroup
  split <;> rfl

theorem loadControlRegisters_mce : v.loadControlRegisters.shadowedBits.mce = v.shadowedBits.mce := by
  unfold loadControlRegisters
  split
  · rfl
  · exact loadGroup_mce

theorem loadEfer_mce : v.loadEfer.shadowedBits.mce = v.shadowedBits.mce := by
  unfold loadEfer
  split <;> rfl

theorem setEventInjection_shadowedBits : v.setEventInjection.shadowedBits = v.shadowedBits := by
  unfold setEventInjection
  dsimp only
  split
  · split <;> rfl
  · split <;> rfl

theorem flushNestedPaging_shadowedBits : v.flushNestedPaging.shadowedBits = v.shadowedBits := by
  unfold flushNestedPaging
  split <;> rfl

theorem flushNestedPaging_stateCache (h : c ≠ .tl) :
    v.flushNestedPaging.header.stateCache c = v.header.stateCache c := by
  unfold flushNestedPaging
  split
  · rfl
  · exact Function.update_of_ne h _ _

theorem schedule_header : (v.schedule procId).header = v.header := by
  unfold schedule
  split <;> rfl

theorem schedule_guest {r : Register} :
    (v.schedule procId).vmcb.field (.guest r) = v.vmcb.field (.guest r) := by
  unfold schedule
  split <;> rfl

theorem schedule_mce : (v.schedule procId).shadowedBits.mce = v.shadowedBits.mce := by
  unfold schedule
  split <;> rfl

theorem entered_mce : (v.entered procId).shadowedBits.mce = v.shadowedBits.mce := by
  have hload (w : SvmCustomVcpu) : w.loadVmcb.shadowedBits.mce = w.shadowedBits.mce := by
    simp only [loadVmcb, loadGroup_mce, loadControlRegisters_mce, loadEfer_mce]
  unfold entered
  rw [flushNestedPaging_shadowedBits, setEventInjection_shadowedBits]
  exact (hload _).trans schedule_mce

/-- An entry loads CR4 as the structure has it, without its shadow. -/
theorem entered_cr4 :
    (v.entered procId).vmcb.field (.guest .cr4) =
      if v.header.stateCache .cr then v.vmcb.field (.guest .cr4) else v.header.reg .cr4 := by
  rw [entered_guest]
  have hload : (v.protocol.load v.writeback).block .cr4 =
      if (!v.header.stateCache .cr) = true then v.header.reg .cr4 else v.vmcb.field (.guest .cr4) := rfl
  rw [hload]
  cases v.header.stateCache .cr <;> rfl

/-- What an entry does to CR4 and its shadow. Nothing is loaded for an NSV guest. -/
structure EntersWithCr4 (v v' : SvmCustomVcpu) : Prop where
  nsvGuest : v'.nsvGuest = v.nsvGuest
  mce : v'.shadowedBits.mce = v.shadowedBits.mce
  stateCache : v'.header.stateCache .cr = (v.header.stateCache .cr || !v.nsvGuest)
  hardware : v'.vmcb.field (.guest .cr4) =
    if v.header.stateCache .cr || v.nsvGuest then v.vmcb.field (.guest .cr4) else v.header.reg .cr4

theorem entersWithCr4 {v' : SvmCustomVcpu} {cpu : Xsave.Features} {p p' : Processor}
    {host host' : VirtualCpu}
    (h : nvcSvmSwitchToGuestVcpu cpu procId p host v = some (p', host', v')) :
    v.EntersWithCr4 v' := by
  cases hnsv : v.nsvGuest with
  | false =>
      rw [nvcSvmSwitchToGuestVcpu_eq hnsv] at h
      obtain ⟨q, -, heq⟩ := Option.map_eq_some_iff.mp h
      cases heq
      have hframe : (v.entered procId).nsvGuest = v.nsvGuest := congrArg Prod.fst entered_frame
      have hvalid : (v.entered procId).header.stateCache .cr = true := entered_valid rfl
      refine ⟨hframe, entered_mce, ?_, ?_⟩
      · rw [hvalid, hnsv]
        exact (Bool.or_true _).symm
      · rw [entered_cr4, hnsv, Bool.or_false]
  | true =>
      unfold nvcSvmSwitchToGuestVcpu at h
      dsimp only at h
      rw [if_pos hnsv] at h
      obtain ⟨⟨q, success⟩, -, heq⟩ := Option.map_eq_some_iff.mp h
      cases heq
      refine ⟨?_, ?_, ?_, ?_⟩
      · have hframe := flushNestedPaging_frame.trans
          (setEventInjection_frame (v := { v.schedule procId with specialState.switchSuccess := success }))
        exact (congrArg Prod.fst hframe).trans (congrArg Prod.fst schedule_frame)
      · rw [flushNestedPaging_shadowedBits, setEventInjection_shadowedBits]
        exact schedule_mce
      · rw [hnsv, Bool.not_true, Bool.or_false, flushNestedPaging_stateCache (by decide),
          setEventInjection_valid]
        exact congrArg (fun header => header.stateCache .cr) schedule_header
      · rw [hnsv, Bool.or_true, if_pos rfl, flushNestedPaging_guest, setEventInjection_guest]
        exact schedule_guest

/-- A switch to the host leaves CR4 in the VMCB. -/
theorem leaves_cr4 {v' : SvmCustomVcpu} {cpu : Xsave.Features} {p p' : Processor}
    {host : VirtualCpu} (h : nvcSvmSwitchToHostVcpu cpu p host v = some (p', v')) :
    v'.nsvGuest = v.nsvGuest ∧ v'.shadowedBits = v.shadowedBits ∧ v'.vmcb = v.vmcb ∧
      v'.header.stateCache = v.header.stateCache ∧
      v'.header.synchronized = v.header.synchronized := by
  unfold nvcSvmSwitchToHostVcpu at h
  obtain ⟨⟨q, header⟩, hleave, heq⟩ := Option.map_eq_some_iff.mp h
  obtain ⟨-, -, hheader⟩ := leaveGuest_eq_some hleave
  cases heq
  rw [hheader]
  split
  · unfold nvcSvmNsvSaveGuestVcpu
    split <;> exact ⟨rfl, rfl, rfl, rfl, rfl⟩
  · exact ⟨rfl, rfl, rfl, rfl, rfl⟩

/-- An edit that writes CR4 invalidates its group. -/
theorem edited_cr4 {supportedSizeMax : Nat} {call : EditCall}
    (h : call.edits.any (·.invalidates .cr) = false) :
    (v.edited supportedSizeMax [call]).header.reg .cr4 = v.header.reg .cr4 := by
  rw [edited_header_reg]
  cases hwrite : Writeback.lastWrite call.edits .cr4 with
  | none => rfl
  | some value =>
      have hany := any_invalidates_of_lastWrite (fun e => EditCall.invalidating) hwrite rfl
      exact absurd (h.symm.trans hany) Bool.false_ne_true

/-- What no part of a dump changes. -/
def dumpFrame (v : SvmCustomVcpu) : Bool × ShadowedBits × Vmcb × (StateCache → Bool) :=
  (v.nsvGuest, v.shadowedBits, v.vmcb, v.header.stateCache)

theorem dump_dumpFrame : (nvcSvmDumpGuestVcpuState v).dumpFrame = v.dumpFrame := by
  have hgroup (v : SvmCustomVcpu) (c : StateCache) (select : Register → Bool) :
      (v.dumpGroup c select).dumpFrame = v.dumpFrame := by
    unfold dumpGroup
    split <;> rfl
  unfold nvcSvmDumpGuestVcpuState
  refine (show dumpFrame _ = dumpFrame (dumpGroup _ .pa (· == .pat)) from rfl).trans ?_
  simp only [hgroup]

theorem dump_cr4 :
    (nvcSvmDumpGuestVcpuState v).header.reg .cr4 =
      if v.header.stateCache .cr then v.vmcb.field (.guest .cr4) else v.header.reg .cr4 :=
  dump_reg

theorem viewControlRegisters_vcpu (supportedSizeMax : Nat) (v : SvmCustomVcpu) (b : Buffer)
    (size tsc : Nat) :
    (viewControlRegisters supportedSizeMax v b size tsc).2.1 = v ∨
      (viewControlRegisters supportedSizeMax v b size tsc).2.1 = nvcSvmDumpGuestVcpuState v := by
  unfold viewControlRegisters nvcViewVcpuRegisters
  dsimp only [RegisterType.syncs]
  split
  · by_cases hsync : (v.header.stateCache .cr && !v.header.synchronized) = true
    · rw [if_pos hsync]
      exact .inr (by split <;> rfl)
    · rw [if_neg hsync]
      exact .inl (by split <;> rfl)
  · exact .inl rfl

/-- A view shows CR4 as the processor has it, without its shadow. -/
theorem viewControlRegisters_cr4 {supportedSizeMax size tsc : Nat} {b : Buffer} (hsize : 24 ≤ size) :
    (viewControlRegisters supportedSizeMax v b size tsc).2.2.word 2 =
      if v.header.stateCache .cr && !v.header.synchronized then v.vmcb.field (.guest .cr4)
      else v.header.reg .cr4 := by
  have hlimit : size ≥ RegisterType.controlRegister.bufferLimit := hsize
  unfold viewControlRegisters nvcViewVcpuRegisters
  rw [if_pos hlimit]
  dsimp only [RegisterType.syncs]
  rw [if_neg fun h => nomatch h.1]
  by_cases hsync : (v.header.stateCache .cr && !v.header.synchronized) = true
  · rw [if_pos hsync, if_pos hsync]
    have hvalid := (Bool.and_eq_true_iff.mp hsync).1
    exact dump_cr4.trans (if_pos hvalid)
  · rw [if_neg hsync, if_neg hsync]
    rfl

end SvmCustomVcpu

namespace Cr4Session

variable {supportedSizeMax : Nat} {s : Cr4Session}

theorem Created.coherent (h : s.Created) : s.Coherent := by
  obtain ⟨htoHost, hinvalid, hwritten⟩ := h
  have hnot : ¬s.state.toHost = false := by
    rw [htoHost]
    exact Bool.noConfusion
  have hcr : ¬s.state.vcpu.header.stateCache .cr = true := by
    rw [hinvalid]
    exact Bool.false_ne_true
  refine ⟨fun h => absurd h (not_or.mpr ⟨hnot, hcr⟩), fun h => ?_, fun value h => ?_,
    fun _ h => absurd h hcr⟩
  · rw [hwritten] at h
    exact absurd h (not_or.mpr ⟨hnot, Bool.false_ne_true⟩)
  · rw [hwritten] at h
    cases h

theorem Possible.result {e : Cr4Event} (h : s.Possible supportedSizeMax e) :
    ∃ s', e.result supportedSizeMax s.state = some s' ∧
      s.next supportedSizeMax e = ⟨s', s.writtenAfter e⟩ := by
  obtain ⟨s', hs'⟩ := Option.isSome_iff_exists.mp h.2
  exact ⟨s', hs', by rw [next, hs', Option.getD_some]⟩

section Step

variable {ctx : CvexitContext} {caching : Bool}

theorem next_moveToCr4 (h : s.Possible supportedSizeMax (.moveToCr4 ctx caching)) :
    s.state.toHost = false ∧
      s.next supportedSizeMax (.moveToCr4 ctx caching) =
        ⟨s.state.movedToCr4 ctx caching, some (s.state.guestRegister ctx.operand)⟩ := by
  obtain ⟨s', hresult, hnext⟩ := h.result
  obtain ⟨htoHost, hexit⟩ := Option.ite_none_left_eq_some.mp hresult
  cases hexit
  exact ⟨Bool.eq_false_iff.mpr htoHost, hnext⟩

theorem next_moveFromCr4 (h : s.Possible supportedSizeMax (.moveFromCr4 ctx caching)) :
    s.state.toHost = false ∧
      s.next supportedSizeMax (.moveFromCr4 ctx caching) =
        ⟨s.state.movedFromCr4 ctx caching, s.written⟩ := by
  obtain ⟨s', hresult, hnext⟩ := h.result
  obtain ⟨htoHost, hexit⟩ := Option.ite_none_left_eq_some.mp hresult
  cases hexit
  exact ⟨Bool.eq_false_iff.mpr htoHost, hnext⟩

theorem transparent_moveToCr4 (h : s.Possible supportedSizeMax (.moveToCr4 ctx caching)) :
    s.Transparent supportedSizeMax (.moveToCr4 ctx caching) ↔ s.Unshadowed (.moveToCr4 ctx caching) := by
  obtain ⟨htoHost, hnext⟩ := next_moveToCr4 h
  unfold Transparent Unshadowed
  rw [hnext]
  dsimp only
  rw [CvexitState.movedToCr4_shown htoHost, CvexitState.movedToCr4_hardware htoHost,
    CvexitState.exited_operand]
  exact ⟨fun h => h.2.1,
    fun h => ⟨fun _ => noirBts_testBit_self, h, CvexitState.movedToCr4_onlyChanges htoHost⟩⟩

theorem Coherent.moveToCr4 (hs : s.Coherent)
    (h : s.Possible supportedSizeMax (.moveToCr4 ctx caching))
    (hcondition : s.Unshadowed (.moveToCr4 ctx caching)) :
    (s.next supportedSizeMax (.moveToCr4 ctx caching)).Coherent := by
  obtain ⟨htoHost, hnext⟩ := next_moveToCr4 h
  have hresumes : s.state.Resumes (s.state.movedToCr4 ctx caching) :=
    CvexitState.resumes_movedToCr4 htoHost
  have hoperand := (CvexitState.exited_operand s.state ctx caching).mpr hcondition
  rw [hnext]
  refine ⟨fun _ => ?_, fun _ => ?_, fun value hvalue => ?_, fun hhost => ?_⟩
  · rw [CvexitState.movedToCr4_hardware htoHost]
    exact noirBts_testBit_self
  · rw [hresumes.stateCache, hresumes.nsvGuest]
    exact hs.loaded (.inl htoHost)
  · cases hvalue
    rw [CvexitState.movedToCr4_hardware htoHost, CvexitState.movedToCr4_mce htoHost, hoperand]
    exact ⟨rfl, rfl⟩
  · exact absurd (hresumes.toHost.symm.trans hhost) Bool.false_ne_true

/-- What a move from CR4 gives is what was moved there. -/
theorem Coherent.shown (hs : s.Coherent) {value : Nat} (hvalue : s.written = some value) :
    s.state.shownCr4 = value := by
  obtain ⟨hhardware, hmce⟩ := hs.written value hvalue
  unfold CvexitState.shownCr4
  rw [hhardware, hmce]
  exact btr_bts_shadowed

theorem transparent_moveFromCr4 (hs : s.Coherent)
    (h : s.Possible supportedSizeMax (.moveFromCr4 ctx caching)) :
    s.Transparent supportedSizeMax (.moveFromCr4 ctx caching) ↔
      s.Unshadowed (.moveFromCr4 ctx caching) := by
  obtain ⟨htoHost, hnext⟩ := next_moveFromCr4 h
  have hmce : (s.state.movedFromCr4 ctx caching).hardwareCr4.testBit cr4MceBit = true := by
    rw [CvexitState.movedFromCr4_hardware htoHost]
    exact hs.mce (.inl htoHost)
  unfold Transparent Unshadowed
  rw [hnext]
  dsimp only
  rw [CvexitState.movedFromCr4_operand htoHost]
  constructor
  · rintro ⟨-, hgiven, -⟩ hrsp value hvalue
    have hgiven := hgiven value hvalue
    rwa [if_pos hrsp] at hgiven
  · refine fun hcondition => ⟨fun _ => hmce, fun value hvalue => ?_,
      CvexitState.movedFromCr4_onlyChanges htoHost⟩
    split
    · next hrsp => exact hcondition hrsp value hvalue
    · exact hs.shown hvalue

theorem Coherent.moveFromCr4 (hs : s.Coherent)
    (h : s.Possible supportedSizeMax (.moveFromCr4 ctx caching)) :
    (s.next supportedSizeMax (.moveFromCr4 ctx caching)).Coherent := by
  obtain ⟨htoHost, hnext⟩ := next_moveFromCr4 h
  have hresumes : s.state.Resumes (s.state.movedFromCr4 ctx caching) :=
    CvexitState.resumes_movedFromCr4 htoHost
  rw [hnext]
  refine ⟨fun _ => ?_, fun _ => ?_, fun value hvalue => ?_, fun hhost => ?_⟩
  · rw [CvexitState.movedFromCr4_hardware htoHost]
    exact hs.mce (.inl htoHost)
  · rw [hresumes.stateCache, hresumes.nsvGuest]
    exact hs.loaded (.inl htoHost)
  · rw [CvexitState.movedFromCr4_hardware htoHost, CvexitState.movedFromCr4_mce htoHost]
    exact hs.written value hvalue
  · exact absurd (hresumes.toHost.symm.trans hhost) Bool.false_ne_true

theorem Coherent.execute {executed : CvexitState} (hs : s.Coherent)
    (h : s.Possible supportedSizeMax (.execute executed)) :
    s.Transparent supportedSizeMax (.execute executed) ∧
      (s.next supportedSizeMax (.execute executed)).Coherent := by
  have hkept := h.1 executed rfl
  obtain ⟨s', hresult, hnext⟩ := h.result
  obtain ⟨htoHost, hexecuted⟩ := Option.ite_none_left_eq_some.mp hresult
  cases hexecuted
  have hguest : s.state.toHost = false := Bool.eq_false_iff.mpr htoHost
  have hmce : executed.hardwareCr4.testBit cr4MceBit = true := by
    rw [hkept.hardware]
    exact hs.mce (.inl hguest)
  unfold Transparent
  rw [hnext]
  refine ⟨⟨fun _ => hmce, trivial⟩, fun _ => hmce, fun _ => ?_, fun value hvalue => ?_,
    fun hhost => ?_⟩
  · rw [hkept.stateCache, hkept.nsvGuest]
    exact hs.loaded (.inl hguest)
  · rw [hkept.hardware, hkept.mce]
    exact hs.written value hvalue
  · exact absurd ((hkept.toHost.trans hguest).symm.trans hhost) Bool.false_ne_true

theorem Coherent.leave (hs : s.Coherent) (h : s.Possible supportedSizeMax (.leave ctx caching)) :
    s.Transparent supportedSizeMax (.leave ctx caching) ∧
      (s.next supportedSizeMax (.leave ctx caching)).Coherent := by
  obtain ⟨s', hresult, hnext⟩ := h.result
  obtain ⟨htoHost, hleave⟩ := Option.ite_none_left_eq_some.mp hresult
  obtain ⟨⟨p, vcpu⟩, hswitch, hleft⟩ := Option.map_eq_some_iff.mp hleave
  obtain ⟨hnsv, hshadow, hvmcb, hvalid, hsynchronized⟩ := SvmCustomVcpu.leaves_cr4 hswitch
  have hguest : s.state.toHost = false := Bool.eq_false_iff.mpr htoHost
  have hcr4 : s'.hardwareCr4 = s.state.hardwareCr4 := by
    rw [← hleft]
    exact congrArg (·.field (.guest .cr4)) hvmcb
  unfold Transparent
  rw [hnext]
  refine ⟨⟨fun _ => ?_, trivial⟩, fun _ => ?_, fun _ => ?_, fun value hvalue => ?_, fun _ _ hsync => ?_⟩
  · rw [hcr4]
    exact hs.mce (.inl hguest)
  · rw [hcr4]
    exact hs.mce (.inl hguest)
  · rw [← hleft]
    dsimp only
    rw [hvalid, hnsv]
    exact hs.loaded (.inl hguest)
  · rw [hcr4, ← hleft]
    dsimp only
    rw [hshadow]
    exact hs.written value hvalue
  · rw [← hleft] at hsync
    exact absurd (hsynchronized.symm.trans hsync) Bool.false_ne_true

section View

variable {b : Buffer} {size tsc : Nat}

theorem next_view (h : s.Possible supportedSizeMax (.view b size tsc)) :
    s.state.toHost = true ∧
      s.next supportedSizeMax (.view b size tsc) =
        ⟨{ s.state with
            vcpu := (viewControlRegisters supportedSizeMax s.state.vcpu b size tsc).2.1 },
          s.written⟩ := by
  obtain ⟨s', hresult, hnext⟩ := h.result
  obtain ⟨htoHost, hview⟩ := Option.ite_none_right_eq_some.mp hresult
  cases hview
  exact ⟨htoHost, hnext⟩

theorem transparent_view (hs : s.Coherent) (h : s.Possible supportedSizeMax (.view b size tsc)) :
    s.Transparent supportedSizeMax (.view b size tsc) ↔ s.Unshadowed (.view b size tsc) := by
  obtain ⟨htoHost, hnext⟩ := next_view h
  have hshows : ∀ value, s.written = some value → 24 ≤ size →
      ((viewControlRegisters supportedSizeMax s.state.vcpu b size tsc).2.2.word 2 = value ↔
        if s.state.vcpu.header.stateCache .cr then value.testBit cr4MceBit = true
        else s.state.vcpu.header.reg .cr4 = value) := by
    intro value hvalue hsize
    rw [SvmCustomVcpu.viewControlRegisters_cr4 hsize]
    cases hvalid : s.state.vcpu.header.stateCache .cr with
    | false =>
        rw [if_neg Bool.false_ne_true, Bool.false_and, if_neg Bool.false_ne_true]
    | true =>
        have hhardware : noirBts value cr4MceBit = value ↔ value.testBit cr4MceBit = true :=
          ⟨fun hsame => by rw [← hsame]; exact noirBts_testBit_self, or_two_pow_of_testBit⟩
        rw [if_pos rfl, ← hhardware, ← (hs.written value hvalue).1]
        cases hsync : s.state.vcpu.header.synchronized with
        | false => exact Iff.rfl
        | true =>
            have hdumped := hs.dumped htoHost hvalid hsync
            rw [Bool.true_and, Bool.not_true, if_neg Bool.false_ne_true, hdumped]
  unfold Transparent Unshadowed
  rw [hnext]
  dsimp only
  constructor
  · rintro ⟨-, hview⟩ hsize value hvalue
    exact (hshows value hvalue hsize).mp (hview hsize value hvalue)
  · refine fun hcondition => ⟨fun hguest => ?_, fun hsize value hvalue => ?_⟩
    · exact absurd (hguest.symm.trans htoHost) Bool.false_ne_true
    · exact (hshows value hvalue hsize).mpr (hcondition hsize value hvalue)

/-- A dump leaves the VMCB and the shadow alone. -/
theorem Coherent.of_dumpFrame {vcpu : SvmCustomVcpu} (hs : s.Coherent)
    (hframe : vcpu.dumpFrame = s.state.vcpu.dumpFrame)
    (hdumped : s.state.toHost = true → vcpu.header.stateCache .cr = true →
      vcpu.header.synchronized = true → vcpu.header.reg .cr4 = s.state.hardwareCr4) :
    Coherent ⟨{ s.state with vcpu }, s.written⟩ := by
  obtain ⟨hnsv, hrest⟩ := Prod.mk.inj hframe
  obtain ⟨hshadow, hrest⟩ := Prod.mk.inj hrest
  obtain ⟨hvmcb, hvalid⟩ := Prod.mk.inj hrest
  have hcr4 : CvexitState.hardwareCr4 { s.state with vcpu } = s.state.hardwareCr4 :=
    congrArg (·.field (.guest .cr4)) hvmcb
  refine ⟨?_, ?_, fun value hvalue => ?_, ?_⟩
  · rw [hcr4]
    dsimp only
    rw [hvalid]
    exact hs.mce
  · dsimp only
    rw [hvalid, hnsv]
    exact hs.loaded
  · rw [hcr4]
    dsimp only
    rw [hshadow]
    exact hs.written value hvalue
  · rw [hcr4]
    exact hdumped

theorem Coherent.view (hs : s.Coherent) (h : s.Possible supportedSizeMax (.view b size tsc)) :
    (s.next supportedSizeMax (.view b size tsc)).Coherent := by
  obtain ⟨htoHost, hnext⟩ := next_view h
  rw [hnext]
  obtain hsame | hdump :=
    SvmCustomVcpu.viewControlRegisters_vcpu supportedSizeMax s.state.vcpu b size tsc
  · rw [hsame]
    exact hs
  · rw [hdump]
    refine hs.of_dumpFrame SvmCustomVcpu.dump_dumpFrame fun _ hvalid _ => ?_
    have hframe := SvmCustomVcpu.dump_dumpFrame (v := s.state.vcpu)
    have hvalid := (congrFun (congrArg (·.2.2.2) hframe) .cr).symm.trans hvalid
    exact SvmCustomVcpu.dump_cr4.trans (if_pos hvalid)

end View

theorem Coherent.edit {call : EditCall} (hs : s.Coherent)
    (h : s.Possible supportedSizeMax (.edit call)) :
    s.Transparent supportedSizeMax (.edit call) ∧
      (s.next supportedSizeMax (.edit call)).Coherent := by
  obtain ⟨s', hresult, hnext⟩ := h.result
  obtain ⟨htoHost, hedit⟩ := Option.ite_none_right_eq_some.mp hresult
  cases hedit
  have hvalid : (s.state.vcpu.edited supportedSizeMax [call]).header.stateCache .cr = _ :=
    SvmCustomVcpu.edited_stateCache .cr
  have hnot : ¬s.state.toHost = false := by
    rw [htoHost]
    exact Bool.noConfusion
  unfold Transparent
  rw [hnext]
  refine ⟨⟨fun hguest => absurd hguest hnot, trivial⟩, ?_⟩
  unfold writtenAfter
  dsimp only
  cases hany : call.edits.any (·.invalidates .cr) with
  | true =>
      rw [hany, Bool.not_true, Bool.and_false] at hvalid
      have hcr : ¬(s.state.vcpu.edited supportedSizeMax [call]).header.stateCache .cr = true := by
        rw [hvalid]
        exact Bool.false_ne_true
      rw [if_pos rfl]
      exact ⟨fun h => absurd h (not_or.mpr ⟨hnot, hcr⟩),
        fun h => absurd h (not_or.mpr ⟨hnot, Bool.false_ne_true⟩), fun _ h => (nomatch h),
        fun _ h => absurd h hcr⟩
  | false =>
      rw [hany, Bool.not_false, Bool.and_true] at hvalid
      have hreg : (s.state.vcpu.edited supportedSizeMax [call]).header.reg .cr4 = _ :=
        SvmCustomVcpu.edited_cr4 hany
      have hsync : (s.state.vcpu.edited supportedSizeMax [call]).header.synchronized = _ :=
        SvmCustomVcpu.edited_synchronized
      rw [if_neg Bool.false_ne_true]
      refine ⟨fun h => hs.mce (h.imp_right fun h => hvalid.symm.trans h), fun h => ?_, hs.written,
        fun _ hcr hsynchronized => ?_⟩
      · exact (hs.loaded h).imp_left fun h => hvalid.trans h
      · exact hreg.trans (hs.dumped htoHost (hvalid.symm.trans hcr) (hsync.symm.trans hsynchronized))

section Enter

variable {cpu : Xsave.Features} {procId : Nat} {p : Processor} {host : VirtualCpu}

theorem next_enter (h : s.Possible supportedSizeMax (.enter cpu procId p host)) :
    s.state.toHost = true ∧
      (s.next supportedSizeMax (.enter cpu procId p host)).written = s.written ∧
      (s.next supportedSizeMax (.enter cpu procId p host)).state.toHost = false ∧
      s.state.vcpu.EntersWithCr4 (s.next supportedSizeMax (.enter cpu procId p host)).state.vcpu := by
  obtain ⟨s', hresult, hnext⟩ := h.result
  obtain ⟨htoHost, henter⟩ := Option.ite_none_right_eq_some.mp hresult
  obtain ⟨⟨q, host', vcpu⟩, hswitch, hentered⟩ := Option.map_eq_some_iff.mp henter
  rw [hnext, ← hentered]
  exact ⟨htoHost, rfl, rfl, SvmCustomVcpu.entersWithCr4 hswitch⟩

/-- The control registers that a host edited are loaded as they are. -/
theorem enter_mce (hs : s.Coherent) (h : s.Possible supportedSizeMax (.enter cpu procId p host)) :
    (s.next supportedSizeMax (.enter cpu procId p host)).state.hardwareCr4.testBit cr4MceBit = true ↔
      s.Unshadowed (.enter cpu procId p host) := by
  obtain ⟨-, -, -, hentered⟩ := next_enter h
  unfold Unshadowed
  refine (iff_of_eq (congrArg (·.testBit cr4MceBit = true) hentered.hardware)).trans ?_
  cases hvalid : s.state.vcpu.header.stateCache .cr with
  | true => exact iff_of_true (hs.mce (.inr hvalid)) fun h => (nomatch h)
  | false =>
      rw [Bool.false_or]
      exact ⟨fun h _ => h, fun h => h rfl⟩

theorem transparent_enter (hs : s.Coherent)
    (h : s.Possible supportedSizeMax (.enter cpu procId p host)) :
    s.Transparent supportedSizeMax (.enter cpu procId p host) ↔
      s.Unshadowed (.enter cpu procId p host) := by
  obtain ⟨-, -, hguest, -⟩ := next_enter h
  unfold Transparent
  exact ⟨fun ht => (enter_mce hs h).mp (ht.1 hguest), fun hc => ⟨fun _ => (enter_mce hs h).mpr hc, trivial⟩⟩

theorem Coherent.enter (hs : s.Coherent) (h : s.Possible supportedSizeMax (.enter cpu procId p host))
    (hcondition : s.Unshadowed (.enter cpu procId p host)) :
    (s.next supportedSizeMax (.enter cpu procId p host)).Coherent := by
  have hmce := (enter_mce hs h).mpr hcondition
  obtain ⟨htoHost, hwritten, hguest, hentered⟩ := next_enter h
  refine ⟨fun _ => hmce, fun _ => ?_, fun value hvalue => ?_, fun hhost => ?_⟩
  · rw [hentered.stateCache, hentered.nsvGuest]
    cases s.state.vcpu.nsvGuest with
    | true => exact .inr rfl
    | false => exact .inl (Bool.or_true _)
  · have hvalue := hwritten.symm.trans hvalue
    have hloaded := hs.loaded (.inr (Option.isSome_iff_exists.mpr ⟨value, hvalue⟩))
    rw [hentered.mce]
    refine ⟨hentered.hardware.trans ?_, (hs.written value hvalue).2⟩
    rw [if_pos (Bool.or_eq_true_iff.mpr hloaded)]
    exact (hs.written value hvalue).1
  · exact absurd (hguest.symm.trans hhost) Bool.false_ne_true

end Enter

end Step

theorem transparent_iff_unshadowed {e : Cr4Event} (hs : s.Coherent)
    (h : s.Possible supportedSizeMax e) : s.Transparent supportedSizeMax e ↔ s.Unshadowed e := by
  cases e with
  | execute executed => exact iff_of_true (hs.execute h).1 trivial
  | moveToCr4 ctx caching => exact transparent_moveToCr4 h
  | moveFromCr4 ctx caching => exact transparent_moveFromCr4 hs h
  | leave ctx caching => exact iff_of_true (hs.leave h).1 trivial
  | view b size tsc => exact transparent_view hs h
  | edit call => exact iff_of_true (hs.edit h).1 trivial
  | enter cpu procId p host => exact transparent_enter hs h

theorem Coherent.step {e : Cr4Event} (hs : s.Coherent) (h : s.Possible supportedSizeMax e)
    (hcondition : s.Unshadowed e) : (s.next supportedSizeMax e).Coherent := by
  cases e with
  | execute executed => exact (hs.execute h).2
  | moveToCr4 ctx caching => exact hs.moveToCr4 h hcondition
  | moveFromCr4 ctx caching => exact hs.moveFromCr4 h
  | leave ctx caching => exact (hs.leave h).2
  | view b size tsc => exact hs.view h
  | edit call => exact (hs.edit h).2
  | enter cpu procId p host => exact hs.enter h hcondition

def checkedVcpu : SvmCustomVcpu :=
  { newVcpu with header.reg := fun r => if r = .cr4 then 0x40 else if r = .gpr 1 then 0x20 else 0 }

def checkedSession : Cr4Session := ⟨⟨zeroProcessor, checkedVcpu, fun _ => 0, true⟩, none⟩

theorem checkedSession_created : checkedSession.Created := ⟨rfl, fun _ => rfl, rfl⟩

def checkedEntry : Cr4Event := .enter anyFeatures 0 zeroProcessor zeroVirtualCpu

def checkedGuest : CvexitState where
  p := svmLoaded checkedVcpu.header zeroProcessor
  vcpu := checkedVcpu.entered 0
  nsvs _ := 0
  toHost := false

theorem checkedEntry_result :
    checkedEntry.result supportedSizeMax checkedSession.state = some checkedGuest := by
  have henter : nvcSvmSwitchToGuestVcpu anyFeatures 0 zeroProcessor zeroVirtualCpu checkedVcpu = _ :=
    nvcSvmSwitchToGuestVcpu_eq rfl
  rw [enterGuest_of_loadable ⟨⟨fun c h => absurd h Bool.false_ne_true, fun _ => rfl⟩, rfl⟩] at henter
  have hentered : checkedEntry.result supportedSizeMax checkedSession.state =
      (nvcSvmSwitchToGuestVcpu anyFeatures 0 zeroProcessor zeroVirtualCpu checkedVcpu).map
        fun (p, _, vcpu) => { checkedSession.state with p, vcpu, toHost := false } := rfl
  rw [hentered, henter]
  rfl

theorem checkedEntry_next :
    checkedSession.next supportedSizeMax checkedEntry = ⟨checkedGuest, none⟩ := by
  unfold next
  rw [checkedEntry_result]
  rfl

theorem checkedEntry_possible : checkedSession.Possible supportedSizeMax checkedEntry :=
  ⟨fun _ h => (nomatch h), by rw [checkedEntry_result]; rfl⟩

def operandContext (i : Nat) : CvexitContext := { cr4Context with exitInfo1 := i }

/-- RCX to CR4 and back to RBX. -/
def movesOfRcx : List Cr4Event :=
  [checkedEntry, .moveToCr4 (operandContext 1) true, .moveFromCr4 (operandContext 3) true]

theorem movesOfRcx_possible :
    Along (Possible 4096) (next 4096) checkedSession movesOfRcx := by
  refine ⟨checkedEntry_possible, ?_⟩
  rw [checkedEntry_next]
  exact ⟨⟨fun _ h => (nomatch h), rfl⟩, ⟨fun _ h => (nomatch h), rfl⟩, trivial⟩

/-- The guest loads its stack pointer. -/
def stackedGuest : CvexitState := checkedGuest.withVmcb (·.write (.guest .rsp) 0x20)

end Cr4Session

end NoirVisor
