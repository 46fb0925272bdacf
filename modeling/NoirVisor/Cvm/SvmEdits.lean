import NoirVisor.Cvm.SvmCoherence

/-!
# Edits and the next switch on SVM

What the guest finds at the switch after a sequence of edits, compared with the last edit of each
register.
-/

namespace NoirVisor

open Writeback

def svmLoaded (guest : VirtualCpu) (p : Processor) : Processor :=
  p.loaded Register.isAddressBreakpoint (p.reg .xcr0) guest

namespace SvmCustomVcpu

variable {cvcpu : SvmCustomVcpu} {procId : Nat} {r : Register}

/-- The vCPU after a switch to it that raised no exception. -/
def entered (cvcpu : SvmCustomVcpu) (procId : Nat) : SvmCustomVcpu :=
  { (cvcpu.schedule procId).loadVmcb with specialState.switchSuccess := true }
    |>.setEventInjection |>.flushNestedPaging

theorem setEventInjection_reg : cvcpu.setEventInjection.header.reg = cvcpu.header.reg := by
  unfold setEventInjection
  dsimp only
  split
  · split <;> rfl
  · split <;> rfl

theorem setEventInjection_valid :
    cvcpu.setEventInjection.header.stateCache = cvcpu.header.stateCache := by
  unfold setEventInjection
  dsimp only
  split
  · split <;> rfl
  · split <;> rfl

theorem setEventInjection_guest :
    cvcpu.setEventInjection.vmcb.field (.guest r) = cvcpu.vmcb.field (.guest r) := by
  unfold setEventInjection
  dsimp only
  split
  · split <;> simp [Vmcb.write, Vmcb.dirty]
  · split
    · simp [Vmcb.write, Vmcb.dirty]
    · rfl

theorem flushNestedPaging_reg : cvcpu.flushNestedPaging.header.reg = cvcpu.header.reg := by
  unfold flushNestedPaging
  split <;> rfl

theorem flushNestedPaging_guest :
    cvcpu.flushNestedPaging.vmcb.field (.guest r) = cvcpu.vmcb.field (.guest r) := by
  unfold flushNestedPaging
  split
  · rfl
  · exact flushTlb_guest r

theorem flushNestedPaging_valid {c : StateCache} (h : cvcpu.header.stateCache c = true) :
    cvcpu.flushNestedPaging.header.stateCache c = true := by
  unfold flushNestedPaging
  split
  · exact h
  · by_cases hc : c = .tl <;> simp [hc, h]

theorem writeback_schedule : (cvcpu.schedule procId).writeback = cvcpu.writeback := by
  unfold schedule
  split <;> rfl

theorem protocol_schedule : (cvcpu.schedule procId).protocol = cvcpu.protocol := by
  unfold schedule
  split <;> rfl

theorem writeback_loadVmcb_schedule :
    (cvcpu.schedule procId).loadVmcb.writeback = cvcpu.protocol.load cvcpu.writeback := by
  rw [writeback_loadVmcb, writeback_schedule, protocol_schedule]

theorem entered_reg : (cvcpu.entered procId).header.reg = cvcpu.header.reg := by
  unfold entered
  rw [flushNestedPaging_reg, setEventInjection_reg]
  exact congrArg State.cache writeback_loadVmcb_schedule

theorem entered_guest :
    (cvcpu.entered procId).vmcb.field (.guest r) =
      (cvcpu.protocol.load cvcpu.writeback).block r := by
  unfold entered
  rw [flushNestedPaging_guest, setEventInjection_guest]
  exact congrFun (congrArg State.block writeback_loadVmcb_schedule) r

theorem entered_valid {c : StateCache} (h : svmLoadsGroup c = true) :
    (cvcpu.entered procId).header.stateCache c = true := by
  unfold entered
  refine flushNestedPaging_valid ?_
  rw [setEventInjection_valid]
  refine (congrFun (congrArg State.valid writeback_loadVmcb_schedule) c).trans ?_
  simp [Protocol.load, protocol, svmProtocol, h]

end SvmCustomVcpu

theorem nvcSvmSwitchToGuestVcpu_eq {cpu : Xsave.Features} {procId : Nat} {p : Processor}
    {host : VirtualCpu} {cvcpu : SvmCustomVcpu} (hnsv : cvcpu.nsvGuest = false) :
    nvcSvmSwitchToGuestVcpu cpu procId p host cvcpu =
      (p.enterGuest cpu Register.isAddressBreakpoint cvcpu.header).map fun p' =>
        (p', (host.saveRegisters svmSwitched p).saveExtended p, cvcpu.entered procId) := by
  unfold nvcSvmSwitchToGuestVcpu
  simp only [hnsv, Bool.false_eq_true, if_false]
  rfl

/-! What the guest has in a register after the switch, and what it should have. -/

/-- Where the guest has a register while it runs, as it is there. -/
def svmHeld (p : Processor) (cvcpu : SvmCustomVcpu) (r : Register) : Nat :=
  match svmHome r with
  | .cache => if svmSwitched r then p.reg r else cvcpu.header.reg r
  | _ => cvcpu.vmcb.field (.guest r)

/-- A value as it is there. -/
def svmStored (r : Register) (value : Nat) : Nat :=
  match svmHome r with
  | .cache => value
  | _ => svmEncode r value

/-- What a register has before any edit, as it is there. -/
def svmBefore (cvcpu : SvmCustomVcpu) (r : Register) : Nat :=
  match svmHome r with
  | .cache => cvcpu.header.reg r
  | .block => cvcpu.vmcb.field (.guest r)
  | .group c =>
      if cvcpu.header.stateCache c then cvcpu.vmcb.field (.guest r)
      else svmEncode r (cvcpu.header.reg r)

/-- The value of the last edit of a register, or what it had before. -/
def svmExpected (cvcpu : SvmCustomVcpu) (es : List RegisterEdit) (r : Register) : Nat :=
  match lastWrite es r with
  | some value => svmStored r value
  | none => svmBefore cvcpu r

def SvmCustomVcpu.edited (supportedSizeMax : Nat) (calls : List EditCall) (cvcpu : SvmCustomVcpu) :
    SvmCustomVcpu :=
  { cvcpu with header := EditCalls.run supportedSizeMax calls cvcpu.header }

/-- The switch after a sequence of edits leaves every register as it was last edited, or as it was
before if it was never edited. -/
def SvmEditsCoherent (cpu : Xsave.Features) (supportedSizeMax procId : Nat) (p : Processor)
    (host : VirtualCpu) (cvcpu : SvmCustomVcpu) (calls : List EditCall) : Prop :=
  ∃ p' host' cvcpu', nvcSvmSwitchToGuestVcpu cpu procId p host
      (cvcpu.edited supportedSizeMax calls) = some (p', host', cvcpu') ∧
    (∀ r, svmHeld p' cvcpu' r = svmExpected cvcpu (EditCalls.edits calls) r) ∧
    p'.xstate = EditCalls.write (EditCalls.extEdits supportedSizeMax calls)
      ⟨cvcpu.header.xsaveArea.value, cvcpu.header.xsaveArea.mxcsr⟩

/-- Whether the switch looks for a register in the structure after these edits: its group is not
valid, or one of them invalidates it. -/
def svmPending (cvcpu : SvmCustomVcpu) (es : List RegisterEdit) (r : Register) : Bool :=
  match svmHome r with
  | .cache => true
  | .block => false
  | .group c => !(cvcpu.header.stateCache c && !es.any (·.invalidates c))

/-- When no edit is lost, and no register that is not edited goes back to an older value. -/
structure SvmEditsKept (cpu : Xsave.Features) (supportedSizeMax : Nat) (p : Processor)
    (cvcpu : SvmCustomVcpu) (calls : List EditCall) : Prop where
  edited : ∀ r value, lastWrite (EditCalls.edits calls) r = some value →
    svmPending cvcpu (EditCalls.edits calls) r = true ∨
      cvcpu.vmcb.field (.guest r) = svmEncode r value
  kept : ∀ r c, svmHome r = .group c → lastWrite (EditCalls.edits calls) r = none →
    cvcpu.header.stateCache c = true → (EditCalls.edits calls).any (·.invalidates c) = true →
      svmEncode r (cvcpu.header.reg r) = cvcpu.vmcb.field (.guest r)
  area : Xsave.Restorable cpu (p.reg .xcr0)
    (EditCalls.area (EditCalls.extEdits supportedSizeMax calls) cvcpu.header.xsaveArea)
  xcr0 : cpu.acceptsXcr0
    ((lastWrite (EditCalls.edits calls) .xcr0).getD (cvcpu.header.reg .xcr0)) = true
  components : ∀ c,
    if Xsave.enabled (p.reg .xcr0) c then
      ¬EditCalls.Lost (EditCalls.extEdits supportedSizeMax calls) cvcpu.header.xsaveArea c
    else p.xstate.component c =
      (EditCalls.write (EditCalls.extEdits supportedSizeMax calls)
        ⟨cvcpu.header.xsaveArea.value, cvcpu.header.xsaveArea.mxcsr⟩).component c
  mxcsr : Xsave.mxcsrEnabled (p.reg .xcr0) = true ∨ p.xstate.mxcsr =
    (EditCalls.write (EditCalls.extEdits supportedSizeMax calls)
      ⟨cvcpu.header.xsaveArea.value, cvcpu.header.xsaveArea.mxcsr⟩).mxcsr

section Edits

variable {supportedSizeMax procId : Nat} {p : Processor} {cvcpu : SvmCustomVcpu}
  {calls : List EditCall} {r : Register}

theorem edited_guest :
    ((cvcpu.edited supportedSizeMax calls).entered procId).vmcb.field (.guest r) =
      if svmLoads r && svmPending cvcpu (EditCalls.edits calls) r then
        svmEncode r ((lastWrite (EditCalls.edits calls) r).getD (cvcpu.header.reg r))
      else cvcpu.vmcb.field (.guest r) := by
  have hpending : svmPending cvcpu (EditCalls.edits calls) r =
      !(svmProtocol cvcpu.shadowedBits.svme).inBlock
        (EditCalls.run supportedSizeMax calls cvcpu.header).stateCache r := by
    unfold svmPending Protocol.inBlock svmProtocol
    dsimp only
    cases svmHome r with
    | group c => simp [EditCalls.run_stateCache]
    | _ => rfl
  rw [SvmCustomVcpu.entered_guest, ← EditCalls.run_reg supportedSizeMax, hpending]
  rfl

theorem svmHeld_eq_iff :
    svmHeld (svmLoaded (cvcpu.edited supportedSizeMax calls).header p)
        ((cvcpu.edited supportedSizeMax calls).entered procId) r =
      svmExpected cvcpu (EditCalls.edits calls) r ↔
    (∀ value, lastWrite (EditCalls.edits calls) r = some value →
      svmPending cvcpu (EditCalls.edits calls) r = true ∨
        cvcpu.vmcb.field (.guest r) = svmEncode r value) ∧
    (∀ c, svmHome r = .group c → lastWrite (EditCalls.edits calls) r = none →
      cvcpu.header.stateCache c = true → (EditCalls.edits calls).any (·.invalidates c) = true →
        svmEncode r (cvcpu.header.reg r) = cvcpu.vmcb.field (.guest r)) := by
  have hguest : ((cvcpu.edited supportedSizeMax calls).entered procId).vmcb.field (.guest r) = _ :=
    edited_guest
  have hreg : (EditCalls.run supportedSizeMax calls cvcpu.header).reg r = _ :=
    EditCalls.run_reg supportedSizeMax r
  cases hhome : svmHome r with
  | cache =>
      have hheld : svmHeld (svmLoaded (cvcpu.edited supportedSizeMax calls).header p)
          ((cvcpu.edited supportedSizeMax calls).entered procId) r =
          (cvcpu.edited supportedSizeMax calls).header.reg r := by
        simp only [svmHeld, hhome, SvmCustomVcpu.entered_reg]
        split
        · next hswitched => exact copyRegisters_of_selected hswitched
        · rfl
      rw [hheld]
      simp only [SvmCustomVcpu.edited, hreg, svmExpected, svmStored, svmBefore, svmPending, hhome]
      cases lastWrite (EditCalls.edits calls) r <;> simp
  | block =>
      simp only [svmHeld, hhome, hguest, svmLoads, Bool.false_and, Bool.false_eq_true, if_false,
        svmExpected, svmStored, svmBefore, svmPending]
      cases lastWrite (EditCalls.edits calls) r <;> simp
  | group c =>
      simp only [svmHeld, hhome, hguest, svmLoads, Bool.true_and, svmExpected, svmStored, svmBefore,
        svmPending, Home.group.injEq, forall_eq']
      generalize (EditCalls.edits calls).any (·.invalidates c) = invalidated
      cases cvcpu.header.stateCache c <;> cases invalidated <;>
        cases lastWrite (EditCalls.edits calls) r <;> simp

theorem svmXstate_eq_iff {area : Xsave.Area} {xs : List EditCall.ExtEdit} {xcr0 : Nat} :
    (EditCalls.area xs area).loaded xcr0 p.xstate = EditCalls.write xs ⟨area.value, area.mxcsr⟩ ↔
      (∀ c, if Xsave.enabled xcr0 c then ¬EditCalls.Lost xs area c
        else p.xstate.component c =
          (EditCalls.write xs ⟨area.value, area.mxcsr⟩).component c) ∧
      (Xsave.mxcsrEnabled xcr0 = true ∨
        p.xstate.mxcsr = (EditCalls.write xs ⟨area.value, area.mxcsr⟩).mxcsr) := by
  rw [Xsave.State.ext_iff, funext_iff]
  refine and_congr (forall_congr' fun c => ?_) ?_
  · by_cases hc : Xsave.enabled xcr0 c = true
    · simp only [Xsave.Area.loaded, hc, if_true]
      exact EditCalls.area_value
    · simp only [Xsave.Area.loaded, hc]
      rfl
  · by_cases hc : Xsave.mxcsrEnabled xcr0 = true
    · simp [Xsave.Area.loaded, hc, EditCalls.area_mxcsr]
    · simp [Xsave.Area.loaded, hc]

variable {cpu : Xsave.Features} {host : VirtualCpu}

theorem edited_xsaveArea :
    (EditCalls.run supportedSizeMax calls cvcpu.header).xsaveArea =
      EditCalls.area (EditCalls.extEdits supportedSizeMax calls) cvcpu.header.xsaveArea := by
  rw [EditCalls.run_eq]

theorem SvmEditsCoherent.kept
    (h : SvmEditsCoherent cpu supportedSizeMax procId p host cvcpu calls)
    (hnsv : cvcpu.nsvGuest = false) : SvmEditsKept cpu supportedSizeMax p cvcpu calls := by
  obtain ⟨p', host', cvcpu', hrun, hheld, hxstate⟩ := h
  have hnsv' : (cvcpu.edited supportedSizeMax calls).nsvGuest = false := hnsv
  rw [nvcSvmSwitchToGuestVcpu_eq hnsv', Option.map_eq_some_iff] at hrun
  obtain ⟨q, hload, heq⟩ := hrun
  obtain ⟨hloadable, rfl⟩ := enterGuest_eq_some hload
  obtain ⟨rfl, -, rfl⟩ := by simpa only [Prod.mk.injEq] using heq
  have hregs (r : Register) := svmHeld_eq_iff.mp (hheld r)
  have hext := svmXstate_eq_iff.mp
    ((congrArg (Xsave.Area.loaded · _ _) edited_xsaveArea).symm.trans hxstate)
  have harea := hloadable.area
  have hxcr0 := hloadable.xcr0
  rw [show (cvcpu.edited supportedSizeMax calls).header.xsaveArea = _ from edited_xsaveArea] at harea
  rw [show (cvcpu.edited supportedSizeMax calls).header.reg .xcr0 = _ from
    EditCalls.run_reg supportedSizeMax .xcr0] at hxcr0
  exact ⟨fun r => (hregs r).1, fun r => (hregs r).2, harea, hxcr0, hext.1, hext.2⟩

theorem SvmEditsKept.coherent (h : SvmEditsKept cpu supportedSizeMax p cvcpu calls)
    (hnsv : cvcpu.nsvGuest = false) :
    SvmEditsCoherent cpu supportedSizeMax procId p host cvcpu calls := by
  have hloadable : GuestLoadable cpu (cvcpu.edited supportedSizeMax calls).header p :=
    ⟨(congrArg (Xsave.Restorable cpu (p.reg .xcr0)) edited_xsaveArea).mpr h.area,
      (congrArg (cpu.acceptsXcr0 · = true) (EditCalls.run_reg supportedSizeMax .xcr0)).mpr h.xcr0⟩
  have hnsv' : (cvcpu.edited supportedSizeMax calls).nsvGuest = false := hnsv
  refine ⟨_, _, _, by
    rw [nvcSvmSwitchToGuestVcpu_eq hnsv', enterGuest_of_loadable hloadable, Option.map_some],
    ?_, ?_⟩
  · intro r
    exact svmHeld_eq_iff.mpr ⟨h.edited r, h.kept r⟩
  · exact (congrArg (Xsave.Area.loaded · _ _) edited_xsaveArea).trans
      (svmXstate_eq_iff.mpr ⟨h.components, h.mxcsr⟩)

end Edits

/-- For a vCPU without NSV in any state and any edits, the next switch has every register as it was
last edited, and what was not edited as it was before, exactly when no edit is lost. -/
theorem nvcSvmSwitchToGuestVcpu_coherent_iff (cpu : Xsave.Features) (supportedSizeMax procId : Nat)
    (p : Processor) (host : VirtualCpu) (cvcpu : SvmCustomVcpu) (calls : List EditCall)
    (hnsv : cvcpu.nsvGuest = false) :
    SvmEditsCoherent cpu supportedSizeMax procId p host cvcpu calls ↔
      SvmEditsKept cpu supportedSizeMax p cvcpu calls :=
  ⟨fun h => h.kept hnsv, fun h => h.coherent hnsv⟩

/-! A vCPU whose guest has changed CR3 since the layered hypervisor saw it. -/

def pagedVcpu : SvmCustomVcpu where
  header := zeroVirtualCpu
  vmcb := ⟨fun f => if f = .guest .cr3 then 0x1000 else 0, fun _ => true⟩
  procId := 0
  shadowedBits := ⟨false, false, false⟩
  specialState := ⟨false, false, false, false⟩
  nsvGuest := false
  vmsa := ⟨fun _ => 0, true⟩

/-- CR0, CR3 and CR4 edited together. -/
def pagingCall : EditCall :=
  .type .controlRegister ⟨fun i => [0x80000011, 0x2000, 0x20].getD i 0, zeroArea⟩ 24 0

theorem pagingCall_coherent :
    SvmEditsCoherent anyFeatures 0 0 zeroProcessor zeroVirtualCpu pagedVcpu [pagingCall] := by
  refine (nvcSvmSwitchToGuestVcpu_coherent_iff anyFeatures 0 0 zeroProcessor zeroVirtualCpu pagedVcpu
    [pagingCall] rfl).mpr ⟨fun r value hvalue => ?_, fun r c hhome hvalue _ hinvalid => ?_,
      ⟨fun c h => (nomatch h), fun _ => rfl⟩, rfl, fun c => ?_, .inr rfl⟩
  · cases r with
    | cr0 | cr3 | cr4 => exact .inl rfl
    | _ => exact (nomatch hvalue)
  · have hcr : c = .cr := by
      cases c with
      | cr => rfl
      | _ => exact (nomatch hinvalid)
    subst hcr
    have hselect : r.inCrGroup = true := (svmSelect_eq .cr r).trans (decide_eq_true hhome)
    cases r with
    | cr0 | cr3 | cr4 => exact (nomatch hvalue)
    | _ => exact (nomatch hselect)
  · have hdisabled : Xsave.enabled (zeroProcessor.reg .xcr0) c = false := Nat.zero_testBit c
    rw [hdisabled]
    rfl

/-- Turning on paging by the name of CR0 takes the CR3 of the guest back to an old value. -/
theorem not_forall_svmEdits_coherent :
    ¬∀ (cpu : Xsave.Features) (supportedSizeMax procId : Nat) (p : Processor) (host : VirtualCpu)
      (cvcpu : SvmCustomVcpu) (calls : List EditCall), cvcpu.nsvGuest = false →
        EditCalls.Successful supportedSizeMax calls cvcpu.header →
          SvmEditsCoherent cpu supportedSizeMax procId p host cvcpu calls := by
  intro h
  have hcoherent := h anyFeatures 0 0 zeroProcessor zeroVirtualCpu pagedVcpu
    [.named [0x30] 8 (fun _ => ⟨0x80000011, 0⟩) (fun _ => 0)] rfl ⟨rfl, trivial⟩
  have hkept := (hcoherent.kept rfl).kept .cr3 .cr rfl rfl rfl rfl
  exact absurd hkept (by decide)

end NoirVisor
