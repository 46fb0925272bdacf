import NoirVisor.Cvm.SvmExit
import NoirVisor.Cvm.View
import NoirVisor.Transition

/-!
# Views of a virtual CPU on SVM

After an exit a view shows what the guest has, or a later edit, as long as the register is saved at
every switch, or the view dumps its group, or the structure happens to have it already.
-/

namespace NoirVisor

open Writeback

/-- The register is saved at every switch to the host, or is only in the structure. -/
def svmSaved (r : Register) : Bool := decide (svmHome r = .cache) || r.inGprGroup

namespace SvmCustomVcpu

variable {v : SvmCustomVcpu} {c : StateCache} {select : Register → Bool} {r : Register}

/-- What a dump reads for a register. -/
def dumped (v : SvmCustomVcpu) (r : Register) : Nat :=
  svmDecode v.shadowedBits.svme r (v.vmcb.field (.guest r))

/-- A dump takes the register from the VMCB. -/
def dumps (v : SvmCustomVcpu) (r : Register) : Bool :=
  svmDumps r && v.protocol.inBlock v.header.stateCache r

/-- Its value in the structure may be older than the one in the VMCB. -/
def stale (v : SvmCustomVcpu) (r : Register) : Bool := v.dumps r && !v.header.synchronized

/-- A register as a view that synchronizes shows it. -/
def shown (v : SvmCustomVcpu) (r : Register) : Nat :=
  if v.stale r then v.dumped r else v.header.reg r

theorem dumpGroup_reg :
    (v.dumpGroup c select).header.reg r =
      if v.header.stateCache c && select r then v.dumped r else v.header.reg r := by
  unfold dumpGroup
  split
  · next h => simp [h, dumped]
  · next h => simp [h]

@[simp]
theorem dumpGroup_stateCache :
    (v.dumpGroup c select).header.stateCache = v.header.stateCache := by
  unfold dumpGroup
  split <;> rfl

@[simp]
theorem dumpGroup_dumped : (v.dumpGroup c select).dumped = v.dumped := by
  unfold dumpGroup
  split <;> rfl

/-- The blocks of a dump are those of the groups that it is to dump. -/
theorem dump_reg :
    (nvcSvmDumpGuestVcpuState v).header.reg r =
      if v.dumps r then v.dumped r else v.header.reg r := by
  have hdumps : v.dumps r = (svmDumps r && v.protocol.inBlock v.header.stateCache r) := rfl
  unfold nvcSvmDumpGuestVcpuState
  simp only [dumpGroup_reg, dumpGroup_stateCache, dumpGroup_dumped, hdumps, svmDumps, protocol,
    svmProtocol, Protocol.inBlock, Register.inCrGroup, Register.inDrGroup, Register.inSrGroup,
    Register.inFsGs, Register.isDescriptorTable, Register.inLtGroup, Register.inScGroup,
    Register.inSeGroup]
  cases r with
  | gpr i => by_cases hi : i = 0 ∨ i = 4 <;> simp [svmHome, hi]
  | seg name field => cases name <;> cases field <;> simp [svmHome]
  | _ => simp [svmHome]

theorem dump_shown (h : v.header.synchronized = false) :
    (nvcSvmDumpGuestVcpuState v).shown = v.shown := by
  funext r
  have hstale : (nvcSvmDumpGuestVcpuState v).stale r = false := by
    unfold stale nvcSvmDumpGuestVcpuState
    simp
  unfold shown
  rw [hstale, if_neg Bool.false_ne_true, dump_reg]
  simp [stale, h]

theorem dump_xsaveArea : (nvcSvmDumpGuestVcpuState v).header.xsaveArea = v.header.xsaveArea := by
  have hgroup (v : SvmCustomVcpu) (c : StateCache) (select : Register → Bool) :
      (v.dumpGroup c select).header.xsaveArea = v.header.xsaveArea := by
    unfold dumpGroup
    split <;> rfl
  unfold nvcSvmDumpGuestVcpuState
  simp only [hgroup]

end SvmCustomVcpu

/-- A vCPU, and beside it what its guest has: as it was at the last exit, with the later edits. -/
structure SvmSession where
  vcpu : SvmCustomVcpu
  file : GuestFile

/-- What the guest has when it exits, from the VMCB and from the processor. -/
def svmExitFile (p : Processor) (cvcpu : SvmCustomVcpu) : GuestFile where
  reg r :=
    if svmSwitched r then cvcpu.exitRegisters p r
    else match svmHome r with
      | .cache => cvcpu.header.reg r
      | _ => cvcpu.dumped r
  xstate := p.xstate

/-- What the guest, and the handlers of the exits that are not the layered hypervisor's, leave alone.
The last exit marks the state as not synchronized. -/
structure SvmGuestExecutes (cvcpu cvcpu' : SvmCustomVcpu) : Prop where
  nsvGuest : cvcpu'.nsvGuest = cvcpu.nsvGuest
  xsaveArea : cvcpu'.header.xsaveArea = cvcpu.header.xsaveArea
  stateCache : cvcpu'.header.stateCache = cvcpu.header.stateCache
  synchronized : cvcpu'.header.synchronized = false

/-- What happens to a vCPU. A run is from the hypercall to the switch back to the host: the processor
and the structure for the host at its start, and the processor and the vCPU at the exit. -/
inductive SvmEvent where
  | edit (call : EditCall)
  | view (type : RegisterType) (b : Buffer) (size tsc : Nat)
  | run (procId : Nat) (p : Processor) (host : VirtualCpu) (exit : Processor) (exited : SvmCustomVcpu)

namespace SvmSession

def edited (supportedSizeMax : Nat) (call : EditCall) (s : SvmSession) : SvmSession where
  vcpu := s.vcpu.edited supportedSizeMax [call]
  file :=
    { reg := fun r => (lastWrite call.edits r).getD (s.file.reg r)
      xstate := EditCalls.write (EditCalls.extEdits supportedSizeMax [call]) s.file.xstate }

def viewed (supportedSizeMax tsc : Nat) (type : RegisterType) (b : Buffer) (size : Nat)
    (s : SvmSession) : NoirStatus × SvmCustomVcpu × Buffer :=
  nvcViewVcpuRegisters SvmCustomVcpu.header nvcSvmDumpGuestVcpuState supportedSizeMax tsc s.vcpu type b
    size

/-- A vCPU that has not run yet, with what the layered hypervisor set. -/
def Created (s : SvmSession) : Prop :=
  (∀ c, s.vcpu.header.stateCache c = false) ∧
    s.file = ⟨s.vcpu.header.reg, s.vcpu.header.xsaveArea.value, s.vcpu.header.xsaveArea.mxcsr⟩

end SvmSession

def SvmEvent.Takes (cpu : Xsave.Features) (supportedSizeMax : Nat) (s : SvmSession) :
    SvmEvent → SvmSession → Prop
  | edit call, s' => s' = s.edited supportedSizeMax call
  | view type b size tsc, s' =>
      s' = { s with vcpu := (s.viewed supportedSizeMax tsc type b size).2.1 }
  | run procId p host exit exited, s' =>
      ∃ p' host' entered left, nvcSvmSwitchToGuestVcpu cpu procId p host s.vcpu =
          some (p', host', entered) ∧
        SvmGuestExecutes entered exited ∧
        nvcSvmSwitchToHostVcpu cpu exit host' exited = some (left, s'.vcpu) ∧
        s'.file = svmExitFile exit exited

/-- An edit must not tell a group invalid while the structure has an older value of another register
of it, nor be of extended state that the area says to be initial. A run must not change extended
state that the host has not enabled. -/
def SvmEvent.Kept (supportedSizeMax : Nat) (s : SvmSession) : SvmEvent → Prop
  | edit call =>
      (∀ r c, svmHome r = .group c → s.vcpu.stale r = true → lastWrite call.edits r = none →
        call.edits.any (·.invalidates c) = true → s.vcpu.header.reg r = s.vcpu.dumped r) ∧
      ∀ c, ¬EditCalls.Lost (EditCalls.extEdits supportedSizeMax [call]) s.vcpu.header.xsaveArea c
  | view .. => True
  | run _ p _ exit _ =>
      s.vcpu.nsvGuest = false ∧
      (∀ c, Xsave.enabled (p.reg .xcr0) c = false →
        s.vcpu.header.xsaveArea.value c = exit.xstate.component c) ∧
      (Xsave.mxcsrEnabled (p.reg .xcr0) = false →
        s.vcpu.header.xsaveArea.mxcsr = exit.xstate.mxcsr)

/-- The sessions reached by events that meet a condition. -/
def SvmReachable (cpu : Xsave.Features) (supportedSizeMax : Nat)
    (condition : SvmSession → SvmEvent → Prop) : SvmSession → Prop :=
  Transition.Reachable SvmSession.Created fun s s' =>
    ∃ e, condition s e ∧ SvmEvent.Takes cpu supportedSizeMax s e s'

/-- Whether a view shows what the guest has in a register: it is saved at every switch, or it is dumped
by this view or was before, or the structure happens to have it: it was edited since the exit, or
the guest left it alone. -/
def SvmSession.Viewable (synchronizes : Bool) (s : SvmSession) (r : Register) : Prop :=
  svmSaved r = true ∨
    svmDumps r = true ∧ (synchronizes = true ∨ s.vcpu.stale r = false) ∨
      s.vcpu.header.reg r = s.file.reg r

/-- The bytes of an initial component are zero in the area. -/
def SvmSession.TypeViewable (s : SvmSession) (type : RegisterType) : Prop :=
  (∀ r, type.shows r = true → s.Viewable type.syncs.isSome r) ∧
    (type = .fxstate → ∀ c : Fin 63, c.val < 2 → s.vcpu.header.xsaveArea.xstateBv c = false →
      s.vcpu.header.xsaveArea.component c = 0)

def SvmSession.NameViewable (s : SvmSession) (name size : Nat) : Prop :=
  ∀ r, nameShows name size r = true → s.Viewable false r

/-- What a view by type returns, if the guest has this file. -/
def RegisterType.Returns (type : RegisterType) (file : GuestFile) (tsc : Nat) (before after : Buffer) :
    Prop :=
  match type with
  | .fxstate =>
      (∀ c : Fin 63, c.val < 2 → after.area.component c = file.xstate.component c) ∧
        after.area.mxcsr = file.xstate.mxcsr
  | .xsaveArea =>
      after.area.value = file.xstate.component ∧ after.area.mxcsr = file.xstate.mxcsr
  | _ => after = type.view file.reg before.area tsc before

/-- The views of these types and names return what the guest has. -/
structure SvmSession.ViewsCurrent (supportedSizeMax : Nat) (types : RegisterType → Prop)
    (names : Nat → Nat → Prop) (s : SvmSession) : Prop where
  byType : ∀ type b size tsc, types type →
    (s.viewed supportedSizeMax tsc type b size).1 = .success →
      type.Returns s.file tsc b (s.viewed supportedSizeMax tsc type b size).2.2
  byName : ∀ list size tsc buffer, (∀ name ∈ list, names name size) →
    nvcViewVcpuRegisters2 tsc s.vcpu.header.reg list size buffer =
      nvcViewVcpuRegisters2 tsc s.file.reg list size buffer

/-- The structure and the VMCB stand for the file, but for the registers that no exit saves and no dump
reads. -/
structure SvmSession.Coherent (s : SvmSession) : Prop where
  reg : ∀ r, svmDumps r = true ∨ svmSaved r = true → s.vcpu.shown r = s.file.reg r
  component : s.vcpu.header.xsaveArea.value = s.file.xstate.component
  mxcsr : s.vcpu.header.xsaveArea.mxcsr = s.file.xstate.mxcsr

section Steps

variable {cpu : Xsave.Features} {supportedSizeMax : Nat} {s s' : SvmSession} {r : Register}
  {c : StateCache}

theorem svmDumps_group (h : svmDumps r = true) :
    ∃ c, svmHome r = .group c ∧ svmLoadsGroup c = true ∧ r.invalidated = some c := by
  cases r with
  | gpr i =>
      unfold svmDumps at h
      by_cases hi : i = 0 ∨ i = 4 <;> simp [svmHome, hi] at h
  | seg name field => cases name <;> cases field <;> first | exact ⟨_, rfl, rfl, rfl⟩ | cases h
  | _ => first | exact ⟨_, rfl, rfl, rfl⟩ | cases h

theorem svmDumps_of_saved (h : svmSaved r = true) : svmDumps r = false := by
  cases r with
  | gpr i => by_cases hi : i = 0 ∨ i = 4 <;> simp [svmDumps, svmHome, hi]
  | seg name field => cases name <;> cases field <;> first | rfl | cases h
  | _ => first | rfl | cases h

namespace SvmCustomVcpu

variable {v : SvmCustomVcpu}

theorem shown_of_saved (h : svmSaved r = true) : v.shown r = v.header.reg r := by
  simp [shown, stale, dumps, svmDumps_of_saved h]

theorem shown_of_not_stale (h : v.stale r = false) : v.shown r = v.header.reg r := by
  rw [shown, h, if_neg Bool.false_ne_true]

theorem shown_of_stale (h : v.stale r = true) : v.shown r = v.dumped r := if_pos h

end SvmCustomVcpu

theorem SvmSession.Created.coherent (h : s.Created) : s.Coherent := by
  obtain ⟨hvalid, hfile⟩ := h
  refine ⟨fun r hr => ?_, by rw [hfile], by rw [hfile]⟩
  have hstale : s.vcpu.stale r = false := by
    obtain hdumps | hsaved := hr
    · obtain ⟨c, hhome, -⟩ := svmDumps_group hdumps
      simp [SvmCustomVcpu.stale, SvmCustomVcpu.dumps, SvmCustomVcpu.protocol, svmProtocol,
        Protocol.inBlock, hhome, hvalid]
    · simp [SvmCustomVcpu.stale, SvmCustomVcpu.dumps, svmDumps_of_saved hsaved]
  rw [SvmCustomVcpu.shown_of_not_stale hstale, hfile]

theorem SvmCustomVcpu.edited_stateCache {call : EditCall} {v : SvmCustomVcpu} (c : StateCache) :
    (v.edited supportedSizeMax [call]).header.stateCache c =
      (v.header.stateCache c && !call.edits.any (·.invalidates c)) := by
  rw [← EditCalls.edits_singleton]
  exact EditCalls.run_stateCache c

theorem SvmCustomVcpu.edited_synchronized {call : EditCall} {v : SvmCustomVcpu} :
    (v.edited supportedSizeMax [call]).header.synchronized = v.header.synchronized :=
  EditCalls.run_synchronized

theorem edited_stale {call : EditCall} {v : SvmCustomVcpu} (hhome : svmHome r = .group c) :
    (v.edited supportedSizeMax [call]).stale r =
      (v.stale r && !call.edits.any (·.invalidates c)) := by
  simp only [SvmCustomVcpu.stale, SvmCustomVcpu.dumps, SvmCustomVcpu.protocol, svmProtocol,
    Protocol.inBlock, hhome, SvmCustomVcpu.edited_stateCache, SvmCustomVcpu.edited_synchronized]
  cases svmDumps r <;> cases v.header.stateCache c <;> cases v.header.synchronized <;> simp

theorem edited_header_reg {call : EditCall} {v : SvmCustomVcpu} :
    (v.edited supportedSizeMax [call]).header.reg r =
      (lastWrite call.edits r).getD (v.header.reg r) := by
  rw [← EditCalls.edits_singleton]
  exact EditCalls.run_reg supportedSizeMax r

namespace SvmSession

theorem Coherent.xstate (h : s.Coherent) : s.file.xstate =
    ⟨s.vcpu.header.xsaveArea.value, s.vcpu.header.xsaveArea.mxcsr⟩ :=
  Xsave.State.ext h.component.symm h.mxcsr.symm

theorem Coherent.edited {call : EditCall} (h : s.Coherent)
    (hkept : SvmEvent.Kept supportedSizeMax s (.edit call)) :
    (s.edited supportedSizeMax call).Coherent := by
  have harea : (s.vcpu.edited supportedSizeMax [call]).header.xsaveArea =
      EditCalls.area (EditCalls.extEdits supportedSizeMax [call]) s.vcpu.header.xsaveArea :=
    edited_xsaveArea
  refine ⟨fun r hr => ?_, ?_, ?_⟩
  · have hold := h.reg r hr
    unfold SvmSession.edited
    dsimp only
    obtain hdumps | hsaved := hr
    · obtain ⟨c, hhome, -, hinvalidated⟩ := svmDumps_group hdumps
      have hstale : (s.vcpu.edited supportedSizeMax [call]).stale r = _ := edited_stale hhome
      cases hwrite : lastWrite call.edits r with
      | some value =>
          rw [any_invalidates_of_lastWrite (fun e => EditCall.invalidating) hwrite hinvalidated,
            Bool.not_true, Bool.and_false] at hstale
          rw [SvmCustomVcpu.shown_of_not_stale hstale, edited_header_reg, hwrite]
          rfl
      | none =>
          rw [Option.getD_none, ← hold]
          cases hold : s.vcpu.stale r with
          | false =>
              rw [hold, Bool.false_and] at hstale
              rw [SvmCustomVcpu.shown_of_not_stale hstale, SvmCustomVcpu.shown_of_not_stale hold,
                edited_header_reg, hwrite, Option.getD_none]
          | true =>
              rw [hold, Bool.true_and] at hstale
              rw [SvmCustomVcpu.shown_of_stale hold]
              cases hany : call.edits.any (·.invalidates c) with
              | true =>
                  rw [hany, Bool.not_true] at hstale
                  rw [SvmCustomVcpu.shown_of_not_stale hstale, edited_header_reg, hwrite]
                  exact hkept.1 r c hhome hold hwrite hany
              | false =>
                  rw [hany, Bool.not_false] at hstale
                  exact SvmCustomVcpu.shown_of_stale hstale
    · rw [SvmCustomVcpu.shown_of_saved hsaved] at hold ⊢
      rw [edited_header_reg, hold]
  · funext c
    refine (congrFun (congrArg Xsave.Area.value harea) c).trans ?_
    rw [EditCalls.area_value.mpr (hkept.2 c), ← h.xstate]
    rfl
  · refine (congrArg Xsave.Area.mxcsr harea).trans ?_
    rw [EditCalls.area_mxcsr, ← h.xstate]
    rfl

/-- A view dumps what the structure may have stale, if it is to synchronize a valid group. -/
theorem viewed_vcpu (supportedSizeMax : Nat) (s : SvmSession) (tsc : Nat) (b : Buffer) {size : Nat}
    {type : RegisterType} (hsize : size ≥ type.bufferLimit) :
    ((s.viewed supportedSizeMax tsc type b size).2.1 = s.vcpu ∧
      ∀ c, type.syncs = some c →
        (s.vcpu.header.stateCache c && !s.vcpu.header.synchronized) = false) ∨
      s.vcpu.header.synchronized = false ∧
        (s.viewed supportedSizeMax tsc type b size).2.1 = nvcSvmDumpGuestVcpuState s.vcpu := by
  unfold viewed nvcViewVcpuRegisters
  dsimp only
  rw [if_pos hsize]
  cases type.syncs with
  | none => exact .inl ⟨by split <;> rfl, fun c hc => (nomatch hc)⟩
  | some c =>
      dsimp only
      by_cases hsync : (s.vcpu.header.stateCache c && !s.vcpu.header.synchronized) = true
      · rw [if_pos hsync]
        refine .inr ⟨?_, by split <;> rfl⟩
        simpa using (Bool.and_eq_true_iff.mp hsync).2
      · rw [if_neg hsync]
        refine .inl ⟨by split <;> rfl, fun c' hc => ?_⟩
        cases hc
        exact Bool.eq_false_iff.mpr hsync

theorem viewed_of_short {tsc size : Nat} {type : RegisterType} {b : Buffer}
    (hsize : ¬size ≥ type.bufferLimit) :
    s.viewed supportedSizeMax tsc type b size = (.invalidParameter, s.vcpu, b) := if_neg hsize

theorem Coherent.dump (h : s.Coherent) (hsynchronized : s.vcpu.header.synchronized = false) :
    Coherent { s with vcpu := nvcSvmDumpGuestVcpuState s.vcpu } where
  reg r hr := (congrFun (SvmCustomVcpu.dump_shown hsynchronized) r).trans (h.reg r hr)
  component := (congrArg Xsave.Area.value SvmCustomVcpu.dump_xsaveArea).trans h.component
  mxcsr := (congrArg Xsave.Area.mxcsr SvmCustomVcpu.dump_xsaveArea).trans h.mxcsr

theorem Coherent.viewed {tsc size : Nat} {type : RegisterType} {b : Buffer} (h : s.Coherent) :
    Coherent { s with vcpu := (s.viewed supportedSizeMax tsc type b size).2.1 } := by
  by_cases hsize : size ≥ type.bufferLimit
  · obtain ⟨hsame, -⟩ | ⟨hsynchronized, hdump⟩ := viewed_vcpu supportedSizeMax s tsc b hsize
    · rw [hsame]
      exact h
    · rw [hdump]
      exact h.dump hsynchronized
  · rw [viewed_of_short hsize]
    exact h

/-- After an exit every valid group that a dump reads is looked for in the VMCB. -/
theorem exited_coherent {exited : SvmCustomVcpu} {exit : Processor} {xcr0 : Nat}
    (hvalid : ∀ c, svmLoadsGroup c = true → exited.header.stateCache c = true)
    (hsynchronized : exited.header.synchronized = false)
    (hcomponent : ∀ c, Xsave.enabled xcr0 c = false →
      exited.header.xsaveArea.value c = exit.xstate.component c)
    (hmxcsr : Xsave.mxcsrEnabled xcr0 = false →
      exited.header.xsaveArea.mxcsr = exit.xstate.mxcsr) :
    Coherent ⟨exited.exited xcr0 exit, svmExitFile exit exited⟩ := by
  refine ⟨fun r hr => ?_, ?_, ?_⟩
  · obtain hdumps | hsaved := hr
    · obtain ⟨c, hhome, hloads, -⟩ := svmDumps_group hdumps
      have hstale : (exited.exited xcr0 exit).stale r = true := by
        have hinBlock : (exited.exited xcr0 exit).header.stateCache c = true := hvalid c hloads
        have hnot : (exited.exited xcr0 exit).header.synchronized = false := hsynchronized
        simp [SvmCustomVcpu.stale, SvmCustomVcpu.dumps, SvmCustomVcpu.protocol, svmProtocol,
          Protocol.inBlock, hhome, hdumps, hinBlock, hnot]
      have hswitched : svmSwitched r = false := by
        cases r with
        | gpr i => exact absurd hdumps (by by_cases hi : i = 0 ∨ i = 4 <;> simp [svmDumps, svmHome, hi])
        | dr i => cases hhome
        | xcr0 => cases hhome
        | _ => rfl
      rw [SvmCustomVcpu.shown_of_stale hstale]
      simp only [svmExitFile, hswitched, Bool.false_eq_true, if_false, hhome]
      rfl
    · rw [SvmCustomVcpu.shown_of_saved hsaved]
      cases r with
      | seg name field => cases name <;> cases field <;> first | rfl | cases hsaved
      | _ => first | rfl | cases hsaved
  · funext c
    refine (Xsave.value_save c).trans ?_
    split
    · rfl
    · next hc => exact hcomponent c (Bool.eq_false_iff.mpr hc)
  · dsimp only [svmExitFile]
    refine (show _ = if Xsave.mxcsrEnabled xcr0 then _ else _ from rfl).trans ?_
    split
    · rfl
    · next hc => exact hmxcsr (Bool.eq_false_iff.mpr hc)

theorem coherent_of_run {procId : Nat} {p exit : Processor} {host : VirtualCpu}
    {exited : SvmCustomVcpu}
    (hkept : SvmEvent.Kept supportedSizeMax s (.run procId p host exit exited))
    (htakes : SvmEvent.Takes cpu supportedSizeMax s (.run procId p host exit exited) s') :
    s'.Coherent := by
  obtain ⟨hnsv, hcomponent, hmxcsr⟩ := hkept
  obtain ⟨p', host', entered, left, henter, hexecutes, hexit, hfile⟩ := htakes
  rw [nvcSvmSwitchToGuestVcpu_eq hnsv] at henter
  obtain ⟨q, -, heq⟩ := Option.map_eq_some_iff.mp henter
  obtain ⟨-, rfl, rfl⟩ := by simpa only [Prod.mk.injEq] using heq
  have hframe : (s.vcpu.entered procId).frame = s.vcpu.frame := SvmCustomVcpu.entered_frame
  have hnsv' : exited.nsvGuest = false :=
    hexecutes.nsvGuest.trans ((congrArg Prod.fst hframe).trans hnsv)
  have harea : exited.header.xsaveArea = s.vcpu.header.xsaveArea :=
    hexecutes.xsaveArea.trans (congrArg Prod.snd hframe)
  obtain ⟨-, -, hvcpu⟩ := nvcSvmSwitchToHostVcpu_eq_some hnsv' hexit
  have hs' : s' = ⟨exited.exited (p.reg .xcr0) exit, svmExitFile exit exited⟩ := by
    rw [← hfile]
    exact congrArg (SvmSession.mk · s'.file) hvcpu
  rw [hs']
  refine exited_coherent (fun c hloads => ?_) hexecutes.synchronized (fun c hc => ?_) fun hc => ?_
  · rw [hexecutes.stateCache]
    exact SvmCustomVcpu.entered_valid hloads
  · rw [harea]
    exact hcomponent c hc
  · rw [harea]
    exact hmxcsr hc

theorem Coherent.step {e : SvmEvent} (h : s.Coherent) (hkept : e.Kept supportedSizeMax s)
    (htakes : e.Takes cpu supportedSizeMax s s') : s'.Coherent := by
  cases e with
  | edit call =>
      cases htakes
      exact h.edited hkept
  | view type b size tsc =>
      cases htakes
      exact h.viewed
  | run procId p host exit exited => exact coherent_of_run hkept htakes

end SvmSession

theorem SvmReachable.coherent
    (h : SvmReachable cpu supportedSizeMax (SvmEvent.Kept supportedSizeMax) s) : s.Coherent :=
  h.invariant (fun _ => SvmSession.Created.coherent) fun _ _ _ hs ⟨_, hkept, htakes⟩ =>
    hs.step hkept htakes

theorem svmHome_of_shows {type : RegisterType} {c c' : StateCache} (hshows : type.shows r = true)
    (hhome : svmHome r = .group c) (hsyncs : type.syncs = some c') : c = c' := by
  cases type with
  | controlRegister | cr2Register | dr67Register | segmentRegister | fgsegRegister | descriptorTable
  | ldtrTaskRegister | syscallMsrRegister | sysenterMsrRegister | cr8Register =>
      cases hsyncs
      cases r with
      | gpr i => cases hshows
      | seg name field => cases name <;> cases field <;> cases hshows <;> cases hhome <;> rfl
      | _ => cases hshows <;> cases hhome <;> rfl
  | _ => cases hsyncs

namespace SvmSession

variable {type : RegisterType} {b : Buffer} {size tsc : Nat}

theorem viewed_success (h : (s.viewed supportedSizeMax tsc type b size).1 = .success) :
    size ≥ type.bufferLimit ∧
      (s.viewed supportedSizeMax tsc type b size).2.2 =
        type.view (s.viewed supportedSizeMax tsc type b size).2.1.header.reg
          (s.viewed supportedSizeMax tsc type b size).2.1.header.xsaveArea tsc b := by
  by_cases hsize : size ≥ type.bufferLimit
  · refine ⟨hsize, ?_⟩
    unfold viewed nvcViewVcpuRegisters at *
    dsimp only at *
    rw [if_pos hsize] at *
    split at h
    · cases h
    · next hroom => rw [if_neg hroom]
  · rw [viewed_of_short hsize] at h
    cases h

theorem Coherent.header_reg (h : s.Coherent) (hviewable : s.Viewable false r) :
    s.vcpu.header.reg r = s.file.reg r := by
  obtain hsaved | ⟨hdumps, hsync | hstale⟩ | hsame := hviewable
  · exact (SvmCustomVcpu.shown_of_saved hsaved).symm.trans (h.reg r (.inr hsaved))
  · cases hsync
  · exact (SvmCustomVcpu.shown_of_not_stale hstale).symm.trans (h.reg r (.inl hdumps))
  · exact hsame

theorem Coherent.dump_header_reg (h : s.Coherent) (hsynchronized : s.vcpu.header.synchronized = false)
    (hviewable : s.Viewable true r) :
    (nvcSvmDumpGuestVcpuState s.vcpu).header.reg r = s.file.reg r := by
  have hdump := h.dump hsynchronized
  have hstale : (nvcSvmDumpGuestVcpuState s.vcpu).stale r = false := by
    unfold SvmCustomVcpu.stale nvcSvmDumpGuestVcpuState
    simp
  by_cases hdumps : svmDumps r = true
  · exact hdump.header_reg (.inr (.inl ⟨hdumps, .inr hstale⟩))
  · obtain hsaved | ⟨hdumps', -⟩ | hsame := hviewable
    · exact hdump.header_reg (.inl hsaved)
    · exact absurd hdumps' hdumps
    · rw [SvmCustomVcpu.dump_reg, SvmCustomVcpu.dumps, Bool.eq_false_iff.mpr hdumps]
      exact hsame

theorem Coherent.viewed_reg (h : s.Coherent) (hsize : size ≥ type.bufferLimit)
    (hshows : type.shows r = true) (hviewable : s.Viewable type.syncs.isSome r) :
    (s.viewed supportedSizeMax tsc type b size).2.1.header.reg r = s.file.reg r := by
  have hsynchronizes : s.Viewable true r := hviewable.imp_right fun hr =>
    hr.imp_left fun hr => ⟨hr.1, .inl rfl⟩
  obtain ⟨hsame, hvalid⟩ | ⟨hsynchronized, hdump⟩ := viewed_vcpu supportedSizeMax s tsc b hsize
  · rw [hsame]
    refine h.header_reg (hviewable.imp_right fun hr => hr.imp_left fun hr => ⟨hr.1, .inr ?_⟩)
    obtain ⟨hdumps, hsyncs | hstale⟩ := hr
    · obtain ⟨c', hc'⟩ := Option.isSome_iff_exists.mp hsyncs
      obtain ⟨c, hhome, -⟩ := svmDumps_group hdumps
      obtain rfl := svmHome_of_shows hshows hhome hc'
      simpa [SvmCustomVcpu.stale, SvmCustomVcpu.dumps, SvmCustomVcpu.protocol, svmProtocol,
        Protocol.inBlock, hhome, hdumps] using hvalid c hc'
    · exact hstale
  · rw [hdump]
    exact h.dump_header_reg hsynchronized hsynchronizes

theorem Coherent.viewed_xsaveArea :
    (s.viewed supportedSizeMax tsc type b size).2.1.header.xsaveArea = s.vcpu.header.xsaveArea := by
  by_cases hsize : size ≥ type.bufferLimit
  · obtain ⟨hsame, -⟩ | ⟨-, hdump⟩ := viewed_vcpu supportedSizeMax s tsc b hsize
    · rw [hsame]
    · rw [hdump, SvmCustomVcpu.dump_xsaveArea]
  · rw [viewed_of_short hsize]

theorem Coherent.returns (h : s.Coherent) (hviewable : s.TypeViewable type)
    (hsuccess : (s.viewed supportedSizeMax tsc type b size).1 = .success) :
    type.Returns s.file tsc b (s.viewed supportedSizeMax tsc type b size).2.2 := by
  obtain ⟨hsize, hview⟩ := viewed_success hsuccess
  rw [hview, Coherent.viewed_xsaveArea]
  have hregs : type.view (s.viewed supportedSizeMax tsc type b size).2.1.header.reg
      s.vcpu.header.xsaveArea tsc b = type.view s.file.reg s.vcpu.header.xsaveArea tsc b :=
    RegisterType.view_congr fun r hshows => h.viewed_reg hsize hshows (hviewable.1 r hshows)
  cases type with
  | fxstate =>
      refine ⟨fun c hc => ?_, h.mxcsr⟩
      have hcomponent := congrFun h.component c
      refine Eq.trans ?_ hcomponent
      simp only [RegisterType.view, copyFxState, hc, if_true, Xsave.Area.value]
      split
      · rfl
      · next hinitial => exact hviewable.2 rfl c hc (Bool.eq_false_iff.mpr hinitial)
  | xsaveArea => exact ⟨h.component, h.mxcsr⟩
  | _ => exact hregs

end SvmSession

/-- In every run whose edits and guest executions keep the condition, the views return what the guest
has, if they are such that the structure cannot be stale. -/
theorem SvmReachable.viewsCurrent
    (h : SvmReachable cpu supportedSizeMax (SvmEvent.Kept supportedSizeMax) s) :
    s.ViewsCurrent supportedSizeMax s.TypeViewable s.NameViewable where
  byType _ _ _ _ hviewable hsuccess := h.coherent.returns hviewable hsuccess
  byName list size tsc buffer hviewable := by
    unfold nvcViewVcpuRegisters2
    split
    · rfl
    · exact viewNamed_congr fun name hmem r hshows =>
        h.coherent.header_reg (hviewable name hmem r hshows)

end Steps

/-! A guest that changes CR3 in its first run. -/

def newVcpu : SvmCustomVcpu where
  header := { zeroVirtualCpu with stateCache := fun _ => false }
  vmcb := ⟨fun _ => 0, fun _ => false⟩
  procId := 0xFFFFFFFF
  shadowedBits := ⟨false, false, false⟩
  specialState := ⟨false, false, false, false⟩
  nsvGuest := false
  vmsa := ⟨fun _ => 0, true⟩

def newSession : SvmSession := ⟨newVcpu, ⟨fun _ => 0, ⟨fun _ => 0, 0⟩⟩⟩

theorem newSession_created : newSession.Created :=
  ⟨fun _ => rfl, congrArg (GuestFile.mk _) (Xsave.State.ext (funext fun _ => rfl) rfl)⟩

def pagingGuest : SvmCustomVcpu :=
  { newVcpu.entered 0 with
    vmcb := (newVcpu.entered 0).vmcb.write (.guest .cr3) 0x1000
    header.synchronized := false }

def pagingRun : SvmEvent := .run 0 zeroProcessor zeroVirtualCpu zeroProcessor pagingGuest

def pagingSession : SvmSession :=
  ⟨pagingGuest.exited 0 zeroProcessor, svmExitFile zeroProcessor pagingGuest⟩

theorem pagingRun_takes : pagingRun.Takes anyFeatures 0 newSession pagingSession := by
  have henter : nvcSvmSwitchToGuestVcpu anyFeatures 0 zeroProcessor zeroVirtualCpu newVcpu = _ :=
    nvcSvmSwitchToGuestVcpu_eq rfl
  rw [enterGuest_of_loadable ⟨⟨fun c h => absurd h Bool.false_ne_true, fun _ => rfl⟩, rfl⟩]
    at henter
  have hloadable : HostLoadable anyFeatures
      ((zeroVirtualCpu.saveRegisters svmSwitched zeroProcessor).saveExtended zeroProcessor) :=
    saved_loadable rfl rfl rfl fun c h => absurd h Bool.false_ne_true
  refine ⟨_, _, _, _, henter, ⟨?_, rfl, rfl, rfl⟩,
    nvcSvmSwitchToHostVcpu_eq (congrArg Prod.fst SvmCustomVcpu.entered_frame) hloadable, rfl⟩
  rfl

theorem pagingRun_kept : pagingRun.Kept 0 newSession :=
  ⟨rfl, fun _ _ => rfl, fun _ => rfl⟩

theorem pagingSession_views :
    pagingSession.ViewsCurrent 0 pagingSession.TypeViewable pagingSession.NameViewable :=
  SvmReachable.viewsCurrent
    (.step (.start newSession_created) ⟨pagingRun, pagingRun_kept, pagingRun_takes⟩)

/-- A view by name does not synchronize and shows the CR3 from before the guest ran. -/
theorem not_forall_viewsCurrent :
    ¬∀ (cpu : Xsave.Features) (supportedSizeMax : Nat) (s : SvmSession),
      SvmReachable cpu supportedSizeMax (fun _ _ => True) s →
        s.ViewsCurrent supportedSizeMax (fun _ => True) fun _ _ => True := by
  intro h
  have hviews := h anyFeatures 0 pagingSession
    (.step (.start newSession_created) ⟨pagingRun, trivial, pagingRun_takes⟩)
  have hshown := hviews.byName [0x33] 8 (fun _ => 0) (fun _ => ⟨0, 0⟩) fun _ _ => trivial
  have hlow := congrArg (fun result => (result.2 0).low) hshown
  exact absurd hlow (by decide)

end NoirVisor
