import NoirVisor.Cvm.VtCoherence
import NoirVisor.Transition

/-!
# Edits, runs and dumps of a virtual CPU on VT

Before a run the VMCS and the list of MSRs have what the guest had or was given since, and a dump shows
it, as long as no edit loses a register and the current VMCS of the dump agrees with that of the
vCPU.
-/

namespace NoirVisor

open Writeback

/-- Where the guest has a register while it runs, as it is there. -/
def vtHeld (p : Processor) (cvcpu : VtCustomVcpu) (r : Register) : Nat :=
  match vtHome r with
  | .cache => if vtSwitched r then p.reg r else cvcpu.header.reg r
  | _ => cvcpu.block r

/-- What the guest has when it exits. -/
def vtExitImage (p : Processor) (cvcpu : VtCustomVcpu) : Image Register Nat where
  held := vtHeld p cvcpu
  seen r :=
    match vtHome r with
    | .cache => vtHeld p cvcpu r
    | _ => vtDecode r (cvcpu.block r)

/-- A vCPU, and beside it what its guest has: as it was at the last exit, with the later edits. -/
structure VtSession where
  vcpu : VtCustomVcpu
  image : Image Register Nat

/-- What happens to a vCPU. A run is from the hypercall to the switch back to the host, and the dump
reads the VMCS that is current when it is asked for. -/
inductive VtEvent where
  | edit (call : EditCall)
  | run (stack : VtInitialStack) (p : Processor) (host : VirtualCpu) (exit : Processor)
      (exited : VtCustomVcpu)
  | dump (current : Vmcs)

def VtCustomVcpu.edited (supportedSizeMax : Nat) (call : EditCall) (cvcpu : VtCustomVcpu) :
    VtCustomVcpu :=
  { cvcpu with header := EditCalls.run supportedSizeMax [call] cvcpu.header }

namespace VtSession

/-- A vCPU that has not run yet, with what the layered hypervisor set. -/
def Created (fixed : VmxFixedBits) (s : VtSession) : Prop :=
  (∀ c, s.vcpu.header.stateCache c = false) ∧
    ∀ r, match vtHome r with
      | .block => s.vcpu.block r = s.image.held r ∧ vtDecode r (s.image.held r) = s.image.seen r
      | _ => s.vcpu.header.reg r = s.image.seen r ∧
          (vtProtocol fixed).stored r (s.image.seen r) = s.image.held r

/-- The switch to the guest succeeds, and the guest has every register as it should. -/
def StartHolds (cpu : Xsave.Features) (fixed : VmxFixedBits) (stack : VtInitialStack) (p : Processor)
    (host : VirtualCpu) (s : VtSession) : Prop :=
  ∃ stack' p' host' entered,
    nvcVtSwitchToGuestVcpu cpu fixed stack p host s.vcpu = some (stack', p', host', entered) ∧
      ∀ r, vtHeld p' entered r = s.image.held r

/-- After the dump the structure shows every register as the guest has it. -/
def DumpHolds (current : Vmcs) (s : VtSession) : Prop :=
  ∀ r, (nvcVtDumpVcpuState current s.vcpu).header.reg r = s.image.seen r

/-- No instruction raises an exception, and Kernel-GS-Base, which is never written to the list of
MSRs, was not edited together with FS and GS. -/
structure StartKept (cpu : Xsave.Features) (p : Processor) (s : VtSession) : Prop where
  loadable : GuestLoadable cpu s.vcpu.header p
  gsswap : s.vcpu.header.stateCache .fg = false →
    s.vcpu.msrAuto .gsswap = s.vcpu.header.reg .gsswap

/-- The current VMCS shows the same as the VMCS of the vCPU, and the structure already has what is
never dumped. -/
structure DumpKept (fixed : VmxFixedBits) (current : Vmcs) (s : VtSession) : Prop where
  current : ∀ r c, vtHome r = .group c → vtDumps r = true → inMsrAuto r = false →
    s.vcpu.header.stateCache c = true →
      vtDecode r (current (.guest r)) = vtDecode r (s.vcpu.vmcs (.guest r))
  rest : ∀ r, vtHome r ≠ .group .gpr → vtDumps r = false →
    (vtProtocol fixed).inBlock s.vcpu.header.stateCache r = true →
      s.vcpu.header.reg r = vtDecode r (s.vcpu.block r)

end VtSession

def VtEvent.Takes (cpu : Xsave.Features) (fixed : VmxFixedBits) (supportedSizeMax : Nat)
    (s : VtSession) : VtEvent → VtSession → Prop
  | edit call, s' =>
      s' = ⟨s.vcpu.edited supportedSizeMax call, s.image.edited (vtProtocol fixed) call.edits⟩
  | run stack p host exit exited, s' =>
      ∃ stack' p' host' entered left,
        nvcVtSwitchToGuestVcpu cpu fixed stack p host s.vcpu = some (stack', p', host', entered) ∧
        exited.header.stateCache = entered.header.stateCache ∧
        nvcVtSwitchToHostVcpu cpu exit host' exited = some (left, s'.vcpu) ∧
        s'.image = vtExitImage exit exited
  | dump current, s' => s' = { s with vcpu := nvcVtDumpVcpuState current s.vcpu }

/-- An edit must not lose a register; runs and dumps may be any. -/
def VtEvent.Kept (fixed : VmxFixedBits) (s : VtSession) : VtEvent → Prop
  | edit call => Keeps (vtProtocol fixed) call.edits s.vcpu.writeback
  | _ => True

/-- The sessions reached by events that meet a condition. -/
def VtReachable (cpu : Xsave.Features) (fixed : VmxFixedBits) (supportedSizeMax : Nat)
    (condition : VtSession → VtEvent → Prop) : VtSession → Prop :=
  Transition.Reachable (VtSession.Created fixed) fun s s' =>
    ∃ e, condition s e ∧ VtEvent.Takes cpu fixed supportedSizeMax s e s'

/-- The structure and the VMCS stand for what the guest has, and the structure has the registers that
every exit saves. -/
structure VtSession.Coherent (fixed : VmxFixedBits) (s : VtSession) : Prop where
  stands : (vtProtocol fixed).Stands s.image s.vcpu.writeback
  saved : ∀ r, vtHome r = .group .gpr → s.vcpu.header.reg r = s.image.seen r

section Steps

variable {cpu : Xsave.Features} {fixed : VmxFixedBits} {supportedSizeMax : Nat} {s s' : VtSession}
  {r : Register} {c : StateCache}

namespace VtCustomVcpu

variable {v : VtCustomVcpu} {stack : VtInitialStack} {call : EditCall}

theorem writeback_edited :
    (v.edited supportedSizeMax call).writeback = v.writeback.edited call.edits := by
  rw [← EditCalls.edits_singleton]
  unfold VtCustomVcpu.edited writeback State.edited
  refine congr (congrArg (State.mk · _) (funext fun r => ?_)) (funext fun c => ?_)
  · exact EditCalls.run_reg supportedSizeMax r
  · exact EditCalls.run_stateCache c

theorem writeback_schedule : (v.schedule stack).2.writeback = v.writeback := by
  unfold schedule
  split <;> rfl

theorem vtInjectEvent_guest {vector type length errCode : Nat} {deliver : Bool} {vmcs : Vmcs} :
    vtInjectEvent vector type deliver length errCode vmcs (.guest r) = vmcs (.guest r) := by
  unfold vtInjectEvent
  cases deliver <;> simp

theorem writeback_setEventInjection : v.setEventInjection.writeback = v.writeback := by
  have hvmcs (vmcs : Vmcs) (h : ∀ r, vmcs (.guest r) = v.vmcs (.guest r)) :
      writeback { v with vmcs } = v.writeback := by
    unfold writeback block
    simp only [h]
  have hwindow (n : Nat) (r : Register) : setWindowExiting n v.vmcs (.guest r) = v.vmcs (.guest r) := by
    simp [setWindowExiting]
  unfold setEventInjection
  dsimp only
  split
  · exact hvmcs _ fun r => by simp
  · split
    · split
      · split
        · exact hvmcs _ fun r => vtInjectEvent_guest
        · exact hvmcs _ (hwindow 2)
      · rfl
    · split
      · split
        · exact hvmcs _ fun r => vtInjectEvent_guest
        · exact hvmcs _ (hwindow 22)
      · exact hvmcs _ fun r => by simp

/-- The vCPU after a switch to it that raised no exception. -/
def entered (fixed : VmxFixedBits) (stack : VtInitialStack) (v : VtCustomVcpu) : VtCustomVcpu :=
  ((v.schedule stack).2.loadVmcs fixed).setEventInjection

theorem writeback_entered :
    (v.entered fixed stack).writeback = (vtProtocol fixed).load v.writeback := by
  unfold entered
  rw [writeback_setEventInjection, writeback_loadVmcs, writeback_schedule]

/-- What a dump reads for a register. -/
def dumpRead (current : Vmcs) (v : VtCustomVcpu) (r : Register) : Nat :=
  if inMsrAuto r then v.msrAuto r else current (.guest r)

variable {read : Register → Nat} {select : Register → Bool} {current : Vmcs}

theorem dumpGroup_reg :
    (v.dumpGroup read c select).header.reg r =
      if v.header.stateCache c && select r then vtDecode r (read r) else v.header.reg r := by
  unfold dumpGroup
  split
  · next h => simp [h, copyRegisters]
  · next h => simp [h]

@[simp]
theorem dumpGroup_stateCache :
    (v.dumpGroup read c select).header.stateCache = v.header.stateCache := by
  unfold dumpGroup
  split <;> rfl

@[simp]
theorem dumpGroup_block : (v.dumpGroup read c select).block = v.block := by
  unfold dumpGroup
  split <;> rfl

/-- The blocks of a dump are those of the groups that it is to dump. -/
theorem writeback_dump :
    (nvcVtDumpVcpuState current v).writeback =
      (vtProtocol fixed).dump (v.dumpRead current) v.writeback := by
  have hstateCache : (nvcVtDumpVcpuState current v).header.stateCache = v.header.stateCache := by
    simp [nvcVtDumpVcpuState]
  have hblock : (nvcVtDumpVcpuState current v).block = v.block := by
    simp [nvcVtDumpVcpuState]
  have hreg : (nvcVtDumpVcpuState current v).header.reg =
      ((vtProtocol fixed).dump (v.dumpRead current) v.writeback).cache := by
    funext r
    unfold nvcVtDumpVcpuState
    simp only [dumpGroup_reg, dumpGroup_stateCache, Protocol.dump, vtProtocol, vtDumps,
      Protocol.inBlock, writeback, dumpRead, inMsrAuto, Register.inCrGroup, Register.inSrGroup,
      Register.inFsGs, Register.isDescriptorTable, Register.inLtGroup, Register.inScGroup,
      Register.inSeGroup]
    cases r with
    | gpr i => by_cases hi : i = 4 <;> simp [vtHome, hi]
    | seg name field => cases name <;> cases field <;> simp [vtHome]
    | _ => simp [vtHome]
  unfold writeback
  rw [hstateCache, hblock, hreg]
  rfl

end VtCustomVcpu

theorem nvcVtSwitchToGuestVcpu_eq {stack : VtInitialStack} {p : Processor} {host : VirtualCpu}
    {cvcpu : VtCustomVcpu} :
    nvcVtSwitchToGuestVcpu cpu fixed stack p host cvcpu =
      (p.enterGuest cpu Register.isVtLate cvcpu.header).map fun p' =>
        ((cvcpu.schedule stack).1, p', (host.saveRegisters vtSwitched p).saveExtended p,
          cvcpu.entered fixed stack) := rfl

/-- The vCPU after a switch to the host that raised no exception. -/
def VtCustomVcpu.exited (v : VtCustomVcpu) (xcr0 : Nat) (p : Processor) : VtCustomVcpu :=
  { v.saveGuest p with header := (v.saveGuest p).header.savedWith xcr0 p }

theorem nvcVtSwitchToHostVcpu_eq {p : Processor} {host : VirtualCpu} {cvcpu : VtCustomVcpu}
    (h : HostLoadable cpu host) :
    nvcVtSwitchToHostVcpu cpu p host cvcpu =
      some (p.loaded Register.isVtLate (host.reg .xcr0) host,
        cvcpu.exited (host.reg .xcr0) p) := by
  unfold nvcVtSwitchToHostVcpu
  dsimp only
  rw [leaveGuest_of_loadable h]
  rfl

theorem nvcVtSwitchToHostVcpu_eq_some {p p' : Processor} {host : VirtualCpu}
    {cvcpu cvcpu' : VtCustomVcpu} (h : nvcVtSwitchToHostVcpu cpu p host cvcpu = some (p', cvcpu')) :
    HostLoadable cpu host ∧ p' = p.loaded Register.isVtLate (host.reg .xcr0) host ∧
      cvcpu' = cvcpu.exited (host.reg .xcr0) p := by
  have hloadable : HostLoadable cpu host := by
    obtain ⟨⟨q, header⟩, hload, -⟩ := Option.map_eq_some_iff.mp h
    exact (leaveGuest_eq_some hload).1
  rw [nvcVtSwitchToHostVcpu_eq hloadable] at h
  obtain ⟨rfl, rfl⟩ := Prod.mk.inj (Option.some.inj h)
  exact ⟨hloadable, rfl, rfl⟩

theorem vtHome_gpr (h : vtHome r = .group .gpr) : r = .rsp ∨ r = .rip ∨ r = .rflags := by
  cases r with
  | gpr i =>
      by_cases hi : i = 4
      · exact .inl (congrArg Register.gpr hi)
      · simp [vtHome, hi] at h
  | seg name field => cases name <;> cases field <;> cases h
  | rip => exact .inr (.inl rfl)
  | rflags => exact .inr (.inr rfl)
  | _ => cases h

theorem vtDecode_of_cache (h : vtHome r = .cache) (value : Nat) :
    (vtProtocol fixed).stored r value = value := by
  simp [Protocol.stored, vtProtocol, h]

namespace VtSession

theorem Created.coherent (h : s.Created fixed) : s.Coherent fixed := by
  obtain ⟨hvalid, hfile⟩ := h
  refine ⟨fun r => ?_, fun r hr => ?_⟩
  · have hr := hfile r
    have hinBlock : (vtProtocol fixed).inBlock s.vcpu.writeback.valid r =
        decide (vtHome r = .block) := by
      unfold Protocol.inBlock vtProtocol
      dsimp only
      cases vtHome r with
      | cache => rfl
      | block => rfl
      | group c => exact hvalid c
    rw [hinBlock]
    cases hhome : vtHome r with
    | block =>
        rw [hhome] at hr
        exact hr
    | cache =>
        rw [hhome] at hr
        exact hr
    | group c =>
        rw [hhome] at hr
        exact hr
  · have hfile := hfile r
    rw [hr] at hfile
    exact hfile.1

theorem Coherent.edited {call : EditCall} (h : s.Coherent fixed)
    (hkept : VtEvent.Kept fixed s (.edit call)) :
    Coherent fixed ⟨s.vcpu.edited supportedSizeMax call, s.image.edited (vtProtocol fixed) call.edits⟩ :=
  by
  have hwriteback : (s.vcpu.edited supportedSizeMax call).writeback = _ :=
    VtCustomVcpu.writeback_edited
  refine ⟨?_, fun r hr => ?_⟩
  · dsimp only
    rw [hwriteback]
    exact h.stands.edited hkept
  · refine (congrFun (congrArg State.cache hwriteback) r).trans ?_
    exact congrArg (lastWrite call.edits r).getD (h.saved r hr)

theorem Coherent.dump {current : Vmcs} (h : s.Coherent fixed) :
    Coherent fixed { s with vcpu := nvcVtDumpVcpuState current s.vcpu } := by
  have hwriteback : (nvcVtDumpVcpuState current s.vcpu).writeback =
      (vtProtocol fixed).dump (s.vcpu.dumpRead current) s.vcpu.writeback :=
    VtCustomVcpu.writeback_dump
  refine ⟨?_, fun r hr => ?_⟩
  · dsimp only
    rw [hwriteback]
    exact h.stands.dump
  · refine (congrFun (congrArg State.cache hwriteback) r).trans ?_
    have hdumps : (vtProtocol fixed).dumps r = false := by simp [vtProtocol, vtDumps, hr]
    exact (dump_cache_of_not_dumps hdumps).trans (h.saved r hr)

/-- After an exit every register of the control block is looked for there. -/
theorem exited_coherent {exited : VtCustomVcpu} {exit : Processor} {xcr0 : Nat}
    (hvalid : ∀ c, vtLoadsGroup c = true → exited.header.stateCache c = true) :
    Coherent fixed ⟨exited.exited xcr0 exit, vtExitImage exit exited⟩ := by
  have hreg (r : Register) : (exited.exited xcr0 exit).header.reg r =
      if vtSwitched r then exited.exitRegisters exit r
      else if r == .rip || r == .rflags then exited.vmcs (.guest r) else exited.header.reg r := rfl
  refine ⟨fun r => ?_, fun r hr => ?_⟩
  · cases hhome : vtHome r with
    | cache =>
        have hinBlock : (vtProtocol fixed).inBlock (exited.exited xcr0 exit).writeback.valid r =
            false := by simp [Protocol.inBlock, vtProtocol, hhome]
        rw [hinBlock, if_neg Bool.false_ne_true, vtDecode_of_cache hhome]
        have hseen : (vtExitImage exit exited).seen r = vtHeld exit exited r := by
          simp [vtExitImage, hhome]
        refine ⟨?_, hseen⟩
        rw [hseen]
        refine (hreg r).trans ?_
        simp only [vtHeld, hhome]
        split
        · refine copyRegisters_of_not_selected (beq_eq_false_iff_ne.mpr fun hrsp => ?_)
          subst hrsp
          cases hhome
        · split
          · next hsaved =>
              obtain hrip | hrflags := Bool.or_eq_true_iff.mp hsaved
              · cases beq_iff_eq.mp hrip
                cases hhome
              · cases beq_iff_eq.mp hrflags
                cases hhome
          · rfl
    | block =>
        have hinBlock : (vtProtocol fixed).inBlock (exited.exited xcr0 exit).writeback.valid r =
            true := by simp [Protocol.inBlock, vtProtocol, hhome]
        rw [if_pos hinBlock]
        simp only [vtExitImage, vtHeld, hhome]
        exact ⟨rfl, rfl⟩
    | group c =>
        have hloads : vtLoadsGroup c = true := by
          cases r with
          | gpr i =>
              by_cases hi : i = 4
              · subst hi
                cases hhome
                rfl
              · simp [vtHome, hi] at hhome
          | seg name field => cases name <;> cases field <;> cases hhome <;> rfl
          | _ => cases hhome <;> rfl
        have hinBlock : (vtProtocol fixed).inBlock (exited.exited xcr0 exit).writeback.valid r =
            true := by
          simp only [Protocol.inBlock, vtProtocol, hhome]
          exact hvalid c hloads
        rw [if_pos hinBlock]
        simp only [vtExitImage, vtHeld, hhome]
        exact ⟨rfl, rfl⟩
  · refine (hreg r).trans ?_
    obtain rfl | rfl | rfl := vtHome_gpr hr <;> rfl

theorem coherent_of_run {stack : VtInitialStack} {p exit : Processor} {host : VirtualCpu}
    {exited : VtCustomVcpu}
    (htakes : VtEvent.Takes cpu fixed supportedSizeMax s (.run stack p host exit exited) s') :
    s'.Coherent fixed := by
  obtain ⟨stack', p', host', entered, left, henter, hstateCache, hexit, himage⟩ := htakes
  rw [nvcVtSwitchToGuestVcpu_eq] at henter
  obtain ⟨q, -, heq⟩ := Option.map_eq_some_iff.mp henter
  obtain ⟨-, -, rfl, rfl⟩ := by simpa only [Prod.mk.injEq] using heq
  obtain ⟨-, -, hvcpu⟩ := nvcVtSwitchToHostVcpu_eq_some hexit
  have hs' : s' = ⟨exited.exited (p.reg .xcr0) exit, vtExitImage exit exited⟩ := by
    rw [← himage]
    exact congrArg (VtSession.mk · s'.image) hvcpu
  rw [hs']
  refine exited_coherent fun c hloads => ?_
  have hentered : (s.vcpu.entered fixed stack).writeback = _ := VtCustomVcpu.writeback_entered
  rw [hstateCache]
  refine (congrFun (congrArg State.valid hentered) c).trans ?_
  simp [Protocol.load, vtProtocol, hloads]

theorem Coherent.step {e : VtEvent} (h : s.Coherent fixed) (hkept : e.Kept fixed s)
    (htakes : e.Takes cpu fixed supportedSizeMax s s') : s'.Coherent fixed := by
  cases e with
  | edit call =>
      cases htakes
      exact h.edited hkept
  | run stack p host exit exited => exact coherent_of_run htakes
  | dump current =>
      cases htakes
      exact h.dump

theorem Coherent.held_of_cache (h : s.Coherent fixed) (hhome : vtHome r = .cache) :
    s.vcpu.header.reg r = s.image.held r := by
  have hinBlock : (vtProtocol fixed).inBlock s.vcpu.writeback.valid r = false := by
    simp [Protocol.inBlock, vtProtocol, hhome]
  obtain ⟨hseen, hheld⟩ := h.stands.of_not_inBlock hinBlock
  rw [vtDecode_of_cache hhome] at hheld
  exact hseen.trans hheld

theorem inBlock_of_group {valid : StateCache → Bool} (hhome : vtHome r = .group c) :
    (vtProtocol fixed).inBlock valid r = valid c := by
  simp [Protocol.inBlock, vtProtocol, hhome]

/-- Kernel-GS-Base is where it should be if its group is valid, or if the list has the value of the
structure. -/
theorem Coherent.gsswap_iff (h : s.Coherent fixed) :
    s.vcpu.block .gsswap = s.image.held .gsswap ↔
      (s.vcpu.header.stateCache .fg = false →
        s.vcpu.msrAuto .gsswap = s.vcpu.header.reg .gsswap) := by
  have hblock : s.vcpu.block .gsswap = s.vcpu.msrAuto .gsswap := rfl
  have hhome : vtHome .gsswap = .group .fg := rfl
  rw [hblock]
  cases hfg : s.vcpu.header.stateCache .fg with
  | true =>
      have hheld := (h.stands.of_inBlock ((inBlock_of_group hhome).trans hfg)).1
      exact ⟨fun _ hnot => (nomatch hnot), fun _ => hheld⟩
  | false =>
      obtain ⟨hseen, hheld⟩ := h.stands.of_not_inBlock ((inBlock_of_group hhome).trans hfg)
      have hheld : s.vcpu.header.reg .gsswap = s.image.held .gsswap :=
        hseen.trans hheld
      rw [hheld]
      simp

theorem vtLoads_of_ne_gsswap (hgroup : vtHome r = .group c) (hr : r ≠ .gsswap) :
    vtLoads r = true := by
  simp [vtLoads, hgroup, hr]

theorem Coherent.startHolds_iff {stack : VtInitialStack} {p : Processor} {host : VirtualCpu}
    (h : s.Coherent fixed) : s.StartHolds cpu fixed stack p host ↔ s.StartKept cpu p := by
  have hload : (s.vcpu.entered fixed stack).writeback = _ := VtCustomVcpu.writeback_entered
  have hblock (r : Register) : (s.vcpu.entered fixed stack).block r =
      ((vtProtocol fixed).load s.vcpu.writeback).block r :=
    congrFun (congrArg State.block hload) r
  have hgsswap : (s.vcpu.entered fixed stack).block .gsswap = s.vcpu.block .gsswap := hblock .gsswap
  constructor
  · intro ⟨stack', p', host', entered, hrun, hheld⟩
    rw [nvcVtSwitchToGuestVcpu_eq] at hrun
    obtain ⟨q, henter, heq⟩ := Option.map_eq_some_iff.mp hrun
    obtain ⟨-, -, -, rfl⟩ := by simpa only [Prod.mk.injEq] using heq
    exact ⟨(enterGuest_eq_some henter).1, h.gsswap_iff.mp (hgsswap.symm.trans (hheld .gsswap))⟩
  · intro ⟨hloadable, hkept⟩
    have hrun : nvcVtSwitchToGuestVcpu cpu fixed stack p host s.vcpu = _ :=
      nvcVtSwitchToGuestVcpu_eq
    rw [enterGuest_of_loadable hloadable] at hrun
    refine ⟨_, _, _, _, hrun, fun r => ?_⟩
    unfold vtHeld
    cases hhome : vtHome r with
    | cache =>
        dsimp only
        split
        · next hswitched =>
            exact (copyRegisters_of_selected hswitched).trans (h.held_of_cache hhome)
        · exact (congrFun (congrArg State.cache hload) r).trans (h.held_of_cache hhome)
    | block =>
        refine (hblock r).trans (h.stands.block_load (by simp [vtProtocol, hhome]) fun hin => ?_)
        simp [Protocol.inBlock, vtProtocol, hhome] at hin
    | group c =>
        by_cases hr : r = .gsswap
        · subst hr
          exact hgsswap.trans (h.gsswap_iff.mpr hkept)
        · refine (hblock r).trans (h.stands.block_load (by simp [vtProtocol, hhome]) fun _ hloads => ?_)
          exact absurd ((vtLoads_of_ne_gsswap hhome hr).symm.trans hloads) (by decide)

theorem dumpRead_of_vmcs {v : VtCustomVcpu} {current : Vmcs} (hlist : inMsrAuto r = false) :
    v.dumpRead current r = current (.guest r) := by
  rw [VtCustomVcpu.dumpRead, hlist, if_neg Bool.false_ne_true]

theorem block_of_vmcs {v : VtCustomVcpu} (hlist : inMsrAuto r = false) :
    v.writeback.block r = v.vmcs (.guest r) := by
  have hblock : v.writeback.block r = if inMsrAuto r then v.msrAuto r else v.vmcs (.guest r) := rfl
  rw [hblock, hlist, if_neg Bool.false_ne_true]

theorem Coherent.dumpHolds_iff {current : Vmcs} (h : s.Coherent fixed) :
    s.DumpHolds current ↔ s.DumpKept fixed current := by
  have hcache (r : Register) : (nvcVtDumpVcpuState current s.vcpu).header.reg r =
      ((vtProtocol fixed).dump (s.vcpu.dumpRead current) s.vcpu.writeback).cache r :=
    congrFun (congrArg State.cache VtCustomVcpu.writeback_dump) r
  have hshown (r : Register) : (nvcVtDumpVcpuState current s.vcpu).header.reg r = s.image.seen r ↔ _ :=
    hcache r ▸ h.stands.cache_dump
  constructor
  · intro hholds
    refine ⟨fun r c hhome hdumps hlist hvalid => ?_, fun r _ hdumps hin => ?_⟩
    · have hread := (hshown r).mp (hholds r) ((inBlock_of_group hhome).trans hvalid)
      rw [if_pos (show (vtProtocol fixed).dumps r = true from hdumps), dumpRead_of_vmcs hlist,
        block_of_vmcs hlist] at hread
      exact hread
    · have hread := (hshown r).mp (hholds r) hin
      rw [show (vtProtocol fixed).dumps r = false from hdumps, if_neg Bool.false_ne_true] at hread
      exact hread
  · intro hkept r
    by_cases hgpr : vtHome r = .group .gpr
    · have hdumps : (vtProtocol fixed).dumps r = false := by simp [vtProtocol, vtDumps, hgpr]
      rw [hcache, dump_cache_of_not_dumps hdumps]
      exact h.saved r hgpr
    · refine (hshown r).mpr fun hin => ?_
      split
      · next hdumps =>
          by_cases hlist : inMsrAuto r = true
          · simp [VtCustomVcpu.dumpRead, VtCustomVcpu.writeback, VtCustomVcpu.block, hlist]
          · have hlist := Bool.eq_false_iff.mpr hlist
            cases hhome : vtHome r with
            | group c =>
                rw [dumpRead_of_vmcs hlist, block_of_vmcs hlist]
                exact hkept.current r c hhome hdumps hlist ((inBlock_of_group hhome).symm.trans hin)
            | _ => simp [vtProtocol, vtDumps, hhome] at hdumps
      · next hdumps => exact hkept.rest r hgpr (Bool.eq_false_iff.mpr hdumps) hin

end VtSession

theorem VtReachable.coherent
    (h : VtReachable cpu fixed supportedSizeMax (VtEvent.Kept fixed) s) : s.Coherent fixed :=
  h.invariant (fun _ => VtSession.Created.coherent) fun _ _ _ hs ⟨_, hkept, htakes⟩ =>
    hs.step hkept htakes

end Steps

/-- In every run whose edits lose nothing, a start of the guest and a dump are right exactly under their
conditions. -/
theorem VtReachable.holds_iff {cpu : Xsave.Features} {fixed : VmxFixedBits} {supportedSizeMax : Nat}
    {s : VtSession} (h : VtReachable cpu fixed supportedSizeMax (VtEvent.Kept fixed) s) :
    (∀ stack p host, s.StartHolds cpu fixed stack p host ↔ s.StartKept cpu p) ∧
      ∀ current, s.DumpHolds current ↔ s.DumpKept fixed current :=
  ⟨fun _ _ _ => h.coherent.startHolds_iff, fun _ => h.coherent.dumpHolds_iff⟩

/-! A guest that changes CR3 in its first run, and a dump after it. -/

def anyFixedBits : VmxFixedBits := ⟨0, 2 ^ 64 - 1, 0, 2 ^ 64 - 1⟩

def newVtVcpu : VtCustomVcpu where
  header := { zeroVirtualCpu with stateCache := fun _ => false }
  vmcs _ := 0
  msrAuto _ := 0
  procId := 0xFFFFFFFF

def newVtSession : VtSession := ⟨newVtVcpu, fun _ => 0, fun _ => 0⟩

theorem newVtSession_created : newVtSession.Created anyFixedBits := by
  have hdecode (r : Register) : vtDecode r 0 = 0 := by
    cases r with
    | seg name field => cases field <;> rfl
    | _ => rfl
  have hencode (r : Register) : vtEncode anyFixedBits r 0 = 0 := by
    cases r with
    | cr0 | cr4 => decide
    | _ => rfl
  refine ⟨fun _ => rfl, fun r => ?_⟩
  split
  · exact ⟨by simp [newVtSession, newVtVcpu, VtCustomVcpu.block], hdecode r⟩
  · refine ⟨rfl, ?_⟩
    unfold Protocol.stored
    split
    · rfl
    · exact hencode r

def pagingVtGuest : VtCustomVcpu :=
  { newVtVcpu.entered anyFixedBits ⟨0, false⟩ with
    vmcs := Function.update (newVtVcpu.entered anyFixedBits ⟨0, false⟩).vmcs (.guest .cr3) 0x1000 }

def pagingVtRun : VtEvent := .run ⟨0, false⟩ zeroProcessor zeroVirtualCpu zeroProcessor pagingVtGuest

def pagingVtSession : VtSession :=
  ⟨pagingVtGuest.exited 0 zeroProcessor, vtExitImage zeroProcessor pagingVtGuest⟩

theorem pagingVtRun_takes : pagingVtRun.Takes anyFeatures anyFixedBits 0 newVtSession pagingVtSession := by
  have henter : nvcVtSwitchToGuestVcpu anyFeatures anyFixedBits ⟨0, false⟩ zeroProcessor
      zeroVirtualCpu newVtVcpu = _ := nvcVtSwitchToGuestVcpu_eq
  rw [enterGuest_of_loadable ⟨⟨fun c h => absurd h Bool.false_ne_true, fun _ => rfl⟩, rfl⟩] at henter
  have hloadable : HostLoadable anyFeatures
      ((zeroVirtualCpu.saveRegisters vtSwitched zeroProcessor).saveExtended zeroProcessor) :=
    saved_loadable rfl rfl rfl fun c h => absurd h Bool.false_ne_true
  exact ⟨_, _, _, _, _, henter, rfl, nvcVtSwitchToHostVcpu_eq hloadable, rfl⟩

theorem pagingVtSession_holds_iff :
    (∀ stack p host, pagingVtSession.StartHolds anyFeatures anyFixedBits stack p host ↔
        pagingVtSession.StartKept anyFeatures p) ∧
      ∀ current, pagingVtSession.DumpHolds current ↔
        pagingVtSession.DumpKept anyFixedBits current :=
  have hreachable : VtReachable anyFeatures anyFixedBits 0 (VtEvent.Kept anyFixedBits)
      pagingVtSession :=
    .step (.start newVtSession_created) ⟨pagingVtRun, trivial, pagingVtRun_takes⟩
  VtReachable.holds_iff hreachable

/-- The VMCS of the host, where the dump reads another CR3. -/
def hostVmcs : Vmcs := fun f => if f = .guest .cr3 then 0x2000 else 0

theorem not_forall_vtCoherent :
    ¬∀ (cpu : Xsave.Features) (fixed : VmxFixedBits) (supportedSizeMax : Nat) (s : VtSession),
      VtReachable cpu fixed supportedSizeMax (fun _ _ => True) s →
        (∀ stack p host, GuestLoadable cpu s.vcpu.header p →
          s.StartHolds cpu fixed stack p host) ∧ ∀ current, s.DumpHolds current := by
  intro h
  have hholds := h anyFeatures anyFixedBits 0 pagingVtSession
    (.step (.start newVtSession_created) ⟨pagingVtRun, trivial, pagingVtRun_takes⟩)
  have hcr3 : 0x2000 = 0x1000 := hholds.2 hostVmcs .cr3
  exact absurd hcr3 (by decide)

end NoirVisor
