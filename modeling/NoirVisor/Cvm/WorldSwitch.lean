import NoirVisor.Cvm.SvmViews
import NoirVisor.Cvm.VtRuns
import NoirVisor.Cvm.Worlds

/-!
# World switches on SVM and on VT

Both cores switch worlds in the way that `Cvm.Worlds` needs, so that the contexts are preserved on
both under the same conditions.
-/

namespace NoirVisor

open Writeback

/-- A vCPU on SVM, where RAX, RSP and CR2 are in the VMCB. -/
def svmCore (procId : Nat) : Core SvmCustomVcpu where
  late := Register.isAddressBreakpoint
  header := SvmCustomVcpu.header
  enter cpu p host v := nvcSvmSwitchToGuestVcpu cpu procId p host v
  leave cpu p host v := nvcSvmSwitchToHostVcpu cpu p host v
  edit supportedSizeMax call v := v.edited supportedSizeMax [call]
  executes := SvmGuestExecutes
  covers r := svmSwitched r || r == .cr2
  held := svmHeld
  next v := v.protocol.next v.writeback
  keeps call v := ∀ r, (svmSwitched r || r == .cr2) = true →
    KeepsAt v.protocol call.edits v.writeback r
  plain v := v.nsvGuest = false
  ready v := v.header.stateCache .gpr = true ∧ v.header.stateCache .cr2 = true

/-- A vCPU on VT, where RSP is in the VMCS. -/
def vtCore (fixed : VmxFixedBits) (stack : VtInitialStack) : Core VtCustomVcpu where
  late := Register.isVtLate
  header := VtCustomVcpu.header
  enter cpu p host v := (nvcVtSwitchToGuestVcpu cpu fixed stack p host v).map (·.2)
  leave cpu p host v := nvcVtSwitchToHostVcpu cpu p host v
  edit supportedSizeMax call v := v.edited supportedSizeMax call
  executes v v' := v'.header.stateCache = v.header.stateCache ∧
    v'.header.xsaveArea = v.header.xsaveArea
  covers := vtSwitched
  held := vtHeld
  next v := (vtProtocol fixed).next v.writeback
  keeps call v := ∀ r, vtSwitched r = true → KeepsAt (vtProtocol fixed) call.edits v.writeback r
  plain _ := True
  ready v := v.header.stateCache .gpr = true

section Lawful

variable {r : Register} {supportedSizeMax : Nat} {call : EditCall}

/-- A register that the switch takes care of is in the structure, or in a group that is valid while
the guest runs. -/
theorem svmHome_of_covers (h : (svmSwitched r || r == .cr2) = true) :
    svmHome r = .cache ∧ svmSwitched r = true ∧ (r == .rax || r == .rsp) = false ∨
      svmHome r = .group .gpr ∨ svmHome r = .group .cr2 := by
  cases r with
  | gpr i =>
      by_cases hi : i = 0 ∨ i = 4
      · exact .inr (.inl (if_pos hi))
      · refine .inl ⟨if_neg hi, rfl, ?_⟩
        simpa [Register.rax, Register.rsp] using hi
  | dr i => exact .inl ⟨rfl, rfl, rfl⟩
  | xcr0 => exact .inl ⟨rfl, rfl, rfl⟩
  | cr2 => exact .inr (.inr rfl)
  | seg name field => exact absurd h Bool.false_ne_true
  | _ => exact absurd h (by decide)

theorem svmEncode_of_covers (h : (svmSwitched r || r == .cr2) = true) (value : Nat) :
    svmEncode r value = value := by
  cases r with
  | seg name field => exact absurd h Bool.false_ne_true
  | cr8 | efer => exact absurd h (by decide)
  | _ => rfl

namespace SvmCustomVcpu

variable {v : SvmCustomVcpu}

theorem writeback_edited :
    (v.edited supportedSizeMax [call]).writeback = v.writeback.edited call.edits := by
  rw [← EditCalls.edits_singleton]
  unfold SvmCustomVcpu.edited writeback State.edited
  refine congr (congrArg (State.mk · _) (funext fun r => ?_)) (funext fun c => ?_)
  · exact EditCalls.run_reg supportedSizeMax r
  · exact EditCalls.run_stateCache c

end SvmCustomVcpu

theorem svmHeld_entered {procId : Nat} {p : Processor} {v : SvmCustomVcpu}
    (hr : (svmSwitched r || r == .cr2) = true) :
    svmHeld (p.loaded Register.isAddressBreakpoint (p.reg .xcr0) v.header) (v.entered procId) r =
      v.protocol.next v.writeback r := by
  have hblock {c : StateCache} (hhome : svmHome r = .group c) :
      svmHeld (p.loaded Register.isAddressBreakpoint (p.reg .xcr0) v.header) (v.entered procId) r =
        v.protocol.next v.writeback r := by
    have hcache : v.protocol.home r ≠ .cache := fun h => (nomatch hhome.symm.trans h)
    have hloads : svmLoads r = true := by rw [svmLoads, hhome]
    calc svmHeld _ (v.entered procId) r = (v.entered procId).vmcb.field (.guest r) := by
          rw [svmHeld, hhome]
      _ = (v.protocol.load v.writeback).block r := SvmCustomVcpu.entered_guest
      _ = v.protocol.next v.writeback r := block_load_eq_next hcache hloads
  obtain ⟨hhome, hswitched, -⟩ | hhome | hhome := svmHome_of_covers hr
  · have hcache : v.protocol.home r = .cache := hhome
    rw [next_of_cache hcache, svmHeld, hhome]
    dsimp only
    rw [if_pos hswitched]
    exact copyRegisters_of_selected hswitched
  · exact hblock hhome
  · exact hblock hhome

theorem next_svmExited {p : Processor} {v : SvmCustomVcpu} {xcr0 : Nat}
    (hready : v.header.stateCache .gpr = true ∧ v.header.stateCache .cr2 = true)
    (hr : (svmSwitched r || r == .cr2) = true) :
    (v.exited xcr0 p).protocol.next (v.exited xcr0 p).writeback r = svmHeld p v r := by
  have hblock {c : StateCache} (hhome : svmHome r = .group c) (hvalid : v.header.stateCache c = true) :
      (v.exited xcr0 p).protocol.next (v.exited xcr0 p).writeback r = svmHeld p v r := by
    have hinBlock : (v.exited xcr0 p).protocol.inBlock (v.exited xcr0 p).writeback.valid r = true := by
      simp only [SvmCustomVcpu.protocol, svmProtocol, Protocol.inBlock, hhome]
      exact hvalid
    rw [Protocol.next, if_pos hinBlock, svmHeld, hhome]
    rfl
  obtain ⟨hhome, hswitched, hframe⟩ | hhome | hhome := svmHome_of_covers hr
  · have hcache : (v.exited xcr0 p).protocol.home r = .cache := hhome
    calc (v.exited xcr0 p).protocol.next (v.exited xcr0 p).writeback r
        = (v.exited xcr0 p).header.reg r := next_of_cache hcache
      _ = v.exitRegisters p r := if_pos hswitched
      _ = p.reg r := copyRegisters_of_not_selected hframe
      _ = svmHeld p v r := by simp only [svmHeld, hhome, hswitched, if_true]
  · exact hblock hhome hready.1
  · exact hblock hhome hready.2

theorem svmCore_lawful (procId : Nat) : (svmCore procId).Lawful where
  enter_eq cpu p host v hplain :=
    ⟨v.entered procId, nvcSvmSwitchToGuestVcpu_eq hplain,
      (congrArg Prod.fst SvmCustomVcpu.entered_frame).trans hplain,
      ⟨SvmCustomVcpu.entered_valid rfl, SvmCustomVcpu.entered_valid rfl⟩,
      congrArg Prod.snd SvmCustomVcpu.entered_frame, fun r hr => svmHeld_entered hr⟩
  leave_eq cpu p host v hplain hready := by
    refine ⟨v.exited (host.reg .xcr0) p, ?_, hplain, rfl, fun r hr => next_svmExited hready hr⟩
    dsimp only [svmCore, nvcSvmSwitchToHostVcpu]
    rw [show v.nsvGuest = false from hplain, if_neg Bool.false_ne_true,
      @leaveGuest_eq_map cpu _ host _ v.header p, Option.map_map]
    rfl
  executes_plain _ _ h hplain := h.nsvGuest.trans hplain
  executes_ready _ _ h hready := by
    dsimp only [svmCore] at hready ⊢
    rwa [h.stateCache]
  edit_plain _ _ _ hplain := hplain
  edit_area _ _ _ := edited_xsaveArea
  edit_next size call v r hkeeps hr := by
    have hwriteback : (v.edited size [call]).writeback = v.writeback.edited call.edits :=
      SvmCustomVcpu.writeback_edited
    have hstored (value : Nat) : v.protocol.stored r value = value := by
      unfold Protocol.stored
      split
      · rfl
      · exact svmEncode_of_covers hr value
    dsimp only [svmCore] at hkeeps hr ⊢
    rw [hwriteback]
    refine (next_edited (hkeeps r hr)).trans ?_
    cases lastWrite call.edits r with
    | none => rfl
    | some value => exact hstored value

theorem vtHome_of_covers (h : vtSwitched r = true) :
    vtHome r = .cache ∧ (r == .rsp) = false ∨ vtHome r = .group .gpr ∧ vtLoads r = true := by
  cases r with
  | gpr i =>
      by_cases hi : i = 4
      · subst hi
        exact .inr ⟨rfl, rfl⟩
      · refine .inl ⟨if_neg hi, ?_⟩
        simpa [Register.rsp] using hi
  | dr i => exact .inl ⟨rfl, rfl⟩
  | xcr0 | cr2 | dr6 => exact .inl ⟨rfl, rfl⟩
  | seg name field => exact absurd h Bool.false_ne_true
  | _ => exact absurd h (by decide)

theorem vtEncode_of_covers (fixed : VmxFixedBits) (h : vtSwitched r = true) (value : Nat) :
    vtEncode fixed r value = value := by
  cases r with
  | cr0 | cr4 => exact absurd h Bool.false_ne_true
  | _ => rfl

namespace VtCustomVcpu

variable {v : VtCustomVcpu} {fixed : VmxFixedBits} {c : StateCache} {select : Register → Bool}

theorem loadGroup_xsaveArea : (v.loadGroup fixed c select).header.xsaveArea = v.header.xsaveArea := by
  unfold loadGroup
  split <;> rfl

theorem loadControlRegisters_xsaveArea :
    (v.loadControlRegisters fixed).header.xsaveArea = v.header.xsaveArea := by
  unfold loadControlRegisters
  split
  · rfl
  · exact loadGroup_xsaveArea

theorem loadEfer_xsaveArea : (v.loadEfer fixed).header.xsaveArea = v.header.xsaveArea := by
  unfold loadEfer
  split
  · rfl
  · exact loadGroup_xsaveArea

theorem loadSyscallMsrs_xsaveArea : v.loadSyscallMsrs.header.xsaveArea = v.header.xsaveArea := by
  unfold loadSyscallMsrs
  split <;> rfl

theorem setEventInjection_xsaveArea :
    v.setEventInjection.header.xsaveArea = v.header.xsaveArea := by
  unfold setEventInjection
  dsimp only
  repeat' split
  all_goals rfl

theorem entered_xsaveArea {stack : VtInitialStack} :
    (v.entered fixed stack).header.xsaveArea = v.header.xsaveArea := by
  have hschedule : (v.schedule stack).2.header = v.header := by
    unfold schedule
    split <;> rfl
  unfold entered
  simp only [setEventInjection_xsaveArea, loadVmcs, loadSyscallMsrs_xsaveArea, loadGroup_xsaveArea,
    loadEfer_xsaveArea, loadControlRegisters_xsaveArea, hschedule]

end VtCustomVcpu

theorem vtHeld_entered {fixed : VmxFixedBits} {stack : VtInitialStack} {p : Processor}
    {v : VtCustomVcpu} (hr : vtSwitched r = true) :
    vtHeld (p.loaded Register.isVtLate (p.reg .xcr0) v.header) (v.entered fixed stack) r =
      (vtProtocol fixed).next v.writeback r := by
  obtain ⟨hhome, -⟩ | ⟨hhome, hloads⟩ := vtHome_of_covers hr
  · have hcache : (vtProtocol fixed).home r = .cache := hhome
    rw [next_of_cache hcache, vtHeld, hhome]
    dsimp only
    rw [if_pos hr]
    exact copyRegisters_of_selected hr
  · have hcache : (vtProtocol fixed).home r ≠ .cache := fun h => by cases hhome.symm.trans h
    have hload : (v.entered fixed stack).writeback = (vtProtocol fixed).load v.writeback :=
      VtCustomVcpu.writeback_entered
    calc vtHeld _ (v.entered fixed stack) r = (v.entered fixed stack).block r := by
          rw [vtHeld, hhome]
      _ = ((vtProtocol fixed).load v.writeback).block r := congrFun (congrArg State.block hload) r
      _ = (vtProtocol fixed).next v.writeback r := block_load_eq_next hcache hloads

theorem next_vtExited {fixed : VmxFixedBits} {p : Processor} {v : VtCustomVcpu} {xcr0 : Nat}
    (hready : v.header.stateCache .gpr = true) (hr : vtSwitched r = true) :
    (vtProtocol fixed).next (v.exited xcr0 p).writeback r = vtHeld p v r := by
  obtain ⟨hhome, hframe⟩ | ⟨hhome, -⟩ := vtHome_of_covers hr
  · have hcache : (vtProtocol fixed).home r = .cache := hhome
    calc (vtProtocol fixed).next (v.exited xcr0 p).writeback r
        = (v.exited xcr0 p).header.reg r := next_of_cache hcache
      _ = v.exitRegisters p r := if_pos hr
      _ = p.reg r := copyRegisters_of_not_selected hframe
      _ = vtHeld p v r := by simp only [vtHeld, hhome, hr, if_true]
  · have hinBlock : (vtProtocol fixed).inBlock (v.exited xcr0 p).writeback.valid r = true := by
      simp only [vtProtocol, Protocol.inBlock, hhome]
      exact hready
    rw [Protocol.next, if_pos hinBlock, vtHeld, hhome]
    rfl

theorem vtCore_lawful (fixed : VmxFixedBits) (stack : VtInitialStack) :
    (vtCore fixed stack).Lawful where
  enter_eq cpu p host v _ := by
    refine ⟨v.entered fixed stack, ?_, trivial, ?_, VtCustomVcpu.entered_xsaveArea,
      fun r hr => vtHeld_entered hr⟩
    · dsimp only [vtCore]
      rw [nvcVtSwitchToGuestVcpu_eq, Option.map_map]
      rfl
    · have hload : (v.entered fixed stack).writeback = (vtProtocol fixed).load v.writeback :=
        VtCustomVcpu.writeback_entered
      exact (congrFun (congrArg State.valid hload) .gpr).trans (Bool.or_true _)
  leave_eq cpu p host v _ hready := by
    refine ⟨v.exited (host.reg .xcr0) p, ?_, trivial, rfl, fun r hr => next_vtExited hready hr⟩
    dsimp only [vtCore, nvcVtSwitchToHostVcpu]
    rw [@leaveGuest_eq_map cpu _ host _ v.header p, Option.map_map]
    rfl
  executes_plain _ _ _ _ := trivial
  executes_ready _ _ h hready := by
    dsimp only [vtCore] at hready ⊢
    rwa [h.1]
  edit_plain _ _ _ _ := trivial
  edit_area _ _ _ := by
    dsimp only [vtCore, VtCustomVcpu.edited]
    rw [EditCalls.run_eq]
  edit_next size call v r hkeeps hr := by
    have hwriteback : (v.edited size call).writeback = v.writeback.edited call.edits :=
      VtCustomVcpu.writeback_edited
    have hstored (value : Nat) : (vtProtocol fixed).stored r value = value := by
      unfold Protocol.stored
      split
      · rfl
      · exact vtEncode_of_covers fixed hr value
    dsimp only [vtCore] at hkeeps hr ⊢
    rw [hwriteback]
    refine (next_edited (hkeeps r hr)).trans ?_
    cases lastWrite call.edits r with
    | none => rfl
    | some value => exact hstored value

end Lawful

/-- On either core, in every run whose edits lose nothing and whose guests change no extended state
that the host has not enabled, the switches preserve the contexts exactly when no exception is raised
and that state is still what it was. -/
theorem worldSwitches_preserve_iff (cpu : Xsave.Features) (supportedSizeMax procId : Nat)
    (fixed : VmxFixedBits) (stack : VtInitialStack) :
    (∀ (ι : Type) [DecidableEq ι] (w : World ι SvmCustomVcpu),
      World.Reachable (svmCore procId) cpu supportedSizeMax
        (World.Kept (svmCore procId) supportedSizeMax) w →
      w.PreservedIff (svmCore procId) cpu) ∧
    ∀ (ι : Type) [DecidableEq ι] (w : World ι VtCustomVcpu),
      World.Reachable (vtCore fixed stack) cpu supportedSizeMax
        (World.Kept (vtCore fixed stack) supportedSizeMax) w →
      w.PreservedIff (vtCore fixed stack) cpu :=
  ⟨fun _ _ _ h => h.preservedIff (svmCore_lawful procId),
    fun _ _ _ h => h.preservedIff (vtCore_lawful fixed stack)⟩

/-! A guest that turns on AVX under a host that has only turned on x87 and SSE. -/

def avxFeatures : Xsave.Features where
  acceptsXcr0 value := value == 1 || value == 3 || value == 7
  acceptsMxcsr value := decide (value < 2 ^ 16)

def withXcr0 (xcr0 : Nat) : Register → Nat := fun r => if r = .xcr0 then xcr0 else 0

/-- The context of the vCPU is what the next entry gives it. -/
def startWorld {κ : Type} (core : Core κ) (v : κ) : World Unit κ where
  p := ⟨withXcr0 3, ⟨fun _ => 0, 0⟩⟩
  hostBlock _ := 0
  host := zeroVirtualCpu
  vcpu _ := v
  running := none
  hostContext := ⟨fun _ => 0, ⟨fun _ => 0, 0⟩⟩
  context _ := ⟨core.next v, ⟨(core.header v).xsaveArea.value, (core.header v).xsaveArea.mxcsr⟩⟩

theorem startWorld_start {κ : Type} {core : Core κ} {v : κ} (h : core.plain v) :
    (startWorld core v).Start core :=
  ⟨rfl, fun _ => h, fun _ => ⟨fun _ => rfl, rfl, rfl⟩⟩

def avxHeader : VirtualCpu := { zeroVirtualCpu with reg := withXcr0 1, stateCache := fun _ => false }

def avxSvmVcpu : SvmCustomVcpu := { newVcpu with header := avxHeader }

def avxVtVcpu : VtCustomVcpu := { newVtVcpu with header := avxHeader }

theorem startWorld_entryKept {κ : Type} {core : Core κ} {v : κ} (h : core.header v = avxHeader) :
    (startWorld core v).EntryKept core avxFeatures () where
  loadable := by
    dsimp only [startWorld]
    rw [h]
    exact ⟨⟨fun _ hbv => absurd hbv Bool.false_ne_true, fun _ => rfl⟩, rfl⟩
  components := by
    dsimp only [startWorld]
    rw [h]
    exact ⟨fun _ _ => rfl, fun _ => rfl⟩

theorem startWorld_preserves :
    (startWorld (svmCore 0) avxSvmVcpu).EntryPreserves (svmCore 0) avxFeatures () ∧
      (startWorld (vtCore anyFixedBits ⟨0, false⟩) avxVtVcpu).EntryPreserves
        (vtCore anyFixedBits ⟨0, false⟩) avxFeatures () := by
  have hswitches := worldSwitches_preserve_iff avxFeatures 0 0 anyFixedBits ⟨0, false⟩
  have hplain : (svmCore 0).plain avxSvmVcpu := rfl
  exact ⟨((hswitches.1 Unit _ (.start (startWorld_start hplain))).entry () rfl).mpr
      (startWorld_entryKept rfl),
    ((hswitches.2 Unit _ (.start (startWorld_start trivial))).entry () rfl).mpr
      (startWorld_entryKept rfl)⟩

/-- The host as it is kept while the guest runs. -/
def avxHost : VirtualCpu :=
  (zeroVirtualCpu.saveRegisters svmSwitched ⟨withXcr0 3, ⟨fun _ => 0, 0⟩⟩).saveExtended
    ⟨withXcr0 3, ⟨fun _ => 0, 0⟩⟩

/-- The guest has enabled AVX and written a register of it. -/
def avxGuest : Processor := ⟨withXcr0 7, ⟨fun c => if c = 2 then 5 else 0, 0⟩⟩

def enteredWorld : World Unit SvmCustomVcpu :=
  { startWorld (svmCore 0) avxSvmVcpu with
    p := (startWorld (svmCore 0) avxSvmVcpu).p.loaded Register.isAddressBreakpoint 3 avxHeader
    host := avxHost
    vcpu := Function.update (fun _ => avxSvmVcpu) () (avxSvmVcpu.entered 0)
    running := some ()
    hostContext := ⟨World.hostHeld (svmCore 0) (startWorld (svmCore 0) avxSvmVcpu),
      ⟨fun _ => 0, 0⟩⟩ }

/-- The exit marks the state as not synchronized. -/
def avxExit : SvmCustomVcpu := { avxSvmVcpu.entered 0 with header.synchronized := false }

def avxWorld : World Unit SvmCustomVcpu :=
  { enteredWorld with
    p := avxGuest
    vcpu := Function.update enteredWorld.vcpu () avxExit }

theorem avxWorld_reachable {condition : World Unit SvmCustomVcpu → WorldEvent Unit SvmCustomVcpu → Prop}
    (henter : ∀ w i, condition w (.enter i)) (hguest : ∀ w p v, condition w (.guest p v)) :
    World.Reachable (svmCore 0) avxFeatures 0 condition avxWorld := by
  have hplain : (svmCore 0).plain avxSvmVcpu := rfl
  have hload : nvcSvmSwitchToGuestVcpu avxFeatures 0 (startWorld (svmCore 0) avxSvmVcpu).p
      zeroVirtualCpu avxSvmVcpu = _ := nvcSvmSwitchToGuestVcpu_eq rfl
  have hkept : (startWorld (svmCore 0) avxSvmVcpu).EntryKept (svmCore 0) avxFeatures () :=
    startWorld_entryKept rfl
  have hloadable : GuestLoadable avxFeatures avxSvmVcpu.header (startWorld (svmCore 0) avxSvmVcpu).p :=
    hkept.loadable
  rw [enterGuest_of_loadable hloadable] at hload
  have hentered : World.Takes (svmCore 0) avxFeatures 0 (startWorld (svmCore 0) avxSvmVcpu)
      (.enter ()) enteredWorld := ⟨rfl, _, _, _, hload, rfl⟩
  have hruns : World.Takes (svmCore 0) avxFeatures 0 enteredWorld (.guest avxGuest avxExit) avxWorld :=
    ⟨(), rfl, ⟨rfl, rfl, rfl, rfl⟩, rfl⟩
  exact .step (.step (.start (startWorld_start hplain)) ⟨.enter (), henter _ _, hentered⟩)
    ⟨.guest avxGuest avxExit, hguest _ _ _, hruns⟩

/-- The return raises no exception, but the host finds the AVX registers of the guest. -/
theorem not_forall_returnPreserves :
    ¬∀ (ι : Type) [DecidableEq ι] (w : World ι SvmCustomVcpu),
      World.Reachable (svmCore 0) avxFeatures 0 (fun _ _ => True) w →
        ∀ i, w.running = some i → HostLoadable avxFeatures w.host →
          w.ReturnPreserves (svmCore 0) avxFeatures i := by
  intro h
  have hloadable : HostLoadable avxFeatures avxWorld.host := by
    have hinitial (c : Fin 63) : avxHost.xsaveArea.xstateBv c = false := by
      simp [avxHost, VirtualCpu.saveExtended, VirtualCpu.saveRegisters, Processor.xsave, Xsave.save,
        zeroVirtualCpu, zeroArea]
    exact ⟨⟨fun c hbv => absurd ((hinitial c).symm.trans hbv) Bool.false_ne_true, fun _ => rfl⟩, rfl⟩
  have hreturns := h Unit avxWorld (avxWorld_reachable (fun _ _ => trivial) fun _ _ _ => trivial) ()
    rfl hloadable
  have hcoherent : avxWorld.Coherent (svmCore 0) :=
    World.Reachable.coherent (svmCore_lawful 0)
      (avxWorld_reachable (fun _ _ => trivial) fun _ _ _ => trivial)
  have hkept := (hcoherent.returnPreserves_iff (svmCore_lawful 0) rfl).mp hreturns
  have hcomponent : (5 : Nat) = 0 := hkept.components.1 2 rfl
  exact absurd hcomponent (by decide)

end NoirVisor
