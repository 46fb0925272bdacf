import NoirVisor.Nested.Switch
import NoirVisor.Transition

/-!
# Hidden state

The state that `vmload` and `vmsave` cover is not part of a VMCB that is run. L1 and L2 share it, so it
has to go with every switch between what L1 runs on and the shadows.
-/

namespace NoirVisor

open Copying SvmVmcbOffset Transition

/-- `held` is the state of L1 when a shadow was last given it. -/
structure HiddenRun where
  vcpu : NestedVcpu
  held : BitVec 4 → Page

namespace HiddenRun

variable (ncr3 : BitVec 64) (s : HiddenRun)

/-- A `vmload` gives the state to all shadows, and an exit leaves L1 with that of one. -/
def step (e : NestedEvent) : HiddenRun where
  vcpu := s.vcpu.step ncr3 e
  held k :=
    match e with
    | .vmload rax =>
        if s.vcpu.Executes rax then (s.vcpu.step ncr3 e).vmcb else s.held k
    | .exit _ =>
        if s.vcpu.guestVmcb = some k ∧ (s.vcpu.step ncr3 e).guestVmcb = none then
          (s.vcpu.step ncr3 e).vmcb
        else s.held k
    | _ => s.held k

def Start : Prop := s.vcpu.guestVmcb = none ∧ ∀ k, s.held k = (s.vcpu.nodePool k).vmcbT

def Step (s s' : HiddenRun) : Prop := ∃ e, s.vcpu.Takes e ∧ s' = s.step ncr3 e

/-- L2 is entered with the state of L1, and L1 is returned to with the state of L2. -/
def Continuous (s' : NestedVcpu) : NestedEvent → Prop
  | .vmrun _ => ∀ k, s'.guestVmcb = some k →
      AgreeOn hiddenState (s'.nodePool k).vmcbT s.vcpu.vmcb
  | .exit _ => ∀ k, s.vcpu.guestVmcb = some k → s'.guestVmcb = none →
      AgreeOn hiddenState s'.vmcb (s.vcpu.nodePool k).vmcbT
  | _ => True

/-- L1 has the state that the shadow it enters was last given. -/
def Unchanged : NestedEvent → Prop
  | .vmrun rax => s.vcpu.Executes rax →
      AgreeOn hiddenState s.vcpu.vmcb (s.held (nvcSvmGetNestedVcpuNode rax))
  | _ => True

/-- A shadow that does not run is as it was given. -/
def Holds : Prop := ∀ k, s.vcpu.guestVmcb ≠ some k →
  AgreeOn hiddenState (s.vcpu.nodePool k).vmcbT (s.held k)

section

variable {ncr3 : BitVec 64} {s : HiddenRun} {k : BitVec 4} {rax : BitVec 64} {e : NestedEvent}

theorem copyEntered_hidden {clean : Bool} {vmcbC vmcbT : Page} :
    AgreeOn hiddenState (copyEntered ncr3 clean vmcbC vmcbT) vmcbT :=
  copyEntered_of_apart (by decide) (by decide) fun b => by cases b <;> decide

theorem exitedVmcb_hidden {vmcbT : Page} :
    AgreeOn hiddenState (NestedVcpu.exitedVmcb vmcbT) vmcbT := Page.vmwrite_agree (by decide)

theorem Holds.vmload (h : s.Holds) (hidle : s.vcpu.guestVmcb = none) :
    (s.step ncr3 (.vmload rax)).Holds := by
  intro k _
  by_cases hexec : s.vcpu.Executes rax
  · have hstep : (s.step ncr3 (.vmload rax)).vcpu = _ := NestedVcpu.withNestedVmcb_of_executes hexec
    have hheld : (s.step ncr3 (.vmload rax)).held k = (s.step ncr3 (.vmload rax)).vcpu.vmcb :=
      if_pos hexec
    rw [hheld, hstep]
    have hcopied : ∀ vmcb : Page, AgreeOn hiddenState (nvcSvmVmslHelper vmcb (s.vcpu.memory rax))
        (s.vcpu.memory rax) := fun _ => .copy_src
    exact (hcopied _).trans (((noirSvmAdvanceRip_agree (by decide)).trans (hcopied _)).symm)
  · obtain ⟨vmcb, hstep⟩ := NestedVcpu.withNestedVmcb_of_not_executes hexec
    have hstep : (s.step ncr3 (.vmload rax)).vcpu = _ := hstep
    have hheld : (s.step ncr3 (.vmload rax)).held k = s.held k := if_neg hexec
    rw [hheld, hstep]
    exact h k (by rw [hidle]; exact fun hnone => (nomatch hnone))

/-- No step but these gives a shadow its state. -/
theorem Holds.of_nodePool {s' : HiddenRun} (h : s.Holds) (hidle : s.vcpu.guestVmcb = none)
    (hpool : s'.vcpu.nodePool = s.vcpu.nodePool) (hheld : s'.held = s.held) : s'.Holds := by
  intro k _
  rw [hpool, hheld]
  exact h k (by rw [hidle]; exact fun hnone => (nomatch hnone))

theorem Holds.vmsave (h : s.Holds) (hidle : s.vcpu.guestVmcb = none) :
    (s.step ncr3 (.vmsave rax)).Holds := by
  by_cases hexec : s.vcpu.Executes rax
  · have hstep : (s.step ncr3 (.vmsave rax)).vcpu = _ := NestedVcpu.withNestedVmcb_of_executes hexec
    exact h.of_nodePool hidle (by rw [hstep]) rfl
  · obtain ⟨vmcb, hstep⟩ := NestedVcpu.withNestedVmcb_of_not_executes hexec
    have hstep : (s.step ncr3 (.vmsave rax)).vcpu = _ := hstep
    exact h.of_nodePool hidle (by rw [hstep]) rfl

theorem Holds.vmrun (h : s.Holds) (hidle : s.vcpu.guestVmcb = none) :
    (s.step ncr3 (.vmrun rax)).Holds := by
  by_cases hexec : s.vcpu.Executes rax
  · obtain ⟨hostIf, hstep⟩ := NestedVcpu.vmrun_of_executes ncr3 hexec rfl
    have hstep : (s.step ncr3 (.vmrun rax)).vcpu = _ := hstep
    intro k hk
    change AgreeOn _ _ (s.held k)
    rw [hstep] at hk ⊢
    have hne : k ≠ nvcSvmGetNestedVcpuNode rax := fun hsame => hk (congrArg some hsame.symm)
    dsimp only
    rw [Function.update_of_ne hne]
    exact h k (by rw [hidle]; exact fun hnone => (nomatch hnone))
  · obtain ⟨vmcb, hstep⟩ := NestedVcpu.withNestedVmcb_of_not_executes hexec
    have hstep : (s.step ncr3 (.vmrun rax)).vcpu = _ := hstep
    exact h.of_nodePool hidle (by rw [hstep]) rfl

/-- While L2 runs on one shadow, the others keep what they were given. -/
theorem Holds.of_running {s' : HiddenRun} (h : s.Holds) (hrun : s.vcpu.guestVmcb = some k)
    (hself : s'.vcpu.guestVmcb = none → AgreeOn hiddenState (s'.vcpu.nodePool k).vmcbT (s'.held k))
    (hguest : s'.vcpu.guestVmcb = none ∨ s'.vcpu.guestVmcb = some k)
    (hpool : ∀ j, j ≠ k → s'.vcpu.nodePool j = s.vcpu.nodePool j)
    (hheld : ∀ j, j ≠ k → s'.held j = s.held j) : s'.Holds := by
  intro j hj
  by_cases hjk : j = k
  · subst hjk
    exact hself (hguest.resolve_right hj)
  · rw [hpool j hjk, hheld j hjk]
    exact h j fun hj => hjk (Option.some.inj (hj.symm.trans hrun))

/-- What L1 returns to. -/
theorem exit_hidden {vmcb vmcbT : Page} :
    AgreeOn hiddenState ((nvcSvmVmslHelper vmcb vmcbT).vmcbBtr guestRflags amd64RflagsIf) vmcbT :=
  (Page.vmcbBtr_agree (by decide)).trans .copy_src

theorem Holds.exit {eax : BitVec 32} (h : s.Holds) (hrun : s.vcpu.guestVmcb = some k) :
    (s.step ncr3 (.exit eax)).Holds := by
  have hother : ∀ j, j ≠ k → (s.step ncr3 (.exit eax)).held j = s.held j := by
    intro j hj
    refine if_neg fun hexited => hj ?_
    exact Option.some.inj (hexited.1.symm.trans hrun)
  by_cases hforwards : s.vcpu.Forwards k
  · have hstep : (s.step ncr3 (.exit eax)).vcpu = _ :=
      (NestedVcpu.step_exit ncr3 hrun).trans (NestedVcpu.exit_of_forwards hforwards)
    have hguest : (s.step ncr3 (.exit eax)).vcpu.guestVmcb = none := by rw [hstep]
    have hheld : (s.step ncr3 (.exit eax)).held k = (s.step ncr3 (.exit eax)).vcpu.vmcb :=
      if_pos ⟨hrun, hguest⟩
    refine h.of_running hrun (fun _ => ?_) (.inl hguest) (fun j hj => ?_) hother
    · rw [hheld, hstep]
      dsimp only
      rw [Function.update_self]
      exact exit_hidden.symm
    · rw [hstep]
      exact Function.update_of_ne hj _ _
  · have hstep : (s.step ncr3 (.exit eax)).vcpu = _ :=
      (NestedVcpu.step_exit ncr3 hrun).trans (NestedVcpu.exit_of_not_forwards hforwards)
    have hguest : (s.step ncr3 (.exit eax)).vcpu.guestVmcb = some k := by
      rw [hstep]
      exact hrun
    refine h.of_running hrun (fun hnone => ?_) (.inr hguest) (fun j hj => ?_) hother
    · rw [hguest] at hnone
      exact (nomatch hnone)
    · rw [hstep]
      exact Function.update_of_ne hj _ _

theorem Holds.next (h : s.Holds) (htakes : s.vcpu.Takes e) : (s.step ncr3 e).Holds := by
  cases e with
  | l1 vmcb memory svme => exact h.of_nodePool htakes rfl rfl
  | vmload rax => exact h.vmload htakes
  | vmsave rax => exact h.vmsave htakes
  | vmrun rax => exact h.vmrun htakes
  | l2 vmcbT memory =>
      obtain ⟨k, hrun, -, -⟩ := htakes
      have hstep : (s.step ncr3 (.l2 vmcbT memory)).vcpu = _ := NestedVcpu.step_l2 ncr3 hrun
      have hguest : (s.step ncr3 (.l2 vmcbT memory)).vcpu.guestVmcb = some k := by
        rw [hstep]
        exact hrun
      refine h.of_running hrun (fun hnone => ?_) (.inr hguest) (fun j hj => ?_) fun _ _ => rfl
      · rw [hguest] at hnone
        exact (nomatch hnone)
      · rw [hstep]
        exact Function.update_of_ne hj _ _
  | exit eax =>
      obtain ⟨k, hrun⟩ := Option.ne_none_iff_exists'.mp htakes
      exact h.exit hrun

theorem Holds.continuous_iff (h : s.Holds) (htakes : s.vcpu.Takes e) :
    s.Continuous (s.step ncr3 e).vcpu e ↔ s.Unchanged e := by
  cases e with
  | vmrun rax =>
      have hidle : s.vcpu.guestVmcb = none := htakes
      by_cases hexec : s.vcpu.Executes rax
      · obtain ⟨k, hk⟩ : ∃ k, nvcSvmGetNestedVcpuNode rax = k := ⟨_, rfl⟩
        obtain ⟨hostIf, hstep⟩ := NestedVcpu.vmrun_of_executes ncr3 hexec hk
        have hstep : (s.step ncr3 (.vmrun rax)).vcpu = _ := hstep
        have hheld := h k (by rw [hidle]; exact fun hnone => (nomatch hnone))
        have hentered : AgreeOn hiddenState ((s.step ncr3 (.vmrun rax)).vcpu.nodePool k).vmcbT
            (s.held k) := by
          rw [hstep]
          dsimp only
          rw [Function.update_self]
          exact copyEntered_hidden.trans hheld
        have hguest : (s.step ncr3 (.vmrun rax)).vcpu.guestVmcb = some k := by rw [hstep]
        change _ ↔ (s.vcpu.Executes rax → AgreeOn _ _ (s.held (nvcSvmGetNestedVcpuNode rax)))
        rw [hk]
        constructor
        · intro hcontinuous _
          exact (hcontinuous k hguest).symm.trans hentered
        · intro hunchanged j hj
          obtain rfl : k = j := Option.some.inj (hguest.symm.trans hj)
          exact hentered.trans (hunchanged hexec).symm
      · obtain ⟨vmcb, hstep⟩ := NestedVcpu.withNestedVmcb_of_not_executes hexec
        have hstep : (s.step ncr3 (.vmrun rax)).vcpu = _ := hstep
        refine ⟨fun _ hexec' => absurd hexec' hexec, fun _ k hk => ?_⟩
        rw [hstep] at hk
        exact (nomatch hidle.symm.trans hk)
  | exit eax =>
      refine iff_of_true (fun k hrun hnone => ?_) trivial
      by_cases hforwards : s.vcpu.Forwards k
      · have hstep : (s.step ncr3 (.exit eax)).vcpu = _ :=
          (NestedVcpu.step_exit ncr3 hrun).trans (NestedVcpu.exit_of_forwards hforwards)
        rw [hstep]
        exact exit_hidden.trans exitedVmcb_hidden
      · have hstep : (s.step ncr3 (.exit eax)).vcpu = _ :=
          (NestedVcpu.step_exit ncr3 hrun).trans (NestedVcpu.exit_of_not_forwards hforwards)
        rw [hstep] at hnone
        exact (nomatch hrun.symm.trans hnone)
  | _ => exact Iff.rfl

theorem Start.holds (h : s.Start) : s.Holds := by
  intro k _
  rw [h.2]
  exact .refl

theorem holds_of_reachable (h : Reachable Start (Step ncr3) s) : s.Holds :=
  h.invariant (fun _ => Start.holds) fun _ _ _ hholds ⟨_, htakes, hstep⟩ =>
    hstep ▸ hholds.next htakes

/-- In every run, L2 is entered with the state of L1 exactly if L1 has the state that the shadow was last
given, and L1 always returns to the state of L2. -/
theorem hidden_continuous (ncr3 : BitVec 64) (s : HiddenRun) (h : Reachable Start (Step ncr3) s)
    (e : NestedEvent) (htakes : s.vcpu.Takes e) :
    s.Continuous (s.step ncr3 e).vcpu e ↔ s.Unchanged e :=
  (holds_of_reachable h).continuous_iff htakes

end

end HiddenRun

/-- L1 has set the base of its FS segment, and its VMCBs are zero. -/
def firstHiddenRun (fsBase : BitVec 8) : HiddenRun where
  vcpu :=
    { vmcb := Function.update (fun _ => 0) (guestFsSelector + 8) fsBase
      memory := fun _ _ => 0
      nodePool := fun _ => ⟨0, fun _ => 0, false⟩
      svme := true
      hostIf := false
      guestVmcb := none }
  held := fun _ _ => 0

/-- With the base at zero the first shadow has it. -/
theorem hidden_continuous_first :
    (firstHiddenRun 0).Continuous ((firstHiddenRun 0).step 0 (.vmrun 0x1000)).vcpu (.vmrun 0x1000) ↔
      (firstHiddenRun 0).Unchanged (.vmrun 0x1000) :=
  HiddenRun.hidden_continuous 0 (firstHiddenRun 0) (.start ⟨rfl, fun _ => rfl⟩) (.vmrun 0x1000) rfl

/-- A base that L1 has set itself is not there for L2. -/
theorem not_forall_hidden_continuous :
    ¬∀ (ncr3 : BitVec 64) (s : HiddenRun), Reachable HiddenRun.Start (HiddenRun.Step ncr3) s →
      ∀ e, s.vcpu.Takes e → s.Continuous (s.step ncr3 e).vcpu e := by
  intro h
  have hstart : (firstHiddenRun 1).Start := ⟨rfl, fun _ => rfl⟩
  have htakes : (firstHiddenRun 1).vcpu.Takes (.vmrun 0x1000) := rfl
  have hcontinuous := h 0 (firstHiddenRun 1) (.start hstart) (.vmrun 0x1000) htakes
  have hunchanged := (hstart.holds.continuous_iff htakes).mp hcontinuous
  have hbase := hunchanged ⟨rfl, by decide⟩ (guestFsSelector + 8) (by decide)
  exact absurd hbase (by decide)

end NoirVisor
