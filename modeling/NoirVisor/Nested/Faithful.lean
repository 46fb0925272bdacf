import NoirVisor.Nested.Switch
import NoirVisor.Transition

/-!
# Shadow VMCBs

The guest state of L2 goes from the VMCB of L1 into its shadow at an entry and back at an exit. Groups
of fields that L1 has marked clean stay in the shadow.
-/

namespace NoirVisor

open Copying SvmVmcbOffset Transition

/-- `last` is what the exits of the VMCBs of L1 have left in them. -/
structure NestedRun where
  vcpu : NestedVcpu
  last : BitVec 64 → Option Page

namespace NestedRun

variable (ncr3 : BitVec 64) (s : NestedRun)

/-- An exit that goes to L1 ends a run of the VMCB. -/
def step (e : NestedEvent) : NestedRun where
  vcpu := s.vcpu.step ncr3 e
  last :=
    match e, s.vcpu.guestVmcb with
    | .exit _, some k =>
        if (s.vcpu.step ncr3 e).guestVmcb = none then
          Function.update s.last (s.vcpu.nodePool k).vmcbC
            (some ((s.vcpu.step ncr3 e).memory (s.vcpu.nodePool k).vmcbC))
        else s.last
    | _, _ => s.last

/-- A clean bit is set only if what it covers is as the last exit of this VMCB left it. -/
def LegalCleanBits (rax : BitVec 64) : Prop :=
  ∀ b : CleanBit, (s.vcpu.memory rax).vmcbBt vmcbCleanBits b.number = true →
    ∃ vmcb, s.last rax = some vmcb ∧ AgreeOn b.covered (s.vcpu.memory rax) vmcb

def Takes (e : NestedEvent) : Prop :=
  s.vcpu.Takes e ∧ ∀ rax, e = .vmrun rax → s.vcpu.Executes rax → s.LegalCleanBits rax

/-- The privilege level of L2 is already in the shadow at an entry, and the base of its IDT already in
the VMCB of L1 at an exit. -/
def Carried : NestedEvent → Prop
  | .vmrun rax => s.vcpu.Executes rax → AgreeOn [vmcopy8 guestCpl] (s.vcpu.memory rax)
      (s.vcpu.nodePool (nvcSvmGetNestedVcpuNode rax)).vmcbT
  | .exit _ => ∀ k, s.vcpu.guestVmcb = some k → s.vcpu.Forwards k →
      AgreeOn [vmcopy64 guestIdtrBase] (s.vcpu.memory (s.vcpu.nodePool k).vmcbC)
        (s.vcpu.nodePool k).vmcbT
  | _ => True

/-- A shadow that is entered equals the VMCB of L1, and a VMCB of L1 equals the shadow that exits. -/
def Faithful (s' : NestedVcpu) : NestedEvent → Prop
  | .vmrun rax => ∀ k, s'.guestVmcb = some k → (s'.nodePool k).vmcbC = rax ∧
      AgreeOn guestState (s'.nodePool k).vmcbT (s'.memory rax)
  | .exit _ => ∀ k, s.vcpu.guestVmcb = some k → s'.guestVmcb = none →
      AgreeOn (guestState ++ exitInformation) (s'.memory (s'.nodePool k).vmcbC) (s'.nodePool k).vmcbT
  | _ => True

/-- No shadow is in use yet. -/
def Start : Prop := s.vcpu.guestVmcb = none ∧ ∀ k, (s.vcpu.nodePool k).clean = false

def Step (s s' : NestedRun) : Prop := ∃ e, s.Takes e ∧ s.Carried e ∧ s' = s.step ncr3 e

/-- What a shadow that may be reused has to do with the VMCB of L1. -/
structure Shadows (s : NestedRun) (k : BitVec 4) : Prop where
  hash : nvcSvmGetNestedVcpuNode (s.vcpu.nodePool k).vmcbC = k
  npt : (s.vcpu.nodePool k).vmcbT.vmcbBt nptControl nptControlNpt = true
  last : s.vcpu.guestVmcb ≠ some k → ∃ vmcb, s.last (s.vcpu.nodePool k).vmcbC = some vmcb ∧
    AgreeOn guestState (s.vcpu.nodePool k).vmcbT vmcb
  lbr : s.vcpu.guestVmcb = some k →
    (s.vcpu.nodePool k).vmcbT.vmcbBt lbrVirtualizationControl lbrVirtControlLbr = false →
      AgreeOn CleanBit.lbr.copied (s.vcpu.memory (s.vcpu.nodePool k).vmcbC) (s.vcpu.nodePool k).vmcbT

structure Synced (s : NestedRun) : Prop where
  clean : ∀ k, (s.vcpu.nodePool k).clean = true → s.Shadows k
  running : ∀ k, s.vcpu.guestVmcb = some k → (s.vcpu.nodePool k).clean = true

section

variable {ncr3 : BitVec 64} {s s' : NestedRun} {k : BitVec 4} {rax : BitVec 64}

/-- A step that concerns neither an entry nor an exit to L1. -/
structure Undisturbed (s s' : NestedRun) : Prop where
  guestVmcb : s'.vcpu.guestVmcb = s.vcpu.guestVmcb
  last : s'.last = s.last
  node : ∀ k, (s'.vcpu.nodePool k).vmcbC = (s.vcpu.nodePool k).vmcbC ∧
    (s'.vcpu.nodePool k).clean = (s.vcpu.nodePool k).clean
  keeps : ∀ k, NestedVcpu.ProcessorKeeps (s.vcpu.nodePool k).vmcbT (s'.vcpu.nodePool k).vmcbT
  idle : ∀ k, s.vcpu.guestVmcb ≠ some k →
    AgreeOn guestState (s'.vcpu.nodePool k).vmcbT (s.vcpu.nodePool k).vmcbT
  memory : ∀ k, s.vcpu.guestVmcb = some k →
    s'.vcpu.memory (s.vcpu.nodePool k).vmcbC = s.vcpu.memory (s.vcpu.nodePool k).vmcbC

theorem Synced.of_undisturbed (h : s.Synced) (hsame : Undisturbed s s') : s'.Synced := by
  obtain ⟨hguest, hlast, hnode, hkeeps, hidle, hmemory⟩ := hsame
  refine ⟨fun k hk => ?_, fun k hk => ?_⟩
  · rw [(hnode k).2] at hk
    obtain ⟨hhash, hnpt, hl, hlbr⟩ := h.clean k hk
    refine ⟨?_, ?_, fun hrun => ?_, fun hrun hoff => ?_⟩
    · rw [(hnode k).1]
      exact hhash
    · rw [← hnpt]
      exact Page.vmcbBt_of_agree (hkeeps k).control (by decide)
    · rw [hguest] at hrun
      obtain ⟨vmcb, hvmcb, hagree⟩ := hl hrun
      rw [hlast, (hnode k).1]
      exact ⟨vmcb, hvmcb, (hidle k hrun).trans hagree⟩
    · rw [hguest] at hrun
      rw [Page.vmcbBt_of_agree (hkeeps k).control (by decide)] at hoff
      rw [(hnode k).1, hmemory k hrun]
      exact (hlbr hrun hoff).trans ((hkeeps k).lbr hoff).symm
  · rw [hguest] at hk
    rw [(hnode k).2]
    exact h.running k hk

/-- Only the registers of L1 and its memory change. -/
theorem undisturbed_of_nodePool (hpool : s'.vcpu.nodePool = s.vcpu.nodePool)
    (hguest : s'.vcpu.guestVmcb = s.vcpu.guestVmcb) (hlast : s'.last = s.last)
    (hidle : s.vcpu.guestVmcb = none) : Undisturbed s s' := by
  refine ⟨hguest, hlast, fun k => ?_, fun k => ?_, fun k _ => ?_, fun k hk => ?_⟩
  · rw [hpool]
    exact ⟨rfl, rfl⟩
  · rw [hpool]
    exact .refl
  · rw [hpool]
    exact .refl
  · rw [hidle] at hk
    exact (nomatch hk)

theorem undisturbed_vmload (hidle : s.vcpu.guestVmcb = none) :
    Undisturbed s (s.step ncr3 (.vmload rax)) := by
  by_cases h : s.vcpu.Executes rax
  · have hstep : (s.step ncr3 (.vmload rax)).vcpu = _ := NestedVcpu.withNestedVmcb_of_executes h
    have hagree : ∀ (rs : List Range) (k : BitVec 4), apart rs hiddenState = true →
        AgreeOn rs ((s.step ncr3 (.vmload rax)).vcpu.nodePool k).vmcbT (s.vcpu.nodePool k).vmcbT := by
      intro rs k hrs
      rw [hstep]
      exact AgreeOn.copy_dest hrs
    refine ⟨?_, rfl, fun k => ?_, fun k => NestedVcpu.ProcessorKeeps.of_agree (hagree _ k (by decide)),
      fun k _ => hagree _ k (by decide), fun k hk => ?_⟩
    · rw [hstep]
    · rw [hstep]
      exact ⟨rfl, rfl⟩
    · rw [hidle] at hk
      exact (nomatch hk)
  · obtain ⟨vmcb, hstep⟩ := NestedVcpu.withNestedVmcb_of_not_executes h
    have hstep : (s.step ncr3 (.vmload rax)).vcpu = _ := hstep
    exact undisturbed_of_nodePool (by rw [hstep]) (by rw [hstep]) rfl hidle

theorem undisturbed_vmsave (hidle : s.vcpu.guestVmcb = none) :
    Undisturbed s (s.step ncr3 (.vmsave rax)) := by
  by_cases h : s.vcpu.Executes rax
  · have hstep : (s.step ncr3 (.vmsave rax)).vcpu = _ := NestedVcpu.withNestedVmcb_of_executes h
    exact undisturbed_of_nodePool (by rw [hstep]) (by rw [hstep]) rfl hidle
  · obtain ⟨vmcb, hstep⟩ := NestedVcpu.withNestedVmcb_of_not_executes h
    have hstep : (s.step ncr3 (.vmsave rax)).vcpu = _ := hstep
    exact undisturbed_of_nodePool (by rw [hstep]) (by rw [hstep]) rfl hidle

theorem undisturbed_vmrun (h : ¬s.vcpu.Executes rax) (hidle : s.vcpu.guestVmcb = none) :
    Undisturbed s (s.step ncr3 (.vmrun rax)) := by
  obtain ⟨vmcb, hstep⟩ := NestedVcpu.withNestedVmcb_of_not_executes h
  have hstep : (s.step ncr3 (.vmrun rax)).vcpu = _ := hstep
  exact undisturbed_of_nodePool (by rw [hstep]) (by rw [hstep]) rfl hidle

/-- Only the shadow that runs changes. -/
theorem undisturbed_of_running {vmcbT : Page} {memory : BitVec 64 → Page}
    (hrun : s.vcpu.guestVmcb = some k)
    (hstep : s'.vcpu = { s.vcpu with
      nodePool := Function.update s.vcpu.nodePool k { s.vcpu.nodePool k with vmcbT }
      memory }) (hlast : s'.last = s.last)
    (hkeeps : NestedVcpu.ProcessorKeeps (s.vcpu.nodePool k).vmcbT vmcbT)
    (hmemory : memory (s.vcpu.nodePool k).vmcbC = s.vcpu.memory (s.vcpu.nodePool k).vmcbC) :
    Undisturbed s s' := by
  have hother : ∀ j, j ≠ k → s'.vcpu.nodePool j = s.vcpu.nodePool j := by
    intro j hj
    rw [hstep]
    exact Function.update_of_ne hj _ _
  have hself : s'.vcpu.nodePool k = { s.vcpu.nodePool k with vmcbT } := by
    rw [hstep]
    exact Function.update_self _ _ _
  refine ⟨by rw [hstep], hlast, fun j => ?_, fun j => ?_, fun j hj => ?_, fun j hj => ?_⟩
  · by_cases hjk : j = k
    · rw [hjk, hself]
      exact ⟨rfl, rfl⟩
    · rw [hother j hjk]
      exact ⟨rfl, rfl⟩
  · by_cases hjk : j = k
    · rw [hjk, hself]
      exact hkeeps
    · rw [hother j hjk]
      exact .refl
  · rw [hother j fun hjk => hj (hjk ▸ hrun)]
    exact .refl
  · obtain rfl : k = j := Option.some.inj (hrun.symm.trans hj)
    rw [hstep]
    exact hmemory

/-- The shadow that an executed `vmrun` enters. -/
theorem Synced.entered_agree (ncr3 : BitVec 64) (h : s.Synced) (hlegal : s.LegalCleanBits rax)
    (hidle : s.vcpu.guestVmcb = none) (hcpl : AgreeOn [vmcopy8 guestCpl] (s.vcpu.memory rax)
      (s.vcpu.nodePool k).vmcbT) :
    AgreeOn guestState (copyEntered ncr3
      ((s.vcpu.nodePool k).clean && decide ((s.vcpu.nodePool k).vmcbC = rax)) (s.vcpu.memory rax)
      (s.vcpu.nodePool k).vmcbT) (s.vcpu.memory rax) := by
  refine copyEntered_agree hcpl fun hkept b hb i hi hcopied => ?_
  rw [Bool.and_eq_true, decide_eq_true_eq] at hkept
  obtain ⟨vmcb, hlast, hcovered⟩ := hlegal b hb
  obtain ⟨vmcb', hlast', hshadow⟩ := (h.clean k hkept.1).last (by
    rw [hidle]
    exact fun hnone => (nomatch hnone))
  rw [hkept.2, hlast, Option.some.injEq] at hlast'
  rw [hcovered i (covers_of_within b.copied_within_covered hcopied), hlast', hshadow i hi]

theorem Synced.vmrun (h : s.Synced) (htakes : s.Takes (.vmrun rax)) (hexec : s.vcpu.Executes rax)
    (hcarried : s.Carried (.vmrun rax)) :
    (s.step ncr3 (.vmrun rax)).Synced ∧
      s.Faithful (s.step ncr3 (.vmrun rax)).vcpu (.vmrun rax) := by
  have hidle : s.vcpu.guestVmcb = none := htakes.1
  obtain ⟨k, hk⟩ : ∃ k, nvcSvmGetNestedVcpuNode rax = k := ⟨_, rfl⟩
  have hcpl := hcarried hexec
  rw [hk] at hcpl
  have hagree := h.entered_agree ncr3 (htakes.2 rax rfl hexec) hidle hcpl
  obtain ⟨hostIf, hstep⟩ := NestedVcpu.vmrun_of_executes ncr3 hexec hk
  have hstep : (s.step ncr3 (.vmrun rax)).vcpu = _ := hstep
  have hlast : (s.step ncr3 (.vmrun rax)).last = s.last := rfl
  generalize s.step ncr3 (.vmrun rax) = s' at hstep hlast ⊢
  have hguest : s'.vcpu.guestVmcb = some k := by rw [hstep]
  have hself := congrFun (congrArg NestedVcpu.nodePool hstep) k
  dsimp only at hself
  rw [Function.update_self] at hself
  have hother : ∀ j, j ≠ k → s'.vcpu.nodePool j = s.vcpu.nodePool j := by
    intro j hj
    rw [hstep]
    exact Function.update_of_ne hj _ _
  have hrunning : ∀ j, s'.vcpu.guestVmcb = some j → j = k :=
    fun j hj => (Option.some.inj (hguest.symm.trans hj)).symm
  refine ⟨⟨fun j hj => ?_, fun j hj => ?_⟩, fun j hj => ?_⟩
  · by_cases hjk : j = k
    · subst hjk
      refine ⟨?_, ?_, fun hne => absurd hguest hne, fun _ _ => ?_⟩
      · rw [hself]
        exact hk
      · rw [hself]
        exact copyEntered_nptControl fun hkept => (h.clean j (Bool.and_eq_true_iff.mp hkept).1).npt
      · rw [hself, hstep]
        exact (hagree.mono (by decide)).symm
    · rw [hother j hjk] at hj
      obtain ⟨hhash, hnpt, hl, -⟩ := h.clean j hj
      refine ⟨?_, ?_, fun _ => ?_, fun hrun => absurd (hrunning j hrun) hjk⟩
      · rw [hother j hjk]
        exact hhash
      · rw [hother j hjk]
        exact hnpt
      · rw [hother j hjk, hlast]
        exact hl (by rw [hidle]; exact fun hnone => (nomatch hnone))
  · rw [hrunning j hj, hself]
  · rw [hrunning j hj, hself, hstep]
    exact ⟨rfl, hagree⟩

theorem last_exit {eax : BitVec 32} (hrun : s.vcpu.guestVmcb = some k) :
    (s.step ncr3 (.exit eax)).last =
      if (s.step ncr3 (.exit eax)).vcpu.guestVmcb = none then
        Function.update s.last (s.vcpu.nodePool k).vmcbC
          (some ((s.step ncr3 (.exit eax)).vcpu.memory (s.vcpu.nodePool k).vmcbC))
      else s.last := by
  change (match NestedEvent.exit eax, s.vcpu.guestVmcb with | .exit _, some k => _ | _, _ => _) = _
  rw [hrun]
  rfl

theorem Synced.exit {eax : BitVec 32} (h : s.Synced) (hrun : s.vcpu.guestVmcb = some k)
    (hforwards : s.vcpu.Forwards k) (hcarried : s.Carried (.exit eax)) :
    (s.step ncr3 (.exit eax)).Synced ∧
      s.Faithful (s.step ncr3 (.exit eax)).vcpu (.exit eax) := by
  obtain ⟨hhash, hnpt, -, hlbr⟩ := h.clean k (h.running k hrun)
  have hexited : AgreeOn (guestState ++ [vmcopy64 nptControl, vmcopy64 lbrVirtualizationControl])
      (NestedVcpu.exitedVmcb (s.vcpu.nodePool k).vmcbT) (s.vcpu.nodePool k).vmcbT :=
    Page.vmwrite_agree (by decide)
  have hnpt' : (NestedVcpu.exitedVmcb (s.vcpu.nodePool k).vmcbT).vmcbBt nptControl nptControlNpt =
      true := (Page.vmcbBt_of_agree hexited (by decide)).trans hnpt
  have hagree := copyExited_agree hnpt' (fun hoff => (hlbr hrun
    ((Page.vmcbBt_of_agree hexited (by decide)).symm.trans hoff)).trans
      (hexited.mono (by decide)).symm)
    ((hcarried k hrun hforwards).trans (hexited.mono (by decide)).symm)
  have hstep : (s.step ncr3 (.exit eax)).vcpu = _ :=
    (NestedVcpu.step_exit ncr3 hrun).trans (NestedVcpu.exit_of_forwards hforwards)
  have hguest : (s.step ncr3 (.exit eax)).vcpu.guestVmcb = none := by rw [hstep]
  have hlast := (last_exit hrun).trans (if_pos hguest)
  generalize s.step ncr3 (.exit eax) = s' at hstep hguest hlast ⊢
  have hself := congrFun (congrArg NestedVcpu.nodePool hstep) k
  dsimp only at hself
  rw [Function.update_self] at hself
  have hmemory := congrFun (congrArg NestedVcpu.memory hstep) (s.vcpu.nodePool k).vmcbC
  dsimp only at hmemory
  rw [Function.update_self] at hmemory
  have hother : ∀ j, j ≠ k → s'.vcpu.nodePool j = s.vcpu.nodePool j := by
    intro j hj
    rw [hstep]
    exact Function.update_of_ne hj _ _
  have hidle : ∀ j, s'.vcpu.guestVmcb ≠ some j := by
    intro j hj
    rw [hguest] at hj
    exact (nomatch hj)
  refine ⟨⟨fun j hj => ?_, fun j hj => absurd hj (hidle j)⟩, fun j hj _ => ?_⟩
  · by_cases hjk : j = k
    · subst hjk
      refine ⟨?_, ?_, fun _ => ⟨s'.vcpu.memory (s.vcpu.nodePool j).vmcbC, ?_, ?_⟩,
        fun hj => absurd hj (hidle j)⟩
      · rw [hself]
        exact hhash
      · rw [hself]
        exact hnpt'
      · rw [hself, hlast]
        exact Function.update_self _ _ _
      · rw [hself, hmemory]
        exact (hagree.mono (by decide)).symm
    · rw [hother j hjk] at hj
      obtain ⟨hhash', hnpt'', hl, -⟩ := h.clean j hj
      refine ⟨?_, ?_, fun _ => ?_, fun hj => absurd hj (hidle j)⟩
      · rw [hother j hjk]
        exact hhash'
      · rw [hother j hjk]
        exact hnpt''
      · have hne : (s.vcpu.nodePool j).vmcbC ≠ (s.vcpu.nodePool k).vmcbC :=
          fun hsame => hjk (hhash'.symm.trans (hsame ▸ hhash))
        rw [hother j hjk, hlast, Function.update_of_ne hne]
        exact hl fun hj => hjk (Option.some.inj (hj.symm.trans hrun))
  · obtain rfl : k = j := Option.some.inj (hrun.symm.trans hj)
    rw [hself, hmemory]
    exact hagree

theorem undisturbed_exit {eax : BitVec 32} (hrun : s.vcpu.guestVmcb = some k)
    (hforwards : ¬s.vcpu.Forwards k) : Undisturbed s (s.step ncr3 (.exit eax)) := by
  have hstep : (s.step ncr3 (.exit eax)).vcpu = _ :=
    (NestedVcpu.step_exit ncr3 hrun).trans (NestedVcpu.exit_of_not_forwards hforwards)
  have hguest : (s.step ncr3 (.exit eax)).vcpu.guestVmcb ≠ none := by
    rw [hstep]
    dsimp only
    rw [hrun]
    exact fun hnone => (nomatch hnone)
  refine undisturbed_of_running hrun hstep ((last_exit hrun).trans (if_neg hguest)) ?_ rfl
  apply NestedVcpu.ProcessorKeeps.of_agree
  apply (noirSvmAdvanceRip_agree (by decide)).trans
  exact (Page.vmwrite_agree (by decide)).trans (Page.vmwrite_agree (by decide))

variable {e : NestedEvent}

theorem Synced.next (h : s.Synced) (htakes : s.Takes e) (hcarried : s.Carried e) :
    (s.step ncr3 e).Synced := by
  cases e with
  | l1 vmcb memory svme => exact h.of_undisturbed (undisturbed_of_nodePool rfl rfl rfl htakes.1)
  | vmload rax => exact h.of_undisturbed (undisturbed_vmload htakes.1)
  | vmsave rax => exact h.of_undisturbed (undisturbed_vmsave htakes.1)
  | vmrun rax =>
      by_cases hexec : s.vcpu.Executes rax
      · exact (h.vmrun htakes hexec hcarried).1
      · exact h.of_undisturbed (undisturbed_vmrun hexec htakes.1)
  | l2 vmcbT memory =>
      obtain ⟨k, hrun, hkeeps, hmemory⟩ := htakes.1
      exact h.of_undisturbed
        (undisturbed_of_running hrun (NestedVcpu.step_l2 ncr3 hrun) rfl hkeeps hmemory)
  | exit eax =>
      obtain ⟨k, hrun⟩ := Option.ne_none_iff_exists'.mp htakes.1
      by_cases hforwards : s.vcpu.Forwards k
      · exact (h.exit hrun hforwards hcarried).1
      · exact h.of_undisturbed (undisturbed_exit hrun hforwards)

theorem Synced.faithful_iff (h : s.Synced) (htakes : s.Takes e) :
    s.Faithful (s.step ncr3 e).vcpu e ↔ s.Carried e := by
  cases e with
  | vmrun rax =>
      by_cases hexec : s.vcpu.Executes rax
      · refine ⟨fun hfaithful _ => ?_, fun hcarried => (h.vmrun htakes hexec hcarried).2⟩
        obtain ⟨hostIf, hstep⟩ := NestedVcpu.vmrun_of_executes ncr3 hexec rfl
        have hstep : (s.step ncr3 (.vmrun rax)).vcpu = _ := hstep
        rw [hstep] at hfaithful
        obtain ⟨-, hagree⟩ := hfaithful _ rfl
        dsimp only at hagree
        rw [Function.update_self] at hagree
        exact (hagree.mono (by decide)).symm.trans copyEntered_cpl
      · refine ⟨fun _ hexec' => absurd hexec' hexec, fun _ k hk => ?_⟩
        rw [(undisturbed_vmrun hexec htakes.1).guestVmcb, htakes.1] at hk
        exact (nomatch hk)
  | exit eax =>
      obtain ⟨k, hrun⟩ := Option.ne_none_iff_exists'.mp htakes.1
      by_cases hforwards : s.vcpu.Forwards k
      · refine ⟨fun hfaithful k' hrun' _ => ?_, fun hcarried => (h.exit hrun hforwards hcarried).2⟩
        obtain rfl : k = k' := Option.some.inj (hrun.symm.trans hrun')
        have hstep : (s.step ncr3 (.exit eax)).vcpu = _ :=
          (NestedVcpu.step_exit ncr3 hrun).trans (NestedVcpu.exit_of_forwards hforwards)
        rw [hstep] at hfaithful
        have hagree := hfaithful k hrun rfl
        dsimp only at hagree
        rw [Function.update_self, Function.update_self] at hagree
        exact copyExited_idtrBase.symm.trans ((hagree.mono (by decide)).trans
          (Page.vmwrite_agree (by decide)))
      · refine ⟨fun _ k' hrun' hforwards' => ?_, fun _ k' _ hnone => ?_⟩
        · obtain rfl : k = k' := Option.some.inj (hrun.symm.trans hrun')
          exact absurd hforwards' hforwards
        · rw [(undisturbed_exit hrun hforwards).guestVmcb, hrun] at hnone
          exact (nomatch hnone)
  | _ => exact Iff.rfl

theorem Start.synced (h : s.Start) : s.Synced := by
  refine ⟨fun k hk => ?_, fun k hk => ?_⟩
  · rw [h.2] at hk
    exact (nomatch hk)
  · rw [h.1] at hk
    exact (nomatch hk)

theorem synced_of_reachable (h : Reachable Start (Step ncr3) s) : s.Synced :=
  h.invariant (fun _ => Start.synced) fun _ _ _ hsynced ⟨_, htakes, hcarried, hstep⟩ =>
    hstep ▸ hsynced.next htakes hcarried

/-- In a run whose entries and exits have all carried the two fields that are not copied, the next one
is faithful exactly if it does, too. -/
theorem nested_faithful (ncr3 : BitVec 64) (s : NestedRun) (h : Reachable Start (Step ncr3) s)
    (e : NestedEvent) (htakes : s.Takes e) :
    s.Faithful (s.step ncr3 e).vcpu e ↔ s.Carried e :=
  (synced_of_reachable h).faithful_iff htakes

end

end NestedRun

/-- L1 gives `cpl` as the privilege level of its guest, in a VMCB that is otherwise zero. -/
def firstNestedRun (cpl : BitVec 8) : NestedRun where
  vcpu :=
    { vmcb := fun _ => 0
      memory := fun _ => Function.update (fun _ => 0) guestCpl cpl
      nodePool := fun _ => ⟨0, fun _ => 0, false⟩
      svme := true
      hostIf := false
      guestVmcb := none }
  last := fun _ => none

theorem firstNestedRun_takes (cpl : BitVec 8) : (firstNestedRun cpl).Takes (.vmrun 0x1000) := by
  refine ⟨rfl, fun rax hrax _ b hb => ?_⟩
  have hzero : AgreeOn [vmcopy32 vmcbCleanBits] ((firstNestedRun cpl).vcpu.memory rax) fun _ => 0 :=
    Page.update_agree (by decide)
  have hcovers : covers [vmcopy32 vmcbCleanBits] (vmcbCleanBits + b.number / 8) = true := by
    cases b <;> decide
  rw [Page.vmcbBt_of_agree hzero hcovers] at hb
  exact absurd (hb.symm.trans BitVec.getLsbD_zero) (by decide)

/-- A guest at the privilege level of the kernel, on a shadow that was not used before. -/
theorem nested_faithful_first :
    (firstNestedRun 0).Faithful ((firstNestedRun 0).step 0 (.vmrun 0x1000)).vcpu (.vmrun 0x1000) ↔
      (firstNestedRun 0).Carried (.vmrun 0x1000) :=
  NestedRun.nested_faithful 0 (firstNestedRun 0) (.start ⟨rfl, fun _ => rfl⟩) (.vmrun 0x1000)
    (firstNestedRun_takes 0)

/-- A guest at the privilege level of a user program is entered at that of the kernel. -/
theorem not_forall_nested_faithful :
    ¬∀ (ncr3 : BitVec 64) (s : NestedRun),
      Reachable NestedRun.Start (fun s s' => ∃ e, s.Takes e ∧ s' = s.step ncr3 e) s →
        ∀ e, s.Takes e → s.Faithful (s.step ncr3 e).vcpu e := by
  intro h
  have hstart : (firstNestedRun 3).Start := ⟨rfl, fun _ => rfl⟩
  have hfaithful := h 0 (firstNestedRun 3) (.start hstart) (.vmrun 0x1000) (firstNestedRun_takes 3)
  have hcarried := (hstart.synced.faithful_iff (firstNestedRun_takes 3)).mp hfaithful
  have hcpl := hcarried ⟨rfl, by decide⟩ guestCpl (by decide)
  exact absurd hcpl (by decide)

end NoirVisor
