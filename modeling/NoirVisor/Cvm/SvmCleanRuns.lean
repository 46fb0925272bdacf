import NoirVisor.Cvm.SvmClean
import NoirVisor.Cvm.SvmViews

/-!
# Runs of a VMCB with clean bits

The two handlers that leave a clean bit set, and the runs in which that makes no difference: a
processor that caches every clean field works as one that reloads everything.
-/

namespace NoirVisor

open Marking

namespace Vmcb

/-- No processor can tell the one from the other by what it has cached. -/
def Alike (vmcb vmcb' : Vmcb) : Prop := Marking.Alike cleanBitOf vmcb.block vmcb'.block

variable {vmcb vmcb' vmcb'' : Vmcb} {f f' : VmcbField} {b b' : CleanBit} {value value' : Nat}
  {cached : VmcbField → Nat}

theorem Alike.refl : vmcb.Alike vmcb := Marking.Alike.refl

theorem Alike.trans (h : vmcb.Alike vmcb') (h' : vmcb'.Alike vmcb'') : vmcb.Alike vmcb'' :=
  Marking.Alike.trans h h'

theorem alike_write (h : cleanBitOf f = none) : vmcb.Alike (vmcb.write f value) where
  clean _ hb := hb
  field _ _ hgroup :=
    ⟨field_write_of_ne fun hf => (nomatch (hf ▸ hgroup).symm.trans h), rfl⟩

theorem field_write_self : (vmcb.write f value).field f = value := Function.update_self _ _ _

theorem Alike.write (h : vmcb.Alike vmcb') : (vmcb.write f value).Alike (vmcb'.write f value) where
  clean := h.clean
  field f' b hgroup := by
    refine ⟨?_, (h.field f' b hgroup).2⟩
    by_cases hf : f' = f
    · subst hf
      exact field_write_self.trans field_write_self.symm
    · exact (field_write_of_ne hf).trans ((h.field f' b hgroup).1.trans (field_write_of_ne hf).symm)

theorem alike_dirty (h : ∀ f, cleanBitOf f ≠ some b) : vmcb.Alike (vmcb.dirty b) where
  clean _ hb := clean_of_dirty hb
  field f _ hgroup :=
    ⟨rfl, Function.update_of_ne (fun hb => h f (hgroup.trans (congrArg some hb))) _ _⟩

theorem alike_injectEvent {vector type errorCode : Nat} {ev valid : Bool} :
    vmcb.Alike (vmcb.injectEvent vector type ev valid errorCode) :=
  (alike_write rfl).trans (alike_write rfl)

theorem alike_advanceRip : vmcb.Alike vmcb.advanceRip := by
  have htraced : vmcb.Alike (if (vmcb.field (.guest .rflags)).testBit rflagsTf then
      vmcb.injectEvent debugException faultTrapException false true 0 else vmcb) := by
    split
    · exact alike_injectEvent
    · exact .refl
  unfold advanceRip
  dsimp only
  split
  · exact htraced
  · exact htraced.trans (alike_write rfl)

theorem cleanBitOf_ne_avic (f : VmcbField) : cleanBitOf f ≠ some .avic := by
  cases f with
  | guest r =>
      cases r with
      | seg name field => cases name <;> exact fun h => (nomatch h)
      | _ => exact fun h => (nomatch h)
  | _ => exact fun h => (nomatch h)

/-- A write under a set clean bit is seen unless it changes nothing. -/
theorem disciplined_write_iff (hfield : ∀ f b, cleanBitOf f = some b → vmcb.field f = cached f)
    (hclean : ∀ b, vmcb.clean b = true) (hgroup : cleanBitOf f = some b) :
    (vmcb.write f value).Disciplined cached ↔ value = cached f := by
  refine ⟨fun h => ?_, fun h f' b' hgroup' hne => ?_⟩
  · by_contra hne
    have hmarked := h f b hgroup fun hsame => hne (field_write_self.symm.trans hsame)
    exact absurd ((hclean b).symm.trans hmarked) (by simp)
  · by_cases hf : f' = f
    · subst hf
      exact absurd (field_write_self.trans h) hne
    · exact absurd ((field_write_of_ne hf).trans (hfield f' b' hgroup')) hne

theorem disciplined_write_write_iff
    (hfield : ∀ f b, cleanBitOf f = some b → vmcb.field f = cached f)
    (hclean : ∀ b, vmcb.clean b = true) (hgroup : cleanBitOf f = some b)
    (hgroup' : cleanBitOf f' = some b') (hne : f ≠ f') :
    ((vmcb.write f value).write f' value').Disciplined cached ↔
      value = cached f ∧ value' = cached f' := by
  by_cases hvalue : value = cached f
  · have hwritten : ∀ g b, cleanBitOf g = some b → (vmcb.write f value).field g = cached g := by
      intro g b hg
      by_cases hgf : g = f
      · subst hgf
        exact field_write_self.trans hvalue
      · exact (field_write_of_ne hgf).trans (hfield g b hg)
    rw [disciplined_write_iff hwritten hclean hgroup']
    exact ⟨fun h => ⟨hvalue, h⟩, And.right⟩
  · refine ⟨fun h => absurd ?_ hvalue, fun h => absurd h.1 hvalue⟩
    by_contra hdiffers
    have hmarked := h f b hgroup fun hsame =>
      hdiffers (field_write_self.symm.trans ((field_write_of_ne hne).symm.trans hsame))
    exact absurd ((hclean b).symm.trans hmarked) (by simp)

end Vmcb

section Handlers

variable {ctx : CvexitContext} {s s' : CvexitState} {caching : Bool}

theorem alike_resumed : s.vcpu.vmcb.Alike s.resumed.vcpu.vmcb := by
  unfold CvexitState.resumed
  split
  · exact .refl
  · exact Vmcb.alike_write rfl

theorem resumed_procId : s.resumed.vcpu.procId = s.vcpu.procId := cleans_resumed.procId

/-- What a move to CR4 leaves, before RIP is advanced. -/
def cr4Written (ctx : CvexitContext) (s : CvexitState) (caching : Bool) : Vmcb :=
  (s.exited caching).vcpu.vmcb.write (.guest .cr4)
    (noirBts (cr4Operand ctx s.p s.vcpu.vmcb) cr4MceBit)

theorem alike_cr4Written (h : nvcSvmExitHandler ctx s caching 0x14 = some s') :
    (cr4Written ctx s caching).Alike s'.vcpu.vmcb ∧ s'.vcpu.procId = s.vcpu.procId := by
  have hhandled : nvcSvmExitHandler ctx s caching 0x14 =
      some (nvcSvmCr4WriteCvexitHandler ctx (s.exited caching)).resumed := rfl
  obtain rfl := Option.some.inj (hhandled.symm.trans h)
  have hadvanced : (cr4Written ctx s caching).Alike
      (nvcSvmCr4WriteCvexitHandler ctx (s.exited caching)).vcpu.vmcb := Vmcb.alike_advanceRip
  exact ⟨hadvanced.trans alike_resumed, resumed_procId⟩

/-- What the virtual interrupt or its window leaves. -/
def virtintWritten (s : CvexitState) (caching : Bool) : Vmcb :=
  if s.vcpu.specialState.prevVirq then (s.exited caching).vcpu.vmcb.write .ignoreVirtualTpr 1
  else ((s.exited caching).vcpu.vmcb.write .ignoreVirtualTpr 0).write .virtualIrq 0

theorem alike_virtintWritten (h : nvcSvmExitHandler ctx s caching 0x64 = some s') :
    (virtintWritten s caching).Alike s'.vcpu.vmcb ∧ s'.vcpu.procId = s.vcpu.procId := by
  have hhandled : nvcSvmExitHandler ctx s caching 0x64 =
      (nvcSvmVirtintCvexitHandler ctx (s.exited caching)).map CvexitState.resumed := rfl
  obtain ⟨handled, hhandler, rfl⟩ := Option.map_eq_some_iff.mp (hhandled.symm.trans h)
  suffices hwritten : (virtintWritten s caching).Alike handled.vcpu.vmcb ∧
      handled.vcpu.procId = s.vcpu.procId from
    ⟨hwritten.1.trans alike_resumed, resumed_procId.trans hwritten.2⟩
  have hdirty (vmcb : Vmcb) : vmcb.Alike (vmcb.dirty .avic) := Vmcb.alike_dirty Vmcb.cleanBitOf_ne_avic
  have hsame : (s.exited caching).vcpu.specialState = s.vcpu.specialState := rfl
  unfold nvcSvmVirtintCvexitHandler at hhandler
  unfold virtintWritten
  rw [hsame] at hhandler
  split at hhandler
  · next hvirq =>
      obtain rfl := Option.some.inj hhandler
      rw [if_pos hvirq]
      have hinjected (vmcb : Vmcb) (vector : Nat) : vmcb.Alike
          (vmcb.injectEvent vector externalVirtualInterrupt false true 0) := Vmcb.alike_injectEvent
      exact ⟨(hinjected _ _).write.trans (hdirty _), rfl⟩
  · next hvirq =>
      rw [if_neg hvirq]
      dsimp only at hhandler
      split at hhandler
      · obtain ⟨⟨p, v⟩, hswitch, rfl⟩ := Option.map_eq_some_iff.mp hhandler
        obtain ⟨hvmcb, hprocId⟩ := switchToHost_same hswitch
        have hcancelled : (virtintWritten s caching).Alike v.vmcb := by
          rw [hvmcb, virtintWritten, if_neg hvirq]
          exact hdirty _
        rw [virtintWritten, if_neg hvirq] at hcancelled
        exact ⟨hcancelled, hprocId⟩
      · obtain rfl := Option.some.inj hhandler
        exact ⟨hdirty _, rfl⟩

end Handlers

/-! What each event does to a state whose clean bits are right. -/

namespace SvmCleanState

variable {caching : Bool} {s s' : SvmCleanState}

theorem coherent_of_created (h : s.Created) : s.Coherent caching where
  disciplined := marked_of_not_clean h.2
  procId procId hrunning := by
    rw [h.1] at hrunning
    exact (nomatch hrunning)
  unset _ := h.2

/-- What the vCPU is left with on the processor that it was on. -/
theorem Coherent.of_cleans (h : s.Coherent caching) (hrunning : s'.running = none)
    (hcached : s'.cached = s.cached) (hcleans : s.vcpu.Cleans s'.vcpu) : s'.Coherent caching where
  disciplined := by
    unfold SvmCleanState.Disciplined
    rw [hcached, hcleans.procId]
    exact h.disciplined.of_marks hcleans.vmcb
  procId procId hs' := by
    rw [hrunning] at hs'
    exact (nomatch hs')
  unset hcaching b := by
    by_contra hb
    have hclean := hcleans.vmcb.clean b (Bool.eq_true_of_not_eq_false hb)
    exact absurd (hclean.symm.trans (h.unset hcaching b)) (by simp)

theorem dumpGroup_cleans {v : SvmCustomVcpu} (c : StateCache) (select : Register → Bool) :
    v.Cleans (v.dumpGroup c select) := by
  unfold SvmCustomVcpu.dumpGroup
  split
  · exact ⟨.refl, rfl⟩
  · exact .refl

theorem dump_cleans {v : SvmCustomVcpu} : v.Cleans (nvcSvmDumpGuestVcpuState v) := by
  have h : v.Cleans v := .refl
  have h := h.trans (dumpGroup_cleans .cr Register.inCrGroup)
  have h := h.trans (dumpGroup_cleans .cr2 (· == .cr2))
  have h := h.trans (dumpGroup_cleans .dr Register.inDrGroup)
  have h := h.trans (dumpGroup_cleans .sr Register.inSrGroup)
  have h := h.trans (dumpGroup_cleans .fg Register.inFsGs)
  have h := h.trans (dumpGroup_cleans .dt Register.isDescriptorTable)
  have h := h.trans (dumpGroup_cleans .lt Register.inLtGroup)
  have h := h.trans (dumpGroup_cleans .sc Register.inScGroup)
  have h := h.trans (dumpGroup_cleans .se Register.inSeGroup)
  have h := h.trans (dumpGroup_cleans .tp (· == .cr8))
  have h := h.trans (dumpGroup_cleans .ef (· == .efer))
  have h := h.trans (dumpGroup_cleans .pa (· == .pat))
  exact ⟨h.vmcb, h.procId⟩

theorem Coherent.enter {cpu : Xsave.Features} {procId : Nat} {p p' : Processor}
    {host host' : VirtualCpu} {v : SvmCustomVcpu} (h : s.Coherent caching)
    (hswitch : nvcSvmSwitchToGuestVcpu cpu procId p host s.vcpu = some (p', host', v)) :
    ({ s with vcpu := v, running := some procId } : SvmCleanState).Coherent caching := by
  obtain ⟨hscheduled, hprocId⟩ := SvmCustomVcpu.disciplined_schedule procId h.disciplined
  have hcleans := SvmCustomVcpu.cleans_nvcSvmSwitchToGuestVcpu hswitch
  have hv : v.procId = procId := hcleans.procId.trans hprocId
  refine ⟨?_, fun procId' hrunning => ?_, fun hcaching b => ?_⟩
  · unfold SvmCleanState.Disciplined
    rw [hv]
    exact hscheduled.of_marks hcleans.vmcb
  · cases hrunning
    exact hv
  · by_contra hb
    have hclean := hcleans.vmcb.clean b (Bool.eq_true_of_not_eq_false hb)
    have hunset := h.unset hcaching b
    have hsame : (s.vcpu.schedule procId).vmcb.clean b = false := by
      unfold SvmCustomVcpu.schedule
      split
      · rfl
      · exact hunset
    exact absurd (hclean.symm.trans hsame) (by simp)

section Run

variable {ctx : CvexitContext} {p : Processor} {nsvs : SyntheticMsr → Nat} {code : Int}
  {v : SvmCustomVcpu} {vmcb : Vmcb} {cached : VmcbField → Nat} {exited : CvexitState}

/-- The handlers start with what the processor has. -/
theorem exited_field (hfield : vmcb.field = cached) {f : VmcbField} {b : CleanBit}
    (hgroup : cleanBitOf f = some b) :
    ((⟨p, { v with vmcb }, nsvs, false⟩ : CvexitState).exited caching).vcpu.vmcb.field f = cached f :=
  (Vmcb.field_write_of_ne fun hf => (nomatch (hf ▸ hgroup).symm.trans rfl)).trans (congrFun hfield f)

/-- No exit moves the vCPU to another processor, or sets a clean bit that was not set. -/
theorem exit_frame
    (hrun : nvcSvmExitHandler ctx ⟨p, { v with vmcb }, nsvs, false⟩ caching code = some exited) :
    exited.vcpu.procId = v.procId ∧
      ∀ b, exited.vcpu.vmcb.clean b = true → (caching || vmcb.clean b) = true := by
  by_cases hcr4 : code = 0x14
  · subst hcr4
    obtain ⟨halike, hprocId⟩ := alike_cr4Written hrun
    exact ⟨hprocId, halike.clean⟩
  by_cases hvirtint : code = 0x64
  · subst hvirtint
    obtain ⟨halike, hprocId⟩ := alike_virtintWritten hrun
    refine ⟨hprocId, fun b hb => ?_⟩
    have hwritten := halike.clean b hb
    unfold virtintWritten at hwritten
    split at hwritten
    · exact hwritten
    · exact hwritten
  have hcleans := cleans_nvcSvmExitHandler hcr4 hvirtint exited hrun
  exact ⟨hcleans.procId, hcleans.vmcb.clean⟩

/-- Whether a processor may go on with what it has cached after an exit. -/
theorem exit_disciplined_iff (hfield : vmcb.field = cached)
    (hunset : caching = false → ∀ b, vmcb.clean b = false)
    (hrun : nvcSvmExitHandler ctx ⟨p, { v with vmcb }, nsvs, false⟩ caching code = some exited) :
    exited.vcpu.vmcb.Disciplined cached ↔
      (caching = true →
        (code = 0x14 → noirBts (cr4Operand ctx p vmcb) cr4MceBit = vmcb.field (.guest .cr4)) ∧
          (code = 0x64 →
            if v.specialState.prevVirq then vmcb.field .ignoreVirtualTpr = 1
            else vmcb.field .ignoreVirtualTpr = 0 ∧ vmcb.field .virtualIrq = 0)) := by
  cases hcaching : caching with
  | false =>
      have hclean (b : CleanBit) : exited.vcpu.vmcb.clean b = false := by
        by_contra hb
        have hset := (exit_frame hrun).2 b (Bool.eq_true_of_not_eq_false hb)
        rw [hcaching, hunset hcaching b] at hset
        exact absurd hset Bool.false_ne_true
      exact ⟨fun _ h => absurd h Bool.false_ne_true, fun _ => marked_of_not_clean hclean⟩
  | true =>
      subst hcaching
      have hexited {f : VmcbField} {b : CleanBit} (hgroup : cleanBitOf f = some b) :
          ((⟨p, { v with vmcb }, nsvs, false⟩ : CvexitState).exited true).vcpu.vmcb.field f =
            cached f := exited_field hfield hgroup
      have hclean (b : CleanBit) :
          ((⟨p, { v with vmcb }, nsvs, false⟩ : CvexitState).exited true).vcpu.vmcb.clean b = true :=
        rfl
      by_cases hcr4 : code = 0x14
      · subst hcr4
        rw [show exited.vcpu.vmcb.Disciplined cached ↔ _ from (alike_cr4Written hrun).1.marked_iff]
        refine (Vmcb.disciplined_write_iff (fun _ _ => hexited) hclean (b := .controlReg) rfl).trans ?_
        rw [← hfield]
        exact ⟨fun h _ => ⟨fun _ => h, fun h => absurd h (by decide)⟩, fun h => (h rfl).1 rfl⟩
      by_cases hvirtint : code = 0x64
      · subst hvirtint
        rw [show exited.vcpu.vmcb.Disciplined cached ↔ _ from (alike_virtintWritten hrun).1.marked_iff]
        have hignore : cleanBitOf .ignoreVirtualTpr = some .tpr := rfl
        have hvirq : cleanBitOf .virtualIrq = some .tpr := rfl
        have hspecial : (if v.specialState.prevVirq then vmcb.field .ignoreVirtualTpr = 1
            else vmcb.field .ignoreVirtualTpr = 0 ∧ vmcb.field .virtualIrq = 0) ↔
            (virtintWritten ⟨p, { v with vmcb }, nsvs, false⟩ true).Disciplined cached := by
          unfold virtintWritten
          dsimp only
          rw [hfield]
          split
          · exact eq_comm.trans
              (Vmcb.disciplined_write_iff (fun _ _ => hexited) hclean hignore).symm
          · exact (and_congr eq_comm eq_comm).trans
              (Vmcb.disciplined_write_write_iff (fun _ _ => hexited) hclean hignore hvirq
                (by decide)).symm
        refine hspecial.symm.trans ?_
        exact ⟨fun h _ => ⟨fun h => absurd h (by decide), fun _ => h⟩, fun h => (h rfl).2 rfl⟩
      · have hcleans := cleans_nvcSvmExitHandler hcr4 hvirtint exited hrun
        have hdisciplined : ((⟨p, { v with vmcb }, nsvs, false⟩ : CvexitState).exited
            true).vcpu.vmcb.Disciplined cached := fun f b hgroup hne => absurd (hexited hgroup) hne
        exact ⟨fun _ _ => ⟨fun h => absurd h hcr4, fun h => absurd h hvirtint⟩,
          fun _ => hdisciplined.of_marks hcleans.vmcb⟩

end Run

/-- A step keeps the clean bits right exactly when it is not one of the two that lose a change. -/
theorem Coherent.step {e : SvmCleanEvent} (h : s.Coherent caching) (htakes : e.Takes caching s s') :
    (s'.Disciplined ↔ e.Kept caching s) ∧ (e.Kept caching s → s'.Coherent caching) := by
  have hkept (hs' : s'.Coherent caching) (he : e.Kept caching s) :
      (s'.Disciplined ↔ e.Kept caching s) ∧ (e.Kept caching s → s'.Coherent caching) :=
    ⟨⟨fun _ => he, fun _ => hs'.disciplined⟩, fun _ => hs'⟩
  cases e with
  | edit supportedSizeMax call =>
      obtain ⟨hrunning, rfl⟩ := htakes
      exact hkept (h.of_cleans hrunning rfl ⟨.refl, rfl⟩) trivial
  | dump =>
      obtain ⟨hrunning, rfl⟩ := htakes
      exact hkept (h.of_cleans hrunning rfl dump_cleans) trivial
  | other vcpu =>
      obtain ⟨hrunning, hvmcb, hprocId, rfl⟩ := htakes
      exact hkept (h.of_cleans hrunning rfl ⟨hvmcb ▸ .refl, hprocId⟩) trivial
  | options vm vcpuOptions exceptionBitmap =>
      obtain ⟨hrunning, rfl⟩ := htakes
      have hset := SvmCustomVcpu.cleans_nvcSvmSetGuestVcpuOptions vm
        { s.vcpu with header := { s.vcpu.header with vcpuOptions, exceptionBitmap } }
      exact hkept (h.of_cleans hrunning rfl ⟨hset.vmcb, hset.procId⟩) trivial
  | enter cpu procId p host =>
      obtain ⟨-, p', host', v, hswitch, rfl⟩ := htakes
      exact hkept (h.enter hswitch) trivial
  | run cached vmcb ctx p nsvs code =>
      obtain ⟨procId, exited, hrunning, hexecutes, hrun, rfl⟩ := htakes
      have hs : s.vcpu.vmcb.Disciplined (s.cached procId) := h.procId procId hrunning ▸ h.disciplined
      have hfield : vmcb.field = cached := hs.executes hexecutes
      have hunset (hcaching : caching = false) (b : CleanBit) : vmcb.clean b = false :=
        (congrFun hexecutes.clean b).trans (h.unset hcaching b)
      obtain ⟨hprocId, hclean⟩ := exit_frame hrun
      have hsame : exited.vcpu.procId = procId := hprocId.trans (h.procId procId hrunning)
      have hcached : Function.update s.cached procId cached exited.vcpu.procId = cached := by
        rw [hsame, Function.update_self]
      have hiff := exit_disciplined_iff hfield hunset hrun
      have hdisciplined : (SvmCleanState.mk exited.vcpu (if exited.toHost then none else some procId)
          (Function.update s.cached procId cached)).Disciplined ↔ exited.vcpu.vmcb.Disciplined cached :=
        iff_of_eq (congrArg (Vmcb.Disciplined · exited.vcpu.vmcb) hcached)
      refine ⟨hdisciplined.trans hiff, fun he => ⟨(hdisciplined.trans hiff).mpr he, ?_, ?_⟩⟩
      · intro procId' hrunning'
        dsimp only at hrunning'
        split at hrunning' <;> cases hrunning'
        exact hsame
      · intro hcaching b
        by_contra hb
        have hset := hclean b (Bool.eq_true_of_not_eq_false hb)
        rw [hcaching, hunset hcaching b] at hset
        exact absurd hset Bool.false_ne_true

end SvmCleanState

theorem SvmCleanReachable.coherent {caching : Bool} {s : SvmCleanState}
    (h : SvmCleanReachable caching (SvmCleanEvent.Kept caching) s) : s.Coherent caching :=
  h.invariant (fun _ => SvmCleanState.coherent_of_created) fun _ _ _ hs hstep =>
    hstep.elim fun _ htaken => (hs.step htaken.2).2 htaken.1

/-- In every run without a lost change, a processor that is about to run the VMCB works with what is in
it, whatever it has cached; and the next step keeps it so exactly when it loses no change. -/
theorem SvmCleanReachable.reads (caching : Bool) (s : SvmCleanState)
    (h : SvmCleanReachable caching (SvmCleanEvent.Kept caching) s) :
    (∀ procId, s.running = some procId →
      s.vcpu.vmcb.Disciplined (s.cached procId) ∧
        s.vcpu.vmcb.block.read cleanBitOf (s.cached procId) = s.vcpu.vmcb.field) ∧
      ∀ e s', SvmCleanEvent.Takes caching s e s' →
        (s'.Disciplined ↔ SvmCleanEvent.Kept caching s e) := by
  have hs := h.coherent
  refine ⟨fun procId hrunning => ?_, fun e s' htakes => (hs.step htakes).1⟩
  have hdisciplined : s.vcpu.vmcb.Disciplined (s.cached procId) :=
    hs.procId procId hrunning ▸ hs.disciplined
  exact ⟨hdisciplined, read_eq_iff.mpr hdisciplined⟩

/-! A new vCPU, its first entry, and a guest that moves to CR4. -/

def newCleanState : SvmCleanState := ⟨newVcpu, none, fun _ _ => 0⟩

def enteredCleanState : SvmCleanState := ⟨newVcpu.entered 0, some 0, fun _ _ => 0⟩

def firstEntry : SvmCleanEvent := .enter anyFeatures 0 zeroProcessor zeroVirtualCpu

theorem firstEntry_takes (caching : Bool) :
    firstEntry.Takes caching newCleanState enteredCleanState := by
  have henter : nvcSvmSwitchToGuestVcpu anyFeatures 0 zeroProcessor zeroVirtualCpu newVcpu = _ :=
    nvcSvmSwitchToGuestVcpu_eq rfl
  rw [enterGuest_of_loadable ⟨⟨fun c h => absurd h Bool.false_ne_true, fun _ => rfl⟩, rfl⟩]
    at henter
  exact ⟨rfl, _, _, _, henter, rfl⟩

theorem enteredCleanState_reads :
    (∀ procId, enteredCleanState.running = some procId →
      enteredCleanState.vcpu.vmcb.Disciplined (enteredCleanState.cached procId) ∧
        enteredCleanState.vcpu.vmcb.block.read cleanBitOf (enteredCleanState.cached procId) =
          enteredCleanState.vcpu.vmcb.field) ∧
      ∀ e s', SvmCleanEvent.Takes true enteredCleanState e s' →
        (s'.Disciplined ↔ SvmCleanEvent.Kept true enteredCleanState e) :=
  SvmCleanReachable.reads true enteredCleanState
    (.step (.start ⟨rfl, fun _ => rfl⟩) ⟨firstEntry, trivial, firstEntry_takes true⟩)

def cr4Context : CvexitContext where
  cpu := anyFeatures
  host := zeroVirtualCpu
  nrips := true
  decodeAssists := true
  instructionLength := 3
  exitInfo1 := 3
  exitInfo2 := 0
  tsc := 0
  msrInterceptions := none
  quickpath := []
  mtrrDefType := 0
  vmsaArea := zeroArea
  misplaced := id

/-- RBX has physical address extension set. -/
def cr4Processor : Processor := { zeroProcessor with reg := fun r => if r = .gpr 3 then 0x20 else 0 }

def cr4State : CvexitState := ⟨cr4Processor, newVcpu.entered 0, fun _ => 0, false⟩

def cr4Exited : CvexitState := (nvcSvmCr4WriteCvexitHandler cr4Context (cr4State.exited true)).resumed

/-- The processor would go on with the old CR4. -/
theorem not_forall_disciplined :
    ¬∀ (caching : Bool) (s : SvmCleanState), SvmCleanReachable caching (fun _ _ => True) s →
      ∀ procId, s.running = some procId → s.vcpu.vmcb.Disciplined (s.cached procId) := by
  intro h
  have hentered : SvmCleanReachable true (fun _ _ => True) enteredCleanState :=
    .step (.start ⟨rfl, fun _ => rfl⟩) ⟨firstEntry, trivial, firstEntry_takes true⟩
  have hread : (newVcpu.entered 0).vmcb.block.read cleanBitOf (fun _ => 0) =
      (newVcpu.entered 0).vmcb.field :=
    read_eq_iff.mpr (marked_of_not_clean fun b => by cases b <;> rfl)
  have hrun : SvmCleanReachable true (fun _ _ => True) ⟨cr4Exited.vcpu, some 0,
      Function.update (fun _ _ => 0) 0 (newVcpu.entered 0).vmcb.field⟩ := by
    refine .step hentered ⟨.run (newVcpu.entered 0).vmcb.field (newVcpu.entered 0).vmcb cr4Context
      cr4Processor (fun _ => 0) 0x14, trivial, 0, cr4Exited, rfl, ⟨fun f _ => ?_, fun f => ?_, rfl⟩,
      rfl, rfl⟩
    · exact (congrFun hread f).symm
    · exact (ite_self _).symm
  have hdisciplined := h true _ hrun 0 rfl
  have hclean := hdisciplined (.guest .cr4) .controlReg rfl (by decide)
  exact absurd hclean (by decide)

end NoirVisor
