import NoirVisor.Nested.Vcpu

/-!
# One world switch

What an entry of L2 leaves in the shadow and an exit in the VMCB of L1, and the events of a vCPU that
runs a nested hypervisor.
-/

namespace NoirVisor

open Copying SvmVmcbOffset

/-- The state of L2 in a VMCB, but for what `vmload` and `vmsave` cover. -/
def guestState : List Range :=
  [vmcopy64 avicControl, vmcopy64 guestInterrupt] ++ vmcopySegment guestEsSelector ++
    vmcopySegment guestCsSelector ++ vmcopySegment guestSsSelector ++ vmcopySegment guestDsSelector ++
      [vmcopy16 guestGdtrLimit, vmcopy64 guestGdtrBase, vmcopy16 guestIdtrLimit,
        vmcopy64 guestIdtrBase, vmcopy8 guestCpl, vmcopy64 guestEfer, vmcopy64 guestCr4,
        vmcopy64 guestCr3, vmcopy64 guestCr0, vmcopy64 guestDr7, vmcopy64 guestDr6,
        vmcopy64 guestRflags, vmcopy64 guestRip, vmcopy64 guestRsp, vmcopy64 guestSCet,
        vmcopy64 guestSsp, vmcopy64 guestIsst, vmcopy64 guestRax, vmcopy64 guestCr2,
        vmcopy64 guestPat] ++ CleanBit.lbr.copied

/-- The fields that a clean bit stands for. -/
def CleanBit.covered : CleanBit → List Range
  | asid => [vmcopy32 guestAsid]
  | npt => [vmcopy64 nptCr3, vmcopy64 guestPat]
  | segmentReg => segmentReg.copied ++ [vmcopy8 guestCpl]
  | b => b.copied

theorem CleanBit.copied_within_covered (b : CleanBit) : within b.copied b.covered = true := by
  cases b <;> decide

section Switch

variable {ncr3 : BitVec 64} {clean : Bool} {vmcbC vmcbT : Page} {rs : List Range} {i : Nat}

theorem copyUncached_apply (hapart : apart rs rewritten = true) (hi : covers rs i = true) :
    copyUncached ncr3 clean vmcbC vmcbT i =
      if CleanBit.all.any fun b =>
        (!clean || !vmcbC.vmcbBt vmcbCleanBits b.number) && covers b.copied i
      then vmcbC i else vmcbT i :=
  foldl_copy fun b _ _ => svmCleanVmcb_apply hapart hi b

/-- What an entry does not write. -/
theorem copyEntered_of_apart (hrewritten : apart rs rewritten = true)
    (halways : apart rs alwaysCopied = true) (hcopied : ∀ b : CleanBit, apart rs b.copied = true) :
    AgreeOn rs (copyEntered ncr3 clean vmcbC vmcbT) vmcbT := by
  intro i hi
  rw [copyEntered, Page.vmcopy, copy_of_not_covers (covers_of_apart halways hi),
    copyUncached_apply hrewritten hi, if_neg]
  rw [Bool.not_eq_true, List.any_eq_false]
  intro b _
  rw [covers_of_apart (hcopied b) hi, Bool.and_false]
  exact Bool.false_ne_true

/-- Every field but one is in a group or copied always. -/
theorem guestState_copied (hi : covers guestState i = true) :
    covers alwaysCopied i = true ∨ covers [vmcopy8 guestCpl] i = true ∨
      ∃ b : CleanBit, covers b.copied i = true := by
  have hgroups : covers (alwaysCopied ++ ([vmcopy8 guestCpl] ++
      CleanBit.all.flatMap CleanBit.copied)) i = true := covers_of_within (by decide) hi
  rw [covers_append, covers_append, Bool.or_eq_true, Bool.or_eq_true, covers_flatMap] at hgroups
  rcases hgroups with halways | hcpl | ⟨b, -, hb⟩
  · exact .inl halways
  · exact .inr (.inl hcpl)
  · exact .inr (.inr ⟨b, hb⟩)

/-- A group that stays in the shadow has to be there already, and the privilege level in any case. -/
theorem copyEntered_agree (hcpl : AgreeOn [vmcopy8 guestCpl] vmcbC vmcbT)
    (hclean : clean = true → ∀ b : CleanBit, vmcbC.vmcbBt vmcbCleanBits b.number = true →
      ∀ i, covers guestState i = true → covers b.copied i = true → vmcbC i = vmcbT i) :
    AgreeOn guestState (copyEntered ncr3 clean vmcbC vmcbT) vmcbC := by
  intro i hi
  rcases guestState_copied hi with halways | hrest
  · exact copy_of_covers halways
  · apply copy_of_eq
    rw [copyUncached_apply (by decide) hi]
    split
    case isTrue => rfl
    case isFalse huncached =>
      rcases hrest with hone | ⟨b, hb⟩
      · exact (hcpl i hone).symm
      · have hkept := List.any_eq_false.mp (Bool.eq_false_of_not_eq_true huncached) b (CleanBit.mem_all b)
        rw [hb, Bool.and_true, Bool.not_eq_true, Bool.or_eq_false_iff, Bool.not_eq_false',
          Bool.not_eq_false'] at hkept
        exact (hclean hkept.1 b hkept.2 i hi hb).symm

/-- The privilege level is left as it was. -/
theorem copyEntered_cpl : AgreeOn [vmcopy8 guestCpl] (copyEntered ncr3 clean vmcbC vmcbT) vmcbT :=
  copyEntered_of_apart (by decide) (by decide) fun b => by cases b <;> decide

/-- Only one handler writes the control of nested paging. -/
theorem svmCleanVmcb_nptControl {b : CleanBit} (hb : b ≠ .npt) :
    AgreeOn [vmcopy64 nptControl] (svmCleanVmcb ncr3 vmcbC vmcbT b) vmcbT := by
  have hcopy : ∀ b cleared : CleanBit,
      AgreeOn [vmcopy64 nptControl] (nvcSvmCleanVmcb b cleared vmcbC vmcbT) vmcbT := by
    intro b cleared
    have hcleared : apart [vmcopy64 nptControl] [⟨vmcbCleanBits + cleared.number / 8, 1⟩] = true := by
      cases cleared <;> decide
    have hcopied : apart [vmcopy64 nptControl] b.copied = true := by
      cases b <;> decide
    exact (Page.vmcbBtr_agree hcleared).trans (AgreeOn.copy_dest hcopied)
  cases b with
  | npt => exact absurd rfl hb
  | interception =>
      apply (Page.vmcbBtr_agree (by decide)).trans
      apply (Page.vmcbBts_agree (by decide)).trans
      apply (Page.vmcbBts_agree (by decide)).trans
      exact AgreeOn.copy_dest (by decide)
  | asid => exact (Page.vmcbBtr_agree (by decide)).trans (Page.vmwrite_agree (by decide))
  | _ => exact hcopy _ _

theorem nvcSvmCleanVmcbNp_nptControl :
    (nvcSvmCleanVmcbNp vmcbC vmcbT ncr3).vmcbBt nptControl nptControlNpt = true := by
  have hlast : ∀ t : Page, AgreeOn [vmcopy64 nptControl]
      ((t.vmcopy vmcbC CleanBit.npt.copied).vmcbBtr vmcbCleanBits CleanBit.npt.number) t :=
    fun t => (Page.vmcbBtr_agree (by decide)).trans (AgreeOn.copy_dest (by decide))
  rw [nvcSvmCleanVmcbNp, Page.vmcbBt_of_agree (hlast _) (by decide)]
  split
  case isTrue hnpt =>
    rw [← hnpt]
    exact Page.vmcbBt_of_agree AgreeOn.copy_src (by decide)
  case isFalse =>
    have hncr3 : AgreeOn [vmcopy64 nptControl]
        ((vmcbT.vmwrite64 nptControl 1).vmwrite64 nptCr3 ncr3) (vmcbT.vmwrite64 nptControl 1) :=
      Page.vmwrite_agree (by decide)
    rw [Page.vmcbBt_of_agree hncr3 (by decide)]
    rw [Page.vmcbBt, Page.vmwrite64, Page.vmwrite_byte rfl (by decide)]
    decide

/-- L2 always runs with nested paging. -/
theorem copyUncached_nptControl (h : clean = true → vmcbT.vmcbBt nptControl nptControlNpt = true) :
    (copyUncached ncr3 clean vmcbC vmcbT).vmcbBt nptControl nptControlNpt = true := by
  have hkept : ∀ (b : CleanBit) (t : Page), t.vmcbBt nptControl nptControlNpt = true →
      (svmCleanVmcb ncr3 vmcbC t b).vmcbBt nptControl nptControlNpt = true := by
    intro b t ht
    by_cases hb : b = .npt
    · subst hb
      exact nvcSvmCleanVmcbNp_nptControl
    · rw [← ht]
      exact Page.vmcbBt_of_agree (svmCleanVmcb_nptControl hb) (by decide)
  cases clean with
  | true => exact foldl_kept hkept (h rfl)
  | false => exact foldl_established (CleanBit.mem_all .npt) rfl (fun _ => nvcSvmCleanVmcbNp_nptControl) hkept

theorem copyEntered_nptControl (h : clean = true → vmcbT.vmcbBt nptControl nptControlNpt = true) :
    (copyEntered ncr3 clean vmcbC vmcbT).vmcbBt nptControl nptControlNpt = true := by
  have hsame : AgreeOn [vmcopy64 nptControl] (copyEntered ncr3 clean vmcbC vmcbT)
      (copyUncached ncr3 clean vmcbC vmcbT) := AgreeOn.copy_dest (by decide)
  rw [Page.vmcbBt_of_agree hsame (by decide)]
  exact copyUncached_nptControl h

/-- What an exit has copied stays, and so does what was the same already. -/
theorem copyExited_of_covers {i : Nat}
    (hi : covers (exitInformation ++ nestedVcpuState) i = true ∨ vmcbC i = vmcbT i) :
    copyExited vmcbC vmcbT i = vmcbT i := by
  have hstate : ((vmcbC.vmcopy vmcbT exitInformation).vmcopy vmcbT nestedVcpuState) i = vmcbT i := by
    rw [covers_append, Bool.or_eq_true] at hi
    rcases hi with (hexit | hstate) | hsame
    · exact copy_of_eq (copy_of_covers hexit)
    · exact copy_of_covers hstate
    · exact copy_of_eq (copy_of_eq hsame)
  unfold copyExited
  split <;> split
  · exact copy_of_eq (copy_of_eq hstate)
  · exact copy_of_eq hstate
  · exact copy_of_eq hstate
  · exact hstate

theorem copyExited_agree (hnpt : vmcbT.vmcbBt nptControl nptControlNpt = true)
    (hlbr : vmcbT.vmcbBt lbrVirtualizationControl lbrVirtControlLbr = false →
      AgreeOn CleanBit.lbr.copied vmcbC vmcbT)
    (hidtr : AgreeOn [vmcopy64 guestIdtrBase] vmcbC vmcbT) :
    AgreeOn (guestState ++ exitInformation) (copyExited vmcbC vmcbT) vmcbT := by
  intro i hi
  have hparts : covers ((exitInformation ++ nestedVcpuState) ++ ([vmcopy64 guestPat] ++
      (CleanBit.lbr.copied ++ [vmcopy64 guestIdtrBase]))) i = true := covers_of_within (by decide) hi
  simp only [covers_append, Bool.or_eq_true] at hparts
  rcases hparts with hstate | hpat | hrecord | hbase
  · rw [← Bool.or_eq_true, ← covers_append] at hstate
    exact copyExited_of_covers (.inl hstate)
  · unfold copyExited
    rw [if_pos hnpt]
    split
    · exact copy_of_eq (copy_of_covers hpat)
    · exact copy_of_covers hpat
  · cases hon : vmcbT.vmcbBt lbrVirtualizationControl lbrVirtControlLbr with
    | false => exact copyExited_of_covers (.inr (hlbr hon i hrecord))
    | true =>
        unfold copyExited
        rw [if_pos hon]
        exact copy_of_covers hrecord
  · exact copyExited_of_covers (.inr (hidtr i hbase))

/-- The base of the IDT is left as it was. -/
theorem copyExited_idtrBase : AgreeOn [vmcopy64 guestIdtrBase] (copyExited vmcbC vmcbT) vmcbC := by
  have hstate : AgreeOn [vmcopy64 guestIdtrBase]
      ((vmcbC.vmcopy vmcbT exitInformation).vmcopy vmcbT nestedVcpuState) vmcbC :=
    (AgreeOn.copy_dest (by decide)).trans (AgreeOn.copy_dest (by decide))
  unfold copyExited
  split <;> split
  · exact (AgreeOn.copy_dest (by decide)).trans ((AgreeOn.copy_dest (by decide)).trans hstate)
  · exact (AgreeOn.copy_dest (by decide)).trans hstate
  · exact (AgreeOn.copy_dest (by decide)).trans hstate
  · exact hstate

end Switch

/-! ## Events -/

inductive NestedEvent where
  | l1 (vmcb : Page) (memory : BitVec 64 → Page) (svme : Bool)
  | vmload (rax : BitVec 64)
  | vmsave (rax : BitVec 64)
  | vmrun (rax : BitVec 64)
  | l2 (vmcbT : Page) (memory : BitVec 64 → Page)
  | exit (eax : BitVec 32)

namespace NestedVcpu

variable (ncr3 : BitVec 64) (s : NestedVcpu)

def step : NestedEvent → NestedVcpu
  | .l1 vmcb memory svme => { s with vmcb, memory, svme }
  | .vmload rax => s.nvcSvmVmloadHandler rax
  | .vmsave rax => s.nvcSvmVmsaveHandler rax
  | .vmrun rax => s.nvcSvmVmrunHandler ncr3 rax
  | .l2 vmcbT memory =>
      match s.guestVmcb with
      | none => s
      | some k =>
          { s with
            nodePool := Function.update s.nodePool k { s.nodePool k with vmcbT }
            memory }
  | .exit eax =>
      match s.guestVmcb with
      | none => s
      | some k => s.nvcSvmExitHandler k eax

/-- What the processor does not write to a VMCB while it runs the guest. -/
structure ProcessorKeeps (vmcbT vmcbT' : Page) : Prop where
  control : AgreeOn [vmcopy64 nptControl, vmcopy64 lbrVirtualizationControl] vmcbT' vmcbT
  lbr : vmcbT.vmcbBt lbrVirtualizationControl lbrVirtControlLbr = false →
    AgreeOn CleanBit.lbr.copied vmcbT' vmcbT

theorem ProcessorKeeps.refl {vmcbT : Page} : ProcessorKeeps vmcbT vmcbT := ⟨.refl, fun _ => .refl⟩

theorem ProcessorKeeps.of_agree {vmcbT vmcbT' : Page}
    (h : AgreeOn ([vmcopy64 nptControl, vmcopy64 lbrVirtualizationControl] ++ CleanBit.lbr.copied)
      vmcbT' vmcbT) : ProcessorKeeps vmcbT vmcbT' :=
  ⟨h.mono (by decide), fun _ => h.mono (by decide)⟩

/-- The VMCB that L2 runs through is left alone until it exits. -/
def Takes : NestedEvent → Prop
  | .l2 vmcbT memory => ∃ k, s.guestVmcb = some k ∧ ProcessorKeeps (s.nodePool k).vmcbT vmcbT ∧
      memory (s.nodePool k).vmcbC = s.memory (s.nodePool k).vmcbC
  | .exit _ => s.guestVmcb ≠ none
  | _ => s.guestVmcb = none

variable {s}

theorem step_exit {k : BitVec 4} {eax : BitVec 32} (hrun : s.guestVmcb = some k) :
    s.step ncr3 (.exit eax) = s.nvcSvmExitHandler k eax := by
  change (match s.guestVmcb with | none => s | some k => s.nvcSvmExitHandler k eax) = _
  rw [hrun]

theorem step_l2 {k : BitVec 4} {vmcbT : Page} {memory : BitVec 64 → Page}
    (hrun : s.guestVmcb = some k) : s.step ncr3 (.l2 vmcbT memory) = { s with
      nodePool := Function.update s.nodePool k { s.nodePool k with vmcbT }
      memory } := by
  change (match s.guestVmcb with | none => s | some k => _) = _
  rw [hrun]

end NestedVcpu

end NoirVisor
