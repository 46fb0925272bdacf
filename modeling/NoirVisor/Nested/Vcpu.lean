import NoirVisor.Cvm.SvmVcpu
import NoirVisor.Nested.Vmcb

/-!
# Nested virtualization on SVM

A nested hypervisor (L1) runs its guest (L2) through VMCBs of its own. Each is shadowed by one of the
sixteen VMCBs of the vCPU, and L2 runs on the shadow. `vmcbC` is always the VMCB of L1 and `vmcbT` the
shadow.
-/

namespace NoirVisor

open Copying SvmVmcbOffset

/-! ## The groups of the clean bits -/

namespace CleanBit

def number : CleanBit → Nat
  | interception => 0
  | iomsrpm => 1
  | asid => 2
  | tpr => 3
  | npt => 4
  | controlReg => 5
  | debugReg => 6
  | idtGdt => 7
  | segmentReg => 8
  | cr2 => 9
  | lbr => 10
  | avic => 11
  | cet => 12

/-- The order of the table of handlers. -/
def all : List CleanBit :=
  [interception, iomsrpm, asid, tpr, npt, controlReg, debugReg, idtGdt, segmentReg, cr2, lbr, avic, cet]

theorem mem_all (b : CleanBit) : b ∈ all := by
  cases b <;> decide

/-- What the handler of a clean bit copies. -/
def copied : CleanBit → List Range
  | interception =>
      [vmcopy32 interceptAccessCr, vmcopy32 interceptAccessDr, vmcopy32 interceptExceptions,
        vmcopy32 interceptInstruction1, vmcopy32 interceptInstruction2, vmcopy32 interceptInstruction3,
        vmcopy16 pauseFilterThreshold, vmcopy16 pauseFilterCount, vmcopy64 tscOffset]
  | iomsrpm => [vmcopy64 iopmPhysicalAddress, vmcopy64 msrpmPhysicalAddress]
  | asid => []
  | tpr => [vmcopy64 avicControl]
  | npt => [vmcopy64 guestPat]
  | controlReg => [vmcopy64 guestCr0, vmcopy64 guestCr3, vmcopy64 guestCr4, vmcopy64 guestEfer]
  | debugReg => [vmcopy64 guestDr6, vmcopy64 guestDr7]
  | idtGdt =>
      [vmcopy16 guestGdtrLimit, vmcopy64 guestGdtrBase, vmcopy16 guestIdtrLimit, vmcopy64 guestIdtrBase]
  | segmentReg =>
      vmcopySegment guestCsSelector ++ vmcopySegment guestDsSelector ++ vmcopySegment guestEsSelector ++
        vmcopySegment guestSsSelector
  | cr2 => [vmcopy64 guestCr2]
  | lbr =>
      [vmcopy64 guestDebugCtrl, vmcopy64 guestLastBranchFrom, vmcopy64 guestLastBranchTo,
        vmcopy64 guestLastExceptionFrom, vmcopy64 guestLastExceptionTo]
  | avic =>
      [vmcopy64 avicApicBar, vmcopy64 avicBackingPagePointer, vmcopy64 avicLogicalTablePointer,
        vmcopy64 avicPhysicalTablePointer]
  | cet => [vmcopy64 guestSCet, vmcopy64 guestSsp, vmcopy64 guestIsst]

end CleanBit

/-- What the handlers have in common: they copy their fields and clear a clean bit. -/
def nvcSvmCleanVmcb (b cleared : CleanBit) (vmcbC vmcbT : Page) : Page :=
  (vmcbT.vmcopy vmcbC b.copied).vmcbBtr vmcbCleanBits cleared.number

section Handlers

variable (vmcbC vmcbT : Page)

/-- `cpuid` and shutdowns are always intercepted. -/
def nvcSvmCleanVmcbInterceptions : Page :=
  (((vmcbT.vmcopy vmcbC CleanBit.interception.copied).vmcbBts interceptInstruction1 18).vmcbBts
    interceptInstruction1 31).vmcbBtr vmcbCleanBits CleanBit.interception.number

def nvcSvmCleanVmcbIomsrpm : Page := nvcSvmCleanVmcb .iomsrpm .iomsrpm vmcbC vmcbT

def nvcSvmCleanVmcbAsid : Page :=
  (vmcbT.vmwrite32 guestAsid (shadowAsid (vmcbC.vmread32 guestAsid))).vmcbBtr vmcbCleanBits
    CleanBit.asid.number

def nvcSvmCleanVmcbTpr : Page := nvcSvmCleanVmcb .tpr .tpr vmcbC vmcbT

def nptControlNpt := 0

/-- Without nested paging in L1, L2 runs on the nested page table of the subverted host. -/
def nvcSvmCleanVmcbNp (ncr3 : BitVec 64) : Page :=
  let vmcbT :=
    if vmcbC.vmcbBt nptControl nptControlNpt then
      vmcbT.vmcopy vmcbC [vmcopy64 nptControl, vmcopy64 nptCr3]
    else (vmcbT.vmwrite64 nptControl 1).vmwrite64 nptCr3 ncr3
  (vmcbT.vmcopy vmcbC CleanBit.npt.copied).vmcbBtr vmcbCleanBits CleanBit.npt.number

def nvcSvmCleanVmcbCrx : Page := nvcSvmCleanVmcb .controlReg .controlReg vmcbC vmcbT

def nvcSvmCleanVmcbDrx : Page := nvcSvmCleanVmcb .debugReg .debugReg vmcbC vmcbT

def nvcSvmCleanVmcbDt : Page := nvcSvmCleanVmcb .idtGdt .idtGdt vmcbC vmcbT

def nvcSvmCleanVmcbSeg : Page := nvcSvmCleanVmcb .segmentReg .segmentReg vmcbC vmcbT

def nvcSvmCleanVmcbCr2 : Page := nvcSvmCleanVmcb .cr2 .cr2 vmcbC vmcbT

def nvcSvmCleanVmcbLbr : Page := nvcSvmCleanVmcb .lbr .lbr vmcbC vmcbT

-- The clean bit of the last branch records is cleared, not that of the AVIC.
def nvcSvmCleanVmcbAvic : Page := nvcSvmCleanVmcb .avic .lbr vmcbC vmcbT

def nvcSvmCleanVmcbCet : Page := nvcSvmCleanVmcb .cet .cet vmcbC vmcbT

end Handlers

/-- The table of handlers. -/
def svmCleanVmcb (ncr3 : BitVec 64) (vmcbC vmcbT : Page) : CleanBit → Page
  | .interception => nvcSvmCleanVmcbInterceptions vmcbC vmcbT
  | .iomsrpm => nvcSvmCleanVmcbIomsrpm vmcbC vmcbT
  | .asid => nvcSvmCleanVmcbAsid vmcbC vmcbT
  | .tpr => nvcSvmCleanVmcbTpr vmcbC vmcbT
  | .npt => nvcSvmCleanVmcbNp vmcbC vmcbT ncr3
  | .controlReg => nvcSvmCleanVmcbCrx vmcbC vmcbT
  | .debugReg => nvcSvmCleanVmcbDrx vmcbC vmcbT
  | .idtGdt => nvcSvmCleanVmcbDt vmcbC vmcbT
  | .segmentReg => nvcSvmCleanVmcbSeg vmcbC vmcbT
  | .cr2 => nvcSvmCleanVmcbCr2 vmcbC vmcbT
  | .lbr => nvcSvmCleanVmcbLbr vmcbC vmcbT
  | .avic => nvcSvmCleanVmcbAvic vmcbC vmcbT
  | .cet => nvcSvmCleanVmcbCet vmcbC vmcbT

/-- What the handlers write in some other way than by copying it. -/
def rewritten : List Range :=
  [vmcopy32 interceptInstruction1, vmcopy32 guestAsid, vmcopy64 nptControl, vmcopy64 nptCr3,
    vmcopy32 vmcbCleanBits]

section

variable {rs : List Range} {vmcbC vmcbT : Page} {ncr3 : BitVec 64} {i : Nat}

theorem nvcSvmCleanVmcb_apply {b cleared : CleanBit} (hapart : apart rs rewritten = true)
    (hi : covers rs i = true) :
    nvcSvmCleanVmcb b cleared vmcbC vmcbT i = if covers b.copied i then vmcbC i else vmcbT i := by
  have hclean : within [⟨vmcbCleanBits + cleared.number / 8, 1⟩] rewritten = true := by
    cases cleared <;> decide
  rw [nvcSvmCleanVmcb, Page.vmcbBtr_agree (apart_of_within hapart hclean) i hi]
  exact copy_apply

/-- Outside of what it rewrites, a handler copies. -/
theorem svmCleanVmcb_apply (hapart : apart rs rewritten = true) (hi : covers rs i = true)
    (b : CleanBit) :
    svmCleanVmcb ncr3 vmcbC vmcbT b i = if covers b.copied i then vmcbC i else vmcbT i := by
  cases b with
  | interception =>
      change nvcSvmCleanVmcbInterceptions vmcbC vmcbT i = _
      rw [nvcSvmCleanVmcbInterceptions,
        Page.vmcbBtr_agree (apart_of_within hapart (by decide)) i hi,
        Page.vmcbBts_agree (apart_of_within hapart (by decide)) i hi,
        Page.vmcbBts_agree (apart_of_within hapart (by decide)) i hi]
      exact copy_apply
  | asid =>
      change nvcSvmCleanVmcbAsid vmcbC vmcbT i = vmcbT i
      rw [nvcSvmCleanVmcbAsid, Page.vmcbBtr_agree (apart_of_within hapart (by decide)) i hi]
      exact Page.vmwrite_agree (apart_of_within hapart (by decide)) i hi
  | npt =>
      change nvcSvmCleanVmcbNp vmcbC vmcbT ncr3 i = _
      rw [nvcSvmCleanVmcbNp, Page.vmcbBtr_agree (apart_of_within hapart (by decide)) i hi, Page.vmcopy, copy_apply]
      refine if_congr Iff.rfl rfl ?_
      split
      · exact AgreeOn.copy_dest (apart_of_within hapart (by decide)) i hi
      · exact ((Page.vmwrite_agree (apart_of_within hapart (by decide))).trans
          (Page.vmwrite_agree (apart_of_within hapart (by decide)))) i hi
  | _ => exact nvcSvmCleanVmcb_apply hapart hi

end

/-! ## The world switch -/

structure NestedVcpuNode where
  /-- The physical address of the VMCB of L1. -/
  vmcbC : BitVec 64
  vmcbT : Page
  clean : Bool

/-- `vmcb` is what L1 runs on. `guestVmcb` is the node whose shadow runs next, if L1 does not. -/
structure NestedVcpu where
  vmcb : Page
  memory : BitVec 64 → Page
  nodePool : BitVec 4 → NestedVcpuNode
  svme : Bool
  hostIf : Bool
  guestVmcb : Option (BitVec 4)

/-- Eight bytes are copied for `tlb_control`, which has four. -/
def alwaysCopied : List Range :=
  [vmcopy64 tlbControl, vmcopy64 guestInterrupt, vmcopy64 eventInjection, vmcopy64 guestRflags,
    vmcopy64 guestRip, vmcopy64 guestRsp, vmcopy64 guestRax]

def exitInformation : List Range :=
  [vmcopy64 exitCode, vmcopy64 exitInfo1, vmcopy64 exitInfo2, vmcopy64 exitInterruptInfo,
    vmcopy64 nextRip, vmcopy8 numberOfBytesFetched] ++
      (List.range 15).map fun i => vmcopy8 (guestInstructionBytes + i)

/-- The state of L2 that is copied at every exit. -/
def nestedVcpuState : List Range :=
  [vmcopy64 avicControl, vmcopy64 guestInterrupt] ++ vmcopySegment guestEsSelector ++
    vmcopySegment guestCsSelector ++ vmcopySegment guestSsSelector ++ vmcopySegment guestDsSelector ++
      [vmcopy16 guestGdtrLimit, vmcopy64 guestGdtrBase,
        -- The base of the GDT is copied once more, and that of the IDT is not.
        vmcopy16 guestIdtrLimit, vmcopy64 guestGdtrBase,
        vmcopy8 guestCpl, vmcopy64 guestEfer, vmcopy64 guestCr4, vmcopy64 guestCr3, vmcopy64 guestCr0,
        vmcopy64 guestDr7, vmcopy64 guestDr6, vmcopy64 guestRflags, vmcopy64 guestRip,
        vmcopy64 guestRsp, vmcopy64 guestSCet, vmcopy64 guestSsp, vmcopy64 guestIsst,
        vmcopy64 guestRax, vmcopy64 guestCr2]

/-- The state covered by `vmload` and `vmsave`. -/
def hiddenState : List Range :=
  vmcopySegment guestFsSelector ++ vmcopySegment guestGsSelector ++ vmcopySegment guestTrSelector ++
    vmcopySegment guestLdtrSelector ++
      [vmcopy64 guestSysenterCs, vmcopy64 guestSysenterEsp, vmcopy64 guestSysenterEip,
        vmcopy64 guestStar, vmcopy64 guestLstar, vmcopy64 guestCstar, vmcopy64 guestSfmask,
        vmcopy64 guestKernelGsBase]

def avicControlVintrMask := 24
def lbrVirtControlLbr := 0

def nvcSvmVmslHelper (dest src : Page) : Page := dest.vmcopy src hiddenState

/-- The table of handlers, for the clean bits that are not set. -/
def copyUncached (ncr3 : BitVec 64) (clean : Bool) (vmcbC vmcbT : Page) : Page :=
  CleanBit.all.foldl (fun vmcbT b =>
    if !clean || !vmcbC.vmcbBt vmcbCleanBits b.number then svmCleanVmcb ncr3 vmcbC vmcbT b
    else vmcbT) vmcbT

/-- What an exit of L2 leaves in the VMCB of L1. -/
def copyExited (vmcbC vmcbT : Page) : Page :=
  let vmcbC := (vmcbC.vmcopy vmcbT exitInformation).vmcopy vmcbT nestedVcpuState
  let vmcbC :=
    if vmcbT.vmcbBt nptControl nptControlNpt then vmcbC.vmcopy vmcbT [vmcopy64 guestPat] else vmcbC
  if vmcbT.vmcbBt lbrVirtualizationControl lbrVirtControlLbr then
    vmcbC.vmcopy vmcbT CleanBit.lbr.copied
  else vmcbC

/-- What an entry of L2 leaves in the shadow. -/
def copyEntered (ncr3 : BitVec 64) (clean : Bool) (vmcbC vmcbT : Page) : Page :=
  (copyUncached ncr3 clean vmcbC vmcbT).vmcopy vmcbC alwaysCopied

def nvcSvmGetNestedVcpuNode (vmcb : BitVec 64) : BitVec 4 :=
  (List.range 13).foldl (fun hash i => hash ^^^ vmcb.extractLsb' (12 + 4 * i) 4) 0xC

namespace NestedVcpu

variable (ncr3 : BitVec 64) (s : NestedVcpu)

def nvcSvmSwitchToNestedVcpu (k : BitVec 4) : NestedVcpu :=
  let node := s.nodePool k
  let vmcbC := s.memory node.vmcbC
  let vmcbT := copyUncached ncr3 node.clean vmcbC node.vmcbT
  let hostIf :=
    if vmcbT.vmcbBt avicControl avicControlVintrMask then s.vmcb.vmcbBt guestRflags amd64RflagsIf
    else s.hostIf
  let node := { node with vmcbT := copyEntered ncr3 node.clean vmcbC node.vmcbT, clean := true }
  { s with nodePool := Function.update s.nodePool k node, hostIf, guestVmcb := some k }

def nvcSvmSwitchFromNestedVcpu (k : BitVec 4) : NestedVcpu :=
  let node := s.nodePool k
  { s with
    memory := Function.update s.memory node.vmcbC (copyExited (s.memory node.vmcbC) node.vmcbT)
    vmcb := (nvcSvmVmslHelper s.vmcb node.vmcbT).vmcbBtr guestRflags amd64RflagsIf
    guestVmcb := none }

/-- An instruction that is not executed leaves an exception for L1. -/
def inject (vector : BitVec 8) (errorValid : Bool) : NestedVcpu :=
  { s with vmcb := noirSvmInjectEvent s.vmcb vector amd64FaultTrapException errorValid true 0 }

/-- The common part of the handlers of `vmrun`, `vmload` and `vmsave`. -/
def withNestedVmcb (rax : BitVec 64) (execute : NestedVcpu) : NestedVcpu :=
  if s.svme then
    if rax.extractLsb' 0 12 ≠ 0 then s.inject amd64GeneralProtection true
    else { execute with vmcb := noirSvmAdvanceRip execute.vmcb }
  else s.inject amd64InvalidOpcode false

/-- A node that shadows another VMCB is taken over. -/
def takeNode (k : BitVec 4) (rax : BitVec 64) : NestedVcpu :=
  if (s.nodePool k).vmcbC ≠ rax then
    { s with nodePool :=
        Function.update s.nodePool k { s.nodePool k with vmcbC := rax, clean := false } }
  else s

def nvcSvmVmrunHandler (rax : BitVec 64) : NestedVcpu :=
  let k := nvcSvmGetNestedVcpuNode rax
  s.withNestedVmcb rax ((s.takeNode k rax).nvcSvmSwitchToNestedVcpu ncr3 k)

def nvcSvmVmloadHandler (rax : BitVec 64) : NestedVcpu :=
  s.withNestedVmcb rax { s with
    vmcb := nvcSvmVmslHelper s.vmcb (s.memory rax)
    nodePool := fun k =>
      { s.nodePool k with vmcbT := nvcSvmVmslHelper (s.nodePool k).vmcbT (s.memory rax) } }

def nvcSvmVmsaveHandler (rax : BitVec 64) : NestedVcpu :=
  s.withNestedVmcb rax { s with
    memory := Function.update s.memory rax (nvcSvmVmslHelper (s.memory rax) s.vmcb) }

/-- `vmrun` is executed and raises no exception. -/
def Executes (rax : BitVec 64) : Prop := s.svme = true ∧ rax.extractLsb' 0 12 = 0

instance (rax : BitVec 64) : Decidable (s.Executes rax) := inferInstanceAs (Decidable (_ ∧ _))

/-- `nvc_svm_nvexit_cpuid_handler`, with the answer for `eax`. What L1 does not intercept is answered
and not forwarded. -/
def nvcSvmNvexitCpuidHandler (vmcbC vmcbT : Page) (eax : BitVec 32) : Bool × Page :=
  if vmcbC.vmcbBt interceptInstruction1 18 then (true, vmcbT)
  else (false, noirSvmAdvanceRip (vmcbT.vmwrite32 guestRax eax))

def interceptCodeCpuid (code : BitVec 32) : Bool :=
  decide (0 ≤ code.toInt) && code &&& 0xC00 == 0 && code &&& 0x3FF == 0x72

/-- What a handler of an exit of L2 finds in the shadow. -/
def exitedVmcb (vmcbT : Page) : Page := vmcbT.vmwrite32 vmcbCleanBits 0xffffffff

/-- The part of `nvc_svm_exit_handler` for the nested guest. -/
def nvcSvmExitHandler (k : BitVec 4) (eax : BitVec 32) : NestedVcpu :=
  let node := s.nodePool k
  let vmcbT := exitedVmcb node.vmcbT
  let (forward, vmcbT) :=
    if interceptCodeCpuid (node.vmcbT.vmread32 exitCode) then
      nvcSvmNvexitCpuidHandler (s.memory node.vmcbC) vmcbT eax
    else (true, vmcbT)
  let s := { s with nodePool := Function.update s.nodePool k { node with vmcbT } }
  if forward then s.nvcSvmSwitchFromNestedVcpu k else s

/-- An exit that L1 is told of. -/
def Forwards (k : BitVec 4) : Prop :=
  interceptCodeCpuid ((s.nodePool k).vmcbT.vmread32 exitCode) = true →
    (s.memory (s.nodePool k).vmcbC).vmcbBt interceptInstruction1 18 = true

section

variable {s execute : NestedVcpu} {rax : BitVec 64} {k : BitVec 4} {eax : BitVec 32}

theorem withNestedVmcb_of_executes (h : s.Executes rax) :
    s.withNestedVmcb rax execute = { execute with vmcb := noirSvmAdvanceRip execute.vmcb } := by
  rw [withNestedVmcb, if_pos h.1, if_neg (not_not_intro h.2)]

theorem withNestedVmcb_of_not_executes (h : ¬s.Executes rax) :
    ∃ vmcb, s.withNestedVmcb rax execute = { s with vmcb } := by
  unfold withNestedVmcb
  split
  case isTrue hsvme =>
    rw [if_pos fun haligned => h ⟨hsvme, haligned⟩]
    exact ⟨_, rfl⟩
  case isFalse => exact ⟨_, rfl⟩

theorem takeNode_eq : s.takeNode k rax = { s with
    nodePool := Function.update s.nodePool k { s.nodePool k with
      vmcbC := rax
      clean := (s.nodePool k).clean && decide ((s.nodePool k).vmcbC = rax) } } := by
  unfold takeNode
  split
  case isTrue hother => rw [decide_eq_false hother, Bool.and_false]
  case isFalse hsame =>
    rw [not_not] at hsame
    rw [decide_eq_true hsame, Bool.and_true, ← hsame, Function.update_eq_self]

theorem nvcSvmSwitchToNestedVcpu_eq (ncr3 : BitVec 64) (s : NestedVcpu) (k : BitVec 4) :
    ∃ hostIf, s.nvcSvmSwitchToNestedVcpu ncr3 k = { s with
      nodePool := Function.update s.nodePool k { s.nodePool k with
        vmcbT := copyEntered ncr3 (s.nodePool k).clean (s.memory (s.nodePool k).vmcbC)
          (s.nodePool k).vmcbT
        clean := true }
      hostIf
      guestVmcb := some k } := ⟨_, rfl⟩

/-- An executed `vmrun`, up to the interrupt flag of the host. -/
theorem vmrun_of_executes (ncr3 : BitVec 64) (h : s.Executes rax) (hk : nvcSvmGetNestedVcpuNode rax = k) :
    ∃ hostIf, s.nvcSvmVmrunHandler ncr3 rax = { s with
      vmcb := noirSvmAdvanceRip s.vmcb
      hostIf
      nodePool := Function.update s.nodePool k
        { vmcbC := rax
          vmcbT := copyEntered ncr3 ((s.nodePool k).clean && decide ((s.nodePool k).vmcbC = rax))
            (s.memory rax) (s.nodePool k).vmcbT
          clean := true }
      guestVmcb := some k } := by
  unfold nvcSvmVmrunHandler
  obtain ⟨hostIf, hswitch⟩ := nvcSvmSwitchToNestedVcpu_eq ncr3 (s.takeNode k rax) k
  rw [hk, withNestedVmcb_of_executes h, hswitch, takeNode_eq]
  dsimp only
  rw [Function.update_self, Function.update_idem]
  exact ⟨_, rfl⟩

theorem exit_of_forwards (h : s.Forwards k) : s.nvcSvmExitHandler k eax = { s with
    vmcb := (nvcSvmVmslHelper s.vmcb (exitedVmcb (s.nodePool k).vmcbT)).vmcbBtr guestRflags
      amd64RflagsIf
    nodePool := Function.update s.nodePool k
      { s.nodePool k with vmcbT := exitedVmcb (s.nodePool k).vmcbT }
    memory := Function.update s.memory (s.nodePool k).vmcbC
      (copyExited (s.memory (s.nodePool k).vmcbC) (exitedVmcb (s.nodePool k).vmcbT))
    guestVmcb := none } := by
  have hforward : (if interceptCodeCpuid ((s.nodePool k).vmcbT.vmread32 exitCode) then
      nvcSvmNvexitCpuidHandler (s.memory (s.nodePool k).vmcbC) (exitedVmcb (s.nodePool k).vmcbT) eax
      else (true, exitedVmcb (s.nodePool k).vmcbT)) = (true, exitedVmcb (s.nodePool k).vmcbT) := by
    split
    case isTrue hcpuid => rw [nvcSvmNvexitCpuidHandler, if_pos (h hcpuid)]
    case isFalse => rfl
  unfold nvcSvmExitHandler
  dsimp only
  rw [hforward]
  dsimp only
  rw [if_pos rfl, nvcSvmSwitchFromNestedVcpu]
  dsimp only
  rw [Function.update_self]

theorem exit_of_not_forwards (h : ¬s.Forwards k) : s.nvcSvmExitHandler k eax = { s with
    nodePool := Function.update s.nodePool k { s.nodePool k with
      vmcbT := noirSvmAdvanceRip ((exitedVmcb (s.nodePool k).vmcbT).vmwrite32 guestRax eax) } } := by
  unfold Forwards at h
  rw [Classical.not_imp] at h
  unfold nvcSvmExitHandler
  dsimp only
  rw [if_pos h.1, nvcSvmNvexitCpuidHandler, if_neg h.2]
  rfl

end

end NestedVcpu

end NoirVisor
