import NoirVisor.Nested.Vmcb

/-!
# INIT and start-up signals

What an INIT and the start-up IPI after it leave in the VMCB and the registers of the subverted host.
-/

namespace NoirVisor

open Copying SvmVmcbOffset

def amd64SecurityException : BitVec 8 := 30
def amd64SxInitRedirection : BitVec 32 := 1

def amd64EferSvmeBit : BitVec 64 := 0x1000

def Page.vmread16 (vmcb : Page) (offset : Nat) : BitVec 16 := vmcb (offset + 1) ++ vmcb offset

/-- One `noir_svm_vmwrite`. `width` is in bytes. -/
structure VmcbWrite where
  offset : Nat
  width : Nat
  value : BitVec (8 * width)

namespace VmcbWrite

def write16 (offset : Nat) (value : BitVec 16) : VmcbWrite := ⟨offset, 2, value⟩

def write32 (offset : Nat) (value : BitVec 32) : VmcbWrite := ⟨offset, 4, value⟩

def write64 (offset : Nat) (value : BitVec 64) : VmcbWrite := ⟨offset, 8, value⟩

def range (w : VmcbWrite) : Range := ⟨w.offset, w.width⟩

end VmcbWrite

def Page.vmwrites (vmcb : Page) (ws : List VmcbWrite) : Page :=
  ws.foldl (fun vmcb w => vmcb.vmwrite w.offset w.width w.value) vmcb

section Signals

open VmcbWrite

def segmentWrites (selector : Nat) (value attrib : BitVec 16) (limit : BitVec 32)
    (base : BitVec 64) : List VmcbWrite :=
  [write16 selector value, write16 (selector + 2) attrib, write32 (selector + 4) limit,
    write64 (selector + 8) base]

/-- Bits CD and NW of CR0 stay. -/
def initWrites (cr0 : BitVec 64) : List VmcbWrite :=
  [write64 guestCr0 (cr0 &&& 0x60000000 ||| 0x10), write64 guestCr2 0, write64 guestCr3 0,
    write64 guestCr4 0, write64 guestEfer amd64EferSvmeBit, write64 guestDr6 0xFFFF0FF0,
    write64 guestDr7 0x400] ++
  segmentWrites guestCsSelector 0xF000 0x9B 0xFFFF 0xFFFF0000 ++
  segmentWrites guestDsSelector 0 0x93 0xFFFF 0 ++ segmentWrites guestEsSelector 0 0x93 0xFFFF 0 ++
  segmentWrites guestFsSelector 0 0x93 0xFFFF 0 ++ segmentWrites guestGsSelector 0 0x93 0xFFFF 0 ++
  segmentWrites guestSsSelector 0 0x93 0xFFFF 0 ++
  [write32 guestGdtrLimit 0xFFFF, write64 guestGdtrBase 0, write32 guestIdtrLimit 0xFFFF,
    write64 guestIdtrBase 0] ++
  segmentWrites guestLdtrSelector 0 0x82 0xFFFF 0 ++ segmentWrites guestTrSelector 0 0x8B 0xFFFF 0 ++
  [write16 guestGdtrLimit 0xFFFF, write16 guestIdtrLimit 0xFFFF, write64 guestGdtrBase 0,
    write64 guestIdtrBase 0, write64 guestRsp 0, write64 guestRip 0xFFF0, write64 guestRflags 2,
    ⟨tlbControl, 1, 3#8⟩]

/-- What changed: the control, debug and segment registers, the descriptor tables and CR2. -/
def initDirty (vmcb : Page) : Page :=
  [5, 6, 7, 8, 9].foldl (fun vmcb bit => vmcb.vmcbBtr vmcbCleanBits bit) vmcb

/-- The state that an INIT resets. -/
structure InitState where
  vmcb : Page
  gprState : BitVec 4 → BitVec 64
  dr : BitVec 2 → BitVec 64

/-- The processor is not put into the state that waits for a start-up IPI. -/
def nvcSvmEmulateInitSignal (s : InitState) (cpuidFms : BitVec 32) : InitState where
  vmcb := initDirty (s.vmcb.vmwrites (initWrites (s.vmcb.vmread64 guestCr0)))
  gprState r := if r = 2 then cpuidFms.setWidth 64 else 0
  dr _ := 0

/-- What follows the wait. `sipi_vector` is read twice. -/
def startupIpi (vmcb : Page) (selectorVector baseVector : BitVec 8) : Page :=
  vmcb.vmwrites [write16 guestCsSelector (selectorVector.setWidth 16 <<< 8),
    write64 (guestCsSelector + 8) (baseVector.setWidth 64 <<< 12), write64 guestRip 0]

end Signals

section Writes

variable {vmcb : Page} {rs : List Range} {ws : List VmcbWrite}

theorem Page.vmwrites_agree (hapart : apart rs (ws.map VmcbWrite.range) = true) :
    AgreeOn rs (vmcb.vmwrites ws) vmcb := by
  induction ws generalizing vmcb with
  | nil => exact .refl
  | cons w ws ih =>
      have hhead : within [w.range] (w.range :: ws.map VmcbWrite.range) = true :=
        within_of_subset (List.cons_subset_cons _ (List.nil_subset _))
      have htail : within (ws.map VmcbWrite.range) (w.range :: ws.map VmcbWrite.range) = true :=
        within_of_subset (List.subset_cons_self _ _)
      exact (ih (apart_of_within hapart htail)).trans
        (Page.vmwrite_agree (apart_of_within hapart hhead))

end Writes

section Signals

variable {vmcb : Page} {rs : List Range} {selectorVector baseVector : BitVec 8}

/-- The fields that a start-up IPI sets. -/
def startupFields : List Range :=
  [vmcopy16 guestCsSelector, vmcopy64 (guestCsSelector + 8), vmcopy64 guestRip]

theorem startupIpi_agree (hapart : apart rs startupFields = true) :
    AgreeOn rs (startupIpi vmcb selectorVector baseVector) vmcb := Page.vmwrites_agree hapart

theorem startupIpi_rip : (startupIpi vmcb selectorVector baseVector).vmread64 guestRip = 0 :=
  Page.vmread64_vmwrite64

theorem startupIpi_csBase :
    (startupIpi vmcb selectorVector baseVector).vmread64 (guestCsSelector + 8) =
      baseVector.setWidth 64 <<< 12 := by
  have hrip : AgreeOn [vmcopy64 (guestCsSelector + 8)]
      (startupIpi vmcb selectorVector baseVector) _ := Page.vmwrite_agree (by decide)
  rw [Page.vmread64_of_agree hrip]
  exact Page.vmread64_vmwrite64

theorem startupIpi_csSelector :
    (startupIpi vmcb selectorVector baseVector).vmread16 guestCsSelector =
      selectorVector.setWidth 16 <<< 8 := by
  have hkept : AgreeOn [vmcopy16 guestCsSelector] (startupIpi vmcb selectorVector baseVector)
      (vmcb.vmwrite guestCsSelector 2 (selectorVector.setWidth 16 <<< 8)) :=
    (Page.vmwrite_agree rfl).trans (Page.vmwrite_agree rfl)
  unfold Page.vmread16
  rw [hkept (guestCsSelector + 1) (by decide), hkept guestCsSelector (by decide),
    Page.vmwrite_byte (i := guestCsSelector + 1) rfl (by decide),
    Page.vmwrite_byte (Nat.add_zero guestCsSelector).symm (by decide)]
  exact BitVec.extractLsb'_append_extractLsb'

/-- The fields that an INIT writes. -/
def initFields : List Range :=
  (initWrites 0).map VmcbWrite.range ++ [vmcopy32 vmcbCleanBits]

theorem initDirty_agree (hapart : apart rs [vmcopy32 vmcbCleanBits] = true) :
    AgreeOn rs (initDirty vmcb) vmcb := by
  have hbit : ∀ (v : Page) (bit : Nat), bit < 32 → AgreeOn rs (v.vmcbBtr vmcbCleanBits bit) v := by
    intro v bit hbit
    apply Page.vmcbBtr_agree
    apply apart_of_within hapart
    unfold within vmcopy32
    simp only [List.all_cons, List.all_nil, List.any_cons, List.any_nil, Bool.or_false,
      Bool.and_true, decide_eq_true_eq]
    omega
  unfold initDirty
  simp only [List.foldl_cons, List.foldl_nil]
  exact (hbit _ 9 (by decide)).trans ((hbit _ 8 (by decide)).trans ((hbit _ 7 (by decide)).trans
    ((hbit _ 6 (by decide)).trans (hbit _ 5 (by decide)))))

theorem initDirty_agree_of_apart (hapart : apart rs initFields = true) :
    AgreeOn rs (initDirty vmcb) vmcb :=
  initDirty_agree (apart_of_within hapart (by decide))

theorem nvcSvmEmulateInitSignal_agree {s : InitState} {cpuidFms : BitVec 32}
    (hapart : apart rs initFields = true) :
    AgreeOn rs (nvcSvmEmulateInitSignal s cpuidFms).vmcb s.vmcb := by
  apply (initDirty_agree_of_apart hapart).trans
  apply Page.vmwrites_agree
  exact apart_of_within hapart (within_of_subset (List.subset_append_left _ _))

/-- An INIT masks interrupts. -/
theorem nvcSvmEmulateInitSignal_if {s : InitState} {cpuidFms : BitVec 32} :
    (nvcSvmEmulateInitSignal s cpuidFms).vmcb.vmcbBt guestRflags amd64RflagsIf = false := by
  have hlast : ∀ (v : Page) (cr0 : BitVec 64), v.vmwrites (initWrites cr0) =
      ((v.vmwrites (initWrites cr0).dropLast.dropLast).vmwrite64 guestRflags 2).vmwrite tlbControl 1
        3#8 := fun _ _ => rfl
  have hdirty : AgreeOn [vmcopy64 guestRflags] (nvcSvmEmulateInitSignal s cpuidFms).vmcb
      (s.vmcb.vmwrites (initWrites (s.vmcb.vmread64 guestCr0))) := initDirty_agree (by decide)
  have htlb : ∀ v : Page, AgreeOn [vmcopy64 guestRflags] (v.vmwrite tlbControl 1 3#8) v :=
    fun _ => Page.vmwrite_agree (by decide)
  rw [Page.vmcbBt_of_agree hdirty (by decide), hlast, Page.vmcbBt_of_agree (htlb _) (by decide),
    Page.vmcbBt, Page.vmwrite64, Page.vmwrite_byte rfl (by decide)]
  decide

end Signals

end NoirVisor
