import NoirVisor.Copying
import NoirVisor.Tlb.Tagging

/-!
# The VMCB

A VMCB is a page of bytes. The code reads and writes it by offset, in units of one to eight bytes.
-/

namespace NoirVisor

open Copying

abbrev Page := Nat → BitVec 8

/-! `svm_vmcb_offset`. -/

namespace SvmVmcbOffset

def interceptAccessCr := 0x0
def interceptAccessDr := 0x4
def interceptExceptions := 0x8
def interceptInstruction1 := 0xC
def interceptInstruction2 := 0x10
def interceptInstruction3 := 0x14
def pauseFilterThreshold := 0x3C
def pauseFilterCount := 0x3E
def iopmPhysicalAddress := 0x40
def msrpmPhysicalAddress := 0x48
def tscOffset := 0x50
def guestAsid := 0x58
def tlbControl := 0x5C
def avicControl := 0x60
def guestInterrupt := 0x68
def exitCode := 0x70
def exitInfo1 := 0x78
def exitInfo2 := 0x80
def exitInterruptInfo := 0x88
def nptControl := 0x90
def avicApicBar := 0x98
def eventInjection := 0xA8
def nptCr3 := 0xB0
def lbrVirtualizationControl := 0xB8
def vmcbCleanBits := 0xC0
def nextRip := 0xC8
def numberOfBytesFetched := 0xD0
def guestInstructionBytes := 0xD1
def avicBackingPagePointer := 0xE0
def avicLogicalTablePointer := 0xF0
def avicPhysicalTablePointer := 0xF8
def guestEsSelector := 0x400
def guestCsSelector := 0x410
def guestSsSelector := 0x420
def guestDsSelector := 0x430
def guestFsSelector := 0x440
def guestGsSelector := 0x450
def guestGdtrLimit := 0x464
def guestGdtrBase := 0x468
def guestLdtrSelector := 0x470
def guestIdtrLimit := 0x484
def guestIdtrBase := 0x488
def guestTrSelector := 0x490
def guestCpl := 0x4CB
def guestEfer := 0x4D0
def guestCr4 := 0x548
def guestCr3 := 0x550
def guestCr0 := 0x558
def guestDr7 := 0x560
def guestDr6 := 0x568
def guestRflags := 0x570
def guestRip := 0x578
def guestRsp := 0x5D8
def guestSCet := 0x5E0
def guestSsp := 0x5E8
def guestIsst := 0x5F0
def guestRax := 0x5F8
def guestStar := 0x600
def guestLstar := 0x608
def guestCstar := 0x610
def guestSfmask := 0x618
def guestKernelGsBase := 0x620
def guestSysenterCs := 0x628
def guestSysenterEsp := 0x630
def guestSysenterEip := 0x638
def guestCr2 := 0x640
def guestPat := 0x668
def guestDebugCtrl := 0x670
def guestLastBranchFrom := 0x678
def guestLastBranchTo := 0x680
def guestLastExceptionFrom := 0x688
def guestLastExceptionTo := 0x690

end SvmVmcbOffset

open SvmVmcbOffset

/-! Copies of one field, and of the selector, attributes, limit and base of a segment register. -/

def vmcopy8 (offset : Nat) : Range := ⟨offset, 1⟩

def vmcopy16 (offset : Nat) : Range := ⟨offset, 2⟩

def vmcopy32 (offset : Nat) : Range := ⟨offset, 4⟩

def vmcopy64 (offset : Nat) : Range := ⟨offset, 8⟩

def vmcopySegment (selector : Nat) : List Range :=
  [vmcopy16 selector, vmcopy16 (selector + 2), vmcopy32 (selector + 4), vmcopy64 (selector + 8)]

namespace Page

variable (vmcb : Page) (offset : Nat)

def vmread32 : BitVec 32 :=
  vmcb (offset + 3) ++ vmcb (offset + 2) ++ vmcb (offset + 1) ++ vmcb offset

def vmread64 : BitVec 64 := vmread32 vmcb (offset + 4) ++ vmread32 vmcb offset

/-- `width` is in bytes. -/
def vmwrite (width : Nat) (value : BitVec (8 * width)) : Page :=
  fun i => if offset ≤ i ∧ i < offset + width then value.extractLsb' (8 * (i - offset)) 8 else vmcb i

def vmwrite32 (value : BitVec 32) : Page := vmcb.vmwrite offset 4 value

def vmwrite64 (value : BitVec 64) : Page := vmcb.vmwrite offset 8 value

/-- `dest` comes first. -/
def vmcopy (dest src : Page) (fields : List Range) : Page := copy src dest fields

/-! A bit is counted from the lowest of the byte at the offset. -/

def vmcbBt (bit : Nat) : Bool := (vmcb (offset + bit / 8)).getLsbD (bit % 8)

def vmcbBts (bit : Nat) : Page :=
  Function.update vmcb (offset + bit / 8) (vmcb (offset + bit / 8) ||| 1#8 <<< (bit % 8))

def vmcbBtr (bit : Nat) : Page :=
  Function.update vmcb (offset + bit / 8) (vmcb (offset + bit / 8) &&& ~~~(1#8 <<< (bit % 8)))

variable {vmcb : Page} {offset bit bit' : Nat} {rs : List Range}

theorem vmwrite_byte {width i k : Nat} {value : BitVec (8 * width)} (hi : i = offset + k)
    (hk : k < width) : vmcb.vmwrite offset width value i = value.extractLsb' (8 * k) 8 := by
  rw [vmwrite, if_pos (by omega), hi, Nat.add_sub_cancel_left]

theorem vmread32_vmwrite {width i : Nat} {value : BitVec (8 * width)} (k : Nat) (hi : i = offset + k)
    (hk : k + 4 ≤ width) :
    (vmcb.vmwrite offset width value).vmread32 i = value.extractLsb' (8 * k) 32 := by
  have hbyte : ∀ j < 4,
      vmcb.vmwrite offset width value (i + j) = value.extractLsb' (8 * k + 8 * j) 8 := by
    intro j hj
    rw [vmwrite_byte (k := k + j) (by omega) (by omega), Nat.mul_add]
  unfold vmread32
  rw [hbyte 3 (by omega), hbyte 2 (by omega), hbyte 1 (by omega), ← Nat.add_zero i,
    hbyte 0 (by omega), BitVec.extractLsb'_append_extractLsb'_eq_extractLsb' (by omega),
    BitVec.extractLsb'_append_extractLsb'_eq_extractLsb' (by omega),
    BitVec.extractLsb'_append_extractLsb'_eq_extractLsb' (by omega)]
  rfl

theorem vmread64_vmwrite64 {value : BitVec 64} :
    (vmcb.vmwrite64 offset value).vmread64 offset = value := by
  unfold vmread64 vmwrite64
  rw [vmread32_vmwrite 4 rfl (by omega), vmread32_vmwrite 0 (Nat.add_zero offset).symm (by omega)]
  exact BitVec.extractLsb'_append_extractLsb'

theorem vmread32_of_eq {vmcb' : Page} (h : ∀ j < 4, vmcb (offset + j) = vmcb' (offset + j)) :
    vmcb.vmread32 offset = vmcb'.vmread32 offset := by
  have hfirst : vmcb offset = vmcb' offset := h 0 (by omega)
  unfold vmread32
  rw [h 3 (by omega), h 2 (by omega), h 1 (by omega), hfirst]

theorem vmread32_vmwrite32 {value : BitVec 32} :
    (vmcb.vmwrite32 offset value).vmread32 offset = value := by
  have hread : (vmcb.vmwrite32 offset value).vmread32 offset = value.extractLsb' (8 * 0) 32 :=
    vmread32_vmwrite 0 (Nat.add_zero offset).symm (by decide)
  exact hread.trans BitVec.extractLsb'_eq_self

theorem vmread32_of_agree {vmcb' : Page} (h : AgreeOn [vmcopy32 offset] vmcb vmcb') :
    vmcb.vmread32 offset = vmcb'.vmread32 offset := by
  apply vmread32_of_eq
  intro j hj
  apply h
  rw [covers_single]
  exact ⟨Nat.le_add_right offset j, Nat.add_lt_add_left hj offset⟩

theorem vmread64_of_agree {vmcb' : Page} (h : AgreeOn [vmcopy64 offset] vmcb vmcb') :
    vmcb.vmread64 offset = vmcb'.vmread64 offset := by
  have hbyte : ∀ j < 8, vmcb (offset + j) = vmcb' (offset + j) := by
    intro j hj
    apply h
    rw [covers_single]
    exact ⟨Nat.le_add_right offset j, Nat.add_lt_add_left hj offset⟩
  have hhigh : vmcb.vmread32 (offset + 4) = vmcb'.vmread32 (offset + 4) :=
    vmread32_of_eq fun j hj => by
      rw [Nat.add_assoc]
      exact hbyte (4 + j) (by omega)
  unfold vmread64
  rw [hhigh, vmread32_of_eq fun j hj => hbyte j (by omega)]

theorem vmwrite_agree {width : Nat} {value : BitVec (8 * width)}
    (hapart : apart rs [⟨offset, width⟩] = true) :
    AgreeOn rs (vmcb.vmwrite offset width value) vmcb := by
  intro i hi
  exact if_neg (not_has_of_apart hapart hi)

theorem update_agree {value : BitVec 8} (hapart : apart rs [⟨offset, 1⟩] = true) :
    AgreeOn rs (Function.update vmcb offset value) vmcb := by
  intro i hi
  refine Function.update_of_ne (fun hsame => not_has_of_apart hapart hi ?_) _ _
  exact ⟨hsame.ge, hsame.trans_lt (Nat.lt_succ_self _)⟩

theorem vmcbBts_agree (hapart : apart rs [⟨offset + bit / 8, 1⟩] = true) :
    AgreeOn rs (vmcb.vmcbBts offset bit) vmcb := update_agree hapart

theorem vmcbBtr_agree (hapart : apart rs [⟨offset + bit / 8, 1⟩] = true) :
    AgreeOn rs (vmcb.vmcbBtr offset bit) vmcb := update_agree hapart

theorem vmcbBt_of_agree {vmcb' : Page} (h : AgreeOn rs vmcb vmcb')
    (hcovers : covers rs (offset + bit / 8) = true) :
    vmcb.vmcbBt offset bit = vmcb'.vmcbBt offset bit :=
  congrArg (BitVec.getLsbD · (bit % 8)) (h _ hcovers)

theorem vmcbBt_vmcbBtr_self : (vmcb.vmcbBtr offset bit).vmcbBt offset bit = false := by
  have hlt : bit % 8 < 8 := Nat.mod_lt _ (by omega)
  unfold vmcbBt vmcbBtr
  rw [Function.update_self]
  simp [hlt]

/-- A bit that is reset sets no other. -/
theorem vmcbBt_vmcbBtr (h : vmcb.vmcbBt offset bit' = false) :
    (vmcb.vmcbBtr offset bit).vmcbBt offset bit' = false := by
  unfold vmcbBt vmcbBtr at *
  by_cases hbyte : offset + bit' / 8 = offset + bit / 8
  · rw [hbyte] at h ⊢
    rw [Function.update_self, BitVec.getLsbD_and, h, Bool.false_and]
  · rw [Function.update_of_ne hbyte]
    exact h

end Page

/-! Events are injected through the VMCB; the instruction pointer goes to the next instruction. -/

/-- `amd64_event_injection`. -/
def amd64EventInjection (vector : BitVec 8) (type : BitVec 3) (errorValid valid : Bool)
    (errorCode : BitVec 32) : BitVec 64 :=
  errorCode ++ BitVec.ofBool valid ++ 0#19 ++ BitVec.ofBool errorValid ++ type ++ vector

def amd64DebugException : BitVec 8 := 1
def amd64InvalidOpcode : BitVec 8 := 6
def amd64GeneralProtection : BitVec 8 := 13
def amd64FaultTrapException : BitVec 3 := 3
def amd64RflagsTf := 8
def amd64RflagsIf := 9

section

variable {vector : BitVec 8} {type : BitVec 3} {errorValid valid : Bool} {errorCode : BitVec 32}

theorem amd64EventInjection_vector :
    (amd64EventInjection vector type errorValid valid errorCode).extractLsb' 0 8 = vector :=
  BitVec.extractLsb'_append_eq_right

theorem amd64EventInjection_valid :
    (amd64EventInjection vector type errorValid valid errorCode).getLsbD 31 = valid := by
  change (errorCode ++ BitVec.ofBool valid ++ 0#19 ++ BitVec.ofBool errorValid ++ type ++ vector :
    BitVec (32 + 1 + 19 + 1 + 3 + 8)).getLsbD 31 = valid
  rw [BitVec.getLsbD_append, if_neg (by decide), BitVec.getLsbD_append, if_neg (by decide),
    BitVec.getLsbD_append, if_neg (by decide), BitVec.getLsbD_append, if_neg (by decide),
    BitVec.getLsbD_append, if_pos (by decide)]
  cases valid <;> rfl

end

def noirSvmInjectEvent (vmcb : Page) (vector : BitVec 8) (type : BitVec 3) (errorValid valid : Bool)
    (errorCode : BitVec 32) : Page :=
  vmcb.vmwrite64 eventInjection (amd64EventInjection vector type errorValid valid errorCode)

def noirSvmAdvanceRip (vmcb : Page) : Page :=
  let nrip := vmcb.vmread64 nextRip
  let vmcb := if vmcb.vmcbBt guestRflags amd64RflagsTf then
    noirSvmInjectEvent vmcb amd64DebugException amd64FaultTrapException false true 0 else vmcb
  if nrip ≠ 0 then vmcb.vmwrite64 guestRip nrip else vmcb

section

variable {vmcb : Page} {rs : List Range} {i : Nat}

/-- What an instruction that is skipped leaves alone. -/
theorem noirSvmAdvanceRip_of_not_covers
    (h : covers [vmcopy64 eventInjection, vmcopy64 guestRip] i = false) :
    noirSvmAdvanceRip vmcb i = vmcb i := by
  have hout : ∀ r ∈ [vmcopy64 eventInjection, vmcopy64 guestRip], ¬r.Has i :=
    fun r hr => of_decide_eq_false (Bool.eq_false_iff.mpr (List.any_eq_false.mp h r hr))
  have hevent : ∀ value, vmcb.vmwrite64 eventInjection value i = vmcb i :=
    fun _ => if_neg (hout _ List.mem_cons_self)
  have hrip : ∀ (v : Page) value, v.vmwrite64 guestRip value i = v i :=
    fun _ _ => if_neg (hout _ (List.mem_cons_of_mem _ List.mem_cons_self))
  unfold noirSvmAdvanceRip
  split <;> split
  · exact (hrip _ _).trans (hevent _)
  · exact hrip _ _
  · exact hevent _
  · rfl

theorem noirSvmAdvanceRip_agree
    (hapart : apart rs [vmcopy64 eventInjection, vmcopy64 guestRip] = true) :
    AgreeOn rs (noirSvmAdvanceRip vmcb) vmcb :=
  fun _ hi => noirSvmAdvanceRip_of_not_covers (covers_of_apart hapart hi)

theorem noirSvmAdvanceRip_rip (h : vmcb.vmread64 nextRip ≠ 0) :
    (noirSvmAdvanceRip vmcb).vmread64 guestRip = vmcb.vmread64 nextRip := by
  unfold noirSvmAdvanceRip
  dsimp only
  rw [if_pos h]
  exact Page.vmread64_vmwrite64

/-- Without a next instruction pointer the guest stays where it is. -/
theorem noirSvmAdvanceRip_guestRip : (noirSvmAdvanceRip vmcb).vmread64 guestRip =
    if vmcb.vmread64 nextRip ≠ 0 then vmcb.vmread64 nextRip else vmcb.vmread64 guestRip := by
  by_cases h : vmcb.vmread64 nextRip = 0
  · rw [if_neg (not_not.mpr h)]
    unfold noirSvmAdvanceRip
    dsimp only
    rw [if_neg (not_not.mpr h)]
    split
    · exact Page.vmread64_of_agree (Page.vmwrite_agree (by decide))
    · rfl
  · rw [if_pos h]
    exact noirSvmAdvanceRip_rip h

/-- A single step replaces the event there is. -/
theorem noirSvmAdvanceRip_eventInjection : (noirSvmAdvanceRip vmcb).vmread64 eventInjection =
    if vmcb.vmcbBt guestRflags amd64RflagsTf then
      amd64EventInjection amd64DebugException amd64FaultTrapException false true 0
    else vmcb.vmread64 eventInjection := by
  have hrip : ∀ (v : Page) (nrip : BitVec 64),
      (if nrip ≠ 0 then v.vmwrite64 guestRip nrip else v).vmread64 eventInjection =
        v.vmread64 eventInjection := by
    intro v nrip
    split
    · exact Page.vmread64_of_agree (Page.vmwrite_agree (by decide))
    · rfl
  refine (hrip _ _).trans ?_
  split
  · exact Page.vmread64_vmwrite64
  · rfl

/-- The only event there can be after it is a debug exception. -/
theorem noirSvmAdvanceRip_event (vmcb : Page) :
    noirSvmAdvanceRip vmcb eventInjection = amd64DebugException ∨
      AgreeOn [vmcopy64 eventInjection] (noirSvmAdvanceRip vmcb) vmcb := by
  have hrip : ∀ (v : Page) (nrip : BitVec 64), AgreeOn [vmcopy64 eventInjection]
      (if nrip ≠ 0 then v.vmwrite64 guestRip nrip else v) v := by
    intro v nrip
    split
    · exact Page.vmwrite_agree (by decide)
    · exact .refl
  have hdebug : noirSvmInjectEvent vmcb amd64DebugException amd64FaultTrapException false true 0
      eventInjection = amd64DebugException := by
    rw [noirSvmInjectEvent, Page.vmwrite64,
      Page.vmwrite_byte (Nat.add_zero eventInjection).symm (by decide)]
    decide
  unfold noirSvmAdvanceRip
  by_cases htf : vmcb.vmcbBt guestRflags amd64RflagsTf = true
  · rw [if_pos htf]
    exact .inl ((hrip _ _ _ (by decide)).trans hdebug)
  · rw [if_neg htf]
    exact .inr (hrip _ _)

end

end NoirVisor
