import NoirVisor.Nested.Vmcb

/-!
# Non-privileged instruction execution prevention

The subverted host may ask that `sidt`, `sgdt`, `sldt` and `str` be intercepted. They are not while
CR4.UMIP is set, so writes to CR4 are intercepted as well.
-/

namespace NoirVisor

open Copying SvmVmcbOffset

inductive NpiepInstruction where
  | sidt | sgdt | sldt | str
deriving DecidableEq

namespace NpiepInstruction

/-- `nvc_svm_instruction_intercept1`. -/
def interceptBit : NpiepInstruction → Nat
  | sidt => 6
  | sgdt => 7
  | sldt => 8
  | str => 9

/-- `noir_mshv_npiep_prevent_*`. -/
def preventBit : NpiepInstruction → Nat
  | sidt => 1
  | sgdt => 0
  | sldt => 2
  | str => 3

end NpiepInstruction

def amd64Cr4Pse := 4
def amd64Cr4Pae := 5
def amd64Cr4Pge := 7
def amd64Cr4Umip := 11
def amd64Cr4Pcide := 17
def amd64Cr4Pke := 22

def noirSvmCleanInterception := 0
def noirSvmCleanControlReg := 5

def nvcSvmTlbControlFlushGuest : BitVec 8 := 3

/-- The `l` bit of the attributes of CS. -/
def csAttribLong := 9

def guestCsAttrib := guestCsSelector + 2

/-- An assignment to a field of one bit. -/
def assignBit {n : Nat} (word : BitVec n) (bit : Nat) (value : Bool) : BitVec n :=
  if value then word ||| 1#n <<< bit else word &&& ~~~(1#n <<< bit)

/-- The four fields of the word. -/
def assignNpiep (list1 : BitVec 32) (value : NpiepInstruction → Bool) : BitVec 32 :=
  [.sidt, .sgdt, .sldt, .str].foldl (fun word i => assignBit word i.interceptBit (value i)) list1

/-- The vCPU of the subverted host. -/
structure SubvertedVcpu where
  vmcb : Page
  npiepConfig : BitVec 64

namespace SubvertedVcpu

variable (vcpu : SubvertedVcpu)

def cr4 : BitVec 64 := vcpu.vmcb.vmread64 guestCr4

def list1 : BitVec 32 := vcpu.vmcb.vmread32 interceptInstruction1

def advanced : SubvertedVcpu := { vcpu with vmcb := noirSvmAdvanceRip vcpu.vmcb }

/-- It reads CR4 from the VMCB. -/
def nvcSvmReconfigureNpiepInterceptions : SubvertedVcpu :=
  let list1 :=
    if vcpu.cr4.getLsbD amd64Cr4Umip then assignNpiep vcpu.list1 fun _ => false
    else assignNpiep vcpu.list1 fun i => vcpu.npiepConfig.getLsbD i.preventBit
  { vcpu with
    vmcb := (vcpu.vmcb.vmwrite32 interceptInstruction1 list1).vmcbBtr vmcbCleanBits
      noirSvmCleanInterception }

/-- The checks that go to `cr4_flush`. -/
def cr4Flush (oldCr4 newCr4 : BitVec 64) : Bool :=
  newCr4.getLsbD amd64Cr4Pae != oldCr4.getLsbD amd64Cr4Pae ||
  newCr4.getLsbD amd64Cr4Pse != oldCr4.getLsbD amd64Cr4Pse ||
  newCr4.getLsbD amd64Cr4Pge != oldCr4.getLsbD amd64Cr4Pge ||
  (newCr4.getLsbD amd64Cr4Pke && !oldCr4.getLsbD amd64Cr4Pke) ||
  (!newCr4.getLsbD amd64Cr4Pcide && oldCr4.getLsbD amd64Cr4Pcide)

def writeCr4 (newCr4 : BitVec 64) : SubvertedVcpu :=
  { vcpu with vmcb := vcpu.vmcb.vmwrite64 guestCr4 newCr4 }

def dirtyControlReg : SubvertedVcpu :=
  { vcpu with vmcb := vcpu.vmcb.vmcbBtr vmcbCleanBits noirSvmCleanControlReg }

def flushGuest : SubvertedVcpu :=
  { vcpu with vmcb := vcpu.vmcb.vmwrite tlbControl 1 nvcSvmTlbControlFlushGuest }

/-- The new value comes from the frame, and so it does for `rsp`. -/
def nvcSvmCr4WriteHandler (gprState : BitVec 4 → BitVec 64) : SubvertedVcpu :=
  let oldCr4 := vcpu.cr4
  let newCr4 := gprState ((vcpu.vmcb.vmread64 exitInfo1).setWidth 4)
  if newCr4 = oldCr4 then vcpu.advanced
  else
    let vcpu := vcpu.writeCr4 newCr4
    let vcpu := if oldCr4.getLsbD amd64Cr4Umip != newCr4.getLsbD amd64Cr4Umip then
      vcpu.nvcSvmReconfigureNpiepInterceptions else vcpu
    let vcpu := vcpu.dirtyControlReg
    let vcpu := if cr4Flush oldCr4 newCr4 then vcpu.flushGuest else vcpu
    vcpu.advanced

def nvcMshvMsrR40000040Handler (val : BitVec 64) : SubvertedVcpu :=
  nvcSvmReconfigureNpiepInterceptions { vcpu with npiepConfig := val }

/-- The branch for `hv_x64_msr_npiep_config`. The handler of that register raises no event. -/
def nvcSvmWrmsrHandler (cpuidHvPresence : Bool) (gprState : BitVec 4 → BitVec 64) : SubvertedVcpu :=
  if cpuidHvPresence then
    let vcpu := vcpu.nvcMshvMsrR40000040Handler
      ((gprState 2).setWidth 32 ++ (gprState 0).setWidth 32)
    { vcpu with vmcb := vcpu.vmcb.vmwrite64 eventInjection 0 }
  else
    { vcpu with vmcb :=
        noirSvmInjectEvent vcpu.vmcb amd64GeneralProtection amd64FaultTrapException true true 0 }

def nvcSvmMsrHandler (cpuidHvPresence : Bool) (gprState : BitVec 4 → BitVec 64) : SubvertedVcpu :=
  (vcpu.nvcSvmWrmsrHandler cpuidHvPresence gprState).advanced

end SubvertedVcpu

/-- What the host writes: CR4 from a register, or its configuration of NPIEP. -/
inductive NpiepAccess where
  | cr4 (gpr : BitVec 4)
  | npiepConfig

/-- An exit of the host. `left` is what the host and the processor leave in the VMCB, `gpr` are the
registers of the host, and `rspSlot` is in the frame where `rsp` would be. -/
structure NpiepExit where
  access : NpiepAccess
  left : Page
  gpr : BitVec 4 → BitVec 64
  rspSlot : BitVec 64

namespace NpiepExit

variable (e : NpiepExit)

/-- While the host runs, nobody changes the intercepts, and no write to CR4 goes through. -/
def kept : List Range := [⟨interceptAccessCr, 0x18⟩, vmcopy64 guestCr4]

/-- The processor tells the register of a write to CR4, and the direction of an access to an MSR. -/
def exitInfo : BitVec 64 :=
  match e.access with
  | .cr4 gpr => 1#1 ++ 0#59 ++ gpr
  | .npiepConfig => 1

def vmcb (page : Page) : Page :=
  (((Page.vmcopy e.left page kept).vmwrite64 exitInfo1 e.exitInfo).vmwrite64 guestRax
    (e.gpr 0)).vmwrite64 guestRsp (e.gpr 4)

/-- The registers that were pushed, with `rax` from the VMCB. -/
def gprState : BitVec 4 → BitVec 64 := Function.update e.gpr 4 e.rspSlot

/-- The operand of a move from the register, as wide as the mode has it. -/
def operand (gpr : BitVec 4) : BitVec 64 :=
  if e.left.vmcbBt guestCsAttrib csAttribLong then e.gpr gpr
  else ((e.gpr gpr).setWidth 32).setWidth 64

end NpiepExit

namespace SubvertedVcpu

section

variable (caching cpuidHvPresence : Bool) (e : NpiepExit) (vcpu : SubvertedVcpu)

/-- What `nvc_svm_exit_handler` does before it calls the handler. -/
def exited : SubvertedVcpu :=
  let vmcb := e.vmcb vcpu.vmcb
  let vmcb := if caching then vmcb.vmwrite32 vmcbCleanBits (BitVec.allOnes 32) else vmcb
  { vcpu with vmcb := vmcb.vmwrite32 tlbControl 0 }

def handled : SubvertedVcpu :=
  match e.access with
  | .cr4 _ => vcpu.nvcSvmCr4WriteHandler e.gprState
  | .npiepConfig => vcpu.nvcSvmMsrHandler cpuidHvPresence e.gprState

def nvcSvmExitHandler : SubvertedVcpu :=
  let vcpu := (vcpu.exited caching e).handled cpuidHvPresence e
  { vcpu with vmcb := vcpu.vmcb.vmwrite64 guestRax (e.gprState 0) }

end

/-- Each instruction is intercepted exactly as long as UMIP leaves it to the configuration. -/
def Intercepts (vcpu : SubvertedVcpu) : Prop :=
  ∀ i : NpiepInstruction, vcpu.list1.getLsbD i.interceptBit =
    (!vcpu.cr4.getLsbD amd64Cr4Umip && vcpu.npiepConfig.getLsbD i.preventBit)

/-- The intercepts around the word of the four instructions. -/
def otherIntercepts : List Range := [⟨interceptAccessCr, 0xC⟩, ⟨interceptInstruction2, 8⟩]

/-- When a write to CR4 invalidates the TLB. -/
def FlushRequired (oldCr4 newCr4 : BitVec 64) : Prop :=
  (∃ bit ∈ [amd64Cr4Pae, amd64Cr4Pse, amd64Cr4Pge], oldCr4.getLsbD bit ≠ newCr4.getLsbD bit) ∨
  (oldCr4.getLsbD amd64Cr4Pke = false ∧ newCr4.getLsbD amd64Cr4Pke = true) ∨
  (oldCr4.getLsbD amd64Cr4Pcide = true ∧ newCr4.getLsbD amd64Cr4Pcide = false)

/-- What is to hold of an exit that leaves `vcpu'`. -/
structure ExitBehaves (cpuidHvPresence : Bool) (e : NpiepExit) (vcpu vcpu' : SubvertedVcpu) :
    Prop where
  intercepts : vcpu'.Intercepts
  others : AgreeOn otherIntercepts vcpu'.vmcb vcpu.vmcb
  otherBits : ∀ bit, (∀ i : NpiepInstruction, bit ≠ i.interceptBit) →
    vcpu'.list1.getLsbD bit = vcpu.list1.getLsbD bit
  clean : vcpu'.list1 ≠ vcpu.list1 →
    vcpu'.vmcb.vmcbBt vmcbCleanBits noirSvmCleanInterception = false
  cr4 : ∀ gpr, e.access = .cr4 gpr → vcpu'.npiepConfig = vcpu.npiepConfig ∧
    vcpu'.cr4 = e.operand gpr ∧
      (FlushRequired vcpu.cr4 (e.operand gpr) → vcpu'.vmcb tlbControl = nvcSvmTlbControlFlushGuest)
  npiepConfig : e.access = .npiepConfig → vcpu'.cr4 = vcpu.cr4 ∧ vcpu'.npiepConfig =
    if cpuidHvPresence then (e.gpr 2).setWidth 32 ++ (e.gpr 0).setWidth 32 else vcpu.npiepConfig

/-- Every exit of a run behaves. -/
def RunBehaves (caching cpuidHvPresence : Bool) : SubvertedVcpu → List NpiepExit → Prop
  | _, [] => True
  | vcpu, e :: es =>
      ExitBehaves cpuidHvPresence e vcpu (vcpu.nvcSvmExitHandler caching cpuidHvPresence e) ∧
        RunBehaves caching cpuidHvPresence (vcpu.nvcSvmExitHandler caching cpuidHvPresence e) es

end SubvertedVcpu

/-- The frame has the operand where the handler looks for it. -/
def NpiepExit.Framed (e : NpiepExit) : Prop :=
  ∀ gpr, e.access = .cr4 gpr → e.gprState gpr = e.operand gpr

/-- `list1` of `nvc_svm_setup_control_area`: `cpuid`, `invlpga`, I/O, MSRs and shutdown. -/
def setupList1 : BitVec 32 := 0x9C040000

/-- The vCPU as the processor is subverted. -/
def SubvertedVcpu.Subverted (vcpu : SubvertedVcpu) : Prop :=
  vcpu.list1 = setupList1 ∧ vcpu.npiepConfig = 0

section Bits

variable {list1 : BitVec 32} {value : NpiepInstruction → Bool}

theorem getLsbD_assignBit {n : Nat} {word : BitVec n} {bit : Nat} {b : Bool} (hbit : bit < n)
    (j : Nat) : (assignBit word bit b).getLsbD j = if j = bit then b else word.getLsbD j := by
  unfold assignBit
  by_cases hj : j = bit
  · subst hj
    cases b <;> simp [hbit]
  · have hone : (1#n <<< bit).getLsbD j = false := by
      rw [BitVec.getLsbD_shiftLeft, BitVec.getLsbD_one]
      by_cases hlt : j < bit
      · simp [hlt]
      · have hpos : j - bit ≠ 0 := by omega
        simp [hpos]
    have hlt : word.getLsbD j = true → j < n := BitVec.lt_of_getLsbD
    rw [if_neg hj]
    cases b with
    | true => rw [if_pos rfl, BitVec.getLsbD_or, hone, Bool.or_false]
    | false =>
        rw [if_neg Bool.false_ne_true, BitVec.getLsbD_and, BitVec.getLsbD_not, hone]
        cases hword : word.getLsbD j with
        | true => simp [hlt hword]
        | false => rfl

theorem getLsbD_assignNpiep (j : Nat) :
    (assignNpiep list1 value).getLsbD j =
      if j = 9 then value .str else if j = 8 then value .sldt else
        if j = 7 then value .sgdt else if j = 6 then value .sidt else list1.getLsbD j := by
  unfold assignNpiep
  simp only [List.foldl_cons, List.foldl_nil, NpiepInstruction.interceptBit]
  rw [getLsbD_assignBit (by omega), getLsbD_assignBit (by omega), getLsbD_assignBit (by omega),
    getLsbD_assignBit (by omega)]

theorem getLsbD_assignNpiep_self (i : NpiepInstruction) :
    (assignNpiep list1 value).getLsbD i.interceptBit = value i := by
  rw [getLsbD_assignNpiep]
  cases i <;> rfl

theorem getLsbD_assignNpiep_other {bit : Nat}
    (hbit : ∀ i : NpiepInstruction, bit ≠ i.interceptBit) :
    (assignNpiep list1 value).getLsbD bit = list1.getLsbD bit := by
  have hstr : bit ≠ 9 := hbit .str
  have hsldt : bit ≠ 8 := hbit .sldt
  have hsgdt : bit ≠ 7 := hbit .sgdt
  have hsidt : bit ≠ 6 := hbit .sidt
  rw [getLsbD_assignNpiep, if_neg hstr, if_neg hsldt, if_neg hsgdt, if_neg hsidt]

end Bits

namespace SubvertedVcpu

variable {caching cpuidHvPresence : Bool} {e : NpiepExit} {u v w : SubvertedVcpu}
  {gprState : BitVec 4 → BitVec 64}

/-- The intercepts and CR4. -/
def policyFields : List Range := NpiepExit.kept

/-- What is looked at when the host goes on. -/
def statusFields : List Range := policyFields ++ [vmcopy8 vmcbCleanBits]

def observedFields : List Range := statusFields ++ [vmcopy8 tlbControl]

theorem list1_of_agree (h : AgreeOn policyFields v.vmcb u.vmcb) : v.list1 = u.list1 :=
  Page.vmread32_of_agree (h.mono (by decide))

theorem cr4_of_agree (h : AgreeOn policyFields v.vmcb u.vmcb) : v.cr4 = u.cr4 :=
  Page.vmread64_of_agree (h.mono (by decide))

theorem intercepts_of_agree (h : AgreeOn policyFields v.vmcb u.vmcb)
    (hconfig : v.npiepConfig = u.npiepConfig) (hu : u.Intercepts) : v.Intercepts := by
  intro i
  rw [list1_of_agree h, cr4_of_agree h, hconfig]
  exact hu i

/-! The recomputation. -/

theorem reconfigure_agree {rs : List Range}
    (hlist : apart rs [vmcopy32 interceptInstruction1] = true)
    (hclean : apart rs [vmcopy8 vmcbCleanBits] = true) :
    AgreeOn rs v.nvcSvmReconfigureNpiepInterceptions.vmcb v.vmcb :=
  AgreeOn.trans (Page.vmcbBtr_agree hclean) (Page.vmwrite_agree hlist)

theorem reconfigure_list1 : v.nvcSvmReconfigureNpiepInterceptions.list1 =
    assignNpiep v.list1 fun i =>
      !v.cr4.getLsbD amd64Cr4Umip && v.npiepConfig.getLsbD i.preventBit := by
  have hread : v.nvcSvmReconfigureNpiepInterceptions.list1 =
      if v.cr4.getLsbD amd64Cr4Umip then assignNpiep v.list1 fun _ => false
      else assignNpiep v.list1 fun i => v.npiepConfig.getLsbD i.preventBit := by
    refine Eq.trans (Page.vmread32_of_agree (Page.vmcbBtr_agree ?_)) Page.vmread32_vmwrite32
    decide
  rw [hread]
  cases v.cr4.getLsbD amd64Cr4Umip with
  | true => rfl
  | false => rfl

theorem reconfigure_cr4 : v.nvcSvmReconfigureNpiepInterceptions.cr4 = v.cr4 :=
  Page.vmread64_of_agree (reconfigure_agree (by decide) (by decide))

theorem reconfigure_intercepts : v.nvcSvmReconfigureNpiepInterceptions.Intercepts := by
  intro i
  rw [reconfigure_list1, reconfigure_cr4, getLsbD_assignNpiep_self]
  rfl

theorem reconfigure_otherBits {bit : Nat} (hbit : ∀ i : NpiepInstruction, bit ≠ i.interceptBit) :
    v.nvcSvmReconfigureNpiepInterceptions.list1.getLsbD bit = v.list1.getLsbD bit := by
  rw [reconfigure_list1, getLsbD_assignNpiep_other hbit]

theorem reconfigure_clean : v.nvcSvmReconfigureNpiepInterceptions.vmcb.vmcbBt vmcbCleanBits
    noirSvmCleanInterception = false := Page.vmcbBt_vmcbBtr_self

theorem flushGuest_agree : AgreeOn statusFields v.flushGuest.vmcb v.vmcb :=
  Page.vmwrite_agree (by decide)

theorem advanced_agree : AgreeOn observedFields v.advanced.vmcb v.vmcb :=
  noirSvmAdvanceRip_agree (by decide)

theorem cr4Flush_iff {oldCr4 newCr4 : BitVec 64} :
    cr4Flush oldCr4 newCr4 = true ↔ FlushRequired oldCr4 newCr4 := by
  unfold cr4Flush FlushRequired
  simp only [Bool.or_eq_true, bne_iff_ne, Bool.and_eq_true, Bool.not_eq_true', List.mem_cons,
    List.not_mem_nil, or_false, exists_eq_or_imp, exists_eq_left]
  constructor
  · rintro ((((h | h) | h) | h) | h)
    · exact .inl (.inl h.symm)
    · exact .inl (.inr (.inl h.symm))
    · exact .inl (.inr (.inr h.symm))
    · exact .inr (.inl h.symm)
    · exact .inr (.inr h.symm)
  · rintro ((h | h | h) | h | h)
    · exact .inl (.inl (.inl (.inl h.symm)))
    · exact .inl (.inl (.inl (.inr h.symm)))
    · exact .inl (.inl (.inr h.symm))
    · exact .inl (.inr h.symm)
    · exact .inr h.symm

/-- What an exit does to the intercepts, whatever made it. -/
structure Steps (u v : SubvertedVcpu) : Prop where
  intercepts : v.Intercepts
  others : AgreeOn otherIntercepts v.vmcb u.vmcb
  otherBits : ∀ bit, (∀ i : NpiepInstruction, bit ≠ i.interceptBit) →
    v.list1.getLsbD bit = u.list1.getLsbD bit
  clean : v.list1 ≠ u.list1 → v.vmcb.vmcbBt vmcbCleanBits noirSvmCleanInterception = false

namespace Steps

/-- Neither what came before nor what comes after matters, as long as the fields are left alone. -/
theorem of_agree {u' v' : SubvertedVcpu} (h : Steps u' v')
    (hu : AgreeOn policyFields u'.vmcb u.vmcb) (hv : AgreeOn statusFields v.vmcb v'.vmcb)
    (hconfig : v.npiepConfig = v'.npiepConfig) : Steps u v where
  intercepts := intercepts_of_agree (hv.mono (by decide)) hconfig h.intercepts
  others := ((hv.mono (by decide)).trans h.others).trans (hu.mono (by decide))
  otherBits bit hbit := by
    rw [list1_of_agree (hv.mono (by decide)), h.otherBits bit hbit, list1_of_agree hu]
  clean hne := by
    rw [list1_of_agree (hv.mono (by decide)), ← list1_of_agree hu] at hne
    exact (Page.vmcbBt_of_agree hv (by decide)).trans (h.clean hne)

theorem refl (h : v.Intercepts) : Steps v v where
  intercepts := h
  others := .refl
  otherBits _ _ := rfl
  clean hne := absurd rfl hne

/-- The recomputation may follow any change of CR4 or of the configuration. -/
theorem reconfigure (hothers : AgreeOn otherIntercepts w.vmcb v.vmcb)
    (hlist : w.list1 = v.list1) : Steps v w.nvcSvmReconfigureNpiepInterceptions where
  intercepts := reconfigure_intercepts
  others := (reconfigure_agree (by decide) (by decide)).trans hothers
  otherBits _ hbit := by rw [reconfigure_otherBits hbit, hlist]
  clean _ := reconfigure_clean

end Steps

section Handlers

theorem cr4_writeCr4 {newCr4 : BitVec 64} : (v.writeCr4 newCr4).cr4 = newCr4 :=
  Page.vmread64_vmwrite64

theorem list1_writeCr4 {newCr4 : BitVec 64} : (v.writeCr4 newCr4).list1 = v.list1 :=
  Page.vmread32_of_agree (Page.vmwrite_agree (by decide))

/-- A new value of CR4 with the recomputation that it may ask for. -/
def cr4Written (v : SubvertedVcpu) (newCr4 : BitVec 64) : SubvertedVcpu :=
  if v.cr4.getLsbD amd64Cr4Umip != newCr4.getLsbD amd64Cr4Umip then
    (v.writeCr4 newCr4).nvcSvmReconfigureNpiepInterceptions
  else v.writeCr4 newCr4

theorem steps_cr4Written {newCr4 : BitVec 64} (h : v.Intercepts) :
    Steps v (v.cr4Written newCr4) := by
  have hothers : AgreeOn otherIntercepts (v.writeCr4 newCr4).vmcb v.vmcb :=
    Page.vmwrite_agree (by decide)
  unfold cr4Written
  split
  · exact Steps.reconfigure hothers list1_writeCr4
  · next hsame =>
      have hsame : v.cr4.getLsbD amd64Cr4Umip = newCr4.getLsbD amd64Cr4Umip := by simpa using hsame
      refine ⟨fun i => ?_, hothers, fun _ _ => by rw [list1_writeCr4], fun hne => ?_⟩
      · rw [list1_writeCr4, cr4_writeCr4, ← hsame]
        exact h i
      · exact absurd list1_writeCr4 hne

theorem cr4_cr4Written {newCr4 : BitVec 64} : (v.cr4Written newCr4).cr4 = newCr4 := by
  unfold cr4Written
  split
  · exact reconfigure_cr4.trans cr4_writeCr4
  · exact cr4_writeCr4

theorem npiepConfig_cr4Written {newCr4 : BitVec 64} :
    (v.cr4Written newCr4).npiepConfig = v.npiepConfig := by
  unfold cr4Written
  split <;> rfl

theorem steps_dirtyControlReg (h : Steps u v) : Steps u v.dirtyControlReg where
  intercepts := intercepts_of_agree (Page.vmcbBtr_agree (by decide)) rfl h.intercepts
  others := (Page.vmcbBtr_agree (by decide)).trans h.others
  otherBits bit hbit := by
    rw [list1_of_agree (Page.vmcbBtr_agree (by decide)), h.otherBits bit hbit]
  clean hne := by
    rw [list1_of_agree (Page.vmcbBtr_agree (by decide))] at hne
    exact Page.vmcbBt_vmcbBtr (h.clean hne)

/-- The new value is in the VMCB afterwards, also if it was there before. -/
structure Cr4Taken (u v : SubvertedVcpu) (newCr4 : BitVec 64) : Prop where
  npiepConfig : v.npiepConfig = u.npiepConfig
  cr4 : v.cr4 = newCr4
  flushed : FlushRequired u.cr4 newCr4 → v.vmcb tlbControl = nvcSvmTlbControlFlushGuest

theorem not_flushRequired_self {cr4 : BitVec 64} : ¬FlushRequired cr4 cr4 := by
  rintro (⟨bit, -, hne⟩ | ⟨hclear, hset⟩ | ⟨hset, hclear⟩)
  · exact hne rfl
  · exact Bool.false_ne_true (hclear.symm.trans hset)
  · exact Bool.false_ne_true (hclear.symm.trans hset)

theorem flushGuest_tlbControl : v.flushGuest.vmcb tlbControl = nvcSvmTlbControlFlushGuest := by
  have hbyte := @Page.vmwrite_byte v.vmcb tlbControl 1 _ 0 nvcSvmTlbControlFlushGuest
    (Nat.add_zero tlbControl).symm (by decide : 0 < 1)
  exact hbyte.trans BitVec.extractLsb'_eq_self

theorem Cr4Taken.of_agree {newCr4 : BitVec 64} (h : Cr4Taken u v newCr4)
    (hv : AgreeOn observedFields w.vmcb v.vmcb) (hconfig : w.npiepConfig = v.npiepConfig) :
    Cr4Taken u w newCr4 where
  npiepConfig := hconfig.trans h.npiepConfig
  cr4 := (cr4_of_agree (hv.mono (by decide))).trans h.cr4
  flushed hflush := (hv _ (by decide)).trans (h.flushed hflush)

/-- All that the handler does to a value that is new, up to the instruction pointer. -/
def cr4Changed (v : SubvertedVcpu) (newCr4 : BitVec 64) : SubvertedVcpu :=
  let w := (v.cr4Written newCr4).dirtyControlReg
  if cr4Flush v.cr4 newCr4 then w.flushGuest else w

theorem steps_cr4Changed {newCr4 : BitVec 64} (h : v.Intercepts) :
    Steps v (v.cr4Changed newCr4) := by
  have hdirty := steps_dirtyControlReg (@steps_cr4Written _ newCr4 h)
  unfold cr4Changed
  dsimp only
  split
  · exact hdirty.of_agree .refl flushGuest_agree rfl
  · exact hdirty

theorem cr4Taken_cr4Changed {newCr4 : BitVec 64} : Cr4Taken v (v.cr4Changed newCr4) newCr4 := by
  have hcr4 : (v.cr4Written newCr4).dirtyControlReg.cr4 = newCr4 :=
    (cr4_of_agree (Page.vmcbBtr_agree (by decide))).trans cr4_cr4Written
  unfold cr4Changed
  dsimp only
  split
  · refine ⟨npiepConfig_cr4Written, ?_, fun _ => flushGuest_tlbControl⟩
    exact (cr4_of_agree (flushGuest_agree.mono (by decide))).trans hcr4
  · next hkept => exact ⟨npiepConfig_cr4Written, hcr4, fun h => absurd (cr4Flush_iff.mpr h) hkept⟩

theorem cr4WriteHandler_spec (h : v.Intercepts) {newCr4 : BitVec 64}
    (hnew : gprState ((v.vmcb.vmread64 exitInfo1).setWidth 4) = newCr4) :
    Steps v (v.nvcSvmCr4WriteHandler gprState) ∧
      Cr4Taken v (v.nvcSvmCr4WriteHandler gprState) newCr4 := by
  unfold nvcSvmCr4WriteHandler
  rw [hnew]
  dsimp only
  by_cases heq : newCr4 = v.cr4
  · rw [if_pos heq]
    have hkept : AgreeOn policyFields v.advanced.vmcb v.vmcb := advanced_agree.mono (by decide)
    refine ⟨(Steps.refl h).of_agree .refl (advanced_agree.mono (by decide)) rfl, rfl, ?_, fun hflush => ?_⟩
    · rw [cr4_of_agree hkept, heq]
    · rw [heq] at hflush
      exact absurd hflush not_flushRequired_self
  · rw [if_neg heq]
    change Steps v (v.cr4Changed newCr4).advanced ∧ Cr4Taken v (v.cr4Changed newCr4).advanced newCr4
    have hsteps : Steps v (v.cr4Changed newCr4).advanced :=
      (steps_cr4Changed h).of_agree .refl (advanced_agree.mono (by decide)) rfl
    exact ⟨hsteps, cr4Taken_cr4Changed.of_agree advanced_agree rfl⟩

end Handlers

/-! The exit as a whole. -/

theorem exited_agree : AgreeOn policyFields (v.exited caching e).vmcb v.vmcb := by
  have hleft : AgreeOn policyFields (e.vmcb v.vmcb) v.vmcb := by
    refine (Page.vmwrite_agree (by decide)).trans ?_
    refine (Page.vmwrite_agree (by decide)).trans ?_
    exact (Page.vmwrite_agree (by decide)).trans .copy_src
  unfold exited
  dsimp only
  refine (Page.vmwrite_agree (by decide)).trans ?_
  split
  · exact (Page.vmwrite_agree (by decide)).trans hleft
  · exact hleft

theorem exited_exitInfo : (v.exited caching e).vmcb.vmread64 exitInfo1 = e.exitInfo := by
  have hleft : (e.vmcb v.vmcb).vmread64 exitInfo1 = e.exitInfo := by
    refine Eq.trans (Page.vmread64_of_agree ?_)
      (@Page.vmread64_vmwrite64 (Page.vmcopy e.left v.vmcb NpiepExit.kept) _ _)
    exact (Page.vmwrite_agree (by decide)).trans (Page.vmwrite_agree (by decide))
  refine Eq.trans (Page.vmread64_of_agree ?_) hleft
  unfold exited
  dsimp only
  refine (Page.vmwrite_agree (by decide)).trans ?_
  split
  · exact Page.vmwrite_agree (by decide)
  · exact .refl

theorem gpr_exitInfo {gpr : BitVec 4} (h : e.access = .cr4 gpr) : e.exitInfo.setWidth 4 = gpr := by
  unfold NpiepExit.exitInfo
  rw [h]
  exact BitVec.setWidth_append_eq_right

/-- An event that is queued has nothing to do with the intercepts. -/
def queued (v : SubvertedVcpu) (event : BitVec 64) : SubvertedVcpu :=
  { v with vmcb := v.vmcb.vmwrite64 eventInjection event }

theorem queued_agree {event : BitVec 64} : AgreeOn observedFields (v.queued event).vmcb v.vmcb :=
  Page.vmwrite_agree (by decide)

theorem wrmsrHandler_eq :
    v.nvcSvmWrmsrHandler cpuidHvPresence gprState =
      if cpuidHvPresence then (v.nvcMshvMsrR40000040Handler
        ((gprState 2).setWidth 32 ++ (gprState 0).setWidth 32)).queued 0
      else v.queued
        (amd64EventInjection amd64GeneralProtection amd64FaultTrapException true true 0) := rfl

theorem steps_r40000040Handler {val : BitVec 64} :
    Steps v (v.nvcMshvMsrR40000040Handler val) := Steps.reconfigure .refl rfl

theorem wrmsrHandler_spec (h : v.Intercepts) :
    Steps v (v.nvcSvmWrmsrHandler cpuidHvPresence gprState) ∧
      (v.nvcSvmWrmsrHandler cpuidHvPresence gprState).cr4 = v.cr4 ∧
      (v.nvcSvmWrmsrHandler cpuidHvPresence gprState).npiepConfig =
        if cpuidHvPresence then (gprState 2).setWidth 32 ++ (gprState 0).setWidth 32
        else v.npiepConfig := by
  rw [wrmsrHandler_eq]
  cases cpuidHvPresence with
  | true =>
      refine ⟨steps_r40000040Handler.of_agree .refl (queued_agree.mono (by decide)) rfl, ?_, rfl⟩
      exact (cr4_of_agree (queued_agree.mono (by decide))).trans reconfigure_cr4
  | false =>
      refine ⟨(Steps.refl h).of_agree .refl (queued_agree.mono (by decide)) rfl, ?_, rfl⟩
      exact cr4_of_agree (queued_agree.mono (by decide))

/-- What the host left in `rax` goes back to the VMCB. -/
theorem resumed_agree {value : BitVec 64} :
    AgreeOn observedFields (v.vmcb.vmwrite64 guestRax value) v.vmcb :=
  Page.vmwrite_agree (by decide)

theorem exitHandler_cr4 {gpr : BitVec 4} (h : v.Intercepts) (haccess : e.access = .cr4 gpr) :
    Steps v (v.nvcSvmExitHandler caching cpuidHvPresence e) ∧
      Cr4Taken v (v.nvcSvmExitHandler caching cpuidHvPresence e) (e.gprState gpr) := by
  have hexited : AgreeOn policyFields (v.exited caching e).vmcb v.vmcb := exited_agree
  obtain ⟨hsteps, htaken⟩ := @cr4WriteHandler_spec _ e.gprState
    (intercepts_of_agree hexited rfl h) (e.gprState gpr)
    (by rw [exited_exitInfo, gpr_exitInfo haccess])
  have hhandled : (v.exited caching e).handled cpuidHvPresence e =
      (v.exited caching e).nvcSvmCr4WriteHandler e.gprState := by
    unfold handled
    rw [haccess]
  rw [← hhandled] at hsteps htaken
  refine ⟨hsteps.of_agree hexited (resumed_agree.mono (by decide)) rfl, ?_⟩
  have hresumed := @Cr4Taken.of_agree _ _ (v.nvcSvmExitHandler caching cpuidHvPresence e) _ htaken
    resumed_agree rfl
  refine ⟨hresumed.npiepConfig, hresumed.cr4, fun hflush => hresumed.flushed ?_⟩
  rw [cr4_of_agree hexited]
  exact hflush

theorem exitHandler_npiepConfig (h : v.Intercepts) (haccess : e.access = .npiepConfig) :
    Steps v (v.nvcSvmExitHandler caching cpuidHvPresence e) ∧
      (v.nvcSvmExitHandler caching cpuidHvPresence e).cr4 = v.cr4 ∧
      (v.nvcSvmExitHandler caching cpuidHvPresence e).npiepConfig =
        if cpuidHvPresence then (e.gpr 2).setWidth 32 ++ (e.gpr 0).setWidth 32
        else v.npiepConfig := by
  have hexited : AgreeOn policyFields (v.exited caching e).vmcb v.vmcb := exited_agree
  obtain ⟨hsteps, hcr4, hconfig⟩ := @wrmsrHandler_spec cpuidHvPresence _ e.gprState
    (intercepts_of_agree hexited rfl h)
  have hhandled : (v.exited caching e).handled cpuidHvPresence e =
      ((v.exited caching e).nvcSvmWrmsrHandler cpuidHvPresence e.gprState).advanced := by
    unfold handled
    rw [haccess]
    rfl
  have hkept : AgreeOn observedFields (v.nvcSvmExitHandler caching cpuidHvPresence e).vmcb
      ((v.exited caching e).nvcSvmWrmsrHandler cpuidHvPresence e.gprState).vmcb := by
    refine resumed_agree.trans ?_
    rw [hhandled]
    exact advanced_agree
  have hconfig' : (v.nvcSvmExitHandler caching cpuidHvPresence e).npiepConfig =
      ((v.exited caching e).nvcSvmWrmsrHandler cpuidHvPresence e.gprState).npiepConfig := by
    change ((v.exited caching e).handled cpuidHvPresence e).npiepConfig = _
    rw [hhandled]
    rfl
  refine ⟨hsteps.of_agree hexited (hkept.mono (by decide)) hconfig', ?_, hconfig'.trans hconfig⟩
  rw [cr4_of_agree (hkept.mono (by decide)), hcr4, cr4_of_agree hexited]

/-- The value that the handler takes is the one that is written, and so one exit behaves exactly if
the frame has it. -/
theorem exitBehaves_iff (h : v.Intercepts) :
    ExitBehaves cpuidHvPresence e v (v.nvcSvmExitHandler caching cpuidHvPresence e) ↔ e.Framed := by
  constructor
  · intro hbehaves gpr haccess
    obtain ⟨-, hcr4, -⟩ := hbehaves.cr4 gpr haccess
    exact (exitHandler_cr4 h haccess).2.cr4.symm.trans hcr4
  · intro hframed
    cases haccess : e.access with
    | cr4 gpr =>
        obtain ⟨hsteps, htaken⟩ := @exitHandler_cr4 caching cpuidHvPresence e v gpr h haccess
        rw [hframed gpr haccess] at htaken
        refine ⟨hsteps.intercepts, hsteps.others, hsteps.otherBits, hsteps.clean, ?_, ?_⟩
        · intro gpr' haccess'
          obtain rfl := NpiepAccess.cr4.inj (haccess.symm.trans haccess')
          exact ⟨htaken.npiepConfig, htaken.cr4, htaken.flushed⟩
        · intro haccess'
          rw [haccess] at haccess'
          exact (nomatch haccess')
    | npiepConfig =>
        obtain ⟨hsteps, hwritten⟩ := @exitHandler_npiepConfig caching cpuidHvPresence e v h haccess
        refine ⟨hsteps.intercepts, hsteps.others, hsteps.otherBits, hsteps.clean, ?_, ?_⟩
        · intro gpr haccess'
          rw [haccess] at haccess'
          exact (nomatch haccess')
        · intro _
          exact hwritten

/-- The intercepts are right after any exit. -/
theorem intercepts_exitHandler (h : v.Intercepts) :
    (v.nvcSvmExitHandler caching cpuidHvPresence e).Intercepts := by
  cases haccess : e.access with
  | cr4 gpr => exact (exitHandler_cr4 h haccess).1.intercepts
  | npiepConfig => exact (exitHandler_npiepConfig h haccess).1.intercepts

theorem intercepts_of_subverted (h : v.Subverted) : v.Intercepts := by
  intro i
  have hzero : (0 : BitVec 64).getLsbD i.preventBit = false := BitVec.getLsbD_zero
  rw [h.1, h.2, hzero, Bool.and_false]
  cases i <;> decide

theorem runBehaves_iff_of_intercepts {es : List NpiepExit} (h : v.Intercepts) :
    RunBehaves caching cpuidHvPresence v es ↔ ∀ e ∈ es, e.Framed := by
  induction es generalizing v with
  | nil => exact ⟨fun _ e he => absurd he List.not_mem_nil, fun _ => trivial⟩
  | cons e es ih =>
      rw [List.forall_mem_cons, ← ih (intercepts_exitHandler h), ← exitBehaves_iff h]
      exact Iff.rfl

theorem runBehaves_iff {es : List NpiepExit} (h : v.Subverted) :
    RunBehaves caching cpuidHvPresence v es ↔ ∀ e ∈ es, e.Framed :=
  runBehaves_iff_of_intercepts (intercepts_of_subverted h)

/-! The host enables UMIP from `rbx`, or from `rsp`, and configures all four. -/

def newSubverted : SubvertedVcpu where
  vmcb := Page.vmwrite32 (fun _ => 0) interceptInstruction1 setupList1
  npiepConfig := 0

theorem newSubverted_subverted : newSubverted.Subverted := ⟨Page.vmread32_vmwrite32, rfl⟩

def umipFrom (gpr : BitVec 4) : NpiepExit where
  access := .cr4 gpr
  left _ := 0
  gpr _ := 0x800
  rspSlot := 0

def preventAll : NpiepExit := { umipFrom 3 with access := .npiepConfig }

theorem umipFrom_framed : (umipFrom 3).Framed := by
  rintro gpr ⟨⟩
  decide

theorem preventAll_framed : preventAll.Framed := fun _ haccess => (nomatch haccess)

theorem newSubverted_runBehaves :
    RunBehaves true true newSubverted [preventAll, umipFrom 3] := by
  refine (runBehaves_iff newSubverted_subverted).mpr fun e he => ?_
  rcases List.mem_pair.mp he with rfl | rfl
  · exact preventAll_framed
  · exact umipFrom_framed

theorem not_framed_rsp : ¬(umipFrom 4).Framed := fun h => absurd (h 4 rfl) (by decide)

theorem not_forall_runBehaves : ¬∀ (caching cpuidHvPresence : Bool) (vcpu : SubvertedVcpu)
    (es : List NpiepExit), vcpu.Subverted → RunBehaves caching cpuidHvPresence vcpu es := by
  intro h
  have hrun := h true true newSubverted [umipFrom 4] newSubverted_subverted
  rw [runBehaves_iff_of_intercepts (intercepts_of_subverted newSubverted_subverted)] at hrun
  exact not_framed_rsp (hrun (umipFrom 4) List.mem_cons_self)

end SubvertedVcpu

end NoirVisor
