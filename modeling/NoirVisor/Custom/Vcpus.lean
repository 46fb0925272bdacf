import Mathlib.Data.Finset.Card
import Mathlib.Data.Finset.Range
import NoirVisor.Tlb.AsidPool

/-!
# vCPUs of a customizable VM

Creation and release of vCPUs on SVM, with the list of vCPUs of the VM, its counter and the tables of AVIC.
-/

namespace NoirVisor

/-- What the creation of `noir_svm_custom_vcpu` sets, with the fields of its header. A null pointer is
zero. -/
structure ListedSvmVcpu where
  self : Nat
  vm : Nat := 0
  vmcb : Nat := 0
  apicBacking : Nat := 0
  xsaveArea : Nat := 0
  vmsa : Nat := 0
  procId : Nat := 0
  vcpuId : Nat := 0
  apicBase : Nat := 0
  vmcbInitialized : Bool := false
  refCount : Nat := 0
  xcr0 : Nat := 0
  mtrrDefType : Nat := 0
deriving DecidableEq

/-- `nvc_svm_avic_physical_apic_id_entry`, less what changes when the vCPU is switched to. -/
structure AvicPhysicalEntry where
  backingPagePointer : Nat
  valid : Bool

structure AvicLogicalEntry where
  guestPhysicalApicId : Nat
  valid : Bool

/-- The vCPUs of `noir_svm_custom_vm`. `listLock` is how often the lock of the list is held. -/
structure SvmVcpuList where
  vcpu : Nat → Option ListedSvmVcpu
  vcpuCount : Nat
  avicPhysical : Nat → AvicPhysicalEntry
  avicLogical : Nat → AvicLogicalEntry
  listLock : Nat

/-- The number of pointers in the list of vCPUs. -/
def vcpuListEntries : Nat := 256

/-- What the host answers to the requests of a creation. -/
structure VcpuAnswers where
  vcpu : Nat
  vmcb : Nat
  vmcbReassigned : Bool
  apicBacking : Nat
  xsaveArea : Nat
  vmsa : Nat
  vmsaReassigned : Bool

abbrev CreatedVcpu := Outcome (NoirStatus × Option ListedSvmVcpu × SvmVcpuList)

namespace SvmVcpuList

variable (options : SvmVmOptions) (vm : Nat) (physicalAddress : Nat → Nat) (s : SvmVcpuList)

/-- `stale` is what is still read from the structure of the vCPU once it is freed. -/
def nvcSvmcReleaseVcpu (vcpu : ListedSvmVcpu) (stale : Nat) : Outcome SvmVcpuList := do
  -- The VM is not known before the end of a creation.
  if vcpu.vm = 0 then throw .nullDereference
  let s := { s with listLock := s.listLock + 1 }
  if ¬vcpu.vcpuId < vcpuListEntries then throw .outOfBounds
  let s := { s with vcpu := Function.update s.vcpu vcpu.vcpuId none }
  let s :=
    if options.avic then
      { s with
        avicPhysical := Function.update s.avicPhysical vcpu.vcpuId ⟨0, false⟩
        avicLogical := Function.update s.avicLogical vcpu.vcpuId ⟨0, false⟩ }
    else s
  let s := { s with vcpuCount := (s.vcpuCount + 2 ^ 32 - 1) % 2 ^ 32 }
  -- The lock is that of a VM that is read from freed memory.
  if stale ≠ vcpu.vm then throw .useAfterFree
  pure { s with listLock := s.listLock - 1 }

/-- The end of `nvc_svm_initialize_cvm_vmcb` writes to the VMSA, which there is with NSV only. -/
def nvcSvmInitializeCvmVmcb (vcpu : ListedSvmVcpu) : Outcome ListedSvmVcpu := do
  if vcpu.vmsa = 0 then throw .nullDereference
  pure { vcpu with vmcbInitialized := true }

def vcpuAllocFailure (vcpu : ListedSvmVcpu) : CreatedVcpu := do
  let s ← s.nvcSvmcReleaseVcpu options vcpu vcpu.vm
  pure (.insufficientResources, none, { s with listLock := s.listLock - 1 })

/-- The end of a creation, in which no allocation is left. -/
def insertVcpu (vcpu : ListedSvmVcpu) (vcpuId : Nat) : CreatedVcpu := do
  let apicBase := 0xfee00000 ||| 2 ^ 11
  let vcpu :=
    { vcpu with
      vcpuId
      procId := 0xffffffff
      apicBase := if vcpuId = 0 then apicBase ||| 2 ^ 8 else apicBase
      vm }
  let vcpu ← nvcSvmInitializeCvmVmcb vcpu
  let s :=
    { s with
      vcpu := Function.update s.vcpu vcpuId (some vcpu)
      vcpuCount := (s.vcpuCount + 1) % 2 ^ 32 }
  pure (.success, some vcpu, { s with listLock := s.listLock - 1 })

def nvcSvmcCreateVcpu (vcpuId : Nat) (answers : VcpuAnswers) : CreatedVcpu := do
  let s := { s with listLock := s.listLock + 1 }
  if ¬vcpuId < vcpuListEntries then throw .outOfBounds
  if (s.vcpu vcpuId).isSome then
    pure (.vcpuAlreadyCreated, none, { s with listLock := s.listLock - 1 })
  -- Without memory for the structure there is no vCPU, and success.
  else if answers.vcpu = 0 then pure (.success, none, { s with listLock := s.listLock - 1 })
  else
    let vcpu : ListedSvmVcpu := { self := answers.vcpu, vmcb := answers.vmcb }
    if vcpu.vmcb = 0 then s.vcpuAllocFailure options vcpu
    else if options.enableNsv ∧ !answers.vmcbReassigned then s.vcpuAllocFailure options vcpu
    else
      let vcpu := if options.avic then { vcpu with apicBacking := answers.apicBacking } else vcpu
      if options.avic ∧ vcpu.apicBacking = 0 then s.vcpuAllocFailure options vcpu
      else
        let s :=
          if options.avic then
            { s with
              avicPhysical := Function.update s.avicPhysical vcpuId
                ⟨physicalAddress vcpu.apicBacking / 0x1000 % 2 ^ 40, true⟩
              avicLogical := Function.update s.avicLogical vcpuId ⟨vcpuId % 2 ^ 8, true⟩ }
          else s
        let vcpu := { vcpu with xsaveArea := answers.xsaveArea }
        if vcpu.xsaveArea = 0 then s.vcpuAllocFailure options vcpu
        else
          let vcpu := if options.enableNsv then { vcpu with vmsa := answers.vmsa } else vcpu
          if options.enableNsv ∧ (vcpu.vmsa = 0 ∨ !answers.vmsaReassigned) then
            s.vcpuAllocFailure options vcpu
          else s.insertVcpu vm vcpu vcpuId

/-- `nvc_create_vcpu` initializes what the core has created. -/
def nvcCreateVcpu (vcpuId : Nat) (answers : VcpuAnswers) : CreatedVcpu := do
  let (st, vcpu, s) ← s.nvcSvmcCreateVcpu options vm physicalAddress vcpuId answers
  if st = .success then
    match vcpu with
    | none => throw .nullDereference
    | some vcpu =>
        let vcpu := { vcpu with refCount := 1, xcr0 := 1, mtrrDefType := 6 }
        pure (st, some vcpu, { s with vcpu := Function.update s.vcpu vcpuId (some vcpu) })
  else pure (st, vcpu, s)

end SvmVcpuList

/-- A vCPU that nothing is missing from. -/
structure ListedSvmVcpu.Initialized (options : SvmVmOptions) (vm vcpuId : Nat) (vcpu : ListedSvmVcpu) :
    Prop where
  self : vcpu.self ≠ 0
  vm : vcpu.vm = vm
  vcpuId : vcpu.vcpuId = vcpuId
  procId : vcpu.procId = 0xffffffff
  vmcb : vcpu.vmcb ≠ 0 ∧ vcpu.vmcbInitialized = true
  apicBacking : options.avic = true → vcpu.apicBacking ≠ 0
  xsaveArea : vcpu.xsaveArea ≠ 0
  vmsa : options.enableNsv = true → vcpu.vmsa ≠ 0
  common : vcpu.refCount = 1 ∧ vcpu.xcr0 = 1 ∧ vcpu.mtrrDefType = 6

namespace SvmVcpuList

/-- The counter and the tables are those of the vCPUs there are. -/
structure Sound (options : SvmVmOptions) (vm : Nat) (physicalAddress : Nat → Nat) (s : SvmVcpuList) :
    Prop where
  bounded : ∀ id vcpu, s.vcpu id = some vcpu → id < vcpuListEntries
  initialized : ∀ id vcpu, s.vcpu id = some vcpu → vcpu.Initialized options vm id
  count : s.vcpuCount = ((Finset.range vcpuListEntries).filter fun id => (s.vcpu id).isSome).card
  present : options.avic = true → ∀ id vcpu, s.vcpu id = some vcpu →
    s.avicPhysical id = ⟨physicalAddress vcpu.apicBacking / 0x1000 % 2 ^ 40, true⟩ ∧
      s.avicLogical id = ⟨id, true⟩
  absent : options.avic = true → ∀ id, s.vcpu id = none →
    (s.avicPhysical id).valid = false ∧ (s.avicLogical id).valid = false
  listLock : s.listLock = 0

end SvmVcpuList

inductive VcpuCall where
  | create (vcpuId : Nat) (answers : VcpuAnswers)
  | release (vcpu : ListedSvmVcpu) (stale : Nat)

namespace VcpuCall

variable (options : SvmVmOptions) (vm : Nat) (physicalAddress : Nat → Nat) (s : SvmVcpuList)

def run : VcpuCall → CreatedVcpu
  | create vcpuId answers => s.nvcCreateVcpu options vm physicalAddress vcpuId answers
  | release vcpu stale => do
      let s ← s.nvcSvmcReleaseVcpu options vcpu stale
      pure (.success, none, s)

/-- A vCPU that is released is there. -/
def Possible : VcpuCall → Prop
  | create _ _ => True
  | release vcpu _ => s.vcpu vcpu.vcpuId = some vcpu

/-- The call returns. A creation that succeeds gives a vCPU, and one that fails changes nothing. -/
def Behaves (call : VcpuCall) : Prop :=
  ∃ st vcpu s', call.run options vm physicalAddress s = .ok (st, vcpu, s') ∧
    s'.Sound options vm physicalAddress ∧
    match call with
    | create vcpuId _ =>
        (st = .success → vcpu ≠ none ∧ s'.vcpu = Function.update s.vcpu vcpuId vcpu) ∧
          (st ≠ .success → s' = s)
    | release vcpu _ => s'.vcpu = Function.update s.vcpu vcpu.vcpuId none

end VcpuCall

/-- Every answer is good, and there is the VMSA that the VMCB is initialized with. -/
structure VcpuAnswers.Granted (options : SvmVmOptions) (answers : VcpuAnswers) : Prop where
  enableNsv : options.enableNsv = true
  vcpu : answers.vcpu ≠ 0
  vmcb : answers.vmcb ≠ 0
  vmcbReassigned : answers.vmcbReassigned = true
  apicBacking : options.avic = true → answers.apicBacking ≠ 0
  xsaveArea : answers.xsaveArea ≠ 0
  vmsa : answers.vmsa ≠ 0
  vmsaReassigned : answers.vmsaReassigned = true

def VcpuCall.Fits (options : SvmVmOptions) (s : SvmVcpuList) : VcpuCall → Prop
  | create vcpuId answers =>
      vcpuId < vcpuListEntries ∧ ((s.vcpu vcpuId).isSome ∨ answers.Granted options)
  | release vcpu stale => stale = vcpu.vm

/-- The memory of a new VM is zero. -/
structure SvmVcpuList.Start (s : SvmVcpuList) : Prop where
  vcpu : ∀ id, s.vcpu id = none
  vcpuCount : s.vcpuCount = 0
  avic : ∀ id, (s.avicPhysical id).valid = false ∧ (s.avicLogical id).valid = false
  listLock : s.listLock = 0

/-- Runs of calls that meet a condition. -/
def VcpusReachable (options : SvmVmOptions) (vm : Nat) (physicalAddress : Nat → Nat)
    (condition : SvmVcpuList → VcpuCall → Prop) : SvmVcpuList → Prop :=
  Transition.Reachable SvmVcpuList.Start fun s s' =>
    ∃ call : VcpuCall, call.Possible s ∧ condition s call ∧
      ∃ st vcpu, call.run options vm physicalAddress s = .ok (st, vcpu, s')

namespace SvmVcpuList

section Slots

variable {α : Type} {slots : Nat → Option α} {n id : Nat} {a : α}

/-- A slot that is filled counts once more. -/
theorem card_update_some (hid : id < n) (hnone : slots id = none) :
    ((Finset.range n).filter fun i => (Function.update slots id (some a) i).isSome).card =
      ((Finset.range n).filter fun i => (slots i).isSome).card + 1 := by
  have hinsert : ((Finset.range n).filter fun i => (Function.update slots id (some a) i).isSome) =
      insert id ((Finset.range n).filter fun i => (slots i).isSome) := by
    ext i
    by_cases heq : i = id <;> simp [heq, hid]
  rw [hinsert, Finset.card_insert_of_notMem]
  simp [hnone]

theorem card_update_none (hid : id < n) (hsome : slots id = some a) :
    ((Finset.range n).filter fun i => (Function.update slots id none i).isSome).card + 1 =
      ((Finset.range n).filter fun i => (slots i).isSome).card := by
  have hcard := @card_update_some α (Function.update slots id none) n id a hid
    (Function.update_self _ _ _)
  rw [Function.update_idem, ← hsome, Function.update_eq_self] at hcard
  exact hcard.symm

end Slots

section Calls

variable {options : SvmVmOptions} {vm vcpuId stale : Nat} {physicalAddress : Nat → Nat} {s : SvmVcpuList}
  {vcpu : ListedSvmVcpu} {answers : VcpuAnswers}

theorem vcpuAllocFailure_eq (h : vcpu.vm = 0) :
    s.vcpuAllocFailure options vcpu = .error .nullDereference := by
  unfold vcpuAllocFailure nvcSvmcReleaseVcpu
  rw [if_pos h]
  rfl

/-- The vCPU that a creation without a failure gives. -/
def newVcpu (options : SvmVmOptions) (vm vcpuId : Nat) (answers : VcpuAnswers) : ListedSvmVcpu where
  self := answers.vcpu
  vm
  vmcb := answers.vmcb
  apicBacking := if options.avic then answers.apicBacking else 0
  xsaveArea := answers.xsaveArea
  vmsa := answers.vmsa
  procId := 0xffffffff
  vcpuId
  apicBase := if vcpuId = 0 then 0xfee00900 else 0xfee00800
  vmcbInitialized := true
  refCount := 1
  xcr0 := 1
  mtrrDefType := 6

theorem newVcpu_initialized (h : answers.Granted options) :
    (newVcpu options vm vcpuId answers).Initialized options vm vcpuId where
  self := h.vcpu
  vm := rfl
  vcpuId := rfl
  procId := rfl
  vmcb := ⟨h.vmcb, rfl⟩
  apicBacking havic := by
    unfold newVcpu
    rw [if_pos havic]
    exact h.apicBacking havic
  xsaveArea := h.xsaveArea
  vmsa _ := h.vmsa
  common := ⟨rfl, rfl, rfl⟩

/-- The list with a new vCPU. -/
def withVcpu (options : SvmVmOptions) (physicalAddress : Nat → Nat) (s : SvmVcpuList) (vcpuId : Nat)
    (vcpu : ListedSvmVcpu) : SvmVcpuList where
  vcpu := Function.update s.vcpu vcpuId (some vcpu)
  vcpuCount := (s.vcpuCount + 1) % 2 ^ 32
  avicPhysical :=
    if options.avic then
      Function.update s.avicPhysical vcpuId ⟨physicalAddress vcpu.apicBacking / 0x1000 % 2 ^ 40, true⟩
    else s.avicPhysical
  avicLogical :=
    if options.avic then Function.update s.avicLogical vcpuId ⟨vcpuId % 2 ^ 8, true⟩ else s.avicLogical
  listLock := s.listLock

theorem nvcCreateVcpu_of_present (hid : vcpuId < vcpuListEntries) (hpresent : (s.vcpu vcpuId).isSome) :
    s.nvcCreateVcpu options vm physicalAddress vcpuId answers = .ok (.vcpuAlreadyCreated, none, s) := by
  unfold nvcCreateVcpu nvcSvmcCreateVcpu
  dsimp only
  rw [if_neg (not_not.mpr hid), if_pos hpresent]
  rfl

theorem nvcCreateVcpu_of_granted (hid : vcpuId < vcpuListEntries) (habsent : s.vcpu vcpuId = none)
    (h : answers.Granted options) :
    s.nvcCreateVcpu options vm physicalAddress vcpuId answers =
      .ok (.success, some (newVcpu options vm vcpuId answers),
        s.withVcpu options physicalAddress vcpuId (newVcpu options vm vcpuId answers)) := by
  have hslot : ¬(s.vcpu vcpuId).isSome = true := by simp [habsent]
  unfold nvcCreateVcpu nvcSvmcCreateVcpu
  dsimp only
  rw [if_neg (not_not.mpr hid), if_neg hslot, if_neg h.vcpu, if_neg h.vmcb]
  have hnsv := h.enableNsv
  have hvmcb := h.vmcbReassigned
  have hxsave := h.xsaveArea
  have hvmsa := h.vmsa
  have hreassigned := h.vmsaReassigned
  cases havic : options.avic with
  | false =>
      simp [hnsv, hvmcb, hxsave, hvmsa, hreassigned, havic, insertVcpu, nvcSvmInitializeCvmVmcb, newVcpu,
        withVcpu, bind, Except.bind, pure, Except.pure]
  | true =>
      have hbacking := h.apicBacking havic
      simp [hnsv, hvmcb, hxsave, hvmsa, hreassigned, havic, hbacking, insertVcpu, nvcSvmInitializeCvmVmcb,
        newVcpu, withVcpu, bind, Except.bind, pure, Except.pure]

theorem nvcCreateVcpu_fails (habsent : ¬vcpuId < vcpuListEntries ∨ s.vcpu vcpuId = none)
    (h : ¬(vcpuId < vcpuListEntries ∧ answers.Granted options)) :
    ∃ fault, s.nvcCreateVcpu options vm physicalAddress vcpuId answers = .error fault := by
  unfold nvcCreateVcpu nvcSvmcCreateVcpu
  dsimp only
  by_cases hid : vcpuId < vcpuListEntries
  swap
  · exact ⟨.outOfBounds, by rw [if_pos hid]; rfl⟩
  have hslot : ¬(s.vcpu vcpuId).isSome = true := by simp [habsent.resolve_left (not_not.mpr hid)]
  refine ⟨.nullDereference, ?_⟩
  rw [if_neg (not_not.mpr hid), if_neg hslot]
  by_cases hvcpu : answers.vcpu = 0
  · rw [if_pos hvcpu]
    rfl
  rw [if_neg hvcpu]
  by_cases hvmcb : answers.vmcb = 0
  · rw [if_pos hvmcb, vcpuAllocFailure_eq rfl]
    rfl
  rw [if_neg hvmcb]
  have hmissing : ¬(options.enableNsv = true ∧ answers.vmcbReassigned = true ∧
      (options.avic = true → answers.apicBacking ≠ 0) ∧ answers.xsaveArea ≠ 0 ∧ answers.vmsa ≠ 0 ∧
        answers.vmsaReassigned = true) := fun ⟨hnsv, hvmcb', hbacking, hxsave, hvmsa, hvmsa'⟩ =>
    h ⟨hid, hnsv, hvcpu, hvmcb, hvmcb', hbacking, hxsave, hvmsa, hvmsa'⟩
  have hbase : (if options.avic then
      ({ self := answers.vcpu, vmcb := answers.vmcb, apicBacking := answers.apicBacking } : ListedSvmVcpu)
      else { self := answers.vcpu, vmcb := answers.vmcb }) =
      { self := answers.vcpu, vmcb := answers.vmcb,
        apicBacking := if options.avic then answers.apicBacking else 0 } := by
    split <;> rfl
  rw [hbase]
  dsimp only
  by_cases hvmcb' : options.enableNsv = true ∧ (!answers.vmcbReassigned) = true
  · rw [if_pos hvmcb', vcpuAllocFailure_eq rfl]
    rfl
  rw [if_neg hvmcb']
  by_cases hbacking : options.avic = true ∧ (if options.avic = true then answers.apicBacking else 0) = 0
  · rw [if_pos hbacking, vcpuAllocFailure_eq rfl]
    rfl
  rw [if_neg hbacking]
  by_cases hxsave : answers.xsaveArea = 0
  · rw [if_pos hxsave, vcpuAllocFailure_eq rfl]
    rfl
  rw [if_neg hxsave]
  cases hnsv : options.enableNsv with
  | false =>
      -- There is no VMSA to initialize.
      rfl
  | true =>
      have hvmsa : answers.vmsa = 0 ∨ (!answers.vmsaReassigned) = true := by
        by_contra hgood
        refine hmissing ⟨hnsv, ?_, ?_, hxsave, fun hnull => hgood (.inl hnull), ?_⟩
        · simpa [hnsv] using hvmcb'
        · intro havic hnull
          exact hbacking ⟨havic, (if_pos havic).trans hnull⟩
        · simpa using fun hfalse => hgood (.inr hfalse)
      rw [if_pos rfl, if_pos ⟨rfl, hvmsa⟩, vcpuAllocFailure_eq rfl]
      rfl

theorem nvcSvmcReleaseVcpu_eq (hvm : vcpu.vm ≠ 0) (hid : vcpu.vcpuId < vcpuListEntries)
    (hstale : stale = vcpu.vm) :
    s.nvcSvmcReleaseVcpu options vcpu stale = .ok
      { vcpu := Function.update s.vcpu vcpu.vcpuId none
        vcpuCount := (s.vcpuCount + 2 ^ 32 - 1) % 2 ^ 32
        avicPhysical :=
          if options.avic then Function.update s.avicPhysical vcpu.vcpuId ⟨0, false⟩ else s.avicPhysical
        avicLogical :=
          if options.avic then Function.update s.avicLogical vcpu.vcpuId ⟨0, false⟩ else s.avicLogical
        listLock := s.listLock } := by
  unfold nvcSvmcReleaseVcpu
  rw [if_neg hvm, if_neg (not_not.mpr hid), if_neg (not_not.mpr hstale)]
  cases options.avic <;> rfl

theorem nvcSvmcReleaseVcpu_fails (hvm : vcpu.vm ≠ 0) (hid : vcpu.vcpuId < vcpuListEntries)
    (hstale : stale ≠ vcpu.vm) : s.nvcSvmcReleaseVcpu options vcpu stale = .error .useAfterFree := by
  unfold nvcSvmcReleaseVcpu
  rw [if_neg hvm, if_neg (not_not.mpr hid), if_pos hstale]
  rfl

end Calls

namespace Sound

variable {options : SvmVmOptions} {vm vcpuId : Nat} {physicalAddress : Nat → Nat} {s : SvmVcpuList}
  {vcpu : ListedSvmVcpu}

theorem card_lt (habsent : s.vcpu vcpuId = none) (hid : vcpuId < vcpuListEntries) :
    ((Finset.range vcpuListEntries).filter fun id => (s.vcpu id).isSome).card < vcpuListEntries := by
  calc
    _ < (Finset.range vcpuListEntries).card := by
      refine Finset.card_lt_card (Finset.filter_ssubset.mpr ⟨vcpuId, Finset.mem_range.mpr hid, ?_⟩)
      simp [habsent]
    _ = vcpuListEntries := Finset.card_range _

theorem withVcpu (h : s.Sound options vm physicalAddress) (hid : vcpuId < vcpuListEntries)
    (habsent : s.vcpu vcpuId = none) (hvcpu : vcpu.Initialized options vm vcpuId) :
    (s.withVcpu options physicalAddress vcpuId vcpu).Sound options vm physicalAddress where
  bounded id other hother := by
    by_cases heq : id = vcpuId
    · exact heq ▸ hid
    · exact h.bounded id other ((Function.update_of_ne heq _ _).symm.trans hother)
  initialized id other hother := by
    by_cases heq : id = vcpuId
    · subst heq
      obtain rfl := Option.some.inj ((Function.update_self id _ s.vcpu).symm.trans hother)
      exact hvcpu
    · exact h.initialized id other ((Function.update_of_ne heq _ _).symm.trans hother)
  count := by
    have hlt := card_lt habsent hid
    have hcard := card_update_some (a := vcpu) hid habsent
    change (s.vcpuCount + 1) % 2 ^ 32 =
      ((Finset.range vcpuListEntries).filter fun id =>
        (Function.update s.vcpu vcpuId (some vcpu) id).isSome).card
    rw [hcard, h.count]
    unfold vcpuListEntries at hlt ⊢
    omega
  present havic id other hother := by
    unfold SvmVcpuList.withVcpu at hother ⊢
    dsimp only at hother ⊢
    rw [if_pos havic, if_pos havic]
    by_cases heq : id = vcpuId
    · subst heq
      rw [Function.update_self] at hother ⊢
      obtain rfl := Option.some.inj hother
      refine ⟨rfl, ?_⟩
      rw [Function.update_self, Nat.mod_eq_of_lt (show id < 2 ^ 8 from hid)]
    · rw [Function.update_of_ne heq] at hother ⊢
      rw [Function.update_of_ne heq]
      exact h.present havic id other hother
  absent havic id hnone := by
    unfold SvmVcpuList.withVcpu at hnone ⊢
    dsimp only at hnone ⊢
    rw [if_pos havic, if_pos havic]
    by_cases heq : id = vcpuId
    · subst heq
      rw [Function.update_self] at hnone
      cases hnone
    · rw [Function.update_of_ne heq] at hnone ⊢
      rw [Function.update_of_ne heq]
      exact h.absent havic id hnone
  listLock := h.listLock

theorem release (h : s.Sound options vm physicalAddress) (hvm : vm ≠ 0)
    (hvcpu : s.vcpu vcpu.vcpuId = some vcpu) :
    ∃ s', s.nvcSvmcReleaseVcpu options vcpu vcpu.vm = .ok s' ∧ s'.Sound options vm physicalAddress ∧
      s'.vcpu = Function.update s.vcpu vcpu.vcpuId none := by
  have hid := h.bounded _ _ hvcpu
  have howner := (h.initialized _ _ hvcpu).vm
  refine ⟨_, nvcSvmcReleaseVcpu_eq (howner ▸ hvm) hid rfl, ?_, rfl⟩
  have hkept (id : Nat) (other : ListedSvmVcpu)
      (hother : Function.update s.vcpu vcpu.vcpuId none id = some other) :
      id ≠ vcpu.vcpuId ∧ s.vcpu id = some other := by
    by_cases heq : id = vcpu.vcpuId
    · subst heq
      rw [Function.update_self] at hother
      cases hother
    · exact ⟨heq, (Function.update_of_ne heq _ _).symm.trans hother⟩
  constructor
  · exact fun id other hother => h.bounded id other (hkept id other hother).2
  · exact fun id other hother => h.initialized id other (hkept id other hother).2
  · have hcard := card_update_none hid hvcpu
    have hcount := h.count
    have hbound := Finset.card_filter_le (Finset.range vcpuListEntries) fun id => (s.vcpu id).isSome
    rw [Finset.card_range] at hbound
    unfold vcpuListEntries at hcard hcount hbound ⊢
    dsimp only
    omega
  · intro havic id other hother
    obtain ⟨hne, hother⟩ := hkept id other hother
    dsimp only
    rw [if_pos havic, if_pos havic, Function.update_of_ne hne, Function.update_of_ne hne]
    exact h.present havic id other hother
  · intro havic id hnone
    dsimp only at hnone ⊢
    rw [if_pos havic, if_pos havic]
    by_cases heq : id = vcpu.vcpuId
    · subst heq
      rw [Function.update_self, Function.update_self]
      exact ⟨rfl, rfl⟩
    · rw [Function.update_of_ne heq] at hnone ⊢
      rw [Function.update_of_ne heq]
      exact h.absent havic id hnone
  · exact h.listLock

end Sound

theorem Start.sound {options : SvmVmOptions} {vm : Nat} {physicalAddress : Nat → Nat} {s : SvmVcpuList}
    (h : s.Start) : s.Sound options vm physicalAddress where
  bounded id vcpu hvcpu := (nomatch (h.vcpu id).symm.trans hvcpu)
  initialized id vcpu hvcpu := (nomatch (h.vcpu id).symm.trans hvcpu)
  count := by
    have hnone : ((Finset.range vcpuListEntries).filter fun id => (s.vcpu id).isSome) = ∅ :=
      Finset.filter_eq_empty_iff.mpr fun id _ => by simp [h.vcpu id]
    rw [h.vcpuCount, hnone]
    rfl
  present _ id vcpu hvcpu := (nomatch (h.vcpu id).symm.trans hvcpu)
  absent _ id _ := h.avic id
  listLock := h.listLock

end SvmVcpuList

namespace VcpuCall

open SvmVcpuList

variable {options : SvmVmOptions} {vm : Nat} {physicalAddress : Nat → Nat} {s : SvmVcpuList}

theorem create_behaves_iff (h : s.Sound options vm physicalAddress) (vcpuId : Nat)
    (answers : VcpuAnswers) :
    (create vcpuId answers).Behaves options vm physicalAddress s ↔ (create vcpuId answers).Fits options s := by
  by_cases hpresent : vcpuId < vcpuListEntries ∧ (s.vcpu vcpuId).isSome
  · refine iff_of_true ?_ ⟨hpresent.1, .inl hpresent.2⟩
    refine ⟨_, _, s, nvcCreateVcpu_of_present hpresent.1 hpresent.2, h, fun hst => (nomatch hst), ?_⟩
    exact fun _ => rfl
  by_cases hgranted : vcpuId < vcpuListEntries ∧ answers.Granted options
  · obtain ⟨hid, hgranted⟩ := hgranted
    have habsent : s.vcpu vcpuId = none :=
      Option.not_isSome_iff_eq_none.mp fun hsome => hpresent ⟨hid, hsome⟩
    refine iff_of_true ?_ ⟨hid, .inr hgranted⟩
    refine ⟨_, _, _, nvcCreateVcpu_of_granted hid habsent hgranted,
      h.withVcpu hid habsent (newVcpu_initialized hgranted), fun _ => ⟨Option.some_ne_none _, rfl⟩, ?_⟩
    exact fun hst => absurd rfl hst
  · have habsent : ¬vcpuId < vcpuListEntries ∨ s.vcpu vcpuId = none := by
      by_cases hid : vcpuId < vcpuListEntries
      · exact .inr (Option.not_isSome_iff_eq_none.mp fun hsome => hpresent ⟨hid, hsome⟩)
      · exact .inl hid
    refine iff_of_false ?_ ?_
    · rintro ⟨st, vcpu, s', hrun, -⟩
      obtain ⟨fault, hfault⟩ := @nvcCreateVcpu_fails options vm vcpuId physicalAddress s answers habsent
        hgranted
      cases hrun.symm.trans hfault
    · rintro ⟨hid, hsome | hfits⟩
      · exact hpresent ⟨hid, hsome⟩
      · exact hgranted ⟨hid, hfits⟩

theorem release_behaves_iff (hvm : vm ≠ 0) (h : s.Sound options vm physicalAddress) {vcpu : ListedSvmVcpu}
    (hvcpu : s.vcpu vcpu.vcpuId = some vcpu) (stale : Nat) :
    (release vcpu stale).Behaves options vm physicalAddress s ↔ stale = vcpu.vm := by
  constructor
  · rintro ⟨st, out, s', hrun, -⟩
    by_contra hstale
    have hfault := @nvcSvmcReleaseVcpu_fails options stale s vcpu
      ((h.initialized _ _ hvcpu).vm ▸ hvm) (h.bounded _ _ hvcpu) hstale
    simp only [run, hfault] at hrun
    cases hrun
  · rintro rfl
    obtain ⟨s', hrelease, hsound, hslots⟩ := h.release hvm hvcpu
    refine ⟨.success, none, s', ?_, hsound, hslots⟩
    simp only [run, hrelease]
    rfl

theorem behaves_iff (hvm : vm ≠ 0) (h : s.Sound options vm physicalAddress) {call : VcpuCall}
    (hpossible : call.Possible s) :
    call.Behaves options vm physicalAddress s ↔ call.Fits options s := by
  cases call with
  | create vcpuId answers => exact create_behaves_iff h vcpuId answers
  | release vcpu stale => exact release_behaves_iff hvm h hpossible stale

end VcpuCall

def noVcpus : SvmVcpuList :=
  ⟨fun _ => none, 0, fun _ => ⟨0, false⟩, fun _ => ⟨0, false⟩, 0⟩

theorem noVcpus_start : noVcpus.Start := ⟨fun _ => rfl, rfl, fun _ => ⟨rfl, rfl⟩, rfl⟩

def goodAnswers : VcpuAnswers := ⟨0x2000, 0x3000, true, 0x4000, 0x5000, 0x6000, true⟩

theorem goodAnswers_granted : goodAnswers.Granted ⟨true, true⟩ :=
  ⟨rfl, by decide, by decide, rfl, fun _ => by decide, by decide, by decide, rfl⟩

def oneVcpu : SvmVcpuList :=
  noVcpus.withVcpu ⟨true, true⟩ id 3 (SvmVcpuList.newVcpu ⟨true, true⟩ 0x1000 3 goodAnswers)

end NoirVisor
