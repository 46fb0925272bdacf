import NoirVisor.Cvm.SvmCleanRuns
import NoirVisor.Cvm.SvmEvents

/-!
# Permission maps of MSRs

The two maps of a customizable VM on SVM: their creation, the one that the options of a virtual CPU put in
force, and the accesses that the processor intercepts by it.
-/

namespace NoirVisor

/-! Physical memory is told by bits, so that the bit `i` of the byte at `a` is at `8 * a + i`. -/

def pageSize : Nat := 0x1000
def noirSvmMsrpmSize : Nat := 0x1800

def noirZeroMemory (memory : Nat → Bool) (base size : Nat) : Nat → Bool :=
  fun k => if 8 * base ≤ k ∧ k < 8 * (base + size) then false else memory k

/-- `noir_stosb` of 0xff. -/
def noirStosbOnes (memory : Nat → Bool) (base size : Nat) : Nat → Bool :=
  fun k => if 8 * base ≤ k ∧ k < 8 * (base + size) then true else memory k

def noirResetBitmap (memory : Nat → Bool) (bitmap bitPosition : Nat) : Nat → Bool :=
  Function.update memory (8 * bitmap + bitPosition) false

/-- `operation` is 0 for reads and 1 for writes. -/
def svmMsrpmBit (bitmap index operation : Nat) : Nat :=
  match bitmap with
  | 1 => index * 2 + operation
  | 2 => (index - 0xC0000000) * 2 + operation
  | 3 => (index - 0xC0010000) * 2 + operation
  | _ => 0

/-- Where the bitmaps of `nvc_svmc_setup_msr_interception_exception` are in the map. -/
def bitmapOffset : Nat → Nat
  | 1 => 0x0
  | 2 => 0x800
  | _ => 0x1000

/-- The MSRs that are not intercepted, each with its bitmap. -/
def msrInterceptionExceptions : List (Nat × Nat) :=
  -- System-Enter MSRs
  [(1, 0x174), (1, 0x175), (1, 0x176),
    -- System-Call MSRs
    (2, 0xC0000081), (2, 0xC0000082), (2, 0xC0000083), (2, 0xC0000084),
    -- FS/GS Base MSRs
    (2, 0xC0000100), (2, 0xC0000101), (2, 0xC0000102),
    -- The PAT MSR
    (1, 0x277)]

def resetMsr (msrpm : Nat) (memory : Nat → Bool) (msr : Nat × Nat) : Nat → Bool :=
  let bitmap := msrpm + bitmapOffset msr.1
  noirResetBitmap (noirResetBitmap memory bitmap (svmMsrpmBit msr.1 msr.2 0)) bitmap
    (svmMsrpmBit msr.1 msr.2 1)

def nvcSvmcSetupMsrInterceptionException (memory : Nat → Bool) (msrpm : Nat) : Nat → Bool :=
  msrInterceptionExceptions.foldl (resetMsr msrpm) memory

/-- What `nvc_svmc_create_vm` does with the maps, by the addresses that were allocated: none if it fails.
Whether the map for all MSRs was allocated is not asked, and the physical address of null is zero. -/
def createPermissionMaps (memory : Nat → Bool) (msrpm msrpmFull : Nat) :
    Option (SvmPermissionMaps × (Nat → Bool)) :=
  if msrpm = 0 then none
  else
    let memory := noirZeroMemory memory msrpm (2 * pageSize)
    let memory := if msrpmFull = 0 then memory else noirZeroMemory memory msrpmFull (3 * pageSize)
    -- We want mostly-unconditional exits.
    let memory := noirStosbOnes memory msrpm noirSvmMsrpmSize
    some (⟨msrpm, msrpmFull⟩, nvcSvmcSetupMsrInterceptionException memory msrpm)

/-- The bit of `intercept_instruction1` that puts the map in force. -/
def interceptVector1Msr : Nat := 28

/-- `nvc_svm_initialize_cvm_vmcb` as far as it is about MSRs. -/
structure MsrInitialized (vm : SvmPermissionMaps) (vcpu : SvmCustomVcpu) : Prop where
  intercept : (vcpu.vmcb.field .interceptInstruction1).testBit interceptVector1Msr = true
  map : vcpu.vmcb.field .msrpmPhysicalAddress = vm.msrpm
  option : vcpu.header.vcpuOptions.interceptMsr = false

/-- What a user hypervisor sets with `nvc_set_guest_vcpu_options`. -/
inductive VcpuSetting where
  | guestVcpuOptions (options : VcpuOptions)
  | exceptionBitmap (data : Nat)
  /-- The priority and the MSRs to intercept, which the VMCB does not depend on. -/
  | other

def VcpuSetting.apply (vcpu : SvmCustomVcpu) : VcpuSetting → SvmCustomVcpu
  | guestVcpuOptions options => { vcpu with header := { vcpu.header with vcpuOptions := options } }
  | exceptionBitmap data => { vcpu with header := { vcpu.header with exceptionBitmap := data } }
  | other => vcpu

def nvcSetGuestVcpuOptions (vm : SvmPermissionMaps) (vcpu : SvmCustomVcpu) (setting : VcpuSetting) :
    SvmCustomVcpu :=
  nvcSvmSetGuestVcpuOptions vm (setting.apply vcpu)

/-- What the processor makes of the map at an address: an MSR of none of the ranges is intercepted. -/
def msrpmIntercepts (memory : Nat → Bool) (base msr operation : Nat) : Bool :=
  if msr < 0x2000 then memory (8 * base + (2 * msr + operation))
  else if 0xC0000000 ≤ msr ∧ msr < 0xC0002000 then
    memory (8 * base + (8 * 0x800 + 2 * (msr - 0xC0000000) + operation))
  else if 0xC0010000 ≤ msr ∧ msr < 0xC0012000 then
    memory (8 * base + (8 * 0x1000 + 2 * (msr - 0xC0010000) + operation))
  else true

def SvmCustomVcpu.interceptsMsr (vcpu : SvmCustomVcpu) (memory : Nat → Bool) (msr operation : Nat) : Bool :=
  (vcpu.vmcb.field .interceptInstruction1).testBit interceptVector1Msr &&
    msrpmIntercepts memory (vcpu.vmcb.field .msrpmPhysicalAddress) msr operation

/-- Sysenter, syscall, the bases of FS and GS, and the PAT. -/
def PassedThrough (msr : Nat) : Prop :=
  msr ∈ [0x174, 0x175, 0x176, 0xC0000081, 0xC0000082, 0xC0000083, 0xC0000084, 0xC0000100, 0xC0000101,
    0xC0000102, 0x277]

/-- Every access is intercepted but for those that are passed through, unless the user hypervisor
intercepts MSRs. -/
def SvmCustomVcpu.MsrsIntercepted (vcpu : SvmCustomVcpu) (memory : Nat → Bool) : Prop :=
  ∀ msr < 2 ^ 32, ∀ operation < 2, vcpu.interceptsMsr memory msr operation = true ↔
    ¬(vcpu.header.vcpuOptions.interceptMsr = false ∧ PassedThrough msr)

section Maps

variable {memory created later : Nat → Bool} {vm : SvmPermissionMaps} {vcpu : SvmCustomVcpu}
  {base msrpm msrpmFull msr operation k : Nat}

/-- The bits of an MSR for reads and writes, as the source computes them. -/
def Clears (msrpm : Nat) (e : Nat × Nat) (k : Nat) : Prop :=
  k = 8 * (msrpm + bitmapOffset e.1) + svmMsrpmBit e.1 e.2 0 ∨
    k = 8 * (msrpm + bitmapOffset e.1) + svmMsrpmBit e.1 e.2 1

theorem resetMsr_iff {e : Nat × Nat} :
    resetMsr msrpm memory e k = true ↔ memory k = true ∧ ¬Clears msrpm e k := by
  unfold resetMsr noirResetBitmap Clears
  simp only [Function.update_apply]
  split <;> try split
  all_goals simp_all

/-- The bits of the exceptions are cleared, and no other. -/
theorem foldl_resetMsr_iff {exceptions : List (Nat × Nat)} :
    exceptions.foldl (resetMsr msrpm) memory k = true ↔
      memory k = true ∧ ∀ e ∈ exceptions, ¬Clears msrpm e k := by
  induction exceptions generalizing memory with
  | nil => simp
  | cons e exceptions ih =>
      rw [List.foldl_cons, ih, resetMsr_iff, List.forall_mem_cons, and_assoc]

/-- The exceptions are in the map. -/
theorem Clears.inside (h : ∃ e ∈ msrInterceptionExceptions, Clears msrpm e k) :
    8 * msrpm ≤ k ∧ k < 8 * (msrpm + noirSvmMsrpmSize) := by
  simp only [msrInterceptionExceptions, Clears, bitmapOffset, svmMsrpmBit, List.exists_mem_cons_iff,
    List.not_mem_nil, false_and, exists_false, or_false] at h
  unfold noirSvmMsrpmSize
  omega

theorem noirZeroMemory_of_outside {base size : Nat} (h : ¬(8 * base ≤ k ∧ k < 8 * (base + size))) :
    noirZeroMemory memory base size k = memory k :=
  if_neg h

/-- Nothing is written outside of the maps. -/
theorem createPermissionMaps_of_outside (h : createPermissionMaps memory msrpm msrpmFull = some (vm, created))
    (houtside : ¬(8 * msrpm ≤ k ∧ k < 8 * (msrpm + 2 * pageSize)))
    (hfull : msrpmFull = 0 ∨ ¬(8 * msrpmFull ≤ k ∧ k < 8 * (msrpmFull + 3 * pageSize))) :
    created k = memory k := by
  have hsize : 8 * (msrpm + noirSvmMsrpmSize) ≤ 8 * (msrpm + 2 * pageSize) :=
    Nat.mul_le_mul_left 8 (Nat.add_le_add_left (by decide) msrpm)
  have hsmall : ¬(8 * msrpm ≤ k ∧ k < 8 * (msrpm + noirSvmMsrpmSize)) := fun hinside =>
    houtside ⟨hinside.1, Nat.lt_of_lt_of_le hinside.2 hsize⟩
  have hclears : ∀ e ∈ msrInterceptionExceptions, ¬Clears msrpm e k := fun e he hclears =>
    hsmall (Clears.inside ⟨e, he, hclears⟩)
  unfold createPermissionMaps at h
  split at h
  · cases h
  · obtain rfl := congrArg Prod.snd (Option.some.inj h)
    refine Bool.eq_iff_iff.mpr ?_
    unfold nvcSvmcSetupMsrInterceptionException
    dsimp only
    rw [foldl_resetMsr_iff, and_iff_left hclears]
    unfold noirStosbOnes
    rw [if_neg hsmall]
    by_cases hnull : msrpmFull = 0
    · rw [if_pos hnull, noirZeroMemory_of_outside houtside]
    · rw [if_neg hnull, noirZeroMemory_of_outside (hfull.resolve_left hnull),
        noirZeroMemory_of_outside houtside]

/-- In the usual map every bit is set but for those of the exceptions. -/
theorem createPermissionMaps_msrpm (h : createPermissionMaps memory msrpm msrpmFull = some (vm, created))
    (hk : k < 8 * noirSvmMsrpmSize) :
    created (8 * msrpm + k) = true ↔
      ∀ e ∈ msrInterceptionExceptions, ¬Clears msrpm e (8 * msrpm + k) := by
  unfold createPermissionMaps at h
  split at h
  · cases h
  · obtain rfl := congrArg Prod.snd (Option.some.inj h)
    unfold nvcSvmcSetupMsrInterceptionException
    dsimp only
    rw [foldl_resetMsr_iff]
    refine and_iff_right ?_
    unfold noirStosbOnes
    exact if_pos ⟨by omega, by omega⟩

/-- The map for all MSRs is what was allocated, pages of zeros. -/
theorem createPermissionMaps_msrpmFull
    (h : createPermissionMaps memory msrpm msrpmFull = some (vm, created)) (hfull : msrpmFull ≠ 0)
    (hapart : msrpm + 2 * pageSize ≤ msrpmFull ∨ msrpmFull + 3 * pageSize ≤ msrpm)
    (hk : k < 8 * (3 * pageSize)) : created (8 * msrpmFull + k) = false := by
  unfold createPermissionMaps at h
  split at h
  · cases h
  · obtain rfl := congrArg Prod.snd (Option.some.inj h)
    have hsmall : ¬(8 * msrpm ≤ 8 * msrpmFull + k ∧ 8 * msrpmFull + k < 8 * (msrpm + noirSvmMsrpmSize)) := by
      unfold pageSize at hapart hk
      unfold noirSvmMsrpmSize
      omega
    refine Bool.eq_false_iff.mpr fun htrue => ?_
    unfold nvcSvmcSetupMsrInterceptionException at htrue
    dsimp only at htrue
    rw [foldl_resetMsr_iff] at htrue
    unfold noirStosbOnes noirZeroMemory at htrue
    rw [if_neg hsmall, if_pos ⟨by omega, by omega⟩] at htrue
    exact Bool.false_ne_true htrue.1

/-- The bit of an access in the usual map is the one that the processor looks at. -/
theorem msrpmIntercepts_msrpm (h : createPermissionMaps memory msrpm msrpmFull = some (vm, created))
    (hlater : ∀ k, 8 * msrpm ≤ k → k < 8 * (msrpm + noirSvmMsrpmSize) → later k = created k)
    (hoperation : operation < 2) :
    msrpmIntercepts later msrpm msr operation = true ↔ ¬PassedThrough msr := by
  have hbit {k : Nat} (hk : k < 8 * noirSvmMsrpmSize) : later (8 * msrpm + k) = true ↔
      ∀ e ∈ msrInterceptionExceptions, ¬Clears msrpm e (8 * msrpm + k) := by
    rw [hlater _ (by omega) (by omega)]
    exact createPermissionMaps_msrpm h hk
  unfold noirSvmMsrpmSize at hbit
  unfold msrpmIntercepts PassedThrough
  simp only [List.mem_cons, List.not_mem_nil, or_false]
  split
  · next hlow =>
      rw [hbit (by omega)]
      simp only [msrInterceptionExceptions, Clears, bitmapOffset, svmMsrpmBit, List.forall_mem_cons,
        List.not_mem_nil, false_imp_iff, implies_true, and_true]
      omega
  · split
    · next hlow hsyscall =>
        rw [hbit (by omega)]
        simp only [msrInterceptionExceptions, Clears, bitmapOffset, svmMsrpmBit, List.forall_mem_cons,
          List.not_mem_nil, false_imp_iff, implies_true, and_true]
        omega
    · split
      · next hlow hsyscall hhigh =>
          rw [hbit (by omega)]
          simp only [msrInterceptionExceptions, Clears, bitmapOffset, svmMsrpmBit, List.forall_mem_cons,
            List.not_mem_nil, false_imp_iff, implies_true, and_true]
          omega
      · refine iff_of_true rfl ?_
        omega

/-- The map for all MSRs intercepts every access if all of it is set. -/
theorem msrpmIntercepts_iff_ones :
    (∀ msr < 2 ^ 32, ∀ operation < 2, msrpmIntercepts memory base msr operation = true) ↔
      ∀ k < 8 * noirSvmMsrpmSize, memory (8 * base + k) = true := by
  unfold noirSvmMsrpmSize
  constructor
  · intro h k hk
    by_cases hlow : k < 0x4000
    · have hbit := h (k / 2) (by omega) (k % 2) (by omega)
      unfold msrpmIntercepts at hbit
      rw [if_pos (by omega)] at hbit
      rwa [Nat.div_add_mod] at hbit
    · by_cases hsyscall : k < 0x8000
      · have hbit := h (0xC0000000 + (k - 0x4000) / 2) (by omega) (k % 2) (by omega)
        unfold msrpmIntercepts at hbit
        rw [if_neg (by omega), if_pos ⟨by omega, by omega⟩] at hbit
        rwa [show 8 * 0x800 + 2 * (0xC0000000 + (k - 0x4000) / 2 - 0xC0000000) + k % 2 = k by omega] at hbit
      · have hbit := h (0xC0010000 + (k - 0x8000) / 2) (by omega) (k % 2) (by omega)
        unfold msrpmIntercepts at hbit
        rw [if_neg (by omega), if_neg (by omega), if_pos ⟨by omega, by omega⟩] at hbit
        rwa [show 8 * 0x1000 + 2 * (0xC0010000 + (k - 0x8000) / 2 - 0xC0010000) + k % 2 = k by omega] at hbit
  · intro h msr _ operation hoperation
    unfold msrpmIntercepts
    split
    · exact h _ (by omega)
    · split
      · exact h _ (by omega)
      · split
        · exact h _ (by omega)
        · rfl

end Maps

section Settings

variable {memory created later : Nat → Bool} {vm : SvmPermissionMaps} {vcpu : SvmCustomVcpu}
  {msrpm msrpmFull : Nat} {settings : List VcpuSetting}

/-- The map in force follows the option. -/
structure MsrConfigured (vm : SvmPermissionMaps) (vcpu : SvmCustomVcpu) : Prop where
  intercept : (vcpu.vmcb.field .interceptInstruction1).testBit interceptVector1Msr = true
  map : vcpu.vmcb.field .msrpmPhysicalAddress =
    if vcpu.header.vcpuOptions.interceptMsr then vm.msrpmFull else vm.msrpm

theorem MsrInitialized.configured (h : MsrInitialized vm vcpu) : MsrConfigured vm vcpu where
  intercept := h.intercept
  map := by
    rw [h.option]
    exact h.map

theorem nvcSvmSetGuestVcpuOptions_configured
    (h : (vcpu.vmcb.field .interceptInstruction1).testBit interceptVector1Msr = true) :
    MsrConfigured vm (nvcSvmSetGuestVcpuOptions vm vcpu) := by
  constructor
  · unfold nvcSvmSetGuestVcpuOptions
    dsimp only [Vmcb.dirty]
    split
    · rw [Vmcb.field_write_of_ne (by decide), Vmcb.field_write_self]
      exact setBitTo_testBit.trans h
    · rw [Vmcb.field_write_self]
      exact setBitTo_testBit.trans h
  · unfold nvcSvmSetGuestVcpuOptions
    dsimp only [Vmcb.dirty]
    split
    · rw [Vmcb.field_write_of_ne (by decide), Vmcb.field_write_of_ne (by decide), Vmcb.field_write_self]
    · rw [Vmcb.field_write_of_ne (by decide), Vmcb.field_write_self]

theorem MsrConfigured.set (h : MsrConfigured vm vcpu) (setting : VcpuSetting) :
    MsrConfigured vm (nvcSetGuestVcpuOptions vm vcpu setting) := by
  refine nvcSvmSetGuestVcpuOptions_configured ?_
  cases setting <;> exact h.intercept

theorem MsrConfigured.foldl (h : MsrConfigured vm vcpu) :
    MsrConfigured vm (settings.foldl (nvcSetGuestVcpuOptions vm) vcpu) := by
  induction settings generalizing vcpu with
  | nil => exact h
  | cons setting settings ih => exact ih (h.set setting)

/-- With the option off every access but those that are passed through is intercepted, by the bit that the
processor looks at, and with the option on only if the host's first pages, in the place of a map that could
not be allocated, happen to be full. Nothing is written outside of the maps. -/
theorem createPermissionMaps_msrsIntercepted_iff
    (hcreate : createPermissionMaps memory msrpm msrpmFull = some (vm, created))
    (hapart : msrpm + 2 * pageSize ≤ msrpmFull ∨ msrpmFull + 3 * pageSize ≤ msrpm ∨ msrpmFull = 0)
    (hlater : ∀ k, 8 * msrpm ≤ k ∧ k < 8 * (msrpm + 2 * pageSize) ∨
      msrpmFull ≠ 0 ∧ 8 * msrpmFull ≤ k ∧ k < 8 * (msrpmFull + 3 * pageSize) → later k = created k)
    (hvcpu : MsrInitialized vm vcpu) (settings : List VcpuSetting) :
    ((settings.foldl (nvcSetGuestVcpuOptions vm) vcpu).MsrsIntercepted later ↔
        ((settings.foldl (nvcSetGuestVcpuOptions vm) vcpu).header.vcpuOptions.interceptMsr = true →
          msrpmFull = 0 ∧ ∀ k < 8 * noirSvmMsrpmSize, later k = true)) ∧
      ∀ k, ¬(8 * msrpm ≤ k ∧ k < 8 * (msrpm + 2 * pageSize)) →
        (msrpmFull = 0 ∨ ¬(8 * msrpmFull ≤ k ∧ k < 8 * (msrpmFull + 3 * pageSize))) → created k = memory k := by
  refine ⟨?_, fun k => createPermissionMaps_of_outside hcreate⟩
  have hconfigured : MsrConfigured vm (settings.foldl (nvcSetGuestVcpuOptions vm) vcpu) :=
    hvcpu.configured.foldl
  generalize settings.foldl (nvcSetGuestVcpuOptions vm) vcpu = vcpu' at hconfigured
  have hvm : vm = ⟨msrpm, msrpmFull⟩ := by
    unfold createPermissionMaps at hcreate
    split at hcreate
    · cases hcreate
    · exact (congrArg Prod.fst (Option.some.inj hcreate)).symm
  have hintercepts (msr operation : Nat) : vcpu'.interceptsMsr later msr operation =
      msrpmIntercepts later (if vcpu'.header.vcpuOptions.interceptMsr then msrpmFull else msrpm) msr
        operation := by
    unfold SvmCustomVcpu.interceptsMsr
    rw [hconfigured.intercept, hconfigured.map, Bool.true_and, hvm]
  unfold SvmCustomVcpu.MsrsIntercepted
  simp only [hintercepts]
  cases hoption : vcpu'.header.vcpuOptions.interceptMsr with
  | false =>
      have hsize : 8 * (msrpm + noirSvmMsrpmSize) ≤ 8 * (msrpm + 2 * pageSize) :=
        Nat.mul_le_mul_left 8 (Nat.add_le_add_left (by decide) msrpm)
      refine iff_of_true (fun msr _ operation hoperation => ?_) (fun h => (nomatch h))
      rw [if_neg Bool.false_ne_true, and_iff_right rfl]
      exact msrpmIntercepts_msrpm hcreate
        (fun k hlow hhigh => hlater k (.inl ⟨hlow, Nat.lt_of_lt_of_le hhigh hsize⟩)) hoperation
  | true =>
      have hall : (∀ msr < 2 ^ 32, ∀ operation < 2,
          (msrpmIntercepts later (if true = true then msrpmFull else msrpm) msr operation = true ↔
            ¬(true = false ∧ PassedThrough msr))) ↔
          ∀ k < 8 * noirSvmMsrpmSize, later (8 * msrpmFull + k) = true := by
        rw [if_pos rfl, ← msrpmIntercepts_iff_ones]
        simp
      rw [hall, forall_prop_of_true rfl]
      by_cases hnull : msrpmFull = 0
      · simp [hnull]
      · refine iff_of_false (fun hones => ?_) fun hzero => hnull hzero.1
        have hset := hones 0 (by decide)
        have hpos : (0 : Nat) < 8 * (3 * pageSize) := by decide
        rw [hlater _ (.inr ⟨hnull, Nat.le_add_right _ _, by omega⟩),
          createPermissionMaps_msrpmFull hcreate hnull (by omega) hpos] at hset
        exact Bool.false_ne_true hset

/-- A virtual CPU as it is initialized, with the usual map at 0x10000. -/
def mappedVcpu : SvmCustomVcpu where
  header := zeroVirtualCpu
  vmcb := ⟨fun f => if f = .interceptInstruction1 then 2 ^ 28 else if f = .msrpmPhysicalAddress then 0x10000 else 0,
    fun _ => false⟩
  procId := 0
  shadowedBits := ⟨false, false, false⟩
  specialState := ⟨false, false, false, false⟩
  nsvGuest := false
  vmsa := ⟨fun _ => 0, true⟩

theorem mappedVcpu_initialized : MsrInitialized ⟨0x10000, 0x20000⟩ mappedVcpu :=
  ⟨by decide, rfl, rfl⟩

/-- The maps are created in pages that were zero. -/
def newMaps : Nat → Bool :=
  nvcSvmcSetupMsrInterceptionException (noirStosbOnes (noirZeroMemory (noirZeroMemory (fun _ => false) 0x10000
    (2 * pageSize)) 0x20000 (3 * pageSize)) 0x10000 noirSvmMsrpmSize) 0x10000

theorem newMaps_created :
    createPermissionMaps (fun _ => false) 0x10000 0x20000 = some (⟨0x10000, 0x20000⟩, newMaps) := rfl

theorem newMaps_msrsIntercepted :
    (([] : List VcpuSetting).foldl (nvcSetGuestVcpuOptions ⟨0x10000, 0x20000⟩) mappedVcpu).MsrsIntercepted newMaps :=
  (createPermissionMaps_msrsIntercepted_iff newMaps_created (.inl (by decide)) (fun _ _ => rfl)
    mappedVcpu_initialized []).1.mpr fun hoption => (nomatch hoption)

/-- The user hypervisor asks for every MSR. -/
def interceptEveryMsr : VcpuSetting :=
  .guestVcpuOptions { zeroVirtualCpu.vcpuOptions with interceptMsr := true }

/-- With the option on no MSR is intercepted: the map for all of them is filled by nobody. -/
theorem not_forall_msrsIntercepted :
    ¬∀ (memory created : Nat → Bool) (vm : SvmPermissionMaps) (vcpu : SvmCustomVcpu) (msrpm msrpmFull : Nat)
      (settings : List VcpuSetting), createPermissionMaps memory msrpm msrpmFull = some (vm, created) →
      MsrInitialized vm vcpu →
      (settings.foldl (nvcSetGuestVcpuOptions vm) vcpu).MsrsIntercepted created := by
  intro h
  have hconfigured := (mappedVcpu_initialized.configured).set interceptEveryMsr
  have hoption : (nvcSetGuestVcpuOptions ⟨0x10000, 0x20000⟩ mappedVcpu
      interceptEveryMsr).header.vcpuOptions.interceptMsr = true := rfl
  have hread := (h _ _ _ _ _ _ [interceptEveryMsr] newMaps_created mappedVcpu_initialized 0 (by decide) 0
    (by decide)).mpr fun hpassed => absurd hpassed.1 (by decide)
  have hzero : newMaps (8 * 0x20000 + 0) = false :=
    createPermissionMaps_msrpmFull newMaps_created (by decide) (.inl (by decide)) (by decide)
  rw [List.foldl_cons, List.foldl_nil] at hread
  unfold SvmCustomVcpu.interceptsMsr at hread
  rw [hconfigured.intercept, hconfigured.map, hoption, Bool.true_and] at hread
  cases hzero.symm.trans hread

end Settings

end NoirVisor
