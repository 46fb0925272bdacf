import NoirVisor.Cvm.SvmCvexit
import NoirVisor.Platform

/-!
# The quick path of CPUID

The entries for the leaves that NoirVisor answers itself, in a table of the vCPU and one of the VM. The
limit of the first search is larger than the table of the vCPU.
-/

namespace NoirVisor

structure CpuidGeneralInfo where
  eax : Nat
  ebx : Nat
  ecx : Nat
  edx : Nat
deriving DecidableEq

/-- `noir_cvm_cpuid_quickpath_info`. -/
structure CpuidQuickpathInfo where
  leaf : Nat := 0
  subleaf : Nat := 0
  active : Bool := false
  hasSubleaf : Bool := false
  vmWide : Bool := false
  eax : Nat := 0
  ebx : Nat := 0
  ecx : Nat := 0
  edx : Nat := 0
deriving DecidableEq

def cpuidQuickpathLimitPerVm : Nat := 64
def cpuidQuickpathLimitPerVcpu : Nat := 16

/-- Zeros are an empty slot. -/
def CpuidQuickpathInfo.empty : CpuidQuickpathInfo := {}

/-- The arrays as they are declared. -/
structure CpuidTables where
  vcpu : Vector CpuidQuickpathInfo 8
  vm : Vector CpuidQuickpathInfo 64

namespace CpuidQuickpathInfo

variable (qp : CpuidQuickpathInfo) (leaf subleaf : Nat)

/-- What the search looks at: not whether the entry is active. -/
def serves : Bool := qp.leaf == leaf && (!qp.hasSubleaf || qp.subleaf == subleaf)

def toQuickpath : CpuidQuickpath :=
  ⟨qp.leaf, qp.subleaf, qp.hasSubleaf, qp.eax, qp.ebx, qp.ecx, qp.edx⟩

end CpuidQuickpathInfo

section Search

variable {n : Nat} (table : Vector CpuidQuickpathInfo n) (leaf subleaf : Nat)

/-- The loop over the indices from `i` on. -/
def searchQuickpath : Nat → Nat → Outcome (Option CpuidQuickpathInfo)
  | 0, _ => pure none
  | remaining + 1, i =>
      if h : i < n then
        if table[i].serves leaf subleaf then pure (some table[i])
        else searchQuickpath remaining (i + 1)
      else throw .outOfBounds

end Search

/-- The entry that the handler answers with. -/
def CpuidTables.quickpath (tables : CpuidTables) (leaf subleaf : Nat) :
    Outcome (Option CpuidQuickpathInfo) := do
  match ← searchQuickpath tables.vcpu leaf subleaf cpuidQuickpathLimitPerVcpu 0 with
  | some qp => pure (some qp)
  | none => searchQuickpath tables.vm leaf subleaf cpuidQuickpathLimitPerVm 0

/-- The tables as the exit handler is given them. -/
def CpuidTables.entries (tables : CpuidTables) : List CpuidQuickpath :=
  (tables.vcpu.toList ++ tables.vm.toList).map CpuidQuickpathInfo.toQuickpath

section Initializers

variable (cpuid : Nat → Nat → CpuidGeneralInfo) (vcpuId vcpuCount : Nat)

/-- The assignments of `nvc_svm_init_vcpu_cpuid_quickpath`, with the indices. -/
def vcpuQuickpaths : List (Nat × CpuidQuickpathInfo) :=
  let feature := cpuid 0x1 0
  let brand (leaf : Nat) : CpuidQuickpathInfo :=
    { leaf, active := true, eax := (cpuid leaf 0).eax, ebx := (cpuid leaf 0).ebx
      ecx := (cpuid leaf 0).ecx, edx := (cpuid leaf 0).edx }
  [(0, { leaf := 0x1, active := true, eax := feature.eax
         ebx := feature.ebx &&& 0xFFFF ||| vcpuId <<< 24 &&& 0xFF ||| vcpuCount <<< 16 &&& 0xFF
         ecx := feature.ecx &&& 0xE2D83209 ||| 0x80000000
         edx := feature.edx &&& 0xE2D83209 }),
    (1, { leaf := 0xD, active := true, hasSubleaf := true, eax := 3, ebx := 512, ecx := 512 }),
    (2, brand 0x80000002), (3, brand 0x80000003), (4, brand 0x80000004)]

/-- Those of `nvc_svm_init_vm_cpuid_quickpath`. The index of the last two is the same. -/
def vmQuickpaths : List (Nat × CpuidQuickpathInfo) :=
  let vendor (leaf limit : Nat) : CpuidQuickpathInfo :=
    { leaf, active := true, vmWide := true, eax := limit, ebx := (cpuid leaf 0).ebx
      ecx := (cpuid leaf 0).ecx, edx := (cpuid leaf 0).edx }
  let feature := cpuid 0x80000001 0
  [(0, vendor 0x0 0xD),
    (1, { leaf := 0x7, active := true, hasSubleaf := true, vmWide := true
          ebx := (cpuid 0x7 0).ebx &&& 0x01DC0589, ecx := (cpuid 0x7 0).ecx &&& 0x00000004 }),
    (2, { leaf := 0xD, subleaf := 1, active := true, hasSubleaf := true, vmWide := true, ebx := 0x240 }),
    (3, vendor 0x80000000 0x80000008),
    (4, { leaf := 0x80000001, active := true, vmWide := true, eax := feature.eax, ebx := feature.ebx
          ecx := feature.ecx &&& 0x002001FB, edx := feature.edx &&& 0xEFDFBB7F }),
    (5, { leaf := 0x80000008, active := true, vmWide := true, eax := 0x3030 }),
    (6, { leaf := 0x40000000, active := true, vmWide := true, eax := 0x40000001
          ebx := 0x72696F4E, ecx := 0x6F736956, edx := 0x545A2072 }),
    (6, { leaf := 0x40000001, active := true, vmWide := true, eax := 0x3123764E })]

end Initializers

def configureQuickpath {n : Nat} (table : Vector CpuidQuickpathInfo n)
    (a : Nat × CpuidQuickpathInfo) : Outcome (Vector CpuidQuickpathInfo n) :=
  if h : a.1 < n then pure (table.set a.1 a.2) else throw .outOfBounds

/-- The tables of a new VM and a new vCPU of it. -/
def initCpuidQuickpath (cpuid : Nat → Nat → CpuidGeneralInfo) (vcpuId vcpuCount : Nat) :
    Outcome CpuidTables := do
  let vm ← (vmQuickpaths cpuid).foldlM configureQuickpath (.replicate 64 .empty)
  let vcpu ← (vcpuQuickpaths cpuid vcpuId vcpuCount).foldlM configureQuickpath (.replicate 8 .empty)
  pure { vcpu, vm }

namespace CpuidTables

variable (tables : CpuidTables) (leaf subleaf : Nat)

/-- The entry that should serve a leaf: the first active one, of the vCPU before the VM. -/
def activeQuickpath : Option CpuidQuickpathInfo :=
  (tables.vcpu.toList ++ tables.vm.toList).find? fun qp => qp.active && qp.serves leaf subleaf

/-- The search stays in the tables, and ends with that entry. -/
def Behaves : Prop := tables.quickpath leaf subleaf = .ok (tables.activeQuickpath leaf subleaf)

/-- What is configured for a leaf stays in its slot. -/
def Keeps (cpuid : Nat → Nat → CpuidGeneralInfo) (vcpuId vcpuCount : Nat) : Prop :=
  (∀ a ∈ vcpuQuickpaths cpuid vcpuId vcpuCount, a.2.leaf = leaf → a.2.subleaf = subleaf →
    tables.vcpu.toList[a.1]? = some a.2) ∧
  ∀ a ∈ vmQuickpaths cpuid, a.2.leaf = leaf → a.2.subleaf = subleaf →
    tables.vm.toList[a.1]? = some a.2

end CpuidTables

section Search

variable {n remaining limit i : Nat} {table : Vector CpuidQuickpathInfo n} {tables : CpuidTables}
  {leaf subleaf : Nat} {qp : CpuidQuickpathInfo}

theorem drop_eq_cons (h : i < n) : table.toList.drop i = table[i] :: table.toList.drop (i + 1) := by
  rw [List.drop_eq_getElem_cons (by simpa using h), Vector.getElem_toList]

/-- A search that goes to the end finds the first entry that serves the leaf. -/
theorem searchQuickpath_of_some (hend : n ≤ i + remaining)
    (h : (table.toList.drop i).find? (·.serves leaf subleaf) = some qp) :
    searchQuickpath table leaf subleaf remaining i = .ok (some qp) := by
  have hi : i < n := by
    by_contra hpast
    rw [List.drop_eq_nil_of_le (by simpa using hpast)] at h
    cases h
  induction remaining generalizing i with
  | zero => omega
  | succ remaining ih =>
      unfold searchQuickpath
      rw [dif_pos hi]
      rw [drop_eq_cons hi, List.find?_cons] at h
      cases hserves : table[i].serves leaf subleaf with
      | true =>
          rw [hserves] at h
          rw [if_pos rfl]
          exact congrArg Except.ok h
      | false =>
          rw [hserves] at h
          rw [if_neg Bool.false_ne_true]
          refine ih (by omega) h ?_
          by_contra hpast
          rw [List.drop_eq_nil_of_le (by simpa using hpast)] at h
          cases h

/-- Without such an entry it depends on the limit whether it stays in the table. -/
theorem searchQuickpath_of_none (hi : i ≤ n)
    (h : (table.toList.drop i).find? (·.serves leaf subleaf) = none) :
    searchQuickpath table leaf subleaf remaining i =
      if i + remaining ≤ n then .ok none else .error .outOfBounds := by
  induction remaining generalizing i with
  | zero => exact (if_pos hi).symm
  | succ remaining ih =>
      unfold searchQuickpath
      by_cases hlt : i < n
      · rw [dif_pos hlt]
        rw [drop_eq_cons hlt, List.find?_cons] at h
        cases hserves : table[i].serves leaf subleaf with
        | true =>
            rw [hserves] at h
            cases h
        | false =>
            rw [hserves] at h
            rw [if_neg Bool.false_ne_true, ih hlt h, Nat.succ_add_eq_add_succ]
      · rw [dif_neg hlt, if_neg (by omega)]
        rfl

theorem quickpath_of_some (h : tables.vcpu.toList.find? (·.serves leaf subleaf) = some qp) :
    tables.quickpath leaf subleaf = .ok (some qp) := by
  have hsearch : searchQuickpath tables.vcpu leaf subleaf cpuidQuickpathLimitPerVcpu 0 =
      .ok (some qp) := searchQuickpath_of_some (by decide) h
  unfold CpuidTables.quickpath
  rw [hsearch]
  rfl

theorem quickpath_of_none (h : tables.vcpu.toList.find? (·.serves leaf subleaf) = none) :
    tables.quickpath leaf subleaf = .error .outOfBounds := by
  have hsearch : searchQuickpath tables.vcpu leaf subleaf cpuidQuickpathLimitPerVcpu 0 =
      .error .outOfBounds := searchQuickpath_of_none (Nat.zero_le 8) h
  unfold CpuidTables.quickpath
  rw [hsearch]
  rfl

/-- Whatever the tables are, only a leaf that an active entry of the vCPU is the first to serve is
answered as it should be. -/
theorem quickpath_behaves_iff : tables.Behaves leaf subleaf ↔
    ∃ qp, tables.vcpu.toList.find? (·.serves leaf subleaf) = some qp ∧ qp.active = true := by
  cases hfind : tables.vcpu.toList.find? (·.serves leaf subleaf) with
  | none =>
      unfold CpuidTables.Behaves
      rw [quickpath_of_none hfind]
      constructor
      · exact fun h => (nomatch h)
      · rintro ⟨qp, h, -⟩
        cases h
  | some qp =>
      unfold CpuidTables.Behaves
      rw [quickpath_of_some hfind]
      constructor
      · intro h
        have hactive := List.find?_some (Except.ok.inj h).symm
        exact ⟨qp, rfl, (Bool.and_eq_true_iff.mp hactive).1⟩
      · rintro ⟨qp', hsame, hactive⟩
        obtain rfl := Option.some.inj hsame
        refine congrArg Except.ok (Eq.symm ?_)
        obtain ⟨hserves, before, after, heq, hbefore⟩ := List.find?_eq_some_iff_append.mp hfind
        refine List.find?_eq_some_iff_append.mpr ⟨?_, before, after ++ tables.vm.toList, ?_, ?_⟩
        · rw [hactive, hserves]
          rfl
        · rw [heq, List.append_assoc, List.cons_append]
        · intro other hother
          have hnot := hbefore other hother
          rw [Bool.not_eq_true'] at hnot ⊢
          rw [hnot, Bool.and_false]

/-- The handler of exits is given the same tables and answers with the same entry. -/
theorem cpuidQuickpath_of_behaves (h : tables.Behaves leaf subleaf)
    (hqp : tables.activeQuickpath leaf subleaf = some qp) :
    cpuidQuickpath tables.entries leaf subleaf = qp.toQuickpath := by
  obtain ⟨first, hfind, -⟩ := quickpath_behaves_iff.mp h
  have hquickpath := quickpath_of_some hfind
  rw [h, hqp] at hquickpath
  obtain rfl := Option.some.inj (Except.ok.inj hquickpath)
  have hserves : (fun entry : CpuidQuickpath => entry.leaf == leaf &&
      (!entry.hasSubleaf || entry.subleaf == subleaf)) ∘ CpuidQuickpathInfo.toQuickpath =
        fun entry => entry.serves leaf subleaf := rfl
  unfold cpuidQuickpath CpuidTables.entries
  rw [List.find?_map, hserves, List.find?_append, hfind]
  rfl

end Search

section Initialized

variable {n : Nat} {table : Vector CpuidQuickpathInfo n} {assignments : List (Nat × CpuidQuickpathInfo)}
  {cpuid : Nat → Nat → CpuidGeneralInfo} {vcpuId vcpuCount leaf subleaf : Nat}

/-- Assignments to slots that there are. -/
theorem configureQuickpaths_of_lt (table : Vector CpuidQuickpathInfo n) (h : ∀ a ∈ assignments, a.1 < n) :
    assignments.foldlM configureQuickpath table =
      .ok (assignments.foldl (fun table a => table.setIfInBounds a.1 a.2) table) := by
  induction assignments generalizing table with
  | nil => rfl
  | cons a assignments ih =>
      have hfirst : configureQuickpath table a = .ok (table.setIfInBounds a.1 a.2) := by
        unfold configureQuickpath
        rw [dif_pos (h a (List.mem_cons_self ..))]
        refine congrArg Except.ok (Vector.toList_inj.mp ?_)
        rw [Vector.toList_set, Vector.toList_setIfInBounds]
      rw [List.foldlM_cons, hfirst, List.foldl_cons]
      exact ih _ fun a ha => h a (List.mem_cons_of_mem _ ha)

/-- The tables after the initializers. -/
def initialTables (cpuid : Nat → Nat → CpuidGeneralInfo) (vcpuId vcpuCount : Nat) : CpuidTables where
  vcpu := (vcpuQuickpaths cpuid vcpuId vcpuCount).foldl (fun table a => table.setIfInBounds a.1 a.2)
    (.replicate 8 .empty)
  vm := (vmQuickpaths cpuid).foldl (fun table a => table.setIfInBounds a.1 a.2) (.replicate 64 .empty)

theorem initCpuidQuickpath_eq :
    initCpuidQuickpath cpuid vcpuId vcpuCount = .ok (initialTables cpuid vcpuId vcpuCount) := by
  have hvm : ∀ a ∈ vmQuickpaths cpuid, a.1 < 64 := by
    unfold vmQuickpaths
    simp
  have hvcpu : ∀ a ∈ vcpuQuickpaths cpuid vcpuId vcpuCount, a.1 < 8 := by
    unfold vcpuQuickpaths
    simp
  unfold initCpuidQuickpath
  rw [configureQuickpaths_of_lt _ hvm]
  change (_ >>= fun vcpu => _) = _
  rw [configureQuickpaths_of_lt _ hvcpu]
  rfl

theorem initialTables_vcpu : (initialTables cpuid vcpuId vcpuCount).vcpu.toList =
    (vcpuQuickpaths cpuid vcpuId vcpuCount).map Prod.snd ++ List.replicate 3 .empty := rfl

theorem initialTables_vm : (initialTables cpuid vcpuId vcpuCount).vm.toList =
    ((vmQuickpaths cpuid).eraseIdx 6).map Prod.snd ++ List.replicate 57 .empty := by
  unfold initialTables vmQuickpaths
  simp only [List.foldl, Vector.toList_setIfInBounds, Vector.toList_replicate]
  rfl

/-- The leaves that the table of the vCPU has an entry for. -/
def InVcpuTable (leaf subleaf : Nat) : Prop :=
  leaf = 0x1 ∨ leaf = 0xD ∧ subleaf = 0 ∨
    leaf = 0x80000002 ∨ leaf = 0x80000003 ∨ leaf = 0x80000004

theorem serves_iff {qp : CpuidQuickpathInfo} : qp.serves leaf subleaf = true ↔
    leaf = qp.leaf ∧ (qp.hasSubleaf = true → subleaf = qp.subleaf) := by
  unfold CpuidQuickpathInfo.serves
  rw [Bool.and_eq_true_iff, beq_iff_eq]
  refine and_congr eq_comm ?_
  cases qp.hasSubleaf with
  | false => exact ⟨fun _ h => (nomatch h), fun _ => rfl⟩
  | true =>
      rw [Bool.not_true, Bool.false_or, beq_iff_eq]
      exact ⟨fun h _ => h.symm, fun h => (h rfl).symm⟩

theorem initialTables_behaves_iff :
    (initialTables cpuid vcpuId vcpuCount).Behaves leaf subleaf ↔ InVcpuTable leaf subleaf := by
  rw [quickpath_behaves_iff, initialTables_vcpu]
  constructor
  · rintro ⟨qp, hfind, hactive⟩
    have hmem := List.mem_of_find?_eq_some hfind
    have hserves : qp.serves leaf subleaf = true := by simpa using List.find?_some hfind
    obtain ⟨hleaf, hsubleaf⟩ := serves_iff.mp hserves
    rcases List.mem_append.mp hmem with hconfigured | hempty
    · simp only [vcpuQuickpaths, List.map_cons, List.map_nil, List.mem_cons, List.not_mem_nil,
        or_false] at hconfigured
      rcases hconfigured with rfl | rfl | rfl | rfl | rfl
      · exact Or.inl hleaf
      · exact Or.inr (Or.inl ⟨hleaf, hsubleaf rfl⟩)
      · exact Or.inr (Or.inr (Or.inl hleaf))
      · exact Or.inr (Or.inr (Or.inr (Or.inl hleaf)))
      · exact Or.inr (Or.inr (Or.inr (Or.inr hleaf)))
    · obtain rfl := List.eq_of_mem_replicate hempty
      cases hactive
  · intro h
    rcases h with rfl | ⟨rfl, rfl⟩ | rfl | rfl | rfl <;> exact ⟨_, rfl, rfl⟩

/-- Only the entry for the first of the hypervisor leaves is overwritten. -/
theorem initialTables_keeps_iff :
    (initialTables cpuid vcpuId vcpuCount).Keeps leaf subleaf cpuid vcpuId vcpuCount ↔
      ¬(leaf = 0x40000000 ∧ subleaf = 0) := by
  unfold CpuidTables.Keeps
  rw [initialTables_vcpu, initialTables_vm]
  constructor
  · rintro ⟨-, hvm⟩ ⟨rfl, rfl⟩
    have hslot := hvm (6, ⟨0x40000000, 0, true, false, true, 0x40000001, 0x72696F4E, 0x6F736956,
      0x545A2072⟩) (by unfold vmQuickpaths; simp) rfl rfl
    exact absurd (Option.some.inj hslot) (by decide)
  · intro hkept
    refine ⟨fun a ha _ _ => ?_, fun a ha hleaf hsubleaf => ?_⟩
    · simp only [vcpuQuickpaths, List.mem_cons, List.not_mem_nil, or_false] at ha
      rcases ha with rfl | rfl | rfl | rfl | rfl <;> rfl
    · simp only [vmQuickpaths, List.mem_cons, List.not_mem_nil, or_false] at ha
      rcases ha with rfl | rfl | rfl | rfl | rfl | rfl | rfl | rfl
      on_goal 7 => exact absurd ⟨hleaf.symm, hsubleaf.symm⟩ hkept
      all_goals rfl

end Initialized

/-- The initializers stay in the tables. In the tables they leave, a leaf is answered as it should be, and
has its slot, exactly when the table of the vCPU has an entry for it; and all leaves but one of those that
are configured have their slots. -/
theorem cpuidQuickpath_behaves_iff (cpuid : Nat → Nat → CpuidGeneralInfo) (vcpuId vcpuCount : Nat) :
    ∃ tables, initCpuidQuickpath cpuid vcpuId vcpuCount = .ok tables ∧ ∀ leaf subleaf,
      (tables.Behaves leaf subleaf ∧ tables.Keeps leaf subleaf cpuid vcpuId vcpuCount ↔
        InVcpuTable leaf subleaf) ∧
      (tables.Keeps leaf subleaf cpuid vcpuId vcpuCount ↔ ¬(leaf = 0x40000000 ∧ subleaf = 0)) := by
  refine ⟨_, initCpuidQuickpath_eq, fun leaf subleaf => ⟨?_, initialTables_keeps_iff⟩⟩
  rw [initialTables_behaves_iff, initialTables_keeps_iff]
  refine ⟨And.left, fun h => ⟨h, fun hleaf => ?_⟩⟩
  unfold InVcpuTable at h
  omega

/-- Leaf zero has an entry in the table of the VM, but is answered with an empty slot of the vCPU. -/
theorem not_forall_quickpath_behaves :
    ¬∀ (cpuid : Nat → Nat → CpuidGeneralInfo) (vcpuId vcpuCount : Nat) (tables : CpuidTables),
      initCpuidQuickpath cpuid vcpuId vcpuCount = .ok tables →
        ∀ leaf subleaf, tables.Behaves leaf subleaf := by
  intro h
  have hbehaves := h (fun _ _ => ⟨0, 0, 0, 0⟩) 0 1 _ initCpuidQuickpath_eq 0 0
  exact absurd (initialTables_behaves_iff.mp hbehaves) (by unfold InVcpuTable; decide)

end NoirVisor
