import NoirVisor.Custom.Walkers

/-!
# Translation of guest virtual addresses

The walk of a guest's tables through nested paging (`xpf_core/noirhvm.c`). Each routine has the host
address of a table written through the pointer that it then reads the table through, and that pointer
is null.
-/

namespace NoirVisor

/-- The nested tables of a guest, and what is in host memory at the addresses of its own tables. -/
structure GuestMemory where
  npt : Radix.Frames NptEntry
  npBase : Nat
  entry64 : (hpa : Nat) → NptEntry
  entry32 : (hpa : Nat) → Nat

/-- The registers of a virtual CPU that paging depends on. -/
structure GuestPaging where
  cr0 : Nat
  cr3 : Nat
  cr4 : Nat
  efer : Nat

/-- The bits of an access for `noir_translate_custom_gpa`. -/
def GpaAccess.ofBits (access : Nat) : GpaAccess where
  read := access.testBit 0
  write := access.testBit 1
  execute := access.testBit 2

/-- `noir_cvm_map_gpa_read_bit`, which is the number of the bit. -/
def noirCvmMapGpaReadBit : Nat := 0x0

/-- The error code, when one is written, and the guest-physical address, when there is one. -/
abbrev GuestAnswer := Option NoirPageFaultErrorCode × Option Nat

namespace GuestMemory

variable (memory : GuestMemory)

/-- On SVM this is `nvc_svm_translate_custom_gpa`, from level 4. The address goes to `*hpa`. -/
def noirTranslateCustomGpa (gpa access : Nat) (hpa : Pointer Nat) : Outcome Bool :=
  match nvcSvmTranslateCustomGpa memory.npt gpa (.ofBits access) 3 memory.npBase with
  | .error _ => .ok false
  | .ok _ => do
    let _ ← hpa.deref
    .ok true

/-- The bits of a legacy entry. The walk has no execution rights to check. -/
def check32 (access : VaAccess) (entry userBit : Nat) : NoirPageFaultErrorCode where
  present := decide (entry.testBit 0 < access.read)
  write := decide (entry.testBit 1 < access.write)
  user := decide (entry.testBit userBit < access.user)
  execute := false

def nvcTranslateGuestVirtualAddressRoutine32 (gva : Nat) (access : VaAccess) (pt : Nat) :
    Outcome GuestAnswer := do
  let table : Pointer Nat := .null
  if ← memory.noirTranslateCustomGpa pt noirCvmMapGpaReadBit table then
    let entries ← table.deref
    let pde := memory.entry32 (entries + 4 * (gva % 2 ^ 32 / 2 ^ 22))
    -- Check Permission at PDE level.
    let err := check32 access pde 2
    if err.value then .ok (some err, none)
    else if pde.testBit 7 then
      let base := pde / 2 ^ 22 % 2 ^ 10 * 2 ^ 22 + pde / 2 ^ 13 % 2 ^ 8 * 2 ^ 32
      .ok (some err, some (base + gva % 2 ^ 22))
    else
      let ptBase := page4kbMult (pde / 2 ^ 12 % 2 ^ 20)
      if ← memory.noirTranslateCustomGpa ptBase noirCvmMapGpaReadBit table then
        let entries ← table.deref
        let pte := memory.entry32 (entries + 4 * (gva / 2 ^ 12 % 2 ^ 10))
        -- Check Permission at PTE level. The bit compared for `user` is that for writing.
        let err := check32 access pte 1
        if err.value then .ok (some err, none)
        -- The base of a page entry is declared from bit 10 on.
        else .ok (some err, some (page4kbMult (pte / 2 ^ 10 % 2 ^ 20) + page4kbOffset gva))
      else .ok (some err, none)
  else .ok (none, none)

/-- Levels count from zero here. -/
def nvcTranslateGuestVirtualAddressRoutine64 (gva : Nat) (access : VaAccess) :
    (level pt : Nat) → Outcome GuestAnswer
  | 0, pt => do
    let table : Pointer Nat := .null
    if ← memory.noirTranslateCustomGpa pt noirCvmMapGpaReadBit table then
      let entries ← table.deref
      let entry := memory.entry64 (entries + 8 * pageEntryIndex64 (gva / 2 ^ 12))
      let err := access.check entry
      if err.value then .ok (some err, none)
      else .ok (some err, some (page4kbMult entry.base + page4kbOffset gva))
    else .ok (none, none)
  | level + 1, pt => do
    let table : Pointer Nat := .null
    let shiftDiff := 9 * (level + 1)
    if ← memory.noirTranslateCustomGpa pt noirCvmMapGpaReadBit table then
      let entries ← table.deref
      let entry := memory.entry64 (entries + 8 * pageEntryIndex64 (gva / 2 ^ (12 + shiftDiff)))
      let err := access.check entry
      if err.value then .ok (some err, none)
      else if entry.psize then
        let base := entry.base / 2 ^ shiftDiff * 2 ^ (12 + shiftDiff)
        .ok (some err, some (base + (gva &&& offsetMask (level + 1))))
      else nvcTranslateGuestVirtualAddressRoutine64 gva access level (page4kbMult entry.base)
    else .ok (none, none)

def nvcTranslateGuestVirtualAddress (vcpu : GuestPaging) (gva : Nat) (access : VaAccess) :
    Outcome GuestAnswer :=
  if vcpu.cr0.testBit 31 then
    if vcpu.efer.testBit 10 then
      -- Check number of levels.
      let levels := (vcpu.cr4.testBit 12).toNat + 4
      memory.nvcTranslateGuestVirtualAddressRoutine64 gva access (levels - 1)
        (page4kbMult (page4kbCount vcpu.cr3))
    else if vcpu.cr4.testBit 5 then
      memory.nvcTranslateGuestVirtualAddressRoutine64 gva access 2 (vcpu.cr3 / 2 ^ 5 * 2 ^ 5)
    else
      memory.nvcTranslateGuestVirtualAddressRoutine32 gva access (page4kbMult (page4kbCount vcpu.cr3))
  else .ok (some ⟨false, false, false, false⟩, some gva)

/-! ### The walk of the processor -/

/-- Where nested paging has an address that the processor reads. -/
def nested (gpa : Nat) : Option Nat :=
  (tableView memory.npt 3 (page4kbCount memory.npBase) gpa).map NptView.hpa

/-- The walk of tables with entries of 64 bits. In the PAE mode the entries of the upper table have no
rights, and map no pages. -/
def walk64 (pae : Bool) (gva : Nat) (access : VaAccess) : (level pt : Nat) → Option Nat
  | 0, pt =>
    (memory.nested (pt + 8 * Radix.index 0 gva)).bind fun hpa =>
      let entry := memory.entry64 hpa
      if access.grantedBy entry then some (page4kbMult entry.base + page4kbOffset gva) else none
  | level + 1, pt =>
    (memory.nested (pt + 8 * Radix.index (level + 1) gva)).bind fun hpa =>
      let entry := memory.entry64 hpa
      if pae = true ∧ level + 1 = 2 then
        if entry.present ∧ ¬entry.psize then
          walk64 pae gva access level (page4kbMult entry.base)
        else none
      else if access.grantedBy entry then
        if entry.psize then
          if level + 1 < 3 then some (leafTarget ⟨[], entry, level + 1⟩ gva) else none
        else walk64 pae gva access level (page4kbMult entry.base)
      else none

def granted32 (access : VaAccess) (entry : Nat) : Bool :=
  entry.testBit 0 && (!access.write || entry.testBit 1) && (!access.user || entry.testBit 2)

/-- The legacy walk, with pages of 4 MiB when `pse` is set. -/
def walk32 (pse : Bool) (gva : Nat) (access : VaAccess) (pt : Nat) : Option Nat :=
  (memory.nested (pt + 4 * (gva / 2 ^ 22 % 2 ^ 10))).bind fun hpa =>
    let pde := memory.entry32 hpa
    if granted32 access pde then
      if pse && pde.testBit 7 then
        -- Bit 21 of the entry of a large page is reserved.
        if pde.testBit 21 then none
        else some (pde / 2 ^ 22 % 2 ^ 10 * 2 ^ 22 + pde / 2 ^ 13 % 2 ^ 8 * 2 ^ 32 + gva % 2 ^ 22)
      else
        (memory.nested (page4kbMult (pde / 2 ^ 12 % 2 ^ 20) + 4 * (gva / 2 ^ 12 % 2 ^ 10))).bind
          fun hpa =>
            let pte := memory.entry32 hpa
            if granted32 access pte then
              some (page4kbMult (pte / 2 ^ 12 % 2 ^ 20) + page4kbOffset gva)
            else none
    else none

/-- The guest-physical address that the processor comes to, if it permits the access. -/
def walk (vcpu : GuestPaging) (gva : Nat) (access : VaAccess) : Option Nat :=
  if vcpu.cr0.testBit 31 then
    if vcpu.efer.testBit 10 then
      memory.walk64 false gva access ((vcpu.cr4.testBit 12).toNat + 3)
        (page4kbMult (page4kbCount vcpu.cr3))
    else if vcpu.cr4.testBit 5 then memory.walk64 true gva access 2 (vcpu.cr3 / 2 ^ 5 * 2 ^ 5)
    else
      memory.walk32 (vcpu.cr4.testBit 4) gva access (page4kbMult (page4kbCount vcpu.cr3))
  else some gva

/-- The translation returns, with what the processor comes to. -/
def TranslationRight (vcpu : GuestPaging) (gva : Nat) (access : VaAccess) : Prop :=
  ∃ err, memory.nvcTranslateGuestVirtualAddress vcpu gva access =
    .ok (err, memory.walk vcpu gva access)

end GuestMemory

/-- The guest-physical address of the first table. -/
def GuestPaging.root (vcpu : GuestPaging) : Nat :=
  if vcpu.efer.testBit 10 = false ∧ vcpu.cr4.testBit 5 = true then vcpu.cr3 / 2 ^ 5 * 2 ^ 5
  else page4kbMult (page4kbCount vcpu.cr3)

namespace GuestMemory

variable {memory : GuestMemory} {pt gva level : Nat} {access : VaAccess} {vcpu : GuestPaging}

/-- The walker of nested tables has no host address for a table. -/
def Unreadable (memory : GuestMemory) (pt : Nat) : Prop :=
  (nvcSvmTranslateCustomGpa memory.npt pt (.ofBits noirCvmMapGpaReadBit) 3
    memory.npBase).toOption = none

instance (memory : GuestMemory) (pt : Nat) : Decidable (memory.Unreadable pt) :=
  inferInstanceAs (Decidable (_ = none))

theorem noirTranslateCustomGpa_of_unreadable (h : memory.Unreadable pt) (hpa : Pointer Nat) :
    memory.noirTranslateCustomGpa pt noirCvmMapGpaReadBit hpa = .ok false := by
  unfold noirTranslateCustomGpa
  cases hnested : nvcSvmTranslateCustomGpa memory.npt pt (.ofBits noirCvmMapGpaReadBit) 3
      memory.npBase with
  | error err => rfl
  | ok hpa =>
    rw [Unreadable, hnested] at h
    cases h

theorem noirTranslateCustomGpa_of_readable (h : ¬memory.Unreadable pt) :
    memory.noirTranslateCustomGpa pt noirCvmMapGpaReadBit .null = .error .nullDereference := by
  unfold noirTranslateCustomGpa
  cases hnested : nvcSvmTranslateCustomGpa memory.npt pt (.ofBits noirCvmMapGpaReadBit) 3
      memory.npBase with
  | error err =>
    refine absurd ?_ h
    rw [Unreadable, hnested]
    rfl
  | ok hpa => rfl

/-- At whatever level it starts, the walk fails or faults at its first table. -/
theorem routine64_of_unreadable (h : memory.Unreadable pt) :
    memory.nvcTranslateGuestVirtualAddressRoutine64 gva access level pt = .ok (none, none) := by
  cases level with
  | zero =>
    rw [nvcTranslateGuestVirtualAddressRoutine64, noirTranslateCustomGpa_of_unreadable h]
    rfl
  | succ level =>
    rw [nvcTranslateGuestVirtualAddressRoutine64, noirTranslateCustomGpa_of_unreadable h]
    rfl

theorem routine64_of_readable (h : ¬memory.Unreadable pt) :
    memory.nvcTranslateGuestVirtualAddressRoutine64 gva access level pt =
      .error .nullDereference := by
  cases level with
  | zero =>
    rw [nvcTranslateGuestVirtualAddressRoutine64, noirTranslateCustomGpa_of_readable h]
    rfl
  | succ level =>
    rw [nvcTranslateGuestVirtualAddressRoutine64, noirTranslateCustomGpa_of_readable h]
    rfl

theorem routine32_of_unreadable (h : memory.Unreadable pt) :
    memory.nvcTranslateGuestVirtualAddressRoutine32 gva access pt = .ok (none, none) := by
  rw [nvcTranslateGuestVirtualAddressRoutine32, noirTranslateCustomGpa_of_unreadable h]
  rfl

theorem routine32_of_readable (h : ¬memory.Unreadable pt) :
    memory.nvcTranslateGuestVirtualAddressRoutine32 gva access pt = .error .nullDereference := by
  rw [nvcTranslateGuestVirtualAddressRoutine32, noirTranslateCustomGpa_of_readable h]
  rfl

/-- The translation with paging enabled, by the mode. -/
theorem translate_of_paging (hpaging : vcpu.cr0.testBit 31 = true) :
    (memory.Unreadable vcpu.root →
      memory.nvcTranslateGuestVirtualAddress vcpu gva access = .ok (none, none)) ∧
    (¬memory.Unreadable vcpu.root →
      memory.nvcTranslateGuestVirtualAddress vcpu gva access = .error .nullDereference) := by
  unfold nvcTranslateGuestVirtualAddress GuestPaging.root
  rw [if_pos hpaging]
  cases hlong : vcpu.efer.testBit 10 with
  | true =>
    rw [if_pos rfl, if_neg (fun h => nomatch h.1)]
    exact ⟨routine64_of_unreadable, routine64_of_readable⟩
  | false =>
    rw [if_neg Bool.false_ne_true]
    cases hpae : vcpu.cr4.testBit 5 with
    | true =>
      rw [if_pos rfl, if_pos ⟨rfl, rfl⟩]
      exact ⟨routine64_of_unreadable, routine64_of_readable⟩
    | false =>
      rw [if_neg Bool.false_ne_true, if_neg (fun h => nomatch h.2)]
      exact ⟨routine32_of_unreadable, routine32_of_readable⟩

/-- Nothing but zeros in the tables of a guest and those of its nested paging. -/
def zeros : GuestMemory := ⟨fun _ _ => {}, 0, fun _ => {}, fun _ => 0⟩

end GuestMemory

end NoirVisor
