import NoirVisor.VirtualMemory.Chunks
import NoirVisor.VirtualMemory.GuestWalk

/-!
# Copies of guest virtual memory

The copy between the hypervisor and a guest, one translation for each chunk (`xpf_core/noirhvm.c`). A
chunk that goes past the end of a page is copied as if the next page followed in host memory.
-/

namespace NoirVisor

open Transfer

/-- `nvc_translate_guest_virtual_address` and `noir_translate_custom_gpa`, which take an access for
reading and, when `write` is set, for writing. Both translate pages; the first one may fault. -/
structure GuestTranslators where
  gpaPage : (write : Bool) → (page : Nat) → Outcome (Option Nat)
  hpaPage : (write : Bool) → (page : Nat) → Option Nat

namespace GuestTranslators

variable (translators : GuestTranslators) (write : Bool)

def toGpa (gva : Nat) : Outcome (Option Nat) := do
  let page ← translators.gpaPage write (page4kbCount gva)
  return page.map fun page => page4kbMult page + page4kbOffset gva

def toHpa (gpa : Nat) : Option Nat :=
  (translators.hpaPage write (page4kbCount gpa)).map fun page => page4kbMult page + page4kbOffset gpa

def nvcCopyGuestVirtualMemoryInPage (gva length : Nat) : CopyResult := do
  -- Translate GVA to GPA.
  match ← translators.toGpa write gva with
  | none => .ok (0, [])
  | some gpa =>
    -- Translate GPA to HPA.
    match translators.toHpa write gpa with
    | none => .ok (0, [])
    | some hpa => .ok (length, run hpa 0 length)

/-- A chunk, with the buffer moved on by what has been copied. -/
def guestChunk (curVa copiedSize copySize : Nat) : CopyResult := do
  let (length, moves) ← translators.nvcCopyGuestVirtualMemoryInPage write curVa copySize
  .ok (length, moves.map (Move.shift copiedSize))

def nvcCopyGuestVirtualMemory (fuel gva length : Nat) : CopyResult :=
  copyLoop (translators.guestChunk write) gva ((gva + length) % 2 ^ 64) fuel gva 0 0

/-- Both translations of an address. -/
def translate (gva : Nat) : Outcome (Option Nat) := do
  let gpa ← translators.toGpa write gva
  return gpa.bind (translators.toHpa write)

/-- The byte at an offset from `gva` is at this host address. -/
def ByteAt (gva offset address : Nat) : Prop :=
  translators.translate write (gva + offset) = .ok (some address)

/-- The copy returns, and moves the bytes before the first one that does not translate, each at its
own translation. -/
def CopiesTranslated (gva length : Nat) : Prop :=
  ∃ enough, ∀ fuel ≥ enough, ∃ n moves,
    translators.nvcCopyGuestVirtualMemory write fuel gva length = .ok (n, moves) ∧
    Exact (translators.ByteAt write gva) 0 length n moves ∧
    ∀ (bytes : Bytes (BitVec 8)) (place : Nat), n ≤ place →
      (perform write moves bytes).buffer place = bytes.buffer place

/-- A chunk does not translate where it starts, or its bytes follow one another in host memory. -/
def ChunkServes (gva c size : Nat) : Prop :=
  translators.translate write (gva + c) = .ok none ∨
    ∃ hpa, ∀ k < size, translators.ByteAt write gva (c + k) (hpa + k)

/-- Each chunk that is come to serves. A copy up to the end of the address space does nothing. -/
def GuestCopyServes (gva length : Nat) : Prop :=
  if gva + length = 2 ^ 64 then length = 0 ∨ ∀ hpa, ¬translators.ByteAt write gva 0 hpa
  else
    ∀ j, j * chunkSize gva < length →
      (∀ k < j * chunkSize gva, ∃ hpa, translators.ByteAt write gva k hpa) →
        translators.ChunkServes write gva (j * chunkSize gva)
          (min (chunkSize gva) (length - j * chunkSize gva))

section

variable {translators : GuestTranslators} {write : Bool} {gva length c size : Nat}

theorem map_shift_run (address c size : Nat) :
    (run address 0 size).map (Move.shift c) = run address c size := by
  unfold run
  rw [List.map_map]
  simp [Function.comp_def, Move.shift]

theorem guestChunk_eq : translators.guestChunk write gva c size =
    (translators.translate write gva).bind fun hpa =>
      match hpa with
      | none => .ok (0, [])
      | some hpa => .ok (size, run hpa c size) := by
  unfold guestChunk nvcCopyGuestVirtualMemoryInPage translate
  cases translators.toGpa write gva with
  | error fault => rfl
  | ok gpa =>
    cases gpa with
    | none => rfl
    | some gpa =>
      change (do
        let (length, moves) ← (match translators.toHpa write gpa with
          | none => (.ok (0, []) : CopyResult)
          | some hpa => .ok (size, run hpa 0 size))
        (.ok (length, moves.map (Move.shift c)) : CopyResult)) =
        (match translators.toHpa write gpa with
          | none => .ok (0, [])
          | some hpa => .ok (size, run hpa c size))
      cases translators.toHpa write gpa with
      | none => rfl
      | some hpa =>
        change Except.ok (size, (run hpa 0 size).map (Move.shift c)) = _
        rw [map_shift_run]

theorem guestChunk_answers : Answers (translators.guestChunk write) gva length := by
  intro c size n moves _ _ _ hinner
  rw [guestChunk_eq] at hinner
  cases htranslate : translators.translate write (gva + c) with
  | error fault => rw [htranslate] at hinner; cases hinner
  | ok hpa =>
    rw [htranslate] at hinner
    cases hpa with
    | none =>
      cases hinner
      exact ⟨Nat.zero_le _, rfl⟩
    | some hpa =>
      cases hinner
      exact ⟨Nat.le_refl _, length_run _ _ _⟩

theorem chunkExact_guestChunk_iff (hsize : 0 < size) :
    ChunkExact (translators.guestChunk write) (translators.ByteAt write gva) gva c size ↔
      translators.ChunkServes write gva c size := by
  unfold ChunkServes
  cases htranslate : translators.translate write (gva + c) with
  | error fault =>
    have hinner : translators.guestChunk write (gva + c) c size = .error fault := by
      rw [guestChunk_eq, htranslate]
      rfl
    refine iff_of_false ?_ ?_
    · rintro ⟨n, moves, hok, -⟩
      rw [hinner] at hok
      cases hok
    · rintro (hnone | ⟨hpa, hbytes⟩)
      · cases hnone
      · have hfirst := hbytes 0 hsize
        rw [ByteAt, Nat.add_zero, htranslate] at hfirst
        cases hfirst
  | ok hpa =>
    cases hpa with
    | none =>
      have hinner : translators.guestChunk write (gva + c) c size = .ok (0, []) := by
        rw [guestChunk_eq, htranslate]
        rfl
      refine iff_of_true ((chunkExact_iff hinner).mpr ((Exact.nil_iff hsize).mpr ?_)) (Or.inl rfl)
      intro address haddress
      rw [ByteAt, htranslate] at haddress
      cases haddress
    | some hpa =>
      have hinner : translators.guestChunk write (gva + c) c size = .ok (size, run hpa c size) := by
        rw [guestChunk_eq, htranslate]
        rfl
      rw [chunkExact_iff hinner, Exact.run_iff]
      constructor
      · exact fun h => Or.inr ⟨hpa, h⟩
      · rintro (hnone | ⟨hpa', hbytes⟩)
        · cases hnone
        · have hfirst := hbytes 0 hsize
          rw [ByteAt, Nat.add_zero, htranslate] at hfirst
          obtain rfl : hpa = hpa' := Option.some.inj (Except.ok.inj hfirst)
          exact hbytes

theorem chunksExact_guestChunk_iff :
    ChunksExact (translators.guestChunk write) (translators.ByteAt write gva) gva length 0 ↔
      ∀ j, j * chunkSize gva < length →
        (∀ k < j * chunkSize gva, ∃ hpa, translators.ByteAt write gva k hpa) →
          translators.ChunkServes write gva (j * chunkSize gva)
            (min (chunkSize gva) (length - j * chunkSize gva)) := by
  unfold ChunksExact
  simp only [Nat.zero_add]
  refine forall_congr' fun j => forall_congr' fun hj => forall_congr' fun _ => ?_
  have hpos := chunkSize_pos gva
  exact chunkExact_guestChunk_iff (by omega)

/-- A copy that does not come to the end of the address space. -/
theorem copy_exact_iff {fuel : Nat} (hend : gva + length < 2 ^ 64) (hfuel : length < fuel) :
    (∃ n moves, translators.nvcCopyGuestVirtualMemory write fuel gva length = .ok (n, moves) ∧
      Exact (translators.ByteAt write gva) 0 length n moves) ↔
      ∀ j, j * chunkSize gva < length →
        (∀ k < j * chunkSize gva, ∃ hpa, translators.ByteAt write gva k hpa) →
          translators.ChunkServes write gva (j * chunkSize gva)
            (min (chunkSize gva) (length - j * chunkSize gva)) := by
  rw [← chunksExact_guestChunk_iff, ← copyLoop_exact_iff guestChunk_answers (Nat.zero_le length)
    hfuel, nvcCopyGuestVirtualMemory, Nat.mod_eq_of_lt hend]
  simp only [Nat.zero_add]
  rfl

/-- A copy up to the end of the address space. -/
theorem copy_of_end {fuel : Nat} (hend : gva + length = 2 ^ 64) :
    translators.nvcCopyGuestVirtualMemory write (fuel + 1) gva length = .ok (0, []) := by
  unfold nvcCopyGuestVirtualMemory
  rw [hend, Nat.mod_self]
  rfl

theorem page4kbCount_add {va k : Nat} (h : page4kbOffset va + k < 0x1000) :
    page4kbCount (va + k) = page4kbCount va := by
  unfold page4kbOffset at h
  unfold page4kbCount
  omega

theorem page4kbOffset_add {va k : Nat} (h : page4kbOffset va + k < 0x1000) :
    page4kbOffset (va + k) = page4kbOffset va + k := by
  unfold page4kbOffset at *
  omega

theorem toHpa_add {gpa k : Nat} (h : page4kbOffset gpa + k < 0x1000) :
    translators.toHpa write (gpa + k) = (translators.toHpa write gpa).map (· + k) := by
  unfold toHpa
  rw [page4kbCount_add h, page4kbOffset_add h, Option.map_map]
  refine congrArg (Option.map · _) (funext fun page => ?_)
  exact (Nat.add_assoc _ _ _).symm

theorem toGpa_add {gva k : Nat} (h : page4kbOffset gva + k < 0x1000) :
    translators.toGpa write (gva + k) =
      (translators.toGpa write gva).map (Option.map (· + k)) := by
  unfold toGpa
  rw [page4kbCount_add h, page4kbOffset_add h]
  cases translators.gpaPage write (page4kbCount gva) with
  | error fault => rfl
  | ok page =>
    cases page with
    | none => rfl
    | some page => exact congrArg (Except.ok ∘ some) (Nat.add_assoc _ _ _).symm

theorem offset_of_toGpa {gva gpa : Nat} (h : translators.toGpa write gva = .ok (some gpa)) :
    page4kbOffset gpa = page4kbOffset gva := by
  unfold toGpa at h
  cases hpage : translators.gpaPage write (page4kbCount gva) with
  | error fault => rw [hpage] at h; cases h
  | ok page =>
    rw [hpage] at h
    cases page with
    | none => cases h
    | some page =>
      obtain rfl := Option.some.inj (Except.ok.inj h)
      change (page4kbMult page + page4kbOffset gva) % 0x1000 = gva % 0x1000
      unfold page4kbOffset page4kbMult
      omega

/-- Addresses of one page translate alike. -/
theorem translate_add {gva k : Nat} (h : page4kbOffset gva + k < 0x1000) {hpa : Option Nat}
    (htranslate : translators.translate write gva = .ok hpa) :
    translators.translate write (gva + k) = .ok (hpa.map (· + k)) := by
  unfold translate at *
  rw [toGpa_add h]
  cases hgpa : translators.toGpa write gva with
  | error fault => rw [hgpa] at htranslate; cases htranslate
  | ok gpa =>
    rw [hgpa] at htranslate
    cases htranslate
    cases gpa with
    | none => rfl
    | some gpa =>
      have hoffset := offset_of_toGpa hgpa
      exact congrArg Except.ok (toHpa_add (by omega))

/-- A chunk within a page serves. -/
theorem chunkServes_of_page (hpage : page4kbOffset (gva + c) + size ≤ 0x1000)
    (htranslate : ∃ hpa, translators.translate write (gva + c) = .ok hpa) :
    translators.ChunkServes write gva c size := by
  obtain ⟨hpa, htranslate⟩ := htranslate
  cases hpa with
  | none => exact Or.inl htranslate
  | some hpa =>
    refine Or.inr ⟨hpa, fun k hk => ?_⟩
    have hbyte := translate_add (k := k) (by omega) htranslate
    rwa [Nat.add_assoc] at hbyte

/-- A copy that ends in the page after the first one serves. -/
theorem guestCopyServes_of_le (hfaultless : ∀ va, ∃ hpa, translators.translate write va = .ok hpa)
    (hend : gva + length < 2 ^ 64) (hlength : length ≤ chunkSize gva + 0x1000) :
    translators.GuestCopyServes write gva length := by
  rw [GuestCopyServes, if_neg (by omega)]
  intro j hj _
  refine chunkServes_of_page ?_ (hfaultless _)
  unfold chunkSize page4kbOffset at *
  cases j with
  | zero =>
    rw [Nat.zero_mul]
    omega
  | succ j =>
    rw [Nat.succ_mul] at hj ⊢
    omega

end

/-- Guest-physical pages are the pages of the address space, and each has the host page of twice its
number. -/
def scattered : GuestTranslators where
  gpaPage _ page := .ok (some page)
  hpaPage _ page := some (2 * page)

end GuestTranslators

/-! ### The translators of a virtual CPU -/

namespace GuestMemory

/-- The translations as the copy calls them, page by page. -/
def translators (memory : GuestMemory) (vcpu : GuestPaging) : GuestTranslators where
  gpaPage write page :=
    (memory.nvcTranslateGuestVirtualAddress vcpu (page4kbMult page) ⟨true, write, false, false⟩).map
      fun answer => answer.2.map page4kbCount
  hpaPage write page :=
    (nvcSvmTranslateCustomGpa memory.npt (page4kbMult page) ⟨true, write, false⟩ 3
      memory.npBase).toOption.map page4kbCount

variable {memory : GuestMemory} {vcpu : GuestPaging} {write : Bool}

theorem translate_of_no_paging (hpaging : vcpu.cr0.testBit 31 = false) (gva : Nat)
    (access : VaAccess) : memory.nvcTranslateGuestVirtualAddress vcpu gva access =
      .ok (some ⟨false, false, false, false⟩, some gva) := by
  rw [nvcTranslateGuestVirtualAddress, hpaging]
  rfl

theorem mult_count_add_offset (va : Nat) :
    page4kbMult (page4kbCount va) + page4kbOffset va = va := by
  unfold page4kbMult page4kbCount page4kbOffset
  omega

/-- The start of a page is mapped to the start of one. -/
theorem offset_leafTarget (trail : Radix.Walk NptEntry) {va : Nat} (h : page4kbOffset va = 0) :
    page4kbOffset (leafTarget trail va) = 0 := by
  have hsize : 2 ^ (12 + 9 * trail.level) = 0x1000 * 2 ^ (9 * trail.level) := Nat.pow_add _ _ _
  unfold page4kbOffset at *
  rw [leafTarget, hsize, Nat.mul_left_comm, Nat.mod_mul, h, Nat.zero_add, ← Nat.mul_add]
  exact Nat.mul_mod_right _ _

theorem toGpa_translators (gva : Nat) : (memory.translators vcpu).toGpa write gva =
    (memory.nvcTranslateGuestVirtualAddress vcpu gva ⟨true, write, false, false⟩).map Prod.snd := by
  unfold GuestTranslators.toGpa translators
  dsimp only
  cases hpaging : vcpu.cr0.testBit 31 with
  | false =>
    rw [translate_of_no_paging hpaging, translate_of_no_paging hpaging]
    change Except.ok (some (page4kbMult (page4kbCount (page4kbMult (page4kbCount gva))) +
      page4kbOffset gva)) = Except.ok (some gva)
    rw [page4kbCount_page4kbMult, mult_count_add_offset]
  | true =>
    by_cases hroot : memory.Unreadable vcpu.root
    · rw [(translate_of_paging hpaging).1 hroot, (translate_of_paging hpaging).1 hroot]
      rfl
    · rw [(translate_of_paging hpaging).2 hroot, (translate_of_paging hpaging).2 hroot]
      rfl

/-- The walker of nested tables translates pages. -/
theorem toHpa_translators (hroot : ∀ i < 512, (memory.npt (page4kbCount memory.npBase) i).psize = false)
    (gpa : Nat) : (memory.translators vcpu).toHpa write gpa =
      (nvcSvmTranslateCustomGpa memory.npt gpa ⟨true, write, false⟩ 3 memory.npBase).toOption := by
  have hpage : page4kbOffset (page4kbMult (page4kbCount gpa)) = 0 := by
    unfold page4kbOffset page4kbMult
    omega
  have hlt : page4kbOffset gpa < 0x1000 := Nat.mod_lt _ (by decide)
  have htrail : Radix.trail nptFormat memory.npt 3 (page4kbCount memory.npBase)
      (page4kbMult (page4kbCount gpa)) =
      Radix.trail nptFormat memory.npt 3 (page4kbCount memory.npBase) gpa :=
    Radix.trail_congr (page4kbCount_page4kbMult _)
  unfold GuestTranslators.toHpa translators
  dsimp only
  rw [translate_root_eq_trail hroot, translate_root_eq_trail hroot, htrail]
  generalize Radix.trail nptFormat memory.npt 3 (page4kbCount memory.npBase) gpa = trail
  split
  · have htarget := @leafTarget_add (page4kbMult (page4kbCount gpa)) (page4kbOffset gpa)
      trail (by rwa [hpage, Nat.zero_add])
    rw [mult_count_add_offset] at htarget
    have hstart := mult_count_add_offset (leafTarget trail (page4kbMult (page4kbCount gpa)))
    rw [offset_leafTarget trail hpage, Nat.add_zero] at hstart
    rw [Option.map_some, Option.map_some, htarget, hstart]
  · rfl

/-- The memory of a VM with its first page mapped to page 5, and no paging of its own. -/
def mappedFirst : GuestMemory :=
  let nptm := (SvmCustomNptManager.firstPage.run (fun _ => 0)
    (SvmCustomNptManager.newManager.withAllocator (.ofFrames [2, 3, 4]))).2
  { zeros with npt := nptm.memory, npBase := nptm.ncr3 }

end GuestMemory

end NoirVisor
