import NoirVisor.Custom.Lookup
import NoirVisor.Radix.Trail
import NoirVisor.VirtualMemory.Entries

/-!
# The walkers of a VM's tables

The hypervisor translates the addresses of a VM in two ways, by the lists of the manager and by the
tables themselves (`svm_core/svm_decode.c`). Neither asks of an entry what the processor asks.
-/

namespace NoirVisor

/-- What an access asks for, by the bits `noir_cvm_map_gpa_*`. -/
structure GpaAccess where
  read : Bool
  write : Bool
  execute : Bool
deriving DecidableEq

namespace NoirPageFaultErrorCode

/-- A bit of the entry against a bit of the access, as the source compares them. -/
def check (entry : NptEntry) (access : GpaAccess) : NoirPageFaultErrorCode where
  present := decide (entry.present < access.read)
  write := decide (entry.write < access.write)
  user := false
  execute := decide (entry.noExecute > access.execute)

end NoirPageFaultErrorCode

/-- Levels count from zero here. The callback starts at the table of level 3. -/
def nvcSvmTranslateCustomGpa (memory : Radix.Frames NptEntry) (gpa : Nat) (access : GpaAccess) :
    (level pt : Nat) → Except NoirPageFaultErrorCode Nat
  | 0, pt =>
    let entry := memory (page4kbCount pt) (pageEntryIndex64 (gpa / 2 ^ 12))
    let err := NoirPageFaultErrorCode.check entry access
    if err.value then .error err
    else .ok (page4kbMult entry.base + page4kbOffset gpa)
  | level + 1, pt =>
    let shiftDiff := 9 * (level + 1)
    let entry := memory (page4kbCount pt) (pageEntryIndex64 (gpa / 2 ^ (12 + shiftDiff)))
    let err := NoirPageFaultErrorCode.check entry access
    if err.value then .error err
    else if entry.psize then
      let base := entry.base / 2 ^ shiftDiff * 2 ^ (12 + shiftDiff)
      .ok (base + (gpa &&& offsetMask (level + 1)))
    else nvcSvmTranslateCustomGpa memory gpa access level (page4kbMult entry.base)

namespace SvmCustomNptManager

variable (nptm : SvmCustomNptManager) (gpa : Nat) (access : GpaAccess)

/-- Where the processor finds an address for an access. -/
def granted : Option Nat :=
  (nptm.view gpa).bind fun view =>
    if access.write ≤ view.write ∧ access.execute ≤ view.execute then some view.hpa else none

def trail : Radix.Walk NptEntry :=
  Radix.trail nptFormat nptm.memory 3 (page4kbCount nptm.ncr3) gpa

def listAt : Nat → List NptDescriptor
  | 0 => nptm.pte
  | 1 => nptm.pde
  | _ => nptm.pdpte

/-- Every table that is pointed to is listed, and nothing is mapped by an entry of the root. -/
structure TablesListed : Prop where
  root : ∀ i < 512, (nptm.memory (page4kbCount nptm.ncr3) i).psize = false
  listed : ∀ level < 3, ∀ r frame, nptm.reached (level + 1) r = some frame → ∀ i < 512,
    nptFormat.isTable (level + 1) (nptm.memory frame i) = true →
      ∃ d ∈ nptm.listAt level, d.phys = page4kbMult (nptm.memory frame i).base

/-- Both walkers find what the processor finds. -/
structure WalkersHonour : Prop where
  translate : (nvcSvmTranslateCustomGpa nptm.memory gpa access 3 nptm.ncr3).toOption =
    nptm.granted gpa access
  mapping : nvcSvmcGetPhysicalMapping nptm gpa access.read access.write access.execute =
    match nptm.granted gpa access with
    | some hpa => (true, hpa)
    | none => (false, 0)

/-- The bits of the trail do not tell the two rules apart. -/
def TrailIndifferent : Prop :=
  (access.write = true ∧ ∃ entry ∈ (nptm.trail gpa).entries, entry.write = false) ∨
  (∀ entry ∈ (nptm.trail gpa).entries, entry.present = true ∧ entry.noExecute = false) ∨
  ((∃ entry ∈ (nptm.trail gpa).entries, entry.present = false) ∧
    (access.read = true ∨
      (access.execute = false ∧ ∃ entry ∈ (nptm.trail gpa).entries, entry.noExecute = true)))

end SvmCustomNptManager

open SvmCustomNptManager

section

variable {memory : Radix.Frames NptEntry} {gpa level frame : Nat} {access : GpaAccess}

/-- What both walkers ask of an entry. -/
abbrev GpaAccess.met (access : GpaAccess) (entry : NptEntry) : Bool :=
  meets entry access.read access.write access.execute

theorem check_value (entry : NptEntry) (access : GpaAccess) :
    (NoirPageFaultErrorCode.check entry access).value = !access.met entry := by
  unfold NoirPageFaultErrorCode.value NoirPageFaultErrorCode.check GpaAccess.met meets
  simp only [decide_lt_eq, gt_iff_lt, Bool.not_and, Bool.or_false]

theorem leaf_eq_psize {entry : NptEntry} (h : level + 1 = 3 → entry.psize = false)
    (hlevel : level + 1 ≤ 3) : nptFormat.leaf (level + 1) entry = entry.psize := by
  by_cases htop : level + 1 = 3
  · simp [nptFormat, htop, h htop]
  · have hlt : level + 1 < 3 := by omega
    simp [nptFormat, hlt]

theorem translate_of_not_met (h : access.met (memory frame (Radix.index level gpa)) = false) :
    (nvcSvmTranslateCustomGpa memory gpa access level (page4kbMult frame)).toOption = none := by
  have herr := check_value (memory frame (Radix.index level gpa)) access
  rw [h] at herr
  cases level with
  | zero =>
    unfold nvcSvmTranslateCustomGpa
    rw [page4kbCount_page4kbMult]
    exact congrArg Except.toOption (if_pos herr)
  | succ level =>
    unfold nvcSvmTranslateCustomGpa
    rw [page4kbCount_page4kbMult]
    exact congrArg Except.toOption (if_pos herr)

theorem translate_zero_of_met (h : access.met (memory frame (Radix.index 0 gpa)) = true) :
    nvcSvmTranslateCustomGpa memory gpa access 0 (page4kbMult frame) =
      .ok (page4kbMult (memory frame (Radix.index 0 gpa)).base + page4kbOffset gpa) := by
  have herr := check_value (memory frame (Radix.index 0 gpa)) access
  rw [h] at herr
  unfold nvcSvmTranslateCustomGpa
  rw [page4kbCount_page4kbMult]
  exact if_neg (Bool.eq_false_iff.mp herr)

theorem translate_succ_of_met (h : access.met (memory frame (Radix.index (level + 1) gpa)) = true) :
    nvcSvmTranslateCustomGpa memory gpa access (level + 1) (page4kbMult frame) =
      let entry := memory frame (Radix.index (level + 1) gpa)
      if entry.psize then
        .ok (entry.base / 2 ^ (9 * (level + 1)) * 2 ^ (12 + 9 * (level + 1)) +
          (gpa &&& offsetMask (level + 1)))
      else nvcSvmTranslateCustomGpa memory gpa access level (page4kbMult entry.base) := by
  have herr := check_value (memory frame (Radix.index (level + 1) gpa)) access
  rw [h] at herr
  conv_lhs => unfold nvcSvmTranslateCustomGpa
  rw [page4kbCount_page4kbMult]
  exact if_neg (Bool.eq_false_iff.mp herr)

theorem all_met_of_not_met (h : access.met (memory frame (Radix.index level gpa)) = false) :
    (Radix.trail nptFormat memory level frame gpa).entries.all access.met = false := by
  have hfirst : ∃ rest, (Radix.trail nptFormat memory level frame gpa).entries =
      memory frame (Radix.index level gpa) :: rest := Radix.exists_entries_trail level frame gpa
  obtain ⟨rest, hentries⟩ := hfirst
  rw [hentries, List.all_cons, h, Bool.false_and]

/-- The recursive walker is told by the trail. -/
theorem translate_eq_trail (hlevel : level ≤ 3)
    (hroot : level = 3 → (memory frame (Radix.index 3 gpa)).psize = false) :
    (nvcSvmTranslateCustomGpa memory gpa access level (page4kbMult frame)).toOption =
      if (Radix.trail nptFormat memory level frame gpa).entries.all access.met then
        some (leafTarget (Radix.trail nptFormat memory level frame gpa) gpa)
      else none := by
  induction level generalizing frame with
  | zero =>
    cases hmet : access.met (memory frame (Radix.index 0 gpa)) with
    | false => rw [translate_of_not_met hmet, all_met_of_not_met hmet]; rfl
    | true =>
      rw [translate_zero_of_met hmet]
      simp [Radix.trail, Radix.Walk.entries, hmet, leafTarget, NptEntry.pageBase, Except.toOption,
        page4kbMult, page4kbOffset]
  | succ level ih =>
    have hleaf : nptFormat.leaf (level + 1) (memory frame (Radix.index (level + 1) gpa)) =
        (memory frame (Radix.index (level + 1) gpa)).psize :=
      leaf_eq_psize (fun h => by cases h; exact hroot rfl) hlevel
    cases hmet : access.met (memory frame (Radix.index (level + 1) gpa)) with
    | false => rw [translate_of_not_met hmet, all_met_of_not_met hmet]; rfl
    | true =>
      rw [translate_succ_of_met hmet]
      dsimp only
      cases hpsize : (memory frame (Radix.index (level + 1) gpa)).psize with
      | true =>
        have hlow : level + 1 < 3 := by
          by_contra htop
          have hlast : level + 1 = 3 := by omega
          cases hlast
          rw [hroot rfl] at hpsize
          cases hpsize
        rw [Radix.trail_of_leaf (hleaf.trans hpsize), if_pos rfl, and_offsetMask gpa hlow]
        simp [Radix.Walk.entries, hmet, leafTarget, NptEntry.pageBase, Except.toOption]
      | false =>
        have hbelow := @ih (memory frame (Radix.index (level + 1) gpa)).base (by omega)
          (fun h => absurd h (by omega))
        rw [Radix.trail_of_table (hleaf.trans hpsize), if_neg Bool.false_ne_true, hbelow,
          Radix.Walk.entries_under, List.all_cons, hmet, Bool.true_and]
        rfl

theorem translate_of_pt (pt : Nat) :
    nvcSvmTranslateCustomGpa memory gpa access level pt =
      nvcSvmTranslateCustomGpa memory gpa access level (page4kbMult (page4kbCount pt)) := by
  cases level with
  | zero =>
    unfold nvcSvmTranslateCustomGpa
    rw [page4kbCount_page4kbMult]
  | succ level =>
    unfold nvcSvmTranslateCustomGpa
    rw [page4kbCount_page4kbMult]

/-- The walk from a root whose entries map no page. -/
theorem translate_root_eq_trail {pt : Nat} (hroot : ∀ i < 512, (memory (page4kbCount pt) i).psize = false)
    (gpa : Nat) (access : GpaAccess) :
    (nvcSvmTranslateCustomGpa memory gpa access 3 pt).toOption =
      if (Radix.trail nptFormat memory 3 (page4kbCount pt) gpa).entries.all access.met then
        some (leafTarget (Radix.trail nptFormat memory 3 (page4kbCount pt) gpa) gpa)
      else none := by
  rw [translate_of_pt]
  exact translate_eq_trail (Nat.le_refl 3) fun _ => hroot _ (Radix.index_lt _ _)

end

section

variable {nptm : SvmCustomNptManager} {gpa level frame : Nat} {access : GpaAccess}

/-- The lookup by the lists, one level at a time. -/
def followLists (nptm : SvmCustomNptManager) (gpa : Nat) (access : GpaAccess) :
    (level frame : Nat) → Option Nat
  | 0, frame =>
    let entry := nptm.memory frame (Radix.index 0 gpa)
    if access.met entry then some (leafTarget ⟨[], entry, 0⟩ gpa) else none
  | level + 1, frame =>
    let entry := nptm.memory frame (Radix.index (level + 1) gpa)
    if access.met entry then
      if nptFormat.leaf (level + 1) entry then some (leafTarget ⟨[], entry, level + 1⟩ gpa)
      else (findPhys (nptm.listAt level) entry).bind fun d =>
        followLists nptm gpa access level d.frame
    else none

theorem followLists_of_not_met
    (h : access.met (nptm.memory frame (Radix.index level gpa)) = false) :
    followLists nptm gpa access level frame = none := by
  cases level with
  | zero => exact if_neg (Bool.eq_false_iff.mp h)
  | succ level => exact if_neg (Bool.eq_false_iff.mp h)

theorem followLists_zero (h : access.met (nptm.memory frame (Radix.index 0 gpa)) = true) :
    followLists nptm gpa access 0 frame =
      some (leafTarget ⟨[], nptm.memory frame (Radix.index 0 gpa), 0⟩ gpa) :=
  if_pos h

theorem followLists_of_leaf
    (h : access.met (nptm.memory frame (Radix.index (level + 1) gpa)) = true)
    (hleaf : nptFormat.leaf (level + 1) (nptm.memory frame (Radix.index (level + 1) gpa)) = true) :
    followLists nptm gpa access (level + 1) frame =
      some (leafTarget ⟨[], nptm.memory frame (Radix.index (level + 1) gpa), level + 1⟩ gpa) :=
  (if_pos h).trans (if_pos hleaf)

theorem followLists_of_table
    (h : access.met (nptm.memory frame (Radix.index (level + 1) gpa)) = true)
    (hleaf : nptFormat.leaf (level + 1) (nptm.memory frame (Radix.index (level + 1) gpa)) = false) :
    followLists nptm gpa access (level + 1) frame =
      (findPhys (nptm.listAt level) (nptm.memory frame (Radix.index (level + 1) gpa))).bind
        fun d => followLists nptm gpa access level d.frame :=
  (if_pos h).trans (if_neg (Bool.eq_false_iff.mp hleaf))

theorem page1gb_or (base gpa : Nat) :
    page1gbMult base ||| page1gbOffset gpa = base * 2 ^ 30 + gpa % 2 ^ 30 := by
  have hor := Nat.two_pow_add_eq_or_of_lt (i := 30) (b := gpa % 2 ^ 30) (Nat.mod_lt _ (by decide))
    base
  rw [Nat.mul_comm] at hor
  exact hor.symm

theorem page2mb_or (base gpa : Nat) :
    page2mbMult base ||| page2mbOffset gpa = base * 2 ^ 21 + gpa % 2 ^ 21 := by
  have hor := Nat.two_pow_add_eq_or_of_lt (i := 21) (b := gpa % 2 ^ 21) (Nat.mod_lt _ (by decide))
    base
  rw [Nat.mul_comm] at hor
  exact hor.symm

/-- What is found, as the source returns it. -/
def foundMapping (target : Option Nat) : Bool × Nat :=
  match target with
  | some hpa => (true, hpa)
  | none => (false, 0)

theorem leaf_of_lt (hlevel : level < 3) (entry : NptEntry) :
    nptFormat.leaf level entry = entry.psize := by
  simp [nptFormat, hlevel]

theorem getPhysicalMapping_eq_follow (nptm : SvmCustomNptManager) (gpa : Nat) (access : GpaAccess) :
    nvcSvmcGetPhysicalMapping nptm gpa access.read access.write access.execute =
      foundMapping (followLists nptm gpa access 3 (page4kbCount nptm.ncr3)) := by
  have hpage : ∀ entry : NptEntry,
      page4kbMult entry.base ||| page4kbOffset gpa = leafTarget ⟨[], entry, 0⟩ gpa := by
    intro entry
    rw [page4kbMult_or_page4kbOffset]
    simp [leafTarget, NptEntry.pageBase, page4kbMult, page4kbOffset]
  have hlarge : ∀ entry : NptEntry,
      page2mbMult entry.largePageBase ||| page2mbOffset gpa = leafTarget ⟨[], entry, 1⟩ gpa :=
    fun entry => page2mb_or entry.largePageBase gpa
  have hhuge : ∀ entry : NptEntry,
      page1gbMult entry.hugePageBase ||| page1gbOffset gpa = leafTarget ⟨[], entry, 2⟩ gpa :=
    fun entry => page1gb_or entry.hugePageBase gpa
  have hindex₃ : pml4eOffset gpa = Radix.index 3 gpa := rfl
  have hindex₂ : pdpteOffset gpa = Radix.index 2 gpa := rfl
  have hindex₁ : pdeOffset gpa = Radix.index 1 gpa := rfl
  have hindex₀ : pteOffset gpa = Radix.index 0 gpa := rfl
  unfold nvcSvmcGetPhysicalMapping
  simp only [hpage, hlarge, hhuge, hindex₃, hindex₂, hindex₁, hindex₀]
  generalize page4kbCount nptm.ncr3 = root
  cases hmet₃ : access.met (nptm.memory root (Radix.index 3 gpa)) with
  | false => rw [followLists_of_not_met hmet₃, if_neg (Bool.eq_false_iff.mp hmet₃)]; rfl
  | true =>
  rw [if_pos hmet₃, followLists_of_table hmet₃ rfl]
  cases hfind₂ : findPhys nptm.pdpte (nptm.memory root (Radix.index 3 gpa)) with
  | none => simp only [listAt, hfind₂]; rfl
  | some d₂ =>
  simp only [listAt, hfind₂, Option.bind_some]
  generalize d₂.frame = frame₂
  cases hmet₂ : access.met (nptm.memory frame₂ (Radix.index 2 gpa)) with
  | false => rw [followLists_of_not_met hmet₂, if_neg (Bool.eq_false_iff.mp hmet₂)]; rfl
  | true =>
  rw [if_pos hmet₂]
  have hleaf₂ := leaf_of_lt (by decide : 2 < 3) (nptm.memory frame₂ (Radix.index 2 gpa))
  cases hpsize₂ : (nptm.memory frame₂ (Radix.index 2 gpa)).psize with
  | true => rw [followLists_of_leaf hmet₂ (hleaf₂.trans hpsize₂), if_pos rfl]; rfl
  | false =>
  rw [if_neg Bool.false_ne_true, followLists_of_table hmet₂ (hleaf₂.trans hpsize₂)]
  cases hfind₁ : findPhys nptm.pde (nptm.memory frame₂ (Radix.index 2 gpa)) with
  | none => simp only [listAt, hfind₁]; rfl
  | some d₁ =>
  simp only [listAt, hfind₁, Option.bind_some]
  generalize d₁.frame = frame₁
  cases hmet₁ : access.met (nptm.memory frame₁ (Radix.index 1 gpa)) with
  | false => rw [followLists_of_not_met hmet₁, if_neg (Bool.eq_false_iff.mp hmet₁)]; rfl
  | true =>
  rw [if_pos hmet₁]
  have hleaf₁ := leaf_of_lt (by decide : 1 < 3) (nptm.memory frame₁ (Radix.index 1 gpa))
  cases hpsize₁ : (nptm.memory frame₁ (Radix.index 1 gpa)).psize with
  | true => rw [followLists_of_leaf hmet₁ (hleaf₁.trans hpsize₁), if_pos rfl]; rfl
  | false =>
  rw [if_neg Bool.false_ne_true, followLists_of_table hmet₁ (hleaf₁.trans hpsize₁)]
  cases hfind₀ : findPhys nptm.pte (nptm.memory frame₁ (Radix.index 1 gpa)) with
  | none => simp only [listAt, hfind₀]; rfl
  | some d₀ =>
  simp only [listAt, hfind₀, Option.bind_some]
  generalize d₀.frame = frame₀
  cases hmet₀ : access.met (nptm.memory frame₀ (Radix.index 0 gpa)) with
  | false => rw [followLists_of_not_met hmet₀, if_neg (Bool.eq_false_iff.mp hmet₀)]; rfl
  | true => rw [followLists_zero hmet₀, if_pos hmet₀]; rfl

/-- The descriptor found holds the table the entry points to. -/
theorem frame_of_findPhys {descriptors : List NptDescriptor} {entry : NptEntry} {d : NptDescriptor}
    (hfind : findPhys descriptors entry = some d) : d.frame = entry.base := by
  have hphys : d.phys = page4kbMult entry.base :=
    of_decide_eq_true (List.find?_some (p := fun d : NptDescriptor =>
      decide (d.phys = page4kbMult entry.base)) hfind)
  rw [NptDescriptor.frame, hphys, page4kbCount_page4kbMult]

theorem exists_findPhys {descriptors : List NptDescriptor} {entry : NptEntry}
    (hlisted : ∃ d ∈ descriptors, d.phys = page4kbMult entry.base) :
    ∃ d, findPhys descriptors entry = some d := by
  obtain ⟨d, hd, hphys⟩ := hlisted
  exact Option.isSome_iff_exists.mp (List.find?_isSome.mpr ⟨d, hd, decide_eq_true hphys⟩)

/-- What the lists find is at the end of the trail, and was asked for all along. -/
theorem of_followLists_eq_some {hpa : Nat}
    (h : followLists nptm gpa access level frame = some hpa) :
    (Radix.trail nptFormat nptm.memory level frame gpa).entries.all access.met = true ∧
      leafTarget (Radix.trail nptFormat nptm.memory level frame gpa) gpa = hpa := by
  induction level generalizing frame with
  | zero =>
    cases hmet : access.met (nptm.memory frame (Radix.index 0 gpa)) with
    | false => rw [followLists_of_not_met hmet] at h; cases h
    | true =>
      rw [followLists_zero hmet] at h
      exact ⟨by simp [Radix.trail, Radix.Walk.entries, hmet], Option.some.inj h⟩
  | succ level ih =>
    cases hmet : access.met (nptm.memory frame (Radix.index (level + 1) gpa)) with
    | false => rw [followLists_of_not_met hmet] at h; cases h
    | true =>
      cases hleaf : nptFormat.leaf (level + 1)
          (nptm.memory frame (Radix.index (level + 1) gpa)) with
      | true =>
        rw [followLists_of_leaf hmet hleaf] at h
        rw [Radix.trail_of_leaf hleaf]
        exact ⟨by simp [Radix.Walk.entries, hmet], Option.some.inj h⟩
      | false =>
        rw [followLists_of_table hmet hleaf] at h
        obtain ⟨d, hfind, hbelow⟩ := Option.bind_eq_some_iff.mp h
        rw [frame_of_findPhys hfind] at hbelow
        obtain ⟨hall, htarget⟩ := ih hbelow
        rw [Radix.trail_of_table hleaf, Radix.Walk.entries_under, List.all_cons, hmet,
          Bool.true_and]
        exact ⟨hall, htarget⟩

/-- Tables that are listed are found, as far as the entries are present. -/
theorem followLists_eq_some (hlisted : nptm.TablesListed) {r : Nat} (hlevel : level ≤ 3)
    (hreached : nptm.reached level r = some frame)
    (hpresent : (Radix.trail nptFormat nptm.memory level frame gpa).entries.all (·.present) = true)
    (hmet : (Radix.trail nptFormat nptm.memory level frame gpa).entries.all access.met = true) :
    followLists nptm gpa access level frame =
      some (leafTarget (Radix.trail nptFormat nptm.memory level frame gpa) gpa) := by
  induction level generalizing frame r with
  | zero =>
    have hmet₀ : access.met (nptm.memory frame (Radix.index 0 gpa)) = true := by
      simpa [Radix.trail, Radix.Walk.entries] using hmet
    exact followLists_zero hmet₀
  | succ level ih =>
    cases hleaf : nptFormat.leaf (level + 1)
        (nptm.memory frame (Radix.index (level + 1) gpa)) with
    | true =>
      rw [Radix.trail_of_leaf hleaf] at hmet ⊢
      have hmet₀ : access.met (nptm.memory frame (Radix.index (level + 1) gpa)) = true := by
        simpa [Radix.Walk.entries] using hmet
      exact followLists_of_leaf hmet₀ hleaf
    | false =>
      rw [Radix.trail_of_table hleaf, Radix.Walk.entries_under, List.all_cons,
        Bool.and_eq_true] at hmet hpresent
      have htable : nptFormat.isTable (level + 1)
          (nptm.memory frame (Radix.index (level + 1) gpa)) = true := by
        unfold Radix.Format.isTable
        rw [hleaf, Bool.not_false, Bool.true_and]
        exact hpresent.1
      obtain ⟨d, hfind⟩ := exists_findPhys (hlisted.listed level (by omega) r frame hreached _
        (Radix.index_lt _ _) htable)
      have hbelow : nptm.reached level (512 * r + Radix.index (level + 1) gpa) =
          some (nptm.memory frame (Radix.index (level + 1) gpa)).base :=
        Radix.reach_child (by omega) (Radix.index_lt _ _) hreached htable
      rw [followLists_of_table hmet.1 hleaf, hfind, Option.bind_some, frame_of_findPhys hfind,
        Radix.trail_of_table hleaf]
      exact ih (by omega) hbelow hpresent.2 hmet.2

/-- What the processor asks of an entry. -/
def GpaAccess.grantedBy (access : GpaAccess) (entry : NptEntry) : Bool :=
  entry.present && (!access.write || entry.write) && (!access.execute || !entry.noExecute)

theorem all_grantedBy (entries : List NptEntry) (access : GpaAccess) :
    entries.all access.grantedBy = true ↔ entries.all (·.present) = true ∧
      (access.write = true → entries.all (·.write) = true) ∧
      (access.execute = true → entries.all (!·.noExecute) = true) := by
  simp only [List.all_eq_true, GpaAccess.grantedBy, Bool.and_eq_true, Bool.or_eq_true,
    Bool.not_eq_true', ← Bool.not_eq_true, ← imp_iff_not_or]
  grind

theorem all_met (entries : List NptEntry) (access : GpaAccess) :
    entries.all access.met = true ↔ (access.read = true → entries.all (·.present) = true) ∧
      (access.write = true → entries.all (·.write) = true) ∧
      (access.execute = false → entries.all (!·.noExecute) = true) := by
  simp only [List.all_eq_true, meets, Bool.and_eq_true, decide_eq_true_eq, Bool.le_iff_imp]
  grind

theorem granted_eq_trail (nptm : SvmCustomNptManager) (gpa : Nat) (access : GpaAccess) :
    nptm.granted gpa access =
      if (nptm.trail gpa).entries.all access.grantedBy then some (leafTarget (nptm.trail gpa) gpa)
      else none := by
  have hview : nptm.view gpa = nptViewOf (nptm.trail gpa) gpa := by
    unfold SvmCustomNptManager.view tableView
    rw [Radix.walk_eq_trail]
    split
    · rfl
    · rename_i habove
      refine (if_neg fun hentries => habove ?_).symm
      rw [Radix.Walk.entries, List.all_append, Bool.and_eq_true] at hentries
      exact hentries.1
  unfold granted
  rw [hview, nptViewOf]
  by_cases hpresent : (nptm.trail gpa).entries.all (·.present) = true
  · rw [if_pos hpresent, Option.bind_some]
    refine if_congr ?_ rfl rfl
    rw [all_grantedBy, Bool.le_iff_imp, Bool.le_iff_imp]
    exact (and_iff_right hpresent).symm
  · rw [if_neg hpresent, if_neg fun hall => hpresent ((all_grantedBy _ _).mp hall).1]
    rfl

/-- The two rules come to the same for a trail just when its bits do not tell them apart. -/
theorem trailIndifferent_iff (nptm : SvmCustomNptManager) (gpa : Nat) (access : GpaAccess) :
    nptm.TrailIndifferent gpa access ↔ ((nptm.trail gpa).entries.all access.met = true ↔
      (nptm.trail gpa).entries.all access.grantedBy = true) := by
  rw [all_grantedBy, all_met]
  unfold TrailIndifferent
  generalize (nptm.trail gpa).entries = entries
  have hpresent : (∃ entry ∈ entries, entry.present = false) ↔
      ¬entries.all (·.present) = true := by simp
  have hwrite : (∃ entry ∈ entries, entry.write = false) ↔ ¬entries.all (·.write) = true := by simp
  have hexecute : (∃ entry ∈ entries, entry.noExecute = true) ↔
      ¬entries.all (!·.noExecute) = true := by simp
  have hboth : (∀ entry ∈ entries, entry.present = true ∧ entry.noExecute = false) ↔
      entries.all (·.present) = true ∧ entries.all (!·.noExecute) = true := by
    simp [← forall₂_and]
  rw [hpresent, hwrite, hexecute, hboth]
  generalize entries.all (·.present) = present
  generalize entries.all (·.write) = write
  generalize entries.all (!·.noExecute) = executable
  clear hpresent hwrite hexecute hboth
  cases present with
  | false =>
    cases access.read <;> cases access.execute <;> cases write <;> cases access.write <;> simp
  | true => cases access.execute <;> cases write <;> cases executable <;> simp

theorem ite_eq_ite_iff {α : Type} {p q : Prop} [Decidable p] [Decidable q] {a b : α} (hne : a ≠ b) :
    (if p then a else b) = (if q then a else b) ↔ (p ↔ q) := by
  by_cases hp : p
  · by_cases hq : q
    · simp [hp, hq]
    · simp [hp, hq, hne]
  · by_cases hq : q
    · simp [hp, hq, hne.symm]
    · simp [hp, hq]

/-- Both walkers are right just when the bits of the trail do not matter. -/
theorem walkersHonour_iff (nptm : SvmCustomNptManager) (hlisted : nptm.TablesListed) (gpa : Nat)
    (access : GpaAccess) : nptm.WalkersHonour gpa access ↔ nptm.TrailIndifferent gpa access := by
  have hroot : nptm.reached 3 0 = some (page4kbCount nptm.ncr3) := rfl
  have htranslate : (nvcSvmTranslateCustomGpa nptm.memory gpa access 3 nptm.ncr3).toOption =
      if (nptm.trail gpa).entries.all access.met then some (leafTarget (nptm.trail gpa) gpa)
      else none := translate_root_eq_trail hlisted.root gpa access
  have hrules : (nvcSvmTranslateCustomGpa nptm.memory gpa access 3 nptm.ncr3).toOption =
      nptm.granted gpa access ↔ nptm.TrailIndifferent gpa access := by
    rw [htranslate, granted_eq_trail, trailIndifferent_iff]
    exact ite_eq_ite_iff nofun
  refine ⟨fun h => hrules.mp h.translate, fun h => ⟨hrules.mpr h, ?_⟩⟩
  have hsame := (trailIndifferent_iff nptm gpa access).mp h
  rw [getPhysicalMapping_eq_follow, granted_eq_trail]
  by_cases hgranted : (nptm.trail gpa).entries.all access.grantedBy = true
  · have hpresent := ((all_grantedBy _ _).mp hgranted).1
    rw [if_pos hgranted, followLists_eq_some hlisted (Nat.le_refl 3) hroot hpresent
      (hsame.mpr hgranted)]
    rfl
  · rw [if_neg hgranted]
    cases hfollow : followLists nptm gpa access 3 (page4kbCount nptm.ncr3) with
    | none => rfl
    | some hpa => exact absurd (hsame.mp (of_followLists_eq_some hfollow).1) hgranted

end

namespace SvmCustomNptManager

theorem listed_of_listedFrame {size r frame : Nat} {descriptors : List NptDescriptor}
    (hlisted : Listed size descriptors) (hframe : listedFrame size descriptors r = some frame) :
    ∃ d ∈ descriptors, d.phys = page4kbMult frame := by
  obtain ⟨d, hd, rfl⟩ := Option.map_eq_some_iff.mp hframe
  have hmem : d ∈ descriptors := List.mem_of_find?_eq_some hd
  exact ⟨d, hmem, hlisted.paged d hmem⟩

/-- The tables that the manager builds are all listed. -/
theorem Wf.tablesListed {nptm : SvmCustomNptManager} (hwf : nptm.Wf) : nptm.TablesListed where
  root i hi := by
    have hroot : nptm.reached 3 0 = some (page4kbCount nptm.ncr3) := rfl
    rcases entry_cases hwf (by omega) hroot hi with ⟨hempty, -⟩ | ⟨child, -, hentry, -⟩
    · rw [hempty]
    · rw [hentry, psize_tableEntry]
  listed level hlevel r frame hframe i hi htable := by
    rcases entry_cases hwf hlevel hframe hi with ⟨hempty, -⟩ | ⟨child, hlt, hentry, hreached⟩
    · rw [hempty, isTable_empty] at htable
      cases htable
    · have hbase : (tableEntry (page4kbMult child)).base = child := child_tableEntry hlt
      have hdescribed := hwf.sound (by omega) hreached
      rw [hentry, hbase]
      match level, hlevel with
      | 0, _ => exact listed_of_listedFrame hwf.pteListed hdescribed
      | 1, _ => exact listed_of_listedFrame hwf.pdeListed hdescribed
      | 2, _ => exact listed_of_listedFrame hwf.pdpteListed hdescribed

theorem afterFirstPage_walkersHonour :
    afterFirstPage.WalkersHonour firstPage.gpa ⟨true, false, true⟩ :=
  (walkersHonour_iff afterFirstPage firstPage_mapped.tracks.wf.tablesListed _ _).mpr
    (Or.inr (Or.inl (by decide)))

/-- A page that may be read and not executed is denied to reads. -/
theorem not_forall_walkersHonour :
    ¬∀ nptm : SvmCustomNptManager, nptm.TablesListed → ∀ gpa access,
      nptm.WalkersHonour gpa access := by
  intro h
  have hmapped : Mapped (fun _ => 0) _ :=
    .step (.start (s := ([], newManager)) ⟨rfl, newManager_isNew⟩)
      ⟨dataPage, .ofFrames [2, 3, 4], rfl, newManager_fresh (by decide) (by decide),
        Allocator.generous_ofFrames (by decide), rfl⟩
  have hread := (h _ hmapped.tracks.wf.tablesListed dataPage.gpa ⟨true, false, false⟩).translate
  exact absurd hread (by decide)

end SvmCustomNptManager

end NoirVisor
