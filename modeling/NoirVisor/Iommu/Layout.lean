import NoirVisor.Custom.Layout
import NoirVisor.Iommu.Manager
import NoirVisor.Radix.Content

/-!
# The layout of the tables of VT-d

With three or four levels a table is linked as soon as it has a descriptor, and every entry is known
from the descriptors: what has no table of its own maps the address to itself, except for what the
updates of single pages and the huge pages of a top table say.
-/

namespace NoirVisor.DmarManager

open SvmCustomNptManager (Listed listedFrame listedFrame_div listedFrame_append)

def described (dmarm : DmarManager) : Radix.Layout
  | 0, r => listedFrame page2mbSize dmarm.pte r
  | 1, r => listedFrame page1gbSize dmarm.pde r
  | level + 2, r =>
      if level + 2 = dmarm.usingAgaw.top then
        if r = 0 then some dmarm.root else none
      else if level = 0 then listedFrame page512gbSize dmarm.pdpte r
      else none

def Used (dmarm : DmarManager) (frame : Nat) : Prop :=
  ∃ level r, dmarm.described level r = some frame

def tableEntry (frame : Nat) : Stage2Entry := ({} : Stage2Entry).toTable (page4kbMult frame)

def pageEntry (count : Nat) : Stage2Entry := ({} : Stage2Entry).toPage count

def largeEntry (count : Nat) : Stage2Entry := ({} : Stage2Entry).toLargePage count

def hugeEntry (count : Nat) : Stage2Entry := ({} : Stage2Entry).toHugePage count

/-- The huge pages of a table whose first one maps to page `base`. -/
def hugeFrom (base : Nat) (r : Nat) : Stage2Entry := hugeEntry (base + r)

theorem hugeFrom_zero (r : Nat) : hugeFrom 0 r = hugeEntry r := by
  rw [hugeFrom, Nat.zero_add]

/-- The entries that point to no table. -/
def own (pages huge : Nat → Stage2Entry) : Nat → Nat → Stage2Entry
  | 0, r => pages r
  | 1, r => largeEntry r
  | 2, r => huge r
  | _, _ => {}

/-- The tables of a manager with three or four levels. `held` are the pages allocated for tables that
are not linked yet. -/
structure Wf (dmarm : DmarManager) (held : Nat → Prop) (pages huge : Nat → Stage2Entry) : Prop where
  shallow : dmarm.usingAgaw ≠ .bit57
  pdpteListed : Listed page512gbSize dmarm.pdpte
  pdeListed : Listed page1gbSize dmarm.pde
  pteListed : Listed page2mbSize dmarm.pte
  holds : Radix.Holds dmarm.described dmarm.memory dmarm.usingAgaw.top tableEntry (own pages huge)
  inRange : ∀ level r frame, dmarm.described level r = some frame → frame < 2 ^ 40
  sized : ∀ level r frame, dmarm.described level r = some frame → dmarm.size frame = page4kbSize
  fresh : dmarm.allocator.Fresh fun frame => dmarm.Used frame ∨ held frame
  aside : ∀ frame, held frame → ¬dmarm.Used frame
  hugeKind : ∀ r, huge r = {} ∨ ∃ count, huge r = hugeEntry count
  wide : dmarm.usingAgaw = .bit48 → huge = hugeFrom 0
  untouched : ∀ page, dmarm.described 0 (page / 512) = none → pages page = pageEntry page

/-- What never changes of a manager, and the tables, which only come. -/
structure Extends (dmarm dmarm' : DmarManager) : Prop where
  root : dmarm'.root = dmarm.root
  usingAgaw : dmarm'.usingAgaw = dmarm.usingAgaw
  largePage : dmarm'.largePage = dmarm.largePage
  hugePage : dmarm'.hugePage = dmarm.hugePage
  kept : ∀ level r frame, dmarm.described level r = some frame →
    dmarm'.described level r = some frame
  refused : dmarm'.refused = false → dmarm.refused = false

/-- What becomes of a manager when tables are made for the regions of an address. -/
structure Grows (gpa : Nat) (held : Nat → Prop) (dmarm dmarm' : DmarManager) : Prop
    extends Extends dmarm dmarm' where
  only : ∀ level r, r ≠ Radix.region (level + 1) gpa →
    dmarm'.described level r = dmarm.described level r
  aside : ∀ frame, held frame →
    dmarm'.memory frame = dmarm.memory frame ∧ dmarm'.size frame = dmarm.size frame

theorem Extends.refl (dmarm : DmarManager) : Extends dmarm dmarm :=
  ⟨rfl, rfl, rfl, rfl, fun _ _ _ h => h, id⟩

theorem Extends.trans {dmarm dmarm' dmarm'' : DmarManager} (h : Extends dmarm dmarm')
    (h' : Extends dmarm' dmarm'') : Extends dmarm dmarm'' where
  root := h'.root.trans h.root
  usingAgaw := h'.usingAgaw.trans h.usingAgaw
  largePage := h'.largePage.trans h.largePage
  hugePage := h'.hugePage.trans h.hugePage
  kept level r frame hframe := h'.kept level r frame (h.kept level r frame hframe)
  refused hnot := h.refused (h'.refused hnot)

theorem Extends.limit {dmarm dmarm' : DmarManager} (h : Extends dmarm dmarm') :
    dmarm'.limit = dmarm.limit := by
  rw [DmarManager.limit, h.usingAgaw, DmarManager.limit]

theorem Extends.viewOf {dmarm dmarm' : DmarManager} (h : Extends dmarm dmarm') :
    dmarm'.viewOf = dmarm.viewOf := by
  unfold DmarManager.viewOf accepts
  rw [h.largePage, h.hugePage]

theorem Extends.some {dmarm dmarm' : DmarManager} (h : Extends dmarm dmarm') {level r : Nat}
    (hsome : dmarm.described level r ≠ none) : dmarm'.described level r ≠ none := by
  obtain ⟨frame, hframe⟩ := Option.ne_none_iff_exists'.mp hsome
  rw [h.kept _ _ _ hframe]
  simp

theorem Grows.refl (gpa : Nat) (held : Nat → Prop) (dmarm : DmarManager) :
    Grows gpa held dmarm dmarm :=
  ⟨Extends.refl dmarm, fun _ _ _ => rfl, fun _ _ => ⟨rfl, rfl⟩⟩

theorem Grows.trans {gpa : Nat} {held : Nat → Prop} {dmarm dmarm' dmarm'' : DmarManager}
    (h : Grows gpa held dmarm dmarm') (h' : Grows gpa held dmarm' dmarm'') :
    Grows gpa held dmarm dmarm'' where
  toExtends := h.toExtends.trans h'.toExtends
  only level r hne := (h'.only level r hne).trans (h.only level r hne)
  aside frame hheld :=
    ⟨(h'.aside frame hheld).1.trans (h.aside frame hheld).1,
      (h'.aside frame hheld).2.trans (h.aside frame hheld).2⟩

theorem Grows.mono {gpa : Nat} {held held' : Nat → Prop} {dmarm dmarm' : DmarManager}
    (h : Grows gpa held dmarm dmarm') (hsub : ∀ frame, held' frame → held frame) :
    Grows gpa held' dmarm dmarm' :=
  { h with aside := fun frame hheld => h.aside frame (hsub frame hheld) }

theorem Wf.mono {dmarm : DmarManager} {held held' : Nat → Prop} {pages huge : Nat → Stage2Entry}
    (hwf : dmarm.Wf held pages huge) (hsub : ∀ frame, held' frame → held frame) :
    dmarm.Wf held' pages huge :=
  { hwf with
    fresh := hwf.fresh.mono fun frame h => h.imp_right (hsub frame)
    aside := fun frame hheld => hwf.aside frame (hsub frame hheld) }

theorem Wf.lt_top {dmarm : DmarManager} {held : Nat → Prop} {pages huge : Nat → Stage2Entry}
    {level : Nat} (hwf : dmarm.Wf held pages huge) (hlevel : level < 2) :
    level < dmarm.usingAgaw.top := by
  cases hagaw : dmarm.usingAgaw with
  | bit39 => exact hlevel
  | bit48 => exact Nat.lt_succ_of_lt hlevel
  | bit57 => exact absurd hagaw hwf.shallow

section Entries

variable {pages huge : Nat → Stage2Entry}

@[simp]
theorem isTable_tableEntry (level frame : Nat) :
    stage2Format.isTable level (tableEntry frame) = true := by
  simp [Radix.Format.isTable, stage2Format, tableEntry, Stage2Entry.toTable, Stage2Entry.setPtr,
    Stage2Entry.setRights]

theorem child_tableEntry {frame : Nat} (hframe : frame < 2 ^ 40) :
    stage2Format.child (tableEntry frame) = frame := by
  simp only [stage2Format, tableEntry, Stage2Entry.toTable, Stage2Entry.setPtr]
  rw [page4kbCount_page4kbMult, Nat.mod_eq_of_lt hframe]

theorem isTable_own (hkind : ∀ r, huge r = {} ∨ ∃ count, huge r = hugeEntry count) (level r : Nat) :
    stage2Format.isTable (level + 1) (own pages huge (level + 1) r) = false := by
  match level with
  | 0 => rfl
  | 1 =>
      rcases hkind r with hempty | ⟨count, hcount⟩
      · simp only [own, hempty]
        rfl
      · simp only [own, hcount]
        rfl
  | level + 2 =>
      simp [own, Radix.Format.isTable, stage2Format]

theorem ptr_hugeEntry (count : Nat) : (hugeEntry count).ptr = count % 2 ^ 22 * 2 ^ 18 := by
  simp [hugeEntry, Stage2Entry.toHugePage, Stage2Entry.setHugePagePtr, Stage2Entry.setRights]

theorem ptr_largeEntry (count : Nat) : (largeEntry count).ptr = count % 2 ^ 31 * 2 ^ 9 := by
  simp [largeEntry, Stage2Entry.toLargePage, Stage2Entry.setLargePagePtr, Stage2Entry.setRights]

/-- Nothing of what a huge entry held shows after it is written again. -/
theorem toHugePage_of_kind {entry : Stage2Entry} (hkind : entry = {} ∨ ∃ count, entry = hugeEntry count)
    (count : Nat) : entry.toHugePage count = hugeEntry count := by
  have hlow : entry.ptr % 2 ^ 18 = ({} : Stage2Entry).ptr % 2 ^ 18 := by
    rcases hkind with rfl | ⟨n, rfl⟩
    · rfl
    · rw [ptr_hugeEntry, Nat.mul_mod_left, Nat.zero_mod]
  unfold hugeEntry Stage2Entry.toHugePage Stage2Entry.setHugePagePtr Stage2Entry.setRights
  dsimp only
  rw [hlow]

end Entries

section Lookup

variable {dmarm : DmarManager} {held : Nat → Prop} {pages huge : Nat → Stage2Entry}

theorem described_zero (hwf : dmarm.Wf held pages huge) (gpa : Nat) :
    dmarm.described 0 (Radix.region 1 gpa) =
      (dmarm.nvcVtIommuSearchPteDescriptor gpa).map NptDescriptor.frame :=
  listedFrame_div (by decide) hwf.pteListed gpa

theorem described_one (hwf : dmarm.Wf held pages huge) (gpa : Nat) :
    dmarm.described 1 (Radix.region 2 gpa) =
      (dmarm.nvcVtIommuSearchPdeDescriptor gpa).map NptDescriptor.frame :=
  listedFrame_div (by decide) hwf.pdeListed gpa

theorem described_two (hwf : dmarm.Wf held pages huge) (hagaw : dmarm.usingAgaw = .bit48)
    (gpa : Nat) : dmarm.described 2 (Radix.region 3 gpa) =
      (dmarm.nvcVtIommuSearchPdpteDescriptor gpa).map NptDescriptor.frame := by
  simp only [described, nvcVtIommuSearchPdpteDescriptor, hagaw]
  exact listedFrame_div (by decide) hwf.pdpteListed gpa

/-- The top table covers the address width. -/
theorem described_top (hwf : dmarm.Wf held pages huge) {gpa : Nat} (hgpa : gpa < dmarm.limit) :
    dmarm.described dmarm.usingAgaw.top (Radix.region (dmarm.usingAgaw.top + 1) gpa) =
      some dmarm.root := by
  have hregion : Radix.region (dmarm.usingAgaw.top + 1) gpa = 0 := Nat.div_eq_of_lt hgpa
  rw [hregion]
  cases hagaw : dmarm.usingAgaw with
  | bit39 => simp [described, hagaw, Agaw.top]
  | bit48 => simp [described, hagaw, Agaw.top]
  | bit57 => exact absurd hagaw hwf.shallow

end Lookup

end NoirVisor.DmarManager
