import Mathlib.Data.List.Nodup
import NoirVisor.Custom.Manager
import NoirVisor.Npt.View
import NoirVisor.Radix.Reach

/-!
# The layout of a VM's tables

The lists of a manager describe tables, and the entries link some of them below the root. The two
differ: a table is listed before the entry above it is written, and that entry may never be written.
A well-formed manager links every table as the table of the region it is listed for.
-/

namespace NoirVisor.SvmCustomNptManager

/-- The frame a list gives for a region. -/
def listedFrame (size : Nat) (descriptors : List NptDescriptor) (r : Nat) : Option Nat :=
  (Radix.covering NptDescriptor.gpaStart size (r * size) descriptors).map NptDescriptor.frame

/-- A list with one descriptor for each of its regions. -/
structure Listed (size : Nat) (descriptors : List NptDescriptor) : Prop where
  aligned : Radix.Aligned NptDescriptor.gpaStart size descriptors
  distinct : (descriptors.map NptDescriptor.gpaStart).Nodup
  paged : ∀ d ∈ descriptors, d.phys = page4kbMult d.frame

theorem listed_nil (size : Nat) : Listed size [] :=
  ⟨by simp [Radix.Aligned], List.nodup_nil, by simp⟩

section Listed

variable {size gpa : Nat} {descriptors : List NptDescriptor} {d : NptDescriptor}

theorem listedFrame_div (hsize : 0 < size) (hlisted : Listed size descriptors) (gpa : Nat) :
    listedFrame size descriptors (gpa / size) =
      (Radix.covering NptDescriptor.gpaStart size gpa descriptors).map NptDescriptor.frame := by
  unfold listedFrame
  rw [Radix.covering_congr hsize hlisted.aligned (Nat.mul_div_cancel _ hsize)]

theorem Listed.append (hsize : 0 < size) (hlisted : Listed size descriptors)
    (hnone : Radix.covering NptDescriptor.gpaStart size gpa descriptors = none)
    (hstart : d.gpaStart = gpa / size * size) (hpaged : d.phys = page4kbMult d.frame) :
    Listed size (descriptors ++ [d]) where
  aligned d' hd' := by
    rcases List.mem_append.mp hd' with hold | hnew
    · exact hlisted.aligned d' hold
    · rw [List.mem_singleton.mp hnew, hstart]
      exact Nat.mul_mod_left _ _
  distinct := by
    rw [List.map_append, List.nodup_append]
    refine ⟨hlisted.distinct, List.nodup_singleton _, fun start hold start' hnew => ?_⟩
    obtain ⟨d', hd', rfl⟩ := List.mem_map.mp hold
    rw [List.map_singleton, List.mem_singleton] at hnew
    rw [hnew, hstart]
    exact Radix.covering_eq_none hsize hlisted.aligned hnone hd'
  paged d' hd' := by
    rcases List.mem_append.mp hd' with hold | hnew
    · exact hlisted.paged d' hold
    · rw [List.mem_singleton.mp hnew, hpaged]

theorem listedFrame_append (hsize : 0 < size) (hlisted : Listed size descriptors)
    (hnone : Radix.covering NptDescriptor.gpaStart size gpa descriptors = none)
    (hstart : d.gpaStart = gpa / size * size) (r : Nat) :
    listedFrame size (descriptors ++ [d]) r =
      if r = gpa / size then some d.frame else listedFrame size descriptors r := by
  have hregion : d.gpaStart / size = gpa / size := by
    rw [hstart, Nat.mul_div_cancel _ hsize]
  have hbefore := listedFrame_div hsize hlisted gpa
  rw [hnone] at hbefore
  unfold listedFrame at hbefore ⊢
  rw [Radix.covering_append hsize (by rw [hstart]; exact Nat.mul_mod_left _ _),
    Nat.mul_div_cancel _ hsize, hregion]
  split
  · rename_i heq
    rw [heq, Option.map_eq_none_iff.mp hbefore]
    rfl
  · rfl

/-- The table of a descriptor is the one its list gives for its region. -/
theorem Listed.frame_of_mem (hsize : 0 < size) (hlisted : Listed size descriptors)
    (hd : d ∈ descriptors) : listedFrame size descriptors (d.gpaStart / size) = some d.frame := by
  have hfound : Radix.covering NptDescriptor.gpaStart size d.gpaStart descriptors = some d := by
    cases hfind : Radix.covering NptDescriptor.gpaStart size d.gpaStart descriptors with
    | none =>
        refine absurd ?_ (Radix.covering_eq_none hsize hlisted.aligned hfind hd)
        exact (Nat.div_mul_cancel (Nat.dvd_of_mod_eq_zero (hlisted.aligned d hd))).symm
    | some d' =>
        obtain ⟨hd', hstart⟩ := Radix.covering_eq_some hsize hlisted.aligned hfind
        rw [Nat.div_mul_cancel (Nat.dvd_of_mod_eq_zero (hlisted.aligned d hd))] at hstart
        rw [List.inj_on_of_nodup_map hlisted.distinct hd' hd hstart]
  rw [listedFrame_div hsize hlisted, hfound]
  rfl

end Listed

def described (nptm : SvmCustomNptManager) : Radix.Layout
  | 0, r => listedFrame page2mbSize nptm.pte r
  | 1, r => listedFrame page1gbSize nptm.pde r
  | 2, r => listedFrame page512gbSize nptm.pdpte r
  | 3, r => if r = 0 then some (page4kbCount nptm.ncr3) else none
  | _, _ => none

/-- The table the processor comes to for a region, by level. -/
def reached (nptm : SvmCustomNptManager) (level r : Nat) : Option Nat :=
  Radix.reach nptFormat nptm.memory 3 (page4kbCount nptm.ncr3) (3 - level) r

def Used (nptm : SvmCustomNptManager) (frame : Nat) : Prop :=
  ∃ level r, nptm.described level r = some frame

/-- Above the page entries there are only empty entries and entries that point to a table. -/
def TableKind (entry : NptEntry) : Prop :=
  entry = {} ∨ ∃ frame, entry = tableEntry (page4kbMult frame)

structure Wf (nptm : SvmCustomNptManager) : Prop where
  pdpteListed : Listed page512gbSize nptm.pdpte
  pdeListed : Listed page1gbSize nptm.pde
  pteListed : Listed page2mbSize nptm.pte
  tree : Radix.Tree nptFormat nptm.described nptm.memory 3 (page4kbCount nptm.ncr3) TableKind
  inRange : ∀ level r frame, nptm.described level r = some frame → frame < 2 ^ 40

/-- Tables of this level are linked when they are listed. -/
def Complete (nptm : SvmCustomNptManager) (level : Nat) : Prop :=
  ∀ r, nptm.reached level r = nptm.described level r

theorem isTable_empty (level : Nat) : nptFormat.isTable level {} = false := by
  simp [Radix.Format.isTable, nptFormat]

theorem isTable_tableEntry (level phys : Nat) : nptFormat.isTable level (tableEntry phys) = true := by
  simp [Radix.Format.isTable, nptFormat, tableEntry, NptEntry.setBase]

theorem leaf_tableEntry (level phys : Nat) : nptFormat.leaf level (tableEntry phys) = false := by
  simp [nptFormat, tableEntry, NptEntry.setBase]

theorem child_tableEntry {frame : Nat} (hframe : frame < 2 ^ 40) :
    nptFormat.child (tableEntry (page4kbMult frame)) = frame := by
  simp only [nptFormat, tableEntry, NptEntry.setBase, page4kbCount, page4kbMult]
  rw [Nat.mul_div_cancel _ (by decide), Nat.mod_eq_of_lt hframe]

section Lookup

variable {nptm : SvmCustomNptManager}

theorem described_two (hwf : nptm.Wf) (gpa : Nat) :
    nptm.described 2 (page512gbCount gpa) = (nptm.findPdpte gpa).map NptDescriptor.frame :=
  listedFrame_div (by decide) hwf.pdpteListed gpa

theorem described_one (hwf : nptm.Wf) (gpa : Nat) :
    nptm.described 1 (page1gbCount gpa) = (nptm.findPde gpa).map NptDescriptor.frame :=
  listedFrame_div (by decide) hwf.pdeListed gpa

theorem described_zero (hwf : nptm.Wf) (gpa : Nat) :
    nptm.described 0 (page2mbCount gpa) = (nptm.findPte gpa).map NptDescriptor.frame :=
  listedFrame_div (by decide) hwf.pteListed gpa

theorem Wf.sound (hwf : nptm.Wf) {level r frame : Nat} (hlevel : level ≤ 3)
    (h : nptm.reached level r = some frame) : nptm.described level r = some frame := by
  have := hwf.tree.sound (3 - level) (by omega) r frame h
  rwa [show 3 - (3 - level) = level by omega] at this

end Lookup

/-! ### The ways memory changes

A table is listed with a new page, an entry is pointed to a listed table, a page entry is
written. -/

def pushPdpte (nptm : SvmCustomNptManager) (gpa frame : Nat) : SvmCustomNptManager :=
  { nptm with
    pdpte := nptm.pdpte ++ [{ phys := page4kbMult frame, gpaStart := page512gbBase gpa }]
    memory := nptm.memory.fill frame fun _ => {} }

def pushPde (nptm : SvmCustomNptManager) (gpa frame : Nat) (table : Nat → NptEntry) :
    SvmCustomNptManager :=
  { nptm with
    pde := nptm.pde ++ [{ phys := page4kbMult frame, gpaStart := page1gbBase gpa }]
    memory := nptm.memory.fill frame table }

def pushPte (nptm : SvmCustomNptManager) (gpa frame : Nat) (table : Nat → NptEntry) :
    SvmCustomNptManager :=
  { nptm with
    pte := nptm.pte ++ [{ phys := page4kbMult frame, gpaStart := page2mbBase gpa }]
    memory := nptm.memory.fill frame table }

/-- Point an entry to the table in a frame. -/
def link (nptm : SvmCustomNptManager) (parent index frame : Nat) : SvmCustomNptManager :=
  nptm.setEntry parent index (tableEntry (page4kbMult frame))

section Push

variable {nptm : SvmCustomNptManager} {gpa frame : Nat} {table : Nat → NptEntry}

theorem described_pushPdpte (hwf : nptm.Wf) (hnone : nptm.findPdpte gpa = none) :
    (nptm.pushPdpte gpa frame).described =
      nptm.described.extend 2 (page512gbCount gpa) frame := by
  funext level r
  match level with
  | 0 | 1 | 3 | _ + 4 => simp [described, Radix.Layout.extend, pushPdpte]
  | 2 =>
      have happend := listedFrame_append
        (d := { phys := page4kbMult frame, gpaStart := page512gbBase gpa }) (by decide)
        hwf.pdpteListed hnone rfl r
      simpa [described, Radix.Layout.extend, pushPdpte, page512gbCount, page512gbSize] using happend

theorem described_pushPde (hwf : nptm.Wf) (hnone : nptm.findPde gpa = none) :
    (nptm.pushPde gpa frame table).described =
      nptm.described.extend 1 (page1gbCount gpa) frame := by
  funext level r
  match level with
  | 0 | 2 | 3 | _ + 4 => simp [described, Radix.Layout.extend, pushPde]
  | 1 =>
      have happend := listedFrame_append
        (d := { phys := page4kbMult frame, gpaStart := page1gbBase gpa }) (by decide)
        hwf.pdeListed hnone rfl r
      simpa [described, Radix.Layout.extend, pushPde, page1gbCount, page1gbSize] using happend

theorem described_pushPte (hwf : nptm.Wf) (hnone : nptm.findPte gpa = none) :
    (nptm.pushPte gpa frame table).described =
      nptm.described.extend 0 (page2mbCount gpa) frame := by
  funext level r
  match level with
  | 1 | 2 | 3 | _ + 4 => simp [described, Radix.Layout.extend, pushPte]
  | 0 =>
      have happend := listedFrame_append
        (d := { phys := page4kbMult frame, gpaStart := page2mbBase gpa }) (by decide)
        hwf.pteListed hnone rfl r
      simpa [described, Radix.Layout.extend, pushPte, page2mbCount, page2mbSize] using happend

theorem reached_fill (hwf : nptm.Wf) (hunused : ¬nptm.Used frame) {level : Nat} (r : Nat) :
    Radix.reach nptFormat (nptm.memory.fill frame table) 3 (page4kbCount nptm.ncr3) (3 - level) r =
      nptm.reached level r :=
  hwf.tree.reach_fill (fun l r h => hunused ⟨l, r, h⟩) (by omega) r

theorem inRange_extend (hwf : nptm.Wf) (hframe : frame < 2 ^ 40) {l r' : Nat} {level r f : Nat}
    (h : nptm.described.extend l r' frame level r = some f) : f < 2 ^ 40 := by
  unfold Radix.Layout.extend at h
  split at h
  · exact Option.some.inj h ▸ hframe
  · exact hwf.inRange level r f h

theorem Wf.pushPdpte (hwf : nptm.Wf) (hnone : nptm.findPdpte gpa = none)
    (hunused : ¬nptm.Used frame) (hframe : frame < 2 ^ 40) : (nptm.pushPdpte gpa frame).Wf where
  pdpteListed := hwf.pdpteListed.append (by decide) hnone rfl (by rw [NptManager.frame_mk])
  pdeListed := hwf.pdeListed
  pteListed := hwf.pteListed
  tree := by
    rw [described_pushPdpte hwf hnone]
    refine hwf.tree.fill (fun l r h => hunused ⟨l, r, h⟩) ?_
    rw [described_two hwf, hnone]
    rfl
  inRange level r f hf := by
    rw [described_pushPdpte hwf hnone] at hf
    exact inRange_extend hwf hframe hf

theorem Wf.pushPde (hwf : nptm.Wf) (hnone : nptm.findPde gpa = none) (hunused : ¬nptm.Used frame)
    (hframe : frame < 2 ^ 40) : (nptm.pushPde gpa frame table).Wf where
  pdpteListed := hwf.pdpteListed
  pdeListed := hwf.pdeListed.append (by decide) hnone rfl (by rw [NptManager.frame_mk])
  pteListed := hwf.pteListed
  tree := by
    rw [described_pushPde hwf hnone]
    refine hwf.tree.fill (fun l r h => hunused ⟨l, r, h⟩) ?_
    rw [described_one hwf, hnone]
    rfl
  inRange level r f hf := by
    rw [described_pushPde hwf hnone] at hf
    exact inRange_extend hwf hframe hf

theorem Wf.pushPte (hwf : nptm.Wf) (hnone : nptm.findPte gpa = none) (hunused : ¬nptm.Used frame)
    (hframe : frame < 2 ^ 40) : (nptm.pushPte gpa frame table).Wf where
  pdpteListed := hwf.pdpteListed
  pdeListed := hwf.pdeListed
  pteListed := hwf.pteListed.append (by decide) hnone rfl (by rw [NptManager.frame_mk])
  tree := by
    rw [described_pushPte hwf hnone]
    refine hwf.tree.fill (fun l r h => hunused ⟨l, r, h⟩) ?_
    rw [described_zero hwf, hnone]
    rfl
  inRange level r f hf := by
    rw [described_pushPte hwf hnone] at hf
    exact inRange_extend hwf hframe hf

end Push

section Link

variable {nptm : SvmCustomNptManager} {level r i parent child : Nat}

/-- What has to hold for an entry of a linked table to be pointed to a listed one: the listed table
is of the region of the entry, it is not linked yet, and nothing is linked below it. -/
structure Linkable (nptm : SvmCustomNptManager) (level r i parent child : Nat) : Prop where
  level_lt : level < 3
  parentReached : nptm.reached (level + 1) r = some parent
  index_lt : i < 512
  childDescribed : nptm.described level (512 * r + i) = some child
  childUnreached : nptm.reached level (512 * r + i) = none
  empty : level ≠ 0 → ∀ j < 512, nptm.memory child j = {}

@[simp]
theorem described_setEntry (frame index : Nat) (entry : NptEntry) :
    (nptm.setEntry frame index entry).described = nptm.described := rfl

@[simp]
theorem described_link : (nptm.link parent i child).described = nptm.described := rfl

theorem reached_link (hwf : nptm.Wf) (h : nptm.Linkable level r i parent child) (level' r' : Nat)
    (hlevel' : level' ≤ 3) :
    (nptm.link parent i child).reached level' r' =
      if level' = level ∧ r' = 512 * r + i then some child else nptm.reached level' r' := by
  have hlt := h.level_lt
  have hreach := hwf.tree.reach_set_link h.level_lt (hwf.sound (by omega) h.parentReached)
    h.parentReached h.childDescribed h.index_lt h.childUnreached (isTable_tableEntry _ _)
    (child_tableEntry (hwf.inRange _ _ _ h.childDescribed))
    (fun hl j hj => by rw [h.empty hl j hj]; exact isTable_empty _)
    (show 3 - level' ≤ 3 by omega) r'
  refine hreach.trans ?_
  by_cases hl : level' = level
  · simp only [hl, true_and]
    rfl
  · rw [if_neg (by omega), if_neg (by omega)]
    rfl

theorem Wf.link (hwf : nptm.Wf) (h : nptm.Linkable level r i parent child) :
    (nptm.link parent i child).Wf where
  pdpteListed := hwf.pdpteListed
  pdeListed := hwf.pdeListed
  pteListed := hwf.pteListed
  tree := by
    have hlt := h.level_lt
    exact hwf.tree.link h.level_lt (hwf.sound (by omega) h.parentReached) h.parentReached
      h.childDescribed h.index_lt h.childUnreached (isTable_tableEntry _ _)
      (child_tableEntry (hwf.inRange _ _ _ h.childDescribed))
      (fun hl j hj => by rw [h.empty hl j hj]; exact isTable_empty _) (Or.inr ⟨child, rfl⟩)
      fun hl j hj => Or.inl (h.empty hl j hj)
  inRange := hwf.inRange

/-- An entry of a table that is not linked matters to no walk. -/
theorem reached_setEntry_of_unreached {entry : NptEntry} (hwf : nptm.Wf)
    (hdescribed : nptm.described level r = some parent)
    (hunreached : nptm.reached level r ≠ some parent) (level' r' : Nat) :
    (nptm.setEntry parent i entry).reached level' r' = nptm.reached level' r' :=
  hwf.tree.reach_set_unreached hdescribed hunreached (by omega) r'

theorem Wf.setEntry_of_unreached {entry : NptEntry} (hwf : nptm.Wf)
    (hdescribed : nptm.described level r = some parent)
    (hunreached : nptm.reached level r ≠ some parent) : (nptm.setEntry parent i entry).Wf where
  pdpteListed := hwf.pdpteListed
  pdeListed := hwf.pdeListed
  pteListed := hwf.pteListed
  tree := hwf.tree.set_unreached hdescribed hunreached
  inRange := hwf.inRange

theorem reached_setPage {entry : NptEntry} (hwf : nptm.Wf)
    (hdescribed : nptm.described 0 r = some parent) (level' r' : Nat) :
    (nptm.setEntry parent i entry).reached level' r' = nptm.reached level' r' :=
  hwf.tree.reach_set_leaf hdescribed (by omega) r'

theorem Wf.setPage {entry : NptEntry} (hwf : nptm.Wf)
    (hdescribed : nptm.described 0 r = some parent) : (nptm.setEntry parent i entry).Wf where
  pdpteListed := hwf.pdpteListed
  pdeListed := hwf.pdeListed
  pteListed := hwf.pteListed
  tree := hwf.tree.set_leaf hdescribed
  inRange := hwf.inRange

end Link

end NoirVisor.SvmCustomNptManager
