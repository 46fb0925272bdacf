import NoirVisor.Ept.Manager

/-!
# Well-formed extended paging managers

The two lists tell which frame holds the table of which page. In a well-formed manager a page is
whole or has a table, a whole 1 GiB page maps itself, and an entry above a table is as a split
leaves it, so that splitting the page again changes nothing. A table may be left behind below a
2 MiB page that was made whole again.
-/

namespace NoirVisor

/-- An entry that points to a table, as a split leaves it. -/
def EptEntry.PointsTo (entry : EptEntry) (frame : Nat) : Prop :=
  entry.large = false ∧ entry.memoryType = 0 ∧ entry.base = frame

/-- The entry of a 1 GiB page that is mapped to itself with every right. -/
def EptEntry.Identity (entry : EptEntry) (k : Nat) : Prop :=
  entry.read = true ∧ entry.write = true ∧ entry.execute = true ∧ entry.base = k * 2 ^ 18

/-- What the tables make of an address. -/
structure EptLeaf where
  frame : Nat
  read : Bool
  write : Bool
  execute : Bool
  memoryType : BitVec 3
  varMtrrCovered : Bool
deriving DecidableEq, Repr

/-- What the entry of a page makes of an address of the page, by level. -/
def EptEntry.leaf (entry : EptEntry) (level gpa : Nat) : EptLeaf where
  frame := entry.base / 2 ^ (9 * level) * 2 ^ (9 * level) + page4kbCount gpa % 2 ^ (9 * level)
  read := entry.read
  write := entry.write
  execute := entry.execute
  memoryType := entry.memoryType
  varMtrrCovered := entry.varMtrrCovered

theorem EptEntry.pointsTo_toTable {entry : EptEntry} {d : EptDescriptor} (hframe : d.frame < 2 ^ 40) :
    (entry.toTable d.phys).PointsTo d.frame :=
  ⟨rfl, rfl, Nat.mod_eq_of_lt hframe⟩

theorem EptEntry.PointsTo.setPermission {entry : EptEntry} {frame : Nat} (h : entry.PointsTo frame)
    (r w x : Bool) : (entry.setPermission r w x).PointsTo frame := h

theorem EptEntry.PointsTo.toTable {entry : EptEntry} {d : EptDescriptor}
    (h : entry.PointsTo d.frame) (hframe : d.frame < 2 ^ 40) : entry.toTable d.phys = entry := by
  obtain ⟨hlarge, htype, hbase⟩ := h
  have hcount : page4kbCount d.phys % 2 ^ 40 = entry.base := by
    rw [hbase]
    exact Nat.mod_eq_of_lt hframe
  rw [EptEntry.toTable, EptEntry.setPageOffset, hcount, ← hlarge, ← htype]

namespace EptManager

def layout (eptm : EptManager) : Radix.Layout
  | 0, r => Radix.tableOf EptDescriptor.gpaStart EptDescriptor.frame page2mbSize eptm.pte r
  | 1, k => Radix.tableOf EptDescriptor.gpaStart EptDescriptor.frame page1gbSize eptm.pde k
  | _, _ => none

def Used (eptm : EptManager) (frame : Nat) : Prop := ∃ level r, eptm.layout level r = some frame

structure Wf (eptm : EptManager) : Prop where
  pdeAligned : Radix.Aligned EptDescriptor.gpaStart page1gbSize eptm.pde
  pteAligned : Radix.Aligned EptDescriptor.gpaStart page2mbSize eptm.pte
  disjoint : Radix.Disjoint eptm.layout
  inRange : ∀ level r frame, eptm.layout level r = some frame → frame < 2 ^ 40
  huge : ∀ k < 512 * 512, (eptm.pdpt k).large = true →
    eptm.layout 1 k = none ∧ (eptm.pdpt k).Identity k
  table : ∀ k < 512 * 512, (eptm.pdpt k).large = false →
    ∃ frame, eptm.layout 1 k = some frame ∧ (eptm.pdpt k).PointsTo frame
  pde : ∀ k frame i, eptm.layout 1 k = some frame → i < 512 →
    (eptm.memory frame i).large = false →
      ∃ f, eptm.layout 0 (512 * k + i) = some f ∧ (eptm.memory frame i).PointsTo f

/-- The entry an address is mapped by, and its level. -/
def walk (eptm : EptManager) (gpa : Nat) : EptEntry × Nat :=
  let pdpte := eptm.pdpt (page1gbCount gpa)
  if pdpte.large then
    (pdpte, 2)
  else
    let pde := eptm.memory pdpte.base (pageEntryIndex64 (page2mbCount gpa))
    if pde.large then
      (pde, 1)
    else
      (eptm.memory pde.base (pageEntryIndex64 (page4kbCount gpa)), 0)

def leaf (eptm : EptManager) (gpa : Nat) : EptLeaf :=
  (eptm.walk gpa).1.leaf (eptm.walk gpa).2 gpa

@[simp]
theorem frame_mk (frame gpaStart : Nat) :
    EptDescriptor.frame { phys := page4kbMult frame, gpaStart } = frame :=
  page4kbCount_page4kbMult frame

theorem page1gbCount_lt_of_lt {gpa : Nat} (hgpa : gpa < 2 ^ 48) : page1gbCount gpa < 512 * 512 := by
  unfold page1gbCount
  omega

theorem pageEntryIndex64_lt (x : Nat) : pageEntryIndex64 x < 512 := Nat.mod_lt _ (by decide)

/-- The 2 MiB page of an address, by its 1 GiB page and its entry. -/
theorem page2mbCount_eq (gpa : Nat) :
    page2mbCount gpa = 512 * page1gbCount gpa + pageEntryIndex64 (page2mbCount gpa) := by
  simp only [page2mbCount, page1gbCount, pageEntryIndex64]
  omega

theorem page1gbCount_of_page2mbCount {gpa k i : Nat} (hi : i < 512)
    (hgpa : page2mbCount gpa = 512 * k + i) :
    page1gbCount gpa = k ∧ pageEntryIndex64 (page2mbCount gpa) = i := by
  simp only [page2mbCount, page1gbCount, pageEntryIndex64] at hgpa ⊢
  omega

section Lookup

variable {eptm : EptManager} {gpa : Nat}

theorem Wf.layout_one (hwf : eptm.Wf) (gpa : Nat) :
    eptm.layout 1 (page1gbCount gpa) = (eptm.findPde gpa).map EptDescriptor.frame :=
  Radix.tableOf_div (by decide) hwf.pdeAligned gpa

theorem Wf.layout_zero (hwf : eptm.Wf) (gpa : Nat) :
    eptm.layout 0 (page2mbCount gpa) = (eptm.findPte gpa).map EptDescriptor.frame :=
  Radix.tableOf_div (by decide) hwf.pteAligned gpa

theorem Wf.walk_of_huge (hhuge : (eptm.pdpt (page1gbCount gpa)).large = true) :
    eptm.walk gpa = (eptm.pdpt (page1gbCount gpa), 2) := by
  simp [walk, hhuge]

/-- A walk that comes to a table of PDEs. -/
theorem Wf.walk_of_table (hwf : eptm.Wf) (hgpa : gpa < 2 ^ 48) {frame : Nat}
    (hframe : eptm.layout 1 (page1gbCount gpa) = some frame) :
    eptm.walk gpa =
      (let pde := eptm.memory frame (pageEntryIndex64 (page2mbCount gpa))
       if pde.large then (pde, 1)
       else (eptm.memory pde.base (pageEntryIndex64 (page4kbCount gpa)), 0)) := by
  have hk := page1gbCount_lt_of_lt hgpa
  cases hlarge : (eptm.pdpt (page1gbCount gpa)).large with
  | true =>
      rw [(hwf.huge _ hk hlarge).1] at hframe
      cases hframe
  | false =>
      obtain ⟨f, hf, -, -, hbase⟩ := hwf.table _ hk hlarge
      obtain rfl := Option.some.inj (hf.symm.trans hframe)
      simp [walk, hlarge, hbase]

/-- A walk depends on the entries for its address in the tables of the layout. -/
theorem Wf.walk_congr {eptm' : EptManager} (hwf : eptm.Wf) (hgpa : gpa < 2 ^ 48)
    (hpdpt : eptm'.pdpt (page1gbCount gpa) = eptm.pdpt (page1gbCount gpa))
    (hpde : ∀ frame, eptm.layout 1 (page1gbCount gpa) = some frame →
      eptm'.memory frame (pageEntryIndex64 (page2mbCount gpa)) =
        eptm.memory frame (pageEntryIndex64 (page2mbCount gpa)))
    (hpte : ∀ frame, eptm.layout 0 (page2mbCount gpa) = some frame →
      eptm'.memory frame (pageEntryIndex64 (page4kbCount gpa)) =
        eptm.memory frame (pageEntryIndex64 (page4kbCount gpa))) :
    eptm'.walk gpa = eptm.walk gpa := by
  unfold walk
  rw [hpdpt]
  cases hlarge : (eptm.pdpt (page1gbCount gpa)).large with
  | true => simp only [hlarge, if_true]
  | false =>
      obtain ⟨frame, hframe, -, -, hbase⟩ := hwf.table _ (page1gbCount_lt_of_lt hgpa) hlarge
      simp only [hlarge, hbase, hpde frame hframe]
      cases hsplit : (eptm.memory frame (pageEntryIndex64 (page2mbCount gpa))).large with
      | true => simp only [if_true]
      | false =>
          obtain ⟨frame', hframe', -, -, hbase'⟩ :=
            hwf.pde _ _ _ hframe (pageEntryIndex64_lt _) hsplit
          rw [← page2mbCount_eq] at hframe'
          rw [hbase', hpte frame' hframe']

end Lookup

@[simp]
theorem layout_allocator (eptm : EptManager) (allocator : Allocator) :
    EptManager.layout { eptm with allocator } = eptm.layout := rfl

@[simp]
theorem walk_allocator (eptm : EptManager) (allocator : Allocator) (gpa : Nat) :
    EptManager.walk { eptm with allocator } gpa = eptm.walk gpa := rfl

@[simp]
theorem leaf_allocator (eptm : EptManager) (allocator : Allocator) (gpa : Nat) :
    EptManager.leaf { eptm with allocator } gpa = eptm.leaf gpa := rfl

theorem Wf.allocator {eptm : EptManager} (hwf : eptm.Wf) (allocator : Allocator) :
    EptManager.Wf { eptm with allocator } :=
  ⟨hwf.pdeAligned, hwf.pteAligned, hwf.disjoint, hwf.inRange, hwf.huge, hwf.table, hwf.pde⟩

/-! ### Writing an entry -/

section Writes

variable {eptm : EptManager} {gpa frame k r i level : Nat} {f : EptEntry → EptEntry}

@[simp]
theorem layout_modifyEntry : (eptm.modifyEntry frame i f).layout = eptm.layout := rfl

@[simp]
theorem pdpt_modifyEntry : (eptm.modifyEntry frame i f).pdpt = eptm.pdpt := rfl

@[simp]
theorem memory_modifyEntry_self :
    (eptm.modifyEntry frame i f).memory frame i = f (eptm.memory frame i) :=
  Radix.Frames.set_self _ _ _ _

theorem memory_modifyEntry_of_ne {frame' j : Nat} (hne : ¬(frame' = frame ∧ j = i)) :
    (eptm.modifyEntry frame i f).memory frame' j = eptm.memory frame' j :=
  Radix.Frames.set_of_ne hne

/-- An entry of a table is written. One of a PDE table that points to a table must be as a split
leaves it. -/
theorem Wf.modifyEntry (hwf : eptm.Wf) (hframe : eptm.layout level r = some frame)
    (hentry : level = 1 → (f (eptm.memory frame i)).large = false →
      ∃ frame', eptm.layout 0 (512 * r + i) = some frame' ∧
        (f (eptm.memory frame i)).PointsTo frame') : (eptm.modifyEntry frame i f).Wf where
  pdeAligned := hwf.pdeAligned
  pteAligned := hwf.pteAligned
  disjoint := hwf.disjoint
  inRange := hwf.inRange
  huge := hwf.huge
  table := hwf.table
  pde k frame' j hframe' hj := by
    rw [layout_modifyEntry] at hframe' ⊢
    by_cases hwritten : frame' = frame ∧ j = i
    · obtain ⟨rfl, rfl⟩ := hwritten
      obtain ⟨rfl, rfl⟩ := hwf.disjoint _ _ _ _ _ hframe' hframe
      rw [memory_modifyEntry_self]
      exact hentry rfl
    · rw [memory_modifyEntry_of_ne hwritten]
      exact hwf.pde k frame' j hframe' hj

/-- A 2 MiB page is written, and is whole from then on. -/
theorem Wf.walk_modifyEntry (hwf : eptm.Wf) (hframe : eptm.layout 1 k = some frame) (hi : i < 512)
    (hkeeps : (f (eptm.memory frame i)).large = true) (hgpa : gpa < 2 ^ 48) :
    (eptm.modifyEntry frame i f).walk gpa =
      if page2mbCount gpa = 512 * k + i then (f (eptm.memory frame i), 1) else eptm.walk gpa := by
  have hwf' : (eptm.modifyEntry frame i f).Wf :=
    hwf.modifyEntry hframe fun _ hnot => by rw [hkeeps] at hnot; cases hnot
  split
  · next hpage =>
      obtain ⟨rfl, rfl⟩ := page1gbCount_of_page2mbCount hi hpage
      rw [hwf'.walk_of_table hgpa hframe]
      simp only [memory_modifyEntry_self, hkeeps, if_true]
  · next hpage =>
      refine hwf.walk_congr hgpa rfl (fun g hg => ?_) fun g hg => ?_
      · refine memory_modifyEntry_of_ne ?_
        rintro ⟨rfl, rfl⟩
        obtain ⟨-, rfl⟩ := hwf.disjoint _ _ _ _ _ hframe hg
        exact hpage (page2mbCount_eq gpa)
      · refine memory_modifyEntry_of_ne ?_
        rintro ⟨rfl, -⟩
        exact absurd (hwf.disjoint _ _ _ _ _ hg hframe).1 (by decide)

@[simp]
theorem layout_setPdpte (entry : EptEntry) : (eptm.setPdpte k entry).layout = eptm.layout := rfl

/-- The entry of a 1 GiB page is written, and the page stays what it is. -/
theorem Wf.setPdpte {entry : EptEntry} (hwf : eptm.Wf) (hlarge : entry.large = (eptm.pdpt k).large)
    (hidentity : (eptm.pdpt k).Identity k → entry.Identity k)
    (hpoints : ∀ frame, (eptm.pdpt k).PointsTo frame → entry.PointsTo frame) :
    (eptm.setPdpte k entry).Wf where
  pdeAligned := hwf.pdeAligned
  pteAligned := hwf.pteAligned
  disjoint := hwf.disjoint
  inRange := hwf.inRange
  huge k' hk' := by
    by_cases heq : k' = k
    · subst heq
      simp only [EptManager.setPdpte, Function.update_self, hlarge]
      exact fun h => (hwf.huge k' hk' h).imp_right hidentity
    · simp only [EptManager.setPdpte, Function.update_of_ne heq]
      exact hwf.huge k' hk'
  table k' hk' := by
    by_cases heq : k' = k
    · subst heq
      simp only [EptManager.setPdpte, Function.update_self, hlarge]
      intro h
      obtain ⟨frame, hframe, hpointsTo⟩ := hwf.table k' hk' h
      exact ⟨frame, hframe, hpoints frame hpointsTo⟩
    · simp only [EptManager.setPdpte, Function.update_of_ne heq]
      exact hwf.table k' hk'
  pde := hwf.pde

theorem walk_setPdpte {entry : EptEntry} (hentry : entry.large = true) :
    (eptm.setPdpte k entry).walk gpa =
      if page1gbCount gpa = k then (entry, 2) else eptm.walk gpa := by
  split
  · next heq => simp [walk, EptManager.setPdpte, heq, hentry]
  · next heq => simp [walk, EptManager.setPdpte, Function.update_of_ne heq]

end Writes

end EptManager

end NoirVisor
