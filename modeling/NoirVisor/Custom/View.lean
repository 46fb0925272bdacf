import NoirVisor.Custom.Layout

/-!
# What the guest sees of its tables

The nested walk from `ncr3`, told by the table it ends in, and how the ways memory changes affect
it.
-/

namespace NoirVisor.SvmCustomNptManager

/-- The view through the page entry of an address in one table. -/
def pageView (memory : Radix.Frames NptEntry) (address frame : Nat) : Option NptView :=
  if (memory frame (pteOffset address)).present then
    some (leafView 0 (memory frame (pteOffset address)) address)
  else none

def view (nptm : SvmCustomNptManager) (address : Nat) : Option NptView :=
  tableView nptm.memory 3 (page4kbCount nptm.ncr3) address

section View

variable {nptm nptm' : SvmCustomNptManager}

theorem restrict_tableEntry (phys : Nat) : (tableEntry phys).restrict = id := by
  funext view
  simp [NptEntry.restrict, tableEntry, NptEntry.setBase]

/-- A walk goes through an entry that points to a table as if it were not there. -/
theorem tableView_tableEntry {memory : Radix.Frames NptEntry} {level frame address phys : Nat}
    (hentry : memory frame (Radix.index (level + 1) address) = tableEntry phys) :
    tableView memory (level + 1) frame address =
      tableView memory level (nptFormat.child (tableEntry phys)) address := by
  rw [tableView_succ, hentry]
  simp only [leaf_tableEntry, restrict_tableEntry, Option.map_id]
  rfl

theorem tableView_eq (hwf : nptm.Wf) {depth level frame address : Nat} (hdepth : depth + level = 3)
    (hframe : Radix.reach nptFormat nptm.memory 3 (page4kbCount nptm.ncr3) depth
      (Radix.region (level + 1) address) = some frame) :
    tableView nptm.memory level frame address =
      (Radix.reach nptFormat nptm.memory 3 (page4kbCount nptm.ncr3) 3
        (Radix.region 1 address)).bind (pageView nptm.memory address) := by
  induction level generalizing depth frame with
  | zero =>
      obtain rfl : depth = 3 := by omega
      rw [tableView_zero, hframe]
      rfl
  | succ level ih =>
      have hdown : Radix.reach nptFormat nptm.memory 3 (page4kbCount nptm.ncr3) depth
          (Radix.region (level + 1) address / 512) = some frame := by
        rw [← Radix.region_succ]
        exact hframe
      have hnext := Radix.reach_succ_of_some hdown
      have hkind := hwf.tree.entries depth (by omega) _ frame _ hframe
        (Radix.index_lt (level + 1) address)
      rw [show Radix.region (level + 1) address % 512 = Radix.index (level + 1) address from rfl]
        at hnext
      rcases hkind with hempty | ⟨child, hchild⟩
      · rw [hempty, isTable_empty, if_neg Bool.false_ne_true, Nat.add_comm level 1,
          ← Radix.region_div_pow] at hnext
        have hnone := Radix.reach_add_of_none hnext
        rw [show depth + 1 + level = 3 by omega] at hnone
        rw [tableView_succ, hempty, hnone]
        rfl
      · rw [hchild, isTable_tableEntry, if_pos rfl] at hnext
        rw [tableView_tableEntry hchild]
        exact ih (by omega) hnext

/-- A walk gives what the page entry says in the table it comes to, if it comes to one. -/
theorem view_eq (hwf : nptm.Wf) {address : Nat} (haddress : address < 2 ^ 48) :
    nptm.view address =
      (nptm.reached 0 (page2mbCount address)).bind (pageView nptm.memory address) := by
  refine tableView_eq hwf (show 0 + 3 = 3 from rfl) ?_
  rw [Radix.reach_zero, NptManager.region_four haddress, if_pos rfl]

theorem view_congr (hwf : nptm.Wf) (hwf' : nptm'.Wf)
    (hreached : ∀ r, nptm'.reached 0 r = nptm.reached 0 r)
    (hsame : ∀ r frame i, nptm.reached 0 r = some frame → nptm'.memory frame i = nptm.memory frame i)
    {address : Nat} (haddress : address < 2 ^ 48) : nptm'.view address = nptm.view address := by
  rw [view_eq hwf haddress, view_eq hwf' haddress, hreached]
  cases hframe : nptm.reached 0 (page2mbCount address) with
  | none => rfl
  | some frame =>
      simp only [Option.bind_some]
      unfold pageView
      rw [hsame _ _ _ hframe]

end View

/-- One more table is listed, of a region that had none, and linked or left aside. No walk finds a
page in it. -/
structure Grows (nptm nptm' : SvmCustomNptManager) (level r frame : Nat) (linked : Bool) :
    Prop where
  wf : nptm'.Wf
  described : nptm'.described = nptm.described.extend level r frame
  reached : ∀ level' ≤ 3, ∀ r', nptm'.reached level' r' =
    if linked = true ∧ level' = level ∧ r' = r then some frame else nptm.reached level' r'
  view : ∀ address < 2 ^ 48, nptm'.view address = nptm.view address

section Grows

variable {nptm nptm' : SvmCustomNptManager} {gpa frame level r R i parent : Nat} {linked : Bool}
  {table : Nat → NptEntry}

theorem unreached_of_undescribed (hwf : nptm.Wf) (hlevel : level ≤ 3)
    (hnone : nptm.described level r = none) : nptm.reached level r = none := by
  cases hreached : nptm.reached level r with
  | none => rfl
  | some frame =>
      rw [hwf.sound hlevel hreached] at hnone
      cases hnone

theorem view_fill (hwf : nptm.Wf) (hwf' : nptm'.Wf) (hunused : ¬nptm.Used frame)
    (hmemory : nptm'.memory = nptm.memory.fill frame table) (hncr3 : nptm'.ncr3 = nptm.ncr3)
    {address : Nat} (haddress : address < 2 ^ 48) : nptm'.view address = nptm.view address := by
  have hreached : ∀ r, nptm'.reached 0 r = nptm.reached 0 r := by
    intro r
    unfold SvmCustomNptManager.reached
    rw [hmemory, hncr3]
    exact reached_fill hwf hunused r
  refine view_congr hwf hwf' hreached (fun r f i hf => ?_) haddress
  rw [hmemory]
  refine Radix.Frames.fill_of_ne fun heq => ?_
  exact hunused ⟨0, r, heq ▸ hwf.sound (by omega) hf⟩

theorem pushPdpte_grows (hwf : nptm.Wf) (hnone : nptm.findPdpte gpa = none)
    (hunused : ¬nptm.Used frame) (hframe : frame < 2 ^ 40) :
    Grows nptm (nptm.pushPdpte gpa frame) 2 (page512gbCount gpa) frame false where
  wf := hwf.pushPdpte hnone hunused hframe
  described := described_pushPdpte hwf hnone
  reached _ _ r' := reached_fill hwf hunused r'
  view _ := view_fill hwf (hwf.pushPdpte hnone hunused hframe) hunused rfl rfl

theorem pushPde_grows (hwf : nptm.Wf) (hnone : nptm.findPde gpa = none)
    (hunused : ¬nptm.Used frame) (hframe : frame < 2 ^ 40) :
    Grows nptm (nptm.pushPde gpa frame table) 1 (page1gbCount gpa) frame false where
  wf := hwf.pushPde hnone hunused hframe
  described := described_pushPde hwf hnone
  reached _ _ r' := reached_fill hwf hunused r'
  view _ := view_fill hwf (hwf.pushPde hnone hunused hframe) hunused rfl rfl

theorem pushPte_grows (hwf : nptm.Wf) (hnone : nptm.findPte gpa = none)
    (hunused : ¬nptm.Used frame) (hframe : frame < 2 ^ 40) :
    Grows nptm (nptm.pushPte gpa frame table) 0 (page2mbCount gpa) frame false where
  wf := hwf.pushPte hnone hunused hframe
  described := described_pushPte hwf hnone
  reached _ _ r' := reached_fill hwf hunused r'
  view _ := view_fill hwf (hwf.pushPte hnone hunused hframe) hunused rfl rfl

theorem Grows.described_self (h : Grows nptm nptm' level r frame linked) :
    nptm'.described level r = some frame := by
  rw [h.described, Radix.Layout.extend_self]

/-- Linking the table that was listed last. A last-level table must not map a page. -/
theorem Grows.link (h : Grows nptm nptm' level r frame false) (hr : r = 512 * R + i)
    (hlevel : level < 3) (hparent : nptm.reached (level + 1) R = some parent) (hi : i < 512)
    (hunreached : nptm.reached level r = none)
    (hempty : level ≠ 0 → ∀ j < 512, nptm'.memory frame j = {})
    (hpages : level = 0 → ∀ j < 512, (nptm'.memory frame j).present = false) :
    Grows nptm (nptm'.link parent i frame) level r frame true := by
  subst hr
  have hkept : ∀ level' ≤ 3, ∀ r', nptm'.reached level' r' = nptm.reached level' r' :=
    fun level' hlevel' r' => (h.reached level' hlevel' r').trans (if_neg (by simp))
  have hlinkable : nptm'.Linkable level R i parent frame :=
    { level_lt := hlevel
      parentReached := (hkept _ (by omega) R).trans hparent
      index_lt := hi
      childDescribed := h.described_self
      childUnreached := (hkept _ (by omega) _).trans hunreached
      empty := hempty }
  have hparent' := h.wf.sound (by omega) hlinkable.parentReached
  have hwf := h.wf.link hlinkable
  have hreached := reached_link h.wf hlinkable
  refine ⟨hwf, h.described, fun level' hlevel' r' => ?_, fun address haddress => ?_⟩
  · rw [hreached level' r' hlevel', hkept level' hlevel']
    simp
  · have hsame : ∀ r f j, nptm'.described 0 r = some f →
        (nptm'.link parent i frame).memory f j = nptm'.memory f j := by
      intro r f j hf
      refine Radix.Frames.set_of_frame_ne fun heq => ?_
      have := (h.wf.tree.disjoint _ _ _ _ _ (heq ▸ hf) hparent').1
      omega
    rw [← h.view address haddress, view_eq hwf haddress, view_eq h.wf haddress,
      hreached 0 _ (by omega)]
    split
    · rename_i heq
      obtain ⟨rfl, hregion⟩ := heq
      rw [hregion, hlinkable.childUnreached, Option.bind_none, Option.bind_some]
      unfold pageView
      rw [hsame _ _ _ h.described_self, hpages rfl (pteOffset address) (Nat.mod_lt _ (by decide))]
      rfl
    · cases hframe : nptm'.reached 0 (page2mbCount address) with
      | none => rfl
      | some f =>
          rw [Option.bind_some, Option.bind_some]
          unfold pageView
          rw [hsame _ _ _ (h.wf.sound (by omega) hframe)]

/-- Pointing an entry of a table left aside to the table that was listed last. -/
theorem Grows.link_aside {upper : Nat} (h : Grows nptm nptm' level r frame false)
    (hupper : upper ≠ 0) (hupper' : upper ≤ 3)
    (hparent : nptm'.described upper R = some parent)
    (hunreached : nptm.reached upper R ≠ some parent) :
    Grows nptm (nptm'.setEntry parent i (tableEntry (page4kbMult frame))) level r frame false := by
  have hkept : ∀ level' ≤ 3, ∀ r', nptm'.reached level' r' = nptm.reached level' r' :=
    fun level' hlevel' r' => (h.reached level' hlevel' r').trans (if_neg (by simp))
  have hunreached' : nptm'.reached upper R ≠ some parent := by
    rw [hkept upper hupper']
    exact hunreached
  have hwf : (nptm'.setEntry parent i (tableEntry (page4kbMult frame))).Wf :=
    h.wf.setEntry_of_unreached hparent hunreached'
  have hreached : ∀ level' r',
      (nptm'.setEntry parent i (tableEntry (page4kbMult frame))).reached level' r' =
        nptm'.reached level' r' :=
    reached_setEntry_of_unreached h.wf hparent hunreached'
  refine ⟨hwf, h.described, fun level' hlevel' r' => ?_, fun address haddress => ?_⟩
  · rw [hreached level' r', h.reached level' hlevel']
  · rw [← h.view address haddress]
    refine view_congr h.wf hwf (hreached 0) (fun r f j hf => ?_) haddress
    refine Radix.Frames.set_of_frame_ne fun heq => ?_
    have := (h.wf.tree.disjoint _ _ _ _ _ (heq ▸ h.wf.sound (by omega) hf) hparent).1
    omega

theorem Grows.complete (h : Grows nptm nptm' level r frame true) {level' : Nat}
    (hlevel' : level' ≤ 3) (hcomplete : nptm.Complete level') : nptm'.Complete level' := by
  intro r'
  rw [h.reached level' hlevel', h.described, Radix.Layout.extend, hcomplete r']
  simp

theorem Grows.complete_of_ne (h : Grows nptm nptm' level r frame linked) {level' : Nat}
    (hlevel' : level' ≤ 3) (hne : level' ≠ level) (hcomplete : nptm.Complete level') :
    nptm'.Complete level' := by
  intro r'
  rw [h.reached level' hlevel', h.described, if_neg (fun hnew => hne hnew.2.1),
    Radix.Layout.extend_of_ne (fun hnew => hne hnew.1)]
  exact hcomplete r'

end Grows

end NoirVisor.SvmCustomNptManager
