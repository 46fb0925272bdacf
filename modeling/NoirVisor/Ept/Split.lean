import NoirVisor.Ept.Layout

/-!
# Splitting a 1 GiB page

A page that has a table already is left alone by a split. A whole page gets a table whose entries
map what the page mapped, with its memory type.
-/

namespace NoirVisor.EptManager

/-- A whole 1 GiB page with its table in a new frame. -/
def splitHuge (eptm : EptManager) (gpa frame : Nat) : EptManager :=
  let pdpte := eptm.pdpt (page1gbCount gpa)
  let (d, pushed) := eptm.pushPde gpa frame pdpte
  pushed.setPdpte (page1gbCount gpa) (pdpte.toTable d.phys)

section Huge

variable {eptm : EptManager} {gpa frame : Nat}

theorem layout_splitHuge (hnone : eptm.layout 1 (page1gbCount gpa) = none) :
    (eptm.splitHuge gpa frame).layout = eptm.layout.extend 1 (page1gbCount gpa) frame := by
  funext level r
  match level with
  | 0 | _ + 2 => simp [layout, splitHuge, pushPde, setPdpte, Radix.Layout.extend]
  | 1 =>
      refine (Radix.tableOf_append (by decide) ?_ hnone r).trans ?_
      · simp only [page2mbSize, page1gbSize]
        omega
      · rw [frame_mk]
        simp [layout, Radix.Layout.extend]

theorem pde_splitHuge :
    (eptm.splitHuge gpa frame).pde =
      eptm.pde ++ [⟨page4kbMult frame, page1gbCount gpa * 512 * page2mbSize⟩] := rfl

theorem pdpt_splitHuge :
    (eptm.splitHuge gpa frame).pdpt = Function.update eptm.pdpt (page1gbCount gpa)
      ((eptm.pdpt (page1gbCount gpa)).toTable (page4kbMult frame)) := rfl

theorem memory_splitHuge :
    (eptm.splitHuge gpa frame).memory = eptm.memory.fill frame
      (splitLargeEntry (eptm.pdpt (page1gbCount gpa)) (page1gbCount gpa * 512)) := by
  change eptm.memory.fill (EptDescriptor.frame _) _ = _
  rw [frame_mk]

/-- The frames of the layout are not the new one. -/
theorem memory_splitHuge_of_used {frame' level r : Nat} (hunused : ¬eptm.Used frame)
    (hframe' : eptm.layout level r = some frame') (i : Nat) :
    (eptm.splitHuge gpa frame).memory frame' i = eptm.memory frame' i := by
  rw [memory_splitHuge]
  exact Radix.Frames.fill_of_ne fun heq => hunused ⟨level, r, heq ▸ hframe'⟩

theorem Wf.splitHuge (hwf : eptm.Wf) (hgpa : gpa < 2 ^ 48)
    (hhuge : (eptm.pdpt (page1gbCount gpa)).large = true) (hunused : ¬eptm.Used frame)
    (hframe : frame < 2 ^ 40) : (eptm.splitHuge gpa frame).Wf := by
  have hnone := (hwf.huge _ (page1gbCount_lt_of_lt hgpa) hhuge).1
  constructor
  case pdeAligned =>
    intro d hd
    rw [pde_splitHuge, List.mem_append, List.mem_singleton] at hd
    rcases hd with hd | rfl
    · exact hwf.pdeAligned d hd
    · simp only [page2mbSize, page1gbSize]
      omega
  case pteAligned => exact hwf.pteAligned
  case disjoint =>
    rw [layout_splitHuge hnone]
    exact hwf.disjoint.extend fun l r h => hunused ⟨l, r, h⟩
  case inRange =>
    intro level r f hf
    rw [layout_splitHuge hnone, Radix.Layout.extend] at hf
    split at hf
    · exact Option.some.inj hf ▸ hframe
    · exact hwf.inRange _ _ _ hf
  case huge =>
    intro k hk
    rw [layout_splitHuge hnone, pdpt_splitHuge]
    by_cases heq : k = page1gbCount gpa
    · subst heq
      rw [Function.update_self]
      rintro ⟨⟩
    · rw [Function.update_of_ne heq, Radix.Layout.extend_of_ne fun h => heq h.2]
      exact hwf.huge k hk
  case table =>
    intro k hk
    rw [layout_splitHuge hnone, pdpt_splitHuge]
    by_cases heq : k = page1gbCount gpa
    · subst heq
      rw [Function.update_self, Radix.Layout.extend_self]
      have hpoints : ((eptm.pdpt (page1gbCount gpa)).toTable (page4kbMult frame)).PointsTo _ :=
        EptEntry.pointsTo_toTable (d := ⟨page4kbMult frame, 0⟩) (by rwa [frame_mk])
      rw [frame_mk] at hpoints
      exact fun _ => ⟨frame, rfl, hpoints⟩
    · rw [Function.update_of_ne heq, Radix.Layout.extend_of_ne fun h => heq h.2]
      exact hwf.table k hk
  case pde =>
    intro k g i hg hi
    rw [layout_splitHuge hnone, Radix.Layout.extend_of_ne fun h => absurd h.1 Nat.zero_ne_one]
    rw [layout_splitHuge hnone, Radix.Layout.extend] at hg
    split at hg
    · obtain rfl := Option.some.inj hg
      rw [memory_splitHuge, Radix.Frames.fill_self]
      rintro ⟨⟩
    · rw [memory_splitHuge_of_used hunused hg]
      exact hwf.pde k g i hg hi

/-- A split takes nothing away from any address: its entry maps what the page mapped. -/
theorem Wf.walk_splitHuge (hwf : eptm.Wf) (hgpa : gpa < 2 ^ 48)
    (hhuge : (eptm.pdpt (page1gbCount gpa)).large = true) (hunused : ¬eptm.Used frame)
    (hframe : frame < 2 ^ 40) {address : Nat} (haddress : address < 2 ^ 48) :
    (eptm.splitHuge gpa frame).walk address =
      if page1gbCount address = page1gbCount gpa then
        (splitLargeEntry (eptm.pdpt (page1gbCount gpa)) (page1gbCount gpa * 512)
          (pageEntryIndex64 (page2mbCount address)), 1)
      else eptm.walk address := by
  have hnone := (hwf.huge _ (page1gbCount_lt_of_lt hgpa) hhuge).1
  split
  · next heq =>
      have htable : (eptm.splitHuge gpa frame).layout 1 (page1gbCount address) = some frame := by
        rw [layout_splitHuge hnone, heq, Radix.Layout.extend_self]
      rw [(hwf.splitHuge hgpa hhuge hunused hframe).walk_of_table haddress htable, memory_splitHuge]
      simp [splitLargeEntry]
  · next hne =>
      refine hwf.walk_congr haddress ?_ (fun g hg => memory_splitHuge_of_used hunused hg _)
        fun g hg => memory_splitHuge_of_used hunused hg _
      rw [pdpt_splitHuge, Function.update_of_ne hne]

theorem Wf.leaf_splitHuge (hwf : eptm.Wf) (hgpa : gpa < 2 ^ 48)
    (hhuge : (eptm.pdpt (page1gbCount gpa)).large = true) (hunused : ¬eptm.Used frame)
    (hframe : frame < 2 ^ 40) {address : Nat} (haddress : address < 2 ^ 48) :
    (eptm.splitHuge gpa frame).leaf address = eptm.leaf address := by
  unfold leaf
  rw [hwf.walk_splitHuge hgpa hhuge hunused hframe haddress]
  split
  · next heq =>
      obtain ⟨hread, hwrite, hexecute, hbase⟩ :=
        (hwf.huge _ (page1gbCount_lt_of_lt hgpa) hhuge).2
      have hlt := page1gbCount_lt_of_lt haddress
      rw [← heq] at hhuge hread hwrite hexecute hbase
      rw [Wf.walk_of_huge hhuge, ← heq]
      simp only [EptEntry.leaf, splitLargeEntry, EptEntry.setLargePageOffset, EptLeaf.mk.injEq,
        hread, hwrite, hexecute, hbase, and_true]
      simp only [page4kbCount, page1gbCount, page2mbCount, pageEntryIndex64] at hlt ⊢
      omega
  · rfl

end Huge

section Specs

variable {eptm : EptManager} {gpa : Nat}

theorem pdpte_of_lt (hgpa : gpa < 2 ^ 48) (eptm : EptManager) :
    eptm.pdpte (page1gbCount gpa) = .ok (eptm.pdpt (page1gbCount gpa)) :=
  if_pos (page1gbCount_lt_of_lt hgpa)

theorem setPdpte_self (k : Nat) : eptm.setPdpte k (eptm.pdpt k) = eptm := by
  rw [setPdpte, Function.update_eq_self]

/-- A page with a table stays as it is. -/
theorem nvcEptSplitPdpte_of_table (hwf : eptm.Wf) (hgpa : gpa < 2 ^ 48)
    (htable : (eptm.pdpt (page1gbCount gpa)).large = false) (alloc : Bool) :
    ∃ d, eptm.layout 1 (page1gbCount gpa) = some d.frame ∧
      nvcEptSplitPdpte eptm gpa true alloc = .ok (.valid d, eptm) := by
  obtain ⟨frame, hframe, hpoints⟩ := hwf.table _ (page1gbCount_lt_of_lt hgpa) htable
  have hfind := hframe
  rw [hwf.layout_one, Option.map_eq_some_iff] at hfind
  obtain ⟨d, hfound, rfl⟩ := hfind
  refine ⟨d, hframe, ?_⟩
  have hsame := hpoints.toTable (hwf.inRange _ _ _ hframe)
  simp only [nvcEptSplitPdpte, describePde, hfound, pure_bind, if_true, pdpte_of_lt hgpa, Outcome.ok_bind,
    Pointer.deref, hsame, setPdpte_self]
  rfl

theorem nvcEptSplitPdpte_of_huge (hwf : eptm.Wf) (hgpa : gpa < 2 ^ 48)
    (hhuge : (eptm.pdpt (page1gbCount gpa)).large = true)
    (hfresh : eptm.allocator.Fresh eptm.Used) (hgenerous : eptm.allocator.Generous 1) :
    ∃ d allocator, ¬eptm.Used d.frame ∧ d.frame < 2 ^ 40 ∧
      nvcEptSplitPdpte eptm gpa true true =
        .ok (.valid d, { eptm.splitHuge gpa d.frame with allocator }) := by
  have hnone := (hwf.huge _ (page1gbCount_lt_of_lt hgpa) hhuge).1
  rw [hwf.layout_one, Option.map_eq_none_iff] at hnone
  obtain ⟨hnonpg, hcontd⟩ := hgenerous 0 Nat.one_pos
  obtain ⟨frame, hframe⟩ := Option.ne_none_iff_exists'.mp hcontd
  refine ⟨⟨page4kbMult frame, page1gbCount gpa * 512 * page2mbSize⟩, eptm.allocator.next, ?_⟩
  rw [frame_mk]
  refine ⟨hfresh.unused 0 frame hframe, hfresh.inRange 0 frame hframe, ?_⟩
  simp only [nvcEptSplitPdpte, describePde, hnone, newPde, Allocator.noirAllocNonpgMemory,
    Allocator.noirAllocContdMemory, hnonpg, hframe, if_true, pdpte_of_lt hgpa, Outcome.ok_bind,
    pure_bind, Pointer.deref]
  rfl

end Specs

end NoirVisor.EptManager
