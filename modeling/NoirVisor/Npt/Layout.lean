import NoirVisor.Npt.Manager

/-!
# The layout of the host's tables

The frames of the PML4Es and PDPTEs are fixed; below them the two descriptor lists say which frame
holds the table of which region. A well-formed manager keeps every table entry pointing to the table
its lists describe, and no two tables in one frame.
-/

namespace NoirVisor.NptManager

def layout (nptm : NptManager) : Radix.Layout
  | 0, r => (nptm.findPte (r * page2mbSize)).map NptDescriptor.frame
  | 1, r => (nptm.findPde (r * page1gbSize)).map NptDescriptor.frame
  | 2, r => if r < 512 then some (page4kbCount nptm.pdpt + r) else none
  | 3, r => if r = 0 then some (page4kbCount nptm.ncr3) else none
  | _, _ => none

def Used (nptm : NptManager) (frame : Nat) : Prop := ∃ level r, nptm.layout level r = some frame

structure Wf (nptm : NptManager) : Prop where
  pml4e : ∀ i < 512, nptm.memory (page4kbCount nptm.ncr3) i = identityPml4e nptm.pdpt i
  pdeAligned : Radix.Aligned NptDescriptor.gpaStart page1gbSize nptm.pde
  pteAligned : Radix.Aligned NptDescriptor.gpaStart page2mbSize nptm.pte
  disjoint : Radix.Disjoint nptm.layout
  linked : Radix.Linked nptFormat nptm.layout nptm.memory
  inRange : ∀ level r frame, nptm.layout level r = some frame → frame < 2 ^ 40
  described : ∀ r frame, nptm.layout 0 r = some frame → ∃ f, nptm.layout 1 (r / 512) = some f
  pdeListed : ∀ d ∈ nptm.pde, nptm.layout 1 (page1gbCount d.gpaStart) = some d.frame
  pteListed : ∀ t ∈ nptm.pte, nptm.layout 0 (page2mbCount t.gpaStart) = some t.frame
  pdptAligned : page4kbCount nptm.pdpt % 512 = 0

/-- A well-formed manager whose allocations to come avoid the frames of `used`, among them all its
own. -/
structure Ready (nptm : NptManager) (used : Nat → Prop) : Prop where
  wf : nptm.Wf
  fresh : nptm.allocator.Fresh used
  own : ∀ frame, nptm.Used frame → used frame

@[simp]
theorem frame_mk (frame gpaStart : Nat) :
    NptDescriptor.frame { phys := page4kbMult frame, gpaStart } = frame := by
  simp [NptDescriptor.frame, page4kbCount, page4kbMult]

/-! The processor's division of an address and the macros of the source are the same. -/

theorem region_zero (address : Nat) : Radix.region 0 address = page4kbCount address := rfl
theorem region_one (address : Nat) : Radix.region 1 address = page2mbCount address := rfl
theorem region_two (address : Nat) : Radix.region 2 address = page1gbCount address := rfl
theorem region_three (address : Nat) : Radix.region 3 address = page512gbCount address := rfl

theorem region_four {address : Nat} (haddress : address < 2 ^ 48) :
    Radix.region 4 address = 0 := by
  rw [Radix.region]
  omega

theorem page1gbCount_lt {address : Nat} (haddress : address < 2 ^ 48) :
    page1gbCount address < 512 * 512 := by
  unfold page1gbCount
  omega

theorem lt_of_page1gbCount_lt {address : Nat} (h : page1gbCount address < 512 * 512) :
    address < 2 ^ 48 := by
  unfold page1gbCount at h
  omega

section Lookup

variable {nptm : NptManager}

theorem layout_one (haligned : Radix.Aligned NptDescriptor.gpaStart page1gbSize nptm.pde)
    (gpa : Nat) : nptm.layout 1 (page1gbCount gpa) = (nptm.findPde gpa).map NptDescriptor.frame := by
  simp only [layout, findPde]
  rw [Radix.covering_congr (by decide) haligned]
  simp only [page1gbCount, page1gbSize]
  omega

theorem layout_zero (haligned : Radix.Aligned NptDescriptor.gpaStart page2mbSize nptm.pte)
    (gpa : Nat) : nptm.layout 0 (page2mbCount gpa) = (nptm.findPte gpa).map NptDescriptor.frame := by
  simp only [layout, findPte]
  rw [Radix.covering_congr (by decide) haligned]
  simp only [page2mbCount, page2mbSize]
  omega

theorem layout_two {k : Nat} (hk : k < 512 * 512) :
    nptm.layout 2 (k / 512) = some (nptm.pdpteFrame k) := by
  simp only [layout, pdpteFrame]
  rw [if_pos (by omega)]

end Lookup

/-! ### The three ways memory changes

An entry is written, or the table of a region not described yet is added at one of the two lower
levels. -/

section Changes

variable {nptm : NptManager}

@[simp]
theorem layout_modifyEntry (frame i : Nat) (f : NptEntry → NptEntry) :
    (nptm.modifyEntry frame i f).layout = nptm.layout := rfl

@[simp]
theorem layout_allocator (allocator : Allocator) :
    NptManager.layout { nptm with allocator } = nptm.layout := rfl

theorem layout_pushPde {gpa frame : Nat}
    (haligned : Radix.Aligned NptDescriptor.gpaStart page1gbSize nptm.pde)
    (hnone : nptm.findPde gpa = none) :
    (nptm.pushPde gpa frame).2.layout = nptm.layout.extend 1 (page1gbCount gpa) frame := by
  have hlayout := layout_one haligned gpa
  rw [hnone] at hlayout
  funext level r
  match level with
  | 0 | 2 | 3 | _ + 4 => simp [layout, Radix.Layout.extend, findPte, pushPde]
  | 1 =>
      simp only [layout, findPde, pushPde]
      rw [Radix.covering_append (by decide) (by simp only [page2mbSize, page1gbSize]; omega)]
      by_cases hr : r = page1gbCount gpa
      · subst hr
        rw [if_pos (by simp only [page2mbSize, page1gbSize]; omega), Radix.Layout.extend_self]
        simp only [layout, findPde, Option.map_none, Option.map_eq_none_iff] at hlayout
        rw [hlayout]
        simp
      · rw [if_neg (by simp only [page2mbSize, page1gbSize]; omega),
          Radix.Layout.extend_of_ne fun h => hr h.2]
        rfl

theorem layout_pushPte {gpa frame : Nat}
    (haligned : Radix.Aligned NptDescriptor.gpaStart page2mbSize nptm.pte)
    (hnone : nptm.findPte gpa = none) :
    (nptm.pushPte gpa frame).2.layout = nptm.layout.extend 0 (page2mbCount gpa) frame := by
  have hlayout := layout_zero haligned gpa
  rw [hnone] at hlayout
  funext level r
  match level with
  | 1 | 2 | 3 | _ + 4 => simp [layout, Radix.Layout.extend, findPde, pushPte]
  | 0 =>
      simp only [layout, findPte, pushPte]
      rw [Radix.covering_append (by decide) (by simp only [page4kbSize, page2mbSize]; omega)]
      by_cases hr : r = page2mbCount gpa
      · subst hr
        rw [if_pos (by simp only [page4kbSize, page2mbSize]; omega), Radix.Layout.extend_self]
        simp only [layout, findPte, Option.map_none, Option.map_eq_none_iff] at hlayout
        rw [hlayout]
        simp
      · rw [if_neg (by simp only [page4kbSize, page2mbSize]; omega),
          Radix.Layout.extend_of_ne fun h => hr h.2]
        rfl

theorem Wf.allocator (hwf : nptm.Wf) (allocator : Allocator) :
    NptManager.Wf { nptm with allocator } :=
  ⟨hwf.pml4e, hwf.pdeAligned, hwf.pteAligned, hwf.disjoint, hwf.linked, hwf.inRange, hwf.described,
    hwf.pdeListed, hwf.pteListed, hwf.pdptAligned⟩

/-- Writing below the PML4Es keeps a manager well formed when a table entry written is the one for
the table described there. -/
theorem Wf.modifyEntry {level r frame i : Nat} {f : NptEntry → NptEntry} (hwf : nptm.Wf)
    (htable : nptm.layout level r = some frame) (hlevel : level ≠ 3)
    (hentry : ∀ l, level = l + 1 → nptFormat.isTable level (f (nptm.memory frame i)) = true →
      nptm.layout l (512 * r + i) = some (f (nptm.memory frame i)).base) :
    (nptm.modifyEntry frame i f).Wf where
  pml4e j hj := by
    have hroot : nptm.layout 3 0 = some (page4kbCount nptm.ncr3) := rfl
    have hne : page4kbCount nptm.ncr3 ≠ frame := by
      rintro rfl
      exact hlevel (hwf.disjoint _ _ _ _ _ htable hroot).1
    exact (Radix.Frames.set_of_frame_ne hne).trans (hwf.pml4e j hj)
  pdeAligned := hwf.pdeAligned
  pteAligned := hwf.pteAligned
  disjoint := hwf.disjoint
  linked := hwf.linked.set hwf.disjoint htable hentry
  inRange := hwf.inRange
  described := hwf.described
  pdeListed := hwf.pdeListed
  pteListed := hwf.pteListed
  pdptAligned := hwf.pdptAligned

theorem Wf.pushPde {gpa frame : Nat} (hwf : nptm.Wf) (hnone : nptm.findPde gpa = none)
    (hunused : ¬nptm.Used frame) (hframe : frame < 2 ^ 40) : (nptm.pushPde gpa frame).2.Wf where
  pml4e j hj := by
    have hne : page4kbCount nptm.ncr3 ≠ frame := by
      rintro rfl
      exact hunused ⟨3, 0, rfl⟩
    simp only [NptManager.pushPde, frame_mk]
    exact (Radix.Frames.fill_of_ne hne).trans (hwf.pml4e j hj)
  pdeAligned d hd := by
    simp only [NptManager.pushPde, List.mem_append, List.mem_singleton] at hd
    rcases hd with hd | rfl
    · exact hwf.pdeAligned d hd
    · simp only [page2mbSize, page1gbSize]
      omega
  pteAligned := hwf.pteAligned
  disjoint := by
    rw [layout_pushPde hwf.pdeAligned hnone]
    exact hwf.disjoint.extend fun l r h => hunused ⟨l, r, h⟩
  linked := by
    rw [layout_pushPde hwf.pdeAligned hnone]
    simp only [NptManager.pushPde, frame_mk]
    refine hwf.linked.extend ?_ (fun l r h => hunused ⟨l, r, h⟩) fun l _ i _ => ?_
    · rw [layout_one hwf.pdeAligned, hnone]
      rfl
    · simp [Radix.Format.isTable, nptFormat, splitLargeEntry]
  inRange level r f hf := by
    rw [layout_pushPde hwf.pdeAligned hnone, Radix.Layout.extend] at hf
    split at hf
    · exact Option.some.inj hf ▸ hframe
    · exact hwf.inRange _ _ _ hf
  described r f hf := by
    rw [layout_pushPde hwf.pdeAligned hnone] at hf ⊢
    rw [Radix.Layout.extend_of_ne (by simp)] at hf
    obtain ⟨g, hg⟩ := hwf.described r f hf
    refine ⟨g, Radix.Layout.extend_of_some ?_ hg⟩
    rw [layout_one hwf.pdeAligned, hnone]
    rfl
  pdeListed d hd := by
    rw [layout_pushPde hwf.pdeAligned hnone]
    simp only [NptManager.pushPde, List.mem_append, List.mem_singleton] at hd
    rcases hd with hd | rfl
    · refine Radix.Layout.extend_of_some ?_ (hwf.pdeListed d hd)
      rw [layout_one hwf.pdeAligned, hnone]
      rfl
    · have hregion : page1gbCount (page1gbCount gpa * 512 * page2mbSize) = page1gbCount gpa := by
        simp only [page1gbCount, page2mbSize]
        omega
      rw [hregion, frame_mk, Radix.Layout.extend_self]
  pteListed t ht := by
    rw [layout_pushPde hwf.pdeAligned hnone, Radix.Layout.extend_of_ne (by simp)]
    exact hwf.pteListed t ht
  pdptAligned := hwf.pdptAligned

theorem Wf.pushPte {gpa frame : Nat} {d : NptDescriptor} (hwf : nptm.Wf)
    (hpde : nptm.findPde gpa = some d) (hnone : nptm.findPte gpa = none)
    (hunused : ¬nptm.Used frame) (hframe : frame < 2 ^ 40) : (nptm.pushPte gpa frame).2.Wf where
  pml4e j hj := by
    have hne : page4kbCount nptm.ncr3 ≠ frame := by
      rintro rfl
      exact hunused ⟨3, 0, rfl⟩
    simp only [NptManager.pushPte, frame_mk]
    exact (Radix.Frames.fill_of_ne hne).trans (hwf.pml4e j hj)
  pdeAligned := hwf.pdeAligned
  pteAligned t ht := by
    simp only [NptManager.pushPte, List.mem_append, List.mem_singleton] at ht
    rcases ht with ht | rfl
    · exact hwf.pteAligned t ht
    · simp only [page4kbSize, page2mbSize]
      omega
  disjoint := by
    rw [layout_pushPte hwf.pteAligned hnone]
    exact hwf.disjoint.extend fun l r h => hunused ⟨l, r, h⟩
  linked := by
    rw [layout_pushPte hwf.pteAligned hnone]
    simp only [NptManager.pushPte, frame_mk]
    refine hwf.linked.extend ?_ (fun l r h => hunused ⟨l, r, h⟩) fun l hl => by omega
    rw [layout_zero hwf.pteAligned, hnone]
    rfl
  inRange level r f hf := by
    rw [layout_pushPte hwf.pteAligned hnone, Radix.Layout.extend] at hf
    split at hf
    · exact Option.some.inj hf ▸ hframe
    · exact hwf.inRange _ _ _ hf
  described r f hf := by
    rw [layout_pushPte hwf.pteAligned hnone] at hf ⊢
    rw [Radix.Layout.extend_of_ne (by simp)]
    rw [Radix.Layout.extend] at hf
    split at hf
    · rename_i heq
      obtain ⟨-, rfl⟩ := heq
      refine ⟨d.frame, ?_⟩
      have hregion : page2mbCount gpa / 512 = page1gbCount gpa := by
        simp only [page2mbCount, page1gbCount]
        omega
      rw [hregion, layout_one hwf.pdeAligned, hpde]
      rfl
    · exact hwf.described r f hf
  pdeListed d hd := by
    rw [layout_pushPte hwf.pteAligned hnone, Radix.Layout.extend_of_ne (by simp)]
    exact hwf.pdeListed d hd
  pteListed t ht := by
    rw [layout_pushPte hwf.pteAligned hnone]
    simp only [NptManager.pushPte, List.mem_append, List.mem_singleton] at ht
    rcases ht with ht | rfl
    · refine Radix.Layout.extend_of_some ?_ (hwf.pteListed t ht)
      rw [layout_zero hwf.pteAligned, hnone]
      rfl
    · have hregion : page2mbCount (page2mbCount gpa * 512 * page4kbSize) = page2mbCount gpa := by
        simp only [page2mbCount, page4kbSize]
        omega
      rw [hregion, frame_mk, Radix.Layout.extend_self]
  pdptAligned := hwf.pdptAligned

end Changes

end NoirVisor.NptManager
