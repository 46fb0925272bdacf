import NoirVisor.Transition
import NoirVisor.Ept.MemoryTypes

/-!
# Runs of the extended paging manager

A manager starts as the identity map and is changed in any order and with any arguments. Before each
change the memory manager may have any pages left to give, as long as they are not in use.
-/

namespace NoirVisor

open EptManager

inductive EptOp where
  | updatePteMemoryType (gpa : Nat) (memoryType : BitVec 8) (force : Bool)
  | updatePdeMemoryType (gpa : Nat) (memoryType : BitVec 8) (force : Bool)
  | updatePdpteMemoryType (gpa : Nat) (memoryType : BitVec 8) (force : Bool)
  | updateByFixedMtrr (fix64k fix16k fix4k : Nat → BitVec 8)
  | clearVarMtrrCovered
  | updatePde (hpa gpa : Nat) (r w x l ignoreMt : Bool) (memoryType : BitVec 8) (alloc : Bool)
  | updatePte (hpa gpa : Nat) (r w x ignoreMt : Bool) (memoryType : BitVec 8) (alloc : Bool)

def EptOp.run (eptm : EptManager) : EptOp → Outcome EptManager
  | updatePteMemoryType gpa memoryType force =>
      Prod.snd <$> eptm.nvcEptUpdatePteMemoryType memoryType force gpa
  | updatePdeMemoryType gpa memoryType force =>
      Prod.snd <$> eptm.nvcEptUpdatePdeMemoryType memoryType force gpa
  | updatePdpteMemoryType gpa memoryType force =>
      Prod.snd <$> eptm.nvcEptUpdatePdpteMemoryType memoryType force gpa
  | updateByFixedMtrr fix64k fix16k fix4k => eptm.updateByFixedMtrr fix64k fix16k fix4k
  | clearVarMtrrCovered => return eptm.clearVarMtrrCovered
  | updatePde hpa gpa r w x l ignoreMt memoryType alloc =>
      Prod.snd <$> eptm.nvcEptUpdatePde hpa gpa r w x l ignoreMt memoryType alloc
  | updatePte hpa gpa r w x ignoreMt memoryType alloc =>
      Prod.snd <$> eptm.nvcEptUpdatePte hpa gpa r w x ignoreMt memoryType alloc

namespace EptManager

/-- A well-formed manager whose allocations to come avoid the frames of `used`, among them all its
own. -/
structure Ready (eptm : EptManager) (used : Nat → Prop) : Prop where
  wf : eptm.Wf
  fresh : eptm.allocator.Fresh used
  own : ∀ frame, eptm.Used frame → used frame

/-- Tables are added, in frames that were not in use. -/
structure Grows (eptm eptm' : EptManager) (used : Nat → Prop) : Prop where
  layout : ∀ level r frame, eptm.layout level r = some frame → eptm'.layout level r = some frame
  old : ∀ frame, used frame → eptm'.Used frame → eptm.Used frame
  ready : ∃ used', (∀ frame, used frame → used' frame) ∧ eptm'.Ready used'

section Growth

variable {eptm eptm₁ eptm₂ : EptManager} {used : Nat → Prop} {frame gpa : Nat}

theorem Ready.grows (hready : eptm.Ready used) : eptm.Grows eptm used :=
  ⟨fun _ _ _ => id, fun _ _ => id, used, fun _ => id, hready⟩

theorem Grows.trans (h : eptm.Grows eptm₁ used)
    (h' : ∀ used₁, eptm₁.Ready used₁ → eptm₁.Grows eptm₂ used₁) : eptm.Grows eptm₂ used := by
  obtain ⟨used₁, hused₁, hready₁⟩ := h.ready
  have hlater := h' used₁ hready₁
  obtain ⟨used₂, hused₂, hready₂⟩ := hlater.ready
  exact ⟨fun level r frame hframe => hlater.layout level r frame (h.layout level r frame hframe),
    fun frame huse hframe => h.old frame huse (hlater.old frame (hused₁ frame huse) hframe),
    used₂, fun frame huse => hused₂ frame (hused₁ frame huse), hready₂⟩

/-- The lists and the allocations to come stay as they are. -/
theorem Ready.of_layout_eq (hready : eptm.Ready used) (hwf : eptm₁.Wf)
    (hlayout : eptm₁.layout = eptm.layout) (hallocator : eptm₁.allocator = eptm.allocator) :
    eptm₁.Ready used where
  wf := hwf
  fresh := hallocator ▸ hready.fresh
  own frame h := hready.own frame (by rwa [Used, ← hlayout])

theorem Ready.grows_of_layout_eq (hready : eptm.Ready used) (hwf : eptm₁.Wf)
    (hlayout : eptm₁.layout = eptm.layout) (hallocator : eptm₁.allocator = eptm.allocator) :
    eptm.Grows eptm₁ used where
  layout level r frame hframe := by rwa [hlayout]
  old frame _ h := by rwa [Used, ← hlayout]
  ready := ⟨used, fun _ => id, hready.of_layout_eq hwf hlayout hallocator⟩

theorem Ready.grows_allocator {allocator : Allocator} (hready : eptm.Ready used)
    (hfresh : allocator.Fresh used) : eptm.Grows { eptm with allocator } used where
  layout _ _ _ := id
  old _ _ := id
  ready := ⟨used, fun _ => id, hready.wf.allocator allocator, hfresh, hready.own⟩

/-- One table more, in the frame the memory manager gave. -/
theorem Ready.grows_extend {level r : Nat} {allocator : Allocator} (hready : eptm.Ready used)
    (hnone : eptm.layout level r = none) (hlayout : eptm₁.layout = eptm.layout.extend level r frame)
    (hwf : eptm₁.Wf) (hunused : ¬used frame) (hallocator : eptm₁.allocator = allocator)
    (hfresh : allocator.Fresh fun f => used f ∨ f = frame) : eptm.Grows eptm₁ used where
  layout level' r' frame' hframe' := by
    rw [hlayout]
    exact Radix.Layout.extend_of_some hnone hframe'
  old frame' huse hframe' := by
    obtain ⟨level', r', hframe'⟩ := hframe'
    rw [hlayout, Radix.Layout.extend] at hframe'
    split at hframe'
    · exact absurd (Option.some.inj hframe' ▸ huse) hunused
    · exact ⟨level', r', hframe'⟩
  ready := by
    refine ⟨fun f => used f ∨ f = frame, fun f => Or.inl, hwf, hallocator ▸ hfresh, ?_⟩
    rintro f ⟨level', r', hf⟩
    rw [hlayout, Radix.Layout.extend] at hf
    split at hf
    · exact Or.inr (Option.some.inj hf).symm
    · exact Or.inl (hready.own f ⟨level', r', hf⟩)

end Growth

section Specs

variable {eptm eptm' : EptManager} {used : Nat → Prop} {gpa : Nat} {alloc : Bool}
  {p : Pointer EptDescriptor} {d t : EptDescriptor}

theorem lt_of_page1gbCount_lt {gpa : Nat} (hk : page1gbCount gpa < 512 * 512) : gpa < 2 ^ 48 := by
  unfold page1gbCount at hk
  omega

theorem pdpte_eq_ok {k : Nat} {entry : EptEntry} (h : eptm.pdpte k = .ok entry) :
    k < 512 * 512 ∧ entry = eptm.pdpt k := by
  unfold pdpte at h
  split at h
  · next hk => exact ⟨hk, (Except.ok.inj h).symm⟩
  · cases h

theorem Ready.splitHuge {frame : Nat} {allocator : Allocator} (hready : eptm.Ready used)
    (hgpa : gpa < 2 ^ 48) (hhuge : (eptm.pdpt (page1gbCount gpa)).large = true)
    (hunused : ¬used frame) (hframe : frame < 2 ^ 40)
    (hfresh : allocator.Fresh fun f => used f ∨ f = frame) :
    eptm.Grows { eptm.splitHuge gpa frame with allocator } used := by
  have hnone := (hready.wf.huge _ (page1gbCount_lt_of_lt hgpa) hhuge).1
  have hnew : ¬eptm.Used frame := fun h => hunused (hready.own frame h)
  exact hready.grows_extend hnone (layout_splitHuge hnone)
    ((hready.wf.splitHuge hgpa hhuge hnew hframe).allocator _) hunused rfl hfresh

/-- A descriptor from the memory manager comes with a page that was not in use. -/
theorem fresh_contd {memory memory₁ memory₂ : Allocator} {frame : Nat} (hfresh : memory.Fresh used)
    (hnonpg : memory.noirAllocNonpgMemory = (true, memory₁))
    (hcontd : memory₁.noirAllocContdMemory = (some frame, memory₂)) :
    ¬used frame ∧ frame < 2 ^ 40 ∧ memory₂.Fresh fun f => used f ∨ f = frame := by
  refine hfresh.of_allocTable ?_ fun f => id
  simp only [Allocator.allocTable, hnonpg, hcontd]

/-- A host-mode split of a PDPTE that returns. -/
theorem nvcEptSplitPdpte_eq_ok (hready : eptm.Ready used)
    (h : nvcEptSplitPdpte eptm gpa true alloc = .ok (p, eptm')) :
    gpa < 2 ^ 48 ∧ eptm.Grows eptm' used ∧ eptm'.pte = eptm.pte ∧
      ∃ d, p = .valid d ∧ eptm'.layout 1 (page1gbCount gpa) = some d.frame := by
  have hsplit := h
  unfold nvcEptSplitPdpte at h
  obtain ⟨⟨q, described⟩, hdescribed, h⟩ := bind_eq_ok.mp h
  simp only [if_true] at h
  obtain ⟨entry, hentry, h⟩ := bind_eq_ok.mp h
  obtain ⟨d, hd, h⟩ := bind_eq_ok.mp h
  have hgpa := lt_of_page1gbCount_lt (pdpte_eq_ok hentry).1
  cases hhuge : (eptm.pdpt (page1gbCount gpa)).large with
  | false =>
      obtain ⟨d, hframe, hsame⟩ := nvcEptSplitPdpte_of_table hready.wf hgpa hhuge alloc
      obtain ⟨rfl, rfl⟩ := Prod.mk.inj (Except.ok.inj (hsame.symm.trans hsplit))
      exact ⟨hgpa, hready.grows, rfl, d, rfl, hframe⟩
  | true =>
      have hnone := (hready.wf.huge _ (page1gbCount_lt_of_lt hgpa) hhuge).1
      have hfind := hnone
      rw [hready.wf.layout_one, Option.map_eq_none_iff] at hfind
      simp only [describePde, hfind] at hdescribed
      obtain rfl := Pointer.deref_eq_ok.mp hd
      cases alloc with
      | false => cases hdescribed
      | true =>
          simp only [if_true, newPde] at hdescribed
          split at hdescribed
          · cases hdescribed
          · next allocator hnonpg =>
              split at hdescribed
              · cases hdescribed
              · next frame allocator' hcontd =>
                  obtain ⟨hunused, hframe, hfresh⟩ := fresh_contd hready.fresh hnonpg hcontd
                  rw [pdpte_of_lt hgpa, Outcome.ok_bind] at hdescribed
                  cases hdescribed
                  rw [pdpte_of_lt hgpa] at hentry
                  cases hentry
                  cases h
                  have hlayout : (eptm.splitHuge gpa frame).layout 1 (page1gbCount gpa) =
                      some (EptDescriptor.frame
                        ⟨page4kbMult frame, page1gbCount gpa * 512 * page2mbSize⟩) := by
                    rw [frame_mk, layout_splitHuge hnone, Radix.Layout.extend_self]
                  exact ⟨hgpa, hready.splitHuge hgpa hhuge hunused hframe hfresh, rfl, _, rfl,
                    hlayout⟩

theorem layout_pushPte {frame : Nat} {pde : EptEntry}
    (hnone : eptm.layout 0 (page2mbCount gpa) = none) :
    (eptm.pushPte gpa frame pde).2.layout = eptm.layout.extend 0 (page2mbCount gpa) frame := by
  funext level r
  match level with
  | 1 | _ + 2 => simp [EptManager.layout, pushPte, Radix.Layout.extend]
  | 0 =>
      refine (Radix.tableOf_append (by decide) ?_ hnone r).trans ?_
      · simp only [page2mbSize, page4kbSize]
        omega
      · rw [frame_mk]
        simp [EptManager.layout, Radix.Layout.extend]

/-- A table of PTEs that no PDE points to yet. -/
theorem Wf.pushPte {frame : Nat} {pde : EptEntry} (hwf : eptm.Wf)
    (hnone : eptm.layout 0 (page2mbCount gpa) = none) (hunused : ¬eptm.Used frame)
    (hframe : frame < 2 ^ 40) : (eptm.pushPte gpa frame pde).2.Wf := by
  have hlayout := @layout_pushPte eptm gpa frame pde hnone
  constructor
  case pdeAligned => exact hwf.pdeAligned
  case pteAligned =>
    intro t ht
    simp only [EptManager.pushPte, List.mem_append, List.mem_singleton] at ht
    rcases ht with ht | rfl
    · exact hwf.pteAligned t ht
    · simp only [page4kbSize, page2mbSize]
      omega
  case disjoint =>
    rw [hlayout]
    exact hwf.disjoint.extend fun l r h => hunused ⟨l, r, h⟩
  case inRange =>
    intro level r f hf
    rw [hlayout, Radix.Layout.extend] at hf
    split at hf
    · exact Option.some.inj hf ▸ hframe
    · exact hwf.inRange _ _ _ hf
  case huge => exact hwf.huge
  case table => exact hwf.table
  case pde =>
    intro k g i hg hi hlarge
    change eptm.layout 1 k = some g at hg
    have hsame : (eptm.pushPte gpa frame pde).2.memory g i = eptm.memory g i := by
      refine Radix.Frames.fill_of_ne fun heq => hunused ⟨1, k, ?_⟩
      rw [hg, heq, frame_mk]
    rw [hsame] at hlarge ⊢
    obtain ⟨g', hg', hpoints⟩ := hwf.pde k g i hg hi hlarge
    rw [hlayout]
    exact ⟨g', Radix.Layout.extend_of_some hnone hg', hpoints⟩

/-- The 1 GiB page around is split while the new frame is not in the layout yet. -/
theorem Ready.grows_pushPte {frame : Nat} {allocator : Allocator} {pde : EptEntry}
    (hready : eptm.Ready used) (hnone : eptm.layout 0 (page2mbCount gpa) = none)
    (hunused : ¬used frame) (hframe : frame < 2 ^ 40)
    (hgrows : EptManager.Grows { eptm with allocator } eptm' fun f => used f ∨ f = frame)
    (hpte : eptm'.pte = eptm.pte) : eptm.Grows (eptm'.pushPte gpa frame pde).2 used := by
  have hnone' : eptm'.layout 0 (page2mbCount gpa) = none := by
    rw [← hnone]
    simp only [EptManager.layout, hpte]
  have hunused' : ¬eptm'.Used frame :=
    fun h => hunused (hready.own frame (hgrows.old frame (Or.inr rfl) h))
  have hlayout := @layout_pushPte eptm' gpa frame pde hnone'
  obtain ⟨used', hused', hready'⟩ := hgrows.ready
  constructor
  case layout =>
    intro level r f hf
    rw [hlayout]
    exact Radix.Layout.extend_of_some hnone' (hgrows.layout level r f hf)
  case old =>
    rintro f huse ⟨level, r, hf⟩
    rw [hlayout, Radix.Layout.extend] at hf
    split at hf
    · exact absurd (Option.some.inj hf ▸ huse) hunused
    · exact hgrows.old f (Or.inl huse) ⟨level, r, hf⟩
  case ready =>
    refine ⟨used', fun f huse => hused' f (Or.inl huse),
      hready'.wf.pushPte hnone' hunused' hframe, hready'.fresh, ?_⟩
    rintro f ⟨level, r, hf⟩
    rw [hlayout, Radix.Layout.extend] at hf
    split at hf
    · exact Option.some.inj hf ▸ hused' frame (Or.inr rfl)
    · exact hready'.own f ⟨level, r, hf⟩

/-- The table of PTEs is at hand. -/
theorem describePte_eq_ok (hready : eptm.Ready used)
    (h : describePte eptm gpa true alloc = .ok (p, eptm')) :
    eptm.Grows eptm' used ∧
      ∀ t, p = .valid t → eptm'.layout 0 (page2mbCount gpa) = some t.frame := by
  unfold describePte at h
  cases hfind : eptm.findPte gpa with
  | some t =>
      rw [hfind] at h
      cases h
      refine ⟨hready.grows, fun t ht => ?_⟩
      cases ht
      rw [hready.wf.layout_zero, hfind]
      rfl
  | none =>
      have hnone : eptm.layout 0 (page2mbCount gpa) = none := by
        rw [hready.wf.layout_zero, hfind]
        rfl
      simp only [hfind] at h
      cases alloc with
      | false =>
          cases h
          exact ⟨hready.grows, fun t ht => (nomatch ht)⟩
      | true =>
          simp only [if_true, newPte] at h
          split at h
          · next allocator hnonpg =>
              cases h
              have hfresh := hready.fresh.nonpg
              rw [hnonpg] at hfresh
              exact ⟨hready.grows_allocator hfresh, fun t ht => (nomatch ht)⟩
          · next allocator hnonpg =>
              split at h
              · next allocator' hcontd =>
                  cases h
                  have hfresh := hready.fresh.nonpg
                  rw [hnonpg] at hfresh
                  have hlater := hfresh.contd_of_none
                  rw [hcontd] at hlater
                  exact ⟨hready.grows_allocator hlater, fun t ht => (nomatch ht)⟩
              · next frame allocator' hcontd =>
                  obtain ⟨hunused, hframe, hfresh⟩ := fresh_contd hready.fresh hnonpg hcontd
                  have hready' : EptManager.Ready { eptm with allocator := allocator' }
                      fun f => used f ∨ f = frame :=
                    ⟨hready.wf.allocator _, hfresh, fun f hf => Or.inl (hready.own f hf)⟩
                  obtain ⟨⟨q, split⟩, hsplit, h⟩ := bind_eq_ok.mp h
                  obtain ⟨-, hgrows, hpte, d, rfl, -⟩ := nvcEptSplitPdpte_eq_ok hready' hsplit
                  cases h
                  refine ⟨hready.grows_pushPte hnone hunused hframe hgrows hpte, fun t ht => ?_⟩
                  cases ht
                  have hnone' : split.layout 0 (page2mbCount gpa) = none := by
                    rw [← hnone]
                    simp only [EptManager.layout, hpte]
                  have hframe' : (EptDescriptor.frame ⟨page4kbMult frame,
                      page2mbCount gpa * 512 * page4kbSize⟩) = frame := frame_mk _ _
                  exact (congrFun (congrFun (layout_pushPte hnone') 0) _).trans
                    ((Radix.Layout.extend_self _ _ _ _).trans (congrArg some hframe'.symm))

/-- A host-mode split of a PDE that returns. -/
theorem nvcEptSplitPde_eq_ok (hready : eptm.Ready used)
    (h : nvcEptSplitPde eptm gpa true alloc = .ok (p, eptm')) :
    eptm.Grows eptm' used ∧
      ∃ t, p = .valid t ∧ eptm'.layout 0 (page2mbCount gpa) = some t.frame := by
  unfold nvcEptSplitPde at h
  obtain ⟨⟨q, described⟩, hdescribed, h⟩ := bind_eq_ok.mp h
  obtain ⟨hgrows, htable⟩ := describePte_eq_ok hready hdescribed
  simp only [if_true] at h
  obtain ⟨⟨q', split⟩, hsplit, h⟩ := bind_eq_ok.mp h
  obtain ⟨used₁, -, hready₁⟩ := hgrows.ready
  obtain ⟨-, hgrows₁, -, d, rfl, hd⟩ := nvcEptSplitPdpte_eq_ok hready₁ hsplit
  simp only [Pointer.isNull, Bool.false_eq_true, if_false, Pointer.deref, Outcome.ok_bind] at h
  obtain ⟨t, ht, h⟩ := bind_eq_ok.mp h
  obtain rfl := Pointer.deref_eq_ok.mp ht
  cases h
  have hframe := hgrows₁.layout _ _ _ (htable t rfl)
  have hlinked : (split.modifyEntry d.frame (pageEntryIndex64 (page2mbCount gpa))
      (·.toTable t.phys)).Wf := by
    obtain ⟨used₂, -, hready₂⟩ := hgrows₁.ready
    refine hready₂.wf.modifyEntry hd fun _ _ => ⟨t.frame, ?_, EptEntry.pointsTo_toTable ?_⟩
    · rw [← page2mbCount_eq, hframe]
    · exact hready₂.wf.inRange _ _ _ hframe
  refine ⟨hgrows.trans fun used₁ hready₁ => ?_, t, rfl, hframe⟩
  exact (nvcEptSplitPdpte_eq_ok hready₁ hsplit).2.1.trans fun used₂ hready₂ =>
    hready₂.grows_of_layout_eq hlinked rfl rfl

end Specs

/-! ### The changes -/

section Changes

variable {eptm eptm' : EptManager} {used : Nat → Prop} {gpa : Nat} {memoryType : BitVec 8}
  {force result : Bool}

theorem forEntries_grows {f : EptManager → Nat → Outcome (Bool × EptManager)} {is : List Nat}
    (hstep : ∀ s i result s' used, Ready s used → f s i = .ok (result, s') → Grows s s' used)
    (hready : eptm.Ready used) (h : forEntries f is eptm = .ok (result, eptm')) :
    eptm.Grows eptm' used := by
  induction is generalizing eptm used with
  | nil =>
      cases h
      exact hready.grows
  | cons i rest ih =>
      obtain ⟨⟨found, s⟩, hfirst, h⟩ := bind_eq_ok.mp h
      have hgrows := hstep _ _ _ _ _ hready hfirst
      cases found with
      | false =>
          cases h
          exact hgrows
      | true => exact hgrows.trans fun used₁ hready₁ => ih hready₁ h

/-- A PTE is written. -/
theorem Ready.grows_modifyPte {r frame i : Nat} {f : EptEntry → EptEntry} (hready : eptm.Ready used)
    (hframe : eptm.layout 0 r = some frame) : eptm.Grows (eptm.modifyEntry frame i f) used :=
  hready.grows_of_layout_eq (hready.wf.modifyEntry hframe fun h => (nomatch h)) rfl rfl

theorem nvcEptUpdatePteMemoryType_grows (hready : eptm.Ready used)
    (h : eptm.nvcEptUpdatePteMemoryType memoryType force gpa = .ok (result, eptm')) :
    eptm.Grows eptm' used := by
  obtain ⟨⟨p, split⟩, hsplit, h⟩ := bind_eq_ok.mp h
  obtain ⟨hgrows, t, rfl, ht⟩ := nvcEptSplitPde_eq_ok hready hsplit
  cases h
  exact hgrows.trans fun used₁ hready₁ => hready₁.grows_modifyPte ht

theorem nvcEptUpdatePdeMemoryType_grows (hready : eptm.Ready used)
    (h : eptm.nvcEptUpdatePdeMemoryType memoryType force gpa = .ok (result, eptm')) :
    eptm.Grows eptm' used := by
  obtain ⟨⟨p, split⟩, hsplit, h⟩ := bind_eq_ok.mp h
  obtain ⟨-, hgrows, -, d, rfl, hd⟩ := nvcEptSplitPdpte_eq_ok hready hsplit
  simp only [Pointer.isNull, Bool.false_eq_true, if_false, Pointer.deref, Outcome.ok_bind] at h
  split at h
  · next hlarge =>
      cases h
      exact hgrows.trans fun used₁ hready₁ =>
        hready₁.grows_of_layout_eq (hready₁.wf.update hd hlarge) rfl rfl
  · obtain ⟨⟨found, updated⟩, hloop, h⟩ := bind_eq_ok.mp h
    cases h
    exact hgrows.trans fun used₁ hready₁ => forEntries_grows
      (fun s i result s' used hs => nvcEptUpdatePteMemoryType_grows hs) hready₁ hloop

theorem nvcEptUpdatePdpteMemoryType_grows (hready : eptm.Ready used)
    (h : eptm.nvcEptUpdatePdpteMemoryType memoryType force gpa = .ok (result, eptm')) :
    eptm.Grows eptm' used := by
  obtain ⟨entry, hentry, h⟩ := bind_eq_ok.mp h
  obtain ⟨-, rfl⟩ := pdpte_eq_ok hentry
  split at h
  · next hlarge =>
      cases h
      refine hready.grows_of_layout_eq (hready.wf.setPdpte rfl id fun frame hpoints => ?_) rfl rfl
      rw [hpoints.1] at hlarge
      cases hlarge
  · exact forEntries_grows (fun s i result s' used hs => nvcEptUpdatePdeMemoryType_grows hs) hready h

theorem nvcEptUpdatePde_grows {hpa : Nat} {r w x l ignoreMt alloc : Bool} (hready : eptm.Ready used)
    (h : eptm.nvcEptUpdatePde hpa gpa r w x l ignoreMt memoryType alloc = .ok (result, eptm')) :
    eptm.Grows eptm' used := by
  obtain ⟨⟨p, split⟩, hsplit, h⟩ := bind_eq_ok.mp h
  obtain ⟨-, hgrows, -, d, rfl, hd⟩ := nvcEptSplitPdpte_eq_ok hready hsplit
  simp only [Pointer.isNull, Bool.false_eq_true, if_false, Pointer.deref, Outcome.ok_bind] at h
  cases l with
  | true =>
      cases h
      refine hgrows.trans fun used₁ hready₁ => hready₁.grows_of_layout_eq
        (hready₁.wf.modifyEntry hd fun _ hnot => ?_) rfl rfl
      cases ignoreMt <;> cases hnot
  | false =>
      simp only [Bool.false_eq_true, if_false] at h
      obtain ⟨⟨q, described⟩, hdescribed, h⟩ := bind_eq_ok.mp h
      obtain ⟨used₁, -, hready₁⟩ := hgrows.ready
      obtain ⟨hgrows₁, t, rfl, ht⟩ := nvcEptSplitPde_eq_ok hready₁ hdescribed
      cases h
      refine hgrows.trans fun used₁ hready₁ => ?_
      refine (nvcEptSplitPde_eq_ok hready₁ hdescribed).1.trans fun used₂ hready₂ => ?_
      refine hready₂.grows_of_layout_eq (hready₂.wf.modifyEntry (hgrows₁.layout _ _ _ hd)
        fun _ _ => ⟨t.frame, ?_, EptEntry.PointsTo.setPermission
          (EptEntry.pointsTo_toTable (hready₂.wf.inRange _ _ _ ht)) r w x⟩) rfl rfl
      rw [← page2mbCount_eq, ht]

theorem nvcEptUpdatePte_grows {hpa : Nat} {r w x ignoreMt alloc : Bool} {p : Pointer EptDescriptor}
    (hready : eptm.Ready used)
    (h : eptm.nvcEptUpdatePte hpa gpa r w x ignoreMt memoryType alloc = .ok (p, eptm')) :
    eptm.Grows eptm' used := by
  obtain ⟨⟨q, split⟩, hsplit, h⟩ := bind_eq_ok.mp h
  obtain ⟨hgrows, t, rfl, ht⟩ := nvcEptSplitPde_eq_ok hready hsplit
  cases h
  exact hgrows.trans fun used₁ hready₁ => hready₁.grows_modifyPte ht

theorem updateByFixedMtrr_grows {fix64k fix16k fix4k : Nat → BitVec 8} (hready : eptm.Ready used)
    (h : eptm.updateByFixedMtrr fix64k fix16k fix4k = .ok eptm') : eptm.Grows eptm' used := by
  obtain ⟨⟨q, split⟩, hsplit, h⟩ := bind_eq_ok.mp h
  obtain ⟨hgrows, t, rfl, ht⟩ := nvcEptSplitPde_eq_ok hready hsplit
  cases h
  refine hgrows.trans fun used₁ hready₁ => hready₁.grows_of_layout_eq ?_ rfl rfl
  refine { hready₁.wf with pde := fun k frame i hframe hi => ?_ }
  change split.layout 1 k = some frame at hframe
  have hne : frame ≠ t.frame := by
    rintro rfl
    exact absurd (hready₁.wf.disjoint _ _ _ _ _ hframe ht).1 (by decide)
  simp only [Radix.Frames.fill_of_ne hne]
  exact hready₁.wf.pde k frame i hframe hi

theorem Wf.clearVarMtrrCovered (hwf : eptm.Wf) : eptm.clearVarMtrrCovered.Wf where
  pdeAligned := hwf.pdeAligned
  pteAligned := hwf.pteAligned
  disjoint := hwf.disjoint
  inRange := hwf.inRange
  huge k hk := by
    simp only [EptManager.clearVarMtrrCovered, if_pos hk]
    exact hwf.huge k hk
  table k hk := by
    simp only [EptManager.clearVarMtrrCovered, if_pos hk]
    exact hwf.table k hk
  pde k frame i hframe hi := by
    simp only [EptManager.clearVarMtrrCovered]
    split
    · exact hwf.pde k frame i hframe hi
    · exact hwf.pde k frame i hframe hi

theorem run_grows (op : EptOp) (hready : eptm.Ready used) (h : op.run eptm = .ok eptm') :
    eptm.Grows eptm' used := by
  have hsnd : ∀ {α : Type} {x : Outcome (α × EptManager)}, Prod.snd <$> x = .ok eptm' →
      ∃ a, x = .ok (a, eptm') := by
    intro α x hx
    cases x with
    | error fault => cases hx
    | ok result => exact ⟨result.1, by cases hx; rfl⟩
  cases op with
  | updatePteMemoryType gpa memoryType force =>
      obtain ⟨result, hrun⟩ := hsnd h
      exact nvcEptUpdatePteMemoryType_grows hready hrun
  | updatePdeMemoryType gpa memoryType force =>
      obtain ⟨result, hrun⟩ := hsnd h
      exact nvcEptUpdatePdeMemoryType_grows hready hrun
  | updatePdpteMemoryType gpa memoryType force =>
      obtain ⟨result, hrun⟩ := hsnd h
      exact nvcEptUpdatePdpteMemoryType_grows hready hrun
  | updateByFixedMtrr fix64k fix16k fix4k => exact updateByFixedMtrr_grows hready h
  | clearVarMtrrCovered =>
      cases h
      exact hready.grows_of_layout_eq hready.wf.clearVarMtrrCovered rfl rfl
  | updatePde hpa gpa r w x l ignoreMt memoryType alloc =>
      obtain ⟨result, hrun⟩ := hsnd h
      exact nvcEptUpdatePde_grows hready hrun
  | updatePte hpa gpa r w x ignoreMt memoryType alloc =>
      obtain ⟨p, hrun⟩ := hsnd h
      exact nvcEptUpdatePte_grows hready hrun

end Changes

/-! ### Runs -/

/-- The identity map, by its default type. -/
def Built (eptm : EptManager) : Prop := ∃ defType allocator, eptm = identityMap defType allocator

/-- A change, the allocations to come arbitrary. -/
def Step (eptm eptm' : EptManager) : Prop :=
  ∃ (op : EptOp) (allocator : Allocator), allocator.Fresh eptm.Used ∧
    op.run { eptm with allocator } = .ok eptm'

/-- The managers the program can have, with any pages left to give. -/
def Reached (eptm : EptManager) : Prop :=
  eptm.allocator.Fresh eptm.Used ∧
    ∃ allocator, Transition.Reachable Built Step { eptm with allocator }

theorem layout_identityMap (defType : BitVec 8) (allocator : Allocator) (level r : Nat) :
    (identityMap defType allocator).layout level r = none := by
  match level with
  | 0 | 1 | _ + 2 => rfl

theorem wf_identityMap (defType : BitVec 8) (allocator : Allocator) :
    (identityMap defType allocator).Wf where
  pdeAligned := fun d hd => (nomatch hd)
  pteAligned := fun t ht => (nomatch ht)
  disjoint level r level' r' frame h := by
    rw [layout_identityMap] at h
    cases h
  inRange level r frame h := by
    rw [layout_identityMap] at h
    cases h
  huge k hk _ := by
    refine ⟨layout_identityMap _ _ _ _, rfl, rfl, rfl, ?_⟩
    change k % 2 ^ 22 * 2 ^ 18 + 0 % 2 ^ 18 = k * 2 ^ 18
    omega
  table k _ h := by cases h
  pde k frame i h := by
    rw [layout_identityMap] at h
    cases h

theorem Built.wf {eptm : EptManager} (h : Built eptm) : eptm.Wf := by
  obtain ⟨defType, allocator, rfl⟩ := h
  exact wf_identityMap defType allocator

theorem Step.wf {eptm eptm' : EptManager} (hwf : eptm.Wf) (h : Step eptm eptm') : eptm'.Wf := by
  obtain ⟨op, allocator, hfresh, hrun⟩ := h
  have hready : EptManager.Ready { eptm with allocator } eptm.Used :=
    ⟨hwf.allocator allocator, hfresh, fun _ => id⟩
  obtain ⟨used, -, hready'⟩ := (run_grows op hready hrun).ready
  exact hready'.wf

theorem Reached.wf {eptm : EptManager} (h : eptm.Reached) : eptm.Wf := by
  obtain ⟨-, allocator, hreached⟩ := h
  have hwf := hreached.invariant (P := EptManager.Wf) (fun _ => Built.wf) fun _ _ _ => Step.wf
  exact hwf.allocator eptm.allocator

theorem reached_identityMap {defType : BitVec 8} {allocator : Allocator}
    (hfresh : allocator.Fresh fun _ => False) : (identityMap defType allocator).Reached := by
  refine ⟨hfresh.mono ?_, allocator, .start ⟨defType, allocator, rfl⟩⟩
  rintro frame ⟨level, r, hframe⟩
  rw [layout_identityMap] at hframe
  cases hframe

/-- In every run an update of the memory type of a large or huge page visits all that is below the
page, changes nothing else and reports success, exactly when no 4 KiB page is below the page. -/
theorem update_propagates_iff {eptm : EptManager} {page : EptPage} {memoryType : BitVec 8}
    {force : Bool} (hreached : eptm.Reached) (hpage : page.InRange)
    (hgenerous : page.Allocates eptm → eptm.allocator.Generous 1) :
    eptm.Propagates page memoryType force ↔ eptm.Unsplit page :=
  hreached.wf.propagates_iff_unsplit hpage hreached.1 hgenerous

theorem identityMap_propagates :
    (identityMap 6 (.ofFrames [1])).Propagates (.large 5) 1 false := by
  have hreached : (identityMap 6 (.ofFrames [1])).Reached :=
    reached_identityMap (Allocator.fresh_ofFrames (List.nodup_singleton 1) fun frame hframe =>
      ⟨id, by rw [List.mem_singleton.mp hframe]; decide⟩)
  refine (update_propagates_iff hreached (by decide) fun _ => ?_).mpr ?_
  · exact Allocator.generous_ofFrames (by decide)
  · exact unsplit_of_huge fun _ _ => rfl

/-- The map after an update of the type of the page at 0. -/
theorem exists_splitMap :
    ∃ eptm : EptManager, eptm.Reached ∧ (eptm.walk 0).2 = 0 ∧
      (eptm.pdpt 0).large = false := by
  have hfresh : (Allocator.ofFrames [1, 2]).Fresh (identityMap 6 (.ofFrames [])).Used := by
    refine Allocator.fresh_ofFrames (by decide) fun frame hframe => ⟨?_, ?_⟩
    · rintro ⟨level, r, h⟩
      rw [layout_identityMap] at h
      cases h
    · simp only [List.mem_cons, List.not_mem_nil, or_false] at hframe
      omega
  have hrun : ∃ eptm, (EptOp.updatePteMemoryType 0 0 false).run
      { identityMap 6 (.ofFrames []) with allocator := .ofFrames [1, 2] } = .ok eptm ∧
      (eptm.walk 0).2 = 0 ∧ (eptm.pdpt 0).large = false :=
    ⟨_, rfl, by decide, by decide⟩
  obtain ⟨eptm, hrun, hwalk, htable⟩ := hrun
  have hstep : Step (identityMap 6 (.ofFrames [])) eptm :=
    ⟨.updatePteMemoryType 0 0 false, _, hfresh, hrun⟩
  exact ⟨{ eptm with allocator := .ofFrames [] },
    ⟨Allocator.fresh_nil, eptm.allocator, (Transition.Reachable.start ⟨6, _, rfl⟩).step hstep⟩,
    hwalk, htable⟩

/-- Once the page at 0 has been split, the update of the 2 MiB page around it fails. -/
theorem not_forall_propagates :
    ¬∀ (eptm : EptManager) (page : EptPage) (memoryType : BitVec 8) (force : Bool),
      eptm.Reached → page.InRange → (page.Allocates eptm → eptm.allocator.Generous 1) →
      eptm.Propagates page memoryType force := by
  intro h
  obtain ⟨eptm, hreached, hwalk, htable⟩ := exists_splitMap
  have hgenerous : EptPage.Allocates eptm (.large 0) → eptm.allocator.Generous 1 := fun hhuge => by
    change (eptm.pdpt 0).large = true at hhuge
    rw [htable] at hhuge
    cases hhuge
  have hpropagates := h eptm (.large 0) 0 false hreached (by decide) hgenerous
  have hunsplit := (hreached.wf.propagates_iff_unsplit (by decide) hreached.1 hgenerous).mp hpropagates
  exact hunsplit 0 (by decide) rfl hwalk

end EptManager

end NoirVisor
