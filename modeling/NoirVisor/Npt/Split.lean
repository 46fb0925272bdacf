import NoirVisor.Npt.Layout

/-!
# What a split does

A host-mode split makes sure the table of the page is described, then points the entry above at it.
The update functions write one more entry. Each function that returns is one of these few changes,
and they are all that later modules look at.
-/

namespace NoirVisor.NptManager

/-- The table of the 1 GiB page of `gpa` is at hand, found or newly made. -/
inductive DescribesPde (nptm : NptManager) (gpa : Nat) : NptDescriptor → NptManager → Prop
  | found {d : NptDescriptor} (allocator : Allocator) :
      nptm.findPde gpa = some d → DescribesPde nptm gpa d { nptm with allocator }
  | made {frame : Nat} (allocator : Allocator) :
      nptm.findPde gpa = none → ¬nptm.Used frame → frame < 2 ^ 40 →
      DescribesPde nptm gpa (nptm.pushPde gpa frame).1
        { (nptm.pushPde gpa frame).2 with allocator }

inductive DescribesPte (nptm : NptManager) (gpa : Nat) : NptDescriptor → NptManager → Prop
  | found {t : NptDescriptor} (allocator : Allocator) :
      nptm.findPte gpa = some t → DescribesPte nptm gpa t { nptm with allocator }
  | made {frame : Nat} (allocator : Allocator) :
      nptm.findPte gpa = none → ¬nptm.Used frame → frame < 2 ^ 40 →
      DescribesPte nptm gpa (nptm.pushPte gpa frame).1
        { (nptm.pushPte gpa frame).2 with allocator }

def linkPdpte (nptm : NptManager) (gpa : Nat) (d : NptDescriptor) : NptManager :=
  nptm.modifyEntry (nptm.pdpteFrame (page1gbCount gpa)) (page1gbCount gpa % 512)
    (·.toTable d.phys)

def linkPde (nptm : NptManager) (gpa : Nat) (d t : NptDescriptor) : NptManager :=
  nptm.modifyEntry d.frame (pageEntryIndex64 (page2mbCount gpa)) (·.toTable t.phys)

theorem toTable_base {entry : NptEntry} {d : NptDescriptor} (hframe : d.frame < 2 ^ 40) :
    (entry.toTable d.phys).base = d.frame := by
  simp only [NptEntry.toTable, NptEntry.setBase, NptEntry.clearReserved1]
  exact Nat.mod_eq_of_lt hframe

theorem modifyPdpte_eq_ok {nptm nptm' : NptManager} {k : Nat} {f : NptEntry → NptEntry}
    (h : nptm.modifyPdpte k f = .ok nptm') :
    k < 512 * 512 ∧ nptm' = nptm.modifyEntry (nptm.pdpteFrame k) (k % 512) f := by
  unfold modifyPdpte at h
  split at h
  · rename_i hk
    exact ⟨hk, (Except.ok.inj h).symm⟩
  · cases h

section Describes

variable {nptm nptm' : NptManager} {gpa : Nat} {d t : NptDescriptor}

theorem DescribesPde.wf (hwf : nptm.Wf) (h : DescribesPde nptm gpa d nptm') : nptm'.Wf := by
  cases h with
  | found allocator hfound => exact hwf.allocator allocator
  | made allocator hnone hunused hframe => exact (hwf.pushPde hnone hunused hframe).allocator _

theorem DescribesPde.layout (hwf : nptm.Wf) (h : DescribesPde nptm gpa d nptm') :
    nptm'.layout 1 (page1gbCount gpa) = some d.frame := by
  cases h with
  | found allocator hfound => rw [layout_allocator, layout_one hwf.pdeAligned, hfound]; rfl
  | made allocator hnone hunused hframe =>
      rw [layout_allocator, layout_pushPde hwf.pdeAligned hnone, Radix.Layout.extend_self]
      simp [NptManager.pushPde]

/-- Only the region of `gpa` gains a table. -/
theorem DescribesPde.layout_of_ne (hwf : nptm.Wf) (h : DescribesPde nptm gpa d nptm')
    {level r : Nat} (hne : ¬(level = 1 ∧ r = page1gbCount gpa)) :
    nptm'.layout level r = nptm.layout level r := by
  cases h with
  | found allocator hfound => rfl
  | made allocator hnone hunused hframe =>
      rw [layout_allocator, layout_pushPde hwf.pdeAligned hnone, Radix.Layout.extend_of_ne hne]

theorem DescribesPde.memory (h : DescribesPde nptm gpa d nptm') {level r frame : Nat}
    (hframe : nptm.layout level r = some frame) (i : Nat) :
    nptm'.memory frame i = nptm.memory frame i := by
  cases h with
  | found allocator hfound => rfl
  | made allocator hnone hunused _ =>
      simp only [NptManager.pushPde, frame_mk]
      exact Radix.Frames.fill_of_ne fun heq => hunused ⟨level, r, heq ▸ hframe⟩

theorem findPde_pushPde {frame : Nat} (hnone : nptm.findPde gpa = none) :
    (nptm.pushPde gpa frame).2.findPde gpa = some (nptm.pushPde gpa frame).1 := by
  unfold NptManager.findPde at hnone ⊢
  simp only [NptManager.pushPde]
  rw [Radix.covering_append (by decide) (by simp only [page2mbSize, page1gbSize]; omega), hnone,
    if_pos (by simp only [page1gbCount, page2mbSize, page1gbSize]; omega)]
  rfl

theorem DescribesPde.findPde (h : DescribesPde nptm gpa d nptm') : nptm'.findPde gpa = some d := by
  cases h with
  | found allocator hfound => exact hfound
  | made allocator hnone hunused hframe => exact findPde_pushPde hnone

theorem DescribesPde.fixed (h : DescribesPde nptm gpa d nptm') :
    nptm'.ncr3 = nptm.ncr3 ∧ nptm'.pdpt = nptm.pdpt ∧ nptm'.pte = nptm.pte := by
  cases h <;> exact ⟨rfl, rfl, rfl⟩

theorem DescribesPte.wf (hwf : nptm.Wf) (hpde : nptm.findPde gpa = some d)
    (h : DescribesPte nptm gpa t nptm') : nptm'.Wf := by
  cases h with
  | found allocator hfound => exact hwf.allocator allocator
  | made allocator hnone hunused hframe =>
      exact (hwf.pushPte hpde hnone hunused hframe).allocator _

theorem DescribesPte.layout (hwf : nptm.Wf) (h : DescribesPte nptm gpa t nptm') :
    nptm'.layout 0 (page2mbCount gpa) = some t.frame := by
  cases h with
  | found allocator hfound => rw [layout_allocator, layout_zero hwf.pteAligned, hfound]; rfl
  | made allocator hnone hunused hframe =>
      rw [layout_allocator, layout_pushPte hwf.pteAligned hnone, Radix.Layout.extend_self]
      simp [NptManager.pushPte]

theorem DescribesPte.layout_of_ne (hwf : nptm.Wf) (h : DescribesPte nptm gpa t nptm')
    {level r : Nat} (hne : ¬(level = 0 ∧ r = page2mbCount gpa)) :
    nptm'.layout level r = nptm.layout level r := by
  cases h with
  | found allocator hfound => rfl
  | made allocator hnone hunused hframe =>
      rw [layout_allocator, layout_pushPte hwf.pteAligned hnone, Radix.Layout.extend_of_ne hne]

theorem DescribesPte.memory (h : DescribesPte nptm gpa t nptm') {level r frame : Nat}
    (hframe : nptm.layout level r = some frame) (i : Nat) :
    nptm'.memory frame i = nptm.memory frame i := by
  cases h with
  | found allocator hfound => rfl
  | made allocator hnone hunused _ =>
      simp only [NptManager.pushPte, frame_mk]
      exact Radix.Frames.fill_of_ne fun heq => hunused ⟨level, r, heq ▸ hframe⟩

theorem DescribesPte.findPte_of_some {address : Nat} {t' : NptDescriptor}
    (h : DescribesPte nptm gpa t nptm') (hfound : nptm.findPte address = some t') :
    nptm'.findPte address = some t' := by
  cases h with
  | found allocator _ => exact hfound
  | made allocator _ _ _ => exact Radix.covering_append_of_some hfound

theorem DescribesPte.fixed (h : DescribesPte nptm gpa t nptm') :
    nptm'.ncr3 = nptm.ncr3 ∧ nptm'.pdpt = nptm.pdpt ∧ nptm'.pde = nptm.pde := by
  cases h <;> exact ⟨rfl, rfl, rfl⟩

end Describes

section Link

variable {nptm : NptManager} {gpa : Nat} {d t : NptDescriptor}

/-- The table that holds the PDPTE of an address. -/
theorem layout_pdpte (hgpa : page1gbCount gpa < 512 * 512) :
    nptm.layout 2 (page1gbCount gpa / 512) = some (nptm.pdpteFrame (page1gbCount gpa)) :=
  layout_two hgpa

theorem Wf.linkPdpte (hwf : nptm.Wf) (hgpa : page1gbCount gpa < 512 * 512)
    (hd : nptm.layout 1 (page1gbCount gpa) = some d.frame) : (nptm.linkPdpte gpa d).Wf := by
  refine hwf.modifyEntry (layout_pdpte hgpa) (by decide) fun l hl _ => ?_
  obtain rfl : l = 1 := by omega
  rw [toTable_base (hwf.inRange _ _ _ hd), Nat.div_add_mod]
  exact hd

theorem Wf.linkPde (hwf : nptm.Wf) (hd : nptm.layout 1 (page1gbCount gpa) = some d.frame)
    (ht : nptm.layout 0 (page2mbCount gpa) = some t.frame) : (nptm.linkPde gpa d t).Wf := by
  refine hwf.modifyEntry hd (by decide) fun l hl _ => ?_
  obtain rfl : l = 0 := by omega
  rw [toTable_base (hwf.inRange _ _ _ ht)]
  have hindex : 512 * page1gbCount gpa + pageEntryIndex64 (page2mbCount gpa) = page2mbCount gpa := by
    simp only [page1gbCount, pageEntryIndex64, page2mbCount]
    omega
  rw [hindex]
  exact ht

end Link

/-- What a host-mode split of a PDPTE does. -/
def SplitsPdpte (nptm : NptManager) (gpa : Nat) (d : NptDescriptor) (nptm' : NptManager) : Prop :=
  page1gbCount gpa < 512 * 512 ∧
    ∃ described, DescribesPde nptm gpa d described ∧ nptm' = described.linkPdpte gpa d

/-- What a host-mode split of a PDE does: the PDPTE above is split first. -/
def SplitsPde (nptm : NptManager) (gpa : Nat) (d t : NptDescriptor) (nptm' : NptManager) : Prop :=
  ∃ linked described, SplitsPdpte nptm gpa d linked ∧ DescribesPte linked gpa t described ∧
    nptm' = described.linkPde gpa d t

/-- The frames the allocator gave were not reserved, and those to come are not in use. -/
def Grows (nptm nptm' : NptManager) (used : Nat → Prop) : Prop :=
  (∀ frame, nptm'.Used frame → nptm.Used frame ∨ ¬used frame) ∧
    ∃ used', (∀ frame, used frame → used' frame) ∧ nptm'.Ready used'

section Specs

variable {nptm nptm' : NptManager} {used : Nat → Prop} {gpa : Nat} {alloc : Bool}
  {d t : NptDescriptor}

theorem DescribesPde.of_allocator {allocator : Allocator}
    (h : DescribesPde { nptm with allocator } gpa d nptm') : DescribesPde nptm gpa d nptm' := by
  cases h with
  | found allocator hfound => exact .found allocator hfound
  | made allocator hnone hunused hframe => exact .made allocator hnone hunused hframe

theorem modifyEntry_eq_self {frame i : Nat} {f : NptEntry → NptEntry}
    (h : f (nptm.memory frame i) = nptm.memory frame i) : nptm.modifyEntry frame i f = nptm := by
  have hmemory : nptm.memory.set frame i (f (nptm.memory frame i)) = nptm.memory := by
    funext g j
    unfold Radix.Frames.set
    split
    · rename_i heq
      rw [heq.1, heq.2, h]
    · rfl
  unfold modifyEntry
  rw [hmemory]

@[simp]
theorem toTable_toTable (entry : NptEntry) (phys phys' : Nat) :
    (entry.toTable phys).toTable phys' = entry.toTable phys' := rfl

theorem Ready.of_used_eq (hready : nptm.Ready used) (hwf : nptm'.Wf)
    (hallocator : nptm'.allocator = nptm.allocator) (hlayout : nptm'.layout = nptm.layout) :
    nptm'.Ready used where
  wf := hwf
  fresh := hallocator ▸ hready.fresh
  own frame h := hready.own frame (by rwa [Used, ← hlayout])

theorem newPde_eq_valid (hready : nptm.Ready used) (hnone : nptm.findPde gpa = none)
    (h : nptm.newPde gpa = (.valid d, nptm')) :
    DescribesPde nptm gpa d nptm' ∧ nptm.Grows nptm' used := by
  unfold newPde at h
  split at h
  · cases h
  · rename_i allocator hnonpg
    split at h
    · cases h
    · rename_i frame allocator' hcontd
      simp only [Prod.mk.injEq, Pointer.valid.injEq] at h
      obtain ⟨rfl, rfl⟩ := h
      obtain rfl : nptm.allocator.noirAllocNonpgMemory.2 = allocator := by rw [hnonpg]
      have hfresh := hready.fresh.nonpg
      have hgiven : nptm.allocator.noirAllocNonpgMemory.2.noirAllocContdMemory.1 = some frame := by
        rw [hcontd]
      have hunused : ¬used frame := hfresh.unused 0 frame hgiven
      have hnew : ¬nptm.Used frame := fun h => hunused (hready.own frame h)
      have hframe : frame < 2 ^ 40 := hfresh.inRange 0 frame hgiven
      have hmade := DescribesPde.made allocator' hnone hnew hframe
      refine ⟨hmade, fun f hf => ?_, fun f => used f ∨ f = frame, fun f => Or.inl,
        hmade.wf hready.wf, ?_, fun f hf => ?_⟩
      · obtain ⟨level, r, hf⟩ := hf
        change (nptm.pushPde gpa frame).2.layout level r = some f at hf
        rw [layout_pushPde hready.wf.pdeAligned hnone, Radix.Layout.extend] at hf
        split at hf
        · exact Or.inr (Option.some.inj hf ▸ hunused)
        · exact Or.inl ⟨level, r, hf⟩
      · have hlater : nptm.allocator.noirAllocNonpgMemory.2.noirAllocContdMemory.2.Fresh
            fun f => used f ∨ f = frame := hfresh.contd_of_some hgiven fun f => id
        rwa [hcontd] at hlater
      · obtain ⟨level, r, hf⟩ := hf
        change (nptm.pushPde gpa frame).2.layout level r = some f at hf
        rw [layout_pushPde hready.wf.pdeAligned hnone, Radix.Layout.extend] at hf
        split at hf
        · exact Or.inr (Option.some.inj hf).symm
        · exact Or.inl (hready.own f ⟨level, r, hf⟩)

theorem nvcNptSplitPdpte_host {p : Pointer NptDescriptor} (hready : nptm.Ready used)
    (h : nvcNptSplitPdpte nptm gpa true alloc = .ok (p, nptm')) :
    ∃ d, p = .valid d ∧ SplitsPdpte nptm gpa d nptm' ∧ nptm.Grows nptm' used := by
  -- Whichever way the descriptor came, the entry above is linked to it.
  have hlink : ∀ {q : Pointer NptDescriptor} {described : NptManager},
      (∀ d, q = .valid d → DescribesPde nptm gpa d described ∧ nptm.Grows described used) →
      (do let d ← q.deref
          let linked ← described.modifyPdpte (page1gbCount gpa) (·.toTable d.phys)
          return (q, linked)) = Except.ok (p, nptm') →
      ∃ d, p = .valid d ∧ SplitsPdpte nptm gpa d nptm' ∧ nptm.Grows nptm' used := by
    intro q described hq hdo
    cases q with
    | null => cases hdo
    | freed => cases hdo
    | valid d =>
        obtain ⟨hdescribes, hgrown, used', hused, hready'⟩ := hq d rfl
        simp only [Pointer.deref, bind, Except.bind] at hdo
        split at hdo
        · cases hdo
        · rename_i linked hmodify
          obtain ⟨hgpa, rfl⟩ := modifyPdpte_eq_ok hmodify
          simp only [pure, Except.pure, Except.ok.injEq, Prod.mk.injEq] at hdo
          obtain ⟨rfl, rfl⟩ := hdo
          refine ⟨d, rfl, ⟨hgpa, described, hdescribes, rfl⟩, hgrown, used', hused, ?_⟩
          exact hready'.of_used_eq (hready'.wf.linkPdpte hgpa (hdescribes.layout hready.wf)) rfl rfl
  unfold nvcNptSplitPdpte at h
  cases hfind : nptm.findPde gpa with
  | some d =>
      rw [hfind] at h
      refine hlink (fun d' hd' => ?_) h
      cases hd'
      exact ⟨.found nptm.allocator hfind, fun f hf => Or.inl hf, used, fun _ => id, hready⟩
  | none =>
      rw [hfind] at h
      cases alloc with
      | false => exact hlink (fun d hd => by cases hd) h
      | true =>
          have hnew : ∀ d, (nptm.newPde gpa).1 = .valid d →
              DescribesPde nptm gpa d (nptm.newPde gpa).2 ∧ nptm.Grows (nptm.newPde gpa).2 used :=
            fun d hd => newPde_eq_valid hready hfind (Prod.ext hd rfl)
          exact hlink hnew h

theorem Grows.trans {nptm₁ nptm₂ : NptManager} {used₁ : Nat → Prop}
    (hgrown : ∀ f, nptm₁.Used f → nptm.Used f ∨ ¬used f) (hused : ∀ f, used f → used₁ f)
    (h : nptm₁.Grows nptm₂ used₁) : nptm.Grows nptm₂ used := by
  obtain ⟨hgrown₂, used₂, hused₂, hready₂⟩ := h
  refine ⟨fun f hf => ?_, used₂, fun f hf => hused₂ f (hused f hf), hready₂⟩
  rcases hgrown₂ f hf with hold | hnew
  · exact hgrown f hold
  · exact Or.inr fun huse => hnew (hused f huse)

theorem Grows.refl (hready : nptm.Ready used) : nptm.Grows nptm used :=
  ⟨fun _ => Or.inl, used, fun _ => id, hready⟩

/-- A change that leaves the lists and the allocator alone. -/
theorem Grows.of_layout_eq {nptm₁ nptm₂ : NptManager} (h : nptm.Grows nptm₁ used)
    (hwf : nptm₂.Wf) (hallocator : nptm₂.allocator = nptm₁.allocator)
    (hlayout : nptm₂.layout = nptm₁.layout) : nptm.Grows nptm₂ used := by
  obtain ⟨hgrown, used', hused, hready⟩ := h
  refine ⟨fun f hf => hgrown f ?_, used', hused, hready.of_used_eq hwf hallocator hlayout⟩
  rwa [Used, hlayout] at hf

theorem SplitsPdpte.wf (hwf : nptm.Wf) (h : SplitsPdpte nptm gpa d nptm') : nptm'.Wf := by
  obtain ⟨hgpa, described, hdescribes, rfl⟩ := h
  exact (hdescribes.wf hwf).linkPdpte hgpa (hdescribes.layout hwf)

theorem SplitsPdpte.findPde (h : SplitsPdpte nptm gpa d nptm') : nptm'.findPde gpa = some d := by
  obtain ⟨-, described, hdescribes, rfl⟩ := h
  exact hdescribes.findPde

theorem SplitsPdpte.layout (hwf : nptm.Wf) (h : SplitsPdpte nptm gpa d nptm') :
    nptm'.layout 1 (page1gbCount gpa) = some d.frame := by
  rw [layout_one (h.wf hwf).pdeAligned, h.findPde]
  rfl

theorem SplitsPde.wf (hwf : nptm.Wf) (h : SplitsPde nptm gpa d t nptm') : nptm'.Wf := by
  obtain ⟨linked, described, hsplit, hdescribes, rfl⟩ := h
  have hlinked := hsplit.wf hwf
  refine (hdescribes.wf hlinked hsplit.findPde).linkPde ?_ (hdescribes.layout hlinked)
  rw [hdescribes.layout_of_ne hlinked (by simp)]
  exact hsplit.layout hwf

theorem SplitsPdpte.eq_of_findPde {d' : NptDescriptor} (h : SplitsPdpte nptm gpa d nptm')
    (hfound : nptm.findPde gpa = some d') : d' = d := by
  obtain ⟨-, described, hdescribes, -⟩ := h
  cases hdescribes with
  | found allocator h => exact Option.some.inj (hfound.symm.trans h)
  | made allocator hnone _ _ => rw [hnone] at hfound; cases hfound

theorem DescribesPte.set_allocator (h : DescribesPte nptm gpa t nptm') (allocator : Allocator) :
    DescribesPte nptm gpa t { nptm' with allocator } := by
  cases h with
  | found _ hfound => exact .found allocator hfound
  | made _ hnone hunused hframe => exact .made allocator hnone hunused hframe

theorem DescribesPte.pdpte (h : DescribesPte nptm gpa t nptm') {k : Nat} (hk : k < 512 * 512) :
    nptm'.pdpte k = nptm.pdpte k := by
  have hframe : nptm'.pdpteFrame k = nptm.pdpteFrame k := by
    rw [pdpteFrame, h.fixed.2.1, pdpteFrame]
  rw [NptManager.pdpte, hframe]
  exact h.memory (layout_two hk) _

/-- Splitting a PDPTE once more changes nothing. -/
theorem SplitsPdpte.eq_of_pdpte (h : SplitsPdpte nptm gpa d nptm') {entry : NptEntry}
    (hfound : nptm.findPde gpa = some d)
    (hentry : nptm.pdpte (page1gbCount gpa) = entry.toTable d.phys) :
    ∃ allocator, nptm' = { nptm with allocator } := by
  obtain ⟨-, described, hdescribes, rfl⟩ := h
  cases hdescribes with
  | found allocator _ =>
      refine ⟨allocator, modifyEntry_eq_self ?_⟩
      change (nptm.pdpte (page1gbCount gpa)).toTable d.phys = nptm.pdpte (page1gbCount gpa)
      rw [hentry, toTable_toTable]
  | made allocator hnone _ _ => rw [hnone] at hfound; cases hfound

/-- The PDPTE after its split is a table entry with the permissions it had. -/
theorem SplitsPdpte.pdpte (h : SplitsPdpte nptm gpa d nptm') :
    nptm'.pdpte (page1gbCount gpa) = (nptm.pdpte (page1gbCount gpa)).toTable d.phys := by
  obtain ⟨hgpa, described, hdescribes, rfl⟩ := h
  have hsame := hdescribes.memory (layout_pdpte hgpa) (page1gbCount gpa % 512)
  have hframe : described.pdpteFrame (page1gbCount gpa) = nptm.pdpteFrame (page1gbCount gpa) := by
    rw [pdpteFrame, hdescribes.fixed.2.1, pdpteFrame]
  have hwritten : (described.linkPdpte gpa d).pdpte (page1gbCount gpa) =
      (described.pdpte (page1gbCount gpa)).toTable d.phys := Radix.Frames.set_self _ _ _ _
  rw [hwritten, pdpte, hframe, hsame]
  rfl

theorem SplitsPdpte.of_allocator {allocator : Allocator}
    (h : SplitsPdpte { nptm with allocator } gpa d nptm') : SplitsPdpte nptm gpa d nptm' := by
  obtain ⟨hgpa, described, hdescribes, rfl⟩ := h
  exact ⟨hgpa, described, hdescribes.of_allocator, rfl⟩

theorem newPte_eq_valid (hready : nptm.Ready used) (hnone : nptm.findPte gpa = none)
    (h : nptm.newPte gpa true = .ok (.valid t, nptm')) :
    ∃ d linked, SplitsPdpte nptm gpa d linked ∧ DescribesPte linked gpa t nptm' ∧
      nptm.Grows nptm' used := by
  unfold newPte at h
  split at h
  · cases h
  · rename_i allocator hnonpg
    split at h
    · cases h
    · rename_i frame allocator' hcontd
      obtain rfl : nptm.allocator.noirAllocNonpgMemory.2 = allocator := by rw [hnonpg]
      have hfresh := hready.fresh.nonpg
      have hgiven : nptm.allocator.noirAllocNonpgMemory.2.noirAllocContdMemory.1 = some frame := by
        rw [hcontd]
      have hunused : ¬used frame := hfresh.unused 0 frame hgiven
      -- While the PDPTE is split the page taken for the PTEs is reserved.
      have hreserved : NptManager.Ready { nptm with allocator := allocator' }
          (fun f => used f ∨ f = frame) := by
        refine ⟨hready.wf.allocator _, ?_, fun f hf => Or.inl (hready.own f hf)⟩
        have hlater : nptm.allocator.noirAllocNonpgMemory.2.noirAllocContdMemory.2.Fresh
            fun f => used f ∨ f = frame := hfresh.contd_of_some hgiven fun f => id
        rwa [hcontd] at hlater
      simp only [bind, Except.bind] at h
      split at h
      · cases h
      · rename_i result hsplit
        obtain ⟨p, linked⟩ := result
        obtain ⟨d, rfl, hsplits, hgrown, used', hused, hready'⟩ :=
          nvcNptSplitPdpte_host hreserved hsplit
        simp only [Pointer.isNull, Bool.false_eq_true, if_false, pure, Except.pure,
          Except.ok.injEq, Prod.mk.injEq, Pointer.valid.injEq] at h
        obtain ⟨rfl, rfl⟩ := h
        have hnew : ¬linked.Used frame := by
          intro huse
          rcases hgrown frame huse with hold | hnot
          · exact hunused (hready.own frame hold)
          · exact hnot (Or.inr rfl)
        have hpte : linked.findPte gpa = none := by
          obtain ⟨-, described, hdescribes, rfl⟩ := hsplits
          change described.findPte gpa = none
          rw [findPte, hdescribes.fixed.2.2]
          exact hnone
        have hmade := DescribesPte.made linked.allocator hpte hnew (hfresh.inRange 0 frame hgiven)
        have hlayout : (linked.pushPte gpa frame).2.layout =
            linked.layout.extend 0 (page2mbCount gpa) frame :=
          layout_pushPte hready'.wf.pteAligned hpte
        refine ⟨d, linked, hsplits.of_allocator, hmade, fun f hf => ?_, used',
          fun f hf => hused f (Or.inl hf), hmade.wf hready'.wf hsplits.findPde, hready'.fresh,
          fun f hf => ?_⟩
        · obtain ⟨level, r, hf⟩ := hf
          rw [hlayout, Radix.Layout.extend] at hf
          split at hf
          · exact Or.inr (Option.some.inj hf ▸ hunused)
          · rcases hgrown f ⟨level, r, hf⟩ with hold | hnot
            · exact Or.inl hold
            · exact Or.inr fun huse => hnot (Or.inl huse)
        · obtain ⟨level, r, hf⟩ := hf
          rw [hlayout, Radix.Layout.extend] at hf
          split at hf
          · exact hused f (Or.inr (Option.some.inj hf).symm)
          · exact hready'.own f ⟨level, r, hf⟩

/-- A host-mode split that returns has followed its pointer. -/
theorem nvcNptSplitPdpte_isNull {p : Pointer NptDescriptor}
    (h : nvcNptSplitPdpte nptm gpa true alloc = .ok (p, nptm')) : p.isNull = false := by
  unfold nvcNptSplitPdpte at h
  split at h
  rename_i q described _
  cases q with
  | null => cases h
  | freed => cases h
  | valid d =>
      simp only [if_true, Pointer.deref, bind, Except.bind] at h
      split at h
      · cases h
      · simp only [pure, Except.pure, Except.ok.injEq, Prod.mk.injEq] at h
        rw [← h.1]
        rfl

/-- The second half of a host-mode split of a PDE, run on the descriptor at hand. -/
theorem linkPde_host {described : NptManager} {p q : Pointer NptDescriptor}
    (h : (do
      let (pdeP, nptm) ← nvcNptSplitPdpte described gpa true alloc
      if pdeP.isNull then
        return (q, nptm)
      else
        let d ← pdeP.deref
        let t ← q.deref
        return (q, nptm.modifyEntry d.frame (pageEntryIndex64 (page2mbCount gpa))
          (·.toTable t.phys))) = Except.ok (p, nptm')) :
    ∃ t, p = .valid t ∧ q = .valid t ∧ ∀ used, described.Ready used →
      ∃ d linked, SplitsPdpte described gpa d linked ∧ described.Grows linked used ∧
        nptm' = linked.linkPde gpa d t := by
  simp only [bind, Except.bind] at h
  split at h
  · cases h
  · rename_i result hsplit
    obtain ⟨p', linked⟩ := result
    simp only [nvcNptSplitPdpte_isNull hsplit, Bool.false_eq_true, if_false] at h
    split at h
    · cases h
    · rename_i d hd
      obtain rfl := Pointer.deref_eq_ok.mp hd
      cases q with
      | null => cases h
      | freed => cases h
      | valid t =>
          simp only [Pointer.deref, pure, Except.pure, Except.ok.injEq, Prod.mk.injEq] at h
          obtain ⟨rfl, rfl⟩ := h
          refine ⟨t, rfl, rfl, fun used hready => ?_⟩
          obtain ⟨d', hd', hsplits, hgrows⟩ := nvcNptSplitPdpte_host hready hsplit
          cases hd'
          exact ⟨d, linked, hsplits, hgrows, rfl⟩

theorem nvcNptSplitPde_host {p : Pointer NptDescriptor} (hready : nptm.Ready used)
    (h : nvcNptSplitPde nptm gpa true alloc = .ok (p, nptm')) :
    ∃ d t, p = .valid t ∧ SplitsPde nptm gpa d t nptm' ∧ nptm.Grows nptm' used := by
  unfold nvcNptSplitPde at h
  cases hfind : nptm.findPte gpa with
  | some t =>
      rw [hfind] at h
      obtain ⟨t', rfl, ht, hlink⟩ := linkPde_host h
      cases ht
      obtain ⟨d, linked, hsplits, hgrows, rfl⟩ := hlink used hready
      have hpte : linked.findPte gpa = some t := by
        obtain ⟨-, described, hdescribes, rfl⟩ := hsplits
        change described.findPte gpa = some t
        rw [findPte, hdescribes.fixed.2.2]
        exact hfind
      have hsplits' : SplitsPde nptm gpa d t (linked.linkPde gpa d t) :=
        ⟨linked, linked, hsplits, .found linked.allocator hpte, rfl⟩
      exact ⟨d, t, rfl, hsplits', hgrows.of_layout_eq (hsplits'.wf hready.wf) rfl rfl⟩
  | none =>
      rw [hfind] at h
      cases alloc with
      | false =>
          obtain ⟨t, -, hnull, -⟩ := linkPde_host h
          cases hnull
      | true =>
          simp only [if_true] at h
          cases hnew : nptm.newPte gpa true with
          | error fault => rw [hnew] at h; cases h
          | ok result =>
              obtain ⟨q, pushed⟩ := result
              rw [hnew] at h
              obtain ⟨t, rfl, rfl, hlink⟩ := linkPde_host h
              obtain ⟨d, linked, hsplits, hdescribes, hgrown, used₁, hused₁, hready₁⟩ :=
                newPte_eq_valid hready hfind hnew
              obtain ⟨d', linked', hsplits', hgrows', rfl⟩ := hlink used₁ hready₁
              -- The PDPTE was split while the table was made; this second time nothing changes.
              have hfound : pushed.findPde gpa = some d := by
                rw [findPde, hdescribes.fixed.2.2]
                exact hsplits.findPde
              obtain rfl := hsplits'.eq_of_findPde hfound
              have hpdpte : pushed.pdpte (page1gbCount gpa) =
                  (nptm.pdpte (page1gbCount gpa)).toTable d.phys := by
                rw [← hsplits.pdpte]
                exact hdescribes.pdpte hsplits.1
              obtain ⟨allocator, rfl⟩ := hsplits'.eq_of_pdpte hfound hpdpte
              have hsplitsPde : SplitsPde nptm gpa d t
                  (NptManager.linkPde { pushed with allocator } gpa d t) :=
                ⟨linked, _, hsplits, hdescribes.set_allocator allocator, rfl⟩
              exact ⟨d, t, rfl, hsplitsPde, (Grows.trans hgrown hused₁ hgrows').of_layout_eq
                (hsplitsPde.wf hready.wf) rfl rfl⟩

end Specs

end NoirVisor.NptManager
