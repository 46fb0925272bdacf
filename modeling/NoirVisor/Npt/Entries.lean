import NoirVisor.Npt.Update

/-!
# Properties of every entry

A property of the entries of all tables, by level, region and index, survives a split when the
entries of a new table have it and pointing an entry at a table keeps it.
-/

namespace NoirVisor.NptManager

/-- A property of every entry of every table. -/
def Entries (nptm : NptManager) (P : Nat → Nat → Nat → NptEntry → Prop) : Prop :=
  ∀ level r frame i, nptm.layout level r = some frame → i < 512 →
    P level r i (nptm.memory frame i)

variable {nptm nptm' : NptManager} {gpa : Nat} {d t : NptDescriptor}
  {P : Nat → Nat → Nat → NptEntry → Prop}

theorem Entries.modifyEntry {level r frame i : Nat} {f : NptEntry → NptEntry}
    (hentries : nptm.Entries P) (hwf : nptm.Wf) (htable : nptm.layout level r = some frame)
    (hentry : P level r i (f (nptm.memory frame i))) :
    (nptm.modifyEntry frame i f).Entries P := by
  intro level' r' frame' i' hframe' hi'
  change P level' r' i' (nptm.memory.set frame i (f (nptm.memory frame i)) frame' i')
  by_cases hwritten : frame' = frame ∧ i' = i
  · obtain ⟨rfl, rfl⟩ := hwritten
    obtain ⟨rfl, rfl⟩ := hwf.disjoint _ _ _ _ _ hframe' htable
    rw [Radix.Frames.set_self]
    exact hentry
  · rw [Radix.Frames.set_of_ne hwritten]
    exact hentries level' r' frame' i' hframe' hi'

theorem DescribesPde.eq_of_findPde {d' : NptDescriptor} (h : DescribesPde nptm gpa d nptm')
    (hfound : nptm.findPde gpa = some d') : d' = d := by
  cases h with
  | found allocator h => exact Option.some.inj (hfound.symm.trans h)
  | made allocator hnone _ _ => rw [hnone] at hfound; cases hfound

theorem DescribesPte.eq_of_findPte {t' : NptDescriptor} (h : DescribesPte nptm gpa t nptm')
    (hfound : nptm.findPte gpa = some t') : t' = t := by
  cases h with
  | found allocator h => exact Option.some.inj (hfound.symm.trans h)
  | made allocator hnone _ _ => rw [hnone] at hfound; cases hfound

/-- The entries of a table that is made, where none was found, have the property. -/
theorem DescribesPde.entries_of (hwf : nptm.Wf) (h : DescribesPde nptm gpa d nptm')
    (hentries : nptm.Entries P)
    (hnew : nptm.findPde gpa = none → ∀ i < 512,
      P 1 (page1gbCount gpa) i (splitLargeEntry (page1gbCount gpa * 512) i)) :
    nptm'.Entries P := by
  intro level r frame i hframe hi
  by_cases hregion : level = 1 ∧ r = page1gbCount gpa
  · obtain ⟨rfl, rfl⟩ := hregion
    obtain rfl := Option.some.inj (hframe.symm.trans (h.layout hwf))
    cases hfind : nptm.findPde gpa with
    | some d' =>
        obtain rfl := h.eq_of_findPde hfind
        have hd : nptm.layout 1 (page1gbCount gpa) = some d'.frame := by
          rw [layout_one hwf.pdeAligned, hfind]
          rfl
        rw [h.memory hd]
        exact hentries 1 _ _ i hd hi
    | none =>
        rw [h.table_of_none hfind]
        exact hnew hfind i hi
  · rw [h.layout_of_ne hwf hregion] at hframe
    rw [h.memory hframe]
    exact hentries level r frame i hframe hi

theorem DescribesPte.entries_of (hwf : nptm.Wf) (h : DescribesPte nptm gpa t nptm')
    (hentries : nptm.Entries P)
    (hnew : nptm.findPte gpa = none → ∀ i < 512,
      P 0 (page2mbCount gpa) i (splitPageEntry (page2mbCount gpa * 512) i)) :
    nptm'.Entries P := by
  intro level r frame i hframe hi
  by_cases hregion : level = 0 ∧ r = page2mbCount gpa
  · obtain ⟨rfl, rfl⟩ := hregion
    obtain rfl := Option.some.inj (hframe.symm.trans (h.layout hwf))
    cases hfind : nptm.findPte gpa with
    | some t' =>
        obtain rfl := h.eq_of_findPte hfind
        have ht : nptm.layout 0 (page2mbCount gpa) = some t'.frame := by
          rw [layout_zero hwf.pteAligned, hfind]
          rfl
        rw [h.memory ht]
        exact hentries 0 _ _ i ht hi
    | none =>
        rw [h.table_of_none hfind]
        exact hnew hfind i hi
  · rw [h.layout_of_ne hwf hregion] at hframe
    rw [h.memory hframe]
    exact hentries level r frame i hframe hi

/-- Splitting the PDPTE makes a table of PDEs at most, and links it. -/
theorem SplitsPdpte.entries_of (hwf : nptm.Wf) (h : SplitsPdpte nptm gpa d nptm')
    (htable : ∀ r i entry phys, P 2 r i entry → P 2 r i (entry.toTable phys))
    (hnew : nptm.findPde gpa = none → ∀ i < 512,
      P 1 (page1gbCount gpa) i (splitLargeEntry (page1gbCount gpa * 512) i))
    (hentries : nptm.Entries P) : nptm'.Entries P := by
  obtain ⟨hgpa, described, hdescribes, rfl⟩ := h
  have hentries' := hdescribes.entries_of hwf hentries hnew
  have hlayout : described.layout 2 (page1gbCount gpa / 512) = _ := layout_pdpte hgpa
  exact hentries'.modifyEntry (hdescribes.wf hwf) hlayout
    (htable _ _ _ _ (hentries' 2 _ _ _ hlayout (Nat.mod_lt _ (by decide))))

theorem SplitsPde.entries_of (hwf : nptm.Wf) (h : SplitsPde nptm gpa d t nptm')
    (htable : ∀ level r i entry phys, level ≠ 0 → P level r i entry →
      P level r i (entry.toTable phys))
    (hlarge : nptm.findPde gpa = none → ∀ i < 512,
      P 1 (page1gbCount gpa) i (splitLargeEntry (page1gbCount gpa * 512) i))
    (hpage : nptm.findPte gpa = none → ∀ i < 512,
      P 0 (page2mbCount gpa) i (splitPageEntry (page2mbCount gpa * 512) i))
    (hentries : nptm.Entries P) : nptm'.Entries P := by
  have hd := h.layout_pde hwf
  obtain ⟨linked, described, hsplit, hdescribes, rfl⟩ := h
  change described.layout 1 _ = _ at hd
  have hlinked := hsplit.wf hwf
  have hupper := hsplit.entries_of hwf (fun r i entry phys => htable 2 r i entry phys (by decide))
    hlarge hentries
  rw [← hsplit.findPte] at hpage
  have hentries' := hdescribes.entries_of hlinked hupper hpage
  exact hentries'.modifyEntry (hdescribes.wf hlinked hsplit.findPde) hd
    (htable 1 _ _ _ _ (by decide) (hentries' 1 _ _ _ hd (Nat.mod_lt _ (by decide))))

/-- What a property must satisfy to survive splits. -/
structure SplitClosed (P : Nat → Nat → Nat → NptEntry → Prop) : Prop where
  large : ∀ r < 512 * 512, ∀ i < 512, P 1 r i (splitLargeEntry (r * 512) i)
  page : ∀ r < 512 * 512 * 512, ∀ i < 512, P 0 r i (splitPageEntry (r * 512) i)
  table : ∀ level r i entry phys, level ≠ 0 → P level r i entry → P level r i (entry.toTable phys)

theorem SplitsPdpte.entries (hwf : nptm.Wf) (h : SplitsPdpte nptm gpa d nptm')
    (hclosed : SplitClosed P) (hentries : nptm.Entries P) : nptm'.Entries P :=
  h.entries_of hwf (fun r i entry phys => hclosed.table 2 r i entry phys (by decide))
    (fun _ => hclosed.large _ h.1) hentries

theorem SplitsPde.entries (hwf : nptm.Wf) (h : SplitsPde nptm gpa d t nptm')
    (hclosed : SplitClosed P) (hentries : nptm.Entries P) : nptm'.Entries P := by
  have hgpa := h.inRange
  have hregion : page2mbCount gpa < 512 * 512 * 512 := by
    simp only [page1gbCount, page2mbCount] at hgpa ⊢
    omega
  exact h.entries_of hwf hclosed.table (fun _ => hclosed.large _ hgpa)
    (fun _ => hclosed.page _ hregion) hentries

end NoirVisor.NptManager
