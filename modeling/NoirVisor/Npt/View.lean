import NoirVisor.Npt.Split

/-!
# What the guest sees

The nested walk from the root of a manager, and the abstract map it stands for: the host address of
each guest address with the rights every entry on the way grants.
-/

namespace NoirVisor

/-- A table entry takes away the rights it does not grant. -/
def NptEntry.restrict (entry : NptEntry) (view : NptView) : NptView :=
  { view with
    write := entry.write && view.write
    user := entry.user && view.user
    execute := !entry.noExecute && view.execute }

/-- The view through a single entry that maps a page. -/
def leafView (level : Nat) (entry : NptEntry) (address : Nat) : NptView :=
  { hpa := entry.pageBase level * 2 ^ (12 + 9 * level) + address % 2 ^ (12 + 9 * level)
    write := entry.write
    user := entry.user
    execute := !entry.noExecute }

/-- What a walk from one table makes of an address. -/
def tableView (memory : Radix.Frames NptEntry) (level frame address : Nat) : Option NptView :=
  (Radix.walk nptFormat memory level frame address).bind (nptViewOf · address)

theorem nptViewOf_under (entry : NptEntry) (walk : Radix.Walk NptEntry) (address : Nat) :
    nptViewOf (walk.under entry) address =
      if entry.present then (nptViewOf walk address).map entry.restrict else none := by
  unfold nptViewOf
  simp only [Radix.Walk.entries_under, List.all_cons]
  by_cases hpresent : entry.present = true
  · simp only [hpresent, Bool.true_and, if_true]
    split
    · simp [NptEntry.restrict, leafTarget]
    · rfl
  · simp [hpresent]

theorem nptViewOf_leaf (entry : NptEntry) (level address : Nat) :
    nptViewOf ⟨[], entry, level⟩ address =
      if entry.present then some (leafView level entry address) else none := by
  simp [nptViewOf, Radix.Walk.entries, leafView, leafTarget]

theorem tableView_zero (memory : Radix.Frames NptEntry) (frame address : Nat) :
    tableView memory 0 frame address =
      if (memory frame (Radix.index 0 address)).present then
        some (leafView 0 (memory frame (Radix.index 0 address)) address)
      else none := by
  simp only [tableView, Radix.walk, Option.bind_some, nptViewOf_leaf]

theorem tableView_succ (memory : Radix.Frames NptEntry) (level frame address : Nat) :
    tableView memory (level + 1) frame address =
      let entry := memory frame (Radix.index (level + 1) address)
      if entry.present then
        if nptFormat.leaf (level + 1) entry then some (leafView (level + 1) entry address)
        else (tableView memory level entry.base address).map entry.restrict
      else none := by
  simp only [tableView, Radix.walk]
  split
  · simp [nptViewOf_leaf]
  · by_cases hpresent : (memory frame (Radix.index (level + 1) address)).present = true
    · simp only [nptFormat, hpresent, if_true]
      cases Radix.walk _ memory level _ address with
      | none => rfl
      | some walk => simp [nptViewOf_under, hpresent]
    · simp [nptFormat, hpresent]

/-- A view depends on the entries above one of its tables and on the view from that table. -/
theorem tableView_congr {layout : Radix.Layout} {memory memory' : Radix.Frames NptEntry}
    {level frame l f address : Nat} (hlinked : Radix.Linked nptFormat layout memory)
    (hle : l ≤ level) (hroot : layout level (Radix.region (level + 1) address) = some frame)
    (htable : layout l (Radix.region (l + 1) address) = some f)
    (habove : ∀ l', l < l' → l' ≤ level → ∀ g,
      layout l' (Radix.region (l' + 1) address) = some g →
      memory' g (Radix.index l' address) = memory g (Radix.index l' address))
    (hview : tableView memory' l f address = tableView memory l f address) :
    tableView memory' level frame address = tableView memory level frame address := by
  induction level generalizing frame with
  | zero =>
      obtain rfl : l = 0 := by omega
      obtain rfl : frame = f := Option.some.inj (hroot.symm.trans htable)
      exact hview
  | succ level ih =>
      by_cases heq : l = level + 1
      · subst heq
        obtain rfl : frame = f := Option.some.inj (hroot.symm.trans htable)
        exact hview
      · rw [tableView_succ, tableView_succ, habove (level + 1) (by omega) le_rfl frame hroot]
        simp only
        split
        · rename_i hpresent
          split
          · rfl
          · rename_i hleaf
            have hchild := hlinked level _ frame _ hroot (Radix.index_lt (level + 1) address)
              (by simp only [Radix.Format.isTable]; simp [hleaf]; exact hpresent)
            rw [← Radix.region_eq] at hchild
            exact congrArg _ (ih (by omega) hchild fun l' hl hl' => habove l' hl (by omega))
        · rfl

/-- Pointing an entry at the table below it keeps the view when the table, if the entry mapped a
page until now, maps the same page with every right. -/
theorem tableView_link {memory memory' : Radix.Frames NptEntry} {level frame child address : Nat}
    {entry entry' : NptEntry}
    (hentry : memory frame (Radix.index (level + 1) address) = entry)
    (hentry' : memory' frame (Radix.index (level + 1) address) = entry')
    (hpresent : entry'.present = entry.present)
    (hrestrict : entry'.restrict = entry.restrict) (hpsize : entry'.psize = false)
    (hbase : entry'.base = child)
    (hsub : tableView memory' level child address = tableView memory level child address)
    (htable : entry.present = true → nptFormat.leaf (level + 1) entry = false → entry.base = child)
    (hpage : entry.present = true → nptFormat.leaf (level + 1) entry = true →
      (tableView memory level child address).map entry.restrict =
        some (leafView (level + 1) entry address)) :
    tableView memory' (level + 1) frame address = tableView memory (level + 1) frame address := by
  rw [tableView_succ, tableView_succ, hentry, hentry']
  simp only [hpresent]
  by_cases hp : entry.present = true
  · have hleaf' : nptFormat.leaf (level + 1) entry' = false := by simp [nptFormat, hpsize]
    simp only [hp, hleaf', if_true, hbase, hsub, hrestrict]
    by_cases hleaf : nptFormat.leaf (level + 1) entry = true
    · simp only [hleaf, if_true]
      exact hpage hp hleaf
    · rw [htable hp (by simpa using hleaf)]
      simp [hleaf]
  · simp [hp]

namespace NptManager

def walk (nptm : NptManager) (address : Nat) : Option (Radix.Walk NptEntry) :=
  Radix.walk nptFormat nptm.memory 3 (page4kbCount nptm.ncr3) address

/-- The abstract map the tables stand for. -/
def view (nptm : NptManager) (address : Nat) : Option NptView :=
  tableView nptm.memory 3 (page4kbCount nptm.ncr3) address

theorem view_eq (nptm : NptManager) (address : Nat) :
    nptm.view address = (nptm.walk address).bind (nptViewOf · address) := rfl

variable {nptm nptm' : NptManager} {gpa address : Nat} {d t : NptDescriptor}

theorem layout_root (haddress : address < 2 ^ 48) :
    nptm.layout 3 (Radix.region (3 + 1) address) = some (page4kbCount nptm.ncr3) := by
  rw [region_four haddress]
  rfl

theorem layout_region_two (haddress : address < 2 ^ 48) :
    nptm.layout 2 (Radix.region (2 + 1) address) = some (nptm.pdpteFrame (page1gbCount address)) := by
  rw [region_three, ← layout_pdpte (page1gbCount_lt haddress)]
  congr 1
  simp only [page512gbCount, page1gbCount]
  omega

/-- Entries outside the tables of a layout take no part in its walks. -/
theorem walk_eq_of_memory (hwf : nptm.Wf) (haddress : address < 2 ^ 48)
    (hncr3 : nptm'.ncr3 = nptm.ncr3)
    (hsame : ∀ l r f i, nptm.layout l r = some f → nptm'.memory f i = nptm.memory f i) :
    nptm'.walk address = nptm.walk address := by
  unfold walk
  rw [hncr3]
  exact Radix.walk_congr hwf.linked (layout_root haddress) fun l _ f hf => hsame l _ f _ hf

theorem DescribesPde.walk (hwf : nptm.Wf) (h : DescribesPde nptm gpa d nptm')
    (haddress : address < 2 ^ 48) : nptm'.walk address = nptm.walk address :=
  walk_eq_of_memory hwf haddress h.fixed.1 fun _ _ _ i hf => h.memory hf i

theorem DescribesPte.walk (hwf : nptm.Wf) (h : DescribesPte nptm gpa t nptm')
    (haddress : address < 2 ^ 48) : nptm'.walk address = nptm.walk address :=
  walk_eq_of_memory hwf haddress h.fixed.1 fun _ _ _ i hf => h.memory hf i

theorem walk_modifyEntry_of_ne {level r frame i : Nat} {f : NptEntry → NptEntry} (hwf : nptm.Wf)
    (haddress : address < 2 ^ 48) (htable : nptm.layout level r = some frame)
    (hne : Radix.region level address ≠ 512 * r + i) :
    (nptm.modifyEntry frame i f).walk address = nptm.walk address :=
  Radix.walk_set_of_ne hwf.linked hwf.disjoint (layout_root haddress) htable hne

theorem view_eq_of_walk (h : nptm'.walk address = nptm.walk address) :
    nptm'.view address = nptm.view address := by
  rw [view_eq, view_eq, h]

/-! ### Splitting under a condition

A split keeps the view of its own page in two cases: the entry is a table entry already, or it maps
its page to itself and no table for it was left from before. -/

/-- Splitting the PDPTE of `gpa` neither brings back an old table nor loses a target. -/
def PdpteSplittable (nptm : NptManager) (gpa : Nat) : Prop :=
  (nptm.pdpte (page1gbCount gpa)).psize = true → (nptm.pdpte (page1gbCount gpa)).present = true →
    nptm.findPde gpa = none ∧
      (nptm.pdpte (page1gbCount gpa)).hugePageBase = page1gbCount gpa

/-- The PDE of `gpa` in a table of PDEs. -/
def pdeOf (nptm : NptManager) (d : NptDescriptor) (gpa : Nat) : NptEntry :=
  nptm.memory d.frame (pageEntryIndex64 (page2mbCount gpa))

def PdeSplittable (nptm : NptManager) (gpa : Nat) : Prop :=
  (nptm.pdpte (page1gbCount gpa)).present = true → ∀ d, nptm.findPde gpa = some d →
    (nptm.pdeOf d gpa).psize = true → (nptm.pdeOf d gpa).present = true →
      nptm.findPte gpa = none ∧ (nptm.pdeOf d gpa).largePageBase = page2mbCount gpa

theorem leafView_splitLargeEntry (haddress : address < 2 ^ 48)
    (hpage : page1gbCount address = page1gbCount gpa) :
    leafView 1 (splitLargeEntry (page1gbCount gpa * 512) (Radix.index 1 address)) address =
      ⟨address, true, true, true⟩ := by
  rw [← hpage]
  simp only [leafView, splitLargeEntry, NptEntry.setLargePageBase, NptEntry.pageBase,
    Radix.index, region_one, page1gbCount, page2mbCount]
  congr 1
  omega

theorem leafView_splitPageEntry (haddress : address < 2 ^ 48)
    (hpage : page2mbCount address = page2mbCount gpa) :
    leafView 0 (splitPageEntry (page2mbCount gpa * 512) (Radix.index 0 address)) address =
      ⟨address, true, true, true⟩ := by
  rw [← hpage]
  simp only [leafView, splitPageEntry, NptEntry.setBase, NptEntry.pageBase,
    Radix.index, region_zero, page4kbCount, page2mbCount]
  congr 1
  omega

/-- An entry that maps a page to itself. -/
theorem leafView_of_pageBase {level : Nat} {entry : NptEntry}
    (hself : entry.pageBase level = Radix.region level address) :
    leafView level entry address =
      ⟨address, entry.write, entry.user, !entry.noExecute⟩ := by
  rw [leafView, hself, Radix.region, Nat.mul_comm, Nat.div_add_mod]

theorem DescribesPde.table_of_none (h : DescribesPde nptm gpa d nptm')
    (hnone : nptm.findPde gpa = none) (i : Nat) :
    nptm'.memory d.frame i = splitLargeEntry (page1gbCount gpa * 512) i := by
  cases h with
  | found allocator hfound => rw [hnone] at hfound; cases hfound
  | made allocator _ _ _ => exact Radix.Frames.fill_self _ _ _ _

theorem DescribesPte.table_of_none (h : DescribesPte nptm gpa t nptm')
    (hnone : nptm.findPte gpa = none) (i : Nat) :
    nptm'.memory t.frame i = splitPageEntry (page2mbCount gpa * 512) i := by
  cases h with
  | found allocator hfound => rw [hnone] at hfound; cases hfound
  | made allocator _ _ _ => exact Radix.Frames.fill_self _ _ _ _

theorem DescribesPde.pdpte (h : DescribesPde nptm gpa d nptm') {k : Nat} (hk : k < 512 * 512) :
    nptm'.pdpte k = nptm.pdpte k := by
  have hframe : nptm'.pdpteFrame k = nptm.pdpteFrame k := by
    rw [pdpteFrame, h.fixed.2.1, pdpteFrame]
  rw [NptManager.pdpte, hframe]
  exact h.memory (layout_two hk) _

/-- Linking the PDPTE of `gpa` affects no address of another 1 GiB page. -/
theorem SplitsPdpte.walk_of_ne (hwf : nptm.Wf) (h : SplitsPdpte nptm gpa d nptm')
    (haddress : address < 2 ^ 48) (hne : page1gbCount address ≠ page1gbCount gpa) :
    nptm'.walk address = nptm.walk address := by
  obtain ⟨hgpa, described, hdescribes, rfl⟩ := h
  rw [← hdescribes.walk hwf haddress]
  refine walk_modifyEntry_of_ne (hdescribes.wf hwf) haddress (layout_pdpte hgpa) ?_
  rw [region_two]
  omega

theorem SplitsPdpte.view (hwf : nptm.Wf) (h : SplitsPdpte nptm gpa d nptm')
    (hsplittable : nptm.PdpteSplittable gpa) (haddress : address < 2 ^ 48) :
    nptm'.view address = nptm.view address := by
  by_cases hpage : page1gbCount address = page1gbCount gpa
  · obtain ⟨hgpa, described, hdescribes, rfl⟩ := h
    rw [← view_eq_of_walk (hdescribes.walk hwf haddress)]
    have hwf' := hdescribes.wf hwf
    have htable : described.layout 2 (page1gbCount gpa / 512) = _ := layout_pdpte hgpa
    have hd := hdescribes.layout hwf
    have hd' : described.layout 1 (Radix.region (1 + 1) address) = some d.frame := by
      rw [region_two, hpage, hd]
    have hindex : Radix.index (1 + 1) address = page1gbCount gpa % 512 := by
      rw [Radix.index, region_two, hpage]
    have hentry : described.memory (described.pdpteFrame (page1gbCount gpa))
        (Radix.index (1 + 1) address) = nptm.pdpte (page1gbCount gpa) := by
      rw [hindex, ← hdescribes.pdpte hgpa]
      rfl
    have hroot : described.layout 2 (Radix.region (2 + 1) address) =
        some (described.pdpteFrame (page1gbCount gpa)) := by
      rw [layout_region_two haddress, hpage]
    refine tableView_congr hwf'.linked (by decide) (layout_root haddress) hroot
      (fun l' hl hl' g hg => ?_) ?_
    · refine Radix.Frames.set_of_frame_ne fun heq => ?_
      have := (hwf'.disjoint _ _ _ _ _ hg (heq ▸ htable)).1
      omega
    · have hentry' : (described.linkPdpte gpa d).memory (described.pdpteFrame (page1gbCount gpa))
          (Radix.index (1 + 1) address) = (nptm.pdpte (page1gbCount gpa)).toTable d.phys := by
        rw [hindex]
        refine (Radix.Frames.set_self _ _ _ _).trans ?_
        rw [← hdescribes.pdpte hgpa]
        rfl
      refine tableView_link hentry hentry' rfl rfl rfl (toTable_base (hwf'.inRange _ _ _ hd)) ?_
        (fun hpresent hleaf => ?_) (fun hpresent hleaf => ?_)
      · unfold tableView
        rw [linkPdpte, modifyEntry,
          Radix.walk_set_of_lt hwf'.linked hwf'.disjoint hd' htable (by decide)]
      · have hlinked := hwf'.linked 1 _ _ _ htable (Nat.mod_lt _ (by decide))
          (by rw [← hindex, hentry]
              simp only [Radix.Format.isTable, hleaf]
              simpa [nptFormat] using hpresent)
        rw [Nat.div_add_mod, hd, ← hindex, hentry] at hlinked
        exact (Option.some.inj hlinked).symm
      · have hpsize : (nptm.pdpte (page1gbCount gpa)).psize = true := by
          simpa [nptFormat] using hleaf
        obtain ⟨hnone, hself⟩ := hsplittable hpsize hpresent
        have hsplit := hdescribes.table_of_none hnone (Radix.index 1 address)
        rw [tableView_succ]
        simp only [Nat.zero_add, hsplit]
        rw [leafView_splitLargeEntry haddress hpage, leafView_of_pageBase (by
          rw [← hself] at hpage
          exact hpage.symm)]
        simp [splitLargeEntry, nptFormat, NptEntry.restrict]
  · exact view_eq_of_walk (h.walk_of_ne hwf haddress hpage)

/-- Linking a PDPTE leaves the PDEs below it alone. -/
theorem SplitsPdpte.memory_pde (hwf : nptm.Wf) (h : SplitsPdpte nptm gpa d nptm') (i : Nat) :
    ∃ described, DescribesPde nptm gpa d described ∧
      nptm'.memory d.frame i = described.memory d.frame i := by
  obtain ⟨hgpa, described, hdescribes, rfl⟩ := h
  refine ⟨described, hdescribes, Radix.Frames.set_of_frame_ne fun heq => ?_⟩
  have hd := hdescribes.layout hwf
  have := ((hdescribes.wf hwf).disjoint _ _ _ _ _ hd (heq ▸ layout_pdpte hgpa)).1
  omega

theorem SplitsPdpte.pdeOf_of_found (hwf : nptm.Wf) (h : SplitsPdpte nptm gpa d nptm')
    (hfound : nptm.findPde gpa = some d) : nptm'.pdeOf d gpa = nptm.pdeOf d gpa := by
  obtain ⟨described, hdescribes, hmemory⟩ := h.memory_pde hwf (pageEntryIndex64 (page2mbCount gpa))
  have hd : nptm.layout 1 (page1gbCount gpa) = some d.frame := by
    rw [layout_one hwf.pdeAligned, hfound]
    rfl
  exact hmemory.trans (hdescribes.memory hd _)

theorem SplitsPdpte.pdeOf_of_none (hwf : nptm.Wf) (h : SplitsPdpte nptm gpa d nptm')
    (hnone : nptm.findPde gpa = none) :
    nptm'.pdeOf d gpa =
      splitLargeEntry (page1gbCount gpa * 512) (pageEntryIndex64 (page2mbCount gpa)) := by
  obtain ⟨described, hdescribes, hmemory⟩ := h.memory_pde hwf (pageEntryIndex64 (page2mbCount gpa))
  exact hmemory.trans (hdescribes.table_of_none hnone _)

theorem SplitsPdpte.findPte (h : SplitsPdpte nptm gpa d nptm') :
    nptm'.findPte gpa = nptm.findPte gpa := by
  obtain ⟨-, described, hdescribes, rfl⟩ := h
  change described.findPte gpa = _
  rw [NptManager.findPte, hdescribes.fixed.2.2]
  rfl

/-- A 2 MiB page is described only below a described 1 GiB page. -/
theorem Wf.findPte_of_none (hwf : nptm.Wf) (hnone : nptm.findPde gpa = none) :
    nptm.findPte gpa = none := by
  by_contra hsome
  obtain ⟨t, ht⟩ := Option.ne_none_iff_exists'.mp hsome
  have hlayout : nptm.layout 0 (page2mbCount gpa) = some t.frame := by
    rw [layout_zero hwf.pteAligned, ht]
    rfl
  obtain ⟨f, hf⟩ := hwf.described _ _ hlayout
  have hregion : page2mbCount gpa / 512 = page1gbCount gpa := by
    simp only [page2mbCount, page1gbCount]
    omega
  rw [hregion, layout_one hwf.pdeAligned, hnone] at hf
  cases hf

theorem SplitsPde.walk_of_ne (hwf : nptm.Wf) (h : SplitsPde nptm gpa d t nptm')
    (haddress : address < 2 ^ 48) (hne : page2mbCount address ≠ page2mbCount gpa) :
    ∃ linked, SplitsPdpte nptm gpa d linked ∧ nptm'.walk address = linked.walk address := by
  obtain ⟨linked, described, hsplit, hdescribes, rfl⟩ := h
  have hlinked := hsplit.wf hwf
  refine ⟨linked, hsplit, ?_⟩
  rw [← hdescribes.walk hlinked haddress]
  have hd : described.layout 1 (page1gbCount gpa) = some d.frame := by
    rw [hdescribes.layout_of_ne hlinked (by simp)]
    exact hsplit.layout hwf
  refine walk_modifyEntry_of_ne (hdescribes.wf hlinked hsplit.findPde) haddress hd ?_
  rw [region_one]
  simp only [page2mbCount, page1gbCount, pageEntryIndex64] at hne ⊢
  omega

theorem tableView_two (hwf : nptm.Wf) (haddress : address < 2 ^ 48) :
    nptm.view address = (tableView nptm.memory 2 (nptm.pdpteFrame (page1gbCount address))
      address).map (identityPml4e nptm.pdpt (Radix.index 3 address)).restrict := by
  have hframe := hwf.inRange _ _ _ (layout_region_two haddress)
  unfold view
  rw [tableView_succ, hwf.pml4e _ (Radix.index_lt _ _)]
  have hbase : (identityPml4e nptm.pdpt (Radix.index 3 address)).base =
      nptm.pdpteFrame (page1gbCount address) := by
    simp only [identityPml4e, NptEntry.setBase, pdpteFrame, Radix.index, region_three,
      page1gbCount, page512gbCount, page4kbCount] at hframe ⊢
    omega
  simp only [Nat.reduceAdd]
  rw [hbase]
  simp [identityPml4e, nptFormat]

theorem view_of_absent (hwf : nptm.Wf) (haddress : address < 2 ^ 48)
    (habsent : (nptm.pdpte (page1gbCount address)).present = false) :
    nptm.view address = none := by
  have hentry : nptm.memory (nptm.pdpteFrame (page1gbCount address)) (Radix.index 2 address) =
      nptm.pdpte (page1gbCount address) := rfl
  rw [tableView_two hwf haddress, tableView_succ]
  simp only [Nat.reduceAdd]
  rw [hentry, habsent]
  rfl

theorem SplitsPde.pdpte (hwf : nptm.Wf) (h : SplitsPde nptm gpa d t nptm') :
    nptm'.pdpte (page1gbCount gpa) = (nptm.pdpte (page1gbCount gpa)).toTable d.phys := by
  obtain ⟨linked, described, hsplit, hdescribes, rfl⟩ := h
  have hlinked := hsplit.wf hwf
  rw [← hsplit.pdpte, ← hdescribes.pdpte hsplit.1]
  refine Radix.Frames.set_of_frame_ne fun heq => ?_
  have hd : described.layout 1 (page1gbCount gpa) = some d.frame := by
    rw [hdescribes.layout_of_ne hlinked (by simp)]
    exact hsplit.layout hwf
  have htable : described.layout 2 (page1gbCount gpa / 512) = _ := layout_pdpte hsplit.1
  have := ((hdescribes.wf hlinked hsplit.findPde).disjoint _ _ _ _ _ htable (heq ▸ hd)).1
  omega

theorem SplitsPde.view (hwf : nptm.Wf) (h : SplitsPde nptm gpa d t nptm')
    (hpdpte : nptm.PdpteSplittable gpa) (hpde : nptm.PdeSplittable gpa)
    (haddress : address < 2 ^ 48) : nptm'.view address = nptm.view address := by
  by_cases hpage : page2mbCount address = page2mbCount gpa
  · have hgb : page1gbCount address = page1gbCount gpa := by
      simp only [page2mbCount, page1gbCount] at hpage ⊢
      omega
    by_cases hpresent : (nptm.pdpte (page1gbCount gpa)).present = true
    · obtain ⟨linked, described, hsplit, hdescribes, rfl⟩ := h
      have hlinked := hsplit.wf hwf
      have hwf' := hdescribes.wf hlinked hsplit.findPde
      rw [← hsplit.view hwf hpdpte haddress, ← view_eq_of_walk (hdescribes.walk hlinked haddress)]
      have hd : described.layout 1 (page1gbCount gpa) = some d.frame := by
        rw [hdescribes.layout_of_ne hlinked (by simp)]
        exact hsplit.layout hwf
      have hd' : described.layout 1 (Radix.region (1 + 1) address) = some d.frame := by
        rw [region_two, hgb, hd]
      have ht := hdescribes.layout hlinked
      have ht' : described.layout 0 (Radix.region (0 + 1) address) = some t.frame := by
        rw [region_one, hpage, ht]
      have hindex : Radix.index (0 + 1) address = pageEntryIndex64 (page2mbCount gpa) := by
        rw [Radix.index, region_one, hpage]
        rfl
      have hentry : described.memory d.frame (Radix.index (0 + 1) address) = linked.pdeOf d gpa := by
        rw [hindex]
        exact hdescribes.memory (hsplit.layout hwf) _
      refine tableView_congr hwf'.linked (by decide)
        (layout_root haddress) hd' (fun l' hl hl' g hg => ?_) ?_
      · refine Radix.Frames.set_of_frame_ne fun heq => ?_
        have := (hwf'.disjoint _ _ _ _ _ hg (heq ▸ hd)).1
        omega
      · have hentry' : (described.linkPde gpa d t).memory d.frame (Radix.index (0 + 1) address) =
            (linked.pdeOf d gpa).toTable t.phys := by
          rw [hindex]
          refine (Radix.Frames.set_self _ _ _ _).trans ?_
          rw [← hentry, hindex]
        refine tableView_link hentry hentry' rfl rfl rfl (toTable_base (hwf'.inRange _ _ _ ht)) ?_
          (fun hp hleaf => ?_) (fun hp hleaf => ?_)
        · unfold tableView
          rw [linkPde, modifyEntry,
            Radix.walk_set_of_lt hwf'.linked hwf'.disjoint ht' hd (by decide)]
        · have htable := hwf'.linked 0 _ _ _ hd (Radix.index_lt (0 + 1) address)
            (by rw [hentry]
                simp only [Radix.Format.isTable, hleaf]
                simpa [nptFormat] using hp)
          have hregion : 512 * page1gbCount gpa + Radix.index (0 + 1) address =
              page2mbCount gpa := by
            rw [hindex]
            simp only [page1gbCount, pageEntryIndex64, page2mbCount]
            omega
          rw [hregion, ht, hentry] at htable
          exact (Option.some.inj htable).symm
        · have hpsize : (linked.pdeOf d gpa).psize = true := by
            simpa [nptFormat] using hleaf
          have hself : linked.findPte gpa = none ∧
              (linked.pdeOf d gpa).largePageBase = page2mbCount gpa := by
            rw [hsplit.findPte]
            cases hfind : nptm.findPde gpa with
            | some d' =>
                obtain rfl := hsplit.eq_of_findPde hfind
                rw [hsplit.pdeOf_of_found hwf hfind] at hpsize hp ⊢
                exact hpde hpresent _ hfind hpsize hp
            | none =>
                rw [hsplit.pdeOf_of_none hwf hfind]
                refine ⟨hwf.findPte_of_none hfind, ?_⟩
                have := hsplit.1
                simp only [NptEntry.largePageBase, splitLargeEntry, NptEntry.setLargePageBase,
                  pageEntryIndex64, page1gbCount, page2mbCount] at this ⊢
                omega
          rw [tableView_zero, hdescribes.table_of_none hself.1,
            leafView_splitPageEntry haddress hpage, leafView_of_pageBase (by
              rw [NptEntry.largePageBase, ← hpage] at hself
              exact hself.2)]
          simp [splitPageEntry, NptEntry.restrict]
    · have habsent : (nptm.pdpte (page1gbCount address)).present = false := by
        rw [hgb]
        simpa using hpresent
      rw [view_of_absent hwf haddress habsent]
      refine view_of_absent (h.wf hwf) haddress ?_
      rw [hgb] at habsent ⊢
      rw [h.pdpte hwf]
      exact habsent
  · obtain ⟨linked, hsplit, hwalk⟩ := h.walk_of_ne hwf haddress hpage
    rw [view_eq_of_walk hwalk]
    exact hsplit.view hwf hpdpte haddress

/-! ### Where a walk ends -/

theorem Wf.level_of_walk (hwf : nptm.Wf) (haddress : address < 2 ^ 48)
    {walk : Radix.Walk NptEntry} (hwalk : nptm.walk address = some walk)
    (hpdpte : (nptm.pdpte (page1gbCount address)).psize = false) : walk.level ≤ 1 := by
  obtain ⟨hle, ⟨f, hf, hleaf⟩, hend, -⟩ :=
    Radix.walk_location hwf.linked (layout_root haddress) hwalk
  obtain ⟨above, leaf, level⟩ := walk
  simp only at hle hend hf hleaf ⊢
  match level with
  | 0 | 1 => omega
  | 2 =>
      rw [layout_region_two haddress] at hf
      obtain rfl := Option.some.inj hf
      have hentry : leaf = nptm.pdpte (page1gbCount address) := hleaf
      simp [nptFormat, hentry, hpdpte] at hend
  | 3 => simp [nptFormat] at hend

theorem Wf.walk_of_large (hwf : nptm.Wf) (haddress : address < 2 ^ 48)
    {walk : Radix.Walk NptEntry} (hwalk : nptm.walk address = some walk)
    (hpdpte : (nptm.pdpte (page1gbCount address)).psize = false) {f : Nat}
    (hd : nptm.layout 1 (page1gbCount address) = some f)
    (hpde : (nptm.memory f (Radix.index 1 address)).psize = true) :
    walk.level = 1 ∧ walk.leaf = nptm.memory f (Radix.index 1 address) := by
  have hle := hwf.level_of_walk haddress hwalk hpdpte
  obtain ⟨-, ⟨g, hg, hleaf⟩, -, habove⟩ :=
    Radix.walk_location hwf.linked (layout_root haddress) hwalk
  have hlevel : walk.level = 1 := by
    by_contra hne
    obtain ⟨f', hf', htable⟩ := habove 1 (by omega) (by decide)
    obtain rfl : f' = f := Option.some.inj (hf'.symm.trans hd)
    simp [Radix.Format.isTable, nptFormat, hpde] at htable
  rw [hlevel] at hg hleaf
  obtain rfl : g = f := Option.some.inj (hg.symm.trans hd)
  exact ⟨hlevel, hleaf⟩

theorem Wf.walk_of_page (hwf : nptm.Wf) (haddress : address < 2 ^ 48)
    {walk : Radix.Walk NptEntry} (hwalk : nptm.walk address = some walk)
    (hpdpte : (nptm.pdpte (page1gbCount address)).psize = false) {f : Nat}
    (hd : nptm.layout 1 (page1gbCount address) = some f)
    (hpde : (nptm.memory f (Radix.index 1 address)).psize = false) {g : Nat}
    (ht : nptm.layout 0 (page2mbCount address) = some g) :
    walk.level = 0 ∧ walk.leaf = nptm.memory g (Radix.index 0 address) := by
  have hle := hwf.level_of_walk haddress hwalk hpdpte
  obtain ⟨-, ⟨f', hf', hleaf⟩, hend, -⟩ :=
    Radix.walk_location hwf.linked (layout_root haddress) hwalk
  have hlevel : walk.level = 0 := by
    by_contra hne
    have hone : walk.level = 1 := by omega
    rw [hone] at hf' hleaf hend
    obtain rfl : f' = f := Option.some.inj (hf'.symm.trans hd)
    simp [nptFormat, hleaf, hpde] at hend
  rw [hlevel] at hf' hleaf
  obtain rfl : f' = g := Option.some.inj (hf'.symm.trans ht)
  exact ⟨hlevel, hleaf⟩

end NptManager

end NoirVisor
