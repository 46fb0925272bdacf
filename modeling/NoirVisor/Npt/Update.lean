import NoirVisor.Npt.View

/-!
# What an update does

Each update that returns has split the entries above its page and written one entry, and it reports
success. A run of the manager is any sequence of updates and splits, the memory manager answering
each as it likes.
-/

namespace NoirVisor.NptManager

def largePde (hpa : Nat) (r w x : Bool) (entry : NptEntry) : NptEntry :=
  ({ entry with psize := true }.setLargePageBase (page2mbCount hpa)).setPermission r w x

def hugePdpte (hpa : Nat) (r w x : Bool) (entry : NptEntry) : NptEntry :=
  ({ entry with psize := true }.setHugePageBase (page1gbCount hpa)).setPermission r w x

def pagePte (hpa : Nat) (r w x : Bool) (entry : NptEntry) : NptEntry :=
  (entry.setPermission r w x).setBase (page4kbCount hpa)

def tableEntry (phys : Nat) (r w x : Bool) (entry : NptEntry) : NptEntry :=
  (entry.toTable phys).setPermission r w x

variable {nptm nptm' : NptManager} {used : Nat → Prop} {hpa gpa : Nat} {r w x alloc b : Bool}
  {d t : NptDescriptor}

theorem modifyEntry_modifyEntry (nptm : NptManager) (frame i : Nat) (f g : NptEntry → NptEntry) :
    (nptm.modifyEntry frame i f).modifyEntry frame i g =
      nptm.modifyEntry frame i fun entry => g (f entry) := by
  simp only [modifyEntry, Radix.Frames.set_self]
  congr 1
  funext frame' i'
  by_cases heq : frame' = frame ∧ i' = i
  · simp [Radix.Frames.set, heq]
  · simp [Radix.Frames.set, heq]

/-! The tables a split leaves in place. -/

theorem SplitsPde.layout_pde (hwf : nptm.Wf) (h : SplitsPde nptm gpa d t nptm') :
    nptm'.layout 1 (page1gbCount gpa) = some d.frame := by
  obtain ⟨linked, described, hsplit, hdescribes, rfl⟩ := h
  change described.layout 1 _ = _
  rw [hdescribes.layout_of_ne (hsplit.wf hwf) (by simp)]
  exact hsplit.layout hwf

theorem SplitsPde.layout_pte (hwf : nptm.Wf) (h : SplitsPde nptm gpa d t nptm') :
    nptm'.layout 0 (page2mbCount gpa) = some t.frame := by
  obtain ⟨linked, described, hsplit, hdescribes, rfl⟩ := h
  change described.layout 0 _ = _
  exact hdescribes.layout (hsplit.wf hwf)

theorem SplitsPde.inRange (h : SplitsPde nptm gpa d t nptm') : page1gbCount gpa < 512 * 512 := by
  obtain ⟨linked, described, hsplit, -, -⟩ := h
  exact hsplit.1

/-- The PDE of a page that was split is a table entry with the rights it had. -/
theorem SplitsPde.pdeOf (hwf : nptm.Wf) (h : SplitsPde nptm gpa d t nptm') :
    ∃ linked, SplitsPdpte nptm gpa d linked ∧
      nptm'.pdeOf d gpa = (linked.pdeOf d gpa).toTable t.phys := by
  obtain ⟨linked, described, hsplit, hdescribes, rfl⟩ := h
  refine ⟨linked, hsplit, ?_⟩
  have hsame := hdescribes.memory (hsplit.layout hwf) (pageEntryIndex64 (page2mbCount gpa))
  have hentry := Radix.Frames.set_self described.memory d.frame
    (pageEntryIndex64 (page2mbCount gpa)) ((described.pdeOf d gpa).toTable t.phys)
  refine hentry.trans ?_
  rw [NptManager.pdeOf, hsame]
  rfl

theorem page1gbCount_of_region_one {address : Nat}
    (hpage : Radix.region 1 address = Radix.region 1 gpa) :
    page1gbCount address = page1gbCount gpa := by
  rw [region_one, region_one] at hpage
  simp only [page2mbCount, page1gbCount] at hpage ⊢
  omega

theorem page2mbCount_of_region_zero {address : Nat}
    (hpage : Radix.region 0 address = Radix.region 0 gpa) :
    page2mbCount address = page2mbCount gpa := by
  rw [region_zero, region_zero] at hpage
  simp only [page4kbCount, page2mbCount] at hpage ⊢
  omega

theorem page1gbCount_of_page2mbCount {address : Nat}
    (hpage : page2mbCount address = page2mbCount gpa) :
    page1gbCount address = page1gbCount gpa :=
  page1gbCount_of_region_one hpage

theorem pde_region (gpa : Nat) :
    512 * page1gbCount gpa + pageEntryIndex64 (page2mbCount gpa) = page2mbCount gpa := by
  simp only [page1gbCount, pageEntryIndex64, page2mbCount]
  omega

theorem pte_region (gpa : Nat) :
    512 * page2mbCount gpa + pageEntryIndex64 (page4kbCount gpa) = page4kbCount gpa := by
  simp only [page2mbCount, pageEntryIndex64, page4kbCount]
  omega

/-! Each kind of entry the updates write keeps the manager well formed. -/

theorem Wf.writePte (hwf : nptm.Wf) (ht : nptm.layout 0 (page2mbCount gpa) = some t.frame) {i : Nat}
    {f : NptEntry → NptEntry} : (nptm.modifyEntry t.frame i f).Wf :=
  hwf.modifyEntry ht (by decide) fun l hl => by omega

theorem Wf.writeLargePde (hwf : nptm.Wf)
    (hd : nptm.layout 1 (page1gbCount gpa) = some d.frame) {i : Nat} :
    (nptm.modifyEntry d.frame i (largePde hpa r w x)).Wf := by
  refine hwf.modifyEntry hd (by decide) fun l _ htable => ?_
  simp [Radix.Format.isTable, nptFormat, largePde, NptEntry.setLargePageBase,
    NptEntry.setPermission] at htable

theorem Wf.writeTablePde (hwf : nptm.Wf)
    (hd : nptm.layout 1 (page1gbCount gpa) = some d.frame)
    (ht : nptm.layout 0 (page2mbCount gpa) = some t.frame) :
    (nptm.modifyEntry d.frame (pageEntryIndex64 (page2mbCount gpa))
      (tableEntry t.phys r w x)).Wf := by
  refine hwf.modifyEntry hd (by decide) fun l hl _ => ?_
  obtain rfl : l = 0 := by omega
  rw [pde_region, ht]
  have hbase : ((nptm.memory d.frame (pageEntryIndex64 (page2mbCount gpa))).toTable t.phys).base =
      t.frame := toTable_base (hwf.inRange _ _ _ ht)
  exact congrArg some hbase.symm

theorem Wf.writeHugePdpte (hwf : nptm.Wf) (hgpa : page1gbCount gpa < 512 * 512) :
    (nptm.modifyEntry (nptm.pdpteFrame (page1gbCount gpa)) (page1gbCount gpa % 512)
      (hugePdpte hpa r w x)).Wf := by
  refine hwf.modifyEntry (layout_pdpte hgpa) (by decide) fun l _ htable => ?_
  simp [Radix.Format.isTable, nptFormat, hugePdpte, NptEntry.setHugePageBase,
    NptEntry.setPermission] at htable

theorem Wf.writeTablePdpte (hwf : nptm.Wf) (hgpa : page1gbCount gpa < 512 * 512)
    (hd : nptm.layout 1 (page1gbCount gpa) = some d.frame) :
    (nptm.modifyEntry (nptm.pdpteFrame (page1gbCount gpa)) (page1gbCount gpa % 512)
      (tableEntry d.phys r w x)).Wf := by
  refine hwf.modifyEntry (layout_pdpte hgpa) (by decide) fun l hl _ => ?_
  obtain rfl : l = 1 := by omega
  rw [Nat.div_add_mod, hd]
  have hbase : ((nptm.pdpte (page1gbCount gpa)).toTable d.phys).base = d.frame :=
    toTable_base (hwf.inRange _ _ _ hd)
  exact congrArg some hbase.symm

/-! ### One inversion lemma for each function -/

theorem nvcNptUpdatePte_ok (hready : nptm.Ready used)
    (h : nvcNptUpdatePte nptm hpa gpa r w x alloc = .ok (b, nptm')) :
    b = true ∧ nptm.Grows nptm' used ∧ ∃ d t split, SplitsPde nptm gpa d t split ∧
      nptm' = split.modifyEntry t.frame (pageEntryIndex64 (page4kbCount gpa))
        (pagePte hpa r w x) := by
  unfold nvcNptUpdatePte at h
  simp only [bind, Except.bind] at h
  split at h
  · cases h
  · rename_i result hsplit
    obtain ⟨p, split⟩ := result
    obtain ⟨d, t, rfl, hsplits, hgrows⟩ := nvcNptSplitPde_host hready hsplit
    simp only [Pointer.isNull, Pointer.deref, Bool.false_eq_true, if_false, pure, Except.pure,
      Except.ok.injEq, Prod.mk.injEq] at h
    obtain ⟨rfl, rfl⟩ := h
    refine ⟨rfl, hgrows.of_layout_eq ?_ rfl rfl, d, t, split, hsplits, rfl⟩
    exact (hsplits.wf hready.wf).writePte (hsplits.layout_pte hready.wf)

theorem nvcNptUpdatePde_large (hready : nptm.Ready used)
    (h : nvcNptUpdatePde nptm hpa gpa r w x true alloc = .ok (b, nptm')) :
    b = true ∧ nptm.Grows nptm' used ∧ ∃ d split, SplitsPdpte nptm gpa d split ∧
      nptm' = split.modifyEntry d.frame (pageEntryIndex64 (page2mbCount gpa))
        (largePde hpa r w x) := by
  unfold nvcNptUpdatePde at h
  simp only [bind, Except.bind] at h
  split at h
  · cases h
  · rename_i result hsplit
    obtain ⟨p, split⟩ := result
    obtain ⟨d, rfl, hsplits, hgrows⟩ := nvcNptSplitPdpte_host hready hsplit
    simp only [Pointer.isNull, Pointer.deref, Bool.false_eq_true, if_false, if_true, pure,
      Except.pure, Except.ok.injEq, Prod.mk.injEq, modifyEntry_modifyEntry] at h
    obtain ⟨rfl, rfl⟩ := h
    refine ⟨rfl, hgrows.of_layout_eq ?_ rfl rfl, d, split, hsplits, rfl⟩
    exact (hsplits.wf hready.wf).writeLargePde (hsplits.layout hready.wf)

theorem nvcNptUpdatePde_table (hready : nptm.Ready used)
    (h : nvcNptUpdatePde nptm hpa gpa r w x false alloc = .ok (b, nptm')) :
    b = true ∧ nptm.Grows nptm' used ∧ ∃ d t linked split, SplitsPdpte nptm gpa d linked ∧
      SplitsPde linked gpa d t split ∧
      nptm' = split.modifyEntry d.frame (pageEntryIndex64 (page2mbCount gpa))
        (tableEntry t.phys r w x) := by
  unfold nvcNptUpdatePde at h
  simp only [bind, Except.bind] at h
  split at h
  · cases h
  · rename_i result hsplit
    obtain ⟨p, linked⟩ := result
    obtain ⟨d, rfl, hsplits, hgrown, used₁, hused₁, hready₁⟩ := nvcNptSplitPdpte_host hready hsplit
    simp only [Pointer.isNull, Pointer.deref, Bool.false_eq_true, if_false] at h
    split at h
    · cases h
    · rename_i result hsplitPde
      obtain ⟨p, split⟩ := result
      obtain ⟨d', t, rfl, hsplitsPde, hgrows⟩ := nvcNptSplitPde_host hready₁ hsplitPde
      simp only [pure, Except.pure, modifyEntry_modifyEntry] at h
      obtain ⟨rfl, rfl⟩ := h
      have heq : d = d' := by
        obtain ⟨linked', described, hsplits', -, -⟩ := hsplitsPde
        exact hsplits'.eq_of_findPde hsplits.findPde
      subst heq
      refine ⟨rfl, (Grows.trans hgrown hused₁ hgrows).of_layout_eq ?_ rfl rfl,
        d, t, linked, split, hsplits, hsplitsPde, rfl⟩
      have hwf := hsplits.wf hready.wf
      exact (hsplitsPde.wf hwf).writeTablePde (hsplitsPde.layout_pde hwf)
        (hsplitsPde.layout_pte hwf)

/-- A PDPTE that is written twice. -/
theorem modifyPdpte_modifyPdpte {k : Nat} {f g : NptEntry → NptEntry}
    (h : (do
      let first ← nptm.modifyPdpte k f
      let second ← first.modifyPdpte k g
      return (true, second)) = Except.ok (b, nptm')) :
    b = true ∧ k < 512 * 512 ∧
      nptm' = nptm.modifyEntry (nptm.pdpteFrame k) (k % 512) fun entry => g (f entry) := by
  obtain ⟨first, hfirst, hrest⟩ := bind_eq_ok.mp h
  obtain ⟨second, hsecond, hdone⟩ := bind_eq_ok.mp hrest
  obtain ⟨hk, rfl⟩ := modifyPdpte_eq_ok hfirst
  obtain ⟨-, rfl⟩ := modifyPdpte_eq_ok hsecond
  obtain ⟨rfl, rfl⟩ := Prod.mk.inj (Except.ok.inj hdone)
  exact ⟨rfl, hk, modifyEntry_modifyEntry nptm (nptm.pdpteFrame k) (k % 512) f g⟩

theorem nvcNptUpdatePdpte_huge (hready : nptm.Ready used)
    (h : nvcNptUpdatePdpte nptm hpa gpa r w x true alloc = .ok (b, nptm')) :
    b = true ∧ nptm.Grows nptm' used ∧ page1gbCount gpa < 512 * 512 ∧
      nptm' = nptm.modifyEntry (nptm.pdpteFrame (page1gbCount gpa)) (page1gbCount gpa % 512)
        (hugePdpte hpa r w x) := by
  unfold nvcNptUpdatePdpte at h
  rw [if_pos rfl] at h
  obtain ⟨rfl, hgpa, rfl⟩ := modifyPdpte_modifyPdpte h
  refine ⟨rfl, (Grows.refl hready).of_layout_eq ?_ rfl rfl, hgpa, rfl⟩
  exact hready.wf.writeHugePdpte hgpa

theorem nvcNptUpdatePdpte_table (hready : nptm.Ready used)
    (h : nvcNptUpdatePdpte nptm hpa gpa r w x false alloc = .ok (b, nptm')) :
    b = true ∧ nptm.Grows nptm' used ∧ ∃ d split, SplitsPdpte nptm gpa d split ∧
      nptm' = split.modifyEntry (split.pdpteFrame (page1gbCount gpa)) (page1gbCount gpa % 512)
        (tableEntry d.phys r w x) := by
  unfold nvcNptUpdatePdpte at h
  rw [if_neg Bool.false_ne_true] at h
  obtain ⟨⟨p, split⟩, hsplit, hrest⟩ := bind_eq_ok.mp h
  obtain ⟨d, rfl, hsplits, hgrows⟩ := nvcNptSplitPdpte_host hready hsplit
  obtain ⟨rfl, hgpa, rfl⟩ := modifyPdpte_modifyPdpte hrest
  refine ⟨rfl, hgrows.of_layout_eq ?_ rfl rfl, d, split, hsplits, rfl⟩
  exact (hsplits.wf hready.wf).writeTablePdpte hgpa (hsplits.layout hready.wf)

end NoirVisor.NptManager
