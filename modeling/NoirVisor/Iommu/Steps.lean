import NoirVisor.Iommu.View

/-!
# One region, one page

What `nvc_vt_iommu_add_ram_region` and `nvc_vt_iommu_update_pte` leave, whether or not the memory
manager refuses a page. A top table of 512 GiB must not be written again once something depends on
it.
-/

namespace NoirVisor.DmarManager

/-- No page is held aside between two calls. -/
def noFrames (_ : Nat) : Prop := False

structure Inv (dmarm : DmarManager) (pages huge : Nat → Stage2Entry) : Prop where
  wf : dmarm.Wf noFrames pages huge
  narrow : dmarm.usingAgaw = .bit39 →
    (∀ i < 512, huge i = {}) ∨ huge = hugeFrom 0 ∨ ∃ r, dmarm.described 1 r ≠ none
  splittable : dmarm.Splittable

/-- If the top table is written again for `gpa`, nothing depends on it or nothing changes. -/
def Steady (dmarm : DmarManager) (huge : Nat → Stage2Entry) (gpa : Nat) : Prop :=
  dmarm.usingAgaw = .bit39 → dmarm.described 1 (Radix.region 2 gpa) ≠ none ∨
    ((∀ r, dmarm.described 1 r = none) ∧ (Radix.region 2 gpa = 0 ∨ ∀ i < 512, huge i = {}))

variable {dmarm dmarm' : DmarManager} {held : Nat → Prop} {pages huge huge' : Nat → Stage2Entry}
  {gpa other start length : Nat} {st : NoirStatus}

theorem pde_eq_nil_iff (hwf : dmarm.Wf held pages huge) :
    dmarm.pde = [] ↔ ∀ r, dmarm.described 1 r = none := by
  constructor
  · intro hpde r
    simp [described, SvmCustomNptManager.listedFrame, Radix.covering, hpde]
  · intro hnone
    cases hpde : dmarm.pde with
    | nil => rfl
    | cons d ds =>
        have hmem : d ∈ dmarm.pde := by rw [hpde]; exact List.mem_cons_self
        cases (hnone _).symm.trans (hwf.pdeListed.frame_of_mem (by decide) hmem)

theorem Steady.calm (hsteady : dmarm.Steady huge gpa) (hwf : dmarm.Wf held pages huge) :
    dmarm.Calm gpa := by
  intro hagaw hfound
  have hnone : dmarm.described 1 (Radix.region 2 gpa) = none := by
    rw [described_one hwf, hfound]
    rfl
  rcases hsteady hagaw with hsome | ⟨hnone', -⟩
  · exact absurd hnone hsome
  · exact (pde_eq_nil_iff hwf).mpr hnone'

theorem hugeFrom_ne_empty (base r : Nat) : hugeFrom base r ≠ {} := by
  intro heq
  exact nomatch congrArg Stage2Entry.page heq

/-- Huge pages that map the memory to itself stay so. -/
theorem Rewritten.identity (hrewritten : Rewritten gpa dmarm dmarm' huge huge')
    (hsteady : dmarm.Steady huge gpa) (hwf : dmarm.Wf held pages huge) (hhuge : huge = hugeFrom 0) :
    huge' = hugeFrom 0 := by
  rcases hrewritten with rfl | ⟨hagaw, hpde, -, rfl⟩
  · exact hhuge
  · rcases hsteady hagaw with hsome | ⟨-, hzero | hempty⟩
    · exact absurd ((pde_eq_nil_iff hwf).mp hpde _) hsome
    · exact congrArg hugeFrom hzero
    · have hfirst := hempty 0 (by decide)
      rw [hhuge] at hfirst
      exact absurd hfirst (hugeFrom_ne_empty _ _)

theorem Inv.made (hinv : dmarm.Inv pages huge)
    (hmade : Made gpa noFrames pages huge' dmarm st dmarm')
    (hrewritten : Rewritten gpa dmarm dmarm' huge huge') (hsplittable : dmarm'.Splittable) :
    dmarm'.Inv pages huge' := by
  refine ⟨hmade.wf, fun hagaw => ?_, hsplittable⟩
  rcases hrewritten with rfl | ⟨-, -, hsome, -⟩
  · refine (hinv.narrow (hmade.grows.usingAgaw ▸ hagaw)).imp_right (Or.imp_right ?_)
    rintro ⟨r, hr⟩
    exact ⟨r, hmade.grows.some hr⟩
  · exact Or.inr (Or.inr ⟨_, hsome⟩)

/-- The other addresses of the 1 GiB around `gpa` have nothing to fear either. -/
theorem Steady.made (hsteady : dmarm.Steady huge gpa) (hgrows : Grows gpa held dmarm dmarm')
    (hrewritten : Rewritten gpa dmarm dmarm' huge huge')
    (hregion : Radix.region 2 other = Radix.region 2 gpa) : dmarm'.Steady huge' other := by
  intro hagaw
  rw [hregion]
  by_cases hsome : dmarm'.described 1 (Radix.region 2 gpa) = none
  · rcases hrewritten with rfl | ⟨-, -, hsome', -⟩
    · rcases hsteady (hgrows.usingAgaw ▸ hagaw) with hbefore | ⟨hnone, hroot⟩
      · exact absurd hsome (hgrows.some hbefore)
      · refine Or.inr ⟨fun r => ?_, hroot⟩
        by_cases hr : r = Radix.region 2 gpa
        · rw [hr, hsome]
        · rw [hgrows.only 1 r hr, hnone]
    · exact absurd hsome hsome'
  · exact Or.inl hsome

/-- What a step of the loop over a region asks for. -/
def Visitable (dmarm : DmarManager) (huge : Nat → Stage2Entry) (gpa : Nat) : Prop :=
  if dmarm.hugePage then
    dmarm.usingAgaw = .bit39 → (∀ r, dmarm.described 1 r = none) ∧ Radix.region 2 gpa = 0
  else dmarm.Steady huge gpa

theorem Visitable.congr (h : dmarm.Visitable huge gpa)
    (hregion : dmarm.usingAgaw = .bit39 → Radix.region 2 other = Radix.region 2 gpa) :
    dmarm.Visitable huge other := by
  unfold Visitable at h ⊢
  split
  · rename_i hpage
    rw [if_pos hpage] at h
    exact fun hagaw => hregion hagaw ▸ h hagaw
  · rename_i hpage
    rw [if_neg hpage] at h
    exact fun hagaw => hregion hagaw ▸ h hagaw

/-- What a step of the loop over a region leaves. -/
structure Visited (gpa : Nat) (pages : Nat → Stage2Entry) (dmarm : DmarManager)
    (huge : Nat → Stage2Entry) (dmarm' : DmarManager) (huge' : Nat → Stage2Entry) : Prop where
  inv : dmarm'.Inv pages huge'
  later : Extends dmarm dmarm'
  identity : huge = hugeFrom 0 → huge' = hugeFrom 0
  covered : dmarm'.refused = false → dmarm'.Covered huge' gpa
  next : ∀ other, (dmarm.usingAgaw = .bit39 → Radix.region 2 other = Radix.region 2 gpa) →
    dmarm'.Visitable huge' other

theorem page1gbCount_eq (gpa : Nat) : page1gbCount gpa = Radix.region 2 gpa := rfl

theorem visit_huge (hinv : dmarm.Inv pages huge) (hgpa : gpa < dmarm.limit)
    (hpage : dmarm.hugePage = true) (hvisitable : dmarm.Visitable huge gpa) :
    ∃ dmarm' huge', dmarm.createPageMap page1gbSize gpa = .ok dmarm' ∧
      Visited gpa pages dmarm huge dmarm' huge' := by
  rw [Visitable, if_pos hpage] at hvisitable
  have hempty : dmarm.usingAgaw = .bit39 → dmarm.pde = [] := fun hagaw =>
    (pde_eq_nil_iff hinv.wf).mpr (hvisitable hagaw).1
  obtain ⟨st, d, dmarm', hrun, hmade, ⟨hpde, -⟩, -, hupper⟩ := create1gb_made hinv.wf hgpa hempty
  have hgrows := hmade.grows
  have hhuge : hugeAfter dmarm gpa huge = hugeFrom 0 := by
    unfold hugeAfter
    split
    · rename_i hagaw
      rw [page1gbCount_eq, (hvisitable hagaw).2]
    · rename_i hagaw
      cases hwide : dmarm.usingAgaw with
      | bit39 => exact absurd hwide hagaw
      | bit48 => exact hinv.wf.wide hwide
      | bit57 => exact absurd hwide hinv.wf.shallow
  have hnone : (∀ r, dmarm.described 1 r = none) → ∀ r, dmarm'.described 1 r = none := fun h => by
    rw [← pde_eq_nil_iff hmade.wf, hpde, pde_eq_nil_iff hinv.wf]
    exact h
  refine ⟨dmarm', hugeAfter dmarm gpa huge, ?_, ?_⟩
  · rw [createPageMap, if_neg (by decide), if_neg (by decide), hrun]
    rfl
  · refine ⟨⟨hmade.wf, fun _ => Or.inr (Or.inl hhuge), ?_⟩, hgrows.toExtends, fun _ => hhuge, ?_, ?_⟩
    · intro hpage' hlarge
      rw [hgrows.largePage] at hlarge
      exact hnone (hinv.splittable hpage hlarge)
    · intro hrefused
      obtain ⟨upper, -, hdescribed⟩ := hupper (hmade.success hrefused)
      refine ⟨?_, fun _ => hhuge⟩
      rw [grain, hgrows.hugePage, if_pos hpage, hdescribed]
      simp
    · intro other hregion
      rw [Visitable, hgrows.hugePage, if_pos hpage, hgrows.usingAgaw]
      exact fun hagaw => ⟨hnone (hvisitable hagaw).1, (hregion hagaw).trans (hvisitable hagaw).2⟩

/-- A step that makes a table of large or single pages. -/
theorem Visited.of_made (level : Nat) (hinv : dmarm.Inv pages huge)
    (hpage : dmarm.hugePage = false) (hgrain : dmarm.grain = level) (hsteady : dmarm.Steady huge gpa)
    (hmade : Made gpa noFrames pages huge' dmarm st dmarm')
    (hrewritten : Rewritten gpa dmarm dmarm' huge huge')
    (htable : st = .success → dmarm'.described level (Radix.region (level + 1) gpa) ≠ none) :
    Visited gpa pages dmarm huge dmarm' huge' := by
  have hgrows := hmade.grows
  have hpage' : dmarm'.hugePage = false := hgrows.hugePage.trans hpage
  have hgrain' : dmarm'.grain = level := by
    rw [← hgrain, grain, grain, hgrows.hugePage, hgrows.largePage]
  refine ⟨hinv.made hmade hrewritten fun h => (nomatch hpage'.symm.trans h), hgrows.toExtends,
    hrewritten.identity hsteady hinv.wf, fun hrefused => ?_, fun other hregion => ?_⟩
  · refine ⟨?_, fun h => nomatch hpage'.symm.trans h⟩
    rw [hgrain']
    exact htable (hmade.success hrefused)
  · rw [Visitable, hpage', if_neg (by decide)]
    exact fun hagaw =>
      hsteady.made hgrows hrewritten (hregion (hgrows.usingAgaw ▸ hagaw)) hagaw

theorem visit_made (hinv : dmarm.Inv pages huge) (hgpa : gpa < dmarm.limit)
    (hvisitable : dmarm.Visitable huge gpa) :
    ∃ dmarm' huge', dmarm.createPageMap dmarm.increment gpa = .ok dmarm' ∧
      Visited gpa pages dmarm huge dmarm' huge' := by
  cases hpage : dmarm.hugePage with
  | true =>
      rw [increment, if_pos hpage]
      exact visit_huge hinv hgpa hpage hvisitable
  | false =>
      rw [Visitable, hpage, if_neg (by decide)] at hvisitable
      have hcalm := hvisitable.calm hinv.wf
      cases hlarge : dmarm.largePage with
      | true =>
          obtain ⟨st, d, dmarm', huge', hrun, hmade, hrewritten, -, hcur⟩ :=
            create2mb_made hinv.wf hgpa hcalm
          refine ⟨dmarm', huge', ?_, Visited.of_made 1 hinv hpage (by simp [grain, hpage, hlarge])
            hvisitable hmade hrewritten fun hst => ?_⟩
          · rw [increment, hpage, hlarge, createPageMap, if_neg (by decide), if_pos rfl, hrun]
            rfl
          · obtain ⟨cur, -, hdescribed⟩ := hcur hst
            rw [hdescribed]
            simp
      | false =>
          obtain ⟨st, d, dmarm', huge', hrun, hmade, hrewritten, hcur⟩ :=
            create4kb_made hinv.wf hgpa hcalm
          refine ⟨dmarm', huge', ?_, Visited.of_made 0 hinv hpage (by simp [grain, hpage, hlarge])
            hvisitable hmade hrewritten fun hst => ?_⟩
          · rw [increment, hpage, hlarge, createPageMap, if_pos (by decide), hrun]
            rfl
          · obtain ⟨cur, -, hdescribed⟩ := hcur hst
            rw [hdescribed]
            simp

/-! ### Regions -/

/-- The last address the loop over a region asks for. -/
def lastVisit (dmarm : DmarManager) (start length : Nat) : Nat :=
  start + (turns dmarm.increment length - 1) * dmarm.increment

/-- The table made at the last step of the loop is also the one for the last byte of the region. -/
def ReachesEnd (dmarm : DmarManager) (start length : Nat) : Prop :=
  Radix.region (dmarm.grain + 1) (start + length - 1) =
    Radix.region (dmarm.grain + 1) (dmarm.lastVisit start length)

theorem increment_eq (dmarm : DmarManager) : dmarm.increment = 2 ^ (12 + 9 * dmarm.grain) := by
  unfold increment grain
  split
  · rfl
  · split
    · rfl
    · rfl

theorem lt_of_turn {step k : Nat} (hstep : 0 < step) (hk : k < turns step length) :
    k * step < length := by
  unfold turns at hk
  have hle := Nat.div_mul_le_self (length + step - 1) step
  have hmul : (k + 1) * step ≤ (length + step - 1) / step * step := Nat.mul_le_mul_right _ hk
  rw [Nat.add_mul, Nat.one_mul] at hmul
  omega

/-- The address that a step ends before the next address asked for is in the region of one of
them. -/
theorem exists_turn {step address : Nat} (hstep : 0 < step) (hstart : start ≤ address)
    (hend : address < start + length)
    (hlast : (start + length - 1) / (512 * step) =
      (start + (turns step length - 1) * step) / (512 * step)) :
    ∃ k < turns step length, address / (512 * step) = (start + k * step) / (512 * step) := by
  have hsize : 0 < 512 * step := by omega
  have hdiv := Nat.div_add_mod (address - start) step
  have hmod := Nat.mod_lt (address - start) hstep
  rw [Nat.mul_comm] at hdiv
  have hk : (address - start) / step < turns step length := by
    unfold turns
    rw [Nat.lt_iff_add_one_le, Nat.le_div_iff_mul_le hstep, Nat.add_mul, Nat.one_mul]
    omega
  generalize (address - start) / step = k at hdiv hk
  by_cases hsame : address / (512 * step) = (start + k * step) / (512 * step)
  · exact ⟨k, hk, hsame⟩
  · have hle : (start + k * step) / (512 * step) ≤ address / (512 * step) :=
      Nat.div_le_div_right (by omega)
    by_cases hnext : k + 1 < turns step length
    · -- The next address asked for is in the region after that of this one, and so is `address`.
      refine ⟨k + 1, hnext, ?_⟩
      rw [Nat.add_mul, Nat.one_mul]
      have hupper : address / (512 * step) ≤ (start + (k * step + step)) / (512 * step) :=
        Nat.div_le_div_right (by omega)
      have hbound : (start + (k * step + step)) / (512 * step) ≤
          (start + k * step) / (512 * step) + 1 := by
        rw [← Nat.add_div_right _ hsize]
        exact Nat.div_le_div_right (by omega)
      omega
    · obtain rfl : k = turns step length - 1 := by omega
      rw [← hlast] at hsame hle
      have hupper : address / (512 * step) ≤ (start + length - 1) / (512 * step) :=
        Nat.div_le_div_right (by omega)
      omega

theorem region_grain (dmarm : DmarManager) (address : Nat) :
    Radix.region (dmarm.grain + 1) address = address / (512 * dmarm.increment) := by
  rw [increment_eq, Radix.region, show 12 + 9 * (dmarm.grain + 1) = 9 + (12 + 9 * dmarm.grain) by ring,
    pow_add]
  rfl

theorem increment_pos (dmarm : DmarManager) : 0 < dmarm.increment := by
  rw [increment_eq]
  exact Nat.two_pow_pos _

/-- Every address of a region whose end is reached has its table among those the loop asks for. -/
theorem exists_visit {address : Nat} (hreaches : dmarm.ReachesEnd start length)
    (hstart : start ≤ address) (hend : address < start + length) :
    ∃ k < turns dmarm.increment length, Radix.region (dmarm.grain + 1) address =
      Radix.region (dmarm.grain + 1) (start + k * dmarm.increment) := by
  unfold ReachesEnd lastVisit at hreaches
  simp only [region_grain] at hreaches ⊢
  exact exists_turn dmarm.increment_pos hstart hend hreaches

theorem Extends.grain (h : Extends dmarm dmarm') : dmarm'.grain = dmarm.grain := by
  rw [DmarManager.grain, h.hugePage, h.largePage, DmarManager.grain]

theorem Extends.increment (h : Extends dmarm dmarm') : dmarm'.increment = dmarm.increment := by
  rw [DmarManager.increment, h.hugePage, h.largePage, DmarManager.increment]

theorem Covered.later (hcovered : dmarm.Covered huge gpa) (h : Extends dmarm dmarm')
    (hidentity : huge = hugeFrom 0 → huge' = hugeFrom 0) : dmarm'.Covered huge' gpa := by
  refine ⟨?_, fun hpage => hidentity (hcovered.2 (h.hugePage ▸ hpage))⟩
  rw [h.grain]
  exact h.some hcovered.1

/-- What the loop over a region leaves after the turns `done`. -/
structure Added (start : Nat) (done : List Nat) (pages : Nat → Stage2Entry) (dmarm : DmarManager)
    (huge : Nat → Stage2Entry) (dmarm' : DmarManager) (huge' : Nat → Stage2Entry) : Prop where
  inv : dmarm'.Inv pages huge'
  later : Extends dmarm dmarm'
  identity : huge = hugeFrom 0 → huge' = hugeFrom 0
  covered : dmarm'.refused = false → ∀ k ∈ done,
    dmarm'.Covered huge' (start + k * dmarm.increment)

theorem Added.visit {dmarm₁ dmarm₂ : DmarManager} {huge₁ huge₂ : Nat → Stage2Entry} {done : List Nat}
    {k : Nat} (hadded : Added start done pages dmarm huge dmarm₁ huge₁)
    (hvisited : Visited (start + k * dmarm.increment) pages dmarm₁ huge₁ dmarm₂ huge₂) :
    Added start (done ++ [k]) pages dmarm huge dmarm₂ huge₂ where
  inv := hvisited.inv
  later := hadded.later.trans hvisited.later
  identity h := hvisited.identity (hadded.identity h)
  covered hrefused j hj := by
    rcases List.mem_append.mp hj with hold | hnew
    · exact (hadded.covered (hvisited.later.refused hrefused) j hold).later hvisited.later
        hvisited.identity
    · rw [List.mem_singleton.mp hnew]
      exact hvisited.covered hrefused

theorem add_made (hinv : dmarm.Inv pages huge) (hfits : start + length ≤ dmarm.limit)
    (hvisitable : dmarm.Visitable huge start)
    (hregion : dmarm.usingAgaw = .bit39 → ∀ k < turns dmarm.increment length,
      Radix.region 2 (start + k * dmarm.increment) = Radix.region 2 start) :
    ∃ dmarm' huge', dmarm.nvcVtIommuAddRamRegion start length = .ok dmarm' ∧
      Added start (List.range (turns dmarm.increment length)) pages dmarm huge dmarm' huge' := by
  have hloop : ∃ dmarm', dmarm.nvcVtIommuAddRamRegion start length = .ok dmarm' ∧ ∃ huge',
      Added start (List.range (turns dmarm.increment length)) pages dmarm huge dmarm' huge' ∧
        dmarm'.Visitable huge' start := by
    refine foldlM_prefix (P := fun done dmarm' => ∃ huge',
      Added start done pages dmarm huge dmarm' huge' ∧ dmarm'.Visitable huge' start) ?_ ?_
    · rintro done k left dmarm₁ hsplit ⟨huge₁, hadded, hnext⟩
      have hk : k < turns dmarm.increment length := by
        rw [← List.mem_range, hsplit]
        simp
      have hagaw := hadded.later.usingAgaw
      have hgpa : start + k * dmarm.increment < dmarm₁.limit := by
        have hlt := lt_of_turn dmarm.increment_pos hk
        rw [hadded.later.limit]
        omega
      obtain ⟨dmarm₂, huge₂, hrun, hvisited⟩ :=
        visit_made hadded.inv hgpa (hnext.congr fun h => hregion (hagaw ▸ h) k hk)
      rw [hadded.later.increment] at hrun
      exact ⟨dmarm₂, hrun, huge₂, hadded.visit hvisited,
        hvisited.next start fun h => (hregion (hagaw ▸ h) k hk).symm⟩
    · exact ⟨huge, ⟨hinv, Extends.refl dmarm, id, fun _ k hk => nomatch hk⟩, hvisitable⟩
  obtain ⟨dmarm', hrun, huge', hadded, -⟩ := hloop
  exact ⟨dmarm', huge', hrun, hadded⟩

/-! ### Pages -/

def setPage (dmarm : DmarManager) (frame gpa : Nat) (entry : Stage2Entry) : DmarManager :=
  { dmarm with memory := dmarm.memory.set frame (Radix.index 0 gpa) entry }

theorem Wf.setPage {frame : Nat} (hwf : dmarm.Wf held pages huge)
    (hframe : dmarm.described 0 (Radix.region 1 gpa) = some frame) (entry : Stage2Entry) :
    (dmarm.setPage frame gpa entry).Wf held
      (Function.update pages (Radix.region 0 gpa) entry) huge := by
  have hpage := Radix.region_eq 0 gpa
  refine { hwf with holds := ?_, untouched := fun page hnone => ?_ }
  · have hset := @Radix.Holds.set_leaf _ _ _ _ _ _
      (own (Function.update pages (Radix.region 0 gpa) entry) huge) _ _ _ hwf.holds hframe
      (Radix.index_lt 0 gpa) fun level r hne => ?_
    · rw [← hpage, own, Function.update_self] at hset
      exact hset
    · rcases level with _ | _ | _ | level
      · refine Function.update_of_ne (fun heq => hne ⟨rfl, ?_⟩) _ _
        rw [heq, hpage]
      · rfl
      · rfl
      · rfl
  · rw [Function.update_of_ne]
    · exact hwf.untouched page hnone
    · rintro rfl
      rw [← Radix.region_succ] at hnone
      cases hframe.symm.trans hnone

/-- What a call for a page leaves. -/
structure Updated (gpa hpa : Nat) (r w x : Bool) (dmarm : DmarManager)
    (pages huge : Nat → Stage2Entry) (dmarm' : DmarManager) (pages' huge' : Nat → Stage2Entry) :
    Prop where
  inv : dmarm'.Inv pages' huge'
  grows : Grows gpa noFrames dmarm dmarm'
  rewritten : Rewritten gpa dmarm dmarm' huge huge'
  others : ∀ page, page ≠ Radix.region 0 gpa → pages' page = pages page
  table : dmarm'.refused = false → dmarm'.described 0 (Radix.region 1 gpa) ≠ none
  page : dmarm'.refused = false → pages' (Radix.region 0 gpa) =
    ((pages (Radix.region 0 gpa)).setRights r w x).setPtr (page4kbCount hpa)

theorem update_made (hinv : dmarm.Inv pages huge) (hgpa : gpa < dmarm.limit)
    (hsteady : dmarm.Steady huge gpa) (hlarge : dmarm.hugePage = true → dmarm.largePage = true)
    (hpa : Nat) (r w x : Bool) :
    ∃ st dmarm' pages' huge', dmarm.nvcVtIommuUpdatePte gpa hpa r w x = .ok (st, dmarm') ∧
      Updated gpa hpa r w x dmarm pages huge dmarm' pages' huge' := by
  obtain ⟨st, d, dmarm₁, huge', hrun, hmade, hrewritten, hcur⟩ :=
    create4kb_made hinv.wf hgpa (hsteady.calm hinv.wf)
  have hgrows := hmade.grows
  have hsplittable : dmarm₁.Splittable := fun hpage hnot => by
    rw [hgrows.largePage, hlarge (hgrows.hugePage ▸ hpage)] at hnot
    cases hnot
  have hinv₁ := hinv.made hmade hrewritten hsplittable
  unfold nvcVtIommuUpdatePte
  rw [hrun, Outcome.ok_bind]
  by_cases hst : st = .success
  · obtain ⟨cur, rfl, hdescribed⟩ := hcur hst
    have hentry := hmade.wf.entry hdescribed
    generalize hwritten :
      ((pages (Radix.region 0 gpa)).setRights r w x).setPtr (page4kbCount hpa) = written
    have hstore : dmarm₁.store cur.frame (pteOffset gpa) (fun entry =>
        (entry.setRights r w x).setPtr (page4kbCount hpa)) =
          .ok (dmarm₁.setPage cur.frame gpa written) := by
      rw [pteOffset_eq, store_eq (hmade.wf.sized _ _ _ hdescribed) (Radix.index_lt 0 gpa), hentry]
      exact congrArg (fun entry => Except.ok (dmarm₁.setPage cur.frame gpa entry)) hwritten
    refine ⟨st, dmarm₁.setPage cur.frame gpa written,
      Function.update pages (Radix.region 0 gpa) written, huge', ?_, ?_, ?_, hrewritten,
      fun page hne => Function.update_of_ne hne _ _, fun _ => ?_, fun _ => ?_⟩
    · simp only [if_pos hst]
      change (dmarm₁.store cur.frame (pteOffset gpa) _ >>= fun dmarm => .ok (st, dmarm)) = _
      rw [hstore]
      rfl
    · exact ⟨hmade.wf.setPage hdescribed written, hinv₁.narrow, hsplittable⟩
    · exact { hgrows with aside := fun frame hheld => hheld.elim }
    · exact fun hnone => nomatch hdescribed.symm.trans hnone
    · rw [Function.update_self, hwritten]
  · have hrefused : ¬dmarm₁.refused = false := fun h => hst (hmade.success h)
    refine ⟨st, dmarm₁, pages, huge', if_neg hst, hinv₁, hgrows, hrewritten, fun _ _ => rfl,
      fun h => absurd h hrefused, fun h => absurd h hrefused⟩

end NoirVisor.DmarManager
