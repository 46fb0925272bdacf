import NoirVisor.Iommu.Steps

/-!
# Runs of the DMA remapping manager

A manager starts with an empty top table. The regions of memory are added to it and single pages are
updated, in any order, with any alignment and any length.
-/

namespace NoirVisor

/-- A call of `nvc_vt_iommu_add_ram_region` or `nvc_vt_iommu_update_pte`. -/
inductive DmarRequest where
  | addRamRegion (start length : Nat)
  | updatePte (gpa hpa : Nat) (r w x : Bool)
deriving DecidableEq, Repr

namespace DmarManager

/-- The tables as `nvc_vt_iommu_initialize` sets them up. -/
def create (root : Nat) (usingAgaw : Agaw) (largePage hugePage : Bool)
    (memory : Radix.Frames Stage2Entry) (size : Nat → Nat) (allocator : Allocator) :
    DmarManager where
  root
  pml4 := []
  pdpte := []
  pde := []
  pte := []
  usingAgaw
  largePage
  hugePage
  memory := memory.fill root fun _ => {}
  size := Function.update size root page4kbSize
  allocator
  refused := false

def IsNew (dmarm : DmarManager) : Prop :=
  ∃ root usingAgaw largePage hugePage memory size allocator, root < 2 ^ 40 ∧
    allocator.Fresh (· = root) ∧
    dmarm = create root usingAgaw largePage hugePage memory size allocator

def request (dmarm : DmarManager) : DmarRequest → Outcome DmarManager
  | .addRamRegion start length => dmarm.nvcVtIommuAddRamRegion start length
  | .updatePte gpa hpa r w x => do
      let (_, dmarm) ← dmarm.nvcVtIommuUpdatePte gpa hpa r w x
      .ok dmarm

def run (dmarm : DmarManager) (requests : List DmarRequest) : Outcome DmarManager :=
  requests.foldlM request dmarm

/-! ### What is asked of the map -/

def InRanges (requests : List DmarRequest) (address : Nat) : Prop :=
  ∃ start length, .addRamRegion start length ∈ requests ∧ start ≤ address ∧ address < start + length

/-- What the last update of a page asked for. -/
def lastUpdate (requests : List DmarRequest) (page : Nat) : Option Stage2View :=
  requests.foldl
    (fun last request =>
      match request with
      | .addRamRegion _ _ => last
      | .updatePte gpa hpa r w x => if page4kbCount gpa = page then some ⟨hpa, r, w, x⟩ else last)
    none

def updatedView (update : Stage2View) (address : Nat) : Stage2View :=
  { update with hpa := page4kbMult (page4kbCount update.hpa) + page4kbOffset address }

/-- The memory is mapped to itself, but for the pages that were updated. -/
structure IdentityMaps (requests : List DmarRequest) (dmarm : DmarManager) : Prop where
  ranges : ∀ address, InRanges requests address → lastUpdate requests (page4kbCount address) = none →
    dmarm.view address = some (identityView address)
  updated : ∀ address update, lastUpdate requests (page4kbCount address) = some update →
    dmarm.view address = some (updatedView update address)

/-- A large or huge page shows the address. -/
def InSuperpage (dmarm : DmarManager) (gpa : Nat) : Prop :=
  dmarm.view gpa ≠ none ∧ ∃ w, dmarm.walk gpa = some w ∧ w.level ≠ 0

/-- An update that splits a large or huge page changes the view of no other page. -/
def SplitKeeps (dmarm dmarm' : DmarManager) (gpa : Nat) : Prop :=
  dmarm.InSuperpage gpa → ∀ address, page4kbCount address ≠ page4kbCount gpa →
    dmarm'.view address = dmarm.view address

/-- No write misses its table, and with all the pages asked for, the memory is mapped to itself. -/
def RunsRight (dmarm : DmarManager) (requests : List DmarRequest) : Prop :=
  ∃ dmarm', dmarm.run requests = .ok dmarm' ∧ (dmarm'.refused = false →
    IdentityMaps requests dmarm' ∧
      ∀ before gpa hpa r w x dmarm₁, requests = before ++ [.updatePte gpa hpa r w x] →
        dmarm.run before = .ok dmarm₁ → SplitKeeps dmarm₁ dmarm' gpa)

/-! ### When it comes out right -/

/-- A table of large pages for `gpa` leaves the top table of 512 GiB right: it is not written again,
or it holds nothing below it yet and either starts at zero or is still empty. -/
def RootKept (dmarm : DmarManager) (gpa : Nat) : Prop :=
  dmarm.nvcVtIommuSearchPdeDescriptor gpa ≠ none ∨
    (dmarm.pde = [] ∧ (page1gbCount gpa = 0 ∨ ∀ i < 512, dmarm.memory dmarm.root i = {}))

/-- What a call for a region has to meet. With five levels the first table is allocated with the size
of an `int`. -/
def RegionSound (dmarm : DmarManager) (start length : Nat) : Prop :=
  start + length ≤ dmarm.limit ∧ dmarm.ReachesEnd start length ∧
    match dmarm.usingAgaw with
    | .bit39 =>
        if dmarm.hugePage then
          dmarm.pde = [] ∧ page1gbCount (dmarm.lastVisit start length) = 0
        else
          page1gbCount (dmarm.lastVisit start length) = page1gbCount start ∧ dmarm.RootKept start
    | .bit48 => True
    | .bit57 => False

/-- What a call for a page has to meet. -/
def PageSound (dmarm : DmarManager) (gpa hpa : Nat) : Prop :=
  gpa < dmarm.limit ∧ hpa < 2 ^ 52 ∧ (dmarm.hugePage = true → dmarm.largePage = true) ∧
    match dmarm.usingAgaw with
    | .bit39 => dmarm.RootKept gpa
    | .bit48 => True
    | .bit57 => False

def Sound (dmarm : DmarManager) : DmarRequest → Prop
  | .addRamRegion start length => length = 0 ∨ dmarm.RegionSound start length
  | .updatePte gpa hpa _ _ _ => dmarm.PageSound gpa hpa

/-- Every request of a run meets the condition in the state it finds. -/
def Meets (dmarm : DmarManager) : List DmarRequest → Prop
  | [] => True
  | request :: requests => dmarm.Sound request ∧
      ∀ dmarm', dmarm.request request = .ok dmarm' → Meets dmarm' requests

variable {dmarm dmarm' : DmarManager} {pages huge : Nat → Stage2Entry}
  {requests done : List DmarRequest} {address gpa hpa start length page : Nat} {r w x : Bool}

theorem RootKept.steady (hkept : dmarm.RootKept gpa) (hinv : dmarm.Inv pages huge) :
    dmarm.Steady huge gpa := by
  intro hagaw
  rcases hkept with hfound | ⟨hpde, hroot⟩
  · refine Or.inl fun hnone => hfound ?_
    rwa [described_one hinv.wf, Option.map_eq_none_iff] at hnone
  · have hnone := (pde_eq_nil_iff hinv.wf).mp hpde
    refine Or.inr ⟨hnone, hroot.imp_right fun hempty i hi => ?_⟩
    have hentry := hinv.wf.holds.entries 2 0 _ i (described_root hagaw) hi
    rw [Radix.content_succ_of_none (hnone _), hempty i hi] at hentry
    rw [hentry, Nat.mul_zero, Nat.zero_add]
    rfl

theorem PageSound.steady (hsound : dmarm.PageSound gpa hpa) (hinv : dmarm.Inv pages huge) :
    dmarm.Steady huge gpa := by
  intro hagaw
  have hkept := hsound.2.2.2
  rw [hagaw] at hkept
  exact RootKept.steady hkept hinv hagaw

theorem RegionSound.visitable (hsound : dmarm.RegionSound start length)
    (hinv : dmarm.Inv pages huge) : dmarm.Visitable huge start := by
  obtain ⟨-, -, hsafe⟩ := hsound
  unfold Visitable
  split
  · rename_i hpage
    intro hagaw
    rw [hagaw, if_pos hpage] at hsafe
    refine ⟨(pde_eq_nil_iff hinv.wf).mp hsafe.1, Nat.le_zero.mp ?_⟩
    rw [← hsafe.2, page1gbCount_eq]
    exact Nat.div_le_div_right (Nat.le_add_right _ _)
  · rename_i hpage
    intro hagaw
    rw [hagaw, if_neg hpage] at hsafe
    exact RootKept.steady hsafe.2 hinv hagaw

/-- With a top table of 512 GiB, the loop stays in one page of 1 GiB. -/
theorem RegionSound.region (hsound : dmarm.RegionSound start length)
    (hagaw : dmarm.usingAgaw = .bit39) {k : Nat} (hk : k < turns dmarm.increment length) :
    Radix.region 2 (start + k * dmarm.increment) = Radix.region 2 start := by
  obtain ⟨-, -, hsafe⟩ := hsound
  have hlower : Radix.region 2 start ≤ Radix.region 2 (start + k * dmarm.increment) :=
    Nat.div_le_div_right (Nat.le_add_right _ _)
  have hupper : Radix.region 2 (start + k * dmarm.increment) ≤
      Radix.region 2 (dmarm.lastVisit start length) :=
    Nat.div_le_div_right (Nat.add_le_add_left (Nat.mul_le_mul_right _ (by omega)) _)
  rw [hagaw] at hsafe
  dsimp only at hsafe
  split at hsafe
  · rw [page1gbCount_eq] at hsafe
    omega
  · rw [page1gbCount_eq, page1gbCount_eq] at hsafe
    omega

/-! ### What a run keeps -/

/-- An entry shows what an update asked for. -/
structure Shows (entry : Stage2Entry) (update : Stage2View) : Prop where
  read : entry.read = update.read
  write : entry.write = update.write
  execute : entry.execute = update.execute
  ptr : entry.ptr = page4kbCount update.hpa

/-- The tables follow the requests. -/
structure Tracks (requests : List DmarRequest) (dmarm : DmarManager)
    (pages huge : Nat → Stage2Entry) : Prop where
  ranges : ∀ address, InRanges requests address → address < dmarm.limit ∧ dmarm.Covered huge address
  updated : ∀ address update, lastUpdate requests (page4kbCount address) = some update →
    address < dmarm.limit ∧ dmarm.described 0 (Radix.region 1 address) ≠ none ∧
      Shows (pages (page4kbCount address)) update
  others : ∀ page, lastUpdate requests page = none → pages page = pageEntry page

def Kept (requests : List DmarRequest) (dmarm : DmarManager) : Prop :=
  ∃ pages huge, dmarm.Inv pages huge ∧ (dmarm.refused = false → Tracks requests dmarm pages huge)

theorem page4kbCount_eq (address : Nat) : page4kbCount address = Radix.region 0 address := rfl

theorem Shows.viewOf {entry : Stage2Entry} {update : Stage2View} (hshows : Shows entry update) :
    dmarm.viewOf ⟨[], entry, 0⟩ address = some (updatedView update address) := by
  have haccepts : dmarm.accepts 0 entry = true := by simp [accepts, Nat.mod_one]
  rw [DmarManager.viewOf, if_pos haccepts]
  simp only [Radix.Walk.entries, List.nil_append, List.all_cons, List.all_nil, Bool.and_true,
    hshows.read, hshows.write, hshows.execute, hshows.ptr]
  rfl

theorem Tracks.identityMaps (htracks : Tracks requests dmarm pages huge)
    (hinv : dmarm.Inv pages huge) : IdentityMaps requests dmarm where
  ranges address hrange hnone := by
    obtain ⟨haddress, hcovered⟩ := htracks.ranges address hrange
    exact view_of_covered hinv.wf haddress hcovered hinv.splittable (htracks.others _ hnone)
  updated address update hlast := by
    obtain ⟨haddress, htable, hshows⟩ := htracks.updated address update hlast
    rw [view_of_page hinv.wf haddress htable]
    exact hshows.viewOf

theorem inRanges_addRamRegion : InRanges (done ++ [.addRamRegion start length]) address ↔
    InRanges done address ∨ (start ≤ address ∧ address < start + length) := by
  constructor
  · rintro ⟨s, l, hmem, hbounds⟩
    rcases List.mem_append.mp hmem with hold | hnew
    · exact Or.inl ⟨s, l, hold, hbounds⟩
    · obtain ⟨rfl, rfl⟩ := DmarRequest.addRamRegion.inj (List.mem_singleton.mp hnew)
      exact Or.inr hbounds
  · rintro (⟨s, l, hmem, hbounds⟩ | hbounds)
    · exact ⟨s, l, List.mem_append_left _ hmem, hbounds⟩
    · exact ⟨start, length, List.mem_append_right _ (List.mem_singleton.mpr rfl), hbounds⟩

theorem inRanges_updatePte : InRanges (done ++ [.updatePte gpa hpa r w x]) address ↔
    InRanges done address := by
  constructor
  · rintro ⟨s, l, hmem, hbounds⟩
    rcases List.mem_append.mp hmem with hold | hnew
    · exact ⟨s, l, hold, hbounds⟩
    · exact nomatch List.mem_singleton.mp hnew
  · rintro ⟨s, l, hmem, hbounds⟩
    exact ⟨s, l, List.mem_append_left _ hmem, hbounds⟩

@[simp]
theorem lastUpdate_addRamRegion :
    lastUpdate (done ++ [.addRamRegion start length]) page = lastUpdate done page := by
  simp [lastUpdate]

theorem lastUpdate_updatePte : lastUpdate (done ++ [.updatePte gpa hpa r w x]) page =
    if page4kbCount gpa = page then some ⟨hpa, r, w, x⟩ else lastUpdate done page := by
  simp [lastUpdate]

theorem addRamRegion_of_empty (dmarm : DmarManager) (start : Nat) :
    dmarm.nvcVtIommuAddRamRegion start 0 = .ok dmarm := by
  have hturns : turns dmarm.increment 0 = 0 := by
    have hpos := dmarm.increment_pos
    exact Nat.div_eq_of_lt (by omega)
  simp only [nvcVtIommuAddRamRegion, hturns]
  rfl

theorem Tracks.addRamRegion (htracks : Tracks done dmarm pages huge)
    {huge' : Nat → Stage2Entry}
    (hadded : Added start (List.range (turns dmarm.increment length)) pages dmarm huge dmarm' huge')
    (hfits : start + length ≤ dmarm.limit) (hreaches : dmarm.ReachesEnd start length)
    (hrefused : dmarm'.refused = false) :
    Tracks (done ++ [.addRamRegion start length]) dmarm' pages huge' where
  ranges address hrange := by
    rw [hadded.later.limit]
    rcases inRanges_addRamRegion.mp hrange with hold | ⟨hstart, hend⟩
    · obtain ⟨haddress, hcovered⟩ := htracks.ranges address hold
      exact ⟨haddress, hcovered.later hadded.later hadded.identity⟩
    · obtain ⟨k, hk, hregion⟩ := exists_visit hreaches hstart hend
      refine ⟨by omega, ?_⟩
      have hcovered := hadded.covered hrefused k (List.mem_range.mpr hk)
      unfold Covered at hcovered ⊢
      rw [hadded.later.grain] at hcovered ⊢
      rwa [hregion]
  updated address update hlast := by
    rw [lastUpdate_addRamRegion] at hlast
    obtain ⟨haddress, htable, hshows⟩ := htracks.updated address update hlast
    exact ⟨by rwa [hadded.later.limit], hadded.later.some htable, hshows⟩
  others page hlast := htracks.others page (by rwa [lastUpdate_addRamRegion] at hlast)

theorem Kept.addRamRegion (hkept : Kept done dmarm)
    (hsound : length = 0 ∨ dmarm.RegionSound start length) :
    ∃ dmarm', dmarm.nvcVtIommuAddRamRegion start length = .ok dmarm' ∧
      Kept (done ++ [.addRamRegion start length]) dmarm' := by
  obtain ⟨pages, huge, hinv, htracks⟩ := hkept
  rcases hsound with rfl | hsound
  · refine ⟨dmarm, addRamRegion_of_empty dmarm start, pages, huge, hinv, fun hrefused => ?_⟩
    have h := htracks hrefused
    refine ⟨fun address hrange => ?_, fun address update hlast => ?_, fun page hlast => ?_⟩
    · rcases inRanges_addRamRegion.mp hrange with hold | hnew
      · exact h.ranges address hold
      · omega
    · exact h.updated address update (by rwa [lastUpdate_addRamRegion] at hlast)
    · exact h.others page (by rwa [lastUpdate_addRamRegion] at hlast)
  · obtain ⟨dmarm', huge', hrun, hadded⟩ := add_made hinv hsound.1
      (hsound.visitable hinv) fun hagaw k hk => hsound.region hagaw hk
    exact ⟨dmarm', hrun, pages, huge', hadded.inv, fun hrefused =>
      (htracks (hadded.later.refused hrefused)).addRamRegion hadded hsound.1 hsound.2.1 hrefused⟩

/-- The addresses of a page are all below the limit or none is. -/
theorem lt_limit_of_page (hgpa : gpa < dmarm.limit)
    (hpage : page4kbCount address = page4kbCount gpa) : address < dmarm.limit := by
  have hregion := Radix.region_congr hpage (dmarm.usingAgaw.top + 1)
  rw [show Radix.region (dmarm.usingAgaw.top + 1) gpa = 0 from Nat.div_eq_of_lt hgpa] at hregion
  exact (Nat.div_eq_zero_iff_lt (Nat.two_pow_pos _)).mp hregion

theorem shows_setPtr (entry : Stage2Entry) (hhpa : hpa < 2 ^ 52) :
    Shows ((entry.setRights r w x).setPtr (page4kbCount hpa)) ⟨hpa, r, w, x⟩ := by
  refine ⟨rfl, rfl, rfl, Nat.mod_eq_of_lt ?_⟩
  unfold page4kbCount
  omega

theorem Tracks.updatePte (htracks : Tracks done dmarm pages huge) (hinv : dmarm.Inv pages huge)
    {pages' huge' : Nat → Stage2Entry}
    (hupdated : Updated gpa hpa r w x dmarm pages huge dmarm' pages' huge')
    (hsteady : dmarm.Steady huge gpa) (hgpa : gpa < dmarm.limit) (hhpa : hpa < 2 ^ 52)
    (hrefused : dmarm'.refused = false) :
    Tracks (done ++ [.updatePte gpa hpa r w x]) dmarm' pages' huge' where
  ranges address hrange := by
    obtain ⟨haddress, hcovered⟩ := htracks.ranges address (inRanges_updatePte.mp hrange)
    rw [hupdated.grows.limit]
    exact ⟨haddress, hcovered.later hupdated.grows.toExtends
      (hupdated.rewritten.identity hsteady hinv.wf)⟩
  updated address update hlast := by
    rw [hupdated.grows.limit]
    rw [lastUpdate_updatePte] at hlast
    split at hlast
    · rename_i hpage
      obtain rfl := Option.some.inj hlast
      refine ⟨lt_limit_of_page hgpa hpage.symm, ?_, ?_⟩
      · rw [← Radix.region_congr hpage 1]
        exact hupdated.table hrefused
      · rw [← hpage, page4kbCount_eq, hupdated.page hrefused]
        exact shows_setPtr _ hhpa
    · rename_i hpage
      obtain ⟨haddress, htable, hshows⟩ := htracks.updated address update hlast
      refine ⟨haddress, hupdated.grows.some htable, ?_⟩
      rwa [hupdated.others _ fun heq => hpage heq.symm]
  others page hlast := by
    rw [lastUpdate_updatePte] at hlast
    split at hlast
    · cases hlast
    · rename_i hpage
      rw [hupdated.others _ fun heq => hpage heq.symm, htracks.others page hlast]

theorem Kept.updatePte (hkept : Kept done dmarm) (hsound : dmarm.PageSound gpa hpa) :
    ∃ dmarm', dmarm.request (.updatePte gpa hpa r w x) = .ok dmarm' ∧
      Kept (done ++ [.updatePte gpa hpa r w x]) dmarm' := by
  obtain ⟨pages, huge, hinv, htracks⟩ := hkept
  have hsteady := hsound.steady hinv
  obtain ⟨st, dmarm', pages', huge', hrun, hupdated⟩ :=
    update_made hinv hsound.1 hsteady hsound.2.2.1 hpa r w x
  refine ⟨dmarm', ?_, pages', huge', hupdated.inv, fun hrefused => ?_⟩
  · rw [request, hrun]
    rfl
  · exact (htracks (hupdated.grows.refused hrefused)).updatePte hinv hupdated hsteady hsound.1
      hsound.2.1 hrefused

/-! ### Splitting -/

/-- An address with a table of single pages is not in a larger page. -/
theorem InSuperpage.described_zero (hsuper : dmarm.InSuperpage gpa) (hinv : dmarm.Inv pages huge)
    (hgpa : gpa < dmarm.limit) : dmarm.described 0 (Radix.region 1 gpa) = none := by
  obtain ⟨-, w, hwalk, hlevel⟩ := hsuper
  by_contra htable
  rw [walk_eq hinv.wf hgpa] at hwalk
  obtain ⟨frames, hframes⟩ := hinv.wf.holds.resolve_past (n := dmarm.usingAgaw.top) le_rfl
    (by rwa [Nat.sub_self])
  rw [hframes, Nat.sub_self, Radix.resolve, Option.map_some] at hwalk
  exact hlevel (congrArg Radix.Walk.level (Option.some.inj hwalk)).symm

/-- The huge page that shows an address is one that maps the memory to itself. -/
theorem InSuperpage.identity (hsuper : dmarm.InSuperpage gpa) (hinv : dmarm.Inv pages huge)
    (hgpa : gpa < dmarm.limit) (hsteady : dmarm.Steady huge gpa)
    (hone : dmarm.described 1 (Radix.region 2 gpa) = none) : huge = hugeFrom 0 := by
  cases hagaw : dmarm.usingAgaw with
  | bit39 =>
      have hnone : ∀ r, dmarm.described 1 r = none := by
        rcases hsteady hagaw with hsome | ⟨hnone, -⟩
        · exact absurd hone hsome
        · exact hnone
      rcases hinv.narrow hagaw with hempty | hidentity | ⟨r, hr⟩
      · have htable := described_two_narrow hagaw hgpa
        have hregion : Radix.region 2 gpa < 512 := by
          have hlt := hgpa
          rw [limit, hagaw] at hlt
          exact Nat.div_lt_of_lt_mul hlt
        refine absurd ?_ hsuper.1
        rw [view_of_huge hinv.wf hgpa hone (by rw [htable]; simp), hempty _ hregion]
        rfl
      · exact hidentity
      · exact absurd (hnone r) hr
  | bit48 => exact hinv.wf.wide hagaw
  | bit57 => exact absurd hagaw hinv.wf.shallow

theorem Updated.splitKeeps {pages' huge' : Nat → Stage2Entry} (hinv : dmarm.Inv pages huge)
    (hupdated : Updated gpa hpa r w x dmarm pages huge dmarm' pages' huge')
    (hsteady : dmarm.Steady huge gpa) (hgpa : gpa < dmarm.limit)
    (hlarge : dmarm.hugePage = true → dmarm.largePage = true) : SplitKeeps dmarm dmarm' gpa := by
  intro hsuper address hpage
  have hgrows := hupdated.grows
  by_cases haddress : address < dmarm.limit
  · have hidentity := hsuper.identity hinv hgpa hsteady
    have hhuge : huge' = huge := by
      rcases hupdated.rewritten with heq | ⟨hagaw, hpde, hrest⟩
      · exact heq
      · have hone := (pde_eq_nil_iff hinv.wf).mp hpde (Radix.region 2 gpa)
        rw [hupdated.rewritten.identity hsteady hinv.wf (hidentity hone), hidentity hone]
    exact view_of_split hinv.wf (hhuge ▸ hupdated.inv.wf) hgrows haddress hgpa hlarge
      (hsuper.described_zero hinv hgpa) hidentity hsuper.1 (hupdated.others _ hpage)
  · rw [view_of_limit haddress, view_of_limit (hgrows.limit ▸ haddress)]

/-! ### Runs -/

theorem run_append (dmarm : DmarManager) (before after : List DmarRequest) :
    dmarm.run (before ++ after) = (dmarm.run before >>= fun dmarm => dmarm.run after) := by
  rw [run, List.foldlM_append]
  rfl

theorem Meets.append {before after : List DmarRequest} (hmeets : dmarm.Meets (before ++ after))
    (hrun : dmarm.run before = .ok dmarm') : dmarm'.Meets after := by
  induction before generalizing dmarm with
  | nil =>
      obtain rfl := Except.ok.inj hrun
      exact hmeets
  | cons request before ih =>
      rw [run, List.foldlM_cons] at hrun
      obtain ⟨dmarm₁, hfirst, hrest⟩ := bind_eq_ok.mp hrun
      exact ih (hmeets.2 dmarm₁ hfirst) hrest

theorem Meets.left {before after : List DmarRequest} (hmeets : dmarm.Meets (before ++ after)) :
    dmarm.Meets before := by
  induction before generalizing dmarm with
  | nil => exact trivial
  | cons request before ih =>
      exact ⟨hmeets.1, fun dmarm₁ hfirst => ih (hmeets.2 dmarm₁ hfirst)⟩

theorem Kept.request (hkept : Kept done dmarm) {request : DmarRequest}
    (hsound : dmarm.Sound request) :
    ∃ dmarm', dmarm.request request = .ok dmarm' ∧ Kept (done ++ [request]) dmarm' := by
  cases request with
  | addRamRegion start length => exact hkept.addRamRegion hsound
  | updatePte gpa hpa r w x => exact hkept.updatePte hsound

theorem Kept.run (hkept : Kept done dmarm) (hmeets : dmarm.Meets requests) :
    ∃ dmarm', dmarm.run requests = .ok dmarm' ∧ Kept (done ++ requests) dmarm' := by
  induction requests generalizing done dmarm with
  | nil => exact ⟨dmarm, rfl, by rwa [List.append_nil]⟩
  | cons request requests ih =>
      obtain ⟨dmarm₁, hfirst, hkept₁⟩ := hkept.request hmeets.1
      obtain ⟨dmarm', hrest, hkept'⟩ := ih hkept₁ (hmeets.2 dmarm₁ hfirst)
      refine ⟨dmarm', ?_, ?_⟩
      · rw [DmarManager.run, List.foldlM_cons, hfirst]
        exact hrest
      · rwa [List.append_assoc] at hkept'

section IsNew

variable {root : Nat} {usingAgaw : Agaw} {largePage hugePage : Bool}
  {memory : Radix.Frames Stage2Entry} {size : Nat → Nat} {allocator : Allocator}

theorem described_create {level region frame : Nat}
    (h : (create root usingAgaw largePage hugePage memory size allocator).described level region =
      some frame) : level = usingAgaw.top ∧ region = 0 ∧ frame = root := by
  match level with
  | 0 | 1 => simp [described, SvmCustomNptManager.listedFrame, Radix.covering, create] at h
  | level + 2 =>
      simp only [described, SvmCustomNptManager.listedFrame, Radix.covering, create, List.find?_nil,
        Option.map_none, ite_self] at h
      split at h
      · rename_i htop
        split at h
        · rename_i hregion
          exact ⟨htop, hregion, (Option.some.inj h).symm⟩
        · cases h
      · cases h

theorem described_create_of_lt {level : Nat} (hlevel : level < usingAgaw.top) (region : Nat) :
    (create root usingAgaw largePage hugePage memory size allocator).described level region =
      none := by
  by_contra hsome
  obtain ⟨frame, hframe⟩ := Option.ne_none_iff_exists'.mp hsome
  have := (described_create hframe).1
  omega

/-- The huge pages of a new manager: a table of them that comes later maps the memory to itself. -/
def newHuge (usingAgaw : Agaw) : Nat → Stage2Entry :=
  if usingAgaw = .bit48 then hugeFrom 0 else fun _ => {}

theorem create_holds (hagaw : usingAgaw ≠ .bit57) :
    Radix.Holds (create root usingAgaw largePage hugePage memory size allocator).described
      (memory.fill root fun _ => {}) usingAgaw.top tableEntry
      (own pageEntry (newHuge usingAgaw)) where
  disjoint level region level' region' frame hleft hright := by
    have hl := described_create hleft
    have hr := described_create hright
    omega
  entries level region frame i hframe hi := by
    obtain ⟨rfl, rfl, rfl⟩ := described_create hframe
    rw [Radix.Frames.fill_self]
    cases usingAgaw with
    | bit39 =>
        have hbelow : 1 < Agaw.bit39.top := by decide
        rw [show Agaw.bit39.top = 1 + 1 from rfl,
          Radix.content_succ_of_none (described_create_of_lt hbelow _)]
        rfl
    | bit48 =>
        have hbelow : 2 < Agaw.bit48.top := by decide
        rw [show Agaw.bit48.top = 2 + 1 from rfl,
          Radix.content_succ_of_none (described_create_of_lt hbelow _)]
        rfl
    | bit57 => exact absurd rfl hagaw
  rooted level hlevel region hsome :=
    absurd (described_create_of_lt hlevel region) hsome

theorem create_inv (hagaw : usingAgaw ≠ .bit57) (hroot : root < 2 ^ 40)
    (hfresh : allocator.Fresh (· = root)) :
    (create root usingAgaw largePage hugePage memory size allocator).Inv pageEntry
      (newHuge usingAgaw) := by
  have hone : ∀ r, (create root usingAgaw largePage hugePage memory size
      allocator).described 1 r = none := by
    intro r
    simp [described, SvmCustomNptManager.listedFrame, Radix.covering, create]
  refine ⟨⟨hagaw, SvmCustomNptManager.listed_nil _, SvmCustomNptManager.listed_nil _,
    SvmCustomNptManager.listed_nil _, create_holds hagaw, ?_, ?_, ?_, ?_, ?_, ?_, ?_⟩, ?_, ?_⟩
  · intro level region frame hframe
    rw [(described_create hframe).2.2]
    exact hroot
  · intro level region frame hframe
    rw [(described_create hframe).2.2]
    exact Function.update_self _ _ _
  · refine hfresh.mono fun frame hused => ?_
    rcases hused with ⟨level, region, hframe⟩ | hheld
    · exact (described_create hframe).2.2
    · exact hheld.elim
  · exact fun frame hheld => hheld.elim
  · intro r
    unfold newHuge
    split
    · exact Or.inr ⟨_, rfl⟩
    · exact Or.inl rfl
  · exact fun hwide => if_pos hwide
  · exact fun page _ => rfl
  · intro hnarrow
    refine Or.inl fun i _ => ?_
    rw [newHuge, if_neg (by rw [show usingAgaw = .bit39 from hnarrow]; decide)]
  · exact fun _ _ => hone

end IsNew

/-- With five levels no call that does anything meets the condition. -/
theorem run_of_deep (hagaw : dmarm.usingAgaw = .bit57) (hmeets : dmarm.Meets requests) :
    dmarm.run requests = .ok dmarm ∧ ∀ request ∈ requests, ∃ start, request = .addRamRegion start 0 := by
  induction requests with
  | nil => exact ⟨rfl, fun request hmem => nomatch hmem⟩
  | cons request requests ih =>
      obtain ⟨hsound, hrest⟩ := hmeets
      have hempty : ∃ start, request = .addRamRegion start 0 := by
        cases request with
        | addRamRegion start length =>
            rcases hsound with rfl | ⟨-, -, hsafe⟩
            · exact ⟨start, rfl⟩
            · rw [hagaw] at hsafe
              exact hsafe.elim
        | updatePte gpa hpa r w x =>
            have hsafe := hsound.2.2.2
            rw [hagaw] at hsafe
            exact hsafe.elim
      obtain ⟨start, rfl⟩ := hempty
      have hfirst : dmarm.request (.addRamRegion start 0) = .ok dmarm :=
        addRamRegion_of_empty dmarm start
      obtain ⟨hrun, hall⟩ := ih (hrest dmarm hfirst)
      refine ⟨?_, List.forall_mem_cons.mpr ⟨⟨start, rfl⟩, hall⟩⟩
      rw [DmarManager.run, List.foldlM_cons, hfirst]
      exact hrun

theorem lastUpdate_of_empty (hall : ∀ request ∈ requests, ∃ start, request = .addRamRegion start 0)
    (page : Nat) : lastUpdate requests page = none := by
  induction requests with
  | nil => rfl
  | cons request requests ih =>
      obtain ⟨start, rfl⟩ := hall request List.mem_cons_self
      exact ih fun request hmem => hall request (List.mem_cons_of_mem _ hmem)

theorem runsRight_of_deep (hagaw : dmarm.usingAgaw = .bit57) (hmeets : dmarm.Meets requests) :
    dmarm.RunsRight requests := by
  obtain ⟨hrun, hall⟩ := run_of_deep hagaw hmeets
  refine ⟨dmarm, hrun, fun _ => ⟨⟨?_, ?_⟩, ?_⟩⟩
  · rintro address ⟨start, length, hmem, hbounds⟩ -
    obtain ⟨start', hempty⟩ := hall _ hmem
    have := (DmarRequest.addRamRegion.inj hempty).2
    omega
  · intro address update hlast
    rw [lastUpdate_of_empty hall] at hlast
    cases hlast
  · rintro before gpa hpa r w x dmarm₁ rfl -
    obtain ⟨start, hempty⟩ := hall (.updatePte gpa hpa r w x) (by simp)
    cases hempty

/-- In a run whose calls all meet the condition, the memory is mapped to itself but for the updated
pages after each of them. -/
theorem runsRight_of_meets (hnew : dmarm.IsNew) (hmeets : dmarm.Meets requests) :
    dmarm.RunsRight requests := by
  by_cases hagaw : dmarm.usingAgaw = .bit57
  · exact runsRight_of_deep hagaw hmeets
  have hkept : Kept [] dmarm := by
    obtain ⟨root, usingAgaw, largePage, hugePage, memory, size, allocator, hroot, hfresh, rfl⟩ := hnew
    refine ⟨pageEntry, newHuge usingAgaw, create_inv hagaw hroot hfresh, fun _ => ⟨?_, ?_, ?_⟩⟩
    · rintro address ⟨start, length, hmem, -⟩
      cases hmem
    · intro address update hlast
      cases hlast
    · exact fun page _ => rfl
  obtain ⟨dmarm', hrun, pages, huge, hinv, htracks⟩ := hkept.run hmeets
  refine ⟨dmarm', hrun, fun hrefused => ⟨(htracks hrefused).identityMaps hinv, ?_⟩⟩
  rintro before gpa hpa r w x dmarm₁ rfl hbefore
  -- The state before the last update is reached by a run that meets the condition too.
  have hsound : dmarm₁.PageSound gpa hpa := (hmeets.append hbefore).1
  obtain ⟨dmarm₁', hbefore', pages₁, huge₁, hinv₁, -⟩ := hkept.run hmeets.left
  obtain rfl := Except.ok.inj (hbefore'.symm.trans hbefore)
  obtain ⟨st, dmarm₂, pages', huge', hupdate, hupdated⟩ :=
    update_made hinv₁ hsound.1 (hsound.steady hinv₁) hsound.2.2.1 hpa r w x
  have hsame : dmarm₂ = dmarm' := by
    rw [run_append, hbefore, Outcome.ok_bind, DmarManager.run, List.foldlM_cons, request, hupdate] at hrun
    exact Except.ok.inj hrun
  exact hsame ▸ hupdated.splitKeeps hinv₁ (hsound.steady hinv₁) hsound.1 hsound.2.2.1

/-- A manager whose top table is page 1. -/
def newManager (usingAgaw : Agaw) (frames : List Nat) : DmarManager :=
  create 1 usingAgaw true true (fun _ _ => {}) (fun _ => 0) (.ofFrames frames)

theorem newManager_isNew (usingAgaw : Agaw) {frames : List Nat} (hdistinct : frames.Nodup)
    (hframes : ∀ frame ∈ frames, frame ≠ 1 ∧ frame < 2 ^ 40) : (newManager usingAgaw frames).IsNew :=
  ⟨1, usingAgaw, true, true, fun _ _ => {}, fun _ => 0, .ofFrames frames, by decide,
    Allocator.fresh_ofFrames hdistinct hframes, rfl⟩

/-- Two pages of 1 GiB, and an update of a page of the first. -/
def wideRequests : List DmarRequest :=
  [.addRamRegion 0 0x80000000, .updatePte 0x5000 0x9000 true false false]

theorem wideRequests_meets : (newManager .bit48 [2, 3, 4]).Meets wideRequests := by
  refine ⟨Or.inr ⟨by decide, rfl, trivial⟩, fun dmarm' hrun => ⟨?_, fun _ _ => trivial⟩⟩
  have hfeatures : ((newManager .bit48 [2, 3, 4]).request (.addRamRegion 0 0x80000000)).map
      (fun dmarm => (dmarm.usingAgaw, dmarm.largePage)) = .ok (.bit48, true) := rfl
  rw [hrun] at hfeatures
  obtain ⟨hagaw, hlarge⟩ := Prod.mk.inj (Except.ok.inj hfeatures)
  refine ⟨?_, by decide, fun _ => hlarge, ?_⟩
  · rw [limit, hagaw]
    decide
  · rw [hagaw]
    exact trivial

theorem wideRequests_right : (newManager .bit48 [2, 3, 4]).RunsRight wideRequests :=
  runsRight_of_meets (newManager_isNew .bit48 (by decide) (by decide)) wideRequests_meets

/-- With three levels each page of 1 GiB that is asked for becomes the first of the top table: after
the second, address 0 is mapped to 1 GiB. -/
theorem not_forall_runsRight :
    ¬∀ (dmarm : DmarManager) (requests : List DmarRequest), dmarm.IsNew → dmarm.RunsRight requests := by
  intro h
  obtain ⟨dmarm', hrun, hright⟩ := h (newManager .bit39 []) [.addRamRegion 0 0x80000000]
    (newManager_isNew .bit39 (by decide) (by decide))
  have hshown : ((newManager .bit39 []).run [.addRamRegion 0 0x80000000]).map
      (fun dmarm => (dmarm.refused, dmarm.view 0)) =
        .ok (false, some ⟨0x40000000, true, true, true⟩) := rfl
  rw [hrun] at hshown
  obtain ⟨hrefused, hview⟩ := Prod.mk.inj (Except.ok.inj hshown)
  have hidentity := (hright hrefused).1.ranges 0
    ⟨0, 0x80000000, List.mem_singleton.mpr rfl, by decide, by decide⟩ rfl
  rw [hview] at hidentity
  exact absurd hidentity (by decide)

end DmarManager

end NoirVisor
