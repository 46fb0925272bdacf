import NoirVisor.Iommu.Create

/-!
# What the units make of the tables

The view of an address is told by the tables there are for its regions. As long as the units support
the pages it ends at, a table made for a region shows the same as the entry it took the place of.
-/

namespace NoirVisor.DmarManager

variable {dmarm dmarm' : DmarManager} {held held' : Nat → Prop}
  {pages pages' huge huge' : Nat → Stage2Entry} {address gpa : Nat}

theorem walk_eq (hwf : dmarm.Wf held pages huge) (haddress : address < dmarm.limit) :
    dmarm.walk address = Radix.resolve stage2Format dmarm.described tableEntry (own pages huge)
      dmarm.usingAgaw.top address := by
  rw [walk, if_pos haddress]
  exact hwf.holds.walk_eq (fun level r frame hframe => child_tableEntry (hwf.inRange _ _ _ hframe))
    (fun level => isTable_tableEntry (level + 1)) (isTable_own hwf.hugeKind)
    (described_top hwf haddress)

theorem view_of_limit (haddress : ¬address < dmarm.limit) : dmarm.view address = none := by
  rw [view, walk, if_neg haddress]
  rfl

/-- Table entries take no right away. -/
theorem viewOf_past (frames : List Nat) (walk : Radix.Walk Stage2Entry) :
    dmarm.viewOf (walk.past (frames.map tableEntry)) address = dmarm.viewOf walk address := by
  have hall : ∀ right : Stage2Entry → Bool, (∀ frame, right (tableEntry frame) = true) →
      (walk.past (frames.map tableEntry)).entries.all right = walk.entries.all right := by
    intro right hright
    simp [Radix.Walk.past, Radix.Walk.entries, hright]
  unfold viewOf
  rw [hall _ fun _ => rfl, hall _ fun _ => rfl, hall _ fun _ => rfl]
  rfl

/-- An address is told by the lowest table there is for it. -/
theorem view_eq {level : Nat} (hwf : dmarm.Wf held pages huge) (haddress : address < dmarm.limit)
    (hlevel : level ≤ dmarm.usingAgaw.top)
    (htable : dmarm.described level (Radix.region (level + 1) address) ≠ none) :
    dmarm.view address =
      (Radix.resolve stage2Format dmarm.described tableEntry (own pages huge) level address).bind
        (dmarm.viewOf · address) := by
  rw [view, walk_eq hwf haddress]
  rw [show level = dmarm.usingAgaw.top - (dmarm.usingAgaw.top - level) by omega] at htable ⊢
  obtain ⟨frames, hframes⟩ := hwf.holds.resolve_past (by omega) htable
  rw [hframes, Option.bind_map]
  exact congrArg (Option.bind _) (funext fun w => viewOf_past frames w)

theorem Wf.two_le_top (hwf : dmarm.Wf held pages huge) : 2 ≤ dmarm.usingAgaw.top :=
  hwf.lt_top (by decide : 1 < 2)

theorem view_of_page (hwf : dmarm.Wf held pages huge) (haddress : address < dmarm.limit)
    (htable : dmarm.described 0 (Radix.region 1 address) ≠ none) :
    dmarm.view address = dmarm.viewOf ⟨[], pages (Radix.region 0 address), 0⟩ address :=
  view_eq hwf haddress (Nat.zero_le _) htable

theorem view_of_large (hwf : dmarm.Wf held pages huge) (haddress : address < dmarm.limit)
    (hnone : dmarm.described 0 (Radix.region 1 address) = none)
    (htable : dmarm.described 1 (Radix.region 2 address) ≠ none) :
    dmarm.view address = dmarm.viewOf ⟨[], largeEntry (Radix.region 1 address), 1⟩ address := by
  rw [view_eq hwf haddress (hwf.lt_top (by decide)).le htable, Radix.resolve_of_none hnone]
  rfl

theorem view_of_huge (hwf : dmarm.Wf held pages huge) (haddress : address < dmarm.limit)
    (hnone : dmarm.described 1 (Radix.region 2 address) = none)
    (htable : dmarm.described 2 (Radix.region 3 address) ≠ none) :
    dmarm.view address =
      if (huge (Radix.region 2 address)).page then
        dmarm.viewOf ⟨[], huge (Radix.region 2 address), 2⟩ address
      else none := by
  rw [view_eq hwf haddress hwf.two_le_top htable, Radix.resolve_of_none hnone]
  cases hpage : (huge (Radix.region 2 address)).page with
  | true => simp [own, stage2Format, hpage]
  | false => simp [own, stage2Format, hpage]

theorem described_two_narrow (hagaw : dmarm.usingAgaw = .bit39) (haddress : address < dmarm.limit) :
    dmarm.described 2 (Radix.region 3 address) = some dmarm.root := by
  have hregion : Radix.region 3 address = 0 := by
    refine Nat.div_eq_of_lt ?_
    rwa [limit, hagaw] at haddress
  simp [described, hagaw, Agaw.top, hregion]

theorem view_of_none (hwf : dmarm.Wf held pages huge) (haddress : address < dmarm.limit)
    (hnone : dmarm.described 2 (Radix.region 3 address) = none) : dmarm.view address = none := by
  cases hagaw : dmarm.usingAgaw with
  | bit39 =>
      rw [described_two_narrow hagaw haddress] at hnone
      cases hnone
  | bit48 =>
      have htop := described_top hwf haddress
      rw [view_eq hwf haddress le_rfl (by rw [htop]; simp), hagaw]
      rw [show Agaw.bit48.top = 2 + 1 from rfl, Radix.resolve_of_none hnone]
      rfl
  | bit57 => exact absurd hagaw hwf.shallow

section Identity

/-- An address that is mapped to itself with every right. -/
def identityView (address : Nat) : Stage2View where
  hpa := address
  read := true
  write := true
  execute := true

theorem Wf.limit_le (hwf : dmarm.Wf held pages huge) : dmarm.limit ≤ 2 ^ 48 := by
  unfold limit
  cases hagaw : dmarm.usingAgaw with
  | bit39 => decide
  | bit48 => decide
  | bit57 => exact absurd hagaw hwf.shallow

theorem viewOf_pageEntry (haddress : address < 2 ^ 52) :
    dmarm.viewOf ⟨[], pageEntry (Radix.region 0 address), 0⟩ address = some (identityView address) := by
  have hhpa : Radix.region 0 address % 2 ^ 40 * 2 ^ 12 + address % 2 ^ 12 = address := by
    unfold Radix.region
    omega
  simp only [viewOf, accepts, pageEntry, Stage2Entry.toPage, Stage2Entry.setPtr,
    Stage2Entry.setRights, Nat.mul_zero, Nat.add_zero, hhpa]
  simp [Radix.Walk.entries, identityView, Nat.mod_one]

theorem viewOf_largeEntry (haddress : address < 2 ^ 52) :
    dmarm.viewOf ⟨[], largeEntry (Radix.region 1 address), 1⟩ address =
      if dmarm.largePage then some (identityView address) else none := by
  have hhpa : Radix.region 1 address % 2 ^ 31 * 2 ^ 9 * 2 ^ 12 + address % 2 ^ (12 + 9 * 1) =
      address := by
    unfold Radix.region
    omega
  have haccepts : dmarm.accepts 1 (largeEntry (Radix.region 1 address)) = dmarm.largePage := by
    simp [accepts, ptr_largeEntry]
  simp only [viewOf, haccepts, ptr_largeEntry, hhpa]
  rfl

theorem viewOf_hugeEntry (haddress : address < 2 ^ 52) :
    dmarm.viewOf ⟨[], hugeEntry (Radix.region 2 address), 2⟩ address =
      if dmarm.hugePage then some (identityView address) else none := by
  have hhpa : Radix.region 2 address % 2 ^ 22 * 2 ^ 18 * 2 ^ 12 + address % 2 ^ (12 + 9 * 2) =
      address := by
    unfold Radix.region
    omega
  have haccepts : dmarm.accepts 2 (hugeEntry (Radix.region 2 address)) = dmarm.hugePage := by
    simp [accepts, ptr_hugeEntry]
  simp only [viewOf, haccepts, ptr_hugeEntry, hhpa]
  rfl

end Identity

/-- The level of the largest pages the units support. -/
def grain (dmarm : DmarManager) : Nat :=
  if dmarm.hugePage then 2 else if dmarm.largePage then 1 else 0

/-- The table for an address at the level of the largest pages is there. -/
def Covered (dmarm : DmarManager) (huge : Nat → Stage2Entry) (address : Nat) : Prop :=
  dmarm.described dmarm.grain (Radix.region (dmarm.grain + 1) address) ≠ none ∧
    (dmarm.hugePage = true → huge = hugeFrom 0)

/-- No page of 1 GiB is split where the units do not support large pages. -/
def Splittable (dmarm : DmarManager) : Prop :=
  dmarm.hugePage = true → dmarm.largePage = false → ∀ r, dmarm.described 1 r = none

/-- The units support the large or huge page an address is in. -/
structure Supported (dmarm : DmarManager) (address : Nat) : Prop where
  huge : dmarm.described 1 (Radix.region 2 address) = none →
    dmarm.hugePage = true ∧ dmarm.described 2 (Radix.region 3 address) ≠ none
  large : dmarm.described 1 (Radix.region 2 address) ≠ none → dmarm.largePage = true

theorem Wf.address_lt (hwf : dmarm.Wf held pages huge) (haddress : address < dmarm.limit) :
    address < 2 ^ 52 := by
  have := hwf.limit_le
  omega

theorem view_of_supported (hwf : dmarm.Wf held pages huge) (haddress : address < dmarm.limit)
    (hzero : dmarm.described 0 (Radix.region 1 address) = none) (hsupported : dmarm.Supported address)
    (hhuge : dmarm.described 1 (Radix.region 2 address) = none → huge = hugeFrom 0) :
    dmarm.view address = some (identityView address) := by
  have hlt := hwf.address_lt haddress
  by_cases hone : dmarm.described 1 (Radix.region 2 address) = none
  · obtain ⟨hpage, htable⟩ := hsupported.huge hone
    rw [view_of_huge hwf haddress hone htable, hhuge hone, hugeFrom_zero, viewOf_hugeEntry hlt,
      if_pos hpage]
    rfl
  · rw [view_of_large hwf haddress hzero hone, viewOf_largeEntry hlt,
      if_pos (hsupported.large hone)]

theorem supported_of_view (hwf : dmarm.Wf held pages huge) (haddress : address < dmarm.limit)
    (hzero : dmarm.described 0 (Radix.region 1 address) = none)
    (hhuge : dmarm.described 1 (Radix.region 2 address) = none → huge = hugeFrom 0)
    (hview : dmarm.view address ≠ none) : dmarm.Supported address := by
  have hlt := hwf.address_lt haddress
  refine ⟨fun hone => ?_, fun hone => ?_⟩
  · have htable : dmarm.described 2 (Radix.region 3 address) ≠ none := fun hnone =>
      hview (view_of_none hwf haddress hnone)
    refine ⟨by_contra fun hnot => hview ?_, htable⟩
    rw [view_of_huge hwf haddress hone htable, hhuge hone, hugeFrom_zero, viewOf_hugeEntry hlt,
      if_neg hnot, ite_self]
  · by_contra hnot
    apply hview
    rw [view_of_large hwf haddress hzero hone, viewOf_largeEntry hlt, if_neg hnot]

theorem view_of_covered (hwf : dmarm.Wf held pages huge) (haddress : address < dmarm.limit)
    (hcovered : dmarm.Covered huge address) (hsplittable : dmarm.Splittable)
    (hpage : pages (Radix.region 0 address) = pageEntry (Radix.region 0 address)) :
    dmarm.view address = some (identityView address) := by
  obtain ⟨htable, hhuge⟩ := hcovered
  by_cases hzero : dmarm.described 0 (Radix.region 1 address) = none
  · have hsupported : dmarm.Supported address := by
      unfold grain at htable
      refine ⟨fun hone => ?_, fun hone => ?_⟩
      · split at htable
        · rename_i hpage
          exact ⟨hpage, htable⟩
        · split at htable
          · exact absurd hone htable
          · exact absurd hzero htable
      · by_contra hlarge
        rw [Bool.not_eq_true] at hlarge
        split at htable
        · rename_i hpage
          exact hone (hsplittable hpage hlarge _)
        · rw [hlarge] at htable
          exact htable hzero
    exact view_of_supported hwf haddress hzero hsupported fun hone =>
      hhuge (hsupported.huge hone).1
  · rw [view_of_page hwf haddress hzero, hpage, viewOf_pageEntry (hwf.address_lt haddress)]

/-- A table that is new is one for a region of `gpa`. -/
theorem Grows.region (hgrows : Grows gpa held dmarm dmarm') {level r : Nat}
    (hnone : dmarm.described level r = none) (hsome : dmarm'.described level r ≠ none) :
    r = Radix.region (level + 1) gpa := by
  by_contra hne
  exact hsome ((hgrows.only level r hne).trans hnone)

/-- Splitting a page into smaller ones shows no address of it. -/
theorem view_of_split (hwf : dmarm.Wf held pages huge) (hwf' : dmarm'.Wf held pages' huge)
    (hgrows : Grows gpa held dmarm dmarm') (haddress : address < dmarm.limit)
    (hgpa : gpa < dmarm.limit) (hlarge : dmarm.hugePage = true → dmarm.largePage = true)
    (hzero : dmarm.described 0 (Radix.region 1 gpa) = none)
    (hhuge : dmarm.described 1 (Radix.region 2 gpa) = none → huge = hugeFrom 0)
    (hview : dmarm.view gpa ≠ none)
    (hpages : pages' (Radix.region 0 address) = pages (Radix.region 0 address)) :
    dmarm'.view address = dmarm.view address := by
  have hgpaSupported := supported_of_view hwf hgpa hzero hhuge hview
  have haddress' : address < dmarm'.limit := hgrows.limit ▸ haddress
  have hlt := hwf.address_lt haddress
  by_cases hold : dmarm.described 0 (Radix.region 1 address) = none
  · by_cases hnew : dmarm'.described 0 (Radix.region 1 address) = none
    · by_cases holdOne : dmarm.described 1 (Radix.region 2 address) = none
      · by_cases hnewOne : dmarm'.described 1 (Radix.region 2 address) = none
        · -- The page of 1 GiB is as it was.
          by_cases holdTwo : dmarm.described 2 (Radix.region 3 address) = none
          · by_cases hnewTwo : dmarm'.described 2 (Radix.region 3 address) = none
            · rw [view_of_none hwf' haddress' hnewTwo, view_of_none hwf haddress holdTwo]
            · have hregion := hgrows.region holdTwo hnewTwo
              rw [hregion] at holdTwo
              exact absurd (view_of_none hwf hgpa holdTwo) hview
          · rw [view_of_huge hwf' haddress' hnewOne (hgrows.some holdTwo),
              view_of_huge hwf haddress holdOne holdTwo, hgrows.viewOf]
        · -- The page of 1 GiB around `gpa` is split.
          have hregion := hgrows.region holdOne hnewOne
          have hregion' : Radix.region 3 address = Radix.region 3 gpa := by
            rw [Radix.region_succ, hregion, ← Radix.region_succ]
          rw [hregion] at holdOne
          obtain ⟨hpage, htable⟩ := hgpaSupported.huge holdOne
          have hsupported : dmarm.Supported address :=
            ⟨fun _ => ⟨hpage, hregion' ▸ htable⟩, fun _ => hlarge hpage⟩
          rw [view_of_supported hwf haddress hold hsupported fun _ => hhuge holdOne,
            view_of_large hwf' haddress' hnew hnewOne, hgrows.viewOf, viewOf_largeEntry hlt,
            if_pos (hlarge hpage)]
      · rw [view_of_large hwf' haddress' hnew (hgrows.some holdOne),
          view_of_large hwf haddress hold holdOne, hgrows.viewOf]
    · -- The page of 2 MiB around `gpa` is split.
      have hregion := hgrows.region hold hnew
      have hregion₂ : Radix.region 2 address = Radix.region 2 gpa := by
        rw [Radix.region_succ, hregion, ← Radix.region_succ]
      have hregion₃ : Radix.region 3 address = Radix.region 3 gpa := by
        rw [Radix.region_succ, hregion₂, ← Radix.region_succ]
      have hsupported : dmarm.Supported address := by
        constructor
        · rw [hregion₂, hregion₃]
          exact hgpaSupported.huge
        · rw [hregion₂]
          exact hgpaSupported.large
      have huntouched : pages (Radix.region 0 address) = pageEntry (Radix.region 0 address) := by
        refine hwf.untouched _ ?_
        rw [← Radix.region_succ 0 address]
        exact hold
      rw [view_of_page hwf' haddress' hnew, hpages, huntouched, viewOf_pageEntry hlt,
        view_of_supported hwf haddress hold hsupported fun h => hhuge (hregion₂ ▸ h)]
  · rw [view_of_page hwf' haddress' (hgrows.some hold), view_of_page hwf haddress hold, hpages,
      hgrows.viewOf]

end NoirVisor.DmarManager
