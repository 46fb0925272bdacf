import NoirVisor.Iommu.Layout

/-!
# Tables made on demand

Each creator allocates its table first, then asks for the table above, and links its own last. While
it waits its page is held aside. What a creator changes is the same at every level: a table appears
for a region that had none, and the region's own entries fill it.
-/

namespace NoirVisor.DmarManager

open SvmCustomNptManager (Listed listedFrame listedFrame_append)

variable {dmarm dmarm₁ dmarm₂ : DmarManager} {held : Nat → Prop} {pages huge : Nat → Stage2Entry}
  {gpa frame p length : Nat}

section Alloc

theorem alloc_none (hwf : dmarm.Wf held pages huge) (halloc : dmarm.alloc length = (none, dmarm₁))
    (gpa : Nat) : dmarm₁.Wf held pages huge ∧ Grows gpa held dmarm dmarm₁ ∧
      dmarm₁.refused = true ∧ dmarm₁.pde = dmarm.pde ∧ dmarm₁.pte = dmarm.pte := by
  unfold alloc at halloc
  split at halloc
  · rename_i allocator hanswer
    obtain rfl := (Prod.mk.inj halloc).2
    refine ⟨{ hwf with fresh := hwf.fresh.of_allocTable_none hanswer }, ?_, rfl, rfl, rfl⟩
    exact { Grows.refl gpa held dmarm with refused := fun hnot => nomatch hnot }
  · cases halloc

/-- What is known of a page that has just been allocated for a table. -/
structure Blank (dmarm : DmarManager) (frame : Nat) : Prop where
  inRange : frame < 2 ^ 40
  sized : dmarm.size frame = page4kbSize
  zeroed : ∀ i < 512, dmarm.memory frame i = {}

theorem Blank.grows {held : Nat → Prop} (hblank : dmarm.Blank frame)
    (hgrows : Grows gpa held dmarm dmarm₁) (hheld : held frame) : dmarm₁.Blank frame where
  inRange := hblank.inRange
  sized := by rw [(hgrows.aside frame hheld).2, hblank.sized]
  zeroed i hi := by rw [(hgrows.aside frame hheld).1, hblank.zeroed i hi]

/-- A manager whose next table has its page. -/
structure Allocated (gpa : Nat) (held : Nat → Prop) (pages huge : Nat → Stage2Entry)
    (dmarm : DmarManager) (frame : Nat) (dmarm₁ : DmarManager) : Prop where
  wf : dmarm₁.Wf (fun f => held f ∨ f = frame) pages huge
  grows : Grows gpa held dmarm dmarm₁
  blank : dmarm₁.Blank frame
  free : ¬held frame
  described : dmarm₁.described = dmarm.described
  pde : dmarm₁.pde = dmarm.pde
  pte : dmarm₁.pte = dmarm.pte

theorem alloc_some (hwf : dmarm.Wf held pages huge)
    (halloc : dmarm.alloc page4kbSize = (some frame, dmarm₁)) (gpa : Nat) :
    Allocated gpa held pages huge dmarm frame dmarm₁ := by
  unfold alloc at halloc
  split at halloc
  · cases halloc
  · rename_i frame' allocator hanswer
    obtain ⟨hframe, rfl⟩ := Prod.mk.inj halloc
    obtain rfl := Option.some.inj hframe
    have hused : ∀ f, (dmarm.Used f ∨ held f ∨ f = frame') → (dmarm.Used f ∨ held f) ∨ f = frame' :=
      fun f => or_assoc.mpr
    obtain ⟨hunused, hlt, hfresh⟩ := hwf.fresh.of_allocTable hanswer hused
    rw [not_or] at hunused
    have hne : ∀ f, dmarm.Used f ∨ held f → f ≠ frame' := by
      rintro f hf rfl
      exact hf.elim hunused.1 hunused.2
    refine ⟨?_, ?_, ?_, hunused.2, rfl, rfl, rfl⟩
    · exact
        { hwf with
          holds := hwf.holds.fill (fun level r h => hunused.1 ⟨level, r, h⟩) _
          sized := fun level r f hf => by
            rw [← hwf.sized level r f hf]
            exact Function.update_of_ne (hne f (Or.inl ⟨level, r, hf⟩)) _ _
          fresh := hfresh
          aside := fun f hf => hf.elim (hwf.aside f) fun heq => heq ▸ hunused.1 }
    · refine { Grows.refl gpa held dmarm with aside := fun f hf => ⟨?_, ?_⟩ }
      · funext i
        dsimp only
        exact Radix.Frames.fill_of_ne (hne f (Or.inr hf))
      · exact Function.update_of_ne (hne f (Or.inr hf)) _ _
    · refine ⟨hlt, Function.update_self _ _ _, fun i hi => ?_⟩
      dsimp only
      rw [Radix.Frames.fill_self, if_pos (by rw [page4kbSize]; omega)]

end Alloc

section Store

theorem store_eq {index : Nat} {f : Stage2Entry → Stage2Entry} (hsize : dmarm.size frame = page4kbSize)
    (hindex : index < 512) : dmarm.store frame index f =
      .ok { dmarm with memory := dmarm.memory.set frame index (f (dmarm.memory frame index)) } := by
  rw [store, if_pos (by rw [hsize, page4kbSize]; omega)]

theorem storeTable_eq {f : Nat → Stage2Entry → Stage2Entry} (hsize : dmarm.size frame = page4kbSize) :
    dmarm.storeTable frame f =
      .ok { dmarm with memory := dmarm.memory.fill frame fun i => f i (dmarm.memory frame i) } := by
  rw [storeTable, if_pos (by rw [hsize]; decide)]

end Store

/-! ### A table is listed, filled and linked -/

def pushPdpte (dmarm : DmarManager) (gpa frame : Nat) : DmarManager :=
  { dmarm with
    pdpte := dmarm.pdpte ++ [{ phys := page4kbMult frame, gpaStart := page512gbBase gpa }] }

def pushPde (dmarm : DmarManager) (gpa frame : Nat) : DmarManager :=
  { dmarm with
    pde := dmarm.pde ++ [{ phys := page4kbMult frame, gpaStart := page1gbBase gpa }] }

def pushPte (dmarm : DmarManager) (gpa frame : Nat) : DmarManager :=
  { dmarm with
    pte := dmarm.pte ++ [{ phys := page4kbMult frame, gpaStart := page2mbBase gpa }] }

def fillLink (dmarm : DmarManager) (frame : Nat) (table : Nat → Stage2Entry) (upper index : Nat) :
    DmarManager :=
  { dmarm with memory := (dmarm.memory.fill frame table).set upper index (tableEntry frame) }

/-- The end of a creator: its table is filled, and the entry above is pointed to it. -/
theorem storeTable_bind {f : Nat → Stage2Entry → Stage2Entry} {g : Stage2Entry → Stage2Entry}
    {result : DmarManager → Outcome Created} {i : Nat} (upper : DmarManager → Outcome Nat)
    (hframe : dmarm.size frame = page4kbSize) (hp : dmarm.size p = page4kbSize) (hne : p ≠ frame)
    (hi : i < 512) (hupper : ∀ memory, upper { dmarm with memory } = .ok p)
    (hlink : g (dmarm.memory p i) = tableEntry frame) :
    (do
      let dmarm ← dmarm.storeTable frame f
      let upper ← upper dmarm
      let dmarm ← dmarm.store upper i g
      result dmarm) =
      result (dmarm.fillLink frame (fun j => f j (dmarm.memory frame j)) p i) := by
  have hp' : ∀ memory, DmarManager.size { dmarm with memory } p = page4kbSize := fun _ => hp
  rw [storeTable_eq hframe, Outcome.ok_bind, hupper, Outcome.ok_bind, store_eq (hp' _) hi,
    Outcome.ok_bind]
  dsimp only
  rw [Radix.Frames.fill_of_ne hne, hlink]
  rfl

@[simp]
theorem described_fillLink {table : Nat → Stage2Entry} {upper index : Nat} :
    (dmarm.fillLink frame table upper index).described = dmarm.described := rfl

theorem described_pushPdpte (hwf : dmarm.Wf held pages huge) (hagaw : dmarm.usingAgaw = .bit48)
    (hnone : dmarm.nvcVtIommuSearchPdpteDescriptor gpa = none) :
    (dmarm.pushPdpte gpa frame).described =
      dmarm.described.extend 2 (Radix.region 3 gpa) frame := by
  have hcovering : Radix.covering NptDescriptor.gpaStart page512gbSize gpa dmarm.pdpte = none := by
    simpa only [nvcVtIommuSearchPdpteDescriptor, hagaw] using hnone
  funext level r
  rcases level with _ | _ | _ | level
  · simp [described, Radix.Layout.extend, pushPdpte]
  · simp [described, Radix.Layout.extend, pushPdpte]
  · have happend := listedFrame_append
      (d := { phys := page4kbMult frame, gpaStart := page512gbBase gpa }) (by decide)
      hwf.pdpteListed hcovering rfl r
    rw [NptManager.frame_mk] at happend
    simp only [described, Radix.Layout.extend, pushPdpte, hagaw, Agaw.top, happend, true_and,
      ↓reduceIte, show ¬0 + 2 = 3 by decide]
    rfl
  · simp [described, Radix.Layout.extend, pushPdpte]

theorem described_pushPde (hwf : dmarm.Wf held pages huge)
    (hnone : dmarm.nvcVtIommuSearchPdeDescriptor gpa = none) :
    (dmarm.pushPde gpa frame).described = dmarm.described.extend 1 (Radix.region 2 gpa) frame := by
  funext level r
  match level with
  | 0 => simp [described, Radix.Layout.extend, pushPde]
  | level + 2 =>
      rw [Radix.Layout.extend_of_ne (by omega)]
      rfl
  | 1 =>
      have happend := listedFrame_append
        (d := { phys := page4kbMult frame, gpaStart := page1gbBase gpa }) (by decide)
        hwf.pdeListed hnone rfl r
      rw [NptManager.frame_mk] at happend
      simp only [described, Radix.Layout.extend, pushPde, happend, true_and]
      rfl

theorem described_pushPte (hwf : dmarm.Wf held pages huge)
    (hnone : dmarm.nvcVtIommuSearchPteDescriptor gpa = none) :
    (dmarm.pushPte gpa frame).described = dmarm.described.extend 0 (Radix.region 1 gpa) frame := by
  funext level r
  match level with
  | level + 1 =>
      rw [Radix.Layout.extend_of_ne (by omega)]
      cases level with
      | zero => rfl
      | succ level => rfl
  | 0 =>
      have happend := listedFrame_append
        (d := { phys := page4kbMult frame, gpaStart := page2mbBase gpa }) (by decide)
        hwf.pteListed hnone rfl r
      rw [NptManager.frame_mk] at happend
      simp only [described, Radix.Layout.extend, pushPte, happend, true_and]
      rfl

section Add

variable {level : Nat} {table : Nat → Stage2Entry} {as bs cs : List NptDescriptor}

theorem used_extend {dmarm' : DmarManager} {r f : Nat}
    (hdescribed : dmarm'.described = dmarm.described.extend level r frame) (hused : dmarm'.Used f) :
    dmarm.Used f ∨ f = frame := by
  obtain ⟨l, r', hf⟩ := hused
  rw [hdescribed] at hf
  unfold Radix.Layout.extend at hf
  split at hf
  · exact Or.inr (Option.some.inj hf).symm
  · exact Or.inl ⟨l, r', hf⟩

theorem Wf.add (hwf : dmarm.Wf (fun f => held f ∨ f = frame) pages huge) (hblank : dmarm.Blank frame)
    (hnot : ¬held frame) (hlevel : level < dmarm.usingAgaw.top)
    (hnone : dmarm.described level (Radix.region (level + 1) gpa) = none)
    (hupper : dmarm.described (level + 1) (Radix.region (level + 2) gpa) = some p)
    (htable : ∀ i < 512, table i = own pages huge level (512 * Radix.region (level + 1) gpa + i))
    (has : Listed page512gbSize as) (hbs : Listed page1gbSize bs) (hcs : Listed page2mbSize cs)
    (hdescribed : DmarManager.described { dmarm with pdpte := as, pde := bs, pte := cs } =
      dmarm.described.extend level (Radix.region (level + 1) gpa) frame) :
    (fillLink { dmarm with pdpte := as, pde := bs, pte := cs } frame table p
      (Radix.index (level + 1) gpa)).Wf held pages huge where
  shallow := hwf.shallow
  pdpteListed := has
  pdeListed := hbs
  pteListed := hcs
  holds := by
    have hfresh : ∀ l r, dmarm.described l r ≠ some frame := fun l r h =>
      hwf.aside frame (Or.inr rfl) ⟨l, r, h⟩
    rw [described_fillLink, hdescribed]
    exact hwf.holds.add hlevel hnone hfresh (by rwa [← Radix.region_succ]) htable
  inRange l r f hf := by
    rw [described_fillLink, hdescribed] at hf
    unfold Radix.Layout.extend at hf
    split at hf
    · exact Option.some.inj hf ▸ hblank.inRange
    · exact hwf.inRange l r f hf
  sized l r f hf := by
    rw [described_fillLink, hdescribed] at hf
    unfold Radix.Layout.extend at hf
    split at hf
    · exact Option.some.inj hf ▸ hblank.sized
    · exact hwf.sized l r f hf
  fresh := by
    refine hwf.fresh.mono fun f hf => ?_
    rcases hf with hused | hheld
    · exact (used_extend hdescribed hused).elim Or.inl fun heq => Or.inr (Or.inr heq)
    · exact Or.inr (Or.inl hheld)
  aside f hheld hused := by
    rcases used_extend hdescribed hused with hold | rfl
    · exact hwf.aside f (Or.inl hheld) hold
    · exact hnot hheld
  hugeKind := hwf.hugeKind
  wide := hwf.wide
  untouched page hpage := by
    refine hwf.untouched page ?_
    rw [described_fillLink, hdescribed] at hpage
    unfold Radix.Layout.extend at hpage
    split at hpage
    · cases hpage
    · exact hpage

theorem Grows.add (table : Nat → Stage2Entry) (i : Nat)
    (hwf : dmarm.Wf (fun f => held f ∨ f = frame) pages huge) (hnot : ¬held frame)
    (hnone : dmarm.described level (Radix.region (level + 1) gpa) = none)
    (hupper : dmarm.described (level + 1) (Radix.region (level + 2) gpa) = some p)
    (hdescribed : DmarManager.described { dmarm with pdpte := as, pde := bs, pte := cs } =
      dmarm.described.extend level (Radix.region (level + 1) gpa) frame) :
    Grows gpa held dmarm
      (fillLink { dmarm with pdpte := as, pde := bs, pte := cs } frame table p i) where
  root := rfl
  usingAgaw := rfl
  largePage := rfl
  hugePage := rfl
  kept l r f hf := by
    rw [described_fillLink, hdescribed]
    exact Radix.Layout.extend_of_some hnone hf
  only l r hne := by
    rw [described_fillLink, hdescribed, Radix.Layout.extend_of_ne]
    rintro ⟨rfl, rfl⟩
    exact hne rfl
  aside f hheld := by
    have hframe : f ≠ frame := by
      rintro rfl
      exact hnot hheld
    have hp : f ≠ p := by
      rintro rfl
      exact hwf.aside f (Or.inl hheld) ⟨_, _, hupper⟩
    refine ⟨funext fun j => ?_, rfl⟩
    refine (Radix.Frames.set_of_frame_ne hp).trans ?_
    exact Radix.Frames.fill_of_ne hframe
  refused := id

end Add

section Rewrite

/-- The loop over a top table of 512 GiB. -/
def rewriteRoot (dmarm : DmarManager) (gpa : Nat) : DmarManager :=
  { dmarm with
    memory := dmarm.memory.fill dmarm.root fun i =>
      (dmarm.memory dmarm.root i).toHugePage (page1gbCount gpa + i) }

theorem described_root (hagaw : dmarm.usingAgaw = .bit39) : dmarm.described 2 0 = some dmarm.root := by
  simp [described, hagaw, Agaw.top]

/-- Without large or single pages below, a top table of 512 GiB can be written again. -/
theorem Wf.rewriteRoot (hwf : dmarm.Wf held pages huge) (hagaw : dmarm.usingAgaw = .bit39)
    (hpde : dmarm.pde = []) (gpa : Nat) :
    (dmarm.rewriteRoot gpa).Wf held pages (hugeFrom (page1gbCount gpa)) := by
  have hbelow : ∀ r, dmarm.described 1 r = none := by
    intro r
    simp [described, listedFrame, Radix.covering, hpde]
  have hroot := described_root hagaw
  refine
    { hwf with
      holds := ?_
      hugeKind := fun r => Or.inr ⟨_, rfl⟩
      wide := fun h => by cases hagaw.symm.trans h }
  refine hwf.holds.refill hroot (fun i _ => hbelow _) (fun i hi => ?_) fun level r i hi hsome hne => ?_
  · have hentry := hwf.holds.entries 2 0 _ i hroot hi
    rw [Radix.content_succ_of_none (hbelow _)] at hentry
    have hkind := hwf.hugeKind (512 * 0 + i)
    rw [hentry]
    exact (toHugePage_of_kind hkind _).trans (by simp [own, hugeFrom])
  · rcases level with _ | _ | _ | level
    · rfl
    · rfl
    · simp only [described, hagaw, Agaw.top] at hsome
      exact absurd ⟨rfl, by_contra fun hr => hsome (by simp [hr])⟩ hne
    · rfl

theorem Grows.rewriteRoot (hwf : dmarm.Wf held pages huge) (hagaw : dmarm.usingAgaw = .bit39)
    (gpa : Nat) : Grows gpa held dmarm (dmarm.rewriteRoot gpa) where
  root := rfl
  usingAgaw := rfl
  largePage := rfl
  hugePage := rfl
  kept _ _ _ hf := hf
  only _ _ _ := rfl
  aside f hheld := by
    have hne : f ≠ dmarm.root := by
      rintro rfl
      exact hwf.aside _ hheld ⟨2, 0, described_root hagaw⟩
    refine ⟨funext fun i => ?_, rfl⟩
    unfold DmarManager.rewriteRoot
    dsimp only
    exact Radix.Frames.fill_of_ne hne
  refused := id

end Rewrite

/-! ### The creators -/

/-- What a creator leaves. -/
structure Made (gpa : Nat) (held : Nat → Prop) (pages huge : Nat → Stage2Entry)
    (dmarm : DmarManager) (st : NoirStatus) (dmarm' : DmarManager) : Prop where
  wf : dmarm'.Wf held pages huge
  grows : Grows gpa held dmarm dmarm'
  success : dmarm'.refused = false → st = .success

/-- The huge pages of a top table after a table of large pages was asked for. -/
def hugeAfter (dmarm : DmarManager) (gpa : Nat) (huge : Nat → Stage2Entry) : Nat → Stage2Entry :=
  if dmarm.usingAgaw = .bit39 then hugeFrom (page1gbCount gpa) else huge

theorem create1gb_narrow (hwf : dmarm.Wf held pages huge) (hagaw : dmarm.usingAgaw = .bit39) :
    dmarm.nvcVtIommuCreate1gbPageMap gpa true = .ok (.success, none, dmarm.rewriteRoot gpa) := by
  rw [nvcVtIommuCreate1gbPageMap, if_pos hagaw, if_pos rfl,
    storeTable_eq (hwf.sized 2 0 _ (described_root hagaw))]
  rfl

theorem create1gb_wide_of_some {cur : NptDescriptor} (hagaw : dmarm.usingAgaw = .bit48)
    (hfound : dmarm.nvcVtIommuSearchPdpteDescriptor gpa = some cur) :
    dmarm.nvcVtIommuCreate1gbPageMap gpa true = .ok (.success, some cur, dmarm) := by
  rw [nvcVtIommuCreate1gbPageMap, if_neg (by simp [hagaw]), hfound]

theorem create1gb_wide_of_refused (hagaw : dmarm.usingAgaw = .bit48)
    (hnone : dmarm.nvcVtIommuSearchPdpteDescriptor gpa = none)
    (halloc : dmarm.alloc page4kbSize = (none, dmarm₁)) :
    dmarm.nvcVtIommuCreate1gbPageMap gpa true = .ok (.insufficientResources, none, dmarm₁) := by
  rw [nvcVtIommuCreate1gbPageMap, if_neg (by simp [hagaw]), hnone, halloc]

theorem first_huge (gpa : Nat) :
    page1gbCount (page512gbBase gpa) = 512 * Radix.region 3 gpa := by
  unfold page1gbCount page512gbBase Radix.region
  omega

theorem first_large (gpa : Nat) : page2mbCount (page1gbBase gpa) = 512 * Radix.region 2 gpa := by
  unfold page2mbCount page1gbBase Radix.region
  omega

theorem first_page (gpa : Nat) : page4kbCount (page2mbBase gpa) = 512 * Radix.region 1 gpa := by
  unfold page4kbCount page2mbBase Radix.region
  omega

theorem pml4eOffset_eq (gpa : Nat) : pml4eOffset gpa = Radix.index 3 gpa := rfl

theorem pdpteOffset_eq (gpa : Nat) : pdpteOffset gpa = Radix.index 2 gpa := rfl

theorem pdeOffset_eq (gpa : Nat) : pdeOffset gpa = Radix.index 1 gpa := rfl

theorem pteOffset_eq (gpa : Nat) : pteOffset gpa = Radix.index 0 gpa := rfl

theorem create1gb_wide_of_new (hagaw : dmarm.usingAgaw = .bit48)
    (hnone : dmarm.nvcVtIommuSearchPdpteDescriptor gpa = none)
    (halloc : dmarm.alloc page4kbSize = (some frame, dmarm₁)) (hagaw₁ : dmarm₁.usingAgaw = .bit48)
    (hframe : dmarm₁.size frame = page4kbSize) (hroot : dmarm₁.size dmarm₁.root = page4kbSize)
    (hne : dmarm₁.root ≠ frame) (hempty : dmarm₁.memory dmarm₁.root (Radix.index 3 gpa) = {}) :
    dmarm.nvcVtIommuCreate1gbPageMap gpa true =
      .ok (.success, some { phys := page4kbMult frame, gpaStart := page512gbBase gpa },
        (dmarm₁.pushPdpte gpa frame).fillLink frame
          (fun i => (dmarm₁.memory frame i).toHugePage (page1gbCount (page512gbBase gpa) + i))
          dmarm₁.root (Radix.index 3 gpa)) := by
  rw [nvcVtIommuCreate1gbPageMap, if_neg (by simp [hagaw]), hnone, halloc, pml4eOffset_eq]
  simp only [nvcVtIommuCreate512gbPageMap, if_pos hagaw₁, Outcome.ok_bind, if_true]
  refine storeTable_bind (fun dmarm => dmarm.upperTable .bit48 none) hframe hroot hne
    (Nat.mod_lt _ (by decide)) (fun memory => if_pos hagaw₁) ?_
  refine (congrArg (fun entry => entry.toUpperTable (page4kbMult frame)) hempty).trans ?_
  rfl

/-- The entry for an address in a table of the layout. -/
theorem Wf.entry {level : Nat} (hwf : dmarm.Wf held pages huge)
    (hframe : dmarm.described level (Radix.region (level + 1) gpa) = some frame) :
    dmarm.memory frame (Radix.index level gpa) =
      Radix.content dmarm.described tableEntry (own pages huge) level (Radix.region level gpa) := by
  rw [hwf.holds.entries _ _ _ _ hframe (Radix.index_lt _ _), ← Radix.region_eq]

theorem create1gb_wide (hwf : dmarm.Wf held pages huge) (hagaw : dmarm.usingAgaw = .bit48)
    (hgpa : gpa < dmarm.limit) :
    ∃ st d dmarm', dmarm.nvcVtIommuCreate1gbPageMap gpa true = .ok (st, d, dmarm') ∧
      Made gpa held pages huge dmarm st dmarm' ∧
      (dmarm'.pde = dmarm.pde ∧ dmarm'.pte = dmarm.pte) ∧
      (st = .success → ∃ cur, d = some cur ∧
        dmarm'.described 2 (Radix.region 3 gpa) = some cur.frame) := by
  have hlookup := described_two hwf hagaw gpa
  cases hfound : dmarm.nvcVtIommuSearchPdpteDescriptor gpa with
  | some cur =>
      rw [hfound] at hlookup
      exact ⟨_, _, _, create1gb_wide_of_some hagaw hfound, ⟨hwf, Grows.refl _ _ _, fun _ => rfl⟩,
        ⟨rfl, rfl⟩, fun _ => ⟨cur, rfl, hlookup⟩⟩
  | none =>
      rw [hfound] at hlookup
      cases halloc : dmarm.alloc page4kbSize with
      | mk answer dmarm₁ =>
      cases answer with
      | none =>
          obtain ⟨hwf₁, hgrows, hrefused, hpde⟩ := alloc_none hwf halloc gpa
          refine ⟨_, _, _, create1gb_wide_of_refused hagaw hfound halloc, ⟨hwf₁, hgrows, fun h => ?_⟩,
            hpde, fun h => nomatch h⟩
          rw [hrefused] at h
          cases h
      | some frame =>
          have h := alloc_some hwf halloc gpa
          have hagaw₁ : dmarm₁.usingAgaw = .bit48 := h.grows.usingAgaw.trans hagaw
          have hnone : dmarm₁.described 2 (Radix.region 3 gpa) = none := by
            rw [h.described, hlookup]
            rfl
          have hnone₁ : dmarm₁.nvcVtIommuSearchPdpteDescriptor gpa = none := by
            rwa [described_two h.wf hagaw₁, Option.map_eq_none_iff] at hnone
          have hroot : dmarm₁.described 3 (Radix.region 4 gpa) = some dmarm₁.root := by
            have htop := described_top h.wf (h.grows.limit ▸ hgpa)
            rwa [hagaw₁] at htop
          have hempty : dmarm₁.memory dmarm₁.root (Radix.index 3 gpa) = {} := by
            refine (h.wf.entry hroot).trans ?_
            rw [Radix.content_succ_of_none hnone]
            rfl
          have hne : dmarm₁.root ≠ frame := fun heq =>
            h.wf.aside frame (Or.inr rfl) ⟨_, _, heq ▸ hroot⟩
          have hdescribed := @described_pushPdpte dmarm₁ _ _ _ gpa frame h.wf hagaw₁ hnone₁
          refine ⟨_, _, _, create1gb_wide_of_new hagaw hfound halloc hagaw₁ h.blank.sized
            (h.wf.sized _ _ _ hroot) hne hempty, ⟨?_, ?_, fun _ => rfl⟩, ⟨h.pde, h.pte⟩,
            fun _ => ⟨_, rfl, ?_⟩⟩
          · refine h.wf.add h.blank h.free (by rw [hagaw₁]; decide) hnone hroot (fun i hi => ?_)
              ?_ h.wf.pdeListed h.wf.pteListed hdescribed
            · rw [h.blank.zeroed i hi, first_huge]
              exact (h.wf.wide hagaw₁ ▸ hugeFrom_zero _).symm
            · refine h.wf.pdpteListed.append (by decide) ?_ rfl (by rw [NptManager.frame_mk])
              simpa only [nvcVtIommuSearchPdpteDescriptor, hagaw₁] using hnone₁
          · exact h.grows.trans (Grows.add _ _ h.wf h.free hnone hroot hdescribed)
          · rw [NptManager.frame_mk, described_fillLink, hdescribed, Radix.Layout.extend_self]

theorem create1gb_made (hwf : dmarm.Wf held pages huge) (hgpa : gpa < dmarm.limit)
    (hcalm : dmarm.usingAgaw = .bit39 → dmarm.pde = []) :
    ∃ st d dmarm', dmarm.nvcVtIommuCreate1gbPageMap gpa true = .ok (st, d, dmarm') ∧
      Made gpa held pages (hugeAfter dmarm gpa huge) dmarm st dmarm' ∧
      (dmarm'.pde = dmarm.pde ∧ dmarm'.pte = dmarm.pte) ∧
      (dmarm.usingAgaw = .bit39 → st = .success) ∧
      (st = .success → ∃ upper, dmarm'.upperTable .bit39 d = .ok upper ∧
        dmarm'.described 2 (Radix.region 3 gpa) = some upper) := by
  cases hagaw : dmarm.usingAgaw with
  | bit39 =>
      have hpde := hcalm hagaw
      have hwf' := hwf.rewriteRoot hagaw hpde gpa
      have htop := described_top hwf' (show gpa < (dmarm.rewriteRoot gpa).limit from hgpa)
      rw [show (dmarm.rewriteRoot gpa).usingAgaw = .bit39 from hagaw] at htop
      refine ⟨_, _, _, create1gb_narrow hwf hagaw, ⟨?_, Grows.rewriteRoot hwf hagaw gpa, fun _ => rfl⟩,
        ⟨rfl, rfl⟩, fun _ => rfl, fun _ => ⟨dmarm.root, if_pos hagaw, htop⟩⟩
      rwa [hugeAfter, if_pos hagaw]
  | bit48 =>
      obtain ⟨st, d, dmarm', hrun, hmade, hpde, hcur⟩ := create1gb_wide hwf hagaw hgpa
      refine ⟨st, d, dmarm', hrun, ?_, hpde, fun h => (nomatch h), fun hst => ?_⟩
      · rwa [hugeAfter, hagaw, if_neg (by decide)]
      · obtain ⟨cur, rfl, hdescribed⟩ := hcur hst
        refine ⟨cur.frame, ?_, hdescribed⟩
        rw [upperTable, hmade.grows.usingAgaw, hagaw, if_neg (by decide)]
        rfl
  | bit57 => exact absurd hagaw hwf.shallow

theorem create2mb_of_some {cur : NptDescriptor}
    (hfound : dmarm.nvcVtIommuSearchPdeDescriptor gpa = some cur) :
    dmarm.nvcVtIommuCreate2mbPageMap gpa true = .ok (.success, some cur, dmarm) := by
  rw [nvcVtIommuCreate2mbPageMap, hfound]

theorem create2mb_of_refused (hnone : dmarm.nvcVtIommuSearchPdeDescriptor gpa = none)
    (halloc : dmarm.alloc page4kbSize = (none, dmarm₁)) :
    dmarm.nvcVtIommuCreate2mbPageMap gpa true = .ok (.insufficientResources, none, dmarm₁) := by
  rw [nvcVtIommuCreate2mbPageMap, hnone, halloc]

theorem create2mb_of_failed {st : NoirStatus} {d : Option NptDescriptor}
    (hnone : dmarm.nvcVtIommuSearchPdeDescriptor gpa = none)
    (halloc : dmarm.alloc page4kbSize = (some frame, dmarm₁))
    (hrun : dmarm₁.nvcVtIommuCreate1gbPageMap gpa true = .ok (st, d, dmarm₂))
    (hst : st ≠ .success) :
    dmarm.nvcVtIommuCreate2mbPageMap gpa true = .ok (st, none, dmarm₂) := by
  rw [nvcVtIommuCreate2mbPageMap, hnone, halloc]
  dsimp only
  rw [hrun, Outcome.ok_bind, if_neg hst]

theorem create2mb_of_new {d : Option NptDescriptor}
    (hnone : dmarm.nvcVtIommuSearchPdeDescriptor gpa = none)
    (halloc : dmarm.alloc page4kbSize = (some frame, dmarm₁))
    (hrun : dmarm₁.nvcVtIommuCreate1gbPageMap gpa true = .ok (.success, d, dmarm₂))
    (hupper : dmarm₂.upperTable .bit39 d = .ok p) (hframe : dmarm₂.size frame = page4kbSize)
    (hp : dmarm₂.size p = page4kbSize) (hne : p ≠ frame) :
    dmarm.nvcVtIommuCreate2mbPageMap gpa true =
      .ok (.success, some { phys := page4kbMult frame, gpaStart := page1gbBase gpa },
        (dmarm₂.pushPde gpa frame).fillLink frame
          (fun i => (dmarm₂.memory frame i).toLargePage (page2mbCount (page1gbBase gpa) + i))
          p (Radix.index 2 gpa)) := by
  rw [nvcVtIommuCreate2mbPageMap, hnone, halloc, pdpteOffset_eq]
  dsimp only
  rw [hrun, Outcome.ok_bind]
  simp only [if_true]
  exact storeTable_bind (fun dmarm => dmarm.upperTable .bit39 d) hframe hp hne
    (Radix.index_lt _ _) (fun _ => hupper) rfl

/-- What a creator does to the huge pages of the manager. -/
def Rewritten (gpa : Nat) (dmarm dmarm' : DmarManager) (huge huge' : Nat → Stage2Entry) : Prop :=
  huge' = huge ∨ (dmarm.usingAgaw = .bit39 ∧ dmarm.pde = [] ∧
    dmarm'.described 1 (Radix.region 2 gpa) ≠ none ∧ huge' = hugeFrom (page1gbCount gpa))

/-- The top table of 512 GiB is not written again once there are tables below it. -/
def Calm (dmarm : DmarManager) (gpa : Nat) : Prop :=
  dmarm.usingAgaw = .bit39 → dmarm.nvcVtIommuSearchPdeDescriptor gpa = none → dmarm.pde = []

theorem create2mb_made (hwf : dmarm.Wf held pages huge) (hgpa : gpa < dmarm.limit)
    (hcalm : dmarm.Calm gpa) :
    ∃ st d dmarm' huge', dmarm.nvcVtIommuCreate2mbPageMap gpa true = .ok (st, d, dmarm') ∧
      Made gpa held pages huge' dmarm st dmarm' ∧ Rewritten gpa dmarm dmarm' huge huge' ∧
      dmarm'.pte = dmarm.pte ∧
      (st = .success → ∃ cur, d = some cur ∧
        dmarm'.described 1 (Radix.region 2 gpa) = some cur.frame) := by
  have hlookup := described_one hwf gpa
  cases hfound : dmarm.nvcVtIommuSearchPdeDescriptor gpa with
  | some cur =>
      rw [hfound] at hlookup
      exact ⟨_, _, _, huge, create2mb_of_some hfound, ⟨hwf, Grows.refl _ _ _, fun _ => rfl⟩,
        Or.inl rfl, rfl, fun _ => ⟨cur, rfl, hlookup⟩⟩
  | none =>
      rw [hfound] at hlookup
      cases halloc : dmarm.alloc page4kbSize with
      | mk answer dmarm₁ =>
      cases answer with
      | none =>
          obtain ⟨hwf₁, hgrows, hrefused, -, hpte⟩ := alloc_none hwf halloc gpa
          refine ⟨_, _, _, huge, create2mb_of_refused hfound halloc, ⟨hwf₁, hgrows, fun h => ?_⟩,
            Or.inl rfl, hpte, fun h => nomatch h⟩
          rw [hrefused] at h
          cases h
      | some frame =>
          have h := alloc_some hwf halloc gpa
          have hpde : dmarm₁.usingAgaw = .bit39 → dmarm₁.pde = [] := fun hagaw => by
            rw [h.pde]
            exact hcalm (h.grows.usingAgaw ▸ hagaw) hfound
          obtain ⟨st, d, dmarm₂, hrun, hmade, ⟨hpde₂, hpte₂⟩, hnarrow, hupper⟩ :=
            create1gb_made h.wf (h.grows.limit ▸ hgpa) hpde
          have hgrows := h.grows.trans (hmade.grows.mono fun _ hheld => Or.inl hheld)
          have hagaw : dmarm₁.usingAgaw = dmarm.usingAgaw := h.grows.usingAgaw
          by_cases hst : st = .success
          · obtain ⟨p, hp, hdescribed₂⟩ := hupper hst
            subst hst
            have hnone : dmarm₂.nvcVtIommuSearchPdeDescriptor gpa = none := by
              rw [nvcVtIommuSearchPdeDescriptor, hpde₂, h.pde]
              exact hfound
            have hundescribed : dmarm₂.described 1 (Radix.region 2 gpa) = none := by
              rw [described_one hmade.wf, hnone]
              rfl
            have hblank := h.blank.grows hmade.grows (Or.inr rfl)
            have hne : p ≠ frame := fun heq =>
              hmade.wf.aside frame (Or.inr rfl) ⟨_, _, heq ▸ hdescribed₂⟩
            have hpush := @described_pushPde dmarm₂ _ _ _ gpa frame hmade.wf hnone
            refine ⟨_, _, _, hugeAfter dmarm₁ gpa huge, create2mb_of_new hfound halloc hrun hp
              hblank.sized (hmade.wf.sized _ _ _ hdescribed₂) hne, ⟨?_, ?_, fun _ => rfl⟩, ?_,
              hpte₂.trans h.pte, fun _ => ⟨_, rfl, ?_⟩⟩
            · refine hmade.wf.add hblank h.free (hmade.wf.lt_top (by decide)) hundescribed hdescribed₂
                (fun i hi => ?_) hmade.wf.pdpteListed ?_ hmade.wf.pteListed hpush
              · rw [hblank.zeroed i hi, first_large]
                rfl
              · exact hmade.wf.pdeListed.append (by decide) hnone rfl (by rw [NptManager.frame_mk])
            · exact hgrows.trans
                (Grows.add _ _ hmade.wf h.free hundescribed hdescribed₂ hpush)
            · by_cases hnarrow : dmarm.usingAgaw = .bit39
              · refine Or.inr ⟨hnarrow, hcalm hnarrow hfound, ?_, if_pos (hagaw.trans hnarrow)⟩
                rw [described_fillLink, hpush, Radix.Layout.extend_self]
                simp
              · exact Or.inl (if_neg (hagaw ▸ hnarrow))
            · rw [NptManager.frame_mk, described_fillLink, hpush, Radix.Layout.extend_self]
          · have hwide : ¬dmarm₁.usingAgaw = .bit39 := fun hagaw => hst (hnarrow hagaw)
            have hwf₂ := hmade.wf
            rw [hugeAfter, if_neg hwide] at hwf₂
            exact ⟨_, _, _, huge, create2mb_of_failed hfound halloc hrun hst,
              ⟨hwf₂.mono fun _ hheld => Or.inl hheld, hgrows, hmade.success⟩, Or.inl rfl,
              hpte₂.trans h.pte, fun h => absurd h hst⟩

theorem create4kb_of_some {cur : NptDescriptor}
    (hfound : dmarm.nvcVtIommuSearchPteDescriptor gpa = some cur) :
    dmarm.nvcVtIommuCreate4kbPageMap gpa = .ok (.success, some cur, dmarm) := by
  rw [nvcVtIommuCreate4kbPageMap, hfound]

theorem create4kb_of_refused (hnone : dmarm.nvcVtIommuSearchPteDescriptor gpa = none)
    (halloc : dmarm.alloc page4kbSize = (none, dmarm₁)) :
    dmarm.nvcVtIommuCreate4kbPageMap gpa = .ok (.insufficientResources, none, dmarm₁) := by
  rw [nvcVtIommuCreate4kbPageMap, hnone, halloc]

theorem create4kb_of_failed {st : NoirStatus} {d : Option NptDescriptor}
    (hnone : dmarm.nvcVtIommuSearchPteDescriptor gpa = none)
    (halloc : dmarm.alloc page4kbSize = (some frame, dmarm₁))
    (hrun : dmarm₁.nvcVtIommuCreate2mbPageMap gpa true = .ok (st, d, dmarm₂))
    (hst : st ≠ .success) :
    dmarm.nvcVtIommuCreate4kbPageMap gpa = .ok (st, none, dmarm₂) := by
  rw [nvcVtIommuCreate4kbPageMap, hnone, halloc]
  dsimp only
  rw [hrun, Outcome.ok_bind, if_neg hst]

theorem create4kb_of_new {cur : NptDescriptor}
    (hnone : dmarm.nvcVtIommuSearchPteDescriptor gpa = none)
    (halloc : dmarm.alloc page4kbSize = (some frame, dmarm₁))
    (hrun : dmarm₁.nvcVtIommuCreate2mbPageMap gpa true = .ok (.success, some cur, dmarm₂))
    (hframe : dmarm₂.size frame = page4kbSize) (hp : dmarm₂.size cur.frame = page4kbSize)
    (hne : cur.frame ≠ frame) :
    dmarm.nvcVtIommuCreate4kbPageMap gpa =
      .ok (.success, some { phys := page4kbMult frame, gpaStart := page2mbBase gpa },
        (dmarm₂.pushPte gpa frame).fillLink frame
          (fun i => (dmarm₂.memory frame i).toPage (page4kbCount (page2mbBase gpa) + i))
          cur.frame (Radix.index 1 gpa)) := by
  rw [nvcVtIommuCreate4kbPageMap, hnone, halloc, pdeOffset_eq]
  dsimp only
  rw [hrun, Outcome.ok_bind]
  simp only [if_true]
  exact storeTable_bind (fun _ => .ok cur.frame) hframe hp hne (Radix.index_lt _ _)
    (fun _ => rfl) rfl

theorem create4kb_made (hwf : dmarm.Wf held pages huge) (hgpa : gpa < dmarm.limit)
    (hcalm : dmarm.Calm gpa) :
    ∃ st d dmarm' huge', dmarm.nvcVtIommuCreate4kbPageMap gpa = .ok (st, d, dmarm') ∧
      Made gpa held pages huge' dmarm st dmarm' ∧ Rewritten gpa dmarm dmarm' huge huge' ∧
      (st = .success → ∃ cur, d = some cur ∧
        dmarm'.described 0 (Radix.region 1 gpa) = some cur.frame) := by
  have hlookup := described_zero hwf gpa
  cases hfound : dmarm.nvcVtIommuSearchPteDescriptor gpa with
  | some cur =>
      rw [hfound] at hlookup
      exact ⟨_, _, _, huge, create4kb_of_some hfound, ⟨hwf, Grows.refl _ _ _, fun _ => rfl⟩,
        Or.inl rfl, fun _ => ⟨cur, rfl, hlookup⟩⟩
  | none =>
      rw [hfound] at hlookup
      cases halloc : dmarm.alloc page4kbSize with
      | mk answer dmarm₁ =>
      cases answer with
      | none =>
          obtain ⟨hwf₁, hgrows, hrefused, -⟩ := alloc_none hwf halloc gpa
          refine ⟨_, _, _, huge, create4kb_of_refused hfound halloc, ⟨hwf₁, hgrows, fun h => ?_⟩,
            Or.inl rfl, fun h => nomatch h⟩
          rw [hrefused] at h
          cases h
      | some frame =>
          have h := alloc_some hwf halloc gpa
          have hcalm₁ : dmarm₁.Calm gpa := fun hagaw hnone => by
            rw [h.pde]
            refine hcalm (h.grows.usingAgaw ▸ hagaw) ?_
            rwa [nvcVtIommuSearchPdeDescriptor, h.pde] at hnone
          obtain ⟨st, d, dmarm₂, huge', hrun, hmade, hrewritten, hpte, hcur⟩ :=
            create2mb_made h.wf (h.grows.limit ▸ hgpa) hcalm₁
          have hgrows := h.grows.trans (hmade.grows.mono fun _ hheld => Or.inl hheld)
          rw [Rewritten, h.grows.usingAgaw, h.pde] at hrewritten
          by_cases hst : st = .success
          · obtain ⟨cur, rfl, hdescribed₂⟩ := hcur hst
            subst hst
            have hnone : dmarm₂.nvcVtIommuSearchPteDescriptor gpa = none := by
              rw [nvcVtIommuSearchPteDescriptor, hpte, h.pte]
              exact hfound
            have hundescribed : dmarm₂.described 0 (Radix.region 1 gpa) = none := by
              rw [described_zero hmade.wf, hnone]
              rfl
            have hblank := h.blank.grows hmade.grows (Or.inr rfl)
            have hne : cur.frame ≠ frame := fun heq =>
              hmade.wf.aside frame (Or.inr rfl) ⟨_, _, heq ▸ hdescribed₂⟩
            have hpush := @described_pushPte dmarm₂ _ _ _ gpa frame hmade.wf hnone
            have hadd := Grows.add (fun i => (dmarm₂.memory frame i).toPage
              (page4kbCount (page2mbBase gpa) + i)) (Radix.index 1 gpa) hmade.wf h.free
              hundescribed hdescribed₂ hpush
            refine ⟨_, _, _, huge', create4kb_of_new hfound halloc hrun hblank.sized
              (hmade.wf.sized _ _ _ hdescribed₂) hne, ⟨?_, hgrows.trans hadd, fun _ => rfl⟩, ?_,
              fun _ => ⟨_, rfl, ?_⟩⟩
            · refine hmade.wf.add hblank h.free (hmade.wf.lt_top (by decide)) hundescribed hdescribed₂
                (fun i hi => ?_) hmade.wf.pdpteListed hmade.wf.pdeListed ?_ hpush
              · rw [hblank.zeroed i hi, first_page]
                refine (hmade.wf.untouched _ ?_).symm
                rwa [show (512 * Radix.region 1 gpa + i) / 512 = Radix.region 1 gpa by omega]
              · exact hmade.wf.pteListed.append (by decide) hnone rfl (by rw [NptManager.frame_mk])
            · refine hrewritten.imp_right ?_
              rintro ⟨hagaw, hpde, hsome, rfl⟩
              obtain ⟨f, hf⟩ := Option.ne_none_iff_exists'.mp hsome
              refine ⟨hagaw, hpde, fun hnone => ?_, rfl⟩
              exact nomatch (hadd.kept _ _ _ hf).symm.trans hnone
            · rw [NptManager.frame_mk, described_fillLink, hpush, Radix.Layout.extend_self]
          · exact ⟨_, _, _, huge', create4kb_of_failed hfound halloc hrun hst,
              ⟨hmade.wf.mono fun _ hheld => Or.inl hheld, hgrows, hmade.success⟩, hrewritten,
              fun h => absurd h hst⟩

end NoirVisor.DmarManager
