import NoirVisor.Custom.Create

/-!
# Mapping a page

What `nvc_svmc_set_page_map` does to the map of a well-formed manager, whatever allocation fails. A
page entry is written when the call succeeds, but the table it is in need not be linked: then the
call changes nothing the guest can see.
-/

namespace NoirVisor.SvmCustomNptManager

/-- The tables that a call for `gpa` will find listed are linked. -/
def Walkable (nptm : SvmCustomNptManager) (gpa : Nat) : Prop :=
  nptm.reached 0 (page2mbCount gpa) = nptm.described 0 (page2mbCount gpa) ∧
    (nptm.described 0 (page2mbCount gpa) = none →
      nptm.reached 1 (page1gbCount gpa) = nptm.described 1 (page1gbCount gpa))

instance (nptm : SvmCustomNptManager) (gpa : Nat) : Decidable (nptm.Walkable gpa) := by
  unfold Walkable
  infer_instance

/-- What an entry alone makes of an address of its page. -/
def entryView (entry : NptEntry) (address : Nat) : Option NptView :=
  if entry.present then some (leafView 0 entry address) else none

/-- The views are kept, and the tables that are new are in these frames. -/
structure Keeps (nptm nptm' : SvmCustomNptManager) (frames : List Nat) : Prop where
  wf : nptm'.Wf
  view : ∀ address < 2 ^ 48, nptm'.view address = nptm.view address
  used : ∀ frame, nptm'.Used frame → nptm.Used frame ∨ frame ∈ frames
  complete : nptm.Complete 2 → nptm'.Complete 2

section Keeps

variable {nptm nptm' nptm'' : SvmCustomNptManager} {gpa level r frame : Nat} {linked : Bool}
  {frames frames' : List Nat}

theorem Keeps.refl (hwf : nptm.Wf) : Keeps nptm nptm [] :=
  ⟨hwf, fun _ _ => rfl, fun _ => Or.inl, id⟩

theorem Keeps.trans (h : Keeps nptm nptm' frames) (h' : Keeps nptm' nptm'' frames') :
    Keeps nptm nptm'' (frames ++ frames') where
  wf := h'.wf
  view address haddress := (h'.view address haddress).trans (h.view address haddress)
  used f hf := by
    rw [List.mem_append]
    rcases h'.used f hf with hold | hnew
    · rcases h.used f hold with holder | hnew
      · exact Or.inl holder
      · exact Or.inr (Or.inl hnew)
    · exact Or.inr (Or.inr hnew)
  complete hcomplete := h'.complete (h.complete hcomplete)

theorem Grows.used (h : Grows nptm nptm' level r frame linked) {f : Nat} (hf : nptm'.Used f) :
    nptm.Used f ∨ f ∈ [frame] := by
  obtain ⟨l, r', hf⟩ := hf
  rw [h.described, Radix.Layout.extend] at hf
  split at hf
  · exact Or.inr (List.mem_singleton.mpr (Option.some.inj hf).symm)
  · exact Or.inl ⟨l, r', hf⟩

theorem Grows.keeps (h : Grows nptm nptm' level r frame linked) (hlinked : level = 2 → linked = true) :
    Keeps nptm nptm' [frame] where
  wf := h.wf
  view := h.view
  used _ := h.used
  complete hcomplete := by
    by_cases hlevel : 2 = level
    · obtain rfl := hlinked hlevel.symm
      exact h.complete (by omega) hcomplete
    · exact h.complete_of_ne (by omega) hlevel hcomplete

/-- Writing a page entry shows in its own page, if its table is linked. -/
theorem view_setPage {e : NptEntry} (hwf : nptm.Wf)
    (htable : nptm.described 0 (page2mbCount gpa) = some frame) {address : Nat}
    (haddress : address < 2 ^ 48) :
    (nptm.setEntry frame (pteOffset gpa) e).view address =
      if page4kbCount address = page4kbCount gpa ∧
          nptm.reached 0 (page2mbCount gpa) = some frame then entryView e address
      else nptm.view address := by
  have hwf' : (nptm.setEntry frame (pteOffset gpa) e).Wf := hwf.setPage htable
  have hreached : (nptm.setEntry frame (pteOffset gpa) e).reached 0 (page2mbCount address) =
      nptm.reached 0 (page2mbCount address) := reached_setPage hwf htable 0 _
  rw [view_eq hwf haddress, view_eq hwf' haddress, hreached]
  by_cases hpage : page4kbCount address = page4kbCount gpa ∧
      nptm.reached 0 (page2mbCount gpa) = some frame
  · have hregion : page2mbCount address = page2mbCount gpa := by
      have := hpage.1
      unfold page4kbCount at this
      unfold page2mbCount
      omega
    have hindex : pteOffset address = pteOffset gpa := by
      unfold pteOffset
      rw [hpage.1]
    rw [if_pos hpage, hregion, hpage.2, Option.bind_some]
    simp [pageView, hindex, setEntry, entryView]
  · rw [if_neg hpage]
    cases hframe : nptm.reached 0 (page2mbCount address) with
    | none => rfl
    | some f =>
        rw [Option.bind_some, Option.bind_some]
        unfold pageView
        rw [show (nptm.setEntry frame (pteOffset gpa) e).memory f (pteOffset address) =
          nptm.memory f (pteOffset address) from Radix.Frames.set_of_ne fun heq => hpage ?_]
        obtain ⟨rfl, hindex⟩ := heq
        have hregion := (hwf.tree.disjoint _ _ _ _ _ (hwf.sound (by omega) hframe) htable).2
        refine ⟨?_, hregion ▸ hframe⟩
        simp only [pteOffset, pageEntryIndex64, page4kbCount, page2mbCount] at hindex hregion ⊢
        omega

end Keeps

/-- What a creator for the 2 MiB page of `gpa` comes to: it runs out of memory and leaves tables that
no walk finds a page in, or it adds its table below one that is described. -/
inductive Created (hostPat : HostPat) (nptm : SvmCustomNptManager) (gpa : Nat) :
    NoirStatus × SvmCustomNptManager → Prop
  | failed {frames : List Nat} {nptm' : SvmCustomNptManager} {allocator : Allocator} :
      Keeps nptm nptm' frames →
      allocator.Fresh (fun f => nptm.Used f ∨ f ∈ frames) → ¬nptm.allocator.Generous 3 →
      Created hostPat nptm gpa (.insufficientResources, nptm'.withAllocator allocator)
  | made {frames : List Nat} {base : SvmCustomNptManager} {frame parent : Nat}
      {allocator : Allocator} :
      Keeps nptm base frames →
      (∀ level ≤ 2, nptm.Complete level → base.Complete level) →
      base.findPte gpa = none →
      base.described 1 (page1gbCount gpa) = some parent →
      (base.reached 1 (page1gbCount gpa) = some parent ↔
        nptm.reached 1 (page1gbCount gpa) = nptm.described 1 (page1gbCount gpa)) →
      ¬base.Used frame → frame < 2 ^ 40 →
      allocator.Fresh (fun f => nptm.Used f ∨ f ∈ frame :: frames) →
      Created hostPat nptm gpa
        (.success, (base.addPte hostPat gpa frame parent).withAllocator allocator)

section Created

variable {hostPat : HostPat} {nptm : SvmCustomNptManager} {gpa : Nat}

theorem root_ne {frame : Nat} (hunused : ¬nptm.Used frame) :
    frame ≠ page4kbCount nptm.ncr3 := by
  rintro rfl
  exact hunused ⟨3, 0, rfl⟩

/-- Below a table that is linked, the creator adds a linked table and its own below it. -/
theorem created_of_described {frame frame' : Nat} {d : NptDescriptor} {allocator allocator' : Allocator}
    (hwf : nptm.Wf) (hcomplete : nptm.Complete 2) (hnone : nptm.findPte gpa = none)
    (hpde : nptm.findPde gpa = none) (hpdpte : nptm.findPdpte gpa = some d)
    (halloc : nptm.allocator.allocTable = (some frame, allocator))
    (halloc' : allocator.allocTable = (some frame', allocator'))
    (hunused : ¬nptm.Used frame) (hframe : frame < 2 ^ 40)
    (hunused' : ¬(nptm.Used frame' ∨ frame' = frame)) (hframe' : frame' < 2 ^ 40)
    (hfresh : allocator'.Fresh fun f => (nptm.Used f ∨ f = frame) ∨ f = frame') :
    Created hostPat nptm gpa (nvcSvmcCreate4kbPageMap hostPat nptm gpa 0 {}) := by
  have hnone₁ : nptm.described 1 (page1gbCount gpa) = none := by
    rw [described_one hwf, hpde]
    rfl
  have hparent : nptm.reached 2 (page512gbCount gpa) = some d.frame := by
    rw [hcomplete, described_two hwf, hpdpte]
    rfl
  have hused : nptm.Used d.frame := ⟨2, _, hwf.sound (by omega) hparent⟩
  have hne : frame' ≠ frame := fun h => hunused' (Or.inr h)
  have hne' : d.frame ≠ frame := fun h => hunused (h ▸ hused)
  have hgrows := addPde_grows hwf hpde hparent (fun h => hunused' (Or.inl h)) hframe'
  have hnew : nvcSvmcCreate2mbPageMap hostPat
      ((nptm.pushBlank hostPat gpa frame).withAllocator allocator) gpa 0 {} =
        (.success, (((nptm.addPde gpa frame' d.frame).pushBlank hostPat gpa frame).setEntry frame'
          (pdeOffset gpa) (tableEntry 0)).withAllocator allocator') := by
    rw [pushBlank, pushBlank, ← addPde_pushPte hne hne'.symm]
    refine create2mb_of_some ?_ ?_ fun h => hunused' (Or.inl (h ▸ hused))
    · exact halloc'
    · exact hpdpte
  rw [create4kb_of_new halloc hpde hnew rfl]
  refine .made (hgrows.keeps (by omega)) (fun level hlevel => hgrows.complete (by omega)) hnone
    hgrows.described_self ?_ (fun h => ?_) hframe (hfresh.mono (by simp; tauto))
  · rw [hgrows.reached 1 (by omega), hnone₁, unreached_of_undescribed hwf (by omega) hnone₁]
    simp
  · rcases hgrows.used h with hold | hnew
    · exact hunused hold
    · exact hne (List.mem_singleton.mp hnew).symm

/-- Where no table above is described the creators add all three. -/
theorem created_of_undescribed {frame frame' frame'' : Nat}
    {allocator allocator' allocator'' : Allocator} (hwf : nptm.Wf) (hgpa : gpa < 2 ^ 48)
    (hnone : nptm.findPte gpa = none) (hpde : nptm.findPde gpa = none)
    (hpdpte : nptm.findPdpte gpa = none)
    (halloc : nptm.allocator.allocTable = (some frame, allocator))
    (halloc' : allocator.allocTable = (some frame', allocator'))
    (halloc'' : allocator'.allocTable = (some frame'', allocator''))
    (hunused : ¬nptm.Used frame) (hframe : frame < 2 ^ 40)
    (hunused' : ¬(nptm.Used frame' ∨ frame' = frame)) (hframe' : frame' < 2 ^ 40)
    (hunused'' : ¬((nptm.Used frame'' ∨ frame'' = frame) ∨ frame'' = frame'))
    (hframe'' : frame'' < 2 ^ 40)
    (hfresh : allocator''.Fresh fun f =>
      ((nptm.Used f ∨ f = frame) ∨ f = frame') ∨ f = frame'') :
    Created hostPat nptm gpa (nvcSvmcCreate4kbPageMap hostPat nptm gpa 0 {}) := by
  have hnone₁ : nptm.described 1 (page1gbCount gpa) = none := by
    rw [described_one hwf, hpde]
    rfl
  have hne : frame' ≠ frame := fun h => hunused' (Or.inr h)
  have hne' : frame'' ≠ frame := fun h => hunused'' (Or.inl (Or.inr h))
  have hne'' : frame'' ≠ frame' := fun h => hunused'' (Or.inr h)
  have hroot := root_ne hunused
  have hroot' := root_ne fun h => hunused' (Or.inl h)
  have hroot'' := root_ne fun h => hunused'' (Or.inl (Or.inl h))
  have htop := addPdpte_grows hwf hgpa hpdpte (fun h => hunused'' (Or.inl (Or.inl h))) hframe''
  have hunusedTop : ¬(nptm.addPdpte gpa frame'').Used frame' := by
    intro h
    rcases htop.used h with hold | hnew
    · exact hunused' (Or.inl hold)
    · exact hne'' (List.mem_singleton.mp hnew).symm
  have hparent : (nptm.addPdpte gpa frame'').reached 2 (page512gbCount gpa) = some frame'' := by
    rw [htop.reached 2 (by omega), if_pos ⟨rfl, rfl, rfl⟩]
  have hgrows := addPde_grows htop.wf hpde hparent hunusedTop hframe'
  have hkeeps := (htop.keeps fun _ => rfl).trans (hgrows.keeps (by omega))
  have hnew : nvcSvmcCreate2mbPageMap hostPat
      ((nptm.pushBlank hostPat gpa frame).withAllocator allocator) gpa 0 {} =
        (.success, ((((nptm.addPdpte gpa frame'').addPde gpa frame' frame'').pushBlank hostPat gpa
          frame).setEntry frame' (pdeOffset gpa) (tableEntry 0)).withAllocator allocator'') := by
    rw [pushBlank, pushBlank, ← addPde_pushPte hne hne'.symm, ← addPdpte_pushPte hne' hroot]
    refine create2mb_of_new ?_ ?_ halloc'' hroot' hroot'' hne''
    · exact halloc'
    · exact hpdpte
  rw [create4kb_of_new halloc hpde hnew rfl]
  refine .made hkeeps (fun level hlevel h => hgrows.complete (by omega) (htop.complete (by omega) h))
    hnone hgrows.described_self ?_ (fun h => ?_) hframe (hfresh.mono (by simp; tauto))
  · rw [hgrows.reached 1 (by omega), hnone₁, unreached_of_undescribed hwf (by omega) hnone₁]
    simp
  · rcases hkeeps.used _ h with hold | hnew
    · exact hunused hold
    · rcases List.mem_cons.mp hnew with heq | heq
      · exact hne' heq.symm
      · exact hne (List.mem_singleton.mp heq).symm

theorem create4kb_created (hwf : nptm.Wf) (hcomplete : nptm.Complete 2)
    (hfresh : nptm.allocator.Fresh nptm.Used) (hgpa : gpa < 2 ^ 48)
    (hnone : nptm.findPte gpa = none) :
    Created hostPat nptm gpa (nvcSvmcCreate4kbPageMap hostPat nptm gpa 0 {}) := by
  cases halloc : nptm.allocator.allocTable with
  | mk answer allocator =>
  cases answer with
  | none =>
      rw [create4kb_of_none halloc]
      exact .failed (.refl hwf) ((hfresh.of_allocTable_none halloc).mono (by simp))
        fun hgenerous => (hgenerous.of_allocTable halloc).1 rfl
  | some frame =>
      obtain ⟨hunused, hframe, hfresh₁⟩ := hfresh.of_allocTable halloc fun f => id
      cases hpde : nptm.findPde gpa with
      | some d =>
          have hdescribed : nptm.described 1 (page1gbCount gpa) = some d.frame := by
            rw [described_one hwf, hpde]
            rfl
          rw [create4kb_of_some halloc hpde]
          refine .made (.refl hwf) (fun _ _ => id) hnone hdescribed ?_ hunused hframe
            (hfresh₁.mono (by simp))
          rw [hdescribed]
      | none =>
          have hblank : Grows nptm (nptm.pushBlank hostPat gpa frame) 0 (page2mbCount gpa) frame false :=
            pushPte_grows hwf hnone hunused hframe
          have hkeeps := hblank.keeps (by omega)
          cases halloc' : allocator.allocTable with
          | mk answer' allocator' =>
          cases answer' with
          | none =>
              rw [create4kb_of_failed halloc hpde (create2mb_of_none halloc')]
              have hfresh₂ := hfresh₁.of_allocTable_none halloc'
              change Created hostPat nptm gpa
                (.insufficientResources, (nptm.pushBlank hostPat gpa frame).withAllocator allocator')
              exact .failed hkeeps (hfresh₂.mono (by simp)) fun hgenerous =>
                ((hgenerous.of_allocTable halloc).2.of_allocTable halloc').1 rfl
          | some frame' =>
              obtain ⟨hunused', hframe', hfresh₂⟩ := hfresh₁.of_allocTable halloc' fun f => id
              cases hpdpte : nptm.findPdpte gpa with
              | some d =>
                  exact created_of_described hwf hcomplete hnone hpde hpdpte halloc halloc' hunused
                    hframe hunused' hframe' hfresh₂
              | none =>
                  cases halloc'' : allocator'.allocTable with
                  | mk answer'' allocator'' =>
                  cases answer'' with
                  | none =>
                      rw [create4kb_of_failed halloc hpde
                        (create2mb_of_failed halloc' hpdpte halloc'')]
                      have hunusedBlank : ¬(nptm.pushBlank hostPat gpa frame).Used frame' := by
                        intro h
                        rcases hblank.used h with hold | hnew
                        · exact hunused' (Or.inl hold)
                        · exact hunused' (Or.inr (List.mem_singleton.mp hnew))
                      have hplaceholder :
                          Grows (nptm.pushBlank hostPat gpa frame)
                            ((nptm.pushBlank hostPat gpa frame).pushPlaceholder gpa frame') 1
                            (page1gbCount gpa) frame' false :=
                        pushPde_grows hblank.wf hpde hunusedBlank hframe'
                      have hfresh₃ := hfresh₂.of_allocTable_none halloc''
                      change Created hostPat nptm gpa (.insufficientResources,
                        ((nptm.pushBlank hostPat gpa frame).pushPlaceholder gpa
                          frame').withAllocator allocator'')
                      exact .failed (hkeeps.trans (hplaceholder.keeps (by omega)))
                        (hfresh₃.mono (by simp; tauto)) fun hgenerous =>
                          (((hgenerous.of_allocTable halloc).2.of_allocTable
                            halloc').2.of_allocTable halloc'').1 rfl
                  | some frame'' =>
                      obtain ⟨hunused'', hframe'', hfresh₃⟩ :=
                        hfresh₂.of_allocTable halloc'' fun f => id
                      exact created_of_undescribed hwf hgpa hnone hpde hpdpte halloc halloc' halloc''
                        hunused hframe hunused' hframe' hunused'' hframe'' hfresh₃

end Created

/-- What a call that maps the page of `gpa` makes of an address of that page. -/
def mappedView (hpa : Nat) (mapAttrib : MappingAttributes) (address : Nat) : Option NptView :=
  if mapAttrib.present then
    some
      { hpa := page4kbMult (page4kbCount hpa) + page4kbOffset address
        write := mapAttrib.write
        user := mapAttrib.user
        execute := mapAttrib.execute }
  else none

theorem entryView_setPteEntry (hostPat : HostPat) {hpa : Nat} (hhpa : hpa < 2 ^ 52)
    (mapAttrib : MappingAttributes) :
    entryView (nvcSvmcSetPteEntry hostPat hpa mapAttrib) = mappedView hpa mapAttrib := by
  have hlt : page4kbCount hpa < 2 ^ 40 := by
    unfold page4kbCount
    omega
  funext address
  simp only [entryView, mappedView, nvcSvmcSetPteEntry, NptEntry.setBase, leafView,
    NptEntry.pageBase, Nat.mod_eq_of_lt hlt, Bool.not_not]
  simp [page4kbMult, page4kbOffset]

/-- The outcome of a call, from the state before it. -/
structure Maps (nptm : SvmCustomNptManager) (gpa hpa : Nat) (mapAttrib : MappingAttributes)
    (st : NoirStatus) (nptm' : SvmCustomNptManager) : Prop where
  wf : nptm'.Wf
  complete : nptm'.Complete 2
  fresh : nptm'.allocator.Fresh nptm'.Used
  view : ∀ address < 2 ^ 48, nptm'.view address =
    if st = .success ∧ page4kbCount address = page4kbCount gpa ∧ nptm.Walkable gpa then
      mappedView hpa mapAttrib address
    else nptm.view address
  linked : st = .success → (∀ level ≤ 2, nptm.Complete level) → ∀ level ≤ 2, nptm'.Complete level
  generous : mapAttrib.psize = 0 → nptm.allocator.Generous 3 → st = .success

section Maps

variable {hostPat : HostPat} {nptm : SvmCustomNptManager} {gpa hpa : Nat}
  {mapAttrib : MappingAttributes}

theorem setPage_complete {r frame i level : Nat} {e : NptEntry} (hwf : nptm.Wf)
    (htable : nptm.described 0 r = some frame) (hcomplete : nptm.Complete level) :
    (nptm.setEntry frame i e).Complete level :=
  fun r' => (reached_setPage hwf htable level r').trans (hcomplete r')

theorem maps_of_found {t : NptDescriptor} (hwf : nptm.Wf) (hcomplete : nptm.Complete 2)
    (hfresh : nptm.allocator.Fresh nptm.Used) (hhpa : hpa < 2 ^ 52)
    (hfound : nptm.findPte gpa = some t) :
    Maps nptm gpa hpa mapAttrib .success
      (nptm.setEntry t.frame (pteOffset gpa) (nvcSvmcSetPteEntry hostPat hpa mapAttrib)) := by
  have htable : nptm.described 0 (page2mbCount gpa) = some t.frame := by
    rw [described_zero hwf, hfound]
    rfl
  refine ⟨hwf.setPage htable, setPage_complete hwf htable hcomplete, hfresh,
    fun address haddress => ?_, fun _ hall level hlevel => setPage_complete hwf htable (hall level hlevel),
    fun _ _ => rfl⟩
  rw [view_setPage hwf htable haddress, entryView_setPteEntry hostPat hhpa]
  simp [Walkable, htable]

theorem maps_of_made {frames : List Nat} {base : SvmCustomNptManager} {frame parent : Nat}
    {allocator : Allocator} (hwf : nptm.Wf) (hnone : nptm.findPte gpa = none)
    (hcomplete : nptm.Complete 2) (hhpa : hpa < 2 ^ 52) (hkeeps : Keeps nptm base frames)
    (hbase : ∀ level ≤ 2, nptm.Complete level → base.Complete level)
    (hnone' : base.findPte gpa = none)
    (hparent : base.described 1 (page1gbCount gpa) = some parent)
    (hlinked : base.reached 1 (page1gbCount gpa) = some parent ↔
      nptm.reached 1 (page1gbCount gpa) = nptm.described 1 (page1gbCount gpa))
    (hunused : ¬base.Used frame) (hframe : frame < 2 ^ 40)
    (hfresh : allocator.Fresh fun f => nptm.Used f ∨ f ∈ frame :: frames) :
    Maps nptm gpa hpa mapAttrib .success
      (((base.addPte hostPat gpa frame parent).withAllocator allocator).setEntry frame
        (pteOffset gpa) (nvcSvmcSetPteEntry hostPat hpa mapAttrib)) := by
  have hgrows := addPte_grows hostPat hkeeps.wf hnone' hparent hunused hframe
  have htable := hgrows.described_self
  have hundescribed : base.described 0 (page2mbCount gpa) = none := by
    rw [described_zero hkeeps.wf, hnone']
    rfl
  have hundescribed' : nptm.described 0 (page2mbCount gpa) = none := by
    rw [described_zero hwf, hnone]
    rfl
  have hreached : (base.addPte hostPat gpa frame parent).reached 0 (page2mbCount gpa) = some frame ↔
      nptm.Walkable gpa := by
    rw [hgrows.reached 0 (by omega), Walkable, hundescribed',
      unreached_of_undescribed hwf (by omega) hundescribed',
      unreached_of_undescribed hkeeps.wf (by omega) hundescribed, ← hlinked]
    simp
  have hset : ∀ level ≤ 2, (base.addPte hostPat gpa frame parent).Complete level →
      (((base.addPte hostPat gpa frame parent).withAllocator allocator).setEntry frame
        (pteOffset gpa) (nvcSvmcSetPteEntry hostPat hpa mapAttrib)).Complete level :=
    fun level _ => setPage_complete hgrows.wf htable
  refine ⟨(hgrows.wf.setPage htable).withAllocator allocator, hset 2 le_rfl ?_, ?_, fun address haddress => ?_,
    fun _ hall level hlevel => hset level hlevel ?_, fun _ _ => rfl⟩
  · exact hgrows.complete_of_ne (by omega) (by omega) (hkeeps.complete hcomplete)
  · refine hfresh.mono fun f hf => ?_
    rcases hgrows.used hf with hold | hnew
    · rcases hkeeps.used f hold with holder | hnew
      · exact Or.inl holder
      · exact Or.inr (List.mem_cons_of_mem _ hnew)
    · exact Or.inr (List.mem_singleton.mp hnew ▸ List.mem_cons_self)
  · rw [← hkeeps.view address haddress, ← hgrows.view address haddress,
      ← entryView_setPteEntry hostPat hhpa]
    refine (view_setPage hgrows.wf htable haddress).trans ?_
    simp only [hreached, true_and]
  · have hlink : base.reached 1 (page1gbCount gpa) = some parent := by
      rw [hbase 1 (by omega) (hall 1 (by omega))]
      exact hparent
    rw [decide_eq_true hlink] at hgrows
    exact hgrows.complete (by omega) (hbase level hlevel (hall level hlevel))

theorem setPageMap_maps (hostPat : HostPat) (hwf : nptm.Wf) (hcomplete : nptm.Complete 2)
    (hfresh : nptm.allocator.Fresh nptm.Used) (hgpa : gpa < 2 ^ 48) (hhpa : hpa < 2 ^ 52)
    (mapAttrib : MappingAttributes) :
    Maps nptm gpa hpa mapAttrib (nvcSvmcSetPageMap hostPat nptm gpa hpa mapAttrib).1
      (nvcSvmcSetPageMap hostPat nptm gpa hpa mapAttrib).2 := by
  unfold nvcSvmcSetPageMap describePte
  by_cases hpsize : mapAttrib.psize = 0
  · rw [if_pos hpsize]
    cases hfound : nptm.findPte gpa with
    | some t => exact maps_of_found hwf hcomplete hfresh hhpa hfound
    | none =>
        have hcreated : Created hostPat nptm gpa _ :=
          create4kb_created hwf hcomplete hfresh hgpa hfound
        generalize nvcSvmcCreate4kbPageMap hostPat nptm gpa 0 {} = result at hcreated
        cases hcreated with
        | failed hkeeps hfresh' hgenerous =>
            refine ⟨hkeeps.wf.withAllocator _, hkeeps.complete hcomplete, hfresh'.mono fun f hf => hkeeps.used f hf,
              fun address haddress => hkeeps.view address haddress, fun h => (nomatch h),
              fun _ h => absurd h hgenerous⟩
        | @made frames base frame parent allocator hkeeps hbase hnone' hparent hlinked hunused hframe
            hfresh' =>
            have hlast : ((base.addPte hostPat gpa frame parent).withAllocator
                allocator).pte.getLast? =
                  some { phys := page4kbMult frame, gpaStart := page2mbBase gpa } :=
              List.getLast?_concat
            simp only [if_true, hlast, NptManager.frame_mk]
            exact maps_of_made hwf hfound hcomplete hhpa hkeeps hbase hnone' hparent hlinked hunused
              hframe hfresh'
  · rw [if_neg hpsize]
    exact ⟨hwf, hcomplete, hfresh, fun _ _ => rfl, fun h => (nomatch h),
      fun h => absurd h hpsize⟩

end Maps

end NoirVisor.SvmCustomNptManager
