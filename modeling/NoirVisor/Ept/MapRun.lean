import NoirVisor.Ept.PhysicalMap

/-!
# Runs of the extended paging manager on the map of physical pages

In every run that returns, from the identity map on and with any arguments, each access comes to
what the map tells. A run in which the memory manager has nothing left does not return.
-/

namespace NoirVisor

/-- The addresses of large and huge pages are those of pages. -/
def EptOp.Aligned : EptOp → Prop
  | .updatePdeMemoryType gpa _ _ => gpa % page2mbSize = 0
  | .updatePdpteMemoryType gpa _ _ => gpa % page1gbSize = 0
  | _ => True

def EptOp.runAll (eptm : EptManager) (ops : List EptOp) : Outcome EptManager :=
  ops.foldlM EptOp.run eptm

namespace EptMap

theorem page4kbCount_div (gpa : Nat) : page4kbCount gpa / 512 = page2mbCount gpa := by
  unfold page4kbCount page2mbCount
  omega

theorem split_of_split {m : EptMap} {r : Nat} {gate : EptRights} {table : Nat → EptTarget}
    (h : m r = .split gate table) : m.split r = m := by
  unfold split EptMap.gate EptMap.table
  rw [h]
  exact Function.update_eq_self_iff.mpr h.symm

theorem split_self (m : EptMap) (r : Nat) : m.split r r = .split (m.gate r) (m.table r) :=
  Function.update_self ..

end EptMap

namespace EptManager

section

variable {eptm eptm' : EptManager} {m : EptMap} {used : Nat → Prop} {gpa frame r i : Nat}
  {g : EptEntry → EptEntry} {memoryType : BitVec 8} {force result : Bool}

/-- The map does not depend on memory types. -/
theorem Shows.congr (h : eptm.Shows m) (hlayout : eptm'.layout = eptm.layout)
    (hpdpt : ∀ k < 512 * 512, (eptm'.pdpt k).large = (eptm.pdpt k).large ∧
      (eptm'.pdpt k).rights = (eptm.pdpt k).rights)
    (hmemory : ∀ level r f i, eptm.layout level r = some f → i < 512 →
      (eptm'.memory f i).large = (eptm.memory f i).large ∧
        (eptm'.memory f i).target = (eptm.memory f i).target) : eptm'.Shows m := by
  constructor
  case granting => exact fun k hk => (hpdpt k hk).2.trans (h.granting k hk)
  case huge => exact fun k hk hlarge => h.huge k hk ((hpdpt k hk).1.symm.trans hlarge)
  case below =>
    rw [hlayout]
    exact h.below
  case table =>
    intro k f i hf hi
    rw [hlayout] at hf
    obtain ⟨hlarge, htarget⟩ := hmemory _ _ _ _ hf hi
    exact (h.table k f i hf hi).congr hlarge htarget (by rw [hlayout]) fun f' hf' j hj =>
      (hmemory _ _ _ j hf' hj).2

theorem Shows.modifyType (h : eptm.Shows m) (frame i : Nat)
    (hg : ∀ entry : EptEntry, (g entry).large = entry.large ∧ (g entry).target = entry.target) :
    (eptm.modifyEntry frame i g).Shows m := by
  refine h.congr rfl (fun _ _ => ⟨rfl, rfl⟩) fun level r f j _ _ => ?_
  by_cases hwritten : f = frame ∧ j = i
  · obtain ⟨rfl, rfl⟩ := hwritten
    rw [memory_modifyEntry_self]
    exact hg _
  · rw [memory_modifyEntry_of_ne hwritten]
    exact ⟨rfl, rfl⟩

/-- Above every table of pages there is one of large pages. -/
theorem Shows.above (h : eptm.Shows m) (hwf : eptm.Wf) (hgpa : gpa < 2 ^ 48)
    (hframe : eptm.layout 0 (page2mbCount gpa) = some frame) :
    (eptm.pdpt (page1gbCount gpa)).large = false ∧
      ∃ upper, eptm.layout 1 (page1gbCount gpa) = some upper := by
  have hdiv : page2mbCount gpa / 512 = page1gbCount gpa := by
    unfold page2mbCount page1gbCount
    omega
  cases hupper : eptm.layout 1 (page1gbCount gpa) with
  | none =>
      rw [h.below _ (by rw [hdiv, hupper])] at hframe
      cases hframe
  | some upper =>
      refine ⟨?_, upper, rfl⟩
      by_contra hhuge
      rw [(hwf.huge _ (page1gbCount_lt_of_lt hgpa) (by simpa using hhuge)).1] at hupper
      cases hupper

/-- A page of a split page is written. -/
theorem Shows.modifyPte (h : eptm.Shows m) (hwf : eptm.Wf) (hgpa : gpa < 2 ^ 48)
    (hframe : eptm.layout 0 (page2mbCount gpa) = some frame) {gate : EptRights}
    {table : Nat → EptTarget} (hsplit : m (page2mbCount gpa) = .split gate table) {target : EptTarget}
    (htarget : (g (eptm.memory frame i)).target = target) :
    (eptm.modifyEntry frame i g).Shows
      (Function.update m (page2mbCount gpa) (.split gate (Function.update table i target))) := by
  obtain ⟨hlisted, upper, hupper⟩ := h.above hwf hgpa hframe
  have hi := pageEntryIndex64_lt (page2mbCount gpa)
  have hholds := h.table _ _ _ hupper hi
  rw [← page2mbCount_eq, hsplit] at hholds
  obtain ⟨hlarge, hgate, f, hf, htable⟩ := hholds
  obtain rfl := Option.some.inj (hframe.symm.trans hf)
  have hne : ∀ {k f j}, eptm.layout 1 k = some f → (eptm.modifyEntry frame i g).memory f j =
      eptm.memory f j := by
    intro k f j hf'
    refine memory_modifyEntry_of_ne ?_
    rintro ⟨rfl, -⟩
    exact absurd (hwf.disjoint _ _ _ _ _ hf' hframe).1 (by decide)
  refine h.update hupper hi (page2mbCount_eq gpa) rfl rfl (fun _ _ => rfl)
    (fun k f j hf' _ => hne hf') (fun r hr f j hf' => memory_modifyEntry_of_ne ?_) hwf.disjoint
    hlisted ?_
  · rintro ⟨rfl, -⟩
    exact hr (hwf.disjoint _ _ _ _ _ hf' hframe).2
  · rw [hne hupper]
    refine ⟨hlarge, hgate, frame, hframe, fun j hj => ?_⟩
    by_cases hj' : j = i
    · rw [hj', memory_modifyEntry_self, Function.update_self, htarget]
    · rw [memory_modifyEntry_of_ne fun heq => hj' heq.2, Function.update_of_ne hj', htable j hj]

/-- A large page is written, and is whole from then on. -/
theorem Shows.modifyLarge (h : eptm.Shows m) (hwf : eptm.Wf)
    (hlisted : (eptm.pdpt (page1gbCount gpa)).large = false)
    (hframe : eptm.layout 1 (page1gbCount gpa) = some frame) {base : Nat} {rights : EptRights}
    (hbase : base % 512 = 0)
    (hg : ∀ entry : EptEntry, (g entry).large = true ∧ (g entry).base = base + entry.base % 512 ∧
      (g entry).rights = rights) :
    (eptm.modifyEntry frame (pageEntryIndex64 (page2mbCount gpa)) g).Shows (m.setLarge gpa base rights) := by
  have hi := pageEntryIndex64_lt (page2mbCount gpa)
  have hholds := h.table _ _ _ hframe hi
  have hpoints := hwf.pde _ _ _ hframe hi
  obtain ⟨hlarge, hlow, hrights⟩ := hg (eptm.memory frame (pageEntryIndex64 (page2mbCount gpa)))
  rw [← page2mbCount_eq] at hholds hpoints
  unfold EptMap.setLarge
  refine h.modifyPde hwf hlisted hframe hi (page2mbCount_eq gpa) ?_
  cases hregion : m (page2mbCount gpa) with
  | whole old oldRights =>
      rw [hregion] at hholds
      obtain ⟨-, rfl, haligned, -, hnone⟩ := hholds
      rw [haligned] at hlow
      exact ⟨hlarge, hlow, hbase, hrights, hnone⟩
  | split gate table =>
      rw [hregion] at hholds
      obtain ⟨hsize, -, f, hf, htable⟩ := hholds
      obtain ⟨f', hf', -, -, hat⟩ := hpoints hsize
      obtain rfl := Option.some.inj (hf.symm.trans hf')
      rw [hat] at hlow
      exact ⟨hlarge, hrights, hbase, f, hf, hlow, fun j hj => by
        rw [memory_modifyPde hwf hframe _ hf, htable j hj]⟩
  | rejoined old oldRights table =>
      rw [hregion] at hholds
      obtain ⟨-, -, haligned, f, hf, hold, htable⟩ := hholds
      rw [hold, show (old + f % 512) % 512 = f % 512 by omega] at hlow
      exact ⟨hlarge, hrights, hbase, f, hf, hlow, fun j hj => by
        rw [memory_modifyPde hwf hframe _ hf, htable j hj]⟩

/-! ### The changes -/

theorem updatePteMemoryType_shows (h : eptm.Shows m) (hready : eptm.Ready used)
    (hrun : eptm.nvcEptUpdatePteMemoryType memoryType force gpa = .ok (result, eptm')) :
    eptm'.Shows (m.split (page2mbCount gpa)) := by
  obtain ⟨⟨p, split⟩, hsplit, hrun⟩ := bind_eq_ok.mp hrun
  obtain ⟨-, t, rfl, -⟩ := nvcEptSplitPde_eq_ok hready hsplit
  cases hrun
  exact (h.splitPde hready hsplit).1.modifyType _ _ fun entry => ⟨rfl, rfl⟩

theorem updatePte_shows {hpa : Nat} {r w x ignoreMt alloc : Bool} {p : Pointer EptDescriptor}
    (h : eptm.Shows m) (hready : eptm.Ready used)
    (hrun : eptm.nvcEptUpdatePte hpa gpa r w x ignoreMt memoryType alloc = .ok (p, eptm')) :
    eptm'.Shows (m.setPage gpa ⟨page4kbCount hpa % 2 ^ 40, ⟨r, w, x⟩⟩) := by
  obtain ⟨⟨q, split⟩, hsplit, hrun⟩ := bind_eq_ok.mp hrun
  obtain ⟨hgrows, t, rfl, ht⟩ := nvcEptSplitPde_eq_ok hready hsplit
  obtain ⟨hshows, -, hgpa⟩ := h.splitPde hready hsplit
  obtain ⟨used₁, -, hready₁⟩ := hgrows.ready
  cases hrun
  have hmap : m.setPage gpa ⟨page4kbCount hpa % 2 ^ 40, ⟨r, w, x⟩⟩ =
      Function.update (m.split (page2mbCount gpa)) (page2mbCount gpa)
        (.split (m.gate (page2mbCount gpa)) (Function.update (m.table (page2mbCount gpa))
          (pageEntryIndex64 (page4kbCount gpa)) ⟨page4kbCount hpa % 2 ^ 40, ⟨r, w, x⟩⟩)) := by
    rw [EptMap.setPage, EptMap.split, Function.update_idem]
  rw [hmap]
  exact hshows.modifyPte hready₁.wf hgpa ht (m.split_self _) (by cases ignoreMt <;> rfl)

/-- The entry of a split page gets other rights. -/
theorem Shows.modifyGate {t : EptDescriptor} {rights : EptRights} (h : eptm.Shows m) (hwf : eptm.Wf)
    (hlisted : (eptm.pdpt (page1gbCount gpa)).large = false)
    (hframe : eptm.layout 1 (page1gbCount gpa) = some frame)
    (ht : eptm.layout 0 (page2mbCount gpa) = some t.frame)
    (hg : ∀ entry : EptEntry, (g entry).large = false ∧ (g entry).rights = rights) :
    (eptm.modifyEntry frame (pageEntryIndex64 (page2mbCount gpa)) g).Shows (m.setGate gpa rights) := by
  have hi := pageEntryIndex64_lt (page2mbCount gpa)
  have hholds := h.table _ _ _ hframe hi
  obtain ⟨hlarge, hrights⟩ := hg (eptm.memory frame (pageEntryIndex64 (page2mbCount gpa)))
  rw [← page2mbCount_eq] at hholds
  refine h.modifyPde hwf hlisted hframe hi (page2mbCount_eq gpa)
    ⟨hlarge, hrights, t.frame, ht, fun j hj => ?_⟩
  rw [memory_modifyPde hwf hframe _ ht, hholds.table ht j hj]

theorem updatePde_shows {hpa : Nat} {r w x l ignoreMt alloc : Bool} (h : eptm.Shows m)
    (hready : eptm.Ready used)
    (hrun : eptm.nvcEptUpdatePde hpa gpa r w x l ignoreMt memoryType alloc = .ok (result, eptm')) :
    eptm'.Shows (m.apply (.updatePde hpa gpa r w x l ignoreMt memoryType alloc)) := by
  obtain ⟨⟨p, split⟩, hsplit, hrun⟩ := bind_eq_ok.mp hrun
  obtain ⟨hgpa, hgrows, -, d, rfl, hd⟩ := nvcEptSplitPdpte_eq_ok hready hsplit
  have hsplits := splitsHuge_of_ok hready hsplit
  have hshows := h.splitPdpte hready.wf hgpa hsplits
  obtain ⟨used₁, -, hready₁⟩ := hgrows.ready
  simp only [Pointer.isNull, Bool.false_eq_true, if_false, Pointer.deref, Outcome.ok_bind] at hrun
  cases l with
  | true =>
      cases hrun
      refine hshows.modifyLarge hready₁.wf hsplits.listed hd (Nat.mul_mod_left _ _) fun entry => ?_
      cases ignoreMt <;> exact ⟨rfl, rfl, rfl⟩
  | false =>
      simp only [Bool.false_eq_true, if_false] at hrun
      obtain ⟨⟨q, described⟩, hdescribed, hrun⟩ := bind_eq_ok.mp hrun
      obtain ⟨hgrows₁, t, rfl, ht⟩ := nvcEptSplitPde_eq_ok hready₁ hdescribed
      obtain ⟨hbelow, hlisted', -⟩ := hshows.splitPde hready₁ hdescribed
      obtain ⟨used₂, -, hready₂⟩ := hgrows₁.ready
      cases hrun
      have hmap : m.apply (.updatePde hpa gpa r w x false ignoreMt memoryType alloc) =
          (m.split (page2mbCount gpa)).setGate gpa ⟨r, w, x⟩ := by
        rw [EptMap.apply, EptMap.setGate, EptMap.setGate]
        simp only [EptMap.split, EptMap.table, Function.update_self, Function.update_idem]
      rw [hmap]
      exact hbelow.modifyGate hready₂.wf hlisted' (hgrows₁.layout _ _ _ hd) ht fun entry => ⟨rfl, rfl⟩

/-- A loop that keeps to the map as long as it goes on. -/
theorem forEntries_shows {f : EptManager → Nat → Outcome (Bool × EptManager)} {is : List Nat}
    (hgrows : ∀ s i result s' used, Ready s used → f s i = .ok (result, s') → Grows s s' used)
    (hstep : ∀ s i result s' used, i ∈ is → Ready s used → Shows s m → f s i = .ok (result, s') →
      Shows s' m)
    (h : eptm.Shows m) (hready : eptm.Ready used) (hrun : forEntries f is eptm = .ok (result, eptm')) :
    eptm'.Shows m := by
  induction is generalizing eptm used with
  | nil =>
      cases hrun
      exact h
  | cons i rest ih =>
      obtain ⟨⟨found, s⟩, hfirst, hrun⟩ := bind_eq_ok.mp hrun
      have hkept := hstep _ _ _ _ _ List.mem_cons_self hready h hfirst
      cases found with
      | false =>
          cases hrun
          exact hkept
      | true =>
          obtain ⟨used₁, -, hready₁⟩ := (hgrows _ _ _ _ _ hready hfirst).ready
          exact ih (fun s i result s' used hi => hstep s i result s' used (List.mem_cons_of_mem _ hi))
            hkept hready₁ hrun

theorem updatePdeMemoryType_shows (haligned : gpa % page2mbSize = 0) (h : eptm.Shows m)
    (hready : eptm.Ready used)
    (hrun : eptm.nvcEptUpdatePdeMemoryType memoryType force gpa = .ok (result, eptm')) :
    eptm'.Shows m := by
  obtain ⟨⟨p, split⟩, hsplit, hrun⟩ := bind_eq_ok.mp hrun
  obtain ⟨hgpa, hgrows, -, d, rfl, hd⟩ := nvcEptSplitPdpte_eq_ok hready hsplit
  have hshows := h.splitPdpte hready.wf hgpa (splitsHuge_of_ok hready hsplit)
  obtain ⟨used₁, -, hready₁⟩ := hgrows.ready
  simp only [Pointer.isNull, Bool.false_eq_true, if_false, Pointer.deref, Outcome.ok_bind] at hrun
  split at hrun
  · cases hrun
    exact hshows.modifyType _ _ fun entry => ⟨rfl, rfl⟩
  · next hsmall =>
      obtain ⟨⟨found, updated⟩, hloop, hrun⟩ := bind_eq_ok.mp hrun
      cases hrun
      refine forEntries_shows (fun s i result s' used hs => nvcEptUpdatePteMemoryType_grows hs)
        (fun s i result s' used hi hs hshown hpte => ?_) hshows hready₁ hloop
      have hholds := hshows.table _ _ _ hd (pageEntryIndex64_lt (page2mbCount gpa))
      rw [← page2mbCount_eq] at hholds
      have hpage : page2mbCount (gpa + page4kbMult i) = page2mbCount gpa := by
        have := List.mem_range.mp hi
        simp only [page2mbSize, page4kbMult, page2mbCount] at haligned ⊢
        omega
      have hkept := updatePteMemoryType_shows hshown hs hpte
      rw [hpage] at hkept
      cases hregion : m (page2mbCount gpa) with
      | whole base rights =>
          rw [hregion] at hholds
          exact absurd hholds.1 hsmall
      | rejoined base rights table =>
          rw [hregion] at hholds
          exact absurd hholds.1 hsmall
      | split gate table => rwa [EptMap.split_of_split hregion] at hkept

theorem updatePdpteMemoryType_shows (haligned : gpa % page1gbSize = 0) (h : eptm.Shows m)
    (hready : eptm.Ready used)
    (hrun : eptm.nvcEptUpdatePdpteMemoryType memoryType force gpa = .ok (result, eptm')) :
    eptm'.Shows m := by
  obtain ⟨entry, hentry, hrun⟩ := bind_eq_ok.mp hrun
  obtain ⟨-, rfl⟩ := pdpte_eq_ok hentry
  split at hrun
  · cases hrun
    refine h.congr rfl (fun k _ => ?_) fun _ _ _ _ _ _ => ⟨rfl, rfl⟩
    simp only [setPdpte, Function.update_apply]
    split
    · next heq => exact heq ▸ ⟨rfl, rfl⟩
    · exact ⟨rfl, rfl⟩
  · refine forEntries_shows (fun s i result s' used hs => nvcEptUpdatePdeMemoryType_grows hs)
      (fun s i result s' used _ hs hshown => updatePdeMemoryType_shows ?_ hshown hs) h hready hrun
    simp only [page1gbSize, page2mbSize, page2mbMult] at haligned ⊢
    omega

theorem updateByFixedMtrr_shows {fix64k fix16k fix4k : Nat → BitVec 8} (h : eptm.Shows m)
    (hready : eptm.Ready used) (hrun : eptm.updateByFixedMtrr fix64k fix16k fix4k = .ok eptm') :
    eptm'.Shows (m.split 0) := by
  obtain ⟨⟨q, split⟩, hsplit, hrun⟩ := bind_eq_ok.mp hrun
  obtain ⟨-, t, rfl, -⟩ := nvcEptSplitPde_eq_ok hready hsplit
  cases hrun
  refine (h.splitPde hready hsplit).1.congr rfl (fun _ _ => ⟨rfl, rfl⟩) fun level r f j _ _ => ?_
  simp only [Radix.Frames.fill]
  split
  · next heq => split <;> exact heq ▸ ⟨rfl, rfl⟩
  · exact ⟨rfl, rfl⟩

theorem clearVarMtrrCovered_shows (h : eptm.Shows m) : eptm.clearVarMtrrCovered.Shows m := by
  refine h.congr rfl (fun k hk => ?_) fun level r f j _ _ => ?_
  · simp only [clearVarMtrrCovered, if_pos hk]
    exact ⟨rfl, rfl⟩
  · simp only [clearVarMtrrCovered]
    split <;> exact ⟨rfl, rfl⟩

theorem snd_map_eq_ok {α : Type} {x : Outcome (α × EptManager)} (h : Prod.snd <$> x = .ok eptm') :
    ∃ a, x = .ok (a, eptm') := by
  cases x with
  | error fault => cases h
  | ok result =>
      cases h
      exact ⟨result.1, rfl⟩

/-- A change that returns does to the map what it does to the tables. -/
theorem run_shows {op : EptOp} (haligned : op.Aligned) (h : eptm.Shows m) (hready : eptm.Ready used)
    (hrun : op.run eptm = .ok eptm') : eptm'.Shows (m.apply op) := by
  cases op with
  | updatePteMemoryType gpa memoryType force =>
      obtain ⟨result, hrun⟩ := snd_map_eq_ok hrun
      exact updatePteMemoryType_shows h hready hrun
  | updatePdeMemoryType gpa memoryType force =>
      obtain ⟨result, hrun⟩ := snd_map_eq_ok hrun
      exact updatePdeMemoryType_shows haligned h hready hrun
  | updatePdpteMemoryType gpa memoryType force =>
      obtain ⟨result, hrun⟩ := snd_map_eq_ok hrun
      exact updatePdpteMemoryType_shows haligned h hready hrun
  | updateByFixedMtrr fix64k fix16k fix4k => exact updateByFixedMtrr_shows h hready hrun
  | clearVarMtrrCovered =>
      cases hrun
      exact clearVarMtrrCovered_shows h
  | updatePde hpa gpa r w x l ignoreMt memoryType alloc =>
      obtain ⟨result, hrun⟩ := snd_map_eq_ok hrun
      exact updatePde_shows h hready hrun
  | updatePte hpa gpa r w x ignoreMt memoryType alloc =>
      obtain ⟨p, hrun⟩ := snd_map_eq_ok hrun
      exact updatePte_shows h hready hrun

/-- A manager with any pages left to give, as a map tells. -/
structure Mapped (eptm : EptManager) (m : EptMap) : Prop where
  ready : ∃ used, eptm.Ready used
  shown : eptm.Shows m

theorem Mapped.access (h : eptm.Mapped m) (hgpa : gpa < 2 ^ 48) :
    eptm.access gpa = m.access eptm.layout gpa := by
  obtain ⟨used, hready⟩ := h.ready
  exact h.shown.access hready.wf hgpa

theorem Mapped.run {op : EptOp} (haligned : op.Aligned) (h : eptm.Mapped m)
    (hrun : op.run eptm = .ok eptm') : eptm'.Mapped (m.apply op) := by
  obtain ⟨used, hready⟩ := h.ready
  obtain ⟨used₁, -, hready₁⟩ := (run_grows op hready hrun).ready
  exact ⟨⟨used₁, hready₁⟩, run_shows haligned h.shown hready hrun⟩

theorem Mapped.runAll {ops : List EptOp} (haligned : ∀ op ∈ ops, op.Aligned) (h : eptm.Mapped m)
    (hrun : EptOp.runAll eptm ops = .ok eptm') : eptm'.Mapped (m.applyAll ops) := by
  induction ops generalizing eptm m with
  | nil =>
      cases hrun
      exact h
  | cons op ops ih =>
      rw [EptOp.runAll, List.foldlM_cons] at hrun
      obtain ⟨next, hfirst, hrest⟩ := bind_eq_ok.mp hrun
      exact ih (fun op hop => haligned op (List.mem_cons_of_mem _ hop))
        (h.run (haligned op List.mem_cons_self) hfirst) hrest

end

theorem mapped_identityMap {defType : BitVec 8} {allocator : Allocator}
    (hfresh : allocator.Fresh fun _ => False) :
    (identityMap defType allocator).Mapped .identity where
  ready := by
    refine ⟨_, wf_identityMap defType allocator, hfresh, ?_⟩
    rintro frame ⟨level, r, hframe⟩
    rw [layout_identityMap] at hframe
    cases hframe
  shown :=
    { granting := fun _ _ => rfl
      huge := fun _ _ _ _ _ => rfl
      table := fun k frame i hframe => by
        rw [layout_identityMap] at hframe
        cases hframe
      below := fun r _ => layout_identityMap _ _ _ _ }

/-- A page is hooked, and the 2 MiB page around it is made whole again. -/
def rejoiningOps : List EptOp :=
  [.updatePte 0x5000 0x200000 false false true true 0 true,
    .updatePde 0x200000 0x200000 true true true true true 6 true]

end EptManager

end NoirVisor
