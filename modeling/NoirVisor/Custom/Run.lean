import NoirVisor.Custom.Map
import NoirVisor.Transition

/-!
# Runs of a VM's manager

A manager starts with an empty root and is changed by mappings of pages, in any order and with any
attributes. Before each the memory manager may have any pages left to give, or none.
-/

namespace NoirVisor

open SvmCustomNptManager

/-- A call of `nvc_svmc_set_page_map`: guest-physical addresses have 48 bits and host-physical ones
52. -/
structure PageMapCall where
  gpa : Nat
  hpa : Nat
  mapAttrib : MappingAttributes
  gpa_lt : gpa < 2 ^ 48
  hpa_lt : hpa < 2 ^ 52

def PageMapCall.run (call : PageMapCall) (hostPat : HostPat) (nptm : SvmCustomNptManager) :
    NoirStatus × SvmCustomNptManager :=
  nvcSvmcSetPageMap hostPat nptm call.gpa call.hpa call.mapAttrib

namespace SvmCustomNptManager

/-- The manager of a VM just created. -/
def IsNew (nptm : SvmCustomNptManager) : Prop :=
  ∃ frame memory allocator, frame < 2 ^ 40 ∧ nptm = create frame memory allocator

def Step (hostPat : HostPat) (nptm nptm' : SvmCustomNptManager) : Prop :=
  ∃ (call : PageMapCall) (allocator : Allocator), allocator.Fresh nptm.Used ∧
    nptm' = (call.run hostPat (nptm.withAllocator allocator)).2

abbrev Reached (hostPat : HostPat) : SvmCustomNptManager → Prop :=
  Transition.Reachable IsNew (Step hostPat)

variable {hostPat : HostPat} {nptm : SvmCustomNptManager}

section IsNew

variable {level r frame : Nat}

theorem IsNew.described (h : nptm.IsNew) (hdescribed : nptm.described level r = some frame) :
    level = 3 ∧ r = 0 ∧ frame = page4kbCount nptm.ncr3 := by
  obtain ⟨root, memory, allocator, -, rfl⟩ := h
  match level with
  | 0 | 1 | 2 | _ + 4 =>
      simp [SvmCustomNptManager.described, listedFrame, Radix.covering, create] at hdescribed
  | 3 =>
      simp only [SvmCustomNptManager.described, Option.ite_none_right_eq_some,
        Option.some.injEq] at hdescribed
      exact ⟨rfl, hdescribed.1, hdescribed.2.symm⟩

theorem IsNew.root (h : nptm.IsNew) (i : Nat) : nptm.memory (page4kbCount nptm.ncr3) i = {} := by
  obtain ⟨root, memory, allocator, -, rfl⟩ := h
  simp [create, page4kbCount, page4kbMult]

theorem IsNew.unreached (h : nptm.IsNew) (depth r : Nat) :
    Radix.reach nptFormat nptm.memory 3 (page4kbCount nptm.ncr3) (depth + 1) r = none := by
  induction depth generalizing r with
  | zero =>
      cases hroot : Radix.reach nptFormat nptm.memory 3 (page4kbCount nptm.ncr3) 0 (r / 512) with
      | none => exact Radix.reach_succ_of_none hroot
      | some frame =>
          rw [Radix.reach_succ_of_some hroot]
          rw [Radix.reach_zero, Option.ite_none_right_eq_some, Option.some.injEq] at hroot
          rw [← hroot.2, h.root, isTable_empty]
          rfl
  | succ depth ih => exact Radix.reach_succ_of_none (ih (r / 512))

theorem IsNew.wf (h : nptm.IsNew) : nptm.Wf where
  pdpteListed := by
    obtain ⟨root, memory, allocator, -, rfl⟩ := h
    exact listed_nil _
  pdeListed := by
    obtain ⟨root, memory, allocator, -, rfl⟩ := h
    exact listed_nil _
  pteListed := by
    obtain ⟨root, memory, allocator, -, rfl⟩ := h
    exact listed_nil _
  tree :=
    { disjoint := fun level r level' r' frame hleft hright => by
        have hl := h.described hleft
        have hr := h.described hright
        omega
      sound := fun depth _ r frame hreach => by
        cases depth with
        | zero => exact hreach
        | succ depth => rw [h.unreached] at hreach; cases hreach
      entries := fun depth _ r frame i hreach _ => by
        cases depth with
        | zero =>
            rw [Radix.reach_zero, Option.ite_none_right_eq_some, Option.some.injEq] at hreach
            exact Or.inl (hreach.2 ▸ h.root i)
        | succ depth => rw [h.unreached] at hreach; cases hreach }
  inRange level r frame hdescribed := by
    obtain ⟨-, -, rfl⟩ := h.described hdescribed
    obtain ⟨root, memory, allocator, hroot, rfl⟩ := h
    simpa [create, page4kbCount, page4kbMult] using hroot

theorem IsNew.complete (h : nptm.IsNew) (hlevel : level ≤ 2) : nptm.Complete level := by
  intro r
  have hunreached : nptm.reached level r = none := by
    unfold SvmCustomNptManager.reached
    rw [show 3 - level = 2 - level + 1 by omega]
    exact h.unreached _ _
  rw [hunreached]
  cases hdescribed : nptm.described level r with
  | none => rfl
  | some frame =>
      have := (h.described hdescribed).1
      omega

end IsNew

theorem PageMapCall.maps (call : PageMapCall) (hostPat : HostPat) (hwf : nptm.Wf)
    (hcomplete : nptm.Complete 2) (hfresh : nptm.allocator.Fresh nptm.Used) :
    Maps nptm call.gpa call.hpa call.mapAttrib (call.run hostPat nptm).1 (call.run hostPat nptm).2 :=
  setPageMap_maps hostPat hwf hcomplete hfresh call.gpa_lt call.hpa_lt call.mapAttrib

theorem Step.wf {nptm' : SvmCustomNptManager} (hstep : Step hostPat nptm nptm') (hwf : nptm.Wf)
    (hcomplete : nptm.Complete 2) : nptm'.Wf ∧ nptm'.Complete 2 := by
  obtain ⟨call, allocator, hfresh, rfl⟩ := hstep
  have hmaps := PageMapCall.maps call hostPat (hwf.withAllocator allocator) hcomplete hfresh
  exact ⟨hmaps.wf, hmaps.complete⟩

theorem Reached.wf (h : Reached hostPat nptm) : nptm.Wf ∧ nptm.Complete 2 :=
  h.invariant (P := fun nptm => nptm.Wf ∧ nptm.Complete 2) (fun _ hnew => ⟨hnew.wf, hnew.complete le_rfl⟩)
    fun _ _ _ hs hstep => hstep.wf hs.1 hs.2

/-- What a call promises: when it succeeds the walk of every address of its page gives what was
asked for, and when it does not no walk changes. -/
def Delivers (nptm : SvmCustomNptManager) (call : PageMapCall)
    (result : NoirStatus × SvmCustomNptManager) : Prop :=
  (result.1 = .success → ∀ address, page4kbCount address = page4kbCount call.gpa →
    result.2.view address = mappedView call.hpa call.mapAttrib address) ∧
  (result.1 ≠ .success → ∀ address < 2 ^ 48, result.2.view address = nptm.view address)

/-- The call runs out of memory before it relies on a table that is listed and not linked. -/
def FailsFirst (nptm : SvmCustomNptManager) (gpa : Nat) : Prop :=
  nptm.findPte gpa = none ∧ nptm.allocator.allocTable.1 = none

theorem unmapped_of_not_walkable (hwf : nptm.Wf) {gpa : Nat} (hgpa : gpa < 2 ^ 48)
    (hnot : ¬nptm.Walkable gpa) : nptm.view gpa = none := by
  rw [view_eq hwf hgpa]
  cases hreached : nptm.reached 0 (page2mbCount gpa) with
  | none => rfl
  | some frame =>
      have hdescribed := hwf.sound (by omega) hreached
      refine absurd ⟨hreached.trans hdescribed.symm, fun h => ?_⟩ hnot
      rw [hdescribed] at h
      cases h

theorem described_of_not_walkable (hwf : nptm.Wf) {gpa : Nat} (hnot : ¬nptm.Walkable gpa)
    (hnone : nptm.findPte gpa = none) : ∃ d, nptm.findPde gpa = some d := by
  have hundescribed : nptm.described 0 (page2mbCount gpa) = none := by
    rw [described_zero hwf, hnone]
    rfl
  cases hpde : nptm.findPde gpa with
  | some d => exact ⟨d, rfl⟩
  | none =>
      have hundescribed₁ : nptm.described 1 (page1gbCount gpa) = none := by
        rw [described_one hwf, hpde]
        rfl
      refine absurd ⟨?_, fun _ => ?_⟩ hnot
      · rw [hundescribed, unreached_of_undescribed hwf (by omega) hundescribed]
      · rw [hundescribed₁, unreached_of_undescribed hwf (by omega) hundescribed₁]

/-- A call that relies on a table that is listed and not linked succeeds all the same. -/
theorem success_of_not_walkable (hwf : nptm.Wf) (call : PageMapCall)
    (hpsize : call.mapAttrib.psize = 0) (hnot : ¬nptm.Walkable call.gpa)
    (hfails : ¬nptm.FailsFirst call.gpa) : (call.run hostPat nptm).1 = .success := by
  unfold PageMapCall.run nvcSvmcSetPageMap describePte
  rw [if_pos hpsize]
  cases hfound : nptm.findPte call.gpa with
  | some t => rfl
  | none =>
      obtain ⟨d, hd⟩ := described_of_not_walkable hwf hnot hfound
      cases halloc : nptm.allocator.allocTable with
      | mk answer allocator =>
      cases answer with
      | none => exact absurd ⟨hfound, by rw [halloc]⟩ hfails
      | some frame =>
          rw [create4kb_of_some halloc hd]
          have hlast : ((nptm.addPte hostPat call.gpa frame d.frame).withAllocator
              allocator).pte.getLast? =
                some { phys := page4kbMult frame, gpaStart := page2mbBase call.gpa } :=
            List.getLast?_concat
          simp [hlast]

theorem psize_of_success (call : PageMapCall) (hsuccess : (call.run hostPat nptm).1 = .success) :
    call.mapAttrib.psize = 0 := by
  by_contra hpsize
  unfold PageMapCall.run nvcSvmcSetPageMap at hsuccess
  rw [if_neg hpsize] at hsuccess
  cases hsuccess

theorem not_failsFirst_of_success (call : PageMapCall)
    (hsuccess : (call.run hostPat nptm).1 = .success) : ¬nptm.FailsFirst call.gpa := by
  rintro ⟨hnone, halloc⟩
  have hfailed : nvcSvmcCreate4kbPageMap hostPat nptm call.gpa 0 {} =
      (.insufficientResources, nptm.withAllocator nptm.allocator.allocTable.2) :=
    create4kb_of_none (by rw [← halloc])
  have hpsize := psize_of_success call hsuccess
  unfold PageMapCall.run nvcSvmcSetPageMap describePte at hsuccess
  rw [if_pos hpsize, hnone, hfailed] at hsuccess
  cases hsuccess

theorem lt_of_page4kbCount_eq {address gpa : Nat} (hgpa : gpa < 2 ^ 48)
    (hpage : page4kbCount address = page4kbCount gpa) : address < 2 ^ 48 := by
  unfold page4kbCount at hpage
  omega

theorem walkable_congr {address gpa : Nat} (hpage : page4kbCount address = page4kbCount gpa) :
    nptm.Walkable address ↔ nptm.Walkable gpa := by
  have h2mb : page2mbCount address = page2mbCount gpa := by
    unfold page4kbCount at hpage
    unfold page2mbCount
    omega
  have h1gb : page1gbCount address = page1gbCount gpa := by
    unfold page4kbCount at hpage
    unfold page1gbCount
    omega
  unfold Walkable
  rw [h2mb, h1gb]

/-- After a success the page of the call is as asked, or not translated where its table is not
linked. -/
theorem view_of_success (hwf : nptm.Wf) (hcomplete : nptm.Complete 2)
    (hfresh : nptm.allocator.Fresh nptm.Used) (call : PageMapCall)
    (hsuccess : (call.run hostPat nptm).1 = .success) {address : Nat}
    (hpage : page4kbCount address = page4kbCount call.gpa) :
    (call.run hostPat nptm).2.view address =
      if nptm.Walkable call.gpa then mappedView call.hpa call.mapAttrib address else none := by
  have haddress := lt_of_page4kbCount_eq call.gpa_lt hpage
  rw [(PageMapCall.maps call hostPat hwf hcomplete hfresh).view address haddress]
  by_cases hwalkable : nptm.Walkable call.gpa
  · rw [if_pos ⟨hsuccess, hpage, hwalkable⟩, if_pos hwalkable]
  · rw [if_neg fun h => hwalkable h.2.2, if_neg hwalkable]
    exact unmapped_of_not_walkable hwf haddress fun h => hwalkable ((walkable_congr hpage).mp h)

theorem run_delivers (hwf : nptm.Wf) (hcomplete : nptm.Complete 2)
    (hfresh : nptm.allocator.Fresh nptm.Used) (call : PageMapCall) :
    Delivers nptm call (call.run hostPat nptm) ↔
      (call.mapAttrib.psize = 0 → call.mapAttrib.present = true →
        nptm.Walkable call.gpa ∨ nptm.FailsFirst call.gpa) := by
  constructor
  · intro hdelivers hpsize hpresent
    by_contra hnot
    rw [not_or] at hnot
    have hsuccess : (call.run hostPat nptm).1 = .success :=
      success_of_not_walkable hwf call hpsize hnot.1 hnot.2
    have hview := hdelivers.1 hsuccess call.gpa rfl
    rw [view_of_success hwf hcomplete hfresh call hsuccess rfl, if_neg hnot.1, mappedView,
      if_pos hpresent] at hview
    cases hview
  · intro hcondition
    refine ⟨fun hsuccess address hpage => ?_, fun hfailed address haddress => ?_⟩
    · rw [view_of_success hwf hcomplete hfresh call hsuccess hpage]
      by_cases hpresent : call.mapAttrib.present = true
      · rcases hcondition (psize_of_success call hsuccess) hpresent with hwalkable | hfails
        · rw [if_pos hwalkable]
        · exact absurd hfails (not_failsFirst_of_success call hsuccess)
      · rw [mappedView, if_neg hpresent, ite_self]
    · rw [(PageMapCall.maps call hostPat hwf hcomplete hfresh).view address haddress,
        if_neg fun h => hfailed h.1]

/-- In every run, whatever allocation failed before, a call delivers exactly when it does not rely on
a table that is listed and not linked. -/
theorem reached_delivers (hostPat : HostPat) {nptm : SvmCustomNptManager}
    (hreached : Reached hostPat nptm) (allocator : Allocator) (hfresh : allocator.Fresh nptm.Used)
    (call : PageMapCall) :
    Delivers nptm call (call.run hostPat (nptm.withAllocator allocator)) ↔
      (call.mapAttrib.psize = 0 → call.mapAttrib.present = true →
        nptm.Walkable call.gpa ∨ (nptm.withAllocator allocator).FailsFirst call.gpa) :=
  run_delivers (hreached.wf.1.withAllocator allocator) hreached.wf.2 hfresh call

/-- A VM whose root is page 1. -/
def newManager : SvmCustomNptManager := create 1 (fun _ _ => {}) (.ofFrames [])

theorem newManager_isNew : newManager.IsNew := ⟨1, fun _ _ => {}, .ofFrames [], by decide, rfl⟩

theorem newManager_fresh {frames : List Nat} (hdistinct : frames.Nodup)
    (hframes : ∀ frame ∈ frames, frame ≠ 1 ∧ frame < 2 ^ 40) :
    (Allocator.ofFrames frames).Fresh newManager.Used := by
  refine Allocator.fresh_ofFrames hdistinct fun frame hmem => ⟨?_, (hframes frame hmem).2⟩
  rintro ⟨level, r, hdescribed⟩
  exact (hframes frame hmem).1 (newManager_isNew.described hdescribed).2.2

/-- The first page of the guest, mapped to the host page 5 with every right. -/
def firstPage : PageMapCall where
  gpa := 0
  hpa := 0x5000
  mapAttrib := { present := true, write := true, execute := true, user := true }
  gpa_lt := by decide
  hpa_lt := by decide

theorem newManager_delivers :
    Delivers newManager firstPage
      (firstPage.run (fun _ => 0) (newManager.withAllocator (.ofFrames [2, 3, 4]))) :=
  (reached_delivers (fun _ => 0) (.start newManager_isNew) (.ofFrames [2, 3, 4])
    (newManager_fresh (by decide) (by decide)) firstPage).mpr fun _ _ => Or.inl (by decide)

/-- With pages for two tables only, the first call fails and leaves both listed; the second finds
them, succeeds, and maps nothing. -/
theorem not_forall_delivers :
    ¬∀ (hostPat : HostPat) (nptm : SvmCustomNptManager) (allocator : Allocator)
      (call : PageMapCall), Reached hostPat nptm → allocator.Fresh nptm.Used →
      Delivers nptm call (call.run hostPat (nptm.withAllocator allocator)) := by
  intro h
  have hfailed : Reached (fun _ => 0) _ := .step (.start newManager_isNew)
    ⟨firstPage, .ofFrames [2, 3], newManager_fresh (by decide) (by decide), rfl⟩
  have hview := (h _ _ (.ofFrames []) firstPage hfailed Allocator.fresh_nil).1 rfl 0 rfl
  exact absurd hview (by decide)

end SvmCustomNptManager

end NoirVisor
