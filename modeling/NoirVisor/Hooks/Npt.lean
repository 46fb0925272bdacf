import NoirVisor.Hooks.Ept
import NoirVisor.Npt.Entries
import NoirVisor.Npt.Run

/-!
# Stealth hooks on SVM

There are two nested page tables. In the primary table the hooked pages are not executable, in the
secondary table nothing else is, and there they map to their hooks. A processor changes the table
whenever it may not execute (`svm_core/svm_npt.c` and `nvc_svm_nested_pf_handler`).
-/

namespace NoirVisor

def NptEntry.forbidExecution (entry : NptEntry) : NptEntry := { entry with noExecute := true }

def NptEntry.permitExecution (entry : NptEntry) : NptEntry := { entry with noExecute := false }

def NptEntry.forbidHuge (entry : NptEntry) : NptEntry :=
  if entry.psize then entry.forbidExecution else entry

namespace NptManager

def hookPrimary (nptm : NptManager) (nhp : HookPage) : Outcome NptManager := do
  let (_, nptm) ← nvcNptUpdatePte nptm nhp.origPhys nhp.origPhys true true false true
  return nptm

def hookSecondary (nptm : NptManager) (nhp : HookPage) : Outcome NptManager := do
  let (_, nptm) ← nvcNptUpdatePte nptm nhp.hookPhys nhp.origPhys true true true true
  return nptm

/-- Set all necessary PDPTEs to NX. -/
def forbidPdptes (nptm : NptManager) : NptManager :=
  (List.range 512).foldl (fun sec i =>
    (List.range 512).foldl (fun sec j =>
      sec.modifyEntry (nptm.pdpteFrame (i * 512 + j)) ((i * 512 + j) % 512) NptEntry.forbidHuge) sec)
    nptm

/-- Set all PDEs, or all PTEs, to NX. -/
def forbidTables (nptm : NptManager) (tables : List NptDescriptor) : NptManager :=
  tables.foldl (fun sec d =>
    (List.range 512).foldl (fun sec i => sec.modifyEntry d.frame i NptEntry.forbidExecution) sec)
    nptm

def forbid (sec : NptManager) : NptManager :=
  let sec := sec.forbidPdptes
  let sec := sec.forbidTables sec.pde
  sec.forbidTables sec.pte

def selectPte (nptm : NptManager) (orig : Nat) : Outcome NptManager :=
  match nptm.findPte orig with
  | some t => do
      let (_, nptm) ← nvcNptUpdatePde nptm 0 t.gpaStart true true true false true
      return nptm.modifyEntry t.frame (pageEntryIndex64 (page4kbCount orig)) NptEntry.permitExecution
  | none => return nptm

def selectPde (nptm : NptManager) (orig : Nat) : Outcome NptManager :=
  match nptm.findPde orig with
  | some d => do
      let (_, nptm) ← nvcNptUpdatePdpte nptm 0 d.gpaStart true true true false true
      return nptm.modifyEntry d.frame (pageEntryIndex64 (page2mbCount orig)) NptEntry.permitExecution
  | none => return nptm

/-- Select PTEs and PDEs that should be X. -/
def selectHook (nptm : NptManager) (nhp : HookPage) : Outcome NptManager := do
  let nptm ← nptm.selectPte nhp.origPhys
  nptm.selectPde nhp.origPhys

def nvcNptBuildHookMapping (hookPages : List HookPage) (pri sec : NptManager) :
    Outcome (NptManager × NptManager) := do
  let pri ← hookPages.foldlM hookPrimary pri
  let sec ← hookPages.foldlM hookSecondary sec
  let sec ← hookPages.foldlM selectHook sec.forbid
  return (pri, sec)

end NptManager

/-- Pages at distinct addresses of the guest, each with a page of the host. -/
structure HookPage.Mappable (hookPages : List HookPage) : Prop where
  aligned : ∀ nhp ∈ hookPages, page4kbSize ∣ nhp.origPhys ∧ page4kbSize ∣ nhp.hookPhys
  distinct : hookPages.Pairwise (·.origPhys ≠ ·.origPhys)
  guest : ∀ nhp ∈ hookPages, nhp.origPhys < 2 ^ 48
  host : ∀ nhp ∈ hookPages, nhp.hookPhys < 2 ^ 52

theorem HookPage.Mappable.region_ne {hooks done left : List HookPage} {nhp : HookPage}
    (h : HookPage.Mappable hooks)
    (hhooks : hooks = done ++ nhp :: left) :
    ∀ a ∈ done, Radix.region 0 a.origPhys ≠ Radix.region 0 nhp.origPhys := by
  intro a ha hregion
  have hmem : nhp ∈ hooks := hhooks ▸ List.mem_append_right _ List.mem_cons_self
  have hmem' : a ∈ hooks := hhooks ▸ List.mem_append_left _ ha
  have hdistinct := h.distinct
  rw [hhooks, List.pairwise_append] at hdistinct
  apply hdistinct.2.2 a ha nhp List.mem_cons_self
  obtain ⟨m, hm⟩ := (h.aligned a hmem').1
  obtain ⟨n, hn⟩ := (h.aligned nhp hmem).1
  rw [NptManager.region_zero, NptManager.region_zero] at hregion
  simp only [page4kbCount, page4kbSize] at hregion hm hn
  omega

namespace NptManager

variable {nptm nptm' origin : NptManager} {used : Nat → Prop} {gpa address hpa : Nat}
  {d t : NptDescriptor} {nhp : HookPage} {done hooks : List HookPage} {target : HookPage → Nat}
  {r w x : Bool}

/-! ### What is left of the answers of the memory manager -/

theorem newPde_of_generous {n : Nat} (h : nptm.allocator.Generous (n + 1)) (gpa : Nat) :
    ∃ frame, nptm.newPde gpa = (.valid (nptm.pushPde gpa frame).1,
      { (nptm.pushPde gpa frame).2 with allocator := nptm.allocator.next }) ∧
      nptm.allocator.next.Generous n := by
  obtain ⟨hnonpg, hcontd⟩ := h 0 (Nat.succ_pos n)
  obtain ⟨frame, hframe⟩ := Option.ne_none_iff_exists'.mp hcontd
  refine ⟨frame, ?_, fun k hk => h (k + 1) (Nat.succ_lt_succ hk)⟩
  unfold newPde Allocator.noirAllocNonpgMemory Allocator.noirAllocContdMemory
  simp only [hnonpg, hframe]
  rfl

theorem modifyPdpte_of_lt {f : NptEntry → NptEntry} {k : Nat} (hk : k < 512 * 512) :
    nptm.modifyPdpte k f = .ok (nptm.modifyEntry (nptm.pdpteFrame k) (k % 512) f) :=
  if_pos hk

/-- The split of a page that is described. -/
theorem nvcNptSplitPdpte_of_found {alloc : Bool} (hpde : nptm.findPde gpa = some d)
    (hgpa : page1gbCount gpa < 512 * 512) :
    nvcNptSplitPdpte nptm gpa true alloc = .ok (.valid d, nptm.linkPdpte gpa d) := by
  unfold nvcNptSplitPdpte
  rw [hpde]
  simp only [if_true, Pointer.deref, Outcome.ok_bind, modifyPdpte_of_lt hgpa]
  rfl

theorem nvcNptSplitPdpte_returns {n : Nat} (h : nptm.allocator.Generous (n + 1))
    (hgpa : page1gbCount gpa < 512 * 512) :
    ∃ d nptm', nvcNptSplitPdpte nptm gpa true true = .ok (.valid d, nptm') ∧
      nptm'.findPde gpa = some d ∧ nptm'.allocator.Generous n := by
  cases hfind : nptm.findPde gpa with
  | some d =>
      exact ⟨d, _, nvcNptSplitPdpte_of_found hfind hgpa, hfind, fun k hk => h k (Nat.lt_succ_of_lt hk)⟩
  | none =>
      obtain ⟨frame, hnew, hgenerous⟩ := newPde_of_generous h gpa
      have hsplit : nvcNptSplitPdpte nptm gpa true true = .ok (.valid (nptm.pushPde gpa frame).1,
          NptManager.linkPdpte { (nptm.pushPde gpa frame).2 with allocator := nptm.allocator.next } gpa
            (nptm.pushPde gpa frame).1) := by
        unfold nvcNptSplitPdpte
        rw [hfind]
        simp only [if_true, hnew, Pointer.deref, Outcome.ok_bind, modifyPdpte_of_lt hgpa]
        rfl
      exact ⟨_, _, hsplit, findPde_pushPde hfind, hgenerous⟩

/-- The tables above a page that is described are described. -/
theorem nvcNptSplitPde_of_found {alloc : Bool} (hpde : nptm.findPde gpa = some d)
    (hpte : nptm.findPte gpa = some t) (hgpa : page1gbCount gpa < 512 * 512) :
    nvcNptSplitPde nptm gpa true alloc =
      .ok (.valid t, (nptm.linkPdpte gpa d).linkPde gpa d t) := by
  unfold nvcNptSplitPde
  rw [hpte]
  simp only [if_true, pure, Except.pure, bind, Except.bind, nvcNptSplitPdpte_of_found hpde hgpa,
    Pointer.isNull, Bool.false_eq_true, if_false, Pointer.deref]
  rfl

theorem nvcNptSplitPde_returns {n : Nat} (hwf : nptm.Wf) (h : nptm.allocator.Generous (n + 2))
    (hgpa : page1gbCount gpa < 512 * 512) :
    ∃ t nptm', nvcNptSplitPde nptm gpa true true = .ok (.valid t, nptm') ∧
      nptm'.allocator.Generous n := by
  cases hfind : nptm.findPte gpa with
  | some t =>
      have hpde : nptm.findPde gpa ≠ none := by
        intro hnone
        rw [hwf.findPte_of_none hnone] at hfind
        exact (nomatch hfind)
      obtain ⟨d, hd⟩ := Option.ne_none_iff_exists'.mp hpde
      exact ⟨t, _, nvcNptSplitPde_of_found hd hfind hgpa, fun k hk => h k (by omega)⟩
  | none =>
      obtain ⟨hnonpg, hcontd⟩ := h 0 (Nat.succ_pos _)
      obtain ⟨frame, hframe⟩ := Option.ne_none_iff_exists'.mp hcontd
      have hgenerous : nptm.allocator.next.Generous (n + 1) :=
        fun k hk => h (k + 1) (Nat.succ_lt_succ hk)
      have hupper : ∃ d linked, nvcNptSplitPdpte { nptm with allocator := nptm.allocator.next } gpa
          true true = .ok (.valid d, linked) ∧ linked.findPde gpa = some d ∧
          linked.allocator.Generous n := nvcNptSplitPdpte_returns hgenerous hgpa
      obtain ⟨d, linked, hsplit, hd, hleft⟩ := hupper
      have hnew : nptm.newPte gpa true =
          .ok (.valid (linked.pushPte gpa frame).1, (linked.pushPte gpa frame).2) := by
        unfold newPte Allocator.noirAllocNonpgMemory Allocator.noirAllocContdMemory
        simp only [hnonpg, hframe]
        unfold Allocator.next at hsplit
        rw [hsplit, Outcome.ok_bind]
        rfl
      have hd' : (linked.pushPte gpa frame).2.findPde gpa = some d := hd
      have hsplit' : nvcNptSplitPde nptm gpa true true =
          .ok (.valid (linked.pushPte gpa frame).1,
            ((linked.pushPte gpa frame).2.linkPdpte gpa d).linkPde gpa d
              (linked.pushPte gpa frame).1) := by
        unfold nvcNptSplitPde
        rw [hfind]
        simp only [if_true, hnew, Outcome.ok_bind, nvcNptSplitPdpte_of_found hd' hgpa,
          Pointer.isNull, Bool.false_eq_true, if_false, Pointer.deref]
        rfl
      exact ⟨_, _, hsplit', hleft⟩

theorem nvcNptUpdatePte_returns {n : Nat} (hwf : nptm.Wf) (h : nptm.allocator.Generous (n + 2))
    (hgpa : page1gbCount gpa < 512 * 512) :
    ∃ nptm', nvcNptUpdatePte nptm hpa gpa r w x true = .ok (true, nptm') ∧
      nptm'.allocator.Generous n := by
  obtain ⟨t, split, hsplit, hleft⟩ := nvcNptSplitPde_returns hwf h hgpa
  refine ⟨split.modifyEntry t.frame (pageEntryIndex64 (page4kbCount gpa)) (pagePte hpa r w x), ?_,
    hleft⟩
  unfold nvcNptUpdatePte
  rw [hsplit, Outcome.ok_bind]
  rfl

/-! ### Updates of the hooked pages -/

/-- What an entry is when the pages of `done` have been mapped to their targets. The regions above a
hooked page are split, and every other page is mapped to itself. -/
structure HookEntry (done : List HookPage) (target : HookPage → Nat) (x : Bool) (level r i : Nat)
    (entry : NptEntry) : Prop where
  granted : entry.present = true ∧ entry.write = true ∧ entry.user = true
  upper : level ≠ 0 → entry.noExecute = false
  large : level ≠ 0 → entry.psize = true → entry.pageBase level = 512 * r + i
  split : level ≠ 0 → ∀ nhp ∈ done, Radix.region level nhp.origPhys = 512 * r + i →
    entry.psize = false
  hooked : level = 0 → ∀ nhp ∈ done, Radix.region 0 nhp.origPhys = 512 * r + i →
    entry.base = page4kbCount (target nhp) ∧ entry.noExecute = !x
  other : level = 0 → (∀ nhp ∈ done, Radix.region 0 nhp.origPhys ≠ 512 * r + i) →
    entry.base = 512 * r + i ∧ entry.noExecute = false

theorem HookEntry.toTable {level i : Nat} {r : Nat} {entry : NptEntry} (hlevel : level ≠ 0)
    (h : HookEntry done target x level r i entry) (phys : Nat) :
    HookEntry done target x level r i (entry.toTable phys) where
  granted := h.granted
  upper := h.upper
  large _ hpsize := (nomatch hpsize)
  split _ _ _ _ := rfl
  hooked hzero := absurd hzero hlevel
  other hzero := absurd hzero hlevel

/-- A manager whose tables map the pages of `done`. -/
structure Hooked (origin : NptManager) (done : List HookPage) (target : HookPage → Nat) (x : Bool)
    (nptm : NptManager) : Prop where
  ready : ∃ used, nptm.Ready used
  ncr3 : nptm.ncr3 = origin.ncr3
  entries : nptm.Entries (HookEntry done target x)
  described : ∀ nhp ∈ done, ∃ t, nptm.findPte nhp.origPhys = some t

theorem Built.hooked (h : nptm.Built) (hfresh : nptm.allocator.Fresh nptm.Used) :
    Hooked nptm [] target x nptm where
  ready := ⟨nptm.Used, h.wf, hfresh, fun _ => id⟩
  ncr3 := rfl
  entries level r frame i hframe hi := by
    rcases h.layout hframe with ⟨rfl, hr, rfl⟩ | ⟨rfl, rfl, rfl⟩
    · rw [h.pdpte hr]
      refine ⟨⟨rfl, rfl, rfl⟩, fun _ => rfl, fun _ _ => ?_, fun _ _ hmem => absurd hmem List.not_mem_nil,
        by rintro ⟨⟩, by rintro ⟨⟩⟩
      simp only [identityPdpte, NptEntry.setHugePageBase, NptEntry.pageBase]
      omega
    · rw [h.pml4e]
      exact ⟨⟨rfl, rfl, rfl⟩, fun _ => rfl, by rintro _ ⟨⟩, fun _ _ hmem => absurd hmem List.not_mem_nil,
        by rintro ⟨⟩, by rintro ⟨⟩⟩
  described a ha := absurd ha List.not_mem_nil

/-- No page that is mapped already is in a region that is not described. -/
theorem Hooked.not_described (h : Hooked origin done target x nptm) {a : HookPage} (ha : a ∈ done) :
    (page2mbCount a.origPhys = page2mbCount gpa → nptm.findPte gpa ≠ none) ∧
      (page1gbCount a.origPhys = page1gbCount gpa → nptm.findPde gpa ≠ none) := by
  obtain ⟨used, hready⟩ := h.ready
  obtain ⟨t, ht⟩ := h.described a ha
  refine ⟨fun hpage hnone => ?_, fun hpage hnone => ?_⟩
  · have hsame : nptm.findPte a.origPhys = nptm.findPte gpa :=
      Radix.covering_congr (by decide) hready.wf.pteAligned hpage
    rw [hsame, hnone] at ht
    exact (nomatch ht)
  · have hsame : nptm.findPde a.origPhys = nptm.findPde gpa :=
      Radix.covering_congr (by decide) hready.wf.pdeAligned hpage
    rw [hready.wf.findPte_of_none (hsame.trans hnone)] at ht
    exact (nomatch ht)

theorem Hooked.split (h : Hooked origin done target x nptm) {split : NptManager} (hwf : nptm.Wf)
    (hsplit : SplitsPde nptm gpa d t split) : split.Entries (HookEntry done target x) := by
  have hgpa := hsplit.inRange
  refine hsplit.entries_of hwf (fun level r i entry phys hlevel hentry => hentry.toTable hlevel phys)
    (fun hnone i hi => ⟨⟨rfl, rfl, rfl⟩, fun _ => rfl, fun _ _ => ?_, fun _ a ha hregion => ?_, nofun,
      nofun⟩)
    (fun hnone i hi => ⟨⟨rfl, rfl, rfl⟩, fun hzero => absurd rfl hzero, fun hzero => absurd rfl hzero,
      fun hzero => absurd rfl hzero, fun _ a ha hregion => ?_, fun _ _ => ⟨?_, rfl⟩⟩) h.entries
  · simp only [page1gbCount] at hgpa
    simp only [splitLargeEntry, NptEntry.setLargePageBase, NptEntry.pageBase, page1gbCount]
    omega
  · refine absurd hnone ((h.not_described ha).2 ?_)
    rw [region_one] at hregion
    simp only [page1gbCount, page2mbCount] at hregion ⊢
    omega
  · refine absurd hnone ((h.not_described ha).1 ?_)
    rw [region_zero] at hregion
    simp only [page4kbCount, page2mbCount] at hregion ⊢
    omega
  · simp only [page1gbCount] at hgpa
    simp only [splitPageEntry, NptEntry.setBase, page2mbCount]
    omega

theorem layout_level {level r frame : Nat} (hframe : nptm.layout level r = some frame) :
    level = 0 ∨ level = 1 ∨ level = 2 ∨ level = 3 := by
  by_contra hlevel
  obtain ⟨k, rfl⟩ := Nat.exists_eq_add_of_le (show 4 ≤ level by omega)
  rw [Nat.add_comm] at hframe
  exact (nomatch hframe)

/-- The entries above a page that was split are no leaves. -/
theorem SplitsPde.psize {split : NptManager} (hwf : nptm.Wf) (h : SplitsPde nptm gpa d t split)
    {level r frame i : Nat} (hframe : split.layout level r = some frame) (hi : i < 512)
    (hlevel : level ≠ 0) (hregion : Radix.region level gpa = 512 * r + i) :
    (split.memory frame i).psize = false := by
  rcases layout_level hframe with rfl | rfl | rfl | rfl
  · exact absurd rfl hlevel
  · rw [region_one] at hregion
    have hr : r = page1gbCount gpa := by
      simp only [page2mbCount, page1gbCount] at hregion ⊢
      omega
    have hindex : i = pageEntryIndex64 (page2mbCount gpa) := by
      unfold pageEntryIndex64
      omega
    obtain rfl : frame = d.frame := by
      rw [hr, h.layout_pde hwf] at hframe
      exact (Option.some.inj hframe).symm
    obtain ⟨linked, -, hpde⟩ := h.pdeOf hwf
    rw [hindex]
    exact congrArg NptEntry.psize hpde
  · rw [region_two] at hregion
    have hpdpte : split.layout 2 (page1gbCount gpa / 512) = _ := layout_pdpte h.inRange
    have hr : r = page1gbCount gpa / 512 := by omega
    have hindex : i = page1gbCount gpa % 512 := by omega
    rw [hr, hpdpte, Option.some.injEq] at hframe
    rw [← hframe, hindex]
    exact congrArg NptEntry.psize (h.pdpte hwf)
  · simp only [layout, Option.ite_none_right_eq_some, Option.some.injEq] at hframe
    rw [← hframe.2, (h.wf hwf).pml4e i hi]
    rfl

theorem SplitsPde.findPte_of_some {split : NptManager} {t' : NptDescriptor}
    (h : SplitsPde nptm gpa d t split) (hfound : nptm.findPte address = some t') :
    split.findPte address = some t' := by
  obtain ⟨linked, described, hsplit, hdescribes, rfl⟩ := h
  obtain ⟨-, above, habove, rfl⟩ := hsplit
  apply hdescribes.findPte_of_some
  change above.findPte address = some t'
  rw [NptManager.findPte, habove.fixed.2.2]
  exact hfound

/-- The entry of a hooked page is written where its regions have been split. -/
theorem HookEntry.append {split : NptManager} (hwf : nptm.Wf)
    (hsplit : SplitsPde nptm nhp.origPhys d t split) {level r frame i : Nat}
    (hframe : split.layout level r = some frame) (hi : i < 512)
    (hother : level = 0 → Radix.region 0 nhp.origPhys ≠ 512 * r + i)
    (h : HookEntry done target x level r i (split.memory frame i)) :
    HookEntry (done ++ [nhp]) target x level r i (split.memory frame i) where
  granted := h.granted
  upper := h.upper
  large := h.large
  split hlevel a ha hregion := by
    rcases List.mem_append.mp ha with hdone | hlast
    · exact h.split hlevel a hdone hregion
    · obtain rfl := List.mem_singleton.mp hlast
      exact hsplit.psize hwf hframe hi hlevel hregion
  hooked hzero a ha hregion := by
    rcases List.mem_append.mp ha with hdone | hlast
    · exact h.hooked hzero a hdone hregion
    · obtain rfl := List.mem_singleton.mp hlast
      exact absurd hregion (hother hzero)
  other hzero hne := h.other hzero fun a ha => hne a (List.mem_append_left _ ha)

theorem Hooked.updatePte {b : Bool} (h : Hooked origin done target x nptm)
    (hdistinct : ∀ a ∈ done, Radix.region 0 a.origPhys ≠ Radix.region 0 nhp.origPhys)
    (htarget : target nhp < 2 ^ 52)
    (hrun : nvcNptUpdatePte nptm (target nhp) nhp.origPhys true true x true = .ok (b, nptm')) :
    Hooked origin (done ++ [nhp]) target x nptm' := by
  obtain ⟨used, hready⟩ := h.ready
  obtain ⟨-, ⟨-, used', -, hready'⟩, d, t, split, hsplit, rfl⟩ := nvcNptUpdatePte_ok hready hrun
  have hwf := hready.wf
  have ht := hsplit.layout_pte hwf
  have hentries := h.split hwf hsplit
  refine ⟨⟨used', hready'⟩, ?_, fun level r frame i hframe hi => ?_, fun a ha => ?_⟩
  · obtain ⟨linked, described, ⟨-, above, habove, rfl⟩, hdescribes, rfl⟩ := hsplit
    exact hdescribes.fixed.1.trans (habove.fixed.1.trans h.ncr3)
  · by_cases hwritten : frame = t.frame ∧ i = pageEntryIndex64 (page4kbCount nhp.origPhys)
    · obtain ⟨rfl, rfl⟩ := hwritten
      obtain ⟨rfl, rfl⟩ := (hsplit.wf hwf).disjoint _ _ _ _ _ hframe ht
      have hentry := Radix.Frames.set_self split.memory t.frame
        (pageEntryIndex64 (page4kbCount nhp.origPhys))
        (pagePte (target nhp) true true x
          (split.memory t.frame (pageEntryIndex64 (page4kbCount nhp.origPhys))))
      have hold := hentries 0 _ _ _ ht hi
      change HookEntry _ _ _ _ _ _ (split.memory.set _ _ _ _ _)
      rw [hentry]
      refine ⟨⟨rfl, rfl, hold.granted.2.2⟩, nofun, nofun, nofun, fun _ a ha hregion => ?_,
        fun _ hne => ?_⟩
      · rw [pte_region] at hregion
        rcases List.mem_append.mp ha with hdone | hlast
        · exact absurd hregion (hdistinct a hdone)
        · obtain rfl := List.mem_singleton.mp hlast
          refine ⟨?_, rfl⟩
          simp only [pagePte, NptEntry.setBase, page4kbCount]
          omega
      · refine absurd ?_ (hne nhp (List.mem_append_right _ List.mem_cons_self))
        rw [pte_region, region_zero]
    · change HookEntry _ _ _ _ _ _ (split.memory.set _ _ _ frame i)
      rw [Radix.Frames.set_of_ne hwritten]
      refine HookEntry.append hwf hsplit hframe hi (fun hzero hregion => hwritten ?_)
        (hentries level r frame i hframe hi)
      subst hzero
      rw [region_zero] at hregion
      have hr : r = page2mbCount nhp.origPhys := by
        simp only [page4kbCount, page2mbCount] at hregion ⊢
        omega
      rw [hr] at hframe
      have hsame : split.layout 0 (page2mbCount nhp.origPhys) = some frame := hframe
      rw [ht] at hsame
      refine ⟨(Option.some.inj hsame).symm, ?_⟩
      unfold pageEntryIndex64
      omega
  · change ∃ t, split.findPte a.origPhys = some t
    rcases List.mem_append.mp ha with hdone | hlast
    · obtain ⟨t', ht'⟩ := h.described a hdone
      exact ⟨t', hsplit.findPte_of_some ht'⟩
    · obtain rfl := List.mem_singleton.mp hlast
      rw [layout_zero (hsplit.wf hwf).pteAligned] at ht
      obtain ⟨t', ht', -⟩ := Option.map_eq_some_iff.mp ht
      exact ⟨t', ht'⟩

/-- A loop of updates over the hooked pages. -/
theorem exists_hooked {step : NptManager → HookPage → Outcome NptManager}
    (hstep : ∀ nptm nhp, step nptm nhp = do
      let (_, nptm) ← nvcNptUpdatePte nptm (target nhp) nhp.origPhys true true x true
      return nptm)
    (hbuilt : origin.Built) (hfresh : origin.allocator.Fresh origin.Used)
    (hgenerous : origin.allocator.Generous (2 * hooks.length)) (hpages : HookPage.Mappable hooks)
    (htarget : ∀ nhp ∈ hooks, target nhp < 2 ^ 52) :
    ∃ nptm, hooks.foldlM step origin = .ok nptm ∧ Hooked origin hooks target x nptm := by
  have hloop : ∃ nptm, hooks.foldlM step origin = .ok nptm ∧ Hooked origin hooks target x nptm ∧
      nptm.allocator.Generous (2 * (hooks.length - hooks.length)) := by
    refine foldlM_prefix (P := fun done nptm => Hooked origin done target x nptm ∧
      nptm.allocator.Generous (2 * (hooks.length - done.length))) ?_
      ⟨hbuilt.hooked hfresh, hgenerous⟩
    intro done nhp left nptm hhooks hdone
    obtain ⟨hhooked, hleft⟩ := hdone
    have hmem : nhp ∈ hooks := hhooks ▸ List.mem_append_right _ List.mem_cons_self
    have hlength : hooks.length = done.length + (left.length + 1) := by
      rw [hhooks, List.length_append, List.length_cons]
    rw [show 2 * (hooks.length - done.length) = 2 * left.length + 2 by omega] at hleft
    obtain ⟨used, hready⟩ := hhooked.ready
    have hupdate : ∃ nptm', nvcNptUpdatePte nptm (target nhp) nhp.origPhys true true x true =
        .ok (true, nptm') ∧ nptm'.allocator.Generous (2 * left.length) :=
      nvcNptUpdatePte_returns hready.wf hleft (page1gbCount_lt (hpages.guest nhp hmem))
    obtain ⟨nptm', hrun, hleft'⟩ := hupdate
    refine ⟨nptm', ?_, ?_, ?_⟩
    · rw [hstep, hrun]
      rfl
    · exact hhooked.updatePte (hpages.region_ne hhooks) (htarget nhp hmem) hrun
    · rw [List.length_append, List.length_singleton,
        show 2 * (hooks.length - (done.length + 1)) = 2 * left.length by omega]
      exact hleft'
  obtain ⟨nptm, hrun, hhooked, -⟩ := hloop
  exact ⟨nptm, hrun, hhooked⟩

/-! ### Entries made not executable -/

def sweep (nptm : NptManager) (f : NptEntry → NptEntry) (places : List (Nat × Nat)) : NptManager :=
  places.foldl (fun nptm place => nptm.modifyEntry place.1 place.2 f) nptm

theorem sweep_eq {f : NptEntry → NptEntry} (hidem : ∀ entry, f (f entry) = f entry)
    (places : List (Nat × Nat)) : nptm.sweep f places =
      { nptm with memory := fun frame i =>
          if (frame, i) ∈ places then f (nptm.memory frame i) else nptm.memory frame i } := by
  induction places generalizing nptm with
  | nil => rfl
  | cons place places ih =>
      change (nptm.modifyEntry place.1 place.2 f).sweep f places = _
      rw [ih]
      unfold modifyEntry
      dsimp only
      congr 1
      funext frame i
      by_cases hplace : (frame, i) = place
      · subst hplace
        rw [Radix.Frames.set_self, hidem, ite_self, if_pos List.mem_cons_self]
      · rw [Radix.Frames.set_of_ne fun h => hplace (Prod.ext h.1 h.2)]
        by_cases hmem : (frame, i) ∈ places
        · rw [if_pos hmem, if_pos (List.mem_cons_of_mem _ hmem)]
        · rw [if_neg hmem, if_neg fun h => (List.mem_cons.mp h).elim hplace hmem]

/-- Nothing but the memory has changed. -/
theorem sweep_same {f : NptEntry → NptEntry} (hidem : ∀ entry, f (f entry) = f entry)
    (places : List (Nat × Nat)) :
    nptm.sweep f places = { nptm with memory := (nptm.sweep f places).memory } := by
  rw [sweep_eq hidem]

theorem forbidPdptes_eq : nptm.forbidPdptes = nptm.sweep NptEntry.forbidHuge
    ((List.range 512).flatMap fun i => (List.range 512).map fun j =>
      (nptm.pdpteFrame (i * 512 + j), (i * 512 + j) % 512)) := by
  unfold forbidPdptes sweep
  rw [List.foldl_flatMap]
  simp only [List.foldl_map]

theorem forbidTables_eq (tables : List NptDescriptor) :
    nptm.forbidTables tables = nptm.sweep NptEntry.forbidExecution
      (tables.flatMap fun d => (List.range 512).map fun i => (d.frame, i)) := by
  unfold forbidTables sweep
  rw [List.foldl_flatMap]
  simp only [List.foldl_map]

/-- What changes the permission to execute alone. -/
structure Forbids (level : Nat) (f : NptEntry → NptEntry) : Prop where
  idem : ∀ entry, f (f entry) = f entry
  present : ∀ entry, (f entry).present = entry.present
  write : ∀ entry, (f entry).write = entry.write
  user : ∀ entry, (f entry).user = entry.user
  psize : ∀ entry, (f entry).psize = entry.psize
  base : ∀ entry, (f entry).base = entry.base
  forbidden : ∀ entry, level = 0 ∨ entry.psize = true → (f entry).noExecute = true

theorem forbids_forbidExecution (level : Nat) : Forbids level NptEntry.forbidExecution :=
  ⟨fun _ => rfl, fun _ => rfl, fun _ => rfl, fun _ => rfl, fun _ => rfl, fun _ => rfl,
    fun _ _ => rfl⟩

theorem forbids_forbidHuge : Forbids 2 NptEntry.forbidHuge := by
  have hforbid : NptEntry.forbidHuge =
      fun entry => { entry with noExecute := entry.psize || entry.noExecute } := by
    funext entry
    unfold NptEntry.forbidHuge NptEntry.forbidExecution
    cases hpsize : entry.psize with
    | true => rfl
    | false =>
        rw [if_neg Bool.false_ne_true, Bool.false_or]
        rw [← hpsize]
  rw [hforbid]
  refine ⟨fun entry => ?_, fun _ => rfl, fun _ => rfl, fun _ => rfl, fun _ => rfl, fun _ => rfl,
    fun entry hentry => ?_⟩
  · dsimp only
    rw [← Bool.or_assoc, Bool.or_self]
  · dsimp only
    rw [hentry.resolve_left (by decide), Bool.true_or]

/-- The places of the entries of one level. -/
def PlacesOf (nptm : NptManager) (level : Nat) (places : List (Nat × Nat)) : Prop :=
  ∀ l r frame i, nptm.layout l r = some frame → i < 512 → ((frame, i) ∈ places ↔ l = level)

theorem placesOf_pdptes (hwf : nptm.Wf) : nptm.PlacesOf 2
    ((List.range 512).flatMap fun i => (List.range 512).map fun j =>
      (nptm.pdpteFrame (i * 512 + j), (i * 512 + j) % 512)) := by
  intro l r frame k hframe hk
  rw [List.mem_flatMap]
  constructor
  · rintro ⟨i, hi, hmem⟩
    obtain ⟨j, hj, hplace⟩ := List.mem_map.mp hmem
    rw [List.mem_range] at hi hj
    have hpdpte : nptm.layout 2 i = some frame := by
      rw [← (Prod.mk.inj hplace).1]
      simp only [layout, pdpteFrame]
      rw [if_pos hi, show (i * 512 + j) / 512 = i by omega]
    exact (hwf.disjoint _ _ _ _ _ hframe hpdpte).1
  · rintro rfl
    simp only [layout, Option.ite_none_right_eq_some, Option.some.injEq] at hframe
    refine ⟨r, List.mem_range.mpr hframe.1, List.mem_map.mpr ⟨k, List.mem_range.mpr hk, ?_⟩⟩
    rw [show (r * 512 + k) % 512 = k by omega, ← hframe.2, pdpteFrame,
      show (r * 512 + k) / 512 = r by omega]

theorem placesOf_tables {tables : List NptDescriptor} {level : Nat}
    (htables : ∀ d ∈ tables, ∃ r, nptm.layout level r = some d.frame)
    (hlisted : ∀ r frame, nptm.layout level r = some frame → ∃ d ∈ tables, d.frame = frame)
    (hwf : nptm.Wf) : nptm.PlacesOf level
      (tables.flatMap fun d => (List.range 512).map fun i => (d.frame, i)) := by
  intro l r frame k hframe hk
  rw [List.mem_flatMap]
  constructor
  · rintro ⟨d, hd, hmem⟩
    obtain ⟨j, -, hplace⟩ := List.mem_map.mp hmem
    obtain ⟨r', hr'⟩ := htables d hd
    rw [(Prod.mk.inj hplace).1] at hr'
    exact (hwf.disjoint _ _ _ _ _ hframe hr').1
  · rintro rfl
    obtain ⟨d, hd, rfl⟩ := hlisted r frame hframe
    exact ⟨d, hd, List.mem_map.mpr ⟨k, List.mem_range.mpr hk, rfl⟩⟩

theorem placesOf_pde (hwf : nptm.Wf) : nptm.PlacesOf 1
    (nptm.pde.flatMap fun d => (List.range 512).map fun i => (d.frame, i)) := by
  refine placesOf_tables (fun d hd => ⟨_, hwf.pdeListed d hd⟩) (fun r frame hframe => ?_) hwf
  obtain ⟨d, hd, hframe⟩ := Option.map_eq_some_iff.mp hframe
  exact ⟨d, List.mem_of_find?_eq_some hd, hframe⟩

theorem placesOf_pte (hwf : nptm.Wf) : nptm.PlacesOf 0
    (nptm.pte.flatMap fun d => (List.range 512).map fun i => (d.frame, i)) := by
  refine placesOf_tables (fun t ht => ⟨_, hwf.pteListed t ht⟩) (fun r frame hframe => ?_) hwf
  obtain ⟨t, ht, hframe⟩ := Option.map_eq_some_iff.mp hframe
  exact ⟨t, List.mem_of_find?_eq_some ht, hframe⟩

section Sweep

variable {f : NptEntry → NptEntry} {level : Nat} {places : List (Nat × Nat)}

theorem memory_sweep (hforbids : Forbids level f) (hplaces : nptm.PlacesOf level places)
    {l r frame i : Nat} (hframe : nptm.layout l r = some frame) (hi : i < 512) :
    (nptm.sweep f places).memory frame i =
      if l = level then f (nptm.memory frame i) else nptm.memory frame i := by
  have hmem := hplaces l r frame i hframe hi
  rw [sweep_eq hforbids.idem]
  by_cases hlevel : l = level
  · exact (if_pos (hmem.mpr hlevel)).trans (if_pos hlevel).symm
  · exact (if_neg fun h => hlevel (hmem.mp h)).trans (if_neg hlevel).symm

theorem Wf.sweep (hwf : nptm.Wf) (hforbids : Forbids level f)
    (hplaces : nptm.PlacesOf level places) (hlevel : level ≠ 3) : (nptm.sweep f places).Wf := by
  have hlayout : (nptm.sweep f places).layout = nptm.layout := by rw [sweep_eq hforbids.idem]; rfl
  have hpdpt : (nptm.sweep f places).pdpt = nptm.pdpt := by rw [sweep_eq hforbids.idem]
  have hncr3 : (nptm.sweep f places).ncr3 = nptm.ncr3 := by rw [sweep_eq hforbids.idem]
  have hpde : (nptm.sweep f places).pde = nptm.pde := by rw [sweep_eq hforbids.idem]
  have hpte : (nptm.sweep f places).pte = nptm.pte := by rw [sweep_eq hforbids.idem]
  refine ⟨fun i hi => ?_, ?_, ?_, ?_, fun l r frame i hframe hi htable => ?_, ?_, ?_, ?_, ?_, ?_⟩
  · have hroot : nptm.layout 3 0 = some (page4kbCount nptm.ncr3) := rfl
    rw [hncr3, hpdpt, memory_sweep hforbids hplaces hroot hi, if_neg hlevel.symm]
    exact hwf.pml4e i hi
  · rw [hpde]
    exact hwf.pdeAligned
  · rw [hpte]
    exact hwf.pteAligned
  · rw [hlayout]
    exact hwf.disjoint
  · rw [hlayout] at hframe ⊢
    rw [memory_sweep hforbids hplaces hframe hi] at htable ⊢
    by_cases hswept : l + 1 = level
    · rw [if_pos hswept] at htable ⊢
      unfold Radix.Format.isTable nptFormat at htable
      dsimp only at htable
      rw [hforbids.psize, hforbids.present] at htable
      exact (hwf.linked l r frame i hframe hi htable).trans (congrArg some (hforbids.base _).symm)
    · rw [if_neg hswept] at htable ⊢
      exact hwf.linked l r frame i hframe hi htable
  · rw [hlayout]
    exact hwf.inRange
  · rw [hlayout]
    exact hwf.described
  · rw [hlayout, hpde]
    exact hwf.pdeListed
  · rw [hlayout, hpte]
    exact hwf.pteListed
  · rw [hpdpt]
    exact hwf.pdptAligned

end Sweep

/-- What an entry is when the levels of `swept` have been made not executable and the entries of
`opened` executable again. -/
structure SelectEntry (hooks : List HookPage) (swept : Nat → Prop) (opened : Nat → Nat → Prop)
    (level r i : Nat) (entry : NptEntry) : Prop where
  granted : entry.present = true ∧ entry.write = true ∧ entry.user = true
  split : level ≠ 0 → ∀ nhp ∈ hooks, Radix.region level nhp.origPhys = 512 * r + i →
    entry.psize = false
  hooked : level = 0 → ∀ nhp ∈ hooks, Radix.region 0 nhp.origPhys = 512 * r + i →
    entry.base = page4kbCount nhp.hookPhys
  closed : swept level → (level = 0 → ∀ nhp ∈ hooks, Radix.region 0 nhp.origPhys ≠ 512 * r + i) →
    level = 0 ∨ entry.psize = true → entry.noExecute = true
  opened : opened level (512 * r + i) → entry.noExecute = false

theorem HookEntry.select {level r i : Nat} {entry : NptEntry}
    (h : HookEntry hooks HookPage.hookPhys x level r i entry) :
    SelectEntry hooks (fun _ => False) (fun _ _ => False) level r i entry :=
  ⟨h.granted, h.split, fun hzero nhp hnhp hregion => (h.hooked hzero nhp hnhp hregion).1,
    fun hswept => hswept.elim, fun hopened => hopened.elim⟩

theorem Entries.sweep {swept : Nat → Prop} {f : NptEntry → NptEntry} {level : Nat}
    {places : List (Nat × Nat)}
    (hentries : nptm.Entries (SelectEntry hooks swept fun _ _ => False))
    (hforbids : Forbids level f) (hplaces : nptm.PlacesOf level places) :
    (nptm.sweep f places).Entries
      (SelectEntry hooks (fun l => swept l ∨ l = level) fun _ _ => False) := by
  intro l r frame i hframe hi
  rw [sweep_eq hforbids.idem] at hframe
  have hframe : nptm.layout l r = some frame := hframe
  have hentry := hentries l r frame i hframe hi
  rw [memory_sweep hforbids hplaces hframe hi]
  by_cases hlevel : l = level
  · rw [if_pos hlevel]
    refine ⟨?_, fun hne nhp hnhp hregion => ?_, fun hzero nhp hnhp hregion => ?_,
      fun _ _ hleaf => ?_, fun hopened => hopened.elim⟩
    · rw [hforbids.present, hforbids.write, hforbids.user]
      exact hentry.granted
    · rw [hforbids.psize]
      exact hentry.split hne nhp hnhp hregion
    · rw [hforbids.base]
      exact hentry.hooked hzero nhp hnhp hregion
    · rw [hforbids.psize, hlevel] at hleaf
      exact hforbids.forbidden _ hleaf
  · rw [if_neg hlevel]
    exact ⟨hentry.granted, hentry.split, hentry.hooked,
      fun hswept => hentry.closed (hswept.resolve_right hlevel), fun hopened => hopened.elim⟩

theorem forbid_same : nptm.forbid = { nptm with memory := nptm.forbid.memory } := by
  have htables : ∀ (sec : NptManager) tables,
      sec.forbidTables tables = { sec with memory := (sec.forbidTables tables).memory } := by
    intro sec tables
    rw [forbidTables_eq]
    exact sweep_same (forbids_forbidExecution 0).idem _
  have hpdptes : nptm.forbidPdptes = { nptm with memory := nptm.forbidPdptes.memory } := by
    rw [forbidPdptes_eq]
    exact sweep_same forbids_forbidHuge.idem _
  unfold forbid
  rw [htables, htables nptm.forbidPdptes, hpdptes]

/-- Every entry that is a leaf is not executable, of a hooked page or not. -/
theorem Entries.forbid (hwf : nptm.Wf)
    (hentries : nptm.Entries (SelectEntry hooks (fun _ => False) fun _ _ => False)) :
    nptm.forbid.Wf ∧ nptm.forbid.Entries (SelectEntry hooks
      (fun l => ((False ∨ l = 2) ∨ l = 1) ∨ l = 0) fun _ _ => False) := by
  have hfirst := hentries.sweep forbids_forbidHuge (placesOf_pdptes hwf)
  have hwf₁ := hwf.sweep forbids_forbidHuge (placesOf_pdptes hwf) (by decide)
  rw [← forbidPdptes_eq] at hfirst hwf₁
  have hsecond := hfirst.sweep (forbids_forbidExecution 1) (placesOf_pde hwf₁)
  have hwf₂ := hwf₁.sweep (forbids_forbidExecution 1) (placesOf_pde hwf₁) (by decide)
  rw [← forbidTables_eq] at hsecond hwf₂
  have hthird := hsecond.sweep (forbids_forbidExecution 0) (placesOf_pte hwf₂)
  have hwf₃ := hwf₂.sweep (forbids_forbidExecution 0) (placesOf_pte hwf₂) (by decide)
  rw [← forbidTables_eq] at hthird hwf₃
  exact ⟨hwf₃, hthird⟩

/-! ### Selection of the hooked pages -/

/-- The tables of `origin`, with the entries of `opened` executable again. -/
structure Selecting (origin : NptManager) (hooks : List HookPage) (swept : Nat → Prop)
    (opened : Nat → Nat → Prop) (nptm : NptManager) : Prop where
  wf : nptm.Wf
  same : nptm = { origin with memory := nptm.memory }
  entries : nptm.Entries (SelectEntry hooks swept opened)

section Selecting

variable {swept : Nat → Prop} {opened opened' : Nat → Nat → Prop} {level table frame i : Nat}
  {f : NptEntry → NptEntry}

theorem selecting_self (hwf : nptm.Wf) (hentries : nptm.Entries (SelectEntry hooks swept opened)) :
    Selecting nptm hooks swept opened nptm :=
  ⟨hwf, rfl, hentries⟩

theorem Selecting.mono (h : Selecting origin hooks swept opened nptm)
    (hopened : ∀ l k, opened' l k → opened l k) : Selecting origin hooks swept opened' nptm :=
  ⟨h.wf, h.same, fun l r frame i hframe hi =>
    { h.entries l r frame i hframe hi with
      opened := fun hentry => (h.entries l r frame i hframe hi).opened (hopened _ _ hentry) }⟩

theorem Selecting.layout_eq (h : Selecting origin hooks swept opened nptm) :
    nptm.layout = origin.layout := by
  rw [h.same]
  rfl

theorem Selecting.modifyEntry (h : Selecting origin hooks swept opened nptm)
    (htable : nptm.layout level table = some frame) (hi : i < 512)
    (hwf : (nptm.modifyEntry frame i f).Wf)
    (hentry : SelectEntry hooks swept opened level table i (nptm.memory frame i) →
      SelectEntry hooks swept opened' level table i (f (nptm.memory frame i)))
    (hopened : ∀ l k, opened' l k → opened l k ∨ (l = level ∧ k = 512 * table + i)) :
    Selecting origin hooks swept opened' (nptm.modifyEntry frame i f) := by
  refine ⟨hwf, ?_, fun l r frame' j hframe hj => ?_⟩
  · have hsame := h.same
    unfold NptManager.modifyEntry
    rw [hsame]
  · have hframe : nptm.layout l r = some frame' := hframe
    change SelectEntry _ _ _ _ _ _ (nptm.memory.set frame i _ frame' j)
    by_cases hwritten : frame' = frame ∧ j = i
    · obtain ⟨rfl, rfl⟩ := hwritten
      obtain ⟨rfl, rfl⟩ := h.wf.disjoint _ _ _ _ _ hframe htable
      rw [Radix.Frames.set_self]
      exact hentry (h.entries _ _ _ _ hframe hj)
    · rw [Radix.Frames.set_of_ne hwritten]
      have hold := h.entries l r frame' j hframe hj
      refine { hold with opened := fun hnew => ?_ }
      rcases hopened _ _ hnew with hbefore | ⟨rfl, hplace⟩
      · exact hold.opened hbefore
      · refine absurd ⟨?_, by omega⟩ hwritten
        rw [show r = table by omega, htable] at hframe
        exact (Option.some.inj hframe).symm

theorem SelectEntry.toTable {entry : NptEntry} (hlevel : level ≠ 0)
    (h : SelectEntry hooks swept opened level table i entry) (phys : Nat) :
    SelectEntry hooks swept opened level table i (entry.toTable phys) where
  granted := h.granted
  split _ _ _ _ := rfl
  hooked hzero := absurd hzero hlevel
  closed _ _ hleaf := (hleaf.elim (absurd · hlevel) nofun)
  opened := h.opened

/-- A table entry that grants everything. -/
theorem SelectEntry.tableEntry {entry : NptEntry} (hlevel : level ≠ 0)
    (h : SelectEntry hooks swept opened level table i entry) (phys : Nat) :
    SelectEntry hooks swept opened' level table i (tableEntry phys true true true entry) where
  granted := ⟨rfl, rfl, h.granted.2.2⟩
  split _ _ _ _ := rfl
  hooked hzero := absurd hzero hlevel
  closed _ _ hleaf := (hleaf.elim (absurd · hlevel) nofun)
  opened _ := rfl

/-- An entry for a hooked page is no leaf but of its own page. -/
theorem SelectEntry.permit {entry : NptEntry} (hnhp : nhp ∈ hooks)
    (hregion : Radix.region level nhp.origPhys = 512 * table + i)
    (h : SelectEntry hooks swept opened level table i entry) :
    SelectEntry hooks swept opened' level table i entry.permitExecution where
  granted := h.granted
  split := h.split
  hooked := h.hooked
  closed _ hunhooked hleaf := by
    by_cases hzero : level = 0
    · subst hzero
      exact absurd hregion (hunhooked rfl nhp hnhp)
    · have hpsize : entry.psize = true := hleaf.resolve_left hzero
      rw [h.split hzero nhp hnhp hregion] at hpsize
      exact (nomatch hpsize)
  opened _ := rfl

theorem Wf.permit (hwf : nptm.Wf) (htable : nptm.layout level table = some frame) (hi : i < 512)
    (hlevel : level ≠ 3) : (nptm.modifyEntry frame i NptEntry.permitExecution).Wf := by
  refine hwf.modifyEntry htable hlevel fun l hl hentry => ?_
  subst hl
  exact hwf.linked l table frame i htable hi hentry

theorem nvcNptUpdatePde_of_found (hpa : Nat) (r w x alloc : Bool) 
    (hpde : nptm.findPde gpa = some d) (hpte : nptm.findPte gpa = some t)
    (hgpa : page1gbCount gpa < 512 * 512) : nvcNptUpdatePde nptm hpa gpa r w x false alloc =
      .ok (true, (((nptm.linkPdpte gpa d).linkPdpte gpa d).linkPde gpa d t).modifyEntry d.frame
        (pageEntryIndex64 (page2mbCount gpa)) (NptManager.tableEntry t.phys r w x)) := by
  have hpde' : (nptm.linkPdpte gpa d).findPde gpa = some d := hpde
  have hpte' : (nptm.linkPdpte gpa d).findPte gpa = some t := hpte
  unfold nvcNptUpdatePde
  rw [nvcNptSplitPdpte_of_found hpde hgpa, Outcome.ok_bind]
  simp only [Pointer.isNull, Bool.false_eq_true, if_false, Pointer.deref, Outcome.ok_bind,
    nvcNptSplitPde_of_found hpde' hpte' hgpa, modifyEntry_modifyEntry]
  rfl

theorem nvcNptUpdatePdpte_of_found (hpa : Nat) (r w x alloc : Bool)
    (hpde : nptm.findPde gpa = some d) (hgpa : page1gbCount gpa < 512 * 512) :
    nvcNptUpdatePdpte nptm hpa gpa r w x false alloc =
      .ok (true, (nptm.linkPdpte gpa d).modifyEntry (nptm.pdpteFrame (page1gbCount gpa))
        (page1gbCount gpa % 512) (NptManager.tableEntry d.phys r w x)) := by
  unfold nvcNptUpdatePdpte
  simp only [Bool.false_eq_true, if_false]
  rw [nvcNptSplitPdpte_of_found hpde hgpa, Outcome.ok_bind]
  simp only [Pointer.isNull, Bool.false_eq_true, if_false, Pointer.deref, Outcome.ok_bind,
    modifyPdpte_of_lt hgpa]
  exact congrArg (fun nptm => Except.ok (true, nptm)) (modifyEntry_modifyEntry _ _ _ _ _)

theorem Selecting.linkPdpte (h : Selecting origin hooks swept opened nptm)
    (hpde : nptm.findPde gpa = some d) (hgpa : page1gbCount gpa < 512 * 512) :
    Selecting origin hooks swept opened (nptm.linkPdpte gpa d) := by
  have hd : nptm.layout 1 (page1gbCount gpa) = some d.frame := by
    rw [layout_one h.wf.pdeAligned, hpde]
    rfl
  exact h.modifyEntry (layout_pdpte hgpa) (Nat.mod_lt _ (by decide)) (h.wf.linkPdpte hgpa hd)
    (fun hentry => hentry.toTable (by decide) d.phys) fun _ _ => .inl

theorem Selecting.linkPde (h : Selecting origin hooks swept opened nptm)
    (hpde : nptm.findPde gpa = some d) (hpte : nptm.findPte gpa = some t) :
    Selecting origin hooks swept opened (nptm.linkPde gpa d t) := by
  have hd : nptm.layout 1 (page1gbCount gpa) = some d.frame := by
    rw [layout_one h.wf.pdeAligned, hpde]
    rfl
  have ht : nptm.layout 0 (page2mbCount gpa) = some t.frame := by
    rw [layout_zero h.wf.pteAligned, hpte]
    rfl
  exact h.modifyEntry hd (Nat.mod_lt _ (by decide)) (h.wf.linkPde hd ht)
    (fun hentry => hentry.toTable (by decide) t.phys) fun _ _ => .inl

theorem Selecting.permit (h : Selecting origin hooks swept opened nptm) (hnhp : nhp ∈ hooks)
    (htable : origin.layout level table = some frame) (hi : i < 512) (hlevel : level ≠ 3)
    (hregion : Radix.region level nhp.origPhys = 512 * table + i) :
    Selecting origin hooks swept
      (fun l k => opened l k ∨ (l = level ∧ k = Radix.region level nhp.origPhys))
      (nptm.modifyEntry frame i NptEntry.permitExecution) := by
  rw [← h.layout_eq] at htable
  refine h.modifyEntry htable hi (h.wf.permit htable hi hlevel)
    (fun hentry => hentry.permit hnhp hregion) fun l k hnew => ?_
  rw [← hregion]
  exact hnew

theorem Selecting.grantPde (h : Selecting origin hooks swept opened nptm)
    (hd : origin.layout 1 (page1gbCount gpa) = some d.frame)
    (ht : origin.layout 0 (page2mbCount gpa) = some t.frame) :
    Selecting origin hooks swept (fun l k => opened l k ∨ (l = 1 ∧ k = page2mbCount gpa))
      (nptm.modifyEntry d.frame (pageEntryIndex64 (page2mbCount gpa))
        (NptManager.tableEntry t.phys true true true)) := by
  rw [← h.layout_eq] at hd ht
  refine h.modifyEntry hd (Nat.mod_lt _ (by decide)) (h.wf.writeTablePde hd ht)
    (fun hentry => hentry.tableEntry (by decide) t.phys) fun l k hnew => ?_
  rw [pde_region]
  exact hnew

theorem Selecting.grantPdpte (h : Selecting origin hooks swept opened nptm)
    (hd : origin.layout 1 (page1gbCount gpa) = some d.frame) (hgpa : page1gbCount gpa < 512 * 512) :
    Selecting origin hooks swept (fun l k => opened l k ∨ (l = 2 ∧ k = page1gbCount gpa))
      (nptm.modifyEntry (nptm.pdpteFrame (page1gbCount gpa)) (page1gbCount gpa % 512)
        (NptManager.tableEntry d.phys true true true)) := by
  rw [← h.layout_eq] at hd
  refine h.modifyEntry (layout_pdpte hgpa) (Nat.mod_lt _ (by decide))
    (h.wf.writeTablePdpte hgpa hd) (fun hentry => hentry.tableEntry (by decide) d.phys)
    fun l k hnew => ?_
  rw [Nat.div_add_mod]
  exact hnew

/-- The PDE above the page is executable, then the PTE. -/
theorem Selecting.selectPte (h : Selecting origin hooks swept opened nptm) (hnhp : nhp ∈ hooks)
    (hpde : nptm.findPde nhp.origPhys = some d) (hpte : nptm.findPte nhp.origPhys = some t)
    (hgpa : page1gbCount nhp.origPhys < 512 * 512) :
    ∃ nptm', nptm.selectPte nhp.origPhys = .ok nptm' ∧
      Selecting origin hooks swept (fun l k => (opened l k ∨
        (l = 1 ∧ k = page2mbCount nhp.origPhys)) ∨ (l = 0 ∧ k = page4kbCount nhp.origPhys)) nptm' := by
  -- The update is for the start of the region of the table.
  obtain ⟨-, hstart⟩ := Radix.covering_eq_some (by decide) h.wf.pteAligned hpte
  have hmb : page2mbCount t.gpaStart = page2mbCount nhp.origPhys := by
    rw [hstart]
    simp only [page2mbCount, page2mbSize]
    omega
  have hgb : page1gbCount t.gpaStart = page1gbCount nhp.origPhys := page1gbCount_of_page2mbCount hmb
  have hpde' : nptm.findPde t.gpaStart = some d := by
    rw [← hpde]
    exact Radix.covering_congr (by decide) h.wf.pdeAligned hgb
  have hpte' : nptm.findPte t.gpaStart = some t := by
    rw [← hpte]
    exact Radix.covering_congr (by decide) h.wf.pteAligned hmb
  have hgpa' : page1gbCount t.gpaStart < 512 * 512 := hgb.symm ▸ hgpa
  have hd : origin.layout 1 (page1gbCount t.gpaStart) = some d.frame := by
    rw [← h.layout_eq, layout_one h.wf.pdeAligned, hpde']
    rfl
  have ht : origin.layout 0 (page2mbCount t.gpaStart) = some t.frame := by
    rw [← h.layout_eq, layout_zero h.wf.pteAligned, hpte']
    rfl
  have hlinked : Selecting origin hooks swept opened
      (((nptm.linkPdpte t.gpaStart d).linkPdpte t.gpaStart d).linkPde t.gpaStart d t) :=
    ((h.linkPdpte hpde' hgpa').linkPdpte hpde' hgpa').linkPde hpde' hpte'
  have hopened := hlinked.grantPde hd ht
  rw [hmb] at ht hopened
  unfold NptManager.selectPte
  rw [hpte]
  dsimp only
  rw [nvcNptUpdatePde_of_found 0 true true true true hpde' hpte' hgpa', hmb]
  exact ⟨_, rfl, hopened.permit hnhp ht (Nat.mod_lt _ (by decide)) (by decide)
    (pte_region nhp.origPhys).symm⟩

/-- The PDPTE above the page is executable, then the PDE once more. -/
theorem Selecting.selectPde (h : Selecting origin hooks swept opened nptm) (hnhp : nhp ∈ hooks)
    (hpde : nptm.findPde nhp.origPhys = some d) (hgpa : page1gbCount nhp.origPhys < 512 * 512) :
    ∃ nptm', nptm.selectPde nhp.origPhys = .ok nptm' ∧
      Selecting origin hooks swept (fun l k => (opened l k ∨
        (l = 2 ∧ k = page1gbCount nhp.origPhys)) ∨ (l = 1 ∧ k = page2mbCount nhp.origPhys)) nptm' := by
  obtain ⟨-, hstart⟩ := Radix.covering_eq_some (by decide) h.wf.pdeAligned hpde
  have hgb : page1gbCount d.gpaStart = page1gbCount nhp.origPhys := by
    rw [hstart]
    simp only [page1gbCount, page1gbSize]
    omega
  have hpde' : nptm.findPde d.gpaStart = some d := by
    rw [← hpde]
    exact Radix.covering_congr (by decide) h.wf.pdeAligned hgb
  have hgpa' : page1gbCount d.gpaStart < 512 * 512 := hgb.symm ▸ hgpa
  have hd : origin.layout 1 (page1gbCount d.gpaStart) = some d.frame := by
    rw [← h.layout_eq, layout_one h.wf.pdeAligned, hpde']
    rfl
  have hopened := (h.linkPdpte hpde' hgpa').grantPdpte hd hgpa'
  rw [hgb] at hd hopened
  unfold NptManager.selectPde
  rw [hpde]
  dsimp only
  rw [nvcNptUpdatePdpte_of_found 0 true true true true hpde' hgpa', hgb]
  exact ⟨_, rfl, hopened.permit hnhp hd (Nat.mod_lt _ (by decide)) (by decide)
    (pde_region nhp.origPhys).symm⟩

/-- The entries on the way to the hooked pages. -/
def PathOf (hooks : List HookPage) (level k : Nat) : Prop :=
  level ≤ 2 ∧ ∃ nhp ∈ hooks, Radix.region level nhp.origPhys = k

theorem Selecting.selectHook (h : Selecting origin hooks swept (PathOf done) nptm)
    (hnhp : nhp ∈ hooks) (hpde : nptm.findPde nhp.origPhys = some d)
    (hpte : nptm.findPte nhp.origPhys = some t) (hgpa : page1gbCount nhp.origPhys < 512 * 512) :
    ∃ nptm', nptm.selectHook nhp = .ok nptm' ∧
      Selecting origin hooks swept (PathOf (done ++ [nhp])) nptm' := by
  obtain ⟨middle, hfirst, hmiddle⟩ := h.selectPte hnhp hpde hpte hgpa
  have hpde' : middle.findPde nhp.origPhys = some d := by
    rw [← hpde, hmiddle.same]
    conv => rhs; rw [h.same]
    rfl
  obtain ⟨nptm', hsecond, hnptm'⟩ := hmiddle.selectPde hnhp hpde' hgpa
  refine ⟨nptm', ?_, hnptm'.mono fun l k hpath => ?_⟩
  · unfold NptManager.selectHook
    rw [hfirst, Outcome.ok_bind, hsecond]
  · obtain ⟨hle, a, ha, hregion⟩ := hpath
    rcases List.mem_append.mp ha with hdone | hlast
    · exact .inl (.inl (.inl (.inl ⟨hle, a, hdone, hregion⟩)))
    · obtain rfl := List.mem_singleton.mp hlast
      have hlevel : l = 0 ∨ l = 1 ∨ l = 2 := by omega
      rcases hlevel with rfl | rfl | rfl
      · exact .inl (.inl (.inr ⟨rfl, hregion.symm⟩))
      · exact .inr ⟨rfl, hregion.symm⟩
      · exact .inl (.inr ⟨rfl, hregion.symm⟩)

end Selecting

end NptManager

end NoirVisor
