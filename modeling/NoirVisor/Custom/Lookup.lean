import NoirVisor.Custom.Run

/-!
# Looking up a translation

`nvc_svmc_get_physical_mapping` follows the tables by the lists. Asked for a readable page it finds
what the processor finds, where that page may be executed as well. Over a whole run in which no
allocation fails, both know a page as its last mapping left it.
-/

namespace NoirVisor

open SvmCustomNptManager

namespace SvmCustomNptManager

variable {hostPat : HostPat} {nptm : SvmCustomNptManager}

theorem findPhys_eq {size : Nat} {descriptors : List NptDescriptor} {r frame : Nat}
    (hlisted : Listed size descriptors) (hframe : frame < 2 ^ 40)
    (hdescribed : listedFrame size descriptors r = some frame) :
    ∃ d, findPhys descriptors (tableEntry (page4kbMult frame)) = some d ∧ d.frame = frame := by
  have hphys : page4kbMult (tableEntry (page4kbMult frame)).base = page4kbMult frame :=
    congrArg page4kbMult (child_tableEntry hframe)
  obtain ⟨d, hd, hdframe⟩ := Option.map_eq_some_iff.mp hdescribed
  unfold findPhys
  rw [hphys]
  cases hfind : descriptors.find? (fun d => decide (d.phys = page4kbMult frame)) with
  | none =>
      have hmem : d ∈ descriptors := List.mem_of_find?_eq_some hd
      refine absurd ?_ (List.find?_eq_none.mp hfind d hmem)
      rw [hlisted.paged d hmem, hdframe]
      exact decide_eq_true rfl
  | some d' =>
      refine ⟨d', rfl, ?_⟩
      have hphys' := of_decide_eq_true (List.find?_some (p := fun d : NptDescriptor =>
        decide (d.phys = page4kbMult frame)) hfind)
      rw [NptDescriptor.frame, hphys']
      simp [page4kbCount, page4kbMult]

/-- An entry of a linked table above the page entries, and the table below it. -/
theorem entry_cases (hwf : nptm.Wf) {level r frame i : Nat} (hlevel : level < 3)
    (hframe : nptm.reached (level + 1) r = some frame) (hi : i < 512) :
    (nptm.memory frame i = {} ∧ nptm.reached level (512 * r + i) = none) ∨
      ∃ child < 2 ^ 40, nptm.memory frame i = tableEntry (page4kbMult child) ∧
        nptm.reached level (512 * r + i) = some child := by
  have hkind := hwf.tree.entries (3 - (level + 1)) (by omega) r frame i hframe hi
  have hnext : nptm.reached level (512 * r + i) =
      if nptFormat.isTable (3 - (3 - (level + 1))) (nptm.memory frame i) then
        some (nptFormat.child (nptm.memory frame i)) else none := by
    unfold SvmCustomNptManager.reached
    rw [show 3 - level = 3 - (level + 1) + 1 by omega, Radix.reach_succ_of_some
      (by rw [show (512 * r + i) / 512 = r by omega]; exact hframe),
      show (512 * r + i) % 512 = i by omega]
  rcases hkind with hempty | ⟨child, hchild⟩
  · rw [hempty, isTable_empty] at hnext
    exact Or.inl ⟨hempty, hnext⟩
  · rw [hchild, isTable_tableEntry, if_pos rfl] at hnext
    have hbase : nptFormat.child (tableEntry (page4kbMult child)) = child % 2 ^ 40 := by
      simp [nptFormat, tableEntry, NptEntry.setBase, page4kbCount, page4kbMult]
    refine Or.inr ⟨child % 2 ^ 40, Nat.mod_lt _ (by decide), ?_, by rw [hnext, hbase]⟩
    rw [hchild]
    simp [tableEntry, NptEntry.setBase, page4kbCount, page4kbMult]

theorem unreached_below {level r i : Nat} (hlevel : level < 3) (hi : i < 512)
    (hnone : nptm.reached (level + 1) r = none) : nptm.reached level (512 * r + i) = none := by
  unfold SvmCustomNptManager.reached
  rw [show 3 - level = 3 - (level + 1) + 1 by omega]
  refine Radix.reach_succ_of_none ?_
  rw [show (512 * r + i) / 512 = r by omega]
  exact hnone

theorem meets_empty : meets {} true false false = false := rfl

theorem meets_tableEntry (phys : Nat) : meets (tableEntry phys) true false false = true := rfl

theorem psize_tableEntry (phys : Nat) : (tableEntry phys).psize = false := rfl

theorem page4kbMult_or_page4kbOffset (frame address : Nat) :
    page4kbMult frame ||| page4kbOffset address = page4kbMult frame + page4kbOffset address := by
  unfold page4kbMult page4kbOffset
  have := Nat.two_pow_add_eq_or_of_lt (i := 12) (b := address % 0x1000) (by omega) frame
  rw [Nat.mul_comm frame, ← show (2 : Nat) ^ 12 = 0x1000 from rfl]
  exact this.symm

/-- A lookup for reading asks for a page that may be executed: the source requires `no_execute` not
to exceed `x`. -/
theorem getPhysicalMapping_eq (hwf : nptm.Wf) {address : Nat} (haddress : address < 2 ^ 48) :
    nvcSvmcGetPhysicalMapping nptm address true false false =
      match nptm.view address with
      | some view => if view.execute then (true, view.hpa) else (false, 0)
      | none => (false, 0) := by
  have hlt : ∀ x, pageEntryIndex64 x < 512 := fun x => Nat.mod_lt _ (by decide)
  have hroot : nptm.reached 3 0 = some (page4kbCount nptm.ncr3) := rfl
  have hdown₁ : nptm.reached 2 (page512gbCount address) = none →
      nptm.reached 1 (page1gbCount address) = none := by
    rw [page1gbCount_eq]
    exact unreached_below (by omega) (hlt _)
  have hdown₀ : nptm.reached 1 (page1gbCount address) = none →
      nptm.reached 0 (page2mbCount address) = none := by
    rw [page2mbCount_eq]
    exact unreached_below (by omega) (hlt _)
  rw [view_eq hwf haddress, nvcSvmcGetPhysicalMapping]
  have h₃ := entry_cases hwf (by omega) hroot (hlt (page512gbCount address))
  rw [← pml4eOffset, ← page512gbCount_eq haddress] at h₃
  rcases h₃ with ⟨hempty, hnone⟩ | ⟨frame₂, hlt₂, hentry₂, hreached₂⟩
  · simp only [hempty, meets_empty, hdown₀ (hdown₁ hnone)]
    rfl
  obtain ⟨d₂, hfind₂, hd₂⟩ := findPhys_eq hwf.pdpteListed hlt₂ (hwf.sound (by omega) hreached₂)
  have h₂ := entry_cases hwf (by omega) hreached₂ (hlt (page1gbCount address))
  rw [← pdpteOffset, ← page1gbCount_eq] at h₂
  simp only [hentry₂, meets_tableEntry, if_true, hfind₂, hd₂]
  rcases h₂ with ⟨hempty, hnone⟩ | ⟨frame₁, hlt₁, hentry₁, hreached₁⟩
  · simp only [hempty, meets_empty, hdown₀ hnone]
    rfl
  obtain ⟨d₁, hfind₁, hd₁⟩ := findPhys_eq hwf.pdeListed hlt₁ (hwf.sound (by omega) hreached₁)
  have h₁ := entry_cases hwf (by omega) hreached₁ (hlt (page2mbCount address))
  rw [← pdeOffset, ← page2mbCount_eq] at h₁
  simp only [hentry₁, meets_tableEntry, if_true, hfind₁, hd₁, psize_tableEntry,
    Bool.false_eq_true, if_false]
  rcases h₁ with ⟨hempty, hnone⟩ | ⟨frame₀, hlt₀, hentry₀, hreached₀⟩
  · simp only [hempty, meets_empty, hnone]
    rfl
  obtain ⟨d₀, hfind₀, hd₀⟩ := findPhys_eq hwf.pteListed hlt₀ (hwf.sound (by omega) hreached₀)
  simp only [hentry₀, meets_tableEntry, if_true, hfind₀, hd₀, hreached₀, Option.bind_some,
    psize_tableEntry, Bool.false_eq_true, if_false, page4kbMult_or_page4kbOffset, pageView]
  cases hpresent : (nptm.memory frame₀ (pteOffset address)).present with
  | false => simp [meets, hpresent]
  | true =>
      cases hexecute : (nptm.memory frame₀ (pteOffset address)).noExecute with
      | false => simp [meets, hpresent, hexecute, leafView, NptEntry.pageBase, page4kbMult, page4kbOffset]
      | true => simp [meets, hpresent, hexecute, leafView]

end SvmCustomNptManager

/-- The calls made so far, the last one first. -/
abbrev MapHistory := List PageMapCall

namespace MapHistory

def lastCall (history : MapHistory) (address : Nat) : Option PageMapCall :=
  history.find? fun call => page4kbCount call.gpa = page4kbCount address

/-- The page the last call mapped an address to, with the page offset. -/
def translation (history : MapHistory) (address : Nat) : Option Nat :=
  (history.lastCall address).bind fun call =>
    if call.mapAttrib.present then
      some (page4kbMult (page4kbCount call.hpa) + page4kbOffset address)
    else none

def view (history : MapHistory) (address : Nat) : Option NptView :=
  (history.lastCall address).bind fun call => mappedView call.hpa call.mapAttrib address

theorem view_cons (call : PageMapCall) (history : MapHistory) (address : Nat) :
    view (call :: history) address =
      if page4kbCount address = page4kbCount call.gpa then
        mappedView call.hpa call.mapAttrib address
      else history.view address := by
  unfold view lastCall
  rw [List.find?_cons]
  by_cases hpage : page4kbCount address = page4kbCount call.gpa
  · simp [hpage]
  · simp [hpage, Ne.symm hpage]

theorem hpa_view (history : MapHistory) (address : Nat) :
    (history.view address).map NptView.hpa = history.translation address := by
  unfold view translation
  cases history.lastCall address with
  | none => rfl
  | some call =>
      simp only [Option.bind_some, mappedView]
      split <;> rfl

end MapHistory

namespace SvmCustomNptManager

/-- The hardware walk and the lookup know every address as its last call left it, and the lists hold
one linked table for each of their regions. -/
structure Agrees (history : MapHistory) (nptm : SvmCustomNptManager) : Prop where
  walk : ∀ address < 2 ^ 48,
    (nptm.view address).map NptView.hpa = history.translation address
  lookup : ∀ address < 2 ^ 48, nvcSvmcGetPhysicalMapping nptm address true false false =
    match history.translation address with
    | some hpa => (true, hpa)
    | none => (false, 0)
  pdpteDistinct : (nptm.pdpte.map NptDescriptor.gpaStart).Nodup
  pdeDistinct : (nptm.pde.map NptDescriptor.gpaStart).Nodup
  pteDistinct : (nptm.pte.map NptDescriptor.gpaStart).Nodup
  pdpteLinked : ∀ d ∈ nptm.pdpte, nptm.reached 2 (page512gbCount d.gpaStart) = some d.frame
  pdeLinked : ∀ d ∈ nptm.pde, nptm.reached 1 (page1gbCount d.gpaStart) = some d.frame
  pteLinked : ∀ d ∈ nptm.pte, nptm.reached 0 (page2mbCount d.gpaStart) = some d.frame

/-- A call for a 4 KiB page, every allocation succeeding with a fresh page. -/
def MapsPage (hostPat : HostPat) (s s' : MapHistory × SvmCustomNptManager) : Prop :=
  ∃ (call : PageMapCall) (allocator : Allocator), call.mapAttrib.psize = 0 ∧
    allocator.Fresh s.2.Used ∧ allocator.Generous 3 ∧
    s' = (call :: s.1, (call.run hostPat (s.2.withAllocator allocator)).2)

abbrev Mapped (hostPat : HostPat) : MapHistory × SvmCustomNptManager → Prop :=
  Transition.Reachable (fun s => s.1 = [] ∧ s.2.IsNew) (MapsPage hostPat)

/-- What a run without failures keeps. -/
structure Tracks (history : MapHistory) (nptm : SvmCustomNptManager) : Prop where
  wf : nptm.Wf
  complete : ∀ level ≤ 2, nptm.Complete level
  view : ∀ address < 2 ^ 48, nptm.view address = history.view address

variable {hostPat : HostPat} {history : MapHistory} {nptm : SvmCustomNptManager}

theorem IsNew.tracks (h : nptm.IsNew) : Tracks [] nptm where
  wf := h.wf
  complete _ hlevel := h.complete hlevel
  view address haddress := by
    have hunreached : nptm.reached 0 (page2mbCount address) = none := h.unreached 2 _
    rw [view_eq h.wf haddress, hunreached]
    rfl

theorem Tracks.walkable (h : Tracks history nptm) (gpa : Nat) : nptm.Walkable gpa :=
  ⟨h.complete 0 (by omega) _, fun _ => h.complete 1 (by omega) _⟩

theorem Tracks.run (h : Tracks history nptm) {allocator : Allocator} {call : PageMapCall}
    (hpsize : call.mapAttrib.psize = 0) (hfresh : allocator.Fresh nptm.Used)
    (hgenerous : allocator.Generous 3) :
    Tracks (call :: history) (call.run hostPat (nptm.withAllocator allocator)).2 := by
  have hmaps := PageMapCall.maps call hostPat (h.wf.withAllocator allocator)
    (h.complete 2 le_rfl) hfresh
  have hsuccess := hmaps.generous hpsize hgenerous
  refine ⟨hmaps.wf, hmaps.linked hsuccess h.complete, fun address haddress => ?_⟩
  rw [hmaps.view address haddress, MapHistory.view_cons]
  by_cases hpage : page4kbCount address = page4kbCount call.gpa
  · rw [if_pos ⟨hsuccess, hpage, h.walkable call.gpa⟩, if_pos hpage]
  · rw [if_neg fun hboth => hpage hboth.2.1, if_neg hpage]
    exact h.view address haddress

theorem Mapped.tracks {s : MapHistory × SvmCustomNptManager} (h : Mapped hostPat s) :
    Tracks s.1 s.2 := by
  refine h.invariant (P := fun s => Tracks s.1 s.2) ?_ ?_
  · rintro ⟨history, nptm⟩ ⟨rfl, hnew⟩
    exact hnew.tracks
  · rintro ⟨history, nptm⟩ s' - htracks ⟨call, allocator, hpsize, hfresh, hgenerous, rfl⟩
    exact htracks.run hpsize hfresh hgenerous

/-- The tables and the walk are as the calls made them in any case; the lookup knows those pages
whose last mapping, if any, may be executed. -/
theorem Tracks.agrees (h : Tracks history nptm) :
    Agrees history nptm ↔ ∀ address < 2 ^ 48, ∀ call, history.lastCall address = some call →
      call.mapAttrib.present = true → call.mapAttrib.execute = true := by
  constructor
  · intro hagrees address haddress call hlast hpresent
    have hlookup := hagrees.lookup address haddress
    rw [getPhysicalMapping_eq h.wf haddress, h.view address haddress] at hlookup
    by_contra hexecute
    simp [MapHistory.view, MapHistory.translation, hlast, mappedView, hpresent, hexecute] at hlookup
  · intro hexecute
    refine
      { walk := fun address haddress => ?_
        lookup := fun address haddress => ?_
        pdpteDistinct := h.wf.pdpteListed.distinct
        pdeDistinct := h.wf.pdeListed.distinct
        pteDistinct := h.wf.pteListed.distinct
        pdpteLinked := fun d hd => ?_
        pdeLinked := fun d hd => ?_
        pteLinked := fun d hd => ?_ }
    · rw [h.view address haddress, MapHistory.hpa_view]
    · rw [getPhysicalMapping_eq h.wf haddress, h.view address haddress]
      unfold MapHistory.view MapHistory.translation
      cases hlast : history.lastCall address with
      | none => rfl
      | some call =>
          by_cases hpresent : call.mapAttrib.present = true
          · simp [mappedView, hpresent, hexecute address haddress call hlast hpresent]
          · simp [mappedView, hpresent]
    · rw [h.complete 2 (by omega)]
      exact h.wf.pdpteListed.frame_of_mem (by decide) hd
    · rw [h.complete 1 (by omega)]
      exact h.wf.pdeListed.frame_of_mem (by decide) hd
    · rw [h.complete 0 (by omega)]
      exact h.wf.pteListed.frame_of_mem (by decide) hd

theorem mapped_agrees (hostPat : HostPat) {s : MapHistory × SvmCustomNptManager}
    (h : Mapped hostPat s) :
    Agrees s.1 s.2 ↔ ∀ address < 2 ^ 48, ∀ call, s.1.lastCall address = some call →
      call.mapAttrib.present = true → call.mapAttrib.execute = true :=
  h.tracks.agrees

def afterFirstPage : SvmCustomNptManager :=
  (firstPage.run (fun _ => 0) (newManager.withAllocator (.ofFrames [2, 3, 4]))).2

theorem firstPage_mapped : Mapped (fun _ => 0)
    ([firstPage], (firstPage.run (fun _ => 0) (newManager.withAllocator (.ofFrames [2, 3, 4]))).2) := by
  refine .step (.start (s := ([], newManager)) ⟨rfl, newManager_isNew⟩) ?_
  exact ⟨firstPage, .ofFrames [2, 3, 4], rfl, newManager_fresh (by decide) (by decide),
    Allocator.generous_ofFrames (by decide), rfl⟩

theorem firstPage_agrees : Agrees [firstPage]
    (firstPage.run (fun _ => 0) (newManager.withAllocator (.ofFrames [2, 3, 4]))).2 := by
  refine (mapped_agrees (fun _ => 0) firstPage_mapped).mpr fun address _ call hlast _ => ?_
  obtain rfl := List.mem_singleton.mp (List.mem_of_find?_eq_some hlast)
  rfl

/-- A page of data, which the guest may read and not execute. -/
def dataPage : PageMapCall where
  gpa := 0x1000
  hpa := 0x5000
  mapAttrib := { present := true }
  gpa_lt := by decide
  hpa_lt := firstPage.hpa_lt

theorem not_forall_agrees :
    ¬∀ (hostPat : HostPat) (s : MapHistory × SvmCustomNptManager), Mapped hostPat s →
      Agrees s.1 s.2 := by
  intro h
  have hmapped : Mapped (fun _ => 0) _ := .step (.start (s := ([], newManager)) ⟨rfl, newManager_isNew⟩)
    ⟨dataPage, .ofFrames [2, 3, 4], rfl, newManager_fresh (by decide) (by decide),
      Allocator.generous_ofFrames (by decide), rfl⟩
  exact absurd ((h _ _ hmapped).lookup 0x1000 (by decide)) (by decide)

end SvmCustomNptManager

end NoirVisor
