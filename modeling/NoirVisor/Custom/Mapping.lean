import NoirVisor.Custom.Run
import NoirVisor.Rmt.Reassign

/-!
# Requests to map memory into a VM

A request maps a range of host pages, or unmaps one, page by page (`svm_core/svm_custom.c`), under a
lock on the host pages (`xpf_core/noirhvm.c`). Any page of it may find no memory for a table. What is
then left of the map is told by the pages before.
-/

namespace NoirVisor

open SvmCustomNptManager

/-- `noir_cvm_address_mapping`. -/
structure CvmAddressMapping where
  gpa : Nat
  hva : Nat
  pages : Nat
  attributes : MappingAttributes

/-- The guest address of a page of a request. Its index is shifted in 32 bits. -/
def CvmAddressMapping.pageGpa (mapping : CvmAddressMapping) (i : Nat) : Nat :=
  mapping.gpa + page4kbMult i % 2 ^ 32

/-- The pages of a request, with the host pages of an array. -/
def CvmAddressMapping.list (mapping : CvmAddressMapping) (physArray : Nat → Nat) : List (Nat × Nat) :=
  (List.range mapping.pages).map fun i => (mapping.pageGpa i, physArray i)

/-- What a request uses of a `noir_svm_custom_vm`, its virtual processors and the host under it. -/
structure MappedVm where
  nptm : SvmCustomNptManager
  asid : Nat
  tlValid : Nat → Bool
  host : NsvHost

namespace MappedVm

/-- `noir_alloc_nonpg_memory` for a list of addresses. -/
def allocList (vm : MappedVm) : Bool × MappedVm :=
  let (list, allocator) := vm.nptm.allocator.noirAllocNonpgMemory
  (list, { vm with nptm := vm.nptm.withAllocator allocator })

/-- Eight bytes a page are asked for in 32 bits, and the whole list is written. -/
def fillList (pages : Nat) : Outcome Unit := if 2 ^ 29 ≤ pages then throw .outOfBounds else pure ()

/-- The loop of both requests: up to the first page that cannot be mapped. -/
def mapPages (hostPat : HostPat) (mapAttrib : MappingAttributes) (st : NoirStatus)
    (nptm : SvmCustomNptManager) : List (Nat × Nat) → NoirStatus × SvmCustomNptManager
  | [] => (st, nptm)
  | (gpa, hpa) :: pages =>
      let (st, nptm) := nvcSvmcSetPageMap hostPat nptm gpa hpa mapAttrib
      if st = .success then mapPages hostPat mapAttrib st nptm pages else (st, nptm)

section Requests

variable (hostPat : HostPat) (enableNsv : Bool) (stack : NoirStatus) (fuel : Nat)

/-- The reverse mapping is reassigned where NSV is enabled. -/
def reassign (vm : MappedVm) (context : NoirRmtReassignmentContext) :
    Outcome (Bool × MappedVm) :=
  if enableNsv then do
    let (nsvRet, host) ←
      NsvHost.nvcNptReassignPageOwnership enableNsv stack fuel vm.host context
    return (nsvRet, { vm with host })
  else
    return (true, vm)

/-- The same page is unmapped for every page of the request. -/
def nvcSvmcSetUnmapping (vm : MappedVm) (gpa pages : Nat) : Outcome (NoirStatus × MappedVm) := do
  let (list, vm) := vm.allocList
  if list then
    fillList pages
    let hpaList := (List.range pages).map fun i =>
      (nvcSvmcGetPhysicalMapping vm.nptm (gpa + page4kbMult i % 2 ^ 32) true false false).2
    let (nsvRet, vm) ← vm.reassign enableNsv stack fuel
      { pages := hpaList.zip hpaList, asid := 1, shared := false, ownership := noirNsvRmtSubvertedHost }
    let st := if enableNsv then NoirStatus.nsvViolation else .insufficientResources
    if nsvRet then
      let (st, nptm) := mapPages hostPat {} st vm.nptm (List.replicate pages (gpa, 0))
      return (st, { vm with nptm })
    else
      return (st, vm)
  else
    return (.insufficientResources, vm)

/-- `stale` is what the list of guest addresses holds when it is passed on, before it is filled. -/
def nvcSvmcSetMapping (vm : MappedVm) (mapping : CvmAddressMapping) (physArray stale : Nat → Nat) :
    Outcome (NoirStatus × MappedVm) := do
  let (list, vm) := vm.allocList
  if list then
    fillList mapping.pages
    let ownership :=
      if mapping.attributes.nsvSecure then noirNsvRmtSecureGuest else noirNsvRmtInsecureGuest
    let (nsvRet, vm) ← vm.reassign enableNsv stack fuel
      { pages := (List.range mapping.pages).map fun i => (physArray i, stale i)
        asid := vm.asid
        shared := false
        ownership }
    if nsvRet then
      if mapping.attributes.psize ≠ 0 then
        return (.notImplemented, vm)
      else
        let (st, nptm) := mapPages hostPat mapping.attributes .insufficientResources vm.nptm
          (mapping.list physArray)
        -- Broadcast to all vCPUs that the TLBs are invalid now. The last is not told.
        let vm := { vm with
          nptm, tlValid := fun v => if v < 255 then false else vm.tlValid v }
        if st = .success then
          return (st, vm)
        else
          -- Failure of mapping will result in unmapping.
          let (_, vm) ← nvcSvmcSetUnmapping hostPat enableNsv stack fuel vm mapping.gpa mapping.pages
          return (st, vm)
    else
      return (.nsvViolation, vm)
  else
    return (.insufficientResources, vm)

end Requests

end MappedVm

namespace SvmCustomNptManager

/-- A manager between two calls. -/
structure Ready (nptm : SvmCustomNptManager) : Prop where
  wf : nptm.Wf
  complete : nptm.Complete 2
  fresh : nptm.allocator.Fresh nptm.Used

/-- No table was left aside by a call that failed. -/
def AllLinked (nptm : SvmCustomNptManager) : Prop := ∀ level ≤ 2, nptm.Complete level

/-- A map with one page of it mapped as asked. -/
def mapPage (mapAttrib : MappingAttributes) (view : Nat → Option NptView) (page : Nat × Nat) :
    Nat → Option NptView :=
  fun address =>
    if page4kbCount address = page4kbCount page.1 then mappedView page.2 mapAttrib address
    else view address

/-- A map with pages mapped one after the other. -/
def mapAll (mapAttrib : MappingAttributes) (view : Nat → Option NptView) (pages : List (Nat × Nat)) :
    Nat → Option NptView :=
  pages.foldl (mapPage mapAttrib) view

/-- The addresses of a request: 48 bits of the guest's and 52 of the host's. -/
def InRange (pages : List (Nat × Nat)) : Prop := ∀ page ∈ pages, page.1 < 2 ^ 48 ∧ page.2 < 2 ^ 52

/-- What a sequence of calls leaves, `done` of its pages mapped. -/
structure MapsAll (nptm : SvmCustomNptManager) (mapAttrib : MappingAttributes)
    (pages : List (Nat × Nat)) (nptm' : SvmCustomNptManager) : Prop where
  ready : nptm'.Ready
  view : nptm.AllLinked → ∀ address < 2 ^ 48,
    nptm'.view address = mapAll mapAttrib nptm.view pages address
  /-- Nothing but what was asked for is ever new. -/
  within : ∀ address < 2 ^ 48, nptm'.view address = nptm.view address ∨
    ∃ page ∈ pages, page4kbCount address = page4kbCount page.1 ∧
      nptm'.view address = mappedView page.2 mapAttrib address

section Loop

variable {hostPat : HostPat} {nptm nptm' : SvmCustomNptManager} {mapAttrib : MappingAttributes}
  {pages : List (Nat × Nat)} {gpa hpa : Nat}

theorem MapsAll.refl (hready : nptm.Ready) : MapsAll nptm mapAttrib [] nptm :=
  ⟨hready, fun _ _ _ => rfl, fun _ _ => Or.inl rfl⟩

theorem Maps.ready {st : NoirStatus} (h : Maps nptm gpa hpa mapAttrib st nptm') : nptm'.Ready :=
  ⟨h.wf, h.complete, h.fresh⟩

theorem AllLinked.walkable (h : nptm.AllLinked) (gpa : Nat) : nptm.Walkable gpa :=
  ⟨h 0 (by omega) _, fun _ => h 1 (by omega) _⟩

/-- One call that succeeds, before the others. -/
theorem Maps.cons {nptm'' : SvmCustomNptManager}
    (h : Maps nptm gpa hpa mapAttrib .success nptm') (hrest : MapsAll nptm' mapAttrib pages nptm'') :
    MapsAll nptm mapAttrib ((gpa, hpa) :: pages) nptm'' where
  ready := hrest.ready
  view hlinked address haddress := by
    have hsame : ∀ address < 2 ^ 48,
        nptm'.view address = mapPage mapAttrib nptm.view (gpa, hpa) address := by
      intro address haddress
      rw [h.view address haddress, mapPage]
      simp only [true_and, hlinked.walkable gpa, and_true]
    rw [hrest.view (h.linked rfl hlinked) address haddress]
    unfold mapAll
    rw [List.foldl_cons]
    clear hrest
    generalize mapPage mapAttrib nptm.view (gpa, hpa) = f at hsame
    generalize nptm'.view = g at hsame
    induction pages generalizing f g with
    | nil => exact hsame address haddress
    | cons page pages ih =>
        refine ih _ _ fun address haddress => ?_
        simp only [mapPage, hsame address haddress]
  within address haddress := by
    rcases hrest.within address haddress with hold | ⟨page, hmem, hpage, hnew⟩
    · rw [h.view address haddress] at hold
      split at hold
      · rename_i hthis
        exact Or.inr ⟨_, List.mem_cons_self, hthis.2.1, hold⟩
      · exact Or.inl hold
    · exact Or.inr ⟨page, List.mem_cons_of_mem _ hmem, hpage, hnew⟩

/-- A call that fails leaves the map alone. -/
theorem Maps.failed {st : NoirStatus} (h : Maps nptm gpa hpa mapAttrib st nptm') (hst : st ≠ .success) :
    MapsAll nptm mapAttrib [] nptm' := by
  have hsame : ∀ address < 2 ^ 48, nptm'.view address = nptm.view address := fun address haddress => by
    rw [h.view address haddress, if_neg fun hthis => hst hthis.1]
  exact ⟨h.ready, fun _ => hsame, fun address haddress => Or.inl (hsame address haddress)⟩

/-- What the loop does of its pages: the first `k`, and all of them exactly when no call fails. -/
structure Loops (nptm : SvmCustomNptManager) (mapAttrib : MappingAttributes) (st : NoirStatus)
    (pages : List (Nat × Nat)) (k : Nat) (result : NoirStatus × SvmCustomNptManager) : Prop where
  maps : MapsAll nptm mapAttrib (pages.take k) result.2
  success : result.1 = .success ↔ pages.length = k ∧ (pages = [] → st = .success)
  linked : result.1 = .success → nptm.AllLinked → result.2.AllLinked

theorem Loops.of_withAllocator {allocator : Allocator} {st : NoirStatus} {k : Nat}
    {result : NoirStatus × SvmCustomNptManager}
    (h : Loops (nptm.withAllocator allocator) mapAttrib st pages k result) :
    Loops nptm mapAttrib st pages k result :=
  ⟨⟨h.maps.ready, h.maps.view, h.maps.within⟩, h.success, h.linked⟩

theorem mapPages_loops (hostPat : HostPat) (mapAttrib : MappingAttributes) (hready : nptm.Ready)
    (hrange : InRange pages) (st : NoirStatus) :
    ∃ k ≤ pages.length,
      Loops nptm mapAttrib st pages k (MappedVm.mapPages hostPat mapAttrib st nptm pages) := by
  induction pages generalizing nptm st with
  | nil => exact ⟨0, le_rfl, MapsAll.refl hready, by simp [MappedVm.mapPages], fun _ => id⟩
  | cons page pages ih =>
      obtain ⟨hgpa, hhpa⟩ := hrange page List.mem_cons_self
      have hmaps := setPageMap_maps hostPat hready.wf hready.complete hready.fresh hgpa hhpa mapAttrib
      unfold MappedVm.mapPages
      generalize nvcSvmcSetPageMap hostPat nptm page.1 page.2 mapAttrib = result at hmaps
      by_cases hst : result.1 = .success
      · rw [hst] at hmaps
        obtain ⟨k, hk, hloops⟩ := ih hmaps.ready (fun page hmem => hrange page (.tail _ hmem)) result.1
        refine ⟨k + 1, Nat.succ_le_succ hk, ?_⟩
        simp only [hst, if_true] at hloops ⊢
        exact ⟨hmaps.cons hloops.maps, by simpa using hloops.success,
          fun hsuccess hlinked => hloops.linked hsuccess (hmaps.linked rfl hlinked)⟩
      · refine ⟨0, Nat.zero_le _, ?_⟩
        simp only [hst, if_false]
        exact ⟨hmaps.failed hst, by simp [hst], fun h => absurd h hst⟩

/-- A map without one of its pages. -/
def unmapPage (view : Nat → Option NptView) (gpa : Nat) : Nat → Option NptView :=
  fun address => if page4kbCount address = page4kbCount gpa then none else view address

theorem mappedView_null (hpa address : Nat) : mappedView hpa {} address = none := rfl

/-- A call for a page that finds no table to write to finds nothing mapped there either. -/
theorem view_of_failed (hwf : nptm.Wf) (hgpa : gpa < 2 ^ 48) (hpsize : mapAttrib.psize = 0)
    (hfailed : (nvcSvmcSetPageMap hostPat nptm gpa hpa mapAttrib).1 ≠ .success) :
    nptm.view gpa = none := by
  cases hfound : nptm.findPte gpa with
  | some t =>
      refine absurd ?_ hfailed
      simp [nvcSvmcSetPageMap, describePte, hpsize, hfound]
  | none =>
      have hundescribed : nptm.described 0 (page2mbCount gpa) = none := by
        rw [described_zero hwf, hfound]
        rfl
      rw [view_eq hwf hgpa, unreached_of_undescribed hwf (by omega) hundescribed]
      rfl

/-- A call that unmaps a page leaves it unmapped, whether it succeeds or not. -/
theorem view_of_null (hready : nptm.Ready) (hgpa : gpa < 2 ^ 48) :
    (nvcSvmcSetPageMap hostPat nptm gpa 0 {}).2.view gpa = none := by
  have hmaps := setPageMap_maps hostPat hready.wf hready.complete hready.fresh hgpa
    (Nat.two_pow_pos 52) {}
  rw [hmaps.view gpa hgpa]
  split
  · exact mappedView_null 0 gpa
  · rename_i hnot
    by_cases hst : (nvcSvmcSetPageMap hostPat nptm gpa 0 {}).1 = .success
    · exact unmapped_of_not_walkable hready.wf hgpa fun hwalkable => hnot ⟨hst, rfl, hwalkable⟩
    · exact view_of_failed hready.wf hgpa rfl hst

/-- The view of one address of a page tells whether the page is mapped. -/
theorem view_of_page (hready : nptm.Ready) (hgpa : gpa < 2 ^ 48) (hnone : nptm.view gpa = none)
    {address : Nat} (hpage : page4kbCount address = page4kbCount gpa) : nptm.view address = none := by
  have hoffset : pteOffset address = pteOffset gpa := by
    unfold pteOffset
    rw [hpage]
  have h2mb : page2mbCount address = page2mbCount gpa := by
    unfold page4kbCount at hpage
    unfold page2mbCount
    omega
  rw [view_eq hready.wf (lt_of_page4kbCount_eq hgpa hpage), h2mb]
  rw [view_eq hready.wf hgpa] at hnone
  cases hreached : nptm.reached 0 (page2mbCount gpa) with
  | none => rfl
  | some frame =>
      rw [hreached, Option.bind_some] at hnone
      rw [Option.bind_some]
      unfold pageView at hnone ⊢
      rw [hoffset]
      split at hnone
      · cases hnone
      · rename_i habsent
        exact if_neg habsent

/-- The loop that unmaps removes its one page, whatever fails. -/
theorem mapPages_unmaps (hready : nptm.Ready) (hgpa : gpa < 2 ^ 48) (st : NoirStatus) (n : Nat) :
    ∀ address < 2 ^ 48,
      (MappedVm.mapPages hostPat {} st nptm (List.replicate (n + 1) (gpa, 0))).2.view address =
        unmapPage nptm.view gpa address := by
  intro address haddress
  have hmaps := setPageMap_maps hostPat hready.wf hready.complete hready.fresh hgpa
    (Nat.two_pow_pos 52) {}
  have hnull : ∀ address, page4kbCount address = page4kbCount gpa →
      (nvcSvmcSetPageMap hostPat nptm gpa 0 {}).2.view address = none := fun address hpage =>
    view_of_page hmaps.ready hgpa (view_of_null hready hgpa) hpage
  have hfirst : (nvcSvmcSetPageMap hostPat nptm gpa 0 {}).2.view address =
      unmapPage nptm.view gpa address := by
    unfold unmapPage
    split
    · rename_i hpage
      exact hnull address hpage
    · rename_i hpage
      rw [hmaps.view address haddress, if_neg fun hthis => hpage hthis.2.1]
  rw [List.replicate_succ, MappedVm.mapPages]
  generalize nvcSvmcSetPageMap hostPat nptm gpa 0 {} = result at hmaps hfirst hnull
  by_cases hst : result.1 = .success
  · simp only [hst, if_true]
    have hrange : InRange (List.replicate n (gpa, 0)) := fun page hmem => by
      rw [List.eq_of_mem_replicate hmem]
      exact ⟨hgpa, Nat.two_pow_pos 52⟩
    obtain ⟨k, -, hloops⟩ := mapPages_loops hostPat {} hmaps.ready hrange
      .success
    rw [← hfirst]
    rcases hloops.maps.within address haddress with hold | ⟨page, hmem, hpage, hnew⟩
    · exact hold
    · rw [List.eq_of_mem_replicate (List.mem_of_mem_take hmem)] at hpage hnew
      rw [hnew, mappedView_null, hnull address hpage]
  · simp only [hst, if_false]
    exact hfirst

end Loop

end SvmCustomNptManager

namespace MappedVm

/-- What a request to unmap leaves: one page less, or all of them when it fails before the loop. -/
structure Unmaps (vm : MappedVm) (gpa : Nat) (st : NoirStatus) (vm' : MappedVm) : Prop where
  ready : vm'.nptm.Ready
  linked : st = .success → vm.nptm.AllLinked → vm'.nptm.AllLinked
  tlValid : vm'.tlValid = vm.tlValid
  view : (∀ address < 2 ^ 48, vm'.nptm.view address = unmapPage vm.nptm.view gpa address) ∨
    st ≠ .success ∧ ∀ address < 2 ^ 48, vm'.nptm.view address = vm.nptm.view address

/-- What a request to map leaves. When it fails, pages after the first stay mapped. -/
structure Serves (vm : MappedVm) (mapping : CvmAddressMapping) (physArray : Nat → Nat)
    (st : NoirStatus) (vm' : MappedVm) : Prop where
  ready : vm'.nptm.Ready
  mapped : st = .success → vm.nptm.AllLinked → vm'.nptm.AllLinked ∧ 0 < mapping.pages ∧
    ∀ address < 2 ^ 48, vm'.nptm.view address =
      mapAll mapping.attributes vm.nptm.view (mapping.list physArray) address
  told : st = .success → ∀ v < 255, vm'.tlValid v = false
  left : st ≠ .success → vm.nptm.AllLinked → ∃ k, (k = 0 ∨ k < mapping.pages) ∧
    let stopped := mapAll mapping.attributes vm.nptm.view ((mapping.list physArray).take k)
    (∀ address < 2 ^ 48, vm'.nptm.view address = unmapPage stopped mapping.gpa address) ∨
      ∀ address < 2 ^ 48, vm'.nptm.view address = stopped address
  within : ∀ address < 2 ^ 48, vm'.nptm.view address = vm.nptm.view address ∨
    vm'.nptm.view address = none ∨
      ∃ page ∈ mapping.list physArray, page4kbCount address = page4kbCount page.1 ∧
        vm'.nptm.view address = mappedView page.2 mapping.attributes address

section Requests

variable {hostPat : HostPat} {enableNsv : Bool} {stack : NoirStatus} {fuel : Nat}
  {vm vm' : MappedVm} {gpa pages : Nat} {st : NoirStatus} {mapping : CvmAddressMapping}
  {physArray stale : Nat → Nat}

theorem allocList_ready (h : vm.nptm.Ready) : vm.allocList.2.nptm.Ready :=
  ⟨h.wf.withAllocator _, h.complete, h.fresh.nonpg⟩

theorem reassign_eq {context : NoirRmtReassignmentContext} {nsvRet : Bool}
    (h : vm.reassign enableNsv stack fuel context = .ok (nsvRet, vm')) :
    ∃ host, vm' = { vm with host } := by
  unfold reassign at h
  split at h
  · obtain ⟨⟨ret, host⟩, -, h⟩ := bind_eq_ok.mp h
    cases h
    exact ⟨host, rfl⟩
  · cases h
    exact ⟨vm.host, rfl⟩

theorem Unmaps.same (hready : vm'.nptm.Ready) (hst : st ≠ .success) (htl : vm'.tlValid = vm.tlValid)
    (hview : ∀ address < 2 ^ 48, vm'.nptm.view address = vm.nptm.view address) :
    Unmaps vm gpa st vm' :=
  ⟨hready, fun h => absurd h hst, htl, Or.inr ⟨hst, hview⟩⟩

theorem Unmaps.kept (h : Unmaps vm gpa st vm') {address : Nat} (haddress : address < 2 ^ 48) :
    vm'.nptm.view address = none ∨ vm'.nptm.view address = vm.nptm.view address := by
  rcases h.view with hone | hsame
  · rw [hone address haddress, unmapPage]
    split
    · exact Or.inl rfl
    · exact Or.inr rfl
  · exact Or.inr (hsame.2 address haddress)

/-- However many pages are asked for, the request unmaps the first, and tells no virtual processor. -/
theorem nvcSvmcSetUnmapping_unmaps (hready : vm.nptm.Ready) (hgpa : gpa < 2 ^ 48)
    (h : vm.nvcSvmcSetUnmapping hostPat enableNsv stack fuel gpa pages = .ok (st, vm')) :
    Unmaps vm gpa st vm' := by
  have hready₁ := allocList_ready hready
  unfold nvcSvmcSetUnmapping allocList at h
  dsimp only at h
  split at h
  · obtain ⟨-, -, h⟩ := bind_eq_ok.mp h
    obtain ⟨⟨nsvRet, vm₂⟩, hreassign, h⟩ := bind_eq_ok.mp h
    obtain ⟨host, rfl⟩ := reassign_eq hreassign
    have hinit : (if enableNsv then NoirStatus.nsvViolation else .insufficientResources) ≠
        .success := by
      cases enableNsv <;> decide
    cases nsvRet with
    | false =>
        cases h
        exact Unmaps.same hready₁ hinit rfl fun _ _ => rfl
    | true =>
        cases h
        cases pages with
        | zero => exact Unmaps.same hready₁ hinit rfl fun _ _ => rfl
        | succ n =>
            have hrange : InRange (List.replicate (n + 1) (gpa, 0)) := fun page hmem => by
              rw [List.eq_of_mem_replicate hmem]
              exact ⟨hgpa, Nat.two_pow_pos 52⟩
            obtain ⟨k, -, hloops⟩ := mapPages_loops hostPat {} hready₁
              hrange (if enableNsv then NoirStatus.nsvViolation else .insufficientResources)
            exact ⟨hloops.maps.ready, hloops.linked, rfl,
              Or.inl (mapPages_unmaps hready₁ hgpa _ n)⟩
  · cases h
    exact Unmaps.same hready₁ (by decide) rfl fun _ _ => rfl

theorem Serves.same (hready : vm'.nptm.Ready) (hst : st ≠ .success)
    (hview : ∀ address < 2 ^ 48, vm'.nptm.view address = vm.nptm.view address) :
    Serves vm mapping physArray st vm' :=
  ⟨hready, fun h => absurd h hst, fun h => absurd h hst,
    fun _ _ => ⟨0, Or.inl rfl, Or.inr hview⟩, fun address haddress => Or.inl (hview address haddress)⟩

section Loop

variable {nptm : SvmCustomNptManager} {result : NoirStatus × SvmCustomNptManager} {k : Nat}

theorem length_list (mapping : CvmAddressMapping) (physArray : Nat → Nat) :
    (mapping.list physArray).length = mapping.pages := by
  simp [CvmAddressMapping.list]

theorem serves_of_success {tlValid : Nat → Bool} {asid : Nat} {host : NsvHost}
    (hloops : Loops vm.nptm mapping.attributes .insufficientResources (mapping.list physArray) k
      (st, nptm)) (hst : st = .success) :
    Serves vm mapping physArray st
      { nptm, asid, tlValid := fun v => if v < 255 then false else tlValid v, host } where
  ready := hloops.maps.ready
  mapped hsuccess hlinked := by
    obtain ⟨hlength, hempty⟩ := hloops.success.mp hsuccess
    refine ⟨hloops.linked hsuccess hlinked, ?_, fun address haddress => ?_⟩
    · rw [← length_list mapping physArray, List.length_pos_iff]
      exact fun hnil => absurd (hempty hnil) (by decide)
    · rw [hloops.maps.view hlinked address haddress, ← hlength, List.take_length]
  told _ v hv := if_pos hv
  left h := absurd hst h
  within address haddress := by
    rcases hloops.maps.within address haddress with hold | ⟨page, hmem, hnew⟩
    · exact Or.inl hold
    · exact Or.inr (Or.inr ⟨page, List.mem_of_mem_take hmem, hnew⟩)

theorem serves_of_failure {vm₁ : MappedVm} {st' : NoirStatus}
    (hk : k ≤ (mapping.list physArray).length)
    (hloops : Loops vm.nptm mapping.attributes .insufficientResources (mapping.list physArray) k
      (st, vm₁.nptm)) (hst : st ≠ .success) (hunmaps : Unmaps vm₁ mapping.gpa st' vm') :
    Serves vm mapping physArray st vm' where
  ready := hunmaps.ready
  mapped h := absurd h hst
  told h := absurd h hst
  left _ hlinked := by
    refine ⟨k, ?_, ?_⟩
    · rw [length_list] at hk
      by_contra hall
      refine hst (hloops.success.mpr ⟨?_, fun hnil => ?_⟩)
      · rw [length_list]
        omega
      · have hpages := length_list mapping physArray
        rw [hnil, List.length_nil] at hpages
        omega
    · have hstopped := hloops.maps.view hlinked
      refine hunmaps.view.imp (fun hone address haddress => ?_) fun hsame address haddress => ?_
      · rw [hone address haddress, unmapPage, unmapPage, hstopped address haddress]
      · rw [hsame.2 address haddress, hstopped address haddress]
  within address haddress := by
    rcases hunmaps.kept haddress with hnone | hsame
    · exact Or.inr (Or.inl hnone)
    · rw [hsame]
      rcases hloops.maps.within address haddress with hold | ⟨page, hmem, hnew⟩
      · exact Or.inl hold
      · exact Or.inr (Or.inr ⟨page, List.mem_of_mem_take hmem, hnew⟩)

end Loop

/-- A request to map, whatever allocation fails and whatever the reverse mapping says. -/
theorem nvcSvmcSetMapping_serves (hready : vm.nptm.Ready)
    (hrange : InRange (mapping.list physArray)) (hgpa : mapping.gpa < 2 ^ 48)
    (h : vm.nvcSvmcSetMapping hostPat enableNsv stack fuel mapping physArray stale = .ok (st, vm')) :
    Serves vm mapping physArray st vm' := by
  have hready₁ := allocList_ready hready
  unfold nvcSvmcSetMapping allocList at h
  dsimp only at h
  split at h
  · obtain ⟨-, -, h⟩ := bind_eq_ok.mp h
    obtain ⟨⟨nsvRet, vm₂⟩, hreassign, h⟩ := bind_eq_ok.mp h
    obtain ⟨host, rfl⟩ := reassign_eq hreassign
    cases nsvRet with
    | false =>
        cases h
        exact Serves.same hready₁ (by decide) fun _ _ => rfl
    | true =>
        simp only [if_true] at h
        split at h
        · cases h
          exact Serves.same hready₁ (by decide) fun _ _ => rfl
        · obtain ⟨k, hk, hloops⟩ := mapPages_loops hostPat mapping.attributes hready₁ hrange .insufficientResources
          generalize hresult : mapPages hostPat mapping.attributes .insufficientResources _
            (mapping.list physArray) = result at h
          obtain ⟨st₁, nptm₁⟩ := result
          have hloops' : Loops vm.nptm mapping.attributes .insufficientResources
              (mapping.list physArray) k (st₁, nptm₁) := by
            rw [← hresult]
            exact hloops.of_withAllocator
          dsimp only at h
          split at h
          · rename_i hst
            cases h
            exact serves_of_success hloops' hst
          · rename_i hst
            obtain ⟨⟨st₂, vm₂⟩, hunmap, h⟩ := bind_eq_ok.mp h
            cases h
            exact serves_of_failure hk hloops' hst
              (nvcSvmcSetUnmapping_unmaps hloops'.maps.ready hgpa hunmap)
  · cases h
    exact Serves.same hready₁ (by decide) fun _ _ => rfl

/-- A request to unmap that succeeds unmaps one page, and nobody is told. -/
theorem nvcSvmcSetUnmapping_success (hready : vm.nptm.Ready) (hgpa : gpa < 2 ^ 48)
    (h : vm.nvcSvmcSetUnmapping hostPat enableNsv stack fuel gpa pages = .ok (.success, vm')) :
    vm'.tlValid = vm.tlValid ∧
      ∀ address < 2 ^ 48, vm'.nptm.view address = unmapPage vm.nptm.view gpa address :=
  have hunmaps := nvcSvmcSetUnmapping_unmaps hready hgpa h
  ⟨hunmaps.tlValid, hunmaps.view.resolve_right fun hsame => hsame.1 rfl⟩

/-- A request to map does all its pages, or those before the first that fails without, as a rule, the
first of all. -/
theorem nvcSvmcSetMapping_maps (hready : vm.nptm.Ready) (hlinked : vm.nptm.AllLinked)
    (hrange : InRange (mapping.list physArray)) (hgpa : mapping.gpa < 2 ^ 48)
    (h : vm.nvcSvmcSetMapping hostPat enableNsv stack fuel mapping physArray stale = .ok (st, vm')) :
    ∃ k, let done := mapAll mapping.attributes vm.nptm.view ((mapping.list physArray).take k)
      if st = .success then
        k = mapping.pages ∧ 0 < k ∧ (∀ v < 255, vm'.tlValid v = false) ∧
          ∀ address < 2 ^ 48, vm'.nptm.view address = done address
      else (k = 0 ∨ k < mapping.pages) ∧
        ((∀ address < 2 ^ 48, vm'.nptm.view address = unmapPage done mapping.gpa address) ∨
          ∀ address < 2 ^ 48, vm'.nptm.view address = done address) := by
  have hserves := nvcSvmcSetMapping_serves hready hrange hgpa h
  by_cases hst : st = .success
  · obtain ⟨-, hpages, hview⟩ := hserves.mapped hst hlinked
    refine ⟨mapping.pages, ?_⟩
    rw [← length_list mapping physArray, List.take_length, if_pos hst, length_list]
    exact ⟨rfl, hpages, hserves.told hst, hview⟩
  · obtain ⟨k, hleft⟩ := hserves.left hst hlinked
    exact ⟨k, by rwa [if_neg hst]⟩

end Requests

/-- A VM with no mappings and pages for these tables, on a host without NSV. -/
def newVm (frames : List Nat) : MappedVm where
  nptm := newManager.withAllocator (.ofFrames frames)
  asid := 2
  tlValid _ := true
  host :=
    { nptm :=
        { ncr3 := 0, pdpt := 0, pde := [], pte := [], memory := fun _ _ => {}, allocator := .ofFrames [] }
      rmd := { directory := [], entry := fun _ => configuredEntry 0 1 false noirNsvRmtSubvertedHost } }

theorem newVm_ready {frames : List Nat} (hdistinct : frames.Nodup)
    (hframes : ∀ frame ∈ frames, frame ≠ 1 ∧ frame < 2 ^ 40) : (newVm frames).nptm.Ready :=
  ⟨newManager_isNew.wf.withAllocator _, newManager_isNew.complete le_rfl,
    newManager_fresh hdistinct hframes⟩

/-- Two pages below the first 2 MiB and one above. -/
def threePages : CvmAddressMapping where
  gpa := 0x1fe000
  hva := 0
  pages := 3
  attributes := firstPage.mapAttrib

def fiveUp (i : Nat) : Nat := page4kbMult (5 + i)

theorem threePages_inRange : InRange (threePages.list fiveUp) := by
  unfold InRange
  decide

/-- With pages for three tables a page fails. -/
theorem threePages_maps :
    ∃ vm k, (newVm [2, 3, 4]).nvcSvmcSetMapping (fun _ => 0) false .success 0 threePages fiveUp fiveUp =
        .ok (.insufficientResources, vm) ∧ (k = 0 ∨ k < 3) ∧
      vm.nptm.view 0x1ff000 = mapAll threePages.attributes (newVm [2, 3, 4]).nptm.view
        ((threePages.list fiveUp).take k) 0x1ff000 := by
  obtain ⟨vm, hreturned⟩ : ∃ vm, (newVm [2, 3, 4]).nvcSvmcSetMapping (fun _ => 0) false .success 0
      threePages fiveUp fiveUp = .ok (.insufficientResources, vm) := ⟨_, rfl⟩
  have hlinked : (newVm [2, 3, 4]).nptm.AllLinked := fun _ => newManager_isNew.complete
  obtain ⟨k, hk, hone | hsame⟩ := nvcSvmcSetMapping_maps (newVm_ready (by decide) (by decide))
    hlinked threePages_inRange (by decide) hreturned
  · exact ⟨vm, k, hreturned, hk, hone 0x1ff000 (by decide)⟩
  · exact ⟨vm, k, hreturned, hk, hsame 0x1ff000 (by decide)⟩

/-- The VM with the three pages mapped. -/
def threeMapped : MappedVm :=
  { newVm [2, 3, 4, 5] with
    nptm := (mapPages (fun _ => 0) threePages.attributes .success (newVm [2, 3, 4, 5]).nptm
      (threePages.list fiveUp)).2 }

theorem threeMapped_ready : threeMapped.nptm.Ready :=
  (mapPages_loops _ _ (newVm_ready (by decide) (by decide)) threePages_inRange .success).elim
    fun _ h => h.2.maps.ready

/-- A request to unmap all three of them leaves the second. -/
theorem threeMapped_success :
    ∃ vm, threeMapped.nvcSvmcSetUnmapping (fun _ => 0) false .success 0 0x1fe000 3 =
        .ok (.success, vm) ∧ vm.nptm.view 0x1fe000 = none ∧
      vm.nptm.view 0x1ff000 = threeMapped.nptm.view 0x1ff000 ∧
        threeMapped.nptm.view 0x1ff000 ≠ none := by
  obtain ⟨vm, hreturned⟩ : ∃ vm, threeMapped.nvcSvmcSetUnmapping (fun _ => 0) false .success 0
      0x1fe000 3 = .ok (.success, vm) := ⟨_, rfl⟩
  obtain ⟨-, hview⟩ := nvcSvmcSetUnmapping_success threeMapped_ready (by decide) hreturned
  exact ⟨vm, hreturned, hview 0x1fe000 (by decide), hview 0x1ff000 (by decide), by decide⟩

end MappedVm

end NoirVisor
