import NoirVisor.Custom.Mapping

/-!
# Host pages under a VM

The host pages of a request are locked while the VM has them (`nvc_set_mapping`,
`xpf_core/noirhvm.c`). A request that fails gives up its lock, and so may leave the VM with pages
that the host is free to use for something else.
-/

namespace NoirVisor

open SvmCustomNptManager

/-- A request, with what the host answers: whether there is a locker slot and whether the pages can
be locked, and what the arrays of host and guest addresses then hold. -/
structure MappingRequest where
  mapping : CvmAddressMapping
  slot : Bool
  lock : Bool
  physArray : Nat → Nat
  stale : Nat → Nat
  gpa_lt : mapping.gpa < 2 ^ 48
  inRange : InRange (mapping.list physArray)

/-- The pages `noir_lock_pages` locks. Their length is shifted in 32 bits. -/
def MappingRequest.spanPages (request : MappingRequest) : Nat :=
  (request.mapping.hva % 2 ^ 12 + page4kbMult request.mapping.pages % 2 ^ 32 + (2 ^ 12 - 1)) / 2 ^ 12

/-- A VM and the host pages under the locks it holds. `unpinned` are those it was handed without one
to stay: beyond the lock of their request, or by a request that failed. -/
structure PinnedVm where
  vm : MappedVm
  locked : List Nat
  unpinned : List Nat

namespace PinnedVm

variable (hostPat : HostPat) (enableNsv : Bool) (stack : NoirStatus) (fuel : Nat)

/-- The branch of the SVM core. -/
def nvcSetMapping (s : PinnedVm) (request : MappingRequest) : Outcome (NoirStatus × PinnedVm) := do
  let mapping := request.mapping
  let attributes := mapping.attributes
  if attributes.present || attributes.write || attributes.execute then
    -- This is mapping memories to the guest.
    let (array, vm) := s.vm.allocList
    if request.slot && array then
      if request.lock then
        -- The array was asked for in 32 bits.
        if mapping.pages % 2 ^ 29 < request.spanPages then throw .outOfBounds
        let (st, vm) ← vm.nvcSvmcSetMapping hostPat enableNsv stack fuel mapping request.physArray
          request.stale
        let pages := (List.range mapping.pages).map request.physArray
        let span := (List.range request.spanPages).map request.physArray
        if st = .success then
          return (st, { vm, locked := span ++ s.locked, unpinned := pages.drop request.spanPages ++ s.unpinned })
        else
          return (st, { s with vm, unpinned := pages ++ s.unpinned })
      else
        return (.insufficientResources, { s with vm })
    else
      return (.insufficientResources, { s with vm })
  else
    -- This is unmapping memories from the guest.
    let (st, vm) ←
      s.vm.nvcSvmcSetUnmapping hostPat enableNsv stack fuel mapping.gpa mapping.pages
    return (st, { s with vm })

/-- The memory manager may have any pages left for a request. -/
def withAllocator (s : PinnedVm) (allocator : Allocator) : PinnedVm :=
  { s with vm := { s.vm with nptm := s.vm.nptm.withAllocator allocator } }

def Start (s : PinnedVm) : Prop := s.vm.nptm.IsNew ∧ s.locked = [] ∧ s.unpinned = []

def Step (s s' : PinnedVm) : Prop :=
  ∃ (request : MappingRequest) (allocator : Allocator) (st : NoirStatus),
    allocator.Fresh s.vm.nptm.Used ∧
      (s.withAllocator allocator).nvcSetMapping hostPat enableNsv stack fuel request = .ok (st, s')

/-- The guest is given nothing but host pages that are locked or were handed in without a lock. -/
structure Covered (s : PinnedVm) : Prop where
  wf : s.vm.nptm.Wf
  complete : s.vm.nptm.Complete 2
  pages : ∀ address < 2 ^ 48, ∀ view, s.vm.nptm.view address = some view →
    ∃ hpa ∈ s.locked ++ s.unpinned, page4kbCount view.hpa = page4kbCount hpa

section

variable {hostPat : HostPat} {enableNsv : Bool} {stack : NoirStatus} {fuel : Nat} {s s' : PinnedVm}

theorem Start.covered (h : s.Start) : s.Covered where
  wf := h.1.wf
  complete := h.1.complete le_rfl
  pages address haddress view hview := by
    rw [view_eq h.1.wf haddress, h.1.complete (Nat.zero_le 2)] at hview
    cases hdescribed : s.vm.nptm.described 0 (page2mbCount address) with
    | none => rw [hdescribed] at hview; cases hview
    | some frame => exact absurd (h.1.described hdescribed).1 (by decide)

theorem mappedView_hpa {hpa address : Nat} {mapAttrib : MappingAttributes} {view : NptView}
    (h : mappedView hpa mapAttrib address = some view) : page4kbCount view.hpa = page4kbCount hpa := by
  unfold mappedView at h
  split at h
  · cases h
    simp only [page4kbMult, page4kbCount, page4kbOffset]
    omega
  · cases h

/-- What a request may change: pages of the guest are the host's that it hands in, or are lost. -/
theorem Covered.of_within {vm : MappedVm} {locked unpinned : List Nat} (h : s.Covered)
    (hready : vm.nptm.Ready) (pages : List Nat)
    (hpages : ∀ hpa, hpa ∈ pages ∨ hpa ∈ s.locked ++ s.unpinned → hpa ∈ locked ++ unpinned)
    (hwithin : ∀ address < 2 ^ 48, vm.nptm.view address = s.vm.nptm.view address ∨
      vm.nptm.view address = none ∨ ∃ hpa ∈ pages, ∃ mapAttrib,
        vm.nptm.view address = mappedView hpa mapAttrib address) :
    Covered { vm, locked, unpinned } where
  wf := hready.wf
  complete := hready.complete
  pages address haddress view hview := by
    rcases hwithin address haddress with hold | hnone | ⟨hpa, hmem, mapAttrib, hnew⟩
    · obtain ⟨hpa, hmem, hsame⟩ := h.pages address haddress view (hold ▸ hview)
      exact ⟨hpa, hpages hpa (Or.inr hmem), hsame⟩
    · rw [hnone] at hview
      cases hview
    · exact ⟨hpa, hpages hpa (Or.inl hmem), mappedView_hpa (hnew ▸ hview)⟩

theorem hands_of_serves {request : MappingRequest} {vm vm' : MappedVm} {st : NoirStatus}
    (hserves : vm'.Serves request.mapping request.physArray st vm) {address : Nat}
    (haddress : address < 2 ^ 48) :
    vm.nptm.view address = vm'.nptm.view address ∨ vm.nptm.view address = none ∨
      ∃ hpa ∈ (List.range request.mapping.pages).map request.physArray, ∃ mapAttrib,
        vm.nptm.view address = mappedView hpa mapAttrib address := by
  refine (hserves.within address haddress).imp_right (Or.imp_right ?_)
  rintro ⟨page, hmem, -, hnew⟩
  obtain ⟨i, hi, rfl⟩ := List.mem_map.mp hmem
  exact ⟨_, List.mem_map.mpr ⟨i, hi, rfl⟩, _, hnew⟩

/-- The pages of a request are those under its lock and those beyond. -/
theorem mem_span_or_drop {physArray : Nat → Nat} {pages span hpa : Nat}
    (h : hpa ∈ (List.range pages).map physArray) :
    hpa ∈ (List.range span).map physArray ∨ hpa ∈ ((List.range pages).map physArray).drop span := by
  rw [← List.take_append_drop span ((List.range pages).map physArray)] at h
  refine (List.mem_append.mp h).imp_left fun htake => ?_
  rw [← List.map_take, List.take_range] at htake
  obtain ⟨i, hi, rfl⟩ := List.mem_map.mp htake
  exact List.mem_map.mpr ⟨i, List.mem_range.mpr (by have := List.mem_range.mp hi; omega), rfl⟩

theorem Covered.step (h : s.Covered) (hstep : Step hostPat enableNsv stack fuel s s') : s'.Covered := by
  obtain ⟨request, allocator, st, hfresh, hreturned⟩ := hstep
  have hready : (s.vm.nptm.withAllocator allocator).Ready :=
    ⟨h.wf.withAllocator allocator, h.complete, hfresh⟩
  unfold nvcSetMapping at hreturned
  dsimp only at hreturned
  split at hreturned
  · split at hreturned
    · split at hreturned
      · split at hreturned
        · cases hreturned
        · obtain ⟨⟨st₁, vm₁⟩, hserved, hreturned⟩ := bind_eq_ok.mp hreturned
          have hserves := MappedVm.nvcSvmcSetMapping_serves (MappedVm.allocList_ready hready)
            request.inRange request.gpa_lt hserved
          dsimp only at hreturned
          split at hreturned
          · cases hreturned
            refine h.of_within hserves.ready _ (fun hpa hmem => ?_) fun address haddress =>
              hands_of_serves hserves haddress
            simp only [List.mem_append] at hmem ⊢
            rcases hmem with hnew | hlocked | hunpinned
            · exact (mem_span_or_drop hnew).imp Or.inl Or.inl
            · exact Or.inl (Or.inr hlocked)
            · exact Or.inr (Or.inr hunpinned)
          · cases hreturned
            refine h.of_within hserves.ready _ (fun hpa hmem => ?_) fun address haddress =>
              hands_of_serves hserves haddress
            simp only [List.mem_append] at hmem ⊢
            rcases hmem with hnew | hlocked | hunpinned
            · exact Or.inr (Or.inl hnew)
            · exact Or.inl hlocked
            · exact Or.inr (Or.inr hunpinned)
      · cases hreturned
        exact ⟨h.wf.withAllocator _, h.complete, h.pages⟩
    · cases hreturned
      exact ⟨h.wf.withAllocator _, h.complete, h.pages⟩
  · obtain ⟨⟨st₁, vm₁⟩, hunmapped, hreturned⟩ := bind_eq_ok.mp hreturned
    cases hreturned
    have hunmaps := MappedVm.nvcSvmcSetUnmapping_unmaps hready request.gpa_lt hunmapped
    refine h.of_within hunmaps.ready [] 
      (fun hpa hmem => hmem.elim (fun hnil => absurd hnil List.not_mem_nil) id)
      fun address haddress => ?_
    exact (hunmaps.kept haddress).elim (fun hnone => Or.inr (Or.inl hnone)) Or.inl

/-- In every run of requests, any of them failing, every host page that the guest reaches is locked or
was handed in without a lock to stay. -/
theorem reachable_covered (h : Transition.Reachable Start (Step hostPat enableNsv stack fuel) s)
    {address : Nat} (haddress : address < 2 ^ 48) {view : NptView}
    (hview : s.vm.nptm.view address = some view) :
    ∃ hpa ∈ s.locked ++ s.unpinned, page4kbCount view.hpa = page4kbCount hpa :=
  (h.invariant (P := Covered) (fun _ hstart => hstart.covered) fun _ _ _ hs hstep => hs.step hstep).pages
    address haddress view hview

end

/-- A request that fails at its third page. -/
def failedRequest : MappingRequest where
  mapping := MappedVm.threePages
  slot := true
  lock := true
  physArray := MappedVm.fiveUp
  stale := MappedVm.fiveUp
  gpa_lt := show 0x1fe000 < 2 ^ 48 by decide
  inRange := MappedVm.threePages_inRange

def handedOver : PinnedVm := { vm := MappedVm.newVm [], locked := [], unpinned := [] }

def failedResult : Outcome (NoirStatus × PinnedVm) :=
  (handedOver.withAllocator (.ofFrames [2, 3, 4])).nvcSetMapping (fun _ => 0) false .success 0
    failedRequest

/-- The guest still reaches the host page of the second, and nothing is locked. -/
theorem failedRequest_covered :
    ∃ s, Transition.Reachable Start (Step (fun _ => 0) false .success 0) s ∧ s.locked = [] ∧
      ∃ view, s.vm.nptm.view 0x1ff000 = some view ∧
        ∃ hpa ∈ s.locked ++ s.unpinned, page4kbCount view.hpa = page4kbCount hpa := by
  have hresult : (failedResult.toOption.map fun r =>
      (r.2.locked, (r.2.vm.nptm.view 0x1ff000).isSome)) = some ([], true) := by decide +kernel
  cases hreturned : failedResult with
  | error fault => rw [hreturned] at hresult; cases hresult
  | ok r =>
      rw [hreturned] at hresult
      obtain ⟨st, s⟩ := r
      obtain ⟨hlocked, hsome⟩ := Prod.mk.inj (Option.some.inj hresult)
      obtain ⟨view, hview⟩ := Option.isSome_iff_exists.mp hsome
      have hreachable : Transition.Reachable Start (Step (fun _ => 0) false .success 0) s :=
        .step (.start ⟨⟨1, fun _ _ => {}, .ofFrames [], by decide, rfl⟩, rfl, rfl⟩)
          ⟨failedRequest, .ofFrames [2, 3, 4], st, newManager_fresh (by decide) (by decide), hreturned⟩
      exact ⟨s, hreachable, hlocked, view, hview, reachable_covered hreachable (by decide) hview⟩

end PinnedVm

end NoirVisor
