import NoirVisor.Npt.Aside
import NoirVisor.Rmt.Ownership
import NoirVisor.Rmt.Reassign

/-!
# Tables taken by a reassignment

Splitting the host's pages takes pages from the memory manager, and each is assigned to NoirVisor by
a reassignment of its own. That is all a reassignment does to the table apart from its request:
the entries of other pages stay, whichever way the recursion goes.
-/

namespace NoirVisor.NsvHost

open NptManager

/-- A page that the memory manager is to hand out. -/
def Given (host : NsvHost) (phys : Nat) : Prop :=
  ∃ k frame, host.nptm.allocator.contd k = some frame ∧ phys = page4kbMult frame

/-- Descriptors are only ever appended. -/
structure Extends (host host' : NsvHost) : Prop where
  pde : ∃ taken, host'.nptm.pde = host.nptm.pde ++ taken
  pte : ∃ taken, host'.nptm.pte = host.nptm.pte ++ taken

/-- A host after tables were taken. -/
structure Grown (origin host : NsvHost) : Prop where
  extend : Extends origin host
  directory : host.rmd.directory = origin.rmd.directory
  given : ∀ phys, host.Given phys → origin.Given phys
  taken : ∀ t ∈ host.nptm.pte, t ∈ origin.nptm.pte ∨ origin.Given t.phys
  entry : ∀ place, host.rmd.entry place = origin.rmd.entry place ∨
    ∃ phys, origin.Given phys ∧ origin.rmd.locate phys = .ok (some place)

variable {origin host host' : NsvHost} {nptm : NptManager} {p : Pointer NptDescriptor}
  {stack status : NoirStatus} {hpa phys : Nat} {hpaList : List Nat} {next result result' b : Bool}
  {reassign : NsvHost → Nat → Outcome (Bool × NsvHost)}

theorem Extends.refl (host : NsvHost) : Extends host host :=
  ⟨⟨[], (List.append_nil _).symm⟩, ⟨[], (List.append_nil _).symm⟩⟩

/-- A step of the manager that leaves its lists alone. -/
theorem Extends.same (hpde : nptm.pde = host.nptm.pde) (hpte : nptm.pte = host.nptm.pte) :
    Extends host { host with nptm } :=
  ⟨⟨[], by rw [List.append_nil, ← hpde]⟩, ⟨[], by rw [List.append_nil, ← hpte]⟩⟩

theorem Extends.trans {host'' : NsvHost} (h : Extends host host') (h' : Extends host' host'') :
    Extends host host'' := by
  obtain ⟨⟨pde, hpde⟩, ⟨pte, hpte⟩⟩ := h
  obtain ⟨⟨pde', hpde'⟩, ⟨pte', hpte'⟩⟩ := h'
  refine ⟨⟨pde ++ pde', ?_⟩, ⟨pte ++ pte', ?_⟩⟩
  · rw [hpde', hpde, List.append_assoc]
  · rw [hpte', hpte, List.append_assoc]

theorem Extends.findPde (h : Extends host host') (hfound : host.nptm.findPde hpa ≠ none) :
    host'.nptm.findPde hpa ≠ none := by
  obtain ⟨d, hd⟩ := Option.ne_none_iff_exists'.mp hfound
  obtain ⟨⟨pde, hpde⟩, -⟩ := h
  rw [NptManager.findPde, hpde, Radix.covering_append_of_some hd]
  exact Option.some_ne_none d

theorem Extends.findPte (h : Extends host host') (hfound : host.nptm.findPte hpa ≠ none) :
    host'.nptm.findPte hpa ≠ none := by
  obtain ⟨t, ht⟩ := Option.ne_none_iff_exists'.mp hfound
  obtain ⟨-, ⟨pte, hpte⟩⟩ := h
  rw [NptManager.findPte, hpte, Radix.covering_append_of_some ht]
  exact Option.some_ne_none t

theorem Grown.refl (host : NsvHost) : Grown host host :=
  ⟨.refl host, rfl, fun _ => id, fun _ => Or.inl, fun _ => Or.inl rfl⟩

/-- A table that was not described is one that was taken. -/
theorem Grown.given_of_findPte {t : NptDescriptor} (hgrown : Grown origin host')
    (hhost : Extends origin host) (hnone : host.nptm.findPte hpa = none)
    (hfound : host'.nptm.findPte hpa = some t) : origin.Given t.phys := by
  rcases hgrown.taken t (List.mem_of_find?_eq_some hfound) with hold | hgiven
  · obtain ⟨-, ⟨pte, hpte⟩⟩ := hhost
    have hmem : t ∈ host.nptm.pte := hpte ▸ List.mem_append_left pte hold
    exact absurd (List.find?_some hfound) (List.find?_eq_none.mp hnone t hmem)
  · exact hgiven

/-! ### Taking a table -/

/-- A step of the manager that hands out no other page than it was to. -/
theorem Grown.manage (hgrown : Grown origin host)
    (hgiven : ∀ phys, Given { host with nptm } phys → host.Given phys)
    (hextends : Extends host { host with nptm })
    (htaken : ∀ t ∈ nptm.pte, t ∈ host.nptm.pte ∨ host.Given t.phys) :
    Grown origin { host with nptm } where
  extend := hgrown.extend.trans hextends
  directory := hgrown.directory
  given phys h := hgrown.given phys (hgiven phys h)
  taken t ht := by
    rcases htaken t ht with hold | hnew
    · exact hgrown.taken t hold
    · exact Or.inr (hgrown.given _ hnew)
  entry := hgrown.entry

/-- What a host is once its manager was asked for a table. -/
structure Asked (origin host : NsvHost) (taken : Pointer NptDescriptor × NptManager)
    (find : NptManager → Option NptDescriptor) : Prop where
  grown : Grown origin { host with nptm := taken.2 }
  extend : Extends host { host with nptm := taken.2 }
  found : ∀ d, taken.1 = .valid d → origin.Given d.phys ∧ find taken.2 ≠ none

theorem Grown.refused {allocator : Allocator} {find : NptManager → Option NptDescriptor}
    (hgrown : Grown origin host) (hnull : ∀ d, p ≠ .valid d)
    (hlater : ∀ k, ∃ j, allocator.contd k = host.nptm.allocator.contd j) :
    Asked origin host (p, { host.nptm with allocator }) find := by
  have hextend : Extends host { host with nptm := { host.nptm with allocator } } := .same rfl rfl
  refine ⟨hgrown.manage ?_ hextend fun _ => Or.inl, hextend, fun d hd => absurd hd (hnull d)⟩
  rintro phys ⟨k, frame, hframe, rfl⟩
  obtain ⟨j, hj⟩ := hlater k
  exact ⟨j, frame, hj ▸ hframe, rfl⟩

theorem given_next (hallocator : nptm.allocator = host.nptm.allocator.next) :
    ∀ phys, Given { host with nptm } phys → host.Given phys := by
  rintro phys ⟨k, frame, hframe, rfl⟩
  refine ⟨k + 1, frame, ?_, rfl⟩
  rw [← hframe]
  exact (congrArg (·.contd k) hallocator).symm

theorem findPde_pushPde (nptm : NptManager) (hpa frame : Nat) (allocator : Allocator) :
    NptManager.findPde { (nptm.pushPde hpa frame).2 with allocator } hpa ≠ none := by
  simp only [NptManager.findPde, NptManager.pushPde]
  rw [Radix.covering_append (by decide) (by simp only [page2mbSize, page1gbSize]; omega),
    if_pos (by simp only [page1gbCount, page2mbSize, page1gbSize]; omega)]
  cases Radix.covering NptDescriptor.gpaStart page1gbSize hpa nptm.pde <;> exact Option.some_ne_none _

theorem findPte_pushPte (nptm : NptManager) (hpa frame : Nat) (allocator : Allocator) :
    NptManager.findPte { (nptm.pushPte hpa frame).2 with allocator } hpa ≠ none := by
  simp only [NptManager.findPte, NptManager.pushPte]
  rw [Radix.covering_append (by decide) (by simp only [page2mbSize, page4kbSize]; omega),
    if_pos (by simp only [page2mbCount, page2mbSize, page4kbSize]; omega)]
  cases Radix.covering NptDescriptor.gpaStart page2mbSize hpa nptm.pte <;> exact Option.some_ne_none _

theorem Grown.takePde {taken : Pointer NptDescriptor × NptManager} (hgrown : Grown origin host)
    (htaken : Taken host.nptm (host.nptm.pushPde hpa) taken) :
    Asked origin host taken (·.findPde hpa) := by
  cases htaken with
  | refused hnull hlater => exact hgrown.refused hnull hlater
  | @valid frame hgiven =>
      have hextend : Extends host { host with
          nptm := { (host.nptm.pushPde hpa frame).2 with allocator := host.nptm.allocator.next } } :=
        ⟨⟨_, rfl⟩, ⟨[], (List.append_nil _).symm⟩⟩
      refine ⟨hgrown.manage (given_next rfl) hextend fun _ => Or.inl, hextend, ?_⟩
      rintro d hd
      obtain rfl := Pointer.valid.inj hd
      exact ⟨hgrown.given _ ⟨0, frame, hgiven, rfl⟩, findPde_pushPde _ hpa frame _⟩

theorem Grown.takePte {taken : Pointer NptDescriptor × NptManager} (hgrown : Grown origin host)
    (htaken : Taken host.nptm (host.nptm.pushPte hpa) taken) :
    Asked origin host taken (·.findPte hpa) := by
  cases htaken with
  | refused hnull hlater => exact hgrown.refused hnull hlater
  | @valid frame hgiven =>
      have hextend : Extends host { host with
          nptm := { (host.nptm.pushPte hpa frame).2 with allocator := host.nptm.allocator.next } } :=
        ⟨⟨[], (List.append_nil _).symm⟩, ⟨_, rfl⟩⟩
      refine ⟨hgrown.manage (given_next rfl) hextend ?_, hextend, ?_⟩
      · intro t ht
        rcases List.mem_append.mp ht with hold | hnew
        · exact Or.inl hold
        · obtain rfl := List.mem_singleton.mp hnew
          exact Or.inr ⟨0, frame, hgiven, rfl⟩
      · rintro d hd
        obtain rfl := Pointer.valid.inj hd
        exact ⟨hgrown.given _ ⟨0, frame, hgiven, rfl⟩, findPte_pushPte _ hpa frame _⟩

/-! ### The recursion -/

/-- A reassignment of the page of a table. -/
def Sound (origin : NsvHost) (reassign : NsvHost → Nat → Outcome (Bool × NsvHost)) : Prop :=
  ∀ host phys b host', Grown origin host → origin.Given phys →
    reassign host phys = .ok (b, host') → Grown origin host' ∧ Extends host host'

theorem claimTable_grown {taken : Pointer NptDescriptor × NptManager}
    {find : NptManager → Option NptDescriptor} (hsound : Sound origin reassign)
    (hfind : ∀ {host host'}, Extends host host' → find host.nptm ≠ none → find host'.nptm ≠ none)
    (hasked : Asked origin host taken find)
    (h : claimTable reassign host result (.ok taken) = .ok (next, result', host')) :
    Grown origin host' ∧ Extends host host' ∧ (next = true → find host'.nptm ≠ none) := by
  unfold claimTable at h
  rw [Outcome.ok_bind] at h
  simp only at h
  split at h
  · cases h
    exact ⟨hasked.grown, hasked.extend, fun h => (nomatch h)⟩
  · obtain ⟨d, hd, h⟩ := bind_eq_ok.mp h
    obtain ⟨⟨b, host₁⟩, hreassign, h⟩ := bind_eq_ok.mp h
    cases h
    obtain ⟨hgiven, hfound⟩ := hasked.found d (Pointer.deref_eq_ok.mp hd)
    obtain ⟨hgrown, hextend⟩ := hsound _ _ _ _ hasked.grown hgiven hreassign
    exact ⟨hgrown, hasked.extend.trans hextend, fun _ => hfind hextend hfound⟩

/-- The second half of a step: the table of the 2 MiB page, unless the reassignment of another table
described it. -/
theorem splitPage_pte {host₀ : NsvHost} (hsound : Sound origin reassign)
    (horigin : Extends origin host₀) (hnone : host₀.nptm.findPte hpa = none)
    (hgrown : Grown origin host) (hpde : host.nptm.findPde hpa ≠ none)
    (h : claimTable reassign host result (host.nptm.nvcNptSplitPde hpa false true) =
      .ok (next, result', host')) :
    Grown origin host' ∧ Extends host host' ∧ (next = true → host'.nptm.findPte hpa ≠ none) := by
  obtain ⟨d, hd⟩ := Option.ne_none_iff_exists'.mp hpde
  cases hpte : host.nptm.findPte hpa with
  | some t =>
      rw [nvcNptSplitPde_found hpte] at h
      have hasked : Asked origin host (.valid t, host.nptm) (·.findPte hpa) := by
        refine ⟨hgrown, .refl host, fun t' ht => ?_⟩
        obtain rfl := Pointer.valid.inj ht
        refine ⟨hgrown.given_of_findPte horigin hnone hpte, ?_⟩
        rw [hpte]
        exact Option.some_ne_none t
      exact claimTable_grown hsound (·.findPte) hasked h
  | none =>
      obtain ⟨taken, hsplit, htaken⟩ := nvcNptSplitPde_taken hd hpte
      rw [hsplit] at h
      exact claimTable_grown hsound (·.findPte) (hgrown.takePte htaken) h

theorem splitPage_grown (hsound : Sound origin reassign) (hgrown : Grown origin host)
    (h : splitPage reassign host result hpa = .ok (next, result', host')) :
    Grown origin host' ∧ Extends host host' ∧
      (next = true → host'.nptm.findPde hpa ≠ none ∧ host'.nptm.findPte hpa ≠ none) := by
  -- Whatever became of the first half, `host₁` is where the second starts.
  have hrest : ∀ next₁ result₁ host₁, Grown origin host₁ → Extends host host₁ →
      (next₁ = true → host₁.nptm.findPde hpa ≠ none) →
      (if (next₁ && (Pointer.ofOption (host.nptm.findPte hpa)).isNull) = true then
        claimTable reassign host₁ result₁ (host₁.nptm.nvcNptSplitPde hpa false true)
      else pure (next₁, result₁, host₁)) = .ok (next, result', host') →
      Grown origin host' ∧ Extends host host' ∧
        (next = true → host'.nptm.findPde hpa ≠ none ∧ host'.nptm.findPte hpa ≠ none) := by
    intro next₁ result₁ host₁ hgrown₁ hextend₁ hfound₁ h
    cases hpte : host.nptm.findPte hpa with
    | some t =>
        simp only [hpte, Pointer.ofOption, Pointer.isNull, Bool.and_false, Bool.false_eq_true,
          if_false] at h
        cases h
        refine ⟨hgrown₁, hextend₁, fun htrue => ⟨hfound₁ htrue, hextend₁.findPte ?_⟩⟩
        rw [hpte]
        exact Option.some_ne_none t
    | none =>
        simp only [hpte, Pointer.ofOption, Pointer.isNull, Bool.and_true] at h
        cases next₁ with
        | false =>
            cases h
            exact ⟨hgrown₁, hextend₁, by rintro ⟨⟩⟩
        | true =>
            obtain ⟨hgrown', hextend', hfound'⟩ := splitPage_pte hsound hgrown.extend hpte hgrown₁
              (hfound₁ rfl) h
            exact ⟨hgrown', hextend₁.trans hextend', fun htrue =>
              ⟨hextend'.findPde (hfound₁ rfl), hfound' htrue⟩⟩
  unfold splitPage at h
  rw [nvcNptSplitPdpte_lookup, Outcome.ok_bind] at h
  simp only at h
  rw [nvcNptSplitPde_lookup, Outcome.ok_bind] at h
  cases hpde : host.nptm.findPde hpa with
  | some d =>
      rw [hpde] at h
      refine hrest true result host hgrown (.refl host) (fun _ => ?_) h
      rw [hpde]
      exact Option.some_ne_none d
  | none =>
      obtain ⟨taken, hsplit, htaken⟩ := nvcNptSplitPdpte_taken hpde
      simp only [hpde, Pointer.ofOption, Pointer.isNull, if_true, hsplit] at h
      obtain ⟨⟨next₁, result₁, host₁⟩, hfirst, h⟩ := bind_eq_ok.mp h
      obtain ⟨hgrown₁, hextend₁, hfound₁⟩ := claimTable_grown hsound (·.findPde)
        (hgrown.takePde htaken) hfirst
      exact hrest next₁ result₁ host₁ hgrown₁ hextend₁ hfound₁ h

theorem splitPages_grown (hsound : Sound origin reassign) (hgrown : Grown origin host)
    (h : splitPages reassign host result hpaList = .ok (next, result', host')) :
    Grown origin host' ∧ Extends host host' ∧ (next = true → ∀ hpa ∈ hpaList,
      host'.nptm.findPde hpa ≠ none ∧ host'.nptm.findPte hpa ≠ none) := by
  induction hpaList generalizing host result with
  | nil =>
      cases h
      exact ⟨hgrown, .refl _, fun _ hpa hmem => by cases hmem⟩
  | cons hpa hpaList ih =>
      obtain ⟨⟨next₁, result₁, host₁⟩, hfirst, h⟩ := bind_eq_ok.mp h
      obtain ⟨hgrown₁, hextend₁, hfound₁⟩ := splitPage_grown hsound hgrown hfirst
      cases next₁ with
      | false =>
          cases h
          exact ⟨hgrown₁, hextend₁, fun h => (nomatch h)⟩
      | true =>
          obtain ⟨hgrown', hextend', hrest⟩ := ih hgrown₁ h
          refine ⟨hgrown', hextend₁.trans hextend', fun htrue hpa' hmem => ?_⟩
          rcases List.mem_cons.mp hmem with rfl | hmem
          · exact ⟨hextend'.findPde (hfound₁ rfl).1, hextend'.findPte (hfound₁ rfl).2⟩
          · exact hrest htrue hpa' hmem

/-! ### Stage III -/

/-- Remapping writes entries of tables. -/
structure Remapped (host host' : NsvHost) : Prop where
  rmd : host'.rmd = host.rmd
  pde : host'.nptm.pde = host.nptm.pde
  pte : host'.nptm.pte = host.nptm.pte
  allocator : host'.nptm.allocator = host.nptm.allocator

theorem nvcNptReassignPageOwnershipHvrt_remapped {status' : NoirStatus}
    (h : nvcNptReassignPageOwnershipHvrt host status hpaList = .ok (status', host')) :
    Remapped host host' ∧ ∀ hpa ∈ hpaList, page1gbCount hpa < 512 * 512 := by
  induction hpaList generalizing host status with
  | nil =>
      cases h
      exact ⟨⟨rfl, rfl, rfl, rfl⟩, fun hpa hmem => by cases hmem⟩
  | cons hpa hpaList ih =>
      obtain ⟨rmt, -, h⟩ := bind_eq_ok.mp h
      obtain ⟨pde, hpde, h⟩ := bind_eq_ok.mp h
      obtain ⟨d, -, hlt, rfl⟩ := nvcNptSplitPdpte_link.2 _ hpde
      obtain ⟨pte, hpte, h⟩ := bind_eq_ok.mp h
      obtain ⟨d', t, -, -, -, rfl⟩ := nvcNptSplitPde_link.2 _ hpte
      simp only [Pointer.isNull, Bool.or_false, Bool.false_eq_true, if_false] at h
      obtain ⟨t', -, h⟩ := bind_eq_ok.mp h
      obtain ⟨entry, -, h⟩ := bind_eq_ok.mp h
      obtain ⟨hrest, hbound⟩ := ih h
      refine ⟨⟨hrest.rmd, hrest.pde, hrest.pte, hrest.allocator⟩, fun hpa' hmem => ?_⟩
      rcases List.mem_cons.mp hmem with rfl | hmem
      · exact hlt
      · exact hbound hpa' hmem

/-- It returns where Stage I described the pages. -/
theorem nvcNptReassignPageOwnershipHvrt_returns
    (hfound : ∀ hpa ∈ hpaList, host.nptm.findPde hpa ≠ none ∧ host.nptm.findPte hpa ≠ none)
    (hlocated : ∀ hpa ∈ hpaList, ∃ place, host.rmd.locate hpa = .ok (some place))
    (hbound : ∀ hpa ∈ hpaList, page1gbCount hpa < 512 * 512) :
    ∃ r, nvcNptReassignPageOwnershipHvrt host status hpaList = .ok r := by
  induction hpaList generalizing host status with
  | nil => exact ⟨_, rfl⟩
  | cons hpa hpaList ih =>
      obtain ⟨hpde, hpte⟩ := hfound hpa List.mem_cons_self
      obtain ⟨d, hd⟩ := Option.ne_none_iff_exists'.mp hpde
      obtain ⟨t, ht⟩ := Option.ne_none_iff_exists'.mp hpte
      obtain ⟨place, hplace⟩ := hlocated hpa List.mem_cons_self
      have hlt := hbound hpa List.mem_cons_self
      unfold nvcNptReassignPageOwnershipHvrt
      rw [nvcGetRmtEntry, hplace, nvcNptSplitPdpte_linked hd hlt]
      simp only [bind, Except.bind, pure, Except.pure]
      have hd' : (host.nptm.linkPdpte hpa d).findPde hpa = some d := hd
      have ht' : (host.nptm.linkPdpte hpa d).findPte hpa = some t := ht
      rw [nvcNptSplitPde_linked hd' ht' hlt]
      exact ih (fun hpa' hmem => hfound hpa' (List.mem_cons_of_mem _ hmem))
        (fun hpa' hmem => hlocated hpa' (List.mem_cons_of_mem _ hmem))
        fun hpa' hmem => hbound hpa' (List.mem_cons_of_mem _ hmem)

theorem Grown.remapped (hgrown : Grown origin host) (h : Remapped host host') :
    Grown origin host' ∧ Extends host host' := by
  have hextend : Extends host host' :=
    ⟨⟨[], by rw [List.append_nil, h.pde]⟩, ⟨[], by rw [List.append_nil, h.pte]⟩⟩
  refine ⟨⟨hgrown.extend.trans hextend, ?_, ?_, ?_, ?_⟩, hextend⟩
  · rw [h.rmd, hgrown.directory]
  · rintro phys ⟨k, frame, hframe, rfl⟩
    exact hgrown.given _ ⟨k, frame, h.allocator ▸ hframe, rfl⟩
  · rw [h.pte]
    exact hgrown.taken
  · rw [h.rmd]
    exact hgrown.entry

/-! ### Stage II -/

/-- The page of a table goes to NoirVisor. -/
theorem Grown.assigned {rmd : ReverseMappingDirectory} (hgrown : Grown origin host)
    (hgiven : origin.Given phys)
    (h : noirSvmNsvReassignRmt host.rmd (tableContext phys) = .ok (b, rmd)) :
    Grown origin { host with rmd } := by
  rcases noirSvmNsvReassignRmt_ok h with ⟨-, rfl⟩ | ⟨-, -, hdirectory, hentry⟩
  · exact hgrown
  · refine ⟨⟨hgrown.extend.pde, hgrown.extend.pte⟩, hdirectory.trans hgrown.directory, hgrown.given, hgrown.taken,
      fun place => ?_⟩
    simp only [hentry]
    rcases Batch.writes_eq_or host.rmd.entry
        ((tableContext phys).writes host.rmd (tableContext phys).pages) place with
      hkeep | ⟨w, hw, rfl, -⟩
    · rw [hkeep]
      exact hgrown.entry place
    · obtain ⟨page, hpage, hlocate, -⟩ := NoirRmtReassignmentContext.mem_writes.mp hw
      obtain rfl := List.mem_singleton.mp hpage
      rw [ReverseMappingDirectory.locate_congr hgrown.directory] at hlocate
      exact Or.inr ⟨phys, hgiven, hlocate⟩

/-- However deep the recursion, the pages of tables are the only ones it touches. -/
theorem nvcNptReassignPageOwnershipUnsafe_sound (origin : NsvHost) (stack : NoirStatus)
    (fuel : Nat) : Sound origin fun host phys =>
      nvcNptReassignPageOwnershipUnsafe stack fuel host (tableContext phys) := by
  induction fuel with
  | zero =>
      rintro host phys b host' - - h
      cases h
  | succ fuel ih =>
      intro host phys b host' hgrown hgiven h
      obtain ⟨⟨next, result, host₁⟩, hsplit, h⟩ := bind_eq_ok.mp h
      obtain ⟨hgrown₁, hextend₁, -⟩ := splitPages_grown ih hgrown hsplit
      cases next with
      | false =>
          cases h
          exact ⟨hgrown₁, hextend₁⟩
      | true =>
          obtain ⟨⟨valid, rmd⟩, hassign, h⟩ := bind_eq_ok.mp h
          have hgrown₂ := hgrown₁.assigned hgiven hassign
          have hextend₂ : Extends host { host₁ with rmd } := ⟨hextend₁.pde, hextend₁.pte⟩
          cases valid with
          | false =>
              cases h
              exact ⟨hgrown₂, hextend₂⟩
          | true =>
              obtain ⟨⟨status, host₂⟩, hremap, h⟩ := bind_eq_ok.mp h
              cases h
              obtain ⟨hgrown', hextend'⟩ :=
                hgrown₂.remapped (nvcNptReassignPageOwnershipHvrt_remapped hremap).1
              exact ⟨hgrown', hextend₂.trans hextend'⟩

/-! ### A request -/

section Request

variable {fuel : Nat} {context : NoirRmtReassignmentContext} {rmd : ReverseMappingDirectory}
  {host₁ : NsvHost}

theorem nvcNptReassignPageOwnershipUnsafe_returns
    (hsplit : splitPages (fun host phys =>
      nvcNptReassignPageOwnershipUnsafe stack fuel host (tableContext phys)) host false
        (context.pages.map Prod.fst) = .ok (true, result, host₁))
    (hassign : noirSvmNsvReassignRmt host₁.rmd context = .ok (true, rmd))
    (hlocated : ∀ page ∈ context.pages, ∃ place, host₁.rmd.locate page.1 = .ok (some place))
    (hbound : ∀ page ∈ context.pages, page1gbCount page.1 < 512 * 512) :
    ∃ b host', nvcNptReassignPageOwnershipUnsafe stack (fuel + 1) host context = .ok (b, host') ∧
      host'.rmd = rmd := by
  obtain ⟨-, -, hfound⟩ := splitPages_grown
    (nvcNptReassignPageOwnershipUnsafe_sound host stack fuel) (.refl host) hsplit
  have hdirectory : rmd.directory = host₁.rmd.directory := by
    rcases noirSvmNsvReassignRmt_ok hassign with ⟨hfalse, -⟩ | ⟨-, -, hdirectory, -⟩
    · cases hfalse
    · exact hdirectory
  have hlocated' : ∀ hpa ∈ context.pages.map Prod.fst, ∃ place, rmd.locate hpa = .ok (some place) := by
    intro hpa hmem
    obtain ⟨page, hpage, rfl⟩ := List.mem_map.mp hmem
    rw [ReverseMappingDirectory.locate_congr hdirectory]
    exact hlocated page hpage
  have hbound' : ∀ hpa ∈ context.pages.map Prod.fst, page1gbCount hpa < 512 * 512 := by
    intro hpa hmem
    obtain ⟨page, hpage, rfl⟩ := List.mem_map.mp hmem
    exact hbound page hpage
  have hreturns : ∃ r, nvcNptReassignPageOwnershipHvrt { host₁ with rmd } stack
      (context.pages.map Prod.fst) = .ok r :=
    nvcNptReassignPageOwnershipHvrt_returns (hfound rfl) hlocated' hbound'
  obtain ⟨⟨status, host'⟩, hremap⟩ := hreturns
  refine ⟨decide (status = .success), host', ?_,
    (nvcNptReassignPageOwnershipHvrt_remapped hremap).1.rmd⟩
  unfold nvcNptReassignPageOwnershipUnsafe
  simp only [hsplit, Outcome.ok_bind, if_true, hassign, hremap]
  rfl

/-- The table afterwards is what Stage II made of it. -/
theorem nvcNptReassignPageOwnershipUnsafe_ok
    (hsplit : splitPages (fun host phys =>
      nvcNptReassignPageOwnershipUnsafe stack fuel host (tableContext phys)) host false
        (context.pages.map Prod.fst) = .ok (true, result, host₁))
    (h : nvcNptReassignPageOwnershipUnsafe stack (fuel + 1) host context = .ok (b, host')) :
    ∃ valid, noirSvmNsvReassignRmt host₁.rmd context = .ok (valid, host'.rmd) ∧
      (valid = true → ∀ page ∈ context.pages, page1gbCount page.1 < 512 * 512) := by
  unfold nvcNptReassignPageOwnershipUnsafe at h
  simp only [hsplit, Outcome.ok_bind, if_true] at h
  obtain ⟨⟨valid, rmd⟩, hassign, h⟩ := bind_eq_ok.mp h
  cases valid with
  | false =>
      cases h
      exact ⟨false, hassign, fun h => (nomatch h)⟩
  | true =>
      obtain ⟨⟨status, host₂⟩, hremap, h⟩ := bind_eq_ok.mp h
      cases h
      obtain ⟨hremapped, hbound⟩ := nvcNptReassignPageOwnershipHvrt_remapped hremap
      refine ⟨true, hremapped.rmd ▸ hassign, fun _ page hpage => ?_⟩
      exact hbound page.1 (List.mem_map_of_mem hpage)

end Request

end NoirVisor.NsvHost
