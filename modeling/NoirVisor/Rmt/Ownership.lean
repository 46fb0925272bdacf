import NoirVisor.Batch
import NoirVisor.Rmt.Table
import NoirVisor.Transition

/-!
# Ownership of pages

A request is validated as a whole against the table before it and then written page by page. The
pages of NoirVisor are safe from every request; a page given to a secure guest twice in one request
is where validating and writing part ways.
-/

namespace NoirVisor

open ReverseMappingDirectory

variable {rmd rmd' : ReverseMappingDirectory} {context : NoirRmtReassignmentContext}
  {pages : List (Nat × Nat)} {place : Nat × Nat} {result shared : Bool} {ownership : UInt8}

/-- What validation grants for the page at one place. -/
structure Reassignable (rmd : ReverseMappingDirectory) (place : Nat × Nat) (shared : Bool)
    (ownership : UInt8) : Prop where
  noirvisor : (rmd.entry place).ownership ≠ noirNsvRmtNoirvisor
  secure : ownership = noirNsvRmtSecureGuest →
    (rmd.entry place).ownership ≠ noirNsvRmtSecureGuest ∧ shared = false

theorem nvcValidateSingleRmtReassignment_ok {hpa : Nat}
    (h : nvcValidateSingleRmtReassignment rmd hpa shared ownership = .ok true) :
    ∃ place, rmd.locate hpa = .ok (some place) ∧ Reassignable rmd place shared ownership := by
  obtain ⟨found, hlocate, h⟩ := bind_eq_ok.mp h
  cases found with
  | none => cases h
  | some place =>
      refine ⟨place, hlocate, ?_⟩
      simp only at h
      split at h
      · cases h
      · rename_i hnoirvisor
        split at h
        · cases h
        · rename_i hsecure
          split at h
          · cases h
          · rename_i hshared
            refine ⟨hnoirvisor, fun howner => ⟨fun heq => hsecure ⟨heq, howner⟩, ?_⟩⟩
            simpa using fun heq => hshared ⟨howner, heq⟩

theorem nvcValidateRmtReassignment_ok
    (h : nvcValidateRmtReassignment rmd shared ownership pages = .ok true) :
    ∀ page ∈ pages, ∃ place, rmd.locate page.1 = .ok (some place) ∧
      Reassignable rmd place shared ownership := by
  induction pages with
  | nil => intro page hpage; cases hpage
  | cons first pages ih =>
      obtain ⟨valid, hsingle, h⟩ := bind_eq_ok.mp h
      cases valid with
      | false => cases h
      | true =>
          intro page hpage
          rcases List.mem_cons.mp hpage with rfl | hrest
          · exact nvcValidateSingleRmtReassignment_ok hsingle
          · exact ih h page hrest

/-- The writes a request makes, by place. -/
def NoirRmtReassignmentContext.writes (context : NoirRmtReassignmentContext)
    (rmd : ReverseMappingDirectory) (pages : List (Nat × Nat)) :
    List ((Nat × Nat) × NoirRmtEntry) :=
  pages.filterMap fun page =>
    match rmd.locate page.1 with
    | .ok (some place) =>
        some (place, configuredEntry page.2 context.asid context.shared context.ownership)
    | _ => none

theorem NoirRmtReassignmentContext.configure_ok {page : Nat × Nat}
    (h : context.configure rmd page = .ok rmd') :
    rmd'.directory = rmd.directory ∧
      rmd'.entry = Batch.writes rmd.entry (context.writes rmd [page]) := by
  obtain ⟨found, hlocate, h⟩ := bind_eq_ok.mp h
  cases found with
  | none =>
      obtain rfl := Except.ok.inj h
      simp [writes, hlocate]
  | some place =>
      obtain rfl := Except.ok.inj h
      refine ⟨rfl, ?_⟩
      simp [writes, hlocate, Batch.write]

theorem NoirRmtReassignmentContext.writes_congr (h : rmd'.directory = rmd.directory) :
    context.writes rmd' pages = context.writes rmd pages := by
  unfold writes
  simp only [locate_congr h]

/-- The loop of the hypercall is a batch of writes to the table. -/
theorem NoirRmtReassignmentContext.foldlM_configure
    (h : pages.foldlM context.configure rmd = .ok rmd') :
    rmd'.directory = rmd.directory ∧
      rmd'.entry = Batch.writes rmd.entry (context.writes rmd pages) := by
  induction pages generalizing rmd with
  | nil =>
      obtain rfl := Except.ok.inj h
      exact ⟨rfl, rfl⟩
  | cons page pages ih =>
      rw [List.foldlM_cons] at h
      obtain ⟨rmd₁, hfirst, hrest⟩ := bind_eq_ok.mp h
      obtain ⟨hdirectory, hentry⟩ := configure_ok hfirst
      obtain ⟨hdirectory', hentry'⟩ := ih hrest
      refine ⟨hdirectory'.trans hdirectory, ?_⟩
      rw [hentry', hentry, writes_congr hdirectory, ← Batch.writes_append]
      congr 1
      unfold writes
      rw [← List.filterMap_append]
      rfl

theorem NoirRmtReassignmentContext.mem_writes {w : (Nat × Nat) × NoirRmtEntry} :
    w ∈ context.writes rmd pages ↔ ∃ page ∈ pages, rmd.locate page.1 = .ok (some w.1) ∧
      w.2 = configuredEntry page.2 context.asid context.shared context.ownership := by
  unfold writes
  rw [List.mem_filterMap]
  constructor
  · rintro ⟨page, hpage, hw⟩
    split at hw
    · rename_i place hlocate
      obtain rfl := Option.some.inj hw
      exact ⟨page, hpage, hlocate, rfl⟩
    · cases hw
  · rintro ⟨page, hpage, hlocate, hvalue⟩
    refine ⟨page, hpage, ?_⟩
    rw [hlocate, ← hvalue]

theorem NoirRmtReassignmentContext.exists_write {page : Nat × Nat} (hpage : page ∈ pages)
    (hplace : rmd.locate page.1 = .ok (some place)) :
    ∃ w ∈ context.writes rmd pages, w.1 = place :=
  ⟨(place, _), mem_writes.mpr ⟨page, hpage, hplace, rfl⟩, rfl⟩

/-- A request that fails changes nothing; one that succeeds was validated and is a batch of writes
to the pages it lists. -/
theorem noirSvmNsvReassignRmt_ok (h : noirSvmNsvReassignRmt rmd context = .ok (result, rmd')) :
    (result = false ∧ rmd' = rmd) ∨
      (result = true ∧
        (∀ page ∈ context.pages, ∃ place, rmd.locate page.1 = .ok (some place) ∧
          Reassignable rmd place context.shared context.ownership) ∧
        rmd'.directory = rmd.directory ∧
        rmd'.entry = Batch.writes rmd.entry (context.writes rmd context.pages)) := by
  obtain ⟨valid, hvalidate, h⟩ := bind_eq_ok.mp h
  cases valid with
  | false =>
      cases h
      exact Or.inl ⟨rfl, rfl⟩
  | true =>
      obtain ⟨rmd₁, hloop, hreturn⟩ := bind_eq_ok.mp h
      cases hreturn
      exact Or.inr ⟨rfl, nvcValidateRmtReassignment_ok hvalidate,
        NoirRmtReassignmentContext.foldlM_configure hloop⟩

theorem nvcValidateSingleRmtReassignment_of_reassignable {hpa : Nat}
    (hlocate : rmd.locate hpa = .ok (some place)) (hvalid : Reassignable rmd place shared ownership) :
    nvcValidateSingleRmtReassignment rmd hpa shared ownership = .ok true := by
  unfold nvcValidateSingleRmtReassignment
  rw [hlocate, Outcome.ok_bind]
  simp only
  rw [if_neg hvalid.noirvisor, if_neg fun hsecure => (hvalid.secure hsecure.2).1 hsecure.1,
    if_neg]
  · rfl
  · rintro ⟨howner, hshared⟩
    rw [(hvalid.secure howner).2] at hshared
    cases hshared

theorem nvcValidateRmtReassignment_of_reassignable
    (h : ∀ page ∈ pages, ∃ place, rmd.locate page.1 = .ok (some place) ∧
      Reassignable rmd place shared ownership) :
    nvcValidateRmtReassignment rmd shared ownership pages = .ok true := by
  induction pages with
  | nil => rfl
  | cons page pages ih =>
      obtain ⟨place, hlocate, hvalid⟩ := h page List.mem_cons_self
      have hsingle : nvcValidateSingleRmtReassignment rmd page.1 shared ownership = .ok true :=
        nvcValidateSingleRmtReassignment_of_reassignable hlocate hvalid
      unfold nvcValidateRmtReassignment
      rw [hsingle, Outcome.ok_bind]
      exact ih fun page' hpage' => h page' (List.mem_cons_of_mem _ hpage')

theorem NoirRmtReassignmentContext.foldlM_configure_returns
    (h : ∀ page ∈ pages, ∃ place, rmd.locate page.1 = .ok (some place)) :
    ∃ rmd', pages.foldlM context.configure rmd = .ok rmd' := by
  induction pages generalizing rmd with
  | nil => exact ⟨rmd, rfl⟩
  | cons page pages ih =>
      obtain ⟨place, hplace⟩ := h page List.mem_cons_self
      obtain ⟨rmd₁, hfirst⟩ : ∃ rmd₁, context.configure rmd page = .ok rmd₁ := by
        unfold configure nvcConfigureReverseMapping
        rw [hplace]
        exact ⟨_, rfl⟩
      rw [List.foldlM_cons, hfirst, Outcome.ok_bind]
      refine ih fun page' hpage' => ?_
      rw [locate_congr (configure_ok hfirst).1]
      exact h page' (List.mem_cons_of_mem _ hpage')

/-- A request all of whose pages may be reassigned succeeds. -/
theorem noirSvmNsvReassignRmt_of_reassignable
    (h : ∀ page ∈ context.pages, ∃ place, rmd.locate page.1 = .ok (some place) ∧
      Reassignable rmd place context.shared context.ownership) :
    ∃ rmd', noirSvmNsvReassignRmt rmd context = .ok (true, rmd') := by
  have hloop : ∃ rmd', context.pages.foldlM context.configure rmd = .ok rmd' := by
    apply NoirRmtReassignmentContext.foldlM_configure_returns
    exact fun page hpage => (h page hpage).imp fun _ => And.left
  obtain ⟨rmd', hrmd'⟩ := hloop
  refine ⟨rmd', ?_⟩
  unfold noirSvmNsvReassignRmt
  rw [nvcValidateRmtReassignment_of_reassignable h, Outcome.ok_bind, if_pos rfl, hrmd']
  rfl

/-- No page of a request for a secure guest is listed with two guest pages. -/
def NoirRmtReassignmentContext.Single (context : NoirRmtReassignmentContext)
    (rmd : ReverseMappingDirectory) : Prop :=
  context.ownership = noirNsvRmtSecureGuest → ∀ page ∈ context.pages, ∀ page' ∈ context.pages,
    ∀ place, rmd.locate page.1 = .ok (some place) → rmd.locate page'.1 = .ok (some place) →
      page4kbCount page.2 = page4kbCount page'.2

/-- What a request is meant to do to the table. -/
structure Reassigns (context : NoirRmtReassignmentContext) (rmd : ReverseMappingDirectory)
    (result : Bool) (rmd' : ReverseMappingDirectory) : Prop where
  noirvisor : ∀ place, (rmd.entry place).ownership = noirNsvRmtNoirvisor →
    rmd'.entry place = rmd.entry place
  /-- No iteration of the loop replaces the entry of a page that is a secure guest's by then. -/
  oneShot : result = true → context.ownership = noirNsvRmtSecureGuest →
    ∀ i (h : i < context.pages.length) before after place,
      (context.pages.take i).foldlM context.configure rmd = .ok before →
      context.configure before context.pages[i] = .ok after →
      rmd.locate context.pages[i].1 = .ok (some place) →
      (before.entry place).ownership = noirNsvRmtSecureGuest →
      after.entry place = before.entry place
  assigned : result = true → context.ownership = noirNsvRmtSecureGuest →
    ∀ page ∈ context.pages, ∀ place, rmd.locate page.1 = .ok (some place) →
      (rmd.entry place).ownership ≠ noirNsvRmtSecureGuest ∧
      rmd'.entry place = configuredEntry page.2 context.asid context.shared context.ownership
  unlisted : ∀ place, (∀ page ∈ context.pages, rmd.locate page.1 ≠ .ok (some place)) →
    rmd'.entry place = rmd.entry place
  failed : result = false → rmd' = rmd

/-- Writes of a request that agree on the guest page agree on the entry. -/
theorem NoirRmtReassignmentContext.Single.agree (hsingle : context.Single rmd)
    (howner : context.ownership = noirNsvRmtSecureGuest) {page : Nat × Nat}
    (hpage : page ∈ context.pages) (hplace : rmd.locate page.1 = .ok (some place))
    (hpages : ∀ page ∈ pages, page ∈ context.pages) :
    ∀ w ∈ context.writes rmd pages, w.1 = place →
      w.2 = configuredEntry page.2 context.asid context.shared context.ownership := by
  rintro w hw rfl
  obtain ⟨page', hpage', hlocate, hvalue⟩ := NoirRmtReassignmentContext.mem_writes.mp hw
  rw [hvalue, configuredEntry, configuredEntry,
    hsingle howner page' (hpages page' hpage') page hpage w.1 hlocate hplace]

theorem noirSvmNsvReassignRmt_reassigns (hsingle : context.Single rmd)
    (h : noirSvmNsvReassignRmt rmd context = .ok (result, rmd')) :
    Reassigns context rmd result rmd' := by
  rcases noirSvmNsvReassignRmt_ok h with ⟨rfl, rfl⟩ | ⟨rfl, hvalid, hdirectory, hentry⟩
  · exact ⟨fun _ _ => rfl, fun h => absurd h (by decide), fun h => absurd h (by decide),
      fun _ _ => rfl, fun _ => rfl⟩
  have hreassignable : ∀ page ∈ context.pages, ∀ place,
      rmd.locate page.1 = .ok (some place) →
        Reassignable rmd place context.shared context.ownership := by
    intro page hpage place hplace
    obtain ⟨place', hplace', hvalid'⟩ := hvalid page hpage
    obtain rfl := Option.some.inj (Except.ok.inj (hplace.symm.trans hplace'))
    exact hvalid'
  have hkept : ∀ place, (∀ page ∈ context.pages, rmd.locate page.1 ≠ .ok (some place)) →
      rmd'.entry place = rmd.entry place := by
    intro place hunlisted
    rw [hentry]
    apply Batch.writes_of_forall_ne
    rintro w hw rfl
    obtain ⟨page, hpage, hlocate, -⟩ := NoirRmtReassignmentContext.mem_writes.mp hw
    exact hunlisted page hpage hlocate
  refine ⟨?_, ?_, ?_, hkept, fun h => absurd h (by decide)⟩
  · intro place howner
    apply hkept place
    intro page hpage hplace
    exact (hreassignable page hpage place hplace).noirvisor howner
  · intro _ howner i hi before after place hbefore hafter hplace hsecure
    obtain ⟨hsame, hentryBefore⟩ := NoirRmtReassignmentContext.foldlM_configure hbefore
    obtain ⟨-, hentryAfter⟩ := NoirRmtReassignmentContext.configure_ok hafter
    have hmem : context.pages[i] ∈ context.pages := List.getElem_mem hi
    have hold := ((hreassignable _ hmem place hplace).secure howner).1
    -- The entry is a secure guest's by an earlier write of this request, which agrees.
    have hearlier : before.entry place = configuredEntry context.pages[i].2 context.asid
        context.shared context.ownership := by
      rcases Batch.writes_eq_or rmd.entry (context.writes rmd (context.pages.take i)) place with
        hkeep | ⟨w, hw, hkey, hvalue⟩
      · rw [hentryBefore, hkeep] at hsecure
        exact absurd hsecure hold
      · rw [hentryBefore, hvalue]
        exact hsingle.agree howner hmem hplace (fun page => List.mem_of_mem_take) w hw hkey
    rw [hentryAfter, NoirRmtReassignmentContext.writes_congr hsame]
    rw [hearlier]
    apply Batch.writes_of_agree (hsingle.agree howner hmem hplace (by simp))
    exact NoirRmtReassignmentContext.exists_write (List.mem_singleton_self _) hplace
  · intro _ howner page hpage place hplace
    refine ⟨((hreassignable page hpage place hplace).secure howner).1, ?_⟩
    rw [hentry]
    apply Batch.writes_of_agree (hsingle.agree howner hpage hplace fun _ => id)
    exact NoirRmtReassignmentContext.exists_write hpage hplace

/-! ### Runs -/

/-- No entry is both a secure guest's and shared. -/
def SecureUnshared (rmd : ReverseMappingDirectory) : Prop :=
  ∀ place, (rmd.entry place).ownership = noirNsvRmtSecureGuest → (rmd.entry place).shared = false

def Initialized (rmd : ReverseMappingDirectory) : Prop :=
  ∃ ranges, nvcBuildReverseMappingTable ranges = .ok rmd

def Requested (condition : ReverseMappingDirectory → NoirRmtReassignmentContext → Prop)
    (rmd rmd' : ReverseMappingDirectory) : Prop :=
  ∃ context result, condition rmd context ∧ noirSvmNsvReassignRmt rmd context = .ok (result, rmd')

theorem Initialized.secureUnshared (h : Initialized rmd) : SecureUnshared rmd := by
  obtain ⟨ranges, hbuild⟩ := h
  refine foldlM_invariant (P := SecureUnshared) ?_ (fun _ _ => rfl) hbuild
  rintro rmd ⟨table, start, length⟩ rmd' - hinv hstep place hsecure
  simp only [nvcEnumPhysicalRangeCallback] at hstep
  split at hstep
  · obtain rfl := Except.ok.inj hstep
    simp only at hsecure ⊢
    split
    · rfl
    · rename_i hother
      rw [if_neg hother] at hsecure
      exact hinv place hsecure
  · cases hstep

theorem SecureUnshared.reassign (hinv : SecureUnshared rmd)
    (h : noirSvmNsvReassignRmt rmd context = .ok (result, rmd')) : SecureUnshared rmd' := by
  rcases noirSvmNsvReassignRmt_ok h with ⟨-, rfl⟩ | ⟨-, hvalid, -, hentry⟩
  · exact hinv
  intro place hsecure
  rw [hentry] at hsecure ⊢
  rcases Batch.writes_eq_or rmd.entry (context.writes rmd context.pages) place with
    hkeep | ⟨w, hw, hkey, hvalue⟩
  · rw [hkeep] at hsecure ⊢
    exact hinv place hsecure
  · obtain ⟨page, hpage, hlocate, hnew⟩ := NoirRmtReassignmentContext.mem_writes.mp hw
    obtain ⟨place', -, hreassignable⟩ := hvalid page hpage
    rw [hvalue, hnew] at hsecure ⊢
    exact (hreassignable.secure hsecure).2

theorem Requested.secureUnshared
    {condition : ReverseMappingDirectory → NoirRmtReassignmentContext → Prop}
    (h : Transition.Reachable Initialized (Requested condition) rmd) : SecureUnshared rmd := by
  refine h.invariant (fun _ => Initialized.secureUnshared) ?_
  rintro rmd rmd' - hinv ⟨context, result, -, hstep⟩
  exact hinv.reassign hstep

/-- In every run whose requests list no page with two guest pages for a secure guest. -/
theorem reachable_reassigns
    (h : Transition.Reachable Initialized (Requested fun rmd context => context.Single rmd) rmd)
    (context : NoirRmtReassignmentContext) (hsingle : context.Single rmd)
    (hrequest : noirSvmNsvReassignRmt rmd context = .ok (result, rmd')) :
    SecureUnshared rmd ∧ SecureUnshared rmd' ∧ Reassigns context rmd result rmd' := by
  have hunshared := Requested.secureUnshared h
  exact ⟨hunshared, hunshared.reassign hrequest, noirSvmNsvReassignRmt_reassigns hsingle hrequest⟩

/-- The table of the sixteen pages from address 0. -/
def sixteenPages : ReverseMappingDirectory :=
  match nvcBuildReverseMappingTable [(0x100000, 0, 0x10000)] with
  | .ok rmd => rmd
  | .error _ => { directory := [], entry := fun _ => {} }

theorem sixteenPages_initialized : Initialized sixteenPages :=
  ⟨[(0x100000, 0, 0x10000)], rfl⟩

/-- Two pages given to a secure guest. -/
theorem twoPages_reassigns : ∃ rmd', SecureUnshared sixteenPages ∧ SecureUnshared rmd' ∧
    Reassigns ⟨[(0x3000, 0x1000), (0x4000, 0x2000)], 2, false, noirNsvRmtSecureGuest⟩ sixteenPages
      true rmd' := by
  refine ⟨_, reachable_reassigns (.start sixteenPages_initialized) _ ?_ rfl⟩
  intro _ page hpage page' hpage' place hplace hplace'
  have hthree : sixteenPages.locate 0x3000 = .ok (some (0, 3)) := rfl
  have hfour : sixteenPages.locate 0x4000 = .ok (some (0, 4)) := rfl
  simp only [List.mem_cons, List.not_mem_nil, or_false] at hpage hpage'
  rcases hpage with rfl | rfl <;> rcases hpage' with rfl | rfl
  · rfl
  · rw [hthree] at hplace
    rw [hfour, ← hplace] at hplace'
    exact absurd hplace' (by decide)
  · rw [hfour] at hplace
    rw [hthree, ← hplace] at hplace'
    exact absurd hplace' (by decide)
  · rfl

/-- One page given to a secure guest twice: the second guest page replaces the first. -/
theorem not_forall_reassigns :
    ¬∀ (context : NoirRmtReassignmentContext) (rmd rmd' : ReverseMappingDirectory) (result : Bool),
      Transition.Reachable Initialized (Requested fun _ _ => True) rmd →
      noirSvmNsvReassignRmt rmd context = .ok (result, rmd') →
      Reassigns context rmd result rmd' := by
  intro h
  have hreassigns := h ⟨[(0x3000, 0x1000), (0x3000, 0x2000)], 2, false, noirNsvRmtSecureGuest⟩
    sixteenPages _ true (.start sixteenPages_initialized) rfl
  obtain ⟨-, hfirst⟩ := hreassigns.assigned rfl rfl (0x3000, 0x1000) (by simp) (0, 3) rfl
  exact absurd (congrArg NoirRmtEntry.guestPfn hfirst) (by decide)

end NoirVisor
