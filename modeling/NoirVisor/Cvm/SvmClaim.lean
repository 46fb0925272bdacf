import NoirVisor.Custom.Run
import NoirVisor.Cvm.SvmCvexit
import NoirVisor.Npt.Run
import NoirVisor.Rmt.Stage

/-!
# Security claims

A guest writes the bounds of a range to two MSRs and commands the claim, or the release, by a third.
The handler of the command counts the pages of the range; `nvc_svmc_run_vcpu` walks them after the
exit and has them reassigned.
-/

namespace NoirVisor

open NsvHost ReverseMappingDirectory

/-- A virtual CPU at the command, with what is read of its VM and of the hypervisor. The status of the
remapping is on the `stack` until it is set. -/
structure NsvClaim where
  ctx : CvexitContext
  s : CvexitState
  asid : Nat
  nptm : SvmCustomNptManager
  enableNsv : Bool
  host : NsvHost
  stack : NoirStatus
  command : s.msrIndex = nsvMsrClaimGpaCmd
  start_lt : s.nsvs .claimGpaStart < 2 ^ 64
  end_lt : s.nsvs .claimGpaEnd < 2 ^ 64
  /-- The memory manager hands out pages of the host. -/
  given : ∀ phys place, host.Given phys → host.rmd.locate phys = .ok (some place) →
    (host.rmd.entry place).ownership = noirNsvRmtSubvertedHost

namespace NsvClaim

variable (c : NsvClaim)

def claimGpaStart : Nat := c.s.nsvs .claimGpaStart

def claimGpaEnd : Nat := c.s.nsvs .claimGpaEnd

/-- `exit_context.claim_pages.claim`: the command is a claim, not a release. -/
def claim : Bool := c.s.msrValue.testBit 0

def ownership : UInt8 := if c.claim then noirNsvRmtSecureGuest else noirNsvRmtInsecureGuest

/-- The count is cast to 32 bits. -/
def pages : Nat := claimedPages c.s % 2 ^ 32

/-- `page_mult` of a 32-bit counter is one of 32 bits. -/
def gpa (i : Nat) : Nat := (c.claimGpaStart + page4kbMult i % 2 ^ 32) % 2 ^ 64

/-- The host page found for a guest page, which has to be readable and executable, or 0. -/
def hpa (gpa : Nat) : Nat := (c.nptm.nvcSvmcGetPhysicalMapping gpa true false false).2

/-- An iteration of the loop that fills the lists. Their size in bytes was computed in 32 bits. -/
def fill (i : Nat) : Outcome (Nat × Nat) :=
  if i < c.pages * 8 % 2 ^ 32 / 8 then .ok (c.hpa (c.gpa i), c.gpa i) else .error .outOfBounds

def context (pages : List (Nat × Nat)) : NoirRmtReassignmentContext where
  pages := pages
  asid := c.asid
  shared := !c.claim
  ownership := c.ownership

/-- The host with both lists allocated, or at least asked for. -/
def listed : NsvHost :=
  { c.host with
    nptm.allocator := c.host.nptm.allocator.noirAllocNonpgMemory.2.noirAllocNonpgMemory.2 }

/-- `nvc_svmc_run_vcpu` at an exit for a claim. It reports success and drops what the lookups and the
reassignment return. `fuel` is how deep reassignments of tables may nest. -/
def nvcSvmcRunVcpu (fuel : Nat) : Outcome NsvHost :=
  if c.enableNsv then
    if c.host.nptm.allocator.nonpg 0 && c.host.nptm.allocator.nonpg 1 then do
      let pages ← (List.range c.pages).mapM c.fill
      let (_, host) ←
        nvcNptReassignPageOwnership c.enableNsv c.stack (fuel + 1) c.listed (c.context pages)
      return host
    else
      return c.listed
  else
    return c.host

/-- The command, from the handler to the next entry. The first component tells that the guest is
told: it gets an exception instead. -/
def run (fuel : Nat) : Outcome (Bool × NsvHost) :=
  if (nvcSvmWrmsrNsvexitHandler c.ctx c.s).1 then
    return (true, c.host)
  else do
    let host ← c.nvcSvmcRunVcpu fuel
    return (false, host)

/-! ### What a claim is for -/

/-- A page of the range: some address of the range is in it. -/
def InRange (page : Nat) : Prop :=
  ∃ address, c.claimGpaStart ≤ address ∧ address < c.claimGpaEnd ∧ page4kbCount address = page

/-- The guest has the page of memory with this entry mapped at a guest page. -/
def Backs (page : Nat) (place : Nat × Nat) : Prop :=
  page4kbMult page < 2 ^ 48 ∧
    ∃ hpa, c.nptm.nvcSvmcGetPhysicalMapping (page4kbMult page) true false true = (true, hpa) ∧
      c.host.rmd.locate hpa = .ok (some place)

/-- The page is the VM's. -/
def Owns (place : Nat × Nat) : Prop :=
  (c.host.rmd.entry place).asid = c.asid ∧
    ((c.host.rmd.entry place).ownership = noirNsvRmtSecureGuest ∨
      (c.host.rmd.entry place).ownership = noirNsvRmtInsecureGuest)

/-- The entry asked for: the security, the owner and the guest page. -/
def asked (page : Nat) : NoirRmtEntry :=
  configuredEntry (page4kbMult page) c.asid (!c.claim) c.ownership

/-- The pages as the loop lists them. -/
def pageList : List (Nat × Nat) := (List.range c.pages).map fun i => (c.hpa (c.gpa i), c.gpa i)

/-- The memory for the lists and for the tables of the host does not run out. -/
def Supplied (fuel : Nat) : Prop :=
  c.host.nptm.allocator.nonpg 0 = true ∧ c.host.nptm.allocator.nonpg 1 = true ∧
    ∃ result host, splitPages
      (fun host phys => nvcNptReassignPageOwnershipUnsafe c.stack fuel host (tableContext phys))
      c.listed false (c.pageList.map Prod.fst) = .ok (true, result, host)

/-- The pages of the range are as asked for, and no other page was touched but those the memory
manager handed out for tables. -/
structure TakesEffect (host : NsvHost) : Prop where
  assigned : ∀ page, c.InRange page →
    ∃ place, c.Backs page place ∧ host.rmd.entry place = c.asked page
  untouched : ∀ place, (∀ page, c.InRange page → ¬c.Backs page place) →
    host.rmd.entry place = c.host.rmd.entry place ∨
      ∃ phys, c.host.Given phys ∧ c.host.rmd.locate phys = .ok (some place)
  /-- An address passed on is a translation or the 0 that was set before the lookup. -/
  initialized : ∀ page ∈ c.pageList,
    c.nptm.nvcSvmcGetPhysicalMapping page.2 true false false = (true, page.1) ∨ page.1 = 0

/-- The command returns; the guest is told and nothing changes, or every page of the range is mapped
and the VM's, the memory does not run out, and the claim takes effect. -/
def Visible : Prop :=
  ∃ fuel told host, c.run fuel = .ok (told, host) ∧ (told = true → host.rmd = c.host.rmd) ∧
    (told = false → (∀ page, c.InRange page → ∃ place, c.Backs page place ∧ c.Owns place) ∧
      c.Supplied fuel ∧ c.TakesEffect host)

/-! ### When it does that -/

/-- A page that the walk handles. -/
structure Handled (page : Nat) (place : Nat × Nat) : Prop where
  backs : c.Backs page place
  owns : c.Owns place
  found : c.host.rmd.locate (c.hpa (page4kbMult page)) = .ok (some place)
  inRange : page1gbCount (c.hpa (page4kbMult page)) < 512 * 512
  /-- A secure page is not claimed again. -/
  claimable : c.claim = true → (c.host.rmd.entry place).ownership ≠ noirNsvRmtSecureGuest

/-- A claim that the walk handles as a whole: of whole pages, 4 GiB at most, each of which it finds,
and no two of one host page. -/
structure Regular (fuel : Nat) : Prop where
  enabled : c.enableNsv = true
  aligned : c.claimGpaStart % 0x1000 = 0 ∧ c.claimGpaEnd % 0x1000 = 0
  size : c.claimGpaStart ≤ c.claimGpaEnd ∧ c.claimGpaEnd ≤ c.claimGpaStart + 2 ^ 32
  supplied : c.Supplied fuel
  handled : ∀ page, c.InRange page → ∃ place, c.Handled page place
  distinct : ∀ page page' place, c.InRange page → c.InRange page' → c.Backs page place →
    c.Backs page' place → page = page'

def Faults : Prop := (nvcSvmWrmsrNsvexitHandler c.ctx c.s).1 = true

/-- Nothing is asked for, or some page already is as asked for. -/
def Idle : Prop :=
  (∀ page, ¬c.InRange page) ∨
    ∃ page place, c.InRange page ∧ c.Backs page place ∧ c.host.rmd.entry place = c.asked page

/-! ### The range and its walk -/

variable {c} {fuel page : Nat} {place : Nat × Nat} {host : NsvHost}

theorem claimedPages_le (hfaults : ¬c.Faults) : claimedPages c.s ≤ 2 ^ 32 - 1 := by
  by_contra hlt
  apply hfaults
  unfold Faults nvcSvmWrmsrNsvexitHandler writeSyntheticMsr
  rw [c.command, if_neg (by decide), if_neg (by decide), if_pos rfl,
    if_pos (Or.inr (Or.inr (by omega)))]

theorem pages_eq (hfaults : ¬c.Faults) (hle : c.claimGpaStart ≤ c.claimGpaEnd) :
    c.pages = (c.claimGpaEnd - c.claimGpaStart) / 0x1000 := by
  have hcount := claimedPages_le hfaults
  have hstart := c.start_lt
  have hend := c.end_lt
  unfold pages
  unfold claimedPages at hcount ⊢
  unfold claimGpaStart claimGpaEnd at hle ⊢
  omega

/-- Only where the range is of whole pages and of 4 GiB at most does the walk reach its last page. -/
theorem reaches_last (hfaults : ¬c.Faults) (hlt : c.claimGpaStart < c.claimGpaEnd)
    (hlast : ∃ i < c.pages, page4kbCount (c.gpa i) = page4kbCount (c.claimGpaEnd - 1)) :
    c.claimGpaStart % 0x1000 = 0 ∧ c.claimGpaEnd % 0x1000 = 0 ∧
      c.claimGpaEnd ≤ c.claimGpaStart + 2 ^ 32 := by
  obtain ⟨i, hi, hpage⟩ := hlast
  have hend : c.claimGpaEnd < 2 ^ 64 := c.end_lt
  rw [pages_eq hfaults hlt.le] at hi
  -- The listed address lies a page before the end, so that it starts the last page or is before it.
  have hbefore : c.claimGpaStart + i * 0x1000 + 0x1000 ≤ c.claimGpaEnd := by omega
  have hmod := Nat.mod_le (i * 0x1000) (2 ^ 32)
  have hbound := Nat.mod_lt (i * 0x1000) (show 0 < 2 ^ 32 by decide)
  have hwhole : i * 0x1000 % 2 ^ 32 % 0x1000 = 0 := by omega
  rw [gpa, page4kbMult, Nat.mod_eq_of_lt (by omega)] at hpage
  simp only [page4kbCount] at hpage
  generalize i * 0x1000 % 2 ^ 32 = offset at *
  omega

/-- An iteration lists a page of such a range. -/
theorem gpa_eq (hfaults : ¬c.Faults) (haligned : c.claimGpaStart % 0x1000 = 0)
    (hle : c.claimGpaStart ≤ c.claimGpaEnd) (hsize : c.claimGpaEnd ≤ c.claimGpaStart + 2 ^ 32)
    {i : Nat} (hi : i < c.pages) :
    c.gpa i = page4kbMult (page4kbCount c.claimGpaStart + i) ∧
      c.InRange (page4kbCount c.claimGpaStart + i) := by
  have hend : c.claimGpaEnd < 2 ^ 64 := c.end_lt
  rw [pages_eq hfaults hle] at hi
  constructor
  · simp only [gpa, page4kbMult, page4kbCount]
    omega
  · refine ⟨c.claimGpaStart + i * 0x1000, ?_, ?_, ?_⟩
    · omega
    · omega
    · simp only [page4kbCount]
      omega

theorem Regular.index (h : c.Regular fuel) (hfaults : ¬c.Faults) (hpage : c.InRange page) :
    ∃ i < c.pages, page = page4kbCount c.claimGpaStart + i := by
  obtain ⟨address, hge, hlt, rfl⟩ := hpage
  obtain ⟨hstart, hend⟩ := h.aligned
  refine ⟨page4kbCount address - page4kbCount c.claimGpaStart, ?_, ?_⟩
  · rw [pages_eq hfaults h.size.1]
    simp only [page4kbCount]
    omega
  · simp only [page4kbCount]
    omega

/-! ### What the walk does -/

theorem Owns.not_given (howns : c.Owns place) {phys : Nat} (hgiven : c.host.Given phys)
    (hplace : c.host.rmd.locate phys = .ok (some place)) : False := by
  obtain ⟨-, hsecure | hinsecure⟩ := howns
  · exact absurd ((c.given phys place hgiven hplace).symm.trans hsecure) (by decide)
  · exact absurd ((c.given phys place hgiven hplace).symm.trans hinsecure) (by decide)

/-- Taking tables leaves the pages of the VM alone. -/
theorem Owns.entry_eq (howns : c.Owns place) (hgrown : Grown c.listed host) :
    host.rmd.entry place = c.host.rmd.entry place := by
  rcases hgrown.entry place with hkept | ⟨phys, hgiven, hplace⟩
  · exact hkept
  · exact (howns.not_given hgiven hplace).elim

theorem fill_eq {i : Nat} {entry : Nat × Nat} (h : c.fill i = .ok entry) :
    entry = (c.hpa (c.gpa i), c.gpa i) := by
  unfold fill at h
  split at h
  · exact (Except.ok.inj h).symm
  · cases h

theorem Regular.fill (h : c.Regular fuel) (hfaults : ¬c.Faults) :
    (List.range c.pages).mapM c.fill = .ok c.pageList := by
  have hsize := h.size
  have hpages := pages_eq hfaults hsize.1
  refine mapM_of_ok fun i hi => ?_
  have hlt := List.mem_range.mp hi
  exact if_pos (by omega)

/-- What the walk lists are the pages of the range. -/
theorem Regular.handled_of_mem (h : c.Regular fuel) (hfaults : ¬c.Faults) {entry : Nat × Nat}
    (hmem : entry ∈ c.pageList) : ∃ page place, c.InRange page ∧ c.Handled page place ∧
      entry = (c.hpa (page4kbMult page), page4kbMult page) := by
  obtain ⟨i, hi, rfl⟩ := List.mem_map.mp hmem
  obtain ⟨hgpa, hrange⟩ := gpa_eq hfaults h.aligned.1 h.size.1 h.size.2 (List.mem_range.mp hi)
  obtain ⟨place, hhandled⟩ := h.handled _ hrange
  exact ⟨_, place, hrange, hhandled, by rw [hgpa]⟩

theorem Regular.mem_of_inRange (h : c.Regular fuel) (hfaults : ¬c.Faults) (hpage : c.InRange page) :
    (c.hpa (page4kbMult page), page4kbMult page) ∈ c.pageList := by
  obtain ⟨i, hi, rfl⟩ := h.index hfaults hpage
  rw [← (gpa_eq hfaults h.aligned.1 h.size.1 h.size.2 hi).1]
  exact List.mem_map_of_mem (List.mem_range.mpr hi)

theorem Handled.reassignable (h : c.Handled page place) (hgrown : Grown c.listed host) :
    Reassignable host.rmd place (!c.claim) c.ownership := by
  have hentry := h.owns.entry_eq hgrown
  refine ⟨?_, fun howner => ?_⟩
  · rw [hentry]
    obtain ⟨-, hsecure | hinsecure⟩ := h.owns
    · rw [hsecure]
      decide
    · rw [hinsecure]
      decide
  · cases hclaim : c.claim with
    | false =>
        rw [ownership, hclaim] at howner
        exact absurd howner (by decide)
    | true =>
        rw [hentry]
        exact ⟨h.claimable hclaim, rfl⟩

/-- The place of a page is a function of the page. -/
theorem Backs.eq {place' : Nat × Nat} (h : c.Backs page place) (h' : c.Backs page place') :
    place = place' := by
  obtain ⟨-, hpa, hmapping, hplace⟩ := h
  obtain ⟨-, hpa', hmapping', hplace'⟩ := h'
  obtain rfl := (Prod.mk.inj (hmapping.symm.trans hmapping')).2
  exact Option.some.inj (Except.ok.inj (hplace.symm.trans hplace'))

theorem hpa_initialized (gpa : Nat) :
    c.nptm.nvcSvmcGetPhysicalMapping gpa true false false = (true, c.hpa gpa) ∨ c.hpa gpa = 0 := by
  unfold hpa SvmCustomNptManager.nvcSvmcGetPhysicalMapping
  dsimp only
  repeat' split
  all_goals first | exact Or.inl rfl | exact Or.inr rfl

theorem nvcSvmcRunVcpu_eq (henabled : c.enableNsv = true)
    (hhpaList : c.host.nptm.allocator.nonpg 0 = true)
    (hgpaList : c.host.nptm.allocator.nonpg 1 = true) :
    c.nvcSvmcRunVcpu fuel = (do
      let pages ← (List.range c.pages).mapM c.fill
      let (_, host) ←
        nvcNptReassignPageOwnershipUnsafe c.stack (fuel + 1) c.listed (c.context pages)
      return host) := by
  unfold nvcSvmcRunVcpu nvcNptReassignPageOwnership
  simp only [henabled, hhpaList, hgpaList, Bool.and_self, if_true]

theorem Regular.takesEffect (h : c.Regular fuel) (hfaults : ¬c.Faults) :
    ∃ host, c.nvcSvmcRunVcpu fuel = .ok host ∧ c.TakesEffect host := by
  obtain ⟨hhpaList, hgpaList, result, host₁, hsplit⟩ := h.supplied
  obtain ⟨hgrown, -, -⟩ := splitPages_grown
    (nvcNptReassignPageOwnershipUnsafe_sound c.listed c.stack fuel) (.refl _) hsplit
  have hlocate : ∀ hpa, host₁.rmd.locate hpa = c.host.rmd.locate hpa := locate_congr hgrown.directory
  have hplaces : ∀ entry ∈ c.pageList, ∀ place, host₁.rmd.locate entry.1 = .ok (some place) →
      ∃ page, c.InRange page ∧ c.Handled page place ∧ entry.2 = page4kbMult page := by
    intro entry hmem place hplace
    obtain ⟨page, place', hrange, hhandled, rfl⟩ := h.handled_of_mem hfaults hmem
    rw [hlocate, hhandled.found] at hplace
    obtain rfl := Option.some.inj (Except.ok.inj hplace)
    exact ⟨page, hrange, hhandled, rfl⟩
  have hreassignable : ∀ entry ∈ c.pageList, ∃ place, host₁.rmd.locate entry.1 = .ok (some place) ∧
      Reassignable host₁.rmd place (!c.claim) c.ownership := by
    intro entry hmem
    obtain ⟨page, place, -, hhandled, rfl⟩ := h.handled_of_mem hfaults hmem
    exact ⟨place, by rw [hlocate]; exact hhandled.found, hhandled.reassignable hgrown⟩
  have hbound : ∀ entry ∈ c.pageList, page1gbCount entry.1 < 512 * 512 := by
    intro entry hmem
    obtain ⟨page, place, -, hhandled, rfl⟩ := h.handled_of_mem hfaults hmem
    exact hhandled.inRange
  obtain ⟨rmd, hassign⟩ :
      ∃ rmd, noirSvmNsvReassignRmt host₁.rmd (c.context c.pageList) = .ok (true, rmd) :=
    noirSvmNsvReassignRmt_of_reassignable hreassignable
  obtain ⟨b, host, hreassign, rfl⟩ := nvcNptReassignPageOwnershipUnsafe_returns hsplit hassign
    (fun entry hmem => (hreassignable entry hmem).imp fun _ => And.left) hbound
  refine ⟨host, ?_, ?_, ?_, ?_⟩
  · rw [nvcSvmcRunVcpu_eq h.enabled hhpaList hgpaList, h.fill hfaults, Outcome.ok_bind, hreassign]
    rfl
  all_goals
    rcases noirSvmNsvReassignRmt_ok hassign with ⟨hfalse, -⟩ | ⟨-, -, -, hentry⟩
    · cases hfalse
  · intro page hrange
    obtain ⟨place, hhandled⟩ := h.handled page hrange
    refine ⟨place, hhandled.backs, ?_⟩
    rw [hentry]
    apply Batch.writes_of_agree
    · rintro w hw rfl
      obtain ⟨entry, hmem, hplace, hvalue⟩ := NoirRmtReassignmentContext.mem_writes.mp hw
      obtain ⟨page', hrange', hhandled', hgpa⟩ := hplaces entry hmem w.1 hplace
      obtain rfl := h.distinct page page' w.1 hrange hrange' hhandled.backs hhandled'.backs
      rw [hvalue, hgpa]
      rfl
    · refine NoirRmtReassignmentContext.exists_write (h.mem_of_inRange hfaults hrange) ?_
      rw [hlocate]
      exact hhandled.found
  · intro place hunbacked
    rw [hentry, Batch.writes_of_forall_ne]
    · exact hgrown.entry place
    · rintro w hw rfl
      obtain ⟨entry, hmem, hplace, -⟩ := NoirRmtReassignmentContext.mem_writes.mp hw
      obtain ⟨page, hrange, hhandled, -⟩ := hplaces entry hmem w.1 hplace
      exact hunbacked page hrange hhandled.backs
  · intro entry hmem
    obtain ⟨i, -, rfl⟩ := List.mem_map.mp hmem
    exact hpa_initialized _

/-! ### What it takes -/

/-- A claim in effect, of pages that were not as asked for, was validated and written to the table:
every page of the range is one the walk listed. -/
theorem TakesEffect.written (heffect : c.TakesEffect host) (hidle : ¬c.Idle)
    (howned : ∀ page, c.InRange page → ∃ place, c.Backs page place ∧ c.Owns place)
    {host₁ : NsvHost} {valid : Bool} (hgrown : Grown c.listed host₁)
    (hassign : noirSvmNsvReassignRmt host₁.rmd (c.context c.pageList) = .ok (valid, host.rmd)) :
    valid = true ∧ ∀ page, c.InRange page → ∃ place, c.Backs page place ∧ c.Owns place ∧
      host.rmd.entry place = c.asked page ∧ ∃ i < c.pages, page4kbCount (c.gpa i) = page ∧
        c.host.rmd.locate (c.hpa (c.gpa i)) = .ok (some place) ∧
        Reassignable host₁.rmd place (!c.claim) c.ownership := by
  have hchanged : ∀ page, c.InRange page → ∃ place, c.Backs page place ∧ c.Owns place ∧
      host.rmd.entry place = c.asked page ∧ host₁.rmd.entry place ≠ c.asked page := by
    intro page hrange
    obtain ⟨place, hbacks, howns⟩ := howned page hrange
    obtain ⟨place', hbacks', hasked⟩ := heffect.assigned page hrange
    obtain rfl := hbacks.eq hbacks'
    refine ⟨place, hbacks, howns, hasked, fun heq => hidle (Or.inr ⟨page, place, hrange, hbacks, ?_⟩)⟩
    rw [← howns.entry_eq hgrown, heq]
  rcases noirSvmNsvReassignRmt_ok hassign with ⟨rfl, hkept⟩ | ⟨rfl, hvalid, -, hentry⟩
  · have hrange : ∃ page, c.InRange page := by
      by_contra hnone
      exact hidle (Or.inl (not_exists.mp hnone))
    obtain ⟨page, hrange⟩ := hrange
    obtain ⟨place, -, -, hasked, hne⟩ := hchanged page hrange
    exact absurd (hkept ▸ hasked) hne
  refine ⟨rfl, fun page hrange => ?_⟩
  obtain ⟨place, hbacks, howns, hasked, hne⟩ := hchanged page hrange
  refine ⟨place, hbacks, howns, hasked, ?_⟩
  rw [hentry] at hasked
  rcases Batch.writes_eq_or host₁.rmd.entry
      ((c.context c.pageList).writes host₁.rmd (c.context c.pageList).pages) place with
    hkept | ⟨w, hw, rfl, hvalue⟩
  · exact absurd (hkept ▸ hasked) hne
  · obtain ⟨entry, hmem, hplace, hwritten⟩ := NoirRmtReassignmentContext.mem_writes.mp hw
    obtain ⟨place', hplace', hreassignable⟩ := hvalid entry hmem
    obtain rfl := Option.some.inj (Except.ok.inj (hplace.symm.trans hplace'))
    obtain ⟨i, hi, rfl⟩ := List.mem_map.mp hmem
    refine ⟨i, List.mem_range.mp hi, ?_, locate_congr hgrown.directory _ ▸ hplace, hreassignable⟩
    have hpfn : (c.asked page).guestPfn = w.2.guestPfn := by
      rw [← hasked, hvalue]
    rw [hwritten] at hpfn
    exact hpfn.symm.trans (page4kbCount_page4kbMult page)

theorem regular_of_takesEffect (hfaults : ¬c.Faults) (hidle : ¬c.Idle)
    (howned : ∀ page, c.InRange page → ∃ place, c.Backs page place ∧ c.Owns place)
    (hsupplied : c.Supplied fuel) (hrun : c.nvcSvmcRunVcpu fuel = .ok host)
    (heffect : c.TakesEffect host) : c.Regular fuel := by
  have hrange : ∃ page, c.InRange page := by
    by_contra hnone
    exact hidle (Or.inl (not_exists.mp hnone))
  obtain ⟨first, hfirst⟩ := hrange
  have henabled : c.enableNsv = true := by
    cases henable : c.enableNsv with
    | true => rfl
    | false =>
        unfold nvcSvmcRunVcpu at hrun
        rw [henable] at hrun
        obtain rfl := Except.ok.inj hrun
        obtain ⟨place, hbacks, hasked⟩ := heffect.assigned first hfirst
        exact absurd (Or.inr ⟨first, place, hfirst, hbacks, hasked⟩) hidle
  have hsupplied' := hsupplied
  obtain ⟨hhpaList, hgpaList, result, host₁, hsplit⟩ := hsupplied
  obtain ⟨hgrown, -, -⟩ := splitPages_grown
    (nvcNptReassignPageOwnershipUnsafe_sound c.listed c.stack fuel) (.refl _) hsplit
  rw [nvcSvmcRunVcpu_eq henabled hhpaList hgpaList] at hrun
  obtain ⟨entries, hfill, hrun⟩ := bind_eq_ok.mp hrun
  obtain rfl : entries = c.pageList := eq_map_of_mapM (fun _ _ => fill_eq) hfill
  obtain ⟨⟨b, host'⟩, hreassign, hrun⟩ := bind_eq_ok.mp hrun
  obtain rfl := Except.ok.inj hrun
  obtain ⟨valid, hassign, hbound⟩ := nvcNptReassignPageOwnershipUnsafe_ok hsplit hreassign
  obtain ⟨hvalid, hwritten⟩ := heffect.written hidle howned hgrown hassign
  have hlt : c.claimGpaStart < c.claimGpaEnd := by
    obtain ⟨address, hge, hlt, -⟩ := hfirst
    omega
  -- That the walk reaches the last page settles what kind of range it is.
  obtain ⟨hstart, hend, hsize⟩ : c.claimGpaStart % 0x1000 = 0 ∧ c.claimGpaEnd % 0x1000 = 0 ∧
      c.claimGpaEnd ≤ c.claimGpaStart + 2 ^ 32 := by
    have hlast : c.InRange (page4kbCount (c.claimGpaEnd - 1)) :=
      ⟨c.claimGpaEnd - 1, by omega, by omega, rfl⟩
    obtain ⟨-, -, -, -, i, hi, hpage, -⟩ := hwritten _ hlast
    exact reaches_last hfaults hlt ⟨i, hi, hpage⟩
  refine ⟨henabled, ⟨hstart, hend⟩, ⟨hlt.le, hsize⟩, hsupplied', ?_, ?_⟩
  · intro page hpage
    obtain ⟨place, hbacks, howns, -, i, hi, hcount, hplace, hreassignable⟩ := hwritten page hpage
    have hgpa : c.gpa i = page4kbMult page := by
      obtain ⟨hgpa, -⟩ := gpa_eq hfaults hstart hlt.le hsize hi
      rw [hgpa, page4kbCount_page4kbMult] at hcount
      rw [hgpa, hcount]
    rw [hgpa] at hplace
    refine ⟨place, hbacks, howns, hplace, ?_, fun hclaim => ?_⟩
    · rw [← hgpa]
      exact hbound hvalid _ (List.mem_map_of_mem (List.mem_range.mpr hi))
    · rw [← howns.entry_eq hgrown]
      refine (hreassignable.secure ?_).1
      rw [ownership, hclaim]
      rfl
  · intro page page' place hpage hpage' hbacks hbacks'
    obtain ⟨place₁, hbacks₁, -, hasked₁, -⟩ := hwritten page hpage
    obtain ⟨place₂, hbacks₂, -, hasked₂, -⟩ := hwritten page' hpage'
    obtain rfl := hbacks.eq hbacks₁
    obtain rfl := hbacks'.eq hbacks₂
    have hpfn := congrArg NoirRmtEntry.guestPfn (hasked₁.symm.trans hasked₂)
    simpa only [asked, configuredEntry, page4kbCount_page4kbMult] using hpfn

/-- A claim takes effect or fails visibly where the command faults or the walk handles the range as a
whole, and nowhere else but where nothing is asked for or some page already is as asked for. -/
theorem claim_visible (c : NsvClaim) :
    ((c.Faults ∨ ∃ fuel, c.Regular fuel) → c.Visible) ∧
      (c.Visible → (c.Faults ∨ ∃ fuel, c.Regular fuel) ∨ c.Idle) := by
  by_cases hfaults : c.Faults
  · exact ⟨fun _ => ⟨0, true, c.host, if_pos hfaults, fun _ => rfl, fun h => (nomatch h)⟩,
      fun _ => Or.inl (Or.inl hfaults)⟩
  have hrun : ∀ fuel, c.run fuel = (do let host ← c.nvcSvmcRunVcpu fuel; return (false, host)) :=
    fun fuel => if_neg hfaults
  constructor
  · rintro (hfaults' | ⟨fuel, hregular⟩)
    · exact absurd hfaults' hfaults
    obtain ⟨host, hhost, heffect⟩ := hregular.takesEffect hfaults
    refine ⟨fuel, false, host, ?_, fun h => (nomatch h), fun _ => ⟨?_, hregular.supplied, heffect⟩⟩
    · rw [hrun, hhost]
      rfl
    · intro page hpage
      obtain ⟨place, hhandled⟩ := hregular.handled page hpage
      exact ⟨place, hhandled.backs, hhandled.owns⟩
  · rintro ⟨fuel, told, host, hreturns, -, hcompleted⟩
    rw [hrun] at hreturns
    obtain ⟨host', hhost, hreturns⟩ := bind_eq_ok.mp hreturns
    cases hreturns
    obtain ⟨howned, hsupplied, heffect⟩ := hcompleted rfl
    by_cases hidle : c.Idle
    · exact Or.inr hidle
    · exact Or.inl (Or.inr ⟨fuel,
        regular_of_takesEffect hfaults hidle howned hsupplied hhost heffect⟩)

/-! A guest that claims its first page. -/

def claimContext : CvexitContext where
  cpu := anyFeatures
  host := zeroVirtualCpu
  nrips := true
  decodeAssists := true
  instructionLength := 2
  exitInfo1 := 1
  exitInfo2 := 0
  tsc := 0
  msrInterceptions := none
  quickpath := []
  mtrrDefType := 0
  vmsaArea := zeroArea
  misplaced := id

/-- The processor at the command: ECX has the MSR, EAX the bit for a claim. -/
def claimProcessor : Processor :=
  { zeroProcessor with
    reg := Function.update (Function.update zeroProcessor.reg .rax 1) (.gpr 1) nsvMsrClaimGpaCmd }

def claimState : CvexitState where
  p := claimProcessor
  vcpu :=
    { header := zeroVirtualCpu
      vmcb := ⟨fun _ => 0, fun _ => false⟩
      procId := 0
      shadowedBits := ⟨false, false, false⟩
      specialState := ⟨false, false, false, false⟩
      nsvGuest := true
      vmsa := ⟨fun _ => 0, true⟩ }
  nsvs := fun msr => if msr = .claimGpaEnd then 0x1000 else 0
  toHost := false

/-- The host with its first 2 MiB split, and page 5 of its memory a page of the guest. -/
def claimHost : NsvHost where
  nptm := ((NptManager.identityMap.pushPde 0 1024).2.pushPte 0 1025).2
  rmd :=
    { sixteenPages with
      entry := Function.update sixteenPages.entry (0, 5)
        (configuredEntry 0 2 true noirNsvRmtInsecureGuest) }

theorem claimHost_given (phys : Nat) : ¬claimHost.Given phys := by
  rintro ⟨k, frame, hframe, -⟩
  cases hframe

/-- The claim with a given map of the guest. -/
def firstPageClaim (nptm : SvmCustomNptManager) : NsvClaim where
  ctx := claimContext
  s := claimState
  asid := 2
  nptm := nptm
  enableNsv := true
  host := claimHost
  stack := .unsuccessful
  command := rfl
  start_lt := by decide
  end_lt := by decide
  given phys place hgiven _ := absurd hgiven (claimHost_given phys)

theorem firstPageClaim_inRange {nptm : SvmCustomNptManager} {page : Nat} :
    (firstPageClaim nptm).InRange page ↔ page = 0 := by
  constructor
  · rintro ⟨address, -, hlt, rfl⟩
    exact Nat.div_eq_of_lt hlt
  · rintro rfl
    exact ⟨0, Nat.le_refl 0, show 0 < 0x1000 by decide, rfl⟩

/-- With the page not mapped, the guest sees the claim completed all the same. -/
theorem not_forall_visible : ¬∀ c : NsvClaim, c.Visible := by
  intro h
  obtain ⟨fuel, told, host, hrun, -, hcompleted⟩ := h (firstPageClaim SvmCustomNptManager.newManager)
  obtain ⟨host', -, hreturn⟩ := bind_eq_ok.mp hrun
  cases hreturn
  obtain ⟨howned, -, -⟩ := hcompleted rfl
  obtain ⟨place, ⟨-, hpa, hmapping, -⟩, -⟩ := howned 0 (firstPageClaim_inRange.mpr rfl)
  have hnone : SvmCustomNptManager.newManager.nvcSvmcGetPhysicalMapping (page4kbMult 0)
      true false true = (false, 0) := rfl
  cases hnone.symm.trans hmapping

end NsvClaim

end NoirVisor
