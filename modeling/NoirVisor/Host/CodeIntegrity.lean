import NoirVisor.Platform
import NoirVisor.Search
import Mathlib.Data.List.GetD
import Mathlib.Data.List.Sort
import Mathlib.Tactic.Common

/-!
# Code integrity

The pages of the hypervisor's own sections are listed with their physical addresses, and an access
of the guest is looked up in the list (`xpf_core/ci.c`).
-/

namespace NoirVisor

structure NoirCiPage where
  virt : Nat := 0
  phys : Nat := 0
  crc : BitVec 32 := 0
  softCi : Bool := false
  hardCi : Bool := false
deriving DecidableEq

/-- The entries of `page_ci` in use, out of those that the page of the context has room for. -/
structure NoirCiContext where
  limit : Nat
  pages : List NoirCiPage
  softCi : Bool
  hardCi : Bool
deriving DecidableEq

/-- A section starts at a page, which is given by its number, and has a size in bytes. -/
structure CiSection where
  base : Nat
  size : Nat
  enableScan : Bool

structure CiHost where
  frameOf : Nat → Nat
  noirCrc32Page : Nat → BitVec 32
  noirCheckSlatPaging : Bool
  noirCreateThread : Bool

def bytesToPages (size : Nat) : Nat :=
  page4kbCount size + if size % page4kbSize = 0 then 0 else 1

/-- The page of the context without its header of 32 bytes, in entries of 24. -/
def noirCiLimit : Nat := (page4kbSize - 32) / 24

namespace NoirCiPage

/-- Where the address is, seen from the page. -/
def comparePhys (page : NoirCiPage) (phys : Nat) : Ordering :=
  if phys < page.phys then .lt else if page.phys + page4kbSize ≤ phys then .gt else .eq

variable {page : NoirCiPage} {phys : Nat}

theorem comparePhys_eq_lt : page.comparePhys phys = .lt ↔ phys < page.phys := by
  unfold comparePhys
  grind

theorem comparePhys_eq_gt : page.comparePhys phys = .gt ↔ page.phys + page4kbSize ≤ phys := by
  unfold comparePhys
  grind

theorem comparePhys_eq_eq :
    page.comparePhys phys = .eq ↔ page.phys ≤ phys ∧ phys < page.phys + page4kbSize := by
  unfold comparePhys
  grind

end NoirCiPage

namespace NoirCiContext

variable (ctx : NoirCiContext) (host : CiHost) (phys : Nat)

def u32 (x : Int) : Int := x % 2 ^ 32

/-- `page_ci[mid]`. The page of the context was zeroed. -/
def read (mid : Int) : Option NoirCiPage :=
  if mid < 0 then none
  else if mid < ctx.limit then some (ctx.pages.getD mid.toNat {})
  else none

def probe (mid : Int) : Option Ordering := (ctx.read mid).map (NoirCiPage.comparePhys · phys)

def search : Search.Outcome :=
  Search.loop u32 (ctx.probe phys) (2 + ctx.pages.length) 0 ctx.pages.length

/-- The virtual address, if the page is listed. -/
def noirCiIsCiPhysPage : Outcome (Option Nat) :=
  match ctx.search phys with
  | .found mid =>
    match ctx.read mid with
    | none => .error .outOfBounds
    | some page => .ok (some (page.virt + phys % page4kbSize))
  | .absent => .ok none
  | .outside => .error .outOfBounds
  | .running => .error .outOfFuel

def ciPage (s : CiSection) (i : Nat) : NoirCiPage where
  virt := page4kbMult (s.base + i)
  phys := page4kbMult (host.frameOf (s.base + i))
  crc := host.noirCrc32Page (s.base + i)
  softCi := s.enableScan && ctx.softCi
  hardCi := ctx.hardCi

def noirAddSectionToCi (s : CiSection) : Option NoirCiContext :=
  let pageNum := bytesToPages s.size
  if ctx.limit ≤ ctx.pages.length + pageNum then none
  else some { ctx with pages := ctx.pages ++ (List.range pageNum).map (ctx.ciPage host s) }

/-- Equal pages are left in some order by `qsort`. -/
def noirActivateCi : Option NoirCiContext :=
  if ctx.softCi && !host.noirCreateThread then none
  else if ctx.hardCi then
    some { ctx with pages := ctx.pages.insertionSort (·.phys ≤ ·.phys) }
  else some ctx

end NoirCiContext

namespace CiHost

variable (host : CiHost)

/-- The page of the context is the first one listed, and is not scanned. -/
def noirInitializeCi (ciBase : Nat) (softCi hardCi : Bool) : Option NoirCiContext :=
  let useHard := hardCi && host.noirCheckSlatPaging
  if useHard || softCi then
    NoirCiContext.noirAddSectionToCi ⟨noirCiLimit, [], softCi, hardCi⟩ host
      ⟨ciBase, page4kbSize, false⟩
  else none

/-- Sections are added between initialization and activation. -/
def activated (ciBase : Nat) (softCi hardCi : Bool) (sections : List CiSection) :
    Option NoirCiContext := do
  let ctx ← host.noirInitializeCi ciBase softCi hardCi
  let ctx ← sections.foldlM (fun ctx s => ctx.noirAddSectionToCi host s) ctx
  ctx.noirActivateCi host

def physPages (s : CiSection) : List Nat :=
  (List.range (bytesToPages s.size)).map fun i => page4kbMult (host.frameOf (s.base + i))

/-- The physical pages of the sections, in the order that they are added in. -/
def added (ciBase : Nat) (sections : List CiSection) : List Nat :=
  (⟨ciBase, page4kbSize, false⟩ :: sections).flatMap host.physPages

end CiHost

namespace NoirCiContext

variable {ctx ctx' : NoirCiContext} {host : CiHost} {phys : Nat}

/-- What activation leaves: an entry at least, room for one more, and pages only. -/
structure Listed (ctx : NoirCiContext) : Prop where
  pos : 0 < ctx.pages.length
  room : ctx.pages.length < ctx.limit
  limit : ctx.limit = noirCiLimit
  aligned : ∀ page ∈ ctx.pages, page4kbSize ∣ page.phys

theorem u32_eq {x : Int} (h : 0 ≤ x) (hlt : x < 2 ^ 32) : u32 x = x := by
  unfold u32
  omega

theorem probe_of_nonneg {i : Nat} (h : i < ctx.limit) :
    ctx.probe phys i = some ((ctx.pages.getD i {}).comparePhys phys) := by
  have hnat : ¬(i : Int) < 0 := by omega
  have hlimit : (i : Int) < ctx.limit := by omega
  rw [probe, read, if_neg hnat, if_pos hlimit, Int.toNat_natCast]
  rfl

theorem probe_eq_some {i : Int} {order : Ordering} (h : ctx.probe phys i = some order) :
    0 ≤ i ∧ (ctx.pages.getD i.toNat {}).comparePhys phys = order := by
  unfold probe read at h
  split at h
  · cases h
  · split at h
    · exact ⟨by omega, Option.some.inj h⟩
    · cases h

theorem Listed.wrap (h : ctx.Listed) (x : Int) (hx : 0 ≤ x) (hle : x ≤ 2 * ctx.pages.length + 1) :
    u32 x = x := by
  have hroom := h.room
  have hlimit := h.limit
  have hsmall : noirCiLimit = 169 := rfl
  exact u32_eq hx (by omega)

theorem Listed.far (h : ctx.Listed) (phys : Nat) : ctx.probe phys (u32 (u32 (-1)) / 2) = none := by
  have hmid : u32 (u32 (-1)) / 2 = 2 ^ 31 - 1 := by decide
  have hlimit := h.limit
  have hsmall : noirCiLimit = 169 := rfl
  have hnat : ¬(2 ^ 31 - 1 : Int) < 0 := by decide
  have hout : ¬(2 ^ 31 - 1 : Int) < ctx.limit := by omega
  rw [hmid, probe, read, if_neg hnat, if_neg hout]
  rfl

def Sorted (ctx : NoirCiContext) : Prop := ctx.pages.Pairwise (·.phys ≤ ·.phys)

theorem Sorted.getD_le (h : ctx.Sorted) {i j : Nat} (hij : i ≤ j) (hj : j < ctx.pages.length) :
    (ctx.pages.getD i {}).phys ≤ (ctx.pages.getD j {}).phys := by
  rcases Nat.eq_or_lt_of_le hij with heq | hlt
  · rw [heq]
  · have hpair := List.pairwise_iff_getElem.mp h i j (Nat.lt_trans hlt hj) hj hlt
    rwa [List.getD_eq_getElem _ _ (Nat.lt_trans hlt hj), List.getD_eq_getElem _ _ hj]

/-- The entry after those in use is a page at address zero, which only keys above all others
meet. -/
theorem guarded_probe (h : ctx.Listed) (hsorted : ctx.Sorted) (phys : Nat) :
    Search.Guarded ctx.pages.length (ctx.probe phys) where
  inside i hi hin := by
    have hroom := h.room
    have hsplit : i = (i.toNat : Int) := by omega
    rw [hsplit, probe_of_nonneg (by omega)]
    exact nofun
  below i j hi hij hjn hlt := by
    have hroom := h.room
    obtain ⟨-, hcompare⟩ := probe_eq_some hlt
    have hsplit : j = (j.toNat : Int) := by omega
    have hle := hsorted.getD_le (i := i.toNat) (j := j.toNat) (by omega) (by omega)
    rw [NoirCiPage.comparePhys_eq_lt] at hcompare
    rw [hsplit, probe_of_nonneg (by omega), NoirCiPage.comparePhys_eq_lt.mpr (by omega)]
  above i j hj hji hin hgt := by
    have hroom := h.room
    obtain ⟨-, hcompare⟩ := probe_eq_some hgt
    have hsplit : j = (j.toNat : Int) := by omega
    have hle := hsorted.getD_le (i := j.toNat) (j := i.toNat) (by omega) (by omega)
    rw [NoirCiPage.comparePhys_eq_gt] at hcompare
    rw [hsplit, probe_of_nonneg (by omega), NoirCiPage.comparePhys_eq_gt.mpr (by omega)]
  last hall := by
    have hpos := h.pos
    obtain ⟨-, hcompare⟩ := probe_eq_some (hall 0 (Int.le_refl _) (by omega))
    rw [NoirCiPage.comparePhys_eq_gt] at hcompare
    have hunused : ctx.pages.getD ctx.pages.length {} = {} := by simp
    rw [probe_of_nonneg h.room, hunused]
    congr 1
    rw [NoirCiPage.comparePhys_eq_gt]
    have hzero : ({} : NoirCiPage).phys = 0 := rfl
    omega

/-- The answer to a lookup is whether a listed page contains the address. -/
def Answers (ctx : NoirCiContext) (phys : Nat) : Prop :=
  ∃ answer, ctx.noirCiIsCiPhysPage phys = .ok answer ∧
    (answer.isSome = true ↔ ∃ page ∈ ctx.pages, page.phys ≤ phys ∧ phys < page.phys + page4kbSize)

theorem getD_mem {i : Nat} (h : i < ctx.pages.length) : ctx.pages.getD i {} ∈ ctx.pages := by
  rw [List.getD_eq_getElem _ _ h]
  exact List.getElem_mem h

theorem exists_getD {page : NoirCiPage} (h : page ∈ ctx.pages) :
    ∃ i < ctx.pages.length, ctx.pages.getD i {} = page := by
  obtain ⟨i, hi, hget⟩ := List.getElem_of_mem h
  exact ⟨i, hi, (List.getD_eq_getElem _ _ hi).trans hget⟩

/-- In a sorted list every address is answered for that is not below all pages. -/
theorem answers_of_sorted (h : ctx.Listed) (hsorted : ctx.Sorted)
    (hlow : ∃ page ∈ ctx.pages, page.phys ≤ phys) : ctx.Answers phys := by
  have hpos := h.pos
  have hroom := h.room
  have hfirst : ctx.probe phys 0 ≠ some .lt := by
    intro hlt
    obtain ⟨-, hcompare⟩ := probe_eq_some hlt
    rw [NoirCiPage.comparePhys_eq_lt] at hcompare
    obtain ⟨page, hpage, hle⟩ := hlow
    obtain ⟨i, hi, rfl⟩ := exists_getD hpage
    have hmin := hsorted.getD_le (Nat.zero_le i) hi
    exact absurd hcompare (by simpa using hmin.trans hle)
  have hbounds : Search.Bounds ctx.pages.length (ctx.probe phys) 0 ctx.pages.length :=
    ⟨by omega, by omega, fun i hi hlt => absurd hlt (by omega),
      fun i hlt _ hin => absurd hin (by omega)⟩
  have hfuel : (ctx.pages.length : Int) - 0 + 2 ≤ (2 + ctx.pages.length : Nat) := by omega
  have hspec := Search.loop_guarded (guarded_probe h hsorted phys) h.wrap
    (fun _ hi hin hprobe => Search.wrap_pred hfirst h.wrap hi hin hprobe) hbounds hfuel (by omega)
  rcases hspec with ⟨i, hfound, hi, hin, hprobe⟩ | ⟨habsent, hnone⟩
  · have hsearch : ctx.search phys = .found i := hfound
    have hnat : ¬i < 0 := by omega
    have hlimit : i < ctx.limit := by omega
    have hread : ctx.read i = some (ctx.pages.getD i.toNat {}) := by
      rw [read, if_neg hnat, if_pos hlimit]
    obtain ⟨-, hcompare⟩ := probe_eq_some hprobe
    refine ⟨some ((ctx.pages.getD i.toNat {}).virt + phys % page4kbSize), ?_, fun _ => ?_,
      fun _ => rfl⟩
    · rw [noirCiIsCiPhysPage, hsearch]
      dsimp only
      rw [hread]
    · exact ⟨_, getD_mem (by omega), NoirCiPage.comparePhys_eq_eq.mp hcompare⟩
  · have hsearch : ctx.search phys = .absent := habsent
    refine ⟨none, by rw [noirCiIsCiPhysPage, hsearch], nofun, ?_⟩
    rintro ⟨page, hpage, hcontains⟩
    obtain ⟨i, hi, rfl⟩ := exists_getD hpage
    have hprobe := hnone i (by omega) (by omega)
    rw [probe_of_nonneg (by omega), NoirCiPage.comparePhys_eq_eq.mpr hcontains] at hprobe
    exact absurd rfl hprobe

/-- Below all pages the upper bound wraps. -/
theorem not_answers_of_below (h : ctx.Listed) (hbelow : ∀ page ∈ ctx.pages, phys < page.phys) :
    ¬ctx.Answers phys := by
  have hpos := h.pos
  have hroom := h.room
  have hall : ∀ i : Int, 0 ≤ i → i < ctx.pages.length → ctx.probe phys i = some .lt := by
    intro i hi hin
    have hsplit : i = (i.toNat : Int) := by omega
    rw [hsplit, probe_of_nonneg (by omega),
      NoirCiPage.comparePhys_eq_lt.mpr (hbelow _ (getD_mem (by omega)))]
  have hsearch : ctx.search phys = .outside :=
    Search.loop_below (by omega) hall h.wrap (h.far phys) (by decide) ⟨by omega, Int.le_refl _⟩
      (by omega)
  rintro ⟨answer, hanswer, -⟩
  rw [noirCiIsCiPhysPage, hsearch] at hanswer
  cases hanswer

theorem Listed.phys_eq (h : ctx.Listed) {i j : Nat} (hi : i < ctx.pages.length)
    (hj : j < ctx.pages.length)
    (hcompare : (ctx.pages.getD i {}).comparePhys (ctx.pages.getD j {}).phys = .eq) :
    (ctx.pages.getD i {}).phys = (ctx.pages.getD j {}).phys := by
  obtain ⟨hle, hlt⟩ := NoirCiPage.comparePhys_eq_eq.mp hcompare
  obtain ⟨a, ha⟩ := h.aligned _ (getD_mem hi)
  obtain ⟨b, hb⟩ := h.aligned _ (getD_mem hj)
  unfold page4kbSize at ha hb hlt
  omega

/-- A search for a listed page does not end after the last one. -/
theorem found_lt (h : ctx.Listed) {i : Int} {j : Nat} (hj : j < ctx.pages.length)
    (hfound : ctx.search (ctx.pages.getD j {}).phys = .found i) : 0 ≤ i ∧ i < ctx.pages.length := by
  have hpos := h.pos
  have hprobe := Search.found_probe hfound
  obtain ⟨hnonneg, hcompare⟩ := probe_eq_some hprobe
  have hfuel : 2 + ctx.pages.length = (1 + ctx.pages.length) + 1 := by omega
  have hloop : Search.loop u32 (ctx.probe (ctx.pages.getD j {}).phys) ((1 + ctx.pages.length) + 1)
      0 ctx.pages.length = .found i := hfuel ▸ hfound
  obtain ⟨-, hmid | ⟨hgt, hrest⟩ | ⟨-, hrest⟩⟩ :=
    Search.found_cases h.wrap (h.far _) (Int.le_refl _) (Int.le_refl _) hloop
  · omega
  · -- A key above some page is not at address zero.
    have hmem := Search.found_mem h.wrap (h.far _) (by omega) (Int.le_refl _) hrest
    obtain ⟨-, habove⟩ := probe_eq_some hgt
    rw [NoirCiPage.comparePhys_eq_gt] at habove
    by_contra hafter
    have hlast : i.toNat = ctx.pages.length := by omega
    have hunused : ctx.pages.getD i.toNat {} = {} := by rw [hlast]; simp
    rw [hunused, NoirCiPage.comparePhys_eq_eq] at hcompare
    have hlow : (ctx.pages.getD j {}).phys < 0 + page4kbSize := hcompare.2
    omega
  · have hmem := Search.found_mem h.wrap (h.far _) (Int.le_refl _) (by omega) hrest
    omega

theorem search_eq_found (h : ctx.Listed) (hnodup : (ctx.pages.map (·.phys)).Nodup) {j : Nat}
    (hj : j < ctx.pages.length) (hanswers : ctx.Answers (ctx.pages.getD j {}).phys) :
    ctx.search (ctx.pages.getD j {}).phys = .found j := by
  obtain ⟨answer, hanswer, hiff⟩ := hanswers
  have hsize : 0 < page4kbSize := by decide
  have hsome := hiff.mpr ⟨_, getD_mem hj, le_rfl, by omega⟩
  unfold noirCiIsCiPhysPage at hanswer
  cases hsearch : ctx.search (ctx.pages.getD j {}).phys with
  | found i =>
    obtain ⟨hnonneg, hlt⟩ := found_lt h hj hsearch
    obtain ⟨-, hcompare⟩ := probe_eq_some (Search.found_probe hsearch)
    have hi : i.toNat < ctx.pages.length := by omega
    have hphys := h.phys_eq hi hj hcompare
    have hindex : i.toNat = j := by
      by_contra hne
      have hpairs := List.pairwise_iff_getElem.mp (List.pairwise_map.mp hnodup)
      rw [List.getD_eq_getElem _ {} hi, List.getD_eq_getElem _ {} hj] at hphys
      rcases Nat.lt_or_gt_of_ne hne with hlt | hgt
      · exact hpairs _ _ hi hj hlt hphys
      · exact hpairs _ _ hj hi hgt hphys.symm
    congr 1
    omega
  | absent =>
    rw [hsearch] at hanswer
    cases hanswer
    cases hsome
  | outside =>
    rw [hsearch] at hanswer
    cases hanswer
  | running =>
    rw [hsearch] at hanswer
    cases hanswer

/-- A list in which every page is found is sorted. -/
theorem sorted_of_answers (h : ctx.Listed) (hnodup : (ctx.pages.map (·.phys)).Nodup)
    (hanswers : ∀ phys, ctx.Answers phys) : ctx.pages.Pairwise (·.phys < ·.phys) := by
  have hbelow : ∀ j i : Int, ctx.probe (ctx.pages.getD j.toNat {}).phys i = some .lt →
      ((ctx.pages.getD j.toNat {}).phys : Int) < (ctx.pages.getD i.toNat {}).phys := by
    intro j i hprobe
    obtain ⟨-, hcompare⟩ := probe_eq_some hprobe
    exact Int.ofNat_lt.mpr (NoirCiPage.comparePhys_eq_lt.mp hcompare)
  have habove : ∀ j i : Int, ctx.probe (ctx.pages.getD j.toNat {}).phys i = some .gt →
      ((ctx.pages.getD i.toNat {}).phys : Int) < (ctx.pages.getD j.toNat {}).phys := by
    intro j i hprobe
    obtain ⟨-, hcompare⟩ := probe_eq_some hprobe
    have hsize : 0 < page4kbSize := by decide
    have hle := NoirCiPage.comparePhys_eq_gt.mp hcompare
    exact Int.ofNat_lt.mpr (by omega)
  have hfound : ∀ j : Int, 0 ≤ j → j ≤ ctx.pages.length → j < ctx.pages.length →
      Search.loop u32 (ctx.probe (ctx.pages.getD j.toNat {}).phys) (2 + ctx.pages.length) 0
        ctx.pages.length = .found j := by
    intro j hj _ hjn
    have hfound := search_eq_found h hnodup (j := j.toNat) (by omega) (hanswers _)
    have hsplit : (j.toNat : Int) = j := by omega
    rw [hsplit] at hfound
    exact hfound
  rw [List.pairwise_iff_getElem]
  intro i j hi hj hij
  have hlt := Search.lt_of_found hbelow habove h.wrap (fun j => h.far _) (Int.le_refl _)
    (Int.le_refl _) hfound (a := i) (b := j) (by omega) (by omega) (by omega) (by omega)
  rw [Int.toNat_natCast, Int.toNat_natCast, List.getD_eq_getElem _ _ hi,
    List.getD_eq_getElem _ _ hj] at hlt
  exact Int.ofNat_lt.mp hlt

/-- Every address is answered for, and a loop over the list meets each page once. -/
structure Covers (ctx : NoirCiContext) (added : List Nat) : Prop where
  lookup : ∀ phys, ∃ answer, ctx.noirCiIsCiPhysPage phys = .ok answer ∧
    (answer.isSome = true ↔ ∃ page ∈ added, page ≤ phys ∧ phys < page + page4kbSize)
  once : ∀ page, (ctx.pages.map (·.phys)).count page = if page ∈ added then 1 else 0

/-- No page is added twice, one of them is that at address zero, and they are sorted or come in
order. -/
structure Searchable (hardCi : Bool) (added : List Nat) : Prop where
  distinct : added.Nodup
  lowest : 0 ∈ added
  sorted : hardCi = true ∨ added.Pairwise (· < ·)

theorem covers_of_answers {added : List Nat} (hperm : (ctx.pages.map (·.phys)).Perm added)
    (hanswers : ∀ phys, ctx.Answers phys) (hnodup : added.Nodup) : ctx.Covers added where
  lookup phys := by
    obtain ⟨answer, hanswer, hiff⟩ := hanswers phys
    refine ⟨answer, hanswer, hiff.trans ?_⟩
    constructor
    · rintro ⟨page, hpage, hcontains⟩
      exact ⟨page.phys, hperm.mem_iff.mp (List.mem_map_of_mem hpage), hcontains⟩
    · rintro ⟨phys', hphys, hcontains⟩
      obtain ⟨page, hpage, rfl⟩ := List.mem_map.mp (hperm.mem_iff.mpr hphys)
      exact ⟨page, hpage, hcontains⟩
  once page := by
    rw [hperm.count_eq]
    exact hnodup.count

theorem Covers.answers {added : List Nat} (h : ctx.Covers added)
    (hperm : (ctx.pages.map (·.phys)).Perm added) (phys : Nat) : ctx.Answers phys := by
  obtain ⟨answer, hanswer, hiff⟩ := h.lookup phys
  refine ⟨answer, hanswer, hiff.trans ?_⟩
  constructor
  · rintro ⟨phys', hphys, hcontains⟩
    obtain ⟨page, hpage, rfl⟩ := List.mem_map.mp (hperm.mem_iff.mpr hphys)
    exact ⟨page, hpage, hcontains⟩
  · rintro ⟨page, hpage, hcontains⟩
    exact ⟨page.phys, hperm.mem_iff.mp (List.mem_map_of_mem hpage), hcontains⟩

theorem Covers.nodup {added : List Nat} (h : ctx.Covers added)
    (hperm : (ctx.pages.map (·.phys)).Perm added) : added.Nodup := by
  rw [List.nodup_iff_count_le_one]
  intro page
  rw [← hperm.count_eq, h.once]
  split <;> omega

theorem covers_iff_searchable {added : List Nat} (h : ctx.Listed)
    (hperm : (ctx.pages.map (·.phys)).Perm added) (hhard : ctx.hardCi = true → ctx.Sorted)
    (hsoft : ctx.hardCi = false → ctx.pages.map (·.phys) = added) :
    ctx.Covers added ↔ Searchable ctx.hardCi added := by
  constructor
  · intro hcovers
    have hanswers := hcovers.answers hperm
    have hnodup := hcovers.nodup hperm
    refine ⟨hnodup, ?_, ?_⟩
    · by_contra hzero
      refine not_answers_of_below h (fun page hpage => ?_) (hanswers 0)
      apply Nat.pos_of_ne_zero
      intro hphys
      exact hzero (hphys ▸ hperm.mem_iff.mp (List.mem_map_of_mem hpage))
    · cases hmode : ctx.hardCi with
      | true => exact .inl rfl
      | false =>
        refine .inr ?_
        rw [← hsoft hmode, List.pairwise_map]
        exact sorted_of_answers h (hperm.nodup_iff.mpr hnodup) hanswers
  · rintro ⟨hnodup, hzero, hsorted⟩
    have htable : ctx.Sorted := by
      cases hmode : ctx.hardCi with
      | true => exact hhard hmode
      | false =>
        have hpairs : added.Pairwise (· < ·) := hsorted.resolve_left (by simp [hmode])
        rw [← hsoft hmode, List.pairwise_map] at hpairs
        exact hpairs.imp Nat.le_of_lt
    obtain ⟨page, hpage, hphys⟩ := List.mem_map.mp (hperm.mem_iff.mpr hzero)
    exact covers_of_answers hperm
      (fun phys => answers_of_sorted h htable ⟨page, hpage, by omega⟩) hnodup

/-- One section more. -/
theorem noirAddSectionToCi_eq_some {s : CiSection} (h : ctx.noirAddSectionToCi host s = some ctx') :
    ctx'.pages.map (·.phys) = ctx.pages.map (·.phys) ++ host.physPages s ∧
      ctx'.pages.length < ctx'.limit ∧ ctx'.limit = ctx.limit ∧ ctx'.hardCi = ctx.hardCi := by
  unfold noirAddSectionToCi at h
  dsimp only at h
  split at h
  · cases h
  · obtain rfl := Option.some.inj h
    refine ⟨?_, ?_, rfl, rfl⟩
    · rw [List.map_append, List.map_map]
      rfl
    · rw [List.length_append, List.length_map, List.length_range]
      exact Nat.lt_of_not_le ‹_›

/-- The context between the calls. -/
structure Holds (ctx : NoirCiContext) (hardCi : Bool) (added : List Nat) : Prop where
  phys : ctx.pages.map (·.phys) = added
  room : ctx.pages.length < ctx.limit
  limit : ctx.limit = noirCiLimit
  mode : ctx.hardCi = hardCi

theorem Holds.add {hardCi : Bool} {added : List Nat} {s : CiSection} (h : ctx.Holds hardCi added)
    (hadd : ctx.noirAddSectionToCi host s = some ctx') :
    ctx'.Holds hardCi (added ++ host.physPages s) := by
  obtain ⟨hphys, hroom, hlimit, hmode⟩ := noirAddSectionToCi_eq_some hadd
  exact ⟨h.phys ▸ hphys, hroom, hlimit.trans h.limit, hmode.trans h.mode⟩

theorem Holds.foldlM {hardCi : Bool} {added : List Nat} {sections : List CiSection}
    (h : ctx.Holds hardCi added)
    (hadd : sections.foldlM (fun ctx s => ctx.noirAddSectionToCi host s) ctx = some ctx') :
    ctx'.Holds hardCi (added ++ sections.flatMap host.physPages) := by
  induction sections generalizing ctx added with
  | nil =>
    obtain rfl := Option.some.inj hadd
    simpa using h
  | cons s sections ih =>
    rw [List.foldlM_cons] at hadd
    obtain ⟨ctx₁, hfirst, hrest⟩ := Option.bind_eq_some_iff.mp hadd
    rw [List.flatMap_cons, ← List.append_assoc]
    exact ih (h.add hfirst) hrest

theorem Holds.activate {hardCi : Bool} {added : List Nat} (h : ctx.Holds hardCi added)
    (hactivate : ctx.noirActivateCi host = some ctx') :
    (ctx'.pages.map (·.phys)).Perm added ∧ ctx'.pages.length < ctx'.limit ∧
      ctx'.limit = noirCiLimit ∧ ctx'.hardCi = hardCi ∧ (ctx'.hardCi = true → ctx'.Sorted) ∧
      (ctx'.hardCi = false → ctx'.pages.map (·.phys) = added) := by
  unfold noirActivateCi at hactivate
  split at hactivate
  · cases hactivate
  · split at hactivate
    · rename_i hhard
      obtain rfl := Option.some.inj hactivate
      have hperm := List.perm_insertionSort (fun a b : NoirCiPage => a.phys ≤ b.phys) ctx.pages
      refine ⟨(hperm.map _).trans (h.phys ▸ .refl _), ?_, h.limit, h.mode, fun _ => ?_, ?_⟩
      · rw [hperm.length_eq]
        exact h.room
      · have htotal : Std.Total fun a b : NoirCiPage => a.phys ≤ b.phys :=
          ⟨fun a b => Nat.le_total a.phys b.phys⟩
        have htrans : IsTrans NoirCiPage fun a b => a.phys ≤ b.phys :=
          ⟨fun a b c => Nat.le_trans⟩
        exact List.pairwise_insertionSort _ _
      · intro hsoft
        exact absurd (hhard.symm.trans hsoft) nofun
    · rename_i hsoft
      obtain rfl := Option.some.inj hactivate
      exact ⟨h.phys ▸ .refl _, h.room, h.limit, h.mode, fun hhard => absurd hhard hsoft,
        fun _ => h.phys⟩

/-- Physical addresses of pages. -/
theorem dvd_of_mem_physPages {s : CiSection} (h : phys ∈ host.physPages s) :
    page4kbSize ∣ phys := by
  obtain ⟨i, -, rfl⟩ := List.mem_map.mp h
  exact Nat.dvd_mul_left _ _

end NoirCiContext

namespace CiHost

variable {host : CiHost} {ciBase : Nat} {softCi hardCi : Bool} {sections : List CiSection}
  {ctx : NoirCiContext}

theorem noirInitializeCi_holds (h : host.noirInitializeCi ciBase softCi hardCi = some ctx) :
    ctx.Holds hardCi (host.physPages ⟨ciBase, page4kbSize, false⟩) := by
  unfold noirInitializeCi at h
  dsimp only at h
  split at h
  · obtain ⟨hphys, hroom, hlimit, hmode⟩ := NoirCiContext.noirAddSectionToCi_eq_some h
    exact ⟨hphys, hroom, hlimit, hmode⟩
  · cases h

/-- The pages of the sections are listed, the page of the context among them. -/
theorem activated_listed (h : host.activated ciBase softCi hardCi sections = some ctx) :
    ctx.Listed ∧ (ctx.pages.map (·.phys)).Perm (host.added ciBase sections) ∧ ctx.hardCi = hardCi ∧
      (ctx.hardCi = true → ctx.Sorted) ∧
      (ctx.hardCi = false → ctx.pages.map (·.phys) = host.added ciBase sections) := by
  obtain ⟨ctx₁, hinit, h⟩ := Option.bind_eq_some_iff.mp h
  obtain ⟨ctx₂, hadd, hactivate⟩ := Option.bind_eq_some_iff.mp h
  have hholds := (noirInitializeCi_holds hinit).foldlM hadd
  obtain ⟨hperm, hroom, hlimit, hmode, hhard, hsoft⟩ := hholds.activate hactivate
  have hpages : (ctx.pages.map (·.phys)).Perm (host.added ciBase sections) := hperm
  have hfirst : (host.physPages ⟨ciBase, page4kbSize, false⟩).length = 1 := by
    have hcount : bytesToPages page4kbSize = 1 := by decide
    rw [physPages, List.length_map, List.length_range, hcount]
  have hpos : 0 < (ctx.pages.map (·.phys)).length := by
    rw [hpages.length_eq, added, List.flatMap_cons, List.length_append, hfirst]
    omega
  refine ⟨⟨by simpa using hpos, hroom, hlimit, fun page hpage => ?_⟩, hpages, hmode, hhard, hsoft⟩
  obtain ⟨s, -, hs⟩ := List.mem_flatMap.mp (hpages.mem_iff.mp (List.mem_map_of_mem hpage))
  exact NoirCiContext.dvd_of_mem_physPages hs

/-- An address below all pages listed leads the search out of the list, so that every address is
answered for only if there is none, no page is listed twice, and the list is in order. -/
theorem activated_covers_iff (host : CiHost) (ciBase : Nat) (softCi hardCi : Bool)
    (sections : List CiSection)
    (ctx : NoirCiContext) (h : host.activated ciBase softCi hardCi sections = some ctx) :
    ctx.Covers (host.added ciBase sections) ↔
      NoirCiContext.Searchable hardCi (host.added ciBase sections) := by
  obtain ⟨hlisted, hperm, hmode, hhard, hsoft⟩ := activated_listed h
  rw [← hmode]
  exact NoirCiContext.covers_iff_searchable hlisted hperm hhard hsoft

/-- Memory that is mapped to the frames of the same numbers. -/
def identityCiHost : CiHost where
  frameOf := id
  noirCrc32Page _ := 0
  noirCheckSlatPaging := true
  noirCreateThread := true

/-- The page of the context is the third one, and the first two are a section. -/
theorem identityCiHost_covers :
    ∃ ctx, identityCiHost.activated 2 true true [⟨0, 0x1800, true⟩] = some ctx ∧
      ctx.Covers [0x2000, 0, 0x1000] :=
  ⟨_, rfl, (activated_covers_iff identityCiHost 2 true true [⟨0, 0x1800, true⟩] _ rfl).mpr
    ⟨by decide, by decide, .inl rfl⟩⟩

theorem not_forall_covers :
    ¬∀ (host : CiHost) (ciBase : Nat) (softCi hardCi : Bool) (sections : List CiSection)
      (ctx : NoirCiContext), host.activated ciBase softCi hardCi sections = some ctx →
        ctx.Covers (host.added ciBase sections) := by
  intro h
  have hcovers := h identityCiHost 1 true true [] _ rfl
  have hanswers := hcovers.answers (List.Perm.refl [0x1000]) 0
  refine NoirCiContext.not_answers_of_below ?_ ?_ hanswers
  · exact ⟨by decide, by decide, rfl, by decide⟩
  · decide

end CiHost

end NoirVisor
