import NoirVisor.Rmt.Ownership
import NoirVisor.Search
import Mathlib.Data.List.Basic

/-!
# Lookups in the reverse mapping table

The directory is searched by its sorted ranges. The upper bound of the search is the number of
ranges, and is an unsigned number that is decremented.
-/

namespace NoirVisor

namespace NoirRmtDirectoryEntry

variable (range : NoirRmtDirectoryEntry) (hpa : Nat)

def Contains : Prop := range.hpaStart ≤ hpa ∧ hpa < range.hpaEnd

instance : Decidable (range.Contains hpa) := inferInstanceAs (Decidable (_ ∧ _))

/-- Where the address is, seen from the range. -/
def compareHpa : Ordering :=
  if hpa < range.hpaStart then .lt else if range.hpaEnd ≤ hpa then .gt else .eq

variable {range hpa}

theorem compareHpa_eq_lt : range.compareHpa hpa = .lt ↔ hpa < range.hpaStart := by
  unfold compareHpa
  grind

theorem compareHpa_eq_gt (h : range.hpaStart ≤ range.hpaEnd) :
    range.compareHpa hpa = .gt ↔ range.hpaEnd ≤ hpa := by
  unfold compareHpa
  grind

theorem compareHpa_eq_eq : range.compareHpa hpa = .eq ↔ range.Contains hpa := by
  unfold compareHpa Contains
  grind

end NoirRmtDirectoryEntry

/-- Ranges of physical memory in their order, in entries of 32 bytes. -/
structure SortedRanges (directory : List NoirRmtDirectoryEntry) : Prop where
  apart : directory.Pairwise (·.hpaEnd ≤ ·.hpaStart)
  proper : ∀ range ∈ directory, range.hpaStart ≤ range.hpaEnd
  fits : 32 * directory.length ≤ 2 ^ 64

namespace ReverseMappingDirectory

variable (rmd : ReverseMappingDirectory) (hpa : Nat)

def u64 (x : Int) : Int := x % 2 ^ 64

/-- The entries in use, and nothing else. -/
def probe (mid : Int) : Option Ordering :=
  if mid < 0 then none
  else rmd.directory[mid.toNat]?.map (NoirRmtDirectoryEntry.compareHpa · hpa)

/-- The loop of all three functions, with the directory cut after the entries in use. -/
def searchInUse : Search.Outcome :=
  Search.loop u64 (rmd.probe hpa) (2 + rmd.directory.length) 0 rmd.directory.length

/-- The place of the element for the page of an address, in the table of a range. -/
def placeIn (mid : Nat) : Nat × Nat :=
  (mid, page4kbCount (hpa - (rmd.directory.getD mid {}).hpaStart))

def locateInUse : Outcome (Option (Nat × Nat)) :=
  match rmd.searchInUse hpa with
  | .found mid => .ok (some (rmd.placeIn hpa mid.toNat))
  | .absent => .ok none
  | .outside => .error .outOfBounds
  | .running => .error .outOfFuel

/-- The element for the page, as the ranges have it. -/
def element : Option (Nat × Nat) :=
  (rmd.directory.findIdx? fun range => range.Contains hpa).map (rmd.placeIn hpa)

variable {rmd hpa}

theorem probe_of_getElem? {i : Nat} {range : NoirRmtDirectoryEntry}
    (h : rmd.directory[i]? = some range) : rmd.probe hpa i = some (range.compareHpa hpa) := by
  have hnat : ¬(i : Int) < 0 := by omega
  rw [probe, if_neg hnat, Int.toNat_natCast, h]
  rfl

theorem probe_eq_some {i : Int} {order : Ordering} (h : rmd.probe hpa i = some order) :
    0 ≤ i ∧ ∃ range, rmd.directory[i.toNat]? = some range ∧ range.compareHpa hpa = order := by
  unfold probe at h
  split at h
  · cases h
  · exact ⟨by omega, Option.map_eq_some_iff.mp h⟩

theorem getElem?_le (h : SortedRanges rmd.directory) {i j : Nat}
    {first second : NoirRmtDirectoryEntry} (hle : i ≤ j) (hi : rmd.directory[i]? = some first)
    (hj : rmd.directory[j]? = some second) :
    first = second ∨ first.hpaEnd ≤ second.hpaStart := by
  obtain ⟨hi', hi⟩ := List.getElem?_eq_some_iff.mp hi
  obtain ⟨hj', hj⟩ := List.getElem?_eq_some_iff.mp hj
  rcases Nat.eq_or_lt_of_le hle with heq | hlt
  · subst heq
    exact .inl (hi.symm.trans hj)
  · have hapart := List.pairwise_iff_getElem.mp h.apart i j hi' hj' hlt
    rw [hi, hj] at hapart
    exact .inr hapart

theorem confined_probe (h : SortedRanges rmd.directory) (hpa : Nat) :
    Search.Confined rmd.directory.length (rmd.probe hpa) where
  inside i hi hin := by
    have hlt : i.toNat < rmd.directory.length := by omega
    have hsplit : i = (i.toNat : Int) := by omega
    rw [hsplit, probe_of_getElem? (List.getElem?_eq_getElem hlt)]
    exact nofun
  outside i hi := by
    unfold probe
    split
    · rfl
    · rw [List.getElem?_eq_none (by omega)]
      rfl
  below i j hi hij hjn hlt := by
    obtain ⟨-, first, hfirst, hcompare⟩ := probe_eq_some hlt
    have hj : j.toNat < rmd.directory.length := by omega
    have hsecond := List.getElem?_eq_getElem hj
    have hsplit : j = (j.toNat : Int) := by omega
    rw [hsplit, probe_of_getElem? hsecond]
    congr 1
    rw [NoirRmtDirectoryEntry.compareHpa_eq_lt] at hcompare ⊢
    have hproper := h.proper first (List.mem_of_getElem? hfirst)
    rcases getElem?_le h (by omega) hfirst hsecond with heq | happart
    · rw [← heq]
      exact hcompare
    · omega
  above i j hj hji hin hgt := by
    obtain ⟨-, last, hlast, hcompare⟩ := probe_eq_some hgt
    have hj' : j.toNat < rmd.directory.length := by omega
    have hsecond := List.getElem?_eq_getElem hj'
    have hsplit : j = (j.toNat : Int) := by omega
    have hproperLast := h.proper last (List.mem_of_getElem? hlast)
    have hproper := h.proper _ (List.mem_of_getElem? hsecond)
    rw [hsplit, probe_of_getElem? hsecond]
    congr 1
    rw [NoirRmtDirectoryEntry.compareHpa_eq_gt hproperLast] at hcompare
    rw [NoirRmtDirectoryEntry.compareHpa_eq_gt hproper]
    rcases getElem?_le h (by omega) hsecond hlast with heq | happart
    · rw [heq]
      exact hcompare
    · omega

/-- Some range starts at the address or before it, and some range ends after it. -/
def Spans (rmd : ReverseMappingDirectory) (hpa : Nat) : Prop :=
  (∃ range ∈ rmd.directory, range.hpaStart ≤ hpa) ∧ ∃ range ∈ rmd.directory, hpa < range.hpaEnd

instance : Decidable (rmd.Spans hpa) := inferInstanceAs (Decidable (_ ∧ _))

theorem between_iff_spans (h : SortedRanges rmd.directory) :
    Search.Between rmd.directory.length (rmd.probe hpa) ↔ rmd.Spans hpa := by
  constructor
  · rintro ⟨hpos, hfirst, hlast⟩
    have hzero : 0 < rmd.directory.length := by omega
    have hend : rmd.directory.length - 1 < rmd.directory.length := by omega
    have hfirstEntry := List.getElem?_eq_getElem hzero
    have hlastEntry := List.getElem?_eq_getElem hend
    refine ⟨⟨_, List.mem_of_getElem? hfirstEntry, ?_⟩, _, List.mem_of_getElem? hlastEntry, ?_⟩
    · by_contra hbelow
      apply hfirst
      have hprobe : rmd.probe hpa 0 = _ := probe_of_getElem? hfirstEntry
      rw [hprobe, NoirRmtDirectoryEntry.compareHpa_eq_lt.mpr (by omega)]
    · by_contra habove
      apply hlast
      have hsplit : (rmd.directory.length : Int) - 1 =
          ((rmd.directory.length - 1 : Nat) : Int) := by omega
      have hproper := h.proper _ (List.mem_of_getElem? hlastEntry)
      rw [hsplit, probe_of_getElem? hlastEntry,
        (NoirRmtDirectoryEntry.compareHpa_eq_gt hproper).mpr (by omega)]
  · rintro ⟨⟨low, hlowMem, hlow⟩, high, hhighMem, hhigh⟩
    obtain ⟨i, hi⟩ := List.getElem?_of_mem hlowMem
    obtain ⟨j, hj⟩ := List.getElem?_of_mem hhighMem
    have hin := (List.getElem?_eq_some_iff.mp hi).1
    have hjn := (List.getElem?_eq_some_iff.mp hj).1
    refine ⟨by omega, fun hfirst => ?_, fun hlast => ?_⟩
    · obtain ⟨-, first, hentry, hcompare⟩ := probe_eq_some hfirst
      rw [NoirRmtDirectoryEntry.compareHpa_eq_lt] at hcompare
      have hproper := h.proper first (List.mem_of_getElem? hentry)
      rcases getElem?_le h (Nat.zero_le i) hentry hi with heq | happart
      · subst heq
        omega
      · omega
    · obtain ⟨-, last, hentry, hcompare⟩ := probe_eq_some hlast
      have hproper := h.proper last (List.mem_of_getElem? hentry)
      rw [NoirRmtDirectoryEntry.compareHpa_eq_gt hproper] at hcompare
      rcases getElem?_le h (by omega) hj hentry with heq | happart
      · subst heq
        omega
      · omega

/-- No range but the one found contains the address. -/
theorem element_of_compareHpa {i : Nat} {range : NoirRmtDirectoryEntry}
    (h : SortedRanges rmd.directory) (hi : rmd.directory[i]? = some range)
    (hcontains : range.Contains hpa) : rmd.element hpa = some (rmd.placeIn hpa i) := by
  obtain ⟨hin, hget⟩ := List.getElem?_eq_some_iff.mp hi
  have hfind : rmd.directory.findIdx? (fun range => range.Contains hpa) = some i := by
    rw [List.findIdx?_eq_some_iff_getElem]
    refine ⟨hin, by rw [hget]; exact decide_eq_true hcontains, fun j hji hj => ?_⟩
    have hcontains' := of_decide_eq_true hj
    have happart := List.pairwise_iff_getElem.mp h.apart j i (Nat.lt_trans hji hin) hin hji
    rw [hget] at happart
    have hstart := hcontains.1
    have hend := hcontains'.2
    omega
  rw [element, hfind]
  rfl

theorem element_of_none (h : ∀ range ∈ rmd.directory, ¬range.Contains hpa) :
    rmd.element hpa = none := by
  rw [element, List.findIdx?_eq_none_iff.mpr fun range hrange => decide_eq_false (h range hrange)]
  rfl

theorem u64_eq {x : Int} (h : 0 ≤ x) (hlt : x < 2 ^ 64) : u64 x = x := by
  unfold u64
  omega

theorem locateInUse_eq (h : SortedRanges rmd.directory) (hspans : rmd.Spans hpa) :
    rmd.locateInUse hpa = .ok (rmd.element hpa) := by
  have hfits := h.fits
  have hbetween := (between_iff_spans h).mpr hspans
  have hbounds : Search.Bounds rmd.directory.length (rmd.probe hpa) 0 rmd.directory.length :=
    ⟨by omega, by omega, fun i hi hlt => absurd hlt (by omega),
      fun i hlt _ hin => absurd hin (by omega)⟩
  have hwrap : ∀ x, 0 ≤ x → x ≤ 2 * (rmd.directory.length : Int) + 1 → u64 x = x :=
    fun x hx hle => u64_eq hx (by omega)
  have hfuel : (rmd.directory.length : Int) - 0 + 2 ≤ (2 + rmd.directory.length : Nat) := by omega
  have hspec := Search.loop_between (confined_probe h hpa) hbetween hwrap hbounds hfuel (by omega)
  rcases hspec with ⟨i, hfound, hi, hin, hprobe⟩ | ⟨habsent, hnone⟩
  · obtain ⟨-, range, hentry, hcompare⟩ := probe_eq_some hprobe
    have hcontains := NoirRmtDirectoryEntry.compareHpa_eq_eq.mp hcompare
    have hsearch : rmd.searchInUse hpa = .found i := hfound
    rw [locateInUse, hsearch, element_of_compareHpa h hentry hcontains]
  · have hsearch : rmd.searchInUse hpa = .absent := habsent
    rw [locateInUse, hsearch, element_of_none fun range hrange hcontains => ?_]
    obtain ⟨i, hi⟩ := List.getElem?_of_mem hrange
    have hin := (List.getElem?_eq_some_iff.mp hi).1
    apply hnone i (by omega) (by omega)
    rw [probe_of_getElem? hi, NoirRmtDirectoryEntry.compareHpa_eq_eq.mpr hcontains]

theorem spans_of_locateInUse (h : SortedRanges rmd.directory)
    (hlocate : rmd.locateInUse hpa = .ok (rmd.element hpa)) : rmd.Spans hpa := by
  have hfits := h.fits
  have hwrap : ∀ x, 0 ≤ x → x ≤ 2 * (rmd.directory.length : Int) + 1 → u64 x = x :=
    fun x hx hle => u64_eq hx (by omega)
  have hfar : (rmd.directory.length : Int) ≤ u64 (u64 (-1)) / 2 ∧ 0 ≤ u64 (-1) := by
    unfold u64
    omega
  have hfuel : (rmd.directory.length : Int) + 2 ≤ (2 + rmd.directory.length : Nat) := by omega
  apply (between_iff_spans h).mp
  apply (Search.loop_ne_outside_iff (confined_probe h hpa) (by omega) hwrap hfar hfuel).mp
  intro houtside
  have hsearch : rmd.searchInUse hpa = .outside := houtside
  rw [locateInUse, hsearch] at hlocate
  cases hlocate

/-- The bound that wrapped leads out of the directory. -/
theorem loop_wrapped (hpa : Nat) (hlength : rmd.directory.length ≤ capacity) (fuel : Nat) :
    Search.loop u64 (rmd.probe hpa) fuel 0 (u64 (-1)) = .outside ∨
      Search.loop u64 (rmd.probe hpa) fuel 0 (u64 (-1)) = .running := by
  cases fuel with
  | zero => exact .inr rfl
  | succ fuel =>
    have hlast : u64 (-1) = 2 ^ 64 - 1 := by decide
    have hmid : u64 (0 + (2 ^ 64 - 1)) / 2 = 2 ^ 63 - 1 := by decide
    have hnone : rmd.probe hpa (2 ^ 63 - 1) = none := by
      have hcapacity : capacity < 2 ^ 32 := by decide
      have hnat : ¬(2 ^ 63 - 1 : Int) < 0 := by decide
      have hfar : rmd.directory[(2 ^ 63 - 1 : Int).toNat]? = none :=
        List.getElem?_eq_none (by omega)
      rw [probe, if_neg hnat, hfar]
      rfl
    have hgo : ¬(2 ^ 64 - 1 : Int) < 0 := by decide
    left
    rw [hlast]
    unfold Search.loop
    rw [if_neg hgo, hmid]
    dsimp only
    rw [hnone]

/-- In a directory of one page, the model with its zeros after the entries in use finds the same. -/
theorem search_of_loop (hpa fuel : Nat) (hlength : rmd.directory.length ≤ capacity)
    (hwhole : ∀ range ∈ rmd.directory, page4kbSize ∣ range.hpaEnd - range.hpaStart)
    {lo hi : Nat} (hhi : hi ≤ rmd.directory.length) (hlo : lo ≤ rmd.directory.length + 1) :
    (∀ mid, Search.loop u64 (rmd.probe hpa) fuel lo hi = .found mid →
      rmd.search hpa fuel lo hi = .ok (some (rmd.placeIn hpa mid.toNat))) ∧
    (Search.loop u64 (rmd.probe hpa) fuel lo hi = .absent →
      rmd.search hpa fuel lo hi = .ok none) := by
  induction fuel generalizing lo hi with
  | zero => exact ⟨by rintro _ ⟨⟩, by rintro ⟨⟩⟩
  | succ fuel ih =>
    have hcapacity : capacity < 2 ^ 32 := by decide
    have hsum : u64 ((lo : Int) + hi) = ((hi + lo : Nat) : Int) := by
      rw [u64_eq (by omega) (by omega)]
      omega
    have hmid : u64 ((lo : Int) + hi) / 2 = (((hi + lo) / 2 : Nat) : Int) := by
      rw [hsum]
      omega
    unfold Search.loop search
    by_cases hend : hi < lo
    · have hend' : (hi : Int) < lo := by omega
      rw [if_pos hend, if_pos hend']
      exact ⟨by rintro _ ⟨⟩, fun _ => rfl⟩
    · have hend' : ¬(hi : Int) < lo := by omega
      rw [if_neg hend, if_neg hend']
      dsimp only
      rw [hmid]
      cases hentry : rmd.directory[(hi + lo) / 2]? with
      | none =>
        have hnat : ¬(((hi + lo) / 2 : Nat) : Int) < 0 := by omega
        have hprobe : rmd.probe hpa (((hi + lo) / 2 : Nat) : Int) = none := by
          rw [probe, if_neg hnat, Int.toNat_natCast, hentry]
          rfl
        rw [hprobe]
        exact ⟨by rintro _ ⟨⟩, by rintro ⟨⟩⟩
      | some range =>
        have hin := (List.getElem?_eq_some_iff.mp hentry).1
        have hread : rmd.read ((hi + lo) / 2) = .ok range := by
          rw [read, if_pos (by omega), List.getD_eq_getElem?_getD, hentry]
          rfl
        rw [probe_of_getElem? hentry, hread, Outcome.ok_bind]
        by_cases hbelow : hpa < range.hpaStart
        · rw [NoirRmtDirectoryEntry.compareHpa_eq_lt.mpr hbelow, if_pos hbelow]
          dsimp only
          by_cases hzero : (hi + lo) / 2 = 0
          · have hwrapped : u64 ((((hi + lo) / 2 : Nat) : Int) - 1) = u64 (-1) := by
              rw [hzero]
              rfl
            have hlow : lo = 0 := by omega
            subst hlow
            rw [hwrapped]
            rcases loop_wrapped hpa hlength fuel with houtside | hrunning
            · refine ⟨fun mid h => ?_, fun h => ?_⟩ <;> cases houtside.symm.trans h
            · refine ⟨fun mid h => ?_, fun h => ?_⟩ <;> cases hrunning.symm.trans h
          · have hnext : u64 ((((hi + lo) / 2 : Nat) : Int) - 1) =
                (((hi + lo) / 2 - 1 : Nat) : Int) := by
              rw [u64_eq (by omega) (by omega)]
              omega
            rw [hnext, if_neg hzero]
            exact ih (by omega) hlo
        · rw [if_neg hbelow]
          by_cases habove : range.hpaEnd ≤ hpa
          · have hcompare : range.compareHpa hpa = .gt := by
              rw [NoirRmtDirectoryEntry.compareHpa, if_neg hbelow, if_pos habove]
            have hnext : u64 ((((hi + lo) / 2 : Nat) : Int) + 1) =
                (((hi + lo) / 2 + 1 : Nat) : Int) := by
              rw [u64_eq (by omega) (by omega)]
              omega
            rw [hcompare, if_pos habove]
            dsimp only
            rw [hnext]
            exact ih hhi (by omega)
          · have hcompare : range.compareHpa hpa = .eq := by
              rw [NoirRmtDirectoryEntry.compareHpa, if_neg hbelow, if_neg habove]
            have hpage : page4kbCount (hpa - range.hpaStart) <
                page4kbCount (range.hpaEnd - range.hpaStart) := by
              obtain ⟨pages, hpages⟩ := hwhole range (List.mem_of_getElem? hentry)
              unfold page4kbCount
              unfold page4kbSize at hpages
              omega
            rw [hcompare, if_neg habove]
            dsimp only
            rw [if_pos hpage]
            refine ⟨fun mid hmid => ?_, by rintro ⟨⟩⟩
            cases hmid
            rw [Int.toNat_natCast, placeIn, List.getD_eq_getElem?_getD, hentry]
            rfl

theorem locate_of_locateInUse (hlength : rmd.directory.length ≤ capacity)
    (hwhole : ∀ range ∈ rmd.directory, page4kbSize ∣ range.hpaEnd - range.hpaStart)
    {place : Option (Nat × Nat)} (h : rmd.locateInUse hpa = .ok place) :
    rmd.locate hpa = .ok place := by
  have hfuel : rmd.directory.length + 2 = 2 + rmd.directory.length := Nat.add_comm _ _
  have hsearch := search_of_loop hpa (2 + rmd.directory.length) hlength hwhole (Nat.le_refl _)
    (Nat.zero_le _)
  rw [locate, hfuel]
  unfold locateInUse at h
  cases houtcome : rmd.searchInUse hpa with
  | found mid =>
    rw [houtcome] at h
    exact (hsearch.1 mid houtcome).trans h
  | absent =>
    rw [houtcome] at h
    exact (hsearch.2 houtcome).trans h
  | outside =>
    rw [houtcome] at h
    cases h
  | running =>
    rw [houtcome] at h
    cases h

/-- What the three functions do with an element, or without one. -/
structure ActsOn (rmd : ReverseMappingDirectory) (hpa : Nat) (place : Option (Nat × Nat)) :
    Prop where
  get : nvcGetRmtEntry rmd hpa = .ok (place.map rmd.entry)
  configure : ∀ gpa asid shared ownership,
    nvcConfigureReverseMapping rmd hpa gpa asid shared ownership =
      .ok { rmd with
        entry := place.elim rmd.entry fun place =>
          Function.update rmd.entry place (configuredEntry gpa asid shared ownership) }
  validate : ∀ shared ownership, ∃ granted,
    nvcValidateSingleRmtReassignment rmd hpa shared ownership = .ok granted ∧
      (granted = true ↔ ∃ p, place = some p ∧ Reassignable rmd p shared ownership)

theorem nvcValidateSingleRmtReassignment_returns {place : Option (Nat × Nat)}
    (h : rmd.locate hpa = .ok place) (shared : Bool) (ownership : UInt8) :
    ∃ granted, nvcValidateSingleRmtReassignment rmd hpa shared ownership = .ok granted := by
  unfold nvcValidateSingleRmtReassignment
  rw [h, Outcome.ok_bind]
  cases place with
  | none => exact ⟨false, rfl⟩
  | some place =>
    dsimp only
    split
    · exact ⟨false, rfl⟩
    · split
      · exact ⟨false, rfl⟩
      · split
        · exact ⟨false, rfl⟩
        · exact ⟨true, rfl⟩

theorem actsOn_of_locate {place : Option (Nat × Nat)} (h : rmd.locate hpa = .ok place) :
    ActsOn rmd hpa place := by
  refine ⟨?_, fun gpa asid shared ownership => ?_, fun shared ownership => ?_⟩
  · unfold nvcGetRmtEntry
    rw [h, Outcome.ok_bind]
    cases place <;> rfl
  · unfold nvcConfigureReverseMapping
    rw [h, Outcome.ok_bind]
    cases place <;> rfl
  · obtain ⟨granted, hgranted⟩ := nvcValidateSingleRmtReassignment_returns h shared ownership
    refine ⟨granted, hgranted, fun htrue => ?_, ?_⟩
    · subst htrue
      obtain ⟨p, hp, hvalid⟩ := nvcValidateSingleRmtReassignment_ok hgranted
      exact ⟨p, Except.ok.inj (h.symm.trans hp), hvalid⟩
    · rintro ⟨p, rfl, hvalid⟩
      have htrue := nvcValidateSingleRmtReassignment_of_reassignable h hvalid
      exact Except.ok.inj (hgranted.symm.trans htrue)

/-- The loop ends on entries in use with the element for the page, or without one if there is none;
in a directory of one page, with tables for whole pages, all three functions act on it. -/
structure LooksUp (rmd : ReverseMappingDirectory) (hpa : Nat) : Prop where
  locate : rmd.locateInUse hpa = .ok (rmd.element hpa)
  acts : rmd.directory.length ≤ capacity →
    (∀ range ∈ rmd.directory, page4kbSize ∣ range.hpaEnd - range.hpaStart) →
      ActsOn rmd hpa (rmd.element hpa)

/-- An address before all ranges or after them, and every address when there are none, leads the
loop out of the entries in use. -/
theorem looksUp_iff (rmd : ReverseMappingDirectory) (hpa : Nat) (h : SortedRanges rmd.directory) :
    LooksUp rmd hpa ↔ rmd.Spans hpa := by
  constructor
  · exact fun hlooks => spans_of_locateInUse h hlooks.locate
  · intro hspans
    have hlocate := locateInUse_eq h hspans
    exact ⟨hlocate, fun hlength hwhole =>
      actsOn_of_locate (locate_of_locateInUse hlength hwhole hlocate)⟩

/-- Two ranges with a hole between them. -/
def twoRanges : ReverseMappingDirectory where
  directory := [⟨0, 0x1000, 0x3000⟩, ⟨0x100, 0x5000, 0x8000⟩]
  entry _ := {}

theorem twoRanges_looksUp : LooksUp twoRanges 0x2000 :=
  (looksUp_iff twoRanges 0x2000 ⟨by decide, by decide, by decide⟩).mpr (by decide)

theorem sortedRanges_nil : SortedRanges [] :=
  ⟨List.Pairwise.nil, fun _ h => absurd h List.not_mem_nil, by decide⟩

theorem not_forall_looksUp :
    ¬∀ (rmd : ReverseMappingDirectory) (hpa : Nat), SortedRanges rmd.directory →
      LooksUp rmd hpa := by
  intro h
  have hempty : LooksUp ⟨[], fun _ => {}⟩ 0 := h _ 0 sortedRanges_nil
  obtain ⟨⟨range, hrange, -⟩, -⟩ := spans_of_locateInUse sortedRanges_nil hempty.locate
  cases hrange

end ReverseMappingDirectory

end NoirVisor
