import NoirVisor.Intervals
import NoirVisor.Platform
import Mathlib.Data.List.Sort

/-!
# Ranges of physical memory

The memory map of the firmware is reported as ranges of memory that is general-purpose
(`xpf_core/uefi/host.c`). Descriptors are taken out of the map, sorted and merged in a pool of their own.
-/

namespace NoirVisor

inductive EfiMemoryType where
  | reservedMemoryType
  | loaderCode
  | loaderData
  | bootServicesCode
  | bootServicesData
  | runtimeServicesCode
  | runtimeServicesData
  | conventionalMemory
  | unusableMemory
  | acpiReclaimMemory
  | acpiMemoryNvs
  | memoryMappedIo
  | memoryMappedIoPortSpace
  | palCode
  | persistentMemory
  | other (type : Nat)
deriving DecidableEq

structure EfiMemoryDescriptor where
  type : EfiMemoryType
  physicalStart : Nat
  numberOfPages : Nat
deriving DecidableEq

structure MemoryRange where
  baseAddress : Nat
  rangeSize : Nat
deriving DecidableEq

inductive PoolBuffer where
  | memoryDescriptor
  | memoryRanges
deriving DecidableEq

/-- What the firmware and its library do, and what is in the pools before they are written to. -/
structure Firmware where
  bufferTooSmall : Bool
  descriptorPool : Bool
  rangePool : Bool
  memoryMap : Option (List EfiMemoryDescriptor)
  quickSort : List MemoryRange → List MemoryRange
  staleDescriptor : EfiMemoryDescriptor
  staleRange : MemoryRange

/-- The ranges that the callback is called with, and the pointers that are freed. -/
structure Enumeration where
  reported : List MemoryRange
  allocated : List PoolBuffer
  freed : List (Option PoolBuffer)

namespace EfiMemoryDescriptor

/-- The cases of the switch. -/
def usable (d : EfiMemoryDescriptor) : Bool :=
  match d.type with
  | .loaderCode => true
  | .loaderData => true
  | .bootServicesCode => true
  | .bootServicesData => true
  | .runtimeServicesCode => true
  | .runtimeServicesData => true
  | .conventionalMemory => true
  | .acpiReclaimMemory => true
  | _ => false

def range (d : EfiMemoryDescriptor) : MemoryRange :=
  ⟨d.physicalStart, d.numberOfPages * 2 ^ 12 % 2 ^ 64⟩

def Contains (d : EfiMemoryDescriptor) (address : Nat) : Prop :=
  d.physicalStart ≤ address ∧ address < d.physicalStart + d.numberOfPages * 2 ^ 12

/-- A region has pages, and lies in the address space of a processor. -/
def Wf (d : EfiMemoryDescriptor) : Prop :=
  0 < d.numberOfPages ∧ d.physicalStart + d.numberOfPages * 2 ^ 12 < 2 ^ 64

end EfiMemoryDescriptor

namespace MemoryRange

def last (r : MemoryRange) : Nat := (r.baseAddress + r.rangeSize) % 2 ^ 64

def Contains (r : MemoryRange) (address : Nat) : Prop :=
  r.baseAddress ≤ address ∧ address < r.baseAddress + r.rangeSize

/-- The loop over the ranges after the first one. The ranges are merged in place. -/
def merge : MemoryRange → List MemoryRange → List MemoryRange
  | a, [] => [a]
  | a, b :: rest =>
      if b.baseAddress ≤ a.last ∧ a.last ≤ b.last then
        merge { a with rangeSize := (b.last + 2 ^ 64 - a.baseAddress) % 2 ^ 64 } rest
      else a :: merge b rest

def interval (r : MemoryRange) : Intervals.Interval Nat :=
  ⟨r.baseAddress, r.baseAddress + r.rangeSize⟩

end MemoryRange

namespace Firmware

variable (firmware : Firmware)

/-- The first entry is looked at in any case. -/
def entries (memoryMap : List EfiMemoryDescriptor) : List EfiMemoryDescriptor :=
  if memoryMap = [] then [firmware.staleDescriptor] else memoryMap

def ranges (descriptors : List EfiMemoryDescriptor) : List MemoryRange :=
  (descriptors.filter (·.usable)).map (·.range)

/-- The first range is reported in any case. -/
def merged : List MemoryRange → List MemoryRange
  | [] => [firmware.staleRange]
  | a :: rest => a.merge rest

def reported (memoryMap : List EfiMemoryDescriptor) : List MemoryRange :=
  firmware.merged (firmware.quickSort (ranges (firmware.entries memoryMap)))

def noirEnumPhysicalMemoryRanges : Enumeration :=
  if firmware.bufferTooSmall then
    let memoryDescriptor := if firmware.descriptorPool then some PoolBuffer.memoryDescriptor else none
    let memoryRanges := if firmware.rangePool then some PoolBuffer.memoryRanges else none
    let allocated := memoryDescriptor.toList ++ memoryRanges.toList
    if memoryDescriptor = none ∨ memoryRanges = none then
      { reported := []
        allocated
        freed := (if memoryDescriptor ≠ none then [memoryDescriptor] else []) ++
          if memoryRanges ≠ none then [memoryDescriptor] else [] }
    else
      { reported := firmware.memoryMap.elim [] firmware.reported
        allocated
        freed := [memoryDescriptor, memoryRanges] }
  else
    { reported := []
      allocated := []
      freed := [] }

/-- The map that is got hold of. -/
def obtained : Option (List EfiMemoryDescriptor) :=
  if firmware.bufferTooSmall && firmware.descriptorPool && firmware.rangePool then firmware.memoryMap
  else none

structure Enumerated (memoryMap : List EfiMemoryDescriptor) (reported : List MemoryRange) : Prop where
  positive : ∀ r ∈ reported, 0 < r.rangeSize
  apart : reported.Pairwise fun a b => a.baseAddress + a.rangeSize < b.baseAddress
  union : ∀ address, (∃ r ∈ reported, r.Contains address) ↔
    ∃ d ∈ memoryMap, d.usable = true ∧ d.Contains address

/-- What is allocated is freed once, and the ranges are those of the map if there is one. -/
structure Enumerates : Prop where
  freed : firmware.noirEnumPhysicalMemoryRanges.freed.Perm
    (firmware.noirEnumPhysicalMemoryRanges.allocated.map some)
  reported : match firmware.obtained with
    | none => firmware.noirEnumPhysicalMemoryRanges.reported = []
    | some memoryMap => Enumerated memoryMap firmware.noirEnumPhysicalMemoryRanges.reported

/-- The first pool is there if the second one is. Some descriptor is usable, and in the order that they are
sorted in none of them ends before one that precedes it. -/
structure Mergeable : Prop where
  pools : firmware.bufferTooSmall = true → firmware.rangePool = true → firmware.descriptorPool = true
  usable : ∀ memoryMap, firmware.obtained = some memoryMap → ∃ d ∈ memoryMap, d.usable = true
  ends : ∀ memoryMap, firmware.obtained = some memoryMap →
    (firmware.quickSort (ranges memoryMap)).Pairwise fun a b =>
      a.baseAddress + a.rangeSize ≤ b.baseAddress + b.rangeSize

/-- The map is well-formed, and is sorted by `QuickSort`. -/
structure Wf : Prop where
  sorts : ∀ l, (firmware.quickSort l).Perm l ∧
    (firmware.quickSort l).Pairwise fun a b => a.baseAddress ≤ b.baseAddress
  map : ∀ memoryMap, firmware.memoryMap = some memoryMap →
    ∀ d ∈ memoryMap, d.usable = true → d.Wf

variable {firmware} {memoryMap : List EfiMemoryDescriptor} {a b r : MemoryRange}
  {rest reported : List MemoryRange}

theorem interval_merge (ha : a.baseAddress + a.rangeSize < 2 ^ 64)
    (hrest : ∀ r ∈ rest, r.baseAddress + r.rangeSize < 2 ^ 64) :
    (a.merge rest).map (·.interval) =
      Intervals.coalesce a.interval (rest.map (·.interval)) := by
  induction rest generalizing a with
  | nil => rfl
  | cons b rest ih =>
      obtain ⟨hb, hrest⟩ := List.forall_mem_cons.mp hrest
      have hlast : a.last = a.baseAddress + a.rangeSize := Nat.mod_eq_of_lt ha
      have hlast' : b.last = b.baseAddress + b.rangeSize := Nat.mod_eq_of_lt hb
      rw [List.map_cons, MemoryRange.merge, Intervals.coalesce, hlast, hlast']
      by_cases htouch : b.baseAddress ≤ a.baseAddress + a.rangeSize ∧
          a.baseAddress + a.rangeSize ≤ b.baseAddress + b.rangeSize
      · have hsize : (b.baseAddress + b.rangeSize + 2 ^ 64 - a.baseAddress) % 2 ^ 64 =
            b.baseAddress + b.rangeSize - a.baseAddress := by omega
        have hend : a.baseAddress + (b.baseAddress + b.rangeSize - a.baseAddress) =
            b.baseAddress + b.rangeSize := by omega
        rw [if_pos htouch, hsize, ih (by dsimp only; omega) hrest]
        refine Eq.trans ?_ (if_pos htouch).symm
        unfold MemoryRange.interval
        dsimp only
        rw [hend]
      · rw [if_neg htouch, List.map_cons, ih hb hrest]
        exact (if_neg htouch).symm

theorem covers_interval {l : List MemoryRange} {address : Nat} :
    Intervals.Covers (l.map (·.interval)) address ↔ ∃ r ∈ l, r.Contains address := by
  constructor
  · rintro ⟨i, hi, hcontains⟩
    obtain ⟨r, hr, rfl⟩ := List.mem_map.mp hi
    exact ⟨r, hr, hcontains⟩
  · rintro ⟨r, hr, hcontains⟩
    exact ⟨r.interval, List.mem_map_of_mem hr, hcontains⟩

/-- What is found in a list of ranges that is sorted by `QuickSort`. -/
theorem merge_spec (hsorted : (a :: rest).Pairwise fun a b => a.baseAddress ≤ b.baseAddress)
    (hfits : ∀ r ∈ a :: rest, 0 < r.rangeSize ∧ r.baseAddress + r.rangeSize < 2 ^ 64) :
    (∀ r ∈ a.merge rest, 0 < r.rangeSize) ∧
    (∀ address, (∃ r ∈ a.merge rest, r.Contains address) ↔ ∃ r ∈ a :: rest, r.Contains address) ∧
    ((a.merge rest).Pairwise (fun a b => a.baseAddress + a.rangeSize < b.baseAddress) ↔
      (a :: rest).Pairwise fun a b =>
        a.baseAddress + a.rangeSize ≤ b.baseAddress + b.rangeSize) := by
  obtain ⟨ha, hrest⟩ := List.forall_mem_cons.mp hfits
  have hmerge := interval_merge ha.2 fun r hr => (hrest r hr).2
  have hsorted' : Intervals.Sorted (a.interval :: rest.map (·.interval)) := by
    rw [← List.map_cons]
    unfold Intervals.Sorted
    rw [List.pairwise_map]
    exact hsorted
  have hpos : Intervals.Positive (a.interval :: rest.map (·.interval)) := by
    intro i hi
    rw [← List.map_cons] at hi
    obtain ⟨r, hr, rfl⟩ := List.mem_map.mp hi
    have hsize := (hfits r hr).1
    change r.baseAddress < r.baseAddress + r.rangeSize
    omega
  refine ⟨fun r hr => ?_, fun address => ?_, ?_⟩
  · have hpositive := Intervals.coalesce_positive hpos
    rw [← hmerge] at hpositive
    have hlt : r.baseAddress < r.baseAddress + r.rangeSize := hpositive _ (List.mem_map_of_mem hr)
    omega
  · rw [← covers_interval, hmerge, Intervals.covers_coalesce hsorted' hpos, ← List.map_cons,
      covers_interval]
  · have hapart := Intervals.coalesce_apart_iff hsorted' hpos
    rw [← hmerge, ← List.map_cons] at hapart
    unfold Intervals.Apart Intervals.EndsSorted at hapart
    rw [List.pairwise_map, List.pairwise_map] at hapart
    exact hapart

theorem range_contains {d : EfiMemoryDescriptor} (hd : d.Wf) (address : Nat) :
    d.range.Contains address ↔ d.Contains address := by
  have hsize : d.range.rangeSize = d.numberOfPages * 2 ^ 12 :=
    Nat.mod_eq_of_lt (by have := hd.2; omega)
  unfold MemoryRange.Contains EfiMemoryDescriptor.Contains
  rw [hsize]
  rfl

theorem mem_ranges : r ∈ ranges memoryMap ↔ ∃ d ∈ memoryMap, d.usable = true ∧ d.range = r := by
  unfold ranges
  rw [List.mem_map]
  constructor
  · rintro ⟨d, hd, rfl⟩
    obtain ⟨hmem, husable⟩ := List.mem_filter.mp hd
    exact ⟨d, hmem, husable, rfl⟩
  · rintro ⟨d, hmem, husable, rfl⟩
    exact ⟨d, List.mem_filter.mpr ⟨hmem, husable⟩, rfl⟩

/-- A range is reported in any case. -/
theorem merged_ne_nil (ranges : List MemoryRange) : firmware.merged ranges ≠ [] := by
  cases ranges with
  | nil => exact List.cons_ne_nil _ _
  | cons a rest =>
      change a.merge rest ≠ []
      induction rest generalizing a with
      | nil => exact List.cons_ne_nil _ _
      | cons b rest ih =>
          unfold MemoryRange.merge
          split
          · exact ih _
          · exact List.cons_ne_nil _ _

/-- There is something usable where something is reported. -/
theorem Enumerated.usable (h : Enumerated memoryMap reported) (hne : reported ≠ []) :
    ∃ d ∈ memoryMap, d.usable = true := by
  obtain ⟨r, hr⟩ := List.exists_mem_of_ne_nil reported hne
  have hsize := h.positive r hr
  obtain ⟨d, hd, husable, -⟩ := (h.union r.baseAddress).mp ⟨r, hr, ⟨Nat.le_refl _, by omega⟩⟩
  exact ⟨d, hd, husable⟩

/-- For a map with something usable. -/
theorem enumerated_iff (hwf : firmware.Wf) (hmap : firmware.memoryMap = some memoryMap)
    (husable : ∃ d ∈ memoryMap, d.usable = true) :
    Enumerated memoryMap (firmware.reported memoryMap) ↔
      (firmware.quickSort (ranges memoryMap)).Pairwise fun a b =>
        a.baseAddress + a.rangeSize ≤ b.baseAddress + b.rangeSize := by
  obtain ⟨d, hd, hdu⟩ := husable
  have hentries : firmware.entries memoryMap = memoryMap := if_neg (List.ne_nil_of_mem hd)
  obtain ⟨hperm, hsorted⟩ := hwf.sorts (ranges memoryMap)
  unfold reported
  rw [hentries]
  cases hquick : firmware.quickSort (ranges memoryMap) with
  | nil =>
      rw [hquick] at hperm
      have hnone := hperm.symm.eq_nil
      have hmem := mem_ranges.mpr ⟨d, hd, hdu, rfl⟩
      rw [hnone] at hmem
      exact absurd hmem List.not_mem_nil
  | cons a rest =>
      rw [hquick] at hperm hsorted
      have hfits : ∀ r ∈ a :: rest, 0 < r.rangeSize ∧ r.baseAddress + r.rangeSize < 2 ^ 64 := by
        intro r hr
        obtain ⟨e, he, heu, rfl⟩ := mem_ranges.mp (hperm.mem_iff.mp hr)
        obtain ⟨hpages, hend⟩ := hwf.map memoryMap hmap e he heu
        have hsize : e.range.rangeSize = e.numberOfPages * 2 ^ 12 := Nat.mod_eq_of_lt (by omega)
        rw [hsize]
        exact ⟨by omega, hend⟩
      obtain ⟨hpositive, hunion, hapart⟩ := merge_spec hsorted hfits
      refine ⟨fun h => hapart.mp h.apart, fun hends => ⟨hpositive, hapart.mpr hends, fun address => ?_⟩⟩
      refine (hunion address).trans ?_
      constructor
      · rintro ⟨r, hr, hcontains⟩
        obtain ⟨e, he, heu, rfl⟩ := mem_ranges.mp (hperm.mem_iff.mp hr)
        exact ⟨e, he, heu, (range_contains (hwf.map memoryMap hmap e he heu) address).mp hcontains⟩
      · rintro ⟨e, he, heu, hcontains⟩
        refine ⟨e.range, hperm.mem_iff.mpr (mem_ranges.mpr ⟨e, he, heu, rfl⟩), ?_⟩
        exact (range_contains (hwf.map memoryMap hmap e he heu) address).mpr hcontains

/-- The pool of the ranges is not freed where that of the descriptors is not there, but the null pointer
is. -/
theorem freed_perm_iff : firmware.noirEnumPhysicalMemoryRanges.freed.Perm
      (firmware.noirEnumPhysicalMemoryRanges.allocated.map some) ↔
    (firmware.bufferTooSmall = true → firmware.rangePool = true → firmware.descriptorPool = true) := by
  obtain ⟨bufferTooSmall, descriptorPool, rangePool, memoryMap, _, _, _⟩ := firmware
  cases bufferTooSmall with
  | false => exact iff_of_true (List.Perm.refl []) nofun
  | true =>
      cases descriptorPool with
      | true =>
          refine iff_of_true ?_ fun _ _ => rfl
          cases rangePool <;> exact List.Perm.refl _
      | false =>
          cases rangePool with
          | false => exact iff_of_true (List.Perm.refl []) fun _ h => (nomatch h)
          | true =>
              have hleak : ¬[none].Perm [some PoolBuffer.memoryRanges] := by decide
              exact iff_of_false hleak fun h => (nomatch h rfl rfl)

theorem reported_of_obtained (h : firmware.obtained = some memoryMap) :
    firmware.memoryMap = some memoryMap ∧
      firmware.noirEnumPhysicalMemoryRanges.reported = firmware.reported memoryMap := by
  unfold obtained at h
  split at h
  · next hpools =>
    obtain ⟨⟨hsmall, hdescriptor⟩, hrange⟩ : (firmware.bufferTooSmall = true ∧
        firmware.descriptorPool = true) ∧ firmware.rangePool = true := by
      simpa only [Bool.and_eq_true] using hpools
    refine ⟨h, ?_⟩
    unfold noirEnumPhysicalMemoryRanges
    rw [if_pos hsmall, hdescriptor, hrange, h]
    rfl
  · cases h

theorem reported_of_not_obtained (h : firmware.obtained = none) :
    firmware.noirEnumPhysicalMemoryRanges.reported = [] := by
  obtain ⟨bufferTooSmall, descriptorPool, rangePool, memoryMap, _, _, _⟩ := firmware
  cases bufferTooSmall <;> cases descriptorPool <;> cases rangePool <;> try rfl
  obtain rfl : memoryMap = none := h
  rfl

theorem mergeable_of_enumerates (hwf : firmware.Wf) (h : firmware.Enumerates) : firmware.Mergeable := by
  cases hobtained : firmware.obtained with
  | none =>
      refine ⟨freed_perm_iff.mp h.freed, fun memoryMap hmap => ?_, fun memoryMap hmap => ?_⟩
      · exact nomatch hobtained.symm.trans hmap
      · exact nomatch hobtained.symm.trans hmap
  | some memoryMap =>
      obtain ⟨hmap, hreported⟩ := reported_of_obtained hobtained
      obtain ⟨hfreed, hranges⟩ := h
      rw [hobtained] at hranges
      dsimp only at hranges
      rw [hreported] at hranges
      have husable := hranges.usable (merged_ne_nil _)
      refine ⟨freed_perm_iff.mp hfreed, fun memoryMap' hmap' => ?_, fun memoryMap' hmap' => ?_⟩
      · obtain rfl := Option.some.inj (hobtained.symm.trans hmap')
        exact husable
      · obtain rfl := Option.some.inj (hobtained.symm.trans hmap')
        exact (enumerated_iff hwf hmap husable).mp hranges

theorem enumerates_of_mergeable (hwf : firmware.Wf) (h : firmware.Mergeable) : firmware.Enumerates := by
  refine ⟨freed_perm_iff.mpr h.pools, ?_⟩
  cases hobtained : firmware.obtained with
  | none => exact reported_of_not_obtained hobtained
  | some memoryMap =>
      obtain ⟨hmap, hreported⟩ := reported_of_obtained hobtained
      dsimp only
      rw [hreported]
      exact (enumerated_iff hwf hmap (h.usable memoryMap hobtained)).mpr (h.ends memoryMap hobtained)

/-- For everything that the firmware may answer. -/
theorem enumerates_ranges_iff (firmware : Firmware) (hwf : firmware.Wf) :
    firmware.Enumerates ↔ firmware.Mergeable :=
  ⟨mergeable_of_enumerates hwf, enumerates_of_mergeable hwf⟩

end Firmware

/-- A firmware that has enough memory. -/
def firmwareOf (memoryMap : List EfiMemoryDescriptor) : Firmware where
  bufferTooSmall := true
  descriptorPool := true
  rangePool := true
  memoryMap := some memoryMap
  quickSort := List.insertionSort fun a b => a.baseAddress ≤ b.baseAddress
  staleDescriptor := ⟨.reservedMemoryType, 0, 0⟩
  staleRange := ⟨0, 0⟩

theorem firmwareOf_wf {memoryMap : List EfiMemoryDescriptor}
    (h : ∀ d ∈ memoryMap, d.usable = true → d.Wf) : (firmwareOf memoryMap).Wf where
  sorts l := by
    have htotal : Std.Total fun a b : MemoryRange => a.baseAddress ≤ b.baseAddress :=
      ⟨fun a b => Nat.le_total a.baseAddress b.baseAddress⟩
    have htrans : IsTrans MemoryRange fun a b => a.baseAddress ≤ b.baseAddress :=
      ⟨fun a b c => Nat.le_trans⟩
    exact ⟨List.perm_insertionSort _ l, List.pairwise_insertionSort _ l⟩
  map memoryMap' hmap := by
    obtain rfl := Option.some.inj hmap
    exact h

/-- Two adjacent regions out of order. -/
def adjacentMap : List EfiMemoryDescriptor :=
  [⟨.bootServicesData, 0x1000, 2⟩, ⟨.acpiMemoryNvs, 0x9000, 1⟩, ⟨.conventionalMemory, 0, 1⟩]

theorem adjacentMap_enumerates : (firmwareOf adjacentMap).Enumerates := by
  refine (Firmware.enumerates_ranges_iff _ (firmwareOf_wf (by unfold EfiMemoryDescriptor.Wf; decide))).mpr
    ⟨fun _ _ => rfl, fun memoryMap hmap => ?_, fun memoryMap hmap => ?_⟩
  · obtain rfl : adjacentMap = memoryMap := Option.some.inj hmap
    exact ⟨⟨.conventionalMemory, 0, 1⟩, by decide, rfl⟩
  · obtain rfl : adjacentMap = memoryMap := Option.some.inj hmap
    decide

/-- A region within another one. -/
def nestedMap : List EfiMemoryDescriptor :=
  [⟨.conventionalMemory, 0, 8⟩, ⟨.loaderData, 0x1000, 1⟩]

theorem not_forall_enumerates : ¬∀ firmware : Firmware, firmware.Wf → firmware.Enumerates := by
  intro hall
  have hwf : (firmwareOf nestedMap).Wf := firmwareOf_wf (by unfold EfiMemoryDescriptor.Wf; decide)
  have hmergeable := Firmware.mergeable_of_enumerates hwf (hall _ hwf)
  exact absurd (hmergeable.ends nestedMap rfl) (by decide)

end NoirVisor
