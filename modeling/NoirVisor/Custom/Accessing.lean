import NoirVisor.Custom.Lookup
import NoirVisor.Radix.Place

/-!
# Accessed and dirty bits of a VM

The calls that query and clear the accessed and dirty bits of guest pages (`svm_core/svm_custom.c`).
They find the entry of a page by the lists. The query advances its list of page directories where the
loop over them has ended, so that it never gets past the first one.
-/

namespace NoirVisor

/-- `(dirty<<1)+accessed`. -/
def NptEntry.accessing (entry : NptEntry) : Nat := entry.dirty.toNat * 2 + entry.accessed.toNat

def NptEntry.clearAccessing (entry : NptEntry) : NptEntry :=
  { entry with accessed := false, dirty := false }

/-- `gpa>=gpa_start && gpa<gpa_start+size`. -/
def NptDescriptor.holds (d : NptDescriptor) (size gpa : Nat) : Bool :=
  d.gpaStart ≤ gpa && gpa < d.gpaStart + size

namespace SvmCustomNptManager

/-! The loops over lists return from the function at the first hit. What is found is told by the
frame of the table and the index. -/

section Clear

variable (nptm : SvmCustomNptManager) (gpa : Nat)

def locatePte (pteP : NptDescriptor) : Option (Nat × Nat) :=
  let pte := nptm.memory pteP.frame (pteOffset gpa)
  if pteP.holds page2mbSize gpa && pte.present then some (pteP.frame, pteOffset gpa) else none

def locatePde (pdeP : NptDescriptor) : Option (Nat × Nat) :=
  let pde := nptm.memory pdeP.frame (pdeOffset gpa)
  if pdeP.holds page1gbSize gpa && pde.present then
    if pde.psize then some (pdeP.frame, pdeOffset gpa)
    else nptm.pte.findSome? (nptm.locatePte gpa)
  else none

def locatePdpte (pdpteP : NptDescriptor) : Option (Nat × Nat) :=
  let pdpte := nptm.memory pdpteP.frame (pdpteOffset gpa)
  if pdpteP.holds page512gbSize gpa && pdpte.present then
    if pdpte.psize then some (pdpteP.frame, pdpteOffset gpa)
    else nptm.pde.findSome? (nptm.locatePde gpa)
  else none

def locate : Option (Nat × Nat) :=
  if (nptm.memory (page4kbCount nptm.ncr3) (pml4eOffset gpa)).present then
    nptm.pdpte.findSome? (nptm.locatePdpte gpa)
  else none

def nvcSvmcClearGpaAccessingBit : Bool × SvmCustomNptManager :=
  match nptm.locate gpa with
  | some (frame, index) =>
    (true, nptm.setEntry frame index (nptm.memory frame index).clearAccessing)
  | none => (false, nptm)

end Clear

/-- `gpa_start+(i<<page_4kb_shift)`, where `i` is one of 32 bits. -/
def rangeGpa (gpaStart i : Nat) : Nat := (gpaStart + i * 2 ^ 12 % 2 ^ 32) % 2 ^ 64

/-- The loop of `nvc_svmc_clear_gpa_accessing_bits` from `i` on. -/
def clearPages (gpaStart : Nat) : (pages i : Nat) → SvmCustomNptManager →
    NoirStatus × SvmCustomNptManager
  | 0, _, nptm => (.success, nptm)
  | pages + 1, i, nptm =>
    match nvcSvmcClearGpaAccessingBit nptm (rangeGpa gpaStart i) with
    | (true, nptm) => clearPages gpaStart pages (i + 1) nptm
    | (false, nptm) => (.guestPageAbsent, nptm)

def nvcSvmcClearGpaAccessingBits (nptm : SvmCustomNptManager) (gpaStart pageCount : Nat) :
    NoirStatus × SvmCustomNptManager :=
  clearPages gpaStart pageCount 0 nptm

section Query

variable (nptm : SvmCustomNptManager)

/-- The loop over the page directories. Each iteration that does not return starts over. -/
def queryPde (gpa : Nat) : (fuel : Nat) → List NptDescriptor → Outcome Nat
  | 0, _ => .error .outOfFuel
  | _ + 1, [] => .error .nullDereference
  | fuel + 1, pdeP :: next =>
    let pde := nptm.memory pdeP.frame (pdeOffset gpa)
    if pdeP.holds page1gbSize gpa && pde.present then
      if pde.psize then .ok pde.accessing
      else
        match nptm.pte.findSome? (nptm.locatePte gpa) with
        | some (frame, index) => .ok (nptm.memory frame index).accessing
        | none => queryPde gpa fuel (pdeP :: next)
    else queryPde gpa fuel (pdeP :: next)

def queryPdpte (gpa fuel : Nat) : List NptDescriptor → Outcome Nat
  | [] => .ok 0xff
  | pdpteP :: next =>
    let pdpte := nptm.memory pdpteP.frame (pdpteOffset gpa)
    if pdpteP.holds page512gbSize gpa && pdpte.present then
      if pdpte.psize then .ok pdpte.accessing
      else nptm.queryPde gpa fuel nptm.pde
    else queryPdpte gpa fuel next

def nvcSvmcQueryGpaAccessingBit (gpa fuel : Nat) : Outcome Nat :=
  if (nptm.memory (page4kbCount nptm.ncr3) (pml4eOffset gpa)).present then
    nptm.queryPdpte gpa fuel nptm.pdpte
  else .ok 0xff

/-- The loop of `nvc_svmc_query_gpa_accessing_bitmap` from `i` on. `noir_set_bitmap` and
`noir_reset_bitmap` take a position of 32 bits. -/
def queryPages (gpaStart fuel : Nat) : (pages i : Nat) → (Nat → Bool) →
    Outcome (NoirStatus × (Nat → Bool))
  | 0, _, bitmap => .ok (.success, bitmap)
  | pages + 1, i, bitmap => do
    let r ← nptm.nvcSvmcQueryGpaAccessingBit (rangeGpa gpaStart i) fuel
    if r = 0xff then .ok (.guestPageAbsent, bitmap)
    else
      let bitmap := Function.update bitmap (2 * i % 2 ^ 32) (r.testBit 0)
      let bitmap := Function.update bitmap ((2 * i + 1) % 2 ^ 32) (r.testBit 1)
      queryPages gpaStart fuel pages (i + 1) bitmap

def nvcSvmcQueryGpaAccessingBitmap (gpaStart pageCount fuel : Nat) (bitmap : Nat → Bool)
    (bitmapSize : Nat) : Outcome (NoirStatus × (Nat → Bool)) :=
  if pageCount ≤ bitmapSize * 4 % 2 ^ 32 then nptm.queryPages gpaStart fuel pageCount 0 bitmap
  else .ok (.bufferTooSmall, bitmap)

end Query

/-! ### What the calls are for -/

section Purpose

variable (nptm : SvmCustomNptManager) (gpa gpaStart pageCount bitmapSize : Nat)

/-- The nested walk of a guest address, of 48 bits at most, when it is mapped. -/
def mappedWalk : Option (Radix.Walk NptEntry) :=
  if gpa < 2 ^ 48 then Radix.mapped nptFormat nptm.memory 3 (page4kbCount nptm.ncr3) gpa else none

def accessingBits : Option Nat := (nptm.mappedWalk gpa).map fun walk => walk.leaf.accessing

/-- The query returns the bits of the page, or 0xff for none. -/
def QueryRight : Prop :=
  ∃ fuel, nptm.nvcSvmcQueryGpaAccessingBit gpa fuel = .ok ((nptm.accessingBits gpa).getD 0xff)

/-- The page that maps an address has no address of the range. -/
def OutsideRange (other : Nat) : Prop :=
  ∀ walk, nptm.mappedWalk other = some walk → ∀ i < pageCount,
    Radix.region walk.level (gpaStart + i * 2 ^ 12) ≠ Radix.region walk.level other

/-- After the bits of a range are cleared, a query for a bitmap that is large enough gives zeros, and
the bits of the other pages are as they were. -/
structure Clears (nptm' : SvmCustomNptManager) : Prop where
  bitmap : pageCount ≤ bitmapSize * 4 → ∀ bitmap, ∃ fuel bitmap',
    nptm'.nvcSvmcQueryGpaAccessingBitmap gpaStart pageCount fuel bitmap bitmapSize =
      .ok (.success, bitmap') ∧ ∀ k < 2 * pageCount, bitmap' k = false
  outside : ∀ other, nptm.OutsideRange gpaStart pageCount other →
    nptm'.accessingBits other = nptm.accessingBits other

structure AccessingRight : Prop where
  query : nptm.QueryRight gpa
  range : (nvcSvmcClearGpaAccessingBits nptm gpaStart pageCount).1 = .success →
    nptm.Clears gpaStart pageCount bitmapSize
      (nvcSvmcClearGpaAccessingBits nptm gpaStart pageCount).2

/-- Where a 1 GiB page is mapped by a table, the address is mapped by the first one of the list. -/
def Serves : Prop :=
  (nptm.memory (page4kbCount nptm.ncr3) (pml4eOffset gpa)).present = true →
    ∀ pdpteP ∈ nptm.pdpte, pdpteP.holds page512gbSize gpa = true →
      (nptm.memory pdpteP.frame (pdpteOffset gpa)).present = true →
      (nptm.memory pdpteP.frame (pdpteOffset gpa)).psize = false →
        ∃ pdeP ∈ nptm.pde.head?, (nptm.locatePde gpa pdeP).isSome = true

def RangeServes : Prop :=
  (∀ i < pageCount, (nptm.mappedWalk (rangeGpa gpaStart i)).isSome = true) →
    pageCount ≤ bitmapSize * 4 →
      (∀ i < pageCount, nptm.Serves (rangeGpa gpaStart i)) ∧
        pageCount ≤ bitmapSize * 4 % 2 ^ 32 ∧ pageCount ≤ 2 ^ 31

/-- The lists have the tables the processor comes to, each for its region. -/
structure ListsTables : Prop where
  pdpteListed : Listed page512gbSize nptm.pdpte
  pdeListed : Listed page1gbSize nptm.pde
  pteListed : Listed page2mbSize nptm.pte
  canonical : ∀ d ∈ nptm.pdpte, d.gpaStart < 2 ^ 48
  disjoint : Radix.Disjoint nptm.described
  sound : ∀ level ≤ 3, ∀ r frame, nptm.reached level r = some frame →
    nptm.described level r = some frame

end Purpose

section Locate

variable {nptm : SvmCustomNptManager} {gpa size frame : Nat} {descriptors : List NptDescriptor}

/-- One descriptor of a list at most holds an address. -/
theorem Listed.eq_of_holds {d d' : NptDescriptor} (hsize : 0 < size)
    (hlisted : Listed size descriptors) (hd : d ∈ descriptors) (hd' : d' ∈ descriptors)
    (hholds : d.holds size gpa = true) (hholds' : d'.holds size gpa = true) : d' = d := by
  unfold NptDescriptor.holds at hholds hholds'
  rw [Bool.and_eq_true, decide_eq_true_eq, decide_eq_true_eq,
    Radix.covers_iff hsize (hlisted.aligned _ ‹_›)] at hholds hholds'
  exact List.inj_on_of_nodup_map hlisted.distinct hd' hd (hholds'.trans hholds.symm)

theorem holds_of_covering {d : NptDescriptor}
    (hfind : Radix.covering NptDescriptor.gpaStart size gpa descriptors = some d) :
    d.holds size gpa = true :=
  List.find?_some (p := fun d : NptDescriptor => d.gpaStart ≤ gpa && gpa < d.gpaStart + size) hfind

theorem Listed.covering_of_holds {d : NptDescriptor} (hsize : 0 < size)
    (hlisted : Listed size descriptors) (hd : d ∈ descriptors) (hholds : d.holds size gpa = true) :
    Radix.covering NptDescriptor.gpaStart size gpa descriptors = some d := by
  cases hfind : Radix.covering NptDescriptor.gpaStart size gpa descriptors with
  | none => exact absurd hholds (List.find?_eq_none.mp hfind d hd)
  | some d' =>
    rw [hlisted.eq_of_holds hsize hd (List.mem_of_find?_eq_some hfind) hholds
      (holds_of_covering hfind)]

theorem findSome?_of_holds {α : Type} (hsize : 0 < size) (hlisted : Listed size descriptors)
    (f : NptDescriptor → Option α) (hf : ∀ d, d.holds size gpa = false → f d = none) :
    descriptors.findSome? f = (Radix.covering NptDescriptor.gpaStart size gpa descriptors).bind f := by
  have hsame : ∀ d ∈ descriptors, ∀ d' ∈ descriptors, d.holds size gpa = true →
      d'.holds size gpa = true → d' = d := fun d hd d' hd' => hlisted.eq_of_holds hsize hd hd'
  clear hlisted
  induction descriptors with
  | nil => rfl
  | cons d next ih =>
    cases hholds : d.holds size gpa with
    | false =>
      have hskip : Radix.covering NptDescriptor.gpaStart size gpa (d :: next) =
          Radix.covering NptDescriptor.gpaStart size gpa next :=
        List.find?_cons_of_neg (Bool.eq_false_iff.mp hholds)
      rw [List.findSome?_cons, hf d hholds, hskip]
      exact ih fun e he e' he' => hsame e (List.mem_cons_of_mem _ he) e' (List.mem_cons_of_mem _ he')
    | true =>
      have hfirst : Radix.covering NptDescriptor.gpaStart size gpa (d :: next) = some d :=
        List.find?_cons_of_pos hholds
      rw [List.findSome?_cons, hfirst, Option.bind_some]
      cases hd : f d with
      | some value => rfl
      | none =>
        refine List.findSome?_eq_none_iff.mpr fun e he => ?_
        cases hholds' : e.holds size gpa with
        | false => exact hf e hholds'
        | true =>
          rw [hsame d List.mem_cons_self e (List.mem_cons_of_mem _ he) hholds hholds', hd]

theorem locatePte_of_not_holds (d : NptDescriptor) (h : d.holds page2mbSize gpa = false) :
    nptm.locatePte gpa d = none := by
  simp [locatePte, h]

theorem locatePte_of_holds {d : NptDescriptor} (h : d.holds page2mbSize gpa = true) :
    nptm.locatePte gpa d =
      if (nptm.memory d.frame (pteOffset gpa)).present then some (d.frame, pteOffset gpa)
      else none := by
  simp [locatePte, h]

theorem locatePde_of_not_holds (d : NptDescriptor) (h : d.holds page1gbSize gpa = false) :
    nptm.locatePde gpa d = none := by
  simp [locatePde, h]

theorem locatePde_of_holds {d : NptDescriptor} (h : d.holds page1gbSize gpa = true) :
    nptm.locatePde gpa d =
      if (nptm.memory d.frame (pdeOffset gpa)).present then
        if (nptm.memory d.frame (pdeOffset gpa)).psize then some (d.frame, pdeOffset gpa)
        else nptm.pte.findSome? (nptm.locatePte gpa)
      else none := by
  simp [locatePde, h]

theorem locatePdpte_of_holds {d : NptDescriptor} (h : d.holds page512gbSize gpa = true) :
    nptm.locatePdpte gpa d =
      if (nptm.memory d.frame (pdpteOffset gpa)).present then
        if (nptm.memory d.frame (pdpteOffset gpa)).psize then some (d.frame, pdpteOffset gpa)
        else nptm.pde.findSome? (nptm.locatePde gpa)
      else none := by
  simp [locatePdpte, h]

theorem locatePdpte_of_not_holds (d : NptDescriptor) (h : d.holds page512gbSize gpa = false) :
    nptm.locatePdpte gpa d = none := by
  simp [locatePdpte, h]

theorem exists_covering (hsize : 0 < size) (hlisted : Listed size descriptors)
    (hdescribed : listedFrame size descriptors (gpa / size) = some frame) :
    ∃ d, Radix.covering NptDescriptor.gpaStart size gpa descriptors = some d ∧
      d.holds size gpa = true ∧ d.frame = frame := by
  rw [listedFrame_div hsize hlisted] at hdescribed
  obtain ⟨d, hd, hframe⟩ := Option.map_eq_some_iff.mp hdescribed
  exact ⟨d, hd, holds_of_covering hd, hframe⟩

/-- The place of an entry, as the lists tell it. -/
def entryOf (p : Radix.Place) : Nat × Nat := (p.frame, p.index)

/-- A present entry that maps no page leads to the table of the region below. -/
theorem reached_below {level : Nat} (hlevel : level < 3)
    (hreached : nptm.reached (level + 1) (Radix.region (level + 2) gpa) = some frame)
    (hpresent : (nptm.memory frame (Radix.index (level + 1) gpa)).present = true)
    (hleaf : nptFormat.leaf (level + 1) (nptm.memory frame (Radix.index (level + 1) gpa)) = false) :
    nptm.reached level (Radix.region (level + 1) gpa) =
      some (nptm.memory frame (Radix.index (level + 1) gpa)).base := by
  rw [Radix.region_eq (level + 1) gpa]
  refine Radix.reach_child (by omega) (Radix.index_lt _ _) hreached ?_
  rw [Radix.Format.isTable, hleaf, Bool.not_false, Bool.true_and]
  exact hpresent

/-- The place of a page below a table of directories, by the place below the next table. -/
theorem map_place_succ {level : Nat} {below : Option (Nat × Nat)} (hlevel : level < 2)
    (hreached : nptm.reached (level + 1) (Radix.region (level + 2) gpa) = some frame)
    (hbelow : nptm.reached level (Radix.region (level + 1) gpa) =
        some (nptm.memory frame (Radix.index (level + 1) gpa)).base →
      below = (Radix.place nptFormat nptm.memory level
        (nptm.memory frame (Radix.index (level + 1) gpa)).base gpa).map entryOf) :
    (Radix.place nptFormat nptm.memory (level + 1) frame gpa).map entryOf =
      if (nptm.memory frame (Radix.index (level + 1) gpa)).present then
        if (nptm.memory frame (Radix.index (level + 1) gpa)).psize then
          some (frame, Radix.index (level + 1) gpa)
        else below
      else none := by
  have hleaf : nptFormat.leaf (level + 1) (nptm.memory frame (Radix.index (level + 1) gpa)) =
      (nptm.memory frame (Radix.index (level + 1) gpa)).psize := by
    simp [nptFormat, show level + 1 < 3 by omega]
  cases hpresent : (nptm.memory frame (Radix.index (level + 1) gpa)).present with
  | false =>
    rw [Radix.place_of_absent hpresent]
    rfl
  | true =>
    cases hpsize : (nptm.memory frame (Radix.index (level + 1) gpa)).psize with
    | true =>
      rw [Radix.place_of_leaf hpresent (hleaf.trans hpsize)]
      rfl
    | false =>
      rw [Radix.place_of_table hpresent (hleaf.trans hpsize), if_pos rfl,
        if_neg Bool.false_ne_true,
        hbelow (reached_below (by omega) hreached hpresent (hleaf.trans hpsize))]
      rfl

section

variable (h : nptm.ListsTables)

include h

theorem ListsTables.findSome?_locatePte
    (hreached : nptm.reached 0 (Radix.region 1 gpa) = some frame) :
    nptm.pte.findSome? (nptm.locatePte gpa) =
      (Radix.place nptFormat nptm.memory 0 frame gpa).map entryOf := by
  obtain ⟨d, hfind, hholds, hframe⟩ := exists_covering (by decide) h.pteListed
    (h.sound 0 (by omega) _ _ hreached)
  rw [findSome?_of_holds (by decide) h.pteListed _ locatePte_of_not_holds, hfind, Option.bind_some]
  rw [locatePte_of_holds hholds, hframe]
  cases hpresent : (nptm.memory frame (Radix.index 0 gpa)).present with
  | false =>
    rw [Radix.place_of_absent hpresent]
    exact if_neg (Bool.eq_false_iff.mp hpresent)
  | true =>
    rw [Radix.place_zero hpresent]
    exact if_pos hpresent

theorem ListsTables.findSome?_locatePde
    (hreached : nptm.reached 1 (Radix.region 2 gpa) = some frame) :
    nptm.pde.findSome? (nptm.locatePde gpa) =
      (Radix.place nptFormat nptm.memory 1 frame gpa).map entryOf := by
  obtain ⟨d, hfind, hholds, hframe⟩ := exists_covering (by decide) h.pdeListed
    (h.sound 1 (by omega) _ _ hreached)
  rw [findSome?_of_holds (by decide) h.pdeListed _ locatePde_of_not_holds, hfind, Option.bind_some]
  rw [locatePde_of_holds hholds, hframe]
  exact (map_place_succ (by omega) hreached fun hbelow => h.findSome?_locatePte hbelow).symm

/-- The nested walk and the lists find a page at the same place. -/
theorem ListsTables.findSome?_locatePdpte
    (hreached : nptm.reached 2 (Radix.region 3 gpa) = some frame) :
    nptm.pdpte.findSome? (nptm.locatePdpte gpa) =
      (Radix.place nptFormat nptm.memory 2 frame gpa).map entryOf := by
  obtain ⟨d, hfind, hholds, hframe⟩ := exists_covering (by decide) h.pdpteListed
    (h.sound 2 (by omega) _ _ hreached)
  rw [findSome?_of_holds (by decide) h.pdpteListed _ locatePdpte_of_not_holds, hfind,
    Option.bind_some, locatePdpte_of_holds hholds, hframe]
  exact (map_place_succ (by omega) hreached fun hbelow => h.findSome?_locatePde hbelow).symm

theorem ListsTables.locate_eq (hgpa : gpa < 2 ^ 48) : nptm.locate gpa =
    (Radix.place nptFormat nptm.memory 3 (page4kbCount nptm.ncr3) gpa).map entryOf := by
  have hroot : nptm.reached 3 (Radix.region 4 gpa) = some (page4kbCount nptm.ncr3) :=
    if_pos (Nat.div_eq_of_lt hgpa)
  have hindex : pml4eOffset gpa = Radix.index 3 gpa := rfl
  unfold locate
  rw [hindex]
  cases hpresent : (nptm.memory (page4kbCount nptm.ncr3) (Radix.index 3 gpa)).present with
  | false =>
    rw [Radix.place_of_absent hpresent]
    rfl
  | true =>
    rw [Radix.place_of_table hpresent rfl, if_pos rfl]
    exact h.findSome?_locatePdpte (reached_below (by omega) hroot hpresent rfl)

/-- No list has an address above those of the root. -/
theorem ListsTables.locate_of_le (hgpa : 2 ^ 48 ≤ gpa) : nptm.locate gpa = none := by
  unfold locate
  split
  · refine List.findSome?_eq_none_iff.mpr fun d hd => locatePdpte_of_not_holds d ?_
    have haligned := h.pdpteListed.aligned d hd
    have hlt := h.canonical d hd
    refine Bool.eq_false_iff.mpr fun hholds => ?_
    unfold NptDescriptor.holds at hholds
    rw [Bool.and_eq_true, decide_eq_true_eq, decide_eq_true_eq] at hholds
    unfold page512gbSize at hholds haligned
    omega
  · rfl

theorem ListsTables.accessingBits_eq (gpa : Nat) : nptm.accessingBits gpa =
    (nptm.locate gpa).map fun p => (nptm.memory p.1 p.2).accessing := by
  unfold accessingBits mappedWalk
  split
  · rename_i hgpa
    have hleaf : (Radix.mapped nptFormat nptm.memory 3 (page4kbCount nptm.ncr3) gpa).map
        (fun walk => (walk.level, walk.leaf)) =
      (Radix.place nptFormat nptm.memory 3 (page4kbCount nptm.ncr3) gpa).map fun p =>
        (p.level, nptm.memory p.frame p.index) := Radix.map_mapped
    have hbits := congrArg (Option.map fun q => q.2.accessing) hleaf
    rw [Option.map_map, Option.map_map] at hbits
    rw [h.locate_eq hgpa, Option.map_map]
    exact hbits
  · rename_i hgpa
    rw [h.locate_of_le (Nat.le_of_not_lt hgpa)]
    rfl

theorem ListsTables.isSome_mappedWalk (gpa : Nat) :
    (nptm.mappedWalk gpa).isSome = (nptm.locate gpa).isSome := by
  have hbits := congrArg Option.isSome (h.accessingBits_eq gpa)
  rwa [accessingBits, Option.isSome_map, Option.isSome_map] at hbits

end

end Locate

section Query

variable {nptm : SvmCustomNptManager} {gpa fuel : Nat} {pdeP : NptDescriptor}
  {next : List NptDescriptor}

theorem queryPde_of_located {p : Nat × Nat} (h : nptm.locatePde gpa pdeP = some p) :
    nptm.queryPde gpa (fuel + 1) (pdeP :: next) = .ok (nptm.memory p.1 p.2).accessing := by
  cases hholds : pdeP.holds page1gbSize gpa with
  | false => rw [locatePde_of_not_holds _ hholds] at h; cases h
  | true =>
    rw [locatePde_of_holds hholds] at h
    cases hpresent : (nptm.memory pdeP.frame (pdeOffset gpa)).present with
    | false => rw [hpresent] at h; cases h
    | true =>
      rw [if_pos hpresent] at h
      cases hpsize : (nptm.memory pdeP.frame (pdeOffset gpa)).psize with
      | true =>
        rw [if_pos hpsize] at h
        obtain rfl := Option.some.inj h
        simp [queryPde, hholds, hpresent, hpsize]
      | false =>
        rw [hpsize, if_neg Bool.false_ne_true] at h
        simp [queryPde, hholds, hpresent, hpsize, h]

/-- Where the first directory does not have the page, the loop does not end. -/
theorem queryPde_of_not_located (h : nptm.locatePde gpa pdeP = none) :
    nptm.queryPde gpa fuel (pdeP :: next) = .error .outOfFuel := by
  induction fuel with
  | zero => rfl
  | succ fuel ih =>
    cases hholds : pdeP.holds page1gbSize gpa with
    | false => simp [queryPde, hholds, ih]
    | true =>
      rw [locatePde_of_holds hholds] at h
      cases hpresent : (nptm.memory pdeP.frame (pdeOffset gpa)).present with
      | false => simp [queryPde, hpresent, ih]
      | true =>
        rw [if_pos hpresent] at h
        cases hpsize : (nptm.memory pdeP.frame (pdeOffset gpa)).psize with
        | true => rw [if_pos hpsize] at h; cases h
        | false =>
          rw [hpsize, if_neg Bool.false_ne_true] at h
          simp [queryPde, hholds, hpresent, hpsize, h, ih]

theorem of_queryPde_eq_ok {value : Nat} (h : nptm.queryPde gpa fuel nptm.pde = .ok value) :
    ∃ pdeP ∈ nptm.pde.head?, (nptm.locatePde gpa pdeP).isSome = true := by
  cases hpde : nptm.pde with
  | nil =>
    rw [hpde] at h
    cases fuel with
    | zero => cases h
    | succ fuel => cases h
  | cons pdeP next =>
    refine ⟨pdeP, rfl, ?_⟩
    rw [hpde] at h
    cases hlocate : nptm.locatePde gpa pdeP with
    | some p => rfl
    | none => rw [queryPde_of_not_located hlocate] at h; cases h

theorem queryPde_of_head (h : ∃ pdeP ∈ nptm.pde.head?, (nptm.locatePde gpa pdeP).isSome = true) :
    ∃ p, nptm.pde.findSome? (nptm.locatePde gpa) = some p ∧
      nptm.queryPde gpa (fuel + 1) nptm.pde = .ok (nptm.memory p.1 p.2).accessing := by
  obtain ⟨pdeP, hhead, hsome⟩ := h
  obtain ⟨next, hpde⟩ := List.head?_eq_some_iff.mp hhead
  obtain ⟨p, hlocate⟩ := Option.isSome_iff_exists.mp hsome
  refine ⟨p, ?_, ?_⟩
  · rw [hpde, List.findSome?_cons, hlocate]
  · rw [hpde, queryPde_of_located hlocate]

/-- What the loop over the upper tables returns at one of them. -/
def answerPdpte (nptm : SvmCustomNptManager) (gpa fuel : Nat) (pdpteP : NptDescriptor) :
    Option (Outcome Nat) :=
  if pdpteP.holds page512gbSize gpa && (nptm.memory pdpteP.frame (pdpteOffset gpa)).present then
    some (if (nptm.memory pdpteP.frame (pdpteOffset gpa)).psize then
      .ok (nptm.memory pdpteP.frame (pdpteOffset gpa)).accessing
    else nptm.queryPde gpa fuel nptm.pde)
  else none

theorem queryPdpte_eq (descriptors : List NptDescriptor) :
    nptm.queryPdpte gpa fuel descriptors =
      (descriptors.findSome? (nptm.answerPdpte gpa fuel)).getD (.ok 0xff) := by
  induction descriptors with
  | nil => rfl
  | cons pdpteP next ih =>
    rw [List.findSome?_cons, queryPdpte, answerPdpte]
    split
    · rfl
    · exact ih

theorem answerPdpte_of_not_holds (d : NptDescriptor) (h : d.holds page512gbSize gpa = false) :
    nptm.answerPdpte gpa fuel d = none := by
  simp [answerPdpte, h]

/-- The query of an address that is served. -/
theorem ListsTables.query_of_serves (h : nptm.ListsTables) (hserves : nptm.Serves gpa) :
    nptm.nvcSvmcQueryGpaAccessingBit gpa 1 = .ok ((nptm.accessingBits gpa).getD 0xff) := by
  rw [h.accessingBits_eq, nvcSvmcQueryGpaAccessingBit, locate]
  split
  · rename_i hroot
    rw [queryPdpte_eq, findSome?_of_holds (by decide) h.pdpteListed _ answerPdpte_of_not_holds,
      findSome?_of_holds (by decide) h.pdpteListed _ locatePdpte_of_not_holds]
    cases hfind : Radix.covering NptDescriptor.gpaStart page512gbSize gpa nptm.pdpte with
    | none => rfl
    | some pdpteP =>
      have hmem := List.mem_of_find?_eq_some hfind
      have hholds := holds_of_covering hfind
      rw [Option.bind_some, Option.bind_some, locatePdpte_of_holds hholds, answerPdpte, hholds,
        Bool.true_and]
      cases hpresent : (nptm.memory pdpteP.frame (pdpteOffset gpa)).present with
      | false => rfl
      | true =>
        rw [if_pos rfl, if_pos rfl]
        cases hpsize : (nptm.memory pdpteP.frame (pdpteOffset gpa)).psize with
        | true => rfl
        | false =>
          obtain ⟨p, hlocate, hquery⟩ := queryPde_of_head
            (hserves hroot pdpteP hmem hholds hpresent hpsize)
          rw [if_neg Bool.false_ne_true, if_neg Bool.false_ne_true, hlocate]
          exact hquery
  · rfl

/-- A query that returns is for an address that is served. -/
theorem ListsTables.serves_of_query (h : nptm.ListsTables) {value : Nat}
    (hquery : nptm.nvcSvmcQueryGpaAccessingBit gpa fuel = .ok value) : nptm.Serves gpa := by
  intro hroot pdpteP hmem hholds hpresent hpsize
  rw [nvcSvmcQueryGpaAccessingBit, if_pos hroot, queryPdpte_eq,
    findSome?_of_holds (by decide) h.pdpteListed _ answerPdpte_of_not_holds,
    h.pdpteListed.covering_of_holds (by decide) hmem hholds, Option.bind_some, answerPdpte, hholds, hpresent, hpsize] at hquery
  exact of_queryPde_eq_ok hquery

theorem ListsTables.queryRight_iff (h : nptm.ListsTables) :
    nptm.QueryRight gpa ↔ nptm.Serves gpa :=
  ⟨fun ⟨_, hquery⟩ => h.serves_of_query hquery, fun hserves => ⟨1, h.query_of_serves hserves⟩⟩

end Query

/-! ### Clearing a range

Clearing changes the accessed and dirty bits of the entries found, and nothing else. -/

structure SameTables (nptm nptm' : SvmCustomNptManager) : Prop where
  ncr3 : nptm'.ncr3 = nptm.ncr3
  pdpte : nptm'.pdpte = nptm.pdpte
  pde : nptm'.pde = nptm.pde
  pte : nptm'.pte = nptm.pte
  entries : ∀ f i, (nptm'.memory f i).clearAccessing = (nptm.memory f i).clearAccessing

namespace SameTables

variable {nptm nptm' nptm'' : SvmCustomNptManager}

theorem refl (nptm : SvmCustomNptManager) : SameTables nptm nptm :=
  ⟨rfl, rfl, rfl, rfl, fun _ _ => rfl⟩

theorem trans (h : SameTables nptm nptm') (h' : SameTables nptm' nptm'') :
    SameTables nptm nptm'' :=
  ⟨h'.ncr3.trans h.ncr3, h'.pdpte.trans h.pdpte, h'.pde.trans h.pde, h'.pte.trans h.pte,
    fun f i => (h'.entries f i).trans (h.entries f i)⟩

theorem present (h : SameTables nptm nptm') (f i : Nat) :
    (nptm'.memory f i).present = (nptm.memory f i).present :=
  (NptEntry.mk.inj (h.entries f i)).1

theorem psize (h : SameTables nptm nptm') (f i : Nat) :
    (nptm'.memory f i).psize = (nptm.memory f i).psize := by
  have hpsize := congrArg NptEntry.psize (h.entries f i)
  exact hpsize

theorem base (h : SameTables nptm nptm') (f i : Nat) :
    (nptm'.memory f i).base = (nptm.memory f i).base := by
  have hbase := congrArg NptEntry.base (h.entries f i)
  exact hbase

theorem locatePde (h : SameTables nptm nptm') (gpa : Nat) :
    nptm'.locatePde gpa = nptm.locatePde gpa := by
  have hpte : nptm'.locatePte gpa = nptm.locatePte gpa := by
    funext pteP
    simp only [SvmCustomNptManager.locatePte, h.present]
  funext pdeP
  simp only [SvmCustomNptManager.locatePde, h.present, h.psize, h.pte, hpte]

theorem locate (h : SameTables nptm nptm') (gpa : Nat) : nptm'.locate gpa = nptm.locate gpa := by
  have hpdpte : nptm'.locatePdpte gpa = nptm.locatePdpte gpa := by
    funext pdpteP
    simp only [locatePdpte, h.present, h.psize, h.pde, h.locatePde]
  simp only [SvmCustomNptManager.locate, h.present, h.ncr3, h.pdpte, hpdpte]

theorem serves (h : SameTables nptm nptm') (gpa : Nat) : nptm'.Serves gpa ↔ nptm.Serves gpa := by
  unfold Serves
  simp only [h.present, h.psize, h.ncr3, h.pdpte, h.pde, h.locatePde]

theorem listsTables (h : SameTables nptm nptm') (hlists : nptm.ListsTables) :
    nptm'.ListsTables := by
  have hdescribed : nptm'.described = nptm.described := by
    funext level r
    match level with
    | 0 => simp only [described, h.pte]
    | 1 => simp only [described, h.pde]
    | 2 => simp only [described, h.pdpte]
    | 3 => simp only [described, h.ncr3]
    | _ + 4 => rfl
  have hshape : ∀ f i, Radix.SameShape nptFormat (nptm.memory f i) (nptm'.memory f i) := by
    intro f i
    exact ⟨h.present f i, fun level => by simp only [nptFormat, h.psize], h.base f i⟩
  have hreached : ∀ level r, nptm'.reached level r = nptm.reached level r := by
    intro level r
    unfold reached
    rw [h.ncr3]
    exact Radix.reach_of_sameShape hshape r
  refine
    { pdpteListed := by rw [h.pdpte]; exact hlists.pdpteListed
      pdeListed := by rw [h.pde]; exact hlists.pdeListed
      pteListed := by rw [h.pte]; exact hlists.pteListed
      canonical := by rw [h.pdpte]; exact hlists.canonical
      disjoint := by rw [hdescribed]; exact hlists.disjoint
      sound := fun level hlevel r frame hframe => ?_ }
  rw [hreached] at hframe
  rw [hdescribed]
  exact hlists.sound level hlevel r frame hframe

end SameTables

section Clear

variable {nptm : SvmCustomNptManager} {gpa gpaStart i pages : Nat}

theorem clearAccessingBit_of_located {f j : Nat} (h : nptm.locate gpa = some (f, j)) :
    nvcSvmcClearGpaAccessingBit nptm gpa =
      (true, nptm.setEntry f j (nptm.memory f j).clearAccessing) := by
  simp [nvcSvmcClearGpaAccessingBit, h]

theorem clearAccessingBit_of_not_located (h : nptm.locate gpa = none) :
    nvcSvmcClearGpaAccessingBit nptm gpa = (false, nptm) := by
  simp [nvcSvmcClearGpaAccessingBit, h]

theorem sameTables_clearEntry (f j : Nat) :
    SameTables nptm (nptm.setEntry f j (nptm.memory f j).clearAccessing) where
  ncr3 := rfl
  pdpte := rfl
  pde := rfl
  pte := rfl
  entries f' i' := by
    unfold setEntry Radix.Frames.set
    dsimp only
    split
    · rename_i hwritten
      rw [hwritten.1, hwritten.2]
      rfl
    · rfl

/-- What the loop over a range has done when it ends. -/
structure ClearedPages (nptm : SvmCustomNptManager) (gpaStart pages i : Nat)
    (result : NoirStatus × SvmCustomNptManager) : Prop where
  same : SameTables nptm result.2
  success : result.1 = .success ↔
    ∀ k < pages, (nptm.locate (rangeGpa gpaStart (i + k))).isSome = true
  cleared : result.1 = .success → ∀ k < pages, ∀ p,
    nptm.locate (rangeGpa gpaStart (i + k)) = some p → (result.2.memory p.1 p.2).accessing = 0
  kept : ∀ f j, (nptm.memory f j).accessing = 0 → (result.2.memory f j).accessing = 0
  others : ∀ f j, (∀ k < pages, nptm.locate (rangeGpa gpaStart (i + k)) ≠ some (f, j)) →
    result.2.memory f j = nptm.memory f j

theorem clearPages_cleared (nptm : SvmCustomNptManager) (gpaStart pages i : Nat) :
    ClearedPages nptm gpaStart pages i (clearPages gpaStart pages i nptm) := by
  induction pages generalizing i nptm with
  | zero =>
    exact ⟨.refl nptm, ⟨fun _ k hk => absurd hk (Nat.not_lt_zero k), fun _ => rfl⟩,
      fun _ k hk => absurd hk (Nat.not_lt_zero k), fun _ _ h => h, fun _ _ _ => rfl⟩
  | succ pages ih =>
    cases hlocate : nptm.locate (rangeGpa gpaStart i) with
    | none =>
      rw [clearPages, clearAccessingBit_of_not_located hlocate]
      have hfails : ¬∀ k < pages + 1, (nptm.locate (rangeGpa gpaStart (i + k))).isSome = true := by
        intro hall
        have hfirst := hall 0 (Nat.succ_pos pages)
        rw [Nat.add_zero, hlocate] at hfirst
        cases hfirst
      exact ⟨.refl nptm, ⟨nofun, fun hall => absurd hall hfails⟩, nofun, fun _ _ h => h,
        fun _ _ _ => rfl⟩
    | some p =>
      obtain ⟨f, j⟩ := p
      rw [clearPages, clearAccessingBit_of_located hlocate]
      dsimp only
      have hsame : SameTables nptm (nptm.setEntry f j (nptm.memory f j).clearAccessing) :=
        sameTables_clearEntry f j
      have hrest := ih (nptm.setEntry f j (nptm.memory f j).clearAccessing) (i + 1)
      have hnext : ∀ k, i + 1 + k = i + (k + 1) := by
        intro k
        omega
      refine ⟨hsame.trans hrest.same, ?_, ?_, ?_, ?_⟩
      · rw [hrest.success]
        simp only [hsame.locate, hnext]
        constructor
        · intro hall k hk
          cases k with
          | zero => rw [Nat.add_zero, hlocate]; rfl
          | succ k => exact hall k (by omega)
        · exact fun hall k hk => hall (k + 1) (by omega)
      · intro hsuccess k hk p hp
        cases k with
        | zero =>
          rw [Nat.add_zero, hlocate] at hp
          obtain rfl := Option.some.inj hp
          refine hrest.kept f j ?_
          simp [setEntry, NptEntry.clearAccessing, NptEntry.accessing]
        | succ k =>
          exact hrest.cleared hsuccess k (by omega) p (by rw [hsame.locate, hnext]; exact hp)
      · intro f' j' hzero
        refine hrest.kept f' j' ?_
        unfold setEntry Radix.Frames.set
        dsimp only
        split
        · rfl
        · exact hzero
      · intro f' j' hother
        have hne : ¬(f' = f ∧ j' = j) := by
          rintro ⟨rfl, rfl⟩
          exact hother 0 (Nat.succ_pos pages) hlocate
        rw [hrest.others f' j' fun k hk => by
          rw [hsame.locate, hnext]; exact hother (k + 1) (by omega)]
        exact Radix.Frames.set_of_ne hne

end Clear

section Bitmap

variable {nptm : SvmCustomNptManager} {gpaStart fuel pages i : Nat} {bitmap bitmap' : Nat → Bool}

theorem update_false {p q : Nat} (h : bitmap p = false) :
    Function.update bitmap q false p = false := by
  by_cases hp : p = q
  · rw [hp]
    exact Function.update_self _ _ _
  · rw [Function.update_of_ne hp]
    exact h

theorem queryPages_of_zero (hzero : ∀ k < pages,
      nptm.nvcSvmcQueryGpaAccessingBit (rangeGpa gpaStart (i + k)) fuel = .ok 0) :
    ∃ bitmap', nptm.queryPages gpaStart fuel pages i bitmap = .ok (.success, bitmap') ∧
      (∀ p, bitmap p = false → bitmap' p = false) ∧
      ∀ k < pages, bitmap' (2 * (i + k) % 2 ^ 32) = false ∧
        bitmap' ((2 * (i + k) + 1) % 2 ^ 32) = false := by
  induction pages generalizing i bitmap with
  | zero => exact ⟨bitmap, rfl, fun _ h => h, fun k hk => absurd hk (Nat.not_lt_zero k)⟩
  | succ pages ih =>
    have hfirst := hzero 0 (Nat.succ_pos pages)
    rw [Nat.add_zero] at hfirst
    have hnext : ∀ k, i + 1 + k = i + (k + 1) := by
      intro k
      omega
    obtain ⟨bitmap', hrun, hkept, hwritten⟩ := @ih (i + 1)
      (Function.update (Function.update bitmap (2 * i % 2 ^ 32) false) ((2 * i + 1) % 2 ^ 32) false)
      (fun k hk => by rw [hnext]; exact hzero (k + 1) (by omega))
    refine ⟨bitmap', ?_, fun p hp => hkept p ?_, fun k hk => ?_⟩
    · rw [queryPages, hfirst]
      exact hrun
    · exact update_false (update_false hp)
    · cases k with
      | zero =>
        exact ⟨hkept _ (update_false (Function.update_self _ _ _)),
          hkept _ (Function.update_self _ _ _)⟩
      | succ k =>
        rw [← hnext]
        exact hwritten k (by omega)

/-- A query that succeeds has asked for every page, and written nothing past 32 bits. -/
theorem of_queryPages_eq_success
    (h : nptm.queryPages gpaStart fuel pages i bitmap = .ok (.success, bitmap')) :
    (∀ k < pages, ∃ value,
      nptm.nvcSvmcQueryGpaAccessingBit (rangeGpa gpaStart (i + k)) fuel = .ok value) ∧
      ∀ p, 2 ^ 32 ≤ p → bitmap' p = bitmap p := by
  induction pages generalizing i bitmap with
  | zero =>
    cases h
    exact ⟨fun k hk => absurd hk (Nat.not_lt_zero k), fun _ _ => rfl⟩
  | succ pages ih =>
    rw [queryPages] at h
    cases hquery : nptm.nvcSvmcQueryGpaAccessingBit (rangeGpa gpaStart i) fuel with
    | error fault => rw [hquery] at h; cases h
    | ok value =>
      rw [hquery] at h
      change (if value = 0xff then _ else _) = _ at h
      split at h
      · cases h
      · obtain ⟨hasked, hkept⟩ := ih h
        refine ⟨fun k hk => ?_, fun p hp => (hkept p hp).trans ?_⟩
        · cases k with
          | zero => exact ⟨value, hquery⟩
          | succ k =>
            have hnext := hasked k (by omega)
            rwa [show i + 1 + k = i + (k + 1) by omega] at hnext
        · have hlt : ∀ x, x % 2 ^ 32 < p := fun x =>
            Nat.lt_of_lt_of_le (Nat.mod_lt x (by decide)) hp
          rw [Function.update_of_ne (Nat.ne_of_gt (hlt _)),
            Function.update_of_ne (Nat.ne_of_gt (hlt _))]

end Bitmap

section Range

variable {nptm : SvmCustomNptManager} {gpa other gpaStart pageCount bitmapSize : Nat}

theorem ListsTables.lt_of_locate (h : nptm.ListsTables) {p : Nat × Nat}
    (hlocate : nptm.locate gpa = some p) : gpa < 2 ^ 48 := by
  by_contra hgpa
  rw [h.locate_of_le (Nat.le_of_not_lt hgpa)] at hlocate
  cases hlocate

/-- Addresses found at one entry are of the page it maps. -/
theorem ListsTables.region_eq_of_locate (h : nptm.ListsTables) {p : Nat × Nat}
    {walk : Radix.Walk NptEntry} (hwalk : nptm.mappedWalk other = some walk)
    (hother : nptm.locate other = some p) (hgpa : nptm.locate gpa = some p) :
    Radix.region walk.level gpa = Radix.region walk.level other := by
  have hltOther := h.lt_of_locate hother
  have hltGpa := h.lt_of_locate hgpa
  rw [h.locate_eq hltOther] at hother
  rw [h.locate_eq hltGpa] at hgpa
  obtain ⟨q, hq, hqp⟩ := Option.map_eq_some_iff.mp hother
  obtain ⟨q', hq', hqp'⟩ := Option.map_eq_some_iff.mp hgpa
  have hsame : entryOf q' = entryOf q := hqp'.trans hqp.symm
  obtain ⟨hlevel, hregion⟩ := Radix.region_eq_of_place h.disjoint
    (fun level hlevel r f hf => h.sound level hlevel r f hf) (Nat.div_eq_of_lt hltGpa)
    (Nat.div_eq_of_lt hltOther) hq' hq (congrArg Prod.fst hsame) (congrArg Prod.snd hsame)
  have hmapped : (Radix.mapped nptFormat nptm.memory 3 (page4kbCount nptm.ncr3) other).map
      (fun walk => (walk.level, walk.leaf)) =
    (Radix.place nptFormat nptm.memory 3 (page4kbCount nptm.ncr3) other).map fun p =>
      (p.level, nptm.memory p.frame p.index) := Radix.map_mapped
  rw [mappedWalk, if_pos hltOther] at hwalk
  rw [hwalk, hq] at hmapped
  have hwalkLevel : walk.level = q.level := congrArg Prod.fst (Option.some.inj hmapped)
  rw [hwalkLevel, ← hlevel]
  exact hregion

/-- The address of a page as the loops compute it, where it is mapped at all. -/
theorem ListsTables.exists_rangeGpa_eq (h : nptm.ListsTables) (hstart : gpaStart < 2 ^ 64)
    (hmapped : (nptm.locate (rangeGpa gpaStart 0)).isSome = true) (k : Nat) :
    ∃ i ≤ k, rangeGpa gpaStart k = gpaStart + i * 2 ^ 12 := by
  obtain ⟨p, hp⟩ := Option.isSome_iff_exists.mp hmapped
  have hlt := h.lt_of_locate hp
  unfold rangeGpa at hlt ⊢
  exact ⟨k % 2 ^ 20, Nat.mod_le _ _, by omega⟩

/-- The pages outside a range keep their bits when the range is cleared. -/
theorem ListsTables.accessingBits_outside (h : nptm.ListsTables) (hstart : gpaStart < 2 ^ 64)
    {result : NoirStatus × SvmCustomNptManager}
    (hcleared : ClearedPages nptm gpaStart pageCount 0 result) (hsuccess : result.1 = .success)
    (houtside : nptm.OutsideRange gpaStart pageCount other) :
    result.2.accessingBits other = nptm.accessingBits other := by
  rw [(hcleared.same.listsTables h).accessingBits_eq, h.accessingBits_eq, hcleared.same.locate]
  cases hother : nptm.locate other with
  | none => rfl
  | some p =>
    have hwalk : (nptm.mappedWalk other).isSome = true := by
      rw [h.isSome_mappedWalk, hother]
      rfl
    obtain ⟨walk, hwalk⟩ := Option.isSome_iff_exists.mp hwalk
    have hentry := hcleared.others p.1 p.2 fun k hk hlocate => by
      have hfirst := hcleared.success.mp hsuccess 0 (by omega)
      obtain ⟨i, hi, hgpa⟩ := h.exists_rangeGpa_eq hstart hfirst (0 + k)
      have hregion := h.region_eq_of_locate hwalk hother hlocate
      rw [hgpa] at hregion
      exact houtside walk hwalk i (by omega) hregion
    rw [Option.map_some, Option.map_some, hentry]

theorem ListsTables.clears_iff (h : nptm.ListsTables) (hstart : gpaStart < 2 ^ 64) :
    ((nvcSvmcClearGpaAccessingBits nptm gpaStart pageCount).1 = .success →
      nptm.Clears gpaStart pageCount bitmapSize
        (nvcSvmcClearGpaAccessingBits nptm gpaStart pageCount).2) ↔
      nptm.RangeServes gpaStart pageCount bitmapSize := by
  have hcleared := clearPages_cleared nptm gpaStart pageCount 0
  unfold nvcSvmcClearGpaAccessingBits
  generalize clearPages gpaStart pageCount 0 nptm = result at hcleared ⊢
  have hsuccess : result.1 = .success ↔
      ∀ i < pageCount, (nptm.mappedWalk (rangeGpa gpaStart i)).isSome = true := by
    rw [hcleared.success]
    simp only [Nat.zero_add, h.isSome_mappedWalk]
  have hafter := hcleared.same.listsTables h
  unfold RangeServes
  rw [← hsuccess]
  constructor
  · intro hclears hmapped hsize
    obtain ⟨fuel, bitmap', hquery, hzeros⟩ := (hclears hmapped).bitmap hsize fun _ => true
    unfold nvcSvmcQueryGpaAccessingBitmap at hquery
    split at hquery
    · rename_i hfits
      obtain ⟨hasked, hkept⟩ := of_queryPages_eq_success hquery
      refine ⟨fun i hi => ?_, hfits, ?_⟩
      · obtain ⟨value, hvalue⟩ := hasked i hi
        rw [Nat.zero_add] at hvalue
        exact (hcleared.same.serves _).mp (hafter.serves_of_query hvalue)
      · by_contra hlarge
        have hzero := hzeros (2 ^ 32) (by omega)
        rw [hkept _ (Nat.le_refl _)] at hzero
        cases hzero
    · cases hquery
  · intro hserves hmapped
    refine ⟨fun hsize bitmap => ?_, fun other houtside =>
      h.accessingBits_outside hstart hcleared hmapped houtside⟩
    obtain ⟨hserved, hfits, hpositions⟩ := hserves hmapped hsize
    have hzero : ∀ k < pageCount,
        result.2.nvcSvmcQueryGpaAccessingBit (rangeGpa gpaStart (0 + k)) 1 = .ok 0 := by
      intro k hk
      obtain ⟨p, hp⟩ := Option.isSome_iff_exists.mp (hcleared.success.mp hmapped k hk)
      have hserve := hserved k hk
      rw [← Nat.zero_add k] at hserve
      rw [hafter.query_of_serves ((hcleared.same.serves _).mpr hserve), hafter.accessingBits_eq,
        hcleared.same.locate, hp, Option.map_some, hcleared.cleared hmapped k hk p hp]
      rfl
    obtain ⟨bitmap', hrun, -, hwritten⟩ := @queryPages_of_zero _ _ _ _ _ bitmap hzero
    refine ⟨1, bitmap', ?_, fun p hp => ?_⟩
    · rw [nvcSvmcQueryGpaAccessingBitmap, if_pos hfits]
      exact hrun
    · obtain ⟨heven, hodd⟩ := hwritten (p / 2) (by omega)
      rcases Nat.mod_two_eq_zero_or_one p with hparity | hparity
      · rwa [show 2 * (0 + p / 2) % 2 ^ 32 = p by omega] at heven
      · rwa [show (2 * (0 + p / 2) + 1) % 2 ^ 32 = p by omega] at hodd

theorem accessingRight_iff (h : nptm.ListsTables) (hstart : gpaStart < 2 ^ 64) :
    nptm.AccessingRight gpa gpaStart pageCount bitmapSize ↔
      nptm.Serves gpa ∧ nptm.RangeServes gpaStart pageCount bitmapSize := by
  constructor
  · intro hright
    exact ⟨h.queryRight_iff.mp hright.query, (h.clears_iff hstart).mp hright.range⟩
  · rintro ⟨hserves, hrange⟩
    exact ⟨h.queryRight_iff.mpr hserves, (h.clears_iff hstart).mpr hrange⟩

end Range

theorem Wf.listsTables {nptm : SvmCustomNptManager} (hwf : nptm.Wf)
    (hcanonical : ∀ d ∈ nptm.pdpte, d.gpaStart < 2 ^ 48) : nptm.ListsTables where
  pdpteListed := hwf.pdpteListed
  pdeListed := hwf.pdeListed
  pteListed := hwf.pteListed
  canonical := hcanonical
  disjoint := hwf.tree.disjoint
  sound _ hlevel _ _ hframe := hwf.sound hlevel hframe

/-- The tables that the mapping calls build are listed. -/
theorem Tracks.listsTables {history : MapHistory} {nptm : SvmCustomNptManager}
    (h : Tracks history nptm) : nptm.ListsTables := by
  refine h.wf.listsTables fun d hd => ?_
  have hframe : nptm.described 2 (d.gpaStart / page512gbSize) = some d.frame :=
    h.wf.pdpteListed.frame_of_mem (by decide) hd
  rw [← h.complete 2 (Nat.le_refl 2)] at hframe
  obtain ⟨root, hroot, -⟩ := Radix.reach_succ_eq_some.mp hframe
  rw [Radix.reach_zero] at hroot
  split at hroot
  · unfold page512gbSize at *
    omega
  · cases hroot

theorem afterFirstPage_listsTables : afterFirstPage.ListsTables :=
  firstPage_mapped.tracks.listsTables

theorem afterFirstPage_accessingRight :
    afterFirstPage.AccessingRight firstPage.gpa firstPage.gpa 1 1 := by
  have hserves : afterFirstPage.Serves firstPage.gpa := fun _ _ _ _ _ _ => ⟨_, rfl, by decide⟩
  refine (accessingRight_iff afterFirstPage_listsTables (by decide)).mpr ⟨hserves, fun _ _ => ?_⟩
  refine ⟨fun i hi => ?_, by decide, by decide⟩
  obtain rfl : i = 0 := by omega
  exact hserves

/-- The query of a page that is not mapped, next to the only one that is, never returns. -/
theorem not_forall_accessingRight :
    ¬∀ (nptm : SvmCustomNptManager) (gpa gpaStart pageCount bitmapSize : Nat),
      nptm.ListsTables → gpaStart < 2 ^ 64 →
        nptm.AccessingRight gpa gpaStart pageCount bitmapSize := by
  intro h
  obtain ⟨fuel, hquery⟩ :=
    (h afterFirstPage 0x200000 0 0 0 afterFirstPage_listsTables (by decide)).query
  have hserves := afterFirstPage_listsTables.serves_of_query hquery
  obtain ⟨pdeP, hhead, hlocate⟩ := hserves (by decide)
    (afterFirstPage.pdpte.head (by decide)) (List.head_mem _) (by decide) (by decide) (by decide)
  rw [Option.mem_unique hhead (Option.mem_some_self (afterFirstPage.pde.head (by decide)))] at hlocate
  exact absurd hlocate (by decide)

end SvmCustomNptManager

end NoirVisor
