import NoirVisor.Platform
import NoirVisor.Search
import NoirVisor.Transition
import Mathlib.Data.Int.DivMod
import Mathlib.Data.List.Pairwise
import Mathlib.Logic.Function.Basic

/-!
# Stealth hooks on VT

A hooked page is executed from its hook and read and written in the original. The entry of the page in
the extended page table is switched at every violation. An instruction that accesses the page it is in
gets the original for one step.
-/

namespace NoirVisor

open Transition

/-- The hypervisor finds out whether an instruction is in a page by its linear address. -/
structure HookPage where
  origPhys : Nat
  origVirt : BitVec 64
  hookPhys : Nat
deriving DecidableEq

/-- `ia32_ept_pte`. -/
structure HookPte where
  read : Bool
  write : Bool
  execute : Bool
  pageOffset : Nat
deriving DecidableEq

/-- `ia32_ept_violation_qualification`, with the address. -/
structure EptViolation where
  gpa : Nat
  read : Bool
  write : Bool
  execute : Bool

def pageBase (address : BitVec 64) : BitVec 64 := address &&& ~~~0xFFF

namespace HookPage

variable (nhp : HookPage)

def Has (gpa : Nat) : Prop := nhp.origPhys ≤ gpa ∧ gpa < nhp.origPhys + page4kbSize

/-- The page that the entry is for. -/
def number : Nat := nhp.origPhys / page4kbSize

def hooked : HookPte := ⟨false, false, true, nhp.hookPhys / page4kbSize⟩

def accessed : HookPte := ⟨true, true, false, nhp.origPhys / page4kbSize⟩

def stepped : HookPte := ⟨true, true, true, nhp.origPhys / page4kbSize⟩

def compareGpa (gpa : Nat) : Ordering :=
  if nhp.origPhys + page4kbSize ≤ gpa then .gt else if gpa < nhp.origPhys then .lt else .eq

end HookPage

/-- The part of `noir_ept_manager` for hooks. The page table is given by its last level. -/
structure HookEptManager where
  hookPages : List HookPage
  pte : Nat → HookPte
  pendingHookIndex : Nat

/-- `faulted` tells that the hypervisor has written through a null pointer. -/
structure HookVcpu where
  eptManager : HookEptManager
  monitorTrapFlag : Bool
  guestRip : BitVec 64
  faulted : Bool

/-- The array has room for one more page, and that is zero. -/
def hookPageAt (pages : List HookPage) (i : Int) : Option HookPage :=
  if i < 0 ∨ pages.length < i then none else some (pages.getD i.toNat ⟨0, 0, 0⟩)

def i32 (x : Int) : Int := x.bmod (2 ^ 32)

def searchHookPage (pages : List HookPage) (gpa : Nat) : Search.Outcome :=
  Search.loop i32 (fun i => (hookPageAt pages i).map (HookPage.compareGpa · gpa)) (2 + pages.length) 0
    (i32 pages.length)

/-- `nvc_ept_insert_pte`. -/
def nvcEptInsertPte (pages : List HookPage) (pte : Nat → HookPte) : Nat → HookPte :=
  pages.foldl (fun pte nhp => Function.update pte nhp.number nhp.hooked) pte

namespace HookVcpu

variable (vcpu : HookVcpu)

def hookPages : List HookPage := vcpu.eptManager.hookPages

def pte (nhp : HookPage) : HookPte := vcpu.eptManager.pte nhp.number

def setPte (nhp : HookPage) (entry : HookPte) : HookVcpu :=
  { vcpu with
    eptManager := { vcpu.eptManager with
      pte := Function.update vcpu.eptManager.pte nhp.number entry } }

def advance (length : BitVec 64) : HookVcpu := { vcpu with guestRip := vcpu.guestRip + length }

/-- The page that was found gets another entry. -/
def substitute (index : Nat) (nhp : HookPage) (info : EptViolation) : HookVcpu :=
  if info.read || info.write then
    if pageBase vcpu.guestRip = nhp.origVirt then
      let vcpu := vcpu.setPte nhp nhp.stepped
      { vcpu with
        monitorTrapFlag := true
        eptManager := { vcpu.eptManager with pendingHookIndex := index } }
    else vcpu.setPte nhp nhp.accessed
  else if info.execute then vcpu.setPte nhp nhp.hooked
  else vcpu

/-- A violation outside the hooked pages is for an MMIO region, or is ignored, and the instruction is
skipped. -/
def nvcVtEptViolationHandler (info : EptViolation) (length : BitVec 64) : HookVcpu :=
  match searchHookPage vcpu.hookPages info.gpa with
  | .found i =>
      match vcpu.hookPages[i.toNat]? with
      | some nhp => vcpu.substitute i.toNat nhp info
      -- The page after the last has no entry.
      | none => { vcpu with faulted := true }
  | .absent => vcpu.advance length
  | _ => { vcpu with faulted := true }

def nvcVtMonitorTrapFlagHandler : HookVcpu :=
  match vcpu.hookPages[vcpu.eptManager.pendingHookIndex]? with
  | some nhp =>
      { vcpu.setPte nhp { vcpu.pte nhp with
          read := false, write := false, pageOffset := nhp.hookPhys / page4kbSize } with
        monitorTrapFlag := false }
  | none => { vcpu with faulted := true }

end HookVcpu

/-- What a vCPU does. An instruction is fetched from the pages of `code`, and it or an event that is
delivered leaves the guest at `rip`. -/
inductive HookEvent where
  | executes (code : List Nat) (rip : BitVec 64)
  | delivers (rip : BitVec 64)
  | violation (info : EptViolation) (length : BitVec 64)
  | monitorTrap

/-- `trapPending` tells that a monitor trap comes next, and `steppedRip` is where the instruction is
that is stepped over. -/
structure HookRun where
  vcpu : HookVcpu
  trapPending : Bool
  steppedRip : BitVec 64

namespace HookRun

variable (r : HookRun)

/-- The guest goes on at `rip`. -/
def goOn (rip : BitVec 64) : HookRun :=
  { r with vcpu := { r.vcpu with guestRip := rip }, trapPending := r.vcpu.monitorTrapFlag }

def next : HookEvent → HookRun
  | .executes _ rip => r.goOn rip
  | .delivers rip => r.goOn rip
  | .violation info length =>
      let vcpu := r.vcpu.nvcVtEptViolationHandler info length
      { r with
        vcpu
        steppedRip := if r.vcpu.monitorTrapFlag then r.steppedRip else r.vcpu.guestRip }
  | .monitorTrap => { r with vcpu := r.vcpu.nvcVtMonitorTrapFlagHandler, trapPending := false }

/-- A page table does not permit the access. -/
def Denies (entry : HookPte) (info : EptViolation) : Prop :=
  (info.read = true ∧ entry.read = false) ∨ (info.write = true ∧ entry.write = false) ∨
    (info.execute = true ∧ entry.execute = false)

/-- A monitor trap follows the instruction that is stepped over, or an event in its place. -/
def Takes : HookEvent → Prop
  | .executes code _ => r.trapPending = false ∧
      ∀ gpa ∈ code, (r.vcpu.eptManager.pte (gpa / page4kbSize)).execute = true
  | .delivers _ => r.trapPending = false
  | .violation info _ => r.trapPending = false ∧
      Denies (r.vcpu.eptManager.pte (info.gpa / page4kbSize)) info
  | .monitorTrap => r.trapPending = true

/-- Each entry is in one of three states. -/
def EntryState (vcpu : HookVcpu) (i : Nat) (nhp : HookPage) : Prop :=
  vcpu.pte nhp = nhp.hooked ∨ vcpu.pte nhp = nhp.accessed ∨
    (vcpu.pte nhp = nhp.stepped ∧ vcpu.eptManager.pendingHookIndex = i ∧ vcpu.monitorTrapFlag = true)

/-- The search ends, and an index that it finds is one of a hook page. -/
def SearchEnds (pages : List HookPage) (gpa : Nat) : Prop :=
  (∃ i : Nat, searchHookPage pages gpa = .found i ∧ i < pages.length) ∨
    searchHookPage pages gpa = .absent

/-- What is to hold of a step. Only the instruction that is stepped over is not from the hook. -/
structure Behaves (e : HookEvent) : Prop where
  entries : ∀ (i : Nat) nhp, (r.next e).vcpu.hookPages[i]? = some nhp → EntryState (r.next e).vcpu i nhp
  search : ∀ info length, e = .violation info length →
    SearchEnds r.vcpu.hookPages info.gpa
  bytes : ∀ code rip, e = .executes code rip → ∀ gpa ∈ code, ∀ (i : Nat) nhp,
    r.vcpu.hookPages[i]? = some nhp → nhp.Has gpa →
      (r.vcpu.pte nhp).pageOffset = nhp.hookPhys / page4kbSize ∨
        (r.vcpu.monitorTrapFlag = true ∧ r.vcpu.eptManager.pendingHookIndex = i ∧
          r.vcpu.guestRip = r.steppedRip)

/-- Nothing but the hooked pages is violated while an instruction is stepped over. Without hook pages
the first page is not violated, and the indices do not overflow. -/
def Fits : HookEvent → Prop
  | .violation info _ =>
      ((∀ nhp ∈ r.vcpu.hookPages, ¬nhp.Has info.gpa) → r.vcpu.monitorTrapFlag = false) ∧
        (r.vcpu.hookPages = [] → page4kbSize ≤ info.gpa) ∧ r.vcpu.hookPages.length < 2 ^ 30
  | _ => True

/-- The pages are aligned and sorted, and no two are at the same linear address. -/
structure Listed (pages : List HookPage) : Prop where
  aligned : ∀ nhp ∈ pages, page4kbSize ∣ nhp.origPhys
  sorted : pages.Pairwise (·.origPhys < ·.origPhys)
  virt : pages.Pairwise (·.origVirt ≠ ·.origVirt)

/-- The entries were inserted. -/
structure Start : Prop where
  listed : Listed r.vcpu.hookPages
  inserted : ∃ pte, r.vcpu.eptManager.pte = nvcEptInsertPte r.vcpu.hookPages pte
  monitorTrapFlag : r.vcpu.monitorTrapFlag = false
  trapPending : r.trapPending = false

end HookRun

/-! ## The search -/

section Search

variable {pages : List HookPage} {a b nhp : HookPage} {gpa i j : Nat}

namespace HookRun.Listed

theorem lt (h : Listed pages) (ha : pages[i]? = some a) (hb : pages[j]? = some b) (hij : i < j) :
    a.origPhys < b.origPhys := by
  obtain ⟨hi, rfl⟩ := List.getElem?_eq_some_iff.mp ha
  obtain ⟨hj, rfl⟩ := List.getElem?_eq_some_iff.mp hb
  exact List.pairwise_iff_getElem.mp h.sorted i j hi hj hij

theorem le (h : Listed pages) (ha : pages[i]? = some a) (hb : pages[j]? = some b) (hij : i ≤ j) :
    a.origPhys ≤ b.origPhys := by
  rcases Nat.lt_or_eq_of_le hij with hlt | rfl
  · exact Nat.le_of_lt (h.lt ha hb hlt)
  · rw [Option.some.inj (ha.symm.trans hb)]

theorem number_ne (h : Listed pages) (ha : pages[i]? = some a) (hb : pages[j]? = some b)
    (hij : i ≠ j) : a.number ≠ b.number := by
  obtain ⟨m, hm⟩ := h.aligned a (List.mem_of_getElem? ha)
  obtain ⟨n, hn⟩ := h.aligned b (List.mem_of_getElem? hb)
  have hne : a.origPhys ≠ b.origPhys := by
    rcases Nat.lt_or_gt_of_ne hij with hlt | hgt
    · exact Nat.ne_of_lt (h.lt ha hb hlt)
    · exact Nat.ne_of_gt (h.lt hb ha hgt)
  intro hnumber
  apply hne
  have hpos : 0 < page4kbSize := by decide
  unfold HookPage.number at hnumber
  rw [hm, hn, Nat.mul_div_cancel_left _ hpos, Nat.mul_div_cancel_left _ hpos] at hnumber
  rw [hm, hn, hnumber]

theorem virt_inj (h : Listed pages) (ha : pages[i]? = some a) (hb : pages[j]? = some b)
    (hvirt : a.origVirt = b.origVirt) : i = j := by
  obtain ⟨hi, rfl⟩ := List.getElem?_eq_some_iff.mp ha
  obtain ⟨hj, rfl⟩ := List.getElem?_eq_some_iff.mp hb
  by_contra hij
  rcases Nat.lt_or_gt_of_ne hij with hlt | hgt
  · exact List.pairwise_iff_getElem.mp h.virt i j hi hj hlt hvirt
  · exact List.pairwise_iff_getElem.mp h.virt j i hj hi hgt hvirt.symm

/-- The address is in the page that its entry is for. -/
theorem number_of_has (h : Listed pages) (ha : pages[i]? = some a) (hgpa : a.Has gpa) :
    gpa / page4kbSize = a.number := by
  obtain ⟨m, hm⟩ := h.aligned a (List.mem_of_getElem? ha)
  obtain ⟨hlower, hupper⟩ := hgpa
  have hpos : 0 < page4kbSize := by decide
  unfold HookPage.number
  rw [hm] at hlower hupper ⊢
  rw [Nat.mul_div_cancel_left _ hpos, Nat.div_eq_iff hpos]
  constructor
  · rw [Nat.mul_comm]
    exact hlower
  · rw [Nat.mul_comm m]
    omega

end HookRun.Listed

theorem HookPage.compareGpa_eq_gt : nhp.compareGpa gpa = .gt ↔ nhp.origPhys + page4kbSize ≤ gpa := by
  unfold HookPage.compareGpa
  split
  case isTrue h => exact iff_of_true rfl h
  case isFalse h =>
    refine iff_of_false ?_ h
    split <;> exact nofun

theorem HookPage.compareGpa_eq_lt : nhp.compareGpa gpa = .lt ↔ gpa < nhp.origPhys := by
  unfold HookPage.compareGpa
  split
  case isTrue h => exact iff_of_false nofun (by omega)
  case isFalse =>
    split
    case isTrue h => exact iff_of_true rfl h
    case isFalse h => exact iff_of_false nofun h

theorem HookPage.compareGpa_eq_eq : nhp.compareGpa gpa = .eq ↔ nhp.Has gpa := by
  unfold HookPage.compareGpa HookPage.Has
  split
  case isTrue h => exact iff_of_false nofun (by omega)
  case isFalse h =>
    split
    case isTrue hlt => exact iff_of_false nofun (by omega)
    case isFalse hge => exact iff_of_true rfl (by omega)

/-- What the search sees at an index. -/
def probeHookPage (pages : List HookPage) (gpa : Nat) (i : Int) : Option Ordering :=
  (hookPageAt pages i).map (HookPage.compareGpa · gpa)

theorem probe_of_getElem? (h : pages[i]? = some nhp) :
    probeHookPage pages gpa i = some (nhp.compareGpa gpa) := by
  obtain ⟨hi, hnhp⟩ := List.getElem?_eq_some_iff.mp h
  unfold probeHookPage hookPageAt
  rw [if_neg (by omega), Int.toNat_natCast, List.getD_eq_getElem?_getD, h]
  rfl

theorem probe_length :
    probeHookPage pages gpa pages.length = some (HookPage.compareGpa ⟨0, 0, 0⟩ gpa) := by
  unfold probeHookPage hookPageAt
  rw [if_neg (by omega), Int.toNat_natCast, List.getD_eq_getElem?_getD,
    List.getElem?_eq_none (Nat.le_refl _)]
  rfl

theorem exists_page (pages : List HookPage) {k : Int} (hk : 0 ≤ k) (hlt : k < pages.length) :
    ∃ i : Nat, k = i ∧ ∃ nhp, pages[i]? = some nhp := by
  have hlength : k.toNat < pages.length := by omega
  exact ⟨k.toNat, (Int.toNat_of_nonneg hk).symm, _, List.getElem?_eq_getElem hlength⟩

/-- The inclusive bound does no harm, but for the first page where there are no hooks. -/
theorem probe_ordered (h : HookRun.Listed pages) (hempty : pages = [] → page4kbSize ≤ gpa) :
    Search.Ordered pages.length (probeHookPage pages gpa) where
  inside k hk hle := by
    by_cases hlt : k < pages.length
    · obtain ⟨i, rfl, nhp, hnhp⟩ := exists_page pages hk hlt
      rw [probe_of_getElem? hnhp]
      exact nofun
    · rw [show k = pages.length by omega, probe_length]
      exact nofun
  below k l hk hkl hlt hprobe := by
    obtain ⟨i, rfl, a, ha⟩ := exists_page pages hk (by omega)
    obtain ⟨j, rfl, b, hb⟩ := exists_page pages (by omega) hlt
    rw [probe_of_getElem? ha, Option.some.injEq, HookPage.compareGpa_eq_lt] at hprobe
    rw [probe_of_getElem? hb, Option.some.injEq, HookPage.compareGpa_eq_lt]
    exact Nat.lt_of_lt_of_le hprobe (h.le ha hb (by omega))
  above k l hl hlk hlt hprobe := by
    obtain ⟨i, rfl, a, ha⟩ := exists_page pages (by omega) hlt
    obtain ⟨j, rfl, b, hb⟩ := exists_page pages hl (by omega)
    have hle := h.le hb ha (by omega)
    rw [probe_of_getElem? ha, Option.some.injEq, HookPage.compareGpa_eq_gt] at hprobe
    rw [probe_of_getElem? hb, Option.some.injEq, HookPage.compareGpa_eq_gt]
    omega
  last hall := by
    have hgpa : page4kbSize ≤ gpa := by
      by_cases hnil : pages = []
      · exact hempty hnil
      · have hpos := List.length_pos_iff.mpr hnil
        obtain ⟨i, hi, nhp, hnhp⟩ := exists_page pages (Int.le_refl 0) (Int.natCast_pos.mpr hpos)
        have hfirst := hall 0 (Int.le_refl 0) (Int.natCast_pos.mpr hpos)
        rw [hi, probe_of_getElem? hnhp, Option.some.injEq, HookPage.compareGpa_eq_gt] at hfirst
        omega
    rw [probe_length, Option.some.injEq, HookPage.compareGpa_eq_gt]
    change 0 + page4kbSize ≤ gpa
    rw [Nat.zero_add]
    exact hgpa

theorem i32_of_small {x : Int} (hlower : -2 ^ 31 ≤ x) (hupper : x < 2 ^ 31) : i32 x = x := by
  unfold i32
  exact Int.bmod_eq_of_le (by omega) (by omega)

/-- The search finds the hooked page of an address. -/
theorem searchHookPage_spec (h : HookRun.Listed pages) (hempty : pages = [] → page4kbSize ≤ gpa)
    (hlength : pages.length < 2 ^ 30) :
    (∃ (i : Nat) (nhp : HookPage), searchHookPage pages gpa = .found i ∧ pages[i]? = some nhp ∧
      nhp.Has gpa) ∨
    (searchHookPage pages gpa = .absent ∧ ∀ nhp ∈ pages, ¬nhp.Has gpa) := by
  have hwrap : ∀ x : Int, -1 ≤ x → x ≤ 2 * pages.length + 1 → i32 x = x :=
    fun x hlower hupper => i32_of_small (by omega) (by omega)
  have hbounds : Search.Bounds pages.length (probeHookPage pages gpa) 0 pages.length :=
    ⟨by omega, by omega, fun i hi hlt => by omega, fun i hlt _ hin => by omega⟩
  have hhigh : i32 pages.length = pages.length := hwrap _ (by omega) (by omega)
  have hsearch : searchHookPage pages gpa =
      Search.loop i32 (probeHookPage pages gpa) (2 + pages.length) 0 pages.length := by
    unfold searchHookPage
    rw [hhigh]
    rfl
  have hfuel : (pages.length : Int) - 0 + 2 ≤ (2 + pages.length : Nat) := by omega
  rw [hsearch]
  rcases Search.loop_spec (probe_ordered h hempty) hwrap hbounds hfuel (by omega) with
    ⟨k, hfound, hk, hlt, hprobe⟩ | ⟨habsent, hnone⟩
  · obtain ⟨i, rfl, nhp, hnhp⟩ := exists_page pages hk hlt
    rw [probe_of_getElem? hnhp, Option.some.injEq, HookPage.compareGpa_eq_eq] at hprobe
    exact .inl ⟨i, nhp, hfound, hnhp, hprobe⟩
  · refine .inr ⟨habsent, fun nhp hmem hhas => ?_⟩
    obtain ⟨i, hi⟩ := List.getElem?_of_mem hmem
    obtain ⟨hlt, -⟩ := List.getElem?_eq_some_iff.mp hi
    refine hnone i (by omega) (by omega) ?_
    rw [probe_of_getElem? hi, HookPage.compareGpa_eq_eq.mpr hhas]

end Search

/-! ## The entries -/

section

variable {pages : List HookPage} {pte : Nat → HookPte} {a b nhp : HookPage} {entry : HookPte}
  {info : EptViolation} {i j : Nat}

theorem nvcEptInsertPte_of_ne {n : Nat} (h : ∀ nhp ∈ pages, nhp.number ≠ n) :
    nvcEptInsertPte pages pte n = pte n := by
  induction pages generalizing pte with
  | nil => rfl
  | cons a pages ih =>
      change nvcEptInsertPte pages (Function.update pte a.number a.hooked) n = pte n
      rw [ih fun nhp hmem => h nhp (List.mem_cons_of_mem _ hmem)]
      exact Function.update_of_ne (h a List.mem_cons_self).symm _ _

theorem nvcEptInsertPte_number (h : pages.Pairwise (·.number ≠ ·.number)) (hmem : nhp ∈ pages) :
    nvcEptInsertPte pages pte nhp.number = nhp.hooked := by
  induction pages generalizing pte with
  | nil => exact absurd hmem List.not_mem_nil
  | cons a pages ih =>
      obtain ⟨hfirst, hrest⟩ := List.pairwise_cons.mp h
      change nvcEptInsertPte pages (Function.update pte a.number a.hooked) nhp.number = nhp.hooked
      rcases List.mem_cons.mp hmem with rfl | hmem
      · rw [nvcEptInsertPte_of_ne fun b hb => (hfirst b hb).symm]
        exact Function.update_self _ _ _
      · exact ih hrest hmem

theorem HookRun.Listed.numbers (h : Listed pages) : pages.Pairwise (·.number ≠ ·.number) := by
  rw [List.pairwise_iff_getElem]
  intro i j hi hj hij
  exact h.number_ne (List.getElem?_eq_getElem hi) (List.getElem?_eq_getElem hj) (Nat.ne_of_lt hij)

namespace HookVcpu

variable {vcpu : HookVcpu}

@[simp]
theorem setPte_pte : (vcpu.setPte nhp entry).pte nhp = entry := by
  unfold pte setPte
  dsimp only
  rw [Function.update_self]

theorem setPte_pte_of_ne (h : a.number ≠ nhp.number) :
    (vcpu.setPte nhp entry).pte a = vcpu.pte a := by
  unfold pte setPte
  dsimp only
  rw [Function.update_of_ne h]

/-- The search tells the hooked page from the other violations. -/
theorem nvcVtEptViolationHandler_spec {length : BitVec 64} (h : HookRun.Listed vcpu.hookPages)
    (hempty : vcpu.hookPages = [] → page4kbSize ≤ info.gpa)
    (hlength : vcpu.hookPages.length < 2 ^ 30) :
    (∃ (i : Nat) (nhp : HookPage), vcpu.hookPages[i]? = some nhp ∧ nhp.Has info.gpa ∧
      vcpu.nvcVtEptViolationHandler info length = vcpu.substitute i nhp info) ∨
    ((∀ nhp ∈ vcpu.hookPages, ¬nhp.Has info.gpa) ∧
      vcpu.nvcVtEptViolationHandler info length = vcpu.advance length) := by
  unfold nvcVtEptViolationHandler
  rcases searchHookPage_spec h hempty hlength with ⟨i, nhp, hfound, hnhp, hhas⟩ | ⟨habsent, hnone⟩
  · refine .inl ⟨i, nhp, hnhp, hhas, ?_⟩
    simp only [hfound, Int.toNat_natCast, hnhp]
  · refine .inr ⟨hnone, ?_⟩
    simp only [habsent]

end HookVcpu

namespace HookRun

variable {r : HookRun}

/-- The page that is stepped over is the one that is pending, and the instruction is in it until it
has been executed. -/
structure StepsOver (r : HookRun) : Prop where
  listed : Listed r.vcpu.hookPages
  entries : ∀ (i : Nat) nhp, r.vcpu.hookPages[i]? = some nhp → EntryState r.vcpu i nhp
  pending : r.vcpu.monitorTrapFlag = true →
    ∃ nhp, r.vcpu.hookPages[r.vcpu.eptManager.pendingHookIndex]? = some nhp ∧
      r.vcpu.pte nhp = nhp.stepped ∧ (r.trapPending = false →
        r.vcpu.guestRip = r.steppedRip ∧ pageBase r.vcpu.guestRip = nhp.origVirt)
  trap : r.trapPending = true → r.vcpu.monitorTrapFlag = true

theorem Start.stepsOver (h : Start r) : StepsOver r where
  listed := h.listed
  entries i nhp hnhp := by
    obtain ⟨pte, hpte⟩ := h.inserted
    left
    unfold HookVcpu.pte
    rw [hpte]
    exact nvcEptInsertPte_number h.listed.numbers (List.mem_of_getElem? hnhp)
  pending hflag := by
    rw [h.monitorTrapFlag] at hflag
    exact (nomatch hflag)
  trap htrap := by
    rw [h.trapPending] at htrap
    exact (nomatch htrap)

namespace StepsOver

/-- An entry that is not stepped over is read and written in the original or executed from the
hook. -/
theorem entry_of_not_pending (h : StepsOver r) (hnhp : r.vcpu.hookPages[i]? = some nhp)
    (hidle : r.vcpu.monitorTrapFlag = true → r.vcpu.eptManager.pendingHookIndex ≠ i) :
    r.vcpu.pte nhp = nhp.hooked ∨ r.vcpu.pte nhp = nhp.accessed := by
  rcases h.entries i nhp hnhp with hhooked | haccessed | ⟨-, hpending, hflag⟩
  · exact .inl hhooked
  · exact .inr haccessed
  · exact absurd hpending (hidle hflag)

theorem goOn (h : StepsOver r) (rip : BitVec 64) :
    StepsOver (r.goOn rip) where
  listed := h.listed
  entries := h.entries
  pending hflag := by
    obtain ⟨nhp, hnhp, hstepped, -⟩ := h.pending hflag
    refine ⟨nhp, hnhp, hstepped, fun hidle => ?_⟩
    have hset : r.vcpu.monitorTrapFlag = true := hflag
    change r.vcpu.monitorTrapFlag = false at hidle
    rw [hset] at hidle
    exact (nomatch hidle)
  trap hset := hset

/-- Another page than the pending one gets an entry that does not have the original executed. -/
theorem replace (h : StepsOver r) (hnhp : r.vcpu.hookPages[i]? = some nhp)
    (hentry : entry = nhp.hooked ∨ entry = nhp.accessed)
    (hother : r.vcpu.monitorTrapFlag = true → r.vcpu.eptManager.pendingHookIndex ≠ i)
    {rip : BitVec 64} (hrip : r.vcpu.monitorTrapFlag = true → rip = r.steppedRip) :
    StepsOver { r with vcpu := r.vcpu.setPte nhp entry, steppedRip := rip } where
  listed := h.listed
  entries j a ha := by
    by_cases hj : j = i
    · subst hj
      obtain rfl : a = nhp := Option.some.inj (ha.symm.trans hnhp)
      unfold EntryState
      rw [HookVcpu.setPte_pte]
      rcases hentry with hhooked | haccessed
      · exact .inl hhooked
      · exact .inr (.inl haccessed)
    · unfold EntryState
      rw [HookVcpu.setPte_pte_of_ne (h.listed.number_ne ha hnhp hj)]
      exact h.entries j a ha
  pending hflag := by
    obtain ⟨a, ha, hstepped, hidle⟩ := h.pending hflag
    refine ⟨a, ha, ?_, fun htrap => ?_⟩
    · rw [HookVcpu.setPte_pte_of_ne (h.listed.number_ne ha hnhp (hother hflag))]
      exact hstepped
    · obtain ⟨hsame, hpage⟩ := hidle htrap
      rw [hrip hflag]
      exact ⟨hsame, hpage⟩
  trap := h.trap

/-- The page of the instruction is stepped over. -/
theorem step (h : StepsOver r) (hidle : r.trapPending = false)
    (hnhp : r.vcpu.hookPages[i]? = some nhp) (hpage : pageBase r.vcpu.guestRip = nhp.origVirt)
    {rip : BitVec 64}
    (hrip : rip = if r.vcpu.monitorTrapFlag then r.steppedRip else r.vcpu.guestRip) :
    StepsOver { r with
      vcpu := { r.vcpu.setPte nhp nhp.stepped with
        monitorTrapFlag := true
        eptManager := { (r.vcpu.setPte nhp nhp.stepped).eptManager with pendingHookIndex := i } }
      steppedRip := rip } := by
  have hself : (r.vcpu.setPte nhp nhp.stepped).pte nhp = nhp.stepped := HookVcpu.setPte_pte
  have hpending : r.vcpu.monitorTrapFlag = true →
      r.vcpu.eptManager.pendingHookIndex = i ∧ r.vcpu.guestRip = r.steppedRip := by
    intro hflag
    obtain ⟨a, ha, -, hrest⟩ := h.pending hflag
    obtain ⟨hsame, hvirt⟩ := hrest hidle
    exact ⟨h.listed.virt_inj ha hnhp (hvirt.symm.trans hpage), hsame⟩
  have hsame : r.vcpu.guestRip = rip := by
    rw [hrip]
    split
    case isTrue hflag => exact (hpending hflag).2
    case isFalse => rfl
  refine ⟨h.listed, fun j a ha => ?_, fun _ => ⟨nhp, hnhp, hself, fun _ => ⟨hsame, hpage⟩⟩, fun _ => rfl⟩
  by_cases hj : j = i
  · subst hj
    obtain rfl : a = nhp := Option.some.inj (ha.symm.trans hnhp)
    exact .inr (.inr ⟨hself, rfl, rfl⟩)
  · have hsettled := h.entry_of_not_pending ha fun hflag heq => hj (heq.symm.trans (hpending hflag).1)
    have hkept : (r.vcpu.setPte nhp nhp.stepped).pte a = r.vcpu.pte a :=
      HookVcpu.setPte_pte_of_ne (h.listed.number_ne ha hnhp hj)
    rw [← hkept] at hsettled
    rcases hsettled with hhooked | haccessed
    · exact .inl hhooked
    · exact .inr (.inl haccessed)

/-- A violation of a hooked page. -/
theorem substitute (h : StepsOver r) (hidle : r.trapPending = false)
    (hnhp : r.vcpu.hookPages[i]? = some nhp) (hdenies : Denies (r.vcpu.pte nhp) info) :
    StepsOver { r with
      vcpu := r.vcpu.substitute i nhp info
      steppedRip := if r.vcpu.monitorTrapFlag then r.steppedRip else r.vcpu.guestRip } := by
  have hrip : r.vcpu.monitorTrapFlag = true →
      (if r.vcpu.monitorTrapFlag then r.steppedRip else r.vcpu.guestRip) = r.steppedRip :=
    fun hflag => if_pos hflag
  by_cases hdata : (info.read || info.write) = true
  · by_cases hpage : pageBase r.vcpu.guestRip = nhp.origVirt
    · unfold HookVcpu.substitute
      rw [if_pos hdata, if_pos hpage]
      exact h.step hidle hnhp hpage rfl
    · unfold HookVcpu.substitute
      rw [if_pos hdata, if_neg hpage]
      refine h.replace hnhp (.inr rfl) (fun hflag hpending => hpage ?_) hrip
      obtain ⟨a, ha, -, hrest⟩ := h.pending hflag
      rw [hpending, hnhp, Option.some.injEq] at ha
      subst ha
      exact (hrest hidle).2
  · rw [Bool.or_eq_true, not_or, Bool.not_eq_true, Bool.not_eq_true] at hdata
    rcases hdenies with ⟨hread, -⟩ | ⟨hwrite, -⟩ | ⟨hset, hdenied⟩
    · rw [hdata.1] at hread
      exact (nomatch hread)
    · rw [hdata.2] at hwrite
      exact (nomatch hwrite)
    · unfold HookVcpu.substitute
      rw [hdata.1, hdata.2, Bool.or_false, if_neg Bool.false_ne_true, if_pos hset]
      refine h.replace hnhp (.inl rfl) (fun hflag hpending => ?_) hrip
      -- The page that is stepped over may be executed.
      obtain ⟨a, ha, hstepped, -⟩ := h.pending hflag
      rw [hpending, hnhp, Option.some.injEq] at ha
      subst ha
      rw [hstepped] at hdenied
      exact (nomatch hdenied)

/-- The hook is back after the step. -/
theorem monitorTrap (h : StepsOver r) (htrap : r.trapPending = true) :
    StepsOver (r.next .monitorTrap) := by
  obtain ⟨nhp, hnhp, hstepped, -⟩ := h.pending (h.trap htrap)
  have hhandler : r.vcpu.nvcVtMonitorTrapFlagHandler =
      { r.vcpu.setPte nhp nhp.hooked with monitorTrapFlag := false } := by
    unfold HookVcpu.nvcVtMonitorTrapFlagHandler
    rw [hnhp]
    dsimp only
    rw [hstepped]
    rfl
  unfold HookRun.next
  rw [hhandler]
  refine ⟨h.listed, fun j a ha => ?_, nofun, nofun⟩
  by_cases hj : j = r.vcpu.eptManager.pendingHookIndex
  · subst hj
    obtain rfl : a = nhp := Option.some.inj (ha.symm.trans hnhp)
    exact .inl HookVcpu.setPte_pte
  · have hkept : (r.vcpu.setPte nhp nhp.hooked).pte a = r.vcpu.pte a :=
      HookVcpu.setPte_pte_of_ne (h.listed.number_ne ha hnhp hj)
    rcases h.entry_of_not_pending ha fun _ heq => hj heq.symm with hhooked | haccessed
    · exact .inl (hkept.trans hhooked)
    · exact .inr (.inl (hkept.trans haccessed))

end StepsOver

/-- A violation is handled without a search that goes wrong. -/
theorem StepsOver.violation {length : BitVec 64} (h : StepsOver r)
    (htakes : r.Takes (.violation info length)) (hfits : r.Fits (.violation info length)) :
    StepsOver (r.next (.violation info length)) := by
  obtain ⟨hidle, hdenies⟩ := htakes
  obtain ⟨hunhooked, hempty, hlength⟩ := hfits
  unfold HookRun.next
  dsimp only
  rcases HookVcpu.nvcVtEptViolationHandler_spec h.listed hempty hlength with
    ⟨i, nhp, hnhp, hhas, hhandler⟩ | ⟨hnone, hhandler⟩
  · rw [hhandler]
    rw [h.listed.number_of_has hnhp hhas] at hdenies
    exact h.substitute hidle hnhp hdenies
  · rw [hhandler]
    have hflag := hunhooked hnone
    refine ⟨h.listed, h.entries, fun hset => ?_, h.trap⟩
    have hset' : r.vcpu.monitorTrapFlag = true := hset
    rw [hflag] at hset'
    exact (nomatch hset')

theorem StepsOver.next (h : StepsOver r) (e : HookEvent) (htakes : r.Takes e) (hfits : r.Fits e) :
    StepsOver (r.next e) := by
  cases e with
  | executes code rip => exact h.goOn rip
  | delivers rip => exact h.goOn rip
  | violation info length => exact h.violation htakes hfits
  | monitorTrap => exact h.monitorTrap htakes

theorem searchEnds_of_fits {length : BitVec 64} (h : StepsOver r)
    (hfits : r.Fits (.violation info length)) : SearchEnds r.vcpu.hookPages info.gpa := by
  obtain ⟨-, hempty, hlength⟩ := hfits
  rcases searchHookPage_spec h.listed hempty hlength with ⟨i, nhp, hfound, hnhp, -⟩ | ⟨habsent, -⟩
  · obtain ⟨hi, -⟩ := List.getElem?_eq_some_iff.mp hnhp
    exact .inl ⟨i, hfound, hi⟩
  · exact .inr habsent

/-- The original is only executed by the instruction that is stepped over. -/
theorem StepsOver.bytes (h : StepsOver r) {code : List Nat} {rip : BitVec 64}
    (htakes : r.Takes (.executes code rip)) {gpa : Nat} (hgpa : gpa ∈ code)
    (hnhp : r.vcpu.hookPages[i]? = some nhp) (hhas : nhp.Has gpa) :
    (r.vcpu.pte nhp).pageOffset = nhp.hookPhys / page4kbSize ∨
      (r.vcpu.monitorTrapFlag = true ∧ r.vcpu.eptManager.pendingHookIndex = i ∧
        r.vcpu.guestRip = r.steppedRip) := by
  obtain ⟨hidle, hfetched⟩ := htakes
  have hexecute := hfetched gpa hgpa
  rw [h.listed.number_of_has hnhp hhas] at hexecute
  change (r.vcpu.pte nhp).execute = true at hexecute
  rcases h.entries i nhp hnhp with hhooked | haccessed | ⟨-, hpending, hflag⟩
  · left
    rw [hhooked]
    rfl
  · rw [haccessed] at hexecute
    exact (nomatch hexecute)
  · obtain ⟨a, -, -, hrest⟩ := h.pending hflag
    exact .inr ⟨hflag, hpending, (hrest hidle).1⟩

theorem StepsOver.behaves_step (h : StepsOver r) (e : HookEvent) (htakes : r.Takes e)
    (hfits : r.Fits e) : r.Behaves e where
  entries := (h.next e htakes hfits).entries
  search info length he := by
    subst he
    exact searchEnds_of_fits h hfits
  bytes code rip he gpa hgpa i nhp hnhp hhas := by
    subst he
    exact h.bytes htakes hgpa hnhp hhas

/-- Along every run without an unhooked violation in a step. -/
theorem behavesAlong_of_fits (r : HookRun) (events : List HookEvent) (hstart : Start r)
    (htakes : Along Takes next r events) (hfits : Along Fits next r events) :
    Along Behaves next r events :=
  along_of_invariant (I := StepsOver)
    (fun _ e h hboth => ⟨h.behaves_step e hboth.1 hboth.2, h.next e hboth.1 hboth.2⟩) hstart.stepsOver
    (along_and htakes hfits)

def firstHookPage : HookPage := ⟨0x5000, 0x10000, 0x9000⟩

def firstHookRun : HookRun where
  vcpu :=
    { eptManager :=
        { hookPages := [firstHookPage]
          pte := nvcEptInsertPte [firstHookPage] fun _ => ⟨false, false, false, 0⟩
          pendingHookIndex := 0 }
      monitorTrapFlag := false
      guestRip := 0x10020
      faulted := false }
  trapPending := false
  steppedRip := 0

theorem firstHookRun_start : Start firstHookRun where
  listed :=
    { aligned := List.forall_mem_singleton.mpr ⟨5, rfl⟩
      sorted := List.pairwise_singleton _ _
      virt := List.pairwise_singleton _ _ }
  inserted := ⟨_, rfl⟩
  monitorTrapFlag := rfl
  trapPending := rfl

/-- An instruction in the hooked page that reads it. -/
def readOfHook : HookEvent := .violation ⟨0x5800, true, false, false⟩ 3

theorem firstHookRun_behavesAlong :
    Along Behaves next firstHookRun
      [readOfHook, .executes [0x5020] 0x10023, .monitorTrap, .executes [0x5023] 0x10030] := by
  have hlength : 1 < 2 ^ 30 := by decide
  refine behavesAlong_of_fits _ _ firstHookRun_start ⟨⟨rfl, .inl ⟨rfl, rfl⟩⟩,
    ⟨rfl, List.forall_mem_singleton.mpr rfl⟩, rfl, ⟨rfl, List.forall_mem_singleton.mpr rfl⟩, trivial⟩
    ⟨⟨fun _ => rfl, nofun, hlength⟩, trivial, trivial, trivial, trivial⟩

/-- The instruction that is stepped over also writes to a page that is not hooked. It is skipped, and
the next one is executed in the original. -/
theorem not_forall_behavesAlong :
    ¬∀ (r : HookRun) (events : List HookEvent), Start r → Along Takes next r events →
      Along Behaves next r events := by
  intro h
  have hrun := h firstHookRun
    [readOfHook, .violation ⟨0xF0000, false, true, false⟩ 3, .executes [0x5023] 0x10026]
    firstHookRun_start ⟨⟨rfl, .inl ⟨rfl, rfl⟩⟩, ⟨rfl, .inr (.inl ⟨rfl, rfl⟩)⟩,
      ⟨rfl, List.forall_mem_singleton.mpr rfl⟩, trivial⟩
  obtain ⟨-, -, hlast, -⟩ := hrun
  have hbytes := hlast.bytes _ _ rfl 0x5023 List.mem_cons_self 0 firstHookPage rfl
    ⟨by decide, by decide⟩
  rcases hbytes with hhook | ⟨-, -, hrip⟩
  · exact absurd hhook (by decide)
  · exact absurd hrip (by decide)

end HookRun

end

end NoirVisor
