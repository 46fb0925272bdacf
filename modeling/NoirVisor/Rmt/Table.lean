import Mathlib.Logic.Function.Basic
import NoirVisor.Platform

/-!
# The reverse mapping table

For every page of physical memory the table records who owns it and which guest page it backs. The
directory lists the ranges of physical memory, each with a table of its pages
(`xpf_core/noirhvm.c`).
-/

namespace NoirVisor

def noirNsvRmtSubvertedHost : UInt8 := 0x00
def noirNsvRmtNoirvisor : UInt8 := 0x01
def noirNsvRmtInsecureGuest : UInt8 := 0x02
def noirNsvRmtSecureGuest : UInt8 := 0x03

/-- `noir_rmt_entry`. Its reserved bits are always cleared. -/
structure NoirRmtEntry where
  asid : Nat := 0
  shared : Bool := false
  ownership : UInt8 := noirNsvRmtSubvertedHost
  guestPfn : Nat := 0
deriving DecidableEq

structure NoirRmtDirectoryEntry where
  table : Nat := 0
  hpaStart : Nat := 0
  hpaEnd : Nat := 0
deriving DecidableEq

/-- The directory, one page long, and the entry of each page by its place: the range in the
directory and the page in the range. -/
structure ReverseMappingDirectory where
  directory : List NoirRmtDirectoryEntry
  entry : Nat × Nat → NoirRmtEntry

namespace ReverseMappingDirectory

/-- The number of directory entries in a page. -/
def capacity : Nat := 0x1000 / 32

/-- `rmt_dir[mid]`. The directory page was zeroed, and is read past the entries in use. -/
def read (rmd : ReverseMappingDirectory) (mid : Nat) : Outcome NoirRmtDirectoryEntry :=
  if mid < capacity then .ok (rmd.directory.getD mid {}) else .error .outOfBounds

/-- The binary search all functions make for the entry of a page. -/
def search (rmd : ReverseMappingDirectory) (hpa : Nat) :
    (fuel lo hi : Nat) → Outcome (Option (Nat × Nat))
  | 0, _, _ => .error .outOfFuel
  | fuel + 1, lo, hi =>
      if hi < lo then
        return none
      else do
        let mid := (hi + lo) / 2
        let range ← rmd.read mid
        if hpa < range.hpaStart then
          -- `mid - 1` wraps when `mid` is 0, and `rmt_dir` is read far outside its page next.
          if mid = 0 then .error .outOfBounds else rmd.search hpa fuel lo (mid - 1)
        else if range.hpaEnd ≤ hpa then
          rmd.search hpa fuel (mid + 1) hi
        else
          let i := page4kbCount (hpa - range.hpaStart)
          if i < page4kbCount (range.hpaEnd - range.hpaStart) then
            return some (mid, i)
          else
            .error .outOfBounds

/-- The place of the entry of a page, if the page is in one of the ranges. -/
def locate (rmd : ReverseMappingDirectory) (hpa : Nat) : Outcome (Option (Nat × Nat)) :=
  rmd.search hpa (rmd.directory.length + 2) 0 rmd.directory.length

/-- The search reads the directory only. -/
theorem locate_congr {rmd rmd' : ReverseMappingDirectory} (h : rmd'.directory = rmd.directory)
    (hpa : Nat) : rmd'.locate hpa = rmd.locate hpa := by
  obtain ⟨directory, entry⟩ := rmd
  obtain ⟨directory', entry'⟩ := rmd'
  subst h
  have hsearch : ∀ fuel lo hi, search ⟨directory', entry'⟩ hpa fuel lo hi =
      search ⟨directory', entry⟩ hpa fuel lo hi := by
    intro fuel
    induction fuel with
    | zero => intros; rfl
    | succ fuel ih =>
        intro lo hi
        simp only [search, ih]
        rfl
  exact hsearch _ _ _

end ReverseMappingDirectory

open ReverseMappingDirectory

/-- The entry `nvc_configure_reverse_mapping` writes. -/
def configuredEntry (gpa asid : Nat) (shared : Bool) (ownership : UInt8) : NoirRmtEntry where
  asid := asid
  shared := shared
  ownership := ownership
  guestPfn := page4kbCount gpa

def nvcConfigureReverseMapping (rmd : ReverseMappingDirectory) (hpa gpa asid : Nat) (shared : Bool)
    (ownership : UInt8) : Outcome ReverseMappingDirectory := do
  match ← rmd.locate hpa with
  | none => return rmd
  | some place =>
      return { rmd with
        entry := Function.update rmd.entry place (configuredEntry gpa asid shared ownership) }

def nvcValidateSingleRmtReassignment (rmd : ReverseMappingDirectory) (hpa : Nat) (shared : Bool)
    (ownership : UInt8) : Outcome Bool := do
  match ← rmd.locate hpa with
  -- This HPA is not pointing to physical RAM.
  | none => return false
  | some place =>
      if (rmd.entry place).ownership = noirNsvRmtNoirvisor then
        return false
      else if (rmd.entry place).ownership = noirNsvRmtSecureGuest ∧
          ownership = noirNsvRmtSecureGuest then
        return false
      else if ownership = noirNsvRmtSecureGuest ∧ shared = true then
        return false
      else
        return true

def nvcValidateRmtReassignment (rmd : ReverseMappingDirectory) (shared : Bool)
    (ownership : UInt8) : List (Nat × Nat) → Outcome Bool
  | [] => return true
  | (hpa, _) :: pages => do
      let result ← nvcValidateSingleRmtReassignment rmd hpa shared ownership
      if result then nvcValidateRmtReassignment rmd shared ownership pages else return false

def nvcGetRmtEntry (rmd : ReverseMappingDirectory) (hpa : Nat) : Outcome (Option NoirRmtEntry) := do
  match ← rmd.locate hpa with
  | none => return none
  | some place => return some (rmd.entry place)

/-- `noir_rmt_reassignment_context`: pages as pairs of host and guest address. -/
structure NoirRmtReassignmentContext where
  pages : List (Nat × Nat)
  asid : Nat
  shared : Bool
  ownership : UInt8

def NoirRmtReassignmentContext.configure (context : NoirRmtReassignmentContext)
    (rmd : ReverseMappingDirectory) (page : Nat × Nat) : Outcome ReverseMappingDirectory :=
  nvcConfigureReverseMapping rmd page.1 page.2 context.asid context.shared context.ownership

/-- The `noir_svm_nsv_reassign_rmt` hypercall, its caller authorized. -/
def noirSvmNsvReassignRmt (rmd : ReverseMappingDirectory) (context : NoirRmtReassignmentContext) :
    Outcome (Bool × ReverseMappingDirectory) := do
  let result ← nvcValidateRmtReassignment rmd context.shared context.ownership context.pages
  -- If validation fails, do not reconfigure the reverse mapping.
  if result then
    let rmd ← context.pages.foldlM context.configure rmd
    return (true, rmd)
  else
    return (false, rmd)

/-- A new range of physical memory, its pages all the host's. -/
def nvcEnumPhysicalRangeCallback (rmd : ReverseMappingDirectory) (range : Nat × Nat × Nat) :
    Outcome ReverseMappingDirectory :=
  let (table, start, length) := range
  let index := rmd.directory.length
  if index < capacity then
    .ok
      { directory := rmd.directory ++ [{ table, hpaStart := start, hpaEnd := start + length }]
        entry := fun place =>
          if place.1 = index ∧ place.2 < page4kbCount length then
            { asid := 1
              shared := false
              ownership := noirNsvRmtSubvertedHost
              guestPfn := page4kbCount (page4kbMult place.2 + start) }
          else rmd.entry place }
  else
    .error .outOfBounds

/-- The table for the ranges of physical memory, each with the address its table was allocated at. -/
def nvcBuildReverseMappingTable (ranges : List (Nat × Nat × Nat)) :
    Outcome ReverseMappingDirectory :=
  ranges.foldlM nvcEnumPhysicalRangeCallback { directory := [], entry := fun _ => {} }

end NoirVisor
