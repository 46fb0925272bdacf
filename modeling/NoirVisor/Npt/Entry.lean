import NoirVisor.Radix.Walk
import NoirVisor.Platform

/-!
# Nested paging entries

One 64-bit word serves as a table entry, as a large or huge page entry and as a page entry. The
fields below are those of `amd64_npt_general_entry`, the finest division the formats share; the
fields of the other formats are views of them. Bits 12 to 51 are `base`: a large entry keeps its
page number in the high 31 of these bits and a huge entry in the high 22, below which the PAT bit
(bit 12) and reserved bits stand.
-/

namespace NoirVisor

structure NptEntry where
  present : Bool := false
  write : Bool := false
  user : Bool := false
  pwt : Bool := false
  pcd : Bool := false
  accessed : Bool := false
  dirty : Bool := false
  psize : Bool := false
  global : Bool := false
  reserved1 : Nat := 0
  base : Nat := 0
  reserved2 : Nat := 0
  noExecute : Bool := false
deriving DecidableEq, Repr

namespace NptEntry

/-- `reserved1` of the table formats, bits 6 to 11. -/
def clearReserved1 (entry : NptEntry) : NptEntry :=
  { entry with dirty := false, psize := false, global := false, reserved1 := 0 }

/-- `pdpte_base`, `pde_base`, `pte_base` and the `page_base` of a page entry, bits 12 to 51. -/
def setBase (entry : NptEntry) (count : Nat) : NptEntry :=
  { entry with base := count % 2 ^ 40 }

/-- `page_base` of a large entry, bits 21 to 51. -/
def setLargePageBase (entry : NptEntry) (count : Nat) : NptEntry :=
  { entry with base := count % 2 ^ 31 * 2 ^ 9 + entry.base % 2 ^ 9 }

/-- `page_base` of a huge entry, bits 30 to 51. -/
def setHugePageBase (entry : NptEntry) (count : Nat) : NptEntry :=
  { entry with base := count % 2 ^ 22 * 2 ^ 18 + entry.base % 2 ^ 18 }

def setPermission (entry : NptEntry) (r w x : Bool) : NptEntry :=
  { entry with present := r, write := w, noExecute := !x }

/-- The entry made to point to a table, its permissions kept. -/
def toTable (entry : NptEntry) (phys : Nat) : NptEntry :=
  entry.clearReserved1.setBase (page4kbCount phys)

def largePageBase (entry : NptEntry) : Nat := entry.base / 2 ^ 9

def hugePageBase (entry : NptEntry) : Nat := entry.base / 2 ^ 18

/-- The page an entry maps when the walk ends at it, by level. -/
def pageBase (level : Nat) (entry : NptEntry) : Nat := entry.base / 2 ^ (9 * level)

/-- The bits the formats declare reserved are zero. Below the page number of a large or huge entry
these are the bits from 13 on. -/
def ReservedClear (level : Nat) (entry : NptEntry) : Prop :=
  entry.reserved1 = 0 ∧ entry.reserved2 = 0 ∧
    if level = 0 then True
    else if level < 3 ∧ entry.psize = true then entry.base % 2 ^ (9 * level) / 2 = 0
    else entry.dirty = false ∧ entry.psize = false ∧ entry.global = false

instance (level : Nat) (entry : NptEntry) : Decidable (entry.ReservedClear level) := by
  unfold ReservedClear
  infer_instance

end NptEntry

/-- The walk ends early at a large or huge entry; the top level has none. -/
def nptFormat : Radix.Format NptEntry where
  present entry := entry.present
  leaf level entry := decide (level < 3) && entry.psize
  child entry := entry.base

/-- What the processor makes of an address: the host address and what it may do there. -/
structure NptView where
  hpa : Nat
  write : Bool
  user : Bool
  execute : Bool
deriving DecidableEq, Repr

/-- The host address a leaf gives to an address of its page. -/
def leafTarget (walk : Radix.Walk NptEntry) (address : Nat) : Nat :=
  walk.leaf.pageBase walk.level * 2 ^ (12 + 9 * walk.level) + address % 2 ^ (12 + 9 * walk.level)

/-- A right is effective when every entry on the walk grants it. -/
def nptViewOf (walk : Radix.Walk NptEntry) (address : Nat) : Option NptView :=
  if walk.entries.all (·.present) then
    some
      { hpa := leafTarget walk address
        write := walk.entries.all (·.write)
        user := walk.entries.all (·.user)
        execute := walk.entries.all (!·.noExecute) }
  else
    none

end NoirVisor
