import Mathlib.Logic.Function.Basic
import NoirVisor.Custom.Manager

/-!
# The DMA remapping manager of VT-d

The second-stage tables that map the memory of the machine to itself for its devices
(`vt_core/vt_iommu.c`). The tables have three, four or five levels, after the address width the
units support; the top one is allocated with the manager and every other has a descriptor.
-/

namespace NoirVisor

/-- `intel_iommu_stage2_pml5e` to `intel_iommu_stage2_pte`, the fields the manager writes. Bit 7 is
`huge_page` or `large_page`. Bits 12 to 51 are `ptr`: a large entry keeps its page number in the high
31 of these bits and a huge entry in the high 22, above reserved bits. -/
structure Stage2Entry where
  read : Bool := false
  write : Bool := false
  execute : Bool := false
  page : Bool := false
  ptr : Nat := 0
deriving DecidableEq, Repr

namespace Stage2Entry

def setRights (entry : Stage2Entry) (r w x : Bool) : Stage2Entry :=
  { entry with read := r, write := w, execute := x }

def setPtr (entry : Stage2Entry) (count : Nat) : Stage2Entry :=
  { entry with ptr := count % 2 ^ 40 }

/-- `page_ptr` of a large entry, bits 21 to 51. -/
def setLargePagePtr (entry : Stage2Entry) (count : Nat) : Stage2Entry :=
  { entry with ptr := count % 2 ^ 31 * 2 ^ 9 + entry.ptr % 2 ^ 9 }

/-- `page_ptr` of a huge entry, bits 30 to 51. -/
def setHugePagePtr (entry : Stage2Entry) (count : Nat) : Stage2Entry :=
  { entry with ptr := count % 2 ^ 22 * 2 ^ 18 + entry.ptr % 2 ^ 18 }

/-- What is written to the PML5E or PML4E above a new table. -/
def toUpperTable (entry : Stage2Entry) (phys : Nat) : Stage2Entry :=
  (entry.setRights true true true).setPtr (page4kbCount phys)

/-- What is written to the PDPTE or PDE above a new table. -/
def toTable (entry : Stage2Entry) (phys : Nat) : Stage2Entry :=
  { entry.setRights true true true with page := false }.setPtr (page4kbCount phys)

def toHugePage (entry : Stage2Entry) (count : Nat) : Stage2Entry :=
  { entry.setRights true true true with page := true }.setHugePagePtr count

def toLargePage (entry : Stage2Entry) (count : Nat) : Stage2Entry :=
  { entry.setRights true true true with page := true }.setLargePagePtr count

def toPage (entry : Stage2Entry) (count : Nat) : Stage2Entry :=
  (entry.setRights true true true).setPtr count

end Stage2Entry

def page256tbCount (x : Nat) : Nat := x / 0x1000000000000
def page256tbBase (x : Nat) : Nat := x / 0x1000000000000 * 0x1000000000000
def page256tbSize : Nat := 0x1000000000000

def pml5eOffset (gpa : Nat) : Nat := pageEntryIndex64 (page256tbCount gpa)

/-- `intel_iommu_context_agaw_39_bit` and so on. -/
inductive Agaw where
  | bit39
  | bit48
  | bit57
deriving DecidableEq, Repr

/-- `noir_dmar_manager`, with the frames its tables are in, the bytes that were asked for at each, and
the allocations to come. `root` is the frame of the top table, `pml5.virt`, `pml4.virt` or
`pdpte.virt`. The descriptors have the fields of those of nested paging. `refused` tells whether an
allocation has failed. -/
structure DmarManager where
  root : Nat
  pml4 : List NptDescriptor
  pdpte : List NptDescriptor
  pde : List NptDescriptor
  pte : List NptDescriptor
  usingAgaw : Agaw
  largePage : Bool
  hugePage : Bool
  memory : Radix.Frames Stage2Entry
  size : Nat → Nat
  allocator : Allocator
  refused : Bool

namespace DmarManager

/-- `noir_alloc_nonpg_memory` for a descriptor and `noir_alloc_contd_memory` for its table. The entries
that lie within the bytes asked for are zeroed. -/
def alloc (dmarm : DmarManager) (length : Nat) : Option Nat × DmarManager :=
  match dmarm.allocator.allocTable with
  | (none, allocator) => (none, { dmarm with allocator, refused := true })
  | (some frame, allocator) =>
      (some frame,
        { dmarm with
          allocator
          size := Function.update dmarm.size frame length
          memory := dmarm.memory.fill frame fun i =>
            if 8 * (i + 1) ≤ length then {} else dmarm.memory frame i })

/-- A write to an entry of the table at a frame. -/
def store (dmarm : DmarManager) (frame index : Nat) (f : Stage2Entry → Stage2Entry) :
    Outcome DmarManager :=
  if 8 * (index + 1) ≤ dmarm.size frame then
    .ok { dmarm with memory := dmarm.memory.set frame index (f (dmarm.memory frame index)) }
  else
    .error .outOfBounds

/-- A loop that writes the 512 entries of a table. -/
def storeTable (dmarm : DmarManager) (frame : Nat) (f : Nat → Stage2Entry → Stage2Entry) :
    Outcome DmarManager :=
  if 8 * 512 ≤ dmarm.size frame then
    .ok { dmarm with memory := dmarm.memory.fill frame fun i => f i (dmarm.memory frame i) }
  else
    .error .outOfBounds

def nvcVtIommuSearchPml4eDescriptor (dmarm : DmarManager) (gpa : Nat) : Option NptDescriptor :=
  match dmarm.usingAgaw with
  | .bit39 | .bit48 => none
  | .bit57 => Radix.covering NptDescriptor.gpaStart page256tbSize gpa dmarm.pml4

def nvcVtIommuSearchPdpteDescriptor (dmarm : DmarManager) (gpa : Nat) : Option NptDescriptor :=
  match dmarm.usingAgaw with
  | .bit39 => none
  | .bit48 | .bit57 => Radix.covering NptDescriptor.gpaStart page512gbSize gpa dmarm.pdpte

def nvcVtIommuSearchPdeDescriptor (dmarm : DmarManager) (gpa : Nat) : Option NptDescriptor :=
  Radix.covering NptDescriptor.gpaStart page1gbSize gpa dmarm.pde

def nvcVtIommuSearchPteDescriptor (dmarm : DmarManager) (gpa : Nat) : Option NptDescriptor :=
  Radix.covering NptDescriptor.gpaStart page2mbSize gpa dmarm.pte

/-- The frame of the table above a new one. The top table of an address width has no descriptor. -/
def upperTable (dmarm : DmarManager) (agaw : Agaw) (descriptor : Option NptDescriptor) : Outcome Nat :=
  if dmarm.usingAgaw = agaw then .ok dmarm.root
  else do
    let descriptor ← (Pointer.ofOption descriptor).deref
    .ok descriptor.frame

/-- The status, `*descriptor` and the manager after. -/
abbrev Created := NoirStatus × Option NptDescriptor × DmarManager

def nvcVtIommuCreate512gbPageMap (dmarm : DmarManager) (gpa : Nat) : Outcome Created :=
  -- The PML4E table can be the top one.
  if dmarm.usingAgaw = .bit48 then
    .ok (.success, none, dmarm)
  else
    match dmarm.nvcVtIommuSearchPml4eDescriptor gpa with
    | some cur => .ok (.success, some cur, dmarm)
    | none =>
        -- `sizeof(page_size)`, the size of an `int`.
        match dmarm.alloc 4 with
        | (none, dmarm) => .ok (.insufficientResources, none, dmarm)
        | (some frame, dmarm) => do
            let cur : NptDescriptor := { phys := page4kbMult frame, gpaStart := page256tbBase gpa }
            let dmarm := { dmarm with pml4 := dmarm.pml4 ++ [cur] }
            if dmarm.usingAgaw = .bit57 then
              let dmarm ← dmarm.store dmarm.root (pml5eOffset gpa) (·.toUpperTable cur.phys)
              .ok (.success, some cur, dmarm)
            else
              .ok (.notImplemented, none, dmarm)

def nvcVtIommuCreate1gbPageMap (dmarm : DmarManager) (gpa : Nat) (huge : Bool) : Outcome Created :=
  -- The PDPTE table can be the top one.
  if dmarm.usingAgaw = .bit39 then do
    let dmarm ←
      if huge then dmarm.storeTable dmarm.root fun i entry => entry.toHugePage (page1gbCount gpa + i)
      else .ok dmarm
    .ok (.success, none, dmarm)
  else
    match dmarm.nvcVtIommuSearchPdpteDescriptor gpa with
    | some cur => .ok (.success, some cur, dmarm)
    | none =>
        match dmarm.alloc page4kbSize with
        | (none, dmarm) => .ok (.insufficientResources, none, dmarm)
        | (some frame, dmarm) => do
            let (st, pml4e, dmarm) ← dmarm.nvcVtIommuCreate512gbPageMap gpa
            if st = .success then
              let cur : NptDescriptor :=
                { phys := page4kbMult frame, gpaStart := page512gbBase gpa }
              let dmarm := { dmarm with pdpte := dmarm.pdpte ++ [cur] }
              let dmarm ←
                if huge then
                  dmarm.storeTable frame fun i entry =>
                    entry.toHugePage (page1gbCount cur.gpaStart + i)
                else .ok dmarm
              let upper ← dmarm.upperTable .bit48 pml4e
              let dmarm ← dmarm.store upper (pml4eOffset gpa) (·.toUpperTable cur.phys)
              .ok (.success, some cur, dmarm)
            else
              .ok (st, none, dmarm)

def nvcVtIommuCreate2mbPageMap (dmarm : DmarManager) (gpa : Nat) (large : Bool) : Outcome Created :=
  match dmarm.nvcVtIommuSearchPdeDescriptor gpa with
  | some cur => .ok (.success, some cur, dmarm)
  | none =>
      match dmarm.alloc page4kbSize with
      | (none, dmarm) => .ok (.insufficientResources, none, dmarm)
      | (some frame, dmarm) => do
          let (st, pdpte, dmarm) ← dmarm.nvcVtIommuCreate1gbPageMap gpa true
          if st = .success then
            let cur : NptDescriptor := { phys := page4kbMult frame, gpaStart := page1gbBase gpa }
            let dmarm := { dmarm with pde := dmarm.pde ++ [cur] }
            let dmarm ←
              if large then
                dmarm.storeTable frame fun i entry =>
                  entry.toLargePage (page2mbCount cur.gpaStart + i)
              else .ok dmarm
            let upper ← dmarm.upperTable .bit39 pdpte
            let dmarm ← dmarm.store upper (pdpteOffset gpa) (·.toTable cur.phys)
            .ok (.success, some cur, dmarm)
          else
            .ok (st, none, dmarm)

def nvcVtIommuCreate4kbPageMap (dmarm : DmarManager) (gpa : Nat) : Outcome Created :=
  match dmarm.nvcVtIommuSearchPteDescriptor gpa with
  | some cur => .ok (.success, some cur, dmarm)
  | none =>
      match dmarm.alloc page4kbSize with
      | (none, dmarm) => .ok (.insufficientResources, none, dmarm)
      | (some frame, dmarm) => do
          let (st, pde, dmarm) ← dmarm.nvcVtIommuCreate2mbPageMap gpa true
          if st = .success then
            let cur : NptDescriptor := { phys := page4kbMult frame, gpaStart := page2mbBase gpa }
            let dmarm := { dmarm with pte := dmarm.pte ++ [cur] }
            let dmarm ← dmarm.storeTable frame fun i entry =>
              entry.toPage (page4kbCount cur.gpaStart + i)
            let pde ← (Pointer.ofOption pde).deref
            let dmarm ← dmarm.store pde.frame (pdeOffset gpa) (·.toTable cur.phys)
            .ok (.success, some cur, dmarm)
          else
            .ok (st, none, dmarm)

def nvcVtIommuUpdatePte (dmarm : DmarManager) (gpa hpa : Nat) (r w x : Bool) :
    Outcome (NoirStatus × DmarManager) := do
  let (st, pte, dmarm) ← dmarm.nvcVtIommuCreate4kbPageMap gpa
  if st = .success then
    let pte ← (Pointer.ofOption pte).deref
    let dmarm ← dmarm.store pte.frame (pteOffset gpa) fun entry =>
      (entry.setRights r w x).setPtr (page4kbCount hpa)
    .ok (st, dmarm)
  else
    .ok (st, dmarm)

/-- The step of `nvc_vt_iommu_add_ram_region`, after the largest page the units support. -/
def increment (dmarm : DmarManager) : Nat :=
  if dmarm.hugePage then page1gbSize else if dmarm.largePage then page2mbSize else page4kbSize

/-- The body of its loop. The status is dropped. -/
def createPageMap (dmarm : DmarManager) (increment gpa : Nat) : Outcome DmarManager := do
  if increment = page4kbSize then
    let (_, _, dmarm) ← dmarm.nvcVtIommuCreate4kbPageMap gpa
    .ok dmarm
  else if increment = page2mbSize then
    let (_, _, dmarm) ← dmarm.nvcVtIommuCreate2mbPageMap gpa true
    .ok dmarm
  else
    let (_, _, dmarm) ← dmarm.nvcVtIommuCreate1gbPageMap gpa true
    .ok dmarm

/-- The times a loop `for(i=0;i<length;i+=increment)` runs. -/
def turns (increment length : Nat) : Nat := (length + increment - 1) / increment

def nvcVtIommuAddRamRegion (dmarm : DmarManager) (start length : Nat) : Outcome DmarManager :=
  let increment := dmarm.increment
  (List.range (turns increment length)).foldlM
    (fun dmarm i => dmarm.createPageMap increment (start + i * increment)) dmarm

end DmarManager

/-! What the units make of an address. -/

def stage2Format : Radix.Format Stage2Entry where
  present entry := entry.read || entry.write || entry.execute
  leaf level entry := decide (level < 3) && entry.page
  child entry := entry.ptr

/-- Where a device comes to and what it may do there. -/
structure Stage2View where
  hpa : Nat
  read : Bool
  write : Bool
  execute : Bool
deriving DecidableEq, Repr

def Agaw.top : Agaw → Nat
  | .bit39 => 2
  | .bit48 => 3
  | .bit57 => 4

namespace DmarManager

/-- Bit 7 is reserved at a level whose pages the units do not support, and so are the bits below the
page number of an entry that ends a walk. -/
def accepts (dmarm : DmarManager) (level : Nat) (entry : Stage2Entry) : Bool :=
  (decide (level = 0) || (decide (level = 1) && dmarm.largePage) ||
    (decide (level = 2) && dmarm.hugePage)) && decide (entry.ptr % 2 ^ (9 * level) = 0)

def limit (dmarm : DmarManager) : Nat := 2 ^ (12 + 9 * (dmarm.usingAgaw.top + 1))

def walk (dmarm : DmarManager) (address : Nat) : Option (Radix.Walk Stage2Entry) :=
  if address < dmarm.limit then
    Radix.walk stage2Format dmarm.memory dmarm.usingAgaw.top dmarm.root address
  else none

def viewOf (dmarm : DmarManager) (walk : Radix.Walk Stage2Entry) (address : Nat) :
    Option Stage2View :=
  if dmarm.accepts walk.level walk.leaf then
    some
      { hpa := walk.leaf.ptr * 2 ^ 12 + address % 2 ^ (12 + 9 * walk.level)
        read := walk.entries.all (·.read)
        write := walk.entries.all (·.write)
        execute := walk.entries.all (·.execute) }
  else none

def view (dmarm : DmarManager) (address : Nat) : Option Stage2View :=
  (dmarm.walk address).bind (dmarm.viewOf · address)

end DmarManager

end NoirVisor
