import NoirVisor.Radix.Lookup
import NoirVisor.Platform
import Mathlib.Logic.Function.Basic

/-!
# The extended paging manager

The tables each processor of the host runs under on VT: the functions that split pages, change
their mapping and give them the memory types of the MTRRs (`vt_core/vt_ept.c`).
-/

namespace NoirVisor

/-- One 64-bit word serves as a table entry and as a huge, large and small page entry. Bits 12 to 51
are `base`: a large entry keeps its page number in the high 31 of these bits and a huge entry in the
high 22. -/
structure EptEntry where
  read : Bool := false
  write : Bool := false
  execute : Bool := false
  memoryType : BitVec 3 := 0
  large : Bool := false
  varMtrrCovered : Bool := false
  base : Nat := 0
deriving DecidableEq, Repr

/-- Which is the type of an entry that a new type is put on. -/
def nvcEptMergeMemoryType (oldType newType : BitVec 8) (force : Bool) : BitVec 8 :=
  if force then newType else if oldType < newType then oldType else newType

namespace EptEntry

/-- `page_offset` of a page entry, bits 12 to 51. -/
def setPageOffset (entry : EptEntry) (count : Nat) : EptEntry :=
  { entry with base := count % 2 ^ 40 }

/-- `page_offset` of a large entry, bits 21 to 51. -/
def setLargePageOffset (entry : EptEntry) (count : Nat) : EptEntry :=
  { entry with base := count % 2 ^ 31 * 2 ^ 9 + entry.base % 2 ^ 9 }

/-- `page_offset` of a huge entry, bits 30 to 51. -/
def setHugePageOffset (entry : EptEntry) (count : Nat) : EptEntry :=
  { entry with base := count % 2 ^ 22 * 2 ^ 18 + entry.base % 2 ^ 18 }

def setPermission (entry : EptEntry) (r w x : Bool) : EptEntry :=
  { entry with read := r, write := w, execute := x }

/-- The entry made to point to a table: `reserved0`, bits 3 to 7, is cleared. -/
def toTable (entry : EptEntry) (phys : Nat) : EptEntry :=
  { entry with memoryType := 0, large := false }.setPageOffset (page4kbCount phys)

/-- Merge a memory type into an entry. One not covered by a variable MTRR has the default type. -/
def updateMemoryType (entry : EptEntry) (memoryType : BitVec 8) (force : Bool) : EptEntry :=
  { entry with
    memoryType :=
      (if entry.varMtrrCovered then
        nvcEptMergeMemoryType (entry.memoryType.setWidth 8) memoryType force
      else memoryType).setWidth 3
    varMtrrCovered := true }

end EptEntry

/-- `noir_ept_pde_descriptor` and `noir_ept_pte_descriptor`: a table and the region it describes. -/
structure EptDescriptor where
  phys : Nat
  gpaStart : Nat
deriving DecidableEq, Repr

/-- The frame that `virt` of the descriptor points to. -/
def EptDescriptor.frame (d : EptDescriptor) : Nat := page4kbCount d.phys

/-- `noir_ept_manager`: its PDPTEs, the frames the tables below them are in and the allocations to
come. The PML4Es never change and make one array of all the PDPTEs. -/
structure EptManager where
  pdpt : Nat → EptEntry
  pde : List EptDescriptor
  pte : List EptDescriptor
  memory : Radix.Frames EptEntry
  allocator : Allocator

namespace EptManager

def findPde (eptm : EptManager) (gpa : Nat) : Option EptDescriptor :=
  Radix.covering EptDescriptor.gpaStart page1gbSize gpa eptm.pde

def findPte (eptm : EptManager) (gpa : Nat) : Option EptDescriptor :=
  Radix.covering EptDescriptor.gpaStart page2mbSize gpa eptm.pte

def modifyEntry (eptm : EptManager) (frame index : Nat) (f : EptEntry → EptEntry) : EptManager :=
  { eptm with memory := eptm.memory.set frame index (f (eptm.memory frame index)) }

def setPdpte (eptm : EptManager) (index : Nat) (entry : EptEntry) : EptManager :=
  { eptm with pdpt := Function.update eptm.pdpt index entry }

/-- `eptm->pdpt.virt[index]`. -/
def pdpte (eptm : EptManager) (index : Nat) : Outcome EptEntry :=
  if index < 512 * 512 then .ok (eptm.pdpt index) else .error .outOfBounds

/-- An entry of the table of a 1 GiB page, from the entry the page had. -/
def splitLargeEntry (pdpte : EptEntry) (gpaStart i : Nat) : EptEntry :=
  { ({} : EptEntry).setLargePageOffset (gpaStart + i) with
    read := true, write := true, execute := true, large := true
    memoryType := pdpte.memoryType, varMtrrCovered := pdpte.varMtrrCovered }

def splitPageEntry (pde : EptEntry) (gpaStart i : Nat) : EptEntry :=
  { ({} : EptEntry).setPageOffset (gpaStart + i) with
    read := true, write := true, execute := true
    memoryType := pde.memoryType, varMtrrCovered := pde.varMtrrCovered }

/-- Append the descriptor of the 1 GiB page of `gpa` to the list and build its table. -/
def pushPde (eptm : EptManager) (gpa frame : Nat) (pdpte : EptEntry) : EptDescriptor × EptManager :=
  let gpaStart := page1gbCount gpa * 512
  let d : EptDescriptor := { phys := page4kbMult frame, gpaStart := gpaStart * page2mbSize }
  (d,
    { eptm with
      pde := eptm.pde ++ [d]
      memory := eptm.memory.fill d.frame (splitLargeEntry pdpte gpaStart) })

def pushPte (eptm : EptManager) (gpa frame : Nat) (pde : EptEntry) : EptDescriptor × EptManager :=
  let gpaStart := page2mbCount gpa * 512
  let t : EptDescriptor := { phys := page4kbMult frame, gpaStart := gpaStart * page4kbSize }
  (t,
    { eptm with
      pte := eptm.pte ++ [t]
      memory := eptm.memory.fill t.frame (splitPageEntry pde gpaStart) })

/-- The descriptor and the table of a 1 GiB page not described yet. -/
def newPde (eptm : EptManager) (gpa : Nat) : Outcome (Pointer EptDescriptor × EptManager) :=
  match eptm.allocator.noirAllocNonpgMemory with
  | (false, allocator) => return (.null, { eptm with allocator })
  | (true, allocator) =>
      match allocator.noirAllocContdMemory with
      -- The descriptor is released and the pointer to it kept.
      | (none, allocator) => return (.freed, { eptm with allocator })
      | (some frame, allocator) => do
          let pdpte ← eptm.pdpte (page1gbCount gpa)
          let (d, eptm) := { eptm with allocator }.pushPde gpa frame pdpte
          return (.valid d, eptm)

def describePde (eptm : EptManager) (gpa : Nat) (alloc : Bool) :
    Outcome (Pointer EptDescriptor × EptManager) :=
  match eptm.findPde gpa with
  | some d => return (.valid d, eptm)
  | none => if alloc then eptm.newPde gpa else return (.null, eptm)

def nvcEptSplitPdpte (eptm : EptManager) (gpa : Nat) (host alloc : Bool) :
    Outcome (Pointer EptDescriptor × EptManager) := do
  let (pdeP, eptm) ← eptm.describePde gpa alloc
  if host then
    let pdpte ← eptm.pdpte (page1gbCount gpa)
    let d ← pdeP.deref
    return (pdeP, eptm.setPdpte (page1gbCount gpa) (pdpte.toTable d.phys))
  else
    return (pdeP, eptm)

/-- The descriptor and the table of a 2 MiB page not described yet. -/
def newPte (eptm : EptManager) (gpa : Nat) (host : Bool) :
    Outcome (Pointer EptDescriptor × EptManager) :=
  match eptm.allocator.noirAllocNonpgMemory with
  | (false, allocator) => return (.null, { eptm with allocator })
  | (true, allocator) =>
      match allocator.noirAllocContdMemory with
      | (none, allocator) => return (.freed, { eptm with allocator })
      | (some frame, allocator) => do
          let (pdeP, eptm) ← nvcEptSplitPdpte { eptm with allocator } gpa host true
          if pdeP.isNull then
            return (.freed, eptm)
          else
            let d ← pdeP.deref
            let pde := eptm.memory d.frame (pageEntryIndex64 (page2mbCount gpa))
            let (t, eptm) := eptm.pushPte gpa frame pde
            return (.valid t, eptm)

def describePte (eptm : EptManager) (gpa : Nat) (host alloc : Bool) :
    Outcome (Pointer EptDescriptor × EptManager) :=
  match eptm.findPte gpa with
  | some t => return (.valid t, eptm)
  | none => if alloc then eptm.newPte gpa host else return (.null, eptm)

def nvcEptSplitPde (eptm : EptManager) (gpa : Nat) (host alloc : Bool) :
    Outcome (Pointer EptDescriptor × EptManager) := do
  let (pteP, eptm) ← eptm.describePte gpa host alloc
  if host then
    let (pdeP, eptm) ← nvcEptSplitPdpte eptm gpa host alloc
    if pdeP.isNull then
      return (pteP, eptm)
    else
      let d ← pdeP.deref
      let t ← pteP.deref
      return (pteP,
        eptm.modifyEntry d.frame (pageEntryIndex64 (page2mbCount gpa)) (·.toTable t.phys))
  else
    return (pteP, eptm)

/-- A loop over the entries of a table that returns when one of them fails. -/
def forEntries {σ : Type} (f : σ → Nat → Outcome (Bool × σ)) : List Nat → σ → Outcome (Bool × σ)
  | [], s => return (true, s)
  | i :: rest, s => do
      let (result, s) ← f s i
      if result then forEntries f rest s else return (false, s)

def nvcEptUpdatePteMemoryType (memoryType : BitVec 8) (force : Bool) (eptm : EptManager)
    (gpa : Nat) : Outcome (Bool × EptManager) := do
  let (pteP, eptm) ← nvcEptSplitPde eptm gpa true true
  if pteP.isNull then
    return (false, eptm)
  else
    let t ← pteP.deref
    return (true, eptm.modifyEntry t.frame (pageEntryIndex64 (page4kbCount gpa))
      (·.updateMemoryType memoryType force))

def nvcEptUpdatePdeMemoryType (memoryType : BitVec 8) (force : Bool) (eptm : EptManager)
    (gpa : Nat) : Outcome (Bool × EptManager) := do
  let (pdeP, eptm) ← nvcEptSplitPdpte eptm gpa true true
  if pdeP.isNull then
    return (false, eptm)
  else
    let d ← pdeP.deref
    let pdeOffset := pageEntryIndex64 (page2mbCount gpa)
    if (eptm.memory d.frame pdeOffset).large then
      return (true, eptm.modifyEntry d.frame pdeOffset (·.updateMemoryType memoryType force))
    else
      let (_, eptm) ← forEntries
        (fun eptm i => nvcEptUpdatePteMemoryType memoryType force eptm (gpa + page4kbMult i))
        (List.range 512) eptm
      -- The end of the loop falls through to the failure.
      return (false, eptm)

def nvcEptUpdatePdpteMemoryType (memoryType : BitVec 8) (force : Bool) (eptm : EptManager)
    (gpa : Nat) : Outcome (Bool × EptManager) := do
  let pdpte ← eptm.pdpte (page1gbCount gpa)
  if pdpte.large then
    return (true, eptm.setPdpte (page1gbCount gpa) (pdpte.updateMemoryType memoryType force))
  else
    forEntries
      (fun eptm i => nvcEptUpdatePdeMemoryType memoryType force eptm (gpa + page2mbMult i))
      (List.range 512) eptm

def nvcEptUpdatePde (eptm : EptManager) (hpa gpa : Nat) (r w x l ignoreMt : Bool)
    (memoryType : BitVec 8) (alloc : Bool) : Outcome (Bool × EptManager) := do
  let (pdeP, eptm) ← nvcEptSplitPdpte eptm gpa true alloc
  if pdeP.isNull then
    return (false, eptm)
  else
    let d ← pdeP.deref
    let pdeOffset := pageEntryIndex64 (page2mbCount gpa)
    if l then
      -- Reset to large PDE. The type is written when it is to be ignored.
      return (true, eptm.modifyEntry d.frame pdeOffset fun entry =>
        let entry := if ignoreMt then { entry with memoryType := memoryType.setWidth 3 } else entry
        ({ entry with large := true }.setLargePageOffset (page2mbCount hpa)).setPermission r w x)
    else
      let (pteP, eptm) ← nvcEptSplitPde eptm gpa true alloc
      if pteP.isNull then
        return (false, eptm)
      else
        let t ← pteP.deref
        return (true, eptm.modifyEntry d.frame pdeOffset fun entry =>
          (entry.toTable t.phys).setPermission r w x)

def nvcEptUpdatePte (eptm : EptManager) (hpa gpa : Nat) (r w x ignoreMt : Bool)
    (memoryType : BitVec 8) (alloc : Bool) : Outcome (Pointer EptDescriptor × EptManager) := do
  let (pteP, eptm) ← nvcEptSplitPde eptm gpa true alloc
  if pteP.isNull then
    return (pteP, eptm)
  else
    let t ← pteP.deref
    return (pteP, eptm.modifyEntry t.frame (pageEntryIndex64 (page4kbCount gpa)) fun entry =>
      let entry := entry.setPermission r w x
      let entry := if ignoreMt then entry else { entry with memoryType := memoryType.setWidth 3 }
      entry.setPageOffset (page4kbCount hpa))

/-- The type that the fixed-range MTRRs give to a page of the first 1 MiB: eight ranges of 64 KiB,
sixteen of 16 KiB and sixty-four of 4 KiB. -/
def fixedMtrrType (fix64k fix16k fix4k : Nat → BitVec 8) (page : Nat) : BitVec 8 :=
  if page < 0x80 then fix64k (page / 16)
  else if page < 0xc0 then fix16k ((page - 0x80) / 4)
  else fix4k (page - 0xc0)

/-- The part of `nvc_ept_update_by_mtrr` for the fixed-range MTRRs. -/
def updateByFixedMtrr (eptm : EptManager) (fix64k fix16k fix4k : Nat → BitVec 8) :
    Outcome EptManager := do
  let (pteP, eptm) ← nvcEptSplitPde eptm 0 true true
  let t ← pteP.deref
  return { eptm with
    memory := eptm.memory.fill t.frame fun i =>
      if i < 0x100 then
        { eptm.memory t.frame i with memoryType := (fixedMtrrType fix64k fix16k fix4k i).setWidth 3 }
      else eptm.memory t.frame i }

def clearCovered (entry : EptEntry) : EptEntry := { entry with varMtrrCovered := false }

/-- The end of `nvc_ept_update_by_mtrr`. -/
def clearVarMtrrCovered (eptm : EptManager) : EptManager :=
  { eptm with
    pdpt := fun k => if k < 512 * 512 then clearCovered (eptm.pdpt k) else eptm.pdpt k
    memory := fun frame i =>
      if i < 512 ∧ ((∃ d ∈ eptm.pde, d.frame = frame) ∨ ∃ t ∈ eptm.pte, t.frame = frame) then
        clearCovered (eptm.memory frame i)
      else eptm.memory frame i }

/-- A PDPTE of the identity map. -/
def identityPdpte (defType : BitVec 8) (k : Nat) : EptEntry :=
  { ({} : EptEntry).setHugePageOffset k with
    read := true, write := true, execute := true, large := true
    memoryType := defType.setWidth 3 }

/-- The identity map, before the memory types of the MTRRs are put on it. -/
def identityMap (defType : BitVec 8) (allocator : Allocator) : EptManager where
  pdpt := identityPdpte defType
  pde := []
  pte := []
  memory := fun _ _ => {}
  allocator := allocator

end EptManager

end NoirVisor
