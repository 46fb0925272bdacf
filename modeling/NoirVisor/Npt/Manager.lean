import NoirVisor.Radix.Lookup
import NoirVisor.Npt.Entry

/-!
# The nested paging manager of the host

The identity map NoirVisor runs the host under, and the functions that split its pages and change
their mapping (`svm_core/svm_npt.c`).
-/

namespace NoirVisor

/-- `noir_npt_pdpte_descriptor`, `noir_npt_pde_descriptor` and `noir_npt_pte_descriptor`: a table
and the region it describes. -/
structure NptDescriptor where
  phys : Nat
  gpaStart : Nat
deriving DecidableEq, Repr

/-- The frame that `virt` of the descriptor points to. -/
def NptDescriptor.frame (d : NptDescriptor) : Nat := page4kbCount d.phys

/-- `noir_npt_manager`, with the frames its tables are in and the allocations to come. -/
structure NptManager where
  ncr3 : Nat
  pdpt : Nat
  pde : List NptDescriptor
  pte : List NptDescriptor
  memory : Radix.Frames NptEntry
  allocator : Allocator

namespace NptManager

def findPde (nptm : NptManager) (gpa : Nat) : Option NptDescriptor :=
  Radix.covering NptDescriptor.gpaStart page1gbSize gpa nptm.pde

def findPte (nptm : NptManager) (gpa : Nat) : Option NptDescriptor :=
  Radix.covering NptDescriptor.gpaStart page2mbSize gpa nptm.pte

/-- The PDPTEs are one array over 512 consecutive frames. -/
def pdpteFrame (nptm : NptManager) (index : Nat) : Nat := page4kbCount nptm.pdpt + index / 512

def pdpte (nptm : NptManager) (index : Nat) : NptEntry :=
  nptm.memory (nptm.pdpteFrame index) (index % 512)

def modifyEntry (nptm : NptManager) (frame index : Nat) (f : NptEntry → NptEntry) : NptManager :=
  { nptm with memory := nptm.memory.set frame index (f (nptm.memory frame index)) }

def modifyPdpte (nptm : NptManager) (index : Nat) (f : NptEntry → NptEntry) : Outcome NptManager :=
  if index < 512 * 512 then
    .ok (nptm.modifyEntry (nptm.pdpteFrame index) (index % 512) f)
  else
    .error .outOfBounds

/-- A large entry of a new table, the page zeroed by the allocation. -/
def splitLargeEntry (gpaStart i : Nat) : NptEntry :=
  { ({} : NptEntry).setLargePageBase (gpaStart + i) with
    present := true, write := true, user := true, psize := true, noExecute := false }

def splitPageEntry (gpaStart i : Nat) : NptEntry :=
  { ({} : NptEntry).setBase (gpaStart + i) with
    present := true, write := true, user := true, noExecute := false }

/-- Append the descriptor of the 1 GiB page of `gpa` to the list and build its table. -/
def pushPde (nptm : NptManager) (gpa frame : Nat) : NptDescriptor × NptManager :=
  let gpaStart := page1gbCount gpa * 512
  let d : NptDescriptor := { phys := page4kbMult frame, gpaStart := gpaStart * page2mbSize }
  (d,
    { nptm with
      pde := nptm.pde ++ [d]
      memory := nptm.memory.fill d.frame (splitLargeEntry gpaStart) })

def pushPte (nptm : NptManager) (gpa frame : Nat) : NptDescriptor × NptManager :=
  let gpaStart := page2mbCount gpa * 512
  let d : NptDescriptor := { phys := page4kbMult frame, gpaStart := gpaStart * page4kbSize }
  (d,
    { nptm with
      pte := nptm.pte ++ [d]
      memory := nptm.memory.fill d.frame (splitPageEntry gpaStart) })

/-- The descriptor and the table of a 1 GiB page not described yet. -/
def newPde (nptm : NptManager) (gpa : Nat) : Pointer NptDescriptor × NptManager :=
  match nptm.allocator.noirAllocNonpgMemory with
  | (false, allocator) => (.null, { nptm with allocator })
  | (true, allocator) =>
      match allocator.noirAllocContdMemory with
      -- The descriptor is released and the pointer to it kept.
      | (none, allocator) => (.freed, { nptm with allocator })
      | (some frame, allocator) =>
          let (d, nptm) := { nptm with allocator }.pushPde gpa frame
          (.valid d, nptm)

def nvcNptSplitPdpte (nptm : NptManager) (gpa : Nat) (host alloc : Bool) :
    Outcome (Pointer NptDescriptor × NptManager) := do
  let (pdeP, nptm) :=
    match nptm.findPde gpa with
    | some d => (Pointer.valid d, nptm)
    | none => if alloc then nptm.newPde gpa else (.null, nptm)
  if host then
    let d ← pdeP.deref
    let nptm ← nptm.modifyPdpte (page1gbCount gpa) (·.toTable d.phys)
    return (pdeP, nptm)
  else
    return (pdeP, nptm)

/-- The descriptor and the table of a 2 MiB page not described yet. -/
def newPte (nptm : NptManager) (gpa : Nat) (host : Bool) :
    Outcome (Pointer NptDescriptor × NptManager) :=
  match nptm.allocator.noirAllocNonpgMemory with
  | (false, allocator) => return (.null, { nptm with allocator })
  | (true, allocator) =>
      match allocator.noirAllocContdMemory with
      | (none, allocator) => return (.freed, { nptm with allocator })
      | (some frame, allocator) => do
          let (pdeP, nptm) ← nvcNptSplitPdpte { nptm with allocator } gpa host true
          if pdeP.isNull then
            return (.freed, nptm)
          else
            let (d, nptm) := nptm.pushPte gpa frame
            return (.valid d, nptm)

def nvcNptSplitPde (nptm : NptManager) (gpa : Nat) (host alloc : Bool) :
    Outcome (Pointer NptDescriptor × NptManager) := do
  let (pteP, nptm) ←
    match nptm.findPte gpa with
    | some t => pure (Pointer.valid t, nptm)
    | none => if alloc then nptm.newPte gpa host else pure (.null, nptm)
  if host then
    let (pdeP, nptm) ← nvcNptSplitPdpte nptm gpa host alloc
    if pdeP.isNull then
      return (pteP, nptm)
    else
      let d ← pdeP.deref
      let t ← pteP.deref
      return (pteP,
        nptm.modifyEntry d.frame (pageEntryIndex64 (page2mbCount gpa)) (·.toTable t.phys))
  else
    return (pteP, nptm)

def nvcNptUpdatePdpte (nptm : NptManager) (hpa gpa : Nat) (r w x h alloc : Bool) :
    Outcome (Bool × NptManager) :=
  let index := page1gbCount gpa
  if h then do
    -- Reset to huge PDPTE.
    let nptm ← nptm.modifyPdpte index fun entry =>
      { entry with psize := true }.setHugePageBase (page1gbCount hpa)
    let nptm ← nptm.modifyPdpte index (·.setPermission r w x)
    return (true, nptm)
  else do
    let (pdeP, nptm) ← nvcNptSplitPdpte nptm gpa true alloc
    if pdeP.isNull then
      return (false, nptm)
    else
      let d ← pdeP.deref
      let nptm ← nptm.modifyPdpte index (·.toTable d.phys)
      let nptm ← nptm.modifyPdpte index (·.setPermission r w x)
      return (true, nptm)

def nvcNptUpdatePde (nptm : NptManager) (hpa gpa : Nat) (r w x l alloc : Bool) :
    Outcome (Bool × NptManager) := do
  let (pdeP, nptm) ← nvcNptSplitPdpte nptm gpa true alloc
  if pdeP.isNull then
    return (false, nptm)
  else
    let d ← pdeP.deref
    let pdeOffset := pageEntryIndex64 (page2mbCount gpa)
    if l then
      -- Reset to large PDE.
      let nptm := nptm.modifyEntry d.frame pdeOffset fun entry =>
        { entry with psize := true }.setLargePageBase (page2mbCount hpa)
      return (true, nptm.modifyEntry d.frame pdeOffset (·.setPermission r w x))
    else
      let (pteP, nptm) ← nvcNptSplitPde nptm gpa true alloc
      if pteP.isNull then
        return (false, nptm)
      else
        let t ← pteP.deref
        let nptm := nptm.modifyEntry d.frame pdeOffset (·.toTable t.phys)
        return (true, nptm.modifyEntry d.frame pdeOffset (·.setPermission r w x))

def nvcNptUpdatePte (nptm : NptManager) (hpa gpa : Nat) (r w x alloc : Bool) :
    Outcome (Bool × NptManager) := do
  let (pteP, nptm) ← nvcNptSplitPde nptm gpa true alloc
  if pteP.isNull then
    return (false, nptm)
  else
    let t ← pteP.deref
    let pteOffset := pageEntryIndex64 (page4kbCount gpa)
    return (true,
      nptm.modifyEntry t.frame pteOffset fun entry =>
        (entry.setPermission r w x).setBase (page4kbCount hpa))

/-- A PDPTE of the identity map. -/
def identityPdpte (k : Nat) : NptEntry :=
  { ({} : NptEntry).setHugePageBase k with
    present := true, write := true, user := true, psize := true }

def identityPml4e (pdpt i : Nat) : NptEntry :=
  { ({} : NptEntry).setBase (pdpt / 2 ^ 12 + i) with
    present := true, write := true, user := true }

/-- The two pages the identity map is built in: one for the PML4Es and a 2 MiB page for the PDPTEs,
by frame. The third allocation, of the manager itself, is from the nonpaged pool. -/
def nvcNptBuildIdentityMap (allocator : Allocator) (ncr3Page pdptPage : Option Nat) :
    Option NptManager :=
  match allocator.noirAllocNonpgMemory, ncr3Page, pdptPage with
  | (true, allocator), some ncr3Frame, some pdptFrame =>
      some
        { ncr3 := page4kbMult ncr3Frame
          pdpt := page4kbMult pdptFrame
          pde := []
          pte := []
          memory := fun frame i =>
            if frame = ncr3Frame then identityPml4e (page4kbMult pdptFrame) i
            else if pdptFrame ≤ frame ∧ frame < pdptFrame + 512 then
              identityPdpte ((frame - pdptFrame) * 512 + i)
            else {}
          allocator }
  | _, _, _ => none

end NptManager

end NoirVisor
