import NoirVisor.Host.AvlTree
import NoirVisor.Platform

/-!
# I/O regions

The regions of ports and of device memory that the hypervisor serves. Each has a handler, and is
looked up in a search tree by the first address of an access.
-/

namespace NoirVisor

open HeightTree Transition

structure PioRegion (η κ : Type) where
  handler : η
  context : κ
  port : BitVec 16
  size : BitVec 16
deriving DecidableEq

structure MmioRegion (η κ : Type) where
  handler : η
  context : κ
  phys : BitVec 64
  size : BitVec 64
deriving DecidableEq

/-- The direction is that of a write. -/
structure PioAccess (ν : Type) where
  direction : Bool
  port : BitVec 16
  size : BitVec 16
  value : ν
deriving DecidableEq

structure MmioAccess (ν : Type) where
  direction : Bool
  address : BitVec 64
  size : BitVec 64
  value : ν
deriving DecidableEq

/-- A registration with the answer of the allocator to it. -/
structure Registration (R : Type) where
  allocated : Bool
  region : R

def registered {R : Type} (requests : List (Registration R)) : List R :=
  (requests.filter (·.allocated)).map (·.region)

section

variable {η κ : Type}

def nvcComparePioRegionAvlNodes (a b : PioRegion η κ) : Int :=
  if a.port < b.port then -1
  else if a.port > b.port then 1
  else 0

def nvcCompareMmioRegionAvlNodes (a b : MmioRegion η κ) : Int :=
  if a.phys < b.phys then -1
  else if a.phys > b.phys then 1
  else 0

/-- The sum of two 16-bit integers is taken in 32 bits. -/
def nvcBstSearchPioRegion (pr : PioRegion η κ) (port : BitVec 16) : Int :=
  if port < pr.port then -1
  else if port.toNat > pr.port.toNat + pr.size.toNat then 1
  else 0

def nvcBstSearchMmioRegion (mr : MmioRegion η κ) (phys : BitVec 64) : Int :=
  if phys < mr.phys then -1
  else if phys > mr.phys + mr.size then 1
  else 0

/-- What is copied into the node of a region: its port twice. -/
def PioRegion.copied (pr : PioRegion η κ) : PioRegion η κ where
  handler := pr.handler
  context := pr.context
  port := pr.port
  size := pr.port

def MmioRegion.copied (mr : MmioRegion η κ) : MmioRegion η κ where
  handler := mr.handler
  context := mr.context
  phys := mr.phys
  size := mr.size

end

section

variable {R N : Type} (compareFn : N → N → Int) (copied : R → N)

/-- Both routines that register a region. -/
def registerRegion (request : Registration R) (root : HeightTree N) :
    Option (NoirStatus × HeightTree N) :=
  if request.allocated then
    (noirInsertAvlNode compareFn (copied request.region) root).map fun root => (.success, root)
  else some (.insufficientResources, root)

/-- The tree stays as it is where the insertion goes wrong. -/
def registerNext (register : Registration R → HeightTree N → Option (NoirStatus × HeightTree N))
    (root : HeightTree N) (request : Registration R) : HeightTree N :=
  ((register request root).map Prod.snd).getD root

def registerAll (register : Registration R → HeightTree N → Option (NoirStatus × HeightTree N))
    (requests : List (Registration R)) : Option (HeightTree N) :=
  requests.foldlM (fun root request => (register request root).map Prod.snd) .null

/-- The search for the region ends where another node may be. -/
def RoomFor (root : HeightTree N) (request : Registration R) : Prop :=
  request.allocated = true →
    (root.graftBy (Precedes compareFn) (copied request.region)).Balanced

instance (root : HeightTree N) (request : Registration R) :
    Decidable (RoomFor compareFn copied root request) :=
  inferInstanceAs (Decidable (_ → _))

end

section

variable {η κ ν : Type}

def nvcRegisterPioRegion (request : Registration (PioRegion η κ))
    (root : HeightTree (PioRegion η κ)) : Option (NoirStatus × HeightTree (PioRegion η κ)) :=
  registerRegion nvcComparePioRegionAvlNodes PioRegion.copied request root

def nvcRegisterMmioRegion (request : Registration (MmioRegion η κ))
    (root : HeightTree (MmioRegion η κ)) : Option (NoirStatus × HeightTree (MmioRegion η κ)) :=
  registerRegion nvcCompareMmioRegionAvlNodes MmioRegion.copied request root

/-- The node whose handler is called with its context, and the other arguments of the call. -/
def nvcCallRwPioRegion (root : HeightTree (PioRegion η κ)) (access : PioAccess ν) :
    Option (PioRegion η κ × PioAccess ν) :=
  (noirSearchAvlNode nvcBstSearchPioRegion access.port root).map fun pr => (pr, access)

def nvcCallRwMmioRegionAligned (root : HeightTree (MmioRegion η κ)) (access : MmioAccess ν) :
    Option (MmioRegion η κ × MmioAccess ν) :=
  (noirSearchAvlNode nvcBstSearchMmioRegion access.address root).map fun mr => (mr, access)

end

end NoirVisor
