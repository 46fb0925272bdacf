import NoirVisor.Ept.Run
import NoirVisor.Host.FindBit
import NoirVisor.Io.Regions
import NoirVisor.SearchTree

/-!
# How the extended page tables of a processor are set up

The identity map gets the memory types of the MTRRs, the hooked pages and the pages under code
integrity. Later the pages of the hypervisor are meant to be redirected to a blank page, and access
to the emulated devices is taken away (`vt_core/vt_ept.c`).
-/

namespace NoirVisor

/-- The MSRs of the processor. `leaves` is what a scan of a word without bits leaves behind. -/
structure MtrrSource where
  rdmsr : Nat → BitVec 64
  leaves : Nat → Nat

namespace MtrrSource

variable (msrs : MtrrSource)

def byte (msr i : Nat) : BitVec 8 := (msrs.rdmsr msr).extractLsb' (8 * i) 8

/-- `ia32_mtrr_def_type_msr`. -/
def defType : BitVec 8 := msrs.byte 0x2FF 0

def enabled : Bool := (msrs.rdmsr 0x2FF).getLsbD 11

def fixEnabled : Bool := (msrs.rdmsr 0x2FF).getLsbD 10

/-- `ia32_mtrr_cap_msr`. -/
def variableCount : Nat := (msrs.byte 0xFE 0).toNat

def supportSmrr : Bool := (msrs.rdmsr 0xFE).getLsbD 11

/-- `ia32_mtrr_phys_mask_msr`, the MSR after the one that holds the base. -/
def valid (index : Nat) : Bool := (msrs.rdmsr (index + 1)).getLsbD 11

def physMask (index : Nat) : BitVec 64 := msrs.rdmsr (index + 1) &&& ~~~0xFFF

/-- `ia32_mtrr_phys_base_msr`. -/
def type (index : Nat) : BitVec 8 := msrs.byte index 0

def base (index : Nat) : Nat := page4kbMult (page4kbCount (msrs.rdmsr index).toNat)

def length (index : Nat) : Nat := 2 ^ ((FindBit.noirBsf msrs.leaves 0 (msrs.physMask index)).2 % 64)

/-- Fixed-range MTRRs: one of 64 KiB ranges, two of 16 KiB and eight of 4 KiB. -/
def fix64k (i : Nat) : BitVec 8 := msrs.byte 0x250 i

def fix16k (i : Nat) : BitVec 8 := msrs.byte (0x258 + i / 8) (i % 8)

def fix4k (i : Nat) : BitVec 8 := msrs.byte (0x268 + i / 8) (i % 8)

end MtrrSource

namespace EptManager

/-- The increment depends on address alignment and remainder length. -/
def mtrrIncrement (addr remainder : Nat) : Nat :=
  if addr % page1gbSize = 0 then
    if page1gbSize ≤ remainder then page1gbSize
    else if page2mbSize ≤ remainder then page2mbSize
    else page4kbSize
  else if addr % page2mbSize = 0 then
    if page2mbSize ≤ remainder then page2mbSize else page4kbSize
  else page4kbSize

def mtrrOp (increment addr : Nat) (type : BitVec 8) : EptOp :=
  if increment = page1gbSize then .updatePdpteMemoryType addr type false
  else if increment = page2mbSize then .updatePdeMemoryType addr type false
  else .updatePteMemoryType addr type false

/-- The calls of the loop over a range. What they return is not looked at. -/
def mtrrOps (type : BitVec 8) : (fuel addr limit : Nat) → List EptOp
  | 0, _, _ => []
  | fuel + 1, addr, limit =>
      if addr < limit then
        let increment := mtrrIncrement addr (limit - addr)
        mtrrOp increment addr type :: mtrrOps type fuel (addr + increment) limit
      else []

/-- The calls of `nvc_ept_update_per_var_mtrr`. An MTRR of the default type is ignored. -/
def perVarMtrrOps (msrs : MtrrSource) (index : Nat) : List EptOp :=
  if msrs.valid index && msrs.type index != msrs.defType then
    mtrrOps (msrs.type index) (msrs.length index) (msrs.base index)
      ((msrs.base index + msrs.length index) % 2 ^ 64)
  else []

def varMtrrOps (msrs : MtrrSource) : List EptOp :=
  if msrs.enabled then
    (List.range msrs.variableCount).flatMap (fun i => perVarMtrrOps msrs (0x200 + 2 * i)) ++
      if msrs.supportSmrr then perVarMtrrOps msrs 0x1F2 else []
  else []

/-- The changes of `nvc_ept_update_by_mtrr`. -/
def byMtrrOps (msrs : MtrrSource) : List EptOp :=
  varMtrrOps msrs ++
    (if msrs.enabled && msrs.fixEnabled then
      [.updateByFixedMtrr msrs.fix64k msrs.fix16k msrs.fix4k]
    else []) ++ [.clearVarMtrrCovered]

def nvcEptUpdateByMtrr (eptm : EptManager) (msrs : MtrrSource) : Outcome EptManager :=
  (byMtrrOps msrs).foldlM EptOp.run eptm

/-- `noir_hook_page`. -/
structure EptHookPage where
  orig : Nat
  hook : Nat

/-- A loop that returns when an update fails. -/
def updatePtes (hpa gpa : α → Nat) (r w x : Bool) (eptm : EptManager) :
    List α → Outcome (Bool × EptManager)
  | [] => return (true, eptm)
  | page :: pages => do
      let (pteP, eptm) ← nvcEptUpdatePte eptm (hpa page) (gpa page) r w x true 0 true
      if pteP.isNull then return (false, eptm) else updatePtes hpa gpa r w x eptm pages

def nvcEptInsertPte (eptm : EptManager) (nhp : List EptHookPage) : Outcome (Bool × EptManager) :=
  updatePtes EptHookPage.hook EptHookPage.orig false false true eptm nhp

/-- The pages under code integrity are read and executed only. -/
def nvcEptInitializeCi (eptm : EptManager) (pages : List Nat) : Outcome (Bool × EptManager) :=
  updatePtes id id true false true eptm pages

/-- The pages of a region of memory that is emulated. -/
def mmioPages (phys size : BitVec 64) : List Nat :=
  (List.range ((size.toNat + 0xFFF) / 0x1000)).map fun i => (phys.toNat + page4kbMult i) % 2 ^ 64

def nvcEptInstallMmioHook {η κ : Type} (eptm : EptManager) :
    HeightTree (MmioRegion η κ) → Outcome (Bool × EptManager)
  | .null => return (true, eptm)
  | .node left mmio right _ => do
      let (r, eptm) ← updatePtes id id false false false eptm (mmioPages mmio.phys mmio.size)
      if !r then return (r, eptm)
      else
        let (r, eptm) ← nvcEptInstallMmioHook eptm left
        if !r then return (r, eptm) else nvcEptInstallMmioHook eptm right

end EptManager

/-- What the protection reads of a processor: physical addresses of pages. -/
structure NoirVtVcpu where
  vmxon : Nat
  vmcs : Nat
  msrAuto : Nat
  /-- The value of the pointer to the tables, with the low bits that are not an address. -/
  eptp : Nat
  pdpt : Nat

namespace EptManager

def protectPage (hpa gpa : Nat) (state : Bool × EptManager) : Outcome (Bool × EptManager) := do
  let (pteP, eptm) ← nvcEptUpdatePte state.2 hpa gpa true true true true 0 true
  return (state.1 && !pteP.isNull, eptm)

/-- A loop over a descriptor list as it stands at each iteration. -/
def protectList (list : EptManager → List EptDescriptor) (blank : Nat) :
    (fuel i : Nat) → Bool × EptManager → Outcome (Bool × EptManager)
  | 0, _, _ => .error .outOfFuel
  | fuel + 1, i, state =>
      match (list state.2)[i]? with
      | none => return state
      | some cur => do
          let state ← protectPage cur.phys blank state
          protectList list blank fuel (i + 1) state

/-- The lists are those of the manager under protection, and the PDPT that of the processor. -/
def protectVcpu (blank fuel : Nat) (state : Bool × EptManager) (vcpu : NoirVtVcpu) :
    Outcome (Bool × EptManager) := do
  let state ← protectPage vcpu.vmxon blank state
  let state ← protectPage vcpu.vmcs blank state
  let state ← protectPage vcpu.msrAuto blank state
  let state ← protectPage vcpu.eptp blank state
  let (r, eptm) ← nvcEptUpdatePde state.2 vcpu.pdpt vcpu.pdpt true false false true true 0 true
  let state ← protectList (·.pde) blank fuel 0 (state.1 && r, eptm)
  protectList (·.pte) blank fuel 0 state

/-- The frame of the blank page, if there is one, and the result. -/
def nvcEptProtectHypervisor (msrBitmap : Nat) (virtualCpu : List NoirVtVcpu) (fuel : Nat)
    (eptm : EptManager) : Outcome (Option Nat × Bool × EptManager) :=
  match eptm.allocator.noirAllocContdMemory with
  | (none, allocator) => return (none, false, { eptm with allocator })
  | (some frame, allocator) => do
      let blank := page4kbMult frame
      let state ← protectPage msrBitmap blank (true, { eptm with allocator })
      let state ← virtualCpu.foldlM (protectVcpu blank fuel) state
      return (some frame, state)

/-- What `nvc_ept_build_identity_map` makes when its first allocations succeed. The hooks are set
when they are asked for. -/
def nvcEptBuildIdentityMap (msrs : MtrrSource) (allocator : Allocator)
    (hooks : Option (List EptHookPage)) (ci : List Nat) : Outcome (Bool × EptManager) := do
  let eptm ← nvcEptUpdateByMtrr
    (identityMap (if msrs.enabled then msrs.defType else 0) allocator) msrs
  let (r, eptm) ← eptm.nvcEptInsertPte (hooks.getD [])
  if r then eptm.nvcEptInitializeCi ci else return (false, eptm)

/-- The changes `nvc_vt_subvert_system` makes to the tables of one processor, until one fails. -/
def setUp {η κ : Type} (msrs : MtrrSource) (allocator : Allocator) (hooks : Option (List EptHookPage))
    (ci : List Nat) (msrBitmap : Nat) (virtualCpu : List NoirVtVcpu)
    (mmio : HeightTree (MmioRegion η κ)) (fuel : Nat) :
    Outcome (Option Nat × Bool × EptManager) := do
  let (r, eptm) ← nvcEptBuildIdentityMap msrs allocator hooks ci
  if !r then return (none, false, eptm)
  else
    let (blank, r, eptm) ← eptm.nvcEptProtectHypervisor msrBitmap virtualCpu fuel
    if !r then return (blank, false, eptm)
    else
      let (r, eptm) ← eptm.nvcEptInstallMmioHook mmio
      return (blank, r, eptm)

end EptManager

end NoirVisor
