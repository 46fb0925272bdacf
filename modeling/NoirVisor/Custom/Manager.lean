import NoirVisor.Npt.Manager

/-!
# The nested paging manager of a customizable VM

The tables that translate the guest-physical addresses of a VM, built on demand one page at a time
(`svm_core/svm_custom.c`). Every level has its list of descriptors; `tail` is the last of a list.
-/

namespace NoirVisor

/-- `noir_cvm_mapping_attributes`. -/
structure MappingAttributes where
  present : Bool := false
  write : Bool := false
  execute : Bool := false
  user : Bool := false
  caching : Fin 8 := 0
  psize : Fin 4 := 0
  nsvSecure : Bool := false
deriving DecidableEq, Repr

/-- `hvm_p->host_pat`, the memory type of each index. -/
abbrev HostPat := Fin 8 → Nat

def nvcNptGetHostPatIndex (hostPat : HostPat) (type : Nat) : Nat :=
  match (List.finRange 8).find? (hostPat · = type) with
  | some i => i
  | none => 0xff

/-- `noir_svm_custom_npt_manager`, with the frames its tables are in and the allocations to come. -/
structure SvmCustomNptManager where
  ncr3 : Nat
  pdpte : List NptDescriptor
  pde : List NptDescriptor
  pte : List NptDescriptor
  memory : Radix.Frames NptEntry
  allocator : Allocator

/-! The fields of `amd64_addr_translator`. -/

def pteOffset (gpa : Nat) : Nat := pageEntryIndex64 (page4kbCount gpa)
def pdeOffset (gpa : Nat) : Nat := pageEntryIndex64 (page2mbCount gpa)
def pdpteOffset (gpa : Nat) : Nat := pageEntryIndex64 (page1gbCount gpa)
def pml4eOffset (gpa : Nat) : Nat := pageEntryIndex64 (page512gbCount gpa)

namespace SvmCustomNptManager

def findPdpte (nptm : SvmCustomNptManager) (gpa : Nat) : Option NptDescriptor :=
  Radix.covering NptDescriptor.gpaStart page512gbSize gpa nptm.pdpte

def findPde (nptm : SvmCustomNptManager) (gpa : Nat) : Option NptDescriptor :=
  Radix.covering NptDescriptor.gpaStart page1gbSize gpa nptm.pde

def findPte (nptm : SvmCustomNptManager) (gpa : Nat) : Option NptDescriptor :=
  Radix.covering NptDescriptor.gpaStart page2mbSize gpa nptm.pte

def setEntry (nptm : SvmCustomNptManager) (frame index : Nat) (entry : NptEntry) :
    SvmCustomNptManager :=
  { nptm with memory := nptm.memory.set frame index entry }

/-- An entry that points to a table and grants every right. -/
def tableEntry (phys : Nat) : NptEntry :=
  { ({} : NptEntry).setBase (page4kbCount phys) with present := true, write := true, user := true }

section Entries

variable (hostPat : HostPat)

def nvcSvmcSetPteEntry (hpa : Nat) (mapAttrib : MappingAttributes) : NptEntry :=
  let patIndex := nvcNptGetHostPatIndex hostPat mapAttrib.caching
  { ({} : NptEntry).setBase (page4kbCount hpa) with
    -- Protection attributes...
    present := mapAttrib.present
    write := mapAttrib.write
    user := mapAttrib.user
    noExecute := !mapAttrib.execute
    -- Caching attributes... The `pat` of a page entry is bit 7.
    pwt := patIndex.testBit 0
    pcd := patIndex.testBit 1
    psize := patIndex.testBit 2 }

/-- A large or huge entry once its page number is set. Its `pat` is bit 12. -/
def pageAttributes (mapAttrib : MappingAttributes) (entry : NptEntry) : NptEntry :=
  let patIndex := nvcNptGetHostPatIndex hostPat mapAttrib.caching
  { entry with
    present := mapAttrib.present
    write := mapAttrib.write
    user := mapAttrib.user
    noExecute := !mapAttrib.execute
    pwt := patIndex.testBit 0
    pcd := patIndex.testBit 1
    base := entry.base + (patIndex.testBit 2).toNat
    psize := true }

def nvcSvmcSetPdeEntry (hpa : Nat) (mapAttrib : MappingAttributes) : NptEntry :=
  if mapAttrib.psize ≠ 1 then tableEntry hpa
  else pageAttributes hostPat mapAttrib (({} : NptEntry).setLargePageBase (page2mbCount hpa))

def nvcSvmcSetPdpteEntry (hpa : Nat) (mapAttrib : MappingAttributes) : NptEntry :=
  if mapAttrib.psize ≠ 2 then tableEntry hpa
  else pageAttributes hostPat mapAttrib (({} : NptEntry).setHugePageBase (page1gbCount hpa))

def nvcSvmcSetPml4eEntry (hpa : Nat) : NptEntry := tableEntry hpa

end Entries

section Creation

variable (hostPat : HostPat)

def nvcSvmcCreate1gbPageMap (nptm : SvmCustomNptManager) (gpa hpa : Nat)
    (mapAttrib : MappingAttributes) : NoirStatus × SvmCustomNptManager :=
  match nptm.allocator.allocTable with
  | (none, allocator) => (.insufficientResources, { nptm with allocator })
  | (some frame, allocator) =>
      let pdpteP : NptDescriptor :=
        { phys := page4kbMult frame, gpaStart := page512gbBase gpa }
      let memory := nptm.memory.fill pdpteP.frame fun _ => {}
      -- Do mapping - this level.
      let memory := memory.set pdpteP.frame (pdpteOffset gpa)
        (nvcSvmcSetPdpteEntry hostPat hpa mapAttrib)
      -- Do mapping - prior level.
      let memory := memory.set (page4kbCount nptm.ncr3) (pml4eOffset gpa)
        (nvcSvmcSetPml4eEntry pdpteP.phys)
      (.success, { nptm with pdpte := nptm.pdpte ++ [pdpteP], memory, allocator })

/-- The descriptor of the 512 GiB page of `gpa`, created when there is none. -/
def describePdpte (nptm : SvmCustomNptManager) (gpa : Nat) :
    NoirStatus × Option NptDescriptor × SvmCustomNptManager :=
  match nptm.findPdpte gpa with
  | some cur => (.insufficientResources, some cur, nptm)
  | none =>
      -- This 512GiB page is not yet described.
      let (st, nptm) := nvcSvmcCreate1gbPageMap hostPat nptm gpa 0 {}
      (st, if st = NoirStatus.success then nptm.pdpte.getLast? else none, nptm)

def nvcSvmcCreate2mbPageMap (nptm : SvmCustomNptManager) (gpa hpa : Nat)
    (mapAttrib : MappingAttributes) : NoirStatus × SvmCustomNptManager :=
  match nptm.allocator.allocTable with
  | (none, allocator) => (.insufficientResources, { nptm with allocator })
  | (some frame, allocator) =>
      let pdeP : NptDescriptor := { phys := page4kbMult frame, gpaStart := page1gbBase gpa }
      let memory := nptm.memory.fill pdeP.frame fun _ => {}
      let memory := memory.set pdeP.frame (pdeOffset gpa)
        (nvcSvmcSetPdeEntry hostPat hpa mapAttrib)
      let nptm := { nptm with pde := nptm.pde ++ [pdeP], memory, allocator }
      -- Search for existing PDPTEs and set up upper-level mapping.
      match describePdpte hostPat nptm gpa with
      | (_, some cur, nptm) =>
          (.success, nptm.setEntry cur.frame (pdpteOffset gpa)
            (nvcSvmcSetPdpteEntry hostPat pdeP.phys mapAttrib))
      | (st, none, nptm) => (st, nptm)

/-- The descriptor of the 1 GiB page of `gpa`, created when there is none. -/
def describePde (nptm : SvmCustomNptManager) (gpa : Nat) :
    NoirStatus × Option NptDescriptor × SvmCustomNptManager :=
  match nptm.findPde gpa with
  | some cur => (.insufficientResources, some cur, nptm)
  | none =>
      -- This 1GiB page is not yet described.
      let (st, nptm) := nvcSvmcCreate2mbPageMap hostPat nptm gpa 0 {}
      (st, if st = NoirStatus.success then nptm.pde.getLast? else none, nptm)

def nvcSvmcCreate4kbPageMap (nptm : SvmCustomNptManager) (gpa _hpa : Nat)
    (mapAttrib : MappingAttributes) : NoirStatus × SvmCustomNptManager :=
  match nptm.allocator.allocTable with
  | (none, allocator) => (.insufficientResources, { nptm with allocator })
  | (some frame, allocator) =>
      let pteP : NptDescriptor := { phys := page4kbMult frame, gpaStart := page2mbBase gpa }
      let memory := nptm.memory.fill pteP.frame fun _ => {}
      -- The host address passed in is not used here.
      let memory := memory.set pteP.frame (pteOffset gpa)
        (nvcSvmcSetPteEntry hostPat 0 mapAttrib)
      let nptm := { nptm with pte := nptm.pte ++ [pteP], memory, allocator }
      -- Search for existing PDEs and set up upper-level mapping.
      match describePde hostPat nptm gpa with
      | (_, some cur, nptm) =>
          (.success, nptm.setEntry cur.frame (pdeOffset gpa)
            (nvcSvmcSetPdeEntry hostPat pteP.phys mapAttrib))
      | (st, none, nptm) => (st, nptm)

/-- The descriptor of the 2 MiB page of `gpa`, created when there is none. -/
def describePte (nptm : SvmCustomNptManager) (gpa : Nat) :
    NoirStatus × Option NptDescriptor × SvmCustomNptManager :=
  match nptm.findPte gpa with
  | some cur => (.unsuccessful, some cur, nptm)
  | none =>
      -- This 2MiB page is not described yet.
      let (st, nptm) := nvcSvmcCreate4kbPageMap hostPat nptm gpa 0 {}
      (st, if st = NoirStatus.success then nptm.pte.getLast? else none, nptm)

def nvcSvmcSetPageMap (nptm : SvmCustomNptManager) (gpa hpa : Nat)
    (mapAttrib : MappingAttributes) : NoirStatus × SvmCustomNptManager :=
  if mapAttrib.psize = 0 then
    -- Search for existing PTEs.
    match describePte hostPat nptm gpa with
    | (_, some cur, nptm) =>
        (.success, nptm.setEntry cur.frame (pteOffset gpa)
          (nvcSvmcSetPteEntry hostPat hpa mapAttrib))
    | (st, none, nptm) => (st, nptm)
  else
    (.notImplemented, nptm)

end Creation

/-- What a lookup for these rights asks of each entry it passes, as the source compares the bits. -/
def meets (entry : NptEntry) (r w x : Bool) : Bool :=
  decide (r ≤ entry.present) && decide (w ≤ entry.write) && decide (entry.noExecute ≤ x)

/-- The descriptor of a list whose table an entry points to. -/
def findPhys (descriptors : List NptDescriptor) (entry : NptEntry) : Option NptDescriptor :=
  descriptors.find? (·.phys = page4kbMult entry.base)

/-- Whether the translation was found, and what `*hpa` holds afterwards. -/
def nvcSvmcGetPhysicalMapping (nptm : SvmCustomNptManager) (gpa : Nat) (r w x : Bool) :
    Bool × Nat :=
  let pml4e := nptm.memory (page4kbCount nptm.ncr3) (pml4eOffset gpa)
  if meets pml4e r w x then
    match findPhys nptm.pdpte pml4e with
    | none => (false, 0)
    | some pdpteP =>
        let pdpte := nptm.memory pdpteP.frame (pdpteOffset gpa)
        if meets pdpte r w x then
          if pdpte.psize then
            (true, page1gbMult pdpte.hugePageBase ||| page1gbOffset gpa)
          else
            match findPhys nptm.pde pdpte with
            | none => (false, 0)
            | some pdeP =>
                let pde := nptm.memory pdeP.frame (pdeOffset gpa)
                if meets pde r w x then
                  if pde.psize then
                    (true, page2mbMult pde.largePageBase ||| page2mbOffset gpa)
                  else
                    match findPhys nptm.pte pde with
                    | none => (false, 0)
                    | some pteP =>
                        let pte := nptm.memory pteP.frame (pteOffset gpa)
                        if meets pte r w x then
                          (true, page4kbMult pte.base ||| page4kbOffset gpa)
                        else (false, 0)
                else (false, 0)
        else (false, 0)
  else (false, 0)

/-- The manager of a VM just created: its root is a new page, and nothing is described. -/
def create (frame : Nat) (memory : Radix.Frames NptEntry) (allocator : Allocator) :
    SvmCustomNptManager where
  ncr3 := page4kbMult frame
  pdpte := []
  pde := []
  pte := []
  memory := memory.fill frame fun _ => {}
  allocator := allocator

end SvmCustomNptManager

end NoirVisor
