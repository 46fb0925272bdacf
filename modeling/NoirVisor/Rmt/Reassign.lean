import NoirVisor.Npt.Manager
import NoirVisor.Rmt.Table

/-!
# Reassigning pages

A reassignment splits the host's pages down to 4 KiB where it has to, asks the hypervisor to change
the reverse mapping table, and then has it change what the host may do with the pages
(`svm_core/svm_npt.c`). The tables that the splits take are assigned to NoirVisor by reassignments
of their own.
-/

namespace NoirVisor

/-- The primary nested paging manager of the host and the reverse mapping table. -/
structure NsvHost where
  nptm : NptManager
  rmd : ReverseMappingDirectory

namespace NsvHost

/-- The rights a page entry is given by the owner of its page. -/
def remapEntry (ownership : UInt8) (entry : NptEntry) : NptEntry :=
  if ownership = noirNsvRmtNoirvisor then
    -- For debugging-purpose, pages assigned to NoirVisor can be readable.
    { entry with present := true, write := false, user := true, noExecute := false }
  else if ownership = noirNsvRmtSecureGuest then
    -- If the page is assigned to a secure guest, no accesses should be granted.
    { entry with present := false, write := false, user := false, noExecute := false }
  else
    -- For subverted-host and insecure guest, pages should be fully accessible in host.
    { entry with present := true, write := true, user := true, noExecute := false }

/-- The loop of `nvc_npt_reassign_page_ownership_hvrt`. The status is that of the page done last; for
no page at all it is what the stack held. -/
def nvcNptReassignPageOwnershipHvrt (host : NsvHost) (status : NoirStatus) :
    List Nat → Outcome (NoirStatus × NsvHost)
  | [] => return (status, host)
  | hpa :: hpaList => do
      let rmt ← nvcGetRmtEntry host.rmd hpa
      let (pdeP, nptm) ← host.nptm.nvcNptSplitPdpte hpa true false
      let (pteP, nptm) ← nptm.nvcNptSplitPde hpa true false
      if pdeP.isNull || pteP.isNull then
        return (.unsuccessful, { host with nptm })
      else
        let t ← pteP.deref
        let rmt ← (Pointer.ofOption rmt).deref
        let nptm := nptm.modifyEntry t.frame (pageEntryIndex64 (page4kbCount hpa))
          (remapEntry rmt.ownership)
        nvcNptReassignPageOwnershipHvrt { host with nptm } .success hpaList

/-- A table that a split took is assigned to NoirVisor. Without one the source goes to
`alloc_failure` with `result` as it is. -/
def claimTable (reassign : NsvHost → Nat → Outcome (Bool × NsvHost)) (host : NsvHost)
    (result : Bool) (split : Outcome (Pointer NptDescriptor × NptManager)) :
    Outcome (Bool × Bool × NsvHost) := do
  let (p, nptm) ← split
  let host := { host with nptm }
  if p.isNull then
    return (false, result, host)
  else
    let d ← p.deref
    let (result, host) ← reassign host d.phys
    return (result, result, host)

/-- Stage I for one page. The first component tells to go on with the next. -/
def splitPage (reassign : NsvHost → Nat → Outcome (Bool × NsvHost)) (host : NsvHost)
    (result : Bool) (hpa : Nat) : Outcome (Bool × Bool × NsvHost) := do
  -- Get splitted PDPTE and PDE.
  let (pdeP, nptm) ← host.nptm.nvcNptSplitPdpte hpa false false
  let (pteP, nptm) ← nptm.nvcNptSplitPde hpa false false
  let host := { host with nptm }
  let (next, result, host) ←
    if pdeP.isNull then
      -- Retry: PDPTE was not splitted yet. Split it now.
      claimTable reassign host result (host.nptm.nvcNptSplitPdpte hpa false true)
    else
      pure (true, result, host)
  if next && pteP.isNull then
    -- Retry: PDE was not splitted yet. Split it now.
    claimTable reassign host result (host.nptm.nvcNptSplitPde hpa false true)
  else
    return (next, result, host)

/-- Stage I: Split the PDPTEs and PDEs, if haven't done already. -/
def splitPages (reassign : NsvHost → Nat → Outcome (Bool × NsvHost)) (host : NsvHost)
    (result : Bool) : List Nat → Outcome (Bool × Bool × NsvHost)
  | [] => return (true, result, host)
  | hpa :: hpaList => do
      let (next, result, host) ← splitPage reassign host result hpa
      if next then splitPages reassign host result hpaList else return (false, result, host)

/-- The request that assigns a table to NoirVisor. -/
def tableContext (phys : Nat) : NoirRmtReassignmentContext where
  pages := [(phys, phys)]
  asid := 0
  shared := true
  ownership := noirNsvRmtNoirvisor

/-- `stack` is what the `status` of the remapping holds before the hypervisor sets it. -/
def nvcNptReassignPageOwnershipUnsafe (stack : NoirStatus) :
    Nat → NsvHost → NoirRmtReassignmentContext → Outcome (Bool × NsvHost)
  | 0, _, _ => .error .outOfFuel
  | fuel + 1, host, context => do
      let reassign := fun host phys =>
        nvcNptReassignPageOwnershipUnsafe stack fuel host (tableContext phys)
      let (next, result, host) ← splitPages reassign host false (context.pages.map Prod.fst)
      if next then
        -- Stage II: Modify Reverse-Mapping Table
        let (result, rmd) ← noirSvmNsvReassignRmt host.rmd context
        let host := { host with rmd }
        if result then
          -- Stage III: Acquire exclusive executor.
          let (status, host) ←
            nvcNptReassignPageOwnershipHvrt host stack (context.pages.map Prod.fst)
          return (decide (status = .success), host)
        else
          return (false, host)
      else
        return (result, host)

/-- Without NSV nothing is done. -/
def nvcNptReassignPageOwnership (enableNsv : Bool) (stack : NoirStatus) (fuel : Nat)
    (host : NsvHost) (context : NoirRmtReassignmentContext) : Outcome (Bool × NsvHost) :=
  if enableNsv then nvcNptReassignPageOwnershipUnsafe stack fuel host context
  else return (false, host)

end NsvHost

end NoirVisor
