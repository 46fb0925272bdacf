import Mathlib.Data.Fintype.Pi
import NoirVisor.Ring
import NoirVisor.Tlb.AsidPool
import NoirVisor.Tlb.VpidPool

/-!
# Lifecycle of customizable VMs

What a creation takes and a release gives back: memory, a tag of the TLB, the lock of the list of vCPUs, and
a place in the list of active VMs. Each core has its own order of the steps.
-/

namespace NoirVisor

/-- The memory of a VM, by the field that points to it. -/
inductive VmField where
  | ncr3 | iopm | msrpm | msrpmFull | vmsa | vcpu | avicLogical | avicPhysical
  | msrBitmap | eptp
deriving DecidableEq

instance : Fintype VmField where
  elems := {.ncr3, .iopm, .msrpm, .msrpmFull, .vmsa, .vcpu, .avicLogical, .avicPhysical, .msrBitmap, .eptp}
  complete field := by cases field <;> decide

/-- `noir_cvm_virtual_machine`, with what it points to. A null pointer is zero. -/
structure CvmVirtualMachine where
  self : Nat
  field : VmField → Nat := fun _ => 0
  tag : Nat := 0
  vcpuListLock : Nat := 0
  lockerHead : Nat := 0
  pid : Nat := 0
  properties : Nat := 0
  refCount : Nat := 0
deriving DecidableEq

/-- The core that was selected, with what its pool of tags depends on. -/
inductive VmCore where
  | vt (nestedVirtualization : Bool)
  | svm (options : SvmVmOptions) (asidLimit : Nat) (nestedVirtualization : Bool)

/-- A step of a creation. Memory is asked for in pages, and then some field is looked at. -/
inductive CreateStage where
  | memory (field : VmField) (pages : Nat) (checked : VmField)
  | tag
  | protect

inductive ReleaseStage where
  | lock
  | memory (field : VmField) (pages : Nat)
  | tag

namespace VmCore

/-- The steps of `nvc_vtc_create_vm` and `nvc_svmc_create_vm` after that for the structure. On SVM
the request for the full MSRPM is followed by a look at the one before. -/
def createStages : VmCore → List CreateStage
  | vt _ => [.memory .msrBitmap 1 .msrBitmap, .memory .vcpu 1 .vcpu, .memory .eptp 1 .eptp, .tag]
  | svm options _ _ =>
      [.memory .ncr3 1 .ncr3, .tag, .memory .iopm 3 .iopm, .memory .msrpm 2 .msrpm,
        .memory .msrpmFull 3 .msrpm] ++
      (if options.enableNsv then [.memory .vmsa 1 .vmsa, .protect] else []) ++
      [.memory .vcpu 1 .vcpu] ++
      if options.avic then
        [.memory .avicLogical 1 .avicLogical, .memory .avicPhysical 1 .avicPhysical]
      else []

/-- The steps of `nvc_vtc_release_vm` and `nvc_svmc_release_vm`. -/
def releaseStages : VmCore → List ReleaseStage
  | vt _ => [.memory .msrBitmap 1, .lock, .memory .vcpu 1, .memory .eptp 1, .tag]
  | svm options _ _ =>
      [.lock, .memory .vcpu 1, .memory .ncr3 1] ++
      (if options.enableNsv then [.memory .vmsa 1] else []) ++
      [.tag, .memory .msrpm 2, .memory .msrpmFull 2, .memory .iopm 3] ++
      if options.avic then [.memory .avicLogical 1, .memory .avicPhysical 1] else []

def allocTag : VmCore → TlbTagging → Nat × TlbTagging
  | vt _, t => t.nvcVtcAllocVpid
  | svm .., t => t.nvcSvmcAllocAsid

def freeTag (tag : Nat) (t : TlbTagging) : VmCore → TlbTagging
  | vt _ => t.resetBitmap ((tag + 2 ^ 32 - t.start) % 2 ^ 32)
  | svm .. => if tag ≠ 0xffffffff then t.nvcSvmcFreeAsid tag else t

/-- Only the creation on VT looks at the tag, which has 16 bits. -/
def rejectsTag (tag : Nat) : VmCore → Bool
  | vt _ => tag == 0xffffffff
  | svm .. => false

/-- The pool as the core sets it up. -/
def initialTagging : VmCore → TlbTagging
  | vt nestedVirtualization => vtTlbTagging (if nestedVirtualization then 32766 else 65534)
  | svm _ asidLimit nestedVirtualization => svmTlbTagging asidLimit nestedVirtualization

end VmCore

/-- `memory` is how many pages of a block are allocated, `listLock` how often the lock of the list of
VMs is held. -/
structure VmHost where
  memory : Nat → Nat
  links : Links Nat
  listLock : Nat
  tagging : TlbTagging
  live : List CvmVirtualMachine

/-- What the host answers to the requests of a creation. Memory that it gives is zero. -/
structure VmAnswers where
  vm : Nat
  field : VmField → Nat
  reassigned : Bool
  vcpuListLock : Nat
  locker : Nat

/-- `noir_insert_to_prev` and `noir_remove_list_entry`. -/
def noirInsertToPrev (inserter insertee : Nat) (links : Links Nat) : Outcome (Links Nat) := do
  if inserter = 0 ∨ insertee = 0 ∨ links.prev inserter = 0 then throw .nullDereference
  pure (links.insertPrev inserter insertee)

def noirRemoveListEntry (entry : Nat) (links : Links Nat) : Outcome (Links Nat) := do
  if entry = 0 ∨ links.prev entry = 0 ∨ links.next entry = 0 then throw .nullDereference
  pure (links.remove entry)

namespace VmHost

variable (core : VmCore) (s : VmHost)

def take (block pages : Nat) : VmHost :=
  { s with memory := fun b => s.memory b + if b = block then pages else 0 }

/-- A block is freed if the pointer to it is not null. -/
def free (block pages : Nat) : Outcome VmHost := do
  if block = 0 then pure s
  else
    if s.memory block = 0 then throw .useAfterFree
    pure { s with memory := fun b => s.memory b - if b = block then pages else 0 }

def releaseStage (vm : CvmVirtualMachine) (s : VmHost) : ReleaseStage → Outcome VmHost
  -- The lock is acquired without a check.
  | .lock => if vm.vcpuListLock = 0 then throw .nullDereference else pure s
  | .memory field pages => s.free (vm.field field) pages
  | .tag => pure { s with tagging := core.freeTag vm.tag s.tagging }

def releaseCore (vm : CvmVirtualMachine) : Outcome VmHost :=
  core.releaseStages.foldlM (releaseStage core vm) s

abbrev Result := Outcome (NoirStatus × Option CvmVirtualMachine × VmHost)

/-- A creation that fails after the structure releases the VM and forgets it. -/
def createStages (answers : VmAnswers) :
    List CreateStage → CvmVirtualMachine → VmHost → Result
  | [], vm, s => pure (.success, some vm, s)
  | .memory field pages checked :: rest, vm, s =>
      let vm := { vm with field := Function.update vm.field field (answers.field field) }
      let s := s.take (answers.field field) pages
      if vm.field checked = 0 then do
        pure (.insufficientResources, none, ← s.releaseCore core vm)
      else createStages answers rest vm s
  | .tag :: rest, vm, s =>
      let (tag, tagging) := core.allocTag s.tagging
      let vm := { vm with tag }
      let s := { s with tagging }
      if core.rejectsTag tag then do
        pure (.insufficientResources, none, ← s.releaseCore core vm)
      else createStages answers rest vm s
  | .protect :: rest, vm, s =>
      if !answers.reassigned then do
        pure (.insufficientResources, none, ← s.releaseCore core vm)
      else createStages answers rest vm s

/-- `nvc_vtc_create_vm` and `nvc_svmc_create_vm`. -/
def createCore (answers : VmAnswers) : Result :=
  if answers.vm = 0 then pure (.insufficientResources, none, s)
  else
    let links :=
      { next := Function.update s.links.next answers.vm 0
        prev := Function.update s.links.prev answers.vm 0 }
    createStages core answers core.createStages { self := answers.vm }
      { s.take answers.vm 1 with links }

/-- A VM without mappings has one page of lockers, which is empty. -/
def nvcReleaseVm (vm : CvmVirtualMachine) : Outcome VmHost := do
  let s := { s with listLock := s.listLock + 1 }
  let links ← noirRemoveListEntry vm.self s.links
  let s ← { s with links }.releaseCore core vm
  let s ← s.free vm.lockerHead 1
  let s ← s.free vm.vcpuListLock 1
  let s := { s with listLock := s.listLock - 1 }
  s.free vm.self 1

/-- `idle` is `noir_idle_vm`. -/
def nvcCreateVmEx (idle : Nat) (answers : VmAnswers) (processId properties : Nat) : Result := do
  if properties ≠ 0 then pure (.notImplemented, none, s)
  else
    match ← s.createCore core answers with
    | (.success, some vm, s) =>
        let vm := { vm with vcpuListLock := answers.vcpuListLock }
        let s := s.take answers.vcpuListLock 1
        if vm.vcpuListLock ≠ 0 then
          let s := { s with listLock := s.listLock + 1 }
          let links ← noirInsertToPrev idle vm.self s.links
          let s := { s with links, listLock := s.listLock - 1 }
          let vm := { vm with lockerHead := answers.locker }
          let s := s.take answers.locker 1
          if vm.lockerHead ≠ 0 then
            pure (.success, some { vm with properties, pid := processId, refCount := 1 }, s)
          else
            pure (.insufficientResources, none, ← s.nvcReleaseVm core vm)
        -- The VM is not in the list yet.
        else pure (.insufficientResources, none, ← s.nvcReleaseVm core vm)
    | (st, _, s) => pure (st, none, s)

end VmHost

/-- The pages that blocks with these numbers of pages have at an address. -/
def pagesOf (blocks : List (Nat × Nat)) (block : Nat) : Nat :=
  (blocks.map fun entry => if entry.1 = block then entry.2 else 0).sum

def CreateStage.block (field : VmField → Nat) : CreateStage → Option (Nat × Nat)
  | .memory f pages _ => some (field f, pages)
  | _ => none

def ReleaseStage.block (field : VmField → Nat) : ReleaseStage → Option (Nat × Nat)
  | .memory f pages => some (field f, pages)
  | _ => none

namespace VmCore

/-- The blocks of a VM that was created. -/
def blocks (core : VmCore) (vm : CvmVirtualMachine) : List (Nat × Nat) :=
  core.createStages.filterMap (CreateStage.block vm.field) ++
    [(vm.self, 1), (vm.vcpuListLock, 1), (vm.lockerHead, 1)]

end VmCore

namespace VmHost

/-- The memory in use is that of these blocks. -/
def Holds (s : VmHost) (blocks : List (Nat × Nat)) : Prop :=
  ∀ block ≠ 0, s.memory block = pagesOf blocks block

end VmHost

/-- Whether the answers that a step looks at are good. -/
def CreateStage.Passes (answers : VmAnswers) : CreateStage → Prop
  | .memory _ _ checked => answers.field checked ≠ 0
  | .tag => True
  | .protect => answers.reassigned = true

/-- Whether what a release frees is all that the creation took. -/
def VmCore.FreesAll (field : VmField → Nat) : VmCore → Prop
  | .vt _ => True
  | .svm .. => field .msrpmFull = 0

namespace VmHost

section Memory

variable {s : VmHost} {taken blocks rest : List (Nat × Nat)} {block pages : Nat}

theorem pagesOf_cons (entry : Nat × Nat) (block : Nat) :
    pagesOf (entry :: taken) block = (if entry.1 = block then entry.2 else 0) + pagesOf taken block :=
  rfl

theorem pagesOf_nil (block : Nat) : pagesOf [] block = 0 := rfl

theorem pagesOf_append (block : Nat) :
    pagesOf (taken ++ rest) block = pagesOf taken block + pagesOf rest block := by
  unfold pagesOf
  rw [List.map_append, List.sum_append]

theorem pagesOf_perm (h : taken.Perm rest) (block : Nat) : pagesOf taken block = pagesOf rest block :=
  (h.map _).sum_eq

theorem pagesOf_pos (h : (block, pages) ∈ taken) (hpages : 0 < pages) : 0 < pagesOf taken block := by
  obtain ⟨before, after, rfl⟩ := List.append_of_mem h
  rw [pagesOf_append, pagesOf_cons, if_pos rfl]
  dsimp only
  omega

theorem Holds.congr (h : s.Holds taken) (heq : ∀ block ≠ 0, pagesOf taken block = pagesOf rest block) :
    s.Holds rest := fun block hblock => (h block hblock).trans (heq block hblock)

theorem Holds.take (h : s.Holds taken) (block pages : Nat) :
    (s.take block pages).Holds ((block, pages) :: taken) := by
  intro block' hblock'
  rw [pagesOf_cons, ← h block' hblock', Nat.add_comm]
  simp only [VmHost.take, eq_comm]

/-- What is freed was allocated, and the rest still is. -/
theorem Holds.free (h : s.Holds ((block, pages) :: rest)) (hpages : 0 < pages) :
    ∃ memory, s.free block pages = .ok { s with memory } ∧ { s with memory }.Holds rest := by
  unfold VmHost.free
  by_cases hnull : block = 0
  · refine ⟨s.memory, if_pos hnull, fun block' hblock' => ?_⟩
    rw [h block' hblock', pagesOf_cons, if_neg (fun heq : block = block' => hblock' (heq ▸ hnull)),
      Nat.zero_add]
  · have hmemory := h block hnull
    rw [pagesOf_cons, if_pos rfl] at hmemory
    rw [if_neg hnull, if_neg (by omega)]
    refine ⟨_, rfl, fun block' hblock' => ?_⟩
    have hblock := h block' hblock'
    rw [pagesOf_cons] at hblock
    dsimp only
    rw [hblock]
    by_cases heq : block' = block
    · rw [if_pos heq, if_pos heq.symm]
      exact Nat.add_sub_cancel_left _ _
    · rw [if_neg heq, if_neg (Ne.symm heq), Nat.zero_add, Nat.sub_zero]

end Memory

section Release

variable {core : VmCore} {s : VmHost} {vm : CvmVirtualMachine} {stages : List ReleaseStage}
  {rest : List (Nat × Nat)}

/-- What a step of the release does to the pool. -/
def releaseTag (core : VmCore) (vm : CvmVirtualMachine) (t : TlbTagging) : ReleaseStage → TlbTagging
  | .tag => core.freeTag vm.tag t
  | _ => t

theorem releaseStages_ok (hlock : vm.vcpuListLock ≠ 0)
    (hpages : ∀ entry ∈ stages.filterMap (ReleaseStage.block vm.field), 0 < entry.2)
    (h : s.Holds (stages.filterMap (ReleaseStage.block vm.field) ++ rest)) :
    ∃ memory, stages.foldlM (releaseStage core vm) s =
        .ok { s with memory, tagging := stages.foldl (releaseTag core vm) s.tagging } ∧
      { s with memory }.Holds rest := by
  induction stages generalizing s with
  | nil => exact ⟨s.memory, rfl, h⟩
  | cons stage stages ih =>
      rw [List.foldlM_cons, List.foldl_cons]
      cases stage with
      | lock =>
          simp only [releaseStage, if_neg hlock]
          exact ih hpages h
      | memory field pages =>
          obtain ⟨hfirst, hothers⟩ := List.forall_mem_cons.mp hpages
          obtain ⟨memory, hfree, hholds⟩ := h.free hfirst
          simp only [releaseStage, hfree]
          exact ih hothers hholds
      | tag =>
          obtain ⟨memory, hrun, hholds⟩ :=
            @ih { s with tagging := core.freeTag vm.tag s.tagging } hpages h
          exact ⟨memory, hrun, hholds⟩

/-- A VM without the lock cannot be released. -/
theorem releaseStages_fails (hlock : vm.vcpuListLock = 0) (hmem : .lock ∈ stages) :
    ∃ fault, stages.foldlM (releaseStage core vm) s = .error fault := by
  induction stages generalizing s with
  | nil => cases hmem
  | cons stage stages ih =>
      rw [List.foldlM_cons]
      cases hstage : releaseStage core vm s stage with
      | error fault => exact ⟨fault, rfl⟩
      | ok s' =>
          obtain rfl | hmem := List.mem_cons.mp hmem
          · simp [releaseStage, hlock] at hstage
          · exact ih hmem

theorem releaseCore_fails (hlock : vm.vcpuListLock = 0) :
    ∃ fault, s.releaseCore core vm = .error fault := by
  apply releaseStages_fails hlock
  cases core <;> simp [VmCore.releaseStages]

end Release

section Create

variable {core : VmCore} {s : VmHost} {vm : CvmVirtualMachine} {answers : VmAnswers}
  {stages : List CreateStage} {known : List VmField} {rest : List (Nat × Nat)}

/-- Every field that is looked at was asked for by then. -/
def Ordered : List VmField → List CreateStage → Prop
  | _, [] => True
  | known, .memory field _ checked :: rest => checked ∈ field :: known ∧ Ordered (field :: known) rest
  | known, _ :: rest => Ordered known rest

/-- The tag of the VM and the pool after a step of the creation. -/
def createTag (core : VmCore) (tags : Nat × TlbTagging) : CreateStage → Nat × TlbTagging
  | .tag => core.allocTag tags.2
  | _ => tags

theorem rejectsTag_allocTag (t : TlbTagging) : core.rejectsTag (core.allocTag t).1 = false := by
  cases core with
  | vt _ =>
      have hshort : t.nvcVtcAllocVpid.1 < 2 ^ 16 := Nat.mod_lt _ (by decide)
      exact beq_eq_false_iff_ne.mpr (by omega : t.nvcVtcAllocVpid.1 ≠ 0xffffffff)
  | svm _ _ _ => rfl

theorem known_update (hknown : ∀ f ∈ known, vm.field f = answers.field f) (field : VmField) :
    ∀ f ∈ field :: known,
      Function.update vm.field field (answers.field field) f = answers.field f := by
  intro f hf
  by_cases heq : f = field
  · subst heq
    exact Function.update_self _ _ _
  · rw [Function.update_of_ne heq]
    exact hknown f ((List.mem_cons.mp hf).resolve_left heq)

theorem createStages_ok (hordered : Ordered known stages)
    (hpasses : ∀ stage ∈ stages, stage.Passes answers)
    (hknown : ∀ f ∈ known, vm.field f = answers.field f) (h : s.Holds rest) :
    ∃ field memory, createStages core answers stages vm s =
        .ok (.success,
          some { vm with field, tag := (stages.foldl (createTag core) (vm.tag, s.tagging)).1 },
          { s with memory, tagging := (stages.foldl (createTag core) (vm.tag, s.tagging)).2 }) ∧
      (∀ f ∈ known, field f = answers.field f) ∧
      stages.filterMap (CreateStage.block field) = stages.filterMap (CreateStage.block answers.field) ∧
      { s with memory }.Holds (stages.filterMap (CreateStage.block field) ++ rest) := by
  induction stages generalizing s vm known rest with
  | nil => exact ⟨vm.field, s.memory, rfl, hknown, rfl, h⟩
  | cons stage stages ih =>
      obtain ⟨hfirst, hothers⟩ := List.forall_mem_cons.mp hpasses
      cases stage with
      | memory f pages checked =>
          have hupdate := known_update hknown f
          have hchecked : Function.update vm.field f (answers.field f) checked ≠ 0 := by
            rw [hupdate checked hordered.1]
            exact hfirst
          obtain ⟨field, memory, hrun, hfield, hblocks, hholds⟩ :=
            @ih (s.take (answers.field f) pages)
              { vm with field := Function.update vm.field f (answers.field f) } (f :: known) _
              hordered.2 hothers hupdate (h.take _ _)
          have hf := hfield f List.mem_cons_self
          refine ⟨field, memory, ?_, fun g hg => hfield g (List.mem_cons_of_mem f hg), ?_, ?_⟩
          · simp only [createStages, if_neg hchecked]
            exact hrun
          · simp only [List.filterMap_cons, CreateStage.block, hf, hblocks]
          · refine hholds.congr fun block _ => ?_
            simp only [List.filterMap_cons, CreateStage.block, hf, List.cons_append, pagesOf_cons,
              pagesOf_append]
            omega
      | tag =>
          obtain ⟨field, memory, hrun, hrest⟩ :=
            @ih { s with tagging := (core.allocTag s.tagging).2 }
              { vm with tag := (core.allocTag s.tagging).1 } known rest hordered hothers hknown h
          refine ⟨field, memory, ?_, hrest⟩
          simp only [createStages, rejectsTag_allocTag]
          exact hrun
      | protect =>
          obtain ⟨field, memory, hrun, hrest⟩ := @ih s vm known rest hordered hothers hknown h
          refine ⟨field, memory, ?_, hrest⟩
          simp only [createStages, show answers.reassigned = true from hfirst]
          exact hrun

/-- The VM has no lock yet when a step fails. -/
theorem createStages_fails (hordered : Ordered known stages)
    (hfails : ∃ stage ∈ stages, ¬stage.Passes answers)
    (hknown : ∀ f ∈ known, vm.field f = answers.field f) (hlock : vm.vcpuListLock = 0) :
    ∃ fault, createStages core answers stages vm s = .error fault := by
  induction stages generalizing s vm known with
  | nil => simp at hfails
  | cons stage stages ih =>
      have hothers (hpass : stage.Passes answers) : ∃ stage ∈ stages, ¬stage.Passes answers := by
        obtain ⟨failing, hmem, hfailing⟩ := hfails
        obtain rfl | hmem := List.mem_cons.mp hmem
        · exact absurd hpass hfailing
        · exact ⟨failing, hmem, hfailing⟩
      have hrelease (s' : VmHost) (vm' : CvmVirtualMachine) (hvm' : vm'.vcpuListLock = 0) :
          ∃ fault, (do pure (NoirStatus.insufficientResources, none, ← s'.releaseCore core vm') : Result) =
            .error fault := by
        obtain ⟨fault, hfault⟩ := @releaseCore_fails core s' vm' hvm'
        exact ⟨fault, by rw [hfault]; rfl⟩
      cases stage with
      | memory f pages checked =>
          have hupdate := known_update hknown f
          rw [createStages]
          dsimp only
          split
          · exact hrelease _ _ hlock
          · next hchecked =>
              rw [hupdate checked hordered.1] at hchecked
              exact ih hordered.2 (hothers hchecked) hupdate hlock
      | tag =>
          rw [createStages]
          dsimp only
          split
          · exact hrelease _ _ hlock
          · exact ih hordered (hothers trivial) hknown hlock
      | protect =>
          rw [createStages]
          split
          · exact hrelease _ _ hlock
          · next hreassigned => exact ih hordered (hothers (by simpa [CreateStage.Passes] using hreassigned)) hknown hlock

end Create

section Stages

variable {core : VmCore} {s : VmHost} {vm : CvmVirtualMachine} {field : VmField → Nat}
  {rest : List (Nat × Nat)}

theorem createStages_ordered : Ordered [] core.createStages := by
  rcases core with _ | ⟨⟨enableNsv, avic⟩, _, _⟩
  · simp [VmCore.createStages, Ordered]
  · cases enableNsv <;> cases avic <;> simp [VmCore.createStages, Ordered]

theorem createStages_tag (tags : Nat × TlbTagging) :
    core.createStages.foldl (createTag core) tags = core.allocTag tags.2 := by
  rcases core with _ | ⟨⟨enableNsv, avic⟩, _, _⟩
  · rfl
  · cases enableNsv <;> cases avic <;> rfl

theorem releaseStages_tag (t : TlbTagging) :
    core.releaseStages.foldl (releaseTag core vm) t = core.freeTag vm.tag t := by
  rcases core with _ | ⟨⟨enableNsv, avic⟩, _, _⟩
  · rfl
  · cases enableNsv <;> cases avic <;> rfl

theorem releaseStages_pages :
    ∀ entry ∈ core.releaseStages.filterMap (ReleaseStage.block field), 0 < entry.2 := by
  rintro ⟨block, pages⟩ hentry
  rcases core with _ | ⟨⟨enableNsv, avic⟩, _, _⟩
  · simp [VmCore.releaseStages, ReleaseStage.block, List.filterMap_cons] at hentry
    omega
  · cases enableNsv <;> cases avic <;>
      simp [VmCore.releaseStages, ReleaseStage.block, List.filterMap_cons] at hentry <;> omega

/-- What the release of a VM forgets: a page of the full MSRPM. -/
def leaked (field : VmField → Nat) : VmCore → List (Nat × Nat)
  | .vt _ => []
  | .svm .. => [(field .msrpmFull, 1)]

theorem pagesOf_createStages (block : Nat) :
    pagesOf (core.createStages.filterMap (CreateStage.block field)) block =
      pagesOf (core.releaseStages.filterMap (ReleaseStage.block field)) block +
        pagesOf (leaked field core) block := by
  cases core with
  | vt _ =>
      simp only [VmCore.createStages, VmCore.releaseStages, leaked, CreateStage.block, ReleaseStage.block,
        List.filterMap_cons, List.filterMap_nil, pagesOf_cons, Nat.add_assoc]
      rfl
  | svm options _ _ =>
      have hfull : (if field .msrpmFull = block then 3 else 0) =
          (if field .msrpmFull = block then 2 else 0) + if field .msrpmFull = block then 1 else 0 := by
        split <;> rfl
      obtain ⟨enableNsv, avic⟩ := options
      cases enableNsv <;> cases avic <;>
        simp [VmCore.createStages, VmCore.releaseStages, leaked, CreateStage.block, ReleaseStage.block,
          List.filterMap_cons, pagesOf, hfull] <;>
        omega

theorem pagesOf_blocks (vm : CvmVirtualMachine) (block : Nat) :
    pagesOf (core.blocks vm) block =
      pagesOf (core.createStages.filterMap (CreateStage.block vm.field)) block +
        ((if vm.self = block then 1 else 0) + (if vm.vcpuListLock = block then 1 else 0) +
          if vm.lockerHead = block then 1 else 0) := by
  unfold VmCore.blocks
  simp only [pagesOf_append, pagesOf_cons, pagesOf_nil]
  omega

theorem leaked_iff : (∀ block ≠ 0, pagesOf (leaked field core) block = 0) ↔ core.FreesAll field := by
  cases core with
  | vt _ => exact ⟨fun _ => trivial, fun _ _ _ => rfl⟩
  | svm _ _ _ =>
      constructor
      · intro h
        by_contra hfull
        have hpage := h (field .msrpmFull) hfull
        simp [leaked, pagesOf] at hpage
      · intro (h : field .msrpmFull = 0) block hblock
        simp [leaked, pagesOf, h, Ne.symm hblock]

theorem freesAll_of_blocks {field' : VmField → Nat} (hblocks : core.createStages.filterMap
    (CreateStage.block field) = core.createStages.filterMap (CreateStage.block field'))
    (h : core.FreesAll field') : core.FreesAll field := by
  rcases core with _ | ⟨⟨enableNsv, avic⟩, _, _⟩
  · trivial
  · have hfull : field .msrpmFull = field' .msrpmFull := by
      cases enableNsv <;> cases avic <;>
        simp [VmCore.createStages, CreateStage.block, List.filterMap_cons] at hblocks <;>
        simp only [hblocks]
    exact hfull.trans h

theorem releaseCore_ok (hlock : vm.vcpuListLock ≠ 0)
    (h : s.Holds (core.createStages.filterMap (CreateStage.block vm.field) ++ rest)) :
    ∃ memory, s.releaseCore core vm = .ok { s with memory, tagging := core.freeTag vm.tag s.tagging } ∧
      { s with memory }.Holds (leaked vm.field core ++ rest) := by
  rw [← @releaseStages_tag core vm]
  apply releaseStages_ok hlock releaseStages_pages
  refine h.congr fun block _ => ?_
  rw [pagesOf_append, pagesOf_append, pagesOf_append, pagesOf_createStages, Nat.add_assoc]

end Stages

end VmHost

end NoirVisor
