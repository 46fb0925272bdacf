import NoirVisor.Custom.Lifecycle

/-!
# Runs of creations and releases of VMs

The list of active VMs, the pool of tags and the memory are those of the VMs there are, as long as no
creation fails once it has begun and every release frees all.
-/

namespace NoirVisor

open Bitmap

/-- The number of tags is a number of the processor. -/
def VmCore.Supported : VmCore → Prop
  | .vt _ => True
  | .svm _ asidLimit _ => 2 ≤ asidLimit ∧ asidLimit < 2 ^ 32

/-- The list, the pool, the memory and the lock are those of the VMs there are. -/
structure VmHost.Sound (idle : Nat) (core : VmCore) (s : VmHost) : Prop where
  ring : s.links.IsRing idle (s.live.map CvmVirtualMachine.self)
  start : s.tagging.start = core.initialTagging.start
  limit : s.tagging.limit = core.initialTagging.limit
  tags : TagsHeld s.tagging (s.live.map CvmVirtualMachine.tag)
  memory : s.Holds (s.live.flatMap core.blocks)
  listLock : s.listLock = 0
  head : idle ≠ 0
  pointers : ∀ vm ∈ s.live, vm.self ≠ 0 ∧ vm.vcpuListLock ≠ 0

inductive VmCall where
  | create (answers : VmAnswers) (processId properties : Nat)
  | release (vm : CvmVirtualMachine)

namespace VmCall

variable (idle : Nat) (core : VmCore) (s : VmHost)

def run : VmCall → Outcome (NoirStatus × VmHost)
  | create answers processId properties => do
      let (st, vm, s') ← s.nvcCreateVmEx core idle answers processId properties
      pure (st, { s' with live := s'.live ++ vm.toList })
  | release vm => do
      let s' ← s.nvcReleaseVm core vm
      pure (.success, { s' with live := s'.live.erase vm })

/-- A VM that is released is there, and the structure of one that is created is memory that was
free. -/
def Possible : VmCall → Prop
  | create answers _ _ => answers.vm ≠ 0 → answers.vm ≠ idle ∧ s.memory answers.vm = 0
  | release vm => vm ∈ s.live

/-- The call returns. A creation that succeeds adds a VM, and one that fails leaves the VMs, the pool and the
lock as they were. -/
def Behaves (call : VmCall) : Prop :=
  ∃ st s', call.run idle core s = .ok (st, s') ∧ s'.Sound idle core ∧
    match call with
    | create .. => (st = .success → ∃ vm, s'.live = s.live ++ [vm]) ∧
        (st ≠ .success → s'.live = s.live ∧ s'.tagging = s.tagging ∧ s'.listLock = s.listLock)
    | release vm => s'.live = s.live.erase vm

end VmCall

/-- No allocation of the core fails after that of the structure, nor that of the lock. A bit of the pool is
clear. If there is no page of lockers then the release frees all. -/
structure VmHost.CreationFits (core : VmCore) (s : VmHost) (answers : VmAnswers) : Prop where
  passes : ∀ stage ∈ core.createStages, stage.Passes answers
  clear : ∃ i < s.tagging.limit, s.tagging.pool i = false
  lock : answers.vcpuListLock ≠ 0
  locker : answers.locker = 0 → core.FreesAll answers.field

def VmCall.Fits (core : VmCore) (s : VmHost) : VmCall → Prop
  | create answers _ properties => properties ≠ 0 ∨ answers.vm = 0 ∨ s.CreationFits core answers
  | release vm => core.FreesAll vm.field

/-- A creation with the pool exhausted may still end well if it releases the VM for want of lockers. -/
def VmCall.HasRoom (s : VmHost) : VmCall → Prop
  | create answers _ _ => answers.locker ≠ 0 ∨ ∃ i < s.tagging.limit, s.tagging.pool i = false
  | release _ => True

/-- `noir_idle_vm` is a list of its own at first. -/
structure VmHost.Start (idle : Nat) (core : VmCore) (s : VmHost) : Prop where
  head : idle ≠ 0
  next : s.links.next idle = idle
  prev : s.links.prev idle = idle
  tagging : s.tagging = core.initialTagging
  memory : ∀ block, s.memory block = 0
  listLock : s.listLock = 0
  live : s.live = []

/-- Runs of calls that meet a condition. -/
def VmsReachable (idle : Nat) (core : VmCore) (condition : VmHost → VmCall → Prop) : VmHost → Prop :=
  Transition.Reachable (VmHost.Start idle core) fun s s' =>
    ∃ call : VmCall, call.Possible idle s ∧ condition s call ∧ ∃ st, call.run idle core s = .ok (st, s')

namespace VmHost

section Tags

variable {core : VmCore} {t : TlbTagging} {tag i : Nat}

theorem initialTagging_bound (hcore : core.Supported) (hstart : t.start = core.initialTagging.start)
    (hlimit : t.limit = core.initialTagging.limit) : t.start + t.limit < 2 ^ 32 := by
  rw [hstart, hlimit]
  cases core with
  | vt nestedVirtualization => cases nestedVirtualization <;> decide
  | svm options asidLimit nestedVirtualization =>
      obtain ⟨htwo, hasids⟩ := hcore
      exact lt_of_eq_of_lt (svmTagging_bound nestedVirtualization (fun _ => false) hasids htwo) hasids

theorem allocTag_of_clear (hcore : core.Supported) (hstart : t.start = core.initialTagging.start)
    (hlimit : t.limit = core.initialTagging.limit) (hi : i < t.limit) (hclear : t.pool i = false) :
    ∃ n, FirstClear t.pool t.limit n ∧ core.allocTag t = (t.start + n, t.setBitmap n) := by
  have hbound := initialTagging_bound hcore hstart hlimit
  have hfirst := noirFindClearBit_of_clear hi hclear
  have hlt := hfirst.lt
  have halloc := nvcSvmcAllocAsid_of_clear (by omega) hfirst
  rw [Nat.mod_eq_of_lt (by omega), Nat.add_comm] at halloc
  refine ⟨_, hfirst, ?_⟩
  cases core with
  | svm _ _ _ => exact halloc
  | vt nestedVirtualization =>
      have hsixteen : t.start + t.limit ≤ 2 ^ 16 := by
        rw [hstart, hlimit]
        cases nestedVirtualization <;> decide
      change (t.nvcSvmcAllocAsid.1 % 2 ^ 16, t.nvcSvmcAllocAsid.2) = _
      rw [halloc]
      exact Prod.ext (Nat.mod_eq_of_lt (by omega)) rfl

theorem freeTag_of_held (hbound : t.start + t.limit < 2 ^ 32)
    (hrange : t.start ≤ tag ∧ tag < t.start + t.limit) :
    core.freeTag tag t = t.resetBitmap (tag - t.start) := by
  have hbit : (tag + 2 ^ 32 - t.start) % 2 ^ 32 = tag - t.start := by omega
  cases core with
  | vt _ => exact congrArg t.resetBitmap hbit
  | svm _ _ _ =>
      unfold VmCore.freeTag
      dsimp only
      rw [if_pos (by omega)]
      exact congrArg t.resetBitmap hbit

theorem resetBitmap_setBitmap (hclear : t.pool i = false) : (t.setBitmap i).resetBitmap i = t := by
  unfold TlbTagging.setBitmap TlbTagging.resetBitmap
  dsimp only
  rw [Function.update_idem, ← hclear, Function.update_eq_self]

/-- A tag of the pool that nobody had is that of a clear bit. -/
theorem clear_of_push {t' : TlbTagging} {tags : List Nat} (h : TagsHeld t tags)
    (h' : TagsHeld t' (tags ++ [tag])) (hstart : t'.start = t.start) (hlimit : t'.limit = t.limit) :
    ∃ i < t.limit, t.pool i = false := by
  have hrange := h'.range tag (by simp)
  rw [hstart, hlimit] at hrange
  refine ⟨tag - t.start, by omega, Bool.eq_false_iff.mpr fun hset => ?_⟩
  have hmem := (h.pool _).mp hset
  rw [Nat.add_sub_cancel' hrange.1] at hmem
  exact (List.nodup_append.mp h'.nodup).2.2 tag hmem tag (List.mem_singleton_self tag) rfl

end Tags

section Calls

variable {idle processId : Nat} {core : VmCore} {s : VmHost} {vm : CvmVirtualMachine} {answers : VmAnswers}
  {items : List Nat} {taken rest : List (Nat × Nat)}

/-- An entry of a list of entries is removed. -/
theorem noirRemoveListEntry_ok {links : Links Nat} {entry : Nat} (hring : links.IsRing idle items)
    (hnonzero : ∀ x ∈ idle :: items, x ≠ 0) (hentry : entry ∈ items) :
    noirRemoveListEntry entry links = .ok (links.remove entry) := by
  have hmem := List.mem_cons_of_mem idle hentry
  have hneighbours := hring.neighbours hmem
  unfold noirRemoveListEntry
  rw [if_neg]
  · rfl
  · have hself := hnonzero entry hmem
    have hnext := hnonzero _ hneighbours.1
    have hprev := hnonzero _ hneighbours.2
    omega

theorem noirInsertToPrev_ok {links : Links Nat} {entry : Nat} (hring : links.IsRing idle items)
    (hnonzero : ∀ x ∈ idle :: items, x ≠ 0) (hentry : entry ≠ 0) :
    noirInsertToPrev idle entry links = .ok (links.insertPrev idle entry) := by
  have hhead : idle ∈ idle :: items := List.mem_cons_self
  unfold noirInsertToPrev
  rw [if_neg]
  · rfl
  · have hidle := hnonzero idle hhead
    have hprev := hnonzero _ (hring.neighbours hhead).2
    omega

theorem nvcReleaseVm_ok (hring : s.links.IsRing idle items) (hnonzero : ∀ x ∈ idle :: items, x ≠ 0)
    (hself : vm.self ∈ items) (hlock : vm.vcpuListLock ≠ 0) (h : s.Holds (core.blocks vm ++ rest)) :
    ∃ memory, s.nvcReleaseVm core vm =
        .ok { s with
          memory, links := s.links.remove vm.self, tagging := core.freeTag vm.tag s.tagging } ∧
      { s with memory }.Holds (leaked vm.field core ++ rest) := by
  let s₁ := { s with listLock := s.listLock + 1, links := s.links.remove vm.self }
  have hordered : s₁.Holds (core.createStages.filterMap (CreateStage.block vm.field) ++
      (vm.lockerHead, 1) :: (vm.vcpuListLock, 1) :: (vm.self, 1) :: rest) := by
    refine @Holds.congr s₁ _ _ h fun block _ => ?_
    simp only [pagesOf_append, pagesOf_blocks, pagesOf_cons]
    omega
  obtain ⟨memory₁, hcore, hholds₁⟩ := releaseCore_ok hlock hordered
  let s₂ := { s₁ with memory := memory₁, tagging := core.freeTag vm.tag s.tagging }
  have hleft : s₂.Holds
      ((vm.lockerHead, 1) :: (vm.vcpuListLock, 1) :: (vm.self, 1) :: (leaked vm.field core ++ rest)) := by
    refine @Holds.congr s₂ _ _ hholds₁ fun block _ => ?_
    simp only [pagesOf_append, pagesOf_cons]
    omega
  -- The rest is freed in the order of the common release.
  obtain ⟨memory₃, hlocker, hholds₃⟩ := hleft.free Nat.one_pos
  obtain ⟨memory₄, hreslock, hholds₄⟩ := hholds₃.free Nat.one_pos
  let s₄ := { s₂ with memory := memory₄, listLock := s.listLock }
  obtain ⟨memory, hstructure, hholds⟩ := @Holds.free s₄ _ _ _ hholds₄ Nat.one_pos
  refine ⟨memory, ?_, hholds⟩
  unfold nvcReleaseVm
  dsimp only
  rw [noirRemoveListEntry_ok hring hnonzero hself]
  change (s₁.releaseCore core vm >>= fun s' => s'.free vm.lockerHead 1 >>= fun s' =>
    s'.free vm.vcpuListLock 1 >>= fun s' =>
      VmHost.free { s' with listLock := s'.listLock - 1 } vm.self 1) = _
  rw [hcore]
  change (s₂.free vm.lockerHead 1 >>= fun s' => s'.free vm.vcpuListLock 1 >>= fun s' =>
    VmHost.free { s' with listLock := s'.listLock - 1 } vm.self 1) = _
  rw [hlocker]
  change (VmHost.free { s₂ with memory := memory₃ } vm.vcpuListLock 1 >>= fun s' =>
    VmHost.free { s' with listLock := s'.listLock - 1 } vm.self 1) = _
  rw [hreslock]
  exact hstructure

theorem createCore_ok (hself : answers.vm ≠ 0) (hpasses : ∀ stage ∈ core.createStages, stage.Passes answers)
    (h : s.Holds taken) :
    ∃ field links memory, s.createCore core answers =
        .ok (.success, some { self := answers.vm, field, tag := (core.allocTag s.tagging).1 },
          { s with links, memory, tagging := (core.allocTag s.tagging).2 }) ∧
      links.prev answers.vm = 0 ∧
      (∀ entry ≠ answers.vm, links.next entry = s.links.next entry ∧
        links.prev entry = s.links.prev entry) ∧
      core.createStages.filterMap (CreateStage.block field) =
        core.createStages.filterMap (CreateStage.block answers.field) ∧
      { s with memory }.Holds
        (core.createStages.filterMap (CreateStage.block field) ++ (answers.vm, 1) :: taken) := by
  let links : Links Nat :=
    { next := Function.update s.links.next answers.vm 0
      prev := Function.update s.links.prev answers.vm 0 }
  obtain ⟨field, memory, hrun, -, hblocks, hholds⟩ :=
    @createStages_ok core { s.take answers.vm 1 with links } { self := answers.vm } answers
      core.createStages [] _ createStages_ordered hpasses (fun _ hf => (nomatch hf)) (h.take _ _)
  rw [createStages_tag] at hrun
  refine ⟨field, links, memory, ?_, Function.update_self _ _ _, fun entry hentry => ?_, hblocks, hholds⟩
  · unfold createCore
    rw [if_neg hself]
    exact hrun
  · exact ⟨Function.update_of_ne hentry _ _, Function.update_of_ne hentry _ _⟩

theorem createCore_fails (hself : answers.vm ≠ 0)
    (hfails : ∃ stage ∈ core.createStages, ¬stage.Passes answers) :
    ∃ fault, s.createCore core answers = .error fault := by
  unfold createCore
  rw [if_neg hself]
  exact createStages_fails createStages_ordered hfails (fun _ hf => (nomatch hf)) rfl

end Calls

namespace Sound

variable {idle : Nat} {core : VmCore} {s : VmHost} {vm : CvmVirtualMachine} {answers : VmAnswers}

theorem nonzero (h : s.Sound idle core) : ∀ x ∈ idle :: s.live.map CvmVirtualMachine.self, x ≠ 0 := by
  intro x hx
  obtain rfl | hx := List.mem_cons.mp hx
  · exact h.head
  · obtain ⟨vm, hvm, rfl⟩ := List.mem_map.mp hx
    exact (h.pointers vm hvm).1

theorem release_ok (h : s.Sound idle core) (hvm : vm ∈ s.live) :
    ∃ memory, s.nvcReleaseVm core vm =
        .ok { s with
          memory, links := s.links.remove vm.self, tagging := core.freeTag vm.tag s.tagging } ∧
      { s with memory }.Holds (leaked vm.field core ++ (s.live.erase vm).flatMap core.blocks) := by
  apply nvcReleaseVm_ok h.ring h.nonzero (List.mem_map_of_mem hvm) (h.pointers vm hvm).2
  refine h.memory.congr fun block _ => ?_
  have hperm := (List.perm_cons_erase hvm).flatMap_right core.blocks
  rw [List.flatMap_cons] at hperm
  exact pagesOf_perm hperm block

/-- The release leaves the host sound if it frees all. -/
theorem release (h : s.Sound idle core) (hcore : core.Supported) (hvm : vm ∈ s.live) {memory : Nat → Nat}
    (hholds : { s with memory }.Holds ((s.live.erase vm).flatMap core.blocks)) :
    VmHost.Sound idle core
      { memory, links := s.links.remove vm.self, listLock := s.listLock,
        tagging := core.freeTag vm.tag s.tagging, live := s.live.erase vm } := by
  have hmem : vm.tag ∈ s.live.map CvmVirtualMachine.tag := List.mem_map_of_mem hvm
  have hnodup := (List.nodup_cons.mp h.ring.nodup).2
  rw [freeTag_of_held (initialTagging_bound hcore h.start h.limit) (h.tags.range vm.tag hmem)]
  constructor
  · rw [map_erase_of_nodup hnodup hvm]
    exact h.ring.remove (List.mem_map_of_mem hvm)
  · exact h.start
  · exact h.limit
  · rw [map_erase_of_nodup h.tags.nodup hvm]
    exact h.tags.erase hmem
  · exact hholds
  · exact h.listLock
  · exact h.head
  · exact fun other hother => h.pointers other (List.mem_of_mem_erase hother)

/-- Free memory is no VM of the list. -/
theorem fresh (h : s.Sound idle core) {self : Nat} (hself : self ≠ 0)
    (hfree : self ≠ idle ∧ s.memory self = 0) : self ∉ idle :: s.live.map CvmVirtualMachine.self := by
  intro hmem
  obtain ⟨vm, hvm, hsame⟩ := List.mem_map.mp ((List.mem_cons.mp hmem).resolve_left hfree.1)
  have hblock : (self, 1) ∈ s.live.flatMap core.blocks :=
    List.mem_flatMap.mpr ⟨vm, hvm, by simp [VmCore.blocks, hsame]⟩
  have hpages := pagesOf_pos hblock Nat.one_pos
  rw [← h.memory self hself, hfree.2] at hpages
  exact lt_irrefl 0 hpages

end Sound

end VmHost

/-- What a creation that has put its VM in the list leaves. -/
structure Inserted (idle : Nat) (core : VmCore) (s : VmHost) (answers : VmAnswers)
    (vm : CvmVirtualMachine) (s' : VmHost) : Prop where
  self : vm.self = answers.vm
  lock : vm.vcpuListLock = answers.vcpuListLock
  tag : core.allocTag s.tagging = (vm.tag, s'.tagging)
  fields : core.createStages.filterMap (CreateStage.block vm.field) =
    core.createStages.filterMap (CreateStage.block answers.field)
  links : ∃ links, Links.IsRing links idle (s.live.map CvmVirtualMachine.self) ∧
    s'.links = links.insertPrev idle answers.vm
  memory : s'.Holds (core.blocks vm ++ s.live.flatMap core.blocks)
  listLock : s'.listLock = s.listLock
  live : s'.live = s.live

section Inserted

open VmHost

variable {idle processId properties : Nat} {core : VmCore} {s s' : VmHost} {vm : CvmVirtualMachine}
  {answers : VmAnswers}

theorem nvcCreateVmEx_inserts (h : s.Sound idle core) (hproperties : properties = 0)
    (hself : answers.vm ≠ 0) (hfree : answers.vm ≠ idle ∧ s.memory answers.vm = 0)
    (hpasses : ∀ stage ∈ core.createStages, stage.Passes answers) (hlock : answers.vcpuListLock ≠ 0) :
    ∃ vm s', Inserted idle core s answers vm s' ∧
      s.nvcCreateVmEx core idle answers processId properties =
        if answers.locker ≠ 0 then
          .ok (.success, some { vm with properties, pid := processId, refCount := 1 }, s')
        else s'.nvcReleaseVm core vm >>= fun s' => .ok (.insufficientResources, none, s') := by
  obtain ⟨field, links, memory, hcreate, -, hlinks, hfields, hholds⟩ :=
    createCore_ok hself hpasses h.memory
  have hnew := h.fresh hself hfree
  have hring : links.IsRing idle (s.live.map CvmVirtualMachine.self) :=
    h.ring.congr fun entry hentry => hlinks entry fun heq => hnew (heq ▸ hentry)
  let vm : CvmVirtualMachine :=
    { self := answers.vm, field, tag := (core.allocTag s.tagging).1,
      vcpuListLock := answers.vcpuListLock, lockerHead := answers.locker }
  let s' : VmHost :=
    { (VmHost.take { s with memory } answers.vcpuListLock 1).take answers.locker 1 with
      links := links.insertPrev idle answers.vm, tagging := (core.allocTag s.tagging).2 }
  have hmemory : s'.Holds (core.blocks vm ++ s.live.flatMap core.blocks) := by
    refine ((hholds.take answers.vcpuListLock 1).take answers.locker 1).congr fun block _ => ?_
    have hblock : pagesOf (core.blocks vm) block =
        pagesOf (core.createStages.filterMap (CreateStage.block field)) block +
          ((if answers.vm = block then 1 else 0) + (if answers.vcpuListLock = block then 1 else 0) +
            if answers.locker = block then 1 else 0) := pagesOf_blocks vm block
    simp only [pagesOf_append, pagesOf_cons, hblock]
    omega
  refine ⟨vm, s', ⟨rfl, rfl, rfl, hfields, ⟨links, hring, rfl⟩, hmemory, rfl, rfl⟩, ?_⟩
  unfold nvcCreateVmEx
  rw [if_neg (not_not.mpr hproperties), hcreate]
  simp only [bind, Except.bind]
  rw [if_pos hlock]
  have hinsert := noirInsertToPrev_ok hring h.nonzero hself
  have hlinks' : (VmHost.take { s with links, memory, tagging := (core.allocTag s.tagging).2 }
      answers.vcpuListLock 1).links = links := rfl
  rw [hlinks', hinsert]
  rfl

theorem Inserted.sound (h : s.Sound idle core) (hinserted : Inserted idle core s answers vm s')
    (hself : answers.vm ≠ 0) (hfree : answers.vm ≠ idle ∧ s.memory answers.vm = 0)
    (hlock : answers.vcpuListLock ≠ 0) (hcore : core.Supported)
    (hclear : ∃ i < s.tagging.limit, s.tagging.pool i = false) :
    VmHost.Sound idle core { s' with live := s.live ++ [vm] } := by
  obtain ⟨i, hi, hclear⟩ := hclear
  obtain ⟨n, hfirst, htag⟩ := allocTag_of_clear hcore h.start h.limit hi hclear
  obtain ⟨htag, htagging⟩ := Prod.mk.inj (hinserted.tag.symm.trans htag)
  obtain ⟨links, hring, hlinks⟩ := hinserted.links
  constructor
  · rw [List.map_append, List.map_singleton, hlinks, hinserted.self]
    exact hring.insertPrev (h.fresh hself hfree)
  · rw [htagging]
    exact h.start
  · rw [htagging]
    exact h.limit
  · rw [List.map_append, List.map_singleton, htag, htagging]
    exact h.tags.push hfirst
  · refine hinserted.memory.congr fun block _ => pagesOf_perm ?_ block
    rw [List.flatMap_append, List.flatMap_singleton]
    exact List.perm_append_comm
  · exact hinserted.listLock.trans h.listLock
  · exact h.head
  · intro other hother
    obtain hold | hnew := List.mem_append.mp hother
    · exact h.pointers other hold
    · obtain rfl := List.mem_singleton.mp hnew
      rw [hinserted.self, hinserted.lock]
      exact ⟨hself, hlock⟩

/-- The VM is released again, and its tag with it. -/
theorem Inserted.release (h : s.Sound idle core) (hinserted : Inserted idle core s answers vm s')
    (hself : answers.vm ≠ 0) (hfree : answers.vm ≠ idle ∧ s.memory answers.vm = 0)
    (hlock : answers.vcpuListLock ≠ 0) (hcore : core.Supported)
    (hclear : ∃ i < s.tagging.limit, s.tagging.pool i = false) :
    ∃ links memory, s'.nvcReleaseVm core vm = .ok { s with links, memory } ∧
      links.IsRing idle (s.live.map CvmVirtualMachine.self) ∧
      { s with memory }.Holds (leaked vm.field core ++ s.live.flatMap core.blocks) := by
  have hsound := hinserted.sound h hself hfree hlock hcore hclear
  have hnew := h.fresh hself hfree
  have hreturned : core.freeTag vm.tag s'.tagging = s.tagging := by
    obtain ⟨i, hi, hclear⟩ := hclear
    obtain ⟨n, hfirst, htag⟩ := allocTag_of_clear hcore h.start h.limit hi hclear
    obtain ⟨htag, htagging⟩ := Prod.mk.inj (hinserted.tag.symm.trans htag)
    rw [freeTag_of_held (initialTagging_bound hcore hsound.start hsound.limit)
      (hsound.tags.range vm.tag (by simp)), htag, htagging]
    have hbit : s.tagging.start + n - (s.tagging.setBitmap n).start = n := Nat.add_sub_cancel_left _ _
    rw [hbit]
    exact resetBitmap_setBitmap hfirst.clear
  have hvm : vm.self ∈ (s.live ++ [vm]).map CvmVirtualMachine.self := by simp
  have hring := hsound.ring.remove hvm
  rw [← hinserted.self] at hnew
  rw [List.map_append, List.erase_append_right _ fun hmem => hnew (List.mem_cons_of_mem idle hmem),
    List.map_singleton, List.erase_cons_head, List.append_nil] at hring
  obtain ⟨memory, hrelease, hholds⟩ := @nvcReleaseVm_ok idle core s' vm _ _ hsound.ring hsound.nonzero hvm
    (hinserted.lock ▸ hlock) hinserted.memory
  rw [hreturned, hinserted.listLock, hinserted.live] at hrelease
  exact ⟨_, memory, hrelease, hring, hholds⟩

end Inserted

section Behaves

open VmHost

variable {idle processId properties : Nat} {core : VmCore} {s s' : VmHost} {vm : CvmVirtualMachine}
  {answers : VmAnswers}

/-- The release leaves the host sound if it frees all. -/
theorem VmCall.release_behaves_iff (hcore : core.Supported) (h : s.Sound idle core) (hvm : vm ∈ s.live) :
    (VmCall.release vm).Behaves idle core s ↔ core.FreesAll vm.field := by
  obtain ⟨memory, hrelease, hholds⟩ := h.release_ok hvm
  have hrun : (VmCall.release vm).run idle core s =
      .ok (.success, { s with memory, links := s.links.remove vm.self,
                              tagging := core.freeTag vm.tag s.tagging, live := s.live.erase vm }) := by
    simp only [VmCall.run, hrelease]
    rfl
  constructor
  · rintro ⟨st, s', hrun', hsound, -⟩
    rw [hrun] at hrun'
    cases hrun'
    refine leaked_iff.mp fun block hblock => ?_
    have hpages := (hholds block hblock).symm.trans (hsound.memory block hblock)
    rw [pagesOf_append] at hpages
    dsimp only at hpages
    omega
  · intro hall
    refine ⟨_, _, hrun, h.release hcore hvm (hholds.congr fun block hblock => ?_), rfl⟩
    rw [pagesOf_append, leaked_iff.mpr hall block hblock, Nat.zero_add]

theorem VmCall.create_run_none {st : NoirStatus} {s' : VmHost}
    (h : s.nvcCreateVmEx core idle answers processId properties = .ok (st, none, s')) :
    (VmCall.create answers processId properties).run idle core s = .ok (st, s') := by
  simp only [VmCall.run, h]
  change Except.ok (st, { s' with live := s'.live ++ [] }) = _
  rw [List.append_nil]

/-- Whatever fails before the VM is in the list is a fault. -/
theorem VmCall.create_fails (h : s.Sound idle core) (hproperties : properties = 0) (hself : answers.vm ≠ 0)
    (hfails : ¬((∀ stage ∈ core.createStages, stage.Passes answers) ∧ answers.vcpuListLock ≠ 0)) :
    ∃ fault, (VmCall.create answers processId properties).run idle core s = .error fault := by
  have hex : ∃ fault, s.nvcCreateVmEx core idle answers processId properties = .error fault := by
    unfold nvcCreateVmEx
    rw [if_neg (not_not.mpr hproperties)]
    by_cases hpasses : ∀ stage ∈ core.createStages, stage.Passes answers
    · obtain ⟨field, links, memory, hcreate, hprev, -⟩ := createCore_ok hself hpasses h.memory
      have hlock : answers.vcpuListLock = 0 := by
        by_contra hlock
        exact hfails ⟨hpasses, hlock⟩
      have hremove : noirRemoveListEntry answers.vm links = .error .nullDereference := by
        unfold noirRemoveListEntry
        exact if_pos (.inr (.inl hprev))
      refine ⟨.nullDereference, ?_⟩
      rw [hcreate]
      simp only [bind, Except.bind]
      rw [if_neg (not_not.mpr hlock)]
      unfold nvcReleaseVm
      dsimp only [VmHost.take]
      rw [hremove]
      rfl
    · push Not at hpasses
      obtain ⟨fault, hfault⟩ := @createCore_fails core s answers hself hpasses
      exact ⟨fault, by rw [hfault]; rfl⟩
  obtain ⟨fault, hfault⟩ := hex
  refine ⟨fault, ?_⟩
  simp only [VmCall.run, hfault]
  rfl

/-- A creation that is refused, or has no memory for the structure, changes nothing. -/
theorem VmCall.create_unchanged (h : s.Sound idle core) (hnone : properties ≠ 0 ∨ answers.vm = 0) :
    (VmCall.create answers processId properties).Behaves idle core s := by
  have hcreate : ∃ st, s.nvcCreateVmEx core idle answers processId properties = .ok (st, none, s) ∧
      st ≠ .success := by
    unfold nvcCreateVmEx createCore
    by_cases hproperties : properties = 0
    · rw [if_neg (not_not.mpr hproperties), if_pos (hnone.resolve_left (not_not.mpr hproperties))]
      exact ⟨_, rfl, fun hst => (nomatch hst)⟩
    · exact ⟨_, if_pos hproperties, fun hst => (nomatch hst)⟩
  obtain ⟨st, hcreate, hst⟩ := hcreate
  exact ⟨st, s, create_run_none hcreate, h, fun hsuccess => absurd hsuccess hst, fun _ => ⟨rfl, rfl, rfl⟩⟩

/-- A creation that finds a clear bit in the pool, or needs none in the end. -/
theorem VmCall.create_behaves_iff (hcore : core.Supported) (h : s.Sound idle core)
    (hpossible : (VmCall.create answers processId properties).Possible idle s)
    (hroom : answers.locker ≠ 0 ∨ ∃ i < s.tagging.limit, s.tagging.pool i = false) :
    (VmCall.create answers processId properties).Behaves idle core s ↔
      (VmCall.create answers processId properties).Fits core s := by
  by_cases hproperties : properties = 0
  swap
  · exact iff_of_true (create_unchanged h (.inl hproperties)) (.inl hproperties)
  by_cases hself : answers.vm = 0
  · exact iff_of_true (create_unchanged h (.inr hself)) (.inr (.inl hself))
  by_cases hearly : (∀ stage ∈ core.createStages, stage.Passes answers) ∧ answers.vcpuListLock ≠ 0
  swap
  · refine iff_of_false ?_ ?_
    · rintro ⟨st, s', hrun, -⟩
      obtain ⟨fault, hfault⟩ := @create_fails idle processId properties core s answers h hproperties hself hearly
      rw [hrun] at hfault
      cases hfault
    · rintro (hprop | hnull | hfits)
      · exact hprop hproperties
      · exact hself hnull
      · exact hearly ⟨hfits.passes, hfits.lock⟩
  obtain ⟨hpasses, hlock⟩ := hearly
  have hfree := hpossible hself
  obtain ⟨vm, s', hinserted, hcreate⟩ := @nvcCreateVmEx_inserts idle processId properties core s answers h
    hproperties hself hfree hpasses hlock
  have hfits : (VmCall.create answers processId properties).Fits core s ↔
      (∃ i < s.tagging.limit, s.tagging.pool i = false) ∧
        (answers.locker = 0 → core.FreesAll answers.field) := by
    constructor
    · rintro (hprop | hnull | hfits)
      · exact absurd hproperties hprop
      · exact absurd hnull hself
      · exact ⟨hfits.clear, hfits.locker⟩
    · exact fun ⟨hclear, hlocker⟩ => .inr (.inr ⟨hpasses, hclear, hlock, hlocker⟩)
  rw [hfits]
  by_cases hlocker : answers.locker = 0
  · have hclear := hroom.resolve_left (not_not.mpr hlocker)
    obtain ⟨links, memory, hrelease, hring, hholds⟩ :=
      hinserted.release h hself hfree hlock hcore hclear
    rw [if_neg (not_not.mpr hlocker), hrelease] at hcreate
    have hrun := create_run_none hcreate
    have hleaked : core.FreesAll answers.field ↔ core.FreesAll vm.field :=
      ⟨freesAll_of_blocks hinserted.fields, freesAll_of_blocks hinserted.fields.symm⟩
    constructor
    · rintro ⟨st, s₁, hrun', hsound, hkept⟩
      rw [hrun] at hrun'
      cases hrun'
      refine ⟨hclear, fun _ => hleaked.mpr (leaked_iff.mp fun block hblock => ?_)⟩
      have hpages := (hholds block hblock).symm.trans (hsound.memory block hblock)
      rw [pagesOf_append] at hpages
      dsimp only at hpages
      omega
    · rintro ⟨-, hall⟩
      refine ⟨_, _, hrun, ⟨hring, h.start, h.limit, h.tags, ?_, h.listLock, h.head, h.pointers⟩,
        fun hst => (nomatch hst), fun _ => ⟨rfl, rfl, rfl⟩⟩
      refine hholds.congr fun block hblock => ?_
      rw [pagesOf_append, leaked_iff.mpr (hleaked.mp (hall hlocker)) block hblock, Nat.zero_add]
  · rw [if_pos hlocker] at hcreate
    have hrun : (VmCall.create answers processId properties).run idle core s =
        .ok (.success,
          { s' with live := s.live ++ [{ vm with properties, pid := processId, refCount := 1 }] }) := by
      rw [← hinserted.live]
      simp only [VmCall.run, hcreate]
      rfl
    constructor
    · rintro ⟨st, s₁, hrun', hsound, -⟩
      rw [hrun] at hrun'
      cases hrun'
      refine ⟨?_, fun hnull => absurd hnull hlocker⟩
      have htags := hsound.tags
      rw [List.map_append, List.map_singleton] at htags
      exact clear_of_push h.tags htags (hsound.start.trans h.start.symm) (hsound.limit.trans h.limit.symm)
    · rintro ⟨hclear, -⟩
      have hinserted' : Inserted idle core s answers
          { vm with properties, pid := processId, refCount := 1 } s' :=
        ⟨hinserted.self, hinserted.lock, hinserted.tag, hinserted.fields, hinserted.links,
          hinserted.memory, hinserted.listLock, hinserted.live⟩
      have hsound := hinserted'.sound h hself hfree hlock hcore hclear
      exact ⟨_, _, hrun, hsound, fun _ => ⟨_, rfl⟩, fun hst => absurd rfl hst⟩

theorem VmHost.Start.sound (h : s.Start idle core) : s.Sound idle core where
  ring := by
    rw [h.live]
    exact Links.isRing_nil h.next h.prev
  start := congrArg TlbTagging.start h.tagging
  limit := congrArg TlbTagging.limit h.tagging
  tags := by
    rw [h.live, h.tagging]
    refine tagsHeld_empty fun i => ?_
    cases core <;> rfl
  memory block _ := by
    rw [h.live]
    exact h.memory block
  listLock := h.listLock
  head := h.head
  pointers := by
    rw [h.live]
    exact fun _ hvm => (nomatch hvm)

theorem VmCall.behaves_of_call_fits {call : VmCall} (hcore : core.Supported) (h : s.Sound idle core)
    (hpossible : call.Possible idle s) (hfits : call.Fits core s) : call.Behaves idle core s := by
  cases call with
  | release vm => exact (release_behaves_iff hcore h hpossible).mpr hfits
  | create answers processId properties =>
      obtain hproperties | hself | hcreation := id hfits
      · exact create_unchanged h (.inl hproperties)
      · exact create_unchanged h (.inr hself)
      · exact (create_behaves_iff hcore h hpossible (.inr hcreation.clear)).mpr hfits

end Behaves

/-- In every run whose calls fit, the list, the pool, the memory and the lock are those of the VMs, and a
further call that fits keeps that. One that does not fit breaks it. -/
theorem VmsReachable.vms_behave (idle : Nat) (core : VmCore) (hcore : core.Supported) (s : VmHost)
    (h : VmsReachable idle core (fun s call => call.Fits core s) s) :
    s.Sound idle core ∧ ∀ call : VmCall, call.Possible idle s →
      (call.Fits core s → call.Behaves idle core s) ∧
      (call.HasRoom s → call.Behaves idle core s → call.Fits core s) := by
  have hsound : s.Sound idle core := by
    apply h.invariant (fun _ => VmHost.Start.sound)
    rintro s s' - hs ⟨call, hpossible, hfits, st, hrun⟩
    obtain ⟨st', s₁, hrun', hs₁, -⟩ := VmCall.behaves_of_call_fits hcore hs hpossible hfits
    cases hrun.symm.trans hrun'
    exact hs₁
  refine ⟨hsound, fun call hpossible => ⟨VmCall.behaves_of_call_fits hcore hsound hpossible, ?_⟩⟩
  cases call with
  | release vm => exact fun _ => (VmCall.release_behaves_iff hcore hsound hpossible).mp
  | create answers processId properties =>
      exact fun hroom => (VmCall.create_behaves_iff hcore hsound hpossible hroom).mp

/-! `noir_idle_vm` is at 8, and the memory for a VM comes from 0x1000. -/

def emptyHost (core : VmCore) : VmHost :=
  ⟨fun _ => 0, ⟨fun _ => 8, fun _ => 8⟩, 0, core.initialTagging, []⟩

theorem emptyHost_start (core : VmCore) : (emptyHost core).Start 8 core where
  head := by decide
  next := rfl
  prev := rfl
  tagging := rfl
  memory _ := rfl
  listLock := rfl
  live := rfl

/-- Every allocation succeeds but that of the full MSRPM. -/
def fullAnswers : VmAnswers where
  vm := 0x1000
  field
    | .ncr3 => 0x2000
    | .iopm => 0x3000
    | .msrpm => 0x6000
    | .msrpmFull => 0
    | .vmsa => 0x8000
    | .vcpu => 0x9000
    | .avicLogical => 0xA000
    | .avicPhysical => 0xB000
    | .msrBitmap => 0xC000
    | .eptp => 0xD000
  reassigned := true
  vcpuListLock := 0xE000
  locker := 0xF000

theorem firstVm_behave : ∃ s : VmHost, s.live.map CvmVirtualMachine.self = [0x1000] ∧
    s.Sound 8 (.svm ⟨true, true⟩ 8 false) ∧ ∀ call : VmCall, call.Possible 8 s →
      (call.Fits (.svm ⟨true, true⟩ 8 false) s → call.Behaves 8 (.svm ⟨true, true⟩ 8 false) s) ∧
      (call.HasRoom s → call.Behaves 8 (.svm ⟨true, true⟩ 8 false) s →
        call.Fits (.svm ⟨true, true⟩ 8 false) s) := by
  have hcore : (VmCore.svm ⟨true, true⟩ 8 false).Supported := ⟨by decide, by decide⟩
  have hpossible : (VmCall.create fullAnswers 4 0).Possible 8 (emptyHost (.svm ⟨true, true⟩ 8 false)) :=
    fun _ => ⟨by decide, rfl⟩
  have hfits : (VmCall.create fullAnswers 4 0).Fits (.svm ⟨true, true⟩ 8 false)
      (emptyHost (.svm ⟨true, true⟩ 8 false)) := by
    refine .inr (.inr ⟨?_, ⟨0, by decide, rfl⟩, by decide, fun _ => rfl⟩)
    simp [VmCore.createStages, CreateStage.Passes, fullAnswers]
  obtain ⟨st, s, hrun, -⟩ := VmCall.behaves_of_call_fits hcore (emptyHost_start _).sound hpossible hfits
  have hlive : ((VmCall.create fullAnswers 4 0).run 8 (.svm ⟨true, true⟩ 8 false)
      (emptyHost (.svm ⟨true, true⟩ 8 false))).map (fun r => r.2.live.map CvmVirtualMachine.self) =
        .ok [0x1000] := rfl
  rw [hrun] at hlive
  refine ⟨s, Except.ok.inj hlive, VmsReachable.vms_behave 8 _ hcore s ?_⟩
  exact .step (.start (emptyHost_start _)) ⟨_, hpossible, hfits, st, hrun⟩

/-- There is no memory for the MSR bitmap, and the release acquires a lock that the VM has not. -/
theorem not_forall_vms_behave : ¬∀ (idle : Nat) (core : VmCore) (s : VmHost) (call : VmCall),
    core.Supported → VmsReachable idle core (fun _ _ => True) s → call.Possible idle s →
      call.Behaves idle core s := by
  intro h
  let answers : VmAnswers := { fullAnswers with field := Function.update fullAnswers.field .msrBitmap 0 }
  obtain ⟨st, s', hrun, -⟩ := h 8 (.vt false) (emptyHost (.vt false)) (.create answers 4 0) trivial
    (.start (emptyHost_start _)) fun _ => ⟨by decide, rfl⟩
  obtain ⟨fault, hfault⟩ := @VmCall.create_fails 8 4 0 (.vt false) (emptyHost (.vt false)) answers
    (emptyHost_start _).sound rfl (by decide) fun hearly =>
      hearly.1 (.memory .msrBitmap 1 .msrBitmap) (by simp [VmCore.createStages]) rfl
  rw [hrun] at hfault
  cases hfault

end NoirVisor
