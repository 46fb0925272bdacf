import NoirVisor.Platform
import NoirVisor.Tlb.Tagging
import NoirVisor.Transition

/-!
# ASIDs of customizable VMs

Creation and release of a customizable VM on SVM, with the memory they take and give back.
-/

namespace NoirVisor

open Bitmap

/-- `noir_svm_custom_vm`, with the blocks of memory it points to. `rest` are those of its vCPUs and of
its paging structures. -/
structure SvmCustomVm where
  self : Nat
  ncr3 : Option Nat := none
  asid : Nat := 0
  iopm : Option Nat := none
  msrpm : Option Nat := none
  msrpmFull : Option Nat := none
  vmsa : Option Nat := none
  vcpu : Option Nat := none
  avicLogical : Option Nat := none
  avicPhysical : Option Nat := none
  rest : List Nat := []
  vcpuListLock : Bool := false
deriving DecidableEq

structure SvmVms where
  tagging : TlbTagging
  allocated : Nat → Bool
  live : List SvmCustomVm

structure SvmVmOptions where
  enableNsv : Bool
  avic : Bool

namespace SvmVms

variable (options : SvmVmOptions) (s : SvmVms)

def free (blocks : List Nat) : SvmVms :=
  { s with allocated := fun block => s.allocated block && !blocks.contains block }

def take (block : Nat) : SvmVms := { s with allocated := Function.update s.allocated block true }

/-- The structure itself is left to the caller. The pages of the VM are reassigned, which is no matter
of the pool. -/
def nvcSvmcReleaseVm (vm : SvmCustomVm) : Outcome SvmVms := do
  -- The lock is acquired without a check.
  if vm.vcpuListLock = false then throw .nullDereference
  let s := s.free (vm.vcpu.toList ++ vm.ncr3.toList ++ vm.rest)
  let s := if options.enableNsv then s.free vm.vmsa.toList else s
  -- A VM that has no ASID yet has zero.
  let s := if vm.asid ≠ 0xffffffff then { s with tagging := s.tagging.nvcSvmcFreeAsid vm.asid } else s
  let s := s.free (vm.msrpm.toList ++ vm.msrpmFull.toList ++ vm.iopm.toList)
  pure (if options.avic then s.free (vm.avicLogical.toList ++ vm.avicPhysical.toList) else s)

/-- What the memory manager gives, in the order of the requests, and whether the VMSA could be
protected. -/
structure Answers where
  vm : Option Nat
  ncr3 : Option Nat
  iopm : Option Nat
  msrpm : Option Nat
  msrpmFull : Option Nat
  vmsa : Option Nat
  reassigned : Bool
  vcpu : Option Nat
  avicLogical : Option Nat
  avicPhysical : Option Nat

abbrev Created := Outcome (NoirStatus × Option SvmCustomVm × SvmVms)

/-- A failed creation releases the VM and forgets it. -/
def allocFailure (vm : SvmCustomVm) : Created := do
  pure (.insufficientResources, none, ← s.nvcSvmcReleaseVm options vm)

def checked (vm : SvmCustomVm) (answer : Option Nat) (next : Nat → SvmVms → Created) : Created :=
  match answer with
  | some block => next block (s.take block)
  | none => s.allocFailure options vm

/-- The VMSA is asked for with NSV only. -/
def withVmsa (vm : SvmCustomVm) (answers : Answers) (next : SvmCustomVm → SvmVms → Created) : Created :=
  if options.enableNsv then
    s.checked options vm answers.vmsa fun vmsa s =>
      let vm := { vm with vmsa := some vmsa }
      if answers.reassigned then next vm s else s.allocFailure options vm
  else next vm s

def withAvic (vm : SvmCustomVm) (answers : Answers) (next : SvmCustomVm → SvmVms → Created) : Created :=
  if options.avic then
    s.checked options vm answers.avicLogical fun avicLogical s =>
      let vm := { vm with avicLogical := some avicLogical }
      s.checked options vm answers.avicPhysical fun avicPhysical s =>
        next { vm with avicPhysical := some avicPhysical } s
  else next vm s

/-- The ASID is not looked at again, and whether there is memory for the full MSRPM is looked for in the
answer before. -/
def nvcSvmcCreateVm (answers : Answers) : Created :=
  match answers.vm with
  | none => pure (.insufficientResources, none, s)
  | some self =>
      let vm : SvmCustomVm := { self }
      (s.take self).checked options vm answers.ncr3 fun ncr3 s =>
        let (asid, tagging) := s.tagging.nvcSvmcAllocAsid
        let vm := { vm with ncr3 := some ncr3, asid }
        { s with tagging }.checked options vm answers.iopm fun iopm s =>
          let vm := { vm with iopm := some iopm }
          s.checked options vm answers.msrpm fun msrpm s =>
            let vm := { vm with msrpm := some msrpm, msrpmFull := answers.msrpmFull }
            (answers.msrpmFull.elim s s.take).withVmsa options vm answers fun vm s =>
              s.checked options vm answers.vcpu fun vcpu s =>
                let vm := { vm with vcpu := some vcpu }
                s.withAvic options vm answers fun vm s => pure (.success, some vm, s)

def asids : List Nat := s.live.map SvmCustomVm.asid

/-- The creation returns. It succeeds with an ASID of its own, and if it fails, as it must with the pool
exhausted, it leaves no VM, and the pool as it was. -/
def CreateBehaves (answers : Answers) : Prop :=
  ∃ st vm s', s.nvcSvmcCreateVm options answers = .ok (st, vm, s') ∧
    ((∀ i < s.tagging.limit, s.tagging.pool i = true) → st ≠ .success) ∧
    (st = .success → ∃ new, vm = some new ∧ TagsHeld s'.tagging (s.asids ++ [new.asid])) ∧
    (st ≠ .success → vm = none ∧ s'.tagging = s.tagging)

/-- The release returns, and gives back the ASID of this VM only. -/
def ReleaseBehaves (vm : SvmCustomVm) : Prop :=
  ∃ s', s.nvcSvmcReleaseVm options vm = .ok s' ∧
    s'.tagging = s.tagging.resetBitmap (vm.asid - s.tagging.start) ∧
    TagsHeld s'.tagging (s.asids.erase vm.asid)

/-- Every allocation that is looked at has succeeded. -/
structure Allocated (answers : Answers) : Prop where
  ncr3 : answers.ncr3 ≠ none
  iopm : answers.iopm ≠ none
  msrpm : answers.msrpm ≠ none
  vmsa : options.enableNsv = true → answers.vmsa ≠ none ∧ answers.reassigned = true
  vcpu : answers.vcpu ≠ none
  avic : options.avic = true → answers.avicLogical ≠ none ∧ answers.avicPhysical ≠ none

/-- No allocation fails after that of the structure, and a bit of the pool is clear. -/
def CreateFits (answers : Answers) : Prop :=
  answers.vm = none ∨ Allocated options answers ∧ ∃ i < s.tagging.limit, s.tagging.pool i = false

end SvmVms

/-- The calls. The caller of a creation gives the VM its lock; vCPUs and mappings take memory. -/
inductive SvmVmCall where
  | create (answers : SvmVms.Answers)
  | lock (self : Nat)
  | use (self : Nat) (rest : List Nat) (allocated : Nat → Bool)
  | release (vm : SvmCustomVm)

def SvmVms.modify (s : SvmVms) (self : Nat) (f : SvmCustomVm → SvmCustomVm) : SvmVms :=
  { s with live := s.live.map fun vm => if vm.self = self then f vm else vm }

namespace SvmVmCall

def Takes (options : SvmVmOptions) (s : SvmVms) : SvmVmCall → SvmVms → Prop
  | create answers, s' =>
      ∃ st vm s₁, s.nvcSvmcCreateVm options answers = .ok (st, vm, s₁) ∧
        s' = { s₁ with live := s.live ++ vm.toList }
  | lock self, s' => s' = s.modify self fun vm => { vm with vcpuListLock := true }
  | use self rest allocated, s' =>
      s' = { s.modify self fun vm => { vm with rest } with allocated }
  | release vm, s' =>
      vm ∈ s.live ∧ ∃ s₁, s.nvcSvmcReleaseVm options vm = .ok s₁ ∧
        s' = { s₁ with live := s.live.erase vm }

def Fits (options : SvmVmOptions) (s : SvmVms) : SvmVmCall → Prop
  | create answers => s.CreateFits options answers
  | release vm => vm.vcpuListLock = true
  | _ => True

end SvmVmCall

/-- The pool as the ASIDs of the processor were divided. -/
def SvmVms.Start (asidLimit : Nat) (nestedVirtualization : Bool) (s : SvmVms) : Prop :=
  s.tagging = svmTlbTagging asidLimit nestedVirtualization ∧ s.live = []

def SvmVmsReachable (asidLimit : Nat) (nestedVirtualization : Bool) (options : SvmVmOptions)
    (condition : SvmVms → SvmVmCall → Prop) : SvmVms → Prop :=
  Transition.Reachable (SvmVms.Start asidLimit nestedVirtualization) fun s s' =>
    ∃ call : SvmVmCall, condition s call ∧ call.Takes options s s'

namespace SvmVms

section Calls

variable {options : SvmVmOptions} {s : SvmVms} {answers : Answers} {vm : SvmCustomVm} {answer : Option Nat}
  {next : Nat → SvmVms → Created} {next' : SvmCustomVm → SvmVms → Created}

theorem release_of_unlocked (h : vm.vcpuListLock = false) :
    s.nvcSvmcReleaseVm options vm = .error .nullDereference := by
  unfold nvcSvmcReleaseVm
  rw [if_pos h]
  rfl

theorem release_of_locked (options : SvmVmOptions) (s : SvmVms) (h : vm.vcpuListLock = true) :
    ∃ s', s.nvcSvmcReleaseVm options vm = .ok s' ∧ s'.tagging =
      if vm.asid ≠ 0xffffffff then s.tagging.nvcSvmcFreeAsid vm.asid else s.tagging := by
  unfold nvcSvmcReleaseVm
  rw [if_neg (Bool.eq_false_iff.not.mpr (not_not.mpr h))]
  refine ⟨_, rfl, ?_⟩
  by_cases hasid : vm.asid = 0xffffffff <;> by_cases hnsv : options.enableNsv = true <;>
    by_cases havic : options.avic = true <;> simp [hasid, hnsv, havic, free]

/-- A creation that fails after its first allocation releases a VM that has no lock yet. -/
theorem allocFailure_eq (h : vm.vcpuListLock = false) :
    s.allocFailure options vm = .error .nullDereference := by
  unfold allocFailure
  rw [release_of_unlocked h]
  rfl

/-- What is left of a creation: it succeeds if these allocations do, and otherwise it does not return. -/
structure Resolves (asid : Nat) (tagging : TlbTagging) (allocated : Prop) (result : Created) : Prop where
  succeeds : allocated → ∃ new s', result = .ok (.success, some new, s') ∧ new.asid = asid ∧
    s'.tagging = tagging
  fails : ¬allocated → result = .error .nullDereference

theorem checked_resolves {asid : Nat} {tagging : TlbTagging} {p : Prop} (hlock : vm.vcpuListLock = false)
    (h : ∀ block, Resolves asid tagging p (next block (s.take block))) :
    Resolves asid tagging (answer ≠ none ∧ p) (s.checked options vm answer next) := by
  cases answer with
  | none => exact ⟨fun hall => absurd rfl hall.1, fun _ => allocFailure_eq hlock⟩
  | some block =>
      refine ⟨fun hall => (h block).succeeds hall.2, fun hall => (h block).fails fun hp => hall ?_⟩
      exact ⟨Option.some_ne_none block, hp⟩

theorem withVmsa_resolves {asid : Nat} {tagging : TlbTagging} {p : Prop} (hlock : vm.vcpuListLock = false)
    (h : ∀ vmsa s', s'.tagging = s.tagging →
      Resolves asid tagging p (next' { vm with vmsa } s')) :
    Resolves asid tagging
      ((options.enableNsv = true → answers.vmsa ≠ none ∧ answers.reassigned = true) ∧ p)
      (s.withVmsa options vm answers next') := by
  unfold withVmsa
  cases options.enableNsv with
  | false =>
      have hnext : Resolves asid tagging p (next' vm s) := h vm.vmsa s rfl
      refine ⟨fun hall => hnext.succeeds hall.2, fun hall => hnext.fails fun hp => hall ⟨?_, hp⟩⟩
      exact fun hnsv => (nomatch hnsv)
  | true =>
      have hchecked : Resolves asid tagging (answers.vmsa ≠ none ∧ answers.reassigned = true ∧ p)
          (s.checked options vm answers.vmsa fun vmsa s =>
            if answers.reassigned then next' { vm with vmsa := some vmsa } s
            else s.allocFailure options { vm with vmsa := some vmsa }) := by
        refine checked_resolves hlock fun vmsa => ?_
        cases answers.reassigned with
        | false => exact ⟨fun hall => (nomatch hall.1), fun _ => allocFailure_eq hlock⟩
        | true =>
            have hnext := h (some vmsa) (s.take vmsa) rfl
            exact ⟨fun hall => hnext.succeeds hall.2, fun hall => hnext.fails fun hp => hall ⟨rfl, hp⟩⟩
      refine ⟨fun hall => hchecked.succeeds ⟨(hall.1 rfl).1, (hall.1 rfl).2, hall.2⟩, fun hall => ?_⟩
      exact hchecked.fails fun ⟨hanswer, hreassigned, hp⟩ => hall ⟨fun _ => ⟨hanswer, hreassigned⟩, hp⟩

theorem withAvic_resolves {asid : Nat} {tagging : TlbTagging} {p : Prop} (hlock : vm.vcpuListLock = false)
    (h : ∀ avicLogical avicPhysical s', s'.tagging = s.tagging →
      Resolves asid tagging p (next' { vm with avicLogical, avicPhysical } s')) :
    Resolves asid tagging
      ((options.avic = true → answers.avicLogical ≠ none ∧ answers.avicPhysical ≠ none) ∧ p)
      (s.withAvic options vm answers next') := by
  unfold withAvic
  cases options.avic with
  | false =>
      have hnext : Resolves asid tagging p (next' vm s) := h vm.avicLogical vm.avicPhysical s rfl
      refine ⟨fun hall => hnext.succeeds hall.2, fun hall => hnext.fails fun hp => hall ⟨?_, hp⟩⟩
      exact fun havic => (nomatch havic)
  | true =>
      have hchecked : Resolves asid tagging
          (answers.avicLogical ≠ none ∧ answers.avicPhysical ≠ none ∧ p)
          (s.checked options vm answers.avicLogical fun avicLogical s =>
            s.checked options { vm with avicLogical := some avicLogical } answers.avicPhysical
              fun avicPhysical s =>
                next' { vm with avicLogical := some avicLogical, avicPhysical := some avicPhysical } s) := by
        refine checked_resolves hlock fun avicLogical => ?_
        refine checked_resolves hlock fun avicPhysical => ?_
        exact h (some avicLogical) (some avicPhysical) _ rfl
      refine ⟨fun hall => hchecked.succeeds ⟨(hall.1 rfl).1, (hall.1 rfl).2, hall.2⟩, fun hall => ?_⟩
      exact hchecked.fails fun ⟨hanswer, hanswer', hp⟩ => hall ⟨fun _ => ⟨hanswer, hanswer'⟩, hp⟩

theorem create_of_none (h : answers.vm = none) :
    s.nvcSvmcCreateVm options answers = .ok (.insufficientResources, none, s) := by
  unfold nvcSvmcCreateVm
  rw [h]
  rfl

theorem create_resolves (options : SvmVmOptions) (s : SvmVms) {self : Nat} (hvm : answers.vm = some self) :
    Resolves s.tagging.nvcSvmcAllocAsid.1 s.tagging.nvcSvmcAllocAsid.2 (Allocated options answers)
      (s.nvcSvmcCreateVm options answers) := by
  have hsteps : Resolves s.tagging.nvcSvmcAllocAsid.1 s.tagging.nvcSvmcAllocAsid.2
      (answers.ncr3 ≠ none ∧ answers.iopm ≠ none ∧ answers.msrpm ≠ none ∧
        (options.enableNsv = true → answers.vmsa ≠ none ∧ answers.reassigned = true) ∧
        answers.vcpu ≠ none ∧
        (options.avic = true → answers.avicLogical ≠ none ∧ answers.avicPhysical ≠ none) ∧ True)
      (s.nvcSvmcCreateVm options answers) := by
    unfold nvcSvmcCreateVm
    rw [hvm]
    refine checked_resolves rfl fun ncr3 => ?_
    refine checked_resolves rfl fun iopm => ?_
    refine checked_resolves rfl fun msrpm => ?_
    refine withVmsa_resolves rfl fun vmsa s' htagging => ?_
    refine checked_resolves rfl fun vcpu => ?_
    refine withAvic_resolves rfl fun avicLogical avicPhysical s'' htagging' => ?_
    refine ⟨fun _ => ⟨_, _, rfl, rfl, ?_⟩, fun h => absurd trivial h⟩
    rw [htagging']
    refine htagging.trans ?_
    cases answers.msrpmFull <;> rfl
  refine ⟨fun h => hsteps.succeeds ⟨h.ncr3, h.iopm, h.msrpm, h.vmsa, h.vcpu, h.avic, trivial⟩, fun h => ?_⟩
  exact hsteps.fails fun ⟨hncr3, hiopm, hmsrpm, hvmsa, hvcpu, havic, _⟩ =>
    h ⟨hncr3, hiopm, hmsrpm, hvmsa, hvcpu, havic⟩

/-- A bit below the limit is found, and its ASID needs no more than 32 bits. -/
theorem alloc_of_clear {i : Nat} (hbound : s.tagging.start + s.tagging.limit < 2 ^ 32)
    (hi : i < s.tagging.limit) (hclear : s.tagging.pool i = false) :
    ∃ n, FirstClear s.tagging.pool s.tagging.limit n ∧
      s.tagging.nvcSvmcAllocAsid = (s.tagging.start + n, s.tagging.setBitmap n) := by
  have hfirst := noirFindClearBit_of_clear hi hclear
  have hlt := hfirst.lt
  refine ⟨_, hfirst, ?_⟩
  rw [nvcSvmcAllocAsid_of_clear (by omega) hfirst, Nat.mod_eq_of_lt (by omega), Nat.add_comm]

theorem createBehaves_iff (hheld : TagsHeld s.tagging s.asids)
    (hbound : s.tagging.start + s.tagging.limit < 2 ^ 32) :
    s.CreateBehaves options answers ↔ s.CreateFits options answers := by
  cases hvm : answers.vm with
  | none =>
      refine ⟨fun _ => Or.inl hvm, fun _ => ⟨_, _, _, create_of_none hvm, ?_, ?_, fun _ => ⟨rfl, rfl⟩⟩⟩
      · exact fun _ h => (nomatch h)
      · exact fun h => (nomatch h)
  | some self =>
      have hresolves := create_resolves options s hvm
      constructor
      · rintro ⟨st, vm, s', hcreate, hexhausted, -⟩
        by_cases hall : Allocated options answers
        · refine Or.inr ⟨hall, ?_⟩
          obtain ⟨new, s₁, hok, -⟩ := hresolves.succeeds hall
          rw [hok] at hcreate
          cases hcreate
          by_contra hfull
          refine hexhausted (fun i hi => ?_) rfl
          by_contra hset
          exact hfull ⟨i, hi, Bool.eq_false_iff.mpr hset⟩
        · rw [hresolves.fails hall] at hcreate
          cases hcreate
      · intro hfits
        rcases hfits with hnone | ⟨hall, i, hi, hclear⟩
        · exact (nomatch hnone.symm.trans hvm)
        · obtain ⟨new, s₁, hok, hasid, htagging⟩ := hresolves.succeeds hall
          obtain ⟨n, hfirst, halloc⟩ := alloc_of_clear hbound hi hclear
          rw [halloc] at hasid htagging
          refine ⟨_, _, _, hok, fun hfull => ?_, fun _ => ⟨new, rfl, ?_⟩, fun h => absurd rfl h⟩
          · exact absurd (hclear.symm.trans (hfull i hi)) Bool.false_ne_true
          · rw [htagging, hasid]
            exact hheld.push hfirst

theorem releaseBehaves_iff (hheld : TagsHeld s.tagging s.asids)
    (hbound : s.tagging.start + s.tagging.limit < 2 ^ 32) (hvm : vm ∈ s.live) :
    s.ReleaseBehaves options vm ↔ vm.vcpuListLock = true := by
  constructor
  · rintro ⟨s', hrelease, -⟩
    by_contra hlock
    rw [release_of_unlocked (Bool.eq_false_iff.mpr hlock)] at hrelease
    cases hrelease
  · intro hlock
    obtain ⟨s', hrelease, htagging⟩ := release_of_locked options s hlock
    have hmem : vm.asid ∈ s.asids := List.mem_map_of_mem hvm
    have hrange := hheld.range vm.asid hmem
    have hbit : (vm.asid + 2 ^ 32 - s.tagging.start) % 2 ^ 32 = vm.asid - s.tagging.start := by omega
    rw [if_pos (by omega)] at htagging
    unfold TlbTagging.nvcSvmcFreeAsid at htagging
    rw [hbit] at htagging
    refine ⟨s', hrelease, htagging, ?_⟩
    rw [htagging]
    exact hheld.erase hmem

end Calls

/-- The ASIDs are divided as they were, and the bits of the pool are the ASIDs of the VMs there are. -/
structure Sound (asidLimit : Nat) (nestedVirtualization : Bool) (s : SvmVms) : Prop where
  start : s.tagging.start = (svmTlbTagging asidLimit nestedVirtualization).start
  limit : s.tagging.limit = (svmTlbTagging asidLimit nestedVirtualization).limit
  held : TagsHeld s.tagging s.asids

section Sound

variable {asidLimit : Nat} {nestedVirtualization : Bool} {options : SvmVmOptions} {s s' : SvmVms}
  {call : SvmVmCall}

theorem Start.sound (h : s.Start asidLimit nestedVirtualization) : s.Sound asidLimit nestedVirtualization where
  start := congrArg TlbTagging.start h.1
  limit := congrArg TlbTagging.limit h.1
  held := by
    have hasids : s.asids = [] := congrArg (List.map SvmCustomVm.asid) h.2
    rw [hasids, h.1]
    exact tagsHeld_empty fun _ => rfl

theorem Sound.bound (h : s.Sound asidLimit nestedVirtualization) (hlimit : asidLimit < 2 ^ 32)
    (htwo : 2 ≤ asidLimit) : s.tagging.start + s.tagging.limit < 2 ^ 32 := by
  have hsum : (svmTlbTagging asidLimit nestedVirtualization).start +
      (svmTlbTagging asidLimit nestedVirtualization).limit = asidLimit :=
    svmTagging_bound nestedVirtualization (fun _ => false) hlimit htwo
  rw [h.start, h.limit, hsum]
  exact hlimit

theorem Sound.of_same (h : s.Sound asidLimit nestedVirtualization) (htagging : s'.tagging = s.tagging)
    (hasids : s'.asids = s.asids) : s'.Sound asidLimit nestedVirtualization := by
  refine ⟨htagging ▸ h.start, htagging ▸ h.limit, ?_⟩
  rw [htagging, hasids]
  exact h.held

theorem modify_asids {self : Nat} {f : SvmCustomVm → SvmCustomVm} (hf : ∀ vm, (f vm).asid = vm.asid) :
    (s.modify self f).asids = s.asids := by
  unfold modify asids
  rw [List.map_map]
  refine List.map_congr_left fun vm _ => ?_
  dsimp only [Function.comp]
  split
  · exact hf vm
  · rfl

theorem Sound.create {answers : Answers} {st : NoirStatus} {vm : Option SvmCustomVm} {s₁ : SvmVms}
    (h : s.Sound asidLimit nestedVirtualization) (hbound : s.tagging.start + s.tagging.limit < 2 ^ 32)
    (hfits : s.CreateFits options answers)
    (hcreate : s.nvcSvmcCreateVm options answers = .ok (st, vm, s₁)) :
    ({ s₁ with live := s.live ++ vm.toList } : SvmVms).Sound asidLimit nestedVirtualization := by
  obtain ⟨st', vm', s₂, hok, -, hsuccess, hfailure⟩ := (createBehaves_iff h.held hbound).mpr hfits
  rw [hok] at hcreate
  cases hcreate
  by_cases hst : st = .success
  · obtain ⟨new, rfl, hheld⟩ := hsuccess hst
    have hresolves : s₁.tagging.start = s.tagging.start ∧ s₁.tagging.limit = s.tagging.limit := by
      rcases hfits with hnone | ⟨hall, -⟩
      · rw [create_of_none hnone] at hok
        cases hok
      · cases hvm : answers.vm with
        | none =>
            rw [create_of_none hvm] at hok
            cases hok
        | some self =>
            obtain ⟨new', s₃, hok', -, htagging⟩ :=
              (create_resolves options s hvm).succeeds hall
            rw [hok] at hok'
            cases hok'
            rw [htagging]
            unfold TlbTagging.nvcSvmcAllocAsid
            dsimp only
            split <;> exact ⟨rfl, rfl⟩
    refine ⟨hresolves.1.trans h.start, hresolves.2.trans h.limit, ?_⟩
    have hasids : ({ s₁ with live := s.live ++ [new] } : SvmVms).asids = s.asids ++ [new.asid] :=
      List.map_append
    dsimp only [Option.toList]
    rw [hasids]
    exact hheld
  · obtain ⟨rfl, htagging⟩ := hfailure hst
    exact h.of_same htagging (congrArg (List.map SvmCustomVm.asid) (List.append_nil s.live))

theorem Sound.release {vm : SvmCustomVm} {s₁ : SvmVms} (h : s.Sound asidLimit nestedVirtualization)
    (hbound : s.tagging.start + s.tagging.limit < 2 ^ 32) (hvm : vm ∈ s.live)
    (hlock : vm.vcpuListLock = true) (hrelease : s.nvcSvmcReleaseVm options vm = .ok s₁) :
    ({ s₁ with live := s.live.erase vm } : SvmVms).Sound asidLimit nestedVirtualization := by
  obtain ⟨s₂, hok, htagging, hheld⟩ := (releaseBehaves_iff h.held hbound hvm).mpr hlock
  rw [hok] at hrelease
  cases hrelease
  have hasids : ({ s₁ with live := s.live.erase vm } : SvmVms).asids = s.asids.erase vm.asid :=
    map_erase_of_nodup h.held.nodup hvm
  refine ⟨?_, ?_, ?_⟩
  · exact (congrArg TlbTagging.start htagging).trans h.start
  · exact (congrArg TlbTagging.limit htagging).trans h.limit
  · rw [hasids]
    exact hheld

theorem Sound.step (h : s.Sound asidLimit nestedVirtualization)
    (hbound : s.tagging.start + s.tagging.limit < 2 ^ 32) (hfits : call.Fits options s)
    (htakes : call.Takes options s s') : s'.Sound asidLimit nestedVirtualization := by
  cases call with
  | create answers =>
      obtain ⟨st, vm, s₁, hcreate, rfl⟩ := htakes
      exact h.create hbound hfits hcreate
  | lock self =>
      obtain rfl := htakes
      exact h.of_same rfl (modify_asids fun _ => rfl)
  | use self rest allocated =>
      obtain rfl := htakes
      exact h.of_same rfl (modify_asids (s := s) fun _ => rfl)
  | release vm =>
      obtain ⟨hvm, s₁, hrelease, rfl⟩ := htakes
      exact h.release hbound hvm hfits hrelease

end Sound

end SvmVms

/-- In every run whose calls fit, the ASIDs of the VMs are their own and those of the pool, and a further
creation or release does what it should exactly when it fits. -/
theorem SvmVmsReachable.asids_behave (asidLimit : Nat) (hlimit : asidLimit < 2 ^ 32) (htwo : 2 ≤ asidLimit)
    (nestedVirtualization : Bool) (options : SvmVmOptions) (s : SvmVms)
    (h : SvmVmsReachable asidLimit nestedVirtualization options
      (fun s call => call.Fits options s) s) :
    s.Sound asidLimit nestedVirtualization ∧
      (∀ answers, s.CreateBehaves options answers ↔ s.CreateFits options answers) ∧
      ∀ vm ∈ s.live, (s.ReleaseBehaves options vm ↔ vm.vcpuListLock = true) := by
  have hsound : s.Sound asidLimit nestedVirtualization :=
    h.invariant (fun _ => SvmVms.Start.sound) fun _ _ _ hs ⟨_, hfits, htakes⟩ =>
      hs.step (hs.bound hlimit htwo) hfits htakes
  have hbound := hsound.bound hlimit htwo
  refine ⟨hsound, fun answers => ?_, fun vm hvm => ?_⟩
  · exact SvmVms.createBehaves_iff hsound.held hbound
  · exact SvmVms.releaseBehaves_iff hsound.held hbound hvm

/-! A processor with eight ASIDs, and VMs for all of the pool. -/

/-- Every allocation succeeds. -/
def vmAnswers (block : Nat) : SvmVms.Answers :=
  ⟨some block, some (block + 1), some (block + 2), some (block + 3), some (block + 4), some (block + 5), true,
    some (block + 6), some (block + 7), some (block + 8)⟩

theorem vmAnswers_allocated (options : SvmVmOptions) (block : Nat) :
    SvmVms.Allocated options (vmAnswers block) where
  ncr3 := Option.some_ne_none _
  iopm := Option.some_ne_none _
  msrpm := Option.some_ne_none _
  vmsa _ := ⟨Option.some_ne_none _, rfl⟩
  vcpu := Option.some_ne_none _
  avic _ := ⟨Option.some_ne_none _, Option.some_ne_none _⟩

def afterCreations (asidLimit : Nat) (options : SvmVmOptions) : Nat → SvmVms
  | 0 => ⟨svmTlbTagging asidLimit false, fun _ => false, []⟩
  | n + 1 =>
      let s := afterCreations asidLimit options n
      match s.nvcSvmcCreateVm options (vmAnswers (16 * n)) with
      | .ok (_, vm, s') => { s' with live := s.live ++ vm.toList }
      | .error _ => s

theorem afterCreations_reachable (asidLimit : Nat) (options : SvmVmOptions) (n : Nat)
    {condition : SvmVms → SvmVmCall → Prop}
    (h : ∀ k < n, condition (afterCreations asidLimit options k) (.create (vmAnswers (16 * k)))) :
    SvmVmsReachable asidLimit false options condition (afterCreations asidLimit options n) := by
  induction n with
  | zero => exact .start ⟨rfl, rfl⟩
  | succ n ih =>
      have hvm : (vmAnswers (16 * n)).vm = some (16 * n) := rfl
      have hresolves := SvmVms.create_resolves options (afterCreations asidLimit options n) hvm
      obtain ⟨new, s', hok, -⟩ := hresolves.succeeds (vmAnswers_allocated options _)
      refine .step (ih fun k hk => h k (Nat.lt_succ_of_lt hk)) ⟨_, h n (Nat.lt_succ_self n), _, _, _, hok, ?_⟩
      rw [afterCreations, hok]

theorem firstAsid_behaves :
    (afterCreations 8 ⟨true, true⟩ 1).Sound 8 false ∧
      (∀ answers, (afterCreations 8 ⟨true, true⟩ 1).CreateBehaves ⟨true, true⟩ answers ↔
        (afterCreations 8 ⟨true, true⟩ 1).CreateFits ⟨true, true⟩ answers) ∧
      ∀ vm ∈ (afterCreations 8 ⟨true, true⟩ 1).live,
        ((afterCreations 8 ⟨true, true⟩ 1).ReleaseBehaves ⟨true, true⟩ vm ↔ vm.vcpuListLock = true) := by
  refine SvmVmsReachable.asids_behave 8 (by decide) (by decide) false ⟨true, true⟩ _ ?_
  refine afterCreations_reachable 8 ⟨true, true⟩ 1 fun k hk => ?_
  obtain rfl : k = 0 := by omega
  exact Or.inr ⟨vmAnswers_allocated _ _, 0, by decide, rfl⟩

/-- With all ASIDs of the pool in use, a creation still succeeds. -/
theorem not_forall_asidBehaves :
    ¬∀ (asidLimit : Nat) (nestedVirtualization : Bool) (options : SvmVmOptions) (s : SvmVms),
      2 ≤ asidLimit → asidLimit < 2 ^ 32 →
        SvmVmsReachable asidLimit nestedVirtualization options (fun _ _ => True) s →
          ∀ answers, s.CreateBehaves options answers := by
  intro h
  have hreached : SvmVmsReachable 8 false ⟨false, false⟩ (fun _ _ => True)
      (afterCreations 8 ⟨false, false⟩ 6) := afterCreations_reachable 8 _ 6 fun _ _ => trivial
  have hfull : ∀ i < 6, (afterCreations 8 ⟨false, false⟩ 6).tagging.pool i = true := by decide
  obtain ⟨st, vm, s', hcreate, hexhausted, -⟩ :=
    h 8 false ⟨false, false⟩ _ (by decide) (by decide) hreached (vmAnswers 96)
  have hvm : (vmAnswers 96).vm = some 96 := rfl
  have hresolves := SvmVms.create_resolves ⟨false, false⟩ (afterCreations 8 ⟨false, false⟩ 6) hvm
  obtain ⟨new, s₁, hok, -⟩ := hresolves.succeeds (vmAnswers_allocated _ _)
  rw [hok] at hcreate
  cases hcreate
  exact hexhausted hfull rfl

end NoirVisor
