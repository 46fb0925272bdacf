import NoirVisor.Platform
import NoirVisor.Tlb.Tagging
import NoirVisor.Transition

/-!
# VPIDs of customizable VMs

Creation and release of a customizable VM on VT, with the memory they take and give back.
-/

namespace NoirVisor

open Bitmap

/-- The allocator has a 32-bit index and returns 16 bits of it. -/
def TlbTagging.nvcVtcAllocVpid (t : TlbTagging) : Nat × TlbTagging :=
  (t.nvcSvmcAllocAsid.1 % 2 ^ 16, t.nvcSvmcAllocAsid.2)

/-- The pool of `nvc_vt_subvert_system`; its limit depends on nested virtualization. -/
def vtTlbTagging (limit : Nat) : TlbTagging := ⟨fun _ => false, 2, limit⟩

/-- `noir_vt_custom_vm`, with the blocks of memory it points to. `rest` are those of its vCPUs and of
its paging structures. -/
structure VtCustomVm where
  self : Nat
  msrBitmap : Option Nat := none
  vcpu : Option Nat := none
  eptp : Option Nat := none
  rest : List Nat := []
  vpid : Nat := 0
  vcpuListLock : Bool := false
deriving DecidableEq

structure VtVms where
  tagging : TlbTagging
  allocated : Nat → Bool
  live : List VtCustomVm

namespace VtVms

variable (s : VtVms)

def free (blocks : List Nat) : VtVms :=
  { s with allocated := fun block => s.allocated block && !blocks.contains block }

def take (block : Nat) : VtVms := { s with allocated := Function.update s.allocated block true }

/-- The structure itself is left to the caller. -/
def nvcVtcReleaseVm (vm : VtCustomVm) : Outcome VtVms := do
  let s := s.free vm.msrBitmap.toList
  -- The lock is acquired without a check.
  if vm.vcpuListLock = false then throw .nullDereference
  let s := s.free (vm.vcpu.toList ++ vm.eptp.toList ++ vm.rest)
  pure { s with tagging := s.tagging.resetBitmap ((vm.vpid + 2 ^ 32 - s.tagging.start) % 2 ^ 32) }

/-- What the memory manager gives for the structure, the MSR bitmap, the list of vCPUs and the root of
the paging structures. -/
structure Answers where
  vm : Option Nat
  msrBitmap : Option Nat
  vcpu : Option Nat
  eptp : Option Nat

/-- A failed creation releases the VM and forgets it. The comparison of the VPID is between 16 and 32
bits. -/
def nvcVtcCreateVm (answers : Answers) : Outcome (NoirStatus × Option VtCustomVm × VtVms) := do
  let allocFailure (s : VtVms) (vm : VtCustomVm) : Outcome (NoirStatus × Option VtCustomVm × VtVms) := do
    pure (.insufficientResources, none, ← s.nvcVtcReleaseVm vm)
  match answers.vm with
  | none => pure (.insufficientResources, none, s)
  | some self =>
      let vm : VtCustomVm := { self }
      let s := s.take self
      match answers.msrBitmap with
      | none => allocFailure s vm
      | some msrBitmap =>
          let vm := { vm with msrBitmap := some msrBitmap }
          let s := s.take msrBitmap
          match answers.vcpu with
          | none => allocFailure s vm
          | some vcpu =>
              let vm := { vm with vcpu := some vcpu }
              let s := s.take vcpu
              match answers.eptp with
              | none => allocFailure s vm
              | some eptp =>
                  let vm := { vm with eptp := some eptp }
                  let s := s.take eptp
                  let (vpid, tagging) := s.tagging.nvcVtcAllocVpid
                  let vm := { vm with vpid }
                  let s := { s with tagging }
                  if vm.vpid = 0xffffffff then allocFailure s vm
                  else pure (.success, some vm, s)

end VtVms

def hostVpid : Nat := 1

/-- The bits that are set are those of the VMs there are. -/
structure VpidsHeld (t : TlbTagging) (vpids : List Nat) : Prop where
  nodup : vpids.Nodup
  range : ∀ vpid ∈ vpids, t.start ≤ vpid ∧ vpid < t.start + t.limit
  host : ∀ vpid ∈ vpids, vpid ≠ 0 ∧ vpid ≠ hostVpid
  pool : ∀ i, t.pool i = true ↔ t.start + i ∈ vpids

namespace VtVms

variable (s : VtVms)

def vpids : List Nat := s.live.map VtCustomVm.vpid

/-- The creation returns. It succeeds with a VPID of its own, and if it fails, as it must with the pool
exhausted, it leaves the pool and the memory as they were. -/
def CreateBehaves (answers : Answers) : Prop :=
  ∃ st vm s', s.nvcVtcCreateVm answers = .ok (st, vm, s') ∧
    ((∀ i < s.tagging.limit, s.tagging.pool i = true) → st ≠ .success) ∧
    (st = .success → ∃ new, vm = some new ∧ VpidsHeld s'.tagging (s.vpids ++ [new.vpid])) ∧
    (st ≠ .success → s'.tagging.pool = s.tagging.pool ∧ s'.allocated = s.allocated)

/-- The release returns, and gives back the VPID of this VM only. -/
def ReleaseBehaves (vm : VtCustomVm) : Prop :=
  ∃ s', s.nvcVtcReleaseVm vm = .ok s' ∧
    s'.tagging = s.tagging.resetBitmap (vm.vpid - s.tagging.start) ∧
    VpidsHeld s'.tagging (s.vpids.erase vm.vpid)

/-- No allocation fails after that of the structure, and a bit of the pool is clear whose VPID has 16
bits. -/
def CreateFits (answers : Answers) : Prop :=
  answers.vm = none ∨
    (answers.msrBitmap ≠ none ∧ answers.vcpu ≠ none ∧ answers.eptp ≠ none) ∧
      ∃ i, FirstClear s.tagging.pool s.tagging.limit i ∧ s.tagging.start + i < 2 ^ 16

end VtVms

/-- The calls. The caller of a creation gives the VM its lock; vCPUs and mappings take memory. -/
inductive VtVmCall where
  | create (answers : VtVms.Answers)
  | lock (self : Nat)
  | use (self : Nat) (rest : List Nat) (allocated : Nat → Bool)
  | release (vm : VtCustomVm)

def VtVms.modify (s : VtVms) (self : Nat) (f : VtCustomVm → VtCustomVm) : VtVms :=
  { s with live := s.live.map fun vm => if vm.self = self then f vm else vm }

def VtVmCall.Takes (s : VtVms) : VtVmCall → VtVms → Prop
  | create answers, s' =>
      ∃ st vm s₁, s.nvcVtcCreateVm answers = .ok (st, vm, s₁) ∧
        s' = { s₁ with live := s.live ++ vm.toList }
  | lock self, s' => s' = s.modify self fun vm => { vm with vcpuListLock := true }
  | use self rest allocated, s' =>
      s' = { s.modify self fun vm => { vm with rest } with allocated }
  | release vm, s' =>
      vm ∈ s.live ∧ ∃ s₁, s.nvcVtcReleaseVm vm = .ok s₁ ∧ s' = { s₁ with live := s.live.erase vm }

def VtVmCall.Fits (s : VtVms) : VtVmCall → Prop
  | create answers => s.CreateFits answers
  | release vm => vm.vcpuListLock = true
  | _ => True

def VtVms.Start (limit : Nat) (s : VtVms) : Prop := s.tagging = vtTlbTagging limit ∧ s.live = []

def VtVmsReachable (limit : Nat) : VtVms → Prop :=
  Transition.Reachable (VtVms.Start limit) fun s s' =>
    ∃ call : VtVmCall, call.Fits s ∧ call.Takes s s'

section Held

variable {t : TlbTagging} {vpids : List Nat} {vpid i : Nat}

theorem VpidsHeld.tags (h : VpidsHeld t vpids) : TagsHeld t vpids := ⟨h.nodup, h.range, h.pool⟩

theorem TagsHeld.vpidsHeld (h : TagsHeld t vpids) (hhost : ∀ vpid ∈ vpids, vpid ≠ 0 ∧ vpid ≠ hostVpid) :
    VpidsHeld t vpids := ⟨h.nodup, h.range, hhost, h.pool⟩

theorem VpidsHeld.push (h : VpidsHeld t vpids) (hstart : t.start = 2)
    (hfirst : FirstClear t.pool t.limit i) :
    VpidsHeld (t.setBitmap i) (vpids ++ [t.start + i]) := by
  refine (h.tags.push hfirst).vpidsHeld fun vpid hvpid => ?_
  rcases List.mem_append.mp hvpid with hold | hnew
  · exact h.host vpid hold
  · rw [List.mem_singleton.mp hnew, hstart]
    unfold hostVpid
    omega

theorem VpidsHeld.erase (h : VpidsHeld t vpids) (hvpid : vpid ∈ vpids) :
    VpidsHeld (t.resetBitmap (vpid - t.start)) (vpids.erase vpid) :=
  (h.tags.erase hvpid).vpidsHeld fun vpid' hvpid' => h.host vpid' (List.mem_of_mem_erase hvpid')

end Held

namespace VtVms

section Calls

variable {s : VtVms} {answers : Answers} {vm : VtCustomVm} {limit : Nat}

theorem release_of_unlocked (h : vm.vcpuListLock = false) :
    s.nvcVtcReleaseVm vm = .error .nullDereference := by
  unfold nvcVtcReleaseVm
  rw [if_pos h]
  rfl

theorem release_of_locked (h : vm.vcpuListLock = true) :
    ∃ s', s.nvcVtcReleaseVm vm = .ok s' ∧
      s'.tagging = s.tagging.resetBitmap ((vm.vpid + 2 ^ 32 - s.tagging.start) % 2 ^ 32) := by
  unfold nvcVtcReleaseVm
  rw [if_neg (Bool.eq_false_iff.not.mpr (not_not.mpr h))]
  exact ⟨_, rfl, rfl⟩

theorem create_of_none (h : answers.vm = none) :
    s.nvcVtcCreateVm answers = .ok (.insufficientResources, none, s) := by
  unfold nvcVtcCreateVm
  rw [h]
  rfl

/-- A creation that fails after its first allocation releases a VM that has no lock yet. -/
theorem create_fails {self : Nat} (hvm : answers.vm = some self)
    (h : ¬(answers.msrBitmap ≠ none ∧ answers.vcpu ≠ none ∧ answers.eptp ≠ none)) :
    s.nvcVtcCreateVm answers = .error .nullDereference := by
  unfold nvcVtcCreateVm
  rw [hvm]
  dsimp only
  cases hmsr : answers.msrBitmap with
  | none =>
      dsimp only
      rw [release_of_unlocked rfl]
      rfl
  | some msrBitmap =>
      cases hvcpu : answers.vcpu with
      | none =>
          dsimp only
          rw [release_of_unlocked rfl]
          rfl
      | some vcpu =>
          cases heptp : answers.eptp with
          | none =>
              dsimp only
              rw [release_of_unlocked rfl]
              rfl
          | some eptp => simp [hmsr, hvcpu, heptp] at h

theorem create_succeeds {self : Nat} (hvm : answers.vm = some self)
    (h : answers.msrBitmap ≠ none ∧ answers.vcpu ≠ none ∧ answers.eptp ≠ none) :
    ∃ new s', s.nvcVtcCreateVm answers = .ok (.success, some new, s') ∧
      new.vpid = s.tagging.nvcVtcAllocVpid.1 ∧ s'.tagging = s.tagging.nvcVtcAllocVpid.2 := by
  obtain ⟨hmsr, hvcpu, heptp⟩ := h
  obtain ⟨msrBitmap, hmsr⟩ := Option.ne_none_iff_exists'.mp hmsr
  obtain ⟨vcpu, hvcpu⟩ := Option.ne_none_iff_exists'.mp hvcpu
  obtain ⟨eptp, heptp⟩ := Option.ne_none_iff_exists'.mp heptp
  unfold nvcVtcCreateVm
  rw [hvm, hmsr, hvcpu, heptp]
  have hshort : s.tagging.nvcVtcAllocVpid.1 < 2 ^ 16 := Nat.mod_lt _ (by decide)
  have hvpid : s.tagging.nvcVtcAllocVpid.1 ≠ 0xffffffff := by omega
  dsimp only [take]
  rw [if_neg hvpid]
  exact ⟨_, _, rfl, rfl, rfl⟩

theorem alloc_of_fits {i : Nat} (hlimit : s.tagging.limit < 2 ^ 32)
    (hfirst : FirstClear s.tagging.pool s.tagging.limit i) (hlarge : s.tagging.start + i < 2 ^ 16) :
    s.tagging.nvcVtcAllocVpid.1 = s.tagging.start + i ∧
      s.tagging.nvcVtcAllocVpid.2 = s.tagging.setBitmap i := by
  have hfound := noirFindClearBit_of_clear hfirst.lt hfirst.clear
  have halloc := nvcSvmcAllocAsid_of_clear hlimit hfound
  rw [hfound.unique hfirst] at halloc
  unfold TlbTagging.nvcVtcAllocVpid
  rw [halloc]
  exact ⟨by dsimp only; omega, rfl⟩

theorem createBehaves_iff (hheld : VpidsHeld s.tagging s.vpids) (hstart : s.tagging.start = 2)
    (hlimit : s.tagging.limit < 2 ^ 32) : s.CreateBehaves answers ↔ s.CreateFits answers := by
  constructor
  · rintro ⟨st, vm, s', hcreate, hexhausted, hnew, -⟩
    cases hvm : answers.vm with
    | none => exact Or.inl hvm
    | some self =>
        by_cases hall : answers.msrBitmap ≠ none ∧ answers.vcpu ≠ none ∧ answers.eptp ≠ none
        · refine Or.inr ⟨hall, ?_⟩
          obtain ⟨new, s₁, hok, hvpid, htagging⟩ := create_succeeds (s := s) hvm hall
          rw [hok] at hcreate
          cases hcreate
          have hclear : ∃ i < s.tagging.limit, s.tagging.pool i = false := by
            by_contra hfull
            refine hexhausted (fun i hi => ?_) rfl
            by_contra hset
            exact hfull ⟨i, hi, Bool.eq_false_iff.mpr hset⟩
          obtain ⟨i, hi, hclear⟩ := hclear
          have hfirst := noirFindClearBit_of_clear hi hclear
          refine ⟨_, hfirst, ?_⟩
          by_contra hlarge
          obtain ⟨new', hsame, hheld'⟩ := hnew rfl
          cases hsame
          have halloc := nvcSvmcAllocAsid_of_clear hlimit hfirst
          have hsecond : s.tagging.nvcVtcAllocVpid.2 = s.tagging.nvcSvmcAllocAsid.2 := rfl
          rw [hsecond, halloc] at htagging
          have hbit : s'.tagging.pool (noirFindClearBit s.tagging.pool s.tagging.limit) = true := by
            rw [htagging]
            exact Function.update_self _ _ _
          have hmem := (hheld'.pool _).mp hbit
          rw [htagging, List.mem_append, List.mem_singleton] at hmem
          rcases hmem with hold | hsame
          · have hset := (hheld.pool _).mpr hold
            exact absurd (hfirst.clear.symm.trans hset) Bool.false_ne_true
          · have hshort : new.vpid < 2 ^ 16 := hvpid ▸ Nat.mod_lt _ (by decide)
            exact hlarge (hsame ▸ hshort)
        · rw [create_fails hvm hall] at hcreate
          cases hcreate
  · intro hfits
    rcases hfits with hnone | ⟨hall, i, hfirst, hlarge⟩
    · refine ⟨_, _, _, create_of_none hnone, fun _ h => (nomatch h), fun h => (nomatch h), fun _ => ?_⟩
      exact ⟨rfl, rfl⟩
    · cases hvm : answers.vm with
      | none =>
          refine ⟨_, _, _, create_of_none hvm, fun _ h => (nomatch h), fun h => (nomatch h), fun _ => ?_⟩
          exact ⟨rfl, rfl⟩
      | some self =>
          obtain ⟨new, s₁, hok, hvpid, htagging⟩ := create_succeeds (s := s) hvm hall
          obtain ⟨hnew, hnext⟩ := alloc_of_fits hlimit hfirst hlarge
          refine ⟨_, _, _, hok, fun hfull => ?_, fun _ => ⟨new, rfl, ?_⟩, fun h => absurd rfl h⟩
          · exact absurd (hfirst.clear.symm.trans (hfull i hfirst.lt)) Bool.false_ne_true
          · rw [htagging, hvpid, hnew, hnext]
            exact hheld.push hstart hfirst

theorem releaseBehaves_iff (hheld : VpidsHeld s.tagging s.vpids) (hstart : s.tagging.start = 2)
    (hlimit : s.tagging.limit < 2 ^ 32) (hvm : vm ∈ s.live) :
    s.ReleaseBehaves vm ↔ vm.vcpuListLock = true := by
  constructor
  · rintro ⟨s', hrelease, -⟩
    by_contra hlock
    rw [release_of_unlocked (Bool.eq_false_iff.mpr hlock)] at hrelease
    cases hrelease
  · intro hlock
    obtain ⟨s', hrelease, htagging⟩ := release_of_locked (s := s) hlock
    have hmem : vm.vpid ∈ s.vpids := List.mem_map_of_mem hvm
    have hrange := hheld.range vm.vpid hmem
    have hbit : (vm.vpid + 2 ^ 32 - s.tagging.start) % 2 ^ 32 = vm.vpid - s.tagging.start := by omega
    rw [hbit] at htagging
    refine ⟨s', hrelease, htagging, ?_⟩
    rw [htagging]
    exact hheld.erase hmem

end Calls

/-- The pool is as it was set up, and its bits are the VPIDs of the VMs there are. -/
structure Sound (limit : Nat) (s : VtVms) : Prop where
  start : s.tagging.start = 2
  limit : s.tagging.limit = limit
  held : VpidsHeld s.tagging s.vpids

section Sound

variable {limit : Nat} {s s' : VtVms} {call : VtVmCall}

theorem Start.sound (h : s.Start limit) : s.Sound limit where
  start := by
    rw [h.1]
    rfl
  limit := by
    rw [h.1]
    rfl
  held := by
    have hvpids : s.vpids = [] := by
      unfold vpids
      rw [h.2]
      rfl
    rw [hvpids, h.1]
    refine ⟨List.nodup_nil, fun _ h => (nomatch h), fun _ h => (nomatch h), fun i => ?_⟩
    exact ⟨fun h => (nomatch h), fun h => (nomatch h)⟩

theorem modify_vpids {self : Nat} {f : VtCustomVm → VtCustomVm} (hf : ∀ vm, (f vm).vpid = vm.vpid) :
    (s.modify self f).vpids = s.vpids := by
  unfold modify vpids
  rw [List.map_map]
  refine List.map_congr_left fun vm _ => ?_
  dsimp only [Function.comp]
  split
  · exact hf vm
  · rfl

theorem Sound.of_same (h : s.Sound limit) (htagging : s'.tagging = s.tagging)
    (hvpids : s'.vpids = s.vpids) : s'.Sound limit := by
  refine ⟨htagging ▸ h.start, htagging ▸ h.limit, ?_⟩
  rw [htagging, hvpids]
  exact h.held

theorem Sound.create {answers : Answers} {st : NoirStatus} {vm : Option VtCustomVm} {s₁ : VtVms}
    (h : s.Sound limit) (hlimit : limit < 2 ^ 32) (hfits : s.CreateFits answers)
    (hcreate : s.nvcVtcCreateVm answers = .ok (st, vm, s₁)) :
    ({ s₁ with live := s.live ++ vm.toList } : VtVms).Sound limit := by
  cases hvm : answers.vm with
  | none =>
      rw [create_of_none hvm] at hcreate
      cases hcreate
      exact h.of_same rfl (congrArg (List.map VtCustomVm.vpid) (List.append_nil s.live))
  | some self =>
      rcases hfits with hnone | ⟨hall, i, hfirst, hlarge⟩
      · rw [hnone] at hvm
        cases hvm
      obtain ⟨new, s₂, hok, hvpid, htagging⟩ := create_succeeds (s := s) hvm hall
      rw [hok] at hcreate
      cases hcreate
      obtain ⟨hnew, hnext⟩ := alloc_of_fits (h.limit ▸ hlimit) hfirst hlarge
      rw [hnew] at hvpid
      rw [hnext] at htagging
      have hvpids : ({ s₁ with live := s.live ++ [new] } : VtVms).vpids =
          s.vpids ++ [s.tagging.start + i] := by
        rw [← hvpid]
        exact List.map_append
      refine ⟨?_, ?_, ?_⟩
      · exact (congrArg TlbTagging.start htagging).trans h.start
      · exact (congrArg TlbTagging.limit htagging).trans h.limit
      · dsimp only [Option.toList]
        rw [hvpids, htagging]
        exact h.held.push h.start hfirst

theorem Sound.release {vm : VtCustomVm} {s₁ : VtVms} (h : s.Sound limit) (hlimit : limit < 2 ^ 32)
    (hvm : vm ∈ s.live) (hlock : vm.vcpuListLock = true)
    (hrelease : s.nvcVtcReleaseVm vm = .ok s₁) :
    ({ s₁ with live := s.live.erase vm } : VtVms).Sound limit := by
  obtain ⟨s₂, hok, htagging, hheld⟩ :=
    (releaseBehaves_iff h.held h.start (h.limit ▸ hlimit) hvm).mpr hlock
  rw [hok] at hrelease
  cases hrelease
  have hvpids : ({ s₁ with live := s.live.erase vm } : VtVms).vpids = s.vpids.erase vm.vpid :=
    map_erase_of_nodup h.held.nodup hvm
  refine ⟨?_, ?_, ?_⟩
  · exact (congrArg TlbTagging.start htagging).trans h.start
  · exact (congrArg TlbTagging.limit htagging).trans h.limit
  · rw [hvpids]
    exact hheld

theorem Sound.step (h : s.Sound limit) (hlimit : limit < 2 ^ 32) (hfits : call.Fits s)
    (htakes : call.Takes s s') : s'.Sound limit := by
  cases call with
  | create answers =>
      obtain ⟨st, vm, s₁, hcreate, rfl⟩ := htakes
      exact h.create hlimit hfits hcreate
  | lock self =>
      obtain rfl := htakes
      exact h.of_same rfl (modify_vpids fun _ => rfl)
  | use self rest allocated =>
      obtain rfl := htakes
      exact h.of_same rfl (modify_vpids (s := s) fun _ => rfl)
  | release vm =>
      obtain ⟨hvm, s₁, hrelease, rfl⟩ := htakes
      exact h.release hlimit hvm hfits hrelease

end Sound

end VtVms

/-- In every run whose calls fit, the VPIDs of the VMs are their own, and a further creation or release
does what it should exactly when it fits. -/
theorem VtVmsReachable.behaves (limit : Nat) (hlimit : limit < 2 ^ 32) (s : VtVms)
    (h : VtVmsReachable limit s) :
    VpidsHeld s.tagging s.vpids ∧ s.tagging.limit = limit ∧
      (∀ answers, s.CreateBehaves answers ↔ s.CreateFits answers) ∧
      ∀ vm ∈ s.live, (s.ReleaseBehaves vm ↔ vm.vcpuListLock = true) := by
  have hsound : s.Sound limit :=
    h.invariant (fun _ => VtVms.Start.sound) fun _ _ _ hs ⟨_, hfits, htakes⟩ =>
      hs.step hlimit hfits htakes
  have hbound : s.tagging.limit < 2 ^ 32 := hsound.limit ▸ hlimit
  refine ⟨hsound.held, hsound.limit, fun answers => ?_, fun vm hvm => ?_⟩
  · exact VtVms.createBehaves_iff hsound.held hsound.start hbound
  · exact VtVms.releaseBehaves_iff hsound.held hsound.start hbound hvm

/-! A small pool, and the first VM in it. -/

def noVms (limit : Nat) : VtVms := ⟨vtTlbTagging limit, fun _ => false, []⟩

theorem noVms_reachable (limit : Nat) : VtVmsReachable limit (noVms limit) := .start ⟨rfl, rfl⟩

def firstVm : VtCustomVm :=
  { self := 1, msrBitmap := some 2, vcpu := some 3, eptp := some 4, vpid := 2 }

def firstAnswers : VtVms.Answers := ⟨some 1, some 2, some 3, some 4⟩

def firstVms : VtVms :=
  { ((((noVms 62).take 1).take 2).take 3).take 4 with
    tagging := (vtTlbTagging 62).setBitmap 0
    live := [firstVm] }

theorem firstVms_reachable : VtVmsReachable 62 firstVms := by
  have hfirst : FirstClear (noVms 62).tagging.pool (noVms 62).tagging.limit 0 :=
    ⟨by decide, rfl, fun j hj => absurd hj (Nat.not_lt_zero j)⟩
  refine .step (noVms_reachable 62) ⟨.create firstAnswers, Or.inr ⟨⟨?_, ?_, ?_⟩, 0, hfirst, by decide⟩,
    .success, some firstVm, _, rfl, rfl⟩
  · exact Option.some_ne_none 2
  · exact Option.some_ne_none 3
  · exact Option.some_ne_none 4

theorem firstVms_behaves :
    VpidsHeld firstVms.tagging firstVms.vpids ∧ firstVms.tagging.limit = 62 ∧
      (∀ answers, firstVms.CreateBehaves answers ↔ firstVms.CreateFits answers) ∧
      ∀ vm ∈ firstVms.live, (firstVms.ReleaseBehaves vm ↔ vm.vcpuListLock = true) :=
  VtVmsReachable.behaves 62 (by decide) firstVms firstVms_reachable

/-- With no memory for the MSR bitmap, the creation acquires a lock that is not there. -/
theorem not_forall_createBehaves :
    ¬∀ (limit : Nat) (s : VtVms), limit < 2 ^ 32 → VtVmsReachable limit s →
      ∀ answers, s.CreateBehaves answers := by
  intro h
  obtain ⟨st, vm, s', hcreate, -⟩ := h 32766 (noVms 32766) (by decide) (noVms_reachable 32766)
    ⟨some 1, none, none, none⟩
  have hfails : (noVms 32766).nvcVtcCreateVm ⟨some 1, none, none, none⟩ = .error .nullDereference :=
    VtVms.create_fails rfl fun h => h.1 rfl
  rw [hfails] at hcreate
  cases hcreate

end NoirVisor
