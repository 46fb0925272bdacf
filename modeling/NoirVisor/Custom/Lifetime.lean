import Mathlib.Logic.Relation
import NoirVisor.Custom.Handles
import NoirVisor.Cvm.References

/-!
# Lifetime of VMs with handles

Threads look up a VM by its handle and go on to use it without a lock of the table, while others drop
references to it or release it.
-/

namespace NoirVisor

/-- Where a thread is. `drops` counts the references that a decrement has dropped, none in the release by a
handle, which holds the lock of the table. -/
inductive LifetimePhase where
  | idle
  | operating (vm : Nat)
  | incrementing (vm : Nat)
  | decrementing (handle vm drops : Nat)
  /-- In `nvc_release_vm`, first before the VM is taken off the list and then before it is freed. -/
  | destroying (handle vm : Nat) (drops : Option Nat)
  | freeing (handle vm : Nat) (drops : Option Nat)
  | deleting (handle vm : Nat) (drops : Option Nat)

/-- The VMs by address: `releases` is how often each was freed, and `misused` whether one was used after
that. `dropped` has the drops of the decrements that are done. -/
structure VmLifetimes (ι : Type) where
  table : NoirCvmHandleTable
  tableOwner : Option ι
  phase : ι → LifetimePhase
  refCount : Nat → Nat
  releases : Nat → Nat
  misused : Bool
  dropped : List Nat

/-- A call by a handle, a use of a VM, which may be the last of the call, or what comes next. -/
inductive LifetimeEvent (ι : Type) where
  | operate (t : ι) (handle : Nat)
  | increment (t : ι) (handle : Nat)
  | decrement (t : ι) (handle : Nat)
  | release (t : ι) (handle : Nat)
  | use (t : ι) (last : Bool)
  | step (t : ι)

/-- What comes after `nvc_release_vm`, or what is made of the status that it had. -/
def NoirCvmHandleTable.dropHandle (t : NoirCvmHandleTable) (handle : Nat) : Outcome NoirCvmHandleTable := do
  let tableCode ← noirDeleteHandleUnsafe handle handleTableFuel t.tableCode
  pure { t with tableCode, handleCount := (t.handleCount + 2 ^ 64 - 1) % 2 ^ 64 }

open TableWord (Reaches)

namespace VmLifetimes

variable {ι : Type} [DecidableEq ι] (s : VmLifetimes ι)

def setPhase (t : ι) (phase : LifetimePhase) : VmLifetimes ι :=
  { s with phase := Function.update s.phase t phase }

/-- The VM is read or written. -/
def touch (vm : Nat) : VmLifetimes ι := { s with misused := s.misused || s.releases vm != 0 }

/-- The lookup under the shared lock, and what the thread does with a VM. -/
def lookupFor (t : ι) (handle : Nat) (phase : Nat → LifetimePhase) : Option (VmLifetimes ι) :=
  match s.phase t, s.tableOwner, s.table.noirReferenceVirtualMachineByHandle handle with
  | .idle, none, .ok none => some s
  | .idle, none, .ok (some vm) => some (s.setPhase t (phase vm))
  | _, _, _ => none

/-- `NoirReleaseVirtualMachine`, up to the call of `nvc_release_vm`. -/
def releaseByHandle (t : ι) (handle : Nat) : Option (VmLifetimes ι) :=
  (s.lookupFor t handle fun vm => .destroying handle vm none).map fun s' =>
    match s'.phase t with
    | .idle => s'
    | _ => { s' with tableOwner := some t }

/-- The first call of `nvc_deref_vm` is followed by a second one. -/
def derefReturns (t : ι) (handle vm drops : Nat) : VmLifetimes ι :=
  if drops = 1 then s.setPhase t (.decrementing handle vm drops)
  else { s.setPhase t .idle with dropped := drops :: s.dropped }

def deref (t : ι) (handle vm drops : Nat) : VmLifetimes ι :=
  let prevRefcnt := noirLockedDec (s.refCount vm)
  let s := { s.touch vm with refCount := Function.update s.refCount vm prevRefcnt }
  if prevRefcnt ≠ 1 then s.derefReturns t handle vm (drops + 1)
  else s.setPhase t (.destroying handle vm (some (drops + 1)))

/-- The deletion of the handle. The second call of `nvc_deref_vm` is not followed by one. -/
def delete (t : ι) (handle vm : Nat) : Option Nat → Option (VmLifetimes ι)
  | none =>
      match s.table.dropHandle handle with
      | .ok table => some { s.setPhase t .idle with table, tableOwner := none }
      | .error _ => none
  | some drops =>
      if drops ≠ 1 then some (s.derefReturns t handle vm drops)
      else
        match s.tableOwner, s.table.dropHandle handle with
        | none, .ok table => some { s.derefReturns t handle vm drops with table }
        | _, _ => none

def stepThread (t : ι) : Option (VmLifetimes ι) :=
  match s.phase t with
  | .idle | .operating _ => none
  | .incrementing vm =>
      let refCount := Function.update s.refCount vm (noirLockedInc (s.refCount vm))
      some { (s.touch vm).setPhase t .idle with refCount }
  | .decrementing handle vm drops => some (s.deref t handle vm drops)
  | .destroying handle vm drops => some ((s.touch vm).setPhase t (.freeing handle vm drops))
  | .freeing handle vm drops =>
      let releases := Function.update s.releases vm (s.releases vm + 1)
      some { (s.touch vm).setPhase t (.deleting handle vm drops) with releases }
  | .deleting handle vm drops => s.delete t handle vm drops

/-- None if the thread is not there, has to wait, or the lookup fails. -/
def next : LifetimeEvent ι → Option (VmLifetimes ι)
  | .operate t handle => s.lookupFor t handle .operating
  | .increment t handle => s.lookupFor t handle .incrementing
  | .decrement t handle => s.lookupFor t handle fun vm => .decrementing handle vm 0
  | .release t handle => s.releaseByHandle t handle
  | .use t last =>
      match s.phase t with
      | .operating vm => some ((s.touch vm).setPhase t (if last then .idle else .operating vm))
      | _ => none
  | .step t => s.stepThread t

/-- The thread will use the VM. -/
def LifetimeUses (vm : Nat) : LifetimePhase → Prop
  | .operating vm' | .incrementing vm' | .decrementing _ vm' _ => vm' = vm
  | _ => False

/-- What the callers rely on, between any two steps. -/
structure Sound : Prop where
  used : s.misused = false
  once : ∀ vm, s.releases vm ≤ 1
  drops : ∀ drops ∈ s.dropped, drops = 1
  lookups : s.tableOwner = none → ∀ handle vm, s.releases vm ≠ 0 →
    s.table.noirReferenceVirtualMachineByHandle handle ≠ .ok (some vm)

/-- The value is a handle that was given out, whether or not it was deleted since. -/
def GivenOut (handle : Nat) : Prop :=
  handle < 512 ^ (s.table.levels + 1) ∧ Reaches s.table.levels s.table.tableCode handle

/-- The calls are for handles that were given out. -/
def Allowed : LifetimeEvent ι → Prop
  | .operate _ handle | .increment _ handle | .decrement _ handle | .release _ handle => s.GivenOut handle
  | _ => True

/-- No decrement finds a VM, and no VM is freed that another thread will use. -/
def Fits : LifetimeEvent ι → Prop
  | .decrement _ handle => s.table.noirReferenceVirtualMachineByHandle handle = .ok none
  | .step t => ∀ handle vm drops, s.phase t = .freeing handle vm drops → ∀ t', ¬LifetimeUses vm (s.phase t')
  | _ => True

/-- Each VM of the table has one handle and one reference. -/
def Start : Prop :=
  (∃ host, HandlesReachable (fun s call => call.Fits s) host ∧ host.table = s.table ∧
    (host.live.map Prod.snd).Nodup) ∧
  s.tableOwner = none ∧ (∀ t, s.phase t = .idle) ∧ (∀ vm, s.refCount vm = 1) ∧
    (∀ vm, s.releases vm = 0) ∧ s.misused = false ∧ s.dropped = []

def Goes (condition : VmLifetimes ι → LifetimeEvent ι → Prop) (s s' : VmLifetimes ι) : Prop :=
  ∃ e, s.Allowed e ∧ condition s e ∧ s.next e = some s'

def Reachable (condition : VmLifetimes ι → LifetimeEvent ι → Prop) : VmLifetimes ι → Prop :=
  Transition.Reachable Start (Goes condition)

/-- Where a thread is, if no call is a decrement: only the one that has the lock releases a VM. -/
def Placed (live : List (Nat × Nat)) (t : ι) : LifetimePhase → Prop
  | .idle => True
  | .operating vm | .incrementing vm => s.releases vm = 0
  | .decrementing .. => False
  | .destroying handle vm drops | .freeing handle vm drops =>
      drops = none ∧ s.tableOwner = some t ∧ (handle, vm) ∈ live ∧ ∀ entry ∈ live, s.releases entry.2 = 0
  | .deleting handle vm drops =>
      drops = none ∧ s.tableOwner = some t ∧ (handle, vm) ∈ live ∧
        ∀ entry ∈ live, entry.2 ≠ vm → s.releases entry.2 = 0

/-- The VMs of the handles are there, but for the one that is being released. -/
structure Alive (live : List (Nat × Nat)) : Prop where
  tracked : HandleHost.Tracked ⟨s.table, live⟩
  distinct : (live.map Prod.snd).Nodup
  used : s.misused = false
  once : ∀ vm, s.releases vm ≤ 1
  drops : s.dropped = []
  free : s.tableOwner = none → ∀ entry ∈ live, s.releases entry.2 = 0
  placed : ∀ t, s.Placed live t (s.phase t)

end VmLifetimes

section Lifetimes

open VmLifetimes

variable {ι : Type} {s s' : VmLifetimes ι} {live live' : List (Nat × Nat)} {t : ι} {handle vm : Nat}
  {phase : LifetimePhase}

theorem VmLifetimes.Alive.sound (h : s.Alive live) : s.Sound where
  used := h.used
  once := h.once
  drops drops hdrops := by
    rw [h.drops] at hdrops
    cases hdrops
  lookups hfree handle vm hreleases hlookup := by
    by_cases hreaches : Reaches s.table.levels s.table.tableCode handle
    · have hfound := h.tracked.lookup hreaches
      have hslot : TableWord.slot s.table.levels s.table.tableCode handle = some vm :=
        Except.ok.inj (hfound.symm.trans hlookup)
      exact hreleases (h.free hfree _ (h.tracked.alias_mem hslot))
    · cases (h.tracked.lookup_fails hreaches).symm.trans hlookup

theorem VmLifetimes.Start.alive (h : s.Start) : ∃ live, s.Alive live := by
  obtain ⟨⟨host, hhost, htable, hdistinct⟩, howner, hphase, -, hreleases, hused, hdropped⟩ := h
  obtain ⟨table, live⟩ := host
  subst htable
  refine ⟨live, hhost.tracked, hdistinct, hused, fun vm => ?_, hdropped, fun _ _ _ => hreleases _, fun t => ?_⟩
  · rw [hreleases]
    exact Nat.zero_le 1
  · rw [hphase]
    exact trivial

/-- A lookup of a handle finds the VM that it was given out for. -/
theorem VmLifetimes.Alive.lookup_mem (h : s.Alive live) (hgiven : s.GivenOut handle)
    (hlookup : s.table.noirReferenceVirtualMachineByHandle handle = .ok (some vm)) :
    (handle, vm) ∈ live := by
  have hfound := h.tracked.lookup hgiven.2
  exact (h.tracked.slots handle hgiven.1 vm).mp (Except.ok.inj (hfound.symm.trans hlookup))

theorem touch_eq (hreleases : s.releases vm = 0) : s.touch vm = s := by
  unfold touch
  rw [hreleases, bne_self_eq_false, Bool.or_false]

/-- A thread without the lock needs no more than the VM that it will use. -/
theorem VmLifetimes.Placed.of_unowned (h : s.Placed live t phase) (howner : s.tableOwner ≠ some t)
    (hreleases : ∀ vm, LifetimeUses vm phase → s.releases vm = 0 → s'.releases vm = 0) :
    s'.Placed live' t phase := by
  cases phase with
  | idle => trivial
  | operating vm => exact hreleases vm rfl h
  | incrementing vm => exact hreleases vm rfl h
  | decrementing handle vm drops => exact h.elim
  | destroying handle vm drops => exact absurd h.2.1 howner
  | freeing handle vm drops => exact absurd h.2.1 howner
  | deleting handle vm drops => exact absurd h.2.1 howner

variable [DecidableEq ι]

/-- The thread that moves is where it should be, and the others are not disturbed. -/
theorem VmLifetimes.Alive.move (h : s.Alive live) (hphase : s.Placed live t phase) :
    (s.setPhase t phase).Alive live where
  tracked := h.tracked
  distinct := h.distinct
  used := h.used
  once := h.once
  drops := h.drops
  free := h.free
  placed t' := by
    change s.Placed live t' (Function.update s.phase t phase t')
    by_cases ht : t' = t
    · subst ht
      rwa [Function.update_self]
    · rw [Function.update_of_ne ht]
      exact h.placed t'

/-- A lookup that returns leaves everything as it was, or finds a VM. -/
theorem lookupFor_cases {found : Nat → LifetimePhase} (h : s.lookupFor t handle found = some s') :
    s' = s ∧ s.phase t = .idle ∧ s.table.noirReferenceVirtualMachineByHandle handle = .ok none ∨
      ∃ vm, s.tableOwner = none ∧ s.table.noirReferenceVirtualMachineByHandle handle = .ok (some vm) ∧
        s' = s.setPhase t (found vm) := by
  unfold lookupFor at h
  split at h
  · next hidle _ hnone => exact .inl ⟨(Option.some.inj h).symm, hidle, hnone⟩
  · next vm _ hfree hlookup => exact .inr ⟨vm, hfree, hlookup, (Option.some.inj h).symm⟩
  · cases h

theorem VmLifetimes.Alive.lookupFor (h : s.Alive live) (hgiven : s.GivenOut handle)
    {found : Nat → LifetimePhase} (hphase : ∀ vm, s.releases vm = 0 → s.Placed live t (found vm))
    (hnext : s.lookupFor t handle found = some s') : s'.Alive live := by
  obtain ⟨rfl, -⟩ | ⟨vm, hfree, hlookup, rfl⟩ := lookupFor_cases hnext
  · exact h
  · exact h.move (hphase vm (h.free hfree _ (h.lookup_mem hgiven hlookup)))

theorem VmLifetimes.Alive.releaseByHandle (h : s.Alive live) (hgiven : s.GivenOut handle)
    (hnext : s.releaseByHandle t handle = some s') : s'.Alive live := by
  unfold VmLifetimes.releaseByHandle at hnext
  obtain ⟨s₁, hlookup, rfl⟩ := Option.map_eq_some_iff.mp hnext
  obtain ⟨rfl, hidle, -⟩ | ⟨vm, hfree, hfound, rfl⟩ := lookupFor_cases hlookup
  · rw [hidle]
    exact h
  · have hmem := h.lookup_mem hgiven hfound
    have hphase : (s.setPhase t (.destroying handle vm none)).phase t = .destroying handle vm none :=
      Function.update_self ..
    rw [hphase]
    refine ⟨h.tracked, h.distinct, h.used, h.once, h.drops, fun howner => (nomatch howner), fun t' => ?_⟩
    change Placed _ live t' (Function.update s.phase t (.destroying handle vm none) t')
    by_cases ht : t' = t
    · subst ht
      rw [Function.update_self]
      exact ⟨rfl, rfl, hmem, h.free hfree⟩
    · rw [Function.update_of_ne ht]
      refine (h.placed t').of_unowned ?_ fun _ _ => id
      rw [hfree]
      exact fun howner => (nomatch howner)

/-- The VM is freed once: no other thread has it in its hands. -/
theorem VmLifetimes.Alive.freed (h : s.Alive live) {drops : Option Nat}
    (hphase : s.phase t = .freeing handle vm drops) (hunused : ∀ t', ¬LifetimeUses vm (s.phase t')) :
    Alive { s.setPhase t (.deleting handle vm drops) with
      releases := Function.update s.releases vm (s.releases vm + 1) } live := by
  have hplaced := h.placed t
  rw [hphase] at hplaced
  obtain ⟨rfl, howner, hmem, hlive⟩ := hplaced
  have hzero : s.releases vm = 0 := hlive _ hmem
  refine ⟨h.tracked, h.distinct, h.used, fun vm' => ?_, h.drops, fun hfree => ?_, fun t' => ?_⟩
  · dsimp only
    by_cases hvm : vm' = vm
    · subst hvm
      rw [Function.update_self, hzero]
    · rw [Function.update_of_ne hvm]
      exact h.once vm'
  · cases howner.symm.trans hfree
  · change Placed _ live t' (Function.update s.phase t (.deleting handle vm none) t')
    by_cases ht : t' = t
    · subst ht
      rw [Function.update_self]
      refine ⟨rfl, howner, hmem, fun entry hentry hne => ?_⟩
      exact (Function.update_of_ne hne _ _).trans (hlive entry hentry)
    · rw [Function.update_of_ne ht]
      refine (h.placed t').of_unowned ?_ fun vm' huses hreleases => ?_
      · rw [howner]
        exact fun hsame => ht (Option.some.inj hsame).symm
      · have hne : vm' ≠ vm := fun hsame => hunused t' (hsame ▸ huses)
        exact (Function.update_of_ne hne _ _).trans hreleases

/-- The deletion of a handle that was found. -/
theorem dropHandle_eq {table : NoirCvmHandleTable} {handle vm : Nat}
    (hlookup : table.noirReferenceVirtualMachineByHandle handle = .ok (some vm)) :
    table.dropHandle handle = table.deleteHandle handle := by
  unfold NoirCvmHandleTable.dropHandle NoirCvmHandleTable.deleteHandle
  rw [hlookup]
  rfl

theorem VmLifetimes.Alive.deleted (h : s.Alive live) {drops : Option Nat}
    (hphase : s.phase t = .deleting handle vm drops) :
    ∃ s' live', s.delete t handle vm drops = some s' ∧ s'.Alive live' := by
  have hplaced := h.placed t
  rw [hphase] at hplaced
  obtain ⟨rfl, howner, hmem, hlive⟩ := hplaced
  have hbound := h.tracked.bound _ hmem
  have hreached := h.tracked.reached _ hmem
  have hlookup : s.table.noirReferenceVirtualMachineByHandle handle = .ok (some vm) :=
    h.tracked.sound.refers _ hmem
  obtain ⟨table, hdelete, htracked⟩ := h.tracked.delete ⟨hreached, .inl hbound⟩
  rw [← dropHandle_eq hlookup] at hdelete
  refine ⟨{ s.setPhase t .idle with table, tableOwner := none }, _, ?_, htracked, ?_, h.used, h.once, h.drops, ?_, ?_⟩
  · unfold VmLifetimes.delete
    rw [hdelete]
  · exact h.distinct.sublist (List.filter_sublist.map _)
  · intro _ entry hentry
    obtain ⟨hold, hother⟩ := List.mem_filter.mp hentry
    refine hlive entry hold fun hvm => ?_
    have hsame : entry = (handle, vm) := List.inj_on_of_nodup_map h.distinct hold hmem hvm
    rw [hsame] at hother
    exact absurd rfl (of_decide_eq_true hother)
  · intro t'
    change Placed _ _ t' (Function.update s.phase t .idle t')
    by_cases ht : t' = t
    · subst ht
      rw [Function.update_self]
      trivial
    · rw [Function.update_of_ne ht]
      refine (h.placed t').of_unowned ?_ fun _ _ => id
      rw [howner]
      exact fun hsame => ht (Option.some.inj hsame).symm

/-- What a thread does with a VM that it has looked up. -/
theorem VmLifetimes.Alive.stepThread (h : s.Alive live) (hfits : s.Fits (.step t))
    (hnext : s.stepThread t = some s') : ∃ live', s'.Alive live' := by
  have hplaced := h.placed t
  unfold VmLifetimes.stepThread at hnext
  cases hphase : s.phase t with
  | idle =>
      rw [hphase] at hnext
      cases hnext
  | operating vm =>
      rw [hphase] at hnext
      cases hnext
  | incrementing vm =>
      rw [hphase] at hnext hplaced
      obtain rfl := Option.some.inj hnext
      rw [touch_eq hplaced]
      have hmoved := h.move (show s.Placed live t .idle from trivial)
      exact ⟨live, hmoved.tracked, hmoved.distinct, hmoved.used, hmoved.once, hmoved.drops, hmoved.free,
        hmoved.placed⟩
  | decrementing handle vm drops =>
      rw [hphase] at hplaced
      exact hplaced.elim
  | destroying handle vm drops =>
      rw [hphase] at hnext hplaced
      obtain ⟨hdrops, howner, hmem, hlive⟩ := hplaced
      obtain rfl := Option.some.inj hnext
      rw [touch_eq (hlive _ hmem)]
      exact ⟨live, h.move ⟨hdrops, howner, hmem, hlive⟩⟩
  | freeing handle vm drops =>
      rw [hphase] at hnext hplaced
      obtain ⟨-, -, hmem, hlive⟩ := hplaced
      obtain rfl := Option.some.inj hnext
      rw [touch_eq (hlive _ hmem)]
      exact ⟨live, h.freed hphase (hfits handle vm drops hphase)⟩
  | deleting handle vm drops =>
      rw [hphase] at hnext
      obtain ⟨s₁, live', hdelete, halive⟩ := h.deleted hphase
      cases hdelete.symm.trans hnext
      exact ⟨live', halive⟩

theorem VmLifetimes.Alive.next (h : s.Alive live) {e : LifetimeEvent ι} (hallowed : s.Allowed e)
    (hfits : s.Fits e) (hnext : s.next e = some s') : ∃ live', s'.Alive live' := by
  cases e with
  | operate t handle => exact ⟨live, h.lookupFor hallowed (fun _ => id) hnext⟩
  | increment t handle => exact ⟨live, h.lookupFor hallowed (fun _ => id) hnext⟩
  | decrement t handle =>
      obtain ⟨rfl, -⟩ | ⟨vm, -, hlookup, -⟩ := lookupFor_cases hnext
      · exact ⟨live, h⟩
      · cases hfits.symm.trans hlookup
  | release t handle => exact ⟨live, h.releaseByHandle hallowed hnext⟩
  | use t last =>
      have hplaced := h.placed t
      cases hphase : s.phase t with
      | operating vm =>
          rw [hphase] at hplaced
          unfold VmLifetimes.next at hnext
          simp only [hphase, touch_eq hplaced] at hnext
          obtain rfl := Option.some.inj hnext
          cases last with
          | false => exact ⟨live, h.move hplaced⟩
          | true => exact ⟨live, h.move trivial⟩
      | _ =>
          unfold VmLifetimes.next at hnext
          simp only [hphase] at hnext
          cases hnext
  | step t => exact h.stepThread hfits hnext

theorem VmLifetimes.Reachable.alive (h : VmLifetimes.Reachable Fits s) : ∃ live, s.Alive live := by
  refine Transition.Reachable.invariant (P := fun s => ∃ live, s.Alive live)
    (fun _ hstart => hstart.alive) (fun s s' _ hs hstep => ?_) h
  obtain ⟨live, halive⟩ := hs
  obtain ⟨e, hallowed, hfits, hnext⟩ := hstep
  exact halive.next hallowed hfits hnext

end Lifetimes

section Continuations

open VmLifetimes Relation

variable {ι : Type} [DecidableEq ι] {s s' : VmLifetimes ι} {live : List (Nat × Nat)} {t t' : ι}
  {handle vm : Nat}

/-- A run goes on to where a promise is broken. -/
def VmLifetimes.Breaks (s : VmLifetimes ι) : Prop :=
  ∃ s', ReflTransGen (Goes fun _ _ => True) s s' ∧ ¬s'.Sound

theorem VmLifetimes.Breaks.of_step (hnext : s.stepThread t = some s') (h : s'.Breaks) : s.Breaks := by
  obtain ⟨s'', hsteps, hbroken⟩ := h
  exact ⟨s'', .head ⟨.step t, trivial, trivial, hnext⟩ hsteps, hbroken⟩

/-- A VM is freed while its handle can be looked up. -/
theorem breaks_of_destroying {drops : Option Nat} (hphase : s.phase t = .destroying handle vm drops)
    (hfree : s.tableOwner = none)
    (hlookup : s.table.noirReferenceVirtualMachineByHandle handle = .ok (some vm)) : s.Breaks := by
  have hunlink : s.stepThread t = some ((s.touch vm).setPhase t (.freeing handle vm drops)) := by
    unfold stepThread
    rw [hphase]
  have hphase' : ((s.touch vm).setPhase t (.freeing handle vm drops)).phase t = .freeing handle vm drops :=
    Function.update_self ..
  refine .of_step hunlink ?_
  generalize hs' : (s.touch vm).setPhase t (.freeing handle vm drops) = s' at hphase'
  have hlookup' : s'.table.noirReferenceVirtualMachineByHandle handle = .ok (some vm) := hs' ▸ hlookup
  have hfree' : s'.tableOwner = none := hs' ▸ hfree
  have hrelease : s'.stepThread t = some { (s'.touch vm).setPhase t (.deleting handle vm drops) with
      releases := Function.update s'.releases vm (s'.releases vm + 1) } := by
    unfold stepThread
    rw [hphase']
  refine .of_step hrelease ⟨_, .refl, fun hsound => ?_⟩
  refine hsound.lookups hfree' handle vm ?_ hlookup'
  change Function.update s'.releases vm (s'.releases vm + 1) vm ≠ 0
  rw [Function.update_self]
  exact Nat.succ_ne_zero _

/-- The second call of `nvc_deref_vm` destroys the VM, or has dropped a second reference. -/
theorem breaks_of_second (hphase : s.phase t = .decrementing handle vm 1) (hfree : s.tableOwner = none)
    (hlookup : s.table.noirReferenceVirtualMachineByHandle handle = .ok (some vm)) : s.Breaks := by
  have hnext : s.stepThread t = some (s.deref t handle vm 1) := by
    unfold stepThread
    rw [hphase]
  refine .of_step hnext ?_
  unfold deref
  by_cases hone : noirLockedDec (s.refCount vm) = 1
  · rw [if_neg (not_not.mpr hone)]
    exact breaks_of_destroying (Function.update_self ..) hfree hlookup
  · rw [if_pos hone]
    refine ⟨_, .refl, fun hsound => ?_⟩
    cases hsound.drops 2 (List.mem_cons_self ..)

theorem breaks_of_first (hphase : s.phase t = .decrementing handle vm 0) (hfree : s.tableOwner = none)
    (hlookup : s.table.noirReferenceVirtualMachineByHandle handle = .ok (some vm)) : s.Breaks := by
  have hnext : s.stepThread t = some (s.deref t handle vm 0) := by
    unfold stepThread
    rw [hphase]
  refine .of_step hnext ?_
  unfold deref
  by_cases hone : noirLockedDec (s.refCount vm) = 1
  · rw [if_neg (not_not.mpr hone)]
    exact breaks_of_destroying (Function.update_self ..) hfree hlookup
  · rw [if_pos hone]
    exact breaks_of_second (Function.update_self ..) hfree hlookup

/-- A thread uses a VM that was freed. -/
theorem breaks_of_uses (hreleases : s.releases vm ≠ 0)
    (hphase : s.phase t = .operating vm ∨ s.phase t = .incrementing vm) : s.Breaks := by
  have hmisused : (s.misused || s.releases vm != 0) = true := by simp [hreleases]
  obtain hoperating | hincrementing := hphase
  · have hnext : s.next (.use t true) = some ((s.touch vm).setPhase t .idle) := by
      unfold next
      dsimp only
      rw [hoperating]
      rfl
    refine ⟨_, .single ⟨.use t true, trivial, trivial, hnext⟩, fun hsound => ?_⟩
    cases hmisused.symm.trans hsound.used
  · have hnext : s.stepThread t = some { (s.touch vm).setPhase t .idle with
        refCount := Function.update s.refCount vm (noirLockedInc (s.refCount vm)) } := by
      unfold stepThread
      rw [hincrementing]
    refine .of_step hnext ⟨_, .refl, fun hsound => ?_⟩
    cases hmisused.symm.trans hsound.used

/-- A decrement that finds a VM, and the release of a VM that another thread will use. -/
theorem VmLifetimes.Alive.breaks (h : s.Alive live) {e : LifetimeEvent ι} (hnext : s.next e = some s')
    (hfits : ¬s.Fits e) : s'.Breaks := by
  cases e with
  | decrement t handle =>
      obtain ⟨-, -, hnone⟩ | ⟨vm, hfree, hfound, rfl⟩ := lookupFor_cases hnext
      · exact absurd hnone hfits
      · exact breaks_of_first (Function.update_self ..) hfree hfound
  | step t =>
      unfold Fits at hfits
      push Not at hfits
      obtain ⟨handle, vm, drops, hphase, t', huses⟩ := hfits
      have hrelease : s.stepThread t = some s' := hnext
      unfold VmLifetimes.stepThread at hrelease
      rw [hphase] at hrelease
      have hother : t' ≠ t := by
        rintro rfl
        rw [hphase] at huses
        exact huses
      have hphase' : s'.phase t' = s.phase t' := by
        rw [← Option.some.inj hrelease]
        exact Function.update_of_ne hother _ _
      have hreleases : s'.releases vm ≠ 0 := by
        rw [← Option.some.inj hrelease]
        change Function.update s.releases vm (s.releases vm + 1) vm ≠ 0
        rw [Function.update_self]
        exact Nat.succ_ne_zero _
      have hplaced := h.placed t'
      refine breaks_of_uses (t := t') hreleases ?_
      rw [hphase']
      cases huser : s.phase t' with
      | operating vm' =>
          rw [huser] at huses
          exact .inl (congrArg _ huses)
      | incrementing vm' =>
          rw [huser] at huses
          exact .inr (congrArg _ huses)
      | decrementing handle' vm' drops' =>
          rw [huser] at hplaced
          exact hplaced.elim
      | _ =>
          rw [huser] at huses
          exact huses.elim
  | _ => exact absurd trivial hfits

/-- In a run without decrements that find a VM, and where no VM is freed that another thread will use, the
promises are kept; and a further step that is not so goes on to where one is broken. -/
theorem VmLifetimes.Reachable.lifetimes_behave (h : VmLifetimes.Reachable Fits s) :
    s.Sound ∧ ∀ e s', s.Allowed e → s.next e = some s' → ¬s.Fits e → s'.Breaks := by
  obtain ⟨live, halive⟩ := h.alive
  exact ⟨halive.sound, fun e s' _ hnext hfits => halive.breaks hnext hfits⟩

/-- Nobody does anything to the VM of one handle. -/
def quietVm : VmLifetimes Nat where
  table := oneHandle.table
  tableOwner := none
  phase _ := .idle
  refCount _ := 1
  releases _ := 0
  misused := false
  dropped := []

theorem quietVm_start : quietVm.Start := by
  refine ⟨⟨oneHandle, oneHandle_reachable (.inl ⟨Nat.zero_le 2, ?_⟩), rfl, by decide⟩, rfl, fun _ => rfl,
    fun _ => rfl, fun _ => rfl, rfl, rfl⟩
  intro handle' root memory' hfull
  rw [show handleTableFuel = 4095 + 1 from rfl, create_of_empty] at hfull
  cases hfull

theorem quietVm_behaves : quietVm.Sound ∧
    ∀ e s', quietVm.Allowed e → quietVm.next e = some s' → ¬quietVm.Fits e → s'.Breaks :=
  VmLifetimes.Reachable.lifetimes_behave (.start quietVm_start)

theorem VmLifetimes.Reachable.trans (h : VmLifetimes.Reachable (fun _ _ => True) s)
    (hsteps : ReflTransGen (Goes fun _ _ => True) s s') : VmLifetimes.Reachable (fun _ _ => True) s' := by
  induction hsteps with
  | refl => exact h
  | tail _ hstep ih => exact .step ih hstep

/-- A decrement of the only reference to a VM drops another one, which there is not. -/
theorem not_forall_lifetimes_sound :
    ¬∀ s : VmLifetimes Nat, VmLifetimes.Reachable (fun _ _ => True) s → s.Sound := by
  intro h
  have hlookup : quietVm.table.noirReferenceVirtualMachineByHandle 0 = .ok (some 1) := by
    unfold NoirCvmHandleTable.noirReferenceVirtualMachineByHandle
    rw [show handleTableFuel = 4095 + 1 from rfl]
    rfl
  have hnext : quietVm.next (.decrement 0 0) = some (quietVm.setPhase 0 (.decrementing 0 1 0)) := by
    change quietVm.lookupFor 0 0 (fun vm => .decrementing 0 vm 0) = _
    unfold lookupFor
    rw [hlookup]
    rfl
  have hgiven : quietVm.GivenOut 0 := ⟨Nat.pow_pos (by decide), trivial⟩
  have hfits : ¬quietVm.Fits (.decrement 0 0) := fun hnone => (nomatch hlookup.symm.trans hnone)
  obtain ⟨live, halive⟩ := quietVm_start.alive
  obtain ⟨s', hsteps, hbroken⟩ := halive.breaks hnext hfits
  have hreached : VmLifetimes.Reachable (fun _ _ => True) (quietVm.setPhase 0 (.decrementing 0 1 0)) :=
    .step (.start quietVm_start) ⟨.decrement 0 0, hgiven, trivial, hnext⟩
  exact hbroken (h s' (hreached.trans hsteps))

end Continuations

end NoirVisor
