import Mathlib.Data.Finset.Basic
import NoirVisor.Locking
import NoirVisor.Transition

/-!
# Exclusion of the virtual CPUs of a VM

A thread that runs a virtual CPU holds the lock of it. After an exit that needs the whole VM, the thread
takes the lock of the list and then those of all other virtual CPUs, while a thread that maps memory
takes the lock of the list shared and then the locks of the virtual CPUs.
-/

namespace NoirVisor

/-- Where a thread is in `nvc_svmc_run_vcpu`. In `gaining` and `freeing` it is at an index of the loop. -/
inductive RunnerPhase where
  | idle
  | entering
  | running
  | gainingList
  | gaining (i : Nat)
  | exclusive
  | freeing (i : Nat)
  | freeingList
  | leaving
deriving DecidableEq, Repr

/-- Where a thread is in `nvc_set_mapping`. -/
inductive MapperPhase where
  | idle
  | entering
  | inside
  | gaining (i : Nat)
  | exclusive
  | freeing (i : Nat)
  | leaving
deriving DecidableEq, Repr

/-- A thread that runs the virtual CPU of this index, or one that maps memory. -/
inductive VmThread (ι : Type) where
  | runner (k : Fin 256)
  | mapper (m : ι)
deriving DecidableEq

/-- `listOwner` and `listReaders` are the exclusive and the shared holders of `vcpu_list_lock`. -/
structure VmLocks (ι : Type) where
  runner : Fin 256 → RunnerPhase
  mapper : ι → MapperPhase
  vcpuLock : Fin 256 → Option (VmThread ι)
  listOwner : Option (VmThread ι)
  listReaders : Finset ι

/-- A thread goes on, or takes one of two ways: after its run, and after it allocated and locked what it
is to map. -/
inductive VmLockEvent (ι : Type) where
  | call (t : VmThread ι)
  | step (t : VmThread ι)
  | exit (k : Fin 256) (exclusive : Bool)
  | map (m : ι) (gains : Bool)

namespace VmLocks

variable {ι : Type} [DecidableEq ι]

def setRunner (s : VmLocks ι) (k : Fin 256) (phase : RunnerPhase) : VmLocks ι :=
  { s with runner := Function.update s.runner k phase }

def setMapper (s : VmLocks ι) (m : ι) (phase : MapperPhase) : VmLocks ι :=
  { s with mapper := Function.update s.mapper m phase }

/-- A push lock is acquired if it is free. -/
def acquire (s : VmLocks ι) (t : VmThread ι) (k : Fin 256) : Option (VmLocks ι) :=
  if s.vcpuLock k = none then some { s with vcpuLock := Function.update s.vcpuLock k (some t) }
  else none

def release (s : VmLocks ι) (k : Fin 256) : VmLocks ι :=
  { s with vcpuLock := Function.update s.vcpuLock k none }

/-- `noir_acquire_reslock_exclusive`. -/
def acquireList (s : VmLocks ι) (t : VmThread ι) : Option (VmLocks ι) :=
  if s.listOwner = none ∧ s.listReaders = ∅ then some { s with listOwner := some t } else none

/-- `noir_acquire_reslock_shared`. -/
def acquireListShared (s : VmLocks ι) (m : ι) : Option (VmLocks ι) :=
  if s.listOwner = none then some { s with listReaders := insert m s.listReaders } else none

/-- The bodies of the loops at an index: only the locks of virtual CPUs that exist, and not the one that
the thread entered with. -/
def gain (live : Fin 256 → Bool) (s : VmLocks ι) (t : VmThread ι) (i : Fin 256) : Option (VmLocks ι) :=
  if live i = true ∧ t ≠ .runner i then s.acquire t i else some s

def free (live : Fin 256 → Bool) (s : VmLocks ι) (t : VmThread ι) (i : Fin 256) : VmLocks ι :=
  if live i = true ∧ t ≠ .runner i then s.release i else s

def stepRunner (live : Fin 256 → Bool) (s : VmLocks ι) (k : Fin 256) : Option (VmLocks ι) :=
  match s.runner k with
  | .idle | .running => none
  | .entering => (s.acquire (.runner k) k).map (·.setRunner k .running)
  | .gainingList => (s.acquireList (.runner k)).map (·.setRunner k (.gaining 0))
  | .gaining i =>
      if h : i < 256 then (s.gain live (.runner k) ⟨i, h⟩).map (·.setRunner k (.gaining (i + 1)))
      else some (s.setRunner k .exclusive)
  | .exclusive => some (s.setRunner k (.freeing 0))
  | .freeing i =>
      if h : i < 256 then some ((s.free live (.runner k) ⟨i, h⟩).setRunner k (.freeing (i + 1)))
      else some (s.setRunner k .freeingList)
  | .freeingList => some ({ s with listOwner := none }.setRunner k .leaving)
  | .leaving => some ((s.release k).setRunner k .idle)

/-- The loops of a mapping end before the last index. -/
def stepMapper (live : Fin 256 → Bool) (s : VmLocks ι) (m : ι) : Option (VmLocks ι) :=
  match s.mapper m with
  | .idle | .inside => none
  | .entering => (s.acquireListShared m).map (·.setMapper m .inside)
  | .gaining i =>
      if h : i < 255 then
        (s.gain live (.mapper m) ⟨i, by omega⟩).map (·.setMapper m (.gaining (i + 1)))
      else some (s.setMapper m .exclusive)
  | .exclusive => some (s.setMapper m (.freeing 0))
  | .freeing i =>
      if h : i < 255 then
        some ((s.free live (.mapper m) ⟨i, by omega⟩).setMapper m (.freeing (i + 1)))
      else some (s.setMapper m .leaving)
  | .leaving => some ({ s with listReaders := s.listReaders.erase m }.setMapper m .idle)

/-- None if the thread is not there, or has to wait. -/
def next (live : Fin 256 → Bool) (s : VmLocks ι) : VmLockEvent ι → Option (VmLocks ι)
  | .call (.runner k) =>
      if s.runner k = .idle ∧ live k = true then some (s.setRunner k .entering) else none
  | .call (.mapper m) => if s.mapper m = .idle then some (s.setMapper m .entering) else none
  | .step (.runner k) => s.stepRunner live k
  | .step (.mapper m) => s.stepMapper live m
  | .exit k exclusive =>
      if s.runner k = .running then
        some (s.setRunner k (if exclusive then .gainingList else .leaving))
      else none
  -- A request to unmap, one that fails before, and one for large pages take no locks of virtual CPUs.
  | .map m gains =>
      if s.mapper m = .inside then some (s.setMapper m (if gains then .gaining 0 else .leaving))
      else none

def start : VmLocks ι where
  runner _ := .idle
  mapper _ := .idle
  vcpuLock _ := none
  listOwner := none
  listReaders := ∅

end VmLocks

namespace VmLockEvent

variable {ι : Type}

def thread : VmLockEvent ι → VmThread ι
  | call t | step t => t
  | exit k _ => .runner k
  | map m _ => .mapper m

/-- The whole VM is asked for only while nobody else waits for it with locks that it needs, and a mapping
only in a VM without the last virtual CPU. -/
def Kept (live : Fin 256 → Bool) (s : VmLocks ι) : VmLockEvent ι → Prop
  | exit _ true =>
      (∀ k, s.runner k ≠ .gainingList) ∧ (∀ k i, s.runner k ≠ .gaining i) ∧
        ∀ m i, s.mapper m ≠ .gaining i
  | map _ true => (∀ k, s.runner k ≠ .gainingList) ∧ live 255 = false
  | _ => True

end VmLockEvent

namespace VmLocks

variable {ι : Type} [DecidableEq ι]

def Finished (s : VmLocks ι) : VmThread ι → Prop
  | .runner k => s.runner k = .idle
  | .mapper m => s.mapper m = .idle

/-- No event of the thread can happen. -/
def Blocked (live : Fin 256 → Bool) (s : VmLocks ι) (t : VmThread ι) : Prop :=
  ∀ e : VmLockEvent ι, e.thread = t → s.next live e = none

def Reachable (live : Fin 256 → Bool) (condition : VmLocks ι → VmLockEvent ι → Prop) :
    VmLocks ι → Prop :=
  Transition.Reachable (· = start) fun s s' => ∃ e, condition s e ∧ s.next live e = some s'

/-- What the locks are for. -/
structure Excludes (live : Fin 256 → Bool) (s : VmLocks ι) : Prop where
  single : ∀ k k', s.runner k = .exclusive → s.runner k' = .exclusive → k = k'
  runner : ∀ k, s.runner k = .exclusive → ∀ j, live j = true → s.vcpuLock j = some (.runner k)
  mapper : ∀ m, s.mapper m = .exclusive → ∀ j, live j = true → s.vcpuLock j = some (.mapper m)
  /-- Nobody releases what somebody else holds, and nobody keeps anything. -/
  owned : ∀ e s', s.next live e = some s' →
    (∀ k, s'.vcpuLock k ≠ s.vcpuLock k → s.vcpuLock k = none ∨ s.vcpuLock k = some e.thread) ∧
      (s'.listOwner ≠ s.listOwner → s.listOwner = none ∨ s.listOwner = some e.thread)
  returned : ∀ t, s.Finished t →
    (∀ k, s.vcpuLock k ≠ some t) ∧ s.listOwner ≠ some t ∧ ∀ m ∈ s.listReaders, t ≠ .mapper m
  /-- Not all who have to go on wait. -/
  progress : (∃ t, ¬s.Finished t) → ∃ t, ¬s.Finished t ∧ ¬s.Blocked live t

end VmLocks

namespace RunnerPhase

/-- With its own lock. -/
def Entered : RunnerPhase → Prop
  | idle | entering => False
  | _ => True

/-- With the lock of another one. -/
def Gained (j : Nat) : RunnerPhase → Prop
  | gaining i => j < i
  | exclusive => True
  | freeing i => i ≤ j
  | _ => False

def OwnsList : RunnerPhase → Prop
  | gaining _ | exclusive | freeing _ | freeingList => True
  | _ => False

/-- Waiting for locks with its own. -/
def Gains : RunnerPhase → Prop
  | gainingList | gaining _ => True
  | _ => False

def Holds (live : Fin 256 → Bool) (k j : Fin 256) (p : RunnerPhase) : Prop :=
  if j = k then p.Entered else live j = true ∧ p.Gained j

section

variable {live : Fin 256 → Bool} {k j : Fin 256} {i : Nat}

theorem holds_gaining_succ (hi : i < 256) :
    (gaining (i + 1)).Holds live k j ↔
      (gaining i).Holds live k j ∨ (live ⟨i, hi⟩ = true ∧ ⟨i, hi⟩ ≠ k) ∧ j = ⟨i, hi⟩ := by
  by_cases hj : j = ⟨i, hi⟩
  · subst hj
    by_cases hk : ⟨i, hi⟩ = k <;> simp [Holds, Entered, Gained, hk]
  · have hne : (j : Nat) ≠ i := fun heq => hj (Fin.ext heq)
    have hlt : (j : Nat) < i + 1 ↔ (j : Nat) < i := by omega
    simp [Holds, Entered, Gained, hj, hlt]

theorem holds_freeing_succ (hi : i < 256) :
    (freeing (i + 1)).Holds live k j ↔
      (freeing i).Holds live k j ∧ ¬((live ⟨i, hi⟩ = true ∧ ⟨i, hi⟩ ≠ k) ∧ j = ⟨i, hi⟩) := by
  by_cases hj : j = ⟨i, hi⟩
  · subst hj
    by_cases hk : ⟨i, hi⟩ = k <;> simp [Holds, Entered, Gained, hk]
  · have hne : (j : Nat) ≠ i := fun heq => hj (Fin.ext heq)
    have hle : i + 1 ≤ (j : Nat) ↔ i ≤ (j : Nat) := by omega
    simp [Holds, Entered, Gained, hj, hle]

theorem holds_gaining_end (hend : ¬i < 256) : exclusive.Holds live k j ↔ (gaining i).Holds live k j := by
  have hlt : (j : Nat) < i := by omega
  simp [Holds, Entered, Gained, hlt]

theorem holds_freeing_end (hend : ¬i < 256) : freeingList.Holds live k j ↔ (freeing i).Holds live k j := by
  have hle : ¬i ≤ (j : Nat) := by omega
  simp [Holds, Entered, Gained, hle]

end

end RunnerPhase

namespace MapperPhase

def Gained (j : Nat) : MapperPhase → Prop
  | gaining i => j < i ∧ j < 255
  | exclusive => j < 255
  | freeing i => i ≤ j ∧ j < 255
  | _ => False

def Reads : MapperPhase → Prop
  | idle | entering => False
  | _ => True

def Gains : MapperPhase → Prop
  | gaining _ => True
  | _ => False

def Maps : MapperPhase → Prop
  | gaining _ | exclusive | freeing _ => True
  | _ => False

def Holds (live : Fin 256 → Bool) (j : Fin 256) (q : MapperPhase) : Prop := live j = true ∧ q.Gained j

section

variable {live : Fin 256 → Bool} {j : Fin 256} {i : Nat}

theorem holds_gaining_succ (hi : i < 256) (hlt : i < 255) :
    (gaining (i + 1)).Holds live j ↔ (gaining i).Holds live j ∨ live ⟨i, hi⟩ = true ∧ j = ⟨i, hi⟩ := by
  by_cases hj : j = ⟨i, hi⟩
  · subst hj
    simp [Holds, Gained, hlt]
  · have hne : (j : Nat) ≠ i := fun heq => hj (Fin.ext heq)
    have hlt : (j : Nat) < i + 1 ↔ (j : Nat) < i := by omega
    simp [Holds, Gained, hj, hlt]

theorem holds_freeing_succ (hi : i < 256) :
    (freeing (i + 1)).Holds live j ↔
      (freeing i).Holds live j ∧ ¬(live ⟨i, hi⟩ = true ∧ j = ⟨i, hi⟩) := by
  by_cases hj : j = ⟨i, hi⟩
  · subst hj
    by_cases hl : live ⟨i, hi⟩ = true <;> simp [Holds, Gained, hl]
  · have hne : (j : Nat) ≠ i := fun heq => hj (Fin.ext heq)
    have hle : i + 1 ≤ (j : Nat) ↔ i ≤ (j : Nat) := by omega
    simp [Holds, Gained, hj, hle]

theorem holds_gaining_end (hend : ¬i < 255) : exclusive.Holds live j ↔ (gaining i).Holds live j := by
  have hlt : (j : Nat) < 255 → (j : Nat) < i := by omega
  simpa [Holds, Gained] using fun _ => hlt

theorem holds_freeing_end (hend : ¬i < 255) : leaving.Holds live j ↔ (freeing i).Holds live j := by
  have hle : ¬(i ≤ (j : Nat) ∧ (j : Nat) < 255) := by omega
  simp [Holds, Gained, hle]

end

end MapperPhase

namespace VmLocks

variable {ι : Type} {live : Fin 256 → Bool} {s s' : VmLocks ι} {k j : Fin 256} {m : ι}
  {t t' : VmThread ι} {p : RunnerPhase} {q : MapperPhase}

def Holds (live : Fin 256 → Bool) (s : VmLocks ι) : VmThread ι → Fin 256 → Prop
  | .runner k, j => (s.runner k).Holds live k j
  | .mapper m, j => (s.mapper m).Holds live j

/-- The locks are held as the threads know it, in every run. -/
structure Consistent (live : Fin 256 → Bool) (s : VmLocks ι) : Prop where
  exist : ∀ k, s.runner k ≠ .idle → live k = true
  held : Locking.Agrees s.vcpuLock (s.Holds live)
  owner : ∀ t, s.listOwner = some t ↔ ∃ k, t = .runner k ∧ (s.runner k).OwnsList
  readers : ∀ m, m ∈ s.listReaders ↔ (s.mapper m).Reads
  apart : s.listOwner ≠ none → s.listReaders = ∅

theorem holds_setRunner_of_ne (t : VmThread ι) (h : t ≠ .runner k) (j : Fin 256) :
    (s.setRunner k p).Holds live t j ↔ s.Holds live t j := by
  cases t with
  | runner k' =>
      have hk : k' ≠ k := fun heq => h (congrArg _ heq)
      simp [Holds, setRunner, hk]
  | mapper m => exact Iff.rfl

theorem holds_setRunner_self (j : Fin 256) :
    (s.setRunner k p).Holds live (.runner k) j ↔ p.Holds live k j := by
  simp [Holds, setRunner]

namespace Consistent

/-- A move of one runner, with what it makes of the locks. -/
theorem runnerMoves (h : Consistent live s) (hexists : live k = true)
    {lock : Fin 256 → Option (VmThread ι)} {owner : Option (VmThread ι)}
    (hheld : Locking.Agrees lock ((s.setRunner k p).Holds live))
    (howner : ∀ t, owner = some t ↔
      ∃ k', t = .runner k' ∧ ((s.setRunner k p).runner k').OwnsList)
    (hapart : owner ≠ none → s.listReaders = ∅) :
    Consistent live ({ s with vcpuLock := lock, listOwner := owner }.setRunner k p) where
  exist k' hk' := by
    by_cases hk : k' = k
    · exact hk ▸ hexists
    · exact h.exist k' (by simpa [setRunner, hk] using hk')
  held lock t := hheld lock t
  owner := howner
  readers := h.readers
  apart := hapart

theorem owner_same (h : Consistent live s) (hlist : p.OwnsList ↔ (s.runner k).OwnsList) (t : VmThread ι) :
    s.listOwner = some t ↔ ∃ k', t = .runner k' ∧ ((s.setRunner k p).runner k').OwnsList := by
  rw [h.owner]
  apply exists_congr
  intro k'
  by_cases hk : k' = k
  · simp [setRunner, hk, hlist]
  · simp [setRunner, hk]

theorem held_same (h : Consistent live s)
    (hheld : ∀ j, p.Holds live k j ↔ (s.runner k).Holds live k j) :
    Locking.Agrees s.vcpuLock ((s.setRunner k p).Holds live) :=
  h.held.move (holds_setRunner_of_ne) fun j => (holds_setRunner_self j).trans (hheld j)

theorem moveRunner (h : Consistent live s) (hexists : live k = true)
    (hheld : ∀ j, p.Holds live k j ↔ (s.runner k).Holds live k j)
    (hlist : p.OwnsList ↔ (s.runner k).OwnsList) : Consistent live (s.setRunner k p) :=
  h.runnerMoves hexists (h.held_same hheld) (h.owner_same hlist) h.apart

theorem acquireRunner (h : Consistent live s) (hexists : live k = true)
    (hacquire : s.acquire (.runner k) j = some s')
    (hgains : ∀ i, p.Holds live k i ↔ (s.runner k).Holds live k i ∨ i = j)
    (hlist : p.OwnsList ↔ (s.runner k).OwnsList) : Consistent live (s'.setRunner k p) := by
  rw [acquire, Option.ite_none_right_eq_some] at hacquire
  obtain ⟨hfree, hs⟩ := hacquire
  rw [← Option.some.inj hs]
  apply h.runnerMoves hexists _ (h.owner_same hlist) h.apart
  exact h.held.acquire hfree holds_setRunner_of_ne fun i => (holds_setRunner_self i).trans (hgains i)

theorem releaseRunner (h : Consistent live s) (hexists : live k = true)
    (hheld : (s.runner k).Holds live k j)
    (hloses : ∀ i, p.Holds live k i ↔ (s.runner k).Holds live k i ∧ i ≠ j)
    (hlist : p.OwnsList ↔ (s.runner k).OwnsList) : Consistent live ((s.release j).setRunner k p) := by
  apply h.runnerMoves hexists _ (h.owner_same hlist) h.apart
  have hholds : s.Holds live (.runner k) j := hheld
  exact h.held.release hholds holds_setRunner_of_ne
    fun i => (holds_setRunner_self i).trans (hloses i)

theorem acquireListRunner [DecidableEq ι] (h : Consistent live s) (hexists : live k = true)
    (hacquire : s.acquireList (.runner k) = some s')
    (hheld : ∀ j, p.Holds live k j ↔ (s.runner k).Holds live k j) (hlist : p.OwnsList) :
    Consistent live (s'.setRunner k p) := by
  rw [acquireList, Option.ite_none_right_eq_some] at hacquire
  obtain ⟨⟨hfree, hreaders⟩, hs⟩ := hacquire
  rw [← Option.some.inj hs]
  apply h.runnerMoves hexists (h.held_same hheld) _ fun _ => hreaders
  intro t
  have hnone (k' : Fin 256) : ¬(s.runner k').OwnsList := fun howns => by
    simpa [hfree] using (h.owner (.runner k')).mpr ⟨k', rfl, howns⟩
  constructor
  · intro ht
    exact ⟨k, (Option.some.inj ht).symm, by simpa [setRunner] using hlist⟩
  · rintro ⟨k', rfl, howns⟩
    by_cases hk : k' = k
    · rw [hk]
    · exact absurd (by simpa [setRunner, hk] using howns) (hnone k')

theorem releaseListRunner (h : Consistent live s) (hexists : live k = true)
    (howns : (s.runner k).OwnsList)
    (hheld : ∀ j, p.Holds live k j ↔ (s.runner k).Holds live k j) (hlist : ¬p.OwnsList) :
    Consistent live ({ s with listOwner := none }.setRunner k p) := by
  apply h.runnerMoves hexists (h.held_same hheld) _ fun hne => absurd rfl hne
  intro t
  have howner := (h.owner (.runner k)).mpr ⟨k, rfl, howns⟩
  constructor
  · intro ht
    exact absurd ht (by simp)
  · rintro ⟨k', rfl, howns'⟩
    by_cases hk : k' = k
    · exact absurd (by simpa [setRunner, hk] using howns') hlist
    · have howner' := (h.owner (.runner k')).mpr ⟨k', rfl, by simpa [setRunner, hk] using howns'⟩
      rw [howner, Option.some.injEq, VmThread.runner.injEq] at howner'
      exact absurd howner'.symm hk

end Consistent

section

variable [DecidableEq ι]

theorem holds_setMapper_of_ne (t : VmThread ι) (h : t ≠ .mapper m) (j : Fin 256) :
    (s.setMapper m q).Holds live t j ↔ s.Holds live t j := by
  cases t with
  | runner k => exact Iff.rfl
  | mapper m' =>
      have hm : m' ≠ m := fun heq => h (congrArg _ heq)
      simp [Holds, setMapper, hm]

theorem holds_setMapper_self (j : Fin 256) :
    (s.setMapper m q).Holds live (.mapper m) j ↔ q.Holds live j := by
  simp [Holds, setMapper]

namespace Consistent

/-- A move of one mapper, with what it makes of the locks. -/
theorem mapperMoves (h : Consistent live s) {lock : Fin 256 → Option (VmThread ι)} {readers : Finset ι}
    (hheld : Locking.Agrees lock ((s.setMapper m q).Holds live))
    (hreaders : ∀ m', m' ∈ readers ↔ ((s.setMapper m q).mapper m').Reads)
    (hapart : s.listOwner ≠ none → readers = ∅) :
    Consistent live ({ s with vcpuLock := lock, listReaders := readers }.setMapper m q) where
  exist := h.exist
  held lock t := hheld lock t
  owner := h.owner
  readers := hreaders
  apart := hapart

theorem readers_same (h : Consistent live s) (hreads : q.Reads ↔ (s.mapper m).Reads) (m' : ι) :
    m' ∈ s.listReaders ↔ ((s.setMapper m q).mapper m').Reads := by
  rw [h.readers]
  by_cases hm : m' = m
  · simp [setMapper, hm, hreads]
  · simp [setMapper, hm]

theorem held_mapper_same (h : Consistent live s)
    (hheld : ∀ j, q.Holds live j ↔ (s.mapper m).Holds live j) :
    Locking.Agrees s.vcpuLock ((s.setMapper m q).Holds live) :=
  h.held.move holds_setMapper_of_ne fun j => (holds_setMapper_self j).trans (hheld j)

theorem moveMapper (h : Consistent live s) (hheld : ∀ j, q.Holds live j ↔ (s.mapper m).Holds live j)
    (hreads : q.Reads ↔ (s.mapper m).Reads) : Consistent live (s.setMapper m q) :=
  h.mapperMoves (h.held_mapper_same hheld) (h.readers_same hreads) h.apart

theorem acquireMapper (h : Consistent live s) (hacquire : s.acquire (.mapper m) j = some s')
    (hgains : ∀ i, q.Holds live i ↔ (s.mapper m).Holds live i ∨ i = j)
    (hreads : q.Reads ↔ (s.mapper m).Reads) : Consistent live (s'.setMapper m q) := by
  rw [acquire, Option.ite_none_right_eq_some] at hacquire
  obtain ⟨hfree, hs⟩ := hacquire
  rw [← Option.some.inj hs]
  apply h.mapperMoves _ (h.readers_same hreads) h.apart
  exact h.held.acquire hfree holds_setMapper_of_ne fun i => (holds_setMapper_self i).trans (hgains i)

theorem releaseMapper (h : Consistent live s) (hheld : (s.mapper m).Holds live j)
    (hloses : ∀ i, q.Holds live i ↔ (s.mapper m).Holds live i ∧ i ≠ j)
    (hreads : q.Reads ↔ (s.mapper m).Reads) : Consistent live ((s.release j).setMapper m q) := by
  apply h.mapperMoves _ (h.readers_same hreads) h.apart
  have hholds : s.Holds live (.mapper m) j := hheld
  exact h.held.release hholds holds_setMapper_of_ne
    fun i => (holds_setMapper_self i).trans (hloses i)

theorem acquireListMapper (h : Consistent live s) (hacquire : s.acquireListShared m = some s')
    (hheld : ∀ j, q.Holds live j ↔ (s.mapper m).Holds live j) (hreads : q.Reads) :
    Consistent live (s'.setMapper m q) := by
  rw [acquireListShared, Option.ite_none_right_eq_some] at hacquire
  obtain ⟨hfree, hs⟩ := hacquire
  rw [← Option.some.inj hs]
  apply h.mapperMoves (h.held_mapper_same hheld) _ fun howner => absurd hfree howner
  intro m'
  by_cases hm : m' = m
  · simp [setMapper, hm, hreads]
  · simpa [setMapper, hm] using h.readers m'

theorem releaseListMapper (h : Consistent live s)
    (hheld : ∀ j, q.Holds live j ↔ (s.mapper m).Holds live j) (hreads : ¬q.Reads) :
    Consistent live ({ s with listReaders := s.listReaders.erase m }.setMapper m q) := by
  apply h.mapperMoves (h.held_mapper_same hheld) _ fun howner => by simp [h.apart howner]
  intro m'
  by_cases hm : m' = m
  · simp [setMapper, hm, hreads]
  · simpa [setMapper, hm] using h.readers m'

end Consistent

theorem Consistent.gainRunner (h : Consistent live s) (hexists : live k = true) {i : Nat}
    (hphase : s.runner k = .gaining i) (hi : i < 256)
    (hgain : s.gain live (.runner k) ⟨i, hi⟩ = some s') :
    Consistent live (s'.setRunner k (.gaining (i + 1))) := by
  by_cases hothers : live ⟨i, hi⟩ = true ∧ VmThread.runner (ι := ι) k ≠ .runner ⟨i, hi⟩
  · rw [gain, if_pos hothers] at hgain
    have hne : ⟨i, hi⟩ ≠ k := fun heq => hothers.2 (congrArg _ heq.symm)
    apply h.acquireRunner hexists hgain
    · intro j
      simp only [hphase, RunnerPhase.holds_gaining_succ hi, hothers.1, hne, true_and, ne_eq,
        not_false_eq_true]
    · simp [hphase, RunnerPhase.OwnsList]
  · rw [gain, if_neg hothers] at hgain
    rw [← Option.some.inj hgain]
    have hsame : ¬(live ⟨i, hi⟩ = true ∧ ⟨i, hi⟩ ≠ k) := fun ⟨hl, hne⟩ =>
      hothers ⟨hl, fun heq => hne (VmThread.runner.inj heq).symm⟩
    apply h.moveRunner hexists
    · intro j
      rw [hphase, RunnerPhase.holds_gaining_succ hi]
      simp only [hsame, false_and, or_false]
    · simp [hphase, RunnerPhase.OwnsList]

theorem Consistent.freeRunner (h : Consistent live s) (hexists : live k = true) {i : Nat}
    (hphase : s.runner k = .freeing i) (hi : i < 256) :
    Consistent live ((s.free live (.runner k) ⟨i, hi⟩).setRunner k (.freeing (i + 1))) := by
  by_cases hothers : live ⟨i, hi⟩ = true ∧ VmThread.runner (ι := ι) k ≠ .runner ⟨i, hi⟩
  · rw [free, if_pos hothers]
    have hne : ⟨i, hi⟩ ≠ k := fun heq => hothers.2 (congrArg _ heq.symm)
    apply h.releaseRunner hexists
    · simp [hphase, RunnerPhase.Holds, RunnerPhase.Gained, hne, hothers.1]
    · intro j
      simp only [hphase, RunnerPhase.holds_freeing_succ hi, hothers.1, hne, true_and, ne_eq,
        not_false_eq_true]
    · simp [hphase, RunnerPhase.OwnsList]
  · rw [free, if_neg hothers]
    have hsame : ¬(live ⟨i, hi⟩ = true ∧ ⟨i, hi⟩ ≠ k) := fun ⟨hl, hne⟩ =>
      hothers ⟨hl, fun heq => hne (VmThread.runner.inj heq).symm⟩
    apply h.moveRunner hexists
    · intro j
      rw [hphase, RunnerPhase.holds_freeing_succ hi]
      simp only [hsame, false_and, not_false_eq_true, and_true]
    · simp [hphase, RunnerPhase.OwnsList]

theorem Consistent.gainMapper (h : Consistent live s) {i : Nat} (hphase : s.mapper m = .gaining i)
    (hi : i < 255) (hgain : s.gain live (.mapper m) ⟨i, by omega⟩ = some s') :
    Consistent live (s'.setMapper m (.gaining (i + 1))) := by
  by_cases hlive : live ⟨i, by omega⟩ = true
  · rw [gain, if_pos ⟨hlive, by simp⟩] at hgain
    apply h.acquireMapper hgain
    · intro j
      simp only [hphase, MapperPhase.holds_gaining_succ (Nat.lt_succ_of_lt hi) hi, hlive, true_and]
    · simp [hphase, MapperPhase.Reads]
  · rw [gain, if_neg fun hothers => hlive hothers.1] at hgain
    rw [← Option.some.inj hgain]
    apply h.moveMapper
    · intro j
      rw [hphase, MapperPhase.holds_gaining_succ (Nat.lt_succ_of_lt hi) hi]
      simp only [hlive, Bool.false_eq_true, false_and, or_false]
    · simp [hphase, MapperPhase.Reads]

theorem Consistent.freeMapper (h : Consistent live s) {i : Nat} (hphase : s.mapper m = .freeing i)
    (hi : i < 255) :
    Consistent live ((s.free live (.mapper m) ⟨i, by omega⟩).setMapper m (.freeing (i + 1))) := by
  by_cases hlive : live ⟨i, by omega⟩ = true
  · rw [free, if_pos ⟨hlive, by simp⟩]
    apply h.releaseMapper
    · simp [hphase, MapperPhase.Holds, MapperPhase.Gained, hlive, hi]
    · intro j
      simp only [hphase, MapperPhase.holds_freeing_succ (Nat.lt_succ_of_lt hi), hlive, true_and,
        ne_eq]
    · simp [hphase, MapperPhase.Reads]
  · rw [free, if_neg fun hothers => hlive hothers.1]
    apply h.moveMapper
    · intro j
      rw [hphase, MapperPhase.holds_freeing_succ (Nat.lt_succ_of_lt hi)]
      simp only [hlive, Bool.false_eq_true, false_and, not_false_eq_true, and_true]
    · simp [hphase, MapperPhase.Reads]

theorem Consistent.stepRunner (h : Consistent live s) (hstep : s.stepRunner live k = some s') :
    Consistent live s' := by
  have hexists (hidle : s.runner k ≠ .idle) : live k = true := h.exist k hidle
  rw [VmLocks.stepRunner] at hstep
  cases hphase : s.runner k <;> rw [hphase] at hstep hexists <;>
    simp only [ne_eq, reduceCtorEq, not_false_eq_true, forall_const] at hexists <;>
    simp only [Option.map_eq_some_iff, reduceCtorEq, Option.some.injEq] at hstep
  case entering =>
    obtain ⟨s₁, hacquire, rfl⟩ := hstep
    apply h.acquireRunner hexists hacquire
    · intro j
      by_cases hj : j = k <;> simp [hphase, RunnerPhase.Holds, RunnerPhase.Entered, RunnerPhase.Gained, hj]
    · simp [hphase, RunnerPhase.OwnsList]
  case gainingList =>
    obtain ⟨s₁, hacquire, rfl⟩ := hstep
    apply h.acquireListRunner hexists hacquire
    · simp [hphase, RunnerPhase.Holds, RunnerPhase.Entered, RunnerPhase.Gained]
    · simp [RunnerPhase.OwnsList]
  case gaining i =>
    split at hstep
    next hi =>
      obtain ⟨s₁, hgain, rfl⟩ := Option.map_eq_some_iff.mp hstep
      exact h.gainRunner hexists hphase hi hgain
    next hend =>
      rw [← Option.some.inj hstep]
      apply h.moveRunner hexists
      · intro j
        rw [hphase, RunnerPhase.holds_gaining_end hend]
      · simp [hphase, RunnerPhase.OwnsList]
  case exclusive =>
    subst hstep
    apply h.moveRunner hexists <;>
      simp [hphase, RunnerPhase.Holds, RunnerPhase.Entered, RunnerPhase.Gained, RunnerPhase.OwnsList]
  case freeing i =>
    split at hstep
    next hi =>
      rw [← Option.some.inj hstep]
      exact h.freeRunner hexists hphase hi
    next hend =>
      rw [← Option.some.inj hstep]
      apply h.moveRunner hexists
      · intro j
        rw [hphase, RunnerPhase.holds_freeing_end hend]
      · simp [hphase, RunnerPhase.OwnsList]
  case freeingList =>
    subst hstep
    apply h.releaseListRunner hexists <;>
      simp [hphase, RunnerPhase.Holds, RunnerPhase.Entered, RunnerPhase.Gained, RunnerPhase.OwnsList]
  case leaving =>
    subst hstep
    apply h.releaseRunner hexists
    · simp [hphase, RunnerPhase.Holds, RunnerPhase.Entered]
    · intro j
      by_cases hj : j = k <;> simp [hphase, RunnerPhase.Holds, RunnerPhase.Entered, RunnerPhase.Gained, hj]
    · simp [hphase, RunnerPhase.OwnsList]

theorem Consistent.stepMapper (h : Consistent live s) (hstep : s.stepMapper live m = some s') :
    Consistent live s' := by
  rw [VmLocks.stepMapper] at hstep
  cases hphase : s.mapper m <;> rw [hphase] at hstep <;>
    simp only [Option.map_eq_some_iff, reduceCtorEq, Option.some.injEq] at hstep
  case entering =>
    obtain ⟨s₁, hacquire, rfl⟩ := hstep
    apply h.acquireListMapper hacquire <;>
      simp [hphase, MapperPhase.Holds, MapperPhase.Gained, MapperPhase.Reads]
  case gaining i =>
    split at hstep
    next hi =>
      obtain ⟨s₁, hgain, rfl⟩ := Option.map_eq_some_iff.mp hstep
      exact h.gainMapper hphase hi hgain
    next hend =>
      rw [← Option.some.inj hstep]
      apply h.moveMapper
      · intro j
        rw [hphase, MapperPhase.holds_gaining_end hend]
      · simp [hphase, MapperPhase.Reads]
  case exclusive =>
    subst hstep
    apply h.moveMapper <;> simp [hphase, MapperPhase.Holds, MapperPhase.Gained, MapperPhase.Reads]
  case freeing i =>
    split at hstep
    next hi =>
      rw [← Option.some.inj hstep]
      exact h.freeMapper hphase hi
    next hend =>
      rw [← Option.some.inj hstep]
      apply h.moveMapper
      · intro j
        rw [hphase, MapperPhase.holds_freeing_end hend]
      · simp [hphase, MapperPhase.Reads]
  case leaving =>
    subst hstep
    apply h.releaseListMapper <;>
      simp [hphase, MapperPhase.Holds, MapperPhase.Gained, MapperPhase.Reads]

theorem Consistent.next {e : VmLockEvent ι} (h : Consistent live s) (hnext : s.next live e = some s') :
    Consistent live s' := by
  cases e with
  | call t =>
      cases t with
      | runner k =>
          rw [VmLocks.next, Option.ite_none_right_eq_some] at hnext
          obtain ⟨⟨hidle, hexists⟩, hs⟩ := hnext
          rw [← Option.some.inj hs]
          apply h.moveRunner hexists <;>
            simp [hidle, RunnerPhase.Holds, RunnerPhase.Entered, RunnerPhase.Gained, RunnerPhase.OwnsList]
      | mapper m =>
          rw [VmLocks.next, Option.ite_none_right_eq_some] at hnext
          obtain ⟨hidle, hs⟩ := hnext
          rw [← Option.some.inj hs]
          apply h.moveMapper <;> simp [hidle, MapperPhase.Holds, MapperPhase.Gained, MapperPhase.Reads]
  | step t =>
      cases t with
      | runner k => exact h.stepRunner hnext
      | mapper m => exact h.stepMapper hnext
  | exit k exclusive =>
      rw [VmLocks.next, Option.ite_none_right_eq_some] at hnext
      obtain ⟨hrunning, hs⟩ := hnext
      rw [← Option.some.inj hs]
      apply h.moveRunner (h.exist k (by simp [hrunning])) <;> cases exclusive <;>
        simp [hrunning, RunnerPhase.Holds, RunnerPhase.Entered, RunnerPhase.Gained, RunnerPhase.OwnsList]
  | map m gains =>
      rw [VmLocks.next, Option.ite_none_right_eq_some] at hnext
      obtain ⟨hinside, hs⟩ := hnext
      rw [← Option.some.inj hs]
      apply h.moveMapper <;> cases gains <;>
        simp [hinside, MapperPhase.Holds, MapperPhase.Gained, MapperPhase.Reads]

omit [DecidableEq ι] in
theorem acquire_phases (h : s.acquire t j = some s') : s'.runner = s.runner ∧ s'.mapper = s.mapper := by
  rw [acquire, Option.ite_none_right_eq_some] at h
  rw [← Option.some.inj h.2]
  exact ⟨rfl, rfl⟩

theorem gain_phases (h : s.gain live t j = some s') :
    s'.runner = s.runner ∧ s'.mapper = s.mapper := by
  rw [gain] at h
  split at h
  · exact acquire_phases h
  · rw [← Option.some.inj h]
    exact ⟨rfl, rfl⟩

theorem free_phases (t : VmThread ι) (j : Fin 256) :
    (s.free live t j).runner = s.runner ∧ (s.free live t j).mapper = s.mapper := by
  rw [free]
  split <;> exact ⟨rfl, rfl⟩

/-- One thread moves, and the ways into the loops are the two events that decide on them. -/
def Moves (s s' : VmLocks ι) (e : VmLockEvent ι) : Prop :=
  (∃ k p, e.thread = .runner k ∧ s'.runner = Function.update s.runner k p ∧ s'.mapper = s.mapper ∧
      (p.Gains → (s.runner k).Gains ∨ e = .exit k true) ∧ (p = .gainingList → e = .exit k true)) ∨
    ∃ m q, e.thread = .mapper m ∧ s'.runner = s.runner ∧ s'.mapper = Function.update s.mapper m q ∧
      (q.Gains → (s.mapper m).Gains ∨ e = .map m true) ∧
      (q.Maps → (s.mapper m).Maps ∨ e = .map m true)

theorem moves_setRunner {e : VmLockEvent ι} {s₁ : VmLocks ι} (he : e.thread = .runner k)
    (hsame : s₁.runner = s.runner ∧ s₁.mapper = s.mapper)
    (hgains : p.Gains → (s.runner k).Gains ∨ e = .exit k true)
    (hlist : p = .gainingList → e = .exit k true) : s.Moves (s₁.setRunner k p) e :=
  .inl ⟨k, p, he, by simp [setRunner, hsame.1], hsame.2, hgains, hlist⟩

theorem moves_setMapper {e : VmLockEvent ι} {s₁ : VmLocks ι} (he : e.thread = .mapper m)
    (hsame : s₁.runner = s.runner ∧ s₁.mapper = s.mapper)
    (hgains : q.Gains → (s.mapper m).Gains ∨ e = .map m true)
    (hmaps : q.Maps → (s.mapper m).Maps ∨ e = .map m true) : s.Moves (s₁.setMapper m q) e :=
  .inr ⟨m, q, he, hsame.1, by simp [setMapper, hsame.2], hgains, hmaps⟩

theorem moves_stepRunner (hstep : s.stepRunner live k = some s') : s.Moves s' (.step (.runner k)) := by
  rw [stepRunner] at hstep
  cases hphase : s.runner k <;> rw [hphase] at hstep <;>
    simp only [Option.map_eq_some_iff, reduceCtorEq, Option.some.injEq] at hstep
  case entering =>
    obtain ⟨s₁, hacquire, rfl⟩ := hstep
    exact moves_setRunner rfl (acquire_phases hacquire) (by simp [RunnerPhase.Gains]) (by simp)
  case gainingList =>
    obtain ⟨s₁, hacquire, rfl⟩ := hstep
    rw [acquireList, Option.ite_none_right_eq_some] at hacquire
    rw [← Option.some.inj hacquire.2]
    exact moves_setRunner rfl ⟨rfl, rfl⟩ (by simp [RunnerPhase.Gains, hphase]) (by simp)
  case gaining i =>
    split at hstep
    next hi =>
      obtain ⟨s₁, hgain, rfl⟩ := Option.map_eq_some_iff.mp hstep
      exact moves_setRunner rfl (gain_phases hgain) (by simp [RunnerPhase.Gains, hphase]) (by simp)
    next hend =>
      rw [← Option.some.inj hstep]
      exact moves_setRunner rfl ⟨rfl, rfl⟩ (by simp [RunnerPhase.Gains]) (by simp)
  case freeing i =>
    split at hstep
    next hi =>
      rw [← Option.some.inj hstep]
      exact moves_setRunner rfl (free_phases _ _) (by simp [RunnerPhase.Gains]) (by simp)
    next hend =>
      rw [← Option.some.inj hstep]
      exact moves_setRunner rfl ⟨rfl, rfl⟩ (by simp [RunnerPhase.Gains]) (by simp)
  all_goals
    subst hstep
    exact moves_setRunner rfl ⟨rfl, rfl⟩ (by simp [RunnerPhase.Gains]) (by simp)

theorem moves_stepMapper (hstep : s.stepMapper live m = some s') : s.Moves s' (.step (.mapper m)) := by
  rw [stepMapper] at hstep
  cases hphase : s.mapper m <;> rw [hphase] at hstep <;>
    simp only [Option.map_eq_some_iff, reduceCtorEq, Option.some.injEq] at hstep
  case entering =>
    obtain ⟨s₁, hacquire, rfl⟩ := hstep
    rw [acquireListShared, Option.ite_none_right_eq_some] at hacquire
    rw [← Option.some.inj hacquire.2]
    exact moves_setMapper rfl ⟨rfl, rfl⟩ (by simp [MapperPhase.Gains]) (by simp [MapperPhase.Maps])
  case gaining i =>
    split at hstep
    next hi =>
      obtain ⟨s₁, hgain, rfl⟩ := Option.map_eq_some_iff.mp hstep
      exact moves_setMapper rfl (gain_phases hgain) (by simp [MapperPhase.Gains, hphase])
        (by simp [MapperPhase.Maps, hphase])
    next hend =>
      rw [← Option.some.inj hstep]
      exact moves_setMapper rfl ⟨rfl, rfl⟩ (by simp [MapperPhase.Gains])
        (by simp [MapperPhase.Maps, hphase])
  case freeing i =>
    split at hstep
    next hi =>
      rw [← Option.some.inj hstep]
      exact moves_setMapper rfl (free_phases _ _) (by simp [MapperPhase.Gains])
        (by simp [MapperPhase.Maps, hphase])
    next hend =>
      rw [← Option.some.inj hstep]
      exact moves_setMapper rfl ⟨rfl, rfl⟩ (by simp [MapperPhase.Gains]) (by simp [MapperPhase.Maps])
  all_goals
    subst hstep
    exact moves_setMapper rfl ⟨rfl, rfl⟩ (by simp [MapperPhase.Gains])
      (by simp [MapperPhase.Maps, hphase])

theorem moves_of_next {e : VmLockEvent ι} (hnext : s.next live e = some s') : s.Moves s' e := by
  cases e with
  | call t =>
      cases t with
      | runner k =>
          rw [next, Option.ite_none_right_eq_some] at hnext
          rw [← Option.some.inj hnext.2]
          exact moves_setRunner rfl ⟨rfl, rfl⟩ (by simp [RunnerPhase.Gains]) (by simp)
      | mapper m =>
          rw [next, Option.ite_none_right_eq_some] at hnext
          rw [← Option.some.inj hnext.2]
          exact moves_setMapper rfl ⟨rfl, rfl⟩ (by simp [MapperPhase.Gains]) (by simp [MapperPhase.Maps])
  | step t =>
      cases t with
      | runner k => exact moves_stepRunner hnext
      | mapper m => exact moves_stepMapper hnext
  | exit k exclusive =>
      rw [next, Option.ite_none_right_eq_some] at hnext
      rw [← Option.some.inj hnext.2]
      cases exclusive <;> exact moves_setRunner rfl ⟨rfl, rfl⟩ (by simp [RunnerPhase.Gains]) (by simp)
  | map m gains =>
      rw [next, Option.ite_none_right_eq_some] at hnext
      rw [← Option.some.inj hnext.2]
      cases gains <;>
        exact moves_setMapper rfl ⟨rfl, rfl⟩ (by simp [MapperPhase.Gains]) (by simp [MapperPhase.Maps])

omit [DecidableEq ι] in
theorem start_consistent : Consistent live (start : VmLocks ι) where
  exist k hk := absurd rfl hk
  held lock t := by
    cases t with
    | runner k => simp [start, Holds, RunnerPhase.Holds, RunnerPhase.Entered, RunnerPhase.Gained]
    | mapper m => simp [start, Holds, MapperPhase.Holds, MapperPhase.Gained]
  owner t := by simp [start, RunnerPhase.OwnsList]
  readers m := by simp [start, MapperPhase.Reads]
  apart h := absurd rfl h

/-- Whoever waits with locks does not wait for one who waits with others. -/
structure Ordered (live : Fin 256 → Bool) (s : VmLocks ι) : Prop where
  solitary : ∀ k k', (s.runner k).Gains → (s.runner k').Gains → k = k'
  apart : ∀ k m, s.runner k = .gainingList → ¬(s.mapper m).Gains
  whole : ∀ m, (s.mapper m).Maps → live 255 = false

omit [DecidableEq ι] in
theorem not_gains_of_kept (hkept : (VmLockEvent.exit k true).Kept live s) :
    (∀ k, ¬(s.runner k).Gains) ∧ ∀ m, ¬(s.mapper m).Gains := by
  obtain ⟨hlist, hrunner, hmapper⟩ := hkept
  constructor
  · intro k hgains
    cases hphase : s.runner k with
    | gainingList => exact hlist k hphase
    | gaining i => exact hrunner k i hphase
    | _ => simp [hphase, RunnerPhase.Gains] at hgains
  · intro m hgains
    cases hphase : s.mapper m with
    | gaining i => exact hmapper m i hphase
    | _ => simp [hphase, MapperPhase.Gains] at hgains

theorem Ordered.next {e : VmLockEvent ι} (h : Ordered live s) (hkept : e.Kept live s)
    (hmoves : s.Moves s' e) : Ordered live s' := by
  obtain ⟨k, p, -, hrunner, hmapper, hgains, hlist⟩ | ⟨m, q, -, hrunner, hmapper, hgains, hmaps⟩ := hmoves
  · -- A runner that waits now waited before, or nobody waited.
    have hothers (k' : Fin 256) (hp : p.Gains) (hk' : k' ≠ k) : ¬(s.runner k').Gains := by
      obtain hbefore | rfl := hgains hp
      · exact fun hgains' => hk' (h.solitary k' k hgains' hbefore)
      · exact (not_gains_of_kept hkept).1 k'
    constructor
    · intro k₁ k₂ h₁ h₂
      rw [hrunner] at h₁ h₂
      by_cases hk₁ : k₁ = k <;> by_cases hk₂ : k₂ = k
      · rw [hk₁, hk₂]
      · subst hk₁
        exact absurd (by simpa [hk₂] using h₂) (hothers k₂ (by simpa using h₁) hk₂)
      · subst hk₂
        exact absurd (by simpa [hk₁] using h₁) (hothers k₁ (by simpa using h₂) hk₁)
      · exact h.solitary k₁ k₂ (by simpa [hk₁] using h₁) (by simpa [hk₂] using h₂)
    · intro k' m hwaits
      rw [hrunner] at hwaits
      rw [hmapper]
      by_cases hk' : k' = k
      · have he := hlist (by simpa [hk'] using hwaits)
        subst he
        exact (not_gains_of_kept hkept).2 m
      · exact h.apart k' m (by simpa [hk'] using hwaits)
    · intro m hm
      exact h.whole m (hmapper ▸ hm)
  · constructor
    · intro k₁ k₂
      rw [hrunner]
      exact h.solitary k₁ k₂
    · intro k m' hwaits
      rw [hrunner] at hwaits
      rw [hmapper]
      by_cases hm : m' = m
      · rw [hm, Function.update_self]
        intro hq
        obtain hbefore | rfl := hgains hq
        · exact h.apart k m hwaits hbefore
        · exact hkept.1 k hwaits
      · simpa [hm] using h.apart k m' hwaits
    · intro m' hm'
      rw [hmapper] at hm'
      by_cases hm : m' = m
      · obtain hbefore | rfl := hmaps (by simpa [hm] using hm')
        · exact h.whole m hbefore
        · exact hkept.2
      · exact h.whole m' (by simpa [hm] using hm')

/-- Where nobody has to wait, there is a next step. What waits without locks ranks lowest, and the
mappers, which take the locks in order, by how far they are. -/
def rank (s : VmLocks ι) : VmThread ι → Nat
  | .runner k => match s.runner k with
      | .entering => 0
      | .gainingList => 1
      | .gaining _ => 300
      | _ => 1000
  | .mapper m => match s.mapper m with
      | .entering => 1
      | .gaining i => min (2 + i) 299
      | _ => 1000

omit [DecidableEq ι] in
theorem rank_le (s : VmLocks ι) (t : VmThread ι) : s.rank t ≤ 1000 := by
  cases t with
  | runner k => cases hphase : s.runner k <;> simp [rank, hphase]
  | mapper m => cases hphase : s.mapper m <;> simp [rank, hphase]

omit [DecidableEq ι] in
theorem holder_of_acquire (hc : Consistent live s) (hwaits : s.acquire t j = none) :
    ∃ t', s.Holds live t' j := by
  rw [acquire, ite_eq_right_iff] at hwaits
  cases howner : s.vcpuLock j with
  | none => exact absurd (hwaits howner) (by simp)
  | some t' => exact ⟨t', (hc.held j t').mp howner⟩

omit [DecidableEq ι] in
theorem holder_runner (hholds : s.Holds live (.runner k) j) :
    ¬s.Finished (.runner k) ∧ 0 < s.rank (.runner k) ∧
      (s.runner k = .gainingList ∨ (s.runner k).Gains ∧ s.rank (.runner k) = 300 ∨
        s.rank (.runner k) = 1000) := by
  cases hphase : s.runner k <;>
    simp_all [Holds, RunnerPhase.Holds, RunnerPhase.Entered, RunnerPhase.Gained, Finished, rank,
      RunnerPhase.Gains]

omit [DecidableEq ι] in
theorem holder_mapper (hholds : s.Holds live (.mapper m) j) :
    ¬s.Finished (.mapper m) ∧ min (2 + (j : Nat)) 298 < s.rank (.mapper m) := by
  obtain ⟨-, hgained⟩ := hholds
  cases hphase : s.mapper m <;> simp only [hphase, MapperPhase.Gained] at hgained <;>
    simp only [Finished, hphase, rank, reduceCtorEq, not_false_eq_true, true_and] <;> omega

theorem waits_runner (hc : Consistent live s) (ho : Ordered live s) (hunfinished : ¬s.Finished (.runner k))
    (hblocked : s.Blocked live (.runner k)) :
    ∃ t, ¬s.Finished t ∧ s.rank (.runner k) < s.rank t := by
  have hstep : s.stepRunner live k = none := hblocked (.step (.runner k)) rfl
  cases hphase : s.runner k with
  | idle => exact absurd hphase hunfinished
  | entering =>
      rw [stepRunner, hphase, Option.map_eq_none_iff] at hstep
      obtain ⟨t, hholds⟩ := holder_of_acquire hc hstep
      have hrank : s.rank (.runner k) = 0 := by simp [rank, hphase]
      rw [hrank]
      cases t with
      | runner k' => exact ⟨_, (holder_runner hholds).1, (holder_runner hholds).2.1⟩
      | mapper m => exact ⟨_, (holder_mapper hholds).1, by have := (holder_mapper hholds).2; omega⟩
  | running =>
      have hexit := hblocked (.exit k false) rfl
      rw [next, if_pos hphase] at hexit
      exact absurd hexit (by simp)
  | gainingList =>
      rw [stepRunner, hphase, Option.map_eq_none_iff, acquireList, ite_eq_right_iff] at hstep
      have hrank : s.rank (.runner k) = 1 := by simp [rank, hphase]
      rw [hrank]
      cases howner : s.listOwner with
      | some t =>
          obtain ⟨k', rfl, howns⟩ := (hc.owner t).mp howner
          refine ⟨.runner k', ?_⟩
          cases hphase' : s.runner k' <;> simp_all [RunnerPhase.OwnsList, Finished, rank]
      | none =>
          obtain ⟨m, hm⟩ := Finset.nonempty_iff_ne_empty.mpr fun hreaders =>
            absurd (hstep ⟨howner, hreaders⟩) (by simp)
          have hreads := (hc.readers m).mp hm
          refine ⟨.mapper m, ?_⟩
          cases hphase' : s.mapper m <;> simp_all [MapperPhase.Reads, Finished, rank]
          omega
  | gaining i =>
      have hgains : (s.runner k).Gains := by simp [hphase, RunnerPhase.Gains]
      have hrank : s.rank (.runner k) = 300 := by simp [rank, hphase]
      have howner := (hc.owner (.runner k)).mpr ⟨k, rfl, by simp [hphase, RunnerPhase.OwnsList]⟩
      simp only [stepRunner, hphase] at hstep
      split at hstep
      · rw [Option.map_eq_none_iff, gain] at hstep
        split at hstep
        next hi hothers =>
          obtain ⟨t, hholds⟩ := holder_of_acquire hc hstep
          have hne : (⟨i, hi⟩ : Fin 256) ≠ k := fun heq => hothers.2 (congrArg _ heq.symm)
          rw [hrank]
          cases t with
          | runner k' =>
              obtain ⟨hholder, -, hlist | ⟨hgains', -⟩ | hfree⟩ := holder_runner hholds
              · have hk := ho.solitary k' k (by simp [hlist, RunnerPhase.Gains]) hgains
                simp [← hk, hlist] at hphase
              · have hk := ho.solitary k' k hgains' hgains
                subst hk
                simp [Holds, RunnerPhase.Holds, hphase, RunnerPhase.Gained, hne] at hholds
              · exact ⟨_, hholder, by omega⟩
          | mapper m =>
              -- The list is not shared while somebody has it.
              have hreads : (s.mapper m).Reads := by
                obtain ⟨-, hgained⟩ := hholds
                cases hphase' : s.mapper m <;> simp_all [MapperPhase.Gained, MapperPhase.Reads]
              have hmem := (hc.readers m).mpr hreads
              rw [hc.apart (by simp [howner])] at hmem
              exact absurd hmem (Finset.notMem_empty m)
        next => exact absurd hstep (by simp)
      · exact absurd hstep (by simp)
  | exclusive => exact absurd hstep (by simp [stepRunner, hphase])
  | freeing i =>
      simp only [stepRunner, hphase] at hstep
      split at hstep <;> exact absurd hstep (by simp)
  | freeingList => exact absurd hstep (by simp [stepRunner, hphase])
  | leaving => exact absurd hstep (by simp [stepRunner, hphase])

theorem waits_mapper (hc : Consistent live s) (ho : Ordered live s) (hunfinished : ¬s.Finished (.mapper m))
    (hblocked : s.Blocked live (.mapper m)) :
    ∃ t, ¬s.Finished t ∧ s.rank (.mapper m) < s.rank t := by
  have hstep : s.stepMapper live m = none := hblocked (.step (.mapper m)) rfl
  cases hphase : s.mapper m with
  | idle => exact absurd hphase hunfinished
  | entering =>
      rw [stepMapper, hphase, Option.map_eq_none_iff, acquireListShared, ite_eq_right_iff] at hstep
      have hrank : s.rank (.mapper m) = 1 := by simp [rank, hphase]
      rw [hrank]
      cases howner : s.listOwner with
      | none => exact absurd (hstep howner) (by simp)
      | some t =>
          obtain ⟨k, rfl, howns⟩ := (hc.owner t).mp howner
          refine ⟨.runner k, ?_⟩
          cases hphase' : s.runner k <;> simp_all [RunnerPhase.OwnsList, Finished, rank]
  | inside =>
      have hmap := hblocked (.map m false) rfl
      rw [next, if_pos hphase] at hmap
      exact absurd hmap (by simp)
  | gaining i =>
      have hgains : (s.mapper m).Gains := by simp [hphase, MapperPhase.Gains]
      simp only [stepMapper, hphase] at hstep
      split at hstep
      next hi =>
        have hrank : s.rank (.mapper m) = 2 + i := by
          simp only [rank, hphase]
          omega
        rw [Option.map_eq_none_iff, gain] at hstep
        split at hstep
        next =>
          obtain ⟨t, hholds⟩ := holder_of_acquire hc hstep
          rw [hrank]
          cases t with
          | runner k =>
              obtain ⟨hholder, -, hlist | ⟨-, hrank'⟩ | hrank'⟩ := holder_runner hholds
              · exact absurd hgains (ho.apart k m hlist)
              · exact ⟨_, hholder, by omega⟩
              · exact ⟨_, hholder, by omega⟩
          | mapper m' =>
              obtain ⟨hholder, hrank'⟩ := holder_mapper hholds
              exact ⟨_, hholder, by simp only at hrank'; omega⟩
        next => exact absurd hstep (by simp)
      next => exact absurd hstep (by simp)
  | exclusive => exact absurd hstep (by simp [stepMapper, hphase])
  | freeing i =>
      simp only [stepMapper, hphase] at hstep
      split at hstep <;> exact absurd hstep (by simp)
  | leaving => exact absurd hstep (by simp [stepMapper, hphase])

theorem Consistent.owned {e : VmLockEvent ι} (hc : Consistent live s) (hnext : s.next live e = some s') :
    (∀ k, s'.vcpuLock k ≠ s.vcpuLock k → s.vcpuLock k = none ∨ s.vcpuLock k = some e.thread) ∧
      (s'.listOwner ≠ s.listOwner → s.listOwner = none ∨ s.listOwner = some e.thread) := by
  have hc' := hc.next hnext
  -- The others stay where they are, with what they hold.
  have hothers (t : VmThread ι) (ht : t ≠ e.thread) (j : Fin 256) : s.Holds live t j → s'.Holds live t j := by
    obtain ⟨k, p, he, hrunner, hmapper, -⟩ | ⟨m, q, he, hrunner, hmapper, -⟩ := moves_of_next hnext
    · cases t with
      | runner k' =>
          have hk : k' ≠ k := fun heq => ht (by rw [he, heq])
          simp [Holds, hrunner, hk]
      | mapper m => simp [Holds, hmapper]
    · cases t with
      | runner k => simp [Holds, hrunner]
      | mapper m' =>
          have hm : m' ≠ m := fun heq => ht (by rw [he, heq])
          simp [Holds, hmapper, hm]
  constructor
  · intro k hchanged
    cases howner : s.vcpuLock k with
    | none => exact .inl rfl
    | some t =>
        right
        by_contra ht
        have hholds := hothers t (fun heq => ht (congrArg some heq)) k ((hc.held k t).mp howner)
        exact hchanged (((hc'.held k t).mpr hholds).trans howner.symm)
  · intro hchanged
    cases howner : s.listOwner with
    | none => exact .inl rfl
    | some t =>
        right
        by_contra ht
        obtain ⟨k, rfl, howns⟩ := (hc.owner t).mp howner
        have hsame : s'.runner k = s.runner k := by
          obtain ⟨k', p, he, hrunner, -⟩ | ⟨m, q, -, hrunner, -⟩ := moves_of_next hnext
          · have hk : k ≠ k' := fun heq => ht (by rw [he, heq])
            simp [hrunner, hk]
          · rw [hrunner]
        exact hchanged (((hc'.owner _).mpr ⟨k, rfl, hsame ▸ howns⟩).trans howner.symm)

theorem excludes_of_ordered (hc : Consistent live s) (ho : Ordered live s) : Excludes live s where
  single k k' hk hk' := by
    have howner := (hc.owner (.runner k)).mpr ⟨k, rfl, by simp [hk, RunnerPhase.OwnsList]⟩
    have howner' := (hc.owner (.runner k')).mpr ⟨k', rfl, by simp [hk', RunnerPhase.OwnsList]⟩
    rw [howner, Option.some.injEq, VmThread.runner.injEq] at howner'
    exact howner'
  runner k hk j hj := by
    rw [hc.held j]
    simp [Holds, RunnerPhase.Holds, RunnerPhase.Entered, RunnerPhase.Gained, hk, hj]
  mapper m hm j hj := by
    rw [hc.held j]
    refine ⟨hj, ?_⟩
    rw [hm]
    have hlast : live 255 = false := ho.whole m (by simp [hm, MapperPhase.Maps])
    have hne : j ≠ 255 := fun heq => by simp [heq, hlast] at hj
    have hval : (j : Nat) ≠ 255 := fun heq => hne (Fin.ext heq)
    exact show (j : Nat) < 255 by omega
  owned e s' := hc.owned
  returned t hfinished := by
    cases t with
    | runner k =>
        have hidle : s.runner k = .idle := hfinished
        refine ⟨fun j => ?_, ?_, by simp⟩
        · rw [ne_eq, hc.held j]
          simp [Holds, RunnerPhase.Holds, RunnerPhase.Entered, RunnerPhase.Gained, hidle]
        · rw [ne_eq, hc.owner]
          simp [hidle, RunnerPhase.OwnsList]
    | mapper m =>
        have hidle : s.mapper m = .idle := hfinished
        refine ⟨fun j => ?_, ?_, ?_⟩
        · rw [ne_eq, hc.held j]
          simp [Holds, MapperPhase.Holds, MapperPhase.Gained, hidle]
        · rw [ne_eq, hc.owner]
          simp
        · intro m' hmem heq
          have hreads := (hc.readers m').mp hmem
          rw [← VmThread.mapper.inj heq, hidle] at hreads
          exact hreads
  progress := by
    rintro ⟨t, hunfinished⟩
    apply Transition.exists_unblocked s.rank_le _ hunfinished
    intro t hunfinished hblocked
    cases t with
    | runner k => exact waits_runner hc ho hunfinished hblocked
    | mapper m => exact waits_mapper hc ho hunfinished hblocked

/-- In a run in which nobody who asks for the whole VM meets another one, the threads exclude each other
and go on. -/
theorem excludes (hreach : Reachable live (fun s e => e.Kept live s) s) : Excludes live s := by
  have hinvariant : Consistent live s ∧ Ordered live s := by
    apply Transition.Reachable.invariant _ _ hreach
    · rintro s rfl
      exact ⟨start_consistent, by simp [start, RunnerPhase.Gains], by simp [start],
        by simp [start, MapperPhase.Maps]⟩
    · rintro s s' - ⟨hc, ho⟩ ⟨e, hkept, hnext⟩
      exact ⟨hc.next hnext, ho.next hkept (moves_of_next hnext)⟩
  exact excludes_of_ordered hinvariant.1 hinvariant.2

end

section

/-- A VM with two virtual CPUs. -/
def twoVcpus (k : Fin 256) : Bool := decide (k < 2)

variable {condition : VmLocks Unit → VmLockEvent Unit → Prop} {s s' : VmLocks Unit}

theorem Reachable.next (h : Reachable twoVcpus condition s) (e : VmLockEvent Unit) (hcondition : condition s e)
    (hnext : s.next twoVcpus e = some s') : Reachable twoVcpus condition s' :=
  .step h ⟨e, hcondition, hnext⟩

theorem excludes_twoVcpus : ∃ s : VmLocks Unit, s.runner 0 = .gaining 0 ∧ Excludes twoVcpus s := by
  have hstart : Reachable twoVcpus (fun s e => e.Kept twoVcpus s) (start : VmLocks Unit) := .start rfl
  have hentering := hstart.next (.call (.runner 0)) trivial rfl
  have hrunning := hentering.next (.step (.runner 0)) trivial rfl
  have hwaiting := hrunning.next (.exit 0 true)
    ⟨fun k => by by_cases hk : k = 0 <;> simp [setRunner, start, hk],
      fun k i => by by_cases hk : k = 0 <;> simp [setRunner, start, hk],
      fun m i => by simp [setRunner, start]⟩ rfl
  have hgaining := hwaiting.next (.step (.runner 0)) trivial rfl
  exact ⟨_, rfl, excludes hgaining⟩

theorem not_progress (hfirst : s.runner 0 = .gaining 1) (hsecond : s.runner 1 = .gainingList)
    (hidle : ∀ k, k ≠ 0 → k ≠ 1 → s.runner k = .idle) (hmapper : s.mapper () = .idle)
    (hlock : s.vcpuLock 1 = some (.runner 1)) (hlist : s.listOwner = some (.runner 0)) :
    ¬Excludes twoVcpus s := by
  intro h
  obtain ⟨t, hunfinished, hgoes⟩ := h.progress ⟨.runner 0, by simp [Finished, hfirst]⟩
  apply hgoes
  have hwaits : s.stepRunner twoVcpus 0 = none ∧ s.stepRunner twoVcpus 1 = none := by
    have hacquire : s.acquire (.runner 0) 1 = none := by simp [acquire, hlock]
    constructor
    · simp [stepRunner, hfirst, gain, twoVcpus, hacquire]
    · simp [stepRunner, hsecond, acquireList, hlist]
  rintro e rfl
  cases e with
  | call t | step t =>
      cases t with
      | runner k =>
          by_cases h0 : k = 0
          · subst h0
            simp [VmLocks.next, hfirst, hwaits.1]
          by_cases h1 : k = 1
          · subst h1
            simp [VmLocks.next, hsecond, hwaits.2]
          · exact absurd (hidle k h0 h1) hunfinished
      | mapper m => exact absurd hmapper hunfinished
  | exit k exclusive =>
      by_cases h0 : k = 0
      · simp [VmLocks.next, h0, hfirst]
      by_cases h1 : k = 1
      · simp [VmLocks.next, h1, hsecond]
      · exact absurd (hidle k h0 h1) hunfinished
  | map m gains => exact absurd hmapper hunfinished

/-- Two runs end at a time: the one has the list and waits for the other virtual CPU, whose thread waits
for the list. -/
theorem not_excludes : ¬∀ s : VmLocks Unit, Reachable twoVcpus (fun _ _ => True) s → Excludes twoVcpus s := by
  intro hall
  have hstart : Reachable twoVcpus (fun _ _ => True) (start : VmLocks Unit) := .start rfl
  have hfirst := (hstart.next (.call (.runner 0)) trivial rfl).next (.step (.runner 0)) trivial rfl
  have hsecond := (hfirst.next (.call (.runner 1)) trivial rfl).next (.step (.runner 1)) trivial rfl
  have hexits := (hsecond.next (.exit 0 true) trivial rfl).next (.exit 1 true) trivial rfl
  have hlist := (hexits.next (.step (.runner 0)) trivial rfl).next (.step (.runner 0)) trivial rfl
  exact not_progress rfl rfl (fun k h0 h1 => by simp [setRunner, start, h0, h1]) rfl rfl rfl
    (hall _ hlist)

end

end VmLocks

end NoirVisor
