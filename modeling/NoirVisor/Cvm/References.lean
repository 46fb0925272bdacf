import NoirVisor.Platform
import NoirVisor.Transition

/-!
# Reference counts

A vCPU and a VM are released by the call that drops the last reference, or should be: the interlocked
decrement returns the new count, and the code compares it as if it were the previous one.
-/

namespace NoirVisor

/-- The interlocked operations on 32 bits return what they leave. -/
def noirLockedInc (value : Nat) : Nat := if value = 2 ^ 32 - 1 then 0 else value + 1

def noirLockedDec (value : Nat) : Nat := if value = 0 then 2 ^ 32 - 1 else value - 1

/-- A call of `nvc_deref_vcpu` or `nvc_deref_vm` after its decrement. Beside it stands whether it dropped
the last reference. -/
structure DerefCall where
  prevRefcnt : Nat
  last : Bool
deriving DecidableEq

/-- The call that returns `noir_dereference_destroying` is the one that releases the object. -/
def DerefCall.status (call : DerefCall) : NoirStatus :=
  if call.prevRefcnt ≠ 1 then .success else .dereferenceDestroying

/-- An object with its count, the owners of the references to it, and the calls that drop one, in progress
and returned. -/
structure Referenced (ι : Type) where
  refCount : Nat
  held : List ι
  derefs : List DerefCall
  returned : List DerefCall

inductive ReferenceEvent (ι : Type) where
  /-- An owner makes a reference for another. -/
  | ref (i j : ι)
  | drop (i : ι)
  | finish (call : DerefCall)

namespace Referenced

variable {ι : Type} [DecidableEq ι]

def created (i : ι) : Referenced ι := ⟨1, [i], [], []⟩

/-- `nvc_ref_vcpu`, `nvc_ref_vm`. -/
def ref (s : Referenced ι) (j : ι) : Referenced ι :=
  { s with refCount := noirLockedInc s.refCount, held := j :: s.held }

/-- The decrement, the only atomic step of a call. -/
def drop (s : Referenced ι) (i : ι) : Referenced ι :=
  { s with
    refCount := noirLockedDec s.refCount
    held := s.held.erase i
    derefs := ⟨noirLockedDec s.refCount, (s.held.erase i).isEmpty⟩ :: s.derefs }

def finish (s : Referenced ι) (call : DerefCall) : Referenced ι :=
  { s with derefs := s.derefs.erase call, returned := call :: s.returned }

/-- Everybody drops, and makes others of, only what he owns. -/
def Takes (s : Referenced ι) : ReferenceEvent ι → Referenced ι → Prop
  | .ref i j, s' => i ∈ s.held ∧ s' = s.ref j
  | .drop i, s' => i ∈ s.held ∧ s' = s.drop i
  | .finish call, s' => call ∈ s.derefs ∧ s' = s.finish call

def Reachable (condition : Referenced ι → ReferenceEvent ι → Prop) : Referenced ι → Prop :=
  Transition.Reachable (fun s => ∃ i, s = created i) fun s s' => ∃ e, condition s e ∧ s.Takes e s'

def releases (s : Referenced ι) : Nat :=
  s.returned.countP fun call => call.status = .dereferenceDestroying

/-- The object is released once, by the call that drops the last reference and that alone, and by then
nobody has one. -/
structure Counted (s : Referenced ι) : Prop where
  status : ∀ call ∈ s.returned, call.status = .dereferenceDestroying ↔ call.last = true
  early : s.releases ≠ 0 → s.held = []
  once : s.releases ≤ 1
  released : s.held = [] → s.derefs = [] → s.releases = 1

/-- The count before a drop: it is neither the last reference nor, by the count of 32 bits, the one before
the last. -/
def Kept (s : Referenced ι) : ReferenceEvent ι → Prop
  | .drop _ => s.held.length ≠ 1 ∧ s.held.length % 2 ^ 32 ≠ 2
  | _ => True

/-- The count is that of the references, and no call has dropped or released the last. -/
structure Sound (s : Referenced ι) : Prop where
  refCount : s.refCount = s.held.length % 2 ^ 32
  held : s.held ≠ []
  quiet : ∀ call, call ∈ s.derefs ∨ call ∈ s.returned → call.prevRefcnt ≠ 1 ∧ call.last = false

variable {s s' : Referenced ι} {i j : ι} {call : DerefCall} {e : ReferenceEvent ι}

theorem dec_refCount (h : s.Sound) (hi : i ∈ s.held) :
    noirLockedDec s.refCount = (s.held.erase i).length % 2 ^ 32 := by
  have hlength := List.length_erase_of_mem hi
  have hpos : 0 < s.held.length := List.length_pos_of_mem hi
  unfold noirLockedDec
  rw [h.refCount, hlength]
  split <;> omega

omit [DecidableEq ι] in
theorem Sound.releases (h : s.Sound) : s.releases = 0 := by
  refine List.countP_eq_zero.mpr fun call hcall => ?_
  have hquiet := (h.quiet call (Or.inr hcall)).1
  unfold DerefCall.status
  rw [if_pos hquiet]
  decide

omit [DecidableEq ι] in
theorem Sound.counted (h : s.Sound) : s.Counted where
  status call hcall := by
    obtain ⟨hresult, hlast⟩ := h.quiet call (Or.inr hcall)
    unfold DerefCall.status
    rw [if_pos hresult, hlast]
    decide
  early hreleases := absurd h.releases hreleases
  once := by
    rw [h.releases]
    exact Nat.zero_le 1
  released hheld := absurd hheld h.held

omit [DecidableEq ι] in
theorem Sound.ref (h : s.Sound) : (s.ref j).Sound where
  refCount := by
    unfold Referenced.ref noirLockedInc
    dsimp only
    rw [h.refCount, List.length_cons]
    split <;> omega
  held := List.cons_ne_nil j s.held
  quiet := h.quiet

omit [DecidableEq ι] in
theorem Sound.finish (h : s.Sound) (hcall : call ∈ s.derefs) : (s.finish call).Sound where
  refCount := h.refCount
  held := h.held
  quiet call' hcall' := by
    rcases hcall' with hold | hnew
    · exact h.quiet call' (Or.inl (List.mem_of_mem_erase hold))
    · rcases List.mem_cons.mp hnew with rfl | hold
      · exact h.quiet call' (Or.inl hcall)
      · exact h.quiet call' (Or.inr hold)

/-- A drop that is neither the last nor the one before it leaves the object alone. -/
theorem Sound.drop (h : s.Sound) (hi : i ∈ s.held) (hkept : Kept s (.drop i)) : (s.drop i).Sound := by
  have hlength := List.length_erase_of_mem hi
  have hdec := dec_refCount h hi
  obtain ⟨hlast, hbefore⟩ := hkept
  have hpos : 0 < s.held.length := List.length_pos_of_mem hi
  have hheld : s.held.erase i ≠ [] := List.ne_nil_of_length_pos (by omega)
  refine ⟨hdec, hheld, fun call hcall => ?_⟩
  rcases hcall with hderef | hreturned
  · rcases List.mem_cons.mp hderef with hnew | hold
    · rw [hnew, List.isEmpty_eq_false_iff.mpr hheld]
      refine ⟨?_, rfl⟩
      dsimp only
      omega
    · exact h.quiet call (Or.inl hold)
  · exact h.quiet call (Or.inr hreturned)

theorem Sound.step (h : s.Sound) (hkept : Kept s e) (htakes : s.Takes e s') : s'.Sound := by
  cases e with
  | ref i j =>
      obtain ⟨-, rfl⟩ := htakes
      exact h.ref
  | drop i =>
      obtain ⟨hi, rfl⟩ := htakes
      exact h.drop hi hkept
  | finish call =>
      obtain ⟨hcall, rfl⟩ := htakes
      exact h.finish hcall

omit [DecidableEq ι] in
theorem created_sound : (created i).Sound where
  refCount := rfl
  held := List.cons_ne_nil i []
  quiet _ hcall := by
    rcases hcall with h | h <;> cases h

/-- The call whose decrement comes next, when it has returned. -/
def dropped (s : Referenced ι) (i : ι) : Referenced ι :=
  (s.drop i).finish ⟨noirLockedDec s.refCount, (s.held.erase i).isEmpty⟩

theorem Sound.counted_dropped_iff (h : s.Sound) (hi : i ∈ s.held) :
    (s.dropped i).Counted ↔ Kept s (.drop i) := by
  constructor
  · intro hcounted
    have hstatus := hcounted.status _ (List.mem_cons_self ..)
    have hdec := dec_refCount h hi
    have hlength := List.length_erase_of_mem hi
    have hpos : 0 < s.held.length := List.length_pos_of_mem hi
    unfold DerefCall.status at hstatus
    rw [List.isEmpty_iff_length_eq_zero] at hstatus
    dsimp only at hstatus
    rw [hdec, hlength] at hstatus
    refine ⟨fun hone => ?_, fun htwo => ?_⟩
    · rw [hone, if_pos (by decide)] at hstatus
      exact (nomatch hstatus.mpr rfl)
    · have hsecond : (s.held.length - 1) % 2 ^ 32 = 1 := by omega
      rw [hsecond] at hstatus
      have hempty := hstatus.mp rfl
      omega
  · intro hkept
    exact ((h.drop hi hkept).finish (List.mem_cons_self ..)).counted

end Referenced

/-- In every run whose drops are neither of the last reference nor of the one before it, no object is
released, as it should not be; and the call whose drop comes next does what it should exactly when that
holds of it, too. -/
theorem referenced_counted_iff (ι : Type) [DecidableEq ι] (s : Referenced ι)
    (h : Referenced.Reachable Referenced.Kept s) :
    s.Counted ∧ ∀ i ∈ s.held, ((s.dropped i).Counted ↔ Referenced.Kept s (.drop i)) := by
  have hsound : s.Sound := by
    refine h.invariant ?_ fun s s' _ hs ⟨e, hkept, htakes⟩ => hs.step hkept htakes
    rintro s ⟨i, rfl⟩
    exact Referenced.created_sound
  exact ⟨hsound.counted, fun i hi => hsound.counted_dropped_iff hi⟩

/-- Of three references, one may be dropped. -/
theorem referenced_counted_three :
    (((Referenced.created 0).ref 1).ref 2).Counted ∧
      ∀ i ∈ (((Referenced.created 0).ref 1).ref 2).held,
        (((((Referenced.created 0).ref 1).ref 2).dropped i).Counted ↔
          Referenced.Kept (((Referenced.created 0).ref 1).ref 2) (.drop i)) :=
  referenced_counted_iff Nat _ (.step (.step (.start ⟨0, rfl⟩)
    ⟨.ref 0 1, trivial, List.mem_cons_self .., rfl⟩) ⟨.ref 0 2, trivial, by decide, rfl⟩)

/-- The first of two owners that drops its reference destroys the object under the other. -/
theorem not_forall_counted :
    ¬∀ (ι : Type) [DecidableEq ι] (s : Referenced ι),
      Referenced.Reachable (fun _ _ => True) s → s.Counted := by
  intro h
  have hreached : Referenced.Reachable (fun _ _ => True) (((Referenced.created 0).ref 1).dropped 1) :=
    .step (.step (.step (.start ⟨0, rfl⟩) ⟨.ref 0 1, trivial, List.mem_cons_self .., rfl⟩)
      ⟨.drop 1, trivial, List.mem_cons_self .., rfl⟩)
      ⟨.finish ⟨1, false⟩, trivial, List.mem_cons_self .., rfl⟩
  have hearly := (h Nat _ hreached).early (by decide)
  exact absurd hearly (by decide)

end NoirVisor
