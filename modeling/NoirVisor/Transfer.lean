import Mathlib.Data.List.Basic
import Mathlib.Logic.Function.Basic

/-!
# Transfers of bytes

A copy between memory and a buffer is told by the moves it makes, one byte each and in their order.
The addresses are given by a partial map of the places in the buffer, and the copy that is exact
follows this map up to the first place that has no address.
-/

namespace Transfer

/-- A byte moved between an address and a place of the buffer. -/
structure Move where
  address : Nat
  offset : Nat
deriving DecidableEq

structure Bytes (β : Type) where
  memory : Nat → β
  buffer : Nat → β

section Perform

variable {β : Type}

/-- A move to memory, when `write` is set, or to the buffer. -/
def Move.perform (write : Bool) (bytes : Bytes β) (move : Move) : Bytes β :=
  if write then
    { bytes with memory := Function.update bytes.memory move.address (bytes.buffer move.offset) }
  else
    { bytes with buffer := Function.update bytes.buffer move.offset (bytes.memory move.address) }

def perform (write : Bool) (moves : List Move) (bytes : Bytes β) : Bytes β :=
  moves.foldl (Move.perform write) bytes

/-- A place of the buffer that no move is about stays as it is. -/
theorem perform_buffer {write : Bool} {moves : List Move} {place : Nat} (bytes : Bytes β)
    (h : ∀ move ∈ moves, move.offset ≠ place) :
    (perform write moves bytes).buffer place = bytes.buffer place := by
  induction moves generalizing bytes with
  | nil => rfl
  | cons move moves ih =>
      have hrest := ih (move.perform write bytes) fun m hm => h m (List.mem_cons_of_mem _ hm)
      refine hrest.trans ?_
      unfold Move.perform
      split
      · rfl
      · exact Function.update_of_ne (h move List.mem_cons_self).symm _ _

end Perform

/-- The moves of consecutive bytes, as a string instruction makes them. -/
def run (address offset length : Nat) : List Move :=
  (List.range length).map fun k => ⟨address + k, offset + k⟩

/-- The same moves for a buffer that starts later. -/
def Move.shift (offset : Nat) (move : Move) : Move := { move with offset := offset + move.offset }

@[simp]
theorem length_run (address offset length : Nat) : (run address offset length).length = length := by
  simp [run]

theorem getElem?_run {address offset length k : Nat} (hk : k < length) :
    (run address offset length)[k]? = some ⟨address + k, offset + k⟩ := by
  simp [run, hk]

/-- A copy of `length` bytes that moves those before the first place without an address. -/
structure Exact (target : Nat → Nat → Prop) (offset length n : Nat) (moves : List Move) : Prop where
  le : n ≤ length
  count : moves.length = n
  moved : ∀ k < n, ∃ address, moves[k]? = some ⟨address, offset + k⟩ ∧ target (offset + k) address
  stopped : n < length → ∀ address, ¬target (offset + n) address

namespace Exact

variable {target target' : Nat → Nat → Prop} {address offset length size m n : Nat}
  {moves moves' : List Move}

theorem mapped (h : Exact target offset length n moves) {k : Nat} (hk : k < n) :
    ∃ address, target (offset + k) address := by
  obtain ⟨a, -, ha⟩ := h.moved k hk
  exact ⟨a, ha⟩

/-- Two copies, the first one complete, make one. -/
theorem append (h : Exact target offset m m moves) (h' : Exact target (offset + m) length n moves') :
    Exact target offset (m + length) (m + n) (moves ++ moves') where
  le := Nat.add_le_add_left h'.le m
  count := by rw [List.length_append, h.count, h'.count]
  moved k hk := by
    by_cases hfirst : k < m
    · rw [List.getElem?_append_left (by rw [h.count]; exact hfirst)]
      exact h.moved k hfirst
    · rw [List.getElem?_append_right (by rw [h.count]; exact Nat.le_of_not_lt hfirst), h.count]
      have hsecond := h'.moved (k - m) (by omega)
      rwa [show offset + m + (k - m) = offset + k by omega] at hsecond
  stopped hlt := by
    rw [← Nat.add_assoc]
    exact h'.stopped (by omega)

theorem of_append (hcount : moves.length = m)
    (h : Exact target offset (m + length) (m + n) (moves ++ moves')) :
    Exact target offset m m moves ∧ Exact target (offset + m) length n moves' := by
  have hle := h.le
  have htotal := h.count
  rw [List.length_append, hcount] at htotal
  refine ⟨⟨Nat.le_refl m, hcount, fun k hk => ?_, fun hlt => absurd hlt (Nat.lt_irrefl m)⟩,
    ⟨by omega, by omega, fun k hk => ?_, fun hlt => ?_⟩⟩
  · have hmoved := h.moved k (by omega)
    rwa [List.getElem?_append_left (by rw [hcount]; exact hk)] at hmoved
  · have hmoved := h.moved (m + k) (by omega)
    rwa [List.getElem?_append_right (by omega), hcount, Nat.add_sub_cancel_left,
      ← Nat.add_assoc] at hmoved
  · rw [Nat.add_assoc]
    exact h.stopped (by omega)

/-- What a copy stopped by a missing address would do with more bytes. -/
theorem extend_iff (hlt : n < size) :
    Exact target offset (size + length) n moves ↔ Exact target offset size n moves := by
  constructor
  · intro h
    exact ⟨Nat.le_of_lt hlt, h.count, h.moved, fun _ => h.stopped (by omega)⟩
  · intro h
    exact ⟨by omega, h.count, h.moved, fun _ => h.stopped hlt⟩

/-- A copy of consecutive bytes is exact when their addresses are consecutive. -/
theorem run_iff : Exact target offset size size (run address offset size) ↔
    ∀ k < size, target (offset + k) (address + k) := by
  constructor
  · intro h k hk
    obtain ⟨a, hmove, ha⟩ := h.moved k hk
    rw [getElem?_run hk] at hmove
    have haddress : address + k = a := congrArg Move.address (Option.some.inj hmove)
    rwa [← haddress] at ha
  · intro h
    exact ⟨Nat.le_refl size, length_run _ _ _, fun k hk => ⟨_, getElem?_run hk, h k hk⟩,
      fun hlt => absurd hlt (Nat.lt_irrefl size)⟩

theorem nil_iff (hsize : 0 < size) :
    Exact target offset size 0 [] ↔ ∀ address, ¬target offset address := by
  constructor
  · intro h
    exact h.stopped hsize
  · intro h
    exact ⟨Nat.zero_le size, rfl, fun k hk => absurd hk (Nat.not_lt_zero k), fun _ => h⟩

theorem nil (target : Nat → Nat → Prop) (offset : Nat) : Exact target offset 0 0 [] :=
  ⟨Nat.le_refl 0, rfl, fun k hk => absurd hk (Nat.not_lt_zero k),
    fun hlt => absurd hlt (Nat.lt_irrefl 0)⟩

/-- A copy to a buffer of its own, seen as part of a copy to a larger one. -/
theorem shift (h : Exact (fun k => target (offset + k)) 0 length n moves) :
    Exact target offset length n (moves.map (Move.shift offset)) where
  le := h.le
  count := by rw [List.length_map, h.count]
  moved k hk := by
    obtain ⟨a, hmove, ha⟩ := h.moved k hk
    rw [Nat.zero_add] at hmove ha
    exact ⟨a, by rw [List.getElem?_map, hmove]; rfl, ha⟩
  stopped hlt := by
    have hstopped := h.stopped hlt
    rwa [Nat.zero_add] at hstopped

/-- A copy that is exact for one relation is exact for another just when the two have addresses
alike up to the first place where the second one has none. -/
theorem congr_iff (h : Exact target offset length n moves)
    (hsame : ∀ place a a', target' place a' → target place a → a = a') :
    Exact target' offset length n moves ↔ ∀ k < length,
      (∀ j < k, ∃ a, target' (offset + j) a) →
        ((∃ a, target (offset + k) a) ↔ ∃ a, target' (offset + k) a) := by
  constructor
  · intro h' k hk hbefore
    rcases Nat.lt_trichotomy k n with hlt | rfl | hgt
    · exact iff_of_true (h.mapped hlt) (h'.mapped hlt)
    · exact iff_of_false (fun ⟨a, ha⟩ => h.stopped hk a ha) fun ⟨a, ha⟩ => h'.stopped hk a ha
    · obtain ⟨a, ha⟩ := hbefore n hgt
      exact absurd ha (h'.stopped (by omega) a)
  · intro hagree
    have hmapped : ∀ k ≤ n, ∀ j < k, ∃ a, target' (offset + j) a := by
      intro k hk
      induction k with
      | zero => exact fun j hj => absurd hj (Nat.not_lt_zero j)
      | succ k ih =>
          intro j hj
          rcases Nat.lt_succ_iff_lt_or_eq.mp hj with hlt | rfl
          · exact ih (by omega) j hlt
          · exact (hagree j (Nat.lt_of_lt_of_le hk h.le) (ih (by omega))).mp (h.mapped hk)
    refine ⟨h.le, h.count, fun k hk => ?_, fun hlt a ha => ?_⟩
    · obtain ⟨a, hmove, ha⟩ := h.moved k hk
      obtain ⟨a', ha'⟩ := hmapped n (Nat.le_refl n) k hk
      rw [← hsame _ a a' ha' ha] at ha'
      exact ⟨a, hmove, ha'⟩
    · obtain ⟨b, hb⟩ := (hagree n hlt (hmapped n (Nat.le_refl n))).mpr ⟨a, ha⟩
      exact h.stopped hlt b hb

/-- Past the bytes moved the buffer is as it was. -/
theorem buffer_past {β : Type} {write : Bool} {place : Nat} (h : Exact target offset length n moves)
    (bytes : Bytes β) (hplace : offset + n ≤ place) :
    (perform write moves bytes).buffer place = bytes.buffer place := by
  refine perform_buffer bytes fun move hmove => ?_
  obtain ⟨k, hk⟩ := List.mem_iff_getElem?.mp hmove
  have hlt : k < n := by
    rw [← h.count]
    exact (List.getElem?_eq_some_iff.mp hk).1
  obtain ⟨a, hmove', -⟩ := h.moved k hlt
  rw [hmove'] at hk
  obtain rfl := Option.some.inj hk
  change offset + k ≠ place
  omega

end Exact

end Transfer
