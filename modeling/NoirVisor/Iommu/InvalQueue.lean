import NoirVisor.BitField
import NoirVisor.Platform
import NoirVisor.Transition
import Mathlib.Logic.Function.Iterate

/-!
# The invalidation queue

Descriptors are put into a queue of one page, whose tail is a register that the driver advances and
whose head is one that the hardware advances (`vt_core/vt_iommu.c`). The driver wraps the tail when it
takes the next slot, and not when it leaves the last one.
-/

namespace NoirVisor

structure InvalDescriptor where
  lo : Nat
  hi : Nat
deriving DecidableEq

/-- The fields that are assigned to a word that was cleared, with their offsets and widths. -/
def invalWord (fields : List (Nat × Nat × Nat)) : Nat :=
  fields.foldl (fun word field => BitField.set word field.1 field.2.1 field.2.2) 0

namespace InvalDescriptor

def contextCache (granularity domainId sourceId functionMask : Nat) : InvalDescriptor where
  lo := invalWord [(0, 4, 1), (4, 2, granularity), (16, 16, domainId), (32, 16, sourceId),
    (48, 2, functionMask)]
  hi := 0

def iotlb (granularity : Nat) (drainWrite drainRead : Bool) (domainId addressMask : Nat)
    (invalHint : Bool) (address : Nat) : InvalDescriptor where
  lo := invalWord [(0, 4, 2), (4, 2, granularity), (6, 1, drainWrite.toNat), (7, 1, drainRead.toNat),
    (16, 16, domainId)]
  hi := invalWord [(0, 6, addressMask), (6, 1, invalHint.toNat), (12, 52, page4kbCount address)]

def deviceTlb (pfsid mip sourceId : Nat) (size : Bool) (address : Nat) : InvalDescriptor where
  lo := invalWord [(0, 4, 3), (12, 4, BitField.get pfsid 0 4), (52, 12, pfsid / 2 ^ 4), (16, 5, mip),
    (32, 16, sourceId)]
  hi := invalWord [(0, 1, size.toNat), (12, 52, page4kbCount address)]

def intentryCache (granularity : Bool) (indexMask interruptIndex : Nat) : InvalDescriptor where
  lo := invalWord [(0, 4, 4), (4, 1, granularity.toNat), (27, 5, indexMask), (32, 16, interruptIndex)]
  hi := 0

def invalWait (interrupt writeStatus fence drainPagereq : Bool) (statusData statusAddress : Nat) :
    InvalDescriptor where
  lo := invalWord [(0, 4, 5), (4, 1, interrupt.toNat), (5, 1, writeStatus.toNat), (6, 1, fence.toNat),
    (7, 1, drainPagereq.toNat), (32, 32, statusData)]
  hi := invalWord [(2, 62, statusAddress / 2 ^ 2)]

end InvalDescriptor

/-- The page of the queue by offsets, the two registers, and the tail that a wait goes on for. What was
enqueued and consumed so far is kept for the statements. -/
structure InvalQueue where
  slots : Nat → InvalDescriptor
  head : Nat := 0
  tail : Nat := 0
  waiting : Option Nat := none
  enqueued : List InvalDescriptor := []
  consumed : List InvalDescriptor := []

inductive InvalCall
  | contextCache (granularity domainId sourceId functionMask : Nat)
  | iotlb (granularity : Nat) (drainWrite drainRead : Bool) (domainId addressMask : Nat)
      (invalHint : Bool) (address : Nat)
  | deviceTlb (pfsid mip sourceId : Nat) (size : Bool) (address : Nat)
  | intentryCache (granularity : Bool) (indexMask interruptIndex : Nat)
  | wait (interrupt writeStatus fence drainPagereq : Bool) (statusData statusAddress : Nat)

/-- A call of the driver, a look at the head by a wait that is going on, or a descriptor that the
hardware consumes. -/
inductive InvalEvent
  | call (c : InvalCall)
  | poll
  | consume

namespace InvalQueue

/-- A descriptor has 128 bits. -/
def descriptorSize : Nat := 16

variable (q : InvalQueue)

/-- `tail.tail++`. -/
def tailNext (tail : Nat) : Nat := BitField.set tail 4 15 (BitField.get tail 4 15 + 1)

/-- What the five functions do with their descriptors. -/
def enqueue (invalD : InvalDescriptor) : InvalQueue :=
  let tail := if q.tail = page4kbSize then 0 else q.tail
  { q with
    slots := Function.update q.slots tail invalD
    tail := tailNext tail
    enqueued := q.enqueued ++ [invalD] }

def nvcVtIommuEnqueueContextCacheInvalidation (granularity domainId sourceId functionMask : Nat) :
    InvalQueue :=
  q.enqueue (.contextCache granularity domainId sourceId functionMask)

def nvcVtIommuEnqueueIotlbInvalidation (granularity : Nat) (drainWrite drainRead : Bool)
    (domainId addressMask : Nat) (invalHint : Bool) (address : Nat) : InvalQueue :=
  q.enqueue (.iotlb granularity drainWrite drainRead domainId addressMask invalHint address)

def nvcVtIommuEnqueueDeviceTlbInvalidation (pfsid mip sourceId : Nat) (size : Bool) (address : Nat) :
    InvalQueue :=
  q.enqueue (.deviceTlb pfsid mip sourceId size address)

def nvcVtIommuEnqueueIntentryCacheInvalidation (granularity : Bool) (indexMask interruptIndex : Nat) :
    InvalQueue :=
  q.enqueue (.intentryCache granularity indexMask interruptIndex)

/-- The wait up to its loop. -/
def nvcVtIommuWaitInvalidationQueue (interrupt writeStatus fence drainPagereq : Bool)
    (statusData statusAddress : Nat) : InvalQueue :=
  let q := q.enqueue (.invalWait interrupt writeStatus fence drainPagereq statusData statusAddress)
  { q with waiting := some q.tail }

/-- One round of the loop, which compares the fields of the two registers. -/
def poll : InvalQueue :=
  match q.waiting with
  | none => q
  | some tail => if BitField.get q.head 4 15 ≠ BitField.get tail 4 15 then q else { q with waiting := none }

/-- The hardware consumes up to the tail, and wraps the head at the size of the queue. -/
def consume : InvalQueue :=
  if q.head = q.tail then q
  else
    { q with
      head := (q.head + descriptorSize) % page4kbSize
      consumed := q.consumed ++ [q.slots q.head] }

def issue : InvalCall → InvalQueue
  | .contextCache granularity domainId sourceId functionMask =>
    q.nvcVtIommuEnqueueContextCacheInvalidation granularity domainId sourceId functionMask
  | .iotlb granularity drainWrite drainRead domainId addressMask invalHint address =>
    q.nvcVtIommuEnqueueIotlbInvalidation granularity drainWrite drainRead domainId addressMask
      invalHint address
  | .deviceTlb pfsid mip sourceId size address =>
    q.nvcVtIommuEnqueueDeviceTlbInvalidation pfsid mip sourceId size address
  | .intentryCache granularity indexMask interruptIndex =>
    q.nvcVtIommuEnqueueIntentryCacheInvalidation granularity indexMask interruptIndex
  | .wait interrupt writeStatus fence drainPagereq statusData statusAddress =>
    q.nvcVtIommuWaitInvalidationQueue interrupt writeStatus fence drainPagereq statusData statusAddress

/-- The driver calls nothing else while it waits. -/
def next : InvalEvent → InvalQueue
  | .call c => if q.waiting.isSome then q else q.issue c
  | .poll => q.poll
  | .consume => q.consume

/-- The descriptors from the head up to the tail. -/
def pending : List InvalDescriptor :=
  (List.range ((q.tail + page4kbSize - q.head) % page4kbSize / descriptorSize)).map
    fun i => q.slots ((q.head + descriptorSize * i) % page4kbSize)

/-- The tail lies in the page, and what is between the registers is what was enqueued and not consumed,
in order. A wait ends when its descriptor, which is the last one, was consumed and not before, and the
hardware gets there. -/
structure Sound : Prop where
  tail_lt : q.tail < page4kbSize
  consumed_append_pending : q.consumed ++ q.pending = q.enqueued
  poll_iff : q.waiting.isSome → (q.poll.waiting = none ↔ q.consumed.length = q.enqueued.length)
  drains : ∃ n, (consume^[n] q).consumed = q.enqueued ∧ (consume^[n] q).poll.waiting = none

/-- The descriptor is not put into the last slot of the page. -/
def Unwrapped : InvalEvent → Prop
  | .call _ => q.waiting = none → q.tail ≠ page4kbSize - descriptorSize
  | _ => True

def start (slots : Nat → InvalDescriptor) : InvalQueue := { slots }

/-- What holds as long as no descriptor was put into the last slot. -/
structure Straight : Prop where
  length_lt : q.enqueued.length < page4kbSize / descriptorSize
  tail_eq : q.tail = descriptorSize * q.enqueued.length
  head_eq : q.head = descriptorSize * q.consumed.length
  ordered : q.consumed <+: q.enqueued
  slots_eq : ∀ i (hi : i < q.enqueued.length), q.slots (descriptorSize * i) = q.enqueued[i]
  waiting_eq : ∀ tail, q.waiting = some tail → tail = q.tail

variable {q} {invalD : InvalDescriptor} {n : Nat}

theorem get_mul (hn : n < 2 ^ 15) : BitField.get (descriptorSize * n) 4 15 = n := by
  unfold BitField.get descriptorSize
  omega

theorem tailNext_mul (hn : n < 256) : tailNext (descriptorSize * n) = descriptorSize * (n + 1) := by
  unfold tailNext BitField.set
  rw [get_mul (by omega)]
  unfold descriptorSize
  omega

theorem issue_eq (c : InvalCall) : ∃ invalD, q.issue c = q.enqueue invalD ∨
    q.issue c = { q.enqueue invalD with waiting := some (q.enqueue invalD).tail } := by
  cases c with
  | wait => exact ⟨_, .inr rfl⟩
  | _ => exact ⟨_, .inl rfl⟩

namespace Straight

theorem start (slots : Nat → InvalDescriptor) : (InvalQueue.start slots).Straight where
  length_lt := Nat.zero_lt_succ 255
  tail_eq := rfl
  head_eq := rfl
  ordered := List.nil_prefix
  slots_eq := nofun
  waiting_eq := nofun

theorem pending_eq (h : q.Straight) : q.pending = q.enqueued.drop q.consumed.length := by
  have hle := h.ordered.length_le
  have hlt := h.length_lt
  have hcount : (q.tail + page4kbSize - q.head) % page4kbSize / descriptorSize =
      q.enqueued.length - q.consumed.length := by
    rw [h.tail_eq, h.head_eq]
    unfold descriptorSize page4kbSize at *
    omega
  unfold pending
  rw [hcount]
  apply List.ext_getElem
  · simp
  · intro i hi hi'
    rw [List.length_map, List.length_range] at hi
    have hoffset : (q.head + descriptorSize * i) % page4kbSize =
        descriptorSize * (q.consumed.length + i) := by
      rw [h.head_eq]
      unfold descriptorSize page4kbSize at *
      omega
    rw [List.getElem_map, List.getElem_range, hoffset, h.slots_eq _ (by omega), List.getElem_drop]

theorem consume_eq (h : q.Straight) (hleft : q.consumed.length < q.enqueued.length) :
    q.consume = { q with
      head := descriptorSize * (q.consumed.length + 1)
      consumed := q.consumed ++ [q.enqueued[q.consumed.length]] } := by
  have hlt := h.length_lt
  have hne : q.head ≠ q.tail := by
    rw [h.head_eq, h.tail_eq]
    unfold descriptorSize
    omega
  have hnext : (q.head + descriptorSize) % page4kbSize =
      descriptorSize * (q.consumed.length + 1) := by
    rw [h.head_eq]
    unfold descriptorSize page4kbSize at *
    omega
  have hslot : q.slots q.head = q.enqueued[q.consumed.length] := by
    rw [h.head_eq, h.slots_eq _ hleft]
  rw [consume, if_neg hne, hnext, hslot]

theorem consume_of_eq (h : q.Straight) (hall : q.consumed.length = q.enqueued.length) :
    q.consume = q := by
  rw [consume, if_pos (by rw [h.head_eq, h.tail_eq, hall])]

theorem consume (h : q.Straight) : q.consume.Straight := by
  by_cases hleft : q.consumed.length < q.enqueued.length
  · rw [h.consume_eq hleft]
    constructor
    · exact h.length_lt
    · exact h.tail_eq
    · simp
    · rw [List.prefix_iff_eq_take, List.length_append, List.length_singleton,
        List.take_succ_eq_append_getElem hleft, ← List.prefix_iff_eq_take.mp h.ordered]
    · exact h.slots_eq
    · exact h.waiting_eq
  · rw [h.consume_of_eq (Nat.le_antisymm h.ordered.length_le (by omega))]
    exact h

theorem enqueue (h : q.Straight) (hroom : q.tail ≠ page4kbSize - descriptorSize) :
    (q.enqueue invalD).tail = descriptorSize * (q.enqueued.length + 1) ∧
      (q.waiting = none → (q.enqueue invalD).Straight) := by
  have hlt := h.length_lt
  have htail := h.tail_eq
  have hne : q.tail ≠ page4kbSize := by
    unfold descriptorSize page4kbSize at *
    omega
  have hnext : (q.enqueue invalD).tail = descriptorSize * (q.enqueued.length + 1) := by
    simp only [InvalQueue.enqueue]
    rw [if_neg hne, htail, tailNext_mul (by unfold descriptorSize page4kbSize at *; omega)]
  refine ⟨hnext, fun hidle => ⟨?_, ?_, h.head_eq, ?_, ?_, ?_⟩⟩
  · simp only [InvalQueue.enqueue, List.length_append, List.length_singleton]
    unfold descriptorSize page4kbSize at *
    omega
  · rw [hnext]
    simp [InvalQueue.enqueue]
  · exact h.ordered.trans (List.prefix_append _ _)
  · intro i hi
    simp only [InvalQueue.enqueue, List.length_append, List.length_singleton] at hi ⊢
    rw [if_neg hne, htail]
    by_cases hlast : i = q.enqueued.length
    · subst hlast
      rw [Function.update_self, List.getElem_concat_length rfl]
    · rw [Function.update_of_ne (by unfold descriptorSize; omega), h.slots_eq i (by omega),
        List.getElem_append_left]
  · intro tail hwaiting
    exact absurd (hwaiting.symm.trans hidle) nofun

theorem issue (h : q.Straight) (hidle : q.waiting = none)
    (hroom : q.tail ≠ page4kbSize - descriptorSize) (c : InvalCall) : (q.issue c).Straight := by
  obtain ⟨invalD, heq | heq⟩ := issue_eq (q := q) c
  · rw [heq]
    exact (h.enqueue hroom).2 hidle
  · have hnext : (q.enqueue invalD).Straight := (h.enqueue hroom).2 hidle
    rw [heq]
    exact ⟨hnext.length_lt, hnext.tail_eq, hnext.head_eq, hnext.ordered, hnext.slots_eq,
      fun tail hwaiting => (Option.some.inj hwaiting).symm⟩

theorem poll_waiting (h : q.Straight) (hwaiting : q.waiting.isSome) :
    q.poll.waiting = none ↔ q.consumed.length = q.enqueued.length := by
  have hlt := h.length_lt
  have hle := h.ordered.length_le
  obtain ⟨tail, htail⟩ := Option.isSome_iff_exists.mp hwaiting
  have hhead : BitField.get q.head 4 15 = q.consumed.length := by
    rw [h.head_eq, get_mul (by unfold descriptorSize page4kbSize at *; omega)]
  have hlast : BitField.get tail 4 15 = q.enqueued.length := by
    rw [h.waiting_eq tail htail, h.tail_eq,
      get_mul (by unfold descriptorSize page4kbSize at *; omega)]
  simp only [InvalQueue.poll, htail, hhead, hlast]
  by_cases hall : q.consumed.length = q.enqueued.length
  · rw [if_neg (not_not_intro hall)]
    exact iff_of_true rfl hall
  · rw [if_pos hall]
    exact iff_of_false (by rw [htail]; exact nofun) hall

theorem poll (h : q.Straight) : q.poll.Straight := by
  unfold InvalQueue.poll
  cases hwaiting : q.waiting with
  | none => exact h
  | some tail =>
      dsimp only
      by_cases hpassed : BitField.get q.head 4 15 = BitField.get tail 4 15
      · rw [if_neg (not_not_intro hpassed)]
        exact ⟨h.length_lt, h.tail_eq, h.head_eq, h.ordered, h.slots_eq, nofun⟩
      · rw [if_pos hpassed]
        exact h

theorem next (h : q.Straight) (e : InvalEvent) (hroom : q.Unwrapped e) : (q.next e).Straight := by
  cases e with
  | poll => exact h.poll
  | consume => exact h.consume
  | call c =>
      simp only [InvalQueue.next]
      cases hwaiting : q.waiting with
      | none => exact h.issue hwaiting (hroom hwaiting) c
      | some _ => exact h

/-- The hardware gets to the tail, and stays there. -/
theorem drains (h : q.Straight) (n : Nat) (hleft : q.enqueued.length - q.consumed.length = n) :
    (InvalQueue.consume^[n] q).consumed = q.enqueued ∧
      (InvalQueue.consume^[n] q).poll.waiting = none := by
  induction n generalizing q with
  | zero =>
      have hall : q.consumed.length = q.enqueued.length :=
        Nat.le_antisymm h.ordered.length_le (Nat.le_of_sub_eq_zero hleft)
      refine ⟨h.ordered.eq_of_length hall, ?_⟩
      cases hwaiting : q.waiting with
      | none => simp [InvalQueue.poll, hwaiting]
      | some tail => exact (h.poll_waiting (by rw [hwaiting]; rfl)).mpr hall
  | succ n ih =>
      have hstep := h.consume_eq (by omega)
      have hlength : q.consume.enqueued.length - q.consume.consumed.length = n := by
        rw [hstep]
        simp only [List.length_append, List.length_singleton]
        omega
      have hrest := ih h.consume hlength
      rw [Function.iterate_succ_apply]
      rwa [show q.consume.enqueued = q.enqueued by rw [hstep]] at hrest

theorem sound (h : q.Straight) : q.Sound where
  tail_lt := by
    have hlt := h.length_lt
    rw [h.tail_eq]
    unfold descriptorSize page4kbSize at *
    omega
  consumed_append_pending := by
    obtain ⟨rest, hrest⟩ := h.ordered
    rw [h.pending_eq, ← hrest, List.drop_left]
  poll_iff := h.poll_waiting
  drains := ⟨_, h.drains _ rfl⟩

end Straight

/-- The tail is left behind the page by a descriptor in the last slot. -/
theorem not_sound_of_wrapped {e : InvalEvent} (hwrapped : ¬q.Unwrapped e) : ¬(q.next e).Sound := by
  intro hsound
  cases e with
  | poll => exact hwrapped trivial
  | consume => exact hwrapped trivial
  | call c =>
      obtain ⟨hidle, hlast⟩ := Classical.not_imp.mp hwrapped
      rw [not_not] at hlast
      have htail : (q.next (.call c)).tail = page4kbSize := by
        obtain ⟨invalD, heq | heq⟩ := issue_eq (q := q) c <;>
          simp [InvalQueue.next, hidle, heq, InvalQueue.enqueue, hlast] <;> decide
      exact absurd hsound.tail_lt (by omega)

/-- As many calls as the page has slots reach the last one. -/
theorem not_along_replicate (h : q.Straight) (hidle : q.waiting = none)
    (hn : page4kbSize / descriptorSize ≤ q.enqueued.length + n) :
    ¬Transition.Along Unwrapped next q (List.replicate n (.call (.contextCache 1 0 0 0))) := by
  induction n generalizing q with
  | zero => exact absurd h.length_lt (by omega)
  | succ n ih =>
      rintro ⟨hroom, hrest⟩
      have hstep : q.next (.call (.contextCache 1 0 0 0)) = q.enqueue (.contextCache 1 0 0 0) := by
        simp [next, hidle, issue, nvcVtIommuEnqueueContextCacheInvalidation]
      rw [hstep] at hrest
      refine ih ((h.enqueue (hroom hidle)).2 hidle) hidle ?_ hrest
      simp only [enqueue, List.length_append, List.length_singleton]
      omega

end InvalQueue

end NoirVisor
