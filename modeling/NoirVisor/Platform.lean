import NoirVisor.Sizes
import NoirVisor.Strings
import Mathlib.Data.BitVec
import Mathlib.Data.Nat.Basic

/-!
# What the code runs on

The integers and pointers of the source, and the memory manager of the host. A pointer the source
follows without having checked it, or past the end of an array, is a fault here and ends the run.
-/

namespace NoirVisor

inductive Fault where
  | nullDereference
  | useAfterFree
  | outOfBounds
  /-- A loop over a list that grows as it runs has fuel in the model. -/
  | outOfFuel
deriving DecidableEq, Repr

abbrev Outcome := Except Fault

/-- A string literal. -/
def ascii (s : List Char) : List (BitVec 8) := s.map fun c => BitVec.ofNat 8 c.toNat

/-- `strcmp`, from the characters of the first string. -/
def strcmp (s : List (BitVec 8)) (t : Nat → BitVec 8) : Ordering :=
  Strings.compareUpTo BitVec.toNat (s.length + 1) (Strings.ofList s) t

theorem strcmp_eq_iff {s : List (BitVec 8)} {t : Nat → BitVec 8} {order : Ordering} :
    strcmp s t = order ↔ Strings.Compares BitVec.toNat (Strings.ofList s) t order := by
  have hcompares : Strings.Compares BitVec.toNat (Strings.ofList s) t (strcmp s t) :=
    Strings.compareUpTo_compares (fun _ _ => BitVec.eq_of_toNat_eq) (Strings.ofList_length s)
      (Nat.lt_succ_self _)
  constructor
  · rintro rfl
    exact hcompares
  · exact hcompares.unique

inductive NoirStatus where
  | success
  | unsuccessful
  | insufficientResources
  | notImplemented
  | invalidParameter
  | bufferTooSmall
  | unknownProcessor
  | hypervisionAbsent
  | nsvViolation
  | alreadyRescinded
  | dereferenceDestroying
  | vcpuAlreadyCreated
  | guestPageAbsent
deriving DecidableEq, Repr

/-- A pointer to a structure from the nonpaged pool. `freed` is one whose target the source has
released and still holds on to. -/
inductive Pointer (α : Type) where
  | null
  | freed
  | valid (target : α)
deriving DecidableEq, Repr

namespace Pointer

variable {α : Type}

def deref : Pointer α → Outcome α
  | null => .error .nullDereference
  | freed => .error .useAfterFree
  | valid target => .ok target

def isNull : Pointer α → Bool
  | null => true
  | _ => false

def ofOption : Option α → Pointer α
  | none => null
  | some target => valid target

theorem deref_eq_ok {p : Pointer α} {target : α} : p.deref = .ok target ↔ p = valid target := by
  cases p <;> simp [deref]

end Pointer

/-! Runs that return: the steps of a sequence and of a loop have returned. -/

section Runs

variable {α β σ : Type}

theorem Outcome.ok_bind (a : α) (f : α → Outcome β) : (Except.ok a >>= f) = f a := rfl

theorem bind_eq_ok {x : Outcome α} {f : α → Outcome β} {b : β} :
    (x >>= f) = .ok b ↔ ∃ a, x = .ok a ∧ f a = .ok b := by
  cases x with
  | error fault => simp [bind, Except.bind]
  | ok a => simp [bind, Except.bind]

theorem foldlM_invariant {step : σ → α → Outcome σ} {P : σ → Prop} {xs : List α}
    (hstep : ∀ s x s', x ∈ xs → P s → step s x = .ok s' → P s') {s s' : σ} (hs : P s)
    (h : xs.foldlM step s = .ok s') : P s' := by
  induction xs generalizing s with
  | nil => exact Except.ok.inj h ▸ hs
  | cons x xs ih =>
      rw [List.foldlM_cons] at h
      obtain ⟨s₁, hfirst, hrest⟩ := bind_eq_ok.mp h
      exact ih (fun s x s' hx => hstep s x s' (List.mem_cons_of_mem _ hx))
        (hstep s x s₁ List.mem_cons_self hs hfirst) hrest

/-- A loop whose steps return, and what holds of its state after each of them. -/
theorem foldlM_prefix {step : σ → α → Outcome σ} {P : List α → σ → Prop} {xs : List α}
    (hstep : ∀ done x left s, xs = done ++ x :: left → P done s →
      ∃ s', step s x = .ok s' ∧ P (done ++ [x]) s') {s : σ} (hs : P [] s) :
    ∃ s', xs.foldlM step s = .ok s' ∧ P xs s' := by
  have hrest : ∀ left done s, xs = done ++ left → P done s →
      ∃ s', left.foldlM step s = .ok s' ∧ P xs s' := by
    intro left
    induction left with
    | nil =>
        intro done s hxs hdone
        rw [List.append_nil] at hxs
        exact ⟨s, rfl, hxs ▸ hdone⟩
    | cons x left ih =>
        intro done s hxs hdone
        obtain ⟨s₁, hrun, hnext⟩ := hstep done x left s hxs hdone
        rw [List.foldlM_cons, hrun, Outcome.ok_bind]
        exact ih (done ++ [x]) s₁ (by rw [hxs, List.append_assoc]; rfl) hnext
  exact hrest xs [] s rfl hs

theorem mapM_of_ok {f : α → Outcome β} {g : α → β} {xs : List α}
    (h : ∀ x ∈ xs, f x = .ok (g x)) : xs.mapM f = .ok (xs.map g) := by
  induction xs with
  | nil => rfl
  | cons x xs ih =>
      rw [List.mapM_cons, h x List.mem_cons_self, Outcome.ok_bind,
        ih fun x hx => h x (List.mem_cons_of_mem _ hx)]
      rfl

theorem eq_map_of_mapM {f : α → Outcome β} {g : α → β} {xs : List α} {ys : List β}
    (hf : ∀ x y, f x = .ok y → y = g x) (h : xs.mapM f = .ok ys) : ys = xs.map g := by
  induction xs generalizing ys with
  | nil => exact (Except.ok.inj h).symm
  | cons x xs ih =>
      rw [List.mapM_cons] at h
      obtain ⟨y, hfirst, h⟩ := bind_eq_ok.mp h
      obtain ⟨ys', hrest, h⟩ := bind_eq_ok.mp h
      obtain rfl := Except.ok.inj h
      rw [hf x y hfirst, ih hrest, List.map_cons]

/-- A run that does not run out of fuel, and what holds of its result if it has one. -/
def Ends (x : Outcome α) (Q : α → Prop) : Prop :=
  x ≠ .error .outOfFuel ∧ ∀ a, x = .ok a → Q a

variable {x : Outcome α} {f : α → Outcome β} {P P' : α → Prop} {Q : β → Prop}

theorem ends_pure {a : α} (h : P a) : Ends (pure a) P := by
  refine ⟨fun h => (nomatch h), fun a' ha' => ?_⟩
  obtain rfl := Except.ok.inj ha'
  exact h

theorem Ends.mono (hx : Ends x P) (h : ∀ a, P a → P' a) : Ends x P' :=
  ⟨hx.1, fun a ha => h a (hx.2 a ha)⟩

theorem Ends.bind (hx : Ends x P) (hf : ∀ a, P a → Ends (f a) Q) : Ends (x >>= f) Q := by
  cases x with
  | error fault =>
      refine ⟨fun h => hx.1 ?_, fun b h => (nomatch h)⟩
      exact congrArg _ (Except.error.inj h)
  | ok a => exact hf a (hx.2 a rfl)

theorem ends_deref (p : Pointer α) : Ends p.deref fun target => p = .valid target := by
  cases p with
  | null => exact ⟨fun h => (nomatch h), fun _ h => (nomatch h)⟩
  | freed => exact ⟨fun h => (nomatch h), fun _ h => (nomatch h)⟩
  | valid target => exact ends_pure rfl

end Runs

/-! Page arithmetic. -/

def page4kbCount (x : Nat) : Nat := x / 0x1000
def page2mbCount (x : Nat) : Nat := x / 0x200000
def page1gbCount (x : Nat) : Nat := x / 0x40000000
def page512gbCount (x : Nat) : Nat := x / 0x8000000000

def page4kbMult (x : Nat) : Nat := x * 0x1000
def page2mbMult (x : Nat) : Nat := x * 0x200000
def page1gbMult (x : Nat) : Nat := x * 0x40000000

def page4kbOffset (x : Nat) : Nat := x % 0x1000
def page2mbOffset (x : Nat) : Nat := x % 0x200000
def page1gbOffset (x : Nat) : Nat := x % 0x40000000

def page2mbBase (x : Nat) : Nat := x / 0x200000 * 0x200000
def page1gbBase (x : Nat) : Nat := x / 0x40000000 * 0x40000000
def page512gbBase (x : Nat) : Nat := x / 0x8000000000 * 0x8000000000

def page4kbSize : Nat := 0x1000
def page2mbSize : Nat := 0x200000
def page1gbSize : Nat := 0x40000000
def page512gbSize : Nat := 0x8000000000

def pageEntryIndex64 (x : Nat) : Nat := x % 512

theorem page4kbCount_page4kbMult (frame : Nat) : page4kbCount (page4kbMult frame) = frame := by
  simp [page4kbCount, page4kbMult]

/-- The answers of the memory manager, in the order it will give them: whether the nonpaged pool has
room, and the frame of each page it hands out, if any. Both kinds of memory come zeroed. -/
structure Allocator where
  nonpg : Nat → Bool
  contd : Nat → Option Nat

namespace Allocator

def noirAllocNonpgMemory (memory : Allocator) : Bool × Allocator :=
  (memory.nonpg 0, { memory with nonpg := fun k => memory.nonpg (k + 1) })

def noirAllocContdMemory (memory : Allocator) : Option Nat × Allocator :=
  (memory.contd 0, { memory with contd := fun k => memory.contd (k + 1) })

/-- The answers left when the next of either kind is taken. -/
def next (memory : Allocator) : Allocator where
  nonpg k := memory.nonpg (k + 1)
  contd k := memory.contd (k + 1)

/-- The descriptor of a table and its page. The descriptor is released when there is no page. -/
def allocTable (memory : Allocator) : Option Nat × Allocator :=
  match memory.noirAllocNonpgMemory with
  | (false, memory) => (none, memory)
  | (true, memory) => memory.noirAllocContdMemory

/-- The pages to come are distinct, not in use already, and physical addresses of the processor. -/
structure Fresh (memory : Allocator) (used : Nat → Prop) : Prop where
  distinct : ∀ j k frame, memory.contd j = some frame → memory.contd k = some frame → j = k
  unused : ∀ k frame, memory.contd k = some frame → ¬used frame
  inRange : ∀ k frame, memory.contd k = some frame → frame < 2 ^ 40

/-- The memory manager with a pool that never runs out and these pages left. -/
def ofFrames (frames : List Nat) : Allocator where
  nonpg _ := true
  contd k := frames[k]?

/-- The next `n` allocations of either kind succeed. -/
def Generous (memory : Allocator) (n : Nat) : Prop :=
  ∀ k < n, memory.nonpg k = true ∧ memory.contd k ≠ none

variable {memory : Allocator} {used used' : Nat → Prop}

theorem Fresh.nonpg (hfresh : memory.Fresh used) : memory.noirAllocNonpgMemory.2.Fresh used :=
  ⟨hfresh.distinct, hfresh.unused, hfresh.inRange⟩

theorem Fresh.contd_of_none (hfresh : memory.Fresh used) :
    memory.noirAllocContdMemory.2.Fresh used where
  distinct j k frame hj hk := by
    have := hfresh.distinct (j + 1) (k + 1) frame hj hk
    omega
  unused k frame hk := hfresh.unused (k + 1) frame hk
  inRange k frame hk := hfresh.inRange (k + 1) frame hk

/-- The page just handed out is in use from now on. -/
theorem Fresh.contd_of_some {frame : Nat} (hfresh : memory.Fresh used)
    (hframe : memory.noirAllocContdMemory.1 = some frame)
    (hused : ∀ f, used' f → used f ∨ f = frame) :
    memory.noirAllocContdMemory.2.Fresh used' where
  distinct := hfresh.contd_of_none.distinct
  unused k f hk huse := by
    rcases hused f huse with hold | rfl
    · exact hfresh.contd_of_none.unused k f hk hold
    · have := hfresh.distinct 0 (k + 1) f hframe hk
      omega
  inRange := hfresh.contd_of_none.inRange

theorem Fresh.of_allocTable {memory' : Allocator} {frame : Nat} (hfresh : memory.Fresh used)
    (halloc : memory.allocTable = (some frame, memory'))
    (hused : ∀ f, used' f → used f ∨ f = frame) :
    ¬used frame ∧ frame < 2 ^ 40 ∧ memory'.Fresh used' := by
  unfold allocTable at halloc
  split at halloc
  · cases halloc
  · rename_i memory₁ hnonpg
    have hfresh₁ : memory₁.Fresh used := by
      have := hfresh.nonpg
      rwa [hnonpg] at this
    obtain ⟨hframe, hrest⟩ := Prod.mk.inj halloc
    exact ⟨hfresh₁.unused 0 frame hframe, hfresh₁.inRange 0 frame hframe,
      hrest ▸ hfresh₁.contd_of_some hframe hused⟩

theorem Fresh.of_allocTable_none {memory' : Allocator} (hfresh : memory.Fresh used)
    (halloc : memory.allocTable = (none, memory')) : memory'.Fresh used := by
  unfold allocTable at halloc
  split at halloc
  · rename_i memory₁ hnonpg
    obtain rfl := (Prod.mk.inj halloc).2
    have := hfresh.nonpg
    rwa [hnonpg] at this
  · rename_i memory₁ hnonpg
    have hfresh₁ : memory₁.Fresh used := by
      have := hfresh.nonpg
      rwa [hnonpg] at this
    exact (Prod.mk.inj halloc).2 ▸ hfresh₁.contd_of_none

theorem Generous.of_allocTable {n : Nat} {answer : Option Nat} {memory' : Allocator}
    (hgenerous : memory.Generous (n + 1)) (halloc : memory.allocTable = (answer, memory')) :
    answer ≠ none ∧ memory'.Generous n := by
  obtain ⟨hnonpg, hcontd⟩ := hgenerous 0 (by omega)
  simp only [allocTable, noirAllocNonpgMemory, noirAllocContdMemory, hnonpg, Prod.mk.injEq] at halloc
  obtain ⟨rfl, rfl⟩ := halloc
  exact ⟨hcontd, fun k hk => hgenerous (k + 1) (by omega)⟩

theorem Fresh.mono (hfresh : memory.Fresh used) (hused : ∀ f, used' f → used f) :
    memory.Fresh used' :=
  ⟨hfresh.distinct, fun k frame hk huse => hfresh.unused k frame hk (hused _ huse),
    hfresh.inRange⟩

theorem generous_ofFrames {frames : List Nat} {n : Nat} (hlength : n ≤ frames.length) :
    (ofFrames frames).Generous n := by
  intro k hk
  refine ⟨rfl, ?_⟩
  simp [ofFrames]
  omega

theorem fresh_ofFrames {frames : List Nat} (hdistinct : frames.Nodup)
    (hframes : ∀ frame ∈ frames, ¬used frame ∧ frame < 2 ^ 40) :
    (ofFrames frames).Fresh used where
  distinct j k frame hj hk := by
    obtain ⟨hlt, -⟩ := List.getElem?_eq_some_iff.mp hj
    exact (List.getElem?_inj hlt hdistinct).mp (hj.trans hk.symm)
  unused k frame hk := (hframes frame (List.mem_of_getElem? hk)).1
  inRange k frame hk := (hframes frame (List.mem_of_getElem? hk)).2

theorem fresh_nil : (ofFrames []).Fresh used :=
  fresh_ofFrames .nil fun _ hmem => by cases hmem

end Allocator

theorem mem_of_lookup {α : Type} {table : List (Nat × α)} {index : Nat} {a : α}
    (h : table.lookup index = some a) : (index, a) ∈ table := by
  induction table with
  | nil => cases h
  | cons entry table ih =>
      rw [List.lookup_cons] at h
      split at h
      · next heq =>
          cases h
          exact List.mem_cons.mpr (.inl (Prod.ext (beq_iff_eq.mp heq) rfl))
      · exact List.mem_cons_of_mem _ (ih h)

end NoirVisor
