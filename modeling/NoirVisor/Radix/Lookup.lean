import NoirVisor.Radix.Walk

/-!
# Looking a region up in a list

A manager keeps the tables it has made in a list of descriptors and finds the one for an address by
comparing the address with the bounds of each region in turn.
-/

namespace Radix

variable {δ : Type} (start : δ → Nat)

/-- The first descriptor whose region of `size` bytes contains the address. -/
def covering (size address : Nat) (descriptors : List δ) : Option δ :=
  descriptors.find? fun d => start d ≤ address && address < start d + size

/-- Every descriptor starts on a boundary of its size. -/
def Aligned (size : Nat) (descriptors : List δ) : Prop :=
  ∀ d ∈ descriptors, start d % size = 0

section

variable {start} {size address : Nat} {descriptors : List δ} {d : δ}

theorem covers_iff (hsize : 0 < size) (haligned : start d % size = 0) :
    (start d ≤ address ∧ address < start d + size) ↔ start d = address / size * size := by
  have hdiv := Nat.div_add_mod address size
  have hlt := Nat.mod_lt address hsize
  have hstart := Nat.div_add_mod (start d) size
  rw [haligned, Nat.add_zero, Nat.mul_comm] at hstart
  rw [Nat.mul_comm] at hdiv
  constructor
  · rintro ⟨hle, hlt'⟩
    have hquot : start d / size = address / size := by
      apply Nat.le_antisymm
      · exact Nat.div_le_div_right hle
      · rw [← hstart] at hlt'
        rw [← Nat.lt_succ_iff, Nat.div_lt_iff_lt_mul hsize, Nat.succ_mul]
        omega
    rw [← hquot, hstart]
  · intro heq
    omega

theorem covering_eq_some (hsize : 0 < size) (haligned : Aligned start size descriptors)
    (hfound : covering start size address descriptors = some d) :
    d ∈ descriptors ∧ start d = address / size * size := by
  have hmem := List.mem_of_find?_eq_some hfound
  have hcovers := List.find?_some hfound
  simp only [Bool.and_eq_true, decide_eq_true_eq] at hcovers
  exact ⟨hmem, (covers_iff hsize (haligned d hmem)).mp hcovers⟩

theorem covering_eq_none (hsize : 0 < size) (haligned : Aligned start size descriptors)
    (hnone : covering start size address descriptors = none) (hmem : d ∈ descriptors) :
    start d ≠ address / size * size := by
  have := List.find?_eq_none.mp hnone d hmem
  simp only [Bool.and_eq_true, decide_eq_true_eq] at this
  exact fun heq => this ((covers_iff hsize (haligned d hmem)).mpr heq)

/-- Addresses of one region find the same descriptor. -/
theorem covering_congr {other : Nat} (hsize : 0 < size)
    (haligned : Aligned start size descriptors) (hregion : address / size = other / size) :
    covering start size address descriptors = covering start size other descriptors := by
  have hpoint : ∀ d ∈ descriptors, (start d ≤ address && address < start d + size) =
      (start d ≤ other && other < start d + size) := by
    intro d hd
    rw [Bool.eq_iff_iff]
    simp only [Bool.and_eq_true, decide_eq_true_eq]
    rw [covers_iff hsize (haligned d hd), covers_iff hsize (haligned d hd), hregion]
  unfold covering
  clear haligned
  induction descriptors with
  | nil => rfl
  | cons x xs ih =>
      simp only [List.find?_cons, hpoint x List.mem_cons_self]
      rw [ih fun d hd => hpoint d (List.mem_cons_of_mem _ hd)]

theorem covering_append_of_some {tail : List δ}
    (hfound : covering start size address descriptors = some d) :
    covering start size address (descriptors ++ tail) = some d := by
  unfold covering at hfound ⊢
  rw [List.find?_append, hfound]
  rfl

/-- Appending a descriptor matters for the addresses of its region only. -/
theorem covering_append (hsize : 0 < size) (haligned : start d % size = 0) :
    covering start size address (descriptors ++ [d]) =
      if address / size = start d / size then
        (covering start size address descriptors).or (some d)
      else covering start size address descriptors := by
  have hstart := Nat.div_add_mod (start d) size
  rw [haligned, Nat.add_zero, Nat.mul_comm] at hstart
  unfold covering
  rw [List.find?_append]
  by_cases hregion : address / size = start d / size
  · have hcovers : start d ≤ address ∧ address < start d + size :=
      (covers_iff hsize haligned).mpr (by rw [hregion, hstart])
    simp [hregion, hcovers.1, hcovers.2]
  · have hnot : ¬(start d ≤ address ∧ address < start d + size) := by
      rw [covers_iff hsize haligned]
      intro heq
      apply hregion
      rw [heq, Nat.mul_div_cancel _ hsize]
    have hfalse : (start d ≤ address && address < start d + size) = false := by
      simpa [Bool.and_eq_false_iff, Decidable.not_and_iff_or_not] using hnot
    simp [hregion, hfalse]

end

/-- The frame of the table of a region, as its descriptor has it. -/
def tableOf (frame : δ → Nat) (size : Nat) (descriptors : List δ) (r : Nat) : Option Nat :=
  (covering start size (r * size) descriptors).map frame

section

variable {start} {frame : δ → Nat} {size r : Nat} {descriptors : List δ} {d : δ}

theorem tableOf_div (hsize : 0 < size) (haligned : Aligned start size descriptors) (address : Nat) :
    tableOf start frame size descriptors (address / size) =
      (covering start size address descriptors).map frame := by
  unfold tableOf
  rw [covering_congr hsize haligned (Nat.mul_div_cancel _ hsize)]

/-- The table of a region that had none is added. -/
theorem tableOf_append (hsize : 0 < size) (hstart : start d = r * size)
    (hnone : tableOf start frame size descriptors r = none) (r' : Nat) :
    tableOf start frame size (descriptors ++ [d]) r' =
      if r' = r then some (frame d) else tableOf start frame size descriptors r' := by
  have hregion : r' * size / size = start d / size ↔ r' = r := by
    rw [hstart, Nat.mul_div_cancel _ hsize, Nat.mul_div_cancel _ hsize]
  unfold tableOf at hnone ⊢
  rw [covering_append hsize (by rw [hstart, Nat.mul_mod_left]), apply_ite (Option.map frame)]
  simp only [hregion]
  split
  · next heq =>
      subst heq
      rw [Option.map_eq_none_iff.mp hnone, Option.none_or, Option.map_some]
  · rfl

end

end Radix
