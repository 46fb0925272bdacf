import NoirVisor.Transition
import Mathlib.Logic.Function.Basic

/-!
# Control structures on several processors

A control structure is loaded on a processor and stays active there until it is cleared. An entry
needs the instruction that fits its launch state.
-/

namespace Vmx

open Transition Function

variable {V P α : Type}

/-- `area` is the part of a structure that describes the host. -/
structure Machine (V P α : Type) where
  active : V → P → Bool
  launched : V → Bool
  current : P → Option V
  area : V → α

inductive Instruction (V α : Type) where
  | vmclear (v : V)
  | vmptrld (v : V)
  | vmwrite (write : α → α)
  | vmlaunch
  | vmresume

/-- An entry by `launch` leads to the host `own` stands for. -/
def Machine.Enters (own : P → α) (p : P) (launched : Bool) (m : Machine V P α) : Prop :=
  ∃ v, m.current p = some v ∧ m.launched v = launched ∧ m.area v = own p

def Legal (own : P → α) (p : P) (m : Machine V P α) : Instruction V α → Prop
  | .vmclear _ => True
  | .vmptrld v => ∀ q, m.active v q = true → q = p
  | .vmwrite _ => True
  | .vmlaunch => m.Enters own p false
  | .vmresume => m.Enters own p true

variable [DecidableEq V] [DecidableEq P]

def exec (p : P) (m : Machine V P α) : Instruction V α → Machine V P α
  | .vmclear v =>
      { m with
        active := update m.active v (update (m.active v) p false)
        launched := update m.launched v false
        current := if m.current p = some v then update m.current p none else m.current }
  | .vmptrld v =>
      { m with
        active := update m.active v (update (m.active v) p true)
        current := update m.current p (some v) }
  | .vmwrite write =>
      match m.current p with
      | some v => { m with area := update m.area v (write (m.area v)) }
      | none => m
  | .vmlaunch =>
      match m.current p with
      | some v => { m with launched := update m.launched v true }
      | none => m
  | .vmresume => m

def execAll (p : P) (m : Machine V P α) (code : List (Instruction V α)) : Machine V P α :=
  code.foldl (exec p) m

def LegalAll (own : P → α) (p : P) (m : Machine V P α) (code : List (Instruction V α)) : Prop :=
  Along (Legal own p) (exec p) m code

section

variable {own : P → α} {p q : P} {v w : V} {m : Machine V P α} {write : α → α}

@[simp] theorem vmclear_active : (exec p m (.vmclear v)).active w q =
    if w = v ∧ q = p then false else m.active w q := by
  by_cases hw : w = v <;> by_cases hq : q = p <;> simp [exec, hw, hq]

@[simp] theorem vmclear_launched : (exec p m (.vmclear v)).launched w =
    if w = v then false else m.launched w := update_apply _ _ _ _

@[simp] theorem vmclear_current : (exec p m (.vmclear v)).current q =
    if q = p ∧ m.current p = some v then none else m.current q := by
  by_cases hcurrent : m.current p = some v <;> simp [exec, update_apply, hcurrent]

@[simp] theorem vmclear_area : (exec p m (.vmclear v)).area = m.area := rfl

@[simp] theorem vmptrld_active : (exec p m (.vmptrld v)).active w q =
    if w = v ∧ q = p then true else m.active w q := by
  by_cases hw : w = v <;> by_cases hq : q = p <;> simp [exec, hw, hq]

@[simp] theorem vmptrld_launched : (exec p m (.vmptrld v)).launched = m.launched := rfl

@[simp] theorem vmptrld_current : (exec p m (.vmptrld v)).current q =
    if q = p then some v else m.current q := update_apply _ _ _ _

@[simp] theorem vmptrld_area : (exec p m (.vmptrld v)).area = m.area := rfl

@[simp] theorem exec_vmresume : exec p m .vmresume = m := rfl

theorem exec_vmwrite (h : m.current p = some v) : exec p m (.vmwrite write) =
    { m with area := update m.area v (write (m.area v)) } := by
  simp only [exec, h]

theorem exec_vmwrite_vmwrite {write' : α → α} :
    exec p (exec p m (.vmwrite write)) (.vmwrite write') = exec p m (.vmwrite (write' ∘ write)) := by
  cases h : m.current p with
  | none => simp only [exec, h]
  | some v =>
      have hwritten : (exec p m (.vmwrite write)).current p = some v := by rw [exec_vmwrite h, h]
      rw [exec_vmwrite hwritten, exec_vmwrite h, exec_vmwrite h]
      simp only [update_idem, update_self, comp_apply]

theorem exec_vmlaunch (h : m.current p = some v) : exec p m .vmlaunch =
    { m with launched := update m.launched v true } := by
  simp only [exec, h]

omit [DecidableEq V] [DecidableEq P] in
theorem enters_iff {launched : Bool} (h : m.current p = some v) :
    m.Enters own p launched ↔ m.launched v = launched ∧ m.area v = own p := by
  constructor
  · rintro ⟨w, hw, henters⟩
    obtain rfl := Option.some.inj (hw.symm.trans h)
    exact henters
  · exact fun henters => ⟨v, h, henters⟩

/-- A structure is made current, whether it was cleared before or not. -/
theorem current_of_vmptrld : (exec p m (.vmptrld v)).current p = some v := update_self _ _ _

theorem execAll_append {code code' : List (Instruction V α)} :
    execAll p m (code ++ code') = execAll p (execAll p m code) code' := List.foldl_append

theorem legalAll_append {code code' : List (Instruction V α)} :
    LegalAll own p m (code ++ code') ↔
      LegalAll own p m code ∧ LegalAll own p (execAll p m code) code' := by
  induction code generalizing m with
  | nil => exact (and_iff_right trivial).symm
  | cons i code ih => exact (and_congr_right fun _ => ih).trans and_assoc.symm

/-- Clearing a structure makes it inactive here, but nowhere else. -/
theorem legal_vmptrld_cleared : Legal own p (exec p m (.vmclear v)) (.vmptrld v) ↔
    Legal own p m (.vmptrld v) := by
  refine forall_congr' fun q => ?_
  by_cases hq : q = p <;> simp [hq]

/-- A structure is entered again. -/
theorem legalAll_resume : LegalAll own p m [.vmptrld v, .vmresume] ↔
    Legal own p m (.vmptrld v) ∧ m.launched v = true ∧ m.area v = own p := by
  constructor
  · rintro ⟨hload, henters, -⟩
    exact ⟨hload, (enters_iff current_of_vmptrld).mp henters⟩
  · rintro ⟨hload, henters⟩
    exact ⟨hload, (enters_iff current_of_vmptrld).mpr henters, trivial⟩

/-- A structure is entered afresh. -/
theorem legalAll_launch : LegalAll own p m [.vmclear v, .vmptrld v, .vmlaunch] ↔
    Legal own p m (.vmptrld v) ∧ m.area v = own p := by
  have hclear : (exec p (exec p m (.vmclear v)) (.vmptrld v)).launched v = false := by simp
  constructor
  · rintro ⟨-, hload, henters, -⟩
    exact ⟨legal_vmptrld_cleared.mp hload, ((enters_iff current_of_vmptrld).mp henters).2⟩
  · rintro ⟨hload, harea⟩
    have henters := (enters_iff current_of_vmptrld).mpr ⟨hclear, harea⟩
    exact ⟨trivial, legal_vmptrld_cleared.mpr hload, henters, trivial⟩

end

end Vmx
