import Mathlib.Logic.Function.Basic

/-!
# Batches of writes

A list of writes to a table, applied in order. What a key holds afterwards is the value of the last
write to it, so that writes which agree on a key settle it whatever their order.
-/

namespace Batch

variable {κ ε : Type} [DecidableEq κ]

def write (table : κ → ε) (w : κ × ε) : κ → ε := Function.update table w.1 w.2

def writes (table : κ → ε) (ws : List (κ × ε)) : κ → ε := ws.foldl write table

variable {table : κ → ε} {ws : List (κ × ε)} {k : κ} {e : ε}

@[simp]
theorem writes_nil (table : κ → ε) : writes table [] = table := rfl

@[simp]
theorem writes_cons (table : κ → ε) (w : κ × ε) (ws : List (κ × ε)) :
    writes table (w :: ws) = writes (write table w) ws := rfl

theorem writes_append (table : κ → ε) (ws ws' : List (κ × ε)) :
    writes table (ws ++ ws') = writes (writes table ws) ws' :=
  List.foldl_append

theorem write_self (table : κ → ε) (w : κ × ε) : write table w w.1 = w.2 :=
  Function.update_self _ _ _

theorem write_of_ne {w : κ × ε} (hne : k ≠ w.1) : write table w k = table k :=
  Function.update_of_ne hne _ _

theorem writes_of_forall_ne (hne : ∀ w ∈ ws, k ≠ w.1) : writes table ws k = table k := by
  induction ws generalizing table with
  | nil => rfl
  | cons w ws ih =>
      rw [writes_cons, ih fun w' hw' => hne w' (List.mem_cons_of_mem _ hw')]
      exact write_of_ne (hne w List.mem_cons_self)

/-- A key keeps its value or holds that of one of the writes to it. -/
theorem writes_eq_or (table : κ → ε) (ws : List (κ × ε)) (k : κ) :
    writes table ws k = table k ∨ ∃ w ∈ ws, w.1 = k ∧ writes table ws k = w.2 := by
  induction ws generalizing table with
  | nil => exact Or.inl rfl
  | cons w ws ih =>
      rw [writes_cons]
      rcases ih (write table w) with hkept | ⟨w', hw', hkey, hvalue⟩
      · by_cases heq : k = w.1
        · subst heq
          exact Or.inr ⟨w, List.mem_cons_self, rfl, by rw [hkept, write_self]⟩
        · exact Or.inl (by rw [hkept, write_of_ne heq])
      · exact Or.inr ⟨w', List.mem_cons_of_mem _ hw', hkey, hvalue⟩

theorem writes_of_agree (hagree : ∀ w ∈ ws, w.1 = k → w.2 = e) (hmem : ∃ w ∈ ws, w.1 = k) :
    writes table ws k = e := by
  induction ws generalizing table with
  | nil =>
      obtain ⟨w, hw, -⟩ := hmem
      cases hw
  | cons w ws ih =>
      rw [writes_cons]
      by_cases hlater : ∃ w' ∈ ws, w'.1 = k
      · exact ih (fun w' hw' => hagree w' (List.mem_cons_of_mem _ hw')) hlater
      · have hne : ∀ w' ∈ ws, k ≠ w'.1 := fun w' hw' heq => hlater ⟨w', hw', heq.symm⟩
        obtain ⟨w', hw', hkey⟩ := hmem
        rcases List.mem_cons.mp hw' with rfl | hin
        · rw [writes_of_forall_ne hne, ← hkey, write_self]
          exact hagree w' List.mem_cons_self hkey
        · exact absurd ⟨w', hin, hkey⟩ hlater

end Batch
