import Mathlib.Data.Bool.Basic
import Mathlib.Logic.Function.Basic

/-!
# Fields cached by groups

A reader keeps a copy of a block, and the writer of the block marks the groups of fields it has changed
since the last read. The reader takes the fields of a marked group from the block, and may take the
others from its copy. A group is clean while it is not marked; a field of no group is never cached.
-/

namespace Marking

variable {φ β ν : Type}

structure Block (φ β ν : Type) where
  field : φ → ν
  clean : β → Bool

variable (group : φ → Option β)

/-- What a reader with this copy works with. -/
def Block.read (copy : φ → ν) (m : Block φ β ν) (f : φ) : ν :=
  match group f with
  | some b => if m.clean b then copy f else m.field f
  | none => m.field f

/-- A cached field that is not what the reader has is in a marked group. -/
def Block.Marked (copy : φ → ν) (m : Block φ β ν) : Prop :=
  ∀ f b, group f = some b → m.field f ≠ copy f → m.clean b = false

/-- A change of the block marks what it changes and cleans nothing. -/
structure Marks (m m' : Block φ β ν) : Prop where
  clean : ∀ b, m'.clean b = true → m.clean b = true
  field : ∀ f b, group f = some b → m'.clean b = true → m'.field f = m.field f

/-- Blocks that differ in nothing a reader may have a copy of. -/
structure Alike (m m' : Block φ β ν) : Prop where
  clean : ∀ b, m'.clean b = true → m.clean b = true
  field : ∀ f b, group f = some b → m'.field f = m.field f ∧ m'.clean b = m.clean b

variable {group} {copy : φ → ν} {m m' m'' : Block φ β ν}

/-- A reader may use its copy exactly when it would make no difference. -/
theorem read_eq_iff : m.read group copy = m.field ↔ m.Marked group copy := by
  rw [funext_iff]
  refine forall_congr' fun f => ?_
  unfold Block.read
  cases hgroup : group f with
  | none => exact ⟨fun _ b hb => (nomatch hb), fun _ => rfl⟩
  | some b =>
      dsimp only
      cases hclean : m.clean b with
      | false =>
          rw [if_neg Bool.false_ne_true]
          exact ⟨fun _ b' hb' _ => Option.some.inj hb' ▸ hclean, fun _ => rfl⟩
      | true =>
          rw [if_pos rfl]
          refine ⟨fun hsame b' _ hne => absurd hsame.symm hne, fun h => ?_⟩
          by_contra hne
          exact absurd ((h b rfl fun hsame => hne hsame.symm).symm.trans hclean) Bool.false_ne_true

theorem marked_of_not_clean (h : ∀ b, m.clean b = false) : m.Marked group copy := fun _ b _ _ => h b

theorem Block.Marked.of_marks (h : m.Marked group copy) (hmarks : Marks group m m') :
    m'.Marked group copy := by
  intro f b hgroup hne
  by_contra hclean
  have hclean : m'.clean b = true := Bool.eq_true_of_not_eq_false hclean
  have hold : m.clean b = false := h f b hgroup (hmarks.field f b hgroup hclean ▸ hne)
  exact absurd ((hmarks.clean b hclean).symm.trans hold) (by simp)

namespace Marks

theorem refl : Marks group m m := ⟨fun _ h => h, fun _ _ _ _ => rfl⟩

theorem trans (h : Marks group m m') (h' : Marks group m' m'') : Marks group m m'' where
  clean b hb := h.clean b (h'.clean b hb)
  field f b hgroup hb := (h'.field f b hgroup hb).trans (h.field f b hgroup (h'.clean b hb))

/-- Fields of no group change freely. -/
theorem of_uncached (hclean : m'.clean = m.clean)
    (hfield : ∀ f b, group f = some b → m'.field f = m.field f) : Marks group m m' where
  clean b hb := by rwa [hclean] at hb
  field f b hgroup _ := hfield f b hgroup

/-- Fields of one group change, and it is marked. -/
theorem of_group {b : β} (hb : m'.clean b = false) (hclean : ∀ b', m'.clean b' = true → m.clean b' = true)
    (hfield : ∀ f, group f ≠ none → group f ≠ some b → m'.field f = m.field f) :
    Marks group m m' where
  clean := hclean
  field f b' hgroup hb' := by
    refine hfield f (by simp [hgroup]) fun hsame => ?_
    obtain rfl : b' = b := Option.some.inj (hgroup.symm.trans hsame)
    exact absurd (hb.symm.trans hb') (by simp)

end Marks

namespace Alike

theorem refl : Alike group m m := ⟨fun _ h => h, fun _ _ _ => ⟨rfl, rfl⟩⟩

theorem trans (h : Alike group m m') (h' : Alike group m' m'') : Alike group m m'' where
  clean b hb := h.clean b (h'.clean b hb)
  field f b hgroup :=
    ⟨(h'.field f b hgroup).1.trans (h.field f b hgroup).1,
      (h'.field f b hgroup).2.trans (h.field f b hgroup).2⟩

theorem marked_iff (h : Alike group m m') : m'.Marked group copy ↔ m.Marked group copy := by
  refine forall_congr' fun f => forall_congr' fun b => forall_congr' fun hgroup => ?_
  rw [(h.field f b hgroup).1, (h.field f b hgroup).2]

end Alike

end Marking
