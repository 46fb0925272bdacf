import NoirVisor.Radix.Reach

/-!
# The trail of an address

The entries that the pointers of the tables lead an address past, whether or not they are present. A
walk is a trail whose entries are, and any walk that asks something of each entry is told by the
entries of the trail.
-/

namespace Radix

variable {ε : Type} (format : Format ε)

def trail (memory : Frames ε) : (level frame address : Nat) → Walk ε
  | 0, frame, address => ⟨[], memory frame (index 0 address), 0⟩
  | level + 1, frame, address =>
      let entry := memory frame (index (level + 1) address)
      if format.leaf (level + 1) entry then ⟨[], entry, level + 1⟩
      else (trail memory level (format.child entry) address).under entry

variable {format} {memory : Frames ε} {level frame address : Nat}

theorem trail_of_leaf
    (hleaf : format.leaf (level + 1) (memory frame (index (level + 1) address)) = true) :
    trail format memory (level + 1) frame address =
      ⟨[], memory frame (index (level + 1) address), level + 1⟩ := by
  simp [trail, hleaf]

theorem trail_of_table
    (hleaf : format.leaf (level + 1) (memory frame (index (level + 1) address)) = false) :
    trail format memory (level + 1) frame address =
      (trail format memory level (format.child (memory frame (index (level + 1) address)))
        address).under (memory frame (index (level + 1) address)) := by
  simp [trail, hleaf]

/-- A trail starts with the entry of its first table. -/
theorem exists_entries_trail (level frame address : Nat) : ∃ rest,
    (trail format memory level frame address).entries =
      memory frame (index level address) :: rest := by
  cases level with
  | zero => exact ⟨[], rfl⟩
  | succ level =>
      cases hleaf : format.leaf (level + 1) (memory frame (index (level + 1) address)) with
      | true => exact ⟨[], by rw [trail_of_leaf hleaf]; rfl⟩
      | false => exact ⟨_, by rw [trail_of_table hleaf, Walk.entries_under]⟩

/-- Addresses of one page have one trail. -/
theorem trail_congr {other : Nat} (hpage : region 0 address = region 0 other) :
    trail format memory level frame address = trail format memory level frame other := by
  have hindex : ∀ l, index l address = index l other := by
    intro l
    rw [index, index, region_congr hpage]
  induction level generalizing frame with
  | zero => simp only [trail, hindex]
  | succ level ih => simp only [trail, hindex, ih]

/-- A walk follows the trail as long as it is present. -/
theorem walk_eq_trail : walk format memory level frame address =
    if (trail format memory level frame address).above.all format.present then
      some (trail format memory level frame address)
    else none := by
  induction level generalizing frame with
  | zero => rfl
  | succ level ih =>
      cases hleaf : format.leaf (level + 1) (memory frame (index (level + 1) address)) with
      | true => rw [walk_succ_of_leaf hleaf, trail_of_leaf hleaf]; rfl
      | false =>
          rw [trail_of_table hleaf]
          cases hpresent : format.present (memory frame (index (level + 1) address)) with
          | true =>
              rw [walk_succ_of_table hleaf hpresent, ih]
              simp only [Walk.under, List.all_cons, hpresent, Bool.true_and]
              split
              · rfl
              · rfl
          | false =>
              rw [walk_succ_of_absent hleaf hpresent]
              simp [Walk.under, hpresent]

end Radix
