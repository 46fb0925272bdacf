import NoirVisor.Radix.Reach

/-!
# Where an address is mapped

The entry that maps an address, told by the table it is in and its index there. A change of memory
that leaves the shape of the entries alone, whether they are present and where they point, moves no
address to another entry.
-/

namespace Radix

variable {ε : Type} (format : Format ε)

structure Place where
  level : Nat
  frame : Nat
  index : Nat
deriving DecidableEq

/-- The place of the entry that maps an address, none when an entry on the way is absent. -/
def place (memory : Frames ε) : (level frame address : Nat) → Option Place
  | 0, frame, address =>
      if format.present (memory frame (index 0 address)) then some ⟨0, frame, index 0 address⟩
      else none
  | level + 1, frame, address =>
      let entry := memory frame (index (level + 1) address)
      if format.present entry then
        if format.leaf (level + 1) entry then some ⟨level + 1, frame, index (level + 1) address⟩
        else place memory level (format.child entry) address
      else none

variable {format} {memory memory' : Frames ε} {level frame address top root depth : Nat}

theorem place_of_absent
    (hpresent : format.present (memory frame (index level address)) = false) :
    place format memory level frame address = none := by
  cases level with
  | zero => simp [place, hpresent]
  | succ level => simp [place, hpresent]

theorem place_zero (hpresent : format.present (memory frame (index 0 address)) = true) :
    place format memory 0 frame address = some ⟨0, frame, index 0 address⟩ := by
  simp [place, hpresent]

theorem place_of_leaf
    (hpresent : format.present (memory frame (index (level + 1) address)) = true)
    (hleaf : format.leaf (level + 1) (memory frame (index (level + 1) address)) = true) :
    place format memory (level + 1) frame address =
      some ⟨level + 1, frame, index (level + 1) address⟩ := by
  simp [place, hpresent, hleaf]

theorem place_of_table
    (hpresent : format.present (memory frame (index (level + 1) address)) = true)
    (hleaf : format.leaf (level + 1) (memory frame (index (level + 1) address)) = false) :
    place format memory (level + 1) frame address =
      place format memory level (format.child (memory frame (index (level + 1) address)))
        address := by
  simp [place, hpresent, hleaf]

/-- The walk of an address all of whose entries are present. -/
def mapped (format : Format ε) (memory : Frames ε) (level frame address : Nat) :
    Option (Walk ε) :=
  (walk format memory level frame address).filter fun w => w.entries.all format.present

/-- An address is mapped by the entry at its place. -/
theorem map_mapped : (mapped format memory level frame address).map (fun w => (w.level, w.leaf)) =
    (place format memory level frame address).map fun p => (p.level, memory p.frame p.index) := by
  unfold mapped
  induction level generalizing frame with
  | zero =>
      cases hpresent : format.present (memory frame (index 0 address)) with
      | true => simp [place_zero hpresent, walk, Walk.entries, hpresent]
      | false => simp [place_of_absent hpresent, walk, Walk.entries, hpresent]
  | succ level ih =>
      cases hpresent : format.present (memory frame (index (level + 1) address)) with
      | false =>
          rw [place_of_absent hpresent]
          cases hleaf : format.leaf (level + 1) (memory frame (index (level + 1) address)) with
          | true => simp [walk_succ_of_leaf hleaf, Walk.entries, hpresent]
          | false => simp [walk_succ_of_absent hleaf hpresent]
      | true =>
          cases hleaf : format.leaf (level + 1) (memory frame (index (level + 1) address)) with
          | true =>
              simp [walk_succ_of_leaf hleaf, place_of_leaf hpresent hleaf, Walk.entries, hpresent]
          | false =>
              rw [walk_succ_of_table hleaf hpresent, place_of_table hpresent hleaf, ← ih]
              cases walk format memory level
                (format.child (memory frame (index (level + 1) address))) address with
              | none => rfl
              | some w => simp [Option.filter, hpresent]

/-- The table of a place is reached as the table of the region of the address. -/
theorem place_reach {p : Place} (hlevel : level ≤ top)
    (hreach : reach format memory top root (top - level) (region (level + 1) address) = some frame)
    (hplace : place format memory level frame address = some p) :
    p.level ≤ level ∧
      reach format memory top root (top - p.level) (region (p.level + 1) address) = some p.frame ∧
      p.index = index p.level address := by
  induction level generalizing frame with
  | zero =>
      cases hpresent : format.present (memory frame (index 0 address)) with
      | false => rw [place_of_absent hpresent] at hplace; cases hplace
      | true =>
          rw [place_zero hpresent] at hplace
          obtain rfl := Option.some.inj hplace
          exact ⟨Nat.le_refl 0, hreach, rfl⟩
  | succ level ih =>
      cases hpresent : format.present (memory frame (index (level + 1) address)) with
      | false => rw [place_of_absent hpresent] at hplace; cases hplace
      | true =>
          cases hleaf : format.leaf (level + 1) (memory frame (index (level + 1) address)) with
          | true =>
              rw [place_of_leaf hpresent hleaf] at hplace
              obtain rfl := Option.some.inj hplace
              exact ⟨Nat.le_refl _, hreach, rfl⟩
          | false =>
              rw [place_of_table hpresent hleaf] at hplace
              have hbelow : reach format memory top root (top - level) (region (level + 1) address) =
                  some (format.child (memory frame (index (level + 1) address))) := by
                rw [region_eq (level + 1) address]
                exact reach_child (by omega) (index_lt _ _) hreach
                  (by simp [Format.isTable, hleaf, hpresent])
              obtain ⟨hle, hplaced⟩ := ih (by omega) hbelow hplace
              exact ⟨by omega, hplaced⟩

/-- Addresses that one entry maps are of one page, whatever its size. -/
theorem region_eq_of_place {layout : Layout} {other : Nat} {p q : Place}
    (hdisjoint : Disjoint layout)
    (hsound : ∀ level ≤ top, ∀ r f, reach format memory top root (top - level) r = some f →
      layout level r = some f)
    (hroot : region (top + 1) address = 0) (hroot' : region (top + 1) other = 0)
    (hplace : place format memory top root address = some p)
    (hplace' : place format memory top root other = some q)
    (hframe : p.frame = q.frame) (hindex : p.index = q.index) :
    p.level = q.level ∧ region p.level address = region p.level other := by
  have hreach : ∀ a, region (top + 1) a = 0 →
      reach format memory top root (top - top) (region (top + 1) a) = some root := by
    intro a ha
    rw [Nat.sub_self, reach_zero, if_pos ha]
  obtain ⟨hle, hp, hpindex⟩ := place_reach (Nat.le_refl top) (hreach address hroot) hplace
  obtain ⟨hle', hq, hqindex⟩ := place_reach (Nat.le_refl top) (hreach other hroot') hplace'
  rw [hframe] at hp
  obtain ⟨hlevel, hregion⟩ := hdisjoint _ _ _ _ _ (hsound _ hle _ _ hp) (hsound _ hle' _ _ hq)
  refine ⟨hlevel, ?_⟩
  rw [region_eq p.level address, region_eq p.level other, ← hpindex, hindex, hqindex, hlevel,
    ← hregion, hlevel]

/-- Entries that are present alike, leaves alike and point to the same table. -/
structure SameShape (format : Format ε) (entry entry' : ε) : Prop where
  present : format.present entry' = format.present entry
  leaf : ∀ level, format.leaf level entry' = format.leaf level entry
  child : format.child entry' = format.child entry

section Shape

variable (hshape : ∀ f i, SameShape format (memory f i) (memory' f i))

include hshape

theorem reach_of_sameShape (r : Nat) :
    reach format memory' top root depth r = reach format memory top root depth r := by
  induction depth generalizing r with
  | zero => rfl
  | succ depth ih =>
      simp only [reach, ih, Format.isTable, (hshape _ _).present, (hshape _ _).leaf,
        (hshape _ _).child]
      rfl

end Shape

end Radix
