import NoirVisor.Radix.Walk

/-!
# Tables told by their layout

A tree of tables in which the layout decides every entry: the entry for a region points to the table
of the region when there is one, and otherwise holds what the region has of its own. A walk through
such a tree is told by the layout, and a table whose entries are the region's own can be added to it
at any time.
-/

namespace Radix

variable {ε : Type}

/-- The entry for a region, by level. -/
def content (layout : Layout) (pointer : Nat → ε) (own : Nat → Nat → ε) : Nat → Nat → ε
  | 0, r => own 0 r
  | level + 1, r =>
      match layout level r with
      | some frame => pointer frame
      | none => own (level + 1) r

/-- Every table of the layout holds what the layout tells, and has a table above it. -/
structure Holds (layout : Layout) (memory : Frames ε) (top : Nat) (pointer : Nat → ε)
    (own : Nat → Nat → ε) : Prop where
  disjoint : Disjoint layout
  entries : ∀ level r frame i, layout level r = some frame → i < 512 →
    memory frame i = content layout pointer own level (512 * r + i)
  rooted : ∀ level < top, ∀ r, layout level r ≠ none → layout (level + 1) (r / 512) ≠ none

/-- The walk the layout tells. -/
def resolve (format : Format ε) (layout : Layout) (pointer : Nat → ε) (own : Nat → Nat → ε) :
    (level address : Nat) → Option (Walk ε)
  | 0, address => some ⟨[], own 0 (region 0 address), 0⟩
  | level + 1, address =>
      match layout level (region (level + 1) address) with
      | some frame => (resolve format layout pointer own level address).map (Walk.under (pointer frame))
      | none =>
          let entry := own (level + 1) (region (level + 1) address)
          if format.leaf (level + 1) entry then some ⟨[], entry, level + 1⟩ else none

/-- A walk with more entries on the way down. -/
def Walk.past (entries : List ε) (walk : Walk ε) : Walk ε :=
  { walk with above := entries ++ walk.above }

section

variable {layout : Layout} {memory : Frames ε} {top : Nat} {pointer : Nat → ε}
  {own own' : Nat → Nat → ε} {level r f p i : Nat}

theorem content_succ_of_some (htable : layout level r = some f) :
    content layout pointer own (level + 1) r = pointer f := by
  simp only [content, htable]

theorem content_succ_of_none (hnone : layout level r = none) :
    content layout pointer own (level + 1) r = own (level + 1) r := by
  simp only [content, hnone]

/-- There is nothing below a region without a table. -/
theorem Holds.below (h : Holds layout memory top pointer own) (hlevel : level < top)
    (hnone : layout (level + 1) r = none) (hi : i < 512) : layout level (512 * r + i) = none := by
  by_contra hsome
  apply h.rooted level hlevel _ hsome
  rw [show (512 * r + i) / 512 = r by omega, hnone]

theorem Holds.content_of_none (h : Holds layout memory top pointer own) (hlevel : level ≤ top)
    (hnone : layout level r = none) (hi : i < 512) :
    content layout pointer own level (512 * r + i) = own level (512 * r + i) := by
  cases level with
  | zero => rfl
  | succ level => exact content_succ_of_none (h.below (by omega) hnone hi)

section Walks

variable {format : Format ε} {address frame : Nat}

theorem Holds.walk_eq (h : Holds layout memory top pointer own)
    (hchild : ∀ level r frame, layout level r = some frame → format.child (pointer frame) = frame)
    (htable : ∀ level frame, format.isTable (level + 1) (pointer frame) = true)
    (hown : ∀ level r, format.isTable (level + 1) (own (level + 1) r) = false)
    (hroot : layout level (region (level + 1) address) = some frame) :
    walk format memory level frame address = resolve format layout pointer own level address := by
  induction level generalizing frame with
  | zero =>
      have hentry := h.entries 0 _ frame (index 0 address) hroot (index_lt _ _)
      rw [← region_eq] at hentry
      simp only [walk, resolve, hentry, content]
  | succ level ih =>
      have hentry := h.entries (level + 1) _ frame (index (level + 1) address) hroot (index_lt _ _)
      rw [← region_eq] at hentry
      cases hbelow : layout level (region (level + 1) address) with
      | some frame' =>
          rw [content_succ_of_some hbelow] at hentry
          have hpointer := htable level frame'
          simp only [Format.isTable, Bool.and_eq_true, Bool.not_eq_true'] at hpointer
          rw [walk_succ_of_table (by rw [hentry, hpointer.1]) (by rw [hentry, hpointer.2]), hentry,
            hchild _ _ _ hbelow, ih hbelow]
          simp only [resolve, hbelow]
      | none =>
          rw [content_succ_of_none hbelow] at hentry
          have hnot := hown level (region (level + 1) address)
          simp only [resolve, hbelow]
          cases hleaf : format.leaf (level + 1) (own (level + 1) (region (level + 1) address)) with
          | true => rw [walk_succ_of_leaf (by rw [hentry, hleaf]), hentry, if_pos rfl]
          | false =>
              simp only [Format.isTable, hleaf, Bool.not_false, Bool.true_and] at hnot
              rw [walk_succ_of_absent (by rw [hentry, hleaf]) (by rw [hentry, hnot])]
              rfl

theorem resolve_of_some {frame : Nat} (htable : layout level (region (level + 1) address) = some frame) :
    resolve format layout pointer own (level + 1) address =
      (resolve format layout pointer own level address).map (Walk.under (pointer frame)) := by
  simp only [resolve, htable]

theorem resolve_of_none (hnone : layout level (region (level + 1) address) = none) :
    resolve format layout pointer own (level + 1) address =
      if format.leaf (level + 1) (own (level + 1) (region (level + 1) address)) then
        some ⟨[], own (level + 1) (region (level + 1) address), level + 1⟩
      else none := by
  simp only [resolve, hnone]

/-- The walk comes to every table there is for its address. -/
theorem Holds.resolve_past (h : Holds layout memory top pointer own) {n : Nat} (hn : n ≤ top)
    (htable : layout (top - n) (region (top - n + 1) address) ≠ none) :
    ∃ frames : List Nat, resolve format layout pointer own top address =
      (resolve format layout pointer own (top - n) address).map
        (Walk.past (frames.map pointer)) := by
  induction n with
  | zero => exact ⟨[], Option.map_id'.symm⟩
  | succ n ih =>
      have hlevel : top - n = top - (n + 1) + 1 := by omega
      have hupper := h.rooted (top - (n + 1)) (by omega) _ htable
      rw [← region_succ, ← hlevel] at hupper
      obtain ⟨frames, hframes⟩ := ih (by omega) hupper
      obtain ⟨frame, hframe⟩ := Option.ne_none_iff_exists'.mp htable
      refine ⟨frames ++ [frame], ?_⟩
      rw [hframes, hlevel, resolve_of_some hframe, Option.map_map]
      refine congrArg (Option.map · _) (funext fun w => ?_)
      simp [Walk.past, Walk.under]

end Walks

/-- A page that is no table is free to change. -/
theorem Holds.fill (h : Holds layout memory top pointer own)
    (hfresh : ∀ level r, layout level r ≠ some f) (table : Nat → ε) :
    Holds layout (memory.fill f table) top pointer own where
  disjoint := h.disjoint
  entries level r frame i hframe hi := by
    have hne : frame ≠ f := fun heq => hfresh level r (heq ▸ hframe)
    rw [Frames.fill_of_ne hne]
    exact h.entries level r frame i hframe hi
  rooted := h.rooted

theorem content_extend_of_ne {level' r' : Nat} (hne : ¬(level' = level + 1 ∧ r' = r)) :
    content (layout.extend level r f) pointer own level' r' =
      content layout pointer own level' r' := by
  cases level' with
  | zero => rfl
  | succ level' =>
      simp only [content]
      rw [Layout.extend_of_ne fun heq => hne ⟨by omega, heq.2⟩]

/-- A table for a region that had none, filled with the region's own entries and linked to the table
above it. -/
theorem Holds.add (h : Holds layout memory top pointer own) (hlevel : level < top)
    (hnone : layout level r = none) (hfresh : ∀ level' r', layout level' r' ≠ some f)
    (hparent : layout (level + 1) (r / 512) = some p) {table : Nat → ε}
    (htable : ∀ i < 512, table i = own level (512 * r + i)) :
    Holds (layout.extend level r f) ((memory.fill f table).set p (r % 512) (pointer f))
      top pointer own where
  disjoint := h.disjoint.extend hfresh
  entries level' r' frame i hframe hi := by
    have hne : f ≠ p := fun heq => hfresh _ _ (heq ▸ hparent)
    by_cases hnew : level' = level ∧ r' = r
    · -- The new table: there is no table below any of its regions.
      obtain ⟨rfl, rfl⟩ := hnew
      rw [Layout.extend_self] at hframe
      obtain rfl := Option.some.inj hframe
      rw [Frames.set_of_frame_ne hne, Frames.fill_self, content_extend_of_ne (by omega),
        h.content_of_none hlevel.le hnone hi, htable i hi]
    · rw [Layout.extend_of_ne hnew] at hframe
      have hframe_ne : frame ≠ f := fun heq => hfresh _ _ (heq ▸ hframe)
      by_cases hwritten : frame = p ∧ i = r % 512
      · -- The entry that now points to it.
        obtain ⟨rfl, rfl⟩ := hwritten
        obtain ⟨rfl, rfl⟩ := h.disjoint _ _ _ _ _ hframe hparent
        rw [Frames.set_self, show 512 * (r / 512) + r % 512 = r by omega,
          content_succ_of_some (Layout.extend_self _ _ _ _)]
      · rw [Frames.set_of_ne hwritten, Frames.fill_of_ne hframe_ne,
          h.entries level' r' frame i hframe hi, content_extend_of_ne]
        rintro ⟨rfl, hregion⟩
        obtain rfl : r' = r / 512 := by omega
        rw [hparent] at hframe
        exact hwritten ⟨(Option.some.inj hframe).symm, by omega⟩
  rooted level' hlevel' r' hsome := by
    by_cases hnew : level' = level ∧ r' = r
    · obtain ⟨rfl, rfl⟩ := hnew
      rw [Layout.extend_of_some hnone hparent]
      simp
    · rw [Layout.extend_of_ne hnew] at hsome
      obtain ⟨p', hp'⟩ := Option.ne_none_iff_exists'.mp (h.rooted level' hlevel' r' hsome)
      rw [Layout.extend_of_some hnone hp']
      simp

theorem content_congr {level' r' : Nat} (hsame : own' level' r' = own level' r') :
    content layout pointer own' level' r' = content layout pointer own level' r' := by
  cases level' with
  | zero => exact hsame
  | succ level' => simp only [content, hsame]

/-- A page entry is written. -/
theorem Holds.set_leaf (h : Holds layout memory top pointer own) (htable : layout 0 r = some f)
    (hi : i < 512) (hsame : ∀ level' r', ¬(level' = 0 ∧ r' = 512 * r + i) →
      own' level' r' = own level' r') :
    Holds layout (memory.set f i (own' 0 (512 * r + i))) top pointer own' where
  disjoint := h.disjoint
  entries level' r' frame j hframe hj := by
    by_cases hwritten : frame = f ∧ j = i
    · obtain ⟨rfl, rfl⟩ := hwritten
      obtain ⟨rfl, rfl⟩ := h.disjoint _ _ _ _ _ hframe htable
      rw [Frames.set_self]
      rfl
    · rw [Frames.set_of_ne hwritten, h.entries level' r' frame j hframe hj]
      refine (content_congr (hsame _ _ ?_)).symm
      rintro ⟨rfl, hregion⟩
      obtain rfl : r' = r := by omega
      rw [htable] at hframe
      exact hwritten ⟨(Option.some.inj hframe).symm, by omega⟩
  rooted := h.rooted

/-- A table with no table below it is filled again. -/
theorem Holds.refill (h : Holds layout memory top pointer own)
    (hframe : layout (level + 1) r = some f) (hbelow : ∀ i < 512, layout level (512 * r + i) = none)
    {table : Nat → ε} (htable : ∀ i < 512, table i = own' (level + 1) (512 * r + i))
    (hsame : ∀ level' r' i, i < 512 → layout level' r' ≠ none → ¬(level' = level + 1 ∧ r' = r) →
      own' level' (512 * r' + i) = own level' (512 * r' + i)) :
    Holds layout (memory.fill f table) top pointer own' where
  disjoint := h.disjoint
  entries level' r' frame i hframe' hi := by
    by_cases hwritten : frame = f
    · subst hwritten
      obtain ⟨rfl, rfl⟩ := h.disjoint _ _ _ _ _ hframe' hframe
      rw [Frames.fill_self, content_succ_of_none (hbelow i hi), htable i hi]
    · rw [Frames.fill_of_ne hwritten, h.entries level' r' frame i hframe' hi]
      refine (content_congr (hsame _ _ i hi (by rw [hframe']; simp) ?_)).symm
      rintro ⟨rfl, rfl⟩
      rw [hframe] at hframe'
      exact hwritten (Option.some.inj hframe').symm
  rooted := h.rooted

end

end Radix
