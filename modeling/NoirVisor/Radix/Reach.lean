import NoirVisor.Radix.Walk

/-!
# The tables a walk can come to

A manager may know of tables that no entry points to yet. What a walk makes of an address depends on
the tables linked below the root alone; these are the layout that the entries themselves describe.
-/

namespace Radix

variable {ε : Type} (format : Format ε)

/-- The table that the walks of a region come to, `depth` levels below the root. -/
def reach (memory : Frames ε) (top root : Nat) : (depth region : Nat) → Option Nat
  | 0, r => if r = 0 then some root else none
  | depth + 1, r =>
      (reach memory top root depth (r / 512)).bind fun frame =>
        let entry := memory frame (r % 512)
        if format.isTable (top - depth) entry then some (format.child entry) else none

variable {format} {memory memory' : Frames ε} {top root depth r frame : Nat}

@[simp]
theorem reach_zero (memory : Frames ε) (top root r : Nat) :
    reach format memory top root 0 r = if r = 0 then some root else none := rfl

theorem reach_succ_eq_some {child : Nat} :
    reach format memory top root (depth + 1) r = some child ↔
      ∃ frame, reach format memory top root depth (r / 512) = some frame ∧
        format.isTable (top - depth) (memory frame (r % 512)) = true ∧
        format.child (memory frame (r % 512)) = child := by
  simp [reach, Option.bind_eq_some_iff]

theorem reach_succ_of_some (hframe : reach format memory top root depth (r / 512) = some frame) :
    reach format memory top root (depth + 1) r =
      if format.isTable (top - depth) (memory frame (r % 512)) then
        some (format.child (memory frame (r % 512)))
      else none := by
  simp [reach, hframe]

theorem reach_succ_of_none (hnone : reach format memory top root depth (r / 512) = none) :
    reach format memory top root (depth + 1) r = none := by
  simp [reach, hnone]

/-- A table entry leads to the table of the region below it. -/
theorem reach_child {level i : Nat} (hlevel : level < top) (hi : i < 512)
    (hreach : reach format memory top root (top - (level + 1)) r = some frame)
    (htable : format.isTable (level + 1) (memory frame i) = true) :
    reach format memory top root (top - level) (512 * r + i) = some (format.child (memory frame i)) := by
  rw [show top - level = top - (level + 1) + 1 by omega, reach_succ_of_some
    (by rw [show (512 * r + i) / 512 = r by omega]; exact hreach),
    show (512 * r + i) % 512 = i by omega, show top - (top - (level + 1)) = level + 1 by omega,
    if_pos htable]

/-- Below a region whose table is not reached, none is. -/
theorem reach_add_of_none {k : Nat} (hnone : reach format memory top root depth (r / 512 ^ k) = none) :
    reach format memory top root (depth + k) r = none := by
  induction k generalizing r with
  | zero => simpa using hnone
  | succ k ih =>
      refine reach_succ_of_none (ih ?_)
      rw [Nat.div_div_eq_div_mul, ← Nat.pow_succ']
      exact hnone

/-- What is reached depends on the entries of reached tables alone. -/
theorem reach_congr
    (hsame : ∀ d < depth, ∀ r f i, reach format memory top root d r = some f → i < 512 →
      memory' f i = memory f i) (r : Nat) :
    reach format memory' top root depth r = reach format memory top root depth r := by
  induction depth generalizing r with
  | zero => rfl
  | succ depth ih =>
      have hupper := ih (fun d hd => hsame d (by omega)) (r / 512)
      cases hframe : reach format memory top root depth (r / 512) with
      | none => rw [reach_succ_of_none hframe, reach_succ_of_none (hupper.trans hframe)]
      | some frame =>
          rw [reach_succ_of_some hframe, reach_succ_of_some (hupper.trans hframe),
            hsame depth (by omega) _ _ _ hframe (Nat.mod_lt _ (by decide))]

/-- Pointing an entry that pointed to no table at an empty table adds this table to those reached. -/
theorem reach_link {d₀ r₀ f i child : Nat}
    (hparent : reach format memory top root d₀ r₀ = some f) (hi : i < 512)
    (hunique : ∀ d < depth, ∀ r, reach format memory top root d r = some f → d = d₀ ∧ r = r₀)
    (hold : format.isTable (top - d₀) (memory f i) = false)
    (hnew : format.isTable (top - d₀) (memory' f i) = true)
    (hchild : format.child (memory' f i) = child)
    (hempty : d₀ + 1 < depth →
      ∀ j < 512, format.isTable (top - (d₀ + 1)) (memory' child j) = false)
    (hsame : ∀ d < depth, ∀ r g j, reach format memory top root d r = some g → j < 512 →
      ¬(g = f ∧ j = i) → memory' g j = memory g j) (r : Nat) :
    reach format memory' top root depth r =
      if depth = d₀ + 1 ∧ r = 512 * r₀ + i then some child
      else reach format memory top root depth r := by
  induction depth generalizing r with
  | zero => simp
  | succ depth ih =>
      have hupper := ih (fun d hd => hunique d (by omega)) (fun hlt => hempty (by omega))
        (fun d hd => hsame d (by omega)) (r / 512)
      have hindex : r % 512 < 512 := Nat.mod_lt _ (by decide)
      by_cases hbelow : depth = d₀ + 1 ∧ r / 512 = 512 * r₀ + i
      · -- A region below the new table: the table is empty, and before there was none.
        obtain ⟨rfl, hregion⟩ := hbelow
        rw [if_pos ⟨rfl, hregion⟩] at hupper
        have hbefore : reach format memory top root (d₀ + 1) (r / 512) = none := by
          rw [hregion, reach_succ_of_some (by rw [show (512 * r₀ + i) / 512 = r₀ by omega, hparent]),
            show (512 * r₀ + i) % 512 = i by omega, if_neg (by simp [hold])]
        have hother : ¬(d₀ + 1 + 1 = d₀ + 1 ∧ r = 512 * r₀ + i) := fun h => by omega
        rw [reach_succ_of_some hupper, reach_succ_of_none hbefore, if_neg hother,
          hempty (by omega) _ hindex]
        rfl
      · rw [if_neg hbelow] at hupper
        cases hframe : reach format memory top root depth (r / 512) with
        | none =>
            rw [reach_succ_of_none (hupper.trans hframe), reach_succ_of_none hframe, if_neg]
            rintro ⟨hdepth, rfl⟩
            obtain rfl : depth = d₀ := by omega
            rw [show (512 * r₀ + i) / 512 = r₀ by omega, hparent] at hframe
            cases hframe
        | some g =>
            rw [reach_succ_of_some (hupper.trans hframe), reach_succ_of_some hframe]
            by_cases hwritten : g = f ∧ r % 512 = i
            · obtain ⟨rfl, rfl⟩ := hwritten
              obtain ⟨rfl, rfl⟩ := hunique depth (by omega) _ hframe
              rw [if_pos hnew, if_pos ⟨rfl, by omega⟩, hchild]
            · have hother : ¬(depth + 1 = d₀ + 1 ∧ r = 512 * r₀ + i) := by
                rintro ⟨hdepth, rfl⟩
                obtain rfl : depth = d₀ := by omega
                rw [show (512 * r₀ + i) / 512 = r₀ by omega, hparent] at hframe
                exact hwritten ⟨(Option.some.inj hframe).symm, by omega⟩
              rw [hsame depth (by omega) _ _ _ hframe hindex hwritten, if_neg hother]

/-- The tables reached are among those the layout describes, each for its own region, and the
entries of those above the last level are of the kind `P`. -/
structure Tree (format : Format ε) (described : Layout) (memory : Frames ε) (top root : Nat)
    (P : ε → Prop) : Prop where
  disjoint : Disjoint described
  sound : ∀ depth ≤ top, ∀ r f, reach format memory top root depth r = some f →
    described (top - depth) r = some f
  entries : ∀ depth < top, ∀ r f i, reach format memory top root depth r = some f → i < 512 →
    P (memory f i)

namespace Tree

variable {described : Layout} {P : ε → Prop} {level region i : Nat} {entry : ε}

/-- A frame the layout describes is reached as the table of its own region or not at all. -/
theorem reach_eq (htree : Tree format described memory top root P)
    (hdescribed : described level region = some frame) {d : Nat} (hd : d ≤ top)
    (hreach : reach format memory top root d r = some frame) : d = top - level ∧ r = region := by
  obtain ⟨hlevel, hregion⟩ := htree.disjoint _ _ _ _ _ (htree.sound d hd r frame hreach) hdescribed
  omega

theorem of_reach_eq (htree : Tree format described memory top root P)
    (hreach : ∀ depth ≤ top, ∀ r, reach format memory' top root depth r =
      reach format memory top root depth r)
    (hsame : ∀ depth < top, ∀ r f i, reach format memory top root depth r = some f → i < 512 →
      memory' f i = memory f i) : Tree format described memory' top root P where
  disjoint := htree.disjoint
  sound depth hdepth r f hf := htree.sound depth hdepth r f (by rw [← hreach depth hdepth, hf])
  entries depth hdepth r f i hf hi := by
    rw [hreach depth hdepth.le] at hf
    rw [hsame depth hdepth r f i hf hi]
    exact htree.entries depth hdepth r f i hf hi

/-- A frame that is no table is free to change. -/
theorem reach_fill (htree : Tree format described memory top root P)
    (hfresh : ∀ l r, described l r ≠ some frame) {table : Nat → ε} (hdepth : depth ≤ top) (r : Nat) :
    reach format (memory.fill frame table) top root depth r =
      reach format memory top root depth r := by
  refine reach_congr (fun d hd r f i hf _ => ?_) r
  refine Frames.fill_of_ne fun heq => ?_
  exact hfresh _ _ (heq ▸ htree.sound d (by omega) r f hf)

theorem fill (htree : Tree format described memory top root P)
    (hfresh : ∀ l r, described l r ≠ some frame) (hnone : described level region = none)
    {table : Nat → ε} :
    Tree format (described.extend level region frame) (memory.fill frame table) top root P := by
  have hkept : Tree format described (memory.fill frame table) top root P :=
    htree.of_reach_eq (fun depth hdepth r => htree.reach_fill hfresh hdepth r)
      fun depth hdepth r f i hf _ => Frames.fill_of_ne fun heq =>
        hfresh _ _ (heq ▸ htree.sound depth hdepth.le r f hf)
  exact
    { disjoint := htree.disjoint.extend hfresh
      sound := fun depth hdepth r f hf =>
        Layout.extend_of_some hnone (hkept.sound depth hdepth r f hf)
      entries := hkept.entries }

theorem reach_set_leaf (htree : Tree format described memory top root P)
    (hdescribed : described 0 region = some frame) (hdepth : depth ≤ top) (r : Nat) :
    reach format (memory.set frame i entry) top root depth r =
      reach format memory top root depth r := by
  refine reach_congr (fun d hd r f j hf _ => ?_) r
  refine Frames.set_of_frame_ne fun heq => ?_
  have := (htree.reach_eq hdescribed (by omega) (heq ▸ hf)).1
  omega

/-- The entries of the last tables are of any kind. -/
theorem set_leaf (htree : Tree format described memory top root P)
    (hdescribed : described 0 region = some frame) :
    Tree format described (memory.set frame i entry) top root P := by
  refine htree.of_reach_eq (fun depth hdepth r => htree.reach_set_leaf hdescribed hdepth r) ?_
  intro depth hdepth r f j hf _
  refine Frames.set_of_frame_ne fun heq => ?_
  have := (htree.reach_eq hdescribed hdepth.le (heq ▸ hf)).1
  omega

theorem ne_of_unreached (htree : Tree format described memory top root P)
    (hdescribed : described level region = some frame)
    (hunreached : reach format memory top root (top - level) region ≠ some frame) {d f : Nat}
    (hd : d ≤ top) (hreach : reach format memory top root d r = some f) : f ≠ frame := by
  intro heq
  subst heq
  obtain ⟨rfl, rfl⟩ := htree.reach_eq hdescribed hd hreach
  exact hunreached hreach

theorem reach_set_unreached (htree : Tree format described memory top root P)
    (hdescribed : described level region = some frame)
    (hunreached : reach format memory top root (top - level) region ≠ some frame)
    (hdepth : depth ≤ top) (r : Nat) :
    reach format (memory.set frame i entry) top root depth r =
      reach format memory top root depth r := by
  refine reach_congr (fun d hd r f j hf _ => ?_) r
  exact Frames.set_of_frame_ne (htree.ne_of_unreached hdescribed hunreached (by omega) hf)

theorem set_unreached (htree : Tree format described memory top root P)
    (hdescribed : described level region = some frame)
    (hunreached : reach format memory top root (top - level) region ≠ some frame) :
    Tree format described (memory.set frame i entry) top root P :=
  htree.of_reach_eq
    (fun _ hdepth r => htree.reach_set_unreached hdescribed hunreached hdepth r)
    fun _ hdepth _ _ _ hf _ =>
      Frames.set_of_frame_ne (htree.ne_of_unreached hdescribed hunreached hdepth.le hf)

section Link

variable {child : Nat}

theorem reach_set_link (htree : Tree format described memory top root P) (hlevel : level < top)
    (hdescribed : described (level + 1) region = some frame)
    (hreached : reach format memory top root (top - (level + 1)) region = some frame)
    (hchild : described level (512 * region + i) = some child) (hi : i < 512)
    (hnone : reach format memory top root (top - level) (512 * region + i) = none)
    (htable : format.isTable (level + 1) entry = true) (hentry : format.child entry = child)
    (hempty : level ≠ 0 → ∀ j < 512, format.isTable level (memory child j) = false)
    (hdepth : depth ≤ top) (r : Nat) :
    reach format (memory.set frame i entry) top root depth r =
      if depth = top - level ∧ r = 512 * region + i then some child
      else reach format memory top root depth r := by
  have hdown : top - level = top - (level + 1) + 1 := by omega
  have hne : child ≠ frame := by
    intro heq
    have := (htree.disjoint _ _ _ _ _ (heq ▸ hchild) hdescribed).1
    omega
  have hold : format.isTable (top - (top - (level + 1))) (memory frame i) = false := by
    rw [hdown, reach_succ_of_some
      (by rw [show (512 * region + i) / 512 = region by omega, hreached])] at hnone
    rw [show (512 * region + i) % 512 = i by omega] at hnone
    simpa using hnone
  rw [hdown]
  refine reach_link hreached hi (fun d hd r hr => ?_) hold ?_ ?_ ?_ ?_ r
  · exact htree.reach_eq hdescribed (by omega) hr
  · rw [Frames.set_self, show top - (top - (level + 1)) = level + 1 by omega]
    exact htable
  · rw [Frames.set_self, hentry]
  · intro hbelow j hj
    rw [Frames.set_of_frame_ne hne, show top - (top - (level + 1) + 1) = level by omega]
    exact hempty (by omega) j hj
  · intro d _ r g j _ _ hwritten
    exact Frames.set_of_ne hwritten

theorem link (htree : Tree format described memory top root P) (hlevel : level < top)
    (hdescribed : described (level + 1) region = some frame)
    (hreached : reach format memory top root (top - (level + 1)) region = some frame)
    (hchild : described level (512 * region + i) = some child) (hi : i < 512)
    (hnone : reach format memory top root (top - level) (512 * region + i) = none)
    (htable : format.isTable (level + 1) entry = true) (hentry : format.child entry = child)
    (hempty : level ≠ 0 → ∀ j < 512, format.isTable level (memory child j) = false)
    (hkind : P entry) (hkinds : level ≠ 0 → ∀ j < 512, P (memory child j)) :
    Tree format described (memory.set frame i entry) top root P := by
  have hne : child ≠ frame := by
    intro heq
    have := (htree.disjoint _ _ _ _ _ (heq ▸ hchild) hdescribed).1
    omega
  have hreach := @reach_set_link ε format memory top root
  refine ⟨htree.disjoint, fun depth hdepth r f hf => ?_, fun depth hdepth r f j hf hj => ?_⟩
  · rw [hreach htree hlevel hdescribed hreached hchild hi hnone htable hentry hempty hdepth] at hf
    split at hf
    · rename_i heq
      obtain ⟨rfl, rfl⟩ := heq
      rw [show top - (top - level) = level by omega, hchild, ← hf]
    · exact htree.sound depth hdepth r f hf
  · rw [hreach htree hlevel hdescribed hreached hchild hi hnone htable hentry hempty hdepth.le] at hf
    split at hf
    · rename_i heq
      obtain ⟨rfl, -⟩ := heq
      obtain rfl := Option.some.inj hf
      rw [Frames.set_of_frame_ne hne]
      exact hkinds (by omega) j hj
    · by_cases hwritten : f = frame ∧ j = i
      · obtain ⟨rfl, rfl⟩ := hwritten
        rw [Frames.set_self]
        exact hkind
      · rw [Frames.set_of_ne hwritten]
        exact htree.entries depth hdepth r f j hf hj

end Link

end Tree

end Radix
