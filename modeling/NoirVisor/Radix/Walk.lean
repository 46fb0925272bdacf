import Mathlib.Data.Nat.Basic
import Mathlib.Tactic.Ring

/-!
# Radix page tables

A tree of 512-entry tables laid out in page frames, and the walk a processor makes through it. The
levels count up from 0, the table of 4 KiB pages. The part of the address space below one table of
level `level` is a region; the entries of that table are numbered by the regions one level down.

A manager of such tables knows which frame holds the table of which region, its layout. Everything
below is about one question: given the layout, which walks can a change of memory affect.
-/

namespace Radix

/-- Memory as the tables see it: the entries of each page frame. -/
abbrev Frames (ε : Type) := Nat → Nat → ε

/-- How a walk reads the entries of one kind of table. -/
structure Format (ε : Type) where
  present : ε → Bool
  leaf : Nat → ε → Bool
  child : ε → Nat

/-- Which frame holds the table of a region, by level. -/
abbrev Layout := Nat → Nat → Option Nat

variable {ε : Type}

def Frames.set (memory : Frames ε) (frame index : Nat) (entry : ε) : Frames ε :=
  fun f i => if f = frame ∧ i = index then entry else memory f i

def Frames.fill (memory : Frames ε) (frame : Nat) (table : Nat → ε) : Frames ε :=
  fun f i => if f = frame then table i else memory f i

@[simp]
theorem Frames.set_self (memory : Frames ε) (frame index : Nat) (entry : ε) :
    memory.set frame index entry frame index = entry := by
  simp [Frames.set]

theorem Frames.set_of_ne {memory : Frames ε} {frame index f i : Nat} {entry : ε}
    (hne : ¬(f = frame ∧ i = index)) : memory.set frame index entry f i = memory f i := by
  simp [Frames.set, hne]

theorem Frames.set_of_frame_ne {memory : Frames ε} {frame index f i : Nat} {entry : ε}
    (hne : f ≠ frame) : memory.set frame index entry f i = memory f i :=
  Frames.set_of_ne fun h => hne h.1

@[simp]
theorem Frames.set_set (memory : Frames ε) (frame index : Nat) (entry entry' : ε) :
    (memory.set frame index entry).set frame index entry' = memory.set frame index entry' := by
  funext f i
  unfold Frames.set
  split <;> rfl

theorem Frames.set_comm {memory : Frames ε} {frame index frame' index' : Nat} {entry entry' : ε}
    (hne : frame ≠ frame') :
    (memory.set frame index entry).set frame' index' entry' =
      (memory.set frame' index' entry').set frame index entry := by
  funext f i
  unfold Frames.set
  split
  · rename_i hwritten
    rw [if_neg fun h => hne (h.1.symm.trans hwritten.1)]
  · rfl

theorem Frames.fill_set_comm {memory : Frames ε} {frame frame' index : Nat} {entry : ε}
    {table : Nat → ε} (hne : frame ≠ frame') :
    (memory.set frame index entry).fill frame' table =
      (memory.fill frame' table).set frame index entry := by
  funext f i
  unfold Frames.set Frames.fill
  split
  · rename_i heq
    rw [if_neg fun h => hne (h.1.symm.trans heq)]
  · rfl

@[simp]
theorem Frames.fill_self (memory : Frames ε) (frame index : Nat) (table : Nat → ε) :
    memory.fill frame table frame index = table index := by
  simp [Frames.fill]

theorem Frames.fill_of_ne {memory : Frames ε} {frame f i : Nat} {table : Nat → ε}
    (hne : f ≠ frame) : memory.fill frame table f i = memory f i := by
  simp [Frames.fill, hne]

/-- The number of the region of size `2 ^ (12 + 9 * level)` an address lies in. -/
def region (level address : Nat) : Nat := address / 2 ^ (12 + 9 * level)

def index (level address : Nat) : Nat := region level address % 512

theorem index_lt (level address : Nat) : index level address < 512 :=
  Nat.mod_lt _ (by decide)

theorem region_succ (level address : Nat) :
    region (level + 1) address = region level address / 512 := by
  unfold region
  rw [Nat.div_div_eq_div_mul, show 12 + 9 * (level + 1) = 12 + 9 * level + 9 from rfl, pow_add]
  rfl

theorem region_div_pow (level address k : Nat) :
    region level address / 512 ^ k = region (level + k) address := by
  unfold region
  rw [Nat.div_div_eq_div_mul, show (512 : Nat) = 2 ^ 9 from rfl, ← pow_mul, ← pow_add,
    show 12 + 9 * level + 9 * k = 12 + 9 * (level + k) by omega]

/-- Addresses of one page are in the same regions. -/
theorem region_congr {address other : Nat} (hpage : region 0 address = region 0 other) (level : Nat) :
    region level address = region level other := by
  have hregion : ∀ a, region 0 a / 512 ^ level = region level a := by
    intro a
    rw [region_div_pow, Nat.zero_add]
  rw [← hregion, hpage, hregion]

theorem region_eq (level address : Nat) :
    region level address = 512 * region (level + 1) address + index level address := by
  rw [region_succ, index]
  omega

/-- The entries a walk passes on its way down, and the one it ends at. -/
structure Walk (ε : Type) where
  above : List ε
  leaf : ε
  level : Nat
deriving DecidableEq

def Walk.entries (walk : Walk ε) : List ε := walk.above ++ [walk.leaf]

def Walk.under (entry : ε) (walk : Walk ε) : Walk ε :=
  { walk with above := entry :: walk.above }

@[simp]
theorem Walk.leaf_under (entry : ε) (walk : Walk ε) : (walk.under entry).leaf = walk.leaf := rfl

@[simp]
theorem Walk.level_under (entry : ε) (walk : Walk ε) : (walk.under entry).level = walk.level := rfl

@[simp]
theorem Walk.entries_under (entry : ε) (walk : Walk ε) :
    (walk.under entry).entries = entry :: walk.entries := rfl

variable (format : Format ε)

def Format.isTable (level : Nat) (entry : ε) : Bool :=
  !format.leaf level entry && format.present entry

/-- The walk of an address from a table. It stops at the first entry that maps a page, whether or
not that entry is present, and has no result when an entry above is absent. -/
def walk (memory : Frames ε) : (level frame address : Nat) → Option (Walk ε)
  | 0, frame, address => some ⟨[], memory frame (index 0 address), 0⟩
  | level + 1, frame, address =>
      let entry := memory frame (index (level + 1) address)
      if format.leaf (level + 1) entry then
        some ⟨[], entry, level + 1⟩
      else if format.present entry then
        (walk memory level (format.child entry) address).map (Walk.under entry)
      else
        none

section Steps

variable {format} {memory : Frames ε} {level frame address : Nat}

theorem walk_succ_of_leaf
    (hleaf : format.leaf (level + 1) (memory frame (index (level + 1) address)) = true) :
    walk format memory (level + 1) frame address =
      some ⟨[], memory frame (index (level + 1) address), level + 1⟩ := by
  simp [walk, hleaf]

theorem walk_succ_of_table
    (hleaf : format.leaf (level + 1) (memory frame (index (level + 1) address)) = false)
    (hpresent : format.present (memory frame (index (level + 1) address)) = true) :
    walk format memory (level + 1) frame address =
      (walk format memory level (format.child (memory frame (index (level + 1) address)))
        address).map (Walk.under (memory frame (index (level + 1) address))) := by
  simp [walk, hleaf, hpresent]

theorem walk_succ_of_absent
    (hleaf : format.leaf (level + 1) (memory frame (index (level + 1) address)) = false)
    (hpresent : format.present (memory frame (index (level + 1) address)) = false) :
    walk format memory (level + 1) frame address = none := by
  simp [walk, hleaf, hpresent]

end Steps

/-- Every table entry points to the frame the layout has for the region below it. -/
def Linked (layout : Layout) (memory : Frames ε) : Prop :=
  ∀ level region frame index, layout (level + 1) region = some frame → index < 512 →
    format.isTable (level + 1) (memory frame index) = true →
    layout level (512 * region + index) = some (format.child (memory frame index))

/-- No frame holds two tables. -/
def Disjoint (layout : Layout) : Prop :=
  ∀ level region level' region' frame, layout level region = some frame →
    layout level' region' = some frame → level = level' ∧ region = region'

/-- A layout with one more table. -/
def Layout.extend (layout : Layout) (level region frame : Nat) : Layout :=
  fun l r => if l = level ∧ r = region then some frame else layout l r

section Congruence

variable {format} {layout : Layout} {memory memory' : Frames ε}

/-- A walk depends on nothing but the entries for its own address in the tables of the layout. -/
theorem walk_congr {level frame address : Nat} (hlinked : Linked format layout memory)
    (hroot : layout level (region (level + 1) address) = some frame)
    (hsame : ∀ l ≤ level, ∀ f, layout l (region (l + 1) address) = some f →
      memory' f (index l address) = memory f (index l address)) :
    walk format memory' level frame address = walk format memory level frame address := by
  induction level generalizing frame with
  | zero => simp [walk, hsame 0 le_rfl frame hroot]
  | succ level ih =>
      simp only [walk]
      rw [hsame (level + 1) le_rfl frame hroot]
      split
      · rfl
      · rename_i hleaf
        split
        · rename_i hpresent
          have hchild := hlinked level (region (level + 1 + 1) address) frame
            (index (level + 1) address) hroot (index_lt _ _)
            (by simp only [Format.isTable]; simp [hleaf, hpresent])
          rw [← region_eq] at hchild
          rw [ih hchild fun l hl f hf => hsame l (by omega) f hf]
        · rfl

/-- What holds of the entries for an address holds of those on its walk. -/
theorem walk_forall_at {P : Nat → ε → Prop} {level frame address : Nat} {w : Walk ε}
    (hlinked : Linked format layout memory)
    (hroot : layout level (region (level + 1) address) = some frame)
    (hentries : ∀ l f, layout l (region (l + 1) address) = some f → P l (memory f (index l address)))
    (hwalk : walk format memory level frame address = some w) :
    ∀ i (h : i < w.entries.length), P (level - i) w.entries[i] := by
  induction level generalizing frame w with
  | zero =>
      obtain rfl := Option.some.inj hwalk
      intro i hi
      obtain rfl : i = 0 := by simpa [Walk.entries] using hi
      exact hentries 0 frame hroot
  | succ level ih =>
      have hentry := hentries (level + 1) frame hroot
      simp only [walk] at hwalk
      split at hwalk
      · obtain rfl := Option.some.inj hwalk
        intro i hi
        obtain rfl : i = 0 := by simpa [Walk.entries] using hi
        exact hentry
      · rename_i hleaf
        split at hwalk
        · rename_i hpresent
          obtain ⟨below, hbelow, rfl⟩ := Option.map_eq_some_iff.mp hwalk
          have hchild := hlinked level _ frame _ hroot (index_lt (level + 1) address)
            (by simp only [Format.isTable]; simp [hleaf, hpresent])
          rw [← region_eq] at hchild
          intro i hi
          cases i with
          | zero => exact hentry
          | succ i =>
              have hrest := ih hchild hbelow i (by simpa [Walk.entries_under] using hi)
              simpa [Walk.entries_under] using hrest
        · cases hwalk

/-- What holds of the entries of every table, by level, holds of the entries on a walk. -/
theorem walk_forall {P : Nat → ε → Prop} {level frame address : Nat} {w : Walk ε}
    (hlinked : Linked format layout memory)
    (hroot : layout level (region (level + 1) address) = some frame)
    (hentries : ∀ l r f i, layout l r = some f → i < 512 → P l (memory f i))
    (hwalk : walk format memory level frame address = some w) :
    ∀ i (h : i < w.entries.length), P (level - i) w.entries[i] :=
  walk_forall_at hlinked hroot (fun l f hf => hentries l _ f _ hf (index_lt l address)) hwalk

/-- Present entries let a walk through. -/
theorem exists_walk {level frame address : Nat} (hlinked : Linked format layout memory)
    (hroot : layout level (region (level + 1) address) = some frame)
    (hpresent : ∀ l f, layout l (region (l + 1) address) = some f →
      format.present (memory f (index l address)) = true) :
    ∃ w, walk format memory level frame address = some w := by
  induction level generalizing frame with
  | zero => exact ⟨_, rfl⟩
  | succ level ih =>
      cases hleaf : format.leaf (level + 1) (memory frame (index (level + 1) address)) with
      | true => exact ⟨_, walk_succ_of_leaf hleaf⟩
      | false =>
          have hentry := hpresent (level + 1) frame hroot
          have hchild := hlinked level _ frame _ hroot (index_lt (level + 1) address)
            (by simp only [Format.isTable]; simp [hleaf, hentry])
          rw [← region_eq] at hchild
          obtain ⟨w, hw⟩ := ih hchild
          rw [walk_succ_of_table hleaf hentry, hw]
          exact ⟨_, rfl⟩

/-- Where a walk ends and what it passed: the leaf is the entry for the address in its table, and so
is the table entry at each level above. -/
theorem walk_location {level frame address : Nat} {w : Walk ε}
    (hlinked : Linked format layout memory)
    (hroot : layout level (region (level + 1) address) = some frame)
    (hwalk : walk format memory level frame address = some w) :
    w.level ≤ level ∧
      (∃ f, layout w.level (region (w.level + 1) address) = some f ∧
        w.leaf = memory f (index w.level address)) ∧
      (w.level = 0 ∨ format.leaf w.level w.leaf = true) ∧
      ∀ l, w.level < l → l ≤ level → ∃ f, layout l (region (l + 1) address) = some f ∧
        format.isTable l (memory f (index l address)) = true := by
  induction level generalizing frame w with
  | zero =>
      obtain rfl := Option.some.inj hwalk
      exact ⟨le_rfl, ⟨frame, hroot, rfl⟩, Or.inl rfl, fun l hlt hle => absurd hle hlt.not_ge⟩
  | succ level ih =>
      simp only [walk] at hwalk
      split at hwalk
      · rename_i hleaf
        obtain rfl := Option.some.inj hwalk
        exact ⟨le_rfl, ⟨frame, hroot, rfl⟩, Or.inr hleaf, fun l hlt hle => absurd hle hlt.not_ge⟩
      · rename_i hleaf
        split at hwalk
        · rename_i hpresent
          obtain ⟨below, hbelow, rfl⟩ := Option.map_eq_some_iff.mp hwalk
          have htable : format.isTable (level + 1)
              (memory frame (index (level + 1) address)) = true := by
            simp only [Format.isTable]
            simp [hleaf, hpresent]
          have hchild := hlinked level _ frame _ hroot (index_lt (level + 1) address) htable
          rw [← region_eq] at hchild
          obtain ⟨hle, hentry, hend, habove⟩ := ih hchild hbelow
          refine ⟨by simp only [Walk.level_under]; omega, hentry, hend, fun l hlt hl => ?_⟩
          by_cases htop : l = level + 1
          · subst htop
            exact ⟨frame, hroot, htable⟩
          · exact habove l hlt (by omega)
        · cases hwalk

/-- Writing one entry affects only the addresses of the region that entry stands for. -/
theorem walk_set_of_ne {level frame address l r f i : Nat} {entry : ε}
    (hlinked : Linked format layout memory) (hdisjoint : Disjoint layout)
    (hroot : layout level (region (level + 1) address) = some frame)
    (htable : layout l r = some f) (hne : region l address ≠ 512 * r + i) :
    walk format (memory.set f i entry) level frame address =
      walk format memory level frame address := by
  refine walk_congr hlinked hroot fun l' _ f' hf' => ?_
  refine Frames.set_of_ne fun ⟨hframe, hindex⟩ => ?_
  subst hframe
  obtain ⟨rfl, rfl⟩ := hdisjoint _ _ _ _ _ hf' htable
  exact hne (by rw [region_eq, hindex])

/-- Writing above the table a walk starts from does not affect it. -/
theorem walk_set_of_lt {level frame address l r f i : Nat} {entry : ε}
    (hlinked : Linked format layout memory) (hdisjoint : Disjoint layout)
    (hroot : layout level (region (level + 1) address) = some frame)
    (htable : layout l r = some f) (hlt : level < l) :
    walk format (memory.set f i entry) level frame address =
      walk format memory level frame address := by
  refine walk_congr hlinked hroot fun l' hl' f' hf' => ?_
  refine Frames.set_of_frame_ne fun hframe => ?_
  subst hframe
  have := (hdisjoint _ _ _ _ _ hf' htable).1
  omega

theorem Linked.set {l r f i : Nat} {entry : ε} (hlinked : Linked format layout memory)
    (hdisjoint : Disjoint layout) (htable : layout l r = some f)
    (hentry : ∀ l', l = l' + 1 → format.isTable l entry = true →
      layout l' (512 * r + i) = some (format.child entry)) :
    Linked format layout (memory.set f i entry) := by
  intro level region frame index hframe hindex hisTable
  by_cases hwritten : frame = f ∧ index = i
  · obtain ⟨rfl, rfl⟩ := hwritten
    obtain ⟨rfl, rfl⟩ := hdisjoint _ _ _ _ _ hframe htable
    rw [Frames.set_self] at hisTable ⊢
    exact hentry level rfl hisTable
  · rw [Frames.set_of_ne hwritten] at hisTable ⊢
    exact hlinked level region frame index hframe hindex hisTable

theorem Layout.extend_self (layout : Layout) (l r f : Nat) : layout.extend l r f l r = some f := by
  simp [Layout.extend]

theorem Layout.extend_of_ne {l r f l' r' : Nat} (hne : ¬(l' = l ∧ r' = r)) :
    layout.extend l r f l' r' = layout l' r' := by
  simp [Layout.extend, hne]

theorem Layout.extend_of_some {l r f l' r' f' : Nat} (hnone : layout l r = none)
    (hsome : layout l' r' = some f') : layout.extend l r f l' r' = some f' := by
  rw [Layout.extend_of_ne, hsome]
  rintro ⟨rfl, rfl⟩
  rw [hnone] at hsome
  cases hsome

theorem Disjoint.extend {l r f : Nat} (hdisjoint : Disjoint layout)
    (hfresh : ∀ l' r', layout l' r' ≠ some f) : Disjoint (layout.extend l r f) := by
  intro level region level' region' frame hleft hright
  simp only [Layout.extend] at hleft hright
  split at hleft <;> split at hright
  · omega
  · rw [Option.some.inj hleft] at hfresh
    exact absurd hright (hfresh _ _)
  · rw [Option.some.inj hright] at hfresh
    exact absurd hleft (hfresh _ _)
  · exact hdisjoint _ _ _ _ _ hleft hright

/-- A new table in an unused frame, none of whose entries points to a table. -/
theorem Linked.extend {l r f : Nat} {table : Nat → ε} (hlinked : Linked format layout memory)
    (hnone : layout l r = none) (hfresh : ∀ l' r', layout l' r' ≠ some f)
    (hleaf : ∀ l', l = l' + 1 → ∀ i < 512, format.isTable l (table i) = false) :
    Linked format (layout.extend l r f) (memory.fill f table) := by
  intro level region frame index hframe hindex htable
  simp only [Layout.extend] at hframe
  split at hframe
  · rename_i heq
    obtain ⟨rfl, rfl⟩ := heq
    obtain rfl := Option.some.inj hframe
    rw [Frames.fill_self, hleaf level rfl index hindex] at htable
    exact absurd htable (by decide)
  · have hne : frame ≠ f := fun heq => hfresh _ _ (heq ▸ hframe)
    rw [Frames.fill_of_ne hne] at htable ⊢
    exact Layout.extend_of_some hnone (hlinked _ _ _ _ hframe hindex htable)

end Congruence

end Radix
