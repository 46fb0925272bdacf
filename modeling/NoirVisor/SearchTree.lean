import Mathlib.Data.List.Induction
import Mathlib.Data.List.Sort
import Mathlib.Order.Lattice
import Mathlib.Tactic.Common

/-!
# Search trees that store their heights

The in-order sequence of a tree tells what it holds. Insertion at a leaf, without any rotation, adds
one key to it and at most one level to the tree.
-/

inductive HeightTree (α : Type) where
  | null
  | node (left : HeightTree α) (key : α) (right : HeightTree α) (height : Int)
deriving DecidableEq

namespace HeightTree

variable {α : Type}

/-- As stored. -/
def height : HeightTree α → Int
  | null => 0
  | node _ _ _ height => height

def depth : HeightTree α → Int
  | null => 0
  | node left _ right _ => max right.depth left.depth + 1

def inorder : HeightTree α → List α
  | null => []
  | node left key right _ => left.inorder ++ key :: right.inorder

/-- Every height is the depth of its tree. -/
def Exact : HeightTree α → Prop
  | null => True
  | node left _ right height =>
    left.Exact ∧ right.Exact ∧ height = max right.depth left.depth + 1

/-- The depths of two siblings are at most one apart. -/
def Balanced : HeightTree α → Prop
  | null => True
  | node left _ right _ =>
    left.Balanced ∧ right.Balanced ∧ right.depth ≤ left.depth + 1 ∧ left.depth ≤ right.depth + 1

instance decidableBalanced : (t : HeightTree α) → Decidable t.Balanced
  | null => isTrue trivial
  | node left _ right _ =>
    have := decidableBalanced left
    have := decidableBalanced right
    inferInstanceAs (Decidable (_ ∧ _ ∧ _ ∧ _))

def leaf (key : α) : HeightTree α := node null key null 1

/-- The height of a root, from those stored in its children. -/
def reset : HeightTree α → HeightTree α
  | null => null
  | node left key right _ => node left key right (max right.height left.height + 1)

theorem Exact.height {t : HeightTree α} (h : t.Exact) : t.height = t.depth := by
  cases t with
  | null => rfl
  | node left key right height => exact h.2.2

@[simp]
theorem inorder_reset (t : HeightTree α) : t.reset.inorder = t.inorder := by
  cases t <;> rfl

@[simp]
theorem depth_reset (t : HeightTree α) : t.reset.depth = t.depth := by
  cases t <;> rfl

theorem balanced_reset {t : HeightTree α} : t.reset.Balanced ↔ t.Balanced := by
  cases t <;> rfl

theorem exact_reset {left right : HeightTree α} {key : α} {height : Int} (hleft : left.Exact)
    (hright : right.Exact) : (node left key right height).reset.Exact := by
  refine ⟨hleft, hright, ?_⟩
  rw [hleft.height, hright.height]

section

variable (below : α → α → Prop) [DecidableRel below] (side : α → Int)

/-- Where a search that goes left below the keys ends. -/
def graftBy (item : α) : HeightTree α → HeightTree α
  | null => leaf item
  | node left key right height =>
    if below item key then (node (graftBy item left) key right height).reset
    else (node left key (graftBy item right) height).reset

/-- The side says where to go on from a key, and 0 that the search is over. -/
def search : HeightTree α → Option α
  | null => none
  | node left key right _ =>
    if side key = 0 then some key
    else if side key < 0 then search left
    else search right

variable {below side} {item key : α} {t left right : HeightTree α} {height : Int}

theorem graftBy_of_below (h : below item key) :
    (node left key right height).graftBy below item =
      (node (left.graftBy below item) key right height).reset :=
  if_pos h

theorem graftBy_of_not_below (h : ¬below item key) :
    (node left key right height).graftBy below item =
      (node left key (right.graftBy below item) height).reset :=
  if_neg h

theorem Exact.graftBy (h : t.Exact) (item : α) : (t.graftBy below item).Exact := by
  induction t with
  | null => exact ⟨trivial, trivial, rfl⟩
  | node left key right height ihleft ihright =>
    obtain ⟨hleft, hright, -⟩ := h
    by_cases hbelow : below item key
    · rw [graftBy_of_below hbelow]
      exact exact_reset (ihleft hleft) hright
    · rw [graftBy_of_not_below hbelow]
      exact exact_reset hleft (ihright hright)

theorem graftBy_congr {below' : α → α → Prop} [DecidableRel below'] (item : α)
    (h : ∀ key, below item key ↔ below' item key) :
    t.graftBy below item = t.graftBy below' item := by
  induction t with
  | null => rfl
  | node left key right height ihleft ihright =>
    rw [graftBy, graftBy, ihleft, ihright, if_congr (h key) rfl rfl]

theorem mem_inorder_node {k : α} : k ∈ (node left key right height).inorder ↔
    k ∈ left.inorder ∨ k = key ∨ k ∈ right.inorder := by
  rw [inorder, List.mem_append, List.mem_cons]

theorem mem_inorder_graftBy {k : α} :
    k ∈ (t.graftBy below item).inorder ↔ k = item ∨ k ∈ t.inorder := by
  induction t with
  | null => simp [HeightTree.graftBy, leaf, inorder]
  | node left key right height ihleft ihright =>
    by_cases hbelow : below item key
    · rw [graftBy_of_below hbelow, inorder_reset, mem_inorder_node, mem_inorder_node, ihleft,
        or_assoc]
    · rw [graftBy_of_not_below hbelow, inorder_reset, mem_inorder_node, mem_inorder_node, ihright]
      tauto

@[simp]
theorem search_reset : t.reset.search side = t.search side := by
  cases t <;> rfl

theorem side_of_search_eq_some (h : t.search side = some key) :
    side key = 0 ∧ key ∈ t.inorder := by
  induction t with
  | null => cases h
  | node left k right height ihleft ihright =>
    unfold search at h
    split_ifs at h with hzero hneg
    · cases h
      exact ⟨hzero, mem_inorder_node.mpr (.inr (.inl rfl))⟩
    · obtain ⟨hside, hmem⟩ := ihleft h
      exact ⟨hside, mem_inorder_node.mpr (.inl hmem)⟩
    · obtain ⟨hside, hmem⟩ := ihright h
      exact ⟨hside, mem_inorder_node.mpr (.inr (.inr hmem))⟩

/-- No key leads the search for what the item accepts away from the item. -/
def Leads (below : α → α → Prop) (side : α → Int) (item key : α) : Prop :=
  (side key < 0 → below item key) ∧ (side key > 0 → ¬below item key)

theorem search_graftBy_of_side_ne_zero (h : side item ≠ 0) :
    (t.graftBy below item).search side = t.search side := by
  have hleaf : (leaf item).search side = none := by
    simp [leaf, search, h]
  induction t with
  | null => exact hleaf
  | node left key right height ihleft ihright =>
    by_cases hbelow : below item key
    · rw [graftBy_of_below hbelow, search_reset, search, search, ihleft]
    · rw [graftBy_of_not_below hbelow, search_reset, search, search, ihright]

/-- What the item accepts is found there, unless another key has accepted it before. -/
theorem search_graftBy_of_side_eq_zero (h : side item = 0)
    (hleads : ∀ key ∈ t.inorder, Leads below side item key) :
    (t.graftBy below item).search side = (t.search side).or (some item) := by
  induction t with
  | null => simp [graftBy, leaf, search, h]
  | node left key right height ihleft ihright =>
    have hkey := hleads key (mem_inorder_node.mpr (.inr (.inl rfl)))
    have ihleft := ihleft fun k hk => hleads k (mem_inorder_node.mpr (.inl hk))
    have ihright := ihright fun k hk => hleads k (mem_inorder_node.mpr (.inr (.inr hk)))
    rcases lt_trichotomy (side key) 0 with hneg | hzero | hpos
    · rw [graftBy_of_below (hkey.1 hneg), search_reset, search, search, if_neg hneg.ne,
        if_pos hneg, if_neg hneg.ne, if_pos hneg, ihleft]
    · by_cases hbelow : below item key
      · rw [graftBy_of_below hbelow, search_reset, search, search, if_pos hzero, if_pos hzero]
        rfl
      · rw [graftBy_of_not_below hbelow, search_reset, search, search, if_pos hzero, if_pos hzero]
        rfl
    · rw [graftBy_of_not_below (hkey.2 hpos), search_reset, search, search, if_neg hpos.ne',
        if_neg hpos.not_gt, if_neg hpos.ne', if_neg hpos.not_gt, ihright]

theorem mem_of_mem_foldl_graftBy {items : List α} {k : α}
    (h : k ∈ (items.foldl (fun t item => t.graftBy below item) null).inorder) : k ∈ items := by
  induction items using List.reverseRecOn with
  | nil => exact h
  | append_singleton items item ih =>
    rw [List.foldl_concat, mem_inorder_graftBy] at h
    rcases h with rfl | h
    · exact List.mem_append_right _ List.mem_cons_self
    · exact List.mem_append_left _ (ih h)

/-- In a tree that was never rotated, the key that accepts is the first one put there. -/
theorem search_foldl_graftBy {items : List α}
    (hleads : ∀ item ∈ items, side item = 0 → ∀ key ∈ items, Leads below side item key) :
    (items.foldl (fun t item => t.graftBy below item) null).search side =
      items.find? fun item => side item = 0 := by
  induction items using List.reverseRecOn with
  | nil => rfl
  | append_singleton items item ih =>
    have hbefore : ∀ k ∈ items, k ∈ items ++ [item] := fun k hk => List.mem_append_left _ hk
    have hlast : item ∈ items ++ [item] := List.mem_append_right _ List.mem_cons_self
    have ih := ih fun k hk hzero k' hk' => hleads k (hbefore k hk) hzero k' (hbefore k' hk')
    rw [List.foldl_concat, List.find?_append, ← ih]
    by_cases hzero : side item = 0
    · have hleads : ∀ k ∈ (items.foldl (fun t item => t.graftBy below item) null).inorder,
          Leads below side item k := by
        intro k hk
        exact hleads item hlast hzero k (hbefore k (mem_of_mem_foldl_graftBy hk))
      rw [search_graftBy_of_side_eq_zero hzero hleads, List.find?_cons_of_pos (by simpa)]
    · rw [search_graftBy_of_side_ne_zero hzero, List.find?_cons_of_neg (by simpa), List.find?_nil,
        Option.or_none]

end

section

variable [LinearOrder α] {item : α} {t left right : HeightTree α} {key : α} {height : Int}

/-- Where a search for the item ends. -/
def graft (item : α) : HeightTree α → HeightTree α
  | null => leaf item
  | node left key right height =>
    if item < key then (node (graft item left) key right height).reset
    else (node left key (graft item right) height).reset

theorem graft_of_lt (h : item < key) :
    (node left key right height).graft item = (node (left.graft item) key right height).reset :=
  if_pos h

theorem graft_of_not_lt (h : ¬item < key) :
    (node left key right height).graft item = (node left key (right.graft item) height).reset :=
  if_neg h

theorem graft_eq_graftBy (t : HeightTree α) (item : α) :
    t.graft item = t.graftBy (· < ·) item := by
  induction t with
  | null => rfl
  | node left key right height ihleft ihright =>
    rw [graft, graftBy, ihleft, ihright]

theorem Exact.graft (h : t.Exact) (item : α) : (t.graft item).Exact := by
  rw [graft_eq_graftBy]
  exact h.graftBy item

theorem depth_graft (t : HeightTree α) (item : α) :
    t.depth ≤ (t.graft item).depth ∧ (t.graft item).depth ≤ t.depth + 1 := by
  induction t with
  | null => simp [HeightTree.graft, leaf, depth]
  | node left key right height ihleft ihright =>
    by_cases hlt : item < key
    · rw [graft_of_lt hlt, depth_reset]
      simp only [depth]
      omega
    · rw [graft_of_not_lt hlt, depth_reset]
      simp only [depth]
      omega

theorem orderedInsert_append_left {before after : List α} (h : item ≤ key) :
    (before ++ key :: after).orderedInsert (· ≤ ·) item =
      before.orderedInsert (· ≤ ·) item ++ key :: after := by
  induction before with
  | nil => simp [h]
  | cons first before ih =>
    by_cases hfirst : item ≤ first
    · simp [hfirst]
    · simp [hfirst, ih]

theorem orderedInsert_append_right {before after : List α} (h : ∀ k ∈ before, k < item)
    (hkey : key < item) :
    (before ++ key :: after).orderedInsert (· ≤ ·) item =
      before ++ key :: after.orderedInsert (· ≤ ·) item := by
  induction before with
  | nil => simp [not_le.mpr hkey]
  | cons first before ih =>
    have hfirst : ¬item ≤ first := not_le.mpr (h first List.mem_cons_self)
    simp [hfirst, ih fun k hk => h k (List.mem_cons_of_mem _ hk)]

/-- The keys grow from left to right. -/
def Ordered (t : HeightTree α) : Prop := t.inorder.Pairwise (· < ·)

theorem ordered_node : (node left key right height).Ordered ↔
    left.Ordered ∧ right.Ordered ∧ (∀ k ∈ left.inorder, k < key) ∧
      ∀ k ∈ right.inorder, key < k := by
  unfold Ordered
  rw [inorder, List.pairwise_append, List.pairwise_cons]
  constructor
  · rintro ⟨hleft, ⟨hkey, hright⟩, hacross⟩
    exact ⟨hleft, hright, fun k hk => hacross k hk key List.mem_cons_self, hkey⟩
  · rintro ⟨hleft, hright, hbelow, habove⟩
    refine ⟨hleft, ⟨habove, hright⟩, fun k hk k' hk' => ?_⟩
    rcases List.mem_cons.mp hk' with rfl | hk'
    · exact hbelow k hk
    · exact (hbelow k hk).trans (habove k' hk')

theorem orderedInsert_node_of_lt (h : item < key) :
    (node left key right height).inorder.orderedInsert (· ≤ ·) item =
      left.inorder.orderedInsert (· ≤ ·) item ++ key :: right.inorder :=
  orderedInsert_append_left h.le

theorem orderedInsert_node_of_gt (hordered : (node left key right height).Ordered)
    (h : key < item) :
    (node left key right height).inorder.orderedInsert (· ≤ ·) item =
      left.inorder ++ key :: right.inorder.orderedInsert (· ≤ ·) item := by
  have hbelow := (ordered_node.mp hordered).2.2.1
  exact orderedInsert_append_right (fun k hk => (hbelow k hk).trans h) h

/-- An insertion into a sorted sequence of other items leaves it sorted. -/
theorem pairwise_orderedInsert {keys : List α} (h : keys.Pairwise (· < ·)) (hitem : item ∉ keys) :
    (keys.orderedInsert (· ≤ ·) item).Pairwise (· < ·) := by
  have hsorted : (keys.orderedInsert (· ≤ ·) item).Pairwise (· ≤ ·) :=
    (h.imp le_of_lt).orderedInsert item keys
  have hnodup : (keys.orderedInsert (· ≤ ·) item).Nodup := by
    rw [(List.perm_orderedInsert (· ≤ ·) item keys).nodup_iff, List.nodup_cons]
    exact ⟨hitem, h.imp ne_of_lt⟩
  exact (hsorted.and hnodup).imp fun hboth => lt_of_le_of_ne hboth.1 hboth.2

end

end HeightTree
