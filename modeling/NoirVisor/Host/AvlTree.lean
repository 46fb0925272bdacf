import NoirVisor.SearchTree
import NoirVisor.Transition
import Mathlib.Tactic.Common

/-!
# AVL trees

The regions of I/O hooks are kept in search trees that are balanced by rotations.
-/

namespace NoirVisor

open HeightTree Transition

section

variable {α : Type}

def noirGetAvlBalanceFactor : HeightTree α → Int
  | .null => 0
  | .node left _ right _ => right.height - left.height

/-- Without a right child it dereferences a null pointer. -/
def noirRotlAvlNode : HeightTree α → Option (HeightTree α)
  | .node a x (.node t2 y c heightY) heightX =>
    let x := (HeightTree.node a x t2 heightX).reset
    some (HeightTree.node x y c heightY).reset
  | _ => none

/-- `x` has its height reset before `y`, which has become its child. -/
def noirRotrAvlNode : HeightTree α → Option (HeightTree α)
  | .node (.node a x t2 _) y c heightY =>
    some (.node a x (HeightTree.node t2 y c heightY).reset (max heightY a.height + 1))
  | _ => none

/-- What follows the insertion into a child. -/
def rebalanceAvlNode (compareResult : Int) (parent : HeightTree α) : Option (HeightTree α) :=
  let bf := noirGetAvlBalanceFactor parent
  if bf > 1 ∧ compareResult < 0 then noirRotlAvlNode parent
  else if bf < -1 ∧ compareResult > 0 then noirRotrAvlNode parent
  else if bf > 1 ∧ compareResult > 0 then
    match parent with
    | .null => none
    | .node left key right height =>
      (noirRotlAvlNode left).bind fun left => noirRotrAvlNode (.node left key right height)
  else if bf < -1 ∧ compareResult < 0 then
    match parent with
    | .null => none
    | .node left key right height =>
      (noirRotrAvlNode right).bind fun right => noirRotlAvlNode (.node left key right height)
  else some parent

/-- The node to insert has no children and a height of 1, as the callers prepare it. -/
def noirInsertAvlNode (compareFn : α → α → Int) (item : α) : HeightTree α → Option (HeightTree α)
  | .null => some (leaf item)
  | .node left key right height =>
    if compareFn item key < 0 then
      (noirInsertAvlNode compareFn item left).bind fun left =>
        rebalanceAvlNode (compareFn item key) (HeightTree.node left key right height).reset
    else
      (noirInsertAvlNode compareFn item right).bind fun right =>
        rebalanceAvlNode (compareFn item key) (HeightTree.node left key right height).reset

/-- The comparison is that of the item with the key of a node. -/
def noirSearchAvlNode {β : Type} (compareFn : α → β → Int) (item : β) (root : HeightTree α) :
    Option α :=
  root.search fun key => compareFn key item

variable {t t' left right : HeightTree α} {key : α} {height c : Int}

theorem noirRotlAvlNode_cases (h : noirRotlAvlNode (.node left key right height) = some t') :
    ∃ inner y outer heightY, right = .node inner y outer heightY ∧
      t' =
        (HeightTree.node (HeightTree.node left key inner height).reset y outer heightY).reset := by
  cases right with
  | null => cases h
  | node inner y outer heightY => exact ⟨inner, y, outer, heightY, rfl, (Option.some.inj h).symm⟩

theorem noirRotrAvlNode_cases (h : noirRotrAvlNode (.node left key right height) = some t') :
    ∃ outer x inner heightX, left = .node outer x inner heightX ∧
      t' = .node outer x (HeightTree.node inner key right height).reset
        (max height outer.height + 1) := by
  cases left with
  | null => cases h
  | node outer x inner heightX => exact ⟨outer, x, inner, heightX, rfl, (Option.some.inj h).symm⟩

theorem inorder_noirRotlAvlNode (h : noirRotlAvlNode t = some t') : t'.inorder = t.inorder := by
  cases t with
  | null => cases h
  | node left key right height =>
    obtain ⟨inner, y, outer, heightY, rfl, rfl⟩ := noirRotlAvlNode_cases h
    simp [HeightTree.inorder, HeightTree.reset]

theorem inorder_noirRotrAvlNode (h : noirRotrAvlNode t = some t') : t'.inorder = t.inorder := by
  cases t with
  | null => cases h
  | node left key right height =>
    obtain ⟨outer, x, inner, heightX, rfl, rfl⟩ := noirRotrAvlNode_cases h
    simp [HeightTree.inorder, HeightTree.reset]

/-- No rotation changes the sequence of keys. -/
theorem inorder_rebalanceAvlNode (h : rebalanceAvlNode c t = some t') : t'.inorder = t.inorder := by
  unfold rebalanceAvlNode at h
  dsimp only at h
  split at h
  · exact inorder_noirRotlAvlNode h
  · split at h
    · exact inorder_noirRotrAvlNode h
    · split at h
      · cases t with
        | null => cases h
        | node left key right height =>
          obtain ⟨left', hleft, h⟩ := Option.bind_eq_some_iff.mp h
          rw [inorder_noirRotrAvlNode h, HeightTree.inorder, HeightTree.inorder,
            inorder_noirRotlAvlNode hleft]
      · split at h
        · cases t with
          | null => cases h
          | node left key right height =>
            obtain ⟨right', hright, h⟩ := Option.bind_eq_some_iff.mp h
            rw [inorder_noirRotlAvlNode h, HeightTree.inorder, HeightTree.inorder,
              inorder_noirRotrAvlNode hright]
        · rw [Option.some.inj h]

theorem rebalanceAvlNode_of_level (hup : noirGetAvlBalanceFactor t ≤ 1)
    (hdown : -1 ≤ noirGetAvlBalanceFactor t) : rebalanceAvlNode c t = some t := by
  have hleft : ¬noirGetAvlBalanceFactor t > 1 := by omega
  have hright : ¬noirGetAvlBalanceFactor t < -1 := by omega
  unfold rebalanceAvlNode
  rw [if_neg fun h => hleft h.1, if_neg fun h => hright h.1, if_neg fun h => hleft h.1,
    if_neg fun h => hright h.1]

/-- A rotation to the left pushes the left child down, next to a part of the right one. -/
theorem balanced_of_noirRotlAvlNode (h : noirRotlAvlNode (.node left key right height) = some t')
    (hbalanced : t'.Balanced) :
    left.Balanced ∧ ∃ inner y outer heightY, right = .node inner y outer heightY ∧
      left.depth ≤ inner.depth + 1 := by
  obtain ⟨inner, y, outer, heightY, hright, rfl⟩ := noirRotlAvlNode_cases h
  obtain ⟨hx, -⟩ := hbalanced
  obtain ⟨hleft, -, -, hdepth⟩ := hx
  exact ⟨hleft, inner, y, outer, heightY, hright, hdepth⟩

theorem balanced_of_noirRotrAvlNode (h : noirRotrAvlNode (.node left key right height) = some t')
    (hbalanced : t'.Balanced) :
    right.Balanced ∧ ∃ outer x inner heightX, left = .node outer x inner heightX ∧
      right.depth ≤ inner.depth + 1 := by
  obtain ⟨outer, x, inner, heightX, hleft, rfl⟩ := noirRotrAvlNode_cases h
  obtain ⟨-, hy, -⟩ := hbalanced
  obtain ⟨-, hright, hdepth, -⟩ := hy
  exact ⟨hright, outer, x, inner, heightX, hleft, hdepth⟩

def Tilted (t : HeightTree α) : Prop :=
  noirGetAvlBalanceFactor t > 1 ∨ noirGetAvlBalanceFactor t < -1

theorem depth_inner_lt (outer : HeightTree α) (k : α) (right : HeightTree α) (h : Int) :
    outer.depth + 1 ≤ (HeightTree.node outer k right h).depth ∧
      right.depth + 1 ≤ (HeightTree.node outer k right h).depth := by
  simp only [HeightTree.depth]
  omega

/-- Whichever rotation follows an insertion into the left child, that child stays together and
gets no shallower. -/
theorem tilted_left (hc : c < 0) (htilted : Tilted (.node left key right height))
    (h : rebalanceAvlNode c (.node left key right height) = some t') (hbalanced : t'.Balanced) :
    left.Balanced ∧ left.depth ≤ right.depth := by
  have hc' : ¬c > 0 := by omega
  rcases htilted with hup | hdown
  · unfold rebalanceAvlNode at h
    rw [if_pos ⟨hup, hc⟩] at h
    obtain ⟨hleft, inner, y, outer, heightY, rfl, hdepth⟩ := balanced_of_noirRotlAvlNode h hbalanced
    exact ⟨hleft, hdepth.trans (depth_inner_lt ..).1⟩
  · have hup : ¬noirGetAvlBalanceFactor (.node left key right height) > 1 := by omega
    unfold rebalanceAvlNode at h
    rw [if_neg fun h => hup h.1, if_neg fun h => hc' h.2, if_neg fun h => hup h.1,
      if_pos ⟨hdown, hc⟩] at h
    obtain ⟨right', hright, h⟩ := Option.bind_eq_some_iff.mp h
    obtain ⟨hleft, inner, y, outer, heightY, hright', hdepth⟩ :=
      balanced_of_noirRotlAvlNode h hbalanced
    cases right with
    | null => cases hright
    | node left₂ k₂ right₂ height₂ =>
      obtain ⟨outer₂, x₂, inner₂, heightX₂, rfl, rfl⟩ := noirRotrAvlNode_cases hright
      cases hright'
      have hfirst := (depth_inner_lt inner y inner₂ heightX₂).1
      have hsecond := (depth_inner_lt (.node inner y inner₂ heightX₂) k₂ right₂ height₂).1
      exact ⟨hleft, by omega⟩

theorem tilted_right (hc : c > 0) (htilted : Tilted (.node left key right height))
    (h : rebalanceAvlNode c (.node left key right height) = some t') (hbalanced : t'.Balanced) :
    right.Balanced ∧ right.depth ≤ left.depth := by
  have hc' : ¬c < 0 := by omega
  rcases htilted with hup | hdown
  · have hdown : ¬noirGetAvlBalanceFactor (.node left key right height) < -1 := by omega
    unfold rebalanceAvlNode at h
    rw [if_neg fun h => hc' h.2, if_neg fun h => hdown h.1, if_pos ⟨hup, hc⟩] at h
    obtain ⟨left', hleft, h⟩ := Option.bind_eq_some_iff.mp h
    obtain ⟨hright, outer, x, inner, heightX, hleft', hdepth⟩ :=
      balanced_of_noirRotrAvlNode h hbalanced
    cases left with
    | null => cases hleft
    | node left₂ k₂ right₂ height₂ =>
      obtain ⟨inner₂, y₂, outer₂, heightY₂, rfl, rfl⟩ := noirRotlAvlNode_cases hleft
      cases hleft'
      have hfirst := (depth_inner_lt inner₂ x inner heightY₂).2
      have hsecond := (depth_inner_lt left₂ k₂ (.node inner₂ x inner heightY₂) height₂).2
      exact ⟨hright, by omega⟩
  · unfold rebalanceAvlNode at h
    rw [if_neg fun h => hc' h.2, if_pos ⟨hdown, hc⟩] at h
    obtain ⟨hright, outer, x, inner, heightX, rfl, hdepth⟩ :=
      balanced_of_noirRotrAvlNode h hbalanced
    exact ⟨hright, hdepth.trans (depth_inner_lt ..).2⟩

theorem not_mem_left {item : α}
    (h : item ∉ (HeightTree.node left key right height).inorder) : item ∉ left.inorder :=
  fun hleft => h (List.mem_append_left _ hleft)

theorem not_mem_right {item : α}
    (h : item ∉ (HeightTree.node left key right height).inorder) :
    item ≠ key ∧ item ∉ right.inorder := by
  constructor
  · rintro rfl
    exact h (List.mem_append_right _ List.mem_cons_self)
  · exact fun hright => h (List.mem_append_right _ (List.mem_cons_of_mem _ hright))

theorem not_tilted_iff : ¬Tilted t ↔
    noirGetAvlBalanceFactor t ≤ 1 ∧ -1 ≤ noirGetAvlBalanceFactor t := by
  unfold Tilted
  omega

theorem tilted_reset_iff (key : α) (height : Int) (hleft : left.Exact) (hright : right.Exact) :
    Tilted (HeightTree.node left key right height).reset ↔
      right.depth > left.depth + 1 ∨ left.depth > right.depth + 1 := by
  change right.height - left.height > 1 ∨ right.height - left.height < -1 ↔ _
  rw [hleft.height, hright.height]
  omega

def Precedes (compareFn : α → α → Int) (a b : α) : Prop := compareFn a b < 0

instance (compareFn : α → α → Int) : DecidableRel (Precedes compareFn) :=
  fun a b => inferInstanceAs (Decidable (compareFn a b < 0))

/-- As long as no node is out of balance, nothing is rotated. -/
theorem noirInsertAvlNode_of_level {compareFn : α → α → Int} {item : α} (hexact : t.Exact)
    (hbalanced : (t.graftBy (Precedes compareFn) item).Balanced) :
    noirInsertAvlNode compareFn item t =
      some (t.graftBy (Precedes compareFn) item) := by
  induction t with
  | null => rfl
  | node left key right height ihleft ihright =>
    obtain ⟨hleft, hright, -⟩ := hexact
    unfold noirInsertAvlNode
    by_cases hlt : Precedes compareFn item key
    · rw [graftBy_of_below hlt, balanced_reset] at hbalanced
      obtain ⟨hbelow, -, hup, hdown⟩ := hbalanced
      have hlevel := not_tilted_iff.mp fun htilted =>
        not_or.mpr ⟨not_lt.mpr hup, not_lt.mpr hdown⟩
          ((tilted_reset_iff key height (hleft.graftBy item) hright).mp htilted)
      rw [graftBy_of_below hlt]
      change (if Precedes compareFn item key then _ else _) = _
      rw [if_pos hlt, ihleft hleft hbelow]
      exact rebalanceAvlNode_of_level hlevel.1 hlevel.2
    · rw [graftBy_of_not_below hlt, balanced_reset] at hbalanced
      obtain ⟨-, hbelow, hup, hdown⟩ := hbalanced
      have hlevel := not_tilted_iff.mp fun htilted =>
        not_or.mpr ⟨not_lt.mpr hup, not_lt.mpr hdown⟩
          ((tilted_reset_iff key height hleft (hright.graftBy item)).mp htilted)
      rw [graftBy_of_not_below hlt]
      change (if Precedes compareFn item key then _ else _) = _
      rw [if_neg hlt, ihright hright hbelow]
      exact rebalanceAvlNode_of_level hlevel.1 hlevel.2

end

section

variable {α : Type} [LinearOrder α] {compareFn : α → α → Int} {item : α} {t t' : HeightTree α}

/-- The comparison is that of a total order. -/
structure ComparesOrder (compareFn : α → α → Int) : Prop where
  lt_iff : ∀ a b, compareFn a b < 0 ↔ a < b
  gt_iff : ∀ a b, compareFn a b > 0 ↔ b < a

/-- What a tree of I/O regions is between insertions. -/
structure Avl (t : HeightTree α) : Prop where
  exact : t.Exact
  balanced : t.Balanced
  ordered : t.Ordered

/-- Rotated rightly or not, the keys come in their order. -/
theorem inorder_noirInsertAvlNode (hcompare : ComparesOrder compareFn) (hordered : t.Ordered)
    (hitem : item ∉ t.inorder) (h : noirInsertAvlNode compareFn item t = some t') :
    t'.inorder = t.inorder.orderedInsert (· ≤ ·) item := by
  induction t generalizing t' with
  | null =>
    cases h
    rfl
  | node left key right height ihleft ihright =>
    obtain ⟨hleft, hright, -, -⟩ := ordered_node.mp hordered
    obtain ⟨hne, hitemRight⟩ := not_mem_right hitem
    unfold noirInsertAvlNode at h
    by_cases hlt : item < key
    · rw [if_pos ((hcompare.lt_iff _ _).mpr hlt)] at h
      obtain ⟨left', hinsert, h⟩ := Option.bind_eq_some_iff.mp h
      rw [inorder_rebalanceAvlNode h, inorder_reset, orderedInsert_node_of_lt hlt,
        HeightTree.inorder, ihleft hleft (not_mem_left hitem) hinsert]
    · have hgt : key < item := lt_of_le_of_ne (not_lt.mp hlt) hne.symm
      rw [if_neg fun hcmp => hlt ((hcompare.lt_iff _ _).mp hcmp)] at h
      obtain ⟨right', hinsert, h⟩ := Option.bind_eq_some_iff.mp h
      rw [inorder_rebalanceAvlNode h, inorder_reset, orderedInsert_node_of_gt hordered hgt,
        HeightTree.inorder, ihright hright hitemRight hinsert]

theorem noirInsertAvlNode_of_balanced (hcompare : ComparesOrder compareFn) (hexact : t.Exact)
    (hbalanced : (t.graft item).Balanced) :
    noirInsertAvlNode compareFn item t = some (t.graft item) := by
  have hgraft : t.graft item = t.graftBy (Precedes compareFn) item := by
    rw [graft_eq_graftBy]
    exact graftBy_congr item fun key => (hcompare.lt_iff item key).symm
  rw [hgraft] at hbalanced ⊢
  exact noirInsertAvlNode_of_level hexact hbalanced

/-- A rotation never restores the balance, whatever it does to the rest of the tree. -/
theorem eq_graft_of_balanced (hcompare : ComparesOrder compareFn) (hexact : t.Exact)
    (hbefore : t.Balanced) (hitem : item ∉ t.inorder)
    (h : noirInsertAvlNode compareFn item t = some t') (hbalanced : t'.Balanced) :
    t' = t.graft item := by
  induction t generalizing t' with
  | null => exact (Option.some.inj h).symm
  | node left key right height ihleft ihright =>
    obtain ⟨hleft, hright, -⟩ := hexact
    obtain ⟨hleftBalanced, hrightBalanced, hup, hdown⟩ := hbefore
    obtain ⟨hne, hitemRight⟩ := not_mem_right hitem
    unfold noirInsertAvlNode at h
    by_cases hlt : item < key
    · have hc : compareFn item key < 0 := (hcompare.lt_iff _ _).mpr hlt
      rw [if_pos hc] at h
      obtain ⟨left', hinsert, h⟩ := Option.bind_eq_some_iff.mp h
      by_cases htilted : Tilted (HeightTree.node left' key right height).reset
      · obtain ⟨hbelow, hdepth⟩ := tilted_left hc htilted h hbalanced
        have hgraft := ihleft hleft hleftBalanced (not_mem_left hitem) hinsert hbelow
        subst hgraft
        have hbent := (tilted_reset_iff key height (hleft.graft item) hright).mp htilted
        have hgrown := depth_graft left item
        omega
      · obtain ⟨hlow, hhigh⟩ := not_tilted_iff.mp htilted
        rw [rebalanceAvlNode_of_level hlow hhigh] at h
        obtain rfl := Option.some.inj h
        have hbelow := (balanced_reset.mp hbalanced).1
        rw [ihleft hleft hleftBalanced (not_mem_left hitem) hinsert hbelow, graft_of_lt hlt]
    · have hgt : key < item := lt_of_le_of_ne (not_lt.mp hlt) hne.symm
      have hc : compareFn item key > 0 := (hcompare.gt_iff _ _).mpr hgt
      have hc' : ¬compareFn item key < 0 := by omega
      rw [if_neg hc'] at h
      obtain ⟨right', hinsert, h⟩ := Option.bind_eq_some_iff.mp h
      by_cases htilted : Tilted (HeightTree.node left key right' height).reset
      · obtain ⟨hbelow, hdepth⟩ := tilted_right hc htilted h hbalanced
        have hgraft := ihright hright hrightBalanced hitemRight hinsert hbelow
        subst hgraft
        have hbent := (tilted_reset_iff key height hleft (hright.graft item)).mp htilted
        have hgrown := depth_graft right item
        omega
      · obtain ⟨hlow, hhigh⟩ := not_tilted_iff.mp htilted
        rw [rebalanceAvlNode_of_level hlow hhigh] at h
        obtain rfl := Option.some.inj h
        have hbelow := (balanced_reset.mp hbalanced).2.1
        rw [ihright hright hrightBalanced hitemRight hinsert hbelow, graft_of_not_lt hlt]

/-- Nothing is dereferenced that is not there, the new key is put in its place, and the tree is one
whose heights are right and whose siblings are level. -/
def Inserts (compareFn : α → α → Int) (t : HeightTree α) (item : α) : Prop :=
  ∃ t', noirInsertAvlNode compareFn item t = some t' ∧
    t'.inorder = t.inorder.orderedInsert (· ≤ ·) item ∧ t'.Exact ∧ t'.Balanced

/-- The tree stays as it is where the insertion goes wrong. -/
def avlNext (compareFn : α → α → Int) (t : HeightTree α) (item : α) : HeightTree α :=
  (noirInsertAvlNode compareFn item t).getD t

/-- The search for the key ends where another node may be. -/
def HasRoom (t : HeightTree α) (item : α) : Prop := (t.graft item).Balanced

instance : Decidable (HasRoom t item) := inferInstanceAs (Decidable (t.graft item).Balanced)

theorem Avl.inserts_iff (h : Avl t) (hcompare : ComparesOrder compareFn)
    (hitem : item ∉ t.inorder) : Inserts compareFn t item ↔ HasRoom t item := by
  constructor
  · rintro ⟨t', hinsert, -, -, hbalanced⟩
    have hgraft := eq_graft_of_balanced hcompare h.exact h.balanced hitem hinsert hbalanced
    unfold HasRoom
    rw [← hgraft]
    exact hbalanced
  · intro hroom
    have hinsert := noirInsertAvlNode_of_balanced hcompare h.exact hroom
    exact ⟨_, hinsert, inorder_noirInsertAvlNode hcompare h.ordered hitem hinsert,
      h.exact.graft item, hroom⟩

theorem avlNext_inorder (hcompare : ComparesOrder compareFn) (hordered : t.Ordered)
    (hitem : item ∉ t.inorder) : (avlNext compareFn t item).inorder = t.inorder ∨
      (avlNext compareFn t item).inorder = t.inorder.orderedInsert (· ≤ ·) item := by
  unfold avlNext
  cases hinsert : noirInsertAvlNode compareFn item t with
  | none => exact .inl rfl
  | some t' => exact .inr (inorder_noirInsertAvlNode hcompare hordered hitem hinsert)

theorem avlNext_ordered (hcompare : ComparesOrder compareFn) (hordered : t.Ordered)
    (hitem : item ∉ t.inorder) : (avlNext compareFn t item).Ordered := by
  unfold HeightTree.Ordered
  rcases avlNext_inorder hcompare hordered hitem with hsame | hinserted
  · rw [hsame]
    exact hordered
  · rw [hinserted]
    exact pairwise_orderedInsert hordered hitem

theorem mem_of_mem_avlNext (hcompare : ComparesOrder compareFn) (hordered : t.Ordered)
    (hitem : item ∉ t.inorder) {k : α} (h : k ∈ (avlNext compareFn t item).inorder) :
    k = item ∨ k ∈ t.inorder := by
  rcases avlNext_inorder hcompare hordered hitem with hsame | hinserted
  · exact .inr (hsame ▸ h)
  · exact (List.mem_orderedInsert _).mp (hinserted ▸ h)

/-- Distinct keys are new ones, each when it is inserted. -/
theorem along_new (hcompare : ComparesOrder compareFn) (hordered : t.Ordered) {keys : List α}
    (hkeys : keys.Nodup) (hnew : ∀ k ∈ keys, k ∉ t.inorder) :
    Along (fun t item => item ∉ t.inorder) (avlNext compareFn) t keys := by
  induction keys generalizing t with
  | nil => exact trivial
  | cons key keys ih =>
    obtain ⟨hkey, hkeys⟩ := List.nodup_cons.mp hkeys
    have hfirst := hnew key List.mem_cons_self
    refine ⟨hfirst, ih (avlNext_ordered hcompare hordered hfirst) hkeys fun k hk hmem => ?_⟩
    rcases mem_of_mem_avlNext hcompare hordered hfirst hmem with rfl | hmem
    · exact hkey hk
    · exact hnew k (List.mem_cons_of_mem _ hk) hmem

theorem Avl.next (h : Avl t) (hcompare : ComparesOrder compareFn) (hitem : item ∉ t.inorder)
    (hroom : HasRoom t item) : Avl (avlNext compareFn t item) := by
  obtain ⟨t', hinsert, -, hexact, hbalanced⟩ := (h.inserts_iff hcompare hitem).mpr hroom
  have hordered := avlNext_ordered hcompare h.ordered hitem
  unfold avlNext at hordered ⊢
  rw [hinsert] at hordered ⊢
  exact ⟨hexact, hbalanced, hordered⟩

theorem avl_null : Avl (HeightTree.null : HeightTree α) :=
  ⟨trivial, trivial, List.Pairwise.nil⟩

/-- A tree is built as long as every key has room: what should rebalance it does not. -/
theorem insertsAlong_iff (hcompare : ComparesOrder compareFn) (keys : List α)
    (hkeys : keys.Nodup) :
    Along (Inserts compareFn) (avlNext compareFn) .null keys ↔
      Along HasRoom (avlNext compareFn) .null keys := by
  have hnew : Along (fun t item => item ∉ t.inorder) (avlNext compareFn) .null keys :=
    along_new hcompare avl_null.ordered hkeys fun _ _ => List.not_mem_nil
  exact along_iff (I := Avl) (fun t item h hitem => h.inserts_iff hcompare hitem)
    (fun t item h hitem hroom => h.next hcompare hitem hroom) avl_null hnew

end

theorem comparesOrder_sub : ComparesOrder (fun a b : Int => a - b) :=
  ⟨fun a b => by omega, fun a b => by omega⟩

theorem insertsAlong_level :
    Along (Inserts fun a b : Int => a - b) (avlNext fun a b => a - b) .null [2, 1, 3] :=
  (insertsAlong_iff comparesOrder_sub [2, 1, 3] (by decide)).mpr
    ⟨by decide, by decide, by decide, trivial⟩

/-- The third of three growing keys makes the root rotate the left child that it does not have. -/
theorem not_forall_insertsAlong :
    ¬∀ (compareFn : Int → Int → Int) (keys : List Int), ComparesOrder compareFn → keys.Nodup →
      Along (Inserts compareFn) (avlNext compareFn) .null keys := by
  intro h
  obtain ⟨-, -, ⟨t', hinsert, -⟩, -⟩ :=
    h (fun a b => a - b) [1, 2, 3] comparesOrder_sub (by decide)
  cases hinsert

end NoirVisor
