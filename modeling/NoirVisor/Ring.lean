import Mathlib.Data.List.Nodup
import Mathlib.Logic.Function.Basic

/-!
# Circular doubly linked lists

A list with a head that is not one of its items, and what insertion and removal make of it.
-/

structure Links (α : Type) where
  next : α → α
  prev : α → α

namespace Links

variable {α : Type}

/-- Consecutive entries point at each other. -/
def Linked (l : Links α) : List α → Prop
  | x :: y :: rest => l.next x = y ∧ l.prev y = x ∧ l.Linked (y :: rest)
  | _ => True

/-- The items between the head and itself. -/
structure IsRing (l : Links α) (head : α) (items : List α) : Prop where
  linked : l.Linked (head :: items ++ [head])
  nodup : (head :: items).Nodup

variable {l l' : Links α} {xs ys items : List α} {head new x y : α}

theorem linked_append : l.Linked (xs ++ y :: ys) ↔ l.Linked (xs ++ [y]) ∧ l.Linked (y :: ys) := by
  induction xs with
  | nil => simp [Linked]
  | cons x xs ih =>
      cases xs with
      | nil => simp [Linked, and_assoc]
      | cons x' xs => simpa [Linked, and_assoc] using fun _ _ => ih

/-- Only the links between the entries matter. -/
theorem Linked.congr (h : l.Linked xs) (hnext : ∀ x ∈ xs.dropLast, l'.next x = l.next x)
    (hprev : ∀ x ∈ xs.tail, l'.prev x = l.prev x) : l'.Linked xs := by
  induction xs with
  | nil => trivial
  | cons x xs ih =>
      cases xs with
      | nil => trivial
      | cons y rest =>
          obtain ⟨hx, hy, hrest⟩ := h
          refine ⟨(hnext x (by simp)).trans hx, (hprev y (by simp)).trans hy, ih hrest ?_ ?_⟩
          · exact fun z hz => hnext z (by simp [hz])
          · exact fun z hz => hprev z (List.mem_of_mem_tail hz)

theorem Linked.next_mem (h : l.Linked xs) : ∀ x ∈ xs.dropLast, l.next x ∈ xs.tail := by
  induction xs with
  | nil => simp
  | cons x xs ih =>
      cases xs with
      | nil => simp
      | cons y rest =>
          obtain ⟨hx, -, hrest⟩ := h
          intro z hz
          rw [List.dropLast_cons_cons, List.mem_cons] at hz
          obtain rfl | hz := hz
          · simp [hx]
          · exact List.mem_of_mem_tail (ih hrest z hz)

theorem Linked.prev_mem (h : l.Linked xs) : ∀ x ∈ xs.tail, l.prev x ∈ xs.dropLast := by
  induction xs with
  | nil => simp
  | cons x xs ih =>
      cases xs with
      | nil => simp
      | cons y rest =>
          obtain ⟨-, hy, hrest⟩ := h
          intro z hz
          rw [List.tail_cons, List.mem_cons] at hz
          rw [List.dropLast_cons_cons, List.mem_cons]
          obtain rfl | hz := hz
          · exact .inl hy
          · exact .inr (ih hrest z hz)

/-- The neighbours of what is in a list are in it. -/
theorem IsRing.neighbours (h : l.IsRing head items) (hx : x ∈ head :: items) :
    l.next x ∈ head :: items ∧ l.prev x ∈ head :: items := by
  have hnext := h.linked.next_mem x
  have hprev := h.linked.prev_mem x
  have htail (z : α) : z ∈ items ++ [head] ↔ z ∈ head :: items := by simp [or_comm]
  rw [List.dropLast_concat, List.cons_append, List.tail_cons, htail] at hnext hprev
  exact ⟨hnext hx, hprev hx⟩

theorem IsRing.congr (h : l.IsRing head items)
    (hlinks : ∀ x ∈ head :: items, l'.next x = l.next x ∧ l'.prev x = l.prev x) :
    l'.IsRing head items := by
  refine ⟨h.linked.congr (fun x hx => (hlinks x ?_).1) (fun x hx => (hlinks x ?_).2), h.nodup⟩
  · rwa [List.dropLast_concat] at hx
  · simpa [or_comm] using hx

theorem isRing_nil (hnext : l.next head = head) (hprev : l.prev head = head) : l.IsRing head [] :=
  ⟨⟨hnext, hprev, trivial⟩, List.nodup_singleton head⟩

variable [DecidableEq α]

/-- Inserts an entry before another one. -/
def insertPrev (l : Links α) (entry new : α) : Links α where
  next := Function.update (Function.update l.next new entry) (l.prev entry) new
  prev := Function.update (Function.update l.prev new (l.prev entry)) entry new

/-- Removes an entry, which points at itself afterwards. -/
def remove (l : Links α) (x : α) : Links α where
  next := Function.update (Function.update l.next (l.prev x) (l.next x)) x x
  prev := Function.update (Function.update l.prev (l.next x) (l.prev x)) x x

theorem IsRing.insertPrev (h : l.IsRing head items) (hnew : new ∉ head :: items) :
    (l.insertPrev head new).IsRing head (items ++ [new]) := by
  obtain ⟨xs, y, hlast⟩ := (List.eq_nil_or_concat (head :: items)).resolve_left (List.cons_ne_nil _ _)
  rw [List.concat_eq_append] at hlast
  have hnodup := h.nodup
  have hlinked := h.linked
  rw [hlast, List.append_assoc, List.singleton_append, linked_append] at hlinked
  obtain ⟨hfront, hynext, hyprev, -⟩ := hlinked
  have hhead : head ∉ (xs ++ [y]).tail := by
    rw [← hlast]
    exact (List.nodup_cons.mp hnodup).1
  rw [hlast] at hnodup hnew
  have hy : y ∉ xs := fun hmem => (List.nodup_append.mp hnodup).2.2 y hmem y (by simp) rfl
  have hne : new ≠ head := fun heq => hnew (hlast ▸ heq ▸ List.mem_cons_self)
  have hney : new ≠ y := fun heq => hnew (by simp [heq])
  constructor
  · rw [← List.cons_append, hlast, List.append_assoc, List.append_assoc]
    refine linked_append.mpr ⟨hfront.congr (fun z hz => ?_) (fun z hz => ?_), ?_⟩
    · rw [List.dropLast_concat] at hz
      have hzy : z ≠ y := fun heq => hy (heq ▸ hz)
      have hznew : z ≠ new := fun heq => hnew (by simp [← heq, hz])
      simp [Links.insertPrev, hyprev, hzy, hznew]
    · have hzhead : z ≠ head := fun heq => hhead (heq ▸ hz)
      have hznew : z ≠ new := fun heq => hnew (heq ▸ List.mem_of_mem_tail hz)
      simp [Links.insertPrev, hzhead, hznew]
    · simp [Linked, Links.insertPrev, hyprev, hne, hney]
  · rw [← List.cons_append, hlast]
    exact List.nodup_append.mpr ⟨hnodup, List.nodup_singleton new, fun z hz w hw heq =>
      hnew (List.mem_singleton.mp hw ▸ heq ▸ hz)⟩

theorem IsRing.remove (h : l.IsRing head items) (hx : x ∈ items) :
    (l.remove x).IsRing head (items.erase x) := by
  obtain ⟨before, after, -, rfl, herase⟩ := List.exists_erase_eq hx
  rw [herase]
  obtain ⟨ws, p, hfront⟩ :=
    (List.eq_nil_or_concat (head :: before)).resolve_left (List.cons_ne_nil _ _)
  obtain ⟨n, zs, hback⟩ : ∃ n zs, after ++ [head] = n :: zs :=
    List.exists_cons_of_ne_nil (by simp)
  rw [List.concat_eq_append] at hfront
  -- The neighbours of the entry.
  have hlinked := h.linked
  have hsplit : head :: (before ++ x :: after) ++ [head] = ws ++ p :: x :: n :: zs := by
    calc
      head :: (before ++ x :: after) ++ [head] = (head :: before) ++ x :: (after ++ [head]) := by simp
      _ = ws ++ p :: x :: n :: zs := by rw [hfront, hback]; simp
  rw [hsplit, linked_append] at hlinked
  obtain ⟨hbefore, -, hprev, hnext, -, hafter⟩ := hlinked
  -- Nothing stands twice in front of the entry or behind it.
  have hnodup : ((head :: before) ++ x :: after).Nodup := h.nodup
  obtain ⟨hbeforeNodup, hrestNodup, hapart⟩ := List.nodup_append.mp hnodup
  have hxbefore : x ∉ head :: before := fun hmem => hapart x hmem x List.mem_cons_self rfl
  have hxafter : x ∉ after := (List.nodup_cons.mp hrestNodup).1
  have hapart' : ∀ z ∈ head :: before, z ∉ after := fun z hz hz' =>
    hapart z hz z (List.mem_cons_of_mem _ hz') rfl
  have hafterNodup : (after ++ [head]).Nodup := List.nodup_append.mpr
    ⟨(List.nodup_cons.mp hrestNodup).2, List.nodup_singleton head, fun z hz w hw heq =>
      hapart' head List.mem_cons_self (List.mem_singleton.mp hw ▸ heq ▸ hz)⟩
  have hp : p ∈ head :: before := by simp [hfront]
  have hn : n ∈ after ++ [head] := by simp [hback]
  have hxback : x ∉ after ++ [head] := by
    rw [List.mem_append, List.mem_singleton]
    rintro (hmem | rfl)
    · exact hxafter hmem
    · exact hxbefore List.mem_cons_self
  have hnbefore : n ∉ (head :: before).tail := by
    intro hmem
    rw [List.mem_append, List.mem_singleton] at hn
    obtain hn | rfl := hn
    · exact hapart' n (List.mem_of_mem_tail hmem) hn
    · exact (List.nodup_cons.mp hbeforeNodup).1 hmem
  have hpx : p ≠ x := fun heq => hxbefore (heq ▸ hp)
  have hnx : n ≠ x := fun heq => hxback (heq ▸ hn)
  have hfrontNodup : (ws ++ [p]).Nodup := hfront ▸ hbeforeNodup
  have hbackNodup : (n :: zs).Nodup := hback ▸ hafterNodup
  constructor
  · have hjoin : head :: (before ++ after) ++ [head] = ws ++ p :: n :: zs := by
      calc
        head :: (before ++ after) ++ [head] = (head :: before) ++ (after ++ [head]) := by simp
        _ = ws ++ p :: n :: zs := by rw [hfront, hback]; simp
    rw [hjoin, linked_append]
    refine ⟨hbefore.congr (fun z hz => ?_) (fun z hz => ?_), ?_, ?_, hafter.congr ?_ ?_⟩
    · rw [List.dropLast_concat] at hz
      have hzp : z ≠ p := fun heq =>
        (List.nodup_append.mp hfrontNodup).2.2 z hz p (by simp) heq
      have hzx : z ≠ x := fun heq => hxbefore (heq ▸ hfront ▸ List.mem_append_left _ hz)
      simp [Links.remove, hprev, hzp, hzx]
    · rw [← hfront] at hz
      have hzn : z ≠ n := fun heq => hnbefore (heq ▸ hz)
      have hzx : z ≠ x := fun heq => hxbefore (heq ▸ List.mem_of_mem_tail hz)
      simp [Links.remove, hnext, hzn, hzx]
    · simp [Links.remove, hprev, hnext, hpx]
    · simp [Links.remove, hprev, hnext, hnx]
    · intro z hz
      rw [← hback, List.dropLast_concat] at hz
      have hzp : z ≠ p := fun heq => hapart' p hp (heq ▸ hz)
      have hzx : z ≠ x := fun heq => hxafter (heq ▸ hz)
      simp [Links.remove, hprev, hzp, hzx]
    · intro z hz
      have hzn : z ≠ n := fun heq => (List.nodup_cons.mp hbackNodup).1 (heq ▸ hz)
      have hzx : z ≠ x := fun heq => hxback (heq ▸ hback ▸ List.mem_cons_of_mem _ hz)
      simp [Links.remove, hnext, hzn, hzx]
  · rw [← List.cons_append]
    exact List.nodup_append.mpr
      ⟨hbeforeNodup, (List.nodup_cons.mp hrestNodup).2, fun z hz w hw heq =>
        hapart' z hz (heq ▸ hw)⟩

end Links
