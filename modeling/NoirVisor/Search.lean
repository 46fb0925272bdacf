import Mathlib.Data.Int.Notation
import Mathlib.Tactic.ByContra

/-!
# Binary search with inclusive bounds

The upper bound is the number of entries, so that the place after the last entry may be looked at.
The bounds are machine integers.
-/

namespace Search

inductive Outcome where
  | found (index : Int)
  | absent
  | outside
  | running
deriving DecidableEq

/-- `probe` compares the key with an entry, if there is memory for it. -/
def loop (wrap : Int → Int) (probe : Int → Option Ordering) : Nat → Int → Int → Outcome
  | 0, _, _ => .running
  | fuel + 1, lo, hi =>
      if hi < lo then .absent
      else
        let mid := wrap (lo + hi) / 2
        match probe mid with
        | none => .outside
        | some .gt => loop wrap probe fuel (wrap (mid + 1)) hi
        | some .lt => loop wrap probe fuel lo (wrap (mid - 1))
        | some .eq => .found mid

/-- The entries are in order, and a key above all of them is above the place after them. -/
structure Ordered (n : Int) (probe : Int → Option Ordering) : Prop where
  inside : ∀ i, 0 ≤ i → i ≤ n → probe i ≠ none
  below : ∀ i j, 0 ≤ i → i ≤ j → j < n → probe i = some .lt → probe j = some .lt
  above : ∀ i j, 0 ≤ j → j ≤ i → i < n → probe i = some .gt → probe j = some .gt
  last : (∀ i, 0 ≤ i → i < n → probe i = some .gt) → probe n = some .gt

variable {wrap : Int → Int} {probe : Int → Option Ordering} {n lo hi : Int} {fuel : Nat}

/-- What is left out of the bounds is not the entry that is looked for. -/
structure Bounds (n : Int) (probe : Int → Option Ordering) (lo hi : Int) : Prop where
  lower : 0 ≤ lo ∧ lo ≤ n + 1
  upper : -1 ≤ hi ∧ hi ≤ n
  left : ∀ i, 0 ≤ i → i < lo → i < n → probe i = some .gt
  right : ∀ i, hi < i → 0 ≤ i → i < n → probe i = some .lt

/-- The entries are in order, and the place after them is looked at by keys above all of them. -/
structure Guarded (n : Int) (probe : Int → Option Ordering) : Prop where
  inside : ∀ i, 0 ≤ i → i < n → probe i ≠ none
  below : ∀ i j, 0 ≤ i → i ≤ j → j < n → probe i = some .lt → probe j = some .lt
  above : ∀ i j, 0 ≤ j → j ≤ i → i < n → probe i = some .gt → probe j = some .gt
  last : (∀ i, 0 ≤ i → i < n → probe i = some .gt) → probe n = some .gt

theorem Ordered.guarded (h : Ordered n probe) : Guarded n probe :=
  ⟨fun i hi hin => h.inside i hi (Int.le_of_lt hin), h.below, h.above, h.last⟩

theorem Bounds.last (hguarded : Guarded n probe) (h : Bounds n probe lo hi) (hle : lo ≤ hi)
    (hmid : (lo + hi) / 2 = n) : probe n = some .gt := by
  obtain ⟨hlower, hupper, hleft, -⟩ := h
  have hlo : lo = n := by omega
  exact hguarded.last fun i hi hin => hleft i hi (by omega) hin

/-- The upper bound is decremented below an entry that the key is below, and may not wrap there. -/
theorem loop_guarded (hguarded : Guarded n probe)
    (hwrap : ∀ x, 0 ≤ x → x ≤ 2 * n + 1 → wrap x = x)
    (hdown : ∀ i, 0 ≤ i → i < n → probe i = some .lt → wrap (i - 1) = i - 1)
    (h : Bounds n probe lo hi) (hfuel : hi - lo + 2 ≤ fuel) (hpos : 0 < fuel) :
    (∃ i, loop wrap probe fuel lo hi = .found i ∧ 0 ≤ i ∧ i < n ∧ probe i = some .eq) ∨
    (loop wrap probe fuel lo hi = .absent ∧ ∀ i, 0 ≤ i → i < n → probe i ≠ some .eq) := by
  induction fuel generalizing lo hi with
  | zero => exact absurd hpos (Nat.lt_irrefl 0)
  | succ fuel ih =>
      unfold loop
      by_cases hend : hi < lo
      · rw [if_pos hend]
        refine .inr ⟨rfl, fun i hi0 hin => ?_⟩
        by_cases hlt : i < lo
        · rw [h.left i hi0 hlt hin]
          exact nofun
        · rw [h.right i (by omega) hi0 hin]
          exact nofun
      · have hlower := h.lower
        have hupper := h.upper
        have hsum : wrap (lo + hi) = lo + hi := hwrap _ (by omega) (by omega)
        rw [if_neg hend, hsum]
        dsimp only
        have hlast := h.last hguarded (by omega)
        have hmid : (lo + hi) / 2 < n ∨ (lo + hi) / 2 = n := by omega
        cases hprobe : probe ((lo + hi) / 2) with
        | none =>
            rcases hmid with hlt | hn
            · exact absurd hprobe (hguarded.inside _ (by omega) hlt)
            · rw [hn, hlast hn] at hprobe
              exact (nomatch hprobe)
        | some order =>
            cases order with
            | eq =>
                rcases hmid with hlt | hn
                · exact .inl ⟨_, rfl, by omega, hlt, hprobe⟩
                · rw [hn, hlast hn] at hprobe
                  exact (nomatch hprobe)
            | gt =>
                have hnext : wrap ((lo + hi) / 2 + 1) = (lo + hi) / 2 + 1 :=
                  hwrap _ (by omega) (by omega)
                dsimp only
                rw [hnext]
                refine ih ⟨by omega, hupper, fun i hi0 hlt hin => ?_, h.right⟩ (by omega) (by omega)
                rcases hmid with hm | hn
                · exact hguarded.above ((lo + hi) / 2) i hi0 (by omega) hm hprobe
                · exact h.left i hi0 (by omega) hin
            | lt =>
                have hm : (lo + hi) / 2 < n := by
                  rcases hmid with hm | hn
                  · exact hm
                  · rw [hn, hlast hn] at hprobe
                    exact (nomatch hprobe)
                have hnext : wrap ((lo + hi) / 2 - 1) = (lo + hi) / 2 - 1 :=
                  hdown _ (by omega) hm hprobe
                dsimp only
                rw [hnext]
                refine ih ⟨hlower, by omega, h.left, fun i hlt hi0 hin => ?_⟩ (by omega) (by omega)
                exact hguarded.below ((lo + hi) / 2) i (by omega) (by omega) hin hprobe

/-- With signed bounds nothing wraps. -/
theorem loop_spec (hordered : Ordered n probe) (hwrap : ∀ x, -1 ≤ x → x ≤ 2 * n + 1 → wrap x = x)
    (h : Bounds n probe lo hi) (hfuel : hi - lo + 2 ≤ fuel) (hpos : 0 < fuel) :
    (∃ i, loop wrap probe fuel lo hi = .found i ∧ 0 ≤ i ∧ i < n ∧ probe i = some .eq) ∨
    (loop wrap probe fuel lo hi = .absent ∧ ∀ i, 0 ≤ i → i < n → probe i ≠ some .eq) :=
  loop_guarded hordered.guarded (fun x hx hle => hwrap x (by omega) hle)
    (fun i hi hin _ => hwrap _ (by omega) (by omega)) h hfuel hpos

/-- The entries are in order, and there is no memory but theirs. -/
structure Confined (n : Int) (probe : Int → Option Ordering) : Prop where
  inside : ∀ i, 0 ≤ i → i < n → probe i ≠ none
  outside : ∀ i, i < 0 ∨ n ≤ i → probe i = none
  below : ∀ i j, 0 ≤ i → i ≤ j → j < n → probe i = some .lt → probe j = some .lt
  above : ∀ i j, 0 ≤ j → j ≤ i → i < n → probe i = some .gt → probe j = some .gt

/-- The key is neither below the first entry nor above the last one. -/
structure Between (n : Int) (probe : Int → Option Ordering) : Prop where
  pos : 0 < n
  first : probe 0 ≠ some .lt
  last : probe (n - 1) ≠ some .gt

theorem Confined.guarded (h : Confined n probe) (hbetween : Between n probe) : Guarded n probe where
  inside := h.inside
  below := h.below
  above := h.above
  last hall := by
    have hn := hbetween.pos
    exact absurd (hall (n - 1) (by omega) (by omega)) hbetween.last

/-- An unsigned bound does not wrap if the key is not below the first entry. -/
theorem wrap_pred (hfirst : probe 0 ≠ some .lt) (hwrap : ∀ x, 0 ≤ x → x ≤ 2 * n + 1 → wrap x = x)
    {i : Int} (hi : 0 ≤ i) (hin : i < n) (hprobe : probe i = some .lt) : wrap (i - 1) = i - 1 := by
  have hzero : i ≠ 0 := fun heq => hfirst (heq ▸ hprobe)
  exact hwrap _ (by omega) (by omega)

/-- Between the ends the bounds stay on entries. -/
theorem loop_between (hconfined : Confined n probe) (hbetween : Between n probe)
    (hwrap : ∀ x, 0 ≤ x → x ≤ 2 * n + 1 → wrap x = x) (h : Bounds n probe lo hi)
    (hfuel : hi - lo + 2 ≤ fuel) (hpos : 0 < fuel) :
    (∃ i, loop wrap probe fuel lo hi = .found i ∧ 0 ≤ i ∧ i < n ∧ probe i = some .eq) ∨
    (loop wrap probe fuel lo hi = .absent ∧ ∀ i, 0 ≤ i → i < n → probe i ≠ some .eq) :=
  loop_guarded (hconfined.guarded hbetween) hwrap
    (fun _ hi hin hprobe => wrap_pred hbetween.first hwrap hi hin hprobe) h hfuel hpos

/-- Above the last entry the place after it is looked at. -/
theorem loop_above (hconfined : Confined n probe)
    (habove : ∀ i, 0 ≤ i → i < n → probe i = some .gt)
    (hwrap : ∀ x, 0 ≤ x → x ≤ 2 * n + 1 → wrap x = x) (hlo : 0 ≤ lo ∧ lo ≤ n)
    (hfuel : n - lo + 1 ≤ fuel) : loop wrap probe fuel lo n = .outside := by
  induction fuel generalizing lo with
  | zero => omega
  | succ fuel ih =>
      have hgo : ¬n < lo := by omega
      have hsum : wrap (lo + n) = lo + n := hwrap _ (by omega) (by omega)
      unfold loop
      rw [if_neg hgo, hsum]
      dsimp only
      by_cases hmid : (lo + n) / 2 = n
      · rw [hmid, hconfined.outside n (.inr (Int.le_refl _))]
      · have hnext : wrap ((lo + n) / 2 + 1) = (lo + n) / 2 + 1 := hwrap _ (by omega) (by omega)
        rw [habove ((lo + n) / 2) (by omega) (by omega)]
        dsimp only
        rw [hnext]
        exact ih (by omega) (by omega)

/-- Below the first entry the upper bound wraps, and a place far outside is looked at. -/
theorem loop_below (hpos : 0 < n) (hbelow : ∀ i, 0 ≤ i → i < n → probe i = some .lt)
    (hwrap : ∀ x, 0 ≤ x → x ≤ 2 * n + 1 → wrap x = x)
    (hfar : probe (wrap (wrap (-1)) / 2) = none) (hnonneg : 0 ≤ wrap (-1))
    (hhi : 0 ≤ hi ∧ hi ≤ n) (hfuel : hi + 2 ≤ fuel) :
    loop wrap probe fuel 0 hi = .outside := by
  induction fuel generalizing hi with
  | zero => omega
  | succ fuel ih =>
      have hgo : ¬hi < 0 := by omega
      have hsum : wrap (0 + hi) = hi := by rw [Int.zero_add]; exact hwrap _ (by omega) (by omega)
      unfold loop
      rw [if_neg hgo, hsum]
      dsimp only
      rw [hbelow (hi / 2) (by omega) (by omega)]
      dsimp only
      by_cases hzero : hi / 2 = 0
      · obtain ⟨fuel, rfl⟩ : ∃ f, fuel = f + 1 := ⟨fuel - 1, by omega⟩
        have hgo' : ¬wrap (-1) < 0 := by omega
        rw [hzero, Int.zero_sub]
        unfold loop
        rw [if_neg hgo', Int.zero_add]
        dsimp only
        rw [hfar]
      · have hnext : wrap (hi / 2 - 1) = hi / 2 - 1 := hwrap _ (by omega) (by omega)
        rw [hnext]
        exact ih (by omega) (by omega)

/-- Exactly the keys between the ends are searched for among the entries. -/
theorem loop_ne_outside_iff (hconfined : Confined n probe) (hn : 0 ≤ n)
    (hwrap : ∀ x, 0 ≤ x → x ≤ 2 * n + 1 → wrap x = x)
    (hfar : n ≤ wrap (wrap (-1)) / 2 ∧ 0 ≤ wrap (-1)) (hfuel : n + 2 ≤ fuel) :
    loop wrap probe fuel 0 n ≠ .outside ↔ Between n probe := by
  constructor
  · intro hsearch
    by_contra hends
    by_cases hpos : 0 < n
    · by_cases hfirst : probe 0 = some .lt
      · exact hsearch (loop_below hpos
          (fun i hi hin => hconfined.below 0 i (Int.le_refl _) hi hin hfirst) hwrap
          (hconfined.outside _ (.inr hfar.1)) hfar.2 ⟨hn, Int.le_refl _⟩ hfuel)
      · have hlast : probe (n - 1) = some .gt := by
          by_contra hlast
          exact hends ⟨hpos, hfirst, hlast⟩
        exact hsearch (loop_above hconfined
          (fun i hi hin => hconfined.above (n - 1) i hi (by omega) (by omega) hlast) hwrap
          ⟨Int.le_refl _, hn⟩ (by omega))
    · exact hsearch (loop_above hconfined
        (fun i hi hin => absurd (Int.lt_of_le_of_lt hi hin) hpos) hwrap
        ⟨Int.le_refl _, hn⟩ (by omega))
  · intro hbetween
    have hbounds : Bounds n probe 0 n :=
      ⟨by omega, by omega, fun i hi hlt => absurd hlt (by omega), fun i hlt _ hin =>
        absurd hin (by omega)⟩
    have hwindow : n - 0 + 2 ≤ (fuel : Int) := by omega
    have hpos : 0 < fuel := by omega
    rcases loop_between hconfined hbetween hwrap hbounds hwindow hpos with
      ⟨i, hfound, -⟩ | ⟨habsent, -⟩
    · rw [hfound]
      exact nofun
    · rw [habsent]
      exact nofun

/-- A search that has ended is not changed by more fuel. -/
theorem loop_add (h : loop wrap probe fuel lo hi ≠ .running) (k : Nat) :
    loop wrap probe (fuel + k) lo hi = loop wrap probe fuel lo hi := by
  induction fuel generalizing lo hi with
  | zero => exact absurd rfl h
  | succ fuel ih =>
      rw [Nat.succ_add]
      unfold loop at h ⊢
      by_cases hend : hi < lo
      · rw [if_pos hend, if_pos hend]
      · rw [if_neg hend] at h ⊢
        rw [if_neg hend]
        dsimp only at h ⊢
        cases hprobe : probe (wrap (lo + hi) / 2) with
        | none => rfl
        | some order =>
            rw [hprobe] at h
            cases order with
            | eq => rfl
            | gt => exact ih h
            | lt => exact ih h

theorem found_probe {i : Int} (h : loop wrap probe fuel lo hi = .found i) :
    probe i = some .eq := by
  induction fuel generalizing lo hi with
  | zero => cases h
  | succ fuel ih =>
      unfold loop at h
      split at h
      · cases h
      · dsimp only at h
        cases hprobe : probe (wrap (lo + hi) / 2) with
        | none =>
            rw [hprobe] at h
            cases h
        | some order =>
            rw [hprobe] at h
            cases order with
            | eq =>
                cases h
                exact hprobe
            | gt => exact ih h
            | lt => exact ih h

/-- A bound that wraps leads to no entry. -/
theorem wrapped_ne_found (hfar : probe (wrap (wrap (-1)) / 2) = none) {i : Int} :
    loop wrap probe fuel 0 (wrap (-1)) ≠ .found i := by
  intro h
  cases fuel with
  | zero => cases h
  | succ fuel =>
      unfold loop at h
      rw [Int.zero_add] at h
      dsimp only at h
      rw [hfar] at h
      split at h <;> cases h

/-- The first of the comparisons that find an entry. -/
theorem found_cases (hwrap : ∀ x, 0 ≤ x → x ≤ 2 * n + 1 → wrap x = x)
    (hfar : probe (wrap (wrap (-1)) / 2) = none) (hlo : 0 ≤ lo) (hhi : hi ≤ n) {i : Int}
    (h : loop wrap probe (fuel + 1) lo hi = .found i) : lo ≤ hi ∧
      (i = (lo + hi) / 2 ∨
        (probe ((lo + hi) / 2) = some .gt ∧
          loop wrap probe fuel ((lo + hi) / 2 + 1) hi = .found i) ∨
        (probe ((lo + hi) / 2) = some .lt ∧
          loop wrap probe fuel lo ((lo + hi) / 2 - 1) = .found i)) := by
  unfold loop at h
  by_cases hend : hi < lo
  · rw [if_pos hend] at h
    cases h
  · have hsum : wrap (lo + hi) = lo + hi := hwrap _ (by omega) (by omega)
    rw [if_neg hend, hsum] at h
    dsimp only at h
    refine ⟨by omega, ?_⟩
    cases hprobe : probe ((lo + hi) / 2) with
    | none =>
        rw [hprobe] at h
        cases h
    | some order =>
        rw [hprobe] at h
        cases order with
        | eq =>
            cases h
            exact .inl rfl
        | gt =>
            have hnext : wrap ((lo + hi) / 2 + 1) = (lo + hi) / 2 + 1 :=
              hwrap _ (by omega) (by omega)
            dsimp only at h
            rw [hnext] at h
            exact .inr (.inl ⟨rfl, h⟩)
        | lt =>
            dsimp only at h
            by_cases hzero : (lo + hi) / 2 = 0
            · have hlow : lo = 0 := by omega
              rw [hzero, hlow, Int.zero_sub] at h
              exact absurd h (wrapped_ne_found hfar)
            · have hnext : wrap ((lo + hi) / 2 - 1) = (lo + hi) / 2 - 1 :=
                hwrap _ (by omega) (by omega)
              rw [hnext] at h
              exact .inr (.inr ⟨rfl, h⟩)

/-- What is found is in the window. -/
theorem found_mem (hwrap : ∀ x, 0 ≤ x → x ≤ 2 * n + 1 → wrap x = x)
    (hfar : probe (wrap (wrap (-1)) / 2) = none) (hlo : 0 ≤ lo) (hhi : hi ≤ n) {i : Int}
    (h : loop wrap probe fuel lo hi = .found i) : lo ≤ i ∧ i ≤ hi := by
  induction fuel generalizing lo hi with
  | zero => cases h
  | succ fuel ih =>
      obtain ⟨hle, rfl | ⟨-, h⟩ | ⟨-, h⟩⟩ := found_cases hwrap hfar hlo hhi h
      · omega
      · have hin := ih (by omega) hhi h
        omega
      · have hin := ih hlo (by omega) h
        omega

/-- If every entry is found by its key, the keys are in order: the halvings form a search tree. -/
theorem lt_of_found {key : Int → Int} {probes : Int → Int → Option Ordering}
    (hlt : ∀ j i, probes j i = some .lt → key j < key i)
    (hgt : ∀ j i, probes j i = some .gt → key i < key j)
    (hwrap : ∀ x, 0 ≤ x → x ≤ 2 * n + 1 → wrap x = x)
    (hfar : ∀ j, probes j (wrap (wrap (-1)) / 2) = none) (hlo : 0 ≤ lo) (hhi : hi ≤ n)
    (hfound : ∀ j, lo ≤ j → j ≤ hi → j < n → loop wrap (probes j) fuel lo hi = .found j)
    {a b : Int} (ha : lo ≤ a) (hab : a < b) (hb : b ≤ hi) (hbn : b < n) : key a < key b := by
  induction fuel generalizing lo hi with
  | zero =>
      have hrunning := hfound a ha (by omega) (by omega)
      cases hrunning
  | succ fuel ih =>
      have hleft : ∀ j, lo ≤ j → j < (lo + hi) / 2 → j < n →
          key j < key ((lo + hi) / 2) ∧
            loop wrap (probes j) fuel lo ((lo + hi) / 2 - 1) = .found j := by
        intro j hj hjm hjn
        obtain ⟨-, hmid | ⟨-, h⟩ | ⟨hprobe, h⟩⟩ :=
          found_cases hwrap (hfar j) hlo hhi (hfound j hj (by omega) hjn)
        · omega
        · have hin := found_mem hwrap (hfar j) (by omega) hhi h
          omega
        · exact ⟨hlt j _ hprobe, h⟩
      have hright : ∀ j, (lo + hi) / 2 < j → j ≤ hi → j < n →
          key ((lo + hi) / 2) < key j ∧
            loop wrap (probes j) fuel ((lo + hi) / 2 + 1) hi = .found j := by
        intro j hjm hjhi hjn
        obtain ⟨-, hmid | ⟨hprobe, h⟩ | ⟨-, h⟩⟩ :=
          found_cases hwrap (hfar j) hlo hhi (hfound j (by omega) hjhi hjn)
        · omega
        · exact ⟨hgt j _ hprobe, h⟩
        · have hin := found_mem hwrap (hfar j) hlo (by omega) h
          omega
      by_cases hbm : b < (lo + hi) / 2
      · exact ih hlo (by omega) (fun j hj hjhi hjn => (hleft j hj (by omega) hjn).2) ha (by omega)
      · by_cases ham : (lo + hi) / 2 < a
        · exact ih (by omega) hhi (fun j hj hjhi hjn => (hright j (by omega) hjhi hjn).2)
            (by omega) hb
        · by_cases heq : a = (lo + hi) / 2
          · rw [heq]
            exact (hright b (by omega) hb hbn).1
          · have hfirst := (hleft a ha (by omega) (by omega)).1
            by_cases heq' : b = (lo + hi) / 2
            · rw [heq']
              exact hfirst
            · exact Int.lt_trans hfirst (hright b (by omega) hb hbn).1

end Search
