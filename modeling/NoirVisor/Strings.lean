import NoirVisor.Search
import Mathlib.Logic.Function.Basic
import Mathlib.Order.Lattice

/-!
# Terminated strings

A string is the characters from its place in memory on, and ends at the first zero. Strings are in the
order of the codes of the characters in which they differ first.
-/

namespace Strings

variable {α κ : Type} [Zero α] [LinearOrder κ]

/-- What stands at the place of a string literal. -/
def ofList (characters : List α) : Nat → α := fun i => characters.getD i 0

/-- The same string, as far as it goes. -/
def Same (s t : Nat → α) : Prop := ∃ k, (∀ j ≤ k, s j = t j) ∧ s k = 0

def Terminated (s : Nat → α) (length : Nat) : Prop := s length = 0 ∧ ∀ j < length, s j ≠ 0

variable (code : α → κ)

def Before (s t : Nat → α) : Prop :=
  ∃ k, (∀ j < k, s j = t j ∧ s j ≠ 0) ∧ code (s k) < code (t k)

variable [DecidableEq α]

/-- The comparison of at most `n` characters. -/
def compareUpTo : Nat → (Nat → α) → (Nat → α) → Ordering
  | 0, _, _ => .eq
  | n + 1, s, t =>
      if s 0 = t 0 ∧ s 0 ≠ 0 then compareUpTo n (fun i => s (i + 1)) fun i => t (i + 1)
      else compare (code (s 0)) (code (t 0))

section

omit [DecidableEq α]

variable {code} {s t u : Nat → α}

omit [LinearOrder κ] in
theorem ofList_length (characters : List α) : ofList characters characters.length = 0 := by
  simp [ofList]

theorem Same.symm (h : Same s t) : Same t s := by
  obtain ⟨k, hagree, hend⟩ := h
  exact ⟨k, fun j hj => (hagree j hj).symm, (hagree k (Nat.le_refl k)).symm.trans hend⟩

theorem Same.cons (h : Same (fun i => s (i + 1)) fun i => t (i + 1)) (hhead : s 0 = t 0) :
    Same s t := by
  obtain ⟨k, hagree, hend⟩ := h
  refine ⟨k + 1, fun j hj => ?_, hend⟩
  cases j with
  | zero => exact hhead
  | succ j => exact hagree j (by omega)

theorem Before.cons (h : Before code (fun i => s (i + 1)) fun i => t (i + 1)) (hhead : s 0 = t 0)
    (hne : s 0 ≠ 0) : Before code s t := by
  obtain ⟨k, hagree, hlt⟩ := h
  refine ⟨k + 1, fun j hj => ?_, hlt⟩
  cases j with
  | zero => exact ⟨hhead, hne⟩
  | succ j => exact hagree j (by omega)

theorem Before.trans (hst : Before code s t) (htu : Before code t u) : Before code s u := by
  obtain ⟨k, hs, hlt⟩ := hst
  obtain ⟨l, ht, hlt'⟩ := htu
  obtain hkl | rfl | hlk := Nat.lt_trichotomy k l
  · refine ⟨k, fun j hj => ?_, (ht k hkl).1 ▸ hlt⟩
    exact ⟨(hs j hj).1.trans (ht j (by omega)).1, (hs j hj).2⟩
  · refine ⟨k, fun j hj => ?_, lt_trans hlt hlt'⟩
    exact ⟨(hs j hj).1.trans (ht j hj).1, (hs j hj).2⟩
  · refine ⟨l, fun j hj => ?_, (hs l hlk).1.symm ▸ hlt'⟩
    exact ⟨(hs j (by omega)).1.trans (ht j hj).1, (hs j (by omega)).2⟩

/-- A string is compared up to its end and no further. -/
theorem Before.congr_left (h : Before code s u) (hsame : Same s t) : Before code t u := by
  obtain ⟨k, hagree, hlt⟩ := h
  obtain ⟨l, hst, hend⟩ := hsame
  have hkl : k ≤ l := Nat.le_of_not_lt fun hlk => (hagree l hlk).2 hend
  refine ⟨k, fun j hj => ?_, hst k hkl ▸ hlt⟩
  rw [← hst j (by omega)]
  exact hagree j hj

theorem Before.congr_right (h : Before code s t) (hsame : Same t u) : Before code s u := by
  obtain ⟨k, hagree, hlt⟩ := h
  obtain ⟨l, htu, hend⟩ := hsame
  have hkl : k ≤ l := Nat.le_of_not_lt fun hlk => by
    have hat := hagree l hlk
    exact hat.2 (hat.1.trans hend)
  refine ⟨k, fun j hj => ?_, htu k hkl ▸ hlt⟩
  rw [← htu j (by omega)]
  exact hagree j hj

theorem Same.not_before (h : Same s t) : ¬Before code s t := by
  rintro ⟨k, hagree, hlt⟩
  obtain ⟨l, hst, hend⟩ := h
  have hkl : k ≤ l := Nat.le_of_not_lt fun hlk => (hagree l hlk).2 hend
  rw [hst k hkl] at hlt
  exact absurd hlt (lt_irrefl _)

theorem Before.irrefl : ¬Before code s s := by
  rintro ⟨k, -, hlt⟩
  exact absurd hlt (lt_irrefl _)

end

/-- What a comparison says of two strings. -/
def Compares (s t : Nat → α) : Ordering → Prop
  | .lt => Before code s t
  | .eq => Same s t
  | .gt => Before code t s

variable {code} {s t u : Nat → α} {n k : Nat} {order : Ordering}

theorem compareUpTo_compares (hinjective : Function.Injective code) (hend : s k = 0) (hk : k < n) :
    Compares code s t (compareUpTo code n s t) := by
  induction n generalizing s t k with
  | zero => exact absurd hk (Nat.not_lt_zero k)
  | succ n ih =>
      unfold compareUpTo
      by_cases hgoes : s 0 = t 0 ∧ s 0 ≠ 0
      · obtain ⟨hhead, hne⟩ := hgoes
        rw [if_pos ⟨hhead, hne⟩]
        cases k with
        | zero => exact absurd hend hne
        | succ k =>
            have htail := ih (s := fun i => s (i + 1)) (t := fun i => t (i + 1)) hend (by omega)
            cases horder : compareUpTo code n (fun i => s (i + 1)) fun i => t (i + 1) with
            | lt =>
                rw [horder] at htail
                exact Before.cons htail hhead hne
            | eq =>
                rw [horder] at htail
                exact Same.cons htail hhead
            | gt =>
                rw [horder] at htail
                exact Before.cons htail hhead.symm (hhead ▸ hne)
      · rw [if_neg hgoes]
        cases horder : compare (code (s 0)) (code (t 0)) with
        | lt => exact ⟨0, fun j hj => absurd hj (Nat.not_lt_zero j), compare_lt_iff_lt.mp horder⟩
        | eq =>
            have hhead := hinjective (compare_eq_iff_eq.mp horder)
            refine ⟨0, fun j hj => ?_, ?_⟩
            · rw [Nat.le_zero.mp hj]
              exact hhead
            · by_contra hne
              exact hgoes ⟨hhead, hne⟩
        | gt => exact ⟨0, fun j hj => absurd hj (Nat.not_lt_zero j), compare_gt_iff_gt.mp horder⟩

omit [DecidableEq α] in
theorem Compares.swap (h : Compares code s t order) : Compares code t s order.swap := by
  cases order with
  | lt => exact h
  | eq => exact Same.symm h
  | gt => exact h

omit [DecidableEq α] in
/-- Only one of the answers is right. -/
theorem Compares.unique {order' : Ordering} (h : Compares code s t order)
    (h' : Compares code s t order') : order = order' := by
  cases order <;> cases order'
  case lt.lt | eq.eq | gt.gt => rfl
  case lt.eq => exact absurd h (Same.not_before h')
  case lt.gt => exact absurd (Before.trans h h') Before.irrefl
  case eq.lt => exact absurd h' (Same.not_before h)
  case eq.gt => exact absurd h' (Same.not_before (Same.symm h))
  case gt.lt => exact absurd (Before.trans h h') Before.irrefl
  case gt.eq => exact absurd h (Same.not_before (Same.symm h'))

variable (code) in
/-- Strings in their order. -/
structure Sorted (n : Nat) (name : Nat → Nat → α) : Prop where
  terminated : ∀ i < n, ∃ k, name i k = 0
  sorted : ∀ i j, i ≤ j → j < n → ¬Before code (name j) (name i)

theorem Sorted.before {name : Nat → Nat → α} (h : Sorted code n name)
    (hinjective : Function.Injective code) {i j : Nat} (hij : i ≤ j) (hj : j < n) :
    Same (name i) (name j) ∨ Before code (name i) (name j) := by
  obtain ⟨k, hend⟩ := h.terminated i (by omega)
  have hcompares := compareUpTo_compares (t := name j) hinjective hend (Nat.lt_succ_self k)
  cases horder : compareUpTo code (k + 1) (name i) (name j) with
  | lt =>
      rw [horder] at hcompares
      exact .inr hcompares
  | eq =>
      rw [horder] at hcompares
      exact .inl hcompares
  | gt =>
      rw [horder] at hcompares
      exact absurd hcompares (h.sorted i j hij hj)

/-- A search among sorted strings. -/
theorem Sorted.confined {name : Nat → Nat → α} {key : Nat → α} {probe : Int → Option Ordering}
    (h : Sorted code n name) (hinjective : Function.Injective code)
    (hinside : ∀ i < n, ∃ order, probe i = some order ∧ Compares code key (name i) order)
    (houtside : ∀ i : Int, i < 0 ∨ n ≤ i → probe i = none) : Search.Confined n probe where
  inside i hi hin := by
    obtain ⟨order, hprobe, -⟩ := hinside i.toNat (by omega)
    rw [Int.toNat_of_nonneg hi] at hprobe
    rw [hprobe]
    exact nofun
  outside := houtside
  below i j hi hij hjn hlt := by
    obtain ⟨order, hprobe, hcompares⟩ := hinside i.toNat (by omega)
    obtain ⟨order', hprobe', hcompares'⟩ := hinside j.toNat (by omega)
    rw [Int.toNat_of_nonneg hi] at hprobe
    rw [Int.toNat_of_nonneg (by omega)] at hprobe'
    obtain rfl := Option.some.inj (hprobe.symm.trans hlt)
    rw [hprobe']
    congr 1
    apply hcompares'.unique
    rcases h.before hinjective (i := i.toNat) (j := j.toNat) (by omega) (by omega) with hsame | hbefore
    · exact Before.congr_right hcompares hsame
    · exact Before.trans hcompares hbefore
  above i j hj hji hin hgt := by
    obtain ⟨order, hprobe, hcompares⟩ := hinside i.toNat (by omega)
    obtain ⟨order', hprobe', hcompares'⟩ := hinside j.toNat (by omega)
    rw [Int.toNat_of_nonneg (by omega)] at hprobe
    rw [Int.toNat_of_nonneg hj] at hprobe'
    obtain rfl := Option.some.inj (hprobe.symm.trans hgt)
    rw [hprobe']
    congr 1
    apply hcompares'.unique
    rcases h.before hinjective (i := j.toNat) (j := i.toNat) (by omega) (by omega) with hsame | hbefore
    · exact Before.congr_left hcompares hsame.symm
    · exact Before.trans hbefore hcompares

/-! ### A search in a table of strings -/

variable (code) in
/-- The key against the strings of the table. Beyond them there is nothing to compare with. -/
def probe (name : Nat → Nat → α) (n length : Nat) (key : Nat → α) (mid : Int) : Option Ordering :=
  if mid < 0 ∨ n ≤ mid then none else some (compareUpTo code length key (name mid.toNat))

variable (code) in
/-- The key is neither before the first string nor after the last one. -/
structure Within (name : Nat → Nat → α) (n : Nat) (key : Nat → α) : Prop where
  pos : 0 < n
  first : ¬Before code key (name 0)
  last : ¬Before code (name (n - 1)) key

section

variable {name : Nat → Nat → α} {length i : Nat} {key : Nat → α} {wrap : Int → Int} {fuel : Nat}

theorem probe_eq_iff (hinjective : Function.Injective code) (hend : key k = 0) (hk : k < length)
    (hi : i < n) :
    probe code name n length key i = some order ↔ Compares code key (name i) order := by
  have hcompares := compareUpTo_compares (t := name i) hinjective hend hk
  unfold probe
  rw [if_neg (by omega), Int.toNat_natCast, Option.some_inj]
  constructor
  · rintro rfl
    exact hcompares
  · exact hcompares.unique

theorem Sorted.probe_confined (h : Sorted code n name) (hinjective : Function.Injective code)
    (hend : key k = 0) (hk : k < length) :
    Search.Confined n (probe code name n length key) := by
  have hinside : ∀ i < n, ∃ order, probe code name n length key i = some order ∧
      Compares code key (name i) order := by
    intro i hi
    refine ⟨compareUpTo code length key (name i), ?_, compareUpTo_compares hinjective hend hk⟩
    unfold probe
    rw [if_neg (by omega), Int.toNat_natCast]
  exact h.confined hinjective hinside fun i hi => if_pos hi

theorem between_iff (hinjective : Function.Injective code) (hend : key k = 0) (hk : k < length) :
    Search.Between n (probe code name n length key) ↔ Within code name n key := by
  have hprobe (i : Nat) (order : Ordering) (hi : i < n) : probe code name n length key i = some order ↔
      Compares code key (name i) order := probe_eq_iff hinjective hend hk hi
  constructor
  · rintro ⟨hpos, hfirst, hlast⟩
    rw [show (n : Int) - 1 = (n - 1 : Nat) by omega] at hlast
    refine ⟨by omega, fun hbefore => hfirst ?_, fun hbefore => hlast ?_⟩
    · exact (hprobe 0 .lt (by omega)).mpr hbefore
    · exact (hprobe _ .gt (by omega)).mpr hbefore
  · rintro ⟨hpos, hfirst, hlast⟩
    refine ⟨by omega, fun hbefore => hfirst ?_, fun hbefore => hlast ?_⟩
    · exact (hprobe 0 .lt hpos).mp hbefore
    · rw [show (n : Int) - 1 = (n - 1 : Nat) by omega] at hbefore
      exact (hprobe _ .gt (by omega)).mp hbefore

/-- With unsigned bounds exactly the keys between the ends are compared with strings of the table only. -/
theorem Sorted.search_iff (h : Sorted code n name) (hinjective : Function.Injective code)
    (hend : key k = 0) (hk : k < length) (hwrap : ∀ x, 0 ≤ x → x ≤ 2 * (n : Int) + 1 → wrap x = x)
    (hfar : (n : Int) ≤ wrap (wrap (-1)) / 2 ∧ 0 ≤ wrap (-1)) (hfuel : n + 2 ≤ fuel) :
    Search.loop wrap (probe code name n length key) fuel 0 n ≠ .outside ↔
      Within code name n key := by
  rw [Search.loop_ne_outside_iff (h.probe_confined hinjective hend hk) (by omega) hwrap hfar
    (by omega)]
  exact between_iff hinjective hend hk

/-- Between the ends the string is found if it is there. -/
theorem Sorted.search_within (h : Sorted code n name) (hinjective : Function.Injective code)
    (hend : key k = 0) (hk : k < length) (hwrap : ∀ x, 0 ≤ x → x ≤ 2 * (n : Int) + 1 → wrap x = x)
    (hwithin : Within code name n key) (hfuel : n + 2 ≤ fuel) :
    (∃ i : Nat, Search.loop wrap (probe code name n length key) fuel 0 n = .found i ∧ i < n ∧
      Same key (name i)) ∨
    (Search.loop wrap (probe code name n length key) fuel 0 n = .absent ∧
      ∀ i < n, ¬Same key (name i)) := by
  have hbounds : Search.Bounds n (probe code name n length key) 0 n := by
    constructor
    · omega
    · omega
    · exact fun i hi hlt => absurd hlt (by omega)
    · exact fun i hlt _ hin => absurd hin (by omega)
  have hprobe (i : Nat) (order : Ordering) (hi : i < n) : probe code name n length key i = some order ↔
      Compares code key (name i) order := probe_eq_iff hinjective hend hk hi
  have hwindow : (n : Int) - 0 + 2 ≤ fuel := by omega
  rcases Search.loop_between (h.probe_confined hinjective hend hk)
    ((between_iff hinjective hend hk).mpr hwithin) hwrap hbounds hwindow (by omega) with
    ⟨i, hfound, hi, hin, heq⟩ | ⟨habsent, hnone⟩
  · obtain ⟨i, rfl⟩ := Int.eq_ofNat_of_zero_le hi
    exact .inl ⟨i, hfound, by omega, (hprobe i .eq (by omega)).mp heq⟩
  · refine .inr ⟨habsent, fun i hi hsame => ?_⟩
    exact hnone i (by omega) (by omega) ((hprobe i .eq hi).mpr hsame)

end

end Strings
