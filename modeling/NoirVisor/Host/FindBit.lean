import NoirVisor.Platform
import NoirVisor.Tlb.Tagging
import Mathlib.Data.List.Find
import Mathlib.Data.List.GetD
import Mathlib.Tactic.Ring

/-!
# Searches in bitmaps

The first clear bit and the first set bit of a bitmap (`xpf_core/devkits.c`). The limit is a number of
bits, and the bitmap is read by words.
-/

namespace NoirVisor

namespace FindBit

open Bitmap

/-- The words of a 64-bit build and those of a 32-bit one. -/
def wordBits (amd64 : Bool) : Nat := if amd64 then 64 else 32

/-- The scan for the lowest bit that is set. What is left in the result if there is none is not
documented. -/
def noirBsf {w : Nat} (leaves : Nat → Nat) (result : Nat) (mask : BitVec w) : Bool × Nat :=
  match (List.range w).find? mask.getLsbD with
  | some j => (true, j)
  | none => (false, leaves result)

section

variable {w : Nat} (leaves : Nat → Nat) (mask : BitVec w → BitVec w) (bitmap : List (BitVec w))

/-- The loop over so many words, from the word `i` on. -/
def search : Nat → Nat → Nat → Outcome Nat
  | 0, _, result => .ok result
  | words + 1, i, result =>
      match bitmap[i]? with
      | none => .error .outOfBounds
      | some word =>
        match noirBsf leaves result (mask word) with
        | (true, j) => .ok ((j + w * i) % 2 ^ 32)
        | (false, left) => search words (i + 1) left

/-- The words that hold bits below the limit. -/
def limitIndex (w limit : Nat) : Nat := limit / w + if limit % w = 0 then 0 else 1

def noirFindClearBit (limit : Nat) : Outcome Nat :=
  search leaves (fun word => ~~~word) bitmap (limitIndex w limit) 0 0xffffffff

def noirFindSetBit (limit : Nat) : Outcome Nat :=
  search leaves (fun word => word) bitmap (limitIndex w limit) 0 0xffffffff

/-- The bits that the search does not stop at. -/
def passes (i : Nat) : Bool := !(mask (bitmap.getD (i / w) 0)).getLsbD (i % w)

def bit (i : Nat) : Bool := (bitmap.getD (i / w) 0).getLsbD (i % w)

end

/-- The lowest clear bit below the limit, if there is one. -/
def Finds (bits : Nat → Bool) (limit : Nat) (found : Outcome Nat) : Prop :=
  (∃ i, FirstClear bits limit i ∧ found = .ok i) ∨
    (∀ i < limit, bits i = true) ∧ found = .ok 0xffffffff

/-- In the last word nothing is found that is not below the limit, and a result that is not written stays
as it was. -/
structure Confined (w : Nat) (leaves : Nat → Nat) (bits : Nat → Bool) (limit : Nat) : Prop where
  below : ∀ i, FirstClear bits (w * limitIndex w limit) i → i < limit ∨ i = 0xffffffff
  left : (∀ i < w * limitIndex w limit, bits i = true) →
    leaves^[limitIndex w limit] 0xffffffff = 0xffffffff

variable {w : Nat} {leaves : Nat → Nat} {mask : BitVec w → BitVec w} {bitmap : List (BitVec w)}
  {bits : Nat → Bool} {limit i words result : Nat}

theorem noirBsf_eq (mask : BitVec w → BitVec w) (bitmap : List (BitVec w)) (leaves : Nat → Nat)
    (result i : Nat) :
    noirBsf leaves result (mask (bitmap.getD i 0)) =
      match scanWord (passes mask bitmap) w (w * i) with
      | some j => (true, j)
      | none => (false, leaves result) := by
  have hscan : (List.range w).find? (mask (bitmap.getD i 0)).getLsbD =
      scanWord (passes mask bitmap) w (w * i) := by
    unfold scanWord
    apply List.find?_congr
    intro j hj
    rw [List.mem_range] at hj
    have hword : (w * i + j) / w = i := by
      rw [Nat.mul_add_div (by omega), Nat.div_eq_of_lt hj, Nat.add_zero]
    have hbit : (w * i + j) % w = j := by
      rw [Nat.mul_add_mod, Nat.mod_eq_of_lt hj]
    unfold passes
    rw [hword, hbit, Bool.not_not]
  unfold noirBsf
  rw [hscan]

/-- The words before are passed. -/
theorem search_spec (leaves : Nat → Nat) (mask : BitVec w → BitVec w) (result : Nat)
    (hlength : i + words ≤ bitmap.length)
    (hbefore : ∀ k < w * i, passes mask bitmap k = true) :
    (∃ k, FirstClear (passes mask bitmap) (w * (i + words)) k ∧
      search leaves mask bitmap words i result = .ok (k % 2 ^ 32)) ∨
    (∀ k < w * (i + words), passes mask bitmap k = true) ∧
      search leaves mask bitmap words i result = .ok (leaves^[words] result) := by
  induction words generalizing i result with
  | zero => exact .inr ⟨hbefore, rfl⟩
  | succ words ih =>
      have hi : i < bitmap.length := by omega
      have hget : bitmap[i]? = some (bitmap.getD i 0) := by
        rw [List.getElem?_eq_getElem hi, List.getD_eq_getElem _ _ hi]
      unfold search
      rw [hget]
      dsimp only
      rw [noirBsf_eq]
      cases hscan : scanWord (passes mask bitmap) w (w * i) with
      | some j =>
          obtain ⟨hlt, hclear, hset⟩ := FirstClear.append hbefore (scanWord_eq_some.mp hscan)
          have hwords : w * (i + (words + 1)) = w * i + w + w * words := by ring
          refine .inl ⟨w * i + j, ⟨by omega, hclear, hset⟩, ?_⟩
          dsimp only
          rw [Nat.add_comm j]
      | none =>
          have hnext : ∀ k < w * (i + 1), passes mask bitmap k = true :=
            set_append hbefore (scanWord_eq_none.mp hscan)
          have hrest := ih (leaves result) (by omega) hnext
          have hwords : i + 1 + words = i + (words + 1) := by omega
          rw [hwords] at hrest
          exact hrest

theorem limit_le (hw : 0 < w) : limit ≤ w * limitIndex w limit := by
  unfold limitIndex
  have hsplit := Nat.div_add_mod limit w
  have hmod := Nat.mod_lt limit hw
  split
  · rw [Nat.add_zero]
    omega
  · rw [Nat.mul_add]
    omega

theorem limitIndex_le (hlimit : limit ≤ w * words) : limitIndex w limit ≤ words := by
  have hsplit := Nat.div_add_mod limit w
  have hdiv : limit / w ≤ words := Nat.div_le_of_le_mul hlimit
  unfold limitIndex
  split
  · exact hdiv
  · next hpartial =>
    have hlt : limit / w < words := by
      apply lt_of_le_of_ne hdiv
      rintro rfl
      omega
    exact hlt

theorem index_mod (hw : w ∣ 2 ^ 32) (hlimit : limit < 2 ^ 32)
    (hi : i < w * limitIndex w limit) : i % 2 ^ 32 = i := by
  obtain ⟨all, hall⟩ := hw
  have hle : limitIndex w limit ≤ all := limitIndex_le (by omega)
  have hmul : w * limitIndex w limit ≤ w * all := Nat.mul_le_mul_left w hle
  exact Nat.mod_eq_of_lt (by omega)

/-- For every bitmap and limit. The words that are read are there. -/
theorem finds_iff (mask : BitVec w → BitVec w) (hw : w ∣ 2 ^ 32) (hpos : 0 < w) (hlimit : limit < 2 ^ 32)
    (hwords : limit ≤ w * bitmap.length) :
    Finds (passes mask bitmap) limit
        (search leaves mask bitmap (limitIndex w limit) 0 0xffffffff) ↔
      Confined w leaves (passes mask bitmap) limit := by
  have hle : limit ≤ w * limitIndex w limit := limit_le hpos
  have hread : 0 + limitIndex w limit ≤ bitmap.length := by
    rw [Nat.zero_add]
    exact limitIndex_le hwords
  have hspec := search_spec leaves mask 0xffffffff hread
    (fun k hk => absurd hk (by omega))
  rw [Nat.zero_add] at hspec
  constructor
  · intro hfinds
    rcases hspec with ⟨k, hfirst, hfound⟩ | ⟨hall, hfound⟩
    · rw [index_mod hw hlimit hfirst.lt] at hfound
      refine ⟨fun i hi => ?_, fun hall => ?_⟩
      · obtain rfl := hi.unique hfirst
        rcases hfinds with ⟨j, hj, hsame⟩ | ⟨-, hsame⟩
        · obtain rfl : i = j := Except.ok.inj (hfound.symm.trans hsame)
          exact .inl hj.lt
        · exact .inr (Except.ok.inj (hfound.symm.trans hsame))
      · exact absurd (hfirst.clear.symm.trans (hall k hfirst.lt)) Bool.false_ne_true
    · refine ⟨fun i hi => ?_, fun _ => ?_⟩
      · exact absurd (hi.clear.symm.trans (hall i hi.lt)) Bool.false_ne_true
      · rcases hfinds with ⟨j, hj, -⟩ | ⟨-, hsame⟩
        · have hset := hall j (Nat.lt_of_lt_of_le hj.lt hle)
          exact absurd (hj.clear.symm.trans hset) Bool.false_ne_true
        · exact Except.ok.inj (hfound.symm.trans hsame)
  · rintro ⟨hbelow, hleft⟩
    rcases hspec with ⟨k, hfirst, hfound⟩ | ⟨hall, hfound⟩
    · rw [index_mod hw hlimit hfirst.lt] at hfound
      by_cases hk : k < limit
      · exact .inl ⟨k, ⟨hk, hfirst.clear, hfirst.set⟩, hfound⟩
      · refine .inr ⟨fun i hi => hfirst.set i (by omega), ?_⟩
        rw [hfound, (hbelow k hfirst).resolve_left hk]
    · refine .inr ⟨fun i hi => hall i (Nat.lt_of_lt_of_le hi hle), ?_⟩
      rw [hfound, hleft hall]

theorem passes_complement (hpos : 0 < w) :
    passes (fun word : BitVec w => ~~~word) bitmap = bit bitmap := by
  funext i
  unfold passes bit
  rw [BitVec.getLsbD_not, decide_eq_true (Nat.mod_lt i hpos), Bool.true_and, Bool.not_not]

theorem wordBits_dvd (amd64 : Bool) : wordBits amd64 ∣ 2 ^ 32 := by
  cases amd64 <;> decide

theorem wordBits_pos (amd64 : Bool) : 0 < wordBits amd64 := by
  cases amd64 <;> decide

theorem finds_clear_iff {amd64 : Bool} {bitmap : List (BitVec (wordBits amd64))} (hlimit : limit < 2 ^ 32)
    (hwords : limit ≤ wordBits amd64 * bitmap.length) :
    Finds (bit bitmap) limit (noirFindClearBit leaves bitmap limit) ↔
      Confined (wordBits amd64) leaves (bit bitmap) limit := by
  rw [← passes_complement (wordBits_pos amd64)]
  exact finds_iff _ (wordBits_dvd amd64) (wordBits_pos amd64) hlimit hwords

/-- Both searches, in either build. -/
theorem finds_bits_iff (amd64 : Bool) (leaves : Nat → Nat)
    (bitmap : List (BitVec (wordBits amd64))) (limit : Nat) (hlimit : limit < 2 ^ 32)
    (hwords : limit ≤ wordBits amd64 * bitmap.length) :
    (Finds (bit bitmap) limit (noirFindClearBit leaves bitmap limit) ↔
      Confined (wordBits amd64) leaves (bit bitmap) limit) ∧
    (Finds (fun i => !bit bitmap i) limit (noirFindSetBit leaves bitmap limit) ↔
      Confined (wordBits amd64) leaves (fun i => !bit bitmap i) limit) := by
  constructor
  · exact finds_clear_iff hlimit hwords
  · exact finds_iff (fun word => word) (wordBits_dvd amd64) (wordBits_pos amd64) hlimit hwords

/-- The search that the allocators of tags and of slots are modelled with, where the scan leaves the
result alone. -/
theorem noirFindClearBit_eq {bitmap : List (BitVec 64)} (hlimit : limit < 2 ^ 32)
    (hwords : limit ≤ 64 * bitmap.length) :
    noirFindClearBit id bitmap limit = .ok (NoirVisor.noirFindClearBit (bit bitmap) limit) := by
  have hread : 0 + limitIndex 64 limit ≤ bitmap.length := by
    rw [Nat.zero_add]
    exact limitIndex_le hwords
  have hspec := search_spec id (fun word : BitVec 64 => ~~~word) 0xffffffff hread
    (fun k hk => absurd hk (by omega))
  rw [Nat.zero_add, passes_complement (by decide)] at hspec
  unfold NoirVisor.noirFindClearBit noirFindClearBit
  rcases hspec with ⟨k, hfirst, hfound⟩ | ⟨hall, hfound⟩
  · have hscan := scan_eq_some.mpr hfirst
    rw [hfound, index_mod (by decide) hlimit hfirst.lt]
    change _ = Except.ok ((scan (bit bitmap) 64 (limitIndex 64 limit)).getD 0xffffffff)
    rw [hscan, Option.getD_some]
  · have hscan := scan_eq_none.mpr hall
    rw [hfound, Function.iterate_id]
    change _ = Except.ok ((scan (bit bitmap) 64 (limitIndex 64 limit)).getD 0xffffffff)
    rw [hscan, Option.getD_none, id]

/-- A word with its lowest bit set. -/
def oneBit : List (BitVec (wordBits true)) := [1]

theorem oneBit_firstClear : FirstClear (bit oneBit) 64 1 where
  lt := by decide
  clear := by decide
  set j hj := by
    obtain rfl : j = 0 := by omega
    decide

/-- The bit after it is found below the limit 2. -/
theorem oneBit_finds : Finds (bit oneBit) 2 (noirFindClearBit id oneBit 2) := by
  refine (finds_bits_iff true id oneBit 2 (by decide) (by decide)).1.mpr ⟨fun i hi => .inl ?_, ?_⟩
  · obtain rfl := hi.unique oneBit_firstClear
    decide
  · exact fun _ => rfl

/-- And at the limit 1. -/
theorem not_forall_finds : ¬∀ (amd64 : Bool) (leaves : Nat → Nat)
    (bitmap : List (BitVec (wordBits amd64))) (limit : Nat), limit < 2 ^ 32 →
      limit ≤ wordBits amd64 * bitmap.length →
        Finds (bit bitmap) limit (noirFindClearBit leaves bitmap limit) ∧
          Finds (fun i => !bit bitmap i) limit (noirFindSetBit leaves bitmap limit) := by
  intro hall
  obtain ⟨hclear, -⟩ := hall true id oneBit 1 (by decide) (by decide)
  have hconfined := (finds_clear_iff (by decide) (by decide)).mp hclear
  exact absurd (hconfined.below 1 oneBit_firstClear) (by decide)

end FindBit

end NoirVisor
