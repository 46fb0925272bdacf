import NoirVisor.Platform
import NoirVisor.Transfer

/-!
# Copies in chunks

The copies of guest and of host memory share a loop over chunks (`xpf_core/noirhvm.c`). The length of
a chunk is what is left of the page of the first address, in every iteration, so that the chunks
after the first one need not end where a page ends.
-/

namespace NoirVisor

open Transfer

/-- The length copied, with the moves that were made. -/
abbrev CopyResult := Outcome (Nat × List Move)

/-- `inner` copies `copy_size` bytes at `cur_va`, from `copied_size` on in the buffer. -/
def copyLoop (inner : (curVa copiedSize copySize : Nat) → CopyResult) (va endVa : Nat) :
    (fuel curVa copiedSize realSize : Nat) → CopyResult
  | 0, _, _, _ => .error .outOfFuel
  | fuel + 1, curVa, copiedSize, realSize =>
    if curVa < endVa then do
      let endLen := 0x1000 - page4kbOffset va
      let remLen := endVa - curVa
      let copySize := if endLen < remLen then endLen else remLen
      let (length, moves) ← inner curVa copiedSize copySize
      let realSize := realSize + length
      let copiedSize := copiedSize + copySize
      if realSize < copiedSize then .ok (realSize, moves)
      else do
        let (length, moves') ← copyLoop inner va endVa fuel (curVa + copySize) copiedSize realSize
        .ok (length, moves ++ moves')
    else .ok (realSize, [])

/-- The length of all chunks but the last. -/
def chunkSize (va : Nat) : Nat := 0x1000 - page4kbOffset va

section

variable {inner : Nat → Nat → Nat → CopyResult} {target : Nat → Nat → Prop}
  {va length c fuel size : Nat}

theorem chunkSize_pos (va : Nat) : 0 < chunkSize va := by
  unfold chunkSize page4kbOffset
  omega

/-- The copy of one chunk returns and is exact. -/
def ChunkExact (inner : Nat → Nat → Nat → CopyResult) (target : Nat → Nat → Prop)
    (va c size : Nat) : Prop :=
  ∃ n moves, inner (va + c) c size = .ok (n, moves) ∧ Exact target c size n moves

/-- The chunks that are come to are exact. -/
def ChunksExact (inner : Nat → Nat → Nat → CopyResult) (target : Nat → Nat → Prop)
    (va length c : Nat) : Prop :=
  ∀ j, c + j * chunkSize va < length → (∀ k < j * chunkSize va, ∃ a, target (c + k) a) →
    ChunkExact inner target va (c + j * chunkSize va)
      (min (chunkSize va) (length - (c + j * chunkSize va)))

/-- A chunk is answered with a length that fits and as many moves. -/
def Answers (inner : Nat → Nat → Nat → CopyResult) (va length : Nat) : Prop :=
  ∀ c size n moves, 0 < size → size ≤ chunkSize va → c + size ≤ length →
    inner (va + c) c size = .ok (n, moves) → n ≤ size ∧ moves.length = n

theorem ChunksExact.first (h : ChunksExact inner target va length c) (hlt : c < length) :
    ChunkExact inner target va c (min (chunkSize va) (length - c)) := by
  have hfirst := h 0 (by omega) (fun k hk => absurd hk (by omega))
  rwa [Nat.zero_mul, Nat.add_zero] at hfirst

theorem chunkExact_iff {n : Nat} {moves : List Move} (hinner : inner (va + c) c size = .ok (n, moves)) :
    ChunkExact inner target va c size ↔ Exact target c size n moves := by
  constructor
  · rintro ⟨n', moves', hinner', hexact⟩
    rw [hinner] at hinner'
    cases hinner'
    exact hexact
  · exact fun hexact => ⟨n, moves, hinner, hexact⟩

theorem chunksExact_of_stopped {n : Nat} {moves : List Move} (hlt : c < length)
    (hinner : inner (va + c) c (min (chunkSize va) (length - c)) = .ok (n, moves))
    (hn : n < min (chunkSize va) (length - c)) :
    ChunksExact inner target va length c ↔
      Exact target c (min (chunkSize va) (length - c)) n moves := by
  constructor
  · exact fun h => (chunkExact_iff hinner).mp (h.first hlt)
  · intro h j hj hbefore
    cases j with
    | zero =>
      rw [Nat.zero_mul, Nat.add_zero]
      exact (chunkExact_iff hinner).mpr h
    | succ j =>
      obtain ⟨a, ha⟩ := hbefore n (by rw [Nat.succ_mul]; omega)
      exact absurd ha (h.stopped hn a)

theorem chunksExact_of_complete {moves : List Move} (hlt : c < length)
    (hinner : inner (va + c) c (min (chunkSize va) (length - c)) =
      .ok (min (chunkSize va) (length - c), moves)) :
    ChunksExact inner target va length c ↔
      Exact target c (min (chunkSize va) (length - c)) (min (chunkSize va) (length - c)) moves ∧
        ChunksExact inner target va length (c + min (chunkSize va) (length - c)) := by
  constructor
  · intro h
    have hexact := (chunkExact_iff hinner).mp (h.first hlt)
    refine ⟨hexact, fun j hj hbefore => ?_⟩
    have hsize : min (chunkSize va) (length - c) = chunkSize va := by omega
    rw [hsize] at hj hbefore hexact ⊢
    have hnext := h (j + 1) (by rw [Nat.succ_mul]; omega) fun k hk => by
      by_cases hk' : k < chunkSize va
      · exact hexact.mapped hk'
      · have hlater := hbefore (k - chunkSize va) (by rw [Nat.succ_mul] at hk; omega)
        rwa [show c + chunkSize va + (k - chunkSize va) = c + k by omega] at hlater
    rwa [Nat.succ_mul, ← Nat.add_assoc, Nat.add_right_comm] at hnext
  · rintro ⟨hexact, hrest⟩ j hj hbefore
    cases j with
    | zero =>
      rw [Nat.zero_mul, Nat.add_zero]
      exact (chunkExact_iff hinner).mpr hexact
    | succ j =>
      rw [Nat.succ_mul] at hj hbefore ⊢
      have hsize : min (chunkSize va) (length - c) = chunkSize va := by omega
      rw [hsize] at hrest
      have hnext := hrest j (by omega) fun k hk => by
        have hlater := hbefore (chunkSize va + k) (by omega)
        rwa [← Nat.add_assoc] at hlater
      rwa [Nat.add_right_comm, Nat.add_assoc] at hnext

/-- The length of a chunk as the loop computes it. -/
theorem copySize_eq (hlt : c < length) :
    (if 0x1000 - page4kbOffset va < va + length - (va + c) then 0x1000 - page4kbOffset va
      else va + length - (va + c)) = min (chunkSize va) (length - c) := by
  rw [show va + length - (va + c) = length - c by omega]
  unfold chunkSize
  split <;> omega

/-- An iteration whose chunk is answered. -/
theorem copyLoop_succ {n : Nat} {moves : List Move} (hlt : c < length)
    (hinner : inner (va + c) c (min (chunkSize va) (length - c)) = .ok (n, moves)) :
    copyLoop inner va (va + length) (fuel + 1) (va + c) c c =
      if n < min (chunkSize va) (length - c) then .ok (c + n, moves)
      else (do
        let (total, moves') ← copyLoop inner va (va + length) fuel
          (va + (c + min (chunkSize va) (length - c))) (c + min (chunkSize va) (length - c)) (c + n)
        .ok (total, moves ++ moves')) := by
  rw [copyLoop, if_pos (by omega)]
  simp only [copySize_eq hlt, hinner, Nat.add_assoc]
  exact if_congr (Nat.add_lt_add_iff_left) rfl rfl

theorem copyLoop_of_fault {fault : Fault} (hlt : c < length)
    (hinner : inner (va + c) c (min (chunkSize va) (length - c)) = .error fault) :
    copyLoop inner va (va + length) (fuel + 1) (va + c) c c = .error fault := by
  rw [copyLoop, if_pos (by omega)]
  simp only [copySize_eq hlt, hinner]
  rfl

theorem copyLoop_done (inner : Nat → Nat → Nat → CopyResult) (va length fuel : Nat) :
    copyLoop inner va (va + length) (fuel + 1) (va + length) length length = .ok (length, []) := by
  rw [copyLoop, if_neg (Nat.lt_irrefl _)]

/-- The loop makes as many moves as it returns. -/
theorem copyLoop_count (hanswers : Answers inner va length) {total : Nat} {moves : List Move}
    (hc : c ≤ length)
    (hloop : copyLoop inner va (va + length) fuel (va + c) c c = .ok (total, moves)) :
    total = c + moves.length := by
  induction fuel generalizing c total moves with
  | zero => cases hloop
  | succ fuel ih =>
    rcases Nat.lt_or_ge c length with hlt | hge
    · have hpos := chunkSize_pos va
      cases hinner : inner (va + c) c (min (chunkSize va) (length - c)) with
      | error fault => rw [copyLoop_of_fault hlt hinner] at hloop; cases hloop
      | ok answer =>
        obtain ⟨n, first⟩ := answer
        obtain ⟨hle, hcount⟩ := hanswers _ _ _ _ (by omega) (Nat.min_le_left _ _) (by omega) hinner
        rw [copyLoop_succ hlt hinner] at hloop
        split at hloop
        · cases hloop
          rw [hcount]
        · obtain rfl : n = min (chunkSize va) (length - c) := by omega
          cases hrest : copyLoop inner va (va + length) fuel
              (va + (c + min (chunkSize va) (length - c))) (c + min (chunkSize va) (length - c))
              (c + min (chunkSize va) (length - c)) with
          | error fault => rw [hrest] at hloop; cases hloop
          | ok answer =>
            rw [hrest] at hloop
            cases hloop
            rw [ih (by omega) hrest, List.length_append, hcount, Nat.add_assoc]
    · obtain rfl : c = length := Nat.le_antisymm hc hge
      rw [copyLoop_done] at hloop
      cases hloop
      rfl

/-- With fuel enough the loop as a whole returns and is exact just when each chunk does and is. -/
theorem copyLoop_exact_iff (hanswers : Answers inner va length) (hc : c ≤ length)
    (hfuel : length - c < fuel) :
    (∃ n moves, copyLoop inner va (va + length) fuel (va + c) c c = .ok (c + n, moves) ∧
      Exact target c (length - c) n moves) ↔ ChunksExact inner target va length c := by
  induction fuel generalizing c with
  | zero => exact absurd hfuel (Nat.not_lt_zero _)
  | succ fuel ih =>
    rcases Nat.lt_or_ge c length with hlt | hge
    · have hpos := chunkSize_pos va
      cases hinner : inner (va + c) c (min (chunkSize va) (length - c)) with
      | error fault =>
        rw [copyLoop_of_fault hlt hinner]
        refine iff_of_false (fun ⟨_, _, hloop, _⟩ => nomatch hloop) fun h => ?_
        obtain ⟨_, _, hfirst, -⟩ := h.first hlt
        rw [hinner] at hfirst
        cases hfirst
      | ok answer =>
        obtain ⟨n, moves⟩ := answer
        obtain ⟨hle, hcount⟩ := hanswers _ _ _ _ (by omega) (Nat.min_le_left _ _) (by omega) hinner
        rw [copyLoop_succ hlt hinner]
        by_cases hn : n < min (chunkSize va) (length - c)
        · have hextend : Exact target c (min (chunkSize va) (length - c) +
              (length - c - min (chunkSize va) (length - c))) n moves ↔
              Exact target c (min (chunkSize va) (length - c)) n moves := Exact.extend_iff hn
          rw [Nat.add_sub_cancel' (Nat.min_le_right _ _)] at hextend
          rw [if_pos hn, chunksExact_of_stopped hlt hinner hn, ← hextend]
          constructor
          · rintro ⟨n', moves', hsame, hexact⟩
            obtain ⟨hn', rfl⟩ := Prod.mk.inj (Except.ok.inj hsame)
            obtain rfl : n = n' := by omega
            exact hexact
          · exact fun hexact => ⟨n, moves, rfl, hexact⟩
        · obtain rfl : n = min (chunkSize va) (length - c) := by omega
          have hsplit : length - c = min (chunkSize va) (length - c) +
              (length - (c + min (chunkSize va) (length - c))) := by omega
          rw [if_neg hn, chunksExact_of_complete hlt hinner, ← ih (by omega) (by omega)]
          constructor
          · rintro ⟨n, whole, hwhole, hexact⟩
            cases hrest : copyLoop inner va (va + length) fuel
                (va + (c + min (chunkSize va) (length - c))) (c + min (chunkSize va) (length - c))
                (c + min (chunkSize va) (length - c)) with
            | error fault => rw [hrest] at hwhole; cases hwhole
            | ok answer =>
              obtain ⟨total, moves'⟩ := answer
              have htotal := copyLoop_count hanswers (by omega) hrest
              rw [hrest] at hwhole
              obtain ⟨hn', rfl⟩ := Prod.mk.inj (Except.ok.inj hwhole)
              obtain rfl : n = min (chunkSize va) (length - c) + moves'.length := by omega
              have hparts : Exact target c (min (chunkSize va) (length - c) +
                  (length - (c + min (chunkSize va) (length - c))))
                  (min (chunkSize va) (length - c) + moves'.length) (moves ++ moves') := by
                rw [← hsplit]
                exact hexact
              obtain ⟨hfirst, hsecond⟩ := Exact.of_append hcount hparts
              exact ⟨hfirst, _, moves', by rw [htotal], hsecond⟩
          · rintro ⟨hfirst, m, moves', hrest, hsecond⟩
            have hwhole := hfirst.append hsecond
            rw [← hsplit] at hwhole
            refine ⟨_, _, ?_, hwhole⟩
            rw [hrest, ← Nat.add_assoc]
            rfl
    · obtain rfl : c = length := Nat.le_antisymm hc hge
      rw [copyLoop_done, Nat.sub_self]
      exact iff_of_true ⟨0, [], rfl, Exact.nil target c⟩ fun j hj => absurd hj (by omega)

end

end NoirVisor
