import NoirVisor.Host.CodeIntegrity
import Mathlib.Order.Interval.Finset.Nat

/-!
# The scan of the pages

A thread of the host recomputes the checksums of the pages that are listed, one page after another, for as
long as it is not stopped (`noir_ci_enforcement_worker` in `xpf_core/ci.c`).
-/

namespace NoirVisor

/-- One iteration: the index that is used, the checksum if it is recomputed, and whether corruption is
reported. -/
structure CiVisit where
  index : Nat
  crc : Option (BitVec 32)
  corruption : Bool
deriving DecidableEq

namespace NoirCiContext

variable (ctx : NoirCiContext)

def visit (noirCrc32Page : Nat → BitVec 32) (i : Nat) (page : NoirCiPage) : CiVisit :=
  if page.softCi then
    { index := i
      crc := some (noirCrc32Page page.virt)
      corruption := noirCrc32Page page.virt != page.crc }
  else
    { index := i
      crc := none
      corruption := false }

/-- The body of the loop, from `noir_ci_selected_page` to its next value. -/
def enforce (noirCrc32Page : Nat → BitVec 32) (selectedPage : Nat) : Outcome (CiVisit × Nat) :=
  let i := selectedPage
  let next := (selectedPage + 1) % 2 ^ 32
  match ctx.read i with
  | none => .error .outOfBounds
  | some page => .ok (visit noirCrc32Page i page, if next = ctx.pages.length then 0 else next)

/-- The iterations before the signal to stop, with the checksums of what is in memory at each. -/
def noirCiEnforcementWorker : List (Nat → BitVec 32) → Nat → Outcome (List CiVisit)
  | [], _ => .ok []
  | noirCrc32Page :: rest, selectedPage => do
      let (first, next) ← ctx.enforce noirCrc32Page selectedPage
      let visits ← noirCiEnforcementWorker rest next
      return first :: visits

/-- The entries in use are inside of the context, and their number fits into `u32`. -/
structure Wf : Prop where
  room : ctx.pages.length ≤ ctx.limit
  fits : ctx.limit < 2 ^ 32

structure Scans (visits : List CiVisit) : Prop where
  inside : ∀ visit ∈ visits, visit.index < ctx.pages.length
  once : ∀ before window after, visits = before ++ window ++ after →
    window.length = ctx.pages.length →
      (window.map (·.index)).Perm (List.range ctx.pages.length)
  recomputed : ∀ visit ∈ visits, visit.crc.isSome = (ctx.pages.getD visit.index {}).softCi

/-- The worker meets no fault, whatever is in memory at each iteration. -/
def Enforces : Prop :=
  ∀ memories, ∃ visits, ctx.noirCiEnforcementWorker memories 0 = .ok visits ∧
    visits.length = memories.length ∧ ctx.Scans visits

variable {ctx} {noirCrc32Page : Nat → BitVec 32} {memories : List (Nat → BitVec 32)}

@[simp]
theorem visit_index (noirCrc32Page : Nat → BitVec 32) (i : Nat) (page : NoirCiPage) :
    (visit noirCrc32Page i page).index = i := by
  unfold visit
  split <;> rfl

theorem visit_crc_isSome (noirCrc32Page : Nat → BitVec 32) (i : Nat) (page : NoirCiPage) :
    (visit noirCrc32Page i page).crc.isSome = page.softCi := by
  unfold visit
  split
  · next h => exact h.symm
  · next h => exact (Bool.eq_false_of_not_eq_true h).symm

theorem Listed.wf (h : ctx.Listed) : ctx.Wf where
  room := Nat.le_of_lt h.room
  fits := by
    rw [h.limit]
    decide

theorem read_of_lt (hwf : ctx.Wf) {i : Nat} (hi : i < ctx.pages.length) :
    ctx.read i = some (ctx.pages.getD i {}) := by
  have hroom := hwf.room
  unfold read
  rw [if_neg (by omega), if_pos (by omega), Int.toNat_natCast]

/-- The index after the one of the iteration `t`. -/
theorem next_mod (hwf : ctx.Wf) (hpos : 0 < ctx.pages.length) (t : Nat) :
    (let next := (t % ctx.pages.length + 1) % 2 ^ 32
      if next = ctx.pages.length then 0 else next) = (t + 1) % ctx.pages.length := by
  obtain ⟨hroom, hfits⟩ := hwf
  have hlt := Nat.mod_lt t hpos
  have hnext : (t % ctx.pages.length + 1) % 2 ^ 32 = t % ctx.pages.length + 1 :=
    Nat.mod_eq_of_lt (by omega)
  have hmod : (t + 1) % ctx.pages.length = (t % ctx.pages.length + 1) % ctx.pages.length :=
    (Nat.mod_add_mod t ctx.pages.length 1).symm
  dsimp only
  rw [hnext, hmod]
  split
  · next heq => rw [heq, Nat.mod_self]
  · next hne => exact (Nat.mod_eq_of_lt (by omega)).symm

theorem enforce_eq (hwf : ctx.Wf) (hpos : 0 < ctx.pages.length) (t : Nat) :
    ctx.enforce noirCrc32Page (t % ctx.pages.length) =
      .ok (visit noirCrc32Page (t % ctx.pages.length) (ctx.pages.getD (t % ctx.pages.length) {}),
        (t + 1) % ctx.pages.length) := by
  unfold enforce
  dsimp only
  rw [read_of_lt hwf (Nat.mod_lt t hpos)]
  dsimp only
  rw [← next_mod hwf hpos t]

/-- The iteration `t` is at the index `t`, round after round. -/
theorem worker_eq (hwf : ctx.Wf) (hpos : 0 < ctx.pages.length) (t : Nat) :
    ctx.noirCiEnforcementWorker memories (t % ctx.pages.length) =
      .ok ((memories.zipIdx t).map fun iteration =>
        visit iteration.1 (iteration.2 % ctx.pages.length)
          (ctx.pages.getD (iteration.2 % ctx.pages.length) {})) := by
  induction memories generalizing t with
  | nil => rfl
  | cons noirCrc32Page rest ih =>
      unfold noirCiEnforcementWorker
      rw [enforce_eq hwf hpos]
      dsimp only [bind, Except.bind]
      rw [ih (t + 1)]
      rfl

/-- A round from any index meets every index once. -/
theorem range'_mod_perm (start n : Nat) :
    ((List.range' start n).map (· % n)).Perm (List.range n) := by
  have hwindow : Multiset.Ico start (start + n) = (List.range' start n : Multiset Nat) := by
    change ((List.range' start (start + n - start) : List Nat) : Multiset Nat) = _
    rw [Nat.add_sub_cancel_left]
  rw [← Multiset.coe_eq_coe, ← Multiset.map_coe, ← hwindow, Nat.multiset_Ico_map_mod]
  rfl

theorem round_map_index (ctx : NoirCiContext) (memories : List (Nat → BitVec 32)) (t : Nat) :
    (((memories.zipIdx t).map fun iteration =>
      visit iteration.1 (iteration.2 % ctx.pages.length)
        (ctx.pages.getD (iteration.2 % ctx.pages.length) {})).map (·.index)) =
      (List.range' t memories.length).map (· % ctx.pages.length) := by
  rw [List.map_map, ← List.zipIdx_map_snd t memories, List.map_map]
  apply List.map_congr_left
  intro iteration _
  exact visit_index _ _ _

/-- Consecutive iterations are at consecutive indices. -/
theorem window_map_index {visits before window after : List CiVisit} {n : Nat}
    (hvisits : visits.map (·.index) = (List.range' 0 visits.length).map (· % n))
    (hsplit : visits = before ++ window ++ after) :
    window.map (·.index) = (List.range' before.length window.length).map (· % n) := by
  have hrange : List.range' 0 visits.length = List.range' 0 before.length ++
      List.range' before.length window.length ++
        List.range' (before.length + window.length) after.length := by
    have hlength : visits.length = before.length + window.length + after.length := by
      rw [hsplit, List.length_append, List.length_append]
    have hfront := List.range'_append_1 (s := 0) (m := before.length) (n := window.length)
    have hback := List.range'_append_1 (s := 0) (m := before.length + window.length)
      (n := after.length)
    rw [Nat.zero_add] at hfront hback
    rw [hlength, hfront, hback]
  rw [hrange, hsplit, List.map_append, List.map_append, List.map_append, List.map_append] at hvisits
  obtain ⟨hfront, -⟩ := List.append_inj hvisits (by simp)
  exact (List.append_inj hfront (by simp)).2

theorem enforces_of_pos (hwf : ctx.Wf) (hpos : 0 < ctx.pages.length) : ctx.Enforces := by
  intro memories
  have hworker : ctx.noirCiEnforcementWorker memories (0 % ctx.pages.length) = _ := worker_eq hwf hpos 0
  rw [Nat.zero_mod] at hworker
  refine ⟨_, hworker, by simp, ?_, ?_, ?_⟩
  · intro v hv
    obtain ⟨⟨memory, t⟩, -, rfl⟩ := List.mem_map.mp hv
    rw [visit_index]
    exact Nat.mod_lt t hpos
  · intro before window after hsplit hlength
    have hround := round_map_index ctx memories 0
    have hindex := window_map_index (hround.trans (by rw [List.length_map, List.length_zipIdx])) hsplit
    rw [hindex, hlength]
    exact range'_mod_perm before.length ctx.pages.length
  · intro v hv
    obtain ⟨⟨memory, t⟩, -, rfl⟩ := List.mem_map.mp hv
    rw [visit_crc_isSome, visit_index]

/-- With nothing listed the first index that is used is not below the number of pages. -/
theorem pos_of_enforces (h : ctx.Enforces) : 0 < ctx.pages.length := by
  obtain ⟨visits, -, hlength, hscans⟩ := h [fun _ => 0]
  obtain ⟨visit, rfl⟩ := List.length_eq_one_iff.mp hlength
  exact Nat.zero_lt_of_lt (hscans.inside visit (List.mem_singleton_self visit))

/-- For every table, all that may be in memory and every number of iterations. -/
theorem enforces_iff (ctx : NoirCiContext) (hwf : ctx.Wf) :
    ctx.Enforces ↔ 0 < ctx.pages.length :=
  ⟨pos_of_enforces, enforces_of_pos hwf⟩

end NoirCiContext

namespace CiHost

variable {host : CiHost} {ciBase : Nat} {softCi hardCi : Bool} {sections : List CiSection}
  {ctx : NoirCiContext}

end CiHost

/-- Two pages, of which the second one is scanned. -/
theorem scannedContext_enforces : NoirCiContext.Enforces
    ⟨noirCiLimit, [⟨0, 0, 0, false, false⟩, ⟨4096, 4096, 0, true, false⟩], true, false⟩ :=
  (NoirCiContext.enforces_iff _ ⟨by decide, by decide⟩).mpr (by decide)

/-- No page is listed. -/
theorem not_forall_enforces : ¬∀ ctx : NoirCiContext, ctx.Wf → ctx.Enforces := by
  intro hall
  have henforces := hall ⟨noirCiLimit, [], true, false⟩ ⟨by decide, by decide⟩
  exact absurd (NoirCiContext.pos_of_enforces henforces) (by decide)

end NoirVisor
