import NoirVisor.Transition
import NoirVisor.Npt.Update

/-!
# Runs of the manager

A manager starts as the identity map and is changed by updates and host-mode splits, in any order
and with any arguments. Before each the memory manager may have any pages left to give, as long as
they are not in use.
-/

namespace NoirVisor

open NptManager

inductive NptOp where
  | updatePdpte (hpa gpa : Nat) (r w x h alloc : Bool)
  | updatePde (hpa gpa : Nat) (r w x l alloc : Bool)
  | updatePte (hpa gpa : Nat) (r w x alloc : Bool)
  | splitPdpte (gpa : Nat) (alloc : Bool)
  | splitPde (gpa : Nat) (alloc : Bool)
deriving DecidableEq

/-- A split reports success by the pointer it returns. -/
def NptOp.run (nptm : NptManager) : NptOp → Outcome (Bool × NptManager)
  | updatePdpte hpa gpa r w x h alloc => nvcNptUpdatePdpte nptm hpa gpa r w x h alloc
  | updatePde hpa gpa r w x l alloc => nvcNptUpdatePde nptm hpa gpa r w x l alloc
  | updatePte hpa gpa r w x alloc => nvcNptUpdatePte nptm hpa gpa r w x alloc
  | splitPdpte gpa alloc => do
      let (pdeP, nptm) ← nvcNptSplitPdpte nptm gpa true alloc
      return (!pdeP.isNull, nptm)
  | splitPde gpa alloc => do
      let (pteP, nptm) ← nvcNptSplitPde nptm gpa true alloc
      return (!pteP.isNull, nptm)

namespace NptManager

/-- The identity map in freshly allocated frames, a page and a 2 MiB page. -/
def Built (nptm : NptManager) : Prop :=
  ∃ allocator ncr3Frame pdptFrame, ncr3Frame < 2 ^ 40 ∧ pdptFrame + 512 ≤ 2 ^ 40 ∧
    pdptFrame % 512 = 0 ∧ (ncr3Frame < pdptFrame ∨ pdptFrame + 512 ≤ ncr3Frame) ∧
    nvcNptBuildIdentityMap allocator (some ncr3Frame) (some pdptFrame) = some nptm

/-- An operation that meets a condition, the allocations to come arbitrary. -/
def Step (condition : NptManager → NptOp → Prop) (nptm nptm' : NptManager) : Prop :=
  ∃ op allocator b, condition nptm op ∧ allocator.Fresh nptm.Used ∧
    op.run { nptm with allocator } = .ok (b, nptm')

/-- The states of the runs whose operations all meet a condition. -/
abbrev Reached (condition : NptManager → NptOp → Prop) : NptManager → Prop :=
  Transition.Reachable Built (Step condition)

variable {nptm nptm' : NptManager} {used : Nat → Prop} {b : Bool}

theorem Built.layout (h : nptm.Built) {level r frame : Nat}
    (hframe : nptm.layout level r = some frame) :
    (level = 2 ∧ r < 512 ∧ frame = page4kbCount nptm.pdpt + r) ∨
      (level = 3 ∧ r = 0 ∧ frame = page4kbCount nptm.ncr3) := by
  obtain ⟨allocator, ncr3Frame, pdptFrame, -, -, -, -, hbuild⟩ := h
  unfold nvcNptBuildIdentityMap at hbuild
  split at hbuild
  · obtain rfl := Option.some.inj hbuild
    match level with
    | 0 | 1 | _ + 4 => simp [NptManager.layout, findPte, findPde, Radix.covering] at hframe
    | 2 =>
        simp only [NptManager.layout, Option.ite_none_right_eq_some, Option.some.injEq] at hframe
        exact Or.inl ⟨rfl, hframe.1, hframe.2.symm⟩
    | 3 =>
        simp only [NptManager.layout, Option.ite_none_right_eq_some, Option.some.injEq] at hframe
        exact Or.inr ⟨rfl, hframe.1, hframe.2.symm⟩
  · cases hbuild

theorem Built.frames (h : nptm.Built) :
    page4kbCount nptm.ncr3 < 2 ^ 40 ∧ page4kbCount nptm.pdpt + 512 ≤ 2 ^ 40 ∧
      page4kbCount nptm.pdpt % 512 = 0 ∧ (page4kbCount nptm.ncr3 < page4kbCount nptm.pdpt ∨
        page4kbCount nptm.pdpt + 512 ≤ page4kbCount nptm.ncr3) := by
  obtain ⟨allocator, ncr3Frame, pdptFrame, hncr3, hpdpt, haligned, hapart, hbuild⟩ := h
  unfold nvcNptBuildIdentityMap at hbuild
  split at hbuild
  · rename_i heq₁ heq₂ heq₃
    cases heq₂
    cases heq₃
    obtain rfl := Option.some.inj hbuild
    simp only [page4kbCount_page4kbMult]
    exact ⟨hncr3, hpdpt, haligned, hapart⟩
  · cases hbuild

theorem Built.pml4e (h : nptm.Built) (i : Nat) :
    nptm.memory (page4kbCount nptm.ncr3) i = identityPml4e nptm.pdpt i := by
  obtain ⟨allocator, ncr3Frame, pdptFrame, -, -, -, -, hbuild⟩ := h
  unfold nvcNptBuildIdentityMap at hbuild
  split at hbuild
  · obtain rfl := Option.some.inj hbuild
    simp [page4kbCount_page4kbMult]
  · cases hbuild

theorem Built.pdpte (h : nptm.Built) {r i : Nat} (hr : r < 512) :
    nptm.memory (page4kbCount nptm.pdpt + r) i = identityPdpte (r * 512 + i) := by
  have hframes := h.frames
  obtain ⟨allocator, ncr3Frame, pdptFrame, -, -, -, -, hbuild⟩ := h
  unfold nvcNptBuildIdentityMap at hbuild
  split at hbuild
  · obtain rfl := Option.some.inj hbuild
    simp only [page4kbCount_page4kbMult] at hframes ⊢
    rw [if_neg (by omega), if_pos (by omega), Nat.add_sub_cancel_left]
  · cases hbuild

theorem Built.lists (h : nptm.Built) : nptm.pde = [] ∧ nptm.pte = [] := by
  obtain ⟨allocator, ncr3Frame, pdptFrame, -, -, -, -, hbuild⟩ := h
  unfold nvcNptBuildIdentityMap at hbuild
  split at hbuild
  · obtain rfl := Option.some.inj hbuild
    exact ⟨rfl, rfl⟩
  · cases hbuild

theorem Built.wf (h : nptm.Built) : nptm.Wf where
  pml4e i _ := h.pml4e i
  pdeAligned d hd := by
    rw [h.lists.1] at hd
    cases hd
  pteAligned t ht := by
    rw [h.lists.2] at ht
    cases ht
  disjoint level r level' r' frame hleft hright := by
    have hframes := h.frames
    rcases h.layout hleft with ⟨rfl, hr, rfl⟩ | ⟨rfl, rfl, rfl⟩ <;>
      rcases h.layout hright with ⟨rfl, hr', heq⟩ | ⟨rfl, rfl, heq⟩ <;> omega
  linked level r frame i hframe hi htable := by
    rcases h.layout hframe with ⟨hlevel, hr, rfl⟩ | ⟨hlevel, rfl, rfl⟩
    · rw [h.pdpte hr] at htable
      obtain rfl : level = 1 := by omega
      simp [Radix.Format.isTable, nptFormat, identityPdpte] at htable
    · obtain rfl : level = 2 := by omega
      have hframes := h.frames
      have hbase : (identityPml4e nptm.pdpt i).base = page4kbCount nptm.pdpt + i := by
        simp only [identityPml4e, NptEntry.setBase]
        exact Nat.mod_eq_of_lt (by simp only [page4kbCount] at hframes; omega)
      rw [h.pml4e]
      change _ = some (identityPml4e nptm.pdpt i).base
      rw [hbase]
      simp [NptManager.layout, hi]
  inRange level r frame hframe := by
    have hframes := h.frames
    rcases h.layout hframe with ⟨rfl, hr, rfl⟩ | ⟨rfl, rfl, rfl⟩ <;> omega
  described r frame hframe := by
    rcases h.layout hframe with ⟨hlevel, -⟩ | ⟨hlevel, -⟩ <;> omega
  pdeListed d hd := by
    rw [h.lists.1] at hd
    cases hd
  pteListed t ht := by
    rw [h.lists.2] at ht
    cases ht
  pdptAligned := h.frames.2.2.1

theorem Wf.ready (hwf : nptm.Wf) {allocator : Allocator} (hfresh : allocator.Fresh nptm.Used) :
    NptManager.Ready { nptm with allocator } nptm.Used :=
  ⟨hwf.allocator allocator, hfresh, fun _ => id⟩

/-- Every operation that returns succeeds, and takes no frame in use. -/
theorem run_ok {op : NptOp} (hready : nptm.Ready used) (h : op.run nptm = .ok (b, nptm')) :
    b = true ∧ nptm.Grows nptm' used := by
  cases op with
  | updatePdpte hpa gpa r w x huge alloc =>
      change nvcNptUpdatePdpte nptm hpa gpa r w x huge alloc = _ at h
      cases huge with
      | true => exact (nvcNptUpdatePdpte_huge hready h).imp_right And.left
      | false => exact (nvcNptUpdatePdpte_table hready h).imp_right And.left
  | updatePde hpa gpa r w x l alloc =>
      cases l with
      | true => exact (nvcNptUpdatePde_large hready h).imp_right And.left
      | false => exact (nvcNptUpdatePde_table hready h).imp_right And.left
  | updatePte hpa gpa r w x alloc =>
      exact (nvcNptUpdatePte_ok hready h).imp_right And.left
  | splitPdpte gpa alloc =>
      simp only [NptOp.run, bind, Except.bind] at h
      split at h
      · cases h
      · rename_i result hsplit
        obtain ⟨d, hvalid, -, hgrows⟩ := nvcNptSplitPdpte_host hready hsplit
        cases h
        exact ⟨by rw [hvalid]; rfl, hgrows⟩
  | splitPde gpa alloc =>
      simp only [NptOp.run, bind, Except.bind] at h
      split at h
      · cases h
      · rename_i result hsplit
        obtain ⟨d, t, hvalid, -, hgrows⟩ := nvcNptSplitPde_host hready hsplit
        cases h
        exact ⟨by rw [hvalid]; rfl, hgrows⟩

theorem Reached.wf {condition : NptManager → NptOp → Prop} (h : Reached condition nptm) :
    nptm.Wf := by
  refine h.invariant (fun _ => Built.wf) fun s s' _ hwf htaken => ?_
  obtain ⟨op, allocator, b, -, hfresh, hrun⟩ := htaken
  obtain ⟨-, -, used', -, hready⟩ := run_ok (hwf.ready hfresh) hrun
  exact hready.wf

/-- The identity map built in frames 1 and 512 to 1023. -/
def identityMap : NptManager :=
  (nvcNptBuildIdentityMap (.ofFrames []) (some 1) (some 512)).get rfl

theorem identityMap_built : identityMap.Built :=
  ⟨.ofFrames [], 1, 512, by decide, by decide, by decide, by decide, (Option.some_get rfl).symm⟩

theorem identityMap_fresh {frames : List Nat} (hdistinct : frames.Nodup)
    (hframes : ∀ frame ∈ frames, 1024 ≤ frame ∧ frame < 2 ^ 40) :
    (Allocator.ofFrames frames).Fresh identityMap.Used := by
  refine Allocator.fresh_ofFrames hdistinct fun frame hmem => ⟨?_, (hframes frame hmem).2⟩
  rintro ⟨level, r, hframe⟩
  have hge := (hframes frame hmem).1
  have hncr3 : page4kbCount identityMap.ncr3 = 1 := rfl
  have hpdpt : page4kbCount identityMap.pdpt = 512 := rfl
  rcases identityMap_built.layout hframe with ⟨-, hr, heq⟩ | ⟨-, -, heq⟩ <;> omega

end NptManager

end NoirVisor
