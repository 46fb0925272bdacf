import NoirVisor.Npt.Aside
import NoirVisor.Npt.Run
import NoirVisor.Npt.View

/-!
# Calls that cannot be served

A split or an update may need a table that is not there: it is not to be allocated, or there is no
memory for it. Such a call is to report the failure and leave the map of the guest alone.
-/

namespace NoirVisor

open NptManager

/-- An operation on the host, or a split outside host mode. -/
inductive NptCall where
  | hosted (op : NptOp)
  | splitPdpte (gpa : Nat) (alloc : Bool)
  | splitPde (gpa : Nat) (alloc : Bool)
deriving DecidableEq

def NptCall.run (nptm : NptManager) : NptCall → Outcome (Bool × NptManager)
  | hosted op => op.run nptm
  | splitPdpte gpa alloc => do
      let (pdeP, nptm) ← nvcNptSplitPdpte nptm gpa false alloc
      return (!pdeP.isNull, nptm)
  | splitPde gpa alloc => do
      let (pteP, nptm) ← nvcNptSplitPde nptm gpa false alloc
      return (!pteP.isNull, nptm)

namespace NptManager

variable (nptm : NptManager) (gpa : Nat) (alloc : Bool)

/-- The table of the 1 GiB page is not there, and cannot be made. -/
def LacksPde : Prop :=
  nptm.findPde gpa = none ∧ (alloc = false ∨ nptm.allocator.allocTable.1 = none)

def LacksPte : Prop :=
  nptm.findPte gpa = none ∧ (alloc = false ∨ nptm.allocator.allocTable.1 = none)

/-- The allocations that are left once the table of the 1 GiB page is there. -/
def afterPde : NptManager :=
  if nptm.findPde gpa = none then { nptm with allocator := nptm.allocator.allocTable.2 } else nptm

def afterPte : NptManager :=
  if nptm.findPte gpa = none then { nptm with allocator := nptm.allocator.allocTable.2 } else nptm

end NptManager

/-- A call that needs a table which it cannot have. The table of a 2 MiB page is allocated before
that of the 1 GiB page around it. -/
def NptCall.Fails (nptm : NptManager) : NptCall → Prop
  | hosted (.updatePdpte _ gpa _ _ _ h alloc) => h = false ∧ nptm.LacksPde gpa alloc
  | hosted (.updatePde _ gpa _ _ _ l alloc) =>
    nptm.LacksPde gpa alloc ∨ l = false ∧ (nptm.afterPde gpa).LacksPte gpa alloc
  | hosted (.updatePte _ gpa _ _ _ alloc) | hosted (.splitPde gpa alloc) =>
    nptm.LacksPte gpa alloc ∨ (nptm.afterPte gpa).LacksPde gpa alloc
  | hosted (.splitPdpte gpa alloc) | splitPdpte gpa alloc => nptm.LacksPde gpa alloc
  | splitPde gpa alloc =>
    nptm.LacksPte gpa alloc ∨ nptm.findPte gpa = none ∧ (nptm.afterPte gpa).LacksPde gpa alloc

/-- False, or null, and each address is translated as before. -/
def NptCall.Refuses (nptm : NptManager) (call : NptCall) : Prop :=
  ∃ nptm', call.run nptm = .ok (false, nptm') ∧
    ∀ address, nptm'.view address = nptm.view address

/-- Outside host mode, when nothing is to be allocated or not even the descriptor can be. -/
def NptCall.Harmless (nptm : NptManager) : NptCall → Prop
  | hosted _ => False
  | splitPdpte _ alloc | splitPde _ alloc => alloc = false ∨ nptm.allocator.nonpg 0 = false

theorem Allocator.nonpg_of_allocTable {memory memory' : Allocator} {frame : Nat}
    (halloc : memory.allocTable = (some frame, memory')) : memory.nonpg 0 = true := by
  unfold allocTable noirAllocNonpgMemory at halloc
  cases hnonpg : memory.nonpg 0 with
  | false =>
      rw [hnonpg] at halloc
      exact nomatch halloc
  | true => rfl

namespace NptManager

variable {nptm nptm' : NptManager} {gpa : Nat} {alloc : Bool} {p : Pointer NptDescriptor}

/-! A table is there for both allocations. Without a page the pointer to the descriptor that was
released is kept. -/

theorem newPde_eq (gpa : Nat) : nptm.newPde gpa =
    match nptm.allocator.allocTable with
    | (none, allocator) =>
      (if nptm.allocator.nonpg 0 then .freed else .null, { nptm with allocator })
    | (some frame, allocator) =>
      let made := { nptm with allocator }.pushPde gpa frame
      (.valid made.1, made.2) := by
  unfold newPde Allocator.allocTable Allocator.noirAllocNonpgMemory Allocator.noirAllocContdMemory
  cases nptm.allocator.nonpg 0 with
  | false => rfl
  | true => cases nptm.allocator.contd 0 <;> rfl

theorem newPte_eq (gpa : Nat) (host : Bool) : nptm.newPte gpa host =
    match nptm.allocator.allocTable with
    | (none, allocator) =>
      .ok (if nptm.allocator.nonpg 0 then .freed else .null, { nptm with allocator })
    | (some frame, allocator) => do
      let (pdeP, linked) ← nvcNptSplitPdpte { nptm with allocator } gpa host true
      let made := linked.pushPte gpa frame
      return if pdeP.isNull then (.freed, linked) else (.valid made.1, made.2) := by
  unfold newPte Allocator.allocTable Allocator.noirAllocNonpgMemory Allocator.noirAllocContdMemory
  cases nptm.allocator.nonpg 0 with
  | false => rfl
  | true =>
      dsimp only
      cases nptm.allocator.contd 0 with
      | none => rfl
      | some frame =>
          refine congrArg (Except.bind _) (funext fun ⟨pdeP, linked⟩ => ?_)
          dsimp only
          split <;> rfl

theorem newPde_of_refused (gpa : Nat) (h : nptm.allocator.allocTable.1 = none) :
    ∃ allocator, nptm.newPde gpa =
      (if nptm.allocator.nonpg 0 then .freed else .null, { nptm with allocator }) := by
  have halloc : nptm.allocator.allocTable = (none, nptm.allocator.allocTable.2) := Prod.ext h rfl
  refine ⟨nptm.allocator.allocTable.2, ?_⟩
  rw [newPde_eq, halloc]

/-- In host mode the pointer is followed, whatever it is. -/
theorem LacksPde.host_faults (h : nptm.LacksPde gpa alloc) :
    nvcNptSplitPdpte nptm gpa true alloc ≠ .ok (p, nptm') := by
  obtain ⟨hnone, hlacks⟩ := h
  unfold nvcNptSplitPdpte
  rw [hnone]
  cases alloc with
  | false => exact fun hok => nomatch hok
  | true =>
      obtain ⟨allocator, hnew⟩ :=
        newPde_of_refused gpa (hlacks.resolve_left Bool.false_ne_true.symm)
      dsimp only
      rw [if_pos rfl, hnew]
      cases nptm.allocator.nonpg 0 with
      | false => exact fun hok => nomatch hok
      | true => exact fun hok => nomatch hok

/-- A table of a 2 MiB page is made of two allocations, and below one of the 1 GiB page. -/
theorem newPte_of_valid {host : Bool} {t : NptDescriptor}
    (h : nptm.newPte gpa host = .ok (.valid t, nptm')) :
    nptm.allocator.allocTable.1 ≠ none ∧ ∃ q linked,
      nvcNptSplitPdpte { nptm with allocator := nptm.allocator.allocTable.2 } gpa host true =
        .ok (q, linked) := by
  rw [newPte_eq] at h
  rcases halloc : nptm.allocator.allocTable with ⟨_ | frame, allocator⟩
  · rw [halloc] at h
    have hkept := (Prod.mk.inj (Except.ok.inj h)).1
    split at hkept <;> cases hkept
  · rw [halloc] at h
    obtain ⟨⟨q, linked⟩, hsplit, -⟩ := bind_eq_ok.mp h
    exact ⟨Option.some_ne_none frame, q, linked, hsplit⟩

/-- Where there is no table, only one that was made can be linked. -/
theorem newPte_of_linked (hnone : nptm.findPte gpa = none)
    (hok : nvcNptSplitPde nptm gpa true alloc = .ok (p, nptm')) :
    alloc = true ∧ ∃ t described, nptm.newPte gpa true = .ok (.valid t, described) := by
  unfold nvcNptSplitPde at hok
  rw [hnone] at hok
  cases alloc with
  | false =>
      obtain ⟨t, -, hnull, -⟩ := linkPde_host hok
      exact nomatch hnull
  | true =>
      obtain ⟨⟨q, described⟩, hnew, hlink⟩ := bind_eq_ok.mp hok
      obtain ⟨t, -, rfl, -⟩ := linkPde_host hlink
      exact ⟨rfl, t, described, hnew⟩

theorem LacksPte.host_faults (h : nptm.LacksPte gpa alloc) :
    nvcNptSplitPde nptm gpa true alloc ≠ .ok (p, nptm') := by
  obtain ⟨hnone, hlacks⟩ := h
  intro hok
  obtain ⟨rfl, t, described, hnew⟩ := newPte_of_linked hnone hok
  exact (newPte_of_valid hnew).1 (hlacks.resolve_left Bool.false_ne_true.symm)

theorem nvcNptSplitPde_lacks_faults (h : (nptm.afterPte gpa).LacksPde gpa alloc) :
    nvcNptSplitPde nptm gpa true alloc ≠ .ok (p, nptm') := by
  unfold afterPte at h
  intro hok
  cases hfind : nptm.findPte gpa with
  | some t =>
      unfold nvcNptSplitPde at hok
      rw [hfind] at h hok
      rw [if_neg (Option.some_ne_none t)] at h
      obtain ⟨_, hfound, hlink⟩ := bind_eq_ok.mp hok
      obtain rfl := Except.ok.inj hfound
      dsimp only at hlink
      rw [if_pos rfl] at hlink
      obtain ⟨⟨q, linked⟩, hsplit, -⟩ := bind_eq_ok.mp hlink
      exact h.host_faults hsplit
  | none =>
      rw [hfind, if_pos rfl] at h
      obtain ⟨rfl, t, described, hnew⟩ := newPte_of_linked hfind hok
      obtain ⟨-, q, linked, hsplit⟩ := newPte_of_valid hnew
      exact h.host_faults hsplit

/-! An operation on the host follows the null pointer. -/

theorem newPde_of_valid {d : NptDescriptor} (h : nptm.newPde gpa = (.valid d, nptm')) :
    nptm'.allocator = nptm.allocator.allocTable.2 ∧ nptm'.pte = nptm.pte := by
  rw [newPde_eq] at h
  rcases halloc : nptm.allocator.allocTable with ⟨_ | frame, allocator⟩
  · rw [halloc] at h
    have hkept := (Prod.mk.inj h).1
    split at hkept <;> cases hkept
  · rw [halloc] at h
    obtain ⟨-, rfl⟩ := Prod.mk.inj h
    exact ⟨rfl, rfl⟩

/-- A split that succeeds leaves the other list alone, and the allocations that it does not need. -/
theorem nvcNptSplitPdpte_after (h : nvcNptSplitPdpte nptm gpa true alloc = .ok (p, nptm')) :
    nptm'.allocator = (nptm.afterPde gpa).allocator ∧ nptm'.pte = nptm.pte := by
  unfold nvcNptSplitPdpte at h
  unfold afterPde
  cases hfind : nptm.findPde gpa with
  | some d =>
      rw [hfind] at h
      rw [if_neg (Option.some_ne_none d)]
      obtain ⟨d', -, hlink⟩ := bind_eq_ok.mp h
      obtain ⟨linked, hmodify, hlinked⟩ := bind_eq_ok.mp hlink
      obtain ⟨-, rfl⟩ := modifyPdpte_eq_ok hmodify
      obtain ⟨-, rfl⟩ := Prod.mk.inj (Except.ok.inj hlinked)
      exact ⟨rfl, rfl⟩
  | none =>
      rw [hfind] at h
      rw [if_pos rfl]
      cases alloc with
      | false => exact nomatch h
      | true =>
          dsimp only at h
          rw [if_pos rfl, if_pos rfl] at h
          obtain ⟨d, hderef, hlink⟩ := bind_eq_ok.mp h
          have hvalid := Pointer.deref_eq_ok.mp hderef
          obtain ⟨linked, hmodify, hlinked⟩ := bind_eq_ok.mp hlink
          obtain ⟨-, rfl⟩ := modifyPdpte_eq_ok hmodify
          obtain ⟨-, rfl⟩ := Prod.mk.inj (Except.ok.inj hlinked)
          have hnew : nptm.newPde gpa = (.valid d, (nptm.newPde gpa).2) := Prod.ext hvalid rfl
          obtain ⟨hallocator, hpte⟩ := newPde_of_valid hnew
          exact ⟨hallocator, hpte⟩

theorem hosted_faults {op : NptOp} (h : (NptCall.hosted op).Fails nptm) :
    op.run nptm ≠ .ok (false, nptm') := by
  intro hok
  cases op with
  | updatePdpte hpa gpa r w x large alloc =>
      obtain ⟨rfl, hlacks⟩ := h
      obtain ⟨⟨q, linked⟩, hsplit, -⟩ := bind_eq_ok.mp hok
      exact hlacks.host_faults hsplit
  | updatePde hpa gpa r w x large alloc =>
      obtain ⟨⟨q, linked⟩, hsplit, hrest⟩ := bind_eq_ok.mp hok
      obtain hlacks | ⟨rfl, hlacks⟩ := h
      · exact hlacks.host_faults hsplit
      · obtain ⟨hallocator, hpte⟩ := nvcNptSplitPdpte_after hsplit
        have hlinked : linked.LacksPte gpa alloc := by
          unfold LacksPte findPte at hlacks ⊢
          rw [hallocator, hpte]
          unfold afterPde at hlacks ⊢
          split_ifs at hlacks ⊢ <;> exact hlacks
        dsimp only at hrest
        rw [nvcNptSplitPdpte_isNull hsplit, if_neg Bool.false_ne_true] at hrest
        obtain ⟨d, -, hupdate⟩ := bind_eq_ok.mp hrest
        rw [if_neg Bool.false_ne_true] at hupdate
        obtain ⟨⟨q', split⟩, hsplit', -⟩ := bind_eq_ok.mp hupdate
        exact hlinked.host_faults hsplit'
  | updatePte hpa gpa r w x alloc =>
      obtain ⟨⟨q, linked⟩, hsplit, -⟩ := bind_eq_ok.mp hok
      exact h.elim (fun hlacks => hlacks.host_faults hsplit)
        fun hlacks => nvcNptSplitPde_lacks_faults hlacks hsplit
  | splitPdpte gpa alloc =>
      obtain ⟨⟨q, linked⟩, hsplit, -⟩ := bind_eq_ok.mp hok
      exact LacksPde.host_faults h hsplit
  | splitPde gpa alloc =>
      obtain ⟨⟨q, linked⟩, hsplit, -⟩ := bind_eq_ok.mp hok
      exact h.elim (fun hlacks => hlacks.host_faults hsplit)
        fun hlacks => nvcNptSplitPde_lacks_faults hlacks hsplit

/-! Outside host mode nothing is linked. -/

theorem splitPdpte_refuses_iff (h : nptm.LacksPde gpa alloc) :
    (NptCall.splitPdpte gpa alloc).Refuses nptm ↔
      alloc = false ∨ nptm.allocator.nonpg 0 = false := by
  unfold NptCall.Refuses NptCall.run
  dsimp only
  unfold nvcNptSplitPdpte
  rw [h.1]
  cases alloc with
  | false => exact iff_of_true ⟨nptm, rfl, fun _ => rfl⟩ (.inl rfl)
  | true =>
      obtain ⟨allocator, hnew⟩ :=
        newPde_of_refused gpa (h.2.resolve_left Bool.false_ne_true.symm)
      dsimp only
      rw [if_pos rfl, hnew]
      cases nptm.allocator.nonpg 0 with
      | false => exact iff_of_true ⟨{ nptm with allocator }, rfl, fun _ => rfl⟩ (.inr rfl)
      | true => exact iff_of_false (fun ⟨_, hok, _⟩ => nomatch hok) (by decide)

/-- The pointer that comes back is null only if the descriptor could not be allocated. -/
theorem newPte_of_failed (h : nptm.allocator.allocTable.1 = none ∨
    LacksPde { nptm with allocator := nptm.allocator.allocTable.2 } gpa true) :
    (nptm.allocator.nonpg 0 = false ∧ ∃ allocator,
      nptm.newPte gpa false = .ok (.null, { nptm with allocator })) ∨
    (nptm.allocator.nonpg 0 = true ∧ ∃ q described,
      nptm.newPte gpa false = .ok (q, described) ∧ q.isNull = false) := by
  rw [newPte_eq]
  rcases halloc : nptm.allocator.allocTable with ⟨_ | frame, allocator⟩
  · cases nptm.allocator.nonpg 0 with
    | false => exact .inl ⟨rfl, _, rfl⟩
    | true => exact .inr ⟨rfl, .freed, _, rfl, rfl⟩
  · rw [halloc] at h
    refine .inr ⟨Allocator.nonpg_of_allocTable halloc, ?_⟩
    obtain ⟨⟨q, described⟩, hsplit, -⟩ :=
      nvcNptSplitPdpte_taken (h.resolve_left (Option.some_ne_none frame)).1
    dsimp only
    rw [hsplit, Outcome.ok_bind]
    dsimp only
    cases q.isNull with
    | true => exact ⟨.freed, _, rfl, rfl⟩
    | false => exact ⟨_, _, rfl, rfl⟩

theorem splitPde_refuses_iff (hnone : nptm.findPte gpa = none)
    (h : alloc = false ∨ nptm.allocator.allocTable.1 = none ∨
      LacksPde { nptm with allocator := nptm.allocator.allocTable.2 } gpa alloc) :
    (NptCall.splitPde gpa alloc).Refuses nptm ↔
      alloc = false ∨ nptm.allocator.nonpg 0 = false := by
  unfold NptCall.Refuses NptCall.run
  dsimp only
  unfold nvcNptSplitPde
  rw [hnone]
  cases alloc with
  | false => exact iff_of_true ⟨nptm, rfl, fun _ => rfl⟩ (.inl rfl)
  | true =>
      dsimp only
      rw [if_pos rfl]
      obtain ⟨hnonpg, allocator, hnew⟩ | ⟨hnonpg, q, described, hnew, hq⟩ :=
        newPte_of_failed (h.resolve_left Bool.false_ne_true.symm)
      · rw [hnew]
        exact iff_of_true ⟨{ nptm with allocator }, rfl, fun _ => rfl⟩ (.inr hnonpg)
      · rw [hnew, hnonpg]
        refine iff_of_false ?_ (by decide)
        rintro ⟨nptm', hok, -⟩
        have hnull := congrArg Prod.fst (Except.ok.inj hok)
        change (!q.isNull) = false at hnull
        rw [hq] at hnull
        exact Bool.false_ne_true hnull.symm

end NptManager

/-- For every manager, call and answers of the memory manager. -/
theorem NptCall.refuses_iff (nptm : NptManager) (call : NptCall) :
    (call.Fails nptm → call.Refuses nptm) ↔ (call.Fails nptm → call.Harmless nptm) := by
  refine forall_congr' fun hfails => ?_
  cases call with
  | hosted op => exact iff_of_false (fun ⟨_, hok, _⟩ => hosted_faults hfails hok) not_false
  | splitPdpte gpa alloc => exact splitPdpte_refuses_iff hfails
  | splitPde gpa alloc =>
      obtain ⟨hnone, hlacks⟩ | ⟨hnone, hlacks⟩ := hfails
      · exact splitPde_refuses_iff hnone (hlacks.imp_right .inl)
      · unfold afterPte at hlacks
        rw [if_pos hnone] at hlacks
        exact splitPde_refuses_iff hnone (.inr (.inr hlacks))

/-- No page can be split, but the update of one follows a null pointer. -/
theorem not_forall_refuses :
    ¬∀ (nptm : NptManager) (call : NptCall), call.Fails nptm → call.Refuses nptm := by
  intro hall
  let call : NptCall := .hosted (.updatePte 0x5000 0x3000 true false false false)
  have hfails : call.Fails identityMap := .inl ⟨rfl, .inl rfl⟩
  exact (NptCall.refuses_iff identityMap call).mp (hall identityMap call) hfails

end NoirVisor
