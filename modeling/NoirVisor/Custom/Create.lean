import NoirVisor.Custom.View

/-!
# Creating tables

What the nested creators leave behind. Each lists its own table before the table above it is known
to exist, so that a creator that fails leaves the tables below it listed and not linked. When it
succeeds, the tables it made are linked one below the other, and the placeholder entries they were
made with are overwritten.
-/

namespace NoirVisor.SvmCustomNptManager

def withAllocator (nptm : SvmCustomNptManager) (allocator : Allocator) : SvmCustomNptManager :=
  { nptm with allocator }

theorem Wf.withAllocator {nptm : SvmCustomNptManager} (hwf : nptm.Wf) (allocator : Allocator) :
    (nptm.withAllocator allocator).Wf :=
  ⟨hwf.pdpteListed, hwf.pdeListed, hwf.pteListed, hwf.tree, hwf.inRange⟩

/-- A table listed and linked below the root. -/
def addPdpte (nptm : SvmCustomNptManager) (gpa frame : Nat) : SvmCustomNptManager :=
  (nptm.pushPdpte gpa frame).link (page4kbCount nptm.ncr3) (pml4eOffset gpa) frame

def addPde (nptm : SvmCustomNptManager) (gpa frame parent : Nat) : SvmCustomNptManager :=
  (nptm.pushPde gpa frame fun _ => {}).link parent (pdpteOffset gpa) frame

/-- A new table with one entry already written. -/
def tableWith (index : Nat) (entry : NptEntry) : Nat → NptEntry :=
  fun i => if i = index then entry else {}

/-- The table of the 2 MiB page of `gpa` as it is made, below a table that is described. -/
def addPte (hostPat : HostPat) (nptm : SvmCustomNptManager) (gpa frame parent : Nat) :
    SvmCustomNptManager :=
  (nptm.pushPte gpa frame (tableWith (pteOffset gpa) (nvcSvmcSetPteEntry hostPat 0 {}))).link parent
    (pdeOffset gpa) frame

section Frames

variable {nptm : SvmCustomNptManager} {memory : Radix.Frames NptEntry} {gpa frame frame' parent i : Nat}
  {e e' : NptEntry} {table : Nat → NptEntry}

theorem fill_set (memory : Radix.Frames NptEntry) (frame i : Nat) (e : NptEntry) :
    (memory.fill frame fun _ => {}).set frame i e = memory.fill frame (tableWith i e) := by
  funext f j
  unfold Radix.Frames.set Radix.Frames.fill tableWith
  split
  · rename_i heq
    rw [if_pos heq.1, if_pos heq.2]
  · rename_i hne
    split
    · rename_i heq
      rw [if_neg fun hj => hne ⟨heq, hj⟩]
    · rfl

theorem fill_comm {table' : Nat → NptEntry} (hne : frame ≠ frame') :
    (memory.fill frame table).fill frame' table' = (memory.fill frame' table').fill frame table := by
  funext f j
  unfold Radix.Frames.fill
  split
  · rename_i heq
    rw [if_neg fun h => hne (h.symm.trans heq)]
  · rfl

theorem addPdpte_pushPte (hne : frame ≠ frame') (hroot : frame' ≠ page4kbCount nptm.ncr3) :
    (nptm.pushPte gpa frame' table).addPdpte gpa frame =
      (nptm.addPdpte gpa frame).pushPte gpa frame' table := by
  simp only [addPdpte, link, setEntry, pushPdpte, pushPte]
  rw [fill_comm hne.symm, Radix.Frames.fill_set_comm hroot.symm]

theorem addPde_pushPte (hne : frame ≠ frame') (hparent : frame' ≠ parent) :
    (nptm.pushPte gpa frame' table).addPde gpa frame parent =
      (nptm.addPde gpa frame parent).pushPte gpa frame' table := by
  simp only [addPde, link, setEntry, pushPde, pushPte]
  rw [fill_comm hne.symm, Radix.Frames.fill_set_comm hparent.symm]

end Frames

section Add

variable {nptm : SvmCustomNptManager} {gpa frame parent : Nat}

theorem page512gbCount_eq {gpa : Nat} (hgpa : gpa < 2 ^ 48) :
    page512gbCount gpa = 512 * 0 + pml4eOffset gpa := by
  unfold pml4eOffset pageEntryIndex64 page512gbCount
  omega

theorem page1gbCount_eq (gpa : Nat) :
    page1gbCount gpa = 512 * page512gbCount gpa + pdpteOffset gpa := by
  unfold pdpteOffset pageEntryIndex64 page512gbCount page1gbCount
  omega

theorem page2mbCount_eq (gpa : Nat) : page2mbCount gpa = 512 * page1gbCount gpa + pdeOffset gpa := by
  unfold pdeOffset pageEntryIndex64 page1gbCount page2mbCount
  omega

theorem addPdpte_grows (hwf : nptm.Wf) (hgpa : gpa < 2 ^ 48) (hnone : nptm.findPdpte gpa = none)
    (hunused : ¬nptm.Used frame) (hframe : frame < 2 ^ 40) :
    Grows nptm (nptm.addPdpte gpa frame) 2 (page512gbCount gpa) frame true := by
  refine (pushPdpte_grows hwf hnone hunused hframe).link (page512gbCount_eq hgpa) (by omega) rfl
    (Nat.mod_lt _ (by decide)) ?_ (fun _ j _ => by simp [pushPdpte]) (by omega)
  refine unreached_of_undescribed hwf (by omega) ?_
  rw [described_two hwf, hnone]
  rfl

theorem addPde_grows (hwf : nptm.Wf) (hnone : nptm.findPde gpa = none)
    (hparent : nptm.reached 2 (page512gbCount gpa) = some parent) (hunused : ¬nptm.Used frame)
    (hframe : frame < 2 ^ 40) :
    Grows nptm (nptm.addPde gpa frame parent) 1 (page1gbCount gpa) frame true := by
  refine (pushPde_grows hwf hnone hunused hframe).link (page1gbCount_eq gpa) (by omega) hparent
    (Nat.mod_lt _ (by decide)) ?_ (fun _ j _ => by simp [pushPde]) (by omega)
  refine unreached_of_undescribed hwf (by omega) ?_
  rw [described_one hwf, hnone]
  rfl

/-- The new table is linked below the root if the table it is linked to is. -/
theorem addPte_grows (hostPat : HostPat) (hwf : nptm.Wf) (hnone : nptm.findPte gpa = none)
    (hparent : nptm.described 1 (page1gbCount gpa) = some parent) (hunused : ¬nptm.Used frame)
    (hframe : frame < 2 ^ 40) :
    Grows nptm (nptm.addPte hostPat gpa frame parent) 0 (page2mbCount gpa) frame
      (nptm.reached 1 (page1gbCount gpa) = some parent) := by
  have hpush : Grows nptm
      (nptm.pushPte gpa frame (tableWith (pteOffset gpa) (nvcSvmcSetPteEntry hostPat 0 {}))) 0
      (page2mbCount gpa) frame false := pushPte_grows hwf hnone hunused hframe
  by_cases hreached : nptm.reached 1 (page1gbCount gpa) = some parent
  · rw [decide_eq_true hreached]
    refine hpush.link (page2mbCount_eq gpa) (by omega) hreached (Nat.mod_lt _ (by decide)) ?_
      (by omega) fun _ j _ => ?_
    · refine unreached_of_undescribed hwf (by omega) ?_
      rw [described_zero hwf, hnone]
      rfl
    · simp only [pushPte, Radix.Frames.fill_self, tableWith]
      split <;> rfl
  · rw [decide_eq_false hreached]
    refine hpush.link_aside (by omega) (by omega) ?_ hreached
    rw [hpush.described]
    exact (Radix.Layout.extend_of_ne (by omega)).trans hparent

end Add

section Creators

variable {hostPat : HostPat} {nptm : SvmCustomNptManager} {gpa frame : Nat}
  {allocator allocator' : Allocator}

theorem create1gb_of_none (halloc : nptm.allocator.allocTable = (none, allocator)) :
    nvcSvmcCreate1gbPageMap hostPat nptm gpa 0 {} =
      (.insufficientResources, nptm.withAllocator allocator) := by
  rw [nvcSvmcCreate1gbPageMap, halloc]
  rfl

theorem create1gb_of_some (halloc : nptm.allocator.allocTable = (some frame, allocator))
    (hroot : frame ≠ page4kbCount nptm.ncr3) :
    nvcSvmcCreate1gbPageMap hostPat nptm gpa 0 {} =
      (.success, ((nptm.addPdpte gpa frame).setEntry frame (pdpteOffset gpa) (tableEntry 0)).withAllocator
        allocator) := by
  rw [nvcSvmcCreate1gbPageMap, halloc]
  simp only [NptManager.frame_mk, addPdpte, link, setEntry, pushPdpte, withAllocator]
  rw [Radix.Frames.set_comm hroot]
  rfl

theorem describePdpte_of_some {d : NptDescriptor} (hfound : nptm.findPdpte gpa = some d) :
    describePdpte hostPat nptm gpa = (.insufficientResources, some d, nptm) := by
  rw [describePdpte, hfound]

theorem describePdpte_of_none (hnone : nptm.findPdpte gpa = none)
    (halloc : nptm.allocator.allocTable = (none, allocator)) :
    describePdpte hostPat nptm gpa =
      (.insufficientResources, none, nptm.withAllocator allocator) := by
  simp [describePdpte, hnone, create1gb_of_none halloc]

theorem describePdpte_of_new (hnone : nptm.findPdpte gpa = none)
    (halloc : nptm.allocator.allocTable = (some frame, allocator))
    (hroot : frame ≠ page4kbCount nptm.ncr3) :
    describePdpte hostPat nptm gpa =
      (.success, some { phys := page4kbMult frame, gpaStart := page512gbBase gpa },
        ((nptm.addPdpte gpa frame).setEntry frame (pdpteOffset gpa) (tableEntry 0)).withAllocator
          allocator) := by
  simp [describePdpte, hnone, create1gb_of_some halloc hroot, withAllocator, setEntry, addPdpte, link,
    pushPdpte]

/-- The table of the 1 GiB page of `gpa` as it is first listed, with the placeholder of its entry. -/
def pushPlaceholder (nptm : SvmCustomNptManager) (gpa frame : Nat) : SvmCustomNptManager :=
  nptm.pushPde gpa frame (tableWith (pdeOffset gpa) (tableEntry 0))

theorem create2mb_of_none (halloc : nptm.allocator.allocTable = (none, allocator)) :
    nvcSvmcCreate2mbPageMap hostPat nptm gpa 0 {} =
      (.insufficientResources, nptm.withAllocator allocator) := by
  rw [nvcSvmcCreate2mbPageMap, halloc]
  rfl

theorem create2mb_eq (halloc : nptm.allocator.allocTable = (some frame, allocator)) :
    nvcSvmcCreate2mbPageMap hostPat nptm gpa 0 {} =
      match describePdpte hostPat ((nptm.pushPlaceholder gpa frame).withAllocator allocator) gpa with
      | (_, some cur, nptm) => (.success, nptm.link cur.frame (pdpteOffset gpa) frame)
      | (st, none, nptm) => (st, nptm) := by
  rw [nvcSvmcCreate2mbPageMap, halloc]
  simp only [NptManager.frame_mk, fill_set]
  rfl

/-- The table above is not created: the new one stays listed. -/
theorem create2mb_of_failed (halloc : nptm.allocator.allocTable = (some frame, allocator))
    (hnone : nptm.findPdpte gpa = none) (hfailed : allocator.allocTable = (none, allocator')) :
    nvcSvmcCreate2mbPageMap hostPat nptm gpa 0 {} =
      (.insufficientResources, (nptm.pushPlaceholder gpa frame).withAllocator allocator') := by
  have hnone' : ((nptm.pushPlaceholder gpa frame).withAllocator allocator).findPdpte gpa = none :=
    hnone
  rw [create2mb_eq halloc, describePdpte_of_none hnone' hfailed]
  rfl

theorem create2mb_of_some {d : NptDescriptor}
    (halloc : nptm.allocator.allocTable = (some frame, allocator))
    (hfound : nptm.findPdpte gpa = some d) (hne : d.frame ≠ frame) :
    nvcSvmcCreate2mbPageMap hostPat nptm gpa 0 {} =
      (.success, ((nptm.addPde gpa frame d.frame).setEntry frame (pdeOffset gpa)
        (tableEntry 0)).withAllocator allocator) := by
  have hfound' : ((nptm.pushPlaceholder gpa frame).withAllocator allocator).findPdpte gpa =
      some d := hfound
  rw [create2mb_eq halloc, describePdpte_of_some hfound']
  simp only [link, setEntry, withAllocator, pushPlaceholder, addPde, pushPde]
  rw [Radix.Frames.set_comm hne, fill_set]

theorem create2mb_of_new {frame' : Nat}
    (halloc : nptm.allocator.allocTable = (some frame, allocator))
    (hnone : nptm.findPdpte gpa = none) (halloc' : allocator.allocTable = (some frame', allocator'))
    (hroot : frame ≠ page4kbCount nptm.ncr3) (hroot' : frame' ≠ page4kbCount nptm.ncr3)
    (hne : frame' ≠ frame) :
    nvcSvmcCreate2mbPageMap hostPat nptm gpa 0 {} =
      (.success, (((nptm.addPdpte gpa frame').addPde gpa frame frame').setEntry frame
        (pdeOffset gpa) (tableEntry 0)).withAllocator allocator') := by
  have hnone' : ((nptm.pushPlaceholder gpa frame).withAllocator allocator).findPdpte gpa = none :=
    hnone
  rw [create2mb_eq halloc, describePdpte_of_new hnone' halloc' hroot']
  simp only [NptManager.frame_mk, link, setEntry, withAllocator, pushPlaceholder, addPde, pushPde,
    addPdpte, pushPdpte, Radix.Frames.set_set]
  rw [Radix.Frames.set_comm hne, fill_set, Radix.Frames.fill_set_comm hroot.symm, fill_comm hne.symm]

theorem create4kb_of_none (halloc : nptm.allocator.allocTable = (none, allocator)) :
    nvcSvmcCreate4kbPageMap hostPat nptm gpa 0 {} =
      (.insufficientResources, nptm.withAllocator allocator) := by
  rw [nvcSvmcCreate4kbPageMap, halloc]
  rfl

/-- The table of the 2 MiB page of `gpa` as it is first listed. -/
def pushBlank (hostPat : HostPat) (nptm : SvmCustomNptManager) (gpa frame : Nat) :
    SvmCustomNptManager :=
  nptm.pushPte gpa frame (tableWith (pteOffset gpa) (nvcSvmcSetPteEntry hostPat 0 {}))

theorem create4kb_eq (halloc : nptm.allocator.allocTable = (some frame, allocator)) :
    nvcSvmcCreate4kbPageMap hostPat nptm gpa 0 {} =
      match describePde hostPat ((nptm.pushBlank hostPat gpa frame).withAllocator allocator) gpa with
      | (_, some cur, nptm) => (.success, nptm.link cur.frame (pdeOffset gpa) frame)
      | (st, none, nptm) => (st, nptm) := by
  rw [nvcSvmcCreate4kbPageMap, halloc]
  simp only [NptManager.frame_mk, fill_set]
  rfl

theorem create4kb_of_some {d : NptDescriptor}
    (halloc : nptm.allocator.allocTable = (some frame, allocator))
    (hfound : nptm.findPde gpa = some d) :
    nvcSvmcCreate4kbPageMap hostPat nptm gpa 0 {} =
      (.success, (nptm.addPte hostPat gpa frame d.frame).withAllocator allocator) := by
  have hfound' : ((nptm.pushBlank hostPat gpa frame).withAllocator allocator).findPde gpa = some d :=
    hfound
  rw [create4kb_eq halloc, describePde, hfound']
  rfl

theorem create4kb_of_failed {nptm' : SvmCustomNptManager}
    (halloc : nptm.allocator.allocTable = (some frame, allocator))
    (hnone : nptm.findPde gpa = none)
    (hfailed : nvcSvmcCreate2mbPageMap hostPat
      ((nptm.pushBlank hostPat gpa frame).withAllocator allocator) gpa 0 {} =
        (.insufficientResources, nptm')) :
    nvcSvmcCreate4kbPageMap hostPat nptm gpa 0 {} = (.insufficientResources, nptm') := by
  have hnone' : ((nptm.pushBlank hostPat gpa frame).withAllocator allocator).findPde gpa = none :=
    hnone
  rw [create4kb_eq halloc, describePde, hnone', hfailed]
  rfl

/-- The placeholder of the table above is overwritten. -/
theorem create4kb_of_new {frame' : Nat} {nptm' : SvmCustomNptManager} {ds : List NptDescriptor}
    (halloc : nptm.allocator.allocTable = (some frame, allocator))
    (hnone : nptm.findPde gpa = none)
    (hnew : nvcSvmcCreate2mbPageMap hostPat
      ((nptm.pushBlank hostPat gpa frame).withAllocator allocator) gpa 0 {} =
        (.success, (nptm'.setEntry frame' (pdeOffset gpa) (tableEntry 0)).withAllocator allocator'))
    (hlast : nptm'.pde = ds ++ [{ phys := page4kbMult frame', gpaStart := page1gbBase gpa }]) :
    nvcSvmcCreate4kbPageMap hostPat nptm gpa 0 {} =
      (.success, (nptm'.link frame' (pdeOffset gpa) frame).withAllocator allocator') := by
  have hnone' : ((nptm.pushBlank hostPat gpa frame).withAllocator allocator).findPde gpa = none :=
    hnone
  have hcur : ((nptm'.setEntry frame' (pdeOffset gpa) (tableEntry 0)).withAllocator
      allocator').pde.getLast? =
        some { phys := page4kbMult frame', gpaStart := page1gbBase gpa } := by
    rw [show ((nptm'.setEntry frame' (pdeOffset gpa) (tableEntry 0)).withAllocator
      allocator').pde = nptm'.pde from rfl, hlast]
    exact List.getLast?_concat
  rw [create4kb_eq halloc, describePde, hnone', hnew]
  simp only [if_true, hcur, NptManager.frame_mk]
  simp [link, setEntry, withAllocator]

end Creators

end NoirVisor.SvmCustomNptManager
