import NoirVisor.Npt.Entries
import NoirVisor.Npt.Run
import NoirVisor.Rmt.Table

/-!
# Protection of the hypervisor

`nvc_npt_protect_critical_hypervisor` is meant to redirect the pages of the hypervisor to a blank
page. Its calls to `nvc_npt_update_pte` pass the critical page as the host address and the blank
page as the guest address, so it is the blank page that is redirected.
-/

namespace NoirVisor

structure NoirSvmVcpu where
  vmcb : Nat
  hsave : Nat

/-- What the protection reads of `noir_hypervisor`: physical addresses of pages. -/
structure NoirHypervisor where
  virtualCpu : List NoirSvmVcpu
  msrpm : Nat
  rmdDirectory : Nat
  rmtDir : List NoirRmtDirectoryEntry

/-- The pages of one reverse mapping table, 16 bytes for each page of its range. -/
def NoirRmtDirectoryEntry.pages (range : NoirRmtDirectoryEntry) : Nat :=
  (page4kbCount (range.hpaEnd - range.hpaStart) * 16 + 0xFFF) / 0x1000

namespace NptManager

def protectPage (hpa gpa : Nat) (w : Bool) (state : Bool × NptManager) :
    Outcome (Bool × NptManager) := do
  let (r, nptm) ← nvcNptUpdatePte state.2 hpa gpa true w true true
  return (state.1 && r, nptm)

def protectVcpu (hvm : NoirHypervisor) (blank : Nat) (state : Bool × NptManager)
    (vcpu : NoirSvmVcpu) : Outcome (Bool × NptManager) := do
  let state ← protectPage hvm.msrpm blank true state
  let state ← protectPage vcpu.hsave blank true state
  protectPage vcpu.vmcb blank true state

/-- For PDPTE, memory usage would be too high to protect a 2MB page: it is made read-only. -/
def protectPdpt (state : Bool × NptManager) : Outcome (Bool × NptManager) := do
  let (r, nptm) ← nvcNptUpdatePde state.2 state.2.pdpt state.2.pdpt true false true true true
  return (state.1 && r, nptm)

/-- A loop over a descriptor list as it stands at each iteration. -/
def protectList (list : NptManager → List NptDescriptor) (blank : Nat) :
    (fuel i : Nat) → Bool × NptManager → Outcome (Bool × NptManager)
  | 0, _, _ => .error .outOfFuel
  | fuel + 1, i, state =>
      match (list state.2)[i]? with
      | none => return state
      | some cur => do
          let state ← protectPage cur.phys blank true state
          protectList list blank fuel (i + 1) state

def protectRmt (state : Bool × NptManager) (range : NoirRmtDirectoryEntry) : Outcome (Bool × NptManager) :=
  (List.range range.pages).foldlM (fun state k =>
    protectPage (range.table + page4kbMult k) (range.table + page4kbMult k) false state) state

/-- The frame of the blank page, if there is one, and the result. -/
def nvcNptProtectCriticalHypervisor (hvm : NoirHypervisor) (fuel : Nat) (nptm : NptManager) :
    Outcome (Option Nat × Bool × NptManager) :=
  match nptm.allocator.noirAllocContdMemory with
  | (none, allocator) => return (none, false, { nptm with allocator })
  | (some frame, allocator) => do
      let blank := page4kbMult frame
      let state ← hvm.virtualCpu.foldlM (protectVcpu hvm blank) (true, { nptm with allocator })
      let state ← protectPage state.2.ncr3 blank true state
      let state ← protectPdpt state
      let state ← protectList (·.pde) blank fuel 0 state
      let state ← protectList (·.pte) blank fuel 0 state
      let state ← protectPage hvm.rmdDirectory hvm.rmdDirectory false state
      let state ← hvm.rmtDir.foldlM protectRmt state
      return (some frame, state)

/-- A frame holds a table the processor can reach from the root. -/
inductive LinkedTable (nptm : NptManager) : Nat → Nat → Prop
  | root : LinkedTable nptm 3 (page4kbCount nptm.ncr3)
  | child {level frame i : Nat} : LinkedTable nptm (level + 1) frame → i < 512 →
      nptFormat.isTable (level + 1) (nptm.memory frame i) = true →
      LinkedTable nptm level (nptm.memory frame i).base

end NptManager

namespace NoirHypervisor

open NptManager

/-- The pages whose guest addresses are to read the blank page. -/
inductive Hidden (hvm : NoirHypervisor) (nptm : NptManager) : Nat → Prop
  | msrpm : Hidden hvm nptm (page4kbCount hvm.msrpm)
  | vmcb {vcpu : NoirSvmVcpu} : vcpu ∈ hvm.virtualCpu → Hidden hvm nptm (page4kbCount vcpu.vmcb)
  | hsave {vcpu : NoirSvmVcpu} : vcpu ∈ hvm.virtualCpu → Hidden hvm nptm (page4kbCount vcpu.hsave)
  | table {level frame : Nat} : LinkedTable nptm level frame → Hidden hvm nptm frame

/-- The pages the guest must not write. -/
inductive Critical (hvm : NoirHypervisor) (nptm : NptManager) : Nat → Prop
  | hidden {frame : Nat} : Hidden hvm nptm frame → Critical hvm nptm frame
  /-- The map is two pages long. -/
  | msrpm : Critical hvm nptm (page4kbCount hvm.msrpm + 1)
  | rmdDirectory : Critical hvm nptm (page4kbCount hvm.rmdDirectory)
  | rmt {range : NoirRmtDirectoryEntry} {k : Nat} : range ∈ hvm.rmtDir → k < range.pages →
      Critical hvm nptm (page4kbCount (range.table + page4kbMult k))

/-- The pages whose addresses the protection passes as host addresses are in use. -/
def Owned (hvm : NoirHypervisor) (used : Nat → Prop) : Prop :=
  ∀ phys ∈ hvm.msrpm :: hvm.virtualCpu.flatMap fun vcpu => [vcpu.hsave, vcpu.vmcb],
    phys < 2 ^ 52 ∧ used (page4kbCount phys)

/-- The isolation the protection is for. -/
structure Isolated (hvm : NoirHypervisor) (blank : Nat) (nptm : NptManager) : Prop where
  unwritable : ∀ address < 2 ^ 48, ∀ v, nptm.view address = some v → v.write = true →
    ¬hvm.Critical nptm (page4kbCount v.hpa)
  redirected : ∀ address < 2 ^ 48, hvm.Hidden nptm (page4kbCount address) →
    ∃ v, nptm.view address = some v ∧ page4kbCount v.hpa = blank

end NoirHypervisor

namespace NptManager

variable {nptm nptm' origin : NptManager} {used : Nat → Prop} {hpa gpa address blank : Nat}
  {r w x b alloc : Bool} {d t : NptDescriptor}

theorem view_eq_some {v : NptView} (h : nptm.view address = some v) :
    ∃ walk, nptm.walk address = some walk ∧ v.hpa = leafTarget walk address := by
  rw [view_eq] at h
  obtain ⟨walk, hwalk, hview⟩ := Option.bind_eq_some_iff.mp h
  unfold nptViewOf at hview
  split at hview
  · exact ⟨walk, hwalk, by rw [← Option.some.inj hview]⟩
  · cases hview

theorem SplitsPdpte.fixed (h : SplitsPdpte nptm gpa d nptm') :
    nptm'.ncr3 = nptm.ncr3 ∧ nptm'.pdpt = nptm.pdpt := by
  obtain ⟨-, described, hdescribes, rfl⟩ := h
  exact ⟨hdescribes.fixed.1, hdescribes.fixed.2.1⟩

theorem SplitsPde.fixed (h : SplitsPde nptm gpa d t nptm') :
    nptm'.ncr3 = nptm.ncr3 ∧ nptm'.pdpt = nptm.pdpt := by
  obtain ⟨linked, described, hsplit, hdescribes, rfl⟩ := h
  exact ⟨hdescribes.fixed.1.trans hsplit.fixed.1, hdescribes.fixed.2.1.trans hsplit.fixed.2⟩

/-! ### No entry but its own targets the blank page -/

/-- Every entry that maps a page around the blank page is the identity entry of that page. -/
def Untargeted (nptm : NptManager) (blank : Nat) : Prop :=
  nptm.Entries fun level r i entry => level = 0 ∨ nptFormat.leaf level entry = true →
    entry.pageBase level = blank / 512 ^ level → 512 * r + i = blank / 512 ^ level

theorem splitClosed_untargeted (blank : Nat) :
    SplitClosed fun level r i entry => level = 0 ∨ nptFormat.leaf level entry = true →
      entry.pageBase level = blank / 512 ^ level → 512 * r + i = blank / 512 ^ level where
  large r hr i hi _ htarget := by
    rw [← htarget]
    simp only [splitLargeEntry, NptEntry.setLargePageBase, NptEntry.pageBase]
    omega
  page r hr i hi _ htarget := by
    rw [← htarget]
    simp only [splitPageEntry, NptEntry.setBase, NptEntry.pageBase]
    omega
  table level r i entry phys hlevel _ hleaf := by
    rcases hleaf with hzero | hleaf
    · exact absurd hzero hlevel
    · simp [nptFormat, NptEntry.toTable, NptEntry.setBase, NptEntry.clearReserved1] at hleaf

/-- Then only its own guest address leads to the blank page. -/
theorem Untargeted.eq_of_walk (huntargeted : nptm.Untargeted blank) (hwf : nptm.Wf)
    (haddress : address < 2 ^ 48) {walk : Radix.Walk NptEntry}
    (hwalk : nptm.walk address = some walk)
    (htarget : page4kbCount (leafTarget walk address) = blank) : page4kbCount address = blank := by
  obtain ⟨hle, ⟨f, hf, hleaf⟩, hend, -⟩ :=
    Radix.walk_location hwf.linked (layout_root haddress) hwalk
  have hentry := huntargeted walk.level _ f _ hf (Radix.index_lt walk.level address)
  rw [← hleaf, ← Radix.region_eq] at hentry
  obtain ⟨above, leaf, level⟩ := walk
  simp only at hle hend hentry
  simp only [leafTarget, page4kbCount] at htarget ⊢
  have hregion := hentry hend
  simp only [Radix.region] at hregion
  rcases level with _ | _ | _ | level
  · omega
  · omega
  · omega
  · obtain rfl : level = 0 := by omega
    simp [nptFormat] at hend

/-! ### The state along the way -/

/-- What every update keeps: the fixed frames, and no table in a frame of `used` that did not hold
one at the start. -/
structure Along (origin : NptManager) (used : Nat → Prop) (nptm : NptManager) : Prop where
  ready : ∃ used', (∀ frame, used frame → used' frame) ∧ nptm.Ready used'
  ncr3 : nptm.ncr3 = origin.ncr3
  pdpt : nptm.pdpt = origin.pdpt
  grown : ∀ frame, nptm.Used frame → origin.Used frame ∨ ¬used frame

theorem Along.of_grows {used' : Nat → Prop} (h : Along origin used nptm)
    (hused : ∀ frame, used frame → used' frame) (hgrows : nptm.Grows nptm' used')
    (hncr3 : nptm'.ncr3 = nptm.ncr3) (hpdpt : nptm'.pdpt = nptm.pdpt) :
    Along origin used nptm' := by
  obtain ⟨hnew, used'', hused', hready⟩ := hgrows
  refine ⟨⟨used'', fun frame hframe => hused' _ (hused _ hframe), hready⟩, hncr3.trans h.ncr3,
    hpdpt.trans h.pdpt, fun frame hframe => ?_⟩
  rcases hnew frame hframe with hold | hunused
  · exact h.grown frame hold
  · exact Or.inr fun huse => hunused (hused frame huse)

/-- The blank page holds no table, and is not among the PDPTEs' 2 MiB page. -/
theorem Along.blank_unused (h : Along origin used nptm) (hblank : used blank)
    (horigin : ¬origin.Used blank) :
    ¬nptm.Used blank ∧ page2mbCount (page4kbMult blank) ≠ page2mbCount nptm.pdpt := by
  have hunused : ¬nptm.Used blank := fun huse => by
    rcases h.grown blank huse with hold | hnew
    · exact horigin hold
    · exact hnew hblank
  refine ⟨hunused, fun hregion => hunused ⟨2, blank - page4kbCount nptm.pdpt, ?_⟩⟩
  obtain ⟨used', -, hready⟩ := h.ready
  have haligned := hready.wf.pdptAligned
  simp only [page2mbCount, page4kbMult, page4kbCount] at hregion haligned
  simp only [layout, page4kbCount]
  rw [if_pos (by omega)]
  exact congrArg some (by omega)

theorem Along.updatePte (h : Along origin used nptm)
    (hrun : nvcNptUpdatePte nptm hpa gpa r w x alloc = .ok (b, nptm')) :
    Along origin used nptm' := by
  obtain ⟨used', hused, hready⟩ := h.ready
  obtain ⟨-, hgrows, d, t, split, hsplit, rfl⟩ := nvcNptUpdatePte_ok hready hrun
  exact h.of_grows hused hgrows hsplit.fixed.1 hsplit.fixed.2

theorem Untargeted.updatePte (hready : nptm.Ready used) (huntargeted : nptm.Untargeted blank)
    (hhpa : page4kbCount hpa % 2 ^ 40 = blank → page4kbCount gpa = blank)
    (hrun : nvcNptUpdatePte nptm hpa gpa r w x alloc = .ok (b, nptm')) :
    nptm'.Untargeted blank := by
  obtain ⟨-, -, d, t, split, hsplit, rfl⟩ := nvcNptUpdatePte_ok hready hrun
  have hsplitUntargeted := hsplit.entries hready.wf (splitClosed_untargeted blank) huntargeted
  refine hsplitUntargeted.modifyEntry (hsplit.wf hready.wf) (hsplit.layout_pte hready.wf)
    fun _ htarget => ?_
  rw [pte_region]
  simp only [pow_zero, Nat.div_one] at htarget ⊢
  refine hhpa ?_
  rw [← htarget]
  simp [pagePte, NptEntry.setBase, NptEntry.setPermission, NptEntry.pageBase]

theorem Along.protectPdpt (h : Along origin used nptm)
    (hrun : nvcNptUpdatePde nptm hpa gpa r w x true alloc = .ok (b, nptm')) :
    Along origin used nptm' := by
  obtain ⟨used', hused, hready⟩ := h.ready
  obtain ⟨-, hgrows, d, split, hsplit, rfl⟩ := nvcNptUpdatePde_large hready hrun
  exact h.of_grows hused hgrows hsplit.fixed.1 hsplit.fixed.2

theorem Untargeted.protectPdpt (hready : nptm.Ready used) (huntargeted : nptm.Untargeted blank)
    (hrun : nvcNptUpdatePde nptm gpa gpa r w x true alloc = .ok (b, nptm')) :
    nptm'.Untargeted blank := by
  obtain ⟨-, -, d, split, hsplit, rfl⟩ := nvcNptUpdatePde_large hready hrun
  have hgpa := hsplit.1
  have hsplitUntargeted := hsplit.entries hready.wf (splitClosed_untargeted blank) huntargeted
  refine hsplitUntargeted.modifyEntry (hsplit.wf hready.wf) (hsplit.layout hready.wf)
    fun _ htarget => ?_
  rw [pde_region, ← htarget]
  simp only [page1gbCount] at hgpa
  simp only [largePde, NptEntry.setLargePageBase, NptEntry.setPermission, NptEntry.pageBase,
    page2mbCount]
  omega

/-! ### The PDPTEs keep their own addresses -/

/-- The PDPTE of an address points to its described table. -/
def PdpteSplit (nptm : NptManager) (address : Nat) : Prop :=
  ∃ d entry, nptm.findPde address = some d ∧
    nptm.pdpte (page1gbCount address) = NptEntry.toTable entry d.phys

/-- The 1 GiB page around the PDPTEs is split, and an address among theirs leads to itself or
nowhere. -/
structure SelfSeen (nptm : NptManager) : Prop where
  split : nptm.PdpteSplit nptm.pdpt
  seen : ∃ address < 2 ^ 48, page2mbCount address = page2mbCount nptm.pdpt ∧
    ∀ walk, nptm.walk address = some walk → leafTarget walk address = address

theorem DescribesPde.findPde_of_some {d' : NptDescriptor} (h : DescribesPde nptm gpa d nptm')
    (hfound : nptm.findPde address = some d') : nptm'.findPde address = some d' := by
  cases h with
  | found allocator _ => exact hfound
  | made allocator _ _ _ => exact Radix.covering_append_of_some hfound

theorem SplitsPdpte.findPde_of_some {d' : NptDescriptor} (h : SplitsPdpte nptm gpa d nptm')
    (hfound : nptm.findPde address = some d') : nptm'.findPde address = some d' := by
  obtain ⟨-, described, hdescribes, rfl⟩ := h
  exact hdescribes.findPde_of_some hfound

theorem SplitsPde.findPde_of_some {d' : NptDescriptor} (h : SplitsPde nptm gpa d t nptm')
    (hfound : nptm.findPde address = some d') : nptm'.findPde address = some d' := by
  obtain ⟨linked, described, hsplit, hdescribes, rfl⟩ := h
  have hlinked := hsplit.findPde_of_some hfound
  rw [← hlinked]
  change described.findPde address = linked.findPde address
  rw [NptManager.findPde, hdescribes.fixed.2.2]
  rfl

theorem SplitsPdpte.pdpte_of_ne (h : SplitsPdpte nptm gpa d nptm') {k : Nat} (hk : k < 512 * 512)
    (hne : k ≠ page1gbCount gpa) : nptm'.pdpte k = nptm.pdpte k := by
  obtain ⟨-, described, hdescribes, rfl⟩ := h
  rw [← hdescribes.pdpte hk]
  refine Radix.Frames.set_of_ne fun ⟨hframe, hindex⟩ => hne ?_
  simp only [pdpteFrame] at hframe
  have hfixed : (described.linkPdpte gpa d).pdpt = described.pdpt := rfl
  rw [hfixed] at hframe
  omega

/-- A write below the PDPTEs. -/
theorem pdpte_modifyEntry (hwf : nptm.Wf) {level table frame i : Nat} {f : NptEntry → NptEntry}
    (hlevel : level ≠ 2) (htable : nptm.layout level table = some frame) {k : Nat}
    (hk : k < 512 * 512) : (nptm.modifyEntry frame i f).pdpte k = nptm.pdpte k := by
  refine Radix.Frames.set_of_frame_ne fun heq => hlevel ?_
  exact (hwf.disjoint _ _ _ _ _ htable (heq ▸ layout_two hk)).1

theorem SplitsPde.pdpte_of_ne (hwf : nptm.Wf) (h : SplitsPde nptm gpa d t nptm') {k : Nat}
    (hk : k < 512 * 512) (hne : k ≠ page1gbCount gpa) : nptm'.pdpte k = nptm.pdpte k := by
  have hd := h.layout_pde hwf
  obtain ⟨linked, described, hsplit, hdescribes, rfl⟩ := h
  change described.layout 1 _ = _ at hd
  rw [linkPde, pdpte_modifyEntry (hdescribes.wf (hsplit.wf hwf) hsplit.findPde) (by decide) hd hk,
    hdescribes.pdpte hk, hsplit.pdpte_of_ne hk hne]

theorem findPde_congr (hwf : nptm.Wf) (hpage : page1gbCount address = page1gbCount gpa) :
    nptm.findPde address = nptm.findPde gpa :=
  Radix.covering_congr (by decide) hwf.pdeAligned hpage

theorem PdpteSplit.congr (h : nptm.PdpteSplit gpa) (hwf : nptm.Wf)
    (hpage : page1gbCount address = page1gbCount gpa) : nptm.PdpteSplit address := by
  obtain ⟨d, entry, hfound, hentry⟩ := h
  exact ⟨d, entry, (findPde_congr hwf hpage).trans hfound, hpage ▸ hentry⟩

/-- A split below a split PDPTE affects the addresses of its own 2 MiB page only. -/
theorem SplitsPde.walk_of_split (hwf : nptm.Wf) (h : SplitsPde nptm gpa d t nptm')
    (hsplit : nptm.PdpteSplit address) (haddress : address < 2 ^ 48)
    (hne : page2mbCount address ≠ page2mbCount gpa) : nptm'.walk address = nptm.walk address := by
  obtain ⟨linked, hlinked, hwalk⟩ := h.walk_of_ne hwf haddress hne
  rw [hwalk]
  by_cases hpage : page1gbCount address = page1gbCount gpa
  · obtain ⟨d', entry, hfound, hentry⟩ := hsplit.congr hwf hpage.symm
    obtain rfl := hlinked.eq_of_findPde hfound
    obtain ⟨allocator, rfl⟩ := hlinked.eq_of_pdpte hfound hentry
    rfl
  · exact hlinked.walk_of_ne hwf haddress hpage

theorem SplitsPde.pdpteSplit (hwf : nptm.Wf) (h : SplitsPde nptm gpa d t nptm')
    (hsplit : nptm.PdpteSplit address) (haddress : address < 2 ^ 48) :
    nptm'.PdpteSplit address := by
  by_cases hpage : page1gbCount address = page1gbCount gpa
  · obtain ⟨linked, hlinked, -⟩ := SplitsPde.pdeOf hwf h
    obtain ⟨d', entry, hfound, -⟩ := hsplit.congr hwf hpage.symm
    obtain rfl := hlinked.eq_of_findPde hfound
    have hsplit' : nptm'.PdpteSplit gpa := ⟨d', _, h.findPde_of_some hfound, h.pdpte hwf⟩
    exact hsplit'.congr (h.wf hwf) hpage
  · obtain ⟨d', entry, hfound, hentry⟩ := hsplit
    exact ⟨d', entry, h.findPde_of_some hfound,
      (h.pdpte_of_ne hwf (page1gbCount_lt haddress) hpage).trans hentry⟩

theorem PdpteSplit.modifyEntry (hwf : nptm.Wf) (h : nptm.PdpteSplit address)
    (haddress : address < 2 ^ 48) {level table frame i : Nat} {f : NptEntry → NptEntry}
    (hlevel : level ≠ 2) (htable : nptm.layout level table = some frame) :
    (nptm.modifyEntry frame i f).PdpteSplit address := by
  obtain ⟨d, entry, hfound, hentry⟩ := h
  exact ⟨d, entry, hfound,
    (pdpte_modifyEntry hwf hlevel htable (page1gbCount_lt haddress)).trans hentry⟩

theorem SelfSeen.lt (h : nptm.SelfSeen) : nptm.pdpt < 2 ^ 48 := by
  obtain ⟨address, haddress, hpage, -⟩ := h.seen
  simp only [page2mbCount] at hpage
  omega

theorem SelfSeen.updatePte_of_ne (hready : nptm.Ready used) (h : nptm.SelfSeen)
    (hne : page2mbCount gpa ≠ page2mbCount nptm.pdpt)
    (hrun : nvcNptUpdatePte nptm hpa gpa r w x alloc = .ok (b, nptm')) : nptm'.SelfSeen := by
  obtain ⟨-, -, d, t, split, hsplit, rfl⟩ := nvcNptUpdatePte_ok hready hrun
  have hwf := hsplit.wf hready.wf
  have ht := hsplit.layout_pte hready.wf
  have hpdpt : split.pdpt = nptm.pdpt := hsplit.fixed.2
  constructor
  · change PdpteSplit _ split.pdpt
    rw [hpdpt]
    exact (hsplit.pdpteSplit hready.wf h.split h.lt).modifyEntry hwf h.lt (by decide) ht
  · obtain ⟨address, haddress, hpage, hseen⟩ := h.seen
    refine ⟨address, haddress, hpdpt ▸ hpage, fun walk hwalk => hseen walk ?_⟩
    have haddressSplit := h.split.congr hready.wf (page1gbCount_of_page2mbCount hpage)
    rw [← hwalk, walk_modifyEntry_of_ne hwf haddress ht,
      hsplit.walk_of_split hready.wf haddressSplit haddress (by rw [hpage]; exact hne.symm)]
    rw [region_zero]
    simp only [page2mbCount, page4kbCount, pageEntryIndex64] at hne hpage ⊢
    omega

/-- A page mapped to itself leads to itself, if the entries above let a walk through. -/
theorem SelfSeen.updatePte_self (hready : nptm.Ready used) (h : nptm.SelfSeen)
    (heq : page2mbCount gpa = page2mbCount nptm.pdpt)
    (hrun : nvcNptUpdatePte nptm gpa gpa r w x alloc = .ok (b, nptm')) : nptm'.SelfSeen := by
  obtain ⟨-, ⟨-, used', -, hready'⟩, d, t, split, hsplit, rfl⟩ := nvcNptUpdatePte_ok hready hrun
  have hwf := hsplit.wf hready.wf
  have hd := hsplit.layout_pde hready.wf
  have ht := hsplit.layout_pte hready.wf
  have hpdpt : split.pdpt = nptm.pdpt := hsplit.fixed.2
  have hgpa := lt_of_page1gbCount_lt hsplit.inRange
  constructor
  · change PdpteSplit _ split.pdpt
    rw [hpdpt]
    exact (hsplit.pdpteSplit hready.wf h.split h.lt).modifyEntry hwf h.lt (by decide) ht
  · refine ⟨gpa, hgpa, hpdpt ▸ heq, fun walk hwalk => ?_⟩
    have hpdpte := pdpte_modifyEntry (i := pageEntryIndex64 (page4kbCount gpa))
      (f := pagePte gpa r w x) hwf (by decide) ht hsplit.inRange
    rw [hsplit.pdpte hready.wf] at hpdpte
    obtain ⟨linked, -, hpdeOf⟩ := SplitsPde.pdeOf hready.wf hsplit
    have hpde : (split.modifyEntry t.frame (pageEntryIndex64 (page4kbCount gpa))
        (pagePte gpa r w x)).memory d.frame (Radix.index 1 gpa) =
          (linked.pdeOf d gpa).toTable t.phys := by
      rw [← hpdeOf]
      refine Radix.Frames.set_of_frame_ne fun heq => ?_
      have := (hwf.disjoint _ _ _ _ _ ht (heq ▸ hd)).1
      omega
    obtain ⟨hlevel, hleaf⟩ := hready'.wf.walk_of_page hgpa hwalk (by rw [hpdpte]; rfl) hd
      (by rw [hpde]; rfl) ht
    have hentry := Radix.Frames.set_self split.memory t.frame (pageEntryIndex64 (page4kbCount gpa))
      (pagePte gpa r w x (split.memory t.frame (pageEntryIndex64 (page4kbCount gpa))))
    rw [leafTarget, hlevel, hleaf]
    refine (congrArg (fun entry => NptEntry.pageBase 0 entry * _ + _) hentry).trans ?_
    simp only [pagePte, NptEntry.setBase, NptEntry.setPermission, NptEntry.pageBase, page4kbCount]
    omega

theorem selfSeen_of_updatePde (hready : nptm.Ready used)
    (hrun : nvcNptUpdatePde nptm nptm.pdpt nptm.pdpt r w x true alloc = .ok (b, nptm')) :
    nptm'.SelfSeen := by
  obtain ⟨-, ⟨-, used', -, hready'⟩, d, split, hsplit, rfl⟩ := nvcNptUpdatePde_large hready hrun
  have hwf := hsplit.wf hready.wf
  have hd := hsplit.layout hready.wf
  have hpdpt : split.pdpt = nptm.pdpt := hsplit.fixed.2
  have hlt := lt_of_page1gbCount_lt hsplit.1
  have hpdpte := pdpte_modifyEntry (i := pageEntryIndex64 (page2mbCount nptm.pdpt))
    (f := largePde nptm.pdpt r w x) hwf (by decide) hd hsplit.1
  rw [hsplit.pdpte] at hpdpte
  constructor
  · change PdpteSplit _ split.pdpt
    rw [hpdpt]
    exact ⟨d, _, hsplit.findPde, hpdpte⟩
  · refine ⟨nptm.pdpt, hlt, hpdpt ▸ rfl, fun walk hwalk => ?_⟩
    have hentry := Radix.Frames.set_self split.memory d.frame
      (pageEntryIndex64 (page2mbCount nptm.pdpt))
      (largePde nptm.pdpt r w x (split.pdeOf d nptm.pdpt))
    obtain ⟨hlevel, hleaf⟩ := hready'.wf.walk_of_large hlt hwalk (by rw [hpdpte]; rfl) hd
      (congrArg NptEntry.psize hentry)
    rw [leafTarget, hlevel, hleaf]
    refine (congrArg (fun entry => NptEntry.pageBase 1 entry * _ + _) hentry).trans ?_
    simp only [largePde, NptEntry.setLargePageBase, NptEntry.setPermission, NptEntry.pageBase,
      page2mbCount]
    omega

/-! ### The whole protection -/

/-- What holds along the way: no update but the one of its own guest address targets the blank page,
when none did at the start and `owned` holds. -/
structure Protecting (origin : NptManager) (used : Nat → Prop) (blank : Nat) (owned : Prop)
    (nptm : NptManager) : Prop where
  along : Along origin (fun frame => used frame ∨ frame = blank) nptm
  untargeted : owned → origin.Untargeted blank → nptm.Untargeted blank

section Whole

variable {owned : Prop} {state state' : Bool × NptManager}

theorem protectPage_eq_ok (h : protectPage hpa gpa w state = .ok state') :
    ∃ b, nvcNptUpdatePte state.2 hpa gpa true w true true = .ok (b, state'.2) := by
  obtain ⟨⟨b, nptm⟩, hupdate, hreturn⟩ := bind_eq_ok.mp h
  obtain rfl := Except.ok.inj hreturn
  exact ⟨b, hupdate⟩

theorem Protecting.protectPage (h : Protecting origin used blank owned state.2)
    (hhpa : owned → page4kbCount hpa % 2 ^ 40 = blank → page4kbCount gpa = blank)
    (hrun : protectPage hpa gpa w state = .ok state') :
    Protecting origin used blank owned state'.2 := by
  obtain ⟨b, hupdate⟩ := protectPage_eq_ok hrun
  obtain ⟨used', -, hready⟩ := h.along.ready
  exact ⟨h.along.updatePte hupdate, fun howned hblank =>
    Untargeted.updatePte hready (h.untargeted howned hblank) (hhpa howned) hupdate⟩

theorem Protecting.selfSeen_redirect (h : Protecting origin used blank owned state.2)
    (hblank : ¬origin.Used blank) (hseen : state.2.SelfSeen)
    (hrun : NptManager.protectPage hpa (page4kbMult blank) w state = .ok state') :
    state'.2.SelfSeen := by
  obtain ⟨b, hupdate⟩ := protectPage_eq_ok hrun
  obtain ⟨used', -, hready⟩ := h.along.ready
  exact hseen.updatePte_of_ne hready (h.along.blank_unused (Or.inr rfl) hblank).2 hupdate

theorem Protecting.selfSeen_self (h : Protecting origin used blank owned state.2)
    (hseen : state.2.SelfSeen) (hrun : NptManager.protectPage hpa hpa w state = .ok state') :
    state'.2.SelfSeen := by
  obtain ⟨b, hupdate⟩ := protectPage_eq_ok hrun
  obtain ⟨used', -, hready⟩ := h.along.ready
  by_cases heq : page2mbCount hpa = page2mbCount state.2.pdpt
  · exact hseen.updatePte_self hready heq hupdate
  · exact hseen.updatePte_of_ne hready heq hupdate

theorem page4kbCount_of_identity (h : page4kbCount hpa % 2 ^ 40 = blank)
    (hhpa : hpa < 2 ^ 52) : page4kbCount hpa = blank := by
  unfold page4kbCount at h ⊢
  omega

theorem Protecting.protectSelf (h : Protecting origin used blank owned state.2)
    (hrun : NptManager.protectPage hpa hpa w state = .ok state') :
    Protecting origin used blank owned state'.2 := by
  obtain ⟨b, hupdate⟩ := protectPage_eq_ok hrun
  obtain ⟨used', -, hready⟩ := h.along.ready
  obtain ⟨-, -, d, t, split, hsplit, -⟩ := nvcNptUpdatePte_ok hready hupdate
  have hlt := lt_of_page1gbCount_lt hsplit.inRange
  exact h.protectPage (fun _ htarget => page4kbCount_of_identity htarget (by omega)) hrun

/-- The tables are no target: they are in use. -/
theorem Protecting.table_ne (h : Protecting origin used blank owned nptm)
    (hblank : ¬origin.Used blank) {frame : Nat} (hframe : nptm.Used frame) :
    frame % 2 ^ 40 ≠ blank := by
  have hunused := (h.along.blank_unused (Or.inr rfl) hblank).1
  obtain ⟨used', -, hready⟩ := h.along.ready
  obtain ⟨level, r, hlayout⟩ := hframe
  rw [Nat.mod_eq_of_lt (hready.wf.inRange _ _ _ hlayout)]
  rintro rfl
  exact hunused ⟨level, r, hlayout⟩

theorem Protecting.protectList {list : NptManager → List NptDescriptor}
    (hlist : ∀ nptm : NptManager, nptm.Wf → ∀ d ∈ list nptm, nptm.Used d.frame)
    (hblank : ¬origin.Used blank) {fuel i : Nat} (h : Protecting origin used blank owned state.2)
    (hseen : state.2.SelfSeen)
    (hrun : NptManager.protectList list (page4kbMult blank) fuel i state = .ok state') :
    Protecting origin used blank owned state'.2 ∧ state'.2.SelfSeen := by
  induction fuel generalizing i state with
  | zero => cases hrun
  | succ fuel ih =>
      unfold NptManager.protectList at hrun
      split at hrun
      · obtain rfl := Except.ok.inj hrun
        exact ⟨h, hseen⟩
      · rename_i cur hcur
        obtain ⟨state₁, hpage, hrest⟩ := bind_eq_ok.mp hrun
        obtain ⟨used', -, hready⟩ := h.along.ready
        have hframe := hlist _ hready.wf cur (List.mem_of_getElem? hcur)
        exact ih (h.protectPage (fun _ heq => absurd heq (h.table_ne hblank hframe)) hpage)
          (h.selfSeen_redirect hblank hseen hpage) hrest

theorem Wf.used_pde (hwf : nptm.Wf) : ∀ d ∈ nptm.pde, nptm.Used d.frame :=
  fun d hd => ⟨1, _, hwf.pdeListed d hd⟩

theorem Wf.used_pte (hwf : nptm.Wf) : ∀ t ∈ nptm.pte, nptm.Used t.frame :=
  fun t ht => ⟨0, _, hwf.pteListed t ht⟩

theorem protectVcpu_protecting {hvm : NoirHypervisor} {vcpu : NoirSvmVcpu}
    (hvcpu : vcpu ∈ hvm.virtualCpu) (hblank : ¬used blank)
    (h : Protecting origin used blank (hvm.Owned used) state.2)
    (hrun : protectVcpu hvm (page4kbMult blank) state vcpu = .ok state') :
    Protecting origin used blank (hvm.Owned used) state'.2 := by
  have hne : ∀ phys ∈ hvm.msrpm :: hvm.virtualCpu.flatMap fun vcpu => [vcpu.hsave, vcpu.vmcb],
      hvm.Owned used → page4kbCount phys % 2 ^ 40 = blank →
        page4kbCount (page4kbMult blank) = blank := by
    intro phys hmem howned heq
    obtain ⟨hphys, huse⟩ := howned phys hmem
    rw [page4kbCount_of_identity heq hphys] at huse
    exact absurd huse hblank
  have hmem : ∀ phys ∈ [vcpu.hsave, vcpu.vmcb],
      phys ∈ hvm.msrpm :: hvm.virtualCpu.flatMap fun vcpu => [vcpu.hsave, vcpu.vmcb] :=
    fun phys hphys => List.mem_cons_of_mem _ (List.mem_flatMap.mpr ⟨vcpu, hvcpu, hphys⟩)
  obtain ⟨state₁, hmsrpm, hrun⟩ := bind_eq_ok.mp hrun
  obtain ⟨state₂, hhsave, hvmcb⟩ := bind_eq_ok.mp hrun
  have h₁ := h.protectPage (hne _ List.mem_cons_self) hmsrpm
  have h₂ := h₁.protectPage (hne _ (hmem _ (by simp))) hhsave
  exact h₂.protectPage (hne _ (hmem _ (by simp))) hvmcb

theorem protectPdpt_protecting (h : Protecting origin used blank owned state.2)
    (hrun : protectPdpt state = .ok state') :
    Protecting origin used blank owned state'.2 ∧ state'.2.SelfSeen := by
  obtain ⟨⟨b, nptm⟩, hupdate, hreturn⟩ := bind_eq_ok.mp hrun
  obtain rfl := Except.ok.inj hreturn
  obtain ⟨used', -, hready⟩ := h.along.ready
  exact ⟨⟨h.along.protectPdpt hupdate, fun howned hblank =>
    (h.untargeted howned hblank).protectPdpt hready hupdate⟩, selfSeen_of_updatePde hready hupdate⟩

theorem protectRmt_protecting {range : NoirRmtDirectoryEntry}
    (h : Protecting origin used blank owned state.2 ∧ state.2.SelfSeen)
    (hrun : protectRmt state range = .ok state') :
    Protecting origin used blank owned state'.2 ∧ state'.2.SelfSeen :=
  foldlM_invariant (P := fun state : Bool × NptManager =>
    Protecting origin used blank owned state.2 ∧ state.2.SelfSeen)
    (fun _ _ _ _ h hrun => ⟨h.1.protectSelf hrun, h.1.selfSeen_self h.2 hrun⟩) h hrun

theorem Wf.linkedTable_pdpt (hwf : nptm.Wf) {k : Nat} (hk : k < 512) :
    LinkedTable nptm 2 (page4kbCount nptm.pdpt + k) := by
  have hentry := hwf.pml4e k hk
  have htable : nptFormat.isTable 3 (nptm.memory (page4kbCount nptm.ncr3) k) = true := by
    rw [hentry]
    rfl
  have hlinked := hwf.linked 2 0 _ k rfl hk htable
  have hchild := LinkedTable.child .root hk htable
  have hbase : (nptm.memory (page4kbCount nptm.ncr3) k).base = page4kbCount nptm.pdpt + k := by
    simp only [layout] at hlinked
    rw [if_pos (by omega)] at hlinked
    have := Option.some.inj hlinked
    simp only [nptFormat] at this
    omega
  rwa [hbase] at hchild

/-- Whatever the state before, a protection that returns does not isolate the hypervisor: among the
PDPTEs there is an address that keeps leading to itself. And where no other guest address was mapped
to the blank page before, none is after, so that no page at all has been redirected there. -/
theorem nvcNptProtectCriticalHypervisor_never (hvm : NoirHypervisor) (fuel : Nat)
    (allocator : Allocator) (h : Reached (fun _ _ => True) nptm)
    (hown : ∀ frame, nptm.Used frame → used frame) (hfresh : allocator.Fresh used)
    (hrun : nvcNptProtectCriticalHypervisor hvm fuel { nptm with allocator } =
      .ok (some blank, true, nptm')) :
    ¬hvm.Isolated blank nptm' ∧
      (hvm.Owned used → nptm.Untargeted blank → ∀ address < 2 ^ 48, ∀ v,
        nptm'.view address = some v → page4kbCount v.hpa = blank → page4kbCount address = blank) := by
  have hwf : nptm.Wf := Reached.wf h
  have hend : ¬nptm.Used blank ∧ Protecting nptm used blank (hvm.Owned used) nptm' ∧
      nptm'.SelfSeen := by
    unfold nvcNptProtectCriticalHypervisor at hrun
    split at hrun
    · cases hrun
    · rename_i frame allocator' halloc
      obtain ⟨state₁, hvcpus, hrun⟩ := bind_eq_ok.mp hrun
      obtain ⟨state₂, hncr3, hrun⟩ := bind_eq_ok.mp hrun
      obtain ⟨state₃, hpdpt, hrun⟩ := bind_eq_ok.mp hrun
      obtain ⟨state₄, hpde, hrun⟩ := bind_eq_ok.mp hrun
      obtain ⟨state₅, hpte, hrun⟩ := bind_eq_ok.mp hrun
      obtain ⟨state₆, hdirectory, hrun⟩ := bind_eq_ok.mp hrun
      obtain ⟨state₇, hrmt, hreturn⟩ := bind_eq_ok.mp hrun
      simp only [pure, Except.pure, Except.ok.injEq, Prod.mk.injEq, Option.some.injEq] at hreturn
      obtain ⟨rfl, rfl⟩ := hreturn
      have hgiven : allocator.noirAllocContdMemory.1 = some frame := by rw [halloc]
      have hunused : ¬used frame := hfresh.unused 0 frame hgiven
      have horigin : ¬nptm.Used frame := fun huse => hunused (hown frame huse)
      have hlater : allocator.noirAllocContdMemory.2.Fresh fun f => used f ∨ f = frame :=
        hfresh.contd_of_some hgiven fun f => id
      rw [halloc] at hlater
      have hstart : Protecting nptm used frame (hvm.Owned used)
          { nptm with allocator := allocator' } :=
        ⟨⟨⟨_, fun _ => id, hwf.allocator _, hlater, fun f hf => Or.inl (hown f hf)⟩, rfl, rfl,
          fun f hf => Or.inl hf⟩, fun _ huntargeted => huntargeted⟩
      have h₁ := foldlM_invariant (P := fun state : Bool × NptManager =>
        Protecting nptm used frame (hvm.Owned used) state.2)
        (fun _ _ _ hmem h hrun => protectVcpu_protecting hmem hunused h hrun) hstart hvcpus
      have hroot : page4kbCount state₁.2.ncr3 % 2 ^ 40 ≠ frame :=
        h₁.table_ne horigin ⟨3, 0, rfl⟩
      have h₂ := h₁.protectPage (fun _ heq => absurd heq hroot) hncr3
      obtain ⟨h₃, hseen₃⟩ := protectPdpt_protecting h₂ hpdpt
      obtain ⟨h₄, hseen₄⟩ := h₃.protectList (fun _ => Wf.used_pde) horigin hseen₃ hpde
      obtain ⟨h₅, hseen₅⟩ := h₄.protectList (fun _ => Wf.used_pte) horigin hseen₄ hpte
      have h₆ := h₅.protectSelf hdirectory
      have hseen₆ := h₅.selfSeen_self hseen₅ hdirectory
      have h₇ := foldlM_invariant (P := fun state : Bool × NptManager =>
        Protecting nptm used frame (hvm.Owned used) state.2 ∧ state.2.SelfSeen)
        (fun _ _ _ _ h hrun => protectRmt_protecting h hrun) ⟨h₆, hseen₆⟩ hrmt
      exact ⟨horigin, h₇⟩
  obtain ⟨horigin, hprotecting, hseen⟩ := hend
  obtain ⟨used', -, hready⟩ := hprotecting.along.ready
  constructor
  · intro hisolated
    obtain ⟨address, haddress, hpage, hself⟩ := hseen.seen
    have haligned := hready.wf.pdptAligned
    have hframe : page4kbCount nptm'.pdpt + page4kbCount address % 512 = page4kbCount address := by
      simp only [page2mbCount, page4kbCount] at hpage haligned ⊢
      omega
    have htable := hready.wf.linkedTable_pdpt (Nat.mod_lt (page4kbCount address) (by decide))
    rw [hframe] at htable
    obtain ⟨v, hview, hblank⟩ := hisolated.redirected address haddress (.table htable)
    obtain ⟨walk, hwalk, hhpa⟩ := view_eq_some hview
    rw [hhpa, hself walk hwalk] at hblank
    obtain ⟨-, hne⟩ := hprotecting.along.blank_unused (Or.inr rfl) horigin
    refine hne ?_
    simp only [← hblank, page2mbCount, page4kbMult, page4kbCount] at hpage ⊢
    omega
  · intro howned huntargeted address haddress v hview hblank
    obtain ⟨walk, hwalk, hhpa⟩ := view_eq_some hview
    rw [hhpa] at hblank
    exact (hprotecting.untargeted howned huntargeted).eq_of_walk hready.wf haddress hwalk hblank

/-- One processor, its pages below 2 MiB, and the reverse map of one megabyte. -/
def oneProcessor : NoirHypervisor where
  virtualCpu := [{ vmcb := 0x3000, hsave := 0x4000 }]
  msrpm := 0x5000
  rmdDirectory := 0x7000
  rmtDir := [{ table := 0x8000, hpaStart := 0, hpaEnd := 0x100000 }]

theorem oneProcessor_never : ∃ nptm', ¬oneProcessor.Isolated 1024 nptm' :=
  ⟨_, (nvcNptProtectCriticalHypervisor_never oneProcessor 4
    (.ofFrames [1024, 1025, 1026, 1027]) (.start identityMap_built) (fun _ => id)
    (identityMap_fresh (by decide) (by decide)) rfl).1⟩

/-- The guest still writes the VMCB through its own address. -/
theorem not_forall_isolated :
    ¬∀ (hvm : NoirHypervisor) (nptm nptm' : NptManager) (fuel blank : Nat) (allocator : Allocator),
      Reached (fun _ _ => True) nptm → allocator.Fresh nptm.Used →
      nvcNptProtectCriticalHypervisor hvm fuel { nptm with allocator } =
        .ok (some blank, true, nptm') → hvm.Isolated blank nptm' := by
  intro h
  have hisolated := h oneProcessor identityMap _ 4 1024 (.ofFrames [1024, 1025, 1026, 1027])
    (.start identityMap_built) (identityMap_fresh (by decide) (by decide)) rfl
  have hvmcb : ∀ nptm, oneProcessor.Hidden nptm (page4kbCount 0x3000) := fun nptm => by
    have hmem : NoirSvmVcpu.mk 0x3000 0x4000 ∈ oneProcessor.virtualCpu := List.mem_cons_self
    exact .vmcb hmem
  exact hisolated.unwritable 0x3000 (by decide) ⟨0x3000, true, true, true⟩ (by decide) rfl
    (.hidden (hvmcb _))

end Whole

end NptManager

end NoirVisor
