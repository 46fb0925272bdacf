import NoirVisor.Ept.Run

/-!
# The map of physical pages

What an access to an address comes to is told by the 2 MiB page around it. A page that was never
split is whole. The table of a page that is made whole again is left behind and comes back when the
page is split once more. Whole 1 GiB pages make no difference, and neither do memory types.
-/

namespace NoirVisor

structure EptRights where
  read : Bool
  write : Bool
  execute : Bool
deriving DecidableEq, Repr

namespace EptRights

def all : EptRights := ⟨true, true, true⟩

/-- What two entries on the way to a page grant together. -/
def meet (a b : EptRights) : EptRights :=
  ⟨a.read && b.read, a.write && b.write, a.execute && b.execute⟩

@[simp]
theorem all_meet (a : EptRights) : all.meet a = a := rfl

end EptRights

/-- The page an access goes to, and what it may do there. -/
structure EptTarget where
  frame : Nat
  rights : EptRights
deriving DecidableEq, Repr

/-- A large entry whose low bits are not zero is a misconfiguration. -/
inductive EptAccess where
  | misconfigured
  | page (target : EptTarget)
deriving DecidableEq, Repr

namespace EptEntry

def rights (entry : EptEntry) : EptRights := ⟨entry.read, entry.write, entry.execute⟩

def target (entry : EptEntry) : EptTarget := ⟨entry.base, entry.rights⟩

/-- What the entry of a page makes of an access, by level and the rights granted so far. -/
def access (entry : EptEntry) (level : Nat) (rights : EptRights) (gpa : Nat) : EptAccess :=
  if entry.base % 2 ^ (9 * level) = 0 then
    .page ⟨entry.base + page4kbCount gpa % 2 ^ (9 * level), rights.meet entry.rights⟩
  else .misconfigured

end EptEntry

/-- What a processor makes of an access to an address. -/
def EptManager.access (eptm : EptManager) (gpa : Nat) : EptAccess :=
  let pdpte := eptm.pdpt (page1gbCount gpa)
  if pdpte.large then pdpte.access 2 .all gpa
  else
    let pde := eptm.memory pdpte.base (pageEntryIndex64 (page2mbCount gpa))
    if pde.large then pde.access 1 pdpte.rights gpa
    else
      (eptm.memory pde.base (pageEntryIndex64 (page4kbCount gpa))).access 0
        (pdpte.rights.meet pde.rights) gpa

/-- What is below the entry of a 2 MiB page. -/
inductive EptRegion where
  | whole (frame : Nat) (rights : EptRights)
  | split (gate : EptRights) (table : Nat → EptTarget)
  /-- A whole page that was split once. -/
  | rejoined (frame : Nat) (rights : EptRights) (table : Nat → EptTarget)

/-- The 2 MiB pages by their numbers. -/
abbrev EptMap := Nat → EptRegion

namespace EptMap

/-- The table a page gets when it is first split. -/
def ownTable (r i : Nat) : EptTarget := ⟨512 * r + i, .all⟩

def identity : EptMap := fun r => .whole (512 * r) .all

def gate (m : EptMap) (r : Nat) : EptRights :=
  match m r with
  | .whole _ rights | .split rights _ | .rejoined _ rights _ => rights

/-- The table of a page, or the one it would get. -/
def table (m : EptMap) (r : Nat) : Nat → EptTarget :=
  match m r with
  | .whole _ _ => ownTable r
  | .split _ table | .rejoined _ _ table => table

def split (m : EptMap) (r : Nat) : EptMap := Function.update m r (.split (m.gate r) (m.table r))

/-- A 4 KiB page gets a target. -/
def setPage (m : EptMap) (gpa : Nat) (target : EptTarget) : EptMap :=
  let r := page2mbCount gpa
  Function.update m r
    (.split (m.gate r) (Function.update (m.table r) (pageEntryIndex64 (page4kbCount gpa)) target))

/-- A 2 MiB page is made whole. -/
def setLarge (m : EptMap) (gpa frame : Nat) (rights : EptRights) : EptMap :=
  let r := page2mbCount gpa
  Function.update m r
    (match m r with
    | .whole _ _ => .whole frame rights
    | .split _ table | .rejoined _ _ table => .rejoined frame rights table)

/-- A 2 MiB page is split and its entry gets other rights. -/
def setGate (m : EptMap) (gpa : Nat) (rights : EptRights) : EptMap :=
  let r := page2mbCount gpa
  Function.update m r (.split rights (m.table r))

/-- What a change of the tables does to the map. -/
def apply (m : EptMap) : EptOp → EptMap
  | .updatePteMemoryType gpa _ _ => m.split (page2mbCount gpa)
  | .updateByFixedMtrr _ _ _ => m.split 0
  | .updatePde hpa gpa r w x true _ _ _ =>
      m.setLarge gpa (page2mbCount hpa % 2 ^ 31 * 512) ⟨r, w, x⟩
  | .updatePde _ gpa r w x false _ _ _ => m.setGate gpa ⟨r, w, x⟩
  | .updatePte hpa gpa r w x _ _ _ => m.setPage gpa ⟨page4kbCount hpa % 2 ^ 40, ⟨r, w, x⟩⟩
  | .updatePdeMemoryType _ _ _ | .updatePdpteMemoryType _ _ _ | .clearVarMtrrCovered => m

def applyAll (m : EptMap) (ops : List EptOp) : EptMap := ops.foldl apply m

/-- What comes of an access. The low bits of a whole page that was split once are those of the frame
its table is in. -/
def access (m : EptMap) (layout : Radix.Layout) (gpa : Nat) : EptAccess :=
  let i := pageEntryIndex64 (page4kbCount gpa)
  match m (page2mbCount gpa) with
  | .whole frame rights => .page ⟨frame + i, rights⟩
  | .split gate table => .page ⟨(table i).frame, gate.meet (table i).rights⟩
  | .rejoined frame rights _ =>
      if (layout 0 (page2mbCount gpa)).getD 0 % 512 = 0 then .page ⟨frame + i, rights⟩
      else .misconfigured

end EptMap

namespace EptManager

/-- The entry of a 2 MiB page is as the map tells. -/
def Holds (eptm : EptManager) (entry : EptEntry) (r : Nat) : EptRegion → Prop
  | .whole frame rights => entry.large = true ∧ entry.base = frame ∧ frame % 512 = 0 ∧
      entry.rights = rights ∧ eptm.layout 0 r = none
  | .split gate table => entry.large = false ∧ entry.rights = gate ∧
      ∃ f, eptm.layout 0 r = some f ∧ ∀ i < 512, (eptm.memory f i).target = table i
  | .rejoined frame rights table => entry.large = true ∧ entry.rights = rights ∧ frame % 512 = 0 ∧
      ∃ f, eptm.layout 0 r = some f ∧ entry.base = frame + f % 512 ∧
        ∀ i < 512, (eptm.memory f i).target = table i

structure Shows (eptm : EptManager) (m : EptMap) : Prop where
  granting : ∀ k < 512 * 512, (eptm.pdpt k).rights = .all
  huge : ∀ k < 512 * 512, (eptm.pdpt k).large = true → ∀ i < 512,
    m (512 * k + i) = .whole (512 * (512 * k + i)) .all
  table : ∀ k frame i, eptm.layout 1 k = some frame → i < 512 →
    eptm.Holds (eptm.memory frame i) (512 * k + i) (m (512 * k + i))
  below : ∀ r, eptm.layout 1 (r / 512) = none → eptm.layout 0 r = none

section

variable {eptm eptm' : EptManager} {m : EptMap} {gpa frame k i r : Nat} {entry entry' : EptEntry}
  {region : EptRegion}

theorem EptEntry.access_zero (entry : EptEntry) (rights : EptRights) (gpa : Nat) :
    entry.access 0 rights gpa = .page ⟨entry.target.frame, rights.meet entry.target.rights⟩ := by
  simp [EptEntry.access, EptEntry.target, Nat.mod_one]

theorem EptEntry.access_one (rights : EptRights) (gpa : Nat) :
    entry.access 1 rights gpa =
      if entry.base % 512 = 0 then
        .page ⟨entry.base + pageEntryIndex64 (page4kbCount gpa), rights.meet entry.rights⟩
      else .misconfigured := rfl

/-- Every access comes to what the map tells. -/
theorem Shows.access (h : eptm.Shows m) (hwf : eptm.Wf) (hgpa : gpa < 2 ^ 48) :
    eptm.access gpa = m.access eptm.layout gpa := by
  have hk := page1gbCount_lt_of_lt hgpa
  have hpage := page2mbCount_eq gpa
  have hi := pageEntryIndex64_lt (page2mbCount gpa)
  unfold EptManager.access EptMap.access
  cases hlarge : (eptm.pdpt (page1gbCount gpa)).large with
  | true =>
      have hregion := h.huge _ hk hlarge _ hi
      rw [← hpage] at hregion
      obtain ⟨hread, hwrite, hexecute, hbase⟩ := (hwf.huge _ hk hlarge).2
      have hrights : (eptm.pdpt (page1gbCount gpa)).rights = .all := h.granting _ hk
      simp only [hlarge, if_true, hregion, EptEntry.access, hbase, hrights, EptRights.all_meet]
      rw [if_pos (Nat.mul_mod_left _ _)]
      simp only [EptAccess.page.injEq, EptTarget.mk.injEq, and_true]
      simp only [page4kbCount, page2mbCount, page1gbCount, pageEntryIndex64]
      omega
  | false =>
      obtain ⟨frame, hframe, -, -, hbase⟩ := hwf.table _ hk hlarge
      have hholds := h.table _ _ _ hframe hi
      have hpde := hwf.pde _ _ _ hframe hi
      rw [← hpage] at hholds hpde
      simp only [hlarge, Bool.false_eq_true, if_false, hbase, h.granting _ hk, EptRights.all_meet]
      generalize eptm.memory frame (pageEntryIndex64 (page2mbCount gpa)) = pde at hholds hpde ⊢
      cases hregion : m (page2mbCount gpa) with
      | whole base rights =>
          rw [hregion] at hholds
          obtain ⟨hsize, rfl, haligned, rfl, -⟩ := hholds
          rw [if_pos hsize, EptEntry.access_one, if_pos haligned, EptRights.all_meet]
      | split gate table =>
          rw [hregion] at hholds
          obtain ⟨hsize, rfl, f, hf, htable⟩ := hholds
          obtain ⟨f', hf', -, -, hpoints⟩ := hpde hsize
          obtain rfl := Option.some.inj (hf.symm.trans hf')
          rw [if_neg (by rw [hsize]; decide), EptEntry.access_zero, hpoints,
            htable _ (pageEntryIndex64_lt _)]
      | rejoined base rights table =>
          rw [hregion] at hholds
          obtain ⟨hsize, rfl, haligned, f, hf, hlow, -⟩ := hholds
          have hmod : (base + f % 512) % 512 = f % 512 := by omega
          rw [if_pos hsize, EptEntry.access_one, hlow, hf, Option.getD_some, hmod]
          split
          · next hzero => simp [hzero]
          · rfl

/-- The region is told by the size and the target of its entry, and by the targets in its table. -/
theorem Holds.congr (h : eptm.Holds entry r region) (hlarge : entry'.large = entry.large)
    (htarget : entry'.target = entry.target) (hzero : eptm'.layout 0 r = eptm.layout 0 r)
    (hpte : ∀ f, eptm.layout 0 r = some f → ∀ j < 512,
      (eptm'.memory f j).target = (eptm.memory f j).target) :
    eptm'.Holds entry' r region := by
  have hbase : entry'.base = entry.base := congrArg EptTarget.frame htarget
  have hrights : entry'.rights = entry.rights := congrArg EptTarget.rights htarget
  cases region with
  | whole base rights =>
      unfold Holds
      rwa [hlarge, hbase, hrights, hzero]
  | split gate table =>
      obtain ⟨hsize, hgate, f, hf, htable⟩ := h
      refine ⟨hlarge.trans hsize, hrights.trans hgate, f, hzero.trans hf, fun j hj => ?_⟩
      rw [hpte f hf j hj, htable j hj]
  | rejoined base rights table =>
      obtain ⟨hsize, hgate, haligned, f, hf, hlow, htable⟩ := h
      refine ⟨hlarge.trans hsize, hrights.trans hgate, haligned, f, hzero.trans hf,
        hbase.trans hlow, fun j hj => ?_⟩
      rw [hpte f hf j hj, htable j hj]

/-- One 2 MiB page is changed. Everything else that is in the layout is as before. -/
theorem Shows.update (h : eptm.Shows m) (hframe : eptm.layout 1 k = some frame) (hi : i < 512)
    (hr : r = 512 * k + i) (hpdpt : eptm'.pdpt = eptm.pdpt) (hone : eptm'.layout 1 = eptm.layout 1)
    (hzero : ∀ r' ≠ r, eptm'.layout 0 r' = eptm.layout 0 r')
    (hpde : ∀ k' f j, eptm.layout 1 k' = some f → ¬(f = frame ∧ j = i) →
      eptm'.memory f j = eptm.memory f j)
    (hpte : ∀ r' ≠ r, ∀ f j, eptm.layout 0 r' = some f → eptm'.memory f j = eptm.memory f j)
    (hdisjoint : Radix.Disjoint eptm.layout) (hlisted : (eptm.pdpt k).large = false)
    (hholds : eptm'.Holds (eptm'.memory frame i) r region) :
    eptm'.Shows (Function.update m r region) := by
  subst hr
  constructor
  case granting =>
    rw [hpdpt]
    exact h.granting
  case huge =>
    intro k' hk' hhuge j hj
    rw [hpdpt] at hhuge
    rw [Function.update_of_ne]
    · exact h.huge k' hk' hhuge j hj
    · intro heq
      obtain rfl : k' = k := by omega
      rw [hlisted] at hhuge
      cases hhuge
  case table =>
    intro k' f j hf hj
    rw [hone] at hf
    by_cases hself : 512 * k' + j = 512 * k + i
    · obtain rfl : k' = k := by omega
      obtain rfl : j = i := by omega
      rw [hframe] at hf
      obtain rfl := Option.some.inj hf
      rw [Function.update_self]
      exact hholds
    · rw [Function.update_of_ne hself, hpde k' f j hf]
      · exact (h.table k' f j hf hj).congr rfl rfl (hzero _ hself) fun f' hf' j' _ => by
          rw [hpte _ hself f' j' hf']
      · rintro ⟨rfl, rfl⟩
        obtain ⟨-, rfl⟩ := hdisjoint _ _ _ _ _ hf hframe
        exact hself rfl
  case below =>
    intro r hnone
    rw [hone] at hnone
    rw [hzero]
    · exact h.below r hnone
    · rintro rfl
      rw [show (512 * k + i) / 512 = k by omega, hframe] at hnone
      cases hnone

/-- A split of a 1 GiB page that returns leaves a page with a table as it is. -/
theorem nvcEptSplitPdpte_cases {used : Nat → Prop} {alloc : Bool} {p : Pointer EptDescriptor}
    (hready : eptm.Ready used) (h : nvcEptSplitPdpte eptm gpa true alloc = .ok (p, eptm')) :
    (eptm.pdpt (page1gbCount gpa)).large = false ∧ eptm' = eptm ∨
      (eptm.pdpt (page1gbCount gpa)).large = true ∧ ∃ frame allocator, ¬used frame ∧
        frame < 2 ^ 40 ∧ eptm' = { eptm.splitHuge gpa frame with allocator } := by
  have hgpa := (nvcEptSplitPdpte_eq_ok hready h).1
  cases hhuge : (eptm.pdpt (page1gbCount gpa)).large with
  | false =>
      obtain ⟨d, -, hsame⟩ := nvcEptSplitPdpte_of_table hready.wf hgpa hhuge alloc
      obtain ⟨-, rfl⟩ := Prod.mk.inj (Except.ok.inj (hsame.symm.trans h))
      exact .inl ⟨rfl, rfl⟩
  | true =>
      have hfind := (hready.wf.huge _ (page1gbCount_lt_of_lt hgpa) hhuge).1
      rw [hready.wf.layout_one, Option.map_eq_none_iff] at hfind
      refine .inr ⟨rfl, ?_⟩
      unfold nvcEptSplitPdpte at h
      obtain ⟨⟨q, described⟩, hdescribed, h⟩ := bind_eq_ok.mp h
      simp only [if_true] at h
      obtain ⟨entry, hentry, h⟩ := bind_eq_ok.mp h
      obtain ⟨d, hd, h⟩ := bind_eq_ok.mp h
      obtain rfl := Pointer.deref_eq_ok.mp hd
      simp only [describePde, hfind] at hdescribed
      cases alloc with
      | false => cases hdescribed
      | true =>
          simp only [if_true, newPde] at hdescribed
          split at hdescribed
          · cases hdescribed
          · next allocator hnonpg =>
              split at hdescribed
              · cases hdescribed
              · next frame allocator' hcontd =>
                  obtain ⟨hunused, hframe, -⟩ := fresh_contd hready.fresh hnonpg hcontd
                  rw [pdpte_of_lt hgpa, Outcome.ok_bind] at hdescribed
                  cases hdescribed
                  rw [pdpte_of_lt hgpa] at hentry
                  cases hentry
                  cases h
                  exact ⟨frame, allocator', hunused, hframe, rfl⟩

/-- A split of a 1 GiB page leaves the map as it is. -/
theorem Shows.splitHuge (h : eptm.Shows m) (hwf : eptm.Wf) (hgpa : gpa < 2 ^ 48)
    (hhuge : (eptm.pdpt (page1gbCount gpa)).large = true) (hunused : ¬eptm.Used frame) :
    (eptm.splitHuge gpa frame).Shows m := by
  have hk := page1gbCount_lt_of_lt hgpa
  have hnone := (hwf.huge _ hk hhuge).1
  have hlayout := @layout_splitHuge eptm gpa frame hnone
  have hzero : (eptm.splitHuge gpa frame).layout 0 = eptm.layout 0 := by
    funext r
    rw [hlayout, Radix.Layout.extend_of_ne fun h => absurd h.1 Nat.zero_ne_one]
  constructor
  case granting =>
    intro k hk'
    rw [pdpt_splitHuge, Function.update_apply]
    split
    · exact h.granting _ hk
    · exact h.granting k hk'
  case huge =>
    intro k hk' hlarge
    rw [pdpt_splitHuge, Function.update_apply] at hlarge
    split at hlarge
    · cases hlarge
    · exact h.huge k hk' hlarge
  case table =>
    intro k f i hf hi
    rw [hlayout, Radix.Layout.extend] at hf
    split at hf
    · next heq =>
        obtain ⟨-, rfl⟩ := heq
        obtain rfl := Option.some.inj hf
        rw [h.huge _ hk hhuge i hi, memory_splitHuge, Radix.Frames.fill_self]
        refine ⟨rfl, ?_, Nat.mul_mod_right _ _, rfl, ?_⟩
        · simp only [splitLargeEntry, EptEntry.setLargePageOffset]
          omega
        · rw [hzero]
          refine h.below _ ?_
          rwa [show (512 * page1gbCount gpa + i) / 512 = page1gbCount gpa by omega]
    · rw [memory_splitHuge_of_used hunused hf]
      exact (h.table k f i hf hi).congr rfl rfl (by rw [hzero]) fun f' hf' j _ => by
        rw [memory_splitHuge_of_used hunused hf' j]
  case below =>
    intro r hr
    rw [hzero]
    refine h.below r ?_
    rw [hlayout, Radix.Layout.extend] at hr
    split at hr
    · cases hr
    · exact hr

theorem Shows.allocator (h : eptm.Shows m) (allocator : Allocator) :
    EptManager.Shows { eptm with allocator } m := ⟨h.granting, h.huge, h.table, h.below⟩

/-- The manager once the 1 GiB page of an address has a table. -/
def SplitsHuge (eptm upper : EptManager) (gpa : Nat) : Prop :=
  ∃ allocator, (eptm.pdpt (page1gbCount gpa)).large = false ∧ upper = { eptm with allocator } ∨
    (eptm.pdpt (page1gbCount gpa)).large = true ∧ ∃ frame, ¬eptm.Used frame ∧ frame < 2 ^ 40 ∧
      upper = { eptm.splitHuge gpa frame with allocator }

theorem splitsHuge_of_ok {used : Nat → Prop} {alloc : Bool} {p : Pointer EptDescriptor}
    (hready : eptm.Ready used) (h : nvcEptSplitPdpte eptm gpa true alloc = .ok (p, eptm')) :
    eptm.SplitsHuge eptm' gpa := by
  rcases nvcEptSplitPdpte_cases hready h with ⟨htable, rfl⟩ |
    ⟨hhuge, frame, allocator, hunused, hframe, rfl⟩
  · exact ⟨eptm'.allocator, .inl ⟨htable, rfl⟩⟩
  · exact ⟨allocator, .inr ⟨hhuge, frame, fun hused => hunused (hready.own _ hused), hframe, rfl⟩⟩

theorem SplitsHuge.listed {upper : EptManager} (h : eptm.SplitsHuge upper gpa) :
    (upper.pdpt (page1gbCount gpa)).large = false := by
  obtain ⟨allocator, ⟨htable, rfl⟩ | ⟨-, frame, -, -, rfl⟩⟩ := h
  · exact htable
  · change ((eptm.splitHuge gpa frame).pdpt _).large = false
    rw [pdpt_splitHuge, Function.update_self]
    rfl

theorem Shows.splitPdpte {upper : EptManager} (h : eptm.Shows m) (hwf : eptm.Wf) (hgpa : gpa < 2 ^ 48)
    (hsplit : eptm.SplitsHuge upper gpa) : upper.Shows m := by
  obtain ⟨allocator, ⟨-, rfl⟩ | ⟨hhuge, frame, hunused, -, rfl⟩⟩ := hsplit
  · exact h.allocator allocator
  · exact (h.splitHuge hwf hgpa hhuge hunused).allocator allocator

/-- A split of a 2 MiB page that returns: the page around has a table, and the table of the page
itself, listed before or new, is linked. -/
theorem nvcEptSplitPde_cases {used : Nat → Prop} {alloc : Bool} {p : Pointer EptDescriptor}
    (hready : eptm.Ready used) (h : nvcEptSplitPde eptm gpa true alloc = .ok (p, eptm')) :
    gpa < 2 ^ 48 ∧ ∃ upper d, eptm.SplitsHuge upper gpa ∧ upper.Wf ∧
      upper.layout 1 (page1gbCount gpa) = some (EptDescriptor.frame d) ∧
      ((∃ t : EptDescriptor, upper.layout 0 (page2mbCount gpa) = some t.frame ∧
          eptm' = upper.modifyEntry d.frame (pageEntryIndex64 (page2mbCount gpa)) (·.toTable t.phys)) ∨
        upper.layout 0 (page2mbCount gpa) = none ∧ ∃ f, ¬upper.Used f ∧ f < 2 ^ 40 ∧
          eptm' = (upper.pushPte gpa f
              (upper.memory d.frame (pageEntryIndex64 (page2mbCount gpa)))).2.modifyEntry d.frame
            (pageEntryIndex64 (page2mbCount gpa)) (·.toTable (page4kbMult f))) := by
  unfold nvcEptSplitPde at h
  obtain ⟨⟨q, described⟩, hdescribed, h⟩ := bind_eq_ok.mp h
  obtain ⟨hgrows, htable⟩ := describePte_eq_ok hready hdescribed
  simp only [if_true] at h
  obtain ⟨⟨q', split⟩, hupper, h⟩ := bind_eq_ok.mp h
  obtain ⟨used₁, -, hready₁⟩ := hgrows.ready
  obtain ⟨hgpa, hgrows₁, -, d, rfl, hd⟩ := nvcEptSplitPdpte_eq_ok hready₁ hupper
  simp only [Pointer.isNull, Bool.false_eq_true, if_false, Pointer.deref, Outcome.ok_bind] at h
  obtain ⟨t, ht, h⟩ := bind_eq_ok.mp h
  obtain rfl := Pointer.deref_eq_ok.mp ht
  cases h
  refine ⟨hgpa, ?_⟩
  unfold describePte at hdescribed
  cases hfind : eptm.findPte gpa with
  | some t' =>
      rw [hfind] at hdescribed
      cases hdescribed
      obtain ⟨used₂, -, hready₂⟩ := hgrows₁.ready
      exact ⟨split, d, splitsHuge_of_ok hready₁ hupper, hready₂.wf, hd,
        .inl ⟨t, hgrows₁.layout _ _ _ (htable t rfl), rfl⟩⟩
  | none =>
      have hnone : eptm.layout 0 (page2mbCount gpa) = none := by
        rw [hready.wf.layout_zero, hfind]
        rfl
      simp only [hfind] at hdescribed
      cases alloc with
      | false => cases hdescribed
      | true =>
          simp only [if_true, newPte] at hdescribed
          split at hdescribed
          · cases hdescribed
          · next allocator hnonpg =>
              split at hdescribed
              · cases hdescribed
              · next frame allocator' hcontd =>
                  obtain ⟨hunused, hinRange, hfresh⟩ := fresh_contd hready.fresh hnonpg hcontd
                  have hready' : EptManager.Ready { eptm with allocator := allocator' }
                      fun f => used f ∨ f = frame :=
                    ⟨hready.wf.allocator _, hfresh, fun f hf => Or.inl (hready.own f hf)⟩
                  obtain ⟨⟨q, before⟩, hbefore, hdescribed⟩ := bind_eq_ok.mp hdescribed
                  obtain ⟨-, hgrows', hpte, d', rfl, hd'⟩ := nvcEptSplitPdpte_eq_ok hready' hbefore
                  have hsplits := splitsHuge_of_ok hready' hbefore
                  cases hdescribed
                  have hnone' : before.layout 0 (page2mbCount gpa) = none := by
                    rw [← hnone]
                    simp only [EptManager.layout, hpte]
                  have hunused' : ¬before.Used frame :=
                    fun hused => hunused (hready.own frame (hgrows'.old frame (Or.inr rfl) hused))
                  obtain ⟨used₂, -, hready₂⟩ := hgrows'.ready
                  rcases nvcEptSplitPdpte_cases hready₁ hupper with ⟨-, rfl⟩ | ⟨hhuge, -⟩
                  · have hsame : d'.frame = d.frame := Option.some.inj (hd'.symm.trans hd)
                    refine ⟨before, d', hsplits, hready₂.wf, hd', .inr ⟨hnone', frame, hunused',
                      hinRange, ?_⟩⟩
                    rw [hsame]
                    rfl
                  · rw [show ((before.pushPte gpa frame _).2).pdpt = before.pdpt from rfl,
                      hsplits.listed] at hhuge
                    cases hhuge

/-- A page entry, or what a split would put there. -/
theorem Holds.table (hholds : eptm.Holds entry r (m r)) (hf : eptm.layout 0 r = some frame) :
    ∀ i < 512, (eptm.memory frame i).target = m.table r i := by
  unfold EptMap.table
  cases hregion : m r with
  | whole base rights =>
      rw [hregion] at hholds
      rw [hholds.2.2.2.2] at hf
      cases hf
  | split gate table =>
      rw [hregion] at hholds
      obtain ⟨-, -, f, hf', htable⟩ := hholds
      obtain rfl := Option.some.inj (hf.symm.trans hf')
      exact htable
  | rejoined base rights table =>
      rw [hregion] at hholds
      obtain ⟨-, -, -, f, hf', -, htable⟩ := hholds
      obtain rfl := Option.some.inj (hf.symm.trans hf')
      exact htable

theorem Holds.gate (hholds : eptm.Holds entry r (m r)) : entry.rights = m.gate r := by
  unfold EptMap.gate
  cases hregion : m r with
  | whole base rights =>
      rw [hregion] at hholds
      exact hholds.2.2.2.1
  | split gate table =>
      rw [hregion] at hholds
      exact hholds.2.1
  | rejoined base rights table =>
      rw [hregion] at hholds
      exact hholds.2.1

theorem Holds.table_of_none (hholds : eptm.Holds entry r (m r)) (hnone : eptm.layout 0 r = none) :
    m.table r = EptMap.ownTable r := by
  unfold EptMap.table
  cases hregion : m r with
  | whole base rights => rfl
  | split gate table =>
      rw [hregion] at hholds
      obtain ⟨-, -, f, hf, -⟩ := hholds
      rw [hnone] at hf
      cases hf
  | rejoined base rights table =>
      rw [hregion] at hholds
      obtain ⟨-, -, -, f, hf, -⟩ := hholds
      rw [hnone] at hf
      cases hf

/-- Page entries are in other tables than the entry of a 2 MiB page. -/
theorem memory_modifyPde {f : Nat} (hwf : eptm.Wf) (hframe : eptm.layout 1 k = some frame)
    (g : EptEntry → EptEntry) (hf : eptm.layout 0 r = some f) (j : Nat) :
    (eptm.modifyEntry frame i g).memory f j = eptm.memory f j := by
  refine memory_modifyEntry_of_ne ?_
  rintro ⟨rfl, -⟩
  exact absurd (hwf.disjoint _ _ _ _ _ hf hframe).1 (by decide)

/-- The entry of a 2 MiB page is written. -/
theorem Shows.modifyPde {g : EptEntry → EptEntry} (h : eptm.Shows m) (hwf : eptm.Wf)
    (hlisted : (eptm.pdpt k).large = false) (hframe : eptm.layout 1 k = some frame) (hi : i < 512)
    (hr : r = 512 * k + i)
    (hholds : (eptm.modifyEntry frame i g).Holds (g (eptm.memory frame i)) r region) :
    (eptm.modifyEntry frame i g).Shows (Function.update m r region) := by
  refine h.update hframe hi hr rfl rfl (fun _ _ => rfl)
    (fun k' f j _ hne => memory_modifyEntry_of_ne hne)
    (fun r _ f j hf => memory_modifyPde hwf hframe g hf j) hwf.disjoint hlisted ?_
  rwa [memory_modifyEntry_self]

/-- The table of a 2 MiB page is linked. -/
theorem Shows.link {t : EptDescriptor} (h : eptm.Shows m) (hwf : eptm.Wf)
    (hlisted : (eptm.pdpt k).large = false) (hframe : eptm.layout 1 k = some frame) (hi : i < 512)
    (hr : r = 512 * k + i) (ht : eptm.layout 0 r = some t.frame) :
    (eptm.modifyEntry frame i (·.toTable t.phys)).Shows (m.split r) := by
  have hholds := h.table k frame i hframe hi
  rw [← hr] at hholds
  refine h.modifyPde hwf hlisted hframe hi hr ⟨rfl, hholds.gate, t.frame, ht, fun j hj => ?_⟩
  rw [memory_modifyPde hwf hframe _ ht]
  exact hholds.table ht j hj

/-- A new table is listed and linked. -/
theorem Shows.pushLink (h : eptm.Shows m) (hwf : eptm.Wf) (pde : EptEntry) (hgpa : gpa < 2 ^ 48)
    (hlisted : (eptm.pdpt k).large = false) (hframe : eptm.layout 1 k = some frame) (hi : i < 512)
    (hpage : page2mbCount gpa = 512 * k + i) (hnone : eptm.layout 0 (page2mbCount gpa) = none)
    {f : Nat} (hunused : ¬eptm.Used f) :
    (((eptm.pushPte gpa f pde).2).modifyEntry frame i (·.toTable (page4kbMult f))).Shows
      (m.split (page2mbCount gpa)) := by
  have hlayout := @layout_pushPte eptm gpa f pde hnone
  have hone : (eptm.pushPte gpa f pde).2.layout 1 = eptm.layout 1 := rfl
  have hmemory : ∀ {level r g : Nat}, eptm.layout level r = some g → ∀ j,
      (eptm.pushPte gpa f pde).2.memory g j = eptm.memory g j := by
    intro level r g hg j
    refine Radix.Frames.fill_of_ne ?_
    rw [frame_mk]
    rintro rfl
    exact hunused ⟨level, r, hg⟩
  have hnew : ∀ j, (eptm.pushPte gpa f pde).2.memory f j =
      splitPageEntry pde (page2mbCount gpa * 512) j := by
    intro j
    change eptm.memory.fill (EptDescriptor.frame _) _ f j = _
    rw [frame_mk, Radix.Frames.fill_self]
  have hne : f ≠ frame := by
    rintro rfl
    exact hunused ⟨1, k, hframe⟩
  refine h.update hframe hi hpage rfl hone (fun r hr => ?_) (fun k' g j hg hj => ?_)
    (fun r hr g j hg => ?_) hwf.disjoint hlisted ?_
  · rw [layout_modifyEntry, hlayout, Radix.Layout.extend_of_ne fun heq => hr heq.2]
  · rw [memory_modifyEntry_of_ne hj, hmemory hg]
  · rw [memory_modifyEntry_of_ne, hmemory hg]
    rintro ⟨rfl, -⟩
    exact absurd (hwf.disjoint _ _ _ _ _ hg hframe).1 (by decide)
  · have hholds := h.table k frame i hframe hi
    rw [← hpage] at hholds
    rw [memory_modifyEntry_self, hmemory hframe, hholds.table_of_none hnone]
    refine ⟨rfl, hholds.gate, f, ?_, fun j hj => ?_⟩
    · rw [layout_modifyEntry, hlayout, Radix.Layout.extend_self]
    · rw [memory_modifyEntry_of_ne fun heq => hne heq.1, hnew]
      have hr : page2mbCount gpa < 2 ^ 27 := by
        unfold page2mbCount
        omega
      simp only [EptEntry.target, EptEntry.rights, splitPageEntry, EptEntry.setPageOffset,
        EptMap.ownTable, EptRights.all, EptTarget.mk.injEq, and_true]
      omega

/-- A split of a 2 MiB page that returns splits it on the map. -/
theorem Shows.splitPde {used : Nat → Prop} {alloc : Bool} {p : Pointer EptDescriptor}
    (h : eptm.Shows m) (hready : eptm.Ready used)
    (hsplit : nvcEptSplitPde eptm gpa true alloc = .ok (p, eptm')) :
    eptm'.Shows (m.split (page2mbCount gpa)) ∧
      (eptm'.pdpt (page1gbCount gpa)).large = false ∧ gpa < 2 ^ 48 := by
  have hi := pageEntryIndex64_lt (page2mbCount gpa)
  obtain ⟨hgpa, upper, d, hupper, hwf, hd, ⟨t, ht, rfl⟩ | ⟨hnone, f, hunused, -, rfl⟩⟩ :=
    nvcEptSplitPde_cases hready hsplit
  · have hshows := h.splitPdpte hready.wf hgpa hupper
    exact ⟨hshows.link hwf hupper.listed hd hi (page2mbCount_eq gpa) ht, hupper.listed, hgpa⟩
  · have hshows := h.splitPdpte hready.wf hgpa hupper
    exact ⟨hshows.pushLink hwf _ hgpa hupper.listed hd hi (page2mbCount_eq gpa) hnone hunused,
      hupper.listed, hgpa⟩

end

end EptManager

end NoirVisor
