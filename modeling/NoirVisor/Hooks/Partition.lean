import NoirVisor.Hooks.Npt

/-!
# The partition of the guest by the hooks

What the two tables make of each guest address once they are built, and of the instructions that are
fetched while a processor changes between them.
-/

namespace NoirVisor

open Transition

/-- A hooked page is only executed through the secondary table, any other through the primary. -/
structure HookPage.Partitions (hookPages : List HookPage) (before pri sec : NptManager) : Prop where
  primaryHooked : ∀ nhp ∈ hookPages, ∀ gpa, nhp.Has gpa → pri.view gpa = some ⟨gpa, true, true, false⟩
  primaryOther : ∀ gpa < 2 ^ 48, (∀ nhp ∈ hookPages, ¬nhp.Has gpa) → pri.view gpa = before.view gpa
  secondaryHooked : ∀ nhp ∈ hookPages, ∀ gpa, nhp.Has gpa →
    sec.view gpa = some ⟨nhp.hookPhys + (gpa - nhp.origPhys), true, true, true⟩
  secondaryOther : ∀ gpa < 2 ^ 48, (∀ nhp ∈ hookPages, ¬nhp.Has gpa) →
    ∃ view, sec.view gpa = some view ∧ view.execute = false

theorem HookPage.Mappable.has_iff {hooks : List HookPage} {nhp : HookPage} {gpa : Nat}
    (h : HookPage.Mappable hooks) (hnhp : nhp ∈ hooks) :
    nhp.Has gpa ↔ Radix.region 0 nhp.origPhys = Radix.region 0 gpa := by
  obtain ⟨m, hm⟩ := (h.aligned nhp hnhp).1
  rw [NptManager.region_zero, NptManager.region_zero]
  unfold HookPage.Has
  simp only [page4kbCount, page4kbSize] at hm ⊢
  omega

theorem HookPage.Mappable.has_lt {hooks : List HookPage} {nhp : HookPage} {gpa : Nat}
    (h : HookPage.Mappable hooks) (hnhp : nhp ∈ hooks) (hhas : nhp.Has gpa) : gpa < 2 ^ 48 := by
  obtain ⟨m, hm⟩ := (h.aligned nhp hnhp).1
  have hguest := h.guest nhp hnhp
  obtain ⟨-, hupper⟩ := hhas
  simp only [page4kbSize] at hm hupper
  omega

namespace NptManager

variable {nptm origin : NptManager} {gpa address : Nat} {nhp : HookPage} {hooks : List HookPage}
  {target : HookPage → Nat} {x : Bool}

/-! ### The secondary table -/

/-- The levels that the loops over all entries have made not executable. -/
def Swept (level : Nat) : Prop := ((False ∨ level = 2) ∨ level = 1) ∨ level = 0

theorem Hooked.forbid (h : Hooked origin hooks HookPage.hookPhys true nptm) :
    Selecting nptm.forbid hooks Swept (PathOf []) nptm.forbid := by
  obtain ⟨used, hready⟩ := h.ready
  have hentries : nptm.Entries (SelectEntry hooks (fun _ => False) fun _ _ => False) :=
    fun l r frame i hframe hi => (h.entries l r frame i hframe hi).select
  obtain ⟨hwf, hforbidden⟩ := hentries.forbid hready.wf
  have hselecting := selecting_self hwf hforbidden
  exact hselecting.mono fun l k hpath => (nomatch hpath.2)

/-- The hooked pages are selected one after the other. -/
theorem Hooked.select (h : Hooked origin hooks HookPage.hookPhys true nptm)
    (hpages : HookPage.Mappable hooks) :
    ∃ nptm', hooks.foldlM selectHook nptm.forbid = .ok nptm' ∧
      Selecting nptm.forbid hooks Swept (PathOf hooks) nptm' := by
  refine foldlM_prefix (P := fun done sec => Selecting nptm.forbid hooks Swept (PathOf done) sec) ?_
    h.forbid
  intro done nhp left sec hhooks hsec
  have hmem : nhp ∈ hooks := hhooks ▸ List.mem_append_right _ List.mem_cons_self
  obtain ⟨t, ht⟩ := h.described nhp hmem
  have hpte : sec.findPte nhp.origPhys = some t := by
    rw [hsec.same, forbid_same]
    exact ht
  have hpde : sec.findPde nhp.origPhys ≠ none := by
    intro hnone
    rw [hsec.wf.findPte_of_none hnone] at hpte
    exact (nomatch hpte)
  obtain ⟨d, hd⟩ := Option.ne_none_iff_exists'.mp hpde
  exact hsec.selectHook hmem hd hpte (page1gbCount_lt (hpages.guest nhp hmem))

/-! ### What the tables make of an address -/

/-- A walk through entries that let everything through. -/
theorem exists_walk {P : Nat → Nat → Nat → NptEntry → Prop} (hwf : nptm.Wf)
    (haddress : address < 2 ^ 48) (hentries : nptm.Entries P)
    (hgranted : ∀ l r i entry, P l r i entry →
      entry.present = true ∧ entry.write = true ∧ entry.user = true) :
    ∃ walk, nptm.walk address = some walk ∧
      nptm.view address =
        some ⟨leafTarget walk address, true, true, walk.entries.all (!·.noExecute)⟩ ∧
      P walk.level (Radix.region (walk.level + 1) address) (Radix.index walk.level address)
        walk.leaf ∧
      (walk.level = 0 ∨ (walk.level = 1 ∨ walk.level = 2) ∧ walk.leaf.psize = true) := by
  have hall : ∀ l f, nptm.layout l (Radix.region (l + 1) address) = some f →
      P l (Radix.region (l + 1) address) (Radix.index l address) (nptm.memory f (Radix.index l address)) :=
    fun l f hf => hentries l _ f _ hf (Radix.index_lt l address)
  have hwalk : ∃ walk, nptm.walk address = some walk :=
    Radix.exists_walk hwf.linked (layout_root haddress)
      fun l f hf => (hgranted _ _ _ _ (hall l f hf)).1
  obtain ⟨walk, hwalk⟩ := hwalk
  obtain ⟨-, ⟨f, hf, hleaf⟩, hend, -⟩ := Radix.walk_location hwf.linked (layout_root haddress) hwalk
  have hgrants := Radix.walk_forall_at (P := fun _ entry =>
      entry.present = true ∧ entry.write = true ∧ entry.user = true) hwf.linked
    (layout_root haddress) (fun l f hf => hgranted _ _ _ _ (hall l f hf)) hwalk
  have hmem : ∀ entry ∈ walk.entries,
      entry.present = true ∧ entry.write = true ∧ entry.user = true := by
    intro entry hentry
    obtain ⟨i, hi, rfl⟩ := List.mem_iff_getElem.mp hentry
    exact hgrants i hi
  refine ⟨walk, hwalk, ?_, hleaf ▸ hall _ f hf, ?_⟩
  · rw [view_eq, hwalk, Option.bind_some]
    unfold nptViewOf
    rw [if_pos (List.all_eq_true.mpr fun entry hentry => (hmem entry hentry).1),
      List.all_eq_true.mpr fun entry hentry => (hmem entry hentry).2.1,
      List.all_eq_true.mpr fun entry hentry => (hmem entry hentry).2.2]
  · rcases hend with hzero | hpsize
    · exact .inl hzero
    · unfold nptFormat at hpsize
      dsimp only at hpsize
      rw [Bool.and_eq_true, decide_eq_true_eq] at hpsize
      by_cases hzero : walk.level = 0
      · exact .inl hzero
      · exact .inr ⟨by omega, hpsize.2⟩

theorem all_eq_false {walk : Radix.Walk NptEntry} (hleaf : walk.leaf.noExecute = true) :
    walk.entries.all (!·.noExecute) = false := by
  rw [List.all_eq_false]
  exact ⟨walk.leaf, List.mem_append_right _ List.mem_cons_self, by rw [hleaf]; decide⟩

/-- Nothing on the way of an address forbids it. -/
theorem all_eq_true {walk : Radix.Walk NptEntry} (hwf : nptm.Wf) (haddress : address < 2 ^ 48)
    (hwalk : nptm.walk address = some walk)
    (hentries : ∀ l f, nptm.layout l (Radix.region (l + 1) address) = some f →
      (nptm.memory f (Radix.index l address)).noExecute = false) :
    walk.entries.all (!·.noExecute) = true := by
  have hall := Radix.walk_forall_at (P := fun _ entry => entry.noExecute = false) hwf.linked
    (layout_root haddress) hentries hwalk
  refine List.all_eq_true.mpr fun entry hentry => ?_
  obtain ⟨i, hi, rfl⟩ := List.mem_iff_getElem.mp hentry
  rw [hall i hi]
  rfl

/-- The leaf of a hooked page maps its target. -/
theorem leafTarget_eq {walk : Radix.Walk NptEntry} {hpa : Nat} (hhas : nhp.Has gpa)
    (haligned : page4kbSize ∣ nhp.origPhys ∧ page4kbSize ∣ hpa) (hlevel : walk.level = 0)
    (hbase : walk.leaf.base = page4kbCount hpa) :
    leafTarget walk gpa = hpa + (gpa - nhp.origPhys) := by
  obtain ⟨⟨m, hm⟩, n, hn⟩ := haligned
  obtain ⟨hlower, hupper⟩ := hhas
  unfold leafTarget NptEntry.pageBase
  rw [hlevel, hbase]
  simp only [page4kbCount, page4kbSize] at hm hn hupper ⊢
  omega

/-- Where a leaf maps its own page. -/
theorem leafTarget_self {walk : Radix.Walk NptEntry}
    (hbase : walk.leaf.pageBase walk.level = Radix.region walk.level address) :
    leafTarget walk address = address := by
  unfold leafTarget
  rw [hbase]
  exact Nat.div_add_mod' _ _

theorem region_of_has (hpages : HookPage.Mappable hooks) (hnhp : nhp ∈ hooks) (hhas : nhp.Has gpa)
    (l : Nat) :
    Radix.region l nhp.origPhys = 512 * Radix.region (l + 1) gpa + Radix.index l gpa := by
  rw [Radix.region_congr ((hpages.has_iff hnhp).mp hhas), Radix.region_eq]

/-- The walk of a hooked page ends at its own entry. -/
theorem level_eq_zero {walk : Radix.Walk NptEntry}
    (hsplit : walk.level ≠ 0 → walk.leaf.psize = false)
    (hend : walk.level = 0 ∨ (walk.level = 1 ∨ walk.level = 2) ∧ walk.leaf.psize = true) :
    walk.level = 0 := by
  rcases hend with hzero | ⟨-, hpsize⟩
  · exact hzero
  · by_contra hne
    rw [hsplit hne] at hpsize
    exact (nomatch hpsize)

theorem Hooked.view_hooked (h : Hooked origin hooks HookPage.origPhys false nptm)
    (hpages : HookPage.Mappable hooks) (hnhp : nhp ∈ hooks) (hhas : nhp.Has gpa) :
    nptm.view gpa = some ⟨gpa, true, true, false⟩ := by
  obtain ⟨used, hready⟩ := h.ready
  obtain ⟨walk, hwalk, hview, hleaf, hend⟩ := exists_walk hready.wf (hpages.has_lt hnhp hhas)
    h.entries fun l r i entry hentry => hentry.granted
  have hregion := region_of_has hpages hnhp hhas
  have hlevel := level_eq_zero (fun hne => hleaf.split hne nhp hnhp (hregion _)) hend
  rw [hlevel] at hleaf
  obtain ⟨hbase, hexecute⟩ := hleaf.hooked rfl nhp hnhp (hregion 0)
  have haligned := (hpages.aligned nhp hnhp).1
  rw [hview, all_eq_false hexecute, leafTarget_eq hhas ⟨haligned, haligned⟩ hlevel hbase,
    Nat.add_sub_cancel' hhas.1]

theorem Hooked.view_other (h : Hooked origin hooks target x nptm) (hpages : HookPage.Mappable hooks)
    (haddress : address < 2 ^ 48) (hother : ∀ nhp ∈ hooks, ¬nhp.Has address) :
    nptm.view address = some ⟨address, true, true, true⟩ := by
  obtain ⟨used, hready⟩ := h.ready
  obtain ⟨walk, hwalk, hview, hleaf, hend⟩ := exists_walk hready.wf haddress h.entries
    fun l r i entry hentry => hentry.granted
  have hne : ∀ nhp ∈ hooks, Radix.region 0 nhp.origPhys ≠
      512 * Radix.region 1 address + Radix.index 0 address := by
    intro nhp hnhp hregion
    rw [← Radix.region_eq] at hregion
    exact hother nhp hnhp ((hpages.has_iff hnhp).mpr hregion)
  have hbase : walk.leaf.pageBase walk.level = Radix.region walk.level address := by
    rw [Radix.region_eq]
    by_cases hzero : walk.level = 0
    · rw [hzero] at hleaf ⊢
      unfold NptEntry.pageBase
      rw [Nat.mul_zero, Nat.pow_zero, Nat.div_one]
      exact (hleaf.other rfl hne).1
    · exact hleaf.large hzero (hend.resolve_left hzero).2
  have hexecute : walk.entries.all (!·.noExecute) = true := by
    refine all_eq_true hready.wf haddress hwalk fun l f hf => ?_
    have hentry := h.entries l _ f _ hf (Radix.index_lt l address)
    by_cases hzero : l = 0
    · subst hzero
      exact (hentry.other rfl hne).2
    · exact hentry.upper hzero
  rw [hview, hexecute, leafTarget_self hbase]

variable {sec : NptManager}

theorem Selecting.view_hooked (h : Selecting origin hooks Swept (PathOf hooks) sec)
    (hpages : HookPage.Mappable hooks) (hnhp : nhp ∈ hooks) (hhas : nhp.Has gpa) :
    sec.view gpa = some ⟨nhp.hookPhys + (gpa - nhp.origPhys), true, true, true⟩ := by
  have haddress := hpages.has_lt hnhp hhas
  obtain ⟨walk, hwalk, hview, hleaf, hend⟩ := exists_walk h.wf haddress h.entries
    fun l r i entry hentry => hentry.granted
  have hregion := region_of_has hpages hnhp hhas
  have hlevel := level_eq_zero (fun hne => hleaf.split hne nhp hnhp (hregion _)) hend
  rw [hlevel] at hleaf
  have hbase := hleaf.hooked rfl nhp hnhp (hregion 0)
  have hexecute : walk.entries.all (!·.noExecute) = true := by
    refine all_eq_true h.wf haddress hwalk fun l f hf => ?_
    rcases layout_level hf with rfl | rfl | rfl | rfl
    case inr.inr.inr =>
      rw [layout_root haddress, Option.some.injEq] at hf
      rw [← hf, h.wf.pml4e _ (Radix.index_lt 3 gpa)]
      rfl
    all_goals
      refine (h.entries _ _ f _ hf (Radix.index_lt _ gpa)).opened ⟨by decide, nhp, hnhp, ?_⟩
      exact hregion _
  rw [hview, hexecute, leafTarget_eq hhas (hpages.aligned nhp hnhp) hlevel hbase]

theorem Selecting.view_other (h : Selecting origin hooks Swept (PathOf hooks) sec)
    (hpages : HookPage.Mappable hooks) (haddress : address < 2 ^ 48)
    (hother : ∀ nhp ∈ hooks, ¬nhp.Has address) :
    ∃ view, sec.view address = some view ∧ view.execute = false := by
  obtain ⟨walk, hwalk, hview, hleaf, hend⟩ := exists_walk h.wf haddress h.entries
    fun l r i entry hentry => hentry.granted
  refine ⟨_, hview, all_eq_false (hleaf.closed ?_ (fun hzero nhp hnhp hregion => ?_) ?_)⟩
  · unfold Swept
    omega
  · rw [hzero, ← Radix.region_eq] at hregion
    exact hother nhp hnhp ((hpages.has_iff hnhp).mpr hregion)
  · exact hend.imp_right And.right

/-- The tables that are built divide the guest. -/
theorem exists_partitions {pri : NptManager} (hpages : HookPage.Mappable hooks) (hpri : pri.Built)
    (hsec : sec.Built) (hpriFresh : pri.allocator.Fresh pri.Used)
    (hsecFresh : sec.allocator.Fresh sec.Used)
    (hpriAlloc : pri.allocator.Generous (2 * hooks.length))
    (hsecAlloc : sec.allocator.Generous (2 * hooks.length)) :
    ∃ pri' sec', nvcNptBuildHookMapping hooks pri sec = .ok (pri', sec') ∧
      HookPage.Partitions hooks pri pri' sec' ∧ pri'.ncr3 = pri.ncr3 ∧ sec'.ncr3 = sec.ncr3 := by
  have hprimary : ∃ nptm, hooks.foldlM hookPrimary pri = .ok nptm ∧
      Hooked pri hooks HookPage.origPhys false nptm :=
    exists_hooked (fun _ _ => rfl) hpri hpriFresh hpriAlloc hpages fun nhp hnhp =>
      Nat.lt_trans (hpages.guest nhp hnhp) (by decide)
  have hsecondary : ∃ nptm, hooks.foldlM hookSecondary sec = .ok nptm ∧
      Hooked sec hooks HookPage.hookPhys true nptm :=
    exists_hooked (fun _ _ => rfl) hsec hsecFresh hsecAlloc hpages hpages.host
  obtain ⟨pri', hpriRun, hpri'⟩ := hprimary
  obtain ⟨middle, hmiddleRun, hmiddle⟩ := hsecondary
  obtain ⟨sec', hsecRun, hsec'⟩ := hmiddle.select hpages
  refine ⟨pri', sec', ?_, ?_, hpri'.ncr3, ?_⟩
  · unfold nvcNptBuildHookMapping
    rw [hpriRun, Outcome.ok_bind, hmiddleRun, Outcome.ok_bind, hsecRun, Outcome.ok_bind]
    rfl
  · have hbefore : Hooked pri [] HookPage.origPhys false pri := hpri.hooked hpriFresh
    have hnone : HookPage.Mappable [] := ⟨nofun, List.Pairwise.nil, nofun, nofun⟩
    exact
      { primaryHooked := fun nhp hnhp gpa hhas => hpri'.view_hooked hpages hnhp hhas
        primaryOther := fun gpa hgpa hother => (hpri'.view_other hpages hgpa hother).trans
          (hbefore.view_other hnone hgpa nofun).symm
        secondaryHooked := fun nhp hnhp gpa hhas => hsec'.view_hooked hpages hnhp hhas
        secondaryOther := fun gpa hgpa hother => hsec'.view_other hpages hgpa hother }
  · rw [hsec'.same, forbid_same]
    exact hmiddle.ncr3

theorem Built.view_eq_self (h : nptm.Built) (hfresh : nptm.allocator.Fresh nptm.Used)
    (haddress : address < 2 ^ 48) : nptm.view address = some ⟨address, true, true, true⟩ := by
  have hbefore : Hooked nptm [] HookPage.origPhys false nptm := h.hooked hfresh
  exact hbefore.view_other ⟨nofun, List.Pairwise.nil, nofun, nofun⟩ haddress nofun

end NptManager

/-! ### Runs of a processor -/

/-- The two tables and what else the handler looks at. -/
structure HookHost where
  pri : NptManager
  sec : NptManager
  vmcbCaching : Bool
  /-- `low.asid` of the reverse mapping of a page, if it has one. -/
  rmt : Nat → Option Nat

/-- The VMCB of a processor, the table that the processor has loaded and what it has cached of it. -/
structure HookCore where
  nptCr3 : Nat
  cleanNpt : Bool
  flushGuest : Bool
  loaded : Nat
  cached : Nat → Option NptView

inductive FetchEvent where
  | fetches (gpa : Nat)
  | caches (gpa : Nat)
  | nestedPf (gpa : Nat) (execute : Bool)
  | exits

namespace HookHost

variable (host : HookHost)

def lookup (ncr3 gpa : Nat) : Option NptView :=
  if ncr3 = host.pri.ncr3 then host.pri.view gpa
  else if ncr3 = host.sec.ncr3 then host.sec.view gpa
  else none

def translation (core : HookCore) (gpa : Nat) : Option NptView :=
  (core.cached gpa).or (host.lookup core.loaded gpa)

/-- The part of `nvc_svm_exit_handler` before the handler. -/
def nvcSvmExitHandler (core : HookCore) : HookCore :=
  { core with cleanNpt := core.cleanNpt || host.vmcbCaching, flushGuest := false }

/-- A page of another owner, or an access that is no fetch, leaves the tables alone. -/
def nvcSvmNestedPfHandler (core : HookCore) (gpa : Nat) (execute : Bool) : HookCore :=
  if host.rmt gpa = some 1 ∧ execute = true then
    { core with
      nptCr3 := if host.pri.ncr3 = core.nptCr3 then host.sec.ncr3 else host.pri.ncr3
      cleanNpt := false
      flushGuest := true }
  else core

/-- What is clean in the VMCB is not loaded again. -/
def vmrun (core : HookCore) : HookCore :=
  { core with
    loaded := if core.cleanNpt then core.loaded else core.nptCr3
    cached := if core.flushGuest then fun _ => none else core.cached }

def next (core : HookCore) : FetchEvent → HookCore
  | .fetches _ => core
  | .caches gpa =>
      { core with cached := Function.update core.cached gpa (host.lookup core.loaded gpa) }
  | .nestedPf gpa execute =>
      vmrun (host.nvcSvmNestedPfHandler (host.nvcSvmExitHandler core) gpa execute)
  | .exits => vmrun (host.nvcSvmExitHandler core)

def Permits (view : Option NptView) : Prop := ∃ v, view = some v ∧ v.execute = true

/-- Only what is not permitted is a fault. -/
def Takes (core : HookCore) : FetchEvent → Prop
  | .fetches gpa => gpa < 2 ^ 48 ∧ Permits (host.translation core gpa)
  | .nestedPf gpa execute =>
      gpa < 2 ^ 48 ∧ (execute = true → ¬Permits (host.translation core gpa))
  | .caches _ => True
  | .exits => True

/-- The page that an instruction is fetched from, and the tables that permit it. -/
structure Fetches (hookPages : List HookPage) (core : HookCore) (e : FetchEvent) : Prop where
  hooked : ∀ gpa, e = .fetches gpa → ∀ nhp ∈ hookPages, nhp.Has gpa → ∀ v,
    host.translation core gpa = some v → v.hpa = nhp.hookPhys + (gpa - nhp.origPhys)
  other : ∀ gpa, e = .fetches gpa → (∀ nhp ∈ hookPages, ¬nhp.Has gpa) → ∀ v,
    host.translation core gpa = some v → v.hpa = gpa
  one : ∀ gpa, e = .fetches gpa ∨ e = .nestedPf gpa true →
    Xor (Permits (host.pri.view gpa)) (Permits (host.sec.view gpa))

/-- The primary table is in use. -/
structure Starts (core : HookCore) : Prop where
  nptCr3 : core.nptCr3 = host.pri.ncr3
  loaded : core.loaded = host.pri.ncr3
  cached : ∀ gpa, core.cached gpa = none

variable {host} {hooks : List HookPage} {core : HookCore} {gpa : Nat} {before : NptManager}

/-- The processor uses one of the tables, and has nothing cached of the other. -/
structure Loaded (host : HookHost) (core : HookCore) : Prop where
  table : core.nptCr3 = host.pri.ncr3 ∨ core.nptCr3 = host.sec.ncr3
  loaded : core.loaded = core.nptCr3
  cached : ∀ gpa v, core.cached gpa = some v → host.lookup core.loaded gpa = some v

theorem Starts.loads (h : host.Starts core) : Loaded host core where
  table := .inl h.nptCr3
  loaded := h.loaded.trans h.nptCr3.symm
  cached gpa v hv := by
    rw [h.cached] at hv
    exact (nomatch hv)

theorem Loaded.translation_eq (h : Loaded host core) (gpa : Nat) :
    host.translation core gpa = host.lookup core.nptCr3 gpa := by
  unfold translation
  rw [← h.loaded]
  cases hcached : core.cached gpa with
  | none => rfl
  | some v => exact (h.cached gpa v hcached).symm

theorem Loaded.vmrun (h : Loaded host core) : Loaded host (vmrun (host.nvcSvmExitHandler core)) where
  table := h.table
  loaded := by
    unfold HookHost.vmrun nvcSvmExitHandler
    dsimp only
    split
    · exact h.loaded
    · rfl
  cached gpa v hv := by
    have hloaded : (HookHost.vmrun (host.nvcSvmExitHandler core)).loaded = core.loaded := by
      unfold HookHost.vmrun nvcSvmExitHandler
      dsimp only
      split
      · rfl
      · exact h.loaded.symm
    rw [hloaded]
    exact h.cached gpa v hv

theorem Loaded.nestedPf (h : Loaded host core) (gpa : Nat) (execute : Bool) :
    Loaded host (host.next core (.nestedPf gpa execute)) := by
  unfold next nvcSvmNestedPfHandler
  dsimp only
  split
  · refine ⟨?_, rfl, nofun⟩
    change (if host.pri.ncr3 = core.nptCr3 then host.sec.ncr3 else host.pri.ncr3) = host.pri.ncr3 ∨
      (if host.pri.ncr3 = core.nptCr3 then host.sec.ncr3 else host.pri.ncr3) = host.sec.ncr3
    split
    · exact .inr rfl
    · exact .inl rfl
  · exact h.vmrun

theorem Loaded.next (h : Loaded host core) (e : FetchEvent) : Loaded host (host.next core e) := by
  cases e with
  | fetches gpa => exact h
  | caches gpa =>
      refine ⟨h.table, h.loaded, fun gpa' v hv => ?_⟩
      unfold HookHost.next at hv
      dsimp only at hv
      by_cases hgpa : gpa' = gpa
      · subst hgpa
        rw [Function.update_self] at hv
        exact hv
      · rw [Function.update_of_ne hgpa] at hv
        exact h.cached gpa' v hv
  | nestedPf gpa execute => exact h.nestedPf gpa execute
  | exits => exact h.vmrun

/-- Each address is executable through one of the tables. -/
theorem permits_xor (h : HookPage.Partitions hooks before host.pri host.sec)
    (hself : ∀ gpa < 2 ^ 48, before.view gpa = some ⟨gpa, true, true, true⟩) (hgpa : gpa < 2 ^ 48) :
    Xor (Permits (host.pri.view gpa)) (Permits (host.sec.view gpa)) := by
  by_cases hhooked : ∃ nhp ∈ hooks, nhp.Has gpa
  · obtain ⟨nhp, hnhp, hhas⟩ := hhooked
    refine .inr ⟨⟨_, h.secondaryHooked nhp hnhp gpa hhas, rfl⟩, ?_⟩
    rintro ⟨v, hv, hexecute⟩
    rw [h.primaryHooked nhp hnhp gpa hhas, Option.some.injEq] at hv
    subst hv
    exact (nomatch hexecute)
  · have hother : ∀ nhp ∈ hooks, ¬nhp.Has gpa := fun nhp hnhp hhas => hhooked ⟨nhp, hnhp, hhas⟩
    refine .inl ⟨⟨_, (h.primaryOther gpa hgpa hother).trans (hself gpa hgpa), rfl⟩, ?_⟩
    rintro ⟨v, hv, hexecute⟩
    obtain ⟨v', hv', hforbidden⟩ := h.secondaryOther gpa hgpa hother
    rw [hv', Option.some.injEq] at hv
    subst hv
    rw [hforbidden] at hexecute
    exact (nomatch hexecute)

theorem Loaded.view_cases (h : Loaded host core) (gpa : Nat) :
    host.translation core gpa = host.pri.view gpa ∨ host.translation core gpa = host.sec.view gpa := by
  rw [h.translation_eq]
  unfold lookup
  rcases h.table with hpri | hsec
  · exact .inl (if_pos hpri)
  · by_cases hpri : core.nptCr3 = host.pri.ncr3
    · exact .inl (if_pos hpri)
    · exact .inr ((if_neg hpri).trans (if_pos hsec))

theorem Loaded.fetches (h : Loaded host core)
    (hpartitions : HookPage.Partitions hooks before host.pri host.sec)
    (hself : ∀ gpa < 2 ^ 48, before.view gpa = some ⟨gpa, true, true, true⟩) {e : FetchEvent}
    (htakes : host.Takes core e) : host.Fetches hooks core e where
  hooked gpa he nhp hnhp hhas v hv := by
    subst he
    obtain ⟨-, v', hv', hexecute⟩ := htakes
    rw [hv, Option.some.injEq] at hv'
    subst hv'
    rcases h.view_cases gpa with hpri | hsec
    · rw [hpri, hpartitions.primaryHooked nhp hnhp gpa hhas, Option.some.injEq] at hv
      rw [← hv] at hexecute
      exact (nomatch hexecute)
    · rw [hsec, hpartitions.secondaryHooked nhp hnhp gpa hhas, Option.some.injEq] at hv
      rw [← hv]
  other gpa he hother v hv := by
    subst he
    obtain ⟨hgpa, v', hv', hexecute⟩ := htakes
    rw [hv, Option.some.injEq] at hv'
    subst hv'
    rcases h.view_cases gpa with hpri | hsec
    · rw [hpri, hpartitions.primaryOther gpa hgpa hother, hself gpa hgpa, Option.some.injEq] at hv
      rw [← hv]
    · obtain ⟨w, hw, hforbidden⟩ := hpartitions.secondaryOther gpa hgpa hother
      rw [hsec, hw, Option.some.injEq] at hv
      subst hv
      rw [hforbidden] at hexecute
      exact (nomatch hexecute)
  one gpa he := by
    rcases he with rfl | rfl
    · exact permits_xor hpartitions hself htakes.1
    · exact permits_xor hpartitions hself htakes.1

/-- Two hooked pages of one 2 MiB page and one of another 1 GiB page. -/
def threeHooks : List HookPage :=
  [⟨0x5000, 0x10000, 0x9000⟩, ⟨0x7000, 0x12000, 0xA000⟩, ⟨0x40003000, 0x20000, 0xB000⟩]

theorem threeHooks_mappable : HookPage.Mappable threeHooks where
  aligned := by
    simp only [threeHooks, List.forall_mem_cons, page4kbSize]
    decide
  distinct := by
    simp only [threeHooks]
    decide
  guest := by
    simp only [threeHooks, List.forall_mem_cons]
    decide
  host := by
    simp only [threeHooks, List.forall_mem_cons]
    decide

/-- An identity map with these pages left for its tables. -/
def freshMap (ncr3Frame pdptFrame : Nat) (frames : List Nat) : NptManager :=
  (NptManager.nvcNptBuildIdentityMap (.ofFrames frames) (some ncr3Frame) (some pdptFrame)).get rfl

section

variable {ncr3Frame pdptFrame : Nat} {frames : List Nat}

theorem freshMap_built (hncr3 : ncr3Frame < 512) (hpdpt : pdptFrame = 512 ∨ pdptFrame = 1024) :
    (freshMap ncr3Frame pdptFrame frames).Built :=
  ⟨.ofFrames frames, ncr3Frame, pdptFrame, by omega, by omega, by omega, by omega,
    (Option.some_get rfl).symm⟩

theorem freshMap_fresh (hncr3 : ncr3Frame < 512) (hpdpt : pdptFrame = 512 ∨ pdptFrame = 1024)
    (hdistinct : frames.Nodup) (hframes : ∀ frame ∈ frames, 4096 ≤ frame ∧ frame < 2 ^ 40) :
    (freshMap ncr3Frame pdptFrame frames).allocator.Fresh
      (freshMap ncr3Frame pdptFrame frames).Used := by
  have hfresh : (Allocator.ofFrames frames).Fresh (freshMap ncr3Frame pdptFrame frames).Used := by
    refine Allocator.fresh_ofFrames hdistinct fun frame hmem => ⟨?_, (hframes frame hmem).2⟩
    have hframe := (hframes frame hmem).1
    rintro ⟨level, r, hused⟩
    have hroot : page4kbCount (freshMap ncr3Frame pdptFrame frames).ncr3 = ncr3Frame :=
      page4kbCount_page4kbMult ncr3Frame
    have htables : page4kbCount (freshMap ncr3Frame pdptFrame frames).pdpt = pdptFrame :=
      page4kbCount_page4kbMult pdptFrame
    rcases (freshMap_built hncr3 hpdpt).layout hused with ⟨-, hr, heq⟩ | ⟨-, -, heq⟩ <;> omega
  exact hfresh

end

def firstPrimary : NptManager := freshMap 1 512 [4096, 4097, 4098, 4099, 4100, 4101]

def firstSecondary : NptManager := freshMap 2 1024 [4102, 4103, 4104, 4105, 4106, 4107]

end HookHost

end NoirVisor
