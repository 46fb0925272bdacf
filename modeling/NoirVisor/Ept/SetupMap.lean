import NoirVisor.Ept.MapRun
import NoirVisor.Ept.Setup

/-!
# What the guest can access once the tables are set up

The whole set-up is a run on the map of physical pages. The redirection to the blank page has its
addresses exchanged: what is redirected is the blank page itself, and the pages of the hypervisor
stay as accessible as any other page.
-/

namespace NoirVisor

/-- Where the pages go, by their numbers. -/
abbrev EptTargets := Nat → EptTarget

namespace EptTargets

def own : EptTargets := fun p => ⟨p, .all⟩

/-- Pages are redirected one after the other. -/
def redirect {α : Type} (hpa gpa : α → Nat) (rights : EptRights) (pages : List α)
    (targets : EptTargets) : EptTargets :=
  pages.foldl (fun targets page =>
    Function.update targets (page4kbCount (gpa page)) ⟨page4kbCount (hpa page) % 2 ^ 40, rights⟩) targets

end EptTargets

namespace EptMap

/-- Outside some 2 MiB pages every page is whole and mapped to itself with every right, or its table
alone decides. -/
def Plain (m : EptMap) (except : Nat → Prop) : Prop :=
  ∀ r, ¬except r → m r = .whole (512 * r) .all ∨ ∃ table, m r = .split .all table

def targets (m : EptMap) : EptTargets := fun p => m.table (p / 512) (p % 512)

section

variable {m : EptMap} {except : Nat → Prop} {gpa r : Nat} {target : EptTarget}

theorem plain_identity (except : Nat → Prop) : identity.Plain except := fun _ _ => .inl rfl

theorem targets_identity : identity.targets = .own := by
  funext p
  simp only [targets, table, identity, ownTable, EptTargets.own, EptTarget.mk.injEq, and_true]
  omega

theorem Plain.gate (h : m.Plain except) (hr : ¬except r) : m.gate r = .all := by
  unfold EptMap.gate
  rcases h r hr with hregion | ⟨table, hregion⟩ <;> rw [hregion]

theorem Plain.access (h : m.Plain except) (layout : Radix.Layout) (hr : ¬except (page2mbCount gpa)) :
    m.access layout gpa = .page (m.targets (page4kbCount gpa)) := by
  unfold EptMap.access targets table
  rw [page4kbCount_div]
  rcases h _ hr with hregion | ⟨table, hregion⟩
  · rw [hregion]
    rfl
  · rw [hregion]
    simp only [EptRights.all_meet]
    rfl

theorem Plain.split (h : m.Plain except) (hr : ¬except r) : (m.split r).Plain except := by
  intro r' hr'
  unfold EptMap.split
  by_cases heq : r' = r
  · rw [heq, Function.update_self, h.gate hr]
    exact .inr ⟨_, rfl⟩
  · rw [Function.update_of_ne heq]
    exact h r' hr'

theorem table_update_split (m : EptMap) (r : Nat) (gate : EptRights) (table : Nat → EptTarget) :
    EptMap.table (Function.update m r (.split gate table)) r = table := by
  unfold EptMap.table
  rw [Function.update_self]

theorem table_update_of_ne {r' : Nat} (m : EptMap) (region : EptRegion) (hne : r' ≠ r) :
    EptMap.table (Function.update m r region) r' = m.table r' := by
  unfold EptMap.table
  rw [Function.update_of_ne hne]

theorem targets_split (m : EptMap) (r : Nat) : (m.split r).targets = m.targets := by
  funext p
  unfold targets
  by_cases heq : p / 512 = r
  · rw [heq, EptMap.split, table_update_split]
  · rw [EptMap.split, table_update_of_ne _ _ heq]

theorem Plain.setPage (h : m.Plain except) (hr : ¬except (page2mbCount gpa)) :
    (m.setPage gpa target).Plain except := by
  intro r' hr'
  unfold EptMap.setPage
  by_cases heq : r' = page2mbCount gpa
  · rw [heq, Function.update_self, h.gate hr]
    exact .inr ⟨_, rfl⟩
  · rw [Function.update_of_ne heq]
    exact h r' hr'

theorem targets_setPage (m : EptMap) (gpa : Nat) (target : EptTarget) :
    (m.setPage gpa target).targets = Function.update m.targets (page4kbCount gpa) target := by
  funext p
  unfold targets
  by_cases hp : p = page4kbCount gpa
  · rw [hp, Function.update_self, page4kbCount_div, EptMap.setPage, table_update_split]
    exact Function.update_self ..
  · rw [Function.update_of_ne hp]
    by_cases heq : p / 512 = page2mbCount gpa
    · rw [heq, EptMap.setPage, table_update_split, Function.update_of_ne]
      intro hindex
      refine hp ?_
      have := page4kbCount_div gpa
      unfold pageEntryIndex64 at hindex
      omega
    · rw [EptMap.setPage, table_update_of_ne _ _ heq]

theorem targets_setLarge (m : EptMap) (gpa frame : Nat) (rights : EptRights) :
    (m.setLarge gpa frame rights).targets = m.targets := by
  funext p
  unfold targets
  by_cases heq : p / 512 = page2mbCount gpa
  · rw [heq]
    unfold EptMap.setLarge EptMap.table
    rw [Function.update_self]
    cases m (page2mbCount gpa) <;> rfl
  · rw [EptMap.setLarge, table_update_of_ne _ _ heq]

/-- Several pages get their targets one after the other. -/
def setPages {α : Type} (m : EptMap) (hpa gpa : α → Nat) (rights : EptRights) (pages : List α) :
    EptMap :=
  pages.foldl (fun m page => m.setPage (gpa page) ⟨page4kbCount (hpa page) % 2 ^ 40, rights⟩) m

variable {α : Type} {hpa gpa' : α → Nat} {rights : EptRights} {pages : List α}

theorem Plain.setPages (h : m.Plain except)
    (hpages : ∀ page ∈ pages, ¬except (page2mbCount (gpa' page))) :
    (m.setPages hpa gpa' rights pages).Plain except := by
  induction pages generalizing m with
  | nil => exact h
  | cons page pages ih =>
      exact ih (h.setPage (hpages page List.mem_cons_self)) fun page hpage =>
        hpages page (List.mem_cons_of_mem _ hpage)

theorem targets_setPages (m : EptMap) (hpa gpa' : α → Nat) (rights : EptRights) (pages : List α) :
    (m.setPages hpa gpa' rights pages).targets = m.targets.redirect hpa gpa' rights pages := by
  induction pages generalizing m with
  | nil => rfl
  | cons page pages ih =>
      rw [EptTargets.redirect, List.foldl_cons, ← targets_setPage]
      exact ih _

theorem setPages_of_ne (hpages : ∀ page ∈ pages, r ≠ page2mbCount (gpa' page)) :
    m.setPages hpa gpa' rights pages r = m r := by
  induction pages generalizing m with
  | nil => rfl
  | cons page pages ih =>
      refine (ih fun page hpage => hpages page (List.mem_cons_of_mem _ hpage)).trans ?_
      exact Function.update_of_ne (hpages page List.mem_cons_self) ..

end

end EptMap

namespace EptManager

variable {eptm eptm' : EptManager} {m : EptMap} {hpa gpa : Nat}

theorem Mapped.updatePte {r w x ignoreMt alloc : Bool} {memoryType : BitVec 8}
    {p : Pointer EptDescriptor} (h : eptm.Mapped m)
    (hrun : eptm.nvcEptUpdatePte hpa gpa r w x ignoreMt memoryType alloc = .ok (p, eptm')) :
    p.isNull = false ∧ eptm'.Mapped (m.setPage gpa ⟨page4kbCount hpa % 2 ^ 40, ⟨r, w, x⟩⟩) := by
  obtain ⟨used, hready⟩ := h.ready
  obtain ⟨used₁, -, hready₁⟩ := (nvcEptUpdatePte_grows hready hrun).ready
  refine ⟨?_, ⟨used₁, hready₁⟩, updatePte_shows h.shown hready hrun⟩
  obtain ⟨⟨q, split⟩, hsplit, hrun⟩ := bind_eq_ok.mp hrun
  obtain ⟨-, t, rfl, -⟩ := nvcEptSplitPde_eq_ok hready hsplit
  cases hrun
  rfl

/-- A loop over pages that returns has not failed. -/
theorem updatePtes_follows {α : Type} {hpa gpa : α → Nat} {r w x b : Bool} {pages : List α}
    (h : eptm.Mapped m) (hrun : updatePtes hpa gpa r w x eptm pages = .ok (b, eptm')) :
    b = true ∧ eptm'.Mapped (m.setPages hpa gpa ⟨r, w, x⟩ pages) := by
  induction pages generalizing eptm m with
  | nil =>
      cases hrun
      exact ⟨rfl, h⟩
  | cons page pages ih =>
      obtain ⟨⟨p, next⟩, hfirst, hrest⟩ := bind_eq_ok.mp hrun
      obtain ⟨hnull, hmapped⟩ := h.updatePte hfirst
      simp only [hnull, Bool.false_eq_true, if_false] at hrest
      exact ih hmapped hrest

theorem protectPage_follows {b b' : Bool} (h : eptm.Mapped m)
    (hrun : protectPage hpa gpa (b, eptm) = .ok (b', eptm')) :
    b' = b ∧ eptm'.Mapped (m.setPage gpa ⟨page4kbCount hpa % 2 ^ 40, .all⟩) := by
  obtain ⟨⟨p, next⟩, hupdate, hrest⟩ := bind_eq_ok.mp hrun
  obtain ⟨hnull, hmapped⟩ := h.updatePte hupdate
  simp only [hnull, Bool.not_false, Bool.and_true] at hrest
  cases hrest
  exact ⟨rfl, hmapped⟩

end EptManager

/-- The rights the protection leaves on the PDPT of a processor. -/
def EptRights.readOnly : EptRights := ⟨true, false, false⟩

/-- What the protection does to a map. The pages of `tables` are those of the PDPTs. -/
structure EptMap.Guards (before m : EptMap) (tables locked : Nat → Prop) (blank : Nat) : Prop where
  plain : m.Plain tables
  kept : ∀ p ≠ blank, m.targets p = before.targets p
  redirected : ∃ c, m.targets blank = ⟨c, .all⟩
  whole : ∀ r, tables r →
    (locked r → m r = .whole (512 * r) .readOnly) ∧ (¬locked r → m r = .whole (512 * r) .all)

namespace EptMap

variable {before m : EptMap} {tables locked : Nat → Prop} {blank gpa : Nat} {target : EptTarget}

theorem page2mbCount_page4kbMult (blank : Nat) : page2mbCount (page4kbMult blank) = blank / 512 := by
  rw [← page4kbCount_div, page4kbCount_page4kbMult]

/-- The target of the blank page is no matter of the tables. -/
theorem setPage_of_table {r : Nat} (hblank : ¬tables (blank / 512)) (hr : tables r) :
    m.setPage (page4kbMult blank) target r = m r := by
  refine Function.update_of_ne ?_ ..
  rintro rfl
  rw [page2mbCount_page4kbMult] at hr
  exact hblank hr

theorem targets_setBlank (m : EptMap) (blank : Nat) (target : EptTarget) :
    (m.setPage (page4kbMult blank) target).targets = Function.update m.targets blank target := by
  rw [targets_setPage, page4kbCount_page4kbMult]

/-- The blank page gets another target. -/
theorem Guards.setPage (h : Guards before m tables locked blank) (hblank : ¬tables (blank / 512))
    (c : Nat) :
    Guards before (m.setPage (page4kbMult blank) ⟨c, .all⟩) tables locked blank := by
  constructor
  case plain => exact h.plain.setPage (by rwa [page2mbCount_page4kbMult])
  case kept =>
    intro p hp
    rw [targets_setBlank, Function.update_of_ne hp]
    exact h.kept p hp
  case redirected => exact ⟨c, by rw [targets_setBlank, Function.update_self]⟩
  case whole =>
    intro r hr
    rw [setPage_of_table hblank hr]
    exact h.whole r hr

theorem Guards.isWhole {r : Nat} (h : Guards before m tables locked blank) (hr : tables r) :
    ∃ rights, m r = .whole (512 * r) rights := by
  by_cases hlocked : locked r
  · exact ⟨_, (h.whole r hr).1 hlocked⟩
  · exact ⟨_, (h.whole r hr).2 hlocked⟩

/-- The PDPT of a processor is made read-only. -/
theorem Guards.setLarge (h : Guards before m tables locked blank) (hgpa : gpa < 2 ^ 48)
    (htable : tables (page2mbCount gpa)) :
    Guards before (m.setLarge gpa (page2mbCount gpa % 2 ^ 31 * 512) .readOnly) tables
      (fun r => locked r ∨ r = page2mbCount gpa) blank := by
  have hbase : page2mbCount gpa % 2 ^ 31 * 512 = 512 * page2mbCount gpa := by
    unfold page2mbCount
    omega
  rw [hbase]
  constructor
  case plain =>
    intro r hr
    have hne : r ≠ page2mbCount gpa := fun heq => hr (heq ▸ htable)
    rw [show m.setLarge gpa (512 * page2mbCount gpa) .readOnly r = m r from
      Function.update_of_ne hne ..]
    exact h.plain r hr
  case kept =>
    rw [targets_setLarge]
    exact h.kept
  case redirected =>
    rw [targets_setLarge]
    exact h.redirected
  case whole =>
    intro r hr
    by_cases heq : r = page2mbCount gpa
    · refine ⟨fun _ => ?_, fun hnot => absurd (Or.inr heq) hnot⟩
      obtain ⟨rights, hregion⟩ := h.isWhole hr
      subst heq
      unfold EptMap.setLarge
      rw [Function.update_self, hregion]
    · rw [show m.setLarge gpa (512 * page2mbCount gpa) .readOnly r = m r from
        Function.update_of_ne heq ..]
      refine ⟨fun hlocked => (h.whole r hr).1 (hlocked.resolve_right heq), fun hnot => ?_⟩
      exact (h.whole r hr).2 fun hlocked => hnot (.inl hlocked)

/-- The first redirection. -/
theorem Plain.guards (h : before.Plain fun _ => False)
    (hwhole : ∀ r, tables r → before r = .whole (512 * r) .all) (hblank : ¬tables (blank / 512))
    (c : Nat) :
    Guards before (before.setPage (page4kbMult blank) ⟨c, .all⟩) tables (fun _ => False) blank := by
  constructor
  case plain => exact fun r _ => h.setPage id r id
  case kept =>
    intro p hp
    rw [targets_setBlank, Function.update_of_ne hp]
  case redirected => exact ⟨c, by rw [targets_setBlank, Function.update_self]⟩
  case whole =>
    intro r hr
    rw [setPage_of_table hblank hr]
    exact ⟨False.elim, fun _ => hwhole r hr⟩

end EptMap

namespace EptManager

/-- A stretch of the protection that has run so far. -/
def Protecting (eptm : EptManager) (before : EptMap) (tables locked : Nat → Prop) (blank : Nat) :
    Prop :=
  ∃ m, eptm.Mapped m ∧ before.Guards m tables locked blank

variable {eptm eptm' : EptManager} {before : EptMap} {tables locked : Nat → Prop}
  {blank hpa : Nat} {state state' : Bool × EptManager}

theorem Protecting.protectPage (h : Protecting state.2 before tables locked blank)
    (hblank : ¬tables (blank / 512))
    (hrun : protectPage hpa (page4kbMult blank) state = .ok state') :
    state'.1 = state.1 ∧ Protecting state'.2 before tables locked blank := by
  obtain ⟨m, hmapped, hguards⟩ := h
  obtain ⟨hresult, hmapped'⟩ := protectPage_follows hmapped hrun
  exact ⟨hresult, _, hmapped', hguards.setPage hblank _⟩

theorem Protecting.protectList {list : EptManager → List EptDescriptor}
    (hblank : ¬tables (blank / 512)) {fuel i : Nat}
    (h : Protecting state.2 before tables locked blank)
    (hrun : protectList list (page4kbMult blank) fuel i state = .ok state') :
    state'.1 = state.1 ∧ Protecting state'.2 before tables locked blank := by
  induction fuel generalizing i state with
  | zero => cases hrun
  | succ fuel ih =>
      unfold EptManager.protectList at hrun
      split at hrun
      · cases hrun
        exact ⟨rfl, h⟩
      · obtain ⟨next, hpage, hrest⟩ := bind_eq_ok.mp hrun
        obtain ⟨hresult, hnext⟩ := h.protectPage hblank hpage
        obtain ⟨hresult', hlast⟩ := ih hnext hrest
        exact ⟨hresult'.trans hresult, hlast⟩

theorem Protecting.updatePde {gpa : Nat} {b : Bool}
    (h : Protecting eptm before tables locked blank) (htable : tables (page2mbCount gpa))
    (hrun : eptm.nvcEptUpdatePde gpa gpa true false false true true 0 true = .ok (b, eptm')) :
    b = true ∧ Protecting eptm' before tables
      (fun r => locked r ∨ r = page2mbCount gpa) blank := by
  obtain ⟨m, hmapped, hguards⟩ := h
  obtain ⟨used, hready⟩ := hmapped.ready
  have hshows := updatePde_shows hmapped.shown hready hrun
  obtain ⟨used₁, -, hready₁⟩ := (nvcEptUpdatePde_grows hready hrun).ready
  obtain ⟨⟨p, split⟩, hsplit, hrun⟩ := bind_eq_ok.mp hrun
  obtain ⟨hgpa, -, -, d, rfl, -⟩ := nvcEptSplitPdpte_eq_ok hready hsplit
  cases hrun
  exact ⟨rfl, _, ⟨⟨used₁, hready₁⟩, hshows⟩, hguards.setLarge hgpa htable⟩

theorem Protecting.protectVcpu {vcpu : NoirVtVcpu} {fuel : Nat}
    (h : Protecting state.2 before tables locked blank)
    (hblank : ¬tables (blank / 512)) (htable : tables (page2mbCount vcpu.pdpt))
    (hrun : protectVcpu (page4kbMult blank) fuel state vcpu = .ok state') :
    state'.1 = state.1 ∧ Protecting state'.2 before tables
      (fun r => locked r ∨ r = page2mbCount vcpu.pdpt) blank := by
  obtain ⟨state₁, hvmxon, hrun⟩ := bind_eq_ok.mp hrun
  obtain ⟨state₂, hvmcs, hrun⟩ := bind_eq_ok.mp hrun
  obtain ⟨state₃, hmsrAuto, hrun⟩ := bind_eq_ok.mp hrun
  obtain ⟨state₄, heptp, hrun⟩ := bind_eq_ok.mp hrun
  obtain ⟨⟨r, eptm₅⟩, hpdpt, hrun⟩ := bind_eq_ok.mp hrun
  obtain ⟨state₆, hpde, hpte⟩ := bind_eq_ok.mp hrun
  obtain ⟨hresult₁, h₁⟩ := h.protectPage hblank hvmxon
  obtain ⟨hresult₂, h₂⟩ := h₁.protectPage hblank hvmcs
  obtain ⟨hresult₃, h₃⟩ := h₂.protectPage hblank hmsrAuto
  obtain ⟨hresult₄, h₄⟩ := h₃.protectPage hblank heptp
  obtain ⟨rfl, h₅⟩ := h₄.updatePde htable hpdpt
  obtain ⟨hresult₆, h₆⟩ := Protecting.protectList hblank h₅ hpde
  obtain ⟨hresult₇, h₇⟩ := Protecting.protectList hblank h₆ hpte
  refine ⟨?_, h₇⟩
  rw [hresult₇, hresult₆, hresult₄, hresult₃, hresult₂, hresult₁, Bool.and_true]

theorem Protecting.protectVcpus {virtualCpu : List NoirVtVcpu} {fuel : Nat}
    (h : Protecting state.2 before tables locked blank)
    (hblank : ¬tables (blank / 512)) (htable : ∀ vcpu ∈ virtualCpu, tables (page2mbCount vcpu.pdpt))
    (hrun : virtualCpu.foldlM (EptManager.protectVcpu (page4kbMult blank) fuel) state = .ok state') :
    state'.1 = state.1 ∧ Protecting state'.2 before tables
      (fun r => locked r ∨ ∃ vcpu ∈ virtualCpu, r = page2mbCount vcpu.pdpt) blank := by
  induction virtualCpu generalizing state locked with
  | nil =>
      cases hrun
      refine ⟨rfl, ?_⟩
      simpa only [List.not_mem_nil, false_and, exists_false, or_false] using h
  | cons vcpu virtualCpu ih =>
      rw [List.foldlM_cons] at hrun
      obtain ⟨next, hfirst, hrest⟩ := bind_eq_ok.mp hrun
      obtain ⟨hresult, hnext⟩ := h.protectVcpu hblank (htable vcpu List.mem_cons_self) hfirst
      obtain ⟨hresult', hlast⟩ := ih hnext (fun vcpu hmem => htable vcpu (List.mem_cons_of_mem _ hmem))
        hrest
      refine ⟨hresult'.trans hresult, ?_⟩
      simpa only [List.mem_cons, exists_eq_or_imp, or_assoc] using hlast

/-- The regions of the PDPTs of the processors. -/
def PdptRegion (virtualCpu : List NoirVtVcpu) (r : Nat) : Prop :=
  ∃ vcpu ∈ virtualCpu, r = page2mbCount vcpu.pdpt

/-- The whole protection. -/
theorem protectHypervisor_follows {msrBitmap fuel : Nat} {virtualCpu : List NoirVtVcpu}
    {frame : Option Nat} {b : Bool} (h : eptm.Mapped before)
    (hplain : before.Plain fun _ => False)
    (hwhole : ∀ r, PdptRegion virtualCpu r → before r = .whole (512 * r) .all)
    (hblank : ∀ blank, frame = some blank → ¬PdptRegion virtualCpu (blank / 512))
    (hrun : nvcEptProtectHypervisor msrBitmap virtualCpu fuel eptm = .ok (frame, b, eptm')) :
    frame = none ∧ b = false ∨
      ∃ blank, frame = some blank ∧ b = true ∧ Protecting eptm' before
        (PdptRegion virtualCpu) (PdptRegion virtualCpu) blank := by
  obtain ⟨used, hready⟩ := h.ready
  unfold nvcEptProtectHypervisor at hrun
  cases halloc : eptm.allocator.noirAllocContdMemory with
  | mk answer allocator =>
  rw [halloc] at hrun
  cases answer with
  | none =>
      cases hrun
      exact .inl ⟨rfl, rfl⟩
  | some blank =>
      obtain ⟨state₁, hfirst, hrun⟩ := bind_eq_ok.mp hrun
      obtain ⟨state₂, hrest, hrun⟩ := bind_eq_ok.mp hrun
      cases hrun
      have hunmapped := hblank blank rfl
      have hfresh := hready.fresh.contd_of_none
      rw [halloc] at hfresh
      obtain ⟨used₁, -, hready₁⟩ := (hready.grows_allocator hfresh).ready
      obtain ⟨hresult, hmapped⟩ :=
        protectPage_follows ⟨⟨used₁, hready₁⟩, h.shown.allocator allocator⟩ hfirst
      have hprotecting : Protecting state₁.2 before (PdptRegion virtualCpu)
          (fun _ => False) blank := ⟨_, hmapped, hplain.guards hwhole hunmapped _⟩
      obtain ⟨hresult', hlast⟩ := hprotecting.protectVcpus hunmapped
        (fun vcpu hmem => ⟨vcpu, hmem, rfl⟩) hrest
      have hlocked : (fun r => False ∨ ∃ vcpu ∈ virtualCpu, r = page2mbCount vcpu.pdpt) =
          PdptRegion virtualCpu := by
        funext r
        rw [false_or]
        rfl
      rw [hlocked] at hlast
      exact .inr ⟨blank, rfl, hresult'.trans hresult, hlast⟩

/-- The nodes of a tree, each before those below it. -/
def preorder {α : Type} : HeightTree α → List α
  | .null => []
  | .node left key right _ => key :: (preorder left ++ preorder right)

/-- The pages of the regions of emulated memory. -/
def mmioTreePages {η κ : Type} (mmio : HeightTree (MmioRegion η κ)) : List Nat :=
  (preorder mmio).flatMap fun region => mmioPages region.phys region.size

theorem setPages_append {α : Type} (m : EptMap) (hpa gpa : α → Nat) (rights : EptRights)
    (pages pages' : List α) :
    m.setPages hpa gpa rights (pages ++ pages') =
      (m.setPages hpa gpa rights pages).setPages hpa gpa rights pages' :=
  List.foldl_append ..

theorem installMmioHook_follows {η κ : Type} {mmio : HeightTree (MmioRegion η κ)} {m : EptMap} {b : Bool}
    (h : eptm.Mapped m) (hrun : eptm.nvcEptInstallMmioHook mmio = .ok (b, eptm')) :
    b = true ∧ eptm'.Mapped (m.setPages id id ⟨false, false, false⟩ (mmioTreePages mmio)) := by
  induction mmio generalizing eptm m b eptm' with
  | null =>
      cases hrun
      exact ⟨rfl, h⟩
  | node left region right height ihLeft ihRight =>
      obtain ⟨⟨b₁, eptm₁⟩, hself, hrun⟩ := bind_eq_ok.mp hrun
      obtain ⟨rfl, hmapped₁⟩ := updatePtes_follows h hself
      simp only [Bool.not_true, Bool.false_eq_true, if_false] at hrun
      obtain ⟨⟨b₂, eptm₂⟩, hleft, hrun⟩ := bind_eq_ok.mp hrun
      obtain ⟨rfl, hmapped₂⟩ := ihLeft hmapped₁ hleft
      simp only [Bool.not_true, Bool.false_eq_true, if_false] at hrun
      obtain ⟨hb, hmapped₃⟩ := ihRight hmapped₂ hrun
      refine ⟨hb, ?_⟩
      rw [mmioTreePages, preorder, List.flatMap_cons, List.flatMap_append, setPages_append,
        setPages_append]
      exact hmapped₃

/-- The changes of memory types split pages and change nothing else. -/
theorem plain_applyAll {m : EptMap} {ops : List EptOp} (h : m.Plain fun _ => False)
    (hops : ∀ op ∈ ops, ∀ m : EptMap, m.apply op = m ∨ ∃ r, m.apply op = m.split r) :
    (m.applyAll ops).Plain (fun _ => False) ∧ (m.applyAll ops).targets = m.targets := by
  induction ops generalizing m with
  | nil => exact ⟨h, rfl⟩
  | cons op ops ih =>
      have hrest := fun op' hop' => hops op' (List.mem_cons_of_mem _ hop')
      change ((m.apply op).applyAll ops).Plain _ ∧ ((m.apply op).applyAll ops).targets = _
      rcases hops op List.mem_cons_self m with hsame | ⟨r, hsplit⟩
      · rw [hsame]
        exact ih h hrest
      · rw [hsplit, ← EptMap.targets_split m r]
        exact ih (h.split id) hrest

theorem mtrrOps_mem {type : BitVec 8} {op : EptOp} {fuel addr limit : Nat}
    (hop : op ∈ mtrrOps type fuel addr limit) :
    ∃ addr remainder, op = mtrrOp (mtrrIncrement addr remainder) addr type := by
  induction fuel generalizing addr with
  | zero => cases hop
  | succ fuel ih =>
      rw [mtrrOps] at hop
      split at hop
      · rcases List.mem_cons.mp hop with rfl | hop
        · exact ⟨_, _, rfl⟩
        · exact ih hop
      · cases hop

/-- The loop over a range calls for aligned pages. -/
theorem mtrrOp_aligned (type : BitVec 8) (addr remainder : Nat) :
    (mtrrOp (mtrrIncrement addr remainder) addr type).Aligned := by
  unfold mtrrIncrement
  split
  · next hhuge =>
      split
      · exact hhuge
      · split
        · change addr % page2mbSize = 0
          simp only [page1gbSize, page2mbSize] at hhuge ⊢
          omega
        · trivial
  · split
    · next hlarge =>
        split
        · exact hlarge
        · trivial
    · trivial

theorem perVarMtrrOps_mem {msrs : MtrrSource} {index : Nat} {op : EptOp}
    (hop : op ∈ perVarMtrrOps msrs index) :
    ∃ addr remainder type, op = mtrrOp (mtrrIncrement addr remainder) addr type := by
  unfold perVarMtrrOps at hop
  split at hop
  · obtain ⟨addr, remainder, rfl⟩ := mtrrOps_mem hop
    exact ⟨addr, remainder, _, rfl⟩
  · cases hop

theorem byMtrrOps_mem {msrs : MtrrSource} {op : EptOp} (hop : op ∈ byMtrrOps msrs) :
    (∃ addr remainder type, op = mtrrOp (mtrrIncrement addr remainder) addr type) ∨
      op = .updateByFixedMtrr msrs.fix64k msrs.fix16k msrs.fix4k ∨ op = .clearVarMtrrCovered := by
  unfold byMtrrOps varMtrrOps at hop
  rcases List.mem_append.mp hop with hop | hop
  · rcases List.mem_append.mp hop with hop | hop
    · refine .inl ?_
      split at hop
      · rcases List.mem_append.mp hop with hop | hop
        · obtain ⟨i, -, hop⟩ := List.mem_flatMap.mp hop
          exact perVarMtrrOps_mem hop
        · split at hop
          · exact perVarMtrrOps_mem hop
          · cases hop
      · cases hop
    · split at hop
      · exact .inr (.inl (List.mem_singleton.mp hop))
      · cases hop
  · exact .inr (.inr (List.mem_singleton.mp hop))

theorem byMtrrOps_aligned {msrs : MtrrSource} : ∀ op ∈ byMtrrOps msrs, op.Aligned := by
  intro op hop
  rcases byMtrrOps_mem hop with ⟨addr, remainder, type, rfl⟩ | rfl | rfl
  · exact mtrrOp_aligned type addr remainder
  · trivial
  · trivial

theorem byMtrrOps_splits {msrs : MtrrSource} :
    ∀ op ∈ byMtrrOps msrs, ∀ m : EptMap, m.apply op = m ∨ ∃ r, m.apply op = m.split r := by
  intro op hop m
  rcases byMtrrOps_mem hop with ⟨addr, remainder, type, rfl⟩ | rfl | rfl
  · unfold mtrrOp
    split
    · exact .inl rfl
    · split
      · exact .inl rfl
      · exact .inr ⟨_, rfl⟩
  · exact .inr ⟨0, rfl⟩
  · exact .inl rfl

/-- The identity map as the MTRRs split it. -/
def mtrrMap (msrs : MtrrSource) : EptMap := EptMap.identity.applyAll (byMtrrOps msrs)

/-- Where the pages go once the map is built. -/
def builtTargets (hooks : List EptHookPage) (ci : List Nat) : EptTargets :=
  (EptTargets.own.redirect EptHookPage.hook EptHookPage.orig ⟨false, false, true⟩ hooks).redirect
    id id ⟨true, false, true⟩ ci

/-- The map that is built. -/
def builtMap (msrs : MtrrSource) (hooks : List EptHookPage) (ci : List Nat) : EptMap :=
  ((mtrrMap msrs).setPages EptHookPage.hook EptHookPage.orig ⟨false, false, true⟩ hooks).setPages
    id id ⟨true, false, true⟩ ci

theorem plain_builtMap (msrs : MtrrSource) (hooks : List EptHookPage) (ci : List Nat) :
    (builtMap msrs hooks ci).Plain (fun _ => False) ∧
      (builtMap msrs hooks ci).targets = builtTargets hooks ci := by
  obtain ⟨hplain, htargets⟩ := plain_applyAll (EptMap.plain_identity _) (@byMtrrOps_splits msrs)
  refine ⟨(hplain.setPages fun _ _ => id).setPages fun _ _ => id, ?_⟩
  rw [builtMap, EptMap.targets_setPages, EptMap.targets_setPages, mtrrMap, htargets,
    EptMap.targets_identity, builtTargets]

theorem buildIdentityMap_follows {msrs : MtrrSource} {allocator : Allocator}
    {hooks : Option (List EptHookPage)} {ci : List Nat} {b : Bool}
    (hfresh : allocator.Fresh fun _ => False)
    (hrun : nvcEptBuildIdentityMap msrs allocator hooks ci = .ok (b, eptm)) :
    b = true ∧ eptm.Mapped (builtMap msrs (hooks.getD []) ci) := by
  obtain ⟨eptm₁, hmtrr, hrun⟩ := bind_eq_ok.mp hrun
  have hmapped₁ := (mapped_identityMap hfresh).runAll byMtrrOps_aligned hmtrr
  obtain ⟨⟨b₂, eptm₂⟩, hhooks, hrun⟩ := bind_eq_ok.mp hrun
  obtain ⟨rfl, hmapped₂⟩ := updatePtes_follows hmapped₁ hhooks
  simp only [if_true] at hrun
  exact updatePtes_follows hmapped₂ hrun

/-- No page that gets an entry of its own lies in a 2 MiB page that holds the PDPT of a processor, and
the memory types of the MTRRs do not split any of these. -/
structure Separate (msrs : MtrrSource) (hooks : List EptHookPage) (ci : List Nat)
    (virtualCpu : List NoirVtVcpu) (mmio : List Nat) (blank : Option Nat) : Prop where
  whole : ∀ r, PdptRegion virtualCpu r → mtrrMap msrs r = .whole (512 * r) .all
  hooks : ∀ page ∈ hooks, ¬PdptRegion virtualCpu (page2mbCount page.orig)
  ci : ∀ page ∈ ci, ¬PdptRegion virtualCpu (page2mbCount page)
  mmio : ∀ page ∈ mmio, ¬PdptRegion virtualCpu (page2mbCount page)
  blank : ∀ frame, blank = some frame → ¬PdptRegion virtualCpu (frame / 512)

/-- Where the pages go once all is set up. -/
def setUpTargets (hooks : List EptHookPage) (ci mmio : List Nat) (blank c : Nat) : EptTargets :=
  EptTargets.redirect id id ⟨false, false, false⟩ mmio
    (Function.update (builtTargets hooks ci) blank ⟨c, .all⟩)

/-- Once the tables of a processor are set up, the pages of the hypervisor are accessed as any other
page: hooked pages are executed elsewhere, pages under code integrity are not written, the PDPTs
are only read, emulated memory is not accessed, and one page, the blank one, leads to another. -/
theorem setUp_access {η κ : Type} {msrs : MtrrSource} {allocator : Allocator}
    {hooks : Option (List EptHookPage)} {ci : List Nat} {msrBitmap fuel : Nat}
    {virtualCpu : List NoirVtVcpu} {mmio : HeightTree (MmioRegion η κ)} {blank : Option Nat}
    (hfresh : allocator.Fresh fun _ => False)
    (hrun : setUp msrs allocator hooks ci msrBitmap virtualCpu mmio fuel = .ok (blank, true, eptm))
    (hseparate : Separate msrs (hooks.getD []) ci virtualCpu (mmioTreePages mmio) blank) :
    ∃ frame c, blank = some frame ∧ ∀ gpa < 2 ^ 48,
      (PdptRegion virtualCpu (page2mbCount gpa) →
        eptm.access gpa = .page ⟨page4kbCount gpa, .readOnly⟩) ∧
      (¬PdptRegion virtualCpu (page2mbCount gpa) → eptm.access gpa =
        .page (setUpTargets (hooks.getD []) ci (mmioTreePages mmio) frame c (page4kbCount gpa))) := by
  obtain ⟨⟨b₁, eptm₁⟩, hbuild, hrun⟩ := bind_eq_ok.mp hrun
  obtain ⟨rfl, hmapped₁⟩ := buildIdentityMap_follows hfresh hbuild
  simp only [Bool.not_true, Bool.false_eq_true, if_false] at hrun
  obtain ⟨⟨frame, b₂, eptm₂⟩, hprotect, hrun⟩ := bind_eq_ok.mp hrun
  obtain ⟨hplain, htargets⟩ := plain_builtMap msrs (hooks.getD []) ci
  have hframe : frame = blank := by
    dsimp only at hrun
    split at hrun
    · cases hrun
    · obtain ⟨⟨b₃, eptm₃⟩, -, hrun⟩ := bind_eq_ok.mp hrun
      cases hrun
      rfl
  subst hframe
  have hwhole : ∀ r, PdptRegion virtualCpu r →
      builtMap msrs (hooks.getD []) ci r = .whole (512 * r) .all := by
    intro r hr
    rw [builtMap, EptMap.setPages_of_ne, EptMap.setPages_of_ne, hseparate.whole r hr]
    · rintro page hpage rfl
      exact hseparate.hooks page hpage hr
    · rintro page hpage rfl
      exact hseparate.ci page hpage hr
  rcases protectHypervisor_follows hmapped₁ hplain hwhole hseparate.blank hprotect with
    ⟨-, rfl⟩ | ⟨blank, rfl, rfl, m, hmapped₂, hguards⟩
  · cases hrun
  · simp only [Bool.not_true, Bool.false_eq_true, if_false] at hrun
    obtain ⟨⟨b₃, eptm₃⟩, hmmio, hrun⟩ := bind_eq_ok.mp hrun
    cases hrun
    obtain ⟨-, hmapped₃⟩ := installMmioHook_follows hmapped₂ hmmio
    obtain ⟨c, hc⟩ := hguards.redirected
    refine ⟨blank, c, rfl, fun gpa hgpa => ?_⟩
    rw [hmapped₃.access hgpa]
    constructor
    · intro htable
      have hsame : m.setPages id id ⟨false, false, false⟩ (mmioTreePages mmio) (page2mbCount gpa) =
          .whole (512 * page2mbCount gpa) .readOnly := by
        rw [EptMap.setPages_of_ne, ((hguards.whole _ htable).1 htable)]
        intro page hpage heq
        exact hseparate.mmio page hpage (heq ▸ htable)
      unfold EptMap.access
      simp only [hsame, EptAccess.page.injEq, EptTarget.mk.injEq, and_true]
      simp only [page4kbCount, page2mbCount, pageEntryIndex64]
      omega
    · intro htable
      have hplain' : (m.setPages id id ⟨false, false, false⟩ (mmioTreePages mmio)).Plain
          (PdptRegion virtualCpu) := hguards.plain.setPages hseparate.mmio
      rw [hplain'.access _ htable, EptMap.targets_setPages, setUpTargets]
      have hbefore : m.targets = Function.update (builtTargets (hooks.getD []) ci) blank ⟨c, .all⟩ := by
        funext p
        rw [Function.update_apply]
        split
        · next heq => rw [heq, hc]
        · next hne => rw [hguards.kept p hne, htargets]
      rw [hbefore]

/-- A machine of one processor without MTRRs, and one page under code integrity. -/
def firstVcpu : NoirVtVcpu where
  vmxon := 0x400000
  vmcs := 0x401000
  msrAuto := 0x402000
  eptp := 0x40301E
  pdpt := 0x800000

def noMtrrs : MtrrSource := ⟨fun _ => 0, id⟩

theorem firstVcpu_returns :
    (setUp noMtrrs (.ofFrames [10, 11, 12, 13]) none [0x600000] 0x404000 [firstVcpu]
      (.null : HeightTree (MmioRegion Unit Unit)) 3).map (fun result => (result.1, result.2.1)) =
        .ok (some 12, true) := by
  decide +kernel

theorem pdptRegion_firstVcpu {r : Nat} (h : PdptRegion [firstVcpu] r) : r = 4 := by
  obtain ⟨vcpu, hmem, rfl⟩ := h
  rw [List.mem_singleton.mp hmem]
  rfl

theorem firstVcpu_separate :
    Separate noMtrrs [] [0x600000] [firstVcpu] (mmioTreePages (.null : HeightTree (MmioRegion Unit Unit)))
      (some 12) := by
  constructor
  case whole =>
    intro r hr
    obtain rfl := pdptRegion_firstVcpu hr
    rfl
  case hooks => exact fun page hpage => absurd hpage List.not_mem_nil
  case ci =>
    intro page hpage hr
    rw [List.mem_singleton.mp hpage] at hr
    exact absurd (pdptRegion_firstVcpu hr) (by decide)
  case mmio => exact fun page hpage => absurd hpage List.not_mem_nil
  case blank =>
    rintro frame hframe hr
    obtain rfl := Option.some.inj hframe
    exact absurd (pdptRegion_firstVcpu hr) (by decide)

/-- The VMCS is written by the guest, the page under code integrity is not. -/
theorem firstVcpu_setUp : ∃ eptm, setUp noMtrrs (.ofFrames [10, 11, 12, 13]) none [0x600000] 0x404000
      [firstVcpu] (.null : HeightTree (MmioRegion Unit Unit)) 3 = .ok (some 12, true, eptm) ∧
    eptm.access 0x401000 = .page ⟨0x401, .all⟩ ∧
    eptm.access 0x600000 = .page ⟨0x600, ⟨true, false, true⟩⟩ ∧
    eptm.access 0x800000 = .page ⟨0x800, .readOnly⟩ := by
  have hreturns := firstVcpu_returns
  cases hrun : setUp noMtrrs (.ofFrames [10, 11, 12, 13]) none [0x600000] 0x404000
      [firstVcpu] (.null : HeightTree (MmioRegion Unit Unit)) 3 with
  | error fault =>
      rw [hrun] at hreturns
      cases hreturns
  | ok result =>
      obtain ⟨blank, b, eptm⟩ := result
      rw [hrun] at hreturns
      obtain ⟨rfl, rfl⟩ := Prod.mk.inj (Except.ok.inj hreturns)
      have hfresh : (Allocator.ofFrames [10, 11, 12, 13]).Fresh fun _ => False :=
        Allocator.fresh_ofFrames (by decide) fun frame hframe => ⟨id, by revert frame; decide⟩
      obtain ⟨frame, c, hframe, haccess⟩ := setUp_access hfresh hrun firstVcpu_separate
      obtain rfl := Option.some.inj hframe
      refine ⟨eptm, rfl, ?_, ?_, ?_⟩
      · exact (haccess 0x401000 (by decide)).2 fun hr => absurd (pdptRegion_firstVcpu hr) (by decide)
      · exact (haccess 0x600000 (by decide)).2 fun hr => absurd (pdptRegion_firstVcpu hr) (by decide)
      · exact (haccess 0x800000 (by decide)).1 ⟨firstVcpu, List.mem_singleton.mpr rfl, rfl⟩

end EptManager

end NoirVisor
