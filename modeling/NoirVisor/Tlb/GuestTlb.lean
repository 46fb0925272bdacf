import NoirVisor.Transition
import NoirVisor.Translation

/-!
# Translations of a guest

The virtual processors of a VM share its ASID. Every processor may hold translations under it, and
drops them when a virtual processor is entered with the control for it set.
-/

namespace NoirVisor.GuestTlb

open Translation Transition Function

/-- What decides about the translations of a virtual processor: the registers in its structure and
in its VMCB, of EFER the bits for paging alone, and the page tables in its memory. -/
structure Vcpu (P T C E : Type) where
  procId : Option P
  crValid : Bool
  efValid : Bool
  tlValid : Bool
  crs : C
  efer : E
  guestCrs : C
  guestEfer : E
  tlbControl : Bool
  pages : T

namespace Vcpu

variable {P T C E : Type} [DecidableEq E] (v : Vcpu P T C E)

def loadCrs : Vcpu P T C E :=
  if v.crValid then v else { v with guestCrs := v.crs, crValid := true, tlbControl := true }

def loadEfer : Vcpu P T C E :=
  if v.efValid then v
  else
    { v with
      tlbControl := v.tlbControl || decide (v.guestEfer ≠ v.efer)
      guestEfer := v.efer
      efValid := true }

def loadTlb : Vcpu P T C E :=
  if v.tlValid then v else { v with tlbControl := true, tlValid := true }

/-- The registers of a secure guest are not in its structure. -/
def nvcSvmSwitchToGuestVcpu (nsvGuest : Bool) (p : P) : Vcpu P T C E :=
  let v := { v with procId := some p }
  let v := if nsvGuest then v else v.loadCrs.loadEfer
  v.loadTlb

end Vcpu

/-- A VM and the translations under its ASID. `ran` is the last of its virtual processors that was
entered on a processor. -/
structure Vm (P T C E A G H : Type) where
  vcpu : Nat → Vcpu P T C E
  nsvGuest : Bool
  nested : G → Option H
  tlb : P → A → Option H
  running : P → Option Nat
  ran : P → Option Nat

inductive Event (P T C E A G H : Type) where
  | enter (p : P) (v : Nat)
  | access (p : P) (a : A)
  | evict (p : P) (a : A)
  | invalidate (p : P) (pages : T) (crs : C)
  | intercept (p : P) (pages : T) (crs : C) (efer : E)
  | leave (p : P)
  | editCrs (v : Nat) (crs : C)
  | editEfer (v : Nat) (efer : E)
  | activate (nsvGuest : Bool)
  | setMapping (pages : List (G × H))
  | setUnmapping (gpa : G) (pages : Nat)

section

variable {P T C E A G H : Type} [DecidableEq P] [DecidableEq E] [DecidableEq A] [DecidableEq G]
  [DecidableEq H] (walk : T → C → E → A → Option G) (s : Vm P T C E A G H)

def nvcSvmcSetPageMap (nested : G → Option H) (gpa : G) (entry : Option H) : G → Option H :=
  update nested gpa entry

/-- The pages up to the one that cannot be mapped. -/
def mapped (nested : G → Option H) (pages : List (G × H)) : G → Option H :=
  pages.foldl (fun nested page => nvcSvmcSetPageMap nested page.1 (some page.2)) nested

/-- The address is not advanced. -/
def unmapped (nested : G → Option H) (gpa : G) (pages : Nat) : G → Option H :=
  (List.replicate pages gpa).foldl (fun nested gpa => nvcSvmcSetPageMap nested gpa none) nested

namespace Vm

def tables (v : Vcpu P T C E) : A → Option G := walk v.pages v.guestCrs v.guestEfer

/-- What the page tables of a virtual processor and the nested page table give. -/
def translate (v : Nat) : A → Option H := through (tables walk (s.vcpu v)) s.nested

def setVcpu (v : Nat) (vcpu : Vcpu P T C E) : Vm P T C E A G H :=
  { s with vcpu := update s.vcpu v vcpu }

def setTlb (p : P) (buffer : A → Option H) : Vm P T C E A G H :=
  { s with tlb := update s.tlb p buffer }

def enter (p : P) (v : Nat) : Vm P T C E A G H :=
  let vcpu := (s.vcpu v).nvcSvmSwitchToGuestVcpu s.nsvGuest p
  let entered := { s.setVcpu v vcpu with
    running := update s.running p (some v), ran := update s.ran p (some v) }
  if vcpu.tlbControl then entered.setTlb p flush else entered

/-- A guest that changes its page tables by itself invalidates what has changed. -/
def invalidate (p : P) (v : Nat) (pages : T) (crs : C) : Vm P T C E A G H :=
  let changed := s.setVcpu v { s.vcpu v with pages := pages, guestCrs := crs }
  changed.setTlb p (retain (s.translate walk v) (changed.translate walk v) (s.tlb p))

/-- An instruction that would have invalidated translations is intercepted and done by the code. -/
def intercept (v : Nat) (pages : T) (crs : C) (efer : E) : Vm P T C E A G H :=
  s.setVcpu v
    { s.vcpu v with pages := pages, guestCrs := crs, guestEfer := efer, tlbControl := false }

def leave (p : P) (v : Nat) : Vm P T C E A G H :=
  { s.setVcpu v { s.vcpu v with tlbControl := false } with running := update s.running p none }

/-- The last of 256 virtual processors is not told. -/
def nvcSvmcSetMapping (pages : List (G × H)) : Vm P T C E A G H :=
  { s with
    nested := mapped s.nested pages
    vcpu := fun v => if v < 255 then { s.vcpu v with tlValid := false } else s.vcpu v }

def nvcSvmcSetUnmapping (gpa : G) (pages : Nat) : Vm P T C E A G H :=
  { s with nested := unmapped s.nested gpa pages }

/-- Only the guest of a processor acts there. -/
def guest (p : P) (act : Nat → Vm P T C E A G H) : Vm P T C E A G H :=
  match s.running p with
  | some v => act v
  | none => s

def next : Event P T C E A G H → Vm P T C E A G H
  | .enter p v => s.enter p v
  | .access p a => s.guest p fun v => s.setTlb p (fill (s.translate walk v) a (s.tlb p))
  | .evict p a => s.setTlb p (evict a (s.tlb p))
  | .invalidate p pages crs => s.guest p fun v => s.invalidate walk p v pages crs
  | .intercept p pages crs efer => s.guest p fun v => s.intercept v pages crs efer
  | .leave p => s.guest p fun v => s.leave p v
  | .editCrs v crs => s.setVcpu v { s.vcpu v with crs := crs, crValid := false }
  | .editEfer v efer => s.setVcpu v { s.vcpu v with efer := efer, efValid := false }
  | .activate nsvGuest => { s with nsvGuest := nsvGuest }
  | .setMapping pages => s.nvcSvmcSetMapping pages
  | .setUnmapping gpa pages => s.nvcSvmcSetUnmapping gpa pages

/-- A virtual processor is locked while it runs, and so are those that are told of a mapping. -/
def Possible : Event P T C E A G H → Prop
  | .enter p v => s.running p = none ∧ ∀ q, s.running q ≠ some v
  | .setMapping _ => ∀ p v, s.running p = some v → 255 ≤ v
  | _ => True

/-- A virtual processor is entered without a flush only where it has been last and none of the
others since. Translations change for nobody who is not told. -/
def Stays : Event P T C E A G H → Prop
  | .enter p v => ((s.vcpu v).nvcSvmSwitchToGuestVcpu s.nsvGuest p).tlbControl = true ∨
      s.ran p = some v ∧ (s.vcpu v).procId = some p
  | .intercept p pages crs efer => ∀ v, s.running p = some v →
      Extends (tables walk (s.vcpu v)) (walk pages crs efer)
  | .setMapping pages => Extends s.nested (mapped s.nested pages) ∨
      ∀ v, 255 ≤ v → (s.vcpu v).tlValid = false
  | .setUnmapping gpa pages => Extends s.nested (unmapped s.nested gpa pages) ∨
      ∀ v, (s.vcpu v).tlValid = false
  | _ => True

/-- There may be anything under the ASID, by a VM that had it before. -/
structure Starts : Prop where
  idle : ∀ p, s.running p = none ∧ s.ran p = none
  created : ∀ v, (s.vcpu v).procId = none ∧ (s.vcpu v).tlValid = false ∧
    (s.vcpu v).tlbControl = true

def Step (s s' : Vm P T C E A G H) : Prop := ∃ e, s.Possible e ∧ s' = s.next walk e

def KeptStep (s s' : Vm P T C E A G H) : Prop :=
  ∃ e, s.Possible e ∧ s.Stays walk e ∧ s' = s.next walk e

/-- No processor holds a translation that its guest should not see. -/
def Fresh : Prop := ∀ p v, s.running p = some v → Sound (s.tlb p) (s.translate walk v)

/-- The invariant. -/
structure Kept : Prop where
  running : ∀ p v, s.running p = some v →
    s.ran p = some v ∧ (s.vcpu v).procId = some p ∧ (s.vcpu v).tlValid = true
  sound : ∀ p v, s.ran p = some v → (s.vcpu v).procId = some p → (s.vcpu v).tlValid = true →
    Sound (s.tlb p) (s.translate walk v)

end Vm

end

/-! A virtual processor that is entered without a flush has the page tables it had. -/

section

variable {P T C E A G : Type} [DecidableEq E] {v : Vcpu P T C E} {p : P} {nsvGuest : Bool}

omit [DecidableEq E] in
theorem loadCrs_kept (h : v.loadCrs.tlbControl = false) : v.loadCrs = v := by
  unfold Vcpu.loadCrs at h ⊢
  split at h
  · next hvalid => exact if_pos hvalid
  · exact absurd h.symm Bool.false_ne_true

theorem loadEfer_kept (walk : T → C → E → A → Option G) (h : v.loadEfer.tlbControl = false) :
    v.tlbControl = false ∧ v.loadEfer.tlValid = v.tlValid ∧ 
      Vm.tables walk v.loadEfer = Vm.tables walk v := by
  unfold Vcpu.loadEfer at h ⊢
  split at h
  · next hvalid =>
      rw [if_pos hvalid]
      exact ⟨h, rfl, rfl⟩
  · next hinvalid =>
      obtain ⟨hcontrol, hsame⟩ := Bool.or_eq_false_iff.mp h
      rw [if_neg hinvalid]
      refine ⟨hcontrol, rfl, ?_⟩
      unfold Vm.tables
      rw [← not_not.mp (of_decide_eq_false hsame)]

omit [DecidableEq E] in
theorem loadTlb_kept (h : v.loadTlb.tlbControl = false) : v.tlValid = true ∧ v.loadTlb = v := by
  unfold Vcpu.loadTlb at h ⊢
  split at h
  · next hvalid => exact ⟨hvalid, if_pos hvalid⟩
  · exact absurd h.symm Bool.false_ne_true

theorem switch_kept (walk : T → C → E → A → Option G)
    (h : (v.nvcSvmSwitchToGuestVcpu nsvGuest p).tlbControl = false) :
    v.tlValid = true ∧
      Vm.tables walk (v.nvcSvmSwitchToGuestVcpu nsvGuest p) = Vm.tables walk v := by
  cases nsvGuest with
  | true =>
      obtain ⟨hvalid, hloaded⟩ := loadTlb_kept h
      have hsame : v.nvcSvmSwitchToGuestVcpu true p = { v with procId := some p } := hloaded
      rw [hsame]
      exact ⟨hvalid, rfl⟩
  | false =>
      obtain ⟨hvalid, hloaded⟩ := loadTlb_kept h
      have hsame : v.nvcSvmSwitchToGuestVcpu false p =
          (Vcpu.loadCrs { v with procId := some p }).loadEfer := hloaded
      rw [hsame] at h ⊢
      obtain ⟨hcrs, htl, htables⟩ := loadEfer_kept walk h
      have hkept := loadCrs_kept hcrs
      rw [hkept] at htl htables hsame ⊢
      exact ⟨htl.symm.trans (hkept ▸ hvalid), htables⟩

theorem switch_entered : (v.nvcSvmSwitchToGuestVcpu nsvGuest p).procId = some p ∧
    (v.nvcSvmSwitchToGuestVcpu nsvGuest p).tlValid = true := by
  have hcrs : ∀ u : Vcpu P T C E, u.loadCrs.procId = u.procId := by
    intro u
    unfold Vcpu.loadCrs
    split <;> rfl
  have hefer : ∀ u : Vcpu P T C E, u.loadEfer.procId = u.procId := by
    intro u
    unfold Vcpu.loadEfer
    split <;> rfl
  have htlb : ∀ u : Vcpu P T C E, u.loadTlb.procId = u.procId ∧ u.loadTlb.tlValid = true := by
    intro u
    unfold Vcpu.loadTlb
    split
    · next hvalid => exact ⟨rfl, hvalid⟩
    · exact ⟨rfl, rfl⟩
  unfold Vcpu.nvcSvmSwitchToGuestVcpu
  refine ⟨(htlb _).1.trans ?_, (htlb _).2⟩
  split
  · rfl
  · exact (hefer _).trans (hcrs _)

end

/-! What the events keep. -/

namespace Vm

section

variable {P T C E A G H : Type} {walk : T → C → E → A → Option G} {s s' : Vm P T C E A G H} {p : P}
  {v : Nat}

/-- A change to one virtual processor and to the processor it holds concerns nobody else. -/
theorem Kept.sound_of_local (h : s.Kept walk) (hran : s'.ran p = some v)
    (hproc : (s'.vcpu v).procId = some p) (hnested : s'.nested = s.nested)
    (hvcpu : ∀ w, w ≠ v → s'.vcpu w = s.vcpu w)
    (hcpu : ∀ q, q ≠ p → s'.ran q = s.ran q ∧ s'.tlb q = s.tlb q)
    (hsound : Sound (s'.tlb p) (s'.translate walk v)) {q : P} {w : Nat} (hq : s'.ran q = some w)
    (hw : (s'.vcpu w).procId = some q) (hvalid : (s'.vcpu w).tlValid = true) :
    Sound (s'.tlb q) (s'.translate walk w) := by
  by_cases hsame : q = p
  · obtain rfl := hsame
    obtain rfl := Option.some.inj (hran.symm.trans hq)
    exact hsound
  · have hother : w ≠ v := by
      rintro rfl
      exact hsame (Option.some.inj (hw.symm.trans hproc))
    have htranslate : s'.translate walk w = s.translate walk w := by
      unfold translate
      rw [hvcpu w hother, hnested]
    rw [hvcpu w hother] at hw hvalid
    rw [(hcpu q hsame).1] at hq
    rw [(hcpu q hsame).2, htranslate]
    exact h.sound q w hq hw hvalid

/-- A processor is left alone by the others and by those it does not run. -/
theorem Kept.of_guest (h : s.Kept walk) (hguest : s.running p = some v) (hran : s'.ran = s.ran)
    (hrunning : ∀ q w, s'.running q = some w → s.running q = some w) (hnested : s'.nested = s.nested)
    (hvcpu : ∀ w, w ≠ v → s'.vcpu w = s.vcpu w) (hproc : (s'.vcpu v).procId = (s.vcpu v).procId)
    (hvalid : (s'.vcpu v).tlValid = (s.vcpu v).tlValid) (htlb : ∀ q, q ≠ p → s'.tlb q = s.tlb q)
    (hsound : Sound (s'.tlb p) (s'.translate walk v)) : s'.Kept walk := by
  obtain ⟨hlast, hheld, htl⟩ := h.running p v hguest
  constructor
  · intro q w hq
    have hold := h.running q w (hrunning q w hq)
    rw [hran]
    by_cases hw : w = v
    · obtain rfl := hw
      rw [hproc, hvalid]
      exact hold
    · rw [hvcpu w hw]
      exact hold
  · intro q w
    exact h.sound_of_local (hran ▸ hlast) (hproc.trans hheld) hnested hvcpu
      (fun r hr => ⟨congrFun hran r, htlb r hr⟩) hsound

/-- What a running virtual processor sees is held by its processor. -/
theorem Kept.sound_of_running (h : s.Kept walk) (hguest : s.running p = some v) :
    Sound (s.tlb p) (s.translate walk v) := by
  obtain ⟨hlast, hheld, htl⟩ := h.running p v hguest
  exact h.sound p v hlast hheld htl

theorem enter_vcpu [DecidableEq P] [DecidableEq E] : (s.enter p v).vcpu =
    update s.vcpu v ((s.vcpu v).nvcSvmSwitchToGuestVcpu s.nsvGuest p) := by
  unfold enter
  dsimp only
  split <;> rfl

theorem enter_rest [DecidableEq P] [DecidableEq E] :
    (s.enter p v).running = update s.running p (some v) ∧
    (s.enter p v).ran = update s.ran p (some v) ∧ (s.enter p v).nested = s.nested := by
  unfold enter
  dsimp only
  split <;> exact ⟨rfl, rfl, rfl⟩

theorem enter_tlb [DecidableEq P] [DecidableEq E] : (s.enter p v).tlb =
    if ((s.vcpu v).nvcSvmSwitchToGuestVcpu s.nsvGuest p).tlbControl then update s.tlb p flush
    else s.tlb := by
  unfold enter
  dsimp only
  split <;> rfl

theorem Kept.enter [DecidableEq P] [DecidableEq E] (h : s.Kept walk)
    (hidle : ∀ q, s.running q ≠ some v)
    (hstays : ((s.vcpu v).nvcSvmSwitchToGuestVcpu s.nsvGuest p).tlbControl = true ∨
      s.ran p = some v ∧ (s.vcpu v).procId = some p) : (s.enter p v).Kept walk := by
  obtain ⟨hrunning, hran, hnested⟩ := enter_rest (s := s) (p := p) (v := v)
  have hself : (s.enter p v).vcpu v = (s.vcpu v).nvcSvmSwitchToGuestVcpu s.nsvGuest p := by
    rw [enter_vcpu, update_self]
  have hother : ∀ w, w ≠ v → (s.enter p v).vcpu w = s.vcpu w := by
    intro w hw
    rw [enter_vcpu, update_of_ne hw]
  have hran_self : (s.enter p v).ran p = some v := by rw [hran, update_self]
  constructor
  · intro q w hq
    rw [hrunning] at hq
    by_cases hsame : q = p
    · obtain rfl := hsame
      rw [update_self] at hq
      obtain rfl := Option.some.inj hq
      rw [hself]
      exact ⟨hran_self, switch_entered⟩
    · rw [update_of_ne hsame] at hq
      have hw : w ≠ v := fun hsame => hidle q (hsame ▸ hq)
      rw [hother w hw, hran, update_of_ne hsame]
      exact h.running q w hq
  · intro q w
    refine h.sound_of_local hran_self ?_ hnested hother ?_ ?_
    · rw [hself]
      exact switch_entered.1
    · intro r hr
      refine ⟨by rw [hran, update_of_ne hr], ?_⟩
      rw [enter_tlb]
      split
      · exact update_of_ne hr _ _
      · rfl
    · cases hcontrol : ((s.vcpu v).nvcSvmSwitchToGuestVcpu s.nsvGuest p).tlbControl with
      | true =>
          rw [enter_tlb, if_pos hcontrol, update_self]
          exact sound_flush
      | false =>
          obtain ⟨hlast, hproc⟩ := hstays.resolve_left (by rw [hcontrol]; decide)
          obtain ⟨hvalid, htables⟩ := switch_kept walk hcontrol
          have hsame : (s.enter p v).translate walk v = s.translate walk v := by
            unfold translate
            rw [hself, htables, hnested]
          rw [enter_tlb, if_neg (by rw [hcontrol]; decide), hsame]
          exact h.sound p v hlast hproc hvalid

theorem setTlb_self [DecidableEq P] (buffer : A → Option H) : (s.setTlb p buffer).tlb p = buffer :=
  update_self _ _ _

theorem setTlb_of_ne [DecidableEq P] {q : P} (hq : q ≠ p) (buffer : A → Option H) :
    (s.setTlb p buffer).tlb q = s.tlb q := update_of_ne hq _ _

theorem Kept.access [DecidableEq P] [DecidableEq A] (h : s.Kept walk)
    (hguest : s.running p = some v) (a : A) :
    (s.setTlb p (fill (s.translate walk v) a (s.tlb p))).Kept walk := by
  refine h.of_guest hguest rfl (fun _ _ hq => hq) rfl (fun _ _ => rfl) rfl rfl ?_ ?_
  · intro q hq
    exact setTlb_of_ne hq _
  · rw [setTlb_self]
    exact (h.sound_of_running hguest).fill a

theorem Kept.evict [DecidableEq P] [DecidableEq A] (h : s.Kept walk) (p : P) (a : A) :
    (s.setTlb p (evict a (s.tlb p))).Kept walk := by
  refine ⟨h.running, fun q w hlast hheld htl => ?_⟩
  have hold := h.sound q w hlast hheld htl
  by_cases hq : q = p
  · obtain rfl := hq
    rw [setTlb_self]
    exact hold.evict a
  · rw [setTlb_of_ne hq]
    exact hold

theorem Kept.invalidate [DecidableEq P] [DecidableEq H] (h : s.Kept walk)
    (hguest : s.running p = some v) (pages : T) (crs : C) :
    (s.invalidate walk p v pages crs).Kept walk := by
  have hself : (s.invalidate walk p v pages crs).vcpu v =
      { s.vcpu v with pages := pages, guestCrs := crs } := update_self v _ s.vcpu
  refine h.of_guest hguest rfl (fun _ _ hq => hq) rfl ?_ ?_ ?_ ?_ ?_
  · intro w hw
    exact update_of_ne hw _ _
  · rw [hself]
  · rw [hself]
  · intro q hq
    exact setTlb_of_ne hq _
  · unfold Vm.invalidate
    rw [setTlb_self]
    exact (h.sound_of_running hguest).retain

theorem Kept.intercept (h : s.Kept walk) (hguest : s.running p = some v) {pages : T} {crs : C}
    {efer : E} (hextends : Extends (tables walk (s.vcpu v)) (walk pages crs efer)) :
    (s.intercept v pages crs efer).Kept walk := by
  have hself : (s.intercept v pages crs efer).vcpu v =
      { s.vcpu v with pages := pages, guestCrs := crs, guestEfer := efer, tlbControl := false } :=
    update_self v _ s.vcpu
  refine h.of_guest hguest rfl (fun _ _ hq => hq) rfl ?_ ?_ ?_ (fun _ _ => rfl) ?_
  · intro w hw
    exact update_of_ne hw _ _
  · rw [hself]
  · rw [hself]
  · apply (h.sound_of_running hguest).extends
    unfold translate
    rw [hself]
    exact hextends.through .refl

theorem Kept.leave [DecidableEq P] (h : s.Kept walk) (hguest : s.running p = some v) :
    (s.leave p v).Kept walk := by
  have hself : (s.leave p v).vcpu v = { s.vcpu v with tlbControl := false } :=
    update_self v _ s.vcpu
  have htranslate : (s.leave p v).translate walk v = s.translate walk v := by
    unfold translate
    rw [hself]
    rfl
  have hrunning : (s.leave p v).running = update s.running p none := rfl
  refine h.of_guest hguest rfl ?_ rfl ?_ ?_ ?_ (fun _ _ => rfl) ?_
  · intro q w hq
    rw [hrunning] at hq
    by_cases hsame : q = p
    · rw [hsame, update_self] at hq
      exact absurd hq.symm (Option.some_ne_none w)
    · rwa [update_of_ne hsame] at hq
  · intro w hw
    exact update_of_ne hw _ _
  · rw [hself]
  · rw [hself]
  · rw [htranslate]
    exact h.sound_of_running hguest

/-- What is pending in the structure of a virtual processor has no effect yet. -/
theorem Kept.edit (h : s.Kept walk) {vcpu : Vcpu P T C E} (hproc : vcpu.procId = (s.vcpu v).procId)
    (hvalid : vcpu.tlValid = (s.vcpu v).tlValid) (htables : tables walk vcpu = tables walk (s.vcpu v)) :
    (s.setVcpu v vcpu).Kept walk := by
  have hvcpu : ∀ w, ((s.setVcpu v vcpu).vcpu w).procId = (s.vcpu w).procId ∧
      ((s.setVcpu v vcpu).vcpu w).tlValid = (s.vcpu w).tlValid ∧
      (s.setVcpu v vcpu).translate walk w = s.translate walk w := by
    intro w
    by_cases hw : w = v
    · obtain rfl := hw
      have hself : (s.setVcpu w vcpu).vcpu w = vcpu := update_self w _ s.vcpu
      unfold translate
      rw [hself, htables]
      exact ⟨hproc, hvalid, rfl⟩
    · have hother : (s.setVcpu v vcpu).vcpu w = s.vcpu w := update_of_ne hw _ _
      unfold translate
      rw [hother]
      exact ⟨rfl, rfl, rfl⟩
  constructor
  · intro q w hq
    rw [(hvcpu w).1, (hvcpu w).2.1]
    exact h.running q w hq
  · intro q w hlast hheld htl
    rw [(hvcpu w).1] at hheld
    rw [(hvcpu w).2.1] at htl
    rw [(hvcpu w).2.2]
    exact h.sound q w hlast hheld htl

/-- A mapping may change for those who are told that it does, and for the others as long as nothing
was translated before. -/
theorem Kept.remap (h : s.Kept walk) {nested : G → Option H} {vcpu : Nat → Vcpu P T C E}
    (hrunning : ∀ p v, s.running p = some v → vcpu v = s.vcpu v)
    (hvcpu : ∀ v, (vcpu v).procId = (s.vcpu v).procId ∧
      tables walk (vcpu v) = tables walk (s.vcpu v) ∧
        ((vcpu v).tlValid = true → (s.vcpu v).tlValid = true))
    (hnested : Extends s.nested nested ∨ ∀ v, (vcpu v).tlValid = false) :
    Kept walk { s with nested := nested, vcpu := vcpu } := by
  constructor
  · intro p v hp
    dsimp only at hp ⊢
    rw [hrunning p v hp]
    exact h.running p v hp
  · intro p v hlast hheld htl
    obtain ⟨hproc, htables, hvalid⟩ := hvcpu v
    rcases hnested with hextends | htold
    · apply (h.sound p v hlast (hproc.symm.trans hheld) (hvalid htl)).extends
      unfold translate
      rw [htables]
      exact Extends.refl.through hextends
    · exact absurd (htl.symm.trans (htold v)) (by decide)

theorem Kept.setMapping [DecidableEq G] (h : s.Kept walk) {pages : List (G × H)}
    (hidle : ∀ p v, s.running p = some v → 255 ≤ v)
    (hstays : Extends s.nested (mapped s.nested pages) ∨
      ∀ v, 255 ≤ v → (s.vcpu v).tlValid = false) : (s.nvcSvmcSetMapping pages).Kept walk := by
  apply h.remap
  · intro p v hp
    exact if_neg (Nat.not_lt.mpr (hidle p v hp))
  · intro v
    split
    · exact ⟨rfl, rfl, fun htl => absurd htl Bool.false_ne_true⟩
    · exact ⟨rfl, rfl, id⟩
  · refine hstays.imp id fun htold v => ?_
    split
    · rfl
    · next hlast => exact htold v (Nat.not_lt.mp hlast)

theorem Kept.setUnmapping [DecidableEq G] (h : s.Kept walk) {gpa : G} {pages : Nat}
    (hstays : Extends s.nested (unmapped s.nested gpa pages) ∨ ∀ v, (s.vcpu v).tlValid = false) :
    (s.nvcSvmcSetUnmapping gpa pages).Kept walk :=
  h.remap (fun _ _ _ => rfl) (fun _ => ⟨rfl, rfl, id⟩) hstays

theorem Kept.guest (h : s.Kept walk) {act : Nat → Vm P T C E A G H}
    (hact : ∀ v, s.running p = some v → (act v).Kept walk) : (s.guest p act).Kept walk := by
  unfold Vm.guest
  split
  · next hguest => exact hact _ hguest
  · exact h

theorem Kept.next [DecidableEq P] [DecidableEq E] [DecidableEq A]
    [DecidableEq G] [DecidableEq H] (h : s.Kept walk) {e : Event P T C E A G H}
    (hpossible : s.Possible e) (hstays : s.Stays walk e) : (s.next walk e).Kept walk := by
  cases e with
  | enter p v => exact h.enter hpossible.2 hstays
  | access p a => exact h.guest fun v hguest => h.access hguest a
  | evict p a => exact h.evict p a
  | invalidate p pages crs => exact h.guest fun v hguest => h.invalidate hguest pages crs
  | intercept p pages crs efer =>
      exact h.guest fun v hguest => h.intercept hguest (hstays v hguest)
  | leave p => exact h.guest fun v hguest => h.leave hguest
  | editCrs v crs => exact h.edit rfl rfl rfl
  | editEfer v efer => exact h.edit rfl rfl rfl
  | activate nsvGuest => exact ⟨h.running, h.sound⟩
  | setMapping pages => exact h.setMapping hpossible hstays
  | setUnmapping gpa pages => exact h.setUnmapping hstays

theorem Starts.kept (h : s.Starts) : s.Kept walk := by
  constructor
  · intro p v hp
    exact absurd ((h.idle p).1.symm.trans hp).symm (Option.some_ne_none v)
  · intro p v hp
    exact absurd ((h.idle p).2.symm.trans hp).symm (Option.some_ne_none v)

end

/-! A guest without page tables has one page, and uses it. -/

def flatWalk (_ _ _ : Unit) (a : Nat) : Option Nat := some a

def flatVm : Vm Unit Unit Unit Unit Nat Nat Nat where
  vcpu _ :=
    { procId := none, crValid := true, efValid := true, tlValid := false, crs := (), efer := (),
      guestCrs := (), guestEfer := (), tlbControl := true, pages := () }
  nsvGuest := false
  nested := update (fun _ => none) 5 (some 0x1000)
  tlb _ := flush
  running _ := none
  ran _ := none

theorem flatVm_starts : flatVm.Starts where
  idle _ := ⟨rfl, rfl⟩
  created _ := ⟨rfl, rfl, rfl⟩

def flatUsed : Vm Unit Unit Unit Unit Nat Nat Nat :=
  (flatVm.next flatWalk (.enter () 0)).next flatWalk (.access () 5)

theorem flatUsed_kept : Reachable Starts (KeptStep flatWalk) flatUsed :=
  .step (.step (.start flatVm_starts)
    ⟨.enter () 0, ⟨rfl, fun _ h => by cases h⟩, .inl rfl, rfl⟩) ⟨.access () 5, trivial, trivial, rfl⟩

def flatUnmapped : Vm Unit Unit Unit Unit Nat Nat Nat :=
  (flatUsed.next flatWalk (.leave ())).next flatWalk (.setUnmapping 5 1)

end Vm

end NoirVisor.GuestTlb
