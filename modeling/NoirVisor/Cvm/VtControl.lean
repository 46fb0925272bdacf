import NoirVisor.Cvm.VtCvexit
import NoirVisor.Transition

/-!
# Control registers of a virtual CPU on VT

The accesses of a guest to its control registers that no host sees, one after the other. Each is
emulated by the exit handler, and between two of them the guest changes whatever it likes but the
control registers.
-/

namespace NoirVisor

open Transition

/-- The state that the last access has left, and the last value that was written to a control
register: at first what it has. -/
structure VtControlRun where
  state : VtCvexitState
  lastWritten : Fin 16 → Nat

structure VtControlExit where
  info : VtCvexitInformation
  found : VtCvexitState

def VtControlExit.access (e : VtControlExit) : ControlAccess := controlAccess e.info.qualification

namespace ControlAccess

/-- The access is emulated: it is not handed to the host, and no exception is raised. -/
def EmulatedInside (s : VtCvexitState) : ControlAccess → Prop
  | write 3 _ | read 3 _ => s.vcpu.header.vcpuOptions.interceptCr3 = false
  | write 4 gpr => (s.held (.gpr gpr)).testBit cr4Vmxe = false
  | write 8 _ | read 4 _ | read 8 _ | clts | lmsw _ => True
  | write _ _ | read _ _ => False

/-- What an access is to do besides leaving the other registers alone. -/
def Effect (lastWritten : Fin 16 → Nat) (s s' : VtCvexitState) : ControlAccess → Prop
  | read cr gpr => s'.held (.gpr gpr) = lastWritten cr ∧ s'.seenControl = s.seenControl
  | write 4 gpr => s'.guestCr4 = s.held (.gpr gpr) ∧
      ∀ i, i ≠ cr4Vmxe → (s'.held .cr4).testBit i = (s.held (.gpr gpr)).testBit i
  | write _ _ => True
  | clts => ∀ i, (s'.held .cr0).testBit i = (i != cr0Ts && (s.held .cr0).testBit i)
  | lmsw _ => (∀ i, 4 ≤ i → (s'.held .cr0).testBit i = (s.held .cr0).testBit i) ∧
      ((s.held .cr0).testBit cr0Pe = true → (s'.held .cr0).testBit cr0Pe = true)

/-- CR3 and CR4 are read into a register that has their value, and CR4 is written with the value that
it has. The operand of lmsw has the upper bits of CR0, and PE if that is set. -/
def Fits (s : VtCvexitState) : ControlAccess → Prop
  | read 3 gpr => s.held (.gpr gpr) = s.held .cr3
  | read 4 gpr | write 4 gpr => s.held (.gpr gpr) = s.guestCr4
  | lmsw src => (∀ i, 4 ≤ i → i < 16 → src.testBit i = (s.held .cr0).testBit i) ∧
      ((s.held .cr0).testBit cr0Pe = true → src.testBit cr0Pe = true)
  | _ => True

end ControlAccess

namespace VtControlRun

def next (r : VtControlRun) (e : VtControlExit) : VtControlRun where
  state := (VtCvexit.crAccess.handle e.info e.found).getD e.found
  lastWritten :=
    match e.access with
    | .write cr gpr => Function.update r.lastWritten cr (e.found.held (.gpr gpr))
    | _ => r.lastWritten

/-- The exit finds the control registers as the last access has left them. -/
structure Possible (r : VtControlRun) (e : VtControlExit) : Prop where
  guest : e.found.toHost = false
  seen : e.found.seenControl = r.state.seenControl
  inside : e.access.EmulatedInside e.found

structure Emulates (r : VtControlRun) (e : VtControlExit) : Prop where
  guest : (r.next e).state.toHost = false
  others : ∀ register, e.access.destination ≠ some register → register ≠ .rip →
    (r.next e).state.held register = e.found.held register
  effect : e.access.Effect r.lastWritten e.found (r.next e).state

def Kept (_ : VtControlRun) (e : VtControlExit) : Prop := e.access.Fits e.found

/-- A read may tell what the registers have. -/
def Current (r : VtControlRun) : Prop :=
  ∀ cr, cr = 3 ∨ cr = 4 ∨ cr = 8 → r.state.seenControl cr = some (r.lastWritten cr)

end VtControlRun

section Registers

variable {info : VtCvexitInformation} {s s' : VtCvexitState}

theorem guestCr4_congr (hcr4 : s'.held .cr4 = s.held .cr4)
    (hshadow : s'.vcpu.vmcs .cr4ReadShadow = s.vcpu.vmcs .cr4ReadShadow) :
    s'.guestCr4 = s.guestCr4 := by
  unfold VtCvexitState.guestCr4
  rw [hcr4, hshadow]

theorem seenControl_congr (hcr0 : s'.held .cr0 = s.held .cr0) (hcr3 : s'.held .cr3 = s.held .cr3)
    (hcr4 : s'.held .cr4 = s.held .cr4) (hcr8 : s'.held .cr8 = s.held .cr8)
    (hshadow : s'.vcpu.vmcs .cr4ReadShadow = s.vcpu.vmcs .cr4ReadShadow) :
    s'.seenControl = s.seenControl := by
  funext cr
  unfold VtCvexitState.seenControl
  rw [hcr0, hcr3, hcr8, guestCr4_congr hcr4 hshadow]

/-- The processor has the bits that the guest sees, apart from VMXE. -/
theorem testBit_guestCr4 {i : Nat} (hi : i ≠ cr4Vmxe) :
    s.guestCr4.testBit i = (s.held .cr4).testBit i := by
  have hnot : ¬(cr4Vmxe ≤ i ∧ i < cr4Vmxe + 1) := by omega
  rw [VtCvexitState.guestCr4, BitField.testBit_set, if_neg hnot]

theorem emulateCr3_shadow {vpid : Nat} {gpr : Fin 16} :
    (emulateCr3 info s vpid gpr).vcpu.vmcs .cr4ReadShadow = s.vcpu.vmcs .cr4ReadShadow := by
  unfold emulateCr3 VtCvexitState.noirVtAdvanceRip VtCvexitState.noirVtSetSingleStepping
  dsimp only
  split <;> split <;>
    simp [VtCvexitState.vmwrite, VtCvexitState.noirVtInvvpid, VtCvexitState.withReg]

/-- The accesses that are emulated. -/
theorem ControlAccess.inside_cases {a : ControlAccess} (h : a.EmulatedInside s) :
    (∃ gpr, a = write 3 gpr ∧ s.vcpu.header.vcpuOptions.interceptCr3 = false) ∨
      (∃ gpr, a = write 4 gpr ∧ (s.held (.gpr gpr)).testBit cr4Vmxe = false) ∨
        (∃ gpr, a = write 8 gpr) ∨
          (∃ gpr, a = read 3 gpr ∧ s.vcpu.header.vcpuOptions.interceptCr3 = false) ∨
            (∃ gpr, a = read 4 gpr) ∨ (∃ gpr, a = read 8 gpr) ∨ a = clts ∨ ∃ src, a = lmsw src := by
  unfold EmulatedInside at h
  split at h
  · next gpr => exact .inl ⟨gpr, rfl, h⟩
  · next gpr => exact .inr (.inr (.inr (.inl ⟨gpr, rfl, h⟩)))
  · next gpr => exact .inr (.inl ⟨gpr, rfl, h⟩)
  · next gpr => exact .inr (.inr (.inl ⟨gpr, rfl⟩))
  · next gpr => exact .inr (.inr (.inr (.inr (.inl ⟨gpr, rfl⟩))))
  · next gpr => exact .inr (.inr (.inr (.inr (.inr (.inl ⟨gpr, rfl⟩)))))
  · exact .inr (.inr (.inr (.inr (.inr (.inr (.inl rfl))))))
  · next src => exact .inr (.inr (.inr (.inr (.inr (.inr (.inr ⟨src, rfl⟩))))))
  · exact h.elim
  · exact h.elim

/-- What the handler leaves of an access to CR0. -/
theorem held_writeCr0 {value shadow : Nat} :
    ((s.vmwrite (.guest .cr0) value).vmwrite .cr0ReadShadow shadow).held =
      Function.update s.held .cr0 value := by
  rw [held_vmwrite_of_not_guest (by rintro r ⟨⟩)]
  exact held_vmwrite_guest (by rintro ⟨⟩) rfl

theorem held_writesCr8 {gpr : Fin 16} {v : VtCustomVcpu} (h : s.vcpu.WritesCr8 s.p gpr v) :
    ({ s with vcpu := v } : VtCvexitState).held =
      Function.update s.held .cr8 (s.held (.gpr gpr)) := by
  funext r
  by_cases hr : r = .cr8
  · subst hr
    rw [Function.update_self, held_gpr]
    exact (congrFun h.reg .cr8).trans (Function.update_self _ _ _)
  · rw [Function.update_of_ne hr]
    unfold VtCvexitState.held vtHeld VtCustomVcpu.block
    dsimp only
    rw [h.reg, h.msrAuto, h.guest, Function.update_of_ne hr]

end Registers

namespace VtControlRun

variable {r : VtControlRun} {e : VtControlExit} {s' : VtCvexitState}

theorem handle_eq {a : ControlAccess} (haccess : e.access = a) :
    VtCvexit.crAccess.handle e.info e.found = handleControlAccess e.info e.found a :=
  congrArg (handleControlAccess e.info e.found) haccess

theorem next_state (h : VtCvexit.crAccess.handle e.info e.found = some s') :
    (r.next e).state = s' := by
  change (VtCvexit.crAccess.handle e.info e.found).getD e.found = s'
  rw [h, Option.getD_some]

theorem Possible.found_current (h : r.Possible e) (hcurrent : r.Current) {cr : Fin 16}
    (hcr : cr = 3 ∨ cr = 4 ∨ cr = 8) : e.found.seenControl cr = some (r.lastWritten cr) := by
  rw [h.seen]
  exact hcurrent cr hcr

theorem emulates_iff_effect (hpossible : r.Possible e)
    (h : VtCvexit.crAccess.handle e.info e.found = some s') (hguest : s'.toHost = e.found.toHost)
    (hothers : ∀ register, e.access.destination ≠ some register → register ≠ .rip →
      s'.held register = e.found.held register) :
    r.Emulates e ↔ e.access.Effect r.lastWritten e.found s' := by
  constructor
  · intro hemulates
    rw [← next_state h]
    exact hemulates.effect
  · intro heffect
    constructor
    · rw [next_state h]
      exact hguest.trans hpossible.guest
    · rw [next_state h]
      exact hothers
    · rw [next_state h]
      exact heffect

/-- The values that the guest sees stay up to date after an access that is no write of them. -/
theorem current_of_other (hpossible : r.Possible e) (hcurrent : r.Current)
    (h : VtCvexit.crAccess.handle e.info e.found = some s')
    (haccess : (r.next e).lastWritten = r.lastWritten)
    (hseen : ∀ cr, cr = 3 ∨ cr = 4 ∨ cr = 8 → s'.seenControl cr = e.found.seenControl cr) :
    (r.next e).Current := by
  intro cr hcr
  rw [next_state h, haccess, hseen cr hcr]
  exact hpossible.found_current hcurrent hcr

theorem current_of_write {cr gpr : Fin 16} (hpossible : r.Possible e) (hcurrent : r.Current)
    (h : VtCvexit.crAccess.handle e.info e.found = some s') (haccess : e.access = .write cr gpr)
    (hwritten : s'.seenControl cr = some (e.found.held (.gpr gpr)))
    (hseen : ∀ cr', cr' = 3 ∨ cr' = 4 ∨ cr' = 8 → cr' ≠ cr →
      s'.seenControl cr' = e.found.seenControl cr') : (r.next e).Current := by
  have hlast : (r.next e).lastWritten =
      Function.update r.lastWritten cr (e.found.held (.gpr gpr)) := by
    unfold next
    rw [haccess]
  intro cr' hcr'
  rw [next_state h, hlast]
  by_cases hcr : cr' = cr
  · subst hcr
    rw [Function.update_self, hwritten]
  · rw [Function.update_of_ne hcr, hseen cr' hcr' hcr]
    exact hpossible.found_current hcurrent hcr'

theorem writeCr3_step {gpr : Fin 16} (hpossible : r.Possible e) (hcurrent : r.Current)
    (haccess : e.access = .write 3 gpr)
    (hintercept : e.found.vcpu.header.vcpuOptions.interceptCr3 = false) :
    r.Emulates e ∧ (r.next e).Current := by
  have hhandle : VtCvexit.crAccess.handle e.info e.found =
      some (emulateCr3 e.info e.found e.info.vpid gpr) := by
    refine (handle_eq haccess).trans (if_neg ?_)
    rw [hintercept]
    exact Bool.false_ne_true
  have hheld {register : Register} (hrip : register ≠ .rip) (hcr3 : register ≠ .cr3) :
      (emulateCr3 e.info e.found e.info.vpid gpr).held register = e.found.held register := by
    rw [VtCvexit.held_emulateCr3, Function.update_of_ne hrip, Function.update_of_ne hcr3]
  constructor
  · refine (emulates_iff_effect hpossible hhandle VtCvexit.emulateCr3_toHost ?_).mpr ?_
    · rw [haccess]
      exact fun register hdestination hrip =>
        hheld hrip fun hcr3 => hdestination (congrArg some hcr3.symm)
    · rw [haccess]
      exact trivial
  · refine current_of_write hpossible hcurrent hhandle haccess ?_ ?_
    · refine congrArg some ?_
      rw [VtCvexit.held_emulateCr3, Function.update_of_ne (by decide), Function.update_self]
    · rintro cr (rfl | rfl | rfl) hcr
      · exact absurd rfl hcr
      · exact congrArg some (guestCr4_congr (hheld (by decide) (by decide)) emulateCr3_shadow)
      · exact congrArg some (hheld (by decide) (by decide))

/-- Nothing is done for a write of CR4. -/
theorem writeCr4_step {gpr : Fin 16} (hpossible : r.Possible e) (hcurrent : r.Current)
    (haccess : e.access = .write 4 gpr)
    (hvmxe : (e.found.held (.gpr gpr)).testBit cr4Vmxe = false) :
    (r.Emulates e ↔ r.Kept e) ∧ (r.Kept e → (r.next e).Current) := by
  have hhandle : VtCvexit.crAccess.handle e.info e.found = some e.found := by
    have hnot : ¬(e.found.vcpu.exitRegisters e.found.p (.gpr gpr)).testBit cr4Vmxe = true := by
      rw [← held_gpr, hvmxe]
      exact Bool.false_ne_true
    exact (handle_eq haccess).trans (if_neg hnot)
  unfold Kept
  constructor
  · rw [emulates_iff_effect hpossible hhandle rfl fun _ _ _ => rfl, haccess]
    constructor
    · exact fun heffect => heffect.1.symm
    · intro hfits
      refine ⟨hfits.symm, fun i hi => ?_⟩
      rw [hfits, testBit_guestCr4 hi]
  · intro hfits
    rw [haccess] at hfits
    exact current_of_write hpossible hcurrent hhandle haccess (congrArg some hfits.symm)
      fun _ _ _ => rfl

theorem writeCr8_step {gpr : Fin 16} (hpossible : r.Possible e) (hcurrent : r.Current)
    (haccess : e.access = .write 8 gpr) : r.Emulates e ∧ (r.next e).Current := by
  have hhandle : VtCvexit.crAccess.handle e.info e.found = some { e.found with
      vcpu := e.found.vcpu.nvcVtCrAccessCvexitHandlerCr8 e.found.p gpr } := handle_eq haccess
  have hwritten := VtCustomVcpu.writesCr8 e.found.vcpu e.found.p gpr
  have hheld := held_writesCr8 hwritten
  have hothers {register : Register} (hcr8 : register ≠ .cr8) :=
    (congrFun hheld register).trans (Function.update_of_ne hcr8 _ _)
  constructor
  · refine (emulates_iff_effect hpossible hhandle rfl ?_).mpr ?_
    · rw [haccess]
      exact fun register hdestination _ =>
        hothers fun hcr8 => hdestination (congrArg some hcr8.symm)
    · rw [haccess]
      exact trivial
  · refine current_of_write hpossible hcurrent hhandle haccess ?_ ?_
    · exact congrArg some ((congrFun hheld .cr8).trans (Function.update_self _ _ _))
    · rintro cr (rfl | rfl | rfl) hcr
      · exact congrArg some (hothers (by decide))
      · exact congrArg some (guestCr4_congr (hothers (by decide)) hwritten.cr4ReadShadow)
      · exact absurd rfl hcr

/-- The same is done for a read of CR3 as for a write. -/
theorem readCr3_step {gpr : Fin 16} (hpossible : r.Possible e) (hcurrent : r.Current)
    (haccess : e.access = .read 3 gpr)
    (hintercept : e.found.vcpu.header.vcpuOptions.interceptCr3 = false) :
    (r.Emulates e ↔ r.Kept e) ∧ (r.Kept e → (r.next e).Current) := by
  have hhandle : VtCvexit.crAccess.handle e.info e.found =
      some (emulateCr3 e.info e.found 0 gpr) := by
    refine (handle_eq haccess).trans (if_neg ?_)
    rw [hintercept]
    exact Bool.false_ne_true
  have hcr3 : (emulateCr3 e.info e.found 0 gpr).held .cr3 = e.found.held (.gpr gpr) := by
    rw [VtCvexit.held_emulateCr3, Function.update_of_ne (by decide), Function.update_self]
  have hheld (hfits : r.Kept e) {register : Register} (hrip : register ≠ .rip) :
      (emulateCr3 e.info e.found 0 gpr).held register = e.found.held register := by
    unfold Kept at hfits
    rw [haccess] at hfits
    by_cases hregister : register = .cr3
    · subst hregister
      exact hcr3.trans hfits
    · rw [VtCvexit.held_emulateCr3, Function.update_of_ne hrip, Function.update_of_ne hregister]
  have hseen (hfits : r.Kept e) :
      (emulateCr3 e.info e.found 0 gpr).seenControl = e.found.seenControl :=
    seenControl_congr (hheld hfits (by decide)) (hheld hfits (by decide)) (hheld hfits (by decide))
      (hheld hfits (by decide)) emulateCr3_shadow
  constructor
  · constructor
    · intro hemulates
      have hothers := hemulates.others .cr3 (by rw [haccess]; rintro ⟨⟩) (by decide)
      rw [next_state hhandle, hcr3] at hothers
      unfold Kept
      rw [haccess]
      exact hothers
    · intro hfits
      refine (emulates_iff_effect hpossible hhandle VtCvexit.emulateCr3_toHost
        fun register _ hrip => hheld hfits hrip).mpr ?_
      rw [haccess]
      refine ⟨?_, hseen hfits⟩
      have hlast := hpossible.found_current hcurrent (.inl rfl)
      rw [hheld hfits (by rintro ⟨⟩)]
      unfold Kept at hfits
      rw [haccess] at hfits
      exact hfits.trans (Option.some.inj hlast)
  · intro hfits
    refine current_of_other hpossible hcurrent hhandle ?_ fun cr _ => congrFun (hseen hfits) cr
    unfold next
    rw [haccess]

theorem readCr4_step {gpr : Fin 16} (hpossible : r.Possible e) (hcurrent : r.Current)
    (haccess : e.access = .read 4 gpr) :
    (r.Emulates e ↔ r.Kept e) ∧ (r.Kept e → (r.next e).Current) := by
  have hhandle : VtCvexit.crAccess.handle e.info e.found = some e.found := handle_eq haccess
  have hlast := Option.some.inj (hpossible.found_current hcurrent (.inr (.inl rfl)))
  constructor
  · unfold Kept
    rw [emulates_iff_effect hpossible hhandle rfl fun _ _ _ => rfl, haccess]
    constructor
    · exact fun heffect => heffect.1.trans hlast.symm
    · exact fun hfits => ⟨hfits.trans hlast, rfl⟩
  · intro _
    refine current_of_other hpossible hcurrent hhandle ?_ fun _ _ => rfl
    unfold next
    rw [haccess]

theorem readCr8_step {gpr : Fin 16} (hpossible : r.Possible e) (hcurrent : r.Current)
    (haccess : e.access = .read 8 gpr) : r.Emulates e ∧ (r.next e).Current := by
  let s := e.found
  let read := if gpr = 4 then s.vmwrite (.guest .rsp) (s.vcpu.header.reg .cr8)
    else s.withReg (.gpr gpr) (s.vcpu.header.reg .cr8)
  have hhandle : VtCvexit.crAccess.handle e.info e.found = some read := handle_eq haccess
  have hheld : read.held = Function.update s.held (.gpr gpr) (s.held .cr8) := by
    by_cases hgpr : gpr = 4
    · subst hgpr
      exact held_vmwrite_guest (by rintro ⟨⟩) rfl
    · exact (congrArg VtCvexitState.held (if_neg hgpr)).trans (held_withReg_gpr hgpr)
  have hothers {register : Register} (hregister : register ≠ .gpr gpr) :
      read.held register = s.held register := by rw [hheld, Function.update_of_ne hregister]
  have hshadow : read.vcpu.vmcs .cr4ReadShadow = s.vcpu.vmcs .cr4ReadShadow := by
    unfold read
    split <;> rfl
  have hseen : read.seenControl = s.seenControl :=
    seenControl_congr (hothers nofun) (hothers nofun) (hothers nofun) (hothers nofun) hshadow
  have hguest : read.toHost = s.toHost := by
    unfold read
    split <;> rfl
  have hlast := Option.some.inj (hpossible.found_current hcurrent (.inr (.inr rfl)))
  constructor
  · refine (emulates_iff_effect hpossible hhandle hguest ?_).mpr ?_
    · rw [haccess]
      exact fun register hdestination _ =>
        hothers fun hregister => hdestination (congrArg some hregister.symm)
    · rw [haccess]
      refine ⟨?_, hseen⟩
      rw [hheld, Function.update_self]
      exact hlast
  · refine current_of_other hpossible hcurrent hhandle ?_ fun cr _ => congrFun hseen cr
    unfold next
    rw [haccess]

/-- An access that only writes CR0. -/
theorem writeCr0_step {value shadow : Nat} (hpossible : r.Possible e) (hcurrent : r.Current)
    (hdestination : e.access.destination = some .cr0)
    (hhandle : VtCvexit.crAccess.handle e.info e.found =
      some ((e.found.vmwrite (.guest .cr0) value).vmwrite .cr0ReadShadow shadow)) :
    (r.Emulates e ↔ e.access.Effect r.lastWritten e.found
      ((e.found.vmwrite (.guest .cr0) value).vmwrite .cr0ReadShadow shadow)) ∧
        ((r.next e).lastWritten = r.lastWritten → (r.next e).Current) := by
  have hothers {register : Register} (hcr0 : register ≠ .cr0) :
      ((e.found.vmwrite (.guest .cr0) value).vmwrite .cr0ReadShadow shadow).held register =
        e.found.held register := by
    rw [held_writeCr0, Function.update_of_ne hcr0]
  constructor
  · refine emulates_iff_effect hpossible hhandle rfl fun register hregister _ => hothers ?_
    rintro rfl
    exact hregister hdestination
  · intro hlast
    refine current_of_other hpossible hcurrent hhandle hlast ?_
    rintro cr (rfl | rfl | rfl)
    · exact congrArg some (hothers (by decide))
    · exact congrArg some (guestCr4_congr (hothers (by decide)) rfl)
    · exact congrArg some (hothers (by decide))

theorem clts_step (hpossible : r.Possible e) (hcurrent : r.Current) (haccess : e.access = .clts) :
    r.Emulates e ∧ (r.next e).Current := by
  have hstep := writeCr0_step hpossible hcurrent (by rw [haccess]; rfl) (handle_eq haccess)
  constructor
  · rw [hstep.1, haccess]
    intro i
    rw [held_writeCr0, Function.update_self]
    dsimp only
    rw [noirBtr_testBit, Bool.and_comm]
    rfl
  · apply hstep.2
    unfold next
    rw [haccess]

theorem lmsw_step {src : Nat} (hpossible : r.Possible e) (hcurrent : r.Current)
    (haccess : e.access = .lmsw src) :
    (r.Emulates e ↔ r.Kept e) ∧ (r.Kept e → (r.next e).Current) := by
  have hstep := writeCr0_step hpossible hcurrent (by rw [haccess]; rfl) (handle_eq haccess)
  have hlast : (r.next e).lastWritten = r.lastWritten := by
    unfold next
    rw [haccess]
  refine ⟨?_, fun _ => hstep.2 hlast⟩
  have hbit (i : Nat) : (BitField.set (e.found.held .cr0) 0 16 src).testBit i =
      if i < 16 then src.testBit i else (e.found.held .cr0).testBit i := by
    rw [BitField.testBit_set]
    simp
  unfold Kept
  rw [hstep.1, haccess]
  unfold ControlAccess.Effect ControlAccess.Fits
  rw [held_writeCr0, Function.update_self]
  change (∀ i, 4 ≤ i → (BitField.set (e.found.held .cr0) 0 16 src).testBit i = _) ∧
    (_ → (BitField.set (e.found.held .cr0) 0 16 src).testBit cr0Pe = true) ↔ _
  rw [hbit cr0Pe, if_pos (by decide)]
  refine and_congr_left fun _ => forall_congr' fun i => ?_
  rw [hbit]
  by_cases hi : i < 16
  · rw [if_pos hi]
    exact forall_congr' fun _ => ⟨fun h _ => h, fun h => h hi⟩
  · rw [if_neg hi]
    exact iff_of_true (fun _ => rfl) fun _ h => absurd h hi

theorem step_iff (hpossible : r.Possible e) (hcurrent : r.Current) :
    (r.Emulates e ↔ r.Kept e) ∧ (r.Kept e → (r.next e).Current) := by
  have hfits {a : ControlAccess} (haccess : e.access = a) (h : a.Fits e.found) : r.Kept e := by
    unfold Kept
    rw [haccess]
    exact h
  have hwell {a : ControlAccess} (haccess : e.access = a) (h : a.Fits e.found)
      (hstep : r.Emulates e ∧ (r.next e).Current) :
      (r.Emulates e ↔ r.Kept e) ∧ (r.Kept e → (r.next e).Current) :=
    ⟨iff_of_true hstep.1 (hfits haccess h), fun _ => hstep.2⟩
  rcases ControlAccess.inside_cases hpossible.inside with ⟨gpr, h, hintercept⟩ | ⟨gpr, h, hvmxe⟩ |
    ⟨gpr, h⟩ | ⟨gpr, h, hintercept⟩ | ⟨gpr, h⟩ | ⟨gpr, h⟩ | h | ⟨src, h⟩
  · exact hwell h trivial (writeCr3_step hpossible hcurrent h hintercept)
  · exact writeCr4_step hpossible hcurrent h hvmxe
  · exact hwell h trivial (writeCr8_step hpossible hcurrent h)
  · exact readCr3_step hpossible hcurrent h hintercept
  · exact readCr4_step hpossible hcurrent h
  · exact hwell h trivial (readCr8_step hpossible hcurrent h)
  · exact hwell h trivial (clts_step hpossible hcurrent h)
  · exact lmsw_step hpossible hcurrent h

theorem emulatesAlong_iff {exits : List VtControlExit} (hcurrent : r.Current)
    (hpossible : Along Possible next r exits) :
    Along Emulates next r exits ↔ Along Kept next r exits :=
  along_iff (I := Current) (fun _ _ hcurrent hpossible => (step_iff hpossible hcurrent).1)
    (fun _ _ hcurrent hpossible => (step_iff hpossible hcurrent).2) hcurrent hpossible

end VtControlRun

/-! A write of CR8, and a read of CR3 into a register with another value. -/

def accessExit (qualification : Nat) : VtControlExit :=
  ⟨{ firstExitInformation with qualification }, firstExitState⟩

def firstControlRun : VtControlRun := ⟨firstExitState, fun _ => 0⟩

theorem firstControlRun_current : firstControlRun.Current := by
  rintro cr (rfl | rfl | rfl) <;> rfl

/-- CR8 is written from RSP. -/
theorem firstControlRun_emulatesAlong :
    Along VtControlRun.Emulates VtControlRun.next firstControlRun [accessExit 0x408] := by
  have hpossible : firstControlRun.Possible (accessExit 0x408) := ⟨rfl, rfl, trivial⟩
  have halong : Along VtControlRun.Possible VtControlRun.next firstControlRun [accessExit 0x408] :=
    ⟨hpossible, trivial⟩
  exact (VtControlRun.emulatesAlong_iff firstControlRun_current halong).mpr ⟨trivial, trivial⟩

def readCr3Exit : VtControlExit :=
  ⟨{ firstExitInformation with qualification := 0x313 }, firstExitState.withReg (.gpr 3) 0x1000⟩

theorem not_forall_emulatesAlong :
    ¬∀ (r : VtControlRun) (exits : List VtControlExit), r.Current →
      Along VtControlRun.Possible VtControlRun.next r exits →
        Along VtControlRun.Emulates VtControlRun.next r exits := by
  intro h
  have hpossible : firstControlRun.Possible readCr3Exit := ⟨rfl, rfl, rfl⟩
  have hemulates := h firstControlRun [readCr3Exit] firstControlRun_current ⟨hpossible, trivial⟩
  have hkept : 0x1000 = 0 :=
    (VtControlRun.step_iff hpossible firstControlRun_current).1.mp hemulates.1
  exact absurd hkept (by decide)

end NoirVisor
