import NoirVisor.Cvm.VtCvexit
import NoirVisor.Host.VtHost

/-!
# Control registers of the subverted host on VT

Writes of CR0 and CR4 are intercepted where they change bits that the hypervisor watches
(`vt_core/vt_exit.c`). A write of CR0 may change the paging mode, which the processor keeps in EFER and
in the VM-entry controls, and a write of CR4 may enable VMX. The record that a failed entry is undone
with is never made valid.
-/

namespace NoirVisor

open Transition

def eferLme : Nat := 8
def entryIa32eModeGuest : Nat := 9

/-- Bits CD and PG. -/
def cr0GuestHostMask : Nat := 2 ^ 30 + 2 ^ 31

/-- Bit VMXE. -/
def cr4GuestHostMask : Nat := 2 ^ 13

/-- `vcpu->fallback`. -/
structure VtFallback where
  valid : Bool
  encoding : VmcsField
  value : Nat
  rip : Nat
  faultInfo : Nat
  errorCode : Nat

/-- `vmxe` and `vmxon` are bits of the status of the nested vCPU. -/
structure VtCrVcpu where
  vmcs : VtHostVmcs
  vmxe : Bool
  vmxon : Bool
  mtrrDirty : Bool
  vpidTaggedTlb : Bool
  fallback : VtFallback
  eptUpdates : Nat
  invvpids : Nat

namespace VtCrVcpu

variable (v : VtCrVcpu)

def vmread (f : VmcsField) : Nat := v.vmcs.vmread f

def vmwrite (f : VmcsField) (value : Nat) : VtCrVcpu := { v with vmcs := v.vmcs.vmwrite f value }

/-- A dirty MTRR is emulated once CR0.CD is cleared. -/
def writeCr0Cd (data : Nat) : VtCrVcpu :=
  let cr0x := v.vmread (.guest .cr0) ^^^ data
  if cr0x.testBit 30 && !data.testBit 30 && v.mtrrDirty then
    { v with mtrrDirty := false, eptUpdates := v.eptUpdates + 1 }
  else v

def writeCr0Pg (data : Nat) : VtCrVcpu :=
  let cr0x := v.vmread (.guest .cr0) ^^^ data
  if cr0x.testBit cr0Pg then
    let gefer := v.vmread (.guest .efer)
    let gefer := if gefer.testBit eferLme && data.testBit cr0Pg then noirBts gefer eferLma
      else noirBtr gefer eferLma
    let v := v.vmwrite (.guest .efer) gefer
    let v := v.vmwrite .vmentryControls
      (setBit (v.vmread .vmentryControls) entryIa32eModeGuest (gefer.testBit eferLma))
    { v with invvpids := if v.vpidTaggedTlb then v.invvpids + 1 else v.invvpids }
  else v

/-- The fault of a write that fails, without its place. -/
def recordFault : VtCrVcpu :=
  { v with
    fallback.faultInfo := interruptionInformation generalProtection ia32HardwareExceptionType true
    fallback.errorCode := 0 }

def writeCr0 (data : Nat) : VtCrVcpu :=
  let v := (v.writeCr0Cd data).writeCr0Pg data
  ((v.vmwrite (.guest .cr0) data).vmwrite .cr0ReadShadow data).recordFault

def writeCr4Vmxe (data : Nat) : VtCrVcpu :=
  if data.testBit cr4Vmxe then { v with vmxe := true }
  else if v.vmxon then { v with vmcs := v.vmcs.injectGp }
  else { v with vmxe := false }

def writeCr4 (data : Nat) : VtCrVcpu :=
  let v := v.writeCr4Vmxe data
  ((v.vmwrite (.guest .cr4) (data ||| cr4VmxeBit)).vmwrite .cr4ReadShadow data).recordFault

def advanceRip : VtCrVcpu := { v with vmcs := v.vmcs.noirVtAdvanceRip }

/-- `rsp` is in the VMCS and not in the frame. -/
def operand (gprState : Fin 16 → Nat) (gpr : Fin 16) : Nat :=
  Function.update gprState 4 (v.vmread (.guest .rsp)) gpr

/-- What is not expected is skipped. -/
def nvcVtCrAccessHandler (qualification : Nat) (gprState : Fin 16 → Nat) : VtCrVcpu :=
  (match controlAccess qualification with
    | .write 0 gpr => v.writeCr0 (v.operand gprState gpr)
    | .write 4 gpr => v.writeCr4 (v.operand gprState gpr)
    | _ => v).advanceRip

/-- Without a record, it dumps the guest state. -/
def nvcVtInvalidGuestState : VtCrVcpu :=
  if v.fallback.valid then
    let v := v.vmwrite v.fallback.encoding v.fallback.value
    let v := v.vmwrite (.guest .rip) v.fallback.rip
    let v := v.vmwrite .vmentryInterruptionInformationField v.fallback.faultInfo
    let v := v.vmwrite .vmentryExceptionErrorCode v.fallback.errorCode
    { v with fallback.valid := false }
  else v

/-- `nvc_vt_init_handler`, as far as the registers go. -/
def nvcVtInitHandler (fixed : VmxFixedBits) : VtCrVcpu :=
  let cr0 := ((BitField.get (v.vmread (.guest .cr0)) 29 2 * 2 ^ 29 ||| 0x30) ||| fixed.cr0Fixed0) &&&
    fixed.cr0Fixed1
  let cr0 := noirBtr (noirBtr cr0 cr0Pe) cr0Pg
  let cr4 := fixed.cr4Fixed0 &&& fixed.cr4Fixed1
  let v := (v.vmwrite (.guest .cr0) cr0).vmwrite .cr0ReadShadow cr0
  let v := (v.vmwrite (.guest .cr4) cr4).vmwrite .cr4ReadShadow (resetBits cr4 cr4VmxeBit)
  let v := v.vmwrite (.guest .efer) 0
  v.vmwrite .vmentryControls (setBit (v.vmread .vmentryControls) entryIa32eModeGuest false)

/-- `nvc_vt_vmxon_handler`, which accepts a region or not, and `nvc_vt_vmxoff_handler`. -/
def nvcVtVmxonHandler (accepts : Bool) : VtCrVcpu :=
  if v.vmxe && accepts then { v with vmxon := true } else v

def nvcVtVmxoffHandler : VtCrVcpu := { v with vmxon := false }

end VtCrVcpu

inductive VtCrEvent where
  | crAccess (qualification : Nat) (gprState : Fin 16 → Nat)
  | init
  | vmxon (accepts : Bool)
  | vmxoff

/-- `vmcs` is what the processor leaves, with no event and with the length of the instruction. -/
structure VtCrExit where
  vmcs : VtHostVmcs
  quiet : vmcs.Quiet
  skips : vmcs.advancedRip ≠ vmcs.vmread (.guest .rip)
  event : VtCrEvent

/-- The processor that the hypervisor runs on: what it fixes in the control registers, of which VMXE is
one, and the states that it enters the guest with. -/
structure VtCrHost where
  fixed : VmxFixedBits
  vmxe_fixed : (fixed.cr4Fixed0 &&& fixed.cr4Fixed1).testBit cr4Vmxe = true
  enters : VtHostVmcs → Bool

/-- A register as the guest reads it: the bits of the mask are those of the shadow. -/
def guestVisible (mask field shadow : Nat) : Nat := field ^^^ ((field ^^^ shadow) &&& mask)

/-- What a write of CR0 or CR4 is about. -/
structure ControlWrite where
  cr4 : Bool
  data : Nat

namespace VtCrVcpu

variable (h : VtCrHost) (v : VtCrVcpu) (e : VtCrExit)

def exited : VtCrVcpu := { v with vmcs := e.vmcs }

def handle : VtCrVcpu :=
  match e.event with
  | .crAccess qualification gprState => (v.exited e).nvcVtCrAccessHandler qualification gprState
  | .init => (v.exited e).nvcVtInitHandler h.fixed
  | .vmxon accepts => (v.exited e).nvcVtVmxonHandler accepts
  | .vmxoff => (v.exited e).nvcVtVmxoffHandler

def next : VtCrVcpu :=
  let v := v.handle h e
  if h.enters v.vmcs then v else v.nvcVtInvalidGuestState

/-- The write that an exit is for, with the operand that the guest has. -/
def controlWrite : Option ControlWrite :=
  match e.event with
  | .crAccess qualification gprState =>
    match controlAccess qualification with
    | .write 0 gpr => some ⟨false, (v.exited e).operand gprState gpr⟩
    | .write 4 gpr => some ⟨true, (v.exited e).operand gprState gpr⟩
    | _ => none
  | _ => none

def visibleCr0 : Nat :=
  guestVisible cr0GuestHostMask (v.vmread (.guest .cr0)) (v.vmread .cr0ReadShadow)

def visibleCr4 : Nat :=
  guestVisible cr4GuestHostMask (v.vmread (.guest .cr4)) (v.vmread .cr4ReadShadow)

/-- The fault is pending, and everything else is as it was. -/
structure Refused (before after : VtCrVcpu) : Prop where
  raises : after.vmcs.RaisesGp
  kept : ∀ f ∈ [.guest .cr0, .guest .cr4, .cr0ReadShadow, .cr4ReadShadow, .guest .efer,
    .vmentryControls, .guest .rip], after.vmread f = before.vmread f
  vmxe : after.vmxe = before.vmxe

structure Written (write : ControlWrite) (before after : VtCrVcpu) : Prop where
  quiet : after.vmcs.Quiet
  rip : after.vmread (.guest .rip) = before.vmcs.advancedRip
  visible : (if write.cr4 then after.visibleCr4 else after.visibleCr0) = write.data
  ia32eMode : (after.vmread .vmentryControls).testBit entryIa32eModeGuest =
    (after.vmread (.guest .efer)).testBit eferLma
  lma : (after.vmread (.guest .efer)).testBit eferLma =
    ((after.vmread (.guest .efer)).testBit eferLme && (after.vmread (.guest .cr0)).testBit cr0Pg)
  hardwareVmxe : (after.vmread (.guest .cr4)).testBit cr4Vmxe = true
  vmxe : write.cr4 = true → after.vmxe = write.data.testBit cr4Vmxe

/-- A write ends in exactly one of the two, and is undone if the guest cannot be entered after it. -/
def Behaves : Prop :=
  ∀ write, v.controlWrite e = some write →
    Xor (Refused (v.exited e) (v.handle h e)) (Written write (v.exited e) (v.handle h e)) ∧
      (h.enters (v.handle h e).vmcs = false →
        Refused (v.exited e) (v.handle h e).nvcVtInvalidGuestState)

/-- The state that a write asks for. -/
def completed (write : ControlWrite) : VtHostVmcs :=
  let vmcs := v.vmcs
  if write.cr4 then
    ((vmcs.vmwrite (.guest .cr4) (write.data ||| cr4VmxeBit)).vmwrite .cr4ReadShadow
      write.data).noirVtAdvanceRip
  else
    let lma := (vmcs.vmread (.guest .efer)).testBit eferLme && write.data.testBit cr0Pg
    let vmcs := vmcs.vmwrite (.guest .efer) (setBit (vmcs.vmread (.guest .efer)) eferLma lma)
    let vmcs := vmcs.vmwrite .vmentryControls
      (setBit (vmcs.vmread .vmentryControls) entryIa32eModeGuest lma)
    ((vmcs.vmwrite (.guest .cr0) write.data).vmwrite .cr0ReadShadow write.data).noirVtAdvanceRip

/-- VMX is not disabled while it is on, and the processor takes the value. -/
def Takes : Prop :=
  ∀ write, v.controlWrite e = some write →
    (write.cr4 = true → v.vmxon = true → write.data.testBit cr4Vmxe = true) ∧
      h.enters ((v.exited e).completed write) = true

/-- What happens between two of the exits. The guest changes EFER.LME without paging alone, and no bit
that is watched. -/
structure Ran (before after : VtHostVmcs) : Prop where
  pg : (after.vmread (.guest .cr0)).testBit cr0Pg = (before.vmread (.guest .cr0)).testBit cr0Pg
  vmxe : (after.vmread (.guest .cr4)).testBit cr4Vmxe = (before.vmread (.guest .cr4)).testBit cr4Vmxe
  lma : (after.vmread (.guest .efer)).testBit eferLma = (before.vmread (.guest .efer)).testBit eferLma
  lme : (before.vmread (.guest .cr0)).testBit cr0Pg = true →
    (after.vmread (.guest .efer)).testBit eferLme = (before.vmread (.guest .efer)).testBit eferLme
  controls : after.vmread .vmentryControls = before.vmread .vmentryControls

/-- The places that the paging mode and VMXE are kept in agree, and there is no record. -/
structure Coherent : Prop where
  ia32eMode : (v.vmread .vmentryControls).testBit entryIa32eModeGuest =
    (v.vmread (.guest .efer)).testBit eferLma
  lma : (v.vmread (.guest .efer)).testBit eferLma =
    ((v.vmread (.guest .efer)).testBit eferLme && (v.vmread (.guest .cr0)).testBit cr0Pg)
  vmxe : (v.vmread (.guest .cr4)).testBit cr4Vmxe = true
  fallback : v.fallback.valid = false

/-- The processor state that is subverted. It runs in long mode, with VMX. -/
structure Subverted where
  vmcs : VtHostVmcs
  controls : Nat
  cr0 : Nat
  cr4 : Nat
  efer : Nat
  pg : cr0.testBit cr0Pg = true
  vmxe : cr4.testBit cr4Vmxe = true
  lme : efer.testBit eferLme = true
  lma : efer.testBit eferLma = true

/-- `nvc_vt_setup_guest_state_area` and `nvc_vt_setup_vmentry_controls`. The vCPU was zeroed. -/
def start (p : Subverted) (vpidTaggedTlb : Bool) : VtCrVcpu :=
  let vmcs := (p.vmcs.vmwrite (.guest .cr0) p.cr0).vmwrite (.guest .cr4) p.cr4
  let vmcs := (vmcs.vmwrite .cr0ReadShadow p.cr0).vmwrite .cr4ReadShadow
    (resetBits p.cr4 cr4VmxeBit)
  let vmcs := (vmcs.vmwrite (.guest .efer) p.efer).vmwrite .vmentryControls
    (setBit p.controls entryIa32eModeGuest true)
  { vmcs, vmxe := false, vmxon := false, mtrrDirty := false, vpidTaggedTlb
    fallback := ⟨false, .guest .cr0, 0, 0, 0, 0⟩
    eptUpdates := 0, invvpids := 0 }

end VtCrVcpu

section Bits

variable {value n data : Nat} {b : Bool}

theorem setBit_of_testBit (h : value.testBit n = b) : setBit value n b = value := by
  apply Nat.eq_of_testBit_eq
  intro i
  rw [testBit_setBit]
  split
  · next hi => rw [hi, h]
  · rfl

theorem noirBts_eq_setBit : noirBts value n = setBit value n true := by
  apply Nat.eq_of_testBit_eq
  intro i
  rw [testBit_setBit, noirBts_testBit]
  by_cases hi : i = n <;> simp [hi]

theorem noirBtr_eq_setBit : noirBtr value n = setBit value n false := by
  rw [setBit, resetBits, noirBtr, Bool.toNat_false, Nat.zero_mul, Nat.add_zero]

theorem testBit_xor_eq_false (h : (value ^^^ data).testBit n = false) :
    value.testBit n = data.testBit n := by
  simpa using h

theorem guestVisible_self {mask : Nat} : guestVisible mask data data = data := by
  rw [guestVisible, Nat.xor_self, Nat.zero_and, Nat.xor_zero]

/-- VMXE is set behind the shadow. -/
theorem guestVisible_cr4 : guestVisible cr4GuestHostMask (data ||| cr4VmxeBit) data = data := by
  have hbit : cr4VmxeBit = 2 ^ 13 := rfl
  apply Nat.eq_of_testBit_eq
  intro i
  rw [guestVisible, cr4GuestHostMask, hbit, Nat.testBit_xor, Nat.testBit_and, Nat.testBit_xor,
    Nat.testBit_or, Nat.testBit_two_pow]
  by_cases hi : 13 = i
  · simp [hi]
  · simp [hi]

theorem testBit_or_cr4VmxeBit : (data ||| cr4VmxeBit).testBit cr4Vmxe = true := by
  have hbit : cr4VmxeBit = 2 ^ cr4Vmxe := rfl
  rw [hbit, Nat.testBit_or, Nat.testBit_two_pow_self, Bool.or_true]

end Bits

namespace VtCrVcpu

variable {h : VtCrHost} {v : VtCrVcpu} {e : VtCrExit} {write : ControlWrite} {data : Nat}

/-- What the guest may change keeps what agrees. -/
theorem Coherent.exited (hv : v.Coherent) (hran : Ran v.vmcs e.vmcs) : (v.exited e).Coherent where
  ia32eMode := by
    have hmode := hv.ia32eMode
    unfold vmread VtCrVcpu.exited at *
    rw [hran.controls, hran.lma]
    exact hmode
  lma := by
    have hlma := hv.lma
    unfold vmread VtCrVcpu.exited at *
    rw [hran.lma, hran.pg, hlma]
    cases hpg : (v.vmcs.vmread (.guest .cr0)).testBit cr0Pg with
    | false => rw [Bool.and_false, Bool.and_false]
    | true => rw [hran.lme hpg]
  vmxe := hran.vmxe.trans hv.vmxe
  fallback := hv.fallback

theorem vmcs_writeCr0Cd : (v.writeCr0Cd data).vmcs = v.vmcs := by
  unfold writeCr0Cd
  dsimp only
  split <;> rfl

/-- If the paging mode stays, it is where it was. -/
theorem vmcs_writeCr0Pg (hv : v.Coherent) :
    (v.writeCr0Pg data).vmcs =
      let lma := (v.vmread (.guest .efer)).testBit eferLme && data.testBit cr0Pg
      let vmcs := v.vmcs.vmwrite (.guest .efer) (setBit (v.vmread (.guest .efer)) eferLma lma)
      vmcs.vmwrite .vmentryControls
        (setBit (vmcs.vmread .vmentryControls) entryIa32eModeGuest lma) := by
  dsimp only
  generalize hlma : ((v.vmread (.guest .efer)).testBit eferLme && data.testBit cr0Pg) = lma
  have hgefer : (if (v.vmread (.guest .efer)).testBit eferLme && data.testBit cr0Pg then
      noirBts (v.vmread (.guest .efer)) eferLma else noirBtr (v.vmread (.guest .efer)) eferLma) =
        setBit (v.vmread (.guest .efer)) eferLma lma := by
    rw [hlma, noirBts_eq_setBit, noirBtr_eq_setBit]
    cases lma <;> rfl
  unfold writeCr0Pg
  dsimp only
  rw [hgefer, testBit_setBit, if_pos rfl]
  split
  · rfl
  · next hkept =>
      have hpg : (v.vmread (.guest .cr0)).testBit cr0Pg = data.testBit cr0Pg :=
        testBit_xor_eq_false (Bool.eq_false_iff.mpr hkept)
      have hefer : (v.vmread (.guest .efer)).testBit eferLma = lma := by
        rw [hv.lma, hpg, hlma]
      have hcontrols : (v.vmread .vmentryControls).testBit entryIa32eModeGuest = lma :=
        hv.ia32eMode.trans hefer
      rw [setBit_of_testBit hefer]
      have hsame : v.vmcs.vmwrite (.guest .efer) (v.vmread (.guest .efer)) = v.vmcs :=
        VtHostVmcs.vmwrite_of_eq rfl
      rw [hsame]
      have hcontrols' : setBit (v.vmcs.vmread .vmentryControls) entryIa32eModeGuest lma =
          v.vmcs.vmread .vmentryControls := setBit_of_testBit hcontrols
      rw [hcontrols', VtHostVmcs.vmwrite_of_eq rfl]

theorem coherent_writeCr0Cd (hv : v.Coherent) : (v.writeCr0Cd data).Coherent := by
  unfold writeCr0Cd
  dsimp only
  split
  · exact ⟨hv.ia32eMode, hv.lma, hv.vmxe, hv.fallback⟩
  · exact hv

theorem vmcs_writeCr0 (hv : v.Coherent) :
    (v.writeCr0 data).advanceRip.vmcs = v.completed ⟨false, data⟩ := by
  have hcd : (v.writeCr0Cd data).vmcs = v.vmcs := vmcs_writeCr0Cd
  have hcoherent : (v.writeCr0Cd data).Coherent := coherent_writeCr0Cd hv
  have hpg : ((v.writeCr0Cd data).writeCr0Pg data).vmcs = _ := vmcs_writeCr0Pg hcoherent
  unfold vmread at hpg
  rw [hcd] at hpg
  unfold writeCr0 advanceRip recordFault vmwrite completed
  dsimp only at hpg ⊢
  rw [hpg, if_neg Bool.false_ne_true]

/-- VMX is disabled unless it is on. -/
theorem vmcs_writeCr4 (hoff : v.vmxon = true → data.testBit cr4Vmxe = true) :
    (v.writeCr4 data).advanceRip.vmcs = v.completed ⟨true, data⟩ ∧
      (v.writeCr4 data).advanceRip.vmxe = data.testBit cr4Vmxe := by
  unfold writeCr4 writeCr4Vmxe
  cases hvmxe : data.testBit cr4Vmxe with
  | true => exact ⟨rfl, rfl⟩
  | false =>
      cases hvmxon : v.vmxon with
      | true => exact absurd (hvmxe.symm.trans (hoff hvmxon)) Bool.false_ne_true
      | false => exact ⟨rfl, rfl⟩

/-- The fault is injected, and the register written all the same. -/
theorem writeCr4_of_vmxon (hon : v.vmxon = true) (hvmxe : data.testBit cr4Vmxe = false) :
    ¬(v.writeCr4 data).advanceRip.vmcs.Quiet ∧
      (v.writeCr4 data).advanceRip.vmread (.guest .rip) = v.vmcs.advancedRip := by
  have hvmcs : (v.writeCr4 data).advanceRip.vmcs =
      ((v.vmcs.injectGp.vmwrite (.guest .cr4) (data ||| cr4VmxeBit)).vmwrite .cr4ReadShadow
        data).noirVtAdvanceRip := by
    unfold writeCr4 writeCr4Vmxe
    rw [hvmxe, hon]
    rfl
  constructor
  · rw [hvmcs, VtHostVmcs.quiet_noirVtAdvanceRip, VtHostVmcs.quiet_vmwrite (f := .cr4ReadShadow) nofun,
      VtHostVmcs.quiet_vmwrite (f := .guest .cr4) nofun]
    exact VtHostVmcs.raisesGp_injectGp.not_quiet
  · unfold vmread
    rw [hvmcs, VtHostVmcs.vmread_rip_noirVtAdvanceRip]
    rfl

/-- Only the fields of the write and the instruction pointer change. -/
theorem vmread_completed_cr0 {f : VmcsField} (hrip : f ≠ .guest .rip)
    (hstate : f ≠ .guestInterruptibilityState) :
    (v.completed ⟨false, data⟩).vmread f =
      if f = .cr0ReadShadow ∨ f = .guest .cr0 then data
      else if f = .vmentryControls then
        setBit (v.vmread .vmentryControls) entryIa32eModeGuest
          ((v.vmread (.guest .efer)).testBit eferLme && data.testBit cr0Pg)
      else if f = .guest .efer then
        setBit (v.vmread (.guest .efer)) eferLma
          ((v.vmread (.guest .efer)).testBit eferLme && data.testBit cr0Pg)
      else v.vmread f := by
  unfold completed
  dsimp only
  rw [if_neg Bool.false_ne_true, VtHostVmcs.vmread_noirVtAdvanceRip hrip hstate]
  simp only [VtHostVmcs.vmread, VtHostVmcs.vmwrite, Function.update_apply, vmread]
  split_ifs <;> simp_all

theorem vmread_completed_cr4 {f : VmcsField} (hrip : f ≠ .guest .rip)
    (hstate : f ≠ .guestInterruptibilityState) :
    (v.completed ⟨true, data⟩).vmread f =
      if f = .cr4ReadShadow then data
      else if f = .guest .cr4 then data ||| cr4VmxeBit
      else v.vmread f := by
  unfold completed
  dsimp only
  rw [if_pos rfl, VtHostVmcs.vmread_noirVtAdvanceRip hrip hstate]
  simp only [VtHostVmcs.vmread, VtHostVmcs.vmwrite, Function.update_apply, vmread]

theorem quiet_completed (hquiet : v.vmcs.Quiet) : (v.completed write).Quiet := by
  unfold completed
  dsimp only
  split
  · rw [VtHostVmcs.quiet_noirVtAdvanceRip, VtHostVmcs.quiet_vmwrite (f := .cr4ReadShadow) nofun,
      VtHostVmcs.quiet_vmwrite (f := .guest .cr4) nofun]
    exact hquiet
  · rw [VtHostVmcs.quiet_noirVtAdvanceRip, VtHostVmcs.quiet_vmwrite (f := .cr0ReadShadow) nofun,
      VtHostVmcs.quiet_vmwrite (f := .guest .cr0) nofun,
      VtHostVmcs.quiet_vmwrite (f := .vmentryControls) nofun,
      VtHostVmcs.quiet_vmwrite (f := .guest .efer) nofun]
    exact hquiet

theorem rip_completed :
    (v.completed write).vmread (.guest .rip) = v.vmcs.advancedRip := by
  unfold completed
  dsimp only
  split
  · rw [VtHostVmcs.vmread_rip_noirVtAdvanceRip]
    rfl
  · rw [VtHostVmcs.vmread_rip_noirVtAdvanceRip]
    rfl

/-- What is completed is as a write should leave it. -/
theorem written_of_completed {w : VtCrVcpu} (hv : v.Coherent) (hquiet : v.vmcs.Quiet)
    (hvmcs : w.vmcs = v.completed write)
    (hvmxe : write.cr4 = true → w.vmxe = write.data.testBit cr4Vmxe) : Written write v w := by
  have hread (f : VmcsField) : w.vmread f = (v.completed write).vmread f := by
    unfold vmread
    rw [hvmcs]
  obtain ⟨cr4, data⟩ := write
  have hquiet' : w.vmcs.Quiet := hvmcs ▸ quiet_completed hquiet
  have hrip : w.vmread (.guest .rip) = v.vmcs.advancedRip := (hread _).trans rip_completed
  cases cr4 with
  | true =>
      have hfield (f : VmcsField) (hrip : f ≠ .guest .rip)
          (hstate : f ≠ .guestInterruptibilityState) : w.vmread f = _ :=
        (hread f).trans (vmread_completed_cr4 hrip hstate)
      have hcr4 : w.vmread (.guest .cr4) = data ||| cr4VmxeBit := by
        simpa using hfield (.guest .cr4) nofun nofun
      have hshadow : w.vmread .cr4ReadShadow = data := by
        simpa using hfield .cr4ReadShadow nofun nofun
      have hefer : w.vmread (.guest .efer) = v.vmread (.guest .efer) := by
        simpa using hfield (.guest .efer) nofun nofun
      have hcontrols : w.vmread .vmentryControls = v.vmread .vmentryControls := by
        simpa using hfield .vmentryControls nofun nofun
      have hcr0 : w.vmread (.guest .cr0) = v.vmread (.guest .cr0) := by
        simpa using hfield (.guest .cr0) nofun nofun
      refine ⟨hquiet', hrip, ?_, ?_, ?_, ?_, hvmxe⟩
      · rw [if_pos rfl, visibleCr4, hcr4, hshadow, guestVisible_cr4]
      · rw [hcontrols, hefer, hv.ia32eMode]
      · rw [hefer, hcr0, hv.lma]
      · rw [hcr4, testBit_or_cr4VmxeBit]
  | false =>
      have hfield (f : VmcsField) (hrip : f ≠ .guest .rip)
          (hstate : f ≠ .guestInterruptibilityState) : w.vmread f = _ :=
        (hread f).trans (vmread_completed_cr0 hrip hstate)
      have hcr0 : w.vmread (.guest .cr0) = data := by
        simpa using hfield (.guest .cr0) nofun nofun
      have hshadow : w.vmread .cr0ReadShadow = data := by
        simpa using hfield .cr0ReadShadow nofun nofun
      have hefer : w.vmread (.guest .efer) = setBit (v.vmread (.guest .efer)) eferLma
          ((v.vmread (.guest .efer)).testBit eferLme && data.testBit cr0Pg) := by
        simpa using hfield (.guest .efer) nofun nofun
      have hcontrols : w.vmread .vmentryControls =
          setBit (v.vmread .vmentryControls) entryIa32eModeGuest
            ((v.vmread (.guest .efer)).testBit eferLme && data.testBit cr0Pg) := by
        simpa using hfield .vmentryControls nofun nofun
      have hcr4 : w.vmread (.guest .cr4) = v.vmread (.guest .cr4) := by
        simpa using hfield (.guest .cr4) nofun nofun
      have hlme : eferLme ≠ eferLma := by decide
      refine ⟨hquiet', hrip, ?_, ?_, ?_, ?_, hvmxe⟩
      · rw [if_neg Bool.false_ne_true, visibleCr0, hcr0, hshadow, guestVisible_self]
      · rw [hcontrols, hefer, testBit_setBit, testBit_setBit, if_pos rfl, if_pos rfl]
      · rw [hefer, hcr0, testBit_setBit, testBit_setBit, if_pos rfl, if_neg hlme]
      · rw [hcr4, hv.vmxe]

theorem Written.coherent {w : VtCrVcpu} (hw : Written write v w)
    (hvalid : w.fallback.valid = false) : w.Coherent := ⟨hw.ia32eMode, hw.lma, hw.hardwareVmxe, hvalid⟩

/-- No handler makes a record. -/
theorem fallback_writeCr0 : (v.writeCr0 data).fallback.valid = v.fallback.valid := by
  have hcd : (v.writeCr0Cd data).fallback = v.fallback := by
    unfold writeCr0Cd
    dsimp only
    split <;> rfl
  have hpg (v : VtCrVcpu) : (v.writeCr0Pg data).fallback = v.fallback := by
    unfold writeCr0Pg
    dsimp only
    split <;> rfl
  change ((v.writeCr0Cd data).writeCr0Pg data).fallback.valid = _
  rw [hpg, hcd]

theorem fallback_writeCr4 : (v.writeCr4 data).fallback.valid = v.fallback.valid := by
  have hvmxe : (v.writeCr4Vmxe data).fallback = v.fallback := by
    unfold writeCr4Vmxe
    split_ifs <;> rfl
  change (v.writeCr4Vmxe data).fallback.valid = _
  rw [hvmxe]

theorem nvcVtInvalidGuestState_of_not_valid (hvalid : v.fallback.valid = false) :
    v.nvcVtInvalidGuestState = v := by
  rw [nvcVtInvalidGuestState, if_neg (by rw [hvalid]; exact Bool.false_ne_true)]

theorem handle_of_write (hwrite : v.controlWrite e = some write) :
    v.handle h e = (if write.cr4 then (v.exited e).writeCr4 write.data
      else (v.exited e).writeCr0 write.data).advanceRip := by
  unfold controlWrite at hwrite
  unfold handle
  cases hevent : e.event with
  | crAccess qualification gprState =>
      rw [hevent] at hwrite
      dsimp only at hwrite ⊢
      unfold nvcVtCrAccessHandler
      split at hwrite
      · obtain rfl := Option.some.inj hwrite
        rfl
      · obtain rfl := Option.some.inj hwrite
        rfl
      · cases hwrite
  | init => rw [hevent] at hwrite; cases hwrite
  | vmxon accepts => rw [hevent] at hwrite; cases hwrite
  | vmxoff => rw [hevent] at hwrite; cases hwrite

theorem fallback_handle_of_write (hwrite : v.controlWrite e = some write) :
    (v.handle h e).fallback.valid = v.fallback.valid := by
  rw [handle_of_write hwrite]
  split
  · exact fallback_writeCr4
  · exact fallback_writeCr0

/-- A write that does not disable VMX while it is on is completed. -/
theorem written_handle (hv : (v.exited e).Coherent) (hwrite : v.controlWrite e = some write)
    (hoff : write.cr4 = true → v.vmxon = true → write.data.testBit cr4Vmxe = true) :
    (v.handle h e).vmcs = (v.exited e).completed write ∧
      Written write (v.exited e) (v.handle h e) := by
  have hquiet : (v.exited e).vmcs.Quiet := e.quiet
  rw [handle_of_write hwrite]
  obtain ⟨cr4, data⟩ := write
  cases cr4 with
  | true =>
      obtain ⟨hvmcs, hvmxe⟩ := vmcs_writeCr4 (v := v.exited e) (hoff rfl)
      exact ⟨hvmcs, written_of_completed hv hquiet hvmcs fun _ => hvmxe⟩
  | false =>
      have hvmcs : ((v.exited e).writeCr0 data).advanceRip.vmcs = _ := vmcs_writeCr0 hv
      exact ⟨hvmcs, written_of_completed hv hquiet hvmcs nofun⟩

/-- The instruction is skipped although the fault is pending. -/
theorem not_behaves_of_vmxon (hwrite : v.controlWrite e = some write) (hcr4 : write.cr4 = true)
    (hon : v.vmxon = true) (hvmxe : write.data.testBit cr4Vmxe = false) : ¬v.Behaves h e := by
  intro hbehaves
  have hhandle : v.handle h e = ((v.exited e).writeCr4 write.data).advanceRip := by
    rw [handle_of_write hwrite, if_pos hcr4]
  obtain ⟨hquiet, hrip⟩ := writeCr4_of_vmxon (v := v.exited e) hon hvmxe
  rw [← hhandle] at hquiet hrip
  rcases (hbehaves write hwrite).1 with ⟨hrefused, -⟩ | ⟨hwritten, -⟩
  · have hkept := hrefused.kept (.guest .rip) (by simp)
    exact e.skips (hrip.symm.trans hkept)
  · exact hquiet hwritten.quiet

theorem behaves_iff (hv : (v.exited e).Coherent) : v.Behaves h e ↔ v.Takes h e := by
  constructor
  · intro hbehaves write hwrite
    have hoff : write.cr4 = true → v.vmxon = true → write.data.testBit cr4Vmxe = true := by
      intro hcr4 hon
      by_contra hvmxe
      exact not_behaves_of_vmxon hwrite hcr4 hon (Bool.eq_false_iff.mpr hvmxe) hbehaves
    refine ⟨hoff, ?_⟩
    obtain ⟨hvmcs, hwritten⟩ := written_handle (h := h) hv hwrite hoff
    by_contra henters
    rw [← hvmcs] at henters
    have hvalid : (v.handle h e).fallback.valid = false :=
      (fallback_handle_of_write hwrite).trans hv.fallback
    have hrefused := (hbehaves write hwrite).2 (Bool.eq_false_iff.mpr henters)
    rw [nvcVtInvalidGuestState_of_not_valid hvalid] at hrefused
    exact hrefused.raises.not_quiet hwritten.quiet
  · intro htakes write hwrite
    obtain ⟨hoff, henters⟩ := htakes write hwrite
    obtain ⟨hvmcs, hwritten⟩ := written_handle (h := h) hv hwrite hoff
    refine ⟨.inr ⟨hwritten, fun hrefused => hrefused.raises.not_quiet hwritten.quiet⟩, ?_⟩
    intro hfails
    rw [hvmcs, henters] at hfails
    exact absurd hfails.symm Bool.false_ne_true

theorem Coherent.advanceRip (hv : v.Coherent) : v.advanceRip.Coherent := by
  have hread (f : VmcsField) (hrip : f ≠ .guest .rip) (hstate : f ≠ .guestInterruptibilityState) :
      v.advanceRip.vmread f = v.vmread f := VtHostVmcs.vmread_noirVtAdvanceRip hrip hstate
  have hefer : v.advanceRip.vmread (.guest .efer) = v.vmread (.guest .efer) := hread _ nofun nofun
  refine ⟨?_, ?_, ?_, hv.fallback⟩
  · rw [hread .vmentryControls nofun nofun, hefer, hv.ia32eMode]
  · rw [hread (.guest .cr0) nofun nofun, hefer, hv.lma]
  · rw [hread (.guest .cr4) nofun nofun, hv.vmxe]

/-- An INIT signal clears the paging mode in every place, and VMXE is among the bits that are fixed. -/
theorem coherent_nvcVtInitHandler (hvalid : v.fallback.valid = false) :
    (v.nvcVtInitHandler h.fixed).Coherent := by
  refine ⟨?_, ?_, ?_, hvalid⟩
  · have hcontrols : (v.nvcVtInitHandler h.fixed).vmread .vmentryControls =
        setBit (v.vmread .vmentryControls) entryIa32eModeGuest false := rfl
    have hefer : (v.nvcVtInitHandler h.fixed).vmread (.guest .efer) = 0 := rfl
    rw [hcontrols, hefer, testBit_setBit, if_pos rfl, Nat.zero_testBit]
  · have hefer : (v.nvcVtInitHandler h.fixed).vmread (.guest .efer) = 0 := rfl
    rw [hefer, Nat.zero_testBit, Nat.zero_testBit, Bool.false_and]
  · exact h.vmxe_fixed

/-- The other exits keep the registers, or clear them together. -/
theorem coherent_handle_of_other (hv : (v.exited e).Coherent) (hother : v.controlWrite e = none) :
    (v.handle h e).Coherent := by
  unfold controlWrite at hother
  unfold handle
  cases hevent : e.event with
  | crAccess qualification gprState =>
      rw [hevent] at hother
      dsimp only at hother ⊢
      unfold nvcVtCrAccessHandler
      split at hother
      · cases hother
      · cases hother
      · exact hv.advanceRip
  | init => exact coherent_nvcVtInitHandler hv.fallback
  | vmxon accepts =>
      dsimp only
      unfold nvcVtVmxonHandler
      split
      · exact ⟨hv.ia32eMode, hv.lma, hv.vmxe, hv.fallback⟩
      · exact hv
  | vmxoff => exact ⟨hv.ia32eMode, hv.lma, hv.vmxe, hv.fallback⟩

theorem coherent_next (hv : (v.exited e).Coherent) (htakes : v.Takes h e) : (v.next h e).Coherent := by
  have hhandle : (v.handle h e).Coherent := by
    cases hwrite : v.controlWrite e with
    | none => exact coherent_handle_of_other hv hwrite
    | some write =>
        have hwritten := (written_handle (h := h) hv hwrite (htakes write hwrite).1).2
        exact hwritten.coherent ((fallback_handle_of_write hwrite).trans hv.fallback)
  unfold next
  dsimp only
  split
  · exact hhandle
  · rw [nvcVtInvalidGuestState_of_not_valid hhandle.fallback]
    exact hhandle

theorem coherent_start {p : Subverted} {vpidTaggedTlb : Bool} : (start p vpidTaggedTlb).Coherent := by
  have hefer : (start p vpidTaggedTlb).vmread (.guest .efer) = p.efer := rfl
  have hcr0 : (start p vpidTaggedTlb).vmread (.guest .cr0) = p.cr0 := rfl
  have hcontrols : (start p vpidTaggedTlb).vmread .vmentryControls =
      setBit p.controls entryIa32eModeGuest true := rfl
  refine ⟨?_, ?_, p.vmxe, rfl⟩
  · rw [hcontrols, hefer, testBit_setBit, if_pos rfl, p.lma]
  · rw [hefer, hcr0, p.lma, p.lme, p.pg, Bool.true_and]

theorem Coherent.along_takes_iff {h : VtCrHost} {v : VtCrVcpu} {exits : List VtCrExit} (hv : v.Coherent)
    (hruns : Along (fun v e => Ran v.vmcs e.vmcs) (next h) v exits) :
    Along (Behaves h) (next h) v exits ↔ Along (Takes h) (next h) v exits :=
  along_iff (fun _ _ hv hran => behaves_iff (hv.exited hran))
    (fun _ _ hv hran htakes => coherent_next (hv.exited hran) htakes) hv hruns

/-- Long mode, with VMX. -/
def longMode : Subverted where
  vmcs := ⟨fun _ => 0, 0, 3⟩
  controls := 0
  cr0 := 2 ^ 31
  cr4 := 2 ^ 13
  efer := 2 ^ 8 + 2 ^ 10
  pg := by decide
  vmxe := by decide
  lme := by decide
  lma := by decide

/-- A processor that knows the lower bits of CR4. -/
def smallHost : VtCrHost where
  fixed := ⟨0, 0, 2 ^ 13, 2 ^ 13⟩
  vmxe_fixed := by decide
  enters vmcs := decide (vmcs.vmread (.guest .cr4) < 2 ^ 23)

/-- `mov cr4,rax` -/
def cr4Exit (data : Nat) : VtCrExit where
  vmcs := (start longMode false).vmcs
  quiet := by decide
  skips := by decide
  event := .crAccess 4 fun _ => data

theorem controlWrite_cr4Exit {data : Nat} :
    (start longMode false).controlWrite (cr4Exit data) = some ⟨true, data⟩ := rfl

theorem ran_cr4Exit {data : Nat} : Along (fun v e => Ran v.vmcs e.vmcs) (next smallHost)
    (start longMode false) [cr4Exit data] := ⟨⟨rfl, rfl, rfl, fun _ => rfl, rfl⟩, trivial⟩

end VtCrVcpu

end NoirVisor
