import NoirVisor.Cvm.SvmCvexit
import NoirVisor.Cvm.VtEvents

/-!
# The subverted host on VT

What the handlers of the exits of the host do to its VMCS: an instruction is skipped, or an exception is
injected (`vt_core/vt_exit.h`).
-/

namespace NoirVisor

/-- The VMCS of the host, with the fields of an exit that a customizable VM has elsewhere. -/
structure VtHostVmcs where
  vmcs : Vmcs
  pendingDebugExceptions : Nat
  instructionLength : Nat

namespace VtHostVmcs

variable (v : VtHostVmcs)

def vmread (f : VmcsField) : Nat := v.vmcs f

def vmwrite (f : VmcsField) (value : Nat) : VtHostVmcs :=
  { v with vmcs := Function.update v.vmcs f value }

def noirVtSetSingleStepping : VtHostVmcs :=
  { v with pendingDebugExceptions := setBit v.pendingDebugExceptions 14 true }.vmwrite
    .guestInterruptibilityState
    (setBit (setBit (v.vmread .guestInterruptibilityState) 0 false) 1 false)

/-- Out of long mode the upper half is cut off. -/
def advancedRip : Nat :=
  let gip := (v.vmread (.guest .rip) + v.instructionLength) % 2 ^ 64
  if (v.vmread (.guest (.seg .cs .attrib))).testBit 13 then gip else gip % 2 ^ 32

def noirVtAdvanceRip : VtHostVmcs :=
  let stepped := if (v.vmread (.guest .rflags)).testBit rflagsTf then v.noirVtSetSingleStepping else v
  stepped.vmwrite (.guest .rip) v.advancedRip

def noirVtInjectEvent (vector type : Nat) (deliver : Bool) (length errCode : Nat) : VtHostVmcs :=
  { v with vmcs := vtInjectEvent vector type deliver length errCode v.vmcs }

def injectGp : VtHostVmcs := v.noirVtInjectEvent generalProtection ia32HardwareExceptionType true 0 0

def event : Nat := v.vmread .vmentryInterruptionInformationField

/-- An exit leaves no event that is valid. -/
def Quiet : Prop := v.event.testBit 31 = false

instance : Decidable v.Quiet := inferInstanceAs (Decidable (_ = _))

def RaisesGp : Prop :=
  v.event = interruptionInformation generalProtection ia32HardwareExceptionType true ∧
    v.vmread .vmentryExceptionErrorCode = 0

variable {v} {f : VmcsField} {value : Nat}

@[simp]
theorem vmread_vmwrite_self : (v.vmwrite f value).vmread f = value := Function.update_self _ _ _

theorem vmread_vmwrite {f' : VmcsField} (h : f' ≠ f) : (v.vmwrite f value).vmread f' = v.vmread f' :=
  Function.update_of_ne h _ _

theorem quiet_vmwrite (h : f ≠ .vmentryInterruptionInformationField) :
    (v.vmwrite f value).Quiet ↔ v.Quiet := by
  unfold Quiet event
  rw [vmread_vmwrite h.symm]

theorem RaisesGp.not_quiet (h : v.RaisesGp) : ¬v.Quiet := by
  unfold Quiet
  rw [h.1, information_valid]
  exact Bool.noConfusion

theorem event_noirVtInjectEvent {vector type length errCode : Nat} {deliver : Bool} :
    (v.noirVtInjectEvent vector type deliver length errCode).event =
      interruptionInformation vector type deliver := by
  have hfield : vtInjectEvent vector type deliver length errCode v.vmcs
      .vmentryInterruptionInformationField = interruptionInformation vector type deliver :=
    vtInjectEvent_information
  exact hfield

theorem errorCode_noirVtInjectEvent {vector type length errCode : Nat} :
    (v.noirVtInjectEvent vector type true length errCode).vmread .vmentryExceptionErrorCode =
      errCode := by
  have hother : VmcsField.vmentryExceptionErrorCode ≠ .vmentryInstructionLength := nofun
  unfold noirVtInjectEvent vtInjectEvent vmread
  dsimp only
  rw [Function.update_of_ne hother, if_pos rfl, Function.update_self]

@[simp]
theorem raisesGp_injectGp : v.injectGp.RaisesGp :=
  ⟨event_noirVtInjectEvent, errorCode_noirVtInjectEvent⟩

@[simp]
theorem vmread_guest_injectGp {r : Register} : v.injectGp.vmread (.guest r) = v.vmread (.guest r) := rfl

@[simp]
theorem advancedRip_injectGp : v.injectGp.advancedRip = v.advancedRip := rfl

@[simp]
theorem vmread_rip_noirVtAdvanceRip : v.noirVtAdvanceRip.vmread (.guest .rip) = v.advancedRip :=
  vmread_vmwrite_self

/-- A field that has the value already. -/
theorem vmwrite_of_eq (h : v.vmread f = value) : v.vmwrite f value = v := by
  unfold vmwrite
  rw [← h]
  unfold vmread
  rw [Function.update_eq_self]

/-- Nothing is written but the instruction pointer, and what a single step is told by. -/
theorem vmread_noirVtAdvanceRip (hrip : f ≠ .guest .rip) (hstate : f ≠ .guestInterruptibilityState) :
    v.noirVtAdvanceRip.vmread f = v.vmread f := by
  unfold noirVtAdvanceRip
  dsimp only
  rw [vmread_vmwrite hrip]
  split
  · exact vmread_vmwrite hstate
  · rfl

@[simp]
theorem event_noirVtAdvanceRip : v.noirVtAdvanceRip.event = v.event :=
  vmread_noirVtAdvanceRip (by simp) (by simp)

@[simp]
theorem quiet_noirVtAdvanceRip : v.noirVtAdvanceRip.Quiet ↔ v.Quiet := by
  unfold Quiet
  rw [event_noirVtAdvanceRip]

end VtHostVmcs

end NoirVisor
