import NoirVisor.Hypercall.Svm

/-!
# Hypercalls of the VT core

They are gated like those of the SVM core, by a handler of its own.
-/

namespace NoirVisor

inductive VtCall where
  | callexit | initCustomVmcs | runCustomVcpu | dumpVcpuVmcs | setVcpuOptions
deriving DecidableEq

namespace VtCall

def number : VtCall → BitVec 32
  | callexit => 0x1
  | initCustomVmcs => 0x10000
  | runCustomVcpu => 0x10001
  | dumpVcpuVmcs => 0x10002
  | setVcpuOptions => 0x10003

def all : List VtCall := [callexit, initCustomVmcs, runCustomVcpu, dumpVcpuVmcs, setVcpuOptions]

def ofNumber (n : BitVec 32) : Option VtCall := all.find? fun call => call.number == n

end VtCall

/-- The fields of the VMCS the handler works with, and `rest` for everything else. -/
structure VtCaller (ρ : Type) where
  guestRip : BitVec 64
  guestRflags : BitVec 64
  guestCsLongMode : Bool
  guestPendingDebugExceptions : BitVec 64
  guestInterruptibilityState : BitVec 32
  vmexitInstructionLength : BitVec 32
  vmentryInterruptionInformationField : BitVec 32
  vmentryInstructionLength : BitVec 32
  gpr : Fin 16 → BitVec 64
  rest : ρ

namespace VtCaller

variable {ρ : Type} (s : VtCaller ρ)

def index : BitVec 32 := (s.gpr 1).setWidth 32
def rdx : BitVec 64 := s.gpr 2

/-- Out of long mode the instruction pointer has 32 bits. -/
def behind : BitVec 64 :=
  let gip := s.guestRip + s.vmexitInstructionLength.setWidth 64
  if s.guestCsLongMode then gip else gip &&& 0xFFFFFFFF

end VtCaller

section

variable {ρ : Type} (s : VtCaller ρ)

def ia32RflagsTf := 8

/-- Single-step debug exceptions become pending and are no longer blocked. -/
def noirVtSetSingleStepping : VtCaller ρ :=
  { s with
    guestPendingDebugExceptions := s.guestPendingDebugExceptions ||| 1#64 <<< 14
    guestInterruptibilityState := s.guestInterruptibilityState &&& ~~~0b11#32 }

def noirVtAdvanceRip : VtCaller ρ :=
  let s := if s.guestRflags.getLsbD ia32RflagsTf then noirVtSetSingleStepping s else s
  { s with guestRip := s.behind }

/-- `ia32_vmentry_interruption_information_field`. -/
def ia32InterruptionInformation (vector : BitVec 8) (type : BitVec 3) (deliver : Bool) : BitVec 32 :=
  1#1 ++ 0#19 ++ BitVec.ofBool deliver ++ type ++ vector

/-- No error code is delivered. -/
def noirVtInjectEvent (vector : BitVec 8) (type : BitVec 3) (length : BitVec 32) : VtCaller ρ :=
  { s with
    vmentryInterruptionInformationField := ia32InterruptionInformation vector type false
    vmentryInstructionLength := length }

def ia32InvalidOpcode : BitVec 8 := 6
def ia32HardwareException : BitVec 3 := 3

end

/-- What the hypercalls do. They leave alone where the caller is. -/
structure VtHypercalls (ρ : Type) where
  execute : VtCall → BitVec 64 → VtCaller ρ → VtCaller ρ
  keepsRip : ∀ call context s, (execute call context s).guestRip = s.guestRip
  keepsBehind : ∀ call context s, (execute call context s).behind = s.behind

section

variable {ρ : Type} (images : HvmImages) (calls : VtHypercalls ρ) (s : VtCaller ρ)

def VtHypercalls.executed (call : VtCall) (s : VtCaller ρ) : VtCaller ρ :=
  calls.execute call (images.context s.rdx) s

/-- Nothing at all happens to another caller than the layered hypervisor. -/
def vtForLayered (served : VtCaller ρ) : HypercallResult (VtCaller ρ) :=
  .resumed (if images.layeredHvImage.contains s.guestRip then served else s)

def nvcVtVmcallHandler : HypercallResult (VtCaller ρ) :=
  match VtCall.ofNumber s.index with
  | some .callexit =>
      if images.hvImage.contains s.guestRip then
        .unloaded (calls.executed images .callexit s)
          (s.guestRip + s.vmexitInstructionLength.setWidth 64)
      else .resumed s
  -- The VMCS is about to be switched.
  | some .runCustomVcpu =>
      vtForLayered images s (calls.executed images .runCustomVcpu (noirVtAdvanceRip s))
  | some .initCustomVmcs =>
      vtForLayered images s (noirVtAdvanceRip (calls.executed images .initCustomVmcs s))
  | some .dumpVcpuVmcs =>
      vtForLayered images s (noirVtAdvanceRip (calls.executed images .dumpVcpuVmcs s))
  | some .setVcpuOptions =>
      vtForLayered images s (noirVtAdvanceRip (calls.executed images .setVcpuOptions s))
  | none => .resumed s

def vtImage (index : BitVec 32) : HvmImage :=
  if index = VtCall.callexit.number then images.hvImage else images.layeredHvImage

/-- An exception is raised and nothing else happens. -/
def VtCaller.Refused (r : HypercallResult (VtCaller ρ)) : Prop :=
  ∃ length, r = .resumed (noirVtInjectEvent s ia32InvalidOpcode ia32HardwareException length)

/-- Both are the same but for the instruction pointer and a trap that is pending there. -/
def VtCaller.Moved (v : VtCaller ρ) : Prop :=
  v = { s with
    guestRip := v.guestRip
    guestPendingDebugExceptions := v.guestPendingDebugExceptions
    guestInterruptibilityState := v.guestInterruptibilityState }

/-- The call is made once, before the caller goes on behind it or afterwards. -/
def VtCaller.Served (call : VtCall) (r : HypercallResult (VtCaller ρ)) : Prop :=
  if call = .callexit then r = .unloaded (calls.executed images call s)
    (s.guestRip + s.vmexitInstructionLength.setWidth 64)
  else ∃ v, r = .resumed v ∧ v.guestRip = s.behind ∧
    ((calls.executed images call s).Moved v ∨
      ∃ moved, s.Moved moved ∧ v = calls.executed images call moved)

def VtCaller.GateHolds : Prop :=
  Gated ((vtImage images s.index).Inside s.guestRip) (s.Refused (nvcVtVmcallHandler images calls s))
    (∃ call, VtCall.ofNumber s.index = some call ∧
      s.Served images calls call (nvcVtVmcallHandler images calls s))

end

section

variable {ρ : Type} {images : HvmImages} {calls : VtHypercalls ρ} {s v : VtCaller ρ} {call : VtCall}

theorem VtCall.number_of_ofNumber {n : BitVec 32} (h : VtCall.ofNumber n = some call) :
    call.number = n := by
  have hfound := List.find?_some h
  exact beq_iff_eq.mp hfound

theorem vtImage_of_ne (h : VtCall.ofNumber s.index = some call) (hne : call ≠ .callexit) :
    vtImage images s.index = images.layeredHvImage := by
  rw [← VtCall.number_of_ofNumber h, vtImage, if_neg]
  revert hne
  cases call <;> decide

theorem noirVtAdvanceRip_moved : s.Moved (noirVtAdvanceRip s) := by
  unfold VtCaller.Moved noirVtAdvanceRip
  split <;> rfl

theorem noirVtAdvanceRip_rip : (noirVtAdvanceRip s).guestRip = s.behind := by
  unfold noirVtAdvanceRip
  split <;> rfl

/-- The exception of a refused caller is valid. -/
theorem not_vt_refused (hevent : s.vmentryInterruptionInformationField.getLsbD 31 = false) :
    ¬s.Refused (.resumed s) := by
  rintro ⟨length, hsame⟩
  have hfield : s.vmentryInterruptionInformationField =
      ia32InterruptionInformation ia32InvalidOpcode ia32HardwareException false :=
    congrArg VtCaller.vmentryInterruptionInformationField (HypercallResult.resumed.inj hsame)
  exact absurd ((congrArg (BitVec.getLsbD · 31) hfield).symm.trans hevent) (by decide)

/-- No exception is raised for an unauthorized caller, and the instruction pointer stays. -/
theorem vt_handler_of_unauthorized (houtside : ¬(vtImage images s.index).Inside s.guestRip) :
    nvcVtVmcallHandler images calls s = .resumed s := by
  have hout : ∀ {image : HvmImage}, vtImage images s.index = image →
      ¬image.contains s.guestRip = true := by
    rintro _ rfl
    exact mt HvmImage.contains_iff.mp houtside
  have hlayered : ∀ call served, VtCall.ofNumber s.index = some call → call ≠ .callexit →
      vtForLayered images s served = .resumed s :=
    fun _ _ hcall hne => congrArg _ (if_neg (hout (vtImage_of_ne hcall hne)))
  unfold nvcVtVmcallHandler
  split
  next hcall => exact if_neg (hout (if_pos (VtCall.number_of_ofNumber hcall).symm))
  next hcall => exact hlayered _ _ hcall (by decide)
  next hcall => exact hlayered _ _ hcall (by decide)
  next hcall => exact hlayered _ _ hcall (by decide)
  next hcall => exact hlayered _ _ hcall (by decide)
  next => rfl

theorem vt_handler_of_authorized (hcall : VtCall.ofNumber s.index = some call)
    (hne : call ≠ .callexit) (hinside : images.layeredHvImage.contains s.guestRip = true) :
    nvcVtVmcallHandler images calls s = .resumed (if call = .runCustomVcpu then
      calls.executed images call (noirVtAdvanceRip s)
      else noirVtAdvanceRip (calls.executed images call s)) := by
  unfold nvcVtVmcallHandler
  rw [hcall]
  cases call with
  | callexit => exact absurd rfl hne
  | _ => exact congrArg HypercallResult.resumed (if_pos hinside)

theorem vt_served_of_authorized (hcall : VtCall.ofNumber s.index = some call)
    (hne : call ≠ .callexit) (hinside : images.layeredHvImage.contains s.guestRip = true) :
    s.Served images calls call (nvcVtVmcallHandler images calls s) := by
  unfold VtCaller.Served
  rw [if_neg hne, vt_handler_of_authorized hcall hne hinside]
  refine ⟨_, rfl, ?_⟩
  by_cases hrun : call = .runCustomVcpu
  · rw [if_pos hrun]
    refine ⟨?_, .inr ⟨_, noirVtAdvanceRip_moved, rfl⟩⟩
    exact (calls.keepsRip _ _ _).trans noirVtAdvanceRip_rip
  · rw [if_neg hrun]
    refine ⟨?_, .inl noirVtAdvanceRip_moved⟩
    exact noirVtAdvanceRip_rip.trans (calls.keepsBehind _ _ _)

theorem vt_gate_iff (hevent : s.vmentryInterruptionInformationField.getLsbD 31 = false) :
    s.GateHolds images calls ↔ (vtImage images s.index).Inside s.guestRip ∧
      ∃ call, VtCall.ofNumber s.index = some call := by
  constructor
  · rintro ⟨hrefused, hserved⟩
    have hinside : (vtImage images s.index).Inside s.guestRip := by
      by_contra houtside
      have hresult := hrefused houtside
      rw [vt_handler_of_unauthorized houtside] at hresult
      exact not_vt_refused hevent hresult
    obtain ⟨call, hcall, -⟩ := hserved hinside
    exact ⟨hinside, call, hcall⟩
  · rintro ⟨hinside, call, hcall⟩
    refine ⟨fun houtside => absurd hinside houtside, fun _ => ⟨call, hcall, ?_⟩⟩
    by_cases hne : call = .callexit
    · obtain rfl := hne
      have himage : vtImage images s.index = images.hvImage :=
        if_pos (VtCall.number_of_ofNumber hcall).symm
      rw [himage] at hinside
      unfold VtCaller.Served nvcVtVmcallHandler
      rw [if_pos rfl, hcall]
      exact if_pos (HvmImage.contains_iff.mpr hinside)
    · rw [vtImage_of_ne hcall hne] at hinside
      exact vt_served_of_authorized hcall hne (HvmImage.contains_iff.mpr hinside)

/-- The event that was delivered at the entry is gone when the hypercall leaves the guest. -/
theorem hypercall_gate_iff {σ : Type} (images : HvmImages) (svm : SvmHypercalls σ)
    (vt : VtHypercalls ρ) (s : SvmCaller σ) (t : VtCaller ρ)
    (hs : s.vmcb.vmcbBt SvmVmcbOffset.eventInjection 31 = false)
    (ht : t.vmentryInterruptionInformationField.getLsbD 31 = false) :
    (s.GateHolds images svm ↔ (svmImage images s.function).Inside s.rip ∧ s.nextRip ≠ 0 ∧
      ∃ call, SvmCall.ofNumber s.function = some call ∧ call.Available images) ∧
    (t.GateHolds images vt ↔ (vtImage images t.index).Inside t.guestRip ∧
      ∃ call, VtCall.ofNumber t.index = some call) :=
  ⟨svm_gate_iff hs, vt_gate_iff ht⟩

end

/-! A caller asks for the options of a virtual processor to be set. -/

def driverImage : HvmImage := ⟨0xFFFFF80000100000, 0x200000, by decide⟩

def driverImages : HvmImages := ⟨false, driverImage, driverImage, fun _ => rfl⟩

def idleSvmCalls : SvmHypercalls Unit := ⟨fun _ _ s => s, fun _ _ _ => .refl, fun _ _ => rfl⟩

def idleVtCalls : VtHypercalls Unit := ⟨fun _ _ s => s, fun _ _ _ => rfl, fun _ _ _ => rfl⟩

def optionsRegisters : Fin 16 → BitVec 64 := fun i => if i = 1 then 0x10003 else 0

def svmCallerAt (rip : BitVec 64) : SvmCaller Unit where
  vmcb := Page.vmwrite64 (Page.vmwrite64 (fun _ => 0) SvmVmcbOffset.nextRip (rip + 3))
    SvmVmcbOffset.guestRip rip
  gpr := optionsRegisters
  rest := ()

def vtCallerAt (rip : BitVec 64) : VtCaller Unit where
  guestRip := rip
  guestRflags := 2
  guestCsLongMode := true
  guestPendingDebugExceptions := 0
  guestInterruptibilityState := 0
  vmexitInstructionLength := 3
  vmentryInterruptionInformationField := 0
  vmentryInstructionLength := 0
  gpr := optionsRegisters
  rest := ()

/-- A caller below the image is not served, but no exception is raised either. -/
theorem not_hypercall_gate : ¬(svmCallerAt 0x401000).GateHolds driverImages idleSvmCalls ∧
    ¬(vtCallerAt 0x401000).GateHolds driverImages idleVtCalls := by
  have hbelow : ¬driverImage.Inside 0x401000 := by
    unfold HvmImage.Inside
    decide
  constructor
  · intro hgate
    exact hbelow ((svm_gate_iff (by decide)).mp hgate).1
  · intro hgate
    exact hbelow ((vt_gate_iff rfl).mp hgate).1

theorem hypercall_gate_driver : (svmCallerAt driverImage.base).GateHolds driverImages idleSvmCalls ∧
    (vtCallerAt driverImage.base).GateHolds driverImages idleVtCalls := by
  have hinside : driverImage.Inside driverImage.base := by
    unfold HvmImage.Inside
    decide
  have hgate := hypercall_gate_iff driverImages idleSvmCalls idleVtCalls
    (svmCallerAt driverImage.base) (vtCallerAt driverImage.base) (by decide) rfl
  constructor
  · apply hgate.1.mpr
    exact ⟨hinside, by decide, .setVcpuOptions, rfl, fun hsignal => absurd hsignal (by decide)⟩
  · apply hgate.2.mpr
    exact ⟨hinside, .setVcpuOptions, rfl⟩

end NoirVisor
