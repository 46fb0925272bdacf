import NoirVisor.Nested.Vmcb
import NoirVisor.Sizes

/-!
# Hypercalls

The images of the hypervisor and of the layered hypervisor, and the hypercalls of the SVM core. What a
hypercall does is a parameter; which caller gets it done, and where the caller goes on, is not.
-/

namespace NoirVisor

open Copying SvmVmcbOffset

/-- An image in memory. It does not wrap around. -/
structure HvmImage where
  base : BitVec 64
  size : BitVec 32
  fits : base.toNat + size.toNat < 2 ^ 64

namespace HvmImage

/-- The range check of the handlers. -/
def contains (image : HvmImage) (gip : BitVec 64) : Bool :=
  decide (image.base ≤ gip) && decide (gip < image.base + image.size.setWidth 64)

def Inside (image : HvmImage) (gip : BitVec 64) : Prop :=
  image.base.toNat ≤ gip.toNat ∧ gip.toNat < image.base.toNat + image.size.toNat

theorem contains_iff {image : HvmImage} {gip : BitVec 64} :
    image.contains gip = true ↔ image.Inside gip := by
  have hend : (image.base + image.size.setWidth 64).toNat = image.base.toNat + image.size.toNat := by
    have hfits := image.fits
    rw [BitVec.toNat_add, BitVec.toNat_setWidth]
    omega
  unfold contains Inside
  rw [Bool.and_eq_true, decide_eq_true_eq, decide_eq_true_eq, BitVec.le_def, BitVec.lt_def, hend]

end HvmImage

/-- The images in `hvm_p`: a union, unless NoirVisor is a Type-I hypervisor. -/
structure HvmImages where
  hvType1 : Bool
  hvImage : HvmImage
  layeredHvImage : HvmImage
  union : hvType1 = false → layeredHvImage = hvImage

/-- A Type-I hypervisor does not translate the pointer yet. -/
def HvmImages.context (images : HvmImages) (pointer : BitVec 64) : BitVec 64 :=
  if images.hvType1 then 0 else pointer

/-- Where a handler leaves the caller: it goes on in the guest, or is no longer one. -/
inductive HypercallResult (σ : Type) where
  | resumed (caller : σ)
  | unloaded (caller : σ) (rip : BitVec 64)

/-- An unauthorized caller is refused, and an authorized one is served. -/
def Gated (authorized refused served : Prop) : Prop :=
  (¬authorized → refused) ∧ (authorized → served)

inductive SvmCall where
  | callexit | callFlushTlb | callSignalRuntime
  | initCustomVmcb | runCustomVcpu | dumpVcpuVmcb | setVcpuOptions
  | nsvReassignRmt | nsvRemapByRmt | nsvCryptoForRmt
deriving DecidableEq

namespace SvmCall

def number : SvmCall → BitVec 32
  | callexit => 0x1
  | callFlushTlb => 0x2
  | callSignalRuntime => 0x3
  | initCustomVmcb => 0x10000
  | runCustomVcpu => 0x10001
  | dumpVcpuVmcb => 0x10002
  | setVcpuOptions => 0x10003
  | nsvReassignRmt => 0x10005
  | nsvRemapByRmt => 0x10006
  | nsvCryptoForRmt => 0x10007

def all : List SvmCall :=
  [callexit, callFlushTlb, callSignalRuntime, initCustomVmcb, runCustomVcpu, dumpVcpuVmcb,
    setVcpuOptions, nsvReassignRmt, nsvRemapByRmt, nsvCryptoForRmt]

def ofNumber (n : BitVec 32) : Option SvmCall := all.find? fun call => call.number == n

end SvmCall

/-- `rest` is everything but the VMCB and the registers of the caller. -/
structure SvmCaller (ρ : Type) where
  vmcb : Page
  gpr : Fin 16 → BitVec 64
  rest : ρ

namespace SvmCaller

variable {ρ : Type} (s : SvmCaller ρ)

def rip : BitVec 64 := s.vmcb.vmread64 guestRip
def nextRip : BitVec 64 := s.vmcb.vmread64 SvmVmcbOffset.nextRip
def function : BitVec 32 := (s.gpr 1).setWidth 32
def rdx : BitVec 64 := s.gpr 2

end SvmCaller

/-- What the hypercalls do. They leave alone where the caller is. -/
structure SvmHypercalls (ρ : Type) where
  execute : SvmCall → BitVec 64 → SvmCaller ρ → SvmCaller ρ
  keeps : ∀ call context s, AgreeOn [vmcopy64 nextRip, vmcopy64 guestRip, vmcopy64 guestRflags]
    (execute call context s).vmcb s.vmcb
  /-- A message is printed. -/
  signals : ∀ context s, execute .callSignalRuntime context s = s

section

variable {ρ : Type} (images : HvmImages) (calls : SvmHypercalls ρ) (s : SvmCaller ρ)

/-- The event is marked invalid. -/
def markInvalidOpcode : SvmCaller ρ :=
  { s with vmcb :=
      noirSvmInjectEvent s.vmcb amd64InvalidOpcode amd64FaultTrapException false false 0 }

def advanced : SvmCaller ρ := { s with vmcb := noirSvmAdvanceRip s.vmcb }

def executed (call : SvmCall) : SvmCaller ρ := calls.execute call (images.context s.rdx) s

/-- A call for the layered hypervisor, and what becomes of another caller. -/
def forLayered (call : SvmCall) (otherwise : SvmCaller ρ) : HypercallResult (SvmCaller ρ) :=
  .resumed (advanced (if images.layeredHvImage.contains s.rip then executed images calls s call
    else otherwise))

def nvcSvmVmmcallHandler : HypercallResult (SvmCaller ρ) :=
  match SvmCall.ofNumber s.function with
  | some .callexit =>
      if images.hvImage.contains s.rip then
        .unloaded (executed images calls s .callexit) s.nextRip
      else .resumed (advanced (markInvalidOpcode s))
  | some .callSignalRuntime =>
      .resumed (advanced (if images.hvType1 then executed images calls s .callSignalRuntime
        else markInvalidOpcode s))
  | some .callFlushTlb => forLayered images calls s .callFlushTlb (markInvalidOpcode s)
  | some .initCustomVmcb => forLayered images calls s .initCustomVmcb (markInvalidOpcode s)
  | some .runCustomVcpu => forLayered images calls s .runCustomVcpu (markInvalidOpcode s)
  | some .dumpVcpuVmcb => forLayered images calls s .dumpVcpuVmcb (markInvalidOpcode s)
  -- There is no else branch from here on.
  | some .setVcpuOptions => forLayered images calls s .setVcpuOptions s
  | some .nsvReassignRmt => forLayered images calls s .nsvReassignRmt s
  | some .nsvRemapByRmt => forLayered images calls s .nsvRemapByRmt s
  | some .nsvCryptoForRmt => forLayered images calls s .nsvCryptoForRmt s
  | none => .resumed (markInvalidOpcode s)

/-- The image that may make a hypercall. -/
def svmImage (function : BitVec 32) : HvmImage :=
  if function = SvmCall.callexit.number then images.hvImage else images.layeredHvImage

/-- An exception is raised and nothing else happens. -/
def SvmCaller.Refused (r : HypercallResult (SvmCaller ρ)) : Prop :=
  r = .resumed
    { s with vmcb := noirSvmInjectEvent s.vmcb amd64InvalidOpcode amd64FaultTrapException false true 0 }

/-- The call is made once, and the caller goes on behind it. A trap may be pending there. -/
def SvmCaller.Served (call : SvmCall) (r : HypercallResult (SvmCaller ρ)) : Prop :=
  s.nextRip ≠ 0 ∧
    if call = .callexit then r = .unloaded (executed images calls s call) s.nextRip
    else ∃ vmcb : Page, r = .resumed { executed images calls s call with vmcb := vmcb } ∧
      vmcb.vmread64 guestRip = s.nextRip ∧
        ∀ i, covers [vmcopy64 eventInjection, vmcopy64 guestRip] i = false →
          vmcb i = (executed images calls s call).vmcb i

/-- There is nothing to be signalled by a Type-II hypervisor. -/
def SvmCall.Available (call : SvmCall) : Prop :=
  call = .callSignalRuntime → images.hvType1 = true

def SvmCaller.GateHolds : Prop :=
  Gated ((svmImage images s.function).Inside s.rip) (s.Refused (nvcSvmVmmcallHandler images calls s))
    (∃ call, SvmCall.ofNumber s.function = some call ∧ call.Available images ∧
      s.Served images calls call (nvcSvmVmmcallHandler images calls s))

end

section

variable {ρ : Type} {images : HvmImages} {calls : SvmHypercalls ρ} {s v : SvmCaller ρ} {call : SvmCall}

theorem SvmCall.number_of_ofNumber {n : BitVec 32} (h : SvmCall.ofNumber n = some call) :
    call.number = n := by
  have hfound := List.find?_some h
  exact beq_iff_eq.mp hfound

theorem svmImage_of_ne (h : SvmCall.ofNumber s.function = some call) (hne : call ≠ .callexit) :
    svmImage images s.function = images.layeredHvImage := by
  rw [← SvmCall.number_of_ofNumber h, svmImage, if_neg]
  revert hne
  cases call <;> decide

theorem injected_byte (vmcb : Page) (vector : BitVec 8) (type : BitVec 3) (errorValid valid : Bool)
    (errorCode : BitVec 32) {k : Nat} (hk : k < 8) :
    noirSvmInjectEvent vmcb vector type errorValid valid errorCode (eventInjection + k) =
      (amd64EventInjection vector type errorValid valid errorCode).extractLsb' (8 * k) 8 :=
  Page.vmwrite_byte rfl hk

/-- The exception of a refused caller is valid, and it is the one for an invalid opcode. -/
theorem refused_event (h : s.Refused (.resumed v)) :
    v.vmcb.vmcbBt eventInjection 31 = true ∧ v.vmcb eventInjection = amd64InvalidOpcode := by
  obtain rfl := HypercallResult.resumed.inj h
  have hbyte := fun k => injected_byte s.vmcb amd64InvalidOpcode amd64FaultTrapException false true 0
    (k := k)
  have hvector := hbyte 0 (by decide)
  have hvalid := hbyte 3 (by decide)
  constructor
  · unfold Page.vmcbBt
    exact (congrArg (BitVec.getLsbD · 7) hvalid).trans (by decide)
  · exact hvector.trans (by decide)

theorem not_refused (h : v.vmcb.vmcbBt eventInjection 31 = false) : ¬s.Refused (.resumed v) :=
  fun hrefused => absurd ((refused_event hrefused).1.symm.trans h) (by decide)

theorem not_refused_advanced (h : v.vmcb.vmcbBt eventInjection 31 = false) :
    ¬s.Refused (.resumed (advanced v)) := by
  intro hrefused
  have hsame := refused_event hrefused
  rcases noirSvmAdvanceRip_event v.vmcb with hdebug | hkept
  · exact absurd (hdebug.symm.trans hsame.2) (by decide)
  · have hbit : (advanced v).vmcb.vmcbBt eventInjection 31 = v.vmcb.vmcbBt eventInjection 31 :=
      Page.vmcbBt_of_agree hkept (by decide)
    exact absurd (hsame.1.symm.trans (hbit.trans h)) (by decide)

theorem markInvalidOpcode_event :
    (markInvalidOpcode s).vmcb.vmcbBt eventInjection 31 = false := by
  have hbyte := injected_byte s.vmcb amd64InvalidOpcode amd64FaultTrapException false false 0
    (k := 3) (by decide)
  exact (congrArg (BitVec.getLsbD · 7) hbyte).trans (by decide)

theorem handler_of_authorized (hcall : SvmCall.ofNumber s.function = some call)
    (hne : call ≠ .callexit) (havailable : call.Available images)
    (hinside : images.layeredHvImage.contains s.rip = true) :
    nvcSvmVmmcallHandler images calls s = .resumed (advanced (executed images calls s call)) := by
  unfold nvcSvmVmmcallHandler
  rw [hcall]
  cases call with
  | callexit => exact absurd rfl hne
  | callSignalRuntime =>
      dsimp only
      rw [if_pos (havailable rfl)]
  | _ => exact congrArg (fun c => HypercallResult.resumed (advanced c)) (if_pos hinside)

/-- An unauthorized caller never gets an exception, and goes on behind the call. -/
theorem handler_of_unauthorized (calls : SvmHypercalls ρ)
    (hcall : SvmCall.ofNumber s.function = some call) (hne : call ≠ .callexit)
    (hinside : images.layeredHvImage.contains s.rip = false) :
    ∃ v, nvcSvmVmmcallHandler images calls s = .resumed (advanced v) ∧
      (v = s ∨ v = markInvalidOpcode s) := by
  have hnot := Bool.eq_false_iff.mp hinside
  unfold nvcSvmVmmcallHandler
  rw [hcall]
  cases call with
  | callexit => exact absurd rfl hne
  | callSignalRuntime =>
      dsimp only
      split
      · exact ⟨_, rfl, .inl (calls.signals _ _)⟩
      · exact ⟨_, rfl, .inr rfl⟩
  | callFlushTlb | initCustomVmcb | runCustomVcpu | dumpVcpuVmcb =>
      exact ⟨_, congrArg (fun c => HypercallResult.resumed (advanced c)) (if_neg hnot), .inr rfl⟩
  | _ => exact ⟨_, congrArg (fun c => HypercallResult.resumed (advanced c)) (if_neg hnot), .inl rfl⟩

theorem served_of_authorized (hne : call ≠ .callexit) (hrip : s.nextRip ≠ 0)
    (hresult : nvcSvmVmmcallHandler images calls s =
      .resumed (advanced (executed images calls s call))) :
    s.Served images calls call (nvcSvmVmmcallHandler images calls s) := by
  refine ⟨hrip, ?_⟩
  rw [if_neg hne]
  have hkept : (executed images calls s call).vmcb.vmread64 SvmVmcbOffset.nextRip = s.nextRip :=
    Page.vmread64_of_agree ((calls.keeps call _ s).mono (by decide))
  refine ⟨_, hresult, ?_, fun i hi => noirSvmAdvanceRip_of_not_covers hi⟩
  rw [noirSvmAdvanceRip_rip (by rw [hkept]; exact hrip), hkept]

/-- The image is checked alike, but `callexit` alone leaves the guest. -/
theorem handler_of_callexit (images : HvmImages) (calls : SvmHypercalls ρ)
    (hcall : SvmCall.ofNumber s.function = some .callexit) :
    svmImage images s.function = images.hvImage ∧ nvcSvmVmmcallHandler images calls s =
      if images.hvImage.contains s.rip then .unloaded (executed images calls s .callexit) s.nextRip
      else .resumed (advanced (markInvalidOpcode s)) := by
  constructor
  · exact if_pos (SvmCall.number_of_ofNumber hcall).symm
  · unfold nvcSvmVmmcallHandler
    rw [hcall]

theorem not_refused_of_unauthorized (hevent : s.vmcb.vmcbBt eventInjection 31 = false)
    (houtside : ¬(svmImage images s.function).Inside s.rip) :
    ¬s.Refused (nvcSvmVmmcallHandler images calls s) := by
  have hout := Bool.eq_false_iff.mpr (mt HvmImage.contains_iff.mp houtside)
  cases hcall : SvmCall.ofNumber s.function with
  | none =>
      have hresult : nvcSvmVmmcallHandler images calls s = .resumed (markInvalidOpcode s) := by
        unfold nvcSvmVmmcallHandler
        rw [hcall]
      rw [hresult]
      exact not_refused markInvalidOpcode_event
  | some call =>
      by_cases hne : call = .callexit
      · obtain rfl := hne
        obtain ⟨himage, hresult⟩ := handler_of_callexit images calls hcall
        rw [himage] at hout
        rw [hresult, if_neg (Bool.eq_false_iff.mp hout)]
        exact not_refused_advanced markInvalidOpcode_event
      · rw [svmImage_of_ne hcall hne] at hout
        obtain ⟨v, hresult, hv⟩ := handler_of_unauthorized calls hcall hne hout
        rw [hresult]
        apply not_refused_advanced
        rcases hv with rfl | rfl
        · exact hevent
        · exact markInvalidOpcode_event

theorem svm_gate_iff (hevent : s.vmcb.vmcbBt eventInjection 31 = false) :
    s.GateHolds images calls ↔ (svmImage images s.function).Inside s.rip ∧ s.nextRip ≠ 0 ∧
      ∃ call, SvmCall.ofNumber s.function = some call ∧ call.Available images := by
  constructor
  · rintro ⟨hrefused, hserved⟩
    have hinside : (svmImage images s.function).Inside s.rip := by
      by_contra houtside
      exact not_refused_of_unauthorized hevent houtside (hrefused houtside)
    obtain ⟨call, hcall, havailable, hrip, -⟩ := hserved hinside
    exact ⟨hinside, hrip, call, hcall, havailable⟩
  · rintro ⟨hinside, hrip, call, hcall, havailable⟩
    refine ⟨fun houtside => absurd hinside houtside, fun _ => ⟨call, hcall, havailable, ?_⟩⟩
    by_cases hne : call = .callexit
    · obtain rfl := hne
      obtain ⟨himage, hresult⟩ := handler_of_callexit images calls hcall
      rw [himage] at hinside
      refine ⟨hrip, ?_⟩
      rw [if_pos rfl, hresult, if_pos (HvmImage.contains_iff.mpr hinside)]
    · rw [svmImage_of_ne hcall hne] at hinside
      exact served_of_authorized hne hrip
        (handler_of_authorized hcall hne havailable (HvmImage.contains_iff.mpr hinside))

end

end NoirVisor
