import NoirVisor.Cvm.Hax

/-!
# The operands of a switch to the guest

The state that a layered hypervisor has set is loaded by instructions of the host, and these raise an
exception at operands that they do not take. What is checked before is the value of XCR0, and only some
rules of it.
-/

namespace NoirVisor

/-- What the instructions of a processor take. The first mask is the one that NoirVisor has recorded. -/
structure OperandRules where
  supportMask : Nat
  mxcsrMask : Nat
  compaction : Bool

/-- The header of an extended state area beside the bits of the components: bit 63 of XSTATE_BV,
XCOMP_BV, and the bytes after it in two parts. -/
structure AreaHeader where
  xstateHigh : Bool
  xcompBv : Nat
  bytes16To23 : Nat
  bytes24To63 : Nat

namespace OperandRules

/-- Components that go together: MPX, AVX-512 with AVX, and AMX. -/
def groupsWhole (value : Nat) : Bool :=
  value.testBit 3 == value.testBit 4 &&
    (value.testBit 5 == value.testBit 6 && value.testBit 6 == value.testBit 7) &&
    (!value.testBit 5 || value.testBit 2) && value.testBit 17 == value.testBit 18

/-- `xsetbv` takes this value for XCR0. -/
def takesXcr0 (rules : OperandRules) (value : Nat) : Bool :=
  value &&& rules.supportMask == value && value.testBit 0 && (value.testBit 1 || !value.testBit 2) &&
    groupsWhole value

def takesMxcsr (rules : OperandRules) (value : Nat) : Bool := value &&& rules.mxcsrMask == value

/-- A move to a debug register takes this value. A move to CR2 takes every value. -/
def takesDr (n value : Nat) : Bool := decide (n < 4) || decide (value < 2 ^ 32)

def features (rules : OperandRules) : Xsave.Features := ⟨rules.takesXcr0, rules.takesMxcsr⟩

/-- `xrstor` takes an area in the standard format. -/
structure TakesStandard (rules : OperandRules) (xcr0 : Nat) (area : Xsave.Area) (header : AreaHeader) :
    Prop where
  restorable : Xsave.Restorable rules.features xcr0 area
  xstateHigh : header.xstateHigh = false
  xcompBv : header.xcompBv = 0
  bytes16To23 : header.bytes16To23 = 0

/-- It takes an area in the compacted format. -/
structure TakesCompacted (rules : OperandRules) (xcr0 : Nat) (area : Xsave.Area) (header : AreaHeader) :
    Prop where
  enabled : ∀ c : Fin 63, header.xcompBv.testBit c = true → Xsave.enabled xcr0 c = true
  compacted : ∀ c, area.xstateBv c = true → header.xcompBv.testBit c.val = true
  mxcsr : Xsave.enabled xcr0 1 = true → area.xstateBv 1 = true → rules.takesMxcsr area.mxcsr = true
  xstateHigh : header.xstateHigh = false
  bytes : header.bytes16To23 = 0 ∧ header.bytes24To63 = 0

def TakesArea (rules : OperandRules) (xcr0 : Nat) (area : Xsave.Area) (header : AreaHeader) : Prop :=
  if (rules.compaction && header.xcompBv.testBit 63) = true then
    rules.TakesCompacted xcr0 area header
  else rules.TakesStandard xcr0 area header

end OperandRules

/-- A vCPU, the header of its area, its tunnel, and XCR0 of the host that runs it. -/
structure OperandState where
  vcpu : CoreVcpu
  header : AreaHeader
  useTunnel : Bool
  tunnel : Bool
  hostXcr0 : Nat

namespace OperandState

def reg (s : OperandState) : Register → Nat := s.vcpu.header.reg

end OperandState

/-- What is checked of XCR0. -/
def validXcr0 (supportMask value : Nat) : Bool :=
  value.testBit 0 && !(!value.testBit 1 && value.testBit 2) && value &&& supportMask == value

def nvcValidateVcpuState (rules : OperandRules) (s : OperandState) : Bool :=
  validXcr0 rules.supportMask (s.reg .xcr0) && !(s.useTunnel && !s.tunnel)

/-- The instructions of a switch to the guest take what they are handed. On VT, DR6 is among it. -/
structure OperandsTaken (rules : OperandRules) (s : OperandState) : Prop where
  area : rules.TakesArea s.hostXcr0 s.vcpu.header.xsaveArea s.header
  xcr0 : rules.takesXcr0 (s.reg .xcr0) = true
  dr : ∀ i : Fin 4, OperandRules.takesDr i.val (s.reg (.dr i)) = true
  dr6 : s.vcpu.isVt = true → OperandRules.takesDr 6 (s.reg .dr6) = true

/-- A run reports the invalid state, or the switch raises no exception. -/
def RunSafe (rules : OperandRules) (s : OperandState) : Prop :=
  nvcValidateVcpuState rules s = false ∨ OperandsTaken rules s

/-- What happens to a vCPU. The buffer of an edit has a header of its own. -/
inductive OperandEvent where
  | edit (call : EditCall) (header : AreaHeader)
  | haxRegisters (state : HaxVcpuState) (size : Nat)
  | haxMsrs (tsc : Nat → Nat) (msrs : List HaxVmxMsr) (size : Nat)
  | haxTunnel (tunnel : Bool)
  | hostXcr0 (value : Nat)
  | run

namespace CoreVcpu

def withHeader (header : VirtualCpu) : CoreVcpu → CoreVcpu
  | svm v => svm { v with header }
  | vt fixed current v => vt fixed current { v with header }

def Plain : CoreVcpu → Prop
  | svm v => v.nsvGuest = false
  | vt .. => True

/-- A run from the entry to the return to the host, where the guest left the processor in any state
that its registers can have. -/
def Runs (rules : OperandRules) (hostXcr0 : Nat) (vcpu vcpu' : CoreVcpu) : Prop :=
  ∃ (p exit : Processor) (host : VirtualCpu), p.reg .xcr0 = hostXcr0 ∧
    rules.takesXcr0 (exit.reg .xcr0) = true ∧ OperandRules.takesDr 6 (exit.reg .dr6) = true ∧
    rules.takesMxcsr exit.xstate.mxcsr = true ∧
    match vcpu with
    | svm v => ∃ procId p₁ host₁ v₁ v₂ p₂ v₃,
        nvcSvmSwitchToGuestVcpu rules.features procId p host v = some (p₁, host₁, v₁) ∧
        SvmGuestExecutes v₁ v₂ ∧
        nvcSvmSwitchToHostVcpu rules.features exit host₁ v₂ = some (p₂, v₃) ∧ vcpu' = svm v₃
    | vt fixed current v => ∃ stack stack₁ p₁ host₁ v₁ v₂ p₂ v₃,
        nvcVtSwitchToGuestVcpu rules.features fixed stack p host v = some (stack₁, p₁, host₁, v₁) ∧
        v₂.header.xsaveArea = v₁.header.xsaveArea ∧
        nvcVtSwitchToHostVcpu rules.features exit host₁ v₂ = some (p₂, v₃) ∧
        vcpu' = vt fixed current v₃

end CoreVcpu

/-- An edit of the whole area sets its header as well. -/
def OperandState.edited (supportedSizeMax : Nat) (s : OperandState) (call : EditCall)
    (header : AreaHeader) : OperandState :=
  { s with
    vcpu := s.vcpu.withHeader (call.run supportedSizeMax s.vcpu.header).2
    header := match call.extEdit supportedSizeMax with
      | some (.whole _) => header
      | _ => s.header }

namespace OperandEvent

/-- The effect of an event. A run goes on only if the switch raised no exception. -/
def Takes (rules : OperandRules) (supportedSizeMax : Nat) (s : OperandState) :
    OperandEvent → OperandState → Prop
  | edit call header, s' => s' = s.edited supportedSizeMax call header
  | haxRegisters state size, s' =>
      s' = { s with vcpu := (nvcHaxSetVcpuRegisters true s.vcpu state size).2.2 }
  | haxMsrs tsc msrs size, s' => s' = { s with vcpu := (nvcHaxSetMsrs true tsc s.vcpu msrs size).2 }
  | haxTunnel tunnel, s' => s' = { s with useTunnel := true, tunnel }
  | hostXcr0 value, s' => rules.takesXcr0 value = true ∧ s' = { s with hostXcr0 := value }
  | run, s' =>
      if nvcValidateVcpuState rules s then
        OperandsTaken rules s ∧
          ∃ vcpu', s.vcpu.Runs rules s.hostXcr0 vcpu' ∧ s' = { s with vcpu := vcpu' }
      else s' = s

/-- An edit of the area sets one that can be restored for good: in the standard format, with components
of the host only, and with an MXCSR that the processor takes. -/
def AreaKept (rules : OperandRules) (hostXcr0 : Nat) (header : AreaHeader) : EditCall.ExtEdit → Prop
  | .fxState b => rules.takesMxcsr b.mxcsr = true
  | .whole b =>
      rules.takesMxcsr b.mxcsr = true ∧ (∀ c, b.xstateBv c = true → Xsave.enabled hostXcr0 c = true) ∧
        header.xstateHigh = false ∧ header.xcompBv = 0 ∧ header.bytes16To23 = 0

/-- What an event sets is taken. -/
def Kept (rules : OperandRules) (supportedSizeMax : Nat) (s : OperandState) : OperandEvent → Prop
  | edit call header =>
      (∀ value, Writeback.lastWrite call.edits .xcr0 = some value →
        validXcr0 rules.supportMask value = true → OperandRules.groupsWhole value = true) ∧
      (s.vcpu.isVt = true → ∀ value, Writeback.lastWrite call.edits .dr6 = some value →
        value < 2 ^ 32) ∧
      ∀ e, call.extEdit supportedSizeMax = some e → AreaKept rules s.hostXcr0 header e
  | haxRegisters state size =>
      s.vcpu.isVt = true → haxVcpuStateSize ≤ size → state.dr6.toNat < 2 ^ 32
  -- The host does not disable a component that an area may have.
  | hostXcr0 value => ∀ c, Xsave.enabled s.hostXcr0 c = true → Xsave.enabled value c = true
  | _ => True

end OperandEvent

/-- A vCPU as it is created, with x87 enabled and nothing in the area. The guest is not protected. -/
structure OperandState.Created (rules : OperandRules) (s : OperandState) : Prop where
  xcr0 : s.reg .xcr0 = 1
  dr6 : s.reg .dr6 = 0
  area : s.vcpu.header.xsaveArea = zeroArea
  header : s.header = ⟨false, 0, 0, 0⟩
  plain : s.vcpu.Plain
  hostXcr0 : rules.takesXcr0 s.hostXcr0 = true

def OperandReachable (rules : OperandRules) (supportedSizeMax : Nat)
    (condition : OperandState → OperandEvent → Prop) : OperandState → Prop :=
  Transition.Reachable (OperandState.Created rules) fun s s' =>
    ∃ e, condition s e ∧ e.Takes rules supportedSizeMax s s'

/-- What every event keeps. -/
structure OperandState.Kept (rules : OperandRules) (s : OperandState) : Prop where
  xcr0 : validXcr0 rules.supportMask (s.reg .xcr0) = true →
    OperandRules.groupsWhole (s.reg .xcr0) = true
  dr6 : s.vcpu.isVt = true → s.reg .dr6 < 2 ^ 32
  mxcsr : rules.takesMxcsr s.vcpu.header.xsaveArea.mxcsr = true
  components : ∀ c, s.vcpu.header.xsaveArea.xstateBv c = true → Xsave.enabled s.hostXcr0 c = true
  header : s.header.xstateHigh = false ∧ s.header.xcompBv = 0 ∧ s.header.bytes16To23 = 0
  plain : s.vcpu.Plain

section Steps

variable {rules : OperandRules} {supportedSizeMax : Nat} {s s' : OperandState} {e : OperandEvent}
  {r : Register}

theorem takesXcr0_of_valid {value : Nat} (hvalid : validXcr0 rules.supportMask value = true)
    (hgroups : OperandRules.groupsWhole value = true) : rules.takesXcr0 value = true := by
  unfold validXcr0 at hvalid
  unfold OperandRules.takesXcr0
  rw [hgroups]
  revert hvalid
  cases value.testBit 0 <;> cases value.testBit 1 <;> cases value.testBit 2 <;>
    cases value &&& rules.supportMask == value <;> decide

/-- An area in the standard format is taken as such. -/
theorem OperandState.Kept.takesArea (h : s.Kept rules) :
    rules.TakesArea s.hostXcr0 s.vcpu.header.xsaveArea s.header := by
  obtain ⟨hhigh, hxcompBv, hbytes⟩ := h.header
  unfold OperandRules.TakesArea
  rw [hxcompBv, Nat.zero_testBit, Bool.and_false, if_neg Bool.false_ne_true]
  exact ⟨⟨h.components, fun _ => h.mxcsr⟩, hhigh, hxcompBv, hbytes⟩

theorem OperandState.Kept.safe (h : s.Kept rules) : RunSafe rules s := by
  cases hvalid : nvcValidateVcpuState rules s with
  | false => exact .inl hvalid
  | true =>
      have hxcr0 : validXcr0 rules.supportMask (s.reg .xcr0) = true :=
        (Bool.and_eq_true_iff.mp hvalid).1
      refine .inr ⟨h.takesArea, takesXcr0_of_valid hxcr0 (h.xcr0 hxcr0), fun i => ?_, fun hvt => ?_⟩
      · simp [OperandRules.takesDr]
      · have hlt := h.dr6 hvt
        simp only [OperandRules.takesDr, decide_eq_true hlt, Bool.or_true]

theorem OperandState.Created.kept (h : s.Created rules) : s.Kept rules where
  xcr0 _ := by
    rw [h.xcr0]
    decide
  dr6 _ := by
    rw [h.dr6]
    decide
  mxcsr := by
    rw [h.area]
    simp [zeroArea, OperandRules.takesMxcsr]
  components c hc := by
    rw [h.area] at hc
    exact absurd hc Bool.false_ne_true
  header := by
    rw [h.header]
    exact ⟨rfl, rfl, rfl⟩
  plain := h.plain

namespace CoreVcpu

variable {vcpu vcpu' : CoreVcpu} {header : VirtualCpu}

@[simp]
theorem withHeader_header : (vcpu.withHeader header).header = header := by
  cases vcpu <;> rfl

@[simp]
theorem withHeader_isVt : (vcpu.withHeader header).isVt = vcpu.isVt := by
  cases vcpu <;> rfl

@[simp]
theorem withHeader_plain : (vcpu.withHeader header).Plain ↔ vcpu.Plain := by
  cases vcpu <;> rfl

theorem edit_plain {e : RegisterEdit} : (vcpu.edit e).Plain ↔ vcpu.Plain := by
  cases vcpu <;> rfl

theorem edit_isVt {e : RegisterEdit} : (vcpu.edit e).isVt = vcpu.isVt := by
  cases vcpu <;> rfl

end CoreVcpu

theorem haxRegister_ne {entry : Nat} (h : haxRegister entry = some r) : r ≠ .xcr0 ∧ r ≠ .dr6 := by
  have hcases : ∀ p ∈ haxGetCases, p.2 ≠ .xcr0 ∧ p.2 ≠ .dr6 := by decide
  unfold haxRegister at h
  split at h
  · cases h
    exact ⟨by decide, by decide⟩
  · exact hcases _ (mem_of_lookup h)

/-- A list of MSRs leaves the operands. -/
theorem setMsrs_operands {tsc : Nat → Nat} {msrs : List HaxVmxMsr} {vcpu : CoreVcpu} {i : Nat} :
    let vcpu' := (setMsrs tsc vcpu i msrs).2
    vcpu'.header.reg .xcr0 = vcpu.header.reg .xcr0 ∧ vcpu'.header.reg .dr6 = vcpu.header.reg .dr6 ∧
      vcpu'.header.xsaveArea = vcpu.header.xsaveArea ∧ vcpu'.isVt = vcpu.isVt ∧
      (vcpu'.Plain ↔ vcpu.Plain) := by
  induction msrs generalizing vcpu i with
  | nil => exact ⟨rfl, rfl, rfl, rfl, Iff.rfl⟩
  | cons msr msrs ih =>
      unfold setMsrs
      cases hedit : msr.edit (tsc i) with
      | none => exact ⟨rfl, rfl, rfl, rfl, Iff.rfl⟩
      | some e =>
          obtain ⟨hxcr0, hdr6, harea, hvt, hplain⟩ := @ih (vcpu.edit e) (i + 1)
          obtain ⟨r, c, value, hregister, -, rfl, -⟩ := haxEdit_eq hedit
          obtain ⟨hne, hne'⟩ := haxRegister_ne hregister
          refine ⟨hxcr0.trans ?_, hdr6.trans ?_, harea.trans ?_, hvt.trans CoreVcpu.edit_isVt,
            hplain.trans CoreVcpu.edit_plain⟩
          · rw [edit_header]
            simp [VirtualCpu.edit, Writeback.Edit.write, oneEdit, hne.symm]
          · rw [edit_header]
            simp [VirtualCpu.edit, Writeback.Edit.write, oneEdit, hne'.symm]
          · rw [edit_header]
            rfl

/-- The operands of another state, where the area is the same. -/
theorem OperandState.Kept.congr (h : s.Kept rules) (hxcr0 : s'.reg .xcr0 = s.reg .xcr0)
    (hdr6 : s'.reg .dr6 = s.reg .dr6 ∨ (s'.vcpu.isVt = true → s'.reg .dr6 < 2 ^ 32))
    (harea : s'.vcpu.header.xsaveArea = s.vcpu.header.xsaveArea) (hheader : s'.header = s.header)
    (hvt : s'.vcpu.isVt = s.vcpu.isVt) (hplain : s'.vcpu.Plain ↔ s.vcpu.Plain)
    (hhost : ∀ c, Xsave.enabled s.hostXcr0 c = true → Xsave.enabled s'.hostXcr0 c = true) :
    s'.Kept rules where
  xcr0 := by
    rw [hxcr0]
    exact h.xcr0
  dr6 hcore := by
    rcases hdr6 with heq | hlt
    · rw [heq]
      exact h.dr6 (hvt ▸ hcore)
    · exact hlt hcore
  mxcsr := by
    rw [harea]
    exact h.mxcsr
  components c hc := by
    rw [harea] at hc
    exact hhost c (h.components c hc)
  header := by
    rw [hheader]
    exact h.header
  plain := hplain.mpr h.plain

theorem OperandState.Kept.edit {call : EditCall} {header : AreaHeader} (h : s.Kept rules)
    (hkept : OperandEvent.Kept rules supportedSizeMax s (.edit call header))
    (htakes : OperandEvent.Takes rules supportedSizeMax s (.edit call header) s') : s'.Kept rules := by
  obtain ⟨hxcr0, hdr6, harea⟩ := hkept
  have hrun := @EditCall.run_eq supportedSizeMax s.vcpu.header call
  have hreg : ∀ r, s'.reg r = (Writeback.lastWrite call.edits r).getD (s.reg r) := by
    intro r
    rw [htakes, OperandState.reg, OperandState.edited, CoreVcpu.withHeader_header, hrun]
    exact EditCalls.edits_reg r
  have harea' : s'.vcpu.header.xsaveArea =
      (call.extEdit supportedSizeMax).elim s.vcpu.header.xsaveArea (·.area s.vcpu.header.xsaveArea) := by
    rw [htakes, OperandState.edited, CoreVcpu.withHeader_header, hrun]
  have hvt : s'.vcpu.isVt = s.vcpu.isVt := by
    rw [htakes, OperandState.edited, CoreVcpu.withHeader_isVt]
  have hplain : s'.vcpu.Plain := by
    rw [htakes]
    exact CoreVcpu.withHeader_plain.mpr h.plain
  have hhost : s'.hostXcr0 = s.hostXcr0 := by
    rw [htakes]
    rfl
  have hheader : s'.header = match call.extEdit supportedSizeMax with
      | some (.whole _) => header
      | _ => s.header := by
    rw [htakes]
    rfl
  have hxcr0' : validXcr0 rules.supportMask (s'.reg .xcr0) = true →
      OperandRules.groupsWhole (s'.reg .xcr0) = true := by
    rw [hreg]
    cases hwrite : Writeback.lastWrite call.edits .xcr0 with
    | none => exact h.xcr0
    | some value => exact hxcr0 value hwrite
  have hdr6' : s'.vcpu.isVt = true → s'.reg .dr6 < 2 ^ 32 := by
    intro hcore
    rw [hreg]
    cases hwrite : Writeback.lastWrite call.edits .dr6 with
    | none => exact h.dr6 (hvt ▸ hcore)
    | some value => exact hdr6 (hvt ▸ hcore) value hwrite
  cases hext : call.extEdit supportedSizeMax with
  | none =>
      rw [hext] at harea' hheader
      refine ⟨hxcr0', hdr6', ?_, ?_, ?_, hplain⟩
      · rw [harea']
        exact h.mxcsr
      · rw [harea', hhost]
        exact h.components
      · rw [hheader]
        exact h.header
  | some ext =>
      have hset := harea ext hext
      rw [hext] at harea' hheader
      cases ext with
      | fxState b =>
          refine ⟨hxcr0', hdr6', ?_, ?_, ?_, hplain⟩
          · rw [harea']
            exact hset
          · rw [harea', hhost]
            exact h.components
          · rw [hheader]
            exact h.header
      | whole b =>
          obtain ⟨hmxcsr, hcomponents, hstandard⟩ := hset
          refine ⟨hxcr0', hdr6', ?_, ?_, ?_, hplain⟩
          · rw [harea']
            exact hmxcsr
          · rw [harea', hhost]
            exact hcomponents
          · rw [hheader]
            exact hstandard

/-- What a run leaves: registers of the processor at the exit, and an area saved for the host. -/
theorem CoreVcpu.Runs.left {vcpu vcpu' : CoreVcpu} {hostXcr0 : Nat}
    (h : vcpu.Runs rules hostXcr0 vcpu') (hplain : vcpu.Plain) :
    rules.takesXcr0 (vcpu'.header.reg .xcr0) = true ∧
      (vcpu'.isVt = true → vcpu'.header.reg .dr6 < 2 ^ 32) ∧ vcpu'.Plain ∧
      ∃ xstate : Xsave.State, rules.takesMxcsr xstate.mxcsr = true ∧
        vcpu'.header.xsaveArea = Xsave.save hostXcr0 xstate vcpu.header.xsaveArea := by
  obtain ⟨p, exit, host, hp, hxcr0, hdr6, hmxcsr, hcore⟩ := h
  cases vcpu with
  | svm v =>
      obtain ⟨procId, p₁, host₁, v₁, v₂, p₂, v₃, henter, hexecutes, hleave, rfl⟩ := hcore
      have hnsv : v.nsvGuest = false := hplain
      rw [nvcSvmSwitchToGuestVcpu_eq hnsv, Option.map_eq_some_iff] at henter
      obtain ⟨q, -, heq⟩ := henter
      obtain ⟨-, rfl, rfl⟩ := by simpa only [Prod.mk.injEq] using heq
      have hframe := @SvmCustomVcpu.entered_frame v procId
      have hnsv₂ : v₂.nsvGuest = false :=
        hexecutes.nsvGuest.trans ((congrArg Prod.fst hframe).trans hnsv)
      have harea : v₂.header.xsaveArea = v.header.xsaveArea :=
        hexecutes.xsaveArea.trans (congrArg Prod.snd hframe)
      obtain ⟨-, -, rfl⟩ := nvcSvmSwitchToHostVcpu_eq_some hnsv₂ hleave
      refine ⟨hxcr0, fun hvt => (nomatch hvt), hnsv₂, exit.xstate, hmxcsr, ?_⟩
      rw [← hp]
      exact congrArg (Xsave.save (p.reg .xcr0) exit.xstate) harea
  | vt fixed current v =>
      obtain ⟨stack, stack₁, p₁, host₁, v₁, v₂, p₂, v₃, henter, harea, hleave, rfl⟩ := hcore
      rw [nvcVtSwitchToGuestVcpu_eq, Option.map_eq_some_iff] at henter
      obtain ⟨q, -, heq⟩ := henter
      obtain ⟨-, -, rfl, rfl⟩ := by simpa only [Prod.mk.injEq] using heq
      obtain ⟨-, -, rfl⟩ := nvcVtSwitchToHostVcpu_eq_some hleave
      refine ⟨hxcr0, fun _ => of_decide_eq_true hdr6, trivial, exit.xstate, hmxcsr, ?_⟩
      rw [← hp]
      exact congrArg (Xsave.save (p.reg .xcr0) exit.xstate)
        (harea.trans (VtCustomVcpu.entered_xsaveArea))

theorem OperandState.Kept.run (h : s.Kept rules)
    (htakes : OperandEvent.Takes rules supportedSizeMax s .run s') : s'.Kept rules := by
  by_cases hvalid : nvcValidateVcpuState rules s = true
  · rw [OperandEvent.Takes, if_pos hvalid] at htakes
    obtain ⟨-, vcpu', hruns, rfl⟩ := htakes
    obtain ⟨hxcr0, hdr6, hplain, xstate, hmxcsr, harea⟩ := hruns.left h.plain
    refine ⟨fun _ => (Bool.and_eq_true_iff.mp hxcr0).2, hdr6, ?_, fun c hc => ?_, h.header, hplain⟩
    · rw [harea, Xsave.save]
      dsimp only
      split
      · exact hmxcsr
      · exact h.mxcsr
    · by_cases henabled : Xsave.enabled s.hostXcr0 c = true
      · exact henabled
      · rw [harea] at hc
        exact h.components c ((if_neg henabled).symm.trans hc)
  · rw [OperandEvent.Takes, if_neg hvalid] at htakes
    exact htakes ▸ h

theorem OperandState.Kept.step (h : s.Kept rules)
    (hkept : e.Kept rules supportedSizeMax s) (htakes : e.Takes rules supportedSizeMax s s') :
    s'.Kept rules := by
  cases e with
  | edit call header => exact h.edit hkept htakes
  | haxRegisters state size =>
      rw [show s' = _ from htakes]
      unfold nvcHaxSetVcpuRegisters
      split
      · exact h
      · next hsize =>
          refine h.congr ?_ (.inr fun hvt => ?_) ?_ rfl CoreVcpu.edit_isVt CoreVcpu.edit_plain
            fun _ => id
          · have hxcr0 : (s.vcpu.edit state.edit).header.reg .xcr0 = s.vcpu.header.reg .xcr0 := by
              rw [edit_header]
              rfl
            exact hxcr0
          · have hlt := hkept (CoreVcpu.edit_isVt.symm.trans hvt) (Nat.not_lt.mp hsize)
            exact (edit_header_reg rfl).trans_lt hlt
          · have harea : (s.vcpu.edit state.edit).header.xsaveArea = s.vcpu.header.xsaveArea := by
              rw [edit_header]
              rfl
            exact harea
  | haxMsrs tsc msrs size =>
      rw [show s' = _ from htakes]
      unfold nvcHaxSetMsrs
      split
      · split
        · split
          · exact h
          · obtain ⟨hxcr0, hdr6, harea, hvt, hplain⟩ := @setMsrs_operands tsc msrs s.vcpu 0
            exact h.congr hxcr0 (.inl hdr6) harea rfl hvt hplain fun _ => id
        · exact h
      · exact h
  | haxTunnel tunnel =>
      rw [show s' = _ from htakes]
      exact h.congr rfl (.inl rfl) rfl rfl rfl Iff.rfl fun _ => id
  | hostXcr0 value =>
      obtain ⟨-, rfl⟩ := htakes
      exact h.congr rfl (.inl rfl) rfl rfl rfl Iff.rfl hkept
  | run => exact h.run htakes

end Steps

/-! A processor with AVX-512, whose host has turned on x87 and SSE. -/

def avx512Rules : OperandRules := ⟨0xE7, 0xFFFF, true⟩

def newOperands (isVt : Bool) : OperandState where
  vcpu := (vcpuWithBlock isVt 0).edit (oneEdit .xcr0 none 1)
  header := ⟨false, 0, 0, 0⟩
  useTunnel := false
  tunnel := false
  hostXcr0 := 3

def setRegister (type : RegisterType) (value : Nat) : EditCall :=
  .type type ⟨fun _ => value, zeroArea⟩ 16 0

theorem newOperands_created (isVt : Bool) : (newOperands isVt).Created avx512Rules := by
  cases isVt
  · exact ⟨rfl, rfl, rfl, rfl, rfl, by decide⟩
  · exact ⟨rfl, rfl, rfl, rfl, trivial, by decide⟩

theorem reachable_edited {rules : OperandRules} {size : Nat} {s : OperandState} {call : EditCall}
    {header : AreaHeader} {condition : OperandState → OperandEvent → Prop}
    (h : OperandReachable rules size condition s) (hcondition : condition s (.edit call header)) :
    OperandReachable rules size condition (s.edited size call header) :=
  .step h ⟨.edit call header, hcondition, rfl⟩

theorem takesStandard_of_takesArea {rules : OperandRules} {xcr0 : Nat} {area : Xsave.Area}
    {header : AreaHeader} (h : rules.TakesArea xcr0 area header)
    (hstandard : header.xcompBv.testBit 63 = false) : rules.TakesStandard xcr0 area header := by
  rwa [OperandRules.TakesArea, hstandard, Bool.and_false, if_neg Bool.false_ne_true] at h

/-- The edits that reach an exception: part of AVX-512, reserved bits of MXCSR, a component that the host
has not enabled, a compacted area without its bit, and the upper half of DR6 on VT. -/
theorem unsafe_edits :
    ∀ edit ∈ [
        (false, setRegister .xcr0Register 0x21, AreaHeader.mk false 0 0 0),
        (false, .type .fxstate ⟨fun _ => 0, ⟨fun _ => 0, 0xFFFFFFFF, fun _ => false⟩⟩ 512 0,
          ⟨false, 0, 0, 0⟩),
        (false, .type .xsaveArea ⟨fun _ => 0, ⟨fun _ => 0, 0, fun c => c == 2⟩⟩ 1024 0,
          ⟨false, 0, 0, 0⟩),
        (false, .type .xsaveArea ⟨fun _ => 0, zeroArea⟩ 1024 0, ⟨false, 3, 0, 0⟩),
        (true, setRegister .dr67Register (2 ^ 32), ⟨false, 0, 0, 0⟩)],
      ∃ s, OperandReachable avx512Rules 1024 (fun _ _ => True) s ∧ s.vcpu.isVt = edit.1 ∧
        ¬RunSafe avx512Rules (s.edited 1024 edit.2.1 edit.2.2) := by
  have hstart : ∀ isVt, OperandReachable avx512Rules 1024 (fun _ _ => True)
      ((newOperands isVt).edited 1024 (setRegister .xcr0Register 3) ⟨false, 0, 0, 0⟩) :=
    fun isVt => reachable_edited (.start (newOperands_created isVt)) trivial
  intro edit hmem
  refine ⟨_, hstart edit.1, ?_, ?_⟩
  · cases edit.1 <;> rfl
  · simp only [List.mem_cons, List.not_mem_nil, or_false] at hmem
    rcases hmem with rfl | rfl | rfl | rfl | rfl
    all_goals
      rintro (hinvalid | htaken)
      · exact absurd hinvalid (by decide)
    · exact absurd htaken.xcr0 (by decide)
    · exact absurd ((takesStandard_of_takesArea htaken.area (by decide)).restorable.2 (by decide))
        (by decide)
    · exact absurd ((takesStandard_of_takesArea htaken.area (by decide)).restorable.1 2 (by decide))
        (by decide)
    · exact absurd (takesStandard_of_takesArea htaken.area (by decide)).xcompBv (by decide)
    · exact absurd (htaken.dr6 rfl) (by decide)

end NoirVisor
