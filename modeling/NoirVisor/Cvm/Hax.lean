import NoirVisor.Cvm.RoundTrip
import NoirVisor.Cvm.WorldSwitch

/-!
# The registers as HAXM has them

The state structure of a layered hypervisor that was written for HAXM, and its lists of MSRs. On either
core a set is an edit of the vCPU, and a get synchronizes first.
-/

namespace NoirVisor

open Writeback

structure HaxSegment where
  selector : UInt16
  limit : UInt32
  base : UInt64
  accessRights : UInt32
deriving DecidableEq

/-- The fields of `noir_hax_vcpu_state` that a vCPU has as well. -/
@[ext]
structure HaxVcpuState where
  gpr : Fin 16 → UInt64
  rip : UInt64
  rflags : UInt64
  segment : SegmentName → HaxSegment
  cr0 : UInt64
  cr2 : UInt64
  cr3 : UInt64
  cr4 : UInt64
  dr : Fin 4 → UInt64
  dr6 : UInt64
  dr7 : UInt64
  efer : UInt32
  sysenterCs : UInt32
  sysenterEip : UInt64
  sysenterEsp : UInt64

/-- The size of the structure. -/
def haxVcpuStateSize : Nat := 512

/-- A vCPU on one of the cores. On VT, `current` is the VMCS that the hypercall of a dump finds. -/
inductive CoreVcpu where
  | svm (v : SvmCustomVcpu)
  | vt (fixed : VmxFixedBits) (current : Vmcs) (v : VtCustomVcpu)

namespace CoreVcpu

def header : CoreVcpu → VirtualCpu
  | svm v => v.header
  | vt _ _ v => v.header

def edit (e : RegisterEdit) : CoreVcpu → CoreVcpu
  | svm v => svm { v with header := v.header.edit e }
  | vt fixed current v => vt fixed current { v with header := v.header.edit e }

/-- `nvc_synchronize_vcpu_state`. -/
def synchronize : CoreVcpu → CoreVcpu
  | svm v => svm (nvcSvmDumpGuestVcpuState v)
  | vt fixed current v => vt fixed current (nvcVtDumpVcpuState current v)

def isVt : CoreVcpu → Bool
  | svm _ => false
  | vt .. => true

end CoreVcpu

def nvcHaxConvertFromHaxSegment (hax : HaxSegment) : SegmentField → Nat
  | .selector => hax.selector.toNat
  | .attrib => hax.accessRights.toNat % 2 ^ 16
  | .limit => hax.limit.toNat
  | .baseByte i => hax.base.toNat / 256 ^ i.val % 256

def nvcHaxConvertToHaxSegment (seg : SegmentField → Nat) : HaxSegment where
  selector := .ofNat (seg .selector)
  limit := .ofNat (seg .limit)
  base := .ofNat (segmentHigh seg)
  accessRights := .ofNat (seg .attrib)

namespace HaxVcpuState

/-- What a set writes and invalidates. -/
def edit (state : HaxVcpuState) : RegisterEdit where
  value
    | .gpr i => some (state.gpr i).toNat
    | .seg name field => some (nvcHaxConvertFromHaxSegment (state.segment name) field)
    | .cr0 => some state.cr0.toNat
    | .cr2 => some state.cr2.toNat
    | .cr3 => some state.cr3.toNat
    | .cr4 => some state.cr4.toNat
    | .dr i => some (state.dr i).toNat
    | .dr6 => some state.dr6.toNat
    | .dr7 => some state.dr7.toNat
    | .efer => some state.efer.toNat
    | .sysenterCs => some state.sysenterCs.toNat
    | .sysenterEsp => some state.sysenterEsp.toNat
    | .sysenterEip => some state.sysenterEip.toNat
    | _ => none
  invalidates
    | .gpr | .sr | .fg | .dt | .lt | .cr | .cr2 | .dr | .ef | .se => true
    | _ => false

/-- What a get makes of its buffer. -/
def filled (buffer : HaxVcpuState) (reg : Register → Nat) : HaxVcpuState :=
  { buffer with
    gpr := fun i => .ofNat (reg (.gpr i))
    -- The source converts CS twice, and GS never.
    segment := fun name => nvcHaxConvertToHaxSegment (reg <| .seg (if name = .gs then .cs else name) ·)
    cr0 := .ofNat (reg .cr0)
    cr2 := .ofNat (reg .cr2)
    cr3 := .ofNat (reg .cr3)
    cr4 := .ofNat (reg .cr4)
    dr := fun i => .ofNat (reg (.dr i))
    dr6 := .ofNat (reg .dr6)
    dr7 := .ofNat (reg .dr7)
    efer := .ofNat (reg .efer)
    sysenterCs := .ofNat (reg .sysenterCs)
    sysenterEsp := .ofNat (reg .sysenterEsp)
    sysenterEip := .ofNat (reg .sysenterEip) }

end HaxVcpuState

/-- `present` tells whether there is a hypervisor. The second result is what is stored to
`return_size`. -/
def nvcHaxSetVcpuRegisters (present : Bool) (vcpu : CoreVcpu) (state : HaxVcpuState) (size : Nat) :
    NoirStatus × Option Nat × CoreVcpu :=
  if size < haxVcpuStateSize then (.bufferTooSmall, some 0, vcpu)
  else if present then (.success, some 0, vcpu.edit state.edit)
  else (.hypervisionAbsent, some 0, vcpu)

def nvcHaxGetVcpuRegisters (present : Bool) (vcpu : CoreVcpu) (buffer : HaxVcpuState) (size : Nat) :
    NoirStatus × Option Nat × CoreVcpu × HaxVcpuState :=
  if size < haxVcpuStateSize then (.bufferTooSmall, some 0, vcpu, buffer)
  else if present then
    (.success, some haxVcpuStateSize, vcpu.synchronize, buffer.filled vcpu.synchronize.header.reg)
  else (.hypervisionAbsent, none, vcpu, buffer)

/-! ### Lists of MSRs -/

structure HaxVmxMsr where
  entry : Nat
  value : Nat

def haxMsrTsc : Nat := 0x10
def haxMsrKernelGsBase : Nat := 0xC0000102
def haxMaxMsrArray : Nat := 20

/-- The size of `noir_hax_msr_data`. -/
def haxMsrDataSize : Nat := 328

/-- The cases of a set beside the time stamp counter. -/
def haxSetCases : List (Nat × Register × StateCache) :=
  [(0x174, .sysenterCs, .se), (0x175, .sysenterEsp, .se), (0x176, .sysenterEip, .se),
    (0xC0000080, .efer, .ef), (0xC0000081, .star, .sc), (0xC0000082, .lstar, .sc),
    (0xC0000083, .cstar, .sc), (0xC0000084, .sfmask, .sc), (0xC0000102, .gsswap, .fg)]

/-- The cases of a get. -/
def haxGetCases : List (Nat × Register) :=
  [(0x174, .sysenterCs), (0x175, .sysenterEsp), (0x176, .sysenterEip), (0xC0000080, .efer),
    (0xC0000081, .star), (0xC0000082, .lstar), (0xC0000083, .cstar), (0xC0000084, .sfmask),
    (0xC0000102, .gsswap)]

namespace HaxVmxMsr

def edit (tsc : Nat) (msr : HaxVmxMsr) : Option RegisterEdit :=
  if msr.entry = haxMsrTsc then some (oneEdit .tscOffset (some .ts) (offsetFrom tsc msr.value))
  else (haxSetCases.lookup msr.entry).map fun (r, c) => oneEdit r (some c) msr.value

def view (tsc : Nat) (reg : Register → Nat) (msr : HaxVmxMsr) : Option Nat :=
  if msr.entry = haxMsrTsc then some (counterAt tsc (reg .tscOffset))
  else (haxGetCases.lookup msr.entry).map reg

end HaxVmxMsr

def setMsrs (tsc : Nat → Nat) (vcpu : CoreVcpu) (i : Nat) : List HaxVmxMsr → NoirStatus × CoreVcpu
  | [] => (.success, vcpu)
  | msr :: msrs =>
      match msr.edit (tsc i) with
      | none => (.invalidParameter, vcpu)
      | some e => setMsrs tsc (vcpu.edit e) (i + 1) msrs

def getMsrs (tsc : Nat → Nat) (reg : Register → Nat) (i : Nat) :
    List HaxVmxMsr → NoirStatus × List HaxVmxMsr
  | [] => (.success, [])
  | msr :: msrs =>
      match msr.view (tsc i) reg with
      | none => (.invalidParameter, msr :: msrs)
      | some value =>
          let rest := getMsrs tsc reg (i + 1) msrs
          (rest.1, { msr with value } :: rest.2)

/-- `msrs` are the first `nr_msr` entries of the array. -/
def nvcHaxSetMsrs (present : Bool) (tsc : Nat → Nat) (vcpu : CoreVcpu) (msrs : List HaxVmxMsr)
    (size : Nat) : NoirStatus × CoreVcpu :=
  if haxMsrDataSize ≤ size then
    if present then
      if msrs.length ≥ haxMaxMsrArray then (.invalidParameter, vcpu) else setMsrs tsc vcpu 0 msrs
    else (.hypervisionAbsent, vcpu)
  else (.bufferTooSmall, vcpu)

def nvcHaxGetMsrs (present : Bool) (tsc : Nat → Nat) (vcpu : CoreVcpu) (msrs : List HaxVmxMsr)
    (size : Nat) : NoirStatus × CoreVcpu × List HaxVmxMsr :=
  if haxMsrDataSize ≤ size then
    if present then
      if msrs.length ≥ haxMaxMsrArray then (.invalidParameter, vcpu, msrs)
      else
        let got := getMsrs tsc vcpu.synchronize.header.reg 0 msrs
        (got.1, vcpu.synchronize, got.2)
    else (.hypervisionAbsent, vcpu, msrs)
  else (.bufferTooSmall, vcpu, msrs)

/-! ### What the calls are for -/

namespace CoreVcpu

/-- At the next entry of a guest that is not protected, it has this in a register. -/
def Gives (vcpu : CoreVcpu) (r : Register) (value : Nat) : Prop :=
  match vcpu with
  | svm v => ∀ procId p, svmHeld (svmLoaded v.header p) (v.entered procId) r = svmStored r value
  | vt fixed _ v => ∀ stack (p : Processor),
      vtHeld (p.loaded Register.isVtLate (p.reg .xcr0) v.header) (v.entered fixed stack) r =
        (vtProtocol fixed).stored r value

end CoreVcpu

/-- What a state structure says of a register. -/
def HaxVcpuState.value (state : HaxVcpuState) : Register → Option Nat
  | .rip => some state.rip.toNat
  | .rflags => some state.rflags.toNat
  | .seg name .attrib => some (state.segment name).accessRights.toNat
  | r => state.edit.value r

/-- A get after a set returns the state, and the next entry gives it to the guest. -/
structure CoreVcpu.RegistersReturned (vcpu : CoreVcpu) (state buffer : HaxVcpuState) : Prop where
  returned :
    let set := nvcHaxSetVcpuRegisters true vcpu state haxVcpuStateSize
    let got := nvcHaxGetVcpuRegisters true set.2.2 buffer haxVcpuStateSize
    set.1 = .success ∧ got.1 = .success ∧ got.2.2.2 = state
  used : ∀ r value, state.value r = some value →
    (nvcHaxSetVcpuRegisters true vcpu state haxVcpuStateSize).2.2.Gives r value

/-- What no path copies is as it should be already. -/
structure CoreVcpu.RegistersKept (vcpu : CoreVcpu) (state buffer : HaxVcpuState) : Prop where
  rip : buffer.rip = state.rip ∧ vcpu.header.reg .rip = state.rip.toNat
  rflags : buffer.rflags = state.rflags ∧ vcpu.header.reg .rflags = state.rflags.toNat
  gs : state.segment .gs = state.segment .cs
  accessRights : ∀ name, (state.segment name).accessRights.toNat < 2 ^ 16

/-- The MSRs that the lists may have. -/
def HaxHandled (entry : Nat) : Prop := entry = haxMsrTsc ∨ haxSetCases.lookup entry ≠ none

/-- No later entry of the list is for the MSR of this one. -/
def LastFor (msrs : List HaxVmxMsr) (j : Nat) (msr : HaxVmxMsr) : Prop :=
  msrs[j]? = some msr ∧ ∀ k msr', j < k → msrs[k]? = some msr' → msr'.entry ≠ msr.entry

structure CoreVcpu.MsrsReturned (vcpu : CoreVcpu) (msrs seen : List HaxVmxMsr) (tsc tsc' : Nat → Nat) :
    Prop where
  returned : (∀ msr ∈ msrs, HaxHandled msr.entry) →
    let set := nvcHaxSetMsrs true tsc vcpu msrs haxMsrDataSize
    let got := nvcHaxGetMsrs true tsc' set.2 seen haxMsrDataSize
    set.1 = .success ∧ got.1 = .success ∧
      ∀ (i j : Nat) msr, LastFor msrs j msr → msr.entry ≠ haxMsrTsc →
        (msrs.map HaxVmxMsr.entry)[i]? = some msr.entry → got.2.2[i]? = some msr
  used : (∀ msr ∈ msrs, HaxHandled msr.entry) →
    ∀ j msr e r value, LastFor msrs j msr → msr.edit (tsc j) = some e → e.value r = some value →
      (nvcHaxSetMsrs true tsc vcpu msrs haxMsrDataSize).2.Gives r value
  unknown : (∃ msr ∈ msrs, ¬HaxHandled msr.entry) →
    (nvcHaxSetMsrs true tsc vcpu msrs haxMsrDataSize).2 = vcpu

/-- A list is meant to be set, and got for the same MSRs, whatever the vCPU of a core. -/
def MsrsRoundTrip (isVt : Bool) (msrs : List HaxVmxMsr) : Prop :=
  ∀ (vcpu : CoreVcpu) (seen : List HaxVmxMsr) (tsc tsc' : Nat → Nat), vcpu.isVt = isVt →
    seen.map HaxVmxMsr.entry = msrs.map HaxVmxMsr.entry → vcpu.MsrsReturned msrs seen tsc tsc'

/-- A list that is not full and has MSRs only that the switch of the core loads, or one that is turned
down before anything was set. -/
def MsrsRegular (isVt : Bool) (msrs : List HaxVmxMsr) : Prop :=
  (∀ msr ∈ msrs, HaxHandled msr.entry) ∧ msrs.length < haxMaxMsrArray ∧
      (isVt = true → ∀ msr ∈ msrs, msr.entry ≠ haxMsrTsc ∧ msr.entry ≠ haxMsrKernelGsBase) ∨
    (∃ msr ∈ msrs, ¬HaxHandled msr.entry) ∧
      (msrs.length ≥ haxMaxMsrArray ∨ ∃ msr rest, msrs = msr :: rest ∧ ¬HaxHandled msr.entry)

/-! ### The vCPU after a set -/

namespace CoreVcpu

def home : CoreVcpu → Register → Home StateCache
  | svm _ => svmHome
  | vt .. => vtHome

def loads : CoreVcpu → Register → Bool
  | svm _ => svmLoads
  | vt .. => vtLoads

def stored : CoreVcpu → Register → Nat → Nat
  | svm _ => svmStored
  | vt fixed _ _ => (vtProtocol fixed).stored

variable {vcpu : CoreVcpu} {r : Register} {value : Nat} {es : List RegisterEdit}

/-- The next entry takes a register from the structure if its group is to be loaded. -/
theorem gives_iff (hblock : vcpu.home r ≠ .block)
    (hgroup : ∀ c, vcpu.home r = .group c →
      vcpu.header.stateCache c = false ∧ vcpu.loads r = true) :
    vcpu.Gives r value ↔ vcpu.stored r (vcpu.header.reg r) = vcpu.stored r value := by
  cases vcpu with
  | svm v =>
      have hheld : ∀ procId p, svmHeld (svmLoaded v.header p) (v.entered procId) r =
          svmStored r (v.header.reg r) := by
        intro procId p
        unfold svmHeld svmStored
        cases hhome : svmHome r with
        | cache =>
            dsimp only
            split
            · next hswitched => exact copyRegisters_of_selected hswitched
            · rw [SvmCustomVcpu.entered_reg]
        | block => exact absurd hhome hblock
        | group c =>
            obtain ⟨hvalid, hloads⟩ := hgroup c hhome
            have hvalid' : v.header.stateCache c = false := hvalid
            have hloads' : svmLoads r = true := hloads
            dsimp only
            rw [SvmCustomVcpu.entered_guest]
            simp [Protocol.load, SvmCustomVcpu.protocol, svmProtocol, Protocol.inBlock, hhome, hloads',
              SvmCustomVcpu.writeback, hvalid']
      exact ⟨fun h => (hheld 0 zeroProcessor).symm.trans (h 0 zeroProcessor),
        fun h procId p => (hheld procId p).trans h⟩
  | vt fixed current v =>
      have hheld : ∀ stack (p : Processor),
          vtHeld (p.loaded Register.isVtLate (p.reg .xcr0) v.header) (v.entered fixed stack) r =
            (vtProtocol fixed).stored r (v.header.reg r) := by
        intro stack p
        have hload : (v.entered fixed stack).writeback = _ := VtCustomVcpu.writeback_entered
        have hhome' : (vtProtocol fixed).home r = vtHome r := rfl
        unfold vtHeld Protocol.stored
        rw [hhome']
        cases hhome : vtHome r with
        | cache =>
            dsimp only
            split
            · next hswitched => exact copyRegisters_of_selected hswitched
            · exact congrFun (congrArg State.cache hload) r
        | block => exact absurd hhome hblock
        | group c =>
            obtain ⟨hvalid, hloads⟩ := hgroup c hhome
            have hvalid' : v.header.stateCache c = false := hvalid
            have hloads' : vtLoads r = true := hloads
            refine (congrFun (congrArg State.block hload) r).trans ?_
            simp [Protocol.load, vtProtocol, Protocol.inBlock, hhome, hloads', VtCustomVcpu.writeback,
              hvalid']
      exact ⟨fun h => (hheld ⟨0, false⟩ zeroProcessor).symm.trans (h ⟨0, false⟩ zeroProcessor),
        fun h stack p => (hheld stack p).trans h⟩

/-- A dump leaves what is not in the control block. -/
theorem synchronize_reg (hblock : vcpu.home r ≠ .block)
    (hgroup : ∀ c, vcpu.home r = .group c → vcpu.header.stateCache c = false) :
    vcpu.synchronize.header.reg r = vcpu.header.reg r := by
  cases vcpu with
  | svm v =>
      change (nvcSvmDumpGuestVcpuState v).header.reg r = v.header.reg r
      have hnot : v.protocol.inBlock v.header.stateCache r = false := by
        cases hhome : svmHome r with
        | cache => simp [SvmCustomVcpu.protocol, svmProtocol, Protocol.inBlock, hhome]
        | block => exact absurd hhome hblock
        | group c =>
            have hvalid : v.header.stateCache c = false := hgroup c hhome
            simp [SvmCustomVcpu.protocol, svmProtocol, Protocol.inBlock, hhome, hvalid]
      rw [SvmCustomVcpu.dump_reg, SvmCustomVcpu.dumps, hnot, Bool.and_false,
        if_neg Bool.false_ne_true]
  | vt fixed current v =>
      change (nvcVtDumpVcpuState current v).header.reg r = v.header.reg r
      have hnot : (vtProtocol fixed).inBlock v.writeback.valid r = false := by
        cases hhome : vtHome r with
        | cache => simp [vtProtocol, Protocol.inBlock, hhome]
        | block => exact absurd hhome hblock
        | group c =>
            have hvalid : v.header.stateCache c = false := hgroup c hhome
            simp [vtProtocol, Protocol.inBlock, hhome, VtCustomVcpu.writeback, hvalid]
      have hdump : (nvcVtDumpVcpuState current v).writeback =
          (vtProtocol fixed).dump (v.dumpRead current) v.writeback := VtCustomVcpu.writeback_dump
      refine (congrFun (congrArg State.cache hdump) r).trans (if_neg ?_)
      rw [hnot, Bool.and_false]
      exact Bool.false_ne_true

theorem edits_header (es : List RegisterEdit) (vcpu : CoreVcpu) :
    (es.foldl (fun vcpu e => vcpu.edit e) vcpu).header = es.foldl VirtualCpu.edit vcpu.header := by
  induction es generalizing vcpu with
  | nil => rfl
  | cons e es ih =>
      rw [List.foldl_cons, List.foldl_cons, ih]
      cases vcpu <;> rfl

end CoreVcpu

section Registers

variable {vcpu : CoreVcpu} {state buffer : HaxVcpuState} {r : Register} {value : Nat}
  {reg : Register → Nat} {e : RegisterEdit}

theorem edit_header : (vcpu.edit e).header = vcpu.header.edit e := by
  cases vcpu <;> rfl

theorem edit_header_reg (h : e.value r = some value) : (vcpu.edit e).header.reg r = value := by
  rw [edit_header]
  simp [VirtualCpu.edit, Writeback.Edit.write, h]

theorem edit_home : (vcpu.edit e).home = vcpu.home := by
  cases vcpu <;> rfl

theorem edit_loads : (vcpu.edit e).loads = vcpu.loads := by
  cases vcpu <;> rfl

/-- The registers of a state at this home are in a group that a set invalidates and an entry loads. -/
def HaxVcpuState.Refreshes (vcpu : CoreVcpu) (state : HaxVcpuState) (r : Register) :
    Writeback.Home StateCache → Prop
  | .cache => True
  | .block => False
  | .group c => state.edit.invalidates c = true ∧ vcpu.loads r = true

theorem HaxVcpuState.home_edit (vcpu : CoreVcpu) (h : state.value r = some value) :
    vcpu.home r ≠ .block ∧ ∀ c, vcpu.home r = .group c →
      (vcpu.edit state.edit).header.stateCache c = false ∧ vcpu.loads r = true := by
  have hgroups : state.Refreshes vcpu r (vcpu.home r) := by
    cases vcpu <;> cases r with
    | gpr i => by_cases hi : i = 0 <;> by_cases hi' : i = 4 <;>
        simp [Refreshes, CoreVcpu.home, CoreVcpu.loads, svmHome, vtHome, svmLoads, vtLoads, edit, hi, hi']
    | seg name field => cases name <;> cases field <;> first | exact trivial | exact ⟨rfl, rfl⟩
    | _ => first
        | exact trivial
        | exact ⟨rfl, rfl⟩
        | exact (Option.some_ne_none value h.symm).elim
  cases hhome : vcpu.home r with
  | cache => exact ⟨by rintro ⟨⟩, by rintro _ ⟨⟩⟩
  | block =>
      rw [hhome] at hgroups
      exact hgroups.elim
  | group c =>
      rw [hhome] at hgroups
      refine ⟨by rintro ⟨⟩, fun c' hc => ?_⟩
      cases hc
      refine ⟨?_, hgroups.2⟩
      rw [edit_header]
      simp [VirtualCpu.edit, hgroups.1]

/-- A segment there and back. -/
theorem convertToHaxSegment_from (hax : HaxSegment) :
    nvcHaxConvertToHaxSegment (nvcHaxConvertFromHaxSegment hax) =
      { hax with accessRights := .ofNat (hax.accessRights.toNat % 2 ^ 16) } := by
  have hbase : segmentHigh (nvcHaxConvertFromHaxSegment hax) = hax.base.toNat :=
    @segmentHigh_segmentField 0 _ hax.base.toNat_lt
  unfold nvcHaxConvertToHaxSegment
  rw [hbase]
  simp [nvcHaxConvertFromHaxSegment]

theorem filled_eq_iff (hreg : ∀ r value, state.edit.value r = some value → reg r = value) :
    buffer.filled reg = state ↔ buffer.rip = state.rip ∧ buffer.rflags = state.rflags ∧
      state.segment .gs = state.segment .cs ∧
      ∀ name, (state.segment name).accessRights.toNat < 2 ^ 16 := by
  have hsegment : ∀ name, (buffer.filled reg).segment name =
      nvcHaxConvertToHaxSegment
        (nvcHaxConvertFromHaxSegment (state.segment (if name = .gs then .cs else name))) := by
    intro name
    exact congrArg nvcHaxConvertToHaxSegment (funext fun field => hreg _ _ rfl)
  constructor
  · intro heq
    have hsame : ∀ name, state.segment name = _ := fun name =>
      (congrArg (fun s : HaxVcpuState => s.segment name) heq).symm.trans (hsegment name)
    refine ⟨?_, ?_, (hsame .gs).trans (hsame .cs).symm, fun name => ?_⟩
    · rw [← heq]
      rfl
    · rw [← heq]
      rfl
    · rw [hsame name, convertToHaxSegment_from]
      simp
      omega
  · rintro ⟨hrip, hrflags, hgs, hrights⟩
    have hsame : ∀ name, (buffer.filled reg).segment name = state.segment name := by
      intro name
      have hkept : ∀ hax : HaxSegment, hax.accessRights.toNat < 2 ^ 16 →
          nvcHaxConvertToHaxSegment (nvcHaxConvertFromHaxSegment hax) = hax := by
        intro hax hlt
        rw [convertToHaxSegment_from, Nat.mod_eq_of_lt hlt, UInt32.ofNat_toNat]
      rw [hsegment]
      split
      · next hname => rw [hname, hgs, hkept _ (hrights .cs)]
      · exact hkept _ (hrights name)
    apply HaxVcpuState.ext
    · exact funext fun i => (congrArg _ (hreg _ _ rfl)).trans UInt64.ofNat_toNat
    · exact hrip
    · exact hrflags
    · exact funext hsame
    all_goals first
      | exact (congrArg _ (hreg _ _ rfl)).trans UInt64.ofNat_toNat
      | exact (congrArg _ (hreg _ _ rfl)).trans UInt32.ofNat_toNat
      | exact funext fun i => (congrArg _ (hreg _ _ rfl)).trans UInt64.ofNat_toNat

theorem set_eq : nvcHaxSetVcpuRegisters true vcpu state haxVcpuStateSize =
    (.success, some 0, vcpu.edit state.edit) := rfl

/-- RIP and RFLAGS are not written. -/
theorem gives_frame (hr : r = .rip ∨ r = .rflags) :
    (vcpu.edit state.edit).Gives r value ↔ vcpu.header.reg r = value := by
  have hvalue : ∃ value', state.value r = some value' := by
    rcases hr with rfl | rfl <;> exact ⟨_, rfl⟩
  have hnone : state.edit.value r = none := by
    rcases hr with rfl | rfl <;> rfl
  obtain ⟨value', hvalue⟩ := hvalue
  obtain ⟨hblock, hgroup⟩ := HaxVcpuState.home_edit vcpu hvalue
  rw [CoreVcpu.gives_iff (by rwa [edit_home]) (by rwa [edit_home, edit_loads]), edit_header]
  have hreg : (vcpu.header.edit state.edit).reg r = vcpu.header.reg r := by
    simp [VirtualCpu.edit, Writeback.Edit.write, hnone]
  rw [hreg]
  cases vcpu <;> rcases hr with rfl | rfl <;> rfl

theorem registersReturned_iff :
    vcpu.RegistersReturned state buffer ↔ vcpu.RegistersKept state buffer := by
  have hsynchronized : ∀ r value, state.edit.value r = some value →
      (vcpu.edit state.edit).synchronize.header.reg r = value := by
    intro r value h
    have hvalue : ∃ value', state.value r = some value' := by
      cases r with
      | seg name field => cases field <;> exact ⟨_, rfl⟩
      | rip => exact ⟨_, rfl⟩
      | rflags => exact ⟨_, rfl⟩
      | _ => exact ⟨value, h⟩
    obtain ⟨value', hvalue⟩ := hvalue
    obtain ⟨hblock, hgroup⟩ := HaxVcpuState.home_edit vcpu hvalue
    rw [← @edit_home vcpu state.edit] at hblock hgroup
    rw [CoreVcpu.synchronize_reg hblock fun c hc => (hgroup c hc).1]
    exact edit_header_reg h
  have hfilled := @filled_eq_iff state buffer _ hsynchronized
  constructor
  · rintro ⟨⟨-, -, hreturned⟩, hused⟩
    obtain ⟨hrip, hrflags, hgs, hrights⟩ := hfilled.mp hreturned
    exact ⟨⟨hrip, (gives_frame (.inl rfl)).mp (hused _ _ rfl)⟩,
      ⟨hrflags, (gives_frame (.inr rfl)).mp (hused _ _ rfl)⟩, hgs, hrights⟩
  · rintro ⟨⟨hrip, hheldRip⟩, ⟨hrflags, hheldRflags⟩, hgs, hrights⟩
    refine ⟨⟨rfl, rfl, hfilled.mpr ⟨hrip, hrflags, hgs, hrights⟩⟩, fun r value hvalue => ?_⟩
    rw [set_eq]
    by_cases hframe : r = .rip ∨ r = .rflags
    · refine (gives_frame hframe).mpr ?_
      rcases hframe with rfl | rfl
      · exact hheldRip.trans (Option.some.inj hvalue)
      · exact hheldRflags.trans (Option.some.inj hvalue)
    · obtain ⟨hblock, hgroup⟩ := HaxVcpuState.home_edit vcpu hvalue
      have hedit : state.edit.value r = some value := by
        cases r with
        | rip => exact absurd (Or.inl rfl) hframe
        | rflags => exact absurd (Or.inr rfl) hframe
        | seg name field =>
            cases field with
            | attrib => rw [← hvalue]; exact congrArg some (Nat.mod_eq_of_lt (hrights name))
            | _ => exact hvalue
        | _ => exact hvalue
      rw [CoreVcpu.gives_iff (by rwa [edit_home]) (by rwa [edit_home, edit_loads]),
        edit_header_reg hedit]

end Registers

section Msrs

variable {vcpu : CoreVcpu} {msr : HaxVmxMsr} {msrs seen : List HaxVmxMsr} {tsc tsc' : Nat → Nat}
  {reg : Register → Nat} {r : Register} {e : RegisterEdit} {i j value : Nat} {isVt : Bool}

/-- The register of an MSR. -/
def haxRegister (entry : Nat) : Option Register :=
  if entry = haxMsrTsc then some .tscOffset else haxGetCases.lookup entry

theorem haxRegister_inj {entry entry' : Nat} (h : haxRegister entry = some r)
    (h' : haxRegister entry' = some r) : entry = entry' := by
  have hunique : ∀ p ∈ haxGetCases, ∀ q ∈ haxGetCases, p.2 = q.2 → p.1 = q.1 := by decide
  have hcounter : ∀ p ∈ haxGetCases, p.2 ≠ .tscOffset := by decide
  unfold haxRegister at h h'
  split at h
  · next heq =>
      split at h'
      · next heq' => exact heq.trans heq'.symm
      · exact absurd (Option.some.inj h).symm (hcounter _ (mem_of_lookup h'))
  · split at h'
    · exact absurd (Option.some.inj h').symm (hcounter _ (mem_of_lookup h))
    · exact hunique _ (mem_of_lookup h) _ (mem_of_lookup h') rfl

/-- An edit of an MSR is one of its register, with the group of the register. -/
theorem haxEdit_eq (hedit : msr.edit i = some e) :
    ∃ r c value, haxRegister msr.entry = some r ∧ r.invalidated = some c ∧
      e = oneEdit r (some c) value ∧ (msr.entry ≠ haxMsrTsc → value = msr.value) := by
  unfold HaxVmxMsr.edit at hedit
  split at hedit
  · next heq =>
      cases hedit
      exact ⟨.tscOffset, .ts, _, if_pos heq, rfl, rfl, fun hne => absurd heq hne⟩
  · next hne =>
      obtain ⟨⟨r, c⟩, hlookup, rfl⟩ := Option.map_eq_some_iff.mp hedit
      have hcases : ∀ p ∈ haxSetCases,
          haxGetCases.lookup p.1 = some p.2.1 ∧ p.2.1.invalidated = some p.2.2 := by decide
      obtain ⟨hregister, hgroup⟩ := hcases _ (mem_of_lookup hlookup)
      exact ⟨r, c, _, (if_neg hne).trans hregister, hgroup, rfl, fun _ => rfl⟩

theorem exists_haxEdit (h : HaxHandled msr.entry) (i : Nat) : ∃ e, msr.edit i = some e := by
  unfold HaxVmxMsr.edit
  rcases h with heq | hlookup
  · exact ⟨_, if_pos heq⟩
  · split
    · exact ⟨_, rfl⟩
    · obtain ⟨p, hp⟩ := Option.ne_none_iff_exists'.mp hlookup
      exact ⟨_, by rw [hp]; rfl⟩

theorem haxEdit_eq_none (h : ¬HaxHandled msr.entry) (i : Nat) : msr.edit i = none := by
  obtain ⟨htsc, hlookup⟩ := not_or.mp h
  rw [HaxVmxMsr.edit, if_neg htsc, not_not.mp hlookup]
  rfl

theorem haxView_eq (h : haxRegister msr.entry = some r) (htsc : msr.entry ≠ haxMsrTsc) (i : Nat) :
    msr.view i reg = some (reg r) := by
  rw [haxRegister, if_neg htsc] at h
  rw [HaxVmxMsr.view, if_neg htsc, h]
  rfl

/-- The edits of a list without unknown MSRs. -/
def msrEdits (tsc : Nat → Nat) (i : Nat) : List HaxVmxMsr → List RegisterEdit
  | [] => []
  | msr :: msrs => (msr.edit (tsc i)).getD ⟨fun _ => none, fun _ => false⟩ :: msrEdits tsc (i + 1) msrs

theorem msrEdits_getElem :
    (msrEdits tsc i msrs)[j]? = msrs[j]?.map fun msr =>
      (msr.edit (tsc (i + j))).getD ⟨fun _ => none, fun _ => false⟩ := by
  induction msrs generalizing i j with
  | nil => rfl
  | cons msr msrs ih =>
      cases j with
      | zero => rfl
      | succ j =>
          have hindex : i + (j + 1) = i + 1 + j := by omega
          rw [hindex]
          exact ih

theorem setMsrs_eq (hhandled : ∀ msr ∈ msrs, HaxHandled msr.entry) :
    setMsrs tsc vcpu i msrs =
      (.success, (msrEdits tsc i msrs).foldl (fun vcpu e => vcpu.edit e) vcpu) := by
  induction msrs generalizing vcpu i with
  | nil => rfl
  | cons msr msrs ih =>
      obtain ⟨hmsr, hmsrs⟩ := List.forall_mem_cons.mp hhandled
      obtain ⟨e, hedit⟩ := exists_haxEdit hmsr (tsc i)
      unfold setMsrs msrEdits
      rw [hedit]
      exact ih hmsrs

theorem msrEdits_lastWrite (hlast : LastFor msrs j msr) (hedit : msr.edit (tsc j) = some e)
    (hvalue : e.value r = some value) :
    lastWrite (msrEdits tsc 0 msrs) r = some value := by
  refine lastWrite_eq_some (j := j) (e := e) ?_ hvalue ?_
  · rw [msrEdits_getElem, hlast.1, Option.map_some, Nat.zero_add, hedit]
    rfl
  · intro k e' hlt hk
    rw [msrEdits_getElem] at hk
    obtain ⟨msr', hmsr', rfl⟩ := Option.map_eq_some_iff.mp hk
    cases hedit' : msr'.edit (tsc (0 + k)) with
    | none => rfl
    | some e' =>
        obtain ⟨r₀, c, value₀, hregister, -, rfl, -⟩ := haxEdit_eq hedit
        obtain ⟨r₁, c₁, value₁, hregister', -, rfl, -⟩ := haxEdit_eq hedit'
        have hr : r = r₀ := by
          by_contra hne
          rw [oneEdit] at hvalue
          exact absurd hvalue (by simp [hne])
        have hne : r ≠ r₁ := by
          rintro rfl
          exact hlast.2 k msr' hlt hmsr' (haxRegister_inj hregister' (hr ▸ hregister))
        exact if_neg hne

theorem msrEdits_invalidating (hmem : e ∈ msrEdits tsc i msrs) : Invalidating e := by
  obtain ⟨j, hj⟩ := List.getElem?_of_mem hmem
  rw [msrEdits_getElem] at hj
  obtain ⟨msr, -, rfl⟩ := Option.map_eq_some_iff.mp hj
  cases hedit : msr.edit (tsc (i + j)) with
  | none => exact fun r c h => absurd rfl h
  | some e =>
      obtain ⟨r, c, value, -, hgroup, rfl, -⟩ := haxEdit_eq hedit
      exact oneEdit_invalidating (.inr hgroup.symm)

/-- The register of an MSR is in its group on SVM, and on VT if it is loaded from there. -/
theorem haxRegister_home {c : StateCache} {entry : Nat} (h : haxRegister entry = some r)
    (hgroup : r.invalidated = some c) :
    svmHome r = .group c ∧ svmLoads r = true ∧
      (entry ≠ haxMsrTsc → vtHome r = .group c) ∧
      (entry ≠ haxMsrTsc → entry ≠ haxMsrKernelGsBase → vtLoads r = true) := by
  have hcases : ∀ p ∈ haxGetCases, ∀ c, p.2.invalidated = some c →
      svmHome p.2 = .group c ∧ svmLoads p.2 = true ∧ vtHome p.2 = .group c ∧
        (p.1 ≠ haxMsrKernelGsBase → vtLoads p.2 = true) := by
    intro p hp c hgroup
    simp only [haxGetCases, List.mem_cons, List.not_mem_nil, or_false] at hp
    rcases hp with rfl | rfl | rfl | rfl | rfl | rfl | rfl | rfl | rfl
    all_goals
      cases hgroup
      simp [svmHome, svmLoads, vtHome, vtLoads, haxMsrKernelGsBase]
  unfold haxRegister at h
  split at h
  · next heq =>
      cases h
      cases hgroup
      exact ⟨rfl, rfl, fun hne => absurd heq hne, fun hne => absurd heq hne⟩
  · obtain ⟨hhome, hloads, hvtHome, hvtLoads⟩ := hcases _ (mem_of_lookup h) c hgroup
    exact ⟨hhome, hloads, fun _ => hvtHome, fun _ => hvtLoads⟩

/-- After a list was set, its last value for an MSR is in the structure, and the group invalid. -/
theorem setMsrs_header (hlast : LastFor msrs j msr) (hedit : msr.edit (tsc j) = some e)
    (hvalue : e.value r = some value) :
    let vcpu' := (msrEdits tsc 0 msrs).foldl (fun vcpu e => vcpu.edit e) vcpu
    vcpu'.header.reg r = value ∧
      ∀ c, r.invalidated = some c → vcpu'.header.stateCache c = false := by
  have hwrite := msrEdits_lastWrite hlast hedit hvalue
  dsimp only
  rw [CoreVcpu.edits_header]
  constructor
  · rw [EditCalls.edits_reg, hwrite, Option.getD_some]
  · intro c hgroup
    rw [EditCalls.edits_stateCache,
      any_invalidates_of_lastWrite (fun e => msrEdits_invalidating) hwrite hgroup, Bool.not_true,
      Bool.and_false]

theorem getMsrs_spec (hhandled : ∀ msr ∈ seen, HaxHandled msr.entry) :
    (getMsrs tsc reg i seen).1 = .success ∧
      ∀ (k : Nat) msr r, seen[k]? = some msr → haxRegister msr.entry = some r → msr.entry ≠ haxMsrTsc →
        (getMsrs tsc reg i seen).2[k]? = some ⟨msr.entry, reg r⟩ := by
  induction seen generalizing i with
  | nil => exact ⟨rfl, fun k msr r h => (nomatch h)⟩
  | cons first seen ih =>
      obtain ⟨hfirst, hseen⟩ := List.forall_mem_cons.mp hhandled
      obtain ⟨hsuccess, hgot⟩ := @ih (i + 1) hseen
      obtain ⟨value, hview⟩ : ∃ value, first.view (tsc i) reg = some value := by
        by_cases htsc : first.entry = haxMsrTsc
        · exact ⟨_, if_pos htsc⟩
        · obtain ⟨e, hedit⟩ := exists_haxEdit hfirst (tsc i)
          obtain ⟨r, -, -, hregister, -⟩ := haxEdit_eq hedit
          exact ⟨_, haxView_eq hregister htsc (tsc i)⟩
      unfold getMsrs
      rw [hview]
      refine ⟨hsuccess, fun k msr r hk hregister htsc => ?_⟩
      cases k with
      | zero =>
          cases Option.some.inj hk
          rw [haxView_eq hregister htsc] at hview
          cases hview
          rfl
      | succ k => exact hgot k msr r hk hregister htsc

theorem set_of_short (hlength : msrs.length < haxMaxMsrArray) :
    nvcHaxSetMsrs true tsc vcpu msrs haxMsrDataSize = setMsrs tsc vcpu 0 msrs := by
  rw [nvcHaxSetMsrs, if_pos le_rfl, if_pos rfl, if_neg (Nat.not_le.mpr hlength)]

theorem set_of_long (hlength : msrs.length ≥ haxMaxMsrArray) :
    nvcHaxSetMsrs true tsc vcpu msrs haxMsrDataSize = (.invalidParameter, vcpu) := by
  rw [nvcHaxSetMsrs, if_pos le_rfl, if_pos rfl, if_pos hlength]

theorem edits_home {es : List RegisterEdit} :
    (es.foldl (fun vcpu e => vcpu.edit e) vcpu).home = vcpu.home ∧
      (es.foldl (fun vcpu e => vcpu.edit e) vcpu).loads = vcpu.loads ∧
      (es.foldl (fun vcpu e => vcpu.edit e) vcpu).isVt = vcpu.isVt := by
  induction es generalizing vcpu with
  | nil => exact ⟨rfl, rfl, rfl⟩
  | cons e es ih =>
      obtain ⟨hhome, hloads, hvt⟩ := @ih (vcpu.edit e)
      refine ⟨hhome.trans edit_home, hloads.trans edit_loads, hvt.trans ?_⟩
      cases vcpu <;> rfl

/-- A list of MSRs that the core loads is returned and used. -/
theorem msrsReturned_of_handled (hhandled : ∀ msr ∈ msrs, HaxHandled msr.entry)
    (hlength : msrs.length < haxMaxMsrArray)
    (hvt : vcpu.isVt = true → ∀ msr ∈ msrs, msr.entry ≠ haxMsrTsc ∧ msr.entry ≠ haxMsrKernelGsBase)
    (hseen : seen.map HaxVmxMsr.entry = msrs.map HaxVmxMsr.entry) :
    vcpu.MsrsReturned msrs seen tsc tsc' := by
  have hset := (set_of_short hlength).trans (@setMsrs_eq vcpu msrs tsc 0 hhandled)
  obtain ⟨hhome, hloads, -⟩ := @edits_home vcpu (msrEdits tsc 0 msrs)
  refine ⟨fun _ => ?_, fun _ => ?_, fun ⟨msr, hmem, hnot⟩ => absurd (hhandled msr hmem) hnot⟩
  · dsimp only
    rw [hset]
    have hseenLength : seen.length < haxMaxMsrArray := by
      rw [← List.length_map HaxVmxMsr.entry, hseen, List.length_map]
      exact hlength
    have hget : ∀ vcpu : CoreVcpu, nvcHaxGetMsrs true tsc' vcpu seen haxMsrDataSize =
        ((getMsrs tsc' vcpu.synchronize.header.reg 0 seen).1, vcpu.synchronize,
          (getMsrs tsc' vcpu.synchronize.header.reg 0 seen).2) := by
      intro vcpu
      rw [nvcHaxGetMsrs, if_pos le_rfl, if_pos rfl, if_neg (Nat.not_le.mpr hseenLength)]
    have hseenHandled : ∀ msr ∈ seen, HaxHandled msr.entry := by
      intro msr hmem
      have hentry := List.mem_map_of_mem (f := HaxVmxMsr.entry) hmem
      rw [hseen] at hentry
      obtain ⟨msr', hmem', heq⟩ := List.mem_map.mp hentry
      exact heq ▸ hhandled msr' hmem'
    rw [hget]
    obtain ⟨hsuccess, hgot⟩ := @getMsrs_spec seen tsc'
      ((msrEdits tsc 0 msrs).foldl (fun vcpu e => vcpu.edit e) vcpu).synchronize.header.reg 0
      hseenHandled
    refine ⟨rfl, hsuccess, fun i j msr hlast htsc hi => ?_⟩
    obtain ⟨e, hedit⟩ := exists_haxEdit (hhandled msr (List.mem_of_getElem? hlast.1)) (tsc j)
    obtain ⟨r, c, value, hregister, hgroup, rfl, hvalue⟩ := haxEdit_eq hedit
    obtain rfl := hvalue htsc
    obtain ⟨hreg, hinvalid⟩ := @setMsrs_header vcpu _ _ _ r _ _ _ hlast hedit (if_pos rfl)
    obtain ⟨hsvmHome, -, hvtHome, -⟩ := haxRegister_home hregister hgroup
    obtain ⟨msr', hmsr', heq⟩ : ∃ msr', seen[i]? = some msr' ∧ msr'.entry = msr.entry := by
      rw [← hseen, List.getElem?_map] at hi
      exact Option.map_eq_some_iff.mp hi
    rw [hgot i msr' r hmsr' (heq ▸ hregister) (heq ▸ htsc), CoreVcpu.synchronize_reg, hreg, heq]
    · rw [hhome]
      cases vcpu with
      | svm v => exact fun h => (nomatch hsvmHome.symm.trans h)
      | vt fixed current v => exact fun h => (nomatch (hvtHome htsc).symm.trans h)
    · intro c' hc'
      rw [hhome] at hc'
      refine hinvalid c' ?_
      cases vcpu with
      | svm v =>
          cases hsvmHome.symm.trans hc'
          exact hgroup
      | vt fixed current v =>
          cases (hvtHome htsc).symm.trans hc'
          exact hgroup
  · intro j msr e r value hlast hedit hvalue
    rw [hset]
    obtain ⟨hreg, hinvalid⟩ := @setMsrs_header vcpu _ _ _ r _ _ _ hlast hedit hvalue
    obtain ⟨r', c, value', hregister, hgroup, rfl, -⟩ := haxEdit_eq hedit
    obtain rfl : r = r' := by
      by_contra hne
      rw [oneEdit] at hvalue
      exact absurd hvalue (by simp [hne])
    obtain ⟨hsvmHome, hsvmLoads, hvtHome, hvtLoads⟩ := haxRegister_home hregister hgroup
    have hcore : vcpu.home r = .group c ∧ vcpu.loads r = true := by
      cases vcpu with
      | svm v => exact ⟨hsvmHome, hsvmLoads⟩
      | vt fixed current v =>
          obtain ⟨htsc, hgs⟩ := hvt rfl msr (List.mem_of_getElem? hlast.1)
          exact ⟨hvtHome htsc, hvtLoads htsc hgs⟩
    rw [CoreVcpu.gives_iff, hreg]
    · rw [hhome, hcore.1]
      exact fun h => (nomatch h)
    · intro c' hc'
      rw [hhome, hcore.1] at hc'
      cases hc'
      exact ⟨hinvalid c hgroup, by rw [hloads]; exact hcore.2⟩

/-- A vCPU of either core whose block holds this. -/
def vcpuWithBlock (isVt : Bool) (value : Nat) : CoreVcpu :=
  if isVt then .vt anyFixedBits (fun _ => 0)
    { newVtVcpu with header := zeroVirtualCpu, vmcs := fun _ => value, msrAuto := fun _ => value }
  else .svm { newVcpu with header := zeroVirtualCpu }

theorem vcpuWithBlock_isVt : (vcpuWithBlock isVt value).isVt = isVt := by
  cases isVt <;> rfl

theorem exists_lastFor (hmem : msr ∈ msrs) : ∃ j msr', LastFor msrs j msr' ∧ msr'.entry = msr.entry := by
  obtain ⟨i, hi, rfl⟩ := List.getElem_of_mem hmem
  obtain ⟨j, hj, -, hsame, hlast⟩ := @exists_last (msrs.map HaxVmxMsr.entry) i (by simpa using hi)
  rw [List.length_map] at hj
  rw [List.getElem_map, List.getElem_map] at hsame
  refine ⟨j, msrs[j], ⟨List.getElem?_eq_getElem hj, fun k msr' hlt hk => ?_⟩, hsame⟩
  obtain ⟨hlength, rfl⟩ := List.getElem?_eq_some_iff.mp hk
  have hne := hlast k (by simpa using hlength) hlt
  rw [List.getElem_map, List.getElem_map] at hne
  exact hsame ▸ hne

/-- The list of MSRs and the VMCS of a vCPU are not edited. -/
theorem gives_block {fixed : VmxFixedBits} {current : Vmcs} {v : VtCustomVcpu}
    {es : List RegisterEdit} (hr : r = .tscOffset ∨ r = .gsswap)
    (h : (es.foldl (fun vcpu e => vcpu.edit e) (CoreVcpu.vt fixed current v)).Gives r value) :
    v.block r = value := by
  induction es generalizing v with
  | nil =>
      have hload : (v.entered fixed ⟨0, false⟩).writeback = _ := VtCustomVcpu.writeback_entered
      have hblock : (v.entered fixed ⟨0, false⟩).block r = v.block r := by
        refine (congrFun (congrArg State.block hload) r).trans ?_
        rcases hr with rfl | rfl <;> rfl
      have hgives := h ⟨0, false⟩ zeroProcessor
      rcases hr with rfl | rfl
      · exact hblock.symm.trans hgives
      · exact hblock.symm.trans hgives
  | cons e es ih => exact @ih { v with header := v.header.edit e } h

/-- No MSR of a list makes a group valid. -/
theorem setMsrs_stateCache {c : StateCache} (h : vcpu.header.stateCache c = false) :
    (setMsrs tsc vcpu i msrs).2.header.stateCache c = false := by
  induction msrs generalizing vcpu i with
  | nil => exact h
  | cons msr msrs ih =>
      unfold setMsrs
      cases msr.edit (tsc i) with
      | none => exact h
      | some e =>
          refine ih ?_
          rw [edit_header]
          simp [VirtualCpu.edit, h]

/-- The switch on VT writes neither the offset of the counter nor Kernel-GS-Base. -/
theorem loaded_of_roundTrip (h : MsrsRoundTrip true msrs) (hmem : msr ∈ msrs)
    (hhandled : ∀ msr ∈ msrs, HaxHandled msr.entry) :
    msr.entry ≠ haxMsrTsc ∧ msr.entry ≠ haxMsrKernelGsBase := by
  by_contra hnot
  obtain ⟨j, msr', hlast, hentry⟩ := exists_lastFor hmem
  have hmem' : msr' ∈ msrs := List.mem_of_getElem? hlast.1
  obtain ⟨e, hedit⟩ := exists_haxEdit (hhandled msr' hmem') 0
  obtain ⟨r, c, value, hregister, hgroup, rfl, -⟩ := haxEdit_eq hedit
  have hr : r = .tscOffset ∨ r = .gsswap := by
    rw [hentry] at hregister
    by_cases htsc : msr.entry = haxMsrTsc
    · rw [haxRegister, if_pos htsc] at hregister
      exact Or.inl (Option.some.inj hregister).symm
    · obtain hgs : msr.entry = haxMsrKernelGsBase := by
        by_contra hgs
        exact hnot ⟨htsc, hgs⟩
      rw [hgs] at hregister
      exact Or.inr (Option.some.inj hregister).symm
  have hlength : msrs.length < haxMaxMsrArray := by
    by_contra hlong
    have hset := ((h (vcpuWithBlock true 0) msrs (fun _ => 0) (fun _ => 0) rfl rfl).returned
      hhandled).1
    rw [set_of_long (Nat.not_lt.mp hlong)] at hset
    cases hset
  have hgives := (h (vcpuWithBlock true (value + 1)) msrs (fun _ => 0) (fun _ => 0) rfl rfl).used
    hhandled j msr' _ r value hlast hedit (if_pos rfl)
  rw [set_of_short hlength, setMsrs_eq hhandled] at hgives
  have hblock := gives_block hr hgives
  rcases hr with rfl | rfl
  · exact Nat.succ_ne_self value hblock
  · exact Nat.succ_ne_self value hblock

theorem msrsRoundTrip_iff : MsrsRoundTrip isVt msrs ↔ MsrsRegular isVt msrs := by
  constructor
  · intro h
    have hzero := h (vcpuWithBlock isVt 0) msrs (fun _ => 0) (fun _ => 0) vcpuWithBlock_isVt rfl
    by_cases hhandled : ∀ msr ∈ msrs, HaxHandled msr.entry
    · refine Or.inl ⟨hhandled, ?_, ?_⟩
      · by_contra hlong
        have hset := (hzero.returned hhandled).1
        rw [set_of_long (Nat.not_lt.mp hlong)] at hset
        cases hset
      · rintro rfl msr hmem
        exact loaded_of_roundTrip h hmem hhandled
    · have hunknown : ∃ msr ∈ msrs, ¬HaxHandled msr.entry := by
        simpa only [not_forall, exists_prop] using hhandled
      refine Or.inr ⟨hunknown, or_iff_not_imp_left.mpr fun hshort => ?_⟩
      have hkept := hzero.unknown hunknown
      rw [set_of_short (Nat.not_le.mp hshort)] at hkept
      cases msrs with
      | nil =>
          obtain ⟨msr, hmem, -⟩ := hunknown
          exact absurd hmem List.not_mem_nil
      | cons msr msrs =>
          refine ⟨msr, msrs, rfl, fun hmsr => ?_⟩
          obtain ⟨e, hedit⟩ := exists_haxEdit hmsr 0
          obtain ⟨r, c, value, -, -, rfl, -⟩ := haxEdit_eq hedit
          rw [setMsrs, hedit] at hkept
          have hinvalid : ((vcpuWithBlock isVt 0).edit (oneEdit r (some c) value)).header.stateCache c =
              false := by
            rw [edit_header]
            simp [VirtualCpu.edit, oneEdit]
          have hvalid : (vcpuWithBlock isVt 0).header.stateCache c = true := by
            cases isVt <;> rfl
          rw [← hkept] at hvalid
          exact Bool.false_ne_true ((setMsrs_stateCache hinvalid).symm.trans hvalid)
  · rintro (⟨hhandled, hlength, hvt⟩ | ⟨⟨msr, hmem, hnot⟩, hturned⟩) vcpu seen tsc tsc' hcore hseen
    · exact msrsReturned_of_handled hhandled hlength (hcore ▸ hvt) hseen
    · refine ⟨fun h => absurd (h msr hmem) hnot, fun h => absurd (h msr hmem) hnot, fun _ => ?_⟩
      by_cases hlength : msrs.length < haxMaxMsrArray
      · obtain hlong | ⟨first, rest, rfl, hfirst⟩ := hturned
        · exact absurd hlength (Nat.not_lt.mpr hlong)
        · rw [set_of_short hlength, setMsrs, haxEdit_eq_none hfirst]
      · rw [set_of_long (Nat.not_lt.mp hlength)]

end Msrs

/-- The registers return, and are used, if and only if those that no path copies are as they should be;
and a list of MSRs if and only if it has none that the core does not load, or nothing of it is set. -/
theorem hax_roundTrip_iff (vcpu : CoreVcpu) (state buffer : HaxVcpuState) (isVt : Bool)
    (msrs : List HaxVmxMsr) :
    (vcpu.RegistersReturned state buffer ↔ vcpu.RegistersKept state buffer) ∧
      (MsrsRoundTrip isVt msrs ↔ MsrsRegular isVt msrs) :=
  ⟨registersReturned_iff, msrsRoundTrip_iff⟩

/-- A state of a vCPU after its reset, and a buffer of zeros. -/
def haxState (rip : UInt64) (cs : UInt16) : HaxVcpuState where
  gpr _ := 0
  rip
  rflags := 2
  segment name := ⟨if name = .cs then cs else 0, 0xFFFF, 0, 0x93⟩
  cr0 := 0x10
  cr2 := 0
  cr3 := 0
  cr4 := 0
  dr _ := 0
  dr6 := 0
  dr7 := 0
  efer := 0
  sysenterCs := 0
  sysenterEip := 0
  sysenterEsp := 0

/-- RIP is lost, and GS returned as CS. An unknown MSR comes after one that is set, and VT does not load
Kernel-GS-Base. -/
theorem not_hax_roundTrip :
    ¬(vcpuWithBlock false 0).RegistersReturned (haxState 0xFFF0 0xF000) (haxState 0 0) ∧
      ¬(vcpuWithBlock false 0).RegistersReturned (haxState 0 0xF000) (haxState 0 0) ∧
      ¬MsrsRoundTrip false [⟨0x174, 8⟩, ⟨0x10A, 0⟩] ∧ ¬MsrsRoundTrip true [⟨0xC0000102, 0x1000⟩] := by
  refine ⟨?_, ?_, ?_, ?_⟩
  · rw [registersReturned_iff]
    intro h
    exact absurd h.rip.1 (by decide)
  · rw [registersReturned_iff]
    intro h
    exact absurd h.gs (by decide)
  · rw [msrsRoundTrip_iff]
    have hunknown : ¬HaxHandled 0x10A := by
      unfold HaxHandled
      decide
    rintro (⟨hhandled, -⟩ | ⟨-, hlong | ⟨msr, rest, heq, hnot⟩⟩)
    · exact hunknown (hhandled ⟨0x10A, 0⟩ (by simp))
    · exact absurd hlong (by decide)
    · cases heq
      exact hnot (by unfold HaxHandled; decide)
  · rw [msrsRoundTrip_iff]
    rintro (⟨-, -, hvt⟩ | ⟨⟨msr, hmem, hnot⟩, -⟩)
    · exact (hvt rfl _ List.mem_cons_self).2 rfl
    · rw [List.mem_singleton.mp hmem] at hnot
      exact hnot (by unfold HaxHandled; decide)

end NoirVisor
