import NoirVisor.Cvm.Hax
import NoirVisor.Cvm.SvmExit
import NoirVisor.Transition

/-!
# Runs of a virtual CPU for HAXM

A run tells in the tunnel why the guest was left, and has to complete what the run before it began: an
`in` instruction gets its value from the I/O buffer (`xpf_core/cvhax.c`). The driver on Windows maps the
tunnel and the buffer to the same page (`xpf_core/windows/haxm.c`).
-/

namespace NoirVisor

open Writeback Transition

namespace CoreVcpu

def protocol : CoreVcpu → Protocol Register StateCache Nat
  | svm v => v.protocol
  | vt fixed _ _ => vtProtocol fixed

def writeback : CoreVcpu → State Register StateCache Nat
  | svm v => v.writeback
  | vt _ _ v => v.writeback

/-- What the next entry gives to the guest. -/
def given (vcpu : CoreVcpu) (r : Register) : Nat := vcpu.protocol.given vcpu.writeback r

/-- A guest that is not protected has these registers after the next entry. -/
def Enters (vcpu : CoreVcpu) (held : Register → Nat) : Prop :=
  match vcpu with
  | svm v => ∀ procId p r, svmHeld (svmLoaded v.header p) (v.entered procId) r = held r
  | vt fixed _ v => ∀ stack (p : Processor) r,
      vtHeld (p.loaded Register.isVtLate (p.reg .xcr0) v.header) (v.entered fixed stack) r = held r

def entered (stack : VtInitialStack) : CoreVcpu → CoreVcpu
  | svm v => svm (v.entered stack.procId)
  | vt fixed current v => vt fixed current (v.entered fixed stack)

/-- The registers of the guest while it runs. -/
def held (p : Processor) : CoreVcpu → Register → Nat
  | svm v => svmHeld p v
  | vt _ _ v => vtHeld p v

def exited (xcr0 : Nat) (p : Processor) : CoreVcpu → CoreVcpu
  | svm v => svm (v.exited xcr0 p)
  | vt fixed current v => vt fixed current (v.exited xcr0 p)

end CoreVcpu

/-- What a guest leaves behind, with the XCR0 of the host. It is the control block of the core that
counts. -/
structure GuestLeft where
  p : Processor
  xcr0 : Nat
  reg : Register → Nat
  vmcb : Vmcb
  vmcs : Vmcs
  msrAuto : Register → Nat

/-- The guest, and the handlers that resume it. -/
def CoreVcpu.ran (left : GuestLeft) : CoreVcpu → CoreVcpu
  | svm v => svm { v with header.reg := left.reg, vmcb := left.vmcb }
  | vt fixed current v =>
      vt fixed current { v with header.reg := left.reg, vmcs := left.vmcs, msrAuto := left.msrAuto }

/-- `noir_cvm_intercept_code`. -/
inductive InterceptCode where
  | invalidState | shutdownCondition | memoryAccess | rsmInstruction | hltInstruction
  | ioInstruction | cpuidInstruction | rdmsrInstruction | wrmsrInstruction | crAccess | drAccess
  | hypercall | exception | rescission | interruptWindow | taskSwitch | singleStep | apicMsr
  | schedulerExit | schedulerPause | schedulerBug | schedulerNptMisconfig | schedulerNsvActivate
  | schedulerNsvClaimSecurity
deriving DecidableEq

def InterceptCode.code : InterceptCode → Nat
  | invalidState => 0
  | shutdownCondition => 1
  | memoryAccess => 2
  | rsmInstruction => 3
  | hltInstruction => 4
  | ioInstruction => 5
  | cpuidInstruction => 6
  | rdmsrInstruction => 7
  | wrmsrInstruction => 8
  | crAccess => 9
  | drAccess => 10
  | hypercall => 11
  | exception => 12
  | rescission => 13
  | interruptWindow => 14
  | taskSwitch => 15
  | singleStep => 16
  | apicMsr => 17
  | schedulerExit => 0x80000000
  | schedulerPause => 0x80000001
  | schedulerBug => 0x80000002
  | schedulerNptMisconfig => 0x80000003
  | schedulerNsvActivate => 0x80000004
  | schedulerNsvClaimSecurity => 0x80000005

/-- What the exit context has of an I/O instruction. The registers are those of the vCPU. -/
structure CvIoContext where
  ioType : Bool
  string : Bool
  operandSize : Nat
  addressWidth : Nat
  port : Nat
  segmentBase : Nat
  size_cases : operandSize = 1 ∨ operandSize = 2 ∨ operandSize = 4

structure CvExitContext where
  interceptCode : InterceptCode
  nextRip : Nat
  io : CvIoContext

def haxExitIo : Nat := 1
def haxExitInterrupt : Nat := 4
def haxExitUnknown : Nat := 5
def haxExitHlt : Nat := 6
def haxExitStateChange : Nat := 7
def haxExitPageFault : Nat := 10

/-- The fields of `noir_hax_tunnel` that a run writes. -/
structure HaxTunnel where
  exitReason : Nat
  exitStatus : Nat
  readyForEventInjection : Bool
  direction : Nat
  size : Nat
  port : Nat
  count : Nat
  string : Bool
  gva : Nat

/-- A vCPU with its tunnel, and what the first four bytes of the I/O buffer are if it is apart. -/
structure HaxVcpu where
  core : CoreVcpu
  tunnel : HaxTunnel
  buffer : Nat
  shared : Bool

/-- `noir_copy_memory` of at most eight bytes. -/
def copyLow (dst src size : Nat) : Nat := dst / 2 ^ (8 * size) * 2 ^ (8 * size) + src % 2 ^ (8 * size)

namespace HaxVcpu

variable (v : HaxVcpu)

/-- `exit_reason` is at the start of the tunnel. -/
def iobuff : Nat := if v.shared then v.tunnel.exitReason else v.buffer

def writeIobuff (value : Nat) : HaxVcpu :=
  if v.shared then { v with tunnel.exitReason := value } else { v with buffer := value }

def reg (r : Register) : Nat := v.core.header.reg r

/-- A store to `vcpu->gpr.rax`. -/
def storeRax (value : Nat) : HaxVcpu :=
  let reg (header : VirtualCpu) : VirtualCpu :=
    { header with reg := Function.update header.reg .rax value }
  { v with
    core := match v.core with
      | .svm c => .svm { c with header := reg c.header }
      | .vt fixed current c => .vt fixed current { c with header := reg c.header } }

/-- `nvc_edit_vcpu_registers` of the instruction pointer. -/
def editRip (rip : Nat) : HaxVcpu := { v with core := v.core.edit (oneEdit .rip (some .gpr) rip) }

/-- What a run does first. String instructions are not supported. -/
def completeInput : HaxVcpu :=
  if v.tunnel.exitStatus = haxExitIo ∧ v.tunnel.direction ≠ 0 then
    if v.tunnel.string then v
    else v.storeRax (copyLow (v.reg .rax) v.iobuff v.tunnel.size)
  else v

/-- The breakpoint of a string instruction is one that somebody continues. -/
def translateIo (context : CvExitContext) : HaxVcpu :=
  let io := context.io
  let v := { v with
    tunnel.exitStatus := haxExitIo
    tunnel.direction := io.ioType.toNat
    tunnel.port := io.port
    tunnel.size := io.operandSize
    tunnel.string := io.string
    tunnel.count := 1 }
  let v :=
    if io.string then
      let gva := v.reg (if io.ioType then .gpr 7 else .gpr 6) + io.segmentBase
      { v with tunnel.gva := gva % 2 ^ 64 % 2 ^ (8 * io.addressWidth) }
    else if io.ioType then v
    else v.writeIobuff (copyLow v.iobuff (v.reg .rax) io.operandSize)
  v.editRip context.nextRip

/-- The switch on the intercept code, and `exit_reason`. -/
def translate (context : CvExitContext) : HaxVcpu :=
  let v := match context.interceptCode with
    | .invalidState | .shutdownCondition => { v with tunnel.exitStatus := haxExitStateChange }
    | .memoryAccess => { v with tunnel.exitStatus := haxExitPageFault }
    | .hltInstruction =>
        { v with tunnel.exitStatus := haxExitHlt, tunnel.readyForEventInjection := true }.editRip
          context.nextRip
    | .ioInstruction => v.translateIo context
    | .schedulerExit => { v with tunnel.exitStatus := haxExitInterrupt }
    | _ => { v with tunnel.exitStatus := haxExitUnknown }
  { v with tunnel.exitReason := context.interceptCode.code }

end HaxVcpu

/-- How `nvc_run_vcpu` ends: with an error, without an entry (where the rest of the context is an old
one), or after the guest ran. -/
inductive RunOutcome where
  | failed (status : NoirStatus) (ne : status ≠ .success)
  | notEntered (context : CvExitContext)
      (cases : context.interceptCode = .invalidState ∨ context.interceptCode = .rescission)
  | left (stack : VtInitialStack) (guest : GuestLeft) (context : CvExitContext)

/-- What user code may do to the registers between two runs. -/
inductive HaxUserCall where
  | set (e : RegisterEdit)
  | get

/-- A run, with what user code did since the one before, and what it has left in the I/O buffer. -/
structure HaxRun where
  calls : List HaxUserCall
  buffer : Nat
  outcome : RunOutcome

def CoreVcpu.call (vcpu : CoreVcpu) : HaxUserCall → CoreVcpu
  | .set e => vcpu.edit e
  | .get => vcpu.synchronize

namespace HaxVcpu

variable (v : HaxVcpu)

def prepared (run : HaxRun) : HaxVcpu :=
  { v with core := run.calls.foldl CoreVcpu.call v.core }.writeIobuff run.buffer

/-- The guest while it runs. -/
def running (stack : VtInitialStack) (guest : GuestLeft) : CoreVcpu := (v.core.entered stack).ran guest

def nvcHaxRunVcpu (outcome : RunOutcome) : NoirStatus × HaxVcpu :=
  let v := v.completeInput
  match outcome with
  | .failed status _ => (status, v)
  | .notEntered context _ => (.success, v.translate context)
  | .left stack guest context =>
      (.success, { v with core := (v.running stack guest).exited guest.xcr0 guest.p }.translate context)

end HaxVcpu

/-- `pending` is the size of an `in` instruction that waits for its value. -/
structure HaxSession where
  vcpu : HaxVcpu
  pending : Option Nat

/-- The access is one of the register form. -/
def CvExitContext.accesses (context : CvExitContext) (ioType : Bool) : Prop :=
  context.interceptCode = .ioInstruction ∧ context.io.string = false ∧ context.io.ioType = ioType

instance (context : CvExitContext) (ioType : Bool) : Decidable (context.accesses ioType) :=
  inferInstanceAs (Decidable (_ ∧ _))

/-- The instruction is skipped. -/
def CvExitContext.advances (context : CvExitContext) : Bool :=
  context.interceptCode = .ioInstruction ∨ context.interceptCode = .hltInstruction

/-- RAX after an `in` instruction. -/
def inputResult (rax value size : Nat) : Nat := if size = 4 then value % 2 ^ 32 else copyLow rax value size

namespace HaxSession

variable (s : HaxSession) (run : HaxRun)

def prepared : HaxVcpu := s.vcpu.prepared run

def ended : HaxVcpu := ((s.prepared run).nvcHaxRunVcpu run.outcome).2

/-- A run that fails is made again. -/
def nextPending : Option Nat :=
  match run.outcome with
  | .failed _ _ => s.pending
  | .notEntered .. => none
  | .left _ _ context => if context.accesses true then some context.io.operandSize else none

def next : HaxSession := ⟨s.ended run, s.nextPending run⟩

/-- The registers that an entry has to give to the guest. -/
def answered : Register → Nat :=
  let given := (s.prepared run).core.given
  match s.pending with
  | some size => Function.update given .rax (inputResult (given .rax) run.buffer size)
  | none => given

/-- The registers after the guest was left with this context. -/
def skipped (context : CvExitContext) (held : Register → Nat) : Register → Nat :=
  if context.advances then Function.update held .rip context.nextRip else held

structure Behaves : Prop where
  input : (s.prepared run).completeInput.core.Enters (s.answered run)
  notLeft : (∀ stack guest context, run.outcome ≠ .left stack guest context) →
    (s.ended run).core.Enters (s.answered run)
  left : ∀ stack guest context, run.outcome = .left stack guest context →
    (s.ended run).core.Enters
      (skipped context (((s.prepared run).completeInput.running stack guest).held guest.p))
  output : ∀ stack guest context, run.outcome = .left stack guest context → context.accesses false →
    (s.ended run).iobuff % 2 ^ (8 * context.io.operandSize) =
      ((s.prepared run).completeInput.running stack guest).held guest.p .rax %
        2 ^ (8 * context.io.operandSize)

/-- An `in` of four bytes finds nothing in the upper half of RAX. An `out` has a buffer of its own, or
its value is what the tunnel starts with. -/
structure Fits : Prop where
  input : s.pending = some 4 → (s.prepared run).core.given .rax < 2 ^ 32
  output : ∀ stack guest context, run.outcome = .left stack guest context → context.accesses false →
    s.vcpu.shared = true →
      ((s.prepared run).completeInput.running stack guest).held guest.p .rax %
        2 ^ (8 * context.io.operandSize) = InterceptCode.ioInstruction.code

/-- The tunnel was zeroed when it was mapped. -/
def start (core : CoreVcpu) (buffer : Nat) (shared : Bool) : HaxSession :=
  ⟨⟨core, ⟨0, 0, false, 0, 0, 0, 0, false, 0⟩, buffer, shared⟩, none⟩

/-- The tunnel has the access that waits, and the entry takes RAX from the structure. -/
structure Tracks : Prop where
  waits : ∀ size, s.pending = some size → s.vcpu.tunnel.exitStatus = haxExitIo ∧
    s.vcpu.tunnel.direction ≠ 0 ∧ s.vcpu.tunnel.string = false ∧ s.vcpu.tunnel.size = size ∧
    (size = 1 ∨ size = 2 ∨ size = 4) ∧ s.vcpu.core.header.stateCache .gpr = false
  idle : s.pending = none → s.vcpu.tunnel.exitStatus = haxExitIo → s.vcpu.tunnel.direction ≠ 0 →
    s.vcpu.tunnel.string = true

end HaxSession

/-! What the next entry gives. -/

namespace CoreVcpu

variable {vcpu : CoreVcpu} {r : Register} {value : Nat} {stack : VtInitialStack} {p : Processor}
  {xcr0 : Nat} {guest : GuestLeft}

theorem enters_given : vcpu.Enters vcpu.given := by
  cases vcpu with
  | svm v =>
      intro procId p r
      unfold svmHeld
      cases hhome : svmHome r with
      | cache =>
          have hgiven : (svm v).given r = v.header.reg r := Protocol.given_of_cache hhome
          rw [hgiven]
          dsimp only
          split
          · next hswitched => exact copyRegisters_of_selected hswitched
          · rw [SvmCustomVcpu.entered_reg]
      | block | group c =>
          have hgiven : (svm v).given r = (v.protocol.load v.writeback).block r := by
            have hhome' : v.protocol.home r = _ := hhome
            unfold given Protocol.given protocol writeback
            rw [hhome']
          rw [hgiven]
          exact SvmCustomVcpu.entered_guest
  | vt fixed current v =>
      intro stack p r
      have hload : (v.entered fixed stack).writeback = _ := VtCustomVcpu.writeback_entered
      unfold vtHeld
      cases hhome : vtHome r with
      | cache =>
          have hgiven : (vt fixed current v).given r = v.header.reg r := Protocol.given_of_cache hhome
          rw [hgiven]
          dsimp only
          split
          · next hswitched => exact copyRegisters_of_selected hswitched
          · exact congrFun (congrArg State.cache hload) r
      | block | group c =>
          have hgiven : (vt fixed current v).given r =
              ((vtProtocol fixed).load v.writeback).block r := by
            have hhome' : (vtProtocol fixed).home r = _ := hhome
            unfold given Protocol.given protocol writeback
            rw [hhome']
          rw [hgiven]
          exact congrFun (congrArg State.block hload) r

theorem enters_iff {held : Register → Nat} : vcpu.Enters held ↔ vcpu.given = held := by
  constructor
  · intro henters
    have hgiven : vcpu.Enters vcpu.given := enters_given
    funext r
    cases vcpu with
    | svm v => exact (hgiven 0 zeroProcessor r).symm.trans (henters 0 zeroProcessor r)
    | vt fixed current v =>
        exact (hgiven ⟨0, false⟩ zeroProcessor r).symm.trans (henters ⟨0, false⟩ zeroProcessor r)
  · rintro rfl
    exact enters_given

theorem svmLoadsGroup_of_home {c : StateCache} (h : svmHome r = .group c) : svmLoadsGroup c = true := by
  have hselect : svmSelect c r = true := (svmSelect_eq c r).trans (decide_eq_true h)
  cases c with
  | lb | ap | tl => cases hselect
  | _ => rfl

theorem vtLoadsGroup_of_home {c : StateCache} (h : vtHome r = .group c) : vtLoadsGroup c = true := by
  cases r with
  | gpr i =>
      by_cases hi : i = 4
      · obtain rfl := Home.group.inj ((if_pos hi).symm.trans h)
        rfl
      · exact absurd ((if_neg hi).symm.trans h) nofun
  | seg name field => cases name <;> cases field <;> cases h <;> rfl
  | _ => cases h <;> rfl

theorem svmHeld_of_cache {v : SvmCustomVcpu} (h : svmHome r = .cache) :
    svmHeld p v r = if svmSwitched r then p.reg r else v.header.reg r := by
  unfold svmHeld
  rw [h]

theorem svmHeld_of_not_cache {v : SvmCustomVcpu} (h : svmHome r ≠ .cache) :
    svmHeld p v r = v.vmcb.field (.guest r) := by
  unfold svmHeld
  cases hhome : svmHome r with
  | cache => exact absurd hhome h
  | block => rfl
  | group c => rfl

theorem vtHeld_of_cache {v : VtCustomVcpu} (h : vtHome r = .cache) :
    vtHeld p v r = if vtSwitched r then p.reg r else v.header.reg r := by
  unfold vtHeld
  rw [h]

theorem vtHeld_of_not_cache {v : VtCustomVcpu} (h : vtHome r ≠ .cache) :
    vtHeld p v r = v.block r := by
  unfold vtHeld
  cases hhome : vtHome r with
  | cache => exact absurd hhome h
  | block => rfl
  | group c => rfl

/-- Every register that has a place in the control block is there while the guest runs. -/
theorem inBlock_running (hhome : ((vcpu.entered stack).ran guest).protocol.home r ≠ .cache) :
    ((vcpu.entered stack).ran guest).protocol.inBlock
      ((vcpu.entered stack).ran guest).header.stateCache r = true := by
  refine Protocol.inBlock_of_valid hhome fun c hgroup => ?_
  cases vcpu with
  | svm v => exact SvmCustomVcpu.entered_valid (svmLoadsGroup_of_home hgroup)
  | vt fixed current v =>
      have hload : (v.entered fixed stack).writeback = _ := VtCustomVcpu.writeback_entered
      refine (congrFun (congrArg State.valid hload) c).trans ?_
      simp [Protocol.load, vtProtocol, vtLoadsGroup_of_home hgroup]

/-- What the exit saves of these registers is what the processor or the structure has. -/
theorem svm_saveGuest_reg {v : SvmCustomVcpu} (h : svmHome r = .cache) :
    (v.saveGuest p).header.reg r = svmHeld p v r := by
  rw [svmHeld_of_cache h]
  unfold SvmCustomVcpu.saveGuest SvmCustomVcpu.exitRegisters copyRegisters
  dsimp only
  cases r with
  | gpr i =>
      have hi : ¬(i = 0 ∨ i = 4) := fun hi => nomatch (if_pos hi).symm.trans h
      rw [not_or] at hi
      simp [Register.rax, Register.rsp, hi.1, hi.2]
  | rip | rflags => cases h
  | _ => rfl

theorem vt_saveGuest_reg {v : VtCustomVcpu} (h : vtHome r = .cache) :
    (v.saveGuest p).header.reg r = vtHeld p v r := by
  rw [vtHeld_of_cache h]
  unfold VtCustomVcpu.saveGuest VtCustomVcpu.exitRegisters copyRegisters
  dsimp only
  cases r with
  | gpr i =>
      have hi : i ≠ 4 := by
        rintro rfl
        cases h
      simp [Register.rsp, hi]
  | rip | rflags => cases h
  | _ => rfl

/-- An exit saves what has no place in the control block, and leaves the rest there. -/
theorem given_exited
    (hvalid : vcpu.protocol.home r ≠ .cache →
      vcpu.protocol.inBlock vcpu.header.stateCache r = true) :
    (vcpu.exited xcr0 p).given r = vcpu.held p r := by
  cases vcpu with
  | svm v =>
      by_cases hhome : svmHome r = .cache
      · have hgiven : ((svm v).exited xcr0 p).given r = (v.saveGuest p).header.reg r :=
          Protocol.given_of_cache hhome
        exact hgiven.trans (svm_saveGuest_reg hhome)
      · have hgiven : ((svm v).exited xcr0 p).given r = v.vmcb.field (.guest r) :=
          Protocol.given_of_inBlock (hvalid hhome)
        exact hgiven.trans (svmHeld_of_not_cache hhome).symm
  | vt fixed current v =>
      by_cases hhome : vtHome r = .cache
      · have hgiven : ((vt fixed current v).exited xcr0 p).given r = (v.saveGuest p).header.reg r :=
          Protocol.given_of_cache hhome
        exact hgiven.trans (vt_saveGuest_reg hhome)
      · have hgiven : ((vt fixed current v).exited xcr0 p).given r = v.block r :=
          Protocol.given_of_inBlock (hvalid hhome)
        exact hgiven.trans (vtHeld_of_not_cache hhome).symm

theorem given_edit_of_home {c : StateCache} {e : RegisterEdit}
    (hc : ∀ c', e.invalidates c' = true → c' = c) (hwrite : e.value r = none)
    (hhome : vcpu.protocol.home r ≠ .group c) : (vcpu.edit e).given r = vcpu.given r := by
  have hcache : (vcpu.edit e).writeback.cache r = vcpu.writeback.cache r := by
    cases vcpu <;> simp [edit, writeback, SvmCustomVcpu.writeback, VtCustomVcpu.writeback,
      VirtualCpu.edit, Edit.write, hwrite]
  have hblock : (vcpu.edit e).writeback.block r = vcpu.writeback.block r := by
    cases vcpu <;> rfl
  have hvalid (c' : StateCache) (hne : c' ≠ c) :
      (vcpu.edit e).writeback.valid c' = vcpu.writeback.valid c' := by
    have hkept : e.invalidates c' = false := by
      by_contra hinvalidates
      exact hne (hc c' (Bool.not_eq_false _ ▸ hinvalidates))
    cases vcpu <;> simp [edit, writeback, SvmCustomVcpu.writeback, VtCustomVcpu.writeback,
      VirtualCpu.edit, hkept]
  have hprotocol : (vcpu.edit e).protocol = vcpu.protocol := by cases vcpu <;> rfl
  unfold given Protocol.given Protocol.load Protocol.inBlock
  dsimp only
  rw [hprotocol, hcache, hblock]
  cases hcase : vcpu.protocol.home r with
  | cache => rfl
  | block => rfl
  | group c' =>
      have hvalid' := hvalid c' fun hc' => hhome (hc' ▸ hcase)
      simp only [hvalid']

/-- What an entry takes from the structure. -/
theorem given_of_gpr (hhome : vcpu.protocol.home r = .group .gpr)
    (hinvalid : vcpu.header.stateCache .gpr = false) : vcpu.given r = vcpu.header.reg r := by
  have hout : vcpu.protocol.inBlock vcpu.writeback.valid r = false := by
    unfold Protocol.inBlock
    rw [hhome]
    cases vcpu <;> exact hinvalid
  cases vcpu with
  | svm v =>
      have hhome' : svmHome r = .group .gpr := hhome
      refine (Protocol.given_of_not_inBlock hout fun _ => ?_).trans ?_
      · change svmLoads r = true
        rw [svmLoads, hhome']
      · change (svmProtocol _).stored r (v.header.reg r) = v.header.reg r
        unfold Protocol.stored svmProtocol
        simp only [hhome']
        cases r with
        | gpr i | rip | rflags => rfl
        | seg name field => cases name <;> cases field <;> cases hhome'
        | _ => cases hhome'
  | vt fixed current v =>
      have hhome' : vtHome r = .group .gpr := hhome
      have hsaved := vtHome_gpr hhome'
      refine (Protocol.given_of_not_inBlock hout fun _ => ?_).trans ?_
      · change vtLoads r = true
        rcases hsaved with rfl | rfl | rfl <;> rfl
      · change (vtProtocol fixed).stored r (v.header.reg r) = v.header.reg r
        unfold Protocol.stored vtProtocol
        simp only [hhome']
        rcases hsaved with rfl | rfl | rfl <;> rfl

/-- An exit saves the registers of the group as well. -/
theorem header_exited (hhome : vcpu.protocol.home r = .group .gpr) :
    (vcpu.exited xcr0 p).header.reg r = vcpu.held p r := by
  cases vcpu with
  | svm v =>
      have hhome' : svmHome r = .group .gpr := hhome
      refine Eq.trans ?_ (svmHeld_of_not_cache (fun h => nomatch h.symm.trans hhome')).symm
      change (v.saveGuest p).header.reg r = _
      cases r with
      | gpr i =>
          have hi : i = 0 ∨ i = 4 := by
            by_contra hi
            exact nomatch (if_neg hi).symm.trans hhome'
          rcases hi with rfl | rfl <;> rfl
      | rip | rflags => rfl
      | seg name field => cases name <;> cases field <;> cases hhome'
      | _ => cases hhome'
  | vt fixed current v =>
      have hhome' : vtHome r = .group .gpr := hhome
      refine Eq.trans ?_ (vtHeld_of_not_cache (fun h => nomatch h.symm.trans hhome')).symm
      change (v.saveGuest p).header.reg r = _
      rcases vtHome_gpr hhome' with rfl | rfl | rfl <;> rfl

/-- RAX is saved on either core. -/
theorem header_exited_rax : (vcpu.exited xcr0 p).header.reg .rax = vcpu.held p .rax := by
  cases vcpu with
  | svm v => exact header_exited rfl
  | vt fixed current v => rfl

/-- After an exit that skips the instruction, the guest has what it had but for the pointer. -/
theorem given_editRip {rip : Nat}
    (hvalid : ∀ r, vcpu.protocol.home r ≠ .cache →
      vcpu.protocol.inBlock vcpu.header.stateCache r = true) :
    ((vcpu.exited xcr0 p).edit (oneEdit .rip (some .gpr) rip)).given =
      Function.update (vcpu.held p) .rip rip := by
  have hexited : (vcpu.exited xcr0 p).protocol = vcpu.protocol := by cases vcpu <;> rfl
  have hedited (w : CoreVcpu) : (w.edit (oneEdit .rip (some .gpr) rip)).protocol = w.protocol := by
    cases w <;> rfl
  have hrip : vcpu.protocol.home .rip = .group .gpr := by cases vcpu <;> rfl
  have hinvalid (w : CoreVcpu) :
      (w.edit (oneEdit .rip (some .gpr) rip)).header.stateCache .gpr = false := by
    cases w <;> simp [edit, header, VirtualCpu.edit, oneEdit]
  funext r
  by_cases hr : r = .rip
  · subst hr
    rw [Function.update_self, given_of_gpr (by rw [hedited, hexited, hrip]) (hinvalid _)]
    exact edit_header_reg rfl
  · have hnone : (oneEdit .rip (some .gpr) rip).value r = none := if_neg hr
    rw [Function.update_of_ne hr]
    by_cases hhome : vcpu.protocol.home r = .group .gpr
    · have hsaved : (vcpu.exited xcr0 p).header.reg r = vcpu.held p r := header_exited hhome
      rw [given_of_gpr (by rw [hedited, hexited, hhome]) (hinvalid _), ← hsaved, edit_header]
      simp [VirtualCpu.edit, Edit.write, hnone]
    · rw [given_edit_of_home (c := .gpr) ?_ hnone (by rw [hexited]; exact hhome),
        given_exited (hvalid r)]
      intro c hc
      have hgpr : StateCache.gpr = c := by simpa [oneEdit] using hc
      exact hgpr.symm

end CoreVcpu

section Numbers

variable {dst src size : Nat}

theorem copyLow_mod : copyLow dst src size % 2 ^ (8 * size) = src % 2 ^ (8 * size) := by
  rw [copyLow, Nat.mul_add_mod', Nat.mod_mod]

/-- A copy of four bytes leaves the upper half. -/
theorem copyLow_eq_inputResult_iff : copyLow dst src size = inputResult dst src size ↔
    (size = 4 → dst < 2 ^ 32) := by
  unfold inputResult
  split
  · next h =>
      subst h
      unfold copyLow
      constructor
      · intro heq _
        have hzero : dst / 2 ^ (8 * 4) = 0 := by omega
        omega
      · intro hlt
        have hlt := hlt rfl
        have hzero : dst / 2 ^ (8 * 4) = 0 := by omega
        rw [hzero]
        omega
  · next h => exact iff_of_true rfl fun h' => absurd h' h

end Numbers

namespace HaxVcpu

variable {v : HaxVcpu} {value : Nat} {context : CvExitContext} {outcome : RunOutcome}

/-- The store counts for an entry that takes RAX from the structure. -/
theorem given_storeRax (hinvalid : v.core.header.stateCache .gpr = false) :
    (v.storeRax value).core.given = Function.update v.core.given .rax value := by
  funext r
  obtain ⟨core, tunnel, buffer, shared⟩ := v
  cases core with
  | svm c =>
      by_cases hr : r = .rax
      · subst hr
        have hgiven : (storeRax ⟨.svm c, tunnel, buffer, shared⟩ value).core.given .rax =
            Function.update c.header.reg .rax value .rax := CoreVcpu.given_of_gpr rfl hinvalid
        rw [hgiven, Function.update_self, Function.update_self]
      · rw [Function.update_of_ne hr]
        unfold CoreVcpu.given Protocol.given Protocol.load
        have hcache : (storeRax ⟨.svm c, tunnel, buffer, shared⟩ value).core.writeback.cache r =
            (CoreVcpu.svm c).writeback.cache r := Function.update_of_ne hr ..
        simp only [hcache]
        rfl
  | vt fixed current c =>
      by_cases hr : r = .rax
      · subst hr
        have hgiven : (storeRax ⟨.vt fixed current c, tunnel, buffer, shared⟩ value).core.given .rax =
            Function.update c.header.reg .rax value .rax := Protocol.given_of_cache rfl
        rw [hgiven, Function.update_self, Function.update_self]
      · rw [Function.update_of_ne hr]
        unfold CoreVcpu.given Protocol.given Protocol.load
        have hcache : (storeRax ⟨.vt fixed current c, tunnel, buffer, shared⟩ value).core.writeback.cache
            r = (CoreVcpu.vt fixed current c).writeback.cache r := Function.update_of_ne hr ..
        simp only [hcache]
        rfl

/-- RAX is in the structure on VT, and on SVM if it is to be loaded. -/
theorem reg_rax (hinvalid : v.core.header.stateCache .gpr = false) :
    v.reg .rax = v.core.given .rax := by
  obtain ⟨core, tunnel, buffer, shared⟩ := v
  cases core with
  | svm c => exact (CoreVcpu.given_of_gpr rfl hinvalid).symm
  | vt fixed current c => rfl

theorem core_translate : (v.translate context).core =
    if context.advances then v.core.edit (oneEdit .rip (some .gpr) context.nextRip) else v.core := by
  unfold translate CvExitContext.advances
  cases hcode : context.interceptCode with
  | ioInstruction =>
      unfold translateIo editRip writeIobuff
      dsimp only
      split_ifs <;> simp_all
  | hltInstruction => simp [editRip]
  | _ => simp

/-- The tunnel tells an access that waits for its value, and no other. -/
theorem tunnel_translate_input (h : context.accesses true) :
    (v.translate context).tunnel.exitStatus = haxExitIo ∧ (v.translate context).tunnel.direction ≠ 0 ∧
      (v.translate context).tunnel.string = false ∧
      (v.translate context).tunnel.size = context.io.operandSize := by
  obtain ⟨hcode, hstring, htype⟩ := h
  unfold translate translateIo editRip
  simp [hcode, hstring, htype]

theorem tunnel_translate_other (h : ¬context.accesses true)
    (hio : (v.translate context).tunnel.exitStatus = haxExitIo)
    (hdirection : (v.translate context).tunnel.direction ≠ 0) :
    (v.translate context).tunnel.string = true := by
  unfold CvExitContext.accesses at h
  unfold translate translateIo editRip writeIobuff at *
  cases hcode : context.interceptCode with
  | ioInstruction =>
      simp only [hcode] at hdirection h ⊢
      cases htype : context.io.ioType with
      | true =>
          cases hstring : context.io.string with
          | true => simp
          | false => exact absurd ⟨trivial, hstring, htype⟩ h
      | false =>
          refine absurd ?_ hdirection
          rw [htype]
          split_ifs <;> rfl
  | _ =>
      simp only [hcode] at hio
      exact absurd hio (by decide)

/-- What the buffer has after an `out` instruction. -/
theorem iobuff_translate (h : context.accesses false) :
    (v.translate context).iobuff = if v.shared then InterceptCode.ioInstruction.code
      else copyLow v.buffer (v.reg .rax) context.io.operandSize := by
  obtain ⟨hcode, hstring, htype⟩ := h
  unfold translate translateIo editRip writeIobuff iobuff
  cases hshared : v.shared <;> simp [hcode, hstring, htype, reg]

end HaxVcpu

namespace HaxSession

variable {s : HaxSession} {run : HaxRun}

/-- User code makes no group valid. -/
theorem stateCache_prepared (hinvalid : s.vcpu.core.header.stateCache .gpr = false) :
    (s.prepared run).core.header.stateCache .gpr = false := by
  have hcalls (calls : List HaxUserCall) (core : CoreVcpu)
      (hcore : core.header.stateCache .gpr = false) :
      (calls.foldl CoreVcpu.call core).header.stateCache .gpr = false := by
    induction calls generalizing core with
    | nil => exact hcore
    | cons call calls ih =>
        refine ih (core.call call) ?_
        cases call with
        | set e =>
            change (core.edit e).header.stateCache .gpr = false
            rw [edit_header]
            simp [VirtualCpu.edit, hcore]
        | get =>
            cases core with
            | svm v => simpa [CoreVcpu.call, CoreVcpu.synchronize, CoreVcpu.header,
                nvcSvmDumpGuestVcpuState] using hcore
            | vt fixed current v => simpa [CoreVcpu.call, CoreVcpu.synchronize, CoreVcpu.header,
                nvcVtDumpVcpuState] using hcore
  unfold prepared HaxVcpu.prepared HaxVcpu.writeIobuff
  split <;> exact hcalls _ _ hinvalid

theorem tunnel_prepared (s : HaxSession) (run : HaxRun) : (s.prepared run).tunnel.exitStatus = s.vcpu.tunnel.exitStatus ∧
    (s.prepared run).tunnel.direction = s.vcpu.tunnel.direction ∧
    (s.prepared run).tunnel.string = s.vcpu.tunnel.string ∧
    (s.prepared run).tunnel.size = s.vcpu.tunnel.size ∧
    (s.prepared run).shared = s.vcpu.shared ∧ (s.prepared run).iobuff = run.buffer := by
  unfold prepared HaxVcpu.prepared HaxVcpu.writeIobuff HaxVcpu.iobuff
  split
  · next h => simp [show s.vcpu.shared = true from h]
  · next h => simp [show ¬s.vcpu.shared = true from h]

/-- An input that waits is copied, and nothing else. -/
theorem given_completeInput (hs : s.Tracks) :
    (s.prepared run).completeInput.core.given =
      match s.pending with
      | some size => Function.update (s.prepared run).core.given .rax
          (copyLow ((s.prepared run).core.given .rax) run.buffer size)
      | none => (s.prepared run).core.given := by
  obtain ⟨hstatus, hdirection, hstring, hsize, -, hbuffer⟩ := tunnel_prepared s run
  unfold HaxVcpu.completeInput
  cases hpending : s.pending with
  | none =>
      dsimp only
      split
      · next hio =>
          have hio' : (s.prepared run).tunnel.string = true := by
            rw [hstring]
            exact hs.idle hpending (hstatus ▸ hio.1) (hdirection ▸ hio.2)
          rw [if_pos hio']
      · rfl
  | some size =>
      obtain ⟨hstatus', hdirection', hstring', hsize', -, hinvalid⟩ := hs.waits size hpending
      have hinvalid' : (s.prepared run).core.header.stateCache .gpr = false :=
        stateCache_prepared hinvalid
      have hkept : ¬(s.prepared run).tunnel.string = true := by simp [hstring, hstring']
      rw [if_pos ⟨hstatus.trans hstatus', hdirection ▸ hdirection'⟩, if_neg hkept, hbuffer, hsize,
        hsize', HaxVcpu.given_storeRax hinvalid', HaxVcpu.reg_rax hinvalid']

theorem answered_iff (hs : s.Tracks) :
    (s.prepared run).completeInput.core.Enters (s.answered run) ↔
      (s.pending = some 4 → (s.prepared run).core.given .rax < 2 ^ 32) := by
  rw [CoreVcpu.enters_iff, given_completeInput hs]
  unfold answered
  cases hpending : s.pending with
  | none => exact iff_of_true rfl nofun
  | some size =>
      dsimp only
      rw [(Function.update_injective _ _).eq_iff, copyLow_eq_inputResult_iff, Option.some.injEq]

theorem ended_of_failed {status : NoirStatus} {ne : status ≠ .success}
    (h : run.outcome = .failed status ne) : s.ended run = (s.prepared run).completeInput := by
  unfold ended HaxVcpu.nvcHaxRunVcpu
  rw [h]

theorem ended_of_notEntered {context : CvExitContext}
    {cases : context.interceptCode = .invalidState ∨ context.interceptCode = .rescission}
    (h : run.outcome = .notEntered context cases) :
    s.ended run = (s.prepared run).completeInput.translate context := by
  unfold ended HaxVcpu.nvcHaxRunVcpu
  rw [h]

theorem ended_of_left {stack : VtInitialStack} {guest : GuestLeft} {context : CvExitContext}
    (h : run.outcome = .left stack guest context) :
    s.ended run = { (s.prepared run).completeInput with
      core := ((s.prepared run).completeInput.running stack guest).exited guest.xcr0
        guest.p }.translate context := by
  unfold ended HaxVcpu.nvcHaxRunVcpu
  rw [h]

theorem not_advances {context : CvExitContext}
    (h : context.interceptCode = .invalidState ∨ context.interceptCode = .rescission) :
    context.advances = false ∧ ¬context.accesses true := by
  unfold CvExitContext.advances CvExitContext.accesses
  rcases h with h | h <;> simp [h]

/-- What the guest is left with, it has at the next entry. -/
theorem enters_ended {stack : VtInitialStack} {guest : GuestLeft} {context : CvExitContext}
    (h : run.outcome = .left stack guest context) :
    (s.ended run).core.Enters
      (skipped context (((s.prepared run).completeInput.running stack guest).held guest.p)) := by
  have hvalid (r : Register)
      (hhome : ((s.prepared run).completeInput.running stack guest).protocol.home r ≠ .cache) :
      ((s.prepared run).completeInput.running stack guest).protocol.inBlock
        ((s.prepared run).completeInput.running stack guest).header.stateCache r = true :=
    CoreVcpu.inBlock_running hhome
  rw [CoreVcpu.enters_iff, ended_of_left h, HaxVcpu.core_translate]
  unfold skipped
  split
  · exact CoreVcpu.given_editRip hvalid
  · funext r
    exact CoreVcpu.given_exited (hvalid r)

theorem tunnel_completeInput {v : HaxVcpu} :
    v.completeInput.tunnel = v.tunnel ∧ v.completeInput.shared = v.shared ∧
      v.completeInput.core.header.stateCache = v.core.header.stateCache := by
  unfold HaxVcpu.completeInput HaxVcpu.storeRax
  obtain ⟨core, tunnel, buffer, shared⟩ := v
  split_ifs
  · exact ⟨rfl, rfl, rfl⟩
  · cases core <;> exact ⟨rfl, rfl, rfl⟩
  · exact ⟨rfl, rfl, rfl⟩

theorem iobuff_ended {stack : VtInitialStack} {guest : GuestLeft} {context : CvExitContext}
    (h : run.outcome = .left stack guest context) (haccess : context.accesses false) :
    (s.ended run).iobuff % 2 ^ (8 * context.io.operandSize) =
        ((s.prepared run).completeInput.running stack guest).held guest.p .rax %
          2 ^ (8 * context.io.operandSize) ↔
      (s.vcpu.shared = true →
        ((s.prepared run).completeInput.running stack guest).held guest.p .rax %
          2 ^ (8 * context.io.operandSize) = InterceptCode.ioInstruction.code) := by
  obtain ⟨-, -, -, -, hshared, -⟩ := tunnel_prepared s run
  obtain ⟨-, hkept, -⟩ := tunnel_completeInput (v := s.prepared run)
  have hcode : InterceptCode.ioInstruction.code % 2 ^ (8 * context.io.operandSize) =
      InterceptCode.ioInstruction.code := by
    rcases context.io.size_cases with h | h | h <;> rw [h] <;> decide
  have hreg : (((s.prepared run).completeInput.running stack guest).exited guest.xcr0
      guest.p).header.reg .rax =
        ((s.prepared run).completeInput.running stack guest).held guest.p .rax :=
    CoreVcpu.header_exited_rax
  rw [ended_of_left h, HaxVcpu.iobuff_translate haccess]
  dsimp only
  rw [hkept, hshared]
  unfold HaxVcpu.reg
  dsimp only
  rw [hreg]
  split
  · next h =>
      rw [hcode]
      exact ⟨fun heq _ => heq.symm, fun heq => (heq h).symm⟩
  · next h => exact iff_of_true copyLow_mod fun hs => absurd hs h

theorem behaves_iff (hs : s.Tracks) : s.Behaves run ↔ s.Fits run := by
  constructor
  · intro hbehaves
    refine ⟨(answered_iff hs).mp hbehaves.input, fun stack guest context h haccess => ?_⟩
    exact (iobuff_ended h haccess).mp (hbehaves.output stack guest context h haccess)
  · intro hfits
    have hinput := (answered_iff hs).mpr hfits.input
    refine ⟨hinput, fun hnot => ?_, fun stack guest context h => enters_ended h,
      fun stack guest context h haccess => (iobuff_ended h haccess).mpr
        (hfits.output stack guest context h haccess)⟩
    cases houtcome : run.outcome with
    | failed status ne => exact ended_of_failed houtcome ▸ hinput
    | notEntered context cases =>
        rw [ended_of_notEntered houtcome, HaxVcpu.core_translate, (not_advances cases).1]
        exact hinput
    | left stack guest context => exact absurd houtcome (hnot stack guest context)

theorem Tracks.next (hs : s.Tracks) : (s.next run).Tracks := by
  cases houtcome : run.outcome with
  | failed status ne =>
      obtain ⟨hstatus, hdirection, hstring, hsize, -⟩ := tunnel_prepared s run
      obtain ⟨htunnel, -, hcache⟩ := tunnel_completeInput (v := s.prepared run)
      have hpending : (s.next run).pending = s.pending := by
        unfold HaxSession.next nextPending
        simp only [houtcome]
      have hended : (s.next run).vcpu = (s.prepared run).completeInput := ended_of_failed houtcome
      constructor
      · intro size hsome
        obtain ⟨h₁, h₂, h₃, h₄, h₅, h₆⟩ := hs.waits size (hpending ▸ hsome)
        rw [hended, htunnel, hcache, hstatus, hdirection, hstring, hsize]
        exact ⟨h₁, h₂, h₃, h₄, h₅, stateCache_prepared h₆⟩
      · intro hnone
        rw [hended, htunnel, hstatus, hdirection, hstring]
        exact hs.idle (hpending ▸ hnone)
  | notEntered context cases =>
      have hpending : (s.next run).pending = none := by
        unfold HaxSession.next nextPending
        simp only [houtcome]
      have hended : (s.next run).vcpu = _ := ended_of_notEntered houtcome
      refine ⟨fun size hsome => (nomatch hpending.symm.trans hsome), fun _ => ?_⟩
      rw [hended]
      exact HaxVcpu.tunnel_translate_other (not_advances cases).2
  | left stack guest context =>
      have hpending : (s.next run).pending =
          if context.accesses true then some context.io.operandSize else none := by
        unfold HaxSession.next nextPending
        simp only [houtcome]
      have hended : (s.next run).vcpu = _ := ended_of_left houtcome
      by_cases haccess : context.accesses true
      · rw [if_pos haccess] at hpending
        refine ⟨fun size hsome => ?_, fun hnone => nomatch hpending.symm.trans hnone⟩
        obtain rfl := Option.some.inj (hpending.symm.trans hsome)
        rw [hended]
        obtain ⟨h₁, h₂, h₃, h₄⟩ := HaxVcpu.tunnel_translate_input
          (v := { (s.prepared run).completeInput with
            core := ((s.prepared run).completeInput.running stack guest).exited guest.xcr0 guest.p })
          haccess
        refine ⟨h₁, h₂, h₃, h₄, context.io.size_cases, ?_⟩
        have hadvances : context.advances = true := by
          unfold CvExitContext.advances
          simp [haccess.1]
        rw [HaxVcpu.core_translate, hadvances, if_pos rfl, edit_header]
        simp [VirtualCpu.edit, oneEdit]
      · rw [if_neg haccess] at hpending
        refine ⟨fun size hsome => (nomatch hpending.symm.trans hsome), fun _ => ?_⟩
        rw [hended]
        exact HaxVcpu.tunnel_translate_other haccess

theorem tracks_start {core : CoreVcpu} {buffer : Nat} {shared : Bool} :
    (start core buffer shared).Tracks :=
  ⟨nofun, fun _ hio => nomatch (show (0 : Nat) = 1 from hio)⟩

/-- In every sequence of runs, whatever the guest and user code do: each port access is completed as
it should be if and only if it fits. -/
theorem along_haxRuns_iff (core : CoreVcpu) (buffer : Nat) (shared : Bool) (runs : List HaxRun) :
    Along Behaves next (start core buffer shared) runs ↔
      Along Fits next (start core buffer shared) runs :=
  along_iff (I := Tracks) (Q := fun _ _ => True) (fun _ _ hs _ => behaves_iff hs)
    (fun _ _ hs _ _ => hs.next) tracks_start (along_of_forall fun _ _ => trivial)

/-- A guest with a bit in the upper half of RAX. -/
def highGuest : GuestLeft where
  p := zeroProcessor
  xcr0 := 0
  reg _ := 0
  vmcb := ⟨fun f => if f = .guest .rax then 2 ^ 32 else 0, fun _ => true⟩
  vmcs _ := 0
  msrAuto _ := 0

/-- `in eax,dx` -/
def inputContext : CvExitContext where
  interceptCode := .ioInstruction
  nextRip := 1
  io := ⟨true, false, 4, 8, 0x60, 0, .inr (.inr rfl)⟩

def inputRun : HaxRun := ⟨[], 0, .left ⟨0, false⟩ highGuest inputContext⟩

/-- The guest goes on with the upper half that it had. -/
theorem not_forall_along_haxRuns : ¬∀ (core : CoreVcpu) (buffer : Nat) (shared : Bool)
    (runs : List HaxRun), Along Behaves next (start core buffer shared) runs := by
  intro hall
  have hfits := (along_haxRuns_iff (.svm pagedVcpu) 0 false [inputRun, inputRun]).mp (hall _ _ _ _)
  have hlow := hfits.2.1.input rfl
  have houtcome : inputRun.outcome = .left ⟨0, false⟩ highGuest inputContext := rfl
  have hgiven : ((start (.svm pagedVcpu) 0 false).ended inputRun).core.given = _ :=
    CoreVcpu.enters_iff.mp (enters_ended houtcome)
  have hrax : ((start (.svm pagedVcpu) 0 false).ended inputRun).core.given .rax = 2 ^ 32 := by
    rw [hgiven]
    rfl
  exact absurd (hrax ▸ hlow) (Nat.lt_irrefl _)

end HaxSession

end NoirVisor
