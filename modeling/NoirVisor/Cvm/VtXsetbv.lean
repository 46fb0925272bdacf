import NoirVisor.Cvm.Operands
import NoirVisor.Cvm.VtCvexit

/-!
# The xsetbv instruction of a virtual CPU on VT

The handler checks XCR0 and executes the instruction for the guest. Its comparison with the mask of the
supported components is the one that `nvc_validate_vcpu_state` makes the other way round.
-/

namespace NoirVisor

/-- The value of EDX:EAX. -/
def VtCvexitState.xcr0Operand (s : VtCvexitState) : Nat :=
  s.p.reg .rax % 2 ^ 32 + s.p.reg (.gpr 2) % 2 ^ 32 * 2 ^ 32

def VtCvexitState.xcrIndex (s : VtCvexitState) : Nat := s.p.reg (.gpr 1) % 2 ^ 32

section Handler

variable (supportMask : Nat) (info : VtCvexitInformation) (s : VtCvexitState)

/-- What the handler finds wrong with XCR0. -/
def refusesXcr0 (lo hi : Nat) : Bool :=
  let a := supportMask % 2 ^ 32
  let d := supportMask / 2 ^ 32 % 2 ^ 32
  !lo.testBit 0 || !lo.testBit 1 && lo.testBit 2 || lo &&& a != a || hi &&& d != d

def nvcVtXsetbvCvexitHandler : Option VtCvexitState :=
  let lo := s.p.reg .rax % 2 ^ 32
  let hi := s.p.reg (.gpr 2) % 2 ^ 32
  -- An unknown index is a fault.
  let gpException := s.xcrIndex != 0 || refusesXcr0 supportMask lo hi
  if gpException then
    if !s.vcpu.header.exceptionBitmap.testBit generalProtection ||
        s.vcpu.header.vcpuOptions.interceptExceptions then
      some (s.noirVtInjectEvent generalProtection ia32HardwareExceptionType true 0 0)
    else
      (s.switchToHost info).map fun s =>
        ((s.assignException generalProtection true).assign 0 6 26 0).assign 4 0 8 0
  else (s.p.xsetbv info.cpu (lo + hi * 2 ^ 32)).map fun p => { s with p }.noirVtAdvanceRip info

/-- What the guest has in a register, also when the host runs. -/
def VtCvexitState.guestHas (s : VtCvexitState) (r : Register) : Nat :=
  if s.toHost then s.vcpu.header.reg r else s.held r

/-- The switch to the host raises no exception, nor does the next one to the guest, if its area can be
restored there. -/
def SwitchesSafely (s : VtCvexitState) : Prop :=
  ∃ s', s.switchToHost info = some s' ∧
    ∀ (fixed : VmxFixedBits) (stack : VtInitialStack) (p : Processor) (host : VirtualCpu),
      Xsave.Restorable info.cpu (p.reg .xcr0) s'.vcpu.header.xsaveArea →
        (nvcVtSwitchToGuestVcpu info.cpu fixed stack p host s'.vcpu).isSome

structure XsetbvExecuted (s' : VtCvexitState) : Prop where
  toHost : s'.toHost = false
  xcr0 : s'.held .xcr0 = s.xcr0Operand
  rip : s'.held .rip = s.advancedRip info
  safe : SwitchesSafely info s'

structure XsetbvRefused (s' : VtCvexitState) : Prop where
  xcr0 : s'.guestHas .xcr0 = s.held .xcr0
  rip : s'.guestHas .rip = s.held .rip
  fault :
    if s.vcpu.header.vcpuOptions.interceptExceptions &&
        s.vcpu.header.exceptionBitmap.testBit generalProtection then
      s'.toHost = true ∧ s'.exitContext.report = some (.exception generalProtection (some 0))
    else
      s'.toHost = false ∧
        s'.vcpu.vmcs .vmentryInterruptionInformationField =
            interruptionInformation generalProtection ia32HardwareExceptionType true ∧
          s'.vcpu.vmcs .vmentryExceptionErrorCode = 0

/-- The instruction may be executed. -/
def XsetbvLegal : Prop := s.xcrIndex = 0 ∧ validXcr0 supportMask s.xcr0Operand = true

/-- A legal instruction is executed, any other is a fault for whoever is to have it. -/
def XsetbvBehaves : Prop :=
  ∃ s', nvcVtXsetbvCvexitHandler supportMask info s = some s' ∧
    (XsetbvLegal supportMask s → XsetbvExecuted info s s') ∧
    (¬XsetbvLegal supportMask s → XsetbvRefused s s')

/-- XCR0 has every supported component. -/
def coversXcr0 (value : Nat) : Bool :=
  value.testBit 0 && !(!value.testBit 1 && value.testBit 2) &&
    value &&& (supportMask % 2 ^ 64) == supportMask % 2 ^ 64

/-- A legal instruction enables all that is supported. Any other leaves some of it out, and the user
hypervisor has no exception #GP in its bitmap. -/
def XsetbvSettled : Prop :=
  (XsetbvLegal supportMask s →
    s.xcr0Operand = supportMask % 2 ^ 64 ∧ info.cpu.acceptsXcr0 s.xcr0Operand = true) ∧
  (¬XsetbvLegal supportMask s →
    ¬(s.xcrIndex = 0 ∧ coversXcr0 supportMask s.xcr0Operand = true) ∧
      s.vcpu.header.exceptionBitmap.testBit generalProtection = false)

end Handler

section Operand

variable {supportMask value lo hi : Nat}

theorem and_eq_iff_parts {x y n : Nat} :
    x &&& y = y ↔
      x % 2 ^ n &&& y % 2 ^ n = y % 2 ^ n ∧ x / 2 ^ n &&& y / 2 ^ n = y / 2 ^ n := by
  rw [← Nat.and_mod_two_pow, ← Nat.and_div_two_pow]
  constructor
  · intro h
    rw [h]
    exact ⟨rfl, rfl⟩
  · rintro ⟨hlow, hhigh⟩
    rw [← Nat.div_add_mod (x &&& y) (2 ^ n), hlow, hhigh, Nat.div_add_mod]

theorem covers_iff_parts (hlo : lo < 2 ^ 32) :
    (lo + hi * 2 ^ 32) &&& (supportMask % 2 ^ 64) = supportMask % 2 ^ 64 ↔
      lo &&& supportMask % 2 ^ 32 = supportMask % 2 ^ 32 ∧
        hi &&& supportMask / 2 ^ 32 % 2 ^ 32 = supportMask / 2 ^ 32 % 2 ^ 32 := by
  have hlow : (lo + hi * 2 ^ 32) % 2 ^ 32 = lo := by omega
  have hhigh : (lo + hi * 2 ^ 32) / 2 ^ 32 = hi := by omega
  have hmaskLow : supportMask % 2 ^ 64 % 2 ^ 32 = supportMask % 2 ^ 32 := by omega
  have hmaskHigh : supportMask % 2 ^ 64 / 2 ^ 32 = supportMask / 2 ^ 32 % 2 ^ 32 := by omega
  rw [and_eq_iff_parts (n := 32), hlow, hhigh, hmaskLow, hmaskHigh]

theorem testBit_low {i : Nat} (hlo : lo < 2 ^ 32) (hi' : i < 32) :
    (lo + hi * 2 ^ 32).testBit i = lo.testBit i := by
  rw [Nat.add_comm, Nat.mul_comm, Nat.testBit_two_pow_mul_add _ hlo, if_pos hi']

theorem refusesXcr0_eq (hlo : lo < 2 ^ 32) :
    refusesXcr0 supportMask lo hi = !coversXcr0 supportMask (lo + hi * 2 ^ 32) := by
  have hmask : ((lo + hi * 2 ^ 32) &&& (supportMask % 2 ^ 64) == supportMask % 2 ^ 64) =
      (lo &&& supportMask % 2 ^ 32 == supportMask % 2 ^ 32 &&
        hi &&& supportMask / 2 ^ 32 % 2 ^ 32 == supportMask / 2 ^ 32 % 2 ^ 32) := by
    rw [Bool.eq_iff_iff, beq_iff_eq, covers_iff_parts hlo, Bool.and_eq_true_iff, beq_iff_eq,
      beq_iff_eq]
  unfold refusesXcr0 coversXcr0
  rw [testBit_low hlo (by decide), testBit_low hlo (by decide), testBit_low hlo (by decide), hmask]
  dsimp only [bne]
  cases lo.testBit 0 <;> cases lo.testBit 1 <;> cases lo.testBit 2 <;> simp

/-- The mask test of the handler and the one of the validation hold together of one value. -/
theorem eq_of_valid_of_covers (hvalid : validXcr0 supportMask value = true)
    (hcovers : coversXcr0 supportMask value = true) (hvalue : value < 2 ^ 64) :
    value = supportMask % 2 ^ 64 := by
  have hinside : value &&& supportMask = value := by
    simpa using (Bool.and_eq_true_iff.mp hvalid).2
  have hcovered : value &&& (supportMask % 2 ^ 64) = supportMask % 2 ^ 64 := by
    simpa using (Bool.and_eq_true_iff.mp hcovers).2
  calc
    value = (value &&& supportMask) % 2 ^ 64 := by rw [hinside, Nat.mod_eq_of_lt hvalue]
    _ = value &&& (supportMask % 2 ^ 64) := by rw [Nat.and_mod_two_pow, Nat.mod_eq_of_lt hvalue]
    _ = supportMask % 2 ^ 64 := hcovered

/-- A legal value that is the mask itself covers it. -/
theorem covers_of_valid (hvalid : validXcr0 supportMask value = true)
    (hmask : value = supportMask % 2 ^ 64) : coversXcr0 supportMask value = true := by
  have hbits := (Bool.and_eq_true_iff.mp hvalid).1
  unfold coversXcr0
  rw [hbits, Bool.true_and, beq_iff_eq, hmask, Nat.and_self]

end Operand

section Behaves

variable {supportMask : Nat} {info : VtCvexitInformation} {s s' : VtCvexitState}

theorem xcr0Operand_lt : s.xcr0Operand < 2 ^ 64 := by
  unfold VtCvexitState.xcr0Operand
  omega

/-- The handler looks for a fault. -/
theorem xsetbv_faults :
    (s.xcrIndex != 0 || refusesXcr0 supportMask (s.p.reg .rax % 2 ^ 32) (s.p.reg (.gpr 2) % 2 ^ 32)) =
      !decide (s.xcrIndex = 0 ∧ coversXcr0 supportMask s.xcr0Operand = true) := by
  have hmod (n : Nat) : n % 2 ^ 32 < 2 ^ 32 := Nat.mod_lt _ (Nat.two_pow_pos 32)
  have hrefuses : refusesXcr0 supportMask (s.p.reg .rax % 2 ^ 32) (s.p.reg (.gpr 2) % 2 ^ 32) =
      !coversXcr0 supportMask s.xcr0Operand := refusesXcr0_eq (hmod _)
  rw [hrefuses]
  by_cases hindex : s.xcrIndex = 0 <;> simp [hindex, bne]

theorem xsetbv_accepted (hindex : s.xcrIndex = 0)
    (hcovers : coversXcr0 supportMask s.xcr0Operand = true) :
    nvcVtXsetbvCvexitHandler supportMask info s =
      (s.p.xsetbv info.cpu s.xcr0Operand).map fun p => { s with p }.noirVtAdvanceRip info := by
  unfold nvcVtXsetbvCvexitHandler
  dsimp only
  rw [xsetbv_faults, decide_eq_true ⟨hindex, hcovers⟩]
  rfl

theorem xsetbv_refused
    (hrefused : ¬(s.xcrIndex = 0 ∧ coversXcr0 supportMask s.xcr0Operand = true)) :
    nvcVtXsetbvCvexitHandler supportMask info s =
      if !s.vcpu.header.exceptionBitmap.testBit generalProtection ||
          s.vcpu.header.vcpuOptions.interceptExceptions then
        some (s.noirVtInjectEvent generalProtection ia32HardwareExceptionType true 0 0)
      else
        (s.switchToHost info).map fun s =>
          ((s.assignException generalProtection true).assign 0 6 26 0).assign 4 0 8 0 := by
  unfold nvcVtXsetbvCvexitHandler
  dsimp only
  rw [xsetbv_faults, decide_eq_false hrefused]
  rfl

theorem switchToHost_eq :
    s.switchToHost info =
      some { s with
        p := s.p.loaded Register.isVtLate (info.host.reg .xcr0) info.host
        vcpu := s.vcpu.exited (info.host.reg .xcr0) s.p
        toHost := true } := by
  have hswitch : nvcVtSwitchToHostVcpu info.cpu s.p info.host s.vcpu = _ :=
    nvcVtSwitchToHostVcpu_eq info.loadable
  exact congrArg _ hswitch

/-- The XCR0 of the guest matters to the entry alone. -/
theorem switchesSafely_of_accepts (h : info.cpu.acceptsXcr0 (s.p.reg .xcr0) = true) :
    SwitchesSafely info s := by
  refine ⟨_, switchToHost_eq, fun fixed stack p host harea => ?_⟩
  have hloadable : GuestLoadable info.cpu (s.vcpu.exited (info.host.reg .xcr0) s.p).header p :=
    ⟨harea, h⟩
  rw [nvcVtSwitchToGuestVcpu_eq, enterGuest_of_loadable hloadable]
  rfl

theorem xsetbvExecuted (hs : s.AtExit) (haccepts : info.cpu.acceptsXcr0 s.xcr0Operand = true) :
    ∃ s', (s.p.xsetbv info.cpu s.xcr0Operand).map
        (fun p => ({ s with p } : VtCvexitState).noirVtAdvanceRip info) = some s' ∧
      XsetbvExecuted info s s' := by
  rw [xsetbv_of_accepts haccepts, Option.map_some]
  refine ⟨_, rfl, ?_, ?_, ?_, switchesSafely_of_accepts ?_⟩
  · unfold VtCvexitState.noirVtAdvanceRip
    dsimp only
    split <;> exact hs.guest
  · rw [held_noirVtAdvanceRip]
    rfl
  · rw [held_noirVtAdvanceRip]
    exact Function.update_self _ _ _
  · have hp (s : VtCvexitState) : (s.noirVtAdvanceRip info).p = s.p := by
      unfold VtCvexitState.noirVtAdvanceRip
      dsimp only
      split <;> rfl
    rw [hp]
    exact haccepts

theorem xsetbvRefused_injected (hs : s.AtExit)
    (hintercepts : (s.vcpu.header.vcpuOptions.interceptExceptions &&
      s.vcpu.header.exceptionBitmap.testBit generalProtection) = false) :
    XsetbvRefused s (s.noirVtInjectEvent generalProtection ia32HardwareExceptionType true 0 0) := by
  have hguest : (s.noirVtInjectEvent generalProtection ia32HardwareExceptionType true 0 0).toHost =
      false := hs.guest
  refine ⟨?_, ?_, ?_⟩
  · unfold VtCvexitState.guestHas
    rw [if_neg (by rw [hguest]; exact Bool.false_ne_true), held_noirVtInjectEvent]
  · unfold VtCvexitState.guestHas
    rw [if_neg (by rw [hguest]; exact Bool.false_ne_true), held_noirVtInjectEvent]
  · rw [hintercepts, if_neg Bool.false_ne_true]
    have hinformation : vtInjectEvent generalProtection ia32HardwareExceptionType true 0 0 s.vcpu.vmcs
        .vmentryInterruptionInformationField = _ := vtInjectEvent_information
    exact ⟨hguest, hinformation, rfl⟩

/-- Where the bitmap has the fault, the handler tells whoever is not to have it. -/
theorem not_xsetbvRefused_of_bitmap (hs : s.AtExit)
    (hbitmap : s.vcpu.header.exceptionBitmap.testBit generalProtection = true)
    (hhandler : (if !s.vcpu.header.exceptionBitmap.testBit generalProtection ||
          s.vcpu.header.vcpuOptions.interceptExceptions then
        some (s.noirVtInjectEvent generalProtection ia32HardwareExceptionType true 0 0)
      else
        (s.switchToHost info).map fun s =>
          ((s.assignException generalProtection true).assign 0 6 26 0).assign 4 0 8 0) = some s') :
    ¬XsetbvRefused s s' := by
  intro hrefused
  have hfault := hrefused.fault
  rw [hbitmap, Bool.and_true] at hfault
  rw [hbitmap, Bool.not_true, Bool.false_or] at hhandler
  cases hoption : s.vcpu.header.vcpuOptions.interceptExceptions with
  | true =>
      rw [hoption, if_pos rfl] at hfault hhandler
      rw [← Option.some.inj hhandler] at hfault
      exact absurd (hs.guest.symm.trans hfault.1) Bool.false_ne_true
  | false =>
      rw [hoption, if_neg Bool.false_ne_true] at hfault hhandler
      rw [switchToHost_eq, Option.map_some] at hhandler
      rw [← Option.some.inj hhandler] at hfault
      exact Bool.noConfusion hfault.1

/-- An instruction that is executed advances RIP. -/
theorem not_xsetbvRefused_of_executed (hexecuted : XsetbvExecuted info s s') : ¬XsetbvRefused s s' := by
  intro hrefused
  have hrip := hrefused.rip
  unfold VtCvexitState.guestHas at hrip
  rw [hexecuted.toHost, if_neg Bool.false_ne_true, hexecuted.rip] at hrip
  exact advancedRip_ne hrip

theorem xsetbvBehaves_of_covers (hs : s.AtExit) (hindex : s.xcrIndex = 0)
    (hcovers : coversXcr0 supportMask s.xcr0Operand = true) :
    XsetbvBehaves supportMask info s ↔
      XsetbvLegal supportMask s ∧ info.cpu.acceptsXcr0 s.xcr0Operand = true := by
  unfold XsetbvBehaves
  rw [xsetbv_accepted hindex hcovers]
  cases haccepts : info.cpu.acceptsXcr0 s.xcr0Operand with
  | false =>
      have hnone : s.p.xsetbv info.cpu s.xcr0Operand = none := by
        unfold Processor.xsetbv Xsave.setXcr0
        rw [if_neg (by rw [haccepts]; exact Bool.false_ne_true)]
        rfl
      rw [hnone]
      exact iff_of_false (fun ⟨_, h, _⟩ => nomatch h) fun h => Bool.false_ne_true h.2
  | true =>
      obtain ⟨s', hhandler, hexecuted⟩ := xsetbvExecuted hs haccepts
      rw [hhandler]
      constructor
      · rintro ⟨_, heq, -, hrefused⟩
        cases heq
        refine ⟨?_, rfl⟩
        by_contra hlegal
        exact not_xsetbvRefused_of_executed hexecuted (hrefused hlegal)
      · rintro ⟨hlegal, -⟩
        exact ⟨s', rfl, fun _ => hexecuted, fun h => absurd hlegal h⟩

/-- A fault is never taken for the execution of the instruction. -/
theorem not_xsetbvExecuted_of_injected :
    ¬XsetbvExecuted info s
      (s.noirVtInjectEvent generalProtection ia32HardwareExceptionType true 0 0) := by
  intro hexecuted
  have hrip := hexecuted.rip
  rw [held_noirVtInjectEvent] at hrip
  exact advancedRip_ne hrip.symm

theorem xsetbvBehaves_of_not_covers (hs : s.AtExit)
    (hcovers : ¬(s.xcrIndex = 0 ∧ coversXcr0 supportMask s.xcr0Operand = true)) :
    XsetbvBehaves supportMask info s ↔
      ¬XsetbvLegal supportMask s ∧
        s.vcpu.header.exceptionBitmap.testBit generalProtection = false := by
  unfold XsetbvBehaves
  rw [xsetbv_refused hcovers]
  by_cases hbitmap : s.vcpu.header.exceptionBitmap.testBit generalProtection = true
  · refine iff_of_false ?_ fun h => Bool.false_ne_true (h.2.symm.trans hbitmap)
    rintro ⟨s', hhandler, hexecuted, hrefused⟩
    by_cases hlegal : XsetbvLegal supportMask s
    · have hexecuted := hexecuted hlegal
      split at hhandler
      · cases hhandler
        exact not_xsetbvExecuted_of_injected hexecuted
      · rw [switchToHost_eq, Option.map_some] at hhandler
        cases hhandler
        exact Bool.noConfusion hexecuted.toHost
    · exact not_xsetbvRefused_of_bitmap hs hbitmap hhandler (hrefused hlegal)
  · have hclear := Bool.eq_false_iff.mpr hbitmap
    have hrefused := xsetbvRefused_injected hs (by rw [hclear, Bool.and_false])
    rw [hclear, Bool.not_false, Bool.true_or, if_pos rfl]
    constructor
    · rintro ⟨s', heq, hexecuted, -⟩
      cases heq
      exact ⟨fun hlegal => not_xsetbvExecuted_of_injected (hexecuted hlegal), rfl⟩
    · rintro ⟨hillegal, -⟩
      exact ⟨_, rfl, fun h => absurd h hillegal, fun _ => hrefused⟩

/-- The instruction is handled as it is to be in exactly these cases. -/
theorem xsetbvBehaves_iff (hs : s.AtExit) :
    XsetbvBehaves supportMask info s ↔ XsetbvSettled supportMask info s := by
  unfold XsetbvSettled
  by_cases hcovers : s.xcrIndex = 0 ∧ coversXcr0 supportMask s.xcr0Operand = true
  · rw [xsetbvBehaves_of_covers hs hcovers.1 hcovers.2]
    by_cases hlegal : XsetbvLegal supportMask s
    · have hmask := eq_of_valid_of_covers hlegal.2 hcovers.2 xcr0Operand_lt
      exact ⟨fun h => ⟨fun _ => ⟨hmask, h.2⟩, fun hnot => absurd hlegal hnot⟩,
        fun h => ⟨hlegal, (h.1 hlegal).2⟩⟩
    · exact iff_of_false (fun h => hlegal h.1) fun h => (h.2 hlegal).1 hcovers
  · rw [xsetbvBehaves_of_not_covers hs hcovers]
    by_cases hlegal : XsetbvLegal supportMask s
    · refine iff_of_false (fun h => h.1 hlegal) fun h => hcovers ⟨hlegal.1, ?_⟩
      exact covers_of_valid hlegal.2 (h.1 hlegal).1
    · exact ⟨fun h => ⟨fun hnot => absurd hnot hlegal, fun _ => ⟨hcovers, h.2⟩⟩,
        fun h => ⟨hlegal, (h.2 hlegal).2⟩⟩

end Behaves

/-! A guest on a processor with x87, SSE and AVX. -/

/-- XCR0 is to have x87 and SSE. -/
def sseState : VtCvexitState :=
  { firstExitState with p.reg := fun r => if r = .rax then 3 else 0 }

/-- With all that is supported the instruction is executed. -/
def avxState : VtCvexitState :=
  { firstExitState with p.reg := fun r => if r = .rax then 7 else 0 }

theorem avxState_behaves : XsetbvBehaves 7 firstExitInformation avxState := by
  have hatExit : avxState.AtExit := ⟨rfl, rfl⟩
  have hlegal : XsetbvLegal 7 avxState := ⟨by decide, by decide⟩
  exact (xsetbvBehaves_iff hatExit).mpr
    ⟨fun _ => ⟨by decide, rfl⟩, fun hnot => absurd hlegal hnot⟩

theorem not_forall_xsetbvBehaves :
    ¬∀ (supportMask : Nat) (info : VtCvexitInformation) (s : VtCvexitState), s.AtExit →
      XsetbvBehaves supportMask info s := by
  intro h
  have hatExit : sseState.AtExit := ⟨rfl, rfl⟩
  have hlegal : XsetbvLegal 7 sseState := ⟨by decide, by decide⟩
  have hcovers : coversXcr0 7 sseState.xcr0Operand = false := by decide
  have hbehaves := h 7 firstExitInformation sseState hatExit
  have hrefused := (xsetbvBehaves_of_not_covers hatExit fun hc => by
    rw [hcovers] at hc
    exact Bool.false_ne_true hc.2).mp hbehaves
  exact hrefused.1 hlegal

end NoirVisor
