import Mathlib.Data.List.FinRange
import NoirVisor.Cvm.SvmCvexit

/-!
# MSR exits of a guest on SVM

An access to an MSR goes to the host, is emulated, or is a fault of the guest.
-/

namespace NoirVisor

/-- What `exit_context` tells the host about an access: the registers of the instruction, or the
command of an NSV guest. -/
inductive MsrContext where
  | access (write : Bool) (eax edx ecx : Nat)
  | nsvActivate (value : Nat)
  | nsvClaimSecurity (value : Nat)

section Access

variable (ctx : CvexitContext) (s : CvexitState)

def opWrite : Bool := ctx.exitInfo1 % 2 ^ 8 != 0

/-- These are the MSRs that user hypervisors cannot intercept. -/
def MsrReserved (index : Nat) : Prop := 0x40000000 ≤ index ∧ index < 0x80000000

instance (index : Nat) : Decidable (MsrReserved index) := inferInstanceAs (Decidable (_ ∧ _))

/-- The structure after the switch to the host. It does not have the registers of an NSV guest. -/
def switchedHeader : VirtualCpu :=
  (if s.vcpu.nsvGuest then nvcSvmNsvSaveGuestVcpu s.p s.vcpu else s.vcpu.saveGuest s.p).header

/-- What the handler of an MSR exit puts to `exit_context`. -/
def msrContext : Option MsrContext :=
  if MsrReserved s.msrIndex then
    match opWrite ctx, writeSyntheticMsr ctx s with
    | true, some (false, _) =>
        some (if s.msrIndex = nsvMsrActivation then .nsvActivate s.msrValue
          else .nsvClaimSecurity s.msrValue)
    | _, _ => none
  else if s.vcpu.header.vcpuOptions.interceptMsr && interceptsMsr ctx s.msrIndex then
    let reg := (switchedHeader s).reg
    some (.access (opWrite ctx) (reg .rax % 2 ^ 32) (reg (.gpr 2) % 2 ^ 32) (reg (.gpr 1) % 2 ^ 32))
  else none

end Access

/-- A state at the exit of an instruction: the next one is elsewhere, and the processor has taken the
event that was injected at the entry. -/
structure CvexitState.AtInstruction (s : CvexitState) : Prop where
  guest : s.toHost = false
  next : s.vcpu.vmcb.field .nextRip ≠ s.vcpu.vmcb.field (.guest .rip)
  noEvent : (s.vcpu.vmcb.field .eventInjection).testBit 31 = false

inductive MsrDisposition where
  | toHost | emulated | fault
deriving DecidableEq, Repr

/-- The event of a #GP with its error code valid. -/
def generalProtectionEvent : Nat := generalProtection + faultTrapException * 2 ^ 8 + 2 ^ 11 + 2 ^ 31

section Disposition

variable (ctx : CvexitContext) (s : CvexitState)

/-- The guest goes on, with `vmcb` in this relation to the one at the exit. -/
def ResumesWith (related : Vmcb → Prop) : Prop :=
  ∃ s', nvcSvmMsrCvexitHandler ctx s = some s' ∧ s'.toHost = false ∧ related s'.vcpu.vmcb

def EndsIn : MsrDisposition → Prop
  | .toHost => (msrContext ctx s).isSome ∧ ∃ left, nvcSvmMsrCvexitHandler ctx s = cvexitToHost ctx left
  | .emulated => ResumesWith ctx s fun vmcb =>
      vmcb.field (.guest .rip) = s.vcpu.vmcb.field .nextRip
  | .fault => ResumesWith ctx s fun vmcb =>
      vmcb.field (.guest .rip) = s.vcpu.vmcb.field (.guest .rip) ∧
        vmcb.field .eventInjection = generalProtectionEvent

/-- An accepted write of `s` is what a read after it gives, and the other MSRs stay. The time stamp
counter goes on: `tsc` is the time of the read. -/
def ReadsBack : Prop :=
  ∀ s', nvcSvmWrmsrCvexitHandler ctx s = some s' → ∀ (tsc : Nat) (read : CvexitState),
    ctx.tsc ≤ tsc → tsc < 2 ^ 64 → read.vcpu = s'.vcpu →
      (nvcSvmRdmsrCvexitHandler { ctx with tsc } read).map CvexitState.msrValue =
        if read.msrIndex = s.msrIndex then
          some (if s.msrIndex = amd64Tsc then (s.msrValue + (tsc - ctx.tsc)) % 2 ^ 64 else s.msrValue)
        else
          (nvcSvmRdmsrCvexitHandler { ctx with tsc } { read with vcpu := s.vcpu }).map
            CvexitState.msrValue

def MsrExitBehaves : Prop := (∃! disposition, EndsIn ctx s disposition) ∧ ReadsBack ctx s

/-- A reserved MSR that is emulated, and not a command. -/
def emulatesReserved : Bool :=
  s.msrIndex == nsvMsrGhcb ||
    ((if opWrite ctx then writableSyntheticMsrs else readableSyntheticMsrs).lookup s.msrIndex).isSome

/-- The access is to a reserved MSR, or the host intercepts it. RIP is advanced unless the next
instruction is at 0. -/
def MsrSettled : Prop :=
  if MsrReserved s.msrIndex then emulatesReserved ctx s → s.vcpu.vmcb.field .nextRip ≠ 0
  else s.vcpu.header.vcpuOptions.interceptMsr ∧ interceptsMsr ctx s.msrIndex

end Disposition

/-! How an exit ends. -/

section Ends

variable {ctx : CvexitContext} {s s' : CvexitState}

theorem cvexitToHost_toHost (h : cvexitToHost ctx s = some s') : s'.toHost = true := by
  obtain ⟨switched, -, rfl⟩ := Option.map_eq_some_iff.mp h
  rfl

theorem existsUnique_of_cvexitToHost {left : CvexitState} (hcontext : (msrContext ctx s).isSome)
    (h : nvcSvmMsrCvexitHandler ctx s = cvexitToHost ctx left) :
    ∃! disposition, EndsIn ctx s disposition := by
  have hresumes : ∀ related, ¬ResumesWith ctx s related := by
    rintro related ⟨s', hs', hguest, -⟩
    rw [cvexitToHost_toHost (h.symm.trans hs')] at hguest
    cases hguest
  refine ⟨.toHost, ⟨hcontext, left, h⟩, fun disposition hends => ?_⟩
  unfold EndsIn at hends
  cases disposition with
  | toHost => rfl
  | emulated => exact absurd hends (hresumes _)
  | fault => exact absurd hends (hresumes _)

theorem endsIn_of_resumed (h : nvcSvmMsrCvexitHandler ctx s = some s') (hguest : s'.toHost = false)
    (disposition : MsrDisposition) :
    EndsIn ctx s disposition ↔
      match disposition with
      | .toHost => False
      | .emulated => s'.vcpu.vmcb.field (.guest .rip) = s.vcpu.vmcb.field .nextRip
      | .fault => s'.vcpu.vmcb.field (.guest .rip) = s.vcpu.vmcb.field (.guest .rip) ∧
          s'.vcpu.vmcb.field .eventInjection = generalProtectionEvent := by
  have hresumes : ∀ related, ResumesWith ctx s related ↔ related s'.vcpu.vmcb := by
    intro related
    constructor
    · rintro ⟨s'', hs'', -, hrelated⟩
      cases h.symm.trans hs''
      exact hrelated
    · exact fun hrelated => ⟨s', h, hguest, hrelated⟩
  cases disposition with
  | toHost =>
      refine iff_false_intro ?_
      rintro ⟨-, left, hleft⟩
      rw [cvexitToHost_toHost (hleft.symm.trans h)] at hguest
      cases hguest
  | emulated =>
      unfold EndsIn
      exact hresumes _
  | fault =>
      unfold EndsIn
      exact hresumes _

/-- A guest that goes on after RIP was advanced. -/
theorem existsUnique_of_advanced (hs : s.AtInstruction) (h : nvcSvmMsrCvexitHandler ctx s = some s')
    (hguest : s'.toHost = false)
    (hrip : s'.vcpu.vmcb.field (.guest .rip) = s.vcpu.vmcb.field .nextRip) :
    ∃! disposition, EndsIn ctx s disposition := by
  refine ⟨.emulated, (endsIn_of_resumed h hguest _).mpr hrip, fun disposition hends => ?_⟩
  have hends := (endsIn_of_resumed h hguest _).mp hends
  cases disposition with
  | toHost => cases hends
  | emulated => rfl
  | fault => exact absurd (hrip.symm.trans hends.1) hs.next

theorem existsUnique_of_fault (hs : s.AtInstruction)
    (h : nvcSvmMsrCvexitHandler ctx s = some (injectGeneralProtection s)) :
    ∃! disposition, EndsIn ctx s disposition := by
  have hends := endsIn_of_resumed h hs.guest
  refine ⟨.fault, (hends _).mpr ⟨rfl, rfl⟩, fun disposition hdisposition => ?_⟩
  have hdisposition := (hends _).mp hdisposition
  cases disposition with
  | toHost => cases hdisposition
  | emulated => exact absurd hdisposition.symm hs.next
  | fault => rfl

/-- A guest that goes on where it was, and without the fault. -/
theorem not_existsUnique_of_stuck (hs : s.AtInstruction) (h : nvcSvmMsrCvexitHandler ctx s = some s')
    (hguest : s'.toHost = false)
    (hrip : s'.vcpu.vmcb.field (.guest .rip) = s.vcpu.vmcb.field (.guest .rip))
    (hevent : s'.vcpu.vmcb.field .eventInjection ≠ generalProtectionEvent) :
    ¬∃! disposition, EndsIn ctx s disposition := by
  rintro ⟨disposition, hends, -⟩
  have hends := (endsIn_of_resumed h hguest _).mp hends
  cases disposition with
  | toHost => exact hends
  | emulated => exact hs.next (hends.symm.trans hrip)
  | fault => exact hevent hends.2

theorem generalProtectionEvent_ne {event : Nat} (h : event.testBit 31 = false) :
    event ≠ generalProtectionEvent := by
  rintro rfl
  have hvalid : generalProtectionEvent.testBit 31 = true := by decide
  rw [hvalid] at h
  cases h

theorem advanceRip_rip {vmcb : Vmcb} : vmcb.advanceRip.field (.guest .rip) =
    if vmcb.field .nextRip = 0 then vmcb.field (.guest .rip) else vmcb.field .nextRip := by
  unfold Vmcb.advanceRip
  dsimp only
  split <;> split <;> rfl

theorem advanceRip_event {vmcb : Vmcb} (h : (vmcb.field .eventInjection).testBit 31 = false) :
    vmcb.advanceRip.field .eventInjection ≠ generalProtectionEvent := by
  have hdebug : 1 + 3 * 2 ^ 8 + 2 ^ 31 ≠ generalProtectionEvent := by decide
  unfold Vmcb.advanceRip
  dsimp only
  split <;> split
  · exact hdebug
  · exact generalProtectionEvent_ne h
  · exact hdebug
  · exact generalProtectionEvent_ne h

theorem msrHandler_read (hread : opWrite ctx = false) (hreserved : MsrReserved s.msrIndex) :
    nvcSvmMsrCvexitHandler ctx s = some (nvcSvmRdmsrNsvexitHandler s) := by
  have hcode : (ctx.exitInfo1 % 2 ^ 8 != 0) = false := hread
  have hrange : 0x40000000 ≤ s.msrIndex ∧ s.msrIndex < 0x80000000 := hreserved
  unfold nvcSvmMsrCvexitHandler
  dsimp only
  rw [if_pos hrange, hcode]
  rfl

theorem msrHandler_write (hwrite : opWrite ctx = true) (hreserved : MsrReserved s.msrIndex) :
    nvcSvmMsrCvexitHandler ctx s =
      match writeSyntheticMsr ctx s with
      | none => some (injectGeneralProtection s)
      | some (true, s) => some s.advanceRip
      | some (false, s) => cvexitToHost ctx s.advanceRip := by
  have hcode : (ctx.exitInfo1 % 2 ^ 8 != 0) = true := hwrite
  have hrange : 0x40000000 ≤ s.msrIndex ∧ s.msrIndex < 0x80000000 := hreserved
  unfold nvcSvmMsrCvexitHandler nvcSvmWrmsrNsvexitHandler
  dsimp only
  rw [if_pos hrange, hcode]
  cases writeSyntheticMsr ctx s with
  | none => rfl
  | some result =>
      obtain ⟨noExit, s'⟩ := result
      cases noExit with
      | false => rfl
      | true => rfl

/-- The next RIP is not the guest's yet when an emulated access changes the rest. -/
structure Emulates (s e : CvexitState) : Prop where
  toHost : e.toHost = s.toHost
  vmcb : e.vcpu.vmcb = s.vcpu.vmcb

theorem reserved_read_cases (hread : opWrite ctx = false) :
    emulatesReserved ctx s = true ∧
        (∃ e, Emulates s e ∧ nvcSvmRdmsrNsvexitHandler s = e.advanceRip) ∨
      emulatesReserved ctx s = false ∧ nvcSvmRdmsrNsvexitHandler s = injectGeneralProtection s := by
  unfold emulatesReserved nvcSvmRdmsrNsvexitHandler
  rw [hread, if_neg Bool.false_ne_true]
  split
  · next hghcb =>
      left
      refine ⟨by rw [hghcb]; rfl, _, ?_, rfl⟩
      exact ⟨rfl, rfl⟩
  · next hghcb =>
      rw [beq_false_of_ne hghcb, Bool.false_or]
      split
      · next msr hmsr =>
          left
          refine ⟨by simp [hmsr], _, ?_, rfl⟩
          exact ⟨rfl, rfl⟩
      · next hmsr =>
          right
          exact ⟨by simp [hmsr], rfl⟩

/-- A write is emulated, is a command for the host, or faults. -/
theorem writeSyntheticMsr_cases (hwrite : opWrite ctx = true) :
    emulatesReserved ctx s = true ∧ (∃ e, Emulates s e ∧ writeSyntheticMsr ctx s = some (true, e)) ∨
      emulatesReserved ctx s = false ∧
        ((∃ e, writeSyntheticMsr ctx s = some (false, e)) ∨ writeSyntheticMsr ctx s = none) := by
  unfold emulatesReserved writeSyntheticMsr
  rw [hwrite, if_pos rfl]
  dsimp only
  split
  · next hghcb =>
      left
      refine ⟨by rw [hghcb]; rfl, _, ?_, rfl⟩
      exact ⟨rfl, rfl⟩
  next hghcb =>
  rw [beq_false_of_ne hghcb, Bool.false_or]
  split
  · next hactivation =>
      right
      refine ⟨by rw [hactivation]; rfl, ?_⟩
      split
      · exact .inr rfl
      · exact .inl ⟨_, rfl⟩
  split
  · next hclaim =>
      right
      refine ⟨by rw [hclaim]; rfl, ?_⟩
      split
      · exact .inr rfl
      · exact .inl ⟨_, rfl⟩
  cases hmsr : writableSyntheticMsrs.lookup s.msrIndex with
  | none =>
      right
      exact ⟨rfl, .inr rfl⟩
  | some msr =>
      left
      refine ⟨rfl, _, ?_, rfl⟩
      exact ⟨rfl, rfl⟩

theorem existsUnique_iff_of_emulates {e : CvexitState} (hs : s.AtInstruction) (he : Emulates s e)
    (h : nvcSvmMsrCvexitHandler ctx s = some e.advanceRip) :
    (∃! disposition, EndsIn ctx s disposition) ↔ s.vcpu.vmcb.field .nextRip ≠ 0 := by
  have hguest : e.advanceRip.toHost = false := he.toHost.trans hs.guest
  have hrip : e.advanceRip.vcpu.vmcb.field (.guest .rip) = _ := advanceRip_rip
  rw [he.vmcb] at hrip
  by_cases hnext : s.vcpu.vmcb.field .nextRip = 0
  · rw [if_pos hnext] at hrip
    have hevent : e.advanceRip.vcpu.vmcb.field .eventInjection ≠ generalProtectionEvent := by
      apply advanceRip_event
      rw [he.vmcb]
      exact hs.noEvent
    exact iff_of_false (not_existsUnique_of_stuck hs h hguest hrip hevent) (not_not_intro hnext)
  · rw [if_neg hnext] at hrip
    exact iff_of_true (existsUnique_of_advanced hs h hguest hrip) hnext

/-- The handlers of the reserved MSRs: they emulate the access, leave with a command, or fault. -/
theorem existsUnique_iff_of_reserved (hs : s.AtInstruction) (hreserved : MsrReserved s.msrIndex) :
    (∃! disposition, EndsIn ctx s disposition) ↔
      (emulatesReserved ctx s → s.vcpu.vmcb.field .nextRip ≠ 0) := by
  cases hwrite : opWrite ctx with
  | false =>
      have hhandler := msrHandler_read hwrite hreserved
      obtain ⟨hemulates, e, he, hresult⟩ | ⟨hemulates, hresult⟩ :=
        reserved_read_cases (s := s) hwrite
      · rw [existsUnique_iff_of_emulates hs he (hhandler.trans (congrArg some hresult)), hemulates]
        exact ⟨fun h _ => h, fun h => h rfl⟩
      · rw [hemulates]
        exact iff_of_true (existsUnique_of_fault hs (hhandler.trans (congrArg some hresult)))
          (fun h => (nomatch h))
  | true =>
      have hhandler := msrHandler_write hwrite hreserved
      obtain ⟨hemulates, e, he, hresult⟩ | ⟨hemulates, ⟨e, hresult⟩ | hresult⟩ :=
        writeSyntheticMsr_cases (s := s) hwrite
      · rw [hresult] at hhandler
        rw [existsUnique_iff_of_emulates hs he hhandler, hemulates]
        exact ⟨fun h _ => h, fun h => h rfl⟩
      · rw [hresult] at hhandler
        have hcontext : (msrContext ctx s).isSome := by
          unfold msrContext
          rw [if_pos hreserved, hwrite, hresult]
          rfl
        rw [hemulates]
        exact iff_of_true (existsUnique_of_cvexitToHost hcontext hhandler) (fun h => (nomatch h))
      · rw [hresult] at hhandler
        rw [hemulates]
        exact iff_of_true (existsUnique_of_fault hs hhandler) (fun h => (nomatch h))

theorem msrHandler_not_intercepted (hreserved : ¬MsrReserved s.msrIndex)
    (hoption : s.vcpu.header.vcpuOptions.interceptMsr = false) :
    nvcSvmMsrCvexitHandler ctx s = some s := by
  have hrange : ¬(0x40000000 ≤ s.msrIndex ∧ s.msrIndex < 0x80000000) := hreserved
  unfold nvcSvmMsrCvexitHandler
  dsimp only
  rw [if_neg hrange, hoption, if_neg Bool.false_ne_true]

theorem msrHandler_intercepted (hreserved : ¬MsrReserved s.msrIndex)
    (hoption : s.vcpu.header.vcpuOptions.interceptMsr = true) (h : interceptsMsr ctx s.msrIndex = true) :
    nvcSvmMsrCvexitHandler ctx s = cvexitToHost ctx s := by
  have hrange : ¬(0x40000000 ≤ s.msrIndex ∧ s.msrIndex < 0x80000000) := hreserved
  unfold nvcSvmMsrCvexitHandler
  dsimp only
  rw [if_neg hrange, if_pos hoption, if_pos h]

theorem msrHandler_emulated (hreserved : ¬MsrReserved s.msrIndex)
    (hoption : s.vcpu.header.vcpuOptions.interceptMsr = true)
    (h : interceptsMsr ctx s.msrIndex = false) :
    nvcSvmMsrCvexitHandler ctx s =
      match if opWrite ctx then nvcSvmWrmsrCvexitHandler ctx s else nvcSvmRdmsrCvexitHandler ctx s with
      | some s => some { s with vcpu.header := ctx.misplaced s.vcpu.header }
      | none => injectInvalidOpcode ctx s := by
  have hrange : ¬(0x40000000 ≤ s.msrIndex ∧ s.msrIndex < 0x80000000) := hreserved
  unfold nvcSvmMsrCvexitHandler
  dsimp only
  rw [if_neg hrange, if_pos hoption, h, if_neg Bool.false_ne_true]
  rfl

/-- Neither RIP nor the event to inject is changed. -/
structure Stays (s e : CvexitState) : Prop where
  toHost : e.toHost = s.toHost
  rip : e.vcpu.vmcb.field (.guest .rip) = s.vcpu.vmcb.field (.guest .rip)
  event : e.vcpu.vmcb.field .eventInjection = s.vcpu.vmcb.field .eventInjection

def OptionStays (s : CvexitState) (result : Option CvexitState) : Prop :=
  ∀ e, result = some e → Stays s e

theorem optionStays_some {e : CvexitState} (h : Stays s e) : OptionStays s (some e) := by
  rintro e' ⟨⟩
  exact h

theorem stays_rdmsr : OptionStays s (nvcSvmRdmsrCvexitHandler ctx s) := by
  intro e h
  obtain ⟨value, -, rfl⟩ := Option.map_eq_some_iff.mp h
  exact ⟨rfl, rfl, rfl⟩

theorem uncachedMsrs_ne : ∀ entry ∈ uncachedMsrs,
    entry.2 ≠ .rip ∧ entry.2 ≠ .tscOffset ∧ entry.2 ≠ .pat ∧ entry.2 ≠ .efer := by decide

theorem stays_withShadowedBits {bits : ShadowedBits} : Stays s { s with vcpu.shadowedBits := bits } :=
  ⟨rfl, rfl, rfl⟩

theorem Stays.trans {e e' : CvexitState} (h : Stays s e) (h' : Stays e e') : Stays s e' :=
  ⟨h'.toHost.trans h.toHost, h'.rip.trans h.rip, h'.event.trans h.event⟩

theorem stays_write {r : Register} {value : Nat} (h : r ≠ .rip) :
    Stays s (s.withVmcb (·.write (.guest r) value)) where
  toHost := rfl
  rip := Function.update_of_ne (fun heq => h (VmcbField.guest.inj heq).symm) _ _
  event := rfl

theorem stays_dirty {r : Register} {value : Nat} {b : CleanBit} (h : r ≠ .rip) :
    Stays s (s.withVmcb fun vmcb => (vmcb.write (.guest r) value).dirty b) where
  toHost := rfl
  rip := Function.update_of_ne (fun heq => h (VmcbField.guest.inj heq).symm) _ _
  event := rfl

theorem stays_wrmsr : OptionStays s (nvcSvmWrmsrCvexitHandler ctx s) := by
  unfold nvcSvmWrmsrCvexitHandler
  dsimp only
  split
  · exact optionStays_some (stays_dirty (fun heq => (nomatch heq)))
  split
  · split
    · exact optionStays_some ⟨rfl, rfl, rfl⟩
    · exact fun _ h => (nomatch h)
  split
  · exact optionStays_some (stays_dirty (fun heq => (nomatch heq)))
  split
  · exact optionStays_some
      (stays_withShadowedBits.trans (stays_dirty (fun heq => (nomatch heq))))
  split
  · next r hr => exact optionStays_some (stays_write (uncachedMsrs_ne _ (mem_of_lookup hr)).1)
  · intro e h
    obtain ⟨name, -, rfl⟩ := Option.map_eq_some_iff.mp h
    exact ⟨rfl, rfl, rfl⟩

theorem injectInvalidOpcode_intercepted (h : s.vcpu.header.exceptionBitmap.testBit invalidOpcode = true) :
    injectInvalidOpcode ctx s = cvexitToHost ctx s := if_pos h

theorem injectInvalidOpcode_injected (h : s.vcpu.header.exceptionBitmap.testBit invalidOpcode = false) :
    injectInvalidOpcode ctx s =
      some (s.withVmcb (·.injectEvent invalidOpcode faultTrapException false true 0)) := by
  unfold injectInvalidOpcode nvcSvmInjectCvmException
  rw [h, if_neg Bool.false_ne_true]
  rfl

theorem invalidOpcode_ne {vmcb : Vmcb} :
    (vmcb.injectEvent invalidOpcode faultTrapException false true 0).field .eventInjection ≠
      generalProtectionEvent :=
  show invalidOpcode % 2 ^ 8 + faultTrapException % 2 ^ 3 * 2 ^ 8 + false.toNat * 2 ^ 11 +
    true.toNat * 2 ^ 31 ≠ generalProtectionEvent by decide

/-- The guest goes on at the same instruction, or meets the exception of another fault. -/
theorem not_existsUnique_of_emulated (hs : s.AtInstruction) (hreserved : ¬MsrReserved s.msrIndex)
    (hoption : s.vcpu.header.vcpuOptions.interceptMsr = true)
    (h : interceptsMsr ctx s.msrIndex = false) : ¬∃! disposition, EndsIn ctx s disposition := by
  have hhandler := msrHandler_emulated hreserved hoption h
  have hstays : OptionStays s (if opWrite ctx then nvcSvmWrmsrCvexitHandler ctx s
      else nvcSvmRdmsrCvexitHandler ctx s) := by
    split
    · exact stays_wrmsr
    · exact stays_rdmsr
  cases hresult : if opWrite ctx then nvcSvmWrmsrCvexitHandler ctx s
      else nvcSvmRdmsrCvexitHandler ctx s with
  | some e =>
      rw [hresult] at hhandler
      have he := hstays e hresult
      refine not_existsUnique_of_stuck hs hhandler (he.toHost.trans hs.guest) he.rip ?_
      exact generalProtectionEvent_ne ((congrArg (Nat.testBit · 31) he.event).trans hs.noEvent)
  | none =>
      rw [hresult] at hhandler
      cases hbitmap : s.vcpu.header.exceptionBitmap.testBit invalidOpcode with
      | true =>
          -- The host intercepts the exception, and is told of it and not of the access.
          rw [injectInvalidOpcode_intercepted hbitmap] at hhandler
          rintro ⟨disposition, hends, -⟩
          have hresumes : ∀ related, ¬ResumesWith ctx s related := by
            rintro related ⟨s', hs', hguest, -⟩
            rw [cvexitToHost_toHost (hhandler.symm.trans hs')] at hguest
            cases hguest
          unfold EndsIn at hends
          cases disposition with
          | toHost =>
              have hcontext := hends.1
              unfold msrContext at hcontext
              rw [if_neg hreserved, h, Bool.and_false, if_neg Bool.false_ne_true] at hcontext
              cases hcontext
          | emulated => exact hresumes _ hends
          | fault => exact hresumes _ hends
      | false =>
          rw [injectInvalidOpcode_injected hbitmap] at hhandler
          exact not_existsUnique_of_stuck hs hhandler hs.guest rfl invalidOpcode_ne

theorem existsUnique_iff (hs : s.AtInstruction) :
    (∃! disposition, EndsIn ctx s disposition) ↔ MsrSettled ctx s := by
  unfold MsrSettled
  by_cases hreserved : MsrReserved s.msrIndex
  · rw [if_pos hreserved]
    exact existsUnique_iff_of_reserved hs hreserved
  rw [if_neg hreserved]
  cases hoption : s.vcpu.header.vcpuOptions.interceptMsr with
  | false =>
      have hhandler : nvcSvmMsrCvexitHandler ctx s = some s :=
        msrHandler_not_intercepted hreserved hoption
      have hstuck := not_existsUnique_of_stuck hs hhandler hs.guest rfl
        (generalProtectionEvent_ne hs.noEvent)
      exact iff_of_false hstuck (fun h => (nomatch h.1))
  | true =>
      cases h : interceptsMsr ctx s.msrIndex with
      | false =>
          exact iff_of_false (not_existsUnique_of_emulated hs hreserved hoption h)
            (fun h => (nomatch h.2))
      | true =>
          have hcontext : (msrContext ctx s).isSome := by
            unfold msrContext
            rw [if_neg hreserved, hoption, h]
            rfl
          exact iff_of_true
            (existsUnique_of_cvexitToHost hcontext (msrHandler_intercepted hreserved hoption h))
            ⟨rfl, rfl⟩

end Ends

/-! Where the handlers read and write an emulated MSR. -/

inductive MsrStorage where
  | register (r : Register)
  | base (name : SegmentName)
  | apic
  | mtrrCap
  | mtrrDefType
deriving DecidableEq

def msrTable : List (Nat × MsrStorage) :=
  [(amd64Tsc, .register .tscOffset), (amd64ApicBase, .apic), (amd64MtrrCap, .mtrrCap),
    (amd64MtrrDefType, .mtrrDefType), (amd64Pat, .register .pat), (amd64Efer, .register .efer)] ++
  uncachedMsrs.map (fun entry => (entry.1, .register entry.2)) ++
  baseMsrs.map (fun entry => (entry.1, .base entry.2))

namespace MsrStorage

/-- What the guest sees there. -/
def stored (ctx : CvexitContext) (vcpu : SvmCustomVcpu) : MsrStorage → Nat
  | .register r =>
      let value := vcpu.vmcb.field (.guest r)
      if r = .tscOffset then (value + ctx.tsc) % 2 ^ 64
      else if r = .efer then if vcpu.shadowedBits.svme then value else noirBtr value eferSvme
      else value
  | .base name => vcpu.vmcb.segmentBase name
  | .apic => vcpu.header.reg .apic
  | .mtrrCap => 0x400
  | .mtrrDefType => ctx.mtrrDefType

def holds : MsrStorage → Register → Prop
  | .register r, r' => r' = r
  | .base name, r' => ∃ i, r' = .seg name (.baseByte i)
  | _, _ => False

/-- Not one of the bases under the name of its bytes. -/
def plain : MsrStorage → Bool
  | .register (.seg _ _) => false
  | _ => true

end MsrStorage

theorem msrTable_injective : ∀ entry ∈ msrTable, ∀ entry' ∈ msrTable,
    entry.2 = entry'.2 → entry.1 = entry'.1 := by decide

theorem msrTable_plain : ∀ entry ∈ msrTable, entry.2.plain := by decide

section Storage

variable {ctx : CvexitContext} {s s' : CvexitState} {vcpu vcpu' : SvmCustomVcpu}
  {storage storage' : MsrStorage}

theorem lookup_map {α β : Type} (f : α → β) (index : Nat) (table : List (Nat × α)) :
    (table.map fun entry => (entry.1, f entry.2)).lookup index = (table.lookup index).map f := by
  induction table with
  | nil => rfl
  | cons entry table ih =>
      rw [List.map_cons, List.lookup_cons, List.lookup_cons, ih]
      split <;> rfl

theorem map_lookup_cons {β : Type} (f : MsrStorage → β) (index i : Nat)
    (table : List (Nat × MsrStorage)) :
    (((i, storage) :: table).lookup index).map f =
      if index = i then some (f storage) else (table.lookup index).map f := by
  rw [List.lookup_cons]
  by_cases hindex : index = i
  · rw [if_pos hindex, beq_iff_eq.mpr hindex]
    rfl
  · rw [if_neg hindex, beq_false_of_ne hindex]

theorem nvcSvmRdmsrCvexitHandler_eq : nvcSvmRdmsrCvexitHandler ctx s =
    ((msrTable.lookup s.msrIndex).map (·.stored ctx s.vcpu)).map s.withMsrValue := by
  refine congrArg (Option.map s.withMsrValue) ?_
  unfold msrTable
  simp only [List.cons_append, List.nil_append, map_lookup_cons]
  -- The MSRs that the source names one by one, and then the two tables.
  iterate 6 refine ite_congr rfl (fun _ => rfl) fun _ => ?_
  rw [List.lookup_append, lookup_map, lookup_map]
  cases hr : uncachedMsrs.lookup s.msrIndex with
  | none =>
      rw [Option.map_none, Option.none_or, Option.map_map]
      rfl
  | some r =>
      obtain ⟨-, htsc, -, hefer⟩ := uncachedMsrs_ne _ (mem_of_lookup hr)
      exact congrArg some ((if_neg htsc).trans (if_neg hefer)).symm

theorem withMsrValue_msrValue (value : Nat) : (s.withMsrValue value).msrValue = value % 2 ^ 64 := by
  have hrax : (s.withMsrValue value).p.reg .rax = writeLow (s.p.reg .rax) value := rfl
  have hrdx : (s.withMsrValue value).p.reg (.gpr 2) = writeLow (s.p.reg (.gpr 2)) (value / 2 ^ 32) := rfl
  unfold CvexitState.msrValue
  rw [hrax, hrdx]
  unfold writeLow
  omega

theorem rdmsr_value : (nvcSvmRdmsrCvexitHandler ctx s).map CvexitState.msrValue =
    (msrTable.lookup s.msrIndex).map fun storage => storage.stored ctx s.vcpu % 2 ^ 64 := by
  rw [nvcSvmRdmsrCvexitHandler_eq]
  cases msrTable.lookup s.msrIndex with
  | none => rfl
  | some storage => simp only [Option.map_some, withMsrValue_msrValue]

theorem stored_congr
    (hfield : ∀ r, storage.holds r → vcpu'.vmcb.field (.guest r) = vcpu.vmcb.field (.guest r))
    (hapic : storage = .apic → vcpu'.header.reg .apic = vcpu.header.reg .apic)
    (hsvme : storage = .register .efer → vcpu'.shadowedBits.svme = vcpu.shadowedBits.svme) :
    storage.stored ctx vcpu' = storage.stored ctx vcpu := by
  cases storage with
  | register r =>
      simp only [MsrStorage.stored, hfield r rfl]
      by_cases hefer : r = .efer
      · rw [hsvme (congrArg MsrStorage.register hefer)]
      · simp only [hefer, if_false]
  | base name =>
      simp only [MsrStorage.stored, Vmcb.segmentBase, segmentHigh, hfield _ ⟨_, rfl⟩]
  | apic => exact hapic rfl
  | mtrrCap => rfl
  | mtrrDefType => rfl

theorem msrTable_lookup : ∀ entry ∈ msrTable, msrTable.lookup entry.1 = some entry.2 := by decide

theorem mem_msrTable_of_uncached {index : Nat} {r : Register} (h : uncachedMsrs.lookup index = some r) :
    (index, .register r) ∈ msrTable := by
  have hmem : (index, MsrStorage.register r) ∈
      uncachedMsrs.map fun entry => (entry.1, .register entry.2) :=
    List.mem_map.mpr ⟨_, mem_of_lookup h, rfl⟩
  exact List.mem_append_left _ (List.mem_append_right _ hmem)

theorem mem_msrTable_of_base {index : Nat} {name : SegmentName} (h : baseMsrs.lookup index = some name) :
    (index, .base name) ∈ msrTable :=
  List.mem_append_right _ (List.mem_map.mpr ⟨_, mem_of_lookup h, rfl⟩)

theorem holds_ne_register {r r' : Register} (hplain : (MsrStorage.register r).plain)
    (hne : storage ≠ .register r) (hholds : storage.holds r') : r' ≠ r := by
  rintro rfl
  cases storage with
  | register r'' => exact hne (congrArg MsrStorage.register hholds).symm
  | base name =>
      obtain ⟨i, rfl⟩ := hholds
      cases hplain
  | apic => exact hholds
  | mtrrCap => exact hholds
  | mtrrDefType => exact hholds

theorem holds_ne_base {name : SegmentName} {r' : Register} (hplain : storage.plain)
    (hne : storage ≠ .base name) (hholds : storage.holds r') (i : Fin 8) :
    r' ≠ .seg name (.baseByte i) := by
  rintro rfl
  cases storage with
  | register r'' =>
      obtain rfl := hholds
      cases hplain
  | base name' =>
      obtain ⟨i', hi'⟩ := hholds
      obtain ⟨rfl, -⟩ := Register.seg.inj hi'
      exact hne rfl
  | apic => exact hholds
  | mtrrCap => exact hholds
  | mtrrDefType => exact hholds

theorem or_two_pow_of_testBit {value n : Nat} (h : value.testBit n = true) : value ||| 2 ^ n = value := by
  apply Nat.eq_of_testBit_eq
  intro i
  rw [Nat.testBit_or, Nat.testBit_two_pow]
  by_cases hi : n = i
  · rw [← hi, h, Bool.true_or]
  · rw [decide_eq_false hi, Bool.or_false]

theorem or_two_pow_of_not_testBit {value n : Nat} (h : value.testBit n = false) :
    value ||| 2 ^ n = value + 2 ^ n := by
  have heven : value / 2 ^ n % 2 = 0 := by
    have hbit := Nat.testBit_eq_decide_div_mod_eq (x := value) (i := n)
    rw [h] at hbit
    have hne := of_decide_eq_false hbit.symm
    omega
  have hdiv : (value ||| 2 ^ n) / 2 ^ n = value / 2 ^ n + 1 := by
    rw [Nat.or_div_two_pow, Nat.div_self (Nat.two_pow_pos n)]
    have hsplit := Nat.two_pow_add_eq_or_of_lt (i := 1) (b := 1) (by decide) (value / 2 ^ n / 2)
    have hdouble : 2 ^ 1 * (value / 2 ^ n / 2) = value / 2 ^ n := by omega
    rw [hdouble] at hsplit
    exact hsplit.symm
  have hmod : (value ||| 2 ^ n) % 2 ^ n = value % 2 ^ n := by
    rw [Nat.or_mod_two_pow, Nat.mod_self, Nat.or_zero]
  calc value ||| 2 ^ n = 2 ^ n * ((value ||| 2 ^ n) / 2 ^ n) + (value ||| 2 ^ n) % 2 ^ n :=
        (Nat.div_add_mod _ _).symm
    _ = 2 ^ n * (value / 2 ^ n) + value % 2 ^ n + 2 ^ n := by
        rw [hdiv, hmod, Nat.mul_add, Nat.mul_one, Nat.add_right_comm]
    _ = value + 2 ^ n := by rw [Nat.div_add_mod]

/-- `s'` is `s` with the value of the access stored where its MSR is, and nothing else that the guest
sees in an MSR changed. -/
def StoresValue (ctx : CvexitContext) (s s' : CvexitState) : Prop :=
  ∃ storage, (s.msrIndex, storage) ∈ msrTable ∧
    (∀ tsc, ctx.tsc ≤ tsc → tsc < 2 ^ 64 → storage.stored { ctx with tsc } s'.vcpu =
      if s.msrIndex = amd64Tsc then (s.msrValue + (tsc - ctx.tsc)) % 2 ^ 64 else s.msrValue) ∧
    ∀ ctx' other, other.plain → other ≠ storage →
      other.stored ctx' s'.vcpu = other.stored ctx' s.vcpu

def OptionStores (ctx : CvexitContext) (s : CvexitState) (result : Option CvexitState) : Prop :=
  ∀ s', result = some s' → StoresValue ctx s s'

theorem optionStores_some (h : StoresValue ctx s s') : OptionStores ctx s (some s') := by
  rintro _ ⟨⟩
  exact h

theorem msrValue_lt : s.msrValue < 2 ^ 64 := by
  unfold CvexitState.msrValue
  omega

theorem storesValue_tsc (hindex : s.msrIndex = amd64Tsc)
    (hfield : s'.vcpu.vmcb.field = Function.update s.vcpu.vmcb.field (.guest .tscOffset)
      ((s.msrValue + 2 ^ 64 - ctx.tsc) % 2 ^ 64))
    (hheader : s'.vcpu.header = s.vcpu.header)
    (hbits : s'.vcpu.shadowedBits = s.vcpu.shadowedBits) : StoresValue ctx s s' := by
  refine ⟨.register .tscOffset, by rw [hindex]; decide, fun tsc hle hlt => ?_,
    fun ctx' other hplain hne => stored_congr (fun r hr => ?_) (fun _ => by rw [hheader])
      (fun _ => by rw [hbits])⟩
  · have hvalue := msrValue_lt (s := s)
    simp only [MsrStorage.stored, if_true, hindex, hfield, Function.update_self]
    omega
  · have hr := holds_ne_register rfl hne hr
    rw [hfield]
    exact Function.update_of_ne (fun heq => hr (VmcbField.guest.inj heq)) _ _

/-- A register of the VMCB that the guest reads as it is. -/
theorem storesValue_register {r : Register} (hmem : (s.msrIndex, .register r) ∈ msrTable)
    (htsc : r ≠ .tscOffset) (hefer : r ≠ .efer)
    (hfield : s'.vcpu.vmcb.field = Function.update s.vcpu.vmcb.field (.guest r) s.msrValue)
    (hheader : s'.vcpu.header = s.vcpu.header)
    (hbits : s'.vcpu.shadowedBits = s.vcpu.shadowedBits) : StoresValue ctx s s' := by
  refine ⟨.register r, hmem, fun tsc hle hlt => ?_,
    fun ctx' other hplain hne => stored_congr (fun r' hr' => ?_) (fun _ => by rw [hheader])
      (fun _ => by rw [hbits])⟩
  · have hindex : s.msrIndex ≠ amd64Tsc := by
      intro hindex
      have hlookup := msrTable_lookup _ hmem
      rw [hindex] at hlookup
      exact htsc (MsrStorage.register.inj (Option.some.inj hlookup)).symm
    simp only [MsrStorage.stored, htsc, hefer, if_false, hindex, hfield, Function.update_self]
  · have hr' := holds_ne_register (msrTable_plain _ hmem) hne hr'
    rw [hfield]
    exact Function.update_of_ne (fun heq => hr' (VmcbField.guest.inj heq)) _ _

/-- The shadow of a bit has what the one forced in the VMCB does not tell. -/
theorem btr_bts_shadowed {value n : Nat} :
    (if value.testBit n then noirBts value n else noirBtr (noirBts value n) n) = value := by
  cases h : value.testBit n with
  | true => exact or_two_pow_of_testBit h
  | false =>
      have hset : (value ||| 2 ^ n).testBit n = true := by
        rw [Nat.testBit_or, Nat.testBit_two_pow_self, Bool.or_true]
      rw [if_neg Bool.false_ne_true]
      unfold noirBtr noirBts
      rw [Nat.and_two_pow, hset, or_two_pow_of_not_testBit h, Bool.toNat_true, Nat.one_mul]
      exact Nat.add_sub_cancel _ _

theorem storesValue_efer {value : Nat} (hindex : s.msrIndex = amd64Efer) (hvalue : s.msrValue = value)
    (hfield : s'.vcpu.vmcb.field =
      Function.update s.vcpu.vmcb.field (.guest .efer) (noirBts value eferSvme))
    (hheader : s'.vcpu.header = s.vcpu.header)
    (hsvme : s'.vcpu.shadowedBits.svme = value.testBit eferSvme) : StoresValue ctx s s' := by
  have htsc : ¬amd64Efer = amd64Tsc := by decide
  have hoffset : ¬Register.efer = .tscOffset := by decide
  refine ⟨.register .efer, by rw [hindex]; decide, fun tsc hle hlt => ?_,
    fun ctx' other hplain hne => stored_congr (fun r hr => ?_) (fun _ => by rw [hheader])
      (fun heq => absurd heq hne)⟩
  · simp only [MsrStorage.stored, hoffset, if_false, if_true, hindex, htsc, hfield, hsvme, hvalue,
      Function.update_self]
    exact btr_bts_shadowed
  · have hr := holds_ne_register rfl hne hr
    rw [hfield]
    exact Function.update_of_ne (fun heq => hr (VmcbField.guest.inj heq)) _ _

theorem storesValue_writeEfer {value : Nat} (hindex : s.msrIndex = amd64Efer)
    (hvalue : s.msrValue = value) :
    StoresValue ctx s ({ s with vcpu.shadowedBits.svme := value.testBit eferSvme }.withVmcb fun vmcb =>
      (vmcb.write (.guest .efer) (noirBts value eferSvme)).dirty .controlReg) :=
  storesValue_efer hindex hvalue rfl rfl rfl

theorem storesValue_apic (hindex : s.msrIndex = amd64ApicBase) :
    StoresValue ctx s { s with
      vcpu.header.reg := Function.update s.vcpu.header.reg .apic s.msrValue } := by
  have htsc : ¬amd64ApicBase = amd64Tsc := by decide
  refine ⟨.apic, by rw [hindex]; decide, fun tsc hle hlt => ?_,
    fun ctx' other hplain hne => stored_congr (fun _ _ => rfl) (fun heq => absurd heq hne)
      (fun _ => rfl)⟩
  simp only [MsrStorage.stored, hindex, htsc, if_false, Function.update_self]

theorem writeBase_field {vmcb : Vmcb} {name : SegmentName} {value : Nat} {r : Register}
    (h : ∀ i, r ≠ .seg name (.baseByte i)) :
    (vmcb.writeBase name value).field (.guest r) = vmcb.field (.guest r) := by
  unfold Vmcb.writeBase
  dsimp only
  split
  · next heq =>
      obtain rfl := VmcbField.guest.inj heq
      split
      · next hname => exact absurd (by rw [hname]) (h _)
      · rfl
  · rfl

theorem segmentBase_writeBase {vmcb : Vmcb} {name : SegmentName} {value : Nat} (h : value < 2 ^ 64) :
    (vmcb.writeBase name value).segmentBase name = value := by
  have hbytes : ∀ i, (vmcb.writeBase name value).field (.guest (.seg name (.baseByte i))) =
      segmentField 0 value (.baseByte i) := fun i => if_pos rfl
  have hhigh := @segmentHigh_segmentField 0 value h
  unfold segmentHigh at hhigh
  unfold Vmcb.segmentBase segmentHigh
  simp only [hbytes]
  exact hhigh

theorem storesValue_base {name : SegmentName} (hname : baseMsrs.lookup s.msrIndex = some name) :
    StoresValue ctx s (s.withVmcb (·.writeBase name s.msrValue)) := by
  have hmem := mem_msrTable_of_base hname
  refine ⟨.base name, hmem, fun tsc hle hlt => ?_,
    fun ctx' other hplain hne => stored_congr (fun r hr => ?_) (fun _ => rfl) (fun _ => rfl)⟩
  · have hindex : s.msrIndex ≠ amd64Tsc := by
      intro hindex
      rw [hindex] at hname
      cases hname
    rw [if_neg hindex]
    exact segmentBase_writeBase msrValue_lt
  · exact writeBase_field (holds_ne_base hplain hne hr)

theorem optionStores_wrmsr : OptionStores ctx s (nvcSvmWrmsrCvexitHandler ctx s) := by
  unfold nvcSvmWrmsrCvexitHandler
  dsimp only
  split
  · next hindex => exact optionStores_some (storesValue_tsc hindex rfl rfl rfl)
  split
  · next hindex =>
      split
      · exact optionStores_some (storesValue_apic hindex)
      · exact fun _ h => (nomatch h)
  split
  · next hindex =>
      have hmem : (s.msrIndex, .register .pat) ∈ msrTable := by
        rw [hindex]
        decide
      exact optionStores_some (storesValue_register hmem (by decide) (by decide) rfl rfl rfl)
  split
  · next hindex => exact optionStores_some (storesValue_writeEfer hindex rfl)
  split
  · next r hr =>
      obtain ⟨-, htsc, -, hefer⟩ := uncachedMsrs_ne _ (mem_of_lookup hr)
      exact optionStores_some
        (storesValue_register (mem_msrTable_of_uncached hr) htsc hefer rfl rfl rfl)
  · intro s' h
    obtain ⟨name, hname, rfl⟩ := Option.map_eq_some_iff.mp h
    exact storesValue_base hname

/-- What a guest wrote it reads back. -/
theorem readsBack : ReadsBack ctx s := by
  intro s' hwrite tsc read hle hlt hvcpu
  obtain ⟨storage, hmem, hvalue, hothers⟩ := optionStores_wrmsr s' hwrite
  have hlookup := msrTable_lookup _ hmem
  have hindex' : ({ read with vcpu := s.vcpu } : CvexitState).msrIndex = read.msrIndex := rfl
  rw [rdmsr_value, rdmsr_value, hindex', hvcpu]
  split
  · next hindex =>
      rw [hindex, hlookup, Option.map_some, hvalue tsc hle hlt]
      split
      · rw [Nat.mod_mod]
      · rw [Nat.mod_eq_of_lt msrValue_lt]
  · next hindex =>
      cases hother : msrTable.lookup read.msrIndex with
      | none => rw [Option.map_none, Option.map_none]
      | some other =>
          have hmem' := mem_of_lookup hother
          have hne : other ≠ storage := fun heq => hindex (msrTable_injective _ hmem' _ hmem heq)
          rw [Option.map_some, Option.map_some, hothers _ other (msrTable_plain _ hmem') hne]

end Storage

/-! A guest at 0x1000 writes EFER. -/

def eferContext : CvexitContext where
  cpu := anyFeatures
  host := zeroVirtualCpu
  nrips := true
  decodeAssists := true
  instructionLength := 2
  exitInfo1 := 1
  exitInfo2 := 0
  tsc := 0
  msrInterceptions := none
  quickpath := []
  mtrrDefType := 0
  vmsaArea := zeroArea
  misplaced := id

def eferVmcb : VmcbField → Nat
  | .guest .rip => 0x1000
  | .nextRip => 0x1002
  | _ => 0

def eferWrite (interceptMsr : Bool) : CvexitState where
  p := { zeroProcessor with reg := Function.update zeroProcessor.reg (.gpr 1) amd64Efer }
  vcpu :=
    { header := { zeroVirtualCpu with vcpuOptions.interceptMsr := interceptMsr }
      vmcb := ⟨eferVmcb, fun _ => false⟩
      procId := 0
      shadowedBits := ⟨false, false, false⟩
      specialState := ⟨false, false, false, false⟩
      nsvGuest := false
      vmsa := ⟨fun _ => 0, true⟩ }
  nsvs _ := 0
  toHost := false

theorem eferWrite_atInstruction (interceptMsr : Bool) : (eferWrite interceptMsr).AtInstruction :=
  ⟨rfl, show 0x1002 ≠ 0x1000 by decide, Nat.zero_testBit 31⟩

theorem eferWrite_not_reserved (interceptMsr : Bool) : ¬MsrReserved (eferWrite interceptMsr).msrIndex := by
  have hindex : (eferWrite interceptMsr).msrIndex = 0xC0000080 := rfl
  rw [hindex]
  decide

end NoirVisor
