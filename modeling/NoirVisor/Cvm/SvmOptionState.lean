import NoirVisor.Cvm.SvmOptions

/-!
# What the options of a virtual CPU ask for

The interceptions and the trap flag that the state of the options has to have, and what the switches, the
edits and the options make of them.
-/

namespace NoirVisor

/-! What the options ask for. -/

namespace VcpuOptions

variable (options : VcpuOptions)

/-- A hidden single step traps. -/
def interceptsException (exceptionBitmap vector : Nat) : Bool :=
  options.interceptExceptions && exceptionBitmap.testBit vector ||
    options.hiddenTf && vector == debugException

/-- The instructions rsm, pause and iret, and with NPIEP sidt, sgdt, sldt and str. -/
def interceptsInstruction1 (n : Nat) : Bool :=
  options.interceptRsm && n == 19 || options.interceptPause && n == 23 ||
    options.interceptNmiWindow && n == 20 || options.npiep && [6, 7, 8, 9].contains n

/-- What the VMCB has of these: iret while `nmiWindow`, and neither pause nor those of NPIEP. -/
def programsInstruction1 (nmiWindow : Bool) (n : Nat) : Bool :=
  options.interceptRsm && n == 19 || nmiWindow && n == 20

variable {options}

/-- Of the exceptions that the hypervisor raises, only an invalid opcode is looked for in the bitmap. -/
theorem interceptsException_iff {exceptionBitmap vector : Nat} :
    (vector = invalidOpcode ∧ exceptionBitmap.testBit vector = true ↔
        options.interceptsException exceptionBitmap vector = true) ↔
      if vector = invalidOpcode then
        exceptionBitmap.testBit invalidOpcode = true → options.interceptExceptions = true
      else options.interceptsException exceptionBitmap vector = false := by
  by_cases hvector : vector = invalidOpcode
  · have hother : (invalidOpcode == debugException) = false := by decide
    unfold interceptsException
    rw [if_pos hvector, hvector, hother, Bool.and_false, Bool.or_false, Bool.and_eq_true]
    constructor
    · exact fun h hbit => (h.mp ⟨rfl, hbit⟩).1
    · exact fun h => ⟨fun hbit => ⟨h hbit.2, hbit.2⟩, fun hboth => ⟨rfl, hboth.2⟩⟩
  · rw [if_neg hvector]
    cases options.interceptsException exceptionBitmap vector <;> simp [hvector]

end VcpuOptions

namespace OptionState

/-- The mandatory interceptions and those that are asked for, of the first vector of instructions these
ones. -/
structure Intercepts (o : OptionState) (vm : SvmPermissionMaps) (options : VcpuOptions)
    (exceptionBitmap : Nat) (instruction1 : Nat → Bool) : Prop where
  exceptions : ∀ n, o.exceptions.testBit n =
    ([machineCheck, securityException].contains n || options.interceptsException exceptionBitmap n)
  accessCr : ∀ n, o.accessCr.testBit n =
    (mandatoryAccessCr.contains n || options.interceptCr3 && [0x03, 0x13].contains n)
  accessDr : ∀ n, o.accessDr.testBit n = (options.interceptDrx && decide (n < 32))
  instruction1 : ∀ n, o.instruction1.testBit n = (mandatoryInstruction1.contains n || instruction1 n)
  instruction2 : ∀ n, o.instruction2.testBit n = mandatoryInstruction2.contains n
  msrpm : o.msrpm = if options.interceptMsr then vm.msrpmFull else vm.msrpm

variable {o : OptionState} {vm : SvmPermissionMaps} {options : VcpuOptions} {exceptionBitmap : Nat}
  {instruction1 instruction1' : Nat → Bool}

theorem Intercepts.congr_iff (h : o.Intercepts vm options exceptionBitmap instruction1) :
    o.Intercepts vm options exceptionBitmap instruction1' ↔
      ∀ n, (mandatoryInstruction1.contains n || instruction1 n) =
        (mandatoryInstruction1.contains n || instruction1' n) :=
  ⟨fun h' n => (h.instruction1 n).symm.trans (h'.instruction1 n), fun hsame =>
    { h with instruction1 := fun n => (h.instruction1 n).trans (hsame n) }⟩

end OptionState

namespace OptionState

variable {o : OptionState} {vm : SvmPermissionMaps} {options options' : VcpuOptions}
  {exceptionBitmap exceptionBitmap' : Nat} {nmiWindow nmiWaits : Bool}

/-- The options are a read-modify-write: of those before, nothing is left. -/
theorem Intercepts.configured
    (h : o.Intercepts vm options exceptionBitmap (options.programsInstruction1 nmiWindow)) :
    (OptionState.configured { o with options := options', exceptionBitmap := exceptionBitmap' }
      vm).Intercepts vm options' exceptionBitmap' (options'.programsInstruction1 nmiWindow) where
  exceptions n := by
    have hmandatory : [machineCheck, securityException].contains n =
        (n == machineCheck || n == securityException) := by
      rw [List.contains_cons, List.contains_cons, List.contains_nil, Bool.or_false]
    have hbitmap : (if options'.interceptExceptions = true then exceptionBitmap' else 0).testBit n =
        (options'.interceptExceptions && exceptionBitmap'.testBit n) := by
      cases options'.interceptExceptions <;> simp
    dsimp only [OptionState.configured]
    rw [hmandatory]
    unfold VcpuOptions.interceptsException
    cases options'.hiddenTf with
    | false =>
        rw [if_neg Bool.false_ne_true, noirBts_testBit, noirBts_testBit, hbitmap, Bool.false_and,
          Bool.or_false]
        ac_rfl
    | true =>
        rw [if_pos rfl, noirBts_testBit, noirBts_testBit, noirBts_testBit, hbitmap, Bool.true_and]
        ac_rfl
  accessCr n := by
    dsimp only [OptionState.configured]
    rw [setBitTo_testBit, setBitTo_testBit, h.accessCr]
    by_cases hwrite : n = 0x13
    · simp [hwrite, mandatoryAccessCr]
    · by_cases hread : n = 0x03
      · simp [hread, mandatoryAccessCr]
      · simp [hwrite, hread]
  accessDr n := by
    dsimp only [OptionState.configured]
    cases options'.interceptDrx with
    | false => simp
    | true =>
        rw [if_pos rfl, Bool.true_and]
        exact Nat.testBit_two_pow_sub_one 32 n
  instruction1 n := by
    dsimp only [OptionState.configured]
    rw [setBitTo_testBit, h.instruction1]
    unfold VcpuOptions.programsInstruction1
    by_cases hrsm : n = 19
    · simp [hrsm, mandatoryInstruction1]
    · rw [if_neg hrsm, beq_eq_false_iff_ne.mpr hrsm, Bool.and_false, Bool.and_false]
  instruction2 := h.instruction2
  msrpm := rfl

/-- An NMI that is entered waits for an iret. -/
theorem Intercepts.waiting (nmi : Bool)
    (h : o.Intercepts vm options exceptionBitmap (options.programsInstruction1 nmiWindow)) :
    (o.waiting nmi).Intercepts vm options exceptionBitmap
      (options.programsInstruction1 (nmiWindow || nmi)) := by
  cases nmi with
  | false => rwa [Bool.or_false]
  | true =>
      refine { h with instruction1 := fun n => ?_ }
      have hiret : (o.waiting true).instruction1.testBit n = (o.instruction1.testBit n || n == 20) :=
        noirBts_testBit
      rw [hiret, h.instruction1, Bool.or_true]
      unfold VcpuOptions.programsInstruction1
      rw [Bool.true_and, Bool.or_assoc]
      cases nmiWindow <;> cases n == 20 <;> simp

/-- The window of an NMI is reported once. -/
theorem Intercepts.exited {code : Int} {toHost : Bool}
    (h : o.Intercepts vm options exceptionBitmap (options.programsInstruction1 nmiWindow)) :
    (o.exited code toHost).Intercepts vm options exceptionBitmap
      (options.programsInstruction1 (nmiWindow && !(code == 0x74 && !o.prevNmi && toHost))) := by
  unfold OptionState.exited
  by_cases hcode : code = 0x74
  · rw [if_pos hcode, beq_iff_eq.mpr hcode, Bool.true_and]
    cases hnmi : o.prevNmi with
    | true =>
        rw [if_pos rfl, Bool.not_true, Bool.false_and, Bool.not_false, Bool.and_true]
        exact { h with }
    | false =>
        rw [if_neg Bool.false_ne_true, Bool.not_false, Bool.true_and]
        cases toHost with
        | false =>
            rw [if_neg Bool.false_ne_true, Bool.not_false, Bool.and_true]
            exact h
        | true =>
            rw [if_pos rfl, Bool.not_true, Bool.and_false]
            refine { h with instruction1 := fun n => ?_ }
            refine noirBtr_testBit.trans ?_
            rw [h.instruction1]
            unfold VcpuOptions.programsInstruction1
            by_cases hiret : n = 20
            · simp [hiret, mandatoryInstruction1]
            · rw [beq_eq_false_iff_ne.mpr hiret, bne_iff_ne.mpr hiret, Bool.and_false, Bool.and_false,
                Bool.and_true]
  · rw [if_neg hcode, beq_eq_false_iff_ne.mpr hcode, Bool.false_and, Bool.false_and, Bool.not_false,
      Bool.and_true]
    cases toHost with
    | false => exact h
    | true => exact { h with }

/-- What the switch to the guest, and the handler of an exit, keep of the options, and what they know of
the NMI that waits. -/
theorem entered_same (nmi : Bool) :
    (o.entered nmi).options.interceptNmiWindow = o.options.interceptNmiWindow ∧
      (o.entered nmi).exceptionBitmap = o.exceptionBitmap ∧
      (o.entered nmi).prevNmi = (o.prevNmi || nmi) := by
  cases nmi with
  | false => exact ⟨rfl, rfl, (Bool.or_false _).symm⟩
  | true => exact ⟨rfl, rfl, (Bool.or_true _).symm⟩

theorem exited_same (code : Int) (toHost : Bool) :
    (o.exited code toHost).options = o.options ∧
      (o.exited code toHost).exceptionBitmap = o.exceptionBitmap ∧
      (o.exited code toHost).prevNmi = (o.prevNmi && code != 0x74) := by
  unfold OptionState.exited
  by_cases hcode : code = 0x74
  · rw [if_pos hcode, hcode, bne_self_eq_false, Bool.and_false]
    cases hnmi : o.prevNmi with
    | true => exact ⟨rfl, rfl, rfl⟩
    | false => cases toHost <;> exact ⟨rfl, rfl, hnmi⟩
  · rw [if_neg hcode, bne_iff_ne.mpr hcode, Bool.and_true]
    cases toHost <;> exact ⟨rfl, rfl, rfl⟩

/-- What the VMCB has is all that is asked for. -/
theorem Intercepts.asked_iff (nmiWaits : Bool)
    (h : o.Intercepts vm options exceptionBitmap (options.programsInstruction1 nmiWindow)) :
    o.Intercepts vm options exceptionBitmap
        (fun n => options.interceptsInstruction1 n || nmiWaits && n == 20) ↔
      options.interceptPause = false ∧ options.npiep = false ∧
        nmiWindow = (options.interceptNmiWindow || nmiWaits) := by
  rw [h.congr_iff]
  unfold VcpuOptions.programsInstruction1 VcpuOptions.interceptsInstruction1
  constructor
  · intro hsame
    have hpause := hsame 23
    have hsidt := hsame 6
    have hiret := hsame 20
    simp [mandatoryInstruction1] at hpause hsidt hiret
    exact ⟨hpause, hsidt, hiret⟩
  · rintro ⟨hpause, hnpiep, hwindow⟩ n
    rw [hpause, hnpiep, hwindow]
    cases options.interceptNmiWindow <;> cases nmiWaits <;> simp

end OptionState

/-- The flags, as either interface shows them. -/
structure SvmCustomVcpu.ShowsTf (v : SvmCustomVcpu) (tf : Bool) : Prop where
  byType : ∀ (supportedSizeMax tsc : Nat) (b : Buffer) (size : Nat), 8 ≤ size →
    ((nvcViewVcpuRegisters SvmCustomVcpu.header nvcSvmDumpGuestVcpuState supportedSizeMax tsc v
      .flagsRegister b size).2.2.word 0).testBit rflagsTf = tf
  byName : ∀ (tsc : Nat → Nat) (size : Nat) (buffer : Nat → Element), 8 ≤ size →
    ((nvcViewVcpuRegisters2 tsc v.header.reg [0x20] size buffer).2 0).low.testBit rflagsTf = tf

theorem SvmCustomVcpu.showsTf_iff {v : SvmCustomVcpu} {tf : Bool} :
    v.ShowsTf tf ↔ v.optionState.headerTf = tf := by
  have hnamed (tsc : Nat → Nat) (buffer : Nat → Element) {size : Nat} (hsize : 8 ≤ size) :
      ((nvcViewVcpuRegisters2 tsc v.header.reg [0x20] size buffer).2 0).low = v.header.reg .rflags := by
    unfold nvcViewVcpuRegisters2
    rw [if_neg (Nat.not_lt.mpr hsize)]
    have helement (old : Element) : namedView 0x20 size (tsc 0) v.header.reg old =
        some { old with low := v.header.reg .rflags } := rfl
    unfold viewNamed
    rw [helement, Nat.zero_mul, Nat.zero_mod]
    unfold viewNamed
    exact congrArg Element.low (Function.update_self 0 _ buffer)
  have htyped (supportedSizeMax tsc : Nat) (b : Buffer) {size : Nat} (hsize : 8 ≤ size) :
      (nvcViewVcpuRegisters SvmCustomVcpu.header nvcSvmDumpGuestVcpuState supportedSizeMax tsc v
        .flagsRegister b size).2.2.word 0 = v.header.reg .rflags := by
    have hlimit : size ≥ RegisterType.flagsRegister.bufferLimit := hsize
    unfold nvcViewVcpuRegisters
    rw [if_pos hlimit]
    dsimp only [RegisterType.syncs]
    rw [if_neg]
    · rfl
    · exact fun h => absurd h.1 (by decide)
  constructor
  · intro h
    have hshown := h.byType 0 0 ⟨fun _ => 0, zeroArea⟩ 8 (Nat.le_refl 8)
    rwa [htyped _ _ _ (Nat.le_refl 8)] at hshown
  · refine fun h => ⟨fun supportedSizeMax tsc b size hsize => ?_, fun tsc size buffer hsize => ?_⟩
    · rw [htyped _ _ _ hsize]
      exact h
    · rw [hnamed _ _ hsize]
      exact h

/-! The trap flag. -/

namespace OptionState

/-- The guest finds the trap flag that it has set. While one is hidden from it, a view has to show the
flag of the guest. -/
def KeepsTf (o : OptionState) (hidden inGuest guestTf : Bool) : Prop :=
  if hidden then inGuest = false → o.headerTf = guestTf else o.ownTf = guestTf

/-- What is true of the flag in any case, but for an NSV guest. -/
structure TracksTf (o : OptionState) (inGuest guestTf : Bool) : Prop where
  header : o.nsvGuest = false → inGuest = false → o.headerTf = guestTf
  valid : o.nsvGuest = false → inGuest = true → o.gprValid = true

variable {o : OptionState} {hidden hidden' inGuest guestTf invalidates nmi toHost : Bool}
  {writtenTf setsTf : Option Bool} {vm : SvmPermissionMaps} {options : VcpuOptions} {code : Int}

/-- The guest may have changed its flag. -/
def ran (o : OptionState) (setsTf : Option Bool) : OptionState := { o with vmcbTf := setsTf.getD o.vmcbTf }

/-- The flags of an NSV guest are not those of the structure. -/
def tfAfterEdits (o : OptionState) (guestTf : Bool) (writtenTf : Option Bool) : Bool :=
  if o.nsvGuest then guestTf else writtenTf.getD guestTf

theorem TracksTf.edited (h : o.TracksTf false guestTf) :
    (o.edited writtenTf invalidates).TracksTf false (o.tfAfterEdits guestTf writtenTf) where
  header hnsv _ := by
    have hnsv : o.nsvGuest = false := hnsv
    unfold tfAfterEdits
    rw [hnsv, if_neg Bool.false_ne_true, ← h.header hnsv rfl]
    rfl
  valid _ hguest := nomatch hguest

theorem TracksTf.edited_iff (h : o.TracksTf false guestTf) (hkeeps : o.KeepsTf hidden false guestTf)
    (hwritten : ∀ tf, writtenTf = some tf → invalidates = true) :
    (o.edited writtenTf invalidates).KeepsTf hidden false (o.tfAfterEdits guestTf writtenTf) ↔
      (o.nsvGuest = true → hidden = true → writtenTf.getD o.headerTf = guestTf) := by
  unfold KeepsTf at hkeeps ⊢
  unfold tfAfterEdits
  cases hnsv : o.nsvGuest with
  | true =>
      rw [if_pos rfl]
      cases hidden with
      | true => simp [OptionState.edited]
      | false =>
          refine iff_of_true ?_ fun _ h => (nomatch h)
          simpa [OptionState.edited, ownTf, hnsv] using hkeeps
  | false =>
      have hheader : o.headerTf = guestTf := h.header hnsv rfl
      refine iff_of_true ?_ fun h => (nomatch h)
      rw [if_neg Bool.false_ne_true]
      cases hidden with
      | true => exact fun _ => congrArg writtenTf.getD hheader
      | false =>
          have hown : o.ownTf = guestTf := hkeeps
          cases hinvalidates : invalidates with
          | true => simp [OptionState.edited, ownTf, hnsv, hheader]
          | false =>
              have hnone : writtenTf = none := Option.eq_none_iff_forall_ne_some.mpr fun tf htf =>
                Bool.false_ne_true (hinvalidates.symm.trans (hwritten tf htf))
              simpa [OptionState.edited, ownTf, hnsv, hnone] using hown

theorem TracksTf.configured {exceptionBitmap : Nat} (h : o.TracksTf false guestTf) :
    (OptionState.configured { o with options, exceptionBitmap } vm).TracksTf false guestTf :=
  ⟨h.header, h.valid⟩

/-- The hidden flag is still in the VMCB when it is turned off. -/
theorem TracksTf.configured_iff {exceptionBitmap : Nat} (h : o.TracksTf false guestTf)
    (hkeeps : o.KeepsTf hidden false guestTf) :
    (OptionState.configured { o with options, exceptionBitmap } vm).KeepsTf options.hiddenTf false guestTf ↔
      if options.hiddenTf then o.nsvGuest = true → o.headerTf = guestTf
      else hidden = true → (o.gprValid || o.nsvGuest) = true → o.vmcbTf = guestTf := by
  unfold KeepsTf at hkeeps ⊢
  cases hoption : options.hiddenTf with
  | true =>
      rw [if_pos rfl, if_pos rfl, forall_prop_of_true rfl]
      cases hnsv : o.nsvGuest with
      | true => exact ⟨fun hheader _ => hheader, fun hheader => hheader rfl⟩
      | false => exact iff_of_true (h.header hnsv rfl) fun h => (nomatch h)
  | false =>
      rw [if_neg Bool.false_ne_true, if_neg Bool.false_ne_true]
      have hown : (OptionState.configured { o with options, exceptionBitmap } vm).ownTf = o.ownTf := by
        simp [OptionState.configured, ownTf, hoption]
      rw [hown]
      cases hidden with
      | false => exact iff_of_true hkeeps fun h => (nomatch h)
      | true =>
          unfold ownTf
          cases hvalid : o.gprValid || o.nsvGuest with
          | true => simp
          | false =>
              obtain ⟨-, hnsv⟩ := Bool.or_eq_false_iff.mp hvalid
              simpa using h.header hnsv rfl

theorem ownTf_entered : (o.entered nmi).ownTf = o.ownTf := by
  have hheld : (o.gprValid || !o.nsvGuest || o.nsvGuest) = true := by
    rw [Bool.or_assoc, Bool.not_or_self, Bool.or_true]
  have hloaded : o.loaded.ownTf = o.ownTf := if_pos hheld
  cases nmi <;> exact hloaded

theorem KeepsTf.entered (h : o.KeepsTf hidden false guestTf) :
    (o.entered nmi).KeepsTf hidden true guestTf := by
  unfold KeepsTf at h ⊢
  cases hidden with
  | true => exact fun hguest => (nomatch hguest)
  | false => exact ownTf_entered.trans h

theorem entered_nsvGuest : (o.entered nmi).nsvGuest = o.nsvGuest := by
  cases nmi <;> rfl

theorem tracksTf_entered : (o.entered nmi).TracksTf true guestTf where
  header _ hguest := nomatch hguest
  valid hnsv _ := by
    have hnsv : o.nsvGuest = false := entered_nsvGuest.symm.trans hnsv
    have hvalid : (o.entered nmi).gprValid = (o.gprValid || !o.nsvGuest) := by
      cases nmi <;> rfl
    rw [hvalid, hnsv, Bool.not_false, Bool.or_true]

/-- What an exit saves of the flags. -/
theorem exited_tf (hwaits : code = 0x74 → o.prevNmi = true → toHost = false) :
    (o.exited code toHost).vmcbTf = o.vmcbTf ∧ (o.exited code toHost).gprValid = o.gprValid ∧
      (o.exited code toHost).nsvGuest = o.nsvGuest ∧ (o.exited code toHost).headerTf =
        if toHost && !o.nsvGuest then o.vmcbTf else o.headerTf := by
  have hpassed : (o.passed toHost).headerTf = if toHost && !o.nsvGuest then o.vmcbTf else o.headerTf := by
    unfold passed
    cases toHost <;> cases o.nsvGuest <;> rfl
  unfold exited
  split
  · next hcode =>
      split
      · next hnmi =>
          rw [hwaits hcode hnmi]
          exact ⟨rfl, rfl, rfl, rfl⟩
      · cases toHost with
        | true => exact ⟨rfl, rfl, rfl, hpassed⟩
        | false => exact ⟨rfl, rfl, rfl, rfl⟩
  · refine ⟨?_, ?_, ?_, hpassed⟩ <;> cases toHost <;> rfl

/-- While the guest runs its flag is in the VMCB. -/
theorem KeepsTf.vmcbTf (hkeeps : o.KeepsTf false true guestTf) (h : o.TracksTf true guestTf) :
    (o.gprValid || o.nsvGuest) = true ∧ o.vmcbTf = guestTf := by
  have hheld : (o.gprValid || o.nsvGuest) = true := by
    cases hnsv : o.nsvGuest with
    | true => exact Bool.or_true _
    | false => rw [h.valid hnsv rfl, Bool.true_or]
  have hown : o.ownTf = o.vmcbTf := if_pos hheld
  exact ⟨hheld, hown.symm.trans hkeeps⟩

section Exit

variable (hwaits : code = 0x74 → o.prevNmi = true → toHost = false)

include hwaits

theorem exited_ran_tf (setsTf : Option Bool) :
    ((o.ran setsTf).exited code toHost).vmcbTf = setsTf.getD o.vmcbTf ∧
      ((o.ran setsTf).exited code toHost).gprValid = o.gprValid ∧
      ((o.ran setsTf).exited code toHost).nsvGuest = o.nsvGuest ∧
      ((o.ran setsTf).exited code toHost).headerTf =
        if toHost && !o.nsvGuest then setsTf.getD o.vmcbTf else o.headerTf :=
  exited_tf (o := o.ran setsTf) hwaits

/-- A hidden flag is saved for the guest's own, unless the guest has set its flag since. -/
theorem TracksTf.exited_iff (h : o.TracksTf true guestTf) (hkeeps : o.KeepsTf hidden true guestTf) :
    ((o.ran setsTf).exited code toHost).KeepsTf hidden (!toHost) (setsTf.getD guestTf) ↔
      (hidden = true → toHost = true →
        (if o.nsvGuest then o.headerTf else setsTf.getD o.vmcbTf) = setsTf.getD guestTf) := by
  obtain ⟨hvmcb, hvalid, hnsv, hheader⟩ := exited_ran_tf hwaits setsTf
  unfold KeepsTf at hkeeps ⊢
  cases hidden with
  | true =>
      rw [if_pos rfl, forall_prop_of_true rfl, hheader]
      cases toHost with
      | false => simp
      | true => cases hnsvGuest : o.nsvGuest <;> simp
  | false =>
      refine iff_of_true ?_ fun h => (nomatch h)
      obtain ⟨hheld, htf⟩ := KeepsTf.vmcbTf hkeeps h
      rw [if_neg Bool.false_ne_true]
      unfold ownTf
      rw [hvmcb, hvalid, hnsv, if_pos hheld, htf]

theorem TracksTf.exited (h : o.TracksTf true guestTf) (hkeeps : o.KeepsTf hidden true guestTf)
    (hkeeps' : ((o.ran setsTf).exited code toHost).KeepsTf hidden (!toHost) (setsTf.getD guestTf)) :
    ((o.ran setsTf).exited code toHost).TracksTf (!toHost) (setsTf.getD guestTf) := by
  obtain ⟨-, hvalid, hnsv, hheader⟩ := exited_ran_tf hwaits setsTf
  constructor
  · intro hnsvGuest htoHost
    cases hidden with
    | true => exact hkeeps' htoHost
    | false =>
        have htoHost : toHost = true := by simpa using htoHost
        rw [hheader, htoHost, hnsv.symm.trans hnsvGuest]
        exact congrArg setsTf.getD (KeepsTf.vmcbTf hkeeps h).2
  · intro hnsvGuest _
    rw [hvalid]
    exact h.valid (hnsv.symm.trans hnsvGuest) rfl

end Exit

end OptionState

end NoirVisor
