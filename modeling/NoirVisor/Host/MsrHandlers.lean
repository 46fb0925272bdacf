import NoirVisor.Host.Msrs

/-!
# The handlers of MSR exits

A handler refuses an access, or looks a value up, or stores one. What no handler looks up reads as
zero, and what none stores is dropped.
-/

namespace NoirVisor

open Copying SvmVmcbOffset

namespace MsrExit

variable (e : MsrExit)

variable (h : MsrHost)

/-- The accesses for which the handlers queue a fault. -/
def refused : Bool :=
  match e.msr with
  | .synthetic msr => !h.cpuidHvPresence || (!e.write && msr == .eoi)
  | .apicBase => e.write && h.hvType1 && (e.value &&& ~~~0xFFF#64 != h.apicBase)
  | .efer => e.write && e.value.getLsbD amd64EferSvme && !h.nestedVirtualization
  | .hsavePa => e.write && (e.value &&& 0xFFF != 0)
  | _ => false

end MsrExit

namespace MsrVcpu

variable (h : MsrHost) (v : MsrVcpu) (val : BitVec 64)

/-- What no read looks up has to be zero. -/
def ReadHolds : HostMsr → Prop
  | .apicBase => v.host.apicBase = 0
  | .x2apicIcr => v.host.x2apicIcr = 0
  | .lstar => h.hvType1 = true → v.lstar = 0
  | .vmcr => v.rInit = false
  | .hsavePa => v.hsaveGpa = 0
  | _ => True

/-- The value is exchanged up to its higher half, and the page is there to be filled. -/
def HypercallHolds : Prop :=
  if v.mshv.noirMshvGuestOsId ≠ 0 ∧ MshvMsrHypercall.locked ⟨val⟩ = false then
    v.mshv.noirMshvHypercallCtrl.extractLsb' 32 32 = val.extractLsb' 32 32 ∧
      (MshvMsrHypercall.enable ⟨val⟩ = true →
        (h.mapping.frameOf (MshvMsrs.hypercallVa h.mapping val)).isSome = true)
  else v.mshv.noirMshvHypercallCtrl = val

/-- What no write stores has to be there before. -/
def WriteHolds : HostMsr → Prop
  | .synthetic (.mshv .guestOsId) | .synthetic .npiepConfig | .efer | .hsavePa => True
  | .synthetic (.mshv .hypercall) => v.HypercallHolds h val
  | .synthetic .vpIndex => v.vpIndex = val
  | .synthetic .eoi =>
    if h.hvType1 then if v.x2apic then val = 0 else val &&& 0xFFFFFFFF = val
    else v.host.eoi = val
  | .synthetic .icr => h.hvType1 = true ∨ v.icr = val
  | .synthetic .tpr => if h.hvType1 then val < 16 else v.host.cr8 = val
  | .apicBase => if h.hvType1 then h.takesApicBase v.host val = true else v.host.apicBase = val
  | .x2apicIcr => v.host.x2apicIcr = val
  | .lstar =>
    if h.hvType1 then v.lstar = val else val = h.noirSystemCall → h.origSystemCall = val
  | .vmcr => val &&& ~~~(1#64 <<< amd64VmcrRInit) = 0
  | .synthetic (.other _) | .unknown _ => val = 0

end MsrVcpu

section Bits

variable {val : BitVec 64}

theorem and_not_eq_zero_iff {mask : BitVec 64} : val &&& ~~~mask = 0 ↔ val &&& mask = val := by
  constructor
  · intro hzero
    ext i hi
    have hbit := congrArg (BitVec.getLsbD · i) hzero
    simpa [hi] using hbit
  · intro hsame
    rw [← hsame, BitVec.and_assoc, BitVec.and_not_self]
    exact BitVec.and_zero

/-- A register of which one bit is stored. -/
theorem stored_bit_eq_iff {bit : Nat} :
    (if val.getLsbD bit then 1#64 <<< bit else 0) = val ↔ val &&& ~~~(1#64 <<< bit) = 0 := by
  have hmask : val &&& 1#64 <<< bit = if val.getLsbD bit then 1#64 <<< bit else 0 :=
    BitVec.and_twoPow val bit
  rw [and_not_eq_zero_iff, hmask]

/-- The bit of SVM is always set, and filtered as long as the host has not set it. -/
theorem filtered_efer : (if val.getLsbD amd64EferSvme then val ||| amd64EferSvmeBit
    else (val ||| amd64EferSvmeBit) &&& ~~~amd64EferSvmeBit) = val := by
  have hbit : amd64EferSvmeBit = BitVec.twoPow 64 amd64EferSvme := by decide
  rw [hbit]
  ext i hi
  cases hset : val.getLsbD amd64EferSvme with
  | true =>
      simp only [if_true, BitVec.getElem_or, BitVec.getElem_twoPow]
      grind
  | false =>
      simp only [Bool.false_eq_true, if_false, BitVec.getElem_and, BitVec.getElem_or,
        BitVec.getElem_not, BitVec.getElem_twoPow]
      grind

end Bits

namespace MsrVcpu

variable {h : MsrHost} {v w : MsrVcpu} {e : MsrExit} {val : BitVec 64} {page : Page}

/-- The fields that MSRs are kept in. -/
def msrFields : List Range := [vmcopy64 guestEfer, vmcopy64 guestLstar]

/-- What is looked at when the instruction is skipped. -/
def fetchFields : List Range := [vmcopy64 guestRip, vmcopy64 nextRip, vmcopy64 guestRflags]

theorem virtualMsr_of_agree (hpage : AgreeOn msrFields page v.vmcb) :
    ({ v with vmcb := page } : MsrVcpu).virtualMsr h = v.virtualMsr h := by
  have hefer : page.vmread64 guestEfer = v.efer := Page.vmread64_of_agree (hpage.mono (by decide))
  have hlstar : page.vmread64 guestLstar = v.lstar :=
    Page.vmread64_of_agree (hpage.mono (by decide))
  funext msr
  unfold virtualMsr efer lstar
  rw [hefer, hlstar]
  rfl

theorem virtualMsr_queueEvent {event : BitVec 64} :
    (v.queueEvent event).virtualMsr h = v.virtualMsr h :=
  virtualMsr_of_agree (Page.vmwrite_agree (by decide))

/-! The exit, before the handler. -/

theorem exited_vmcb {rs : List Range} (hclean : apart rs [vmcopy32 vmcbCleanBits] = true)
    (htlb : apart rs [vmcopy32 tlbControl] = true) :
    AgreeOn rs (v.exited h e).vmcb (e.vmcb v.vmcb) := by
  unfold exited
  dsimp only
  refine (Page.vmwrite_agree htlb).trans ?_
  split
  · exact Page.vmwrite_agree hclean
  · exact .refl

theorem virtualMsr_exited : (v.exited h e).virtualMsr h = v.virtualMsr h := by
  refine virtualMsr_of_agree ((exited_vmcb (by decide) (by decide)).trans ?_)
  refine (Page.vmwrite_agree (by decide)).trans ?_
  refine (Page.vmwrite_agree (by decide)).trans ?_
  exact (Page.vmwrite_agree (by decide)).trans (AgreeOn.copy_src.mono (by decide))

theorem exited_fetch : AgreeOn fetchFields (v.exited h e).vmcb e.left := by
  refine (exited_vmcb (by decide) (by decide)).trans ?_
  refine (Page.vmwrite_agree (by decide)).trans ?_
  refine (Page.vmwrite_agree (by decide)).trans ?_
  exact (Page.vmwrite_agree (by decide)).trans (AgreeOn.copy_dest (by decide))

theorem exited_eventInjection : (v.exited h e).vmcb.vmread64 eventInjection = 0 :=
  (Page.vmread64_of_agree (exited_vmcb (by decide) (by decide))).trans Page.vmread64_vmwrite64

theorem exited_exitInfo : ((v.exited h e).vmcb exitInfo1 != 0) = e.write := by
  have hbyte : (v.exited h e).vmcb exitInfo1 = if e.write then 1 else 0 := by
    have hkept : AgreeOn [vmcopy64 exitInfo1] (v.exited h e).vmcb
        ((Page.vmcopy e.left v.vmcb MsrExit.kept).vmwrite64 exitInfo1
          (if e.write then 1 else 0)) := by
      refine (exited_vmcb (by decide) (by decide)).trans ?_
      exact (Page.vmwrite_agree (by decide)).trans (Page.vmwrite_agree (by decide))
    refine (hkept _ (by decide)).trans ?_
    rw [Page.vmwrite64, Page.vmwrite_byte (Nat.add_zero exitInfo1).symm (by decide)]
    cases e.write with
    | true => rfl
    | false => rfl
  rw [hbyte]
  cases e.write with
  | true => rfl
  | false => rfl

/-! The handlers. -/

theorem rdmsr_refused (hread : e.write = false) (hrefused : e.refused h = true) :
    v.nvcSvmRdmsrHandler h e.msr = (v.injectGp, 0) := by
  unfold MsrExit.refused at hrefused
  rw [hread] at hrefused
  cases hmsr : e.msr with
  | synthetic msr =>
      rw [hmsr] at hrefused
      unfold nvcSvmRdmsrHandler
      cases hpresence : h.cpuidHvPresence with
      | false => rfl
      | true =>
          dsimp only at hrefused
          rw [hpresence, Bool.not_true, Bool.false_or, Bool.not_false, Bool.true_and,
            beq_iff_eq] at hrefused
          rw [hrefused]
          rfl
  | _ =>
      rw [hmsr] at hrefused
      exact absurd hrefused Bool.false_ne_true

/-- Nothing but the event there is, and the address of the save area that is read. -/
theorem rdmsr_served (hread : e.write = false) (hrefused : e.refused h = false)
    (hevent : v.vmcb.vmread64 eventInjection = 0) :
    AgreeOn fetchFields (v.nvcSvmRdmsrHandler h e.msr).1.vmcb v.vmcb ∧
      (v.nvcSvmRdmsrHandler h e.msr).1.vmcb.vmread64 eventInjection = 0 ∧
      ((v.nvcSvmRdmsrHandler h e.msr).2 = v.virtualMsr h e.msr ∧
          (v.nvcSvmRdmsrHandler h e.msr).1.virtualMsr h = v.virtualMsr h ↔
        v.ReadHolds h e.msr) := by
  unfold MsrExit.refused at hrefused
  rw [hread] at hrefused
  cases hmsr : e.msr with
  | synthetic msr =>
      rw [hmsr] at hrefused
      dsimp only at hrefused
      rw [Bool.or_eq_false_iff, Bool.not_eq_false'] at hrefused
      obtain ⟨hpresence, heoi⟩ := hrefused
      unfold nvcSvmRdmsrHandler
      dsimp only
      rw [if_pos hpresence]
      have hqueued : ∀ val, val = v.virtualMsr h (.synthetic msr) →
          AgreeOn fetchFields (v.queueEvent 0).vmcb v.vmcb ∧
            (v.queueEvent 0).vmcb.vmread64 eventInjection = 0 ∧
            (val = v.virtualMsr h (.synthetic msr) ∧
              (v.queueEvent 0).virtualMsr h = v.virtualMsr h ↔ True) := by
        intro val hval
        refine ⟨Page.vmwrite_agree (by decide), Page.vmread64_vmwrite64, ?_⟩
        exact iff_true_intro ⟨hval, virtualMsr_queueEvent⟩
      cases msr with
      | eoi => exact absurd heoi (by decide)
      | icr => exact ⟨.refl, hevent, iff_true_intro ⟨rfl, rfl⟩⟩
      | tpr => exact ⟨.refl, hevent, iff_true_intro ⟨rfl, rfl⟩⟩
      | mshv msr =>
          apply hqueued
          cases msr with
          | guestOsId => rfl
          | hypercall => rfl
      | vpIndex => exact hqueued _ rfl
      | npiepConfig => exact hqueued _ rfl
      | other index => exact hqueued _ rfl
  | apicBase => exact ⟨.refl, hevent, fun hval => hval.1.symm, fun hval => ⟨hval.symm, rfl⟩⟩
  | x2apicIcr => exact ⟨.refl, hevent, fun hval => hval.1.symm, fun hval => ⟨hval.symm, rfl⟩⟩
  | efer => exact ⟨.refl, hevent, iff_true_intro ⟨rfl, rfl⟩⟩
  | lstar =>
      refine ⟨.refl, hevent, (and_iff_left rfl).trans ?_⟩
      unfold nvcSvmRdmsrHandler virtualMsr ReadHolds
      dsimp only
      cases h.hvType1 with
      | true => simp [eq_comm]
      | false => simp
  | vmcr =>
      refine ⟨.refl, hevent, (and_iff_left rfl).trans ?_⟩
      unfold nvcSvmRdmsrHandler virtualMsr ReadHolds
      dsimp only
      cases v.rInit with
      | true => decide
      | false => decide
  | hsavePa =>
      refine ⟨.refl, hevent, ?_⟩
      constructor
      · intro hval
        exact hval.1.symm
      · intro hzero
        have hsame : ({ v with hsaveGpa := 0 } : MsrVcpu) = v := by rw [← hzero]
        exact ⟨hzero.symm, congrArg (virtualMsr h) hsame⟩
  | unknown index => exact ⟨.refl, hevent, iff_true_intro ⟨rfl, rfl⟩⟩

theorem wrmsr_refused (hwrite : e.write = true) (hrefused : e.refused h = true) :
    v.nvcSvmWrmsrHandler h e.value e.msr = some v.injectGp := by
  unfold MsrExit.refused at hrefused
  rw [hwrite] at hrefused
  cases hmsr : e.msr with
  | synthetic msr =>
      rw [hmsr] at hrefused
      dsimp only at hrefused
      rw [Bool.not_true, Bool.false_and, Bool.or_false, Bool.not_eq_true'] at hrefused
      unfold nvcSvmWrmsrHandler
      dsimp only
      rw [hrefused]
      rfl
  | apicBase =>
      rw [hmsr] at hrefused
      dsimp only at hrefused
      rw [Bool.true_and, Bool.and_eq_true, bne_iff_ne] at hrefused
      unfold nvcSvmWrmsrHandler wrmsrApicBase
      dsimp only
      rw [if_pos hrefused.1, if_pos hrefused.2]
  | efer =>
      rw [hmsr] at hrefused
      dsimp only at hrefused
      rw [Bool.true_and] at hrefused
      unfold nvcSvmWrmsrHandler wrmsrEfer
      dsimp only
      rw [if_pos hrefused]
  | hsavePa =>
      rw [hmsr] at hrefused
      dsimp only at hrefused
      rw [Bool.true_and, bne_iff_ne] at hrefused
      unfold nvcSvmWrmsrHandler wrmsrHsavePa
      dsimp only
      rw [if_pos hrefused]
  | _ =>
      rw [hmsr] at hrefused
      exact absurd hrefused Bool.false_ne_true

/-- What a write does that is not refused: it stores the value exactly if the condition holds. -/
structure Stores (h : MsrHost) (v : MsrVcpu) (msr : HostMsr) (val : BitVec 64)
    (outcome : Option MsrVcpu) (condition : Prop) : Prop where
  fetch : ∀ w, outcome = some w → AgreeOn fetchFields w.vmcb v.vmcb
  event : ∀ w, outcome = some w → w.vmcb.vmread64 eventInjection = 0
  stored : (∃ w, outcome = some w ∧
    w.virtualMsr h = Function.update (v.virtualMsr h) msr val) ↔ condition

namespace Stores

variable {msr : HostMsr} {outcome : Option MsrVcpu} {condition condition' : Prop}

theorem congr (hs : Stores h v msr val outcome condition) (hiff : condition ↔ condition') :
    Stores h v msr val outcome condition' := ⟨hs.fetch, hs.event, hs.stored.trans hiff⟩

theorem of_none (hfalse : ¬condition) : Stores h v msr val none condition where
  fetch _ hw := absurd hw (Option.some_ne_none _).symm
  event _ hw := absurd hw (Option.some_ne_none _).symm
  stored := iff_of_false (fun ⟨_, hw, _⟩ => absurd hw (Option.some_ne_none _).symm) hfalse

theorem of_some (hfetch : AgreeOn fetchFields w.vmcb v.vmcb)
    (hevent : w.vmcb.vmread64 eventInjection = 0)
    (hothers : ∀ m ≠ msr, w.virtualMsr h m = v.virtualMsr h m) :
    Stores h v msr val (some w) (w.virtualMsr h msr = val) where
  fetch _ hw := Option.some.inj hw ▸ hfetch
  event _ hw := Option.some.inj hw ▸ hevent
  stored := by
    constructor
    · rintro ⟨_, hw, hstored⟩
      obtain rfl := Option.some.inj hw
      exact (Function.eq_update_iff.mp hstored).1
    · intro hval
      exact ⟨w, rfl, Function.eq_update_iff.mpr ⟨hval, hothers⟩⟩

theorem of_dropped (hevent : v.vmcb.vmread64 eventInjection = 0) :
    Stores h v msr val (some v) (v.virtualMsr h msr = val) :=
  of_some .refl hevent fun _ _ => rfl

/-- The event field is cleared after a synthetic MSR. -/
theorem of_queued (hfetch : AgreeOn fetchFields w.vmcb v.vmcb)
    (hothers : ∀ m ≠ msr, w.virtualMsr h m = v.virtualMsr h m) :
    Stores h v msr val (some (w.queueEvent 0)) (w.virtualMsr h msr = val) := by
  have hqueued : (w.queueEvent 0).virtualMsr h = w.virtualMsr h := virtualMsr_queueEvent
  rw [← hqueued] at hothers ⊢
  refine of_some ?_ Page.vmread64_vmwrite64 hothers
  exact (Page.vmwrite_agree (by decide)).trans hfetch

end Stores

theorem stores_hypercall : Stores h v (.synthetic (.mshv .hypercall)) val
    ((v.nvcMshvWrmsrHandler h val (.mshv .hypercall)).map (queueEvent · 0))
    (v.HypercallHolds h val) := by
  have hdropped : v.mshv.handle h.mapping (.wrmsr .hypercall val) =
      ⟨v.mshv, v.mshv.noirMshvHypercallCtrl, none⟩ →
      Stores h v (.synthetic (.mshv .hypercall)) val
        ((v.nvcMshvWrmsrHandler h val (.mshv .hypercall)).map (queueEvent · 0))
        (v.mshv.noirMshvHypercallCtrl = val) := by
    intro hhandle
    have hsame : v.nvcMshvWrmsrHandler h val (.mshv .hypercall) = some v := by
      unfold nvcMshvWrmsrHandler
      dsimp only
      rw [hhandle]
      rfl
    rw [hsame]
    exact Stores.of_queued .refl fun _ _ => rfl
  -- What the register holds of a value that is taken; the page has nothing to do with it.
  have htaken : ∀ msrs : MshvMsrs, msrs.noirMshvGuestOsId = v.mshv.noirMshvGuestOsId →
      msrs.noirMshvHypercallCtrl = noirLockedXchg v.mshv.noirMshvHypercallCtrl val →
      Stores h v (.synthetic (.mshv .hypercall)) val
        (some (queueEvent { v with mshv := msrs } 0))
        (v.mshv.noirMshvHypercallCtrl.extractLsb' 32 32 = val.extractLsb' 32 32) := by
    intro msrs hid hctrl
    let w : MsrVcpu := { v with mshv := msrs }
    have hothers : ∀ m ≠ .synthetic (.mshv .hypercall),
        w.virtualMsr h m = v.virtualMsr h m := by
      intro m hne
      induction m using HostMsr.each with
      | hypercall => exact absurd rfl hne
      | guestOsId => exact hid
      | _ => rfl
    have hstores : Stores h v _ val _ (w.virtualMsr h _ = val) := .of_queued .refl hothers
    refine hstores.congr (Iff.trans ?_ noirLockedXchg_eq_value_iff)
    rw [← hctrl]
    rfl
  unfold HypercallHolds
  split_ifs with haccepted
  · obtain ⟨hid, hlocked⟩ := haccepted
    unfold nvcMshvWrmsrHandler
    dsimp only
    rw [MshvMsrs.handle_of_unlocked h.mapping hid hlocked]
    let stored : MshvMsrs := { v.mshv with
      noirMshvHypercallCtrl := noirLockedXchg v.mshv.noirMshvHypercallCtrl val }
    cases henable : MshvMsrHypercall.enable ⟨val⟩ with
    | false =>
        refine (htaken stored rfl rfl).congr ?_
        simp
    | true =>
        dsimp only
        rw [if_pos rfl, Option.all_some]
        cases hframe : h.mapping.frameOf (MshvMsrs.hypercallVa h.mapping val) with
        | none => exact Stores.of_none fun hc => absurd (hc.2 rfl) Bool.false_ne_true
        | some frame =>
            let filled := stored.fill h.mapping (MshvMsrs.hypercallVa h.mapping val)
            refine (htaken filled ?_ ?_).congr ?_
            · exact MshvMsrs.fill_noirMshvGuestOsId _
            · exact MshvMsrs.fill_noirMshvHypercallCtrl _
            · simp
  · apply hdropped
    by_cases hid : v.mshv.noirMshvGuestOsId = 0
    · exact MshvMsrs.handle_of_no_identity _ _ hid
    · exact MshvMsrs.handle_of_locked (by simpa using fun hlocked => haccepted ⟨hid, hlocked⟩)

/-- The registers of the interface; the others are left to their branches. -/
theorem stores_mshv (msr : HostSyntheticMsr) : Stores h v (.synthetic msr) val
    ((v.nvcMshvWrmsrHandler h val msr).map (queueEvent · 0))
    (match msr with
      | .mshv .guestOsId | .npiepConfig => True
      | .mshv .hypercall => v.HypercallHolds h val
      | msr => v.virtualMsr h (.synthetic msr) = val) := by
  cases msr with
  | mshv msr =>
      cases msr with
      | hypercall => exact stores_hypercall
      | guestOsId =>
          let w : MsrVcpu := { v with mshv := { v.mshv with noirMshvGuestOsId := val } }
          have hothers : ∀ m ≠ .synthetic (.mshv .guestOsId),
              w.virtualMsr h m = v.virtualMsr h m := by
            intro m hne
            induction m using HostMsr.each with
            | guestOsId => exact absurd rfl hne
            | _ => rfl
          have hstores : Stores h v _ val _ (w.virtualMsr h _ = val) := .of_queued .refl hothers
          exact hstores.congr (iff_true_intro rfl)
  | npiepConfig =>
      have hkept : AgreeOn (msrFields ++ fetchFields)
          (v.toSubvertedVcpu.nvcMshvMsrR40000040Handler val).vmcb v.vmcb :=
        SubvertedVcpu.reconfigure_agree (by decide) (by decide)
      let w : MsrVcpu :=
        { v with toSubvertedVcpu := v.toSubvertedVcpu.nvcMshvMsrR40000040Handler val }
      have hothers : ∀ m ≠ .synthetic .npiepConfig, w.virtualMsr h m = v.virtualMsr h m := by
        intro m hne
        have hconfig := congrFun (virtualMsr_of_agree (h := h) (v := { v with npiepConfig := val })
          (hkept.mono (by decide : within msrFields _ = true))) m
        refine hconfig.trans ?_
        induction m using HostMsr.each with
        | npiepConfig => exact absurd rfl hne
        | _ => rfl
      have hstores : Stores h v _ val _ (w.virtualMsr h _ = val) :=
        .of_queued (hkept.mono (by decide)) hothers
      exact hstores.congr (iff_true_intro rfl)
  | vpIndex => exact Stores.of_queued .refl fun _ _ => rfl
  | eoi => exact Stores.of_queued .refl fun _ _ => rfl
  | icr => exact Stores.of_queued .refl fun _ _ => rfl
  | tpr => exact Stores.of_queued .refl fun _ _ => rfl
  | other index => exact Stores.of_queued .refl fun _ _ => rfl

theorem stores_type1 (hevent : v.vmcb.vmread64 eventInjection = 0) (htype1 : h.hvType1 = true)
    (msr : HostSyntheticMsr) : Stores h v (.synthetic msr) val (v.wrmsrType1 h val msr)
      (v.WriteHolds h val (.synthetic msr)) := by
  unfold WriteHolds wrmsrType1
  cases msr with
  | eoi =>
      have hhost : ∀ host : HostRegisters, host.cr8 = v.host.cr8 →
          host.apicBase = v.host.apicBase → host.x2apicIcr = v.host.x2apicIcr →
          Stores h v (.synthetic .eoi) val (some { v with host := host }) (host.eoi = val) := by
        intro host hcr8 hbase hicr
        refine Stores.of_some .refl hevent ?_
        intro m hne
        induction m using HostMsr.each with
        | eoi => exact absurd rfl hne
        | tpr => exact hcr8
        | apicBase => exact hbase
        | x2apicIcr => exact hicr
        | _ => rfl
      dsimp only
      rw [if_pos htype1]
      by_cases hx2apic : v.x2apic = true
      · rw [if_pos hx2apic, if_pos hx2apic]
        unfold HostRegisters.noirWrmsrX2apicEoi
        split_ifs with hzero
        · exact (hhost { v.host with eoi := val } rfl rfl rfl).congr (iff_of_true rfl hzero)
        · exact Stores.of_none hzero
      · rw [if_neg hx2apic, if_neg hx2apic]
        exact hhost { v.host with eoi := val &&& 0xFFFFFFFF } rfl rfl rfl
  | icr =>
      let w : MsrVcpu := { v with icr := val }
      have hothers : ∀ m ≠ .synthetic .icr, w.virtualMsr h m = v.virtualMsr h m := by
        intro m hne
        induction m using HostMsr.each with
        | icr => exact absurd rfl hne
        | _ => rfl
      have hstores : Stores h v _ val _ (w.virtualMsr h _ = val) := .of_some .refl hevent hothers
      exact hstores.congr (iff_of_true rfl (.inl htype1))
  | tpr =>
      dsimp only
      rw [if_pos htype1]
      unfold HostRegisters.noirWritecr8
      split_ifs with hsmall
      · let w : MsrVcpu := { v with host := { v.host with cr8 := val } }
        have hothers : ∀ m ≠ .synthetic .tpr, w.virtualMsr h m = v.virtualMsr h m := by
          intro m hne
          induction m using HostMsr.each with
          | tpr => exact absurd rfl hne
          | _ => rfl
        have hstores : Stores h v _ val _ (w.virtualMsr h _ = val) := .of_some .refl hevent hothers
        exact hstores.congr (iff_of_true rfl hsmall)
      · exact Stores.of_none hsmall
  | mshv msr =>
      cases msr with
      | guestOsId => exact stores_mshv (.mshv .guestOsId)
      | hypercall => exact stores_mshv (.mshv .hypercall)
  | vpIndex => exact stores_mshv .vpIndex
  | npiepConfig => exact stores_mshv .npiepConfig
  | other index => exact (stores_mshv (.other index)).congr eq_comm

theorem stores_type2 (htype1 : h.hvType1 = false) (msr : HostSyntheticMsr) :
    Stores h v (.synthetic msr) val ((v.nvcMshvWrmsrHandler h val msr).map (queueEvent · 0))
      (v.WriteHolds h val (.synthetic msr)) := by
  refine (stores_mshv msr).congr ?_
  unfold WriteHolds
  rw [htype1]
  cases msr with
  | mshv msr => cases msr <;> rfl
  | icr => exact (or_iff_right Bool.false_ne_true).symm
  | other index => exact eq_comm
  | vpIndex => rfl
  | npiepConfig => rfl
  | eoi => rfl
  | tpr => rfl

theorem stores_synthetic (hevent : v.vmcb.vmread64 eventInjection = 0) (msr : HostSyntheticMsr) :
    Stores h v (.synthetic msr) val (v.wrmsrSynthetic h val msr)
      (v.WriteHolds h val (.synthetic msr)) := by
  unfold wrmsrSynthetic
  split_ifs with htype1
  · exact stores_type1 hevent htype1 msr
  · exact stores_type2 (Bool.not_eq_true _ ▸ htype1) msr

theorem stores_efer (hserved : (val.getLsbD amd64EferSvme && !h.nestedVirtualization) = false)
    (hevent : v.vmcb.vmread64 eventInjection = 0) :
    Stores h v .efer val (some (v.wrmsrEfer h val)) True := by
  have hwritten : v.wrmsrEfer h val = v.writeEfer val :=
    if_neg (Bool.eq_false_iff.mp hserved)
  have hkept : AgreeOn (vmcopy64 guestLstar :: vmcopy64 eventInjection :: fetchFields)
      (v.writeEfer val).vmcb v.vmcb :=
    AgreeOn.trans (Page.vmcbBtr_agree (by decide)) (Page.vmwrite_agree (by decide))
  have hlstar : (v.writeEfer val).lstar = v.lstar := Page.vmread64_of_agree (hkept.mono (by decide))
  have hefer : (v.writeEfer val).efer = val ||| amd64EferSvmeBit :=
    (Page.vmread64_of_agree (Page.vmcbBtr_agree (by decide))).trans Page.vmread64_vmwrite64
  have hstored : (v.writeEfer val).virtualMsr h .efer = val := by
    unfold virtualMsr
    dsimp only
    rw [hefer]
    exact filtered_efer
  have hothers : ∀ m ≠ .efer, (v.writeEfer val).virtualMsr h m = v.virtualMsr h m := by
    intro m hne
    induction m using HostMsr.each with
    | efer => exact absurd rfl hne
    | lstar =>
        exact congrArg (fun lstar => if h.hvType1 = false ∧ lstar = h.noirSystemCall then
          h.origSystemCall else lstar) hlstar
    | _ => rfl
  rw [hwritten]
  refine (Stores.of_some (hkept.mono (by decide)) ?_ hothers).congr (iff_true_intro hstored)
  exact (Page.vmread64_of_agree (hkept.mono (by decide))).trans hevent

theorem stores_lstar (hevent : v.vmcb.vmread64 eventInjection = 0) :
    Stores h v .lstar val (some (if h.hvType1 then v else v.wrmsrLstar h val))
      (v.WriteHolds h val .lstar) := by
  unfold WriteHolds
  dsimp only
  cases htype1 : h.hvType1 with
  | true =>
      refine (Stores.of_dropped hevent).congr ?_
      unfold virtualMsr
      dsimp only
      rw [htype1, if_neg (fun hc => Bool.false_ne_true hc.1.symm), if_pos rfl]
  | false =>
      have hkept : AgreeOn (vmcopy64 guestEfer :: vmcopy64 eventInjection :: fetchFields)
          (v.wrmsrLstar h val).vmcb v.vmcb := Page.vmwrite_agree (by decide)
      have hefer : (v.wrmsrLstar h val).efer = v.efer :=
        Page.vmread64_of_agree (hkept.mono (by decide))
      have hlstar : (v.wrmsrLstar h val).lstar =
          if val = h.origSystemCall then h.noirSystemCall else val := Page.vmread64_vmwrite64
      have hothers : ∀ m ≠ .lstar, (v.wrmsrLstar h val).virtualMsr h m = v.virtualMsr h m := by
        intro m hne
        induction m using HostMsr.each with
        | lstar => exact absurd rfl hne
        | efer =>
            exact congrArg
              (fun efer => if v.svme then efer else efer &&& ~~~amd64EferSvmeBit) hefer
        | _ => rfl
      refine (Stores.of_some (hkept.mono (by decide)) ?_ hothers).congr ?_
      · exact (Page.vmread64_of_agree (hkept.mono (by decide))).trans hevent
      · unfold virtualMsr
        dsimp only
        rw [hlstar, htype1, if_neg Bool.false_ne_true]
        by_cases horig : val = h.origSystemCall
        · rw [if_pos horig, if_pos ⟨rfl, rfl⟩]
          exact iff_of_true horig.symm fun _ => horig.symm
        · rw [if_neg horig]
          by_cases hhook : val = h.noirSystemCall
          · rw [if_pos ⟨rfl, hhook⟩]
            exact ⟨fun hsame _ => hsame, fun himp => himp hhook⟩
          · rw [if_neg fun hc => hhook hc.2]
            exact iff_of_true rfl fun hc => absurd hc hhook

theorem stores_apicBase (hserved : (h.hvType1 && (val &&& ~~~0xFFF#64 != h.apicBase)) = false)
    (hevent : v.vmcb.vmread64 eventInjection = 0) :
    Stores h v .apicBase val (if h.hvType1 then v.wrmsrApicBase h val else some v)
      (v.WriteHolds h val .apicBase) := by
  unfold WriteHolds
  dsimp only
  by_cases htype1 : h.hvType1 = true
  · rw [htype1, Bool.true_and, bne_eq_false_iff_eq] at hserved
    rw [if_pos htype1, if_pos htype1]
    unfold wrmsrApicBase
    rw [if_neg (not_not.mpr hserved)]
    split_ifs with htakes
    · let w : MsrVcpu := { v with
        x2apic := val.getLsbD amd64ApicExtd, host := { v.host with apicBase := val } }
      have hothers : ∀ m ≠ .apicBase, w.virtualMsr h m = v.virtualMsr h m := by
        intro m hne
        induction m using HostMsr.each with
        | apicBase => exact absurd rfl hne
        | _ => rfl
      have hstores : Stores h v _ val _ (w.virtualMsr h _ = val) := .of_some .refl hevent hothers
      exact hstores.congr (iff_of_true rfl htakes)
    · exact Stores.of_none htakes
  · rw [if_neg htype1, if_neg htype1]
    exact Stores.of_dropped hevent

theorem wrmsr_served (hwrite : e.write = true) (hrefused : e.refused h = false)
    (hevent : v.vmcb.vmread64 eventInjection = 0) :
    Stores h v e.msr e.value (v.nvcSvmWrmsrHandler h e.value e.msr)
      (v.WriteHolds h e.value e.msr) := by
  unfold MsrExit.refused at hrefused
  rw [hwrite] at hrefused
  cases hmsr : e.msr with
  | synthetic msr =>
      rw [hmsr] at hrefused
      dsimp only at hrefused
      rw [Bool.or_eq_false_iff, Bool.not_eq_false'] at hrefused
      unfold nvcSvmWrmsrHandler
      dsimp only
      rw [if_pos hrefused.1]
      exact stores_synthetic hevent msr
  | apicBase =>
      rw [hmsr] at hrefused
      exact stores_apicBase hrefused hevent
  | x2apicIcr => exact Stores.of_dropped hevent
  | efer =>
      rw [hmsr] at hrefused
      exact stores_efer hrefused hevent
  | lstar => exact stores_lstar hevent
  | vmcr =>
      let w : MsrVcpu := { v with rInit := e.value.getLsbD amd64VmcrRInit }
      have hothers : ∀ m ≠ .vmcr, w.virtualMsr h m = v.virtualMsr h m := by
        intro m hne
        induction m using HostMsr.each with
        | vmcr => exact absurd rfl hne
        | _ => rfl
      have hstores : Stores h v _ e.value _ (w.virtualMsr h _ = e.value) :=
        .of_some .refl hevent hothers
      exact hstores.congr stored_bit_eq_iff
  | hsavePa =>
      rw [hmsr] at hrefused
      have haligned : e.value &&& 0xFFF = 0 := bne_eq_false_iff_eq.mp hrefused
      let w : MsrVcpu := { v with
        hsaveGpa := e.value, hsaveHva := h.mapping.noirFindVirtByPhys e.value }
      have hwritten : v.wrmsrHsavePa h e.value = w := if_neg (not_not.mpr haligned)
      have hothers : ∀ m ≠ .hsavePa, w.virtualMsr h m = v.virtualMsr h m := by
        intro m hne
        induction m using HostMsr.each with
        | hsavePa => exact absurd rfl hne
        | _ => rfl
      have hstores : Stores h v _ e.value _ (w.virtualMsr h _ = e.value) :=
        .of_some .refl hevent hothers
      unfold nvcSvmWrmsrHandler
      rw [hwritten]
      exact hstores.congr (iff_true_intro rfl)
  | unknown index => exact (Stores.of_dropped hevent).congr eq_comm

end MsrVcpu

end NoirVisor
