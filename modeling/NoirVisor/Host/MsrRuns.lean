import NoirVisor.Host.MsrHandlers
import NoirVisor.Transition

/-!
# What the host reads and writes

An access to an MSR is to fault and change nothing, or to be skipped after it has read the value of
the MSR, or replaced it. What is read is then what was written last.
-/

namespace NoirVisor

open Copying SvmVmcbOffset Transition

namespace HostLeft

variable (left : HostLeft)

def rip : BitVec 64 := left.vcpu.vmcb.vmread64 guestRip

def rax : BitVec 64 := left.vcpu.vmcb.vmread64 guestRax

def rdx : BitVec 64 := left.gpr 2

/-- EDX:EAX. -/
def result : BitVec 64 := left.rdx.setWidth 32 ++ left.rax.setWidth 32

def RaisesGp : Prop := left.vcpu.vmcb.vmread64 eventInjection =
  amd64EventInjection amd64GeneralProtection amd64FaultTrapException true true 0

instance : Decidable left.RaisesGp := inferInstanceAs (Decidable (_ = _))

end HostLeft

section

variable (h : MsrHost) (e : MsrExit) (v : MsrVcpu) (left : HostLeft)

structure MsrFaulted : Prop where
  raises : left.RaisesGp
  rip : left.rip = e.left.vmread64 guestRip
  rax : left.rax = e.gpr 0
  rdx : left.rdx = e.gpr 2
  msrs : left.vcpu.virtualMsr h = v.virtualMsr h

structure MsrCompleted : Prop where
  quiet : ¬left.RaisesGp
  rip : left.rip = e.following
  read : e.write = false →
    left.result = v.virtualMsr h e.msr ∧ left.vcpu.virtualMsr h = v.virtualMsr h
  write : e.write = true →
    left.vcpu.virtualMsr h = Function.update (v.virtualMsr h) e.msr e.value

end

/-- The accesses of a run, with the last value that was successfully written to each MSR. -/
structure MsrSession where
  vcpu : MsrVcpu
  written : HostMsr → Option (BitVec 64)

namespace MsrSession

variable (h : MsrHost) (s : MsrSession) (e : MsrExit)

/-- The session of a vCPU of which nothing has been written. -/
def start (vcpu : MsrVcpu) : MsrSession := ⟨vcpu, fun _ => none⟩

def next : MsrSession :=
  match s.vcpu.nvcSvmExitHandler h e with
  | none => s
  | some left =>
    { vcpu := left.vcpu
      written :=
        if e.write = true ∧ ¬left.RaisesGp then Function.update s.written e.msr (some e.value)
        else s.written }

/-- Exactly one of the two, and a read returns what was written last. -/
def Behaves : Prop :=
  ∃ left, s.vcpu.nvcSvmExitHandler h e = some left ∧
    Xor (MsrFaulted h e s.vcpu left) (MsrCompleted h e s.vcpu left) ∧
    (e.write = false → MsrCompleted h e s.vcpu left →
      ∀ val, s.written e.msr = some val → left.result = val)

end MsrSession

/-! The accesses for which they do. -/

namespace MsrExit

variable (e : MsrExit)

/-- The decoder has found the next instruction. -/
def Skipped : Prop := e.left.vmread64 nextRip = e.following ∧ e.left.vmread64 nextRip ≠ 0

/-- The instruction is not skipped. -/
def Stays : Prop :=
  e.left.vmread64 nextRip = 0 ∨ e.left.vmread64 nextRip = e.left.vmread64 guestRip

def stepped : Bool := e.left.vmcbBt guestRflags amd64RflagsTf

end MsrExit

/-- A fault is right if the instruction is not skipped, and a read finds zeros in its registers. It
is lost to a single step, which is right if the access would not have changed anything. -/
def MsrSession.Served (h : MsrHost) (s : MsrSession) (e : MsrExit) : Prop :=
  if e.refused h then
    if e.stepped then
      e.Skipped ∧ s.vcpu.virtualMsr h e.msr = if e.write then e.value else 0
    else e.Stays ∧ (e.write = false → e.gpr 0 = 0 ∧ e.gpr 2 = 0)
  else
    e.Skipped ∧ if e.write then s.vcpu.WriteHolds h e.value e.msr else s.vcpu.ReadHolds h e.msr

namespace MsrVcpu

variable {h : MsrHost} {v : MsrVcpu} {e : MsrExit} {val : BitVec 64}

/-! The whole exit. -/

/-- What is left once a handler is done. -/
def skipped (v : MsrVcpu) (gpr : BitVec 4 → BitVec 64) : HostLeft :=
  ⟨{ v with vmcb := (noirSvmAdvanceRip v.vmcb).vmwrite64 guestRax (gpr 0) }, gpr⟩

theorem skipped_vmcb {gpr : BitVec 4 → BitVec 64} {rs : List Range}
    (hrax : apart rs [vmcopy64 guestRax] = true) :
    AgreeOn rs (v.skipped gpr).vcpu.vmcb (noirSvmAdvanceRip v.vmcb) := Page.vmwrite_agree hrax

theorem skipped_rip {gpr : BitVec 4 → BitVec 64} : (v.skipped gpr).rip =
    if v.vmcb.vmread64 nextRip ≠ 0 then v.vmcb.vmread64 nextRip else v.vmcb.vmread64 guestRip :=
  (Page.vmread64_of_agree (skipped_vmcb (by decide))).trans noirSvmAdvanceRip_guestRip

theorem skipped_rax {gpr : BitVec 4 → BitVec 64} : (v.skipped gpr).rax = gpr 0 :=
  Page.vmread64_vmwrite64

theorem skipped_event {gpr : BitVec 4 → BitVec 64} :
    (v.skipped gpr).vcpu.vmcb.vmread64 eventInjection =
      if v.vmcb.vmcbBt guestRflags amd64RflagsTf then
        amd64EventInjection amd64DebugException amd64FaultTrapException false true 0
      else v.vmcb.vmread64 eventInjection :=
  (Page.vmread64_of_agree (skipped_vmcb (by decide))).trans noirSvmAdvanceRip_eventInjection

theorem virtualMsr_skipped {gpr : BitVec 4 → BitVec 64} :
    (v.skipped gpr).vcpu.virtualMsr h = v.virtualMsr h :=
  virtualMsr_of_agree ((skipped_vmcb (by decide)).trans (noirSvmAdvanceRip_agree (by decide)))

/-- The registers after a read. -/
def readGpr (e : MsrExit) (val : BitVec 64) : BitVec 4 → BitVec 64 :=
  Function.update (Function.update e.gpr 0 ((val.setWidth 32).setWidth 64)) 2
    ((val >>> 32).setWidth 64)

theorem exitHandler_read (hread : e.write = false) : v.nvcSvmExitHandler h e =
    some (((v.exited h e).nvcSvmRdmsrHandler h e.msr).1.skipped
      (readGpr e ((v.exited h e).nvcSvmRdmsrHandler h e.msr).2)) := by
  unfold nvcSvmExitHandler nvcSvmMsrHandler
  dsimp only
  rw [exited_exitInfo, hread]
  rfl

theorem exitHandler_write (hwrite : e.write = true) : v.nvcSvmExitHandler h e =
    ((v.exited h e).nvcSvmWrmsrHandler h e.value e.msr).map (·.skipped e.gpr) := by
  unfold nvcSvmExitHandler nvcSvmMsrHandler
  dsimp only
  rw [exited_exitInfo, hwrite, if_pos rfl, Option.map_map, Option.map_map]
  rfl

theorem result_readGpr : (v.skipped (readGpr e val)).result = val := by
  unfold HostLeft.result
  rw [skipped_rax]
  change ((val >>> 32).setWidth 64).setWidth 32 ++ ((val.setWidth 32).setWidth 64).setWidth 32 = val
  ext i hi
  rw [BitVec.getElem_append]
  split_ifs with hlow
  · simpa using BitVec.getLsbD_eq_getElem hi
  · have hsplit : 32 + (i - 32) = i := by omega
    simpa [hsplit] using BitVec.getLsbD_eq_getElem hi

theorem not_raisesGp (gpr : BitVec 4 → BitVec 64)
    (hevent : v.vmcb.vmread64 eventInjection = 0) :
    ¬(v.skipped gpr).RaisesGp := by
  unfold HostLeft.RaisesGp
  rw [skipped_event, hevent]
  split <;> decide

section Skipped

variable {gpr : BitVec 4 → BitVec 64} (hfetch : AgreeOn fetchFields v.vmcb e.left)

include hfetch

theorem skipped_rip_eq : (v.skipped gpr).rip =
    if e.left.vmread64 nextRip ≠ 0 then e.left.vmread64 nextRip
    else e.left.vmread64 guestRip := by
  rw [skipped_rip, Page.vmread64_of_agree (hfetch.mono (by decide)),
    Page.vmread64_of_agree (hfetch.mono (by decide))]

theorem skipped_following_iff : (v.skipped gpr).rip = e.following ↔ e.Skipped := by
  rw [skipped_rip_eq hfetch]
  unfold MsrExit.Skipped
  split_ifs with hnext
  · exact (and_iff_left hnext).symm
  · exact iff_of_false (fun hrip => e.following_ne hrip.symm) fun hskipped => hnext hskipped.2

theorem skipped_stays_iff : (v.skipped gpr).rip = e.left.vmread64 guestRip ↔ e.Stays := by
  rw [skipped_rip_eq hfetch]
  unfold MsrExit.Stays
  split_ifs with hnext
  · exact (or_iff_right hnext).symm
  · exact iff_of_true rfl (.inl (not_not.mp hnext))

theorem skipped_stepped : v.vmcb.vmcbBt guestRflags amd64RflagsTf = e.stepped :=
  Page.vmcbBt_of_agree hfetch (by decide)

theorem raisesGp_iff (hevent : v.vmcb.vmread64 eventInjection =
    amd64EventInjection amd64GeneralProtection amd64FaultTrapException true true 0) :
    (v.skipped gpr).RaisesGp ↔ e.stepped = false := by
  unfold HostLeft.RaisesGp
  rw [skipped_event, hevent, skipped_stepped hfetch]
  cases e.stepped with
  | true => decide
  | false => exact iff_of_true rfl rfl

end Skipped

/-! A fault and a completed access exclude each other. -/

section Outcomes

variable {left : HostLeft}

theorem xor_iff_of_raises (hraises : left.RaisesGp) :
    Xor (MsrFaulted h e v left) (MsrCompleted h e v left) ↔ MsrFaulted h e v left := by
  have hnot : ¬MsrCompleted h e v left := fun hcompleted => hcompleted.quiet hraises
  exact ⟨fun hx => hx.elim And.left fun hc => absurd hc.1 hnot, fun hf => .inl ⟨hf, hnot⟩⟩

theorem xor_iff_of_quiet (hquiet : ¬left.RaisesGp) :
    Xor (MsrFaulted h e v left) (MsrCompleted h e v left) ↔ MsrCompleted h e v left := by
  have hnot : ¬MsrFaulted h e v left := fun hfaulted => hquiet hfaulted.raises
  exact ⟨fun hx => hx.elim (fun hf => absurd hf.1 hnot) And.left, fun hc => .inr ⟨hc, hnot⟩⟩

end Outcomes

/-- A read that a handler has answered, or refused. -/
theorem read_completed_iff {w : MsrVcpu} (hread : e.write = false)
    (hfetch : AgreeOn fetchFields w.vmcb e.left)
    (hquiet : ¬(w.skipped (readGpr e val)).RaisesGp) :
    MsrCompleted h e v (w.skipped (readGpr e val)) ↔
      e.Skipped ∧ val = v.virtualMsr h e.msr ∧ w.virtualMsr h = v.virtualMsr h := by
  constructor
  · intro hcompleted
    obtain ⟨hresult, hmsrs⟩ := hcompleted.read hread
    rw [result_readGpr] at hresult
    rw [virtualMsr_skipped] at hmsrs
    exact ⟨(skipped_following_iff hfetch).mp hcompleted.rip, hresult, hmsrs⟩
  · rintro ⟨hskipped, hresult, hmsrs⟩
    refine ⟨hquiet, (skipped_following_iff hfetch).mpr hskipped, fun _ => ?_, fun hwrite => ?_⟩
    · rw [result_readGpr, virtualMsr_skipped]
      exact ⟨hresult, hmsrs⟩
    · exact absurd (hread.symm.trans hwrite) Bool.false_ne_true

theorem write_completed_iff {w : MsrVcpu} (hwrite : e.write = true)
    (hfetch : AgreeOn fetchFields w.vmcb e.left) (hquiet : ¬(w.skipped e.gpr).RaisesGp) :
    MsrCompleted h e v (w.skipped e.gpr) ↔
      e.Skipped ∧ w.virtualMsr h = Function.update (v.virtualMsr h) e.msr e.value := by
  constructor
  · intro hcompleted
    have hmsrs := hcompleted.write hwrite
    rw [virtualMsr_skipped] at hmsrs
    exact ⟨(skipped_following_iff hfetch).mp hcompleted.rip, hmsrs⟩
  · rintro ⟨hskipped, hmsrs⟩
    refine ⟨hquiet, (skipped_following_iff hfetch).mpr hskipped, fun hread => ?_, fun _ => ?_⟩
    · exact absurd (hread.symm.trans hwrite) Bool.false_ne_true
    · rw [virtualMsr_skipped]
      exact hmsrs

theorem faulted_iff {w : MsrVcpu} {gpr : BitVec 4 → BitVec 64}
    (hfetch : AgreeOn fetchFields w.vmcb e.left) (hraises : (w.skipped gpr).RaisesGp)
    (hmsrs : w.virtualMsr h = v.virtualMsr h) :
    MsrFaulted h e v (w.skipped gpr) ↔ e.Stays ∧ gpr 0 = e.gpr 0 ∧ gpr 2 = e.gpr 2 := by
  constructor
  · intro hfaulted
    refine ⟨(skipped_stays_iff hfetch).mp hfaulted.rip, ?_, hfaulted.rdx⟩
    exact skipped_rax.symm.trans hfaulted.rax
  · rintro ⟨hstays, hrax, hrdx⟩
    refine ⟨hraises, (skipped_stays_iff hfetch).mpr hstays, skipped_rax.trans hrax, hrdx, ?_⟩
    exact virtualMsr_skipped.trans hmsrs

end MsrVcpu

namespace MsrSession

open MsrVcpu

variable {h : MsrHost} {s : MsrSession} {e : MsrExit}

/-- What was written last is still there. -/
def Remembers (h : MsrHost) (s : MsrSession) : Prop :=
  ∀ msr val, s.written msr = some val → s.vcpu.virtualMsr h msr = val

theorem behaves_iff_xor (hs : s.Remembers h) : s.Behaves h e ↔
    ∃ left, s.vcpu.nvcSvmExitHandler h e = some left ∧
      Xor (MsrFaulted h e s.vcpu left) (MsrCompleted h e s.vcpu left) := by
  refine exists_congr fun left => and_congr_right fun _ => and_iff_left ?_
  intro hread hcompleted val hwritten
  exact (hcompleted.read hread).1.trans (hs _ _ hwritten)

theorem exited_injectGp_fetch :
    AgreeOn fetchFields (s.vcpu.exited h e).injectGp.vmcb e.left :=
  AgreeOn.trans (Page.vmwrite_agree (by decide)) exited_fetch

theorem exited_injectGp_event : (s.vcpu.exited h e).injectGp.vmcb.vmread64 eventInjection =
    amd64EventInjection amd64GeneralProtection amd64FaultTrapException true true 0 :=
  Page.vmread64_vmwrite64

theorem virtualMsr_exited_injectGp :
    (s.vcpu.exited h e).injectGp.virtualMsr h = s.vcpu.virtualMsr h :=
  virtualMsr_queueEvent.trans virtualMsr_exited

theorem lstar_exited : (s.vcpu.exited h e).lstar = s.vcpu.lstar := by
  refine Page.vmread64_of_agree ((exited_vmcb (by decide) (by decide)).trans ?_)
  refine (Page.vmwrite_agree (by decide)).trans ?_
  refine (Page.vmwrite_agree (by decide)).trans ?_
  exact (Page.vmwrite_agree (by decide)).trans (AgreeOn.copy_src.mono (by decide))

theorem readHolds_exited {msr : HostMsr} :
    (s.vcpu.exited h e).ReadHolds h msr ↔ s.vcpu.ReadHolds h msr := by
  cases msr with
  | lstar =>
      unfold ReadHolds
      dsimp only
      rw [lstar_exited]
  | _ => exact Iff.rfl

theorem writeHolds_exited {msr : HostMsr} {val : BitVec 64} :
    (s.vcpu.exited h e).WriteHolds h val msr ↔ s.vcpu.WriteHolds h val msr := by
  cases msr with
  | lstar =>
      unfold WriteHolds
      dsimp only
      rw [lstar_exited]
  | synthetic msr => rcases msr with (_ | _) | _ | _ | _ | _ | _ | _ <;> exact Iff.rfl
  | _ => exact Iff.rfl

theorem behaves_read_refused (hs : s.Remembers h) (hread : e.write = false)
    (hrefused : e.refused h = true) : s.Behaves h e ↔
      if e.stepped then e.Skipped ∧ s.vcpu.virtualMsr h e.msr = 0
      else e.Stays ∧ e.gpr 0 = 0 ∧ e.gpr 2 = 0 := by
  have hraises := @raisesGp_iff _ e (readGpr e 0) (exited_injectGp_fetch (h := h) (s := s))
    exited_injectGp_event
  rw [behaves_iff_xor hs, exitHandler_read hread, rdmsr_refused hread hrefused]
  simp only [Option.some.injEq, exists_eq_left']
  cases hstepped : e.stepped with
  | true =>
      have hquiet := (not_congr hraises).mpr (by simp [hstepped])
      rw [if_pos rfl, xor_iff_of_quiet hquiet,
        read_completed_iff hread exited_injectGp_fetch hquiet]
      refine and_congr_right fun _ => (and_iff_left virtualMsr_exited_injectGp).trans eq_comm
  | false =>
      have hraised := hraises.mpr hstepped
      rw [if_neg Bool.false_ne_true, xor_iff_of_raises hraised,
        faulted_iff exited_injectGp_fetch hraised virtualMsr_exited_injectGp]
      have hrax : readGpr e 0 0 = 0 := by simp [readGpr]
      have hrdx : readGpr e 0 2 = 0 := by simp [readGpr]
      rw [hrax, hrdx]
      exact and_congr_right fun _ => and_congr eq_comm eq_comm

theorem behaves_write_refused (hs : s.Remembers h) (hwrite : e.write = true)
    (hrefused : e.refused h = true) : s.Behaves h e ↔
      if e.stepped then e.Skipped ∧ s.vcpu.virtualMsr h e.msr = e.value else e.Stays := by
  have hraises := @raisesGp_iff _ e e.gpr (exited_injectGp_fetch (h := h) (s := s))
    exited_injectGp_event
  rw [behaves_iff_xor hs, exitHandler_write hwrite, wrmsr_refused hwrite hrefused]
  simp only [Option.map_some, Option.some.injEq, exists_eq_left']
  cases hstepped : e.stepped with
  | true =>
      have hquiet := (not_congr hraises).mpr (by simp [hstepped])
      rw [if_pos rfl, xor_iff_of_quiet hquiet,
        write_completed_iff hwrite exited_injectGp_fetch hquiet, virtualMsr_exited_injectGp,
        Function.eq_update_iff]
      exact and_congr_right fun _ => and_iff_left fun _ _ => rfl
  | false =>
      have hraised := hraises.mpr hstepped
      rw [if_neg Bool.false_ne_true, xor_iff_of_raises hraised,
        faulted_iff exited_injectGp_fetch hraised virtualMsr_exited_injectGp]
      exact and_iff_left ⟨rfl, rfl⟩

theorem behaves_read_served (hs : s.Remembers h) (hread : e.write = false)
    (hrefused : e.refused h = false) :
    s.Behaves h e ↔ e.Skipped ∧ s.vcpu.ReadHolds h e.msr := by
  obtain ⟨hfetch, hevent, hiff⟩ :=
    @rdmsr_served h (s.vcpu.exited h e) e hread hrefused exited_eventInjection
  have hfetch := hfetch.trans exited_fetch
  have hquiet := not_raisesGp (readGpr e ((s.vcpu.exited h e).nvcSvmRdmsrHandler h e.msr).2)
    hevent
  rw [behaves_iff_xor hs, exitHandler_read hread]
  simp only [Option.some.injEq, exists_eq_left']
  rw [xor_iff_of_quiet hquiet, read_completed_iff hread hfetch hquiet, ← readHolds_exited,
    ← hiff, virtualMsr_exited]

theorem behaves_write_served (hs : s.Remembers h) (hwrite : e.write = true)
    (hrefused : e.refused h = false) :
    s.Behaves h e ↔ e.Skipped ∧ s.vcpu.WriteHolds h e.value e.msr := by
  have hstores := @wrmsr_served h (s.vcpu.exited h e) e hwrite hrefused exited_eventInjection
  rw [behaves_iff_xor hs, exitHandler_write hwrite, ← writeHolds_exited, ← hstores.stored,
    virtualMsr_exited]
  constructor
  · rintro ⟨left, hleft, hxor⟩
    obtain ⟨w, hw, rfl⟩ := Option.map_eq_some_iff.mp hleft
    have hquiet := not_raisesGp e.gpr (hstores.event w hw)
    obtain ⟨hskipped, hmsrs⟩ := (write_completed_iff hwrite
      ((hstores.fetch w hw).trans exited_fetch) hquiet).mp ((xor_iff_of_quiet hquiet).mp hxor)
    exact ⟨hskipped, w, hw, hmsrs⟩
  · rintro ⟨hskipped, w, hw, hmsrs⟩
    have hquiet := not_raisesGp e.gpr (hstores.event w hw)
    refine ⟨w.skipped e.gpr, by rw [hw]; rfl, (xor_iff_of_quiet hquiet).mpr ?_⟩
    exact (write_completed_iff hwrite ((hstores.fetch w hw).trans exited_fetch) hquiet).mpr
      ⟨hskipped, hmsrs⟩

theorem behaves_iff_served (hs : s.Remembers h) : s.Behaves h e ↔ s.Served h e := by
  unfold Served
  cases hrefused : e.refused h with
  | true =>
      rw [if_pos rfl]
      cases hwrite : e.write with
      | true =>
          rw [behaves_write_refused hs hwrite hrefused]
          simp
      | false =>
          rw [behaves_read_refused hs hwrite hrefused]
          simp
  | false =>
      rw [if_neg Bool.false_ne_true]
      cases hwrite : e.write with
      | true => exact behaves_write_served hs hwrite hrefused
      | false => exact behaves_read_served hs hwrite hrefused

/-- A write replaces the value if it does not fault, and nothing else changes one. -/
theorem Behaves.remembers (hs : s.Remembers h) (hb : s.Behaves h e) : (s.next h e).Remembers h := by
  obtain ⟨left, hleft, hxor, -⟩ := hb
  intro msr val
  unfold next
  rw [hleft]
  dsimp only
  by_cases hraises : left.RaisesGp
  · rw [if_neg fun hc => hc.2 hraises, ((xor_iff_of_raises hraises).mp hxor).msrs]
    exact hs msr val
  · have hcompleted := (xor_iff_of_quiet hraises).mp hxor
    cases hwrite : e.write with
    | false =>
        rw [if_neg fun hc => Bool.false_ne_true hc.1, (hcompleted.read hwrite).2]
        exact hs msr val
    | true =>
        rw [if_pos ⟨rfl, hraises⟩, hcompleted.write hwrite]
        by_cases hmsr : msr = e.msr
        · rw [hmsr, Function.update_self, Function.update_self]
          exact fun hval => Option.some.inj hval
        · rw [Function.update_of_ne hmsr, Function.update_of_ne hmsr]
          exact hs msr val

/-- For every sequence of accesses. -/
theorem msrRun_iff (h : MsrHost) (vcpu : MsrVcpu) (es : List MsrExit) :
    Along (Behaves h) (next h) (start vcpu) es ↔ Along (Served h) (next h) (start vcpu) es := by
  have hstart : (start vcpu).Remembers h := by
    intro msr val hwritten
    exact absurd hwritten (Option.some_ne_none val).symm
  exact along_iff (fun _ _ hs _ => behaves_iff_served hs)
    (fun _ _ hs _ hk => Behaves.remembers hs ((behaves_iff_served hs).mpr hk)) hstart
    (along_of_forall (P := fun _ _ => True) fun _ _ => trivial)

/-- A vCPU whose host has set its save area. -/
def savingVcpu : MsrVcpu where
  vmcb _ := 0
  npiepConfig := 0
  svme := true
  rInit := false
  x2apic := false
  hsaveGpa := 0x5000
  hsaveHva := 0xFFFF800000005000
  vpIndex := 0
  icr := 0
  mshv := ⟨0, 0, fun _ _ => 0⟩
  host := ⟨0, 0xFEE00900, 0, 0⟩

def nestingHost : MsrHost where
  hvType1 := false
  caching := true
  cpuidHvPresence := true
  nestedVirtualization := true
  apicBase := 0xFEE00000
  noirSystemCall := 0xFFFFF80000200000
  origSystemCall := 0xFFFFF80000400000
  mapping := ⟨fun pa => 0xFFFF800000000000 + pa, fun va => some (va.extractLsb' 12 52)⟩
  takesApicBase _ _ := true

/-- The address of the save area is read. -/
def hsaveRead : MsrExit where
  left := (Page.vmwrite64 (fun _ => 0) guestRip 0x1000).vmwrite64 nextRip 0x1002
  write := false
  gpr r := if r = 1 then 0xC0010117 else 0
  following := 0x1002
  following_ne := by decide

/-- The read clears the address instead. -/
theorem not_forall_msrRun : ¬∀ (h : MsrHost) (vcpu : MsrVcpu) (es : List MsrExit),
    Along (Behaves h) (next h) (start vcpu) es := by
  intro hall
  obtain ⟨hserved, -⟩ :=
    (msrRun_iff nestingHost savingVcpu [hsaveRead]).mp (hall nestingHost savingVcpu [hsaveRead])
  have hmsr : hsaveRead.msr = .hsavePa := by decide
  have hrefused : hsaveRead.refused nestingHost = false := by
    unfold MsrExit.refused
    rw [hmsr]
    rfl
  unfold Served at hserved
  rw [hrefused, if_neg Bool.false_ne_true, hmsr] at hserved
  exact absurd hserved.2 (by decide : ¬(0x5000 : BitVec 64) = 0)

end MsrSession

end NoirVisor
