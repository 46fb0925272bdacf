import NoirVisor.Transition
import Mathlib.Logic.Function.Basic
import Mathlib.Tactic.Common

/-!
# The hypercall page

The subverted host tells its identity and asks for a hypercall page through two synthetic MSRs. The
page is a page of its own memory that the hypervisor fills.
-/

namespace NoirVisor

open Transition

/-- The value of `hv_x64_msr_hypercall`. -/
structure MshvMsrHypercall where
  value : BitVec 64

namespace MshvMsrHypercall

variable (msr : MshvMsrHypercall)

def enable : Bool := msr.value.getLsbD 0
def locked : Bool := msr.value.getLsbD 1
def hypercallGpfn : BitVec 52 := msr.value.extractLsb' 12 52

end MshvMsrHypercall

/-- `mov eax,HV_STATUS_INVALID_HYPERCALL_CODE` and `ret`. -/
def nvcMshvHypercallCode64 : List (BitVec 8) := [0xB8, 0x02, 0x00, 0x00, 0x00, 0xC3]

/-- The code and zeros up to the end of the page. -/
def hypercallPage (offset : BitVec 12) : BitVec 8 := nvcMshvHypercallCode64.getD offset.toNat 0

inductive MshvMsr where
  | guestOsId | hypercall
deriving DecidableEq

/-- `rdmsr` or `wrmsr`, of which the former has no value. -/
inductive MshvAccess where
  | rdmsr (msr : MshvMsr)
  | wrmsr (msr : MshvMsr) (val : BitVec 64)
deriving DecidableEq

/-- How the hypervisor reaches the memory: the virtual address that it takes a physical address to
have, and the frame of RAM that a page of virtual addresses is mapped to. -/
structure HostMapping where
  noirFindVirtByPhys : BitVec 64 → BitVec 64
  frameOf : BitVec 64 → Option (BitVec 52)

abbrev GuestFrames := BitVec 52 → BitVec 12 → BitVec 8

structure MshvMsrs where
  noirMshvGuestOsId : BitVec 64
  noirMshvHypercallCtrl : BitVec 64
  memory : GuestFrames

/-- What a handler leaves and returns. The page is the virtual address that it has written
through. -/
structure MshvOutcome where
  msrs : MshvMsrs
  value : BitVec 64
  page : Option (BitVec 64)

/-- `_InterlockedExchange` of a variable of 64 bits, which exchanges 32. -/
def noirLockedXchg (target value : BitVec 64) : BitVec 64 :=
  target.extractLsb' 32 32 ++ value.setWidth 32

namespace MshvMsrs

variable (host : HostMapping) (msrs : MshvMsrs)

/-- Nothing is written where nothing is mapped, and the processor faults. -/
def fill (va : BitVec 64) : MshvMsrs :=
  match host.frameOf va with
  | none => msrs
  | some frame => { msrs with memory := Function.update msrs.memory frame hypercallPage }

def nvcMshvMsrR40000000Handler (write : Bool) (val : BitVec 64) : MshvOutcome :=
  let msrs := if write then { msrs with noirMshvGuestOsId := val } else msrs
  ⟨msrs, msrs.noirMshvGuestOsId, none⟩

/-- It looks for the lock in the value that is written. -/
def nvcMshvMsrR40000001Handler (write : Bool) (val : BitVec 64) : MshvOutcome :=
  if write && msrs.noirMshvGuestOsId != 0 then
    let msr : MshvMsrHypercall := ⟨val⟩
    if msr.locked then ⟨msrs, msrs.noirMshvHypercallCtrl, none⟩
    else
      let msrs := { msrs with
        noirMshvHypercallCtrl := noirLockedXchg msrs.noirMshvHypercallCtrl val }
      if msr.enable then
        let pa : BitVec 64 := msr.hypercallGpfn ++ 0#12
        let va := host.noirFindVirtByPhys pa
        ⟨msrs.fill host va, msrs.noirMshvHypercallCtrl, some va⟩
      else ⟨msrs, msrs.noirMshvHypercallCtrl, none⟩
  else ⟨msrs, msrs.noirMshvHypercallCtrl, none⟩

/-- `nvc_mshv_rdmsr_handler` and `nvc_mshv_wrmsr_handler`. -/
def handle : MshvAccess → MshvOutcome
  | .rdmsr .guestOsId => msrs.nvcMshvMsrR40000000Handler false 0
  | .rdmsr .hypercall => msrs.nvcMshvMsrR40000001Handler host false 0
  | .wrmsr .guestOsId val => msrs.nvcMshvMsrR40000000Handler true val
  | .wrmsr .hypercall val => msrs.nvcMshvMsrR40000001Handler host true val

end MshvMsrs

/-- The registers as the interface describes them, with the memory that the guest then sees. -/
structure Tlfs where
  guestOsId : BitVec 64
  hypercall : MshvMsrHypercall
  memory : GuestFrames

namespace Tlfs

variable (t : Tlfs) (access : MshvAccess)

/-- A page is disabled by taking its enable bit away. -/
def disabled : Tlfs := { t with hypercall := ⟨t.hypercall.value &&& ~~~1#64⟩ }

def Accepts : Prop := t.guestOsId ≠ 0 ∧ t.hypercall.locked = false

instance : Decidable t.Accepts := inferInstanceAs (Decidable (_ ∧ _))

/-- The frame that an access has written with the code. -/
def page : Option (BitVec 52) :=
  match access with
  | .wrmsr .hypercall val =>
    if t.Accepts ∧ MshvMsrHypercall.enable ⟨val⟩ then some (MshvMsrHypercall.hypercallGpfn ⟨val⟩)
    else none
  | _ => none

def register : MshvMsr → BitVec 64
  | .guestOsId => t.guestOsId
  | .hypercall => t.hypercall.value

def accept (val : BitVec 64) : Tlfs :=
  { t with
    hypercall := ⟨val⟩
    memory := match t.page (.wrmsr .hypercall val) with
      | none => t.memory
      | some frame => Function.update t.memory frame hypercallPage }

/-- The lock is one against writes of the register: a page that loses its guest is disabled. -/
def next : Tlfs :=
  match access with
  | .rdmsr _ => t
  | .wrmsr .guestOsId val =>
    if val = 0 then { t.disabled with guestOsId := 0 } else { t with guestOsId := val }
  | .wrmsr .hypercall val => if t.Accepts then t.accept val else t

variable {t} {access}

theorem disabled_enable : t.disabled.hypercall.enable = false := by
  simp [disabled, MshvMsrHypercall.enable]

theorem disabled_bit {bit : Nat} (h : bit ≠ 0) :
    t.disabled.hypercall.value.getLsbD bit = t.hypercall.value.getLsbD bit := by
  have hone : (1#64).getLsbD bit = false := by simp [BitVec.getLsbD_one, h]
  simp only [disabled, BitVec.getLsbD_and, BitVec.getLsbD_not, hone]
  by_cases hbit : bit < 64
  · simp [hbit]
  · simp [hbit, BitVec.getLsbD_of_ge _ _ (Nat.le_of_not_lt hbit)]

end Tlfs

/-- The two machines side by side. -/
structure MshvRun where
  msrs : MshvMsrs
  tlfs : Tlfs

namespace MshvRun

variable (host : HostMapping) (r : MshvRun) (access : MshvAccess)

/-- The frames that are written, of which an address without RAM is none. -/
def frames (page : Option (BitVec 64)) : Option (Option (BitVec 52)) := page.map host.frameOf

/-- What a read returns, what the registers hold and what is written are as described. -/
structure Behaves : Prop where
  value : ∀ msr, access = .rdmsr msr → (r.msrs.handle host access).value = r.tlfs.register msr
  guestOsId : (r.msrs.handle host access).msrs.noirMshvGuestOsId = (r.tlfs.next access).guestOsId
  hypercall :
    (r.msrs.handle host access).msrs.noirMshvHypercallCtrl = (r.tlfs.next access).hypercall.value
  page : frames host (r.msrs.handle host access).page = (r.tlfs.page access).map some
  memory : (r.msrs.handle host access).msrs.memory = (r.tlfs.next access).memory

def next : MshvRun := ⟨(r.msrs.handle host access).msrs, r.tlfs.next access⟩

/-- Before any access. -/
def initial (memory : GuestFrames) : MshvRun := ⟨⟨0, 0, memory⟩, ⟨0, ⟨0⟩, memory⟩⟩

/-- A value that has no lock and no upper half, and a page where there is RAM. -/
structure Storable (val : BitVec 64) : Prop where
  unlocked : MshvMsrHypercall.locked ⟨val⟩ = false
  low : val.extractLsb' 32 32 = 0#32
  mapped : MshvMsrHypercall.enable ⟨val⟩ = true →
    host.frameOf (host.noirFindVirtByPhys (MshvMsrHypercall.hypercallGpfn ⟨val⟩ ++ 0#12)) =
      some (MshvMsrHypercall.hypercallGpfn ⟨val⟩)

def Permitted : Prop :=
  match access with
  | .rdmsr _ => True
  | .wrmsr .guestOsId val =>
    val = 0 → MshvMsrHypercall.enable ⟨r.msrs.noirMshvHypercallCtrl⟩ = false
  | .wrmsr .hypercall val => r.msrs.noirMshvGuestOsId ≠ 0 → Storable host val

/-- The machines agree, on a register that is neither locked nor has an upper half. -/
structure Agrees : Prop where
  guestOsId : r.msrs.noirMshvGuestOsId = r.tlfs.guestOsId
  hypercall : r.msrs.noirMshvHypercallCtrl = r.tlfs.hypercall.value
  memory : r.msrs.memory = r.tlfs.memory
  unlocked : r.tlfs.hypercall.locked = false
  low : r.msrs.noirMshvHypercallCtrl.extractLsb' 32 32 = 0#32

end MshvRun

/-- Half a register is exchanged: the other half of the value has to be there. -/
theorem noirLockedXchg_eq_value_iff {target value : BitVec 64} :
    noirLockedXchg target value = value ↔
      target.extractLsb' 32 32 = value.extractLsb' 32 32 := by
  have hlow : value.setWidth 32 = value.extractLsb' 0 32 := by
    ext i hi
    simp
  have hsplit : value.extractLsb' 32 32 ++ value.setWidth 32 = value := by
    rw [hlow]
    exact BitVec.extractLsb'_append_extractLsb'
  calc noirLockedXchg target value = value
      ↔ target.extractLsb' 32 32 ++ value.setWidth 32 =
          value.extractLsb' 32 32 ++ value.setWidth 32 := by rw [hsplit]; rfl
    _ ↔ target.extractLsb' 32 32 = value.extractLsb' 32 32 := BitVec.append_left_inj _

theorem noirLockedXchg_eq_iff {target value : BitVec 64}
    (htarget : target.extractLsb' 32 32 = 0#32) :
    noirLockedXchg target value = value ↔ value.extractLsb' 32 32 = 0#32 := by
  rw [noirLockedXchg_eq_value_iff, htarget]
  exact eq_comm

namespace MshvMsrs

variable {host : HostMapping} {msrs : MshvMsrs} {val : BitVec 64}

/-- The address that the page of a value is written through. -/
def hypercallVa (host : HostMapping) (val : BitVec 64) : BitVec 64 :=
  host.noirFindVirtByPhys (MshvMsrHypercall.hypercallGpfn ⟨val⟩ ++ 0#12)

theorem handle_of_no_identity (host : HostMapping) (val : BitVec 64)
    (h : msrs.noirMshvGuestOsId = 0) :
    msrs.handle host (.wrmsr .hypercall val) = ⟨msrs, msrs.noirMshvHypercallCtrl, none⟩ := by
  simp [handle, nvcMshvMsrR40000001Handler, h]

theorem handle_of_locked (hlocked : MshvMsrHypercall.locked ⟨val⟩ = true) :
    msrs.handle host (.wrmsr .hypercall val) = ⟨msrs, msrs.noirMshvHypercallCtrl, none⟩ := by
  simp [handle, nvcMshvMsrR40000001Handler, hlocked]

theorem handle_of_unlocked (host : HostMapping) (hid : msrs.noirMshvGuestOsId ≠ 0)
    (hlocked : MshvMsrHypercall.locked ⟨val⟩ = false) :
    msrs.handle host (.wrmsr .hypercall val) =
      let stored := { msrs with
        noirMshvHypercallCtrl := noirLockedXchg msrs.noirMshvHypercallCtrl val }
      if MshvMsrHypercall.enable ⟨val⟩ then
        ⟨stored.fill host (hypercallVa host val), stored.noirMshvHypercallCtrl,
          some (hypercallVa host val)⟩
      else ⟨stored, stored.noirMshvHypercallCtrl, none⟩ := by
  have hpass : (true && msrs.noirMshvGuestOsId != 0) = true := by simpa using hid
  have hunlocked : ¬MshvMsrHypercall.locked ⟨val⟩ = true := by simp [hlocked]
  change msrs.nvcMshvMsrR40000001Handler host true val = _
  unfold nvcMshvMsrR40000001Handler
  rw [if_pos hpass]
  dsimp only
  rw [if_neg hunlocked]
  rfl

@[simp]
theorem fill_noirMshvGuestOsId (va : BitVec 64) :
    (msrs.fill host va).noirMshvGuestOsId = msrs.noirMshvGuestOsId := by
  unfold fill
  split <;> rfl

@[simp]
theorem fill_noirMshvHypercallCtrl (va : BitVec 64) :
    (msrs.fill host va).noirMshvHypercallCtrl = msrs.noirMshvHypercallCtrl := by
  unfold fill
  split <;> rfl

theorem fill_memory {va : BitVec 64} {frame : BitVec 52} (h : host.frameOf va = some frame) :
    (msrs.fill host va).memory = Function.update msrs.memory frame hypercallPage := by
  rw [fill, h]

end MshvMsrs

namespace MshvRun

variable {host : HostMapping} {r : MshvRun} {val : BitVec 64}

theorem Behaves.next_agrees {access : MshvAccess} (h : r.Behaves host access)
    (hunlocked : (r.tlfs.next access).hypercall.locked = false)
    (hlow : (r.next host access).msrs.noirMshvHypercallCtrl.extractLsb' 32 32 = 0#32) :
    (r.next host access).Agrees :=
  ⟨h.guestOsId, h.hypercall, h.memory, hunlocked, hlow⟩

theorem Agrees.behaves_rdmsr (h : r.Agrees) (msr : MshvMsr) : r.Behaves host (.rdmsr msr) := by
  cases msr with
  | guestOsId =>
    refine ⟨fun msr hmsr => ?_, h.guestOsId, h.hypercall, rfl, h.memory⟩
    cases hmsr
    exact h.guestOsId
  | hypercall =>
    refine ⟨fun msr hmsr => ?_, h.guestOsId, h.hypercall, rfl, h.memory⟩
    cases hmsr
    exact h.hypercall

theorem disabled_value_eq_iff {t : Tlfs} :
    t.hypercall.value = t.disabled.hypercall.value ↔ t.hypercall.enable = false := by
  constructor
  · intro h
    rw [MshvMsrHypercall.enable, h]
    exact Tlfs.disabled_enable
  · intro h
    apply BitVec.eq_of_getLsbD_eq
    intro bit _
    by_cases hbit : bit = 0
    · rw [hbit]
      exact h.trans Tlfs.disabled_enable.symm
    · exact (Tlfs.disabled_bit hbit).symm

/-- An identity is stored as it is, and nothing is done about the page. -/
theorem Agrees.behaves_identity_iff (h : r.Agrees) :
    r.Behaves host (.wrmsr .guestOsId val) ↔ r.Permitted host (.wrmsr .guestOsId val) := by
  have henable : MshvMsrHypercall.enable ⟨r.msrs.noirMshvHypercallCtrl⟩ =
      r.tlfs.hypercall.enable := congrArg (fun value => MshvMsrHypercall.enable ⟨value⟩) h.hypercall
  by_cases hval : val = 0
  · subst hval
    constructor
    · intro hbehaves _
      rw [henable]
      exact disabled_value_eq_iff.mp (h.hypercall.symm.trans hbehaves.hypercall)
    · intro hpermitted
      have hkept := disabled_value_eq_iff.mpr (henable.symm.trans (hpermitted rfl))
      exact ⟨fun _ hmsr => (nomatch hmsr), rfl, h.hypercall.trans hkept, rfl, h.memory⟩
  · have hnext : r.tlfs.next (.wrmsr .guestOsId val) = { r.tlfs with guestOsId := val } :=
      if_neg hval
    constructor
    · exact fun _ hzero => absurd hzero hval
    · intro _
      refine ⟨fun _ hmsr => (nomatch hmsr), ?_, ?_, rfl, ?_⟩
      · rw [hnext]; rfl
      · rw [hnext]; exact h.hypercall
      · rw [hnext]; exact h.memory

/-- An interface with an identity takes every value. -/
theorem Agrees.accepts (h : r.Agrees) (hid : r.msrs.noirMshvGuestOsId ≠ 0) : r.tlfs.Accepts :=
  ⟨fun hzero => hid (h.guestOsId.trans hzero), h.unlocked⟩

theorem Agrees.next_hypercall (h : r.Agrees) (hid : r.msrs.noirMshvGuestOsId ≠ 0) :
    (r.tlfs.next (.wrmsr .hypercall val)) = r.tlfs.accept val :=
  if_pos (h.accepts hid)

theorem Agrees.page_of_enable (h : r.Agrees) (hid : r.msrs.noirMshvGuestOsId ≠ 0)
    (henable : MshvMsrHypercall.enable ⟨val⟩ = true) :
    r.tlfs.page (.wrmsr .hypercall val) = some (MshvMsrHypercall.hypercallGpfn ⟨val⟩) :=
  if_pos ⟨h.accepts hid, henable⟩

theorem page_of_not_enable (henable : MshvMsrHypercall.enable ⟨val⟩ = false) :
    r.tlfs.page (.wrmsr .hypercall val) = none :=
  if_neg fun h => by simp [henable] at h

theorem accept_memory_of_page {t : Tlfs} {frame : BitVec 52}
    (h : t.page (.wrmsr .hypercall val) = some frame) :
    (t.accept val).memory = Function.update t.memory frame hypercallPage := by
  rw [Tlfs.accept, h]

theorem accept_memory_of_no_page {t : Tlfs} (h : t.page (.wrmsr .hypercall val) = none) :
    (t.accept val).memory = t.memory := by
  rw [Tlfs.accept, h]

theorem Agrees.behaves_of_storable (h : r.Agrees) (hid : r.msrs.noirMshvGuestOsId ≠ 0)
    (hval : Storable host val) : r.Behaves host (.wrmsr .hypercall val) := by
  have hxchg : noirLockedXchg r.msrs.noirMshvHypercallCtrl val = val :=
    (noirLockedXchg_eq_iff h.low).mpr hval.low
  have hhandle := MshvMsrs.handle_of_unlocked host hid hval.unlocked
  have hnext : r.tlfs.next (.wrmsr .hypercall val) = _ := h.next_hypercall hid
  cases henable : MshvMsrHypercall.enable ⟨val⟩ with
  | true =>
    have hpage := h.page_of_enable hid henable
    have hmapped : host.frameOf (MshvMsrs.hypercallVa host val) = _ := hval.mapped henable
    dsimp only at hhandle
    rw [if_pos henable] at hhandle
    refine ⟨fun _ hmsr => (nomatch hmsr), ?_, ?_, ?_, ?_⟩
    · rw [hhandle, hnext, MshvMsrs.fill_noirMshvGuestOsId]
      exact h.guestOsId
    · rw [hhandle, hnext, MshvMsrs.fill_noirMshvHypercallCtrl]
      exact hxchg
    · rw [hhandle, hpage]
      exact congrArg some hmapped
    · rw [hhandle, hnext, MshvMsrs.fill_memory hmapped, accept_memory_of_page hpage]
      exact congrArg (Function.update · _ _) h.memory
  | false =>
    have hpage : r.tlfs.page (.wrmsr .hypercall val) = none := page_of_not_enable henable
    have hdisabled : ¬MshvMsrHypercall.enable ⟨val⟩ = true := by simp [henable]
    dsimp only at hhandle
    rw [if_neg hdisabled] at hhandle
    refine ⟨fun _ hmsr => (nomatch hmsr), ?_, ?_, ?_, ?_⟩
    · rw [hhandle, hnext]
      exact h.guestOsId
    · rw [hhandle, hnext]
      exact hxchg
    · rw [hhandle, hpage]
      rfl
    · rw [hhandle, hnext, accept_memory_of_no_page hpage]
      exact h.memory

/-- A locked value should have been taken, and is not. -/
theorem Agrees.not_behaves_of_locked (h : r.Agrees) (hid : r.msrs.noirMshvGuestOsId ≠ 0)
    (hlocked : MshvMsrHypercall.locked ⟨val⟩ = true) : ¬r.Behaves host (.wrmsr .hypercall val) := by
  intro hbehaves
  have hctrl := hbehaves.hypercall
  rw [MshvMsrs.handle_of_locked hlocked, h.next_hypercall hid] at hctrl
  have hvalue : r.tlfs.hypercall.value = val := h.hypercall.symm.trans hctrl
  have hsame : r.tlfs.hypercall.locked = MshvMsrHypercall.locked ⟨val⟩ :=
    congrArg (fun value => MshvMsrHypercall.locked ⟨value⟩) hvalue
  rw [h.unlocked, hlocked] at hsame
  cases hsame

theorem Agrees.storable_of_behaves (h : r.Agrees) (hid : r.msrs.noirMshvGuestOsId ≠ 0)
    (hbehaves : r.Behaves host (.wrmsr .hypercall val)) : Storable host val := by
  have hlocked : MshvMsrHypercall.locked ⟨val⟩ = false :=
    Bool.eq_false_iff.mpr fun hlocked => h.not_behaves_of_locked hid hlocked hbehaves
  have hhandle := MshvMsrs.handle_of_unlocked host hid hlocked
  have hctrl : noirLockedXchg r.msrs.noirMshvHypercallCtrl val = val := by
    have hctrl := hbehaves.hypercall
    rw [hhandle, h.next_hypercall hid] at hctrl
    dsimp only at hctrl
    split at hctrl
    · rw [MshvMsrs.fill_noirMshvHypercallCtrl] at hctrl
      exact hctrl
    · exact hctrl
  refine ⟨hlocked, (noirLockedXchg_eq_iff h.low).mp hctrl, fun henable => ?_⟩
  have hpage := hbehaves.page
  dsimp only at hhandle
  rw [hhandle, if_pos henable, h.page_of_enable hid henable] at hpage
  exact Option.some.inj hpage

theorem Agrees.behaves_of_no_identity (h : r.Agrees) (hid : r.msrs.noirMshvGuestOsId = 0) :
    r.Behaves host (.wrmsr .hypercall val) := by
  have hrefused : ¬r.tlfs.Accepts := fun haccepts => haccepts.1 (h.guestOsId.symm.trans hid)
  have hhandle := MshvMsrs.handle_of_no_identity host val hid
  have hnext : r.tlfs.next (.wrmsr .hypercall val) = r.tlfs := if_neg hrefused
  have hpage : r.tlfs.page (.wrmsr .hypercall val) = none := if_neg fun hall => hrefused hall.1
  refine ⟨fun _ hmsr => (nomatch hmsr), ?_, ?_, ?_, ?_⟩
  · rw [hhandle, hnext]
    exact h.guestOsId
  · rw [hhandle, hnext]
    exact h.hypercall
  · rw [hhandle, hpage]
    rfl
  · rw [hhandle, hnext]
    exact h.memory

theorem Agrees.behaves_hypercall_iff (h : r.Agrees) :
    r.Behaves host (.wrmsr .hypercall val) ↔ r.Permitted host (.wrmsr .hypercall val) := by
  constructor
  · exact fun hbehaves hid => h.storable_of_behaves hid hbehaves
  · intro hpermitted
    by_cases hid : r.msrs.noirMshvGuestOsId = 0
    · exact h.behaves_of_no_identity hid
    · exact h.behaves_of_storable hid (hpermitted hid)

theorem Agrees.behaves_iff (h : r.Agrees) (access : MshvAccess) :
    r.Behaves host access ↔ r.Permitted host access := by
  match access with
  | .rdmsr msr => exact ⟨fun _ => trivial, fun _ => h.behaves_rdmsr msr⟩
  | .wrmsr .guestOsId _ => exact h.behaves_identity_iff
  | .wrmsr .hypercall _ => exact h.behaves_hypercall_iff

/-- What is permitted neither locks the register nor fills its upper half. -/
theorem Agrees.next (h : r.Agrees) {access : MshvAccess} (hpermitted : r.Permitted host access) :
    (r.next host access).Agrees := by
  have hbehaves := (h.behaves_iff access).mpr hpermitted
  match access with
  | .rdmsr .guestOsId => exact hbehaves.next_agrees h.unlocked h.low
  | .rdmsr .hypercall => exact hbehaves.next_agrees h.unlocked h.low
  | .wrmsr .guestOsId val =>
    refine hbehaves.next_agrees ?_ h.low
    by_cases hval : val = 0
    · rw [Tlfs.next, if_pos hval]
      exact (Tlfs.disabled_bit Nat.one_ne_zero).trans h.unlocked
    · rw [Tlfs.next, if_neg hval]
      exact h.unlocked
  | .wrmsr .hypercall val =>
    by_cases hid : r.msrs.noirMshvGuestOsId = 0
    · have hrefused : ¬r.tlfs.Accepts := fun haccepts => haccepts.1 (h.guestOsId.symm.trans hid)
      refine hbehaves.next_agrees ?_ ?_
      · rw [Tlfs.next, if_neg hrefused]
        exact h.unlocked
      · rw [MshvRun.next, MshvMsrs.handle_of_no_identity host val hid]
        exact h.low
    · have hval := hpermitted hid
      have hctrl := hbehaves.hypercall
      rw [h.next_hypercall hid] at hctrl
      refine hbehaves.next_agrees ?_ ?_
      · rw [h.next_hypercall hid]
        exact hval.unlocked
      · change (r.msrs.handle host _).msrs.noirMshvHypercallCtrl.extractLsb' 32 32 = _
        rw [hctrl]
        exact hval.low

theorem initial_agrees (memory : GuestFrames) : (initial memory).Agrees :=
  ⟨rfl, rfl, rfl, by simp [initial, MshvMsrHypercall.locked], by simp [initial]⟩

/-- The registers are what the interface describes as long as no value of the hypercall register
has a lock or an upper half, every page that is asked for is in RAM, and no identity is taken from a
page in use. -/
theorem servesAlong_iff (host : HostMapping) (memory : GuestFrames) (accesses : List MshvAccess) :
    Along (Behaves host) (MshvRun.next host) (initial memory) accesses ↔
      Along (Permitted host) (MshvRun.next host) (initial memory) accesses := by
  have hpossible : Along (fun _ _ => True) (MshvRun.next host) (initial memory) accesses :=
    along_of_forall fun _ _ => trivial
  exact along_iff (I := Agrees) (fun r access h _ => h.behaves_iff access)
    (fun r access h _ hpermitted => h.next hpermitted) (initial_agrees memory) hpossible

/-- An identity, and a value that has its lock set. -/
def lockingAccesses : List MshvAccess := [.wrmsr .guestOsId 1, .wrmsr .hypercall 2]

theorem not_forall_serves :
    ¬∀ (host : HostMapping) (memory : GuestFrames) (accesses : List MshvAccess),
      Along (Behaves host) (MshvRun.next host) (initial memory) accesses := by
  intro h
  let host : HostMapping := ⟨id, fun va => some (va.extractLsb' 12 52)⟩
  obtain ⟨_, hlocking, _⟩ := h host (fun _ _ => 0) lockingAccesses
  have hidentity : (initial fun _ _ => 0).Permitted host (.wrmsr .guestOsId 1) :=
    fun hzero => absurd hzero (by decide)
  have hagrees := (initial_agrees _).next hidentity
  have hid : (1 : BitVec 64) ≠ 0 := by decide
  exact hagrees.not_behaves_of_locked hid (by decide) hlocking

end MshvRun

end NoirVisor
