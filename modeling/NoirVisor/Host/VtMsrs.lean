import NoirVisor.Host.Msrs
import NoirVisor.Host.VtHost

/-!
# The MSRs of the subverted host on VT

The handlers of `rdmsr` and `wrmsr` on VT (`vt_core/vt_exit.c`). A value that is written goes to the
processor after whatever the handler has done with it, and the instruction is skipped after a fault.
LSTAR is switched by the processor between the host and the hypervisor, and hooked on the way.
-/

namespace NoirVisor

open Transition

def ia32BiosUpdtTrig : BitVec 32 := 0x79
def ia32Lstar : BitVec 32 := 0xC0000082
def ia32Cr0Cd : Nat := 30

/-- The MSRs of MTRRs that have a case. -/
def mtrrCases : List (BitVec 32) :=
  [0x200, 0x201, 0x202, 0x203, 0x204, 0x205, 0x206, 0x207, 0x208, 0x209, 0x20A, 0x20B, 0x20C, 0x20D,
    0x20E, 0x20F, 0x210, 0x211, 0x212, 0x213, 0x250, 0x258, 0x259, 0x268, 0x269, 0x26A, 0x26B, 0x26C,
    0x26D, 0x26E, 0x26F, 0x2FF]

/-- The capabilities of VMX that have a case. The one of EPT and VPID at `0x48C` has none. -/
def vmxCases : List (BitVec 32) :=
  [0x480, 0x481, 0x482, 0x483, 0x484, 0x485, 0x486, 0x487, 0x488, 0x489, 0x48A, 0x48B, 0x48D, 0x48E,
    0x48F, 0x490, 0x491]

/-- The capabilities that there are, from `ia32_vmx_basic` to `ia32_vmx_3rdproc_ctrl`. -/
def isVmxCapability (index : BitVec 32) : Bool := 0x480 ≤ index && index ≤ 0x492

/-- How the hypervisor is built and set up, and what the processor takes from it. A breakpoint in the
hypervisor may have somebody who goes on after it. -/
structure VtMsrHost where
  hvType1 : Bool
  stealthMsrHook : Bool
  tlfsPassthrough : Bool
  cpuidHvPresence : Bool
  noirSystemCall : BitVec 64
  origSystemCall : BitVec 64
  mapping : HostMapping
  breakpoint : Bool
  readable : BitVec 32 → Bool
  takes : BitVec 32 → BitVec 64 → Bool

def VtMsrHost.hooked (h : VtMsrHost) : Bool := !h.hvType1 && h.stealthMsrHook

/-- A write, of the processor's MSR or of the variable that stands for it, with the value that is there
afterwards. -/
inductive MsrStore where
  | physical (index : BitVec 32) (val : BitVec 64)
  | virtual (index : BitVec 32) (val : BitVec 64)
deriving DecidableEq

/-- `entryLoad` and `exitStore` are the values in the lists of LSTAR. `stores` has the writes since the
exit. -/
structure VtMsrVcpu where
  vmcs : VtHostVmcs
  msrs : BitVec 32 → BitVec 64
  entryLoad : BitVec 64
  exitStore : BitVec 64
  virtualLstar : BitVec 64
  mtrrDirty : Bool
  eptUpdates : Nat
  vpIndex : BitVec 64
  npiepConfig : BitVec 64
  mshv : MshvMsrs
  stores : List MsrStore

/-- An exit for `rdmsr` or `wrmsr`. `vmcs` is what the processor leaves, with no event and with the
length of the instruction, and `stack` what a variable has before it is assigned. -/
structure VtMsrExit where
  vmcs : VtHostVmcs
  quiet : vmcs.Quiet
  skips : vmcs.advancedRip ≠ vmcs.vmread (.guest .rip)
  write : Bool
  gpr : BitVec 4 → BitVec 64
  stack : BitVec 64

namespace VtMsrExit

variable (e : VtMsrExit)

def index : BitVec 32 := (e.gpr 1).setWidth 32

def value : BitVec 64 := (e.gpr 2).setWidth 32 ++ (e.gpr 0).setWidth 32

end VtMsrExit

/-- What the host goes on with. -/
structure VtMsrLeft where
  vcpu : VtMsrVcpu
  gpr : BitVec 4 → BitVec 64

/-- The registers after a value was put into them. Their higher halves are cleared. -/
def loadedGpr (gpr : BitVec 4 → BitVec 64) (val : BitVec 64) : BitVec 4 → BitVec 64 :=
  Function.update (Function.update gpr 0 ((val.setWidth 32).setWidth 64)) 2 ((val >>> 32).setWidth 64)

namespace VtMsrVcpu

variable (h : VtMsrHost) (v : VtMsrVcpu) (index : BitVec 32) (val : BitVec 64)

def injectGp : VtMsrVcpu := { v with vmcs := v.vmcs.injectGp }

def advanceRip : VtMsrVcpu := { v with vmcs := v.vmcs.noirVtAdvanceRip }

/-- None if the processor raises an exception, which nobody handles. -/
def noirRdmsr : Option (BitVec 64) := if h.readable index then some (v.msrs index) else none

def noirWrmsr : Option VtMsrVcpu :=
  if h.takes index val then
    some { v with
      msrs := Function.update v.msrs index val
      stores := v.stores ++ [.physical index val] }
  else none

def nvcMshvRdmsrHandler : HostSyntheticMsr → BitVec 64
  | .mshv msr => (v.mshv.handle h.mapping (.rdmsr msr)).value
  | .vpIndex => v.vpIndex
  | .npiepConfig => v.npiepConfig
  | _ => 0

/-- None if the hypercall page is not mapped. -/
def nvcMshvWrmsrHandler : HostSyntheticMsr → Option VtMsrVcpu
  | .mshv .guestOsId =>
    some { v with
      mshv := (v.mshv.handle h.mapping (.wrmsr .guestOsId val)).msrs
      stores := v.stores ++ [.virtual index val] }
  | .mshv .hypercall =>
    let outcome := v.mshv.handle h.mapping (.wrmsr .hypercall val)
    if outcome.page.all fun va => (h.mapping.frameOf va).isSome then
      some { v with
        mshv := outcome.msrs
        stores := v.stores ++
          if v.mshv.noirMshvGuestOsId ≠ 0 ∧ MshvMsrHypercall.locked ⟨val⟩ = false then
            [.virtual index outcome.msrs.noirMshvHypercallCtrl] else [] }
    else none
  | .npiepConfig =>
    some { v with npiepConfig := val, stores := v.stores ++ [.virtual index val] }
  | _ => some v

/-- `exit_store->data` without the hook. -/
def shownLstar : BitVec 64 := if v.exitStore = h.noirSystemCall then h.origSystemCall else v.exitStore

def rdmsrDefault : Option (BitVec 64) := if h.breakpoint then v.noirRdmsr h index else none

/-- A handler that has found a value, with whether the instruction is skipped. -/
structure Read where
  vcpu : VtMsrVcpu
  val : BitVec 64
  advance : Bool

/-- The case of the capabilities does not break, and goes on with that of LSTAR. In type 1 the next one
is the default case. -/
def rdmsrCases : Option Read :=
  if index ∈ vmxCases then
    (if h.hvType1 then v.rdmsrDefault h index else some (v.shownLstar h)).map
      fun val => ⟨v.injectGp, val, false⟩
  else if index = ia32Lstar ∧ h.hvType1 = false then some ⟨v, v.shownLstar h, true⟩
  else (v.rdmsrDefault h index).map fun val => ⟨v, val, true⟩

def rdmsrFound (e : VtMsrExit) : Option Read :=
  if noirIsSyntheticMsr e.index then
    if h.tlfsPassthrough then (v.noirRdmsr h e.index).map fun val => ⟨v, val, true⟩
    else if h.cpuidHvPresence then
      some ⟨v, v.nvcMshvRdmsrHandler h (syntheticMsr e.index), true⟩
    else some ⟨v.injectGp, e.stack, true⟩
  else v.rdmsrCases h e.index

def nvcVtRdmsrHandler (e : VtMsrExit) : Option VtMsrLeft :=
  (v.rdmsrFound h e).map fun read =>
    ⟨if read.advance then read.vcpu.advanceRip else read.vcpu, loadedGpr e.gpr read.val⟩

/-- What a write of an MTRR means for the EPT waits for a cleared CR0.CD. -/
def mtrrWritten : VtMsrVcpu :=
  if (v.vmcs.vmread (.guest .cr0)).testBit ia32Cr0Cd then { v with mtrrDirty := true }
  else { v with eptUpdates := v.eptUpdates + 1 }

def wrmsrMtrr : Option VtMsrVcpu :=
  (v.noirRdmsr h index).bind fun oldMtrr =>
    if oldMtrr ≠ val then (v.noirWrmsr h index val).map mtrrWritten else some v

def wrmsrLstar : VtMsrVcpu :=
  { v with
    virtualLstar := val
    entryLoad := if val = h.origSystemCall then h.noirSystemCall else val
    stores := v.stores ++ [.virtual ia32Lstar val] }

def wrmsrCases : Option VtMsrVcpu :=
  if index = ia32BiosUpdtTrig then if h.hvType1 then some v else v.noirWrmsr h index val
  else if index ∈ mtrrCases then v.wrmsrMtrr h index val
  else if index = ia32Lstar ∧ h.hvType1 = false then some (v.wrmsrLstar h val)
  else some v

def nvcVtWrmsrHandler (e : VtMsrExit) : Option VtMsrLeft :=
  (if noirIsSyntheticMsr e.index then
    if h.tlfsPassthrough then v.noirWrmsr h e.index e.value
    else if h.cpuidHvPresence then v.nvcMshvWrmsrHandler h e.index e.value (syntheticMsr e.index)
    else some v.injectGp
  else
    (v.wrmsrCases h e.index e.value).bind fun v => v.noirWrmsr h e.index e.value).map
    fun v => ⟨v.advanceRip, e.gpr⟩

def handle (e : VtMsrExit) : Option VtMsrLeft :=
  if e.write then v.nvcVtWrmsrHandler h e else v.nvcVtRdmsrHandler h e

/-- What the MSR has for the host. -/
def shown : BitVec 64 :=
  if noirIsSyntheticMsr index then
    if h.tlfsPassthrough then v.msrs index else v.nvcMshvRdmsrHandler h (syntheticMsr index)
  else if index = ia32Lstar ∧ h.hvType1 = false then v.shownLstar h
  else v.msrs index

end VtMsrVcpu

section

variable (h : VtMsrHost) (v : VtMsrVcpu) (e : VtMsrExit) (left : VtMsrLeft)

structure VtMsrFaulted : Prop where
  raises : left.vcpu.vmcs.RaisesGp
  rip : left.vcpu.vmcs.vmread (.guest .rip) = e.vmcs.vmread (.guest .rip)
  gpr : left.gpr = e.gpr
  stores : left.vcpu.stores = []

structure VtMsrCompleted : Prop where
  quiet : left.vcpu.vmcs.Quiet
  rip : left.vcpu.vmcs.vmread (.guest .rip) = e.vmcs.advancedRip
  read : e.write = false → left.gpr = loadedGpr e.gpr (v.shown h e.index) ∧ left.vcpu.stores = []
  write : e.write = true → left.gpr = e.gpr ∧
    (left.vcpu.stores = [.physical e.index e.value] ∨ left.vcpu.stores = [.virtual e.index e.value])

/-- The exit of a handler that ends in exactly one of the two. A capability is not to be read. -/
def VtMsrBehaves : Prop :=
  ∃ left, v.handle h e = some left ∧ Xor (VtMsrFaulted e left) (VtMsrCompleted h v e left) ∧
    (e.write = false → isVmxCapability e.index = true → VtMsrFaulted e left)

end

/-! The exits that do. -/

section

variable (h : VtMsrHost) (v : VtMsrVcpu) (e : VtMsrExit)

/-- The values that go to a variable as they are. -/
def VtMsrVcpu.MshvTakes (val : BitVec 64) : HostSyntheticMsr → Prop
  | .mshv .guestOsId | .npiepConfig => True
  | .mshv .hypercall =>
    v.mshv.noirMshvGuestOsId ≠ 0 ∧ MshvMsrHypercall.locked ⟨val⟩ = false ∧
      v.mshv.noirMshvHypercallCtrl.extractLsb' 32 32 = val.extractLsb' 32 32 ∧
      (MshvMsrHypercall.enable ⟨val⟩ = true →
        (h.mapping.frameOf (MshvMsrs.hypercallVa h.mapping val)).isSome = true)
  | _ => False

/-- A fault of a capability is right if the registers have the value already that the case goes on to
put there. -/
def VtMsrServed : Prop :=
  if noirIsSyntheticMsr e.index then
    if h.tlfsPassthrough then
      if e.write then h.takes e.index e.value = true else h.readable e.index = true
    else h.cpuidHvPresence = true ∧
      (e.write = true → v.MshvTakes h e.value (syntheticMsr e.index))
  else if e.write then
    h.takes e.index e.value = true ∧
      (h.hvType1 = false → e.index ≠ ia32BiosUpdtTrig ∧ e.index ≠ ia32Lstar) ∧
      (e.index ∈ mtrrCases → h.readable e.index = true ∧ v.msrs e.index = e.value)
  else if e.index ∈ vmxCases then
    if h.hvType1 then
      (h.breakpoint = true ∧ h.readable e.index = true) ∧
        loadedGpr e.gpr (v.msrs e.index) = e.gpr
    else loadedGpr e.gpr (v.shownLstar h) = e.gpr
  else isVmxCapability e.index = false ∧
    (e.index = ia32Lstar ∧ h.hvType1 = false ∨ h.breakpoint = true ∧ h.readable e.index = true)

end

section

variable {h : VtMsrHost} {v w : VtMsrVcpu} {e : VtMsrExit} {left : VtMsrLeft} {val : BitVec 64}

theorem not_vtMsrBehaves_of_none (hnone : v.handle h e = none) : ¬VtMsrBehaves h v e := by
  rintro ⟨left, hleft, -⟩
  rw [hnone] at hleft
  cases hleft

/-- The instruction is skipped after a fault was injected. -/
theorem not_vtMsrBehaves_of_skipped {gpr : BitVec 4 → BitVec 64} (hvmcs : v.vmcs = e.vmcs)
    (hleft : v.handle h e = some ⟨v.injectGp.advanceRip, gpr⟩) : ¬VtMsrBehaves h v e := by
  rintro ⟨left, hsome, hxor, -⟩
  obtain rfl := Option.some.inj (hleft.symm.trans hsome)
  rcases hxor with ⟨hfault, -⟩ | ⟨hdone, -⟩
  · have hrip : v.vmcs.injectGp.noirVtAdvanceRip.vmread (.guest .rip) =
        e.vmcs.vmread (.guest .rip) := hfault.rip
    rw [VtHostVmcs.vmread_rip_noirVtAdvanceRip, VtHostVmcs.advancedRip_injectGp, hvmcs] at hrip
    exact e.skips hrip
  · have hquiet : v.vmcs.injectGp.noirVtAdvanceRip.Quiet := hdone.quiet
    rw [VtHostVmcs.quiet_noirVtAdvanceRip] at hquiet
    exact VtHostVmcs.raisesGp_injectGp.not_quiet hquiet

/-- An instruction that is skipped has not faulted. -/
theorem not_faulted_advanceRip {gpr : BitVec 4 → BitVec 64} (hvmcs : v.vmcs = e.vmcs) :
    ¬VtMsrFaulted e ⟨v.advanceRip, gpr⟩ := by
  intro hfault
  have hquiet : v.vmcs.noirVtAdvanceRip.Quiet := by
    rw [VtHostVmcs.quiet_noirVtAdvanceRip, hvmcs]
    exact e.quiet
  exact hfault.raises.not_quiet hquiet

theorem completed_advanceRip_iff {gpr : BitVec 4 → BitVec 64} (hvmcs : w.vmcs = e.vmcs) :
    VtMsrCompleted h v e ⟨w.advanceRip, gpr⟩ ↔
      (e.write = false → gpr = loadedGpr e.gpr (v.shown h e.index) ∧ w.stores = []) ∧
        (e.write = true → gpr = e.gpr ∧
          (w.stores = [.physical e.index e.value] ∨ w.stores = [.virtual e.index e.value])) := by
  constructor
  · exact fun hdone => ⟨hdone.read, hdone.write⟩
  · rintro ⟨hread, hwrite⟩
    refine ⟨?_, ?_, hread, hwrite⟩
    · change w.vmcs.noirVtAdvanceRip.Quiet
      rw [VtHostVmcs.quiet_noirVtAdvanceRip, hvmcs]
      exact e.quiet
    · change w.vmcs.noirVtAdvanceRip.vmread (.guest .rip) = _
      rw [VtHostVmcs.vmread_rip_noirVtAdvanceRip, hvmcs]

theorem vtMsrBehaves_iff_of_some (hleft : v.handle h e = some left) :
    VtMsrBehaves h v e ↔ Xor (VtMsrFaulted e left) (VtMsrCompleted h v e left) ∧
      (e.write = false → isVmxCapability e.index = true → VtMsrFaulted e left) := by
  constructor
  · rintro ⟨left', hleft', hbehaves⟩
    obtain rfl := Option.some.inj (hleft.symm.trans hleft')
    exact hbehaves
  · exact fun hbehaves => ⟨left, hleft, hbehaves⟩

/-- A value was found. -/
theorem vtMsrBehaves_of_read (hread : e.write = false) (hvmcs : v.vmcs = e.vmcs)
    (hstores : v.stores = [])
    (hleft : v.handle h e = some ⟨v.advanceRip, loadedGpr e.gpr (v.shown h e.index)⟩) :
    VtMsrBehaves h v e ↔ isVmxCapability e.index = false := by
  have hfault : ¬VtMsrFaulted e ⟨v.advanceRip, loadedGpr e.gpr (v.shown h e.index)⟩ :=
    not_faulted_advanceRip hvmcs
  have hdone : VtMsrCompleted h v e ⟨v.advanceRip, loadedGpr e.gpr (v.shown h e.index)⟩ :=
    (completed_advanceRip_iff hvmcs).mpr
      ⟨fun _ => ⟨rfl, hstores⟩, fun hwrite => absurd (hread.symm.trans hwrite) Bool.false_ne_true⟩
  rw [vtMsrBehaves_iff_of_some hleft]
  constructor
  · rintro ⟨-, hcapability⟩
    exact Bool.eq_false_iff.mpr fun hindex => hfault (hcapability hread hindex)
  · intro hindex
    refine ⟨.inr ⟨hdone, hfault⟩, fun _ hcapability => ?_⟩
    exact absurd (hindex.symm.trans hcapability) Bool.false_ne_true

/-- A fault was injected, and a value went to the registers. -/
theorem vtMsrBehaves_of_fault (hvmcs : v.vmcs = e.vmcs) (hstores : v.stores = [])
    (hleft : v.handle h e = some ⟨v.injectGp, loadedGpr e.gpr val⟩) :
    VtMsrBehaves h v e ↔ loadedGpr e.gpr val = e.gpr := by
  rw [vtMsrBehaves_iff_of_some hleft]
  have hdone : ¬VtMsrCompleted h v e ⟨v.injectGp, loadedGpr e.gpr val⟩ := fun hdone =>
    VtHostVmcs.raisesGp_injectGp.not_quiet hdone.quiet
  constructor
  · rintro ⟨⟨hfault, -⟩ | ⟨hdone', -⟩, -⟩
    · exact hfault.gpr
    · exact absurd hdone' hdone
  · intro hgpr
    have hfault : VtMsrFaulted e ⟨v.injectGp, loadedGpr e.gpr val⟩ := by
      refine ⟨VtHostVmcs.raisesGp_injectGp, ?_, hgpr, hstores⟩
      change v.vmcs.injectGp.vmread (.guest .rip) = _
      rw [VtHostVmcs.vmread_guest_injectGp, hvmcs]
    exact ⟨.inl ⟨hfault, hdone⟩, fun _ _ => hfault⟩

theorem vtMsrBehaves_of_write (hwrite : e.write = true) (hvmcs : w.vmcs = e.vmcs)
    (hleft : v.handle h e = some ⟨w.advanceRip, e.gpr⟩) :
    VtMsrBehaves h v e ↔
      w.stores = [.physical e.index e.value] ∨ w.stores = [.virtual e.index e.value] := by
  have hfault : ¬VtMsrFaulted e ⟨w.advanceRip, e.gpr⟩ := not_faulted_advanceRip hvmcs
  rw [vtMsrBehaves_iff_of_some hleft]
  constructor
  · rintro ⟨⟨hfault', -⟩ | ⟨hdone, -⟩, -⟩
    · exact absurd hfault' hfault
    · exact (hdone.write hwrite).2
  · intro hstores
    have hread : ¬e.write = false := fun hread => Bool.false_ne_true (hread.symm.trans hwrite)
    have hdone : VtMsrCompleted h v e ⟨w.advanceRip, e.gpr⟩ := (completed_advanceRip_iff hvmcs).mpr
      ⟨fun h => absurd h hread, fun _ => ⟨rfl, hstores⟩⟩
    exact ⟨.inr ⟨hdone, hfault⟩, fun h => absurd h hread⟩

theorem isVmxCapability_of_synthetic {index : BitVec 32} (hsynthetic : noirIsSyntheticMsr index = true) :
    isVmxCapability index = false := by
  have hhigh : index.toNat / 2 ^ 30 = 1 := by
    have hshift := congrArg BitVec.toNat (beq_iff_eq.mp hsynthetic)
    rwa [BitVec.toNat_ushiftRight, Nat.shiftRight_eq_div_pow] at hshift
  unfold isVmxCapability
  rw [Bool.and_eq_false_iff]
  refine .inr (decide_eq_false fun hle => ?_)
  have hlow : index.toNat ≤ 0x492 := hle
  omega

theorem handle_of_found {read : VtMsrVcpu.Read} (hread : e.write = false)
    (hfound : v.rdmsrFound h e = some read) :
    v.handle h e = some ⟨if read.advance then read.vcpu.advanceRip else read.vcpu,
      loadedGpr e.gpr read.val⟩ := by
  rw [VtMsrVcpu.handle, if_neg (by rw [hread]; exact Bool.false_ne_true),
    VtMsrVcpu.nvcVtRdmsrHandler, hfound, Option.map_some]

theorem handle_of_not_found (hread : e.write = false) (hfound : v.rdmsrFound h e = none) :
    v.handle h e = none := by
  rw [VtMsrVcpu.handle, if_neg (by rw [hread]; exact Bool.false_ne_true),
    VtMsrVcpu.nvcVtRdmsrHandler, hfound, Option.map_none]

theorem rdmsrDefault_eq_some {index : BitVec 32} (hreadable : h.breakpoint = true ∧ h.readable index = true) :
    v.rdmsrDefault h index = some (v.msrs index) := by
  rw [VtMsrVcpu.rdmsrDefault, if_pos hreadable.1, VtMsrVcpu.noirRdmsr, if_pos hreadable.2]

theorem rdmsrDefault_eq_none {index : BitVec 32}
    (hreadable : ¬(h.breakpoint = true ∧ h.readable index = true)) :
    v.rdmsrDefault h index = none := by
  unfold VtMsrVcpu.rdmsrDefault VtMsrVcpu.noirRdmsr
  split_ifs with hbreakpoint hread
  · exact absurd ⟨hbreakpoint, hread⟩ hreadable
  · rfl
  · rfl

/-- The synthetic MSRs, of which none is a capability. -/
theorem vtMsrBehaves_synthetic_read (hread : e.write = false) (hvmcs : v.vmcs = e.vmcs)
    (hstores : v.stores = []) (hsynthetic : noirIsSyntheticMsr e.index = true) :
    VtMsrBehaves h v e ↔
      if h.tlfsPassthrough then h.readable e.index = true else h.cpuidHvPresence = true := by
  have hfound : v.rdmsrFound h e = if h.tlfsPassthrough then
      (v.noirRdmsr h e.index).map fun val => ⟨v, val, true⟩
    else if h.cpuidHvPresence then some ⟨v, v.nvcMshvRdmsrHandler h (syntheticMsr e.index), true⟩
    else some ⟨v.injectGp, e.stack, true⟩ := if_pos hsynthetic
  have hshown : v.shown h e.index = if h.tlfsPassthrough then v.msrs e.index
    else v.nvcMshvRdmsrHandler h (syntheticMsr e.index) := if_pos hsynthetic
  have hplain := isVmxCapability_of_synthetic hsynthetic
  by_cases htlfs : h.tlfsPassthrough = true
  · rw [if_pos htlfs] at hfound hshown ⊢
    by_cases hreadable : h.readable e.index = true
    · rw [VtMsrVcpu.noirRdmsr, if_pos hreadable, Option.map_some, ← hshown] at hfound
      rw [vtMsrBehaves_of_read hread hvmcs hstores (handle_of_found hread hfound)]
      exact iff_of_true hplain hreadable
    · rw [VtMsrVcpu.noirRdmsr, if_neg hreadable, Option.map_none] at hfound
      exact iff_of_false (not_vtMsrBehaves_of_none (handle_of_not_found hread hfound)) hreadable
  · rw [if_neg htlfs] at hfound hshown ⊢
    by_cases hpresence : h.cpuidHvPresence = true
    · rw [if_pos hpresence, ← hshown] at hfound
      rw [vtMsrBehaves_of_read hread hvmcs hstores (handle_of_found hread hfound)]
      exact iff_of_true hplain hpresence
    · rw [if_neg hpresence] at hfound
      exact iff_of_false (not_vtMsrBehaves_of_skipped hvmcs (handle_of_found hread hfound)) hpresence

theorem vtMsrBehaves_read (hread : e.write = false) (hvmcs : v.vmcs = e.vmcs)
    (hstores : v.stores = []) : VtMsrBehaves h v e ↔ VtMsrServed h v e := by
  have hwrite : ¬e.write = true := fun hwrite => Bool.false_ne_true (hread.symm.trans hwrite)
  unfold VtMsrServed
  by_cases hsynthetic : noirIsSyntheticMsr e.index = true
  · rw [if_pos hsynthetic, if_neg hwrite, vtMsrBehaves_synthetic_read hread hvmcs hstores hsynthetic]
    simp [hread]
  have hcases : v.rdmsrFound h e = v.rdmsrCases h e.index := if_neg hsynthetic
  rw [if_neg hsynthetic, if_neg hwrite]
  unfold VtMsrVcpu.rdmsrCases at hcases
  by_cases hmem : e.index ∈ vmxCases
  · rw [if_pos hmem] at hcases ⊢
    by_cases htype : h.hvType1 = true
    · rw [if_pos htype] at hcases ⊢
      by_cases hreadable : h.breakpoint = true ∧ h.readable e.index = true
      · rw [rdmsrDefault_eq_some hreadable, Option.map_some] at hcases
        rw [vtMsrBehaves_of_fault hvmcs hstores (handle_of_found hread hcases)]
        exact (and_iff_right hreadable).symm
      · rw [rdmsrDefault_eq_none hreadable, Option.map_none] at hcases
        exact iff_of_false (not_vtMsrBehaves_of_none (handle_of_not_found hread hcases))
          fun hserved => hreadable hserved.1
    · rw [if_neg htype, Option.map_some] at hcases
      rw [if_neg htype]
      exact vtMsrBehaves_of_fault hvmcs hstores (handle_of_found hread hcases)
  rw [if_neg hmem] at hcases ⊢
  by_cases hlstar : e.index = ia32Lstar ∧ h.hvType1 = false
  · have hshown : v.shown h e.index = v.shownLstar h := by
      rw [VtMsrVcpu.shown, if_neg hsynthetic, if_pos hlstar]
    rw [if_pos hlstar, ← hshown] at hcases
    rw [vtMsrBehaves_of_read hread hvmcs hstores (handle_of_found hread hcases)]
    exact (and_iff_left (.inl hlstar)).symm
  · have hshown : v.shown h e.index = v.msrs e.index := by
      rw [VtMsrVcpu.shown, if_neg hsynthetic, if_neg hlstar]
    rw [if_neg hlstar] at hcases
    by_cases hreadable : h.breakpoint = true ∧ h.readable e.index = true
    · rw [rdmsrDefault_eq_some hreadable, Option.map_some, ← hshown] at hcases
      rw [vtMsrBehaves_of_read hread hvmcs hstores (handle_of_found hread hcases)]
      exact (and_iff_left (.inr hreadable)).symm
    · rw [rdmsrDefault_eq_none hreadable, Option.map_none] at hcases
      refine iff_of_false (not_vtMsrBehaves_of_none (handle_of_not_found hread hcases)) ?_
      rintro ⟨-, hserved | hserved⟩
      · exact hlstar hserved
      · exact hreadable hserved

/-! The writes. -/

theorem handle_of_write (hwrite : e.write = true) : v.handle h e = v.nvcVtWrmsrHandler h e :=
  if_pos hwrite

theorem noirWrmsr_eq_some {index : BitVec 32} (htakes : h.takes index val = true) :
    v.noirWrmsr h index val = some { v with
      msrs := Function.update v.msrs index val
      stores := v.stores ++ [.physical index val] } := if_pos htakes

theorem noirWrmsr_eq_none {index : BitVec 32} (htakes : ¬h.takes index val = true) :
    v.noirWrmsr h index val = none := if_neg htakes

/-- Half of the register is exchanged, if it is neither locked nor without an identity. -/
theorem vtMsrBehaves_hypercall (hwrite : e.write = true) (hvmcs : v.vmcs = e.vmcs)
    (hstores : v.stores = [])
    (hhandle : v.handle h e = (v.nvcMshvWrmsrHandler h e.index e.value (.mshv .hypercall)).map
      fun v => ⟨v.advanceRip, e.gpr⟩) :
    VtMsrBehaves h v e ↔ v.MshvTakes h e.value (.mshv .hypercall) := by
  unfold VtMsrVcpu.nvcMshvWrmsrHandler at hhandle
  dsimp only at hhandle
  by_cases haccepted : v.mshv.noirMshvGuestOsId ≠ 0 ∧ MshvMsrHypercall.locked ⟨e.value⟩ = false
  · obtain ⟨hid, hlocked⟩ := id haccepted
    rw [if_pos haccepted, MshvMsrs.handle_of_unlocked h.mapping hid hlocked] at hhandle
    have hxchg : [MsrStore.virtual e.index (noirLockedXchg v.mshv.noirMshvHypercallCtrl e.value)] =
          [.physical e.index e.value] ∨
        [MsrStore.virtual e.index (noirLockedXchg v.mshv.noirMshvHypercallCtrl e.value)] =
          [.virtual e.index e.value] ↔
        v.mshv.noirMshvHypercallCtrl.extractLsb' 32 32 = e.value.extractLsb' 32 32 := by
      simp [noirLockedXchg_eq_value_iff]
    unfold VtMsrVcpu.MshvTakes
    cases henable : MshvMsrHypercall.enable ⟨e.value⟩ with
    | false =>
        simp only [henable, Bool.false_eq_true, if_false, Option.all_none, if_true,
          Option.map_some] at hhandle
        rw [vtMsrBehaves_of_write hwrite (by exact hvmcs) hhandle, hstores, List.nil_append, hxchg]
        exact ⟨fun hsame => ⟨hid, hlocked, hsame, nofun⟩, fun htakes => htakes.2.2.1⟩
    | true =>
        simp only [henable, if_true, Option.all_some] at hhandle
        cases hframe : (h.mapping.frameOf (MshvMsrs.hypercallVa h.mapping e.value)).isSome with
        | false =>
            rw [hframe, if_neg Bool.false_ne_true, Option.map_none] at hhandle
            refine iff_of_false (not_vtMsrBehaves_of_none hhandle) fun htakes => ?_
            exact Bool.false_ne_true (htakes.2.2.2 rfl)
        | true =>
            rw [hframe, if_pos rfl, Option.map_some] at hhandle
            rw [vtMsrBehaves_of_write hwrite (by exact hvmcs) hhandle, hstores, List.nil_append,
              MshvMsrs.fill_noirMshvHypercallCtrl, hxchg]
            exact ⟨fun hsame => ⟨hid, hlocked, hsame, fun _ => rfl⟩, fun htakes => htakes.2.2.1⟩
  · rw [if_neg haccepted] at hhandle
    refine iff_of_false ?_ fun htakes => haccepted ⟨htakes.1, htakes.2.1⟩
    split at hhandle
    · rw [Option.map_some] at hhandle
      rw [vtMsrBehaves_of_write hwrite (by exact hvmcs) hhandle, hstores]
      simp
    · exact not_vtMsrBehaves_of_none hhandle

theorem vtMsrBehaves_mshv (hwrite : e.write = true) (hvmcs : v.vmcs = e.vmcs)
    (hstores : v.stores = []) {msr : HostSyntheticMsr}
    (hhandle : v.handle h e =
      (v.nvcMshvWrmsrHandler h e.index e.value msr).map fun v => ⟨v.advanceRip, e.gpr⟩) :
    VtMsrBehaves h v e ↔ v.MshvTakes h e.value msr := by
  have hdropped : v.nvcMshvWrmsrHandler h e.index e.value msr = some v → ¬VtMsrBehaves h v e := by
    intro hsame
    rw [hsame, Option.map_some] at hhandle
    rw [vtMsrBehaves_of_write hwrite hvmcs hhandle, hstores]
    simp
  cases msr with
  | mshv msr =>
      cases msr with
      | guestOsId =>
          refine iff_of_true ((vtMsrBehaves_of_write hwrite (by exact hvmcs) hhandle).mpr ?_) trivial
          exact .inr (by rw [hstores, List.nil_append])
      | hypercall => exact vtMsrBehaves_hypercall hwrite hvmcs hstores hhandle
  | npiepConfig =>
      refine iff_of_true ((vtMsrBehaves_of_write hwrite (by exact hvmcs) hhandle).mpr ?_) trivial
      exact .inr (by rw [hstores, List.nil_append])
  | _ => exact iff_of_false (hdropped rfl) id

theorem vtMsrBehaves_synthetic_write (hwrite : e.write = true) (hvmcs : v.vmcs = e.vmcs)
    (hstores : v.stores = []) (hsynthetic : noirIsSyntheticMsr e.index = true) :
    VtMsrBehaves h v e ↔ if h.tlfsPassthrough then h.takes e.index e.value = true
      else h.cpuidHvPresence = true ∧ v.MshvTakes h e.value (syntheticMsr e.index) := by
  have hhandle : v.handle h e = (if h.tlfsPassthrough then v.noirWrmsr h e.index e.value
      else if h.cpuidHvPresence then v.nvcMshvWrmsrHandler h e.index e.value (syntheticMsr e.index)
      else some v.injectGp).map fun v => ⟨v.advanceRip, e.gpr⟩ := by
    rw [handle_of_write hwrite, VtMsrVcpu.nvcVtWrmsrHandler, if_pos hsynthetic]
  by_cases htlfs : h.tlfsPassthrough = true
  · rw [if_pos htlfs] at hhandle ⊢
    by_cases htakes : h.takes e.index e.value = true
    · rw [noirWrmsr_eq_some htakes, Option.map_some] at hhandle
      rw [vtMsrBehaves_of_write hwrite (by exact hvmcs) hhandle, hstores]
      exact iff_of_true (.inl rfl) htakes
    · rw [noirWrmsr_eq_none htakes, Option.map_none] at hhandle
      exact iff_of_false (not_vtMsrBehaves_of_none hhandle) htakes
  · rw [if_neg htlfs] at hhandle ⊢
    by_cases hpresence : h.cpuidHvPresence = true
    · rw [if_pos hpresence] at hhandle
      rw [vtMsrBehaves_mshv hwrite hvmcs hstores hhandle]
      exact (and_iff_right hpresence).symm
    · rw [if_neg hpresence, Option.map_some] at hhandle
      exact iff_of_false (not_vtMsrBehaves_of_skipped hvmcs hhandle) fun hserved => hpresence hserved.1

/-- What the cases leave behind is written once more. -/
theorem vtMsrBehaves_of_cases (hwrite : e.write = true) (hsynthetic : ¬noirIsSyntheticMsr e.index = true)
    (hcases : v.wrmsrCases h e.index e.value = some w) (hvmcs : w.vmcs = e.vmcs) :
    VtMsrBehaves h v e ↔ h.takes e.index e.value = true ∧ w.stores = [] := by
  have hhandle : v.handle h e =
      (w.noirWrmsr h e.index e.value).map fun v => ⟨v.advanceRip, e.gpr⟩ := by
    rw [handle_of_write hwrite, VtMsrVcpu.nvcVtWrmsrHandler, if_neg hsynthetic, hcases,
      Option.bind_some]
  by_cases htakes : h.takes e.index e.value = true
  · rw [noirWrmsr_eq_some htakes, Option.map_some] at hhandle
    rw [vtMsrBehaves_of_write hwrite (by exact hvmcs) hhandle]
    constructor
    · rintro (hsame | hother)
      · exact ⟨htakes, List.append_left_eq_self.mp hsame⟩
      · have hlast := congrArg List.getLast? hother
        rw [List.getLast?_concat] at hlast
        exact absurd (Option.some.inj hlast) nofun
    · rintro ⟨-, hnil⟩
      exact .inl (by rw [hnil, List.nil_append])
  · rw [noirWrmsr_eq_none htakes, Option.map_none] at hhandle
    exact iff_of_false (not_vtMsrBehaves_of_none hhandle) fun hserved => htakes hserved.1

theorem wrmsrMtrr_of_same {index : BitVec 32} (hreadable : h.readable index = true)
    (hsame : v.msrs index = val) : v.wrmsrMtrr h index val = some v := by
  rw [VtMsrVcpu.wrmsrMtrr, VtMsrVcpu.noirRdmsr, if_pos hreadable, Option.bind_some,
    if_neg (not_not_intro hsame)]

/-- An MTRR is written before if it changes. -/
theorem wrmsrMtrr_of_changed {index : BitVec 32}
    (hchanged : ¬(h.readable index = true ∧ v.msrs index = val)) :
    v.wrmsrMtrr h index val = none ∨
      ∃ w, v.wrmsrMtrr h index val = some w ∧ w.vmcs = v.vmcs ∧
        w.stores = v.stores ++ [.physical index val] := by
  by_cases hreadable : h.readable index = true
  · have hne : v.msrs index ≠ val := fun hsame => hchanged ⟨hreadable, hsame⟩
    by_cases htakes : h.takes index val = true
    · refine .inr ⟨VtMsrVcpu.mtrrWritten { v with
        msrs := Function.update v.msrs index val
        stores := v.stores ++ [.physical index val] }, ?_, ?_, ?_⟩
      · rw [VtMsrVcpu.wrmsrMtrr, VtMsrVcpu.noirRdmsr, if_pos hreadable, Option.bind_some, if_pos hne,
          noirWrmsr_eq_some htakes, Option.map_some]
      · unfold VtMsrVcpu.mtrrWritten
        split <;> rfl
      · unfold VtMsrVcpu.mtrrWritten
        split <;> rfl
    · refine .inl ?_
      rw [VtMsrVcpu.wrmsrMtrr, VtMsrVcpu.noirRdmsr, if_pos hreadable, Option.bind_some, if_pos hne,
        noirWrmsr_eq_none htakes, Option.map_none]
  · refine .inl ?_
    rw [VtMsrVcpu.wrmsrMtrr, VtMsrVcpu.noirRdmsr, if_neg hreadable, Option.bind_none]

/-- A case that stores something has stored it once too often. -/
theorem not_vtMsrBehaves_of_stored (hwrite : e.write = true)
    (hsynthetic : ¬noirIsSyntheticMsr e.index = true)
    (hcases : v.wrmsrCases h e.index e.value = none ∨
      ∃ w, v.wrmsrCases h e.index e.value = some w ∧ w.vmcs = e.vmcs ∧ w.stores ≠ []) :
    ¬VtMsrBehaves h v e := by
  rcases hcases with hnone | ⟨w, hsome, hvmcs, hstores⟩
  · refine not_vtMsrBehaves_of_none ?_
    rw [handle_of_write hwrite, VtMsrVcpu.nvcVtWrmsrHandler, if_neg hsynthetic, hnone,
      Option.bind_none, Option.map_none]
  · rw [vtMsrBehaves_of_cases hwrite hsynthetic hsome hvmcs]
    exact fun hserved => hstores hserved.2

theorem vtMsrBehaves_write (hwrite : e.write = true) (hvmcs : v.vmcs = e.vmcs)
    (hstores : v.stores = []) : VtMsrBehaves h v e ↔ VtMsrServed h v e := by
  unfold VtMsrServed
  by_cases hsynthetic : noirIsSyntheticMsr e.index = true
  · rw [if_pos hsynthetic, if_pos hwrite,
      vtMsrBehaves_synthetic_write hwrite hvmcs hstores hsynthetic]
    simp [hwrite]
  rw [if_neg hsynthetic, if_pos hwrite]
  -- Nothing is stored by the case, so that the one write is that of the end.
  have honce (hcases : v.wrmsrCases h e.index e.value = some v) :
      VtMsrBehaves h v e ↔ h.takes e.index e.value = true := by
    rw [vtMsrBehaves_of_cases hwrite hsynthetic hcases hvmcs]
    exact and_iff_left hstores
  have hnone := not_vtMsrBehaves_of_stored hwrite hsynthetic (h := h) (v := v)
  unfold VtMsrVcpu.wrmsrCases at honce hnone
  by_cases hbios : e.index = ia32BiosUpdtTrig
  · rw [if_pos hbios] at honce hnone
    have hmtrr : e.index ∉ mtrrCases := by
      rw [hbios]
      decide
    have hlstar : e.index ≠ ia32Lstar := by
      rw [hbios]
      decide
    by_cases htype : h.hvType1 = true
    · rw [if_pos htype] at honce
      rw [honce rfl]
      simp [htype, hmtrr]
    · rw [if_neg htype] at hnone
      refine iff_of_false (hnone ?_) fun hserved => (hserved.2.1 (by simpa using htype)).1 hbios
      by_cases htakes : h.takes e.index e.value = true
      · refine .inr ⟨_, noirWrmsr_eq_some htakes, hvmcs, ?_⟩
        simp
      · exact .inl (noirWrmsr_eq_none htakes)
  rw [if_neg hbios] at honce hnone
  by_cases hmtrr : e.index ∈ mtrrCases
  · rw [if_pos hmtrr] at honce hnone
    have hlstar : e.index ≠ ia32Lstar := fun heq => absurd (heq ▸ hmtrr) (by decide)
    by_cases hsame : h.readable e.index = true ∧ v.msrs e.index = e.value
    · rw [honce (wrmsrMtrr_of_same hsame.1 hsame.2)]
      simp [hbios, hlstar, hsame]
    · refine iff_of_false (hnone ?_) fun hserved => hsame (hserved.2.2 hmtrr)
      rcases wrmsrMtrr_of_changed hsame with hchanged | ⟨w, hw, hkept, hstored⟩
      · exact .inl hchanged
      · refine .inr ⟨w, hw, hkept.trans hvmcs, ?_⟩
        rw [hstored]
        simp
  rw [if_neg hmtrr] at honce hnone
  by_cases hlstar : e.index = ia32Lstar ∧ h.hvType1 = false
  · rw [if_pos hlstar] at hnone
    refine iff_of_false (hnone (.inr ⟨_, rfl, hvmcs, ?_⟩)) fun hserved =>
      (hserved.2.1 hlstar.2).2 hlstar.1
    unfold VtMsrVcpu.wrmsrLstar
    simp
  · rw [if_neg hlstar] at honce
    rw [honce rfl]
    constructor
    · exact fun htakes => ⟨htakes, fun htype => ⟨hbios, fun heq => hlstar ⟨heq, htype⟩⟩,
        fun hmem => absurd hmem hmtrr⟩
    · exact And.left

/-- An exit ends in exactly one of the two if and only if it is served. -/
theorem vtMsrBehaves_iff (hvmcs : v.vmcs = e.vmcs) (hstores : v.stores = []) :
    VtMsrBehaves h v e ↔ VtMsrServed h v e := by
  cases hwrite : e.write with
  | false => exact vtMsrBehaves_read hwrite hvmcs hstores
  | true => exact vtMsrBehaves_write hwrite hvmcs hstores

end

/-- The hook itself is not written. -/
def VtMsrExit.Unforged (h : VtMsrHost) (e : VtMsrExit) : Prop :=
  h.hooked = true → e.write = true → e.index = ia32Lstar → h.takes ia32Lstar e.value = true →
    e.value = h.noirSystemCall → h.noirSystemCall = h.origSystemCall

/-- The accesses of a run, with the LSTAR that the host runs with and the value that it has given it. -/
structure VtMsrSession where
  vcpu : VtMsrVcpu
  lstar : BitVec 64
  written : BitVec 64

namespace VtMsrSession

variable (h : VtMsrHost) (s : VtMsrSession) (e : VtMsrExit)

/-- `nvc_vt_setup_msr_auto_list` and `nvc_vt_setup_virtual_msr`. -/
def start (vcpu : VtMsrVcpu) : VtMsrSession where
  vcpu := { vcpu with entryLoad := h.noirSystemCall, virtualLstar := h.origSystemCall }
  lstar := h.noirSystemCall
  written := h.origSystemCall

/-- The processor stores LSTAR. -/
def exited : VtMsrVcpu := { s.vcpu with vmcs := e.vmcs, exitStore := s.lstar, stores := [] }

/-- The processor loads LSTAR. -/
def next : VtMsrSession :=
  match (s.exited e).handle h e with
  | none => s
  | some left =>
    { vcpu := left.vcpu
      lstar := left.vcpu.entryLoad
      written := if e.write ∧ e.index = ia32Lstar then e.value else s.written }

def Behaves : Prop := VtMsrBehaves h (s.exited e) e

def Served : Prop := VtMsrServed h (s.exited e) e

/-- With the hook, a read of LSTAR returns what was written, and the hook is in effect exactly if that
is the original entry. -/
def Shows : Prop :=
  h.hooked = true → ∀ left, (s.exited e).handle h e = some left →
    (e.write = false → e.index = ia32Lstar → left.gpr = loadedGpr e.gpr s.written) ∧
      ((s.next h e).lstar = h.noirSystemCall ↔ (s.next h e).written = h.origSystemCall)

structure Hooked : Prop where
  loaded : s.vcpu.entryLoad = s.lstar
  lstar_eq : s.lstar = if s.written = h.origSystemCall then h.noirSystemCall else s.written
  written_ne : s.written = h.noirSystemCall → h.noirSystemCall = h.origSystemCall

end VtMsrSession

section

variable {h : VtMsrHost} {v w : VtMsrVcpu} {e : VtMsrExit} {left : VtMsrLeft}

theorem noirIsSyntheticMsr_ia32Lstar : noirIsSyntheticMsr ia32Lstar = false := by decide

theorem ia32Lstar_not_mem : ia32Lstar ∉ vmxCases := by decide

theorem entryLoad_noirWrmsr {index : BitVec 32} {val : BitVec 64}
    (hw : v.noirWrmsr h index val = some w) : w.entryLoad = v.entryLoad := by
  unfold VtMsrVcpu.noirWrmsr at hw
  split at hw
  · exact (Option.some.inj hw) ▸ rfl
  · cases hw

theorem entryLoad_mtrrWritten : v.mtrrWritten.entryLoad = v.entryLoad := by
  unfold VtMsrVcpu.mtrrWritten
  split <;> rfl

theorem entryLoad_wrmsrMtrr {index : BitVec 32} {val : BitVec 64}
    (hw : v.wrmsrMtrr h index val = some w) : w.entryLoad = v.entryLoad := by
  obtain ⟨oldMtrr, -, hw⟩ := Option.bind_eq_some_iff.mp hw
  split at hw
  · obtain ⟨u, hu, rfl⟩ := Option.map_eq_some_iff.mp hw
    exact entryLoad_mtrrWritten.trans (entryLoad_noirWrmsr hu)
  · exact (Option.some.inj hw) ▸ rfl

theorem entryLoad_nvcMshvWrmsrHandler {index : BitVec 32} {val : BitVec 64} {msr : HostSyntheticMsr}
    (hw : v.nvcMshvWrmsrHandler h index val msr = some w) : w.entryLoad = v.entryLoad := by
  unfold VtMsrVcpu.nvcMshvWrmsrHandler at hw
  split at hw
  · exact (Option.some.inj hw) ▸ rfl
  · dsimp only at hw
    split at hw
    · exact (Option.some.inj hw) ▸ rfl
    · cases hw
  · exact (Option.some.inj hw) ▸ rfl
  · exact (Option.some.inj hw) ▸ rfl

theorem entryLoad_rdmsrFound {read : VtMsrVcpu.Read} (hread : v.rdmsrFound h e = some read) :
    read.vcpu.entryLoad = v.entryLoad := by
  unfold VtMsrVcpu.rdmsrFound VtMsrVcpu.rdmsrCases at hread
  split_ifs at hread
  all_goals first
    | exact (Option.some.inj hread) ▸ rfl
    | obtain ⟨val, -, rfl⟩ := Option.map_eq_some_iff.mp hread
      rfl

theorem entryLoad_wrmsrCases {index : BitVec 32} {val : BitVec 64} (hindex : index ≠ ia32Lstar)
    (hw : v.wrmsrCases h index val = some w) : w.entryLoad = v.entryLoad := by
  unfold VtMsrVcpu.wrmsrCases at hw
  split_ifs at hw with hbios htype hmtrr hlstar
  · exact (Option.some.inj hw) ▸ rfl
  · exact entryLoad_noirWrmsr hw
  · exact entryLoad_wrmsrMtrr hw
  · exact absurd hlstar.1 hindex
  · exact (Option.some.inj hw) ▸ rfl

/-- Only a write of LSTAR changes what is loaded. -/
theorem entryLoad_handle (hleft : v.handle h e = some left)
    (hother : ¬(e.write = true ∧ e.index = ia32Lstar)) : left.vcpu.entryLoad = v.entryLoad := by
  unfold VtMsrVcpu.handle at hleft
  split at hleft
  · next hwrite =>
      have hindex : e.index ≠ ia32Lstar := fun heq => hother ⟨hwrite, heq⟩
      obtain ⟨w, hw, rfl⟩ := Option.map_eq_some_iff.mp hleft
      change w.entryLoad = _
      split_ifs at hw
      · exact entryLoad_noirWrmsr hw
      · exact entryLoad_nvcMshvWrmsrHandler hw
      · exact (Option.some.inj hw) ▸ rfl
      · obtain ⟨u, hu, hw⟩ := Option.bind_eq_some_iff.mp hw
        exact (entryLoad_noirWrmsr hw).trans (entryLoad_wrmsrCases hindex hu)
  · obtain ⟨read, hread, rfl⟩ := Option.map_eq_some_iff.mp hleft
    dsimp only
    split
    · exact entryLoad_rdmsrFound hread
    · exact entryLoad_rdmsrFound hread

theorem handle_lstar_write (htype : h.hvType1 = false) (hwrite : e.write = true)
    (hindex : e.index = ia32Lstar) :
    v.handle h e = ((v.wrmsrLstar h e.value).noirWrmsr h ia32Lstar e.value).map
      fun v => ⟨v.advanceRip, e.gpr⟩ := by
  have hsynthetic : ¬noirIsSyntheticMsr e.index = true := by
    rw [hindex, noirIsSyntheticMsr_ia32Lstar]
    exact Bool.false_ne_true
  have hcases : v.wrmsrCases h e.index e.value = some (v.wrmsrLstar h e.value) := by
    rw [VtMsrVcpu.wrmsrCases, hindex, if_neg (by decide), if_neg (by decide), if_pos ⟨rfl, htype⟩]
  rw [handle_of_write hwrite, VtMsrVcpu.nvcVtWrmsrHandler, if_neg hsynthetic, hcases,
    Option.bind_some, hindex]

theorem handle_lstar_read (htype : h.hvType1 = false) (hread : e.write = false)
    (hindex : e.index = ia32Lstar) :
    v.handle h e = some ⟨v.advanceRip, loadedGpr e.gpr (v.shownLstar h)⟩ := by
  have hsynthetic : ¬noirIsSyntheticMsr e.index = true := by
    rw [hindex, noirIsSyntheticMsr_ia32Lstar]
    exact Bool.false_ne_true
  have hfound : v.rdmsrFound h e = some ⟨v, v.shownLstar h, true⟩ := by
    rw [VtMsrVcpu.rdmsrFound, if_neg hsynthetic, VtMsrVcpu.rdmsrCases, hindex,
      if_neg ia32Lstar_not_mem, if_pos ⟨rfl, htype⟩]
  exact handle_of_found hread hfound

end

namespace VtMsrSession

variable {h : VtMsrHost} {s : VtMsrSession} {e : VtMsrExit}

theorem hooked_start {vcpu : VtMsrVcpu} : (start h vcpu).Hooked h where
  loaded := rfl
  lstar_eq := (if_pos rfl).symm
  written_ne heq := heq.symm

theorem Hooked.lstar_eq_iff (hs : s.Hooked h) :
    s.lstar = h.noirSystemCall ↔ s.written = h.origSystemCall := by
  rw [hs.lstar_eq]
  split
  · next hsame => exact iff_of_true rfl hsame
  · next hother =>
      refine iff_of_false (fun hforged => hother ?_) hother
      exact hforged.trans (hs.written_ne hforged)

theorem Hooked.shownLstar_eq (hs : s.Hooked h) : (s.exited e).shownLstar h = s.written := by
  unfold VtMsrVcpu.shownLstar exited
  dsimp only
  by_cases hsame : s.written = h.origSystemCall
  · rw [if_pos (hs.lstar_eq_iff.mpr hsame), hsame]
  · rw [if_neg fun hhook => hsame (hs.lstar_eq_iff.mp hhook), hs.lstar_eq, if_neg hsame]

theorem next_of_none (hnone : (s.exited e).handle h e = none) : s.next h e = s := by
  unfold next
  rw [hnone]

theorem next_of_some {left : VtMsrLeft} (hleft : (s.exited e).handle h e = some left) :
    s.next h e =
      ⟨left.vcpu, left.vcpu.entryLoad,
        if e.write ∧ e.index = ia32Lstar then e.value else s.written⟩ := by
  unfold next
  rw [hleft]

/-- Other accesses leave LSTAR alone. -/
theorem Hooked.next_other (hs : s.Hooked h) (hother : ¬(e.write = true ∧ e.index = ia32Lstar)) :
    (s.next h e).Hooked h ∧ (s.next h e).lstar = s.lstar ∧ (s.next h e).written = s.written := by
  cases hleft : (s.exited e).handle h e with
  | none =>
      rw [next_of_none hleft]
      exact ⟨hs, rfl, rfl⟩
  | some left =>
      have hload : left.vcpu.entryLoad = s.lstar := (entryLoad_handle hleft hother).trans hs.loaded
      rw [next_of_some hleft, if_neg hother]
      dsimp only
      rw [hload]
      exact ⟨⟨hload, hs.lstar_eq, hs.written_ne⟩, rfl, rfl⟩

/-- What a write of LSTAR leaves, if the processor takes the value. -/
theorem next_lstar_write (htype : h.hvType1 = false) (hwrite : e.write = true)
    (hindex : e.index = ia32Lstar) (htakes : h.takes ia32Lstar e.value = true) :
    (s.next h e).lstar =
        (if e.value = h.origSystemCall then h.noirSystemCall else e.value) ∧
      (s.next h e).written = e.value ∧ (s.next h e).vcpu.entryLoad = (s.next h e).lstar := by
  have hleft := handle_lstar_write (v := s.exited e) htype hwrite hindex
  rw [noirWrmsr_eq_some htakes, Option.map_some] at hleft
  rw [next_of_some hleft, if_pos ⟨hwrite, hindex⟩]
  exact ⟨rfl, rfl, rfl⟩

theorem shows_iff (hhooked : h.hooked = true) (hs : s.Hooked h) :
    (s.Shows h e ↔ e.Unforged h) ∧ (e.Unforged h → (s.next h e).Hooked h) := by
  have htype : h.hvType1 = false := by
    unfold VtMsrHost.hooked at hhooked
    simpa using (Bool.and_eq_true_iff.mp hhooked).1
  by_cases hlstar : e.write = true ∧ e.index = ia32Lstar
  · obtain ⟨hwrite, hindex⟩ := id hlstar
    have hnotRead : ¬e.write = false := fun hread => Bool.false_ne_true (hread.symm.trans hwrite)
    by_cases htakes : h.takes ia32Lstar e.value = true
    · obtain ⟨hlstar', hwritten, hload⟩ := next_lstar_write (s := s) htype hwrite hindex htakes
      have hleft := handle_lstar_write (v := s.exited e) htype hwrite hindex
      rw [noirWrmsr_eq_some htakes, Option.map_some] at hleft
      constructor
      · constructor
        · intro hshows _ _ _ _ hforged
          have hiff := (hshows hhooked _ hleft).2
          rw [hlstar', hwritten, hforged] at hiff
          by_contra hne
          rw [if_neg hne] at hiff
          exact hne (hiff.mp rfl)
        · intro hunforged _ left _
          refine ⟨fun hread => absurd hread hnotRead, ?_⟩
          rw [hlstar', hwritten]
          split
          · next hsame => exact iff_of_true rfl hsame
          · next hne =>
              refine iff_of_false (fun hforged => hne ?_) hne
              exact hforged.trans (hunforged hhooked hwrite hindex htakes hforged)
      · intro hunforged
        refine ⟨hload, ?_, ?_⟩
        · rw [hlstar', hwritten]
        · rw [hwritten]
          exact hunforged hhooked hwrite hindex htakes
    · have hnone : (s.exited e).handle h e = none := by
        rw [handle_lstar_write htype hwrite hindex, noirWrmsr_eq_none htakes, Option.map_none]
      constructor
      · refine iff_of_true (fun _ left hleft => ?_) fun _ _ _ htakes' => absurd htakes' htakes
        rw [hnone] at hleft
        cases hleft
      · intro _
        rw [next_of_none hnone]
        exact hs
  · obtain ⟨hnext, hsame, hwritten⟩ := hs.next_other hlstar
    refine ⟨iff_of_true (fun _ left hleft => ⟨fun hread hindex => ?_, ?_⟩) ?_, fun _ => hnext⟩
    · rw [handle_lstar_read htype hread hindex] at hleft
      rw [← Option.some.inj hleft, hs.shownLstar_eq]
    · rw [hsame, hwritten]
      exact hs.lstar_eq_iff
    · exact fun _ hwrite hindex => absurd ⟨hwrite, hindex⟩ hlstar

end VtMsrSession

/-- The exits of a run end as they should if and only if they are served, and the hook stays hidden if
and only if it is not written. -/
theorem along_behaves_iff (h : VtMsrHost) (vcpu : VtMsrVcpu) (exits : List VtMsrExit) :
    (Along (VtMsrSession.Behaves h) (VtMsrSession.next h) (VtMsrSession.start h vcpu) exits ↔
        Along (VtMsrSession.Served h) (VtMsrSession.next h) (VtMsrSession.start h vcpu) exits) ∧
      (Along (VtMsrSession.Shows h) (VtMsrSession.next h) (VtMsrSession.start h vcpu) exits ↔
        Along (fun _ e => e.Unforged h) (VtMsrSession.next h) (VtMsrSession.start h vcpu) exits) := by
  constructor
  · refine along_iff (I := fun _ => True) (Q := fun _ _ => True) (fun s e _ _ => ?_)
      (fun _ _ _ _ _ => trivial) trivial (along_of_forall fun _ _ => trivial)
    exact vtMsrBehaves_iff rfl rfl
  · cases hhooked : h.hooked with
    | true =>
        exact along_iff (I := VtMsrSession.Hooked h) (Q := fun _ _ => True)
          (fun s e hs _ => (VtMsrSession.shows_iff hhooked hs).1)
          (fun s e hs _ => (VtMsrSession.shows_iff hhooked hs).2) VtMsrSession.hooked_start
          (along_of_forall fun _ _ => trivial)
    | false =>
        have hnot : ¬h.hooked = true := by simp [hhooked]
        exact iff_of_true (along_of_forall fun _ _ hon => absurd hon hnot)
          (along_of_forall fun _ _ hon => absurd hon hnot)

/-- A hypervisor without an interface, on a processor that takes everything. -/
def bareVtMsrHost : VtMsrHost where
  hvType1 := false
  stealthMsrHook := false
  tlfsPassthrough := false
  cpuidHvPresence := false
  noirSystemCall := 1
  origSystemCall := 2
  mapping := ⟨id, fun _ => none⟩
  breakpoint := true
  readable _ := true
  takes _ _ := true

def zeroVtMsrVcpu : VtMsrVcpu where
  vmcs := ⟨fun _ => 0, 0, 2⟩
  msrs _ := 0
  entryLoad := 0
  exitStore := 0
  virtualLstar := 0
  mtrrDirty := false
  eptUpdates := 0
  vpIndex := 0
  npiepConfig := 0
  mshv := ⟨0, 0, fun _ _ => 0⟩
  stores := []

/-- `rdmsr` of `hv_x64_msr_vp_index`. -/
def vpIndexExit : VtMsrExit where
  vmcs := ⟨fun _ => 0, 0, 2⟩
  quiet := by decide
  skips := by decide
  write := false
  gpr i := if i = 1 then 0x40000002 else 0
  stack := 0

/-- The fault is injected, and the instruction skipped. -/
theorem not_forall_along_behaves : ¬∀ (h : VtMsrHost) (vcpu : VtMsrVcpu) (exits : List VtMsrExit),
    Along (VtMsrSession.Behaves h) (VtMsrSession.next h) (VtMsrSession.start h vcpu) exits ∧
      Along (VtMsrSession.Shows h) (VtMsrSession.next h) (VtMsrSession.start h vcpu) exits := by
  intro hall
  have hserved := (along_behaves_iff bareVtMsrHost zeroVtMsrVcpu [vpIndexExit]).1.mp (hall _ _ _).1
  have hsynthetic : noirIsSyntheticMsr vpIndexExit.index = true := by decide
  have hpresence : VtMsrServed bareVtMsrHost _ vpIndexExit := hserved.1
  rw [VtMsrServed, if_pos hsynthetic, if_neg (by decide)] at hpresence
  exact absurd hpresence.1 (by decide)

end NoirVisor
