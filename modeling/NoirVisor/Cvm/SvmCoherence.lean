import NoirVisor.Cvm.SvmVcpu
import NoirVisor.Cvm.Edit

/-!
# Coherence of the registers on SVM

The VMCB with the vCPU structure in front of it is a control block with a cache. A register edited
is in the VMCB after the next switch to the guest, and a register viewed is the guest's, as long as
no step makes the one in place of the other stale.
-/

namespace NoirVisor

open Writeback

/-- Where the newest value of a register is on SVM. The last branch records are only in the VMCB, and
what the VMCB has no field for only in the structure. -/
def svmHome : Register → Home StateCache
  | .gpr i => if i = 0 ∨ i = 4 then .group .gpr else .cache
  | .rflags | .rip => .group .gpr
  | .seg .cs _ | .seg .ds _ | .seg .es _ | .seg .ss _ => .group .sr
  | .seg .fs _ | .seg .gs _ | .gsswap => .group .fg
  | .seg .tr _ | .seg .ldtr _ => .group .lt
  | .seg .gdtr .limit | .seg .gdtr (.baseByte _) => .group .dt
  | .seg .idtr .limit | .seg .idtr (.baseByte _) => .group .dt
  | .seg .gdtr _ | .seg .idtr _ => .cache
  | .cr0 | .cr3 | .cr4 => .group .cr
  | .cr2 => .group .cr2
  | .cr8 => .group .tp
  | .dr6 | .dr7 => .group .dr
  | .sysenterCs | .sysenterEsp | .sysenterEip => .group .se
  | .pat => .group .pa
  | .efer => .group .ef
  | .star | .lstar | .cstar | .sfmask => .group .sc
  | .tscOffset => .group .ts
  | .debugCtrl | .lastBranchFromIp | .lastBranchToIp => .block
  | .lastExceptionFromIp | .lastExceptionToIp => .block
  | .dr _ | .xcr0 | .ststar | .apic | .ghcb => .cache

def svmLoads (r : Register) : Bool :=
  match svmHome r with
  | .group _ => true
  | _ => false

/-- The dump leaves out what the exit saves, the TSC offset and Kernel-GS-Base. -/
def svmDumps (r : Register) : Bool :=
  match svmHome r with
  | .group .gpr | .group .ts => false
  | .group _ => r != .gsswap
  | _ => false

def svmLoadsGroup : StateCache → Bool
  | .lb | .ap | .tl => false
  | _ => true

/-- The registers that the switch loads with a group. -/
def svmSelect : StateCache → Register → Bool
  | .gpr => Register.inGprGroup
  | .cr => Register.inCrGroup
  | .cr2 => (· == .cr2)
  | .dr => Register.inDrGroup
  | .sr => Register.inSrGroup
  | .fg => Register.inFgGroup
  | .dt => Register.isDescriptorTable
  | .lt => Register.inLtGroup
  | .sc => Register.inScGroup
  | .se => Register.inSeGroup
  | .tp => (· == .cr8)
  | .ef => (· == .efer)
  | .pa => (· == .pat)
  | .ts => (· == .tscOffset)
  | .lb | .ap | .tl => fun _ => false

theorem svmSelect_eq (c : StateCache) (r : Register) :
    svmSelect c r = decide (svmHome r = .group c) := by
  cases r with
  | gpr i =>
      revert i
      cases c <;> decide
  | seg name field => cases name <;> cases field <;> cases c <;> rfl
  | _ => cases c <;> rfl

def svmProtocol (svme : Bool) : Protocol Register StateCache Nat where
  home := svmHome
  loads := svmLoads
  loadsGroup := svmLoadsGroup
  dumps := svmDumps
  encode := svmEncode
  decode := svmDecode svme

namespace SvmCustomVcpu

def writeback (cvcpu : SvmCustomVcpu) : Writeback.State Register StateCache Nat where
  cache := cvcpu.header.reg
  block r := cvcpu.vmcb.field (.guest r)
  valid := cvcpu.header.stateCache

def protocol (cvcpu : SvmCustomVcpu) : Protocol Register StateCache Nat :=
  svmProtocol cvcpu.shadowedBits.svme

variable {cvcpu : SvmCustomVcpu} {c : StateCache} {b : Option CleanBit} {svme : Bool}

theorem svmSelect_loads (c : StateCache) (r : Register) :
    svmSelect c r = (svmLoads r && decide (svmHome r = .group c)) := by
  rw [svmSelect_eq]
  unfold svmLoads
  split
  · next c' hhome => rw [Bool.true_and]
  · next hnone => exact decide_eq_false (hnone c)

theorem loadsGroups_loadGroup :
    (svmProtocol svme).LoadsGroups cvcpu.writeback (cvcpu.loadGroup c (svmSelect c) b).writeback
      [c] := by
  unfold loadGroup
  split
  · next hvalid => exact .of_valid hvalid
  · next hvalid =>
      refine .of_block (Bool.eq_false_iff.mpr hvalid) (svmSelect_loads c) rfl ?_ fun _ => rfl
      funext c'
      by_cases hc : c' = c <;> simp [writeback, hc]

theorem flushTlb_guest (r : Register) :
    cvcpu.flushTlb.vmcb.field (.guest r) = cvcpu.vmcb.field (.guest r) := by
  simp [flushTlb, Vmcb.write]

theorem writeback_flushTlb : cvcpu.flushTlb.writeback = cvcpu.writeback :=
  congrArg (fun block => State.mk cvcpu.header.reg block cvcpu.header.stateCache)
    (funext flushTlb_guest)

theorem loadsGroups_loadControlRegisters :
    (svmProtocol svme).LoadsGroups cvcpu.writeback cvcpu.loadControlRegisters.writeback [.cr] := by
  unfold loadControlRegisters
  split
  · next hvalid => exact .of_valid hvalid
  · exact loadsGroups_loadGroup.congr writeback_flushTlb

theorem loadsGroups_loadEfer :
    (svmProtocol svme).LoadsGroups cvcpu.writeback cvcpu.loadEfer.writeback [.ef] := by
  unfold loadEfer
  split
  · next hvalid => exact .of_valid hvalid
  · dsimp only
    have hload (v : SvmCustomVcpu) (hv : v.writeback = cvcpu.writeback) :
        (svmProtocol svme).LoadsGroups cvcpu.writeback
          (v.loadGroup .ef (· == .efer) (some .controlReg)).writeback [.ef] :=
      hv ▸ loadsGroups_loadGroup
    split
    · exact hload _ writeback_flushTlb
    · exact hload _ rfl

/-- What the switch writes to the VMCB is a load of the protocol. -/
theorem writeback_loadVmcb : cvcpu.loadVmcb.writeback = cvcpu.protocol.load cvcpu.writeback := by
  have h : cvcpu.protocol.LoadsGroups cvcpu.writeback cvcpu.writeback [] := .refl
  have h := h.trans (loadsGroups_loadGroup (c := .gpr) (b := none)) (by decide)
  have h := h.trans (loadsGroups_loadGroup (c := .dr) (b := some .debugReg)) (by decide)
  have h := h.trans loadsGroups_loadControlRegisters (by decide)
  have h := h.trans (loadsGroups_loadGroup (c := .cr2) (b := some .cr2)) (by decide)
  have h := h.trans (loadsGroups_loadGroup (c := .tp) (b := some .tpr)) (by decide)
  have h := h.trans (loadsGroups_loadGroup (c := .sr) (b := some .segmentReg)) (by decide)
  have h := h.trans (loadsGroups_loadGroup (c := .fg) (b := none)) (by decide)
  have h := h.trans (loadsGroups_loadGroup (c := .lt) (b := none)) (by decide)
  have h := h.trans (loadsGroups_loadGroup (c := .dt) (b := some .idtGdt)) (by decide)
  have h := h.trans loadsGroups_loadEfer (by decide)
  have h := h.trans (loadsGroups_loadGroup (c := .pa) (b := some .npt)) (by decide)
  have h := h.trans (loadsGroups_loadGroup (c := .se) (b := none)) (by decide)
  have h := h.trans (loadsGroups_loadGroup (c := .sc) (b := none)) (by decide)
  have h := h.trans (loadsGroups_loadGroup (c := .ts) (b := some .interception)) (by decide)
  refine h.eq_load (fun c => ?_) fun r hloads => ?_
  · cases c <;> rfl
  · unfold protocol svmProtocol at hloads ⊢
    dsimp only at hloads ⊢
    cases hhome : svmHome r with
    | group c =>
        refine ⟨c, ?_, rfl⟩
        have hselect : svmSelect c r = true := (svmSelect_eq c r).trans (decide_eq_true hhome)
        cases c with
        | lb | ap | tl => cases hselect
        | _ => decide
    | _ =>
        rw [svmLoads, hhome] at hloads
        cases hloads

end SvmCustomVcpu

end NoirVisor
