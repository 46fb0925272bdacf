import NoirVisor.Cvm.Edit
import NoirVisor.Cvm.VtVcpu

/-!
# Coherence of the registers on VT

The VMCS and the list of MSRs with the vCPU structure in front of them are a control block with a
cache, by the same validity bits as on SVM.
-/

namespace NoirVisor

open Writeback

/-- Where the newest value of a register is on VT. What no path of the structure reaches is only in
the control block. -/
def vtHome : Register → Home StateCache
  | .gpr i => if i = 4 then .group .gpr else .cache
  | .rflags | .rip => .group .gpr
  | .seg .cs _ | .seg .ds _ | .seg .es _ | .seg .ss _ => .group .sr
  | .seg .fs _ | .seg .gs _ | .gsswap => .group .fg
  | .seg .tr _ | .seg .ldtr _ => .group .lt
  | .seg .gdtr .limit | .seg .gdtr (.baseByte _) => .group .dt
  | .seg .idtr .limit | .seg .idtr (.baseByte _) => .group .dt
  | .seg .gdtr _ | .seg .idtr _ => .cache
  | .cr0 | .cr3 | .cr4 => .group .cr
  | .dr7 => .group .dr
  | .sysenterCs | .sysenterEsp | .sysenterEip => .group .se
  | .pat => .group .pa
  | .efer => .group .ef
  | .star | .lstar | .cstar | .sfmask => .group .sc
  | .debugCtrl | .lastBranchFromIp | .lastBranchToIp => .block
  | .lastExceptionFromIp | .lastExceptionToIp | .tscOffset => .block
  | .cr2 | .cr8 | .dr _ | .dr6 | .xcr0 | .ststar | .apic | .ghcb => .cache

/-- Kernel-GS-Base is in the list of MSRs, but the switch does not write it there. -/
def vtLoads (r : Register) : Bool :=
  match vtHome r with
  | .group _ => r != .gsswap
  | _ => false

/-- The dump leaves out what the exit saves, EFER and PAT. -/
def vtDumps (r : Register) : Bool :=
  match vtHome r with
  | .group .gpr | .group .ef | .group .pa => false
  | .group _ => true
  | _ => false

def vtLoadsGroup : StateCache → Bool
  | .cr2 | .tp | .lb | .ap | .ts | .tl => false
  | _ => true

/-- The registers that the switch loads with a group. -/
def vtSelect : StateCache → Register → Bool
  | .gpr => Register.inVtGprGroup
  | .cr => Register.inCrGroup
  | .dr => (· == .dr7)
  | .sr => Register.inSrGroup
  | .fg => Register.inFsGs
  | .dt => Register.isDescriptorTable
  | .lt => Register.inLtGroup
  | .sc => Register.inScGroup
  | .se => Register.inSeGroup
  | .ef => (· == .efer)
  | .pa => (· == .pat)
  | .cr2 | .tp | .lb | .ap | .ts | .tl => fun _ => false

theorem vtSelect_eq (c : StateCache) (r : Register) :
    vtSelect c r = (vtLoads r && decide (vtHome r = .group c)) := by
  cases r with
  | gpr i =>
      revert i
      cases c <;> decide
  | seg name field => cases name <;> cases field <;> cases c <;> rfl
  | _ => cases c <;> rfl

def vtProtocol (fixed : VmxFixedBits) : Protocol Register StateCache Nat where
  home := vtHome
  loads := vtLoads
  loadsGroup := vtLoadsGroup
  dumps := vtDumps
  encode := vtEncode fixed
  decode := vtDecode

/-- The register is in the list of MSRs. -/
def inMsrAuto (r : Register) : Bool := r.inScGroup || r == .gsswap

namespace VtCustomVcpu

def block (cvcpu : VtCustomVcpu) (r : Register) : Nat :=
  if inMsrAuto r then cvcpu.msrAuto r else cvcpu.vmcs (.guest r)

def writeback (cvcpu : VtCustomVcpu) : Writeback.State Register StateCache Nat where
  cache := cvcpu.header.reg
  block := cvcpu.block
  valid := cvcpu.header.stateCache

variable {cvcpu : VtCustomVcpu} {c : StateCache} {fixed : VmxFixedBits}

theorem update_valid {valid : StateCache → Bool} :
    Function.update valid c true = fun c' => valid c' || decide (c' = c) := by
  funext c'
  by_cases hc : c' = c <;> simp [hc]

/-- A block that writes the VMCS writes none of the registers in the list. -/
theorem loadsGroups_loadGroup (hlist : ∀ r, vtSelect c r = true → inMsrAuto r = false) :
    (vtProtocol fixed).LoadsGroups cvcpu.writeback (cvcpu.loadGroup fixed c (vtSelect c)).writeback
      [c] := by
  unfold loadGroup
  split
  · next hvalid => exact .of_valid hvalid
  · next hvalid =>
      refine .of_block (Bool.eq_false_iff.mpr hvalid) (vtSelect_eq c) rfl update_valid fun r => ?_
      simp only [writeback, block]
      by_cases hselect : vtSelect c r = true
      · simp only [hselect, hlist r hselect, if_true]
        rfl
      · simp [hselect]

theorem loadsGroups_loadControlRegisters :
    (vtProtocol fixed).LoadsGroups cvcpu.writeback (cvcpu.loadControlRegisters fixed).writeback
      [.cr] := by
  unfold loadControlRegisters
  split
  · next hvalid => exact .of_valid hvalid
  · refine (loadsGroups_loadGroup (c := .cr) fun r hr => ?_).congr ?_
    · cases r with
      | cr0 | cr3 | cr4 => rfl
      | _ => cases hr
    · exact congrArg (fun block => State.mk _ block _) (funext fun r => by simp [block]; rfl)

theorem loadsGroups_loadEfer :
    (vtProtocol fixed).LoadsGroups cvcpu.writeback (cvcpu.loadEfer fixed).writeback [.ef] := by
  unfold loadEfer
  split
  · next hvalid => exact .of_valid hvalid
  · refine (loadsGroups_loadGroup (c := .ef) fun r hr => ?_).congr ?_
    · cases r with
      | efer => rfl
      | _ => cases hr
    · exact congrArg (fun block => State.mk _ block _) (funext fun r => by simp [block]; rfl)

theorem loadsGroups_loadSyscallMsrs :
    (vtProtocol fixed).LoadsGroups cvcpu.writeback cvcpu.loadSyscallMsrs.writeback [.sc] := by
  unfold loadSyscallMsrs
  split
  · next hvalid => exact .of_valid hvalid
  · next hvalid =>
      refine .of_block (Bool.eq_false_iff.mpr hvalid) (vtSelect_eq .sc) rfl update_valid fun r => ?_
      have hencode : vtSelect .sc r = true → vtEncode fixed r (cvcpu.header.reg r) =
          cvcpu.header.reg r := fun hr => by
        cases r with
        | star | lstar | cstar | sfmask => rfl
        | _ => cases hr
      by_cases hselect : vtSelect .sc r = true
      · have hsc : r.inScGroup = true := hselect
        simp only [writeback, block, inMsrAuto, copyRegisters, hsc, hselect, Bool.true_or, if_true]
        exact (hencode hselect).symm
      · have hsc : r.inScGroup = false := Bool.eq_false_iff.mpr hselect
        simp [writeback, block, copyRegisters, hsc, hselect]

/-- What the switch writes is a load of the protocol. -/
theorem writeback_loadVmcs :
    (cvcpu.loadVmcs fixed).writeback = (vtProtocol fixed).load cvcpu.writeback := by
  have hload (v : VtCustomVcpu) (c : StateCache)
      (hlist : ∀ r, vtSelect c r = true → inMsrAuto r = false) :
      (vtProtocol fixed).LoadsGroups v.writeback (v.loadGroup fixed c (vtSelect c)).writeback [c] :=
    loadsGroups_loadGroup hlist
  have hvmcs (c : StateCache) (hc : c ≠ .sc) (r : Register) (hr : vtSelect c r = true) :
      inMsrAuto r = false := by
    have hloads := (vtSelect_eq c r).symm.trans hr
    cases r with
    | star | lstar | cstar | sfmask => cases c <;> first | exact absurd rfl hc | cases hloads
    | gsswap => cases hloads
    | _ => rfl
  have h : (vtProtocol fixed).LoadsGroups cvcpu.writeback cvcpu.writeback [] := .refl
  have h := h.trans (hload _ .gpr (hvmcs _ (by decide))) (by decide)
  have h := h.trans (hload _ .dr (hvmcs _ (by decide))) (by decide)
  have h := h.trans loadsGroups_loadControlRegisters (by decide)
  have h := h.trans (hload _ .sr (hvmcs _ (by decide))) (by decide)
  have h := h.trans (hload _ .fg (hvmcs _ (by decide))) (by decide)
  have h := h.trans (hload _ .lt (hvmcs _ (by decide))) (by decide)
  have h := h.trans (hload _ .dt (hvmcs _ (by decide))) (by decide)
  have h := h.trans loadsGroups_loadEfer (by decide)
  have h := h.trans (hload _ .pa (hvmcs _ (by decide))) (by decide)
  have h := h.trans (hload _ .se (hvmcs _ (by decide))) (by decide)
  have h := h.trans loadsGroups_loadSyscallMsrs (by decide)
  refine h.eq_load (fun c => ?_) fun r hloads => ?_
  · cases c <;> rfl
  · have hloads : vtLoads r = true := hloads
    cases hhome : vtHome r with
    | group c =>
        refine ⟨c, ?_, hhome⟩
        have hselect := vtSelect_eq c r
        rw [hloads, hhome, Bool.true_and, decide_eq_true rfl] at hselect
        cases c with
        | cr2 | tp | lb | ap | ts | tl => cases hselect
        | _ => decide
    | _ =>
        rw [vtLoads, hhome] at hloads
        cases hloads

end VtCustomVcpu

end NoirVisor
