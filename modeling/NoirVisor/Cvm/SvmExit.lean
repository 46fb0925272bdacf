import NoirVisor.Cvm.SvmEdits

/-!
# The switch to the host on SVM

What it leaves in the structure of the vCPU, and what of the vCPU neither switch touches.
-/

namespace NoirVisor

namespace SvmCustomVcpu

variable {v : SvmCustomVcpu} {c : StateCache} {select : Register → Bool} {b : Option CleanBit}
  {procId : Nat}

/-- What no load of registers changes. -/
def frame (v : SvmCustomVcpu) : Bool × Xsave.Area := (v.nsvGuest, v.header.xsaveArea)

theorem loadGroup_frame : (v.loadGroup c select b).frame = v.frame := by
  unfold loadGroup
  split <;> rfl

theorem loadControlRegisters_frame : v.loadControlRegisters.frame = v.frame := by
  unfold loadControlRegisters
  split
  · rfl
  · exact loadGroup_frame

theorem loadEfer_frame : v.loadEfer.frame = v.frame := by
  unfold loadEfer
  split
  · rfl
  · dsimp only
    refine (show frame { loadGroup _ _ _ _ with shadowedBits := _ } = frame (loadGroup _ _ _ _)
      from rfl).trans ?_
    rw [loadGroup_frame]
    split <;> rfl

theorem setEventInjection_frame : v.setEventInjection.frame = v.frame := by
  unfold setEventInjection
  dsimp only
  split
  · split <;> rfl
  · split <;> rfl

theorem flushNestedPaging_frame : v.flushNestedPaging.frame = v.frame := by
  unfold flushNestedPaging
  split <;> rfl

theorem schedule_frame : (v.schedule procId).frame = v.frame := by
  unfold schedule
  split <;> rfl

theorem entered_frame : (v.entered procId).frame = v.frame := by
  have hload (w : SvmCustomVcpu) : w.loadVmcb.frame = w.frame := by
    simp only [loadVmcb, loadGroup_frame, loadControlRegisters_frame, loadEfer_frame]
  unfold entered
  rw [flushNestedPaging_frame, setEventInjection_frame]
  exact (hload _).trans schedule_frame

/-- The vCPU after a switch to the host that raised no exception. -/
def exited (v : SvmCustomVcpu) (xcr0 : Nat) (p : Processor) : SvmCustomVcpu :=
  { (v.saveGuest p).saveEventInjection with
    header := (v.saveGuest p).saveEventInjection.header.savedWith xcr0 p }

end SvmCustomVcpu

theorem nvcSvmSwitchToHostVcpu_eq {cpu : Xsave.Features} {p : Processor} {host : VirtualCpu}
    {cvcpu : SvmCustomVcpu} (hnsv : cvcpu.nsvGuest = false) (h : HostLoadable cpu host) :
    nvcSvmSwitchToHostVcpu cpu p host cvcpu =
      some (p.loaded Register.isAddressBreakpoint (host.reg .xcr0) host, cvcpu.exited (host.reg .xcr0) p) := by
  unfold nvcSvmSwitchToHostVcpu
  dsimp only
  rw [hnsv, if_neg Bool.false_ne_true, leaveGuest_of_loadable h]
  rfl

theorem nvcSvmSwitchToHostVcpu_eq_some {cpu : Xsave.Features} {p p' : Processor} {host : VirtualCpu}
    {cvcpu cvcpu' : SvmCustomVcpu} (hnsv : cvcpu.nsvGuest = false)
    (h : nvcSvmSwitchToHostVcpu cpu p host cvcpu = some (p', cvcpu')) :
    HostLoadable cpu host ∧ p' = p.loaded Register.isAddressBreakpoint (host.reg .xcr0) host ∧
      cvcpu' = cvcpu.exited (host.reg .xcr0) p := by
  have hloadable : HostLoadable cpu host := by
    unfold nvcSvmSwitchToHostVcpu at h
    rw [Option.map_eq_some_iff] at h
    obtain ⟨⟨q, header⟩, hload, -⟩ := h
    exact (leaveGuest_eq_some hload).1
  rw [nvcSvmSwitchToHostVcpu_eq hnsv hloadable] at h
  obtain ⟨rfl, rfl⟩ := Prod.mk.inj (Option.some.inj h)
  exact ⟨hloadable, rfl, rfl⟩

end NoirVisor
