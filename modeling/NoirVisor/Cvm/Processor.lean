import NoirVisor.Cvm.Register

/-!
# The processor at a world switch

What the hypervisor saves and loads itself: registers that no control block holds, and the extended
state. The general-purpose registers of `reg` are those of the frame that the next entry loads.
-/

namespace NoirVisor

@[ext]
structure Processor where
  reg : Register → Nat
  xstate : Xsave.State

/-- The registers of `select` from `src`, the others from `dst`. -/
def copyRegisters (select : Register → Bool) (src dst : Register → Nat) : Register → Nat :=
  fun r => if select r then src r else dst r

namespace Processor

/-- The exception of an instruction leaves no processor state. -/
def xsetbv (cpu : Xsave.Features) (value : Nat) (p : Processor) : Option Processor :=
  (Xsave.setXcr0 cpu value).map fun xcr0 =>
    { p with reg := copyRegisters (· == .xcr0) (fun _ => xcr0) p.reg }

def xrestore (cpu : Xsave.Features) (area : Xsave.Area) (p : Processor) : Option Processor :=
  (Xsave.restore cpu (p.reg .xcr0) area p.xstate).map fun xstate => { p with xstate }

def xsave (p : Processor) (area : Xsave.Area) : Xsave.Area := Xsave.save (p.reg .xcr0) p.xstate area

def loadRegisters (select : Register → Bool) (reg : Register → Nat) (p : Processor) : Processor :=
  { p with reg := copyRegisters select reg p.reg }

end Processor

namespace VirtualCpu

def saveRegisters (select : Register → Bool) (p : Processor) (vcpu : VirtualCpu) : VirtualCpu :=
  { vcpu with reg := copyRegisters select p.reg vcpu.reg }

def saveExtended (p : Processor) (vcpu : VirtualCpu) : VirtualCpu :=
  { vcpu with xsaveArea := p.xsave vcpu.xsaveArea }

end VirtualCpu

/-- The registers that a switch saves and loads itself: some are loaded after XCR0. -/
def switched (late : Register → Bool) (r : Register) : Bool := r.isGpr || r == .xcr0 || late r

/-- A guest is loaded while XCR0 still has the value of the host. -/
def Processor.enterGuest (cpu : Xsave.Features) (late : Register → Bool) (guest : VirtualCpu)
    (p : Processor) : Option Processor :=
  ((p.loadRegisters Register.isGpr guest.reg).xrestore cpu guest.xsaveArea).bind fun p =>
    (p.xsetbv cpu (guest.reg .xcr0)).map (·.loadRegisters late guest.reg)

/-- The XCR0 of the host is back before the extended state of the guest is saved. -/
def Processor.leaveGuest (cpu : Xsave.Features) (late : Register → Bool) (host guest : VirtualCpu)
    (p : Processor) : Option (Processor × VirtualCpu) :=
  ((p.loadRegisters Register.isGpr host.reg).xsetbv cpu (host.reg .xcr0)).bind fun p =>
    (p.xrestore cpu host.xsaveArea).map fun p' =>
      (p'.loadRegisters late host.reg, guest.saveExtended p)

theorem copyRegisters_of_selected {select : Register → Bool} {src dst : Register → Nat} {r : Register}
    (h : select r = true) : copyRegisters select src dst r = src r := if_pos h

theorem copyRegisters_of_not_selected {select : Register → Bool} {src dst : Register → Nat}
    {r : Register} (h : select r = false) : copyRegisters select src dst r = dst r :=
  if_neg (by rw [h]; exact Bool.false_ne_true)

/-- No instruction of a switch to this guest raises an exception. -/
structure GuestLoadable (cpu : Xsave.Features) (guest : VirtualCpu) (p : Processor) : Prop where
  area : Xsave.Restorable cpu (p.reg .xcr0) guest.xsaveArea
  xcr0 : cpu.acceptsXcr0 (guest.reg .xcr0) = true

structure HostLoadable (cpu : Xsave.Features) (host : VirtualCpu) : Prop where
  area : Xsave.Restorable cpu (host.reg .xcr0) host.xsaveArea
  xcr0 : cpu.acceptsXcr0 (host.reg .xcr0) = true

/-- The processor after a switch that loads this state while XCR0 has this value. -/
def Processor.loaded (late : Register → Bool) (xcr0 : Nat) (vcpu : VirtualCpu) (p : Processor) :
    Processor where
  reg := copyRegisters (switched late) vcpu.reg p.reg
  xstate := vcpu.xsaveArea.loaded xcr0 p.xstate

/-- The guest state is saved with the XCR0 of the host. -/
def VirtualCpu.savedWith (xcr0 : Nat) (p : Processor) (guest : VirtualCpu) : VirtualCpu :=
  { guest with xsaveArea := Xsave.save xcr0 p.xstate guest.xsaveArea }

section Switch

variable {cpu : Xsave.Features} {late : Register → Bool} {host guest guest' : VirtualCpu}
  {p p' : Processor}

theorem copyRegisters_switched {src dst : Register → Nat} :
    copyRegisters late src
        (copyRegisters (· == .xcr0) (fun _ => src .xcr0) (copyRegisters Register.isGpr src dst)) =
      copyRegisters (switched late) src dst := by
  funext r
  by_cases hxcr0 : r = .xcr0
  · subst hxcr0
    simp [copyRegisters, switched]
  · by_cases hlate : late r = true <;> by_cases hgpr : r.isGpr = true <;>
      simp [copyRegisters, switched, hxcr0, hlate, hgpr]

theorem xsetbv_of_accepts {value : Nat} (h : cpu.acceptsXcr0 value = true) :
    p.xsetbv cpu value =
      some { p with reg := copyRegisters (· == .xcr0) (fun _ => value) p.reg } :=
  congrArg _ (if_pos h)

theorem xrestore_of_restorable {area : Xsave.Area} (h : Xsave.Restorable cpu (p.reg .xcr0) area) :
    p.xrestore cpu area = some { p with xstate := area.loaded (p.reg .xcr0) p.xstate } :=
  congrArg _ (if_pos h)

theorem accepts_of_xsetbv {value : Nat} (h : p.xsetbv cpu value = some p') :
    cpu.acceptsXcr0 value = true := by
  obtain ⟨xcr0, hset, -⟩ := Option.map_eq_some_iff.mp h
  exact (Xsave.setXcr0_eq_some hset).2

theorem restorable_of_xrestore {area : Xsave.Area} (h : p.xrestore cpu area = some p') :
    Xsave.Restorable cpu (p.reg .xcr0) area := by
  obtain ⟨xstate, hrestore, -⟩ := Option.map_eq_some_iff.mp h
  exact (Xsave.restore_eq_some hrestore).1

theorem enterGuest_of_loadable (h : GuestLoadable cpu guest p) :
    p.enterGuest cpu late guest = some (p.loaded late (p.reg .xcr0) guest) := by
  have harea : Xsave.Restorable cpu ((p.loadRegisters Register.isGpr guest.reg).reg .xcr0)
      guest.xsaveArea := h.area
  unfold Processor.enterGuest
  rw [xrestore_of_restorable harea, Option.bind_some, xsetbv_of_accepts h.xcr0, Option.map_some]
  exact congrArg some (Processor.ext copyRegisters_switched rfl)

theorem enterGuest_eq_some (h : p.enterGuest cpu late guest = some p') :
    GuestLoadable cpu guest p ∧ p' = p.loaded late (p.reg .xcr0) guest := by
  have hloadable : GuestLoadable cpu guest p := by
    obtain ⟨q, hrestore, hset⟩ := Option.bind_eq_some_iff.mp h
    obtain ⟨q', hset, -⟩ := Option.map_eq_some_iff.mp hset
    have harea := restorable_of_xrestore hrestore
    exact ⟨harea, accepts_of_xsetbv hset⟩
  rw [enterGuest_of_loadable hloadable] at h
  exact ⟨hloadable, (Option.some.inj h).symm⟩

theorem leaveGuest_of_loadable (h : HostLoadable cpu host) :
    p.leaveGuest cpu late host guest =
      some (p.loaded late (host.reg .xcr0) host, guest.savedWith (host.reg .xcr0) p) := by
  unfold Processor.leaveGuest
  rw [xsetbv_of_accepts h.xcr0, Option.bind_some, xrestore_of_restorable h.area, Option.map_some]
  exact congrArg some (Prod.ext (Processor.ext copyRegisters_switched rfl) rfl)

theorem leaveGuest_eq_some (h : p.leaveGuest cpu late host guest = some (p', guest')) :
    HostLoadable cpu host ∧ p' = p.loaded late (host.reg .xcr0) host ∧
      guest' = guest.savedWith (host.reg .xcr0) p := by
  have hloadable : HostLoadable cpu host := by
    obtain ⟨q, hset, hrestore⟩ := Option.bind_eq_some_iff.mp h
    obtain ⟨q', hrestore, -⟩ := Option.map_eq_some_iff.mp hrestore
    have haccepts := accepts_of_xsetbv hset
    rw [xsetbv_of_accepts haccepts] at hset
    cases Option.some.inj hset
    exact ⟨restorable_of_xrestore hrestore, haccepts⟩
  rw [leaveGuest_of_loadable hloadable] at h
  obtain ⟨rfl, rfl⟩ := Prod.mk.inj (Option.some.inj h)
  exact ⟨hloadable, rfl, rfl⟩

/-- What becomes of the processor does not depend on the guest that is left. -/
theorem leaveGuest_eq_map :
    p.leaveGuest cpu late host guest =
      (p.leaveGuest cpu late host guest').map fun result =>
        (result.1, guest.savedWith (host.reg .xcr0) p) := by
  by_cases h : HostLoadable cpu host
  · rw [leaveGuest_of_loadable h, leaveGuest_of_loadable h]
    rfl
  · have hnone (g : VirtualCpu) : p.leaveGuest cpu late host g = none := by
      cases hleave : p.leaveGuest cpu late host g with
      | none => rfl
      | some result => exact absurd (leaveGuest_eq_some hleave).1 h
    rw [hnone, hnone]
    rfl

/-- What an entry saves can be loaded again, if no component in the area is from another XCR0. -/
theorem saved_loadable {select : Register → Bool} (hselect : select .xcr0 = true)
    (hxcr0 : cpu.acceptsXcr0 (p.reg .xcr0) = true) (hmxcsr : cpu.acceptsMxcsr p.xstate.mxcsr = true)
    (harea : ∀ c, host.xsaveArea.xstateBv c = true → Xsave.enabled (p.reg .xcr0) c = true) :
    HostLoadable cpu ((host.saveRegisters select p).saveExtended p) := by
  have hsaved : ((host.saveRegisters select p).saveExtended p).reg .xcr0 = p.reg .xcr0 :=
    copyRegisters_of_selected hselect
  constructor
  · rw [hsaved]
    constructor
    · intro c hc
      by_cases henabled : Xsave.enabled (p.reg .xcr0) c = true
      · exact henabled
      · exact harea c ((if_neg henabled).symm.trans hc)
    · intro henabled
      exact (congrArg _ (if_pos henabled)).trans hmxcsr
  · rw [hsaved]
    exact hxcr0

end Switch

/-! A processor and a vCPU with nothing in them. -/

def zeroArea : Xsave.Area := ⟨fun _ => 0, 0, fun _ => false⟩

def zeroVirtualCpu : VirtualCpu where
  reg _ := 0
  xsaveArea := zeroArea
  stateCache _ := true
  synchronized := false
  injectedEvent := ⟨0, 0⟩
  vcpuOptions :=
    ⟨false, false, false, false, false, false, false, false, false, false, false, false⟩
  exceptionBitmap := 0

def zeroProcessor : Processor := ⟨fun _ => 0, ⟨fun _ => 0, 0⟩⟩

def anyFeatures : Xsave.Features := ⟨fun _ => true, fun _ => true⟩

end NoirVisor
