import Mathlib.Data.Nat.Bitwise
import Mathlib.Data.Fin.Basic

/-!
# Extended processor state

The state components that a mask in XCR0 enables, and the instructions that store them to an area in
memory and load them from one. The content of a component is a number, and zero stands for its
initial configuration.
-/

namespace Xsave

@[ext]
structure State where
  component : Fin 63 → Nat
  mxcsr : Nat

/-- An area in the standard format. `xstateBv` tells which components are not initial. -/
structure Area where
  component : Fin 63 → Nat
  mxcsr : Nat
  xstateBv : Fin 63 → Bool

/-- The values that the processor takes; it raises an exception at others. -/
structure Features where
  acceptsXcr0 : Nat → Bool
  acceptsMxcsr : Nat → Bool

def enabled (xcr0 : Nat) (c : Fin 63) : Bool := xcr0.testBit c

/-- MXCSR goes with the SSE and with the AVX state. -/
def mxcsrEnabled (xcr0 : Nat) : Bool := xcr0.testBit 1 || xcr0.testBit 2

/-- What a component is when the area is loaded. -/
def Area.value (area : Area) (c : Fin 63) : Nat := if area.xstateBv c then area.component c else 0

def save (xcr0 : Nat) (s : State) (area : Area) : Area where
  component c := if enabled xcr0 c then s.component c else area.component c
  mxcsr := if mxcsrEnabled xcr0 then s.mxcsr else area.mxcsr
  xstateBv c := if enabled xcr0 c then decide (s.component c ≠ 0) else area.xstateBv c

/-- No component that XCR0 does not enable is in the area, and the processor takes its MXCSR. -/
def Restorable (cpu : Features) (xcr0 : Nat) (area : Area) : Prop :=
  (∀ c, area.xstateBv c = true → enabled xcr0 c = true) ∧
    (mxcsrEnabled xcr0 = true → cpu.acceptsMxcsr area.mxcsr = true)

instance (cpu : Features) (xcr0 : Nat) (area : Area) : Decidable (Restorable cpu xcr0 area) :=
  inferInstanceAs (Decidable (_ ∧ _))

def Area.loaded (area : Area) (xcr0 : Nat) (s : State) : State where
  component c := if enabled xcr0 c then area.value c else s.component c
  mxcsr := if mxcsrEnabled xcr0 then area.mxcsr else s.mxcsr

/-- Any other area is an exception. -/
def restore (cpu : Features) (xcr0 : Nat) (area : Area) (s : State) : Option State :=
  if Restorable cpu xcr0 area then some (area.loaded xcr0 s) else none

def setXcr0 (cpu : Features) (value : Nat) : Option Nat :=
  if cpu.acceptsXcr0 value then some value else none

variable {cpu : Features} {xcr0 : Nat} {s s' : State} {area : Area}

theorem value_save (c : Fin 63) :
    (save xcr0 s area).value c = if enabled xcr0 c then s.component c else area.value c := by
  unfold Area.value save
  by_cases hc : enabled xcr0 c = true
  · by_cases hzero : s.component c = 0 <;> simp [hc, hzero]
  · simp [hc]

theorem restore_eq_some (h : restore cpu xcr0 area s = some s') :
    Restorable cpu xcr0 area ∧ s' = area.loaded xcr0 s := by
  unfold restore at h
  split at h
  · next hrestorable => exact ⟨hrestorable, (Option.some.inj h).symm⟩
  · cases h

theorem setXcr0_eq_some {value value' : Nat} (h : setXcr0 cpu value = some value') :
    value' = value ∧ cpu.acceptsXcr0 value = true := by
  unfold setXcr0 at h
  split at h
  · next haccepts => exact ⟨(Option.some.inj h).symm, haccepts⟩
  · cases h

end Xsave
