import Mathlib.Data.List.FinRange
import NoirVisor.Platform
import NoirVisor.Writeback
import NoirVisor.Xsave

/-!
# The registers of a virtual CPU

The state a layered hypervisor edits and views, with the bits that tell which register groups are
valid in the control block of the processor.
-/

namespace NoirVisor

inductive SegmentName where
  | es | cs | ss | ds | fs | gs | tr | gdtr | idtr | ldtr
deriving DecidableEq, Repr

/-- The base is eight bytes: an edit with a short buffer writes only some of them. -/
inductive SegmentField where
  | selector
  | attrib
  | limit
  | baseByte (i : Fin 8)
deriving DecidableEq, Repr

inductive Register where
  | gpr (i : Fin 16)
  | rflags | rip
  | seg (name : SegmentName) (field : SegmentField)
  | cr0 | cr2 | cr3 | cr4 | cr8
  | dr (i : Fin 4)
  | dr6 | dr7
  | xcr0
  | sysenterCs | sysenterEsp | sysenterEip
  | pat | efer
  | star | lstar | cstar | sfmask | ststar | gsswap
  | apic
  | debugCtrl | lastBranchFromIp | lastBranchToIp | lastExceptionFromIp | lastExceptionToIp
  | tscOffset
  | ghcb
deriving DecidableEq, Repr

namespace Register

def rax : Register := .gpr 0
def rsp : Register := .gpr 4

def isGpr : Register → Bool
  | .gpr _ => true
  | _ => false

/-- DR0 to DR3. -/
def isAddressBreakpoint : Register → Bool
  | .dr _ => true
  | _ => false

/-- A field of one of these segments. -/
def isSegment (names : List SegmentName) : Register → Bool
  | .seg name _ => names.contains name
  | _ => false

/-- The limits and bases of GDTR and IDTR. -/
def isDescriptorTable : Register → Bool
  | .seg .gdtr .limit | .seg .gdtr (.baseByte _) => true
  | .seg .idtr .limit | .seg .idtr (.baseByte _) => true
  | _ => false

/-! The registers that belong to one group on either core. -/

def inCrGroup : Register → Bool
  | .cr0 | .cr3 | .cr4 => true
  | _ => false

def inSrGroup : Register → Bool
  | .seg .cs _ | .seg .ds _ | .seg .es _ | .seg .ss _ => true
  | _ => false

def inFsGs : Register → Bool
  | .seg .fs _ | .seg .gs _ => true
  | _ => false

def inLtGroup : Register → Bool
  | .seg .tr _ | .seg .ldtr _ => true
  | _ => false

def inSeGroup : Register → Bool
  | .sysenterCs | .sysenterEsp | .sysenterEip => true
  | _ => false

def inScGroup : Register → Bool
  | .star | .lstar | .cstar | .sfmask => true
  | _ => false

end Register

/-- The bits of `noir_cvm_vcpu_state_cache`, without `synchronized`. -/
inductive StateCache where
  | gpr | cr | cr2 | dr | sr | fg | dt | lt | sc | se | tp | ef | pa | lb | ap | ts | tl
deriving DecidableEq, Repr

structure EventInjection where
  attributes : Nat
  errorCode : Nat

namespace EventInjection

def vector (e : EventInjection) : Nat := e.attributes % 2 ^ 8
def type (e : EventInjection) : Nat := e.attributes / 2 ^ 8 % 2 ^ 3
def priority (e : EventInjection) : Nat := e.attributes / 2 ^ 27 % 2 ^ 4
def valid (e : EventInjection) : Bool := e.attributes.testBit 31

end EventInjection

structure VcpuOptions where
  interceptCpuid : Bool
  interceptMsr : Bool
  interceptInterruptWindow : Bool
  interceptExceptions : Bool
  interceptCr3 : Bool
  interceptDrx : Bool
  interceptPause : Bool
  npiep : Bool
  interceptNmiWindow : Bool
  interceptRsm : Bool
  blockingByNmi : Bool
  hiddenTf : Bool

structure VirtualCpu where
  reg : Register → Nat
  xsaveArea : Xsave.Area
  stateCache : StateCache → Bool
  synchronized : Bool
  injectedEvent : EventInjection
  vcpuOptions : VcpuOptions
  exceptionBitmap : Nat

/-- A buffer as its 64-bit words, and as an extended state area. -/
structure Buffer where
  word : Nat → Nat
  area : Xsave.Area

/-- An element of an array of named registers, as its first two 64-bit words. -/
structure Element where
  low : Nat
  high : Nat

abbrev RegisterEdit := Writeback.Edit Register StateCache Nat

/-- The fields of a `segment_register` in two words. -/
def segmentField (low high : Nat) : SegmentField → Nat
  | .selector => low % 2 ^ 16
  | .attrib => low / 2 ^ 16 % 2 ^ 16
  | .limit => low / 2 ^ 32 % 2 ^ 32
  | .baseByte i => high / 256 ^ i.val % 256

def segmentLow (reg : SegmentField → Nat) : Nat :=
  reg .selector + reg .attrib * 2 ^ 16 + reg .limit * 2 ^ 32

def segmentHigh (reg : SegmentField → Nat) : Nat :=
  ((List.finRange 8).map fun i => reg (.baseByte i) * 256 ^ i.val).sum

inductive RegisterType where
  | generalPurposeRegister
  | flagsRegister
  | instructionPointer
  | controlRegister
  | cr2Register
  | debugRegister
  | dr67Register
  | segmentRegister
  | fgsegRegister
  | descriptorTable
  | ldtrTaskRegister
  | syscallMsrRegister
  | sysenterMsrRegister
  | cr8Register
  | fxstate
  | xsaveArea
  | xcr0Register
  | eferRegister
  | patRegister
  | lastBranchRecordRegister
  | timeStampCounter
  | ghcbRegister
  | apicBarRegister
deriving DecidableEq, Repr

/-- `noir_cvm_register_buffer_limit`. -/
def RegisterType.bufferLimit : RegisterType → Nat
  | .generalPurposeRegister => 128
  | .flagsRegister => 8
  | .instructionPointer => 8
  | .controlRegister => 24
  | .cr2Register => 8
  | .debugRegister => 32
  | .dr67Register => 16
  | .segmentRegister => 64
  | .fgsegRegister => 32
  | .descriptorTable => 32
  | .ldtrTaskRegister => 32
  | .syscallMsrRegister => 32
  | .sysenterMsrRegister => 24
  | .cr8Register => 8
  | .fxstate => 512
  | .xsaveArea => 0
  | .xcr0Register => 8
  | .eferRegister => 8
  | .patRegister => 8
  | .lastBranchRecordRegister => 40
  | .timeStampCounter => 8
  | .ghcbRegister => 8
  | .apicBarRegister => 8

/-- The first 512 bytes of an area: the x87 and the SSE state. -/
def copyFxState (b area : Xsave.Area) : Xsave.Area where
  component c := if c.val < 2 then b.component c else area.component c
  mxcsr := b.mxcsr
  xstateBv := area.xstateBv

/-- The segments in the order of their names and of `noir_seg_state`. -/
def segmentOrder : List SegmentName := [.es, .cs, .ss, .ds, .fs, .gs, .tr, .gdtr, .idtr, .ldtr]

def SegmentName.stateCache : SegmentName → StateCache
  | .es | .cs | .ds | .ss => .sr
  | .fs | .gs => .fg
  | .gdtr | .idtr => .dt
  | .tr | .ldtr => .lt

/-- Whether a copy of this many bytes reaches a field. -/
def SegmentField.within (bytes : Nat) : SegmentField → Bool
  | .baseByte i => 8 + i.val < bytes
  | _ => true

/-- The low bytes of a number, put together. -/
theorem sum_bytes (value n : Nat) :
    ((List.range n).map fun i => value / 256 ^ i % 256 * 256 ^ i).sum = value % 256 ^ n := by
  induction n with
  | zero => exact (Nat.mod_one value).symm
  | succ n ih =>
      rw [List.range_succ, List.map_append, List.sum_append, ih, Nat.mod_pow_succ, List.map_singleton,
        List.sum_singleton, Nat.mul_comm (256 ^ n)]

theorem segmentHigh_segmentField {low value : Nat} (h : value < 2 ^ 64) :
    segmentHigh (segmentField low value) = value := by
  have hbytes : segmentHigh (segmentField low value) =
      ((List.finRange 8).map fun i => value / 256 ^ i.val % 256 * 256 ^ i.val).sum := rfl
  have hrange : (List.range 8).map (fun i => value / 256 ^ i % 256 * 256 ^ i) =
      (List.finRange 8).map fun i => value / 256 ^ i.val % 256 * 256 ^ i.val := by
    rw [← List.map_coe_finRange_eq_range, List.map_map]
    rfl
  rw [hbytes, ← hrange, sum_bytes]
  exact Nat.mod_eq_of_lt h

end NoirVisor
