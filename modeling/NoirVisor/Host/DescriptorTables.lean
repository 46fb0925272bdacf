import NoirVisor.Host.Npiep
import NoirVisor.NestedVmx.Instructions

/-!
# Operands in memory on VT

Two handlers form the linear address of an operand from what the VMCS tells of the instruction: the one
of the VMX instructions, and the one of `lgdt`, `lidt`, `sgdt` and `sidt`. The second then moves the
operand itself.
-/

namespace NoirVisor

/-! ### Linear addresses -/

section Address

variable {n : Nat} {segment segment' base base' index index' displacement : BitVec 64}

/-- The processor cuts the offset off, and adds the base of the segment. -/
def linearAddress (n : Nat) (segment offset : BitVec 64) : BitVec 64 :=
  segment + (offset.setWidth n).setWidth 64

theorem eq_setWidth_iff {x : BitVec 64} {y : BitVec n} (hn : n ≤ 64) :
    x = y.setWidth 64 ↔ x.toNat < 2 ^ n ∧ x.setWidth n = y := by
  constructor
  · rintro rfl
    have hlt : y.toNat < 2 ^ 64 := y.isLt.trans_le (Nat.pow_le_pow_right (by decide) hn)
    rw [BitVec.toNat_setWidth, Nat.mod_eq_of_lt hlt]
    exact ⟨y.isLt, by simp [BitVec.setWidth_setWidth_of_le, hn]⟩
  · rintro ⟨hlt, rfl⟩
    apply BitVec.eq_of_toNat_eq
    rw [BitVec.toNat_setWidth, BitVec.toNat_setWidth, Nat.mod_eq_of_lt hlt, Nat.mod_eq_of_lt x.isLt]

/-- An offset that is not cut off is right if it has nothing to cut off, and if its registers give the
same. The displacement does not matter. -/
theorem eq_linearAddress_iff (hn : n ≤ 64) :
    base' + index' + segment + displacement =
        linearAddress n segment (base + index + displacement) ↔
      (base' + index' + displacement).toNat < 2 ^ n ∧
        (base' + index').setWidth n = (base + index).setWidth n := by
  have hcommute : base' + index' + segment + displacement =
      segment + (base' + index' + displacement) := by
    rw [BitVec.add_comm (base' + index'), BitVec.add_assoc]
  unfold linearAddress
  rw [hcommute, BitVec.add_right_inj, eq_setWidth_iff hn, BitVec.setWidth_add _ _ hn,
    BitVec.setWidth_add (base + index) _ hn, BitVec.add_left_inj]

/-- An address that is cut off with the base of the segment is right if nothing is lost of the sum, and
if index and segment are right with the displacement that they lack. -/
theorem setWidth_eq_linearAddress_iff (hn : n ≤ 64) :
    ((base + index' + segment').setWidth n).setWidth 64 =
        linearAddress n segment (base + index + displacement) ↔
      (linearAddress n segment (base + index + displacement)).toNat < 2 ^ n ∧
        (index' + segment').setWidth n = (index + displacement + segment).setWidth n := by
  have hlow : (linearAddress n segment (base + index + displacement)).setWidth n =
      base.setWidth n + (index + displacement + segment).setWidth n := by
    unfold linearAddress
    rw [BitVec.setWidth_add _ _ hn, BitVec.setWidth_setWidth_of_le _ hn, BitVec.setWidth_eq,
      BitVec.add_assoc base, BitVec.setWidth_add base _ hn, BitVec.setWidth_add _ segment hn,
      BitVec.add_comm (segment.setWidth n), BitVec.add_assoc]
  rw [eq_comm, eq_setWidth_iff hn, hlow]
  refine and_congr_right fun _ => ?_
  rw [BitVec.add_assoc base, BitVec.setWidth_add base _ hn, BitVec.add_right_inj, eq_comm]

end Address

/-! ### The operand of a VMX instruction -/

namespace VmxExit

variable (e : VmxExit)

/-- The base register twice, once as the index, is what the processor has, and the sum with the
displacement has the width of addresses. -/
def PointerFits : Prop :=
  (e.gprState e.base + e.gprState e.base <<< e.scaling + e.displacement).toNat < 2 ^ e.addressSize ∧
    (e.gprState e.base + e.gprState e.base <<< e.scaling).setWidth e.addressSize =
      ((if e.baseInvalid then 0 else e.gpr e.base) +
        if e.indexInvalid then 0 else e.gpr e.index <<< e.scaling).setWidth e.addressSize

theorem nvcVtParseVmxPointer_iff (hsize : e.addressSize ≤ 64) :
    e.nvcVtParseVmxPointer = e.operandAddress ↔ e.PointerFits :=
  eq_linearAddress_iff hsize

end VmxExit

/-! ### Access to GDTR and IDTR -/

inductive DescriptorTable where
  | gdtr | idtr
deriving DecidableEq

/-- The two address spaces that are in use while an exit is handled: the host's, with which the
processor exits, and the guest's. -/
inductive AddressSpace where
  | host | guest
deriving DecidableEq

/-- Bytes by their linear address; none where an access raises an exception. -/
abbrev LinearMemory := BitVec 64 → Option (BitVec 8)

namespace LinearMemory

variable (m : LinearMemory)

/-- The number that the bytes from this address on make. -/
def load (address : BitVec 64) : Nat → Option Nat
  | 0 => some 0
  | n + 1 =>
      (m address).bind fun byte =>
        (load (address + 1) n).map fun rest => byte.toNat + 256 * rest

def store (address : BitVec 64) (value : Nat) : Nat → Option LinearMemory
  | 0 => some m
  | n + 1 =>
      (m address).bind fun _ =>
        (store (address + 1) (value / 256) n).map fun m =>
          Function.update m address (some (BitVec.ofNat 8 value))

end LinearMemory

/-- An exit for `lgdt`, `lidt`, `sgdt` or `sidt`: the registers of the frame, which has no register 4,
and what the VMCS tells. `hvType1` is for the hypervisor that boots before its host. -/
structure DescriptorExit where
  hvType1 : Bool
  exitInfo : BitVec 32
  displacement : BitVec 64
  gprArray : BitVec 4 → BitVec 64
  rsp : BitVec 64
  segmentBase : BitVec 3 → BitVec 64
  segmentSelector : BitVec 3 → BitVec 16
  pe : Bool
  longMode : Bool
  ssDpl : BitVec 2
  npiepConfig : BitVec 64
  instructionLength : BitVec 64

/-- What the handler changes. A limit has 32 bits in the VMCS. -/
structure DescriptorState where
  limit : DescriptorTable → BitVec 32
  base : DescriptorTable → BitVec 64
  memory : AddressSpace → LinearMemory
  rip : BitVec 64

namespace DescriptorExit

variable (e : DescriptorExit) (s : DescriptorState)

/-! The fields of `f2`. -/

def scaling : BitVec 2 := e.exitInfo.extractLsb' 0 2
def addressSize : BitVec 3 := e.exitInfo.extractLsb' 7 3
def operandSize : Bool := e.exitInfo.getLsbD 11
def segment : BitVec 3 := e.exitInfo.extractLsb' 15 3
def index : BitVec 4 := e.exitInfo.extractLsb' 18 4
def indexInvalid : Bool := e.exitInfo.getLsbD 22
def base : BitVec 4 := e.exitInfo.extractLsb' 23 4
def baseInvalid : Bool := e.exitInfo.getLsbD 27
def isIdtrAccess : Bool := e.exitInfo.getLsbD 28
def isLoading : Bool := e.exitInfo.getLsbD 29

def table : DescriptorTable := if e.isIdtrAccess then .idtr else .gdtr

def baseTerm : BitVec 64 :=
  if e.baseInvalid then 0 else if e.base = 4 then e.rsp else e.gprArray e.base

/-- The count is the register that the scaling would be the number of; the processor takes it modulo
64. -/
def indexTerm : BitVec 64 :=
  if e.indexInvalid then 0
  else e.gprArray e.index <<< ((e.gprArray (e.scaling.setWidth 4)).toNat % 64)

/-- The base of the segment, as the handler finds it. -/
def segBase : BitVec 64 :=
  if e.hvType1 && !e.pe then (e.segmentSelector e.segment).setWidth 64 <<< 4
  else e.segmentBase e.segment

/-- The displacement is read, and not added. -/
def pointer : BitVec 64 :=
  let pointer := e.baseTerm + e.indexTerm + e.segBase
  if e.addressSize = 1 then pointer &&& 0xFFFFFFFF
  else if e.addressSize = 0 then pointer &&& 0xFFFF
  else pointer

/-- The bytes of the base in memory. -/
def baseBytes : Nat := if e.longMode then 8 else 4

/-- Out of long mode, the instruction pointer has 32 bits. -/
def advanced (s : DescriptorState) : DescriptorState :=
  let gip := s.rip + e.instructionLength
  { s with rip := if e.longMode then gip else gip &&& 0xFFFFFFFF }

def setTable (limit base : Nat) (s : DescriptorState) : DescriptorState :=
  { s with
    limit := Function.update s.limit e.table (BitVec.ofNat 32 limit)
    base := Function.update s.base e.table (BitVec.ofNat 64 base) }

def preventBit : Nat :=
  if e.isIdtrAccess then NpiepInstruction.sidt.preventBit else NpiepInstruction.sgdt.preventBit

def prevented : Bool := decide (e.ssDpl ≠ 0) && e.npiepConfig.getLsbD e.preventBit

/-- The limit and the base that a store is to have. -/
def storedTable : Nat × Nat :=
  if e.prevented then (0x2333, 0x6666666666666666)
  else ((s.limit e.table).toNat % 2 ^ 16, (s.base e.table).toNat)

/-- The base goes to memory before the limit. -/
def storeOperand (m : LinearMemory) (address : BitVec 64) : Option LinearMemory :=
  (m.store (address + 2) (e.storedTable s).2 e.baseBytes).bind
    (·.store address (e.storedTable s).1 2)

/-- A load is made in the address space of the host, and a store in that of the guest. -/
def nvcVtAccessGdtrIdtrHandler : Option DescriptorState :=
  if e.isLoading then
    ((s.memory .host).load e.pointer 2).bind fun limit =>
      ((s.memory .host).load (e.pointer + 2) e.baseBytes).map fun base =>
        e.advanced (e.setTable limit base s)
  else
    (e.storeOperand s (s.memory .guest) e.pointer).map fun m =>
      e.advanced { s with memory := Function.update s.memory .guest m }

/-! What the processor does. -/

def addressWidth : Nat := if e.addressSize = 0 then 16 else if e.addressSize = 1 then 32 else 64

def gpr (r : BitVec 4) : BitVec 64 := if r = 4 then e.rsp else e.gprArray r

def offset : BitVec 64 :=
  (if e.baseInvalid then 0 else e.gpr e.base) +
      (if e.indexInvalid then 0 else e.gpr e.index <<< e.scaling) +
    e.displacement

def operandAddress : BitVec 64 := linearAddress e.addressWidth (e.segmentBase e.segment) e.offset

/-- A base of 24 bits is loaded with an operand of 16. -/
def loadedBase (base : Nat) : Nat := if e.longMode || e.operandSize then base else base % 2 ^ 24

/-- None if the operand is one that the guest may not access. -/
def executed : Option DescriptorState :=
  if e.isLoading then
    ((s.memory .guest).load e.operandAddress 2).bind fun limit =>
      ((s.memory .guest).load (e.operandAddress + 2) e.baseBytes).map fun base =>
        e.advanced (e.setTable limit (e.loadedBase base) s)
  else
    (e.storeOperand s (s.memory .guest) e.operandAddress).map fun m =>
      e.advanced { s with memory := Function.update s.memory .guest m }

/-- The handler finds the operand, and moves it as the processor does. -/
def Emulates : Prop :=
  e.pointer = e.operandAddress ∧
    ∀ s', e.executed s = some s' → e.nvcVtAccessGdtrIdtrHandler s = some s'

/-- What the handler takes for index and segment is these with the displacement, and the linear
address has the width of offsets. -/
def AddressFits : Prop :=
  e.operandAddress.toNat < 2 ^ e.addressWidth ∧
    (e.indexTerm + e.segBase).setWidth e.addressWidth =
      ((if e.indexInvalid then 0 else e.gpr e.index <<< e.scaling) + e.displacement +
        e.segmentBase e.segment).setWidth e.addressWidth

/-- A load finds in the address space of the host what it has to load. -/
def Settled : Prop :=
  e.AddressFits ∧
    (e.isLoading = true → ∀ limit base,
      (s.memory .guest).load e.operandAddress 2 = some limit →
        (s.memory .guest).load (e.operandAddress + 2) e.baseBytes = some base →
          (s.memory .host).load e.operandAddress 2 = some limit ∧
            (s.memory .host).load (e.operandAddress + 2) e.baseBytes = some (e.loadedBase base))

end DescriptorExit

namespace LinearMemory

variable {m : LinearMemory}

theorem load_lt {address : BitVec 64} {n value : Nat} (h : m.load address n = some value) :
    value < 256 ^ n := by
  induction n generalizing address value with
  | zero =>
      cases h
      exact Nat.one_pos
  | succ n ih =>
      obtain ⟨byte, -, hrest⟩ := Option.bind_eq_some_iff.mp h
      obtain ⟨rest, hload, rfl⟩ := Option.map_eq_some_iff.mp hrest
      have hlt := ih hload
      have hbyte := byte.isLt
      rw [Nat.pow_succ]
      omega

end LinearMemory

namespace DescriptorExit

variable {e : DescriptorExit} {s s' : DescriptorState}

theorem addressWidth_le : e.addressWidth ≤ 64 := by
  unfold addressWidth
  split
  · decide
  · split <;> decide

theorem pointer_eq :
    e.pointer =
      ((e.baseTerm + e.indexTerm + e.segBase).setWidth e.addressWidth).setWidth 64 := by
  unfold pointer addressWidth
  dsimp only
  generalize e.baseTerm + e.indexTerm + e.segBase = address
  have hcut {n : Nat} (hn : n < 64) :
      address &&& BitVec.ofNat 64 (2 ^ n - 1) = (address.setWidth n).setWidth 64 := by
    have hle : 2 ^ n < 2 ^ 64 := Nat.pow_lt_pow_right (by decide) hn
    have hlt : address.toNat % 2 ^ n < 2 ^ 64 := (Nat.mod_lt _ (Nat.two_pow_pos n)).trans hle
    apply BitVec.eq_of_toNat_eq
    rw [BitVec.toNat_and, BitVec.toNat_ofNat, Nat.mod_eq_of_lt (by omega),
      Nat.and_two_pow_sub_one_eq_mod, BitVec.toNat_setWidth, BitVec.toNat_setWidth,
      Nat.mod_eq_of_lt hlt]
  by_cases h32 : e.addressSize = 1
  · have h16 : e.addressSize ≠ 0 := by
      rw [h32]
      decide
    rw [if_pos h32, if_neg h16, if_pos h32]
    exact hcut (n := 32) (by decide)
  · rw [if_neg h32]
    by_cases h16 : e.addressSize = 0
    · rw [if_pos h16, if_pos h16]
      exact hcut (n := 16) (by decide)
    · rw [if_neg h16, if_neg h16, if_neg h32, BitVec.setWidth_eq, BitVec.setWidth_eq]

theorem pointer_iff : e.pointer = e.operandAddress ↔ e.AddressFits := by
  rw [pointer_eq]
  exact setWidth_eq_linearAddress_iff addressWidth_le

theorem loadedBase_le (base : Nat) : e.loadedBase base ≤ base := by
  unfold loadedBase
  split
  · exact le_refl base
  · exact Nat.mod_le _ _

theorem baseBytes_le : 256 ^ e.baseBytes ≤ 2 ^ 64 := by
  unfold baseBytes
  split <;> decide

/-- The table register tells what it was loaded with. -/
theorem advanced_setTable_inj {limit limit' base base' : Nat} (hlimit : limit < 2 ^ 32)
    (hlimit' : limit' < 2 ^ 32) (hbase : base < 2 ^ 64) (hbase' : base' < 2 ^ 64) :
    e.advanced (e.setTable limit base s) = e.advanced (e.setTable limit' base' s) ↔
      limit = limit' ∧ base = base' := by
  constructor
  · intro h
    have hread (limit base : Nat) : (e.advanced (e.setTable limit base s)).limit e.table =
        BitVec.ofNat 32 limit ∧ (e.advanced (e.setTable limit base s)).base e.table =
          BitVec.ofNat 64 base :=
      ⟨Function.update_self _ _ _, Function.update_self _ _ _⟩
    have hsameLimit := (hread limit base).1.symm.trans
      ((congrArg (·.limit e.table) h).trans (hread limit' base').1)
    have hsameBase := (hread limit base).2.symm.trans
      ((congrArg (·.base e.table) h).trans (hread limit' base').2)
    have hsameLimit := congrArg BitVec.toNat hsameLimit
    have hsameBase := congrArg BitVec.toNat hsameBase
    rw [BitVec.toNat_ofNat, BitVec.toNat_ofNat, Nat.mod_eq_of_lt hlimit,
      Nat.mod_eq_of_lt hlimit'] at hsameLimit
    rw [BitVec.toNat_ofNat, BitVec.toNat_ofNat, Nat.mod_eq_of_lt hbase,
      Nat.mod_eq_of_lt hbase'] at hsameBase
    exact ⟨hsameLimit, hsameBase⟩
  · rintro ⟨rfl, rfl⟩
    rfl

theorem executed_load (hload : e.isLoading = true) :
    e.executed s = some s' ↔ ∃ limit base,
      (s.memory .guest).load e.operandAddress 2 = some limit ∧
        (s.memory .guest).load (e.operandAddress + 2) e.baseBytes = some base ∧
          e.advanced (e.setTable limit (e.loadedBase base) s) = s' := by
  unfold executed
  rw [if_pos hload]
  simp only [Option.bind_eq_some_iff, Option.map_eq_some_iff]
  exact ⟨fun ⟨limit, hlimit, base, hbase, h⟩ => ⟨limit, base, hlimit, hbase, h⟩,
    fun ⟨limit, base, hlimit, hbase, h⟩ => ⟨limit, hlimit, base, hbase, h⟩⟩

theorem handler_load (hload : e.isLoading = true) (hpointer : e.pointer = e.operandAddress) :
    e.nvcVtAccessGdtrIdtrHandler s = some s' ↔ ∃ limit base,
      (s.memory .host).load e.operandAddress 2 = some limit ∧
        (s.memory .host).load (e.operandAddress + 2) e.baseBytes = some base ∧
          e.advanced (e.setTable limit base s) = s' := by
  unfold nvcVtAccessGdtrIdtrHandler
  rw [if_pos hload, hpointer]
  simp only [Option.bind_eq_some_iff, Option.map_eq_some_iff]
  exact ⟨fun ⟨limit, hlimit, base, hbase, h⟩ => ⟨limit, base, hlimit, hbase, h⟩,
    fun ⟨limit, base, hlimit, hbase, h⟩ => ⟨limit, hlimit, base, hbase, h⟩⟩

theorem executed_store (hload : e.isLoading = false) (hpointer : e.pointer = e.operandAddress) :
    e.nvcVtAccessGdtrIdtrHandler s = e.executed s := by
  unfold nvcVtAccessGdtrIdtrHandler executed
  rw [hload, if_neg Bool.false_ne_true, if_neg Bool.false_ne_true, hpointer]

/-- Where the operand is found, only a load can go wrong. -/
theorem moves_iff (hpointer : e.pointer = e.operandAddress) :
    (∀ s', e.executed s = some s' → e.nvcVtAccessGdtrIdtrHandler s = some s') ↔
      (e.isLoading = true → ∀ limit base,
        (s.memory .guest).load e.operandAddress 2 = some limit →
          (s.memory .guest).load (e.operandAddress + 2) e.baseBytes = some base →
            (s.memory .host).load e.operandAddress 2 = some limit ∧
              (s.memory .host).load (e.operandAddress + 2) e.baseBytes = some (e.loadedBase base)) := by
  cases hload : e.isLoading with
  | false =>
      refine iff_of_true (fun s' h => ?_) fun h => (nomatch h)
      exact (executed_store hload hpointer).trans h
  | true =>
      constructor
      · intro hmoves _ limit base hlimit hbase
        obtain ⟨limit', base', hlimit', hbase', hsame⟩ := (handler_load hload hpointer).mp
          (hmoves _ ((executed_load hload).mpr ⟨limit, base, hlimit, hbase, rfl⟩))
        have hwidth : (256 : Nat) ^ 2 < 2 ^ 32 := by decide
        have hlt := (loadedBase_le base (e := e)).trans_lt
          ((LinearMemory.load_lt hbase).trans_le baseBytes_le)
        obtain ⟨rfl, rfl⟩ := (advanced_setTable_inj ((LinearMemory.load_lt hlimit').trans hwidth)
          ((LinearMemory.load_lt hlimit).trans hwidth)
          ((LinearMemory.load_lt hbase').trans_le baseBytes_le) hlt).mp hsame
        exact ⟨hlimit', hbase'⟩
      · intro hfinds s' hexecuted
        obtain ⟨limit, base, hlimit, hbase, hsame⟩ := (executed_load hload).mp hexecuted
        obtain ⟨hlimit', hbase'⟩ := hfinds rfl limit base hlimit hbase
        exact (handler_load hload hpointer).mpr ⟨limit, _, hlimit', hbase', hsame⟩

theorem emulates_iff : e.Emulates s ↔ e.Settled s := by
  unfold Emulates Settled
  rw [pointer_iff]
  refine and_congr_right fun hfits => ?_
  exact moves_iff (pointer_iff.mpr hfits)

end DescriptorExit

/-- The two handlers find, and move, what the instruction is about in exactly these cases. -/
theorem operands_iff {e : VmxExit} (hsize : e.addressSize = 16 ∨ e.addressSize = 32 ∨ e.addressSize = 64)
    {d : DescriptorExit} {s : DescriptorState} :
    (e.nvcVtParseVmxPointer = e.operandAddress ↔ e.PointerFits) ∧ (d.Emulates s ↔ d.Settled s) :=
  ⟨e.nvcVtParseVmxPointer_iff (by omega), DescriptorExit.emulates_iff⟩

/-- `lgdt` of the operand at RCX and a displacement, in 64-bit mode. Both address spaces have the same
bytes everywhere. -/
def lgdtOfRcx (displacement : BitVec 64) : DescriptorExit where
  hvType1 := false
  exitInfo := 0x20C18100
  displacement := displacement
  gprArray r := if r = 1 then 0x1000 else 0
  rsp := 0
  segmentBase _ := 0
  segmentSelector _ := 0
  pe := true
  longMode := true
  ssDpl := 0
  npiepConfig := 0
  instructionLength := 4

def evenMemory : DescriptorState := ⟨fun _ => 0, fun _ => 0, fun _ _ => some 0x11, 0⟩

theorem lgdtOfRcx_emulated :
    (NestedVmxVcpu.exitFor .vmclear 0).nvcVtParseVmxPointer =
        (NestedVmxVcpu.exitFor .vmclear 0).operandAddress ∧
      (lgdtOfRcx 0).Emulates evenMemory := by
  have hiff := operands_iff (e := NestedVmxVcpu.exitFor .vmclear 0) (.inr (.inr rfl))
    (d := lgdtOfRcx 0) (s := evenMemory)
  exact ⟨hiff.1.mpr ⟨by decide, by decide⟩,
    hiff.2.mpr ⟨⟨by decide, by decide⟩, fun _ _ _ hlimit hbase => ⟨hlimit, hbase⟩⟩⟩

/-- The displacement of the operand is lost. -/
theorem not_forall_operands :
    ¬∀ (e : VmxExit) (d : DescriptorExit) (s : DescriptorState),
      e.addressSize = 16 ∨ e.addressSize = 32 ∨ e.addressSize = 64 →
        e.nvcVtParseVmxPointer = e.operandAddress ∧ d.Emulates s := by
  intro h
  have hpointer : (lgdtOfRcx 8).pointer = (lgdtOfRcx 8).operandAddress :=
    (h (NestedVmxVcpu.exitFor .vmclear 0) (lgdtOfRcx 8) evenMemory (.inr (.inr rfl))).2.1
  exact absurd hpointer (by decide)

end NoirVisor
