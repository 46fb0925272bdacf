import NoirVisor.Io.MmioAccess

/-!
# Moves from and to device memory on VT

The handler of EPT violations emulates a move between a register and a registered region: the
decoder names the register, and the bytes of the register are exchanged with the region through a
buffer of eight bytes.
-/

namespace NoirVisor

open HeightTree

/-- The general-purpose registers of the decoder, in its order. -/
inductive GprOperand where
  | low8 (i : Fin 4)
  | high8 (i : Fin 4)
  | uniform8 (i : Fin 12)
  | gpr16 (i : Fin 16)
  | gpr32 (i : Fin 16)
  | gpr64 (i : Fin 16)
deriving DecidableEq, Repr

inductive OperandClass where
  | gpr
  | gpr8hi
deriving DecidableEq, Repr

structure OperandFlags where
  operandSize : BitVec 64
  operandClass : OperandClass
  operandCode : Fin 16

/-- The operand other than the memory. -/
def nvcEmuDecodeInstructionMov : GprOperand → OperandFlags
  | .low8 i => ⟨1, .gpr, i.castLE (by decide)⟩
  | .high8 i => ⟨1, .gpr8hi, i.castLE (by decide)⟩
  | .uniform8 i => ⟨1, .gpr, i.natAdd 4⟩
  | .gpr16 i => ⟨2, .gpr, i⟩
  | .gpr32 i => ⟨4, .gpr, i⟩
  | .gpr64 i => ⟨8, .gpr, i⟩

/-- A move as it is decoded, with the direction of the violation. -/
structure DecodedMov where
  write : Bool
  register : GprOperand
  length : BitVec 8

/-- The registers saved on the exit, and the fields of the VMCS. What is saved for RSP is not the
guest's. -/
structure VtMovState where
  gpr : Fin 16 → BitVec 64
  guestRsp : BitVec 64
  rip : Nat
  csLongMode : Bool
  instructionLength : BitVec 32

def rspCode : Fin 16 := 4

/-- The number that so many bytes are, the lowest first. -/
def joinBytes : Nat → ByteBuffer → Nat
  | 0, _ => 0
  | n + 1, buffer => (buffer 0).toNat + 256 * joinBytes n fun i => buffer (i + 1)

def fromBytes (buffer : ByteBuffer) : BitVec 64 := BitVec.ofNat 64 (joinBytes 8 buffer)

section

variable {η κ σ : Type} (handle : MmioRegion η κ → MmioAccess ByteBuffer → σ → ByteBuffer × σ)
  (root : HeightTree (MmioRegion η κ))

/-- The buffer before the region is accessed. It is not initialized for a read. -/
def stagedValue (write : Bool) (flags : OperandFlags) (gpr : Fin 16 → BitVec 64)
    (uninitialized : ByteBuffer) : ByteBuffer :=
  if write then
    let val := littleEndian (gpr flags.operandCode)
    if flags.operandClass = .gpr8hi then Function.update val 0 (val 1) else val
  else uninitialized

/-- The buffer that goes into the register. -/
def mergedValue (flags : OperandFlags) (gpr : Fin 16 → BitVec 64) (val : ByteBuffer) : ByteBuffer :=
  let val :=
    if flags.operandClass = .gpr8hi then
      Function.update (littleEndian (gpr flags.operandCode)) 1 (val 0)
    else val
  if flags.operandSize = 4 then fun i => if 4 ≤ i ∧ i < 8 then 0 else val i else val

/-- The part of `nvc_vt_ept_violation_handler` for a decoded move, for a page that is not hooked,
and the advancement of RIP. -/
def nvcVtEptViolationMov (mov : DecodedMov) (gpa : BitVec 64) (uninitialized : ByteBuffer)
    (s : VtMovState) (d : σ) : VtMovState × σ :=
  let gpr := Function.update s.gpr rspCode s.guestRsp
  let flags := nvcEmuDecodeInstructionMov mov.register
  let answer := nvcCallRwMmioRegion handle root
    ⟨mov.write, gpa, flags.operandSize, stagedValue mov.write flags gpr uninitialized⟩ d
  let gpr :=
    if mov.write then gpr
    else Function.update gpr flags.operandCode (fromBytes (mergedValue flags gpr answer.1))
  let gip := (s.rip + s.instructionLength.toNat) % 2 ^ 64
  ({ s with gpr := gpr, rip := if s.csLongMode then gip else gip % 2 ^ 32 }, answer.2)

/-- What the region leaves in the buffer for a load. -/
def loadedValue (register : GprOperand) (gpa : BitVec 64) (uninitialized : ByteBuffer) (d : σ) :
    ByteBuffer :=
  (nvcCallRwMmioRegion handle root
    ⟨false, gpa, (nvcEmuDecodeInstructionMov register).operandSize, uninitialized⟩ d).1

end

namespace VtMovState

/-- The registers of the guest. -/
def reg (s : VtMovState) (i : Fin 16) : BitVec 64 := if i = rspCode then s.guestRsp else s.gpr i

end VtMovState

namespace GprOperand

def number : GprOperand → Fin 16
  | low8 i | high8 i => i.castLE (by decide)
  | uniform8 i => i.natAdd 4
  | gpr16 i | gpr32 i | gpr64 i => i

/-- Where the operand is in the bytes of its register. -/
def firstByte : GprOperand → Nat
  | high8 _ => 1
  | _ => 0

def size : GprOperand → Nat
  | low8 _ | high8 _ | uniform8 _ => 1
  | gpr16 _ => 2
  | gpr32 _ => 4
  | gpr64 _ => 8

/-- What a load does to the register: an operand of four bytes clears the upper half. -/
def load (op : GprOperand) (old : BitVec 64) (data : ByteBuffer) : BitVec 64 :=
  fromBytes fun i =>
    if op.firstByte ≤ i ∧ i < op.firstByte + op.size then data (i - op.firstByte)
    else if op.size = 4 then 0
    else littleEndian old i

end GprOperand

section

variable {η κ σ : Type}

/-- A region that keeps a list of what it is asked for. -/
def listingHandler (mr : MmioRegion η κ) (access : MmioAccess ByteBuffer)
    (calls : List (MmioRegion η κ × MmioAccess ByteBuffer)) :
    ByteBuffer × List (MmioRegion η κ × MmioAccess ByteBuffer) :=
  (access.value, calls ++ [(mr, access)])

/-- The architectural effect of the move: the data of a load are what the region has answered, and
a store passes the operand to the region once. -/
structure EmulatesMov (handle : MmioRegion η κ → MmioAccess ByteBuffer → σ → ByteBuffer × σ)
    (root : HeightTree (MmioRegion η κ)) (mr : MmioRegion η κ) (mov : DecodedMov)
    (gpa : BitVec 64) (uninitialized : ByteBuffer) (s : VtMovState) (d : σ) : Prop where
  rip : (nvcVtEptViolationMov handle root mov gpa uninitialized s d).1.rip =
    if s.csLongMode then (s.rip + mov.length.toNat) % 2 ^ 64
    else (s.rip + mov.length.toNat) % 2 ^ 32
  regs : ∀ i, (nvcVtEptViolationMov handle root mov gpa uninitialized s d).1.reg i =
    if mov.write = false ∧ i = mov.register.number then
      mov.register.load (s.reg i) (loadedValue handle root mov.register gpa uninitialized d)
    else s.reg i
  once : mov.write = true → ∃ value : ByteBuffer,
    (∀ i < mov.register.size,
      value i = littleEndian (s.reg mov.register.number) (mov.register.firstByte + i)) ∧
    (nvcVtEptViolationMov listingHandler root mov gpa uninitialized s []).2 =
      [(mr, ⟨true, gpa, (nvcEmuDecodeInstructionMov mov.register).operandSize, value⟩)]

/-- The field of the length holds the one of the instruction; a store is aligned; a load does not go
to RSP, or brings what is there; and what is left in the buffer beyond an operand of one or two low
bytes is the rest of the register. -/
structure MovMeets (handle : MmioRegion η κ → MmioAccess ByteBuffer → σ → ByteBuffer × σ)
    (root : HeightTree (MmioRegion η κ)) (mov : DecodedMov) (gpa : BitVec 64)
    (uninitialized : ByteBuffer) (s : VtMovState) (d : σ) : Prop where
  length : s.instructionLength.toNat = mov.length.toNat
  aligned : mov.write = true → gpa.toNat % mov.register.size = 0
  toRsp : mov.write = false → mov.register.number = rspCode →
    mov.register.load s.guestRsp (loadedValue handle root mov.register gpa uninitialized d) =
      s.guestRsp
  beyond : mov.write = false → mov.register.number ≠ rspCode → mov.register.firstByte = 0 →
    mov.register.size < 4 → ∀ i, mov.register.size ≤ i → i < 8 →
      loadedValue handle root mov.register gpa uninitialized d i =
        littleEndian (s.gpr mov.register.number) i

end

theorem joinBytes_lt (n : Nat) (buffer : ByteBuffer) : joinBytes n buffer < 256 ^ n := by
  induction n generalizing buffer with
  | zero => exact Nat.one_pos
  | succ n ih =>
    have hrest := ih fun i => buffer (i + 1)
    have hfirst := (buffer 0).isLt
    rw [joinBytes, Nat.pow_succ]
    omega

theorem joinBytes_div_mod {n i : Nat} (h : i < n) (buffer : ByteBuffer) :
    joinBytes n buffer / 256 ^ i % 256 = (buffer i).toNat := by
  induction n generalizing buffer i with
  | zero => omega
  | succ n ih =>
    have hfirst := (buffer 0).isLt
    rw [joinBytes]
    cases i with
    | zero =>
      rw [Nat.pow_zero, Nat.div_one]
      omega
    | succ i =>
      have hshift : ((buffer 0).toNat + 256 * joinBytes n fun i => buffer (i + 1)) / 256 =
          joinBytes n fun i => buffer (i + 1) := by omega
      rw [Nat.pow_succ', ← Nat.div_div_eq_div_mul, hshift]
      exact ih (by omega) _

theorem littleEndian_fromBytes (buffer : ByteBuffer) {i : Nat} (h : i < 8) :
    littleEndian (fromBytes buffer) i = buffer i := by
  have hlt : joinBytes 8 buffer < 2 ^ 64 := joinBytes_lt 8 buffer
  have hpow : 2 ^ (8 * i) = 256 ^ i := Nat.pow_mul 2 8 i
  apply BitVec.eq_of_toNat_eq
  unfold littleEndian fromBytes
  rw [BitVec.extractLsb'_toNat, BitVec.toNat_ofNat, Nat.mod_eq_of_lt hlt,
    Nat.shiftRight_eq_div_pow, hpow]
  exact joinBytes_div_mod h buffer

theorem eq_of_littleEndian {a b : BitVec 64} (h : ∀ i < 8, littleEndian a i = littleEndian b i) :
    a = b := by
  apply BitVec.eq_of_getLsbD_eq
  intro j hj
  have hbyte := congrArg (fun byte => byte.getLsbD (j % 8)) (h (j / 8) (by omega))
  unfold littleEndian at hbyte
  simp only [BitVec.getLsbD_extractLsb'] at hbyte
  have hsplit : 8 * (j / 8) + j % 8 = j := by omega
  have hlt : j % 8 < 8 := by omega
  simpa only [hsplit, hlt, decide_true, Bool.true_and] using hbyte

theorem fromBytes_inj {f g : ByteBuffer} : fromBytes f = fromBytes g ↔ ∀ i < 8, f i = g i := by
  constructor
  · intro h i hi
    rw [← littleEndian_fromBytes f hi, h, littleEndian_fromBytes g hi]
  · intro h
    apply eq_of_littleEndian
    intro i hi
    rw [littleEndian_fromBytes f hi, littleEndian_fromBytes g hi, h i hi]

namespace GprOperand

theorem operandCode (op : GprOperand) :
    (nvcEmuDecodeInstructionMov op).operandCode = op.number := by
  cases op <;> rfl

theorem toNat_operandSize (op : GprOperand) :
    (nvcEmuDecodeInstructionMov op).operandSize.toNat = op.size := by
  cases op <;> rfl

theorem isAccessSize (op : GprOperand) :
    IsAccessSize (nvcEmuDecodeInstructionMov op).operandSize := by
  cases op with
  | low8 i | high8 i | uniform8 i => exact .inl rfl
  | gpr16 i => exact .inr (.inl rfl)
  | gpr32 i => exact .inr (.inr (.inl rfl))
  | gpr64 i => exact .inr (.inr (.inr rfl))

theorem size_cases (op : GprOperand) : op.firstByte = 1 ∧ op.size = 1 ∨
    op.firstByte = 0 ∧ (op.size = 1 ∨ op.size = 2 ∨ op.size = 4 ∨ op.size = 8) := by
  cases op with
  | high8 i => exact .inl ⟨rfl, rfl⟩
  | low8 i | uniform8 i => exact .inr ⟨rfl, .inl rfl⟩
  | gpr16 i => exact .inr ⟨rfl, .inr (.inl rfl)⟩
  | gpr32 i => exact .inr ⟨rfl, .inr (.inr (.inl rfl))⟩
  | gpr64 i => exact .inr ⟨rfl, .inr (.inr (.inr rfl))⟩

end GprOperand

theorem mergedValue_eq (op : GprOperand) (gpr : Fin 16 → BitVec 64) (val : ByteBuffer) :
    mergedValue (nvcEmuDecodeInstructionMov op) gpr val =
      if op.firstByte = 1 then Function.update (littleEndian (gpr op.number)) 1 (val 0)
      else if op.size = 4 then fun i => if 4 ≤ i ∧ i < 8 then 0 else val i
      else val := by
  cases op <;> rfl

theorem stagedValue_eq (op : GprOperand) (gpr : Fin 16 → BitVec 64) (uninitialized : ByteBuffer) :
    stagedValue true (nvcEmuDecodeInstructionMov op) gpr uninitialized =
      if op.firstByte = 1 then
        Function.update (littleEndian (gpr op.number)) 0 (littleEndian (gpr op.number) 1)
      else littleEndian (gpr op.number) := by
  cases op <;> rfl

/-- What goes into the register is right but for the bytes beyond a low operand. -/
theorem mergedValue_iff (op : GprOperand) (gpr : Fin 16 → BitVec 64) (val : ByteBuffer) :
    fromBytes (mergedValue (nvcEmuDecodeInstructionMov op) gpr val) =
        op.load (gpr op.number) val ↔
      (op.firstByte = 0 → op.size < 4 →
        ∀ i, op.size ≤ i → i < 8 → val i = littleEndian (gpr op.number) i) := by
  unfold GprOperand.load
  rw [fromBytes_inj, mergedValue_eq]
  rcases op.size_cases with ⟨hfirst, hsize⟩ | ⟨hfirst, hsize⟩
  · rw [hfirst, hsize, if_pos rfl]
    refine iff_of_true (fun i hi => ?_) fun h => absurd h Nat.one_ne_zero
    by_cases hi : i = 1
    · subst hi
      rw [Function.update_self, if_pos ⟨le_rfl, by decide⟩]
    · rw [Function.update_of_ne hi, if_neg (by omega), if_neg (by decide)]
  · rw [hfirst, if_neg Nat.zero_ne_one]
    by_cases hfour : op.size = 4
    · rw [hfour, if_pos rfl]
      refine iff_of_true (fun i hi => ?_) fun _ h => absurd h (lt_irrefl 4)
      by_cases hlow : i < 4
      · rw [if_neg (by omega), if_pos ⟨i.zero_le, by omega⟩, Nat.sub_zero]
      · rw [if_pos ⟨by omega, hi⟩, if_neg (by omega), if_pos rfl]
    · rw [if_neg hfour]
      simp only [if_neg hfour, Nat.zero_le, true_and, Nat.zero_add, Nat.sub_zero]
      constructor
      · intro h _ _ i hlow hhigh
        have hbyte := h i hhigh
        rwa [if_neg (not_lt.mpr hlow)] at hbyte
      · intro h i hi
        by_cases hin : i < op.size
        · rw [if_pos hin]
        · rw [if_neg hin]
          exact h trivial (by omega) i (not_lt.mp hin) hi

section

variable {η κ σ : Type} {handle : MmioRegion η κ → MmioAccess ByteBuffer → σ → ByteBuffer × σ}
  {root : HeightTree (MmioRegion η κ)} {mr : MmioRegion η κ} {mov : DecodedMov}
  {gpa : BitVec 64} {uninitialized : ByteBuffer} {s : VtMovState} {d : σ}

theorem nvcVtEptViolationMov_rip_iff :
    ((nvcVtEptViolationMov handle root mov gpa uninitialized s d).1.rip =
      if s.csLongMode then (s.rip + mov.length.toNat) % 2 ^ 64
      else (s.rip + mov.length.toNat) % 2 ^ 32) ↔
      s.instructionLength.toNat = mov.length.toNat := by
  have hfield := s.instructionLength.isLt
  have hlength := mov.length.isLt
  unfold nvcVtEptViolationMov
  dsimp only
  split_ifs <;> omega

/-- The registers that the moves see. -/
theorem update_guestRsp (i : Fin 16) :
    Function.update s.gpr rspCode s.guestRsp i = s.reg i := by
  unfold VtMovState.reg
  by_cases hi : i = rspCode
  · rw [hi, Function.update_self, if_pos rfl]
  · rw [Function.update_of_ne hi, if_neg hi]

theorem reg_of_store (h : mov.write = true) (i : Fin 16) :
    (nvcVtEptViolationMov handle root mov gpa uninitialized s d).1.reg i = s.reg i := by
  have hgpr : (nvcVtEptViolationMov handle root mov gpa uninitialized s d).1.gpr =
      Function.update s.gpr rspCode s.guestRsp := by
    unfold nvcVtEptViolationMov
    rw [h]
    rfl
  change (if i = rspCode then s.guestRsp else _) = _
  rw [hgpr, update_guestRsp]
  by_cases hi : i = rspCode
  · rw [if_pos hi, VtMovState.reg, if_pos hi]
  · rw [if_neg hi]

/-- A load into RSP goes to the copy that nothing reads. -/
theorem reg_of_load (h : mov.write = false) (i : Fin 16) :
    (nvcVtEptViolationMov handle root mov gpa uninitialized s d).1.reg i =
      if i = mov.register.number ∧ i ≠ rspCode then
        fromBytes (mergedValue (nvcEmuDecodeInstructionMov mov.register)
          (Function.update s.gpr rspCode s.guestRsp)
          (loadedValue handle root mov.register gpa uninitialized d))
      else s.reg i := by
  have hgpr : (nvcVtEptViolationMov handle root mov gpa uninitialized s d).1.gpr =
      Function.update (Function.update s.gpr rspCode s.guestRsp) mov.register.number
        (fromBytes (mergedValue (nvcEmuDecodeInstructionMov mov.register)
          (Function.update s.gpr rspCode s.guestRsp)
          (loadedValue handle root mov.register gpa uninitialized d))) := by
    unfold nvcVtEptViolationMov
    rw [h, ← mov.register.operandCode]
    rfl
  change (if i = rspCode then s.guestRsp else _) = _
  rw [hgpr]
  by_cases hi : i = rspCode
  · rw [if_pos hi, if_neg fun hboth => hboth.2 hi, VtMovState.reg, if_pos hi]
  · rw [if_neg hi]
    by_cases hnumber : i = mov.register.number
    · rw [if_pos ⟨hnumber, hi⟩, hnumber, Function.update_self]
    · rw [Function.update_of_ne hnumber, update_guestRsp, if_neg fun hboth => hnumber hboth.1]

theorem regs_iff :
    (∀ i, (nvcVtEptViolationMov handle root mov gpa uninitialized s d).1.reg i =
      if mov.write = false ∧ i = mov.register.number then
        mov.register.load (s.reg i) (loadedValue handle root mov.register gpa uninitialized d)
      else s.reg i) ↔
    (mov.write = false → mov.register.number = rspCode →
      mov.register.load s.guestRsp (loadedValue handle root mov.register gpa uninitialized d) =
        s.guestRsp) ∧
    (mov.write = false → mov.register.number ≠ rspCode → mov.register.firstByte = 0 →
      mov.register.size < 4 → ∀ i, mov.register.size ≤ i → i < 8 →
        loadedValue handle root mov.register gpa uninitialized d i =
          littleEndian (s.gpr mov.register.number) i) := by
  cases hwrite : mov.write with
  | true =>
    refine iff_of_true (fun i => ?_) ⟨fun h => absurd h (by decide), fun h => absurd h (by decide)⟩
    rw [reg_of_store hwrite, if_neg fun hboth => absurd hboth.1 (by decide)]
  | false =>
    have hmerged := mergedValue_iff mov.register (Function.update s.gpr rspCode s.guestRsp)
      (loadedValue handle root mov.register gpa uninitialized d)
    rw [update_guestRsp] at hmerged
    simp only [true_and, forall_const, reg_of_load hwrite]
    by_cases hnumber : mov.register.number = rspCode
    · have hreg : s.reg mov.register.number = s.guestRsp := if_pos hnumber
      constructor
      · intro h
        have hdest := h mov.register.number
        rw [if_neg fun hboth => hboth.2 hnumber, if_pos rfl, hreg] at hdest
        exact ⟨fun _ => hdest.symm, fun hne => absurd hnumber hne⟩
      · rintro ⟨hrsp, -⟩ i
        rw [if_neg fun hboth => hboth.2 (hboth.1.trans hnumber)]
        by_cases hi : i = mov.register.number
        · rw [if_pos hi, hi, hreg, hrsp hnumber]
        · rw [if_neg hi]
    · have hreg : s.reg mov.register.number = s.gpr mov.register.number := if_neg hnumber
      rw [hreg] at hmerged
      constructor
      · intro h
        have hdest := h mov.register.number
        rw [if_pos ⟨rfl, hnumber⟩, if_pos rfl, hreg] at hdest
        exact ⟨fun heq => absurd heq hnumber, fun _ => hmerged.mp hdest⟩
      · rintro ⟨-, hbeyond⟩ i
        by_cases hi : i = mov.register.number
        · rw [if_pos ⟨hi, hi ▸ hnumber⟩, if_pos hi, hi, hreg]
          exact hmerged.mpr (hbeyond hnumber)
        · rw [if_neg fun hboth => hi hboth.1, if_neg hi]

theorem serveAligned_listingHandler (access : MmioAccess ByteBuffer)
    (calls : List (MmioRegion η κ × MmioAccess ByteBuffer)) :
    (serveAligned listingHandler root access calls).2 = calls ∨
      ∃ node, (serveAligned listingHandler root access calls).2 = calls ++ [(node, access)] := by
  unfold serveAligned nvcCallRwMmioRegionAligned
  cases noirSearchAvlNode nvcBstSearchMmioRegion access.address root with
  | none => exact .inl rfl
  | some node => exact .inr ⟨node, rfl⟩

theorem lowHalf_address_ne {access : MmioAccess ByteBuffer} (h : IsAccessSize access.size)
    (hoffset : access.offset ≠ 0) : access.lowHalf.address ≠ access.address := by
  intro heq
  have hstart : access.lowHalf.address.toNat = access.start := toNat_start h
  have hsum := access.start_add_offset
  rw [heq] at hstart
  omega

theorem highHalf_address_ne {access : MmioAccess ByteBuffer} (h : IsAccessSize access.size)
    (low : ByteBuffer) : (access.highHalf low).address ≠ access.address := by
  intro heq
  have hnext : (access.highHalf low).address.toNat =
      (access.start + access.size.toNat) % 2 ^ 64 := by
    rw [MmioAccess.highHalf, BitVec.toNat_add, toNat_start h]
  have hsum := access.start_add_offset
  have hlt := offset_lt_size h
  have hsize := h.toNat_cases
  have haddress := access.address.isLt
  rw [heq] at hnext
  omega

/-- Neither of the two halves of an unaligned access begins where the access does. -/
theorem unaligned_calls (access : MmioAccess ByteBuffer) (h : IsAccessSize access.size)
    (hoffset : access.offset ≠ 0) :
    ∀ call ∈ (nvcCallRwMmioRegion listingHandler root access []).2,
      call.2.address ≠ access.address := by
  have hcalls : (nvcCallRwMmioRegion listingHandler root access []).2 =
      (serveAligned listingHandler root
        (access.highHalf (serveAligned listingHandler root access.lowHalf []).1)
        (serveAligned listingHandler root access.lowHalf []).2).2 := by
    rw [nvcCallRwMmioRegion_of_unaligned h hoffset]
    dsimp only
    split <;> rfl
  have hlow : ∀ call ∈ (serveAligned listingHandler root access.lowHalf []).2,
      call.2.address ≠ access.address := by
    intro call hcall
    rcases serveAligned_listingHandler access.lowHalf [] with hnone | ⟨node, hone⟩
    · rw [hnone] at hcall
      cases hcall
    · rw [hone, List.nil_append, List.mem_singleton] at hcall
      rw [hcall]
      exact lowHalf_address_ne h hoffset
  intro call hcall
  rw [hcalls] at hcall
  rcases serveAligned_listingHandler
    (access.highHalf (serveAligned listingHandler root access.lowHalf []).1)
    (serveAligned listingHandler root access.lowHalf []).2 with hnone | ⟨node, hone⟩
  · rw [hnone] at hcall
    exact hlow call hcall
  · rw [hone, List.mem_append, List.mem_singleton] at hcall
    rcases hcall with hcall | rfl
    · exact hlow call hcall
    · exact highHalf_address_ne h _

theorem aligned_calls (access : MmioAccess ByteBuffer) (h : IsAccessSize access.size)
    (hoffset : access.offset = 0) (hregistered : Registered root mr)
    (hcontains : mr.Contains access.address) :
    (nvcCallRwMmioRegion listingHandler root access []).2 = [(mr, access)] := by
  rw [nvcCallRwMmioRegion_of_aligned h hoffset, serveAligned_of_contains hregistered hcontains]
  rfl

/-- The access that a store makes. -/
def storedAccess (mov : DecodedMov) (gpa : BitVec 64) (s : VtMovState) : MmioAccess ByteBuffer where
  direction := true
  address := gpa
  size := (nvcEmuDecodeInstructionMov mov.register).operandSize
  value :=
    let val := littleEndian (s.reg mov.register.number)
    if mov.register.firstByte = 1 then Function.update val 0 (val 1) else val

/-- A store is one call if it is aligned. -/
theorem once_iff (hregistered : Registered root mr) (hcontains : mr.Contains gpa)
    (hwrite : mov.write = true) :
    (∃ value : ByteBuffer,
      (∀ i < mov.register.size,
        value i = littleEndian (s.reg mov.register.number) (mov.register.firstByte + i)) ∧
      (nvcVtEptViolationMov listingHandler root mov gpa uninitialized s []).2 =
        [(mr, ⟨true, gpa, (nvcEmuDecodeInstructionMov mov.register).operandSize, value⟩)]) ↔
      gpa.toNat % mov.register.size = 0 := by
  have hsize : IsAccessSize (storedAccess mov gpa s).size := mov.register.isAccessSize
  have hcalls : (nvcVtEptViolationMov listingHandler root mov gpa uninitialized s []).2 =
      (nvcCallRwMmioRegion listingHandler root (storedAccess mov gpa s) []).2 := by
    unfold nvcVtEptViolationMov storedAccess
    rw [hwrite]
    dsimp only
    rw [stagedValue_eq, update_guestRsp]
  have hoffset : (storedAccess mov gpa s).offset = gpa.toNat % mov.register.size := by
    rw [← mov.register.toNat_operandSize]
    rfl
  rw [hcalls, ← hoffset]
  constructor
  · rintro ⟨value, -, hone⟩
    by_contra hoffset
    have hcall := List.mem_singleton_self (mr, (⟨true, gpa,
      (nvcEmuDecodeInstructionMov mov.register).operandSize, value⟩ : MmioAccess ByteBuffer))
    rw [← hone] at hcall
    exact unaligned_calls _ hsize hoffset _ hcall rfl
  · intro hoffset
    refine ⟨_, fun i hi => ?_, aligned_calls _ hsize hoffset hregistered hcontains⟩
    rcases mov.register.size_cases with ⟨hfirst, hone⟩ | ⟨hfirst, -⟩
    · obtain rfl : i = 0 := by omega
      rw [hfirst, if_pos rfl, Function.update_self]
    · rw [hfirst, if_neg Nat.zero_ne_one, Nat.zero_add]

/-- For every move between a general-purpose register and a registered region. -/
theorem emulatesMov_iff (hregistered : Registered root mr) (hcontains : mr.Contains gpa) :
    EmulatesMov handle root mr mov gpa uninitialized s d ↔
      MovMeets handle root mov gpa uninitialized s d := by
  constructor
  · rintro ⟨hrip, hregs, honce⟩
    obtain ⟨htoRsp, hbeyond⟩ := regs_iff.mp hregs
    exact ⟨nvcVtEptViolationMov_rip_iff.mp hrip,
      fun hwrite => (once_iff hregistered hcontains hwrite).mp (honce hwrite), htoRsp, hbeyond⟩
  · rintro ⟨hlength, haligned, htoRsp, hbeyond⟩
    exact ⟨nvcVtEptViolationMov_rip_iff.mpr hlength, regs_iff.mpr ⟨htoRsp, hbeyond⟩,
      fun hwrite => (once_iff hregistered hcontains hwrite).mpr (haligned hwrite)⟩

end

/-- Every register is zero, and the instruction has two bytes. -/
def clearedState : VtMovState where
  gpr _ := 0
  guestRsp := 0
  rip := 0x1000
  csLongMode := true
  instructionLength := 2

theorem load32_emulated :
    EmulatesMov (arrayHandler firstUnit) (leaf firstUnit) firstUnit ⟨false, .gpr32 0, 2⟩ 0x1000
      (fun _ => 0xCC) clearedState countingMemory :=
  (emulatesMov_iff (registered_leaf (by decide)) ⟨by decide, by decide⟩).mpr
    ⟨by decide, fun h => absurd h (by decide), fun _ h => absurd h (by decide),
      fun _ _ _ h => absurd h (by decide)⟩

/-- A load of one byte into CL takes the rest of RCX from the stack. -/
theorem not_forall_emulatesMov :
    ¬∀ (handle : MmioRegion Nat Unit → MmioAccess ByteBuffer → (Nat → BitVec 8) →
        ByteBuffer × (Nat → BitVec 8)) (root : HeightTree (MmioRegion Nat Unit))
      (mr : MmioRegion Nat Unit) (mov : DecodedMov) (gpa : BitVec 64) (uninitialized : ByteBuffer)
      (s : VtMovState) (d : Nat → BitVec 8), Registered root mr → mr.Contains gpa →
      s.instructionLength.toNat = mov.length.toNat →
      EmulatesMov handle root mr mov gpa uninitialized s d := by
  intro h
  have hload := h (arrayHandler firstUnit) (leaf firstUnit) firstUnit ⟨false, .low8 1, 2⟩ 0x1000
    (fun _ => 0xCC) clearedState countingMemory (registered_leaf (by decide))
    ⟨by decide, by decide⟩ (by decide)
  exact absurd (hload.regs 1) (by decide)

end NoirVisor
