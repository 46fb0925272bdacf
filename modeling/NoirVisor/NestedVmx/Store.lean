import NoirVisor.Sizes
import NoirVisor.Words
import Mathlib.Data.Fin.VecNotation
import Mathlib.Tactic.FinCases

/-!
# The VMCS of a nested hypervisor

It is a page in the memory of the nested hypervisor. `vmread` and `vmwrite` find a field in it by the
encoding, in one of sixteen areas.
-/

namespace NoirVisor

open Words

/-- `ia32_vmx_vmcs_encoding`. The widths of the bit-fields are those of the union: the index of a field
has ten bits there. -/
structure VmcsEncoding where
  value : BitVec 32
deriving DecidableEq

namespace VmcsEncoding

variable (translator : VmcsEncoding)

def hi : Bool := translator.value.getLsbD 0
def field : Nat := (translator.value.extractLsb' 1 10).toNat
def type : Fin 4 := (translator.value.extractLsb' 11 2).toFin
def width : Fin 4 := (translator.value.extractLsb' 14 2).toFin

end VmcsEncoding

/-! The tables, by width and by type. -/

def noirVtVmcsRedirection : Fin 4 → Fin 4 → Nat :=
  ![![0x800, 0x100, 0x400, 0x200],
    ![0x880, 0x140, 0x480, 0x280],
    ![0xA00, 0x180, 0x600, 0x300],
    ![0xB00, 0x1C0, 0x700, 0x380]]

def noirVtVmcsLimit : Fin 4 → Fin 4 → Nat :=
  ![![0x3, 0x0, 0x10, 0x7],
    ![0x1A, 0x1, 0xA, 0x3],
    ![0x11, 0x8, 0x17, 0x1],
    ![0x8, 0x6, 0x13, 0xB]]

def noirVtVmcsFieldSize : Fin 4 → Nat := ![2, 8, 4, 8]

def vmInstructionError : VmcsEncoding := ⟨0x4400⟩

def vmrwUnsupportedField : BitVec 64 := 12

/-- What RFLAGS keeps in an instruction of VMX: not CF, PF, AF, ZF, SF and OF. -/
def rflagsMask : BitVec 64 := 0x3f7702

def vmsuccessFlags (gflags : BitVec 64) : BitVec 64 := gflags &&& rflagsMask

def vmfailInvalidFlags (gflags : BitVec 64) : BitVec 64 := gflags &&& rflagsMask ||| 1#64 <<< 0

def vmfailValidFlags (gflags : BitVec 64) : BitVec 64 := gflags &&& rflagsMask ||| 1#64 <<< 6

/-- The page, and RFLAGS of the nested hypervisor. -/
structure NestedVmcs where
  page : Memory
  rflags : BitVec 64

/-- Writes a value to the low bytes of a variable, as an assignment through a cast pointer does. -/
def assignLow (n : Nat) (data value : BitVec 64) : BitVec 64 :=
  (data &&& ~~~low n (BitVec.allOnes 64)) ||| low n value

namespace NestedVmcs

variable (s : NestedVmcs)

def noirVtVmsuccess : NestedVmcs := { s with rflags := vmsuccessFlags s.rflags }

def noirVtVmfailValid : NestedVmcs := { s with rflags := vmfailValidFlags s.rflags }

/-! An access that leaves the page is a fault. -/

def load? (offset n : Nat) : Option (BitVec 64) :=
  if offset + n ≤ 0x1000 then some (load s.page offset n) else none

def store? (offset n : Nat) (data : BitVec 64) : Option NestedVmcs :=
  if offset + n ≤ 0x1000 then some { s with page := store s.page offset n data } else none

/-- It gives nothing if it faults, or if the stack has no room for `depth` calls within each other. -/
def noirVtNestedVmwrite :
    Nat → NestedVmcs → VmcsEncoding → BitVec 64 → Option (Bool × NestedVmcs)
  | 0, _, _, _ => none
  | depth + 1, s, translator, data =>
    let w := translator.width
    let t := translator.type
    let invalidField := fun (_ : Unit) =>
      (noirVtNestedVmwrite depth s.noirVtVmfailValid vmInstructionError vmrwUnsupportedField).map
        fun r => (false, r.2)
    if translator.field < noirVtVmcsLimit w t then
      let offset := noirVtVmcsRedirection w t + noirVtVmcsFieldSize w * translator.field
      let written := fun r : Option NestedVmcs => r.map fun s => (true, s.noirVtVmsuccess)
      match w with
      | 0 => if translator.hi then invalidField () else written (s.store? offset 2 data)
      | 1 =>
          if translator.hi then written (s.store? (offset + 4) 4 data)
          else written (s.store? offset 8 data)
      | 2 => if translator.hi then invalidField () else written (s.store? offset 4 data)
      | 3 => if translator.hi then invalidField () else written (s.store? offset 8 data)
    else invalidField ()

/-- `data` is the variable that takes the value. -/
def noirVtNestedVmread (depth : Nat) (s : NestedVmcs) (translator : VmcsEncoding)
    (data : BitVec 64) : Option (Bool × BitVec 64 × NestedVmcs) :=
  let w := translator.width
  let t := translator.type
  let invalidField := fun (_ : Unit) =>
    (noirVtNestedVmwrite depth s.noirVtVmfailValid vmInstructionError vmrwUnsupportedField).map
      fun r => (false, data, r.2)
  if translator.field < noirVtVmcsLimit w t then
    let offset := noirVtVmcsRedirection w t + noirVtVmcsFieldSize w * translator.field
    let read := fun (n : Nat) (r : Option (BitVec 64)) =>
      r.map fun value => (true, assignLow n data value, s.noirVtVmsuccess)
    match w with
    | 0 => if translator.hi then invalidField () else read 2 (s.load? offset 2)
    | 1 =>
        if translator.hi then read 4 (s.load? (offset + 4) 4) else read 8 (s.load? offset 8)
    | 2 => if translator.hi then invalidField () else read 4 (s.load? offset 4)
    | 3 => if translator.hi then invalidField () else read 8 (s.load? offset 8)
  else invalidField ()

end NestedVmcs

/-! A field of the tables, and the part of it that an encoding stands for. -/

structure NestedField where
  width : Fin 4
  type : Fin 4
  index : Nat
  supported : index < noirVtVmcsLimit width type
deriving DecidableEq

namespace NestedField

def offset (f : NestedField) : Nat :=
  noirVtVmcsRedirection f.width f.type + noirVtVmcsFieldSize f.width * f.index

def size (f : NestedField) : Nat := noirVtVmcsFieldSize f.width

end NestedField

/-- The field with this encoding. Only one of 64 bits has a high half. -/
def VmcsEncoding.field? (translator : VmcsEncoding) : Option NestedField :=
  if h : translator.field < noirVtVmcsLimit translator.width translator.type then
    if translator.hi && translator.width != 1 then none
    else some ⟨translator.width, translator.type, translator.field, h⟩
  else none

def VmcsEncoding.Supported (translator : VmcsEncoding) : Prop := translator.field?.isSome = true

/-! ### The areas -/

section Areas

variable {f g : NestedField}

def noirVtVmcsAreaEnd (w t : Fin 4) : Nat :=
  noirVtVmcsRedirection w t + noirVtVmcsFieldSize w * noirVtVmcsLimit w t

theorem areas_apart : ∀ w t w' t' : Fin 4, (w, t) ≠ (w', t') →
    noirVtVmcsAreaEnd w t ≤ noirVtVmcsRedirection w' t' ∨
      noirVtVmcsAreaEnd w' t' ≤ noirVtVmcsRedirection w t := by decide

theorem areaEnd_le : ∀ w t : Fin 4, noirVtVmcsAreaEnd w t ≤ 0x1000 := by decide

theorem fieldSize_le : ∀ w : Fin 4, noirVtVmcsFieldSize w ≤ 8 := by decide

theorem NestedField.redirection_le : noirVtVmcsRedirection f.width f.type ≤ f.offset :=
  Nat.le_add_right _ _

theorem NestedField.end_le : f.offset + f.size ≤ noirVtVmcsAreaEnd f.width f.type := by
  have hindex : noirVtVmcsFieldSize f.width * (f.index + 1) ≤
      noirVtVmcsFieldSize f.width * noirVtVmcsLimit f.width f.type :=
    Nat.mul_le_mul_left _ f.supported
  rw [Nat.mul_add, Nat.mul_one] at hindex
  unfold NestedField.offset NestedField.size noirVtVmcsAreaEnd
  omega

theorem NestedField.within_page : f.offset + f.size ≤ 0x1000 :=
  Nat.le_trans NestedField.end_le (areaEnd_le _ _)

/-- Within an area the fields lie one after the other. -/
theorem NestedField.apart_of_index (hw : f.width = g.width) (ht : f.type = g.type)
    (hlt : f.index < g.index) : f.offset + f.size ≤ g.offset := by
  have hindex : noirVtVmcsFieldSize g.width * (f.index + 1) ≤ noirVtVmcsFieldSize g.width * g.index :=
    Nat.mul_le_mul_left _ hlt
  unfold NestedField.offset NestedField.size
  rw [hw, ht]
  rw [Nat.mul_add, Nat.mul_one] at hindex
  omega

theorem NestedField.apart (hne : f ≠ g) :
    f.offset + f.size ≤ g.offset ∨ g.offset + g.size ≤ f.offset := by
  by_cases harea : (f.width, f.type) = (g.width, g.type)
  · obtain ⟨hw, ht⟩ := Prod.mk.inj harea
    rcases Nat.lt_trichotomy f.index g.index with hlt | heq | hgt
    · exact .inl (NestedField.apart_of_index hw ht hlt)
    · obtain ⟨_, _, _, _⟩ := f
      obtain ⟨_, _, _, _⟩ := g
      cases hw
      cases ht
      cases heq
      exact absurd rfl hne
    · exact .inr (NestedField.apart_of_index hw.symm ht.symm hgt)
  · rcases areas_apart _ _ _ _ harea with h | h
    · exact .inl (Nat.le_trans NestedField.end_le (Nat.le_trans h NestedField.redirection_le))
    · exact .inr (Nat.le_trans NestedField.end_le (Nat.le_trans h NestedField.redirection_le))

def nestedLayout : Layout NestedField where
  offset := NestedField.offset
  width := NestedField.size
  width_le f := fieldSize_le f.width
  apart _ _ := NestedField.apart

end Areas

/-! ### Accesses -/

inductive VmcsAccess where
  | vmread (translator : VmcsEncoding) (data : BitVec 64)
  | vmwrite (translator : VmcsEncoding) (data : BitVec 64)

structure VmcsAnswer where
  success : Bool
  data : BitVec 64
  vmcs : NestedVmcs

def VmcsAccess.translator : VmcsAccess → VmcsEncoding
  | vmread translator _ => translator
  | vmwrite translator _ => translator

def VmcsAccess.data : VmcsAccess → BitVec 64
  | vmread _ data => data
  | vmwrite _ data => data

namespace NestedVmcs

def perform (depth : Nat) (s : NestedVmcs) : VmcsAccess → Option VmcsAnswer
  | .vmread translator data =>
      (s.noirVtNestedVmread depth translator data).map fun r => ⟨r.1, r.2.1, r.2.2⟩
  | .vmwrite translator data =>
      (s.noirVtNestedVmwrite depth translator data).map fun r => ⟨r.1, data, r.2⟩

def contents (s : NestedVmcs) : NestedField → BitVec 64 := nestedLayout.contents s.page

end NestedVmcs

/-- The bytes that an encoding of the field stands for. -/
def NestedField.accessed (f : NestedField) (hi : Bool) : Nat := if hi then 4 else f.size

/-- What a read takes from the value of the field. -/
def NestedField.taken (hi : Bool) (word : BitVec 64) : BitVec 64 :=
  if hi then word >>> (8 * 4) else word

/-- The value of the field after a write. -/
def NestedField.updated (f : NestedField) (hi : Bool) (word data : BitVec 64) : BitVec 64 :=
  if hi then low 4 word ||| low 4 data <<< (8 * 4) else low f.size data

/-- CF and ZF tell how an instruction ended; PF, AF, SF and OF are clear. -/
def VmxFlags (cf zf : Bool) (rflags : BitVec 64) : Prop :=
  rflags.getLsbD 0 = cf ∧ rflags.getLsbD 6 = zf ∧
    ∀ bit ∈ [2, 4, 7, 11], rflags.getLsbD bit = false

/-- A field that is supported is read or written, and nothing else is. -/
structure Succeeds (s : NestedVmcs) (a : VmcsAccess) (f : NestedField) (r : VmcsAnswer) : Prop where
  success : r.success = true
  flags : VmxFlags false false r.vmcs.rflags
  others : ∀ i, i < f.offset ∨ f.offset + f.size ≤ i → r.vmcs.page i = s.page i
  read : ∀ translator data, a = .vmread translator data → r.vmcs.page = s.page ∧
    r.data = assignLow (f.accessed translator.hi) data
      (NestedField.taken translator.hi (s.contents f))
  written : ∀ translator data, a = .vmwrite translator data → r.vmcs.contents =
    Function.update s.contents f (f.updated translator.hi (s.contents f) data)

/-- The error is reported, and some field has its number. -/
structure Fails (s : NestedVmcs) (a : VmcsAccess) (r : VmcsAnswer) : Prop where
  failure : r.success = false
  flags : VmxFlags false true r.vmcs.rflags
  data : r.data = a.data
  error : ∃ f, r.vmcs.contents = Function.update s.contents f vmrwUnsupportedField

def NestedVmcs.Answers (s : NestedVmcs) (a : VmcsAccess) (r : VmcsAnswer) : Prop :=
  match a.translator.field? with
  | some f => Succeeds s a f r
  | none => Fails s a r

/-- Every access returns, and has the answer that it should have. -/
def NestedVmcs.AnswersAll : NestedVmcs → List VmcsAccess → Prop
  | _, [] => True
  | s, a :: as => ∃ depth r, s.perform depth a = some r ∧ s.Answers a r ∧ r.vmcs.AnswersAll as

section Flags

variable {gflags : BitVec 64}

theorem getLsbD_rflagsMask {bit : Nat} (h : bit ∈ [0, 2, 4, 6, 7, 11]) :
    (gflags &&& rflagsMask).getLsbD bit = false := by
  have hmask : rflagsMask.getLsbD bit = false := by
    revert bit
    decide
  rw [BitVec.getLsbD_and, hmask, Bool.and_false]

theorem vmxFlags_vmsuccessFlags : VmxFlags false false (vmsuccessFlags gflags) :=
  ⟨getLsbD_rflagsMask (by decide), getLsbD_rflagsMask (by decide),
    fun _ hbit => getLsbD_rflagsMask (by revert hbit; simp; omega)⟩

theorem vmxFlags_vmfailInvalidFlags : VmxFlags true false (vmfailInvalidFlags gflags) := by
  have hbit : ∀ {bit}, bit ∈ [0, 2, 4, 6, 7, 11] →
      (vmfailInvalidFlags gflags).getLsbD bit = (1#64 <<< 0).getLsbD bit := by
    intro bit h
    unfold vmfailInvalidFlags
    rw [BitVec.getLsbD_or, getLsbD_rflagsMask h, Bool.false_or]
  refine ⟨(hbit (by decide)).trans (by decide), (hbit (by decide)).trans (by decide), ?_⟩
  intro bit h
  rw [hbit (by revert h; simp; omega)]
  revert bit
  decide

end Flags

section Accesses

variable {s : NestedVmcs} {a : VmcsAccess} {translator : VmcsEncoding} {f : NestedField}
  {depth : Nat} {data : BitVec 64} {r : VmcsAnswer}

theorem VmcsEncoding.field?_eq_some (h : translator.field? = some f) :
    translator.field < noirVtVmcsLimit translator.width translator.type ∧
      f.offset = noirVtVmcsRedirection translator.width translator.type +
        noirVtVmcsFieldSize translator.width * translator.field ∧
      f.width = translator.width ∧ (translator.hi = true → translator.width = 1) := by
  unfold VmcsEncoding.field? at h
  split at h
  · next hlt =>
      split at h
      · exact (nomatch h)
      · next hhi =>
          cases h
          refine ⟨hlt, rfl, rfl, fun hset => ?_⟩
          simpa [hset] using hhi
  · exact (nomatch h)

theorem VmcsEncoding.hi_of_field?_eq_none
    (hlt : translator.field < noirVtVmcsLimit translator.width translator.type)
    (h : translator.field? = none) : translator.hi = true ∧ translator.width ≠ 1 := by
  unfold VmcsEncoding.field? at h
  rw [dif_pos hlt] at h
  split at h
  · next hhi =>
      have hhi := Bool.and_eq_true_iff.mp hhi
      exact ⟨hhi.1, bne_iff_ne.mp hhi.2⟩
  · exact (nomatch h)

theorem upper_of_field (h : translator.field? = some f) (hset : translator.hi = true) :
    f.size = 4 + 4 := by
  obtain ⟨-, -, hwidth, hhi⟩ := VmcsEncoding.field?_eq_some h
  unfold NestedField.size
  rw [hwidth, hhi hset]
  rfl

namespace NestedVmcs

/-- The bytes that an encoding stands for are written. -/
def stored (s : NestedVmcs) (f : NestedField) (hi : Bool) (data : BitVec 64) : NestedVmcs :=
  { s with page := store s.page (f.offset + if hi then 4 else 0) (f.accessed hi) data }

theorem store?_of_le {offset n : Nat} (h : offset + n ≤ 0x1000) :
    s.store? offset n data = some { s with page := store s.page offset n data } := if_pos h

theorem load?_of_le {offset n : Nat} (h : offset + n ≤ 0x1000) :
    s.load? offset n = some (load s.page offset n) := if_pos h

theorem vmwrite_of_field (h : translator.field? = some f) :
    s.noirVtNestedVmwrite (depth + 1) translator data =
      some (true, (s.stored f translator.hi data).noirVtVmsuccess) := by
  obtain ⟨hlt, hoffset, hwidth, hhi⟩ := VmcsEncoding.field?_eq_some h
  have hpage := f.within_page
  unfold NestedField.size at hpage
  unfold noirVtNestedVmwrite stored NestedField.accessed NestedField.size
  dsimp only
  rw [if_pos hlt, hwidth, ← hoffset]
  rw [hwidth] at hpage
  clear hlt hoffset hwidth
  generalize translator.width = w at *
  cases hset : translator.hi with
  | true =>
      obtain rfl := hhi hset
      have hupper : f.offset + 4 + 4 ≤ 0x1000 := hpage
      simp [store?_of_le hupper]
  | false =>
      match w, hpage with
      | 0, hpage => simp [store?_of_le (n := 2) hpage, noirVtVmcsFieldSize]
      | 1, hpage => simp [store?_of_le (n := 8) hpage, noirVtVmcsFieldSize]
      | 2, hpage => simp [store?_of_le (n := 4) hpage, noirVtVmcsFieldSize]
      | 3, hpage => simp [store?_of_le (n := 8) hpage, noirVtVmcsFieldSize]

theorem vmread_of_field (h : translator.field? = some f) :
    s.noirVtNestedVmread depth translator data =
      some (true, assignLow (f.accessed translator.hi) data
        (NestedField.taken translator.hi (s.contents f)), s.noirVtVmsuccess) := by
  obtain ⟨hlt, hoffset, hwidth, hhi⟩ := VmcsEncoding.field?_eq_some h
  have hpage := f.within_page
  have hcontents : s.contents f = load s.page f.offset f.size := rfl
  unfold NestedField.size at hpage hcontents
  rw [hcontents]
  unfold noirVtNestedVmread NestedField.accessed NestedField.taken NestedField.size
  dsimp only
  rw [if_pos hlt, hwidth, ← hoffset]
  rw [hwidth] at hpage
  clear hlt hoffset hwidth hcontents
  generalize translator.width = w at *
  cases hset : translator.hi with
  | true =>
      obtain rfl := hhi hset
      have hupper : f.offset + 4 + 4 ≤ 0x1000 := hpage
      have hload : load s.page (f.offset + 4) 4 = load s.page f.offset (4 + 4) >>> (8 * 4) :=
        load_upper (by omega)
      simp [load?_of_le hupper, hload, noirVtVmcsFieldSize]
  | false =>
      match w, hpage with
      | 0, hpage => simp [load?_of_le (n := 2) hpage, noirVtVmcsFieldSize]
      | 1, hpage => simp [load?_of_le (n := 8) hpage, noirVtVmcsFieldSize]
      | 2, hpage => simp [load?_of_le (n := 4) hpage, noirVtVmcsFieldSize]
      | 3, hpage => simp [load?_of_le (n := 8) hpage, noirVtVmcsFieldSize]

theorem vmwrite_of_unsupported (h : translator.field? = none) :
    s.noirVtNestedVmwrite (depth + 1) translator data =
      (s.noirVtVmfailValid.noirVtNestedVmwrite depth vmInstructionError vmrwUnsupportedField).map
        fun r => (false, r.2) := by
  rw [noirVtNestedVmwrite]
  dsimp only
  by_cases hlt : translator.field < noirVtVmcsLimit translator.width translator.type
  · obtain ⟨hset, hne⟩ := VmcsEncoding.hi_of_field?_eq_none hlt h
    rw [if_pos hlt, hset]
    clear hlt
    generalize translator.width = w at *
    match w, hne with
    | 0, _ => rfl
    | 1, hne => exact absurd rfl hne
    | 2, _ => rfl
    | 3, _ => rfl
  · rw [if_neg hlt]

theorem vmread_of_unsupported (h : translator.field? = none) :
    s.noirVtNestedVmread depth translator data =
      (s.noirVtVmfailValid.noirVtNestedVmwrite depth vmInstructionError vmrwUnsupportedField).map
        fun r => (false, data, r.2) := by
  rw [noirVtNestedVmread]
  dsimp only
  by_cases hlt : translator.field < noirVtVmcsLimit translator.width translator.type
  · obtain ⟨hset, hne⟩ := VmcsEncoding.hi_of_field?_eq_none hlt h
    rw [if_pos hlt, hset]
    clear hlt
    generalize translator.width = w at *
    match w, hne with
    | 0, _ => rfl
    | 1, hne => exact absurd rfl hne
    | 2, _ => rfl
    | 3, _ => rfl
  · rw [if_neg hlt]

/-- The encoding of the field for errors has its index where the union has the width. -/
theorem vmInstructionError_unsupported : vmInstructionError.field? = none := by decide

/-- The failure is reported by a write that fails itself. -/
theorem vmwrite_vmInstructionError : s.noirVtNestedVmwrite depth vmInstructionError data = none := by
  induction depth generalizing s data with
  | zero => rfl
  | succ depth ih => rw [vmwrite_of_unsupported vmInstructionError_unsupported, ih, Option.map_none]

theorem perform_of_unsupported (h : a.translator.field? = none) : s.perform depth a = none := by
  cases a with
  | vmread translator data =>
      change translator.field? = none at h
      rw [perform, vmread_of_unsupported h, vmwrite_vmInstructionError]
      rfl
  | vmwrite translator data =>
      change translator.field? = none at h
      cases depth with
      | zero => rfl
      | succ depth =>
          rw [perform, vmwrite_of_unsupported h, vmwrite_vmInstructionError]
          rfl

/-! The write of a part of a field is one to the field. -/

theorem stored_others (h : translator.field? = some f) {i : Nat}
    (hi : i < f.offset ∨ f.offset + f.size ≤ i) :
    (s.stored f translator.hi data).page i = s.page i := by
  have hsize := upper_of_field h
  unfold stored NestedField.accessed
  apply store_of_not_mem
  cases hset : translator.hi with
  | true =>
      have hsize := hsize hset
      rw [if_pos rfl, if_pos rfl]
      omega
  | false => exact hi

theorem stored_contents (h : translator.field? = some f) :
    (s.stored f translator.hi data).contents =
      Function.update s.contents f (f.updated translator.hi (s.contents f) data) := by
  have hsize := upper_of_field h
  unfold contents stored NestedField.accessed NestedField.updated
  cases hset : translator.hi with
  | true =>
      have hwidth : nestedLayout.width f = 4 + 4 := hsize hset
      exact Layout.contents_store_upper hwidth
  | false => exact Layout.contents_store

theorem perform_of_field (h : a.translator.field? = some f) :
    ∃ r, s.perform (depth + 1) a = some r ∧ Succeeds s a f r := by
  cases a with
  | vmread translator data =>
      change translator.field? = some f at h
      refine ⟨⟨true, _, s.noirVtVmsuccess⟩, by rw [perform, vmread_of_field h]; rfl, ?_⟩
      refine ⟨rfl, vmxFlags_vmsuccessFlags, fun _ _ => rfl, ?_, fun _ _ heq => (nomatch heq)⟩
      rintro _ _ ⟨⟩
      exact ⟨rfl, rfl⟩
  | vmwrite translator data =>
      change translator.field? = some f at h
      refine ⟨⟨true, data, (s.stored f translator.hi data).noirVtVmsuccess⟩,
        by rw [perform, vmwrite_of_field h]; rfl, ?_⟩
      refine ⟨rfl, vmxFlags_vmsuccessFlags, fun _ hi => stored_others h hi,
        fun _ _ heq => (nomatch heq), ?_⟩
      rintro _ _ ⟨⟩
      exact stored_contents h

/-- Accesses are answered as they should be exactly if none of them fails. -/
theorem answersAll_iff {as : List VmcsAccess} :
    s.AnswersAll as ↔ ∀ a ∈ as, a.translator.Supported := by
  induction as generalizing s with
  | nil => exact ⟨fun _ a ha => absurd ha List.not_mem_nil, fun _ => trivial⟩
  | cons a as ih =>
      rw [List.forall_mem_cons]
      cases hfield : a.translator.field? with
      | none =>
          constructor
          · rintro ⟨depth, r, hperform, -⟩
            rw [perform_of_unsupported hfield] at hperform
            exact (nomatch hperform)
          · rintro ⟨hsupported, -⟩
            unfold VmcsEncoding.Supported at hsupported
            rw [hfield] at hsupported
            exact absurd hsupported Bool.false_ne_true
      | some f =>
          have hsupported : a.translator.Supported := congrArg Option.isSome hfield
          constructor
          · rintro ⟨depth, r, -, -, has⟩
            exact ⟨hsupported, ih.mp has⟩
          · rintro ⟨-, has⟩
            obtain ⟨r, hperform, hsucceeds⟩ := @perform_of_field s a f 0 hfield
            refine ⟨1, r, hperform, ?_, ih.mpr has⟩
            unfold Answers
            rw [hfield]
            exact hsucceeds

/-! What a run without failures leaves in a field. -/

def runAll (depth : Nat) (s : NestedVmcs) (as : List VmcsAccess) : Option NestedVmcs :=
  as.foldlM (fun s a => (s.perform depth a).map VmcsAnswer.vmcs) s

theorem taken_updated {hi : Bool} {word : BitVec 64} :
    NestedField.taken hi (f.updated hi word data) = low (f.accessed hi) data := by
  unfold NestedField.taken NestedField.updated NestedField.accessed
  cases hi with
  | false => rfl
  | true =>
      rw [if_pos rfl, if_pos rfl, if_pos rfl]
      apply BitVec.eq_of_getLsbD_eq
      intro k hk
      have hlower : ¬8 * 4 + k < 8 * 4 := by omega
      rw [BitVec.getLsbD_ushiftRight, BitVec.getLsbD_or, getLsbD_low, BitVec.getLsbD_shiftLeft,
        decide_eq_false hlower, Bool.false_and, Bool.false_or, Nat.add_sub_cancel_left, getLsbD_low]
      by_cases hlt : k < 8 * 4
      · have hin : 8 * 4 + k < 64 := by omega
        simp only [hin, hlt, decide_true, Bool.not_false, Bool.true_and]
      · simp only [hlt, decide_false, Bool.false_and, Bool.and_false]

/-- Only a write to the field changes it. -/
theorem contents_runAll {as : List VmcsAccess} {t : NestedVmcs}
    (hnot : ∀ translator data, .vmwrite translator data ∈ as → translator.field? ≠ some f)
    (hrun : runAll (depth + 1) s as = some t) : t.contents f = s.contents f := by
  induction as generalizing s with
  | nil => exact congrArg (contents · f) (Option.some.inj hrun).symm
  | cons a as ih =>
      obtain ⟨u, hstep, hrest⟩ := Option.bind_eq_some_iff.mp hrun
      obtain ⟨r, hperform, rfl⟩ := Option.map_eq_some_iff.mp hstep
      rw [ih (fun translator data h => hnot translator data (List.mem_cons_of_mem _ h)) hrest]
      cases hfield : a.translator.field? with
      | none =>
          rw [perform_of_unsupported hfield] at hperform
          exact (nomatch hperform)
      | some g =>
          obtain ⟨r', hperform', hsucceeds⟩ := @perform_of_field s a g depth hfield
          obtain rfl := Option.some.inj (hperform.symm.trans hperform')
          cases a with
          | vmread translator data =>
              exact congrArg (nestedLayout.contents · f) (hsucceeds.read translator data rfl).1
          | vmwrite translator data =>
              rw [hsucceeds.written translator data rfl]
              refine Function.update_of_ne (fun heq => ?_) _ _
              exact hnot translator data List.mem_cons_self (by rw [heq]; exact hfield)

/-- The last value that was written to the field, or to its half, is what a read gives. -/
theorem vmread_last_written {as : List VmcsAccess} {t : NestedVmcs} {dest : BitVec 64}
    (h : translator.field? = some f)
    (hnot : ∀ translator data, .vmwrite translator data ∈ as → translator.field? ≠ some f)
    (hrun : runAll (depth + 1) s (.vmwrite translator data :: as) = some t) :
    ∃ r, t.perform (depth + 1) (.vmread translator dest) = some r ∧
      r.data = assignLow (f.accessed translator.hi) dest
        (low (f.accessed translator.hi) data) := by
  obtain ⟨u, hstep, hrest⟩ := Option.bind_eq_some_iff.mp hrun
  obtain ⟨r, hperform, rfl⟩ := Option.map_eq_some_iff.mp hstep
  obtain ⟨r', hperform', hsucceeds⟩ := @perform_of_field s (.vmwrite translator data) f depth h
  obtain rfl := Option.some.inj (hperform.symm.trans hperform')
  have hcontents : t.contents f = f.updated translator.hi (s.contents f) data := by
    rw [contents_runAll hnot hrest, hsucceeds.written translator data rfl, Function.update_self]
  obtain ⟨q, hread, hanswer⟩ := @perform_of_field t (.vmread translator dest) f depth h
  refine ⟨q, hread, ?_⟩
  rw [(hanswer.read translator dest rfl).2, hcontents, taken_updated]

/-- CR0 of the guest, with the mask of CR0 written after it. -/
theorem guestCr0_last_written :
    ∃ t r, runAll 1 ⟨fun _ => 0, 0⟩ [.vmwrite ⟨0x6800⟩ 5, .vmwrite ⟨0x6000⟩ 7] = some t ∧
      t.perform 1 (.vmread ⟨0x6800⟩ 0) = some r ∧ r.data = 5 := by
  have hother : (⟨0x6000⟩ : VmcsEncoding).field? ≠ (⟨0x6800⟩ : VmcsEncoding).field? := by decide
  obtain ⟨t, hrun⟩ := Option.isSome_iff_exists.mp (show (runAll 1 ⟨fun _ => 0, 0⟩
    [.vmwrite ⟨0x6800⟩ 5, .vmwrite ⟨0x6000⟩ 7]).isSome = true by decide)
  obtain ⟨r, hanswer⟩ : ∃ r, t.perform 1 (.vmread ⟨0x6800⟩ 0) = some r ∧ r.data = 5 :=
    vmread_last_written rfl
      (fun translator data hmem => by cases List.mem_singleton.mp hmem; exact hother) hrun
  exact ⟨t, r, hrun, hanswer⟩

/-- An access to the last field that an index can stand for. -/
theorem not_answersAll_unsupported :
    ¬∀ (s : NestedVmcs) (as : List VmcsAccess), s.AnswersAll as := by
  intro h
  obtain ⟨depth, r, hperform, -⟩ := h ⟨fun _ => 0, 0⟩ [.vmread ⟨0x3FE⟩ 0]
  have hnone : (VmcsAccess.vmread ⟨0x3FE⟩ 0).translator.field? = none := by decide
  rw [perform_of_unsupported hnone] at hperform
  exact (nomatch hperform)

end NestedVmcs

end Accesses

end NoirVisor
