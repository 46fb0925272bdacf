import Mathlib.Data.List.Induction
import NoirVisor.Cvm.Register

/-!
# Editing the registers of a virtual CPU

The two interfaces of the layered hypervisor: by register type, and by a list of names.
-/

namespace NoirVisor

/-- An offset that makes a counter of this value read so. -/
def offsetFrom (tsc value : Nat) : Nat := (value + 2 ^ 64 - tsc % 2 ^ 64) % 2 ^ 64

/-- What an edit of a register type writes and invalidates. The extended state is not in registers. -/
def RegisterType.edit (type : RegisterType) (b : Buffer) (size tsc : Nat) : RegisterEdit :=
  match type with
  | .generalPurposeRegister =>
      ⟨fun | .gpr i => some (b.word i) | _ => none, (· == .gpr)⟩
  | .flagsRegister => ⟨fun | .rflags => some (b.word 0) | _ => none, (· == .gpr)⟩
  | .instructionPointer => ⟨fun | .rip => some (b.word 0) | _ => none, (· == .gpr)⟩
  | .controlRegister =>
      ⟨fun
        | .cr0 => some (b.word 0)
        | .cr3 => some (b.word 1)
        | .cr4 => some (b.word 2)
        | _ => none, (· == .cr)⟩
  | .cr2Register => ⟨fun | .cr2 => some (b.word 0) | _ => none, (· == .cr2)⟩
  | .debugRegister => ⟨fun | .dr i => some (b.word i) | _ => none, fun _ => false⟩
  | .dr67Register =>
      ⟨fun | .dr6 => some (b.word 0) | .dr7 => some (b.word 1) | _ => none, (· == .dr)⟩
  | .segmentRegister =>
      ⟨fun
        | .seg .es field => some (segmentField (b.word 0) (b.word 1) field)
        | .seg .cs field => some (segmentField (b.word 2) (b.word 3) field)
        | .seg .ss field => some (segmentField (b.word 4) (b.word 5) field)
        | .seg .ds field => some (segmentField (b.word 6) (b.word 7) field)
        | _ => none, (· == .sr)⟩
  | .fgsegRegister =>
      ⟨fun
        | .seg .fs field => some (segmentField (b.word 0) (b.word 1) field)
        | .seg .gs field => some (segmentField (b.word 2) (b.word 3) field)
        -- Kernel-GS-Base follows the two segments if the buffer has room for it.
        | .gsswap => if size - 32 ≥ 8 then some (b.word 4) else none
        | _ => none, (· == .fg)⟩
  | .descriptorTable =>
      ⟨fun
        | .seg .gdtr .limit => some (segmentField (b.word 0) (b.word 1) .limit)
        | .seg .gdtr (.baseByte i) => some (segmentField (b.word 0) (b.word 1) (.baseByte i))
        | .seg .idtr .limit => some (segmentField (b.word 2) (b.word 3) .limit)
        | .seg .idtr (.baseByte i) => some (segmentField (b.word 2) (b.word 3) (.baseByte i))
        | _ => none, (· == .dt)⟩
  | .ldtrTaskRegister =>
      ⟨fun
        | .seg .tr field => some (segmentField (b.word 0) (b.word 1) field)
        | .seg .ldtr field => some (segmentField (b.word 2) (b.word 3) field)
        | _ => none, (· == .lt)⟩
  | .syscallMsrRegister =>
      ⟨fun
        | .star => some (b.word 0)
        | .lstar => some (b.word 1)
        | .cstar => some (b.word 2)
        | .sfmask => some (b.word 3)
        | _ => none, (· == .sc)⟩
  | .sysenterMsrRegister =>
      ⟨fun
        | .sysenterCs => some (b.word 0)
        | .sysenterEsp => some (b.word 1)
        | .sysenterEip => some (b.word 2)
        | _ => none, (· == .se)⟩
  | .cr8Register => ⟨fun | .cr8 => some (b.word 0) | _ => none, (· == .tp)⟩
  | .fxstate => ⟨fun _ => none, fun _ => false⟩
  | .xsaveArea => ⟨fun _ => none, fun _ => false⟩
  | .xcr0Register => ⟨fun | .xcr0 => some (b.word 0) | _ => none, fun _ => false⟩
  | .eferRegister => ⟨fun | .efer => some (b.word 0) | _ => none, (· == .ef)⟩
  | .patRegister => ⟨fun | .pat => some (b.word 0) | _ => none, (· == .pa)⟩
  | .lastBranchRecordRegister =>
      ⟨fun
        | .debugCtrl => some (b.word 0)
        | .lastBranchFromIp => some (b.word 1)
        | .lastBranchToIp => some (b.word 2)
        | .lastExceptionFromIp => some (b.word 3)
        | .lastExceptionToIp => some (b.word 4)
        | _ => none, (· == .lb)⟩
  | .timeStampCounter =>
      ⟨fun | .tscOffset => some (offsetFrom tsc (b.word 0)) | _ => none, (· == .ts)⟩
  | .ghcbRegister => ⟨fun | .ghcb => some (b.word 0) | _ => none, fun _ => false⟩
  | .apicBarRegister => ⟨fun | .apic => some (b.word 0) | _ => none, (· == .ap)⟩

def VirtualCpu.edit (vcpu : VirtualCpu) (e : RegisterEdit) : VirtualCpu :=
  { vcpu with
    reg := e.write vcpu.reg
    stateCache := fun c => vcpu.stateCache c && !e.invalidates c }

def nvcEditVcpuRegisters (supportedSizeMax tsc : Nat) (vcpu : VirtualCpu) (type : RegisterType)
    (b : Buffer) (size : Nat) : NoirStatus × VirtualCpu :=
  if size ≥ type.bufferLimit then
    match type with
    | .fxstate => (.success, { vcpu with xsaveArea := copyFxState b.area vcpu.xsaveArea })
    | .xsaveArea =>
        if size ≥ supportedSizeMax then (.success, { vcpu with xsaveArea := b.area })
        else (.bufferTooSmall, vcpu)
    | _ => (.success, vcpu.edit (type.edit b size tsc))
  else (.bufferTooSmall, vcpu)

/-- An edit of one register of eight bytes. -/
def oneEdit (r : Register) (c : Option StateCache) (value : Nat) : RegisterEdit :=
  ⟨fun r' => if r' = r then some value else none, fun c' => c == some c'⟩

/-- One segment, or the first bytes of it if an element is shorter than 16 bytes. -/
def segmentEdit (name : SegmentName) (size : Nat) (element : Element) : RegisterEdit :=
  ⟨fun
    | .seg name' field =>
        if name' = name ∧ field.within (min size 16) then
          some (segmentField element.low element.high field)
        else none
    | _ => none, (· == name.stateCache)⟩

/-- What the loop of `nvc_edit_vcpu_registers2` does for a name; it stops at others. -/
def namedEdit (name size tsc : Nat) (element : Element) : Option RegisterEdit :=
  if h : name < 16 then
    some (oneEdit (.gpr ⟨name, h⟩) (if name = 0 then some .gpr else none) element.low)
  else if name = 0x20 then some (oneEdit .rflags (some .gpr) element.low)
  else if name = 0x21 then some (oneEdit .rip (some .gpr) element.low)
  else if 0x22 ≤ name ∧ name ≤ 0x2B then
    segmentOrder[name - 0x22]?.map fun segment => segmentEdit segment size element
  else match name with
    | 0x30 => some (oneEdit .cr0 (some .cr) element.low)
    | 0x32 => some (oneEdit .cr2 (some .cr2) element.low)
    | 0x33 => some (oneEdit .cr3 (some .cr) element.low)
    | 0x34 => some (oneEdit .cr4 (some .cr) element.low)
    | 0x38 => some (oneEdit .cr8 (some .tp) element.low)
    | 0x40 => some (oneEdit (.dr 0) none element.low)
    | 0x41 => some (oneEdit (.dr 1) none element.low)
    | 0x42 => some (oneEdit (.dr 2) none element.low)
    | 0x43 => some (oneEdit (.dr 3) none element.low)
    | 0x46 => some (oneEdit .dr6 (some .dr) element.low)
    | 0x47 => some (oneEdit .dr7 (some .dr) element.low)
    | 0x50 => some (oneEdit .xcr0 none element.low)
    | 0x1000 => some (oneEdit .tscOffset (some .ts) (offsetFrom tsc element.low))
    | 0x1001 => some (oneEdit .efer (some .ef) element.low)
    | 0x1002 => some (oneEdit .gsswap (some .fg) element.low)
    | 0x1003 => some (oneEdit .apic (some .ap) element.low)
    | 0x1004 => some (oneEdit .sysenterCs (some .se) element.low)
    | 0x1005 => some (oneEdit .sysenterEsp (some .se) element.low)
    | 0x1006 => some (oneEdit .sysenterEip (some .se) element.low)
    | 0x1007 => some (oneEdit .pat (some .pa) element.low)
    | 0x1008 => some (oneEdit .star (some .sc) element.low)
    | 0x1009 => some (oneEdit .lstar (some .sc) element.low)
    | 0x100A => some (oneEdit .cstar (some .sc) element.low)
    | 0x100B => some (oneEdit .sfmask (some .sc) element.low)
    | 0x100C => some (oneEdit .ststar (some .sc) element.low)
    -- Names up to `noir_cvm_register_msr_max` are taken for MSRs, and this one is none.
    | 0x100D => some ⟨fun _ => none, fun _ => false⟩
    | _ => none

def editNamed (size : Nat) (tsc : Nat → Nat) (buffer : Nat → Element) (vcpu : VirtualCpu) (i : Nat) :
    List Nat → NoirStatus × VirtualCpu
  | [] => (.success, vcpu)
  -- The offset of an element is a product of 32-bit numbers.
  | name :: names =>
      match namedEdit name size (tsc i) (buffer (i * size % 2 ^ 32)) with
      | none => (.invalidParameter, vcpu)
      | some e => editNamed size tsc buffer (vcpu.edit e) (i + 1) names

def nvcEditVcpuRegisters2 (tsc : Nat → Nat) (vcpu : VirtualCpu) (names : List Nat) (size : Nat)
    (buffer : Nat → Element) : NoirStatus × VirtualCpu :=
  if size < 8 then (.invalidParameter, vcpu) else editNamed size tsc buffer vcpu 0 names

/-! What the calls of either interface ask to be written, in order. -/

/-- A register file and the extended state beside it. -/
structure GuestFile where
  reg : Register → Nat
  xstate : Xsave.State

/-- A call, with the time stamp counter as it is read. A buffer of named registers is by offset. -/
inductive EditCall where
  | type (registerType : RegisterType) (b : Buffer) (size tsc : Nat)
  | named (names : List Nat) (size : Nat) (buffer : Nat → Element) (tsc : Nat → Nat)

def namedEdits (size : Nat) (tsc : Nat → Nat) (buffer : Nat → Element) (i : Nat) :
    List Nat → List RegisterEdit
  | [] => []
  | name :: names =>
      match namedEdit name size (tsc i) (buffer (i * size % 2 ^ 32)) with
      | none => []
      | some e => e :: namedEdits size tsc buffer (i + 1) names

namespace EditCall

def run (supportedSizeMax : Nat) (vcpu : VirtualCpu) : EditCall → NoirStatus × VirtualCpu
  | .type registerType b size tsc =>
      nvcEditVcpuRegisters supportedSizeMax tsc vcpu registerType b size
  | .named names size buffer tsc => nvcEditVcpuRegisters2 tsc vcpu names size buffer

/-- The edits of registers that a call asks for. -/
def edits : EditCall → List RegisterEdit
  | .type .fxstate .. => []
  | .type .xsaveArea .. => []
  | .type registerType b size tsc =>
      if size ≥ registerType.bufferLimit then [registerType.edit b size tsc] else []
  | .named names size buffer tsc => if size < 8 then [] else namedEdits size tsc buffer 0 names

/-- An edit of the extended state. -/
inductive ExtEdit where
  | fxState (b : Xsave.Area)
  | whole (b : Xsave.Area)

def extEdit (supportedSizeMax : Nat) : EditCall → Option ExtEdit
  | .type .fxstate b size _ => if size ≥ 512 then some (.fxState b.area) else none
  | .type .xsaveArea b size _ => if size ≥ supportedSizeMax then some (.whole b.area) else none
  | _ => none

/-- What it makes of the area. -/
def ExtEdit.area : ExtEdit → Xsave.Area → Xsave.Area
  | fxState b, area => copyFxState b area
  | whole b, _ => b

/-- The extended state that is asked for. -/
def ExtEdit.write : ExtEdit → Xsave.State → Xsave.State
  | fxState b, ext =>
      { component := fun c => if c.val < 2 then b.component c else ext.component c
        mxcsr := b.mxcsr }
  | whole b, _ => ⟨b.value, b.mxcsr⟩

end EditCall

variable {supportedSizeMax size i : Nat} {tsc : Nat → Nat} {buffer : Nat → Element}
  {vcpu : VirtualCpu} {call : EditCall}

theorem editNamed_eq {names : List Nat} :
    (editNamed size tsc buffer vcpu i names).2 =
      (namedEdits size tsc buffer i names).foldl VirtualCpu.edit vcpu := by
  induction names generalizing vcpu i with
  | nil => rfl
  | cons name names ih =>
      unfold editNamed namedEdits
      cases namedEdit name size (tsc i) (buffer (i * size % 2 ^ 32)) with
      | none => rfl
      | some e => exact ih

theorem edits_xsaveArea (es : List RegisterEdit) (vcpu : VirtualCpu) :
    (es.foldl VirtualCpu.edit vcpu).xsaveArea = vcpu.xsaveArea := by
  induction es generalizing vcpu with
  | nil => rfl
  | cons e es ih => exact ih _

/-- What a call does is what it asks for: its edits of registers, and its edit of the area. -/
theorem EditCall.run_eq :
    (call.run supportedSizeMax vcpu).2 =
      { call.edits.foldl VirtualCpu.edit vcpu with
        xsaveArea :=
          (call.extEdit supportedSizeMax).elim vcpu.xsaveArea (·.area vcpu.xsaveArea) } := by
  cases call with
  | type registerType b size tsc =>
      by_cases hlimit : size ≥ registerType.bufferLimit
      · cases registerType with
        | fxstate =>
            have h512 : size ≥ 512 := hlimit
            simp only [run, edits, extEdit, nvcEditVcpuRegisters, if_pos hlimit, if_pos h512,
              List.foldl_nil, Option.elim_some, ExtEdit.area]
        | xsaveArea =>
            simp only [run, edits, extEdit, nvcEditVcpuRegisters, if_pos hlimit, List.foldl_nil]
            split <;> rfl
        | _ =>
            simp only [run, edits, extEdit, nvcEditVcpuRegisters, if_pos hlimit, List.foldl_cons,
              List.foldl_nil]
            rfl
      · cases registerType with
        | fxstate =>
            have h512 : ¬size ≥ 512 := hlimit
            simp only [run, edits, extEdit, nvcEditVcpuRegisters, if_neg hlimit, if_neg h512,
              List.foldl_nil, Option.elim_none]
        | xsaveArea => exact absurd (Nat.zero_le size) hlimit
        | _ =>
            simp only [run, edits, extEdit, nvcEditVcpuRegisters, if_neg hlimit, List.foldl_nil,
              Option.elim_none]
  | named names size buffer tsc =>
      by_cases hsize : size < 8
      · simp only [run, edits, extEdit, nvcEditVcpuRegisters2, if_pos hsize, List.foldl_nil,
          Option.elim_none]
      · simp only [run, edits, extEdit, nvcEditVcpuRegisters2, if_neg hsize, editNamed_eq,
          Option.elim_none, ← edits_xsaveArea (namedEdits size tsc buffer 0 names) vcpu]

/-- The group that every edit of a register invalidates. An edit of RSP by name invalidates none. -/
def Register.invalidated : Register → Option StateCache
  | .gpr i => if i = 0 then some .gpr else none
  | .rflags | .rip => some .gpr
  | .seg name _ => some name.stateCache
  | .cr0 | .cr3 | .cr4 => some .cr
  | .cr2 => some .cr2
  | .cr8 => some .tp
  | .dr6 | .dr7 => some .dr
  | .sysenterCs | .sysenterEsp | .sysenterEip => some .se
  | .pat => some .pa
  | .efer => some .ef
  | .star | .lstar | .cstar | .sfmask | .ststar => some .sc
  | .gsswap => some .fg
  | .apic => some .ap
  | .debugCtrl | .lastBranchFromIp | .lastBranchToIp => some .lb
  | .lastExceptionFromIp | .lastExceptionToIp => some .lb
  | .tscOffset => some .ts
  | .dr _ | .xcr0 | .ghcb => none

/-- A change tells of every register it writes. -/
def Invalidating (e : RegisterEdit) : Prop :=
  ∀ r c, e.value r ≠ none → r.invalidated = some c → e.invalidates c = true

theorem RegisterType.edit_invalidating (type : RegisterType) (b : Buffer) (size tsc : Nat) :
    Invalidating (type.edit b size tsc) := by
  intro r c hvalue hgroup
  cases r with
  | gpr i =>
      cases (Option.ite_none_right_eq_some.mp hgroup).2
      cases type <;> first | exact absurd rfl hvalue | rfl
  | seg name field =>
      cases Option.some.inj hgroup
      cases type <;> cases name <;> first | exact absurd rfl hvalue | rfl
  | _ =>
      cases type <;> first
        | exact absurd rfl hvalue
        | cases hgroup <;> rfl

theorem oneEdit_invalidating {r : Register} {c : Option StateCache} {value : Nat}
    (h : r.invalidated = none ∨ c = r.invalidated) : Invalidating (oneEdit r c value) := by
  intro r' c' hvalue hgroup
  have hr : r' = r := by
    by_contra hne
    exact hvalue (if_neg hne)
  subst hr
  rw [hgroup] at h
  obtain h | rfl := h
  · cases h
  · simp [oneEdit]

theorem segmentEdit_invalidating {name : SegmentName} {size : Nat} {element : Element} :
    Invalidating (segmentEdit name size element) := by
  intro r c hvalue hgroup
  cases r with
  | seg name' field =>
      have hname : name' = name := by
        by_contra hne
        exact hvalue (if_neg fun h => hne h.1)
      subst hname
      cases Option.some.inj hgroup
      exact beq_self_eq_true _
  | _ => exact absurd rfl hvalue

theorem namedEdit_invalidating {name size tsc : Nat} {element : Element} {e : RegisterEdit}
    (h : namedEdit name size tsc element = some e) : Invalidating e := by
  unfold namedEdit at h
  split at h
  · next hname =>
      cases h
      refine oneEdit_invalidating ?_
      by_cases hzero : name = 0
      · exact .inr (by simp [Register.invalidated, hzero])
      · exact .inl (by simp [Register.invalidated, Fin.ext_iff, hzero])
  · split at h
    · cases h
      exact oneEdit_invalidating (.inr rfl)
    · split at h
      · cases h
        exact oneEdit_invalidating (.inr rfl)
      · split at h
        · obtain ⟨segment, -, rfl⟩ := Option.map_eq_some_iff.mp h
          exact segmentEdit_invalidating
        · split at h
          all_goals first
            | (cases h; exact oneEdit_invalidating (.inr rfl))
            | (cases h; intro r c hvalue; exact absurd rfl hvalue)
            | cases h

theorem namedEdits_invalidating {names : List Nat} {e : RegisterEdit}
    (h : e ∈ namedEdits size tsc buffer i names) : Invalidating e := by
  induction names generalizing i with
  | nil => exact absurd h List.not_mem_nil
  | cons name names ih =>
      unfold namedEdits at h
      split at h
      · exact absurd h List.not_mem_nil
      · next e' hedit =>
          obtain rfl | h := List.mem_cons.mp h
          · exact namedEdit_invalidating hedit
          · exact ih h

theorem EditCall.invalidating {e : RegisterEdit} (h : e ∈ call.edits) : Invalidating e := by
  unfold EditCall.edits at h
  split at h
  · exact absurd h List.not_mem_nil
  · exact absurd h List.not_mem_nil
  · split at h
    · obtain rfl := List.mem_singleton.mp h
      exact RegisterType.edit_invalidating _ _ _ _
    · exact absurd h List.not_mem_nil
  · split at h
    · exact absurd h List.not_mem_nil
    · exact namedEdits_invalidating h

/-- A register that was written is in a group that the writes invalidated. -/
theorem any_invalidates_of_lastWrite {es : List RegisterEdit} (hes : ∀ e ∈ es, Invalidating e)
    {r : Register} {c : StateCache} {value : Nat}
    (hwrite : Writeback.lastWrite es r = some value) (hgroup : r.invalidated = some c) :
    es.any (·.invalidates c) = true := by
  obtain ⟨e, hmem, hvalue⟩ := List.exists_of_findSome?_eq_some hwrite
  have hmem := List.mem_reverse.mp hmem
  have hwritten : e.value r ≠ none := by rw [hvalue]; exact Option.some_ne_none value
  exact List.any_eq_true.mpr ⟨e, hmem, hes e hmem r c hwritten hgroup⟩

namespace EditCalls

/-- The edits of registers and of the area that a sequence of calls asks for, in order. -/
def edits (calls : List EditCall) : List RegisterEdit := calls.flatMap (·.edits)

def extEdits (supportedSizeMax : Nat) (calls : List EditCall) : List EditCall.ExtEdit :=
  calls.filterMap (·.extEdit supportedSizeMax)

def run (supportedSizeMax : Nat) (calls : List EditCall) (vcpu : VirtualCpu) : VirtualCpu :=
  calls.foldl (fun vcpu call => (call.run supportedSizeMax vcpu).2) vcpu

/-- Every call of a sequence reports success. -/
def Successful (supportedSizeMax : Nat) : List EditCall → VirtualCpu → Prop
  | [], _ => True
  | call :: calls, vcpu =>
      (call.run supportedSizeMax vcpu).1 = .success ∧
        Successful supportedSizeMax calls (call.run supportedSizeMax vcpu).2

def area (xs : List EditCall.ExtEdit) (area : Xsave.Area) : Xsave.Area :=
  xs.foldl (fun area x => x.area area) area

def write (xs : List EditCall.ExtEdit) (ext : Xsave.State) : Xsave.State :=
  xs.foldl (fun ext x => x.write ext) ext

/-- An edit of the x87 or SSE state is the last one of the area, which says that they are initial. -/
def Lost (xs : List EditCall.ExtEdit) (before : Xsave.Area) (c : Fin 63) : Prop :=
  c.val < 2 ∧ (area xs before).xstateBv c = false ∧
    ∃ b, xs.getLast? = some (.fxState b) ∧ b.component c ≠ 0

variable {calls : List EditCall} {es : List RegisterEdit} {xs : List EditCall.ExtEdit}
  {before : Xsave.Area} {c : Fin 63}

theorem edits_with_xsaveArea (a : Xsave.Area) :
    es.foldl VirtualCpu.edit { vcpu with xsaveArea := a } =
      { es.foldl VirtualCpu.edit vcpu with xsaveArea := a } := by
  induction es generalizing vcpu with
  | nil => rfl
  | cons e es ih => exact @ih (vcpu.edit e)

theorem run_eq :
    run supportedSizeMax calls vcpu =
      { (edits calls).foldl VirtualCpu.edit vcpu with
        xsaveArea := area (extEdits supportedSizeMax calls) vcpu.xsaveArea } := by
  induction calls generalizing vcpu with
  | nil => rfl
  | cons call calls ih =>
      have hstep : run supportedSizeMax (call :: calls) vcpu =
          run supportedSizeMax calls (call.run supportedSizeMax vcpu).2 := rfl
      rw [hstep, ih, EditCall.run_eq, edits_with_xsaveArea]
      unfold edits extEdits area
      rw [List.flatMap_cons, List.foldl_append, List.filterMap_cons]
      cases call.extEdit supportedSizeMax <;> rfl

theorem edits_reg (r : Register) :
    (es.foldl VirtualCpu.edit vcpu).reg r = (Writeback.lastWrite es r).getD (vcpu.reg r) := by
  rw [← Writeback.writes_eq]
  induction es generalizing vcpu with
  | nil => rfl
  | cons e es ih => exact ih

theorem edits_stateCache (c : StateCache) :
    (es.foldl VirtualCpu.edit vcpu).stateCache c =
      (vcpu.stateCache c && !es.any (·.invalidates c)) := by
  induction es generalizing vcpu with
  | nil => simp
  | cons e es ih =>
      rw [List.foldl_cons, ih]
      simp [VirtualCpu.edit, Bool.and_assoc]

theorem edits_synchronized : (es.foldl VirtualCpu.edit vcpu).synchronized = vcpu.synchronized := by
  induction es generalizing vcpu with
  | nil => rfl
  | cons e es ih => exact ih

theorem edits_singleton : edits [call] = call.edits := by
  rw [edits, List.flatMap_singleton]

theorem run_reg (supportedSizeMax : Nat) (r : Register) :
    (run supportedSizeMax calls vcpu).reg r =
      (Writeback.lastWrite (edits calls) r).getD (vcpu.reg r) := by
  rw [run_eq]
  exact edits_reg r

theorem run_stateCache (c : StateCache) :
    (run supportedSizeMax calls vcpu).stateCache c =
      (vcpu.stateCache c && !(edits calls).any (·.invalidates c)) := by
  rw [run_eq]
  exact edits_stateCache c

theorem run_synchronized :
    (run supportedSizeMax calls vcpu).synchronized = vcpu.synchronized := by
  rw [run_eq]
  exact edits_synchronized

theorem area_append (x : EditCall.ExtEdit) : area (xs ++ [x]) before = x.area (area xs before) := by
  rw [area, List.foldl_append]
  rfl

theorem write_append (x : EditCall.ExtEdit) (ext : Xsave.State) :
    write (xs ++ [x]) ext = x.write (write xs ext) := by
  rw [write, List.foldl_append]
  rfl

theorem area_mxcsr : (area xs before).mxcsr = (write xs ⟨before.value, before.mxcsr⟩).mxcsr := by
  induction xs using List.reverseRecOn with
  | nil => rfl
  | append_singleton xs x =>
      rw [area_append, write_append]
      cases x <;> rfl

/-- An area holds the components that were asked for, but those that it says to be initial. -/
theorem area_value :
    (area xs before).value c = (write xs ⟨before.value, before.mxcsr⟩).component c ↔
      ¬Lost xs before c := by
  induction xs using List.reverseRecOn with
  | nil => simp [Lost, area, write]
  | append_singleton xs x ih =>
      unfold Lost
      rw [area_append, write_append, List.getLast?_concat]
      cases x with
      | whole b => simp [EditCall.ExtEdit.area, EditCall.ExtEdit.write]
      | fxState b =>
          by_cases hc : c.val < 2
          · cases hbv : (area xs before).xstateBv c with
            | true =>
                simp only [Xsave.Area.value, EditCall.ExtEdit.area, copyFxState, hbv, ↓reduceIte, hc,
                  EditCall.ExtEdit.write, Bool.true_eq_false, Option.some.injEq,
                  EditCall.ExtEdit.fxState.injEq, ne_eq, exists_eq_left', false_and, and_false,
                  not_false_eq_true]
            | false =>
                simp only [Xsave.Area.value, EditCall.ExtEdit.area, copyFxState, hbv,
                  Bool.false_eq_true, ↓reduceIte, EditCall.ExtEdit.write, hc, Option.some.injEq,
                  EditCall.ExtEdit.fxState.injEq, ne_eq, eq_comm, exists_eq_left', true_and,
                  Decidable.not_not]
          · have hold := ih.mpr fun h => hc h.1
            simpa only [Xsave.Area.value, EditCall.ExtEdit.area, copyFxState, hc, ↓reduceIte,
              EditCall.ExtEdit.write, Option.some.injEq, EditCall.ExtEdit.fxState.injEq, ne_eq,
              exists_eq_left', false_and, not_false_eq_true, iff_true] using hold

end EditCalls

end NoirVisor
