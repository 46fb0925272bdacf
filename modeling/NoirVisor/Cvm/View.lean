import NoirVisor.Cvm.Register

/-!
# Viewing the registers of a virtual CPU

By register type, with a dump of the control block if the group asks for one, and by a list of names.
-/

namespace NoirVisor

/-- The words of a buffer from its start on. -/
def Buffer.writeWords (b : Buffer) (words : List Nat) : Buffer :=
  { b with word := fun i => words.getD i (b.word i) }

def segmentWords (reg : Register → Nat) (name : SegmentName) : List Nat :=
  [segmentLow (reg <| .seg name ·), segmentHigh (reg <| .seg name ·)]

/-- The counter that an offset makes. -/
def counterAt (tsc offset : Nat) : Nat := (tsc + offset) % 2 ^ 64

/-- The group that a view of a register type synchronizes. -/
def RegisterType.syncs : RegisterType → Option StateCache
  | .controlRegister => some .cr
  | .cr2Register => some .cr2
  | .dr67Register => some .dr
  | .segmentRegister => some .sr
  | .fgsegRegister => some .fg
  | .descriptorTable => some .dt
  | .ldtrTaskRegister => some .lt
  | .syscallMsrRegister => some .sc
  | .sysenterMsrRegister => some .se
  | .cr8Register => some .tp
  | _ => none

/-- The buffer with the registers of a type. The selectors and attributes of descriptor tables are
left alone. -/
def RegisterType.view (type : RegisterType) (reg : Register → Nat) (area : Xsave.Area) (tsc : Nat)
    (b : Buffer) : Buffer :=
  match type with
  | .generalPurposeRegister => b.writeWords ((List.finRange 16).map fun i => reg (.gpr i))
  | .flagsRegister => b.writeWords [reg .rflags]
  | .instructionPointer => b.writeWords [reg .rip]
  | .controlRegister => b.writeWords [reg .cr0, reg .cr3, reg .cr4]
  | .cr2Register => b.writeWords [reg .cr2]
  | .debugRegister => b.writeWords ((List.finRange 4).map fun i => reg (.dr i))
  | .dr67Register => b.writeWords [reg .dr6, reg .dr7]
  | .segmentRegister => b.writeWords ([.es, .cs, .ss, .ds].flatMap (segmentWords reg))
  | .fgsegRegister => b.writeWords ([.fs, .gs].flatMap (segmentWords reg) ++ [reg .gsswap])
  | .descriptorTable =>
      b.writeWords
        [b.word 0 % 2 ^ 32 + reg (.seg .gdtr .limit) * 2 ^ 32, segmentHigh (reg <| .seg .gdtr ·),
          b.word 2 % 2 ^ 32 + reg (.seg .idtr .limit) * 2 ^ 32, segmentHigh (reg <| .seg .idtr ·)]
  | .ldtrTaskRegister => b.writeWords ([.tr, .ldtr].flatMap (segmentWords reg))
  | .syscallMsrRegister => b.writeWords [reg .star, reg .lstar, reg .cstar, reg .sfmask]
  | .sysenterMsrRegister => b.writeWords [reg .sysenterCs, reg .sysenterEsp, reg .sysenterEip]
  | .cr8Register => b.writeWords [reg .cr8]
  | .fxstate => { b with area := copyFxState area b.area }
  | .xsaveArea => { b with area }
  | .xcr0Register => b.writeWords [reg .xcr0]
  | .eferRegister => b.writeWords [reg .efer]
  | .patRegister => b.writeWords [reg .pat]
  | .lastBranchRecordRegister =>
      b.writeWords [reg .debugCtrl, reg .lastBranchFromIp, reg .lastBranchToIp,
        reg .lastExceptionFromIp, reg .lastExceptionToIp]
  | .timeStampCounter => b.writeWords [counterAt tsc (reg .tscOffset)]
  | .ghcbRegister => b.writeWords [reg .ghcb]
  | .apicBarRegister => b.writeWords [reg .apic]

/-- `header` is the structure of the vCPU, and `synchronize` the hypercall that dumps to it. -/
def nvcViewVcpuRegisters {κ : Type} (header : κ → VirtualCpu) (synchronize : κ → κ)
    (supportedSizeMax tsc : Nat) (vcpu : κ) (type : RegisterType) (b : Buffer) (size : Nat) :
    NoirStatus × κ × Buffer :=
  if size ≥ type.bufferLimit then
    let vcpu :=
      match type.syncs with
      | some c =>
          if (header vcpu).stateCache c && !(header vcpu).synchronized then synchronize vcpu else vcpu
      | none => vcpu
    if type = .xsaveArea ∧ size < supportedSizeMax then (.bufferTooSmall, vcpu, b)
    else (.success, vcpu, type.view (header vcpu).reg (header vcpu).xsaveArea tsc b)
  else (.invalidParameter, vcpu, b)

/-- A segment, or the first bytes of it if an element is shorter than 16 bytes. -/
def segmentElement (reg : SegmentField → Nat) (size : Nat) (old : Element) : Element where
  low := segmentLow reg
  high := segmentHigh fun field =>
    if field.within (min size 16) then reg field else segmentField old.low old.high field

/-- The names of the registers of eight bytes, but for the general-purpose registers. -/
def registerNames : List (Nat × Register) :=
  [(0x20, .rflags), (0x21, .rip),
    (0x30, .cr0), (0x32, .cr2), (0x33, .cr3), (0x34, .cr4), (0x38, .cr8),
    (0x40, .dr 0), (0x41, .dr 1), (0x42, .dr 2), (0x43, .dr 3), (0x46, .dr6), (0x47, .dr7),
    (0x50, .xcr0),
    (0x1000, .tscOffset), (0x1001, .efer), (0x1002, .gsswap), (0x1003, .apic),
    (0x1004, .sysenterCs), (0x1005, .sysenterEsp), (0x1006, .sysenterEip), (0x1007, .pat),
    (0x1008, .star), (0x1009, .lstar), (0x100A, .cstar), (0x100B, .sfmask), (0x100C, .ststar)]

def namedRegister (name : Nat) : Option Register :=
  if h : name < 16 then some (.gpr ⟨name, h⟩) else registerNames.lookup name

/-- What the loop of `nvc_view_vcpu_registers2` makes of an element; it stops at other names. -/
def namedView (name size tsc : Nat) (reg : Register → Nat) (old : Element) : Option Element :=
  if 0x22 ≤ name ∧ name ≤ 0x2B then
    segmentOrder[name - 0x22]?.map fun segment => segmentElement (reg <| .seg segment ·) size old
  -- Names up to `noir_cvm_register_msr_max` are taken for MSRs, and this one is none.
  else if name = 0x100D then some old
  else (namedRegister name).map fun r =>
    { old with low := if r = Register.tscOffset then counterAt tsc (reg r) else reg r }

def viewNamed (size : Nat) (tsc : Nat → Nat) (reg : Register → Nat) (buffer : Nat → Element)
    (i : Nat) : List Nat → NoirStatus × (Nat → Element)
  | [] => (.success, buffer)
  | name :: names =>
      match namedView name size (tsc i) reg (buffer (i * size % 2 ^ 32)) with
      | none => (.invalidParameter, buffer)
      | some element =>
          viewNamed size tsc reg (Function.update buffer (i * size % 2 ^ 32) element) (i + 1) names

/-- It never synchronizes. -/
def nvcViewVcpuRegisters2 (tsc : Nat → Nat) (reg : Register → Nat) (names : List Nat) (size : Nat)
    (buffer : Nat → Element) : NoirStatus × (Nat → Element) :=
  if size < 8 then (.invalidParameter, buffer) else viewNamed size tsc reg buffer 0 names

/-! The registers that a view shows. -/

def RegisterType.shows (type : RegisterType) (r : Register) : Bool :=
  match type with
  | .generalPurposeRegister => r.isGpr
  | .flagsRegister => r == .rflags
  | .instructionPointer => r == .rip
  | .controlRegister => [.cr0, .cr3, .cr4].contains r
  | .cr2Register => r == .cr2
  | .debugRegister => r.isAddressBreakpoint
  | .dr67Register => [.dr6, .dr7].contains r
  | .segmentRegister => r.isSegment [.es, .cs, .ss, .ds]
  | .fgsegRegister => r.isSegment [.fs, .gs] || r == .gsswap
  | .descriptorTable => r.isDescriptorTable
  | .ldtrTaskRegister => r.isSegment [.tr, .ldtr]
  | .syscallMsrRegister => [.star, .lstar, .cstar, .sfmask].contains r
  | .sysenterMsrRegister => [.sysenterCs, .sysenterEsp, .sysenterEip].contains r
  | .cr8Register => r == .cr8
  | .fxstate | .xsaveArea => false
  | .xcr0Register => r == .xcr0
  | .eferRegister => r == .efer
  | .patRegister => r == .pat
  | .lastBranchRecordRegister =>
      [.debugCtrl, .lastBranchFromIp, .lastBranchToIp, .lastExceptionFromIp,
        .lastExceptionToIp].contains r
  | .timeStampCounter => r == .tscOffset
  | .ghcbRegister => r == .ghcb
  | .apicBarRegister => r == .apic

/-- A name shows a register if its element depends on it. -/
def nameShows (name size : Nat) : Register → Bool
  | .seg segment field =>
      0x22 ≤ name && segmentOrder[name - 0x22]? == some segment && field.within (min size 16)
  | r => namedRegister name == some r

variable {size tsc : Nat} {reg reg' : Register → Nat} {area : Xsave.Area} {b : Buffer}
  {old : Element} {name : Nat} {type : RegisterType}

theorem RegisterType.view_congr (h : ∀ r, type.shows r = true → reg r = reg' r) :
    type.view reg area tsc b = type.view reg' area tsc b := by
  cases type with
  | fxstate | xsaveArea => rfl
  | generalPurposeRegister =>
      have hgpr (i : Fin 16) : reg (.gpr i) = reg' (.gpr i) := h _ rfl
      simp only [view, hgpr]
  | debugRegister =>
      have hdr (i : Fin 4) : reg (.dr i) = reg' (.dr i) := h _ rfl
      simp only [view, hdr]
  | descriptorTable =>
      have hgdtr (i : Fin 8) : reg (.seg .gdtr (.baseByte i)) = reg' (.seg .gdtr (.baseByte i)) :=
        h _ rfl
      have hidtr (i : Fin 8) : reg (.seg .idtr (.baseByte i)) = reg' (.seg .idtr (.baseByte i)) :=
        h _ rfl
      simp only [view, segmentHigh, hgdtr, hidtr, h (.seg .gdtr .limit) rfl,
        h (.seg .idtr .limit) rfl]
  | segmentRegister | fgsegRegister | ldtrTaskRegister =>
      simp [view, segmentWords, h, shows, Register.isSegment]
  | _ => simp [view, h, shows]

theorem segmentElement_congr {reg reg' : SegmentField → Nat}
    (h : ∀ field : SegmentField, field.within (min size 16) = true → reg field = reg' field) :
    segmentElement reg size old = segmentElement reg' size old := by
  have hhigh (field : SegmentField) :
      (if field.within (min size 16) then reg field else segmentField old.low old.high field) =
        if field.within (min size 16) then reg' field else segmentField old.low old.high field := by
    split
    · next hwithin => exact h field hwithin
    · rfl
  simp only [segmentElement, segmentLow, hhigh, h .selector rfl, h .attrib rfl, h .limit rfl]

theorem namedRegister_ne_seg {segment : SegmentName} {field : SegmentField} :
    namedRegister name ≠ some (.seg segment field) := by
  unfold namedRegister
  intro h
  split at h
  · cases h
  · obtain ⟨l, l', hnames, -⟩ := List.lookup_eq_some_iff.mp h
    have hmem : (name, Register.seg segment field) ∈ registerNames := by
      rw [hnames]
      exact List.mem_append_right l List.mem_cons_self
    have hnone : ∀ p ∈ registerNames, p.2.isSegment segmentOrder = false := by decide
    have hseg := hnone _ hmem
    cases segment <;> cases hseg

theorem nameShows_of_named {r : Register} (h : namedRegister name = some r) :
    nameShows name size r = true := by
  cases r with
  | seg segment field => exact absurd h namedRegister_ne_seg
  | _ => simp only [nameShows, h, beq_self_eq_true]

theorem nameShows_of_segment {segment : SegmentName} {field : SegmentField} (hname : 0x22 ≤ name)
    (hsegment : segmentOrder[name - 0x22]? = some segment)
    (hwithin : field.within (min size 16) = true) :
    nameShows name size (.seg segment field) = true := by
  simp [nameShows, hname, hsegment, hwithin]

theorem segmentView_congr (hname : 0x22 ≤ name)
    (h : ∀ r, nameShows name size r = true → reg r = reg' r) :
    (segmentOrder[name - 0x22]?.map fun segment =>
        segmentElement (reg <| .seg segment ·) size old) =
      segmentOrder[name - 0x22]?.map fun segment =>
        segmentElement (reg' <| .seg segment ·) size old := by
  cases hsegment : segmentOrder[name - 0x22]? with
  | none => rw [Option.map_none, Option.map_none]
  | some segment =>
      rw [Option.map_some, Option.map_some]
      refine congrArg some (segmentElement_congr fun field hwithin => ?_)
      exact h _ (nameShows_of_segment hname hsegment hwithin)

theorem registerView_congr (h : ∀ r, nameShows name size r = true → reg r = reg' r) :
    ((namedRegister name).map fun r =>
        { old with low := if r = Register.tscOffset then counterAt tsc (reg r) else reg r }) =
      (namedRegister name).map fun r =>
        { old with low := if r = Register.tscOffset then counterAt tsc (reg' r) else reg' r } := by
  cases hname : namedRegister name with
  | none => rw [Option.map_none, Option.map_none]
  | some r => simp only [Option.map_some, h r (nameShows_of_named hname)]

/-- An element depends on the registers that its name shows. -/
theorem namedView_congr (h : ∀ r, nameShows name size r = true → reg r = reg' r) :
    namedView name size tsc reg old = namedView name size tsc reg' old := by
  unfold namedView
  by_cases hsegment : 0x22 ≤ name ∧ name ≤ 0x2B
  · rw [if_pos hsegment, if_pos hsegment, segmentView_congr hsegment.1 h]
  · rw [if_neg hsegment, if_neg hsegment, registerView_congr h]

theorem viewNamed_congr {reg reg' : Register → Nat} {tsc : Nat → Nat} {buffer : Nat → Element}
    {i : Nat} {names : List Nat}
    (h : ∀ name ∈ names, ∀ r, nameShows name size r = true → reg r = reg' r) :
    viewNamed size tsc reg buffer i names = viewNamed size tsc reg' buffer i names := by
  induction names generalizing buffer i with
  | nil => rfl
  | cons name names ih =>
      unfold viewNamed
      rw [namedView_congr (h name List.mem_cons_self)]
      cases namedView name size (tsc i) reg' (buffer (i * size % 2 ^ 32)) with
      | none => rfl
      | some element => exact ih fun name' hmem => h name' (List.mem_cons_of_mem name hmem)

end NoirVisor
