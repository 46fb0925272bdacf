import Mathlib.Data.List.FinRange
import Mathlib.Data.Nat.Find
import NoirVisor.Cvm.Edit
import NoirVisor.Cvm.Processor
import NoirVisor.Cvm.View

/-!
# Named registers there and back

An edit by a list of names and a view by the same list are two loops of their own. For every name the
two agree on the register, so that a view returns what an edit wrote; the loops part ways with their
purpose where the offset of an element leaves 32 bits, and where an edit stops halfway.
-/

namespace NoirVisor

def noirCvmRegisterTsc : Nat := 0x1000
def noirCvmRegisterMsrMax : Nat := 0x100D

def SegmentNamed (name : Nat) : Prop := 0x22 ≤ name ∧ name ≤ 0x2B

/-- The names at which the loops go on. -/
def Known (name : Nat) : Prop :=
  SegmentNamed name ∨ name = noirCvmRegisterMsrMax ∨ namedRegister name ≠ none

/-- The elements of a register are equal: its low eight bytes, and of a segment as many of the next
eight as an element has. -/
structure Element.Agrees (name size : Nat) (e e' : Element) : Prop where
  low : e.low = e'.low
  high : SegmentNamed name → ∀ i : Fin 8, 8 + i.val < min size 16 →
    e.high / 256 ^ i.val % 256 = e'.high / 256 ^ i.val % 256

/-- What a list of names and an element size are meant to do: whatever the values and the vCPU, an edit
that succeeds can be viewed, the last value of a register winning, and one that fails does nothing. The
element at index `i` of a buffer is at offset `i * size`. -/
def RoundTrips (names : List Nat) (size : Nat) : Prop :=
  ∀ (vcpu : VirtualCpu) (buffer seen : Nat → Element) (tsc tsc' : Nat → Nat),
    (∀ offset, (buffer offset).low < 2 ^ 64) →
    let edited := nvcEditVcpuRegisters2 tsc vcpu names size buffer
    let viewed := nvcViewVcpuRegisters2 tsc' edited.2.reg names size seen
    (edited.1 = .success →
      viewed.1 = .success ∧
      (∀ i j (hi : i < names.length) (hj : j < names.length), names[j] = names[i] →
        (∀ k (hk : k < names.length), j < k → names[k] ≠ names[i]) →
        names[i] ≠ noirCvmRegisterMsrMax →
        (viewed.2 (i * size)).Agrees names[i] size (buffer (j * size))) ∧
      (∀ r, (∀ name ∈ names, nameShows name size r = false) → edited.2.reg r = vcpu.reg r) ∧
      edited.2.xsaveArea = vcpu.xsaveArea) ∧
    (edited.1 ≠ .success → edited.2 = vcpu)

/-- All names are known and all elements within reach, or the edit is turned down before it wrote. -/
def Regular (names : List Nat) (size : Nat) : Prop :=
  size < 8 ∨
    (∃ before name after, names = before ++ name :: after ∧
      (∀ name' ∈ before, name' = noirCvmRegisterMsrMax) ∧ ¬Known name) ∨
    (∀ name ∈ names, Known name) ∧
      ∀ i (hi : i < names.length), names[i] ≠ noirCvmRegisterMsrMax → i * size < 2 ^ 32

/-! ### One name -/

section Name

variable {name name' size tsc : Nat} {e old : Element} {edit : RegisterEdit} {r : Register}
  {reg : Register → Nat}

/-- What a register gets of an element. -/
def Element.valueOf (e : Element) : Register → Nat
  | .seg _ field => segmentField e.low e.high field
  | _ => e.low

theorem namedEdit_msrMax (size tsc : Nat) (e : Element) :
    namedEdit noirCvmRegisterMsrMax size tsc e = some ⟨fun _ => none, fun _ => false⟩ := rfl

theorem not_segmentNamed_of_register (h : namedRegister name = some r) : ¬SegmentNamed name := by
  rintro ⟨hlow, hhigh⟩
  rw [namedRegister, dif_neg (by omega)] at h
  have hrange : ∀ p ∈ registerNames, ¬(0x22 ≤ p.1 ∧ p.1 ≤ 0x2B) := by decide
  exact hrange _ (mem_of_lookup h) ⟨hlow, hhigh⟩

theorem ne_msrMax_of_register (h : namedRegister name = some r) : name ≠ noirCvmRegisterMsrMax := by
  rintro rfl
  cases h

/-- The name of a register shows that register only. -/
theorem nameShows_register {r' : Register} (h : namedRegister name = some r') :
    nameShows name size r = decide (r = r') := by
  cases r with
  | seg segment field =>
      have hsegment : ¬SegmentNamed name := not_segmentNamed_of_register h
      have hne : Register.seg segment field ≠ r' := by
        rintro rfl
        exact namedRegister_ne_seg h
      rw [decide_eq_false hne]
      by_contra htrue
      simp only [nameShows, Bool.not_eq_false, Bool.and_eq_true, decide_eq_true_eq, beq_iff_eq] at htrue
      obtain ⟨⟨hlow, hsome⟩, -⟩ := htrue
      obtain ⟨hlt, -⟩ := List.getElem?_eq_some_iff.mp hsome
      have hlength : segmentOrder.length = 10 := rfl
      exact hsegment ⟨hlow, by omega⟩
  | _ => simp only [nameShows, h, beq_eq_decide, Option.some.injEq, eq_comm]

theorem oneEdit_value {r' : Register} {c : Option StateCache} (h : namedRegister name = some r') :
    (oneEdit r' c e.low).value r = if nameShows name size r then some (e.valueOf r) else none := by
  rw [nameShows_register h]
  by_cases heq : r = r'
  · subst heq
    cases r with
    | seg segment field => exact absurd h namedRegister_ne_seg
    | _ => simp [oneEdit, Element.valueOf]
  · simp [oneEdit, heq]

theorem segmentEdit_value {segment : SegmentName} (h : SegmentNamed name)
    (hsegment : segmentOrder[name - 0x22]? = some segment) :
    (segmentEdit segment size e).value r =
      if nameShows name size r then some (e.valueOf r) else none := by
  cases r with
  | seg segment' field =>
      by_cases heq : segment' = segment
      · simp [segmentEdit, nameShows, hsegment, Element.valueOf, h.1, heq]
      · simp [segmentEdit, nameShows, hsegment, h.1, heq, Ne.symm heq]
  | _ =>
      have hnone : namedRegister name = none := by
        by_contra hne
        obtain ⟨r', hr'⟩ := Option.ne_none_iff_exists'.mp hne
        exact not_segmentNamed_of_register hr' h
      simp [segmentEdit, nameShows, hnone]

/-- An edit writes the registers that its name shows, and gives them their part of the element. -/
theorem namedEdit_value (hedit : namedEdit name size tsc e = some edit)
    (htsc : name ≠ noirCvmRegisterTsc) (r : Register) :
    edit.value r = if nameShows name size r then some (e.valueOf r) else none := by
  unfold namedEdit at hedit
  split at hedit
  · next hname =>
      cases hedit
      exact oneEdit_value (dif_pos hname)
  · split at hedit
    · next hname =>
        cases hedit
        subst hname
        exact oneEdit_value rfl
    · split at hedit
      · next hname =>
          cases hedit
          subst hname
          exact oneEdit_value rfl
      · split at hedit
        · next hsegment =>
            obtain ⟨segment, hsegmentOf, rfl⟩ := Option.map_eq_some_iff.mp hedit
            exact segmentEdit_value hsegment hsegmentOf
        · split at hedit
          all_goals first
            | (cases hedit; exact oneEdit_value rfl)
            | (cases hedit; exact absurd rfl htsc)
            | (cases hedit; cases r <;> rfl)
            | cases hedit

theorem isSome_namedEdit_of_mem {p : Nat × Register} (hp : p ∈ registerNames) :
    (namedEdit p.1 size tsc e).isSome = true := by
  unfold namedEdit
  simp only [registerNames, List.mem_cons, List.not_mem_nil, or_false] at hp
  rcases hp with rfl | rfl | rfl | rfl | rfl | rfl | rfl | rfl | rfl | rfl | rfl | rfl | rfl | rfl |
    rfl | rfl | rfl | rfl | rfl | rfl | rfl | rfl | rfl | rfl | rfl | rfl | rfl
  all_goals simp

theorem isSome_namedEdit (h : Known name) (size tsc : Nat) (e : Element) :
    (namedEdit name size tsc e).isSome = true := by
  rcases h with ⟨hlow, hhigh⟩ | rfl | hregister
  · unfold namedEdit
    have hlength : segmentOrder.length = 10 := rfl
    rw [dif_neg (by omega), if_neg (by omega), if_neg (by omega), if_pos ⟨hlow, hhigh⟩,
      List.getElem?_eq_getElem (by omega)]
    rfl
  · rfl
  · obtain ⟨r, hr⟩ := Option.ne_none_iff_exists'.mp hregister
    by_cases hgpr : name < 16
    · unfold namedEdit
      rw [dif_pos hgpr]
      rfl
    · rw [namedRegister, dif_neg hgpr] at hr
      exact isSome_namedEdit_of_mem (mem_of_lookup hr)

theorem known_of_namedEdit (hedit : namedEdit name size tsc e = some edit) : Known name := by
  have hregister : ∀ {name r}, namedRegister name = some r → Known name := by
    intro name r hr
    refine Or.inr (Or.inr ?_)
    rw [hr]
    exact Option.some_ne_none r
  unfold namedEdit at hedit
  split at hedit
  · next hname => exact hregister (dif_pos hname)
  · split at hedit
    · next hname =>
        subst hname
        exact hregister rfl
    · split at hedit
      · next hname =>
          subst hname
          exact hregister rfl
      · split at hedit
        · next hsegment => exact Or.inl hsegment
        · split at hedit
          all_goals first
            | exact hregister rfl
            | exact Or.inr (Or.inl rfl)
            | cases hedit

theorem namedEdit_eq_none (h : ¬Known name) : namedEdit name size tsc e = none := by
  cases hedit : namedEdit name size tsc e with
  | none => rfl
  | some edit => exact absurd (known_of_namedEdit hedit) h

theorem namedRegister_inj (h : namedRegister name = some r) (h' : namedRegister name' = some r) :
    name = name' := by
  unfold namedRegister at h h'
  have hunique : ∀ p ∈ registerNames, ∀ q ∈ registerNames, p.2 = q.2 → p.1 = q.1 := by decide
  have hgpr : ∀ p ∈ registerNames, p.2.isGpr = false := by decide
  split at h
  · split at h'
    · have heq := (Option.some.inj h).trans (Option.some.inj h').symm
      simpa using heq
    · cases Option.some.inj h
      cases hgpr _ (mem_of_lookup h')
  · split at h'
    · cases Option.some.inj h'
      cases hgpr _ (mem_of_lookup h)
    · exact hunique _ (mem_of_lookup h) _ (mem_of_lookup h') rfl

/-- No two names show one register. -/
theorem name_eq_of_shows {size' : Nat} (h : nameShows name size r = true)
    (h' : nameShows name' size' r = true) : name = name' := by
  cases r with
  | seg segment field =>
      simp only [nameShows, Bool.and_eq_true, decide_eq_true_eq, beq_iff_eq] at h h'
      obtain ⟨⟨hlow, hsome⟩, -⟩ := h
      obtain ⟨⟨hlow', hsome'⟩, -⟩ := h'
      obtain ⟨hlt, -⟩ := List.getElem?_eq_some_iff.mp hsome
      have hnodup : segmentOrder.Nodup := by decide
      have heq := (List.getElem?_inj hlt hnodup).mp (hsome.trans hsome'.symm)
      omega
  | _ =>
      simp only [nameShows, beq_iff_eq] at h h'
      exact namedRegister_inj h h'

/-- A name that shows no counter shows something that has a value in every element. -/
theorem exists_shows (hknown : Known name) (hmax : name ≠ noirCvmRegisterMsrMax) :
    ∃ r, (∀ size, nameShows name size r = true) ∧ (⟨1, 0⟩ : Element).valueOf r = 1 := by
  rcases hknown with hsegment | hmax' | hregister
  · have hlength : segmentOrder.length = 10 := rfl
    obtain ⟨hlow, hhigh⟩ := hsegment
    refine ⟨.seg (segmentOrder[name - 0x22]) .selector, fun size => ?_, rfl⟩
    simp only [nameShows, Bool.and_eq_true, decide_eq_true_eq, beq_iff_eq]
    exact ⟨⟨hlow, List.getElem?_eq_getElem (by omega)⟩, rfl⟩
  · exact absurd hmax' hmax
  · obtain ⟨r, hr⟩ := Option.ne_none_iff_exists'.mp hregister
    refine ⟨r, fun size => nameShows_of_named hr, ?_⟩
    cases r with
    | seg segment field => exact absurd hr namedRegister_ne_seg
    | _ => rfl

theorem namedView_known (h : Known name) (size tsc : Nat) (reg : Register → Nat) (old : Element) :
    ∃ element, namedView name size tsc reg old = some element := by
  unfold namedView
  rcases h with ⟨hlow, hhigh⟩ | rfl | hregister
  · have hlength : segmentOrder.length = 10 := rfl
    rw [if_pos ⟨hlow, hhigh⟩, List.getElem?_eq_getElem (by omega)]
    exact ⟨_, rfl⟩
  · exact ⟨old, rfl⟩
  · obtain ⟨r, hr⟩ := Option.ne_none_iff_exists'.mp hregister
    have hsegment : ¬(0x22 ≤ name ∧ name ≤ 0x2B) := not_segmentNamed_of_register hr
    have hmax : name ≠ 0x100D := ne_msrMax_of_register hr
    rw [if_neg hsegment, if_neg hmax, hr]
    exact ⟨_, rfl⟩

/-- The bytes of a number that is put together of bytes. -/
theorem byte_of_sum {g : Nat → Nat} (h : ∀ i, g i < 256) (n : Nat) :
    ((List.range n).map fun i => g i * 256 ^ i).sum < 256 ^ n ∧
      ∀ k < n, ((List.range n).map fun i => g i * 256 ^ i).sum / 256 ^ k % 256 = g k := by
  induction n with
  | zero => exact ⟨Nat.one_pos, fun k hk => absurd hk (Nat.not_lt_zero k)⟩
  | succ n ih =>
      obtain ⟨hlt, hbyte⟩ := ih
      have hpos : 0 < 256 ^ n := Nat.pow_pos (by decide)
      rw [List.range_succ, List.map_append, List.sum_append, List.map_singleton, List.sum_singleton]
      constructor
      · calc _ < 256 ^ n + g n * 256 ^ n := Nat.add_lt_add_right hlt _
          _ = (g n + 1) * 256 ^ n := by rw [Nat.succ_mul, Nat.add_comm]
          _ ≤ 256 * 256 ^ n := Nat.mul_le_mul_right _ (h n)
          _ = 256 ^ (n + 1) := by rw [Nat.pow_succ, Nat.mul_comm]
      · intro k hk
        obtain hk | rfl := Nat.lt_succ_iff_lt_or_eq.mp hk
        · obtain ⟨m, rfl⟩ := Nat.exists_eq_add_of_lt hk
          have hpow : g (k + m + 1) * 256 ^ (k + m + 1) = 256 ^ k * (256 * (g (k + m + 1) * 256 ^ m)) := by
            rw [Nat.pow_succ, Nat.pow_add]
            ac_rfl
          rw [hpow, Nat.add_mul_div_left _ _ (Nat.pow_pos (by decide)), Nat.add_mul_mod_self_left]
          exact hbyte k hk
        · rw [Nat.add_mul_div_right _ _ hpos, Nat.div_eq_of_lt hlt, Nat.zero_add]
          exact Nat.mod_eq_of_lt (h k)

theorem segmentHigh_digit {f : SegmentField → Nat} (h : ∀ i, f (.baseByte i) < 256) (i : Fin 8) :
    segmentHigh f / 256 ^ i.val % 256 = f (.baseByte i) := by
  have hbytes : ∀ j, (if hj : j < 8 then f (.baseByte ⟨j, hj⟩) else 0) < 256 := by
    intro j
    split
    · exact h _
    · decide
  have hsum : segmentHigh f =
      ((List.range 8).map fun j => (if hj : j < 8 then f (.baseByte ⟨j, hj⟩) else 0) * 256 ^ j).sum := by
    rw [segmentHigh, ← List.map_coe_finRange_eq_range, List.map_map]
    refine congrArg List.sum (List.map_congr_left fun j _ => ?_)
    rw [Function.comp_apply, dif_pos j.isLt]
  rw [hsum, (byte_of_sum hbytes 8).2 i.val i.isLt, dif_pos i.isLt]

theorem segmentField_lt (low high : Nat) (i : Fin 8) : segmentField low high (.baseByte i) < 256 :=
  Nat.mod_lt _ (by decide)

theorem segmentLow_segmentField {low high : Nat} (h : low < 2 ^ 64) :
    segmentLow (segmentField low high) = low := by
  simp only [segmentLow, segmentField]
  omega

/-- A view of a name gives back the element that its registers are of. -/
theorem namedView_agrees {element : Element} (hview : namedView name size tsc reg old = some element)
    (hreg : ∀ r, nameShows name size r = true → reg r = e.valueOf r) (hlow : e.low < 2 ^ 64)
    (htsc : name ≠ noirCvmRegisterTsc) (hmax : name ≠ noirCvmRegisterMsrMax) :
    element.Agrees name size e := by
  have hmax' : name ≠ 0x100D := hmax
  unfold namedView at hview
  by_cases hsegment : 0x22 ≤ name ∧ name ≤ 0x2B
  · rw [if_pos hsegment] at hview
    obtain ⟨segment, hsome, rfl⟩ := Option.map_eq_some_iff.mp hview
    have hfield : ∀ field : SegmentField, field.within (min size 16) = true →
        reg (.seg segment field) = segmentField e.low e.high field :=
      fun field hwithin => hreg _ (nameShows_of_segment hsegment.1 hsome hwithin)
    constructor
    · have hdigits : segmentLow (segmentField e.low e.high) = e.low := segmentLow_segmentField hlow
      rw [← hdigits]
      simp only [segmentElement, segmentLow, hfield .selector rfl, hfield .attrib rfl,
        hfield .limit rfl]
    · intro _ i hi
      have hwithin : (SegmentField.baseByte i).within (min size 16) = true := decide_eq_true hi
      rw [segmentElement, segmentHigh_digit]
      · rw [if_pos hwithin, hfield _ hwithin]
        rfl
      · intro k
        split
        · next hk =>
            rw [hfield _ hk]
            exact segmentField_lt _ _ _
        · exact segmentField_lt _ _ _
  · rw [if_neg hsegment, if_neg hmax'] at hview
    obtain ⟨r, hr, rfl⟩ := Option.map_eq_some_iff.mp hview
    have hne : r ≠ .tscOffset := by
      rintro rfl
      exact htsc (namedRegister_inj hr rfl)
    constructor
    · rw [if_neg hne, hreg r (nameShows_of_named hr)]
      cases r with
      | seg segment field => exact absurd hr namedRegister_ne_seg
      | _ => rfl
    · exact fun h => absurd h hsegment

end Name

/-! ### The two loops -/

section Loops

variable {names : List Nat} {size i : Nat} {buffer seen : Nat → Element} {tsc : Nat → Nat}
  {vcpu : VirtualCpu} {reg : Register → Nat} {r : Register}

/-- Where the loops look for an element: the product is of 32 bits. -/
def elementOffset (size i : Nat) : Nat := i * size % 2 ^ 32

theorem editNamed_success :
    (editNamed size tsc buffer vcpu i names).1 = .success ↔ ∀ name ∈ names, Known name := by
  induction names generalizing vcpu i with
  | nil => exact ⟨fun _ _ h => absurd h List.not_mem_nil, fun _ => rfl⟩
  | cons name names ih =>
      rw [List.forall_mem_cons]
      unfold editNamed
      by_cases hknown : Known name
      · obtain ⟨edit, hedit⟩ := Option.isSome_iff_exists.mp
          (isSome_namedEdit hknown size (tsc i) (buffer (i * size % 2 ^ 32)))
        rw [hedit]
        exact ih.trans ⟨fun h => ⟨hknown, h⟩, And.right⟩
      · rw [namedEdit_eq_none hknown]
        exact ⟨by rintro ⟨⟩, fun h => absurd h.1 hknown⟩

/-- The edits of a list of known names, by index. -/
theorem namedEdits_getElem (hknown : ∀ name ∈ names, Known name) {k : Nat} {edit : RegisterEdit} :
    (namedEdits size tsc buffer i names)[k]? = some edit ↔
      ∃ hk : k < names.length, namedEdit names[k] size (tsc (i + k))
        (buffer (elementOffset size (i + k))) = some edit := by
  induction names generalizing i k with
  | nil => exact ⟨fun h => (nomatch h), fun ⟨hk, _⟩ => absurd hk (Nat.not_lt_zero k)⟩
  | cons name names ih =>
      obtain ⟨hname, hnames⟩ := List.forall_mem_cons.mp hknown
      obtain ⟨first, hfirst⟩ := Option.isSome_iff_exists.mp
        (isSome_namedEdit hname size (tsc i) (buffer (i * size % 2 ^ 32)))
      unfold namedEdits
      rw [hfirst]
      cases k with
      | zero =>
          simp only [List.getElem?_cons_zero, List.length_cons, Nat.succ_pos, Nat.add_zero,
            List.getElem_cons_zero, exists_true_left, elementOffset, hfirst]
      | succ k =>
          rw [List.getElem?_cons_succ, ih hnames]
          simp only [List.length_cons, Nat.succ_lt_succ_iff, List.getElem_cons_succ,
            Nat.add_right_comm i 1 k, Nat.add_assoc]

/-- An edit by a list without the counter leaves what no name shows, and gives the register of a name
its part of the element of the last index of the name. -/
theorem namedEdits_lastWrite (hknown : ∀ name ∈ names, Known name)
    (htsc : noirCvmRegisterTsc ∉ names) :
    ((∀ name ∈ names, nameShows name size r = false) →
      Writeback.lastWrite (namedEdits size tsc buffer 0 names) r = none) ∧
    ∀ j (hj : j < names.length), (∀ k (hk : k < names.length), j < k → names[k] ≠ names[j]) →
      nameShows names[j] size r = true →
      Writeback.lastWrite (namedEdits size tsc buffer 0 names) r =
        some ((buffer (elementOffset size j)).valueOf r) := by
  have hvalue : ∀ {k : Nat} {edit : RegisterEdit} (hk : k < names.length),
      namedEdit names[k] size (tsc (0 + k)) (buffer (elementOffset size (0 + k))) = some edit →
      edit.value r = if nameShows names[k] size r then
        some ((buffer (elementOffset size k)).valueOf r) else none := by
    intro k edit hk hedit
    rw [Nat.zero_add] at hedit
    refine namedEdit_value hedit (fun heq => htsc ?_) r
    rw [← heq]
    exact List.getElem_mem hk
  constructor
  · intro hshows
    refine Writeback.lastWrite_eq_none fun edit hmem => ?_
    obtain ⟨k, hk⟩ := List.getElem?_of_mem hmem
    obtain ⟨hlt, hedit⟩ := (namedEdits_getElem hknown).mp hk
    rw [hvalue hlt hedit, hshows _ (List.getElem_mem hlt)]
    rfl
  · intro j hj hlast hshows
    obtain ⟨edit, hedit⟩ := Option.isSome_iff_exists.mp
      (isSome_namedEdit (hknown _ (List.getElem_mem hj)) size (tsc (0 + j))
        (buffer (elementOffset size (0 + j))))
    refine Writeback.lastWrite_eq_some ((namedEdits_getElem hknown).mpr ⟨hj, hedit⟩) ?_ ?_
    · rw [hvalue hj hedit, if_pos hshows]
    · intro k edit' hlt hk
      obtain ⟨hlength, hedit'⟩ := (namedEdits_getElem hknown).mp hk
      rw [hvalue hlength hedit', if_neg fun hshows' => ?_]
      exact hlast k hlength hlt (name_eq_of_shows hshows' hshows)

/-- The element of a name is put at this offset. -/
def PutAt (names : List Nat) (size i offset k : Nat) : Prop :=
  ∃ hk : k < names.length, names[k] ≠ noirCvmRegisterMsrMax ∧ elementOffset size (i + k) = offset

theorem putAt_succ {name offset k : Nat} :
    PutAt (name :: names) size i offset (k + 1) ↔ PutAt names size (i + 1) offset k := by
  unfold PutAt
  simp only [List.length_cons, Nat.succ_lt_succ_iff, List.getElem_cons_succ, Nat.add_right_comm i 1 k,
    Nat.add_assoc]

/-- A view of known names succeeds. It leaves the buffer alone where it puts no element, and an element
that no later one replaces is what its name shows. -/
theorem viewNamed_spec (hknown : ∀ name ∈ names, Known name) :
    (viewNamed size tsc reg seen i names).1 = .success ∧
    (∀ offset, (∀ k, ¬PutAt names size i offset k) →
      (viewNamed size tsc reg seen i names).2 offset = seen offset) ∧
    ∀ k (hk : k < names.length),
      (∀ l, k < l → ¬PutAt names size i (elementOffset size (i + k)) l) →
      ∃ old, namedView names[k] size (tsc (i + k)) reg old =
        some ((viewNamed size tsc reg seen i names).2 (elementOffset size (i + k))) := by
  induction names generalizing i seen with
  | nil => exact ⟨rfl, fun _ _ => rfl, fun k hk => absurd hk (Nat.not_lt_zero k)⟩
  | cons name names ih =>
      obtain ⟨hname, hnames⟩ := List.forall_mem_cons.mp hknown
      obtain ⟨element, helement⟩ := namedView_known hname size (tsc i) reg (seen (elementOffset size i))
      have hstep : viewNamed size tsc reg seen i (name :: names) =
          viewNamed size tsc reg (Function.update seen (elementOffset size i) element) (i + 1) names := by
        rw [viewNamed, ← elementOffset, helement]
      obtain ⟨hsuccess, hother, hshown⟩ :=
        @ih (i + 1) (Function.update seen (elementOffset size i) element) hnames
      rw [hstep]
      refine ⟨hsuccess, ?_, ?_⟩
      · intro offset hput
        rw [hother offset fun k hk => hput (k + 1) (putAt_succ.mpr hk)]
        by_cases hmax : name = noirCvmRegisterMsrMax
        · subst hmax
          -- This name leaves its element as it is.
          obtain rfl : seen (elementOffset size i) = element := Option.some.inj helement
          rw [Function.update_eq_self]
        · have hne : offset ≠ elementOffset size i := by
            rintro rfl
            exact hput 0 ⟨Nat.succ_pos _, hmax, rfl⟩
          rw [Function.update_of_ne hne]
      · intro k hk hlater
        cases k with
        | zero =>
            rw [Nat.add_zero] at hlater ⊢
            refine ⟨seen (elementOffset size i), ?_⟩
            rw [hother _ fun l hl => hlater (l + 1) (Nat.succ_pos l) (putAt_succ.mpr hl),
              Function.update_self]
            exact helement
        | succ k =>
            have hoffset : i + (k + 1) = i + 1 + k := by omega
            rw [hoffset] at hlater ⊢
            exact hshown k (Nat.lt_of_succ_lt_succ hk) fun l hl hput =>
              hlater (l + 1) (Nat.succ_lt_succ hl) (putAt_succ.mpr hput)

/-- An edit stops at a name that is none of a register. -/
theorem namedEdits_of_unknown {before after : List Nat} {name : Nat} (hname : ¬Known name) :
    namedEdits size tsc buffer i (before ++ name :: after) = namedEdits size tsc buffer i before := by
  induction before generalizing i with
  | nil =>
      change namedEdits size tsc buffer i (name :: after) = []
      rw [namedEdits, namedEdit_eq_none hname]
  | cons first before ih =>
      rw [List.cons_append]
      unfold namedEdits
      cases namedEdit first size (tsc i) (buffer (i * size % 2 ^ 32)) with
      | none => rfl
      | some edit => exact congrArg (edit :: ·) ih

theorem edited_msrMax (hmax : ∀ name ∈ names, name = noirCvmRegisterMsrMax) :
    (namedEdits size tsc buffer i names).foldl VirtualCpu.edit vcpu = vcpu := by
  induction names generalizing i with
  | nil => rfl
  | cons name names ih =>
      obtain ⟨rfl, hnames⟩ := List.forall_mem_cons.mp hmax
      have hedit : vcpu.edit ⟨fun _ => none, fun _ => false⟩ = vcpu := by
        cases vcpu
        simp only [VirtualCpu.edit, Bool.not_false, Bool.and_true]
        rfl
      unfold namedEdits
      rw [namedEdit_msrMax]
      simp only [List.foldl_cons, hedit]
      exact ih hnames

/-- The last index of a name. -/
theorem exists_last (hi : i < names.length) :
    ∃ j, ∃ hj : j < names.length, i ≤ j ∧ names[j] = names[i] ∧
      ∀ k (hk : k < names.length), j < k → names[k] ≠ names[i] := by
  let Same (j : Nat) : Prop := names[j]? = some names[i]
  have hsame : Same i := List.getElem?_eq_getElem hi
  have hgreatest := Nat.findGreatest_spec hi.le hsame
  obtain ⟨hj, heq⟩ := List.getElem?_eq_some_iff.mp hgreatest
  refine ⟨Nat.findGreatest Same names.length, hj, Nat.le_findGreatest hi.le hsame, heq, ?_⟩
  intro k hk hlt heq'
  exact Nat.findGreatest_is_greatest hlt hk.le ((List.getElem?_eq_getElem hk).trans (congrArg some heq'))

end Loops

/-! ### There and back -/

section There

variable {names before after : List Nat} {name size : Nat} {buffer seen : Nat → Element}
  {tsc tsc' : Nat → Nat} {vcpu : VirtualCpu} {r : Register}

theorem edit2_eq (hsize : ¬size < 8) :
    nvcEditVcpuRegisters2 tsc vcpu names size buffer = editNamed size tsc buffer vcpu 0 names :=
  if_neg hsize

theorem edit2_reg (hsize : ¬size < 8) (r : Register) :
    (nvcEditVcpuRegisters2 tsc vcpu names size buffer).2.reg r =
      (Writeback.lastWrite (namedEdits size tsc buffer 0 names) r).getD (vcpu.reg r) := by
  rw [edit2_eq hsize, editNamed_eq, EditCalls.edits_reg]

theorem not_success_of_unknown (hmem : name ∈ names) (hname : ¬Known name) (hsize : ¬size < 8) :
    (nvcEditVcpuRegisters2 tsc vcpu names size buffer).1 ≠ .success := by
  rw [edit2_eq hsize]
  exact fun h => hname (editNamed_success.mp h name hmem)

/-- Within reach an edit by known names can be viewed. -/
theorem roundTrips_of_known (htsc : noirCvmRegisterTsc ∉ names) (hknown : ∀ name ∈ names, Known name)
    (hreach : ∀ i (hi : i < names.length), names[i] ≠ noirCvmRegisterMsrMax → i * size < 2 ^ 32)
    (hsize : ¬size < 8) : RoundTrips names size := by
  intro vcpu buffer seen tsc tsc' hlow
  dsimp only
  have hoffset : ∀ i (hi : i < names.length), names[i] ≠ noirCvmRegisterMsrMax →
      elementOffset size i = i * size := fun i hi hmax => Nat.mod_eq_of_lt (hreach i hi hmax)
  have hwrite := fun r => @namedEdits_lastWrite names size buffer tsc r hknown htsc
  obtain ⟨hsuccess, -, hshown⟩ :=
    @viewNamed_spec names size 0 seen tsc'
      (nvcEditVcpuRegisters2 tsc vcpu names size buffer).2.reg hknown
  have hview : ∀ reg, nvcViewVcpuRegisters2 tsc' reg names size seen =
      viewNamed size tsc' reg seen 0 names := fun reg => if_neg hsize
  rw [hview]
  refine ⟨fun _ => ⟨hsuccess, ?_, ?_, ?_⟩, fun hfailed => ?_⟩
  · intro i j hi hj hsame hlast hmax
    have htsc' : names[i] ≠ noirCvmRegisterTsc := fun h => htsc (h ▸ List.getElem_mem hi)
    have hsameMax : names[j] ≠ noirCvmRegisterMsrMax := hsame ▸ hmax
    obtain ⟨old, hold⟩ := hshown i hi fun l hl hput => by
      -- Two elements within reach are at two offsets.
      obtain ⟨hlength, hmaxl, heq⟩ := hput
      rw [Nat.zero_add, Nat.zero_add, hoffset l hlength hmaxl, hoffset i hi hmax] at heq
      exact hl.ne (Nat.eq_of_mul_eq_mul_right (by omega) heq).symm
    rw [Nat.zero_add, hoffset i hi hmax] at hold
    refine namedView_agrees hold (fun r hr => ?_) (hlow _) htsc' hmax
    have hvalue := (hwrite r).2 j hj (fun k hk hlt => hsame ▸ hlast k hk hlt) (hsame ▸ hr)
    rw [edit2_reg hsize, hvalue, hoffset j hj hsameMax, Option.getD_some]
  · intro r hr
    rw [edit2_reg hsize, (hwrite r).1 hr, Option.getD_none]
  · rw [edit2_eq hsize, editNamed_eq, edits_xsaveArea]
  · rw [edit2_eq hsize] at hfailed
    exact absurd (editNamed_success.mpr hknown) hfailed

/-- An edit that is turned down before it wrote does nothing. -/
theorem roundTrips_of_unknown (hmax : ∀ name' ∈ before, name' = noirCvmRegisterMsrMax)
    (hname : ¬Known name) (hsize : ¬size < 8) : RoundTrips (before ++ name :: after) size := by
  intro vcpu buffer seen tsc tsc' _
  dsimp only
  have hfailed := @not_success_of_unknown (before ++ name :: after) name size buffer tsc vcpu
    (by simp) hname hsize
  refine ⟨fun h => absurd h hfailed, fun _ => ?_⟩
  rw [edit2_eq hsize, editNamed_eq, namedEdits_of_unknown hname, edited_msrMax hmax]

theorem roundTrips_of_small (hsize : size < 8) : RoundTrips names size := by
  intro vcpu buffer seen tsc tsc' _
  have hedit : nvcEditVcpuRegisters2 tsc vcpu names size buffer = (.invalidParameter, vcpu) :=
    if_pos hsize
  dsimp only
  rw [hedit]
  exact ⟨fun h => (nomatch h), fun _ => rfl⟩

/-- An element out of reach is not shown at its place. -/
theorem reach_of_roundTrips (h : RoundTrips names size) (hknown : ∀ name ∈ names, Known name)
    (hsize : ¬size < 8) {i : Nat} (hi : i < names.length) (hmax : names[i] ≠ noirCvmRegisterMsrMax) :
    i * size < 2 ^ 32 := by
  by_contra hfar
  obtain ⟨j, hj, hle, hsame, hlast⟩ := exists_last hi
  have hfar' : ¬j * size < 2 ^ 32 := fun hlt =>
    hfar ((Nat.mul_le_mul_right size hle).trans_lt hlt)
  have hbuffer : ∀ offset, (if offset = j * size then (⟨1, 0⟩ : Element) else ⟨0, 0⟩).low < 2 ^ 64 := by
    intro offset
    split <;> decide
  obtain ⟨hkept, -⟩ := h zeroVirtualCpu (fun offset => if offset = j * size then ⟨1, 0⟩ else ⟨0, 0⟩)
    (fun _ => ⟨0, 0⟩) (fun _ => 0) (fun _ => 0) hbuffer
  obtain ⟨-, hagrees, -⟩ := hkept (by rw [edit2_eq hsize]; exact editNamed_success.mpr hknown)
  have hlow := (hagrees j j hj hj rfl (fun k hk hlt => hsame ▸ hlast k hk hlt) (hsame ▸ hmax)).low
  rw [nvcViewVcpuRegisters2, if_neg hsize, if_pos rfl, (viewNamed_spec hknown).2.1 _ ?_] at hlow
  · cases hlow
  · rintro k ⟨-, -, heq⟩
    refine hfar' (heq ▸ Nat.mod_lt _ (by decide))

/-- Before a name that is none of a register there are no names that an edit writes. -/
theorem before_of_roundTrips (h : RoundTrips (before ++ name :: after) size)
    (htsc : noirCvmRegisterTsc ∉ before) (hbefore : ∀ name' ∈ before, Known name')
    (hname : ¬Known name) (hsize : ¬size < 8) :
    ∀ name' ∈ before, name' = noirCvmRegisterMsrMax := by
  intro name' hmem
  by_contra hmax
  obtain ⟨r, hshows, hvalue⟩ := exists_shows (hbefore name' hmem) hmax
  obtain ⟨i, hi, rfl⟩ := List.getElem_of_mem hmem
  obtain ⟨j, hj, -, hsame, hlast⟩ := exists_last hi
  obtain ⟨-, hkept⟩ := h zeroVirtualCpu (fun _ => ⟨1, 0⟩) (fun _ => ⟨0, 0⟩) (fun _ => 0) (fun _ => 0)
    (fun _ => by decide)
  have hsame' := hkept (not_success_of_unknown (by simp) hname hsize)
  have hreg := congrArg (fun vcpu : VirtualCpu => vcpu.reg r) hsame'
  have hwrite := (@namedEdits_lastWrite before size (fun _ => ⟨1, 0⟩) (fun _ => 0) r hbefore htsc).2 j
    hj (fun k hk hlt => hsame ▸ hlast k hk hlt) (hsame ▸ hshows size)
  rw [edit2_reg hsize, namedEdits_of_unknown hname, hwrite, hvalue] at hreg
  cases hreg

theorem exists_first_unknown (h : ¬∀ name ∈ names, Known name) :
    ∃ before name after, names = before ++ name :: after ∧ (∀ name' ∈ before, Known name') ∧
      ¬Known name := by
  induction names with
  | nil => exact absurd (fun name hmem => absurd hmem List.not_mem_nil) h
  | cons first names ih =>
      by_cases hfirst : Known first
      · obtain ⟨before, name, after, rfl, hbefore, hname⟩ :=
          ih fun hnames => h (List.forall_mem_cons.mpr ⟨hfirst, hnames⟩)
        exact ⟨first :: before, name, after, rfl, List.forall_mem_cons.mpr ⟨hfirst, hbefore⟩, hname⟩
      · exact ⟨[], first, names, rfl, fun _ hmem => absurd hmem List.not_mem_nil, hfirst⟩

/-- An edit by names, the counter excepted, does what it is meant to do if and only if all names are
known and their elements within 32 bits, or it is turned down before it wrote a register. -/
theorem roundTrips_iff (htsc : noirCvmRegisterTsc ∉ names) :
    RoundTrips names size ↔ Regular names size := by
  constructor
  · intro h
    by_cases hsize : size < 8
    · exact Or.inl hsize
    · right
      by_cases hknown : ∀ name ∈ names, Known name
      · exact Or.inr ⟨hknown, fun i hi hmax => reach_of_roundTrips h hknown hsize hi hmax⟩
      · left
        obtain ⟨before, name, after, rfl, hbefore, hname⟩ := exists_first_unknown hknown
        exact ⟨before, name, after, rfl,
          before_of_roundTrips h (fun hmem => htsc (List.mem_append_left _ hmem)) hbefore hname hsize,
          hname⟩
  · intro hregular
    by_cases hsize : size < 8
    · exact roundTrips_of_small hsize
    · rcases hregular with hsmall | ⟨before, name, after, rfl, hmax, hname⟩ | ⟨hknown, hreach⟩
      · exact absurd hsmall hsize
      · exact roundTrips_of_unknown hmax hname hsize
      · exact roundTrips_of_known htsc hknown hreach hsize

/-- Three general registers in elements of 16 bytes. -/
theorem roundTrips_three : RoundTrips [0, 1, 2] 16 ↔ Regular [0, 1, 2] 16 :=
  roundTrips_iff (by decide)

theorem known_of_lt {name : Nat} (h : name < 16) : Known name :=
  Or.inr (Or.inr (by simp [namedRegister, h]))

/-- CR1 is no register, but RAX before it is written. The third element of 2 GiB is looked for at the
start of the buffer. -/
theorem not_roundTrips : ¬RoundTrips [0, 0x31] 8 ∧ ¬RoundTrips [0, 1, 2] (2 ^ 31) := by
  constructor
  · intro h
    have hcr1 : ¬Known 0x31 := by
      rintro (hsegment | hmax | hregister)
      · revert hsegment
        unfold SegmentNamed
        decide
      · cases hmax
      · exact hregister rfl
    have hmax := @before_of_roundTrips [0] [] 0x31 8 h (by decide)
      (fun name hmem => known_of_lt (by rw [List.mem_singleton.mp hmem]; decide)) hcr1 (by decide) 0
      List.mem_cons_self
    cases hmax
  · intro h
    have hknown : ∀ name ∈ [0, 1, 2], Known name := by
      intro name hmem
      refine known_of_lt ?_
      revert name
      decide
    have hreach := reach_of_roundTrips h hknown (by decide) (i := 2) (by decide) (by decide)
    revert hreach
    decide

end There

end NoirVisor
