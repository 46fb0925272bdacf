import NoirVisor.Platform
import Mathlib.Data.List.GetD
import Mathlib.Logic.Function.Basic

/-!
# Format strings of EDK II

Strings are printed by `%a` there instead of `%s`, and format strings are converted before they are used
(`xpf_core/uefi/host.c`). The loop over a conversion specification shares its index with the loop over the
string.
-/

namespace NoirVisor

/-- A string up to its terminator. -/
structure FormatString where
  characters : List (BitVec 8)
  nonzero : 0 ∉ characters

namespace FormatString

def percent : BitVec 8 := 0x25
def charA : BitVec 8 := 0x61
def charS : BitVec 8 := 0x73

/-- The cases of the switch that the loop goes on after. -/
def continued (c : BitVec 8) : Bool :=
  (ascii ['0', '1', '2', '3', '4', '5', '6', '7', '8', '9', 'l', 'z', '.', '*']).contains c

/-- What may stand between the percent sign and the conversion: flags, width, precision, length. -/
def modifier (c : BitVec 8) : Bool :=
  (ascii ['-', '+', ' ', '#', '0', '1', '2', '3', '4', '5', '6', '7', '8', '9', '.', '*', 'h', 'l', 'j',
    'z', 't', 'L']).contains c

inductive Mode where
  | text
  | specification
deriving DecidableEq

/-- The first character that is not a modifier ends the specification, and is its conversion. -/
def Mode.next (isModifier : BitVec 8 → Bool) (c : BitVec 8) : Mode → Mode
  | text => if c = percent then specification else text
  | specification => if isModifier c then specification else text

def Mode.convert (c : BitVec 8) : Mode → BitVec 8
  | text => c
  | specification => if c = charS then charA else c

section

variable (format : FormatString)

def length : Nat := format.characters.length

/-- `StandardFormat[i]`. -/
def read (i : Nat) : Outcome (BitVec 8) :=
  if i < format.length then .ok (format.characters.getD i 0)
  else if i = format.length then .ok 0
  else .error .outOfBounds

/-- `Edk2Format[i]=c`. -/
def write (size : Nat) (buffer : Nat → BitVec 8) (i : Nat) (c : BitVec 8) : Outcome (Nat → BitVec 8) :=
  if i < size then .ok (Function.update buffer i c) else .error .outOfBounds

/-- The loop over a specification, with the index that it leaves. -/
def convertSpecification (size : Nat) :
    Nat → Nat → (Nat → BitVec 8) → Outcome (Nat × (Nat → BitVec 8))
  | 0, _, _ => .error .outOfFuel
  | fuel + 1, i, buffer =>
      if i < size then do
        let c ← format.read i
        if continued c then
          let buffer ← write size buffer i c
          convertSpecification size fuel (i + 1) buffer
        else if c = charS then
          let buffer ← write size buffer i charA
          return (i, buffer)
        else
          let buffer ← write size buffer i c
          return (i, buffer)
      else .ok (i, buffer)

def convert (size : Nat) : Nat → Nat → (Nat → BitVec 8) → Outcome (Nat → BitVec 8)
  | 0, _, _ => .error .outOfFuel
  | fuel + 1, i, buffer =>
      if i < size then do
        let c ← format.read i
        let buffer ← write size buffer i c
        if c = 0 then
          return buffer
        else if c = percent then
          let buffer ← write size buffer i percent
          let (i, buffer) ← format.convertSpecification size (size + 1) (i + 1) buffer
          convert size fuel (i + 1) buffer
        else
          convert size fuel (i + 1) buffer
      else .ok buffer

/-- An index is met once at most. -/
def noirConvertStandardFormatToEdk2Format (size : Nat) (buffer : Nat → BitVec 8) :
    Outcome (Nat → BitVec 8) :=
  format.convert size (size + 1) 0 buffer

/-- Whether the character is in text or in a specification. -/
def modeAt (isModifier : BitVec 8 → Bool) (i : Nat) : Mode :=
  (format.characters.take i).foldl (fun mode c => mode.next isModifier c) .text

def character (i : Nat) : BitVec 8 := format.characters.getD i 0

/-- The character with the conversion replaced, by what is taken for a modifier. -/
def converted (isModifier : BitVec 8 → Bool) (i : Nat) : BitVec 8 :=
  (format.modeAt isModifier i).convert (format.character i)

/-- The string is converted, as far as there is room for it and a terminator. -/
def Converts (size : Nat) (buffer : Nat → BitVec 8) : Prop :=
  ∃ edk2Format, format.noirConvertStandardFormatToEdk2Format size buffer = .ok edk2Format ∧
    edk2Format (min format.length (size - 1)) = 0 ∧
    ∀ i < min format.length (size - 1), edk2Format i = format.converted modifier i

/-- The string fits. It does not end within a specification, unless it fills the buffer. After a modifier
that is not continued after, no `s` is taken for text that is a conversion, or the other way round. -/
structure Convertible (size : Nat) : Prop where
  fits : format.length < size
  closed : format.modeAt continued format.length = .text ∨ format.length + 1 = size
  alike : ∀ i < format.length, format.character i = charS →
    format.modeAt continued i = format.modeAt modifier i

end

variable {format : FormatString} {size i j : Nat} {buffer buffer' : Nat → BitVec 8}
  {isModifier : BitVec 8 → Bool} {found : Outcome (Nat → BitVec 8)}

theorem read_of_lt (h : i < format.length) : format.read i = .ok (format.character i) := if_pos h

theorem read_length : format.read format.length = .ok 0 := by
  unfold read
  rw [if_neg (Nat.lt_irrefl _), if_pos rfl]

theorem read_of_gt (h : format.length < i) : format.read i = .error .outOfBounds := by
  unfold read
  rw [if_neg (by omega), if_neg (by omega)]

theorem write_of_lt (h : i < size) (c : BitVec 8) :
    write size buffer i c = .ok (Function.update buffer i c) := if_pos h

theorem character_ne_zero (h : i < format.length) : format.character i ≠ 0 := by
  intro hzero
  have hmem : format.characters.getD i 0 ∈ format.characters := by
    rw [List.getD_eq_getElem _ _ h]
    exact List.getElem_mem h
  exact format.nonzero (hzero ▸ hmem)

theorem modeAt_succ (h : i < format.length) :
    format.modeAt isModifier (i + 1) =
      (format.modeAt isModifier i).next isModifier (format.character i) := by
  have htake : format.characters.take (i + 1) = format.characters.take i ++ [format.character i] := by
    have hget : format.character i = format.characters.get ⟨i, h⟩ := List.getD_eq_getElem _ _ h
    rw [hget]
    exact List.take_succ_eq_append_getElem h
  unfold modeAt
  rw [htake, List.foldl_append]
  rfl

theorem converted_ne_zero (h : i < format.length) : format.converted isModifier i ≠ 0 := by
  have hne := character_ne_zero h
  unfold converted
  cases format.modeAt isModifier i with
  | text => exact hne
  | specification =>
      change (if format.character i = charS then charA else format.character i) ≠ 0
      by_cases hs : format.character i = charS
      · rw [if_pos hs]
        decide
      · rw [if_neg hs]
        exact hne

/-! ### One character -/

theorem convert_full {fuel : Nat} (h : ¬i < size) :
    format.convert size (fuel + 1) i buffer = .ok buffer := if_neg h

theorem convert_terminator {fuel : Nat} (h : format.length < size) :
    format.convert size (fuel + 1) format.length buffer =
      .ok (Function.update buffer format.length 0) := by
  unfold convert
  rw [if_pos h, read_length]
  dsimp only [bind, Except.bind]
  rw [write_of_lt h]
  rfl

theorem convert_text {fuel : Nat} (hi : i < format.length) (h : i < size)
    (hc : format.character i ≠ percent) :
    format.convert size (fuel + 1) i buffer =
      format.convert size fuel (i + 1) (Function.update buffer i (format.character i)) := by
  rw [convert, if_pos h, read_of_lt hi]
  dsimp only [bind, Except.bind]
  rw [write_of_lt h]
  dsimp only
  rw [if_neg (character_ne_zero hi), if_neg hc]

/-- The rest of a specification, and what comes after it. -/
def resume (format : FormatString) (size fuel fuel' i : Nat) (buffer : Nat → BitVec 8) :
    Outcome (Nat → BitVec 8) := do
  let (i, buffer) ← format.convertSpecification size fuel i buffer
  format.convert size fuel' (i + 1) buffer

theorem convert_percent {fuel : Nat} (hi : i < format.length) (h : i < size)
    (hc : format.character i = percent) :
    format.convert size (fuel + 1) i buffer =
      format.resume size (size + 1) fuel (i + 1) (Function.update buffer i percent) := by
  rw [convert, if_pos h, read_of_lt hi]
  dsimp only [bind, Except.bind]
  rw [write_of_lt h]
  dsimp only
  rw [if_neg (character_ne_zero hi), if_pos hc, write_of_lt h, Function.update_idem]
  rfl

theorem resume_full {fuel fuel' : Nat} (h : ¬i < size) :
    format.resume size (fuel + 1) fuel' i buffer = format.convert size fuel' (i + 1) buffer := by
  unfold resume convertSpecification
  rw [if_neg h]
  rfl

theorem resume_continued {fuel fuel' : Nat} (hi : i < format.length) (h : i < size)
    (hc : continued (format.character i) = true) :
    format.resume size (fuel + 1) fuel' i buffer =
      format.resume size fuel fuel' (i + 1) (Function.update buffer i (format.character i)) := by
  unfold resume
  rw [convertSpecification, if_pos h, read_of_lt hi]
  dsimp only [bind, Except.bind]
  rw [if_pos hc, write_of_lt h]

theorem resume_stop {fuel fuel' : Nat} {c : BitVec 8} (hread : format.read i = .ok c) (h : i < size)
    (hc : continued c = false) :
    format.resume size (fuel + 1) fuel' i buffer =
      format.convert size fuel' (i + 1)
        (Function.update buffer i (Mode.specification.convert c)) := by
  unfold resume
  rw [convertSpecification, if_pos h, hread]
  dsimp only [bind, Except.bind]
  rw [if_neg (by rw [hc]; exact Bool.false_ne_true), write_of_lt h, write_of_lt h]
  unfold Mode.convert
  by_cases hs : c = charS
  · rw [if_pos hs, if_pos hs]
    rfl
  · rw [if_neg hs, if_neg hs]
    rfl

/-! ### The whole string -/

/-- What is in the buffer from an index on. -/
structure Written (format : FormatString) (buffer buffer' : Nat → BitVec 8) (i last : Nat) : Prop where
  before : ∀ j < i, buffer' j = buffer j
  written : ∀ j, i ≤ j → j < last → buffer' j = format.converted continued j

/-- A string that is too long fills the buffer, and one that ends within a specification is read
beyond its terminator. -/
inductive Ends (format : FormatString) (size i : Nat) (buffer : Nat → BitVec 8) :
    Outcome (Nat → BitVec 8) → Prop
  | filled {buffer' : Nat → BitVec 8} (hsize : size ≤ format.length)
      (hwritten : format.Written buffer buffer' i size) : Ends format size i buffer (.ok buffer')
  | terminated {buffer' : Nat → BitVec 8} (hsize : format.length < size)
      (hclosed : format.modeAt continued format.length = .text ∨ format.length + 1 = size)
      (hwritten : format.Written buffer buffer' i format.length)
      (hend : buffer' format.length = 0) : Ends format size i buffer (.ok buffer')
  | beyond (hsize : format.length + 1 < size)
      (hopen : format.modeAt continued format.length = .specification) :
      Ends format size i buffer (.error .outOfBounds)

theorem Written.step {last : Nat}
    (h : format.Written (Function.update buffer i (format.converted continued i)) buffer' (i + 1) last) :
    format.Written buffer buffer' i last where
  before j hj := by
    rw [h.before j (by omega), Function.update_of_ne (by omega)]
  written j hij hj := by
    rcases Nat.eq_or_lt_of_le hij with rfl | hlt
    · rw [h.before i (by omega), Function.update_self]
    · exact h.written j hlt hj

theorem Ends.step
    (h : format.Ends size (i + 1) (Function.update buffer i (format.converted continued i)) found) :
    format.Ends size i buffer found := by
  cases h with
  | filled hsize hwritten => exact .filled hsize hwritten.step
  | terminated hsize hclosed hwritten hend => exact .terminated hsize hclosed hwritten.step hend
  | beyond hsize hopen => exact .beyond hsize hopen

/-- The terminator in text. -/
theorem ends_terminator (h : format.length < size)
    (hclosed : format.modeAt continued format.length = .text ∨ format.length + 1 = size) :
    format.Ends size format.length buffer (.ok (Function.update buffer format.length 0)) := by
  refine .terminated h hclosed ⟨fun j hj => ?_, fun j hj hlt => ?_⟩ (Function.update_self _ _ _)
  · exact Function.update_of_ne (by omega) _ _
  · exact absurd hlt (by omega)

theorem ends_full (h : size ≤ format.length) (hi : ¬i < size) :
    format.Ends size i buffer (.ok buffer) :=
  .filled h ⟨fun _ _ => rfl, fun j hj hlt => absurd hlt (by omega)⟩

/-- The terminator in a specification. -/
theorem resume_terminator {fuel fuel' : Nat} (h : format.length < size) (hfuel : 0 < fuel')
    (hmode : format.modeAt continued format.length = .specification) :
    format.Ends size format.length buffer
      (format.resume size (fuel + 1) fuel' format.length buffer) := by
  obtain ⟨fuel', rfl⟩ : ∃ n, fuel' = n + 1 := ⟨fuel' - 1, by omega⟩
  rw [resume_stop read_length h (by decide)]
  by_cases hsize : format.length + 1 < size
  · rw [convert, if_pos hsize, read_of_gt (by omega)]
    exact .beyond hsize hmode
  · rw [convert_full hsize]
    exact ends_terminator h (.inr (by omega))

theorem converted_text (h : format.modeAt isModifier i = .text) :
    format.converted isModifier i = format.character i := by
  unfold converted
  rw [h]
  rfl

theorem converted_specification (h : format.modeAt isModifier i = .specification) :
    format.converted isModifier i = Mode.specification.convert (format.character i) := by
  unfold converted
  rw [h]

theorem convert_of_continued {c : BitVec 8} (hc : continued c = true) :
    Mode.specification.convert c = c := by
  apply if_neg
  rintro rfl
  exact absurd hc (by decide)

/-- The full buffer, from text and from a specification. -/
theorem ends_of_full (fuel fuel' : Nat) (hi : i ≤ format.length) (hfull : ¬i < size) :
    format.Ends size i buffer (format.convert size (fuel' + 1) i buffer) ∧
      format.Ends size i buffer (format.resume size (fuel + 1) (fuel' + 1) i buffer) := by
  have hends : format.Ends size i buffer (.ok buffer) := ends_full (by omega) hfull
  constructor
  · rw [convert_full hfull]
    exact hends
  · rw [resume_full hfull, convert_full (by omega)]
    exact hends

/-- By induction on the room that is left. The specifications are read from where the text ends, and the
text from where they end. -/
theorem convert_ends {room : Nat} (hroom : size - i ≤ room) (hle : room ≤ size)
    (hi : i ≤ format.length) :
    (format.modeAt continued i = .text → ∀ fuel, room < fuel →
      format.Ends size i buffer (format.convert size fuel i buffer)) ∧
    (format.modeAt continued i = .specification → ∀ fuel fuel', room < fuel → room < fuel' →
      format.Ends size i buffer (format.resume size fuel fuel' i buffer)) := by
  induction room generalizing i buffer with
  | zero =>
      have hfull : ¬i < size := by omega
      refine ⟨fun _ fuel hfuel => ?_, fun _ fuel fuel' hfuel hfuel' => ?_⟩
      · obtain ⟨fuel, rfl⟩ : ∃ n, fuel = n + 1 := ⟨fuel - 1, by omega⟩
        exact (ends_of_full 0 fuel hi hfull).1
      · obtain ⟨fuel, rfl⟩ : ∃ n, fuel = n + 1 := ⟨fuel - 1, by omega⟩
        obtain ⟨fuel', rfl⟩ : ∃ n, fuel' = n + 1 := ⟨fuel' - 1, by omega⟩
        exact (ends_of_full fuel fuel' hi hfull).2
  | succ room ih =>
      refine ⟨fun hmode fuel hfuel => ?_, fun hmode fuel fuel' hfuel hfuel' => ?_⟩
      · obtain ⟨fuel, rfl⟩ : ∃ n, fuel = n + 1 := ⟨fuel - 1, by omega⟩
        by_cases hfull : i < size
        · rcases Nat.eq_or_lt_of_le hi with rfl | hlt
          · rw [convert_terminator hfull]
            exact ends_terminator hfull (.inl hmode)
          · have hafter : format.modeAt continued (i + 1) = _ := modeAt_succ hlt
            rw [hmode] at hafter
            apply Ends.step
            rw [converted_text hmode]
            by_cases hc : format.character i = percent
            · rw [convert_percent hlt hfull hc, hc]
              have hspecification : format.modeAt continued (i + 1) = .specification := by
                rw [hafter]
                exact if_pos hc
              exact (ih (i := i + 1) (by omega) (by omega) hlt).2 hspecification _ _ (by omega) (by omega)
            · rw [convert_text hlt hfull hc]
              have htext : format.modeAt continued (i + 1) = .text := by
                rw [hafter]
                exact if_neg hc
              exact (ih (i := i + 1) (by omega) (by omega) hlt).1 htext _ (by omega)
        · exact (ends_of_full 0 fuel hi hfull).1
      · obtain ⟨fuel, rfl⟩ : ∃ n, fuel = n + 1 := ⟨fuel - 1, by omega⟩
        by_cases hfull : i < size
        · rcases Nat.eq_or_lt_of_le hi with rfl | hlt
          · exact resume_terminator hfull (by omega) hmode
          · have hafter : format.modeAt continued (i + 1) = _ := modeAt_succ hlt
            rw [hmode] at hafter
            apply Ends.step
            rw [converted_specification hmode]
            cases hc : continued (format.character i) with
            | true =>
                rw [resume_continued hlt hfull hc, convert_of_continued hc]
                have hspecification : format.modeAt continued (i + 1) = .specification := by
                  rw [hafter]
                  exact if_pos hc
                exact (ih (i := i + 1) (by omega) (by omega) hlt).2 hspecification _ _ (by omega) (by omega)
            | false =>
                rw [resume_stop (read_of_lt hlt) hfull hc]
                have htext : format.modeAt continued (i + 1) = .text := by
                  rw [hafter]
                  exact if_neg (by rw [hc]; exact Bool.false_ne_true)
                exact (ih (i := i + 1) (by omega) (by omega) hlt).1 htext _ (by omega)
        · obtain ⟨fuel', rfl⟩ : ∃ n, fuel' = n + 1 := ⟨fuel' - 1, by omega⟩
          exact (ends_of_full fuel fuel' hi hfull).2

theorem noirConvert_ends (format : FormatString) (size : Nat) (buffer : Nat → BitVec 8) :
    format.Ends size 0 buffer (format.noirConvertStandardFormatToEdk2Format size buffer) :=
  (convert_ends (Nat.sub_le size 0) (Nat.le_refl size) (Nat.zero_le _)).1 rfl _ (Nat.lt_succ_self size)

/-- The conversions by the switch and those of the specifications are the same ones. -/
theorem converted_eq_iff (format : FormatString) (i : Nat) :
    format.converted continued i = format.converted modifier i ↔
      (format.character i = charS → format.modeAt continued i = format.modeAt modifier i) := by
  unfold converted
  by_cases hs : format.character i = charS
  · rw [hs]
    cases format.modeAt continued i <;> cases format.modeAt modifier i <;> decide
  · have hsame : ∀ mode : Mode, mode.convert (format.character i) = format.character i := by
      intro mode
      cases mode with
      | text => rfl
      | specification => exact if_neg hs
    rw [hsame, hsame]
    exact iff_of_true rfl fun h => absurd h hs

theorem convertible_of_converts (hsize : 0 < size) (h : format.Converts size buffer) :
    format.Convertible size := by
  have hends := noirConvert_ends format size buffer
  obtain ⟨edk2Format, hfound, hzero, hconverted⟩ := h
  rw [hfound] at hends
  cases hends with
  | filled hfull hwritten =>
      rw [Nat.min_eq_right (by omega)] at hzero
      have hlast := hwritten.written (size - 1) (Nat.zero_le _) (by omega)
      exact absurd (hlast.symm.trans hzero) (converted_ne_zero (by omega))
  | terminated hfits hclosed hwritten hend =>
      refine ⟨hfits, hclosed, fun i hi => ?_⟩
      rw [Nat.min_eq_left (by omega)] at hconverted
      rw [← converted_eq_iff, ← hconverted i hi]
      exact (hwritten.written i (Nat.zero_le _) hi).symm

theorem converts_of_convertible (hsize : 0 < size) (h : format.Convertible size) :
    format.Converts size buffer := by
  have hends := noirConvert_ends format size buffer
  obtain ⟨hfits, hclosed, halike⟩ := h
  cases hfound : format.noirConvertStandardFormatToEdk2Format size buffer with
  | error fault =>
      rw [hfound] at hends
      cases hends with
      | beyond hbeyond hopen =>
          rcases hclosed with htext | hfull
          · exact absurd (htext.symm.trans hopen) nofun
          · omega
  | ok edk2Format =>
      rw [hfound] at hends
      cases hends with
      | filled hfull => omega
      | terminated _ _ hwritten hend =>
          have hlength : min format.length (size - 1) = format.length := by omega
          refine ⟨edk2Format, hfound, ?_, ?_⟩
          · rw [hlength]
            exact hend
          · rw [hlength]
            intro i hi
            rw [hwritten.written i (Nat.zero_le _) hi]
            exact (converted_eq_iff format i).mpr (halike i hi)

/-- For every format string and buffer. -/
theorem converts_iff (format : FormatString) (size : Nat) (buffer : Nat → BitVec 8) (hsize : 0 < size) :
    format.Converts size buffer ↔ format.Convertible size :=
  ⟨convertible_of_converts hsize, converts_of_convertible hsize⟩

/-- Where only such modifiers are used that the switch has cases for. -/
theorem modeAt_eq (h : ∀ c ∈ format.characters, modifier c = true → continued c = true) (i : Nat) :
    format.modeAt continued i = format.modeAt modifier i := by
  have hall : ∀ c, continued c = true → modifier c = true := by decide
  unfold modeAt
  apply List.foldl_ext
  intro mode c hc
  cases mode with
  | text => rfl
  | specification =>
      have hsame : continued c = modifier c :=
        Bool.eq_iff_iff.mpr ⟨hall c, h c (List.mem_of_mem_take hc)⟩
      unfold Mode.next
      dsimp only
      rw [hsame]

end FormatString

/-- `%s`. -/
def stringFormat : FormatString := ⟨ascii ['%', 's'], by decide⟩

theorem stringFormat_converts : stringFormat.Converts 320 fun _ => 0 := by
  refine (FormatString.converts_iff stringFormat 320 _ (by decide)).mpr ⟨by decide, .inl (by decide), ?_⟩
  exact fun i _ _ => FormatString.modeAt_eq (by decide) i

/-- A percent sign at the end of the string: what is behind the terminator is read. -/
def percentFormat : FormatString := ⟨ascii ['%'], by decide⟩

theorem not_forall_converts : ¬∀ (format : FormatString) (size : Nat) (buffer : Nat → BitVec 8),
    0 < size → format.Converts size buffer := by
  intro hall
  have hconverts := hall percentFormat 320 (fun _ => 0) (by decide)
  obtain ⟨-, hclosed, -⟩ := FormatString.convertible_of_converts (by decide) hconverts
  exact absurd hclosed (by decide)

/-- A flag: the conversion is taken for text. -/
example : (FormatString.mk (ascii ['%', '-', 's']) (by decide)).converted FormatString.continued 2 =
    FormatString.charS := by decide

end NoirVisor
