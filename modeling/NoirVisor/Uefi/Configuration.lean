import NoirVisor.Platform
import NoirVisor.Strings
import NoirVisor.Words
import Mathlib.Data.BitVec

/-!
# Records of the configuration

The records of the list are in the order of their names, and are searched for a name
(`xpf_core/uefi/cfgmgr.c`). The upper bound of the search is the number of records. A record that the
buffer is too small for neither moves a bound nor ends the loop.
-/

namespace NoirVisor

inductive EfiStatus where
  | success
  | notFound
  | bufferTooSmall
deriving DecidableEq

/-- What is returned, and written to the arguments that are pointers. -/
structure ConfigurationAnswer where
  status : EfiStatus
  recordType : Option Nat
  outputLength : Option Nat
  recordData : Nat → BitVec 8

/-- The arguments. The pointer to the length may be null. -/
structure ConfigurationQuery where
  recordName : List (BitVec 8)
  recordData : Nat → BitVec 8
  recordLength : Nat
  outputLength : Bool

/-- `NOIR_CONFIGURATION_LIST`, byte by byte. -/
structure ConfigurationList where
  memory : Words.Memory

namespace ConfigurationList

/-- `INT32`. -/
def int32 (x : Int) : Int := x.bmod (2 ^ 32)

variable (list : ConfigurationList) (charCode : BitVec 8 → Int) (query : ConfigurationQuery)

def uint32 (offset : Nat) : Nat := (Words.load list.memory offset 4).toNat

def numberOfRecords : Nat := list.uint32 0

def recordOffset (i : Nat) : Nat := list.uint32 (4 + 4 * i)

def recordType (i : Nat) : Nat := list.uint32 (list.recordOffset i)

def recordNameLength (i : Nat) : Nat := list.uint32 (list.recordOffset i + 4)

def recordDataLength (i : Nat) : Nat := list.uint32 (list.recordOffset i + 8)

/-- The size of `NOIR_CONFIGURATION_RECORD`. -/
def recordSize : Nat := 12

def recordName (i : Nat) : Nat → BitVec 8 := fun k => list.memory (list.recordOffset i + recordSize + k)

def recordValueOffset (i : Nat) : Nat :=
  let offset := recordSize + list.recordNameLength i
  if offset % 4 = 0 then offset else offset + (4 - offset % 4)

def recordValue (i : Nat) : Nat → BitVec 8 :=
  fun k => list.memory (list.recordOffset i + list.recordValueOffset i + k)

/-- `AsciiStrnCmp(Cur->RecordName,RecordName,Cur->RecordNameLength)`, by the codes of the characters. -/
def asciiStrnCmp (i : Nat) : Ordering :=
  Strings.compareUpTo charCode (list.recordNameLength i) (list.recordName i)
    (Strings.ofList query.recordName)

/-- A record that is found, with its length if it is asked for. -/
def answer (i : Nat) : ConfigurationAnswer where
  status := .success
  recordType := some (list.recordType i)
  outputLength := if query.outputLength then some (list.recordDataLength i) else none
  recordData k := if k < list.recordDataLength i then list.recordValue i k else query.recordData k

/-- The loop, with what has been written so far. Records are read below their number. -/
def search : Nat → Int → Int → ConfigurationAnswer → Outcome ConfigurationAnswer
  | 0, _, _, _ => .error .outOfFuel
  | fuel + 1, lo, hi, st =>
      if hi < lo then .ok st
      else
        let mid := int32 (hi + lo) / 2
        if mid < 0 ∨ list.numberOfRecords ≤ mid then .error .outOfBounds
        else
          match list.asciiStrnCmp charCode query mid.toNat with
          | .gt => search fuel lo (int32 (mid - 1)) st
          | .lt => search fuel (int32 (mid + 1)) hi st
          | .eq =>
              let cur := list.answer query mid.toNat
              if query.recordLength < list.recordDataLength mid.toNat then
                search fuel lo hi
                  { cur with status := .bufferTooSmall, recordData := st.recordData }
              else .ok cur

def noirGetConfigurationRecord (fuel : Nat) : Outcome ConfigurationAnswer :=
  list.search charCode query fuel 0 (int32 list.numberOfRecords)
    ⟨.notFound, none, none, query.recordData⟩

/-- The list is within 4 GiB. The length of a name is that with its terminator, and the names are in
order. -/
structure Wf : Prop where
  fits : 4 + 4 * list.numberOfRecords ≤ 2 ^ 32
  length : ∀ i < list.numberOfRecords, ∃ length,
    Strings.Terminated (list.recordName i) length ∧ list.recordNameLength i = length + 1
  sorted : ∀ i j, i < j → j < list.numberOfRecords →
    Strings.Before charCode (list.recordName i) (list.recordName j)

def Named (i : Nat) : Prop :=
  i < list.numberOfRecords ∧
    Strings.Same (list.recordName i) (Strings.ofList query.recordName)

/-- The loop ends, and reports the record of the name. -/
def Reports : Prop :=
  ∃ fuel answer, list.noirGetConfigurationRecord charCode query fuel = .ok answer ∧
    match answer.status with
    | .success => ∃ i, list.Named query i ∧ list.recordDataLength i ≤ query.recordLength ∧
        answer = list.answer query i
    | .bufferTooSmall => ∃ i, list.Named query i ∧ query.recordLength < list.recordDataLength i ∧
        answer = { list.answer query i with
          status := .bufferTooSmall, recordData := query.recordData }
    | .notFound => (∀ i, ¬list.Named query i) ∧ answer = ⟨.notFound, none, none, query.recordData⟩

/-- Not all names are before the name that is looked for, and the record of that name fits. -/
def Searchable : Prop :=
  (∃ i < list.numberOfRecords,
    ¬Strings.Before charCode (list.recordName i) (Strings.ofList query.recordName)) ∧
  ∀ i, list.Named query i → list.recordDataLength i ≤ query.recordLength

/-- Where the name that is looked for is, seen from a record. -/
def probe (mid : Int) : Option Ordering :=
  if mid < 0 ∨ list.numberOfRecords ≤ mid then none
  else some (list.asciiStrnCmp charCode query mid.toNat).swap

variable {list charCode query} {fuel i j : Nat} {lo hi : Int} {st : ConfigurationAnswer}

theorem asciiStrnCmp_compares (query : ConfigurationQuery) (hwf : list.Wf charCode)
    (hcode : Function.Injective charCode) (hi : i < list.numberOfRecords) :
    Strings.Compares charCode (list.recordName i) (Strings.ofList query.recordName)
      (list.asciiStrnCmp charCode query i) := by
  obtain ⟨length, hterminated, hlength⟩ := hwf.length i hi
  unfold asciiStrnCmp
  rw [hlength]
  exact Strings.compareUpTo_compares hcode hterminated.1 (Nat.lt_succ_self length)

theorem probe_of_lt (hi : i < list.numberOfRecords) :
    list.probe charCode query i = some (list.asciiStrnCmp charCode query i).swap := by
  unfold probe
  rw [if_neg (by omega), Int.toNat_natCast]

theorem named_iff (hwf : list.Wf charCode) (hcode : Function.Injective charCode)
    (hi : i < list.numberOfRecords) :
    list.Named query i ↔ list.probe charCode query i = some .eq := by
  have hcompares := asciiStrnCmp_compares query hwf hcode hi
  rw [probe_of_lt hi]
  constructor
  · rintro ⟨-, hsame⟩
    have horder : list.asciiStrnCmp charCode query i = .eq := hcompares.unique hsame
    rw [horder]
    rfl
  · intro hprobe
    have horder : list.asciiStrnCmp charCode query i = .eq := by
      cases horder : list.asciiStrnCmp charCode query i with
      | eq => rfl
      | lt =>
          rw [horder] at hprobe
          exact nomatch hprobe
      | gt =>
          rw [horder] at hprobe
          exact nomatch hprobe
    rw [horder] at hcompares
    exact ⟨hi, hcompares⟩

theorem confined (query : ConfigurationQuery) (hwf : list.Wf charCode)
    (hcode : Function.Injective charCode) :
    Search.Confined list.numberOfRecords (list.probe charCode query) := by
  have hsorted : Strings.Sorted charCode list.numberOfRecords list.recordName := by
    constructor
    · intro i hi
      obtain ⟨length, hterminated, -⟩ := hwf.length i hi
      exact ⟨length, hterminated.1⟩
    · intro i j hij hj hbefore
      rcases Nat.eq_or_lt_of_le hij with rfl | hlt
      · exact Strings.Before.irrefl hbefore
      · exact Strings.Before.irrefl (hbefore.trans (hwf.sorted i j hlt hj))
  exact hsorted.confined hcode
    (fun i hi => ⟨_, probe_of_lt hi, (asciiStrnCmp_compares query hwf hcode hi).swap⟩)
    fun i hi => if_pos hi

theorem int32_of_lt {x : Int} (hx : -1 ≤ x) (hlt : x < 2 ^ 31) : int32 x = x :=
  Int.bmod_eq_of_le (by omega) (by omega)

theorem wrap (hwf : list.Wf charCode) (x : Int) (hx : -1 ≤ x)
    (hle : x ≤ 2 * list.numberOfRecords + 1) : int32 x = x := by
  have hfits := hwf.fits
  exact int32_of_lt hx (by omega)

/-- A record that does not fit is found over and over. -/
theorem search_stuck (hle : ¬hi < lo) (hinside : ¬(int32 (hi + lo) / 2 < 0 ∨
      list.numberOfRecords ≤ int32 (hi + lo) / 2))
    (horder : list.asciiStrnCmp charCode query (int32 (hi + lo) / 2).toNat = .eq)
    (hsmall : query.recordLength < list.recordDataLength (int32 (hi + lo) / 2).toNat) :
    list.search charCode query fuel lo hi st = .error .outOfFuel := by
  induction fuel generalizing st with
  | zero => rfl
  | succ fuel ih =>
      unfold search
      rw [if_neg hle]
      dsimp only
      rw [if_neg hinside, horder]
      dsimp only
      rw [if_pos hsmall]
      exact ih

/-- The loop is a search by comparisons, unless it gets stuck at what is found. -/
theorem search_eq : list.search charCode query fuel lo hi st =
    match Search.loop int32 (list.probe charCode query) fuel lo hi with
    | .found i =>
        if query.recordLength < list.recordDataLength i.toNat then .error .outOfFuel
        else .ok (list.answer query i.toNat)
    | .absent => .ok st
    | .outside => .error .outOfBounds
    | .running => .error .outOfFuel := by
  induction fuel generalizing lo hi with
  | zero => rfl
  | succ fuel ih =>
      unfold Search.loop
      by_cases hend : hi < lo
      · unfold search
        rw [if_pos hend, if_pos hend]
      · rw [if_neg hend, Int.add_comm lo hi]
        dsimp only
        unfold probe
        by_cases houtside : int32 (hi + lo) / 2 < 0 ∨ list.numberOfRecords ≤ int32 (hi + lo) / 2
        · unfold search
          rw [if_neg hend]
          dsimp only
          rw [if_pos houtside, if_pos houtside]
        · rw [if_neg houtside]
          cases horder : list.asciiStrnCmp charCode query (int32 (hi + lo) / 2).toNat with
          | lt =>
              unfold search
              rw [if_neg hend]
              dsimp only
              rw [if_neg houtside, horder]
              exact ih
          | gt =>
              unfold search
              rw [if_neg hend]
              dsimp only
              rw [if_neg houtside, horder]
              exact ih
          | eq =>
              dsimp only [Ordering.swap]
              split
              · next hsmall => exact search_stuck hend houtside horder hsmall
              · next hfits =>
                unfold search
                rw [if_neg hend]
                dsimp only
                rw [if_neg houtside, horder]
                dsimp only
                rw [if_neg hfits]

theorem Named.unique (hwf : list.Wf charCode) (hi : list.Named query i) (hj : list.Named query j) :
    i = j := by
  have hne : ∀ {a b : Nat}, list.Named query a → list.Named query b → ¬a < b := by
    intro a b ha hb hlt
    have hbefore := hwf.sorted a b hlt hb.1
    exact Strings.Before.irrefl ((hbefore.congr_right hb.2).congr_left ha.2)
  exact Nat.le_antisymm (Nat.le_of_not_lt (hne hj hi)) (Nat.le_of_not_lt (hne hi hj))

/-- The search among the names, with enough fuel. -/
theorem loop_of_not_before (hwf : list.Wf charCode) (hcode : Function.Injective charCode)
    (hi : i < list.numberOfRecords)
    (hbefore : ¬Strings.Before charCode (list.recordName i) (Strings.ofList query.recordName)) :
    (∃ j, Search.loop int32 (list.probe charCode query) (2 + list.numberOfRecords) 0
        list.numberOfRecords = .found (j : Nat) ∧ list.Named query j) ∨
    (Search.loop int32 (list.probe charCode query) (2 + list.numberOfRecords) 0
        list.numberOfRecords = .absent ∧ ∀ j, ¬list.Named query j) := by
  have hconfined := confined query hwf hcode
  have hguarded : Search.Guarded list.numberOfRecords (list.probe charCode query) := by
    refine ⟨hconfined.inside, hconfined.below, hconfined.above, fun hall => ?_⟩
    have hprobe := hall i (by omega) (by omega)
    rw [probe_of_lt hi] at hprobe
    have hcompares := (asciiStrnCmp_compares query hwf hcode hi).swap
    rw [Option.some.inj hprobe] at hcompares
    exact absurd hcompares hbefore
  have hbounds : Search.Bounds list.numberOfRecords (list.probe charCode query) 0
      list.numberOfRecords := by
    constructor
    · omega
    · omega
    · exact fun i hi hlt => absurd hlt (by omega)
    · exact fun i hlt _ hin => absurd hin (by omega)
  have hwrap := wrap hwf
  have hfuel : (list.numberOfRecords : Int) - 0 + 2 ≤ (2 + list.numberOfRecords : Nat) := by omega
  rcases Search.loop_guarded hguarded (fun x hx hle => hwrap x (by omega) hle)
    (fun i hi hin _ => hwrap _ (by omega) (by omega)) hbounds hfuel (by omega) with
    ⟨j, hfound, hj, hjn, hprobe⟩ | ⟨habsent, hnone⟩
  · refine .inl ⟨j.toNat, ?_, ?_⟩
    · rw [hfound, Int.toNat_of_nonneg hj]
    · rw [named_iff hwf hcode (by omega), Int.toNat_of_nonneg hj]
      exact hprobe
  · refine .inr ⟨habsent, fun j hnamed => ?_⟩
    have hj := hnamed.1
    exact hnone j (by omega) (by omega) ((named_iff hwf hcode hj).mp hnamed)

theorem reports_of_searchable (hwf : list.Wf charCode) (hcode : Function.Injective charCode)
    (hsearchable : list.Searchable charCode query) : list.Reports charCode query := by
  obtain ⟨⟨i, hi, hbefore⟩, hfits⟩ := hsearchable
  have hlast : int32 list.numberOfRecords = list.numberOfRecords := wrap hwf _ (by omega) (by omega)
  unfold Reports noirGetConfigurationRecord
  refine ⟨2 + list.numberOfRecords, ?_⟩
  rw [hlast, search_eq]
  rcases loop_of_not_before hwf hcode hi hbefore with ⟨j, hfound, hnamed⟩ | ⟨habsent, hnone⟩
  · have hlength := hfits j hnamed
    rw [hfound]
    dsimp only
    rw [Int.toNat_natCast, if_neg (Nat.not_lt.mpr hlength)]
    exact ⟨_, rfl, j, hnamed, hlength, rfl⟩
  · rw [habsent]
    exact ⟨_, rfl, hnone, rfl⟩

/-- More fuel does not change what is returned. -/
theorem loop_of_ok {answer : ConfigurationAnswer}
    (h : list.search charCode query fuel lo hi st = .ok answer) (k : Nat) :
    Search.loop int32 (list.probe charCode query) (fuel + k) lo hi =
        Search.loop int32 (list.probe charCode query) fuel lo hi ∧
      list.search charCode query (fuel + k) lo hi st = .ok answer := by
  have hended : Search.loop int32 (list.probe charCode query) fuel lo hi ≠ .running := by
    intro hrunning
    rw [search_eq, hrunning] at h
    exact nomatch h
  have hloop := Search.loop_add hended k
  refine ⟨hloop, ?_⟩
  rw [search_eq, hloop, ← search_eq]
  exact h

theorem searchable_of_reports (hwf : list.Wf charCode) (hcode : Function.Injective charCode)
    (hreports : list.Reports charCode query) : list.Searchable charCode query := by
  obtain ⟨fuel, answer, hanswer, -⟩ := hreports
  have hlast : int32 list.numberOfRecords = list.numberOfRecords := wrap hwf _ (by omega) (by omega)
  unfold noirGetConfigurationRecord at hanswer
  rw [hlast] at hanswer
  obtain ⟨-, hmore⟩ := loop_of_ok hanswer (2 + list.numberOfRecords)
  rw [search_eq] at hmore
  have hexists : ∃ i < list.numberOfRecords,
      ¬Strings.Before charCode (list.recordName i) (Strings.ofList query.recordName) := by
    by_contra hall
    push Not at hall
    have habove : ∀ i : Int, 0 ≤ i → i < list.numberOfRecords →
        list.probe charCode query i = some .gt := by
      intro i hi hin
      rw [← Int.toNat_of_nonneg hi, probe_of_lt (by omega)]
      have hcompares := asciiStrnCmp_compares query hwf hcode (i := i.toNat) (by omega)
      have horder : list.asciiStrnCmp charCode query i.toNat = .lt :=
        hcompares.unique (hall i.toNat (by omega))
      rw [horder]
      rfl
    have houtside : Search.loop int32 (list.probe charCode query)
        (fuel + (2 + list.numberOfRecords)) 0 list.numberOfRecords = .outside :=
      Search.loop_above (confined query hwf hcode) habove
        (fun x hx hle => wrap hwf x (by omega) hle) (by omega) (by omega)
    rw [houtside] at hmore
    exact nomatch hmore
  refine ⟨hexists, fun i hnamed => ?_⟩
  obtain ⟨j, hj, hbefore⟩ := hexists
  by_contra hsmall
  have hended : Search.loop int32 (list.probe charCode query) (2 + list.numberOfRecords) 0
      list.numberOfRecords ≠ .running := by
    rcases loop_of_not_before hwf hcode hj hbefore with ⟨k, hfound, -⟩ | ⟨habsent, -⟩
    · rw [hfound]
      exact nofun
    · rw [habsent]
      exact nofun
  rw [Nat.add_comm fuel, Search.loop_add hended] at hmore
  rcases loop_of_not_before hwf hcode hj hbefore with ⟨k, hfound, hnamed'⟩ | ⟨-, hnone⟩
  · obtain rfl := hnamed.unique hwf hnamed'
    rw [hfound] at hmore
    dsimp only at hmore
    rw [Int.toNat_natCast, if_pos (Nat.lt_of_not_le hsmall)] at hmore
    exact nomatch hmore
  · exact hnone i hnamed

/-- For every list, name and buffer. -/
theorem reports_iff (hwf : list.Wf charCode) (hcode : Function.Injective charCode)
    (query : ConfigurationQuery) :
    list.Reports charCode query ↔ list.Searchable charCode query :=
  ⟨searchable_of_reports hwf hcode, reports_of_searchable hwf hcode⟩

end ConfigurationList

/-- A record of the name `A`, an integer. -/
def integerList : ConfigurationList where
  memory
    | 0 => 1
    | 4 => 8
    | 8 => 1
    | 12 => 2
    | 16 => 4
    | 20 => 0x41
    | 24 => 0x02
    | 25 => 0x04
    | _ => 0

def integerQuery (recordName : List (BitVec 8)) (recordLength : Nat) : ConfigurationQuery :=
  ⟨recordName, fun _ => 0, recordLength, true⟩

theorem integerList_wf : integerList.Wf BitVec.toInt where
  fits := by decide
  length i hi := by
    have hone : integerList.numberOfRecords = 1 := by decide
    obtain rfl : i = 0 := by omega
    refine ⟨1, ⟨by decide, fun j hj => ?_⟩, by decide⟩
    obtain rfl : j = 0 := by omega
    decide
  sorted i j hij hj := by
    have hone : integerList.numberOfRecords = 1 := by decide
    omega

theorem charCode_injective : Function.Injective (BitVec.toInt : BitVec 8 → Int) :=
  fun _ _ => BitVec.eq_of_toInt_eq

theorem integerList_named (recordLength : Nat) :
    integerList.Named (integerQuery [0x41] recordLength) 0 := by
  have hpos : 0 < integerList.numberOfRecords := by decide
  refine (ConfigurationList.named_iff integerList_wf charCode_injective hpos).mpr ?_
  rw [ConfigurationList.probe_of_lt hpos]
  exact congrArg some (by decide : (integerList.asciiStrnCmp BitVec.toInt
    (integerQuery [0x41] 0) 0).swap = .eq)

/-- A record that fits is returned. -/
theorem integerList_reports : integerList.Reports BitVec.toInt (integerQuery [0x41] 4) := by
  have hnamed := integerList_named 4
  refine (ConfigurationList.reports_iff integerList_wf charCode_injective _).mpr ⟨⟨0, hnamed.1, ?_⟩, ?_⟩
  · exact hnamed.2.not_before
  · intro i hi
    obtain rfl := hi.unique integerList_wf hnamed
    decide

/-- With room for two bytes the loop does not end. -/
theorem not_forall_reports :
    ¬∀ (charCode : BitVec 8 → Int) (list : ConfigurationList) (query : ConfigurationQuery),
      Function.Injective charCode → list.Wf charCode → list.Reports charCode query := by
  intro hall
  have hreports := hall BitVec.toInt integerList (integerQuery [0x41] 2) charCode_injective
    integerList_wf
  obtain ⟨-, hfits⟩ :=
    ConfigurationList.searchable_of_reports integerList_wf charCode_injective hreports
  exact absurd (hfits 0 (integerList_named 2)) (by decide)

end NoirVisor
