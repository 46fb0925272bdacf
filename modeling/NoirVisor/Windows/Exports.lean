import NoirVisor.Platform
import NoirVisor.Words
import Mathlib.Data.BitVec

/-!
# Procedures that an image exports

The names of an image are in the order of `strcmp`, and are searched for the name of a procedure
(`xpf_core/windows/detour.c`). The upper bound of the search is the number of names, and is an unsigned
number that is decremented.
-/

namespace NoirVisor

/-- An image in memory, byte by byte. -/
structure PeImage where
  imageBase : Nat
  memory : Words.Memory

namespace PeImage

def imageDosSignature : Nat := 0x5A4D
def imageNtSignature : Nat := 0x4550

/-- `ULONG`. -/
def ulong (x : Int) : Int := x % 2 ^ 32

variable (image : PeImage)

def word (rva : Nat) : Nat := (Words.load image.memory rva 2).toNat

def dword (rva : Nat) : Nat := (Words.load image.memory rva 4).toNat

def eMagic : Nat := image.word 0

def ntHead : Nat := image.dword 0x3C

def signature : Nat := image.dword image.ntHead

/-- The address in the first data directory of the 64-bit optional header. -/
def exportDirectory : Nat := image.dword (image.ntHead + 0x88)

def numberOfNames : Nat := image.dword (image.exportDirectory + 0x18)

def addressOfFunctions : Nat := image.dword (image.exportDirectory + 0x1C)

def addressOfNames : Nat := image.dword (image.exportDirectory + 0x20)

def addressOfNameOrdinals : Nat := image.dword (image.exportDirectory + 0x24)

def funcRva (i : Nat) : Nat := image.dword (image.addressOfFunctions + 4 * i)

def nameRva (i : Nat) : Nat := image.dword (image.addressOfNames + 4 * i)

def ordRva (i : Nat) : Nat := image.word (image.addressOfNameOrdinals + 2 * i)

/-- The string that the entry of a name is for. -/
def name (i : Nat) : Nat → BitVec 8 := fun k => image.memory (image.nameRva i + k)

/-- `NameRva[Mid]` may be read below the number of names. -/
def probe (procedureName : List (BitVec 8)) (mid : Int) : Option Ordering :=
  if mid < 0 ∨ image.numberOfNames ≤ mid then none
  else some (strcmp procedureName (image.name mid.toNat))

def search (procedureName : List (BitVec 8)) : Search.Outcome :=
  Search.loop ulong (image.probe procedureName) (2 + image.numberOfNames) 0 image.numberOfNames

def noirLocateExportedProcedureByName (procedureName : List (BitVec 8)) : Outcome (Option Nat) :=
  if image.eMagic = imageDosSignature ∧ image.signature = imageNtSignature ∧
      image.exportDirectory ≠ 0 then
    match image.search procedureName with
    | .found mid => .ok (some (image.imageBase + image.funcRva (image.ordRva mid.toNat)))
    | .absent => .ok none
    | .outside => .error .outOfBounds
    | .running => .error .outOfFuel
  else .ok none

/-- An image with its names in order. It is at most 4 GiB in size. -/
structure Wf : Prop where
  magic : image.eMagic = imageDosSignature
  signature : image.signature = imageNtSignature
  fits : image.exportDirectory ≠ 0 → 4 * image.numberOfNames ≤ 2 ^ 32
  names : image.exportDirectory ≠ 0 →
    Strings.Sorted BitVec.toNat image.numberOfNames image.name

/-- The image exports a procedure of the name by this entry. -/
def Exports (procedureName : List (BitVec 8)) (i : Nat) : Prop :=
  image.exportDirectory ≠ 0 ∧ i < image.numberOfNames ∧
    Strings.Same (Strings.ofList procedureName) (image.name i)

/-- The search ends among the names, and finds what there is. -/
def Locates (procedureName : List (BitVec 8)) : Prop :=
  ∃ answer, image.noirLocateExportedProcedureByName procedureName = .ok answer ∧
    match answer with
    | some procedure => ∃ i, image.Exports procedureName i ∧
        procedure = image.imageBase + image.funcRva (image.ordRva i)
    | none => ∀ i, ¬image.Exports procedureName i

/-- Nothing is exported, or the name is neither before the first name nor after the last one. -/
def Reaches (procedureName : List (BitVec 8)) : Prop :=
  image.exportDirectory = 0 ∨
    0 < image.numberOfNames ∧
      ¬Strings.Before BitVec.toNat (Strings.ofList procedureName) (image.name 0) ∧
      ¬Strings.Before BitVec.toNat (image.name (image.numberOfNames - 1))
        (Strings.ofList procedureName)

variable {image} {procedureName : List (BitVec 8)}

/-- The search is one in a table of strings. -/
theorem probe_eq : image.probe procedureName = Strings.probe BitVec.toNat image.name
    image.numberOfNames (procedureName.length + 1) (Strings.ofList procedureName) := rfl

theorem reaches_iff (hexports : image.exportDirectory ≠ 0) :
    image.Reaches procedureName ↔
      Strings.Within BitVec.toNat image.name image.numberOfNames (Strings.ofList procedureName) := by
  unfold Reaches
  rw [or_iff_right hexports]
  constructor
  · rintro ⟨hpos, hfirst, hlast⟩
    exact ⟨hpos, hfirst, hlast⟩
  · rintro ⟨hpos, hfirst, hlast⟩
    exact ⟨hpos, hfirst, hlast⟩

theorem ulong_of_lt {x : Int} (hx : 0 ≤ x) (hlt : x < 2 ^ 32) : ulong x = x :=
  Int.emod_eq_of_lt hx hlt

theorem wrap (hwf : image.Wf) (hexports : image.exportDirectory ≠ 0) (x : Int) (hx : 0 ≤ x)
    (hle : x ≤ 2 * image.numberOfNames + 1) : ulong x = x := by
  have hfits := hwf.fits hexports
  exact ulong_of_lt hx (by omega)

theorem search_iff (hwf : image.Wf) (hexports : image.exportDirectory ≠ 0) :
    image.search procedureName ≠ .outside ↔ image.Reaches procedureName := by
  have hfits := hwf.fits hexports
  have hback : ulong (-1) = 2 ^ 32 - 1 := rfl
  have hfar : (image.numberOfNames : Int) ≤ ulong (ulong (-1)) / 2 ∧ 0 ≤ ulong (-1) := by
    rw [hback, ulong_of_lt (by omega) (by omega)]
    omega
  rw [reaches_iff hexports]
  unfold search
  rw [probe_eq]
  exact (hwf.names hexports).search_iff (fun a b => BitVec.eq_of_toNat_eq)
    (Strings.ofList_length procedureName) (Nat.lt_succ_self _) (wrap hwf hexports) hfar (by omega)

theorem locates_of_reaches (hwf : image.Wf) (hexports : image.exportDirectory ≠ 0)
    (hreaches : image.Reaches procedureName) : image.Locates procedureName := by
  unfold Locates noirLocateExportedProcedureByName
  rw [if_pos ⟨hwf.magic, hwf.signature, hexports⟩]
  have hwithin := (reaches_iff hexports).mp hreaches
  unfold search
  rw [probe_eq]
  rcases (hwf.names hexports).search_within (fun a b => BitVec.eq_of_toNat_eq)
    (Strings.ofList_length procedureName) (Nat.lt_succ_self _) (wrap hwf hexports) hwithin
    (Nat.le_of_eq (Nat.add_comm _ 2)) with ⟨i, hfound, hi, hsame⟩ | ⟨habsent, hnone⟩
  · rw [hfound]
    exact ⟨_, rfl, i, ⟨hexports, hi, hsame⟩, rfl⟩
  · rw [habsent]
    exact ⟨_, rfl, fun i h => hnone i h.2.1 h.2.2⟩

theorem reaches_of_locates (hwf : image.Wf) {procedureName : List (BitVec 8)}
    (h : image.Locates procedureName) : image.Reaches procedureName := by
  by_cases hexports : image.exportDirectory = 0
  · exact .inl hexports
  · obtain ⟨answer, hanswer, -⟩ := h
    rw [← search_iff hwf hexports]
    intro houtside
    unfold noirLocateExportedProcedureByName at hanswer
    rw [if_pos ⟨hwf.magic, hwf.signature, hexports⟩, houtside] at hanswer
    exact nomatch hanswer

/-- For every image and every name. -/
theorem locates_iff (hwf : image.Wf) (procedureName : List (BitVec 8)) :
    image.Locates procedureName ↔ image.Reaches procedureName := by
  refine ⟨reaches_of_locates hwf, fun hreaches => ?_⟩
  by_cases hexports : image.exportDirectory = 0
  · exact ⟨none, if_neg fun h => h.2.2 hexports, fun i h => h.1 hexports⟩
  · exact locates_of_reaches hwf hexports hreaches

end PeImage

/-- An image that exports one procedure, of the name `A`. -/
def smallImage : PeImage where
  imageBase := 0x400000
  memory
    | 0 => 0x4D
    | 1 => 0x5A
    | 0x3C => 0x40
    | 0x40 => 0x50
    | 0x41 => 0x45
    | 0xC9 => 0x01
    | 0x118 => 0x01
    | 0x11C => 0x28
    | 0x11D => 0x01
    | 0x120 => 0x2C
    | 0x121 => 0x01
    | 0x124 => 0x30
    | 0x125 => 0x01
    | 0x129 => 0x10
    | 0x12C => 0x34
    | 0x12D => 0x01
    | 0x134 => 0x41
    | _ => 0

theorem smallImage_wf : smallImage.Wf where
  magic := by decide
  signature := by decide
  fits _ := by decide
  names _ := by
    have hone : smallImage.numberOfNames = 1 := by decide
    rw [hone]
    constructor
    · intro i hi
      obtain rfl : i = 0 := by omega
      exact ⟨1, by decide⟩
    · intro i j hij hj
      obtain rfl : j = 0 := by omega
      obtain rfl : i = 0 := by omega
      exact Strings.Before.irrefl

/-- `A` is found. -/
theorem smallImage_locates : smallImage.Locates [0x41] := by
  have hcompare : strcmp [0x41] (smallImage.name 0) = .eq := by decide
  have hsame : Strings.Same (Strings.ofList [0x41]) (smallImage.name 0) :=
    strcmp_eq_iff.mp hcompare
  refine (PeImage.locates_iff smallImage_wf [0x41]).mpr (.inr ⟨by decide, ?_, ?_⟩)
  · exact hsame.not_before
  · exact hsame.symm.not_before

/-- `B` is after the last name. -/
theorem not_forall_locates :
    ¬∀ (image : PeImage) (procedureName : List (BitVec 8)), image.Wf → image.Locates procedureName := by
  intro hall
  have hreaches := PeImage.reaches_of_locates smallImage_wf (hall smallImage [0x42] smallImage_wf)
  rcases hreaches with hempty | ⟨-, -, hlast⟩
  · exact absurd hempty (by decide)
  · apply hlast
    exact ⟨0, fun j hj => absurd hj (Nat.not_lt_zero j), by decide⟩

end NoirVisor
