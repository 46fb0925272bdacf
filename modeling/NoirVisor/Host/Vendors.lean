import NoirVisor.Platform

/-!
# Manufacturers of processors

The vendor string of the processor is searched for in a sorted list of the known ones
(`nvc_confirm_cpu_manufacturer` in `xpf_core/noirhvm.c`). The upper bound of the search is the number of
strings, and is an unsigned number that is decremented.
-/

namespace NoirVisor

inductive Manufacturer where
  | intel
  | amd
  | via
  | zhaoxin
  | hygon
  | centaur
  | cyrix
  | trmeta
  | nexgen
  | sis
  | nsc
  | rise
  | umc
  | vortex
  | unknown
deriving DecidableEq

/-- The string that `CPUID` returns in three registers, with a terminator behind it. -/
structure VendorString where
  characters : List (BitVec 8)
  length_eq : characters.length = 12

namespace VendorString

def knownVendorStrings : Nat := 16

/-- The list has the string of Zhaoxin with one space on either side. -/
def vendorStringList : List (List (BitVec 8)) :=
  [ascii [' ', 'S', 'h', 'a', 'n', 'g', 'h', 'a', 'i', ' '],
    ascii ['A', 'M', 'D', 'i', 's', 'b', 'e', 't', 't', 'e', 'r', '!'],
    ascii ['A', 'u', 't', 'h', 'e', 'n', 't', 'i', 'c', 'A', 'M', 'D'],
    ascii ['C', 'e', 'n', 't', 'a', 'u', 'r', 'H', 'a', 'u', 'l', 's'],
    ascii ['C', 'y', 'r', 'i', 'x', 'I', 'n', 's', 't', 'e', 'a', 'd'],
    ascii ['G', 'e', 'n', 'u', 'i', 'n', 'e', 'I', 'n', 't', 'e', 'l'],
    ascii ['G', 'e', 'n', 'u', 'i', 'n', 'e', 'T', 'M', 'x', '8', '6'],
    ascii ['G', 'e', 'o', 'd', 'e', ' ', 'b', 'y', ' ', 'N', 'S', 'C'],
    ascii ['H', 'y', 'g', 'o', 'n', 'G', 'e', 'n', 'u', 'i', 'n', 'e'],
    ascii ['N', 'e', 'x', 'G', 'e', 'n', 'D', 'r', 'i', 'v', 'e', 'n'],
    ascii ['R', 'i', 's', 'e', 'R', 'i', 's', 'e', 'R', 'i', 's', 'e'],
    ascii ['S', 'i', 'S', ' ', 'S', 'i', 'S', ' ', 'S', 'i', 'S', ' '],
    ascii ['T', 'r', 'a', 'n', 's', 'm', 'e', 't', 'a', 'C', 'P', 'U'],
    ascii ['U', 'M', 'C', ' ', 'U', 'M', 'C', ' ', 'U', 'M', 'C', ' '],
    ascii ['V', 'I', 'A', ' ', 'V', 'I', 'A', ' ', 'V', 'I', 'A', ' '],
    ascii ['V', 'o', 'r', 't', 'e', 'x', '8', '6', ' ', 'S', 'o', 'C']]

def cpuManufList : List Manufacturer :=
  [.zhaoxin, .amd, .amd, .centaur, .cyrix, .intel, .trmeta, .nsc, .hygon, .nexgen, .rise, .sis,
    .trmeta, .umc, .via, .vortex]

/-- The string that an entry of the list points to. -/
def vsn (i : Nat) : Nat → BitVec 8 := Strings.ofList (vendorStringList.getD i [])

def manuf (i : Nat) : Manufacturer := cpuManufList.getD i .unknown

/-- `u32`. -/
def uint32 (x : Int) : Int := x % 2 ^ 32

variable (vendorString : VendorString)

/-- `vendor_string_list[mid]` may be read below the number of strings. -/
def probe (mid : Int) : Option Ordering :=
  if mid < 0 ∨ knownVendorStrings ≤ mid then none
  else some (strcmp vendorString.characters (vsn mid.toNat))

def nvcConfirmCpuManufacturer : Outcome Manufacturer :=
  match Search.loop uint32 vendorString.probe (2 + knownVendorStrings) 0 knownVendorStrings with
  | .found mid => .ok (manuf mid.toNat)
  | .absent => .ok .unknown
  | .outside => .error .outOfBounds
  | .running => .error .outOfFuel

def Listed (i : Nat) : Prop :=
  i < knownVendorStrings ∧ Strings.Same (Strings.ofList vendorString.characters) (vsn i)

/-- The search ends among the entries of the list, with the code of the one that matches. -/
def Confirms : Prop :=
  ∃ manufacturer, vendorString.nvcConfirmCpuManufacturer = .ok manufacturer ∧
    ((∃ i, vendorString.Listed i ∧ manufacturer = manuf i) ∨
      (∀ i, ¬vendorString.Listed i) ∧ manufacturer = .unknown)

/-- Neither before `Shanghai` nor after `Vortex86 SoC`, by the order of `strcmp`. -/
def AmongKnown : Prop :=
  ¬Strings.Before BitVec.toNat (Strings.ofList vendorString.characters) (vsn 0) ∧
    ¬Strings.Before BitVec.toNat (vsn 15) (Strings.ofList vendorString.characters)

theorem vsn_ascending : ∀ j < knownVendorStrings, ∀ i < j,
    strcmp (vendorStringList.getD j []) (vsn i) = .gt := by
  decide +kernel

/-- The list is in the order of the comparison that it is searched with. -/
theorem vsn_sorted : Strings.Sorted BitVec.toNat knownVendorStrings vsn where
  terminated i _ := ⟨_, Strings.ofList_length _⟩
  sorted i j hij hj := by
    intro hbefore
    rcases Nat.eq_or_lt_of_le hij with rfl | hlt
    · exact Strings.Before.irrefl hbefore
    · have hafter := strcmp_eq_iff.mp (vsn_ascending j hj i hlt)
      exact Strings.Before.irrefl (hbefore.trans hafter)

variable {vendorString}

theorem probe_eq : vendorString.probe = Strings.probe BitVec.toNat vsn knownVendorStrings
    (vendorString.characters.length + 1) (Strings.ofList vendorString.characters) := rfl

theorem amongKnown_iff : vendorString.AmongKnown ↔ Strings.Within BitVec.toNat vsn
    knownVendorStrings (Strings.ofList vendorString.characters) :=
  ⟨fun h => ⟨by decide, h.1, h.2⟩, fun h => ⟨h.first, h.last⟩⟩

theorem uint32_of_le (x : Int) (hx : 0 ≤ x) (hle : x ≤ 2 * (knownVendorStrings : Int) + 1) :
    uint32 x = x := by
  unfold knownVendorStrings at hle
  exact Int.emod_eq_of_lt hx (by omega)

theorem search_iff : Search.loop uint32 vendorString.probe (2 + knownVendorStrings) 0
    knownVendorStrings ≠ .outside ↔ vendorString.AmongKnown := by
  rw [amongKnown_iff, probe_eq]
  exact vsn_sorted.search_iff (fun _ _ => BitVec.eq_of_toNat_eq) (Strings.ofList_length _)
    (Nat.lt_add_one _) uint32_of_le (by decide) (Nat.le_of_eq (Nat.add_comm _ 2))

theorem confirms_of_amongKnown (hknown : vendorString.AmongKnown) : vendorString.Confirms := by
  have hwithin := amongKnown_iff.mp hknown
  unfold Confirms nvcConfirmCpuManufacturer
  rw [probe_eq]
  rcases vsn_sorted.search_within (fun _ _ => BitVec.eq_of_toNat_eq) (Strings.ofList_length _)
    (Nat.lt_add_one _) uint32_of_le hwithin (Nat.le_of_eq (Nat.add_comm _ 2)) with
    ⟨i, hfound, hi, hsame⟩ | ⟨habsent, hnone⟩
  · rw [hfound]
    exact ⟨_, rfl, .inl ⟨i, ⟨hi, hsame⟩, rfl⟩⟩
  · rw [habsent]
    exact ⟨_, rfl, .inr ⟨fun i h => hnone i h.1 h.2, rfl⟩⟩

theorem amongKnown_of_confirms {vendorString : VendorString} (h : vendorString.Confirms) :
    vendorString.AmongKnown := by
  obtain ⟨manufacturer, hconfirmed, -⟩ := h
  rw [← search_iff]
  intro houtside
  unfold nvcConfirmCpuManufacturer at hconfirmed
  rw [houtside] at hconfirmed
  exact nomatch hconfirmed

/-- For every vendor string. -/
theorem confirms_iff (vendorString : VendorString) :
    vendorString.Confirms ↔ vendorString.AmongKnown :=
  ⟨amongKnown_of_confirms, confirms_of_amongKnown⟩

end VendorString

/-- What processors of Zhaoxin report: two spaces on either side. -/
def zhaoxinVendor : VendorString :=
  ⟨ascii [' ', ' ', 'S', 'h', 'a', 'n', 'g', 'h', 'a', 'i', ' ', ' '], rfl⟩

/-- It is before the first string of the list. -/
theorem not_forall_confirms : ¬∀ vendorString : VendorString, vendorString.Confirms := by
  intro hall
  obtain ⟨hfirst, -⟩ := VendorString.amongKnown_of_confirms (hall zhaoxinVendor)
  exact hfirst (strcmp_eq_iff.mp (by decide : strcmp zhaoxinVendor.characters
    (VendorString.vsn 0) = .lt))

end NoirVisor
