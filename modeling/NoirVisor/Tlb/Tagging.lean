import Mathlib.Data.BitVec
import NoirVisor.Bitmap

/-!
# The tags of the TLB

The subverted host, the guests of a nested hypervisor and the customizable VMs share the tags of a
processor: ASIDs on SVM, VPIDs on VT. The tags of customizable VMs come from a pool.
-/

namespace NoirVisor

open Bitmap

/-- The words that are searched may have bits past the limit. -/
def noirFindClearBit (bitmap : Nat → Bool) (limit : Nat) : Nat :=
  let limitIndex := limit / 64 + if limit % 64 = 0 then 0 else 1
  (scan bitmap 64 limitIndex).getD 0xffffffff

/-- `hvm_p->tlb_tagging`. Past the end of the pool are the bits of other memory. -/
structure TlbTagging where
  pool : Nat → Bool
  start : Nat
  limit : Nat

namespace TlbTagging

variable (t : TlbTagging)

def setBitmap (i : Nat) : TlbTagging := { t with pool := Function.update t.pool i true }

def resetBitmap (i : Nat) : TlbTagging := { t with pool := Function.update t.pool i false }

def nvcSvmcAllocAsid : Nat × TlbTagging :=
  let asid := noirFindClearBit t.pool t.limit
  if asid ≠ 0xffffffff then ((asid + t.start) % 2 ^ 32, t.setBitmap asid) else (asid, t)

def nvcSvmcFreeAsid (asid : Nat) : TlbTagging := t.resetBitmap ((asid + 2 ^ 32 - t.start) % 2 ^ 32)

end TlbTagging

/-- The part of `nvc_svm_subvert_system` that divides the ASIDs. -/
def svmTlbTagging (asidLimit : Nat) (nestedVirtualization : Bool) : TlbTagging :=
  let start := if nestedVirtualization then asidLimit / 2 else 2
  { pool := fun _ => false, start, limit := (asidLimit + 2 ^ 32 - start) % 2 ^ 32 }

def hostAsid : Nat := 1

/-- `nvc_svm_clean_vmcb_asid`: what is loaded for the ASID in the VMCB of a nested hypervisor. -/
def shadowAsid (asid : BitVec 32) : BitVec 32 := if asid.toInt ≤ 0 then 0 else asid + 1

/-- The number of ASIDs that the nested hypervisor is told of. -/
def nestedAsids (t : TlbTagging) : Nat := (t.start + 2 ^ 32 - 2) % 2 ^ 32

def LegalNestedAsid (t : TlbTagging) (asid : BitVec 32) : Prop :=
  0 < asid.toNat ∧ asid.toNat < nestedAsids t

/-- The bits that are set are those of the tags that are in use. -/
structure TagsHeld (t : TlbTagging) (tags : List Nat) : Prop where
  nodup : tags.Nodup
  range : ∀ tag ∈ tags, t.start ≤ tag ∧ tag < t.start + t.limit
  pool : ∀ i, t.pool i = true ↔ t.start + i ∈ tags

/-- The ASIDs of the customizable VMs there are, and that of the next one. -/
def CustomAsid (t : TlbTagging) (asid : Nat) : Prop :=
  (∃ i < t.limit, t.pool i = true ∧ asid = (t.start + i) % 2 ^ 32) ∨ asid = t.nvcSvmcAllocAsid.1

structure CustomAsidsIsolated (asidLimit : Nat) (nestedVirtualization : Bool) (t : TlbTagging) :
    Prop where
  host : hostAsid < asidLimit
  custom : ∀ asid, CustomAsid t asid → asid ≠ 0 ∧ asid ≠ hostAsid ∧ asid < asidLimit
  unused : ∀ i < t.limit, t.pool i = true → t.nvcSvmcAllocAsid.1 ≠ (t.start + i) % 2 ^ 32
  distinct : nestedVirtualization = true → ∀ asid₁ asid₂, LegalNestedAsid t asid₁ →
    LegalNestedAsid t asid₂ → shadowAsid asid₁ = shadowAsid asid₂ → asid₁ = asid₂

structure NestedAsidIsolated (asidLimit : Nat) (t : TlbTagging) (asid : BitVec 32) : Prop where
  nonzero : (shadowAsid asid).toNat ≠ 0
  host : (shadowAsid asid).toNat ≠ hostAsid
  lt : (shadowAsid asid).toNat < asidLimit
  custom : ¬CustomAsid t (shadowAsid asid).toNat

section Held

variable {t : TlbTagging} {tags : List Nat} {tag i : Nat}

theorem tagsHeld_empty (h : ∀ i, t.pool i = false) : TagsHeld t [] where
  nodup := List.nodup_nil
  range _ htag := (nomatch htag)
  pool i := by
    rw [h i]
    exact ⟨fun hset => (nomatch hset), fun htag => (nomatch htag)⟩

theorem TagsHeld.push (h : TagsHeld t tags) (hfirst : FirstClear t.pool t.limit i) :
    TagsHeld (t.setBitmap i) (tags ++ [t.start + i]) where
  nodup := by
    refine List.nodup_append.mpr ⟨h.nodup, List.nodup_singleton _, ?_⟩
    intro tag htag tag' htag' hsame
    rw [List.mem_singleton] at htag'
    have hset := (h.pool i).mpr (htag' ▸ hsame ▸ htag)
    exact absurd (hfirst.clear.symm.trans hset) Bool.false_ne_true
  range tag htag := by
    rcases List.mem_append.mp htag with hold | hnew
    · exact h.range tag hold
    · rw [List.mem_singleton.mp hnew]
      exact ⟨Nat.le_add_right _ _, Nat.add_lt_add_left hfirst.lt _⟩
  pool j := by
    have hj := h.pool j
    change Function.update t.pool i true j = true ↔ t.start + j ∈ tags ++ [t.start + i]
    rw [List.mem_append, List.mem_singleton, ← hj]
    by_cases hji : j = i
    · subst hji
      simp
    · rw [Function.update_of_ne hji]
      constructor
      · exact Or.inl
      · exact fun h => h.resolve_right (by omega)

theorem TagsHeld.erase (h : TagsHeld t tags) (htag : tag ∈ tags) :
    TagsHeld (t.resetBitmap (tag - t.start)) (tags.erase tag) where
  nodup := h.nodup.erase tag
  range tag' htag' := h.range tag' (List.mem_of_mem_erase htag')
  pool j := by
    have hstart := (h.range tag htag).1
    change Function.update t.pool (tag - t.start) false j = true ↔ t.start + j ∈ tags.erase tag
    rw [h.nodup.mem_erase_iff, ← h.pool j]
    by_cases hj : j = tag - t.start
    · subst hj
      rw [Function.update_self]
      refine ⟨fun hfalse => (nomatch hfalse), fun h => absurd ?_ h.1⟩
      omega
    · rw [Function.update_of_ne hj]
      refine ⟨fun hset => ⟨by omega, hset⟩, And.right⟩

/-- The owner of a tag is erased with it. -/
theorem map_erase_of_nodup {α : Type} [DecidableEq α] {f : α → Nat} {owners : List α} {owner : α}
    (hnodup : (owners.map f).Nodup) (howner : owner ∈ owners) :
    (owners.erase owner).map f = (owners.map f).erase (f owner) := by
  rw [hnodup.erase_eq_filter, hnodup.of_map.erase_eq_filter, List.filter_map]
  refine congrArg (List.map f) (List.filter_congr fun owner' howner' => ?_)
  dsimp only [Function.comp]
  by_cases hsame : owner' = owner
  · subst hsame
    rw [bne_self_eq_false, bne_self_eq_false]
  · have htag : f owner' ≠ f owner := fun h =>
      hsame (List.inj_on_of_nodup_map hnodup howner' howner h)
    rw [bne_iff_ne.mpr hsame, bne_iff_ne.mpr htag]

end Held

section Alloc

variable {bitmap : Nat → Bool} {t : TlbTagging} {limit i n : Nat}

theorem noirFindClearBit_of_clear (hi : i < limit) (hclear : bitmap i = false) :
    FirstClear bitmap limit (noirFindClearBit bitmap limit) := by
  unfold noirFindClearBit
  dsimp only
  generalize hwords : limit / 64 + (if limit % 64 = 0 then 0 else 1) = words
  have hbound : limit ≤ 64 * words := by
    split at hwords <;> omega
  cases hscan : scan bitmap 64 words with
  | none =>
      have hset := scan_eq_none.mp hscan i (by omega)
      exact absurd (hclear.symm.trans hset) Bool.false_ne_true
  | some n =>
      obtain ⟨-, hn, hset⟩ := scan_eq_some.mp hscan
      refine ⟨?_, hn, hset⟩
      by_contra hlt
      have hfull := hset i (by rw [Option.getD_some] at hlt; omega)
      exact absurd (hclear.symm.trans hfull) Bool.false_ne_true

theorem nvcSvmcAllocAsid_of_clear (hlimit : t.limit < 2 ^ 32)
    (hfirst : FirstClear t.pool t.limit (noirFindClearBit t.pool t.limit)) :
    t.nvcSvmcAllocAsid = ((noirFindClearBit t.pool t.limit + t.start) % 2 ^ 32,
      t.setBitmap (noirFindClearBit t.pool t.limit)) := by
  have hlt := hfirst.lt
  unfold TlbTagging.nvcSvmcAllocAsid
  exact if_pos (by omega)

end Alloc

section Shadow

variable {asid asid₁ asid₂ : BitVec 32}

theorem shadowAsid_of_nonpos (h : asid.toInt ≤ 0) : shadowAsid asid = 0 := if_pos h

theorem toInt_pos_of_lt (hpos : 0 < asid.toNat) (hlt : asid.toNat < 2 ^ 31) : 0 < asid.toInt := by
  rw [BitVec.toInt_eq_toNat_of_lt (by omega)]
  exact Int.natCast_pos.mpr hpos

theorem shadowAsid_toNat (hpos : 0 < asid.toNat) (hlt : asid.toNat < 2 ^ 31) :
    (shadowAsid asid).toNat = asid.toNat + 1 := by
  unfold shadowAsid
  have hone : (1 : BitVec 32).toNat = 1 := rfl
  rw [if_neg (Int.not_le.mpr (toInt_pos_of_lt hpos hlt)), BitVec.toNat_add, hone]
  exact Nat.mod_eq_of_lt (by omega)

/-- Two ASIDs of a nested hypervisor stay apart as long as they are not negative. -/
theorem shadowAsid_inj (h₁ : 0 < asid₁.toNat) (h₁' : asid₁.toNat < 2 ^ 31) (h₂ : 0 < asid₂.toNat)
    (h₂' : asid₂.toNat < 2 ^ 31) (h : shadowAsid asid₁ = shadowAsid asid₂) : asid₁ = asid₂ := by
  have hsame := congrArg BitVec.toNat h
  rw [shadowAsid_toNat h₁ h₁', shadowAsid_toNat h₂ h₂'] at hsame
  exact BitVec.eq_of_toNat_eq (by omega)

end Shadow

/-- The ASIDs divided as at the start, after any customizable VMs were created and released. -/
def svmTagging (asidLimit : Nat) (nestedVirtualization : Bool) (pool : Nat → Bool) : TlbTagging :=
  { svmTlbTagging asidLimit nestedVirtualization with pool }

section Isolated

variable {t : TlbTagging} {i c asidLimit : Nat}

/-- While a bit of the pool is clear, the ASIDs of customizable VMs are those from the start up. -/
theorem customAsid_range (hbound : t.start + t.limit < 2 ^ 32) (hi : i < t.limit)
    (hclear : t.pool i = false) (h : CustomAsid t c) : t.start ≤ c ∧ c < t.start + t.limit := by
  rcases h with ⟨j, hj, -, rfl⟩ | rfl
  · rw [Nat.mod_eq_of_lt (by omega)]
    omega
  · have hfirst := noirFindClearBit_of_clear hi hclear
    have hlt := hfirst.lt
    rw [nvcSvmcAllocAsid_of_clear (by omega) hfirst]
    dsimp only
    rw [Nat.mod_eq_of_lt (by omega)]
    omega

theorem nvcSvmcAllocAsid_unused (hbound : t.start + t.limit < 2 ^ 32) (hi : i < t.limit)
    (hclear : t.pool i = false) {j : Nat} (hj : j < t.limit) (hset : t.pool j = true) :
    t.nvcSvmcAllocAsid.1 ≠ (t.start + j) % 2 ^ 32 := by
  have hfirst := noirFindClearBit_of_clear hi hclear
  have hlt := hfirst.lt
  rw [nvcSvmcAllocAsid_of_clear (by omega) hfirst]
  dsimp only
  rw [Nat.mod_eq_of_lt (by omega), Nat.mod_eq_of_lt (by omega)]
  intro hsame
  have hbit : noirFindClearBit t.pool t.limit = j := by omega
  exact absurd (hfirst.clear.symm.trans (hbit ▸ hset)) Bool.false_ne_true

theorem svmTagging_bound (nestedVirtualization : Bool) (pool : Nat → Bool)
    (hlimit : asidLimit < 2 ^ 32) (htwo : 2 ≤ asidLimit) :
    (svmTagging asidLimit nestedVirtualization pool).start +
      (svmTagging asidLimit nestedVirtualization pool).limit = asidLimit := by
  unfold svmTagging svmTlbTagging
  dsimp only
  split
  · omega
  · omega

/-- The ASIDs a nested hypervisor is told of are small. -/
theorem LegalNestedAsid.lt {asid : BitVec 32} (hstart : 2 ≤ t.start) (hbound : t.start < 2 ^ 32)
    (h : LegalNestedAsid t asid) : asid.toNat + 2 < t.start := by
  have hlt := h.2
  unfold nestedAsids at hlt
  omega

theorem shadowAsid_legal_inj {asid₁ asid₂ : BitVec 32} (hstart : 2 ≤ t.start)
    (hbound : t.start ≤ 2 ^ 31) (h₁ : LegalNestedAsid t asid₁) (h₂ : LegalNestedAsid t asid₂)
    (h : shadowAsid asid₁ = shadowAsid asid₂) : asid₁ = asid₂ := by
  have hlt₁ := h₁.lt hstart (by omega)
  have hlt₂ := h₂.lt hstart (by omega)
  exact shadowAsid_inj h₁.1 (by omega) h₂.1 (by omega) h

end Isolated

section Divided

variable {asidLimit i : Nat} {nestedVirtualization : Bool} {t : TlbTagging} {asid : BitVec 32}

theorem customAsidsIsolated (hsum : t.start + t.limit = asidLimit) (hlimit : asidLimit < 2 ^ 32)
    (hstart : 2 ≤ t.start) (hhalf : nestedVirtualization = true → t.start ≤ 2 ^ 31)
    (hi : i < t.limit) (hclear : t.pool i = false) :
    CustomAsidsIsolated asidLimit nestedVirtualization t where
  host := by
    unfold hostAsid
    omega
  custom c hc := by
    obtain ⟨hlow, hhigh⟩ := customAsid_range (by omega) hi hclear hc
    unfold hostAsid
    omega
  unused j hj hset := nvcSvmcAllocAsid_unused (by omega) hi hclear hj hset
  distinct hnested _ _ h₁ h₂ hsame := shadowAsid_legal_inj hstart (hhalf hnested) h₁ h₂ hsame

theorem nestedAsidIsolated (hsum : t.start + t.limit = asidLimit) (hlimit : asidLimit < 2 ^ 32)
    (hhalf : t.start ≤ 2 ^ 31) (hi : i < t.limit) (hclear : t.pool i = false)
    (hpos : 0 < asid.toInt) (hlt : asid.toNat + 1 < t.start) :
    NestedAsidIsolated asidLimit t asid := by
  have hnat : 0 < asid.toNat := by
    rw [BitVec.toInt_eq_toNat_of_lt (by omega)] at hpos
    omega
  have hshadow := shadowAsid_toNat hnat (by omega)
  refine ⟨by omega, by unfold hostAsid; omega, by omega, fun hcustom => ?_⟩
  have hrange := customAsid_range (by omega) hi hclear hcustom
  omega

end Divided

end NoirVisor
