import NoirVisor.Io.Dispatch

/-!
# Accesses to device memory

An access that is not aligned is made of two that are. A write made so is not one of the bytes
asked for only: the two halves are filled up with zeros and with the rest of the value.
-/

namespace NoirVisor

open HeightTree

/-- The bytes from a pointer on. -/
abbrev ByteBuffer := Nat → BitVec 8

def littleEndian (value : BitVec 64) : ByteBuffer := fun i => value.extractLsb' (8 * i) 8

section

variable {η κ σ : Type} (handle : MmioRegion η κ → MmioAccess ByteBuffer → σ → ByteBuffer × σ)
  (root : HeightTree (MmioRegion η κ))

/-- The handler of the node that is found runs, and leaves what it has read at the pointer. -/
def serveAligned (access : MmioAccess ByteBuffer) (s : σ) : ByteBuffer × σ :=
  match nvcCallRwMmioRegionAligned root access with
  | none => (access.value, s)
  | some (mr, access) => handle mr access s

/-- `buff` as the source fills it before the two calls. -/
def stagedBuffer (direction : Bool) (offset : Nat) (value : ByteBuffer) : ByteBuffer := fun i =>
  if direction ∧ offset ≤ i ∧ i < offset + 8 then value (i - offset) else 0

def nvcCallRwMmioRegion (access : MmioAccess ByteBuffer) (s : σ) : ByteBuffer × σ :=
  let aligner := access.size - 1
  let offset := access.address &&& aligner
  if offset ≠ 0 then
    let low := serveAligned handle root
      { access with
        address := access.address - offset
        value := stagedBuffer access.direction offset.toNat access.value } s
    let high := serveAligned handle root
      { access with
        address := access.address - offset + access.size
        value := fun i => low.1 (access.size.toNat + i) } low.2
    let buff : ByteBuffer := fun i =>
      if i < access.size.toNat then low.1 i else high.1 (i - access.size.toNat)
    if access.direction then (access.value, high.2)
    else (fun i => if i < 8 then buff (offset.toNat + i) else access.value i, high.2)
  else serveAligned handle root access s

end

section

variable {η κ σ : Type}

def IsAccessSize (size : BitVec 64) : Prop := size = 1 ∨ size = 2 ∨ size = 4 ∨ size = 8

instance (size : BitVec 64) : Decidable (IsAccessSize size) :=
  inferInstanceAs (Decidable (_ ∨ _ ∨ _ ∨ _))

/-- The bytes of the region are where an access to its handler reads and writes, and nowhere
else. -/
structure BackedByMemory (handle : MmioRegion η κ → MmioAccess ByteBuffer → σ → ByteBuffer × σ)
    (mr : MmioRegion η κ) (bytes : σ → Nat → BitVec 8) : Prop where
  write : ∀ access s, access.direction = true → ∀ y,
    bytes (handle mr access s).2 y =
      if access.address.toNat ≤ y ∧ y < access.address.toNat + access.size.toNat then
        access.value (y - access.address.toNat)
      else bytes s y
  read : ∀ access s, access.direction = false →
    (∀ i < access.size.toNat, (handle mr access s).1 i = bytes s (access.address.toNat + i)) ∧
      ∀ y, bytes (handle mr access s).2 y = bytes s y
  source : ∀ node access s, access.direction = true → (handle node access s).1 = access.value
  others : ∀ node access s, node ≠ mr → ∀ y, bytes (handle node access s).2 y = bytes s y

/-- A write changes the bytes asked for, a read returns them, and all others of the region stay. -/
def Accessed (mr : MmioRegion η κ) (bytes : σ → Nat → BitVec 8) (access : MmioAccess ByteBuffer)
    (s : σ) (result : ByteBuffer × σ) : Prop :=
  if access.direction then
    ∀ y, mr.phys.toNat ≤ y → y < mr.phys.toNat + mr.size.toNat → bytes result.2 y =
      if access.address.toNat ≤ y ∧ y < access.address.toNat + access.size.toNat then
        access.value (y - access.address.toNat)
      else bytes s y
  else
    (∀ i < access.size.toNat, result.1 i = bytes s (access.address.toNat + i)) ∧
      ∀ y, mr.phys.toNat ≤ y → y < mr.phys.toNat + mr.size.toNat → bytes result.2 y = bytes s y

variable {handle : MmioRegion η κ → MmioAccess ByteBuffer → σ → ByteBuffer × σ}
  {root : HeightTree (MmioRegion η κ)} {mr : MmioRegion η κ} {bytes : σ → Nat → BitVec 8}
  {access : MmioAccess ByteBuffer} {s : σ}

/-- The region is the one that the lookup finds for every address of it. -/
def Registered (root : HeightTree (MmioRegion η κ)) (mr : MmioRegion η κ) : Prop :=
  ∀ address, mr.Contains address → noirSearchAvlNode nvcBstSearchMmioRegion address root = some mr

/-- All of the access is in the region. -/
structure Inside (mr : MmioRegion η κ) (access : MmioAccess ByteBuffer) : Prop where
  size : IsAccessSize access.size
  low : mr.phys.toNat ≤ access.address.toNat
  high : access.address.toNat + access.size.toNat ≤ mr.phys.toNat + mr.size.toNat

namespace MmioAccess

def offset (access : MmioAccess ByteBuffer) : Nat := access.address.toNat % access.size.toNat

/-- Where the aligned block begins that the access begins in. -/
def start (access : MmioAccess ByteBuffer) : Nat := access.address.toNat - access.offset

end MmioAccess

theorem IsAccessSize.toNat_cases {size : BitVec 64} (h : IsAccessSize size) :
    size.toNat = 1 ∨ size.toNat = 2 ∨ size.toNat = 4 ∨ size.toNat = 8 := by
  rcases h with hsize | hsize | hsize | hsize <;> rw [hsize] <;> decide

/-- The mask of the source takes the remainder. -/
theorem toNat_and_aligner (h : IsAccessSize access.size) :
    (access.address &&& (access.size - 1)).toNat = access.offset := by
  unfold MmioAccess.offset
  rw [BitVec.toNat_and]
  rcases h with hsize | hsize | hsize | hsize
  · rw [hsize]
    exact Nat.and_two_pow_sub_one_eq_mod _ 0
  · rw [hsize]
    exact Nat.and_two_pow_sub_one_eq_mod _ 1
  · rw [hsize]
    exact Nat.and_two_pow_sub_one_eq_mod _ 2
  · rw [hsize]
    exact Nat.and_two_pow_sub_one_eq_mod _ 3

theorem offset_lt_size (h : IsAccessSize access.size) : access.offset < access.size.toNat := by
  apply Nat.mod_lt
  have := h.toNat_cases
  omega

theorem MmioAccess.start_add_offset (access : MmioAccess ByteBuffer) :
    access.start + access.offset = access.address.toNat :=
  Nat.sub_add_cancel (Nat.mod_le _ _)

theorem toNat_start (h : IsAccessSize access.size) :
    (access.address - (access.address &&& (access.size - 1))).toNat = access.start := by
  have hle : access.offset ≤ access.address.toNat := Nat.mod_le _ _
  rw [BitVec.toNat_sub_of_le, toNat_and_aligner h]
  · rfl
  · rw [BitVec.le_def, toNat_and_aligner h]
    exact hle

/-- A region that is found for its addresses ends below the top of the address space. -/
theorem Registered.end_lt (h : Registered root mr) {address : BitVec 64}
    (hcontains : mr.Contains address) : mr.phys.toNat + mr.size.toNat < 2 ^ 64 := by
  have hzero := (side_of_search_eq_some (h address hcontains)).1
  obtain ⟨hlow, hhigh⟩ := nvcBstSearchMmioRegion_eq_zero.mp hzero
  obtain ⟨-, hbelow⟩ := hcontains
  rw [BitVec.toNat_add] at hhigh
  omega

theorem Inside.contains (h : Inside mr access) : mr.Contains access.address := by
  have hsize := h.size.toNat_cases
  have hhigh := h.high
  exact ⟨h.low, by omega⟩

theorem Inside.toNat_next (h : Inside mr access) (hregistered : Registered root mr) :
    (access.address - (access.address &&& (access.size - 1)) + access.size).toNat =
      access.start + access.size.toNat := by
  have hend := hregistered.end_lt h.contains
  have hstart := access.start_add_offset
  have hhigh := h.high
  rw [BitVec.toNat_add, toNat_start h.size]
  apply Nat.mod_eq_of_lt
  omega

theorem serveAligned_of_contains (h : Registered root mr) (hcontains : mr.Contains access.address) :
    serveAligned handle root access s = handle mr access s := by
  unfold serveAligned nvcCallRwMmioRegionAligned
  rw [h _ hcontains, Option.map_some]

/-- Below the region only other handlers are called, if any. -/
theorem serveAligned_of_lt (hmemory : BackedByMemory handle mr bytes)
    (hbelow : access.address.toNat < mr.phys.toNat) :
    (∀ y, bytes (serveAligned handle root access s).2 y = bytes s y) ∧
      (access.direction = true → (serveAligned handle root access s).1 = access.value) := by
  unfold serveAligned nvcCallRwMmioRegionAligned
  cases hfound : noirSearchAvlNode nvcBstSearchMmioRegion access.address root with
  | none => exact ⟨fun _ => rfl, fun _ => rfl⟩
  | some node =>
    have hcovers := nvcBstSearchMmioRegion_eq_zero.mp (side_of_search_eq_some hfound).1
    have hne : node ≠ mr := by
      rintro rfl
      exact absurd hcovers.1 (not_le.mpr hbelow)
    exact ⟨hmemory.others node access s hne, hmemory.source node access s⟩

/-- The first of the two aligned accesses. -/
def MmioAccess.lowHalf (access : MmioAccess ByteBuffer) : MmioAccess ByteBuffer :=
  { access with
    address := access.address - (access.address &&& (access.size - 1))
    value := stagedBuffer access.direction access.offset access.value }

/-- The second one, with what the first has left in the buffer. -/
def MmioAccess.highHalf (access : MmioAccess ByteBuffer) (low : ByteBuffer) : MmioAccess ByteBuffer :=
  { access with
    address := access.address - (access.address &&& (access.size - 1)) + access.size
    value := fun i => low (access.size.toNat + i) }

variable (handle root mr bytes access s) in
/-- The access is aligned; or it is a write, and the bytes of the two aligned blocks that are
written without being asked for, or asked for without being written, hold what is staged for them;
or it is a read, and what is found below the region is what the region holds. -/
def Composes : Prop :=
  access.offset = 0 ∨
    if access.direction then
      ∀ y, mr.phys.toNat ≤ y → y < mr.phys.toNat + mr.size.toNat → access.start ≤ y →
        y < access.start + 2 * access.size.toNat →
        ¬((mr.phys.toNat ≤ access.start ∨ access.start + access.size.toNat ≤ y) ↔
          (access.address.toNat ≤ y ∧ y < access.address.toNat + access.size.toNat)) →
        bytes s y = stagedBuffer true access.offset access.value (y - access.start)
    else
      mr.phys.toNat ≤ access.start ∨
        ∀ i, access.address.toNat + i < access.start + access.size.toNat →
          (serveAligned handle root access.lowHalf s).1 (access.offset + i) =
            bytes s (access.address.toNat + i)

theorem nvcCallRwMmioRegion_of_aligned (h : IsAccessSize access.size) (hoffset : access.offset = 0) :
    nvcCallRwMmioRegion handle root access s = serveAligned handle root access s := by
  unfold nvcCallRwMmioRegion
  dsimp only
  rw [if_neg]
  rw [ne_eq, not_not]
  apply BitVec.eq_of_toNat_eq
  rw [toNat_and_aligner h, hoffset]
  rfl

theorem nvcCallRwMmioRegion_of_unaligned (h : IsAccessSize access.size) (hoffset : access.offset ≠ 0) :
    nvcCallRwMmioRegion handle root access s =
      let low := serveAligned handle root access.lowHalf s
      let high := serveAligned handle root (access.highHalf low.1) low.2
      let buff : ByteBuffer := fun i =>
        if i < access.size.toNat then low.1 i else high.1 (i - access.size.toNat)
      if access.direction then (access.value, high.2)
      else (fun i => if i < 8 then buff (access.offset + i) else access.value i, high.2) := by
  unfold nvcCallRwMmioRegion MmioAccess.highHalf MmioAccess.lowHalf
  dsimp only
  rw [if_pos, toNat_and_aligner h]
  intro hzero
  apply hoffset
  rw [← toNat_and_aligner h, hzero]
  rfl

theorem stagedBuffer_of_asked (h : Inside mr access) {y : Nat} (hlow : access.address.toNat ≤ y)
    (hhigh : y < access.address.toNat + access.size.toNat) :
    stagedBuffer true access.offset access.value (y - access.start) =
      access.value (y - access.address.toNat) := by
  have hstart := access.start_add_offset
  have hsize := h.size.toNat_cases
  unfold stagedBuffer
  rw [if_pos ⟨rfl, by omega, by omega⟩]
  have hsame : y - access.start - access.offset = y - access.address.toNat := by omega
  rw [hsame]

/-- The first half is in the region unless the region begins inside of it. -/
theorem Inside.contains_lowHalf (h : Inside mr access) (hblock : mr.phys.toNat ≤ access.start) :
    mr.Contains access.lowHalf.address := by
  have hlowAddress : access.lowHalf.address.toNat = access.start := toNat_start h.size
  have hstart := access.start_add_offset
  have hsize := h.size.toNat_cases
  have hhigh := h.high
  unfold MmioRegion.Contains
  rw [hlowAddress]
  omega

theorem Inside.toNat_highHalf {low : ByteBuffer} (h : Inside mr access)
    (hregistered : Registered root mr) :
    (access.highHalf low).address.toNat = access.start + access.size.toNat :=
  h.toNat_next hregistered

/-- An access that is not aligned goes on into the second half. -/
theorem Inside.contains_highHalf {low : ByteBuffer} (h : Inside mr access)
    (hregistered : Registered root mr) (hoffset : access.offset ≠ 0) :
    mr.Contains (access.highHalf low).address := by
  have hstart := access.start_add_offset
  have hlt := offset_lt_size h.size
  have hlow := h.low
  have hhigh := h.high
  unfold MmioRegion.Contains
  rw [h.toNat_highHalf hregistered]
  omega

/-- What the two halves of a write leave in the region. -/
theorem bytes_of_write (hmemory : BackedByMemory handle mr bytes)
    (hregistered : Registered root mr) (h : Inside mr access) (hoffset : access.offset ≠ 0)
    (hdirection : access.direction = true) (y : Nat) :
    let low := serveAligned handle root access.lowHalf s
    bytes (serveAligned handle root (access.highHalf low.1) low.2).2 y =
      if access.start ≤ y ∧ y < access.start + 2 * access.size.toNat ∧
          (mr.phys.toNat ≤ access.start ∨ access.start + access.size.toNat ≤ y) then
        stagedBuffer true access.offset access.value (y - access.start)
      else bytes s y := by
  intro low
  have hlowAddress : access.lowHalf.address.toNat = access.start := toNat_start h.size
  have hhighAddress : (access.highHalf low.1).address.toNat = access.start + access.size.toNat :=
    h.toNat_highHalf hregistered
  have hstaged : access.lowHalf.value = stagedBuffer true access.offset access.value := by
    rw [MmioAccess.lowHalf, hdirection]
  have hhigh : mr.Contains (access.highHalf low.1).address :=
    h.contains_highHalf hregistered hoffset
  have hupper : bytes (handle mr (access.highHalf low.1) low.2).2 y =
      if access.start + access.size.toNat ≤ y ∧
          y < access.start + access.size.toNat + access.size.toNat then
        low.1 (access.size.toNat + (y - (access.start + access.size.toNat)))
      else bytes low.2 y := by
    rw [hmemory.write (access.highHalf low.1) low.2 hdirection, hhighAddress]
    rfl
  rw [serveAligned_of_contains hregistered hhigh, hupper]
  by_cases hblock : mr.phys.toNat ≤ access.start
  · have hlowEq : low = handle mr access.lowHalf s :=
      serveAligned_of_contains hregistered (h.contains_lowHalf hblock)
    have hvalue : low.1 = stagedBuffer true access.offset access.value := by
      rw [hlowEq, hmemory.source mr access.lowHalf s hdirection, hstaged]
    have hlower : bytes low.2 y =
        if access.start ≤ y ∧ y < access.start + access.size.toNat then
          stagedBuffer true access.offset access.value (y - access.start)
        else bytes s y := by
      rw [hlowEq, hmemory.write access.lowHalf s hdirection, hlowAddress, hstaged]
      rfl
    rw [hlower, hvalue]
    by_cases hsecond : access.start + access.size.toNat ≤ y ∧
        y < access.start + access.size.toNat + access.size.toNat
    · rw [if_pos hsecond, if_pos ⟨by omega, by omega, .inl hblock⟩]
      congr 1
      omega
    · rw [if_neg hsecond]
      by_cases hfirst : access.start ≤ y ∧ y < access.start + access.size.toNat
      · rw [if_pos hfirst, if_pos ⟨hfirst.1, by omega, .inl hblock⟩]
      · rw [if_neg hfirst, if_neg (by omega)]
  · have hbelow : access.lowHalf.address.toNat < mr.phys.toNat := by omega
    obtain ⟨hsame, hvalue⟩ : (∀ y, bytes low.2 y = bytes s y) ∧
        (access.lowHalf.direction = true → low.1 = access.lowHalf.value) :=
      serveAligned_of_lt hmemory hbelow
    rw [hsame, hvalue hdirection, hstaged]
    by_cases hsecond : access.start + access.size.toNat ≤ y ∧
        y < access.start + access.size.toNat + access.size.toNat
    · rw [if_pos hsecond, if_pos ⟨by omega, by omega, .inr hsecond.1⟩]
      congr 1
      omega
    · rw [if_neg hsecond, if_neg (by omega)]

/-- A read changes nothing, and the second half of it returns what is in the region. -/
theorem bytes_of_read (hmemory : BackedByMemory handle mr bytes)
    (hregistered : Registered root mr) (h : Inside mr access) (hoffset : access.offset ≠ 0)
    (hdirection : access.direction = false) :
    let low := serveAligned handle root access.lowHalf s
    let high := serveAligned handle root (access.highHalf low.1) low.2
    (∀ y, bytes high.2 y = bytes s y) ∧
      (∀ i < access.size.toNat,
        high.1 i = bytes s (access.start + access.size.toNat + i)) ∧
      (mr.phys.toNat ≤ access.start →
        ∀ i < access.size.toNat, low.1 i = bytes s (access.start + i)) := by
  intro low high
  have hlowAddress : access.lowHalf.address.toNat = access.start := toNat_start h.size
  have hhighAddress : (access.highHalf low.1).address.toNat = access.start + access.size.toNat :=
    h.toNat_highHalf hregistered
  have hhigh : mr.Contains (access.highHalf low.1).address :=
    h.contains_highHalf hregistered hoffset
  have hhighEq : high = handle mr (access.highHalf low.1) low.2 :=
    serveAligned_of_contains hregistered hhigh
  obtain ⟨hupper, hupperSame⟩ := hmemory.read (access.highHalf low.1) low.2 hdirection
  rw [← hhighEq] at hupper hupperSame
  have hlower : (∀ y, bytes low.2 y = bytes s y) ∧ (mr.phys.toNat ≤ access.start →
      ∀ i < access.size.toNat, low.1 i = bytes s (access.start + i)) := by
    by_cases hblock : mr.phys.toNat ≤ access.start
    · have hlowEq : low = handle mr access.lowHalf s :=
        serveAligned_of_contains hregistered (h.contains_lowHalf hblock)
      obtain ⟨hread, hsame⟩ := hmemory.read access.lowHalf s hdirection
      rw [← hlowEq] at hread hsame
      rw [hlowAddress] at hread
      exact ⟨hsame, fun _ => hread⟩
    · have hbelow : access.lowHalf.address.toNat < mr.phys.toNat := by omega
      have hsame : ∀ y, bytes low.2 y = bytes s y := (serveAligned_of_lt hmemory hbelow).1
      exact ⟨hsame, fun hblock' => absurd hblock' hblock⟩
  refine ⟨fun y => (hupperSame y).trans (hlower.1 y), fun i hi => ?_, hlower.2⟩
  rw [hupper i hi, hhighAddress, hlower.1]

theorem accessed_write_iff (hmemory : BackedByMemory handle mr bytes)
    (hregistered : Registered root mr) (h : Inside mr access) (hoffset : access.offset ≠ 0)
    (hdirection : access.direction = true) :
    Accessed mr bytes access s (nvcCallRwMmioRegion handle root access s) ↔
      Composes handle root mr bytes access s := by
  have hstart := access.start_add_offset
  have hlt := offset_lt_size h.size
  have hwrite := bytes_of_write (s := s) hmemory hregistered h hoffset hdirection
  unfold Accessed Composes
  rw [nvcCallRwMmioRegion_of_unaligned h.size hoffset, or_iff_right hoffset]
  dsimp only at hwrite ⊢
  rw [if_pos hdirection, if_pos hdirection, if_pos hdirection]
  simp only [hwrite]
  refine forall_congr' fun y => forall_congr' fun hfrom => forall_congr' fun hto => ?_
  by_cases hasked : access.address.toNat ≤ y ∧ y < access.address.toNat + access.size.toNat
  · rw [if_pos hasked, ← stagedBuffer_of_asked h hasked.1 hasked.2]
    by_cases hwritten : mr.phys.toNat ≤ access.start ∨ access.start + access.size.toNat ≤ y
    · rw [if_pos ⟨by omega, by omega, hwritten⟩]
      exact iff_of_true rfl fun _ _ hne => absurd (iff_of_true hwritten hasked) hne
    · rw [if_neg fun hboth => hwritten hboth.2.2]
      constructor
      · exact fun heq _ _ _ => heq
      · exact fun heq => heq (by omega) (by omega) fun hiff => hwritten (hiff.mpr hasked)
  · rw [if_neg hasked]
    by_cases hwritten : access.start ≤ y ∧ y < access.start + 2 * access.size.toNat ∧
        (mr.phys.toNat ≤ access.start ∨ access.start + access.size.toNat ≤ y)
    · obtain ⟨hlow, hhigh, hblock⟩ := hwritten
      rw [if_pos ⟨hlow, hhigh, hblock⟩]
      constructor
      · exact fun heq _ _ _ => heq.symm
      · exact fun heq => (heq hlow hhigh fun hiff => hasked (hiff.mp hblock)).symm
    · rw [if_neg hwritten]
      refine iff_of_true rfl fun hlow hhigh hne => absurd ?_ hne
      exact iff_of_false (fun hblock => hwritten ⟨hlow, hhigh, hblock⟩) hasked

theorem accessed_read_iff (hmemory : BackedByMemory handle mr bytes)
    (hregistered : Registered root mr) (h : Inside mr access) (hoffset : access.offset ≠ 0)
    (hdirection : access.direction = false) :
    Accessed mr bytes access s (nvcCallRwMmioRegion handle root access s) ↔
      Composes handle root mr bytes access s := by
  have hstart := access.start_add_offset
  have hlt := offset_lt_size h.size
  have hsize := h.size.toNat_cases
  have hnot : ¬access.direction = true := by simp [hdirection]
  obtain ⟨hsame, hupper, hlower⟩ := bytes_of_read (s := s) hmemory hregistered h hoffset hdirection
  unfold Accessed Composes
  rw [nvcCallRwMmioRegion_of_unaligned h.size hoffset, or_iff_right hoffset]
  dsimp only
  rw [if_neg hnot, if_neg hnot, if_neg hnot]
  constructor
  · rintro ⟨hread, -⟩
    refine .inr fun i hi => ?_
    have hbyte := hread i (by omega)
    dsimp only at hbyte
    rw [if_pos (by omega), if_pos (by omega)] at hbyte
    exact hbyte
  · intro hlow
    refine ⟨fun i hi => ?_, fun y _ _ => hsame y⟩
    dsimp only
    rw [if_pos (by omega)]
    by_cases hfirst : access.offset + i < access.size.toNat
    · rw [if_pos hfirst]
      rcases hlow with hblock | hlow
      · rw [hlower hblock _ hfirst, ← Nat.add_assoc, hstart]
      · exact hlow i (by omega)
    · rw [if_neg hfirst, hupper _ (by omega)]
      congr 1
      omega

/-- Every access in a region that is found and backed by memory. -/
theorem accessed_iff (hmemory : BackedByMemory handle mr bytes) (hregistered : Registered root mr)
    (h : Inside mr access) :
    Accessed mr bytes access s (nvcCallRwMmioRegion handle root access s) ↔
      Composes handle root mr bytes access s := by
  by_cases hoffset : access.offset = 0
  · rw [nvcCallRwMmioRegion_of_aligned h.size hoffset, serveAligned_of_contains hregistered h.contains]
    refine iff_of_true ?_ (.inl hoffset)
    unfold Accessed
    cases hdirection : access.direction with
    | true => exact fun y _ _ => hmemory.write access s hdirection y
    | false =>
      obtain ⟨hread, hsame⟩ := hmemory.read access s hdirection
      exact ⟨hread, fun y _ _ => hsame y⟩
  · cases hdirection : access.direction with
    | true => exact accessed_write_iff hmemory hregistered h hoffset hdirection
    | false => exact accessed_read_iff hmemory hregistered h hoffset hdirection

theorem registered_leaf (h : mr.phys.toNat + mr.size.toNat < 2 ^ 64) :
    Registered (leaf mr) mr := by
  rintro address ⟨hlow, hhigh⟩
  have hcovers : mr.Covers address := by
    refine ⟨hlow, ?_⟩
    rw [BitVec.toNat_add, Nat.mod_eq_of_lt h]
    exact hhigh.le
  unfold noirSearchAvlNode leaf search
  rw [if_pos (nvcBstSearchMmioRegion_eq_zero.mpr hcovers)]

variable [DecidableEq η] [DecidableEq κ]

/-- A handler over an array of bytes. -/
def arrayHandler (mr node : MmioRegion η κ) (access : MmioAccess ByteBuffer)
    (memory : Nat → BitVec 8) : ByteBuffer × (Nat → BitVec 8) :=
  if node = mr then
    if access.direction then
      (access.value, fun y =>
        if access.address.toNat ≤ y ∧ y < access.address.toNat + access.size.toNat then
          access.value (y - access.address.toNat)
        else memory y)
    else
      (fun i => if i < access.size.toNat then memory (access.address.toNat + i) else access.value i,
        memory)
  else (access.value, memory)

theorem backedByMemory_arrayHandler (mr : MmioRegion η κ) :
    BackedByMemory (arrayHandler mr) mr id where
  write access memory hdirection y := by
    unfold arrayHandler
    rw [if_pos rfl, if_pos hdirection]
    rfl
  read access memory hdirection := by
    unfold arrayHandler
    rw [if_pos rfl, if_neg (by simp [hdirection])]
    exact ⟨fun i hi => if_pos hi, fun _ => rfl⟩
  source node access memory hdirection := by
    unfold arrayHandler
    rw [if_pos hdirection]
    split <;> rfl
  others node access memory hne y := by
    unfold arrayHandler
    rw [if_neg hne]

end

def countingMemory : Nat → BitVec 8 := BitVec.ofNat 8

end NoirVisor
