import NoirVisor.Ept.Split

/-!
# The memory types of large pages

An update of the memory type of a 2 MiB or 1 GiB page reaches every page below it, unless there is
a 2 MiB page among them that is split into 4 KiB pages. Then the loop over the PTEs ends without
reporting success, and the loop over the PDEs stops there.
-/

namespace NoirVisor

/-- What an update of the memory type is to make of an address. -/
def EptLeaf.updateMemoryType (leaf : EptLeaf) (memoryType : BitVec 8) (force : Bool) : EptLeaf :=
  { leaf with
    memoryType :=
      (if leaf.varMtrrCovered then
        nvcEptMergeMemoryType (leaf.memoryType.setWidth 8) memoryType force
      else memoryType).setWidth 3
    varMtrrCovered := true }

/-- A large or huge page, by its number. -/
inductive EptPage where
  | large (r : Nat)
  | huge (k : Nat)
deriving DecidableEq, Repr

namespace EptPage

def InRange : EptPage → Prop
  | large r => r < 512 * 512 * 512
  | huge k => k < 512 * 512

def Contains : EptPage → Nat → Prop
  | large r, gpa => page2mbCount gpa = r
  | huge k, gpa => page1gbCount gpa = k

instance (page : EptPage) : Decidable page.InRange := by
  cases page <;> unfold InRange <;> infer_instance

instance (page : EptPage) (gpa : Nat) : Decidable (page.Contains gpa) := by
  cases page <;> unfold Contains <;> infer_instance

def update (memoryType : BitVec 8) (force : Bool) (eptm : EptManager) :
    EptPage → Outcome (Bool × EptManager)
  | large r => eptm.nvcEptUpdatePdeMemoryType memoryType force (page2mbMult r)
  | huge k => eptm.nvcEptUpdatePdpteMemoryType memoryType force (page1gbMult k)

/-- A 2 MiB page of a whole 1 GiB page has no entry of its own yet. -/
def Allocates (eptm : EptManager) : EptPage → Prop
  | large r => (eptm.pdpt (r / 512)).large = true
  | huge _ => False

end EptPage

namespace EptManager

/-- The update succeeds, changes every leaf below the page and no other. -/
def Propagates (eptm : EptManager) (page : EptPage) (memoryType : BitVec 8) (force : Bool) : Prop :=
  ∃ eptm', page.update memoryType force eptm = .ok (true, eptm') ∧
    ∀ gpa < 2 ^ 48, eptm'.leaf gpa =
      if page.Contains gpa then (eptm.leaf gpa).updateMemoryType memoryType force
      else eptm.leaf gpa

/-- No 4 KiB page is below the page. -/
def Unsplit (eptm : EptManager) (page : EptPage) : Prop :=
  ∀ gpa < 2 ^ 48, page.Contains gpa → (eptm.walk gpa).2 ≠ 0

section Loops

variable {σ : Type} {f : σ → Nat → Outcome (Bool × σ)} {is : List Nat}

/-- A loop none of whose steps fails. -/
theorem forEntries_prefix {P : List Nat → σ → Prop}
    (hstep : ∀ done i left s, is = done ++ i :: left → P done s →
      ∃ s', f s i = .ok (true, s') ∧ P (done ++ [i]) s') {s : σ} (hs : P [] s) :
    ∃ s', forEntries f is s = .ok (true, s') ∧ P is s' := by
  have hrest : ∀ left done s, is = done ++ left → P done s →
      ∃ s', forEntries f left s = .ok (true, s') ∧ P is s' := by
    intro left
    induction left with
    | nil =>
        intro done s his hdone
        rw [List.append_nil] at his
        exact ⟨s, rfl, his ▸ hdone⟩
    | cons i left ih =>
        intro done s his hdone
        obtain ⟨s₁, hrun, hnext⟩ := hstep done i left s his hdone
        simp only [forEntries, hrun, Outcome.ok_bind, if_true]
        exact ih (done ++ [i]) s₁ (by rw [his, List.append_assoc]; rfl) hnext
  exact hrest is [] s rfl hs

/-- What every step needs to succeed, when the steps that succeed keep an invariant. -/
theorem forall_of_forEntries {P : σ → Prop} {Q : Nat → Prop}
    (hstep : ∀ s i s', i ∈ is → P s → f s i = .ok (true, s') → P s' ∧ Q i) {s s' : σ} (hs : P s)
    (h : forEntries f is s = .ok (true, s')) : ∀ i ∈ is, Q i := by
  induction is generalizing s with
  | nil => exact fun i hi => (nomatch hi)
  | cons i rest ih =>
      obtain ⟨⟨result, s₁⟩, hfirst, hrest⟩ := bind_eq_ok.mp h
      cases result with
      | false => cases hrest
      | true =>
          obtain ⟨hnext, hi⟩ := hstep s i s₁ List.mem_cons_self hs hfirst
          intro j hj
          rcases List.mem_cons.mp hj with rfl | hj
          · exact hi
          · exact ih (fun s j s' hj => hstep s j s' (List.mem_cons_of_mem _ hj)) hnext hrest j hj

end Loops

section Large

variable {eptm : EptManager} {memoryType : BitVec 8} {force : Bool} {k i frame : Nat}

theorem page2mbMult_lt {r : Nat} (hr : r < 512 * 512 * 512) : page2mbMult r < 2 ^ 48 := by
  unfold page2mbMult
  omega

theorem page2mbCount_page2mbMult (r : Nat) : page2mbCount (page2mbMult r) = r := by
  simp [page2mbCount, page2mbMult]

theorem page1gbCount_page2mbMult {k i : Nat} (hi : i < 512) :
    page1gbCount (page2mbMult (512 * k + i)) = k := by
  simp only [page1gbCount, page2mbMult]
  omega

theorem page1gbMult_add (k i : Nat) :
    page1gbMult k + page2mbMult i = page2mbMult (512 * k + i) := by
  simp only [page1gbMult, page2mbMult]
  omega

@[simp]
theorem large_updateMemoryType (entry : EptEntry) :
    (entry.updateMemoryType memoryType force).large = entry.large := rfl

@[simp]
theorem leaf_updateMemoryType (entry : EptEntry) (level gpa : Nat) :
    (entry.updateMemoryType memoryType force).leaf level gpa =
      (entry.leaf level gpa).updateMemoryType memoryType force := rfl

/-- What an update does below a PDPTE that points to a table. -/
theorem nvcEptUpdatePdeMemoryType_of_table (hwf : eptm.Wf) (hk : k < 512 * 512)
    (hframe : eptm.layout 1 k = some frame) (hi : i < 512) :
    ((eptm.memory frame i).large = true →
      eptm.nvcEptUpdatePdeMemoryType memoryType force (page2mbMult (512 * k + i)) =
        .ok (true, eptm.modifyEntry frame i (·.updateMemoryType memoryType force))) ∧
    ((eptm.memory frame i).large = false → ∀ eptm',
      eptm.nvcEptUpdatePdeMemoryType memoryType force (page2mbMult (512 * k + i)) ≠
        .ok (true, eptm')) := by
  have hgpa : page2mbMult (512 * k + i) < 2 ^ 48 := page2mbMult_lt (by omega)
  have hcount := page1gbCount_page2mbMult (k := k) hi
  have hindex : pageEntryIndex64 (page2mbCount (page2mbMult (512 * k + i))) = i := by
    rw [page2mbCount_page2mbMult]
    simp only [pageEntryIndex64]
    omega
  have htable : (eptm.pdpt (page1gbCount (page2mbMult (512 * k + i)))).large = false := by
    rw [hcount]
    by_contra hhuge
    rw [(hwf.huge k hk (by simpa using hhuge)).1] at hframe
    cases hframe
  obtain ⟨d, hd, hsplit⟩ := nvcEptSplitPdpte_of_table hwf hgpa htable true
  rw [hcount, hframe] at hd
  obtain rfl := Option.some.inj hd
  simp only [nvcEptUpdatePdeMemoryType, hsplit, Outcome.ok_bind, Pointer.isNull, Pointer.deref,
    hindex]
  constructor
  · intro hlarge
    simp only [hlarge, if_true]
    rfl
  · intro hnot eptm' h
    simp only [hnot, Bool.false_eq_true, if_false] at h
    obtain ⟨result, -, hreturn⟩ := bind_eq_ok.mp h
    cases hreturn

/-- The tables after an update of a whole 2 MiB page. -/
theorem Wf.update (hwf : eptm.Wf) (hframe : eptm.layout 1 k = some frame)
    (hlarge : (eptm.memory frame i).large = true) :
    (eptm.modifyEntry frame i (·.updateMemoryType memoryType force)).Wf :=
  hwf.modifyEntry hframe fun _ hnot => by
    rw [large_updateMemoryType, hlarge] at hnot
    cases hnot

theorem large_update (j : Nat) :
    ((eptm.modifyEntry frame i (·.updateMemoryType memoryType force)).memory frame j).large =
      (eptm.memory frame j).large := by
  by_cases heq : j = i
  · rw [heq, memory_modifyEntry_self, large_updateMemoryType]
  · rw [memory_modifyEntry_of_ne fun h => heq h.2]

theorem Wf.leaf_update (hwf : eptm.Wf) (hframe : eptm.layout 1 k = some frame) (hi : i < 512)
    (hlarge : (eptm.memory frame i).large = true) {gpa : Nat} (hgpa : gpa < 2 ^ 48) :
    (eptm.modifyEntry frame i (·.updateMemoryType memoryType force)).leaf gpa =
      if page2mbCount gpa = 512 * k + i then (eptm.leaf gpa).updateMemoryType memoryType force
      else eptm.leaf gpa := by
  unfold leaf
  rw [hwf.walk_modifyEntry hframe hi (by rw [large_updateMemoryType, hlarge]) hgpa]
  split
  · next hpage =>
      obtain ⟨rfl, rfl⟩ := page1gbCount_of_page2mbCount hi hpage
      rw [hwf.walk_of_table hgpa hframe]
      simp only [hlarge, if_true, leaf_updateMemoryType]
  · rfl

theorem unsplit_large_iff (hwf : eptm.Wf) (hk : k < 512 * 512)
    (hframe : eptm.layout 1 k = some frame) (hi : i < 512) :
    eptm.Unsplit (.large (512 * k + i)) ↔ (eptm.memory frame i).large = true := by
  have hlevel : ∀ gpa < 2 ^ 48, page2mbCount gpa = 512 * k + i →
      ((eptm.walk gpa).2 ≠ 0 ↔ (eptm.memory frame i).large = true) := by
    intro gpa hgpa hpage
    obtain ⟨rfl, rfl⟩ := page1gbCount_of_page2mbCount hi hpage
    rw [hwf.walk_of_table hgpa hframe]
    cases hlarge : (eptm.memory frame (pageEntryIndex64 (page2mbCount gpa))).large <;>
      simp [hlarge]
  constructor
  · intro hunsplit
    have hgpa : page2mbMult (512 * k + i) < 2 ^ 48 := page2mbMult_lt (by omega)
    exact (hlevel _ hgpa (page2mbCount_page2mbMult _)).mp
      (hunsplit _ hgpa (page2mbCount_page2mbMult _))
  · exact fun hlarge gpa hgpa hpage => (hlevel gpa hgpa hpage).mpr hlarge

theorem propagates_large_of_table (hwf : eptm.Wf) (hk : k < 512 * 512)
    (hframe : eptm.layout 1 k = some frame) (hi : i < 512) :
    eptm.Propagates (.large (512 * k + i)) memoryType force ↔
      eptm.Unsplit (.large (512 * k + i)) := by
  rw [unsplit_large_iff hwf hk hframe hi]
  have hupdate := @nvcEptUpdatePdeMemoryType_of_table eptm memoryType force k i frame hwf hk hframe hi
  constructor
  · rintro ⟨eptm', hrun, -⟩
    by_contra hnot
    exact hupdate.2 (Bool.eq_false_iff.mpr hnot) eptm' hrun
  · intro hlarge
    exact ⟨_, hupdate.1 hlarge, fun gpa hgpa => hwf.leaf_update hframe hi hlarge hgpa⟩

theorem unsplit_of_huge {page : EptPage}
    (hhuge : ∀ gpa, page.Contains gpa → (eptm.pdpt (page1gbCount gpa)).large = true) :
    eptm.Unsplit page := by
  intro gpa _ hpage
  rw [Wf.walk_of_huge (hhuge gpa hpage)]
  exact two_ne_zero

/-- The 1 GiB page around is split first, which changes no leaf. -/
theorem propagates_large_of_huge (hwf : eptm.Wf) (hk : k < 512 * 512) (hi : i < 512)
    (hhuge : (eptm.pdpt k).large = true) (hfresh : eptm.allocator.Fresh eptm.Used)
    (hgenerous : eptm.allocator.Generous 1) :
    eptm.Propagates (.large (512 * k + i)) memoryType force := by
  have hgpa : page2mbMult (512 * k + i) < 2 ^ 48 := page2mbMult_lt (by omega)
  have hcount := page1gbCount_page2mbMult (k := k) hi
  have hindex : pageEntryIndex64 (page2mbCount (page2mbMult (512 * k + i))) = i := by
    rw [page2mbCount_page2mbMult]
    simp only [pageEntryIndex64]
    omega
  rw [← hcount] at hhuge
  obtain ⟨d, allocator, hunused, hinRange, hsplit⟩ :=
    nvcEptSplitPdpte_of_huge hwf hgpa hhuge hfresh hgenerous
  have hnone := (hwf.huge _ (page1gbCount_lt_of_lt hgpa) hhuge).1
  have hlayout : (eptm.splitHuge (page2mbMult (512 * k + i)) d.frame).layout 1 k = some d.frame := by
    rw [layout_splitHuge hnone, hcount, Radix.Layout.extend_self]
  have hlarge : ((eptm.splitHuge (page2mbMult (512 * k + i)) d.frame).memory d.frame i).large =
      true := by
    rw [memory_splitHuge, Radix.Frames.fill_self]
    rfl
  have hwf' := (hwf.splitHuge hgpa hhuge hunused hinRange).allocator allocator
  refine ⟨modifyEntry { eptm.splitHuge (page2mbMult (512 * k + i)) d.frame with allocator } d.frame i
    (·.updateMemoryType memoryType force), ?_, fun gpa hlt => ?_⟩
  · simp only [EptPage.update, nvcEptUpdatePdeMemoryType, hsplit, Outcome.ok_bind, Pointer.isNull,
      Pointer.deref, hindex, hlarge, if_true]
    rfl
  · refine (hwf'.leaf_update hlayout hi hlarge hlt).trans ?_
    rw [leaf_allocator, hwf.leaf_splitHuge hgpa hhuge hunused hinRange hlt]
    rfl

end Large

section Huge

variable {eptm : EptManager} {memoryType : BitVec 8} {force : Bool} {k frame : Nat}

theorem page1gbCount_page1gbMult (k : Nat) : page1gbCount (page1gbMult k) = k := by
  simp [page1gbCount, page1gbMult]

/-- What an update of a 1 GiB page is, by what the page is. -/
theorem nvcEptUpdatePdpteMemoryType_eq (hk : k < 512 * 512) :
    eptm.nvcEptUpdatePdpteMemoryType memoryType force (page1gbMult k) =
      if (eptm.pdpt k).large then
        .ok (true, eptm.setPdpte k ((eptm.pdpt k).updateMemoryType memoryType force))
      else
        forEntries
          (fun eptm i => eptm.nvcEptUpdatePdeMemoryType memoryType force (page2mbMult (512 * k + i)))
          (List.range 512) eptm := by
  have hgpa : page1gbMult k < 2 ^ 48 := by
    unfold page1gbMult
    omega
  have hpdpte := pdpte_of_lt hgpa eptm
  rw [page1gbCount_page1gbMult] at hpdpte
  simp only [nvcEptUpdatePdpteMemoryType, page1gbCount_page1gbMult, hpdpte, Outcome.ok_bind,
    page1gbMult_add]
  rfl

theorem propagates_huge_of_huge (hk : k < 512 * 512) (hhuge : (eptm.pdpt k).large = true) :
    eptm.Propagates (.huge k) memoryType force := by
  refine ⟨_, (nvcEptUpdatePdpteMemoryType_eq hk).trans (if_pos hhuge), fun gpa _ => ?_⟩
  unfold leaf
  rw [walk_setPdpte (by rw [large_updateMemoryType, hhuge])]
  by_cases hpage : page1gbCount gpa = k
  · subst hpage
    simp only [if_true, EptPage.Contains, Wf.walk_of_huge hhuge, leaf_updateMemoryType]
  · simp only [EptPage.Contains, hpage, if_false]

/-- The tables when the update has visited some of the 2 MiB pages. -/
structure Visited (eptm : EptManager) (memoryType : BitVec 8) (force : Bool) (k frame : Nat)
    (done : List Nat) (s : EptManager) : Prop where
  wf : s.Wf
  layout : s.layout = eptm.layout
  large : ∀ i, (s.memory frame i).large = (eptm.memory frame i).large
  leaf : ∀ gpa < 2 ^ 48, s.leaf gpa =
    if ∃ i ∈ done, page2mbCount gpa = 512 * k + i then
      (eptm.leaf gpa).updateMemoryType memoryType force
    else eptm.leaf gpa

theorem Visited.step {done : List Nat} {s : EptManager} {i : Nat}
    (h : Visited eptm memoryType force k frame done s) (hframe : eptm.layout 1 k = some frame)
    (hi : i < 512) (hnew : i ∉ done) (hlarge : (s.memory frame i).large = true) :
    Visited eptm memoryType force k frame (done ++ [i])
      (s.modifyEntry frame i (·.updateMemoryType memoryType force)) := by
  rw [← h.layout] at hframe
  refine ⟨h.wf.update hframe hlarge, h.layout, fun j => ?_, fun gpa hgpa => ?_⟩
  · rw [large_update, h.large]
  · rw [h.wf.leaf_update hframe hi hlarge hgpa, h.leaf gpa hgpa]
    by_cases hpage : page2mbCount gpa = 512 * k + i
    · have hnot : ¬∃ j ∈ done, page2mbCount gpa = 512 * k + j := by
        rintro ⟨j, hj, hpage'⟩
        obtain rfl : j = i := by omega
        exact hnew hj
      rw [if_pos hpage, if_neg hnot, if_pos ⟨i, by simp, hpage⟩]
    · rw [if_neg hpage]
      simp only [List.mem_append, List.mem_singleton, or_and_right, exists_or, exists_eq_left, hpage,
        or_false]

theorem Visited.refl (hwf : eptm.Wf) : Visited eptm memoryType force k frame [] eptm :=
  ⟨hwf, rfl, fun _ => rfl, fun _ _ => by simp⟩

/-- A loop over whole 2 MiB pages comes to its end. -/
theorem Wf.propagates_of_forall (hwf : eptm.Wf) (hk : k < 512 * 512)
    (htable : (eptm.pdpt k).large = false) (hframe : eptm.layout 1 k = some frame)
    (hlarge : ∀ i < 512, (eptm.memory frame i).large = true) :
    eptm.Propagates (.huge k) memoryType force := by
  have hstep : ∀ done i left (s : EptManager), List.range 512 = done ++ i :: left →
      Visited eptm memoryType force k frame done s →
      ∃ s', s.nvcEptUpdatePdeMemoryType memoryType force (page2mbMult (512 * k + i)) =
          .ok (true, s') ∧
        Visited eptm memoryType force k frame (done ++ [i]) s' := by
    intro done i left s hsplit hvisited
    have hi : i < 512 := List.mem_range.mp (hsplit ▸ by simp)
    have hnew : i ∉ done := by
      have hnodup := List.nodup_range (n := 512)
      rw [hsplit, List.nodup_append] at hnodup
      exact fun hdone => hnodup.2.2 i hdone i List.mem_cons_self rfl
    have hwhole : (s.memory frame i).large = true := by rw [hvisited.large, hlarge i hi]
    refine ⟨_, (nvcEptUpdatePdeMemoryType_of_table hvisited.wf hk ?_ hi).1 hwhole,
      hvisited.step hframe hi hnew hwhole⟩
    rw [hvisited.layout, hframe]
  obtain ⟨eptm', hrun, hvisited⟩ := forEntries_prefix hstep (.refl hwf)
  refine ⟨eptm', ?_, fun gpa hgpa => ?_⟩
  · rw [EptPage.update, nvcEptUpdatePdpteMemoryType_eq hk, if_neg (by rw [htable]; decide)]
    exact hrun
  · rw [hvisited.leaf gpa hgpa]
    refine if_congr ⟨?_, fun hpage => ?_⟩ rfl rfl
    · rintro ⟨i, hi, hpage⟩
      exact (page1gbCount_of_page2mbCount (List.mem_range.mp hi) hpage).1
    · exact ⟨_, List.mem_range.mpr (pageEntryIndex64_lt _), hpage ▸ page2mbCount_eq gpa⟩

/-- Every step of a loop that comes to its end found a whole 2 MiB page. -/
theorem Wf.forall_of_propagates (hwf : eptm.Wf) (hk : k < 512 * 512)
    (htable : (eptm.pdpt k).large = false) (hframe : eptm.layout 1 k = some frame)
    (h : eptm.Propagates (.huge k) memoryType force) :
    ∀ i < 512, (eptm.memory frame i).large = true := by
  obtain ⟨eptm', hrun, -⟩ := h
  rw [EptPage.update, nvcEptUpdatePdpteMemoryType_eq hk, if_neg (by rw [htable]; decide)] at hrun
  have hstep : ∀ (s : EptManager) i (s' : EptManager), i ∈ List.range 512 →
      (s.Wf ∧ s.layout = eptm.layout ∧
        ∀ j, (s.memory frame j).large = (eptm.memory frame j).large) →
      s.nvcEptUpdatePdeMemoryType memoryType force (page2mbMult (512 * k + i)) = .ok (true, s') →
      (s'.Wf ∧ s'.layout = eptm.layout ∧
        ∀ j, (s'.memory frame j).large = (eptm.memory frame j).large) ∧
      (eptm.memory frame i).large = true := by
    rintro s i s' hmem ⟨hwf', hlayout, hsame⟩ hstep
    rw [← hlayout] at hframe
    have hupdate := @nvcEptUpdatePdeMemoryType_of_table s memoryType force k i frame hwf' hk hframe
      (List.mem_range.mp hmem)
    have hlarge : (s.memory frame i).large = true := by
      by_contra hnot
      exact hupdate.2 (Bool.eq_false_iff.mpr hnot) s' hstep
    obtain ⟨-, rfl⟩ := Prod.mk.inj (Except.ok.inj ((hupdate.1 hlarge).symm.trans hstep))
    refine ⟨⟨hwf'.update hframe hlarge, hlayout, fun j => ?_⟩, ?_⟩
    · rw [large_update, hsame]
    · rw [← hsame, hlarge]
  have hvisited := forall_of_forEntries hstep ⟨hwf, rfl, fun _ => rfl⟩ hrun
  exact fun i hi => hvisited i (List.mem_range.mpr hi)

theorem unsplit_huge_iff (hwf : eptm.Wf) (hk : k < 512 * 512)
    (hframe : eptm.layout 1 k = some frame) :
    eptm.Unsplit (.huge k) ↔ ∀ i < 512, (eptm.memory frame i).large = true := by
  constructor
  · intro hunsplit i hi
    refine (unsplit_large_iff hwf hk hframe hi).mp fun gpa hgpa hpage => hunsplit gpa hgpa ?_
    exact (page1gbCount_of_page2mbCount hi hpage).1
  · rintro hlarge gpa hgpa rfl
    have hi := pageEntryIndex64_lt (page2mbCount gpa)
    exact (unsplit_large_iff hwf hk hframe hi).mpr (hlarge _ hi) gpa hgpa (page2mbCount_eq gpa)

end Huge

/-- An update of the memory type of a page propagates exactly when none of the pages below is split
into 4 KiB pages. -/
theorem Wf.propagates_iff_unsplit {eptm : EptManager} {page : EptPage} {memoryType : BitVec 8} {force : Bool}
    (hwf : eptm.Wf) (hpage : page.InRange) (hfresh : eptm.allocator.Fresh eptm.Used)
    (hgenerous : page.Allocates eptm → eptm.allocator.Generous 1) :
    eptm.Propagates page memoryType force ↔ eptm.Unsplit page := by
  cases page with
  | large r =>
      have hk : r / 512 < 512 * 512 := by
        simp only [EptPage.InRange] at hpage
        omega
      have hi : r % 512 < 512 := Nat.mod_lt _ (by decide)
      rw [show r = 512 * (r / 512) + r % 512 by omega]
      cases hhuge : (eptm.pdpt (r / 512)).large with
      | true =>
          refine iff_of_true (propagates_large_of_huge hwf hk hi hhuge hfresh (hgenerous hhuge))
            (unsplit_of_huge fun gpa hpage => ?_)
          rw [(page1gbCount_of_page2mbCount hi hpage).1, hhuge]
      | false =>
          obtain ⟨frame, hframe, -⟩ := hwf.table _ hk hhuge
          exact propagates_large_of_table hwf hk hframe hi
  | huge k =>
      cases hhuge : (eptm.pdpt k).large with
      | true =>
          refine iff_of_true (propagates_huge_of_huge hpage hhuge) (unsplit_of_huge ?_)
          rintro gpa rfl
          exact hhuge
      | false =>
          obtain ⟨frame, hframe, -⟩ := hwf.table _ hpage hhuge
          rw [unsplit_huge_iff hwf hpage hframe]
          exact ⟨hwf.forall_of_propagates hpage hhuge hframe,
            hwf.propagates_of_forall hpage hhuge hframe⟩

end EptManager

end NoirVisor
