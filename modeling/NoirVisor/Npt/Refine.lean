import NoirVisor.Npt.Entries
import NoirVisor.Npt.Run

/-!
# The manager and the abstract map

What each operation is meant to do to the abstract map, and the condition on the state before it
under which it does. The reserved bits of every entry stay clear along the way.
-/

namespace NoirVisor

namespace NptManager

variable {nptm nptm' : NptManager} {used : Nat → Prop} {gpa address : Nat} {d t : NptDescriptor}

/-! ### Walks to each kind of leaf -/

theorem Wf.walk_eq (hwf : nptm.Wf) (haddress : address < 2 ^ 48) :
    nptm.walk address =
      (Radix.walk nptFormat nptm.memory 2 (nptm.pdpteFrame (page1gbCount address)) address).map
        (Radix.Walk.under (identityPml4e nptm.pdpt (Radix.index 3 address))) := by
  have hentry : nptm.memory (page4kbCount nptm.ncr3) (Radix.index (2 + 1) address) =
      identityPml4e nptm.pdpt (Radix.index 3 address) := hwf.pml4e _ (Radix.index_lt _ _)
  have hchild := hwf.linked 2 _ _ _ (layout_root haddress) (Radix.index_lt (2 + 1) address)
    (by rw [hentry]; rfl)
  rw [← Radix.region_eq, layout_region_two haddress, hentry] at hchild
  unfold walk
  rw [Radix.walk_succ_of_table (by rw [hentry]; rfl) (by rw [hentry]; rfl), hentry,
    ← Option.some.inj hchild]

/-- The walk of an address ends at an entry of some level. -/
def LeafAt (nptm : NptManager) (address : Nat) (entry : NptEntry) (level : Nat) : Prop :=
  ∃ walk, nptm.walk address = some walk ∧ walk.leaf = entry ∧ walk.level = level

theorem Wf.leafAt_pdpte (hwf : nptm.Wf) (haddress : address < 2 ^ 48)
    (hpsize : (nptm.pdpte (page1gbCount address)).psize = true) :
    nptm.LeafAt address (nptm.pdpte (page1gbCount address)) 2 := by
  have hleaf : nptFormat.leaf (1 + 1) (nptm.pdpte (page1gbCount address)) = true := by
    simpa [nptFormat] using hpsize
  rw [LeafAt, hwf.walk_eq haddress, Radix.walk_succ_of_leaf hleaf]
  exact ⟨_, rfl, rfl, rfl⟩

theorem Wf.walk_pde (hwf : nptm.Wf) (haddress : address < 2 ^ 48)
    (hpresent : (nptm.pdpte (page1gbCount address)).present = true)
    (hpsize : (nptm.pdpte (page1gbCount address)).psize = false) {f : Nat}
    (hd : nptm.layout 1 (page1gbCount address) = some f) :
    Radix.walk nptFormat nptm.memory 2 (nptm.pdpteFrame (page1gbCount address)) address =
      (Radix.walk nptFormat nptm.memory 1 f address).map
        (Radix.Walk.under (nptm.pdpte (page1gbCount address))) := by
  have hentry : nptm.memory (nptm.pdpteFrame (page1gbCount address))
      (Radix.index (1 + 1) address) = nptm.pdpte (page1gbCount address) := rfl
  have hleaf : nptFormat.leaf (1 + 1) (nptm.pdpte (page1gbCount address)) = false := by
    simpa [nptFormat] using hpsize
  have hchild := hwf.linked 1 _ _ _ (layout_region_two haddress) (Radix.index_lt (1 + 1) address)
    (by rw [hentry, Radix.Format.isTable, hleaf]; simpa [nptFormat] using hpresent)
  rw [← Radix.region_eq, region_two, hd, hentry] at hchild
  rw [Radix.walk_succ_of_table (by rw [hentry, hleaf]) (by rw [hentry]; exact hpresent), hentry,
    ← Option.some.inj hchild]

theorem Wf.leafAt_pde (hwf : nptm.Wf) (haddress : address < 2 ^ 48)
    (hpresent : (nptm.pdpte (page1gbCount address)).present = true)
    (hpsize : (nptm.pdpte (page1gbCount address)).psize = false) {f : Nat}
    (hd : nptm.layout 1 (page1gbCount address) = some f)
    (hlarge : (nptm.memory f (Radix.index 1 address)).psize = true) :
    nptm.LeafAt address (nptm.memory f (Radix.index 1 address)) 1 := by
  have hleaf : nptFormat.leaf (0 + 1) (nptm.memory f (Radix.index (0 + 1) address)) = true := by
    simpa [nptFormat] using hlarge
  rw [LeafAt, hwf.walk_eq haddress, hwf.walk_pde haddress hpresent hpsize hd,
    Radix.walk_succ_of_leaf hleaf]
  exact ⟨_, rfl, rfl, rfl⟩

theorem Wf.leafAt_pte (hwf : nptm.Wf) (haddress : address < 2 ^ 48)
    (hpresent : (nptm.pdpte (page1gbCount address)).present = true)
    (hpsize : (nptm.pdpte (page1gbCount address)).psize = false) {f g : Nat}
    (hd : nptm.layout 1 (page1gbCount address) = some f)
    (hpde : (nptm.memory f (Radix.index 1 address)).present = true)
    (htable : (nptm.memory f (Radix.index 1 address)).psize = false)
    (ht : nptm.layout 0 (page2mbCount address) = some g) :
    nptm.LeafAt address (nptm.memory g (Radix.index 0 address)) 0 := by
  have hleaf : nptFormat.leaf (0 + 1) (nptm.memory f (Radix.index (0 + 1) address)) = false := by
    simpa [nptFormat] using htable
  have hd' : nptm.layout 1 (Radix.region (1 + 1) address) = some f := hd
  have hchild := hwf.linked 0 _ _ _ hd' (Radix.index_lt (0 + 1) address)
    (by rw [Radix.Format.isTable, hleaf]; simpa [nptFormat] using hpde)
  rw [← Radix.region_eq, region_one, ht] at hchild
  rw [LeafAt, hwf.walk_eq haddress, hwf.walk_pde haddress hpresent hpsize hd,
    Radix.walk_succ_of_table hleaf hpde, ← Option.some.inj hchild]
  exact ⟨_, rfl, rfl, rfl⟩

/-! ### Reserved bits -/

/-- No entry of any table has a reserved bit set. -/
def Clean (nptm : NptManager) : Prop :=
  nptm.Entries fun level _ _ entry => entry.ReservedClear level

theorem reservedClear_setPermission {level : Nat} {entry : NptEntry} {r w x : Bool} :
    (entry.setPermission r w x).ReservedClear level ↔ entry.ReservedClear level := Iff.rfl

theorem reservedClear_toTable {level : Nat} {entry : NptEntry} {phys : Nat}
    (h : entry.ReservedClear level) : (entry.toTable phys).ReservedClear level := by
  refine ⟨rfl, h.2.1, ?_⟩
  simp [NptEntry.toTable, NptEntry.setBase, NptEntry.clearReserved1]

theorem Built.clean (h : nptm.Built) : nptm.Clean := by
  intro level r frame i hframe hi
  rcases h.layout hframe with ⟨rfl, hr, rfl⟩ | ⟨rfl, rfl, rfl⟩
  · rw [h.pdpte hr]
    refine ⟨rfl, rfl, ?_⟩
    simp [identityPdpte, NptEntry.setHugePageBase]
  · rw [h.pml4e]
    exact ⟨rfl, rfl, by simp [identityPml4e, NptEntry.setBase]⟩

theorem splitClosed_reservedClear :
    SplitClosed fun level _ _ entry => entry.ReservedClear level where
  large _ _ _ _ := ⟨rfl, rfl, by simp [splitLargeEntry, NptEntry.setLargePageBase]⟩
  page _ _ _ _ := ⟨rfl, rfl, trivial⟩
  table _ _ _ _ _ _ := reservedClear_toTable

theorem reservedClear_tableEntry {level : Nat} {entry : NptEntry} {phys : Nat} {r w x : Bool}
    (h : entry.ReservedClear level) : (tableEntry phys r w x entry).ReservedClear level := by
  rw [tableEntry, reservedClear_setPermission]
  exact reservedClear_toTable h

theorem reservedClear_hugePdpte {entry : NptEntry} {hpa : Nat} {r w x : Bool}
    (h : entry.ReservedClear 2) (hbase : entry.base % 2 ^ 18 / 2 = 0) :
    (hugePdpte hpa r w x entry).ReservedClear 2 := by
  refine ⟨h.1, h.2.1, ?_⟩
  simp only [hugePdpte, NptEntry.setHugePageBase, NptEntry.setPermission]
  rw [if_neg (by decide), if_pos (by decide)]
  omega

theorem reservedClear_largePde {entry : NptEntry} {hpa : Nat} {r w x : Bool}
    (h : entry.ReservedClear 1) (hbase : entry.base % 2 ^ 9 / 2 = 0) :
    (largePde hpa r w x entry).ReservedClear 1 := by
  refine ⟨h.1, h.2.1, ?_⟩
  simp only [largePde, NptEntry.setLargePageBase, NptEntry.setPermission]
  rw [if_neg (by decide), if_pos (by decide)]
  omega

theorem reservedClear_pagePte {entry : NptEntry} {hpa : Nat} {r w x : Bool}
    (h : entry.ReservedClear 0) : (pagePte hpa r w x entry).ReservedClear 0 :=
  ⟨h.1, h.2.1, trivial⟩

/-! ### What each operation is meant to do -/

/-- The walk of an address leads to `hpa` by a leaf with the given rights, and past no entry with a
reserved bit set. -/
def Maps (nptm : NptManager) (address hpa : Nat) (r w x : Bool) : Prop :=
  ∃ walk, nptm.walk address = some walk ∧ leafTarget walk address = hpa ∧
    walk.leaf.present = r ∧ walk.leaf.write = w ∧ walk.leaf.noExecute = !x ∧
    ∀ i (h : i < walk.entries.length), walk.entries[i].ReservedClear (3 - i)

def SameOutside (nptm nptm' : NptManager) (level gpa : Nat) : Prop :=
  ∀ address < 2 ^ 48, Radix.region level address ≠ Radix.region level gpa →
    nptm'.view address = nptm.view address

/-- The page of `gpa` comes to map the page of the physical address `hpa`, and no other page
changes. -/
def MapsPage (nptm nptm' : NptManager) (level hpa gpa : Nat) (r w x : Bool) : Prop :=
  (hpa < 2 ^ 52 → ∀ address < 2 ^ 48, Radix.region level address = Radix.region level gpa →
    nptm'.Maps address
      (Radix.region level hpa * 2 ^ (12 + 9 * level) + address % 2 ^ (12 + 9 * level)) r w x) ∧
  nptm.SameOutside nptm' level gpa

end NptManager

/-- Pointing the entry of a page at a table names no page to map; it may change the rights of that
page's addresses and nothing else. -/
def NptOp.Refines (nptm nptm' : NptManager) : NptOp → Prop
  | updatePdpte hpa gpa r w x true _ => nptm.MapsPage nptm' 2 hpa gpa r w x
  | updatePdpte _ gpa _ _ _ false _ => nptm.SameOutside nptm' 2 gpa
  | updatePde hpa gpa r w x true _ => nptm.MapsPage nptm' 1 hpa gpa r w x
  | updatePde _ gpa _ _ _ false _ => nptm.SameOutside nptm' 1 gpa
  | updatePte hpa gpa r w x _ => nptm.MapsPage nptm' 0 hpa gpa r w x
  | splitPdpte _ _ | splitPde _ _ => ∀ address < 2 ^ 48, nptm'.view address = nptm.view address

/-- The condition on the state. A page update overwrites no table base that would stay behind in
the reserved bits of the new entry, and is reached through present entries. A split does not bring
back an old table or lose a target. -/
def NptOp.Sound (nptm : NptManager) : NptOp → Prop
  | updatePdpte _ gpa _ _ _ true _ => (nptm.pdpte (page1gbCount gpa)).base % 2 ^ 18 / 2 = 0
  | updatePdpte _ _ _ _ _ false _ => True
  | updatePde _ gpa _ _ _ true _ =>
      nptm.PdpteSplittable gpa ∧ (nptm.pdpte (page1gbCount gpa)).present = true ∧
        ∀ d, nptm.findPde gpa = some d → (nptm.pdeOf d gpa).base % 2 ^ 9 / 2 = 0
  | updatePde _ gpa _ _ _ false _ => nptm.PdpteSplittable gpa
  | updatePte _ gpa _ _ _ _ =>
      nptm.PdpteSplittable gpa ∧ nptm.PdeSplittable gpa ∧
        (nptm.pdpte (page1gbCount gpa)).present = true ∧
        ∀ d, nptm.findPde gpa = some d → (nptm.pdeOf d gpa).present = true
  | splitPdpte gpa _ => nptm.PdpteSplittable gpa
  | splitPde gpa _ => nptm.PdpteSplittable gpa ∧ nptm.PdeSplittable gpa

namespace NptManager

variable {nptm nptm' : NptManager} {used : Nat → Prop} {hpa gpa address : Nat}
  {d t : NptDescriptor} {r w x b alloc : Bool}

theorem Wf.maps_of_leafAt (hwf : nptm.Wf) (hclean : nptm.Clean) (haddress : address < 2 ^ 48)
    {entry : NptEntry} {level : Nat} (hleaf : nptm.LeafAt address entry level) :
    nptm.Maps address (entry.pageBase level * 2 ^ (12 + 9 * level) +
      address % 2 ^ (12 + 9 * level)) entry.present entry.write !entry.noExecute := by
  obtain ⟨walk, hwalk, rfl, rfl⟩ := hleaf
  refine ⟨walk, hwalk, rfl, rfl, rfl, by simp, ?_⟩
  exact Radix.walk_forall hwf.linked (layout_root haddress) hclean hwalk

theorem pageBase_hugePdpte {entry : NptEntry} (hhpa : hpa < 2 ^ 52) :
    (hugePdpte hpa r w x entry).pageBase 2 = Radix.region 2 hpa := by
  simp only [hugePdpte, NptEntry.setHugePageBase, NptEntry.setPermission, NptEntry.pageBase,
    region_two, page1gbCount]
  omega

theorem pageBase_largePde {entry : NptEntry} (hhpa : hpa < 2 ^ 52) :
    (largePde hpa r w x entry).pageBase 1 = Radix.region 1 hpa := by
  simp only [largePde, NptEntry.setLargePageBase, NptEntry.setPermission, NptEntry.pageBase,
    region_one, page2mbCount]
  omega

theorem pageBase_pagePte {entry : NptEntry} (hhpa : hpa < 2 ^ 52) :
    (pagePte hpa r w x entry).pageBase 0 = Radix.region 0 hpa := by
  simp only [pagePte, NptEntry.setBase, NptEntry.setPermission, NptEntry.pageBase,
    region_zero, page4kbCount]
  omega

/-- Writing the entry of the page of `gpa`, once the entries above it are split. -/
theorem Clean.mapsPage {split : NptManager} {level table frame i : Nat}
    {f : NptEntry → NptEntry} {entry : NptEntry} (hclean : split.Clean) (hwf : split.Wf)
    (htable : split.layout level table = some frame)
    (hregion : Radix.region level gpa = 512 * table + i)
    (hentry : f (split.memory frame i) = entry) (hclear : entry.ReservedClear level)
    (hbase : hpa < 2 ^ 52 → entry.pageBase level = Radix.region level hpa)
    (hrights : entry.present = r ∧ entry.write = w ∧ entry.noExecute = !x)
    (hwf' : (split.modifyEntry frame i f).Wf)
    (hleaf : ∀ address < 2 ^ 48, Radix.region level address = Radix.region level gpa →
      (split.modifyEntry frame i f).LeafAt address entry level)
    (houtside : nptm.SameOutside split level gpa) :
    nptm.MapsPage (split.modifyEntry frame i f) level hpa gpa r w x ∧
      (split.modifyEntry frame i f).Clean := by
  subst hentry
  have hclean' : Clean _ := hclean.modifyEntry hwf htable hclear
  obtain ⟨hr, hw, hx⟩ := hrights
  refine ⟨⟨fun hhpa address haddress hpage => ?_, fun address haddress hpage => ?_⟩, hclean'⟩
  · have hmaps := hwf'.maps_of_leafAt hclean' haddress (hleaf address haddress hpage)
    rwa [hbase hhpa, hr, hw, hx, Bool.not_not] at hmaps
  · rw [← houtside address haddress hpage]
    refine view_eq_of_walk (walk_modifyEntry_of_ne hwf haddress htable ?_)
    rwa [← hregion]

theorem nvcNptUpdatePdpte_refines (hready : nptm.Ready used) (hclean : nptm.Clean)
    (hbase : (nptm.pdpte (page1gbCount gpa)).base % 2 ^ 18 / 2 = 0)
    (h : nvcNptUpdatePdpte nptm hpa gpa r w x true alloc = .ok (b, nptm')) :
    nptm.MapsPage nptm' 2 hpa gpa r w x ∧ nptm'.Clean := by
  obtain ⟨-, ⟨-, used', -, hready'⟩, hgpa, rfl⟩ := nvcNptUpdatePdpte_huge hready h
  have htable : nptm.layout 2 (page1gbCount gpa / 512) = _ := layout_pdpte hgpa
  have hold := hclean 2 _ _ (page1gbCount gpa % 512) htable (Nat.mod_lt _ (by decide))
  refine hclean.mapsPage hready.wf htable (Nat.div_add_mod _ _).symm rfl
    (reservedClear_hugePdpte hold hbase) pageBase_hugePdpte ⟨rfl, rfl, rfl⟩ hready'.wf
    (fun address haddress hpage => ?_) fun _ _ _ => rfl
  rw [region_two, region_two] at hpage
  have hentry := Radix.Frames.set_self nptm.memory (nptm.pdpteFrame (page1gbCount gpa))
    (page1gbCount gpa % 512) (hugePdpte hpa r w x (nptm.pdpte (page1gbCount gpa)))
  rw [← hpage] at hentry ⊢
  have hleaf := hready'.wf.leafAt_pdpte haddress
  rw [← hpage] at hleaf
  exact hentry ▸ hleaf (congrArg NptEntry.psize hentry)

theorem nvcNptUpdatePde_refines (hready : nptm.Ready used) (hclean : nptm.Clean)
    (hsplittable : nptm.PdpteSplittable gpa)
    (hpresent : (nptm.pdpte (page1gbCount gpa)).present = true)
    (hbase : ∀ d, nptm.findPde gpa = some d → (nptm.pdeOf d gpa).base % 2 ^ 9 / 2 = 0)
    (h : nvcNptUpdatePde nptm hpa gpa r w x true alloc = .ok (b, nptm')) :
    nptm.MapsPage nptm' 1 hpa gpa r w x ∧ nptm'.Clean := by
  obtain ⟨-, ⟨-, used', -, hready'⟩, d, split, hsplit, rfl⟩ := nvcNptUpdatePde_large hready h
  have hwf := hsplit.wf hready.wf
  have htable := hsplit.layout hready.wf
  have hclean' : Clean _ := hsplit.entries hready.wf splitClosed_reservedClear hclean
  have hindex : pageEntryIndex64 (page2mbCount gpa) < 512 := Nat.mod_lt _ (by decide)
  have hold := hclean' 1 _ _ _ htable hindex
  have hbase' : (split.pdeOf d gpa).base % 2 ^ 9 / 2 = 0 := by
    cases hfind : nptm.findPde gpa with
    | some d' =>
        obtain rfl := hsplit.eq_of_findPde hfind
        rw [hsplit.pdeOf_of_found hready.wf hfind]
        exact hbase _ hfind
    | none =>
        rw [hsplit.pdeOf_of_none hready.wf hfind]
        simp [splitLargeEntry, NptEntry.setLargePageBase]
  refine hclean'.mapsPage hwf htable (pde_region gpa).symm rfl
    (reservedClear_largePde hold hbase') pageBase_largePde ⟨rfl, rfl, rfl⟩ hready'.wf
    (fun address haddress hpage => ?_) fun address haddress _ =>
      hsplit.view hready.wf hsplittable haddress
  have hgb := page1gbCount_of_region_one hpage
  have hpdpte : (split.modifyEntry d.frame (pageEntryIndex64 (page2mbCount gpa))
      (largePde hpa r w x)).pdpte (page1gbCount gpa) =
        (nptm.pdpte (page1gbCount gpa)).toTable d.phys := by
    rw [← hsplit.pdpte]
    refine Radix.Frames.set_of_frame_ne fun heq => ?_
    have htop : split.layout 2 (page1gbCount gpa / 512) = _ := layout_pdpte hsplit.1
    have := (hwf.disjoint _ _ _ _ _ htable (htop.trans (congrArg some heq))).1
    omega
  have hentry := Radix.Frames.set_self split.memory d.frame (pageEntryIndex64 (page2mbCount gpa))
    (largePde hpa r w x (split.pdeOf d gpa))
  have hat : Radix.index 1 address = pageEntryIndex64 (page2mbCount gpa) := by
    rw [Radix.index, hpage]
    rfl
  have hleaf := hready'.wf.leafAt_pde haddress (hgb ▸ hpdpte ▸ hpresent) (hgb ▸ hpdpte ▸ rfl)
    (hgb ▸ htable)
  rw [hat] at hleaf
  exact hentry ▸ hleaf (congrArg NptEntry.psize hentry)

theorem nvcNptUpdatePte_refines (hready : nptm.Ready used) (hclean : nptm.Clean)
    (hpdpteSplittable : nptm.PdpteSplittable gpa) (hpdeSplittable : nptm.PdeSplittable gpa)
    (hpresent : (nptm.pdpte (page1gbCount gpa)).present = true)
    (hpresentPde : ∀ d, nptm.findPde gpa = some d → (nptm.pdeOf d gpa).present = true)
    (h : nvcNptUpdatePte nptm hpa gpa r w x alloc = .ok (b, nptm')) :
    nptm.MapsPage nptm' 0 hpa gpa r w x ∧ nptm'.Clean := by
  obtain ⟨-, ⟨-, used', -, hready'⟩, d, t, split, hsplit, rfl⟩ := nvcNptUpdatePte_ok hready h
  have hwf := hsplit.wf hready.wf
  have hd := hsplit.layout_pde hready.wf
  have ht := hsplit.layout_pte hready.wf
  have hclean' : Clean _ := hsplit.entries hready.wf splitClosed_reservedClear hclean
  have hindex : pageEntryIndex64 (page4kbCount gpa) < 512 := Nat.mod_lt _ (by decide)
  refine hclean'.mapsPage hwf ht (pte_region gpa).symm rfl
    (reservedClear_pagePte (hclean' 0 _ _ _ ht hindex)) pageBase_pagePte ⟨rfl, rfl, rfl⟩
    hready'.wf (fun address haddress hpage => ?_) fun address haddress _ =>
      hsplit.view hready.wf hpdpteSplittable hpdeSplittable haddress
  have hmb := page2mbCount_of_region_zero hpage
  have hgb := page1gbCount_of_page2mbCount hmb
  have hpdpte : (split.modifyEntry t.frame (pageEntryIndex64 (page4kbCount gpa))
      (pagePte hpa r w x)).pdpte (page1gbCount gpa) =
        (nptm.pdpte (page1gbCount gpa)).toTable d.phys := by
    rw [← hsplit.pdpte hready.wf]
    refine Radix.Frames.set_of_frame_ne fun heq => ?_
    have htop : split.layout 2 (page1gbCount gpa / 512) = _ := layout_pdpte hsplit.inRange
    have := (hwf.disjoint _ _ _ _ _ ht (htop.trans (congrArg some heq))).1
    omega
  -- The PDE above was present before, or has just been made with every right.
  have hpde : ∃ entry : NptEntry, entry.present = true ∧
      (split.modifyEntry t.frame (pageEntryIndex64 (page4kbCount gpa))
        (pagePte hpa r w x)).memory d.frame (Radix.index 1 address) = entry.toTable t.phys := by
    obtain ⟨linked, hlinked, hpdeOf⟩ := hsplit.pdeOf hready.wf
    refine ⟨linked.pdeOf d gpa, ?_, ?_⟩
    · cases hfind : nptm.findPde gpa with
      | some d' =>
          obtain rfl := hlinked.eq_of_findPde hfind
          rw [hlinked.pdeOf_of_found hready.wf hfind]
          exact hpresentPde _ hfind
      | none =>
          rw [hlinked.pdeOf_of_none hready.wf hfind]
          rfl
    · rw [← hpdeOf, Radix.index, region_one, hmb]
      refine Radix.Frames.set_of_frame_ne fun heq => ?_
      have := (hwf.disjoint _ _ _ _ _ ht (heq ▸ hd)).1
      omega
  obtain ⟨entry, hentryPresent, hentryPde⟩ := hpde
  have hentry := Radix.Frames.set_self split.memory t.frame (pageEntryIndex64 (page4kbCount gpa))
    (pagePte hpa r w x (split.memory t.frame (pageEntryIndex64 (page4kbCount gpa))))
  have hat : Radix.index 0 address = pageEntryIndex64 (page4kbCount gpa) := by
    rw [Radix.index, hpage]
    rfl
  have hleaf := hready'.wf.leafAt_pte haddress (hgb ▸ hpdpte ▸ hpresent) (hgb ▸ hpdpte ▸ rfl)
    (hgb ▸ hd) (hentryPde ▸ hentryPresent) (hentryPde ▸ rfl) (hmb ▸ ht)
  rw [hat] at hleaf
  exact hentry ▸ hleaf

theorem nvcNptUpdatePdpte_outside (hready : nptm.Ready used) (hclean : nptm.Clean)
    (h : nvcNptUpdatePdpte nptm hpa gpa r w x false alloc = .ok (b, nptm')) :
    nptm.SameOutside nptm' 2 gpa ∧ nptm'.Clean := by
  obtain ⟨-, -, d, split, hsplit, rfl⟩ := nvcNptUpdatePdpte_table hready h
  have hwf := hsplit.wf hready.wf
  have hclean' : Clean _ := hsplit.entries hready.wf splitClosed_reservedClear hclean
  have htable : split.layout 2 (page1gbCount gpa / 512) = _ := layout_pdpte hsplit.1
  have hold := hclean' 2 _ _ (page1gbCount gpa % 512) htable (Nat.mod_lt _ (by decide))
  refine ⟨fun address haddress hpage => ?_, hclean'.modifyEntry hwf htable
    (reservedClear_tableEntry hold)⟩
  rw [← view_eq_of_walk (hsplit.walk_of_ne hready.wf haddress hpage)]
  refine view_eq_of_walk (walk_modifyEntry_of_ne hwf haddress htable ?_)
  rwa [Nat.div_add_mod]

theorem nvcNptUpdatePde_outside (hready : nptm.Ready used) (hclean : nptm.Clean)
    (hsplittable : nptm.PdpteSplittable gpa)
    (h : nvcNptUpdatePde nptm hpa gpa r w x false alloc = .ok (b, nptm')) :
    nptm.SameOutside nptm' 1 gpa ∧ nptm'.Clean := by
  obtain ⟨-, -, d, t, linked, split, hsplit, hsplitPde, rfl⟩ := nvcNptUpdatePde_table hready h
  have hlinked := hsplit.wf hready.wf
  have hwf := hsplitPde.wf hlinked
  have hclean' : Clean _ := hsplitPde.entries hlinked splitClosed_reservedClear
    (hsplit.entries hready.wf splitClosed_reservedClear hclean)
  have htable := hsplitPde.layout_pde hlinked
  have hindex : pageEntryIndex64 (page2mbCount gpa) < 512 := Nat.mod_lt _ (by decide)
  refine ⟨fun address haddress hpage => ?_, hclean'.modifyEntry hwf htable
    (reservedClear_tableEntry (hclean' 1 _ _ _ htable hindex))⟩
  -- The second split of the PDPTE finds it split.
  obtain ⟨again, hagain, hwalk⟩ := hsplitPde.walk_of_ne hlinked haddress hpage
  obtain ⟨allocator, rfl⟩ := hagain.eq_of_pdpte hsplit.findPde hsplit.pdpte
  rw [← hsplit.view hready.wf hsplittable haddress]
  refine view_eq_of_walk (Eq.trans ?_ hwalk)
  refine walk_modifyEntry_of_ne hwf haddress htable ?_
  rwa [pde_region]

theorem run_refines {op : NptOp} (hready : nptm.Ready used) (hclean : nptm.Clean)
    (hsound : op.Sound nptm) (h : op.run nptm = .ok (b, nptm')) :
    op.Refines nptm nptm' ∧ nptm'.Clean := by
  cases op with
  | updatePdpte hpa gpa r w x huge alloc =>
      change nvcNptUpdatePdpte nptm hpa gpa r w x huge alloc = _ at h
      cases huge with
      | true => exact nvcNptUpdatePdpte_refines hready hclean hsound h
      | false => exact nvcNptUpdatePdpte_outside hready hclean h
  | updatePde hpa gpa r w x large alloc =>
      change nvcNptUpdatePde nptm hpa gpa r w x large alloc = _ at h
      cases large with
      | true =>
          obtain ⟨hsplittable, hpresent, hbase⟩ := hsound
          exact nvcNptUpdatePde_refines hready hclean hsplittable hpresent hbase h
      | false => exact nvcNptUpdatePde_outside hready hclean hsound h
  | updatePte hpa gpa r w x alloc =>
      obtain ⟨hpdpte, hpde, hpresent, hpresentPde⟩ := hsound
      exact nvcNptUpdatePte_refines hready hclean hpdpte hpde hpresent hpresentPde h
  | splitPdpte gpa alloc =>
      simp only [NptOp.run, bind, Except.bind] at h
      split at h
      · cases h
      · rename_i result hrun
        obtain ⟨d, -, hsplit, -⟩ := nvcNptSplitPdpte_host hready hrun
        cases h
        exact ⟨fun address haddress => hsplit.view hready.wf hsound haddress,
          hsplit.entries hready.wf splitClosed_reservedClear hclean⟩
  | splitPde gpa alloc =>
      simp only [NptOp.run, bind, Except.bind] at h
      split at h
      · cases h
      · rename_i result hrun
        obtain ⟨d, t, -, hsplit, -⟩ := nvcNptSplitPde_host hready hrun
        cases h
        exact ⟨fun address haddress => hsplit.view hready.wf hsound.1 hsound.2 haddress,
          hsplit.entries hready.wf splitClosed_reservedClear hclean⟩

theorem Reached.clean (h : Reached (fun nptm op => op.Sound nptm) nptm) : nptm.Clean := by
  refine h.invariant (fun _ => Built.clean) fun s s' hreached hclean htaken => ?_
  obtain ⟨op, allocator, b, hsound, hfresh, hrun⟩ := htaken
  have hwf : s.Wf := Reached.wf hreached
  exact (run_refines (hwf.ready hfresh) hclean hsound hrun).2

/-- Every state reached by sound operations refines the abstract map under one more. -/
theorem reached_refines (h : Reached (fun nptm op => op.Sound nptm) nptm) (op : NptOp)
    (allocator : Allocator) (hsound : op.Sound nptm) (hfresh : allocator.Fresh nptm.Used)
    (hrun : op.run { nptm with allocator } = .ok (b, nptm')) : op.Refines nptm nptm' := by
  have hwf : nptm.Wf := Reached.wf h
  exact (run_refines (hwf.ready hfresh) h.clean hsound hrun).1

theorem identityMap_updatePte_refines : ∃ nptm',
    (NptOp.updatePte 0x5000 0x3000 true false true true).Refines identityMap nptm' := by
  refine ⟨_, reached_refines (.start identityMap_built) _ (.ofFrames [1024, 1025]) ?_
    (identityMap_fresh (by decide) (by decide)) rfl⟩
  refine ⟨fun _ _ => ⟨rfl, rfl⟩, fun _ d hd => ?_, rfl, fun d hd => ?_⟩ <;> cases hd

/-- Mapping a 1 GiB page that was split leaves the frame of its old table in reserved bits. -/
theorem not_forall_refines :
    ¬∀ (nptm nptm' : NptManager) (op : NptOp) (allocator : Allocator) (b : Bool),
      Reached (fun _ _ => True) nptm → allocator.Fresh nptm.Used →
      op.run { nptm with allocator } = .ok (b, nptm') → op.Refines nptm nptm' := by
  intro h
  have hsplit : Reached (fun _ _ => True) _ := .step (.start identityMap_built)
    ⟨.splitPdpte 0 true, .ofFrames [1024], true, trivial,
      identityMap_fresh (by decide) (by decide), rfl⟩
  obtain ⟨hmaps, -⟩ := h _ _ (.updatePdpte 0 0 true true true true true) _ true hsplit
    Allocator.fresh_nil rfl
  obtain ⟨walk, hwalk, -, -, -, -, hclear⟩ := hmaps (by decide) 0 (by decide) rfl
  obtain rfl := Option.some.inj (hwalk.symm.trans rfl)
  exact absurd (hclear 1 (by decide)) (by decide)

end NptManager

end NoirVisor
