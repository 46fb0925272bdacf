import NoirVisor.Io.Regions
import Mathlib.Data.List.Pairwise

/-!
# Which region serves an access

The lookup takes the first registered of the regions whose node holds the address, the end of the
node included. It is the right one unless a region begins where another ends, or the node is not as
long as its region.
-/

namespace NoirVisor

open HeightTree Transition

section

variable {R N : Type} (contains : R → Prop) (covers : N → Prop) [DecidablePred covers]
  (copied : R → N)

/-- The node found is that of the region that contains the address. -/
def Serves (regions : List R) (found : Option N) : Prop :=
  (∀ r ∈ regions, contains r → found = some (copied r)) ∧
    ((∀ r ∈ regions, ¬contains r) → found = none)

/-- The region that contains the address is the first whose node holds it. -/
structure ServedFirst (regions : List R) : Prop where
  held : ∀ r ∈ regions, contains r → covers (copied r)
  first : ∀ r, regions.find? (fun r => covers (copied r)) = some r →
    ∃ q ∈ regions, contains q ∧ copied q = copied r

variable {contains covers copied} {regions : List R} {found : Option N}

theorem serves_map_call_iff {α : Type} (a : α) :
    Serves contains (fun r => (copied r, a)) regions (found.map fun n => (n, a)) ↔
      Serves contains copied regions found := by
  unfold Serves
  cases found <;> simp

theorem serves_iff_first
    (hunique : ∀ r ∈ regions, ∀ q ∈ regions, contains r → contains q → r = q)
    (hheld : ∀ n, found = some n → covers n)
    (hfirst : (∀ r ∈ regions, contains r → covers (copied r)) →
      found = (regions.find? fun r => covers (copied r)).map copied) :
    Serves contains copied regions found ↔ ServedFirst contains covers copied regions := by
  constructor
  · rintro ⟨hserved, hnone⟩
    have hcovers : ∀ r ∈ regions, contains r → covers (copied r) :=
      fun r hr hcontains => hheld _ (hserved r hr hcontains)
    refine ⟨hcovers, fun r hr => ?_⟩
    have hfound : found = some (copied r) := by rw [hfirst hcovers, hr, Option.map_some]
    by_cases hexists : ∃ q ∈ regions, contains q
    · obtain ⟨q, hq, hcontains⟩ := hexists
      exact ⟨q, hq, hcontains, Option.some.inj ((hserved q hq hcontains).symm.trans hfound)⟩
    · have hempty := hnone fun q hq hcontains => hexists ⟨q, hq, hcontains⟩
      cases hempty.symm.trans hfound
  · rintro ⟨hcovers, hfirstContains⟩
    rw [hfirst hcovers]
    constructor
    · intro r hr hcontains
      obtain ⟨first, hfound⟩ : ∃ first, regions.find? (fun r => covers (copied r)) = some first :=
        Option.isSome_iff_exists.mp
          (List.find?_isSome.mpr ⟨r, hr, decide_eq_true (hcovers r hr hcontains)⟩)
      obtain ⟨q, hq, hcontains', heq⟩ := hfirstContains first hfound
      rw [hfound, Option.map_some, ← heq, hunique q hq r hr hcontains' hcontains]
    · intro hnone
      cases hfound : regions.find? fun r => covers (copied r) with
      | none => rfl
      | some first =>
        obtain ⟨q, hq, hcontains, -⟩ := hfirstContains first hfound
        exact absurd hcontains (hnone q hq)

end

section

variable {R N : Type} {compareFn : N → N → Int} {copied : R → N}

theorem registered_cons (request : Registration R) (requests : List (Registration R)) :
    registered (request :: requests) = registered [request] ++ registered requests := by
  unfold registered
  rw [← List.map_append, ← List.filter_append, List.singleton_append]

theorem exact_foldl {root : HeightTree N} (hexact : root.Exact) (nodes : List N) :
    (nodes.foldl (fun t n => t.graftBy (Precedes compareFn) n) root).Exact := by
  induction nodes generalizing root with
  | nil => exact hexact
  | cons n nodes ih => exact ih (hexact.graftBy n)

theorem registerRegion_of_room {root : HeightTree N} {request : Registration R}
    (hexact : root.Exact) (hroom : RoomFor compareFn copied root request) :
    (registerRegion compareFn copied request root).map Prod.snd =
      some (((registered [request]).map copied).foldl
        (fun t n => t.graftBy (Precedes compareFn) n) root) := by
  unfold registerRegion
  cases hallocated : request.allocated with
  | false => simp [registered, hallocated]
  | true =>
    rw [if_pos rfl, noirInsertAvlNode_of_level hexact (hroom hallocated)]
    simp [registered, hallocated]

/-- As long as there is room for every node, each is where the search for its region ends. -/
theorem registerAll_of_room {root : HeightTree N} {requests : List (Registration R)}
    (hexact : root.Exact)
    (hroom : Along (RoomFor compareFn copied) (registerNext (registerRegion compareFn copied)) root
      requests) :
    requests.foldlM (fun root request => (registerRegion compareFn copied request root).map Prod.snd)
        root =
      some (((registered requests).map copied).foldl
        (fun t n => t.graftBy (Precedes compareFn) n) root) := by
  induction requests generalizing root with
  | nil => rfl
  | cons request requests ih =>
    obtain ⟨hfirst, hrest⟩ := hroom
    have hregister := registerRegion_of_room hexact hfirst
    have hnext : registerNext (registerRegion compareFn copied) root request =
        ((registered [request]).map copied).foldl
          (fun t n => t.graftBy (Precedes compareFn) n) root := by
      unfold registerNext
      rw [hregister, Option.getD_some]
    rw [hnext] at hrest
    rw [List.foldlM_cons, hregister, registered_cons request requests, List.map_append,
      List.foldl_append]
    exact ih (exact_foldl hexact _) hrest

/-- The tree that a run of registrations builds, and what a search in it finds. -/
theorem search_registerAll {requests : List (Registration R)}
    (hroom : Along (RoomFor compareFn copied) (registerNext (registerRegion compareFn copied)) .null
      requests) :
    ∃ root, registerAll (registerRegion compareFn copied) requests = some root ∧
      ∀ side : N → Int, (∀ r ∈ registered requests, side (copied r) = 0 →
          ∀ q ∈ registered requests, Leads (Precedes compareFn) side (copied r) (copied q)) →
        root.search side =
          ((registered requests).find? fun r => side (copied r) = 0).map copied := by
  refine ⟨_, registerAll_of_room trivial hroom, fun side hleads => ?_⟩
  rw [search_foldl_graftBy, List.find?_map]
  · rfl
  · intro n hn hzero q hq
    obtain ⟨r, hr, rfl⟩ := List.mem_map.mp hn
    obtain ⟨p, hp, rfl⟩ := List.mem_map.mp hq
    exact hleads r hr hzero p hp

end

section

variable {η κ : Type}

namespace PioRegion

def Contains (pr : PioRegion η κ) (port : BitVec 16) : Prop :=
  pr.port.toNat ≤ port.toNat ∧ port.toNat < pr.port.toNat + pr.size.toNat

/-- The search ends at the node. -/
def Covers (node : PioRegion η κ) (port : BitVec 16) : Prop :=
  node.port.toNat ≤ port.toNat ∧ port.toNat ≤ node.port.toNat + node.size.toNat

def Apart (a b : PioRegion η κ) : Prop :=
  a.port.toNat + a.size.toNat ≤ b.port.toNat ∨ b.port.toNat + b.size.toNat ≤ a.port.toNat

instance (pr : PioRegion η κ) (port : BitVec 16) : Decidable (pr.Contains port) :=
  inferInstanceAs (Decidable (_ ∧ _))

instance (node : PioRegion η κ) (port : BitVec 16) : Decidable (node.Covers port) :=
  inferInstanceAs (Decidable (_ ∧ _))

instance (a b : PioRegion η κ) : Decidable (a.Apart b) := inferInstanceAs (Decidable (_ ∨ _))

instance : Std.Symm (@Apart η κ) := ⟨fun _ _ h => h.symm⟩

theorem eq_of_contains {regions : List (PioRegion η κ)} {port : BitVec 16}
    (h : regions.Pairwise Apart) : ∀ pr ∈ regions, ∀ q ∈ regions, pr.Contains port →
      q.Contains port → pr = q := by
  intro pr hpr q hq hcontains hcontains'
  by_contra hne
  have hapart := h.forall hpr hq hne
  unfold Contains at hcontains hcontains'
  unfold Apart at hapart
  omega

end PioRegion

namespace MmioRegion

def Contains (mr : MmioRegion η κ) (address : BitVec 64) : Prop :=
  mr.phys.toNat ≤ address.toNat ∧ address.toNat < mr.phys.toNat + mr.size.toNat

/-- The sum wraps at the top of the address space. -/
def Covers (node : MmioRegion η κ) (address : BitVec 64) : Prop :=
  node.phys.toNat ≤ address.toNat ∧ address.toNat ≤ (node.phys + node.size).toNat

def Apart (a b : MmioRegion η κ) : Prop :=
  a.phys.toNat + a.size.toNat ≤ b.phys.toNat ∨ b.phys.toNat + b.size.toNat ≤ a.phys.toNat

instance (mr : MmioRegion η κ) (address : BitVec 64) : Decidable (mr.Contains address) :=
  inferInstanceAs (Decidable (_ ∧ _))

instance (node : MmioRegion η κ) (address : BitVec 64) : Decidable (node.Covers address) :=
  inferInstanceAs (Decidable (_ ∧ _))

instance (a b : MmioRegion η κ) : Decidable (a.Apart b) := inferInstanceAs (Decidable (_ ∨ _))

instance : Std.Symm (@Apart η κ) := ⟨fun _ _ h => h.symm⟩

theorem eq_of_contains {regions : List (MmioRegion η κ)} {address : BitVec 64}
    (h : regions.Pairwise Apart) : ∀ mr ∈ regions, ∀ q ∈ regions, mr.Contains address →
      q.Contains address → mr = q := by
  intro mr hmr q hq hcontains hcontains'
  by_contra hne
  have hapart := h.forall hmr hq hne
  unfold Contains at hcontains hcontains'
  unfold Apart at hapart
  omega

end MmioRegion

section

variable {below above : Prop} [Decidable below] [Decidable above]

theorem threeWay_neg : (if below then (-1 : Int) else if above then 1 else 0) < 0 ↔ below := by
  split_ifs <;> simp_all

theorem threeWay_zero :
    (if below then (-1 : Int) else if above then 1 else 0) = 0 ↔ ¬below ∧ ¬above := by
  split_ifs <;> simp_all

theorem threeWay_pos :
    (if below then (-1 : Int) else if above then 1 else 0) > 0 ↔ ¬below ∧ above := by
  split_ifs <;> simp_all

end

theorem precedes_pio {a b : PioRegion η κ} :
    Precedes nvcComparePioRegionAvlNodes a b ↔ a.port.toNat < b.port.toNat :=
  threeWay_neg

theorem precedes_mmio {a b : MmioRegion η κ} :
    Precedes nvcCompareMmioRegionAvlNodes a b ↔ a.phys.toNat < b.phys.toNat :=
  threeWay_neg

theorem nvcBstSearchPioRegion_eq_zero {node : PioRegion η κ} {port : BitVec 16} :
    nvcBstSearchPioRegion node port = 0 ↔ node.Covers port :=
  threeWay_zero.trans (and_congr Nat.not_lt Nat.not_lt)

theorem nvcBstSearchMmioRegion_eq_zero {node : MmioRegion η κ} {address : BitVec 64} :
    nvcBstSearchMmioRegion node address = 0 ↔ node.Covers address :=
  threeWay_zero.trans (and_congr Nat.not_lt Nat.not_lt)

/-- A node that ends below a port begins below every node that the port is in. -/
theorem leads_pio {pr q : PioRegion η κ} {port : BitVec 16} (h : pr.copied.Covers port) :
    Leads (Precedes nvcComparePioRegionAvlNodes) (nvcBstSearchPioRegion · port) pr.copied
      q.copied := by
  obtain ⟨hlow, hhigh⟩ := h
  dsimp only [PioRegion.copied] at hlow hhigh
  constructor
  · intro hside
    have hbelow : port.toNat < q.port.toNat := threeWay_neg.mp hside
    exact precedes_pio.mpr (lt_of_le_of_lt hlow hbelow)
  · intro hside hprecedes
    have habove : port.toNat > q.port.toNat + q.port.toNat := (threeWay_pos.mp hside).2
    have hbefore : pr.port.toNat < q.port.toNat := precedes_pio.mp hprecedes
    omega

/-- A region that ends at the top of the address space or past it has a node that holds nothing,
and is the only one that may be passed by to the wrong side. -/
theorem leads_mmio {mr q : MmioRegion η κ} {address : BitVec 64} (h : mr.Covers address)
    (hapart : mr.phys ≠ q.phys → mr.Apart q) (hheld : q.Contains address → q.Covers address) :
    Leads (Precedes nvcCompareMmioRegionAvlNodes) (nvcBstSearchMmioRegion · address) mr.copied
      q.copied := by
  obtain ⟨hlow, hhigh⟩ := h
  constructor
  · intro hside
    have hbelow : address.toNat < q.phys.toNat := threeWay_neg.mp hside
    exact precedes_mmio.mpr (lt_of_le_of_lt hlow hbelow)
  · intro hside hprecedes
    obtain ⟨hnot, habove⟩ := threeWay_pos.mp hside
    have hfrom : q.phys.toNat ≤ address.toNat := not_lt.mp hnot
    have hend : (q.phys + q.size).toNat < address.toNat := habove
    have hbefore : mr.phys.toNat < q.phys.toNat := precedes_mmio.mp hprecedes
    have hne : mr.phys ≠ q.phys := fun heq => hbefore.ne (congrArg BitVec.toNat heq)
    have houtside : ¬q.Contains address := fun hcontains =>
      absurd (hheld hcontains).2 (not_le.mpr hend)
    unfold MmioRegion.Contains at houtside
    rcases hapart hne with hfirst | hsecond
    · rw [BitVec.toNat_add] at hhigh hend
      omega
    · omega

variable {ν : Type}

/-- The handler called is that of the region that contains the port, with the access as it came. -/
def PioServed (regions : List (PioRegion η κ)) (root : HeightTree (PioRegion η κ))
    (access : PioAccess ν) : Prop :=
  Serves (PioRegion.Contains · access.port) (fun pr => (pr.copied, access)) regions
    (nvcCallRwPioRegion root access)

def MmioServed (regions : List (MmioRegion η κ)) (root : HeightTree (MmioRegion η κ))
    (access : MmioAccess ν) : Prop :=
  Serves (MmioRegion.Contains · access.address) (fun mr => (mr.copied, access)) regions
    (nvcCallRwMmioRegionAligned root access)

theorem pioServed_iff {requests : List (Registration (PioRegion η κ))}
    (hapart : (registered requests).Pairwise PioRegion.Apart)
    (hroom : Along (RoomFor nvcComparePioRegionAvlNodes PioRegion.copied)
      (registerNext nvcRegisterPioRegion) .null requests) :
    ∃ root, registerAll nvcRegisterPioRegion requests = some root ∧ ∀ access : PioAccess ν,
      PioServed (registered requests) root access ↔
        ServedFirst (PioRegion.Contains · access.port) (PioRegion.Covers · access.port)
          PioRegion.copied (registered requests) := by
  obtain ⟨root, hroot, hsearch⟩ := search_registerAll hroom
  refine ⟨root, hroot, fun access => ?_⟩
  refine (serves_map_call_iff access).trans
    (serves_iff_first (PioRegion.eq_of_contains hapart) (fun n hn => ?_) fun _ => ?_)
  · exact nvcBstSearchPioRegion_eq_zero.mp (side_of_search_eq_some hn).1
  · have hfound := hsearch (nvcBstSearchPioRegion · access.port) fun pr _ hzero q _ =>
      leads_pio (nvcBstSearchPioRegion_eq_zero.mp hzero)
    simp only [nvcBstSearchPioRegion_eq_zero] at hfound
    exact hfound

theorem mmioServed_iff {requests : List (Registration (MmioRegion η κ))}
    (hapart : (registered requests).Pairwise MmioRegion.Apart)
    (hroom : Along (RoomFor nvcCompareMmioRegionAvlNodes MmioRegion.copied)
      (registerNext nvcRegisterMmioRegion) .null requests) :
    ∃ root, registerAll nvcRegisterMmioRegion requests = some root ∧ ∀ access : MmioAccess ν,
      MmioServed (registered requests) root access ↔
        ServedFirst (MmioRegion.Contains · access.address) (MmioRegion.Covers · access.address)
          MmioRegion.copied (registered requests) := by
  obtain ⟨root, hroot, hsearch⟩ := search_registerAll hroom
  refine ⟨root, hroot, fun access => ?_⟩
  refine (serves_map_call_iff access).trans
    (serves_iff_first (MmioRegion.eq_of_contains hapart) (fun n hn => ?_) fun hheld => ?_)
  · exact nvcBstSearchMmioRegion_eq_zero.mp (side_of_search_eq_some hn).1
  · have hfound := hsearch (nvcBstSearchMmioRegion · access.address) fun mr hmr hzero q hq =>
      leads_mmio (nvcBstSearchMmioRegion_eq_zero.mp hzero)
        (fun hne => hapart.forall hmr hq fun heq => hne (congrArg MmioRegion.phys heq)) (hheld q hq)
    simp only [nvcBstSearchMmioRegion_eq_zero] at hfound
    exact hfound

end

def keyboardPorts : PioRegion Nat Unit := ⟨0, (), 0x60, 0x10⟩

def firstUnit : MmioRegion Nat Unit := ⟨1, (), 0x1000, 0x1000⟩

def secondUnit : MmioRegion Nat Unit := ⟨2, (), 0x2000, 0x1000⟩

end NoirVisor
