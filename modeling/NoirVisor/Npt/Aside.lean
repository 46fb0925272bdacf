import NoirVisor.Npt.Update

/-!
# Splits left unlinked

Outside host mode a split describes a page and leaves the entry above as it is; the hypervisor links
the table later, without allocating. These are the two halves of a split as a reassignment of pages
makes them.
-/

namespace NoirVisor.NptManager

variable {nptm nptm' : NptManager} {used : Nat → Prop} {gpa : Nat} {d t : NptDescriptor}
  {p : Pointer NptDescriptor}

theorem nvcNptSplitPdpte_lookup (nptm : NptManager) (gpa : Nat) :
    nvcNptSplitPdpte nptm gpa false false = .ok (.ofOption (nptm.findPde gpa), nptm) := by
  unfold nvcNptSplitPdpte
  cases nptm.findPde gpa <;> rfl

theorem nvcNptSplitPde_lookup (nptm : NptManager) (gpa : Nat) :
    nvcNptSplitPde nptm gpa false false = .ok (.ofOption (nptm.findPte gpa), nptm) := by
  unfold nvcNptSplitPde
  cases nptm.findPte gpa <;> rfl

/-- What comes of taking a table: no descriptor, a descriptor released for want of a page, or the
table described in the page given. The answers left are among those there were. -/
inductive Taken (nptm : NptManager) (push : Nat → NptDescriptor × NptManager) :
    Pointer NptDescriptor × NptManager → Prop
  | refused {p : Pointer NptDescriptor} {allocator : Allocator} : (∀ d, p ≠ .valid d) →
      (∀ k, ∃ j, allocator.contd k = nptm.allocator.contd j) →
      Taken nptm push (p, { nptm with allocator })
  | valid {frame : Nat} : nptm.allocator.contd 0 = some frame →
      Taken nptm push (.valid (push frame).1,
        { (push frame).2 with allocator := nptm.allocator.next })

theorem newPde_taken (nptm : NptManager) (gpa : Nat) :
    Taken nptm (nptm.pushPde gpa) (nptm.newPde gpa) := by
  unfold newPde Allocator.noirAllocNonpgMemory
  cases hnonpg : nptm.allocator.nonpg 0 with
  | false => exact .refused (fun d hd => (nomatch hd)) fun k => ⟨k, rfl⟩
  | true =>
      unfold Allocator.noirAllocContdMemory
      cases hcontd : nptm.allocator.contd 0 with
      | none =>
          simp only [hcontd]
          exact .refused (fun d hd => (nomatch hd)) fun k => ⟨k + 1, rfl⟩
      | some frame =>
          simp only [hcontd]
          exact .valid hcontd

theorem nvcNptSplitPdpte_taken (hnone : nptm.findPde gpa = none) :
    ∃ result, nvcNptSplitPdpte nptm gpa false true = .ok result ∧
      Taken nptm (nptm.pushPde gpa) result := by
  refine ⟨_, ?_, newPde_taken nptm gpa⟩
  unfold nvcNptSplitPdpte
  rw [hnone]
  rfl

theorem nvcNptSplitPdpte_found (hfound : nptm.findPde gpa = some d) (alloc : Bool) :
    nvcNptSplitPdpte nptm gpa false alloc = .ok (.valid d, nptm) := by
  unfold nvcNptSplitPdpte
  rw [hfound]
  rfl

theorem nvcNptSplitPde_found (hfound : nptm.findPte gpa = some t) :
    nvcNptSplitPde nptm gpa false true = .ok (.valid t, nptm) := by
  unfold nvcNptSplitPde
  rw [hfound]
  rfl

/-- Below a described 1 GiB page only the table itself is allocated. -/
theorem nvcNptSplitPde_taken (hpde : nptm.findPde gpa = some d) (hnone : nptm.findPte gpa = none) :
    ∃ result, nvcNptSplitPde nptm gpa false true = .ok result ∧
      Taken nptm (nptm.pushPte gpa) result := by
  unfold nvcNptSplitPde newPte Allocator.noirAllocNonpgMemory
  rw [hnone]
  cases hnonpg : nptm.allocator.nonpg 0 with
  | false => exact ⟨_, rfl, .refused (fun d hd => (nomatch hd)) fun k => ⟨k, rfl⟩⟩
  | true =>
      unfold Allocator.noirAllocContdMemory
      cases hcontd : nptm.allocator.contd 0 with
      | none =>
          simp only [hcontd]
          exact ⟨_, rfl, .refused (fun d hd => (nomatch hd)) fun k => ⟨k + 1, rfl⟩⟩
      | some frame =>
          have hpde' : NptManager.findPde { nptm with allocator := nptm.allocator.next } gpa =
              some d := hpde
          have hsplit := nvcNptSplitPdpte_found hpde' true
          simp only [Allocator.next] at hsplit
          simp only [hcontd, hsplit]
          exact ⟨_, rfl, .valid hcontd⟩

/-- Linking without allocating follows what the lists hold, or faults. -/
theorem nvcNptSplitPdpte_link :
    Ends (nvcNptSplitPdpte nptm gpa true false) fun result => ∃ d, nptm.findPde gpa = some d ∧
      page1gbCount gpa < 512 * 512 ∧ result = (.valid d, nptm.linkPdpte gpa d) := by
  unfold nvcNptSplitPdpte
  cases hfind : nptm.findPde gpa with
  | none => exact ⟨fun h => (nomatch h), fun _ h => (nomatch h)⟩
  | some d =>
      refine Ends.bind (ends_deref (.valid d)) fun d' hd' => ?_
      cases hd'
      unfold modifyPdpte
      by_cases hbound : page1gbCount gpa < 512 * 512
      · rw [if_pos hbound]
        exact ends_pure ⟨d, rfl, hbound, rfl⟩
      · rw [if_neg hbound]
        exact ⟨fun h => (nomatch h), fun _ h => (nomatch h)⟩

theorem nvcNptSplitPdpte_linked (hpde : nptm.findPde gpa = some d)
    (hbound : page1gbCount gpa < 512 * 512) :
    nvcNptSplitPdpte nptm gpa true false = .ok (.valid d, nptm.linkPdpte gpa d) := by
  simp [nvcNptSplitPdpte, hpde, Pointer.deref, modifyPdpte, hbound, bind, Except.bind, pure,
    Except.pure, linkPdpte]

theorem nvcNptSplitPde_linked (hpde : nptm.findPde gpa = some d) (hpte : nptm.findPte gpa = some t)
    (hbound : page1gbCount gpa < 512 * 512) :
    nvcNptSplitPde nptm gpa true false =
      .ok (.valid t, (nptm.linkPdpte gpa d).linkPde gpa d t) := by
  simp [nvcNptSplitPde, hpte, nvcNptSplitPdpte_linked hpde hbound, Pointer.deref, Pointer.isNull,
    bind, Except.bind, pure, Except.pure, linkPde]

theorem nvcNptSplitPde_link :
    Ends (nvcNptSplitPde nptm gpa true false) fun result => ∃ d t, nptm.findPde gpa = some d ∧
      nptm.findPte gpa = some t ∧ page1gbCount gpa < 512 * 512 ∧
      result = (.valid t, (nptm.linkPdpte gpa d).linkPde gpa d t) := by
  -- Whichever pointer the search gave, it is followed once the PDPTE is linked.
  have hlink : ∀ q : Pointer NptDescriptor, Ends
      (do let split ← nvcNptSplitPdpte nptm gpa true false
          if split.1.isNull then
            return (q, split.2)
          else
            let d ← split.1.deref
            let t ← q.deref
            return (q, split.2.modifyEntry d.frame (pageEntryIndex64 (page2mbCount gpa))
              (·.toTable t.phys)))
      fun result => ∃ d t, nptm.findPde gpa = some d ∧ q = .valid t ∧
        page1gbCount gpa < 512 * 512 ∧
        result = (.valid t, (nptm.linkPdpte gpa d).linkPde gpa d t) := by
    intro q
    refine Ends.bind nvcNptSplitPdpte_link fun r hr => ?_
    obtain ⟨d, hd, hbound, rfl⟩ := hr
    refine Ends.bind (ends_deref (.valid d)) fun d' hd' => ?_
    cases hd'
    refine Ends.bind (ends_deref q) fun t ht => ?_
    subst ht
    exact ends_pure ⟨d, t, hd, rfl, hbound, rfl⟩
  unfold nvcNptSplitPde
  cases hpte : nptm.findPte gpa with
  | none =>
      refine (hlink .null).mono fun result hresult => ?_
      obtain ⟨d, t, -, hnull, -⟩ := hresult
      cases hnull
  | some t =>
      refine (hlink (.valid t)).mono fun result hresult => ?_
      obtain ⟨d, t', hd, ht, hbound, rfl⟩ := hresult
      cases ht
      exact ⟨d, t, hd, rfl, hbound, rfl⟩

end NoirVisor.NptManager
