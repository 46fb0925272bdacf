import NoirVisor.Cvm.SvmVcpu
import NoirVisor.Transition

/-!
# Rescission

A thread rescinds the run of a vCPU by a bit of its `special_state`; the next run to start, or the one
in progress, takes the bit and returns with the exit code for it. The bit is tested, set and reset by
locked instructions. The other bits of the word are bit-fields: a change loads the word and stores it.
-/

namespace NoirVisor

inductive SelectedCore where
  | svm | vt
deriving DecidableEq, Repr

def cvRescission : Nat := 13
def cvSchedulerExit : Nat := 0x80000000

/-- `special_state`. Only the SVM core has other bits than the one for rescission. -/
structure SpecialWord where
  rescission : Bool
  bits : SpecialState

inductive SpecialUpdate where
  | prevVirq (b : Bool)
  | prevNmi (b : Bool)
  | mtfActive (b : Bool)
  | switchSuccess (b : Bool)

def SpecialUpdate.apply (bits : SpecialState) : SpecialUpdate → SpecialState
  | .prevVirq b => { bits with prevVirq := b }
  | .prevNmi b => { bits with prevNmi := b }
  | .mtfActive b => { bits with mtfActive := b }
  | .switchSuccess b => { bits with switchSuccess := b }

/-- Where a thread is that may run the vCPU. It is `entering` after the test at the start of the run,
`leaving` until the exit code is there, and `returning` with the code. -/
inductive VcpuPhase where
  | idle
  | entering
  | guest
  | leaving
  | returning

namespace VcpuPhase

def isReturning : VcpuPhase → Bool
  | returning => true
  | _ => false

def inRun : VcpuPhase → Bool
  | idle => false
  | _ => true

end VcpuPhase

/-- `nvc_svmc_run_vcpu` and the world switch change what they find when they enter, the handlers of the
windows take back what is injected, and the options of the vCPU are set by any thread. -/
def SpecialUpdate.madeIn : SpecialUpdate → VcpuPhase → Bool
  | .prevVirq b, .entering => b
  | .prevNmi b, .entering => b
  | .prevVirq b, .guest => !b
  | .prevNmi b, .guest => !b
  | .switchSuccess _, .entering => true
  | .switchSuccess _, .leaving => true
  | .mtfActive _, .idle => true
  | _, _ => false

/-- A vCPU as the threads share it. `lock` is its pushlock, that only the SVM core takes; `loaded` has the
word that a thread is about to store with a change. -/
structure SharedVcpu where
  word : SpecialWord
  interceptCode : Nat
  lock : Option Nat
  thread : Nat → VcpuPhase
  loaded : Nat → Option (SpecialUpdate × SpecialWord)

inductive VcpuEvent where
  | rescind
  | start (t : Nat)
  | load (t : Nat) (u : SpecialUpdate)
  | store (t : Nat)
  | enter (t : Nat)
  | leave (t : Nat)
  | exit (t code : Nat) (nsvGuest loaded : Bool)
  | ret (t : Nat)

/-- What the threads see: the status of a call, whether a test took the bit, and the code a run returns
with. -/
inductive Observation where
  | rescinded (already : Bool)
  | started (t : Nat) (took : Bool)
  | exited (t : Nat) (took : Bool)
  | returned (t code : Nat)
  | silent

namespace SharedVcpu

def created : SharedVcpu :=
  ⟨⟨false, ⟨false, false, false, false⟩⟩, 0, none, fun _ => .idle, fun _ => none⟩

def move (s : SharedVcpu) (t : Nat) (phase : VcpuPhase) : SharedVcpu :=
  { s with thread := Function.update s.thread t phase }

/-- The bit is reset and the exit code written; the run returns. -/
def take (s : SharedVcpu) (t : Nat) : SharedVcpu :=
  { s with word.rescission := false, interceptCode := cvRescission }.move t .returning

/-- `nvc_svmc_rescind_vcpu`, `nvc_vtc_rescind_vcpu`. -/
def rescind (s : SharedVcpu) : SharedVcpu × Observation :=
  ({ s with word.rescission := true }, .rescinded s.word.rescission)

/-- The start of `nvc_svmc_run_vcpu` and of `nvc_vtc_run_vcpu`, which takes no lock of the vCPU. -/
def startRun (core : SelectedCore) (s : SharedVcpu) (t : Nat) : SharedVcpu × Observation :=
  let s := match core with
    | .svm => { s with lock := some t }
    | .vt => s
  if s.word.rescission then (s.take t, .started t true)
  else (s.move t .entering, .started t false)

/-- The handler of the exit has set the code. On SVM the bit is tested again, but not for NSV guests
and not when the basic context of the exit is still to be loaded. -/
def exitRun (core : SelectedCore) (s : SharedVcpu) (t code : Nat) (nsvGuest loaded : Bool) :
    SharedVcpu × Observation :=
  if core = .svm ∧ nsvGuest = false ∧ (code = cvSchedulerExit ∨ loaded = true) ∧
      s.word.rescission = true then (s.take t, .exited t true)
  else ({ s with interceptCode := code }.move t .returning, .exited t false)

/-- The compiled assignment to a bit-field, in two steps. -/
def load (s : SharedVcpu) (t : Nat) (u : SpecialUpdate) : SharedVcpu :=
  { s with loaded := Function.update s.loaded t (some (u, s.word)) }

def store (s : SharedVcpu) (t : Nat) (u : SpecialUpdate) (word : SpecialWord) : SharedVcpu :=
  { s with
    word := { word with bits := u.apply word.bits }
    loaded := Function.update s.loaded t none }

/-- No handler sets the exit code for a rescission. -/
def step (core : SelectedCore) (s : SharedVcpu) : VcpuEvent → Option (SharedVcpu × Observation)
  | .rescind => some s.rescind
  | .start t =>
      match s.loaded t, s.thread t, core, s.lock with
      | none, .idle, .svm, none => some (s.startRun .svm t)
      | none, .idle, .vt, _ => some (s.startRun .vt t)
      | _, _, _, _ => none
  | .load t u =>
      match s.loaded t, core with
      | none, .svm => if u.madeIn (s.thread t) then some (s.load t u, .silent) else none
      | _, _ => none
  | .store t => (s.loaded t).map fun (u, word) => (s.store t u word, .silent)
  | .enter t =>
      match s.loaded t, s.thread t with
      | none, .entering => some (s.move t .guest, .silent)
      | _, _ => none
  | .leave t =>
      match s.loaded t, s.thread t with
      | none, .guest => some (s.move t .leaving, .silent)
      | _, _ => none
  | .exit t code nsvGuest loaded =>
      match s.loaded t, s.thread t with
      | none, .leaving =>
          if code = cvRescission then none else some (s.exitRun core t code nsvGuest loaded)
      | _, _ => none
  | .ret t =>
      match s.loaded t, s.thread t with
      | none, .returning => some ({ s with lock := none }.move t .idle, .returned t s.interceptCode)
      | _, _ => none

end SharedVcpu

/-- What a rescission should be: a request that is pending until a run takes it, and the runs that have
taken one and not returned. -/
structure RescissionProtocol where
  pending : Bool
  taken : List Nat

namespace RescissionProtocol

def fresh : RescissionProtocol := ⟨false, []⟩

/-- A run that starts takes what is pending, one that exits may; and a run returns with the code for a
rescission if it has taken one. -/
def observe (p : RescissionProtocol) : Observation → Option RescissionProtocol
  | .rescinded already => if already = p.pending then some { p with pending := true } else none
  | .started t took =>
      if took = p.pending then some ⟨false, if took then t :: p.taken else p.taken⟩ else none
  | .exited t took =>
      match took, p.pending with
      | true, true => some ⟨false, t :: p.taken⟩
      | true, false => none
      | false, _ => some p
  | .returned t code =>
      if code = cvRescission ↔ t ∈ p.taken then some { p with taken := p.taken.erase t } else none
  | .silent => some p

def observes (p : RescissionProtocol) (seen : List Observation) : Option RescissionProtocol :=
  seen.foldlM observe p

/-- A call that succeeded. -/
def isRescission : Observation → Bool
  | .rescinded already => !already
  | _ => false

/-- A run that returned with the code for a rescission. -/
def isAnswer : Observation → Bool
  | .returned _ code => code == cvRescission
  | _ => false

/-- The rescissions that no run has returned with yet. -/
def outstanding (p : RescissionProtocol) : Nat := p.pending.toNat + p.taken.length

variable {p p' : RescissionProtocol} {o : Observation} {seen : List Observation}

theorem observes_concat (h : p.observes seen = some p') :
    p.observes (seen ++ [o]) = p'.observe o := by
  unfold observes at h ⊢
  rw [List.foldlM_append, h]
  exact bind_pure (p'.observe o)

theorem observe_outstanding (h : p.observe o = some p') :
    p.outstanding + (isRescission o).toNat = p'.outstanding + (isAnswer o).toNat := by
  unfold outstanding
  cases o with
  | rescinded already =>
      obtain ⟨hpending, h⟩ := Option.ite_none_right_eq_some.mp h
      cases h
      rw [← hpending]
      cases already with
      | false => exact Nat.add_right_comm _ _ _
      | true => rfl
  | started t took =>
      obtain ⟨hpending, h⟩ := Option.ite_none_right_eq_some.mp h
      cases h
      rw [← hpending]
      cases took with
      | false => rfl
      | true =>
          change 1 + p.taken.length + 0 = 0 + (p.taken.length + 1) + 0
          omega
  | exited t took =>
      dsimp only [observe] at h
      split at h
      · next hpending =>
          cases h
          rw [hpending]
          change 1 + p.taken.length + 0 = 0 + (p.taken.length + 1) + 0
          omega
      · cases h
      · cases h
        rfl
  | returned t code =>
      obtain ⟨htaken, h⟩ := Option.ite_none_right_eq_some.mp h
      cases h
      by_cases hcode : code = cvRescission
      · have hmem := htaken.mp hcode
        have hpos := List.length_pos_of_mem hmem
        have hanswer : (isAnswer (.returned t code)).toNat = 1 := by
          rw [hcode]
          rfl
        rw [hanswer, List.length_erase_of_mem hmem]
        change p.pending.toNat + p.taken.length + 0 = p.pending.toNat + (p.taken.length - 1) + 1
        omega
      · have hanswer : isAnswer (.returned t code) = false := beq_false_of_ne hcode
        rw [hanswer, List.erase_of_not_mem (fun hmem => hcode (htaken.mpr hmem))]
        rfl
  | silent =>
      cases h
      rfl

/-- Every rescission is answered by one run, and only by one, or is outstanding. -/
theorem observes_outstanding (h : p.observes seen = some p') :
    p.outstanding + seen.countP isRescission = p'.outstanding + seen.countP isAnswer := by
  induction seen generalizing p with
  | nil =>
      cases h
      rfl
  | cons o seen ih =>
      obtain ⟨q, hq, hrest⟩ := Option.bind_eq_some_iff.mp h
      have hfirst := observe_outstanding hq
      have hseen := ih hrest
      have hite : ∀ b : Bool, (if b = true then 1 else 0) = b.toNat := by decide
      rw [List.countP_cons, List.countP_cons, hite, hite]
      omega

end RescissionProtocol

/-- A vCPU, and what the threads have seen. -/
structure SharedRun where
  vcpu : SharedVcpu
  seen : List Observation

/-- No rescission came, and none was taken, between the load and the store of a change of another bit;
and on VT no run writes the exit code over that of another one which has not returned. -/
def SharedVcpu.Undisturbed (core : SelectedCore) (s : SharedVcpu) : VcpuEvent → Prop
  | .store t => ∀ u word, s.loaded t = some (u, word) → word.rescission = s.word.rescission
  | .start _ => core = .vt → s.word.rescission = true → ∀ t, (s.thread t).isReturning = false
  | .exit _ _ _ _ => core = .vt → ∀ t, (s.thread t).isReturning = false
  | _ => True

namespace SharedRun

def Reachable (core : SelectedCore) (condition : SharedVcpu → VcpuEvent → Prop) : SharedRun → Prop :=
  Transition.Reachable (fun r => r = ⟨.created, []⟩) fun r r' => ∃ e o, condition r.vcpu e ∧
    r.vcpu.step core e = some (r'.vcpu, o) ∧ r'.seen = r.seen ++ [o]

/-- What was seen is as the protocol has it, with the bit for what is pending. Every rescission is
answered by one run, or is outstanding. -/
def Answered (r : SharedRun) : Prop :=
  ∃ p, RescissionProtocol.fresh.observes r.seen = some p ∧ r.vcpu.word.rescission = p.pending ∧
    r.seen.countP RescissionProtocol.isRescission =
      r.seen.countP RescissionProtocol.isAnswer + p.outstanding

end SharedRun

namespace SharedVcpu

/-- The lock of the SVM core is held by the one thread that runs the vCPU. -/
structure Sound (core : SelectedCore) (s : SharedVcpu) (p : RescissionProtocol) : Prop where
  pending : s.word.rescission = p.pending
  taken : ∀ t ∈ p.taken, (s.thread t).isReturning = true
  code : ∀ t, (s.thread t).isReturning = true → (s.interceptCode = cvRescission ↔ t ∈ p.taken)
  nodup : p.taken.Nodup
  lock : core = .svm → ∀ t, (s.thread t).inRun = true → s.lock = some t

variable {core : SelectedCore} {s s' : SharedVcpu} {p : RescissionProtocol} {t t' : Nat} {phase : VcpuPhase}

theorem move_self : (s.move t phase).thread t = phase := Function.update_self _ _ _

theorem move_of_ne (h : t' ≠ t) : (s.move t phase).thread t' = s.thread t' :=
  Function.update_of_ne h _ _

theorem inRun_of_isReturning (h : phase.isReturning = true) : phase.inRun = true := by
  cases phase with
  | returning => rfl
  | _ => cases h

/-- A thread that goes on before it returns. -/
theorem Sound.move (h : s.Sound core p) (hfrom : (s.thread t).isReturning = false)
    (hto : phase.isReturning = false)
    (hlock : core = .svm → phase.inRun = true → s.lock = some t) :
    (s.move t phase).Sound core p where
  pending := h.pending
  taken t' ht' := by
    have hne : t' ≠ t := by
      rintro rfl
      rw [h.taken _ ht'] at hfrom
      cases hfrom
    rw [move_of_ne hne]
    exact h.taken t' ht'
  code t' ht' := by
    have hne : t' ≠ t := by
      rintro rfl
      rw [move_self, hto] at ht'
      cases ht'
    rw [move_of_ne hne] at ht'
    exact h.code t' ht'
  nodup := h.nodup
  lock hcore t' ht' := by
    by_cases hne : t' = t
    · rw [hne, move_self] at ht'
      rw [hne]
      exact hlock hcore ht'
    · rw [move_of_ne hne] at ht'
      exact h.lock hcore t' ht'

/-- A thread that goes on inside its run, or outside of it. -/
theorem Sound.moveOn (h : s.Sound core p) (hfrom : (s.thread t).isReturning = false)
    (hto : phase.isReturning = false) (hrun : phase.inRun = (s.thread t).inRun) :
    (s.move t phase).Sound core p :=
  h.move hfrom hto fun hcore hphase => h.lock hcore t (hrun.symm.trans hphase)

theorem Sound.taken_eq_nil (h : s.Sound core p) (hnobody : ∀ t, (s.thread t).isReturning = false) :
    p.taken = [] := by
  refine List.eq_nil_iff_forall_not_mem.mpr fun t ht => ?_
  have hreturning := h.taken t ht
  rw [hnobody t] at hreturning
  cases hreturning

/-- A run that returns with the exit code it has written, for a rescission if it took one. -/
theorem Sound.returning (h : s.Sound core p) (code : Nat) (took rescission : Bool)
    (hlock : core = .svm → s.lock = some t) (hnobody : ∀ t', (s.thread t').isReturning = false)
    (hcode : code = cvRescission ↔ took = true) :
    ({ s with word.rescission := rescission, interceptCode := code }.move t .returning).Sound core
      ⟨rescission, if took then [t] else []⟩ where
  pending := rfl
  taken t' ht' := by
    obtain rfl : t' = t := by
      cases took with
      | false => cases ht'
      | true => exact List.mem_singleton.mp ht'
    rw [move_self]
    rfl
  code t' ht' := by
    by_cases hne : t' = t
    · refine hcode.trans ?_
      rw [hne]
      cases took with
      | false => exact iff_of_false Bool.false_ne_true List.not_mem_nil
      | true => exact iff_of_true rfl (List.mem_singleton.mpr rfl)
    · rw [move_of_ne hne] at ht'
      exact absurd ((hnobody t').symm.trans ht') Bool.false_ne_true
  nodup := by
    cases took with
    | false => exact List.nodup_nil
    | true => exact List.pairwise_singleton _ t
  lock hcore t' ht' := by
    by_cases hne : t' = t
    · rw [hne]
      exact hlock hcore
    · rw [move_of_ne hne] at ht'
      have hheld := h.lock hcore t' ht'
      exact absurd (Option.some.inj (hheld.symm.trans (hlock hcore))) hne

theorem Sound.rescind (h : s.Sound core p) :
    s.rescind.1.Sound core { p with pending := true } where
  pending := rfl
  taken := h.taken
  code := h.code
  nodup := h.nodup
  lock := h.lock

/-- A return is what the thread sees of the code, and ends its run. -/
theorem Sound.ret (h : s.Sound core p) (hfrom : s.thread t = .returning) :
    ({ s with lock := none }.move t .idle).Sound core { p with taken := p.taken.erase t } where
  pending := h.pending
  taken t' ht' := by
    obtain ⟨hne, hmem⟩ := (h.nodup.mem_erase_iff).mp ht'
    rw [move_of_ne hne]
    exact h.taken t' hmem
  code t' ht' := by
    have hne : t' ≠ t := by
      rintro rfl
      rw [move_self] at ht'
      cases ht'
    rw [move_of_ne hne] at ht'
    exact (h.code t' ht').trans (List.mem_erase_of_ne hne).symm
  nodup := h.nodup.erase t
  lock hcore t' ht' := by
    by_cases hne : t' = t
    · rw [hne, move_self] at ht'
      cases ht'
    · rw [move_of_ne hne] at ht'
      have hrun : (s.thread t).inRun = true := by
        rw [hfrom]
        rfl
      have hheld := (h.lock hcore t' ht').symm.trans (h.lock hcore t hrun)
      exact absurd (Option.some.inj hheld) hne

/-- The thread at the end of its run is alone on SVM, and on VT by the condition. -/
theorem Sound.nobody_returning (h : s.Sound core p) (hfrom : s.thread t = .leaving)
    (hundisturbed : core = .vt → ∀ t, (s.thread t).isReturning = false) (t' : Nat) :
    (s.thread t').isReturning = false := by
  cases core with
  | vt => exact hundisturbed rfl t'
  | svm =>
      refine Bool.eq_false_iff.mpr fun hreturning => ?_
      have hrun : (s.thread t).inRun = true := by
        rw [hfrom]
        rfl
      have hheld := (h.lock rfl t' (inRun_of_isReturning hreturning)).symm.trans (h.lock rfl t hrun)
      rw [Option.some.inj hheld, hfrom] at hreturning
      cases hreturning

theorem Sound.acquire (h : s.Sound core p) (hfree : s.lock = none) :
    ({ s with lock := some t }).Sound core p where
  pending := h.pending
  taken := h.taken
  code := h.code
  nodup := h.nodup
  lock hcore t' ht' := by
    rw [h.lock hcore t' ht'] at hfree
    cases hfree

/-- The test at the start of a run, with the lock taken on SVM. -/
theorem Sound.test (h : s.Sound core p) (hfrom : s.thread t = .idle)
    (hlock : core = .svm → s.lock = some t)
    (hnobody : s.word.rescission = true → ∀ t, (s.thread t).isReturning = false) :
    ∃ p', p.observe (if s.word.rescission then (s.take t, Observation.started t true)
        else (s.move t .entering, .started t false)).2 = some p' ∧
      (if s.word.rescission then (s.take t, Observation.started t true)
        else (s.move t .entering, .started t false)).1.Sound core p' := by
  cases hword : s.word.rescission with
  | true =>
      have hnobody := hnobody hword
      have hsound := h.returning cvRescission true false hlock hnobody (iff_of_true rfl rfl)
      refine ⟨_, ?_, hsound⟩
      have hpending := h.pending.symm.trans hword
      dsimp only [RescissionProtocol.observe]
      rw [if_pos rfl, hpending, h.taken_eq_nil hnobody]
      rfl
  | false =>
      have hidle : (s.thread t).isReturning = false := by
        rw [hfrom]
        rfl
      have hsound : (s.move t .entering).Sound core p :=
        h.move hidle rfl fun hcore _ => hlock hcore
      have hpending := h.pending.symm.trans hword
      have hp : (⟨false, p.taken⟩ : RescissionProtocol) = p := by rw [← hpending]
      exact ⟨p, (if_pos hpending.symm).trans (congrArg some hp), hsound⟩

theorem Sound.startRun (h : s.Sound core p) (hfrom : s.thread t = .idle)
    (hfree : core = .svm → s.lock = none)
    (hundisturbed : core = .vt → s.word.rescission = true → ∀ t, (s.thread t).isReturning = false) :
    ∃ p', p.observe (s.startRun core t).2 = some p' ∧ (s.startRun core t).1.Sound core p' := by
  cases core with
  | vt => exact h.test hfrom (fun hcore => (nomatch hcore)) (hundisturbed rfl)
  | svm =>
      refine (h.acquire (hfree rfl)).test hfrom (fun _ => rfl) fun _ t' => ?_
      refine Bool.eq_false_iff.mpr fun hreturning => ?_
      have hheld := h.lock rfl t' (inRun_of_isReturning hreturning)
      rw [hfree rfl] at hheld
      cases hheld

theorem Sound.exitRun (h : s.Sound core p) (code : Nat) (nsvGuest loaded : Bool)
    (hfrom : s.thread t = .leaving) (hcode : code ≠ cvRescission)
    (hundisturbed : core = .vt → ∀ t, (s.thread t).isReturning = false) :
    ∃ p', p.observe (s.exitRun core t code nsvGuest loaded).2 = some p' ∧
      (s.exitRun core t code nsvGuest loaded).1.Sound core p' := by
  have hnobody := h.nobody_returning hfrom hundisturbed
  have hnil := h.taken_eq_nil hnobody
  have hlock : core = .svm → s.lock = some t := by
    intro hcore
    refine h.lock hcore t ?_
    rw [hfrom]
    rfl
  unfold SharedVcpu.exitRun
  split
  · next htested =>
      have hpending := h.pending.symm.trans htested.2.2.2
      have hsound := h.returning cvRescission true false hlock hnobody (iff_of_true rfl rfl)
      refine ⟨_, ?_, hsound⟩
      dsimp only [RescissionProtocol.observe]
      rw [hpending, hnil]
      rfl
  · have hsound := h.returning code false s.word.rescission hlock hnobody
      (iff_of_false hcode Bool.false_ne_true)
    have hp : (⟨s.word.rescission, []⟩ : RescissionProtocol) = p := by
      rw [h.pending, ← hnil]
    exact ⟨p, rfl, hp ▸ hsound⟩

/-- A store of a word whose bit for the rescission is still right. -/
theorem Sound.store {u : SpecialUpdate} {word : SpecialWord} (h : s.Sound core p)
    (hword : word.rescission = s.word.rescission) : (s.store t u word).Sound core p where
  pending := hword.trans h.pending
  taken := h.taken
  code := h.code
  nodup := h.nodup
  lock := h.lock

/-- What one step of a thread keeps. -/
theorem Sound.step {e : VcpuEvent} {o : Observation} (h : s.Sound core p)
    (hundisturbed : s.Undisturbed core e) (hstep : s.step core e = some (s', o)) :
    ∃ p', p.observe o = some p' ∧ s'.Sound core p' := by
  cases e with
  | rescind =>
      cases hstep
      exact ⟨_, if_pos h.pending, h.rescind⟩
  | start t =>
      dsimp only [SharedVcpu.step] at hstep
      split at hstep
      · next hidle hfree =>
          have hresult := h.startRun hidle (fun _ => hfree) hundisturbed
          rwa [Option.some.inj hstep] at hresult
      · next hidle =>
          have hresult := h.startRun hidle (fun hcore => (nomatch hcore)) hundisturbed
          rwa [Option.some.inj hstep] at hresult
      · cases hstep
  | load t u =>
      dsimp only [SharedVcpu.step] at hstep
      split at hstep
      · obtain ⟨-, hstep⟩ := Option.ite_none_right_eq_some.mp hstep
        cases hstep
        exact ⟨p, rfl, h.pending, h.taken, h.code, h.nodup, h.lock⟩
      · cases hstep
  | store t =>
      obtain ⟨⟨u, word⟩, hloaded, hstep⟩ := Option.map_eq_some_iff.mp hstep
      cases hstep
      exact ⟨p, rfl, h.store (hundisturbed u word hloaded)⟩
  | enter t =>
      dsimp only [SharedVcpu.step] at hstep
      split at hstep
      · next hthread =>
          cases hstep
          refine ⟨p, rfl, h.moveOn ?_ rfl ?_⟩
          · rw [hthread]
            rfl
          · rw [hthread]
            rfl
      · cases hstep
  | leave t =>
      dsimp only [SharedVcpu.step] at hstep
      split at hstep
      · next hthread =>
          cases hstep
          refine ⟨p, rfl, h.moveOn ?_ rfl ?_⟩
          · rw [hthread]
            rfl
          · rw [hthread]
            rfl
      · cases hstep
  | exit t code nsvGuest loaded =>
      dsimp only [SharedVcpu.step] at hstep
      split at hstep
      · next hthread =>
          obtain ⟨hcode, hstep⟩ := Option.ite_none_left_eq_some.mp hstep
          have hresult := h.exitRun code nsvGuest loaded hthread hcode hundisturbed
          rwa [Option.some.inj hstep] at hresult
      · cases hstep
  | ret t =>
      dsimp only [SharedVcpu.step] at hstep
      split at hstep
      · next hthread =>
          cases hstep
          refine ⟨_, if_pos (h.code t ?_), h.ret hthread⟩
          rw [hthread]
          rfl
      · cases hstep

theorem sound_created : created.Sound core .fresh where
  pending := rfl
  taken _ ht := by cases ht
  code _ ht := by cases ht
  nodup := List.nodup_nil
  lock _ _ ht := by cases ht

end SharedVcpu

namespace SharedRun

/-- What was seen so far, with the invariant. -/
def Kept (core : SelectedCore) (r : SharedRun) : Prop :=
  ∃ p, RescissionProtocol.fresh.observes r.seen = some p ∧ r.vcpu.Sound core p

theorem Reachable.kept {core : SelectedCore} {r : SharedRun}
    (h : Reachable core (SharedVcpu.Undisturbed core) r) : r.Kept core := by
  refine Transition.Reachable.invariant ?_ ?_ h
  · rintro r rfl
    exact ⟨.fresh, rfl, SharedVcpu.sound_created⟩
  · rintro r r' - ⟨p, hp, hsound⟩ ⟨e, o, hundisturbed, hstep, hseen⟩
    obtain ⟨p', hp', hsound'⟩ := hsound.step hundisturbed hstep
    refine ⟨p', ?_, hsound'⟩
    rw [hseen, RescissionProtocol.observes_concat hp]
    exact hp'

theorem Kept.answered {core : SelectedCore} {r : SharedRun} (h : r.Kept core) : r.Answered := by
  obtain ⟨p, hp, hsound⟩ := h
  refine ⟨p, hp, hsound.pending, ?_⟩
  have hcount := RescissionProtocol.observes_outstanding hp
  have hfresh : RescissionProtocol.fresh.outstanding = 0 := rfl
  omega

def created : SharedRun := ⟨.created, []⟩

def after (core : SelectedCore) (r : SharedRun) (e : VcpuEvent) : Option SharedRun :=
  (r.vcpu.step core e).map fun (vcpu, o) => ⟨vcpu, r.seen ++ [o]⟩

theorem Reachable.after {core : SelectedCore} {condition : SharedVcpu → VcpuEvent → Prop} {r r' : SharedRun}
    {events : List VcpuEvent} (h : Reachable core condition r)
    (hcondition : ∀ e ∈ events, ∀ s, condition s e) (hafter : events.foldlM (after core) r = some r') :
    Reachable core condition r' := by
  induction events generalizing r with
  | nil =>
      cases hafter
      exact h
  | cons e events ih =>
      obtain ⟨next, hnext, hrest⟩ := Option.bind_eq_some_iff.mp hafter
      obtain ⟨⟨vcpu, o⟩, hstep, rfl⟩ := Option.map_eq_some_iff.mp hnext
      obtain ⟨hfirst, hothers⟩ := List.forall_mem_cons.mp hcondition
      exact ih (.step h ⟨e, o, hfirst r.vcpu, hstep, rfl⟩) hothers hrest

def rescindedFirst : List VcpuEvent := [.rescind, .start 0, .ret 0]

end SharedRun

end NoirVisor
