import NoirVisor.Vmx

/-!
# Residency of the VMCS

The VMCS of a virtual processor is loaded on whatever processor runs it. What it says about the host
is written once, when it is initialized.
-/

namespace NoirVisor.Residency

open Vmx Transition Function

/-- The host that was subverted has a VMCS on every processor. -/
inductive Vmcs (V P : Type) where
  | host (p : P)
  | custom (v : V)
deriving DecidableEq

structure VmcsHostArea where
  hostRsp : BitVec 64
  hostFsBase : BitVec 64
  hostGsBase : BitVec 64
  hostTrBase : BitVec 64
  hostGdtrBase : BitVec 64
  hostIdtrBase : BitVec 64
  vmexitMsrLoadAddress : BitVec 64

/-- Every processor has a stack of its own. -/
structure Processors (P : Type) where
  hostArea : P → VmcsHostArea
  distinct : Injective fun p => (hostArea p).hostRsp

theorem Processors.hostArea_injective {P : Type} (cpus : Processors P) : Injective cpus.hostArea :=
  fun _ _ h => cpus.distinct (congrArg VmcsHostArea.hostRsp h)

abbrev VmxCode (V P : Type) := List (Instruction (Vmcs V P) VmcsHostArea)

/-- The bookkeeping of the code: the processor a virtual processor ran on last, and whether the
VMCS that is going to be entered is initial. -/
structure VtLoader (V P : Type) where
  procId : V → Option P
  initialVmcs : P → Bool

/-- What a processor does between an exit and the next entry. -/
inductive VmcsEvent (V : Type) where
  | create (v : V)
  | setOptions (v : V)
  | run (v : V)
  | resume
  | leave

section

variable {V P : Type} (cpus : Processors P) (p : P) (v : V)

def nvcVtInitializeCvmHostState : Instruction (Vmcs V P) VmcsHostArea :=
  .vmwrite fun area =>
    { cpus.hostArea p with vmexitMsrLoadAddress := area.vmexitMsrLoadAddress }

def nvcVtInitializeCvmMsrAutoList : Instruction (Vmcs V P) VmcsHostArea :=
  .vmwrite fun area =>
    { area with vmexitMsrLoadAddress := (cpus.hostArea p).vmexitMsrLoadAddress }

def nvcVtInitializeCvmVmcs : VmxCode V P :=
  [.vmclear (.custom v), .vmptrld (.custom v), nvcVtInitializeCvmHostState cpus p,
    nvcVtInitializeCvmMsrAutoList cpus p, .vmclear (.custom v), .vmptrld (.host p)]

def nvcVtSetGuestVcpuOptions : VmxCode V P := [.vmptrld (.custom v), .vmptrld (.host p)]

def nvcVtSwitchToHostVcpu : VmxCode V P := [.vmptrld (.host p)]

variable [DecidableEq V] [DecidableEq P]

def nvcVtSwitchToGuestVcpu (s : VtLoader V P) : VtLoader V P × VmxCode V P :=
  if s.procId v = some p then (s, [.vmptrld (.custom v)])
  else
    ({ procId := update s.procId v (some p), initialVmcs := update s.initialVmcs p true },
      [.vmclear (.custom v), .vmptrld (.custom v)])

def nvcVtExitHandler (s : VtLoader V P) (e : VmcsEvent V) : VtLoader V P × VmxCode V P :=
  let s := { s with initialVmcs := update s.initialVmcs p false }
  match e with
  | .create v => (s, nvcVtInitializeCvmVmcs cpus p v)
  | .setOptions v => (s, nvcVtSetGuestVcpuOptions p v)
  | .run v => nvcVtSwitchToGuestVcpu p v s
  | .resume => (s, [])
  | .leave => (s, nvcVtSwitchToHostVcpu p)

/-- The flag is tested and reset. -/
def nvcVtExitHandlerA (s : VtLoader V P) (e : VmcsEvent V) : VtLoader V P × VmxCode V P :=
  let handled := nvcVtExitHandler cpus p s e
  ({ handled.1 with initialVmcs := update handled.1.initialVmcs p false },
    handled.2 ++ [if handled.1.initialVmcs p then .vmlaunch else .vmresume])

end

/-- Where a virtual processor has been: who initialized it, who loaded it last since then, and
whether it has been entered since then. -/
structure VtHistory (V P : Type) where
  creator : V → Option P
  holder : V → Option P
  ran : V → Bool

namespace VtHistory

variable {V P : Type} [DecidableEq V] (h : VtHistory V P) (p : P)

def next : VmcsEvent V → VtHistory V P
  | .create v =>
      { creator := update h.creator v (some p), holder := update h.holder v none,
        ran := update h.ran v false }
  | .setOptions v => { h with holder := update h.holder v (some p) }
  | .run v => { h with holder := update h.holder v (some p), ran := update h.ran v true }
  | .resume => h
  | .leave => h

/-- No other processor holds it. -/
def Free (v : V) : Prop := ∀ q, h.holder v = some q → q = p

end VtHistory

structure VtState (V P : Type) where
  machine : Machine (Vmcs V P) P VmcsHostArea
  loader : VtLoader V P
  history : VtHistory V P

namespace VtState

variable {V P : Type} [DecidableEq V] [DecidableEq P] (cpus : Processors P) (s : VtState V P)

def code (e : P × VmcsEvent V) : VmxCode V P := (nvcVtExitHandlerA cpus e.1 s.loader e.2).2

def next (e : P × VmcsEvent V) : VtState V P where
  machine := execAll e.1 s.machine (s.code cpus e)
  loader := (nvcVtExitHandlerA cpus e.1 s.loader e.2).1
  history := s.history.next e.1 e.2

/-- The hypercalls are made by the host, and a virtual processor has to be initialized first. -/
def Possible (e : P × VmcsEvent V) : Prop :=
  match e.2 with
  | .create _ => s.machine.current e.1 = some (.host e.1)
  | .setOptions v | .run v =>
      s.machine.current e.1 = some (.host e.1) ∧ s.history.creator v ≠ none
  | .resume | .leave => ∃ v, s.machine.current e.1 = some (.custom v)

/-- Every load, entry and host area is as the processor wants it. -/
def Resident (e : P × VmcsEvent V) : Prop :=
  LegalAll cpus.hostArea e.1 s.machine (s.code cpus e)

/-- A virtual processor stays where it was initialized. -/
def Stays (e : P × VmcsEvent V) : Prop :=
  match e.2 with
  | .create v | .setOptions v => s.history.Free e.1 v
  | .run v => s.history.Free e.1 v ∧ s.history.creator v = some e.1 ∧
      (s.loader.procId v = some e.1 → s.history.ran v = true)
  | .resume | .leave => True

/-- Every host is running, and no virtual processor has been initialized. -/
structure Starts : Prop where
  hostCurrent : ∀ p, s.machine.current p = some (.host p)
  hostActive : ∀ p q, s.machine.active (.host p) q = true → q = p
  hostLaunched : ∀ p, s.machine.launched (.host p) = true
  hostArea : ∀ p, s.machine.area (.host p) = cpus.hostArea p
  inactive : ∀ v q, s.machine.active (.custom v) q = false
  uncreated : ∀ v, s.history.creator v = none ∧ s.history.holder v = none

/-- The invariant. -/
structure Kept : Prop where
  hostActive : ∀ p q, s.machine.active (.host p) q = true → q = p
  hostLaunched : ∀ p, s.machine.launched (.host p) = true
  hostArea : ∀ p, s.machine.area (.host p) = cpus.hostArea p
  customActive : ∀ v q, s.machine.active (.custom v) q = true ↔ s.history.holder v = some q
  created : ∀ v q, s.history.creator v = some q →
    s.machine.area (.custom v) = cpus.hostArea q ∧ s.machine.launched (.custom v) = s.history.ran v
  current : ∀ p v, s.machine.current p = some (.custom v) →
    s.history.holder v = some p ∧ s.history.creator v = some p ∧ s.history.ran v = true

section

variable {cpus : Processors P} {s : VtState V P} {p q : P} {v w : V} {e : P × VmcsEvent V}

theorem code_create : s.code cpus (p, .create v) =
    nvcVtInitializeCvmVmcs cpus p v ++ [.vmresume] := by
  simp [code, nvcVtExitHandlerA, nvcVtExitHandler]

theorem code_setOptions : s.code cpus (p, .setOptions v) =
    [.vmptrld (.custom v), .vmptrld (.host p), .vmresume] := by
  simp [code, nvcVtExitHandlerA, nvcVtExitHandler, nvcVtSetGuestVcpuOptions]

theorem code_run_again (h : s.loader.procId v = some p) :
    s.code cpus (p, .run v) = [.vmptrld (.custom v), .vmresume] := by
  simp [code, nvcVtExitHandlerA, nvcVtExitHandler, nvcVtSwitchToGuestVcpu, h]

theorem code_run_first (h : s.loader.procId v ≠ some p) :
    s.code cpus (p, .run v) = [.vmclear (.custom v), .vmptrld (.custom v), .vmlaunch] := by
  simp [code, nvcVtExitHandlerA, nvcVtExitHandler, nvcVtSwitchToGuestVcpu, h]

theorem code_resume : s.code cpus (p, .resume) = [.vmresume] := by
  simp [code, nvcVtExitHandlerA, nvcVtExitHandler]

theorem code_leave : s.code cpus (p, .leave) = [.vmptrld (.host p), .vmresume] := by
  simp [code, nvcVtExitHandlerA, nvcVtExitHandler, nvcVtSwitchToHostVcpu]

/-- The host area is written in two steps. -/
theorem exec_hostArea {m : Machine (Vmcs V P) P VmcsHostArea} (h : m.current p = some (.custom v)) :
    exec p (exec p m (nvcVtInitializeCvmHostState cpus p)) (nvcVtInitializeCvmMsrAutoList cpus p) =
      { m with area := update m.area (.custom v) (cpus.hostArea p) } := by
  unfold nvcVtInitializeCvmHostState nvcVtInitializeCvmMsrAutoList
  rw [exec_vmwrite_vmwrite, exec_vmwrite h]
  rfl

/-- An initialized VMCS is left clear and inactive, with the host area of the processor. -/
theorem create_machine (cpus : Processors P) (m : Machine (Vmcs V P) P VmcsHostArea) (p : P)
    (v : V) (x : Vmcs V P) (q : P) :
    let m' := execAll p m (nvcVtInitializeCvmVmcs cpus p v)
    m'.active x q = (if x = .custom v ∧ q = p then false else
      if x = .host p ∧ q = p then true else m.active x q) ∧
    m'.launched x = (if x = .custom v then false else m.launched x) ∧
    m'.current q = (if q = p then some (.host p) else m.current q) ∧
    m'.area x = (if x = .custom v then cpus.hostArea p else m.area x) := by
  unfold nvcVtInitializeCvmVmcs execAll
  simp only [List.foldl_cons, List.foldl_nil, exec_hostArea current_of_vmptrld]
  refine ⟨?_, ?_, ?_, ?_⟩
  · by_cases hx : x = .custom v <;> by_cases hq : q = p <;> simp [hx, hq]
  · by_cases hx : x = .custom v <;> simp [hx]
  · by_cases hq : q = p <;> simp [hq]
  · simp [update_apply]

/-! Where the events keep to the rules. -/

omit [DecidableEq V] [DecidableEq P] in
theorem Kept.load_iff (h : s.Kept cpus) :
    Legal cpus.hostArea p s.machine (.vmptrld (.custom v)) ↔ s.history.Free p v := by
  refine forall_congr' fun q => ?_
  rw [h.customActive]

theorem Kept.resident_create (h : s.Kept cpus) :
    s.Resident cpus (p, .create v) ↔ s.history.Free p v := by
  have hmachine := create_machine cpus s.machine p v (.host p) p
  unfold Resident
  rw [code_create, legalAll_append]
  constructor
  · rintro ⟨⟨-, hload, -⟩, -⟩
    exact h.load_iff.mp (legal_vmptrld_cleared.mp hload)
  · intro hfree
    refine ⟨⟨trivial, legal_vmptrld_cleared.mpr (h.load_iff.mpr hfree), trivial, trivial, trivial,
      ?_, trivial⟩, ⟨.host p, ?_, ?_, ?_⟩, trivial⟩
    · intro q hq
      rw [exec_hostArea current_of_vmptrld] at hq
      exact h.hostActive p q (by simpa using hq)
    · simp [hmachine]
    · simp [hmachine, h.hostLaunched]
    · simp [hmachine, h.hostArea]

theorem Kept.resident_setOptions (h : s.Kept cpus) :
    s.Resident cpus (p, .setOptions v) ↔ s.history.Free p v := by
  unfold Resident
  rw [code_setOptions]
  constructor
  · rintro ⟨hload, -⟩
    exact h.load_iff.mp hload
  · intro hfree
    refine ⟨h.load_iff.mpr hfree, legalAll_resume.mpr ⟨?_, ?_, ?_⟩⟩
    · intro q hq
      exact h.hostActive p q (by simpa using hq)
    · simp [h.hostLaunched]
    · simp [h.hostArea]

theorem Kept.resident_run (h : s.Kept cpus) (hcreated : s.history.creator v ≠ none) :
    s.Resident cpus (p, .run v) ↔ s.history.Free p v ∧ s.history.creator v = some p ∧
      (s.loader.procId v = some p → s.history.ran v = true) := by
  obtain ⟨q, hq⟩ := Option.ne_none_iff_exists'.mp hcreated
  obtain ⟨harea, hlaunched⟩ := h.created v q hq
  have hhost : s.machine.area (.custom v) = cpus.hostArea p ↔ s.history.creator v = some p := by
    rw [harea, hq, Option.some_inj]
    exact cpus.hostArea_injective.eq_iff
  unfold Resident
  by_cases hproc : s.loader.procId v = some p
  · rw [code_run_again hproc, legalAll_resume, h.load_iff, hlaunched, hhost]
    exact ⟨fun ⟨hfree, hran, hcreator⟩ => ⟨hfree, hcreator, fun _ => hran⟩,
      fun ⟨hfree, hcreator, hran⟩ => ⟨hfree, hran hproc, hcreator⟩⟩
  · rw [code_run_first hproc, legalAll_launch, h.load_iff, hhost]
    exact ⟨fun ⟨hfree, hcreator⟩ => ⟨hfree, hcreator, fun hsame => absurd hsame hproc⟩,
      fun ⟨hfree, hcreator, _⟩ => ⟨hfree, hcreator⟩⟩

theorem Kept.resident_resume (h : s.Kept cpus) (hcurrent : s.machine.current p = some (.custom v)) :
    s.Resident cpus (p, .resume) := by
  obtain ⟨-, hcreator, hran⟩ := h.current p v hcurrent
  obtain ⟨harea, hlaunched⟩ := h.created v p hcreator
  unfold Resident
  rw [code_resume]
  exact ⟨⟨.custom v, hcurrent, hlaunched.trans hran, harea⟩, trivial⟩

theorem Kept.resident_leave (h : s.Kept cpus) : s.Resident cpus (p, .leave) := by
  unfold Resident
  rw [code_leave]
  exact legalAll_resume.mpr ⟨h.hostActive p, h.hostLaunched p, h.hostArea p⟩

theorem Kept.resident_iff (h : s.Kept cpus) (hpossible : s.Possible e) :
    s.Resident cpus e ↔ s.Stays e := by
  obtain ⟨p, event⟩ := e
  cases event with
  | create v => exact h.resident_create
  | setOptions v => exact h.resident_setOptions
  | run v => exact h.resident_run hpossible.2
  | resume =>
      obtain ⟨v, hcurrent⟩ := hpossible
      exact iff_of_true (h.resident_resume hcurrent) trivial
  | leave => exact iff_of_true h.resident_leave trivial

/-! What the events keep. -/

theorem run_machine (cpus : Processors P)
    (hagain : s.loader.procId v = some p → s.machine.launched (.custom v) = true)
    (x : Vmcs V P) (q : P) :
    let m := (s.next cpus (p, .run v)).machine
    m.active x q = (if x = .custom v ∧ q = p then true else s.machine.active x q) ∧
    m.launched x = (if x = .custom v then true else s.machine.launched x) ∧
    m.current q = (if q = p then some (.custom v) else s.machine.current q) ∧
    m.area = s.machine.area := by
  unfold next
  by_cases hproc : s.loader.procId v = some p
  · rw [code_run_again hproc]
    refine ⟨vmptrld_active, ?_, vmptrld_current, rfl⟩
    by_cases hx : x = .custom v
    · rw [hx, if_pos rfl]
      exact hagain hproc
    · exact (if_neg hx).symm
  · rw [code_run_first hproc]
    unfold execAll
    simp only [List.foldl_cons, List.foldl_nil, exec_vmlaunch current_of_vmptrld]
    refine ⟨?_, ?_, ?_, rfl⟩
    · by_cases hx : x = .custom v <;> by_cases hq : q = p <;> simp [hx, hq]
    · by_cases hx : x = .custom v <;> simp [update_apply, hx]
    · by_cases hq : q = p <;> simp [hq]

theorem Kept.next_create (h : s.Kept cpus) (hfree : s.history.Free p v) :
    (s.next cpus (p, .create v)).Kept cpus := by
  have hmachine : (s.next cpus (p, .create v)).machine =
      execAll p s.machine (nvcVtInitializeCvmVmcs cpus p v) := by
    unfold next
    rw [code_create]
    exact execAll_append
  have hfields := create_machine cpus s.machine p v
  rw [← hmachine] at hfields
  have hcreator : (s.next cpus (p, .create v)).history.creator = update s.history.creator v (some p) := rfl
  have hholder : (s.next cpus (p, .create v)).history.holder = update s.history.holder v none := rfl
  have hran : (s.next cpus (p, .create v)).history.ran = update s.history.ran v false := rfl
  constructor
  · intro q r hactive
    rw [(hfields _ _).1] at hactive
    have hcases : q = p ∧ r = p ∨ s.machine.active (.host q) r = true := by simpa using hactive
    rcases hcases with ⟨rfl, rfl⟩ | hold
    · rfl
    · exact h.hostActive q r hold
  · intro q
    rw [(hfields _ q).2.1]
    simpa using h.hostLaunched q
  · intro q
    rw [(hfields _ q).2.2.2]
    simpa using h.hostArea q
  · intro w q
    rw [(hfields _ q).1, hholder]
    by_cases hw : w = v
    · obtain rfl := hw
      have hother : s.machine.active (.custom w) q = true → q = p :=
        fun hactive => hfree q ((h.customActive w q).mp hactive)
      by_cases hq : q = p
      · simp [hq]
      · simpa [hq] using hother
    · simpa [hw] using h.customActive w q
  · intro w q
    rw [(hfields _ q).2.1, (hfields _ q).2.2.2, hcreator, hran]
    by_cases hw : w = v
    · obtain rfl := hw
      simp +contextual
    · simpa [hw] using h.created w q
  · intro q w
    rw [(hfields (.host p) q).2.2.1, hcreator, hholder, hran]
    by_cases hq : q = p
    · simp [hq]
    · intro hcurrent
      have hold := h.current q w (by simpa [hq] using hcurrent)
      have hw : w ≠ v := fun hsame => hq (hfree q (hsame ▸ hold.1))
      simpa [hw] using hold

theorem Kept.next_setOptions (h : s.Kept cpus) (hfree : s.history.Free p v) :
    (s.next cpus (p, .setOptions v)).Kept cpus := by
  have hmachine : (s.next cpus (p, .setOptions v)).machine =
      exec p (exec p s.machine (.vmptrld (.custom v))) (.vmptrld (.host p)) := by
    unfold next
    rw [code_setOptions]
    rfl
  have hholder : (s.next cpus (p, .setOptions v)).history.holder =
      update s.history.holder v (some p) := rfl
  have hrest : (s.next cpus (p, .setOptions v)).history.creator = s.history.creator ∧
      (s.next cpus (p, .setOptions v)).history.ran = s.history.ran := ⟨rfl, rfl⟩
  constructor
  · intro q r hactive
    rw [hmachine] at hactive
    have hcases : q = p ∧ r = p ∨ s.machine.active (.host q) r = true := by simpa using hactive
    rcases hcases with ⟨rfl, rfl⟩ | hold
    · rfl
    · exact h.hostActive q r hold
  · rw [hmachine]
    exact h.hostLaunched
  · rw [hmachine]
    exact h.hostArea
  · intro w q
    rw [hmachine, hholder]
    by_cases hw : w = v
    · obtain rfl := hw
      have hother : s.machine.active (.custom w) q = true → q = p :=
        fun hactive => hfree q ((h.customActive w q).mp hactive)
      by_cases hq : q = p
      · simp [hq]
      · simpa [hq, Ne.symm hq] using hother
    · simpa [hw] using h.customActive w q
  · rw [hmachine]
    exact h.created
  · intro q w
    rw [hmachine, hholder, hrest.1, hrest.2]
    by_cases hq : q = p
    · simp [hq]
    · intro hcurrent
      have hold := h.current q w (by simpa [hq] using hcurrent)
      have hw : w ≠ v := fun hsame => hq (hfree q (hsame ▸ hold.1))
      simpa [hw] using hold

theorem Kept.next_run (h : s.Kept cpus) (hstays : s.Stays (p, .run v)) :
    (s.next cpus (p, .run v)).Kept cpus := by
  obtain ⟨hfree, hcreated, hagain⟩ := hstays
  have hlaunched := (h.created v p hcreated).2
  have hfields := run_machine cpus fun hproc => hlaunched.trans (hagain hproc)
  have hholder : (s.next cpus (p, .run v)).history.holder = update s.history.holder v (some p) := rfl
  have hran : (s.next cpus (p, .run v)).history.ran = update s.history.ran v true := rfl
  have hcreator : (s.next cpus (p, .run v)).history.creator = s.history.creator := rfl
  constructor
  · intro q r hactive
    rw [(hfields _ _).1] at hactive
    exact h.hostActive q r (by simpa using hactive)
  · intro q
    rw [(hfields _ q).2.1]
    simpa using h.hostLaunched q
  · rw [(hfields (.host p) p).2.2.2]
    exact h.hostArea
  · intro w q
    rw [(hfields _ q).1, hholder]
    by_cases hw : w = v
    · obtain rfl := hw
      have hother : s.machine.active (.custom w) q = true → q = p :=
        fun hactive => hfree q ((h.customActive w q).mp hactive)
      by_cases hq : q = p
      · simp [hq]
      · simpa [hq, Ne.symm hq] using hother
    · simpa [hw] using h.customActive w q
  · intro w q hcreatorq
    have hold := h.created w q hcreatorq
    rw [(hfields _ q).2.1, (hfields (.host p) p).2.2.2, hran]
    refine ⟨hold.1, ?_⟩
    by_cases hw : w = v
    · simp [hw]
    · simpa [hw] using hold.2
  · intro q w hcurrent
    rw [(hfields (.host p) q).2.2.1] at hcurrent
    rw [hholder, hran, hcreator]
    by_cases hq : q = p
    · have hw : w = v := by simpa [hq, eq_comm] using hcurrent
      obtain rfl := hw
      simpa [hq] using hcreated
    · have hold := h.current q w (by simpa [hq] using hcurrent)
      have hw : w ≠ v := fun hsame => hq (hfree q (hsame ▸ hold.1))
      simpa [hw] using hold

theorem Kept.next_resume (h : s.Kept cpus) : (s.next cpus (p, .resume)).Kept cpus := by
  have hmachine : (s.next cpus (p, .resume)).machine = s.machine := by
    unfold next
    rw [code_resume]
    rfl
  constructor <;> rw [hmachine]
  exacts [h.hostActive, h.hostLaunched, h.hostArea, h.customActive, h.created, h.current]

theorem Kept.next_leave (h : s.Kept cpus) : (s.next cpus (p, .leave)).Kept cpus := by
  have hmachine : (s.next cpus (p, .leave)).machine = exec p s.machine (.vmptrld (.host p)) := by
    unfold next
    rw [code_leave]
    rfl
  have hhistory : (s.next cpus (p, .leave)).history = s.history := rfl
  constructor <;> rw [hmachine]
  · intro q r hactive
    have hcases : q = p ∧ r = p ∨ s.machine.active (.host q) r = true := by simpa using hactive
    rcases hcases with ⟨rfl, rfl⟩ | hold
    · rfl
    · exact h.hostActive q r hold
  · exact h.hostLaunched
  · exact h.hostArea
  · intro w q
    rw [hhistory]
    simpa using h.customActive w q
  · exact h.created
  · intro q w hcurrent
    by_cases hq : q = p
    · simp [hq] at hcurrent
    · exact h.current q w (by simpa [hq] using hcurrent)

theorem Kept.next (h : s.Kept cpus) (hstays : s.Stays e) : (s.next cpus e).Kept cpus := by
  obtain ⟨p, event⟩ := e
  cases event with
  | create v => exact h.next_create hstays
  | setOptions v => exact h.next_setOptions hstays
  | run v => exact h.next_run hstays
  | resume => exact h.next_resume
  | leave => exact h.next_leave

omit [DecidableEq V] [DecidableEq P] in
theorem Starts.kept (h : s.Starts cpus) : s.Kept cpus := by
  refine ⟨h.hostActive, h.hostLaunched, h.hostArea, ?_, ?_, ?_⟩
  · intro v q
    rw [h.inactive, (h.uncreated v).2]
    exact iff_of_false Bool.false_ne_true (Option.some_ne_none q).symm
  · intro v q hcreator
    rw [(h.uncreated v).1] at hcreator
    exact absurd hcreator.symm (Option.some_ne_none q)
  · intro p v hcurrent
    rw [h.hostCurrent] at hcurrent
    exact absurd hcurrent (by simp)

end

/-! A virtual processor is initialized on the first of two processors. -/

def bootArea (p : Bool) : VmcsHostArea where
  hostRsp := if p then 0xFFFF900000020000 else 0xFFFF900000010000
  hostFsBase := 0
  hostGsBase := if p then 0xFFFF800000002000 else 0xFFFF800000001000
  hostTrBase := if p then 0xFFFF800000004000 else 0xFFFF800000003000
  hostGdtrBase := if p then 0xFFFF800000006000 else 0xFFFF800000005000
  hostIdtrBase := if p then 0xFFFF800000008000 else 0xFFFF800000007000
  vmexitMsrLoadAddress := if p then 0x2C00 else 0x1C00

def bootProcessors : Processors Bool where
  hostArea := bootArea
  distinct := by
    intro p q
    revert p q
    decide

def boot : VtState Unit Bool where
  machine :=
    { active := fun x q => decide (x = .host q)
      launched := fun x => decide (x ≠ .custom ())
      current := fun p => some (.host p)
      area := fun x => match x with
        | .host p => bootArea p
        | .custom _ => ⟨0, 0, 0, 0, 0, 0, 0⟩ }
  loader := { procId := fun _ => none, initialVmcs := fun _ => false }
  history := { creator := fun _ => none, holder := fun _ => none, ran := fun _ => false }

theorem boot_starts : boot.Starts bootProcessors where
  hostCurrent _ := rfl
  hostActive p q h := by
    have hsame : Vmcs.host p = (Vmcs.host q : Vmcs Unit Bool) := of_decide_eq_true h
    exact (Vmcs.host.inj hsame).symm
  hostLaunched _ := rfl
  hostArea _ := rfl
  inactive _ _ := rfl
  uncreated _ := ⟨rfl, rfl⟩

end VtState

end NoirVisor.Residency
