import NoirVisor.Cvm.Edit
import NoirVisor.Cvm.Processor
import NoirVisor.Transition

/-!
# World switches on one processor

The subverted host and any number of virtual CPUs take turns. Beside the state stand the contexts that
the switches should bring back: what the host had at the last entry, and what every guest had at its
last exit, with the later edits.

What follows is the same for both cores: a core tells how it enters and leaves a guest, and where a
guest has its registers.
-/

namespace NoirVisor

structure Core (κ : Type) where
  late : Register → Bool
  header : κ → VirtualCpu
  enter : Xsave.Features → Processor → VirtualCpu → κ → Option (Processor × VirtualCpu × κ)
  leave : Xsave.Features → Processor → VirtualCpu → κ → Option (Processor × κ)
  edit : Nat → EditCall → κ → κ
  /-- What the guest, and the handlers of other exits, may make of a vCPU while it runs. -/
  executes : κ → κ → Prop
  /-- The registers that a context has. -/
  covers : Register → Bool
  /-- Where a guest that runs has a register. -/
  held : Processor → κ → Register → Nat
  /-- What the next entry gives the guest, or would have to. -/
  next : κ → Register → Nat
  /-- An edit loses no register. -/
  keeps : EditCall → κ → Prop
  /-- The switches are those of a vCPU that is not protected. -/
  plain : κ → Prop
  /-- The groups of the context registers are valid. -/
  ready : κ → Prop

/-- What both cores have in common. -/
structure Core.Lawful {κ : Type} (core : Core κ) : Prop where
  enter_eq : ∀ cpu p host v, core.plain v → ∃ entered,
    core.enter cpu p host v =
      ((p.enterGuest cpu core.late (core.header v)).map fun p' =>
        (p', (host.saveRegisters (switched core.late) p).saveExtended p, entered)) ∧
    core.plain entered ∧ core.ready entered ∧
    (core.header entered).xsaveArea = (core.header v).xsaveArea ∧
    ∀ r, core.covers r = true →
      core.held (p.loaded core.late (p.reg .xcr0) (core.header v)) entered r = core.next v r
  leave_eq : ∀ cpu p host v, core.plain v → core.ready v → ∃ left,
    core.leave cpu p host v =
      ((p.leaveGuest cpu core.late host (core.header v)).map fun result => (result.1, left)) ∧
    core.plain left ∧
    (core.header left).xsaveArea =
      Xsave.save (host.reg .xcr0) p.xstate (core.header v).xsaveArea ∧
    ∀ r, core.covers r = true → core.next left r = core.held p v r
  executes_plain : ∀ v v', core.executes v v' → core.plain v → core.plain v'
  executes_ready : ∀ v v', core.executes v v' → core.ready v → core.ready v'
  edit_plain : ∀ size call v, core.plain v → core.plain (core.edit size call v)
  edit_area : ∀ size call v, (core.header (core.edit size call v)).xsaveArea =
    EditCalls.area (EditCalls.extEdits size [call]) (core.header v).xsaveArea
  edit_next : ∀ size call v r, core.keeps call v → core.covers r = true →
    core.next (core.edit size call v) r =
      (Writeback.lastWrite call.edits r).getD (core.next v r)

/-- `hostBlock` has the registers of the host that the switches leave in its own control block. -/
structure World (ι κ : Type) where
  p : Processor
  hostBlock : Register → Nat
  host : VirtualCpu
  vcpu : ι → κ
  running : Option ι
  hostContext : GuestFile
  context : ι → GuestFile

inductive WorldEvent (ι κ : Type) where
  | host (p : Processor) (block : Register → Nat)
  | edit (i : ι) (call : EditCall)
  | enter (i : ι)
  | guest (p : Processor) (v : κ)
  | leave

namespace World

variable {ι κ : Type}

/-- A register of the host while it runs. -/
def hostHeld (core : Core κ) (w : World ι κ) (r : Register) : Nat :=
  if switched core.late r then w.p.reg r else w.hostBlock r

/-- The entry succeeds, and the guest finds its context. -/
def EntryPreserves (core : Core κ) (cpu : Xsave.Features) (w : World ι κ) (i : ι) : Prop :=
  ∃ p host v, core.enter cpu w.p w.host (w.vcpu i) = some (p, host, v) ∧
    (∀ r, core.covers r = true → core.held p v r = (w.context i).reg r) ∧
    p.xstate = (w.context i).xstate

/-- The return to the host succeeds, and the host finds its context. -/
def ReturnPreserves (core : Core κ) (cpu : Xsave.Features) (w : World ι κ) (i : ι) : Prop :=
  ∃ p v, core.leave cpu w.p w.host (w.vcpu i) = some (p, v) ∧
    (∀ r, core.covers r = true → hostHeld core { w with p } r = w.hostContext.reg r) ∧
    p.xstate = w.hostContext.xstate

/-- The processor has the same in every component that XCR0 does not enable. -/
def Agrees (xcr0 : Nat) (p : Processor) (xstate : Xsave.State) : Prop :=
  (∀ c, Xsave.enabled xcr0 c = false → p.xstate.component c = xstate.component c) ∧
    (Xsave.mxcsrEnabled xcr0 = false → p.xstate.mxcsr = xstate.mxcsr)

/-- No instruction of the switch raises an exception, and the guest has the components that the host
has not enabled as the host has them. -/
structure EntryKept (core : Core κ) (cpu : Xsave.Features) (w : World ι κ) (i : ι) : Prop where
  loadable : GuestLoadable cpu (core.header (w.vcpu i)) w.p
  components : Agrees (w.p.reg .xcr0) w.p (w.context i).xstate

/-- The guest left those components alone. -/
structure ReturnKept (cpu : Xsave.Features) (w : World ι κ) : Prop where
  loadable : HostLoadable cpu w.host
  components : Agrees (w.hostContext.reg .xcr0) w.p w.hostContext.xstate

variable [DecidableEq ι]

def Takes (core : Core κ) (cpu : Xsave.Features) (supportedSizeMax : Nat) (w : World ι κ) :
    WorldEvent ι κ → World ι κ → Prop
  | .host p hostBlock, w' => w.running = none ∧ w' = { w with p, hostBlock }
  | .edit i call, w' =>
      w.running = none ∧
        w' = { w with
          vcpu := Function.update w.vcpu i (core.edit supportedSizeMax call (w.vcpu i))
          context := Function.update w.context i
            ⟨fun r => (Writeback.lastWrite call.edits r).getD ((w.context i).reg r),
              EditCalls.write (EditCalls.extEdits supportedSizeMax [call]) (w.context i).xstate⟩ }
  | .enter i, w' =>
      w.running = none ∧
        ∃ p host v, core.enter cpu w.p w.host (w.vcpu i) = some (p, host, v) ∧
          w' = { w with
            p, host
            vcpu := Function.update w.vcpu i v
            running := some i
            hostContext := ⟨hostHeld core w, w.p.xstate⟩ }
  | .guest p v, w' =>
      ∃ i, w.running = some i ∧ core.executes (w.vcpu i) v ∧
        w' = { w with p, vcpu := Function.update w.vcpu i v }
  | .leave, w' =>
      ∃ i p v, w.running = some i ∧ core.leave cpu w.p w.host (w.vcpu i) = some (p, v) ∧
        w' = { w with
          p
          vcpu := Function.update w.vcpu i v
          running := none
          context := Function.update w.context i ⟨core.held w.p (w.vcpu i), w.p.xstate⟩ }

/-- The area of the vCPU gives this extended state. -/
def AreaGives (core : Core κ) (v : κ) (xstate : Xsave.State) : Prop :=
  (core.header v).xsaveArea.value = xstate.component ∧ (core.header v).xsaveArea.mxcsr = xstate.mxcsr

/-- No vCPU has run yet: a context is what was set. -/
structure Start (core : Core κ) (w : World ι κ) : Prop where
  running : w.running = none
  plain : ∀ i, core.plain (w.vcpu i)
  context : ∀ i, (∀ r, (w.context i).reg r = core.next (w.vcpu i) r) ∧
    AreaGives core (w.vcpu i) (w.context i).xstate

/-- An edit must not lose anything, and a guest that leaves must have changed no component that the
host has not enabled. -/
def Kept (core : Core κ) (supportedSizeMax : Nat) (w : World ι κ) : WorldEvent ι κ → Prop
  | .edit i call =>
      core.keeps call (w.vcpu i) ∧
        ∀ c, ¬EditCalls.Lost (EditCalls.extEdits supportedSizeMax [call])
          (core.header (w.vcpu i)).xsaveArea c
  | .leave => ∀ i, w.running = some i →
      Agrees (w.hostContext.reg .xcr0) w.p
        ⟨(core.header (w.vcpu i)).xsaveArea.value, (core.header (w.vcpu i)).xsaveArea.mxcsr⟩
  | _ => True

def Reachable (core : Core κ) (cpu : Xsave.Features) (supportedSizeMax : Nat)
    (condition : World ι κ → WorldEvent ι κ → Prop) : World ι κ → Prop :=
  Transition.Reachable (Start core) fun w w' =>
    ∃ e, condition w e ∧ Takes core cpu supportedSizeMax w e w'

/-- An entry, and a return from the guest that runs, preserve the context exactly when nothing but
the switch has changed it. -/
structure PreservedIff (core : Core κ) (cpu : Xsave.Features) (w : World ι κ) : Prop where
  entry : ∀ i, w.running = none → (w.EntryPreserves core cpu i ↔ w.EntryKept core cpu i)
  leave : ∀ i, w.running = some i → (w.ReturnPreserves core cpu i ↔ w.ReturnKept cpu)

/-- A vCPU that does not run has its context, and while one runs the structure for the host has the
context of the host. -/
structure Coherent (core : Core κ) (w : World ι κ) : Prop where
  plain : ∀ i, core.plain (w.vcpu i)
  reg : ∀ i, w.running ≠ some i → ∀ r, core.covers r = true →
    core.next (w.vcpu i) r = (w.context i).reg r
  area : ∀ i, w.running ≠ some i → AreaGives core (w.vcpu i) (w.context i).xstate
  ready : ∀ i, w.running = some i → core.ready (w.vcpu i)
  hostReg : ∀ i, w.running = some i → ∀ r, w.hostContext.reg r =
    if switched core.late r then w.host.reg r else w.hostBlock r
  hostArea : ∀ i, w.running = some i →
    (∀ c, Xsave.enabled (w.host.reg .xcr0) c = true →
      w.host.xsaveArea.value c = w.hostContext.xstate.component c) ∧
    (Xsave.mxcsrEnabled (w.host.reg .xcr0) = true →
      w.host.xsaveArea.mxcsr = w.hostContext.xstate.mxcsr)

end World

section Steps

variable {ι κ : Type} {core : Core κ} {cpu : Xsave.Features} {supportedSizeMax : Nat}
  {w w' : World ι κ} {i : ι}

theorem switched_xcr0 {late : Register → Bool} : switched late .xcr0 = true := by
  simp [switched]

theorem saved_reg_of_selected {host : VirtualCpu} {p : Processor} {select : Register → Bool}
    {r : Register} (h : select r = true) :
    ((host.saveRegisters select p).saveExtended p).reg r = p.reg r := if_pos h

namespace World

theorem Start.coherent (h : w.Start core) : w.Coherent core where
  plain := h.plain
  reg i _ r _ := ((h.context i).1 r).symm
  area i _ := (h.context i).2
  ready i hi := absurd (h.running.symm.trans hi) (by simp)
  hostReg i hi := absurd (h.running.symm.trans hi) (by simp)
  hostArea i hi := absurd (h.running.symm.trans hi) (by simp)

theorem areaGives_iff {v : κ} {xstate : Xsave.State} : AreaGives core v xstate ↔
    xstate = ⟨(core.header v).xsaveArea.value, (core.header v).xsaveArea.mxcsr⟩ := by
  rw [Xsave.State.ext_iff, AreaGives]
  exact and_congr eq_comm eq_comm

theorem value_save_of_enabled {xcr0 : Nat} {xstate : Xsave.State} {area : Xsave.Area} {c : Fin 63}
    (h : Xsave.enabled xcr0 c = true) :
    (Xsave.save xcr0 xstate area).value c = xstate.component c := by
  rw [Xsave.value_save, if_pos h]

theorem Coherent.hostXcr0 (h : w.Coherent core) (hrunning : w.running = some i) :
    w.hostContext.reg .xcr0 = w.host.reg .xcr0 :=
  (h.hostReg i hrunning .xcr0).trans (if_pos switched_xcr0)

theorem loaded_eq_iff {late : Register → Bool} {xcr0 : Nat} {vcpu : VirtualCpu} {p : Processor}
    {xstate : Xsave.State}
    (hvalue : ∀ c, Xsave.enabled xcr0 c = true → vcpu.xsaveArea.value c = xstate.component c)
    (hmxcsr : Xsave.mxcsrEnabled xcr0 = true → vcpu.xsaveArea.mxcsr = xstate.mxcsr) :
    (p.loaded late xcr0 vcpu).xstate = xstate ↔ Agrees xcr0 p xstate := by
  rw [Xsave.State.ext_iff, funext_iff]
  refine and_congr (forall_congr' fun c => ?_) ?_
  · by_cases hc : Xsave.enabled xcr0 c = true
    · simp [Processor.loaded, Xsave.Area.loaded, hc, hvalue c hc]
    · simp [Processor.loaded, Xsave.Area.loaded, hc]
  · by_cases hc : Xsave.mxcsrEnabled xcr0 = true
    · simp [Processor.loaded, Xsave.Area.loaded, hc, hmxcsr hc]
    · simp [Processor.loaded, Xsave.Area.loaded, hc]

theorem Coherent.entryPreserves_iff (hlawful : core.Lawful) (h : w.Coherent core)
    (hrunning : w.running = none) : w.EntryPreserves core cpu i ↔ w.EntryKept core cpu i := by
  have hidle : w.running ≠ some i := by simp [hrunning]
  obtain ⟨entered, heq, -, -, -, hheld⟩ :=
    hlawful.enter_eq cpu w.p w.host (w.vcpu i) (h.plain i)
  obtain ⟨hvalue, hmxcsr⟩ := h.area i hidle
  have hloaded : (w.p.loaded core.late (w.p.reg .xcr0) (core.header (w.vcpu i))).xstate =
      (w.context i).xstate ↔ Agrees (w.p.reg .xcr0) w.p (w.context i).xstate :=
    loaded_eq_iff (fun c _ => congrFun hvalue c) fun _ => hmxcsr
  constructor
  · rintro ⟨p, host, v, henter, -, hxstate⟩
    rw [heq] at henter
    obtain ⟨p', hload, hresult⟩ := Option.map_eq_some_iff.mp henter
    obtain ⟨rfl, -, -⟩ := by simpa only [Prod.mk.injEq] using hresult
    obtain ⟨hloadable, rfl⟩ := enterGuest_eq_some hload
    exact ⟨hloadable, hloaded.mp hxstate⟩
  · intro ⟨hloadable, hcomponents⟩
    rw [enterGuest_of_loadable hloadable] at heq
    exact ⟨_, _, _, heq, fun r hr => (hheld r hr).trans (h.reg i hidle r hr), hloaded.mpr hcomponents⟩

theorem Coherent.returnPreserves_iff (hlawful : core.Lawful) (h : w.Coherent core)
    (hrunning : w.running = some i) : w.ReturnPreserves core cpu i ↔ w.ReturnKept cpu := by
  obtain ⟨left, heq, -, -, -⟩ :=
    hlawful.leave_eq cpu w.p w.host (w.vcpu i) (h.plain i) (h.ready i hrunning)
  obtain ⟨hvalue, hmxcsr⟩ := h.hostArea i hrunning
  have hloaded : (w.p.loaded core.late (w.host.reg .xcr0) w.host).xstate = w.hostContext.xstate ↔
      Agrees (w.hostContext.reg .xcr0) w.p w.hostContext.xstate := by
    rw [h.hostXcr0 hrunning]
    exact loaded_eq_iff hvalue hmxcsr
  constructor
  · rintro ⟨p, v, hleave, -, hxstate⟩
    rw [heq] at hleave
    obtain ⟨⟨p', header⟩, hload, hresult⟩ := Option.map_eq_some_iff.mp hleave
    obtain ⟨rfl, -⟩ := Prod.mk.inj hresult
    obtain ⟨hloadable, rfl, -⟩ := leaveGuest_eq_some hload
    exact ⟨hloadable, hloaded.mp hxstate⟩
  · intro ⟨hloadable, hcomponents⟩
    rw [leaveGuest_of_loadable hloadable] at heq
    refine ⟨_, _, heq, fun r _ => ?_, hloaded.mpr hcomponents⟩
    rw [h.hostReg i hrunning r]
    unfold hostHeld
    split
    · next hswitched => exact copyRegisters_of_selected hswitched
    · rfl

variable [DecidableEq ι]

theorem Coherent.edit (hlawful : core.Lawful) (h : w.Coherent core) {call : EditCall}
    (hkept : Kept core supportedSizeMax w (.edit i call))
    (htakes : Takes core cpu supportedSizeMax w (.edit i call) w') : w'.Coherent core := by
  obtain ⟨hrunning, rfl⟩ := htakes
  obtain ⟨hkeeps, hlost⟩ := hkept
  have hidle (j : ι) : w.running ≠ some j := by simp [hrunning]
  refine ⟨fun j => ?_, fun j _ r hr => ?_, fun j _ => ?_, fun j hj => absurd hj (hidle j),
    fun j hj => absurd hj (hidle j), fun j hj => absurd hj (hidle j)⟩
  · by_cases hj : j = i
    · subst hj
      simpa using hlawful.edit_plain supportedSizeMax call _ (h.plain j)
    · simpa [hj] using h.plain j
  · by_cases hj : j = i
    · subst hj
      simp only [Function.update_self]
      rw [hlawful.edit_next supportedSizeMax call _ r hkeeps hr, h.reg j (hidle j) r hr]
    · simpa [hj] using h.reg j (hidle j) r hr
  · by_cases hj : j = i
    · subst hj
      simp only [Function.update_self]
      have hold := areaGives_iff.mp (h.area j (hidle j))
      refine ⟨?_, ?_⟩
      · funext c
        rw [hlawful.edit_area, EditCalls.area_value.mpr (hlost c), ← hold]
      · rw [hlawful.edit_area, EditCalls.area_mxcsr, ← hold]
    · simpa [hj] using h.area j (hidle j)

theorem Coherent.enter (hlawful : core.Lawful) (h : w.Coherent core)
    (htakes : Takes core cpu supportedSizeMax w (.enter i) w') : w'.Coherent core := by
  obtain ⟨hrunning, p, host, v, henter, rfl⟩ := htakes
  have hidle (j : ι) : w.running ≠ some j := by simp [hrunning]
  obtain ⟨entered, heq, hplain, hready, -, -⟩ :=
    hlawful.enter_eq cpu w.p w.host (w.vcpu i) (h.plain i)
  rw [heq] at henter
  obtain ⟨p', -, hresult⟩ := Option.map_eq_some_iff.mp henter
  obtain ⟨rfl, rfl, rfl⟩ := by simpa only [Prod.mk.injEq] using hresult
  refine ⟨fun j => ?_, fun j hj r hr => ?_, fun j hj => ?_, fun j hj => ?_, fun j hj r => ?_,
    fun j hj => ?_⟩
  · by_cases hj : j = i
    · subst hj
      simpa using hplain
    · simpa [hj] using h.plain j
  · have hj : j ≠ i := fun heq => hj (congrArg some heq.symm)
    simpa [hj] using h.reg j (hidle j) r hr
  · have hj : j ≠ i := fun heq => hj (congrArg some heq.symm)
    simpa [hj] using h.area j (hidle j)
  · obtain rfl : i = j := Option.some.inj hj
    simpa using hready
  · dsimp only [hostHeld, VirtualCpu.saveExtended, VirtualCpu.saveRegisters, copyRegisters]
    split <;> rfl
  · dsimp only
    rw [saved_reg_of_selected switched_xcr0]
    exact ⟨fun c hc => value_save_of_enabled hc, fun hc => if_pos hc⟩

theorem Coherent.guest (hlawful : core.Lawful) (h : w.Coherent core) {p : Processor} {v : κ}
    (htakes : Takes core cpu supportedSizeMax w (.guest p v) w') : w'.Coherent core := by
  obtain ⟨i, hrunning, hexecutes, rfl⟩ := htakes
  have hother {j : ι} (hj : w.running ≠ some j) : j ≠ i := fun heq => hj (heq ▸ hrunning)
  refine ⟨fun j => ?_, fun j hj r hr => ?_, fun j hj => ?_, fun j hj => ?_, h.hostReg, h.hostArea⟩
  · by_cases hj : j = i
    · subst hj
      simpa using hlawful.executes_plain _ _ hexecutes (h.plain j)
    · simpa [hj] using h.plain j
  · simpa [hother hj] using h.reg j hj r hr
  · simpa [hother hj] using h.area j hj
  · obtain rfl : i = j := Option.some.inj (hrunning.symm.trans hj)
    simpa using hlawful.executes_ready _ _ hexecutes (h.ready i hrunning)

theorem Coherent.leave (hlawful : core.Lawful) (h : w.Coherent core)
    (hkept : Kept core supportedSizeMax w .leave)
    (htakes : Takes core cpu supportedSizeMax w .leave w') : w'.Coherent core := by
  obtain ⟨i, p, v, hrunning, hleave, rfl⟩ := htakes
  obtain ⟨left, heq, hplain, harea, hnext⟩ :=
    hlawful.leave_eq cpu w.p w.host (w.vcpu i) (h.plain i) (h.ready i hrunning)
  rw [heq] at hleave
  obtain ⟨result, -, hresult⟩ := Option.map_eq_some_iff.mp hleave
  obtain ⟨-, rfl⟩ := Prod.mk.inj hresult
  obtain ⟨hcomponents, hmxcsr⟩ := hkept i hrunning
  rw [h.hostXcr0 hrunning] at hcomponents hmxcsr
  have hother {j : ι} (hj : j ≠ i) : w.running ≠ some j := fun heq =>
    hj (Option.some.inj (heq.symm.trans hrunning))
  refine ⟨fun j => ?_, fun j _ r hr => ?_, fun j _ => ?_, fun j hj => (nomatch hj),
    fun j hj => (nomatch hj), fun j hj => (nomatch hj)⟩
  · by_cases hj : j = i
    · subst hj
      simpa using hplain
    · simpa [hj] using h.plain j
  · by_cases hj : j = i
    · subst hj
      simpa using hnext r hr
    · simpa [hj] using h.reg j (hother hj) r hr
  · by_cases hj : j = i
    · subst hj
      simp only [Function.update_self]
      refine ⟨?_, ?_⟩
      · funext c
        rw [harea, Xsave.value_save]
        split
        · rfl
        · next hc => exact (hcomponents c (Bool.eq_false_iff.mpr hc)).symm
      · rw [harea, Xsave.save]
        dsimp only
        split
        · rfl
        · next hc => exact (hmxcsr (Bool.eq_false_iff.mpr hc)).symm
    · simpa [hj] using h.area j (hother hj)

theorem Coherent.step (hlawful : core.Lawful) (h : w.Coherent core) {e : WorldEvent ι κ}
    (hkept : Kept core supportedSizeMax w e) (htakes : Takes core cpu supportedSizeMax w e w') :
    w'.Coherent core := by
  cases e with
  | host p block =>
      obtain ⟨hrunning, rfl⟩ := htakes
      have hidle (j : ι) : w.running ≠ some j := by simp [hrunning]
      exact ⟨h.plain, h.reg, h.area, h.ready, fun j hj => absurd hj (hidle j), h.hostArea⟩
  | edit i call => exact h.edit hlawful hkept htakes
  | enter i => exact h.enter hlawful htakes
  | guest p v => exact h.guest hlawful htakes
  | leave => exact h.leave hlawful hkept htakes

theorem Reachable.coherent (hlawful : core.Lawful)
    (h : Reachable core cpu supportedSizeMax (Kept core supportedSizeMax) w) : w.Coherent core :=
  h.invariant (fun _ => Start.coherent) fun _ _ _ hw ⟨_, hkept, htakes⟩ =>
    hw.step hlawful hkept htakes

theorem Reachable.preservedIff (hlawful : core.Lawful)
    (h : Reachable core cpu supportedSizeMax (Kept core supportedSizeMax) w) :
    w.PreservedIff core cpu where
  entry _ := (h.coherent hlawful).entryPreserves_iff hlawful
  leave _ := (h.coherent hlawful).returnPreserves_iff hlawful

end World

end Steps

end NoirVisor
