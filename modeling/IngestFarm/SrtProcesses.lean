/-
# The processes of an SRT session

`_connect_srt_child` and `_teardown` of `ChannelSession` with the main program of
`srt_session_proc`: the session spawns a child, waits for its ready file and keeps it until it
tears down; the child holds a port for its monitor, hands it to a sidecar when media flow, and
stops the sidecar before it exits.  Any process may die at any moment.

* `Child`: a child process with its port and its sidecar;
* `Processes`, `step`: the session, its children and the ready file, step by step;
* `Owned`: the invariant.

A dead child is never waited for again, so what is left behind is a sidecar whose child was
killed, and nothing else (`processes_owned`).

A turn of the waiting loop is one step, from `poll()` to `ready.exists()`.  Nothing is lost by that:
a child that becomes ready between the two is one that was ready before the poll, and a child that
dies there with its ready file is adopted as one that dies right after the turn.  So "running" is
said of the moment of the poll.
-/
import IngestFarm.Runs

namespace SrtProcesses

/-- Where a child is in its main program; an exit is its own, a kill is not. -/
inductive Phase where
  /-- It sets up its pipeline. -/
  | starting
  /-- Its main loop runs. -/
  | looping
  /-- The loop has ended, and the sidecar is being stopped. -/
  | leaving
  /-- It has ended by itself. -/
  | exited
  /-- It was killed. -/
  | killed
  deriving DecidableEq

/-- The monitor of a child: not started, running, or over. -/
inductive Sidecar where
  /-- It was not started. -/
  | none
  /-- It runs. -/
  | running
  /-- It is over. -/
  | ended
  deriving DecidableEq

/-- A child process: `held` says that it holds the port of the monitor. -/
structure Child where
  phase : Phase
  held : Bool
  sidecar : Sidecar
  deriving DecidableEq

/-- `proc.poll() is None`: the child has neither exited nor been killed. -/
def Child.Alive (c : Child) : Prop := c.phase ≠ .exited ∧ c.phase ≠ .killed

instance (c : Child) : Decidable c.Alive :=
  inferInstanceAs (Decidable (c.phase ≠ .exited ∧ c.phase ≠ .killed))

/-- `proc.kill()`, which does nothing to a child that is gone. -/
def Child.kill (c : Child) : Child := if c.Alive then { c with phase := .killed } else c

/-- What the thread of the session is doing. -/
inductive Call where
  /-- It does not wait for a child. -/
  | none
  /-- It waits for a new child to become ready. -/
  | waiting (child : ℕ)
  /-- It waits for a child to exit. -/
  | closing (child : ℕ)
  deriving DecidableEq

/-- The session with its children, numbered in the order of their start; `ready` is the child
that has written the ready file, `quit` the children that have been sent the command. -/
structure Processes where
  /-- What the thread of the session is doing. -/
  call : Call
  /-- `_srt_proc`. -/
  proc : Option ℕ
  /-- A teardown has begun. -/
  stopping : Bool
  /-- The number of the next child. -/
  next : ℕ
  /-- All children that there were. -/
  children : ℕ → Child
  /-- The child that has written the ready file. -/
  ready : Option ℕ
  /-- The children that were sent the command. -/
  quit : List ℕ

/-- A session that has not connected. -/
def Processes.initial : Processes where
  call := .none
  proc := none
  stopping := false
  next := 0
  children := fun _ => ⟨.exited, false, .none⟩
  ready := none
  quit := []

/-- `is_connected`: the session has a child, and that child is alive. -/
def Processes.isConnected (s : Processes) : Prop :=
  ∃ c, s.proc = some c ∧ (s.children c).Alive

instance (s : Processes) : Decidable s.isConnected :=
  match h : s.proc with
  | none => isFalse fun ⟨c, hc, _⟩ => by rw [h] at hc; exact absurd hc (by simp)
  | some c => decidable_of_iff (s.children c).Alive
      ⟨fun ha => ⟨c, h, ha⟩, fun ⟨d, hd, ha⟩ => by
        rw [h] at hd
        exact Option.some.inj hd ▸ ha⟩

/-- Change one child. -/
def Processes.put (s : Processes) (c : ℕ) (child : Child) : Processes :=
  { s with children := Function.update s.children c child }

/-- The steps of the session, of its children, and of fate. -/
inductive Action where
  /-- The session starts a child. -/
  | connect
  /-- It looks at the child and the ready file. -/
  | check
  /-- It stops waiting for the child, and kills it. -/
  | giveUp
  /-- It begins a teardown, and sends the command if it can. -/
  | disconnect (sent : Bool)
  /-- The child that it waits for has exited. -/
  | reap
  /-- The child has not, and is killed. -/
  | timeout
  /-- A child writes the ready file, with or without a monitor to come. -/
  | becomeReady (c : ℕ) (monitor : Bool)
  /-- A child fails while it sets up. -/
  | fail (c : ℕ)
  /-- A child starts its monitor, which may fail. -/
  | startSidecar (c : ℕ) (spawned : Bool)
  /-- The loop of a child ends. -/
  | leave (c : ℕ)
  /-- A child stops its monitor. -/
  | stopSidecar (c : ℕ)
  /-- A child exits. -/
  | exit (c : ℕ)
  /-- A monitor ends by itself. -/
  | sidecarEnds (c : ℕ)
  /-- A child is killed from outside. -/
  | die (c : ℕ)
  deriving DecidableEq

/-- One step; `none` where it is not possible. -/
def step (s : Processes) : Action → Option Processes
  -- the state directory is emptied, then the child is started
  | .connect =>
    if s.call = .none ∧ ¬ s.isConnected then
      some { s.put s.next ⟨.starting, false, .none⟩ with
        call := .waiting s.next, stopping := false, next := s.next + 1, ready := none }
    else none
  -- one turn of the loop, poll and look at the ready file: an early exit raises, the file ends it
  | .check =>
    match s.call with
    | .waiting c =>
      if (s.children c).Alive then
        if s.ready = none then some s
        else some { s with call := .none, proc := some c }
      else some { s with call := .none }
    | _ => none
  | .giveUp =>
    match s.call with
    | .waiting c => some { s.put c (s.children c).kill with call := .none }
    | _ => none
  | .disconnect sent =>
    match s.proc with
    | some c =>
      if s.call = .none ∧ s.stopping = false then
        some { s with
          call := .closing c, stopping := true, quit := if sent then c :: s.quit else s.quit }
      else none
    | none => none
  | .reap =>
    match s.call with
    | .closing c =>
      if (s.children c).Alive then none else some { s with call := .none, proc := none }
    | _ => none
  | .timeout =>
    match s.call with
    | .closing c =>
      if (s.children c).Alive then
        some { s.put c { s.children c with phase := .killed } with call := .none, proc := none }
      else none
    | _ => none
  | .becomeReady c monitor =>
    if (s.children c).phase = .starting then
      some { s.put c { s.children c with phase := .looping, held := monitor } with
        ready := some c }
    else none
  | .fail c =>
    if (s.children c).phase = .starting then
      some (s.put c { s.children c with phase := .exited })
    else none
  -- the port is let go before the sidecar is started, which may fail
  | .startSidecar c spawned =>
    if (s.children c).phase = .looping ∧ (s.children c).sidecar = .none then
      some (s.put c { s.children c with
        held := false, sidecar := if spawned then .running else .none })
    else none
  | .leave c =>
    if (s.children c).phase = .looping ∧ c ∈ s.quit then
      some (s.put c { s.children c with phase := .leaving, held := false })
    else none
  -- the sidecar has seen its stop file, or is killed
  | .stopSidecar c =>
    if (s.children c).phase = .leaving ∧ (s.children c).sidecar = .running then
      some (s.put c { s.children c with sidecar := .ended })
    else none
  | .exit c =>
    if (s.children c).phase = .leaving ∧ (s.children c).sidecar ≠ .running then
      some { s.put c { s.children c with phase := .exited } with ready := none }
    else none
  | .sidecarEnds c =>
    if (s.children c).sidecar = .running then
      some (s.put c { s.children c with sidecar := .ended })
    else none
  | .die c =>
    if (s.children c).Alive then some (s.put c { s.children c with phase := .killed })
    else none

/-- A sidecar is started in the loop, when the port is let go, and runs as long as its child
runs, or after its child was killed. -/
structure Child.Sound (c : Child) : Prop where
  /-- A monitor does not outlive the exit of its child. -/
  sidecar : c.sidecar = .running → c.phase ≠ .exited
  /-- The port is held until the monitor starts. -/
  held : c.held = true → c.sidecar = .none
  /-- No monitor is started before the loop. -/
  early : c.phase = .starting → c.sidecar = .none

/-- **Which processes there can be.** -/
structure Owned (s : Processes) : Prop where
  /-- A child that runs is the one that is waited for, or that of the session. -/
  alive : ∀ c, (s.children c).Alive → s.call = .waiting c ∨ s.proc = some c
  /-- The ready file is that of the child that is waited for. -/
  fresh : ∀ c d, s.call = .waiting c → s.ready = some d → d = c
  /-- A child that is waited for is not that of the session, which has none that runs. -/
  waiting : ∀ c, s.call = .waiting c → ¬ s.isConnected ∧ c < s.next ∧ s.stopping = false
  closing : ∀ c, s.call = .closing c → s.proc = some c
  sound : ∀ c, (s.children c).Sound
  /-- Children to come have not been started. -/
  unborn : ∀ c, s.next ≤ c → s.children c = ⟨.exited, false, .none⟩ ∧ s.proc ≠ some c

section Proofs

variable {s s' : Processes}

/-- There is nothing to own yet. -/
theorem owned_initial : Owned Processes.initial where
  alive := fun _ h => absurd rfl h.1
  fresh := fun _ _ h => absurd h (by simp [Processes.initial])
  waiting := fun _ h => absurd h (by simp [Processes.initial])
  closing := fun _ h => absurd h (by simp [Processes.initial])
  sound := fun _ => ⟨fun h => absurd h (by simp [Processes.initial]),
    fun h => absurd h (by simp [Processes.initial]), fun _ => rfl⟩
  unborn := fun _ _ => ⟨rfl, by simp [Processes.initial]⟩

/-- A child may be killed anywhere. -/
theorem Child.Sound.killed {c : Child} (h : c.Sound) :
    ({ c with phase := .killed } : Child).Sound :=
  ⟨fun _ => by simp, h.held, fun hst => absurd hst (by simp)⟩

/-- After a kill it is not alive. -/
theorem Child.not_alive_kill (c : Child) : ¬ c.kill.Alive := by
  unfold Child.kill
  split_ifs with halive
  · exact fun h => h.2 rfl
  · exact halive

/-- A kill keeps it sound. -/
theorem Child.Sound.kill {c : Child} (h : c.Sound) : c.kill.Sound := by
  unfold Child.kill
  split_ifs
  · exact h.killed
  · exact h

/-- A sidecar that ends has let its port go long before. -/
theorem Child.Sound.ended {c : Child} (h : c.Sound) (hrun : c.sidecar = .running) :
    ({ c with sidecar := .ended } : Child).Sound := by
  refine ⟨fun hr => absurd hr (by simp), fun hheld => ?_, fun hst => ?_⟩
  · exact absurd (h.held hheld) (by rw [hrun]; simp)
  · exact absurd (h.early hst) (by rw [hrun]; simp)

/-- The other children are not touched. -/
theorem children_put (c d : ℕ) (child : Child) :
    (s.put c child).children d = if d = c then child else s.children d := by
  unfold Processes.put
  by_cases h : d = c
  · subst h
    simp
  · simp [h]

/-- **A child that changes** without coming to life: the processes are still owned. -/
theorem Owned.put (h : Owned s) {c : ℕ} {child : Child} (hc : c < s.next)
    (halive : child.Alive → (s.children c).Alive)
    (hsound : child.Sound) : Owned (s.put c child) where
  alive := by
    intro d hd
    rw [children_put] at hd
    split_ifs at hd with hdc
    · subst hdc
      exact h.alive d (halive hd)
    · exact h.alive d hd
  fresh := h.fresh
  -- A wait asks that no child of the session is alive; the changed one is not more so.
  waiting := by
    intro d hd
    obtain ⟨hno, hlt, hstop⟩ := h.waiting d hd
    refine ⟨?_, hlt, hstop⟩
    rintro ⟨e, he, hae⟩
    apply hno
    refine ⟨e, he, ?_⟩
    rw [children_put] at hae
    split_ifs at hae with hec
    · subst hec
      exact halive hae
    · exact hae
  closing := h.closing
  sound := by
    intro d
    rw [children_put]
    split_ifs
    · exact hsound
    · exact h.sound d
  unborn := by
    intro d hd
    have hne : d ≠ c := by
      have hle : s.next ≤ d := hd
      omega
    rw [children_put, if_neg hne]
    exact h.unborn d hd

/-- A child that runs has been started. -/
theorem Owned.born (h : Owned s) {c : ℕ} (hc : s.children c ≠ ⟨.exited, false, .none⟩) :
    c < s.next := by
  by_contra hle
  exact hc (h.unborn c (by omega)).1

/-- What has not exited was started. -/
theorem Owned.born_of_phase (h : Owned s) {c : ℕ} (hc : (s.children c).phase ≠ .exited) :
    c < s.next :=
  h.born fun heq => hc (by rw [heq])

/-- And so was the child of a sidecar. -/
theorem Owned.born_of_sidecar (h : Owned s) {c : ℕ} (hc : (s.children c).sidecar = .running) :
    c < s.next :=
  h.born fun heq => absurd hc (by rw [heq]; simp)

/-- The session takes or drops a child, and ends its call. -/
theorem Owned.settle (h : Owned s) {proc : Option ℕ}
    (halive : ∀ c, (s.children c).Alive → proc = some c)
    (hborn : ∀ c, proc = some c → c < s.next) :
    Owned { s with call := .none, proc := proc } where
  alive := fun c hc => Or.inr (halive c hc)
  fresh := fun _ _ hc => absurd hc (by simp)
  waiting := fun _ hc => absurd hc (by simp)
  closing := fun _ hc => absurd hc (by simp)
  sound := h.sound
  unborn := by
    intro c hc
    refine ⟨(h.unborn c hc).1, fun hp => ?_⟩
    have hlt := hborn c hp
    have hle : s.next ≤ c := hc
    omega

/-- While a child is waited for, no other one runs. -/
theorem Owned.only (h : Owned s) {c : ℕ} (hw : s.call = .waiting c) {d : ℕ}
    (hd : (s.children d).Alive) : d = c := by
  rcases h.alive d hd with hcall | hproc
  · rw [hw] at hcall
    exact (Call.waiting.inj hcall).symm
  · exact absurd ⟨d, hproc, hd⟩ (h.waiting c hw).1

/-- A connect starts a child that is not that of the session yet. -/
theorem Owned.connect (h : Owned s) (hstep : step s .connect = some s') :
    Owned s' := by
  simp only [step] at hstep
  split_ifs at hstep with hcond
  obtain rfl := Option.some.inj hstep
  obtain ⟨hcall, hno⟩ := hcond
  -- The session has no call under way and no live child, so no child is alive at all.
  have hdead : ∀ c, ¬ (s.children c).Alive := by
    intro c hc
    rcases h.alive c hc with hw | hp
    · rw [hcall] at hw
      exact absurd hw (by simp)
    · exact hno ⟨c, hp, hc⟩
  refine ⟨?_, ?_, ?_, ?_, ?_, ?_⟩
  · intro c hc
    by_cases hcn : c = s.next
    · exact Or.inl (by rw [hcn])
    · have hc : ((s.put s.next ⟨.starting, false, .none⟩).children c).Alive := hc
      rw [children_put, if_neg hcn] at hc
      exact absurd hc (hdead c)
  · exact fun _ _ _ hr => absurd hr (by simp)
  · intro c hc
    obtain rfl := Call.waiting.inj hc
    refine ⟨?_, Nat.lt_succ_self _, rfl⟩
    rintro ⟨d, hd, had⟩
    have had : ((s.put s.next ⟨.starting, false, .none⟩).children d).Alive := had
    rw [children_put] at had
    split_ifs at had with hdn
    · exact (h.unborn d hdn.ge).2 hd
    · exact hdead d had
  · exact fun _ hc => absurd hc (by simp)
  · intro c
    show ((s.put s.next ⟨.starting, false, .none⟩).children c).Sound
    rw [children_put]
    split_ifs
    · exact ⟨fun hrun => absurd hrun (by simp), fun _ => rfl, fun _ => rfl⟩
    · exact h.sound c
  · intro c hc
    have hle : s.next + 1 ≤ c := hc
    show (s.put s.next ⟨.starting, false, .none⟩).children c = _ ∧ s.proc ≠ some c
    rw [children_put, if_neg (by omega)]
    exact h.unborn c (by omega)

/-- One turn of the loop of a connect. -/
theorem Owned.check (h : Owned s) (hstep : step s .check = some s') :
    Owned s' := by
  simp only [step] at hstep
  cases hcall : s.call with
  | none | closing => rw [hcall] at hstep; exact absurd hstep (by simp)
  | waiting c =>
    rw [hcall] at hstep
    dsimp only at hstep
    split_ifs at hstep with halive hready
    · obtain rfl := Option.some.inj hstep
      exact h
    · obtain rfl := Option.some.inj hstep
      refine h.settle (fun d hd => by rw [h.only hcall hd]) fun d hd => ?_
      rw [← Option.some.inj hd]
      exact (h.waiting c hcall).2.1
    · obtain rfl := Option.some.inj hstep
      refine h.settle (fun d hd => absurd (h.only hcall hd ▸ hd) halive) fun d hd => ?_
      by_contra hle
      exact (h.unborn d (not_lt.mp hle)).2 hd

/-- A connect that gives up kills its child. -/
theorem Owned.giveUp (h : Owned s) (hstep : step s .giveUp = some s') :
    Owned s' := by
  simp only [step] at hstep
  cases hcall : s.call with
  | none | closing => rw [hcall] at hstep; exact absurd hstep (by simp)
  | waiting c =>
    rw [hcall] at hstep
    obtain rfl := Option.some.inj hstep
    have hput := h.put (c := c) (h.waiting c hcall).2.1
      (fun hal => absurd hal (Child.not_alive_kill _)) (h.sound c).kill
    refine hput.settle (fun d hd => ?_) fun d hd => ?_
    · rw [children_put] at hd
      by_cases hdc : d = c
      · rw [if_pos hdc] at hd
        exact absurd hd (Child.not_alive_kill _)
      · rw [if_neg hdc] at hd
        exact absurd (h.only hcall hd) hdc
    · by_contra hle
      have hle : s.next ≤ d := not_lt.mp hle
      exact (h.unborn d hle).2 hd

/-- A teardown begins. -/
theorem Owned.disconnect (h : Owned s) {sent : Bool} (hstep : step s (.disconnect sent) = some s') :
    Owned s' := by
  simp only [step] at hstep
  cases hproc : s.proc with
  | none => rw [hproc] at hstep; exact absurd hstep (by simp)
  | some c =>
    by_cases hcond : s.call = .none ∧ s.stopping = false
    · have hkeep : ∀ q, Owned { s with call := .closing c, stopping := true, quit := q } := by
        intro q
        refine ⟨fun d hd => ?_, fun _ _ hc => absurd hc (by simp),
          fun _ hc => absurd hc (by simp), fun d hd => ?_, h.sound, h.unborn⟩
        · rcases h.alive d hd with hw | hp
          · rw [hcond.1] at hw
            exact absurd hw (by simp)
          · exact Or.inr hp
        · obtain rfl := Call.closing.inj hd
          exact hproc
      have hkeep := hkeep (if sent then c :: s.quit else s.quit)
      rw [hproc] at hstep hkeep
      dsimp only at hstep
      rw [if_pos hcond] at hstep
      exact Option.some.inj hstep ▸ hkeep
    · rw [hproc] at hstep
      dsimp only at hstep
      rw [if_neg hcond] at hstep
      exact absurd hstep (by simp)

/-- The child has exited in time. -/
theorem Owned.reap (h : Owned s) (hstep : step s .reap = some s') :
    Owned s' := by
  simp only [step] at hstep
  cases hcall : s.call with
  | none | waiting => rw [hcall] at hstep; exact absurd hstep (by simp)
  | closing c =>
    rw [hcall] at hstep
    dsimp only at hstep
    split_ifs at hstep with hdead
    obtain rfl := Option.some.inj hstep
    refine h.settle (fun d hd => ?_) fun d hd => absurd hd (by simp)
    rcases h.alive d hd with hw | hp
    · rw [hcall] at hw
      exact absurd hw (by simp)
    · rw [h.closing c hcall] at hp
      exact absurd (Option.some.inj hp ▸ hd) hdead

/-- The child is killed. -/
theorem Owned.timeout (h : Owned s) (hstep : step s .timeout = some s') :
    Owned s' := by
  simp only [step] at hstep
  cases hcall : s.call with
  | none | waiting => rw [hcall] at hstep; exact absurd hstep (by simp)
  | closing c =>
    rw [hcall] at hstep
    dsimp only at hstep
    split_ifs at hstep with halive
    obtain rfl := Option.some.inj hstep
    have hput : Owned (s.put c { s.children c with phase := .killed }) := h.put
      (h.born_of_phase halive.1) (fun hal => absurd rfl hal.2) (h.sound c).killed
    refine hput.settle (fun d hd => ?_) fun d hd => absurd hd (by simp)
    rw [children_put] at hd
    split_ifs at hd with hdc
    · exact absurd rfl hd.2
    · rcases h.alive d hd with hw | hp
      · rw [hcall] at hw
        exact absurd hw (by simp)
      · rw [h.closing c hcall] at hp
        exact absurd (Option.some.inj hp).symm hdc

/-- A child comes to its loop. -/
theorem Owned.becomeReady (h : Owned s) {c : ℕ} {monitor : Bool}
    (hstep : step s (.becomeReady c monitor) = some s') : Owned s' := by
  simp only [step] at hstep
  split_ifs at hstep with hphase
  obtain rfl := Option.some.inj hstep
  have halive : (s.children c).Alive := by
    unfold Child.Alive
    rw [hphase]
    exact ⟨by simp, by simp⟩
  have hnone := (h.sound c).early hphase
  have hput : Owned (s.put c ⟨.looping, monitor, (s.children c).sidecar⟩) := h.put
    (h.born_of_phase halive.1)
    (fun _ => halive) ⟨fun hrun => absurd hrun (by rw [hnone]; simp), fun _ => hnone,
      fun hst => absurd hst (by simp)⟩
  refine ⟨hput.alive, fun d e hd he => ?_, hput.waiting, hput.closing, hput.sound,
    hput.unborn⟩
  rw [← Option.some.inj he]
  exact h.only hd halive

/-- A child starts its sidecar. -/
theorem Owned.startSidecar (h : Owned s) {c : ℕ} {spawned : Bool}
    (hstep : step s (.startSidecar c spawned) = some s') : Owned s' := by
  simp only [step] at hstep
  by_cases hcond : (s.children c).phase = .looping ∧ (s.children c).sidecar = .none
  · rw [if_pos hcond] at hstep
    obtain rfl := Option.some.inj hstep
    refine h.put (h.born_of_phase (by rw [hcond.1]; simp)) (fun hal => hal)
      ⟨fun _ => ?_, fun hheld => absurd hheld (by simp), fun hst => ?_⟩
    · show (s.children c).phase ≠ .exited
      rw [hcond.1]
      simp
    · have hst : (s.children c).phase = .starting := hst
      rw [hcond.1] at hst
      exact absurd hst (by simp)
  · rw [if_neg hcond] at hstep
    exact absurd hstep (by simp)

/-- **Every step** keeps the processes owned. -/
theorem owned_step (h : Owned s) {a : Action} (hstep : step s a = some s') : Owned s' := by
  cases a with
  | connect => exact h.connect hstep
  | check => exact h.check hstep
  | giveUp => exact h.giveUp hstep
  | disconnect sent => exact h.disconnect hstep
  | reap => exact h.reap hstep
  | timeout => exact h.timeout hstep
  | becomeReady c monitor => exact h.becomeReady hstep
  | fail c =>
    simp only [step] at hstep
    split_ifs at hstep with hphase
    obtain rfl := Option.some.inj hstep
    refine h.put (h.born_of_phase (by rw [hphase]; simp)) (fun hal => absurd rfl hal.1)
      ⟨fun hrun => ?_, (h.sound c).held, fun hst => absurd hst (by simp)⟩
    have hrun : (s.children c).sidecar = .running := hrun
    rw [(h.sound c).early hphase] at hrun
    exact absurd hrun (by simp)
  | startSidecar c spawned => exact h.startSidecar hstep
  | leave c =>
    simp only [step] at hstep
    split_ifs at hstep with hcond
    obtain rfl := Option.some.inj hstep
    refine h.put (h.born_of_phase (by rw [hcond.1]; simp)) (fun _ => ?_)
      ⟨fun _ => by simp, fun hheld => absurd hheld (by simp), fun hst => absurd hst (by simp)⟩
    unfold Child.Alive
    rw [hcond.1]
    exact ⟨by simp, by simp⟩
  | stopSidecar c =>
    simp only [step] at hstep
    split_ifs at hstep with hcond
    obtain rfl := Option.some.inj hstep
    exact h.put (h.born_of_sidecar hcond.2) (fun hal => hal) ((h.sound c).ended hcond.2)
  -- A child leaves only after its sidecar, so none is left behind.
  | exit c =>
    simp only [step] at hstep
    split_ifs at hstep with hcond
    obtain rfl := Option.some.inj hstep
    have hput : Owned (s.put c { s.children c with phase := .exited }) := h.put
      (h.born_of_phase (by rw [hcond.1]; simp)) (fun hal => absurd rfl hal.1)
      ⟨fun hrun => absurd hrun hcond.2, (h.sound c).held, fun hst => absurd hst (by simp)⟩
    exact ⟨hput.alive, fun _ _ _ hr => absurd hr (by simp), hput.waiting, hput.closing,
      hput.sound, hput.unborn⟩
  | sidecarEnds c =>
    simp only [step] at hstep
    split_ifs at hstep with hrun
    obtain rfl := Option.some.inj hstep
    exact h.put (h.born_of_sidecar hrun) (fun hal => hal) ((h.sound c).ended hrun)
  | die c =>
    simp only [step] at hstep
    split_ifs at hstep with halive
    obtain rfl := Option.some.inj hstep
    exact h.put (h.born_of_phase halive.1) (fun hal => absurd rfl hal.2) (h.sound c).killed

/-- A connect that has returned has seen the ready file of its own child, which ran then. -/
theorem ready_of_connected (h : Owned s) {c : ℕ} (hcall : s.call = .waiting c)
    (hstep : step s .check = some s') (hproc : s'.proc ≠ s.proc) :
    s'.proc = some c ∧ s.ready = some c ∧ (s.children c).Alive := by
  simp only [step] at hstep
  rw [hcall] at hstep
  dsimp only at hstep
  split_ifs at hstep with halive hready
  · obtain rfl := Option.some.inj hstep
    exact absurd rfl hproc
  · obtain rfl := Option.some.inj hstep
    obtain ⟨d, hd⟩ := Option.ne_none_iff_exists'.mp hready
    rw [h.fresh c d hcall hd] at hd
    exact ⟨rfl, hd, halive⟩
  · obtain rfl := Option.some.inj hstep
    exact absurd rfl hproc

end Proofs

/-- **Whatever dies and whenever**, in every run: while the session is not in a call each child
but its own is dead; a call to connect that ends with a child has read the ready file of that
child, which ran; a sidecar that runs belongs to a child that runs or was killed; and a port is
not held by a child that has started its sidecar. -/
theorem processes_owned (as : List Action) {s : Processes}
    (hrun : Runs.run step Processes.initial as = some s) :
    (s.call = .none → ∀ c, (s.children c).Alive → s.proc = some c) ∧
    (∀ c s', s.call = .waiting c → step s .check = some s' → s'.proc ≠ s.proc →
      s'.proc = some c ∧ s.ready = some c ∧ (s.children c).Alive) ∧
    (∀ c, (s.children c).sidecar = .running →
      (s.children c).Alive ∨ (s.children c).phase = .killed) ∧
    (∀ c, (s.children c).held = true → (s.children c).sidecar = .none) := by
  have hany : Runs.Along (fun _ _ => True) step Processes.initial as :=
    Runs.along_of_forall (fun _ _ _ => trivial) _
  have h : Owned s := Runs.run_invariant (fun _ _ _ h _ hstep => owned_step h hstep) as
    Processes.initial s owned_initial hany hrun
  refine ⟨fun hcall c hc => ?_, fun c s' hcall hstep hproc => ready_of_connected h hcall hstep
    hproc, fun c hc => ?_, fun c => (h.sound c).held⟩
  · rcases h.alive c hc with hw | hp
    · rw [hcall] at hw
      exact absurd hw (by simp)
    · exact hp
  · by_cases hk : (s.children c).phase = .killed
    · exact Or.inr hk
    · exact Or.inl ⟨(h.sound c).sidecar hc, hk⟩

/-- A session whose child does not leave in time, so that its sidecar is left behind. -/
def slowLeave : List Action :=
  [.connect, .becomeReady 0 true, .check, .startSidecar 0 true, .disconnect true, .leave 0,
    .timeout]

/-- A child that leaves too slowly is killed, and its sidecar stays. -/
theorem processes_owned_killed : ∃ s, Runs.run step Processes.initial slowLeave = some s ∧
    (s.children 0).sidecar = .running ∧
      ((s.children 0).Alive ∨ (s.children 0).phase = .killed) := by
  have hside : (Runs.run step Processes.initial slowLeave).map
      (fun s => (s.children 0).sidecar) = some .running := rfl
  obtain ⟨s, hs, hrun⟩ := Option.map_eq_some_iff.mp hside
  exact ⟨s, hs, hrun, (processes_owned _ hs).2.2.1 0 hrun⟩

end SrtProcesses
