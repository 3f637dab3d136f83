/-
# Recording acknowledgements of an SRT child

`start_recording` and `stop_recording` of a connected SRT session send a command and then
wait until the status file says what they want, or a deadline has passed.  The file holds
one flag, of the child at the time of its last poll, and does not say which command it
answers.  A flag that is older than the command, or a command that is executed after the
deadline, leaves worker and child with different opinions; `agree_of_timely` says that
nothing else does.
-/
import IngestFarm.Runs

namespace SrtAck

variable {δ : Type}

/-- The commands that count here. -/
inductive Cmd (δ : Type) where
  | record (dir : δ)
  | stop

/-- Where the worker is: outside, or in the wait of `start_recording` for the command with a
given number, or in the wait of `stop_recording`. -/
inductive Call (δ : Type) where
  | idle
  | starting (dir : δ) (k : ℕ)
  | stopping

/-- How the last call ended. -/
inductive Outcome (δ : Type) where
  /-- `start_recording` has returned, after the command with this number. -/
  | started (dir : δ) (k : ℕ)
  /-- It has raised. -/
  | raised
  /-- `stop_recording` has returned. -/
  | stopped

/-- The worker's session and its child.  `pending` holds the commands that are sent and not
yet executed, `executed` counts the others, `child` is the directory the child records into
and `status` the flag in the status file, if the file can be read. -/
structure Pair (δ : Type) where
  /-- What the worker waits for. -/
  call : Call δ
  /-- The flag of the session. -/
  isRecording : Bool
  /-- Commands that are sent and not executed. -/
  pending : List (Cmd δ)
  /-- The directory that the child records into. -/
  child : Option δ
  /-- The flag in the status file, if the file can be read. -/
  status : Option Bool
  /-- How many commands were executed. -/
  executed : ℕ
  /-- How the last call ended. -/
  outcome : Option (Outcome δ)

/-- A session that has just been connected; the child writes its first status later. -/
def Pair.connected : Pair δ := ⟨.idle, false, [], none, none, 0, none⟩

inductive Action (δ : Type) where
  | start (dir : δ)
  | stop
  | acknowledge
  | giveUp
  | publish
  | execute (linked : Bool)

def step (s : Pair δ) : Action δ → Option (Pair δ)
  | .start dir =>
    match s.call with
    | .idle =>
      -- "Already recording" is raised before anything is sent.
      if s.isRecording = true then some { s with outcome := some .raised }
      else
        some { s with
          call := .starting dir (s.executed + s.pending.length)
          pending := s.pending ++ [.record dir]
          outcome := none }
    | _ => none
  | .stop =>
    match s.call with
    | .idle =>
      if s.isRecording = false then some { s with outcome := some .stopped }
      else some { s with call := .stopping, pending := s.pending ++ [.stop], outcome := none }
    | _ => none
  | .acknowledge =>
    match s.call, s.status with
    | .starting dir k, some true =>
      some { s with call := .idle, isRecording := true, outcome := some (.started dir k) }
    | .stopping, some false =>
      some { s with call := .idle, isRecording := false, outcome := some .stopped }
    | _, _ => none
  | .giveUp =>
    match s.call with
    | .starting _ _ => some { s with call := .idle, outcome := some .raised }
    | .stopping => some { s with call := .idle, isRecording := false, outcome := some .stopped }
    | .idle => none
  | .publish => some { s with status := some s.child.isSome }
  | .execute linked =>
    match s.pending with
    | .record dir :: rest =>
      some { s with
        pending := rest
        executed := s.executed + 1
        child := if linked = true then some dir else s.child }
    | .stop :: rest => some { s with pending := rest, executed := s.executed + 1, child := none }
    | [] => none

/-! ## Agreement -/

/-- When `start_recording` has returned, the child has executed the very command and records
into the directory. -/
def Acknowledged (s : Pair δ) : Prop :=
  ∀ dir k, s.outcome = some (.started dir k) → k < s.executed ∧ s.child = some dir

/-- When `start_recording` has raised or `stop_recording` has returned, worker and child are
of one opinion as soon as no command is pending. -/
def Settled (s : Pair δ) : Prop :=
  s.outcome = some .raised ∨ s.outcome = some .stopped → s.pending = [] →
    s.child.isSome = s.isRecording

/-- No start is sent while the status file shows a recording, and a start is given up only
when the child has executed it without getting the capture linked. -/
def Timely (s : Pair δ) : Action δ → Prop
  | .start _ => s.isRecording = false → s.status ≠ some true
  | .giveUp =>
    match s.call with
    | .starting _ k => k < s.executed ∧ s.child = none
    | _ => True
  | _ => True

/-! ## The phases -/

/-- The states of timely runs, phase by phase. -/
inductive Inv : Pair δ → Prop
  /-- Nobody records. -/
  | quiet {status executed outcome} (hout : ∀ d k, outcome ≠ some (.started d k)) :
      Inv ⟨.idle, false, [], none, status, executed, outcome⟩
  /-- A stop was given up before the child got to it. -/
  | stopLate {dir executed outcome} (hout : ∀ d k, outcome ≠ some (.started d k)) :
      Inv ⟨.idle, false, [.stop], some dir, some true, executed, outcome⟩
  | recording {dir executed outcome}
      (hout : ∀ d k, outcome = some (.started d k) → k < executed ∧ d = dir) :
      Inv ⟨.idle, true, [], some dir, some true, executed, outcome⟩
  | startSent {dir status executed} (hst : status ≠ some true) :
      Inv ⟨.starting dir executed, false, [.record dir], none, status, executed, none⟩
  | linked {dir k status executed} (hk : k < executed) :
      Inv ⟨.starting dir k, false, [], some dir, status, executed, none⟩
  | notLinked {dir k status executed} (hk : k < executed) (hst : status ≠ some true) :
      Inv ⟨.starting dir k, false, [], none, status, executed, none⟩
  | stopSent {dir executed} : Inv ⟨.stopping, true, [.stop], some dir, some true, executed, none⟩
  | stopDone {status executed} : Inv ⟨.stopping, true, [], none, status, executed, none⟩

theorem inv_connected : Inv (Pair.connected (δ := δ)) := .quiet (by simp)

/-- **Every timely step keeps the phases.** -/
theorem inv_step {s s' : Pair δ} {a : Action δ} (hI : Inv s) (hok : Timely s a)
    (h : step s a = some s') : Inv s' := by
  cases a with
  | start dir =>
    cases hI with
    | quiet hout =>
      obtain rfl : _ = s' := Option.some.inj h
      exact .startSent (hok rfl)
    | stopLate hout => exact absurd rfl (hok rfl)
    | recording hout =>
      obtain rfl : _ = s' := Option.some.inj h
      exact .recording (by simp)
    | _ => simp [step] at h
  | stop =>
    cases hI with
    | quiet hout =>
      obtain rfl : _ = s' := Option.some.inj h
      exact .quiet (by simp)
    | stopLate hout =>
      obtain rfl : _ = s' := Option.some.inj h
      exact .stopLate (by simp)
    | recording hout =>
      obtain rfl : _ = s' := Option.some.inj h
      exact .stopSent
    | _ => simp [step] at h
  | acknowledge =>
    cases hI with
    | @startSent dir status executed hst =>
      rcases status with _ | _ | _
      · simp [step] at h
      · simp [step] at h
      · exact absurd rfl hst
    -- The child has linked the capture, so both record, and into the directory of this start.
    | @linked dir k status executed hk =>
      rcases status with _ | _ | _
      · simp [step] at h
      · simp [step] at h
      · obtain rfl : _ = s' := Option.some.inj h
        refine .recording fun d k' hd => ?_
        obtain ⟨rfl, rfl⟩ := Outcome.started.inj (Option.some.inj hd)
        exact ⟨hk, rfl⟩
    | @notLinked dir k status executed hk hst =>
      rcases status with _ | _ | _
      · simp [step] at h
      · simp [step] at h
      · exact absurd rfl hst
    | @stopDone status executed =>
      rcases status with _ | _ | _
      · simp [step] at h
      · obtain rfl : _ = s' := Option.some.inj h
        exact .quiet (by simp)
      · simp [step] at h
    | _ => simp [step] at h
  | giveUp =>
    cases hI with
    | startSent hst => exact absurd hok.1 (lt_irrefl _)
    | linked hk => exact absurd hok.2 (by simp)
    -- The child has executed the start without linking the capture, so neither records.
    | notLinked hk hst =>
      obtain rfl : _ = s' := Option.some.inj h
      exact .quiet (by simp)
    -- A stop that is given up before the child got to it is still to come.
    | stopSent =>
      obtain rfl : _ = s' := Option.some.inj h
      exact .stopLate (by simp)
    | stopDone =>
      obtain rfl : _ = s' := Option.some.inj h
      exact .quiet (by simp)
    | _ => simp [step] at h
  | publish =>
    obtain rfl : _ = s' := Option.some.inj h
    cases hI with
    | quiet hout => exact .quiet hout
    | stopLate hout => exact .stopLate hout
    | recording hout => exact .recording hout
    | startSent hst => exact .startSent (by simp)
    | linked hk => exact .linked hk
    | notLinked hk hst => exact .notLinked hk (by simp)
    | stopSent => exact .stopSent
    | stopDone => exact .stopDone
  | execute linked =>
    cases hI with
    | stopLate hout =>
      obtain rfl : _ = s' := Option.some.inj h
      exact .quiet hout
    | @startSent dir status executed hst =>
      obtain rfl : _ = s' := Option.some.inj h
      cases linked with
      | true => exact .linked (Nat.lt_succ_self _)
      | false => exact .notLinked (Nat.lt_succ_self _) hst
    | stopSent =>
      obtain rfl : _ = s' := Option.some.inj h
      exact .stopDone
    | _ => simp [step] at h

/-- **In every phase worker and child agree.** -/
theorem Inv.agree {s : Pair δ} (hI : Inv s) : Acknowledged s ∧ Settled s := by
  cases hI with
  | quiet hout => exact ⟨fun d k h => absurd h (hout d k), fun _ _ => rfl⟩
  | stopLate hout => exact ⟨fun d k h => absurd h (hout d k), fun _ h => absurd h (by simp)⟩
  | recording hout =>
    refine ⟨fun d k h => ?_, fun _ _ => rfl⟩
    obtain ⟨hk, rfl⟩ := hout d k h
    exact ⟨hk, rfl⟩
  | _ => exact ⟨fun _ _ h => absurd h (by simp), fun h => absurd h (by simp)⟩

/-- **Worker and child agree along every timely run.** -/
theorem agree_of_timely {acts : List (Action δ)} {s : Pair δ}
    (hok : Runs.Along Timely step Pair.connected acts)
    (hrun : Runs.run step Pair.connected acts = some s) : Acknowledged s ∧ Settled s :=
  (Runs.run_invariant (fun _ _ _ hI hok h => inv_step hI hok h) acts _ _ inv_connected hok
    hrun).agree

/-- A start and a stop, each acknowledged in time. -/
def promptRun : List (Action String) :=
  [.publish, .start "a", .execute true, .publish, .acknowledge, .stop, .execute true, .publish,
    .acknowledge]

theorem agree_after_promptRun : ∃ s : Pair String,
    Runs.run step Pair.connected promptRun = some s ∧ Acknowledged s ∧ Settled s :=
  ⟨_, rfl, @agree_of_timely String promptRun _
    (Runs.along_cons trivial rfl <| Runs.along_cons (fun _ => by decide) rfl <|
      Runs.along_cons trivial rfl <| Runs.along_cons trivial rfl <|
      Runs.along_cons trivial rfl <| Runs.along_cons trivial rfl <|
      Runs.along_cons trivial rfl <| Runs.along_cons trivial rfl <|
      Runs.along_cons trivial rfl trivial) rfl⟩

/-- A start that is given up too early: the child executes it later, and its flag answers the
next start in place of that one's own command. -/
theorem stale_flag_acknowledges :
    (¬ ∀ (acts : List (Action String)) (s : Pair String),
        Runs.run step Pair.connected acts = some s → Acknowledged s) ∧
      ¬ ∀ (acts : List (Action String)) (s : Pair String),
        Runs.run step Pair.connected acts = some s → Settled s := by
  constructor
  · intro h
    have hack := h [.publish, .start "a", .giveUp, .execute true, .publish, .start "b",
      .acknowledge] _ rfl "b" 1 rfl
    exact absurd hack.1 (by decide)
  · intro h
    have hset := h [.publish, .start "a", .giveUp, .execute true] _ rfl (Or.inl rfl) rfl
    exact absurd hset (by decide)

end SrtAck
