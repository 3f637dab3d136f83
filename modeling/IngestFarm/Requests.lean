/-
# What a request does

With database and Redis up a request of the scheduler is atomic: it is refused and changes
nothing, or it commits its intent and queues its job.  `Request.accepts` is the guard on the
stored status and `Request.outcome` the state afterwards.

The results about interleavings use `Request.outcome` in place of the program, and the batches use
`Request.jobs`, the lists that a request adds to.
-/
import IngestFarm.Scheduler
import IngestFarm.Steps

open Prog

/-- The requests of the control plane. -/
inductive Request where
  | connect
  | disconnect
  | startRecording
  | stopRecording
  deriving DecidableEq, Repr

/-- The method of the scheduler. -/
def Request.program : Request → ChannelId → Handler Unit
  | connect => Scheduler.connectChannel
  | disconnect => Scheduler.disconnectChannel
  | startRecording => Scheduler.startRecording
  | stopRecording => Scheduler.stopRecording

/-- The statuses in which a request is accepted. -/
def Request.accepts : Request → ChannelStatus → Bool
  | connect, st => st ∈ [.idle, .error]
  | disconnect, st => st ∈ activeStatuses
  | startRecording, st => st ∈ [.idle, .connected, .connecting, .starting]
  | stopRecording, st => st ∈ [.recording, .starting, .stopping]

/-- The status an accepted request leaves. -/
def Request.intent : Request → ChannelStatus → ChannelStatus
  | connect, _ => .connecting
  | disconnect, _ => .disconnecting
  | startRecording, .idle => .connecting
  | startRecording, .connected => .starting
  | startRecording, st => st
  | stopRecording, _ => .stopping

/-- The jobs an accepted request queues. -/
def Request.jobs : Request → ChannelStatus → List Queue
  | connect, _ => [.connect]
  | disconnect, _ => [.disconnect]
  | startRecording, .idle => [.connect, .recordStart]
  | startRecording, _ => [.recordStart]
  | stopRecording, _ => [.recordStop]

/-- The hostname `_pick_worker` finds. -/
def Database.idlest (db : Database) : Option String :=
  (db.workers.entries.argmin fun e => e.2.activeChannels.length).map Sigma.fst

/-- The payload that is queued on a list. -/
def jobPayload (c : ChannelId) (db : Database) : Queue → Json
  | .connect => Scheduler.connectPayload c db.idlest
  | _ => Scheduler.payload c

/-- The state after an accepted request for a channel at status `st`. -/
def Request.outcome (r : Request) (c : ChannelId) (st : ChannelStatus) (w : World) : World :=
  (r.jobs st).foldl (fun w' q => w'.push q (.json (jobPayload c w.db q)))
    (w.commitDb (Database.setStatus c (r.intent st)))

/-- The state after a request. -/
def World.request (r : Request) (c : ChannelId) (w : World) : World :=
  final allOk (r.program c) w

/-- A request is accepted when the program returns. -/
def World.Accepts (r : Request) (c : ChannelId) (w : World) : Prop :=
  (exec allOk (r.program c) w).1 = .ok ()

section Programs

variable {E : PyError → ℕ → World → Prop} {C : World → Prop} {n : ℕ} {w : World}
  {c : ChannelId} {st : ChannelStatus}

/-- A channel that is there. -/
theorem wp_getChannel {Q : Channel → ℕ → World → Prop} {ch : Channel}
    (hch : w.db.channels.lookup c = some ch) (hQ : ∀ n', Q ch n' w) :
    wp allOk (Scheduler.getChannel c) Q E C n w := by
  unfold Scheduler.getChannel
  simp [allOk, hch, hQ]

/-- And one that is not. -/
theorem wp_getChannel_missing {Q : Channel → ℕ → World → Prop}
    (hch : w.db.channels.lookup c = none) (hE : ∀ e n', E e n' w) :
    wp allOk (Scheduler.getChannel c) Q E C n w := by
  unfold Scheduler.getChannel
  simp [allOk, hch, hE]

/-- The hint. -/
theorem wp_pickWorker {Q : Option String → ℕ → World → Prop} (hQ : ∀ n', Q w.db.idlest n' w) :
    wp allOk Scheduler.pickWorker Q E C n w := by
  unfold Scheduler.pickWorker
  rw [wp_query]
  exact ⟨fun _ => hQ _, fun h => absurd h (by simp [allOk]), fun h => absurd h (by simp [allOk])⟩

/-- **The intent is committed, then the job is queued.** -/
theorem wp_commitThenPublish {Q : Unit → ℕ → World → Prop} {previous : ChannelStatus} {q : Queue}
    {payload : Json} {newStatus : Option ChannelStatus}
    (hQ : ∀ n', Q () n' ((newStatus.elim w fun st => w.commitDb (Database.setStatus c st)).push q
      (.json payload))) :
    wp allOk (Scheduler.commitThenPublish c previous q payload newStatus) Q E C n w := by
  unfold Scheduler.commitThenPublish
  cases newStatus with
  | none =>
    simp only [wp_attempt, wp_publishEvent]
    exact ⟨fun _ => hQ _, fun h => absurd h (by simp [allOk]),
      fun h => absurd h (by simp [allOk])⟩
  | some st =>
    simp only [wp_bind, wp_commit, wp_attempt, wp_publishEvent]
    exact ⟨fun _ => ⟨fun _ => hQ _, fun h => absurd h (by simp [allOk]),
      fun h => absurd h (by simp [allOk])⟩, fun h => absurd h (by simp [allOk]),
      fun h => absurd h (by simp [allOk])⟩

/-- **`connect_channel`** of an idle channel or one in error. -/
theorem wp_connectChannel {Q : Unit → ℕ → World → Prop} {ch : Channel}
    (hch : w.db.channels.lookup c = some ch) (hacc : ch.status ∈ [.idle, .error])
    (hQ : ∀ n', Q () n' ((w.commitDb (Database.setStatus c .connecting)).push .connect
      (.json (Scheduler.connectPayload c w.db.idlest)))) :
    wp allOk (Scheduler.connectChannel c) Q E C n w := by
  unfold Scheduler.connectChannel
  rw [wp_bind]
  refine wp_getChannel hch fun n₁ => ?_
  rw [wp_ite, wp_bind]
  refine ⟨fun h => absurd hacc h, fun _ => ?_⟩
  exact wp_pickWorker fun n₂ => wp_commitThenPublish hQ

/-- **An accepted request.** -/
theorem exec_of_accepts {r : Request} (hst : w.db.status c = some st)
    (h : r.accepts st = true) :
    exec allOk (r.program c) w = (.ok (), r.outcome c st w) := by
  obtain ⟨ch, hch, rfl⟩ := Option.map_eq_some_iff.mp hst
  apply exec_of_wp
  cases r with
  | connect => exact wp_connectChannel hch (by simpa [Request.accepts] using h) fun _ => ⟨rfl, rfl⟩
  | disconnect =>
    show wp allOk (Scheduler.disconnectChannel c) _ _ _ _ _
    unfold Scheduler.disconnectChannel
    rw [wp_bind]
    refine wp_getChannel hch fun n₁ => ?_
    rw [wp_ite]
    refine ⟨fun hno => absurd h ?_, fun _ => wp_commitThenPublish fun _ => ⟨rfl, rfl⟩⟩
    simpa [Request.accepts, activeStatuses] using hno
  | startRecording =>
    show wp allOk (Scheduler.startRecording c) _ _ _ _ _
    unfold Scheduler.startRecording
    rw [wp_bind]
    refine wp_getChannel hch fun n₁ => ?_
    rw [wp_bind, wp_whenever]
    refine ⟨fun hidle => ?_, fun hidle => ?_⟩
    · -- The channel is connected first, and read again.
      refine wp_connectChannel hch (by simp [hidle]) fun n₂ => ?_
      simp only [if_pos hidle, wp_bind]
      have hch' : (w.db.setStatus c .connecting).channels.lookup c =
          some { ch with status := .connecting } := by simp [Database.setStatus, hch]
      refine wp_getChannel hch' fun n₃ => ?_
      rw [wp_ite]
      refine ⟨fun hno => absurd hno (by simp), fun _ => wp_commitThenPublish fun _ => ⟨trivial, ?_⟩⟩
      simp [Request.outcome, Request.jobs, Request.intent, hidle, jobPayload]
    · simp only [if_neg hidle, wp_bind, wp_pure, wp_ite]
      refine ⟨fun hno => absurd h ?_, fun hacc => wp_commitThenPublish fun _ => ⟨trivial, ?_⟩⟩
      · simpa [Request.accepts, hidle] using hno
      · have hcases : ch.status = .connected ∨ ch.status = .connecting ∨ ch.status = .starting := by
          simpa [or_iff_not_imp_left] using hacc
        -- Without a new status the intent is the old one, and writing it changes nothing.
        have hsame : w.commitDb (Database.setStatus c ch.status) = w := by
          rw [World.commitDb, Database.setStatus_of_status hst]
        rcases hcases with hc | hc | hc
        · simp [Request.outcome, Request.jobs, Request.intent, hc, jobPayload]
        · rw [hc] at hsame
          simp [Request.outcome, Request.jobs, Request.intent, hc, jobPayload, hsame]
        · rw [hc] at hsame
          simp [Request.outcome, Request.jobs, Request.intent, hc, jobPayload, hsame]
  | stopRecording =>
    show wp allOk (Scheduler.stopRecording c) _ _ _ _ _
    unfold Scheduler.stopRecording
    rw [wp_bind]
    refine wp_getChannel hch fun n₁ => ?_
    rw [wp_ite]
    refine ⟨fun hno => absurd h ?_, fun _ => wp_commitThenPublish fun _ => ⟨rfl, rfl⟩⟩
    simpa [Request.accepts] using hno

/-- **A refused request changes nothing.** -/
theorem exec_of_refuses {r : Request}
    (h : ∀ st, w.db.status c = some st → r.accepts st = false) :
    ∃ e, exec allOk (r.program c) w = (.error (.raised e), w) := by
  apply exec_of_wp_raise
  cases hch : w.db.channels.lookup c with
  | none =>
    have hmissing : ∀ (Q : Channel → ℕ → World → Prop), wp allOk (Scheduler.getChannel c) Q
        (fun _ _ t => t = w) (fun _ => False) 0 w :=
      fun Q => wp_getChannel_missing hch fun _ _ => rfl
    cases r with
    | connect => exact (wp_bind ..).mpr (hmissing _)
    | disconnect => exact (wp_bind ..).mpr (hmissing _)
    | startRecording => exact (wp_bind ..).mpr (hmissing _)
    | stopRecording => exact (wp_bind ..).mpr (hmissing _)
  | some ch =>
    have hno := h ch.status (by simp [Database.status, hch])
    cases r with
    | connect =>
      refine (wp_bind ..).mpr (wp_getChannel hch fun n₁ => ?_)
      rw [wp_ite]
      refine ⟨fun _ => rfl, fun hacc => absurd hno ?_⟩
      simpa [Request.accepts] using hacc
    | disconnect =>
      refine (wp_bind ..).mpr (wp_getChannel hch fun n₁ => ?_)
      rw [wp_ite]
      refine ⟨fun _ => rfl, fun hacc => absurd hno ?_⟩
      simpa [Request.accepts, activeStatuses] using hacc
    | startRecording =>
      refine (wp_bind ..).mpr (wp_getChannel hch fun n₁ => ?_)
      have hidle : ¬ ch.status = .idle := by
        intro hidle
        simp [Request.accepts, hidle] at hno
      rw [wp_bind, wp_whenever]
      refine ⟨fun h => absurd h hidle, fun _ => ?_⟩
      simp only [if_neg hidle, wp_bind, wp_pure, wp_ite]
      refine ⟨fun _ => rfl, fun hacc => absurd hno ?_⟩
      simpa [Request.accepts, hidle] using hacc
    | stopRecording =>
      refine (wp_bind ..).mpr (wp_getChannel hch fun n₁ => ?_)
      rw [wp_ite]
      refine ⟨fun _ => rfl, fun hacc => absurd hno ?_⟩
      simpa [Request.accepts] using hacc

end Programs

section Outcomes

variable {r : Request} {c : ChannelId} {st : ChannelStatus} {w : World}

/-- Accepted or not, a request has one of two outcomes. -/
theorem request_cases (r : Request) (c : ChannelId) (w : World) :
    (∃ st, w.db.status c = some st ∧ r.accepts st = true ∧ w.Accepts r c ∧
      w.request r c = r.outcome c st w) ∨ (¬ w.Accepts r c ∧ w.request r c = w) := by
  by_cases h : ∃ st, w.db.status c = some st ∧ r.accepts st = true
  · obtain ⟨st, hst, hacc⟩ := h
    have hexec := exec_of_accepts hst hacc
    refine Or.inl ⟨st, hst, hacc, ?_, ?_⟩
    · rw [World.Accepts, hexec]
    · rw [World.request, final, hexec]
  · have hno : ∀ st, w.db.status c = some st → r.accepts st = false := by
      intro st hst
      by_contra hacc
      exact h ⟨st, hst, by simpa using hacc⟩
    obtain ⟨e, hexec⟩ := exec_of_refuses hno
    refine Or.inr ⟨?_, ?_⟩
    · rw [World.Accepts, hexec]
      simp
    · rw [World.request, final, hexec]

/-- A request writes the database and the lists, nothing else. -/
theorem outcome_eq : r.outcome c st w =
    { w.commitDb (Database.setStatus c (r.intent st)) with
      lists := (r.outcome c st w).lists } := by
  cases r with
  | startRecording => cases st <;> rfl
  | _ => rfl

/-- The jobs it queues. -/
theorem lists_outcome (q : Queue) : (r.outcome c st w).lists q =
    w.lists q ++ if q ∈ r.jobs st then [.json (jobPayload c w.db q)] else [] := by
  cases r with
  | startRecording =>
    cases st <;> simp [Request.outcome, Request.jobs, Function.update_apply] <;>
      cases q <;> simp
  | _ => simp [Request.outcome, Request.jobs, Function.update_apply]; cases q <;> simp

/-- A request leaves everything but a status as the worker sees it. -/
theorem view_outcome (d : ChannelId) : (r.outcome c st w).view d =
    if d = c then { w.view d with toStored := (w.view d).toStored.write (r.intent st) }
      else w.view d := by
  rw [outcome_eq]
  split
  · rename_i h
    subst h
    exact View.ext (by simp) (by simp) rfl rfl rfl
  · rename_i h
    exact View.ext (by simp [h]) (by simp) rfl rfl rfl

/-- A request keeps the books sound. -/
theorem sound_outcome (hw : Sound w) : Sound (r.outcome c st w) := by
  rw [outcome_eq]
  exact ⟨hw.distinct, hw.sessions_lt, hw.rows_lt, hw.known⟩

end Outcomes
