/-
# Batched control jobs act like ordered ones

A tick does not run the control jobs of a channel one after another: it removes duplicates and
collapses what is left to one op.  For jobs that the scheduler has accepted between two ticks
the result is the same, because its guards let through only starts, then stops, then
disconnects (`Shape`), and each op makes those before it irrelevant.

Both sides are compared as an observer sees them, status and session (`Obs`), and as rows.  For the
first an op is a function (`Op.effect`), and an op makes those of lower rank before it irrelevant
(`effect_effect`), so a whole run of ops acts like its last one (`foldl_effect`), which is the op
that the drain resolves.  For the rows it is enough that only a start inserts and that nothing ends
the row of a recording that goes on (`Capturing`, `Kept`).
-/
import IngestFarm.Collect
import IngestFarm.ConnectHandlers
import IngestFarm.Requests

open Prog

/-- The request that queues an op. -/
def Op.request : Op → Request
  | disconnect => .disconnect
  | stop => .stopRecording
  | start => .startRecording

/-- A channel as an observer sees it: its status, whether it has a session and whether that is
connected and recording, and whether a record start is pending. -/
structure Obs where
  status : Option ChannelStatus
  session : Option (Bool × Bool)
  pending : Bool
  deriving DecidableEq

/-- What can be observed of a view. -/
def View.obs (v : View) : Obs :=
  ⟨v.status, v.session.map fun p => (p.2.isConnected, p.2.recording), v.pending⟩

/-- What a handler does to a channel when every call works. -/
def Op.effect : Op → Obs → Obs
  | disconnect, x =>
    ⟨if x.status.any (· ∈ activeStatuses) = true then some .idle else x.status, none, false⟩
  | stop, x =>
    match x.session with
    | none => ⟨if x.status.any (· ∈ [.stopping, .recording, .starting]) = true then some .idle
        else x.status, none, false⟩
    | some (up, _) => ⟨x.status.map fun _ => if up = true then .connected else .idle,
        some (up, false), false⟩
  | start, x =>
    match x.session with
    | some (true, true) => { x with pending := false }
    | some (true, false) => ⟨x.status.map fun _ => .recording, some (true, true), false⟩
    | _ => { x with pending := true }

namespace World

/-- The requests are made one after another. -/
def requests (c : ChannelId) (ops : List Op) (w : World) : World :=
  ops.foldl (fun w op => w.request op.request c) w

/-- One handler for each op, in order. -/
def inOrder (c : ChannelId) (ops : List Op) (w : World) : World :=
  ops.foldl (fun w op => final allOk (IngestWorker.handlers op c) w) w

/-- The drain of the next tick. -/
def drained (w : World) : World :=
  final allOk (IngestWorker.drainControlQueues IngestWorker.handlers) w

/-- Every request is accepted. -/
def AllAccepted (c : ChannelId) : World → List Op → Prop
  | _, [] => True
  | w, op :: ops => w.Accepts op.request c ∧ AllAccepted c (w.request op.request c) ops

end World

/-! ## One handler -/

section Handlers

variable {n : ℕ} {w : World} {c : ChannelId} {s : SessionId}

/-- What is observed of a channel with a session. -/
theorem obs_session (hs : w.sessions.lookup c = some s) :
    (w.view c).obs = ⟨w.db.status c, some ((w.heap s).isConnected, (w.heap s).recording),
      decide (c ∈ w.pendingRecord)⟩ := by
  simp [View.obs, hs]

/-- And of one without. -/
theorem obs_no_session (hs : w.sessions.lookup c = none) :
    (w.view c).obs = ⟨w.db.status c, none, decide (c ∈ w.pendingRecord)⟩ := by
  simp [View.obs, hs]

/-- **A record start that works.** -/
theorem wp_start_obs (c : ChannelId) (n : ℕ) (w : World) :
    wp allOk (IngestWorker.handleRecordStart c)
      (fun _ _ w' => (w'.view c).obs = Op.start.effect (w.view c).obs) (fun _ _ _ => False)
      (fun _ => False) n w := by
  have hok : ∀ n k, allOk (κ := Call) n k = .ok := fun _ _ => rfl
  unfold IngestWorker.handleRecordStart
  rw [wp_bind, wp_reads]
  rcases hs : w.sessions.lookup c with _ | s
  · rw [wp_modify, obs_no_session hs]
    simp [View.obs, Op.effect, hs]
  · rw [obs_session hs]
    dsimp only
    rw [wp_bind, ChannelSession.wp_checkConnected]
    refine ⟨fun _ => ?_, fun h => absurd h (by simp [allOk]), fun h => absurd h (by simp [allOk])⟩
    rcases hup : (w.heap s).isConnected with _ | _
    · simp [View.obs, Op.effect, hs, hup]
    · rcases hrec : (w.heap s).recording with _ | _
      · simp only [wp_bind, wp_reads, wp_modify, if_neg (Bool.false_ne_true.symm : ¬ true = false)]
        unfold IngestWorker.openRecording ChannelSession.startRecording
        simp only [wp_bind, wp_external, wp_query, wp_commit, wp_reads, wp_modify, wp_attempt,
          ChannelSession.wp_checkConnected, wp_ite, wp_raise, hok]
        simp [View.obs, Op.effect, hs, hup, hrec]
        rcases hst : w.db.status c with _ | st <;> simp [hst]
      · simp [View.obs, Op.effect, hs, hup, hrec]

/-- The end of a record stop that works. -/
theorem wp_settle_obs (hs : w.sessions.lookup c = some s) (hrec : (w.heap s).recording = false)
    (hpending : c ∉ w.pendingRecord) {x : Obs} (hst : x.status = w.db.status c) {r : Bool}
    (hx : x.session = some ((w.heap s).isConnected, r)) :
    wp allOk (do
        let ch ← query fun db => db.status c
        whenever (ch ≠ none) do
          let up ← ChannelSession.checkConnected s
          commit (Database.setStatus c (if up = true then .connected else .idle)))
      (fun _ _ w' => (w'.view c).obs = Op.stop.effect x)
      (fun (_ : PyError) _ _ => False) (fun _ => False) n w := by
  have hok : ∀ n k, allOk (κ := Call) n k = .ok := fun _ _ => rfl
  have heffect : Op.stop.effect x = ⟨(w.db.status c).map fun _ =>
      if (w.heap s).isConnected = true then .connected else .idle,
        some ((w.heap s).isConnected, false), false⟩ := by
    simp [Op.effect, hx, hst]
  rw [heffect]
  simp only [wp_bind, wp_query, wp_whenever, ChannelSession.wp_checkConnected, wp_commit, hok]
  rcases hch : w.db.status c with _ | st <;> simp [View.obs, hs, hrec, hpending, hch]

/-- **A record stop that works.** -/
theorem wp_stop_obs (c : ChannelId) (n : ℕ) (w : World) :
    wp allOk (IngestWorker.handleRecordStop c)
      (fun _ _ w' => (w'.view c).obs = Op.stop.effect (w.view c).obs) (fun _ _ _ => False)
      (fun _ => False) n w := by
  have hok : ∀ n k, allOk (κ := Call) n k = .ok := fun _ _ => rfl
  have hsteady : Steady allOk := healthy_allOk.steady
  unfold IngestWorker.handleRecordStop
  rw [wp_bind, wp_modify, wp_bind, wp_reads]
  rcases hs : w.sessions.lookup c with _ | s
  · rw [World.dropPending_sessions, hs, obs_no_session hs]
    dsimp only
    unfold IngestWorker.stopWithoutSession
    rw [wp_bind]
    simp only [wp_bind, wp_query, hok]
    refine ⟨fun _ => ?_, by simp, by simp⟩
    refine wp_failActiveRecording hsteady (fun n' => ?_) fun h => ?_
    · simp only [wp_commit, hok]
      refine ⟨fun _ => ?_, by simp, by simp⟩
      rcases hst : w.db.status c with _ | st
      · simp [View.obs, Op.effect, hs, hst]
      · cases st <;> simp [View.obs, Op.effect, hs, hst]
    · exact healthy_allOk.not_mayCrash h
  · rw [World.dropPending_sessions, hs]
    dsimp only
    unfold IngestWorker.stopSession
    rw [wp_bind]
    have hstatus : (w.view c).obs.status = w.db.status c := rfl
    have hsession : (w.view c).obs.session =
        some ((w.heap s).isConnected, (w.heap s).recording) := by
      rw [obs_session hs]
    by_cases hrec : (w.dropPending c).HasRecording c s
    · refine wp_finalize hsteady hrec (fun n' w' hw' => ?_) fun h => ?_
      · have hview := hw'.view_eq c
        have hstored := stored_finalized (w := w.dropPending c) (c := c) (s := s)
        refine wp_settle_obs (r := (w.heap s).recording) ?_ ?_ ?_ ?_ ?_
        · rw [hw'.sessions]
          exact hs
        · rw [hw'.heap]
          show ((World.finalized c s (w.dropPending c)).heap s).recording = false
          simp
        · rw [hw'.pendingRecord, World.pendingRecord_finalized]
          simp
        · rw [hw'.db]
          exact hstatus.trans (congrArg Stored.status hstored).symm
        · rw [hw'.heap, hsession]
          simp
      · exact absurd h healthy_allOk.not_mayCrash
    · have hnone : (w.heap s).recording = false ∧ w.recordingIds.lookup c = none := by
        simpa [World.HasRecording] using hrec
      have hs' : (w.dropPending c).sessions.lookup c = some s := hs
      have hpending : c ∉ (w.dropPending c).pendingRecord := Finset.notMem_erase c _
      exact wp_finalize_of_not hrec
        (wp_settle_obs (r := (w.heap s).recording) hs' hnone.1 hpending hstatus hsession)

/-- **A disconnect that works.** -/
theorem obs_disconnectStep {v v' : View} (h : DisconnectStep v v') :
    v'.obs = Op.disconnect.effect v.obs := by
  cases h with
  | absent hs =>
    unfold View.obs
    rw [hs]
    rfl
  | idle s x hs hx => rfl
  | finalized s x t hs hx ht => rfl

/-- What a handler that works does to the view of its channel. -/
def OpStep (died : Bool) (fresh : RecordingId) : Op → View → View → Prop
  | .disconnect => DisconnectStep
  | .stop => StopStep died
  | .start => StartStep died fresh

/-- **One handler.** -/
theorem wp_handler_effect (op : Op) (c : ChannelId) (n : ℕ) (hw : Sound w) :
    wp allOk (IngestWorker.handlers op c)
      (fun _ _ w' => Local c w w' ∧ (w'.view c).obs = op.effect (w.view c).obs ∧
        OpStep w'.died w.nextId op (w.view c) (w'.view c))
      (fun _ _ _ => False) (fun _ => MayCrash (allOk (κ := Call))) n w := by
  have hsteady : Steady allOk := healthy_allOk.steady
  cases op with
  | disconnect =>
    refine wp_mono (handleDisconnect_acts hsteady c n w) ?_ (fun _ _ _ h => h) fun _ h => h.crash
    rintro _ n' w' ⟨hlocal, hstep⟩
    exact ⟨hlocal, obs_disconnectStep (hstep hw), hstep hw⟩
  | stop =>
    refine wp_mono (wp_and (handleRecordStop_acts hsteady c n w) (wp_stop_obs c n w)) ?_
      (fun _ _ _ h => h.1) fun _ h => h.1.crash
    rintro _ n' w' ⟨⟨hlocal, hstep⟩, hobs⟩
    exact ⟨hlocal, hobs, hstep hw⟩
  | start =>
    refine wp_mono (wp_and (handleRecordStart_acts hsteady c n w) (wp_start_obs c n w)) ?_
      (fun _ _ _ h => h.1) fun _ h => h.1.crash
    rintro _ n' w' ⟨⟨hlocal, hstep⟩, hobs⟩
    exact ⟨hlocal, hobs, hstep hw⟩

/-- **A handler does what is observed of its operation.** -/
theorem handler_effect (op : Op) (c : ChannelId) (hw : Sound w) :
    Sound (final allOk (IngestWorker.handlers op c) w) ∧
      ((final allOk (IngestWorker.handlers op c) w).view c).obs = op.effect (w.view c).obs ∧
        ∃ died, OpStep died w.nextId op (w.view c)
          ((final allOk (IngestWorker.handlers op c) w).view c) := by
  refine final_of_wp (P := fun w' => Sound w' ∧ (w'.view c).obs = op.effect (w.view c).obs ∧
    ∃ died, OpStep died w.nextId op (w.view c) (w'.view c)) ?_
  refine wp_mono (wp_handler_effect op c 0 hw) ?_ (fun _ _ _ h => h.elim)
    fun _ h => absurd h healthy_allOk.not_mayCrash
  rintro _ _ w' ⟨hlocal, hobs, hstep⟩
  exact ⟨hlocal.sound hw, hobs, _, hstep⟩

end Handlers

/-! ## Ops in order -/

/-- Starts come before stops, and stops before disconnects. -/
def Op.rank : Op → ℕ
  | start => 0
  | stop => 1
  | disconnect => 2

/-- The least rank that a request at a status can have. -/
def ChannelStatus.floor : ChannelStatus → ℕ
  | stopping => 1
  | disconnecting => 2
  | _ => 0

/-- The guards of the scheduler. -/
theorem floor_of_accepts {op : Op} {st : ChannelStatus} (h : op.request.accepts st = true) :
    st.floor ≤ op.rank ∧ (op.request.intent st).floor = op.rank := by
  cases op <;> cases st <;> simp_all [Op.request, Request.accepts, Request.intent,
    ChannelStatus.floor, Op.rank, activeStatuses]

/-- A status from which every disconnect leads to idle. -/
def Obs.Closing (x : Obs) : Prop := x.status.any (· ∈ .idle :: activeStatuses) = true

/-- A handler does not leave those statuses. -/
theorem closing_effect {x : Obs} (hx : x.Closing) (op : Op) : (op.effect x).Closing := by
  rcases x with ⟨_ | st, session, pending⟩
  · exact absurd hx (by simp [Obs.Closing])
  · rcases session with _ | ⟨up, rec⟩
    · cases op <;> cases st <;> simp_all [Obs.Closing, Op.effect, activeStatuses]
    · cases op <;> cases st <;> cases up <;> cases rec <;>
        simp_all [Obs.Closing, Op.effect, activeStatuses]

/-- **A later op makes an earlier one irrelevant.** -/
theorem effect_effect {a b : Op} (hab : a.rank ≤ b.rank) {x : Obs}
    (hx : b = .disconnect → x.Closing) : b.effect (a.effect x) = b.effect x := by
  cases b with
  -- A disconnect leaves the same state whatever came before it.
  | disconnect =>
    have hconst : ∀ y : Obs, y.Closing → Op.disconnect.effect y = ⟨some .idle, none, false⟩ := by
      rintro ⟨_ | st, session, pending⟩ hy
      · exact absurd hy (by simp [Obs.Closing])
      · cases st <;> simp_all [Obs.Closing, Op.effect, activeStatuses]
    rw [hconst _ (closing_effect (hx rfl) a), hconst _ (hx rfl)]
  | stop =>
    rcases x with ⟨status, _ | ⟨up, rec⟩, pending⟩
    · cases a with
      | disconnect => exact absurd hab (by decide)
      | stop => rcases status with _ | st <;> [rfl; (cases st <;> rfl)]
      | start => rfl
    · cases a with
      | disconnect => exact absurd hab (by decide)
      | stop => rcases status with _ | st <;> rfl
      | start => rcases status with _ | st <;> cases up <;> cases rec <;> rfl
  | start =>
    rcases x with ⟨status, _ | ⟨up, rec⟩, pending⟩
    · cases a with
      | disconnect => exact absurd hab (by decide)
      | stop => exact absurd hab (by decide)
      | start => rfl
    · cases a with
      | disconnect => exact absurd hab (by decide)
      | stop => exact absurd hab (by decide)
      | start => cases up <;> cases rec <;> simp [Op.effect]

/-- **Only the last op counts.** -/
theorem foldl_effect {last : Op} (ops : List Op) (x : Obs) (hlast : ops.getLast? = some last)
    (hops : ops.Pairwise fun a b => a.rank ≤ b.rank) (hx : last = .disconnect → x.Closing) :
    ops.foldl (fun x op => op.effect x) x = last.effect x := by
  -- On the ops: the first one is made irrelevant by the last, whose rank is at least its own.
  induction ops generalizing x with
  | nil => exact absurd hlast (by simp)
  | cons a ops ih =>
    rw [List.pairwise_cons] at hops
    rw [List.foldl_cons]
    rcases ops with _ | ⟨b, ops⟩
    · obtain rfl : a = last := by simpa using hlast
      rfl
    · have hlast' : (b :: ops).getLast? = some last := by
        rw [← hlast, List.getLast?_cons_cons]
      rw [ih (a.effect x) hlast' hops.2 fun h => closing_effect (hx h) a]
      exact effect_effect (hops.1 last (List.mem_of_getLast? hlast')) hx

/-! ## Accepted requests -/

section Requests

variable {w : World} {c : ChannelId} {ops : List Op}

/-- A job that the scheduler queues names its channel. -/
theorem channel_jobPayload (hid : (Json.ofKey c).truthy = true) (db : Database) (q : Queue) :
    Raw.channel (.json (jobPayload c db q)) = some c := by
  have hkey : (Json.ofKey c).toKey = some c := by
    cases c <;> rfl
  have hfield : ∀ rest, Json.field? "channel_id" rest = none →
      (Json.obj (("channel_id", Json.ofKey c) :: rest)).channel = some c := by
    intro rest hrest
    have hfind : rest.reverse.find? (fun e => e.1 = "channel_id") = none := by
      simpa [Json.field?] using hrest
    have hget : Json.field? "channel_id" (("channel_id", Json.ofKey c) :: rest) =
        some (Json.ofKey c) := by
      unfold Json.field?
      rw [List.reverse_cons, List.find?_append, hfind]
      rfl
    unfold Json.channel Json.jobId
    dsimp only
    rw [hget, Option.filter_some, if_pos hid]
    exact hkey
  cases q with
  | connect => exact hfield _ (by simp [Json.field?])
  | _ => exact hfield _ rfl

/-- A request that is accepted queues its job. -/
theorem queued_outcome (hid : (Json.ofKey c).truthy = true) (r : Request) (st : ChannelStatus)
    (q : Queue) :
    (r.outcome c st w).queued q = w.queued q ++ if q ∈ r.jobs st then [c] else [] := by
  unfold World.queued
  rw [lists_outcome, List.filterMap_append]
  split
  · rw [List.filterMap_cons, channel_jobPayload hid, List.filterMap_nil]
  · rw [List.filterMap_nil]

/-- A request queues the job of its op, and at most a connect job with it. -/
theorem queue_mem_jobs {op op' : Op} {st : ChannelStatus} :
    op.queue ∈ op'.request.jobs st ↔ op = op' := by
  cases op <;> cases op' <;> cases st <;> simp [Op.queue, Op.request, Request.jobs]

/-- And has the outcome of its guard. -/
theorem request_of_accepts {op : Op} (h : w.Accepts op.request c) :
    ∃ st, w.db.status c = some st ∧ op.request.accepts st = true ∧
      w.request op.request c = op.request.outcome c st w := by
  rcases request_cases op.request c w with ⟨st, hst, hacc, -, heq⟩ | ⟨hno, -⟩
  · exact ⟨st, hst, hacc, heq⟩
  · exact absurd h hno

/-- The status after an accepted request. -/
theorem status_outcome {r : Request} {st : ChannelStatus} (hst : w.db.status c = some st) :
    (r.outcome c st w).db.status c = some (r.intent st) := by
  have h := congrArg (fun v => v.status) (@view_outcome r c st w c)
  rw [if_pos rfl] at h
  simpa [hst] using h

/-- **Accepted requests come in order**, and leave the intent of the last one. -/
theorem ordered_of_allAccepted (ops : List Op) {w : World} {st : ChannelStatus}
    (hst : w.db.status c = some st) (h : World.AllAccepted c w ops) :
    (∀ op ∈ ops, st.floor ≤ op.rank) ∧ ops.Pairwise (fun a b => a.rank ≤ b.rank) ∧
      ∀ last, ops.getLast? = some last →
        ∃ st', (w.requests c ops).db.status c = some st' ∧ st'.floor = last.rank := by
  induction ops generalizing w st with
  | nil => exact ⟨by simp, List.Pairwise.nil, fun last h => absurd h (by simp)⟩
  | cons op ops ih =>
    obtain ⟨haccepts, hrest⟩ := h
    obtain ⟨st', hst', hacc, heq⟩ := request_of_accepts haccepts
    obtain rfl : st = st' := Option.some.inj (hst.symm.trans hst')
    obtain ⟨hfloor, hintent⟩ := floor_of_accepts hacc
    have hnext : (w.request op.request c).db.status c = some (op.request.intent st) := by
      rw [heq, status_outcome hst]
    obtain ⟨hge, hpair, hlast⟩ := ih hnext hrest
    rw [hintent] at hge
    refine ⟨fun op' hop' => ?_, List.pairwise_cons.mpr ⟨hge, hpair⟩, fun last hl => ?_⟩
    · rcases List.mem_cons.mp hop' with rfl | hop'
      · exact hfloor
      · exact hfloor.trans (hge op' hop')
    · show ∃ st', ((w.request op.request c).requests c ops).db.status c = some st' ∧ _
      rcases ops with _ | ⟨op', ops⟩
      · obtain rfl : op = last := by simpa using hl
        exact ⟨_, hnext, hintent⟩
      · apply hlast last
        rw [← hl, List.getLast?_cons_cons]

/-- Where the jobs of accepted requests are. -/
theorem queued_requests (hid : (Json.ofKey c).truthy = true) (ops : List Op) {w : World}
    (h : World.AllAccepted c w ops) (op : Op) :
    c ∈ (w.requests c ops).queued op.queue ↔ c ∈ w.queued op.queue ∨ op ∈ ops := by
  induction ops generalizing w with
  | nil => simp [World.requests]
  | cons op' ops ih =>
    obtain ⟨haccepts, hrest⟩ := h
    obtain ⟨st, -, -, heq⟩ := request_of_accepts haccepts
    show c ∈ ((w.request op'.request c).requests c ops).queued op.queue ↔ _
    rw [ih hrest, heq, queued_outcome hid, List.mem_append, List.mem_cons, or_assoc]
    by_cases hop : op = op'
    · rw [if_pos (queue_mem_jobs.mpr hop)]
      simp [hop]
    · rw [if_neg fun h => hop (queue_mem_jobs.mp h)]
      simp [hop]

/-- Requests keep the books. -/
theorem sound_requests (hid : (Json.ofKey c).truthy = true) (ops : List Op) {w : World}
    (hw : Sound w) (hjobs : WellFormed w) :
    Sound (w.requests c ops) ∧ WellFormed (w.requests c ops) := by
  induction ops generalizing w with
  | nil => exact ⟨hw, hjobs⟩
  | cons op ops ih =>
    show Sound ((w.request op.request c).requests c ops) ∧
      WellFormed ((w.request op.request c).requests c ops)
    rcases request_cases op.request c w with ⟨st, -, -, -, heq⟩ | ⟨-, heq⟩
    · rw [heq]
      refine ih (sound_outcome hw) fun q hq raw hraw => ?_
      rw [lists_outcome, List.mem_append] at hraw
      rcases hraw with hraw | hraw
      · exact hjobs q hq raw hraw
      · split at hraw
        · exact ⟨c, List.mem_singleton.mp hraw ▸ channel_jobPayload hid _ _⟩
        · exact absurd hraw List.not_mem_nil
    · rw [heq]
      exact ih hw hjobs

/-- **The op that the drain selects is the last one.** -/
theorem resolved_requests (hid : (Json.ofKey c).truthy = true) {st : ChannelStatus}
    (hst : w.db.status c = some st) (hnew : ¬ w.HasJob c) (h : World.AllAccepted c w ops)
    {last : Op} (hlast : ops.getLast? = some last) :
    (w.requests c ops).HasJob c ∧ (w.requests c ops).resolved c = last := by
  obtain ⟨-, hpair, hstatus⟩ := ordered_of_allAccepted ops hst h
  obtain ⟨st', hst', hfloor⟩ := hstatus last hlast
  have hqueued : ∀ op : Op, c ∈ (w.requests c ops).queued op.queue ↔ op ∈ ops := by
    intro op
    rw [queued_requests hid ops h op, or_iff_right]
    intro hop
    cases op with
    | disconnect => exact hnew (Or.inl hop)
    | stop => exact hnew (Or.inr (Or.inl hop))
    | start => exact hnew (Or.inr (Or.inr hop))
  have hmem : last ∈ ops := List.mem_of_getLast? hlast
  have hle : ∀ op ∈ ops, op.rank ≤ last.rank := by
    obtain ⟨init, rfl⟩ := List.getLast?_eq_some_iff.mp hlast
    intro op hop
    rcases List.mem_append.mp hop with hop | hop
    · exact (List.pairwise_append.mp hpair).2.2 op hop last List.mem_cons_self
    · rw [List.mem_singleton.mp hop]
  have hnot : ∀ op : Op, last.rank < op.rank → c ∉ (w.requests c ops).queued op.queue := by
    intro op hlt hop
    have hge := hle op ((hqueued op).mp hop)
    omega
  have hjob : c ∈ (w.requests c ops).queued last.queue := (hqueued last).mpr hmem
  unfold World.HasJob World.resolved
  -- Nothing of a higher rank is queued, so the resolution comes down to the last op.
  cases last with
  | disconnect => exact ⟨Or.inl hjob, if_pos hjob⟩
  | stop =>
    have hdis : c ∉ (w.requests c ops).queued .disconnect := hnot .disconnect (by decide)
    -- The status that the accepted stop has left decides between the two record jobs.
    have hstopping : (w.requests c ops).db.status c = some .stopping := by
      rw [hst']
      cases st' <;> simp_all [ChannelStatus.floor, Op.rank]
    refine ⟨Or.inr (Or.inl hjob), ?_⟩
    rw [if_neg hdis, if_pos hstopping]
    split
    · rfl
    · exact if_pos hjob
  | start =>
    have hdis : c ∉ (w.requests c ops).queued .disconnect := hnot .disconnect (by decide)
    have hstop : c ∉ (w.requests c ops).queued .recordStop := hnot .stop (by decide)
    refine ⟨Or.inr (Or.inr hjob), ?_⟩
    rw [if_neg hdis, if_neg fun h => hstop h.1]
    exact if_neg hstop

end Requests

/-! ## The recordings of a batch -/

section Recordings

variable {died : Bool} {fresh : RecordingId} {v₀ v v' : View}

/-- The recordings in flight that were not so in `v₀` are captured by the session of then. -/
structure Capturing (v₀ v : View) : Prop where
  session : ∀ s y, v.session = some (s, y) → ∃ x, v₀.session = some (s, x)
  row : ∀ r t, v.rows r = some t → v₀.rows r = none →
    ∃ y, v.session = some (t, y) ∧ y.recording = true ∧ v.recordingId = some r

/-- Without a recording session there is no new row in flight. -/
theorem Capturing.no_row (h : Capturing v₀ v) (hno : ∀ s y, v.session = some (s, y) →
    y.recording = false) (r : RecordingId) (t : SessionId) (hr : v.rows r = some t) :
    v₀.rows r ≠ none := by
  intro hnew
  obtain ⟨y, hs, hrec, -⟩ := h.row r t hr hnew
  exact absurd (hrec.symm.trans (hno _ _ hs)) (by decide)

/-- No new row is in flight after this one is gone. -/
theorem Capturing.no_row_dropRow (h : Capturing v₀ v) {t : Option RecordingId} (ht : Target v t)
    (r : RecordingId) (s : SessionId) (hr : dropRow t v.rows r = some s) : v₀.rows r ≠ none := by
  intro hnew
  obtain ⟨hne, hrow⟩ := dropRow_eq_some.mp hr
  obtain ⟨y, -, -, hid⟩ := h.row r s hrow hnew
  unfold Target at ht
  rw [hid] at ht
  exact hne ht

/-- One operation. -/
theorem Capturing.step (h : Capturing v₀ v) {op : Op} (hstep : OpStep died fresh op v v') :
    Capturing v₀ v' := by
  -- Only a start that opens a row makes a new one, and it is the session's; an end may only
  -- take one.
  cases op with
  | disconnect =>
    cases (hstep : DisconnectStep v v') with
    | absent hs => exact ⟨h.session, h.row⟩
    | idle s x hs hx =>
      refine ⟨fun _ _ hs' => absurd hs' (by simp), fun r t hr hnew => absurd hnew ?_⟩
      refine h.no_row (fun s' y hs' => ?_) r t hr
      obtain ⟨-, rfl⟩ := Prod.mk.inj (Option.some.inj (hs.symm.trans hs'))
      exact hx
    | finalized s x t hs hx ht =>
      exact ⟨fun _ _ hs' => absurd hs' (by simp),
        fun r s' hr hnew => absurd hnew (h.no_row_dropRow ht r s' hr)⟩
  | stop =>
    cases (hstep : StopStep died v v') with
    | absent t hs ht =>
      refine ⟨h.session, fun r s' hr hnew => absurd hnew ?_⟩
      exact h.no_row (fun s y hs' => absurd (hs.symm.trans hs') (by simp)) r s'
        (dropRow_eq_some.mp hr).2
    | finalized s x y t up y' hs hrec ht hy hup hseen =>
      refine ⟨fun s' z hs' => ?_, fun r s' hr hnew => absurd hnew (h.no_row_dropRow ht r s' hr)⟩
      obtain ⟨rfl, -⟩ := Prod.mk.inj (Option.some.inj hs')
      exact h.session s x hs
    | idle s x up x' hs hx hid hseen =>
      refine ⟨fun s' z hs' => ?_, fun r t hr hnew => absurd hnew ?_⟩
      · obtain ⟨rfl, -⟩ := Prod.mk.inj (Option.some.inj hs')
        exact h.session s x hs
      · refine h.no_row (fun s' y hs' => ?_) r t hr
        obtain ⟨-, rfl⟩ := Prod.mk.inj (Option.some.inj (hs.symm.trans hs'))
        exact hx
  | start =>
    cases (hstep : StartStep died fresh v v') with
    | absent hs => exact ⟨h.session, h.row⟩
    | dead s x x' hs hseen =>
      refine ⟨fun s' z hs' => ?_, fun r t hr hnew => ?_⟩
      · obtain ⟨rfl, -⟩ := Prod.mk.inj (Option.some.inj hs')
        exact h.session s x hs
      · obtain ⟨y, hs', hrec, hid⟩ := h.row r t hr hnew
        obtain ⟨rfl, rfl⟩ := Prod.mk.inj (Option.some.inj (hs.symm.trans hs'))
        exact ⟨x', rfl, hseen.recording_eq.trans hrec, hid⟩
    | already s x hs hup hrec => exact ⟨h.session, h.row⟩
    | opened s x y hs hup hrec hy hy' =>
      refine ⟨fun s' z hs' => ?_, fun r t hr hnew => ?_⟩
      · obtain ⟨rfl, -⟩ := Prod.mk.inj (Option.some.inj hs')
        exact h.session s x hs
      · by_cases hfresh : r = fresh
        · subst hfresh
          obtain rfl : s = t := by simpa using hr
          exact ⟨y, rfl, hy', rfl⟩
        · -- An older new row would be captured by a session that is not recording.
          have hold : v.rows r = some t := by simpa [hfresh] using hr
          refine absurd hnew (h.no_row (fun s' z hs' => ?_) r t hold)
          obtain ⟨-, rfl⟩ := Prod.mk.inj (Option.some.inj (hs.symm.trans hs'))
          exact hrec
    | failed s x y up y' hs hup hrec hy hd hseen =>
      refine ⟨fun s' z hs' => ?_, fun r t hr hnew => absurd hnew ?_⟩
      · obtain ⟨rfl, -⟩ := Prod.mk.inj (Option.some.inj hs')
        exact h.session s x hs
      · refine h.no_row (fun s' z hs' => ?_) r t hr
        obtain ⟨-, rfl⟩ := Prod.mk.inj (Option.some.inj (hs.symm.trans hs'))
        exact hrec

/-- A recording session that only gets starts opens no row. -/
structure Kept (v₀ v : View) : Prop where
  session : ∃ s y, v.session = some (s, y) ∧ y.recording = true
  row : ∀ r, v.rows r ≠ none → v₀.rows r ≠ none

/-- One start. -/
theorem Kept.step (h : Kept v₀ v) (hstep : StartStep died fresh v v') : Kept v₀ v' := by
  obtain ⟨s', y', hs', hrec'⟩ := h.session
  cases hstep with
  | absent hs => exact absurd (hs.symm.trans hs') (by simp)
  | dead s x x' hs hseen =>
    obtain ⟨rfl, rfl⟩ := Prod.mk.inj (Option.some.inj (hs.symm.trans hs'))
    exact ⟨⟨s, x', rfl, hseen.recording_eq.trans hrec'⟩, h.row⟩
  | already s x hs hup hrec => exact ⟨⟨s', y', hs', hrec'⟩, h.row⟩
  | opened s x y hs hup hrec hy hy' =>
    obtain ⟨-, rfl⟩ := Prod.mk.inj (Option.some.inj (hs.symm.trans hs'))
    exact absurd (hrec.symm.trans hrec') (by decide)
  | failed s x y up z hs hup hrec hy hd hseen =>
    obtain ⟨-, rfl⟩ := Prod.mk.inj (Option.some.inj (hs.symm.trans hs'))
    exact absurd (hrec.symm.trans hrec') (by decide)

end Recordings

/-! ## The drain -/

section Batches

variable {w : World} {c : ChannelId} {ops : List Op}

/-- **The handlers in order.** -/
theorem inOrder_effect (ops : List Op) (hw : Sound w) {v₀ : View} (h : Capturing v₀ (w.view c)) :
    ((w.inOrder c ops).view c).obs = ops.foldl (fun x op => op.effect x) (w.view c).obs ∧
      Capturing v₀ ((w.inOrder c ops).view c) ∧
        (Kept v₀ (w.view c) → (∀ op ∈ ops, op = .start) → Kept v₀ ((w.inOrder c ops).view c)) := by
  induction ops generalizing w with
  | nil => exact ⟨rfl, h, fun hk _ => hk⟩
  | cons op ops ih =>
    obtain ⟨hw', hobs, died, hstep⟩ := handler_effect op c hw
    obtain ⟨hfold, hcap, hkept⟩ := ih hw' (h.step hstep)
    refine ⟨?_, hcap, fun hk hstart => ?_⟩
    · rw [List.foldl_cons, ← hobs]
      exact hfold
    · refine hkept ?_ fun op' hop' => hstart op' (List.mem_cons_of_mem _ hop')
      obtain rfl := hstart op List.mem_cons_self
      exact hk.step hstep

/-- **The drain**, which runs one op for the channel. -/
theorem drained_effect (hw : Sound w) (hjobs : WellFormed w) :
    (¬ w.HasJob c → w.drained.view c = w.view c) ∧
      (w.HasJob c → (w.drained.view c).obs = (w.resolved c).effect (w.view c).obs ∧
        ∃ died fresh, (w.view c).rows fresh = none ∧
          OpStep died fresh (w.resolved c) (w.view c) (w.drained.view c)) := by
  have hdrain : Drained (fun _ op v v' => v'.obs = op.effect v.obs ∧
      ∃ died fresh, v.rows fresh = none ∧ OpStep died fresh op v v') (fun _ => True)
      w w.drained := by
    refine final_of_wp (P := Drained (fun _ op v v' => v'.obs = op.effect v.obs ∧
      ∃ died fresh, v.rows fresh = none ∧ OpStep died fresh op v v') (fun _ => True) w) ?_
    refine wp_mono (wp_drain healthy_allOk.steady healthy_allOk.popsUp (fun _ _ _ _ _ _ h => h)
      (fun _ _ _ h => h) (fun c n u hu _ _ _ => ?_) hw trivial hjobs) (fun _ _ _ h => h)
      (fun _ _ _ h => h.elim) fun _ h => absurd h healthy_allOk.not_mayCrash
    refine wp_mono (wp_handler_effect (w.resolved c) c n hu) ?_ (fun _ _ _ h => h) fun _ h => h
    rintro _ _ u' ⟨hlocal, hobs, hstep⟩
    exact ⟨hlocal, ⟨hobs, _, _, hu.rowsOf_nextId c, hstep⟩, trivial⟩
  exact ⟨hdrain.untouched c, hdrain.acted c⟩

/-- A new recording that is in flight after the ops in order has its like after the last op. -/
theorem row_of_inOrder {died : Bool} {fresh : RecordingId} {v v₁ v₂ : View} {last : Op}
    (hcap : Capturing v v₁) (hkept : Kept v v → last = .start → Kept v v₁)
    (hstep : OpStep died fresh last v v₂) (hobs : v₂.obs = v₁.obs)
    (hfresh : v.rows fresh = none) {r : RecordingId} {t : SessionId}
    (hr : v₁.rows r = some t) (hnew : v.rows r = none) :
    ∃ r', v.rows r' = none ∧ v₂.rows r' = some t := by
  obtain ⟨y, hs, hrec, -⟩ := hcap.row r t hr hnew
  obtain ⟨x₀, hs₀⟩ := hcap.session t y hs
  -- The session that records it is recording after the last op, too.
  have hsession : v₂.obs.session = some (y.isConnected, true) := by
    rw [hobs]
    show v₁.session.map _ = _
    rw [hs, ← hrec]
    rfl
  have hrecording : ∀ s z, v₂.session = some (s, z) → z.recording = true := by
    intro s z hz
    have h : v₂.session.map (fun p => (p.2.isConnected, p.2.recording)) =
      some (y.isConnected, true) := hsession
    rw [hz, Option.map_some, Option.some.injEq, Prod.mk.injEq] at h
    exact h.2
  have hnot : ∀ {P : Prop}, last = .start → x₀.recording = true → P := by
    intro P hlast hx
    have h := (hkept ⟨⟨t, x₀, hs₀, hx⟩, fun r h => h⟩ hlast).row r (by rw [hr]; simp)
    exact absurd hnew h
  -- After the last op alone the session records too, so that op was the start that opened a row.
  cases last with
  | disconnect =>
    rw [obs_disconnectStep hstep] at hsession
    exact absurd hsession (by simp [Op.effect])
  | stop =>
    cases (hstep : StopStep died v v₂) with
    | absent t' hnone ht => exact absurd (hnone.symm.trans hs₀) (by simp)
    | finalized s x z t' up z' hs' hrec' ht hz hup hseen =>
      have hz' := hrecording s z' rfl
      rw [hseen.recording_eq, hz] at hz'
      exact absurd hz' (by decide)
    | idle s x up x' hs' hx hid hseen =>
      have hx' := hrecording s x' rfl
      rw [hseen.recording_eq, hx] at hx'
      exact absurd hx' (by decide)
  | start =>
    cases (hstep : StartStep died fresh v v₂) with
    | absent hnone => exact absurd (hnone.symm.trans hs₀) (by simp)
    | dead s x x' hs' hseen =>
      obtain ⟨rfl, rfl⟩ := Prod.mk.inj (Option.some.inj (hs'.symm.trans hs₀))
      exact hnot rfl (hseen.recording_eq.symm.trans (hrecording s x' rfl))
    | already s x hs' hup hx =>
      obtain ⟨-, rfl⟩ := Prod.mk.inj (Option.some.inj (hs'.symm.trans hs₀))
      exact hnot rfl hx
    | opened s x z hs' hup hx hz hz' =>
      obtain ⟨rfl, -⟩ := Prod.mk.inj (Option.some.inj (hs'.symm.trans hs₀))
      exact ⟨fresh, hfresh, by simp⟩
    | failed s x z up z' hs' hup hx hz hd hseen =>
      have hz' := hrecording s z' rfl
      rw [hseen.recording_eq, hz] at hz'
      exact absurd hz' (by decide)

/-- **Batched jobs act like ordered ones.**  After the drain status, session, recording flag and
pending mark are those after the handlers in the order of the requests; and a recording that
was started in that order and is still in flight was started by the drain as well, on the same
session. -/
theorem drained_like_inOrder (hid : (Json.ofKey c).truthy = true) (hw : Sound w)
    (hjobs : WellFormed w) (hnew : ¬ w.HasJob c) (h : World.AllAccepted c w ops) :
    (((w.requests c ops).drained).view c).obs =
        (((w.requests c ops).inOrder c ops).view c).obs ∧
      ∀ r t, (((w.requests c ops).inOrder c ops).view c).rows r = some t →
        ((w.requests c ops).view c).rows r = none →
          ∃ r', ((w.requests c ops).view c).rows r' = none ∧
            (((w.requests c ops).drained).view c).rows r' = some t := by
  obtain ⟨hw', hjobs'⟩ := sound_requests hid ops hw hjobs
  obtain ⟨hnone, hsome⟩ := drained_effect (c := c) hw' hjobs'
  have hcap : Capturing ((w.requests c ops).view c) ((w.requests c ops).view c) :=
    ⟨fun s y hs => ⟨y, hs⟩, fun r t hr hnew => absurd (hnew.symm.trans hr) (by simp)⟩
  rcases ops with _ | ⟨op, ops⟩
  · -- Without a request there is no job.
    have hdrained : (w.requests c []).drained.view c = (w.requests c []).view c := hnone hnew
    rw [hdrained]
    exact ⟨rfl, fun r t hr hnew => ⟨r, hnew, hr⟩⟩
  -- Otherwise the op that the drain selects is the last request.
  · obtain ⟨st, hst, -, -⟩ := request_of_accepts h.1
    obtain ⟨last, hlast⟩ : ∃ last, (op :: ops).getLast? = some last :=
      ⟨_, List.getLast?_eq_some_getLast (List.cons_ne_nil op ops)⟩
    obtain ⟨-, hpair, hstatus⟩ := ordered_of_allAccepted (op :: ops) hst h
    obtain ⟨st', hst', hfloor⟩ := hstatus last hlast
    obtain ⟨hjob, hres⟩ := resolved_requests hid hst hnew h hlast
    obtain ⟨hobs, died, fresh, hfresh, hstep⟩ := hsome hjob
    rw [hres] at hobs hstep
    have hclosing : last = .disconnect → ((w.requests c (op :: ops)).view c).obs.Closing := by
      rintro rfl
      show ((w.requests c (op :: ops)).db.status c).any _ = true
      rw [hst']
      cases st' <;> simp_all [ChannelStatus.floor, Op.rank, activeStatuses]
    obtain ⟨hfold, hcap', hkept⟩ := inOrder_effect (op :: ops) hw' hcap
    have hsame : ((w.requests c (op :: ops)).drained.view c).obs =
        (((w.requests c (op :: ops)).inOrder c (op :: ops)).view c).obs := by
      rw [hobs, hfold, foldl_effect (op :: ops) _ hlast hpair hclosing]
    refine ⟨hsame, fun r t hr hnew => ?_⟩
    refine row_of_inOrder hcap' (fun hk hstart => hkept hk ?_) hstep hsame hfresh hr hnew
    -- Before a start there are only starts.
    subst hstart
    obtain ⟨init, hinit⟩ := List.getLast?_eq_some_iff.mp hlast
    rw [hinit] at hpair ⊢
    intro op' hop'
    rcases List.mem_append.mp hop' with hop' | hop'
    · have hle := (List.pairwise_append.mp hpair).2.2 op' hop' .start List.mem_cons_self
      cases op' with
      | start => rfl
      | stop => exact absurd hle (by decide)
      | disconnect => exact absurd hle (by decide)
    · exact List.mem_singleton.mp hop'

/-- An idle channel of a worker that has just started. -/
def lobby : World :=
  World.fresh
    { channels := Dict.set (.str "lobby") ⟨"Lobby", .srt, .idle⟩ ∅
      recordings := ∅
      workers := ∅ } 0

/-- It gets two record starts and a disconnect between two ticks. -/
theorem drained_like_inOrder_lobby :
    (((lobby.requests (.str "lobby") [.start, .start, .disconnect]).drained).view
        (.str "lobby")).obs =
      (((lobby.requests (.str "lobby") [.start, .start, .disconnect]).inOrder (.str "lobby")
        [.start, .start, .disconnect]).view (.str "lobby")).obs := by
  have haccepted : World.AllAccepted (.str "lobby") lobby [.start, .start, .disconnect] :=
    ⟨rfl, rfl, rfl, trivial⟩
  refine (drained_like_inOrder (by decide) ⟨?_, ?_, ?_, ?_⟩ ?_ ?_ haccepted).1
  · intro c d s hc
    exact absurd hc (by simp [lobby, World.fresh])
  · intro c s hc
    exact absurd hc (by simp [lobby, World.fresh])
  · intro r row hr
    exact absurd hr (by simp [lobby, World.fresh])
  · intro c r hr
    exact absurd hr (by simp [lobby, World.fresh])
  · intro q _ raw hraw
    exact absurd hraw List.not_mem_nil
  · rintro (h | h | h) <;> exact absurd h List.not_mem_nil

end Batches
