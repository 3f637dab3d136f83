/-
# Disconnecting a channel

An accepted `disconnect_channel` request followed by `_handle_disconnect`.  The handler
reaches the rows of a channel only through a session that is recording: a channel whose
worker holds no session, or a session that is not recording, keeps its rows in flight,
although `_handle_record_stop` fails them in the same situation.  `Covered` is the exact
condition under which the pair cleans up.
-/
import IngestFarm.Outcomes
import IngestFarm.Scheduler

open Prog

/-- Nothing of a channel's activity is left. -/
structure CleanedUp (w : World) (c : ChannelId) : Prop where
  /-- The channel is idle. -/
  idle : w.db.status c = some .idle
  /-- It has no session. -/
  session : c ∉ w.sessions
  /-- No start of it is remembered. -/
  pending : c ∉ w.pendingRecord
  /-- None of its rows is in flight. -/
  rows : ∀ r, ¬ w.db.InFlight c r

/-- The request commits the intent and queues the job. -/
def World.disconnecting (c : ChannelId) (w : World) : World :=
  (w.commitDb (Database.setStatus c .disconnecting)).push .disconnect (.json (Scheduler.payload c))

/-- The session of the channel, if there is one, can be closed, and every row in flight is
the one that closing it finishes. -/
def Covered (ans : Call → Bool) (w : World) (c : ChannelId) : Prop :=
  match w.sessions.lookup c with
  | none => ∀ r, ¬ w.db.InFlight c r
  | some s => Closable (answers ans) w s ∧
      ∀ r, w.db.InFlight c r → (w.heap s).recording = true ∧ w.finalizeTarget c = some r

/-! ## The request -/

/-- **A request for a channel in an active status is accepted.** -/
theorem exec_disconnectChannel {ans : Call → Bool} {w : World} {c : ChannelId}
    {st : ChannelStatus} (hst : w.db.status c = some st) (hact : st ∈ activeStatuses)
    (hdb : ∀ k, k.isDb = true → ans k = true) (hredis : ∀ k, k.isRedis = true → ans k = true) :
    exec (answers ans) (Scheduler.disconnectChannel c) w = (.ok (), w.disconnecting c) := by
  have hq : ans .dbQuery = true := hdb _ rfl
  have hc : ans .dbCommit = true := hdb _ rfl
  have hp : ans (.redisPush .disconnect) = true := hredis _ rfl
  obtain ⟨ch, hch, rfl⟩ := Option.map_eq_some_iff.mp hst
  apply exec_of_wp
  unfold Scheduler.disconnectChannel Scheduler.getChannel Scheduler.commitThenPublish
  simp [hq, hc, hp, hch]
  refine ⟨?_, fun _ => rfl⟩
  simp only [activeStatuses, List.mem_cons, List.not_mem_nil, or_false] at hact
  tauto

/-! ## The handler -/

/-- Cleaning up is a matter of the books. -/
theorem cleanedUp_congr {w w' : World} {c : ChannelId} (h : SameBooks w w') :
    CleanedUp w c ↔ CleanedUp w' c := by
  constructor
  · rintro ⟨h1, h2, h3, h4⟩
    exact ⟨h.db ▸ h1, h.sessions ▸ h2, h.pendingRecord ▸ h3, h.db ▸ h4⟩
  · rintro ⟨h1, h2, h3, h4⟩
    exact ⟨h.db ▸ h1, h.sessions ▸ h2, h.pendingRecord ▸ h3, h.db ▸ h4⟩

/-- The rows that a completed disconnect leaves in flight. -/
theorem inFlight_disconnected (w : World) (c : ChannelId) (r : RecordingId) :
    (w.disconnected c).db.InFlight c r ↔ w.db.InFlight c r ∧
      ∀ s, w.sessions.lookup c = some s → (w.heap s).recording = true →
        w.finalizeTarget c ≠ some r := by
  unfold World.disconnected World.closedSession
  rw [World.inFlight_idled]
  cases hs : w.sessions.lookup c with
  | none => simp
  | some s =>
    by_cases hrec : (w.heap s).recording = true
    · simp [World.tornDown, hrec]
      exact and_comm
    · simp [World.tornDown, hrec]


/-- A completed disconnect cleans up exactly when no row is left in flight. -/
theorem cleanedUp_disconnected {w : World} {c : ChannelId} {st : ChannelStatus}
    (hst : w.db.status c = some st) (hact : st ∈ activeStatuses) :
    CleanedUp (w.disconnected c) c ↔ ∀ r, w.db.InFlight c r →
      ∃ s, w.sessions.lookup c = some s ∧ (w.heap s).recording = true ∧
        w.finalizeTarget c = some r := by
  have hidle : (w.disconnected c).db.status c = some .idle := by
    have hany : ((World.closedSession c (w.sessions.lookup c)
        ((w.dropPending c).dropSession c)).db.status c).any (· ∈ activeStatuses) = true := by
      simp [hst, hact]
    unfold World.disconnected World.idled
    rw [if_pos hany]
    simp [hst]
  constructor
  · intro h r hr
    by_contra hno
    refine h.rows r ((inFlight_disconnected w c r).mpr ⟨hr, fun s hs hrec htarget => ?_⟩)
    exact hno ⟨s, hs, hrec, htarget⟩
  · intro h
    refine ⟨hidle, by simp [World.disconnected], by simp [World.disconnected], fun r hr => ?_⟩
    obtain ⟨hr, hno⟩ := (inFlight_disconnected w c r).mp hr
    obtain ⟨s, hs, hrec, htarget⟩ := h r hr
    exact hno s hs hrec htarget

/-- **Disconnect cleans up exactly when the handler reaches everything there is.**  The
database and Redis are up; the media calls of the session may fail. -/
theorem disconnect_cleans_up_iff {ans : Call → Bool} {w : World} {c : ChannelId}
    {st : ChannelStatus} (hst : w.db.status c = some st) (hact : st ∈ activeStatuses)
    (hdb : ∀ k, k.isDb = true → ans k = true) (hredis : ∀ k, k.isRedis = true → ans k = true) :
    (exec (answers ans) (Scheduler.disconnectChannel c) w).1 = .ok () ∧
      (CleanedUp (final (answers ans) (IngestWorker.handleDisconnect c)
        (final (answers ans) (Scheduler.disconnectChannel c) w)) c ↔ Covered ans w c) := by
  have hreq := exec_disconnectChannel hst hact hdb hredis
  refine ⟨by rw [hreq], ?_⟩
  have hw : final (answers ans) (Scheduler.disconnectChannel c) w = w.disconnecting c := by
    rw [final, hreq]
  have hst' : (w.disconnecting c).db.status c = some .disconnecting := by
    simp [World.disconnecting, hst]
  have hdone : CleanedUp ((w.disconnecting c).disconnected c) c ↔ ∀ r, w.db.InFlight c r →
      ∃ s, w.sessions.lookup c = some s ∧ (w.heap s).recording = true ∧
        w.finalizeTarget c = some r :=
    cleanedUp_disconnected hst' (by simp [activeStatuses])
  rw [hw]
  refine final_of_wp (P := fun w' => CleanedUp w' c ↔ Covered ans w c) ?_
  refine wp_handleDisconnect (fun n k hk => by simp [hdb k hk]) ?_ ?_ ?_ ?_
  · -- The handler runs to its end: only rows can be left.
    intro hcl n' w' hw'
    rw [cleanedUp_congr hw', hdone]
    unfold Covered
    cases hs : w.sessions.lookup c with
    | none => simp
    | some s =>
      refine Iff.trans ?_ (and_iff_right (hcl s hs).1).symm
      simp
  · intro s _ _ _ hno
    apply absurd hno
    simp [Unpublished, hredis (.redisPush .recordingComplete) rfl,
      hredis (.redisPush .postprocess) rfl]
  · -- It raises on the way: the status is still the intent.
    intro s hs hno e n' w' hstatus
    refine iff_of_false (fun h => ?_) fun h => ?_
    · have := h.idle
      rw [hstatus, hst'] at this
      exact absurd this (by simp)
    · rw [Covered, show w.sessions.lookup c = some s from hs] at h
      exact not_closable_answers hno h.1
  · intro h
    exact absurd h (not_mayCrash_answers ans)

/-- A channel of a crashed worker: at status `recording` with a row in flight, and no
session. -/
def abandoned : World :=
  World.fresh
    { channels := Dict.set (.str "a") ⟨"A", .udp, .recording⟩ ∅
      recordings := Dict.set 0
        { channelId := .str "a", startedAt := 0, endedAt := none, status := .recording,
          storagePath := ⟨.str "a", 0⟩, segmentCount := 0, byteSize := 0, startedBy := 0 } ∅
      workers := ∅ } 1

/-- The disconnect of an abandoned channel is accepted, and leaves its row in flight. -/
theorem disconnect_leaves_abandoned_row :
    ¬ ∀ (w : World) (c : ChannelId) (st : ChannelStatus), w.db.status c = some st →
      st ∈ activeStatuses → (exec allOk (Scheduler.disconnectChannel c) w).1 = .ok () →
      CleanedUp (final allOk (IngestWorker.handleDisconnect c)
        (final allOk (Scheduler.disconnectChannel c) w)) c := by
  intro h
  have hclean := h abandoned (.str "a") .recording rfl (by decide) rfl
  exact hclean.rows 0 ⟨_, rfl, rfl, rfl⟩

theorem disconnect_cleans_up_iff_abandoned :
    (exec (answers fun _ => true) (Scheduler.disconnectChannel (.str "a")) abandoned).1 = .ok () ∧
      (CleanedUp (final (answers fun _ => true) (IngestWorker.handleDisconnect (.str "a"))
        (final (answers fun _ => true) (Scheduler.disconnectChannel (.str "a")) abandoned))
          (.str "a") ↔ Covered (fun _ => true) abandoned (.str "a")) :=
  disconnect_cleans_up_iff (show abandoned.db.status (.str "a") = some .recording from rfl)
    (by decide) (fun _ _ => rfl) fun _ _ => rfl
