/-
# What a finished recording leaves behind

The outcome of `stop_recording` and `_finalize_recording` as a function of the state, and
the specifications that tie the two programs to it in an environment whose database
works.  The media and Redis calls may fail: then the program raises, and the
specification says how far it got.  `SameBooks` is the comparison of two states that
ignores Redis and the trace.

Two comparisons are needed because a handler can be left in two ways.  An exception lets the worker
go on with what it remembers, so everything but Redis and the trace counts (`SameBooks`); a kill
takes the memory away, and only what is stored counts (`SameStore`).
-/
import IngestFarm.Worker

open Prog

/-- The lists that hold jobs for the worker. -/
def Queue.isControl : Queue → Bool
  | .recordingComplete => false
  | .postprocess => false
  | _ => true

/-- Two states that are alike in what survives the worker. -/
structure SameStore (w w' : World) : Prop where
  /-- The same rows. -/
  db : w.db = w'.db
  /-- The same control lists. -/
  jobs : ∀ q, q.isControl = true → w.lists q = w'.lists q
  /-- The same media. -/
  files : w.files = w'.files
  /-- The same ids to hand out. -/
  nextId : w.nextId = w'.nextId
  now : w.now = w'.now

/-- Two states that differ at most in the stats, the announcements and the trace. -/
structure SameBooks (w w' : World) : Prop extends SameStore w w' where
  /-- The same sessions. -/
  sessions : w.sessions = w'.sessions
  /-- The same remembered rows. -/
  recordingIds : w.recordingIds = w'.recordingIds
  /-- The same remembered starts. -/
  pendingRecord : w.pendingRecord = w'.pendingRecord
  /-- The same session objects. -/
  heap : w.heap = w'.heap
  /-- The same deaths to be found. -/
  died : w.died = w'.died
  /-- The same jobs were handled. -/
  log : w.log = w'.log

namespace SameStore

theorem rfl' (w : World) : SameStore w w := ⟨rfl, fun _ _ => rfl, rfl, rfl, rfl⟩

theorem symm {w w' : World} (h : SameStore w w') : SameStore w' w :=
  ⟨h.db.symm, fun q hq => (h.jobs q hq).symm, h.files.symm, h.nextId.symm, h.now.symm⟩

theorem trans {w w' w'' : World} (h : SameStore w w') (h' : SameStore w' w'') :
    SameStore w w'' :=
  ⟨h.db.trans h'.db, fun q hq => (h.jobs q hq).trans (h'.jobs q hq), h.files.trans h'.files,
    h.nextId.trans h'.nextId, h.now.trans h'.now⟩

/-- A change of a session object does not survive. -/
theorem session (s : SessionId) (f : ChannelSession → ChannelSession) (w : World) :
    SameStore (w.updSession s f) w :=
  ⟨rfl, fun _ _ => rfl, rfl, rfl, rfl⟩

/-- Neither does a change of the worker's tables. -/
theorem recordingId (c : ChannelId) (w : World) : SameStore (w.dropRecordingId c) w :=
  ⟨rfl, fun _ _ => rfl, rfl, rfl, rfl⟩

/-- Memory is not stored. -/
theorem popped (c : ChannelId) (w : World) : SameStore ((w.dropPending c).dropSession c) w :=
  ⟨rfl, fun _ _ => rfl, rfl, rfl, rfl⟩

end SameStore

namespace SameBooks

theorem rfl' (w : World) : SameBooks w w := ⟨SameStore.rfl' w, rfl, rfl, rfl, rfl, rfl, rfl⟩

theorem symm {w w' : World} (h : SameBooks w w') : SameBooks w' w :=
  ⟨h.toSameStore.symm, h.sessions.symm, h.recordingIds.symm, h.pendingRecord.symm,
    h.heap.symm, h.died.symm, h.log.symm⟩

theorem trans {w w' w'' : World} (h : SameBooks w w') (h' : SameBooks w' w'') :
    SameBooks w w'' :=
  ⟨h.toSameStore.trans h'.toSameStore, h.sessions.trans h'.sessions,
    h.recordingIds.trans h'.recordingIds, h.pendingRecord.trans h'.pendingRecord,
    h.heap.trans h'.heap, h.died.trans h'.died, h.log.trans h'.log⟩

/-- A change of a session object keeps two states alike. -/
theorem updSession {w w' : World} (h : SameBooks w w') (s : SessionId)
    (f : ChannelSession → ChannelSession) :
    SameBooks (w.updSession s f) (w'.updSession s f) :=
  ⟨⟨h.db, h.jobs, h.files, h.nextId, h.now⟩, h.sessions, h.recordingIds, h.pendingRecord,
    funext fun a => by simp [h.heap], h.died, h.log⟩

/-- So does a commit. -/
theorem commitDb {w w' : World} (h : SameBooks w w') (f : Database → Database) :
    SameBooks (w.commitDb f) (w'.commitDb f) :=
  ⟨⟨by simp [h.db], h.jobs, h.files, h.nextId, h.now⟩, h.sessions, h.recordingIds,
    h.pendingRecord, h.heap, h.died, h.log⟩

/-- And the removal of a channel from the tables of the worker. -/
theorem dropSession {w w' : World} (h : SameBooks w w') (c : ChannelId) :
    SameBooks (w.dropSession c) (w'.dropSession c) :=
  ⟨⟨h.db, h.jobs, h.files, h.nextId, h.now⟩, by simp [h.sessions], h.recordingIds,
    h.pendingRecord, h.heap, h.died, h.log⟩

/-- The books agree after a row is forgotten in both. -/
theorem dropRecordingId {w w' : World} (h : SameBooks w w') (c : ChannelId) :
    SameBooks (w.dropRecordingId c) (w'.dropRecordingId c) :=
  ⟨⟨h.db, h.jobs, h.files, h.nextId, h.now⟩, h.sessions, by simp [h.recordingIds],
    h.pendingRecord, h.heap, h.died, h.log⟩

/-- And after a pending request is. -/
theorem dropPending {w w' : World} (h : SameBooks w w') (c : ChannelId) :
    SameBooks (w.dropPending c) (w'.dropPending c) :=
  ⟨⟨h.db, h.jobs, h.files, h.nextId, h.now⟩, h.sessions, h.recordingIds,
    by simp [h.pendingRecord], h.heap, h.died, h.log⟩

/-- The deaths that happened are no books. -/
theorem clearDied {w w' : World} (h : SameBooks w w') : SameBooks w.clearDied w'.clearDied :=
  ⟨⟨h.db, h.jobs, h.files, h.nextId, h.now⟩, h.sessions, h.recordingIds, h.pendingRecord,
    h.heap, rfl, h.log⟩

/-- An announcement is not in the books. -/
theorem push {q : Queue} (hq : q.isControl = false) (job : Raw) (w : World) :
    SameBooks (w.push q job) w := by
  refine ⟨⟨rfl, fun q' hq' => ?_, rfl, rfl, rfl⟩, rfl, rfl, rfl, rfl, rfl, rfl⟩
  have hne : q' ≠ q := by
    rintro rfl
    exact absurd hq' (by simp [hq])
  simp [hne]

/-- Nor is an event that is no work. -/
theorem note {e : Event} (he : e.isWork = false) (w : World) : SameBooks (w.note e) w := by
  refine ⟨⟨rfl, fun _ _ => rfl, rfl, rfl, rfl⟩, rfl, rfl, rfl, rfl, rfl, ?_⟩
  simp [World.log, he]

/-- Nor are statistics that are set. -/
theorem addStats (c : ChannelId) (w : World) : SameBooks (w.addStats c) w :=
  ⟨⟨rfl, fun _ _ => rfl, rfl, rfl, rfl⟩, rfl, rfl, rfl, rfl, rfl, rfl⟩

/-- Or cleared. -/
theorem dropStats (c : ChannelId) (w : World) : SameBooks (w.dropStats c) w :=
  ⟨⟨rfl, fun _ _ => rfl, rfl, rfl, rfl⟩, rfl, rfl, rfl, rfl, rfl, rfl⟩

end SameBooks

namespace World

/-- The row `_finalize_recording` finishes: the remembered one while it exists, else the
newest of the channel that is in flight. -/
def finalizeTarget (w : World) (c : ChannelId) : Option RecordingId :=
  match w.recordingIds.lookup c with
  | none => w.db.activeRecording c
  | some r => if r ∈ w.db.recordings then some r else w.db.activeRecording c

/-- What `stop_recording` makes of a session object. -/
def halt (w : World) (x : ChannelSession) : ChannelSession :=
  match x.recording, x.outputDir with
  | false, _ => x
  | true, none => x.setRecording false
  | true, some dir => (x.setRecording false).setCount (w.filesIn dir).length

/-- The outcome of `stop_recording`. -/
def stopCapture (s : SessionId) (w : World) : World := w.updSession s w.halt

/-- The size `_finalize_recording` writes for a session. -/
def sizeOf (w : World) (s : SessionId) : ℕ := ((w.heap s).outputDir.map w.totalSize).getD 0

/-- The rows after `_finalize_recording` has completed `row`. -/
def completeRow (row : Option RecordingId) (segments bytes now : ℕ) (db : Database) : Database :=
  match row with
  | none => db
  | some r => (db.endRecording r .completed now).setCounts r segments bytes

/-- The outcome of `_finalize_recording` from the reading of `output_dir` on. -/
def finished (c : ChannelId) (s : SessionId) (w : World) : World :=
  (w.dropRecordingId c).commitDb
    (completeRow (w.finalizeTarget c) (w.heap s).segmentCount (w.sizeOf s) w.now)

/-- There is something to finalize. -/
def HasRecording (w : World) (c : ChannelId) (s : SessionId) : Prop :=
  (w.heap s).recording = true ∨ w.recordingIds.lookup c ≠ none

instance (w : World) (c : ChannelId) (s : SessionId) : Decidable (w.HasRecording c s) :=
  inferInstanceAs (Decidable (_ ∨ _))

/-- The outcome of `_finalize_recording` when there is. -/
def finalized (c : ChannelId) (s : SessionId) (w : World) : World :=
  finished c s (w.stopCapture s)

/-- Two changes of one session object are one. -/
@[simp] theorem updSession_updSession (w : World) (s : SessionId)
    (f g : ChannelSession → ChannelSession) :
    (w.updSession s f).updSession s g = w.updSession s (g ∘ f) := by
  unfold updSession
  simp

/-- Only the present value of a session object counts for a change. -/
theorem updSession_congr {w : World} {s : SessionId} {f g : ChannelSession → ChannelSession}
    (h : f (w.heap s) = g (w.heap s)) : w.updSession s f = w.updSession s g := by
  unfold updSession
  rw [h]

@[simp] theorem updSession_self (w : World) (s : SessionId) : w.updSession s id = w := by
  simp [updSession]

@[simp] theorem filesIn_updSession (w : World) (s : SessionId)
    (f : ChannelSession → ChannelSession) (dir : SessionDir) :
    (w.updSession s f).filesIn dir = w.filesIn dir := rfl

@[simp] theorem totalSize_updSession (w : World) (s : SessionId)
    (f : ChannelSession → ChannelSession) (dir : SessionDir) :
    (w.updSession s f).totalSize dir = w.totalSize dir := rfl

@[simp] theorem outputDir_halt (w : World) (x : ChannelSession) :
    (w.halt x).outputDir = x.outputDir := by
  unfold halt
  split <;> rfl

@[simp] theorem recording_halt (w : World) (x : ChannelSession) :
    (w.halt x).recording = false := by
  unfold halt
  split <;> simp [*]

@[simp] theorem isConnected_halt (w : World) (x : ChannelSession) :
    (w.halt x).isConnected = x.isConnected := by
  unfold halt
  split <;> simp

@[simp] theorem stopping_halt (w : World) (x : ChannelSession) :
    (w.halt x).stopping = x.stopping := by
  unfold halt
  split <;> simp

/-- A session that is not recording is left alone. -/
theorem stopCapture_of_not {w : World} {s : SessionId} (h : (w.heap s).recording = false) :
    w.stopCapture s = w := by
  rw [stopCapture, updSession_congr (g := id), updSession_self]
  simp [halt, h]

/-- The outcome of `_teardown`. -/
def tornDown (s : SessionId) (w : World) : World :=
  w.updSession s fun x => if x.stopping = true then x else x.markStopping.close

/-- The outcome of the session part of `_handle_disconnect`. -/
def closedSession (c : ChannelId) (session : Option SessionId) (w : World) : World :=
  match session with
  | none => w
  | some s => tornDown s (if (w.heap s).recording = true then w.finalized c s else w)

/-- The row of a channel in an active status goes to `idle`. -/
def idled (c : ChannelId) (w : World) : World :=
  if (w.db.status c).any (· ∈ activeStatuses) then w.commitDb (Database.setStatus c .idle) else w

/-- The outcome of `_handle_disconnect`. -/
def disconnected (c : ChannelId) (w : World) : World :=
  idled c (closedSession c (w.sessions.lookup c) ((w.dropPending c).dropSession c))

/-! ### Reading an outcome -/

@[simp] theorem status_completeRow (row : Option RecordingId) (segments bytes now : ℕ)
    (db : Database) (d : ChannelId) : (completeRow row segments bytes now db).status d =
      db.status d := by
  cases row <;> simp [completeRow]

/-- Completing a row takes it, and only it, out of flight. -/
@[simp] theorem inFlight_completeRow (row : Option RecordingId) (segments bytes now : ℕ)
    (db : Database) (d : ChannelId) (r : RecordingId) :
    (completeRow row segments bytes now db).InFlight d r ↔ row ≠ some r ∧ db.InFlight d r := by
  cases row with
  | none => simp [completeRow]
  | some t => simp [completeRow, eq_comm]

@[simp] theorem db_stopCapture (w : World) (s : SessionId) : (w.stopCapture s).db = w.db := rfl

@[simp] theorem finalizeTarget_stopCapture (w : World) (c : ChannelId) (s : SessionId) :
    (w.stopCapture s).finalizeTarget c = w.finalizeTarget c := rfl

@[simp] theorem status_finalized (w : World) (c d : ChannelId) (s : SessionId) :
    (w.finalized c s).db.status d = w.db.status d := by
  simp [finalized, finished]

@[simp] theorem inFlight_finalized (w : World) (c d : ChannelId) (s : SessionId)
    (r : RecordingId) : (w.finalized c s).db.InFlight d r ↔
      w.finalizeTarget c ≠ some r ∧ w.db.InFlight d r := by
  simp [finalized, finished]

@[simp] theorem sessions_finalized (w : World) (c : ChannelId) (s : SessionId) :
    (w.finalized c s).sessions = w.sessions := rfl

@[simp] theorem pendingRecord_finalized (w : World) (c : ChannelId) (s : SessionId) :
    (w.finalized c s).pendingRecord = w.pendingRecord := rfl

@[simp] theorem heap_finalized (w : World) (c : ChannelId) (s : SessionId) :
    (w.finalized c s).heap = Function.update w.heap s (w.halt (w.heap s)) := rfl

@[simp] theorem sessions_closedSession (w : World) (c : ChannelId) (session : Option SessionId) :
    (closedSession c session w).sessions = w.sessions := by
  cases session with
  | none => rfl
  | some s => simp [closedSession, tornDown, apply_ite World.sessions]

@[simp] theorem pendingRecord_closedSession (w : World) (c : ChannelId)
    (session : Option SessionId) :
    (closedSession c session w).pendingRecord = w.pendingRecord := by
  cases session with
  | none => rfl
  | some s => simp [closedSession, tornDown, apply_ite World.pendingRecord]

@[simp] theorem status_closedSession (w : World) (c d : ChannelId) (session : Option SessionId) :
    (closedSession c session w).db.status d = w.db.status d := by
  cases session with
  | none => rfl
  | some s =>
    simp only [closedSession, tornDown, updSession_db]
    split <;> simp

@[simp] theorem sessions_idled (w : World) (c : ChannelId) : (idled c w).sessions = w.sessions := by
  unfold idled
  split <;> rfl

@[simp] theorem pendingRecord_idled (w : World) (c : ChannelId) :
    (idled c w).pendingRecord = w.pendingRecord := by
  unfold idled
  split <;> rfl

@[simp] theorem inFlight_idled (w : World) (c d : ChannelId) (r : RecordingId) :
    (idled c w).db.InFlight d r ↔ w.db.InFlight d r := by
  unfold idled
  split <;> simp

end World

/-! ## Specifications -/

/-- The segments that `stop_recording` counts can be listed and sized. -/
def Listable (o : Oracle Call) (w : World) (s : SessionId) : Prop :=
  (w.heap s).recording = true → (w.heap s).outputDir ≠ none →
    May o .ok (.listSegments s) ∧ May o .ok (.statSegments s)

/-- Listing or sizing them can fail. -/
def Unlistable (o : Oracle Call) (w : World) (s : SessionId) : Prop :=
  (w.heap s).recording = true ∧ (w.heap s).outputDir ≠ none ∧
    (May o .fail (.listSegments s) ∨ May o .fail (.statSegments s))

/-- The output directory can be measured. -/
def Sizable (o : Oracle Call) (w : World) (s : SessionId) : Prop :=
  (w.heap s).outputDir ≠ none → May o .ok (.totalSize s)

/-- Measuring it can fail. -/
def Unsizable (o : Oracle Call) (w : World) (s : SessionId) : Prop :=
  (w.heap s).outputDir ≠ none ∧ May o .fail (.totalSize s)

/-- The events of a completed recording can reach Redis. -/
def Published (o : Oracle Call) : Prop :=
  May o .ok (.redisPush .recordingComplete) ∧ May o .ok (.redisPush .postprocess)

/-- One of them can fail to. -/
def Unpublished (o : Oracle Call) : Prop :=
  May o .fail (.redisPush .recordingComplete) ∨ May o .fail (.redisPush .postprocess)

/-- The media calls that closing a session makes can work. -/
def Closable (o : Oracle Call) (w : World) (s : SessionId) : Prop :=
  Listable o w s ∧ ((w.heap s).recording = true → Sizable o w s) ∧
    ((w.heap s).stopping = false → May o .ok (.teardown s))

/-- One of them can fail. -/
def Unclosable (o : Oracle Call) (w : World) (s : SessionId) : Prop :=
  Unlistable o w s ∨ ((w.heap s).recording = true ∧ Unsizable o w s) ∨
    ((w.heap s).stopping = false ∧ May o .fail (.teardown s))

/-- When each call is always answered the same way, what can fail cannot work. -/
theorem not_closable_answers {ans : Call → Bool} {w : World} {s : SessionId}
    (h : Unclosable (answers ans) w s) : ¬ Closable (answers ans) w s := by
  unfold Unclosable Unlistable Unsizable at h
  unfold Closable Listable Sizable
  simp only [may_answers_ok, may_answers_fail] at *
  rintro ⟨h1, h2, h3⟩
  rcases h with ⟨hrec, hd, h⟩ | ⟨hrec, hd, h⟩ | ⟨hst, h⟩
  · have hok := h1 hrec hd
    rw [hok.1, hok.2] at h
    simp at h
  · exact absurd (h2 hrec hd) (by simp [h])
  · exact absurd (h3 hst) (by simp [h])

section Specs

variable {o : Oracle Call} {E : PyError → ℕ → World → Prop} {C : World → Prop} {n : ℕ}
  {w : World}

/-- A query of a database that works. -/
theorem wp_query_of {α : Type} {Q : α → ℕ → World → Prop} {f : Database → α}
    (hdb : ∀ n k, k.isDb = true → o n k ≠ .fail) (hQ : ∀ n', Q (f w.db) n' w)
    (hC : MayCrash o → C w) : wp o (query f) Q E C n w := by
  rw [wp_query]
  exact ⟨fun _ => hQ _, fun h => absurd h (hdb _ _ rfl), fun h => hC ⟨_, _, h⟩⟩

/-- A commit of a database that works. -/
theorem wp_commit_of {Q : Unit → ℕ → World → Prop} {f : Database → Database}
    (hdb : ∀ n k, k.isDb = true → o n k ≠ .fail) (hQ : ∀ n', Q () n' (w.commitDb f))
    (hC : MayCrash o → C w) : wp o (commit f) Q E C n w := by
  rw [wp_commit]
  exact ⟨fun _ => hQ _, fun h => absurd h (hdb _ _ rfl), fun h => hC ⟨_, _, h⟩⟩

/-- **`stop_recording`.**  The capture is stopped if the segments can be listed; if they cannot, the
exception leaves what is stored as it was. -/
theorem wp_stopRecording {Q : Unit → ℕ → World → Prop} {s : SessionId}
    (hQ : Listable o w s → ∀ n', Q () n' (w.stopCapture s))
    (hE : Unlistable o w s → ∀ e n' w', SameStore w' w → E e n' w')
    (hC : MayCrash o → ∀ w', SameStore w' w → C w') :
    wp o (ChannelSession.stopRecording s) Q E C n w := by
  unfold ChannelSession.stopRecording ChannelSession.countSegments
  unfold Listable at hQ
  unfold Unlistable at hE
  cases hrec : (w.heap s).recording with
  | false =>
    rw [World.stopCapture_of_not hrec, hrec] at hQ
    simp [hrec]
    exact hQ (by simp) n
  | true =>
    cases hd : (w.heap s).outputDir with
    | none =>
      have hw : w.stopCapture s = w.updSession s (ChannelSession.setRecording false) :=
        World.updSession_congr (by simp [World.halt, hrec, hd])
      simp [hd, hw] at hQ
      simp [hrec, hd]
      exact hQ n
    | some dir =>
      have hw : w.stopCapture s = w.updSession s
          (ChannelSession.setCount (w.filesIn dir).length ∘ ChannelSession.setRecording false) :=
        World.updSession_congr (by simp [World.halt, hrec, hd])
      have hsame := fun f => SameStore.session s f w
      simp [hrec, hd, hw] at hQ hE
      simp [hrec, hd]
      refine ⟨fun hl => ⟨fun hs => ?_, fun hs => ?_, fun hs => ?_⟩, fun hl => ?_, fun hl => ?_⟩
      · exact hQ ⟨_, hl⟩ ⟨_, hs⟩ _
      · exact hE (Or.inr ⟨_, hs⟩) _ _ _ (hsame _)
      · exact hC ⟨_, _, hs⟩ _ (hsame _)
      · exact hE (Or.inl ⟨_, hl⟩) _ _ _ (hsame _)
      · exact hC ⟨_, _, hl⟩ _ (hsame _)

/-- The size of the output directory. -/
theorem wp_measure {Q : ℕ → ℕ → World → Prop} {s : SessionId}
    (hQ : Sizable o w s → ∀ n', Q (w.sizeOf s) n' w)
    (hE : Unsizable o w s → ∀ e n', E e n' w) (hC : MayCrash o → C w) :
    wp o (IngestWorker.measure s (w.heap s).outputDir) Q E C n w := by
  unfold IngestWorker.measure
  unfold Sizable World.sizeOf at hQ
  unfold Unsizable at hE
  cases hd : (w.heap s).outputDir with
  | none =>
    simp only [hd] at hQ
    exact hQ (fun h => absurd rfl h) n
  | some dir =>
    simp only [hd] at hQ hE
    simp only [wp_bind, wp_external, wp_reads]
    exact ⟨fun h => hQ (fun _ => ⟨_, h⟩) _, fun h => hE ⟨by simp, _, h⟩ _ _,
      fun h => hC ⟨_, _, h⟩⟩

/-- **The end of `_finalize_recording`.** -/
theorem wp_completeRecording {Q : Unit → ℕ → World → Prop} {c : ChannelId} {segments bytes : ℕ}
    {files : List MediaFile} {row : Option RecordingId}
    (hdb : ∀ n k, k.isDb = true → o n k ≠ .fail)
    (hQ : row = none ∨ Published o → ∀ n' w',
      SameBooks w' (w.commitDb (World.completeRow row segments bytes w.now)) → Q () n' w')
    (hE : row ≠ none → Unpublished o → ∀ e n' w',
      SameBooks w' (w.commitDb (World.completeRow row segments bytes w.now)) → E e n' w')
    (hC : MayCrash o → C w)
    (hC' : MayCrash o → ∀ w',
      SameBooks w' (w.commitDb (World.completeRow row segments bytes w.now)) → C w') :
    wp o (IngestWorker.completeRecording c segments bytes files row) Q E C n w := by
  unfold IngestWorker.completeRecording IngestWorker.announce
  unfold Published at hQ
  unfold Unpublished at hE
  cases row with
  | none =>
    rw [wp_pure]
    exact hQ (Or.inl rfl) n w (SameBooks.rfl' w)
  | some r =>
    simp only [wp_bind, wp_reads, wp_modify, wp_external, wp_publishEvent]
    refine wp_commit_of hdb (fun n₁ => ?_) hC
    -- What follows the commit is announcements.
    have h₀ : SameBooks ((w.commitDb (World.completeRow (some r) segments bytes w.now)).note
      (.counted r segments files)) _ := SameBooks.note rfl _
    have hannounce : ∀ q, q.isControl = false → ∀ w₁, SameBooks ((w₁.push q (.json (.obj
        [("recording_id", .int r), ("channel_id", .ofKey c)]))).note (.published q r c)) w₁ :=
      fun q hq w₁ => (SameBooks.note rfl _).trans (SameBooks.push hq _ w₁)
    have h₁ := (hannounce .recordingComplete rfl _).trans h₀
    have h₂ := (hannounce .postprocess rfl _).trans h₁
    refine ⟨fun _ => ⟨fun hp => ⟨fun hp' => ?_, fun hp' => ?_, fun hp' => ?_⟩, fun hp => ?_,
      fun hp => ?_⟩, fun h => absurd h (hdb _ _ rfl), fun h => ?_⟩
    · exact hQ (Or.inr ⟨⟨_, hp⟩, _, hp'⟩) _ _ h₂
    · exact hE (by simp) (Or.inr ⟨_, hp'⟩) _ _ _ h₁
    · exact hC' ⟨_, _, hp'⟩ _ h₁
    · exact hE (by simp) (Or.inl ⟨_, hp⟩) _ _ _ h₀
    · exact hC' ⟨_, _, hp⟩ _ h₀
    · exact hC' ⟨_, _, h⟩ _ h₀

/-- The row is looked for in the committed rows. -/
theorem wp_findRecording {Q : Option RecordingId → ℕ → World → Prop} {c : ChannelId}
    {known : Option RecordingId} (hdb : ∀ n k, k.isDb = true → o n k ≠ .fail)
    (hQ : ∀ n', Q (match known with
      | none => w.db.activeRecording c
      | some r => if r ∈ w.db.recordings then some r else w.db.activeRecording c) n' w)
    (hC : MayCrash o → C w) : wp o (IngestWorker.findRecording c known) Q E C n w := by
  unfold IngestWorker.findRecording
  cases known with
  | none => exact wp_query_of (f := fun db => db.activeRecording c) hdb hQ hC
  | some r =>
    rw [wp_bind]
    refine wp_query_of hdb (fun n₁ => ?_) hC
    by_cases hr : r ∈ w.db.recordings
    · simp only [hr, decide_true, if_true, wp_pure] at hQ ⊢
      exact hQ n₁
    · simp only [hr, decide_false, if_false] at hQ ⊢
      exact wp_query_of (f := fun db => db.activeRecording c) hdb hQ hC

/-- **The second half of `_finalize_recording`.**  It raises before a row has changed when
the directory cannot be measured, and after everything else is done when an event cannot
be published. -/
theorem wp_finishRecording {Q : Unit → ℕ → World → Prop} {c : ChannelId} {s : SessionId}
    (hdb : ∀ n k, k.isDb = true → o n k ≠ .fail)
    (hQ : Sizable o w s → w.finalizeTarget c = none ∨ Published o →
      ∀ n' w', SameBooks w' (w.finished c s) → Q () n' w')
    (hE : Sizable o w s → w.finalizeTarget c ≠ none → Unpublished o →
      ∀ e n' w', SameBooks w' (w.finished c s) → E e n' w')
    (hE' : Unsizable o w s → ∀ e n' w', SameStore w' w → E e n' w')
    (hC : MayCrash o → ∀ w', SameStore w' w → C w')
    (hC' : MayCrash o → ∀ w', SameStore w' (w.finished c s) → C w') :
    wp o (IngestWorker.finishRecording c s) Q E C n w := by
  unfold IngestWorker.finishRecording
  rw [wp_bind, wp_reads, wp_bind]
  refine wp_measure (fun hsize n₁ => ?_) (fun hsize e n₁ => ?_) fun h => hC h _ (SameStore.rfl' w)
  · simp only [wp_bind, wp_reads, wp_modify]
    refine wp_findRecording hdb (fun n₂ => ?_) fun h => hC h _ (SameStore.recordingId c w)
    exact wp_completeRecording hdb (fun h n' w' hw => hQ hsize h n' w' hw)
      (fun hrow h e n' w' hw => hE hsize hrow h e n' w' hw)
      (fun h => hC h _ (SameStore.recordingId c w)) fun h w' hw => hC' h w' hw.toSameStore
  · exact hE' hsize e n₁ w (SameStore.rfl' w)

/-- **`_finalize_recording`** with something to finalize. -/
theorem wp_finalizeRecording {Q : Unit → ℕ → World → Prop} {c : ChannelId} {s : SessionId}
    (hdb : ∀ n k, k.isDb = true → o n k ≠ .fail) (hrec : w.HasRecording c s)
    (hQ : Listable o w s → Sizable o w s → w.finalizeTarget c = none ∨ Published o →
      ∀ n' w', SameBooks w' (w.finalized c s) → Q () n' w')
    (hE : Listable o w s → Sizable o w s → w.finalizeTarget c ≠ none → Unpublished o →
      ∀ e n' w', SameBooks w' (w.finalized c s) → E e n' w')
    (hE' : Unlistable o w s ∨ Unsizable o w s → ∀ e n' w', SameStore w' w → E e n' w')
    (hC : MayCrash o → ∀ w', SameStore w' w → C w')
    (hC' : MayCrash o → ∀ w', SameStore w' (w.finalized c s) → C w') :
    wp o (IngestWorker.finalizeRecording c s) Q E C n w := by
  have hsize : Sizable o (w.stopCapture s) s ↔ Sizable o w s := by
    simp [Sizable, World.stopCapture]
  have hunsize : Unsizable o (w.stopCapture s) s ↔ Unsizable o w s := by
    simp [Unsizable, World.stopCapture]
  -- The second half starts in the state that `stop_recording` leaves, recording or not.
  have hrest : Listable o w s → ∀ n₁,
      wp o (IngestWorker.finishRecording c s) Q E C n₁ (w.stopCapture s) := by
    intro hl n₁
    refine wp_finishRecording hdb (fun hz => hQ hl (hsize.mp hz))
      (fun hz => hE hl (hsize.mp hz)) (fun hz e n' w' hw => ?_) (fun h w' hw => ?_) hC'
    · exact hE' (Or.inr (hunsize.mp hz)) e n' w' (hw.trans (SameStore.session s _ w))
    · exact hC h w' (hw.trans (SameStore.session s _ w))
  unfold IngestWorker.finalizeRecording
  simp only [wp_bind, wp_reads, wp_ite, wp_pure, wp_whenever]
  refine ⟨fun h => ?_, fun _ => ⟨fun _ => ?_, fun h => ?_⟩⟩
  · rcases hrec with h' | h'
    · exact absurd h' (by simp [h.1])
    · exact absurd h.2 h'
  · exact wp_stopRecording (fun hl n₁ => hrest hl n₁) (fun hl => hE' (Or.inl hl)) hC
  · have hf := Bool.eq_false_iff.mpr h
    have := hrest (by simp [Listable, hf]) n
    rwa [World.stopCapture_of_not hf] at this

/-- **`_teardown`.**  A session that is stopping is left alone; otherwise the call works, or
raises and leaves what is stored as it was. -/
theorem wp_teardown {Q : Unit → ℕ → World → Prop} {s : SessionId}
    (hQ : ((w.heap s).stopping = false → May o .ok (.teardown s)) →
      ∀ n', Q () n' (w.tornDown s))
    (hE : (w.heap s).stopping = false → May o .fail (.teardown s) →
      ∀ e n' w', SameStore w' w → E e n' w')
    (hC : MayCrash o → ∀ w', SameStore w' w → C w') :
    wp o (ChannelSession.teardown s) Q E C n w := by
  unfold ChannelSession.teardown
  cases hst : (w.heap s).stopping with
  | true =>
    have hw : w.tornDown s = w := by
      rw [World.tornDown, World.updSession_congr (g := id), World.updSession_self]
      simp [hst]
    rw [hw, hst] at hQ
    simp [hst]
    exact hQ (by simp) n
  | false =>
    have hw : w.tornDown s =
        w.updSession s (ChannelSession.close ∘ ChannelSession.markStopping) :=
      World.updSession_congr (by simp [hst])
    rw [hw, hst] at hQ
    have hsame := fun f => SameStore.session s f w
    simp [hst]
    exact ⟨fun h => hQ (fun _ => ⟨_, h⟩) _, fun h => hE hst ⟨_, h⟩ _ _ _ (hsame _),
      fun h => hC ⟨_, _, h⟩ _ (hsame _)⟩

/-- **The session part of `_handle_disconnect`.** -/
theorem wp_closeSession {Q : Unit → ℕ → World → Prop} {c : ChannelId}
    {session : Option SessionId} (hdb : ∀ n k, k.isDb = true → o n k ≠ .fail)
    (hQ : (∀ s, session = some s → Closable o w s ∧
        ((w.heap s).recording = true → w.finalizeTarget c = none ∨ Published o)) →
      ∀ n' w', SameBooks w' (w.closedSession c session) → Q () n' w')
    (hE : ∀ s, session = some s → (w.heap s).recording = true → w.finalizeTarget c ≠ none →
      Unpublished o → ∀ e n' w', SameBooks w' (w.finalized c s) → E e n' w')
    (hE' : ∀ s, session = some s → Unclosable o w s →
      ∀ e n' w', (∀ d, w'.db.status d = w.db.status d) → E e n' w')
    (hC : MayCrash o → ∀ w', SameStore w' w ∨ SameStore w' (w.closedSession c session) → C w') :
    wp o (IngestWorker.closeSession c session) Q E C n w := by
  unfold IngestWorker.closeSession
  cases session with
  | none => exact hQ (by simp) n w (SameBooks.rfl' w)
  | some s =>
    simp only [Option.some.injEq, forall_eq', World.closedSession] at hQ hE hE' hC
    unfold ChannelSession.disconnect
    rw [wp_bind, wp_reads, wp_bind, wp_whenever]
    refine ⟨fun hrec => ?_, fun hrec => ?_⟩
    · rw [if_pos hrec] at hQ hC
      refine wp_finalizeRecording hdb (Or.inl hrec) ?_ ?_ ?_ ?_ ?_
      · intro hl hz hpub n₁ w₁ hw₁
        have hheap : w₁.heap s = w.halt (w.heap s) := by simp [hw₁.heap]
        simp only [wp_bind, wp_reads, wp_whenever, hheap, World.recording_halt]
        refine ⟨fun h => absurd h (by simp), fun _ => ?_⟩
        refine wp_teardown (fun ht n' => ?_) (fun hst ht e n' w' hw' => ?_) fun h w' hw' => ?_
        · rw [hheap, World.stopping_halt] at ht
          exact hQ ⟨⟨hl, fun _ => hz, ht⟩, fun _ => hpub⟩ n' _ (hw₁.updSession s _)
        · rw [hheap, World.stopping_halt] at hst
          refine hE' (Or.inr (Or.inr ⟨hst, ht⟩)) e n' w' fun d => ?_
          rw [hw'.db, hw₁.db, World.status_finalized]
        · exact hC h w' (Or.inr ((hw'.trans hw₁.toSameStore).trans (SameStore.session s _ _).symm))
      · intro hl hz htarget hpub
        exact hE hrec htarget hpub
      · intro h e n' w' hw'
        refine hE' (h.imp id fun hz => Or.inl ⟨hrec, hz⟩) e n' w' fun d => by rw [hw'.db]
      · exact fun h w' hw' => hC h w' (Or.inl hw')
      · exact fun h w' hw' => hC h w' (Or.inr (hw'.trans (SameStore.session s _ _).symm))
    · rw [if_neg hrec] at hQ hC
      have hf := Bool.eq_false_iff.mpr hrec
      simp only [wp_bind, wp_reads, wp_whenever, hf]
      refine ⟨fun h => absurd h (by simp), fun _ => ?_⟩
      refine wp_teardown (fun ht n' => ?_) (fun hst ht e n' w' hw' => ?_) fun h w' hw' => ?_
      · exact hQ ⟨⟨by simp [Listable, hf], by simp [hf], ht⟩, by simp [hf]⟩ n' _
          (SameBooks.rfl' _)
      · exact hE' (Or.inr (Or.inr ⟨hst, ht⟩)) e n' w' fun d => by rw [hw'.db]
      · exact hC h w' (Or.inl hw')

/-- **`_handle_disconnect`.**  A raise on the way leaves the channel's status as it was. -/
theorem wp_handleDisconnect {Q : Unit → ℕ → World → Prop} {c : ChannelId}
    (hdb : ∀ n k, k.isDb = true → o n k ≠ .fail)
    (hQ : (∀ s, w.sessions.lookup c = some s → Closable o w s ∧
        ((w.heap s).recording = true → w.finalizeTarget c = none ∨ Published o)) →
      ∀ n' w', SameBooks w' (w.disconnected c) → Q () n' w')
    (hE : ∀ s, w.sessions.lookup c = some s → (w.heap s).recording = true →
      w.finalizeTarget c ≠ none → Unpublished o → ∀ e n' w',
      SameBooks w' (((w.dropPending c).dropSession c).finalized c s) → E e n' w')
    (hE' : ∀ s, w.sessions.lookup c = some s → Unclosable o w s →
      ∀ e n' w', (∀ d, w'.db.status d = w.db.status d) → E e n' w')
    (hC : MayCrash o → ∀ w',
      SameStore w' w ∨ SameStore w' (World.closedSession c (w.sessions.lookup c)
      ((w.dropPending c).dropSession c)) → C w') :
    wp o (IngestWorker.handleDisconnect c) Q E C n w := by
  unfold IngestWorker.handleDisconnect
  simp only [wp_bind, wp_modify, wp_reads]
  refine wp_closeSession hdb (fun hcl n₁ w₁ hw₁ => ?_) hE hE' fun h w' hw' =>
    hC h w' (hw'.imp (fun h => h.trans (SameStore.popped c w)) id)
  have hdone : w.disconnected c = World.idled c (World.closedSession c (w.sessions.lookup c)
    ((w.dropPending c).dropSession c)) := rfl
  rw [World.idled, World.status_closedSession] at hdone
  -- Whether the stats are deleted or not, the books are the same.
  have hrest : ∀ n₂ w₂, SameBooks w₂ w₁ → wp o (query fun db => db.status c)
      (fun ch n₃ w₃ => wp o (whenever (ch.any (· ∈ activeStatuses))
        (commit (Database.setStatus c .idle))) Q E C n₃ w₃) E C n₂ w₂ := by
    intro n₂ w₂ hw₂
    have hw := hw₂.trans hw₁
    have hstatus : w₂.db.status c = w.db.status c := by rw [hw.db, World.status_closedSession]; rfl
    have hkill : MayCrash o → C w₂ := fun h => hC h _ (Or.inr hw.toSameStore)
    refine wp_query_of hdb (fun n₃ => ?_) hkill
    rw [wp_whenever, hstatus]
    refine ⟨fun hact => wp_commit_of hdb (fun n₄ => hQ hcl _ _ ?_) hkill,
      fun hact => hQ hcl _ _ ?_⟩
    · rw [hdone, if_pos (by exact hact)]
      exact hw.commitDb _
    · rw [hdone, if_neg (by exact hact)]
      exact hw
  rw [IngestWorker.wp_clearStats]
  exact ⟨fun _ => hrest _ _ (SameBooks.dropStats c w₁), fun _ => hrest _ _ (SameBooks.rfl' _),
    fun h => hC ⟨_, _, h⟩ _ (Or.inr hw₁.toSameStore)⟩

end Specs
