/-
# The rows of the database

`ingest_farm/models` and the enumerations of `ingest_farm/schemas.py`, with the columns
that scheduler and worker read or write.  Primary keys are the keys of the tables, so a
table cannot hold two rows with one id.  Fresh ids (`new_id`) are numbers here, handed
out in increasing order; times are ticks of one clock.

`Recording.startedBy` is no column: it remembers which session object a row was created
for, so that statements about ownership can be made.
-/
import IngestFarm.Dict
import IngestFarm.Json

/-- `Recording.id`; ids come from one counter that never goes back. -/
abbrev RecordingId := ℕ

/-- The id of a `ChannelSession`; it also names the session object. -/
abbrev SessionId := ℕ

/-- The protocols of a source. -/
inductive SourceProtocol where
  | srt
  | udp
  | rtmp
  | hls
  | file
  deriving DecidableEq, Repr

/-- The values of `Channel.status`. -/
inductive ChannelStatus where
  | idle
  | connecting
  | connected
  | starting
  | recording
  | stopping
  | disconnecting
  | error
  deriving DecidableEq, Repr

/-- The stored text of a status. -/
def ChannelStatus.value : ChannelStatus → String
  | idle => "idle"
  | connecting => "connecting"
  | connected => "connected"
  | starting => "starting"
  | recording => "recording"
  | stopping => "stopping"
  | disconnecting => "disconnecting"
  | error => "error"

/-- `ACTIVE_STATUSES` of the worker. -/
def activeStatuses : List ChannelStatus :=
  [.connecting, .connected, .recording, .disconnecting, .starting, .stopping]

/-- A row is in flight, completed or failed. -/
inductive RecordingStatus where
  | recording
  | completed
  | failed
  deriving DecidableEq, Repr

/-- A row of `channels`, with the columns that the worker reads. -/
structure Channel where
  name : String
  protocol : SourceProtocol
  status : ChannelStatus
  deriving DecidableEq

/-- `LocalStorage.session_dir`: `root / channel_id / session_id`, the root being fixed. -/
structure SessionDir where
  channelId : ChannelId
  sessionId : SessionId
  deriving DecidableEq

/-- A row of `recordings`; `startedBy` is no column but remembers the session. -/
structure Recording where
  channelId : ChannelId
  startedAt : ℕ
  endedAt : Option ℕ
  status : RecordingStatus
  storagePath : SessionDir
  segmentCount : ℕ
  byteSize : ℕ
  startedBy : SessionId
  deriving DecidableEq

/-- A row of `workers`, keyed by its unique hostname. -/
structure WorkerRow where
  lastHeartbeat : Option ℕ
  activeChannels : List ChannelId
  capacity : ℕ
  deriving DecidableEq

/-- The three tables that worker and scheduler share. -/
structure Database where
  channels : Dict ChannelId Channel
  recordings : Dict RecordingId Recording
  workers : Dict String WorkerRow

namespace Database

/-- `Channel.status` of a channel, if the row exists. -/
def status (db : Database) (c : ChannelId) : Option ChannelStatus :=
  (db.channels.lookup c).map Channel.status

/-- The rows of a channel that are still at status `recording`. -/
def activeRows (db : Database) (c : ChannelId) : List (Sigma fun _ : RecordingId => Recording) :=
  db.recordings.entries.filter fun e => e.2.channelId = c ∧ e.2.status = .recording

/-- `filter_by(channel_id, status="recording").order_by(started_at.desc()).first()`: the newest row
in flight. -/
def activeRecording (db : Database) (c : ChannelId) : Option RecordingId :=
  ((db.activeRows c).argmax fun e => e.2.startedAt).map Sigma.fst

/-- Write a channel's status. -/
def setStatus (c : ChannelId) (st : ChannelStatus) (db : Database) : Database :=
  { db with channels := Dict.modify c (fun ch => { ch with status := st }) db.channels }

/-- Insert a recording row. -/
def addRecording (r : RecordingId) (row : Recording) (db : Database) : Database :=
  { db with recordings := Dict.set r row db.recordings }

/-- Write a recording's final status and its end. -/
def endRecording (r : RecordingId) (st : RecordingStatus) (now : ℕ) (db : Database) : Database :=
  let finish : Recording → Recording := fun row => { row with status := st, endedAt := some now }
  { db with recordings := Dict.modify r finish db.recordings }

/-- Write the counts of a finished recording. -/
def setCounts (r : RecordingId) (segments bytes : ℕ) (db : Database) : Database :=
  let count : Recording → Recording := fun row =>
    { row with segmentCount := segments, byteSize := bytes }
  { db with recordings := Dict.modify r count db.recordings }

/-- Overwrite the row of a worker. -/
def setWorker (host : String) (row : WorkerRow) (db : Database) : Database :=
  { db with workers := Dict.set host row db.workers }

/-! ## Queries -/

/-- `r` is a row of channel `c` that is still at status `recording`. -/
def InFlight (db : Database) (c : ChannelId) (r : RecordingId) : Prop :=
  ∃ row, db.recordings.lookup r = some row ∧ row.channelId = c ∧ row.status = .recording

/-- The rows in flight of a channel. -/
theorem mem_activeRows {db : Database} {c : ChannelId} {r : RecordingId} {row : Recording} :
    (⟨r, row⟩ : Sigma fun _ : RecordingId => Recording) ∈ db.activeRows c ↔
      db.recordings.lookup r = some row ∧ row.channelId = c ∧ row.status = .recording := by
  simp [activeRows, Dict.mem_entries_iff]

/-- The query finds a row whenever there is one. -/
theorem activeRecording_eq_none {db : Database} {c : ChannelId} :
    db.activeRecording c = none ↔ ∀ r, ¬ db.InFlight c r := by
  rw [activeRecording, Option.map_eq_none_iff, List.argmax_eq_none]
  constructor
  · rintro hnil r ⟨row, hrow⟩
    have : (⟨r, row⟩ : Sigma fun _ : RecordingId => Recording) ∈ db.activeRows c :=
      mem_activeRows.mpr hrow
    rw [hnil] at this
    exact absurd this List.not_mem_nil
  · intro h
    apply List.eq_nil_iff_forall_not_mem.mpr
    rintro ⟨r, row⟩ hmem
    exact h r ⟨row, mem_activeRows.mp hmem⟩

/-- The row it finds is in flight. -/
theorem inFlight_of_activeRecording {db : Database} {c : ChannelId} {r : RecordingId}
    (h : db.activeRecording c = some r) : db.InFlight c r := by
  rw [activeRecording, Option.map_eq_some_iff] at h
  obtain ⟨⟨r', row⟩, harg, rfl⟩ := h
  exact ⟨row, mem_activeRows.mp (List.argmax_mem harg)⟩

/-! ## What the writes leave alone -/

@[simp] theorem status_setStatus (db : Database) (c d : ChannelId) (st : ChannelStatus) :
    (db.setStatus c st).status d = if d = c then (db.status c).map (fun _ => st)
      else db.status d := by
  unfold status setStatus
  by_cases h : d = c
  · subst h
    simp [Option.map_map, Function.comp_def]
  · simp [h]

/-- A write of a status that the channel has changes nothing. -/
theorem setStatus_of_status {db : Database} {c : ChannelId} {st : ChannelStatus}
    (h : db.status c = some st) : db.setStatus c st = db := by
  unfold setStatus
  rw [Dict.modify_of_fixed]
  intro ch hch
  have : ch.status = st := by simpa [status, hch] using h
  rw [← this]

/-- Neither does a write to a missing row. -/
theorem setStatus_of_missing {db : Database} {c : ChannelId} {st : ChannelStatus}
    (h : db.status c = none) : db.setStatus c st = db := by
  unfold setStatus
  rw [Dict.modify_of_fixed]
  intro ch hch
  exact absurd h (by simp [status, hch])

@[simp] theorem recordings_setStatus (db : Database) (c : ChannelId) (st : ChannelStatus) :
    (db.setStatus c st).recordings = db.recordings := rfl

@[simp] theorem workers_setStatus (db : Database) (c : ChannelId) (st : ChannelStatus) :
    (db.setStatus c st).workers = db.workers := rfl

@[simp] theorem status_addRecording (db : Database) (r : RecordingId) (row : Recording)
    (c : ChannelId) : (db.addRecording r row).status c = db.status c := rfl

@[simp] theorem workers_addRecording (db : Database) (r : RecordingId) (row : Recording) :
    (db.addRecording r row).workers = db.workers := rfl

@[simp] theorem status_endRecording (db : Database) (r : RecordingId) (st : RecordingStatus)
    (now : ℕ) (c : ChannelId) : (db.endRecording r st now).status c = db.status c := rfl

@[simp] theorem workers_endRecording (db : Database) (r : RecordingId) (st : RecordingStatus)
    (now : ℕ) : (db.endRecording r st now).workers = db.workers := rfl

@[simp] theorem status_setCounts (db : Database) (r : RecordingId) (m n : ℕ) (c : ChannelId) :
    (db.setCounts r m n).status c = db.status c := rfl

@[simp] theorem workers_setCounts (db : Database) (r : RecordingId) (m n : ℕ) :
    (db.setCounts r m n).workers = db.workers := rfl

@[simp] theorem status_setWorker (db : Database) (host : String) (row : WorkerRow)
    (c : ChannelId) : (db.setWorker host row).status c = db.status c := rfl

@[simp] theorem recordings_setWorker (db : Database) (host : String) (row : WorkerRow) :
    (db.setWorker host row).recordings = db.recordings := rfl

@[simp] theorem lookup_recordings_endRecording (db : Database) (r r' : RecordingId)
    (st : RecordingStatus) (now : ℕ) :
    (db.endRecording r st now).recordings.lookup r' =
      if r' = r then (db.recordings.lookup r).map
          (fun row => { row with status := st, endedAt := some now })
        else db.recordings.lookup r' := by
  simp [endRecording]

@[simp] theorem lookup_recordings_setCounts (db : Database) (r r' : RecordingId) (m n : ℕ) :
    (db.setCounts r m n).recordings.lookup r' =
      if r' = r then (db.recordings.lookup r).map
          (fun row => { row with segmentCount := m, byteSize := n })
        else db.recordings.lookup r' := by
  simp [setCounts]

@[simp] theorem lookup_recordings_addRecording (db : Database) (r r' : RecordingId)
    (row : Recording) :
    (db.addRecording r row).recordings.lookup r' =
      if r' = r then some row else db.recordings.lookup r' := by
  simp [addRecording]

/-! ## Rows in flight -/

@[simp] theorem inFlight_setStatus (db : Database) (c d : ChannelId) (st : ChannelStatus)
    (r : RecordingId) : (db.setStatus c st).InFlight d r ↔ db.InFlight d r := Iff.rfl

/-- Ending a row takes it, and only it, out of flight. -/
@[simp] theorem inFlight_endRecording (db : Database) (c : ChannelId) (r r' : RecordingId)
    (st : RecordingStatus) (now : ℕ) (h : st ≠ .recording) :
    (db.endRecording r st now).InFlight c r' ↔ r' ≠ r ∧ db.InFlight c r' := by
  unfold InFlight
  rw [lookup_recordings_endRecording]
  by_cases hr : r' = r
  · subst hr
    cases db.recordings.lookup r' <;> simp [h]
  · simp [hr]

@[simp] theorem inFlight_setCounts (db : Database) (c : ChannelId) (r r' : RecordingId)
    (m n : ℕ) : (db.setCounts r m n).InFlight c r' ↔ db.InFlight c r' := by
  unfold InFlight
  rw [lookup_recordings_setCounts]
  by_cases hr : r' = r
  · subst hr
    cases db.recordings.lookup r' <;> simp
  · simp [hr]

@[simp] theorem inFlight_setWorker (db : Database) (host : String) (row : WorkerRow)
    (c : ChannelId) (r : RecordingId) :
    (db.setWorker host row).InFlight c r ↔ db.InFlight c r := Iff.rfl

end Database
