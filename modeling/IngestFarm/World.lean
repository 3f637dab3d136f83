/-
# The state a worker acts on

One flat record: the database and the Redis lists that scheduler and worker share, the
attributes of `IngestWorker`, the `ChannelSession` objects on its heap, and the media
files under the storage root.  Redis lists are kept with the next element to pop first,
so `lpush` appends.

Three fields are ghosts that no handler reads: `died` (a session has died since the last
heartbeat), `trace` (what the worker did, in order) and `MediaFile.during` (the recording
whose capture wrote a file).
-/
import IngestFarm.Prog
import IngestFarm.Store

/-- The Redis lists of `common/events.py`. -/
inductive Queue where
  /-- Jobs for `_connect_jobs`, a thread of the worker. -/
  | connect
  /-- Jobs of `disconnect_channel`, popped by the drain. -/
  | disconnect
  /-- Jobs of `start_recording`, popped by the drain. -/
  | recordStart
  /-- Jobs of `stop_recording`, popped by the drain. -/
  | recordStop
  /-- Jobs of `reset_etr290`, popped by the drain. -/
  | etr290Reset
  /-- The event of a recording that is finished. -/
  | recordingComplete
  /-- Jobs for the postprocess worker. -/
  | postprocess
  deriving DecidableEq, Repr

/-- The key of a list. -/
def Queue.key : Queue → String
  | connect => "ingest:jobs:connect"
  | disconnect => "ingest:jobs:disconnect"
  | recordStart => "ingest:jobs:record_start"
  | recordStop => "ingest:jobs:record_stop"
  | etr290Reset => "ingest:jobs:etr290_reset"
  | recordingComplete => "ingest:events:recording_complete"
  | postprocess => "ingest:jobs:postprocess"

/-- The control jobs that `_drain_control_queues` dispatches to a handler. -/
inductive Op where
  | disconnect
  | stop
  | start
  deriving DecidableEq, Repr

/-- The part of a `ChannelSession` the worker depends on.  `pipeline` says that
`_pipeline` is set (for SRT together with the child process), `ended` that the bus
reported an error or EOS or that the child has exited, `stopping` that `_teardown` ran. -/
structure ChannelSession where
  protocol : SourceProtocol
  pipeline : Bool
  ended : Bool
  /-- The flag of `start_recording`, which its end takes back. -/
  recording : Bool
  /-- Where the capture writes, from the first `start_recording` on. -/
  outputDir : Option SessionDir
  /-- What was counted when the recording was last stopped. -/
  segmentCount : ℕ
  stopping : Bool
  deriving DecidableEq

/-- A fresh session object. -/
def ChannelSession.new (protocol : SourceProtocol) : ChannelSession :=
  ⟨protocol, false, false, false, none, 0, false⟩

namespace ChannelSession

/-- `is_connected`: there is a pipeline, and it has not ended. -/
def isConnected (x : ChannelSession) : Bool := x.pipeline && !x.ended

@[simps] def markEnded (x : ChannelSession) : ChannelSession := { x with ended := true }

@[simps] def markConnected (x : ChannelSession) : ChannelSession := { x with pipeline := true }

/-- `_output_dir = output_dir` and `_segment_count = 0`. -/
@[simps] def prepare (dir : SessionDir) (x : ChannelSession) : ChannelSession :=
  { x with outputDir := some dir, segmentCount := 0 }

@[simps] def setRecording (b : Bool) (x : ChannelSession) : ChannelSession :=
  { x with recording := b }

@[simps] def setCount (n : ℕ) (x : ChannelSession) : ChannelSession :=
  { x with segmentCount := n }

@[simps] def markStopping (x : ChannelSession) : ChannelSession := { x with stopping := true }

/-- What `_teardown` leaves of a session. -/
@[simps] def close (x : ChannelSession) : ChannelSession :=
  { x with pipeline := false, recording := false }

@[simp] theorem isConnected_new (p : SourceProtocol) : (new p).isConnected = false := rfl

@[simp] theorem isConnected_markEnded (x : ChannelSession) : x.markEnded.isConnected = false := by
  simp [isConnected]

@[simp] theorem isConnected_prepare (dir : SessionDir) (x : ChannelSession) :
    (x.prepare dir).isConnected = x.isConnected := rfl

@[simp] theorem isConnected_setRecording (b : Bool) (x : ChannelSession) :
    (x.setRecording b).isConnected = x.isConnected := rfl

@[simp] theorem isConnected_setCount (n : ℕ) (x : ChannelSession) :
    (x.setCount n).isConnected = x.isConnected := rfl

@[simp] theorem isConnected_markStopping (x : ChannelSession) :
    x.markStopping.isConnected = x.isConnected := rfl

@[simp] theorem isConnected_close (x : ChannelSession) : x.close.isConnected = false := rfl

end ChannelSession

/-- A captured file `segment_%05d.ts` in a session directory. -/
structure MediaFile where
  /-- The directory of the session. -/
  dir : SessionDir
  index : ℕ
  size : ℕ
  /-- The recording that was running when the file was written. -/
  during : RecordingId
  deriving DecidableEq

/-- What the worker does, as an observer sees it. -/
inductive Event where
  /-- A drain has popped a job. -/
  | popped (q : Queue) (job : Raw)
  /-- The handler of an op was called for a channel. -/
  | handled (op : Op) (c : ChannelId)
  /-- A reset was applied to a session. -/
  | reset (c : ChannelId)
  /-- `list_segments` has counted the files of a recording. -/
  | counted (r : RecordingId) (segments : ℕ) (files : List MediaFile)
  /-- `publish_event` has pushed for a recording. -/
  | published (q : Queue) (r : RecordingId) (c : ChannelId)

/-- The events that belong to a job. -/
def Event.isWork : Event → Bool
  | .counted _ _ _ => false
  | .published _ _ _ => false
  | _ => true

/-- The settings a worker reads. -/
structure Settings where
  workerId : String
  workerCapacity : ℕ

/-- The state of the system as the worker and the API see it: the database, the lists and statistics
in Redis, what the worker keeps in memory, and the trace of what it has done. -/
structure World where
  /-- What is committed. -/
  db : Database
  /-- The Redis lists. -/
  lists : Queue → List Raw
  /-- The channels whose statistics are published. -/
  stats : Finset ChannelId
  /-- `_sessions`: channels and the ids of their session objects. -/
  sessions : Dict ChannelId SessionId
  /-- `_recording_ids`: the row that each recording session writes. -/
  recordingIds : Dict ChannelId RecordingId
  /-- `_pending_record`: starts that wait for their channel to be connected. -/
  pendingRecord : Finset ChannelId
  /-- The session objects, also those that no table of the worker names any more. -/
  heap : SessionId → ChannelSession
  /-- The segments on disk. -/
  files : List MediaFile
  /-- The next id of a session or of a row. -/
  nextId : ℕ
  /-- The clock. -/
  now : ℕ
  /-- A session has died since the last heartbeat. -/
  died : Bool
  /-- What was noted of the run, in order. -/
  trace : List Event

namespace World

/-- A worker that has just started, on a given database and with no job queued. -/
def fresh (db : Database) (nextId : ℕ) : World where
  db := db
  lists := fun _ => []
  stats := ∅
  sessions := ∅
  recordingIds := ∅
  pendingRecord := ∅
  heap := fun _ => ChannelSession.new .udp
  files := []
  nextId := nextId
  now := 0
  died := false
  trace := []

/-! ## Writes -/

@[simps] def commitDb (f : Database → Database) (w : World) : World := { w with db := f w.db }

@[simps] def addPending (c : ChannelId) (w : World) : World :=
  { w with pendingRecord := insert c w.pendingRecord }

@[simps] def dropPending (c : ChannelId) (w : World) : World :=
  { w with pendingRecord := w.pendingRecord.erase c }

@[simps] def setSession (c : ChannelId) (s : SessionId) (w : World) : World :=
  { w with sessions := Dict.set c s w.sessions }

@[simps] def dropSession (c : ChannelId) (w : World) : World :=
  { w with sessions := w.sessions.erase c }

@[simps] def setRecordingId (c : ChannelId) (r : RecordingId) (w : World) : World :=
  { w with recordingIds := Dict.set c r w.recordingIds }

@[simps] def dropRecordingId (c : ChannelId) (w : World) : World :=
  { w with recordingIds := w.recordingIds.erase c }

/-- Change one session object. -/
@[simps] def updSession (s : SessionId) (f : ChannelSession → ChannelSession) (w : World) : World :=
  { w with heap := Function.update w.heap s (f (w.heap s)) }

/-- A session dies: the bus reports an error or EOS, or the child exits. -/
@[simps] def die (s : SessionId) (w : World) : World :=
  { w with heap := Function.update w.heap s (w.heap s).markEnded, died := true }

/-- A heartbeat has looked at every session. -/
@[simps] def clearDied (w : World) : World := { w with died := false }

@[simps] def addStats (c : ChannelId) (w : World) : World := { w with stats := insert c w.stats }

@[simps] def dropStats (c : ChannelId) (w : World) : World := { w with stats := w.stats.erase c }

@[simps] def push (q : Queue) (job : Raw) (w : World) : World :=
  { w with lists := Function.update w.lists q (w.lists q ++ [job]) }

@[simps] def setList (q : Queue) (jobs : List Raw) (w : World) : World :=
  { w with lists := Function.update w.lists q jobs }

@[simps] def note (e : Event) (w : World) : World := { w with trace := w.trace ++ [e] }

/-- `new_id()`: the id that was fresh is used up. -/
@[simps] def takeId (w : World) : World := { w with nextId := w.nextId + 1 }

/-! ## Reads -/

/-- The jobs taken and applied so far. -/
def log (w : World) : List Event := w.trace.filter Event.isWork

/-- The files of a session directory. -/
def filesIn (w : World) (dir : SessionDir) : List MediaFile :=
  w.files.filter fun f => f.dir = dir

/-- `LocalStorage.total_size`: the bytes of all files of a directory. -/
def totalSize (w : World) (dir : SessionDir) : ℕ :=
  ((w.filesIn dir).map MediaFile.size).sum

end World

/-! ## External calls -/

/-- The calls that leave the worker's own memory.  `poll` is the death of a session that
an `is_connected` check is about to see; it never raises. -/
inductive Call where
  /-- `LPOP` or `BLPOP` of a list. -/
  | redisPop (q : Queue)
  /-- `RPUSH` to a list. -/
  | redisPush (q : Queue)
  /-- The write of published statistics. -/
  | redisSet (c : ChannelId)
  /-- The removal of published statistics. -/
  | redisDelete (c : ChannelId)
  /-- A query, or the refresh of a row whose attributes have expired. -/
  | dbQuery
  /-- A commit. -/
  | dbCommit
  /-- `_channel_to_config`. -/
  | buildConfig
  | poll (s : SessionId)
  /-- Building and starting the pipeline, or the child process. -/
  | connect (s : SessionId)
  /-- The path of a capture. -/
  | sessionDir (s : SessionId)
  /-- `mkdir` of that path. -/
  | makeDir (s : SessionId)
  /-- Opening the gate of the capture. -/
  | openCapture (s : SessionId)
  /-- Handing a reset to the session. -/
  | resetEtr290 (s : SessionId)
  /-- Listing the files of a capture. -/
  | listSegments (s : SessionId)
  /-- Looking at the sizes of the files. -/
  | statSegments (s : SessionId)
  /-- Their sum. -/
  | totalSize (s : SessionId)
  /-- Ending the pipeline or the child process. -/
  | teardown (s : SessionId)
  deriving DecidableEq

namespace Call

/-- A call to Redis. -/
def isRedis : Call → Bool
  | redisPop _ | redisPush _ | redisSet _ | redisDelete _ => true
  | _ => false

/-- A call to the database. -/
def isDb : Call → Bool
  | dbQuery | dbCommit => true
  | _ => false

/-- The calls that stand for `session.connect`, `session.start_recording`,
`session.reset_etr290` and for a session dying. -/
def mayFail : Call → Bool
  | poll _ | connect _ | makeDir _ | openCapture _ | resetEtr290 _ => true
  | _ => false

end Call

/-- The exceptions scheduler and worker can see. -/
inductive PyError where
  /-- A call outside the process has failed. -/
  | external (k : Call)
  | runtime (message : String)
  | valueError (message : String)
  /-- The error of the scheduler for a job that it could not queue. -/
  | jobPublish (message : String)
  /-- A job that has no keys, or a channel id that cannot be hashed. -/
  | typeError
  /-- `.get` of a value that has none. -/
  | attributeError
  /-- A missing key. -/
  | keyError
  /-- A job that is no JSON. -/
  | jsonDecode
  deriving DecidableEq

/-- A method of the worker or the scheduler. -/
abbrev Handler (α : Type) := Prog Call PyError World α

open Prog

/-- A call that raises when it fails. -/
def external (k : Call) : Handler Unit := call k (.external k)

/-- One statement on the committed rows. -/
def query {α : Type} (f : Database → α) : Handler α := do
  external .dbQuery
  reads fun w => f w.db

/-- `db.commit()` of the staged changes. -/
def commit (f : Database → Database) : Handler Unit := do
  external .dbCommit
  modify (World.commitDb f)

/-- `publish_event`: a push that may raise, and then nothing is queued. -/
def publishEvent (q : Queue) (payload : Json) : Handler Unit := do
  external (.redisPush q)
  modify (World.push q (.json payload))

section Rules

variable {o : Oracle Call} {E : PyError → ℕ → World → Prop} {C : World → Prop} {n : ℕ}
  {w : World}

@[simp] theorem wp_external {Q : Unit → ℕ → World → Prop} (k : Call) :
    wp o (external k) Q E C n w ↔
      (o n k = .ok → Q () (n + 1) w) ∧ (o n k = .fail → E (.external k) (n + 1) w) ∧
        (o n k = .crash → C w) :=
  wp_call k (PyError.external k)

@[simp] theorem wp_query {α : Type} {Q : α → ℕ → World → Prop} (f : Database → α) :
    wp o (query f) Q E C n w ↔
      (o n .dbQuery = .ok → Q (f w.db) (n + 1) w) ∧
        (o n .dbQuery = .fail → E (.external .dbQuery) (n + 1) w) ∧
          (o n .dbQuery = .crash → C w) := by
  simp [query]

@[simp] theorem wp_commit {Q : Unit → ℕ → World → Prop} (f : Database → Database) :
    wp o (commit f) Q E C n w ↔
      (o n .dbCommit = .ok → Q () (n + 1) (w.commitDb f)) ∧
        (o n .dbCommit = .fail → E (.external .dbCommit) (n + 1) w) ∧
          (o n .dbCommit = .crash → C w) := by
  simp [commit]

@[simp] theorem wp_publishEvent {Q : Unit → ℕ → World → Prop} (q : Queue) (p : Json) :
    wp o (publishEvent q p) Q E C n w ↔
      (o n (.redisPush q) = .ok → Q () (n + 1) (w.push q (.json p))) ∧
        (o n (.redisPush q) = .fail → E (.external (.redisPush q)) (n + 1) w) ∧
          (o n (.redisPush q) = .crash → C w) := by
  simp [publishEvent]

end Rules
