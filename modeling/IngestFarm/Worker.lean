/-
# The ingest worker

`IngestWorker` of `worker/main.py`, method by method.  A `with get_session_factory()()`
block is a sequence of `query`s on the committed rows and one `commit` of the changes
staged so far; what is staged when an exception leaves the block is lost.  Reading an
attribute of a row after its commit refreshes the row, which is one more query.
-/
import IngestFarm.Session

open Prog

structure ChannelConfig where
  name : String
  protocol : SourceProtocol

/-- `_channel_to_config`: the stored fields are validated again, which may raise. -/
def channelToConfig (channel : Channel) : Handler ChannelConfig := do
  external .buildConfig
  pure ⟨channel.name, channel.protocol⟩

namespace IngestWorker

variable (cfg : Settings)

/-! ## Recovery and heartbeat -/

/-- `_register_worker`: the row of this hostname says what is active now, with its old capacity if
it had one. -/
def registerWorker : Handler Unit := do
  let worker ← query fun db => db.workers.lookup cfg.workerId
  let keys ← reads fun w => w.sessions.keys
  let now ← reads fun w => w.now
  let capacity := (worker.map WorkerRow.capacity).getD cfg.workerCapacity
  commit (Database.setWorker cfg.workerId ⟨some now, keys, capacity⟩)

/-- `_fail_active_recording`: the change that its caller commits. -/
def failActiveRecording (c : ChannelId) : Handler (Database → Database) := do
  let recording ← query fun db => db.activeRecording c
  let now ← reads fun w => w.now
  match recording with
  | none => pure id
  | some r => pure (Database.endRecording r .failed now)

/-- One orphan of `_reconcile_orphaned_channels`: the staged changes and the cleared ids. -/
def reconcileOrphan (acc : (Database → Database) × List ChannelId)
    (orphan : Sigma fun _ : ChannelId => Channel) :
    Handler ((Database → Database) × List ChannelId) := do
  let sessions ← reads fun w => w.sessions
  if orphan.1 ∈ sessions then pure acc
  else do
    let fail ← failActiveRecording orphan.1
    pure (fail ∘ Database.setStatus orphan.1 .idle ∘ acc.1, acc.2 ++ [orphan.1])

/-- `_reconcile_orphaned_channels`: what the last life of this worker had claimed is put back,
channel by channel. -/
def reconcileOrphanedChannels : Handler Unit := do
  let worker ← query fun db => db.workers.lookup cfg.workerId
  match worker with
  | none => pure ()
  | some row =>
    if row.activeChannels = [] then pure ()
    else do
      let orphans ← query fun db => db.channels.entries.filter fun e =>
        e.1 ∈ row.activeChannels ∧ e.2.status ∈ activeStatuses
      let (staged, _cleared) ← fold reconcileOrphan orphans (id, [])
      let sessions ← reads fun w => w.sessions
      -- Both branches on `cleared` commit: the worker row exists here.
      commit (Database.setWorker cfg.workerId
        { row with activeChannels := row.activeChannels.filter (· ∈ sessions) } ∘ staged)

/-- `_startup`: the orphans first, since registering overwrites the list of them. -/
def startup : Handler Unit := do
  reconcileOrphanedChannels cfg
  registerWorker cfg

/-- `_clear_stats`: best effort. -/
def clearStats (c : ChannelId) : Handler Unit :=
  attempt (do external (.redisDelete c); modify (World.dropStats c)) fun _ => pure ()

/-- `set_channel_stats` inside the heartbeat: best effort.  A connected session always has
stats to publish. -/
def publishStats (c : ChannelId) : Handler Unit :=
  attempt (do external (.redisSet c); modify (World.addStats c)) fun _ => pure ()

/-- One session in `_heartbeat`. -/
def heartbeatSession (staged : Database → Database)
    (item : Sigma fun _ : ChannelId => SessionId) : Handler (Database → Database) := do
  let up ← ChannelSession.checkConnected item.2
  if up = true then do
    publishStats item.1
    pure staged
  else do
    modify (World.dropSession item.1)
    modify (World.dropRecordingId item.1)
    modify (World.dropPending item.1)
    clearStats item.1
    let fail ← failActiveRecording item.1
    let ch ← query fun db => db.status item.1
    let mark := if ch.any (· ∈ activeStatuses) then Database.setStatus item.1 .error else id
    pure (mark ∘ fail ∘ staged)

/-- `_heartbeat`: the row is stamped, and every session that is dead is dropped with its channel in
error. -/
def heartbeat : Handler Unit := do
  let worker ← query fun db => db.workers.lookup cfg.workerId
  let keys ← reads fun w => w.sessions.keys
  let now ← reads fun w => w.now
  let stamp : Database → Database := match worker with
    | none => id
    | some row => Database.setWorker cfg.workerId
        { row with lastHeartbeat := some now, activeChannels := keys }
  let items ← reads fun w => w.sessions.entries
  let staged ← fold heartbeatSession items stamp
  commit staged
  modify World.clearDied

/-! ## Recording -/

/-- The row to finish: the remembered one while it exists, else the newest in flight. -/
def findRecording (c : ChannelId) (known : Option RecordingId) :
    Handler (Option RecordingId) :=
  match known with
  | none => query fun db => db.activeRecording c
  | some r => do
    let found ← query fun db => decide (r ∈ db.recordings)
    if found = true then pure (some r) else query fun db => db.activeRecording c

/-- `storage.total_size(output_dir) if output_dir else 0`; the disk may fail here. -/
def measure (s : SessionId) (outputDir : Option SessionDir) : Handler ℕ :=
  match outputDir with
  | none => pure 0
  | some dir => do
    external (.totalSize s)
    reads fun w => w.totalSize dir

/-- One of the two events of a completed recording. -/
def announce (q : Queue) (c : ChannelId) (r : RecordingId) : Handler Unit := do
  publishEvent q (.obj [("recording_id", .int r), ("channel_id", .ofKey c)])
  modify (World.note (.published q r c))

/-- The last part of `_finalize_recording`: finish the row, then tell the others. -/
def completeRecording (c : ChannelId) (segmentCount byteSize : ℕ) (files : List MediaFile)
    (recording : Option RecordingId) : Handler Unit :=
  match recording with
  | none => pure ()
  | some r => do
    let now ← reads fun w => w.now
    commit (Database.setCounts r segmentCount byteSize ∘ Database.endRecording r .completed now)
    modify (World.note (.counted r segmentCount files))
    -- `recording.id` is expired by the commit.
    external .dbQuery
    announce .recordingComplete c r
    announce .postprocess c r

/-- `_finalize_recording` from the reading of `output_dir` on. -/
def finishRecording (c : ChannelId) (s : SessionId) : Handler Unit := do
  let session ← reads fun w => w.heap s
  let byteSize ← measure s session.outputDir
  let files ← reads fun w => (session.outputDir.map w.filesIn).getD []
  let recordingId ← reads fun w => w.recordingIds.lookup c
  modify (World.dropRecordingId c)
  let row ← findRecording c recordingId
  completeRecording c session.segmentCount byteSize files row

/-- `_finalize_recording` (every caller passes `completed=True`). -/
def finalizeRecording (c : ChannelId) (s : SessionId) : Handler Unit := do
  let recording ← reads fun w => (w.heap s).recording
  let known ← reads fun w => w.recordingIds.lookup c
  if recording = false ∧ known = none then pure ()
  else do
    whenever (recording = true) (ChannelSession.stopRecording s)
    finishRecording c s

/-- The row that `_handle_record_start` inserts. -/
def newRecording (c : ChannelId) (s : SessionId) (now : ℕ) : Recording :=
  { channelId := c, startedAt := now, endedAt := none, status := .recording,
    storagePath := ⟨c, s⟩, segmentCount := 0, byteSize := 0, startedBy := s }

/-- The remembered row becomes `failed`, if it exists. -/
def failKnown (known : Option RecordingId) : Handler (Database → Database) :=
  match known with
  | none => pure id
  | some r => do
    let found ← query fun db => decide (r ∈ db.recordings)
    let now ← reads fun w => w.now
    pure (if found = true then Database.endRecording r .failed now else id)

/-- `channel.status = "connected" if session.is_connected else down`, if the row exists. -/
def settleStatus (c : ChannelId) (s : SessionId) (down : ChannelStatus) :
    Handler (Database → Database) := do
  let ch ← query fun db => db.status c
  if ch = none then pure id
  else do
    let up ← ChannelSession.checkConnected s
    pure (Database.setStatus c (if up = true then .connected else down))

/-- The `except` branch of `_handle_record_start`. -/
def recordStartFailed (c : ChannelId) (s : SessionId) : Handler Unit := do
  let recordingId ← reads fun w => w.recordingIds.lookup c
  modify (World.dropRecordingId c)
  let fail ← failKnown recordingId
  let settle ← settleStatus c s .error
  commit (settle ∘ fail)

/-- The rest of `_handle_record_start` for a connected session that is not recording. -/
def openRecording (c : ChannelId) (s : SessionId) : Handler Unit := do
  external (.sessionDir s)
  let now ← reads fun w => w.now
  let r ← reads fun w => w.nextId
  let ch ← query fun db => db.status c
  commit ((if ch = none then id else Database.setStatus c .recording) ∘
    Database.addRecording r (newRecording c s now))
  modify World.takeId
  -- `recording.id` is expired by the commit.
  external .dbQuery
  modify (World.setRecordingId c r)
  attempt (ChannelSession.startRecording s ⟨c, s⟩) fun _ => recordStartFailed c s

/-- `_handle_record_start`: without a session the request is remembered for the connect to come;
with one that is up the recording starts. -/
def handleRecordStart (c : ChannelId) : Handler Unit := do
  let session ← reads fun w => w.sessions.lookup c
  match session with
  | none => modify (World.addPending c)
  | some s => do
    let up ← ChannelSession.checkConnected s
    if up = false then modify (World.addPending c)
    else do
      let recording ← reads fun w => (w.heap s).recording
      modify (World.dropPending c)
      if recording = true then pure () else openRecording c s

/-- `_handle_record_stop` without a session. -/
def stopWithoutSession (c : ChannelId) : Handler Unit := do
  let ch ← query fun db => db.status c
  let idle := if ch.any (· ∈ [.stopping, .recording, .starting])
    then Database.setStatus c .idle else id
  let fail ← failActiveRecording c
  commit (fail ∘ idle)

/-- `_handle_record_stop` with a session. -/
def stopSession (c : ChannelId) (s : SessionId) : Handler Unit := do
  finalizeRecording c s
  let ch ← query fun db => db.status c
  whenever (ch ≠ none) do
    let up ← ChannelSession.checkConnected s
    commit (Database.setStatus c (if up = true then .connected else .idle))

/-- `_handle_record_stop`: a request to record that waits is forgotten in any case. -/
def handleRecordStop (c : ChannelId) : Handler Unit := do
  modify (World.dropPending c)
  let session ← reads fun w => w.sessions.lookup c
  match session with
  | none => stopWithoutSession c
  | some s => stopSession c s

/-! ## Connecting -/

/-- The session part of `_handle_disconnect`. -/
def closeSession (c : ChannelId) (session : Option SessionId) : Handler Unit :=
  match session with
  | none => pure ()
  | some s => do
    let recording ← reads fun w => (w.heap s).recording
    whenever (recording = true) (finalizeRecording c s)
    ChannelSession.disconnect s

/-- `_handle_disconnect`: the session leaves `_sessions` before it is closed, so a failure on the
way does not keep it there. -/
def handleDisconnect (c : ChannelId) : Handler Unit := do
  modify (World.dropPending c)
  let session ← reads fun w => w.sessions.lookup c
  modify (World.dropSession c)
  closeSession c session
  clearStats c
  let ch ← query fun db => db.status c
  whenever (ch.any (· ∈ activeStatuses)) (commit (Database.setStatus c .idle))

/-- The `try` block of `_handle_connect`. -/
def connectSession (c : ChannelId) (s : SessionId) (startRecordAfter : Bool) :
    Handler Unit := do
  ChannelSession.connect s
  modify (World.setSession c s)
  let ch ← query fun db => db.status c
  whenever (ch.any (· ∈ [.connecting, .starting]))
    (commit (if ch = some .connecting then Database.setStatus c .connected else id))
  let pending ← reads fun w => decide (c ∈ w.pendingRecord)
  whenever (startRecordAfter = true ∨ pending = true) (handleRecordStart c)

/-- The `except` branch of `_handle_connect`. -/
def connectFailed (c : ChannelId) : Handler Unit := do
  let ch ← query fun db => db.status c
  whenever (ch ≠ none) (commit (Database.setStatus c .error))

/-- `channel_id in self._sessions and self._sessions[channel_id].is_connected`: a dead session does
not count. -/
def alreadyConnected (c : ChannelId) : Handler Bool := do
  let session ← reads fun w => w.sessions.lookup c
  match session with
  | none => pure false
  | some s => ChannelSession.checkConnected s

/-- The part of `_handle_connect` that creates a session. -/
def openSession (c : ChannelId) : Handler Unit := do
  let channel ← query fun db => db.channels.lookup c
  match channel with
  | none => pure ()
  | some ch => do
    let config ← channelToConfig ch
    let s ← ChannelSession.create config.protocol
    attempt (connectSession c s (ch.status = .starting)) fun _ => connectFailed c

/-- `_handle_connect`: a channel that is up only gets its status right; otherwise a session is
opened if there is room, and a recording that was asked for starts with it. -/
def handleConnect (c : ChannelId) : Handler Unit := do
  let up ← alreadyConnected c
  if up = true then do
    let ch ← query fun db => db.status c
    whenever (ch = some .connecting) (commit (Database.setStatus c .connected))
    let pending ← reads fun w => decide (c ∈ w.pendingRecord)
    whenever (pending = true) (handleRecordStart c)
  else do
    let held ← reads fun w => w.sessions.keys.length
    if cfg.workerCapacity ≤ held then do
      let ch ← query fun db => db.status c
      whenever (ch.any (· ∈ [.connecting, .starting])) (commit (Database.setStatus c .error))
    else openSession c

/-- `_handle_etr290_reset`: the session is told, and its failure is swallowed. -/
def handleEtr290Reset (c : ChannelId) : Handler Unit := do
  modify (World.note (.reset c))
  let session ← reads fun w => w.sessions.lookup c
  match session with
  | none => pure ()
  | some s => attempt (ChannelSession.resetEtr290 s) fun _ => pure ()

/-- `job["channel_id"]`, which raises where `get` would not. -/
def jobField (job : Json) : Handler ChannelId :=
  match job with
  | .obj fields =>
    match (Json.field? "channel_id" fields).bind Json.toKey with
    | some c => pure c
    | none => raise .keyError
  | _ => raise .typeError

/-- `_idle_connect`: the callback of a connect job, which swallows what it raises. -/
def idleConnect (job : Json) : Handler Unit :=
  attempt (do let c ← jobField job; handleConnect cfg c) fun _ => pure ()

/-! ## The control lists -/

/-- `try_pop`: the element is gone from the list before it is decoded. -/
def tryPop (q : Queue) : Handler (Option Json) := do
  external (.redisPop q)
  let jobs ← reads fun w => w.lists q
  match jobs with
  | [] => pure none
  | raw :: rest => do
    modify (World.setList q rest)
    modify (World.note (.popped q raw))
    match raw with
    | .invalid => raise .jsonDecode
    | .json v => pure (some v)

/-- `while job:` over `try_pop(queue)`, at most `fuel` times. -/
def popLoop {γ : Type} (q : Queue) (f : γ → Json → Handler γ) : ℕ → γ → Handler γ
  | 0, acc => pure acc
  | fuel + 1, acc => do
    let job ← tryPop q
    match job with
    | none => pure acc
    | some v =>
      if v.truthy = true then do
        let acc' ← f acc v
        popLoop q f fuel acc'
      else pure acc

/-- Drain one list.  Every round but the last takes an element off it. -/
def popAll {γ : Type} (q : Queue) (f : γ → Json → Handler γ) (acc : γ) : Handler γ := do
  let len ← reads fun w => (w.lists q).length
  popLoop q f (len + 1) acc

/-- `job.get("channel_id")`, when it is truthy. -/
def jobChannel (job : Json) : Handler (Option Json) :=
  match job with
  | .obj fields =>
    match Json.field? "channel_id" fields with
    | none => pure none
    | some v => if v.truthy = true then pure (some v) else pure none
  | _ => raise .attributeError

/-- The ops collected for the channels of one tick, in order of first appearance. -/
abbrev Batch := Dict ChannelId (List Op)

/-- `if op not in ops: ops.append(op)`: an operation is listed once, where it came first. -/
def Batch.add (c : ChannelId) (op : Op) (batch : Batch) : Batch :=
  let ops := (batch.lookup c).getD []
  Dict.set c (if op ∈ ops then ops else ops ++ [op]) batch

/-- One control job; an unhashable id raises at `setdefault`. -/
def collectOp (op : Op) (batch : Batch) (job : Json) : Handler Batch := do
  let id? ← jobChannel job
  match id? with
  | none => pure batch
  | some v =>
    match v.toKey with
    | none => raise .typeError
    | some c => pure (batch.add c op)

/-- One reset job; its id is not hashed yet. -/
def collectReset (ids : List Json) (job : Json) : Handler (List Json) := do
  let id? ← jobChannel job
  match id? with
  | none => pure ids
  | some v => pure (ids ++ [v])

/-- `_resolve_ops`: a disconnect outweighs everything, and between start and stop the status
decides. -/
def resolveOps (c : ChannelId) (ops : List Op) : Handler (List Op) :=
  if Op.disconnect ∈ ops then pure [.disconnect]
  else if Op.start ∈ ops ∧ Op.stop ∈ ops then do
    let status ← query fun db => db.status c
    pure [if status = some .stopping then .stop else .start]
  else pure ops

/-- One handler call of the tick; the accumulator is `disconnected`. -/
def dispatch (handlers : Op → ChannelId → Handler Unit) (c : ChannelId)
    (disconnected : Finset ChannelId) (op : Op) : Handler (Finset ChannelId) := do
  modify (World.note (.handled op c))
  handlers op c
  pure (if op = .disconnect then insert c disconnected else disconnected)

/-- The ops of one channel. -/
def applyOps (handlers : Op → ChannelId → Handler Unit) (disconnected : Finset ChannelId)
    (e : Sigma fun _ : ChannelId => List Op) : Handler (Finset ChannelId) := do
  let ops ← resolveOps e.1 e.2
  fold (dispatch handlers e.1) ops disconnected

/-- One queued reset, after the control ops. -/
def applyReset (disconnected : Finset ChannelId) (id : Json) : Handler Unit :=
  match id.toKey with
  | none => raise .typeError
  | some c => whenever (c ∉ disconnected) (handleEtr290Reset c)

/-- The first part of `_drain_control_queues`: empty the four lists. -/
def collectJobs : Handler (Batch × List Json) := do
  let batch ← popAll .disconnect (collectOp .disconnect) ∅
  let batch ← popAll .recordStop (collectOp .stop) batch
  let batch ← popAll .recordStart (collectOp .start) batch
  let resetIds ← popAll .etr290Reset collectReset []
  pure (batch, resetIds)

/-- The second part: run the handlers. -/
def applyJobs (handlers : Op → ChannelId → Handler Unit) (jobs : Batch × List Json) :
    Handler Unit := do
  let disconnected ← fold (applyOps handlers) jobs.1.entries ∅
  each (applyReset disconnected) jobs.2

/-- `_drain_control_queues`, with the table of handlers it builds as a parameter. -/
def drainControlQueues (handlers : Op → ChannelId → Handler Unit) : Handler Unit := do
  let jobs ← collectJobs
  applyJobs handlers jobs

/-- The table `handlers` of `_drain_control_queues`. -/
def handlers : Op → ChannelId → Handler Unit
  | .disconnect => handleDisconnect
  | .stop => handleRecordStop
  | .start => handleRecordStart

/-- `_glib_tick` while the worker is running. -/
def glibTick : Handler Unit :=
  attempt (do heartbeat cfg; drainControlQueues handlers) fun _ => pure ()

/-! ## Best effort -/

section Rules

variable {o : Oracle Call} {Q : Unit → ℕ → World → Prop} {E : PyError → ℕ → World → Prop}
  {C : World → Prop} {n : ℕ} {w : World}

/-- Clearing stats never raises. -/
@[simp] theorem wp_clearStats (c : ChannelId) :
    wp o (clearStats c) Q E C n w ↔
      (o n (.redisDelete c) = .ok → Q () (n + 1) (w.dropStats c)) ∧
        (o n (.redisDelete c) = .fail → Q () (n + 1) w) ∧
          (o n (.redisDelete c) = .crash → C w) := by
  simp [clearStats]

/-- Publishing stats never raises. -/
@[simp] theorem wp_publishStats (c : ChannelId) :
    wp o (publishStats c) Q E C n w ↔
      (o n (.redisSet c) = .ok → Q () (n + 1) (w.addStats c)) ∧
        (o n (.redisSet c) = .fail → Q () (n + 1) w) ∧
          (o n (.redisSet c) = .crash → C w) := by
  simp [publishStats]

end Rules

end IngestWorker
