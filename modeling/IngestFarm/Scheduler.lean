/-
# The scheduler

`Scheduler` of `orchestrator/scheduler.py`: every request checks the stored status,
commits the intent and then publishes the job, undoing the intent when publishing fails.
A `RedisError` can only come from the publish.
-/
import IngestFarm.World

open Prog

namespace Scheduler

/-- `_commit_then_publish`; `previous` is the status the request has read. -/
def commitThenPublish (c : ChannelId) (previous : ChannelStatus) (q : Queue) (payload : Json)
    (newStatus : Option ChannelStatus) : Handler Unit := do
  match newStatus with
  | none => pure ()
  | some st => commit (Database.setStatus c st)
  attempt (publishEvent q payload) fun _ => do
    match newStatus with
    | none => pure ()
    | some _ => do
      commit (Database.setStatus c previous)
      -- `channel.id` in the log line is expired by the commit.
      external .dbQuery
    raise (.jobPublish s!"Could not queue job on {q.key}")

/-- `db.get(Channel, channel_id)` with the refusal of every request. -/
def getChannel (c : ChannelId) : Handler Channel := do
  let channel ← query fun db => db.channels.lookup c
  match channel with
  | none => raise (.valueError s!"Channel {c.text} not found")
  | some ch => pure ch

/-- `_pick_worker`: the hostname of the first worker with the fewest active channels. -/
def pickWorker : Handler (Option String) :=
  query fun db =>
    (db.workers.entries.argmin fun e => e.2.activeChannels.length).map Sigma.fst

/-- The payload of every job but connect. -/
def payload (c : ChannelId) : Json := .obj [("channel_id", .ofKey c)]

/-- The payload of a connect job; the hint is informational. -/
def connectPayload (c : ChannelId) (hint : Option String) : Json :=
  .obj [("channel_id", .ofKey c), ("worker_hint", (hint.map Json.str).getD .null)]

/-- `connect_channel`: only an idle or failed channel is connected; its job names the worker with
the fewest channels, as a hint. -/
def connectChannel (c : ChannelId) : Handler Unit := do
  let ch ← getChannel c
  if ch.status ∉ [.idle, .error] then
    raise (.valueError s!"Channel {c.text} is already {ch.status.value}")
  else do
    let worker ← pickWorker
    commitThenPublish c ch.status .connect (connectPayload c worker) (some .connecting)

/-- `disconnect_channel`: any channel that is on its way or on air may be disconnected, again if
need be. -/
def disconnectChannel (c : ChannelId) : Handler Unit := do
  let ch ← getChannel c
  if ch.status ∉ [.connecting, .connected, .recording, .disconnecting, .starting, .stopping] then
    raise (.valueError s!"Channel {c.text} is not active (status={ch.status.value})")
  else commitThenPublish c ch.status .disconnect (payload c) (some .disconnecting)

/-- `start_recording`, which connects an idle channel first. -/
def startRecording (c : ChannelId) : Handler Unit := do
  let ch ← getChannel c
  whenever (ch.status = .idle) (connectChannel c)
  let ch ← if ch.status = .idle then getChannel c else pure ch
  if ch.status ∉ [.connected, .connecting, .starting] then
    raise (.valueError
      s!"Channel {c.text} must be connected before recording (status={ch.status.value})")
  else
    commitThenPublish c ch.status .recordStart (payload c)
      (if ch.status = .connected then some .starting else none)

/-- `stop_recording`: also while it is starting, and again while it is stopping. -/
def stopRecording (c : ChannelId) : Handler Unit := do
  let ch ← getChannel c
  if ch.status ∉ [.recording, .starting, .stopping] then
    raise (.valueError s!"Channel {c.text} is not recording (status={ch.status.value})")
  else commitThenPublish c ch.status .recordStop (payload c) (some .stopping)

/-- `reset_etr290`: a job for the worker alone, with no status of its own. -/
def resetEtr290 (c : ChannelId) : Handler Unit := do
  let ch ← getChannel c
  if ch.protocol ≠ .srt then
    raise (.valueError "ETR 290 reset is only available for SRT channels")
  else if ch.status ∉ [.connecting, .connected, .recording, .starting, .stopping] then
    raise (.valueError s!"Channel {c.text} is not live (status={ch.status.value})")
  else commitThenPublish c ch.status .etr290Reset (payload c) none

end Scheduler
