/-
# Channel sessions

The methods of `ChannelSession` (`worker/recorder.py`) that the worker calls, acting on
the session object with a given id.  What GStreamer and the SRT child do inside
`connect`, `start_recording` and `_teardown` is one external call each; the flags around
those calls are the source's.
-/
import IngestFarm.World

open Prog

namespace ChannelSession

/-- `is_connected`.  A session can die at any moment, so the check may be the first to
see that it has. -/
def checkConnected (s : SessionId) : Handler Bool := do
  let alive ← ask (.poll s)
  whenever (alive = false) (modify (World.die s))
  reads fun w => (w.heap s).isConnected

/-- `ChannelSession()` followed by nothing: a new object under a new id. -/
def create (protocol : SourceProtocol) : Handler SessionId := do
  let s ← reads fun w => w.nextId
  modify World.takeId
  modify (World.updSession s fun _ => ChannelSession.new protocol)
  pure s

/-- `connect` of a fresh session. -/
def connect (s : SessionId) : Handler Unit := do
  external (.connect s)
  modify (World.updSession s markConnected)

/-- `start_recording`.  For SRT `openCapture` is the record command and its
acknowledgement, otherwise the relinking of the valve. -/
def startRecording (s : SessionId) (dir : SessionDir) : Handler Unit := do
  let up ← checkConnected s
  if up = false then raise (.runtime "Not connected")
  else do
    let recording ← reads fun w => (w.heap s).recording
    if recording = true then raise (.runtime "Already recording")
    else do
      external (.makeDir s)
      modify (World.updSession s (prepare dir))
      external (.openCapture s)
      modify (World.updSession s (setRecording true))

/-- The count at the end of `stop_recording`: `glob("segment_*.ts")` and the sizes. -/
def countSegments (s : SessionId) : Handler Unit := do
  let dir? ← reads fun w => (w.heap s).outputDir
  match dir? with
  | none => pure ()
  | some dir => do
    external (.listSegments s)
    modify fun w => w.updSession s (setCount (w.filesIn dir).length)
    external (.statSegments s)

/-- `stop_recording`.  A stop command that cannot be sent is logged and ignored. -/
def stopRecording (s : SessionId) : Handler Unit := do
  let recording ← reads fun w => (w.heap s).recording
  whenever (recording = true) do
    modify (World.updSession s (setRecording false))
    countSegments s

/-- `_teardown`: the mark comes first, so a second call finds nothing to do; the pipeline goes in
between, which may raise. -/
def teardown (s : SessionId) : Handler Unit := do
  let stopping ← reads fun w => (w.heap s).stopping
  whenever (stopping = false) do
    modify (World.updSession s markStopping)
    external (.teardown s)
    modify (World.updSession s close)

/-- `disconnect`: a recording is stopped before the pipeline goes. -/
def disconnect (s : SessionId) : Handler Unit := do
  let recording ← reads fun w => (w.heap s).recording
  whenever (recording = true) (stopRecording s)
  teardown s

/-- `reset_etr290`: only an SRT child takes the command. -/
def resetEtr290 (s : SessionId) : Handler Unit := do
  let x ← reads fun w => w.heap s
  whenever (x.protocol = .srt ∧ x.pipeline = true) (external (.resetEtr290 s))

end ChannelSession

namespace ChannelSession

variable {o : Oracle Call} {E : PyError → ℕ → World → Prop} {C : World → Prop} {n : ℕ}
  {w : World}

/-- A check either sees the session as it is, or sees it die. -/
@[simp] theorem wp_checkConnected {Q : Bool → ℕ → World → Prop} (s : SessionId) :
    wp o (checkConnected s) Q E C n w ↔
      (o n (.poll s) = .ok → Q (w.heap s).isConnected (n + 1) w) ∧
        (o n (.poll s) = .fail → Q false (n + 1) (w.die s)) ∧
          (o n (.poll s) = .crash → C w) := by
  simp [checkConnected]

end ChannelSession
