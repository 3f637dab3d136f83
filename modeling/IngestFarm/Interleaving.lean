/-
# Scheduler, connect thread and worker together

The scheduler and the worker run in different processes and meet in the database and in Redis
lists; connect jobs take a detour over a thread that hands them to the main loop.  `System` has
them all: a step is one request, one pop of the connect thread, one idle callback, one heartbeat
or one drain, or the death of a session.  A tick is a heartbeat and then a drain; a request may
fall between the two.

The lemmas here say of each kind of step what it does to the views of the channels and to the lists,
once for the results that follow: `request_eq`, `popConnect_eq`, `idleConnect_eq`, `heartbeat_eq`
and `drain_eq`.  `Books` is what all of them need: sound tables, and jobs that name channels.
-/
import IngestFarm.Batches
import IngestFarm.Heartbeat
import IngestFarm.Ownership
import IngestFarm.Startup

open Prog

/-- A farm with one worker: its state, the connect jobs that wait for their idle callback, and
for each channel the request that was accepted last. -/
structure System where
  /-- Database, Redis and the worker. -/
  world : World
  /-- Connect jobs that the thread has popped and the main loop has not run. -/
  idle : List Json
  /-- The last request that was accepted for a channel. -/
  last : ChannelId → Option Request

namespace System

/-- A step of one of the parties. -/
inductive Action where
  /-- A request of the scheduler. -/
  | request (r : Request) (c : ChannelId)
  /-- The connect thread pops a job. -/
  | popConnect
  /-- The main loop runs the callback of a popped job. -/
  | idleConnect (o : Environment)
  /-- A heartbeat. -/
  | heartbeat (o : Environment)
  /-- A drain of the control lists. -/
  | drain (o : Environment)
  /-- A session dies. -/
  | die (s : SessionId)

/-- The connect thread: `blocking_pop`, then `GLib.idle_add`. -/
def popConnect (S : System) : Option System :=
  match S.world.lists .connect with
  | [] => none
  | .invalid :: rest => some { S with world := S.world.setList .connect rest }
  | .json job :: rest =>
    some { S with world := S.world.setList .connect rest, idle := S.idle ++ [job] }

/-- Requests are made for the ids of channels, which are truthy. -/
def request (S : System) (r : Request) (c : ChannelId) : Option System :=
  if (Json.ofKey c).truthy = true then
    some { S with
      world := S.world.request r c
      last := if (S.world.db.status c).any (fun st => r.accepts st) = true
        then Function.update S.last c (some r) else S.last }
  else none

/-- The state after a step. -/
def step (cfg : Settings) (S : System) : Action → Option System
  | .request r c => S.request r c
  | .popConnect => S.popConnect
  | .idleConnect o => match S.idle with
    | [] => none
    | job :: rest =>
      some { S with world := final o.1 (IngestWorker.idleConnect cfg job) S.world, idle := rest }
  | .heartbeat o => some { S with world := final o.1 (IngestWorker.heartbeat cfg) S.world }
  | .drain o =>
    some { S with
      world := final o.1 (IngestWorker.drainControlQueues IngestWorker.handlers) S.world }
  | .die s => some { S with world := S.world.die s }

/-- A connect job of the channel is in the list or waits for its callback. -/
def Connects (S : System) (c : ChannelId) : Prop :=
  c ∈ S.world.queued .connect ∨ c ∈ S.idle.filterMap Json.channel

/-- A worker that has just started, no channel in use and no job waiting. -/
structure Quiet (S : System) : Prop where
  /-- The worker has just started, and no row is in flight. -/
  pristine : Pristine S.world
  /-- No channel is active. -/
  inactive : ∀ c, ¬ (S.world.stored c).Active
  /-- No job waits. -/
  lists : ∀ q, S.world.lists q = []
  /-- No callback waits. -/
  idle : S.idle = []
  /-- No start is remembered. -/
  pending : S.world.pendingRecord = ∅
  /-- Nothing was requested. -/
  last : ∀ c, S.last c = none

/-- The bookkeeping of a run. -/
structure Books (S : System) : Prop where
  sound : Sound S.world
  /-- The control jobs name channels. -/
  wellFormed : WellFormed S.world
  /-- So do the connect jobs. -/
  connect : ∀ raw ∈ S.world.lists .connect, ∃ c, raw.channel = some c
  /-- And those that the thread has popped. -/
  idle : ∀ job ∈ S.idle, ∃ c, job.channel = some c

end System

/-- A session that was seen alive may have died since. -/
theorem OpStep.mono {d d' : Bool} {fresh : RecordingId} {op : Op} {v v' : View}
    (h : OpStep d fresh op v v') (hd : d' = false → d = false) : OpStep d' fresh op v v' := by
  cases op with
  | disconnect => exact h
  | stop =>
    cases (h : StopStep d v v') with
    | absent t hs ht => exact StopStep.absent t hs ht
    | finalized s x y t up y' hs hrec ht hy hup hseen =>
      exact StopStep.finalized s x y t up y' hs hrec ht hy hup (hseen.mono hd)
    | idle s x up x' hs hrec hid hseen => exact StopStep.idle s x up x' hs hrec hid (hseen.mono hd)
  | start =>
    cases (h : StartStep d fresh v v') with
    | absent hs => exact StartStep.absent hs
    | dead s x x' hs hseen => exact StartStep.dead s x x' hs (hseen.mono hd)
    | already s x hs hup hrec => exact StartStep.already s x hs hup hrec
    | opened s x y hs hup hrec hy hy' => exact StartStep.opened s x y hs hup hrec hy hy'
    | failed s x y up y' hs hup hrec hy hdied hseen =>
      refine StartStep.failed s x y up y' hs hup hrec hy (hdied.imp id fun h => ?_) (hseen.mono hd)
      by_contra hne
      exact absurd h (by simp [hd (by simpa using hne)])

/-- **One handler**, whatever `start_recording` and the sessions do. -/
theorem wp_opStep {o : Oracle Call} {w : World} (ho : Steady o) (op : Op) (c : ChannelId) (n : ℕ)
    (hw : Sound w) :
    wp o (IngestWorker.handlers op c)
      (fun _ _ w' => Local c w w' ∧ OpStep w'.died w.nextId op (w.view c) (w'.view c))
      (fun _ _ _ => False) (fun _ => MayCrash o) n w := by
  cases op with
  | disconnect =>
    exact wp_mono (handleDisconnect_acts ho c n w) (fun _ _ _ h => ⟨h.1, h.2 hw⟩)
      (fun _ _ _ h => h) fun _ h => h.crash
  | stop =>
    exact wp_mono (handleRecordStop_acts ho c n w) (fun _ _ _ h => ⟨h.1, h.2 hw⟩)
      (fun _ _ _ h => h) fun _ h => h.crash
  | start =>
    exact wp_mono (handleRecordStart_acts ho c n w) (fun _ _ _ h => ⟨h.1, h.2 hw⟩)
      (fun _ _ _ h => h) fun _ h => h.crash

/-- `job["channel_id"]` of a well-formed job. -/
theorem wp_jobField_of_channel {o : Oracle Call} {E : PyError → ℕ → World → Prop}
    {C : World → Prop} {n : ℕ} {w : World} {Q : ChannelId → ℕ → World → Prop} {job : Json}
    {c : ChannelId} (h : job.channel = some c) (hQ : Q c n w) :
    wp o (IngestWorker.jobField job) Q E C n w := by
  obtain ⟨-, id, hid, hkey⟩ := Json.of_channel h
  cases job with
  | obj fields =>
    have hfield : (Json.field? "channel_id" fields).filter Json.truthy = some id :=
      Option.some.inj hid
    have hget : Json.field? "channel_id" fields = some id := (Option.filter_eq_some_iff.mp hfield).1
    unfold IngestWorker.jobField
    dsimp only
    rw [hget, Option.bind_some, hkey]
    exact hQ
  | _ => exact absurd hid (by simp [Json.jobId])

namespace System

section Steps

variable {cfg : Settings} {S S' : System}

/-- **An accepted request.** -/
theorem request_eq {r : Request} {c : ChannelId} (h : S.request r c = some S') :
    (Json.ofKey c).truthy = true ∧ (S' = S ∨ ∃ st, S.world.db.status c = some st ∧
      r.accepts st = true ∧
        S' = { S with
          world := r.outcome c st S.world, last := Function.update S.last c (some r) }) := by
  unfold request at h
  split at h
  · rename_i hid
    refine ⟨hid, ?_⟩
    obtain rfl := Option.some.inj h
    rcases request_cases r c S.world with ⟨st, hst, hacc, -, heq⟩ | ⟨hno, heq⟩
    · refine Or.inr ⟨st, hst, hacc, ?_⟩
      rw [if_pos (by rw [hst]; exact hacc), heq]
    · left
      have hrefused : ¬ (S.world.db.status c).any (fun st => r.accepts st) = true := by
        intro hany
        rcases hst : S.world.db.status c with _ | st
        · rw [hst] at hany
          exact absurd hany (by simp)
        · rw [hst] at hany
          exact hno (by rw [World.Accepts, exec_of_accepts hst hany])
      rw [if_neg hrefused, heq]
  · exact absurd h (by simp)

/-- What a step does to the worker's part of the state. -/
theorem books_request {r : Request} {c : ChannelId} (hS : S.Books)
    (h : S.request r c = some S') : S'.Books := by
  obtain ⟨hid, rfl | ⟨st, hst, hacc, rfl⟩⟩ := request_eq h
  · exact hS
  · have hraw : ∀ q, ∀ raw ∈ (r.outcome c st S.world).lists q,
        raw ∈ S.world.lists q ∨ raw.channel = some c := by
      intro q raw hraw
      rw [lists_outcome, List.mem_append] at hraw
      refine hraw.imp id fun hraw => ?_
      split at hraw
      · rw [List.mem_singleton.mp hraw]
        exact channel_jobPayload hid _ _
      · exact absurd hraw List.not_mem_nil
    refine ⟨sound_outcome hS.sound, fun q hq raw h => ?_, fun raw h => ?_, hS.idle⟩
    · exact (hraw q raw h).elim (hS.wellFormed q hq raw) fun h => ⟨c, h⟩
    · exact (hraw .connect raw h).elim (hS.connect raw) fun h => ⟨c, h⟩

/-- **The connect thread**, with well-formed jobs. -/
theorem popConnect_eq (hS : S.Books) (h : S.popConnect = some S') :
    ∃ c job rest, S.world.lists .connect = .json job :: rest ∧ job.channel = some c ∧
      S' = { S with world := S.world.setList .connect rest, idle := S.idle ++ [job] } := by
  unfold popConnect at h
  split at h
  · exact absurd h (by simp)
  · rename_i rest hlist
    obtain ⟨c, hc⟩ := hS.connect .invalid (by rw [hlist]; exact List.mem_cons_self)
    exact absurd hc (by simp [Raw.channel])
  · rename_i job rest hlist
    obtain ⟨c, hc⟩ := hS.connect (.json job) (by rw [hlist]; exact List.mem_cons_self)
    exact ⟨c, job, rest, hlist, hc, (Option.some.inj h).symm⟩

/-- **An idle callback.** -/
theorem idleConnect_eq {o : Environment} {job : Json} {c : ChannelId} (hw : Sound S.world)
    (hc : job.channel = some c) :
    Local c S.world (final o.1 (IngestWorker.idleConnect cfg job) S.world) ∧
      ConnectStep (final o.1 (IngestWorker.idleConnect cfg job) S.world).died S.world.nextId
        (Opens cfg o.1 0 c S.world) (S.world.view c)
        ((final o.1 (IngestWorker.idleConnect cfg job) S.world).view c) := by
  refine final_of_wp (P := fun w' => Local c S.world w' ∧ ConnectStep w'.died S.world.nextId
    (Opens cfg o.1 0 c S.world) (S.world.view c) (w'.view c)) ?_
  unfold IngestWorker.idleConnect
  rw [wp_attempt, wp_bind]
  apply wp_jobField_of_channel hc
  refine wp_mono (handleConnect_acts o.2.steady cfg c 0 S.world) ?_ (fun _ _ _ h => h.elim)
    fun _ h => absurd h.crash o.2.not_mayCrash
  rintro _ _ w' ⟨hlocal, hstep⟩
  exact ⟨hlocal, hstep hw⟩

/-- **A heartbeat.** -/
theorem heartbeat_eq (cfg : Settings) (o : Environment) (hw : Sound S.world) :
    Beat cfg S.world (final o.1 (IngestWorker.heartbeat cfg) S.world) := by
  apply final_of_wp (P := Beat cfg S.world)
  exact wp_mono (wp_heartbeat o.2.steady hw cfg) (fun _ _ _ h => h) (fun _ _ _ h => h.elim)
    fun _ h => absurd h.1 o.2.not_mayCrash

/-- What the drain does to the view of a channel with a job. -/
def Handled (died : Bool) (op : Op) (v v' : View) : Prop :=
  ∃ fresh, v.rows fresh = none ∧ OpStep died fresh op v v'

/-- **A drain**; `J` is what its handlers keep. -/
theorem drain_eq {J : World → Prop} (o : Environment) (hS : S.Books) (hinv : J S.world)
    (hJ : ∀ u lists trace, J u → J { u with lists := lists, trace := trace })
    (hh : ∀ c n u, Sound u → J u → S.world.HasJob c → u.view c = S.world.view c →
      wp o.1 (IngestWorker.handlers (S.world.resolved c) c) (fun _ _ u' => J u')
        (fun _ _ u' => J u') J n u) :
    Drained Handled J S.world
      (final o.1 (IngestWorker.drainControlQueues IngestWorker.handlers) S.world) := by
  apply final_of_wp (P := Drained Handled J S.world)
  refine wp_mono (wp_drain o.2.steady o.2.popsUp ?_ hJ (fun c n u hu hu' hjob hview => ?_)
    hS.sound hinv hS.wellFormed) (fun _ _ _ h => h) (fun _ _ _ h => h.elim)
      fun _ h => absurd h o.2.not_mayCrash
  · rintro d d' op v v' hd ⟨fresh, hfresh, hstep⟩
    exact ⟨fresh, hfresh, hstep.mono hd⟩
  · refine wp_mono (wp_and (wp_opStep o.2.steady (S.world.resolved c) c n hu)
      (hh c n u hu hu' hjob hview)) ?_ (fun _ _ _ h => h.1) fun _ h => h.1
    rintro _ _ u' ⟨⟨hlocal, hstep⟩, hu''⟩
    exact ⟨hlocal, ⟨u.nextId, hu.rowsOf_nextId c, hstep⟩, hu''⟩

/-- **Every step keeps the books.** -/
theorem books_step (hS : S.Books) {a : Action} (h : S.step cfg a = some S') : S'.Books := by
  have hcontrol : ∀ q ∈ controlQueues, q.isControl = true := by decide
  cases a with
  | request r c => exact books_request hS h
  -- A connect job moves from its list to the idle callbacks.
  | popConnect =>
    obtain ⟨c, job, rest, hlist, hc, rfl⟩ := popConnect_eq hS h
    refine ⟨⟨hS.sound.distinct, hS.sound.sessions_lt, hS.sound.rows_lt, hS.sound.known⟩,
      fun q hq raw hraw => ?_, fun raw hraw => ?_, fun job' hjob' => ?_⟩
    · have hne : q ≠ .connect := by
        rintro rfl
        exact absurd hq (by decide)
      rw [World.setList_lists, Function.update_of_ne hne] at hraw
      exact hS.wellFormed q hq raw hraw
    · rw [World.setList_lists, Function.update_self] at hraw
      exact hS.connect raw (by rw [hlist]; exact List.mem_cons_of_mem _ hraw)
    · rcases List.mem_append.mp hjob' with hjob' | hjob'
      · exact hS.idle job' hjob'
      · exact ⟨c, List.mem_singleton.mp hjob' ▸ hc⟩
  | idleConnect o =>
    unfold step at h
    dsimp only at h
    rcases hidle : S.idle with _ | ⟨job, rest⟩
    · rw [hidle] at h
      exact absurd h (by simp)
    · rw [hidle] at h
      obtain rfl := Option.some.inj h
      obtain ⟨c, hc⟩ := hS.idle job (by rw [hidle]; exact List.mem_cons_self)
      obtain ⟨hlocal, -⟩ := @idleConnect_eq cfg _ o _ _ hS.sound hc
      refine ⟨hlocal.sound hS.sound, fun q hq raw hraw => ?_, fun raw hraw => ?_,
        fun job' hjob' => hS.idle job' (by rw [hidle]; exact List.mem_cons_of_mem _ hjob')⟩
      · rw [hlocal.jobs q (hcontrol q hq)] at hraw
        exact hS.wellFormed q hq raw hraw
      · rw [hlocal.jobs .connect rfl] at hraw
        exact hS.connect raw hraw
  | heartbeat o =>
    obtain rfl := Option.some.inj h
    have hbeat := heartbeat_eq cfg o hS.sound
    refine ⟨hbeat.sound, fun q hq raw hraw => ?_, fun raw hraw => ?_, hS.idle⟩
    · rw [hbeat.jobs q (hcontrol q hq)] at hraw
      exact hS.wellFormed q hq raw hraw
    · rw [hbeat.jobs .connect rfl] at hraw
      exact hS.connect raw hraw
  -- The control lists are empty afterwards, and the connect list is not touched.
  | drain o =>
    obtain rfl := Option.some.inj h
    have hdrain := drain_eq (J := fun _ => True) o hS trivial (fun _ _ _ h => h)
      fun c n u _ _ _ _ => wp_true _ n u
    refine ⟨hdrain.sound, fun q hq raw hraw => ?_, fun raw hraw => ?_, hS.idle⟩
    · rw [hdrain.empty q hq] at hraw
      exact absurd hraw List.not_mem_nil
    · rw [hdrain.connect] at hraw
      exact hS.connect raw hraw
  | die s =>
    obtain rfl := Option.some.inj h
    exact ⟨⟨hS.sound.distinct, hS.sound.sessions_lt, hS.sound.rows_lt, hS.sound.known⟩,
      hS.wellFormed, hS.connect, hS.idle⟩

/-- A farm at rest. -/
theorem books_of_quiet (h : S.Quiet) : S.Books := by
  refine ⟨(owned_of_pristine h.pristine).sound, fun q _ raw hraw => ?_, fun raw hraw => ?_,
    fun job hjob => ?_⟩
  · rw [h.lists q] at hraw
    exact absurd hraw List.not_mem_nil
  · rw [h.lists .connect] at hraw
    exact absurd hraw List.not_mem_nil
  · rw [h.idle] at hjob
    exact absurd hjob List.not_mem_nil

/-- Jobs in lists that a step leaves alone. -/
theorem mem_queued {w w' : World} {q : Queue} (h : w'.lists q = w.lists q) {d : ChannelId}
    (hd : d ∈ w.queued q) : d ∈ w'.queued q := by
  unfold World.queued
  rw [h]
  exact hd

end Steps

end System
