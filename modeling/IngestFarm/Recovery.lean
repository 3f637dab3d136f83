/-
# Crash recovery

What a kill leaves behind depends on when the last heartbeat was: `_startup` only looks at
the channels that the worker row lists, and only the heartbeat lists them.  A run here starts
with `_startup` and may be cut off at any call of a handler, of a heartbeat or of a tick, and
in between; the next `_startup` follows at once.  `Careful` says what must hold when the
worker is killed for the recovery to be complete.

`Claimed` says that the worker row lists what a restart would have to put right, and `Prepared` what
a kill inside a callback needs beyond that: a handler that may insert a row needs its channel to be
listed already, while a tick lists the channels itself.
-/
import IngestFarm.Ownership
import IngestFarm.Startup

open Prog

/-! ## Kills -/

/-- What a worker is killed in. -/
inductive Activity where
  /-- A connect handler. -/
  | connect (c : ChannelId)
  /-- A control handler. -/
  | control (op : Op) (c : ChannelId)
  /-- A reset handler. -/
  | reset (c : ChannelId)
  /-- A heartbeat. -/
  | heartbeat
  /-- A whole tick. -/
  | tick

/-- What the worker was doing when it was killed. -/
def Activity.program (cfg : Settings) : Activity → Handler Unit
  | connect c => IngestWorker.handleConnect cfg c
  | control op c => IngestWorker.handlers op c
  | reset c => IngestWorker.handleEtr290Reset c
  | heartbeat => IngestWorker.heartbeat cfg
  | tick => IngestWorker.glibTick cfg

/-- One behaviour of an environment that may kill the worker, with database and Redis up. -/
abbrev MortalEnvironment := {o : Oracle Call // ∀ n k, o n k = .fail → k.mayFail = true}

/-- A step of the life of a worker.  A kill is followed by a restart. -/
inductive LifeStep where
  /-- The worker does something to its end. -/
  | work (a : WorkerStep)
  /-- It is killed between two callbacks, and starts again. -/
  | crash
  /-- It is killed inside one, and starts again. -/
  | killed (a : Activity) (o : MortalEnvironment)

/-- The state after a step; a kill has to happen. -/
def LifeStep.run (cfg : Settings) (w : World) : LifeStep → Option World
  | work a => a.run cfg w
  | crash => some (w.restart cfg)
  | killed a o =>
    match exec o.1 (a.program cfg) w with
    | (.error .crashed, u) => some (u.restart cfg)
    | _ => none

/-- The worker is killed in the step. -/
def LifeStep.Kills : LifeStep → Prop
  | work _ => False
  | _ => True

/-- The worker row lists every channel with a row in flight and, unless a job is waiting,
every active channel. -/
structure Claimed (cfg : Settings) (w : World) : Prop where
  active : ∀ c, (w.stored c).Active → Listed cfg w c ∨ Waiting w c
  rows : ∀ c r, w.db.InFlight c r → Listed cfg w c ∧ (w.stored c).Active

/-- A connect handler goes on to start a recording. -/
def Wanted (w : World) (c : ChannelId) : Prop :=
  w.db.status c = some .starting ∨ c ∈ w.pendingRecord

/-- A connect job for the channel is waiting. -/
def Queued (w : World) (c : ChannelId) : Prop := ∃ job ∈ w.lists .connect, job.channel = some c

/-- What must hold when the worker is killed in an activity. -/
def Prepared (cfg : Settings) (w : World) (o : Oracle Call) : Activity → Prop
  | .connect c => Claimed cfg w ∧ (Wanted w c → Listed cfg w c) ∧
      ¬ (Opens cfg o 0 c w ∧ ∃ s, w.sessions.lookup c = some s ∧ (w.heap s).recording = true)
  | .control op c => Claimed cfg w ∧ (op = .start → c ∈ w.sessions → Listed cfg w c)
  | .reset _ => Claimed cfg w
  | .heartbeat => Claimed cfg w
  | .tick =>
    ((exec o (IngestWorker.heartbeat cfg) w).1 = .error .crashed → Claimed cfg w) ∧
      ((exec o (IngestWorker.heartbeat cfg) w).1 ≠ .error .crashed →
        ∀ c, (w.stored c).Active → c ∈ w.sessions ∨ Queued w c)

/-- The condition on a step: no recording session is evicted, and the worker is killed only
when what is stored can be recovered. -/
def Careful (cfg : Settings) (w : World) : LifeStep → Prop
  | .work a => ¬ Evicts cfg w a
  | .crash => Claimed cfg w
  | .killed a o => Prepared cfg w o.1 a

/-! ## One channel -/

/-- The rows in flight are owned, and the status does not hide a live recording. -/
structure View.Tended (v : View) : Prop where
  /-- A row in flight has its owner. -/
  owned : v.Owned
  /-- A channel with a session has a row. -/
  known : v.session ≠ none → v.status ≠ none
  alert : ∀ r s x, v.rows r ≠ none → v.session = some (s, x) → x.isConnected = true →
    v.toStored.Active

/-- A channel of a worker whose heartbeat has just listed its sessions: whenever the worker
is killed, the channel can be recovered. -/
structure View.Shielded (listed waiting : Prop) (v : View) : Prop where
  /-- A row in flight has its owner. -/
  owned : v.Owned
  /-- A channel with a session has a row. -/
  known : v.session ≠ none → v.status ≠ none
  /-- What has a session is claimed by the worker row. -/
  held : v.session ≠ none → listed
  /-- What is stored can be recovered from. -/
  stored : v.toStored.Recoverable listed waiting

/-- An active status makes the channel active. -/
theorem Stored.active_of_status {x : Stored} {st : ChannelStatus} (h : x.status = some st)
    (hst : st ∈ activeStatuses) : x.Active := by
  simp [Stored.Active, h, hst]

/-- A write to `recording` makes a channel active that exists. -/
theorem Stored.active_recording {x : Stored} (h : x.status ≠ none)
    (rows : RecordingId → Option SessionId) :
    (Stored.mk (x.status.map fun _ => .recording) rows).Active := by
  obtain ⟨st, hst⟩ := Option.ne_none_iff_exists'.mp h
  have hrec : (Stored.mk (x.status.map fun _ => .recording) rows).status = some .recording := by
    simp [hst]
  exact Stored.active_of_status hrec (by simp [activeStatuses])

/-- A guarded write of a status that is not active makes no channel active. -/
theorem Stored.active_of_writeIf {x : Stored} {sts : List ChannelStatus} {st : ChannelStatus}
    (hst : st ∉ activeStatuses) (rows : RecordingId → Option SessionId)
    (h : Stored.Active { x.writeIf sts st with rows := rows }) : x.Active := by
  unfold Stored.Active Stored.writeIf at h
  simp only at h
  split at h
  · exact absurd h (by simp [hst])
  · exact h

/-- `connecting` and `connected` are both active. -/
theorem Stored.active_marked {x : Stored} :
    (x.writeIf [.connecting] .connected).Active ↔ x.Active := by
  unfold Stored.Active Stored.writeIf
  cases x.status with
  | none => simp
  | some st => cases st <;> simp [activeStatuses]

namespace View

variable {died : Bool} {fresh : ℕ} {works wanted listed waiting : Prop} {v v' : View}

/-- Only a recording session owns a row. -/
theorem Owned.not_row (h : v.Owned) {s : SessionId} {x : ChannelSession}
    (hs : v.session = some (s, x)) (hrec : x.recording = false) (r : RecordingId) :
    v.rows r = none := by
  refine h.rows_none (fun s' x' hs' => ?_) r
  obtain ⟨-, rfl⟩ := Prod.mk.inj (Option.some.inj (hs.symm.trans hs'))
  exact hrec

/-- Without a session no row is in flight. -/
theorem Owned.not_row_of_absent (h : v.Owned) (hs : v.session = none) (r : RecordingId) :
    v.rows r = none :=
  h.rows_none (fun s x hs' => absurd (hs.symm.trans hs') (by simp)) r

/-- A row in flight is remembered. -/
theorem Owned.not_row_of_unknown (h : v.Owned) (hid : v.recordingId = none) (r : RecordingId) :
    v.rows r = none := by
  cases hr : v.rows r with
  | none => rfl
  | some s => exact absurd (hid.symm.trans (h r s hr).1) (by simp)

/-- There is one at most. -/
theorem Owned.unique (h : v.Owned) (r r' : RecordingId) (hr : v.rows r ≠ none)
    (hr' : v.rows r' ≠ none) : r = r' := by
  obtain ⟨s, hs⟩ := Option.ne_none_iff_exists'.mp hr
  obtain ⟨s', hs'⟩ := Option.ne_none_iff_exists'.mp hr'
  exact Option.some.inj ((h r s hs).1.symm.trans (h r' s' hs').1)

/-! ### A channel that is shielded -/

/-- A channel without rows in flight that is listed while it has a session. -/
theorem Shielded.of_no_rows (howned : v'.Owned) (hrows : ∀ r, v'.rows r = none)
    (hknown : v'.session ≠ none → v'.status ≠ none) (hlisted : v'.session ≠ none → listed)
    (hactive : v'.toStored.Active → listed ∨ waiting) : v'.Shielded listed waiting where
  owned := howned
  known := hknown
  held := hlisted
  stored := ⟨hactive, fun r hr => absurd (hrows r) hr, fun r _ hr => absurd (hrows r) hr⟩

/-- A start keeps the channel recoverable. -/
theorem Shielded.start (h : v.Shielded listed waiting) (hstep : StartStep died fresh v v') :
    v'.Shielded listed waiting := by
  have howned := h.owned.start hstep
  cases hstep with
  | absent hs => exact ⟨howned, h.known, h.held, h.stored⟩
  | dead s x x' hs hseen =>
    have hne : v.session ≠ none := by simp [hs]
    exact ⟨howned, fun _ => h.known hne, fun _ => h.held hne, h.stored⟩
  | already s x hs hup hrec => exact ⟨howned, h.known, h.held, h.stored⟩
  | opened s x y hs hup hrec hy hy' =>
    have hne : v.session ≠ none := by simp [hs]
    have hact := Stored.active_recording (h.known hne) (Function.update v.rows fresh (some s))
    exact ⟨howned, fun _ => by simpa using h.known hne, fun _ => h.held hne,
      fun _ => Or.inl (h.held hne), fun _ _ => ⟨h.held hne, hact⟩, howned.unique⟩
  | failed s x y up y' hs hup hrec hy hd hseen =>
    have hne : v.session ≠ none := by simp [hs]
    exact Shielded.of_no_rows howned (howned.not_row_of_unknown rfl)
      (fun _ => by simpa using h.known hne) (fun _ => h.held hne) fun _ => Or.inl (h.held hne)

/-- So does a stop. -/
theorem Shielded.stop (h : v.Shielded listed waiting) (hstep : StopStep died v v') :
    v'.Shielded listed waiting := by
  have howned := h.owned.stop hstep
  cases hstep with
  | absent t hs ht =>
    refine Shielded.of_no_rows howned (howned.not_row_of_absent hs) (fun hne => absurd hs hne)
      (fun hne => absurd hs hne) fun hact => h.stored.active ?_
    exact Stored.active_of_writeIf (by simp [activeStatuses]) _ hact
  | finalized s x y t up y' hs hrec ht hy hy' hseen =>
    have hne : v.session ≠ none := by simp [hs]
    exact Shielded.of_no_rows howned (howned.not_row_of_unknown rfl)
      (fun _ => by simpa using h.known hne) (fun _ => h.held hne) fun _ => Or.inl (h.held hne)
  | idle s x up x' hs hrec hr hseen =>
    have hne : v.session ≠ none := by simp [hs]
    exact Shielded.of_no_rows howned (howned.not_row_of_unknown hr)
      (fun _ => by simpa using h.known hne) (fun _ => h.held hne) fun _ => Or.inl (h.held hne)

/-- And a disconnect. -/
theorem Shielded.disconnect (h : v.Shielded listed waiting) (hstep : DisconnectStep v v') :
    v'.Shielded listed waiting := by
  have howned := h.owned.disconnect hstep
  have hwrite : ∀ rows,
      Stored.Active { v.toStored.writeIf activeStatuses .idle with rows := rows } →
      listed ∨ waiting := fun rows hact =>
    h.stored.active (Stored.active_of_writeIf (by simp [activeStatuses]) rows hact)
  cases hstep with
  | absent hs =>
    exact Shielded.of_no_rows howned (howned.not_row_of_absent hs) (fun hne => absurd hs hne)
      (fun hne => absurd hs hne) (hwrite v.rows)
  | idle s x hs hrec =>
    exact Shielded.of_no_rows howned (howned.not_row_of_absent rfl) (fun hne => absurd rfl hne)
      (fun hne => absurd rfl hne) (hwrite v.rows)
  | finalized s x t hs hrec ht =>
    exact Shielded.of_no_rows howned (howned.not_row_of_absent rfl) (fun hne => absurd rfl hne)
      (fun hne => absurd rfl hne) (hwrite _)

end View

/-! ### What a kill leaves -/

section Killed

variable {fresh : ℕ} {works listed waiting : Prop} {v : View} {x : Stored}

/-- A row of a listed channel that had none can be recovered. -/
theorem Stored.recoverable_inserted (hrows : ∀ r, v.rows r = none) (hst : v.status ≠ none)
    (hl : listed) (r : RecordingId) (s : SessionId) :
    (Stored.mk (v.status.map fun _ => .recording) (Function.update v.rows r (some s))).Recoverable
      listed waiting := by
  have hact := Stored.active_recording hst (Function.update v.rows r (some s))
  have honly : ∀ r', Function.update v.rows r (some s) r' ≠ none → r' = r := by
    intro r' hr'
    by_contra hne
    exact hr' (by simp [hne, hrows])
  exact ⟨fun _ => Or.inl hl, fun _ _ => ⟨hl, hact⟩,
    fun r₁ r₂ h₁ h₂ => (honly r₁ h₁).trans (honly r₂ h₂).symm⟩

/-- A start that is killed leaves a row that the next start of the worker finds. -/
theorem StartKilled.recoverable (hk : StartKilled fresh v x)
    (h : v.toStored.Recoverable listed waiting) (howned : v.Owned)
    (hknown : v.session ≠ none → v.status ≠ none) (hlisted : v.session ≠ none → listed) :
    x.Recoverable listed waiting := by
  cases hk with
  | before => exact h
  | inserted s y hs hup hrec =>
    have hne : v.session ≠ none := by simp [hs]
    exact Stored.recoverable_inserted (howned.not_row hs hrec) (hknown hne) (hlisted hne) fresh s

/-- Finishing a row does not take anything away from the recovery. -/
theorem FinalizeKilled.recoverable (hk : FinalizeKilled v x)
    (h : v.toStored.Recoverable listed waiting) : x.Recoverable listed waiting := by
  cases hk with
  | before => exact h
  | finalized s y t hs hrec ht =>
    have hold : ∀ r, dropRow t v.rows r ≠ none → v.rows r ≠ none := by
      intro r hr
      obtain ⟨s', hs'⟩ := Option.ne_none_iff_exists'.mp hr
      simp [(dropRow_eq_some.mp hs').2]
    exact ⟨h.active, fun r hr => h.rows r (hold r hr),
      fun r r' hr hr' => h.unique r r' (hold r hr) (hold r' hr')⟩

/-- A connect that is killed leaves its job or a listed channel. -/
theorem ConnectKilled.recoverable (hk : ConnectKilled fresh works v x)
    (h : v.toStored.Recoverable listed waiting) (hv : v.Tended)
    (hwanted : v.status = some .starting ∨ v.pending = true → listed)
    (hworks : works → v.status ≠ none ∧ ∀ r, v.rows r = none) : x.Recoverable listed waiting := by
  cases hk with
  | before => exact h
  | marked =>
    exact ⟨fun hact => h.active (Stored.active_marked.mp hact),
      fun r hr => ⟨(h.rows r hr).1, Stored.active_marked.mpr (h.rows r hr).2⟩, h.unique⟩
  | restarted s y hs hup hrec hp =>
    exact Stored.recoverable_inserted (hv.owned.not_row hs hrec) (hv.known (by simp [hs]))
      (hwanted (Or.inr hp)) fresh s
  | started hw hwant =>
    exact Stored.recoverable_inserted (hworks hw).2 (hworks hw).1 (hwanted hwant) (fresh + 1) fresh

end Killed

/-! ### A channel in a run -/

namespace View

variable {died : Bool} {fresh : ℕ} {works wanted : Prop} {v v' : View}

/-- A channel without rows is tended. -/
theorem Tended.of_no_rows (howned : v'.Owned) (hrows : ∀ r, v'.rows r = none)
    (hknown : v'.session ≠ none → v'.status ≠ none) : v'.Tended where
  owned := howned
  known := hknown
  alert := fun r _ _ hr => absurd (hrows r) hr

/-- A start tends what it leaves. -/
theorem Tended.start (h : v.Tended) (hstep : StartStep died fresh v v') : v'.Tended := by
  have howned := h.owned.start hstep
  cases hstep with
  | absent hs => exact ⟨howned, h.known, h.alert⟩
  | dead s x x' hs hseen =>
    refine ⟨howned, fun _ => h.known (by simp [hs]), fun r s' y _ hy hup => ?_⟩
    obtain ⟨-, rfl⟩ := Prod.mk.inj (Option.some.inj hy)
    exact absurd hup (by simp [hseen.isConnected_eq])
  | already s x hs hup hrec => exact ⟨howned, h.known, h.alert⟩
  | opened s x y hs hup hrec hy hy' =>
    have hst := h.known (by simp [hs])
    exact ⟨howned, fun _ => by simpa using hst, fun _ _ _ _ _ _ => Stored.active_recording hst _⟩
  | failed s x y up y' hs hup hrec hy hd hseen =>
    exact Tended.of_no_rows howned (howned.not_row_of_unknown rfl)
      fun _ => by simpa using h.known (by simp [hs])

/-- A stop does. -/
theorem Tended.stop (h : v.Tended) (hstep : StopStep died v v') : v'.Tended := by
  have howned := h.owned.stop hstep
  cases hstep with
  | absent t hs ht =>
    exact Tended.of_no_rows howned (howned.not_row_of_absent hs) fun hne => absurd hs hne
  | finalized s x y t up y' hs hrec ht hy hy' hseen =>
    exact Tended.of_no_rows howned (howned.not_row_of_unknown rfl)
      fun _ => by simpa using h.known (by simp [hs])
  | idle s x up x' hs hrec hr hseen =>
    exact Tended.of_no_rows howned (howned.not_row_of_unknown hr)
      fun _ => by simpa using h.known (by simp [hs])

/-- A disconnect does. -/
theorem Tended.disconnect (h : v.Tended) (hstep : DisconnectStep v v') : v'.Tended := by
  have howned := h.owned.disconnect hstep
  cases hstep with
  | absent hs =>
    exact Tended.of_no_rows howned (howned.not_row_of_absent hs) fun hne => absurd hs hne
  | idle s x hs hrec =>
    exact Tended.of_no_rows howned (howned.not_row_of_absent rfl) fun hne => absurd rfl hne
  | finalized s x t hs hrec ht =>
    exact Tended.of_no_rows howned (howned.not_row_of_absent rfl) fun hne => absurd rfl hne

/-- And a heartbeat. -/
theorem Tended.heartbeat (h : v.Tended) (hstep : HeartbeatStep v v') : v'.Tended := by
  have howned := h.owned.heartbeat hstep
  cases hstep with
  | absent hs => exact h
  | up s x hs hup => exact h
  | dead s x t hs ht =>
    exact Tended.of_no_rows howned (howned.not_row_of_absent rfl) fun hne => absurd rfl hne

/-- Also a connect that starts a recording. -/
theorem Tended.maybeStart (h : v.Tended) (hstep : MaybeStart died fresh wanted v v') :
    v'.Tended := by
  cases hstep with
  | skipped _ => exact h
  | started v' _ hstart => exact h.start hstart

/-- A channel whose session is not up, whatever its status becomes. -/
theorem Tended.notUp (h : v.Tended) (hnot : NotUp died v v') {x : Stored}
    (hrows : x.rows = v'.rows) (hst : v'.status ≠ none → x.status ≠ none) :
    View.Tended { v' with toStored := x } := by
  have howned := h.owned.notUp hnot
  refine ⟨?_, fun hne => hst ?_, fun r s y _ hy hup => ?_⟩
  · intro r s hr
    exact howned r s (hrows ▸ hr)
  · cases hnot with
    | absent hs => exact h.known hne
    | dead s x x' hs hseen => exact h.known (by simp [hs])
  · exact absurd hup (by simp [hnot.not_connected hy])

/-- A connect handler that does not take the place of a recording session. -/
theorem Tended.connect (h : v.Tended) (hstep : ConnectStep died fresh works v v')
    (hcare : ¬ (works ∧ ∃ s x, v.session = some (s, x) ∧ x.recording = true)) : v'.Tended := by
  have howned := h.owned.connect hstep hcare
  cases hstep with
  | already s x v' hs hup hstart =>
    have hmarked : View.Tended { v with
        toStored := v.toStored.writeIf [.connecting] .connected } := by
      refine ⟨h.owned, fun _ => ?_, fun r s x hr hs hup =>
        Stored.active_marked.mpr (h.alert r s x hr hs hup)⟩
      have hst := h.known (by simp [hs])
      simp only [Stored.writeIf]
      split
      · simp
      · exact hst
    exact hmarked.maybeStart hstart
  | full v₁ hnot =>
    refine h.notUp hnot rfl fun hst => ?_
    simp only [Stored.writeIf]
    split
    · simp
    · exact hst
  | opens v₁ v' hnot hopen =>
    cases hopen with
    | unknown hst => exact h.notUp hnot rfl id
    | failed => exact h.notUp hnot rfl fun hst => by simpa using hst
    | opened x v' hw hst hx hx' hstart =>
      -- The old session was not recording, so there is no row to lose.
      have hrec : ∀ s x, v.session = some (s, x) → x.recording = false := by
        intro s y hs
        by_contra hy
        exact hcare ⟨hw, s, y, hs, by simpa using hy⟩
      have hrows : ∀ r, v₁.rows r = none := by
        cases hnot with
        | absent hs => exact h.owned.rows_none hrec
        | dead s x x' hs hseen => exact h.owned.rows_none hrec
      have hopened : View.Tended { v₁ with toStored := v₁.toStored.writeIf [.connecting] .connected,
                                           session := some (fresh, x) } := by
        refine Tended.of_no_rows (owned_of_rows hrows) hrows fun _ => ?_
        simp only [Stored.writeIf]
        split
        · simp
        · exact hst
      exact hopened.maybeStart hstart

/-- The intent of an accepted request is an active status. -/
theorem Tended.request (h : v.Tended) {r : Request} {st : ChannelStatus}
    (hst : v.status = some st) (hacc : r.accepts st = true) :
    View.Tended { v with toStored := v.toStored.write (r.intent st) } := by
  have hact : r.intent st ∈ activeStatuses := by
    cases r <;> cases st <;> simp_all [Request.intent, Request.accepts, activeStatuses]
  refine ⟨h.owned, fun _ => by simp [hst], fun _ _ _ _ _ _ => ?_⟩
  exact Stored.active_of_status (by simp [hst]) hact

end View

/-! ## The worker -/

/-- The worker is registered, and every channel is as it should be. -/
structure Tended (cfg : Settings) (w : World) : Prop where
  sound : Sound w
  /-- Every channel is tended. -/
  views : ∀ c, (w.view c).Tended
  /-- There is a row for the worker. -/
  worker : ∃ row, w.db.workers.lookup cfg.workerId = some row

/-- The heartbeat has just listed the sessions. -/
structure Shielded (cfg : Settings) (w : World) : Prop where
  sound : Sound w
  views : ∀ c, (w.view c).Shielded (Listed cfg w c) (Queued w c)

/-- What is stored can be recovered. -/
structure Recoverable (cfg : Settings) (w : World) : Prop where
  rows_lt : ∀ r row, w.db.recordings.lookup r = some row → r < w.nextId
  stored : ∀ c, (w.stored c).Recoverable (Listed cfg w c) (Waiting w c)

section Worker

variable {cfg : Settings} {o : Oracle Call} {n : ℕ} {c : ChannelId} {w w' : World}

/-- A tended worker owns its rows. -/
theorem Tended.owned (h : Tended cfg w) : Owned w := ⟨h.sound, fun c => (h.views c).owned⟩

/-- Jobs that are queued are waiting. -/
theorem Queued.waiting (h : Queued w c) : Waiting w c := by
  obtain ⟨job, hjob, hname⟩ := h
  exact ⟨.connect, rfl, job, hjob, hname⟩

/-- More waiting jobs recover more. -/
theorem Stored.Recoverable.mono {listed waiting waiting' : Prop} {x : Stored}
    (h : x.Recoverable listed waiting) (hw : waiting → waiting') : x.Recoverable listed waiting' :=
  ⟨fun hact => (h.active hact).imp_right hw, h.rows, h.unique⟩

/-- What the worker row claims can be recovered, if the rows are owned. -/
theorem Claimed.recoverable (h : Claimed cfg w) (hw : Tended cfg w) (c : ChannelId) :
    (w.stored c).Recoverable (Listed cfg w c) (Waiting w c) := by
  refine ⟨h.active c, fun r hr => ?_, (hw.views c).owned.unique⟩
  obtain ⟨s, hs⟩ := Option.ne_none_iff_exists'.mp hr
  exact h.rows c r (Database.inFlight_iff_rowsOf.mpr ⟨s, hs⟩)

/-- A kill that leaves everything stored as it was. -/
theorem recoverable_of_sameStore (h : Claimed cfg w) (hw : Tended cfg w) (hs : SameStore w' w) :
    Recoverable cfg w' := by
  refine ⟨?_, fun c => ?_⟩
  · rw [hs.db, hs.nextId]
    exact hw.sound.rows_lt
  · rw [hs.stored_eq, listed_congr (w := w) (by rw [hs.db]), waiting_congr hs.jobs]
    exact h.recoverable hw c

/-- **A kill inside a handler** concerns one channel. -/
theorem Killed.recoverable {killed : Stored → Prop} (hk : Killed o c w killed w') (hw : Sound w)
    (h : ∀ d, (w.stored d).Recoverable (Listed cfg w d) (Waiting w d))
    (hc : ∀ x, killed x → x.Recoverable (Listed cfg w c) (Waiting w c)) : Recoverable cfg w' := by
  refine ⟨hk.store.rows_lt hw, fun d => ?_⟩
  rw [listed_congr hk.store.workers, waiting_congr hk.store.jobs]
  by_cases hd : d = c
  · exact hd ▸ hc _ (hk.stored hw)
  · rw [hk.store.stored hw d hd]
    exact h d

/-- A shielded worker may be killed at once. -/
theorem Shielded.recoverable (h : Shielded cfg w) : Recoverable cfg w :=
  ⟨h.sound.rows_lt, fun c => (h.views c).stored.mono Queued.waiting⟩

/-- A step on one channel keeps the shield if it keeps that channel's. -/
theorem Shielded.of_local (h : Shielded cfg w) (hloc : Local c w w')
    (hc : (w'.view c).Shielded (Listed cfg w c) (Queued w c)) : Shielded cfg w' := by
  refine ⟨hloc.sound h.sound, fun d => ?_⟩
  have hq : Queued w' d ↔ Queued w d := by simp [Queued, hloc.jobs .connect rfl]
  rw [listed_congr hloc.workers, hq]
  by_cases hd : d = c
  · exact hd ▸ hc
  · rw [hloc.views h.sound d hd]
    exact h.views d

/-- **Whenever a control handler is killed, what it leaves can be recovered.** -/
theorem Shielded.handler (h : Shielded cfg w) (ho : Steady o) (op : Op) (c : ChannelId) :
    wp o (IngestWorker.handlers op c)
      (fun _ _ w' => Shielded cfg w') (fun _ _ w' => Shielded cfg w')
      (Recoverable cfg) n w := by
  have hc := h.views c
  have hrec := hc.stored.mono Queued.waiting
  have hkilled : ∀ killed u, Killed o c w killed u →
      (∀ x, killed x → x.Recoverable (Listed cfg w c) (Waiting w c)) → Recoverable cfg u :=
    fun _ _ hk => hk.recoverable h.sound h.recoverable.stored
  cases op with
  | disconnect =>
    exact wp_mono (handleDisconnect_acts ho c n w)
      (fun _ _ _ hw' => h.of_local hw'.1 (hc.disconnect (hw'.2 h.sound))) (fun _ _ _ hf => hf.elim)
      fun u hu => hkilled _ u hu fun x hx => FinalizeKilled.recoverable hx hrec
  | stop =>
    exact wp_mono (handleRecordStop_acts ho c n w)
      (fun _ _ _ hw' => h.of_local hw'.1 (hc.stop (hw'.2 h.sound))) (fun _ _ _ hf => hf.elim)
      fun u hu => hkilled _ u hu fun x hx => FinalizeKilled.recoverable hx hrec
  | start =>
    exact wp_mono (handleRecordStart_acts ho c n w)
      (fun _ _ _ hw' => h.of_local hw'.1 (hc.start (hw'.2 h.sound))) (fun _ _ _ hf => hf.elim)
      fun u hu => hkilled _ u hu fun x hx =>
        StartKilled.recoverable hx hrec hc.owned hc.known hc.held

/-- The drain does not pop connect jobs. -/
theorem drainable_shielded : Drainable (Shielded cfg) := by
  refine ⟨fun w q raw rest hq h _ => ?_, fun w e h => ?_⟩
  · refine ⟨⟨h.sound.distinct, h.sound.sessions_lt, h.sound.rows_lt, h.sound.known⟩, fun c => ?_⟩
    have hne : Queue.connect ≠ q := by
      rintro rfl
      simp [controlQueues] at hq
    have hqueued : Queued (w.setList q rest) c ↔ Queued w c := by simp [Queued, hne]
    rw [hqueued]
    exact h.views c
  · exact ⟨⟨h.sound.distinct, h.sound.sessions_lt, h.sound.rows_lt, h.sound.known⟩, h.views⟩

/-- **After a heartbeat every channel is shielded** that has a session or a connect job. -/
theorem Tended.shielded (h : Tended cfg w) (hbeat : Beat cfg w w')
    (hheld : ∀ c, (w.stored c).Active → c ∈ w.sessions ∨ Queued w c) : Shielded cfg w' := by
  obtain ⟨row, hrow⟩ := h.worker
  refine ⟨hbeat.sound, fun c => ?_⟩
  have hlisted : Listed cfg w' c ↔ c ∈ w.sessions := by
    simp [Listed, hbeat.worker, hrow, WorkerRow.beat, AList.mem_keys]
  have hqueued : Queued w' c ↔ Queued w c := by simp [Queued, hbeat.jobs .connect rfl]
  rw [hlisted, hqueued]
  have hmem : (w.view c).session ≠ none → c ∈ w.sessions := by
    intro hne
    obtain ⟨⟨s, x⟩, hs⟩ := Option.ne_none_iff_exists'.mp hne
    obtain ⟨s', hs', -⟩ := Option.map_eq_some_iff.mp hs
    exact Dict.mem_iff_exists_lookup.mpr ⟨s', hs'⟩
  have hc := h.views c
  have hstep := hbeat.views c
  have howned := hc.owned.heartbeat hstep
  generalize hv : w'.view c = v' at hstep howned ⊢
  cases hstep with
  | absent hs =>
    exact View.Shielded.of_no_rows hc.owned (hc.owned.not_row_of_absent hs) hc.known hmem (hheld c)
  | up s x hs hup =>
    refine ⟨hc.owned, hc.known, hmem, hheld c, fun r hr => ⟨hmem (by rw [hs]; simp), ?_⟩,
      hc.owned.unique⟩
    exact hc.alert r s x hr hs hup
  | dead s x t hs ht =>
    refine View.Shielded.of_no_rows howned (howned.not_row_of_absent rfl)
      (fun hne => absurd rfl hne)
      (fun hne => absurd rfl hne) fun hact => hheld c ?_
    exact Stored.active_of_writeIf (by simp [activeStatuses]) _ hact

end Worker

/-! ## Steps -/

section Steps

variable {cfg : Settings} {o : Oracle Call} {n : ℕ} {c : ChannelId} {w w' : World}

/-- A step on one channel keeps everything as it should be if it keeps that channel so. -/
theorem Tended.of_local (h : Tended cfg w) (hloc : Local c w w') (hc : (w'.view c).Tended) :
    Tended cfg w' := by
  refine ⟨hloc.sound h.sound, fun d => ?_, by rw [hloc.workers]; exact h.worker⟩
  by_cases hd : d = c
  · exact hd ▸ hc
  · rw [hloc.views h.sound d hd]
    exact h.views d

/-- What one handler does to one channel is enough for all of them. -/
theorem Tended.acts {m : Handler Unit} {step : Bool → View → Prop} {killed : Stored → Prop}
    (h : Tended cfg w) (hm : Acts o c w m step killed n w)
    (hstep : ∀ died v', step died v' → v'.Tended) :
    wp o m (fun _ _ w' => Tended cfg w') (fun _ _ w' => Tended cfg w') (fun _ => MayCrash o) n w :=
  wp_mono hm (fun _ _ _ hw' => h.of_local hw'.1 (hstep _ _ (hw'.2 h.sound)))
    (fun _ _ _ hf => hf.elim) fun _ hk => hk.crash

/-- **Every handler of a control job keeps the channels tended.** -/
theorem Tended.handler (h : Tended cfg w) (ho : Steady o) (op : Op) (c : ChannelId) :
    wp o (IngestWorker.handlers op c) (fun _ _ w' => Tended cfg w') (fun _ _ w' => Tended cfg w')
      (fun _ => MayCrash o) n w := by
  cases op with
  | disconnect =>
    exact h.acts (handleDisconnect_acts ho c n w) fun _ _ hv => (h.views c).disconnect hv
  | stop => exact h.acts (handleRecordStop_acts ho c n w) fun _ _ hv => (h.views c).stop hv
  | start => exact h.acts (handleRecordStart_acts ho c n w) fun _ _ hv => (h.views c).start hv

/-- So does a heartbeat, which touches several channels. -/
theorem Tended.beat (h : Tended cfg w) (hbeat : Beat cfg w w') : Tended cfg w' := by
  obtain ⟨row, hrow⟩ := h.worker
  refine ⟨hbeat.sound, fun c => (h.views c).heartbeat (hbeat.views c), ?_⟩
  rw [hbeat.worker, hrow]
  exact ⟨_, rfl⟩

theorem Tended.setList (h : Tended cfg w) (q : Queue) (jobs : List Raw) :
    Tended cfg (w.setList q jobs) :=
  ⟨⟨h.sound.distinct, h.sound.sessions_lt, h.sound.rows_lt, h.sound.known⟩, h.views, h.worker⟩

theorem Tended.note (h : Tended cfg w) (e : Event) : Tended cfg (w.note e) :=
  ⟨⟨h.sound.distinct, h.sound.sessions_lt, h.sound.rows_lt, h.sound.known⟩, h.views, h.worker⟩

/-- **A whole tick keeps them tended.** -/
theorem Tended.tick (h : Tended cfg w) (ho : Steady o) :
    wp o (IngestWorker.glibTick cfg) (fun _ _ w' => Tended cfg w') (fun _ _ w' => Tended cfg w')
      (fun _ => MayCrash o) n w := by
  unfold IngestWorker.glibTick
  rw [wp_attempt, wp_bind]
  refine wp_mono (wp_heartbeat ho h.sound cfg) (fun _ n' w' hbeat => ?_) (fun _ _ _ hf => hf.elim)
    fun _ hk => hk.1
  exact wp_drain_inv ⟨fun _ q _ rest _ h _ => h.setList q rest, fun _ e h => h.note e⟩
    (fun hcrash _ _ => hcrash) (fun op c n w hw => hw.handler ho op c) (h.beat hbeat)

/-- A session that dies is not connected any more. -/
theorem Tended.die (h : Tended cfg w) (s : SessionId) : Tended cfg (w.die s) := by
  refine ⟨⟨h.sound.distinct, h.sound.sessions_lt, h.sound.rows_lt, h.sound.known⟩, fun c => ?_,
    h.worker⟩
  have hc := h.views c
  cases hl : w.sessions.lookup c with
  | none =>
    have hview : (w.die s).view c = w.view c := View.ext rfl rfl (by simp [hl]) rfl rfl
    rwa [hview]
  | some s' =>
    by_cases hs : s' = s
    · subst hs
      have hsession : (w.view c).session = some (s', w.heap s') := by simp [hl]
      have hdead : NotUp true (w.view c) ((w.die s').view c) := by
        refine Eq.mpr (congrArg _ ?_) (NotUp.dead s' _ _ hsession (Seen.ended rfl))
        exact View.ext rfl rfl (by simp [hl]) rfl rfl
      exact hc.notUp hdead rfl id
    · have hview : (w.die s).view c = w.view c := View.ext rfl rfl (by simp [hl, hs]) rfl rfl
      rwa [hview]

/-- A request writes a status and queues a job for it. -/
theorem Tended.request (h : Tended cfg w) (r : Request) (c : ChannelId) :
    Tended cfg (w.request r c) := by
  rcases request_cases r c w with ⟨st, hst, hacc, -, hout⟩ | ⟨-, hout⟩
  · rw [hout]
    refine ⟨sound_outcome h.sound, fun d => ?_, ?_⟩
    · rw [view_outcome]
      split
      · rename_i hd
        subst hd
        exact (h.views d).request hst hacc
      · exact h.views d
    · rw [outcome_eq]
      exact h.worker
  · rwa [hout]

/-- What a program keeps that is not killed. -/
theorem tended_final {m : Handler Unit} (ho : Healthy o)
    (hm : wp o m (fun _ _ w' => Tended cfg w') (fun _ _ w' => Tended cfg w')
      (fun _ => MayCrash o) 0 w) : Tended cfg (final o m w) :=
  final_of_wp (P := Tended cfg) (wp_mono hm (fun _ _ _ h => h) (fun _ _ _ h => h)
    fun _ hcrash => absurd hcrash ho.not_mayCrash)

/-- A connect handler that evicts no recording session. -/
theorem not_evicts {works : Prop} (hcare : ¬ (works ∧ ∃ s, w.sessions.lookup c = some s ∧
    (w.heap s).recording = true)) :
    ¬ (works ∧ ∃ s x, (w.view c).session = some (s, x) ∧ x.recording = true) := by
  rintro ⟨hopen, s, x, hs, hx⟩
  obtain ⟨s', hlook, heq⟩ := Option.map_eq_some_iff.mp hs
  obtain ⟨rfl, rfl⟩ := Prod.mk.inj heq
  exact hcare ⟨hopen, _, hlook, hx⟩

/-- **A step of a worker that is not killed.** -/
theorem tended_work {a : WorkerStep} (h : Tended cfg w) (hcare : ¬ Evicts cfg w a)
    (hstep : a.run cfg w = some w') : Tended cfg w' := by
  cases a with
  | request r c =>
    obtain rfl := Option.some.inj hstep
    exact h.request r c
  | pop q =>
    obtain rfl := Option.some.inj hstep
    exact h.setList q _
  | connect c o =>
    obtain rfl := Option.some.inj hstep
    exact tended_final o.2 (h.acts (handleConnect_acts o.2.steady cfg c 0 w)
      fun _ _ hv => (h.views c).connect hv (not_evicts hcare))
  | control op c o =>
    obtain rfl := Option.some.inj hstep
    exact tended_final o.2 (h.handler o.2.steady op c)
  | reset c o =>
    obtain rfl := Option.some.inj hstep
    exact tended_final o.2 (wp_handleEtr290Reset c (fun _ => h.note _) fun hcrash => hcrash)
  | heartbeat o =>
    obtain rfl := Option.some.inj hstep
    exact tended_final o.2 (wp_mono (wp_heartbeat o.2.steady h.sound cfg)
      (fun _ _ _ hbeat => h.beat hbeat) (fun _ _ _ hf => hf.elim) fun _ hk => hk.1)
  | tick o =>
    obtain rfl := Option.some.inj hstep
    exact tended_final o.2 (h.tick o.2.steady)
  | die s =>
    obtain rfl := Option.some.inj hstep
    exact h.die s

/-- **A tick that is killed** leaves what can be recovered. -/
theorem Tended.wp_tick_killed (h : Tended cfg w) (ho : Steady o) (hcare : Prepared cfg w o .tick) :
    wp o (IngestWorker.glibTick cfg) (fun _ _ _ => True) (fun _ _ _ => True) (Recoverable cfg)
      0 w := by
  unfold IngestWorker.glibTick
  rw [wp_attempt, wp_bind]
  refine wp_mono (wp_self (wp_heartbeat ho h.sound cfg)) (fun _ n' w' hbeat => ?_)
    (fun _ _ _ hf => hf.1.elim) fun w' hk => ?_
  · have hshielded :=
      h.shielded hbeat.1 (hcare.2 fun hx => absurd (hbeat.2.symm.trans hx) (by simp))
    exact wp_mono (wp_drain_inv drainable_shielded (fun _ _ hw => hw.recoverable)
      (fun op c n w hw => hw.handler ho op c) hshielded) (fun _ _ _ _ => trivial)
      (fun _ _ _ _ => trivial) fun _ hw => hw
  · exact recoverable_of_sameStore (hcare.1 hk.2) h hk.1.2

/-- **Whatever the worker is killed in**, what it leaves can be recovered. -/
theorem Tended.wp_killed (h : Tended cfg w) (ho : Steady o) {a : Activity}
    (hcare : Prepared cfg w o a) :
    wp o (a.program cfg) (fun _ _ _ => True) (fun _ _ _ => True) (Recoverable cfg) 0 w := by
  -- For each program: where it can be struck, and that what is stored there can be recovered.
  cases a with
  | connect c =>
    obtain ⟨hclaimed, hwanted, hevict⟩ := hcare
    have hrec := hclaimed.recoverable h
    refine wp_mono (handleConnect_acts ho cfg c 0 w) (fun _ _ _ _ => trivial)
      (fun _ _ _ hf => hf.elim) fun u hu => hu.recoverable h.sound hrec fun x hx => ?_
    refine ConnectKilled.recoverable hx (hrec c) (h.views c) (fun hw => hwanted ?_) fun hopen => ?_
    · exact hw.imp_right fun hp => by simpa using hp
    · refine ⟨hopen.2.1, (h.views c).owned.rows_none fun s y hs => ?_⟩
      by_contra hy
      exact not_evicts hevict ⟨hopen, s, y, hs, by simpa using hy⟩
  | control op c =>
    obtain ⟨hclaimed, hlisted⟩ := hcare
    have hrec := hclaimed.recoverable h
    cases op with
    | disconnect =>
      refine wp_mono (handleDisconnect_acts ho c 0 w) (fun _ _ _ _ => trivial)
        (fun _ _ _ hf => hf.elim) fun u hu => hu.recoverable h.sound hrec fun x hx => ?_
      exact FinalizeKilled.recoverable hx (hrec c)
    | stop =>
      refine wp_mono (handleRecordStop_acts ho c 0 w) (fun _ _ _ _ => trivial)
        (fun _ _ _ hf => hf.elim) fun u hu => hu.recoverable h.sound hrec fun x hx => ?_
      exact FinalizeKilled.recoverable hx (hrec c)
    | start =>
      refine wp_mono (handleRecordStart_acts ho c 0 w) (fun _ _ _ _ => trivial)
        (fun _ _ _ hf => hf.elim) fun u hu => hu.recoverable h.sound hrec fun x hx => ?_
      refine StartKilled.recoverable hx (hrec c) (h.views c).owned (h.views c).known fun hne => ?_
      obtain ⟨p, hp⟩ := Option.ne_none_iff_exists'.mp hne
      obtain ⟨s, hs, -⟩ := Option.map_eq_some_iff.mp hp
      exact hlisted rfl (Dict.mem_iff_exists_lookup.mpr ⟨s, hs⟩)
  | reset c =>
    refine wp_handleEtr290Reset c (fun _ => trivial) fun _ => ?_
    exact recoverable_of_sameStore hcare h ⟨rfl, fun _ _ => rfl, rfl, rfl, rfl⟩
  | heartbeat =>
    exact wp_mono (wp_heartbeat ho h.sound cfg) (fun _ _ _ _ => trivial) (fun _ _ _ hf => hf.elim)
      fun u hu => recoverable_of_sameStore hcare h hu.2
  | tick => exact h.wp_tick_killed ho hcare

/-- **A kill** is followed by a complete recovery. -/
theorem recoverable_of_kill {a : LifeStep} (h : Tended cfg w) (hcare : Careful cfg w a)
    (hkill : a.Kills) (hstep : a.run cfg w = some w') :
    ∃ u, Recoverable cfg u ∧ w' = u.restart cfg := by
  cases a with
  | work a => exact hkill.elim
  | crash =>
    exact ⟨w, recoverable_of_sameStore hcare h (SameStore.rfl' w), (Option.some.inj hstep).symm⟩
  | killed a o =>
    have hwp := h.wp_killed (fun n k hf => Or.inl (o.2 n k hf)) hcare
    simp only [LifeStep.run] at hstep
    split at hstep
    · rename_i u hu
      exact ⟨u, crashed_of_wp hwp hu, (Option.some.inj hstep).symm⟩
    · exact absurd hstep (by simp)

/-- A worker that has recovered starts afresh. -/
theorem tended_restart {u : World}
    (hlt : ∀ r row, u.db.recordings.lookup r = some row → r < u.nextId)
    (hrec : ∀ c r, (u.restart cfg).db.rowsOf c r = none) : Tended cfg (u.restart cfg) := by
  have h := restarted cfg u hlt
  refine ⟨h.sound, fun c => ?_, h.worker⟩
  refine View.Tended.of_no_rows (View.owned_of_rows (hrec c)) (hrec c) fun hne => absurd ?_ hne
  simp [h.sessions]

/-- **One step**, killed or not. -/
theorem tended_step {a : LifeStep} (h : Tended cfg w) (hcare : Careful cfg w a)
    (hstep : a.run cfg w = some w') : Tended cfg w' := by
  have hkilled : a.Kills → Tended cfg w' := by
    intro hkill
    obtain ⟨u, hu, rfl⟩ := recoverable_of_kill h hcare hkill hstep
    have hrec := (recovered_restart_iff cfg hu.rows_lt).mpr hu.stored
    exact tended_restart hu.rows_lt fun c r => rows_ended_iff.mp hrec.rows c r
  cases a with
  | work a => exact tended_work h hcare hstep
  | crash => exact hkilled trivial
  | killed a o => exact hkilled trivial

end Steps

/-- A worker that starts on a database without rows in flight. -/
theorem tended_of_pristine {cfg : Settings} {w : World} (hw : Pristine w) :
    Tended cfg (w.restart cfg) := by
  refine tended_restart hw.rows_lt fun c r => ?_
  have hnone : ∀ c r, w.db.rowsOf c r = none := by
    intro c r
    by_contra hne
    obtain ⟨s, hs⟩ := Option.ne_none_iff_exists'.mp hne
    exact hw.idle c r (Database.inFlight_iff_rowsOf.mpr ⟨s, hs⟩)
  have h := restarted cfg w hw.rows_lt
  by_cases hno : Listed cfg w c ∧ (w.stored c).Active
  · have hst := congrArg Stored.rows (h.orphaned c hno.1 hno.2)
    apply (congrFun hst r).trans
    cases hr : dropRow (w.db.activeRecording c) (w.db.rowsOf c) r with
    | none => exact hr
    | some s => exact absurd (dropRow_eq_some.mp hr).2 (by simp [hnone])
  · exact (congrFun (congrArg Stored.rows (h.kept c hno)) r).trans (hnone c r)

/-- **In every careful run, the restart after a kill recovers everything.** -/
theorem recovered_along {cfg : Settings} {w w' w'' : World} {as : List LifeStep} {a : LifeStep}
    (hw : Pristine w)
    (hcare : Runs.Along (Careful cfg) (LifeStep.run cfg) (w.restart cfg) as)
    (hrun : Runs.run (LifeStep.run cfg) (w.restart cfg) as = some w')
    (hkill : a.Kills) (hprepared : Careful cfg w' a) (hstep : a.run cfg w' = some w'') :
    Recovered w'' := by
  have htended := Runs.run_invariant (I := Tended cfg)
    (fun _ _ _ h hok hstep => tended_step h hok hstep) as _ w' (tended_of_pristine hw) hcare hrun
  obtain ⟨u, hu, rfl⟩ := recoverable_of_kill htended hprepared hkill hstep
  exact (recovered_restart_iff cfg hu.rows_lt).mpr hu.stored

/-- A channel without a session, on a registered worker. -/
def offline : World :=
  World.fresh
    { channels := Dict.set (.str "a") ⟨"A", .udp, .idle⟩ ∅
      recordings := ∅
      workers := Dict.set "worker" ⟨none, [], 8⟩ ∅ } 0

/-- The worker of the witnesses has just been installed. -/
theorem pristine_offline : Pristine offline where
  sessions := rfl
  recordingIds := rfl
  rows_lt := by simp [offline, World.fresh]
  idle := by simp [offline, World.fresh, Database.InFlight]

/-- A kill between a connect and the next heartbeat: the channel stays `connected`, with no
session, no job, and no mention on the worker row. -/
theorem crash_before_heartbeat_strands_channel :
    ¬ ∀ (cfg : Settings) (w w' w'' : World) (as : List LifeStep) (a : LifeStep), Pristine w →
      Runs.run (LifeStep.run cfg) (w.restart cfg) as = some w' → a.Kills →
      a.run cfg w' = some w'' → Recovered w'' := by
  intro h
  have hrec := h ⟨"worker", 8⟩ offline _ _ [.work (.request .connect (.str "a")),
    .work (.pop .connect), .work (.connect (.str "a") .good)] .crash pristine_offline rfl
    trivial rfl
  obtain ⟨q, -, job, hjob, -⟩ := hrec.active (.str "a") rfl
  have hnil : job ∈ ([] : List Raw) := by
    cases q <;> exact hjob
  exact absurd hnil List.not_mem_nil

/-- A connect that was asked for is recovered after a kill. -/
theorem recovered_along_offline :
    Recovered ((final allOk (IngestWorker.heartbeat ⟨"worker", 8⟩)
      (final allOk (IngestWorker.handleConnect ⟨"worker", 8⟩ (.str "a"))
        ((offline.restart ⟨"worker", 8⟩).request .connect (.str "a")))).restart ⟨"worker", 8⟩) := by
  refine @recovered_along ⟨"worker", 8⟩ offline _ _ [.work (.request .connect (.str "a")),
    .work (.connect (.str "a") .good), .work (.heartbeat .good)] .crash pristine_offline ?_ rfl
    trivial ⟨fun c hact => Or.inl ?_, fun c r hr => ?_⟩ rfl
  · refine Runs.along_cons (fun h => h) rfl (Runs.along_cons ?_ rfl
      (Runs.along_cons (fun h => h) rfl trivial))
    rintro ⟨-, s, hs, -⟩
    have hnone : none = some s := hs
    exact absurd hnone (by simp)
  · -- Only channel `a` has a status, and the heartbeat has listed it.
    have hlook : Stored.Active ⟨((Dict.set (.str "a") ⟨"A", .udp, .connected⟩ ∅ :
        Dict ChannelId Channel).lookup c).map Channel.status, fun _ => none⟩ := hact
    rw [Dict.lookup_set] at hlook
    split at hlook
    · rename_i hc
      exact ⟨⟨some 0, [.str "a"], 8⟩, rfl, hc ▸ List.mem_singleton_self _⟩
    · exact absurd hlook (by simp [Stored.Active])
  · obtain ⟨row, hrow, -⟩ := hr
    have hnone : (∅ : Dict RecordingId Recording).lookup r = some row := hrow
    exact absurd hnone (by simp)
