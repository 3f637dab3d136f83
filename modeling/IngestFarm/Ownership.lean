/-
# Who owns a recording row

A row in flight belongs to the live session of its channel: `_sessions`, `_recording_ids`
and the session's own flag all point at it.  Every handler and the heartbeat keep that,
session deaths and requests of the scheduler in between included, except for one: a connect
handler that finds the channel's recording session dead before the heartbeat does puts a
fresh session in its place, and the row has lost its owner.

The invariant is one of views, `View.Owned`, so each relation of `Steps` keeps it by cases, and the
run theorem only adds that no session belongs to two channels.  The exception is a condition on the
step (`Evicts`): a connect handler opens a session in the place of one that is recording.
-/
import IngestFarm.Heartbeat
import IngestFarm.Drain
import IngestFarm.Requests
import IngestFarm.Runs

open Prog

/-- One behaviour of the environment of a worker that is never killed. -/
abbrev Environment := {o : Oracle Call // Healthy o}

/-- One step of a worker, or of what surrounds it. -/
inductive WorkerStep where
  /-- A request of the scheduler. -/
  | request (r : Request) (c : ChannelId)
  /-- The head of a list is taken off. -/
  | pop (q : Queue)
  /-- A connect handler. -/
  | connect (c : ChannelId) (o : Environment)
  /-- A control handler. -/
  | control (op : Op) (c : ChannelId) (o : Environment)
  /-- A reset handler. -/
  | reset (c : ChannelId) (o : Environment)
  /-- A heartbeat. -/
  | heartbeat (o : Environment)
  /-- A whole tick. -/
  | tick (o : Environment)
  /-- A session dies. -/
  | die (s : SessionId)

/-- The state after a step.  A tick is `heartbeat`, `pop`s, `control`s and `reset`s in one. -/
def WorkerStep.run (cfg : Settings) (w : World) : WorkerStep → Option World
  | request r c => some (w.request r c)
  | pop q => some (w.setList q (w.lists q).tail)
  | connect c o => some (final o.1 (IngestWorker.handleConnect cfg c) w)
  | control op c o => some (final o.1 (IngestWorker.handlers op c) w)
  | reset c o => some (final o.1 (IngestWorker.handleEtr290Reset c) w)
  | heartbeat o => some (final o.1 (IngestWorker.heartbeat cfg) w)
  | tick o => some (final o.1 (IngestWorker.glibTick cfg) w)
  | die s => some (w.die s)

/-- A worker that has no session yet, on a database without rows in flight. -/
structure Pristine (w : World) : Prop where
  /-- The worker has no session. -/
  sessions : w.sessions = ∅
  /-- It remembers no row. -/
  recordingIds : w.recordingIds = ∅
  rows_lt : ∀ r row, w.db.recordings.lookup r = some row → r < w.nextId
  /-- No row is in flight. -/
  idle : ∀ c r, ¬ w.db.InFlight c r

/-- A channel has at most one row in flight; `_recording_ids` maps the channel to it, and the
session in `_sessions` is recording and has started it. -/
structure RowsOwned (w : World) : Prop where
  /-- A channel has at most one row in flight. -/
  unique : ∀ c r r', w.db.InFlight c r → w.db.InFlight c r' → r = r'
  /-- The worker remembers it. -/
  remembered : ∀ c r, w.db.InFlight c r → w.recordingIds.lookup c = some r
  /-- A session of the channel records it. -/
  owner : ∀ c r, w.db.InFlight c r → ∃ s row, w.sessions.lookup c = some s ∧
    (w.heap s).recording = true ∧ w.db.recordings.lookup r = some row ∧ row.startedBy = s

/-- The step is a connect handler that finds the recording session of its channel dead and
puts a fresh one in its place. -/
def Evicts (cfg : Settings) (w : World) : WorkerStep → Prop
  | .connect c o => Opens cfg o.1 0 c w ∧
      ∃ s, w.sessions.lookup c = some s ∧ (w.heap s).recording = true
  | _ => False

/-! ## One channel -/

/-- The rows in flight are those the live session has started. -/
def View.Owned (v : View) : Prop :=
  ∀ r s, v.rows r = some s →
    v.recordingId = some r ∧ ∃ x, v.session = some (s, x) ∧ x.recording = true

namespace View

variable {died : Bool} {fresh : ℕ} {works : Prop} {v v' : View}

/-- A channel without a recording session has no row in flight. -/
theorem Owned.rows_none (h : v.Owned)
    (hrec : ∀ s x, v.session = some (s, x) → x.recording = false) (r : RecordingId) :
    v.rows r = none := by
  cases hr : v.rows r with
  | none => rfl
  | some s =>
    obtain ⟨-, x, hs, hx⟩ := h r s hr
    exact absurd hx (by simp [hrec s x hs])

/-- Without a row in flight there is nothing to own. -/
theorem owned_of_rows (h : ∀ r, v.rows r = none) : v.Owned := by
  intro r s hr
  rw [h r] at hr
  exact absurd hr (by simp)

/-- A channel whose rows are gone but for one that is not there. -/
theorem owned_of_dropRow {t : Option RecordingId}
    (hrows : v'.rows = dropRow t v.rows) (h : ∀ r s, v.rows r = some s → t = some r) :
    v'.Owned := by
  refine owned_of_rows fun r => ?_
  rw [hrows]
  cases hr : dropRow t v.rows r with
  | none => rfl
  | some s =>
    obtain ⟨hne, hs⟩ := dropRow_eq_some.mp hr
    exact absurd (h r s hs) hne

/-- The row to finish is the one in flight. -/
theorem Owned.target (h : v.Owned) {t : Option RecordingId} (ht : Target v t) :
    ∀ r s, v.rows r = some s → t = some r := by
  intro r s hr
  obtain ⟨hid, -⟩ := h r s hr
  unfold Target at ht
  rw [hid] at ht
  exact ht

/-- So is the newest. -/
theorem Owned.picks (h : v.Owned) {t : Option RecordingId} (ht : Picks v.rows t) :
    ∀ r s, v.rows r = some s → t = some r := by
  intro r s hr
  cases t with
  | none => exact absurd (ht.1 rfl r) (by simp [hr])
  | some r' =>
    obtain ⟨s', hs'⟩ := Option.ne_none_iff_exists'.mp (ht.2 r' rfl)
    rw [← (h r s hr).1, ← (h r' s' hs').1]

/-- A start inserts a row of its own session. -/
theorem Owned.start (h : v.Owned) (hstep : StartStep died fresh v v') : v'.Owned := by
  cases hstep with
  | absent hs => exact h
  | dead s x x' hs hseen =>
    intro r s' hr
    obtain ⟨hid, x₁, hs₁, hx₁⟩ := h r s' hr
    obtain ⟨rfl, rfl⟩ := Prod.mk.inj (Option.some.inj (hs.symm.trans hs₁))
    exact ⟨hid, x', rfl, hseen.recording_eq.trans hx₁⟩
  | already s x hs hup hrec => exact h
  | opened s x y hs hup hrec hy hy' =>
    have hnone := h.rows_none fun s' x' hs' => by
      obtain ⟨-, rfl⟩ := Prod.mk.inj (Option.some.inj (hs.symm.trans hs'))
      exact hrec
    intro r s' hr
    by_cases hf : r = fresh
    · subst hf
      have hs' : some s = some s' := by simpa using hr
      obtain rfl := Option.some.inj hs'
      exact ⟨rfl, y, rfl, hy'⟩
    · have hr' : v.rows r = some s' := by simpa [hf] using hr
      exact absurd hr' (by simp [hnone r])
  | failed s x y up y' hs hup hrec hy hd hseen =>
    refine owned_of_rows (h.rows_none fun s' x' hs' => ?_)
    obtain ⟨-, rfl⟩ := Prod.mk.inj (Option.some.inj (hs.symm.trans hs'))
    exact hrec

/-- A stop ends the row of its session, if any. -/
theorem Owned.stop (h : v.Owned) (hstep : StopStep died v v') : v'.Owned := by
  cases hstep with
  | absent t hs ht => exact owned_of_dropRow rfl (h.picks ht)
  | finalized s x y t up y' hs hrec ht hy hy' hseen => exact owned_of_dropRow rfl (h.target ht)
  | idle s x up x' hs hrec hr hseen =>
    refine owned_of_rows (h.rows_none fun s' x₁ hs' => ?_)
    obtain ⟨-, rfl⟩ := Prod.mk.inj (Option.some.inj (hs.symm.trans hs'))
    exact hrec

/-- A disconnect takes session and row together. -/
theorem Owned.disconnect (h : v.Owned) (hstep : DisconnectStep v v') : v'.Owned := by
  cases hstep with
  | absent hs => exact h
  | idle s x hs hrec =>
    refine owned_of_rows (h.rows_none fun s' x₁ hs' => ?_)
    obtain ⟨-, rfl⟩ := Prod.mk.inj (Option.some.inj (hs.symm.trans hs'))
    exact hrec
  | finalized s x t hs hrec ht => exact owned_of_dropRow rfl (h.target ht)

/-- A heartbeat drops the dead with their rows. -/
theorem Owned.heartbeat (h : v.Owned) (hstep : HeartbeatStep v v') : v'.Owned := by
  cases hstep with
  | absent hs => exact h
  | up s x hs hup => exact h
  | dead s x t hs ht => exact owned_of_dropRow rfl (h.picks ht)

/-- A session found missing or dead keeps its flag. -/
theorem Owned.notUp (h : v.Owned) (hnot : NotUp died v v') : v'.Owned := by
  cases hnot with
  | absent hs => exact h
  | dead s x x' hs hseen =>
    intro r s' hr
    obtain ⟨hid, x₁, hs₁, hx₁⟩ := h r s' hr
    obtain ⟨rfl, rfl⟩ := Prod.mk.inj (Option.some.inj (hs.symm.trans hs₁))
    exact ⟨hid, x', rfl, hseen.recording_eq.trans hx₁⟩

/-- A connect may start a recording. -/
theorem Owned.maybeStart {wanted : Prop} (h : v.Owned)
    (hstep : MaybeStart died fresh wanted v v') : v'.Owned := by
  cases hstep with
  | skipped _ => exact h
  | started v' _ hstart => exact h.start hstart

/-- A connect handler that does not take the place of a recording session. -/
theorem Owned.connect (h : v.Owned) (hstep : ConnectStep died fresh works v v')
    (hcare : ¬ (works ∧ ∃ s x, v.session = some (s, x) ∧ x.recording = true)) : v'.Owned := by
  cases hstep with
  | already s x v' hs hup hstart =>
    have hmarked : View.Owned { v with
      toStored := v.toStored.writeIf [.connecting] .connected } := h
    exact hmarked.maybeStart hstart
  | full v₁ hnot =>
    have h₁ := h.notUp hnot
    exact h₁
  | opens v₁ v' hnot hopen =>
    have h₁ := h.notUp hnot
    cases hopen with
    | unknown hst => exact h₁
    | failed => exact h₁
    | opened x v' hw hst hx hx' hstart =>
      -- The old session was not recording, so there is no row to lose.
      have hrec : ∀ s x, v₁.session = some (s, x) → x.recording = false := by
        intro s y hs
        by_contra hy
        refine hcare ⟨hw, ?_⟩
        cases hnot with
        | absent hnone => exact absurd (hnone.symm.trans hs) (by simp)
        | dead s' x' y' hs' hseen =>
          obtain ⟨rfl, rfl⟩ := Prod.mk.inj (Option.some.inj hs)
          exact ⟨s', x', hs', hseen.recording_eq.symm.trans (by simpa using hy)⟩
      refine View.Owned.maybeStart (owned_of_rows ?_) hstart
      exact h₁.rows_none hrec

end View

/-! ## The worker -/

/-- The channels are independent, and each owns its rows. -/
structure Owned (w : World) : Prop where
  sound : Sound w
  views : ∀ c, (w.view c).Owned

section Handlers

variable {o : Oracle Call} {n : ℕ} {c : ChannelId} {w w' : World}

/-- What is owned view by view is owned. -/
theorem Owned.rowsOwned (h : Owned w) : RowsOwned w := by
  have hkey : ∀ c r, w.db.InFlight c r → w.recordingIds.lookup c = some r ∧
      ∃ s row, w.sessions.lookup c = some s ∧ (w.heap s).recording = true ∧
        w.db.recordings.lookup r = some row ∧ row.startedBy = s := by
    rintro c r ⟨row, hrow, hc⟩
    have hr : w.db.rowsOf c r = some row.startedBy := by simp [Database.rowsOf, hrow, hc]
    obtain ⟨hid, x, hs, hx⟩ := h.views c r row.startedBy hr
    obtain ⟨s, hlook, heq⟩ := Option.map_eq_some_iff.mp hs
    obtain ⟨rfl, rfl⟩ := Prod.mk.inj heq
    exact ⟨hid, _, row, hlook, hx, hrow, rfl⟩
  refine ⟨fun c r r' hr hr' => ?_, fun c r hr => (hkey c r hr).1, fun c r hr => (hkey c r hr).2⟩
  exact Option.some.inj ((hkey c r hr).1.symm.trans (hkey c r' hr').1)

/-- A step on one channel keeps ownership if it keeps that channel's. -/
theorem Owned.of_local (h : Owned w) (hloc : Local c w w') (hc : (w'.view c).Owned) :
    Owned w' := by
  refine ⟨hloc.sound h.sound, fun d => ?_⟩
  by_cases hd : d = c
  · exact hd ▸ hc
  · rw [hloc.views h.sound d hd]
    exact h.views d

/-- A program that keeps the ownership of its channel keeps ownership. -/
theorem Owned.acts {m : Handler Unit} {step : Bool → View → Prop} {killed : Stored → Prop}
    (h : Owned w) (hm : Acts o c w m step killed n w)
    (hstep : ∀ died v', step died v' → v'.Owned) :
    wp o m (fun _ _ w' => Owned w') (fun _ _ w' => Owned w') (fun _ => MayCrash o) n w :=
  wp_mono hm (fun _ _ _ hw' => h.of_local hw'.1 (hstep _ _ (hw'.2 h.sound)))
    (fun _ _ _ hf => hf.elim) fun _ hk => hk.crash

/-- **Every handler of a control job keeps ownership.** -/
theorem Owned.handler (h : Owned w) (ho : Steady o) (op : Op) (c : ChannelId) :
    wp o (IngestWorker.handlers op c) (fun _ _ w' => Owned w') (fun _ _ w' => Owned w')
      (fun _ => MayCrash o) n w := by
  cases op with
  | disconnect =>
    exact h.acts (handleDisconnect_acts ho c n w) fun _ _ hv => (h.views c).disconnect hv
  | stop => exact h.acts (handleRecordStop_acts ho c n w) fun _ _ hv => (h.views c).stop hv
  | start => exact h.acts (handleRecordStart_acts ho c n w) fun _ _ hv => (h.views c).start hv

/-- **The heartbeat keeps ownership.** -/
theorem Owned.beat {cfg : Settings} (h : Owned w) (hbeat : Beat cfg w w') : Owned w' :=
  ⟨hbeat.sound, fun c => (h.views c).heartbeat (hbeat.views c)⟩

/-- Neither lists nor trace matter. -/
theorem Owned.of_view (h : Owned w) (hsound : Sound w → Sound w')
    (hview : ∀ c, w'.view c = w.view c) : Owned w' :=
  ⟨hsound h.sound, fun c => by rw [hview]; exact h.views c⟩

theorem Owned.setList (h : Owned w) (q : Queue) (jobs : List Raw) : Owned (w.setList q jobs) :=
  h.of_view (fun hs => ⟨hs.distinct, hs.sessions_lt, hs.rows_lt, hs.known⟩) fun _ => rfl

theorem Owned.note (h : Owned w) (e : Event) : Owned (w.note e) :=
  h.of_view (fun hs => ⟨hs.distinct, hs.sessions_lt, hs.rows_lt, hs.known⟩) fun _ => rfl

/-- Ownership may be carried through a drain. -/
theorem drainable_owned : Drainable Owned :=
  ⟨fun _ q _ rest _ h _ => h.setList q rest, fun _ e h => h.note e⟩

/-- **A whole tick keeps ownership.** -/
theorem Owned.tick {cfg : Settings} (h : Owned w) (ho : Steady o) :
    wp o (IngestWorker.glibTick cfg) (fun _ _ w' => Owned w') (fun _ _ w' => Owned w')
      (fun _ => MayCrash o) n w := by
  unfold IngestWorker.glibTick
  rw [wp_attempt, wp_bind]
  refine wp_mono (wp_heartbeat ho h.sound cfg) (fun _ n' w' hbeat => ?_) (fun _ _ _ hf => hf.elim)
    fun _ hk => hk.1
  exact wp_drain_inv drainable_owned (fun hcrash _ _ => hcrash)
    (fun op c n w hw => hw.handler ho op c) (h.beat hbeat)

/-- What a program keeps that is not killed. -/
theorem owned_final {m : Handler Unit} (ho : Healthy o)
    (hm : wp o m (fun _ _ w' => Owned w') (fun _ _ w' => Owned w') (fun _ => MayCrash o) 0 w) :
    Owned (final o m w) :=
  final_of_wp (P := Owned) (wp_mono hm (fun _ _ _ h => h) (fun _ _ _ h => h)
    fun _ hcrash => absurd hcrash ho.not_mayCrash)

end Handlers

/-- **One step keeps ownership**, unless it evicts a recording session. -/
theorem owned_step {cfg : Settings} {w w' : World} {a : WorkerStep} (h : Owned w)
    (hcare : ¬ Evicts cfg w a) (hstep : a.run cfg w = some w') : Owned w' := by
  cases a with
  | request r c =>
    obtain rfl := Option.some.inj hstep
    rcases request_cases r c w with ⟨st, -, -, -, hout⟩ | ⟨-, hout⟩
    · rw [hout]
      refine ⟨sound_outcome h.sound, fun d => ?_⟩
      rw [view_outcome]
      split
      · exact h.views d
      · exact h.views d
    · rwa [hout]
  | pop q =>
    obtain rfl := Option.some.inj hstep
    exact h.setList q _
  | connect c o =>
    obtain rfl := Option.some.inj hstep
    refine owned_final o.2 (h.acts (handleConnect_acts o.2.steady cfg c 0 w) fun _ _ hv => ?_)
    apply (h.views c).connect hv
    -- Opening over a session that records is the eviction that the condition excludes.
    rintro ⟨hopen, s, x, hs, hx⟩
    obtain ⟨s', hlook, heq⟩ := Option.map_eq_some_iff.mp hs
    obtain ⟨rfl, rfl⟩ := Prod.mk.inj heq
    exact hcare ⟨hopen, _, hlook, hx⟩
  | control op c o =>
    obtain rfl := Option.some.inj hstep
    exact owned_final o.2 (h.handler o.2.steady op c)
  | reset c o =>
    obtain rfl := Option.some.inj hstep
    refine owned_final o.2 (wp_handleEtr290Reset c (fun _ => h.note _) fun hcrash => hcrash)
  | heartbeat o =>
    obtain rfl := Option.some.inj hstep
    refine owned_final o.2 (wp_mono (wp_heartbeat o.2.steady h.sound cfg)
      (fun _ _ _ hbeat => h.beat hbeat) (fun _ _ _ hf => hf.elim) fun _ hk => hk.1)
  | tick o =>
    obtain rfl := Option.some.inj hstep
    exact owned_final o.2 (h.tick o.2.steady)
  | die s =>
    obtain rfl := Option.some.inj hstep
    refine ⟨⟨h.sound.distinct, h.sound.sessions_lt, h.sound.rows_lt, h.sound.known⟩,
      fun c r s' hr => ?_⟩
    obtain ⟨hid, x, hs, hx⟩ := h.views c r s' hr
    obtain ⟨s₁, hlook, heq⟩ := Option.map_eq_some_iff.mp hs
    obtain ⟨rfl, rfl⟩ := Prod.mk.inj heq
    refine ⟨hid, (w.die s).heap s₁, by simp [hlook], ?_⟩
    by_cases hss : s₁ = s
    · subst hss
      simpa using hx
    · simpa [hss] using hx

/-- A pristine worker owns nothing, and owes nothing. -/
theorem owned_of_pristine {w : World} (h : Pristine w) : Owned w := by
  refine ⟨⟨?_, ?_, h.rows_lt, ?_⟩, fun c => View.owned_of_rows fun r => ?_⟩
  · intro c d s hs
    rw [h.sessions] at hs
    exact absurd hs (by simp)
  · intro c s hs
    rw [h.sessions] at hs
    exact absurd hs (by simp)
  · intro c r hr
    rw [h.recordingIds] at hr
    exact absurd hr (by simp)
  · by_contra hne
    obtain ⟨s, hs⟩ := Option.ne_none_iff_exists'.mp hne
    exact h.idle c r (Database.inFlight_iff_rowsOf.mpr ⟨s, hs⟩)

/-- **In every run that evicts no recording session, every row in flight is owned.** -/
theorem rows_owned_along {cfg : Settings} {w w' : World} {as : List WorkerStep}
    (hw : Pristine w) (hcare : Runs.Along (fun w a => ¬ Evicts cfg w a) (WorkerStep.run cfg) w as)
    (hrun : Runs.run (WorkerStep.run cfg) w as = some w') : RowsOwned w' := by
  have howned := Runs.run_invariant (I := Owned)
    (fun _ _ _ h hok hstep => owned_step h hok hstep) as w w' (owned_of_pristine hw) hcare hrun
  exact howned.rowsOwned

/-- A worker that has just started, with one channel whose connect job is under way. -/
def offAir : World :=
  World.fresh
    { channels := Dict.set (.str "a") ⟨"A", .udp, .connecting⟩ ∅
      recordings := ∅
      workers := ∅ } 0

/-- The world of the witnesses has been used by nobody. -/
theorem pristine_offAir : Pristine offAir where
  sessions := rfl
  recordingIds := rfl
  rows_lt := by simp [offAir, World.fresh]
  idle := by simp [offAir, World.fresh, Database.InFlight]

/-- The environment in which every call works. -/
def Environment.good : Environment := ⟨allOk, healthy_allOk⟩

/-- A connect job that is handled between the death of a recording session and the next
heartbeat: the row in flight is left to a session that does not record. -/
theorem connect_evicts_recording_session :
    ¬ ∀ (cfg : Settings) (w w' : World) (as : List WorkerStep), Pristine w →
      Runs.run (WorkerStep.run cfg) w as = some w' → RowsOwned w' := by
  intro h
  have howned := h ⟨"worker", 8⟩ offAir _ [.connect (.str "a") .good,
    .control .start (.str "a") .good, .die 0, .connect (.str "a") .good] pristine_offAir rfl
  obtain ⟨s, row, hs, hrec, hrow, -⟩ := howned.owner (.str "a") 1 ⟨_, rfl, rfl, rfl⟩
  have hs' : some 2 = some s := hs
  obtain rfl := Option.some.inj hs'
  have hfalse : false = true := hrec
  exact absurd hfalse (by decide)

/-- A channel is connected and records. -/
theorem rows_owned_along_offAir :
    RowsOwned (final allOk (IngestWorker.handlers .start (.str "a"))
      (final allOk (IngestWorker.handleConnect ⟨"worker", 8⟩ (.str "a")) offAir)) := by
  refine @rows_owned_along ⟨"worker", 8⟩ _ _
    [.connect (.str "a") .good, .control .start (.str "a") .good] pristine_offAir ?_ rfl
  refine Runs.along_cons ?_ rfl (Runs.along_cons (fun h => h) rfl trivial)
  rintro ⟨-, s, hs, -⟩
  have hnone : none = some s := hs
  exact absurd hnone (by simp)
