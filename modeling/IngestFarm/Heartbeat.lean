/-
# The heartbeat

`_heartbeat` works on every channel at once: it lists the channels that have a session on
the worker row and gives up each session that it finds dead.  Its staged changes are
committed together at the end, so a kill in between leaves everything as it was.

Since nothing is committed before the end, the state in the middle of the loop is judged by what a
commit would make of it.  `Beating` says of each channel that it is as before or has made its step,
and one round changes one channel only (`wp_beating`), because no session belongs to two of them.
-/
import IngestFarm.ConnectHandlers

open Prog

/-- What a heartbeat does to one channel. -/
inductive HeartbeatStep (v : View) : View → Prop
  /-- A channel without a session is not looked at. -/
  | absent : v.session = none → HeartbeatStep v v
  /-- A session that is up stays, and the channel with it. -/
  | up (s : SessionId) (x : ChannelSession) : v.session = some (s, x) → x.isConnected = true →
      HeartbeatStep v v
  /-- A dead one is given up; the newest row in flight fails, and so does an active status. -/
  | dead (s : SessionId) (x : ChannelSession) (t : Option RecordingId) :
      v.session = some (s, x) → Picks v.rows t →
      HeartbeatStep v
        { toStored := { v.toStored.writeIf activeStatuses .error with rows := dropRow t v.rows }
          session := none, recordingId := none, pending := false }

/-- The worker row after a heartbeat. -/
def WorkerRow.beat (now : ℕ) (keys : List ChannelId) (row : WorkerRow) : WorkerRow :=
  { row with lastHeartbeat := some now, activeChannels := keys }

/-- What a heartbeat does as a whole. -/
structure Beat (cfg : Settings) (w w' : World) : Prop where
  sound : Sound w'
  /-- Every channel has made its step. -/
  views : ∀ c, HeartbeatStep (w.view c) (w'.view c)
  /-- The row of the worker has the time and the channels that had a session. -/
  worker : w'.db.workers.lookup cfg.workerId =
    (w.db.workers.lookup cfg.workerId).map (WorkerRow.beat w.now w.sessions.keys)
  /-- The control lists stay. -/
  jobs : ∀ q, q.isControl = true → w'.lists q = w.lists q
  /-- No job was handled. -/
  log : w'.log = w.log
  /-- No id was handed out. -/
  nextId : w.nextId ≤ w'.nextId
  /-- Every death has been looked at. -/
  died : w'.died = false

section Specs

variable {o : Oracle Call} {E : PyError → ℕ → World → Prop} {C : World → Prop} {n : ℕ}
  {w : World} {c : ChannelId} {s : SessionId}

/-- A row of the channel in the committed rows is the channel's in the staged ones. -/
theorem channel_of_stored {u : World} {t : Option RecordingId} (hst : u.stored c = w.stored c)
    (ht : Picks (w.db.rowsOf c) t) {r : RecordingId} {row : Recording} (hr : t = some r)
    (hrow : u.db.recordings.lookup r = some row) : row.channelId = c := by
  by_contra hne
  apply ht.2 r hr
  have hrows : u.db.rowsOf c = w.db.rowsOf c := congrArg Stored.rows hst
  rw [← hrows]
  simp [Database.rowsOf, hrow, hne]

/-- A dead session leaves the tables of the worker. -/
def World.giveUp (c : ChannelId) (w : World) : World :=
  ((w.dropSession c).dropRecordingId c).dropPending c

theorem local_giveUp : Local c w (w.giveUp c) :=
  (Local.dropSession.trans Local.dropRecordingId).trans Local.dropPending

/-- What a heartbeat makes of a dead session, apart from the stats. -/
theorem local_beaten {u : World} {t : Option RecordingId} (hs : w.sessions.lookup c = some s)
    (hu : Local c w u) (hview : u.view c = { w.view c with session := (u.view c).session })
    (ht : Picks (w.db.rowsOf c) t)
    (hchannel : ∀ r row, t = some r → u.db.recordings.lookup r = some row →
      row.channelId = c) :
    Local c w (((u.giveUp c).commitDb (failRow t w.now)).commitDb
        (writeIf c activeStatuses .error)) ∧
      HeartbeatStep (w.view c) ((((u.giveUp c).commitDb (failRow t w.now)).commitDb
        (writeIf c activeStatuses .error)).view c) := by
  refine ⟨((hu.trans local_giveUp).trans (local_failRow fun _ => hchannel)).trans local_writeIf, ?_⟩
  have hstored := congrArg View.toStored hview
  have hst := congrArg Stored.status hstored
  have hrows := congrArg Stored.rows hstored
  refine Eq.mpr (congrArg _ ?_) (HeartbeatStep.dead s (w.heap s) t (by simp [hs]) ht)
  refine View.ext ?_ ?_ ?_ ?_ ?_
  · have hst' : u.db.status c = w.db.status c := hst
    simp [World.giveUp, Stored.writeIf, hst']
  · have hrows' : u.db.rowsOf c = w.db.rowsOf c := hrows
    simp [World.giveUp, hrows']
  · simp [World.giveUp]
  · simp [World.giveUp]
  · simp [World.giveUp]

/-- One session has been looked at: nothing is committed, and what is staged now is a step of its
channel. -/
structure Looked (w : World) (c : ChannelId) (staged staged' : Database → Database)
    (w' : World) : Prop where
  /-- Nothing is committed yet. -/
  db : w'.db = w.db
  /-- A kill here leaves what was stored before the heartbeat. -/
  store : SameStore w' w
  /-- Committing now would change this channel only. -/
  only : Local c (w.commitDb staged) (w'.commitDb staged')
  /-- For this channel it would be a step of the heartbeat. -/
  step : HeartbeatStep ((w.commitDb staged).view c) ((w'.commitDb staged').view c)

/-- A session that is dead, whether it has died before or only now. -/
structure DeadSession (w : World) (c : ChannelId) (staged : Database → Database) (u : World) :
    Prop where
  /-- The check has written nothing. -/
  db : u.db = w.db
  now : u.now = w.now
  /-- Neither has giving the session up. -/
  store : SameStore (u.giveUp c) w
  /-- Committing now would touch this channel only. -/
  only : Local c (w.commitDb staged) (u.commitDb staged)
  /-- All that may differ of it is the session. -/
  view : (u.commitDb staged).view c =
    { (w.commitDb staged).view c with session := ((u.commitDb staged).view c).session }

theorem deadSession_before (staged : Database → Database) : DeadSession w c staged w :=
  ⟨rfl, rfl, ⟨rfl, fun _ _ => rfl, rfl, rfl, rfl⟩, Local.rfl', rfl⟩

theorem deadSession_now {staged : Database → Database} (hs : w.sessions.lookup c = some s) :
    DeadSession w c staged (w.die s) := by
  have hdie : Local c (w.commitDb staged) ((w.commitDb staged).die s) := Local.die (Local.own hs)
  exact ⟨rfl, rfl, ⟨rfl, fun _ _ => rfl, rfl, rfl, rfl⟩, hdie, rfl⟩

/-- The guard on the status may be evaluated where the changes are committed. -/
theorem DeadSession.sameBooks {staged : Database → Database} {u w₂ : World}
    (hu : DeadSession w c staged u) (hstored : (w.commitDb staged).stored c = w.stored c)
    (hw₂ : SameBooks w₂ (u.giveUp c)) :
    SameBooks (w₂.commitDb ((if (w₂.db.status c).any (· ∈ activeStatuses) = true
        then Database.setStatus c .error else id) ∘
          failRow (w₂.db.activeRecording c) w₂.now ∘ staged))
      ((((u.commitDb staged).giveUp c).commitDb (failRow (w.db.activeRecording c)
        (w.commitDb staged).now)).commitDb (writeIf c activeStatuses .error)) := by
  refine SameBooks.trans ?_ (hw₂.commitDb (writeIf c activeStatuses .error ∘
    failRow (w.db.activeRecording c) w.now ∘ staged))
  have hw : w₂.db = w.db := hw₂.db.trans hu.db
  have hn : w₂.now = w.now := hw₂.now.trans hu.now
  have hst : (staged w.db).status c = w.db.status c := congrArg Stored.status hstored
  have hguard : (failRow (w.db.activeRecording c) w.now (staged w.db)).status c =
      w.db.status c := by rw [status_failRow, hst]
  -- Staging does not touch the status of this channel, so the guard sees what is committed.
  have heq : ((if (w₂.db.status c).any (· ∈ activeStatuses) = true
      then Database.setStatus c .error else id) ∘
        failRow (w₂.db.activeRecording c) w₂.now ∘ staged) w₂.db =
      (writeIf c activeStatuses .error ∘
        failRow (w.db.activeRecording c) w.now ∘ staged) w₂.db := by
    simp only [hw, hn, Function.comp_apply, writeIf, hguard]
    split <;> rfl
  rw [World.commitDb, World.commitDb, heq]
  exact SameBooks.rfl' _

/-- The row and the status of a dead session's channel are staged to fail. -/
theorem DeadSession.wp_stage (ho : Steady o) {staged : Database → Database} {u w₂ : World}
    (hu : DeadSession w c staged u) (hs : w.sessions.lookup c = some s)
    (hstored : (w.commitDb staged).stored c = w.stored c) (hw₂ : SameBooks w₂ (u.giveUp c)) :
    wp o (do
      let fail ← IngestWorker.failActiveRecording c
      let ch ← query fun db => db.status c
      let mark := if ch.any (· ∈ activeStatuses) then Database.setStatus c .error else id
      pure (mark ∘ fail ∘ staged))
      (fun staged' _ w' => Looked w c staged staged' w') (fun _ _ _ => False)
      (fun w' => MayCrash o ∧ SameStore w' w) n w₂ := by
  have hstore : SameStore w₂ w := hw₂.toSameStore.trans hu.store
  rw [wp_bind]
  refine wp_failActiveRecording ho (fun n₃ => ?_) fun h => ⟨h, hstore⟩
  rw [wp_bind]
  refine wp_query_of ho.db (fun n₄ => ?_) fun h => ⟨h, hstore⟩
  rw [wp_pure]
  -- Commit what is staged now, and the session is given up on the committed rows.
  have ht := picks_activeRecording w.db c
  have hrows : (staged w.db).rowsOf c = w.db.rowsOf c := congrArg Stored.rows hstored
  have hbeaten := local_beaten (w := w.commitDb staged) (s := s) hs hu.only hu.view
    (t := w.db.activeRecording c) (by rw [World.commitDb_db, hrows]; exact ht)
    fun r row hr hrow => channel_of_stored (u := w.commitDb staged) hstored ht hr
      (by rw [World.commitDb_db] at hrow ⊢; rw [← hu.db]; exact hrow)
  have hsame := hu.sameBooks hstored hw₂
  exact ⟨hstore.db, hstore, hbeaten.1.trans (Local.ofSameBooks hsame),
    hsame.view_eq c ▸ hbeaten.2⟩

/-- A dead session is given up. -/
theorem DeadSession.wp_giveUp (ho : Steady o) {staged : Database → Database} {u : World}
    (hu : DeadSession w c staged u) (hs : w.sessions.lookup c = some s)
    (hstored : (w.commitDb staged).stored c = w.stored c) :
    wp o (do
      modify (World.dropSession c)
      modify (World.dropRecordingId c)
      modify (World.dropPending c)
      IngestWorker.clearStats c
      let fail ← IngestWorker.failActiveRecording c
      let ch ← query fun db => db.status c
      let mark := if ch.any (· ∈ activeStatuses) then Database.setStatus c .error else id
      pure (mark ∘ fail ∘ staged))
      (fun staged' _ w' => Looked w c staged staged' w') (fun _ _ _ => False)
      (fun w' => MayCrash o ∧ SameStore w' w) n u := by
  rw [wp_bind, wp_modify, wp_bind, wp_modify, wp_bind, wp_modify, wp_bind,
    IngestWorker.wp_clearStats]
  -- The statistics are cleared or not; nothing depends on it.
  refine ⟨fun _ => ?_, fun _ => ?_, fun h => ⟨⟨_, _, h⟩, hu.store⟩⟩
  · exact hu.wp_stage ho hs hstored (SameBooks.dropStats c _)
  · exact hu.wp_stage ho hs hstored (SameBooks.rfl' _)

/-- **One session in the heartbeat.**  The changes staged so far are those of other channels. -/
theorem wp_heartbeatSession (ho : Steady o) {staged : Database → Database}
    (hs : w.sessions.lookup c = some s)
    (hstored : (w.commitDb staged).stored c = w.stored c) :
    wp o (IngestWorker.heartbeatSession staged ⟨c, s⟩)
      (fun staged' _ w' => Looked w c staged staged' w') (fun _ _ _ => False)
      (fun w' => MayCrash o ∧ SameStore w' w) n w := by
  have hsession : ((w.commitDb staged).view c).session = some (s, w.heap s) := by simp [hs]
  unfold IngestWorker.heartbeatSession
  rw [wp_bind, ChannelSession.wp_checkConnected]
  simp only [wp_ite]
  -- The session is up, or it was down, or the check sees it die.
  refine ⟨fun _ => ⟨fun hup => ?_, fun _ => (deadSession_before staged).wp_giveUp ho hs hstored⟩,
    fun _ => ⟨by simp, fun _ => (deadSession_now hs).wp_giveUp ho hs hstored⟩,
    fun h => ⟨⟨_, _, h⟩, SameStore.rfl' w⟩⟩
  rw [wp_bind, IngestWorker.wp_publishStats]
  have hlooked : ∀ w', SameBooks w' w → Looked w c staged staged w' := by
    intro w' hw'
    have hcommit := hw'.commitDb staged
    refine ⟨hw'.db, hw'.toSameStore, Local.ofSameBooks hcommit, ?_⟩
    rw [hcommit.view_eq]
    exact HeartbeatStep.up s (w.heap s) hsession hup
  exact ⟨fun _ => hlooked _ (SameBooks.addStats c w), fun _ => hlooked _ (SameBooks.rfl' w),
    fun h => ⟨⟨_, _, h⟩, SameStore.rfl' w⟩⟩

/-- The loop of the heartbeat: `xs` are the sessions still to look at. -/
structure Beating (w₀ : World) (stamp : Database → Database)
    (xs : List (Sigma fun _ : ChannelId => SessionId)) (staged : Database → Database)
    (w : World) : Prop where
  /-- Nothing is committed before the end of the loop. -/
  store : SameStore w w₀
  /-- What would be committed now is sound. -/
  sound : Sound (w.commitDb staged)
  /-- No channel comes twice. -/
  nodup : (xs.map Sigma.fst).Nodup
  /-- A channel that waits is as it was before the heartbeat. -/
  waiting : ∀ e ∈ xs, w₀.sessions.lookup e.1 = some e.2 ∧
    (w.commitDb staged).view e.1 = w₀.view e.1
  /-- One that was looked at has made its step. -/
  done : ∀ c, c ∉ xs.map Sigma.fst → HeartbeatStep (w₀.view c) ((w.commitDb staged).view c)
  /-- The row of the worker is stamped. -/
  workers : (staged w.db).workers = (stamp w₀.db).workers
  /-- No job was handled. -/
  log : w.log = w₀.log

/-- **One round of the loop.** -/
theorem wp_beating (ho : Steady o) {w₀ : World} {stamp staged : Database → Database}
    {e : Sigma fun _ : ChannelId => SessionId} {xs : List (Sigma fun _ : ChannelId => SessionId)}
    (h : Beating w₀ stamp (e :: xs) staged w) :
    wp o (IngestWorker.heartbeatSession staged e)
      (fun staged' _ w' => Beating w₀ stamp xs staged' w') (fun _ _ _ => False)
      (fun w' => MayCrash o ∧ SameStore w' w₀) n w := by
  obtain ⟨c, s⟩ := e
  obtain ⟨hs₀, hview⟩ := h.waiting ⟨c, s⟩ (List.mem_cons_self ..)
  have hs : w.sessions.lookup c = some s := by
    have hsess := congrArg View.session hview
    simp only [World.view_session, World.commitDb_sessions, hs₀, Option.map_some] at hsess
    obtain ⟨s', hs', heq⟩ := Option.map_eq_some_iff.mp hsess
    rw [hs', (Prod.mk.inj heq).1]
  have hstored : (w.commitDb staged).stored c = w.stored c :=
    (congrArg View.toStored hview).trans (h.store.stored_eq c).symm
  have hnodup := List.nodup_cons.mp h.nodup
  refine wp_mono (wp_heartbeatSession ho hs hstored) ?_ (fun _ _ _ h => h)
    fun w' hw' => ⟨hw'.1, hw'.2.trans h.store⟩
  -- The round changes the channel of its session only: of the others the invariant says the same.
  rintro staged' n' w' ⟨hdb, hstore, hloc, hstep⟩
  refine ⟨hstore.trans h.store, hloc.sound h.sound, hnodup.2, fun e he => ?_,
    fun d hd => ?_, ?_, ?_⟩
  · have hmem : e.1 ∈ xs.map Sigma.fst := List.mem_map_of_mem he
    have hne : e.1 ≠ c := fun hc => hnodup.1 (hc ▸ hmem)
    obtain ⟨he₀, hve⟩ := h.waiting e (List.mem_cons_of_mem _ he)
    exact ⟨he₀, (hloc.views h.sound e.1 hne).trans hve⟩
  · by_cases hdc : d = c
    · subst hdc
      rwa [hview] at hstep
    · rw [hloc.views h.sound d hdc]
      exact h.done d (by simpa [hdc] using hd)
  · exact hloc.workers.trans h.workers
  · exact hloc.log.trans h.log

/-- **`_heartbeat`** beats every channel while the database answers: the loop catches what a
session raises, so it may be killed but is never aborted. -/
theorem wp_heartbeat (ho : Steady o) (hw : Sound w) (cfg : Settings) :
    wp o (IngestWorker.heartbeat cfg) (fun _ _ w' => Beat cfg w w') (fun _ _ _ => False)
      (fun w' => MayCrash o ∧ SameStore w' w) n w := by
  unfold IngestWorker.heartbeat
  rw [wp_bind]
  refine wp_query_of ho.db (fun n₁ => ?_) fun h => ⟨h, SameStore.rfl' w⟩
  rw [wp_bind, wp_reads, wp_bind, wp_reads, wp_bind, wp_reads, wp_bind]
  -- The loop, for a stamp that touches the worker row only; `Beating` is its invariant.
  have hloop : ∀ stamp : Database → Database,
      (∀ db : Database, (stamp db).recordings = db.recordings ∧
        (stamp db).channels = db.channels) →
      (stamp w.db).workers.lookup cfg.workerId =
        (w.db.workers.lookup cfg.workerId).map (WorkerRow.beat w.now w.sessions.keys) →
      wp o (fold IngestWorker.heartbeatSession w.sessions.entries stamp)
        (fun staged n' w' => wp o (do commit staged; modify World.clearDied)
          (fun _ _ w' => Beat cfg w w') (fun _ _ _ => False)
          (fun w' => MayCrash o ∧ SameStore w' w) n' w')
        (fun _ _ _ => False) (fun w' => MayCrash o ∧ SameStore w' w) n₁ w := by
    intro stamp hstamp hworker
    refine wp_fold (I := Beating w stamp) (fun e xs staged n₂ w₂ h => wp_beating ho h) ?_ _ _ _ _ ?_
    · intro staged n₂ w₂ h
      rw [wp_bind]
      refine wp_commit_of ho.db (fun n₃ => ?_) fun hcrash => ⟨hcrash, h.store⟩
      rw [wp_modify]
      have hdone : ∀ c, HeartbeatStep (w.view c) ((w₂.commitDb staged).view c) :=
        fun c => h.done c (by simp)
      refine ⟨⟨h.sound.distinct, h.sound.sessions_lt, h.sound.rows_lt, h.sound.known⟩,
        fun c => hdone c, ?_, h.store.jobs, h.log, h.store.nextId.ge, rfl⟩
      rw [World.clearDied_db, World.commitDb_db, h.workers, hworker]
    · have hviews : ∀ c, (w.commitDb stamp).view c = w.view c := by
        intro c
        refine View.ext ?_ ?_ rfl rfl rfl
        · simp [Database.status, (hstamp w.db).2]
        · funext r
          simp [Database.rowsOf, (hstamp w.db).1]
      refine ⟨SameStore.rfl' w, ⟨hw.distinct, hw.sessions_lt, ?_, ?_⟩, ?_, ?_, ?_, rfl, rfl⟩
      · rw [World.commitDb_db, (hstamp w.db).1]
        exact hw.rows_lt
      · rw [World.commitDb_db, (hstamp w.db).1]
        exact hw.known
      · exact w.sessions.nodupKeys
      · intro e he
        exact ⟨Dict.mem_entries_iff.mp he, hviews e.1⟩
      · intro c hc
        rw [hviews]
        apply HeartbeatStep.absent
        have hnone : w.sessions.lookup c = none :=
          AList.lookup_eq_none.mpr fun h => hc (AList.mem_keys.mp h)
        simp [hnone]
  cases hrow : w.db.workers.lookup cfg.workerId with
  | none => exact hloop _ (fun _ => ⟨rfl, rfl⟩) (by simp [hrow])
  | some row =>
    exact hloop _ (fun _ => ⟨rfl, rfl⟩) (by simp [hrow, Database.setWorker, WorkerRow.beat])

end Specs
