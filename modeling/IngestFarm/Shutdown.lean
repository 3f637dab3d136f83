/-
# Shutting down

`_shutdown` of the worker, on SIGINT or SIGTERM: it disconnects every channel that has a session
and quits the loop.  The signal arrives while the loop waits, so the handler runs between two
callbacks.

A worker that has evicted no recording session leaves nothing behind (`shutdown_settles`): every
recording in flight is completed and announced once, no channel that was connected is left active,
and the next start fails no row.  The remembered row ids are part of the invariant, since a
disconnect completes the row that is remembered, in flight or not.  A shutdown may be cut off
anywhere (`shutdown_recovers`).  What it does not see is a connect job that was popped before and
is handled after it, when the loop has not quit yet (`late_connect_stranded`).
-/
import IngestFarm.Endings
import IngestFarm.Recovery

open Prog

/-- `_shutdown`; `list(self._sessions)` is taken first. -/
def IngestWorker.shutdown : Handler Unit := do
  let ids ← reads fun w => w.sessions.keys
  each handleDisconnect ids

/-! ## What the worker remembers -/

/-- Rows in flight are owned by live sessions, and only such rows are remembered. -/
structure Booked (w : World) : Prop where
  owned : Owned w
  remembers : ∀ c, (w.view c).Remembers

/-- A channel whose session does not record has nothing to forget. -/
theorem View.Remembers.forgets_nothing {v : View} (h : v.Remembers) (howned : v.Owned)
    {s : SessionId} {x : ChannelSession} (hs : v.session = some (s, x))
    (hrec : x.recording = false) : v.recordingId = none := by
  cases hid : v.recordingId with
  | none => rfl
  | some r =>
    obtain ⟨s', hr⟩ := Option.ne_none_iff_exists'.mp (h r hid).1
    obtain ⟨-, x', hs', hrec'⟩ := howned r s' hr
    obtain ⟨-, rfl⟩ := Prod.mk.inj (Option.some.inj (hs.symm.trans hs'))
    exact absurd (hrec.symm.trans hrec') (by decide)

section Handlers

variable {o : Oracle Call} {n : ℕ} {c : ChannelId} {w w' : World} {cfg : Settings}

/-- What is booked is remembered. -/
theorem Booked.remembering (h : Booked w) : Remembering w := ⟨h.owned.sound, h.remembers⟩

/-- A step on one channel keeps the books if it keeps that channel's. -/
theorem Booked.of_local (h : Booked w) (hloc : Local c w w') (howned : (w'.view c).Owned)
    (hrem : (w'.view c).Remembers) : Booked w' :=
  ⟨h.owned.of_local hloc howned, (h.remembering.of_local hloc hrem).views⟩

/-- Neither lists nor trace matter. -/
theorem Booked.of_view (h : Booked w) (hsound : Sound w → Sound w')
    (hview : ∀ c, w'.view c = w.view c) : Booked w' :=
  ⟨h.owned.of_view hsound hview, (h.remembering.of_view hsound hview).views⟩

/-- A step on one channel that keeps its books. -/
theorem Booked.acts {m : Handler Unit} {step : Bool → View → Prop} {killed : Stored → Prop}
    (h : Booked w) (hm : Acts o c w m step killed n w)
    (hstep : ∀ died v', step died v' → v'.Owned ∧ v'.Remembers) :
    wp o m (fun _ _ w' => Booked w') (fun _ _ w' => Booked w') (fun _ => MayCrash o) n w := by
  refine wp_mono hm (fun _ _ w' hw' => ?_) (fun _ _ _ hf => hf.elim) fun _ hk => hk.crash
  obtain ⟨howned, hrem⟩ := hstep _ _ (hw'.2 h.owned.sound)
  exact h.of_local hw'.1 howned hrem

/-- A disconnect keeps the books of its channel. -/
theorem Booked.disconnect (h : Booked w) {v' : View} (hstep : DisconnectStep (w.view c) v') :
    v'.Owned ∧ v'.Remembers :=
  ⟨(h.owned.views c).disconnect hstep, (h.remembers c).disconnect hstep fun _ _ hs hrec =>
    (h.remembers c).forgets_nothing (h.owned.views c) hs hrec⟩

/-- **Every handler of a control job keeps the books.** -/
theorem Booked.handler (h : Booked w) (ho : Steady o) (op : Op) (c : ChannelId) :
    wp o (IngestWorker.handlers op c) (fun _ _ w' => Booked w') (fun _ _ w' => Booked w')
      (fun _ => MayCrash o) n w := by
  cases op with
  | disconnect => exact h.acts (handleDisconnect_acts ho c n w) fun _ _ hv => h.disconnect hv
  | stop =>
    exact h.acts (handleRecordStop_acts ho c n w) fun _ _ hv =>
      ⟨(h.owned.views c).stop hv, (h.remembers c).stop hv⟩
  | start =>
    exact h.acts (handleRecordStart_acts ho c n w) fun _ _ hv =>
      ⟨(h.owned.views c).start hv, (h.remembers c).start hv⟩

/-- A heartbeat keeps the books of all channels. -/
theorem Booked.beat (h : Booked w) (hbeat : Beat cfg w w') : Booked w' :=
  ⟨h.owned.beat hbeat, fun c => (h.remembers c).heartbeat (hbeat.views c)⟩

theorem Booked.setList (h : Booked w) (q : Queue) (jobs : List Raw) : Booked (w.setList q jobs) :=
  ⟨h.owned.setList q jobs, h.remembers⟩

theorem Booked.note (h : Booked w) (e : Event) : Booked (w.note e) :=
  ⟨h.owned.note e, h.remembers⟩

/-- **A whole tick keeps the books.** -/
theorem Booked.tick (h : Booked w) (ho : Steady o) :
    wp o (IngestWorker.glibTick cfg) (fun _ _ w' => Booked w') (fun _ _ w' => Booked w')
      (fun _ => MayCrash o) n w := by
  unfold IngestWorker.glibTick
  rw [wp_attempt, wp_bind]
  refine wp_mono (wp_heartbeat ho h.owned.sound cfg) (fun _ n' w' hbeat => ?_)
    (fun _ _ _ hf => hf.elim) fun _ hk => hk.1
  exact wp_drain_inv ⟨fun _ q _ rest _ h _ => h.setList q rest, fun _ e h => h.note e⟩
    (fun hcrash _ _ => hcrash) (fun op c n w hw => hw.handler ho op c) (h.beat hbeat)

/-- What a program keeps that is not killed. -/
theorem booked_final {m : Handler Unit} (ho : Healthy o)
    (hm : wp o m (fun _ _ w' => Booked w') (fun _ _ w' => Booked w') (fun _ => MayCrash o) 0 w) :
    Booked (final o m w) :=
  final_of_wp (P := Booked) (wp_mono hm (fun _ _ _ h => h) (fun _ _ _ h => h)
    fun _ hcrash => absurd hcrash ho.not_mayCrash)

/-- **One step keeps the books**, unless it evicts a recording session. -/
theorem booked_step {a : WorkerStep} (h : Booked w) (hcare : ¬ Evicts cfg w a)
    (hstep : a.run cfg w = some w') : Booked w' := by
  have howned := owned_step h.owned hcare hstep
  refine ⟨howned, ?_⟩
  cases a with
  | request r c =>
    obtain rfl := Option.some.inj hstep
    exact (@remembering_step w _ cfg (.request r c) h.remembering id rfl).1.views
  | pop q =>
    obtain rfl := Option.some.inj hstep
    exact (h.setList q _).remembers
  | connect c o =>
    obtain rfl := Option.some.inj hstep
    exact (@remembering_step w _ cfg (.connect c o) h.remembering id rfl).1.views
  | control op c o =>
    obtain rfl := Option.some.inj hstep
    exact (booked_final o.2 (h.handler o.2.steady op c)).remembers
  | reset c o =>
    obtain rfl := Option.some.inj hstep
    exact (@remembering_step w _ cfg (.reset c o) h.remembering id rfl).1.views
  | heartbeat o =>
    obtain rfl := Option.some.inj hstep
    exact (@remembering_step w _ cfg (.heartbeat o) h.remembering id rfl).1.views
  | tick o =>
    obtain rfl := Option.some.inj hstep
    exact (booked_final o.2 (h.tick o.2.steady)).remembers
  | die s =>
    obtain rfl := Option.some.inj hstep
    exact (@remembering_step w _ cfg (.die s) h.remembering id rfl).1.views

/-- A pristine worker remembers nothing. -/
theorem booked_of_pristine (h : Pristine w) : Booked w :=
  ⟨owned_of_pristine h, (remembering_of_blank ⟨h.sessions, h.recordingIds, h.rows_lt⟩).views⟩

end Handlers

/-! ## Shutting down -/

section Shutdown

variable {o : Oracle Call} {n : ℕ} {c : ChannelId} {u w w' : World}

/-- The row that a recording session leaves is completed. -/
theorem completed_disconnected {s : SessionId} {r : RecordingId}
    (hs : w.sessions.lookup c = some s) (hrec : (w.heap s).recording = true)
    (hr : w.finalizeTarget c = some r) (hrow : w.db.ending r ≠ none) :
    isCompleted ((w.disconnected c).db.ending r) = true := by
  obtain ⟨e, he⟩ := Option.ne_none_iff_exists'.mp hrow
  have hdb : ∃ m b, (w.disconnected c).db.recordings =
      ((w.db.endRecording r .completed w.now).setCounts r m b).recordings := by
    have hrec' : (((w.dropPending c).dropSession c).heap s).recording = true := hrec
    have hr' : ((w.dropPending c).dropSession c).finalizeTarget c = some r := hr
    unfold World.disconnected World.idled
    rw [hs, World.closedSession, if_pos hrec', World.finalized, World.finished,
      World.finalizeTarget_stopCapture, hr']
    split
    · exact ⟨_, _, rfl⟩
    · exact ⟨_, _, rfl⟩
  obtain ⟨m, b, hdb⟩ := hdb
  have hend : (w.disconnected c).db.ending r =
      ((w.db.endRecording r .completed w.now).setCounts r m b).ending r := by
    unfold Database.ending
    rw [hdb]
  rw [hend, ending_setCounts, ending_endRecording, if_pos rfl, he]
  rfl

/-- `xs` are the channels still to be disconnected, `u` is the state at the signal. -/
structure Closing (u : World) (xs : List ChannelId) (w : World) : Prop where
  /-- No channel comes twice. -/
  nodup : xs.Nodup
  /-- Each has a session. -/
  held : ∀ c ∈ xs, c ∈ u.sessions
  /-- The books of the worker are in order. -/
  booked : Booked w
  /-- Rows have only ended, and each completed one was announced once. -/
  ends : Ends u w
  /-- A channel whose turn is still to come, or never, is as it was. -/
  kept : ∀ c, c ∈ xs ∨ c ∉ u.sessions → w.view c = u.view c
  /-- One that has had its turn has no session and is not active. -/
  closed : ∀ c ∈ u.sessions, c ∉ xs → (w.view c).session = none ∧ ¬ (w.stored c).Active
  /-- Its row in flight is completed. -/
  completed : ∀ c ∈ u.sessions, c ∉ xs → ∀ r, u.db.InFlight c r →
    isCompleted (w.db.ending r) = true

/-- A row that is active becomes idle. -/
theorem not_active_writeIf (x : Stored) (rows : RecordingId → Option SessionId) :
    ¬ Stored.Active { x.writeIf activeStatuses .idle with rows := rows } := by
  unfold Stored.Active Stored.writeIf
  simp only
  split
  · simp [activeStatuses]
  · assumption

/-- A channel that was disconnected has no session and is not active. -/
theorem DisconnectStep.closed {v v' : View} (h : DisconnectStep v v') :
    v'.session = none ∧ ¬ v'.toStored.Active := by
  cases h with
  | absent hs => exact ⟨hs, not_active_writeIf v.toStored v.rows⟩
  | idle s x hs hrec => exact ⟨rfl, not_active_writeIf v.toStored v.rows⟩
  | finalized s x t hs hrec ht => exact ⟨rfl, not_active_writeIf v.toStored _⟩

/-- **The row in flight of a channel is completed by its disconnect.** -/
theorem wp_disconnect_completes (ho : Steady o) :
    wp o (IngestWorker.handleDisconnect c)
      (fun _ _ w' => ∀ s r, w.sessions.lookup c = some s → (w.heap s).recording = true →
        w.finalizeTarget c = some r → w.db.ending r ≠ none → isCompleted (w'.db.ending r) = true)
      (fun _ _ _ => False) (fun _ => MayCrash o) n w := by
  refine wp_handleDisconnect ho.db (fun _ n' w' hw' => ?_) ?_ ?_ ?_
  · intro s r hs hrec hr hrow
    rw [hw'.db]
    exact completed_disconnected hs hrec hr hrow
  · exact fun _ _ _ _ h => absurd h ho.not_unpublished
  · exact fun _ _ h => absurd h ho.not_unclosable
  · exact fun h _ _ => h

/-- **One channel.** -/
theorem Closing.disconnect {xs : List ChannelId} (h : Closing u (c :: xs) w) (ho : Steady o) :
    wp o (IngestWorker.handleDisconnect c) (fun _ _ w' => Closing u xs w') (fun _ _ _ => False)
      (fun _ => MayCrash o) n w := by
  obtain ⟨hnotin, hnodup⟩ := List.nodup_cons.mp h.nodup
  have hsound := h.booked.owned.sound
  have hheld : c ∈ u.sessions := h.held c List.mem_cons_self
  have hends := wp_disconnect_ends (n := n) ho fun _ _ => h.booked.remembering.finishable c
  refine wp_mono (wp_and (handleDisconnect_acts ho c n w) (wp_and hends
    (wp_disconnect_completes ho))) ?_ (fun _ _ _ hf => hf.1.elim) fun _ hk => hk.1.crash
  rintro - - w' ⟨⟨hloc, hview⟩, hw', hcompletes⟩
  have hstep := hview hsound
  obtain ⟨howned, hrem⟩ := h.booked.disconnect hstep
  have hothers : ∀ d, d ≠ c → w'.view d = w.view d := fun d hd => hloc.views hsound d hd
  refine ⟨hnodup, fun d hd => h.held d (List.mem_cons_of_mem c hd),
    h.booked.of_local hloc howned hrem, h.ends.trans hw', fun d hd => ?_, fun d hd hx => ?_,
    fun d hd hx r hr => ?_⟩
  · have hne : d ≠ c := by
      rintro rfl
      exact hd.elim hnotin fun hno => hno hheld
    rw [hothers d hne]
    exact h.kept d (hd.imp_left (List.mem_cons_of_mem c))
  · by_cases hdc : d = c
    · -- The channel of this disconnect is closed now, and the earlier ones stay so.
      subst hdc
      exact hstep.closed
    · have hclosed := h.closed d hd fun hmem => (List.mem_cons.mp hmem).elim hdc hx
      have hsame := hothers d hdc
      exact ⟨by rw [hsame]; exact hclosed.1, by
        have hstored : w'.stored d = w.stored d := congrArg View.toStored hsame
        rw [hstored]
        exact hclosed.2⟩
  · by_cases hdc : d = c
    · subst hdc
      -- The channel is as it was at the signal: its session owns the row.
      have hsame := h.kept d (Or.inl List.mem_cons_self)
      obtain ⟨s, hs⟩ := Database.inFlight_iff_rowsOf.mp hr
      have hrows : w.db.rowsOf d r = some s := by
        rw [← hs]
        exact congrFun (congrArg (fun v : View => v.rows) hsame) r
      obtain ⟨-, x, hsession, hrec⟩ := h.booked.owned.views d r s hrows
      obtain ⟨s', hlook, heq⟩ := Option.map_eq_some_iff.mp hsession
      obtain ⟨rfl, rfl⟩ := Prod.mk.inj heq
      have htarget := (h.booked.owned.views d).target (target_finalizeTarget hsound) r _ hrows
      obtain ⟨e, he⟩ := ending_of_inFlight (Database.inFlight_iff_rowsOf.mpr ⟨_, hrows⟩)
      exact hcompletes _ r hlook hrec htarget (by rw [he]; simp)
    · have hdone := h.completed d hd (fun hmem => (List.mem_cons.mp hmem).elim hdc hx) r hr
      exact (hw'.moves r).isCompleted_mono hdone

/-- **All channels.** -/
theorem closing_shutdown (h : Booked u) (ho : Healthy o) :
    Closing u [] (final o IngestWorker.shutdown u) := by
  have hstart : Closing u u.sessions.keys u :=
    { nodup := AList.keys_nodup u.sessions
      held := fun c hc => AList.mem_keys.mpr hc
      booked := h
      ends := Ends.refl u
      kept := fun _ _ => rfl
      closed := fun c hc hx => absurd (AList.mem_keys.mp hc) hx
      completed := fun c hc hx => absurd (AList.mem_keys.mp hc) hx }
  refine final_of_wp (P := Closing u []) ?_
  unfold IngestWorker.shutdown
  rw [wp_bind, wp_reads]
  refine wp_mono (wp_each (I := fun xs w => Closing u xs w) (Q := fun _ _ w => Closing u [] w)
    (fun c xs n w hw => hw.disconnect ho.steady) (fun _ _ hw => hw) u.sessions.keys 0 u hstart)
    (fun _ _ _ hw => hw) (fun _ _ _ hf => hf.elim) fun _ hc => absurd hc ho.not_mayCrash

/-- In the end no session is left. -/
theorem Closing.no_session {v : World} (h : Closing u [] v) (c : ChannelId) : c ∉ v.sessions := by
  intro hc
  obtain ⟨s, hs⟩ := Dict.mem_iff_exists_lookup.mp hc
  by_cases hcu : c ∈ u.sessions
  · have hnone := (h.closed c hcu (by simp)).1
    simp [hs] at hnone
  · have hsame : (v.view c).session = (u.view c).session := by rw [h.kept c (Or.inr hcu)]
    have hu' : u.sessions.lookup c = none := AList.lookup_eq_none.mpr hcu
    simp [hs, hu'] at hsame

/-- A run that evicts no recording session keeps the books. -/
theorem booked_along {cfg : Settings} {as : List WorkerStep} (hw : Pristine w)
    (hcare : Runs.Along (fun w a => ¬ Evicts cfg w a) (WorkerStep.run cfg) w as)
    (hrun : Runs.run (WorkerStep.run cfg) w as = some u) : Booked u :=
  Runs.run_invariant (I := Booked) (fun _ _ _ h hok hstep => booked_step h hok hstep) as w u
    (booked_of_pristine hw) hcare hrun

/-! ## A shutdown that is cut off -/

/-- What is stored can be recovered, and rows in flight are owned. -/
structure Salvageable (cfg : Settings) (w : World) : Prop where
  owned : Owned w
  stored : ∀ c, (w.stored c).Recoverable (Listed cfg w c) (Waiting w c)

/-- **One channel**: whether the disconnect ends or is killed, the next start recovers. -/
theorem Salvageable.disconnect {cfg : Settings} (h : Salvageable cfg w) (ho : Steady o) :
    wp o (IngestWorker.handleDisconnect c) (fun _ _ w' => Salvageable cfg w') (fun _ _ _ => False)
      (Recoverable cfg) n w := by
  have hsound := h.owned.sound
  refine wp_mono (handleDisconnect_acts ho c n w) ?_ (fun _ _ _ hf => hf) fun u hu =>
    hu.recoverable hsound h.stored fun x hx => FinalizeKilled.recoverable hx (h.stored c)
  rintro - - w' ⟨hloc, hview⟩
  have hstep := hview hsound
  have howned : (w'.view c).Owned := (h.owned.views c).disconnect hstep
  refine ⟨h.owned.of_local hloc howned, fun d => ?_⟩
  rw [listed_congr hloc.workers, waiting_congr hloc.jobs]
  by_cases hd : d = c
  · subst hd
    -- Without a session no row is left, and the status is not active.
    have hrows : ∀ r, (w'.view d).rows r = none :=
      howned.rows_none fun s x hs => absurd (hstep.closed.1.symm.trans hs) (by simp)
    exact ⟨fun hact => absurd hact hstep.closed.2, fun r hr => absurd (hrows r) hr,
      fun r r' hr => absurd (hrows r) hr⟩
  · have hsame : w'.stored d = w.stored d := congrArg View.toStored (hloc.views hsound d hd)
    rw [hsame]
    exact h.stored d

/-- **All channels.** -/
theorem recoverable_shutdown {cfg : Settings} (h : Salvageable cfg u) (ho : Steady o) :
    Recoverable cfg (final o IngestWorker.shutdown u) := by
  refine final_of_wp (P := Recoverable cfg) ?_
  unfold IngestWorker.shutdown
  rw [wp_bind, wp_reads]
  exact wp_mono (wp_each (I := fun _ w => Salvageable cfg w) (Q := fun _ _ w => Salvageable cfg w)
    (fun c _ n w hw => hw.disconnect ho) (fun _ _ hw => hw) u.sessions.keys 0 u h)
    (fun _ _ _ hw => ⟨hw.owned.sound.rows_lt, hw.stored⟩) (fun _ _ _ hf => hf.elim) fun _ hw => hw

end Shutdown

/-! ## Results -/

/-- **However far a shutdown gets, the next start recovers everything**: in every careful run, when
the worker is shut down in a state that its row in the database claims, and the process ends
anywhere in that or after it. -/
theorem shutdown_recovers {cfg : Settings} {w w' : World} {as : List LifeStep} (hw : Pristine w)
    (hcare : Runs.Along (Careful cfg) (LifeStep.run cfg) (w.restart cfg) as)
    (hrun : Runs.run (LifeStep.run cfg) (w.restart cfg) as = some w') (hclaimed : Claimed cfg w')
    (o : MortalEnvironment) : Recovered ((final o.1 IngestWorker.shutdown w').restart cfg) := by
  have htended := Runs.run_invariant (I := Tended cfg)
    (fun _ _ _ h hok hstep => tended_step h hok hstep) as _ w' (tended_of_pristine hw) hcare hrun
  have hsteady : Steady o.1 := fun n k hf => Or.inl (o.2 n k hf)
  have h := recoverable_shutdown ⟨htended.owned, fun c => hclaimed.recoverable htended c⟩ hsteady
  exact (recovered_restart_iff cfg h.rows_lt).mpr h.stored

/-- A connect handler that opens the first session of a connecting channel. -/
theorem status_of_opened {cfg : Settings} {v : World} {c : ChannelId} (o : Environment)
    (hv : Sound v) (hsession : v.sessions.lookup c = none)
    (hst : v.db.status c = some .connecting) (hpending : c ∉ v.pendingRecord)
    (hopen : c ∈ (final o.1 (IngestWorker.handleConnect cfg c) v).sessions) :
    (final o.1 (IngestWorker.handleConnect cfg c) v).db.status c = some .connected := by
  obtain ⟨hloc, hview⟩ := (handleConnect_acts o.2.steady cfg c 0 v).final o.2.not_mayCrash
  obtain ⟨s, hs⟩ := Dict.mem_iff_exists_lookup.mp hopen
  have hsome : ((final o.1 (IngestWorker.handleConnect cfg c) v).view c).session ≠ none := by
    simp [hs]
  have hnone : (v.view c).session = none := by simp [hsession]
  have hstep := hview hv
  show ((final o.1 (IngestWorker.handleConnect cfg c) v).view c).status = _
  generalize (final o.1 (IngestWorker.handleConnect cfg c) v).view c = v' at hstep hsome ⊢
  cases hstep with
  | already s x v' hs hup hstart => exact absurd (hnone.symm.trans hs) (by simp)
  | full v₁ hnot =>
    cases hnot with
    | absent hs => exact absurd hs hsome
    | dead s x x' hs hseen => exact absurd (hnone.symm.trans hs) (by simp)
  | opens v₁ v' hnot hopen =>
    cases hnot with
    | dead s x x' hs hseen => exact absurd (hnone.symm.trans hs) (by simp)
    | absent hs =>
      cases hopen with
      | unknown hunknown => exact absurd hs hsome
      | failed => exact absurd hs hsome
      | opened x v' hworks hknown hup hrec hstart =>
        cases hstart with
        | skipped hno => simp [Stored.writeIf, hst]
        | started v' hwanted hstart =>
          -- Neither the status nor a pending mark asks for a recording.
          refine absurd hwanted ?_
          simp [hst, hpending]

/-- **A connect job that comes too late**: the channel that a handler connects after the shutdown
is put right by the next start if the last heartbeat had listed it; otherwise it stays `connected`
without a session.  No request to record is pending for the channel: with one, the handler would
start the recording at once, and it is a recording that the shutdown does not see. -/
theorem late_connect_stranded {cfg : Settings} {w u : World} {as : List WorkerStep}
    (hw : Pristine w)
    (hcare : Runs.Along (fun w a => ¬ Evicts cfg w a) (WorkerStep.run cfg) w as)
    (hrun : Runs.run (WorkerStep.run cfg) w as = some u) (o o' : Environment) {v : World}
    (hv : v = final o.1 IngestWorker.shutdown u) {c : ChannelId}
    (hst : v.db.status c = some .connecting) (hpending : c ∉ v.pendingRecord)
    (hopen : c ∈ (final o'.1 (IngestWorker.handleConnect cfg c) v).sessions) {v' : World}
    (hv' : v' = (final o'.1 (IngestWorker.handleConnect cfg c) v).restart cfg) :
    c ∉ v'.sessions ∧ (Listed cfg v c → v'.db.status c = some .idle) ∧
      (¬ Listed cfg v c → v'.db.status c = some .connected) := by
  have h := closing_shutdown (booked_along hw hcare hrun) o.2
  rw [← hv] at h
  have hsound := h.booked.owned.sound
  have hnone : v.sessions.lookup c = none := AList.lookup_eq_none.mpr (h.no_session c)
  have hconnected := status_of_opened o' hsound hnone hst hpending hopen
  have hloc := ((handleConnect_acts o'.2.steady cfg c 0 v).final o'.2.not_mayCrash).1
  obtain ⟨x, hx⟩ : ∃ x, x = final o'.1 (IngestWorker.handleConnect cfg c) v := ⟨_, rfl⟩
  rw [← hx] at hconnected hloc hv'
  have hactive : (x.stored c).Active :=
    Stored.active_of_status hconnected (by simp [activeStatuses])
  have hlisted : Listed cfg x c ↔ Listed cfg v c := listed_congr hloc.workers
  have hre := restarted cfg x (hloc.sound hsound).rows_lt
  rw [← hv'] at hre
  refine ⟨by simp [hre.sessions], fun hl => ?_, fun hno => ?_⟩
  · exact congrArg Stored.status (hre.orphaned c (hlisted.mpr hl) hactive)
  · exact (congrArg Stored.status (hre.kept c fun hx => hno (hlisted.mp hx.1))).trans hconnected

/-- A worker that no heartbeat has registered yet. -/
theorem late_connect_stranded_offAir : ((final allOk (IngestWorker.handleConnect ⟨"worker", 8⟩
    (.str "a")) (final allOk IngestWorker.shutdown offAir)).restart ⟨"worker", 8⟩).db.status
      (.str "a") = some .connected := by
  refine (@late_connect_stranded ⟨"worker", 8⟩ offAir offAir [] pristine_offAir trivial rfl .good
    .good _ rfl (.str "a") rfl (by decide) (by decide) _ rfl).2.2 ?_
  rintro ⟨row, hrow, -⟩
  have hnone : none = some row := hrow
  exact absurd hnone (by simp)

/-- An environment that kills the process at call `i`. -/
def MortalEnvironment.killingAt (i : ℕ) : MortalEnvironment :=
  ⟨fun n _ => if n = i then .crash else .ok, fun n k h => by
    by_cases hn : n = i <;> simp [hn] at h⟩

/-- A connected channel that the heartbeat has listed. -/
def listedOnline : World :=
  final allOk (IngestWorker.heartbeat ⟨"worker", 8⟩)
    (final allOk (IngestWorker.handleConnect ⟨"worker", 8⟩ (.str "a"))
      ((offline.restart ⟨"worker", 8⟩).request .connect (.str "a")))

/-- The heartbeat has listed the channel of the witness. -/
theorem claimed_listedOnline : Claimed ⟨"worker", 8⟩ listedOnline := by
  refine ⟨fun c hact => Or.inl ?_, fun c r hr => ?_⟩
  · have hlook : Stored.Active ⟨((Dict.set (.str "a") ⟨"A", .udp, .connected⟩ ∅ :
        Dict ChannelId Channel).lookup c).map Channel.status, fun _ => none⟩ := hact
    rw [Dict.lookup_set] at hlook
    split at hlook
    · rename_i hc
      exact ⟨⟨some 0, [.str "a"], 8⟩, rfl, hc ▸ List.mem_singleton_self _⟩
    · exact absurd hlook (by simp [Stored.Active])
  · obtain ⟨row, hrow, -⟩ := hr
    have hnone : (∅ : Dict RecordingId Recording).lookup r = some row := hrow
    exact absurd hnone (by simp)

/-- The process is killed in the middle of the shutdown. -/
theorem shutdown_recovers_killed : Recovered ((final (MortalEnvironment.killingAt 1).1
    IngestWorker.shutdown listedOnline).restart ⟨"worker", 8⟩) := by
  refine @shutdown_recovers ⟨"worker", 8⟩ offline _ [.work (.request .connect (.str "a")),
    .work (.connect (.str "a") .good), .work (.heartbeat .good)] pristine_offline ?_ rfl
    claimed_listedOnline (.killingAt 1)
  refine Runs.along_cons (fun h => h) rfl (Runs.along_cons ?_ rfl
    (Runs.along_cons (fun h => h) rfl trivial))
  rintro ⟨-, s, hs, -⟩
  have hnone : none = some s := hs
  exact absurd hnone (by simp)
