/-
# The recording handlers

`_handle_record_start` and `_handle_record_stop` do what their step relations say, and
nothing else.

Both handlers may see their session die: each check of the connection is one call, and what follows
it depends on the answer (`wp_settleStatus`, `local_checked`).  A record start inserts its row
before it opens the capture, so where that fails the row has to be failed as well; a record stop
finishes the row that is remembered, or else the newest in flight.
-/
import IngestFarm.Steps

open Prog

section Specs

variable {o : Oracle Call} {E : PyError → ℕ → World → Prop} {C : World → Prop} {n : ℕ}
  {w : World} {c : ChannelId} {s : SessionId}

/-! ## Starting a recording -/

/-- The last status write of a failed start. -/
theorem wp_settleStatus {Q : (Database → Database) → ℕ → World → Prop} {down : ChannelStatus}
    (ho : Steady o) (hQ : ∀ f up y u n', Seen u.died (w.heap s) up y →
      (u = w ∧ y = w.heap s ∨ u = w.die s ∧ y = (w.heap s).markEnded) →
      (∀ db : Database, db.status c = w.db.status c →
        f db = db.setStatus c (if up = true then .connected else down)) → Q f n' u)
    (hC : MayCrash o → C w) : wp o (IngestWorker.settleStatus c s down) Q E C n w := by
  unfold IngestWorker.settleStatus
  rw [wp_bind]
  refine wp_query_of ho.db (fun n₁ => ?_) hC
  rw [wp_ite]
  -- Without a row there is no status to write; with one, the check may see the session die.
  refine ⟨fun hst => ?_, fun hst => ?_⟩
  · refine hQ id _ _ w n₁ Seen.asIs (Or.inl ⟨rfl, rfl⟩) fun db hdb => ?_
    rw [Database.setStatus_of_missing (hdb.trans hst)]
    rfl
  · simp only [wp_bind, ChannelSession.wp_checkConnected, wp_pure]
    refine ⟨fun _ => ?_, fun _ => ?_, fun h => hC ⟨_, _, h⟩⟩
    · exact hQ _ _ _ w _ Seen.asIs (Or.inl ⟨rfl, rfl⟩) fun _ _ => rfl
    · exact hQ _ _ _ (w.die s) _ (Seen.ended rfl) (Or.inr ⟨rfl, rfl⟩) fun _ _ => rfl

/-- A check of the channel's own session. -/
theorem local_checked {u : World} {y : ChannelSession} (hs : w.sessions.lookup c = some s)
    (hu : u = w ∧ y = w.heap s ∨ u = w.die s ∧ y = (w.heap s).markEnded) :
    Local c w u ∧ u.view c = { w.view c with session := some (s, y) } ∧ u.db = w.db ∧
      u.recordingIds = w.recordingIds ∧ u.sessions = w.sessions ∧ u.now = w.now ∧
      u.nextId = w.nextId := by
  rcases hu with ⟨rfl, rfl⟩ | ⟨rfl, rfl⟩
  · exact ⟨Local.rfl', View.ext rfl rfl (by simp [hs]) rfl rfl, rfl, rfl, rfl, rfl, rfl⟩
  · exact ⟨Local.die (Local.own hs), View.ext rfl rfl (by simp [hs]) rfl rfl, rfl, rfl, rfl, rfl,
      rfl⟩

/-- **The `except` branch of `_handle_record_start`**, with the row it has just inserted. -/
theorem recordStartFailed_acts (ho : Steady o) {r : RecordingId} {row : Recording}
    (hs : w.sessions.lookup c = some s) (hr : w.recordingIds.lookup c = some r)
    (hrow : w.db.recordings.lookup r = some row) (hc : row.channelId = c) :
    Acts o c w (IngestWorker.recordStartFailed c s)
      (fun died v' => ∃ up y, Seen died (w.heap s) up y ∧ v' =
        { toStored := ⟨(w.view c).status.map fun _ => if up = true then .connected else .error,
            Function.update (w.view c).rows r none⟩
          session := some (s, y), recordingId := none, pending := (w.view c).pending })
      (fun x => x = w.stored c) n w := by
  have hmem : r ∈ w.db.recordings := Dict.mem_iff_exists_lookup.mpr ⟨row, hrow⟩
  have hdrop : Local c w (w.dropRecordingId c) := Local.dropRecordingId
  have hk : MayCrash o → Killed o c w (fun x => x = w.stored c) (w.dropRecordingId c) :=
    Acts.killed_of hdrop (fun _ => rfl) rfl
  unfold Acts IngestWorker.recordStartFailed IngestWorker.failKnown
  simp only [wp_bind, wp_reads, wp_modify, hr]
  refine wp_query_of ho.db (fun n₁ => ?_) hk
  simp only [wp_pure, World.dropRecordingId_db, hmem, decide_true, if_true]
  refine wp_settleStatus ho (fun f up y u n₂ hseen hu hf => ?_) hk
  obtain ⟨hloc, hview, hdb, -, -, hnow, -⟩ := local_checked (c := c) (by exact hs) hu
  refine wp_commit_of ho.db (fun n₃ => ?_) ?_
  -- The writes that were staged before and after the check, as one change of the database.
  · have hfail : f (u.db.endRecording r .failed (w.dropRecordingId c).now) =
        (u.db.endRecording r .failed u.now).setStatus c
          (if up = true then .connected else .error) := by
      rw [← hnow]
      exact hf _ (by rw [hdb]; rfl)
    have hend : Local c u (u.commitDb (Database.endRecording r .failed u.now)) :=
      Local.modifyRecording (fun _ => rfl) fun _ row' hrow' => by
        rw [hdb, World.dropRecordingId_db, hrow] at hrow'
        exact Option.some.inj hrow' ▸ hc
    have hall := ((hdrop.trans hloc).trans hend).trans (Local.setStatus
      (if up = true then .connected else .error))
    have hw : u.commitDb (f ∘ Database.endRecording r .failed (w.dropRecordingId c).now) =
        (u.commitDb (Database.endRecording r .failed u.now)).commitDb
          (Database.setStatus c (if up = true then .connected else .error)) := by
      simp only [World.commitDb, Function.comp_apply, hfail]
    rw [hw]
    refine ⟨hall, fun _ => ⟨up, y, hseen, ?_⟩⟩
    have hsession := congrArg View.session hview
    have hid := congrArg View.recordingId hview
    have hpending := congrArg View.pending hview
    refine View.ext ?_ ?_ hsession (hid.trans (by simp)) hpending
    · simp [hdb]
    · simp [hdb]
  · exact Acts.killed_of (hdrop.trans hloc) (fun _ => by rw [World.stored, hdb]; rfl) rfl

/-- **`start_recording`** of a connected session that is not recording. -/
theorem wp_startRecording {Q : Unit → ℕ → World → Prop} {dir : SessionDir}
    (hup : (w.heap s).isConnected = true) (hrec : (w.heap s).recording = false)
    (hQ : ∀ n', Q () n' (w.updSession s
      (ChannelSession.setRecording true ∘ ChannelSession.prepare dir)))
    (hE : ∀ e n' u, u = w ∨ u = w.die s ∨ u = w.updSession s (ChannelSession.prepare dir) →
      E e n' u)
    (hC : MayCrash o → ∀ w', SameStore w' w → C w') :
    wp o (ChannelSession.startRecording s dir) Q E C n w := by
  have hsame := fun f => SameStore.session s f w
  unfold ChannelSession.startRecording
  simp only [wp_bind, ChannelSession.wp_checkConnected, wp_ite, wp_raise, wp_reads, wp_external,
    wp_modify, hup, hrec]
  -- The check may see the session die, and either call may fail; then it does not record.
  refine ⟨fun _ => ⟨by simp, fun _ => ⟨by simp, fun _ => ⟨fun _ => ⟨fun _ => ?_, fun _ => ?_,
    fun h => ?_⟩, fun _ => ?_, fun h => ?_⟩⟩⟩, fun _ => ⟨fun _ => ?_, by simp⟩, fun h => ?_⟩
  · rw [World.updSession_updSession]
    exact hQ _
  · exact hE _ _ _ (Or.inr (Or.inr rfl))
  · exact hC ⟨_, _, h⟩ _ (hsame _)
  · exact hE _ _ _ (Or.inl rfl)
  · exact hC ⟨_, _, h⟩ _ (SameStore.rfl' w)
  · exact hE _ _ _ (Or.inr (Or.inl rfl))
  · exact hC ⟨_, _, h⟩ _ (SameStore.rfl' w)

/-- The store after the commit of `_handle_record_start`. -/
def World.rowAdded (c : ChannelId) (s : SessionId) (w : World) : World :=
  (w.commitDb (Database.addRecording w.nextId (IngestWorker.newRecording c s w.now))).takeId
    |>.commitDb (Database.setStatus c .recording)

/-- A row is added for the channel alone. -/
theorem local_rowAdded : Local c w (w.rowAdded c s) := by
  have hadd : Local c w ((w.commitDb (Database.addRecording w.nextId
      (IngestWorker.newRecording c s w.now))).takeId) := Local.addRecording rfl
  exact hadd.trans (Local.setStatus .recording)

/-- The new row is found under its id. -/
theorem lookup_rowAdded : (w.rowAdded c s).db.recordings.lookup w.nextId =
    some (IngestWorker.newRecording c s w.now) := by
  simp [World.rowAdded]

/-- What is stored of the channel after that. -/
theorem stored_rowAdded : (w.rowAdded c s).stored c =
    ⟨(w.db.status c).map fun _ => .recording,
      Function.update (w.db.rowsOf c) w.nextId (some s)⟩ := by
  refine Stored.ext ?_ ?_
  · simp [World.rowAdded]
  · simp [World.rowAdded, IngestWorker.newRecording]

/-- **The part of `_handle_record_start` that records.** -/
theorem openRecording_acts (ho : Steady o) (hs : w.sessions.lookup c = some s)
    (hup : (w.heap s).isConnected = true) (hrec : (w.heap s).recording = false)
    (hpending : c ∉ w.pendingRecord) :
    Acts o c w (IngestWorker.openRecording c s)
      (fun died v' => StartStep died w.nextId (w.view c) v') (StartKilled w.nextId (w.view c))
      n w := by
  have hsession : (w.view c).session = some (s, w.heap s) := by simp [hs]
  have hbefore : MayCrash o → Killed o c w (StartKilled w.nextId (w.view c)) w :=
    Acts.killed_of Local.rfl' (fun _ => rfl) StartKilled.before
  unfold Acts IngestWorker.openRecording
  simp only [wp_bind, wp_reads, wp_modify]
  refine wp_external_of ho rfl rfl (fun n₁ => ?_) hbefore
  refine wp_query_of ho.db (fun n₂ => ?_) hbefore
  refine wp_commit_of ho.db (fun n₃ => ?_) hbefore
  -- A channel whose row is gone gets a recording row and no status.
  have hcommit : (w.commitDb ((if w.db.status c = none then id else Database.setStatus c
      .recording) ∘ Database.addRecording w.nextId (IngestWorker.newRecording c s w.now))).takeId =
      w.rowAdded c s := by
    by_cases hst : w.db.status c = none
    · rw [if_pos hst, World.rowAdded, World.commitDb, World.commitDb, World.commitDb]
      simp [World.takeId, Database.setStatus_of_missing, hst]
    · rw [if_neg hst]
      rfl
  rw [hcommit]
  -- From here on the row is there.
  have hinserted : Sound w → StartKilled w.nextId (w.view c) ((w.rowAdded c s).stored c) := by
    intro _
    rw [stored_rowAdded]
    exact StartKilled.inserted s (w.heap s) hsession hup hrec
  have hafter : MayCrash o → ∀ u, SameStore u (w.rowAdded c s) →
      Killed o c w (StartKilled w.nextId (w.view c)) u :=
    fun h u hu => ⟨h, StoreLocal.of_local local_rowAdded hu,
      fun hw => hu.stored_eq c ▸ hinserted hw⟩
  refine wp_external_of ho rfl rfl (fun n₄ => ?_) fun h => hafter h _ (SameStore.rfl' _)
  rw [wp_attempt]
  -- The new row is of this channel, and so is the session.
  have hloc : Local c w ((w.rowAdded c s).setRecordingId c w.nextId) :=
    local_rowAdded.trans (Local.setRecordingId fun _ => ⟨_, lookup_rowAdded, rfl⟩)
  refine wp_startRecording hup hrec (fun n₅ => ?_) (fun e n₅ u hu => ?_) fun h w' hw' => ?_
  · refine ⟨hloc.trans (Local.updSession _ (Local.own hs)), fun _ => ?_⟩
    have hstep : StartStep w.died w.nextId (w.view c) _ := StartStep.opened s (w.heap s)
      ((w.heap s).prepare ⟨c, s⟩ |>.setRecording true) hsession hup hrec hup rfl
    have hstored := @stored_rowAdded w c s
    refine Eq.mpr (congrArg _ ?_) hstep
    refine View.ext ?_ ?_ ?_ ?_ ?_
    · exact congrArg Stored.status hstored
    · exact congrArg Stored.rows hstored
    · simp [World.rowAdded, hs]
    · simp
    · simp [World.rowAdded, hpending]
  · -- `start_recording` raises: the new row fails, unless the process is killed first.
    have hu' : Local c ((w.rowAdded c s).setRecordingId c w.nextId) u ∧
        u.sessions = w.sessions ∧ u.recordingIds.lookup c = some w.nextId ∧
        u.db = (w.rowAdded c s).db ∧ u.pendingRecord = w.pendingRecord ∧
        (u.heap s).recording = false ∧
        (u.died = false → (u.heap s).isConnected = true) := by
      rcases hu with rfl | rfl | rfl
      · exact ⟨Local.rfl', rfl, by simp, rfl, rfl, hrec, fun _ => hup⟩
      · refine ⟨Local.die (Local.own hs), rfl, by simp, rfl, rfl, ?_, by simp⟩
        simp [World.rowAdded, hrec]
      · refine ⟨Local.updSession _ (Local.own hs), rfl, by simp, rfl, rfl, ?_, ?_⟩
        · simp [World.rowAdded, hrec]
        · simp [World.rowAdded, hup]
    obtain ⟨hlocu, hsess, hids, hdb, hpend, hrecu, hupu⟩ := hu'
    change Acts o c w _ (fun died v' => StartStep died w.nextId (w.view c) v')
      (StartKilled w.nextId (w.view c)) n₅ u
    refine Acts.after (hloc.trans hlocu) (recordStartFailed_acts ho (hsess ▸ hs) hids
      (hdb ▸ lookup_rowAdded) rfl) (fun hsound d v hd hv => ?_) fun _ x hx => ?_
    · obtain ⟨up, y, hseen, rfl⟩ := hv
      have hstep : StartStep d w.nextId (w.view c) _ := StartStep.failed s (w.heap s) (u.heap s)
        up y hsession hup hrec hrecu (by cases d <;> simp_all) hseen
      refine Eq.mpr (congrArg _ ?_) hstep
      refine View.ext ?_ ?_ rfl rfl ?_
      · simp [hdb, World.rowAdded, Stored.write, Function.comp_def]
      · -- The row was fresh, so ending it leaves no trace.
        have hfresh := Function.update_eq_self w.nextId (w.db.rowsOf c)
        rw [hsound.rowsOf_nextId c] at hfresh
        simp [hdb, World.rowAdded, hfresh, Stored.write]
      · simp [hpend, hpending]
    · subst hx
      rw [World.stored, hdb]
      exact hinserted ‹_›
  · exact hafter h w' (hw'.trans ⟨rfl, fun _ _ => rfl, rfl, rfl, rfl⟩)

/-- **`_handle_record_start`.**  The channel makes the start step, which opens at most one row, with
the next id; no other channel sees anything. -/
theorem handleRecordStart_acts (ho : Steady o) (c : ChannelId) (n : ℕ) (w : World) :
    Acts o c w (IngestWorker.handleRecordStart c)
      (fun died v' => StartStep died w.nextId (w.view c) v') (StartKilled w.nextId (w.view c))
      n w := by
  unfold Acts IngestWorker.handleRecordStart
  rw [wp_bind, wp_reads]
  cases hs : w.sessions.lookup c with
  | none =>
    rw [wp_modify]
    refine ⟨Local.addPending, fun _ => ?_⟩
    refine Eq.mpr (congrArg _ ?_) (StartStep.absent (by simp [hs]))
    exact View.ext rfl rfl rfl rfl (by simp)
  | some s =>
    have hsession : (w.view c).session = some (s, w.heap s) := by simp [hs]
    -- A session that is down, or that the check sees die, leaves the start remembered.
    have hdead : ∀ u x', (u = w ∧ x' = w.heap s ∨ u = w.die s ∧ x' = (w.heap s).markEnded) →
        Seen u.died (w.heap s) false x' → Local c w (u.addPending c) ∧
          (Sound w → StartStep u.died w.nextId (w.view c) ((u.addPending c).view c)) := by
      intro u x' hu hseen
      obtain ⟨hloc, hview, -⟩ := local_checked hs hu
      refine ⟨hloc.trans Local.addPending, fun _ => ?_⟩
      refine Eq.mpr (congrArg _ ?_) (StartStep.dead s (w.heap s) x' hsession hseen)
      have hsess := congrArg View.session hview
      have hst := congrArg View.toStored hview
      have hid := congrArg View.recordingId hview
      exact View.ext (congrArg Stored.status hst) (congrArg Stored.rows hst) hsess hid (by simp)
    simp only [wp_bind, ChannelSession.wp_checkConnected, wp_ite, wp_modify, wp_reads, wp_pure]
    -- Down; up and recording, which only forgets the start; up and idle, which records.
    refine ⟨fun _ => ⟨fun hup => ?_, fun hup => ⟨fun hrec => ?_, fun hrec => ?_⟩⟩,
      fun _ => ⟨fun _ => ?_, by simp⟩, fun h => ?_⟩
    · exact hdead w _ (Or.inl ⟨rfl, rfl⟩) (hup ▸ Seen.asIs)
    · refine ⟨Local.dropPending, fun _ => ?_⟩
      refine Eq.mpr (congrArg _ ?_) (StartStep.already s _ hsession (by simpa using hup) hrec)
      exact View.ext rfl rfl rfl rfl (by simp)
    · have hdrop : Local c w (w.dropPending c) := Local.dropPending
      have hup' : (w.heap s).isConnected = true := by simpa using hup
      have hopen := @openRecording_acts o (n + 1) (w.dropPending c) c s ho hs hup'
        (by simpa using hrec) (by simp)
      have hview : (w.dropPending c).view c = { w.view c with pending := false } :=
        View.ext rfl rfl rfl rfl (by simp)
      rw [hview] at hopen
      exact hopen.after hdrop (fun _ d v _ hv => hv.of_pending) fun _ x hx => hx.of_pending
    · exact hdead _ _ (Or.inr ⟨rfl, rfl⟩) (Seen.ended rfl)
    · exact Acts.killed_of Local.rfl' (fun _ => rfl) StartKilled.before ⟨_, _, h⟩

/-! ## Stopping a recording -/

/-- The newest row in flight is the channel's. -/
theorem activeRecording_channel {db : Database} {r : RecordingId} {row : Recording}
    (ht : db.activeRecording c = some r) (hrow : db.recordings.lookup r = some row) :
    row.channelId = c := by
  obtain ⟨row', hrow', hc, -⟩ := Database.inFlight_of_activeRecording ht
  exact Option.some.inj (hrow.symm.trans hrow') ▸ hc

/-- So is the row to finish. -/
theorem finalizeTarget_channel (hw : Sound w) {r : RecordingId} {row : Recording}
    (ht : w.finalizeTarget c = some r) (hrow : w.db.recordings.lookup r = some row) :
    row.channelId = c := by
  unfold World.finalizeTarget at ht
  split at ht
  · exact activeRecording_channel ht hrow
  · rename_i r' hr'
    split at ht
    · obtain rfl := Option.some.inj ht
      obtain ⟨row', hrow', hc⟩ := hw.known c r' hr'
      exact Option.some.inj (hrow.symm.trans hrow') ▸ hc
    · exact activeRecording_channel ht hrow

/-- A remembered row exists. -/
theorem target_finalizeTarget (hw : Sound w) : Target (w.view c) (w.finalizeTarget c) := by
  unfold Target World.finalizeTarget
  rw [World.view_recordingId]
  cases hr : w.recordingIds.lookup c with
  | none => exact picks_activeRecording w.db c
  | some r =>
    obtain ⟨row, hrow, -⟩ := hw.known c r hr
    exact if_pos (Dict.mem_iff_exists_lookup.mpr ⟨row, hrow⟩)

/-- What completing a recording does to its row. -/
def finishRow (segments bytes now : ℕ) (row : Recording) : Recording :=
  { row with status := .completed, endedAt := some now, segmentCount := segments,
             byteSize := bytes }

/-- A row that is known is completed. -/
theorem completeRow_some (db : Database) (r : RecordingId) (segments bytes now : ℕ) :
    World.completeRow (some r) segments bytes now db = { db with
      recordings := Dict.modify r (finishRow segments bytes now) db.recordings } := by
  rw [World.completeRow, Database.setCounts, Database.endRecording, Dict.modify_modify]
  rfl

/-- It is one of the channel. -/
theorem local_completeRow {t : Option RecordingId} (segments bytes now : ℕ)
    (ht : Sound w → ∀ r row, t = some r → w.db.recordings.lookup r = some row →
      row.channelId = c) :
    Local c w (w.commitDb (World.completeRow t segments bytes now)) := by
  cases t with
  | none => exact Local.rfl'
  | some r =>
    have hmod : Local c w (w.commitDb fun db => { db with
        recordings := Dict.modify r (finishRow segments bytes now) db.recordings }) :=
      Local.modifyRecording (fun _ => rfl) fun hw row hrow => ht hw r row rfl hrow
    rw [World.commitDb] at hmod ⊢
    rwa [completeRow_some]

@[simp] theorem rowsOf_completeRow (t : Option RecordingId) (segments bytes now : ℕ)
    (db : Database) (d : ChannelId) :
    (World.completeRow t segments bytes now db).rowsOf d = dropRow t (db.rowsOf d) := by
  cases t with
  | none => rfl
  | some r => simp [World.completeRow, dropRow]

/-- A finalized recording is its channel's affair. -/
theorem local_finalized (h : Sound w → ∀ d, w.sessions.lookup d = some s → d = c) :
    Local c w (w.finalized c s) := by
  have hstop : Local c w (w.stopCapture s) := Local.updSession _ h
  have hrow : Local c (w.stopCapture s) ((w.stopCapture s).commitDb (World.completeRow
      ((w.stopCapture s).finalizeTarget c) ((w.stopCapture s).heap s).segmentCount
      ((w.stopCapture s).sizeOf s) w.now)) :=
    local_completeRow _ _ _ fun hw r row ht hrow => finalizeTarget_channel hw ht hrow
  exact (hstop.trans hrow).trans Local.dropRecordingId

/-- What is stored then. -/
theorem stored_finalized : (w.finalized c s).stored c =
    { w.stored c with rows := dropRow (w.finalizeTarget c) (w.stored c).rows } := by
  refine Stored.ext ?_ ?_
  · exact World.status_finalized w c c s
  · simp [World.finalized, World.finished]

/-- **`_finalize_recording`**, when there is something to finalize. -/
theorem wp_finalize {Q : Unit → ℕ → World → Prop} (ho : Steady o) (hrec : w.HasRecording c s)
    (hQ : ∀ n' w', SameBooks w' (w.finalized c s) → Q () n' w')
    (hC : MayCrash o → ∀ w', SameStore w' w ∨ SameStore w' (w.finalized c s) → C w') :
    wp o (IngestWorker.finalizeRecording c s) Q E C n w := by
  refine wp_finalizeRecording ho.db hrec (fun _ _ _ n' w' hw' => hQ n' w' hw') ?_ ?_ ?_ ?_
  · exact fun _ _ _ h => absurd h ho.not_unpublished
  · exact fun h => absurd h ho.not_unlistable
  · exact fun h w' hw' => hC h w' (Or.inl hw')
  · exact fun h w' hw' => hC h w' (Or.inr hw')

/-- **`_finalize_recording`**, when there is nothing to finalize. -/
theorem wp_finalize_of_not {Q : Unit → ℕ → World → Prop} (hrec : ¬ w.HasRecording c s)
    (hQ : Q () n w) : wp o (IngestWorker.finalizeRecording c s) Q E C n w := by
  have hnone : (w.heap s).recording = false ∧ w.recordingIds.lookup c = none := by
    simpa [World.HasRecording] using hrec
  unfold IngestWorker.finalizeRecording
  simp only [wp_bind, wp_reads, wp_ite, hnone, wp_pure]
  exact ⟨fun _ => hQ, fun h => absurd ⟨trivial, trivial⟩ h⟩

/-- The last part of `_handle_record_stop`. -/
theorem settle_acts (ho : Steady o) (hs : w.sessions.lookup c = some s) :
    Acts o c w (do
        let ch ← query fun db => db.status c
        whenever (ch ≠ none) do
          let up ← ChannelSession.checkConnected s
          commit (Database.setStatus c (if up = true then .connected else .idle)))
      (fun died v' => ∃ up y, Seen died (w.heap s) up y ∧ v' =
        { w.view c with
          toStored := (w.view c).toStored.write (if up = true then .connected else .idle)
          session := some (s, y) })
      (fun x => x = w.stored c) n w := by
  have hk : MayCrash o → Killed o c w (fun x => x = w.stored c) w :=
    Acts.killed_of Local.rfl' (fun _ => rfl) rfl
  unfold Acts
  rw [wp_bind]
  refine wp_query_of ho.db (fun n₁ => ?_) hk
  rw [wp_whenever, wp_bind]
  refine ⟨fun hst => ?_, fun hst => ?_⟩
  -- The status says whether the check has found the session up.
  · have hchecked : ∀ up y u, (u = w ∧ y = w.heap s ∨ u = w.die s ∧ y = (w.heap s).markEnded) →
        Seen u.died (w.heap s) up y → ∀ n₂, wp o (commit (Database.setStatus c
          (if up = true then .connected else .idle))) (fun _ _ w' => Local c w w' ∧ (Sound w →
            ∃ up y, Seen w'.died (w.heap s) up y ∧ w'.view c = { w.view c with
              toStored := (w.view c).toStored.write (if up = true then .connected else .idle)
              session := some (s, y) }))
          (fun _ _ _ => False) (Killed o c w fun x => x = w.stored c) n₂ u := by
      intro up y u hu hseen n₂
      obtain ⟨hloc, hview, hdb, -⟩ := local_checked hs hu
      refine wp_commit_of ho.db (fun n₃ => ?_) ?_
      · refine ⟨hloc.trans (Local.setStatus _), fun _ => ⟨up, y, hseen, ?_⟩⟩
        have hsess := congrArg View.session hview
        have hid := congrArg View.recordingId hview
        have hpending := congrArg View.pending hview
        refine View.ext ?_ ?_ hsess hid hpending
        · simp [hdb]
        · simp [hdb]
      · exact Acts.killed_of hloc (fun _ => by rw [World.stored, hdb]; rfl) rfl
    rw [ChannelSession.wp_checkConnected]
    exact ⟨fun _ => hchecked _ _ w (Or.inl ⟨rfl, rfl⟩) Seen.asIs _,
      fun _ => hchecked _ _ _ (Or.inr ⟨rfl, rfl⟩) (Seen.ended rfl) _, fun h => hk ⟨_, _, h⟩⟩
  · refine ⟨Local.rfl', fun _ => ⟨_, _, Seen.asIs, ?_⟩⟩
    refine View.ext ?_ rfl (by simp [hs]) rfl rfl
    simp [not_not.mp hst]

/-- **`_handle_record_stop` with a session.** -/
theorem stopSession_acts (ho : Steady o) (hs : w.sessions.lookup c = some s)
    (hpending : c ∉ w.pendingRecord) :
    Acts o c w (IngestWorker.stopSession c s) (fun died v' => StopStep died (w.view c) v')
      (FinalizeKilled (w.view c)) n w := by
  have hsession : (w.view c).session = some (s, w.heap s) := by simp [hs]
  have hpend : (w.view c).pending = false := by simp [hpending]
  unfold Acts IngestWorker.stopSession
  rw [wp_bind]
  -- There is something to finish when the session records or a row is remembered.
  by_cases hrec : w.HasRecording c s
  · have hloc : Local c w (w.finalized c s) := local_finalized (Local.own hs)
    have hrec' : (w.heap s).recording = true ∨ (w.view c).recordingId ≠ none := hrec
    have hkilled : Sound w → FinalizeKilled (w.view c) ((w.finalized c s).stored c) := by
      intro hw
      rw [stored_finalized]
      exact FinalizeKilled.finalized s _ _ hsession hrec' (target_finalizeTarget hw)
    -- A kill in here leaves the row in flight, or completed.
    refine wp_finalize ho hrec (fun n₁ w₁ hw₁ => ?_) fun h w₁ hw₁ => ?_
    · have hloc₁ : Local c w w₁ := hloc.trans (Local.ofSameBooks hw₁)
      have hs₁ : w₁.sessions.lookup c = some s := by rw [hw₁.sessions]; exact hs
      change Acts o c w _ (fun died v' => StopStep died (w.view c) v')
        (FinalizeKilled (w.view c)) n₁ w₁
      refine (settle_acts ho hs₁).after hloc₁ (fun hw d v _ hv => ?_) fun hw x hx => ?_
      · obtain ⟨up, y, hseen, rfl⟩ := hv
        rw [hw₁.view_eq, hw₁.heap] at *
        have hstep : StopStep d (w.view c) _ := StopStep.finalized s (w.heap s)
          (w.halt (w.heap s)) _ up y hsession hrec' (target_finalizeTarget hw) (by simp) (by simp)
          (by simpa using hseen)
        refine Eq.mpr (congrArg _ ?_) hstep
        have hst := stored_finalized (w := w) (c := c) (s := s)
        refine View.ext ?_ ?_ rfl (by simp [World.finalized, World.finished]) hpend
        · simp
        · have hrows := congrArg Stored.rows hst
          exact hrows
      · subst hx
        exact hw₁.toSameStore.stored_eq c ▸ hkilled hw
    · rcases hw₁ with hw₁ | hw₁
      · exact ⟨h, StoreLocal.of_local Local.rfl' hw₁,
          fun _ => hw₁.stored_eq c ▸ FinalizeKilled.before⟩
      · exact ⟨h, StoreLocal.of_local hloc hw₁, fun hw => hw₁.stored_eq c ▸ hkilled hw⟩
  · have hnone : (w.heap s).recording = false ∧ w.recordingIds.lookup c = none := by
      simpa [World.HasRecording] using hrec
    apply wp_finalize_of_not hrec
    change Acts o c w _ (fun died v' => StopStep died (w.view c) v')
      (FinalizeKilled (w.view c)) n w
    refine (settle_acts ho hs).after Local.rfl' (fun _ d v _ hv => ?_) fun _ x hx => ?_
    · obtain ⟨up, y, hseen, rfl⟩ := hv
      have hstep : StopStep d (w.view c) _ :=
        StopStep.idle s (w.heap s) up y hsession hnone.1 hnone.2 hseen
      refine Eq.mpr (congrArg _ ?_) hstep
      exact View.ext rfl rfl rfl rfl hpend
    · exact hx ▸ FinalizeKilled.before

/-- The row `_fail_active_recording` has found becomes `failed`. -/
def failRow (t : Option RecordingId) (now : ℕ) : Database → Database :=
  match t with
  | none => id
  | some r => Database.endRecording r .failed now

@[simp] theorem status_failRow (t : Option RecordingId) (now : ℕ) (db : Database)
    (d : ChannelId) : (failRow t now db).status d = db.status d := by
  cases t <;> rfl

@[simp] theorem rowsOf_failRow (t : Option RecordingId) (now : ℕ) (db : Database)
    (d : ChannelId) : (failRow t now db).rowsOf d = dropRow t (db.rowsOf d) := by
  cases t with
  | none => rfl
  | some r => simp [failRow, dropRow]

/-- **`_fail_active_recording`** only prepares the write that fails the row the query finds, if
there is one. -/
theorem wp_failActiveRecording {Q : (Database → Database) → ℕ → World → Prop} (ho : Steady o)
    (hQ : ∀ n', Q (failRow (w.db.activeRecording c) w.now) n' w) (hC : MayCrash o → C w) :
    wp o (IngestWorker.failActiveRecording c) Q E C n w := by
  unfold IngestWorker.failActiveRecording
  rw [wp_bind]
  refine wp_query_of ho.db (fun n₁ => ?_) hC
  rw [wp_bind, wp_reads]
  unfold failRow at hQ
  cases ht : w.db.activeRecording c with
  | none =>
    rw [ht] at hQ
    exact hQ n₁
  | some r =>
    rw [ht] at hQ
    exact hQ n₁

/-- So is the row that fails. -/
theorem local_failRow {t : Option RecordingId} {now : ℕ}
    (ht : Sound w → ∀ r row, t = some r → w.db.recordings.lookup r = some row →
      row.channelId = c) : Local c w (w.commitDb (failRow t now)) := by
  cases t with
  | none => exact Local.rfl'
  | some r => exact Local.modifyRecording (fun _ => rfl) fun hw row hrow => ht hw r row rfl hrow

/-- A write of the channel's status that is guarded by the old one. -/
def writeIf (c : ChannelId) (sts : List ChannelStatus) (st : ChannelStatus) (db : Database) :
    Database :=
  if (db.status c).any (· ∈ sts) = true then db.setStatus c st else db

/-- And the status. -/
theorem local_writeIf {sts : List ChannelStatus} {st : ChannelStatus} :
    Local c w (w.commitDb (writeIf c sts st)) := by
  unfold writeIf
  by_cases h : (w.db.status c).any (· ∈ sts) = true
  · simp only [World.commitDb, if_pos h]
    exact Local.setStatus st
  · simp only [World.commitDb, if_neg h]
    exact Local.rfl'

@[simp] theorem status_writeIf (c : ChannelId) (sts : List ChannelStatus) (st : ChannelStatus)
    (db : Database) : (writeIf c sts st db).status c =
      if (db.status c).any (· ∈ sts) = true then some st else db.status c := by
  unfold writeIf
  split
  · rename_i h
    obtain ⟨st', hst'⟩ : ∃ st', db.status c = some st' := by
      cases hdb : db.status c with
      | none => simp [hdb] at h
      | some st' => exact ⟨st', rfl⟩
    simp [hst']
  · rfl

@[simp] theorem recordings_writeIf (c : ChannelId) (sts : List ChannelStatus)
    (st : ChannelStatus) (db : Database) :
    (writeIf c sts st db).recordings = db.recordings := by
  unfold writeIf
  split <;> rfl

@[simp] theorem rowsOf_writeIf (c d : ChannelId) (sts : List ChannelStatus)
    (st : ChannelStatus) (db : Database) : (writeIf c sts st db).rowsOf d = db.rowsOf d := by
  unfold writeIf
  split <;> rfl

/-- **`_handle_record_stop` without a session.** -/
theorem stopWithoutSession_acts (ho : Steady o) (hs : w.sessions.lookup c = none)
    (hpending : c ∉ w.pendingRecord) :
    Acts o c w (IngestWorker.stopWithoutSession c) (fun died v' => StopStep died (w.view c) v')
      (FinalizeKilled (w.view c)) n w := by
  have hk : MayCrash o → Killed o c w (FinalizeKilled (w.view c)) w :=
    Acts.killed_of Local.rfl' (fun _ => rfl) FinalizeKilled.before
  unfold Acts IngestWorker.stopWithoutSession
  simp only [wp_bind]
  refine wp_query_of ho.db (fun n₁ => ?_) hk
  refine wp_failActiveRecording ho (fun n₂ => ?_) hk
  refine wp_commit_of ho.db (fun n₃ => ?_) hk
  -- One commit has both: the newest row in flight fails, and a guarded status goes to idle.
  have hdb : w.commitDb (failRow (w.db.activeRecording c) w.now ∘
      if (w.db.status c).any (· ∈ [ChannelStatus.stopping, .recording, .starting]) = true
        then Database.setStatus c .idle else id) =
      (w.commitDb (writeIf c [.stopping, .recording, .starting] .idle)).commitDb
        (failRow (w.db.activeRecording c) w.now) := by
    simp only [World.commitDb, writeIf, Function.comp_apply]
    split <;> rfl
  rw [hdb]
  refine ⟨local_writeIf.trans (local_failRow fun hw r row ht hrow => ?_), fun hw => ?_⟩
  · exact activeRecording_channel ht (by simpa using hrow)
  · have hstep : StopStep w.died (w.view c) _ :=
      StopStep.absent _ (by simp [hs]) (picks_activeRecording w.db c)
    refine Eq.mpr (congrArg _ ?_) hstep
    refine View.ext ?_ ?_ rfl rfl (by simp [hpending])
    · simp [Stored.writeIf]
    · simp

/-- A pending request is forgotten. -/
theorem view_dropPending : (w.dropPending c).view c = { w.view c with pending := false } :=
  View.ext rfl rfl rfl rfl (by simp)

/-- **`_handle_record_stop`.**  The channel makes the stop step: the recording of a session is
finalized, and without a session the row in flight is failed. -/
theorem handleRecordStop_acts (ho : Steady o) (c : ChannelId) (n : ℕ) (w : World) :
    Acts o c w (IngestWorker.handleRecordStop c) (fun died v' => StopStep died (w.view c) v')
      (FinalizeKilled (w.view c)) n w := by
  have hdrop : Local c w (w.dropPending c) := Local.dropPending
  unfold Acts IngestWorker.handleRecordStop
  simp only [wp_bind, wp_modify, wp_reads]
  -- Both branches begin with the remembered start forgotten.
  cases hs : (w.dropPending c).sessions.lookup c with
  | none =>
    have hstop := @stopWithoutSession_acts o n (w.dropPending c) c ho hs (by simp)
    rw [view_dropPending] at hstop
    exact hstop.after hdrop (fun _ d v _ hv => hv.of_pending) fun _ x hx => hx.of_pending
  | some s =>
    have hstop := @stopSession_acts o n (w.dropPending c) c s ho hs (by simp)
    rw [view_dropPending] at hstop
    exact hstop.after hdrop (fun _ d v _ hv => hv.of_pending) fun _ x hx => hx.of_pending

end Specs
