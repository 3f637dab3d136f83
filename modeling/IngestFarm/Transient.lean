/-
# A database failure in the middle of a handler

`_heartbeat`, `_handle_record_stop` and `_handle_disconnect` change the worker's memory before they
commit.  When a call fails in between, the next heartbeat and a retry of the request see the
changed memory over the old rows.  `Faults` is what a handler can have done to its channel by
then, whatever its calls did; a row in flight survives all of it when its session was taken out, or
told to stop, before the row was finished.

What is left then is a matter of counting.  The heartbeat fails the newest row of a channel whose
session it finds dead, and a stop without a session fails the newest row too; nothing else looks at
a row that is not remembered.  So a failed stop is made good exactly when the channel has no more
rows in flight than there are such passes to come (`World.passes`), a failed disconnect when it has
none, and a failed heartbeat when no session that it drops leaves a row or an active status.
-/
import IngestFarm.Disconnect
import IngestFarm.Frames
import IngestFarm.Ownership
import IngestFarm.Startup
import IngestFarm.Teardown

open Prog

/-! ## What a handler can have done -/

/-- Only channel `c` and its session `s` are touched: the session stays in its place, and rows in
flight may have ended. -/
structure Faults (c : ChannelId) (s : SessionId) (w w' : World) : Prop where
  /-- Other channels are not touched. -/
  near : Local c w w'
  /-- Nor is the place of any session. -/
  sessions : w'.sessions = w.sessions
  /-- A session that was down is down. -/
  dead : (w.heap s).isConnected = false → (w'.heap s).isConnected = false
  /-- No row is new in flight. -/
  rows : ∀ r t, w'.db.rowsOf c r = some t → w.db.rowsOf c r = some t

/-- The session object is nobody else's. -/
structure Own (c : ChannelId) (s : SessionId) (w : World) : Prop where
  sound : Sound w
  own : ∀ d, w.sessions.lookup d = some s → d = c

/-- `Faults`, from a state in which the session is nobody else's. -/
def MayFault (c : ChannelId) (s : SessionId) (w w' : World) : Prop := Own c s w → Faults c s w w'

section Faults

variable {c : ChannelId} {s : SessionId} {w w' w'' : World}

theorem Faults.refl (c : ChannelId) (s : SessionId) (w : World) : Faults c s w w :=
  ⟨Local.rfl', rfl, id, fun _ _ h => h⟩

theorem Faults.trans (h : Faults c s w w') (h' : Faults c s w' w'') : Faults c s w w'' where
  near := h.near.trans h'.near
  sessions := h'.sessions.trans h.sessions
  dead hd := h'.dead (h.dead hd)
  rows r t hr := h.rows r t (h'.rows r t hr)

/-- The session is still that of the channel. -/
theorem Faults.own (h : Faults c s w w') (hw : Own c s w) : Own c s w' := by
  refine ⟨h.near.sound hw.sound, fun d hd => hw.own d ?_⟩
  rwa [h.sessions] at hd

/-- Failing on one session is a frame. -/
theorem frame_mayFault (c : ChannelId) (s : SessionId) : Frame (MayFault c s) :=
  ⟨fun w _ => Faults.refl c s w, fun _ _ _ h h' hw => (h hw).trans (h' ((h hw).own hw))⟩

/-- A change of the session object. -/
theorem mayFault_updSession {f : ChannelSession → ChannelSession}
    (hf : ∀ x, x.isConnected = false → (f x).isConnected = false) (w : World) :
    MayFault c s w (w.updSession s f) := by
  refine fun hw => ⟨Local.updSession f fun _ => hw.own, rfl, fun hd => ?_, fun _ _ h => h⟩
  rw [World.updSession_heap, Function.update_self]
  exact hf _ hd

/-- So the calls on that session stay within it. -/
theorem sessionFrame_mayFault (c : ChannelId) (s : SessionId) :
    SessionFrame (MayFault c s) s where
  refl := (frame_mayFault c s).refl
  trans := (frame_mayFault c s).trans
  die w := fun hw => ⟨Local.die fun _ => hw.own, rfl, fun _ => by simp, fun _ _ h => h⟩
  prepare dir w := mayFault_updSession (f := ChannelSession.prepare dir) (fun _ h => h) w
  setRecording b w := mayFault_updSession (f := ChannelSession.setRecording b) (fun _ h => h) w
  setCount n w := mayFault_updSession (f := ChannelSession.setCount n) (fun _ h => h) w
  markStopping w := mayFault_updSession (f := ChannelSession.markStopping) (fun _ h => h) w
  close w := mayFault_updSession (fun _ _ => rfl) w

/-- What is not in the books does not count. -/
theorem mayFault_of_sameBooks (h : SameBooks w' w) : MayFault c s w w' := by
  refine fun _ => ⟨Local.ofSameBooks h, h.sessions, fun hd => ?_, fun r t hr => ?_⟩
  · rw [h.heap]
    exact hd
  · rw [h.db] at hr
    exact hr

/-- And what is said about its statistics does. -/
theorem statsFrame_mayFault (c : ChannelId) (s : SessionId) : StatsFrame (MayFault c s) where
  refl := (frame_mayFault c s).refl
  trans := (frame_mayFault c s).trans
  addStats _ _ := mayFault_of_sameBooks
    ⟨⟨rfl, fun _ _ => rfl, rfl, rfl, rfl⟩, rfl, rfl, rfl, rfl, rfl, rfl⟩
  dropStats _ _ := mayFault_of_sameBooks
    ⟨⟨rfl, fun _ _ => rfl, rfl, rfl, rfl⟩, rfl, rfl, rfl, rfl, rfl, rfl⟩

/-- A status may be staged before a failure. -/
theorem mayFault_setStatus (c : ChannelId) (s : SessionId) (st : ChannelStatus) :
    Stages (MayFault c s) (Database.setStatus c st) :=
  fun _ _ => ⟨Local.setStatus st, rfl, id, fun r t hr => by simpa using hr⟩

/-- A row of the channel that ends. -/
theorem faults_of_dropRow {t : Option RecordingId} (hlocal : Local c w w')
    (hsess : w'.sessions = w.sessions) (hheap : w'.heap = w.heap)
    (hrows : w'.db.rowsOf c = dropRow t (w.db.rowsOf c)) : Faults c s w w' := by
  refine ⟨hlocal, hsess, fun hd => hheap ▸ hd, fun r x hr => ?_⟩
  rw [hrows] at hr
  exact (dropRow_eq_some.mp hr).2

end Faults

section Handlers

variable {o : Oracle Call} {n : ℕ} {w u : World} {c : ChannelId} {s : SessionId}

/-- A part of a handler in which only the session and its channel are touched. -/
theorem wp_faults {α : Type} {S : α → Prop} {m : Handler α} {Q : α → ℕ → World → Prop}
    {E : PyError → ℕ → World → Prop} {C : World → Prop} (hw : Own c s w) (hu : Faults c s w u)
    (h : Keeps (MayFault c s) S m) (hQ : ∀ a n' t, Faults c s w t → Q a n' t)
    (hE : ∀ e n' t, Faults c s w t → E e n' t) (hC : ∀ t, Faults c s w t → C t) :
    wp o m Q E C n u :=
  wp_of_keeps h (fun a n' t ht _ => hQ a n' t (hu.trans (ht (hu.own hw))))
    (fun e n' t ht => hE e n' t (hu.trans (ht (hu.own hw))))
    fun t ht => hC t (hu.trans (ht (hu.own hw)))

/-- **`_finalize_recording`**, whatever fails in it. -/
theorem wp_finalize_faults (hw : Own c s w) (hu : Faults c s w u) :
    wp o (IngestWorker.finalizeRecording c s) (fun _ _ t => Faults c s w t)
      (fun _ _ t => Faults c s w t) (Faults c s w) n u := by
  have hframe := frame_mayFault c s
  have hannounce : ∀ q r, q.isControl = false → Keeps (MayFault c s) (fun _ => True)
      (IngestWorker.announce q c r) := by
    intro q r hq
    unfold IngestWorker.announce publishEvent
    refine Keeps.seq (m := _) hframe ?_ fun _ => Keeps.modify fun v =>
      mayFault_of_sameBooks (SameBooks.note rfl v)
    exact Keeps.seq hframe (Keeps.outer hframe _) fun _ => Keeps.modify fun v =>
      mayFault_of_sameBooks (SameBooks.push hq _ v)
  -- The row that is finished is the channel's.
  have hcomplete : ∀ segments bytes files row n₁ t, Faults c s w t →
      (∀ r x, row = some r → t.db.recordings.lookup r = some x → x.channelId = c) →
      wp o (IngestWorker.completeRecording c segments bytes files row)
        (fun _ _ t => Faults c s w t) (fun _ _ t => Faults c s w t) (Faults c s w) n₁ t := by
    intro segments bytes files row n₁ t ht hrow
    unfold IngestWorker.completeRecording
    rcases row with _ | r
    · exact ht
    · rw [wp_bind, wp_reads, wp_bind, wp_commit]
      refine ⟨fun _ => ?_, fun _ => ht, fun _ => ht⟩
      have hdone : Faults c s w (t.commitDb (World.completeRow (some r) segments bytes t.now)) :=
        ht.trans (faults_of_dropRow (local_completeRow segments bytes t.now fun _ => hrow) rfl rfl
          (rowsOf_completeRow (some r) segments bytes t.now t.db c))
      refine wp_faults hw hdone (S := fun _ => True) ?_ (fun _ _ _ h => h) (fun _ _ _ h => h)
        fun _ h => h
      refine Keeps.seq hframe (Keeps.modify fun v =>
        mayFault_of_sameBooks (SameBooks.note rfl v)) fun _ => ?_
      refine Keeps.seq hframe (Keeps.outer hframe _) fun _ => ?_
      exact Keeps.seq hframe (hannounce _ r rfl) fun _ => hannounce _ r rfl
  unfold IngestWorker.finalizeRecording IngestWorker.finishRecording
  rw [wp_bind, wp_reads, wp_bind, wp_reads, wp_ite]
  refine ⟨fun _ => hu, fun _ => ?_⟩
  rw [wp_bind]
  refine wp_faults hw hu (Keeps.whenever hframe fun _ => (sessionFrame_mayFault c s).stopRecording)
    (fun _ n₁ t ht => ?_) (fun _ _ _ h => h) fun _ h => h
  rw [wp_bind, wp_reads, wp_bind]
  refine wp_faults hw ht ((sessionFrame_mayFault c s).measure _) (fun bytes n₂ t₂ ht₂ => ?_)
    (fun _ _ _ h => h) fun _ h => h
  rw [wp_bind, wp_reads, wp_bind, wp_reads, wp_bind, wp_modify, wp_bind]
  have hsound := (ht₂.own hw).sound
  have hdrop : Faults c s w (t₂.dropRecordingId c) :=
    ht₂.trans ⟨Local.dropRecordingId, rfl, id, fun _ _ h => h⟩
  have hactive : ∀ r x, t₂.db.activeRecording c = some r →
      t₂.db.recordings.lookup r = some x → x.channelId = c :=
    fun r x hr hx => activeRecording_channel hr hx
  unfold IngestWorker.findRecording
  rcases hid : t₂.recordingIds.lookup c with _ | r
  · rw [wp_query]
    exact ⟨fun _ => hcomplete _ _ _ _ _ _ hdrop hactive, fun _ => hdrop, fun _ => hdrop⟩
  · rw [wp_bind, wp_query]
    refine ⟨fun _ => ?_, fun _ => hdrop, fun _ => hdrop⟩
    rw [wp_ite, wp_pure, wp_query]
    refine ⟨fun _ => hcomplete _ _ _ _ _ _ hdrop fun r' x hr hx => ?_, fun _ =>
      ⟨fun _ => hcomplete _ _ _ _ _ _ hdrop hactive, fun _ => hdrop, fun _ => hdrop⟩⟩
    obtain rfl := Option.some.inj hr
    obtain ⟨x', hx', hc⟩ := hsound.known c r hid
    exact Option.some.inj (hx.symm.trans hx') ▸ hc

/-- **`_handle_record_stop`** with a session, whatever fails in it. -/
theorem wp_stop_faults (hw : Own c s w) (hs : w.sessions.lookup c = some s) :
    wp o (IngestWorker.handleRecordStop c) (fun _ _ t => Faults c s w t)
      (fun _ _ t => Faults c s w t) (Faults c s w) n w := by
  have hframe := frame_mayFault c s
  have hdrop : Faults c s w (w.dropPending c) := ⟨Local.dropPending, rfl, id, fun _ _ h => h⟩
  unfold IngestWorker.handleRecordStop
  rw [wp_bind, wp_modify, wp_bind, wp_reads, World.dropPending_sessions, hs]
  unfold IngestWorker.stopSession
  dsimp only
  rw [wp_bind]
  refine wp_mono (wp_finalize_faults hw hdrop) (fun _ n₁ t ht => ?_) (fun _ _ _ h => h) fun _ h => h
  refine wp_faults hw ht (S := fun _ => True) ?_ (fun _ _ _ h => h) (fun _ _ _ h => h) fun _ h => h
  refine Keeps.queried hframe fun ch => Keeps.whenever hframe fun _ => ?_
  refine Keeps.seq hframe (sessionFrame_mayFault c s).checkConnected fun up => ?_
  exact Stages.commit hframe (mayFault_setStatus c s _)

/-- What is left of channel `c` after a handler that may have failed. -/
structure Halfway (c : ChannelId) (w w' : World) : Prop where
  near : Local c w w'
  rows : ∀ r t, w'.db.rowsOf c r = some t → w.db.rowsOf c r = some t

/-- A handler that has failed may be taken up again. -/
theorem Faults.halfway {w' : World} (h : Faults c s w w') : Halfway c w w' := ⟨h.near, h.rows⟩

/-- `_handle_record_stop` without a session, whatever fails in it. -/
theorem wp_stop_absent (hs : w.sessions.lookup c = none) :
    wp o (IngestWorker.handleRecordStop c) (fun _ _ t => Faults c s w t)
      (fun _ _ t => Faults c s w t) (Faults c s w) n w := by
  have hdrop : Faults c s w (w.dropPending c) := ⟨Local.dropPending, rfl, id, fun _ _ h => h⟩
  unfold IngestWorker.handleRecordStop
  rw [wp_bind, wp_modify, wp_bind, wp_reads, World.dropPending_sessions, hs]
  unfold IngestWorker.stopWithoutSession IngestWorker.failActiveRecording
  dsimp only
  rw [wp_bind, wp_query]
  refine ⟨fun _ => ?_, fun _ => hdrop, fun _ => hdrop⟩
  rw [wp_bind, wp_bind, wp_query]
  refine ⟨fun _ => ?_, fun _ => hdrop, fun _ => hdrop⟩
  rw [wp_bind, wp_reads]
  -- The status is written first, then the newest row ends.
  obtain ⟨g, hg, hg'⟩ : ∃ g : Database → Database, g = (if ((w.dropPending c).db.status c).any
      (· ∈ [.stopping, .recording, .starting]) = true then Database.setStatus c .idle else id) ∧
        (g = Database.setStatus c .idle ∨ g = id) := by
    refine ⟨_, rfl, ?_⟩
    split
    · exact Or.inl rfl
    · exact Or.inr rfl
  rw [← hg]
  have hmark : Faults c s w ((w.dropPending c).commitDb g) := by
    rcases hg' with rfl | rfl
    · exact ⟨hdrop.near.trans (Local.setStatus .idle), rfl, id, fun r t hr => by simpa using hr⟩
    · exact hdrop
  rcases hact : (w.dropPending c).db.activeRecording c with _ | r
  · rw [wp_pure, wp_commit]
    exact ⟨fun _ => hmark, fun _ => hdrop, fun _ => hdrop⟩
  · rw [wp_pure, wp_commit]
    refine ⟨fun _ => ?_, fun _ => hdrop, fun _ => hdrop⟩
    refine ⟨hmark.near.trans (local_failRow (t := some r) fun _ r' x hr hx => ?_), rfl, id, ?_⟩
    · obtain rfl := Option.some.inj hr
      apply activeRecording_channel hact
      rw [← hx]
      rcases hg' with rfl | rfl <;> rfl
    · intro r' t hr
      apply hmark.rows r' t
      have hr' : dropRow (some r) (Database.rowsOf (g (w.dropPending c).db) c) r' = some t := by
        rw [← rowsOf_failRow (some r) (w.dropPending c).now]
        exact hr
      exact (dropRow_eq_some.mp hr').2

/-- **`_handle_record_stop`**, whatever fails in it: the session stays in its place. -/
theorem wp_stop_any (hw : Sound w) :
    wp o (IngestWorker.handleRecordStop c)
      (fun _ _ t => ∃ s, Own c s w ∧ Faults c s w t ∧
        ∀ s', w.sessions.lookup c = some s' → s' = s)
      (fun _ _ t => ∃ s, Own c s w ∧ Faults c s w t ∧
        ∀ s', w.sessions.lookup c = some s' → s' = s)
      (fun t => ∃ s, Own c s w ∧ Faults c s w t ∧
        ∀ s', w.sessions.lookup c = some s' → s' = s) n w := by
  rcases hs : w.sessions.lookup c with _ | s
  · have hown : Own c w.nextId w := ⟨hw, Local.fresh le_rfl hw⟩
    refine wp_mono (@wp_stop_absent o n w c w.nextId hs) ?_ ?_ ?_
    · exact fun _ _ _ ht => ⟨w.nextId, hown, ht, fun s' hs' => absurd hs' (by simp)⟩
    · exact fun _ _ _ ht => ⟨w.nextId, hown, ht, fun s' hs' => absurd hs' (by simp)⟩
    · exact fun _ ht => ⟨w.nextId, hown, ht, fun s' hs' => absurd hs' (by simp)⟩
  · have hown : Own c s w := ⟨hw, Local.own hs hw⟩
    refine wp_mono (wp_stop_faults hown hs) ?_ ?_ ?_
    · exact fun _ _ _ ht => ⟨s, hown, ht, fun s' hs' => (Option.some.inj hs').symm⟩
    · exact fun _ _ _ ht => ⟨s, hown, ht, fun s' hs' => (Option.some.inj hs').symm⟩
    · exact fun _ ht => ⟨s, hown, ht, fun s' hs' => (Option.some.inj hs').symm⟩

/-- **`_handle_disconnect`**, whatever fails in it: the session is out of `_sessions`. -/
theorem wp_disconnect_halfway (hw : Sound w) :
    wp o (IngestWorker.handleDisconnect c)
      (fun _ _ t => Halfway c w t ∧ t.sessions.lookup c = none)
      (fun _ _ t => Halfway c w t ∧ t.sessions.lookup c = none)
      (fun t => Halfway c w t ∧ t.sessions.lookup c = none) n w := by
  obtain ⟨u₀, hu₀, hlocal, hdb, hsess⟩ : ∃ u₀, u₀ = (w.dropPending c).dropSession c ∧
      Local c w u₀ ∧ u₀.db = w.db ∧ u₀.sessions = w.sessions.erase c :=
    ⟨_, rfl, Local.dropPending.trans Local.dropSession, rfl, rfl⟩
  have hsound := hlocal.sound hw
  -- All that can follow is a fault within the channel, from the state without the session.
  have hpost : ∀ s t, Faults c s u₀ t → Halfway c w t ∧ t.sessions.lookup c = none := by
    intro s t ht
    refine ⟨⟨hlocal.trans ht.near, fun r x hr => hdb ▸ ht.rows r x hr⟩, ?_⟩
    rw [ht.sessions, hsess, Dict.lookup_erase, if_pos rfl]
  have hrest : ∀ s n₁ u, Own c s u₀ → Faults c s u₀ u → wp o (do
      IngestWorker.clearStats c
      let ch ← query fun db => db.status c
      whenever (ch.any (· ∈ activeStatuses)) (commit (Database.setStatus c .idle)))
      (fun _ _ t => Halfway c w t ∧ t.sessions.lookup c = none)
      (fun _ _ t => Halfway c w t ∧ t.sessions.lookup c = none)
      (fun t => Halfway c w t ∧ t.sessions.lookup c = none) n₁ u := by
    intro s n₁ u hown hu
    have hframe := frame_mayFault c s
    refine wp_faults hown hu (S := fun _ => True) ?_ (fun _ _ t ht => hpost s t ht)
      (fun _ _ t ht => hpost s t ht) fun t ht => hpost s t ht
    refine Keeps.seq hframe ((statsFrame_mayFault c s).clearStats c) fun _ => ?_
    refine Keeps.queried hframe fun ch => Keeps.whenever hframe fun _ => ?_
    exact Stages.commit hframe (mayFault_setStatus c s _)
  unfold IngestWorker.handleDisconnect
  rw [wp_bind, wp_modify, wp_bind, wp_reads, World.dropPending_sessions, wp_bind, wp_modify,
    wp_bind, ← hu₀]
  rcases hs : w.sessions.lookup c with _ | s
  -- Without a session the faults are those of an object that does not exist yet.
  · have hown : Own c u₀.nextId u₀ := ⟨hsound, Local.fresh le_rfl hsound⟩
    exact hrest u₀.nextId n u₀ hown (Faults.refl _ _ _)
  · have hown : Own c s u₀ := by
      refine ⟨hsound, fun d hd => ?_⟩
      rw [hsess, Dict.lookup_erase] at hd
      split at hd
      · exact absurd hd (by simp)
      · exact hw.distinct d c s hd hs
    have hclose : ∀ n₁ u, Faults c s u₀ u → wp o (ChannelSession.disconnect s)
        (fun _ n₂ u₂ => wp o (do
          IngestWorker.clearStats c
          let ch ← query fun db => db.status c
          whenever (ch.any (· ∈ activeStatuses)) (commit (Database.setStatus c .idle)))
          (fun _ _ t => Halfway c w t ∧ t.sessions.lookup c = none)
          (fun _ _ t => Halfway c w t ∧ t.sessions.lookup c = none)
          (fun t => Halfway c w t ∧ t.sessions.lookup c = none) n₂ u₂)
        (fun _ _ t => Halfway c w t ∧ t.sessions.lookup c = none)
        (fun t => Halfway c w t ∧ t.sessions.lookup c = none) n₁ u :=
      fun n₁ u hu => wp_faults hown hu (sessionFrame_mayFault c s).disconnect
        (fun _ n₂ t ht => hrest s n₂ t hown ht) (fun _ _ t ht => hpost s t ht)
        fun t ht => hpost s t ht
    unfold IngestWorker.closeSession
    dsimp only
    rw [wp_bind, wp_reads, wp_bind, wp_whenever]
    refine ⟨fun _ => ?_, fun _ => hclose n u₀ (Faults.refl c s u₀)⟩
    exact wp_mono (wp_finalize_faults hown (Faults.refl c s u₀)) (fun _ n₁ t ht => hclose n₁ t ht)
      (fun _ _ t ht => hpost s t ht) fun t ht => hpost s t ht

/-! ## The heartbeat -/

/-- A session is found dead: it is, or the check sees it die. -/
def FoundDead (o : Oracle Call) (w : World) (s : SessionId) : Prop :=
  (w.heap s).isConnected = false ∨ ∃ n, o n (.poll s) = .fail

/-- A heartbeat that had no rows to fail and no status to change: at most sessions of channels
without rows are gone. -/
structure Trimmed (w w' : World) : Prop where
  /-- No row changes. -/
  recordings : w'.db.recordings = w.db.recordings
  /-- No status changes. -/
  status : w'.db.status = w.db.status
  /-- No id is handed out. -/
  nextId : w'.nextId = w.nextId
  /-- No session starts or stops recording. -/
  recording : ∀ s, (w'.heap s).recording = (w.heap s).recording
  /-- A channel is as it was, or has lost a session without a row. -/
  tables : ∀ c, (w'.sessions.lookup c = w.sessions.lookup c ∧
      w'.recordingIds.lookup c = w.recordingIds.lookup c) ∨
    (w'.sessions.lookup c = none ∧ w'.recordingIds.lookup c = none ∧ ∀ r, w.db.rowsOf c r = none)

theorem Trimmed.refl (w : World) : Trimmed w w :=
  ⟨rfl, rfl, rfl, fun _ => rfl, fun _ => Or.inl ⟨rfl, rfl⟩⟩

/-- A heartbeat ends no row. -/
theorem Trimmed.rowsOf_eq {w' : World} (h : Trimmed w w') (c : ChannelId) :
    w'.db.rowsOf c = w.db.rowsOf c := by
  funext r
  unfold Database.rowsOf
  rw [h.recordings]

/-- It adds no session. -/
theorem Trimmed.sessions {w' : World} (h : Trimmed w w') {c : ChannelId} {s : SessionId}
    (hs : w'.sessions.lookup c = some s) : w.sessions.lookup c = some s := by
  rcases h.tables c with ⟨hsame, -⟩ | ⟨hnone, -⟩
  · exact hsame ▸ hs
  · exact absurd (hnone.symm.trans hs) (by simp)

/-- It keeps the books sound. -/
theorem Trimmed.sound {w' : World} (h : Trimmed w w') (hw : Sound w) : Sound w' := by
  refine ⟨fun c d s hc hd => hw.distinct c d s (h.sessions hc) (h.sessions hd), fun c s hs => ?_,
    fun r row hr => ?_, fun c r hr => ?_⟩
  · rw [h.nextId]
    exact hw.sessions_lt c s (h.sessions hs)
  · rw [h.recordings] at hr
    rw [h.nextId]
    exact hw.rows_lt r row hr
  · rw [h.recordings]
    apply hw.known c r
    rcases h.tables c with ⟨-, hsame⟩ | ⟨-, hnone, -⟩
    · exact hsame ▸ hr
    · exact absurd (hnone.symm.trans hr) (by simp)

/-- A channel that owns its rows still does. -/
theorem Trimmed.owned {w' : World} (h : Trimmed w w') {c : ChannelId}
    (hown : (w.view c).Owned) : (w'.view c).Owned := by
  intro r s hr
  have hr' : w.db.rowsOf c r = some s := by
    rw [← h.rowsOf_eq c]
    exact hr
  obtain ⟨hid, x, hs, hx⟩ := hown r s hr'
  obtain ⟨s', hlook, heq⟩ := Option.map_eq_some_iff.mp hs
  obtain ⟨rfl, rfl⟩ := Prod.mk.inj heq
  rcases h.tables c with ⟨hsame, hsame'⟩ | ⟨-, -, hnone⟩
  · refine ⟨hsame'.trans hid, w'.heap s', ?_, (h.recording s').trans hx⟩
    rw [World.view_session, hsame, hlook]
    rfl
  · exact absurd (hr'.symm.trans (hnone r)) (by simp)

/-- The loop of a heartbeat whose dead sessions have no row in flight and no active status. -/
structure Trimming (o : Oracle Call) (w : World)
    (rest : List (Sigma fun _ : ChannelId => SessionId)) (staged : Database → Database)
    (u : World) : Prop extends Trimmed w u where
  /-- A session that is still to be looked at is one of the worker. -/
  todo : ∀ e ∈ rest, w.sessions.lookup e.1 = some e.2
  /-- Nothing is committed. -/
  db : u.db = w.db
  /-- A session that is down was, or the poll has seen it die. -/
  dead : ∀ s, (u.heap s).isConnected = false → FoundDead o w s
  /-- No row is staged to change. -/
  rows : (staged w.db).recordings = w.db.recordings
  /-- No status is. -/
  marks : (staged w.db).status = w.db.status

section Heartbeat

variable {staged : Database → Database} {rest : List (Sigma fun _ : ChannelId => SessionId)}
  {e : Sigma fun _ : ChannelId => SessionId} {cfg : Settings}

/-- A dead session is dropped. -/
theorem Trimming.drop (h : Trimming o w (e :: rest) staged u)
    (hrows : ∀ r, w.db.rowsOf e.1 r = none) :
    Trimming o w rest staged (World.dropPending e.1 (World.dropRecordingId e.1
      (World.dropSession e.1 u))) := by
  refine ⟨⟨h.recordings, h.status, h.nextId, h.recording, fun d => ?_⟩,
    fun e' he' => h.todo e' (List.mem_cons_of_mem _ he'), h.db, h.dead, h.rows, h.marks⟩
  by_cases hd : d = e.1
  · subst hd
    refine Or.inr ⟨?_, ?_, hrows⟩
    · show (u.sessions.erase e.1).lookup e.1 = none
      rw [Dict.lookup_erase, if_pos rfl]
    · show (u.recordingIds.erase e.1).lookup e.1 = none
      rw [Dict.lookup_erase, if_pos rfl]
  · have hlook : (u.sessions.erase e.1).lookup d = u.sessions.lookup d := by
      rw [Dict.lookup_erase, if_neg hd]
    have hid : (u.recordingIds.erase e.1).lookup d = u.recordingIds.lookup d := by
      rw [Dict.lookup_erase, if_neg hd]
    rcases h.tables d with ⟨hs, hr⟩ | ⟨hs, hr, hnone⟩
    · exact Or.inl ⟨hlook.trans hs, hid.trans hr⟩
    · exact Or.inr ⟨hlook.trans hs, hid.trans hr, hnone⟩

/-- **One session**, whatever fails in its turn. -/
theorem wp_trimming (hcare : ∀ c s, w.sessions.lookup c = some s → FoundDead o w s →
      (∀ r, w.db.rowsOf c r = none) ∧ ¬ (w.stored c).Active)
    (h : Trimming o w (e :: rest) staged u) :
    wp o (IngestWorker.heartbeatSession staged e) (fun staged' _ t => Trimming o w rest staged' t)
      (fun _ _ t => Trimmed w t) (Trimmed w) n u := by
  -- What happens to a session that is found dead.
  have hdead : ∀ n₁ t, Trimming o w (e :: rest) staged t → FoundDead o w e.2 → wp o (do
      modify (World.dropSession e.1)
      modify (World.dropRecordingId e.1)
      modify (World.dropPending e.1)
      IngestWorker.clearStats e.1
      let fail ← IngestWorker.failActiveRecording e.1
      let ch ← query fun db => db.status e.1
      let mark := if ch.any (· ∈ activeStatuses) then Database.setStatus e.1 .error else id
      pure (mark ∘ fail ∘ staged)) (fun staged' _ t => Trimming o w rest staged' t)
      (fun _ _ t => Trimmed w t) (Trimmed w) n₁ t := by
    intro n₁ t ht hfound
    obtain ⟨hrows, hactive⟩ := hcare e.1 e.2 (ht.todo e List.mem_cons_self) hfound
    have hdrop := ht.drop hrows
    have hnone : t.db.activeRecording e.1 = none := by
      rcases hact : t.db.activeRecording e.1 with _ | r
      · rfl
      · obtain ⟨x, hx⟩ :=
          Database.inFlight_iff_rowsOf.mp (Database.inFlight_of_activeRecording hact)
        rw [ht.db, hrows r] at hx
        exact absurd hx (by simp)
    have hmark : ¬ (t.db.status e.1).any (· ∈ activeStatuses) = true := by
      rw [ht.db]
      exact hactive
    unfold IngestWorker.clearStats IngestWorker.failActiveRecording
    simp only [wp_bind, wp_modify, wp_attempt, wp_external, wp_pure, wp_query, wp_reads,
      World.dropPending_db, World.dropRecordingId_db, World.dropSession_db, World.dropStats_db,
      hnone, if_neg hmark]
    have hstats : Trimming o w rest staged (World.dropStats e.1 (World.dropPending e.1
        (World.dropRecordingId e.1 (World.dropSession e.1 t)))) :=
      ⟨⟨hdrop.recordings, hdrop.status, hdrop.nextId, hdrop.recording, hdrop.tables⟩, hdrop.todo,
        hdrop.db, hdrop.dead, hdrop.rows, hdrop.marks⟩
    exact ⟨fun _ => ⟨fun _ => ⟨fun _ => hstats, fun _ => hstats.toTrimmed,
        fun _ => hstats.toTrimmed⟩,
      fun _ => hstats.toTrimmed, fun _ => hstats.toTrimmed⟩,
      fun _ => ⟨fun _ => ⟨fun _ => hdrop, fun _ => hdrop.toTrimmed, fun _ => hdrop.toTrimmed⟩,
        fun _ => hdrop.toTrimmed, fun _ => hdrop.toTrimmed⟩, fun _ => hdrop.toTrimmed⟩
  have hnext : Trimming o w rest staged u :=
    ⟨h.toTrimmed, fun e' he' => h.todo e' (List.mem_cons_of_mem _ he'), h.db, h.dead, h.rows,
      h.marks⟩
  unfold IngestWorker.heartbeatSession
  rw [wp_bind, ChannelSession.wp_checkConnected]
  refine ⟨fun _ => ?_, fun hpoll => ?_, fun _ => h.toTrimmed⟩
  · rcases hup : (u.heap e.2).isConnected with _ | _
    · rw [if_neg (by decide)]
      exact hdead _ u h (h.dead e.2 hup)
    · rw [if_pos rfl, wp_bind]
      unfold IngestWorker.publishStats
      have hstats : Trimming o w rest staged (u.addStats e.1) :=
        ⟨⟨hnext.recordings, hnext.status, hnext.nextId, hnext.recording, hnext.tables⟩, hnext.todo,
          hnext.db, hnext.dead, hnext.rows, hnext.marks⟩
      simp only [wp_attempt, wp_bind, wp_external, wp_modify, wp_pure]
      exact ⟨fun _ => hstats, fun _ => hnext, fun _ => hnext.toTrimmed⟩
  · rw [if_neg (by decide)]
    have hfound : FoundDead o w e.2 := Or.inr ⟨n, hpoll⟩
    have hheap : ∀ s, (u.die e.2).heap s = if s = e.2 then (u.heap s).markEnded else u.heap s := by
      intro s
      by_cases hs : s = e.2
      · rw [if_pos hs, hs]
        simp
      · rw [if_neg hs]
        simp [hs]
    refine hdead _ (u.die e.2) ⟨⟨h.recordings, h.status, h.nextId, fun s => ?_, h.tables⟩, h.todo,
      h.db, fun s hs => ?_, h.rows, h.marks⟩ hfound
    · rw [hheap s]
      split
      · exact h.recording s
      · exact h.recording s
    · rw [hheap s] at hs
      split at hs
      · rename_i hse
        exact hse ▸ hfound
      · exact h.dead s hs

/-- **A heartbeat** whose dead sessions have no row in flight and no active status, whatever fails
in it. -/
theorem wp_heartbeat_trimmed (hcare : ∀ c s, w.sessions.lookup c = some s → FoundDead o w s →
      (∀ r, w.db.rowsOf c r = none) ∧ ¬ (w.stored c).Active) :
    wp o (IngestWorker.heartbeat cfg) (fun _ _ t => Trimmed w t) (fun _ _ t => Trimmed w t)
      (Trimmed w) n w := by
  have hrefl := Trimmed.refl w
  unfold IngestWorker.heartbeat
  rw [wp_bind, wp_query]
  refine ⟨fun _ => ?_, fun _ => hrefl, fun _ => hrefl⟩
  rw [wp_bind, wp_reads, wp_bind, wp_reads, wp_bind, wp_reads, wp_bind]
  refine wp_fold (I := fun rest staged u => Trimming o w rest staged u) ?_ ?_ _ _ _ _ ?_
  · exact fun e rest staged n₁ u hu => wp_trimming hcare hu
  · intro staged n₁ u hu
    rw [wp_bind, wp_commit]
    refine ⟨fun _ => ?_, fun _ => hu.toTrimmed, fun _ => hu.toTrimmed⟩
    refine ⟨?_, ?_, hu.nextId, hu.recording, hu.tables⟩
    · show (staged u.db).recordings = w.db.recordings
      rw [hu.db]
      exact hu.rows
    · show (staged u.db).status = w.db.status
      rw [hu.db]
      exact hu.marks
  · refine ⟨hrefl, fun e he => Dict.mem_entries_iff.mp he, rfl, fun s hs => Or.inl hs, ?_, ?_⟩
    · rcases w.db.workers.lookup cfg.workerId with _ | row <;> rfl
    · rcases w.db.workers.lookup cfg.workerId with _ | row <;> rfl

end Heartbeat

end Handlers

/-! ## One failure, a heartbeat and a retry -/

/-- What the failure strikes. -/
inductive Struck where
  /-- A heartbeat. -/
  | heartbeat
  /-- A stop of the recording of a channel. -/
  | stop (c : ChannelId)
  /-- A disconnect of a channel. -/
  | disconnect (c : ChannelId)

/-- The handler that a database call fails in. -/
def Struck.handler (cfg : Settings) : Struck → Handler Unit
  | heartbeat => IngestWorker.heartbeat cfg
  | stop c => IngestWorker.handleRecordStop c
  | disconnect c => IngestWorker.handleDisconnect c

/-- Call number `i` raises if it is a query or a commit; all other calls work. -/
def failingAt (i : ℕ) : Oracle Call := fun n k => if n = i ∧ k.isDb = true then .fail else .ok

/-- The database fails once, then the worker sees another heartbeat and the request again. -/
def Struck.retried (cfg : Settings) (a : Struck) (i : ℕ) (o₁ o₂ : Environment) (w : World) :
    World :=
  final o₂.1 (a.handler cfg)
    (final o₁.1 (IngestWorker.heartbeat cfg) (final (failingAt i) (a.handler cfg) w))

/-- A row that the session of its channel is recording. -/
def World.Records (w : World) (c : ChannelId) (r : RecordingId) : Prop :=
  ∃ s row, w.sessions.lookup c = some s ∧ (w.heap s).recording = true ∧
    w.db.recordings.lookup r = some row ∧ row.startedBy = s

/-- The channels that the handler works on: a heartbeat those whose session is dead. -/
def Struck.Affects (w : World) : Struck → ChannelId → Prop
  | heartbeat, c => ∃ s, w.sessions.lookup c = some s ∧ (w.heap s).isConnected = false
  | stop d, c => c = d
  | disconnect d, c => c = d

/-- What the law asks of the state `w'` that follows the failure in `w`. -/
structure Settled (a : Struck) (w w' : World) : Prop where
  /-- A row in flight is being recorded, on the channels that the handler works on and on every
  other that was in order before. -/
  rows : ∀ c r, a.Affects w c ∨ (w.view c).Owned → w'.db.InFlight c r → w'.Records c r
  /-- A channel whose session was dead is not in an active status. -/
  dead : ∀ c s, w.sessions.lookup c = some s → (w.heap s).isConnected = false →
    ¬ (w'.stored c).Active

/-- At most `k` rows. -/
def Few (k : ℕ) (rows : RecordingId → Option SessionId) : Prop :=
  ∃ rs : List RecordingId, rs.length ≤ k ∧ ∀ r, rows r ≠ none → r ∈ rs

/-- How often the newest row of channel `c` is failed after a stop that has failed: by the heartbeat
that finds the session dead, and by a retry without a session. -/
def World.passes (w : World) (c : ChannelId) : ℕ :=
  match w.sessions.lookup c with
  | none => 1
  | some s => if (w.heap s).isConnected = true then 0 else 2

/-- The failure can strand a row or a status: a heartbeat finds a session dead that has a row in
flight or an active status, a stop finds more rows in flight than heartbeat and retry will fail, or
a disconnect finds any. -/
def Struck.Exposed (w : World) : Struck → Prop
  | heartbeat => ∃ c s, w.sessions.lookup c = some s ∧ (w.heap s).isConnected = false ∧
      ((∃ r, w.db.InFlight c r) ∨ (w.stored c).Active)
  | stop c => ¬ Few (w.passes c) (w.db.rowsOf c)
  | disconnect c => ∃ r, w.db.InFlight c r

/-- A call that fails is one to the database, so a session that is found dead was dead. -/
theorem foundDead_failingAt {i : ℕ} {w : World} {s : SessionId}
    (h : FoundDead (failingAt i) w s) : (w.heap s).isConnected = false := by
  rcases h with h | ⟨n, hn⟩
  · exact h
  · unfold failingAt at hn
    rw [if_neg (by simp [Call.isDb])] at hn
    exact absurd hn (by decide)

/-! ### How many rows are left -/

section Few

variable {k : ℕ} {rows rows' : RecordingId → Option SessionId}

/-- No row in flight. -/
theorem few_zero_iff : Few 0 rows ↔ ∀ r, rows r = none := by
  constructor
  · rintro ⟨rs, hlen, hrs⟩ r
    obtain rfl := List.length_eq_zero_iff.mp (Nat.le_zero.mp hlen)
    by_contra hne
    exact absurd (hrs r hne) (by simp)
  · exact fun h => ⟨[], le_rfl, fun r hr => absurd (h r) hr⟩

/-- Rows only end. -/
theorem Few.mono (h : Few k rows) (hrows : ∀ r s, rows' r = some s → rows r = some s) :
    Few k rows' := by
  obtain ⟨rs, hlen, hrs⟩ := h
  refine ⟨rs, hlen, fun r hr => hrs r ?_⟩
  obtain ⟨s, hs⟩ := Option.ne_none_iff_exists'.mp hr
  rw [hrows r s hs]
  simp

/-- **A pass takes one row**, as long as there is one. -/
theorem few_dropRow_iff {t : Option RecordingId} (ht : Picks rows t) :
    Few k (dropRow t rows) ↔ Few (k + 1) rows := by
  constructor
  · rintro ⟨rs, hlen, hrs⟩
    refine ⟨t.toList ++ rs, ?_, fun r hr => ?_⟩
    · have ht' : t.toList.length ≤ 1 := by cases t <;> simp
      rw [List.length_append]
      omega
    · obtain ⟨s, hs⟩ := Option.ne_none_iff_exists'.mp hr
      by_cases htr : t = some r
      · exact List.mem_append_left _ (by simp [htr])
      · refine List.mem_append_right _ (hrs r ?_)
        rw [dropRow_eq_some.mpr ⟨htr, hs⟩]
        simp
  · rintro ⟨rs, hlen, hrs⟩
    rcases t with _ | r
    · exact ⟨[], Nat.zero_le k, fun r hr => absurd (ht.1 rfl r) hr⟩
    · have hmem : r ∈ rs := hrs r (ht.2 r rfl)
      refine ⟨rs.erase r, ?_, fun r' hr' => ?_⟩
      · rw [List.length_erase_of_mem hmem]
        omega
      · obtain ⟨s, hs⟩ := Option.ne_none_iff_exists'.mp hr'
        obtain ⟨hne, hs'⟩ := dropRow_eq_some.mp hs
        have hrr : r' ≠ r := fun h => hne (by rw [h])
        exact (List.mem_erase_of_ne hrr).mpr (hrs r' (by simp [hs']))

/-- A table of one row. -/
theorem few_of_set {db : Database} {c : ChannelId} {r : RecordingId} {row : Recording}
    (h : db.recordings = Dict.set r row ∅) : Few 1 (db.rowsOf c) := by
  refine ⟨[r], le_rfl, fun r' hr' => ?_⟩
  by_contra hne
  apply hr'
  apply Database.rowsOf_of_lookup
  rw [h, Dict.lookup_set, if_neg (by simpa using hne)]
  rfl

end Few

/-! ### One channel -/

/-- A write of an idle status activates nothing. -/
theorem Stored.not_active_writeIf {x : Stored} {sts : List ChannelStatus} {st : ChannelStatus}
    (h : ¬ x.Active) (hst : st ∉ activeStatuses) : ¬ (x.writeIf sts st).Active := by
  unfold Stored.Active at h ⊢
  show ¬ (if x.status.any (· ∈ sts) = true then some st else x.status).any (· ∈ activeStatuses) =
    true
  split
  · simpa using hst
  · exact h

/-- And a write over every active one leaves none. -/
theorem Stored.not_active_writeIf_active {x : Stored} {st : ChannelStatus}
    (hst : st ∉ activeStatuses) : ¬ (x.writeIf activeStatuses st).Active := by
  unfold Stored.Active
  show ¬ (if x.status.any (· ∈ activeStatuses) = true then some st else x.status).any
    (· ∈ activeStatuses) = true
  split
  · simpa using hst
  · assumption

/-- A heartbeat makes no channel active. -/
theorem HeartbeatStep.not_active {v v' : View} (h : HeartbeatStep v v')
    (hv : ¬ v.toStored.Active) : ¬ v'.toStored.Active := by
  cases h with
  | absent hs => exact hv
  | up s x hs hup => exact hv
  | dead s x t hs ht => exact Stored.not_active_writeIf (x := v.toStored) hv (by decide)

/-- A heartbeat finds a dead session. -/
theorem HeartbeatStep.of_dead {v v' : View} (h : HeartbeatStep v v') {s : SessionId}
    {x : ChannelSession} (hs : v.session = some (s, x)) (hx : x.isConnected = false) :
    v'.session = none ∧ ¬ v'.toStored.Active ∧
      ∃ t, Picks v.rows t ∧ v'.rows = dropRow t v.rows := by
  cases h with
  | absent hnone => exact absurd (hnone.symm.trans hs) (by simp)
  | up s' x' hs' hup =>
    obtain ⟨-, rfl⟩ := Prod.mk.inj (Option.some.inj (hs'.symm.trans hs))
    exact absurd (hup.symm.trans hx) (by decide)
  | dead s' x' t hs' ht =>
    exact ⟨rfl, Stored.not_active_writeIf_active (x := v.toStored) (by decide), t, ht, rfl⟩

/-- A stop without a session. -/
theorem StopStep.not_active {died : Bool} {v v' : View} (h : StopStep died v v')
    (hnone : v.session = none) (hv : ¬ v.toStored.Active) : ¬ v'.toStored.Active := by
  cases h with
  | absent t hs ht =>
    exact @Stored.not_active_writeIf v.toStored [.stopping, .recording, .starting] .idle hv
      (by decide)
  | finalized s x y t up y' hs hrec ht hy hup hseen => exact absurd (hnone.symm.trans hs) (by simp)
  | idle s x up x' hs hrec hid hseen => exact absurd (hnone.symm.trans hs) (by simp)

/-- A stop without a session fails the newest row. -/
theorem StopStep.few_iff {died : Bool} {k : ℕ} {v v' : View} (h : StopStep died v v')
    (hnone : v.session = none) :
    v'.session = none ∧ (Few k v'.rows ↔ Few (k + 1) v.rows) := by
  cases h with
  | absent t hs ht => exact ⟨hs, few_dropRow_iff ht⟩
  | finalized s x y t up y' hs hrec ht hy hup hseen => exact absurd (hnone.symm.trans hs) (by simp)
  | idle s x up x' hs hrec hid hseen => exact absurd (hnone.symm.trans hs) (by simp)

/-- After a disconnect the channel is not active. -/
theorem DisconnectStep.not_active {v v' : View} (h : DisconnectStep v v') :
    ¬ v'.toStored.Active := by
  have hidle := @Stored.not_active_writeIf_active v.toStored .idle (by decide)
  cases h with
  | absent hs => exact hidle
  | idle s x hs hrec => exact hidle
  | finalized s x t hs hrec ht => exact hidle

/-! ### The worker -/

section Retried

variable {cfg : Settings} {w : World} {c : ChannelId}

/-- A heartbeat without a failure, as one step. -/
theorem beat_final (o : Environment) {v : World} (hv : Sound v) :
    Beat cfg v (final o.1 (IngestWorker.heartbeat cfg) v) :=
  final_of_wp (P := Beat cfg v) (wp_mono (wp_heartbeat o.2.steady hv cfg) (fun _ _ _ h => h)
    (fun _ _ _ hf => hf.elim) fun _ hk => absurd hk.1 o.2.not_mayCrash)

/-- The rows that a channel owns are being recorded. -/
theorem View.Owned.records {v : World} (h : (v.view c).Owned) {r : RecordingId}
    (hr : v.db.InFlight c r) : v.Records c r := by
  obtain ⟨row, hrow, hc⟩ := hr
  have hrows : v.db.rowsOf c r = some row.startedBy := by simp [Database.rowsOf, hrow, hc]
  obtain ⟨-, x, hs, hx⟩ := h r row.startedBy hrows
  obtain ⟨s, hlook, heq⟩ := Option.map_eq_some_iff.mp hs
  obtain ⟨rfl, rfl⟩ := Prod.mk.inj heq
  exact ⟨_, row, hlook, hx, hrow, rfl⟩

/-- A channel without rows in flight. -/
theorem World.rowsOf_eq_none {v : World} (h : ¬ ∃ r, v.db.InFlight c r) (r : RecordingId) :
    v.db.rowsOf c r = none := by
  by_contra hne
  exact h ⟨r, Database.inFlight_iff_rowsOf.mpr (Option.ne_none_iff_exists'.mp hne)⟩

/-- A session as a view shows it. -/
theorem view_session_of_lookup {v : World} {s : SessionId} (hs : v.sessions.lookup c = some s) :
    (v.view c).session = some (s, v.heap s) := by
  rw [World.view_session, hs]
  rfl

/-- The channels that the handler leaves alone. -/
theorem Halfway.others {v v₂ : World} (h : Halfway c w v) (hw : Sound w) (hbeat : Beat cfg v v₂)
    {d : ChannelId} (hd : d ≠ c) : ((w.view d).Owned → (v₂.view d).Owned) ∧
      ∀ s, w.sessions.lookup d = some s → (w.heap s).isConnected = false →
        ¬ (v₂.stored d).Active := by
  have hview := h.near.views hw d hd
  have hstep := hbeat.views d
  rw [hview] at hstep
  refine ⟨fun hown => hown.heartbeat hstep, fun s hs hdead => ?_⟩
  exact (hstep.of_dead (view_session_of_lookup hs) hdead).2.1

/-- **After a failure in a heartbeat.** -/
theorem settled_heartbeat (hw : Sound w) (hcare : ¬ Struck.heartbeat.Exposed w) (i : ℕ)
    (o₁ o₂ : Environment) :
    Settled .heartbeat w (Struck.heartbeat.retried cfg i o₁ o₂ w) := by
  have hsafe : ∀ c s, w.sessions.lookup c = some s → (w.heap s).isConnected = false →
      (∀ r, w.db.rowsOf c r = none) ∧ ¬ (w.stored c).Active := by
    intro c s hs hdead
    exact ⟨World.rowsOf_eq_none fun hr => hcare ⟨c, s, hs, hdead, Or.inl hr⟩,
      fun hact => hcare ⟨c, s, hs, hdead, Or.inr hact⟩⟩
  have htrim : Trimmed w (final (failingAt i) (IngestWorker.heartbeat cfg) w) :=
    final_of_wp (wp_heartbeat_trimmed fun c s hs hf => hsafe c s hs (foundDead_failingAt hf))
  have hbeat₁ := @beat_final cfg o₁ _ (htrim.sound hw)
  have hbeat₂ := @beat_final cfg o₂ _ hbeat₁.sound
  refine ⟨fun c r hc hr => View.Owned.records ?_ hr, fun c s hs hdead => ?_⟩
  · -- A channel whose session was dead has no row, the others own theirs.
    have hown₁ : ((final (failingAt i) (IngestWorker.heartbeat cfg) w).view c).Owned := by
      rcases hc with ⟨s, hs, hdead⟩ | hown
      · refine View.owned_of_rows fun r' => ?_
        have hrows := congrFun (htrim.rowsOf_eq c) r'
        exact hrows.trans ((hsafe c s hs hdead).1 r')
      · exact htrim.owned hown
    exact (hown₁.heartbeat (hbeat₁.views c)).heartbeat (hbeat₂.views c)
  · have hstored : (final (failingAt i) (IngestWorker.heartbeat cfg) w).stored c = w.stored c := by
      refine Stored.ext ?_ (htrim.rowsOf_eq c)
      show Database.status _ c = _
      rw [htrim.status]
      rfl
    have hact : ¬ ((final (failingAt i) (IngestWorker.heartbeat cfg) w).view
        c).toStored.Active := by
      show ¬ ((final (failingAt i) (IngestWorker.heartbeat cfg) w).stored c).Active
      rw [hstored]
      exact (hsafe c s hs hdead).2
    exact (hbeat₂.views c).not_active ((hbeat₁.views c).not_active hact)

/-- The rows of the channel itself, after a stop that may have failed, a heartbeat and the retry:
no more passes are needed than there are. -/
theorem owned_of_stops {v₁ v₂ v₃ : View} {died : Bool} (hfew : Few (w.passes c) v₁.rows)
    (hsession : ∀ s, w.sessions.lookup c = some s → ∃ x, v₁.session = some (s, x) ∧
      ((w.heap s).isConnected = false → x.isConnected = false))
    (habsent : w.sessions.lookup c = none → v₁.session = none) (hbeat : HeartbeatStep v₁ v₂)
    (hstop : StopStep died v₂ v₃) : v₃.Owned := by
  unfold World.passes at hfew
  rcases hs : w.sessions.lookup c with _ | s
  · rw [hs] at hfew
    have hnone : v₁.session = none := habsent hs
    cases hbeat with
    | absent _ => exact View.owned_of_rows (few_zero_iff.mp ((hstop.few_iff hnone).2.mpr hfew))
    | up s x hs' _ => exact absurd (hnone.symm.trans hs') (by simp)
    | dead s x t hs' _ => exact absurd (hnone.symm.trans hs') (by simp)
  · rw [hs] at hfew
    obtain ⟨x, hx, hdead⟩ := hsession s hs
    dsimp only at hfew
    by_cases hup : (w.heap s).isConnected = true
    · rw [if_pos hup] at hfew
      exact ((View.owned_of_rows (few_zero_iff.mp hfew)).heartbeat hbeat).stop hstop
    · rw [if_neg hup] at hfew
      obtain ⟨hnone, -, t, ht, hrows⟩ := hbeat.of_dead hx (hdead (by simpa using hup))
      have hone : Few 1 v₂.rows := by
        rw [hrows]
        exact (few_dropRow_iff ht).mpr hfew
      exact View.owned_of_rows (few_zero_iff.mp ((hstop.few_iff hnone).2.mpr hone))

/-- **After a failure in a record stop.** -/
theorem settled_stop (hw : Sound w) (hcare : ¬ (Struck.stop c).Exposed w) (i : ℕ)
    (o₁ o₂ : Environment) :
    Settled (.stop c) w ((Struck.stop c).retried cfg i o₁ o₂ w) := by
  -- `w₁` is the state after the failure, and `w₂` the one after the heartbeat that follows.
  obtain ⟨w₁, hw₁⟩ : ∃ w₁, w₁ = final (failingAt i) (IngestWorker.handleRecordStop c) w :=
    ⟨_, rfl⟩
  have hany : ∃ s, Own c s w ∧ Faults c s w w₁ ∧ ∀ s', w.sessions.lookup c = some s' → s' = s :=
    hw₁ ▸ final_of_wp (P := fun t => ∃ s, Own c s w ∧ Faults c s w t ∧
      ∀ s', w.sessions.lookup c = some s' → s' = s) (wp_stop_any hw)
  obtain ⟨s₀, -, hfaults, hs₀⟩ := hany
  have hbeat := @beat_final cfg o₁ _ (hfaults.near.sound hw)
  obtain ⟨w₂, hw₂⟩ : ∃ w₂, w₂ = final o₁.1 (IngestWorker.heartbeat cfg) w₁ := ⟨_, rfl⟩
  rw [← hw₂] at hbeat
  obtain ⟨hlocal, hstep⟩ := (handleRecordStop_acts o₂.2.steady c 0 w₂).final o₂.2.not_mayCrash
  have hstep := hstep hbeat.sound
  show Settled _ w (final o₂.1 (IngestWorker.handleRecordStop c) (final o₁.1
    (IngestWorker.heartbeat cfg) (final (failingAt i) (IngestWorker.handleRecordStop c) w)))
  rw [← hw₁, ← hw₂]
  refine ⟨fun d r hd hr => View.Owned.records ?_ hr, fun d s hs hdead => ?_⟩
  -- For the rows: the channel of the job makes its second stop, the others have kept theirs.
  · by_cases hdc : d = c
    · subst hdc
      have hfew : Few (w.passes d) (w₁.view d).rows := (not_not.mp hcare).mono hfaults.rows
      refine owned_of_stops hfew (fun s hs => ?_) (fun hs => ?_) (hbeat.views d) hstep
      · obtain rfl := hs₀ s hs
        exact ⟨w₁.heap s, view_session_of_lookup (by rw [hfaults.sessions, hs]), hfaults.dead⟩
      · rw [World.view_session, hfaults.sessions, hs]
        rfl
    · rw [hlocal.views hbeat.sound d hdc]
      exact (hfaults.halfway.others hw hbeat hdc).1 (hd.resolve_left hdc)
  · by_cases hdc : d = c
    · subst hdc
      obtain rfl := hs₀ s hs
      have hs₁ : w₁.sessions.lookup d = some s := by rw [hfaults.sessions, hs]
      obtain ⟨hnone, hact, -⟩ :=
        (hbeat.views d).of_dead (view_session_of_lookup hs₁) (hfaults.dead hdead)
      exact hstep.not_active hnone hact
    · have hstored := congrArg View.toStored (hlocal.views hbeat.sound d hdc)
      show ¬ (World.view _ d).toStored.Active
      rw [hstored]
      exact (hfaults.halfway.others hw hbeat hdc).2 s hs hdead

/-- **After a failure in a disconnect.** -/
theorem settled_disconnect (hw : Sound w) (hcare : ¬ (Struck.disconnect c).Exposed w) (i : ℕ)
    (o₁ o₂ : Environment) :
    Settled (.disconnect c) w ((Struck.disconnect c).retried cfg i o₁ o₂ w) := by
  -- `w₁` is the state after the failure, and `w₂` the one after the heartbeat that follows.
  obtain ⟨w₁, hw₁⟩ : ∃ w₁, w₁ = final (failingAt i) (IngestWorker.handleDisconnect c) w :=
    ⟨_, rfl⟩
  have hhalf : Halfway c w w₁ := by
    have hboth := final_of_wp (P := fun t => Halfway c w t ∧ t.sessions.lookup c = none)
      (wp_disconnect_halfway (o := failingAt i) hw)
    exact hw₁ ▸ hboth.1
  have hbeat := @beat_final cfg o₁ _ (hhalf.near.sound hw)
  obtain ⟨w₂, hw₂⟩ : ∃ w₂, w₂ = final o₁.1 (IngestWorker.heartbeat cfg) w₁ := ⟨_, rfl⟩
  rw [← hw₂] at hbeat
  obtain ⟨hlocal, hstep⟩ := (handleDisconnect_acts o₂.2.steady c 0 w₂).final o₂.2.not_mayCrash
  have hstep := hstep hbeat.sound
  show Settled _ w (final o₂.1 (IngestWorker.handleDisconnect c) (final o₁.1
    (IngestWorker.heartbeat cfg) (final (failingAt i) (IngestWorker.handleDisconnect c) w)))
  rw [← hw₁, ← hw₂]
  refine ⟨fun d r hd hr => View.Owned.records ?_ hr, fun d s hs hdead => ?_⟩
  · by_cases hdc : d = c
    · subst hdc
      -- The first try wrote at most the end of a row, so without a row before there is none now.
      have hnone : ∀ r', (w₁.view d).rows r' = none := by
        intro r'
        by_contra hne
        obtain ⟨s, hs⟩ := Option.ne_none_iff_exists'.mp hne
        exact hcare ⟨r', Database.inFlight_iff_rowsOf.mpr ⟨s, hhalf.rows r' s hs⟩⟩
      exact ((View.owned_of_rows hnone).heartbeat (hbeat.views d)).disconnect hstep
    · rw [hlocal.views hbeat.sound d hdc]
      exact (hhalf.others hw hbeat hdc).1 (hd.resolve_left hdc)
  · show ¬ (World.view _ d).toStored.Active
    by_cases hdc : d = c
    · subst hdc
      exact hstep.not_active
    · have hstored := congrArg View.toStored (hlocal.views hbeat.sound d hdc)
      rw [hstored]
      exact (hhalf.others hw hbeat hdc).2 s hs hdead

end Retried

/-! ## Where the failure does strand something -/

section Stranded

variable {cfg : Settings} {i n : ℕ} {w : World} {c : ChannelId} {s : SessionId} {r : RecordingId}
  {E : PyError → ℕ → World → Prop} {C : World → Prop}

/-- Every other call works. -/
theorem failingAt_of_ne {k : Call} (h : n ≠ i) : failingAt i n k = .ok :=
  if_neg fun h' => h h'.1

/-- The call itself fails, if it is one to the database. -/
theorem failingAt_self {k : Call} (h : k.isDb = true) : failingAt i i k = .fail :=
  if_pos ⟨rfl, h⟩

/-- A call that works. -/
theorem wp_external_ok {o : Oracle Call} {k : Call} {Q : Unit → ℕ → World → Prop}
    (h : o n k = .ok) (hQ : Q () (n + 1) w) : wp o (external k) Q E C n w := by
  rw [wp_external, h]
  exact ⟨fun _ => hQ, fun hf => absurd hf (by decide), fun hc => absurd hc (by decide)⟩

/-- A query that works. -/
theorem wp_query_ok {o : Oracle Call} {α : Type} {f : Database → α} {Q : α → ℕ → World → Prop}
    (h : o n .dbQuery = .ok) (hQ : Q (f w.db) (n + 1) w) : wp o (query f) Q E C n w := by
  rw [wp_query, h]
  exact ⟨fun _ => hQ, fun hf => absurd hf (by decide), fun hc => absurd hc (by decide)⟩

/-- A query that fails. -/
theorem wp_query_fail {o : Oracle Call} {α : Type} {f : Database → α} {Q : α → ℕ → World → Prop}
    (h : o n .dbQuery = .fail) (hE : ∀ e, E e (n + 1) w) : wp o (query f) Q E C n w := by
  rw [wp_query, h]
  exact ⟨fun hk => absurd hk (by decide), fun _ => hE _, fun hc => absurd hc (by decide)⟩

/-- A recording that was told to stop, and whose row was not finished. -/
structure Unfinished (c : ChannelId) (s : SessionId) (w w' : World) : Prop where
  /-- The row is as it was. -/
  db : w'.db = w.db
  /-- So is the place of the session. -/
  sessions : w'.sessions = w.sessions
  /-- The session does not record any more. -/
  recording : (w'.heap s).recording = false
  /-- It is up exactly if it was. -/
  connected : (w'.heap s).isConnected = (w.heap s).isConnected
  /-- Its row is not remembered. -/
  forgotten : w'.recordingIds.lookup c = none

/-- The number of calls that `_finalize_recording` makes before it looks for its row: the count of
the segments if the session is recording, and the size of its directory. -/
def callsBefore (x : ChannelSession) : ℕ :=
  if x.outputDir = none then 0 else if x.recording = true then 3 else 1

/-- **`_finalize_recording`** when the query for the row fails. -/
theorem wp_finalize_unfinished {Q : Unit → ℕ → World → Prop} {E : PyError → ℕ → World → Prop}
    (hact : ¬ ((w.heap s).recording = false ∧ w.recordingIds.lookup c = none))
    (hi : i = n + callsBefore (w.heap s))
    (hE : ∀ e n' u, Unfinished c s w u → E e n' u) :
    wp (failingAt i) (IngestWorker.finalizeRecording c s) Q E C n w := by
  -- The query for the row, with the session stopped.
  have hquery : ∀ m u (bytes : ℕ) (files : List MediaFile), m = i → u.db = w.db →
      u.sessions = w.sessions → u.recordingIds = w.recordingIds →
      (u.heap s).recording = false → (u.heap s).isConnected = (w.heap s).isConnected →
      wp (failingAt i) (do
        let recordingId ← reads fun w => w.recordingIds.lookup c
        modify (World.dropRecordingId c)
        let row ← IngestWorker.findRecording c recordingId
        IngestWorker.completeRecording c (u.heap s).segmentCount bytes files row) Q E C m u := by
    intro m u bytes files hm hdb hsess hids hstop hconn
    subst hm
    have hleft : ∀ e n', E e n' (u.dropRecordingId c) := by
      refine fun e n' => hE e n' _ ⟨hdb, hsess, hstop, hconn, ?_⟩
      rw [World.dropRecordingId_recordingIds, Dict.lookup_erase, if_pos rfl]
    rw [wp_bind, wp_reads, wp_bind, wp_modify, wp_bind, hids]
    unfold IngestWorker.findRecording
    rcases hid : w.recordingIds.lookup c with _ | r
    · exact wp_query_fail (failingAt_self rfl) fun e => hleft e _
    · dsimp only
      rw [wp_bind]
      exact wp_query_fail (failingAt_self rfl) fun e => hleft e _
  -- The size is measured before that.
  have hmeasure : ∀ m u, i = m + (if (w.heap s).outputDir = none then 0 else 1) →
      (u.heap s).outputDir = (w.heap s).outputDir → u.db = w.db → u.sessions = w.sessions →
      u.recordingIds = w.recordingIds → (u.heap s).recording = false →
      (u.heap s).isConnected = (w.heap s).isConnected →
      wp (failingAt i) (IngestWorker.finishRecording c s) Q E C m u := by
    intro m u hm hout hdb hsess hids hstop hconn
    unfold IngestWorker.finishRecording IngestWorker.measure
    rw [wp_bind, wp_reads, wp_bind, hout]
    rcases hdir : (w.heap s).outputDir with _ | dir
    · rw [if_pos hdir] at hm
      rw [wp_pure, wp_bind, wp_reads]
      exact hquery m u 0 _ hm.symm hdb hsess hids hstop hconn
    · rw [if_neg (by simp [hdir])] at hm
      dsimp only
      rw [wp_bind]
      apply wp_external_ok (failingAt_of_ne (by omega))
      rw [wp_reads, wp_bind, wp_reads]
      exact hquery _ u _ _ hm.symm hdb hsess hids hstop hconn
  unfold IngestWorker.finalizeRecording
  rw [wp_bind, wp_reads, wp_bind, wp_reads, if_neg hact, wp_bind, wp_whenever]
  refine ⟨fun hrec => ?_, fun hno => ?_⟩
  · unfold ChannelSession.stopRecording ChannelSession.countSegments
    rw [wp_bind, wp_reads, wp_whenever]
    refine ⟨fun _ => ?_, fun hno => absurd hrec hno⟩
    rw [wp_bind, wp_modify, wp_bind, wp_reads]
    rcases hdir : (w.heap s).outputDir with _ | dir
    · have hdir' : ((w.updSession s (ChannelSession.setRecording false)).heap s).outputDir =
          none := by simp [hdir]
      rw [hdir', wp_pure]
      refine hmeasure n _ ?_ (by simp) rfl rfl rfl (by simp) (by simp)
      rw [hi, callsBefore, if_pos hdir, if_pos hdir]
    · have hi' : i = n + 3 := by rw [hi, callsBefore, if_neg (by simp [hdir]), if_pos hrec]
      have hdir' : ((w.updSession s (ChannelSession.setRecording false)).heap s).outputDir =
          some dir := by simp [hdir]
      rw [hdir']
      dsimp only
      rw [wp_bind]
      apply wp_external_ok (failingAt_of_ne (by omega))
      rw [wp_bind, wp_modify]
      apply wp_external_ok (failingAt_of_ne (by omega))
      refine hmeasure _ _ ?_ (by simp) rfl rfl rfl (by simp) (by simp)
      rw [if_neg (by simp [hdir])]
      omega
  · refine hmeasure n w ?_ rfl rfl rfl rfl (by simpa using hno) rfl
    rw [hi, callsBefore, if_neg hno]

/-! ### A heartbeat up to its commit -/

/-- The loop rule with the number of calls made so far. -/
theorem wp_fold_at {β γ : Type} {o : Oracle Call} {I : List β → γ → ℕ → World → Prop}
    {f : γ → β → Handler γ} {Q : γ → ℕ → World → Prop} {E : PyError → ℕ → World → Prop}
    {C : World → Prop}
    (hstep : ∀ x xs acc n u, I (x :: xs) acc n u →
      wp o (f acc x) (fun acc' n' u' => I xs acc' n' u') E C n u)
    (hend : ∀ acc n u, I [] acc n u → Q acc n u) (xs : List β) (acc : γ) (n : ℕ) (u : World)
    (h : I xs acc n u) : wp o (fold f xs acc) Q E C n u := by
  induction xs generalizing acc n u with
  | nil => exact hend acc n u h
  | cons x xs ih =>
    rw [fold, wp_bind]
    exact wp_mono (hstep x xs acc n u h) (fun acc' n' u' h' => ih acc' n' u' h')
      (fun _ _ _ h => h) fun _ h => h

/-- The calls that one session costs: a poll and its stats, or a poll and what is done about a
dead session. -/
def callsFor (w : World) (e : Sigma fun _ : ChannelId => SessionId) : ℕ :=
  if (w.heap e.2).isConnected = true then 2 else 4

/-- The calls for the sessions that are left. -/
def callsLeft (w : World) (rest : List (Sigma fun _ : ChannelId => SessionId)) : ℕ :=
  (rest.map (callsFor w)).sum

/-- A heartbeat before its commit: sessions that were dead are gone, the others are as they were,
and no row of theirs is staged to fail. -/
structure Culled (w : World) (rest : List (Sigma fun _ : ChannelId => SessionId))
    (staged : Database → Database) (u : World) : Prop where
  /-- Nothing is committed. -/
  db : u.db = w.db
  /-- No id is handed out. -/
  nextId : u.nextId = w.nextId
  /-- No session object has changed. -/
  heap : u.heap = w.heap
  /-- A session that is still to be looked at is one of the worker. -/
  todo : ∀ e ∈ rest, w.sessions.lookup e.1 = some e.2
  /-- No channel has a new session. -/
  sessions : ∀ c s, u.sessions.lookup c = some s → w.sessions.lookup c = some s
  /-- No other row is remembered. -/
  ids : ∀ c r, u.recordingIds.lookup c = some r → w.recordingIds.lookup c = some r
  /-- What is up keeps its place, its remembered row and its rows in flight. -/
  alive : ∀ c s, w.sessions.lookup c = some s → (w.heap s).isConnected = true →
    u.sessions.lookup c = some s ∧ u.recordingIds.lookup c = w.recordingIds.lookup c ∧
      (staged w.db).rowsOf c = w.db.rowsOf c
  /-- What was down is gone, or is still to be looked at. -/
  dead : ∀ c s, w.sessions.lookup c = some s → (w.heap s).isConnected = false →
    c ∈ rest.map Sigma.fst ∨ u.sessions.lookup c = none

/-- What the heartbeat has dropped so far keeps the books sound. -/
theorem Culled.sound {staged : Database → Database}
    {rest : List (Sigma fun _ : ChannelId => SessionId)} {u : World} (h : Culled w rest staged u)
    (hw : Sound w) : Sound u := by
  refine ⟨fun c d s hc hd => hw.distinct c d s (h.sessions c s hc) (h.sessions d s hd),
    fun c s hs => ?_, fun r row hr => ?_, fun c r hr => ?_⟩
  · rw [h.nextId]
    exact hw.sessions_lt c s (h.sessions c s hs)
  · rw [h.db] at hr
    rw [h.nextId]
    exact hw.rows_lt r row hr
  · rw [h.db]
    exact hw.known c r (h.ids c r hr)

/-- A session that is alive stays as it was. -/
theorem Culled.keep {staged : Database → Database} {e : Sigma fun _ : ChannelId => SessionId}
    {rest : List (Sigma fun _ : ChannelId => SessionId)} {u : World}
    (h : Culled w (e :: rest) staged u) (hup : (w.heap e.2).isConnected = true) :
    Culled w rest staged u where
  db := h.db
  nextId := h.nextId
  heap := h.heap
  todo := fun e' he' => h.todo e' (List.mem_cons_of_mem _ he')
  sessions := h.sessions
  ids := h.ids
  alive := h.alive
  dead := by
    intro c s hs hc
    rcases h.dead c s hs hc with hmem | hnone
    · rw [List.map_cons, List.mem_cons] at hmem
      refine hmem.elim (fun hce => ?_) Or.inl
      subst hce
      obtain rfl := Option.some.inj ((h.todo e List.mem_cons_self).symm.trans hs)
      exact absurd (hup.symm.trans hc) (by decide)
    · exact Or.inr hnone

/-- A dead session is dropped; only rows of its channel are staged. -/
theorem Culled.drop {staged f : Database → Database} {e : Sigma fun _ : ChannelId => SessionId}
    {rest : List (Sigma fun _ : ChannelId => SessionId)} {u : World}
    (h : Culled w (e :: rest) staged u) (hdown : (w.heap e.2).isConnected = false)
    (hrows : ∀ c, c ≠ e.1 → ∀ db : Database, db.rowsOf c = w.db.rowsOf c →
      (f db).rowsOf c = w.db.rowsOf c) :
    Culled w rest (f ∘ staged) (World.dropStats e.1 (World.dropPending e.1
      (World.dropRecordingId e.1 (World.dropSession e.1 u)))) where
  db := h.db
  nextId := h.nextId
  heap := h.heap
  todo := fun e' he' => h.todo e' (List.mem_cons_of_mem _ he')
  sessions := by
    intro c s hs
    have hs' : (u.sessions.erase e.1).lookup c = some s := hs
    rw [Dict.lookup_erase] at hs'
    split at hs'
    · exact absurd hs' (by simp)
    · exact h.sessions c s hs'
  ids := by
    intro c r hr
    have hr' : (u.recordingIds.erase e.1).lookup c = some r := hr
    rw [Dict.lookup_erase] at hr'
    split at hr'
    · exact absurd hr' (by simp)
    · exact h.ids c r hr'
  -- A session that is up is not the dropped one, so it and its row are as they were.
  alive := by
    intro c s hs hc
    have hne : c ≠ e.1 := by
      rintro rfl
      obtain rfl := Option.some.inj ((h.todo e List.mem_cons_self).symm.trans hs)
      exact absurd (hdown.symm.trans hc) (by decide)
    obtain ⟨hs', hr', hst⟩ := h.alive c s hs hc
    refine ⟨?_, ?_, hrows c hne _ hst⟩
    · show (u.sessions.erase e.1).lookup c = some s
      rw [Dict.lookup_erase, if_neg hne, hs']
    · show (u.recordingIds.erase e.1).lookup c = w.recordingIds.lookup c
      rw [Dict.lookup_erase, if_neg hne, hr']
  dead := by
    intro c s hs hc
    show c ∈ rest.map Sigma.fst ∨ (u.sessions.erase e.1).lookup c = none
    rw [Dict.lookup_erase]
    by_cases hce : c = e.1
    · exact Or.inr (if_pos hce)
    · rw [if_neg hce]
      refine (h.dead c s hs hc).imp_left fun hmem => ?_
      rw [List.map_cons, List.mem_cons] at hmem
      exact hmem.resolve_left hce

/-- The row that is staged to fail is the dead channel's. -/
theorem rowsOf_failRow_of_ne {db db' : Database} {c d : ChannelId} {now : ℕ} (hd : d ≠ c)
    (hdb : db'.rowsOf d = db.rowsOf d) :
    (failRow (db.activeRecording c) now db').rowsOf d = db.rowsOf d := by
  rw [rowsOf_failRow, hdb]
  refine dropRow_of_none fun r hr => ?_
  obtain ⟨row, hrow, hc, -⟩ := Database.inFlight_of_activeRecording hr
  have hne : ¬ (row.channelId = d ∧ row.status = .recording) := fun h' => hd (h'.1 ▸ hc)
  simp [Database.rowsOf, hrow, hne]

/-- **One session**, when its calls work. -/
theorem wp_culled {o : Oracle Call} {staged : Database → Database} {u : World} {N : ℕ}
    {e : Sigma fun _ : ChannelId => SessionId}
    {rest : List (Sigma fun _ : ChannelId => SessionId)} (hok : ∀ m k, m < N → o m k = .ok)
    (hN : n + callsFor w e ≤ N) (h : Culled w (e :: rest) staged u) :
    wp o (IngestWorker.heartbeatSession staged e)
      (fun staged' n' t => n' = n + callsFor w e ∧ Culled w rest staged' t) E C n u := by
  have hpoll : o n (.poll e.2) = .ok := hok n _ (by unfold callsFor at hN; split at hN <;> omega)
  unfold IngestWorker.heartbeatSession
  rw [wp_bind, ChannelSession.wp_checkConnected, hpoll, h.heap]
  refine ⟨fun _ => ?_, fun hf => absurd hf (by decide), fun hc => absurd hc (by decide)⟩
  rcases hup : (w.heap e.2).isConnected with _ | _
  · have hcost : callsFor w e = 4 := if_neg (by simp [hup])
    rw [hcost] at hN ⊢
    rw [if_neg (by decide), wp_bind, wp_modify, wp_bind, wp_modify, wp_bind, wp_modify, wp_bind]
    unfold IngestWorker.clearStats IngestWorker.failActiveRecording
    rw [wp_attempt, wp_bind]
    apply wp_external_ok (hok _ _ (by omega))
    rw [wp_modify, wp_bind, wp_bind]
    apply wp_query_ok (hok _ _ (by omega))
    rw [wp_bind, wp_reads]
    have hmark : ∀ b : Prop, [Decidable b] → ∀ (db : Database) d, ((if b then
        Database.setStatus e.1 .error else id) db).rowsOf d = db.rowsOf d := by
      intro b _ db d
      split
      · simp
      · rfl
    -- The status of the channel is staged with its row.
    have hculled : ∀ mark : Database → Database, (∀ db d, (mark db).rowsOf d = db.rowsOf d) →
        Culled w rest (mark ∘ failRow (w.db.activeRecording e.1) u.now ∘ staged)
          (World.dropStats e.1 (World.dropPending e.1
            (World.dropRecordingId e.1 (World.dropSession e.1 u)))) := by
      intro mark hmark
      refine h.drop (f := mark ∘ failRow (w.db.activeRecording e.1) u.now) hup ?_
      intro c hc db hdb
      exact (hmark _ c).trans (rowsOf_failRow_of_ne hc hdb)
    have hdb : (World.dropStats e.1 (World.dropPending e.1 (World.dropRecordingId e.1
      (World.dropSession e.1 u)))).db = w.db := h.db
    rw [hdb]
    unfold failRow at hculled
    rcases hact : w.db.activeRecording e.1 with _ | r
    · rw [hact] at hculled
      rw [wp_pure, wp_bind]
      apply wp_query_ok (hok _ _ (by omega))
      exact ⟨by omega, hculled _ (hmark _)⟩
    · rw [hact] at hculled
      rw [wp_pure, wp_bind]
      apply wp_query_ok (hok _ _ (by omega))
      exact ⟨by omega, hculled _ (hmark _)⟩
  · have hcost : callsFor w e = 2 := if_pos hup
    rw [hcost] at hN ⊢
    rw [if_pos rfl, wp_bind]
    unfold IngestWorker.publishStats
    rw [wp_attempt, wp_bind]
    apply wp_external_ok (hok _ _ (by omega))
    rw [wp_modify, wp_pure]
    have hkeep := h.keep hup
    exact ⟨by omega, hkeep.db, hkeep.nextId, hkeep.heap, hkeep.todo, hkeep.sessions, hkeep.ids,
      hkeep.alive, hkeep.dead⟩

/-- **A heartbeat**, up to the commit. -/
theorem wp_heartbeat_culled {o : Oracle Call} {Q : Unit → ℕ → World → Prop}
    (hok : ∀ m k, m < 1 + callsLeft w w.sessions.entries → o m k = .ok)
    (hcommit : ∀ staged u, Culled w [] staged u → wp o (do
      commit staged
      modify World.clearDied) Q E C (1 + callsLeft w w.sessions.entries) u) :
    wp o (IngestWorker.heartbeat cfg) Q E C 0 w := by
  unfold IngestWorker.heartbeat
  rw [wp_bind]
  apply wp_query_ok (hok 0 _ (by omega))
  rw [wp_bind, wp_reads, wp_bind, wp_reads, wp_bind, wp_reads, wp_bind]
  refine wp_fold_at (I := fun rest staged n u => Culled w rest staged u ∧
    n + callsLeft w rest = 1 + callsLeft w w.sessions.entries) ?_ ?_ _ _ _ _ ⟨?_, by omega⟩
  · rintro e rest staged n₁ u ⟨hu, hn⟩
    have hcons : callsLeft w (e :: rest) = callsFor w e + callsLeft w rest := by
      unfold callsLeft
      rw [List.map_cons, List.sum_cons]
    refine wp_mono (wp_culled hok (by omega) hu) ?_ (fun _ _ _ h => h) fun _ h => h
    rintro staged' n₂ t ⟨hn₂, ht⟩
    exact ⟨ht, by omega⟩
  · rintro staged n₁ u ⟨hu, hn⟩
    have hnil : callsLeft w [] = 0 := rfl
    obtain rfl : n₁ = 1 + callsLeft w w.sessions.entries := by omega
    exact hcommit staged u hu
  · refine ⟨rfl, rfl, rfl, fun e he => Dict.mem_entries_iff.mp he, fun _ _ h => h, fun _ _ h => h,
      fun c s hs _ => ⟨hs, rfl, ?_⟩, fun c s hs _ => Or.inl ?_⟩
    · rcases w.db.workers.lookup cfg.workerId with _ | row <;> rfl
    · exact List.mem_map.mpr ⟨⟨c, s⟩, Dict.mem_entries_iff.mpr hs, rfl⟩

end Stranded

section Exposed

variable {cfg : Settings} {w : World} {c : ChannelId}

/-- Rows that a view shows. -/
theorem inFlight_of_rows {v v' : World} {r : RecordingId} (h : (v'.view c).rows = (v.view c).rows)
    (hr : v.db.InFlight c r) : v'.db.InFlight c r := by
  obtain ⟨s, hs⟩ := Database.inFlight_iff_rowsOf.mp hr
  refine Database.inFlight_iff_rowsOf.mpr ⟨s, ?_⟩
  have h' : v'.db.rowsOf c = v.db.rowsOf c := h
  rw [h', hs]

/-- A row in flight of a channel that has no session, or one that does not record, is stranded. -/
theorem not_settled_of_row {a : Struck} {w' : World} (haffects : a.Affects w c)
    (hrec : ∀ x, (w'.view c).session = some x → x.2.recording = false)
    (hrow : ∃ r, w'.db.InFlight c r) : ¬ Settled a w w' := by
  intro h
  obtain ⟨r, hr⟩ := hrow
  obtain ⟨s, -, hs, hx, -⟩ := h.rows c r (Or.inl haffects) hr
  exact absurd ((hrec _ (view_session_of_lookup hs)).symm.trans hx) (by decide)

/-- Nothing happens to a channel without a session in a heartbeat. -/
theorem view_heartbeat (o : Environment) {v : World} (hv : Sound v)
    (hs : v.sessions.lookup c = none) :
    (final o.1 (IngestWorker.heartbeat cfg) v).view c = v.view c := by
  have hstep := (@beat_final cfg o _ hv).views c
  have hnone : (v.view c).session = none := by
    rw [World.view_session, hs]
    rfl
  generalize (final o.1 (IngestWorker.heartbeat cfg) v).view c = v' at hstep
  cases hstep with
  | absent _ => rfl
  | up s x hs' hup => exact absurd (hnone.symm.trans hs') (by simp)
  | dead s x t hs' ht => exact absurd (hnone.symm.trans hs') (by simp)

/-- A heartbeat whose commit fails has forgotten the sessions that it found dead. -/
theorem stranded_heartbeat (hw : Sound w) (h : Struck.heartbeat.Exposed w) :
    ∃ i, ¬ Settled .heartbeat w (Struck.heartbeat.retried cfg i .good .good w) := by
  obtain ⟨c, s, hs, hdead, hleft⟩ := h
  -- The call that fails is the commit: the one behind the query and the checks of all sessions.
  refine ⟨1 + callsLeft w w.sessions.entries, fun hsettled => ?_⟩
  obtain ⟨w₁, hw₁⟩ : ∃ w₁, w₁ = final (failingAt (1 + callsLeft w w.sessions.entries))
      (IngestWorker.heartbeat cfg) w := ⟨_, rfl⟩
  have hculled : ∃ staged, Culled w [] staged w₁ := by
    rw [hw₁]
    refine final_of_wp (P := fun t => ∃ staged, Culled w [] staged t) ?_
    refine wp_heartbeat_culled (fun m k hm => failingAt_of_ne (by omega)) fun staged u hu => ?_
    rw [wp_bind, wp_commit]
    exact ⟨fun hk => absurd (hk.symm.trans (failingAt_self rfl)) (by decide),
      fun _ => ⟨staged, hu⟩, fun _ => ⟨staged, hu⟩⟩
  obtain ⟨staged, hculled⟩ := hculled
  have hnone : w₁.sessions.lookup c = none := (hculled.dead c s hs hdead).resolve_left (by simp)
  have hsound₁ := hculled.sound hw
  -- Without its session the channel is not looked at again, neither by the heartbeat nor the retry.
  have hview₂ := @view_heartbeat cfg c Environment.good _ hsound₁ hnone
  obtain ⟨w₂, hw₂⟩ : ∃ w₂, w₂ = final Environment.good.1 (IngestWorker.heartbeat cfg) w₁ :=
    ⟨_, rfl⟩
  have hsound₂ : Sound w₂ := hw₂ ▸ (@beat_final cfg Environment.good _ hsound₁).sound
  rw [← hw₂] at hview₂
  have hnone₂ : w₂.sessions.lookup c = none := by
    have hsess := congrArg View.session hview₂
    rw [World.view_session, World.view_session, hnone] at hsess
    exact Option.map_eq_none_iff.mp hsess
  have hview₃ := @view_heartbeat cfg c Environment.good _ hsound₂ hnone₂
  have hretried : Struck.heartbeat.retried cfg (1 + callsLeft w w.sessions.entries) .good .good w =
      final Environment.good.1 (IngestWorker.heartbeat cfg) w₂ := by
    rw [hw₂, hw₁]
    rfl
  rw [hretried] at hsettled
  have hview := hview₃.trans hview₂
  rcases hleft with ⟨r, hr⟩ | hact
  · have hr₁ : w₁.db.InFlight c r := hculled.db ▸ hr
    refine not_settled_of_row (a := .heartbeat) (c := c) ⟨s, hs, hdead⟩ (fun x hx => ?_)
      ⟨r, inFlight_of_rows (congrArg (fun v => v.rows) hview) hr₁⟩ hsettled
    have hsess := congrArg View.session hview
    rw [World.view_session, World.view_session, hnone] at hsess
    rw [World.view_session, hsess] at hx
    exact absurd hx (by simp)
  · apply hsettled.dead c s hs hdead
    have hstored := congrArg View.toStored hview
    have hstored' : World.stored _ c = w₁.stored c := hstored
    rw [hstored']
    unfold World.stored
    rw [hculled.db]
    exact hact

/-- A stop that fails at its first query leaves every row as it was, and a session that does not
record. -/
structure Stopped (c : ChannelId) (w w' : World) : Prop where
  /-- The rows are as they were. -/
  db : w'.db = w.db
  /-- The row of the session is not remembered any more. -/
  forgotten : w.sessions.lookup c ≠ none → w'.recordingIds.lookup c = none
  /-- Every session keeps its place. -/
  sessions : w'.sessions = w.sessions
  /-- That of the channel does not record, and is up exactly if it was. -/
  session : ∀ s, w.sessions.lookup c = some s → (w'.heap s).recording = false ∧
    (w'.heap s).isConnected = (w.heap s).isConnected

/-- **A stop whose first query fails**, whatever the state. -/
theorem stop_fails (c : ChannelId) (w : World) :
    ∃ i, Stopped c w (final (failingAt i) (IngestWorker.handleRecordStop c) w) := by
  rcases hs : w.sessions.lookup c with _ | s
  · refine ⟨0, final_of_wp ?_⟩
    unfold IngestWorker.handleRecordStop
    rw [wp_bind, wp_modify, wp_bind, wp_reads, World.dropPending_sessions, hs]
    unfold IngestWorker.stopWithoutSession
    dsimp only
    rw [wp_bind]
    exact wp_query_fail (failingAt_self rfl) fun _ =>
      ⟨rfl, fun h => absurd hs h, rfl, fun s' hs' => absurd (hs.symm.trans hs') (by simp)⟩
  · have hstopped : ∀ u, Unfinished c s (w.dropPending c) u → Stopped c w u := by
      refine fun u hu => ⟨hu.db, fun _ => hu.forgotten, hu.sessions, fun s' hs' => ?_⟩
      obtain rfl := Option.some.inj (hs.symm.trans hs')
      exact ⟨hu.recording, hu.connected⟩
    by_cases hact : (w.heap s).recording = false ∧ w.recordingIds.lookup c = none
    · -- Nothing to finalize: the status of the channel is the first query.
      refine ⟨0, final_of_wp ?_⟩
      unfold IngestWorker.handleRecordStop
      rw [wp_bind, wp_modify, wp_bind, wp_reads, World.dropPending_sessions, hs]
      unfold IngestWorker.stopSession IngestWorker.finalizeRecording
      dsimp only
      rw [wp_bind, wp_bind, wp_reads, wp_bind, wp_reads, World.dropPending_heap,
        World.dropPending_recordingIds, if_pos hact, wp_pure, wp_bind]
      exact wp_query_fail (failingAt_self rfl) fun _ => hstopped _ ⟨rfl, rfl, hact.1, rfl, hact.2⟩
    · refine ⟨callsBefore (w.heap s), final_of_wp ?_⟩
      unfold IngestWorker.handleRecordStop
      rw [wp_bind, wp_modify, wp_bind, wp_reads, World.dropPending_sessions, hs]
      unfold IngestWorker.stopSession
      dsimp only
      rw [wp_bind]
      exact wp_finalize_unfinished hact (Nat.zero_add _).symm fun _ _ _ hu => hstopped _ hu

/-- A heartbeat has nothing to say about a session that is alive. -/
theorem heartbeat_keeps_live {v : World} {s : SessionId} (hs : v.sessions.lookup c = some s)
    (hup : (v.heap s).isConnected = true) :
    let v' := (final Environment.good.1 (IngestWorker.heartbeat cfg) v).view c
    v'.session = some (s, v.heap s) ∧ v'.recordingId = v.recordingIds.lookup c ∧
      v'.rows = v.db.rowsOf c := by
  refine final_of_wp (P := fun t : World => (t.view c).session = some (s, v.heap s) ∧
    (t.view c).recordingId = v.recordingIds.lookup c ∧ (t.view c).rows = v.db.rowsOf c) ?_
  refine wp_heartbeat_culled (fun _ _ _ => rfl) fun staged u hu => ?_
  obtain ⟨hsu, hidu, hrows⟩ := hu.alive c s hs hup
  rw [wp_bind, wp_commit]
  refine ⟨fun _ => ?_, fun hf => absurd hf (by simp [Environment.good, allOk]),
    fun hc => absurd hc (by simp [Environment.good, allOk])⟩
  refine ⟨?_, hidu, ?_⟩
  · rw [view_session_of_lookup (v := u.commitDb staged |>.clearDied) hsu]
    show some (s, u.heap s) = _
    rw [hu.heap]
  · show Database.rowsOf (staged u.db) c = v.db.rowsOf c
    rw [hu.db]
    exact hrows

/-- A retry that finds a live session that does not record, and no remembered row, is idle. -/
theorem StopStep.of_idle {died : Bool} {v v' : View} (h : StopStep died v v') {s : SessionId}
    {x : ChannelSession} (hs : v.session = some (s, x)) (hrec : x.recording = false)
    (hid : v.recordingId = none) :
    v'.rows = v.rows ∧ ∀ y, v'.session = some y → y.2.recording = false := by
  cases h with
  | absent t hnone ht => exact absurd (hnone.symm.trans hs) (by simp)
  | finalized s' x' y t up y' hs' hrec' ht hy hup' hseen =>
    obtain ⟨-, rfl⟩ := Prod.mk.inj (Option.some.inj (hs'.symm.trans hs))
    rcases hrec' with h | h
    · exact absurd (h.symm.trans hrec) (by decide)
    · exact absurd hid h
  | idle s' x' up y hs' hrec' hid' hseen =>
    refine ⟨rfl, fun z hz => ?_⟩
    obtain rfl := Option.some.inj hz
    exact hseen.recording_eq.trans hrec'

/-- A stop whose first query fails has stopped the session and forgotten the row; the passes that
are left do not take all rows. -/
theorem stranded_stop (hw : Sound w) (h : (Struck.stop c).Exposed w) :
    ∃ i, ¬ Settled (.stop c) w ((Struck.stop c).retried cfg i .good .good w) := by
  obtain ⟨i, hstopped⟩ := stop_fails c w
  refine ⟨i, ?_⟩
  obtain ⟨w₁, hw₁⟩ : ∃ w₁, w₁ = final (failingAt i) (IngestWorker.handleRecordStop c) w :=
    ⟨_, rfl⟩
  have hany : ∃ s, Own c s w ∧ Faults c s w w₁ ∧ ∀ s', w.sessions.lookup c = some s' → s' = s :=
    hw₁ ▸ final_of_wp (P := fun t => ∃ s, Own c s w ∧ Faults c s w t ∧
      ∀ s', w.sessions.lookup c = some s' → s' = s) (wp_stop_any hw)
  obtain ⟨_, _, hfaults, _⟩ := hany
  have hsound₁ := hfaults.near.sound hw
  rw [← hw₁] at hstopped
  obtain ⟨w₂, hw₂⟩ : ∃ w₂, w₂ = final Environment.good.1 (IngestWorker.heartbeat cfg) w₁ :=
    ⟨_, rfl⟩
  have hbeat := hw₂ ▸ @beat_final cfg Environment.good _ hsound₁
  obtain ⟨-, hstep⟩ := (handleRecordStop_acts Environment.good.2.steady c 0 w₂).final
    Environment.good.2.not_mayCrash
  have hstep := hstep hbeat.sound
  show ¬ Settled _ w (final Environment.good.1 (IngestWorker.handleRecordStop c)
    (final Environment.good.1 (IngestWorker.heartbeat cfg)
      (final (failingAt i) (IngestWorker.handleRecordStop c) w)))
  rw [← hw₁, ← hw₂]
  generalize final Environment.good.1 (IngestWorker.handleRecordStop c) w₂ = w₃ at hstep
  have hrows₁ : (w₁.view c).rows = w.db.rowsOf c := by
    show w₁.db.rowsOf c = _
    rw [hstopped.db]
  -- The session does not record, and a row is left.
  have hleft : (∀ x, (w₃.view c).session = some x → x.2.recording = false) ∧
      ¬ Few 0 (w₃.view c).rows := by
    have hpasses : ¬ Few (w.passes c) (w₁.view c).rows := hrows₁ ▸ h
    unfold World.passes at hpasses
    rcases hs : w.sessions.lookup c with _ | s
    · rw [hs] at hpasses
      have hnone : w₁.sessions.lookup c = none := by rw [hstopped.sessions, hs]
      have hview : w₂.view c = w₁.view c := hw₂ ▸ view_heartbeat Environment.good hsound₁ hnone
      have hnone₂ : (w₂.view c).session = none := by
        rw [hview, World.view_session, hnone]
        rfl
      obtain ⟨hnone₃, hfew⟩ := hstep.few_iff hnone₂
      refine ⟨fun x hx => absurd (hnone₃.symm.trans hx) (by simp), fun hzero => hpasses ?_⟩
      rw [← hview]
      exact hfew.mp hzero
    · rw [hs] at hpasses
      dsimp only at hpasses
      obtain ⟨hrec, hconn⟩ := hstopped.session s hs
      have hs₁ : w₁.sessions.lookup c = some s := by rw [hstopped.sessions, hs]
      have hforgot : w₁.recordingIds.lookup c = none := hstopped.forgotten (by simp [hs])
      by_cases hup : (w.heap s).isConnected = true
      · rw [if_pos hup] at hpasses
        obtain ⟨hs₂, hid₂, hrows₂⟩ := @heartbeat_keeps_live cfg c _ _ hs₁ (hconn.trans hup)
        rw [← hw₂] at hs₂ hid₂ hrows₂
        obtain ⟨hrows₃, hrec₃⟩ := hstep.of_idle hs₂ hrec (hid₂.trans hforgot)
        refine ⟨hrec₃, fun hzero => hpasses ?_⟩
        rw [hrows₃, hrows₂] at hzero
        exact hzero
      · rw [if_neg hup] at hpasses
        obtain ⟨hnone₂, -, t, ht, hrows₂⟩ := (hbeat.views c).of_dead (view_session_of_lookup hs₁)
          (by rw [hconn]; simpa using hup)
        obtain ⟨hnone₃, hfew⟩ := hstep.few_iff hnone₂
        refine ⟨fun x hx => absurd (hnone₃.symm.trans hx) (by simp), fun hzero => hpasses ?_⟩
        have hone : Few 1 (w₂.view c).rows := hfew.mp hzero
        rw [hrows₂] at hone
        exact (few_dropRow_iff ht).mp hone
  refine not_settled_of_row rfl hleft.1 ?_
  by_contra hnone
  exact hleft.2 (few_zero_iff.mpr (World.rowsOf_eq_none hnone))

/-- What a step does to the rows of `c` if it does nothing to them. -/
theorem frame_rows (c : ChannelId) :
    Frame fun w w' : World => w'.db.rowsOf c = w.db.rowsOf c :=
  ⟨fun _ => rfl, fun _ _ _ h h' => h'.trans h⟩

/-- A disconnect that has nothing to finalize keeps all rows, whatever fails. -/
theorem rowsOf_disconnect {o : Oracle Call}
    (hrec : ∀ s, w.sessions.lookup c = some s → (w.heap s).recording = false) :
    (final o (IngestWorker.handleDisconnect c) w).db.rowsOf c = w.db.rowsOf c := by
  have hframe := frame_rows c
  have hsession : ∀ s, SessionFrame (fun w w' : World => w'.db.rowsOf c = w.db.rowsOf c) s :=
    fun s => ⟨hframe, fun _ => rfl, fun _ _ => rfl, fun _ _ => rfl, fun _ _ => rfl, fun _ => rfl,
      fun _ => rfl⟩
  have hstats : StatsFrame fun w w' : World => w'.db.rowsOf c = w.db.rowsOf c :=
    ⟨hframe, fun _ _ => rfl, fun _ _ => rfl⟩
  -- What follows the session.
  have hrest : Keeps (fun w w' : World => w'.db.rowsOf c = w.db.rowsOf c) (fun _ => True) (do
      IngestWorker.clearStats c
      let ch ← query fun db => db.status c
      whenever (ch.any (· ∈ activeStatuses)) (commit (Database.setStatus c .idle))) :=
    Keeps.seq hframe (hstats.clearStats c) fun _ => Keeps.queried hframe fun ch =>
      Keeps.whenever hframe fun _ => Stages.commit hframe fun _ => rfl
  have hdone : ∀ n u, u.db.rowsOf c = w.db.rowsOf c → wp o (do
      IngestWorker.clearStats c
      let ch ← query fun db => db.status c
      whenever (ch.any (· ∈ activeStatuses)) (commit (Database.setStatus c .idle)))
      (fun _ _ t => t.db.rowsOf c = w.db.rowsOf c) (fun _ _ t => t.db.rowsOf c = w.db.rowsOf c)
      (fun t => t.db.rowsOf c = w.db.rowsOf c) n u :=
    fun n u hu => wp_of_keeps hrest (fun _ _ t ht _ => ht.trans hu) (fun _ _ t ht => ht.trans hu)
      fun t ht => ht.trans hu
  refine final_of_wp (P := fun t : World => t.db.rowsOf c = w.db.rowsOf c) ?_
  unfold IngestWorker.handleDisconnect IngestWorker.closeSession
  rw [wp_bind, wp_modify, wp_bind, wp_reads, World.dropPending_sessions, wp_bind, wp_modify,
    wp_bind]
  rcases hs : w.sessions.lookup c with _ | s
  · exact hdone _ _ rfl
  · dsimp only
    rw [wp_bind, wp_reads, wp_bind, wp_whenever]
    refine ⟨fun hyes => absurd ((hrec s hs).symm.trans hyes) (by decide), fun _ => ?_⟩
    exact wp_of_keeps (hsession s).disconnect (fun _ n t ht _ => hdone n t ht)
      (fun _ _ t ht => ht) fun t ht => ht

/-- A disconnect whose query for the row fails, or that has none to make, keeps all rows, and the
session is out. -/
theorem stranded_disconnect (hw : Sound w) (h : (Struck.disconnect c).Exposed w) :
    ∃ i, ¬ Settled (.disconnect c) w ((Struck.disconnect c).retried cfg i .good .good w) := by
  obtain ⟨r, hr⟩ := h
  -- A call whose failure leaves the rows as they were.
  obtain ⟨i, hrows⟩ : ∃ i, (final (failingAt i) (IngestWorker.handleDisconnect c) w).db.rowsOf c =
      w.db.rowsOf c := by
    by_cases hrec : ∃ s, w.sessions.lookup c = some s ∧ (w.heap s).recording = true
    · obtain ⟨s, hs, hrec⟩ := hrec
      refine ⟨callsBefore (w.heap s), final_of_wp (P := fun t : World => t.db.rowsOf c =
        w.db.rowsOf c) ?_⟩
      unfold IngestWorker.handleDisconnect
      rw [wp_bind, wp_modify, wp_bind, wp_reads, World.dropPending_sessions, wp_bind, wp_modify,
        wp_bind, hs]
      unfold IngestWorker.closeSession
      dsimp only
      rw [wp_bind, wp_reads, wp_bind, wp_whenever]
      refine ⟨fun _ => ?_, fun hno => absurd hrec hno⟩
      refine wp_finalize_unfinished (fun hact => ?_) (Nat.zero_add _).symm fun _ _ u hu => ?_
      · exact absurd (hact.1.symm.trans hrec) (by decide)
      · rw [hu.db]
        rfl
    · exact ⟨0, rowsOf_disconnect fun s hs => by_contra fun hne => hrec ⟨s, hs, by simpa using hne⟩⟩
  refine ⟨i, ?_⟩
  obtain ⟨w₁, hw₁⟩ : ∃ w₁, w₁ = final (failingAt i) (IngestWorker.handleDisconnect c) w :=
    ⟨_, rfl⟩
  have hhalf : Halfway c w w₁ ∧ w₁.sessions.lookup c = none := hw₁ ▸ final_of_wp
    (P := fun t => Halfway c w t ∧ t.sessions.lookup c = none) (wp_disconnect_halfway hw)
  obtain ⟨hhalf, hnone⟩ := hhalf
  rw [← hw₁] at hrows
  have hsound₁ := hhalf.near.sound hw
  obtain ⟨w₂, hw₂⟩ : ∃ w₂, w₂ = final Environment.good.1 (IngestWorker.heartbeat cfg) w₁ :=
    ⟨_, rfl⟩
  have hsound₂ : Sound w₂ := hw₂ ▸ (@beat_final cfg Environment.good _ hsound₁).sound
  have hview₂ : w₂.view c = w₁.view c :=
    hw₂ ▸ @view_heartbeat cfg c Environment.good _ hsound₁ hnone
  have hnone₂ : (w₂.view c).session = none := by
    rw [hview₂, World.view_session, hnone]
    rfl
  obtain ⟨-, hstep⟩ := (handleDisconnect_acts Environment.good.2.steady c 0 w₂).final
    Environment.good.2.not_mayCrash
  have hstep := hstep hsound₂
  show ¬ Settled _ w (final Environment.good.1 (IngestWorker.handleDisconnect c)
    (final Environment.good.1 (IngestWorker.heartbeat cfg)
      (final (failingAt i) (IngestWorker.handleDisconnect c) w)))
  rw [← hw₁, ← hw₂]
  generalize final Environment.good.1 (IngestWorker.handleDisconnect c) w₂ = w₃ at hstep
  have hkept : (w₃.view c).rows = (w₂.view c).rows ∧ (w₃.view c).session = none := by
    generalize w₃.view c = v₃ at hstep
    cases hstep with
    | absent _ => exact ⟨rfl, hnone₂⟩
    | idle s' x hs' hrec' => exact absurd (hnone₂.symm.trans hs') (by simp)
    | finalized s' x t hs' hrec' ht => exact absurd (hnone₂.symm.trans hs') (by simp)
  refine not_settled_of_row rfl (fun x hx => absurd (hkept.2.symm.trans hx) (by simp)) ⟨r, ?_⟩
  refine inFlight_of_rows (v := w) ?_ hr
  rw [hkept.1, hview₂]
  exact hrows

end Exposed

/-! ## Sound states

What `settled_iff` asks of a state is no more than what every run keeps, the runs that evict a
recording session and strand its row included. -/

section Sound

variable {o : Oracle Call} {n : ℕ} {c : ChannelId} {w w' : World}

theorem Sound.setList (h : Sound w) (q : Queue) (jobs : List Raw) : Sound (w.setList q jobs) :=
  ⟨h.distinct, h.sessions_lt, h.rows_lt, h.known⟩

theorem Sound.note (h : Sound w) (e : Event) : Sound (w.note e) :=
  ⟨h.distinct, h.sessions_lt, h.rows_lt, h.known⟩

/-- Sound books may be carried through a drain. -/
theorem drainable_sound : Drainable Sound :=
  ⟨fun _ q _ rest _ h _ => h.setList q rest, fun _ e h => h.note e⟩

/-- A program that works on one channel. -/
theorem Sound.acts {m : Handler Unit} {step : Bool → View → Prop} {killed : Stored → Prop}
    (h : Sound w) (hm : Acts o c w m step killed n w) :
    wp o m (fun _ _ w' => Sound w') (fun _ _ w' => Sound w') (fun _ => MayCrash o) n w :=
  wp_mono hm (fun _ _ _ hw' => hw'.1.sound h) (fun _ _ _ hf => hf.elim) fun _ hk => hk.crash

/-- **Every handler keeps the books sound**, however its calls end. -/
theorem Sound.handler (h : Sound w) (ho : Steady o) (op : Op) (c : ChannelId) :
    wp o (IngestWorker.handlers op c) (fun _ _ w' => Sound w') (fun _ _ w' => Sound w')
      (fun _ => MayCrash o) n w := by
  cases op with
  | disconnect => exact h.acts (handleDisconnect_acts ho c n w)
  | stop => exact h.acts (handleRecordStop_acts ho c n w)
  | start => exact h.acts (handleRecordStart_acts ho c n w)

/-- What a program keeps that is not killed. -/
theorem sound_final {m : Handler Unit} (ho : Healthy o)
    (hm : wp o m (fun _ _ w' => Sound w') (fun _ _ w' => Sound w') (fun _ => MayCrash o) 0 w) :
    Sound (final o m w) :=
  final_of_wp (P := Sound) (wp_mono hm (fun _ _ _ h => h) (fun _ _ _ h => h)
    fun _ hcrash => absurd hcrash ho.not_mayCrash)

/-- **One step**, whatever it does. -/
theorem sound_step {cfg : Settings} {a : WorkerStep} (h : Sound w)
    (hstep : a.run cfg w = some w') : Sound w' := by
  cases a with
  | request r c =>
    obtain rfl := Option.some.inj hstep
    rcases request_cases r c w with ⟨st, -, -, -, hout⟩ | ⟨-, hout⟩
    · rw [hout]
      exact sound_outcome h
    · rwa [hout]
  | pop q =>
    obtain rfl := Option.some.inj hstep
    exact h.setList q _
  | connect c o =>
    obtain rfl := Option.some.inj hstep
    exact sound_final o.2 (h.acts (handleConnect_acts o.2.steady cfg c 0 w))
  | control op c o =>
    obtain rfl := Option.some.inj hstep
    exact sound_final o.2 (h.handler o.2.steady op c)
  | reset c o =>
    obtain rfl := Option.some.inj hstep
    exact sound_final o.2 (wp_handleEtr290Reset c (fun _ => h.note _) fun hcrash => hcrash)
  | heartbeat o =>
    obtain rfl := Option.some.inj hstep
    exact (@beat_final cfg o w h).sound
  | tick o =>
    obtain rfl := Option.some.inj hstep
    apply sound_final o.2
    unfold IngestWorker.glibTick
    rw [wp_attempt, wp_bind]
    refine wp_mono (wp_heartbeat o.2.steady h cfg) (fun _ n' w' hbeat => ?_)
      (fun _ _ _ hf => hf.elim) fun _ hk => hk.1
    exact wp_drain_inv drainable_sound (fun hcrash _ _ => hcrash)
      (fun op c n w hw => hw.handler o.2.steady op c) hbeat.sound
  | die s =>
    obtain rfl := Option.some.inj hstep
    exact ⟨h.distinct, h.sessions_lt, h.rows_lt, h.known⟩

/-- **Every state of every run.** -/
theorem sound_along {cfg : Settings} {as : List WorkerStep} (hw : Sound w)
    (hrun : Runs.run (WorkerStep.run cfg) w as = some w') : Sound w' := by
  have hstep : ∀ (v : World) (a : WorkerStep) (v' : World), Sound v → True →
      a.run cfg v = some v' → Sound v' := fun _ _ _ h _ hstep => sound_step h hstep
  exact Runs.run_invariant hstep as w w' hw (Runs.along_of_forall (fun _ _ _ => trivial) w) hrun

end Sound

/-- **One database failure strands nothing**, whichever call it is, exactly when it strikes a
heartbeat whose dead sessions have neither row nor active status, a stop of a channel with no more
rows in flight than heartbeat and retry will fail, or a disconnect of a channel without one. -/
theorem settled_iff {cfg : Settings} {w : World} {a : Struck} (hw : Sound w) :
    (∀ i o₁ o₂, Settled a w (a.retried cfg i o₁ o₂ w)) ↔ ¬ a.Exposed w := by
  constructor
  · intro h hexposed
    have hstranded : ∃ i, ¬ Settled a w (a.retried cfg i .good .good w) := by
      cases a with
      | heartbeat => exact stranded_heartbeat hw hexposed
      | stop c => exact stranded_stop hw hexposed
      | disconnect c => exact stranded_disconnect hw hexposed
    obtain ⟨i, hi⟩ := hstranded
    exact hi (h i .good .good)
  · intro hcare i o₁ o₂
    cases a with
    | heartbeat => exact settled_heartbeat hw hcare i o₁ o₂
    | stop c => exact settled_stop hw hcare i o₁ o₂
    | disconnect c => exact settled_disconnect hw hcare i o₁ o₂

/-- A worker that is recording its only channel. -/
def recordingA : World :=
  final allOk (IngestWorker.handlers .start (.str "a"))
    (final allOk (IngestWorker.handleConnect ⟨"worker", 8⟩ (.str "a")) offAir)

/-- The recording world of the witness owns its rows. -/
theorem owned_recordingA : Owned recordingA := by
  have hconnect := @owned_step ⟨"worker", 8⟩ offAir _ (.connect (.str "a") .good)
    (owned_of_pristine pristine_offAir) (by
      rintro ⟨-, s, hs, -⟩
      have hnone : none = some s := hs
      exact absurd hnone (by simp)) rfl
  exact @owned_step ⟨"worker", 8⟩ _ _ (.control .start (.str "a") .good) hconnect (fun h => h) rfl

/-- It dies. -/
def dying : World := recordingA.die 0

/-- So does the world with a dying session. -/
theorem owned_dying : Owned dying :=
  @owned_step ⟨"worker", 8⟩ _ _ (.die 0) owned_recordingA (fun h => h) rfl

/-- The world with an abandoned row is sound, though nobody owns the row. -/
theorem sound_abandoned : Sound abandoned := by
  refine ⟨fun c d s hs => absurd hs (by simp [abandoned, World.fresh]),
    fun c s hs => absurd hs (by simp [abandoned, World.fresh]), fun r row hr => ?_,
    fun c r hr => absurd hr (by simp [abandoned, World.fresh])⟩
  have hset : abandoned.db.recordings = Dict.set 0 _ ∅ := rfl
  rw [hset, Dict.lookup_set] at hr
  split at hr
  · rename_i h0
    exact h0 ▸ Nat.one_pos
  · exact absurd hr (by simp)

/-- The commit of the heartbeat that finds the session dead fails: nobody looks at the row again. -/
theorem failed_heartbeat_strands_row :
    ¬ ∀ (cfg : Settings) (w : World) (a : Struck) (i : ℕ) (o₁ o₂ : Environment), Owned w →
      Settled a w (a.retried cfg i o₁ o₂ w) := by
  intro h
  have hsettled := h ⟨"worker", 8⟩ dying .heartbeat 5 .good .good owned_dying
  obtain ⟨s, -, hs, -⟩ :=
    hsettled.rows (.str "a") 1 (Or.inr (owned_dying.views _)) ⟨_, rfl, rfl, rfl⟩
  have hnone : none = some s := hs
  exact absurd hnone (by simp)

/-- A heartbeat whose commit fails while a session records, a stop that fails on a session that has
died in the middle of a recording, and a stop that fails on a channel without a session. -/
theorem settled_iff_busy :
    Settled .heartbeat recordingA
        (Struck.heartbeat.retried ⟨"worker", 8⟩ 3 .good .good recordingA) ∧
      Settled (.stop (.str "a")) dying
        ((Struck.stop (.str "a")).retried ⟨"worker", 8⟩ 3 .good .good dying) ∧
      Settled (.stop (.str "a")) abandoned
        ((Struck.stop (.str "a")).retried ⟨"worker", 8⟩ 2 .good .good abandoned) := by
  refine ⟨(settled_iff owned_recordingA.sound).mpr ?_ 3 .good .good,
    (settled_iff owned_dying.sound).mpr ?_ 3 .good .good,
    (settled_iff sound_abandoned).mpr ?_ 2 .good .good⟩
  · rintro ⟨c, s, hs, hdead, -⟩
    have hsession : recordingA.sessions = Dict.set (.str "a") 0 ∅ := rfl
    rw [hsession, Dict.lookup_set] at hs
    split at hs
    · obtain rfl := Option.some.inj hs
      have hup : true = false := hdead
      exact absurd hup (by decide)
    · exact absurd hs (by simp)
  · obtain ⟨rs, hlen, hrs⟩ := @few_of_set dying.db (.str "a") 1 _ rfl
    exact not_not.mpr ⟨rs, hlen.trans (by decide), hrs⟩
  · exact not_not.mpr (@few_of_set abandoned.db (.str "a") 0 _ rfl)
