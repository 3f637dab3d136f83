/-
# Runs and their media

A session that starts a second recording gives two rows one directory, and the second count
includes the files of the first.  Every handler keeps the books as long as it does not do that,
whatever its calls do; so in a run without such a start no two recordings share a directory, and
a row counts files of its own only.

Most parts of a handler are quiet: they write statuses, ends of rows or tables of the worker, and
the books do not mention these.  What is left are four writes: the counts of a row, the insertion of
one, a session that begins to record, and a new session.  Each has its lemma in `Media`.
-/
import IngestFarm.Media
import IngestFarm.Ownership

open Prog

/-! ## What the handlers keep -/

/-- However `m` ends, the books are in order. -/
abbrev LeavesFiled {α : Type} (n₀ : ℕ) (o : Oracle Call) (m : Handler α) (n : ℕ) (w : World) :
    Prop :=
  wp o m (fun _ _ w' => Filed n₀ w') (fun _ _ w' => Filed n₀ w') (fun w' => Filed n₀ w') n w

/-- A program that is quiet for every session. -/
abbrev KeepsQuiet {α : Type} (m : Handler α) : Prop :=
  Keeps (Quiet fun _ => True) (fun _ => True) m

section Handlers

variable {n₀ : ℕ} {o : Oracle Call} {n : ℕ} {w : World} {c : ChannelId} {s : SessionId}

/-- What leaves the media alone leaves them filed. -/
theorem leavesFiled_of_quiet {α : Type} {S : α → Prop} {m : Handler α} (h : Filed n₀ w)
    (hm : Keeps (Quiet fun _ => True) S m) : LeavesFiled n₀ o m n w :=
  wp_of_keeps hm (fun _ _ _ hq _ => h.still hq) (fun _ _ _ hq => h.still hq) fun _ hq => h.still hq

/-- Quiet steps after a program. -/
theorem LeavesFiled.andThen {α β : Type} {m : Handler α} {f : α → Handler β}
    (hm : LeavesFiled n₀ o m n w) (hf : ∀ a, KeepsQuiet (f a)) :
    LeavesFiled n₀ o (m >>= f) n w := by
  unfold LeavesFiled
  rw [wp_bind]
  exact wp_mono hm (fun a _ _ h => leavesFiled_of_quiet h (hf a)) (fun _ _ _ h => h) fun _ h => h

/-! ### Quiet parts -/

theorem stages_setStatus (c : ChannelId) (st : ChannelStatus) :
    Stages (Quiet fun _ => True) (Database.setStatus c st) := fun _ => quiet_commit rfl

/-- The end of a row is no media. -/
theorem stages_endRecording (r : RecordingId) (st : RecordingStatus) (now : ℕ) :
    Stages (Quiet fun _ => True) (Database.endRecording r st now) :=
  fun w => quiet_commit (World.media_endRecording w r st now)

/-- Looking at a session captures nothing. -/
theorem keepsQuiet_checkConnected (s : SessionId) :
    KeepsQuiet (ChannelSession.checkConnected s) := by
  unfold ChannelSession.checkConnected
  refine Keeps.seq frame_quiet (Keeps.ask frame_quiet _) fun alive => ?_
  refine Keeps.seq frame_quiet (Keeps.whenever frame_quiet fun _ =>
    Keeps.modify fun w => quiet_die s w) fun _ => ?_
  exact Keeps.reads frame_quiet fun _ => trivial

/-- A row that fails keeps its media. -/
theorem keepsQuiet_failActiveRecording (c : ChannelId) :
    Keeps (Quiet fun _ => True) (Stages (Quiet fun _ => True))
      (IngestWorker.failActiveRecording c) := by
  unfold IngestWorker.failActiveRecording
  refine Keeps.queried frame_quiet fun row => ?_
  refine Keeps.read frame_quiet fun now => ?_
  cases row with
  | none => exact Keeps.pure frame_quiet (stages_id frame_quiet)
  | some r => exact Keeps.pure frame_quiet (stages_endRecording r _ now)

/-- Announcing is no capture. -/
theorem keepsQuiet_announce (q : Queue) (c : ChannelId) (r : RecordingId) :
    KeepsQuiet (IngestWorker.announce q c r) := by
  have hnote : ∀ w : World, Quiet (fun _ => True) w (w.note (.published q r c)) := fun w =>
    { media := rfl, files := rfl, nextId := le_rfl, sessions := fun _ _ hs => hs,
      known := fun _ _ hr => hr, held := fun _ _ _ _ => ⟨rfl, rfl⟩
      counted := fun r' n fs => by simp }
  unfold IngestWorker.announce publishEvent
  refine Keeps.seq (m := _) frame_quiet ?_ fun _ => Keeps.modify hnote
  refine Keeps.seq frame_quiet (Keeps.outer frame_quiet _) fun _ => ?_
  exact Keeps.modify fun w => quiet_of_eq rfl rfl rfl rfl rfl rfl fun _ _ => rfl

/-! ### A record stop -/

/-- **The count of a session** that stops recording. -/
theorem wp_stopRecording_finishing (h : Finishing n₀ w c s) :
    wp o (ChannelSession.stopRecording s)
      (fun _ _ w' => Finishing n₀ w' c s ∧ (w'.heap s).recording = false ∧
        w'.recordingIds = w.recordingIds)
      (fun _ _ w' => Filed n₀ w') (fun w' => Filed n₀ w') n w := by
  unfold ChannelSession.stopRecording
  simp only [wp_bind, wp_reads, wp_whenever]
  refine ⟨fun _ => ?_, fun hidle => ⟨h, by simpa using hidle, trivial⟩⟩
  rw [wp_modify]
  have h₁ := h.updSession h.kept.stopped
  set w₁ := w.updSession s (ChannelSession.setRecording false) with hw₁
  have hidle : (w₁.heap s).recording = false := by
    rw [hw₁, heap_updSession_self]
    rfl
  unfold ChannelSession.countSegments
  rw [wp_bind, wp_reads]
  cases hdir : (w₁.heap s).outputDir with
  | none => exact ⟨h₁, hidle, rfl⟩
  | some dir =>
    have h₂ := h₁.updSession (h₁.kept.setCount hdir hidle)
    rw [wp_bind, wp_external]
    refine ⟨fun _ => ?_, fun _ => h₁.filed, fun _ => h₁.filed⟩
    rw [wp_bind, wp_modify, wp_external]
    refine ⟨fun _ => ⟨h₂, ?_, rfl⟩, fun _ => h₂.filed, fun _ => h₂.filed⟩
    rw [heap_updSession_self]
    exact hidle

/-- **A row is completed** with no more segments than files of its own. -/
theorem leavesFiled_completeRecording {r : RecordingId} {count : ℕ} {fs : List MediaFile}
    (h : Filed n₀ w) (hn : count ≤ fs.length) (hfs : ∀ f ∈ fs, f.during = r) :
    LeavesFiled n₀ o (IngestWorker.completeRecording c count (fs.map MediaFile.size).sum fs
      (some r)) n w := by
  unfold IngestWorker.completeRecording LeavesFiled
  simp only [wp_bind, wp_reads]
  rw [wp_commit]
  refine ⟨fun _ => ?_, fun _ => h, fun _ => h⟩
  rw [wp_modify]
  have h₁ := h.completed w.now hn hfs
  rw [wp_external]
  refine ⟨fun _ => ?_, fun _ => h₁, fun _ => h₁⟩
  have hrest : LeavesFiled n₀ o (IngestWorker.announce .recordingComplete c r >>= fun _ =>
      IngestWorker.announce .postprocess c r) (n + 1 + 1) _ :=
    leavesFiled_of_quiet h₁ (Keeps.seq frame_quiet (keepsQuiet_announce _ c r) fun _ =>
      keepsQuiet_announce _ c r)
  exact (wp_bind _ _).mp hrest

/-- A row that exists is the one to finish. -/
theorem wp_findRecording_known {r : RecordingId} (hr : w.media r ≠ none)
    {Q : Option RecordingId → ℕ → World → Prop} {E : PyError → ℕ → World → Prop}
    {C : World → Prop} (hQ : ∀ n', Q (some r) n' w) (hE : ∀ e n', E e n' w) (hC : C w) :
    wp o (IngestWorker.findRecording c (some r)) Q E C n w := by
  have hmem : r ∈ w.db.recordings := by
    rw [Dict.mem_iff_exists_lookup]
    obtain ⟨m, hm⟩ := Option.ne_none_iff_exists'.mp hr
    obtain ⟨row, hrow, -⟩ := Option.map_eq_some_iff.mp hm
    exact ⟨row, hrow⟩
  unfold IngestWorker.findRecording
  rw [wp_bind, wp_query]
  refine ⟨fun _ => ?_, fun _ => hE _ _, fun _ => hC⟩
  rw [if_pos (decide_eq_true hmem)]
  exact hQ _

/-- **The end of `_finalize_recording`.** -/
theorem leavesFiled_finishRecording (h : Finishing n₀ w c s)
    (hidle : (w.heap s).recording = false) (hknown : w.recordingIds.lookup c ≠ none) :
    LeavesFiled n₀ o (IngestWorker.finishRecording c s) n w := by
  obtain ⟨r, hr⟩ := Option.ne_none_iff_exists'.mp hknown
  have hw' := h.forget hidle
  have hmedia : (w.dropRecordingId c).media r ≠ none := h.filed.known c r hr
  unfold IngestWorker.finishRecording LeavesFiled
  rw [wp_bind, wp_reads]
  -- Only what was captured for the row lies in the directory of its session.
  have hrest : ∀ n' fs, (w.heap s).segmentCount ≤ fs.length → (∀ f ∈ fs, f.during = r) →
      wp o (IngestWorker.findRecording c (some r) >>= fun row => IngestWorker.completeRecording c
          (w.heap s).segmentCount (fs.map MediaFile.size).sum fs row)
        (fun _ _ w' => Filed n₀ w') (fun _ _ w' => Filed n₀ w') (fun w' => Filed n₀ w') n'
        (w.dropRecordingId c) := by
    intro n' fs hn hfs
    rw [wp_bind]
    exact wp_findRecording_known hmedia
      (fun _ => leavesFiled_completeRecording hw' hn hfs) (fun _ _ => hw') hw'
  rcases h.kept.known r hr with ⟨-, hdir, hcount⟩ | ⟨hnew, hstores, hdir, hcount⟩
  · rw [hdir]
    have hfin := hrest n [] (by rw [hcount]; exact le_rfl) (by simp)
    simpa [IngestWorker.measure, hr] using hfin
  · rw [hdir]
    simp only [IngestWorker.measure, wp_bind, wp_external, wp_reads, wp_modify, hr]
    refine ⟨fun _ => ?_, fun _ => h.filed, fun _ => h.filed⟩
    have hfin := hrest (n + 1) (w.filesIn ⟨c, s⟩) hcount (h.filed.during_eq hnew h.base hstores)
    exact (wp_bind _ _).mp hfin

/-- **`_finalize_recording` keeps the books.** -/
theorem leavesFiled_finalizeRecording (h : Finishing n₀ w c s) :
    LeavesFiled n₀ o (IngestWorker.finalizeRecording c s) n w := by
  unfold IngestWorker.finalizeRecording LeavesFiled
  simp only [wp_bind, wp_reads, wp_ite, wp_pure, wp_whenever]
  -- A recording session has a row to finish; an idle one only after a stop that raised.
  refine ⟨fun _ => h.filed, fun hwork => ⟨fun hrec => ?_, fun hrec => ?_⟩⟩
  · refine wp_mono (wp_stopRecording_finishing h) ?_ (fun _ _ _ h => h) fun _ h => h
    rintro _ n' w' ⟨h', hidle, hids⟩
    exact leavesFiled_finishRecording h' hidle (hids ▸ (h.kept.recording hrec).2)
  · have hidle : (w.heap s).recording = false := by simpa using hrec
    exact leavesFiled_finishRecording h hidle fun hnone => hwork ⟨hidle, hnone⟩

/-- **`_handle_record_stop` keeps the books.** -/
theorem leavesFiled_handleRecordStop (h : Filed n₀ w) :
    LeavesFiled n₀ o (IngestWorker.handleRecordStop c) n w := by
  unfold IngestWorker.handleRecordStop LeavesFiled
  simp only [wp_bind, wp_modify, wp_reads, World.dropPending_sessions]
  have h₁ : Filed n₀ (w.dropPending c) :=
    h.still (quiet_of_eq rfl rfl rfl rfl rfl rfl fun _ _ => rfl)
  cases hs : w.sessions.lookup c with
  | none =>
    refine leavesFiled_of_quiet h₁ (S := fun _ => True) ?_
    unfold IngestWorker.stopWithoutSession
    refine Keeps.queried frame_quiet fun ch => ?_
    refine Keeps.bind frame_quiet (keepsQuiet_failActiveRecording c) fun fail hfail => ?_
    exact (hfail.comp frame_quiet
      (stages_ite (stages_setStatus c _) (stages_id frame_quiet))).commit frame_quiet
  | some s =>
    refine LeavesFiled.andThen (leavesFiled_finalizeRecording (h₁.finishing hs)) fun _ => ?_
    refine Keeps.queried frame_quiet fun ch => ?_
    refine Keeps.whenever frame_quiet fun _ => ?_
    refine Keeps.seq frame_quiet (keepsQuiet_checkConnected s) fun up => ?_
    exact (stages_setStatus c _).commit frame_quiet

/-! ### A disconnect -/

/-- Nothing enters `_sessions` or leaves it. -/
theorem workerFrame_sessions : WorkerFrame fun w w' : World => w'.sessions = w.sessions where
  refl _ := rfl
  trans _ _ _ h h' := h'.trans h
  session _ :=
    { refl := fun _ => rfl, trans := fun _ _ _ h h' => h'.trans h, die := fun _ => rfl,
      prepare := fun _ _ => rfl, setRecording := fun _ _ => rfl, setCount := fun _ _ => rfl,
      markStopping := fun _ => rfl, close := fun _ => rfl }
  addStats _ _ := rfl
  dropStats _ _ := rfl
  note _ _ := rfl
  push _ _ _ := rfl
  addPending _ _ := rfl
  dropPending _ _ := rfl
  dropRecordingId _ _ := rfl
  setStatus _ _ _ := rfl
  endRecording _ _ _ _ := rfl
  setCounts _ _ _ _ := rfl

/-- A session that has left `_sessions` is finalized and torn down. -/
theorem leavesFiled_closeSession (h : Finishing n₀ w c s)
    (hgone : ∀ d, w.sessions.lookup d ≠ some s) :
    LeavesFiled n₀ o (IngestWorker.closeSession c (some s)) n w := by
  unfold IngestWorker.closeSession LeavesFiled
  simp only [wp_bind, wp_reads, wp_whenever]
  have hdisconnect : ∀ n' w', Filed n₀ w' → w'.sessions = w.sessions →
      LeavesFiled n₀ o (ChannelSession.disconnect s) n' w' := by
    intro n' w' hw' hsess
    have hend : ∀ w'', Quiet (· ≠ s) w' w'' → Filed n₀ w'' := by
      refine fun w'' hq => hw'.quiet hq fun d t ht hd => ?_
      have hs : w'.sessions.lookup d = some s := not_not.mp ht ▸ hq.sessions d t hd
      exact absurd (hsess ▸ hs) (hgone d)
    exact wp_of_keeps (sessionFrame_quiet s).disconnect (fun _ _ _ hq _ => hend _ hq)
      (fun _ _ _ hq => hend _ hq) fun _ hq => hend _ hq
  -- `disconnect` comes after the finalization, and finds the session out of `_sessions` still.
  refine ⟨fun _ => ?_, fun _ => hdisconnect n w h.filed rfl⟩
  refine wp_mono (wp_and (leavesFiled_finalizeRecording h)
    (workerFrame_sessions.finalizeRecording c s o n w)) ?_ (fun _ _ _ h => h.1) fun _ h => h.1
  exact fun _ n' w' h' => hdisconnect n' w' h'.1 h'.2.1

/-- **`_handle_disconnect` keeps the books.** -/
theorem leavesFiled_handleDisconnect (h : Filed n₀ w) :
    LeavesFiled n₀ o (IngestWorker.handleDisconnect c) n w := by
  have hquiet : Quiet (fun _ => True) w ((w.dropPending c).dropSession c) :=
    frame_quiet.trans w (w.dropPending c) _
      (quiet_of_eq rfl rfl rfl rfl rfl rfl fun _ _ => rfl) (quiet_dropSession c _)
  have h₁ := h.still hquiet
  have hclose : LeavesFiled n₀ o (IngestWorker.closeSession c (w.sessions.lookup c)) n
      ((w.dropPending c).dropSession c) := by
    cases hs : w.sessions.lookup c with
    | none => exact h₁
    | some s =>
      have hgone : ∀ d, ((w.dropPending c).dropSession c).sessions.lookup d ≠ some s := by
        intro d hd
        obtain rfl := h.distinct d c s (hquiet.sessions d s hd) hs
        simp at hd
      refine leavesFiled_closeSession ⟨h₁, (h.held c s hs).1, ?_, fun d hd => absurd hd (hgone d),
        fun t ht => by simp at ht⟩ hgone
      exact (h.held c s hs).2.2.congr (fun _ _ h => h) rfl rfl rfl
  unfold IngestWorker.handleDisconnect LeavesFiled
  rw [wp_bind, wp_modify, wp_bind, wp_reads, wp_bind, wp_modify]
  refine LeavesFiled.andThen hclose fun _ => ?_
  refine Keeps.seq frame_quiet (statsFrame_quiet.clearStats c) fun _ => ?_
  refine Keeps.queried frame_quiet fun ch => ?_
  exact Keeps.whenever frame_quiet fun _ => (stages_setStatus c _).commit frame_quiet

/-! ### A record start -/

/-- The `except` branch of a record start: the channel forgets its row. -/
theorem leavesFiled_recordStartFailed (h : Filed n₀ w) (hs : w.sessions.lookup c = some s)
    (hidle : (w.heap s).recording = false) :
    LeavesFiled n₀ o (IngestWorker.recordStartFailed c s) n w := by
  unfold IngestWorker.recordStartFailed LeavesFiled
  rw [wp_bind, wp_reads, wp_bind, wp_modify]
  refine leavesFiled_of_quiet ((h.finishing hs).forget hidle) (S := fun _ => True) ?_
  have hknown : ∀ known, Keeps (Quiet fun _ => True) (Stages (Quiet fun _ => True))
      (IngestWorker.failKnown known) := by
    intro known
    unfold IngestWorker.failKnown
    cases known with
    | none => exact Keeps.pure frame_quiet (stages_id frame_quiet)
    | some r =>
      refine Keeps.queried frame_quiet fun found => ?_
      refine Keeps.read frame_quiet fun now => ?_
      exact Keeps.pure frame_quiet
        (stages_ite (stages_endRecording r _ now) (stages_id frame_quiet))
  have hsettle : Keeps (Quiet fun _ => True) (Stages (Quiet fun _ => True))
      (IngestWorker.settleStatus c s .error) := by
    unfold IngestWorker.settleStatus
    refine Keeps.queried frame_quiet fun ch => ?_
    refine Keeps.ite (fun _ => Keeps.pure frame_quiet (stages_id frame_quiet)) fun _ => ?_
    refine Keeps.seq frame_quiet (keepsQuiet_checkConnected s) fun up => ?_
    exact Keeps.pure frame_quiet (stages_setStatus c _)
  refine Keeps.bind frame_quiet (hknown _) fun fail hfail => ?_
  refine Keeps.bind frame_quiet hsettle fun settle hsettle => ?_
  exact (hsettle.comp frame_quiet hfail).commit frame_quiet

/-- A capture that is being opened for the row `r`. -/
structure Opening (n₀ : ℕ) (w : World) (c : ChannelId) (s : SessionId) (r : RecordingId) :
    Prop where
  /-- The books are in order. -/
  filed : Filed n₀ w
  /-- The session of the channel. -/
  session : w.sessions.lookup c = some s
  /-- It does not record yet. -/
  idle : (w.heap s).recording = false
  /-- The row is remembered already. -/
  known : w.recordingIds.lookup c = some r
  /-- It is a new one. -/
  fresh : n₀ ≤ r
  /-- Its directory is that of the session. -/
  stores : w.Stores r ⟨c, s⟩

/-- A change of the session object. -/
theorem Opening.updSession {r : RecordingId} (h : Opening n₀ w c s r)
    {f : ChannelSession → ChannelSession} (hdir : (f (w.heap s)).outputDir = some ⟨c, s⟩)
    (hcount : (f (w.heap s)).segmentCount = 0) : Filed n₀ (w.updSession s f) := by
  have hk : Accounted n₀ (w.updSession s f) c s := by
    refine ⟨fun _ => ?_, fun r' hr' => ?_, fun hnone => absurd h.stores (hnone r)⟩
    · rw [heap_updSession_self]
      refine ⟨hcount, fun hnone => ?_⟩
      exact absurd (h.known.symm.trans hnone) (by simp)
    · obtain rfl : r = r' := Option.some.inj (h.known.symm.trans hr')
      rw [heap_updSession_self, hcount]
      exact Or.inr ⟨h.fresh, h.stores, hdir, Nat.zero_le _⟩
  exact ((h.filed.finishing h.session).updSession hk).filed

/-- **`start_recording`** for a row whose directory is the session's. -/
theorem leavesFiled_startRecording {r : RecordingId} (h : Opening n₀ w c s r) :
    LeavesFiled n₀ o (attempt (ChannelSession.startRecording s ⟨c, s⟩) fun _ =>
      IngestWorker.recordStartFailed c s) n w := by
  have hfail : ∀ n', LeavesFiled n₀ o (IngestWorker.recordStartFailed c s) n' w :=
    fun _ => leavesFiled_recordStartFailed h.filed h.session h.idle
  unfold ChannelSession.startRecording LeavesFiled
  rw [wp_attempt, wp_bind, ChannelSession.wp_checkConnected]
  refine ⟨fun _ => ?_, fun _ => ?_, fun _ => h.filed⟩
  · rw [wp_ite]
    refine ⟨fun _ => hfail _, fun _ => ?_⟩
    rw [wp_bind, wp_reads, wp_ite]
    refine ⟨fun _ => hfail _, fun _ => ?_⟩
    rw [wp_bind, wp_external]
    refine ⟨fun _ => ?_, fun _ => hfail _, fun _ => h.filed⟩
    rw [wp_bind, wp_modify, wp_bind, wp_external]
    -- The pipeline is prepared for the directory of the row before it may fail to start.
    have h₁ : Filed n₀ (w.updSession s (ChannelSession.prepare ⟨c, s⟩)) := h.updSession rfl rfl
    have hidle : ((w.updSession s (ChannelSession.prepare ⟨c, s⟩)).heap s).recording = false := by
      rw [heap_updSession_self]
      exact h.idle
    refine ⟨fun _ => ?_, fun _ => leavesFiled_recordStartFailed h₁ h.session hidle, fun _ => h₁⟩
    have h₂ : Opening n₀ (w.updSession s (ChannelSession.prepare ⟨c, s⟩)) c s r :=
      ⟨h₁, h.session, hidle, h.known, h.fresh, h.stores⟩
    rw [wp_modify]
    refine h₂.updSession ?_ ?_
    · rw [heap_updSession_self]
      rfl
    · rw [heap_updSession_self]
      rfl
  · rw [if_pos rfl, wp_raise]
    -- The check has seen the session die; what the handler undoes then concerns no file.
    apply leavesFiled_recordStartFailed (h.filed.still (quiet_die s w)) h.session
    rw [World.die_heap, Function.update_self]
    exact h.idle

/-- **The new row** of a session whose directory has none. -/
theorem leavesFiled_openRecording (h : Filed n₀ w) (hs : w.sessions.lookup c = some s)
    (hidle : (w.heap s).recording = false) (hfree : ∀ r, ¬ w.Stores r ⟨c, s⟩) :
    LeavesFiled n₀ o (IngestWorker.openRecording c s) n w := by
  unfold IngestWorker.openRecording LeavesFiled
  rw [wp_bind, wp_external]
  refine ⟨fun _ => ?_, fun _ => h, fun _ => h⟩
  rw [wp_bind, wp_reads, wp_bind, wp_reads, wp_bind, wp_query]
  refine ⟨fun _ => ?_, fun _ => h, fun _ => h⟩
  rw [wp_bind, wp_commit]
  refine ⟨fun _ => ?_, fun _ => h, fun _ => h⟩
  rw [wp_bind, wp_modify]
  set row := IngestWorker.newRecording c s w.now
  set f : Database → Database := (if w.db.status c = none then id
    else Database.setStatus c .recording) ∘ Database.addRecording w.nextId row
  set w₁ := (w.commitDb f).takeId
  have hmedia : ∀ r', w₁.media r' = if r' = w.nextId then some ⟨⟨c, s⟩, 0, 0⟩ else w.media r' := by
    have hw₁ : w₁.media = (w.commitDb (Database.addRecording w.nextId row)).media := by
      simp only [w₁, f]
      split
      · rfl
      · rfl
    intro r'
    rw [hw₁]
    exact World.media_addRecording w w.nextId r' row
  -- From here on the row is there, and a failure leaves it behind without a segment.
  have h₁ : Filed n₀ w₁ := h.added hs hfree hmedia rfl rfl rfl rfl rfl rfl
  have hnew : w₁.media w.nextId = some ⟨⟨c, s⟩, 0, 0⟩ := by rw [hmedia, if_pos rfl]
  rw [wp_bind, wp_external]
  refine ⟨fun _ => ?_, fun _ => h₁, fun _ => h₁⟩
  rw [wp_bind, wp_modify]
  have h₂ : Filed n₀ (w₁.setRecordingId c w.nextId) := by
    refine h₁.remember (by rw [hnew]; simp) fun t ht => ?_
    obtain rfl := Option.some.inj (hs.symm.trans ht)
    -- Its first recording: nothing has been prepared or counted yet.
    have hblank : (w.heap s).Blank := (h.held c s hs).2.2.unused hfree
    exact ⟨fun hrec => absurd (hidle.symm.trans hrec) (by simp), fun _ _ => Or.inl ⟨hidle, hblank⟩,
      fun _ => hblank⟩
  exact leavesFiled_startRecording (r := w.nextId)
    ⟨h₂, hs, hidle, by simp, h.base, ⟨_, hnew, rfl⟩⟩

/-- **`_handle_record_start` keeps the books**, if it opens no second recording in a session. -/
theorem leavesFiled_handleRecordStart (h : Filed n₀ w)
    (hfree : ∀ s, w.sessions.lookup c = some s → (w.heap s).isConnected = true →
      (w.heap s).recording = false → ∀ r, ¬ w.Stores r ⟨c, s⟩) :
    LeavesFiled n₀ o (IngestWorker.handleRecordStart c) n w := by
  have hpending : ∀ {w'}, Filed n₀ w' → Filed n₀ (w'.addPending c) := fun h' =>
    h'.still (quiet_of_eq rfl rfl rfl rfl rfl rfl fun _ _ => rfl)
  unfold IngestWorker.handleRecordStart LeavesFiled
  rw [wp_bind, wp_reads]
  cases hs : w.sessions.lookup c with
  | none => exact hpending h
  | some s =>
    dsimp only
    rw [wp_bind, ChannelSession.wp_checkConnected]
    refine ⟨fun _ => ?_, fun _ => ?_, fun _ => h⟩
    · rw [wp_ite]
      refine ⟨fun _ => hpending h, fun hup => ?_⟩
      rw [wp_bind, wp_reads, wp_bind, wp_modify, wp_ite]
      have h₁ : Filed n₀ (w.dropPending c) :=
        h.still (quiet_of_eq rfl rfl rfl rfl rfl rfl fun _ _ => rfl)
      refine ⟨fun _ => h₁, fun hrec => ?_⟩
      have hidle : (w.heap s).recording = false := by simpa using hrec
      exact leavesFiled_openRecording h₁ hs hidle (hfree s hs (by simpa using hup) hidle)
    · rw [if_pos rfl, wp_modify]
      exact hpending (h.still (quiet_die s w))

/-! ### A connect -/

/-- Only a session that is found as it was is up. -/
theorem wp_alreadyConnected {Q : Bool → ℕ → World → Prop} {E : PyError → ℕ → World → Prop}
    {C : World → Prop}
    (hup : ∀ s n', w.sessions.lookup c = some s → (w.heap s).isConnected = true → Q true n' w)
    (hdown : ∀ n' w', Quiet (fun _ => True) w w' → Q false n' w') (hC : C w) :
    wp o (IngestWorker.alreadyConnected c) Q E C n w := by
  unfold IngestWorker.alreadyConnected
  rw [wp_bind, wp_reads]
  cases hs : w.sessions.lookup c with
  | none => exact hdown _ _ (frame_quiet.refl w)
  | some s =>
    dsimp only
    rw [ChannelSession.wp_checkConnected]
    refine ⟨fun _ => ?_, fun _ => hdown _ _ (quiet_die s w), fun _ => hC⟩
    cases hcon : (w.heap s).isConnected with
    | true => exact hup s _ hs hcon
    | false => exact hdown _ _ (frame_quiet.refl w)

/-- A pending record start, after a status that may have been written. -/
theorem leavesFiled_pendingStart {b : Prop} [Decidable b] {f : Database → Database}
    {p : Bool → Prop} [∀ pending, Decidable (p pending)] (h : Filed n₀ w)
    (hf : (w.commitDb f).media = w.media)
    (hfree : p (decide (c ∈ w.pendingRecord)) → ∀ s, w.sessions.lookup c = some s →
      (w.heap s).isConnected = true → (w.heap s).recording = false → ∀ r, ¬ w.Stores r ⟨c, s⟩) :
    LeavesFiled n₀ o (whenever b (commit f) >>= fun _ =>
      reads (fun w => decide (c ∈ w.pendingRecord)) >>= fun pending =>
        whenever (p pending) (IngestWorker.handleRecordStart c)) n w := by
  have hstart : ∀ n' w', Filed n₀ w' → w'.media = w.media → w'.sessions = w.sessions →
      w'.heap = w.heap → w'.pendingRecord = w.pendingRecord →
      LeavesFiled n₀ o (reads (fun w => decide (c ∈ w.pendingRecord)) >>= fun pending =>
        whenever (p pending) (IngestWorker.handleRecordStart c)) n' w' := by
    intro n' w' hw' hmedia hsess hheap hpend
    unfold LeavesFiled
    rw [wp_bind, wp_reads, wp_whenever]
    refine ⟨fun hwant => leavesFiled_handleRecordStart hw' fun s hs hup hidle r hr => ?_,
      fun _ => hw'⟩
    rw [hsess] at hs
    rw [hheap] at hup hidle
    rw [hpend] at hwant
    exact hfree hwant s hs hup hidle r ((World.Stores.congr (congrFun hmedia r)).mp hr)
  unfold LeavesFiled
  rw [wp_bind, wp_whenever]
  refine ⟨fun _ => ?_, fun _ => hstart n w h rfl rfl rfl rfl⟩
  rw [wp_commit]
  exact ⟨fun _ => hstart _ _ (h.still (quiet_commit hf)) hf rfl rfl rfl, fun _ => h, fun _ => h⟩

/-- **A fresh session**: its directory has no row. -/
theorem leavesFiled_openSession (h : Filed n₀ w) :
    LeavesFiled n₀ o (IngestWorker.openSession c) n w := by
  unfold IngestWorker.openSession LeavesFiled
  rw [wp_bind, wp_query]
  refine ⟨fun _ => ?_, fun _ => h, fun _ => h⟩
  cases w.db.channels.lookup c with
  | none => exact h
  | some ch =>
    unfold channelToConfig
    dsimp only
    rw [wp_bind, wp_bind, wp_external]
    refine ⟨fun _ => ?_, fun _ => h, fun _ => h⟩
    unfold ChannelSession.create
    simp only [wp_pure, wp_bind, wp_reads, wp_modify]
    set s := w.nextId
    set w₁ := w.takeId.updSession s fun _ => ChannelSession.new ch.protocol
    -- The id of the new session is not taken, so what happens to it concerns no other session.
    have hgone : ∀ d, w.sessions.lookup d ≠ some s :=
      fun d hd => absurd (h.held d s hd).2.1 (lt_irrefl _)
    have hq : Quiet (· ≠ s) w w₁ := by
      refine frame_quiet.trans w w.takeId w₁ ?_ (quiet_updSession s _ fun hne => absurd rfl hne)
      exact ⟨rfl, rfl, fun _ _ _ => Iff.rfl, Nat.le_succ _, fun _ _ hs => hs, fun _ _ hr => hr,
        fun _ _ _ _ => ⟨rfl, rfl⟩⟩
    have h₁ : Filed n₀ w₁ := h.quiet hq fun d t ht hd =>
      absurd (not_not.mp ht ▸ hd) (hgone d)
    have hconnect : LeavesFiled n₀ o (IngestWorker.connectSession c s (ch.status = .starting))
        (n + 1 + 1) w₁ := by
      unfold IngestWorker.connectSession ChannelSession.connect LeavesFiled
      rw [wp_bind, wp_bind, wp_external]
      refine ⟨fun _ => ?_, fun _ => h₁, fun _ => h₁⟩
      rw [wp_modify, wp_bind, wp_modify]
      have h₂ : Filed n₀ (w₁.updSession s ChannelSession.markConnected) :=
        h₁.quiet (quiet_updSession (P := (· ≠ s)) s _ fun hne => absurd rfl hne) fun d t ht hd =>
          absurd (not_not.mp ht ▸ hd) (hgone d)
      have h₃ : Filed n₀ ((w₁.updSession s ChannelSession.markConnected).setSession c s) := by
        refine h₂.enter h.base (Nat.lt_succ_self _) hgone ?_ ?_
        · rw [heap_updSession_self, heap_updSession_self]
          exact ⟨rfl, rfl⟩
        · rw [heap_updSession_self, heap_updSession_self]
          rfl
      rw [wp_bind, wp_query]
      refine ⟨fun _ => ?_, fun _ => h₃, fun _ => h₃⟩
      refine leavesFiled_pendingStart
        (p := fun pending => decide (ch.status = .starting) = true ∨ pending = true)
        h₃ ?_ fun _ t ht _ _ r hr => ?_
      · split
        · rfl
        · rfl
      · -- The session is the fresh one, whose id is in no directory yet.
        have hs : some s = some t := by simpa using ht
        obtain rfl : s = t := Option.some.inj hs
        obtain ⟨m, hm, hdir⟩ := hr
        have hlt := (h.rows r m hm).2
        rw [hdir] at hlt
        exact lt_irrefl _ hlt
    -- What raises is caught, and the channel is written down as failed.
    rw [wp_attempt]
    refine wp_mono hconnect (fun _ _ _ h => h) (fun _ n' w' h' => ?_) fun _ h => h
    refine leavesFiled_of_quiet h' (S := fun _ => True) ?_
    unfold IngestWorker.connectFailed
    refine Keeps.queried frame_quiet fun ch => ?_
    exact Keeps.whenever frame_quiet fun _ => (stages_setStatus c _).commit frame_quiet

/-- **`_handle_connect` keeps the books**, if it opens no second recording in a session. -/
theorem leavesFiled_handleConnect {cfg : Settings} (h : Filed n₀ w)
    (hfree : c ∈ w.pendingRecord → ∀ s, w.sessions.lookup c = some s →
      (w.heap s).isConnected = true → (w.heap s).recording = false → ∀ r, ¬ w.Stores r ⟨c, s⟩) :
    LeavesFiled n₀ o (IngestWorker.handleConnect cfg c) n w := by
  unfold IngestWorker.handleConnect LeavesFiled
  rw [wp_bind]
  refine wp_alreadyConnected (fun s n' hs hup => ?_) (fun n' w' hq => ?_) h
  · rw [if_pos rfl, wp_bind, wp_query]
    refine ⟨fun _ => ?_, fun _ => h, fun _ => h⟩
    exact leavesFiled_pendingStart (p := fun pending => pending = true) h rfl fun hwant =>
      hfree (of_decide_eq_true hwant)
  · have h' := h.still hq
    rw [if_neg (by simp), wp_bind, wp_reads, wp_ite]
    refine ⟨fun _ => ?_, fun _ => leavesFiled_openSession h'⟩
    refine leavesFiled_of_quiet h' (S := fun _ => True) ?_
    refine Keeps.queried frame_quiet fun ch => ?_
    exact Keeps.whenever frame_quiet fun _ => (stages_setStatus c _).commit frame_quiet

/-! ### A heartbeat -/

/-- A channel loses its session and its row at once. -/
theorem keepsQuiet_forget {α : Type} {S : α → Prop} {m : Handler α} (c : ChannelId)
    (hm : Keeps (Quiet fun _ => True) S m) :
    Keeps (Quiet fun _ => True) S (modify (World.dropSession c) >>= fun _ =>
      modify (World.dropRecordingId c) >>= fun _ => m) := by
  intro o n w
  rw [wp_bind, wp_modify, wp_bind, wp_modify]
  refine hm.from_ frame_quiet (frame_quiet.trans w (w.dropSession c) _ (quiet_dropSession c w) ?_)
  exact quiet_dropRecordingId fun s hs => by simp at hs

/-- **A heartbeat is quiet.** -/
theorem keepsQuiet_heartbeat (cfg : Settings) : KeepsQuiet (IngestWorker.heartbeat cfg) := by
  have hsession : ∀ (staged : Database → Database) (e : Sigma fun _ : ChannelId => SessionId),
      Stages (Quiet fun _ => True) staged → Keeps (Quiet fun _ => True)
        (Stages (Quiet fun _ => True)) (IngestWorker.heartbeatSession staged e) := by
    intro staged e hstaged
    unfold IngestWorker.heartbeatSession
    refine Keeps.seq frame_quiet (keepsQuiet_checkConnected e.2) fun up => ?_
    refine Keeps.ite (fun _ => ?_) fun _ => ?_
    · exact Keeps.seq frame_quiet (statsFrame_quiet.publishStats e.1) fun _ =>
        Keeps.pure frame_quiet hstaged
    · apply keepsQuiet_forget
      refine Keeps.seq frame_quiet (Keeps.modify fun w =>
        quiet_of_eq rfl rfl rfl rfl rfl rfl fun _ _ => rfl) fun _ => ?_
      refine Keeps.seq frame_quiet (statsFrame_quiet.clearStats e.1) fun _ => ?_
      refine Keeps.bind frame_quiet (keepsQuiet_failActiveRecording e.1) fun fail hfail => ?_
      refine Keeps.queried frame_quiet fun ch => ?_
      have hmark : Stages (Quiet fun _ => True) (if ch.any (· ∈ activeStatuses) = true
          then Database.setStatus e.1 .error else id) :=
        stages_ite (stages_setStatus e.1 _) (stages_id frame_quiet)
      exact Keeps.pure frame_quiet (hmark.comp frame_quiet (hfail.comp frame_quiet hstaged))
  unfold IngestWorker.heartbeat
  refine Keeps.queried frame_quiet fun worker => ?_
  refine Keeps.read frame_quiet fun keys => ?_
  refine Keeps.read frame_quiet fun now => ?_
  refine Keeps.read frame_quiet fun items => ?_
  refine Keeps.bind frame_quiet (Keeps.fold frame_quiet hsession items _ ?_)
    fun staged hstaged => ?_
  · cases worker with
    | none => exact stages_id frame_quiet
    | some row => exact fun _ => quiet_commit rfl
  · refine Keeps.seq frame_quiet (hstaged.commit frame_quiet) fun _ => ?_
    exact Keeps.modify fun w => quiet_of_eq rfl rfl rfl rfl rfl rfl fun _ _ => rfl

end Handlers

/-! ## Runs -/

/-- One step of a worker, of what surrounds it or of a capture.  A tick is a heartbeat and the
handlers of its control jobs. -/
inductive MediaStep where
  /-- A request of the scheduler. -/
  | request (r : Request) (c : ChannelId)
  /-- A connect handler. -/
  | connect (c : ChannelId) (o : Oracle Call)
  /-- A control handler. -/
  | control (op : Op) (c : ChannelId) (o : Oracle Call)
  /-- A heartbeat. -/
  | heartbeat (o : Oracle Call)
  /-- A session dies. -/
  | die (s : SessionId)
  /-- A session that records writes a segment. -/
  | capture (c : ChannelId) (index size : ℕ)

/-- The state after a step.  The recording session of a channel captures for the row that the
worker remembers. -/
def MediaStep.run (cfg : Settings) (w : World) : MediaStep → Option World
  | request r c => some (w.request r c)
  | connect c o => some (final o (IngestWorker.handleConnect cfg c) w)
  | control op c o => some (final o (IngestWorker.handlers op c) w)
  | heartbeat o => some (final o (IngestWorker.heartbeat cfg) w)
  | die s => some (w.die s)
  | capture c index size =>
    match w.sessions.lookup c, w.recordingIds.lookup c with
    | some s, some r =>
      if (w.heap s).recording = true ∧ (w.heap s).isConnected = true then
        (w.heap s).outputDir.map fun dir => w.capture ⟨dir, index, size, r⟩
      else none
    | _, _ => none

/-- The session of channel `c` is up and does not record, and its directory has a row. -/
def Reusable (w : World) (c : ChannelId) : Prop :=
  ∃ s r, w.sessions.lookup c = some s ∧ (w.heap s).isConnected = true ∧
    (w.heap s).recording = false ∧ w.Stores r ⟨c, s⟩

/-- The step starts a recording in a session that has had one. -/
def Reopens (w : World) : MediaStep → Prop
  | .control .start c _ => Reusable w c
  | .connect c _ => c ∈ w.pendingRecord ∧ Reusable w c
  | _ => False

/-- A worker that has no session yet; the ids of the rows and directories there are will not be
handed out again. -/
structure Booted (w : World) : Prop where
  /-- The worker has no session. -/
  sessions : w.sessions = ∅
  /-- It remembers no row. -/
  recordingIds : w.recordingIds = ∅
  rows_lt : ∀ r row, w.db.recordings.lookup r = some row →
    r < w.nextId ∧ row.storagePath.sessionId < w.nextId
  /-- The directories of the files there are will not be used again. -/
  files_lt : ∀ f ∈ w.files, f.dir.sessionId < w.nextId
  /-- Nothing was counted yet. -/
  uncounted : ∀ r n fs, Event.counted r n fs ∉ w.trace

/-- The rows that are new since `n₀` have directories of their own, each file that was counted
for a row was captured for it, and the counts of a new row are those of the files counted. -/
structure Unmixed (n₀ : ℕ) (w : World) : Prop where
  /-- Two rows have two directories, unless both were there before. -/
  paths : ∀ r r' row row', n₀ ≤ r → w.db.recordings.lookup r = some row →
    w.db.recordings.lookup r' = some row' → row.storagePath = row'.storagePath → r = r'
  /-- Every file that was counted for a row was captured for it. -/
  counted : ∀ r n fs, Event.counted r n fs ∈ w.trace → n ≤ fs.length ∧ ∀ f ∈ fs, f.during = r
  /-- The counts of a new row are zero, or those of the files that were counted for it. -/
  counts : ∀ r row, n₀ ≤ r → w.db.recordings.lookup r = some row →
    (row.segmentCount = 0 ∧ row.byteSize = 0) ∨ ∃ fs,
      Event.counted r row.segmentCount fs ∈ w.trace ∧ row.byteSize = (fs.map MediaFile.size).sum

section Runs

variable {cfg : Settings} {n₀ : ℕ} {w w' : World} {c : ChannelId} {s : SessionId}

/-- What a handler leaves when it ends. -/
theorem filed_final {m : Handler Unit} {o : Oracle Call} (hm : LeavesFiled n₀ o m 0 w) :
    Filed n₀ (final o m w) := final_of_wp (P := Filed n₀) hm

/-- A capture writes into its own directory. -/
theorem filesIn_capture {f : MediaFile} {dir : SessionDir} (h : dir ≠ f.dir) :
    (w.capture f).filesIn dir = w.filesIn dir := by
  unfold World.filesIn World.capture
  rw [List.filter_append, List.filter_filter]
  have hnil : [f].filter (fun g => g.dir = dir) = [] := by simp [h.symm]
  rw [hnil, List.append_nil]
  refine List.filter_congr fun g _ => ?_
  by_cases hg : g.dir = dir
  · simp [hg, h]
  · simp [hg]

/-- **A capture** writes into the directory of the row it is for. -/
theorem Filed.capture (h : Filed n₀ w) (hs : w.sessions.lookup c = some s)
    (hrec : (w.heap s).recording = true) {r : RecordingId} (hr : w.recordingIds.lookup c = some r)
    {f : MediaFile} (hdir : (w.heap s).outputDir = some f.dir) (hf : f.during = r) :
    Filed n₀ (w.capture f) := by
  have hkept := (h.held c s hs).2.2
  obtain ⟨hfalse, -⟩ | ⟨-, hstores, hout, -⟩ := hkept.known r hr
  · exact absurd (hfalse.symm.trans hrec) (by simp)
  have hfdir : f.dir = ⟨c, s⟩ := Option.some.inj (hdir.symm.trans hout)
  refine ⟨h.base, h.distinct, fun d t ht => ?_, h.known, h.rows, h.once, fun g hg hbase => ?_,
    h.counted, h.counts⟩
  · obtain ⟨hbase, hlt, hk⟩ := h.held d t ht
    refine ⟨hbase, hlt, hk.recording, fun r' hr' => ?_, hk.unused⟩
    apply (hk.known r' hr').imp id
    rintro ⟨hnew, hst, ho, hcount⟩
    refine ⟨hnew, hst, ho, ?_⟩
    -- The capturing session has counted nothing; the others look into other directories.
    by_cases hts : t = s
    · subst hts
      have hzero : ((w.capture f).heap t).segmentCount = 0 := (hkept.recording hrec).1
      rw [hzero]
      exact Nat.zero_le _
    · rw [filesIn_capture (by rw [hfdir]; simp [hts])]
      exact hcount
  · rcases List.mem_append.mp hg with hg | hg
    · exact h.files g (List.mem_of_mem_filter hg) hbase
    · obtain rfl := List.mem_singleton.mp hg
      rw [hf, hfdir]
      exact hstores

/-- A request does not touch media. -/
theorem quiet_request (r : Request) (c : ChannelId) (w : World) :
    Quiet (fun _ => True) w (w.request r c) := by
  have hpush : ∀ (qs : List Queue) (f : World → Queue → Raw) (w : World),
      Quiet (fun _ => True) w (qs.foldl (fun w' q => w'.push q (f w' q)) w) := by
    intro qs f
    induction qs with
    | nil => exact fun w => frame_quiet.refl w
    | cons q qs ih =>
      exact fun w => frame_quiet.trans w (w.push q (f w q)) _
        (quiet_of_eq rfl rfl rfl rfl rfl rfl fun _ _ => rfl) (ih _)
  rcases request_cases r c w with ⟨st, -, -, -, hout⟩ | ⟨-, hout⟩
  · rw [hout]
    exact frame_quiet.trans w (w.commitDb (Database.setStatus c (r.intent st))) _
      (quiet_commit rfl) (hpush (r.jobs st) (fun _ q => .json (jobPayload c w.db q)) _)
  · rw [hout]
    exact frame_quiet.refl w

/-- **One step keeps the books**, unless it reopens a session. -/
theorem filed_step {a : MediaStep} (h : Filed n₀ w) (hcare : ¬ Reopens w a)
    (hstep : a.run cfg w = some w') : Filed n₀ w' := by
  cases a with
  | request r c =>
    obtain rfl := Option.some.inj hstep
    exact h.still (quiet_request r c w)
  | connect c o =>
    obtain rfl := Option.some.inj hstep
    exact filed_final (leavesFiled_handleConnect h fun hpend s hs hup hidle r hr =>
      hcare ⟨hpend, s, r, hs, hup, hidle, hr⟩)
  | control op c o =>
    obtain rfl := Option.some.inj hstep
    cases op with
    | disconnect => exact filed_final (leavesFiled_handleDisconnect h)
    | stop => exact filed_final (leavesFiled_handleRecordStop h)
    | start =>
      exact filed_final (leavesFiled_handleRecordStart h fun s hs hup hidle r hr =>
        hcare ⟨s, r, hs, hup, hidle, hr⟩)
  | heartbeat o =>
    obtain rfl := Option.some.inj hstep
    exact h.still (keepsQuiet_heartbeat cfg).final
  | die s =>
    obtain rfl := Option.some.inj hstep
    exact h.still (quiet_die s w)
  | capture c index size =>
    -- A segment goes to the directory that the recording session was prepared for.
    simp only [MediaStep.run] at hstep
    split at hstep
    · rename_i s r hs hr
      split at hstep
      · rename_i hrec
        obtain ⟨dir, hdir, rfl⟩ := Option.map_eq_some_iff.mp hstep
        exact h.capture hs hrec.1 hr hdir rfl
      · exact absurd hstep (by simp)
    · exact absurd hstep (by simp)

/-- A worker that has just started has filed everything. -/
theorem filed_of_booted (h : Booted w) : Filed w.nextId w := by
  have hsess : ∀ c s, w.sessions.lookup c ≠ some s := by simp [h.sessions]
  have hrow : ∀ r m, w.media r = some m →
      r < w.nextId ∧ m.storagePath.sessionId < w.nextId := by
    intro r m hm
    obtain ⟨row, hrow, rfl⟩ := Option.map_eq_some_iff.mp hm
    exact h.rows_lt r row hrow
  refine ⟨le_rfl, fun c d s hs => absurd hs (hsess c s), fun c s hs => absurd hs (hsess c s),
    fun c r hr => ?_, hrow, fun r r' dir hr hst => ?_, fun f hf hbase => ?_,
    fun r n fs hmem => absurd hmem (h.uncounted r n fs), fun r m hr hm => ?_⟩
  · rw [h.recordingIds] at hr
    exact absurd hr (by simp)
  · obtain ⟨m, hm, -⟩ := hst
    exact absurd (hrow r m hm).1 (Nat.not_lt.mpr hr)
  · exact absurd (h.files_lt f hf) (Nat.not_lt.mpr hbase)
  · exact absurd (hrow r m hm).1 (Nat.not_lt.mpr hr)

/-- What is filed is not mixed. -/
theorem Filed.unmixed (h : Filed n₀ w) : Unmixed n₀ w := by
  have hmedia : ∀ r row, w.db.recordings.lookup r = some row → w.media r = some row.media :=
    fun r row hrow => by
      unfold World.media
      rw [hrow, Option.map_some]
  refine ⟨fun r r' row row' hr hrow hrow' heq => ?_, h.counted, fun r row hr hrow => ?_⟩
  · exact h.once r r' row.storagePath hr ⟨_, hmedia r row hrow, rfl⟩
      ⟨_, hmedia r' row' hrow', heq.symm⟩
  · exact h.counts r row.media hr (hmedia r row hrow)

/-- **In every run that starts no second recording in a session, recordings share no media.** -/
theorem unmixed_along {as : List MediaStep} (hw : Booted w)
    (hcare : Runs.Along (fun w a => ¬ Reopens w a) (MediaStep.run cfg) w as)
    (hrun : Runs.run (MediaStep.run cfg) w as = some w') : Unmixed w.nextId w' := by
  have hfiled := Runs.run_invariant (I := Filed w.nextId)
    (fun _ _ _ h hok hstep => filed_step h hok hstep) as w w' (filed_of_booted hw) hcare hrun
  exact hfiled.unmixed

end Runs

/-- The world of the witness has just started. -/
theorem booted_offAir : Booted offAir where
  sessions := rfl
  recordingIds := rfl
  rows_lt := by simp [offAir, World.fresh]
  files_lt := by simp [offAir, World.fresh]
  uncounted := by simp [offAir, World.fresh]

/-- A session that is stopped and started again: both rows have the directory of the session. -/
theorem second_recording_shares_directory :
    ¬ ∀ (cfg : Settings) (w w' : World) (as : List MediaStep), Booted w →
      Runs.run (MediaStep.run cfg) w as = some w' → Unmixed w.nextId w' := by
  intro h
  have hmixed := h ⟨"worker", 8⟩ offAir _ [.connect (.str "a") allOk,
    .control .start (.str "a") allOk, .capture (.str "a") 0 10, .control .stop (.str "a") allOk,
    .control .start (.str "a") allOk, .capture (.str "a") 1 20, .control .stop (.str "a") allOk]
    booted_offAir rfl
  have hrows := hmixed.paths 1 2 _ _ (Nat.zero_le 1) rfl rfl rfl
  exact absurd hrows (by decide)

/-- One recording with one segment. -/
theorem unmixed_along_offAir : ∃ w', Runs.run (MediaStep.run ⟨"worker", 8⟩) offAir
    [.connect (.str "a") allOk, .control .start (.str "a") allOk, .capture (.str "a") 0 10,
      .control .stop (.str "a") allOk] = some w' ∧ Unmixed 0 w' := by
  refine ⟨_, rfl, @unmixed_along ⟨"worker", 8⟩ offAir _ [.connect (.str "a") allOk,
    .control .start (.str "a") allOk, .capture (.str "a") 0 10, .control .stop (.str "a") allOk]
    booted_offAir ?_ rfl⟩
  refine Runs.along_cons ?_ rfl (Runs.along_cons ?_ rfl (Runs.along_cons (fun h => h) rfl
    (Runs.along_cons (fun h => h) rfl trivial)))
  · rintro ⟨hpend, -⟩
    exact absurd hpend (Finset.notMem_empty _)
  · rintro ⟨s, r, -, -, -, m, hm, -⟩
    have hnone : (none : Option Media) = some m := hm
    exact absurd hnone (by simp)
