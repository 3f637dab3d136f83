/-
# Recording rows end once

A row is inserted at status `recording` and ended by one of four writers: the end of a recording
completes it, the others fail it.  `Moves` is what may become of the status and the end of a row,
and `Ends` says it of all rows together with the postprocess jobs that are published: one for each
row that is completed.  A handler keeps to it as long as the row ids that the worker remembers are
those of rows in flight (`View.Remembers`), which one of them can break: a disconnect whose
session does not record leaves the remembered id behind.

So the run theorem asks of every step that it forgets no remembered row in this way, and then speaks
of any two states of a run: what has ended has its status and its end for good, and the jobs that
were published between them are those of the rows that were completed between them.
-/
import IngestFarm.Collect
import IngestFarm.Frames
import IngestFarm.Ownership
import IngestFarm.Startup

open Prog

/-! ## What may become of a row -/

/-- Status and end of a row. -/
abbrev Ending := RecordingStatus × Option ℕ

/-- Status and end of a row, if it exists. -/
def Database.ending (db : Database) (r : RecordingId) : Option Ending :=
  (db.recordings.lookup r).map fun row => (row.status, row.endedAt)

/-- What may become of a row: it appears in flight, and ends together with its status. -/
inductive Moves : Option Ending → Option Ending → Prop
  /-- Nothing. -/
  | same (e : Option Ending) : Moves e e
  /-- A row appears, in flight. -/
  | inserted : Moves none (some (.recording, none))
  /-- A row in flight ends. -/
  | ended (e : Option ℕ) (st : RecordingStatus) (now : ℕ) : st ≠ .recording →
      Moves (some (.recording, e)) (some (st, some now))
  /-- A row appears that has ended, where a start has failed in one handler. -/
  | both (st : RecordingStatus) (now : ℕ) : st ≠ .recording → Moves none (some (st, some now))

/-- What becomes of a row in two steps may become of it in one. -/
theorem Moves.trans {a b c : Option Ending} (h : Moves a b) (h' : Moves b c) : Moves a c := by
  cases h with
  | same => exact h'
  | inserted =>
    cases h' with
    | same => exact inserted
    | ended e st now hst => exact both st now hst
  | ended e st now hst =>
    cases h' with
    | same => exact ended e st now hst
    | ended e' st' now' hst' => exact absurd rfl hst
  | both st now hst =>
    cases h' with
    | same => exact both st now hst
    | ended e' st' now' hst' => exact absurd rfl hst

/-- A row that has ended stays as it is. -/
theorem Moves.eq_of_ended {e e' : Option Ending} {st : RecordingStatus} {t : Option ℕ}
    (h : Moves e e') (he : e = some (st, t)) (hst : st ≠ .recording) : e' = e := by
  cases h with
  | same => rfl
  | inserted => exact absurd he (by simp)
  | ended e st' now hst' =>
    obtain ⟨rfl, -⟩ := Prod.mk.inj (Option.some.inj he)
    exact absurd rfl hst
  | both st' now hst' => exact absurd he (by simp)

/-- The row is completed. -/
def isCompleted (e : Option Ending) : Bool := e.any fun e => e.1 = .completed

/-- A completed row stays completed. -/
theorem Moves.isCompleted_mono {e e' : Option Ending} (h : Moves e e')
    (he : isCompleted e = true) : isCompleted e' = true := by
  cases h with
  | same => exact he
  | inserted => exact absurd he (by decide)
  | ended e st now hst => exact absurd he (by simp [isCompleted])
  | both st now hst => exact absurd he (by simp [isCompleted])

/-- The row that an event announces for post-processing. -/
def Event.posted : Event → Option RecordingId
  | .published .postprocess r _ => some r
  | _ => none

/-- The postprocess jobs published so far. -/
def World.posts (w : World) : List RecordingId := w.trace.filterMap Event.posted

/-- Rows only move as they may, and each row that is completed is published once. -/
structure Ends (w w' : World) : Prop where
  moves : ∀ r, Moves (w.db.ending r) (w'.db.ending r)
  posts : ∀ r, w'.posts.count r = w.posts.count r +
    if isCompleted (w'.db.ending r) = true ∧ isCompleted (w.db.ending r) = false then 1 else 0

/-- Nothing happens. -/
theorem Ends.refl (w : World) : Ends w w := by
  refine ⟨fun r => Moves.same _, fun r => ?_⟩
  rw [if_neg (by simp), Nat.add_zero]

/-- **Composition.** -/
theorem Ends.trans {w w' w'' : World} (h : Ends w w') (h' : Ends w' w'') : Ends w w'' := by
  refine ⟨fun r => (h.moves r).trans (h'.moves r), fun r => ?_⟩
  rw [h'.posts r, h.posts r]
  have hmono := (h.moves r).isCompleted_mono
  have hmono' := (h'.moves r).isCompleted_mono
  rcases ha : isCompleted (w.db.ending r) with _ | _
  · rcases hb : isCompleted (w'.db.ending r) with _ | _
    · simp
    · have hc := hmono' hb
      simp [hc]
  · have hb := hmono ha
    have hc := hmono' hb
    simp [hb]

/-- Nothing that matters here has changed. -/
theorem Ends.of_eq {w w' : World} (hrec : w'.db.recordings = w.db.recordings)
    (hposts : w'.posts = w.posts) : Ends w w' := by
  have hsame : ∀ r, w'.db.ending r = w.db.ending r := by
    intro r
    unfold Database.ending
    rw [hrec]
  refine ⟨fun r => hsame r ▸ Moves.same _, fun r => ?_⟩
  rw [hposts, hsame r, if_neg (by simp), Nat.add_zero]

/-! ## The writes -/

/-- The end of a row, written over another. -/
theorem ending_endRecording (db : Database) (r r' : RecordingId) (st : RecordingStatus) (now : ℕ) :
    (db.endRecording r st now).ending r' =
      if r' = r then (db.ending r).map fun _ => (st, some now) else db.ending r' := by
  unfold Database.ending
  rw [Database.lookup_recordings_endRecording]
  split
  · rw [Option.map_map, Option.map_map]
    rfl
  · rfl

/-- Counts are no end. -/
theorem ending_setCounts (db : Database) (r r' : RecordingId) (m n : ℕ) :
    (db.setCounts r m n).ending r' = db.ending r' := by
  unfold Database.ending
  rw [Database.lookup_recordings_setCounts]
  split
  · rename_i h
    rw [h, Option.map_map]
    rfl
  · rfl

/-- A row in flight. -/
theorem ending_of_inFlight {db : Database} {c : ChannelId} {r : RecordingId}
    (h : db.InFlight c r) : ∃ e, db.ending r = some (.recording, e) := by
  obtain ⟨row, hrow, -, hst⟩ := h
  refine ⟨row.endedAt, ?_⟩
  unfold Database.ending
  rw [hrow, Option.map_some, hst]

/-- The rows that a handler means to fail, over the rows that are committed. -/
def Fails (now : ℕ) (db db' : Database) : Prop :=
  ∀ r, db'.ending r = db.ending r ∨
    (∃ e, db.ending r = some (.recording, e)) ∧ db'.ending r = some (.failed, some now)

theorem Fails.refl (now : ℕ) (db : Database) : Fails now db db := fun _ => Or.inl rfl

/-- One row in flight more. -/
theorem Fails.endRecording {now : ℕ} {db db' : Database} (h : Fails now db db') {r : RecordingId}
    {e : Option ℕ} (hr : db.ending r = some (.recording, e)) :
    Fails now db (db'.endRecording r .failed now) := by
  intro r'
  rw [ending_endRecording]
  by_cases hr' : r' = r
  · subst hr'
    refine Or.inr ⟨⟨e, hr⟩, ?_⟩
    rw [if_pos rfl]
    rcases h r' with h | ⟨-, h⟩
    · rw [h, hr]
      rfl
    · rw [h]
      rfl
  · rw [if_neg hr']
    exact h r'

/-- The other tables may change. -/
theorem Fails.of_recordings {now : ℕ} {db db' db'' : Database} (h : Fails now db db')
    (hrec : db''.recordings = db'.recordings) : Fails now db db'' := by
  intro r
  have hsame : db''.ending r = db'.ending r := by
    unfold Database.ending
    rw [hrec]
  rw [hsame]
  exact h r

/-- Failing rows in flight is fine, and nothing is published. -/
theorem Fails.ends {now : ℕ} {w w' : World} (h : Fails now w.db w'.db)
    (hposts : w'.posts = w.posts) : Ends w w' := by
  refine ⟨fun r => ?_, fun r => ?_⟩
  · rcases h r with h | ⟨⟨e, he⟩, h⟩
    · exact h ▸ Moves.same _
    · rw [he, h]
      exact Moves.ended e .failed now (by decide)
  · have hno : ¬ (isCompleted (w'.db.ending r) = true ∧ isCompleted (w.db.ending r) = false) := by
      rintro ⟨hc, hc'⟩
      rcases h r with h | ⟨-, h⟩
      · rw [h, hc'] at hc
        exact absurd hc (by decide)
      · rw [h] at hc
        exact absurd hc (by simp [isCompleted])
    rw [if_neg hno, hposts, Nat.add_zero]

/-- The newest row in flight fails. -/
theorem Fails.failRow {now : ℕ} {db db' : Database} (h : Fails now db db') (c : ChannelId) :
    Fails now db (failRow (db.activeRecording c) now db') := by
  rcases ht : db.activeRecording c with _ | r
  · exact h
  · obtain ⟨e, he⟩ := ending_of_inFlight (Database.inFlight_of_activeRecording ht)
    exact h.endRecording he

/-! ## What leaves rows and jobs alone -/

/-- A step that neither commits nor publishes. -/
structure Still (w w' : World) : Prop where
  /-- No row changes. -/
  db : w'.db = w.db
  /-- No postprocess job is published. -/
  posts : w'.posts = w.posts
  now : w'.now = w.now
  nextId : w.nextId ≤ w'.nextId

theorem Still.refl (w : World) : Still w w := ⟨rfl, rfl, rfl, le_rfl⟩

theorem Still.trans {w w' w'' : World} (h : Still w w') (h' : Still w' w'') : Still w w'' :=
  ⟨h'.db.trans h.db, h'.posts.trans h.posts, h'.now.trans h.now, h.nextId.trans h'.nextId⟩

/-- Leaving the rows alone is a frame. -/
theorem frame_still : Frame Still := ⟨Still.refl, fun _ _ _ h h' => h.trans h'⟩

/-- And ends nothing. -/
theorem Still.ends {w w' : World} (h : Still w w') : Ends w w' :=
  Ends.of_eq (congrArg Database.recordings h.db) h.posts

/-- A step that leaves the remembered ids alone, too. -/
def Stiller (w w' : World) : Prop := Still w w' ∧ w'.recordingIds = w.recordingIds

/-- So is leaving the rows and what is remembered alone. -/
theorem frame_stiller : Frame Stiller :=
  ⟨fun w => ⟨Still.refl w, rfl⟩, fun _ _ _ h h' => ⟨h.1.trans h'.1, h'.2.trans h.2⟩⟩

/-- Sessions do not matter. -/
theorem sessionFrame_stiller (s : SessionId) : SessionFrame Stiller s where
  refl := frame_stiller.refl
  trans := frame_stiller.trans
  die _ := ⟨⟨rfl, rfl, rfl, le_rfl⟩, rfl⟩
  prepare _ _ := ⟨⟨rfl, rfl, rfl, le_rfl⟩, rfl⟩
  setRecording _ _ := ⟨⟨rfl, rfl, rfl, le_rfl⟩, rfl⟩
  setCount _ _ := ⟨⟨rfl, rfl, rfl, le_rfl⟩, rfl⟩
  markStopping _ := ⟨⟨rfl, rfl, rfl, le_rfl⟩, rfl⟩
  close _ := ⟨⟨rfl, rfl, rfl, le_rfl⟩, rfl⟩

/-- Nor do statistics. -/
theorem statsFrame_stiller : StatsFrame Stiller where
  refl := frame_stiller.refl
  trans := frame_stiller.trans
  addStats _ _ := ⟨⟨rfl, rfl, rfl, le_rfl⟩, rfl⟩
  dropStats _ _ := ⟨⟨rfl, rfl, rfl, le_rfl⟩, rfl⟩

/-! ## The handlers -/

section Handlers

variable {o : Oracle Call} {E : PyError → ℕ → World → Prop} {C : World → Prop} {n : ℕ}
  {w : World} {c : ChannelId} {s : SessionId}

/-- What `_finalize_recording` announces. -/
theorem wp_finalize_posts (ho : Steady o) (hrec : w.HasRecording c s) :
    wp o (IngestWorker.finalizeRecording c s)
      (fun _ _ w' => w'.posts = w.posts ++ (w.finalizeTarget c).toList)
      (fun _ _ _ => True) (fun _ => True) n w := by
  have hrest : ∀ n₁ u, Stiller w u → wp o (IngestWorker.finishRecording c s)
      (fun _ _ w' => w'.posts = w.posts ++ (w.finalizeTarget c).toList) (fun _ _ _ => True)
      (fun _ => True) n₁ u := by
    intro n₁ u hu
    unfold IngestWorker.finishRecording
    rw [wp_bind, wp_reads, wp_bind]
    refine wp_of_keeps ((sessionFrame_stiller s).measure _) (fun bytes n₂ u₂ hu₂ _ => ?_)
      (fun _ _ _ _ => trivial) fun _ _ => trivial
    have hu' := frame_stiller.trans _ _ _ hu hu₂
    rw [wp_bind, wp_reads, wp_bind, wp_reads, wp_bind, wp_modify, wp_bind]
    refine wp_findRecording ho.db (fun n₃ => ?_) fun _ => trivial
    have htarget : u₂.finalizeTarget c = w.finalizeTarget c := by
      unfold World.finalizeTarget
      rw [hu'.2, hu'.1.db]
    change wp o (IngestWorker.completeRecording c _ bytes _ (u₂.finalizeTarget c)) _ _ _ _ _
    rw [htarget]
    have hposts : (u₂.dropRecordingId c).posts = w.posts := hu'.1.posts
    unfold IngestWorker.completeRecording IngestWorker.announce
    rcases w.finalizeTarget c with _ | r
    · rw [wp_pure, hposts]
      simp
    · simp only [wp_bind, wp_reads, wp_modify, wp_external, wp_publishEvent, wp_commit]
      refine ⟨fun _ => ⟨fun _ => ⟨fun _ => ⟨fun _ => ?_, fun _ => trivial, fun _ => trivial⟩,
        fun _ => trivial, fun _ => trivial⟩, fun _ => trivial, fun _ => trivial⟩, fun _ => trivial,
        fun _ => trivial⟩
      rw [← hposts]
      simp only [World.posts, World.note_trace, World.push_trace, World.commitDb_trace,
        List.filterMap_append, List.append_assoc]
      rfl
  unfold IngestWorker.finalizeRecording
  simp only [wp_bind, wp_reads, wp_ite, wp_pure, wp_whenever]
  refine ⟨fun h => ?_, fun _ => ⟨fun _ => ?_, fun _ => hrest n w (frame_stiller.refl w)⟩⟩
  · rcases hrec with h' | h'
    · exact absurd h' (by simp [h.1])
    · exact absurd h.2 h'
  · exact wp_of_keeps ((sessionFrame_stiller s).stopRecording) (fun _ n₁ u hu _ => hrest n₁ u hu)
      (fun _ _ _ _ => trivial) fun _ _ => trivial

/-- The row to finish is in flight, if there is one. -/
def Finishable (w : World) (c : ChannelId) : Prop :=
  ∀ r, w.finalizeTarget c = some r → ∃ e, w.db.ending r = some (.recording, e)

/-- The rows after a completion. -/
theorem ends_complete {u : World} {segments bytes now : ℕ} (hfin : Finishable w c)
    (hdb : u.db.recordings =
      (World.completeRow (w.finalizeTarget c) segments bytes now w.db).recordings)
    (hposts : u.posts = w.posts ++ (w.finalizeTarget c).toList) : Ends w u := by
  have hend : ∀ r, u.db.ending r =
      (World.completeRow (w.finalizeTarget c) segments bytes now w.db).ending r := by
    intro r
    unfold Database.ending
    rw [hdb]
  rcases ht : w.finalizeTarget c with _ | t
  · rw [ht] at hdb hposts
    exact Ends.of_eq hdb (by simpa using hposts)
  · obtain ⟨e, he⟩ := hfin t ht
    rw [ht] at hend hposts
    have hrow : ∀ r, u.db.ending r = if r = t then some (.completed, some now)
        else w.db.ending r := by
      intro r
      rw [hend r]
      show ((w.db.endRecording t .completed now).setCounts t segments bytes).ending r = _
      rw [ending_setCounts, ending_endRecording, he]
      rfl
    refine ⟨fun r => ?_, fun r => ?_⟩
    · rw [hrow r]
      split
      · rename_i hr
        rw [hr, he]
        exact Moves.ended e .completed now (by decide)
      · exact Moves.same _
    · rw [hposts, List.count_append, hrow r]
      by_cases hr : r = t
      · subst hr
        rw [if_pos rfl, he]
        simp [isCompleted]
      · rw [if_neg hr]
        have hcount : [t].count r = 0 := List.count_eq_zero.mpr fun h => hr (by simpa using h)
        show _ + [t].count r = _
        rw [hcount, if_neg (by simp)]

/-- **`_finalize_recording`** ends the row in flight, or no row. -/
theorem wp_finalize_ends (ho : Steady o) (hfin : Finishable w c) :
    wp o (IngestWorker.finalizeRecording c s) (fun _ _ w' => Ends w w' ∧ w'.db.status = w.db.status)
      (fun _ _ _ => True) (fun _ => True) n w := by
  by_cases hrec : w.HasRecording c s
  · refine wp_mono (wp_and (wp_finalize (Q := fun _ _ w' => SameBooks w' (w.finalized c s)) ho hrec
      (E := fun _ _ _ => True) (C := fun _ => True) (fun _ _ h => h) fun _ _ _ => trivial)
      (wp_finalize_posts ho hrec)) ?_ (fun _ _ _ _ => trivial) fun _ _ => trivial
    rintro _ _ w' ⟨hbooks, hposts⟩
    have hfinished : (w.finalized c s).db = World.completeRow (w.finalizeTarget c)
        ((w.stopCapture s).heap s).segmentCount ((w.stopCapture s).sizeOf s) w.now w.db := by
      unfold World.finalized World.finished
      simp
      rfl
    have hdb := congrArg Database.recordings (hbooks.db.trans hfinished)
    refine ⟨ends_complete hfin hdb hposts, ?_⟩
    funext d
    rw [hbooks.db, World.status_finalized]
  · exact wp_finalize_of_not hrec ⟨Ends.refl w, rfl⟩

/-- A commit that leaves the rows alone. -/
theorem wp_commit_ends {f : Database → Database} {u : World} (hu : Ends w u)
    (hf : (f u.db).recordings = u.db.recordings) :
    wp o (commit f) (fun _ _ w' => Ends w w') (fun _ _ w' => Ends w w') (Ends w) n u := by
  rw [wp_commit]
  exact ⟨fun _ => hu.trans (Ends.of_eq hf rfl), fun _ => hu, fun _ => hu⟩

/-- The `except` branch of a record start whose row is in flight. -/
theorem wp_recordStartFailed_ends {r : RecordingId} {e : Option ℕ}
    (hr : w.recordingIds.lookup c = some r) (he : w.db.ending r = some (.recording, e)) :
    wp o (IngestWorker.recordStartFailed c s) (fun _ _ w' => Ends w w') (fun _ _ w' => Ends w w')
      (Ends w) n w := by
  have hsettle : Keeps Still (fun f => ∀ db, (f db).recordings = db.recordings)
      (IngestWorker.settleStatus c s .error) := by
    unfold IngestWorker.settleStatus
    refine Keeps.queried frame_still fun ch => ?_
    refine Keeps.ite (fun _ => Keeps.pure frame_still fun _ => rfl) fun _ => ?_
    refine Keeps.seq frame_still ?_ fun up => Keeps.pure frame_still fun _ => rfl
    exact fun o n u => wp_mono ((sessionFrame_stiller s).checkConnected o n u)
      (fun _ _ _ h => ⟨h.1.1, trivial⟩) (fun _ _ _ h => h.1) fun _ h => h.1
  have hdrop : Still w (w.dropRecordingId c) := ⟨rfl, rfl, rfl, le_rfl⟩
  unfold IngestWorker.recordStartFailed IngestWorker.failKnown
  rw [wp_bind, wp_reads, wp_bind, wp_modify, hr, wp_bind]
  simp only [wp_bind, wp_query, wp_reads, wp_pure]
  refine ⟨fun _ => ?_, fun _ => hdrop.ends, fun _ => hdrop.ends⟩
  refine wp_of_keeps hsettle (fun g n₁ u hu hg => ?_) (fun _ _ u hu => (hdrop.trans hu).ends)
    fun u hu => (hdrop.trans hu).ends
  have hu' := hdrop.trans hu
  rw [wp_commit]
  refine ⟨fun _ => ?_, fun _ => hu'.ends, fun _ => hu'.ends⟩
  have hfails : Fails w.now w.db ((if decide (r ∈ (w.dropRecordingId c).db.recordings) = true
      then Database.endRecording r .failed (w.dropRecordingId c).now else id) w.db) := by
    split
    · exact (Fails.refl _ _).endRecording he
    · exact Fails.refl _ _
  refine Fails.ends (hfails.of_recordings ?_) hu'.posts
  show (g _).recordings = _
  rw [hg, hu'.db]

/-- A row is inserted in flight. -/
theorem ends_inserted {r : RecordingId} {row : Recording} {f : Database → Database}
    (hnone : w.db.recordings.lookup r = none) (hst : row.status = .recording)
    (hend : row.endedAt = none) (hf : ∀ db, (f db).recordings = db.recordings) :
    Ends w (w.commitDb (f ∘ Database.addRecording r row)) ∧
      (w.commitDb (f ∘ Database.addRecording r row)).db.ending r = some (.recording, none) := by
  have hrow : ∀ r', (w.commitDb (f ∘ Database.addRecording r row)).db.ending r' =
      if r' = r then some (.recording, none) else w.db.ending r' := by
    intro r'
    unfold Database.ending
    show ((f (w.db.addRecording r row)).recordings.lookup r').map _ = _
    rw [hf, Database.lookup_recordings_addRecording]
    split
    · rw [Option.map_some, hst, hend]
    · rfl
  have hold : w.db.ending r = none := by
    unfold Database.ending
    rw [hnone]
    rfl
  refine ⟨⟨fun r' => ?_, fun r' => ?_⟩, by rw [hrow, if_pos rfl]⟩
  · rw [hrow r']
    split
    · rename_i hr
      rw [hr, hold]
      exact Moves.inserted
    · exact Moves.same _
  · have hno : ¬ (isCompleted (if r' = r then some (RecordingStatus.recording, none)
        else w.db.ending r') = true ∧ isCompleted (w.db.ending r') = false) := by
      rintro ⟨hc, hc'⟩
      split at hc
      · exact absurd hc (by decide)
      · rw [hc'] at hc
        exact absurd hc (by decide)
    rw [hrow r', if_neg hno]
    rfl

/-- **A record start** inserts a row, and fails it when the recording cannot be opened. -/
theorem wp_start_ends (hlt : ∀ r row, w.db.recordings.lookup r = some row → r < w.nextId) :
    wp o (IngestWorker.handleRecordStart c) (fun _ _ w' => Ends w w') (fun _ _ w' => Ends w w')
      (Ends w) n w := by
  unfold IngestWorker.handleRecordStart
  rw [wp_bind, wp_reads]
  rcases hs : w.sessions.lookup c with _ | s
  · exact Ends.of_eq rfl rfl
  · dsimp only
    rw [wp_bind]
    refine wp_of_keeps (sessionFrame_stiller s).checkConnected (fun up n₁ u hu _ => ?_)
      (fun _ _ u hu => hu.1.ends) fun u hu => hu.1.ends
    rw [wp_ite]
    refine ⟨fun _ => hu.1.ends.trans (Ends.of_eq rfl rfl), fun _ => ?_⟩
    rw [wp_bind, wp_reads, wp_bind, wp_modify, wp_ite]
    refine ⟨fun _ => hu.1.ends.trans (Ends.of_eq rfl rfl), fun _ => ?_⟩
    -- `u₀` is the state in which the recording is opened.
    obtain ⟨u₀, hu₀, hstill⟩ : ∃ u₀, u₀ = u.dropPending c ∧ Still w u₀ :=
      ⟨_, rfl, hu.1.trans ⟨rfl, rfl, rfl, le_rfl⟩⟩
    rw [← hu₀]
    have hends := hstill.ends
    have hnone : u₀.db.recordings.lookup u₀.nextId = none := by
      rcases hl : u₀.db.recordings.lookup u₀.nextId with _ | row
      · rfl
      · rw [hstill.db] at hl
        exact absurd (hlt _ row hl) (not_lt.mpr hstill.nextId)
    unfold IngestWorker.openRecording
    simp only [wp_bind, wp_external, wp_reads, wp_query, wp_modify, wp_attempt]
    refine ⟨fun _ => ⟨fun _ => ?_, fun _ => hends, fun _ => hends⟩, fun _ => hends, fun _ => hends⟩
    rw [wp_commit]
    refine ⟨fun _ => ?_, fun _ => hends, fun _ => hends⟩
    obtain ⟨hinserted, hrow⟩ := @ends_inserted u₀ u₀.nextId (IngestWorker.newRecording c s u₀.now)
      (if u₀.db.status c = none then id else Database.setStatus c .recording) hnone rfl rfl
      (fun db => by split <;> rfl)
    have hinserted' := hends.trans hinserted
    have hafter : ∀ u₁, Still (u₀.commitDb ((if u₀.db.status c = none then id
        else Database.setStatus c .recording) ∘ Database.addRecording u₀.nextId
          (IngestWorker.newRecording c s u₀.now))) u₁ → Ends w u₁ :=
      fun u₁ hu₁ => hinserted'.trans hu₁.ends
    refine ⟨fun _ => ?_, fun _ => hafter _ ⟨rfl, rfl, rfl, Nat.le_succ _⟩,
      fun _ => hafter _ ⟨rfl, rfl, rfl, Nat.le_succ _⟩⟩
    have hset := hafter (World.setRecordingId c u₀.nextId (World.takeId (u₀.commitDb
      ((if u₀.db.status c = none then id else Database.setStatus c .recording) ∘
        Database.addRecording u₀.nextId (IngestWorker.newRecording c s u₀.now)))))
      ⟨rfl, rfl, rfl, Nat.le_succ _⟩
    refine wp_of_keeps ((sessionFrame_stiller s).startRecording _) (fun _ n₂ u₂ hu₂ _ => ?_)
      (fun e n₂ u₂ hu₂ => ?_) fun u₂ hu₂ => ?_
    · exact hset.trans hu₂.1.ends
    · have hu₂' : Ends w u₂ := hset.trans hu₂.1.ends
      refine wp_mono (wp_recordStartFailed_ends (r := u₀.nextId) (e := none) ?_ ?_)
        (fun _ _ _ h => hu₂'.trans h) (fun _ _ _ h => hu₂'.trans h) fun _ h => hu₂'.trans h
      · rw [hu₂.2]
        simp
      · rw [hu₂.1.db]
        exact hrow
    · exact hset.trans hu₂.1.ends

/-- **A record stop.** -/
theorem wp_stop_ends (ho : Steady o) (hfin : ∀ s, w.sessions.lookup c = some s → Finishable w c) :
    wp o (IngestWorker.handleRecordStop c) (fun _ _ w' => Ends w w') (fun _ _ _ => True)
      (fun _ => True) n w := by
  have hdrop : Ends w (w.dropPending c) := Ends.of_eq rfl rfl
  unfold IngestWorker.handleRecordStop
  rw [wp_bind, wp_modify, wp_bind, wp_reads, World.dropPending_sessions]
  rcases hs : w.sessions.lookup c with _ | s
  · dsimp only
    unfold IngestWorker.stopWithoutSession
    rw [wp_bind]
    refine wp_query_of ho.db (fun n₁ => ?_) fun _ => trivial
    rw [wp_bind]
    refine wp_failActiveRecording ho (fun n₂ => ?_) fun _ => trivial
    refine wp_commit_of ho.db (fun n₃ => ?_) fun _ => trivial
    have hidle : Fails w.now w.db ((if (w.db.status c).any
        (· ∈ [.stopping, .recording, .starting]) = true then Database.setStatus c .idle
          else id) w.db) := by
      apply (Fails.refl _ _).of_recordings
      split <;> rfl
    exact Fails.ends (hidle.failRow c) rfl
  · dsimp only
    unfold IngestWorker.stopSession
    have hfin' : Finishable (w.dropPending c) c := hfin s hs
    rw [wp_bind]
    refine wp_mono (wp_finalize_ends ho hfin') ?_ (fun _ _ _ _ => trivial) fun _ _ => trivial
    rintro _ n₁ u ⟨hu, -⟩
    have hu' := hdrop.trans hu
    rw [wp_bind]
    refine wp_query_of ho.db (fun n₂ => ?_) fun _ => trivial
    rw [wp_whenever]
    refine ⟨fun _ => ?_, fun _ => hu'⟩
    rw [wp_bind]
    refine wp_of_keeps (sessionFrame_stiller s).checkConnected (fun up n₃ u₃ hu₃ _ => ?_)
      (fun _ _ _ _ => trivial) fun _ _ => trivial
    exact wp_mono (wp_commit_ends (hu'.trans hu₃.1.ends) rfl) (fun _ _ _ h => h)
      (fun _ _ _ _ => trivial) fun _ _ => trivial

/-- **A disconnect.** -/
theorem wp_disconnect_ends (ho : Steady o)
    (hfin : ∀ s, w.sessions.lookup c = some s → Finishable w c) :
    wp o (IngestWorker.handleDisconnect c) (fun _ _ w' => Ends w w') (fun _ _ _ => True)
      (fun _ => True) n w := by
  unfold IngestWorker.handleDisconnect
  rw [wp_bind, wp_modify, wp_bind, wp_reads, World.dropPending_sessions, wp_bind, wp_modify,
    wp_bind]
  obtain ⟨u₀, hu₀, hstill, hids⟩ : ∃ u₀, u₀ = (w.dropPending c).dropSession c ∧ Still w u₀ ∧
      u₀.recordingIds = w.recordingIds := ⟨_, rfl, ⟨rfl, rfl, rfl, le_rfl⟩, rfl⟩
  rw [← hu₀]
  -- What follows the session part.
  have hrest : ∀ n₁ u, Ends w u → wp o (do
      IngestWorker.clearStats c
      let ch ← query fun db => db.status c
      whenever (ch.any (· ∈ activeStatuses)) (commit (Database.setStatus c .idle)))
      (fun _ _ w' => Ends w w') (fun _ _ _ => True) (fun _ => True) n₁ u := by
    intro n₁ u hu
    rw [wp_bind]
    refine wp_of_keeps (statsFrame_stiller.clearStats c) (fun _ n₂ u₂ hu₂ _ => ?_)
      (fun _ _ _ _ => trivial) fun _ _ => trivial
    have hu' := hu.trans hu₂.1.ends
    rw [wp_bind]
    refine wp_query_of ho.db (fun n₃ => ?_) fun _ => trivial
    rw [wp_whenever]
    refine ⟨fun _ => ?_, fun _ => hu'⟩
    exact wp_mono (wp_commit_ends hu' rfl) (fun _ _ _ h => h) (fun _ _ _ _ => trivial)
      fun _ _ => trivial
  rcases hs : w.sessions.lookup c with _ | s
  · exact hrest n u₀ hstill.ends
  · unfold IngestWorker.closeSession
    dsimp only
    -- The session is closed between the finalization and what follows; that ends no row.
    have hclose : ∀ n₁ u, Ends w u → wp o (ChannelSession.disconnect s)
        (fun _ n₂ u₂ => wp o (do
          IngestWorker.clearStats c
          let ch ← query fun db => db.status c
          whenever (ch.any (· ∈ activeStatuses)) (commit (Database.setStatus c .idle)))
          (fun _ _ w' => Ends w w') (fun _ _ _ => True) (fun _ => True) n₂ u₂)
        (fun _ _ _ => True) (fun _ => True) n₁ u := by
      intro n₁ u hu
      exact wp_of_keeps (sessionFrame_stiller s).disconnect (fun _ n₂ u₂ hu₂ _ =>
        hrest n₂ u₂ (hu.trans hu₂.1.ends)) (fun _ _ _ _ => trivial) fun _ _ => trivial
    have hfin' : Finishable u₀ c := by
      intro r hr
      unfold World.finalizeTarget at hr
      rw [hids, hstill.db] at hr
      obtain ⟨e, he⟩ := hfin s hs r hr
      exact ⟨e, by rw [hstill.db]; exact he⟩
    -- A session that records is finalized before it is closed.
    rw [wp_bind, wp_reads, wp_bind, wp_whenever]
    refine ⟨fun _ => ?_, fun _ => hclose n u₀ hstill.ends⟩
    refine wp_mono (wp_finalize_ends ho hfin') ?_ (fun _ _ _ _ => trivial) fun _ _ => trivial
    rintro _ n₁ u ⟨hu, -⟩
    exact hclose n₁ u (hstill.ends.trans hu)

/-- A status write alone. -/
theorem ends_setStatus {u : World} (hu : Ends w u) (st : ChannelStatus) :
    Ends w (u.commitDb (Database.setStatus c st)) := hu.trans (Ends.of_eq rfl rfl)

/-- A record start, from a state with the rows of `w`. -/
theorem wp_start_ends_from {u : World} (hu : Ends w u) (hrec : u.db.recordings = w.db.recordings)
    (hid : w.nextId ≤ u.nextId)
    (hlt : ∀ r row, w.db.recordings.lookup r = some row → r < w.nextId) :
    wp o (IngestWorker.handleRecordStart c) (fun _ _ w' => Ends w w') (fun _ _ w' => Ends w w')
      (Ends w) n u := by
  refine wp_mono (wp_start_ends fun r row hrow => ?_) (fun _ _ _ h => hu.trans h)
    (fun _ _ _ h => hu.trans h) fun _ h => hu.trans h
  rw [hrec] at hrow
  exact (hlt r row hrow).trans_le hid

/-- The session part of a connect handler. -/
theorem wp_connectSession_ends {u : World} {b : Bool} (hu : Still w u)
    (hlt : ∀ r row, w.db.recordings.lookup r = some row → r < w.nextId) :
    wp o (IngestWorker.connectSession c s b) (fun _ _ w' => Ends w w') (fun _ _ w' => Ends w w')
      (Ends w) n u := by
  unfold IngestWorker.connectSession ChannelSession.connect
  simp only [wp_bind, wp_external, wp_modify]
  refine ⟨fun _ => ?_, fun _ => hu.ends, fun _ => hu.ends⟩
  have hset : Still w (World.setSession c s (World.updSession s ChannelSession.markConnected u)) :=
    hu.trans ⟨rfl, rfl, rfl, le_rfl⟩
  generalize World.setSession c s (World.updSession s ChannelSession.markConnected u) = u₁ at hset ⊢
  have hends := hset.ends
  have hrec : u₁.db.recordings = w.db.recordings := congrArg Database.recordings hset.db
  simp only [wp_query, wp_whenever, wp_commit, wp_reads]
  -- The status is written or not, and a remembered record start is taken up or not.
  refine ⟨fun _ => ⟨fun _ => ⟨fun _ => ?_, fun _ => hends, fun _ => hends⟩, fun _ => ?_⟩,
    fun _ => hends, fun _ => hends⟩
  · have hmark : ((if u₁.db.status c = some .connecting then
        Database.setStatus c .connected else id) u₁.db).recordings = u₁.db.recordings := by
      split <;> rfl
    have hcommit : Ends u₁ (u₁.commitDb (if u₁.db.status c = some .connecting then
        Database.setStatus c .connected else id)) := Ends.of_eq hmark rfl
    have hmarked := hends.trans hcommit
    exact ⟨fun _ => wp_start_ends_from hmarked (hmark.trans hrec) hset.nextId hlt, fun _ => hmarked⟩
  · exact ⟨fun _ => wp_start_ends_from hends hrec hset.nextId hlt, fun _ => hends⟩

/-- **A connect.** -/
theorem wp_connect_ends {cfg : Settings}
    (hlt : ∀ r row, w.db.recordings.lookup r = some row → r < w.nextId) :
    wp o (IngestWorker.handleConnect cfg c) (fun _ _ w' => Ends w w') (fun _ _ w' => Ends w w')
      (Ends w) n w := by
  -- Asking whether the session is up changes nothing that the property looks at.
  have hup : Keeps Stiller (fun _ => True) (IngestWorker.alreadyConnected c) := by
    unfold IngestWorker.alreadyConnected
    refine Keeps.read frame_stiller fun session => ?_
    cases session with
    | none => exact Keeps.pure frame_stiller trivial
    | some s => exact (sessionFrame_stiller s).checkConnected
  unfold IngestWorker.handleConnect
  rw [wp_bind]
  refine wp_of_keeps hup (fun up n₁ u hu _ => ?_) (fun _ _ u hu => hu.1.ends) fun u hu => hu.1.ends
  have hends := hu.1.ends
  rw [wp_ite]
  refine ⟨fun _ => ?_, fun _ => ?_⟩
  · have hrec : u.db.recordings = w.db.recordings := congrArg Database.recordings hu.1.db
    simp only [wp_bind, wp_query, wp_whenever, wp_commit, wp_reads]
    refine ⟨fun _ => ⟨fun _ => ⟨fun _ => ⟨fun _ => ?_, fun _ => ?_⟩, fun _ => hends,
      fun _ => hends⟩, fun _ => ⟨fun _ => ?_, fun _ => hends⟩⟩, fun _ => hends, fun _ => hends⟩
    · exact wp_start_ends_from (ends_setStatus hends _) hrec hu.1.nextId hlt
    · exact ends_setStatus hends _
    · exact wp_start_ends_from hends hrec hu.1.nextId hlt
  · rw [wp_bind, wp_reads, wp_ite]
    refine ⟨fun _ => ?_, fun _ => ?_⟩
    · simp only [wp_bind, wp_query, wp_whenever, wp_commit]
      exact ⟨fun _ => ⟨fun _ => ⟨fun _ => ends_setStatus hends _, fun _ => hends, fun _ => hends⟩,
        fun _ => hends⟩, fun _ => hends, fun _ => hends⟩
    · unfold IngestWorker.openSession channelToConfig ChannelSession.create
      rw [wp_bind, wp_query]
      refine ⟨fun _ => ?_, fun _ => hends, fun _ => hends⟩
      rcases u.db.channels.lookup c with _ | ch
      · exact hends
      · simp only [wp_bind, wp_external, wp_pure, wp_reads, wp_modify, wp_attempt]
        refine ⟨fun _ => ?_, fun _ => hends, fun _ => hends⟩
        refine wp_mono (wp_connectSession_ends (w := w)
          (hu.1.trans ⟨rfl, rfl, rfl, Nat.le_succ _⟩) hlt) (fun _ _ _ h => h) ?_ fun _ h => h
        intro e n₂ u₂ hu₂
        unfold IngestWorker.connectFailed
        simp only [wp_bind, wp_query, wp_whenever, wp_commit]
        exact ⟨fun _ => ⟨fun _ => ⟨fun _ => ends_setStatus hu₂ _, fun _ => hu₂, fun _ => hu₂⟩,
          fun _ => hu₂⟩, fun _ => hu₂, fun _ => hu₂⟩

/-- **A heartbeat** fails the rows of the sessions it finds dead. -/
theorem wp_heartbeat_ends {cfg : Settings} (ho : Steady o) :
    wp o (IngestWorker.heartbeat cfg) (fun _ _ w' => Ends w w') (fun _ _ _ => True)
      (fun _ => True) n w := by
  unfold IngestWorker.heartbeat
  rw [wp_bind]
  refine wp_query_of ho.db (fun n₁ => ?_) fun _ => trivial
  rw [wp_bind, wp_reads, wp_bind, wp_reads, wp_bind, wp_reads, wp_bind]
  -- Nothing is written before the commit, and what is staged fails rows in flight.
  refine wp_fold (I := fun _ staged u => Still w u ∧ Fails w.now w.db (staged w.db)) ?_ ?_ _ _ _ _
    ⟨Still.refl w, ?_⟩
  · rintro e rest staged n₂ u ⟨hu, hstaged⟩
    unfold IngestWorker.heartbeatSession
    rw [wp_bind]
    refine wp_of_keeps (sessionFrame_stiller e.2).checkConnected (fun up n₃ u₃ hu₃ _ => ?_)
      (fun _ _ _ _ => trivial) fun _ _ => trivial
    have hu' := hu.trans hu₃.1
    rw [wp_ite]
    refine ⟨fun _ => ?_, fun _ => ?_⟩
    · rw [wp_bind]
      exact wp_of_keeps (statsFrame_stiller.publishStats e.1) (fun _ n₄ u₄ hu₄ _ =>
        ⟨hu'.trans hu₄.1, hstaged⟩) (fun _ _ _ _ => trivial) fun _ _ => trivial
    · rw [wp_bind, wp_modify, wp_bind, wp_modify, wp_bind, wp_modify, wp_bind]
      refine wp_of_keeps (statsFrame_stiller.clearStats e.1) (fun _ n₄ u₄ hu₄ _ => ?_)
        (fun _ _ _ _ => trivial) fun _ _ => trivial
      have hdrop : Still u₃ (World.dropPending e.1 (World.dropRecordingId e.1
          (World.dropSession e.1 u₃))) := ⟨rfl, rfl, rfl, le_rfl⟩
      have hu₄' : Still w u₄ := hu'.trans (hdrop.trans hu₄.1)
      rw [wp_bind]
      refine wp_failActiveRecording ho (fun n₅ => ?_) fun _ => trivial
      rw [wp_bind]
      refine wp_query_of ho.db (fun n₆ => ?_) fun _ => trivial
      refine ⟨hu₄', ?_⟩
      rw [hu₄'.db, hu₄'.now]
      apply (hstaged.failRow e.1).of_recordings
      show ((if _ then Database.setStatus e.1 .error else id) _).recordings = _
      split <;> rfl
  · rintro staged n₂ u ⟨hu, hstaged⟩
    rw [wp_bind]
    refine wp_commit_of ho.db (fun n₃ => ?_) fun _ => trivial
    rw [wp_modify]
    have hcommitted : Fails w.now w.db (staged u.db) := by
      rw [hu.db]
      exact hstaged
    exact Fails.ends hcommitted hu.posts
  · apply (Fails.refl _ _).of_recordings
    rcases w.db.workers.lookup cfg.workerId with _ | row <;> rfl

/-- **A startup** fails the rows of the channels it finds orphaned. -/
theorem wp_startup_ends {cfg : Settings} (ho : Steady o) :
    wp o (IngestWorker.startup cfg) (fun _ _ w' => Ends w w') (fun _ _ _ => False)
      (fun _ => MayCrash o) n w := by
  have hregister : ∀ n₁ u, Ends w u → wp o (IngestWorker.registerWorker cfg)
      (fun _ _ w' => Ends w w') (fun _ _ _ => False) (fun _ => MayCrash o) n₁ u := by
    intro n₁ u hu
    unfold IngestWorker.registerWorker
    rw [wp_bind]
    refine wp_query_of ho.db (fun n₂ => ?_) fun h => h
    rw [wp_bind, wp_reads, wp_bind, wp_reads]
    refine wp_commit_of ho.db (fun n₃ => ?_) fun h => h
    exact hu.trans (Ends.of_eq rfl rfl)
  unfold IngestWorker.startup IngestWorker.reconcileOrphanedChannels
  rw [wp_bind, wp_bind]
  refine wp_query_of ho.db (fun n₁ => ?_) fun h => h
  rcases w.db.workers.lookup cfg.workerId with _ | row
  · exact hregister n₁ w (Ends.refl w)
  · dsimp only
    rw [wp_ite]
    refine ⟨fun _ => hregister n₁ w (Ends.refl w), fun _ => ?_⟩
    rw [wp_bind]
    refine wp_query_of ho.db (fun n₂ => ?_) fun h => h
    rw [wp_bind]
    refine wp_fold (I := fun _ acc u => u = w ∧ Fails w.now w.db (acc.1 w.db)) ?_ ?_ _ _ _ _
      ⟨rfl, Fails.refl _ _⟩
    · rintro e rest acc n₃ u ⟨rfl, hacc⟩
      unfold IngestWorker.reconcileOrphan
      rw [wp_bind, wp_reads, wp_ite]
      refine ⟨fun _ => ⟨rfl, hacc⟩, fun _ => ?_⟩
      rw [wp_bind]
      refine wp_failActiveRecording ho (fun n₄ => ?_) fun h => h
      have hidle : Fails u.now u.db (Database.setStatus e.1 .idle (acc.1 u.db)) :=
        hacc.of_recordings rfl
      exact ⟨rfl, hidle.failRow e.1⟩
    · rintro acc n₃ u ⟨rfl, hacc⟩
      rw [wp_bind, wp_reads]
      refine wp_commit_of ho.db (fun n₄ => ?_) fun h => h
      exact hregister n₄ _ (Fails.ends (hacc.of_recordings rfl) rfl)

end Handlers

/-! ## One channel -/

/-- The remembered row is one in flight, and a session of the channel is held. -/
def View.Remembers (v : View) : Prop :=
  ∀ r, v.recordingId = some r → v.rows r ≠ none ∧ v.session ≠ none

namespace View.Remembers

variable {died : Bool} {fresh : ℕ} {works wanted : Prop} {v v' : View}

/-- Nothing is remembered. -/
theorem of_none (h : v.recordingId = none) : v.Remembers := by
  intro r hr
  rw [h] at hr
  exact absurd hr (by simp)

/-- Without a session nothing is remembered. -/
theorem recordingId_eq (h : v.Remembers) (hs : v.session = none) : v.recordingId = none := by
  rcases hr : v.recordingId with _ | r
  · rfl
  · exact absurd hs (h r hr).2

/-- A start remembers the row that it inserts. -/
theorem start (h : v.Remembers) (hstep : StartStep died fresh v v') : v'.Remembers := by
  cases hstep with
  | absent hs => exact h
  | dead s x x' hs hseen => exact fun r hr => ⟨(h r hr).1, by simp⟩
  | already s x hs hup hrec => exact h
  | opened s x y hs hup hrec hy hy' =>
    intro r hr
    obtain rfl : fresh = r := Option.some.inj hr
    constructor
    · show Function.update v.rows fresh (some s) fresh ≠ none
      rw [Function.update_self]
      simp
    · simp
  | failed s x y up y' hs hup hrec hy hd hseen => exact of_none rfl

/-- A stop forgets the row that it ends. -/
theorem stop (h : v.Remembers) (hstep : StopStep died v v') : v'.Remembers := by
  cases hstep with
  | absent t hs ht => exact of_none (h.recordingId_eq hs)
  | finalized s x y t up y' hs hrec ht hy hup hseen => exact of_none rfl
  | idle s x up x' hs hrec hid hseen => exact of_none hid

/-- A disconnect whose session records, or has no row to forget. -/
theorem disconnect (h : v.Remembers) (hstep : DisconnectStep v v')
    (hcare : ∀ s x, v.session = some (s, x) → x.recording = false → v.recordingId = none) :
    v'.Remembers := by
  cases hstep with
  | absent hs => exact h
  | idle s x hs hrec => exact of_none (hcare s x hs hrec)
  | finalized s x t hs hrec ht => exact of_none rfl

/-- A heartbeat ends no row that is remembered. -/
theorem heartbeat (h : v.Remembers) (hstep : HeartbeatStep v v') : v'.Remembers := by
  cases hstep with
  | absent hs => exact h
  | up s x hs hup => exact h
  | dead s x t hs ht => exact of_none rfl

/-- A connect may start a recording. -/
theorem maybeStart (h : v.Remembers) (hstep : MaybeStart died fresh wanted v v') :
    v'.Remembers := by
  cases hstep with
  | skipped hno => exact h
  | started v' hwant hstart => exact h.start hstart

/-- A connect, whatever it finds. -/
theorem connect (h : v.Remembers) (hstep : ConnectStep died fresh works v v') :
    v'.Remembers := by
  have hnotUp : ∀ v₁, NotUp died v v₁ → v₁.Remembers := by
    intro v₁ hnot
    cases hnot with
    | absent hs => exact h
    | dead s x x' hs hseen => exact fun r hr => ⟨(h r hr).1, by simp⟩
  cases hstep with
  | already s x v' hs hup hstart =>
    have hmarked : View.Remembers { v with
      toStored := v.toStored.writeIf [.connecting] .connected } := h
    exact hmarked.maybeStart hstart
  | full v₁ hnot =>
    have h₁ := hnotUp v₁ hnot
    exact h₁
  | opens v₁ v' hnot hopen =>
    have h₁ := hnotUp v₁ hnot
    cases hopen with
    | unknown hst => exact h₁
    | failed => exact h₁
    | opened x v' hw hst hx hx' hstart =>
      -- The remembered row is left to the fresh session.
      have hset : View.Remembers { v₁ with
          toStored := v₁.toStored.writeIf [.connecting] .connected
          session := some (fresh, x) } := fun r hr => ⟨(h₁ r hr).1, by simp⟩
      exact hset.maybeStart hstart

end View.Remembers

/-! ## The worker -/

/-- One step of a worker, or of what surrounds it. -/
inductive RunStep where
  /-- The worker is killed and starts again. -/
  | startup
  /-- A request of the scheduler. -/
  | request (r : Request) (c : ChannelId)
  /-- The head of a list is taken off. -/
  | pop (q : Queue)
  /-- A connect handler. -/
  | connect (c : ChannelId) (o : Environment)
  /-- A control handler. -/
  | control (op : Op) (c : ChannelId) (o : Environment)
  /-- A reset handler. -/
  | reset (c : ChannelId) (o : Environment)
  /-- A heartbeat. -/
  | heartbeat (o : Environment)
  /-- A session dies. -/
  | die (s : SessionId)

/-- The state after a step.  A tick is `heartbeat`, `pop`s, `control`s and `reset`s in one, and
`startup` is the first step of another process. -/
def RunStep.run (cfg : Settings) (w : World) : RunStep → Option World
  | startup => some (w.restart cfg)
  | request r c => some (w.request r c)
  | pop q => some (w.setList q (w.lists q).tail)
  | connect c o => some (final o.1 (IngestWorker.handleConnect cfg c) w)
  | control op c o => some (final o.1 (IngestWorker.handlers op c) w)
  | reset c o => some (final o.1 (IngestWorker.handleEtr290Reset c) w)
  | heartbeat o => some (final o.1 (IngestWorker.heartbeat cfg) w)
  | die s => some (w.die s)

/-- A worker that holds nothing yet, on any database. -/
structure Blank (w : World) : Prop where
  /-- The worker has no session. -/
  sessions : w.sessions = ∅
  /-- It remembers no row. -/
  recordingIds : w.recordingIds = ∅
  /-- Ids of rows have been handed out. -/
  rows_lt : ∀ r row, w.db.recordings.lookup r = some row → r < w.nextId

/-- The step is a disconnect handler that leaves a remembered row id behind: it finds a session
that does not record. -/
def Forgets (w : World) : RunStep → Prop
  | .control .disconnect c _ => w.recordingIds.lookup c ≠ none ∧
      ∃ s, w.sessions.lookup c = some s ∧ (w.heap s).recording = false
  | _ => False

/-- Each channel remembers a row in flight, if any. -/
structure Remembering (w : World) : Prop where
  sound : Sound w
  views : ∀ c, (w.view c).Remembers

section Steps

variable {o : Oracle Call} {n : ℕ} {c : ChannelId} {w w' : World} {cfg : Settings}

/-- The row to finish is in flight. -/
theorem Remembering.finishable (h : Remembering w) (c : ChannelId) : Finishable w c := by
  intro r hr
  have htarget := target_finalizeTarget (c := c) h.sound
  have hrows : w.db.rowsOf c r ≠ none := by
    unfold Target at htarget
    rcases hid : w.recordingIds.lookup c with _ | r'
    · rw [World.view_recordingId, hid] at htarget
      exact htarget.2 r hr
    · rw [World.view_recordingId, hid] at htarget
      have hsame : w.finalizeTarget c = some r' := htarget
      obtain rfl : r' = r := Option.some.inj (hsame.symm.trans hr)
      exact (h.views c r' hid).1
  exact ending_of_inFlight (Database.inFlight_iff_rowsOf.mpr
    (Option.ne_none_iff_exists'.mp hrows))

/-- A step on one channel is one on all of them. -/
theorem Remembering.of_local (h : Remembering w) (hloc : Local c w w')
    (hc : (w'.view c).Remembers) : Remembering w' := by
  refine ⟨hloc.sound h.sound, fun d => ?_⟩
  by_cases hd : d = c
  · exact hd ▸ hc
  · rw [hloc.views h.sound d hd]
    exact h.views d

/-- Neither lists nor trace matter. -/
theorem Remembering.of_view (h : Remembering w) (hsound : Sound w → Sound w')
    (hview : ∀ c, w'.view c = w.view c) : Remembering w' :=
  ⟨hsound h.sound, fun c => by rw [hview]; exact h.views c⟩

/-- A handler that is not killed keeps both. -/
theorem Remembering.acts {m : Handler Unit} {step : Bool → View → Prop} {killed : Stored → Prop}
    {E : PyError → ℕ → World → Prop} {C : World → Prop} (o : Environment) (h : Remembering w)
    (hm : Acts o.1 c w m step killed 0 w) (hstep : ∀ died v', step died v' → v'.Remembers)
    (hends : wp o.1 m (fun _ _ w' => Ends w w') E C 0 w) :
    Remembering (final o.1 m w) ∧ Ends w (final o.1 m w) := by
  refine final_of_wp (P := fun w' => Remembering w' ∧ Ends w w') ?_
  refine wp_mono (wp_and hm hends) ?_ (fun _ _ _ hf => hf.1.elim)
    fun _ hk => absurd hk.1.crash o.2.not_mayCrash
  rintro _ _ w' ⟨⟨hloc, hview⟩, hw'⟩
  exact ⟨h.of_local hloc (hstep _ _ (hview h.sound)), hw'⟩

/-- **One step**, unless it leaves a remembered row id behind. -/
theorem remembering_step {a : RunStep} (h : Remembering w) (hcare : ¬ Forgets w a)
    (hstep : a.run cfg w = some w') : Remembering w' ∧ Ends w w' := by
  cases a with
  | startup =>
    obtain rfl := Option.some.inj hstep
    have hre := restarted cfg w h.sound.rows_lt
    constructor
    · refine ⟨hre.sound, fun c => View.Remembers.of_none ?_⟩
      rw [World.view_recordingId, hre.recordingIds]
      rfl
    · have hboot : Ends w w.reboot := Ends.of_eq rfl rfl
      refine hboot.trans (final_of_wp (P := Ends w.reboot) ?_)
      exact wp_mono (wp_startup_ends healthy_allOk.steady) (fun _ _ _ h => h)
        (fun _ _ _ hf => hf.elim) fun _ hc => absurd hc healthy_allOk.not_mayCrash
  | request r c =>
    obtain rfl := Option.some.inj hstep
    rcases request_cases r c w with ⟨st, -, -, -, hout⟩ | ⟨-, hout⟩
    · rw [hout]
      refine ⟨⟨sound_outcome h.sound, fun d => ?_⟩, ?_⟩
      · rw [view_outcome]
        split
        · exact h.views d
        · exact h.views d
      · rw [outcome_eq]
        exact Ends.of_eq rfl rfl
    · rw [hout]
      exact ⟨h, Ends.refl w⟩
  | pop q =>
    obtain rfl := Option.some.inj hstep
    exact ⟨h.of_view (fun hs => ⟨hs.distinct, hs.sessions_lt, hs.rows_lt, hs.known⟩) fun _ => rfl,
      Ends.of_eq rfl rfl⟩
  | connect c o =>
    obtain rfl := Option.some.inj hstep
    exact h.acts o (handleConnect_acts o.2.steady cfg c 0 w) (fun _ _ hv => (h.views c).connect hv)
      (wp_connect_ends h.sound.rows_lt)
  | control op c o =>
    obtain rfl := Option.some.inj hstep
    cases op with
    | disconnect =>
      refine h.acts o (handleDisconnect_acts o.2.steady c 0 w) (fun _ _ hv => ?_)
        (wp_disconnect_ends o.2.steady fun _ _ => h.finishable c)
      refine (h.views c).disconnect hv fun s x hs hrec => ?_
      obtain ⟨s', hlook, heq⟩ := Option.map_eq_some_iff.mp hs
      obtain ⟨rfl, rfl⟩ := Prod.mk.inj heq
      -- A recording session without a remembered row is just what the condition excludes.
      by_contra hid
      exact hcare ⟨hid, _, hlook, hrec⟩
    | stop =>
      exact h.acts o (handleRecordStop_acts o.2.steady c 0 w) (fun _ _ hv => (h.views c).stop hv)
        (wp_stop_ends o.2.steady fun _ _ => h.finishable c)
    | start =>
      exact h.acts o (handleRecordStart_acts o.2.steady c 0 w) (fun _ _ hv => (h.views c).start hv)
        (wp_start_ends h.sound.rows_lt)
  | reset c o =>
    obtain rfl := Option.some.inj hstep
    refine final_of_wp (P := fun w' => Remembering w' ∧ Ends w w') ?_
    refine wp_mono (wp_handleEtr290Reset (C := fun _ => MayCrash o.1) (E := fun _ _ _ => False) c
      (fun _ => ?_) fun hc => hc) (fun _ _ _ h => h) (fun _ _ _ hf => hf.elim)
      fun _ hc => absurd hc o.2.not_mayCrash
    exact ⟨h.of_view (fun hs => ⟨hs.distinct, hs.sessions_lt, hs.rows_lt, hs.known⟩) fun _ => rfl,
      Ends.of_eq rfl (by simp [World.posts, Event.posted])⟩
  | heartbeat o =>
    obtain rfl := Option.some.inj hstep
    refine final_of_wp (P := fun w' => Remembering w' ∧ Ends w w') ?_
    have hends : wp o.1 (IngestWorker.heartbeat cfg) (fun _ _ w' => Ends w w') (fun _ _ _ => True)
        (fun _ => True) 0 w := wp_heartbeat_ends o.2.steady
    refine wp_mono (wp_and (wp_heartbeat o.2.steady h.sound cfg)
      hends) ?_ (fun _ _ _ hf => hf.1.elim)
      fun _ hk => absurd hk.1.1 o.2.not_mayCrash
    rintro _ _ w' ⟨hbeat, hw'⟩
    exact ⟨⟨hbeat.sound, fun c => (h.views c).heartbeat (hbeat.views c)⟩, hw'⟩
  | die s =>
    obtain rfl := Option.some.inj hstep
    refine ⟨⟨⟨h.sound.distinct, h.sound.sessions_lt, h.sound.rows_lt, h.sound.known⟩,
      fun c r hr => ?_⟩, Ends.of_eq rfl rfl⟩
    obtain ⟨hrows, hs⟩ := h.views c r hr
    refine ⟨hrows, fun hnone => hs ?_⟩
    exact Option.map_eq_none_iff.mpr (Option.map_eq_none_iff.mp hnone)

end Steps

/-- A worker that holds nothing remembers nothing. -/
theorem remembering_of_blank {w : World} (h : Blank w) : Remembering w := by
  refine ⟨⟨?_, ?_, h.rows_lt, ?_⟩, fun c => View.Remembers.of_none ?_⟩
  · intro c d s hs
    rw [h.sessions] at hs
    exact absurd hs (by simp)
  · intro c s hs
    rw [h.sessions] at hs
    exact absurd hs (by simp)
  · intro c r hr
    rw [h.recordingIds] at hr
    exact absurd hr (by simp)
  · rw [World.view_recordingId, h.recordingIds]
    rfl

/-- **In every run in which no disconnect leaves a remembered row id behind, rows end once**,
between any two states of the run, and each row that is completed is published once. -/
theorem recordings_end_once {cfg : Settings} {w u w' : World} {as bs : List RunStep}
    (hw : Blank w) (has : Runs.Along (fun w a => ¬ Forgets w a) (RunStep.run cfg) w as)
    (hrun : Runs.run (RunStep.run cfg) w as = some u)
    (hbs : Runs.Along (fun w a => ¬ Forgets w a) (RunStep.run cfg) u bs)
    (hrun' : Runs.run (RunStep.run cfg) u bs = some w') : Ends u w' := by
  have hu : Remembering u := Runs.run_invariant (I := Remembering)
    (fun _ _ _ h hcare hstep => (remembering_step h hcare hstep).1) as w u
    (remembering_of_blank hw) has hrun
  refine (Runs.run_invariant (I := fun v => Remembering v ∧ Ends u v) ?_ bs u w'
    ⟨hu, Ends.refl u⟩ hbs hrun').2
  rintro v a v' ⟨hv, huv⟩ hcare hstep
  obtain ⟨hv', hends⟩ := remembering_step hv hcare hstep
  exact ⟨hv', huv.trans hends⟩

/-- The world of the witness is blank. -/
theorem blank_offAir : Blank offAir where
  sessions := rfl
  recordingIds := rfl
  rows_lt := pristine_offAir.rows_lt

/-- The recording session dies, a connect job puts a fresh session in its place and a disconnect
leaves the row id behind: the stop that follows fails the row, and the stop of the next session
completes it. -/
theorem failed_recording_completed :
    ¬ ∀ (cfg : Settings) (w u w' : World) (as bs : List RunStep), Blank w →
      Runs.run (RunStep.run cfg) w as = some u → Runs.run (RunStep.run cfg) u bs = some w' →
        Ends u w' := by
  intro h
  have hends := h ⟨"worker", 8⟩ offAir _ _ [.connect (.str "a") .good,
    .control .start (.str "a") .good, .die 0, .connect (.str "a") .good,
    .control .disconnect (.str "a") .good, .control .stop (.str "a") .good]
    [.connect (.str "a") .good, .control .stop (.str "a") .good] blank_offAir rfl rfl
  have hsame := @Moves.eq_of_ended _ _ .failed (some 0) (hends.moves 1) rfl (by decide)
  have hcompleted : RecordingStatus.completed = .failed :=
    congrArg Prod.fst (Option.some.inj hsame)
  exact absurd hcompleted (by decide)

/-- A worker that has connected and started to record. -/
def onRecord : World :=
  final allOk (IngestWorker.handlers .start (.str "a"))
    (final allOk (IngestWorker.handleConnect ⟨"worker", 8⟩ (.str "a")) offAir)

/-- The same worker when it has stopped. -/
def offRecord : World := final allOk (IngestWorker.handlers .stop (.str "a")) onRecord

/-- What the worker makes of one recording: the row is in flight, and after the stop and a
disconnect it is completed. -/
theorem recordings_end_once_offAir : ∃ w' : World,
    Runs.run (RunStep.run ⟨"worker", 8⟩) onRecord
      [.control .stop (.str "a") .good, .control .disconnect (.str "a") .good] = some w' ∧
    onRecord.db.ending 1 = some (.recording, none) ∧
    offRecord.db.ending 1 = some (.completed, some 0) ∧ Ends onRecord w' := by
  have hrun : Runs.run (RunStep.run ⟨"worker", 8⟩) offAir
      [.connect (.str "a") .good, .control .start (.str "a") .good] = some onRecord := rfl
  have hrun' : Runs.run (RunStep.run ⟨"worker", 8⟩) onRecord
      [.control .stop (.str "a") .good, .control .disconnect (.str "a") .good] =
        some (final allOk (IngestWorker.handlers .disconnect (.str "a")) offRecord) := rfl
  -- The stop has made the worker forget the row, so the disconnect leaves nothing behind.
  have hforgotten : offRecord.recordingIds.lookup (.str "a") = none := by decide +kernel
  have hstop : RunStep.run ⟨"worker", 8⟩ onRecord (.control .stop (.str "a") .good) =
    some offRecord := rfl
  refine ⟨_, hrun', by decide +kernel, by decide +kernel,
    recordings_end_once blank_offAir ?_ hrun ?_ hrun'⟩
  · exact ⟨fun h => h, fun _ _ => ⟨fun h => h, fun _ _ => trivial⟩⟩
  · exact Runs.along_cons (fun h => h) hstop ⟨fun h => h.1 hforgotten, fun _ _ => trivial⟩
