/-
# Frames

What a program does to a state, whatever its environment does: `Keeps R S m` says that each
state `m` can end in, by return, exception or kill, is related to the first one by the preorder
`R`, and that what it returns satisfies `S`.  The rules follow the program.  For the worker it is
enough to look at single writes: a preorder that they keep (`SessionFrame`, `WorkerFrame`) is kept
by the methods.  The first is `Database.Within`, which says whose recording rows may be new.
-/
import IngestFarm.Outcomes

namespace Prog

variable {κ ε σ α β γ : Type}

/-- Every end of `m` is related to its start by `R`, and what it returns satisfies `S`. -/
def Keeps (R : σ → σ → Prop) (S : α → Prop) (m : Prog κ ε σ α) : Prop :=
  ∀ (o : Oracle κ) (n : ℕ) (s : σ), wp o m (fun a _ s' => R s s' ∧ S a) (fun _ _ s' => R s s')
    (fun s' => R s s') n s

section Rules

variable {R : σ → σ → Prop} {S : α → Prop} {T : β → Prop} {m : Prog κ ε σ α}

/-- A preorder on states. -/
structure Frame (R : σ → σ → Prop) : Prop where
  refl : ∀ s, R s s
  trans : ∀ s t u, R s t → R t u → R s u

namespace Keeps

/-- A weaker promise about the value. -/
theorem mono {S' : α → Prop} (h : Keeps R S m) (hS : ∀ a, S a → S' a) : Keeps R S' m :=
  fun o n s => wp_mono (h o n s) (fun _ _ _ h => ⟨h.1, hS _ h.2⟩) (fun _ _ _ h => h) fun _ h => h

theorem pure (hR : Frame R) {a : α} (ha : S a) : Keeps R S (pure a : Prog κ ε σ α) :=
  fun _ _ s => ⟨hR.refl s, ha⟩

theorem reads (hR : Frame R) {f : σ → α} (hf : ∀ s, S (f s)) :
    Keeps R S (reads f : Prog κ ε σ α) :=
  fun _ _ s => ⟨hR.refl s, hf s⟩

/-- A state change that stays within the relation. -/
theorem modify {f : σ → σ} (hf : ∀ s, R s (f s)) :
    Keeps R (fun _ => True) (modify f : Prog κ ε σ Unit) :=
  fun _ _ s => ⟨hf s, trivial⟩

theorem raise (hR : Frame R) (e : ε) : Keeps R S (raise e : Prog κ ε σ α) :=
  fun _ _ s => hR.refl s

/-- A call may fail or be the last thing that happens, and changes nothing. -/
theorem call (hR : Frame R) (k : κ) (e : ε) :
    Keeps R (fun _ => True) (call k e : Prog κ ε σ Unit) := by
  intro o n s
  rw [wp_call]
  exact ⟨fun _ => ⟨hR.refl s, trivial⟩, fun _ => hR.refl s, fun _ => hR.refl s⟩

theorem ask (hR : Frame R) (k : κ) : Keeps R (fun _ => True) (ask k : Prog κ ε σ Bool) := by
  intro o n s
  rw [wp_ask]
  exact ⟨fun _ => ⟨hR.refl s, trivial⟩, fun _ => ⟨hR.refl s, trivial⟩, fun _ => hR.refl s⟩

/-- **Sequencing.** -/
theorem bind (hR : Frame R) {f : α → Prog κ ε σ β} (hm : Keeps R S m)
    (hf : ∀ a, S a → Keeps R T (f a)) : Keeps R T (m >>= f) := by
  intro o n s
  rw [wp_bind]
  refine wp_mono (hm o n s) ?_ (fun _ _ _ h => h) fun _ h => h
  rintro a n' s' ⟨hs, ha⟩
  refine wp_mono (hf a ha o n' s') ?_ ?_ ?_
  · exact fun b _ u hu => ⟨hR.trans s s' u hs hu.1, hu.2⟩
  · exact fun _ _ u hu => hR.trans s s' u hs hu
  · exact fun u hu => hR.trans s s' u hs hu

/-- Sequencing, when what is returned does not matter. -/
theorem seq (hR : Frame R) {f : α → Prog κ ε σ β} (hm : Keeps R (fun _ => True) m)
    (hf : ∀ a, Keeps R T (f a)) : Keeps R T (m >>= f) :=
  bind hR hm fun a _ => hf a

/-- A read of the state, whatever it finds. -/
theorem read (hR : Frame R) {g : σ → α} {f : α → Prog κ ε σ β} (hf : ∀ a, Keeps R T (f a)) :
    Keeps R T (Prog.reads g >>= f) :=
  seq hR (reads hR fun _ => trivial) hf

/-- An exception handler keeps what both of its branches keep. -/
theorem attempt (hR : Frame R) {h : ε → Prog κ ε σ α} (hm : Keeps R S m)
    (hh : ∀ e, Keeps R S (h e)) : Keeps R S (attempt m h) := by
  intro o n s
  rw [wp_attempt]
  refine wp_mono (hm o n s) (fun _ _ _ h => h) ?_ fun _ h => h
  intro e n' s' hs
  refine wp_mono (hh e o n' s') ?_ ?_ ?_
  · exact fun b _ u hu => ⟨hR.trans s s' u hs hu.1, hu.2⟩
  · exact fun _ _ u hu => hR.trans s s' u hs hu
  · exact fun u hu => hR.trans s s' u hs hu

/-- A branch keeps what it keeps where it is taken. -/
theorem ite {b : Prop} [Decidable b] {m' : Prog κ ε σ α} (hm : b → Keeps R S m)
    (hm' : ¬ b → Keeps R S m') : Keeps R S (if b then m else m') := by
  split
  · exact hm ‹b›
  · exact hm' ‹¬ b›

theorem whenever (hR : Frame R) {b : Prop} [Decidable b] {m : Prog κ ε σ Unit}
    (hm : b → Keeps R (fun _ => True) m) : Keeps R (fun _ => True) (whenever b m) :=
  ite hm fun _ => pure hR trivial

/-- **The accumulator loop.** -/
theorem fold (hR : Frame R) {U : γ → Prop} {f : γ → β → Prog κ ε σ γ}
    (hf : ∀ acc b, U acc → Keeps R U (f acc b)) (xs : List β) (acc : γ) (hacc : U acc) :
    Keeps R U (fold f xs acc) := by
  induction xs generalizing acc with
  | nil => exact pure hR hacc
  | cons x xs ih =>
    rw [Prog.fold]
    exact bind hR (hf acc x hacc) fun acc' h => ih acc' h

/-- **The plain loop.** -/
theorem each (hR : Frame R) {f : β → Prog κ ε σ Unit}
    (hf : ∀ b, Keeps R (fun _ => True) (f b)) (xs : List β) :
    Keeps R (fun _ => True) (each f xs) := by
  induction xs with
  | nil => exact pure hR trivial
  | cons x xs ih =>
    rw [Prog.each]
    exact seq hR (hf x) fun _ => ih

/-- What a program keeps holds of the state it leaves. -/
theorem final {o : Oracle κ} {s : σ} (h : Keeps R S m) : R s (final o m s) :=
  final_of_wp (wp_mono (h o 0 s) (fun _ _ _ h => h.1) (fun _ _ _ h => h) fun _ h => h)

/-- A program in the middle of a run that has kept `R` since `t`. -/
theorem from_ (hR : Frame R) (h : Keeps R S m) {o : Oracle κ} {n : ℕ} {t s : σ} (hts : R t s) :
    wp o m (fun a _ s' => R t s' ∧ S a) (fun _ _ s' => R t s') (fun s' => R t s') n s :=
  wp_mono (h o n s) (fun _ _ s' h => ⟨hR.trans t s s' hts h.1, h.2⟩)
    (fun _ _ s' h => hR.trans t s s' hts h) fun s' h => hR.trans t s s' hts h

end Keeps

/-- A part of a program that keeps a relation, run from `s`. -/
theorem wp_of_keeps {o : Oracle κ} {n : ℕ} {s : σ} {Q : α → ℕ → σ → Prop}
    {E : ε → ℕ → σ → Prop} {C : σ → Prop} (h : Keeps R S m)
    (hQ : ∀ a n' t, R s t → S a → Q a n' t) (hE : ∀ e n' t, R s t → E e n' t)
    (hC : ∀ t, R s t → C t) : wp o m Q E C n s :=
  wp_mono (h o n s) (fun a n' t ht => hQ a n' t ht.1 ht.2) (fun e n' t ht => hE e n' t ht)
    fun t ht => hC t ht

end Rules

end Prog

open Prog

/-! ## New rows -/

/-- A row that is new in `db'` belongs to a channel of `P`; the others stay with theirs. -/
def Database.Within (P : ChannelId → Prop) (db db' : Database) : Prop :=
  ∀ r row', db'.recordings.lookup r = some row' →
    (∃ row, db.recordings.lookup r = some row ∧ row.channelId = row'.channelId) ∨ P row'.channelId

/-- Between two states only channels of `P` have got new rows. -/
def World.Within (P : ChannelId → Prop) (w w' : World) : Prop := w.db.Within P w'.db

namespace Database.Within

variable {P : ChannelId → Prop} {db db' db'' : Database}

theorem refl (db : Database) : db.Within P db := fun _ row' h => Or.inl ⟨row', h, rfl⟩

theorem trans (h : db.Within P db') (h' : db'.Within P db'') : db.Within P db'' := by
  intro r row'' hrow
  rcases h' r row'' hrow with ⟨row', hrow', hc⟩ | hP
  · rcases h r row' hrow' with ⟨row, hrow, hc'⟩ | hP
    · exact Or.inl ⟨row, hrow, hc'.trans hc⟩
    · exact Or.inr (hc ▸ hP)
  · exact Or.inr hP

theorem endRecording (r : RecordingId) (st : RecordingStatus) (now : ℕ) :
    db.Within P (db.endRecording r st now) := by
  intro r' row' hrow
  rw [lookup_recordings_endRecording] at hrow
  split at hrow
  · obtain ⟨row, hlook, rfl⟩ := Option.map_eq_some_iff.mp hrow
    exact Or.inl ⟨row, by rename_i hr; rw [hr]; exact hlook, rfl⟩
  · exact Or.inl ⟨row', hrow, rfl⟩

theorem setCounts (r : RecordingId) (m n : ℕ) : db.Within P (db.setCounts r m n) := by
  intro r' row' hrow
  rw [lookup_recordings_setCounts] at hrow
  split at hrow
  · obtain ⟨row, hlook, rfl⟩ := Option.map_eq_some_iff.mp hrow
    exact Or.inl ⟨row, by rename_i hr; rw [hr]; exact hlook, rfl⟩
  · exact Or.inl ⟨row', hrow, rfl⟩

/-- A new row is that of a channel that may have one. -/
theorem addRecording {r : RecordingId} {row : Recording} (hP : P row.channelId) :
    db.Within P (db.addRecording r row) := by
  intro r' row' hrow
  rw [lookup_recordings_addRecording] at hrow
  split at hrow
  · exact Or.inr (Option.some.inj hrow ▸ hP)
  · exact Or.inl ⟨row', hrow, rfl⟩

theorem of_eq (h : db'.recordings = db.recordings) : db.Within P db' :=
  fun r row' hrow => Or.inl ⟨row', by rw [← h]; exact hrow, rfl⟩

end Database.Within

section Worker

variable {P : ChannelId → Prop}

/-- Staying within a set of channels is a frame. -/
theorem frame_within : Frame (World.Within P) :=
  ⟨fun w => Database.Within.refl w.db, fun _ _ _ h h' => h.trans h'⟩

namespace Prog.Keeps

/-- A call to the outside. -/
theorem outer {R : World → World → Prop} (hR : Frame R) (k : Call) :
    Keeps R (fun _ => True) (external k) := call hR k _

/-- A query reads the database and changes nothing. -/
theorem ofQuery {R : World → World → Prop} {α : Type} {S : α → Prop} (hR : Frame R)
    {f : Database → α} (hf : ∀ db, S (f db)) : Keeps R S (query f) :=
  bind hR (outer hR _) fun _ _ => reads hR fun w => hf w.db

/-- A query, whatever it finds. -/
theorem queried {R : World → World → Prop} {α β : Type} {T : β → Prop} (hR : Frame R)
    {g : Database → α} {f : α → Handler β} (hf : ∀ a, Keeps R T (f a)) :
    Keeps R T (query g >>= f) :=
  seq hR (ofQuery hR fun _ => trivial) hf

/-- A commit keeps what its write keeps. -/
theorem ofCommit {R : World → World → Prop} (hR : Frame R) {f : Database → Database}
    (hf : ∀ w : World, R w (w.commitDb f)) : Keeps R (fun _ => True) (commit f) :=
  bind hR (outer hR _) fun _ _ => modify hf

/-- A change of the worker's memory, or of the lists. -/
theorem memory {f : World → World} (hf : ∀ w, (f w).db = w.db) :
    Keeps (World.Within P) (fun _ => True) (Prog.modify f : Handler Unit) :=
  modify fun w => Database.Within.of_eq (congrArg Database.recordings (hf w))

/-- A commit of a write that stays within the channels. -/
theorem within_commit {f : Database → Database} (hf : ∀ db : Database, db.Within P (f db)) :
    Keeps (World.Within P) (fun _ => True) (commit f) :=
  ofCommit frame_within fun w => hf w.db

end Prog.Keeps

open Prog.Keeps

/-- The changes a handler has staged insert no row. -/
def Staged (f : Database → Database) : Prop := ∀ (P : ChannelId → Prop) (db : Database),
  db.Within P (f db)

/-- Nothing is staged at the start of a loop. -/
theorem staged_id : Staged id := fun _ db => Database.Within.refl db

/-- A status is no row. -/
theorem staged_setStatus (c : ChannelId) (st : ChannelStatus) : Staged (Database.setStatus c st) :=
  fun _ _ => Database.Within.of_eq rfl

theorem staged_ite {b : Prop} [Decidable b] {f g : Database → Database} (hf : Staged f)
    (hg : Staged g) : Staged (if b then f else g) := by
  split
  · exact hf
  · exact hg

/-! ### Single writes -/

/-- A preorder that the writes of the methods of session `s` keep. -/
structure SessionFrame (R : World → World → Prop) (s : SessionId) : Prop extends Frame R where
  /-- The session dies. -/
  die : ∀ w : World, R w (w.die s)
  /-- `start_recording` sets the directory. -/
  prepare : ∀ (dir : SessionDir) (w : World), R w (w.updSession s (ChannelSession.prepare dir))
  /-- It sets the flag, and `stop_recording` takes it back. -/
  setRecording : ∀ (b : Bool) (w : World), R w (w.updSession s (ChannelSession.setRecording b))
  /-- `stop_recording` counts. -/
  setCount : ∀ (n : ℕ) (w : World), R w (w.updSession s (ChannelSession.setCount n))
  /-- A teardown begins. -/
  markStopping : ∀ w : World, R w (w.updSession s ChannelSession.markStopping)
  /-- It ends. -/
  close : ∀ w : World, R w (w.updSession s ChannelSession.close)

/-- A preorder that the writes of statistics keep. -/
structure StatsFrame (R : World → World → Prop) : Prop extends Frame R where
  addStats : ∀ (c : ChannelId) (w : World), R w (w.addStats c)
  dropStats : ∀ (c : ChannelId) (w : World), R w (w.dropStats c)

/-- A preorder that these and the writes to rows, lists and tables keep, but for those of a
connect and of a record start. -/
structure WorkerFrame (R : World → World → Prop) : Prop extends StatsFrame R where
  /-- The writes of a session to itself. -/
  session : ∀ s : SessionId, SessionFrame R s
  /-- An entry of the trace. -/
  note : ∀ (e : Event) (w : World), R w (w.note e)
  /-- A push to Redis. -/
  push : ∀ (q : Queue) (job : Raw) (w : World), R w (w.push q job)
  /-- A start is remembered. -/
  addPending : ∀ (c : ChannelId) (w : World), R w (w.addPending c)
  /-- It is forgotten. -/
  dropPending : ∀ (c : ChannelId) (w : World), R w (w.dropPending c)
  /-- A remembered row is forgotten. -/
  dropRecordingId : ∀ (c : ChannelId) (w : World), R w (w.dropRecordingId c)
  /-- The status of a channel. -/
  setStatus : ∀ (c : ChannelId) (st : ChannelStatus) (w : World),
    R w (w.commitDb (Database.setStatus c st))
  /-- The end of a row. -/
  endRecording : ∀ (r : RecordingId) (st : RecordingStatus) (now : ℕ) (w : World),
    R w (w.commitDb (Database.endRecording r st now))
  /-- The counts of a row. -/
  setCounts : ∀ (r : RecordingId) (m n : ℕ) (w : World), R w (w.commitDb (Database.setCounts r m n))

/-- A change that may be committed. -/
def Stages (R : World → World → Prop) (f : Database → Database) : Prop :=
  ∀ w : World, R w (w.commitDb f)

section Frames

variable {R : World → World → Prop}

/-- An empty stage. -/
theorem stages_id (h : Frame R) : Stages R id := fun w => h.refl w

/-- Two writes that are staged one after the other. -/
theorem Stages.comp {f g : Database → Database} (h : Frame R) (hg : Stages R g)
    (hf : Stages R f) : Stages R (g ∘ f) :=
  fun w => h.trans w (w.commitDb f) _ (hf w) (hg (w.commitDb f))

theorem stages_ite {b : Prop} [Decidable b] {f g : Database → Database} (hf : Stages R f)
    (hg : Stages R g) : Stages R (if b then f else g) := by
  split
  · exact hf
  · exact hg

/-- A commit of what was staged. -/
theorem Stages.commit {f : Database → Database} (h : Frame R) (hf : Stages R f) :
    Keeps R (fun _ => True) (commit f) := ofCommit h hf

/-! ### Sessions -/

namespace SessionFrame

variable {s : SessionId} (h : SessionFrame R s)

include h

/-- Looking at a session may find it dead, and that is all. -/
theorem checkConnected :
    Keeps R (fun _ => True) (ChannelSession.checkConnected s) := by
  unfold ChannelSession.checkConnected
  refine seq h.toFrame (ask h.toFrame _) fun alive => ?_
  refine seq h.toFrame (whenever h.toFrame fun _ => modify h.die) fun _ => ?_
  exact reads h.toFrame fun _ => trivial

/-- A capture is opened, and the session records. -/
theorem startRecording (dir : SessionDir) :
    Keeps R (fun _ => True) (ChannelSession.startRecording s dir) := by
  unfold ChannelSession.startRecording
  refine seq h.toFrame h.checkConnected fun up => ?_
  refine ite (fun _ => raise h.toFrame _) fun _ => ?_
  refine read h.toFrame fun recording => ?_
  refine ite (fun _ => raise h.toFrame _) fun _ => ?_
  refine seq h.toFrame (outer h.toFrame _) fun _ => ?_
  refine seq h.toFrame (modify (h.prepare dir)) fun _ => ?_
  refine seq h.toFrame (outer h.toFrame _) fun _ => ?_
  exact modify (h.setRecording true)

/-- A capture is closed, and its counts stay with the session. -/
theorem stopRecording :
    Keeps R (fun _ => True) (ChannelSession.stopRecording s) := by
  unfold ChannelSession.stopRecording
  refine read h.toFrame fun recording => ?_
  refine whenever h.toFrame fun _ => ?_
  refine seq h.toFrame (modify (h.setRecording false)) fun _ => ?_
  unfold ChannelSession.countSegments
  refine read h.toFrame fun dir => ?_
  cases dir with
  | none => exact pure h.toFrame trivial
  | some dir =>
    refine seq h.toFrame (outer h.toFrame _) fun _ => ?_
    refine seq h.toFrame (modify fun w => h.setCount _ w) fun _ => ?_
    exact outer h.toFrame _

/-- Closing a session stops its capture on the way. -/
theorem disconnect :
    Keeps R (fun _ => True) (ChannelSession.disconnect s) := by
  unfold ChannelSession.disconnect ChannelSession.teardown
  refine read h.toFrame fun recording => ?_
  refine seq h.toFrame (whenever h.toFrame fun _ => h.stopRecording) fun _ => ?_
  refine read h.toFrame fun stopping => ?_
  refine whenever h.toFrame fun _ => ?_
  refine seq h.toFrame (modify h.markStopping) fun _ => ?_
  refine seq h.toFrame (outer h.toFrame _) fun _ => ?_
  exact modify h.close

/-- Sizes are read from the disk. -/
theorem measure (dir : Option SessionDir) :
    Keeps R (fun _ => True) (IngestWorker.measure s dir) := by
  unfold IngestWorker.measure
  cases dir with
  | none => exact pure h.toFrame trivial
  | some dir =>
    exact seq h.toFrame (outer h.toFrame _) fun _ => reads h.toFrame fun _ => trivial

end SessionFrame

namespace StatsFrame

variable (h : StatsFrame R)

include h

theorem clearStats (c : ChannelId) : Keeps R (fun _ => True) (IngestWorker.clearStats c) := by
  refine attempt h.toFrame ?_ fun _ => pure h.toFrame trivial
  exact seq h.toFrame (outer h.toFrame _) fun _ => modify (h.dropStats c)

theorem publishStats (c : ChannelId) : Keeps R (fun _ => True) (IngestWorker.publishStats c) := by
  refine attempt h.toFrame ?_ fun _ => pure h.toFrame trivial
  exact seq h.toFrame (outer h.toFrame _) fun _ => modify (h.addStats c)

end StatsFrame

/-! ### Handlers -/

namespace WorkerFrame

variable (h : WorkerFrame R)

include h

/-- Publishing touches the lists of Redis and no row. -/
theorem announce (q : Queue) (c : ChannelId) (r : RecordingId) :
    Keeps R (fun _ => True) (IngestWorker.announce q c r) := by
  unfold IngestWorker.announce publishEvent
  refine seq (m := _) h.toFrame ?_ fun _ => modify (h.note _)
  exact seq h.toFrame (outer h.toFrame _) fun _ => modify (h.push q _)

/-- The row that is finished is one of the channel. -/
theorem completeRecording (c : ChannelId) (segments bytes : ℕ) (files : List MediaFile)
    (row : Option RecordingId) :
    Keeps R (fun _ => True) (IngestWorker.completeRecording c segments bytes files row) := by
  unfold IngestWorker.completeRecording
  cases row with
  | none => exact pure h.toFrame trivial
  | some r =>
    refine read h.toFrame fun now => ?_
    have hrow : Stages R (Database.setCounts r segments bytes ∘
        Database.endRecording r .completed now) :=
      Stages.comp h.toFrame (h.setCounts r segments bytes) (h.endRecording r _ now)
    refine seq h.toFrame (hrow.commit h.toFrame) fun _ => ?_
    refine seq h.toFrame (modify (h.note _)) fun _ => ?_
    refine seq h.toFrame (outer h.toFrame _) fun _ => ?_
    refine seq h.toFrame (h.announce _ c r) fun _ => ?_
    exact h.announce _ c r

/-- The row that is looked up, where the worker has forgotten it. -/
theorem findRecording (c : ChannelId) (known : Option RecordingId) :
    Keeps R (fun _ => True) (IngestWorker.findRecording c known) := by
  unfold IngestWorker.findRecording
  cases known with
  | none => exact ofQuery h.toFrame fun _ => trivial
  | some r =>
    refine queried h.toFrame fun found => ?_
    exact ite (fun _ => pure h.toFrame trivial) fun _ => ofQuery h.toFrame fun _ => trivial

/-- The end of a recording, from its counts to the job that is published. -/
theorem finalizeRecording (c : ChannelId) (s : SessionId) :
    Keeps R (fun _ => True) (IngestWorker.finalizeRecording c s) := by
  unfold IngestWorker.finalizeRecording IngestWorker.finishRecording
  refine read h.toFrame fun recording => ?_
  refine read h.toFrame fun known => ?_
  refine ite (fun _ => pure h.toFrame trivial) fun _ => ?_
  refine seq h.toFrame (whenever h.toFrame fun _ => (h.session s).stopRecording) fun _ => ?_
  refine read h.toFrame fun session => ?_
  refine seq h.toFrame ((h.session s).measure _) fun bytes => ?_
  refine read h.toFrame fun files => ?_
  refine read h.toFrame fun id => ?_
  refine seq h.toFrame (modify (h.dropRecordingId c)) fun _ => ?_
  refine seq h.toFrame (h.findRecording c id) fun row => ?_
  exact h.completeRecording c _ bytes files row

/-- What is staged for the row that fails. -/
theorem failActiveRecording (c : ChannelId) :
    Keeps R (Stages R) (IngestWorker.failActiveRecording c) := by
  unfold IngestWorker.failActiveRecording
  refine queried h.toFrame fun row => ?_
  refine read h.toFrame fun now => ?_
  cases row with
  | none => exact pure h.toFrame (stages_id h.toFrame)
  | some r => exact pure h.toFrame (h.endRecording r _ now)

/-- **`_handle_record_stop`** stays within the relation, with a session or without one. -/
theorem handleRecordStop (c : ChannelId) :
    Keeps R (fun _ => True) (IngestWorker.handleRecordStop c) := by
  unfold IngestWorker.handleRecordStop
  refine seq h.toFrame (modify (h.dropPending c)) fun _ => ?_
  refine read h.toFrame fun session => ?_
  cases session with
  | none =>
    unfold IngestWorker.stopWithoutSession
    refine queried h.toFrame fun ch => ?_
    refine bind h.toFrame (h.failActiveRecording c) fun fail hfail => ?_
    exact (hfail.comp h.toFrame (stages_ite (h.setStatus c _) (stages_id h.toFrame))).commit
      h.toFrame
  | some s =>
    unfold IngestWorker.stopSession
    refine seq h.toFrame (h.finalizeRecording c s) fun _ => ?_
    refine queried h.toFrame fun ch => ?_
    refine whenever h.toFrame fun _ => ?_
    refine seq h.toFrame (h.session s).checkConnected fun up => ?_
    exact Stages.commit h.toFrame (h.setStatus c _)

/-- The `except` branch of a record start. -/
theorem recordStartFailed (c : ChannelId) (s : SessionId) :
    Keeps R (fun _ => True) (IngestWorker.recordStartFailed c s) := by
  have hknown : ∀ known, Keeps R (Stages R) (IngestWorker.failKnown known) := by
    intro known
    unfold IngestWorker.failKnown
    cases known with
    | none => exact pure h.toFrame (stages_id h.toFrame)
    | some r =>
      refine queried h.toFrame fun found => ?_
      refine read h.toFrame fun now => ?_
      exact pure h.toFrame (stages_ite (h.endRecording r _ now) (stages_id h.toFrame))
  have hsettle : Keeps R (Stages R) (IngestWorker.settleStatus c s .error) := by
    unfold IngestWorker.settleStatus
    refine queried h.toFrame fun ch => ?_
    refine ite (fun _ => pure h.toFrame (stages_id h.toFrame)) fun _ => ?_
    refine seq h.toFrame (h.session s).checkConnected fun up => ?_
    exact pure h.toFrame (h.setStatus c _)
  unfold IngestWorker.recordStartFailed
  refine read h.toFrame fun id => ?_
  refine seq h.toFrame (modify (h.dropRecordingId c)) fun _ => ?_
  refine bind h.toFrame (hknown id) fun fail hfail => ?_
  refine bind h.toFrame hsettle fun settle hsettle => ?_
  exact (hsettle.comp h.toFrame hfail).commit h.toFrame

/-- **`_handle_record_start`**, for a preorder that its new row keeps. -/
theorem handleRecordStart {c : ChannelId}
    (hadd : ∀ (s : SessionId) (r : RecordingId) (now : ℕ),
      Stages R (Database.addRecording r (IngestWorker.newRecording c s now)))
    (htake : ∀ w : World, R w w.takeId) (hset : ∀ (r : RecordingId) (w : World),
      R w (w.setRecordingId c r)) :
    Keeps R (fun _ => True) (IngestWorker.handleRecordStart c) := by
  unfold IngestWorker.handleRecordStart
  refine read h.toFrame fun session => ?_
  cases session with
  | none => exact modify (h.addPending c)
  | some s =>
    refine seq h.toFrame (h.session s).checkConnected fun up => ?_
    refine ite (fun _ => modify (h.addPending c)) fun _ => ?_
    refine read h.toFrame fun recording => ?_
    refine seq h.toFrame (modify (h.dropPending c)) fun _ => ?_
    refine ite (fun _ => pure h.toFrame trivial) fun _ => ?_
    unfold IngestWorker.openRecording
    refine seq h.toFrame (outer h.toFrame _) fun _ => ?_
    refine read h.toFrame fun now => ?_
    refine read h.toFrame fun r => ?_
    refine queried h.toFrame fun ch => ?_
    have hmark : Stages R (if ch = none then id else Database.setStatus c .recording) :=
      stages_ite (stages_id h.toFrame) (h.setStatus c _)
    refine seq h.toFrame ((hmark.comp h.toFrame (hadd s r now)).commit h.toFrame) fun _ => ?_
    refine seq h.toFrame (modify htake) fun _ => ?_
    refine seq h.toFrame (outer h.toFrame _) fun _ => ?_
    refine seq h.toFrame (modify (hset r)) fun _ => ?_
    exact attempt h.toFrame ((h.session s).startRecording _) fun _ => h.recordStartFailed c s

end WorkerFrame

end Frames

/-! ### New rows -/

/-- The frame of a handler of one channel. -/
theorem workerFrame_within : WorkerFrame (World.Within P) where
  refl := frame_within.refl
  trans := frame_within.trans
  session _ := {
    refl := frame_within.refl
    trans := frame_within.trans
    die := fun _ => Database.Within.of_eq rfl
    prepare := fun _ _ => Database.Within.of_eq rfl
    setRecording := fun _ _ => Database.Within.of_eq rfl
    setCount := fun _ _ => Database.Within.of_eq rfl
    markStopping := fun _ => Database.Within.of_eq rfl
    close := fun _ => Database.Within.of_eq rfl }
  addStats _ _ := Database.Within.of_eq rfl
  dropStats _ _ := Database.Within.of_eq rfl
  note _ _ := Database.Within.of_eq rfl
  push _ _ _ := Database.Within.of_eq rfl
  addPending _ _ := Database.Within.of_eq rfl
  dropPending _ _ := Database.Within.of_eq rfl
  dropRecordingId _ _ := Database.Within.of_eq rfl
  setStatus _ _ _ := Database.Within.of_eq rfl
  endRecording r st now _ := Database.Within.endRecording r st now
  setCounts r m n _ := Database.Within.setCounts r m n

namespace IngestWorker

/-- **A record stop inserts no row.** -/
theorem keeps_handleRecordStop (c : ChannelId) :
    Keeps (World.Within P) (fun _ => True) (handleRecordStop c) :=
  workerFrame_within.handleRecordStop c

/-- **Nor does a disconnect.** -/
theorem keeps_handleDisconnect (c : ChannelId) :
    Keeps (World.Within P) (fun _ => True) (handleDisconnect c) := by
  unfold handleDisconnect
  refine seq frame_within (memory fun _ => rfl) fun _ => ?_
  refine read frame_within fun session => ?_
  refine seq frame_within (memory fun _ => rfl) fun _ => ?_
  have hclose : Keeps (World.Within P) (fun _ => True) (closeSession c session) := by
    unfold closeSession
    cases session with
    | none => exact pure frame_within trivial
    | some s =>
      refine read frame_within fun recording => ?_
      refine seq frame_within (whenever frame_within fun _ =>
        workerFrame_within.finalizeRecording c s) fun _ => ?_
      exact (workerFrame_within.session s).disconnect
  refine seq frame_within hclose fun _ => ?_
  refine seq frame_within (workerFrame_within.clearStats c) fun _ => ?_
  refine queried frame_within fun ch => ?_
  exact whenever frame_within fun _ => within_commit (staged_setStatus c _ P)

/-- **Nor does a heartbeat.** -/
theorem keeps_heartbeat (cfg : Settings) :
    Keeps (World.Within P) (fun _ => True) (heartbeat cfg) := by
  have hsession : ∀ (staged : Database → Database) (e : Sigma fun _ : ChannelId => SessionId),
      Stages (World.Within P) staged →
        Keeps (World.Within P) (Stages (World.Within P)) (heartbeatSession staged e) := by
    intro staged e hstaged
    unfold heartbeatSession
    refine seq frame_within (workerFrame_within.session e.2).checkConnected fun up => ?_
    refine ite (fun _ => ?_) fun _ => ?_
    · exact seq frame_within (workerFrame_within.publishStats e.1) fun _ =>
        pure frame_within hstaged
    · refine seq frame_within (memory fun _ => rfl) fun _ => ?_
      refine seq frame_within (memory fun _ => rfl) fun _ => ?_
      refine seq frame_within (memory fun _ => rfl) fun _ => ?_
      refine seq frame_within (workerFrame_within.clearStats e.1) fun _ => ?_
      refine bind frame_within (workerFrame_within.failActiveRecording e.1) fun fail hfail => ?_
      refine queried frame_within fun ch => ?_
      have hmark : Stages (World.Within P) (if ch.any (· ∈ activeStatuses) = true
          then Database.setStatus e.1 .error else id) :=
        stages_ite (workerFrame_within.setStatus e.1 _) (stages_id frame_within)
      exact pure frame_within (hmark.comp frame_within (hfail.comp frame_within hstaged))
  unfold heartbeat
  refine queried frame_within fun worker => ?_
  refine read frame_within fun keys => ?_
  refine read frame_within fun now => ?_
  refine read frame_within fun items => ?_
  refine bind frame_within (fold frame_within hsession items _ ?_) fun staged hstaged => ?_
  · cases worker with
    | none => exact stages_id frame_within
    | some row => exact fun _ => Database.Within.of_eq rfl
  · exact seq frame_within (hstaged.commit frame_within) fun _ => memory fun _ => rfl

/-- **A record start** inserts rows of its channel only. -/
theorem keeps_handleRecordStart {c : ChannelId} (hc : P c) :
    Keeps (World.Within P) (fun _ => True) (handleRecordStart c) :=
  workerFrame_within.handleRecordStart (fun _ _ _ _ => Database.Within.addRecording hc)
    (fun _ => Database.Within.of_eq rfl) fun _ _ => Database.Within.of_eq rfl

end IngestWorker

end Worker
