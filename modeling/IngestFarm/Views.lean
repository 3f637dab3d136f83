/-
# The worker, one channel at a time

A handler works on one channel.  `World.view` is all that scheduler and worker keep about a
channel: its status, its rows in flight with the sessions they were started by, the session
object that the worker holds for it, the remembered recording id and the pending mark.
`Local c` says that a step leaves everything but channel `c` alone; it composes, and every
write of the worker is an instance.  `Sound` is the bookkeeping that makes views independent
of each other: no two channels share a session object or a recording row, and ids are fresh.
-/
import IngestFarm.Outcomes

open Prog

/-- What the database knows about a channel. -/
@[ext] structure Stored where
  status : Option ChannelStatus
  rows : RecordingId → Option SessionId

/-- What database and worker together know about a channel. -/
@[ext] structure View extends Stored where
  session : Option (SessionId × ChannelSession)
  recordingId : Option RecordingId
  pending : Bool

/-- The rows of a channel that are in flight, with the session each was started by. -/
def Database.rowsOf (db : Database) (c : ChannelId) (r : RecordingId) : Option SessionId :=
  (db.recordings.lookup r).bind fun row =>
    if row.channelId = c ∧ row.status = .recording then some row.startedBy else none

namespace World

@[simps -fullyApplied] def stored (w : World) (c : ChannelId) : Stored :=
  ⟨w.db.status c, w.db.rowsOf c⟩

@[simps! -fullyApplied] def view (w : World) (c : ChannelId) : View where
  toStored := w.stored c
  session := (w.sessions.lookup c).map fun s => (s, w.heap s)
  recordingId := w.recordingIds.lookup c
  pending := decide (c ∈ w.pendingRecord)

end World

/-! ## Rows -/

namespace Database

variable {db : Database} {c d : ChannelId} {r r' : RecordingId}

/-- A row in flight has a session that has started it. -/
theorem inFlight_iff_rowsOf : db.InFlight c r ↔ ∃ s, db.rowsOf c r = some s := by
  unfold InFlight rowsOf
  simp only [Option.bind_eq_some_iff]
  constructor
  · rintro ⟨row, hrow, hc⟩
    exact ⟨_, row, hrow, if_pos hc⟩
  · rintro ⟨s, row, hrow, hs⟩
    split at hs
    · rename_i hc
      exact ⟨row, hrow, hc⟩
    · exact absurd hs (by simp)

@[simp] theorem rowsOf_setStatus (st : ChannelStatus) :
    (db.setStatus c st).rowsOf d = db.rowsOf d := rfl

@[simp] theorem rowsOf_setWorker (host : String) (row : WorkerRow) :
    (db.setWorker host row).rowsOf d = db.rowsOf d := rfl

/-- A row that has ended is not in flight. -/
@[simp] theorem rowsOf_endRecording {st : RecordingStatus} (h : st ≠ .recording) (now : ℕ) :
    (db.endRecording r st now).rowsOf d = Function.update (db.rowsOf d) r none := by
  funext r'
  unfold rowsOf
  rw [lookup_recordings_endRecording]
  by_cases hr : r' = r
  · subst hr
    cases db.recordings.lookup r' <;> simp [h]
  · simp [hr]

@[simp] theorem rowsOf_setCounts (m n : ℕ) : (db.setCounts r m n).rowsOf d = db.rowsOf d := by
  funext r'
  unfold rowsOf
  rw [lookup_recordings_setCounts]
  by_cases hr : r' = r
  · subst hr
    cases db.recordings.lookup r' <;> simp
  · simp [hr]

@[simp] theorem rowsOf_addRecording (row : Recording) :
    (db.addRecording r row).rowsOf d = Function.update (db.rowsOf d) r
      (if row.channelId = d ∧ row.status = .recording then some row.startedBy else none) := by
  funext r'
  unfold rowsOf
  rw [lookup_recordings_addRecording]
  by_cases hr : r' = r
  · subst hr
    simp
  · simp [hr]

/-- A row of no channel's is not in flight. -/
theorem rowsOf_of_lookup (h : db.recordings.lookup r = none) : db.rowsOf d r = none := by
  simp [rowsOf, h]

end Database

/-- The newest row in flight, if there is one. -/
def Picks (rows : RecordingId → Option SessionId) (t : Option RecordingId) : Prop :=
  (t = none → ∀ r, rows r = none) ∧ ∀ r, t = some r → rows r ≠ none

/-- The newest row is one of those in flight. -/
theorem picks_activeRecording (db : Database) (c : ChannelId) :
    Picks (db.rowsOf c) (db.activeRecording c) := by
  refine ⟨fun h r => ?_, fun r h hr => ?_⟩
  · by_contra hne
    obtain ⟨s, hs⟩ := Option.ne_none_iff_exists'.mp hne
    exact Database.activeRecording_eq_none.mp h r (Database.inFlight_iff_rowsOf.mpr ⟨s, hs⟩)
  · obtain ⟨s, hs⟩ := Database.inFlight_iff_rowsOf.mp (Database.inFlight_of_activeRecording h)
    exact absurd (hs.symm.trans hr) (by simp)

/-- Rows without one of them. -/
def dropRow (t : Option RecordingId) (rows : RecordingId → Option SessionId) :
    RecordingId → Option SessionId :=
  match t with
  | none => rows
  | some r => Function.update rows r none

/-- The other rows stay. -/
theorem dropRow_eq_some {t : Option RecordingId} {rows : RecordingId → Option SessionId}
    {r : RecordingId} {s : SessionId} :
    dropRow t rows r = some s ↔ t ≠ some r ∧ rows r = some s := by
  cases t with
  | none => simp [dropRow]
  | some t =>
    by_cases hr : r = t
    · subst hr
      simp [dropRow]
    · simp [dropRow, hr, Ne.symm hr]

/-- Nothing is lost where there is nothing. -/
theorem dropRow_of_none {t : Option RecordingId} {rows : RecordingId → Option SessionId}
    (h : ∀ r, t = some r → rows r = none) : dropRow t rows = rows := by
  cases t with
  | none => rfl
  | some r =>
    have hr : Function.update rows r (rows r) = rows := Function.update_eq_self r rows
    rwa [h r rfl] at hr

/-! ## Independence of the channels -/

/-- No two channels share a session object or a remembered row, and ids are fresh. -/
structure Sound (w : World) : Prop where
  /-- No session belongs to two channels. -/
  distinct : ∀ c d s, w.sessions.lookup c = some s → w.sessions.lookup d = some s → c = d
  /-- Ids of sessions have been handed out. -/
  sessions_lt : ∀ c s, w.sessions.lookup c = some s → s < w.nextId
  /-- So have those of rows. -/
  rows_lt : ∀ r row, w.db.recordings.lookup r = some row → r < w.nextId
  /-- A remembered row exists, and is one of its channel. -/
  known : ∀ c r, w.recordingIds.lookup c = some r →
    ∃ row, w.db.recordings.lookup r = some row ∧ row.channelId = c

/-- A fresh id is in no row. -/
theorem Sound.rowsOf_nextId {w : World} (h : Sound w) (c : ChannelId) :
    w.db.rowsOf c w.nextId = none := by
  cases hl : w.db.recordings.lookup w.nextId with
  | none => exact Database.rowsOf_of_lookup hl
  | some row => exact absurd (h.rows_lt _ _ hl) (lt_irrefl _)

/-- A step that leaves everything but channel `c` alone. -/
structure Local (c : ChannelId) (w w' : World) : Prop where
  /-- Statuses of other channels stay. -/
  status : ∀ d, d ≠ c → w'.db.status d = w.db.status d
  /-- Worker rows stay. -/
  workers : w'.db.workers = w.db.workers
  /-- The control lists stay. -/
  jobs : ∀ q, q.isControl = true → w'.lists q = w.lists q
  /-- No job is noted. -/
  log : w'.log = w.log
  /-- Ids are only handed out. -/
  nextId : w.nextId ≤ w'.nextId
  /-- A death stays known until the next heartbeat. -/
  died : w'.died = false → w.died = false
  sound : Sound w → Sound w'
  /-- Nothing of another channel has changed. -/
  views : Sound w → ∀ d, d ≠ c → w'.view d = w.view d

namespace Local

variable {c : ChannelId} {s : SessionId} {w w' w'' : World}

theorem rfl' : Local c w w :=
  ⟨fun _ _ => rfl, rfl, fun _ _ => rfl, rfl, le_rfl, id, id, fun _ _ _ => rfl⟩

/-- **Composition.** -/
theorem trans (h : Local c w w') (h' : Local c w' w'') : Local c w w'' where
  status d hd := (h'.status d hd).trans (h.status d hd)
  workers := h'.workers.trans h.workers
  jobs q hq := (h'.jobs q hq).trans (h.jobs q hq)
  log := h'.log.trans h.log
  nextId := h.nextId.trans h'.nextId
  died hd := h.died (h'.died hd)
  sound hs := h'.sound (h.sound hs)
  views hs d hd := (h'.views (h.sound hs) d hd).trans (h.views hs d hd)

/-- A change of the worker's memory only. -/
theorem ofMemory (h : SameStore w' w) (hlog : w'.log = w.log)
    (hdied : w'.died = false → w.died = false) (hsound : Sound w → Sound w')
    (hviews : Sound w → ∀ d, d ≠ c → w'.view d = w.view d) : Local c w w' where
  status d _ := by rw [h.db]
  workers := by rw [h.db]
  jobs := h.jobs
  log := hlog
  nextId := h.nextId.ge
  died := hdied
  sound := hsound
  views := hviews

/-- A status of the channel. -/
theorem setStatus (st : ChannelStatus) : Local c w (w.commitDb (Database.setStatus c st)) where
  status d hd := by simp [hd]
  workers := rfl
  jobs _ _ := rfl
  log := rfl
  nextId := le_rfl
  died := id
  sound hs := ⟨hs.distinct, hs.sessions_lt, hs.rows_lt, hs.known⟩
  views _ d hd := by
    ext <;> simp [hd]

/-- A row of the channel changes, and stays the channel's. -/
theorem modifyRecording {r : RecordingId} {f : Recording → Recording}
    (hf : ∀ row, (f row).channelId = row.channelId)
    (hr : Sound w → ∀ row, w.db.recordings.lookup r = some row → row.channelId = c) :
    Local c w (w.commitDb fun db => { db with recordings := Dict.modify r f db.recordings }) where
  status d hd := rfl
  workers := rfl
  jobs _ _ := rfl
  log := rfl
  nextId := le_rfl
  died := id
  sound hs := by
    refine ⟨hs.distinct, hs.sessions_lt, fun r' row hrow => ?_, fun d r' hd => ?_⟩
    · simp only [World.commitDb_db, Dict.lookup_modify] at hrow
      split at hrow
      · rename_i hr'
        obtain ⟨row', hrow', -⟩ := Option.map_eq_some_iff.mp hrow
        exact hr' ▸ hs.rows_lt r row' hrow'
      · exact hs.rows_lt r' row hrow
    · obtain ⟨row, hrow, hc⟩ := hs.known d r' hd
      simp only [World.commitDb_db, Dict.lookup_modify]
      split
      · rename_i hr'
        subst hr'
        exact ⟨f row, by rw [hrow]; rfl, (hf row).trans hc⟩
      · exact ⟨row, hrow, hc⟩
  views hs d hd := by
    refine View.ext rfl ?_ rfl rfl rfl
    funext r'
    simp only [World.view_rows, World.commitDb_db, Database.rowsOf, Dict.lookup_modify]
    split
    · rename_i hr'
      subst hr'
      cases hl : w.db.recordings.lookup r' with
      | none => rfl
      | some row =>
        have hne : row.channelId ≠ d := fun h => hd (h.symm.trans (hr hs row hl))
        simp [hf, hne]
    · rfl

/-- A fresh row of the channel. -/
theorem addRecording {row : Recording} (hrow : row.channelId = c) :
    Local c w ((w.commitDb (Database.addRecording w.nextId row)).takeId) where
  status d hd := rfl
  workers := rfl
  jobs _ _ := rfl
  log := rfl
  nextId := Nat.le_succ _
  died := id
  sound hs := by
    refine ⟨hs.distinct, fun d s hd => Nat.lt_succ_of_lt (hs.sessions_lt d s hd),
      fun r row' hr => ?_, fun d r hd => ?_⟩
    · simp only [World.takeId_db, World.commitDb_db, Database.lookup_recordings_addRecording] at hr
      split at hr
      · rename_i hr'
        exact hr'.trans_lt (Nat.lt_succ_self _)
      · exact Nat.lt_succ_of_lt (hs.rows_lt r row' hr)
    · obtain ⟨row', hrow', hc⟩ := hs.known d r hd
      have hne : r ≠ w.nextId := (hs.rows_lt r row' hrow').ne
      exact ⟨row', by simpa [hne] using hrow', hc⟩
  views hs d hd := by
    refine View.ext rfl ?_ rfl rfl rfl
    have hne : ¬ (row.channelId = d ∧ row.status = .recording) :=
      fun h => hd (h.1.symm.trans hrow)
    rw [World.view_rows, World.takeId_db, World.commitDb_db, Database.rowsOf_addRecording,
      if_neg hne]
    exact dropRow_of_none (t := some w.nextId) fun r hr =>
      Option.some.inj hr ▸ hs.rowsOf_nextId d

/-- A change of the session object that only this channel can hold. -/
theorem updSession (f : ChannelSession → ChannelSession)
    (h : Sound w → ∀ d, w.sessions.lookup d = some s → d = c) : Local c w (w.updSession s f) := by
  refine ofMemory (SameStore.session s f w) rfl id (fun hs => ?_) fun hs d hd => ?_
  · exact ⟨hs.distinct, hs.sessions_lt, hs.rows_lt, hs.known⟩
  · refine View.ext rfl rfl ?_ rfl rfl
    cases hl : w.sessions.lookup d with
    | none => simp [hl]
    | some s' =>
      have hne : s' ≠ s := fun he => hd (h hs d (he ▸ hl))
      simp [hl, hne]

/-- The session of a channel is its own. -/
theorem own (h : w.sessions.lookup c = some s) (hs : Sound w) :
    ∀ d, w.sessions.lookup d = some s → d = c :=
  fun d hd => hs.distinct d c s hd h

/-- A fresh session is nobody's. -/
theorem fresh (h : w.nextId ≤ s) (hs : Sound w) : ∀ d, w.sessions.lookup d = some s → d = c :=
  fun d hd => absurd (hs.sessions_lt d s hd) (not_lt.mpr h)

/-- A session of the channel dies. -/
theorem die (h : Sound w → ∀ d, w.sessions.lookup d = some s → d = c) :
    Local c w (w.die s) := by
  refine ofMemory ⟨rfl, fun _ _ => rfl, rfl, rfl, rfl⟩ rfl (by simp) (fun hs => ?_) ?_
  · exact ⟨hs.distinct, hs.sessions_lt, hs.rows_lt, hs.known⟩
  · exact fun hs => (updSession ChannelSession.markEnded h).views hs

/-- An id is used up. -/
theorem takeId : Local c w w.takeId where
  status _ _ := rfl
  workers := rfl
  jobs _ _ := rfl
  log := rfl
  nextId := Nat.le_succ _
  died := id
  sound hs := ⟨hs.distinct, fun d s hd => Nat.lt_succ_of_lt (hs.sessions_lt d s hd),
    fun r row hr => Nat.lt_succ_of_lt (hs.rows_lt r row hr), hs.known⟩
  views _ _ _ := rfl

/-- A request to record is remembered. -/
theorem addPending : Local c w (w.addPending c) := by
  refine ofMemory ⟨rfl, fun _ _ => rfl, rfl, rfl, rfl⟩ rfl id (fun hs => ?_) fun _ d hd => ?_
  · exact ⟨hs.distinct, hs.sessions_lt, hs.rows_lt, hs.known⟩
  · exact View.ext rfl rfl rfl rfl (by simp [hd])

/-- And forgotten. -/
theorem dropPending : Local c w (w.dropPending c) := by
  refine ofMemory ⟨rfl, fun _ _ => rfl, rfl, rfl, rfl⟩ rfl id (fun hs => ?_) fun _ d hd => ?_
  · exact ⟨hs.distinct, hs.sessions_lt, hs.rows_lt, hs.known⟩
  · exact View.ext rfl rfl rfl rfl (by simp [hd])

/-- A session with a fresh id becomes the channel's. -/
theorem takeSession : Local c w (w.takeId.setSession c w.nextId) where
  status _ _ := rfl
  workers := rfl
  jobs _ _ := rfl
  log := rfl
  nextId := Nat.le_succ _
  died := id
  sound hs := by
    have hfresh : ∀ d, w.sessions.lookup d ≠ some w.nextId :=
      fun d hd => absurd (hs.sessions_lt d _ hd) (lt_irrefl _)
    refine ⟨fun d e t hd he => ?_, fun d t hd => ?_,
      fun r row hr => Nat.lt_succ_of_lt (hs.rows_lt r row hr), hs.known⟩
    · simp only [World.setSession_sessions, World.takeId_sessions, Dict.lookup_set] at hd he
      split at hd <;> split at he
      · simp [*]
      · obtain rfl := Option.some.inj hd
        exact absurd he (hfresh e)
      · obtain rfl := Option.some.inj he
        exact absurd hd (hfresh d)
      · exact hs.distinct d e t hd he
    · simp only [World.setSession_sessions, World.takeId_sessions, Dict.lookup_set] at hd
      split at hd
      · obtain rfl := Option.some.inj hd
        exact Nat.lt_succ_self _
      · exact Nat.lt_succ_of_lt (hs.sessions_lt d t hd)
  views _ d hd := View.ext rfl rfl (by simp [hd]) rfl rfl

/-- The session of the channel is dropped. -/
theorem dropSession : Local c w (w.dropSession c) := by
  refine ofMemory ⟨rfl, fun _ _ => rfl, rfl, rfl, rfl⟩ rfl id (fun hs => ?_) fun _ d hd => ?_
  · have hold : ∀ {d s}, (w.dropSession c).sessions.lookup d = some s →
        w.sessions.lookup d = some s := by
      intro d s hd
      rw [World.dropSession_sessions, Dict.lookup_erase] at hd
      split at hd
      · exact absurd hd (by simp)
      · exact hd
    exact ⟨fun d e s hd he => hs.distinct d e s (hold hd) (hold he),
      fun d s hd => hs.sessions_lt d s (hold hd), hs.rows_lt, hs.known⟩
  · exact View.ext rfl rfl (by simp [hd]) rfl rfl

/-- A row of the channel is remembered. -/
theorem setRecordingId {r : RecordingId}
    (h : Sound w → ∃ row, w.db.recordings.lookup r = some row ∧ row.channelId = c) :
    Local c w (w.setRecordingId c r) := by
  refine ofMemory ⟨rfl, fun _ _ => rfl, rfl, rfl, rfl⟩ rfl id (fun hs => ?_) fun _ d hd => ?_
  · refine ⟨hs.distinct, hs.sessions_lt, hs.rows_lt, fun d r' hd => ?_⟩
    simp only [World.setRecordingId_recordingIds, Dict.lookup_set] at hd
    split at hd
    · rename_i hdc
      obtain rfl := Option.some.inj hd
      exact hdc ▸ h hs
    · exact hs.known d r' hd
  · exact View.ext rfl rfl rfl (by simp [hd]) rfl

/-- The row of the channel is forgotten. -/
theorem dropRecordingId : Local c w (w.dropRecordingId c) := by
  refine ofMemory ⟨rfl, fun _ _ => rfl, rfl, rfl, rfl⟩ rfl id (fun hs => ?_) fun _ d hd => ?_
  · refine ⟨hs.distinct, hs.sessions_lt, hs.rows_lt, fun d r' hd => ?_⟩
    simp only [World.dropRecordingId_recordingIds, Dict.lookup_erase] at hd
    split at hd
    · exact absurd hd (by simp)
    · exact hs.known d r' hd
  · exact View.ext rfl rfl rfl (by simp [hd]) rfl

/-- What is not in the books does not count. -/
theorem ofSameBooks (h : SameBooks w' w) : Local c w w' where
  status d _ := by rw [h.db]
  workers := by rw [h.db]
  jobs q hq := h.jobs q hq
  log := h.log
  nextId := h.nextId.ge
  died hd := h.died ▸ hd
  sound hs := by
    obtain ⟨h1, h2, h3, h4⟩ := hs
    refine ⟨?_, ?_, ?_, ?_⟩
    · rwa [h.sessions]
    · rwa [h.sessions, h.nextId]
    · rwa [h.db, h.nextId]
    · rwa [h.recordingIds, h.db]
  views _ d _ := by
    ext <;> simp [h.db, h.sessions, h.heap, h.recordingIds, h.pendingRecord]

end Local

/-- Two states with the same books have the same views. -/
theorem SameBooks.view_eq {w w' : World} (h : SameBooks w w') (c : ChannelId) :
    w.view c = w'.view c := by
  ext <;> simp [h.db, h.sessions, h.heap, h.recordingIds, h.pendingRecord]

/-! ## What survives a kill -/

/-- A step that leaves what is stored about every other channel alone. -/
structure StoreLocal (c : ChannelId) (w w' : World) : Prop where
  /-- Worker rows stay. -/
  workers : w'.db.workers = w.db.workers
  /-- The control lists stay. -/
  jobs : ∀ q, q.isControl = true → w'.lists q = w.lists q
  rows_lt : Sound w → ∀ r row, w'.db.recordings.lookup r = some row → r < w'.nextId
  /-- Of other channels nothing has changed in the database. -/
  stored : Sound w → ∀ d, d ≠ c → w'.stored d = w.stored d

namespace StoreLocal

variable {c : ChannelId} {w w' w'' : World}

/-- A kill right after a step. -/
theorem of_local (h : Local c w w') (hs : SameStore w'' w') : StoreLocal c w w'' where
  workers := by rw [hs.db, h.workers]
  jobs q hq := (hs.jobs q hq).trans (h.jobs q hq)
  rows_lt hw := by
    rw [hs.db, hs.nextId]
    exact (h.sound hw).rows_lt
  stored hw d hd := by
    have hst : w''.stored d = w'.stored d := by simp [World.stored, hs.db]
    exact hst.trans (congrArg View.toStored (h.views hw d hd))

/-- A kill later on. -/
theorem trans (h : Local c w w') (h' : StoreLocal c w' w'') : StoreLocal c w w'' where
  workers := h'.workers.trans h.workers
  jobs q hq := (h'.jobs q hq).trans (h.jobs q hq)
  rows_lt hw := h'.rows_lt (h.sound hw)
  stored hw d hd :=
    (h'.stored (h.sound hw) d hd).trans (congrArg View.toStored (h.views hw d hd))

end StoreLocal

/-- Two states that are alike in what survives the worker store the same. -/
theorem SameStore.stored_eq {w w' : World} (h : SameStore w w') (c : ChannelId) :
    w.stored c = w'.stored c := by
  simp [World.stored, h.db]
