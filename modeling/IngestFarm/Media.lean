/-
# Recordings and their media

A recording's `storage_path` is the directory of the session that starts it, and what is counted
at its end is all that lies there.  `Filed` ties rows, files, counts and sessions together, for
sessions that record once: a new row has a directory of its own, a file lies in the directory of
the row it was captured for, and what a session object says about its capture belongs to the row
that its channel remembers.  `Quiet` steps leave all that as it was; what the handlers write
besides is followed here, one write at a time.

`Filed` is the invariant.  It counts from a number `n₀` on, the next id at the beginning of a run,
so that rows and directories of earlier lives of the worker need not be in order.  Steps that do not
touch the books are `Quiet`; the lemmas at the end are about the writes that do.
-/
import IngestFarm.Frames

open Prog

/-! ## Rows and files -/

/-- What a row says about its media. -/
structure Media where
  /-- The directory of its session. -/
  storagePath : SessionDir
  /-- How many segments were counted. -/
  segmentCount : ℕ
  /-- The sum of their sizes. -/
  byteSize : ℕ

@[simps] def Recording.media (row : Recording) : Media :=
  ⟨row.storagePath, row.segmentCount, row.byteSize⟩

namespace World

/-- The media of the row with a given id. -/
def media (w : World) (r : RecordingId) : Option Media :=
  (w.db.recordings.lookup r).map Recording.media

/-- `r` is a row whose directory is `dir`. -/
def Stores (w : World) (r : RecordingId) (dir : SessionDir) : Prop :=
  ∃ m, w.media r = some m ∧ m.storagePath = dir

/-- The capture of a recording session writes a segment; a file of that name is replaced. -/
def capture (f : MediaFile) (w : World) : World :=
  { w with files := w.files.filter (fun g => ¬ (g.dir = f.dir ∧ g.index = f.index)) ++ [f] }

/-- The files of a directory. -/
theorem mem_filesIn {w : World} {dir : SessionDir} {f : MediaFile} :
    f ∈ w.filesIn dir ↔ f ∈ w.files ∧ f.dir = dir := by
  simp [filesIn]

/-- Which row stores a directory is read off the columns of the media. -/
theorem Stores.congr {w w' : World} {r : RecordingId} {dir : SessionDir}
    (h : w'.media r = w.media r) : w'.Stores r dir ↔ w.Stores r dir := by
  unfold Stores
  rw [h]

@[simp] theorem media_setStatus (w : World) (c : ChannelId) (st : ChannelStatus) :
    (w.commitDb (Database.setStatus c st)).media = w.media := rfl

@[simp] theorem media_endRecording (w : World) (r : RecordingId) (st : RecordingStatus) (now : ℕ) :
    (w.commitDb (Database.endRecording r st now)).media = w.media := by
  funext r'
  unfold media
  rw [commitDb_db, Database.lookup_recordings_endRecording]
  by_cases hr : r' = r
  · subst hr
    rw [if_pos rfl, Option.map_map]
    rfl
  · rw [if_neg hr]

/-- Counts are written into one row. -/
theorem media_setCounts (w : World) (r r' : RecordingId) (m n : ℕ) :
    (w.commitDb (Database.setCounts r m n)).media r' =
      if r' = r then (w.media r).map fun x => ⟨x.storagePath, m, n⟩ else w.media r' := by
  unfold media
  rw [commitDb_db, Database.lookup_recordings_setCounts]
  by_cases hr : r' = r
  · rw [if_pos hr, if_pos hr, Option.map_map, Option.map_map]
    rfl
  · rw [if_neg hr, if_neg hr]

/-- A new row comes with its own directory. -/
theorem media_addRecording (w : World) (r r' : RecordingId) (row : Recording) :
    (w.commitDb (Database.addRecording r row)).media r' =
      if r' = r then some row.media else w.media r' := by
  unfold media
  rw [commitDb_db, Database.lookup_recordings_addRecording]
  split
  · rfl
  · rfl

end World

/-! ## The books -/

/-- What a session object says about its capture. -/
def ChannelSession.capture (x : ChannelSession) : Bool × Option SessionDir × ℕ :=
  (x.recording, x.outputDir, x.segmentCount)

/-- A session that has never prepared a capture. -/
def ChannelSession.Blank (x : ChannelSession) : Prop := x.outputDir = none ∧ x.segmentCount = 0

/-- What holds between session `s`, its channel and the rows that are new since `n₀`.  A channel
can still remember the row of a session that is gone; its session of now is blank then. -/
structure Accounted (n₀ : ℕ) (w : World) (c : ChannelId) (s : SessionId) : Prop where
  /-- A session that records has not counted yet, and its row is remembered. -/
  recording : (w.heap s).recording = true →
    (w.heap s).segmentCount = 0 ∧ w.recordingIds.lookup c ≠ none
  /-- A remembered row is that of the session, or is left over from an earlier one. -/
  known : ∀ r, w.recordingIds.lookup c = some r →
    ((w.heap s).recording = false ∧ (w.heap s).Blank) ∨
      (n₀ ≤ r ∧ w.Stores r ⟨c, s⟩ ∧ (w.heap s).outputDir = some ⟨c, s⟩ ∧
        (w.heap s).segmentCount ≤ (w.filesIn ⟨c, s⟩).length)
  /-- A session without a row has not captured. -/
  unused : (∀ r, ¬ w.Stores r ⟨c, s⟩) → (w.heap s).Blank

/-- The books on rows, files, counts and sessions, of the rows that are new since `n₀`. -/
structure Filed (n₀ : ℕ) (w : World) : Prop where
  /-- New ids come after those that there were. -/
  base : n₀ ≤ w.nextId
  /-- No session belongs to two channels. -/
  distinct : ∀ c d s, w.sessions.lookup c = some s → w.sessions.lookup d = some s → c = d
  /-- The sessions are new, and their accounts are in order. -/
  held : ∀ c s, w.sessions.lookup c = some s → n₀ ≤ s ∧ s < w.nextId ∧ Accounted n₀ w c s
  /-- A remembered row exists. -/
  known : ∀ c r, w.recordingIds.lookup c = some r → w.media r ≠ none
  /-- Ids of rows and directories have been handed out. -/
  rows : ∀ r m, w.media r = some m → r < w.nextId ∧ m.storagePath.sessionId < w.nextId
  /-- A directory of a new row is of no other. -/
  once : ∀ r r' dir, n₀ ≤ r → w.Stores r dir → w.Stores r' dir → r = r'
  /-- A file was captured for the row of its directory. -/
  files : ∀ f ∈ w.files, n₀ ≤ f.dir.sessionId → w.Stores f.during f.dir
  /-- What was counted for a row was captured for it. -/
  counted : ∀ r n fs, Event.counted r n fs ∈ w.trace → n ≤ fs.length ∧ ∀ f ∈ fs, f.during = r
  /-- The counts of a new row are zero, or those of the files that were counted for it. -/
  counts : ∀ r m, n₀ ≤ r → w.media r = some m → (m.segmentCount = 0 ∧ m.byteSize = 0) ∨
    ∃ fs, Event.counted r m.segmentCount fs ∈ w.trace ∧ m.byteSize = (fs.map MediaFile.size).sum

/-- A step after which the books are as they were.  Sessions may be gone; those that `P` leaves
out may have changed. -/
structure Quiet (P : SessionId → Prop) (w w' : World) : Prop where
  /-- No row says anything else of its media. -/
  media : w'.media = w.media
  /-- No file is written. -/
  files : w'.files = w.files
  /-- Nothing is counted. -/
  counted : ∀ r n fs, Event.counted r n fs ∈ w'.trace ↔ Event.counted r n fs ∈ w.trace
  nextId : w.nextId ≤ w'.nextId
  /-- No channel has a new session. -/
  sessions : ∀ c s, w'.sessions.lookup c = some s → w.sessions.lookup c = some s
  /-- No other row is remembered. -/
  known : ∀ c r, w'.recordingIds.lookup c = some r → w.recordingIds.lookup c = some r
  /-- A session that stays has not captured, and its row is remembered as before. -/
  held : ∀ c s, P s → w'.sessions.lookup c = some s →
    (w'.heap s).capture = (w.heap s).capture ∧ w'.recordingIds.lookup c = w.recordingIds.lookup c

section Quiet

variable {P : SessionId → Prop} {n₀ : ℕ} {w w' : World} {c : ChannelId} {s : SessionId}

/-- Leaving the media alone is a frame. -/
theorem frame_quiet : Frame (Quiet P) where
  refl _ := ⟨rfl, rfl, fun _ _ _ => Iff.rfl, le_rfl, fun _ _ h => h, fun _ _ h => h,
    fun _ _ _ _ => ⟨rfl, rfl⟩⟩
  trans _ _ _ h h' := ⟨h'.media.trans h.media, h'.files.trans h.files,
    fun r n fs => (h'.counted r n fs).trans (h.counted r n fs), h.nextId.trans h'.nextId,
    fun c s hs => h.sessions c s (h'.sessions c s hs), fun c r hr => h.known c r (h'.known c r hr),
    fun c s hP hs =>
      ⟨(h'.held c s hP hs).1.trans (h.held c s hP (h'.sessions c s hs)).1,
        (h'.held c s hP hs).2.trans (h.held c s hP (h'.sessions c s hs)).2⟩⟩

/-- The account of a session looks at the rows, the files and the capture. -/
theorem Accounted.congr (h : Accounted n₀ w c s)
    (hstores : ∀ r dir, w.Stores r dir → w'.Stores r dir) (hfiles : w'.files = w.files)
    (hcap : (w'.heap s).capture = (w.heap s).capture)
    (hid : w'.recordingIds.lookup c = w.recordingIds.lookup c) : Accounted n₀ w' c s := by
  have hrec : (w'.heap s).recording = (w.heap s).recording := congrArg Prod.fst hcap
  have hdir : (w'.heap s).outputDir = (w.heap s).outputDir := congrArg (fun p => p.2.1) hcap
  have hcount : (w'.heap s).segmentCount = (w.heap s).segmentCount := congrArg (fun p => p.2.2) hcap
  have hin : ∀ dir, w'.filesIn dir = w.filesIn dir := fun dir => by
    unfold World.filesIn
    rw [hfiles]
  refine ⟨?_, ?_, ?_⟩
  · rw [hrec, hcount, hid]
    exact h.recording
  · intro r hr
    rw [hid] at hr
    unfold ChannelSession.Blank
    rw [hrec, hcount, hdir, hin]
    exact (h.known r hr).imp id fun ⟨hnew, hr, hrest⟩ => ⟨hnew, hstores r _ hr, hrest⟩
  · intro hnone
    unfold ChannelSession.Blank
    rw [hdir, hcount]
    exact h.unused fun r hr => hnone r (hstores r _ hr)

/-- **A quiet step keeps the books**, if it keeps those of the sessions it may have changed. -/
theorem Filed.quiet (h : Filed n₀ w) (hq : Quiet P w w')
    (hrest : ∀ c s, ¬ P s → w'.sessions.lookup c = some s → Accounted n₀ w' c s) : Filed n₀ w' := by
  have hstores : ∀ r dir, w'.Stores r dir ↔ w.Stores r dir :=
    fun r dir => World.Stores.congr (congrFun hq.media r)
  constructor
  case base => exact h.base.trans hq.nextId
  case distinct =>
    exact fun c d s hc hd => h.distinct c d s (hq.sessions c s hc) (hq.sessions d s hd)
  case held =>
    intro c s hs
    obtain ⟨hbase, hlt, hkept⟩ := h.held c s (hq.sessions c s hs)
    refine ⟨hbase, hlt.trans_le hq.nextId, ?_⟩
    by_cases hP : P s
    · obtain ⟨hcap, hid⟩ := hq.held c s hP hs
      exact hkept.congr (fun r dir => (hstores r dir).mpr) hq.files hcap hid
    · exact hrest c s hP hs
  case known =>
    intro c r hr
    rw [hq.media]
    exact h.known c r (hq.known c r hr)
  case rows =>
    intro r m hm
    rw [hq.media] at hm
    exact ⟨(h.rows r m hm).1.trans_le hq.nextId, (h.rows r m hm).2.trans_le hq.nextId⟩
  case once =>
    intro r r' dir hr hs hs'
    exact h.once r r' dir hr ((hstores r dir).mp hs) ((hstores r' dir).mp hs')
  case files =>
    intro f hf hbase
    rw [hq.files] at hf
    exact (hstores _ _).mpr (h.files f hf hbase)
  case counted => exact fun r n fs hmem => h.counted r n fs ((hq.counted r n fs).mp hmem)
  case counts =>
    intro r m hr hm
    rw [hq.media] at hm
    apply (h.counts r m hr hm).imp id
    rintro ⟨fs, hmem, hsize⟩
    exact ⟨fs, (hq.counted r _ fs).mpr hmem, hsize⟩

/-- A step that is quiet for every session. -/
theorem Filed.still (h : Filed n₀ w) (hq : Quiet (fun _ => True) w w') : Filed n₀ w' :=
  h.quiet hq fun _ _ hP _ => absurd trivial hP

/-! ### Writes that are quiet -/

/-- Writes to fields that the books do not look at, and the death of a session. -/
theorem quiet_of_eq (hdb : w'.media = w.media) (hfiles : w'.files = w.files)
    (htrace : w'.trace = w.trace) (hid : w'.nextId = w.nextId) (hsess : w'.sessions = w.sessions)
    (hids : w'.recordingIds = w.recordingIds)
    (hheap : ∀ s, P s → (w'.heap s).capture = (w.heap s).capture) : Quiet P w w' where
  media := hdb
  files := hfiles
  counted _ _ _ := by rw [htrace]
  nextId := hid.ge
  sessions c s hs := by rwa [hsess] at hs
  known c r hr := by rwa [hids] at hr
  held c s hP _ := ⟨hheap s hP, by rw [hids]⟩

/-- A session may change in everything but its capture. -/
theorem quiet_updSession (s : SessionId) (f : ChannelSession → ChannelSession)
    (h : P s → (f (w.heap s)).capture = (w.heap s).capture) : Quiet P w (w.updSession s f) := by
  refine quiet_of_eq rfl rfl rfl rfl rfl rfl fun t hP => ?_
  rw [World.updSession_heap]
  by_cases ht : t = s
  · subst ht
    rw [Function.update_self]
    exact h hP
  · rw [Function.update_of_ne ht]

/-- A session that dies has captured what it has captured. -/
theorem quiet_die (s : SessionId) (w : World) : Quiet P w (w.die s) := by
  refine quiet_of_eq rfl rfl rfl rfl rfl rfl fun t hP => ?_
  rw [World.die_heap]
  by_cases ht : t = s
  · subst ht
    rw [Function.update_self]
    rfl
  · rw [Function.update_of_ne ht]

/-- So may a row in everything but its media. -/
theorem quiet_commit {f : Database → Database} (h : (w.commitDb f).media = w.media) :
    Quiet P w (w.commitDb f) :=
  quiet_of_eq h rfl rfl rfl rfl rfl fun _ _ => rfl

theorem quiet_dropSession (c : ChannelId) (w : World) : Quiet P w (w.dropSession c) where
  media := rfl
  files := rfl
  counted _ _ _ := Iff.rfl
  nextId := le_rfl
  sessions d s hs := by
    rw [World.dropSession_sessions, Dict.lookup_erase] at hs
    split at hs
    · exact absurd hs (by simp)
    · exact hs
  known _ _ hr := hr
  held _ _ _ _ := ⟨rfl, rfl⟩

/-- Forgetting the row of a channel whose session, if any, is left out. -/
theorem quiet_dropRecordingId (h : ∀ s, w.sessions.lookup c = some s → ¬ P s) :
    Quiet P w (w.dropRecordingId c) where
  media := rfl
  files := rfl
  counted _ _ _ := Iff.rfl
  nextId := le_rfl
  sessions _ _ hs := hs
  known d r hr := by
    rw [World.dropRecordingId_recordingIds, Dict.lookup_erase] at hr
    split at hr
    · exact absurd hr (by simp)
    · exact hr
  held d s hP hs := by
    refine ⟨rfl, ?_⟩
    rw [World.dropRecordingId_recordingIds, Dict.lookup_erase, if_neg]
    rintro rfl
    exact h s hs hP

/-- Statistics are no media. -/
theorem statsFrame_quiet : StatsFrame (Quiet P) where
  toFrame := frame_quiet
  addStats _ _ := quiet_of_eq rfl rfl rfl rfl rfl rfl fun _ _ => rfl
  dropStats _ _ := quiet_of_eq rfl rfl rfl rfl rfl rfl fun _ _ => rfl

/-- What is done to session `s` alone is quiet for the others. -/
theorem sessionFrame_quiet (s : SessionId) : SessionFrame (Quiet (· ≠ s)) s where
  toFrame := frame_quiet
  die w := quiet_die s w
  prepare _ _ := quiet_updSession s _ fun h => absurd rfl h
  setRecording _ _ := quiet_updSession s _ fun h => absurd rfl h
  setCount _ _ := quiet_updSession s _ fun h => absurd rfl h
  markStopping _ := quiet_updSession s _ fun h => absurd rfl h
  close _ := quiet_updSession s _ fun h => absurd rfl h

end Quiet

/-! ## What the handlers write -/

section Writes

variable {n₀ : ℕ} {w w' : World} {c : ChannelId} {s : SessionId} {r : RecordingId}

@[simp] theorem heap_updSession_self (s : SessionId) (f : ChannelSession → ChannelSession)
    (w : World) : (w.updSession s f).heap s = f (w.heap s) := by
  simp

/-- The books of a channel while its session `s` is finalized, in `_sessions` or out of it. -/
structure Finishing (n₀ : ℕ) (w : World) (c : ChannelId) (s : SessionId) : Prop where
  /-- The books are in order. -/
  filed : Filed n₀ w
  /-- The session is a new one. -/
  base : n₀ ≤ s
  /-- Its accounts are in order, also when no table names it any more. -/
  kept : Accounted n₀ w c s
  /-- It is of this channel, if of any. -/
  only : ∀ d, w.sessions.lookup d = some s → d = c
  /-- The channel has no other session. -/
  here : ∀ t, w.sessions.lookup c = some t → t = s

/-- A session whose recording is about to be finished. -/
theorem Filed.finishing (h : Filed n₀ w) (hs : w.sessions.lookup c = some s) :
    Finishing n₀ w c s where
  filed := h
  base := (h.held c s hs).1
  kept := (h.held c s hs).2.2
  only d hd := h.distinct d c s hd hs
  here _ ht := Option.some.inj (ht.symm.trans hs)

/-- A change of the session object. -/
theorem Finishing.updSession (h : Finishing n₀ w c s) {f : ChannelSession → ChannelSession}
    (hk : Accounted n₀ (w.updSession s f) c s) : Finishing n₀ (w.updSession s f) c s := by
  have hq : Quiet (· ≠ s) w (w.updSession s f) := quiet_updSession s f fun hne => absurd rfl hne
  refine ⟨h.filed.quiet hq fun d _ ht hd => ?_, h.base, hk, h.only, h.here⟩
  obtain rfl := not_not.mp ht
  obtain rfl := h.only d hd
  exact hk

/-- Its account is closed. -/
theorem Accounted.stopped (h : Accounted n₀ w c s) :
    Accounted n₀ (w.updSession s (ChannelSession.setRecording false)) c s := by
  refine ⟨fun hrec => ?_, fun r hr => ?_, fun hnone => ?_⟩
  · rw [heap_updSession_self] at hrec
    exact absurd hrec (by simp)
  · rw [heap_updSession_self]
    exact (h.known r hr).imp (fun hb => ⟨rfl, hb.2⟩) id
  · rw [heap_updSession_self]
    exact h.unused hnone

/-- The count of the segments in the session's directory. -/
theorem Accounted.setCount (h : Accounted n₀ w c s) {dir : SessionDir}
    (hdir : (w.heap s).outputDir = some dir) (hidle : (w.heap s).recording = false) :
    Accounted n₀ (w.updSession s (ChannelSession.setCount (w.filesIn dir).length)) c s := by
  have hblank : ¬ (w.heap s).Blank := fun hb => absurd (hdir.symm.trans hb.1) (by simp)
  refine ⟨fun hrec => ?_, fun r hr => ?_, fun hnone => absurd (h.unused hnone) hblank⟩
  · rw [heap_updSession_self] at hrec
    exact absurd (hidle.symm.trans hrec) (by simp)
  · -- A session with a directory is not blank, so the row is its own.
    rw [heap_updSession_self]
    rcases h.known r hr with hb | ⟨hnew, hstores, hout, -⟩
    · exact absurd hb.2 hblank
    · obtain rfl : dir = ⟨c, s⟩ := Option.some.inj (hdir.symm.trans hout)
      exact Or.inr ⟨hnew, hstores, hout, le_rfl⟩

/-- The channel forgets its row. -/
theorem Accounted.forget (h : Accounted n₀ w c s) (hidle : (w.heap s).recording = false) :
    Accounted n₀ (w.dropRecordingId c) c s := by
  refine ⟨fun hrec => absurd (hidle.symm.trans hrec) (by simp), fun r hr => ?_, h.unused⟩
  rw [World.dropRecordingId_recordingIds, Dict.lookup_erase, if_pos rfl] at hr
  exact absurd hr (by simp)

/-- After that the row may be forgotten. -/
theorem Finishing.forget (h : Finishing n₀ w c s) (hidle : (w.heap s).recording = false) :
    Filed n₀ (w.dropRecordingId c) := by
  have hq : Quiet (· ≠ s) w (w.dropRecordingId c) :=
    quiet_dropRecordingId fun _ ht hne => hne (h.here _ ht)
  refine h.filed.quiet hq fun d _ ht hd => ?_
  obtain rfl := not_not.mp ht
  obtain rfl := h.only d hd
  exact h.kept.forget hidle

/-- What lies in the directory of a new row was captured for it. -/
theorem Filed.during_eq (h : Filed n₀ w) (hr : n₀ ≤ r) {dir : SessionDir}
    (hbase : n₀ ≤ dir.sessionId) (hstores : w.Stores r dir) :
    ∀ f ∈ w.filesIn dir, f.during = r := by
  intro f hf
  obtain ⟨hmem, rfl⟩ := World.mem_filesIn.mp hf
  exact (h.once r f.during f.dir hr hstores (h.files f hmem hbase)).symm

/-- **The counts of a finished row.** -/
theorem Filed.completed (h : Filed n₀ w) {n : ℕ} {fs : List MediaFile} (now : ℕ)
    (hn : n ≤ fs.length) (hfs : ∀ f ∈ fs, f.during = r) :
    Filed n₀ ((w.commitDb (Database.setCounts r n (fs.map MediaFile.size).sum ∘
      Database.endRecording r .completed now)).note (.counted r n fs)) := by
  set bytes := (fs.map MediaFile.size).sum with hbytes
  set w' := (w.commitDb (Database.setCounts r n bytes ∘
    Database.endRecording r .completed now)).note (.counted r n fs)
  have hmedia : ∀ r', w'.media r' =
      if r' = r then (w.media r).map fun x => ⟨x.storagePath, n, bytes⟩ else w.media r' := by
    intro r'
    have hset := World.media_setCounts (w.commitDb (Database.endRecording r .completed now))
      r r' n bytes
    rwa [World.media_endRecording] at hset
  have hsome : ∀ r' m', w'.media r' = some m' →
      ∃ m, w.media r' = some m ∧ m.storagePath = m'.storagePath := by
    intro r' m' hm
    rw [hmedia] at hm
    split at hm
    · rename_i hr
      obtain ⟨m, hx, rfl⟩ := Option.map_eq_some_iff.mp hm
      exact ⟨m, hr ▸ hx, rfl⟩
    · exact ⟨m', hm, rfl⟩
  have hstores : ∀ r' dir, w'.Stores r' dir ↔ w.Stores r' dir := by
    intro r' dir
    constructor
    · rintro ⟨m', hm', hdir⟩
      obtain ⟨m, hm, heq⟩ := hsome r' m' hm'
      exact ⟨m, hm, heq.trans hdir⟩
    · rintro ⟨m, hm, hdir⟩
      unfold World.Stores
      rw [hmedia]
      split
      · rename_i hr
        exact ⟨⟨m.storagePath, n, bytes⟩, by rw [← hr, hm]; rfl, hdir⟩
      · exact ⟨m, hm, hdir⟩
  constructor
  case base => exact h.base
  case distinct => exact h.distinct
  case held =>
    intro d t ht
    obtain ⟨hbase, hlt, hkept⟩ := h.held d t ht
    exact ⟨hbase, hlt, hkept.congr (fun r' dir => (hstores r' dir).mpr) rfl rfl rfl⟩
  case known =>
    intro d r' hr'
    obtain ⟨m, hm⟩ := Option.ne_none_iff_exists'.mp (h.known d r' hr')
    obtain ⟨m', hm', -⟩ := (hstores r' m.storagePath).mpr ⟨m, hm, rfl⟩
    rw [hm']
    simp
  case rows =>
    intro r' m' hm'
    obtain ⟨m, hm, heq⟩ := hsome r' m' hm'
    exact heq ▸ h.rows r' m hm
  case once =>
    exact fun r₁ r₂ dir hr h₁ h₂ => h.once r₁ r₂ dir hr ((hstores _ _).mp h₁) ((hstores _ _).mp h₂)
  case files => exact fun f hf hbase => (hstores _ _).mpr (h.files f hf hbase)
  case counted =>
    intro r' n' fs' hmem
    rcases List.mem_append.mp hmem with hmem | hmem
    · exact h.counted r' n' fs' hmem
    · obtain ⟨rfl, rfl, rfl⟩ := Event.counted.inj (List.mem_singleton.mp hmem)
      exact ⟨hn, hfs⟩
  case counts =>
    -- The counts of `r` are those of the event just noted; the others have theirs.
    intro r' m' hr' hm'
    rw [hmedia] at hm'
    split at hm'
    · rename_i hr
      obtain ⟨m, hm, rfl⟩ := Option.map_eq_some_iff.mp hm'
      refine Or.inr ⟨fs, ?_, hbytes⟩
      rw [hr]
      exact List.mem_append_right _ (List.mem_singleton.mpr rfl)
    · apply (h.counts r' m' hr' hm').imp id
      rintro ⟨fs', hmem, hsize⟩
      exact ⟨fs', List.mem_append_left _ hmem, hsize⟩

/-- **A new row** with a directory of its own. -/
theorem Filed.added (h : Filed n₀ w) (hs : w.sessions.lookup c = some s)
    (hfree : ∀ r, ¬ w.Stores r ⟨c, s⟩)
    (hmedia : ∀ r', w'.media r' = if r' = w.nextId then some ⟨⟨c, s⟩, 0, 0⟩ else w.media r')
    (hfiles : w'.files = w.files) (htrace : w'.trace = w.trace) (hid : w'.nextId = w.nextId + 1)
    (hsess : w'.sessions = w.sessions) (hids : w'.recordingIds = w.recordingIds)
    (hheap : w'.heap = w.heap) : Filed n₀ w' := by
  have hold : ∀ r' m, w.media r' = some m → w'.media r' = some m := by
    intro r' m hm
    rw [hmedia, if_neg (h.rows r' m hm).1.ne, hm]
  have hmono : ∀ r' dir, w.Stores r' dir → w'.Stores r' dir :=
    fun r' dir ⟨m, hm, hdir⟩ => ⟨m, hold r' m hm, hdir⟩
  have hcases : ∀ r' dir, w'.Stores r' dir →
      (r' = w.nextId ∧ dir = ⟨c, s⟩) ∨ w.Stores r' dir := by
    rintro r' dir ⟨m, hm, hdir⟩
    rw [hmedia] at hm
    split at hm
    · obtain rfl := Option.some.inj hm
      exact Or.inl ⟨‹_›, hdir.symm⟩
    · exact Or.inr ⟨m, hm, hdir⟩
  constructor
  case base => rw [hid]; exact h.base.trans (Nat.le_succ _)
  case distinct => rw [hsess]; exact h.distinct
  case held =>
    -- More rows only make it harder to be unused.
    intro d t ht
    rw [hsess] at ht
    obtain ⟨hbase, hlt, hkept⟩ := h.held d t ht
    exact ⟨hbase, hid ▸ hlt.trans (Nat.lt_succ_self _),
      hkept.congr hmono hfiles (by rw [hheap]) (by rw [hids])⟩
  case known =>
    intro d r' hr'
    rw [hids] at hr'
    obtain ⟨m, hm⟩ := Option.ne_none_iff_exists'.mp (h.known d r' hr')
    rw [hold r' m hm]
    simp
  case rows =>
    intro r' m hm
    rw [hmedia] at hm
    rw [hid]
    split at hm
    · rename_i hr
      obtain rfl := Option.some.inj hm
      exact ⟨hr ▸ Nat.lt_succ_self _, (h.held c s hs).2.1.trans (Nat.lt_succ_self _)⟩
    · exact ⟨(h.rows r' m hm).1.trans (Nat.lt_succ_self _),
        (h.rows r' m hm).2.trans (Nat.lt_succ_self _)⟩
  case once =>
    intro r₁ r₂ dir hr h₁ h₂
    -- The directory of the new row is in no other row.
    rcases hcases r₁ dir h₁ with ⟨rfl, rfl⟩ | h₁
    · rcases hcases r₂ _ h₂ with ⟨rfl, -⟩ | h₂
      · rfl
      · exact absurd h₂ (hfree r₂)
    · rcases hcases r₂ dir h₂ with ⟨-, rfl⟩ | h₂
      · exact absurd h₁ (hfree r₁)
      · exact h.once r₁ r₂ dir hr h₁ h₂
  case files =>
    intro f hf hbase
    rw [hfiles] at hf
    exact hmono _ _ (h.files f hf hbase)
  case counted => rw [htrace]; exact h.counted
  case counts =>
    intro r' m hr' hm
    rw [hmedia] at hm
    rw [htrace]
    split at hm
    · obtain rfl := Option.some.inj hm
      exact Or.inl ⟨rfl, rfl⟩
    · exact h.counts r' m hr' hm

/-- The channel remembers another row. -/
theorem Filed.remember (h : Filed n₀ w) (hr : w.media r ≠ none)
    (hk : ∀ s, w.sessions.lookup c = some s → Accounted n₀ (w.setRecordingId c r) c s) :
    Filed n₀ (w.setRecordingId c r) := by
  refine ⟨h.base, h.distinct, fun d t ht => ?_, fun d r' hr' => ?_, h.rows, h.once, h.files,
    h.counted, h.counts⟩
  · obtain ⟨hbase, hlt, hkept⟩ := h.held d t ht
    refine ⟨hbase, hlt, ?_⟩
    by_cases hd : d = c
    · subst hd
      exact hk t ht
    · refine hkept.congr (fun _ _ h => h) rfl rfl ?_
      rw [World.setRecordingId_recordingIds, Dict.lookup_set, if_neg hd]
  · rw [World.setRecordingId_recordingIds, Dict.lookup_set] at hr'
    split at hr'
    · obtain rfl := Option.some.inj hr'
      exact hr
    · exact h.known d r' hr'

/-- **A new session.** -/
theorem Filed.enter (h : Filed n₀ w) (hbase : n₀ ≤ s) (hlt : s < w.nextId)
    (hfresh : ∀ d, w.sessions.lookup d ≠ some s) (hblank : (w.heap s).Blank)
    (hidle : (w.heap s).recording = false) : Filed n₀ (w.setSession c s) := by
  have hk : Accounted n₀ (w.setSession c s) c s :=
    ⟨fun hrec => absurd (hidle.symm.trans hrec) (by simp), fun _ _ => Or.inl ⟨hidle, hblank⟩,
      fun _ => hblank⟩
  have hcases : ∀ d t, (w.setSession c s).sessions.lookup d = some t →
      (d = c ∧ t = s) ∨ w.sessions.lookup d = some t := by
    intro d t ht
    rw [World.setSession_sessions, Dict.lookup_set] at ht
    split at ht
    · exact Or.inl ⟨‹_›, (Option.some.inj ht).symm⟩
    · exact Or.inr ht
  refine ⟨h.base, fun d e t hd he => ?_, fun d t ht => ?_, h.known, h.rows, h.once, h.files,
    h.counted, h.counts⟩
  · rcases hcases d t hd with ⟨rfl, rfl⟩ | hd'
    · rcases hcases e _ he with ⟨rfl, -⟩ | he'
      · rfl
      · exact absurd he' (hfresh e)
    · rcases hcases e t he with ⟨rfl, rfl⟩ | he'
      · exact absurd hd' (hfresh d)
      · exact h.distinct d e t hd' he'
  · rcases hcases d t ht with ⟨rfl, rfl⟩ | ht
    · exact ⟨hbase, hlt, hk⟩
    · obtain ⟨hbase', hlt', hkept⟩ := h.held d t ht
      exact ⟨hbase', hlt', hkept.congr (fun _ _ h => h) rfl rfl rfl⟩

end Writes
