/-
# The tables behind the API

The requests of `ingest_farm/api/main.py` that write rows, over the tables of
`ingest_farm/models` with their constraints: unique channel names, recordings of existing
channels, assets of existing recordings and one asset a recording.  A request is a program; its
queries and its commit can fail, or the process is killed at them.  The other processes write
rows too, each write a transaction of its own that the constraints may refuse.

* `Tables`, `Consistent`: the rows with the media on disk, and the constraints;
* `Endpoint`: the requests;
* `happen`, `happened`: one event, and a sequence of events.

The database checks the constraints at every write.  No request ever runs into them
(`requests_spare_constraints`), a deletion takes all rows that belong to it or none
(`deletes_all_or_nothing`), a recording in flight stays as it is (`in_flight_stays`), and so
does an edit that has been answered (`acknowledged_edit_stays`).
-/
import IngestFarm.Cleanup
import IngestFarm.Prog
import IngestFarm.Source

open Prog

/-! ## Erasing several keys -/

namespace Dict

variable {κ α : Type} [DecidableEq κ]

/-- Erase several keys. -/
def eraseAll (ks : List κ) (d : Dict κ α) : Dict κ α := ks.foldl (fun d k => d.erase k) d

/-- What is left after many deletions. -/
theorem lookup_eraseAll (ks : List κ) (d : Dict κ α) (j : κ) :
    (eraseAll ks d).lookup j = if j ∈ ks then none else d.lookup j := by
  induction ks generalizing d with
  | nil => simp [eraseAll]
  | cons k ks ih =>
    show (eraseAll ks (d.erase k)).lookup j = _
    rw [ih, lookup_erase]
    by_cases hj : j = k
    · simp [hj]
    · simp [hj]

/-- Some entry has the property. -/
theorem any_entries {d : Dict κ α} {p : (Sigma fun _ : κ => α) → Bool} :
    d.entries.any p = true ↔ ∃ k v, d.lookup k = some v ∧ p ⟨k, v⟩ = true := by
  rw [List.any_eq_true]
  constructor
  · rintro ⟨⟨k, v⟩, hmem, hp⟩
    exact ⟨k, v, mem_entries_iff.mp hmem, hp⟩
  · rintro ⟨k, v, hv, hp⟩
    exact ⟨⟨k, v⟩, mem_entries_iff.mpr hv, hp⟩

/-- A value that at most one key has is found at most once. -/
theorem filter_entries_of_unique {d : Dict κ α} {p : (Sigma fun _ : κ => α) → Bool}
    (h : ∀ i j v w, d.lookup i = some v → d.lookup j = some w → p ⟨i, v⟩ = true →
      p ⟨j, w⟩ = true → i = j) :
    d.entries.filter p = [] ∨ ∃ e, d.entries.filter p = [e] := by
  have hnodup : (d.entries.filter p).NodupKeys :=
    List.NodupKeys.sublist List.filter_sublist d.nodupKeys
  have hmem : ∀ e ∈ d.entries.filter p, d.lookup e.1 = some e.2 ∧ p e = true := by
    intro e he
    rw [List.mem_filter] at he
    exact ⟨mem_entries_iff.mp he.1, he.2⟩
  match hlist : d.entries.filter p with
  | [] => exact Or.inl rfl
  | [e] => exact Or.inr ⟨e, rfl⟩
  | a :: b :: rest =>
    rw [hlist] at hnodup hmem
    obtain ⟨ha, hpa⟩ := hmem a List.mem_cons_self
    obtain ⟨hb, hpb⟩ := hmem b (List.mem_cons_of_mem _ List.mem_cons_self)
    have heq : a.1 = b.1 := h _ _ _ _ ha hb hpa hpb
    rw [List.nodupKeys_cons] at hnodup
    exact absurd (List.mem_map.mpr ⟨b, List.mem_cons_self, heq.symm⟩) hnodup.1

end Dict

namespace ApiTables

open Cleanup (FileTree)
open Etr290 (Text)
open Paths
open Serving (HttpError)
open Source (Config SourceConfig)

/-- A row of `channels`. -/
structure ChannelRow where
  name : String
  source : SourceConfig
  pipelineProfile : Config
  outputConfig : Config
  enabled : Bool
  status : ChannelStatus
  createdAt : ℕ

/-- A row of `recordings`. -/
structure RecordingRow where
  channelId : ℕ
  startedAt : ℕ
  endedAt : Option ℕ
  status : RecordingStatus
  storagePath : Text
  segmentCount : ℕ
  byteSize : ℕ
  metadata : Dict String Json

/-- A row of `assets`. -/
structure AssetRow where
  recordingId : ℕ
  title : String
  durationMs : Option ℕ
  width : Option ℕ
  height : Option ℕ
  videoCodec : Option String
  audioCodec : Option String
  paths : Serving.AssetRow
  metadata : Dict String Json
  createdAt : ℕ

/-- The tables, and the media on disk. -/
structure Tables where
  channels : Dict ℕ ChannelRow
  recordings : Dict ℕ RecordingRow
  assets : Dict ℕ AssetRow
  disk : FileTree

namespace Tables

/-! ## Constraints -/

/-- **The constraints of the schema.** -/
structure Consistent (t : Tables) : Prop where
  /-- `channels.name` is unique. -/
  uniqueNames : ∀ i j r r', t.channels.lookup i = some r → t.channels.lookup j = some r' →
    r.name = r'.name → i = j
  /-- A recording has its channel. -/
  ofChannel : ∀ i r, t.recordings.lookup i = some r → r.channelId ∈ t.channels
  /-- An asset has its recording. -/
  ofRecording : ∀ i a, t.assets.lookup i = some a → a.recordingId ∈ t.recordings
  /-- `assets.recording_id` is unique. -/
  uniqueAssets : ∀ i j a b, t.assets.lookup i = some a → t.assets.lookup j = some b →
    a.recordingId = b.recordingId → i = j

/-- Another channel has the name. -/
def nameTaken (t : Tables) (id : ℕ) (name : String) : Bool :=
  t.channels.entries.any fun e => e.2.name = name && e.1 ≠ id

/-- `INSERT INTO channels`; `none` where a constraint refuses it. -/
def insertChannel (id : ℕ) (row : ChannelRow) (t : Tables) : Option Tables :=
  if id ∈ t.channels ∨ t.nameTaken id row.name = true then none
  else some { t with channels := Dict.set id row t.channels }

/-- `UPDATE channels`: the database refuses a name that another row has, and the other columns have
no constraint. -/
def writeChannel (id : ℕ) (row : ChannelRow) (t : Tables) : Option Tables :=
  if t.nameTaken id row.name = true then none
  else some { t with channels := Dict.modify id (fun _ => row) t.channels }

/-- `INSERT INTO recordings`: the id is a primary key, and the channel must exist. -/
def insertRecording (id : ℕ) (row : RecordingRow) (t : Tables) : Option Tables :=
  if id ∈ t.recordings ∨ row.channelId ∉ t.channels then none
  else some { t with recordings := Dict.set id row t.recordings }

/-- `UPDATE recordings`; the channel of a recording is never written. -/
def writeRecording (id : ℕ) (f : RecordingRow → RecordingRow) (t : Tables) : Tables :=
  { t with
    recordings := Dict.modify id (fun row => { f row with channelId := row.channelId })
      t.recordings }

/-- The recording has an asset. -/
def hasAsset (t : Tables) (recordingId : ℕ) : Bool :=
  t.assets.entries.any fun e => e.2.recordingId = recordingId

/-- `INSERT INTO assets`: the recording must exist, and it may have no other asset (`recording_id`
is unique). -/
def insertAsset (id : ℕ) (row : AssetRow) (t : Tables) : Option Tables :=
  if id ∈ t.assets ∨ row.recordingId ∉ t.recordings ∨ t.hasAsset row.recordingId = true then none
  else some { t with assets := Dict.set id row t.assets }

/-- `UPDATE assets`; the recording of an asset is never written. -/
def writeAsset (id : ℕ) (f : AssetRow → AssetRow) (t : Tables) : Tables :=
  { t with
    assets := Dict.modify id (fun row => { f row with recordingId := row.recordingId }) t.assets }

/-- `DELETE FROM assets`: nothing refers to an asset, so this never fails. -/
def removeAsset (t : Tables) (id : ℕ) : Option Tables :=
  some { t with assets := t.assets.erase id }

/-- `DELETE FROM recordings`, refused while an asset refers to the row. -/
def removeRecording (t : Tables) (id : ℕ) : Option Tables :=
  if t.hasAsset id = true then none else some { t with recordings := t.recordings.erase id }

/-- `DELETE FROM channels`, refused while a recording refers to the row. -/
def removeChannel (t : Tables) (id : ℕ) : Option Tables :=
  if t.recordings.entries.any (fun e => e.2.channelId = id) = true then none
  else some { t with channels := t.channels.erase id }

end Tables

/-- The rows that a session has marked with `db.delete`. -/
structure Marked where
  assets : List ℕ
  recordings : List ℕ
  channels : List ℕ

/-- The flush of a session: rows go before the rows that they refer to. -/
def flush (m : Marked) (t : Tables) : Option Tables := do
  let t ← m.assets.foldlM Tables.removeAsset t
  let t ← m.recordings.foldlM Tables.removeRecording t
  m.channels.foldlM Tables.removeChannel t

/-! ## Requests -/

/-- The calls of the database that can fail. -/
inductive DbCall where
  | query
  | commit

/-- Why a request has no normal answer. -/
inductive Failure where
  | http (e : HttpError)
  | database
  | integrity
  | multipleResults

/-- The program of a request. -/
abbrev Handler := Prog DbCall Failure Tables

/-- A query. -/
def select {α : Type} (f : Tables → α) : Handler α := do
  call .query .database
  reads f

/-- `.one_or_none()` of a query. -/
def oneOrNone {α : Type} (rows : Tables → List α) : Handler (Option α) := do
  let found ← select rows
  match found with
  | [] => pure none
  | [row] => pure (some row)
  | _ => raise .multipleResults

/-- `db.commit()` of changes that the constraints may refuse; what fails is rolled back. -/
def commit (change : Tables → Option Tables) : Handler Unit := do
  call .commit .database
  let result ← reads change
  match result with
  | none => raise .integrity
  | some t => modify fun _ => t

/-- An answer with a status code, which leaves the transaction without a commit. -/
def refuse {α : Type} (statusCode : ℕ) (detail : String) : Handler α :=
  raise (.http ⟨statusCode, detail⟩)

/-- `dict(old or {})` and `merged.update(new)`. -/
def merge (old new : Dict String Json) : Dict String Json :=
  new.entries.foldl (fun d e => Dict.set e.1 e.2 d) old

/-- `_require_idle_channel`, the guard of every change to a channel: its text names the status that
is in the way. -/
def requireIdleChannel (row : ChannelRow) : Handler Unit :=
  if row.status ∉ [ChannelStatus.idle, .error] then
    refuse 400 ("Channel must be idle or error (status=" ++ row.status.value ++ ")")
  else pure ()

/-- The validated body of `create_channel`. -/
structure ChannelCreate where
  name : String
  source : SourceConfig
  pipeline : Config
  output : Config

/-- The validated body of `update_channel`. -/
structure ChannelUpdate where
  name : Option String
  source : Option SourceConfig
  pipeline : Option Config
  output : Option Config
  enabled : Option Bool

/-- The fields of a row that a body overwrites. -/
def ChannelUpdate.apply (payload : ChannelUpdate) (row : ChannelRow) : ChannelRow :=
  { row with
    name := payload.name.getD row.name
    source := payload.source.getD row.source
    pipelineProfile := payload.pipeline.getD row.pipelineProfile
    outputConfig := payload.output.getD row.outputConfig
    enabled := payload.enabled.getD row.enabled }

section Deleting

variable (cwd : RealPath) (storageRoot : Text)

/-- `delete_recording_media` of a row and its asset. -/
def removeMedia (row : RecordingRow) (asset : Option Serving.AssetRow) (t : Tables) : Tables :=
  { t with disk := Cleanup.deleteRecordingMedia cwd storageRoot row.storagePath asset t.disk }

/-- `_delete_recording`: the media go at once, the rows with the commit. -/
def deleteRecording (marked : Marked) (e : Sigma fun _ : ℕ => RecordingRow) : Handler Marked := do
  let asset ← oneOrNone fun t => t.assets.entries.filter fun a => a.2.recordingId = e.1
  -- The files are gone even if the commit fails; the rows stay then.
  modify (removeMedia cwd storageRoot e.2 (asset.map fun a => a.2.paths))
  pure { marked with
    assets := marked.assets ++ (asset.map Sigma.fst).toList
    recordings := marked.recordings ++ [e.1] }

end Deleting

namespace Endpoint

/-- `create_channel`; `id` and `now` are what the defaults of the row choose. -/
def createChannel (id now : ℕ) (payload : ChannelCreate) : Handler Unit := do
  let existing ← oneOrNone fun t => t.channels.entries.filter fun e => e.2.name = payload.name
  match existing with
  | some _ => refuse 409 "Channel name already exists"
  | none => do
    commit (Tables.insertChannel id
      ⟨payload.name, payload.source, payload.pipeline, payload.output, true, .idle, now⟩)
    call .query .database

/-- `update_channel`: first the row, then the guard, then the name, which no other channel may have;
what the payload leaves out stays as it was. -/
def updateChannel (id : ℕ) (payload : ChannelUpdate) : Handler Unit := do
  let channel ← select fun t => t.channels.lookup id
  match channel with
  | none => refuse 404 "Channel not found"
  | some row => do
    requireIdleChannel row
    let existing ← (match payload.name with
      | none => pure none
      | some name => oneOrNone fun t => t.channels.entries.filter fun e =>
          e.2.name = name && e.1 ≠ id)
    match existing with
    | some _ => refuse 409 "Channel name already exists"
    | none => do
      commit (Tables.writeChannel id (payload.apply row))
      call .query .database

/-- `update_recording`: a recording in flight is refused, and what is sent is merged into the
metadata that was read. -/
def updateRecording (id : ℕ) (metadata : Option (Dict String Json)) : Handler Unit := do
  let recording ← select fun t => t.recordings.lookup id
  match recording with
  | none => refuse 404 "Recording not found"
  | some row =>
    if row.status = .recording then refuse 400 "Cannot update an active recording"
    else do
      commit fun t => some (match metadata with
        | none => t
        | some new => t.writeRecording id fun r => { r with metadata := merge row.metadata new })
      call .query .database

/-- `update_asset`: the title is replaced and the metadata merged, each only if it was sent. -/
def updateAsset (id : ℕ) (title : Option String) (metadata : Option (Dict String Json)) :
    Handler Unit := do
  let asset ← select fun t => t.assets.lookup id
  match asset with
  | none => refuse 404 "Asset not found"
  | some row => do
    commit fun t => some (t.writeAsset id fun a => { a with
      title := title.getD a.title
      metadata := (metadata.map (merge row.metadata)).getD a.metadata })
    call .query .database

section Deleting

variable (cwd : RealPath) (storageRoot : Text)

/-- `delete_channel`: all its recordings go first, with their assets and media, and then the channel
itself, in one transaction. -/
def deleteChannel (id : ℕ) : Handler Unit := do
  let channel ← select fun t => t.channels.lookup id
  match channel with
  | none => refuse 404 "Channel not found"
  | some row => do
    requireIdleChannel row
    let recordings ← select fun t => t.recordings.entries.filter fun e => e.2.channelId = id
    let marked ← fold (ApiTables.deleteRecording cwd storageRoot) recordings ⟨[], [], []⟩
    commit (flush { marked with channels := [id] })

/-- What `delete_recording` and `delete_asset` do with a recording that they have found. -/
def deleteEnded (id : ℕ) (row : RecordingRow) : Handler Unit :=
  if row.status = .recording then refuse 400 "Cannot delete an active recording"
  else do
    let marked ← ApiTables.deleteRecording cwd storageRoot ⟨[], [], []⟩ ⟨id, row⟩
    commit (flush marked)

/-- `delete_recording`: only an ended one, see `deleteEnded`. -/
def deleteRecording (id : ℕ) : Handler Unit := do
  let recording ← select fun t => t.recordings.lookup id
  match recording with
  | none => refuse 404 "Recording not found"
  | some row => deleteEnded cwd storageRoot id row

/-- `delete_asset`: the asset goes with its recording, since its media are those of the
recording. -/
def deleteAsset (id : ℕ) : Handler Unit := do
  let asset ← select fun t => t.assets.lookup id
  match asset with
  | none => refuse 404 "Asset not found"
  | some a => do
    let recording ← select fun t => t.recordings.lookup a.recordingId
    match recording with
    -- An asset without its recording: only the row goes, no file.
    | none => commit (flush ⟨[id], [], []⟩)
    | some row => deleteEnded cwd storageRoot a.recordingId row

end Deleting

end Endpoint

/-! ## Events -/

/-- The requests that write rows. -/
inductive Request where
  | createChannel (id now : ℕ) (payload : ChannelCreate)
  | updateChannel (id : ℕ) (payload : ChannelUpdate)
  | deleteChannel (id : ℕ)
  | updateRecording (id : ℕ) (metadata : Option (Dict String Json))
  | deleteRecording (id : ℕ)
  | updateAsset (id : ℕ) (title : Option String) (metadata : Option (Dict String Json))
  | deleteAsset (id : ℕ)

/-- What the scheduler, the worker and the post-process worker write, and any change of the
files. -/
inductive Write where
  /-- The status of a channel. -/
  | status (channel : ℕ) (status : ChannelStatus)
  /-- A new recording. -/
  | addRecording (id : ℕ) (row : RecordingRow)
  /-- Any change of a recording that keeps its channel. -/
  | recording (id : ℕ) (f : RecordingRow → RecordingRow)
  /-- A new asset. -/
  | addAsset (id : ℕ) (row : AssetRow)
  /-- Any change of an asset that keeps its recording. -/
  | asset (id : ℕ) (f : AssetRow → AssetRow)
  /-- Any change of the files. -/
  | files (disk : FileTree)

/-- An event: a request in some environment, or a write of another process. -/
inductive Event where
  | request (r : Request) (o : Oracle DbCall)
  | write (w : Write)

section Events

variable (cwd : RealPath) (storageRoot : Text)

/-- The program that answers a request. -/
def Request.program : Request → Handler Unit
  | createChannel id now payload => Endpoint.createChannel id now payload
  | updateChannel id payload => Endpoint.updateChannel id payload
  | deleteChannel id => Endpoint.deleteChannel cwd storageRoot id
  | updateRecording id metadata => Endpoint.updateRecording id metadata
  | deleteRecording id => Endpoint.deleteRecording cwd storageRoot id
  | updateAsset id title metadata => Endpoint.updateAsset id title metadata
  | deleteAsset id => Endpoint.deleteAsset cwd storageRoot id

/-- A write of another process; one that a constraint refuses changes nothing. -/
def Write.effect (t : Tables) : Write → Tables
  | status id st =>
    { t with channels := Dict.modify id (fun row => { row with status := st }) t.channels }
  | addRecording id row => (t.insertRecording id row).getD t
  | recording id f => t.writeRecording id f
  | addAsset id row => (t.insertAsset id row).getD t
  | asset id f => t.writeAsset id f
  | files disk => { t with disk := disk }

/-- The tables after an event, however a request ends. -/
def happen (t : Tables) : Event → Tables
  | .request r o => final o (r.program cwd storageRoot) t
  | .write w => w.effect t

/-- The tables after a sequence of events. -/
def happened (t : Tables) (es : List Event) : Tables := es.foldl (happen cwd storageRoot) t

end Events

/-! ## Rows and constraints -/

namespace Tables

variable {t : Tables}

/-- Another channel has the name. -/
theorem nameTaken_iff {id : ℕ} {name : String} : t.nameTaken id name = true ↔
    ∃ j r, t.channels.lookup j = some r ∧ r.name = name ∧ j ≠ id := by
  unfold nameTaken
  rw [Dict.any_entries]
  simp

/-- The recording has an asset. -/
theorem hasAsset_iff {r : ℕ} : t.hasAsset r = true ↔
    ∃ j a, t.assets.lookup j = some a ∧ a.recordingId = r := by
  unfold hasAsset
  rw [Dict.any_entries]
  simp

/-- A new or changed channel with a name of its own. -/
theorem Consistent.setChannel (h : Consistent t) {channels : Dict ℕ ChannelRow} {id : ℕ}
    {row : ChannelRow} (hfree : ¬ t.nameTaken id row.name = true)
    (hid : ∀ r, channels.lookup id = some r → r = row)
    (hother : ∀ j, j ≠ id → channels.lookup j = t.channels.lookup j)
    (hkeys : ∀ j, j ∈ t.channels → j ∈ channels) :
    Consistent { t with channels := channels } where
  uniqueNames := by
    intro i j r r' hr hr' hname
    rw [nameTaken_iff] at hfree
    by_cases hi : i = id
    · by_cases hj : j = id
      · rw [hi, hj]
      · subst hi
        obtain rfl := hid r hr
        rw [show channels.lookup j = t.channels.lookup j from hother j hj] at hr'
        exact absurd ⟨j, r', hr', hname.symm, hj⟩ hfree
    · rw [show channels.lookup i = t.channels.lookup i from hother i hi] at hr
      by_cases hj : j = id
      · subst hj
        obtain rfl := hid r' hr'
        exact absurd ⟨i, r, hr, hname, hi⟩ hfree
      · rw [show channels.lookup j = t.channels.lookup j from hother j hj] at hr'
        exact h.uniqueNames i j r r' hr hr' hname
  ofChannel := fun i r hr => hkeys _ (h.ofChannel i r hr)
  ofRecording := h.ofRecording
  uniqueAssets := h.uniqueAssets

/-- A new channel has a name of its own. -/
theorem Consistent.insertChannel (h : Consistent t) {id : ℕ} {row : ChannelRow} {t' : Tables}
    (ht : t.insertChannel id row = some t') : Consistent t' := by
  unfold Tables.insertChannel at ht
  split_ifs at ht with hcond
  obtain rfl := Option.some.inj ht
  rw [not_or] at hcond
  apply h.setChannel hcond.2
  · intro r hr
    rw [Dict.lookup_set, if_pos rfl] at hr
    exact (Option.some.inj hr).symm
  · intro j hj
    rw [Dict.lookup_set, if_neg hj]
  · intro j hj
    exact (Dict.mem_set _ _ _ _).mpr (Or.inr hj)

/-- A change of a channel is checked against the names of the others. -/
theorem Consistent.writeChannel (h : Consistent t) {id : ℕ} {row : ChannelRow} {t' : Tables}
    (ht : t.writeChannel id row = some t') : Consistent t' := by
  unfold Tables.writeChannel at ht
  split_ifs at ht with hcond
  obtain rfl := Option.some.inj ht
  apply h.setChannel hcond
  · intro r hr
    rw [Dict.lookup_modify, if_pos rfl, Option.map_eq_some_iff] at hr
    obtain ⟨_, _, hr⟩ := hr
    exact hr.symm
  · intro j hj
    rw [Dict.lookup_modify, if_neg hj]
  · intro j hj
    exact (Dict.mem_modify _ _ _ _).mpr hj

/-- A new channel is all that is new. -/
theorem insertChannel_others {id : ℕ} {row : ChannelRow} {t' : Tables}
    (ht : t.insertChannel id row = some t') :
    t'.recordings = t.recordings ∧ t'.assets = t.assets := by
  unfold Tables.insertChannel at ht
  split_ifs at ht
  obtain rfl := Option.some.inj ht
  exact ⟨rfl, rfl⟩

/-- The other tables do not move. -/
theorem writeChannel_others {id : ℕ} {row : ChannelRow} {t' : Tables}
    (ht : t.writeChannel id row = some t') :
    t'.recordings = t.recordings ∧ t'.assets = t.assets := by
  unfold Tables.writeChannel at ht
  split_ifs at ht
  obtain rfl := Option.some.inj ht
  exact ⟨rfl, rfl⟩

/-- A status write names no channel anew. -/
theorem Consistent.writeStatus (h : Consistent t) (id : ℕ) (st : ChannelStatus) :
    Consistent { t with
      channels := Dict.modify id (fun row => { row with status := st }) t.channels } where
  uniqueNames := by
    intro i j r r' hr hr' hname
    have hold : ∀ k u, (Dict.modify id (fun row : ChannelRow => { row with status := st })
        t.channels).lookup k = some u → ∃ v, t.channels.lookup k = some v ∧ v.name = u.name := by
      intro k u hu
      rw [Dict.lookup_modify] at hu
      by_cases hk : k = id
      · rw [if_pos hk, Option.map_eq_some_iff] at hu
        obtain ⟨v, hv, rfl⟩ := hu
        exact ⟨v, hk ▸ hv, rfl⟩
      · rw [if_neg hk] at hu
        exact ⟨u, hu, rfl⟩
    obtain ⟨v, hv, hvn⟩ := hold i r hr
    obtain ⟨v', hv', hvn'⟩ := hold j r' hr'
    exact h.uniqueNames i j v v' hv hv' (by rw [hvn, hvn', hname])
  ofChannel := fun i r hr => (Dict.mem_modify _ _ _ _).mpr (h.ofChannel i r hr)
  ofRecording := h.ofRecording
  uniqueAssets := h.uniqueAssets

/-- A new recording is one of a channel that exists. -/
theorem Consistent.insertRecording (h : Consistent t) {id : ℕ} {row : RecordingRow}
    {t' : Tables} (ht : t.insertRecording id row = some t') : Consistent t' := by
  unfold Tables.insertRecording at ht
  split_ifs at ht with hcond
  obtain rfl := Option.some.inj ht
  rw [not_or, not_not] at hcond
  refine ⟨h.uniqueNames, fun i r hr => ?_, fun i a ha => ?_, h.uniqueAssets⟩
  · rw [Dict.lookup_set] at hr
    by_cases hi : i = id
    · rw [if_pos hi] at hr
      obtain rfl := Option.some.inj hr
      exact hcond.2
    · rw [if_neg hi] at hr
      exact h.ofChannel i r hr
  · exact (Dict.mem_set _ _ _ _).mpr (Or.inr (h.ofRecording i a ha))

/-- No column that is written takes part in a constraint. -/
theorem Consistent.writeRecording (h : Consistent t) (id : ℕ) (f : RecordingRow → RecordingRow) :
    Consistent (t.writeRecording id f) := by
  refine ⟨h.uniqueNames, fun i r hr => ?_, fun i a ha => ?_, h.uniqueAssets⟩
  · have hr : (Dict.modify id (fun row => { f row with channelId := row.channelId })
        t.recordings).lookup i = some r := hr
    rw [Dict.lookup_modify] at hr
    by_cases hi : i = id
    · rw [if_pos hi, Option.map_eq_some_iff] at hr
      obtain ⟨old, hold, rfl⟩ := hr
      exact h.ofChannel id old hold
    · rw [if_neg hi] at hr
      exact h.ofChannel i r hr
  · exact (Dict.mem_modify _ _ _ _).mpr (h.ofRecording i a ha)

/-- A new asset is the first one of a recording that exists. -/
theorem Consistent.insertAsset (h : Consistent t) {id : ℕ} {row : AssetRow} {t' : Tables}
    (ht : t.insertAsset id row = some t') : Consistent t' := by
  unfold Tables.insertAsset at ht
  split_ifs at ht with hcond
  obtain rfl := Option.some.inj ht
  rw [not_or, not_or, not_not, hasAsset_iff] at hcond
  obtain ⟨_, hrec, hfree⟩ := hcond
  have hcases : ∀ i a, (Dict.set id row t.assets).lookup i = some a →
      i = id ∧ a = row ∨ t.assets.lookup i = some a := by
    intro i a ha
    rw [Dict.lookup_set] at ha
    by_cases hi : i = id
    · rw [if_pos hi] at ha
      exact Or.inl ⟨hi, (Option.some.inj ha).symm⟩
    · rw [if_neg hi] at ha
      exact Or.inr ha
  refine ⟨h.uniqueNames, h.ofChannel, fun i a ha => ?_, fun i j a b ha hb heq => ?_⟩
  · rcases hcases i a ha with ⟨_, rfl⟩ | ha
    · exact hrec
    · exact h.ofRecording i a ha
  · rcases hcases i a ha with ⟨rfl, rfl⟩ | hi <;> rcases hcases j b hb with ⟨rfl, rfl⟩ | hj
    · rfl
    · exact absurd ⟨j, b, hj, heq.symm⟩ hfree
    · exact absurd ⟨i, a, hi, heq⟩ hfree
    · exact h.uniqueAssets i j a b hi hj heq

/-- An asset keeps its recording. -/
theorem Consistent.writeAsset (h : Consistent t) (id : ℕ) (f : AssetRow → AssetRow) :
    Consistent (t.writeAsset id f) := by
  have hold : ∀ i a, (t.writeAsset id f).assets.lookup i = some a →
      ∃ b, t.assets.lookup i = some b ∧ b.recordingId = a.recordingId := by
    intro i a ha
    have ha : (Dict.modify id (fun row => { f row with recordingId := row.recordingId })
        t.assets).lookup i = some a := ha
    rw [Dict.lookup_modify] at ha
    by_cases hi : i = id
    · rw [if_pos hi, Option.map_eq_some_iff] at ha
      obtain ⟨old, hold, rfl⟩ := ha
      exact ⟨old, hi ▸ hold, rfl⟩
    · rw [if_neg hi] at ha
      exact ⟨a, ha, rfl⟩
  refine ⟨h.uniqueNames, h.ofChannel, fun i a ha => ?_, fun i j a b ha hb heq => ?_⟩
  · obtain ⟨b, hb, hid⟩ := hold i a ha
    exact hid ▸ h.ofRecording i b hb
  · obtain ⟨a', ha', hida⟩ := hold i a ha
    obtain ⟨b', hb', hidb⟩ := hold j b hb
    exact h.uniqueAssets i j a' b' ha' hb' (by rw [hida, hidb, heq])

end Tables

/-! ## Deletions -/

/-- The rows are as before. -/
def SameRows (t t' : Tables) : Prop :=
  t'.channels = t.channels ∧ t'.recordings = t.recordings ∧ t'.assets = t.assets

/-- **The recordings `gone` are removed, with their assets**, and no others. -/
structure Removed (gone : ℕ → Prop) (t t' : Tables) : Prop where
  recordings : ∀ j, (gone j → t'.recordings.lookup j = none) ∧
    (¬ gone j → t'.recordings.lookup j = t.recordings.lookup j)
  assets : ∀ j, ((∃ a, t.assets.lookup j = some a ∧ gone a.recordingId) →
      t'.assets.lookup j = none) ∧
    ((¬ ∃ a, t.assets.lookup j = some a ∧ gone a.recordingId) →
      t'.assets.lookup j = t.assets.lookup j)

/-- The path lies at or below the media of a recording: its directory, a path of its asset, or
the directory of a playlist. -/
def Below (cwd : RealPath) (row : RecordingRow) (asset : Option Serving.AssetRow) (p : RealPath) :
    Prop :=
  ∃ s, (s = Cleanup.resolve cwd (.ofText row.storagePath) ∨
      ∃ z ∈ Cleanup.singleFiles cwd asset ++ Cleanup.playlists cwd asset,
        s = z ∨ RealPath.suffix z = Cleanup.playlistSuffix ∧ s = Cleanup.parent z) ∧ s <+: p

/-- The path lies at or below the media of one of the recordings. -/
def BelowAny (cwd : RealPath) (t : Tables) (gone : ℕ → Prop) (p : RealPath) : Prop :=
  ∃ j row, gone j ∧ t.recordings.lookup j = some row ∧
    (Below cwd row none p ∨
      ∃ i a, t.assets.lookup i = some a ∧ a.recordingId = j ∧ Below cwd row (some a.paths) p)

/-- Files outside the media of the recordings `gone`, or outside the storage root, stay. -/
def Confined (cwd : RealPath) (storageRoot : Text) (gone : ℕ → Prop) (t t' : Tables) : Prop :=
  ∀ p, (¬ BelowAny cwd t gone p ∨ ¬ Cleanup.resolve cwd (.ofText storageRoot) <+: p) →
    t'.disk.kind p = t.disk.kind p

/-- The assets of a recording. -/
def assetIds (t : Tables) (r : ℕ) : List ℕ :=
  (t.assets.entries.filter fun a => a.2.recordingId = r).map Sigma.fst

section Deletions

variable {cwd : RealPath} {storageRoot : Text} {t t' : Tables} {o : Oracle DbCall} {n : ℕ}

/-- The assets that are deleted with a recording are exactly its own. -/
theorem mem_assetIds {r j : ℕ} :
    j ∈ assetIds t r ↔ ∃ a, t.assets.lookup j = some a ∧ a.recordingId = r := by
  unfold assetIds
  simp only [List.mem_map, List.mem_filter, decide_eq_true_eq]
  constructor
  · rintro ⟨⟨i, a⟩, ⟨hmem, hr⟩, rfl⟩
    exact ⟨a, Dict.mem_entries_iff.mp hmem, hr⟩
  · rintro ⟨a, ha, hr⟩
    exact ⟨⟨j, a⟩, ⟨Dict.mem_entries_iff.mpr ha, hr⟩, rfl⟩

@[simp] theorem wp_select {α : Type} {Q : α → ℕ → Tables → Prop} {E : Failure → ℕ → Tables → Prop}
    {C : Tables → Prop} (f : Tables → α) :
    wp o (select f) Q E C n t ↔ (o n .query = .ok → Q (f t) (n + 1) t) ∧
      (o n .query = .fail → E .database (n + 1) t) ∧ (o n .query = .crash → C t) := by
  unfold select
  rw [wp_bind, wp_call]
  rfl

/-- A lookup that finds one row at most. -/
theorem wp_oneOrNone {α : Type} {Q : Option α → ℕ → Tables → Prop}
    {E : Failure → ℕ → Tables → Prop} {C : Tables → Prop} {rows : Tables → List α}
    (hone : rows t = [] ∨ ∃ a, rows t = [a]) :
    wp o (oneOrNone rows) Q E C n t ↔ (o n .query = .ok → Q (rows t).head? (n + 1) t) ∧
      (o n .query = .fail → E .database (n + 1) t) ∧ (o n .query = .crash → C t) := by
  unfold oneOrNone
  rw [wp_bind, wp_select]
  rcases hone with hrows | ⟨a, hrows⟩ <;>
  · rw [hrows]
    rfl

/-- No two channels have the name. -/
theorem Tables.Consistent.one_channel (h : t.Consistent)
    {p : (Sigma fun _ : ℕ => ChannelRow) → Bool} {name : String}
    (hp : ∀ e, p e = true → e.2.name = name) :
    t.channels.entries.filter p = [] ∨ ∃ e, t.channels.entries.filter p = [e] :=
  Dict.filter_entries_of_unique fun i j v w hv hw hpv hpw =>
    h.uniqueNames i j v w hv hw ((hp _ hpv).trans (hp _ hpw).symm)

/-- No two assets are of the recording. -/
theorem Tables.Consistent.one_asset (h : t.Consistent) (r : ℕ) :
    (t.assets.entries.filter fun a => a.2.recordingId = r) = [] ∨
      ∃ a, (t.assets.entries.filter fun a => a.2.recordingId = r) = [a] :=
  Dict.filter_entries_of_unique fun i j a b ha hb hai hbj =>
    h.uniqueAssets i j a b ha hb ((of_decide_eq_true hai).trans (of_decide_eq_true hbj).symm)

/-- A commit that the constraints accept. -/
theorem wp_commit {Q : Unit → ℕ → Tables → Prop} {E : Failure → ℕ → Tables → Prop}
    {C : Tables → Prop} {change : Tables → Option Tables} (hchange : change t = some t')
    (hQ : Q () (n + 1) t') (hE : E .database (n + 1) t) (hC : C t) :
    wp o (commit change) Q E C n t := by
  unfold commit
  rw [wp_bind, wp_call]
  refine ⟨fun _ => ?_, fun _ => hE, fun _ => hC⟩
  rw [wp_bind, wp_reads, hchange]
  exact hQ

/-- **What `delete_recording_media` can reach.** -/
theorem kind_removeMedia (row : RecordingRow) (asset : Option Serving.AssetRow) {p : RealPath}
    (hp : ¬ Below cwd row asset p ∨ ¬ Cleanup.resolve cwd (.ofText storageRoot) <+: p) :
    (removeMedia cwd storageRoot row asset t).disk.kind p = t.disk.kind p := by
  apply (Cleanup.kind_delete p).2
  rintro ⟨s, hs, hroot, hsp⟩
  rcases hp with hp | hp
  · apply hp
    rcases hs with rfl | ⟨z, hz, rfl | ⟨hleads, rfl⟩⟩
    · exact ⟨_, Or.inl rfl, hsp⟩
    · exact ⟨_, Or.inr ⟨_, hz.1, Or.inl rfl⟩, hsp⟩
    · exact ⟨_, Or.inr ⟨_, hz.1, Or.inr ⟨hleads.2, rfl⟩⟩, hsp⟩
  · exact hp (hroot.trans hsp)

/-- What is below the directory of a recording is so with any asset. -/
theorem Below.of_none {row : RecordingRow} {asset : Option Serving.AssetRow} {p : RealPath}
    (h : Below cwd row none p) : Below cwd row asset p := by
  obtain ⟨s, rfl | ⟨z, hz, _⟩, hsp⟩ := h
  · exact ⟨_, Or.inl rfl, hsp⟩
  · exact absurd hz (by simp [Cleanup.singleFiles, Cleanup.playlists, Cleanup.columns])

theorem SameRows.refl (t : Tables) : SameRows t t := ⟨rfl, rfl, rfl⟩

/-- The same rows meet the same constraints. -/
theorem SameRows.consistent (h : SameRows t t') (hc : t.Consistent) : t'.Consistent := by
  obtain ⟨hch, hrec, has⟩ := h
  exact ⟨by rw [hch]; exact hc.uniqueNames, by rw [hrec, hch]; exact hc.ofChannel,
    by rw [has, hrec]; exact hc.ofRecording, by rw [has]; exact hc.uniqueAssets⟩

/-- The middle of a deletion: the media of the recordings `done` may have gone, no row has. -/
structure Midway (cwd : RealPath) (storageRoot : Text) (gone : ℕ → Prop) (t t' : Tables) :
    Prop where
  rows : SameRows t t'
  disk : Confined cwd storageRoot gone t t'

theorem Midway.refl (cwd : RealPath) (storageRoot : Text) (gone : ℕ → Prop) (t : Tables) :
    Midway cwd storageRoot gone t t := ⟨.refl t, fun _ _ => rfl⟩

/-- Media of one more recording. -/
theorem Midway.removeMedia {gone : ℕ → Prop} (h : Midway cwd storageRoot gone t t') {r : ℕ}
    {row : RecordingRow} {asset : Option Serving.AssetRow} (hgone : gone r)
    (hrow : t.recordings.lookup r = some row)
    (hasset : ∀ a, asset = some a → ∃ i b, t.assets.lookup i = some b ∧ b.recordingId = r ∧
      b.paths = a) :
    Midway cwd storageRoot gone t (removeMedia cwd storageRoot row asset t') := by
  refine ⟨h.rows, fun p hp => ?_⟩
  rw [kind_removeMedia row asset, h.disk p hp]
  rcases hp with hp | hp
  · refine Or.inl fun hbelow => hp ⟨r, row, hgone, hrow, ?_⟩
    cases asset with
    | none => exact Or.inl hbelow
    | some a =>
      obtain ⟨i, b, hb, hbr, rfl⟩ := hasset a rfl
      exact Or.inr ⟨i, b, hb, hbr, hbelow⟩
  · exact Or.inr hp

/-- **`_delete_recording`** marks the recording and its assets. -/
theorem wp_deleteRecording (h : t.Consistent) (gone : ℕ → Prop)
    (hmid : Midway cwd storageRoot gone t t') {marked : Marked}
    {e : Sigma fun _ : ℕ => RecordingRow} (hgone : gone e.1)
    (hrow : t.recordings.lookup e.1 = some e.2) :
    wp o (deleteRecording cwd storageRoot marked e)
      (fun m _ t'' => m = ⟨marked.assets ++ assetIds t e.1, marked.recordings ++ [e.1],
        marked.channels⟩ ∧ Midway cwd storageRoot gone t t'')
      (fun f _ t'' => f = .database ∧ Midway cwd storageRoot gone t t'')
      (Midway cwd storageRoot gone t) n t' := by
  have hassets : t'.assets = t.assets := hmid.rows.2.2
  have hone : (t'.assets.entries.filter fun a => a.2.recordingId = e.1) = [] ∨
      ∃ a, (t'.assets.entries.filter fun a => a.2.recordingId = e.1) = [a] := by
    rw [hassets]
    exact h.one_asset e.1
  unfold deleteRecording
  rw [wp_bind, wp_oneOrNone hone, hassets]
  refine ⟨fun _ => ?_, fun _ => ⟨rfl, hmid⟩, fun _ => hmid⟩
  rcases h.one_asset e.1 with hlist | ⟨a, hlist⟩
  · rw [hlist]
    refine ⟨?_, hmid.removeMedia hgone hrow (by simp)⟩
    simp [assetIds, hlist]
  · have ha : t.assets.lookup a.1 = some a.2 ∧ a.2.recordingId = e.1 := by
      have hmem : a ∈ t.assets.entries.filter fun a => a.2.recordingId = e.1 := by
        rw [hlist]
        exact List.mem_singleton_self a
      rw [List.mem_filter] at hmem
      exact ⟨Dict.mem_entries_iff.mp hmem.1, of_decide_eq_true hmem.2⟩
    rw [hlist]
    refine ⟨?_, hmid.removeMedia hgone hrow ?_⟩
    · simp [assetIds, hlist]
    · intro b hb
      exact ⟨a.1, a.2, ha.1, ha.2, Option.some.inj hb⟩

/-- **The loop of `delete_channel`** marks all recordings that it has found. -/
theorem wp_deleteRecordings (h : t.Consistent) (gone : ℕ → Prop)
    (rows : List (Sigma fun _ : ℕ => RecordingRow))
    (hrows : ∀ e ∈ rows, gone e.1 ∧ t.recordings.lookup e.1 = some e.2) :
    wp o (fold (deleteRecording cwd storageRoot) rows ⟨[], [], []⟩)
      (fun m _ t' => m = ⟨rows.flatMap fun e => assetIds t e.1, rows.map Sigma.fst, []⟩ ∧
        Midway cwd storageRoot gone t t')
      (fun f _ t' => f = .database ∧ Midway cwd storageRoot gone t t')
      (Midway cwd storageRoot gone t) n t := by
  refine wp_fold (I := fun todo m t' => ∃ done, rows = done ++ todo ∧
    m = ⟨done.flatMap fun e => assetIds t e.1, done.map Sigma.fst, []⟩ ∧
      Midway cwd storageRoot gone t t') ?_ ?_ rows _ n t ⟨[], rfl, rfl, .refl _ _ _ t⟩
  · rintro e todo m n s ⟨done, hsplit, rfl, hmid⟩
    obtain ⟨hgone, hrow⟩ := hrows e (by rw [hsplit]; simp)
    refine wp_mono (wp_deleteRecording h gone hmid hgone hrow) ?_ (fun _ _ _ hf => hf)
      (fun _ hc => hc)
    rintro m n s ⟨rfl, hmid⟩
    exact ⟨done ++ [e], by rw [hsplit, List.append_assoc]; rfl, by simp, hmid⟩
  · rintro m n s ⟨done, hsplit, rfl, hmid⟩
    rw [List.append_nil] at hsplit
    exact ⟨by rw [hsplit], hmid⟩

/-- Deleting assets never fails. -/
theorem foldlM_removeAsset (ids : List ℕ) (t : Tables) :
    ids.foldlM Tables.removeAsset t = some { t with assets := Dict.eraseAll ids t.assets } := by
  induction ids generalizing t with
  | nil => rfl
  | cons id ids ih =>
    rw [List.foldlM_cons]
    exact ih _

/-- Recordings without assets can be deleted. -/
theorem foldlM_removeRecording (ids : List ℕ) (t : Tables)
    (h : ∀ id ∈ ids, t.hasAsset id = false) : ids.foldlM Tables.removeRecording t =
      some { t with recordings := Dict.eraseAll ids t.recordings } := by
  induction ids generalizing t with
  | nil => rfl
  | cons id ids ih =>
    rw [List.foldlM_cons]
    have hfirst : t.removeRecording id = some { t with recordings := t.recordings.erase id } := by
      unfold Tables.removeRecording
      rw [if_neg (by rw [h id List.mem_cons_self]; exact Bool.false_ne_true)]
    rw [hfirst]
    exact ih { t with recordings := t.recordings.erase id }
      fun id' hid' => h id' (List.mem_cons_of_mem _ hid')

/-- Channels without recordings can be deleted. -/
theorem foldlM_removeChannel (ids : List ℕ) (t : Tables)
    (h : ∀ id ∈ ids, ∀ j r, t.recordings.lookup j = some r → r.channelId ≠ id) :
    ids.foldlM Tables.removeChannel t =
      some { t with channels := Dict.eraseAll ids t.channels } := by
  induction ids generalizing t with
  | nil => rfl
  | cons id ids ih =>
    have hfirst : t.removeChannel id = some { t with channels := t.channels.erase id } := by
      unfold Tables.removeChannel
      rw [if_neg]
      intro hany
      obtain ⟨j, r, hr, hc⟩ := Dict.any_entries.mp hany
      exact h id List.mem_cons_self j r hr (of_decide_eq_true hc)
    rw [List.foldlM_cons, hfirst]
    exact ih { t with channels := t.channels.erase id }
      fun id' hid' => h id' (List.mem_cons_of_mem _ hid')

/-- The assets of the recordings `ids` are gone, and no others. -/
theorem lookup_flushed_assets (hrows : SameRows t t') (ids : List ℕ) (j : ℕ) :
    (Dict.eraseAll (ids.flatMap (assetIds t)) t'.assets).lookup j =
      if (∃ a, t.assets.lookup j = some a ∧ a.recordingId ∈ ids) then none
      else t.assets.lookup j := by
  rw [Dict.lookup_eraseAll, hrows.2.2]
  refine if_congr ?_ rfl rfl
  simp only [List.mem_flatMap, mem_assetIds]
  constructor
  · rintro ⟨r, hr, a, ha, rfl⟩
    exact ⟨a, ha, hr⟩
  · rintro ⟨a, ha, hr⟩
    exact ⟨_, hr, a, ha, rfl⟩

/-- **The constraints accept a flush** that takes recordings with all their assets, and channels
with all their recordings. -/
theorem flush_marked (hrows : SameRows t t') (ids channels : List ℕ)
    (hchannels : ∀ c ∈ channels, ∀ j r, t.recordings.lookup j = some r → r.channelId = c →
      j ∈ ids) : ∃ t'', flush ⟨ids.flatMap (assetIds t), ids, channels⟩ t' = some t'' ∧
      Removed (· ∈ ids) t t'' ∧ t''.channels = Dict.eraseAll channels t.channels ∧
      t''.disk = t'.disk := by
  have hassets := lookup_flushed_assets hrows ids
  have hfree : ∀ id ∈ ids, Tables.hasAsset
      { t' with assets := Dict.eraseAll (ids.flatMap (assetIds t)) t'.assets } id = false := by
    intro id hid
    rw [Bool.eq_false_iff]
    intro hhas
    obtain ⟨j, a, ha, rfl⟩ := Tables.hasAsset_iff.mp hhas
    have ha : (Dict.eraseAll (ids.flatMap (assetIds t)) t'.assets).lookup j = some a := ha
    rw [hassets] at ha
    split_ifs at ha with hno
    exact hno ⟨a, ha, hid⟩
  refine ⟨⟨Dict.eraseAll channels t'.channels, Dict.eraseAll ids t'.recordings,
    Dict.eraseAll (ids.flatMap (assetIds t)) t'.assets, t'.disk⟩, ?_, ⟨?_, ?_⟩, ?_, rfl⟩
  · unfold flush
    rw [foldlM_removeAsset]
    simp only [Option.bind_eq_bind, Option.bind_some]
    rw [foldlM_removeRecording _ _ hfree]
    simp only [Option.bind_some]
    apply foldlM_removeChannel
    intro c hc j r hr hrc
    have hr : (Dict.eraseAll ids t'.recordings).lookup j = some r := hr
    rw [Dict.lookup_eraseAll, hrows.2.1] at hr
    split_ifs at hr with hno
    exact hno (hchannels c hc j r hr hrc)
  · intro j
    show (j ∈ ids → (Dict.eraseAll ids t'.recordings).lookup j = none) ∧
      (j ∉ ids → (Dict.eraseAll ids t'.recordings).lookup j = t.recordings.lookup j)
    rw [Dict.lookup_eraseAll, hrows.2.1]
    exact ⟨fun hj => if_pos hj, fun hj => if_neg hj⟩
  · intro j
    have hj := hassets j
    exact ⟨fun hin => hj.trans (if_pos hin), fun hout => hj.trans (if_neg hout)⟩
  · rw [hrows.1]

/-- What a deletion does where it works, and where it does not. -/
structure Taken (cwd : RealPath) (storageRoot : Text) (gone : ℕ → Prop) (channels : List ℕ)
    (t t' : Tables) : Prop where
  removed : Removed gone t t'
  channels : t'.channels = Dict.eraseAll channels t.channels
  disk : Confined cwd storageRoot gone t t'

/-- A commit at the end of a deletion: rows and files are both gone. -/
theorem taken_of_flush {gone : ℕ → Prop} {ids channels : List ℕ} {t'' : Tables}
    (hgone : ∀ j, gone j ↔ j ∈ ids) (hmid : Midway cwd storageRoot gone t t')
    (hremoved : Removed (· ∈ ids) t t'') (hch : t''.channels = Dict.eraseAll channels t.channels)
    (hdisk : t''.disk = t'.disk) : Taken cwd storageRoot gone channels t t'' := by
  obtain rfl : gone = (· ∈ ids) := funext fun j => propext (hgone j)
  exact ⟨hremoved, hch, fun p hp => by rw [hdisk]; exact hmid.disk p hp⟩

/-- How the deletion of the recordings `gone` and of `channels` can end; it works where it is
`allowed` only. -/
def WpTakes (cwd : RealPath) (storageRoot : Text) (gone : ℕ → Prop) (channels : List ℕ)
    (allowed : Prop) (o : Oracle DbCall) (m : Handler Unit) (n : ℕ) (t : Tables) : Prop :=
  wp o m (fun _ _ t' => allowed ∧ Taken cwd storageRoot gone channels t t')
    (fun f _ t' => (f = .database ∨ ∃ e, f = .http e) ∧ Midway cwd storageRoot gone t t')
    (Midway cwd storageRoot gone t) n t

/-- The deletion of one recording: the guard, the files, the rows, the commit. -/
theorem wp_deleteEnded (h : t.Consistent) {id : ℕ} {row : RecordingRow} {gone : ℕ → Prop}
    {allowed : Prop} (hallowed : row.status ≠ .recording → allowed)
    (hgone : ∀ j, gone j ↔ j = id) (hrow : t.recordings.lookup id = some row) :
    WpTakes cwd storageRoot gone [] allowed o (Endpoint.deleteEnded cwd storageRoot id row) n
      t := by
  unfold WpTakes Endpoint.deleteEnded
  rw [wp_ite]
  refine ⟨fun _ => ⟨Or.inr ⟨_, rfl⟩, .refl _ _ _ t⟩, fun hended => ?_⟩
  rw [wp_bind]
  refine wp_mono (wp_deleteRecording h gone (.refl _ _ _ t)
    ((hgone id).mpr rfl) hrow) ?_ ?_ (fun _ hc => hc)
  · rintro m n t' ⟨rfl, hmid⟩
    obtain ⟨t'', hflush, hremoved, hch, hdisk⟩ := flush_marked hmid.rows [id] []
      (by simp)
    rw [List.flatMap_singleton] at hflush
    refine wp_commit hflush ?_ ⟨Or.inl rfl, hmid⟩ hmid
    exact ⟨hallowed hended, taken_of_flush (fun j => by rw [hgone j, List.mem_singleton]) hmid
      hremoved hch hdisk⟩
  · rintro f n t' ⟨rfl, hmid⟩
    exact ⟨Or.inl rfl, hmid⟩

end Deletions

section Requests

variable {cwd : RealPath} {storageRoot : Text} {t : Tables}

/-- The requests that delete rows. -/
def Request.Deletes : Request → Prop
  | deleteChannel _ | deleteRecording _ | deleteAsset _ => True
  | _ => False

/-- The recordings that a deletion takes: those of the channel, the one, or that of the asset. -/
def Request.doomed (t : Tables) : Request → ℕ → Prop
  | deleteChannel id, j => ∃ r, t.recordings.lookup j = some r ∧ r.channelId = id
  | deleteRecording id, j => j = id
  | deleteAsset id, j => ∃ a, t.assets.lookup id = some a ∧ a.recordingId = j
  | _, _ => False

/-- The channel that a deletion takes. -/
def Request.doomedChannels : Request → List ℕ
  | deleteChannel id => [id]
  | _ => []

/-- When a deletion is allowed: the channel is idle or in error, the recording has ended. -/
def Request.Allowed (t : Tables) : Request → Prop
  | deleteChannel id => ∃ row, t.channels.lookup id = some row ∧
      row.status ∈ [ChannelStatus.idle, .error]
  | deleteRecording id => ∃ row, t.recordings.lookup id = some row ∧ row.status ≠ .recording
  | deleteAsset id => ∃ a row, t.assets.lookup id = some a ∧
      t.recordings.lookup a.recordingId = some row ∧ row.status ≠ .recording
  | _ => False

/-- The guard lets idle and failed channels pass and refuses the others. -/
theorem wp_requireIdleChannel {o : Oracle DbCall} {n : ℕ} {row : ChannelRow}
    {Q : Unit → ℕ → Tables → Prop} {E : Failure → ℕ → Tables → Prop} {C : Tables → Prop}
    (hQ : row.status ∈ [ChannelStatus.idle, .error] → Q () n t)
    (hE : ∀ e, E (.http e) n t) : wp o (requireIdleChannel row) Q E C n t := by
  unfold requireIdleChannel
  rw [wp_ite]
  exact ⟨fun _ => hE _, fun hidle => hQ (not_not.mp hidle)⟩

/-- **`delete_channel`**: its recordings go first, one after another, then all rows at once. -/
theorem wp_deleteChannel (cwd : RealPath) (storageRoot : Text) (h : t.Consistent)
    (o : Oracle DbCall) (n : ℕ) (id : ℕ) :
    WpTakes cwd storageRoot ((Request.deleteChannel id).doomed t) [id]
      ((Request.deleteChannel id).Allowed t) o (Endpoint.deleteChannel cwd storageRoot id) n t := by
  have hmid : Midway cwd storageRoot ((Request.deleteChannel id).doomed t) t t := .refl _ _ _ t
  unfold WpTakes Endpoint.deleteChannel
  rw [wp_bind, wp_select]
  refine ⟨fun _ => ?_, fun _ => ⟨Or.inl rfl, hmid⟩, fun _ => hmid⟩
  cases hrow : t.channels.lookup id with
  | none => exact ⟨Or.inr ⟨_, rfl⟩, hmid⟩
  | some row =>
    dsimp only
    rw [wp_bind]
    refine wp_requireIdleChannel (fun hidle => ?_) fun e => ⟨Or.inr ⟨e, rfl⟩, hmid⟩
    rw [wp_bind, wp_select]
    refine ⟨fun _ => ?_, fun _ => ⟨Or.inl rfl, hmid⟩, fun _ => hmid⟩
    -- The recordings that the query returns are the doomed ones.
    have hmem : ∀ e, e ∈ t.recordings.entries.filter (fun e => e.2.channelId = id) ↔
        t.recordings.lookup e.1 = some e.2 ∧ e.2.channelId = id := by
      intro e
      rw [List.mem_filter, decide_eq_true_eq]
      exact and_congr_left fun _ => Dict.mem_entries_iff
    have hdoomed : ∀ j, (Request.deleteChannel id).doomed t j ↔
        j ∈ (t.recordings.entries.filter fun e => e.2.channelId = id).map Sigma.fst := by
      intro j
      rw [List.mem_map]
      constructor
      · rintro ⟨r, hr, hc⟩
        exact ⟨⟨j, r⟩, (hmem ⟨j, r⟩).mpr ⟨hr, hc⟩, rfl⟩
      · rintro ⟨e, he, rfl⟩
        obtain ⟨he, hc⟩ := (hmem e).mp he
        exact ⟨e.2, he, hc⟩
    rw [wp_bind]
    refine wp_mono (wp_deleteRecordings h ((Request.deleteChannel id).doomed t) _ ?_)
      ?_ ?_ (fun _ hc => hc)
    · intro e he
      obtain ⟨he, hc⟩ := (hmem e).mp he
      exact ⟨⟨e.2, he, hc⟩, he⟩
    · rintro m n t' ⟨rfl, hmid⟩
      obtain ⟨t'', hflush, hremoved, hch, hdisk⟩ := flush_marked hmid.rows
        ((t.recordings.entries.filter fun e => e.2.channelId = id).map Sigma.fst) [id] (by
          intro c hc j r hlook hrc
          obtain rfl := List.mem_singleton.mp hc
          exact (hdoomed j).mp ⟨r, hlook, hrc⟩)
      rw [List.flatMap_map] at hflush
      refine wp_commit hflush ?_ ⟨Or.inl rfl, hmid⟩ hmid
      exact ⟨⟨row, hrow, hidle⟩, taken_of_flush hdoomed hmid hremoved hch hdisk⟩
    · rintro f n t' ⟨rfl, hmid⟩
      exact ⟨Or.inl rfl, hmid⟩

/-- **How a deletion can end.** -/
theorem wp_deletes (cwd : RealPath) (storageRoot : Text) (h : t.Consistent) (o : Oracle DbCall)
    (n : ℕ) {r : Request} (hr : r.Deletes) : WpTakes cwd storageRoot (r.doomed t)
      r.doomedChannels (r.Allowed t) o (r.program cwd storageRoot) n t := by
  have hmid : Midway cwd storageRoot (r.doomed t) t t := .refl _ _ _ t
  cases r with
  | createChannel | updateChannel | updateRecording | updateAsset => exact hr.elim
  | deleteChannel id => exact wp_deleteChannel cwd storageRoot h o n id
  | deleteRecording id =>
    show wp o (Endpoint.deleteRecording cwd storageRoot id) _ _ _ n t
    unfold Endpoint.deleteRecording
    rw [wp_bind, wp_select]
    refine ⟨fun _ => ?_, fun _ => ⟨Or.inl rfl, hmid⟩, fun _ => hmid⟩
    cases hrow : t.recordings.lookup id with
    | none => exact ⟨Or.inr ⟨_, rfl⟩, hmid⟩
    | some row => exact wp_deleteEnded h (fun hended => ⟨row, hrow, hended⟩) (fun _ => Iff.rfl) hrow
  | deleteAsset id =>
    show wp o (Endpoint.deleteAsset cwd storageRoot id) _ _ _ n t
    unfold Endpoint.deleteAsset
    rw [wp_bind, wp_select]
    refine ⟨fun _ => ?_, fun _ => ⟨Or.inl rfl, hmid⟩, fun _ => hmid⟩
    cases ha : t.assets.lookup id with
    | none => exact ⟨Or.inr ⟨_, rfl⟩, hmid⟩
    | some a =>
      dsimp only
      rw [wp_bind, wp_select]
      refine ⟨fun _ => ?_, fun _ => ⟨Or.inl rfl, hmid⟩, fun _ => hmid⟩
      obtain ⟨row, hrow⟩ := Dict.mem_iff_exists_lookup.mp (h.ofRecording id a ha)
      rw [hrow]
      refine wp_deleteEnded h (fun hended => ⟨a, row, ha, hrow, hended⟩) (fun j => ?_) hrow
      constructor
      · rintro ⟨b, hb, rfl⟩
        rw [Option.some.inj (ha.symm.trans hb)]
      · rintro rfl
        exact ⟨a, ha, rfl⟩

/-- A disk without files. -/
def emptyDisk : FileTree := ⟨fun _ => none, fun _ _ _ _ h => absurd rfl h⟩

/-- A channel with one recording and its asset. -/
def oneChannel (channelStatus : ChannelStatus) (recordingStatus : RecordingStatus) : Tables where
  channels := AList.singleton 0
    ⟨"news", ⟨.udp, "udp://a:1".toList, []⟩, [], [], true, channelStatus, 0⟩
  recordings := AList.singleton 1 ⟨0, 5, none, recordingStatus, "/data/0/1".toList, 1, 188, ∅⟩
  assets := AList.singleton 2
    ⟨1, "News", none, none, none, none, none, ⟨none, none, none⟩, ∅, 6⟩
  disk := emptyDisk

theorem lookup_singleton {α : Type} {k j : ℕ} {v w : α}
    (h : (AList.singleton k v : Dict ℕ α).lookup j = some w) : j = k ∧ w = v := by
  have hmem := Dict.mem_entries_iff.mpr h
  rw [AList.singleton_entries, List.mem_singleton] at hmem
  cases hmem
  exact ⟨rfl, rfl⟩

/-- The tables of the witnesses meet the constraints. -/
theorem consistent_oneChannel (channelStatus : ChannelStatus) (recordingStatus : RecordingStatus) :
    (oneChannel channelStatus recordingStatus).Consistent where
  uniqueNames := fun _ _ _ _ hr hr' _ =>
    (lookup_singleton hr).1.trans (lookup_singleton hr').1.symm
  ofChannel := by
    intro i r hr
    rw [(lookup_singleton hr).2]
    exact AList.mem_keys.mpr (List.mem_singleton_self 0)
  ofRecording := by
    intro i a ha
    rw [(lookup_singleton ha).2]
    exact AList.mem_keys.mpr (List.mem_singleton_self 1)
  uniqueAssets := fun _ _ _ _ ha hb _ =>
    (lookup_singleton ha).1.trans (lookup_singleton hb).1.symm

/-- **A deletion is all or nothing on the rows**, whatever fails: either it is allowed and takes
the recordings with their assets and, for a channel, the channel, or no row changes.  On disk
nothing goes but media of these recordings under the storage root. -/
theorem deletes_all_or_nothing (cwd : RealPath) (storageRoot : Text) (h : t.Consistent)
    {r : Request} (hr : r.Deletes) (o : Oracle DbCall) :
    ((exec o (r.program cwd storageRoot) t).1 = .ok () ∧ r.Allowed t ∧
      Taken cwd storageRoot (r.doomed t) r.doomedChannels t
        (exec o (r.program cwd storageRoot) t).2) ∨
    ((exec o (r.program cwd storageRoot) t).1 ≠ .ok () ∧
      SameRows t (exec o (r.program cwd storageRoot) t).2 ∧
      Confined cwd storageRoot (r.doomed t) t (exec o (r.program cwd storageRoot) t).2) := by
  have hwp := wp_deletes cwd storageRoot h o 0 hr
  unfold WpTakes wp at hwp
  unfold exec
  rcases hrun : r.program cwd storageRoot o 0 t with ⟨(e | _) | a, n', t'⟩ <;> rw [hrun] at hwp
  · exact Or.inr ⟨by simp, hwp.2.rows, hwp.2.disk⟩
  · exact Or.inr ⟨by simp, hwp.rows, hwp.disk⟩
  · exact Or.inl ⟨rfl, hwp⟩

/-- An idle channel is deleted with its recording. -/
theorem deletes_all_or_nothing_channel :
    (oneChannel .idle .completed).Consistent ∧ (Request.deleteChannel 0).Deletes ∧
    (((exec allOk ((Request.deleteChannel 0).program [] []) (oneChannel .idle .completed)).1 =
        .ok () ∧ (Request.deleteChannel 0).Allowed (oneChannel .idle .completed) ∧
      Taken [] [] ((Request.deleteChannel 0).doomed (oneChannel .idle .completed)) [0]
        (oneChannel .idle .completed)
        (exec allOk ((Request.deleteChannel 0).program [] []) (oneChannel .idle .completed)).2) ∨
    ((exec allOk ((Request.deleteChannel 0).program [] []) (oneChannel .idle .completed)).1 ≠
        .ok () ∧
      SameRows (oneChannel .idle .completed)
        (exec allOk ((Request.deleteChannel 0).program [] []) (oneChannel .idle .completed)).2 ∧
      Confined [] [] ((Request.deleteChannel 0).doomed (oneChannel .idle .completed))
        (oneChannel .idle .completed)
        (exec allOk ((Request.deleteChannel 0).program [] []) (oneChannel .idle .completed)).2)) :=
  ⟨consistent_oneChannel _ _, trivial,
    deletes_all_or_nothing (r := .deleteChannel 0) [] [] (consistent_oneChannel _ _) trivial allOk⟩

/-! ## No request runs into a constraint -/

/-- The answers that the code foresees: its own refusals, and a database that is away. -/
def Failure.Expected : Failure → Prop
  | .http _ | .database => True
  | .integrity | .multipleResults => False

/-- The id that the default of a new row chooses is new. -/
def Request.Fresh (t : Tables) : Request → Prop
  | createChannel id _ _ => id ∉ t.channels
  | _ => True

/-- **What a committed request has done**, and when it may. -/
def Request.Committed (cwd : RealPath) (storageRoot : Text) (t t' : Tables) : Request → Prop
  | createChannel id now payload => t.insertChannel id ⟨payload.name, payload.source,
      payload.pipeline, payload.output, true, .idle, now⟩ = some t'
  | updateChannel id payload => ∃ row, t.channels.lookup id = some row ∧
      row.status ∈ [ChannelStatus.idle, .error] ∧ t.writeChannel id (payload.apply row) = some t'
  | updateRecording id metadata => ∃ row, t.recordings.lookup id = some row ∧
      row.status ≠ .recording ∧ (metadata = none ∧ t' = t ∨ ∃ new, metadata = some new ∧
        t' = t.writeRecording id fun r => { r with metadata := merge row.metadata new })
  | updateAsset id title metadata => ∃ row, t.assets.lookup id = some row ∧
      t' = t.writeAsset id fun a => { a with
        title := title.getD a.title
        metadata := (metadata.map (merge row.metadata)).getD a.metadata }
  | deleteChannel id => (deleteChannel id).Allowed t ∧
      Taken cwd storageRoot ((deleteChannel id).doomed t) [id] t t'
  | deleteRecording id => (deleteRecording id).Allowed t ∧
      Taken cwd storageRoot ((deleteRecording id).doomed t) [] t t'
  | deleteAsset id => (deleteAsset id).Allowed t ∧
      Taken cwd storageRoot ((deleteAsset id).doomed t) [] t t'

/-- A request changes no row or is committed. -/
def Request.Effect (cwd : RealPath) (storageRoot : Text) (r : Request) (t t' : Tables) : Prop :=
  SameRows t t' ∨ r.Committed cwd storageRoot t t'

/-- What a program does for the request `r`. -/
def WpRequest (cwd : RealPath) (storageRoot : Text) (r : Request) (t : Tables)
    (o : Oracle DbCall) (m : Handler Unit) (n : ℕ) (s : Tables) : Prop :=
  wp o m (fun _ _ t' => r.Committed cwd storageRoot t t')
    (fun f _ t' => r.Effect cwd storageRoot t t' ∧ (r.Fresh t → f.Expected))
    (r.Effect cwd storageRoot t) n s

section Programs

variable {o : Oracle DbCall} {n : ℕ} {r : Request}

theorem Request.Effect.none : r.Effect cwd storageRoot t t := Or.inl (.refl t)

/-- A refusal has changed nothing and is no error of the database. -/
theorem wpRequest_refuse (statusCode : ℕ) (detail : String) :
    WpRequest cwd storageRoot r t o (refuse statusCode detail) n t :=
  ⟨.none, fun _ => trivial⟩

/-- A query comes back with the rows, or the request fails there. -/
theorem wpRequest_select {α : Type} {f : Tables → α} {k : α → Handler Unit}
    (hk : WpRequest cwd storageRoot r t o (k (f t)) (n + 1) t) :
    WpRequest cwd storageRoot r t o (select f >>= k) n t := by
  unfold WpRequest
  rw [wp_bind, wp_select]
  exact ⟨fun _ => hk, fun _ => ⟨.none, fun _ => trivial⟩, fun _ => .none⟩

/-- `db.commit()` and `db.refresh`: the refresh can fail after the commit. -/
theorem wpRequest_commit {t' : Tables} {change : Tables → Option Tables}
    (hchange : change t = some t') (hcommitted : r.Committed cwd storageRoot t t') :
    WpRequest cwd storageRoot r t o (commit change >>= fun _ => call .query .database) n t := by
  unfold WpRequest
  rw [wp_bind]
  refine wp_commit hchange ?_ ⟨.none, fun _ => trivial⟩ .none
  rw [wp_call]
  exact ⟨fun _ => hcommitted, fun _ => ⟨Or.inr hcommitted, fun _ => trivial⟩,
    fun _ => Or.inr hcommitted⟩

/-- **A lookup of one row**: under the constraints it never finds two. -/
theorem wpRequest_oneOrNone {α : Type} {rows : Tables → List α} {k : Option α → Handler Unit}
    (hone : rows t = [] ∨ ∃ a, rows t = [a])
    (hk : WpRequest cwd storageRoot r t o (k (rows t).head?) (n + 1) t) :
    WpRequest cwd storageRoot r t o (oneOrNone rows >>= k) n t := by
  unfold WpRequest
  rw [wp_bind, wp_oneOrNone hone]
  exact ⟨fun _ => hk, fun _ => ⟨.none, fun _ => trivial⟩, fun _ => .none⟩

/-- A name that is free is inserted, and the constraint has nothing to object to. -/
theorem wpRequest_createChannel (h : t.Consistent) (id now : ℕ) (payload : ChannelCreate) :
    WpRequest cwd storageRoot (.createChannel id now payload) t o
      (Endpoint.createChannel id now payload) n t := by
  unfold Endpoint.createChannel
  apply wpRequest_oneOrNone (h.one_channel fun e he => of_decide_eq_true he)
  cases hfound : (t.channels.entries.filter fun e => e.2.name = payload.name).head? with
  | some e => exact wpRequest_refuse _ _
  | none =>
    cases hins : t.insertChannel id ⟨payload.name, payload.source, payload.pipeline,
        payload.output, true, .idle, now⟩ with
    | some t' => exact wpRequest_commit hins hins
    | none =>
      unfold WpRequest commit
      rw [wp_bind, wp_bind, wp_call]
      refine ⟨fun _ => ?_, fun _ => ⟨.none, fun _ => trivial⟩, fun _ => .none⟩
      rw [wp_bind, wp_reads, hins]
      refine ⟨.none, fun hfresh => ?_⟩
      unfold Tables.insertChannel at hins
      rw [if_neg] at hins
      · exact absurd hins (by simp)
      · rintro (hid | hname)
        · exact hfresh hid
        · obtain ⟨j, r, hr, hname, _⟩ := Tables.nameTaken_iff.mp hname
          rw [List.head?_eq_none_iff, List.filter_eq_nil_iff] at hfound
          exact hfound ⟨j, r⟩ (Dict.mem_entries_iff.mpr hr) (by simpa using hname)

/-- A name that is changed was looked up among the others; one that is not is free anyway. -/
theorem wpRequest_updateChannel (h : t.Consistent) (id : ℕ) (payload : ChannelUpdate) :
    WpRequest cwd storageRoot (.updateChannel id payload) t o
      (Endpoint.updateChannel id payload) n t := by
  unfold Endpoint.updateChannel
  apply wpRequest_select
  cases hrow : t.channels.lookup id with
  | none => exact wpRequest_refuse _ _
  | some row =>
    unfold WpRequest
    dsimp only
    rw [wp_bind]
    refine wp_requireIdleChannel (fun hidle => ?_) fun e => ⟨.none, fun _ => trivial⟩
    have hwrite : ∀ n, t.nameTaken id (payload.apply row).name = false →
        WpRequest cwd storageRoot (.updateChannel id payload) t o (commit
          (Tables.writeChannel id (payload.apply row)) >>= fun _ => call .query .database) n t := by
      intro n hfree
      have hwritten : t.writeChannel id (payload.apply row) = some { t with
          channels := Dict.modify id (fun _ => payload.apply row) t.channels } := by
        unfold Tables.writeChannel
        rw [if_neg (by rw [hfree]; exact Bool.false_ne_true)]
      exact wpRequest_commit hwritten ⟨row, hrow, hidle, hwritten⟩
    cases hname : payload.name with
    | none =>
      refine hwrite (n + 1) ?_
      -- The row keeps its name, which no other channel has.
      rw [Bool.eq_false_iff]
      intro htaken
      obtain ⟨j, r, hr, hsame, hne⟩ := Tables.nameTaken_iff.mp htaken
      have hkept : (payload.apply row).name = row.name := by simp [ChannelUpdate.apply, hname]
      exact hne (h.uniqueNames j id r row hr hrow (hsame.trans hkept))
    | some name =>
      have hsame : ∀ e : (Sigma fun _ : ℕ => ChannelRow),
          (e.2.name = name && e.1 ≠ id) = true → e.2.name = name :=
        fun e he => of_decide_eq_true (Bool.and_eq_true_iff.mp he).1
      refine wpRequest_oneOrNone (h.one_channel hsame) ?_
      · cases hfound : (t.channels.entries.filter fun e => e.2.name = name && e.1 ≠ id).head? with
        | some e => exact wpRequest_refuse _ _
        | none =>
          apply hwrite
          have hnew : (payload.apply row).name = name := by simp [ChannelUpdate.apply, hname]
          rw [hnew, Bool.eq_false_iff]
          intro htaken
          obtain ⟨j, r, hr, hsame, hne⟩ := Tables.nameTaken_iff.mp htaken
          rw [List.head?_eq_none_iff, List.filter_eq_nil_iff] at hfound
          exact hfound ⟨j, r⟩ (Dict.mem_entries_iff.mpr hr) (by simpa using ⟨hsame, hne⟩)

/-- A merge is written, and never into a row in flight. -/
theorem wpRequest_updateRecording (id : ℕ) (metadata : Option (Dict String Json)) :
    WpRequest cwd storageRoot (.updateRecording id metadata) t o
      (Endpoint.updateRecording id metadata) n t := by
  unfold Endpoint.updateRecording
  apply wpRequest_select
  cases hrow : t.recordings.lookup id with
  | none => exact wpRequest_refuse _ _
  | some row =>
    dsimp only
    by_cases hflight : row.status = .recording
    · rw [if_pos hflight]
      exact wpRequest_refuse _ _
    · rw [if_neg hflight]
      refine wpRequest_commit rfl ⟨row, hrow, hflight, ?_⟩
      cases metadata with
      | none => exact Or.inl ⟨rfl, rfl⟩
      | some new => exact Or.inr ⟨new, rfl, rfl⟩

/-- An asset is written whatever its recording does. -/
theorem wpRequest_updateAsset (id : ℕ) (title : Option String)
    (metadata : Option (Dict String Json)) : WpRequest cwd storageRoot
      (.updateAsset id title metadata) t o (Endpoint.updateAsset id title metadata) n t := by
  unfold Endpoint.updateAsset
  apply wpRequest_select
  cases hrow : t.assets.lookup id with
  | none => exact wpRequest_refuse _ _
  | some row => exact wpRequest_commit rfl ⟨row, hrow, rfl⟩

/-- A deletion, as the result about deletions has it. -/
theorem wpRequest_deletes (h : t.Consistent) (hr : r.Deletes)
    (hcommitted : ∀ t', r.Allowed t → Taken cwd storageRoot (r.doomed t) r.doomedChannels t t' →
      r.Committed cwd storageRoot t t') :
    WpRequest cwd storageRoot r t o (r.program cwd storageRoot) n t := by
  refine wp_mono (wp_deletes cwd storageRoot h o n hr) ?_ ?_ fun t' hmid => Or.inl hmid.rows
  · exact fun _ _ t' hok => hcommitted t' hok.1 hok.2
  · rintro f n t' ⟨rfl | ⟨e, rfl⟩, hmid⟩ <;> exact ⟨Or.inl hmid.rows, fun _ => trivial⟩

end Programs

/-- **What a request can do**, in any environment. -/
theorem wp_request (cwd : RealPath) (storageRoot : Text) (h : t.Consistent) (o : Oracle DbCall)
    (n : ℕ) (r : Request) :
    WpRequest cwd storageRoot r t o (r.program cwd storageRoot) n t := by
  cases r with
  | createChannel id now payload => exact wpRequest_createChannel h id now payload
  | updateChannel id payload => exact wpRequest_updateChannel h id payload
  | updateRecording id metadata => exact wpRequest_updateRecording id metadata
  | updateAsset id title metadata => exact wpRequest_updateAsset id title metadata
  | deleteChannel id => exact wpRequest_deletes h trivial fun _ ha ht => ⟨ha, ht⟩
  | deleteRecording id => exact wpRequest_deletes h trivial fun _ ha ht => ⟨ha, ht⟩
  | deleteAsset id => exact wpRequest_deletes h trivial fun _ ha ht => ⟨ha, ht⟩

/-- What a request leaves, as one of its effects. -/
theorem effect_final (cwd : RealPath) (storageRoot : Text) (h : t.Consistent) (r : Request)
    (o : Oracle DbCall) :
    r.Effect cwd storageRoot t (final o (r.program cwd storageRoot) t) := by
  apply final_of_wp
  exact wp_mono (wp_request cwd storageRoot h o 0 r) (fun _ _ _ hc => Or.inr hc)
    (fun _ _ _ he => he.1) (fun _ he => he)

/-- A request that is answered normally is committed. -/
theorem committed_of_ok (h : t.Consistent) {r : Request} {o : Oracle DbCall}
    (hok : (exec o (r.program cwd storageRoot) t).1 = .ok ()) :
    r.Committed cwd storageRoot t (final o (r.program cwd storageRoot) t) := by
  have hwp := wp_request cwd storageRoot h o 0 r
  unfold exec at hok
  unfold final exec
  unfold WpRequest wp at hwp
  rcases hend : r.program cwd storageRoot o 0 t with ⟨(e | _) | a, n', t'⟩ <;>
    rw [hend] at hwp hok
  · exact absurd hok (by simp)
  · exact absurd hok (by simp)
  · exact hwp

/-- What every request leaves: the constraints, and the recordings in flight, unless it deletes
their channel and may. -/
structure Safe (r : Request) (t t' : Tables) : Prop where
  consistent : t'.Consistent
  inFlight : ∀ j row, t.recordings.lookup j = some row → row.status = .recording →
    (r.Allowed t → r ≠ .deleteChannel row.channelId) → t'.recordings.lookup j = some row

theorem Safe.of_recordings {r : Request} {t' : Tables} (h : t'.Consistent)
    (hrec : t'.recordings = t.recordings) : Safe r t t' :=
  ⟨h, fun j row hrow _ _ => by rw [hrec, hrow]⟩

/-- The rows that a deletion leaves still refer to each other. -/
theorem Taken.consistent {gone : ℕ → Prop} {channels : List ℕ} {t' : Tables}
    (h : Taken cwd storageRoot gone channels t t') (hc : t.Consistent)
    (hchannels : ∀ c ∈ channels, ∀ j r, t.recordings.lookup j = some r → r.channelId = c →
      gone j) : t'.Consistent := by
  have hchannel : ∀ i r, t'.channels.lookup i = some r → t.channels.lookup i = some r := by
    intro i r hr
    rw [h.channels, Dict.lookup_eraseAll] at hr
    split_ifs at hr
    exact hr
  have hrecording : ∀ i r, t'.recordings.lookup i = some r →
      t.recordings.lookup i = some r ∧ ¬ gone i := by
    intro i r hr
    by_cases hi : gone i
    · rw [(h.removed.recordings i).1 hi] at hr
      exact absurd hr (by simp)
    · rw [(h.removed.recordings i).2 hi] at hr
      exact ⟨hr, hi⟩
  have hasset : ∀ i a, t'.assets.lookup i = some a →
      t.assets.lookup i = some a ∧ ¬ gone a.recordingId := by
    intro i a ha
    by_cases hi : ∃ a, t.assets.lookup i = some a ∧ gone a.recordingId
    · rw [(h.removed.assets i).1 hi] at ha
      exact absurd ha (by simp)
    · rw [(h.removed.assets i).2 hi] at ha
      exact ⟨ha, fun hgone => hi ⟨a, ha, hgone⟩⟩
  refine ⟨?_, ?_, ?_, ?_⟩
  · intro i j r r' hr hr' hname
    exact hc.uniqueNames i j r r' (hchannel i r hr) (hchannel j r' hr') hname
  · intro i r hr
    obtain ⟨hr, hi⟩ := hrecording i r hr
    rw [h.channels, ← AList.lookup_isSome, Dict.lookup_eraseAll,
      if_neg fun hmem => hi (hchannels _ hmem i r hr rfl), AList.lookup_isSome]
    exact hc.ofChannel i r hr
  · intro i a ha
    obtain ⟨ha, hi⟩ := hasset i a ha
    rw [← AList.lookup_isSome, (h.removed.recordings _).2 hi, AList.lookup_isSome]
    exact hc.ofRecording i a ha
  · intro i j a b ha hb heq
    exact hc.uniqueAssets i j a b (hasset i a ha).1 (hasset j b hb).1 heq

/-- A deletion that was allowed takes no row in flight. -/
theorem Taken.safe {t' : Tables} {r : Request} (hallowed : r.Allowed t)
    (h : Taken cwd storageRoot (r.doomed t) r.doomedChannels t t') (hc : t.Consistent) :
    Safe r t t' where
  consistent := by
    apply h.consistent hc
    intro c hmem j row hrow hch
    cases r with
    | deleteChannel id =>
      obtain rfl := List.mem_singleton.mp hmem
      exact ⟨row, hrow, hch⟩
    | _ => exact absurd hmem (by simp [Request.doomedChannels])
  inFlight := by
    intro j row hrow hflight hother
    have hspared : ¬ r.doomed t j := by
      intro hdoomed
      cases r with
      | deleteChannel id =>
        obtain ⟨row', hrow', rfl⟩ := hdoomed
        obtain rfl := Option.some.inj (hrow.symm.trans hrow')
        exact hother hallowed rfl
      | deleteRecording id =>
        obtain ⟨row', hrow', hended⟩ := hallowed
        obtain rfl : j = id := hdoomed
        obtain rfl := Option.some.inj (hrow.symm.trans hrow')
        exact hended hflight
      | deleteAsset id =>
        obtain ⟨a, row', ha, hrow', hended⟩ := hallowed
        obtain ⟨b, hb, rfl⟩ := hdoomed
        obtain rfl := Option.some.inj (ha.symm.trans hb)
        obtain rfl := Option.some.inj (hrow.symm.trans hrow')
        exact hended hflight
      | _ => exact hdoomed
    rw [(h.removed.recordings j).2 hspared, hrow]

/-- **A committed request is safe.** -/
theorem Request.Committed.safe {r : Request} {t' : Tables} (h : t.Consistent)
    (hc : r.Committed cwd storageRoot t t') : Safe r t t' := by
  cases r with
  | createChannel id now payload =>
    have hins : t.insertChannel id ⟨payload.name, payload.source, payload.pipeline,
      payload.output, true, .idle, now⟩ = some t' := hc
    exact .of_recordings (h.insertChannel hins) (Tables.insertChannel_others hins).1
  | updateChannel id payload =>
    obtain ⟨row, _, _, hwrite⟩ := hc
    exact .of_recordings (h.writeChannel hwrite) (Tables.writeChannel_others hwrite).1
  | updateRecording id metadata =>
    obtain ⟨row, hrow, hended, ⟨_, rfl⟩ | ⟨new, _, rfl⟩⟩ := hc
    · exact .of_recordings h rfl
    · refine ⟨h.writeRecording id _, fun j row' hrow' hflight _ => ?_⟩
      show (Dict.modify id _ t.recordings).lookup j = some row'
      rw [Dict.lookup_modify, if_neg]
      · exact hrow'
      · rintro rfl
        obtain rfl := Option.some.inj (hrow.symm.trans hrow')
        exact hended hflight
  | updateAsset id title metadata =>
    obtain ⟨row, _, rfl⟩ := hc
    exact .of_recordings (h.writeAsset id _) rfl
  | deleteChannel id => exact hc.2.safe hc.1 h
  | deleteRecording id => exact hc.2.safe hc.1 h
  | deleteAsset id => exact hc.2.safe hc.1 h

/-- A whole request, whatever fails, is safe for the rows in flight. -/
theorem safe_final (cwd : RealPath) (storageRoot : Text) (h : t.Consistent) (r : Request)
    (o : Oracle DbCall) : Safe r t (final o (r.program cwd storageRoot) t) := by
  rcases effect_final cwd storageRoot h r o with hsame | hcommitted
  · exact .of_recordings (hsame.consistent h) hsame.2.1
  · exact hcommitted.safe h

/-- The other processes insert and write through the same constraints. -/
theorem Write.consistent (h : t.Consistent) (w : Write) : (w.effect t).Consistent := by
  cases w with
  | status id st => exact h.writeStatus id st
  | recording id f => exact h.writeRecording id f
  | asset id f => exact h.writeAsset id f
  | files disk => exact ⟨h.uniqueNames, h.ofChannel, h.ofRecording, h.uniqueAssets⟩
  | addRecording id row =>
    show ((t.insertRecording id row).getD t).Consistent
    cases hins : t.insertRecording id row with
    | none => exact h
    | some t' => exact h.insertRecording hins
  | addAsset id row =>
    show ((t.insertAsset id row).getD t).Consistent
    cases hins : t.insertAsset id row with
    | none => exact h
    | some t' => exact h.insertAsset hins

/-- **The constraints hold after any events.** -/
theorem consistent_happened (cwd : RealPath) (storageRoot : Text) (h : t.Consistent)
    (es : List Event) : (happened cwd storageRoot t es).Consistent := by
  induction es generalizing t with
  | nil => exact h
  | cons e es ih =>
    apply ih
    cases e with
    | request r o => exact (safe_final cwd storageRoot h r o).consistent
    | write w => exact w.consistent h

/-- **No request runs into a constraint**, in any sequence of requests and of writes of the other
processes, however the database fails: it is answered, refused by the code's own checks, or the
database is away. -/
theorem requests_spare_constraints (cwd : RealPath) (storageRoot : Text) (h : t.Consistent)
    (es : List Event) : (happened cwd storageRoot t es).Consistent ∧
      ∀ pre r o post f, es = pre ++ Event.request r o :: post →
        r.Fresh (happened cwd storageRoot t pre) →
          (exec o (r.program cwd storageRoot) (happened cwd storageRoot t pre)).1 =
            .error (.raised f) → f.Expected := by
  refine ⟨consistent_happened cwd storageRoot h es, ?_⟩
  intro pre r o post f _ hfresh hrun
  have hwp := wp_request cwd storageRoot (consistent_happened cwd storageRoot h pre) o 0 r
  unfold exec at hrun
  unfold WpRequest wp at hwp
  rcases hend : r.program cwd storageRoot o 0 (happened cwd storageRoot t pre) with
    ⟨(e | _) | a, n', t'⟩ <;> rw [hend] at hwp hrun
  · obtain rfl : e = f := by simpa using hrun
    exact hwp.2 hfresh
  · exact absurd hrun (by simp)
  · exact absurd hrun (by simp)

/-- An asset is deleted with its recording. -/
theorem requests_spare_constraints_deleted :
    (oneChannel .idle .completed).Consistent ∧
    (happened [] [] (oneChannel .idle .completed) [.request (.deleteAsset 2) allOk]).Consistent ∧
    ∀ f, (exec allOk ((Request.deleteAsset 2).program [] []) (oneChannel .idle .completed)).1 =
      .error (.raised f) → f.Expected := by
  obtain ⟨hafter, hends⟩ := requests_spare_constraints [] []
    (consistent_oneChannel .idle .completed) [.request (.deleteAsset 2) allOk]
  exact ⟨consistent_oneChannel _ _, hafter, fun f => hends [] _ _ [] f rfl trivial⟩

/-- The event neither writes the recording `j` nor may delete its channel. -/
def Event.Spares (j channel : ℕ) (t : Tables) : Event → Prop
  | .request r _ => r.Allowed t → r ≠ .deleteChannel channel
  | .write (.recording i _) => i ≠ j
  | .write _ => True

/-- **A recording in flight stays as it is** until a process ends it or its idle channel is
deleted. -/
theorem in_flight_stays (cwd : RealPath) (storageRoot : Text) (h : t.Consistent) {j : ℕ}
    {row : RecordingRow} (hrow : t.recordings.lookup j = some row)
    (hflight : row.status = .recording) (es : List Event)
    (hspares : ∀ pre e post, es = pre ++ e :: post →
      e.Spares j row.channelId (happened cwd storageRoot t pre)) :
    (happened cwd storageRoot t es).recordings.lookup j = some row := by
  induction es generalizing t with
  | nil => exact hrow
  | cons e es ih =>
    have hfirst : e.Spares j row.channelId t := hspares [] e es rfl
    have hnext : (happen cwd storageRoot t e).Consistent :=
      consistent_happened cwd storageRoot h [e]
    refine ih hnext ?_ fun pre e' post hsplit => hspares (e :: pre) e' post (by rw [hsplit]; rfl)
    cases e with
    | request r o => exact (safe_final cwd storageRoot h r o).inFlight j row hrow hflight hfirst
    | write w =>
      cases w with
      | status | asset | files => exact hrow
      | recording i f =>
        show (Dict.modify i _ t.recordings).lookup j = some row
        rw [Dict.lookup_modify, if_neg (Ne.symm hfirst)]
        exact hrow
      | addRecording i new =>
        show ((t.insertRecording i new).getD t).recordings.lookup j = some row
        unfold Tables.insertRecording
        split_ifs with hcond
        · exact hrow
        · rw [not_or] at hcond
          show (Dict.set i new t.recordings).lookup j = some row
          rw [Dict.lookup_set, if_neg]
          · exact hrow
          · rintro rfl
            exact hcond.1 (Dict.mem_iff_exists_lookup.mpr ⟨row, hrow⟩)
      | addAsset i new =>
        show ((t.insertAsset i new).getD t).recordings.lookup j = some row
        unfold Tables.insertAsset
        split_ifs <;> exact hrow

/-- A recording that is captured, while its deletion is asked for. -/
theorem in_flight_stays_live : ∃ row, (oneChannel .recording .recording).recordings.lookup 1 =
      some row ∧ row.status = .recording ∧
    (happened [] [] (oneChannel .recording .recording)
      [.request (.deleteRecording 1) allOk, .write (.status 0 .stopping)]).recordings.lookup 1 =
        some row := by
  refine ⟨_, rfl, rfl, in_flight_stays [] [] (consistent_oneChannel _ _) rfl rfl _ ?_⟩
  intro pre e post hsplit
  have hmem : e ∈ [Event.request (.deleteRecording 1) allOk, .write (.status 0 .stopping)] := by
    rw [hsplit]
    simp
  simp only [List.mem_cons, List.not_mem_nil, or_false] at hmem
  rcases hmem with rfl | rfl
  · exact fun _ h => absurd h (by simp)
  · trivial

/-! ## Edits of metadata -/

/-- **What a merge looks up**: the new value, else the old one. -/
theorem lookup_merge (old new : Dict String Json) (k : String) :
    (merge old new).lookup k = (new.lookup k).or (old.lookup k) := by
  have key : ∀ (l : List (Sigma fun _ : String => Json)) (d : Dict String Json), l.NodupKeys →
      (l.foldl (fun d e => Dict.set e.1 e.2 d) d).lookup k = (l.dlookup k).or (d.lookup k) := by
    intro l
    induction l with
    | nil => exact fun _ _ => by simp
    | cons e l ih =>
      obtain ⟨i, v⟩ := e
      intro d hnodup
      rw [List.nodupKeys_cons] at hnodup
      rw [List.foldl_cons, ih _ hnodup.2, Dict.lookup_set]
      by_cases hk : k = i
      · subst hk
        rw [List.dlookup_cons_eq, List.dlookup_eq_none.mpr hnodup.1, if_pos rfl]
        rfl
      · rw [List.dlookup_cons_ne l ⟨i, v⟩ hk, if_neg hk]
  exact key new.entries old new.nodupKeys

/-- The event does not write the key `k` in the metadata of the asset: another process may write the
asset, its metadata included, as a backfill does that merges what it has found. -/
def Event.LeavesKey (id : ℕ) (k : String) : Event → Prop
  | .request (.updateAsset i _ (some new)) _ => i = id → k ∉ new
  | .write (.asset i f) => i = id → ∀ a, (f a).metadata.lookup k = a.metadata.lookup k
  | .write (.addAsset i _) => i ≠ id
  | _ => True

/-- A deletion leaves the assets that it does not take. -/
theorem Removed.asset {gone : ℕ → Prop} {t' : Tables} (h : Removed gone t t') {i : ℕ}
    {a : AssetRow} (ha : t'.assets.lookup i = some a) : t.assets.lookup i = some a := by
  by_cases hi : ∃ a, t.assets.lookup i = some a ∧ gone a.recordingId
  · rw [(h.assets i).1 hi] at ha
    exact absurd ha (by simp)
  · rw [(h.assets i).2 hi] at ha
    exact ha

/-- A write of another process leaves the key alone. -/
theorem key_write {w : Write} {id : ℕ} {k : String} (he : (Event.write w).LeavesKey id k)
    {a' : AssetRow} (ha' : (w.effect t).assets.lookup id = some a') :
    ∃ a, t.assets.lookup id = some a ∧ a'.metadata.lookup k = a.metadata.lookup k := by
  cases w with
  | status | recording | files => exact ⟨a', ha', rfl⟩
  | addRecording i new =>
    have ha' : ((t.insertRecording i new).getD t).assets.lookup id = some a' := ha'
    unfold Tables.insertRecording at ha'
    split_ifs at ha' <;> exact ⟨a', ha', rfl⟩
  | asset i f =>
    have ha' : (Dict.modify i _ t.assets).lookup id = some a' := ha'
    rw [Dict.lookup_modify] at ha'
    split_ifs at ha' with hid
    · obtain ⟨a, ha, rfl⟩ := Option.map_eq_some_iff.mp ha'
      subst hid
      exact ⟨a, ha, he rfl a⟩
    · exact ⟨a', ha', rfl⟩
  | addAsset i new =>
    have ha' : ((t.insertAsset i new).getD t).assets.lookup id = some a' := ha'
    unfold Tables.insertAsset at ha'
    split_ifs at ha'
    · exact ⟨a', ha', rfl⟩
    · have ha' : (Dict.set i new t.assets).lookup id = some a' := ha'
      rw [Dict.lookup_set, if_neg (Ne.symm he)] at ha'
      exact ⟨a', ha', rfl⟩

/-- A request leaves the key alone: only an edit of the asset writes its metadata, and it merges. -/
theorem key_request (cwd : RealPath) (storageRoot : Text) (h : t.Consistent) {r : Request}
    {o : Oracle DbCall} {id : ℕ} {k : String} (he : (Event.request r o).LeavesKey id k)
    {a' : AssetRow} (ha' : (final o (r.program cwd storageRoot) t).assets.lookup id = some a') :
    ∃ a, t.assets.lookup id = some a ∧ a'.metadata.lookup k = a.metadata.lookup k := by
  have hsame : ∀ {t' : Tables}, t'.assets = t.assets → t'.assets.lookup id = some a' →
      ∃ a, t.assets.lookup id = some a ∧ a'.metadata.lookup k = a.metadata.lookup k :=
    fun hassets ha => ⟨a', hassets ▸ ha, rfl⟩
  rcases effect_final cwd storageRoot h r o with hrows | hc
  · exact hsame hrows.2.2 ha'
  · cases r with
    | createChannel i now payload =>
      exact hsame (Tables.insertChannel_others hc).2 ha'
    | updateChannel i payload =>
      obtain ⟨row, _, _, hwrite⟩ := hc
      exact hsame (Tables.writeChannel_others hwrite).2 ha'
    | updateRecording i metadata =>
      refine hsame ?_ ha'
      show (final o _ t).assets = t.assets
      obtain ⟨row, _, _, ⟨_, hnew⟩ | ⟨new, _, hnew⟩⟩ := hc <;> rw [hnew]
      rfl
    | deleteChannel i => exact ⟨a', hc.2.removed.asset ha', rfl⟩
    | deleteRecording i => exact ⟨a', hc.2.removed.asset ha', rfl⟩
    | deleteAsset i => exact ⟨a', hc.2.removed.asset ha', rfl⟩
    | updateAsset i title metadata =>
      obtain ⟨row, hrow, hwritten⟩ := hc
      have ha' : (final o _ t).assets.lookup id = some a' := ha'
      rw [hwritten] at ha'
      have ha' : (Dict.modify i _ t.assets).lookup id = some a' := ha'
      rw [Dict.lookup_modify] at ha'
      by_cases hid : id = i
      · subst hid
        rw [if_pos rfl, hrow, Option.map_some] at ha'
        obtain rfl := Option.some.inj ha'
        refine ⟨row, hrow, ?_⟩
        cases metadata with
        | none => rfl
        | some new =>
          show (merge row.metadata new).lookup k = row.metadata.lookup k
          rw [lookup_merge, AList.lookup_eq_none.mpr (he rfl)]
          rfl
      · rw [if_neg hid] at ha'
        exact ⟨a', ha', rfl⟩

/-- **One event**: what an asset has at the key afterwards it has had before. -/
theorem key_happen (cwd : RealPath) (storageRoot : Text) (h : t.Consistent) {e : Event} {id : ℕ}
    {k : String} (he : e.LeavesKey id k) {a' : AssetRow}
    (ha' : (happen cwd storageRoot t e).assets.lookup id = some a') :
    ∃ a, t.assets.lookup id = some a ∧ a'.metadata.lookup k = a.metadata.lookup k := by
  cases e with
  | write w => exact key_write he ha'
  | request r o => exact key_request cwd storageRoot h he ha'

/-- **No acknowledged edit is lost**: what a PATCH of an asset has been answered for is there as
long as the asset is, until the key is written again. -/
theorem acknowledged_edit_stays (cwd : RealPath) (storageRoot : Text) (h : t.Consistent)
    (pre post : List Event) (o : Oracle DbCall) {id : ℕ} {title : Option String}
    {new : Dict String Json} {k : String} {v : Json}
    (hok : (exec o (Endpoint.updateAsset id title (some new))
      (happened cwd storageRoot t pre)).1 = .ok ())
    (hk : new.lookup k = some v) (hpost : ∀ e ∈ post, e.LeavesKey id k) {a' : AssetRow}
    (ha' : (happened cwd storageRoot t
      (pre ++ .request (.updateAsset id title (some new)) o :: post)).assets.lookup id =
        some a') : a'.metadata.lookup k = some v := by
  have hrun : ∀ (es : List Event) (t : Tables), t.Consistent → (∀ e ∈ es, e.LeavesKey id k) →
      (happened cwd storageRoot t es).assets.lookup id = some a' →
        ∃ a, t.assets.lookup id = some a ∧ a'.metadata.lookup k = a.metadata.lookup k := by
    intro es
    induction es with
    | nil => exact fun t _ _ ha => ⟨a', ha, rfl⟩
    | cons e es ih =>
      intro t h hes ha
      obtain ⟨b, hb, hkb⟩ := ih _ (consistent_happened cwd storageRoot h [e])
        (fun e' he' => hes e' (List.mem_cons_of_mem _ he')) ha
      obtain ⟨c, hc, hkc⟩ := key_happen cwd storageRoot h (hes e List.mem_cons_self) hb
      exact ⟨c, hc, hkb.trans hkc⟩
  unfold happened at ha'
  rw [List.foldl_append, List.foldl_cons] at ha'
  have hbefore := consistent_happened cwd storageRoot h pre
  obtain ⟨a, ha, hkey⟩ := hrun post _ (consistent_happened cwd storageRoot hbefore
    [.request (.updateAsset id title (some new)) o]) hpost ha'
  obtain ⟨row, hrow, hwritten⟩ :=
    committed_of_ok (r := .updateAsset id title (some new)) hbefore hok
  rw [hkey]
  have ha : (final o _ (happened cwd storageRoot t pre)).assets.lookup id = some a := ha
  rw [hwritten] at ha
  have ha : (Dict.modify id _ (happened cwd storageRoot t pre).assets).lookup id = some a := ha
  rw [Dict.lookup_modify, if_pos rfl, hrow, Option.map_some] at ha
  obtain rfl := Option.some.inj ha
  show (merge row.metadata new).lookup k = some v
  rw [lookup_merge, hk]
  rfl

/-- A backfill that merges an entry of its own into the metadata. -/
def mergeThumbnail : AssetRow → AssetRow :=
  fun a => { a with metadata := merge a.metadata (AList.singleton "thumbnail" (.str "ok")) }

/-- A PATCH of the metadata, then a backfill of the same asset, and a PATCH of the title. -/
theorem acknowledged_edit_stays_titled :
    (exec allOk (Endpoint.updateAsset 2 none (some (AList.singleton "note" (.int 7))))
      (oneChannel .idle .completed)).1 = .ok () ∧
    ∃ a, (happened [] [] (oneChannel .idle .completed)
      [.request (.updateAsset 2 none (some (AList.singleton "note" (.int 7)))) allOk,
        .write (.asset 2 mergeThumbnail),
        .request (.updateAsset 2 (some "Late news") none) allOk]).assets.lookup 2 = some a ∧
      a.metadata.lookup "note" = some (.int 7) := by
  have hok : (exec allOk (Endpoint.updateAsset 2 none (some (AList.singleton "note" (.int 7))))
      (happened [] [] (oneChannel .idle .completed) [])).1 = .ok () := rfl
  refine ⟨hok, _, rfl, ?_⟩
  refine acknowledged_edit_stays [] [] (consistent_oneChannel .idle .completed) []
    [.write (.asset 2 mergeThumbnail), .request (.updateAsset 2 (some "Late news") none) allOk]
    allOk
    hok rfl ?_ rfl
  intro e he
  simp only [List.mem_cons, List.not_mem_nil, or_false] at he
  rcases he with rfl | rfl
  · intro _ a
    show (merge a.metadata _).lookup "note" = a.metadata.lookup "note"
    rw [lookup_merge]
    rfl
  · trivial

end Requests

end ApiTables
