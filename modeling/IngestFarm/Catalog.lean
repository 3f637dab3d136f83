/-
# Cataloging completed recordings

`PostProcessWorker` of `ingest_farm/postprocess/main.py` with `LocalStorage.list_segments`:
the rows, the files of each recording directory, the steps of `_process` and the two passes
of a restart.  A file is written byte by byte, so that a killed process leaves any beginning
of it.  What the media tools write below `derived/` is the parameter `encode`.

* `Archive`: rows and files;
* `process`, `catalogUncatalogedRecordings`, `backfillMissingMedia`: the code;
* `Archive.after`: a sequence of jobs and restarts, each in its own environment.
-/
import IngestFarm.Prog
import IngestFarm.Store

open Prog

namespace PostProcess

abbrev Bytes := List UInt8

/-- The external calls of the post-process worker. -/
inductive ArchiveCall where
  | query
  | commit
  | openFile
  | read
  | write
  | discover
  | media
  deriving DecidableEq, Repr

inductive ArchiveError where
  | database
  | integrity
  | multipleResults
  | noSegments
  | io
  | media
  deriving DecidableEq, Repr

/-- The two media tools: `generate_hls_proxy` and `generate_thumbnail`. -/
inductive Tool where
  | proxy
  | thumbnail
  deriving DecidableEq, Repr

/-- What a tool leaves below `derived/`. -/
def Tool.output : Tool → String
  | proxy => "proxy/playlist.m3u8"
  | thumbnail => "thumb.jpg"

/-- The entry of a tool in an asset's metadata. -/
inductive MediaState where
  /-- The tool was not run. -/
  | skipped
  /-- It has left its file. -/
  | ok
  /-- It has raised, or left none. -/
  | failed
  deriving DecidableEq, Repr

/-- A path in a recording directory, or the directory itself. -/
structure MediaPath where
  dir : SessionDir
  file : Option String
  deriving DecidableEq

/-- A row of `assets`; `segmentCount` to `mediaError` are its metadata. -/
structure Asset where
  /-- The recording that it catalogs. -/
  recordingId : RecordingId
  /-- The one segment, or the concatenation of several. -/
  masterPath : MediaPath
  /-- The playlist below `derived/`, if there is one. -/
  proxyPath : Option String
  /-- The picture below `derived/`, if there is one. -/
  thumbnailPath : Option String
  /-- How many segments there were. -/
  segmentCount : ℕ
  /-- The same again, for a master that was concatenated. -/
  concatenatedSegments : Option ℕ
  proxy : MediaState
  thumbnail : MediaState
  mediaError : Option String
  deriving DecidableEq

/-- The regular files of a recording directory and of `derived/` below it. -/
structure Directory where
  files : Dict String Bytes
  derived : Dict String Bytes

/-- What was cataloged: no table, it remembers the media at the commit of an asset. -/
structure Cataloged where
  /-- The recording. -/
  recordingId : RecordingId
  /-- How many segments were found. -/
  segmentCount : ℕ
  /-- What the master held, if it could be read. -/
  bytes : Option Bytes
  deriving DecidableEq

structure Archive where
  /-- The rows of recordings. -/
  recordings : Dict RecordingId Recording
  /-- The rows of assets, in the order of their commits. -/
  assets : List Asset
  /-- The directories. -/
  media : SessionDir → Directory
  /-- What was cataloged, in the order of the commits. -/
  created : List Cataloged

/-- The pattern `segment_*.ts`. -/
def isSegmentName (name : String) : Bool :=
  "segment_".toList.isPrefixOf name.toList && ".ts".toList.isSuffixOf name.toList &&
    ("segment_".length + ".ts".length ≤ name.length : Bool)

namespace Directory

/-- `LocalStorage.list_segments`: the matching names, sorted. -/
def listSegments (d : Directory) : List String :=
  (d.files.keys.filter isSegmentName).insertionSort (· ≤ ·)

/-- Write a file. -/
def put (name : String) (data : Bytes) (d : Directory) : Directory :=
  { d with files := Dict.set name data d.files }

/-- Add a byte to the end of a file. -/
def append (name : String) (b : UInt8) (d : Directory) : Directory :=
  d.put name ((d.files.lookup name).getD [] ++ [b])

end Directory

namespace Archive

/-- The rows of `assets` for a recording. -/
def assetsOf (w : Archive) (r : RecordingId) : List Asset :=
  w.assets.filter fun a => a.recordingId = r

/-- Change one directory. -/
def update (dir : SessionDir) (f : Directory → Directory) (w : Archive) : Archive :=
  { w with media := Function.update w.media dir (f (w.media dir)) }

/-- The contents of a file, if the path is one. -/
def bytesAt (w : Archive) (path : MediaPath) : Option Bytes :=
  path.file.bind fun name => (w.media path.dir).files.lookup name

/-- Insert an asset. -/
def addAsset (a : Asset) (w : Archive) : Archive :=
  { w with
    assets := w.assets ++ [a]
    created := w.created ++ [⟨a.recordingId, a.segmentCount, w.bytesAt a.masterPath⟩] }

/-- Replace the asset of a recording. -/
def updateAsset (r : RecordingId) (f : Asset → Asset) (w : Archive) : Archive :=
  { w with assets := w.assets.map fun a => if a.recordingId = r then f a else a }

/-- The constraints on a new asset: its recording exists and has none. -/
def Insertable (w : Archive) (a : Asset) : Prop :=
  a.recordingId ∈ w.recordings ∧ ∀ a' ∈ w.assets, a'.recordingId ≠ a.recordingId

instance (w : Archive) (a : Asset) : Decidable (w.Insertable a) :=
  inferInstanceAs (Decidable (_ ∧ ∀ a' ∈ w.assets, a'.recordingId ≠ a.recordingId))

/-- Completed recordings without an asset, the newest first. -/
def uncataloged (w : Archive) (limit : ℕ) : List RecordingId :=
  (((w.recordings.entries.filter fun e =>
    e.2.status = .completed ∧ w.assetsOf e.1 = []).insertionSort
      fun e e' => e'.2.startedAt ≤ e.2.startedAt).map Sigma.fst).take limit

/-- Assets without proxy or thumbnail, the newest first. -/
def missingMedia (w : Archive) (limit : ℕ) : List Asset :=
  (w.assets.reverse.filter fun a => a.proxyPath = none ∨ a.thumbnailPath = none).take limit

end Archive

/-- A step of the post-process worker. -/
abbrev Job := Prog ArchiveCall ArchiveError Archive

/-- A database query. -/
def select {α : Type} (f : Archive → α) : Job α := do
  call .query .database
  reads f

/-- `query(Asset).filter_by(recording_id=…).one_or_none()`, which raises if it finds two rows. -/
def oneOrNone (r : RecordingId) : Job (Option Asset) := do
  let found ← select fun w => w.assetsOf r
  match found with
  | [] => pure none
  | [a] => pure (some a)
  | _ => raise .multipleResults

/-- The contents of a file, cut into the pieces that a loop of `read(k)` returns. -/
def chunks {α : Type} (k : ℕ) : ℕ → List α → List (List α)
  | 0, _ => []
  | _, [] => []
  | fuel + 1, x :: xs => (x :: xs.take k) :: chunks k fuel (xs.drop k)

/-- The size of a piece, less one. -/
def chunkSize : ℕ := 1024 * 1024 - 1

/-- `seg.open("rb")` and the loop that reads it. -/
def readSegment (dir : SessionDir) (name : String) : Job (List Bytes) := do
  call .openFile .io
  let content ← reads fun w => (w.media dir).files.lookup name
  match content with
  | none => raise .io
  | some data => pure (chunks chunkSize data.length data)

/-- `out.write(chunk)`: the bytes arrive one by one, and the disk may be full after any of them. -/
def writeChunk (dir : SessionDir) (name : String) (data : Bytes) : Job Unit :=
  each (fun b => do
    call .write .io
    modify (Archive.update dir (Directory.append name b))) data

def masterName : String := "master.ts"

/-- `concat_mpegts_segments`: a single segment is the master already; several are copied into a new
file one after another. -/
def concatMpegtsSegments (dir : SessionDir) (segments : List String) : Job String :=
  match segments with
  | [] => raise .noSegments
  | [seg] => pure seg
  | _ => do
    call .openFile .io
    modify (Archive.update dir (Directory.put masterName []))
    each (fun seg => do
      let fh ← readSegment dir seg
      each (fun chunk => do
        call .read .io
        writeChunk dir masterName chunk) fh
      call .read .io) segments
    pure masterName

section Media

variable (encode : Tool → Bytes → List (String × Bytes))

/-- `generate_hls_proxy`, `generate_thumbnail`: write files, then check the one asked for. -/
def generate (tool : Tool) (master : MediaPath) : Job String := do
  let data ← reads fun w => w.bytesAt master
  whenever (tool = .thumbnail) do
    modify (Archive.update master.dir fun d => { d with derived := d.derived.erase tool.output })
  each (fun f => do
    call .media .media
    modify (Archive.update master.dir fun d => { d with derived := Dict.set f.1 f.2 d.derived }))
      (encode tool (data.getD []))
  call .media .media
  let written ← reads fun w => (w.media master.dir).derived.lookup tool.output
  if written = none then raise .media
  else pure tool.output

/-- One `try` block of `_derive_media`. -/
def tryGenerate (tool : Tool) (master : MediaPath) : Job (Option String × MediaState) :=
  attempt (do
    let path ← generate encode tool master
    pure (some path, .ok)) fun _ => pure (none, .failed)

/-- `_derive_media`: the paths and metadata of proxy and thumbnail. -/
def deriveMedia (master : MediaPath) (a : Asset) : Job Asset := do
  let data ← reads fun w => w.bytesAt master
  if data = none then
    pure { a with
      proxyPath := none, thumbnailPath := none, proxy := .skipped, thumbnail := .skipped,
      mediaError := some "master_not_a_file" }
  else do
    let proxy ← tryGenerate encode .proxy master
    let thumb ← tryGenerate encode .thumbnail master
    pure { a with
      proxyPath := proxy.1, thumbnailPath := thumb.1, proxy := proxy.2, thumbnail := thumb.2 }

/-- `_load_recording`: the directory of a recording that exists and has no asset. -/
def loadRecording (r : RecordingId) : Job (Option SessionDir) := do
  let recording ← select fun w => w.recordings.lookup r
  match recording with
  | none => pure none
  | some row => do
    let existing ← oneOrNone r
    if existing ≠ none then pure none
    else do
      call .query .database
      pure (some row.storagePath)

/-- `_create_asset`: nothing happens if the recording has its asset, and the constraint of the table
decides if two processes get here at once. -/
def createAsset (a : Asset) : Job Unit := do
  let existing ← oneOrNone a.recordingId
  if existing ≠ none then pure ()
  else do
    call .commit .database
    let allowed ← reads fun w => decide (w.Insertable a)
    if allowed = true then modify (Archive.addAsset a) else raise .integrity

/-- The master of a recording with segments. -/
def masterOf (dir : SessionDir) (seg : String) (rest : List String) : Job String :=
  if rest = [] then pure seg else concatMpegtsSegments dir (seg :: rest)

/-- The asset of a recording without segments. -/
def emptyAsset (r : RecordingId) (dir : SessionDir) : Asset where
  recordingId := r
  masterPath := ⟨dir, none⟩
  proxyPath := none
  thumbnailPath := none
  segmentCount := 0
  concatenatedSegments := none
  proxy := .skipped
  thumbnail := .skipped
  mediaError := some "no_segments"

/-- The asset of a recording with segments, before its media are derived. -/
def segmentsAsset (r : RecordingId) (dir : SessionDir) (name : String) (rest : List String) :
    Asset where
  recordingId := r
  masterPath := ⟨dir, some name⟩
  proxyPath := none
  thumbnailPath := none
  segmentCount := rest.length + 1
  concatenatedSegments := if rest = [] then none else some (rest.length + 1)
  proxy := .skipped
  thumbnail := .skipped
  mediaError := none

/-- `_process` for the segments `seg :: rest`.  What is discovered about the master are its
width, height, codecs and duration. -/
def catalogSegments (r : RecordingId) (dir : SessionDir) (seg : String) (rest : List String) :
    Job Unit := do
  let name ← masterOf dir seg rest
  attempt (call .discover .media) fun _ => pure ()
  let a ← deriveMedia encode ⟨dir, some name⟩ (segmentsAsset r dir name rest)
  createAsset a

/-- `_process`: from the row to the master, the asset and the derived media; a recording without
segments gets nothing. -/
def process (r : RecordingId) : Job Unit := do
  let loaded ← loadRecording r
  match loaded with
  | none => pure ()
  | some dir => do
    let segments ← reads fun w => (w.media dir).listSegments
    match segments with
    | [] => createAsset (emptyAsset r dir)
    | seg :: rest => catalogSegments encode r dir seg rest

/-- `BACKFILL_BATCH`, the number of rows that one start looks at. -/
def backfillBatch : ℕ := 5

/-- `_catalog_uncataloged_recordings`: at a start, the completed recordings without an asset are
processed; the failure of one does not stop the others. -/
def catalogUncatalogedRecordings : Job Unit := do
  let ids ← select fun w => w.uncataloged backfillBatch
  each (fun r => attempt (process encode r) fun _ => pure ()) ids

/-- What a backfill writes to an asset. -/
def refill (found old : Asset) : Asset :=
  { old with
    proxyPath := found.proxyPath.orElse fun _ => old.proxyPath
    thumbnailPath := found.thumbnailPath.orElse fun _ => old.thumbnailPath
    proxy := found.proxy
    thumbnail := found.thumbnail
    mediaError := found.mediaError }

/-- One asset of a backfill; where the master is not a file, only that is written. -/
def backfillAsset (a : Asset) : Job Unit := do
  let data ← reads fun w => w.bytesAt a.masterPath
  if data = none then do
    call .query .database
    call .commit .database
    modify (Archive.updateAsset a.recordingId fun old =>
      { old with mediaError := some "master_not_a_file" })
  else do
    let found ← deriveMedia encode a.masterPath a
    call .query .database
    call .commit .database
    modify (Archive.updateAsset a.recordingId (refill found))

/-- `_backfill_missing_media`: the same for assets whose derived media are missing. -/
def backfillMissingMedia : Job Unit := do
  let pending ← select fun w => w.missingMedia backfillBatch
  each (backfillAsset encode) pending

/-- What `run` does before its loop. -/
def startupPasses : Job Unit := do
  catalogUncatalogedRecordings encode
  backfillMissingMedia encode

/-- What happens to the archive: a job, or a restart, in some environment. -/
inductive Arrival where
  | job (r : RecordingId)
  | restart

/-- The program of an arrival. -/
def Arrival.program : Arrival → Job Unit
  | job r => process encode r
  | restart => startupPasses encode

/-- The archive after a sequence of arrivals. -/
def Archive.after (w : Archive) (as : List (Arrival × Oracle ArchiveCall)) : Archive :=
  as.foldl (fun w a => final a.2 (a.1.program encode) w) w

end Media

end PostProcess
