/-
# Channel sources

`_validate_source_uri` and `SourceConfig` of `ingest_farm/schemas.py`, and the rows that
`create_channel` and `update_channel` write from them.  Texts are lists of characters.  What
`str.lower` does beyond ASCII and what `int` makes of other texts than decimals is a
parameter (`PyLib`).

A source that has been accepted is a fixed point of the validation (`Accepted.build`), so a
stored row can be read again at any time.
-/
import IngestFarm.Etr290Tags
import IngestFarm.Searching
import IngestFarm.Runs
import IngestFarm.Store

/-- `SourceProtocol.value`, the text in the column. -/
def SourceProtocol.value : SourceProtocol → String
  | .srt => "srt"
  | .udp => "udp"
  | .rtmp => "rtmp"
  | .hls => "hls"
  | .file => "file"

/-- `SourceProtocol(value)`; `none` where it raises. -/
def SourceProtocol.ofValue (value : String) : Option SourceProtocol :=
  [srt, udp, rtmp, hls, file].find? fun p => p.value = value

namespace Source

open Etr290 (Text)
open Searching

/-- Schemes and hosts are looked up by their characters. -/
instance : LawfulBEq Text := inferInstance

/-- The number that a decimal text stands for. -/
def decimalValue (digits : Text) : ℕ := digits.foldl (fun n c => 10 * n + (c.toNat - 48)) 0

/-- The built-ins on texts, with what the Python documentation says of them. -/
structure PyLib where
  lower : Text → Text
  int : Text → Option ℤ
  lower_ascii : ∀ t, (∀ c ∈ t, c.toNat < 128) → lower t = t.map Char.toLower
  int_decimal : ∀ t, t ≠ [] → (∀ c ∈ t, c.isDigit = true) →
    int t = if t.length ≤ 4300 then some (decimalValue t : ℤ) else none

/-- The built-ins on ASCII texts; `int` is that of unsigned decimals. -/
def PyLib.ascii : PyLib where
  lower := fun t => t.map Char.toLower
  int := fun t => if t ≠ [] ∧ t.all Char.isDigit = true ∧ t.length ≤ 4300 then
    some (decimalValue t : ℤ) else none
  lower_ascii := fun _ _ => rfl
  int_decimal := by
    intro t hne hdigits
    have hall : t.all Char.isDigit = true := List.all_eq_true.mpr hdigits
    by_cases hlen : t.length ≤ 4300
    · rw [if_pos ⟨hne, hall, hlen⟩, if_pos hlen]
    · rw [if_neg fun h => hlen h.2.2, if_neg hlen]

/-- `"://"`, between the scheme and the rest. -/
def separator : Text := [':', '/', '/']

/-- `"srt"`, the scheme of SRT. -/
def srtScheme : Text := ['s', 'r', 't']

/-- `"udp"`, the scheme of UDP. -/
def udpScheme : Text := ['u', 'd', 'p']

/-- `"srt://"`, what a bare SRT address gets. -/
def srtPrefix : Text := srtScheme ++ separator

/-- `"udp://"`, what a bare UDP address gets. -/
def udpPrefix : Text := udpScheme ++ separator

/-- The double quote and the other characters that a URI must not contain. -/
def forbidden : List Char := [Char.ofNat 34, '!', '\n', '\r']

/-- The URI contains one of them. -/
def injects (uri : Text) : Bool := uri.any fun c => c ∈ forbidden

/-- `_URI_SCHEMES`: the schemes that a protocol takes; a file may go without. -/
def uriSchemes : SourceProtocol → List Text
  | .srt => [srtScheme]
  | .udp => [udpScheme]
  | .rtmp => ["rtmp".toList, "rtmps".toList]
  | .hls => ["http".toList, "https".toList]
  | .file => ["file".toList, []]

/-- A `dict[str, Any]` that came as JSON. -/
abbrev Config := List (String × Json)

section Validation

variable (lib : PyLib)

/-- The scheme of a URI in lower case, empty without `://`. -/
def scheme (uri : Text) : Text :=
  match splitAt separator uri with
  | (before, some _) => lib.lower before
  | (_, none) => []

/-- The URI and its scheme once a missing scheme has been put in front. -/
def withScheme (protocol : SourceProtocol) (uri : Text) : Text × Text :=
  match splitAt separator uri with
  | (before, some _) => (uri, lib.lower before)
  | (_, none) =>
    if protocol = .file then (uri, [])
    else if protocol = .srt ∧ ¬ srtPrefix <+: uri then (srtPrefix ++ uri, srtScheme)
    else if protocol = .udp ∧ ¬ udpPrefix <+: uri then (udpPrefix ++ uri, udpScheme)
    else (uri, [])

/-- `_validate_source_uri`; an error is the text of the `ValueError`. -/
def validateSourceUri (protocol : SourceProtocol) (uri : Text) : Except String Text :=
  let uri := PyText.strip uri
  if uri = [] then .error "uri must not be empty"
  else if injects uri = true then .error "uri must not contain \", !, or newlines"
  else
    let (uri, scheme) := withScheme lib protocol uri
    if scheme ∈ uriSchemes protocol then .ok uri
    else .error ("uri scheme '" ++ (if scheme = [] then "(none)" else String.ofList scheme) ++
      "' is not valid for protocol " ++ protocol.value)

/-- `SourceConfig._uri_no_injection`: nothing that would end the property in a pipeline text may be
in a URI. -/
def uriNoInjection (value : Text) : Except String Text :=
  let raw := PyText.strip value
  if value = [] ∨ raw = [] then .error "uri must not be empty"
  else if injects raw = true then .error "uri must not contain \", !, or newlines"
  else .ok raw

end Validation

/-- `SourceConfig`, where a source is valid once it is built. -/
structure SourceConfig where
  protocol : SourceProtocol
  uri : Text
  config : Config

/-- `SourceConfig(protocol=…, uri=…, config=…)`: the validator and `model_post_init`. -/
def SourceConfig.build (lib : PyLib) (protocol : SourceProtocol) (uri : Text) (config : Config) :
    Except String SourceConfig := do
  let raw ← uriNoInjection uri
  let uri ← validateSourceUri lib protocol raw
  pure ⟨protocol, uri, config⟩

/-! ## Accepted sources -/

/-- What holds of a source that has been accepted. -/
structure Accepted (lib : PyLib) (protocol : SourceProtocol) (uri : Text) : Prop where
  stripped : PyText.strip uri = uri
  nonempty : uri ≠ []
  safe : ∀ c ∈ uri, c ∉ forbidden
  allowed : scheme lib uri ∈ uriSchemes protocol
  complete : ¬ Occurs separator uri → protocol = .file

section Acceptance

variable {lib : PyLib} {protocol : SourceProtocol} {uri raw : Text} {config : Config}

/-- A text that may be in a pipeline. -/
theorem injects_eq_false : injects uri = false ↔ ∀ c ∈ uri, c ∉ forbidden := by
  simp [injects]

/-- The scheme of SRT is in lower case. -/
theorem lower_srt (lib : PyLib) : lib.lower srtScheme = srtScheme :=
  lib.lower_ascii _ (by simp [srtScheme])

/-- So is that of UDP. -/
theorem lower_udp (lib : PyLib) : lib.lower udpScheme = udpScheme :=
  lib.lower_ascii _ (by simp [udpScheme])

/-- What comes before a first `://` that follows a text without colon. -/
theorem splitAt_scheme {s : Text} (h : ':' ∉ s) (rest : Text) :
    splitAt separator (s ++ separator ++ rest) = (s, some rest) :=
  splitAt_append h rest

/-- The scheme is what stands before the separator. -/
theorem scheme_append {s : Text} (h : ':' ∉ s) (rest : Text) :
    scheme lib (s ++ separator ++ rest) = lib.lower s := by
  unfold scheme
  rw [splitAt_scheme h]

/-- A URI with the prefix of SRT. -/
theorem scheme_srtPrefix (rest : Text) : scheme lib (srtPrefix ++ rest) = srtScheme := by
  have h : scheme lib (srtScheme ++ separator ++ rest) = lib.lower srtScheme :=
    scheme_append (by decide) rest
  rw [lower_srt] at h
  exact h

/-- And one with that of UDP. -/
theorem scheme_udpPrefix (rest : Text) : scheme lib (udpPrefix ++ rest) = udpScheme := by
  have h : scheme lib (udpScheme ++ separator ++ rest) = lib.lower udpScheme :=
    scheme_append (by decide) rest
  rw [lower_udp] at h
  exact h

/-- **What `withScheme` returns** is a URI and its scheme; a URI without scheme is that of a
file or is refused. -/
theorem withScheme_cases (lib : PyLib) (protocol : SourceProtocol) (uri : Text) :
    withScheme lib protocol uri = (uri, scheme lib uri) ∧
        (¬ Occurs separator uri → protocol = .file ∨ scheme lib uri = []) ∨
      (protocol = .srt ∧ withScheme lib protocol uri = (srtPrefix ++ uri, srtScheme)) ∨
      (protocol = .udp ∧ withScheme lib protocol uri = (udpPrefix ++ uri, udpScheme)) := by
  unfold withScheme scheme
  rcases hsplit : splitAt separator uri with ⟨before, _ | after⟩
  · dsimp only
    by_cases hfile : protocol = .file
    · rw [if_pos hfile]
      exact Or.inl ⟨rfl, fun _ => Or.inl hfile⟩
    · rw [if_neg hfile]
      by_cases hsrt : protocol = .srt ∧ ¬ srtPrefix <+: uri
      · rw [if_pos hsrt]
        exact Or.inr (Or.inl ⟨hsrt.1, rfl⟩)
      · rw [if_neg hsrt]
        by_cases hudp : protocol = .udp ∧ ¬ udpPrefix <+: uri
        · rw [if_pos hudp]
          exact Or.inr (Or.inr ⟨hudp.1, rfl⟩)
        · rw [if_neg hudp]
          exact Or.inl ⟨rfl, fun _ => Or.inr rfl⟩
  · refine Or.inl ⟨rfl, fun hno => ?_⟩
    have hsnd := splitAt_snd_eq_none.mpr hno
    rw [hsplit] at hsnd
    exact absurd hsnd (by simp)

/-- A stripped text behind one of the protocol's schemes is accepted. -/
theorem accepted_of_scheme {word : Text} (hword : ∀ c ∈ word, PyText.isSpace c = false)
    (hallowed : word ∈ uriSchemes protocol) (hne : word ≠ [])
    (hsafe : ∀ c ∈ word ++ PyText.strip raw, c ∉ forbidden)
    (hscheme : scheme lib (word ++ separator ++ PyText.strip raw) = word) :
    Accepted lib protocol (word ++ separator ++ PyText.strip raw) := by
  have hvisible : ∀ c ∈ separator, PyText.isSpace c = false := by simp [separator, PyText.isSpace]
  have hharmless : ∀ c ∈ separator, c ∉ forbidden := by simp [separator, forbidden]
  have hspace : ∀ c ∈ word ++ separator, PyText.isSpace c = false := by
    intro c hc
    rcases List.mem_append.mp hc with hc | hc
    · exact hword c hc
    · exact hvisible c hc
  refine ⟨PyText.strip_append_strip hspace, by simp [hne], fun c hc => ?_, ?_,
    fun hno => absurd ⟨word, PyText.strip raw, rfl⟩ hno⟩
  · rw [List.mem_append, List.mem_append, or_right_comm, ← List.mem_append] at hc
    rcases hc with hc | hc
    · exact hsafe c hc
    · exact hharmless c hc
  · rw [hscheme]
    exact hallowed

/-- **What the validation accepts.** -/
theorem accepted_of_validate (h : validateSourceUri lib protocol raw = .ok uri) :
    Accepted lib protocol uri := by
  unfold validateSourceUri at h
  by_cases hempty : PyText.strip raw = []
  · rw [if_pos hempty] at h
    exact absurd h (by simp)
  rw [if_neg hempty] at h
  by_cases hforbidden : injects (PyText.strip raw) = true
  · rw [if_pos hforbidden] at h
    exact absurd h (by simp)
  rw [if_neg hforbidden] at h
  have hsafe := injects_eq_false.mp (Bool.not_eq_true _ ▸ hforbidden)
  have hbehind : ∀ word : Text, (∀ c ∈ word, c ∉ forbidden) →
      ∀ c ∈ word ++ PyText.strip raw, c ∉ forbidden := by
    intro word hword c hc
    rcases List.mem_append.mp hc with hc | hc
    · exact hword c hc
    · exact hsafe c hc
  rcases withScheme_cases lib protocol (PyText.strip raw) with
    ⟨hw, hnone⟩ | ⟨rfl, hw⟩ | ⟨rfl, hw⟩
  · rw [hw] at h
    dsimp only at h
    by_cases hallowed : scheme lib (PyText.strip raw) ∈ uriSchemes protocol
    · rw [if_pos hallowed] at h
      obtain rfl := Except.ok.inj h
      refine ⟨PyText.strip_strip raw, hempty, hsafe, hallowed, fun hno => ?_⟩
      rcases hnone hno with hfile | hnil
      · exact hfile
      · rw [hnil] at hallowed
        revert hallowed
        cases protocol <;> simp [uriSchemes, srtScheme, udpScheme]
    · rw [if_neg hallowed] at h
      exact absurd h (by simp)
  · have hallowed : srtScheme ∈ uriSchemes .srt := List.mem_singleton_self _
    rw [hw] at h
    dsimp only at h
    rw [if_pos hallowed] at h
    obtain rfl := Except.ok.inj h
    exact accepted_of_scheme (by simp [srtScheme, PyText.isSpace]) hallowed (by simp [srtScheme])
      (hbehind _ (by simp [srtScheme, forbidden])) (scheme_srtPrefix _)
  · have hallowed : udpScheme ∈ uriSchemes .udp := List.mem_singleton_self _
    rw [hw] at h
    dsimp only at h
    rw [if_pos hallowed] at h
    obtain rfl := Except.ok.inj h
    exact accepted_of_scheme (by simp [udpScheme, PyText.isSpace]) hallowed (by simp [udpScheme])
      (hbehind _ (by simp [udpScheme, forbidden])) (scheme_udpPrefix _)

/-- **An accepted URI is validated to itself.** -/
theorem Accepted.validate (h : Accepted lib protocol uri) :
    validateSourceUri lib protocol uri = .ok uri := by
  have hforbidden : ¬ injects uri = true := by
    rw [injects_eq_false.mpr h.safe]
    exact Bool.false_ne_true
  have hwith : withScheme lib protocol uri = (uri, scheme lib uri) := by
    unfold withScheme scheme
    rcases hsplit : splitAt separator uri with ⟨before, _ | after⟩
    · have hno : ¬ Occurs separator uri := splitAt_snd_eq_none.mp (by rw [hsplit])
      dsimp only
      rw [if_pos (h.complete hno)]
    · rfl
  unfold validateSourceUri
  rw [h.stripped, if_neg h.nonempty, if_neg hforbidden, hwith]
  dsimp only
  rw [if_pos h.allowed]

/-- **An accepted URI makes a source again**, and the same one. -/
theorem Accepted.build (h : Accepted lib protocol uri) (config : Config) :
    SourceConfig.build lib protocol uri config = .ok ⟨protocol, uri, config⟩ := by
  have hforbidden : ¬ injects uri = true := by
    rw [injects_eq_false.mpr h.safe]
    exact Bool.false_ne_true
  have hraw : uriNoInjection uri = .ok uri := by
    unfold uriNoInjection
    rw [h.stripped, if_neg (by simp [h.nonempty]), if_neg hforbidden]
  unfold SourceConfig.build
  rw [hraw]
  simp only [bind, Except.bind, h.validate, pure, Except.pure]

/-- **What `SourceConfig` accepts.** -/
theorem accepted_of_build {s : SourceConfig}
    (h : SourceConfig.build lib protocol raw config = .ok s) :
    Accepted lib protocol s.uri ∧ s.protocol = protocol ∧ s.config = config := by
  unfold SourceConfig.build at h
  cases hraw : uriNoInjection raw with
  | error e =>
    rw [hraw] at h
    exact absurd h (by simp [bind, Except.bind])
  | ok value =>
    rw [hraw] at h
    cases hval : validateSourceUri lib protocol value with
    | error e =>
      simp only [hval, bind, Except.bind] at h
      exact absurd h (by simp)
    | ok uri =>
      simp only [hval, bind, Except.bind, pure, Except.pure] at h
      obtain rfl := Except.ok.inj h
      exact ⟨accepted_of_validate hval, rfl, rfl⟩

end Acceptance

/-! ## Rows -/

/-- The columns of `channels` that hold a source, with the name and the status. -/
structure ChannelRow where
  name : String
  protocol : String
  sourceUri : Text
  sourceConfig : Config
  status : ChannelStatus

/-- The source as `_channel_response` and `_channel_to_config` build it from a row. -/
def ChannelRow.source (lib : PyLib) (row : ChannelRow) : Except String SourceConfig :=
  match SourceProtocol.ofValue row.protocol with
  | none => .error "Input should be 'srt', 'udp', 'rtmp', 'hls' or 'file'"
  | some protocol => SourceConfig.build lib protocol row.sourceUri row.sourceConfig

/-- The channels of the database. -/
abbrev Channels := Dict ℕ ChannelRow

/-- The source of a request before it is validated. -/
structure SourcePayload where
  protocol : SourceProtocol
  uri : Text
  config : Config

/-- What happens to the rows: requests, and the status writes of scheduler and worker. -/
inductive Change where
  | createChannel (id : ℕ) (name : String) (source : SourcePayload)
  | updateChannel (id : ℕ) (name : Option String) (source : Option SourcePayload)
  | deleteChannel (id : ℕ)
  | writeStatus (id : ℕ) (status : ChannelStatus)

section Requests

variable (lib : PyLib)

/-- What the request model makes of a source. -/
def SourcePayload.parse (p : SourcePayload) : Except String SourceConfig :=
  SourceConfig.build lib p.protocol p.uri p.config

/-- `create_channel`; a request that is refused (422, 409) leaves the rows alone. -/
def createChannel (rows : Channels) (id : ℕ) (name : String) (source : SourcePayload) :
    Channels :=
  match source.parse lib with
  | .error _ => rows
  | .ok s =>
    if rows.entries.any (fun e => e.2.name = name) || id ∈ rows.keys then rows
    else Dict.set id ⟨name, s.protocol.value, s.uri, s.config, .idle⟩ rows

/-- The columns that a payload's source overwrites. -/
def ChannelRow.setSource (row : ChannelRow) : Option SourceConfig → ChannelRow
  | none => row
  | some s =>
    { row with protocol := s.protocol.value, sourceUri := s.uri, sourceConfig := s.config }

/-- `update_channel`; a request that is refused (422, 404, 400, 409) leaves the rows alone. -/
def updateChannel (rows : Channels) (id : ℕ) (name : Option String)
    (source : Option SourcePayload) : Channels :=
  match source.mapM (SourcePayload.parse lib) with
  | .error _ => rows
  | .ok s =>
    match rows.lookup id with
    | none => rows
    | some row =>
      if row.status ∉ [ChannelStatus.idle, .error] then rows
      else if rows.entries.any (fun e => some e.2.name = name && e.1 ≠ id) then rows
      else Dict.set id ({ row with name := name.getD row.name }.setSource s) rows

/-- `_require_idle_channel` guards `delete_channel` too. -/
def deleteChannel (rows : Channels) (id : ℕ) : Channels :=
  match rows.lookup id with
  | none => rows
  | some row => if row.status ∉ [ChannelStatus.idle, .error] then rows else rows.erase id

/-- One change of the rows. -/
def change (rows : Channels) : Change → Option Channels
  | .createChannel id name source => some (createChannel lib rows id name source)
  | .updateChannel id name source => some (updateChannel lib rows id name source)
  | .deleteChannel id => some (deleteChannel rows id)
  | .writeStatus id status => some (Dict.modify id (fun row => { row with status := status }) rows)

end Requests

/-- A protocol is read back from its column. -/
theorem ofValue_value (protocol : SourceProtocol) :
    SourceProtocol.ofValue protocol.value = some protocol := by
  cases protocol <;> decide

/-- The columns of the row are those of an accepted source. -/
def ChannelRow.Reloads (lib : PyLib) (row : ChannelRow) : Prop :=
  ∃ protocol : SourceProtocol, row.protocol = protocol.value ∧ Accepted lib protocol row.sourceUri

section Reloading

variable {lib : PyLib}

/-- A row with an accepted URI is read as it stands. -/
theorem ChannelRow.source_of_accepted {row : ChannelRow} {protocol : SourceProtocol}
    (hp : row.protocol = protocol.value) (h : Accepted lib protocol row.sourceUri) :
    row.source lib = .ok ⟨protocol, row.sourceUri, row.sourceConfig⟩ := by
  unfold ChannelRow.source
  rw [hp, ofValue_value]
  exact h.build row.sourceConfig

/-- **The source that was written is the source that is read.** -/
theorem source_setSource {row : ChannelRow} {p : SourcePayload} {s : SourceConfig}
    (h : p.parse lib = .ok s) : (row.setSource (some s)).source lib = .ok s := by
  obtain ⟨hacc, hprotocol, -⟩ := accepted_of_build h
  have hrow : (row.setSource (some s)).protocol = s.protocol.value := rfl
  exact ChannelRow.source_of_accepted hrow (hprotocol ▸ hacc)

/-- A source that was written can be read. -/
theorem reloads_setSource {row : ChannelRow} {p : SourcePayload} {s : SourceConfig}
    (h : p.parse lib = .ok s) : (row.setSource (some s)).Reloads lib := by
  obtain ⟨hacc, hprotocol, -⟩ := accepted_of_build h
  exact ⟨s.protocol, rfl, hprotocol ▸ hacc⟩

/-- Every row can be read. -/
def AllReload (lib : PyLib) (rows : Channels) : Prop :=
  ∀ id row, rows.lookup id = some row → row.Reloads lib

/-- One row more that can be read. -/
theorem AllReload.set {rows : Channels} (h : AllReload lib rows) {id : ℕ} {row : ChannelRow}
    (hrow : row.Reloads lib) : AllReload lib (Dict.set id row rows) := by
  intro j x hx
  rw [Dict.lookup_set] at hx
  by_cases hj : j = id
  · rw [if_pos hj] at hx
    rw [← Option.some.inj hx]
    exact hrow
  · rw [if_neg hj] at hx
    exact h j x hx

/-- A new channel can be read. -/
theorem AllReload.createChannel {rows : Channels} (h : AllReload lib rows) (id : ℕ)
    (name : String) (source : SourcePayload) :
    AllReload lib (createChannel lib rows id name source) := by
  unfold Source.createChannel
  cases hs : source.parse lib with
  | error e => exact h
  | ok s =>
    dsimp only
    split
    · exact h
    · obtain ⟨hacc, hprotocol, -⟩ := accepted_of_build hs
      exact h.set ⟨s.protocol, rfl, hprotocol ▸ hacc⟩

/-- So can one that was changed. -/
theorem AllReload.updateChannel {rows : Channels} (h : AllReload lib rows) (id : ℕ)
    (name : Option String) (source : Option SourcePayload) :
    AllReload lib (updateChannel lib rows id name source) := by
  unfold Source.updateChannel
  cases hs : source.mapM (SourcePayload.parse lib) with
  | error e => exact h
  | ok s =>
    cases hl : rows.lookup id with
    | none => exact h
    | some row =>
      dsimp only
      split
      · exact h
      split
      · exact h
      -- Without a source in the request the row keeps its columns.
      cases source with
      | none =>
        obtain rfl : none = s := Except.ok.inj hs
        exact h.set (h id row hl)
      | some p =>
        cases hp : p.parse lib with
        | error e =>
          rw [Option.mapM_some, hp] at hs
          exact absurd hs (by simp [Functor.map, Except.map])
        | ok s' =>
          rw [Option.mapM_some, hp] at hs
          obtain rfl : some s' = s := Except.ok.inj hs
          exact h.set (reloads_setSource hp)

/-- Deleting takes rows away. -/
theorem AllReload.deleteChannel {rows : Channels} (h : AllReload lib rows) (id : ℕ) :
    AllReload lib (deleteChannel rows id) := by
  unfold Source.deleteChannel
  cases hl : rows.lookup id with
  | none => exact h
  | some row =>
    dsimp only
    split
    · exact h
    · intro j x hx
      rw [Dict.lookup_erase] at hx
      by_cases hj : j = id
      · rw [if_pos hj] at hx
        exact absurd hx (by simp)
      · rw [if_neg hj] at hx
        exact h j x hx

/-- A status is no part of a source. -/
theorem AllReload.writeStatus {rows : Channels} (h : AllReload lib rows) (id : ℕ)
    (status : ChannelStatus) :
    AllReload lib (Dict.modify id (fun row => { row with status := status }) rows) := by
  intro j x hx
  rw [Dict.lookup_modify] at hx
  by_cases hj : j = id
  · rw [if_pos hj] at hx
    obtain ⟨row, hrow, rfl⟩ := Option.map_eq_some_iff.mp hx
    exact h id row hrow
  · rw [if_neg hj] at hx
    exact h j x hx

/-- **One change** keeps every row readable. -/
theorem AllReload.change {rows rows' : Channels} (h : AllReload lib rows) {a : Change}
    (ha : Source.change lib rows a = some rows') : AllReload lib rows' := by
  cases a with
  | createChannel id name source =>
    rw [← Option.some.inj ha]
    exact h.createChannel id name source
  | updateChannel id name source =>
    rw [← Option.some.inj ha]
    exact h.updateChannel id name source
  | deleteChannel id =>
    rw [← Option.some.inj ha]
    exact h.deleteChannel id
  | writeStatus id status =>
    rw [← Option.some.inj ha]
    exact h.writeStatus id status

end Reloading

/-- **Stored sources always reload.**  What is accepted is safe and a fixed point, a row reads
back the source that was written into it, and so does every row after any changes. -/
theorem stored_sources_reload (lib : PyLib) :
    (∀ protocol raw config s, SourceConfig.build lib protocol raw config = .ok s →
      (∀ c ∈ s.uri, c ∉ forbidden) ∧ scheme lib s.uri ∈ uriSchemes protocol ∧
        ∀ config', SourceConfig.build lib protocol s.uri config' = .ok ⟨protocol, s.uri, config'⟩) ∧
    (∀ (row : ChannelRow) (p : SourcePayload) s, p.parse lib = .ok s →
      (row.setSource (some s)).source lib = .ok s) ∧
    (∀ changes rows, Runs.run (change lib) ∅ changes = some rows →
      ∀ id row, rows.lookup id = some row → ∃ protocol : SourceProtocol,
        row.protocol = protocol.value ∧
          row.source lib = .ok ⟨protocol, row.sourceUri, row.sourceConfig⟩) := by
  refine ⟨fun protocol raw config s hs => ?_, fun row p s hs => source_setSource hs,
    fun changes rows hrun id row hrow => ?_⟩
  · obtain ⟨hacc, -, -⟩ := accepted_of_build hs
    exact ⟨hacc.safe, hacc.allowed, hacc.build⟩
  · have hall : AllReload lib rows := by
      refine Runs.run_invariant (I := AllReload lib) (fun _ _ _ h _ ha => h.change ha) changes ∅
        rows ?_ (Runs.along_of_forall (fun _ _ _ => trivial) ∅) hrun
      intro id row hrow
      exact absurd hrow (by simp)
    obtain ⟨protocol, hp, hacc⟩ := hall id row hrow
    exact ⟨protocol, hp, ChannelRow.source_of_accepted hp hacc⟩

/-- A channel is created from a bare address and gets an SRT source while it is idle; then the
scheduler writes its status. -/
theorem stored_sources_reload_changed :
    (∀ config, SourceConfig.build PyLib.ascii .udp "udp://a:1".toList config =
      .ok ⟨.udp, "udp://a:1".toList, config⟩) ∧
    ∃ rows row, Runs.run (change PyLib.ascii) ∅
      [.createChannel 1 "Feed" ⟨.udp, " a:1 ".toList, []⟩,
        .updateChannel 1 none (some ⟨.srt, "srt://b:9".toList, [("latency", .int 200)]⟩),
        .writeStatus 1 .connecting] = some rows ∧ rows.lookup 1 = some row ∧
      ∃ protocol : SourceProtocol, row.protocol = protocol.value ∧
        row.source PyLib.ascii = .ok ⟨protocol, "srt://b:9".toList, [("latency", .int 200)]⟩ := by
  obtain ⟨hfixed, -, hall⟩ := stored_sources_reload PyLib.ascii
  obtain ⟨rows, row, hrun, hrow, huri, hconfig⟩ : ∃ rows row, Runs.run (change PyLib.ascii) ∅
      [.createChannel 1 "Feed" ⟨.udp, " a:1 ".toList, []⟩,
        .updateChannel 1 none (some ⟨.srt, "srt://b:9".toList, [("latency", .int 200)]⟩),
        .writeStatus 1 .connecting] = some rows ∧ rows.lookup 1 = some row ∧
      row.sourceUri = "srt://b:9".toList ∧ row.sourceConfig = [("latency", .int 200)] :=
    ⟨_, _, rfl, rfl, rfl, rfl⟩
  have hread := hall _ rows hrun 1 row hrow
  rw [huri, hconfig] at hread
  exact ⟨(hfixed .udp " a:1 ".toList [] _ rfl).2.2, rows, row, hrun, hrow, hread⟩

end Source
