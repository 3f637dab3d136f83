/-
# The two SRT paths

`SrtSourceStage.link` builds the source inside the worker; `main` of `srt_session_proc` builds
it in a child process, which is handed the URI only.  What both set on `srtsrc` is compared.
`urllib` is modelled on texts: a query is split at `&`, blank values are dropped, tabs and line
breaks are removed before; percent decoding, the netlocs that `urlparse` refuses and `str` of a
JSON value are parameters (`UrlLib`).
-/
import IngestFarm.SourceUris

/-- `value in (True, "true", "1", 1)`: the ways in which a config says yes. -/
def Json.isYes : Json → Bool
  | .bool b => b
  | .int n => n = 1
  | .float x => x = .finite 1
  | .str s => s = "true" || s = "1"
  | _ => false

namespace Source

open Etr290 (Text cut fields keyValue)
open Searching

/-- What is used of `urllib` and of `str`. -/
structure UrlLib where
  unquotePlus : Text → Text
  refuses : Text → Bool
  str : Json → Text
  unquotePlus_plain : ∀ t, '%' ∉ t → '+' ∉ t → unquotePlus t = t

/-- A library for plain texts. -/
def UrlLib.plain : UrlLib where
  unquotePlus := fun t => t
  refuses := fun _ => false
  str := fun
    | .str s => s.toList
    | .int n => Etr290.decimal n
    | _ => []
  unquotePlus_plain := fun _ _ _ => rfl

/-- The text that `urlsplit` works on. -/
def unsafeRemoved (uri : Text) : Text := uri.filter fun c => c ∉ ['\t', '\r', '\n']

/-- `urlparse(uri).netloc` of an `srt://` URI. -/
def urlNetloc (uri : Text) : Text :=
  ((unsafeRemoved uri).drop srtPrefix.length).takeWhile fun c => c ≠ '/' ∧ c ≠ '?' ∧ c ≠ '#'

/-- `urlparse(uri).query`: after the first question mark, before the fragment. -/
def urlQuery (uri : Text) : Text := (cut '?' (cut '#' (unsafeRemoved uri)).1).2.getD []

/-- The fields of a query. -/
def queryFields (uri : Text) : List Text := (fields '&' (urlQuery uri)).filter fun f => f ≠ []

section Query

variable (url : UrlLib)

/-- The name of a field. -/
def fieldName (field : Text) : Text := url.unquotePlus (cut '=' field).1

/-- The pair that `parse_qs` makes of a field; it drops blank values. -/
def queryPair (field : Text) : Option (Text × Text) :=
  match keyValue field with
  | none => none
  | some (key, val) => if val = [] then none else some (url.unquotePlus key, url.unquotePlus val)

/-- `parse_qs(urlparse(uri).query)`, not yet grouped by name. -/
def parseQs (uri : Text) : List (Text × Text) := (queryFields uri).filterMap (queryPair url)

/-- `"latency"`, the field of the query. -/
def latencyName : Text := ['l', 'a', 't', 'e', 'n', 'c', 'y']

/-- The latency that the query of a URI sets. -/
def queryLatency (uri : Text) : Option Text :=
  ((parseQs url uri).find? fun e => e.1 = latencyName).map Prod.snd

/-- The other fields of the query. -/
def otherFields (uri : Text) : List Text :=
  (queryFields uri).filter fun f => fieldName url f ≠ latencyName

end Query

/-- The properties that are set on `srtsrc`; `none` where the element has none of that name. -/
structure SrtProps where
  uri : Text
  waitForConnection : Bool
  keepListening : Option Bool
  authentication : Option Bool

/-- Which optional properties the installed `srtsrc` has. -/
structure Srtsrc where
  hasKeepListening : Bool
  hasAuthentication : Bool

section Paths

variable (url : UrlLib) (settings : SrtSettings) (src : Srtsrc) (config : Config)

/-- The URI of `SrtSourceStage.link`. -/
def stageUri (uri : Text) : Text :=
  match queryLatency url uri, Json.field? "latency" config with
  | some _, _ => uri
  | none, none => ensureSrtLatency settings uri
  | none, some v =>
    uri ++ (if urlQuery uri ≠ [] then '&' else '?') :: (latencyKey ++ url.str v)

/-- `SrtSourceStage.link`, as far as the properties of `srtsrc`. -/
def srtSourceStage (uri : Text) : Except String SrtProps :=
  let uri := withSrtPrefix uri
  if RefusedSrt uri then .error "Invalid SRT URI"
  else if url.refuses (urlNetloc uri) = true then .error "Invalid IPv6 URL"
  else
    .ok
      { uri := stageUri url settings config uri
        waitForConnection := ((Json.field? "wait_for_connection" config).map Json.truthy).getD
          settings.gstSrtWaitForConnection
        keepListening := if src.hasKeepListening then
          some (((Json.field? "keep_listening" config).map Json.truthy).getD
            settings.gstSrtKeepListening) else none
        authentication := if src.hasAuthentication then
          some (((Json.field? "authentication" config).map Json.isYes).getD
            settings.gstSrtAuthentication) else none }

/-- `main` of `srt_session_proc`, as far as the properties of `srtsrc`. -/
def srtChild (uri : Text) : Except String SrtProps :=
  match normalizeSrtUri settings uri with
  | .error e => .error e
  | .ok uri =>
    .ok
      { uri := uri
        waitForConnection := settings.gstSrtWaitForConnection
        keepListening := if src.hasKeepListening then some settings.gstSrtKeepListening else none
        authentication :=
          if src.hasAuthentication then some settings.gstSrtAuthentication else none }

/-- The latency that should be in effect. -/
def wantedLatency (uri : Text) : Text :=
  (queryLatency url uri).getD (((Json.field? "latency" config).map url.str).getD
    (Etr290.decimal settings.gstSrtLatencyMs))

/-- **Both paths configure `srtsrc` alike**, with the latency wanted and every other query
field as it was. -/
def ConfiguredAlike (uri : Text) : Prop :=
  ∃ props, srtSourceStage url settings src config uri = .ok props ∧
    srtChild settings src uri = .ok props ∧
    queryLatency url props.uri = some (wantedLatency url settings config (withSrtPrefix uri)) ∧
    otherFields url props.uri = otherFields url (withSrtPrefix uri)

/-- The overrides of the channel say what the settings say anyway. -/
structure NoOverride : Prop where
  wait : ∀ v, Json.field? "wait_for_connection" config = some v →
    v.truthy = settings.gstSrtWaitForConnection
  keep : src.hasKeepListening = true → ∀ v, Json.field? "keep_listening" config = some v →
    v.truthy = settings.gstSrtKeepListening
  auth : src.hasAuthentication = true → ∀ v, Json.field? "authentication" config = some v →
    v.isYes = settings.gstSrtAuthentication

/-- The substring test sees the latency that the query parser sees, an appended latency ends
up in the query, and the channel's own latency is that of the settings. -/
structure PlainLatency (uri : Text) : Prop where
  seen : queryLatency url uri ≠ none → Occurs latencyKey uri
  absent : queryLatency url uri = none → ¬ Occurs latencyKey uri ∧ '#' ∉ uri
  same : queryLatency url uri = none → ∀ v, Json.field? "latency" config = some v →
    url.str v = Etr290.decimal settings.gstSrtLatencyMs ∧ (urlQuery uri ≠ [] ∨ '?' ∉ uri)

end Paths

/-! ## Appending a field -/

section Appending

variable {url : UrlLib} {uri field : Text}

/-- A text without the characters that `urlsplit` removes or splits at. -/
structure FieldText (field : Text) : Prop where
  visible : ∀ c ∈ field, c ∉ ['\t', '\r', '\n']
  whole : '&' ∉ field
  noFragment : '#' ∉ field

theorem unsafeRemoved_append (a b : Text) :
    unsafeRemoved (a ++ b) = unsafeRemoved a ++ unsafeRemoved b :=
  List.filter_append ..

theorem unsafeRemoved_of_visible {a : Text} (h : ∀ c ∈ a, c ∉ ['\t', '\r', '\n']) :
    unsafeRemoved a = a := by
  apply List.filter_eq_self.mpr
  intro c hc
  exact decide_eq_true (h c hc)

theorem mem_unsafeRemoved {c : Char} (h : c ∉ ['\t', '\r', '\n']) :
    c ∈ unsafeRemoved uri ↔ c ∈ uri := by
  unfold unsafeRemoved
  rw [List.mem_filter]
  exact and_iff_left (decide_eq_true h)

/-- In a fragment nothing reaches the query. -/
theorem urlQuery_append_of_fragment (h : '#' ∈ uri) (t : Text) :
    urlQuery (uri ++ t) = urlQuery uri := by
  have hmem : '#' ∈ unsafeRemoved uri := (mem_unsafeRemoved (by decide)).mpr h
  obtain ⟨a, b, hab, ha⟩ := List.eq_append_cons_of_mem hmem
  unfold urlQuery
  rw [unsafeRemoved_append, hab, List.append_assoc, List.cons_append, Etr290.cut_append ha,
    Etr290.cut_append ha]

/-- **A field is appended** to a URI without fragment, with the separator that its query
needs. -/
theorem queryFields_append (hf : FieldText field) (hne : field ≠ []) (hno : '#' ∉ uri) :
    queryFields (uri ++ (if '?' ∈ uri then '&' else '?') :: field) =
      queryFields uri ++ [field] := by
  have hsep : ∀ c, c = '&' ∨ c = '?' → c ∉ ['\t', '\r', '\n'] := by
    rintro c (rfl | rfl) <;> decide
  have hremoved : ∀ c, c = '&' ∨ c = '?' →
      unsafeRemoved (uri ++ c :: field) = unsafeRemoved uri ++ c :: field := by
    intro c hc
    have hvisible : unsafeRemoved (c :: field) = c :: field := by
      apply unsafeRemoved_of_visible
      intro d hd
      rcases List.mem_cons.mp hd with rfl | hd
      · exact hsep _ hc
      · exact hf.visible d hd
    rw [unsafeRemoved_append, hvisible]
  have hnoR : '#' ∉ unsafeRemoved uri := fun h => hno ((mem_unsafeRemoved (by decide)).mp h)
  have hwhole : fields '&' field = [field] := Etr290.fields_of_not_mem hf.whole
  unfold queryFields urlQuery
  rw [Etr290.cut_of_not_mem hnoR]
  by_cases hq : '?' ∈ uri
  · have hqR : '?' ∈ unsafeRemoved uri := (mem_unsafeRemoved (by decide)).mpr hq
    obtain ⟨p, q, hpq, hp⟩ := List.eq_append_cons_of_mem hqR
    have hno' : '#' ∉ p ++ '?' :: (q ++ '&' :: field) := by
      rw [hpq] at hnoR
      simp only [List.mem_append, List.mem_cons, not_or] at hnoR ⊢
      exact ⟨hnoR.1, by decide, hnoR.2.2, by decide, hf.noFragment⟩
    rw [if_pos hq, hremoved '&' (Or.inl rfl), hpq, List.append_assoc, List.cons_append,
      Etr290.cut_of_not_mem hno', Etr290.cut_append hp, Etr290.cut_append hp]
    show (fields '&' (q ++ '&' :: field)).filter _ = (fields '&' q).filter _ ++ [field]
    rw [Etr290.fields_append, hwhole, List.filter_append]
    simp [hne]
  · have hqR : '?' ∉ unsafeRemoved uri := fun h => hq ((mem_unsafeRemoved (by decide)).mp h)
    have hno' : '#' ∉ unsafeRemoved uri ++ '?' :: field := by
      simp only [List.mem_append, List.mem_cons, not_or]
      exact ⟨hnoR, by decide, hf.noFragment⟩
    rw [if_neg hq, hremoved '?' (Or.inr rfl), Etr290.cut_of_not_mem hno',
      Etr290.cut_append hqR, Etr290.cut_of_not_mem hqR]
    show (fields '&' field).filter _ = (fields '&' []).filter _ ++ [field]
    rw [hwhole]
    simp [fields, hne]

/-- The appended latency is the one in effect where the query had none, and every other field
stays. -/
theorem queryLatency_append {val : Text} (hf : FieldText (latencyKey ++ val)) (hne : val ≠ [])
    (hplain : '%' ∉ val ∧ '+' ∉ val) (hno : '#' ∉ uri) (hnone : queryLatency url uri = none) :
    queryLatency url (uri ++ (if '?' ∈ uri then '&' else '?') :: (latencyKey ++ val)) = some val ∧
      otherFields url (uri ++ (if '?' ∈ uri then '&' else '?') :: (latencyKey ++ val)) =
        otherFields url uri := by
  have hname : url.unquotePlus latencyName = latencyName :=
    url.unquotePlus_plain _ (by decide) (by decide)
  have hcut : cut '=' (latencyKey ++ val) = (latencyName, some val) :=
    Etr290.cut_append (l := latencyName) (by decide)
  have hpair : queryPair url (latencyKey ++ val) = some (latencyName, val) := by
    unfold queryPair keyValue
    rw [hcut]
    dsimp only
    rw [if_neg hne, hname, url.unquotePlus_plain val hplain.1 hplain.2]
  have hfields := queryFields_append hf (by simp [latencyKey]) hno
  constructor
  · unfold queryLatency parseQs at hnone ⊢
    rw [Option.map_eq_none_iff] at hnone
    rw [hfields, List.filterMap_append, List.find?_append, hnone]
    simp [hpair]
  · unfold otherFields
    rw [hfields, List.filter_append]
    have hfield : fieldName url (latencyKey ++ val) = latencyName := by
      unfold fieldName
      rw [hcut]
      exact hname
    simp [hfield]

/-- The decimal text of a number is a field text. -/
theorem fieldText_decimal (n : ℤ) : FieldText (latencyKey ++ Etr290.decimal n) ∧
    Etr290.decimal n ≠ [] ∧ '%' ∉ Etr290.decimal n ∧ '+' ∉ Etr290.decimal n := by
  have hnot : ∀ c : Char, c ≠ '-' → c.isDigit = false → c ∉ Etr290.decimal n := by
    intro c hminus hdigit hc
    rcases Etr290.mem_decimal hc with rfl | hd
    · exact hminus rfl
    · exact absurd (hdigit.symm.trans hd) (by simp)
  have hmem : ∀ c : Char, c ∉ latencyKey → c ≠ '-' → c.isDigit = false →
      c ∉ latencyKey ++ Etr290.decimal n := by
    intro c hkey hminus hdigit hc
    rcases List.mem_append.mp hc with hc | hc
    · exact hkey hc
    · exact hnot c hminus hdigit hc
  refine ⟨⟨fun c hc hbad => ?_, ?_, ?_⟩, ?_, ?_, ?_⟩
  · simp only [List.mem_cons, List.not_mem_nil, or_false] at hbad
    rcases hbad with rfl | rfl | rfl
    · exact hmem _ (by decide) (by decide) (by decide) hc
    · exact hmem _ (by decide) (by decide) (by decide) hc
    · exact hmem _ (by decide) (by decide) (by decide) hc
  · exact hmem _ (by decide) (by decide) (by decide)
  · exact hmem _ (by decide) (by decide) (by decide)
  · unfold Etr290.decimal
    exact List.append_ne_nil_of_right_ne_nil _ Nat.toDigits_ne_nil
  · exact hnot _ (by decide) (by decide)
  · exact hnot _ (by decide) (by decide)

end Appending

/-! ## The two paths -/

section Agreement

variable {url : UrlLib} {settings : SrtSettings} {src : Srtsrc} {config : Config} {uri : Text}

/-- The child appends the latency of the settings unless the substring is there. -/
theorem ensureSrtLatency_of_not (h : ¬ Occurs latencyKey uri) :
    ensureSrtLatency settings uri = uri ++ (if '?' ∈ uri then '&' else '?') ::
      (latencyKey ++ Etr290.decimal settings.gstSrtLatencyMs) := by
  unfold ensureSrtLatency
  rw [if_neg h]
  simp

/-- What an appended text leaves of a URI with a fragment: the query it had. -/
theorem queryLatency_append_of_fragment (h : '#' ∈ uri) (t : Text) :
    queryLatency url (uri ++ t) = queryLatency url uri := by
  unfold queryLatency parseQs queryFields
  rw [urlQuery_append_of_fragment h]

/-- A query that is there has a question mark in front. -/
theorem mem_of_urlQuery_ne (h : urlQuery uri ≠ []) : '?' ∈ uri := by
  by_contra hq
  have hqR : '?' ∉ (cut '#' (unsafeRemoved uri)).1 := by
    intro hmem
    apply hq
    apply (mem_unsafeRemoved (by decide)).mp
    by_cases hno : '#' ∈ unsafeRemoved uri
    · obtain ⟨a, b, hab, ha⟩ := List.eq_append_cons_of_mem hno
      rw [hab, Etr290.cut_append ha] at hmem
      rw [hab]
      exact List.mem_append_left _ hmem
    · rw [Etr290.cut_of_not_mem hno] at hmem
      exact hmem
  apply h
  unfold urlQuery
  rw [Etr290.cut_of_not_mem hqR]
  rfl

/-- URIs that agree, where the channel's URI has no latency of its own: one was appended, once. -/
theorem plainLatency_of_agree (hq : queryLatency url uri = none)
    (heq : stageUri url settings config uri = ensureSrtLatency settings uri)
    (hlat : queryLatency url (ensureSrtLatency settings uri) =
      some (wantedLatency url settings config uri)) : PlainLatency url settings config uri := by
  have hnot : ¬ Occurs latencyKey uri := by
    intro hocc
    have hchild : ensureSrtLatency settings uri = uri := if_pos hocc
    rw [hchild, hq] at hlat
    exact absurd hlat (by simp)
  have hfrag : '#' ∉ uri := by
    intro hmem
    rw [ensureSrtLatency_of_not hnot, queryLatency_append_of_fragment hmem, hq] at hlat
    exact absurd hlat (by simp)
  refine ⟨fun h => absurd hq h, fun _ => ⟨hnot, hfrag⟩, fun _ v hv => ?_⟩
  have hstage : stageUri url settings config uri =
      uri ++ (if urlQuery uri ≠ [] then '&' else '?') :: (latencyKey ++ url.str v) := by
    unfold stageUri
    rw [hq, hv]
  rw [hstage, ensureSrtLatency_of_not hnot] at heq
  have htail := List.append_cancel_left heq
  obtain ⟨hsep, hval⟩ := List.cons.inj htail
  refine ⟨List.append_cancel_left hval, ?_⟩
  by_contra hno
  rw [not_or, not_not, not_not] at hno
  rw [if_neg (not_not.mpr hno.1), if_pos hno.2] at hsep
  exact absurd hsep (by decide)

/-- There a plain latency is appended by both in the same way. -/
theorem agree_of_plainLatency (hq : queryLatency url uri = none)
    (h : PlainLatency url settings config uri) :
    stageUri url settings config uri = ensureSrtLatency settings uri ∧
      queryLatency url (ensureSrtLatency settings uri) =
        some (wantedLatency url settings config uri) ∧
      otherFields url (ensureSrtLatency settings uri) = otherFields url uri := by
  obtain ⟨hfield, hne, hplain⟩ := fieldText_decimal settings.gstSrtLatencyMs
  obtain ⟨hnot, hfrag⟩ := h.absent hq
  have hchild : ensureSrtLatency settings uri = uri ++ (if '?' ∈ uri then '&' else '?') ::
      (latencyKey ++ Etr290.decimal settings.gstSrtLatencyMs) := ensureSrtLatency_of_not hnot
  obtain ⟨hlat, hothers⟩ := queryLatency_append hfield hne hplain hfrag hq
  refine ⟨?_, ?_, ?_⟩
  · unfold stageUri
    rw [hq]
    cases hv : Json.field? "latency" config with
    | none => rfl
    | some v =>
      obtain ⟨hstr, hsep⟩ := h.same hq v hv
      dsimp only
      rw [hstr, hchild]
      by_cases hquery : urlQuery uri ≠ []
      · rw [if_pos hquery, if_pos (mem_of_urlQuery_ne hquery)]
      · rw [if_neg hquery, if_neg (hsep.resolve_left hquery)]
  · rw [hchild, hlat]
    unfold wantedLatency
    rw [hq]
    cases hv : Json.field? "latency" config with
    | none => rfl
    | some v => simp [(h.same hq v hv).1]
  · rw [hchild, hothers]

/-- **The URIs agree and carry the latency wanted** exactly where the latency is plain. -/
theorem uri_agree_iff :
    (stageUri url settings config uri = ensureSrtLatency settings uri ∧
      queryLatency url (ensureSrtLatency settings uri) =
        some (wantedLatency url settings config uri) ∧
      otherFields url (ensureSrtLatency settings uri) = otherFields url uri) ↔
      PlainLatency url settings config uri := by
  cases hq : queryLatency url uri with
  | some own =>
    have hstage : stageUri url settings config uri = uri := by
      unfold stageUri
      rw [hq]
    rw [hstage]
    constructor
    · rintro ⟨heq, -, -⟩
      refine ⟨fun _ => ?_, fun h => absurd (hq.symm.trans h) (by simp),
        fun h => absurd (hq.symm.trans h) (by simp)⟩
      by_contra hocc
      rw [ensureSrtLatency_of_not hocc] at heq
      have hlen := congrArg List.length heq
      rw [List.length_append, List.length_cons] at hlen
      omega
    · intro h
      have hocc := h.seen (by rw [hq]; simp)
      have hchild : ensureSrtLatency settings uri = uri := if_pos hocc
      rw [hchild]
      refine ⟨rfl, ?_, rfl⟩
      unfold wantedLatency
      rw [hq]
      rfl
  | none =>
    constructor
    · rintro ⟨heq, hlat, -⟩
      exact plainLatency_of_agree hq heq hlat
    · exact agree_of_plainLatency hq

/-- The flags agree exactly where the channel overrides nothing. -/
theorem flags_agree_iff :
    (((Json.field? "wait_for_connection" config).map Json.truthy).getD
          settings.gstSrtWaitForConnection = settings.gstSrtWaitForConnection ∧
      (if src.hasKeepListening then
          some (((Json.field? "keep_listening" config).map Json.truthy).getD
            settings.gstSrtKeepListening) else none) =
        (if src.hasKeepListening then some settings.gstSrtKeepListening else none) ∧
      (if src.hasAuthentication then
          some (((Json.field? "authentication" config).map Json.isYes).getD
            settings.gstSrtAuthentication) else none) =
        (if src.hasAuthentication then some settings.gstSrtAuthentication else none)) ↔
      NoOverride settings src config := by
  have key : ∀ (o : Option Json) (f : Json → Bool) (b : Bool),
      (o.map f).getD b = b ↔ ∀ v, o = some v → f v = b := by
    intro o f b
    cases o <;> simp
  have hif : ∀ (has : Bool) (a b : Bool),
      ((if has then some a else none) = if has then some b else none) ↔ (has = true → a = b) := by
    intro has a b
    cases has <;> simp
  rw [hif, hif, key, key, key]
  constructor
  · rintro ⟨h1, h2, h3⟩
    exact ⟨h1, h2, h3⟩
  · intro h
    exact ⟨h.wait, h.keep, h.auth⟩

/-- **Both SRT paths configure `srtsrc` alike** exactly when the URI is one that `urlparse`
takes, the channel overrides nothing and the latency is plain. -/
theorem configured_alike_iff (lib : PyLib) (url : UrlLib) (settings : SrtSettings)
    (src : Srtsrc) {raw : Text} {config : Config} {s : SourceConfig}
    (h : SourceConfig.build lib .srt raw config = .ok s) :
    ConfiguredAlike url settings src s.config s.uri ↔
      url.refuses (urlNetloc (withSrtPrefix s.uri)) = false ∧
        NoOverride settings src s.config ∧
        PlainLatency url settings s.config (withSrtPrefix s.uri) := by
  obtain ⟨hacc, -, -⟩ := accepted_of_build h
  have hnot := not_refusedSrt hacc.safe
  rw [← flags_agree_iff, ← uri_agree_iff]
  unfold ConfiguredAlike srtSourceStage srtChild normalizeSrtUri
  dsimp only
  rw [if_neg hnot, if_neg hnot]
  cases hrefuse : url.refuses (urlNetloc (withSrtPrefix s.uri)) with
  | true =>
    rw [if_pos rfl]
    constructor
    · rintro ⟨props, hstage, -⟩
      exact absurd hstage (by simp)
    · rintro ⟨hfalse, -⟩
      exact absurd hfalse (by simp)
  | false =>
    rw [if_neg Bool.false_ne_true]
    constructor
    · rintro ⟨props, hstage, hchild, hlat, hothers⟩
      have hprops := Except.ok.inj (hstage.trans hchild.symm)
      obtain rfl := Except.ok.inj hchild
      obtain ⟨huri, hwait, hkeep, hauth⟩ := SrtProps.mk.inj hprops
      exact ⟨rfl, ⟨hwait, hkeep, hauth⟩, huri, hlat, hothers⟩
    · rintro ⟨-, ⟨hwait, hkeep, hauth⟩, huri, hlat, hothers⟩
      refine ⟨_, ?_, rfl, hlat, hothers⟩
      rw [huri, hwait, hkeep, hauth]

end Agreement

/-- Without overrides and query both paths append the latency of the settings. -/
theorem configured_alike_iff_bare :
    ConfiguredAlike UrlLib.plain SrtSettings.default ⟨true, true⟩ [] bareUri ↔
      UrlLib.plain.refuses (urlNetloc (withSrtPrefix bareUri)) = false ∧
        NoOverride SrtSettings.default ⟨true, true⟩ [] ∧
        PlainLatency UrlLib.plain SrtSettings.default [] (withSrtPrefix bareUri) := by
  have hbuild : SourceConfig.build PyLib.ascii .srt ['h', ':', '1'] [] =
      .ok ⟨.srt, bareUri, []⟩ := rfl
  exact configured_alike_iff PyLib.ascii UrlLib.plain SrtSettings.default ⟨true, true⟩ hbuild

/-- The latency of the channel does not reach the child. -/
theorem channel_latency_ignored :
    SourceConfig.build PyLib.ascii .srt ['h', ':', '1'] [("latency", .int 120)] =
        .ok ⟨.srt, bareUri, [("latency", .int 120)]⟩ ∧
      ¬ ConfiguredAlike UrlLib.plain SrtSettings.default ⟨true, true⟩ [("latency", .int 120)]
        bareUri := by
  refine ⟨rfl, ?_⟩
  rintro ⟨props, hstage, hchild, -⟩
  have huris := congrArg (fun r => r.toOption.map SrtProps.uri) (hstage.trans hchild.symm)
  exact absurd huris (by decide)

end Source
