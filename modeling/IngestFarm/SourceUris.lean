/-
# What the pipeline makes of an accepted URI

Validation compares schemes in lower case; the consumers re-parse the stored text with their
own tests.  `_normalize_srt_uri`, the address part of `UdpSourceStage.link` and the location
of `FileSourceStage.link`, with the condition under which each of them reads what was
accepted.
-/
import IngestFarm.Etr290RoundTrip
import IngestFarm.Source

namespace Source

open Etr290 (Text)
open Searching

/-- The SRT settings. -/
structure SrtSettings where
  gstSrtLatencyMs : ℤ
  gstSrtWaitForConnection : Bool
  gstSrtKeepListening : Bool
  gstSrtAuthentication : Bool

/-- `"latency="`, which the code looks for anywhere in the text. -/
def latencyKey : Text := ['l', 'a', 't', 'e', 'n', 'c', 'y', '=']

/-- `Settings.ensure_srt_latency`: a URI that does not say a latency gets the one of the
settings. -/
def ensureSrtLatency (settings : SrtSettings) (uri : Text) : Text :=
  if Occurs latencyKey uri then uri
  else
    let sep := if '?' ∈ uri then '&' else '?'
    uri ++ sep :: latencyKey ++ Etr290.decimal settings.gstSrtLatencyMs

/-- The prefix that both SRT paths put in front of a URI without it. -/
def withSrtPrefix (uri : Text) : Text := if srtPrefix <+: uri then uri else srtPrefix ++ uri

/-- The characters that both SRT paths refuse. -/
def RefusedSrt (uri : Text) : Prop := Char.ofNat 34 ∈ uri ∨ '!' ∈ uri

instance (uri : Text) : Decidable (RefusedSrt uri) :=
  inferInstanceAs (Decidable (Char.ofNat 34 ∈ uri ∨ '!' ∈ uri))

/-- `_normalize_srt_uri`: scheme first, then the check, then the latency. -/
def normalizeSrtUri (settings : SrtSettings) (uri : Text) : Except String Text :=
  let uri := withSrtPrefix uri
  if RefusedSrt uri then .error "invalid SRT uri" else .ok (ensureSrtLatency settings uri)

/-- The properties that `UdpSourceStage.link` sets on `udpsrc`; `none` leaves the default. -/
structure UdpProps where
  port : ℤ
  address : Option Text
  deriving DecidableEq

/-- The hosts for which no address is set. -/
def anyHost : List Text := [['0', '.', '0', '.', '0', '.', '0'], []]

/-- The address part of `UdpSourceStage.link`; `none` where `int` raises. -/
def udpProps (lib : PyLib) (uri : Text) : Option UdpProps :=
  match Etr290.rcut ':' (remove udpPrefix uri) with
  | (host, some port) => do
    let port ← lib.int port
    some ⟨port, if host ∈ anyHost then none else some host⟩
  | (port, none) => do
    let port ← lib.int port
    some ⟨port, none⟩

/-- The `location` that `FileSourceStage.link` sets on `filesrc`. -/
def fileLocation (uri : Text) : Text := uri

/-! ## What is meant -/

/-- The part of a URI after its first `://`. -/
def afterScheme (uri : Text) : Text := (splitAt separator uri).2.getD uri

/-- The authority: what comes after the scheme, up to the path, the query or the fragment. -/
def authority (uri : Text) : Text :=
  (afterScheme uri).takeWhile fun c => c ≠ '/' ∧ c ≠ '?' ∧ c ≠ '#'

/-- The URI has the scheme `srt`, and what follows has not. -/
def OneSrtScheme (lib : PyLib) (uri : Text) : Prop :=
  scheme lib uri = srtScheme ∧ scheme lib (afterScheme uri) ≠ srtScheme

/-- `"file://"`, before a path. -/
def filePrefix : Text := ['f', 'i', 'l', 'e', ':', '/', '/']

/-- **What a consumer should make of an accepted URI.** -/
def MeansTheSame (lib : PyLib) (settings : SrtSettings) (uri : Text) : SourceProtocol → Prop
  | .srt => ∃ out, normalizeSrtUri settings uri = .ok out ∧ srtPrefix <+: out ∧
      OneSrtScheme lib out ∧ authority out = authority uri
  | .udp => ∀ s host port, s.map Char.toLower = udpScheme → port ≠ [] →
      (∀ c ∈ port, c.isDigit = true) → uri = s ++ separator ++ host ++ ':' :: port →
        ∃ props, udpProps lib uri = some props ∧ props.port = decimalValue port ∧
          (host ∉ anyHost → props.address = some host)
  | .file => ∀ path, (¬ Occurs separator uri ∧ path = uri ∨ uri = filePrefix ++ path) →
      fileLocation uri = path
  | _ => True

/-- **When it does.** -/
def Unambiguous (lib : PyLib) (uri : Text) : SourceProtocol → Prop
  | .srt => srtPrefix <+: uri ∧ scheme lib (afterScheme uri) ≠ srtScheme
  | .udp => ∀ s host port, s.map Char.toLower = udpScheme → port ≠ [] →
      (∀ c ∈ port, c.isDigit = true) → uri = s ++ separator ++ host ++ ':' :: port →
        port.length ≤ 4300 ∧
          (host ∈ anyHost ∨ s = udpScheme ∧ ¬ Occurs udpPrefix host)
  | .file => ¬ filePrefix <+: uri
  | _ => True

/-! ## SRT -/

section Srt

variable {lib : PyLib} {settings : SrtSettings} {uri rest : Text}

theorem afterScheme_append {s : Text} (h : ':' ∉ s) (rest : Text) :
    afterScheme (s ++ separator ++ rest) = rest := by
  unfold afterScheme
  rw [splitAt_scheme h]
  rfl

theorem afterScheme_srtPrefix (rest : Text) : afterScheme (srtPrefix ++ rest) = rest :=
  afterScheme_append (s := srtScheme) (by simp [srtScheme]) rest

/-- What `ensure_srt_latency` appends, if it appends anything. -/
theorem ensureSrtLatency_eq (settings : SrtSettings) (uri : Text) :
    ∃ tail, ensureSrtLatency settings uri = uri ++ tail ∧ (∀ c ∈ tail, c ∉ separator) ∧
      ∀ c ∈ tail.head?, c = '?' ∨ c = '&' ∧ '?' ∈ uri := by
  unfold ensureSrtLatency
  by_cases hocc : Occurs latencyKey uri
  · rw [if_pos hocc]
    exact ⟨[], by simp, by simp, by simp⟩
  · rw [if_neg hocc]
    have hkey : ∀ c ∈ latencyKey, c ∉ separator := by simp [latencyKey, separator]
    refine ⟨(if '?' ∈ uri then '&' else '?') :: (latencyKey ++
      Etr290.decimal settings.gstSrtLatencyMs), by simp, fun c hc => ?_, fun c hc => ?_⟩
    · rcases List.mem_cons.mp hc with rfl | hc
      · split <;> simp [separator]
      rcases List.mem_append.mp hc with hc | hc
      · exact hkey c hc
      · rcases Etr290.mem_decimal hc with rfl | hdigit
        · simp [separator]
        · intro hsep
          simp only [separator, List.mem_cons, List.not_mem_nil, or_false, or_self] at hsep
          rcases hsep with rfl | rfl <;> exact absurd hdigit (by decide)
    · obtain rfl := Option.some.inj hc
      by_cases hq : '?' ∈ uri
      · rw [if_pos hq]
        exact Or.inr ⟨rfl, hq⟩
      · rw [if_neg hq]
        exact Or.inl rfl

/-- A tail without colon and slash does not change the scheme. -/
theorem scheme_append_tail {tail : Text} (h : ∀ c ∈ tail, c ∉ separator) (uri : Text) :
    scheme lib (uri ++ tail) = scheme lib uri := by
  unfold scheme
  rw [splitAt_append_tail (by simp [separator]) h]
  rcases splitAt separator uri with ⟨before, _ | after⟩ <;> rfl

/-- A query that is appended does not change the authority. -/
theorem authority_append_tail {tail : Text}
    (h : ∀ c ∈ tail.head?, c = '?' ∨ c = '&' ∧ '?' ∈ srtPrefix ++ rest) :
    authority (srtPrefix ++ rest ++ tail) = authority (srtPrefix ++ rest) := by
  unfold authority
  rw [List.append_assoc, afterScheme_srtPrefix, afterScheme_srtPrefix, List.takeWhile_append]
  split
  · next hlen =>
    have hself := List.IsPrefix.eq_of_length (List.takeWhile_prefix _) hlen
    rw [hself]
    cases tail with
    | nil => simp
    | cons c cs =>
      rcases h c rfl with rfl | ⟨-, hq⟩
      · simp
      · -- The authority is all of `rest`, so `rest` has no question mark.
        have hall := List.takeWhile_eq_self_iff.mp hself
        have hmem : '?' ∈ rest := by
          rcases List.mem_append.mp hq with hq | hq
          · exact absurd hq (by simp [srtPrefix, srtScheme, separator])
          · exact hq
        exact absurd (hall _ hmem) (by simp)
  · rfl

/-- Neither SRT path refuses an accepted URI. -/
theorem not_refusedSrt (hsafe : ∀ c ∈ uri, c ∉ forbidden) : ¬ RefusedSrt (withSrtPrefix uri) := by
  have hmem : ∀ c ∈ withSrtPrefix uri, c ∈ srtPrefix ∨ c ∈ uri := by
    intro c hc
    unfold withSrtPrefix at hc
    split at hc
    · exact Or.inr hc
    · exact List.mem_append.mp hc
  rintro (hc | hc)
  · rcases hmem _ hc with hc | hc
    · exact absurd hc (by decide)
    · exact hsafe _ hc (by simp [forbidden])
  · rcases hmem _ hc with hc | hc
    · exact absurd hc (by decide)
    · exact hsafe _ hc (by simp [forbidden])

/-- **One srt scheme and the same authority** come out exactly when the scheme is spelled in
lower case and stands there once. -/
theorem srt_iff (hscheme : scheme lib uri = srtScheme) (hsafe : ∀ c ∈ uri, c ∉ forbidden) :
    MeansTheSame lib settings uri .srt ↔ Unambiguous lib uri .srt := by
  have hout :
      normalizeSrtUri settings uri = .ok (ensureSrtLatency settings (withSrtPrefix uri)) := by
    unfold normalizeSrtUri
    rw [if_neg (not_refusedSrt hsafe)]
  obtain ⟨tail, htail, hsep, hhead⟩ := ensureSrtLatency_eq settings (withSrtPrefix uri)
  constructor
  · rintro ⟨out, hok, -, hone, -⟩
    rw [hout, htail] at hok
    obtain rfl := Except.ok.inj hok
    by_cases hp : srtPrefix <+: uri
    · refine ⟨hp, ?_⟩
      obtain ⟨rest, rfl⟩ := hp
      have hwith : withSrtPrefix (srtPrefix ++ rest) = srtPrefix ++ rest :=
        if_pos (List.prefix_append ..)
      have h2 := hone.2
      rw [hwith, List.append_assoc, afterScheme_srtPrefix, scheme_append_tail hsep] at h2
      rw [afterScheme_srtPrefix]
      exact h2
    · -- A second scheme stands after the one that was put in front.
      have h2 := hone.2
      have hwith : withSrtPrefix uri = srtPrefix ++ uri := if_neg hp
      rw [hwith, List.append_assoc, afterScheme_srtPrefix, scheme_append_tail hsep] at h2
      exact absurd hscheme h2
  · rintro ⟨⟨rest, rfl⟩, hrest⟩
    have hwith : withSrtPrefix (srtPrefix ++ rest) = srtPrefix ++ rest :=
      if_pos (List.prefix_append ..)
    rw [hwith] at htail hhead hout
    rw [afterScheme_srtPrefix] at hrest
    refine ⟨srtPrefix ++ rest ++ tail, htail ▸ hout, ?_, ⟨?_, ?_⟩, authority_append_tail hhead⟩
    · rw [List.append_assoc]
      exact List.prefix_append ..
    · rw [List.append_assoc, scheme_srtPrefix]
    · rw [List.append_assoc, afterScheme_srtPrefix, scheme_append_tail hsep]
      exact hrest

end Srt

/-! ## UDP -/

section Udp

variable {lib : PyLib} {s host port : Text}

/-- A text that is `udp` in lower case has three letters, none of them a colon. -/
theorem exists_of_toLower (h : s.map Char.toLower = udpScheme) :
    ∃ a b c, s = [a, b, c] ∧ a ≠ ':' ∧ b ≠ ':' ∧ c ≠ ':' := by
  rcases s with _ | ⟨a, _ | ⟨b, _ | ⟨c, _ | ⟨d, t⟩⟩⟩⟩
  · simp [udpScheme] at h
  · simp [udpScheme] at h
  · simp [udpScheme] at h
  · simp only [List.map_cons, List.map_nil, udpScheme, List.cons.injEq, and_true] at h
    obtain ⟨ha, hb, hc⟩ := h
    refine ⟨a, b, c, rfl, ?_, ?_, ?_⟩
    · rintro rfl
      exact absurd ha (by decide)
    · rintro rfl
      exact absurd hb (by decide)
    · rintro rfl
      exact absurd hc (by decide)
  · simp [udpScheme] at h

/-- The port stays apart: no `udp://` reaches into it. -/
theorem remove_port (hdigits : ∀ c ∈ port, c.isDigit = true) (x : Text) :
    remove udpPrefix (x ++ ':' :: port) = remove udpPrefix x ++ ':' :: port := by
  apply remove_append_of_not_crossing
  · intro t _ hp
    rcases List.prefix_or_prefix_of_prefix hp (List.prefix_append t _) with hp' | ⟨u, hu⟩
    · exact hp'
    · rw [← hu] at hp
      have hpu := (List.prefix_append_right_inj t).mp hp
      cases u with
      | nil =>
        rw [List.append_nil] at hu
        rw [hu]
      | cons x u =>
        obtain ⟨rfl, hdig⟩ := List.cons_prefix_cons.mp hpu
        have hlast : (t ++ ':' :: u).getLast? = some '/' := by
          rw [hu]
          rfl
        rw [List.getLast?_append_of_ne_nil _ (by simp)] at hlast
        rcases List.mem_cons.mp (List.mem_of_getLast? hlast) with hcolon | hmem
        · exact absurd hcolon (by decide)
        · exact absurd (hdigits _ (hdig.subset hmem)) (by decide)
  · intro hocc
    have hu : 'u' ∈ ':' :: port := hocc.subset (by simp [udpPrefix, udpScheme])
    rcases List.mem_cons.mp hu with hcolon | hmem
    · exact absurd hcolon (by decide)
    · exact absurd (hdigits _ hmem) (by decide)

/-- A scheme in another case stays in the text. -/
theorem remove_other_case (hs : s.map Char.toLower = udpScheme) (hne : s ≠ udpScheme)
    (host : Text) :
    remove udpPrefix (s ++ separator ++ host) = s ++ separator ++ remove udpPrefix host := by
  obtain ⟨a, b, c, rfl, ha, hb, hc⟩ := exists_of_toLower hs
  apply remove_append
  intro t ht htne hp
  simp only [separator, List.cons_append, List.nil_append, List.suffix_cons_iff,
    List.suffix_nil] at ht
  simp only [udpPrefix, udpScheme, separator, List.cons_append, List.nil_append] at hp
  rcases ht with rfl | rfl | rfl | rfl | rfl | rfl | rfl
  · simp only [List.cons_append, List.cons_prefix_cons] at hp
    obtain ⟨rfl, rfl, rfl, -⟩ := hp
    exact hne rfl
  · simp [List.cons_prefix_cons] at hp
  · simp [List.cons_prefix_cons] at hp
  · simp [List.cons_prefix_cons] at hp
  · simp [List.cons_prefix_cons] at hp
  · simp [List.cons_prefix_cons] at hp
  · exact htne rfl

/-- Such a text is never the host itself: what would be left is shorter and alike. -/
theorem other_case_ne_host (hs : s.map Char.toLower = udpScheme) (hne : s ≠ udpScheme)
    (host : Text) : s ++ separator ++ remove udpPrefix host ≠ host := by
  induction hn : host.length using Nat.strong_induction_on generalizing host with
  | _ n ih =>
    intro heq
    have hrest : remove udpPrefix (s ++ separator ++ remove udpPrefix host) =
        s ++ separator ++ remove udpPrefix (remove udpPrefix host) := remove_other_case hs hne _
    rw [heq] at hrest
    have hlen : (remove udpPrefix host).length < n := by
      have := congrArg List.length heq
      rw [List.length_append, List.length_append, hn] at this
      simp only [separator, List.length_cons, List.length_nil] at this
      omega
    exact ih _ hlen (remove udpPrefix host) rfl hrest.symm

/-- What `UdpSourceStage` sets for a URI with host and port. -/
theorem udpProps_eq (hport : port ≠ []) (hdigits : ∀ c ∈ port, c.isDigit = true) (x : Text) :
    udpProps lib (x ++ ':' :: port) = if port.length ≤ 4300 then
      some ⟨decimalValue port, if remove udpPrefix x ∈ anyHost then none
        else some (remove udpPrefix x)⟩ else none := by
  have hcolon : ':' ∉ port := fun h => absurd (hdigits _ h) (by decide)
  unfold udpProps
  rw [remove_port hdigits, Etr290.rcut_append hcolon]
  dsimp only
  rw [lib.int_decimal port hport hdigits]
  split <;> rfl

/-- **Host and port** are read as they are written exactly when the scheme is `udp` in lower
case and does not stand in the host again, or when no host is asked for. -/
theorem udp_iff (settings : SrtSettings) (uri : Text) :
    MeansTheSame lib settings uri .udp ↔ Unambiguous lib uri .udp := by
  refine forall_congr' fun s => forall_congr' fun host => forall_congr' fun port =>
    forall_congr' fun hs => forall_congr' fun hport => forall_congr' fun hdigits =>
      forall_congr' fun huri => ?_
  rw [huri, udpProps_eq hport hdigits]
  by_cases hlen : port.length ≤ 4300
  · rw [if_pos hlen]
    have haddress : (∃ props, some (UdpProps.mk (decimalValue port)
          (if remove udpPrefix (s ++ separator ++ host) ∈ anyHost then none
            else some (remove udpPrefix (s ++ separator ++ host)))) = some props ∧
        props.port = decimalValue port ∧ (host ∉ anyHost → props.address = some host)) ↔
        (host ∉ anyHost → remove udpPrefix (s ++ separator ++ host) = host) := by
      constructor
      · rintro ⟨props, hprops, -, haddr⟩ hhost
        obtain rfl := Option.some.inj hprops
        have haddr := haddr hhost
        dsimp only at haddr
        split at haddr
        · exact absurd haddr (by simp)
        · exact Option.some.inj haddr
      · intro h
        refine ⟨_, rfl, rfl, fun hhost => ?_⟩
        dsimp only
        rw [h hhost, if_neg hhost]
    rw [haddress]
    constructor
    · intro h
      refine ⟨hlen, ?_⟩
      by_cases hhost : host ∈ anyHost
      · exact Or.inl hhost
      · have heq := h hhost
        by_cases hcase : s = udpScheme
        · subst hcase
          have hdrop : remove udpPrefix (udpScheme ++ separator ++ host) = remove udpPrefix host :=
            remove_append_self (by simp [udpPrefix, udpScheme]) host
          rw [hdrop, remove_eq_self_iff (by simp [udpPrefix, udpScheme])] at heq
          exact Or.inr ⟨rfl, heq⟩
        · rw [remove_other_case hs hcase] at heq
          exact absurd heq (other_case_ne_host hs hcase host)
    · rintro ⟨-, hor⟩ hhost
      obtain ⟨rfl, hno⟩ := hor.resolve_left hhost
      have hdrop : remove udpPrefix (udpScheme ++ separator ++ host) = remove udpPrefix host :=
        remove_append_self (by simp [udpPrefix, udpScheme]) host
      rw [hdrop, remove_of_not_occurs hno]
  · rw [if_neg hlen]
    constructor
    · rintro ⟨props, hprops, -⟩
      exact absurd hprops (by simp)
    · rintro ⟨hlen', -⟩
      exact absurd hlen' hlen

end Udp

/-! ## Files and the whole -/

/-- A bare path is the location, and `file://` is never taken off. -/
theorem file_iff (lib : PyLib) (settings : SrtSettings) (uri : Text) :
    MeansTheSame lib settings uri .file ↔ Unambiguous lib uri .file := by
  constructor
  · rintro h ⟨path, hpath⟩
    have hloc : uri = path := h path (Or.inr hpath.symm)
    have hlen := congrArg List.length hpath
    rw [hloc, List.length_append] at hlen
    simp only [filePrefix, List.length_cons, List.length_nil] at hlen
    omega
  · rintro h path (⟨-, rfl⟩ | hpath)
    · rfl
    · exact absurd ⟨path, hpath.symm⟩ h

/-- **Accepted URIs mean the same to the pipeline**, exactly when they are unambiguous. -/
theorem means_the_same_iff (lib : PyLib) (settings : SrtSettings) {protocol : SourceProtocol}
    {raw : Text} {config : Config} {s : SourceConfig}
    (h : SourceConfig.build lib protocol raw config = .ok s) :
    MeansTheSame lib settings s.uri protocol ↔ Unambiguous lib s.uri protocol := by
  obtain ⟨hacc, -, -⟩ := accepted_of_build h
  cases protocol with
  | srt => exact srt_iff (List.mem_singleton.mp hacc.allowed) hacc.safe
  | udp => exact udp_iff settings s.uri
  | rtmp => exact Iff.rfl
  | hls => exact Iff.rfl
  | file => exact file_iff lib settings s.uri

/-- Settings with the defaults. -/
def SrtSettings.default : SrtSettings := ⟨500, true, true, true⟩

/-- `srt://h:1`, a URI with nothing left out. -/
def bareUri : Text := srtPrefix ++ ['h', ':', '1']

/-- `SRT://h:1`, the same for a reader of URIs, but not for the code. -/
def upperUri : Text := ['S', 'R', 'T', ':', '/', '/', 'h', ':', '1']

/-- A bare host and port gets its scheme and keeps its meaning. -/
theorem means_the_same_iff_bare :
    MeansTheSame PyLib.ascii SrtSettings.default bareUri .srt ↔
      Unambiguous PyLib.ascii bareUri .srt := by
  have hbuild : SourceConfig.build PyLib.ascii .srt ['h', ':', '1'] [] =
      .ok ⟨.srt, bareUri, []⟩ := rfl
  exact means_the_same_iff PyLib.ascii SrtSettings.default hbuild

/-- `SRT://h:1` is accepted, and gets a second scheme. -/
theorem upper_case_scheme_doubled :
    SourceConfig.build PyLib.ascii .srt upperUri [] =
        .ok ⟨.srt, upperUri, []⟩ ∧
      ¬ MeansTheSame PyLib.ascii SrtSettings.default upperUri .srt := by
  refine ⟨rfl, ?_⟩
  rintro ⟨out, hok, -, hone, -⟩
  have hout : normalizeSrtUri SrtSettings.default upperUri =
      .ok (srtPrefix ++ upperUri ++ '?' :: latencyKey ++ ['5', '0', '0']) := by rfl
  rw [hout] at hok
  obtain rfl := Except.ok.inj hok
  exact hone.2 rfl

end Source
