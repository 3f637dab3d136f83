/-
# Durations of segments

`segment_duration_sec` of a channel on its way to the `max-file-duration` of a `multifilesink`:
through `LiveTeeStage`, through the argument of the SRT child and through `TsCaptureStage`.
`PipelineConfig` takes every integer.  The first two clamp it below to a second, the third does
not, and none clamps it above, so the three agree on a value of the property for the seconds
from one to `maxSeconds`.
-/
import IngestFarm.Etr290RoundTrip

namespace SegmentDuration

open Etr290 (Text decimal fields readDigits)

/-! ## Integers as text -/

/-- `sys.get_int_max_str_digits()`: longer conversions raise. -/
def maxStrDigits : ℕ := 4300

/-- `str(n)`; `none` where it raises. -/
def str (n : ℤ) : Option Text :=
  if (Nat.toDigits 10 n.natAbs).length ≤ maxStrDigits then some (decimal n) else none

/-- The digits of an integer, in groups between single underscores. -/
def digitGroups (text : Text) : Option ℕ :=
  let groups := fields '_' text
  if groups.all (fun g => !g.isEmpty) = true ∧ groups.flatten.length ≤ maxStrDigits then
    readDigits groups.flatten
  else none

/-- `int(text)` of an ASCII text; `none` where it raises. -/
def int (text : Text) : Option ℤ :=
  match PyText.strip text with
  | '-' :: digits => (digitGroups digits).map fun n : ℕ => -(n : ℤ)
  | '+' :: digits => (digitGroups digits).map fun n : ℕ => (n : ℤ)
  | digits => (digitGroups digits).map fun n : ℕ => (n : ℤ)

/-! ## The three sinks -/

/-- `PipelineConfig`, as far as the stages read it. -/
structure PipelineConfig where
  segmentDurationSec : ℤ := 3600

/-- A value that a property is set to. -/
inductive Value
  | text (t : Text)
  | int (n : ℤ)
  | flag (b : Bool)
  deriving DecidableEq

/-- The `set_property` calls on an element, in their order. -/
abbrev Properties := List (String × Value)

/-- `Gst.SECOND`, in nanoseconds. -/
def gstSecond : ℤ := 1000000000

/-- What a sink that splits by duration is told first. -/
def splitByDuration (location : Text) (segmentNs : ℤ) : Properties :=
  [("location", .text location), ("next-file", .int 5), ("max-file-duration", .int segmentNs),
    ("post-messages", .flag true)]

/-- `sync` and `async` are turned off where the sink has them. -/
def unsynchronized (findProperty : String → Bool) : Properties :=
  (["sync", "async"].filter findProperty).map fun name => (name, .flag false)

section Sinks

variable (pipeline : PipelineConfig) (findProperty : String → Bool)

/-- `_configure_record_multifilesink` of `LiveTeeStage`. -/
def configureRecordMultifilesink (placeholder : Text) : Properties :=
  let segmentNs := max 1 pipeline.segmentDurationSec * gstSecond
  splitByDuration placeholder segmentNs ++ unsynchronized findProperty

/-- `_configure_record_sink` of the SRT child. -/
def configureRecordSink (segmentDurationSec : ℤ) (placeholder : Text) : Properties :=
  let segmentNs := max 1 segmentDurationSec * gstSecond
  splitByDuration placeholder segmentNs ++ unsynchronized findProperty

/-- The arguments that `_connect_srt_child` starts the child with; `none` where `str` raises. -/
def childArguments (uri previewDir stateDir : Text) : Option (List Text) :=
  (str pipeline.segmentDurationSec).map fun seconds => [uri, previewDir, stateDir, seconds]

/-- `main` of the child as far as the record sink; `none` where it ends before. -/
def childRecordSink (args : List Text) (placeholder : Text) : Option Properties :=
  if args.length < 3 then none
  else
    (match args[3]? with
    | some seconds => int seconds
    | none => some 3600).map fun segmentDurationSec =>
      configureRecordSink findProperty segmentDurationSec placeholder

/-- The sink of `TsCaptureStage.link`; `location` is `str(output_dir / "segment_%05d.ts")`. -/
def tsCaptureLink (location : Text) : Properties :=
  let segmentNs := pipeline.segmentDurationSec * gstSecond
  splitByDuration location segmentNs

end Sinks

/-- What `max-file-duration` was set to last. -/
def maxFileDuration (properties : Properties) : Option ℤ :=
  match (properties.reverse.lookup "max-file-duration") with
  | some (.int n) => some n
  | _ => none

/-- The greatest number of seconds whose nanoseconds fit 64 bits. -/
def maxSeconds : ℤ := 18446744073

/-- The duration of the child's sink, from the channel through the process argument. -/
def childMaxFileDuration (pipeline : PipelineConfig) (findProperty : String → Bool)
    (uri previewDir stateDir placeholder : Text) : Option ℤ :=
  ((childArguments pipeline uri previewDir stateDir).bind fun args =>
    childRecordSink findProperty args placeholder).bind maxFileDuration

/-- **The three durations agree and fit.** -/
structure AgreeAndFit (live child capture : Option ℤ) : Prop where
  set : live ≠ none
  child : child = live
  capture : capture = live
  second : ∀ ns, live = some ns → gstSecond ≤ ns
  fits : ∀ ns, live = some ns → ns < 2 ^ 64

/-! ## The process argument -/

theorem strip_decimal (n : ℤ) : PyText.strip (decimal n) = decimal n := by
  have hvisible : ∀ c ∈ decimal n, PyText.isSpace c = false := by
    intro c hc
    rcases Etr290.mem_decimal hc with rfl | hdigit
    · decide
    · exact (Etr290.visible_of_isDigit hdigit).1
  rw [PyText.strip, PyText.lstrip_of_head fun c hc => hvisible c (List.mem_of_mem_head? hc),
    PyText.rstrip_of_last fun c hc => hvisible c (List.mem_of_getLast? hc)]

/-- The digits of a number are one group. -/
theorem digitGroups_toDigits {n : ℕ} (h : (Nat.toDigits 10 n).length ≤ maxStrDigits) :
    digitGroups (Nat.toDigits 10 n) = some n := by
  have hno : '_' ∉ Nat.toDigits 10 n := fun hmem =>
    absurd (Etr290.isDigit_of_mem_toDigits hmem) (by decide)
  have hne : (Nat.toDigits 10 n).isEmpty = false := by simp [Nat.toDigits_ne_nil]
  unfold digitGroups
  rw [Etr290.fields_of_not_mem hno]
  simp only [List.all_cons, List.all_nil, hne, List.flatten_cons, List.flatten_nil,
    List.append_nil, Bool.not_false, Bool.and_self, true_and, if_pos h]
  exact Etr290.readDigits_toDigits n

/-- **An integer that can be written is read back.** -/
theorem int_of_str {n : ℤ} {t : Text} (h : str n = some t) : int t = some n := by
  unfold str at h
  split_ifs at h with hlen
  obtain rfl := Option.some.inj h
  unfold int
  rw [strip_decimal]
  unfold decimal
  by_cases hneg : n < 0
  · rw [if_pos hneg, List.singleton_append]
    show (digitGroups (Nat.toDigits 10 n.natAbs)).map _ = some n
    rw [digitGroups_toDigits hlen, Option.map_some, show -((n.natAbs : ℕ) : ℤ) = n from by omega]
  · rw [if_neg hneg, List.nil_append]
    have hsign : ∀ c ∈ (Nat.toDigits 10 n.natAbs).head?, c ≠ '-' ∧ c ≠ '+' := by
      intro c hc
      have hdigit := Etr290.isDigit_of_mem_toDigits (List.mem_of_mem_head? hc)
      constructor
      · rintro rfl
        exact absurd hdigit (by decide)
      · rintro rfl
        exact absurd hdigit (by decide)
    have hread := digitGroups_toDigits hlen
    split
    · next digits heq => exact absurd rfl (hsign '-' (by rw [heq]; rfl)).1
    · next digits heq => exact absurd rfl (hsign '+' (by rw [heq]; rfl)).2
    · rw [hread, Option.map_some, show ((n.natAbs : ℕ) : ℤ) = n from by omega]

/-- A number of at most 4300 digits can be written. -/
theorem str_ne_none {n : ℤ} (h : n.natAbs < 10 ^ maxStrDigits) : str n ≠ none := by
  unfold str
  rw [if_pos ((Nat.length_toDigits_le_iff (by omega) (by decide)).mpr h)]
  exact Option.some_ne_none _

/-! ## The durations -/

section Durations

variable (pipeline : PipelineConfig) (findProperty : String → Bool)

/-- What is set after the split does not touch the duration. -/
theorem maxFileDuration_splitByDuration (location : Text) (ns : ℤ) (findProperty : String → Bool) :
    maxFileDuration (splitByDuration location ns ++ unsynchronized findProperty) = some ns := by
  cases hsync : findProperty "sync" <;> cases hasync : findProperty "async" <;>
    simp [maxFileDuration, splitByDuration, unsynchronized, hsync, hasync, List.lookup]

theorem maxFileDuration_live (placeholder : Text) :
    maxFileDuration (configureRecordMultifilesink pipeline findProperty placeholder) =
      some (max 1 pipeline.segmentDurationSec * gstSecond) :=
  maxFileDuration_splitByDuration placeholder _ findProperty

theorem maxFileDuration_capture (location : Text) :
    maxFileDuration (tsCaptureLink pipeline location) =
      some (pipeline.segmentDurationSec * gstSecond) := rfl

/-- The child clamps the number that it was given. -/
theorem childMaxFileDuration_eq (uri previewDir stateDir placeholder : Text) :
    childMaxFileDuration pipeline findProperty uri previewDir stateDir placeholder =
      (str pipeline.segmentDurationSec).map fun _ =>
        max 1 pipeline.segmentDurationSec * gstSecond := by
  unfold childMaxFileDuration childArguments
  cases hstr : str pipeline.segmentDurationSec with
  | none => rfl
  | some seconds =>
    have hsink : childRecordSink findProperty [uri, previewDir, stateDir, seconds] placeholder =
        some (configureRecordSink findProperty pipeline.segmentDurationSec placeholder) := by
      show (int seconds).map _ = _
      rw [int_of_str hstr, Option.map_some]
    rw [Option.map_some, Option.bind_some, hsink, Option.bind_some, Option.map_some]
    exact maxFileDuration_splitByDuration placeholder _ findProperty

/-- **The durations agree and fit** exactly from one second to `maxSeconds`: below, only
`TsCaptureStage` does not clamp, and above, no property of 64 bits holds the value. -/
theorem durations_agree_iff (findProperty' : String → Bool)
    (livePlaceholder uri previewDir stateDir childPlaceholder location : Text) :
    AgreeAndFit
        (maxFileDuration (configureRecordMultifilesink pipeline findProperty livePlaceholder))
        (childMaxFileDuration pipeline findProperty' uri previewDir stateDir childPlaceholder)
        (maxFileDuration (tsCaptureLink pipeline location)) ↔
      1 ≤ pipeline.segmentDurationSec ∧ pipeline.segmentDurationSec ≤ maxSeconds := by
  rw [maxFileDuration_live, childMaxFileDuration_eq, maxFileDuration_capture]
  unfold maxSeconds
  constructor
  · intro h
    have hcapture := Option.some.inj h.capture
    have hsecond := h.second _ rfl
    have hfits := h.fits _ rfl
    unfold gstSecond at hcapture hsecond hfits
    omega
  · rintro ⟨hle, hmax⟩
    have hclamp : max 1 pipeline.segmentDurationSec = pipeline.segmentDurationSec :=
      max_eq_right hle
    have hdigits : pipeline.segmentDurationSec.natAbs < 10 ^ maxStrDigits := by
      have hlt : pipeline.segmentDurationSec.natAbs < 10 ^ 11 := by omega
      exact hlt.trans (Nat.pow_lt_pow_right (by omega) (by decide))
    obtain ⟨seconds, hstr⟩ := Option.ne_none_iff_exists'.mp (str_ne_none hdigits)
    rw [hclamp, hstr]
    constructor
    · exact Option.some_ne_none _
    · rfl
    · rfl
    · rintro _ ⟨⟩
      unfold gstSecond
      omega
    · rintro _ ⟨⟩
      unfold gstSecond
      omega

end Durations

/-- A channel with segments of no length: the capture stage passes the zero on. -/
theorem zero_is_not_clamped :
    ¬ ∀ (pipeline : PipelineConfig) (findProperty : String → Bool) (uri dir : Text),
      AgreeAndFit (maxFileDuration (configureRecordMultifilesink pipeline findProperty dir))
        (childMaxFileDuration pipeline findProperty uri dir dir dir)
        (maxFileDuration (tsCaptureLink pipeline dir)) := by
  intro h
  have hcapture := (h ⟨0⟩ (fun _ => true) [] []).capture
  rw [maxFileDuration_live, maxFileDuration_capture] at hcapture
  exact absurd hcapture (by decide)

end SegmentDuration
