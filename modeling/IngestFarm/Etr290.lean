/-
# ETR 290 counters

The line parser, the rollup of one write body and the accumulator of
`ingest_farm/worker/etr290.py`.  Texts are lists of characters.  What the built-in `float`,
`int` and `str.isdigit` accept is a parameter (`Builtins`); an `int` of an infinity or of a
NaN raises.  Updates of `structure`, which are carried along unchanged, are those of the
main loop.
-/
import IngestFarm.PyText
import IngestFarm.Json
import IngestFarm.Dict

namespace Etr290

abbrev Text := List Char

/-- `P1_COUNTERS`: the first priority of the measurement guidelines, without which there is no
picture. -/
def p1Counters : List String :=
  ["ts_sync_loss", "sync_byte_error", "pat_error", "pat_error_2", "continuity_count_error",
    "pmt_error", "pmt_error_2", "pid_error"]

/-- `P2_COUNTERS`, the PCR group first. -/
def p2Counters : List String :=
  ["pcr_error", "pcr_repetition_error", "pcr_discontinuity_indicator_error",
    "transport_error", "crc_error", "crc_error_2", "pts_error", "cat_error"]

/-- `ALL_P12_COUNTERS`: the names that a row may have. -/
def allCounters : List String := p1Counters ++ p2Counters

/-- The severity under which a counter that has no row is listed. -/
def defaultSeverity (name : String) : ℤ := if name ∈ p1Counters then 1 else 2

/-- The built-ins that turn texts into numbers. -/
structure Builtins where
  float : Text → Option PyFloat
  int : Text → Option ℤ
  isDigit : Char → Bool

/-- The built-ins on unsigned ASCII decimals. -/
def Builtins.ascii : Builtins where
  float := fun raw => if raw ≠ [] ∧ raw.all Char.isDigit
    then some (.finite (raw.foldl (fun n c => 10 * n + (c.toNat - 48)) 0 : ℕ)) else none
  int := fun raw => if raw ≠ [] ∧ raw.all Char.isDigit
    then some (raw.foldl (fun n c => 10 * n + (c.toNat - 48)) 0 : ℕ) else none
  isDigit := Char.isDigit

/-- `int(x)` of a float, toward zero; `none` where it raises. -/
def truncate : PyFloat → Option ℤ
  | .finite q => some (q.num.tdiv q.den)
  | _ => none

/-- What `int(value)` does. -/
inductive Conversion where
  | number (n : ℤ)
  | typeOrValueError
  | overflowError

/-- `int(value)` of a Python value. -/
def pyInt (b : Builtins) : Json → Conversion
  | .bool x => .number (if x then 1 else 0)
  | .int n => .number n
  | .float (.finite q) => .number (q.num.tdiv q.den)
  | .float (.inf _) => .overflowError
  | .str s => match b.int s.toList with
    | some n => .number n
    | none => .typeOrValueError
  | _ => .typeOrValueError

/-! ## Lines -/

/-- `split(sep, 1)`: the text before the first separator, and the text after it. -/
def cut (sep : Char) : Text → Text × Option Text
  | [] => ([], none)
  | c :: cs =>
    if c = sep then ([], some cs)
    else
      let (before, after) := cut sep cs
      (c :: before, after)

/-- `rsplit(sep, 1)`: before and after the last separator, if there is one. -/
def rcut (sep : Char) (l : Text) : Text × Option Text :=
  match cut sep l.reverse with
  | (_, none) => (l, none)
  | (after, some before) => (before.reverse, some after.reverse)

/-- `split(sep)`: always at least one piece, the empty text included. -/
def fields (sep : Char) : Text → List Text
  | [] => [[]]
  | c :: cs =>
    if c = sep then [] :: fields sep cs
    else
      match fields sep cs with
      | [] => [[c]]
      | l :: ls => (c :: l) :: ls

/-- `_unescape_influx_tag`: a backslash stands for the character after it, and alone at the end for
itself. -/
def unescapeInfluxTag : Text → Text
  | [] => []
  | '\\' :: c :: cs => c :: unescapeInfluxTag cs
  | c :: cs => c :: unescapeInfluxTag cs

/-- The key and value of `key=value`; `none` without an equals sign. -/
def keyValue (part : Text) : Option (Text × Text) :=
  match cut '=' part with
  | (_, none) => none
  | (key, some val) => some (key, val)

/-- A row that is accepted. -/
inductive Row where
  | counter (name : String) (severity value : ℤ)
  | bitrate (value : ℤ)
  | packetCount (value : ℤ)
  | errorCount (value : ℤ)
  deriving DecidableEq

section Parser

variable (b : Builtins)

/-- `_split_measurement_and_fields`: head and fields of a line, cut at the first space. -/
def splitMeasurementAndFields (line : Text) : Option (Text × Text) :=
  match cut ' ' line with
  | (_, none) => none
  | (head, some rest) =>
    let rest := PyText.strip rest
    if rest = [] then none
    else
      match rcut ' ' rest with
      | (_, none) => some (head, rest)
      | (front, some stamp) =>
        let digits := stamp.dropWhile (· = '-')
        if digits ≠ [] ∧ digits.all b.isDigit then some (head, front) else some (head, rest)

/-- `_field_numeric`: the first field of that name decides. -/
def fieldNumeric (fieldsPart : Text) (name : Text) : Option PyFloat :=
  match ((fields ',' fieldsPart).filterMap keyValue).find? fun kv => kv.1 = name with
  | none => none
  | some (_, raw) => b.float (if raw.getLast? = some 'i' then raw.dropLast else raw)

/-- The tags of a row; a later tag replaces an earlier one. -/
def tag (tags : List (Text × Text)) (name : String) : Option Text :=
  (tags.reverse.find? fun kv => kv.1 = name.toList).map Prod.snd

/-- `parse_influx_line`: `none` is an exception, `some none` a line that is skipped. -/
def parseInfluxLine (line : Text) : Option (Option Row) :=
  let line := PyText.strip line
  if line = [] ∨ line.head? = some '#' then some none
  else
    match splitMeasurementAndFields b line with
    | none => some none
    | some (head, fieldsPart) =>
      let (measurement, tagBlob) := cut ',' head
      let tags := (((tagBlob.map (fields ',')).getD []).filterMap keyValue).map fun kv =>
        (kv.1, unescapeInfluxTag kv.2)
      if tag tags "scope" ≠ some "ts".toList then some none
      else
        match fieldNumeric b fieldsPart "value".toList with
        | none => some none
        | some numeric =>
          if measurement = "bitrate".toList then
            (truncate numeric).map fun v => some (.bitrate v)
          else if measurement ≠ "counter".toList then some none
          else
            match b.int ((tag tags "severity").getD "0".toList), tag tags "name" with
            | some severity, some name =>
              let name := String.ofList name
              if severity ∈ [1, 2] ∧ name ∈ allCounters then
                (truncate numeric).map fun v => some (.counter name severity v)
              else if severity = 4 ∧ name = "packet_count" then
                (truncate numeric).map fun v => some (.packetCount v)
              else if severity = 4 ∧ name = "error_count" then
                (truncate numeric).map fun v => some (.errorCount v)
              else some none
            | _, _ => some none

/-! ## Bodies -/

/-- A row of the `counters` list of a parsed body. -/
structure CounterRow where
  name : String
  severity : ℤ
  value : ℤ
  deriving DecidableEq

/-- The dictionary that `parse_influx_body` returns. -/
structure Parsed where
  counters : List CounterRow
  bitrateBps : Option ℤ
  packetCount : Option ℤ
  errorCount : Option ℤ
  deriving DecidableEq

def Parsed.empty : Parsed := ⟨[], none, none, none⟩

/-- What the loop of `parse_influx_body` does with an accepted row. -/
def Parsed.add (p : Parsed) : Row → Parsed
  | .counter name severity value =>
    { p with counters := p.counters ++ [⟨name, severity, value⟩] }
  | .bitrate value => { p with bitrateBps := some value }
  | .packetCount value => { p with packetCount := some value }
  | .errorCount value => { p with errorCount := some value }

/-- The loop of `parse_influx_body`; `none` where a line raises. -/
def parseLines (p : Parsed) : List Text → Option Parsed
  | [] => some p
  | line :: lines =>
    match parseInfluxLine b line with
    | none => none
    | some none => parseLines p lines
    | some (some row) => parseLines (p.add row) lines

/-- `parse_influx_body`: all lines of a body, or nothing if a line raises. -/
def parseInfluxBody (body : Text) : Option Parsed :=
  parseLines b .empty (PyText.splitlines body)

/-- The rows that `parse_influx_line` accepts, up to a line that raises. -/
def acceptedLines : List Text → List Row
  | [] => []
  | line :: lines =>
    match parseInfluxLine b line with
    | none => []
    | some none => acceptedLines lines
    | some (some row) => row :: acceptedLines lines

/-- The accepted rows of a body. -/
def accepted (body : Text) : List Row := acceptedLines b (PyText.splitlines body)

end Parser

/-! ## Snapshots -/

structure Counter where
  value : ℤ
  severity : ℤ
  deriving DecidableEq

/-- The `counters` of a snapshot. -/
abbrev Counters := Dict String Counter

/-- The dictionary of a session or an interval; `updatedAt` is in ticks of one clock. -/
structure Snapshot where
  available : Bool
  intervalSec : ℤ
  updatedAt : ℕ
  worstSeverity : ℤ
  counters : Counters
  errorCount : Option ℤ
  packetCount : Option ℤ
  bitrateBps : Option ℤ
  pidStructure : Option Json

namespace Counters

/-- The value of a counter, zero for one that is missing. -/
def value (cs : Counters) (name : String) : ℤ := ((cs.lookup name).map Counter.value).getD 0

/-- The zeros for counters without a row. -/
@[irreducible] def fill (cs : Counters) : Counters :=
  allCounters.foldl (fun cs name =>
    if name ∈ cs.keys then cs else Dict.set name ⟨0, defaultSeverity name⟩ cs) cs

/-- The worst severity with a positive count. -/
@[irreducible] def worst (cs : Counters) : ℤ :=
  cs.entries.foldl (fun worst e =>
    if e.2.value ≤ 0 then worst
    else if e.2.severity = 1 then 1
    else if e.2.severity = 2 ∧ worst ≠ 1 then 2
    else worst) 0

/-- The last row of a counter decides. -/
def ofRows (rows : List CounterRow) : Counters :=
  rows.foldl (fun cs row => Dict.set row.name ⟨row.value, row.severity⟩ cs) ∅

/-- The counters of an interval added to running totals. -/
def plus (cs interval : Counters) : Counters :=
  interval.entries.foldl (fun cs e =>
    Dict.set e.1 ⟨cs.value e.1 + e.2.value, e.2.severity⟩ cs) cs

end Counters

/-- `rollup_etr290_snapshot`: what one body says, with every counter that it leaves out at zero. -/
def rollupEtr290Snapshot (parsed : Parsed) (intervalSec : ℤ) (now : ℕ) : Snapshot :=
  let counters := (Counters.ofRows parsed.counters).fill
  { available := true, intervalSec := intervalSec, updatedAt := now,
    worstSeverity := counters.worst, counters := counters, errorCount := parsed.errorCount,
    packetCount := parsed.packetCount, bitrateBps := parsed.bitrateBps, pidStructure := none }

/-- `empty_etr290_session`: all counters at zero and no measurement of the stream yet. -/
def emptyEtr290Session (intervalSec : ℤ) (now : ℕ) : Snapshot :=
  { available := true, intervalSec := intervalSec, updatedAt := now, worstSeverity := 0,
    counters := Counters.fill ∅, errorCount := some 0, packetCount := none, bitrateBps := none,
    pidStructure := none }

/-- `x or y` of numbers that may be missing. -/
def orElse (x : ℤ) (y : ℤ) : ℤ := if x = 0 then y else x

/-- `accumulate_etr290_snapshot`: the counters of an interval are added to those of the session, its
measurements replace the old ones where it has any, and the badge is that of the new counters. -/
def accumulateEtr290Snapshot (session interval : Snapshot) : Snapshot :=
  let intervalSec := orElse (orElse interval.intervalSec session.intervalSec) 2
  let base := if session.counters = ∅ then emptyEtr290Session intervalSec 0 else session
  let counters := (base.counters.plus interval.counters).fill
  { available := true, intervalSec := intervalSec, updatedAt := interval.updatedAt,
    worstSeverity := counters.worst, counters := counters,
    errorCount := some (base.errorCount.getD 0 + interval.errorCount.getD 0),
    packetCount := interval.packetCount.or session.packetCount,
    bitrateBps := interval.bitrateBps.or session.bitrateBps,
    pidStructure := interval.pidStructure.or session.pidStructure }

end Etr290
