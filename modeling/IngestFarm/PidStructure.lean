/-
# The PID map

`extract_pid_structure` and `load_pid_structure` of `ingest_farm/worker/etr290.py`: the services
and PIDs of a TSDuck report, with the null PID added or relabelled, shares of the bit rate, and
both lists sorted.  A report is any JSON value, so each loop can meet something that cannot be
iterated; a share can meet an integer that no float holds; and the file can end in the middle of a
character.  `none` is an exception.
-/
import IngestFarm.Json
import IngestFarm.PyText

namespace Etr290

/-! ## Values of a report -/

/-- `_as_int`: integers and integral floats, but no booleans. -/
def asInt : Json → Option ℤ
  | .int n => some n
  | .float (.finite q) => if q.den = 1 then some q.num else none
  | _ => none

/-- `_as_str`: a text that is not empty. -/
def asStr : Json → Option String
  | .str s => if s ≠ "" then some s else none
  | _ => none

/-- `isinstance(x, bool)`: a number is no boolean. -/
def asBool : Json → Option Bool
  | .bool b => some b
  | _ => none

/-- `fields.get(key)`: `None` stands for a missing key. -/
def get (fields : List (String × Json)) (key : String) : Json :=
  (Json.field? key fields).getD .null

/-- The elements of `value or []`; a text gives its characters and a dictionary its keys. -/
def iterate (value : Json) : Option (List Json) :=
  if value.truthy = false then some []
  else
    match value with
    | .arr xs => some xs
    | .str s => some (s.toList.map fun c => .str (String.ofList [c]))
    | .obj fields => some ((fields.map Prod.fst).dedup.map .str)
    | _ => none

/-- The integers of a nested list. -/
def intsOf (value : Json) : Option (List ℤ) := (iterate value).map (List.filterMap asInt)

/-- A loop whose body can raise, and can skip an element. -/
def collect {α : Type} (f : Json → Option (Option α)) : List Json → Option (List α)
  | [] => some []
  | x :: xs => do
    let y ← f x
    let ys ← collect f xs
    some (y.toList ++ ys)

/-! ## Services and PIDs -/

/-- An entry of `services`. -/
structure ServiceEntry where
  id : ℤ
  name : Option String
  provider : Option String
  typeName : Option String
  pmtPid : Option ℤ
  pcrPid : Option ℤ
  bitrateBps : Option ℤ
  scrambled : Option Bool
  pidIds : List ℤ
  deriving DecidableEq

/-- An entry of `pids`; `service_ids` is left out where it would be empty. -/
structure PidEntry where
  id : ℤ
  description : String
  bitrateBps : Option ℤ
  audio : Option Bool
  video : Option Bool
  pmt : Option Bool
  unreferenced : Option Bool
  global : Option Bool
  scrambled : Option Bool
  language : Option String
  serviceIds : List ℤ
  stuffing : Bool
  sharePct : Option PyFloat
  deriving DecidableEq

/-- What `extract_pid_structure` returns. -/
structure PidStructure where
  services : List ServiceEntry
  pids : List PidEntry
  tsid : Option ℤ
  tsBitrateBps : Option ℤ
  deriving DecidableEq

/-- `MPEG_TS_NULL_PID`, the stuffing of a constant bit rate. -/
def nullPid : ℤ := 8191

/-- One element of the services loop. -/
def serviceEntry : Json → Option (Option ServiceEntry)
  | .obj raw =>
    match asInt (get raw "id") with
    | none => some none
    | some sid => (intsOf (get raw "pids")).map fun pidIds => some
      { id := sid
        name := asStr (get raw "name")
        provider := asStr (get raw "provider")
        typeName := asStr (get raw "type-name")
        pmtPid := asInt (get raw "pmt-pid")
        pcrPid := asInt (get raw "pcr-pid")
        bitrateBps := asInt (get raw "bitrate")
        scrambled := asBool (get raw "is-scrambled")
        pidIds := pidIds }
  | _ => some none

/-- One element of the PIDs loop. -/
def pidEntry : Json → Option (Option PidEntry)
  | .obj raw =>
    match asInt (get raw "id") with
    | none => some none
    | some pid => (intsOf (get raw "services")).map fun serviceIds => some
      { id := pid
        description := (asStr (get raw "description")).getD "Unknown"
        bitrateBps := asInt (get raw "bitrate")
        audio := asBool (get raw "audio")
        video := asBool (get raw "video")
        pmt := asBool (get raw "pmt")
        unreferenced := asBool (get raw "unreferenced")
        global := asBool (get raw "global")
        scrambled := asBool (get raw "is-scrambled")
        language := asStr (get raw "language")
        serviceIds := serviceIds
        stuffing := false
        sharePct := none }
  | _ => some none

/-- The entry that stands for a null PID that the report does not list. -/
def nullPadding : PidEntry where
  id := nullPid
  description := "Null padding"
  bitrateBps := some 0
  audio := none
  video := none
  pmt := none
  unreferenced := none
  global := some true
  scrambled := none
  language := none
  serviceIds := []
  stuffing := true
  sharePct := none

/-- An integer that a float can hold; `float` of any other raises. -/
def fitsFloat (n : ℤ) : Bool := |n| < 2 ^ 1024 - 2 ^ 970

section Code

variable (lower : List Char → List Char) (share : ℤ → ℤ → PyFloat)

/-- The relabelling of a null PID that the report lists. -/
def relabel (p : PidEntry) : PidEntry :=
  if p.id ≠ nullPid then p
  else
    let desc := lower (PyText.strip p.description.toList)
    { p with
      stuffing := true
      description := if desc ∈ ["".toList, "stuffing".toList, "unknown".toList]
        then "Null padding" else p.description }

/-- A null PID is added, or those that are there are relabelled. -/
def withNullPid (pids : List PidEntry) : List PidEntry :=
  if ∃ p ∈ pids, p.id = nullPid then pids.map (relabel lower) else pids ++ [nullPadding]

/-- `round(100.0 * bps / ts_bitrate, 2)`, where both numbers fit into a float. -/
def sharePct (bps tsBitrate : ℤ) : Option PyFloat :=
  if fitsFloat bps = true ∧ fitsFloat tsBitrate = true then some (share bps tsBitrate) else none

/-- The share of one PID. -/
def withShare (tsBitrate : ℤ) (p : PidEntry) : Option PidEntry :=
  match p.bitrateBps with
  | some bps =>
    if 0 ≤ bps then
      (sharePct share bps tsBitrate).map fun pct => { p with sharePct := some pct }
    else some p
  | none => some p

/-- The loop over the shares. -/
def withShares (tsBitrate : Option ℤ) (pids : List PidEntry) : Option (List PidEntry) :=
  match tsBitrate.filter (0 < ·) with
  | some bitrate => pids.mapM (withShare share bitrate)
  | none => some pids

/-- The dictionary at `"ts"`. -/
def tsNode (report : List (String × Json)) : List (String × Json) :=
  match get report "ts" with
  | .obj fields => fields
  | _ => []

/-- `extract_pid_structure`: the services of a report with their components and shares, or nothing
where a piece of it has another shape. -/
def extractPidStructure (report : List (String × Json)) : Option PidStructure := do
  let tsid := asInt (get (tsNode report) "id")
  let tsBitrate := asInt (get (tsNode report) "bitrate")
  let services ← (iterate (get report "services")).bind (collect serviceEntry)
  let pids ← (iterate (get report "pids")).bind (collect pidEntry)
  let pids ← withShares share tsBitrate (withNullPid lower pids)
  some
    { services := services.insertionSort fun s s' => s.id ≤ s'.id
      pids := pids.insertionSort fun p p' => p.id ≤ p'.id
      tsid := tsid
      tsBitrateBps := tsBitrate }

/-- What `json.loads` does with a text. -/
inductive Loaded where
  | value (v : Json)
  | decodeError
  | otherError

variable (loads : String → Loaded)

/-- `load_pid_structure`; no file is one that cannot be read. -/
def loadPidStructure (file : Option ByteArray) : Option (Option PidStructure) :=
  match file with
  | none => some none
  | some bytes =>
    match String.fromUTF8? bytes with
    | none => none
    | some raw =>
      match loads raw with
      | .otherError => none
      | .decodeError => some none
      | .value (.obj report) =>
        match get report "pids" with
        | .arr _ => (extractPidStructure lower share report).map some
        | _ => some none
      | .value _ => some none

end Code

end Etr290
