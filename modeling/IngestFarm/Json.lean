/-
# JSON values as Python sees them

Jobs travel through Redis as JSON texts that `json.loads` turns into Python values.  The
worker never validates them, so what counts is Python's own reading of a value: whether it
is truthy, whether it has a `.get`, and whether it can be a dictionary key.
-/
import Mathlib

/-- A Python float. -/
inductive PyFloat where
  | finite (q : ℚ)
  | inf (neg : Bool)
  | nan
  deriving DecidableEq

/-- A decoded JSON value. -/
inductive Json where
  | null
  | bool (b : Bool)
  | int (n : ℤ)
  | float (x : PyFloat)
  | str (s : String)
  | arr (xs : List Json)
  | obj (fields : List (String × Json))

/-- An element of a Redis list: a text that `json.loads` rejects, or the value it decodes to. -/
inductive Raw where
  | invalid
  | json (value : Json)

/-- A channel id in its role as a dictionary key.  Rows and sessions have string ids; a
number can only come from a stray payload. -/
inductive ChannelId where
  | str (s : String)
  | num (x : PyFloat)
  deriving DecidableEq

/-- A channel id in a message. -/
def ChannelId.text : ChannelId → String
  | .str s => s
  | .num _ => "<number>"

namespace Json

/-- Python's truth value. -/
def truthy : Json → Bool
  | null => false
  | bool b => b
  | int n => n ≠ 0
  | float x => x ≠ .finite 0
  | str s => s ≠ ""
  | arr xs => !xs.isEmpty
  | obj fields => !fields.isEmpty

/-- The value at a key of an object; of a repeated key the last one counts. -/
def field? (key : String) (fields : List (String × Json)) : Option Json :=
  (fields.reverse.find? fun e => e.1 = key).map Prod.snd

/-- A truthy value as a dictionary key; `none` for the unhashable lists and dicts. -/
def toKey : Json → Option ChannelId
  | str s => some (.str s)
  | int n => some (.num (.finite n))
  | float x => some (.num x)
  | bool b => some (.num (.finite (if b then 1 else 0)))
  | null => none
  | arr _ => none
  | obj _ => none

/-- A channel id as it is written into a payload. -/
def ofKey : ChannelId → Json
  | .str s => .str s
  | .num x => .float x

/-- The id in a control job: `job.get("channel_id")` when it is truthy; `none` for a value
that has no `get`. -/
def jobId : Json → Option (Option Json)
  | obj fields => some ((field? "channel_id" fields).filter truthy)
  | _ => none

/-- The channel of a well-formed job. -/
def channel (job : Json) : Option ChannelId := (job.jobId.bind id).bind toKey

end Json

/-- The channel of a well-formed list element. -/
def Raw.channel : Raw → Option ChannelId
  | .invalid => none
  | .json v => v.channel
