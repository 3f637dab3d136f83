/-
# Rows of a write body

What makes a line a valid row is said here without the parser: its shape, its scope, a counter
that is known and a field value that is a finite number.  `parse_influx_body` skips every other
line, with one exception: a row that is valid but for an infinite or NaN value makes the whole body
raise (`unspoiled_iff`).
-/
import IngestFarm.Etr290Totals

namespace Etr290

section Rows

variable (b : Builtins)

/-- The measurement, the tags and the field set of a line that has the shape of a row. -/
def rowParts (line : Text) : Option (Text × List (Text × Text) × Text) :=
  let line := PyText.strip line
  if line = [] ∨ line.head? = some '#' then none
  else
    (splitMeasurementAndFields b line).map fun p =>
      ((cut ',' p.1).1,
        ((((cut ',' p.1).2.map (fields ',')).getD []).filterMap keyValue).map fun kv =>
          (kv.1, unescapeInfluxTag kv.2), p.2)

/-- A severity and a name that are counted: a counter of priority 1 or 2 with either severity, or
one of the two informational ones. -/
def isKnownCounter (severity : ℤ) (name : String) : Bool :=
  (severity ∈ [1, 2] ∧ name ∈ allCounters : Bool) ||
    (severity = 4 ∧ name ∈ ["packet_count", "error_count"] : Bool)

/-- The measurements that are read. -/
def isKnown (measurement : Text) (tags : List (Text × Text)) : Bool :=
  if measurement = "bitrate".toList then true
  else if measurement = "counter".toList then
    match b.int ((tag tags "severity").getD "0".toList), tag tags "name" with
    | some severity, some name => isKnownCounter severity (String.ofList name)
    | _, _ => false
  else false

/-- The field value of a row that has the right shape, scope and counter. -/
def rowValue (line : Text) : Option PyFloat :=
  (rowParts b line).bind fun p =>
    if tag p.2.1 "scope" = some "ts".toList ∧ isKnown b p.1 p.2.1 = true then
      fieldNumeric b p.2.2 "value".toList
    else none

/-- A number that is neither infinite nor NaN. -/
def isFinite : PyFloat → Bool
  | .finite _ => true
  | _ => false

/-- A valid row. -/
def isValid (line : Text) : Bool := (rowValue b line).any isFinite

/-- A row that would be valid if its value were finite. -/
def isNonFinite (line : Text) : Bool := (rowValue b line).any fun x => !isFinite x

/-- A body without the rows that are not valid. -/
def purified (body : Text) : Text :=
  ((PyText.splitlines body).filter (isValid b)).flatMap fun line => line ++ ['\n']

/-- No row makes the body fail, and rows that are not valid make no difference. -/
def Unspoiled (body : Text) : Prop :=
  parseInfluxBody b body ≠ none ∧ parseInfluxBody b body = parseInfluxBody b (purified b body)

end Rows

/-! ## Lines -/

section Lines

variable {b : Builtins} {line : Text}

theorem truncate_eq_none {x : PyFloat} : truncate x = none ↔ isFinite x = false := by
  cases x <;> simp [truncate, isFinite]

/-- What the parser does with a line of the shape of a row. -/
theorem parseInfluxLine_eq : parseInfluxLine b line =
    match rowParts b line with
    | none => some none
    | some (measurement, tags, fieldsPart) =>
      if tag tags "scope" ≠ some "ts".toList then some none
      else
        match fieldNumeric b fieldsPart "value".toList with
        | none => some none
        | some numeric =>
          if measurement = "bitrate".toList then (truncate numeric).map fun v => some (.bitrate v)
          else if measurement ≠ "counter".toList then some none
          else
            match b.int ((tag tags "severity").getD "0".toList), tag tags "name" with
            | some severity, some name =>
              let name := String.ofList name
              if severity ∈ [1, 2] ∧ name ∈ allCounters then
                (truncate numeric).map fun v => some (.counter name severity v)
              else if severity = 4 ∧ name = "packet_count" then
                (truncate numeric).map fun v => some (.packetCount v)
              else if severity = 4 ∧ name = "error_count" then
                (truncate numeric).map fun v => some (.errorCount v)
              else some none
            | _, _ => some none := by
  unfold parseInfluxLine rowParts
  dsimp only
  split_ifs with h
  · rfl
  · rcases splitMeasurementAndFields b (PyText.strip line) with _ | ⟨head, fieldsPart⟩
    · rfl
    · rfl

/-- A row of a counter has severity 1 or 2 and a name that is listed. -/
def Row.Known : Row → Prop
  | counter name severity _ => (severity = 1 ∨ severity = 2) ∧ name ∈ allCounters
  | _ => True

/-- A row with a value: its conversion decides. -/
theorem parseInfluxLine_of_value {x : PyFloat} (h : rowValue b line = some x) :
    ∃ row : ℤ → Row, (∀ v, (row v).Known) ∧
      parseInfluxLine b line = (truncate x).map fun v => some (row v) := by
  unfold rowValue at h
  rw [parseInfluxLine_eq]
  rcases hparts : rowParts b line with _ | ⟨measurement, tags, fieldsPart⟩ <;> rw [hparts] at h
  · exact absurd h (by simp)
  · rw [Option.bind_some] at h
    dsimp only at h ⊢
    split_ifs at h with hkeep
    obtain ⟨hscope, hknown⟩ := hkeep
    rw [if_neg (not_not_intro hscope), h]
    dsimp only
    unfold isKnown at hknown
    -- The cases of the parser, each with the row it makes.
    by_cases hbit : measurement = "bitrate".toList
    · rw [if_pos hbit]
      exact ⟨.bitrate, fun _ => trivial, rfl⟩
    · rw [if_neg hbit] at hknown ⊢
      by_cases hcounter : measurement = "counter".toList
      · rw [if_pos hcounter] at hknown
        rw [if_neg (not_not_intro hcounter)]
        rcases hint : b.int ((tag tags "severity").getD "0".toList) with _ | severity <;>
          rw [hint] at hknown
        · exact absurd hknown Bool.false_ne_true
        rcases hname : tag tags "name" with _ | name <;> rw [hname] at hknown
        · exact absurd hknown Bool.false_ne_true
        dsimp only at hknown ⊢
        unfold isKnownCounter at hknown
        split_ifs with h₁ h₂ h₃
        · exact ⟨.counter (String.ofList name) severity, fun _ => ⟨by simpa using h₁.1, h₁.2⟩, rfl⟩
        · exact ⟨.packetCount, fun _ => trivial, rfl⟩
        · exact ⟨.errorCount, fun _ => trivial, rfl⟩
        · -- A known counter falls into one of the three.
          rw [Bool.or_eq_true, decide_eq_true_eq, decide_eq_true_eq] at hknown
          rcases hknown with hknown | ⟨hsev, hname⟩
          · exact absurd hknown h₁
          · rcases List.mem_cons.mp hname with hname | hname
            · exact absurd ⟨hsev, hname⟩ h₂
            · exact absurd ⟨hsev, List.mem_singleton.mp hname⟩ h₃
      · rw [if_neg hcounter] at hknown
        exact absurd hknown (by simp)

/-- A line without a value is skipped. -/
theorem parseInfluxLine_of_none (h : rowValue b line = none) :
    parseInfluxLine b line = some none := by
  unfold rowValue at h
  rw [parseInfluxLine_eq]
  rcases hparts : rowParts b line with _ | ⟨measurement, tags, fieldsPart⟩
  · rfl
  · rw [hparts, Option.bind_some] at h
    dsimp only at h ⊢
    by_cases hscope : tag tags "scope" = some "ts".toList
    · rw [if_neg (not_not_intro hscope)]
      rcases hvalue : fieldNumeric b fieldsPart "value".toList with _ | x
      · rfl
      · -- The value can be read, so the row is of no known kind.
        dsimp only
        have hknown : isKnown b measurement tags = false := by
          by_contra hk
          rw [if_pos ⟨hscope, by simpa using hk⟩, hvalue] at h
          exact absurd h (by simp)
        unfold isKnown at hknown
        split_ifs at hknown with hbit hcounter
        · rw [if_neg hbit, if_neg (not_not_intro hcounter)]
          rcases hint : b.int ((tag tags "severity").getD "0".toList) with _ | severity
          · rfl
          rcases hname : tag tags "name" with _ | name
          · rfl
          rw [hint, hname] at hknown
          dsimp only at hknown ⊢
          unfold isKnownCounter at hknown
          rw [Bool.or_eq_false_iff, decide_eq_false_iff_not, decide_eq_false_iff_not] at hknown
          rw [if_neg hknown.1, if_neg, if_neg]
          · exact fun hk => hknown.2 ⟨hk.1, by simp [hk.2]⟩
          · exact fun hk => hknown.2 ⟨hk.1, by simp [hk.2]⟩
        · rw [if_neg hbit, if_pos hcounter]
    · rw [if_pos hscope]

/-- **A valid row is accepted.** -/
theorem parseInfluxLine_valid (h : isValid b line = true) :
    ∃ row, parseInfluxLine b line = some (some row) := by
  unfold isValid at h
  obtain ⟨x, hx, hfin⟩ := (Option.any_eq_true _ _).mp h
  obtain ⟨row, -, hrow⟩ := parseInfluxLine_of_value hx
  rw [hrow]
  cases x with
  | finite q => exact ⟨row (q.num.tdiv q.den), rfl⟩
  | inf neg => exact absurd hfin (by simp [isFinite])
  | nan => exact absurd hfin (by simp [isFinite])

/-- **A row with an infinite value, or with NaN, raises.** -/
theorem parseInfluxLine_nonFinite (h : isNonFinite b line = true) :
    parseInfluxLine b line = none := by
  unfold isNonFinite at h
  obtain ⟨x, hx, hfin⟩ := (Option.any_eq_true _ _).mp h
  obtain ⟨row, -, hrow⟩ := parseInfluxLine_of_value hx
  rw [hrow, truncate_eq_none.mpr (by simpa using hfin), Option.map_none]

/-- **Every other line is skipped.** -/
theorem parseInfluxLine_skipped (h : isValid b line = false) (h' : isNonFinite b line = false) :
    parseInfluxLine b line = some none := by
  apply parseInfluxLine_of_none
  unfold isValid at h
  unfold isNonFinite at h'
  rcases hvalue : rowValue b line with _ | x
  · rfl
  · rw [hvalue, Option.any_some] at h h'
    rw [h] at h'
    exact absurd h' (by decide)

/-- What is accepted is known. -/
theorem known_of_parse {row : Row} (h : parseInfluxLine b line = some (some row)) : row.Known := by
  rcases hvalue : rowValue b line with _ | x
  · rw [parseInfluxLine_of_none hvalue] at h
    exact absurd h (by simp)
  · obtain ⟨row', hknown, hrow⟩ := parseInfluxLine_of_value hvalue
    rw [hrow, Option.map_eq_some_iff] at h
    obtain ⟨v, -, hv⟩ := h
    obtain rfl := Option.some.inj hv
    exact hknown v

end Lines

/-! ## Bodies -/

section Bodies

variable {b : Builtins}

/-- What is left of a body are the lines that are left. -/
theorem splitlines_purified (body : Text) :
    PyText.splitlines (purified b body) = (PyText.splitlines body).filter (isValid b) := by
  apply PyText.splitlines_unbroken
  exact fun line hline => PyText.unbroken_of_mem_splitlines (List.mem_filter.mp hline).1

/-- Lines that are not valid make no difference, as long as none raises. -/
theorem parseLines_filter {lines : List Text} (h : ∀ line ∈ lines, isNonFinite b line = false)
    (p : Parsed) : parseLines b p lines = parseLines b p (lines.filter (isValid b)) ∧
      parseLines b p lines ≠ none := by
  induction lines generalizing p with
  | nil => exact ⟨rfl, by simp [parseLines]⟩
  | cons line lines ih =>
    have hrest := ih fun line' hline' => h line' (List.mem_cons_of_mem _ hline')
    by_cases hvalid : isValid b line = true
    · obtain ⟨row, hrow⟩ := parseInfluxLine_valid hvalid
      rw [List.filter_cons_of_pos hvalid, parseLines, parseLines, hrow]
      exact hrest (p.add row)
    · have hskip := parseInfluxLine_skipped (by simpa using hvalid) (h line List.mem_cons_self)
      rw [List.filter_cons_of_neg hvalid, parseLines, hskip]
      exact hrest p

/-- One row that raises spoils the body. -/
theorem parseLines_eq_none {lines : List Text} {line : Text} (hmem : line ∈ lines)
    (h : isNonFinite b line = true) (p : Parsed) : parseLines b p lines = none := by
  induction lines generalizing p with
  | nil => exact absurd hmem List.not_mem_nil
  | cons line' lines ih =>
    rw [parseLines]
    rcases List.mem_cons.mp hmem with rfl | hmem
    · rw [parseInfluxLine_nonFinite h]
    · rcases parseInfluxLine b line' with _ | _ | row
      · rfl
      · exact ih hmem p
      · exact ih hmem (p.add row)

/-- **A body is not spoiled exactly when no row would be valid but for an infinite value or
NaN.** -/
theorem unspoiled_iff (b : Builtins) (body : Text) :
    Unspoiled b body ↔ ∀ line ∈ PyText.splitlines body, isNonFinite b line = false := by
  constructor
  · rintro ⟨hparse, -⟩ line hline
    by_contra hbad
    exact hparse (parseLines_eq_none hline (by simpa using hbad) _)
  · intro h
    obtain ⟨heq, hne⟩ := parseLines_filter h .empty
    refine ⟨hne, ?_⟩
    unfold parseInfluxBody
    rw [splitlines_purified]
    exact heq

end Bodies

/-! ## An infinite bit rate -/

/-- The built-ins on unsigned ASCII decimals and the word `inf`. -/
def Builtins.asciiInf : Builtins :=
  { Builtins.ascii with
    float := fun raw => if raw = "inf".toList then some (.inf false) else Builtins.ascii.float raw }

/-- A row for a counter, and an infinite bit rate. -/
def infiniteBody : Text :=
  "counter,name=pid_error,scope=ts,severity=1 value=3i\nbitrate,scope=ts value=inf".toList

/-- **An infinite bit rate takes the counter with it.** -/
theorem infinite_row_spoils : ¬ ∀ (b : Builtins) (body : Text), Unspoiled b body := by
  intro h
  have hnone : parseInfluxBody .asciiInf infiniteBody = none := by decide +kernel
  exact (h .asciiInf infiniteBody).1 hnone

end Etr290
