/-
# Encoded rows

A row is encoded as line protocol and parsed back.  The parser takes the first space of a line for
the end of the tags, also an escaped one, so a row comes back if no value has a space
(`roundtrip_iff` says when else).  Commas do no harm: what is left of the value of a name or of a
severity counts neither before nor after.

A row can come back by chance although a value has a space: what the parser makes of the rest of the
line may classify as the same row.  So the condition of the result has two parts, no spaces or such
a chance, and for the second the first space of the line decides (`exists_first_space`), before
which everything is read as in a row without spaces.
-/
import IngestFarm.Etr290Tags
import IngestFarm.Etr290Rows

namespace Etr290

/-- The decimal digits of an integer. -/
def decimal (n : ℤ) : Text := (if n < 0 then ['-'] else []) ++ Nat.toDigits 10 n.natAbs

/-- What is documented of the built-ins: `float` and `int` read decimal numbers and refuse texts
with a backslash, an equals sign or a comma. -/
structure Builtins.Documented (b : Builtins) : Prop where
  float_decimal : ∀ n : ℤ, |n| < 2 ^ 53 → b.float (decimal n) = some (.finite n)
  float_refuses : ∀ raw, '\\' ∈ raw ∨ '=' ∈ raw → b.float raw = none
  int_refuses : ∀ raw, '\\' ∈ raw ∨ ',' ∈ raw → b.int raw = none
  int_zero : b.int "0".toList = some 0
  isDigit_digit : ∀ c, c.isDigit = true → b.isDigit c = true
  isDigit_equals : b.isDigit '=' = false

/-- The two measurements that a line may have. -/
inductive Measurement where
  | counter
  | bitrate
  deriving DecidableEq

/-- The text of a measurement at the head of a line. -/
def Measurement.text : Measurement → Text
  | counter => "counter".toList
  | bitrate => "bitrate".toList

/-- A row before it is encoded. -/
structure InfluxRow where
  measurement : Measurement
  tags : List (Text × Text)
  value : ℤ
  integer : Bool
  timestamp : Option ℤ
  distinct : (tags.map Prod.fst).Nodup
  keys : ∀ e ∈ tags, Plain e.1
  values : ∀ e ∈ tags, '\\' ∉ e.2
  small : |value| < 2 ^ 53

namespace InfluxRow

variable (r : InfluxRow)

/-- The single field. -/
def fieldSet : Text := "value=".toList ++ decimal r.value ++ if r.integer = true then ['i'] else []

/-- A time stamp at the end of the field set. -/
def stamp : Text :=
  match r.timestamp with
  | none => []
  | some t => ' ' :: decimal t

/-- The row as a line. -/
def encode : Text :=
  r.measurement.text ++ r.tags.flatMap encodeTag ++ ' ' :: (r.fieldSet ++ r.stamp)

end InfluxRow

section Classification

variable (b : Builtins)

/-- What a row of the measurement `counter` is, but for its value. -/
def counterRow : Option ℤ → Option Text → Option (ℤ → Row)
  | some severity, some name =>
    let name := String.ofList name
    if severity ∈ [1, 2] ∧ name ∈ allCounters then some (.counter name severity)
    else if severity = 4 ∧ name = "packet_count" then some .packetCount
    else if severity = 4 ∧ name = "error_count" then some .errorCount
    else none
  | _, _ => none

/-- What a row with these tags is, but for its value. -/
def classify (measurement : Text) (tags : List (Text × Text)) : Option (ℤ → Row) :=
  if tag tags "scope" ≠ some "ts".toList then none
  else if measurement = "bitrate".toList then some .bitrate
  else if measurement ≠ "counter".toList then none
  else counterRow (b.int ((tag tags "severity").getD "0".toList)) (tag tags "name")

/-- The row, classified from its own tags and value. -/
def InfluxRow.classified (r : InfluxRow) : Option Row :=
  (classify b r.measurement.text r.tags).map fun row => row r.value

/-- The number in a tag named `value`. -/
def numberIn (w : Text) : Option PyFloat :=
  b.float (if w.getLast? = some 'i' then w.dropLast else w)

/-- White space other than spaces. -/
def White (v : Text) : Prop := ∀ c ∈ v, PyText.isSpace c = true ∧ c ≠ ' '

/-- The condition: no value has a space, the row does not count, or the tags before the first space
make up the row and the value is read by chance, because what comes after that space is white, or
from a tag named `value`. -/
def InfluxRow.Readable (r : InfluxRow) : Prop :=
  (∀ e ∈ r.tags, ' ' ∉ e.2) ∨ classify b r.measurement.text r.tags = none ∨
    ∃ before key u v after, r.tags = before ++ (key, u ++ ' ' :: v) :: after ∧
      (∀ e ∈ before, ' ' ∉ e.2) ∧ ' ' ∉ u ∧ classify b r.measurement.text before ≠ none ∧
      ((after = [] ∧ White v) ∨
        ∃ w x, ("value".toList, w) ∈ after.dropLast ∧ (∀ c ∈ w, isSpecial c = false) ∧
          numberIn b w = some x ∧ truncate x = some r.value)

end Classification

/-! ## Decimals -/

/-- A decimal has digits only. -/
theorem isDigit_of_mem_toDigits {n : ℕ} {c : Char} (h : c ∈ Nat.toDigits 10 n) :
    c.isDigit = true :=
  Nat.isDigit_of_mem_toDigits (by decide) (by decide) h

/-- And a sign perhaps. -/
theorem mem_decimal {n : ℤ} {c : Char} (h : c ∈ decimal n) : c = '-' ∨ c.isDigit = true := by
  rcases List.mem_append.mp h with h | h
  · split_ifs at h
    · exact Or.inl (List.mem_singleton.mp h)
    · exact absurd h List.not_mem_nil
  · exact Or.inr (isDigit_of_mem_toDigits h)

/-- A number ends in a digit. -/
theorem getLast?_decimal {n : ℤ} {c : Char} (h : (decimal n).getLast? = some c) :
    c.isDigit = true := by
  unfold decimal at h
  rw [List.getLast?_append_of_ne_nil _ Nat.toDigits_ne_nil] at h
  exact isDigit_of_mem_toDigits (List.mem_of_getLast? h)

/-- Without the sign a decimal is that of the absolute value. -/
theorem dropWhile_decimal (n : ℤ) : (decimal n).dropWhile (· = '-') = Nat.toDigits 10 n.natAbs := by
  have hdigits : (Nat.toDigits 10 n.natAbs).dropWhile (· = '-') = Nat.toDigits 10 n.natAbs := by
    rw [List.dropWhile_eq_self_iff]
    intro hl heq
    have hdigit := isDigit_of_mem_toDigits (List.getElem_mem hl)
    rw [of_decide_eq_true heq] at hdigit
    exact absurd hdigit (by decide)
  unfold decimal
  split_ifs
  · rw [List.singleton_append, List.dropWhile_cons_of_pos (by decide), hdigits]
  · rw [List.nil_append, hdigits]

/-- A digit is visible, and is none of the characters that matter. -/
theorem visible_of_isDigit {c : Char} (h : c.isDigit = true) :
    PyText.isSpace c = false ∧ c ≠ 'i' ∧ c ≠ ' ' ∧ c ≠ ',' ∧ c ≠ '=' := by
  refine ⟨?_, ?_, ?_, ?_, ?_⟩
  · have hrange : 48 ≤ c.toNat ∧ c.toNat ≤ 57 := by
      simpa [Char.isDigit, UInt32.le_iff_toNat_le] using h
    simp only [PyText.isSpace, List.mem_cons, List.not_mem_nil, or_false, Bool.or_eq_false_iff,
      decide_eq_false_iff_not, Bool.and_eq_false_iff]
    omega
  all_goals
    rintro rfl
    exact absurd h (by decide)

/-! ## Classification -/

section Classes

variable {b : Builtins} {measurement : Text} {tags found : List (Text × Text)}

/-- A tag that is read instead of another: the same, or one that is as useless. -/
def Blurred (found actual : Option Text) : Prop :=
  found = actual ∨ (∃ x, found = some x ∧ '\\' ∈ x) ∧ ∀ y, actual = some y → ',' ∈ y

/-- Severity zero is no counter. -/
theorem counterRow_of_zero (name : Option Text) : counterRow (some 0) name = none := by
  unfold counterRow
  rcases name with _ | name
  · rfl
  · dsimp only
    rw [if_neg (by simp), if_neg (by simp), if_neg (by simp)]

/-- No counter has such a name. -/
theorem counterRow_of_name {severity : Option ℤ} {name : Text} (h : '\\' ∈ name ∨ ',' ∈ name) :
    counterRow severity (some name) = none := by
  have hno : ∀ known ∈ "packet_count" :: "error_count" :: allCounters,
      String.ofList name ≠ known := by
    have hclean : ∀ known ∈ "packet_count" :: "error_count" :: allCounters,
        '\\' ∉ known.toList ∧ ',' ∉ known.toList := by decide
    rintro known hknown rfl
    have hcl := hclean _ hknown
    rw [String.toList_ofList] at hcl
    exact h.elim hcl.1 hcl.2
  rcases severity with _ | severity
  · rfl
  · unfold counterRow
    dsimp only
    rw [if_neg fun h => hno _ (List.mem_cons_of_mem _ (List.mem_cons_of_mem _ h.2)) rfl,
      if_neg fun h => hno _ List.mem_cons_self h.2,
      if_neg fun h => hno _ (List.mem_cons_of_mem _ List.mem_cons_self) h.2]

/-- What a cut does to the scope does not make it another one. -/
theorem Blurred.scope {x y : Option Text} (h : Blurred x y) :
    x = some "ts".toList ↔ y = some "ts".toList := by
  rcases h with rfl | ⟨⟨x, rfl, hx⟩, hy⟩
  · rfl
  · refine ⟨fun heq => ?_, fun heq => ?_⟩
    · rw [Option.some.inj heq] at hx
      exact absurd hx (by decide)
    · exact absurd (hy _ heq) (by decide)

/-- What it does to severity and name makes a row at most disappear. -/
theorem Blurred.counterRow (hb : b.Documented) {severity severity' name name' : Option Text}
    (hs : Blurred severity' severity) (hn : Blurred name' name) :
    counterRow (b.int (severity'.getD "0".toList)) name' =
      counterRow (b.int (severity.getD "0".toList)) name := by
  have hname : ∀ s, Etr290.counterRow s name' = Etr290.counterRow s name := by
    intro s
    rcases hn with rfl | ⟨⟨x, rfl, hx⟩, hy⟩
    · rfl
    · rw [counterRow_of_name (Or.inl hx)]
      rcases name with _ | y
      · rcases s with _ | s
        · rfl
        · rfl
      · rw [counterRow_of_name (Or.inr (hy y rfl))]
  rw [hname]
  rcases hs with rfl | ⟨⟨x, rfl, hx⟩, hy⟩
  · rfl
  · rw [Option.getD_some, hb.int_refuses x (Or.inl hx)]
    rcases severity with _ | y
    · rw [Option.getD_none, hb.int_zero, counterRow_of_zero]
      rfl
    · rw [Option.getD_some, hb.int_refuses y (Or.inr (hy y rfl))]

/-- **Blurred tags make the same row.** -/
theorem classify_congr (hb : b.Documented)
    (h : ∀ name ∈ ["scope", "severity", "name"], Blurred (tag found name) (tag tags name)) :
    classify b measurement found = classify b measurement tags := by
  have hscope := (h "scope" (by decide)).scope
  unfold classify
  rw [(h "severity" (by decide)).counterRow hb (h "name" (by decide))]
  by_cases hts : tag tags "scope" = some "ts".toList
  · rw [if_neg (not_not_intro hts), if_neg (not_not_intro (hscope.mpr hts))]
  · rw [if_pos hts, if_pos (mt hscope.mp hts)]

/-- A tag by way of all tags of the name. -/
theorem tag_map (l : List (Text × Text)) (f : Text → Text) (name : String) :
    tag (l.map fun kv => (kv.1, f kv.2)) name =
      ((l.filter fun kv => kv.1 = name.toList).getLast?).map fun kv => f kv.2 := by
  unfold tag
  rw [← List.map_reverse, List.find?_map, Option.map_map, ← List.head?_reverse,
    ← List.filter_reverse, List.head?_filter]
  rfl

/-- Of two tags with one name the later one counts. -/
theorem tag_eq (l : List (Text × Text)) (name : String) :
    tag l name = ((l.filter fun kv => kv.1 = name.toList).getLast?).map Prod.snd := by
  have hid : (l.map fun kv => (kv.1, id kv.2)) = l := List.map_id l
  have h := tag_map l id name
  rwa [hid] at h

/-- A value that is cut off at a comma, or at a space, ends in a backslash. -/
theorem unescape_cut {w tail : Text} (hw : '\\' ∉ w) (h : ',' ∈ w ∨ tail = ['\\'])
    (hcomma : ',' ∉ tail) :
    '\\' ∈ unescapeInfluxTag ((escapeTag w ++ tail).takeWhile (· ≠ ',')) := by
  rw [takeWhile_escapeTag hcomma]
  split_ifs with hmem
  · rw [unescape_escapeTag fun h => hw ((List.takeWhile_sublist _).subset h)]
    exact List.mem_append_right _ List.mem_cons_self
  · rw [h.resolve_left hmem, unescape_escapeTag hw]
    exact List.mem_append_right _ List.mem_cons_self

/-- A value without a comma is read back. -/
theorem unescape_whole {w : Text} (hw : '\\' ∉ w) (h : ',' ∉ w) :
    unescapeInfluxTag ((escapeTag w ++ []).takeWhile (· ≠ ',')) = w := by
  rw [takeWhile_escapeTag List.not_mem_nil, if_neg h, unescape_escapeTag hw]
  exact List.append_nil w

/-- What is seen of the tags when nothing follows. -/
theorem seen_nil (es : List (Text × Text)) :
    seen [] es = es.map fun e => (e.1, (escapeTag e.2 ++ []).takeWhile (· ≠ ',')) := by
  induction es with
  | nil => rfl
  | cons e es ih =>
    rw [seen, ih, ite_self]
    rfl

/-- What follows touches the last tag only. -/
theorem seen_append (tail : Text) (es : List (Text × Text)) (e : Text × Text) :
    seen tail (es ++ [e]) =
      seen [] es ++ [(e.1, (escapeTag e.2 ++ tail).takeWhile (· ≠ ','))] := by
  induction es with
  | nil => rfl
  | cons e' es ih =>
    rw [List.cons_append, seen, seen, ih, if_neg (by simp), ite_self]
    rfl

/-- The tags that the parser reads, when nothing is cut off behind the last one. -/
theorem blurred_seen {es : List (Text × Text)} (hes : ∀ e ∈ es, '\\' ∉ e.2) (name : String) :
    Blurred (tag ((seen [] es).map fun kv => (kv.1, unescapeInfluxTag kv.2)) name)
      (tag es name) := by
  rw [seen_nil, List.map_map, tag_eq es]
  have hmap := tag_map es (fun w => unescapeInfluxTag ((escapeTag w ++ []).takeWhile (· ≠ ',')))
    name
  rcases hlast : (es.filter fun kv => kv.1 = name.toList).getLast? with _ | e <;>
    rw [hlast] at hmap ⊢
  · exact Or.inl hmap
  · have hw := hes e (List.mem_filter.mp (List.mem_of_getLast? hlast)).1
    by_cases hcomma : ',' ∈ e.2
    · refine Or.inr ⟨⟨_, hmap, unescape_cut hw (Or.inl hcomma) List.not_mem_nil⟩, ?_⟩
      rintro y ⟨⟩
      exact hcomma
    · refine Or.inl (hmap.trans ?_)
      rw [Option.map_some, Option.map_some, unescape_whole hw hcomma]

/-- The tags that the parser reads, when the last one is cut off at a space. -/
theorem blurred_seen_cut {es : List (Text × Text)} {key u : Text} (hes : ∀ e ∈ es, '\\' ∉ e.2)
    (hu : '\\' ∉ u) (hkey : key ∉ es.map Prod.fst) (name : String) :
    Blurred (tag ((seen ['\\'] (es ++ [(key, u)])).map fun kv =>
      (kv.1, unescapeInfluxTag kv.2)) name) (tag es name) := by
  have hrest := blurred_seen hes name
  rw [seen_append, List.map_append]
  rw [tag_eq, tag_eq es] at hrest ⊢
  rw [List.filter_append]
  by_cases hname : key = name.toList
  · refine Or.inr ⟨⟨_, ?_, unescape_cut hu (Or.inr rfl) (by decide)⟩, ?_⟩
    · rw [List.map_singleton, List.filter_cons_of_pos (by simpa using hname),
        List.filter_nil, List.getLast?_append]
      rfl
    · have hnil : (es.filter fun kv => kv.1 = name.toList) = [] := by
        rw [List.filter_eq_nil_iff]
        intro e he heq
        exact hkey (List.mem_map.mpr ⟨e, he, (of_decide_eq_true heq).trans hname.symm⟩)
      rw [hnil]
      exact fun y hy => absurd hy (by simp)
  · rw [List.map_singleton, List.filter_cons_of_neg (by simpa using hname), List.filter_nil,
      List.append_nil]
    exact hrest

end Classes

/-! ## The field -/

section Fields

variable {b : Builtins}

/-- The name of the field needs no escape. -/
theorem plain_value : Plain "value".toList := by
  simp [Plain, isSpecial]

/-- A text with a backslash or an equals sign is no number, with or without an `i` at its end. -/
theorem numberIn_refuses (hb : b.Documented) {raw : Text} (h : '\\' ∈ raw ∨ '=' ∈ raw) :
    numberIn b raw = none := by
  unfold numberIn
  apply hb.float_refuses
  split_ifs with hlast
  · have hsplit : raw = raw.dropLast ++ ['i'] := (List.dropLast_append_getLast? 'i' hlast).symm
    rw [hsplit, List.mem_append, List.mem_append] at h
    exact h.imp (fun h => h.resolve_right (by decide)) fun h => h.resolve_right (by decide)
  · exact h

/-- The first field of the name decides. -/
theorem fieldNumeric_eq (text : Text) (name : Text) : fieldNumeric b text name =
    ((((fields ',' text).filterMap keyValue).filter fun kv => kv.1 = name).head?).bind
      fun kv => numberIn b kv.2 := by
  unfold fieldNumeric
  rw [List.head?_filter]
  rcases List.find? _ _ with _ | ⟨key, raw⟩
  · rfl
  · rfl

/-- A field set has no comma. -/
theorem comma_not_mem_fieldSet (r : InfluxRow) : ',' ∉ r.fieldSet := by
  unfold InfluxRow.fieldSet
  rw [List.mem_append, List.mem_append, not_or, not_or]
  refine ⟨⟨by decide, fun hmem => ?_⟩, ?_⟩
  · rcases mem_decimal hmem with h | h
    · exact absurd h (by decide)
    · exact (visible_of_isDigit h).2.2.2.1 rfl
  · split_ifs
    · decide
    · exact List.not_mem_nil

/-- The field set of a row has its value. -/
theorem fieldNumeric_fieldSet (hb : b.Documented) (r : InfluxRow) :
    fieldNumeric b r.fieldSet "value".toList = some (.finite r.value) := by
  have hkv : keyValue r.fieldSet = some ("value".toList,
      decimal r.value ++ if r.integer = true then ['i'] else []) := by
    rw [← keyValue_of_plain plain_value]
    unfold InfluxRow.fieldSet
    rw [List.append_assoc]
    rfl
  rw [fieldNumeric_eq, fields_of_not_mem (comma_not_mem_fieldSet r), List.filterMap_cons, hkv]
  show numberIn b (decimal r.value ++ if r.integer = true then ['i'] else []) = _
  unfold numberIn
  split_ifs with hint hlast hlast
  · rw [List.dropLast_concat]
    exact hb.float_decimal _ r.small
  · exact absurd List.getLast?_concat hlast
  · rw [List.append_nil] at hlast
    exact absurd rfl (visible_of_isDigit (getLast?_decimal hlast)).2.1
  · rw [List.append_nil]
    exact hb.float_decimal _ r.small

/-- What is seen of a tag: the value up to a comma, or all of it and what comes after the last. -/
theorem mem_seen {tail : Text} {es : List (Text × Text)} {kv : Text × Text}
    (h : kv ∈ seen tail es) :
    (∃ w, (kv.1, w) ∈ es.dropLast ∧ kv.2 = (escapeTag w ++ []).takeWhile (· ≠ ',')) ∨
      ∃ w, kv.2 = (escapeTag w ++ tail).takeWhile (· ≠ ',') := by
  rcases List.eq_nil_or_concat es with rfl | ⟨es, e, rfl⟩
  · exact absurd h List.not_mem_nil
  · rw [List.concat_eq_append] at h ⊢
    rw [seen_append, seen_nil, List.mem_append, List.mem_map, List.mem_singleton] at h
    rw [List.dropLast_concat]
    rcases h with ⟨e', he', rfl⟩ | rfl
    · exact Or.inl ⟨e'.2, he', rfl⟩
    · exact Or.inr ⟨e.2, rfl⟩

/-- **A number behind the first space** comes from an ordinary tag that is not the last. -/
theorem numberIn_seen (hb : b.Documented) {tail : Text} (hcomma : ',' ∉ tail) (hequals : '=' ∈ tail)
    {es : List (Text × Text)} (hes : (es.map Prod.fst).Nodup) {name : Text} {x : PyFloat} :
    ((((seen tail es).filter fun kv => kv.1 = name).head?).bind fun kv => numberIn b kv.2) =
        some x ↔
      ∃ w, (name, w) ∈ es.dropLast ∧ (∀ c ∈ w, isSpecial c = false) ∧ numberIn b w = some x := by
  -- A number has no special character, so what is read as one was not escaped.
  have hordinary : ∀ w, numberIn b ((escapeTag w ++ []).takeWhile (· ≠ ',')) ≠ none →
      ∀ c ∈ w, isSpecial c = false := by
    intro w hw c hc
    by_contra hspecial
    refine hw (numberIn_refuses hb (Or.inl ?_))
    rw [takeWhile_escapeTag List.not_mem_nil]
    split_ifs
    · exact List.mem_append_right _ List.mem_cons_self
    · rw [List.append_nil]
      exact backslash_mem_escapeTag hc (by simpa using hspecial)
  have hwhole : ∀ w : Text, (∀ c ∈ w, isSpecial c = false) →
      (escapeTag w ++ []).takeWhile (· ≠ ',') = w := by
    intro w hw
    rw [takeWhile_escapeTag List.not_mem_nil, if_neg fun h => absurd (hw _ h) (by decide),
      escapeTag_of_ordinary hw, List.append_nil]
  constructor
  · intro h
    obtain ⟨kv, hkv, hx⟩ := Option.bind_eq_some_iff.mp h
    obtain ⟨hmem, hname⟩ := List.mem_filter.mp (List.mem_of_head? hkv)
    obtain rfl := of_decide_eq_true hname
    rcases mem_seen hmem with ⟨w, hw, heq⟩ | ⟨w, heq⟩
    · rw [heq] at hx
      have hord := hordinary w (by rw [hx]; exact Option.some_ne_none x)
      rw [hwhole w hord] at hx
      exact ⟨w, hw, hord, hx⟩
    · -- the last value runs into the field set
      rw [heq, numberIn_refuses hb] at hx
      · exact absurd hx (by simp)
      · rw [takeWhile_escapeTag hcomma]
        split_ifs
        · exact Or.inl (List.mem_append_right _ List.mem_cons_self)
        · exact Or.inr (List.mem_append_right _ hequals)
  · rintro ⟨w, hw, hord, hx⟩
    have hhead : ((seen tail es).filter fun kv => kv.1 = name).head? = some (name, w) := by
      -- On the tags: the first one of the name is the only one, as the keys are distinct.
      induction es with
      | nil => exact absurd hw List.not_mem_nil
      | cons e es ih =>
        have hne : es ≠ [] := by
          rintro rfl
          exact absurd hw List.not_mem_nil
        rw [List.map_cons, List.nodup_cons] at hes
        rw [List.dropLast_cons_of_ne_nil hne] at hw
        rw [seen, if_neg hne]
        rcases List.mem_cons.mp hw with rfl | hw
        · rw [List.filter_cons_of_pos (by simp), List.head?_cons, hwhole w hord]
        · rw [List.filter_cons_of_neg, ih hes.2 hw]
          rw [decide_eq_true_eq]
          rintro rfl
          exact hes.1 (List.mem_map.mpr ⟨_, List.mem_of_mem_dropLast hw, rfl⟩)
    rw [hhead]
    exact hx

end Fields

/-! ## The line -/

section Lines

variable {b : Builtins} {r : InfluxRow}

/-- It ends with a character that stripping keeps. -/
theorem getLast?_fieldSet {c : Char} (h : r.fieldSet.getLast? = some c) :
    PyText.isSpace c = false := by
  unfold InfluxRow.fieldSet at h
  split_ifs at h
  · rw [List.getLast?_concat] at h
    obtain rfl := Option.some.inj h
    decide
  · rw [List.append_nil, List.getLast?_append_of_ne_nil] at h
    · exact (visible_of_isDigit (getLast?_decimal h)).1
    · exact List.append_ne_nil_of_right_ne_nil _ Nat.toDigits_ne_nil

theorem fieldSet_ne_nil : r.fieldSet ≠ [] := by
  unfold InfluxRow.fieldSet
  simp

theorem space_not_mem_decimal (n : ℤ) : ' ' ∉ decimal n := by
  intro hmem
  rcases mem_decimal hmem with h | h
  · exact absurd h (by decide)
  · exact (visible_of_isDigit h).2.2.1 rfl

/-- It has no space, so a line is cut before it. -/
theorem space_not_mem_fieldSet : ' ' ∉ r.fieldSet := by
  unfold InfluxRow.fieldSet
  rw [List.mem_append, List.mem_append, not_or, not_or]
  refine ⟨⟨by decide, space_not_mem_decimal _⟩, ?_⟩
  split_ifs
  · decide
  · exact List.not_mem_nil

/-- The first character of a field set is visible. -/
theorem lstrip_fieldSet (rest : Text) :
    PyText.lstrip (r.fieldSet ++ rest) = r.fieldSet ++ rest := by
  apply PyText.lstrip_of_head
  unfold InfluxRow.fieldSet
  rintro c ⟨⟩
  decide

/-- A line ends visibly. -/
theorem rstrip_line (front : Text) :
    PyText.rstrip (front ++ (r.fieldSet ++ r.stamp)) = front ++ (r.fieldSet ++ r.stamp) := by
  apply PyText.rstrip_of_last
  intro c hc
  have hne : r.fieldSet ++ r.stamp ≠ [] := by simp [fieldSet_ne_nil]
  rw [List.getLast?_append_of_ne_nil _ hne] at hc
  unfold InfluxRow.stamp at hc
  rcases ht : r.timestamp with _ | t <;> rw [ht] at hc
  · rw [List.append_nil] at hc
    exact getLast?_fieldSet hc
  · have hdec : decimal t ≠ [] := List.append_ne_nil_of_right_ne_nil _ Nat.toDigits_ne_nil
    rw [List.getLast?_append_of_ne_nil _ (List.cons_ne_nil _ _),
      List.getLast?_cons_of_ne_nil hdec] at hc
    exact (visible_of_isDigit (getLast?_decimal hc)).1

/-- A text that is empty or ends in a space: what may come before the field set. -/
def Spaced (front : Text) : Prop := front = [] ∨ ∃ front', front = front' ++ [' ']

/-- White space in front is stripped, and what is left is as before. -/
theorem lstrip_spaced {front : Text} (h : Spaced front) :
    ∃ front', Spaced front' ∧ ∀ rest, PyText.lstrip (front ++ (r.fieldSet ++ rest)) =
      front' ++ (r.fieldSet ++ rest) := by
  rcases h with rfl | ⟨front, rfl⟩
  · exact ⟨[], Or.inl rfl, lstrip_fieldSet⟩
  · have hdrop : ∀ rest, PyText.lstrip (front ++ [' '] ++ (r.fieldSet ++ rest)) =
        if (front.dropWhile PyText.isSpace).isEmpty = true then r.fieldSet ++ rest
        else front.dropWhile PyText.isSpace ++ [' '] ++ (r.fieldSet ++ rest) := by
      intro rest
      have hfield : (r.fieldSet ++ rest).dropWhile PyText.isSpace = r.fieldSet ++ rest :=
        lstrip_fieldSet rest
      rw [List.append_assoc, List.append_assoc, PyText.lstrip, List.dropWhile_append,
        List.singleton_append, List.dropWhile_cons_of_pos (by decide), hfield]
    by_cases hall : (front.dropWhile PyText.isSpace).isEmpty = true
    · exact ⟨[], Or.inl rfl, fun rest => by rw [hdrop, if_pos hall]; rfl⟩
    · exact ⟨_, Or.inr ⟨_, rfl⟩, fun rest => by rw [hdrop, if_neg hall]⟩

/-- **The line is split** at its first space, and the time stamp is taken off. -/
theorem splitMeasurementAndFields_eq (hb : b.Documented) {head front : Text} (hhead : ' ' ∉ head)
    (hfront : Spaced front) :
    splitMeasurementAndFields b (head ++ ' ' :: (front ++ (r.fieldSet ++ r.stamp))) =
      some (head, PyText.lstrip (front ++ r.fieldSet)) := by
  obtain ⟨front', hspaced, hstrip⟩ := lstrip_spaced (r := r) hfront
  have hnil := hstrip []
  rw [List.append_nil] at hnil
  unfold splitMeasurementAndFields
  rw [cut_append hhead]
  dsimp only
  have hall : PyText.strip (front ++ (r.fieldSet ++ r.stamp)) =
      front' ++ (r.fieldSet ++ r.stamp) := by
    rw [PyText.strip, hstrip, rstrip_line]
  rw [hall, if_neg (by simp [fieldSet_ne_nil]), hnil]
  unfold InfluxRow.stamp
  rcases r.timestamp with _ | t
  · dsimp only
    rw [List.append_nil]
    rcases hspaced with rfl | ⟨front'', rfl⟩
    · rw [List.nil_append, rcut_of_not_mem space_not_mem_fieldSet]
    · rw [List.append_assoc, List.singleton_append, rcut_append space_not_mem_fieldSet]
      dsimp only
      rw [if_neg]
      rintro ⟨-, hdigits⟩
      have hequals : '=' ∈ r.fieldSet.dropWhile (· = '-') := by
        unfold InfluxRow.fieldSet
        simp
      have hdigit := List.all_eq_true.mp hdigits _ hequals
      rw [hb.isDigit_equals] at hdigit
      exact absurd hdigit Bool.false_ne_true
  · dsimp only
    rw [← List.append_assoc, rcut_append (space_not_mem_decimal t)]
    dsimp only
    rw [dropWhile_decimal, if_pos]
    refine ⟨Nat.toDigits_ne_nil, List.all_eq_true.mpr fun c hc => ?_⟩
    exact hb.isDigit_digit c (isDigit_of_mem_toDigits hc)

/-- The tags of a row have no space if no value has one. -/
theorem space_not_mem_tags {es : List (Text × Text)} (hkeys : ∀ e ∈ es, Plain e.1)
    (hvalues : ∀ e ∈ es, ' ' ∉ e.2) : ' ' ∉ es.flatMap encodeTag := by
  intro hmem
  obtain ⟨e, he, hspace⟩ := List.mem_flatMap.mp hmem
  unfold encodeTag at hspace
  rcases List.mem_cons.mp hspace with h | h
  · exact absurd h (by decide)
  · rcases List.mem_append.mp h with h | h
    · exact absurd (hkeys e he _ h).1 (by decide)
    · rcases List.mem_cons.mp h with h | h
      · exact absurd h (by decide)
      · exact (mem_of_mem_escapeTag h).elim (by decide) (hvalues e he)

/-- A measurement survives the cut at the head. -/
theorem measurement_text (m : Measurement) : ',' ∉ m.text ∧ ' ' ∉ m.text ∧
    ∃ c cs, m.text = c :: cs ∧ PyText.isSpace c = false ∧ c ≠ '#' := by
  cases m with
  | counter => exact ⟨by decide, by decide, 'c', "ounter".toList, rfl, by decide, by decide⟩
  | bitrate => exact ⟨by decide, by decide, 'b', "itrate".toList, rfl, by decide, by decide⟩

/-- The tags that the parser reads from the text between the measurement and the first space. -/
def tagsIn (text : Text) : List (Text × Text) :=
  ((fields ',' text).filterMap keyValue).map fun kv => (kv.1, unescapeInfluxTag kv.2)

/-- **What is parsed**: the tags before the first space, and the field set after it. -/
theorem parseInfluxLine_encoded (hb : b.Documented) {text front : Text}
    (htext : text = [] ∨ ∃ rest, text = ',' :: rest) (hspace : ' ' ∉ text) (hfront : Spaced front) :
    parseInfluxLine b (r.measurement.text ++ text ++ ' ' :: (front ++ (r.fieldSet ++ r.stamp))) =
      match fieldNumeric b (PyText.lstrip (front ++ r.fieldSet)) "value".toList with
      | none => some none
      | some x =>
        match classify b r.measurement.text (tagsIn text) with
        | none => some none
        | some row => (truncate x).map fun v => some (row v) := by
  obtain ⟨hcomma, hblank, c, cs, hm, hvisible, hhash⟩ := measurement_text r.measurement
  have hstrip : PyText.strip (r.measurement.text ++ text ++
      ' ' :: (front ++ (r.fieldSet ++ r.stamp))) =
        r.measurement.text ++ text ++ ' ' :: (front ++ (r.fieldSet ++ r.stamp)) := by
    rw [PyText.strip, PyText.lstrip_of_head]
    · have hlast := rstrip_line (r := r) (r.measurement.text ++ text ++ ' ' :: front)
      rwa [List.append_assoc, List.cons_append] at hlast
    · rw [hm]
      rintro c' ⟨⟩
      exact hvisible
  have hparts : rowParts b (r.measurement.text ++ text ++
      ' ' :: (front ++ (r.fieldSet ++ r.stamp))) =
        some (r.measurement.text, tagsIn text, PyText.lstrip (front ++ r.fieldSet)) := by
    unfold rowParts
    dsimp only
    rw [hstrip, if_neg]
    · have hhead : ' ' ∉ r.measurement.text ++ text := by
        rw [List.mem_append, not_or]
        exact ⟨hblank, hspace⟩
      rw [splitMeasurementAndFields_eq hb hhead hfront, Option.map_some]
      dsimp only
      rcases htext with rfl | ⟨rest, rfl⟩
      · rw [List.append_nil, cut_of_not_mem hcomma]
        rfl
      · rw [cut_append hcomma]
        rfl
    · rw [hm, not_or]
      refine ⟨by simp, fun h => hhash ?_⟩
      exact Option.some.inj h
  -- The parser looks at the value last; `classify` before it.  They agree case by case.
  rw [parseInfluxLine_eq, hparts]
  dsimp only
  unfold classify
  rcases fieldNumeric b (PyText.lstrip (front ++ r.fieldSet)) "value".toList with _ | x
  · exact ite_self _
  · dsimp only
    split_ifs with hscope hbit hcounter
    · rfl
    · rfl
    · rfl
    · unfold counterRow
      rcases b.int ((tag (tagsIn text) "severity").getD "0".toList) with _ | severity
      · rfl
      · rcases tag (tagsIn text) "name" with _ | name
        · rfl
        · dsimp only
          split_ifs
          · rfl
          · rfl
          · rfl
          · rfl

/-- The tags that decide, as they are read and as they are seen. -/
theorem tag_tagsIn {tail : Text} {es : List (Text × Text)} (hkeys : ∀ e ∈ es, Plain e.1)
    (hcomma : ',' ∉ tail) (htail : ∀ c ∈ tail.head?, isSpecial c = true ∧ c ≠ '=' ∨ c = '\\')
    {name : String} (hname : name ∈ ["scope", "severity", "name"]) :
    tag (tagsIn (es.flatMap encodeTag ++ tail)) name =
      tag ((seen tail es).map fun kv => (kv.1, unescapeInfluxTag kv.2)) name := by
  have hplain : Plain name.toList := by
    simp only [List.mem_cons, List.not_mem_nil, or_false] at hname
    rcases hname with rfl | rfl | rfl
    · simp [Plain, isSpecial]
    · simp [Plain, isSpecial]
    · simp [Plain, isSpecial]
  have hfilter := filter_keyValue_eq (v := []) hplain hcomma htail hkeys
  rw [escapeTag, List.nil_append] at hfilter
  rw [tagsIn, tag_map, tag_map, hfilter]

/-- An integer is its own truncation. -/
theorem truncate_intCast (n : ℤ) : truncate (.finite n) = some n := by
  simp [truncate]

/-- **Without spaces in the values a row comes back.** -/
theorem parse_whole (hb : b.Documented) (h : ∀ e ∈ r.tags, ' ' ∉ e.2) :
    parseInfluxLine b r.encode = some (r.classified b) := by
  have htext : r.tags.flatMap encodeTag = [] ∨ ∃ rest, r.tags.flatMap encodeTag = ',' :: rest := by
    rcases r.tags with _ | ⟨e, es⟩
    · exact Or.inl rfl
    · exact Or.inr ⟨_, flatMap_encodeTag_cons e es⟩
  have hspace := space_not_mem_tags r.keys h
  have hparse := parseInfluxLine_encoded (r := r) hb htext hspace (Or.inl rfl)
  rw [List.nil_append, List.nil_append] at hparse
  have hstrip := lstrip_fieldSet (r := r) []
  rw [List.append_nil] at hstrip
  have hclass : classify b r.measurement.text (tagsIn (r.tags.flatMap encodeTag)) =
      classify b r.measurement.text r.tags := by
    refine classify_congr hb fun name hname => ?_
    have htag : tag (tagsIn (r.tags.flatMap encodeTag ++ [])) name = _ :=
      tag_tagsIn r.keys List.not_mem_nil (by simp) hname
    rw [List.append_nil] at htag
    rw [htag]
    exact blurred_seen r.values name
  rw [hstrip, fieldNumeric_fieldSet hb, hclass] at hparse
  unfold InfluxRow.encode InfluxRow.classified
  rw [hparse]
  dsimp only
  rcases classify b r.measurement.text r.tags with _ | row
  · rfl
  · dsimp only
    rw [truncate_intCast]
    rfl

/-- A white text is not escaped, so that it is stripped. -/
theorem lstrip_escapeTag (v rest : Text) :
    (White v ∧ PyText.lstrip (escapeTag v ++ rest) = PyText.lstrip rest) ∨
      ¬ White v ∧ ∃ v', PyText.lstrip (escapeTag v ++ rest) = escapeTag v' ++ rest := by
  induction v with
  | nil => exact Or.inl ⟨fun c hc => absurd hc List.not_mem_nil, rfl⟩
  | cons c cs ih =>
    by_cases hspecial : isSpecial c = true
    · refine Or.inr ⟨fun h => ?_, c :: cs, PyText.lstrip_of_head ?_⟩
      · obtain ⟨hspace, hne⟩ := h c List.mem_cons_self
        have hcases : (c = ',' ∨ c = '=') ∨ c = ' ' := by simpa [isSpecial, or_assoc] using hspecial
        rcases hcases.resolve_right hne with rfl | rfl
        · exact absurd hspace (by decide)
        · exact absurd hspace (by decide)
      · rw [escapeTag_special hspecial]
        rintro d ⟨⟩
        decide
    · have hord := escapeTag_ordinary (by simpa using hspecial) cs
      by_cases hwhite : PyText.isSpace c = true
      · have hdrop : PyText.lstrip (escapeTag (c :: cs) ++ rest) =
            PyText.lstrip (escapeTag cs ++ rest) := by
          rw [hord, List.cons_append, PyText.lstrip, List.dropWhile_cons_of_pos hwhite]
          rfl
        have hiff : White (c :: cs) ↔ White cs := by
          refine ⟨fun h d hd => h d (List.mem_cons_of_mem _ hd), fun h d hd => ?_⟩
          rcases List.mem_cons.mp hd with rfl | hd
          · refine ⟨hwhite, ?_⟩
            rintro rfl
            exact hspecial (by decide)
          · exact h d hd
        rw [hdrop, hiff]
        exact ih
      · refine Or.inr ⟨fun h => hwhite (h c List.mem_cons_self).1, c :: cs,
          PyText.lstrip_of_head ?_⟩
        rw [hord]
        rintro d ⟨⟩
        simpa using hwhite

/-- **The number that is read behind a first space.** -/
theorem fieldNumeric_spaced (hb : b.Documented) {v : Text} {after : List (Text × Text)}
    (hkeys : ∀ e ∈ after, Plain e.1) (hdistinct : (after.map Prod.fst).Nodup) (x : PyFloat) :
    fieldNumeric b (PyText.lstrip
        (escapeTag v ++ after.flatMap encodeTag ++ [' '] ++ r.fieldSet)) "value".toList = some x ↔
      ((after = [] ∧ White v) ∧ x = .finite r.value) ∨
        ∃ w, ("value".toList, w) ∈ after.dropLast ∧ (∀ c ∈ w, isSpecial c = false) ∧
          numberIn b w = some x := by
  have hcomma : ',' ∉ ' ' :: r.fieldSet := by
    rw [List.mem_cons, not_or]
    exact ⟨by decide, comma_not_mem_fieldSet r⟩
  have hequals : '=' ∈ ' ' :: r.fieldSet := by
    unfold InfluxRow.fieldSet
    simp
  -- behind a text that is not stripped
  have htags : ∀ v', fieldNumeric b (escapeTag v' ++ (after.flatMap encodeTag ++
      (' ' :: r.fieldSet))) "value".toList = some x ↔
        ∃ w, ("value".toList, w) ∈ after.dropLast ∧ (∀ c ∈ w, isSpecial c = false) ∧
          numberIn b w = some x := by
    intro v'
    rw [← List.append_assoc, fieldNumeric_eq, filter_keyValue_eq plain_value hcomma _ hkeys]
    · exact numberIn_seen hb hcomma hequals hdistinct
    · rintro c ⟨⟩
      exact Or.inl (by decide)
  rw [List.append_assoc, List.append_assoc, List.singleton_append]
  rcases lstrip_escapeTag v (after.flatMap encodeTag ++ ' ' :: r.fieldSet) with
    ⟨hwhite, hstrip⟩ | ⟨hnot, v', hstrip⟩
  · rw [hstrip]
    rcases after with _ | ⟨e, es⟩
    · have hblank : PyText.lstrip (' ' :: r.fieldSet) = r.fieldSet := by
        have hfield := lstrip_fieldSet (r := r) []
        rw [List.append_nil] at hfield
        rw [PyText.lstrip, List.dropWhile_cons_of_pos (by decide)]
        exact hfield
      rw [List.flatMap_nil, List.nil_append, hblank, fieldNumeric_fieldSet hb,
        Option.some.injEq]
      constructor
      · exact fun h => Or.inl ⟨⟨rfl, hwhite⟩, h.symm⟩
      · rintro (⟨-, h⟩ | ⟨w, hw, -⟩)
        · exact h.symm
        · exact absurd hw List.not_mem_nil
    · have hvisible : PyText.lstrip ((e :: es).flatMap encodeTag ++ ' ' :: r.fieldSet) =
          escapeTag [] ++ ((e :: es).flatMap encodeTag ++ ' ' :: r.fieldSet) := by
        apply PyText.lstrip_of_head
        rw [flatMap_encodeTag_cons]
        rintro c ⟨⟩
        decide
      rw [hvisible, htags]
      exact (or_iff_right fun h => List.cons_ne_nil e es h.1.1).symm
  · rw [hstrip, htags]
    exact (or_iff_right fun h => hnot h.1.2).symm

/-- **What becomes of a row with a space**: the tags before it, and the number behind it. -/
theorem parse_spaced (hb : b.Documented) {before after : List (Text × Text)} {key u v : Text}
    (htags : r.tags = before ++ (key, u ++ ' ' :: v) :: after) (hbefore : ∀ e ∈ before, ' ' ∉ e.2)
    (hu : ' ' ∉ u) :
    parseInfluxLine b r.encode =
      match fieldNumeric b (PyText.lstrip
        (escapeTag v ++ after.flatMap encodeTag ++ [' '] ++ r.fieldSet)) "value".toList with
      | none => some none
      | some x =>
        match classify b r.measurement.text before with
        | none => some none
        | some row => (truncate x).map fun n => some (row n) := by
  have hmem : ∀ e ∈ before, e ∈ r.tags := fun e he => by
    rw [htags]
    exact List.mem_append_left _ he
  have hcut : (key, u ++ ' ' :: v) ∈ r.tags := by
    rw [htags]
    exact List.mem_append_right _ List.mem_cons_self
  have hkeys : ∀ e ∈ before ++ [(key, u)], Plain e.1 := by
    intro e he
    rcases List.mem_append.mp he with he | he
    · exact r.keys e (hmem e he)
    · rw [List.mem_singleton.mp he]
      exact r.keys (key, u ++ ' ' :: v) hcut
  have hvalues : ∀ e ∈ before ++ [(key, u)], ' ' ∉ e.2 := by
    intro e he
    rcases List.mem_append.mp he with he | he
    · exact hbefore e he
    · rw [List.mem_singleton.mp he]
      exact hu
  have hback : '\\' ∉ u := fun h => r.values _ hcut (List.mem_append_left _ h)
  have hkey : key ∉ before.map Prod.fst := by
    have hdistinct := r.distinct
    rw [htags, List.map_append, List.nodup_append] at hdistinct
    exact fun h => hdistinct.2.2 key h key List.mem_cons_self rfl
  -- The line up to the space, and what follows it.
  have hline : r.encode =
      r.measurement.text ++ ((before ++ [(key, u)]).flatMap encodeTag ++ ['\\']) ++
      ' ' :: (escapeTag v ++ after.flatMap encodeTag ++ [' '] ++ (r.fieldSet ++ r.stamp)) := by
    unfold InfluxRow.encode
    rw [htags, List.flatMap_append, List.flatMap_append, flatMap_encodeTag_cons,
      flatMap_encodeTag_cons, escapeTag_append, escapeTag_special (by decide)]
    simp only [List.flatMap_nil, List.append_assoc, List.cons_append, List.nil_append]
  have hcomma : ',' ∉ ['\\'] := by decide
  have htext : (before ++ [(key, u)]).flatMap encodeTag ++ ['\\'] = [] ∨
      ∃ rest, (before ++ [(key, u)]).flatMap encodeTag ++ ['\\'] = ',' :: rest := by
    rcases before with _ | ⟨e, es⟩
    · exact Or.inr ⟨_, rfl⟩
    · exact Or.inr ⟨_, by rw [List.cons_append, flatMap_encodeTag_cons]; rfl⟩
  have hspace : ' ' ∉ (before ++ [(key, u)]).flatMap encodeTag ++ ['\\'] := by
    rw [List.mem_append, not_or]
    exact ⟨space_not_mem_tags hkeys hvalues, by decide⟩
  -- The tag that the space cuts is read with a backslash at its end, and counts as none.
  have hclass : classify b r.measurement.text
      (tagsIn ((before ++ [(key, u)]).flatMap encodeTag ++ ['\\'])) =
        classify b r.measurement.text before := by
    refine classify_congr hb fun name hname => ?_
    rw [tag_tagsIn hkeys hcomma (by simp) hname]
    exact blurred_seen_cut (fun e he => r.values e (hmem e he)) hback hkey name
  rw [hline, parseInfluxLine_encoded hb htext hspace (Or.inr ⟨_, rfl⟩), hclass]

/-- A tag that is found is found among more tags with other names. -/
theorem tag_append {tags more : List (Text × Text)} {name : String} {x : Text}
    (hdistinct : ((tags ++ more).map Prod.fst).Nodup) (h : tag tags name = some x) :
    tag (tags ++ more) name = some x := by
  rw [tag_eq] at h ⊢
  obtain ⟨e, he, hx⟩ := Option.map_eq_some_iff.mp h
  obtain ⟨hmem, hname⟩ := List.mem_filter.mp (List.mem_of_getLast? he)
  have hnil : (more.filter fun kv => kv.1 = name.toList) = [] := by
    rw [List.filter_eq_nil_iff]
    intro e' he' hname'
    rw [List.map_append, List.nodup_append] at hdistinct
    apply hdistinct.2.2 e.1 (List.mem_map_of_mem hmem) e'.1 (List.mem_map_of_mem he')
    rw [of_decide_eq_true hname, of_decide_eq_true hname']
  rw [List.filter_append, hnil, List.append_nil]
  exact h

/-- More tags with other names do not change what a row is. -/
theorem classify_append (hb : b.Documented) {measurement : Text} {tags more : List (Text × Text)}
    {row : ℤ → Row} (hdistinct : ((tags ++ more).map Prod.fst).Nodup)
    (h : classify b measurement tags = some row) :
    classify b measurement (tags ++ more) = some row := by
  unfold classify at h ⊢
  split_ifs at h with hscope hbit hcounter
  · rw [if_neg (not_not_intro (tag_append hdistinct (not_not.mp hscope))), if_pos hbit, h]
  · rw [if_neg (not_not_intro (tag_append hdistinct (not_not.mp hscope))), if_neg hbit,
      if_neg hcounter]
    rcases hname : tag tags "name" with _ | name <;> rw [hname] at h
    · rcases b.int ((tag tags "severity").getD "0".toList) with _ | severity
      · exact absurd h (by simp [counterRow])
      · exact absurd h (by simp [counterRow])
    · rcases hsev : tag tags "severity" with _ | severity <;> rw [hsev] at h
      · rw [Option.getD_none, hb.int_zero, counterRow_of_zero] at h
        exact absurd h (by simp)
      · rw [tag_append hdistinct hname, tag_append hdistinct hsev]
        exact h

/-- A row remembers its value. -/
theorem counterRow_injective {severity : Option ℤ} {name : Option Text} {row : ℤ → Row}
    (h : counterRow severity name = some row) : Function.Injective row := by
  unfold counterRow at h
  split at h
  · dsimp only at h
    split_ifs at h
    all_goals
      obtain rfl := Option.some.inj h
      rintro m n hmn
      injection hmn
  · exact absurd h (by simp)

/-- A row has one value. -/
theorem classify_injective {measurement : Text} {tags : List (Text × Text)} {row : ℤ → Row}
    (h : classify b measurement tags = some row) : Function.Injective row := by
  unfold classify at h
  split_ifs at h
  · obtain rfl := Option.some.inj h
    rintro m n hmn
    injection hmn
  · exact counterRow_injective h

/-- The first tag with a space. -/
theorem exists_first_space {es : List (Text × Text)} (h : ¬ ∀ e ∈ es, ' ' ∉ e.2) :
    ∃ before key u v after, es = before ++ (key, u ++ ' ' :: v) :: after ∧
      (∀ e ∈ before, ' ' ∉ e.2) ∧ ' ' ∉ u := by
  induction es with
  | nil => exact absurd (fun e he => absurd he List.not_mem_nil) h
  | cons e es ih =>
    by_cases he : ' ' ∈ e.2
    · obtain ⟨u, v, hsplit, hu⟩ := List.eq_append_cons_of_mem he
      refine ⟨[], e.1, u, v, es, ?_, fun e he => absurd he List.not_mem_nil, hu⟩
      rw [← hsplit]
      rfl
    · have hrest : ¬ ∀ e ∈ es, ' ' ∉ e.2 := by
        refine fun hall => h fun e' he' => ?_
        rcases List.mem_cons.mp he' with rfl | he'
        · exact he
        · exact hall e' he'
      obtain ⟨before, key, u, v, after, rfl, hbefore, hu⟩ := ih hrest
      refine ⟨e :: before, key, u, v, after, rfl, fun e' he' => ?_, hu⟩
      rcases List.mem_cons.mp he' with rfl | he'
      · exact he
      · exact hbefore e' he'

/-- The tags behind one of a row keep their names, all different. -/
theorem InfluxRow.tags_after {before after : List (Text × Text)} {e : Text × Text}
    (htags : r.tags = before ++ e :: after) :
    (∀ e ∈ after, Plain e.1) ∧ (after.map Prod.fst).Nodup := by
  have hsub : after.Sublist r.tags := by
    rw [htags]
    exact (List.sublist_cons_self e after).trans (List.sublist_append_right _ _)
  exact ⟨fun e he => r.keys e (hsub.subset he), r.distinct.sublist (hsub.map _)⟩

/-- A row is what its first tags make it, if they make it one. -/
theorem InfluxRow.classify_of_before (hb : b.Documented) {before after : List (Text × Text)}
    {e : Text × Text} {row : ℤ → Row} (htags : r.tags = before ++ e :: after)
    (hrow : classify b r.measurement.text before = some row) :
    classify b r.measurement.text r.tags = some row := by
  have hdistinct := r.distinct
  rw [htags] at hdistinct ⊢
  exact classify_append hb hdistinct hrow

theorem InfluxRow.classified_eq {row : Option (ℤ → Row)}
    (hrow : classify b r.measurement.text r.tags = row) :
    r.classified b = row.map fun row => row r.value := by
  unfold InfluxRow.classified
  rw [hrow]

/-- A row with a space that counts is read as it is only if the condition holds: the tags before
the space decide what it is, and the rest of the tag section is read as the field set. -/
theorem readable_of_parse (hb : b.Documented) {row : ℤ → Row} (hspaces : ¬ ∀ e ∈ r.tags, ' ' ∉ e.2)
    (hrow : classify b r.measurement.text r.tags = some row)
    (hparse : parseInfluxLine b r.encode = some (r.classified b)) : r.Readable b := by
  obtain ⟨before, key, u, v, after, htags, hbefore, hu⟩ := exists_first_space hspaces
  obtain ⟨hkeys, hdistinct⟩ := InfluxRow.tags_after htags
  rw [parse_spaced hb htags hbefore hu, InfluxRow.classified_eq hrow, Option.map_some] at hparse
  rcases hnum : fieldNumeric b _ _ with _ | x <;> rw [hnum] at hparse
  · exact absurd hparse (by simp)
  dsimp only at hparse
  rcases hclass : classify b r.measurement.text before with _ | row' <;> rw [hclass] at hparse
  · exact absurd hparse (by simp)
  obtain rfl : row' = row :=
    Option.some.inj ((InfluxRow.classify_of_before hb htags hclass).symm.trans hrow)
  obtain ⟨n, hn, heq⟩ := Option.map_eq_some_iff.mp hparse
  have hvalue : n = r.value := classify_injective hrow (Option.some.inj heq)
  refine Or.inr (Or.inr ⟨before, key, u, v, after, htags, hbefore, hu, ?_, ?_⟩)
  · rw [hclass]
    exact Option.some_ne_none _
  · rcases (fieldNumeric_spaced hb hkeys hdistinct x).mp hnum with
      ⟨hwhite, -⟩ | ⟨w, hw, hord, hx⟩
    · exact Or.inl hwhite
    · exact Or.inr ⟨w, x, hw, hord, hx, hvalue ▸ hn⟩

/-- A row that counts for nothing still does without its last tags. -/
theorem parse_uncounted (hb : b.Documented)
    (hnone : classify b r.measurement.text r.tags = none) :
    parseInfluxLine b r.encode = some (r.classified b) := by
  by_cases hspaces : ∀ e ∈ r.tags, ' ' ∉ e.2
  · exact parse_whole hb hspaces
  obtain ⟨before, key, u, v, after, htags, hbefore, hu⟩ := exists_first_space hspaces
  have hclass : classify b r.measurement.text before = none := by
    rcases hclass : classify b r.measurement.text before with _ | row
    · rfl
    · have hrow := InfluxRow.classify_of_before hb htags hclass
      exact absurd (hrow.symm.trans hnone) (by simp)
  rw [parse_spaced hb htags hbefore hu, hclass, InfluxRow.classified_eq hnone]
  rcases fieldNumeric b _ _ with _ | x
  · rfl
  · rfl

/-- The tags before the space make up the row, and the value is read by chance. -/
theorem parse_by_chance (hb : b.Documented) {before after : List (Text × Text)} {key u v : Text}
    (htags : r.tags = before ++ (key, u ++ ' ' :: v) :: after) (hbefore : ∀ e ∈ before, ' ' ∉ e.2)
    (hu : ' ' ∉ u) (hclass : classify b r.measurement.text before ≠ none)
    (hnumber : (after = [] ∧ White v) ∨
      ∃ w x, ("value".toList, w) ∈ after.dropLast ∧ (∀ c ∈ w, isSpecial c = false) ∧
        numberIn b w = some x ∧ truncate x = some r.value) :
    parseInfluxLine b r.encode = some (r.classified b) := by
  obtain ⟨row, hrow⟩ := Option.ne_none_iff_exists'.mp hclass
  obtain ⟨hkeys, hdistinct⟩ := InfluxRow.tags_after htags
  obtain ⟨x, hx, htrunc⟩ : ∃ x, fieldNumeric b (PyText.lstrip
      (escapeTag v ++ after.flatMap encodeTag ++ [' '] ++ r.fieldSet)) "value".toList = some x ∧
        truncate x = some r.value := by
    have hiff := fieldNumeric_spaced hb (r := r) (v := v) hkeys hdistinct
    rcases hnumber with hwhite | ⟨w, x, hw, hord, hx, htrunc⟩
    · exact ⟨_, (hiff _).mpr (Or.inl ⟨hwhite, rfl⟩), truncate_intCast _⟩
    · exact ⟨x, (hiff x).mpr (Or.inr ⟨w, hw, hord, hx⟩), htrunc⟩
  rw [parse_spaced hb htags hbefore hu, hx, hrow,
    InfluxRow.classified_eq (InfluxRow.classify_of_before hb htags hrow)]
  dsimp only
  rw [htrunc]
  rfl

end Lines

/-! ## Main result -/

/-- **A row comes back** from the parser as what its own tags and value make it, exactly under the
condition. -/
theorem roundtrip_iff (b : Builtins) (hb : b.Documented) (r : InfluxRow) :
    parseInfluxLine b r.encode = some (r.classified b) ↔ r.Readable b := by
  constructor
  · intro hparse
    by_cases hspaces : ∀ e ∈ r.tags, ' ' ∉ e.2
    · exact Or.inl hspaces
    rcases hrow : classify b r.measurement.text r.tags with _ | row
    · exact Or.inr (Or.inl hrow)
    · exact readable_of_parse hb hspaces hrow hparse
  · rintro (hspaces | hnone | ⟨before, key, u, v, after, htags, hbefore, hu, hclass, hnumber⟩)
    · exact parse_whole hb hspaces
    · exact parse_uncounted hb hnone
    · exact parse_by_chance hb htags hbefore hu hclass hnumber

/-! ## Two rows -/

/-- Digits of an unsigned decimal. -/
def readDigits (raw : Text) : Option ℕ :=
  if raw ≠ [] ∧ raw.all Char.isDigit = true then some (Nat.ofDigitChars 10 raw 0) else none

/-- `int` of a signed decimal, as a builtin for the examples. -/
def readInt (raw : Text) : Option ℤ :=
  if raw.head? = some '-' then (readDigits raw.tail).map fun n : ℕ => -(n : ℤ)
  else (readDigits raw).map fun n : ℕ => (n : ℤ)

/-- The built-ins on ASCII decimals with a sign. -/
def Builtins.signed : Builtins where
  float := fun raw => (readInt raw).map fun n : ℤ => .finite n
  int := readInt
  isDigit := Char.isDigit

/-- What was printed is read back. -/
theorem readDigits_toDigits (n : ℕ) : readDigits (Nat.toDigits 10 n) = some n := by
  unfold readDigits
  rw [if_pos ⟨Nat.toDigits_ne_nil, List.all_eq_true.mpr fun c hc => isDigit_of_mem_toDigits hc⟩,
    Nat.ofDigitChars_ten_toDigits]

/-- With its sign too. -/
theorem readInt_decimal (n : ℤ) : readInt (decimal n) = some n := by
  unfold readInt decimal
  split_ifs with hneg hhead hhead
  · rw [List.singleton_append, List.tail_cons, readDigits_toDigits, Option.map_some]
    congr 1
    omega
  · exact absurd rfl hhead
  · rw [List.nil_append] at hhead
    exact absurd (isDigit_of_mem_toDigits (List.mem_of_head? hhead)) (by decide)
  · rw [List.nil_append, readDigits_toDigits, Option.map_some]
    congr 1
    omega

/-- Another character is refused. -/
theorem readInt_refuses {raw : Text} {c : Char} (hc : c ∈ raw) (hdigit : c.isDigit = false)
    (hsign : c ≠ '-') : readInt raw = none := by
  have hno : ∀ l : Text, c ∈ l → readDigits l = none := by
    intro l hl
    unfold readDigits
    rw [if_neg]
    rintro ⟨-, hall⟩
    rw [List.all_eq_true.mp hall c hl] at hdigit
    exact absurd hdigit (by decide)
  unfold readInt
  split_ifs with hhead
  · cases raw with
    | nil => exact absurd hc List.not_mem_nil
    | cons d ds =>
      obtain rfl := Option.some.inj hhead
      rw [List.tail_cons, hno ds ((List.mem_cons.mp hc).resolve_left hsign)]
      rfl
  · rw [hno raw hc]
    rfl

/-- These builtins behave as documented on signed decimals. -/
theorem documented_signed : Builtins.signed.Documented where
  float_decimal n _ := by
    show (readInt (decimal n)).map _ = _
    rw [readInt_decimal]
    rfl
  float_refuses raw h := by
    show (readInt raw).map _ = _
    rcases h with h | h
    · rw [readInt_refuses h (by decide) (by decide)]
      rfl
    · rw [readInt_refuses h (by decide) (by decide)]
      rfl
  int_refuses raw h := by
    rcases h with h | h
    · exact readInt_refuses h (by decide) (by decide)
    · exact readInt_refuses h (by decide) (by decide)
  int_zero := rfl
  isDigit_digit c h := h
  isDigit_equals := rfl

/-- A row of a counter with a description. -/
def describedRow (desc : Text) (h : '\\' ∉ desc) : InfluxRow where
  measurement := .counter
  tags := [("desc".toList, desc), ("name".toList, "pid_error".toList),
    ("scope".toList, "ts".toList), ("severity".toList, "1".toList)]
  value := 3
  integer := true
  timestamp := some 1
  distinct := by
    show ["desc".toList, "name".toList, "scope".toList, "severity".toList].Nodup
    decide
  keys := by simp [Plain, isSpecial]
  values := by simpa using h
  small := by norm_num

/-- Commas and equals signs in a description do no harm. -/
theorem roundtrip_iff_commas :
    parseInfluxLine .signed (describedRow "a,b=c".toList (by decide)).encode =
      some ((describedRow "a,b=c".toList (by decide)).classified .signed) := by
  refine (roundtrip_iff .signed documented_signed _).mpr (Or.inl ?_)
  show ∀ e ∈ [("desc".toList, "a,b=c".toList), ("name".toList, "pid_error".toList),
    ("scope".toList, "ts".toList), ("severity".toList, "1".toList)], ' ' ∉ e.2
  decide

/-- A space in a description takes the row. -/
theorem spaced_row_lost : ¬ ∀ r : InfluxRow,
    parseInfluxLine .signed r.encode = some (r.classified .signed) := by
  intro h
  have hrow := h (describedRow "a b".toList (by decide))
  revert hrow
  decide +kernel

end Etr290
