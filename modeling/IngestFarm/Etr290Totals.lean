/-
# ETR 290 totals

The influx stub of the sidecar: handler threads parse a body, and then add its rollup to the
session under `snapshot_lock`; the main loop resets the session under the same lock.  The
totals are those of the accepted rows where no row is lost on the way: a rollup keeps the
last row of a counter, a body without counters and packet count is dropped, and a body can be
parsed before a reset and added after it (`totals_along`).
-/
import IngestFarm.Etr290
import IngestFarm.Runs

namespace Etr290

/-! ## Rows -/

namespace Row

/-- The value of a row for a counter. -/
def count (name : String) : Row → ℤ
  | counter name' _ value => if name' = name then value else 0
  | _ => 0

/-- The value of an `error_count` row. -/
def errors : Row → ℤ
  | errorCount value => value
  | _ => 0

/-- The row as one for a counter. -/
def counterRow? : Row → Option CounterRow
  | counter name severity value => some ⟨name, severity, value⟩
  | _ => none

/-- The row as a count of errors. -/
def errorCount? : Row → Option ℤ
  | errorCount value => some value
  | _ => none

/-- The row as a count of packets. -/
def packetCount? : Row → Option ℤ
  | packetCount value => some value
  | _ => none

/-- The row as a bit rate. -/
def bitrate? : Row → Option ℤ
  | bitrate value => some value
  | _ => none

end Row

/-- The sum of the rows for a counter. -/
def sumOf (rows : List Row) (name : String) : ℤ := (rows.map (Row.count name)).sum

/-- The sum of the `error_count` rows. -/
def errorsOf (rows : List Row) : ℤ := (rows.map Row.errors).sum

/-- The last packet count. -/
def lastPacketCount (rows : List Row) : Option ℤ := (rows.filterMap Row.packetCount?).getLast?

/-- The last bit rate. -/
def lastBitrate (rows : List Row) : Option ℤ := (rows.filterMap Row.bitrate?).getLast?

/-- The value of the last row for a counter. -/
def lastOf (rows : List Row) (name : String) : ℤ :=
  (((rows.filterMap Row.counterRow?).filter fun row => row.name = name).getLast?.map
    CounterRow.value).getD 0

/-- The value of the last `error_count` row. -/
def lastErrors (rows : List Row) : ℤ := ((rows.filterMap Row.errorCount?).getLast?).getD 0

/-! ## The stub -/

/-- The session, the rollups of bodies that wait for the lock (oldest first), and the rows
accepted since the last reset. -/
structure Stub where
  /-- `session`, the running totals. -/
  snapshot : Snapshot
  /-- Rollups of bodies that wait for the lock, the oldest first. -/
  inHand : List Snapshot
  /-- The rows that were accepted since the last reset. -/
  rows : List Row

/-- Before the first body: `{"available": False}`. -/
def Stub.new : Stub where
  snapshot :=
    { available := false, intervalSec := 0, updatedAt := 0, worstSeverity := 0, counters := ∅,
      errorCount := none, packetCount := none, bitrateBps := none, pidStructure := none }
  inHand := []
  rows := []

inductive Action where
  /-- A handler thread parses a body. -/
  | post (body : Text) (now : ℕ)
  /-- It gets the lock and adds its rollup. -/
  | add (i : ℕ)
  /-- The main loop resets the session. -/
  | reset (now : ℕ)
  /-- The main loop attaches the PID map. -/
  | pidStructure (s : Json)

/-- The gate of `do_POST`. -/
def Parsed.Counts (p : Parsed) : Prop := p.counters ≠ [] ∨ p.packetCount ≠ none

instance (p : Parsed) : Decidable p.Counts := inferInstanceAs (Decidable (_ ∨ _))

section Stub

variable (b : Builtins) (intervalSec : ℤ)

/-- What `do_POST` does before it takes the lock. -/
def interval (body : Text) (now : ℕ) : Option Snapshot :=
  match parseInfluxBody b body with
  | none => none
  | some p => if p.Counts then some (rollupEtr290Snapshot p intervalSec now) else none

/-- One step: a handler parses a body, or adds the `i`-th rollup in hand; the main loop resets
the session, or stores a new PID structure. -/
def step (s : Stub) : Action → Option Stub
  | .post body now => some
    { s with
      inHand := s.inHand ++ (interval b intervalSec body now).toList
      rows := s.rows ++ accepted b body }
  | .add i => (s.inHand[i]?).map fun snap =>
    { s with
      snapshot := accumulateEtr290Snapshot s.snapshot snap
      inHand := s.inHand.eraseIdx i }
  | .reset now => some
    { s with
      snapshot := { emptyEtr290Session intervalSec now with
        pidStructure := s.snapshot.pidStructure }
      rows := [] }
  | .pidStructure st => some { s with snapshot := { s.snapshot with pidStructure := some st } }

/-- The rows of a body reach its rollup: where a line raises or the gate drops the body, there
was nothing to count; else what precedes the last row for a counter adds nothing. -/
def Whole (body : Text) : Prop :=
  let rows := accepted b body
  if (parseInfluxBody b body).any fun p => decide p.Counts then
    (∀ name, sumOf rows name = lastOf rows name) ∧ errorsOf rows = lastErrors rows
  else
    (∀ name, sumOf rows name = 0) ∧ errorsOf rows = 0 ∧ lastPacketCount rows = none ∧
      lastBitrate rows = none

/-- A rollup that changes no total. -/
structure Silent (snap : Snapshot) : Prop where
  counters : ∀ name, snap.counters.value name = 0
  errorCount : snap.errorCount.getD 0 = 0
  packetCount : snap.packetCount = none
  bitrateBps : snap.bitrateBps = none

/-- The condition on a step. -/
def Fine (s : Stub) : Action → Prop
  | .post body _ => Whole b body
  | .add i => ∀ snap, s.inHand[i]? = some snap → ∀ older ∈ s.inHand.take i,
      (snap.packetCount ≠ none → older.packetCount = none) ∧
      (snap.bitrateBps ≠ none → older.bitrateBps = none)
  | .reset _ => ∀ snap ∈ s.inHand, Silent snap
  | .pidStructure _ => True

end Stub

/-- The totals are those of the rows accepted since the last reset. -/
structure Exact (s : Stub) : Prop where
  /-- Every counter is the sum of its rows. -/
  counters : ∀ name, s.snapshot.counters.value name = sumOf s.rows name
  /-- So is the number of errors. -/
  errorCount : s.snapshot.errorCount.getD 0 = errorsOf s.rows
  /-- The packet count is that of the last row that has one. -/
  packetCount : s.snapshot.packetCount = lastPacketCount s.rows
  /-- So is the bit rate. -/
  bitrateBps : s.snapshot.bitrateBps = lastBitrate s.rows

/-- The invariant: session and rollups in hand together account for the rows. -/
structure Balanced (s : Stub) : Prop where
  /-- Every counter, with what is in hand, is the sum of its rows. -/
  counters : ∀ name, s.snapshot.counters.value name +
    (s.inHand.map fun snap => snap.counters.value name).sum = sumOf s.rows name
  /-- So is the number of errors. -/
  errorCount : s.snapshot.errorCount.getD 0 +
    (s.inHand.map fun snap => snap.errorCount.getD 0).sum = errorsOf s.rows
  /-- The packet count in hand or in the session is that of the last row. -/
  packetCount : ((s.inHand.filterMap Snapshot.packetCount).getLast?).or s.snapshot.packetCount =
    lastPacketCount s.rows
  /-- So is the bit rate. -/
  bitrateBps : ((s.inHand.filterMap Snapshot.bitrateBps).getLast?).or s.snapshot.bitrateBps =
    lastBitrate s.rows
  /-- A session without counters has no errors. -/
  blank : s.snapshot.counters = ∅ → s.snapshot.errorCount.getD 0 = 0

/-! ## Parsing a body -/

/-- **A body that is parsed** is the fold of its accepted rows. -/
theorem parseLines_eq (b : Builtins) :
    ∀ (lines : List Text) (p q : Parsed), parseLines b p lines = some q →
      q = (acceptedLines b lines).foldl Parsed.add p := by
  intro lines
  induction lines with
  | nil =>
    intro p q h
    exact (Option.some.inj h).symm
  | cons line lines ih =>
    intro p q h
    unfold parseLines at h
    unfold acceptedLines
    rcases hline : parseInfluxLine b line with _ | _ | row <;> rw [hline] at h
    · exact absurd h (by simp)
    · exact ih p q h
    · exact ih (p.add row) q h

/-- What a body is parsed to. -/
theorem foldl_add (rows : List Row) (p : Parsed) :
    rows.foldl Parsed.add p =
      { counters := p.counters ++ rows.filterMap Row.counterRow?
        bitrateBps := (lastBitrate rows).or p.bitrateBps
        packetCount := (lastPacketCount rows).or p.packetCount
        errorCount := (rows.filterMap Row.errorCount?).getLast?.or p.errorCount } := by
  induction rows using List.reverseRecOn with
  | nil => simp [lastBitrate, lastPacketCount]
  | append_singleton rows row ih =>
    rw [List.foldl_append, ih]
    cases row <;>
      simp [Parsed.add, lastBitrate, lastPacketCount, Row.counterRow?, Row.bitrate?,
        Row.packetCount?, Row.errorCount?, List.filterMap_append]

/-! ## Values of counters -/

namespace Counters

/-- A counter that is written. -/
theorem value_set (cs : Counters) (name name' : String) (c : Counter) :
    value (Dict.set name c cs) name' = if name' = name then c.value else value cs name' := by
  unfold value
  rw [Dict.lookup_set]
  split <;> rfl

/-- A counter that is filled in is zero, as it was. -/
@[simp] theorem value_fill (cs : Counters) (name : String) :
    cs.fill.value name = cs.value name := by
  unfold fill
  induction allCounters generalizing cs with
  | nil => rfl
  | cons other names ih =>
    rw [List.foldl_cons, ih]
    by_cases hmem : other ∈ cs.keys
    · rw [if_pos hmem]
    · rw [if_neg hmem, value_set]
      by_cases hname : name = other
      · subst hname
        have hnone : cs.lookup name = none :=
          AList.lookup_eq_none.mpr fun h => hmem (AList.mem_keys.mp h)
        rw [if_pos rfl, value, hnone]
        rfl
      · rw [if_neg hname]

/-- After filling there are counters. -/
theorem fill_ne_empty (cs : Counters) : cs.fill ≠ ∅ := by
  have hkeep : ∀ (names : List String) (cs : Counters), (∃ k, k ∈ cs) →
      ∃ k, k ∈ names.foldl (fun cs name => if name ∈ cs.keys then cs
        else Dict.set name ⟨0, defaultSeverity name⟩ cs) cs := by
    intro names
    induction names with
    | nil => exact fun cs h => h
    | cons name names ih =>
      intro cs h
      rw [List.foldl_cons]
      apply ih
      split
      · exact h
      · exact ⟨name, by simp⟩
  intro hempty
  obtain ⟨k, hk⟩ : ∃ k, k ∈ cs.fill := by
    unfold fill allCounters p1Counters
    rw [List.cons_append, List.foldl_cons]
    apply hkeep
    split
    · exact ⟨_, AList.mem_keys.mpr ‹_›⟩
    · exact ⟨_, (Dict.mem_set _ _ _ _).mpr (Or.inl rfl)⟩
  rw [hempty] at hk
  exact absurd hk (AList.notMem_empty k)

/-- **The rollup keeps the last row.** -/
theorem value_ofRows (rows : List CounterRow) (name : String) :
    (ofRows rows).value name =
      (((rows.filter fun row => row.name = name).getLast?).map CounterRow.value).getD 0 := by
  unfold ofRows
  induction rows using List.reverseRecOn with
  | nil => rfl
  | append_singleton rows row ih =>
    rw [List.foldl_append, List.foldl_cons, List.foldl_nil, value_set, List.filter_append]
    by_cases h : name = row.name
    · rw [if_pos h]
      simp [h]
    · rw [if_neg h, ih]
      simp [Ne.symm h]

/-- The values of distinct keys. -/
theorem sum_entries (cs : Counters) (name : String) :
    (cs.entries.map fun e => if e.1 = name then e.2.value else 0).sum = cs.value name := by
  have key : ∀ l : List (Sigma fun _ : String => Counter), l.NodupKeys →
      (l.map fun e => if e.1 = name then e.2.value else 0).sum =
        ((l.dlookup name).map Counter.value).getD 0 := by
    intro l hl
    induction l with
    | nil => rfl
    | cons e l ih =>
      obtain ⟨k, c⟩ := e
      rw [List.nodupKeys_cons] at hl
      rw [List.map_cons, List.sum_cons, ih hl.2]
      by_cases hk : k = name
      · subst hk
        have hnone : l.dlookup k = none := List.dlookup_eq_none.mpr hl.1
        rw [hnone, List.dlookup_cons_eq]
        simp
      · rw [List.dlookup_cons_ne l ⟨k, c⟩ (Ne.symm hk)]
        simp [hk]
  exact key cs.entries cs.nodupKeys

/-- **The accumulator adds.** -/
theorem value_plus (cs interval : Counters) (name : String) :
    (cs.plus interval).value name = cs.value name + interval.value name := by
  rw [← sum_entries interval name]
  unfold plus
  induction interval.entries generalizing cs with
  | nil => simp
  | cons e l ih =>
    rw [List.foldl_cons, ih, value_set, List.map_cons, List.sum_cons]
    by_cases h : name = e.1
    · subst h
      rw [if_pos rfl, if_pos rfl]
      ring
    · rw [if_neg h, if_neg (Ne.symm h)]
      ring

@[simp] theorem value_empty (name : String) : value ∅ name = 0 := by
  unfold value
  rw [AList.lookup_empty]
  rfl

end Counters

/-! ## Rollups and sums -/

/-- Sums of two bodies add up. -/
theorem sumOf_append (rows rows' : List Row) (name : String) :
    sumOf (rows ++ rows') name = sumOf rows name + sumOf rows' name := by
  unfold sumOf
  rw [List.map_append, List.sum_append]

/-- So do their errors. -/
theorem errorsOf_append (rows rows' : List Row) :
    errorsOf (rows ++ rows') = errorsOf rows + errorsOf rows' := by
  unfold errorsOf
  rw [List.map_append, List.sum_append]

/-- The later body has the last word about the packets. -/
theorem lastPacketCount_append (rows rows' : List Row) :
    lastPacketCount (rows ++ rows') = (lastPacketCount rows').or (lastPacketCount rows) := by
  unfold lastPacketCount
  rw [List.filterMap_append, List.getLast?_append]

/-- And about the bit rate. -/
theorem lastBitrate_append (rows rows' : List Row) :
    lastBitrate (rows ++ rows') = (lastBitrate rows').or (lastBitrate rows) := by
  unfold lastBitrate
  rw [List.filterMap_append, List.getLast?_append]

section Steps

variable {b : Builtins} {intervalSec : ℤ} {s s' : Stub} {body : Text} {now : ℕ} {snap : Snapshot}

/-- A rollup counts what the rows say last. -/
theorem rollup_value (p : Parsed) (name : String) :
    (rollupEtr290Snapshot p intervalSec now).counters.value name =
      (Counters.ofRows p.counters).value name :=
  Counters.value_fill _ _

theorem rollup_errorCount (p : Parsed) :
    (rollupEtr290Snapshot p intervalSec now).errorCount = p.errorCount := rfl

theorem rollup_packetCount (p : Parsed) :
    (rollupEtr290Snapshot p intervalSec now).packetCount = p.packetCount := rfl

theorem rollup_bitrateBps (p : Parsed) :
    (rollupEtr290Snapshot p intervalSec now).bitrateBps = p.bitrateBps := rfl

/-- What the rollup of a body holds. -/
theorem interval_eq_some (h : interval b intervalSec body now = some snap) :
    ((parseInfluxBody b body).any fun p => decide p.Counts) = true ∧
    (∀ name, snap.counters.value name = lastOf (accepted b body) name) ∧
    snap.errorCount.getD 0 = lastErrors (accepted b body) ∧
    snap.packetCount = lastPacketCount (accepted b body) ∧
    snap.bitrateBps = lastBitrate (accepted b body) := by
  unfold interval at h
  rcases hp : parseInfluxBody b body with _ | p <;> rw [hp] at h
  · exact absurd h (by simp)
  · have hparsed : p = ⟨(accepted b body).filterMap Row.counterRow?,
        lastBitrate (accepted b body), lastPacketCount (accepted b body),
        ((accepted b body).filterMap Row.errorCount?).getLast?⟩ := by
      rw [parseLines_eq b _ _ p hp, foldl_add]
      simp [Parsed.empty, accepted]
    dsimp only at h
    by_cases hcounts : p.Counts
    · rw [if_pos hcounts, Option.some.injEq] at h
      subst h
      refine ⟨by simpa using hcounts, fun name => ?_, ?_, ?_, ?_⟩
      · rw [rollup_value, hparsed]
        exact Counters.value_ofRows _ name
      · rw [rollup_errorCount, hparsed]
        rfl
      · rw [rollup_packetCount, hparsed]
      · rw [rollup_bitrateBps, hparsed]
    · rw [if_neg hcounts] at h
      exact absurd h (by simp)

/-- A body without a rollup. -/
theorem interval_eq_none (h : interval b intervalSec body now = none) :
    ((parseInfluxBody b body).any fun p => decide p.Counts) = false := by
  unfold interval at h
  rcases hp : parseInfluxBody b body with _ | p <;> rw [hp] at h
  · rfl
  · dsimp only at h
    split at h
    · exact absurd h (by simp)
    · simpa using ‹¬ p.Counts›

/-- **A whole body is accounted for by its rollup.** -/
theorem Whole.interval (h : Whole b body) (intervalSec : ℤ) (now : ℕ) :
    let opt := interval b intervalSec body now
    (∀ name, (opt.toList.map fun snap => snap.counters.value name).sum =
      sumOf (accepted b body) name) ∧
    (opt.toList.map fun snap => snap.errorCount.getD 0).sum = errorsOf (accepted b body) ∧
    (opt.toList.filterMap Snapshot.packetCount).getLast? = lastPacketCount (accepted b body) ∧
    (opt.toList.filterMap Snapshot.bitrateBps).getLast? = lastBitrate (accepted b body) := by
  intro opt
  rcases hopt : Etr290.interval b intervalSec body now with _ | snap
  · have hdrop := interval_eq_none hopt
    unfold Whole at h
    rw [hdrop, if_neg (by decide)] at h
    obtain ⟨hsum, herr, hpacket, hbitrate⟩ := h
    rw [show opt = none from hopt, herr, hpacket, hbitrate]
    exact ⟨fun name => (hsum name).symm, rfl, rfl, rfl⟩
  · obtain ⟨hcounts, hval, herr, hpacket, hbitrate⟩ := interval_eq_some hopt
    unfold Whole at h
    rw [hcounts, if_pos rfl] at h
    rw [show opt = some snap from hopt]
    refine ⟨fun name => ?_, ?_, ?_, ?_⟩
    · rw [h.1 name, ← hval name]
      simp
    · rw [h.2, ← herr]
      simp
    · rw [← hpacket]
      rcases hp : snap.packetCount with _ | v <;> simp [hp]
    · rw [← hbitrate]
      rcases hb : snap.bitrateBps with _ | v <;> simp [hb]

/-- Taking a value out of a list does not matter for the last one, if it is the first. -/
theorem last_erase (f : Snapshot → Option ℤ) (older newer : List Snapshot) (snap : Snapshot)
    (x : Option ℤ) (h : f snap ≠ none → ∀ o ∈ older, f o = none) :
    ((older ++ newer).filterMap f).getLast?.or ((f snap).or x) =
      ((older ++ snap :: newer).filterMap f).getLast?.or x := by
  rw [List.filterMap_append, List.filterMap_append, List.getLast?_append, List.getLast?_append,
    List.filterMap_cons]
  rcases hf : f snap with _ | v
  · rw [Option.none_or]
  · have hold : older.filterMap f = [] := by
      rw [List.filterMap_eq_nil_iff]
      exact h (by simp [hf])
    rw [hold, List.getLast?_cons]
    rcases (newer.filterMap f).getLast? <;> simp

/-- What the accumulator does to the totals. -/
theorem accumulate_value (session interval : Snapshot) (name : String) :
    (accumulateEtr290Snapshot session interval).counters.value name =
      session.counters.value name + interval.counters.value name := by
  show ((Counters.plus (if session.counters = ∅ then _ else session).counters
    interval.counters).fill).value name = _
  rw [Counters.value_fill, Counters.value_plus]
  split
  · rename_i h
    show (Counters.fill ∅).value name + _ = _
    rw [Counters.value_fill, h]
  · rfl

/-- The errors of an interval are added to those of the session. -/
theorem accumulate_errorCount {session : Snapshot} (interval : Snapshot)
    (h : session.counters = ∅ → session.errorCount.getD 0 = 0) :
    (accumulateEtr290Snapshot session interval).errorCount.getD 0 =
      session.errorCount.getD 0 + interval.errorCount.getD 0 := by
  show (if session.counters = ∅ then _ else session).errorCount.getD 0 + _ = _
  split
  · rw [h ‹_›]
    rfl
  · rfl

/-- A body joins what is in hand, and its rows join the books. -/
theorem Balanced.post (h : Balanced s) (hw : Whole b body) :
    Balanced ⟨s.snapshot, s.inHand ++ (interval b intervalSec body now).toList,
      s.rows ++ accepted b body⟩ := by
  obtain ⟨hsum, herr, hpacket, hbitrate⟩ := hw.interval intervalSec now
  constructor
  · intro name
    show _ + (List.map _ (s.inHand ++ _)).sum = sumOf (s.rows ++ _) name
    rw [List.map_append, List.sum_append, hsum, sumOf_append, ← h.counters name]
    ring
  · show _ + (List.map _ (s.inHand ++ _)).sum = errorsOf (s.rows ++ _)
    rw [List.map_append, List.sum_append, herr, errorsOf_append, ← h.errorCount]
    ring
  · show ((s.inHand ++ _).filterMap _).getLast?.or _ = lastPacketCount (s.rows ++ _)
    rw [List.filterMap_append, List.getLast?_append, hpacket, lastPacketCount_append,
      ← h.packetCount, Option.or_assoc]
  · show ((s.inHand ++ _).filterMap _).getLast?.or _ = lastBitrate (s.rows ++ _)
    rw [List.filterMap_append, List.getLast?_append, hbitrate, lastBitrate_append,
      ← h.bitrateBps, Option.or_assoc]
  · exact h.blank

/-- A rollup moves from the hand into the session. -/
theorem Balanced.add (h : Balanced s) {i : ℕ} (hi : s.inHand[i]? = some snap)
    (hfine : ∀ older ∈ s.inHand.take i, (snap.packetCount ≠ none → older.packetCount = none) ∧
      (snap.bitrateBps ≠ none → older.bitrateBps = none)) :
    Balanced ⟨accumulateEtr290Snapshot s.snapshot snap, s.inHand.eraseIdx i, s.rows⟩ := by
  obtain ⟨hlt, hget⟩ := List.getElem?_eq_some_iff.mp hi
  have hsplit : s.inHand = s.inHand.take i ++ snap :: s.inHand.drop (i + 1) := by
    rw [← hget, List.cons_getElem_drop_succ, List.take_append_drop]
  have herase : s.inHand.eraseIdx i = s.inHand.take i ++ s.inHand.drop (i + 1) :=
    List.eraseIdx_eq_take_drop_succ ..
  have hsum : ∀ f : Snapshot → ℤ,
      (s.inHand.map f).sum = f snap + ((s.inHand.eraseIdx i).map f).sum := by
    intro f
    rw [herase]
    conv_lhs => rw [hsplit]
    rw [List.map_append, List.map_append, List.map_cons, List.sum_append, List.sum_append,
      List.sum_cons]
    ring
  constructor
  · intro name
    show (accumulateEtr290Snapshot s.snapshot snap).counters.value name + _ = _
    rw [accumulate_value, ← h.counters name, hsum fun snap => snap.counters.value name]
    ring
  · show (accumulateEtr290Snapshot s.snapshot snap).errorCount.getD 0 + _ = _
    rw [accumulate_errorCount snap h.blank, ← h.errorCount,
      hsum fun snap => snap.errorCount.getD 0]
    ring
  · show ((s.inHand.eraseIdx i).filterMap _).getLast?.or (snap.packetCount.or _) = _
    rw [herase, last_erase Snapshot.packetCount _ _ snap _ fun hp o ho => (hfine o ho).1 hp,
      ← hsplit]
    exact h.packetCount
  · show ((s.inHand.eraseIdx i).filterMap _).getLast?.or (snap.bitrateBps.or _) = _
    rw [herase, last_erase Snapshot.bitrateBps _ _ snap _ fun hp o ho => (hfine o ho).2 hp,
      ← hsplit]
    exact h.bitrateBps
  · intro hempty
    exact absurd hempty (Counters.fill_ne_empty _)

/-- A reset, with nothing in hand that would count. -/
theorem Balanced.reset (hs : ∀ snap ∈ s.inHand, Silent snap) :
    Balanced ⟨{ emptyEtr290Session intervalSec now with
      pidStructure := s.snapshot.pidStructure }, s.inHand, []⟩ := by
  constructor
  · intro name
    show (Counters.fill ∅).value name + _ = 0
    rw [Counters.value_fill, Counters.value_empty, zero_add]
    exact List.sum_eq_zero (by simpa using fun snap h => (hs snap h).counters name)
  · show 0 + _ = (0 : ℤ)
    rw [zero_add]
    exact List.sum_eq_zero (by simpa using fun snap h => (hs snap h).errorCount)
  · show (s.inHand.filterMap Snapshot.packetCount).getLast?.or none = none
    rw [List.filterMap_eq_nil_iff.mpr fun snap h => (hs snap h).packetCount]
    rfl
  · show (s.inHand.filterMap Snapshot.bitrateBps).getLast?.or none = none
    rw [List.filterMap_eq_nil_iff.mpr fun snap h => (hs snap h).bitrateBps]
    rfl
  · exact fun hempty => absurd hempty (Counters.fill_ne_empty _)

/-- **One step.** -/
theorem balanced_step {a : Action} (h : Balanced s) (hfine : Fine b s a)
    (hs : step b intervalSec s a = some s') : Balanced s' := by
  cases a with
  | post body now =>
    obtain rfl := Option.some.inj hs
    exact h.post hfine
  | add i =>
    obtain ⟨snap, hi, rfl⟩ := Option.map_eq_some_iff.mp hs
    exact h.add hi (hfine snap hi)
  | reset now =>
    obtain rfl := Option.some.inj hs
    exact Balanced.reset hfine
  | pidStructure st =>
    obtain rfl := Option.some.inj hs
    exact ⟨h.counters, h.errorCount, h.packetCount, h.bitrateBps, h.blank⟩

end Steps

/-- Nothing was counted and nothing is in hand. -/
theorem balanced_new : Balanced Stub.new := by
  refine ⟨fun name => ?_, rfl, rfl, rfl, fun _ => rfl⟩
  show Counters.value ∅ name + 0 = 0
  rw [Counters.value_empty, add_zero]

/-! ## Runs -/

/-- **The totals along a run.**  Whatever the order of bodies, handlers, resets and main
loop, if the steps meet the condition then the totals are those of the accepted rows in each
state in which no handler waits for the lock. -/
theorem totals_along (b : Builtins) (intervalSec : ℤ) (as : List Action) (s : Stub)
    (hfine : Runs.Along (Fine b) (step b intervalSec) Stub.new as)
    (hrun : Runs.run (step b intervalSec) Stub.new as = some s) :
    s.inHand = [] → Exact s := by
  have h : Balanced s := Runs.run_invariant (fun _ _ _ hI hok hs => balanced_step hI hok hs)
    as Stub.new s balanced_new hfine hrun
  intro hnone
  constructor
  · intro name
    have hc := h.counters name
    rw [hnone] at hc
    simpa using hc
  · have hc := h.errorCount
    rw [hnone] at hc
    simpa using hc
  · have hc := h.packetCount
    rw [hnone] at hc
    simpa using hc
  · have hc := h.bitrateBps
    rw [hnone] at hc
    simpa using hc

/-! ## Two bodies -/

/-- One row for a counter, and a packet count. -/
def singleBody : Text :=
  ("counter,name=pid_error,scope=ts,severity=1 value=3i\n" ++
    "counter,name=packet_count,scope=ts,severity=4 value=50i").toList

/-- A row for the same counter, and one for another. -/
def nextBody : Text :=
  ("counter,name=crc_error,scope=ts,severity=2 value=2i\n" ++
    "counter,name=pid_error,scope=ts,severity=1 value=1i").toList

/-- Two rows for one counter. -/
def doubledBody : Text :=
  ("counter,name=pid_error,scope=ts,severity=1 value=3i\n" ++
    "counter,name=pid_error,scope=ts,severity=1 value=4i").toList

theorem parse_singleBody : parseInfluxBody .ascii singleBody =
    some ⟨[⟨"pid_error", 1, 3⟩], none, some 50, none⟩ := by decide +kernel

theorem accepted_singleBody : accepted .ascii singleBody =
    [.counter "pid_error" 1 3, .packetCount 50] := by decide +kernel

theorem parse_nextBody : parseInfluxBody .ascii nextBody =
    some ⟨[⟨"crc_error", 2, 2⟩, ⟨"pid_error", 1, 1⟩], none, none, none⟩ := by decide +kernel

theorem accepted_nextBody : accepted .ascii nextBody =
    [.counter "crc_error" 2 2, .counter "pid_error" 1 1] := by decide +kernel

theorem parse_doubledBody : parseInfluxBody .ascii doubledBody =
    some ⟨[⟨"pid_error", 1, 3⟩, ⟨"pid_error", 1, 4⟩], none, none, none⟩ := by decide +kernel

theorem accepted_doubledBody : accepted .ascii doubledBody =
    [.counter "pid_error" 1 3, .counter "pid_error" 1 4] := by decide +kernel

/-- A body in which every counter has one row is whole. -/
theorem whole_singleBody : Whole .ascii singleBody := by
  unfold Whole
  rw [parse_singleBody, accepted_singleBody, if_pos (by decide)]
  refine ⟨fun name => ?_, rfl⟩
  have hrows : ([.counter "pid_error" 1 3, .packetCount 50] : List Row).filterMap
      Row.counterRow? = [⟨"pid_error", 1, 3⟩] := rfl
  unfold sumOf lastOf
  rw [hrows]
  by_cases h : name = "pid_error"
  · subst h
    rfl
  · simp [Row.count, Ne.symm h]

theorem whole_nextBody : Whole .ascii nextBody := by
  unfold Whole
  rw [parse_nextBody, accepted_nextBody, if_pos (by decide)]
  refine ⟨fun name => ?_, rfl⟩
  have hrows : ([.counter "crc_error" 2 2, .counter "pid_error" 1 1] : List Row).filterMap
      Row.counterRow? = [⟨"crc_error", 2, 2⟩, ⟨"pid_error", 1, 1⟩] := rfl
  unfold sumOf lastOf
  rw [hrows]
  by_cases hcc : name = "crc_error"
  · subst hcc
    rfl
  · by_cases hpid : name = "pid_error"
    · subst hpid
      rfl
    · simp [Row.count, Ne.symm hcc, Ne.symm hpid]

/-- The rollup of the first body. -/
def singleRollup : Snapshot :=
  rollupEtr290Snapshot ⟨[⟨"pid_error", 1, 3⟩], none, some 50, none⟩ 2 0

/-- The rollup of the second one. -/
def nextRollup : Snapshot :=
  rollupEtr290Snapshot ⟨[⟨"crc_error", 2, 2⟩, ⟨"pid_error", 1, 1⟩], none, none, none⟩ 2 2

theorem interval_singleBody : interval .ascii 2 singleBody 0 = some singleRollup := by
  unfold interval
  rw [parse_singleBody]
  rfl

theorem interval_nextBody : interval .ascii 2 nextBody 2 = some nextRollup := by
  unfold interval
  rw [parse_nextBody]
  rfl

/-- Two bodies that are added in turn: four errors of one counter and two of the other. -/
theorem totals_along_twoBodies : ∃ s, Runs.run (step .ascii 2) Stub.new
    [.post singleBody 0, .add 0, .post nextBody 2, .add 0] = some s ∧
      sumOf s.rows "pid_error" = 4 ∧ sumOf s.rows "crc_error" = 2 ∧ Exact s := by
  have hrun : Runs.run (step .ascii 2) Stub.new
      [.post singleBody 0, .add 0, .post nextBody 2, .add 0] =
        some ⟨accumulateEtr290Snapshot (accumulateEtr290Snapshot Stub.new.snapshot singleRollup)
          nextRollup, [], [.counter "pid_error" 1 3, .packetCount 50, .counter "crc_error" 2 2,
            .counter "pid_error" 1 1]⟩ := by
    simp [step, interval_singleBody, interval_nextBody, accepted_singleBody, accepted_nextBody,
      Stub.new]
  refine ⟨_, hrun, by decide, by decide, totals_along .ascii 2 _ _ ?_ hrun rfl⟩
  have hfirst : ∀ (s : Stub), Fine .ascii s (.add 0) := by
    intro s snap _ older hmem
    exact absurd hmem (by simp)
  exact ⟨whole_singleBody, fun t _ => ⟨hfirst t, fun u _ => ⟨whole_nextBody, fun v _ =>
    ⟨hfirst v, fun _ _ => trivial⟩⟩⟩⟩

/-- **A rollup loses a row**: 3 and 4 make 4. -/
theorem doubled_row_is_lost : ¬ ∀ (b : Builtins) (intervalSec : ℤ) (as : List Action) (s : Stub),
    Runs.run (step b intervalSec) Stub.new as = some s → s.inHand = [] → Exact s := by
  intro h
  have hpost : interval .ascii 2 doubledBody 0 = some (rollupEtr290Snapshot
      ⟨[⟨"pid_error", 1, 3⟩, ⟨"pid_error", 1, 4⟩], none, none, none⟩ 2 0) := by
    unfold interval
    rw [parse_doubledBody]
    rfl
  have hrun : Runs.run (step .ascii 2) Stub.new [.post doubledBody 0, .add 0] =
      some ⟨accumulateEtr290Snapshot Stub.new.snapshot (rollupEtr290Snapshot
        ⟨[⟨"pid_error", 1, 3⟩, ⟨"pid_error", 1, 4⟩], none, none, none⟩ 2 0), [],
        [.counter "pid_error" 1 3, .counter "pid_error" 1 4]⟩ := by
    simp [step, hpost, Stub.new, accepted_doubledBody]
  have hexact := (h _ _ _ _ hrun rfl).counters "pid_error"
  rw [accumulate_value, rollup_value, Counters.value_ofRows] at hexact
  exact absurd hexact (by decide)

end Etr290
