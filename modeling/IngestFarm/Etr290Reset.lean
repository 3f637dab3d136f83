/-
# Resetting the ETR 290 totals

A reset travels as a marker file: the child creates `etr290_reset`, and the loop of the sidecar
tests it, clears and publishes the session under the lock, and removes it.  Handler threads add to
the session at any time, and the child polls what was published, with a cached copy for polls that
cannot read the file.  A marker that is created between the clear and the removal is lost; every
other reset is served, and no poll after a clear was written shows what was counted before it
(`resets_along`).

Every session is the sum of a stretch of the list of all accumulations: the counters and the error
count add up over it, the packet count and the bit rate are those of its last interval that has
one.  So a published session is free of what was counted before a clear exactly when its stretch
begins after it.
-/
import IngestFarm.Etr290Status
import IngestFarm.Etr290Totals

namespace Etr290

/-! ## What is published -/

/-- A snapshot as it is written to `etr290.json`. -/
def Snapshot.toDoc (s : Snapshot) : Doc :=
  [("available", Json.bool s.available), ("interval_sec", Json.int s.intervalSec),
    ("updated_at", Json.int s.updatedAt), ("worst_severity", Json.int s.worstSeverity),
    ("counters", Json.obj (s.counters.entries.map fun e =>
      (e.1, Json.obj [("value", Json.int e.2.value), ("severity", Json.int e.2.severity)])))] ++
    (s.errorCount.map fun n => ("error_count", Json.int n)).toList ++
    (s.packetCount.map fun n => ("packet_count", Json.int n)).toList ++
    (s.bitrateBps.map fun n => ("bitrate_bps", Json.int n)).toList ++
    (s.pidStructure.map fun v => ("structure", v)).toList

/-- A session, with what it is made of: the accumulations number `since` to `upTo`. -/
structure Held where
  /-- The totals. -/
  snapshot : Snapshot
  /-- The number of accumulations before its clear. -/
  since : ℕ
  /-- The number of accumulations up to now. -/
  upTo : ℕ

/-- What the sidecar writes: the reason of a failure, or a session. -/
inductive Written where
  | failure (reason : String) (now : ℕ)
  | session (h : Held)

/-- What stands in the file. -/
def Written.fields : Written → Doc
  | failure reason now =>
    [("available", .bool false), ("reason", .str reason), ("updated_at", .int now)]
  | session h => h.snapshot.toDoc

/-! ## Sidecar, handlers and child -/

/-- Where the loop of the sidecar is: before a test of the marker, before a clear, before the
removal, before the write at the end of a round; or it is over. -/
inductive Place where
  /-- Before the test of the marker. -/
  | top
  /-- The marker was seen. -/
  | clear
  /-- The session is cleared, and the marker still there. -/
  | unlink
  /-- Before the write at the end of a round. -/
  | publish
  /-- The loop is over. -/
  | ended
  deriving DecidableEq

/-- A status that was published: how many accumulations the last clear that had been written
preceded when the poll began, and the entry. -/
structure ResetPoll where
  floor : ℕ
  payload : Option (Payload Written)

/-- `log` lists all accumulations, `since` counts those before the last clear and `floor` those
before the last clear that was written; `unserved` counts the resets since the last clear. -/
structure Monitor where
  /-- The session of the stub. -/
  snapshot : Snapshot
  /-- Where the loop is. -/
  place : Place
  /-- There is a marker file. -/
  marker : Bool
  /-- What the child of the session would read. -/
  file : FileRead Written
  /-- What it has read last. -/
  last : Option Written
  log : List Snapshot
  since : ℕ
  floor : ℕ
  unserved : ℕ
  /-- The statuses that were published. -/
  polls : List ResetPoll

/-- A child that has just started. -/
def Monitor.new : Monitor where
  snapshot := Stub.new.snapshot
  place := .top
  marker := false
  file := .missing
  last := none
  log := []
  since := 0
  floor := 0
  unserved := 0
  polls := []

/-- The current session. -/
def Monitor.held (s : Monitor) : Held := ⟨s.snapshot, s.since, s.log.length⟩

/-- `write_json_atomic` of the session, which can fail. -/
def Monitor.write (s : Monitor) (written : Bool) : Monitor :=
  if written = true then { s with file := .document (.session s.held), floor := s.since } else s

/-- The steps of the child's loop, of the session that asks for a reset, and of a poll that
reads. -/
inductive MonitorAction where
  /-- A handler thread adds the rollup of a body. -/
  | accumulate (interval : Snapshot)
  /-- The loop looks for the marker. -/
  | check
  /-- It clears the session and writes it, which may fail. -/
  | clear (now : ℕ) (written : Bool)
  /-- It removes the marker. -/
  | unlink
  /-- It writes the session, which may fail. -/
  | publish (pidStructure : Option Json) (written : Bool)
  /-- It ends, and says why if it has failed. -/
  | finish (failure : Option (String × ℕ))
  /-- The session of the worker asks for a reset by creating the marker. -/
  | reset (created : Bool)
  /-- The child publishes a status with what it reads. -/
  | poll (readable live : Bool) (tapDrops : ℤ) (now : ℚ)

/-- The loop looks for the marker. -/
def MonitorAction.isCheck : MonitorAction → Bool
  | check => true
  | _ => false

/-- The session is cleared. -/
def MonitorAction.isClear : MonitorAction → Bool
  | clear _ _ => true
  | _ => false

section Steps

variable (b : Builtins) (intervalSec : ℤ)

/-- `_write_status` of the child. -/
def Monitor.poll (s : Monitor) (readable live : Bool) (tapDrops : ℤ) (now : ℚ) : Monitor :=
  match etr290StatusPayload b Written.fields (if readable = true then s.file else .unreadable)
    live tapDrops s.last now with
  | none => s
  | some payload =>
    { s with
      last := keepLast Written.fields s.last payload
      polls := s.polls ++ [⟨s.floor, payload⟩] }

/-- One step of a handler thread, of the loop of the sidecar, or of the child. -/
def Monitor.step (s : Monitor) : MonitorAction → Option Monitor
  | .accumulate interval => some
    { s with
      snapshot := accumulateEtr290Snapshot s.snapshot interval
      log := s.log ++ [interval] }
  | .check =>
    if s.place = .top then
      some { s with place := if s.marker = true then .clear else .publish }
    else none
  | .clear now written =>
    if s.place = .clear then
      some (Monitor.write
        { s with
          snapshot := { emptyEtr290Session intervalSec now with
            pidStructure := s.snapshot.pidStructure }
          since := s.log.length
          unserved := 0
          place := .unlink } written)
    else none
  | .unlink =>
    if s.place = .unlink then some { s with marker := false, place := .publish } else none
  | .publish pidStructure written =>
    if s.place = .publish then
      some (Monitor.write
        { s with
          snapshot := { s.snapshot with
            pidStructure := pidStructure.or s.snapshot.pidStructure }
          place := .top } (written && s.snapshot.available))
    else none
  | .finish failure =>
    -- an exception of `load_pid_structure` ends the loop as well
    if s.place = .top ∨ s.place = .publish then
      some
        { s with
          file := match failure with
            | some (reason, now) => .document (.failure reason now)
            | none => s.file
          marker := false
          place := .ended }
    else none
  | .reset created => some
    { s with
      last := none
      marker := s.marker || created
      unserved := s.unserved + 1 }
  | .poll readable live tapDrops now => some (s.poll b readable live tapDrops now)

/-- The condition on a step: a reset creates its marker, neither between a clear and the removal of
the marker nor after the end; the loop does not end before a reset is served; and a poll that
cannot read the file has no copy from before the last clear that was written. -/
def Monitor.Fine (s : Monitor) : MonitorAction → Prop
  | .reset created => created = true ∧ s.place ≠ .unlink ∧ s.place ≠ .ended
  | .finish _ => s.unserved = 0
  | .poll readable _ _ _ => readable = false → ∀ h, s.last = some (.session h) → s.floor ≤ h.since
  | _ => True

end Steps

/-- The sum of a counter over accumulations. -/
def totalOf (log : List Snapshot) (name : String) : ℤ :=
  (log.map fun snap => snap.counters.value name).sum

/-- The sum of the error counts over accumulations. -/
def errorsIn (log : List Snapshot) : ℤ := (log.map fun snap => snap.errorCount.getD 0).sum

/-- The last value of an interval's own measure, such as the bit rate. -/
def lastIn (measure : Snapshot → Option ℤ) (log : List Snapshot) : Option ℤ :=
  (log.filterMap measure).getLast?

/-- The accumulations that a session is made of. -/
def Held.stretch (log : List Snapshot) (h : Held) : List Snapshot := (log.take h.upTo).drop h.since

/-- All that a session totals is that of the accumulations it is made of. -/
structure Held.Counts (log : List Snapshot) (h : Held) : Prop where
  /-- The accumulations have happened. -/
  upTo : h.upTo ≤ log.length
  /-- They come after the clear. -/
  since : h.since ≤ h.upTo
  /-- The counters are their sums. -/
  total : ∀ name, h.snapshot.counters.value name = totalOf (h.stretch log) name
  /-- So is the number of errors. -/
  errors : h.snapshot.errorCount.getD 0 = errorsIn (h.stretch log)
  /-- The packet count is the last one of them. -/
  packets : h.snapshot.packetCount = lastIn Snapshot.packetCount (h.stretch log)
  /-- So is the bit rate. -/
  bitrate : h.snapshot.bitrateBps = lastIn Snapshot.bitrateBps (h.stretch log)

/-- A poll shows a session of which every accumulation came after the last clear that had been
written. -/
def ResetPoll.Clean (log : List Snapshot) (p : ResetPoll) : Prop :=
  ∀ h n, p.payload = some (.copy (.session h) n) → p.floor ≤ h.since ∧ h.Counts log

/-- The invariant. -/
structure Monitor.Kept (s : Monitor) : Prop where
  /-- A reset that is not served yet has left its marker, and the loop will look for it. -/
  marked : 0 < s.unserved → s.marker = true ∧ s.place ≠ .unlink ∧ s.place ≠ .ended
  /-- The session holds what came after its clear. -/
  session : s.held.Counts s.log
  /-- A session without counters has no errors. -/
  blankSession : s.snapshot.counters = ∅ → s.snapshot.errorCount.getD 0 = 0
  /-- The clear of the session is no older than the one that was written. -/
  floor : s.floor ≤ s.since
  /-- Without a document nothing was cleared in writing. -/
  blank : (∀ d, s.file ≠ .document d) → s.floor = 0
  /-- A document is of a session after the clear that was written last. -/
  file : ∀ h, s.file = .document (.session h) → s.floor ≤ h.since ∧ h.Counts s.log
  /-- The one in memory is of some session. -/
  last : ∀ h, s.last = some (.session h) → h.Counts s.log
  /-- Every status that was published was clean. -/
  polls : ∀ p ∈ s.polls, p.Clean s.log

/-! ## Steps -/

section Proofs

variable {b : Builtins} {intervalSec : ℤ} {s s' : Monitor}

/-- Totals of two logs add up. -/
theorem totalOf_append (log log' : List Snapshot) (name : String) :
    totalOf (log ++ log') name = totalOf log name + totalOf log' name := by
  unfold totalOf
  rw [List.map_append, List.sum_append]

/-- So do their errors. -/
theorem errorsIn_append (log log' : List Snapshot) :
    errorsIn (log ++ log') = errorsIn log + errorsIn log' := by
  unfold errorsIn
  rw [List.map_append, List.sum_append]

/-- An interval that has no value of its own leaves the last one. -/
theorem lastIn_append_singleton (measure : Snapshot → Option ℤ) (log : List Snapshot)
    (snap : Snapshot) :
    lastIn measure (log ++ [snap]) = (measure snap).or (lastIn measure log) := by
  unfold lastIn
  rw [List.filterMap_append, List.getLast?_append]
  rcases h : measure snap with _ | v <;> simp [h]

/-- Later accumulations do not change what a session is made of. -/
theorem Held.Counts.append {log : List Snapshot} {h : Held} (hc : h.Counts log) (snap : Snapshot) :
    h.Counts (log ++ [snap]) := by
  have hstretch : h.stretch (log ++ [snap]) = h.stretch log := by
    unfold Held.stretch
    rw [List.take_append_of_le_length hc.upTo]
  refine ⟨?_, hc.since, ?_, ?_, ?_, ?_⟩
  · rw [List.length_append]
    exact hc.upTo.trans (Nat.le_add_right _ _)
  · rw [hstretch]
    exact hc.total
  · rw [hstretch]
    exact hc.errors
  · rw [hstretch]
    exact hc.packets
  · rw [hstretch]
    exact hc.bitrate

/-- The stretch of the current session, after one more accumulation. -/
theorem Monitor.stretch_accumulate {snapshot : Snapshot} (interval : Snapshot)
    (hsince : s.since ≤ s.log.length) :
    Held.stretch (s.log ++ [interval]) ⟨snapshot, s.since, (s.log ++ [interval]).length⟩ =
      s.held.stretch s.log ++ [interval] := by
  show ((s.log ++ [interval]).take (s.log ++ [interval]).length).drop s.since =
    (s.log.take s.log.length).drop s.since ++ [interval]
  rw [List.take_length, List.take_length, List.drop_append_of_le_length hsince]

/-- Writing what is held keeps the books. -/
theorem Monitor.Kept.write (h : s.Kept) (written : Bool) : (s.write written).Kept := by
  unfold Monitor.write
  split_ifs
  · refine ⟨h.marked, h.session, h.blankSession, le_rfl, fun hno => absurd rfl (hno _),
      fun held hheld => ?_,
      h.last, h.polls⟩
    obtain rfl := Written.session.inj (FileRead.document.inj hheld)
    exact ⟨le_rfl, h.session⟩
  · exact h

/-- An interval joins session and log. -/
theorem Monitor.Kept.accumulate (h : s.Kept) (interval : Snapshot) :
    Monitor.Kept { s with
      snapshot := accumulateEtr290Snapshot s.snapshot interval
      log := s.log ++ [interval] } := by
  have hsince : s.since ≤ s.log.length := h.session.since
  have hstretch := @Monitor.stretch_accumulate s
    (accumulateEtr290Snapshot s.snapshot interval) interval hsince
  have hsession : Held.Counts (s.log ++ [interval])
      ⟨accumulateEtr290Snapshot s.snapshot interval, s.since, (s.log ++ [interval]).length⟩ := by
    refine ⟨le_rfl, ?_, fun name => ?_, ?_, ?_, ?_⟩
    · rw [List.length_append]
      exact hsince.trans (Nat.le_add_right _ _)
    · rw [hstretch, totalOf_append, ← h.session.total name, accumulate_value]
      simp [totalOf, Monitor.held]
    · rw [hstretch, errorsIn_append, ← h.session.errors, accumulate_errorCount _ h.blankSession]
      simp [errorsIn, Monitor.held]
    · rw [hstretch, lastIn_append_singleton, ← h.session.packets]
      rfl
    · rw [hstretch, lastIn_append_singleton, ← h.session.bitrate]
      rfl
  refine ⟨h.marked, hsession, fun hempty => absurd hempty (Counters.fill_ne_empty _), h.floor,
    h.blank, fun held hheld => ?_, fun held hheld => (h.last held hheld).append interval,
    fun p hp held n hpay => ?_⟩
  · obtain ⟨hfloor, hcounts⟩ := h.file held hheld
    exact ⟨hfloor, hcounts.append interval⟩
  · obtain ⟨hfloor, hcounts⟩ := h.polls p hp held n hpay
    exact ⟨hfloor, hcounts.append interval⟩

/-- A cleared session is made of nothing. -/
theorem Monitor.Kept.clear (h : s.Kept) (now : ℕ) :
    Monitor.Kept { s with
      snapshot := { emptyEtr290Session intervalSec now with
        pidStructure := s.snapshot.pidStructure }
      since := s.log.length
      unserved := 0
      place := .unlink } := by
  have hstretch : ∀ snapshot : Snapshot,
      Held.stretch s.log ⟨snapshot, s.log.length, s.log.length⟩ = [] := by
    intro snapshot
    unfold Held.stretch
    rw [List.take_length, List.drop_length]
  have hsession : Held.Counts s.log ⟨{ emptyEtr290Session intervalSec now with
      pidStructure := s.snapshot.pidStructure }, s.log.length, s.log.length⟩ := by
    refine ⟨le_rfl, le_rfl, fun name => ?_, ?_, ?_, ?_⟩
    · rw [hstretch]
      show (Counters.fill ∅).value name = 0
      rw [Counters.value_fill, Counters.value_empty]
    · rw [hstretch]
      rfl
    · rw [hstretch]
      rfl
    · rw [hstretch]
      rfl
  exact ⟨fun hpos => absurd hpos (lt_irrefl 0), hsession,
    fun hempty => absurd hempty (Counters.fill_ne_empty _), h.floor.trans h.session.since, h.blank,
    h.file, h.last, h.polls⟩

/-- A new structure changes no total. -/
theorem Monitor.Kept.publish (h : s.Kept) (pidStructure : Option Json) :
    Monitor.Kept { s with
      snapshot := { s.snapshot with pidStructure := pidStructure.or s.snapshot.pidStructure }
      place := .top } :=
  ⟨fun hpos => ⟨(h.marked hpos).1, Place.noConfusion, Place.noConfusion⟩,
    ⟨h.session.upTo, h.session.since, h.session.total, h.session.errors, h.session.packets,
      h.session.bitrate⟩, h.blankSession, h.floor, h.blank, h.file, h.last, h.polls⟩

/-- What a poll copies is from the file, or from the snapshot kept while there was no clear. -/
theorem Monitor.Kept.source (h : s.Kept) {readable live : Bool} {n m : ℤ} {now : ℚ}
    (hfine : s.Fine (.poll readable live n now)) {held : Held}
    (hp : etr290StatusPayload b Written.fields
      (if readable = true then s.file else .unreadable) live n s.last now =
        some (some (.copy (.session held) m))) :
    s.floor ≤ held.since ∧ held.Counts s.log := by
  rcases (payload_copy hp).2 with ⟨hfile, -⟩ | ⟨hlast, hno, -⟩
  · split_ifs at hfile
    exact h.file held hfile
  · refine ⟨?_, h.last held hlast⟩
    by_cases hr : readable = true
    · rw [if_pos hr] at hno
      rw [h.blank hno]
      exact Nat.zero_le _
    · exact hfine (by simpa using hr) held hlast

/-- **A poll shows nothing from before the last clear that was written.** -/
theorem Monitor.Kept.poll (h : s.Kept) {readable live : Bool} {n : ℤ} {now : ℚ}
    (hfine : s.Fine (.poll readable live n now)) : (s.poll b readable live n now).Kept := by
  unfold Monitor.poll
  rcases hp : etr290StatusPayload b Written.fields
    (if readable = true then s.file else .unreadable) live n s.last now with _ | payload
  · exact h
  · refine ⟨h.marked, h.session, h.blankSession, h.floor, h.blank, h.file, fun held hheld => ?_,
      fun p hmem held m hpay => ?_⟩
    · rcases payload with _ | ⟨d, m⟩ | m
      · exact h.last held hheld
      · dsimp only [keepLast] at hheld
        split_ifs at hheld
        · obtain rfl := Option.some.inj hheld
          exact (h.source hfine hp).2
        · exact h.last held hheld
      · exact h.last held hheld
    · rcases List.mem_append.mp hmem with hmem | hmem
      · exact h.polls p hmem held m hpay
      · obtain rfl := List.mem_singleton.mp hmem
        obtain rfl : payload = some (.copy (.session held) m) := hpay
        exact h.source hfine hp

/-- **Every step keeps the invariant.** -/
theorem Monitor.Kept.step {a : MonitorAction} (h : s.Kept) (hfine : s.Fine a)
    (hs : s.step b intervalSec a = some s') : s'.Kept := by
  cases a with
  | accumulate interval =>
    obtain rfl := Option.some.inj hs
    exact h.accumulate interval
  | check =>
    obtain ⟨-, hs⟩ := Option.ite_none_right_eq_some.mp hs
    obtain rfl := Option.some.inj hs
    refine ⟨fun hpos => ?_, h.session, h.blankSession, h.floor, h.blank, h.file, h.last, h.polls⟩
    have hmark := (h.marked hpos).1
    refine ⟨hmark, ?_, ?_⟩ <;>
    · dsimp only
      rw [if_pos hmark]
      decide
  | clear now written =>
    obtain ⟨-, hs⟩ := Option.ite_none_right_eq_some.mp hs
    obtain rfl := Option.some.inj hs
    exact (h.clear now).write written
  | unlink =>
    obtain ⟨hplace, hs⟩ := Option.ite_none_right_eq_some.mp hs
    obtain rfl := Option.some.inj hs
    -- The marker goes, but with an unserved reset the loop would not be here.
    refine ⟨fun hpos => ?_, h.session, h.blankSession, h.floor, h.blank, h.file, h.last, h.polls⟩
    exact absurd hplace (h.marked hpos).2.1
  | publish pidStructure written =>
    obtain ⟨-, hs⟩ := Option.ite_none_right_eq_some.mp hs
    obtain rfl := Option.some.inj hs
    exact (h.publish pidStructure).write _
  | finish failure =>
    obtain ⟨-, hs⟩ := Option.ite_none_right_eq_some.mp hs
    obtain rfl := Option.some.inj hs
    -- The end removes the marker as well; no reset waits for it.
    have hzero : s.unserved = 0 := hfine
    refine ⟨fun hpos => absurd hzero (Nat.pos_iff_ne_zero.mp hpos), h.session, h.blankSession,
      h.floor, ?_, ?_, h.last, h.polls⟩
    · rcases failure with _ | ⟨reason, now⟩
      · exact h.blank
      · exact fun hno => absurd rfl (hno _)
    · rcases failure with _ | ⟨reason, now⟩
      · exact h.file
      · intro held hheld
        exact absurd (FileRead.document.inj hheld) (by simp)
  | reset created =>
    obtain rfl := Option.some.inj hs
    obtain ⟨rfl, hunlink, hended⟩ := hfine
    refine ⟨fun _ => ⟨Bool.or_true _, hunlink, hended⟩, h.session, h.blankSession, h.floor, h.blank,
      h.file, ?_, h.polls⟩
    exact fun held hheld => absurd hheld (by simp)
  | poll readable live n now =>
    obtain rfl := Option.some.inj hs
    exact h.poll hfine

/-- Nothing was accumulated. -/
theorem kept_new : Monitor.Kept .new := by
  refine ⟨fun hpos => absurd hpos (lt_irrefl 0),
    ⟨le_rfl, le_rfl, fun name => ?_, rfl, rfl, rfl⟩, fun _ => rfl, le_rfl, fun _ => rfl,
    fun _ hheld => absurd hheld (by simp [Monitor.new]),
    fun _ hheld => absurd hheld (by simp [Monitor.new]),
    fun _ hp => absurd hp List.not_mem_nil⟩
  exact Counters.value_empty name

/-! ## Rounds -/

/-- How often the loop tests the marker. -/
def rounds (as : List MonitorAction) : ℕ := (as.filter MonitorAction.isCheck).length

/-- **An unserved reset is served within a round**: without a clear the loop tests the marker
once more at most, and not at all when it is about to clear. -/
theorem rounds_le_one {as : List MonitorAction} (h : s.Kept) (hpos : 0 < s.unserved)
    (hfine : Runs.Along Monitor.Fine (Monitor.step b intervalSec) s as)
    (hrun : Runs.run (Monitor.step b intervalSec) s as = some s')
    (hno : ∀ a ∈ as, a.isClear = false) :
    rounds as ≤ if s.place = .clear then 0 else 1 := by
  induction as generalizing s with
  | nil => exact Nat.zero_le _
  | cons a as ih =>
    rw [Runs.run_cons, Option.bind_eq_some_iff] at hrun
    obtain ⟨t, ht, hrun⟩ := hrun
    have hkept := h.step hfine.1 ht
    have hrest := fun hpos' => ih hkept hpos' (hfine.2 t ht) hrun fun a' ha' =>
      hno a' (List.mem_cons_of_mem _ ha')
    obtain ⟨hmark, hunlink, hended⟩ := h.marked hpos
    cases a with
    | accumulate interval =>
      obtain rfl := Option.some.inj ht
      exact hrest hpos
    | check =>
      obtain ⟨htop, ht⟩ := Option.ite_none_right_eq_some.mp ht
      obtain rfl := Option.some.inj ht
      -- The marker is there, so this check leads to the clear and is the last one.
      have hone := hrest hpos
      dsimp only at hone
      rw [if_pos hmark, if_pos rfl] at hone
      rw [htop, if_neg (by decide)]
      show (MonitorAction.check :: as.filter MonitorAction.isCheck).length ≤ 1
      rw [List.length_cons]
      unfold rounds at hone
      omega
    -- There is no clear in this stretch.
    | clear now written => exact absurd (hno _ List.mem_cons_self) (by simp [MonitorAction.isClear])
    | unlink =>
      obtain ⟨hplace, -⟩ := Option.ite_none_right_eq_some.mp ht
      exact absurd hplace hunlink
    | publish pidStructure written =>
      obtain ⟨hplace, ht⟩ := Option.ite_none_right_eq_some.mp ht
      obtain rfl := Option.some.inj ht
      rw [hplace, if_neg (by decide)]
      refine (hrest ?_).trans ?_
      · unfold Monitor.write
        split_ifs <;> exact hpos
      · split_ifs <;> omega
    | finish failure =>
      have hzero : s.unserved = 0 := hfine.1
      omega
    | reset created =>
      obtain rfl := Option.some.inj ht
      exact hrest (Nat.succ_pos _)
    | poll readable live n now =>
      obtain rfl := Option.some.inj ht
      have hsame : (s.poll b readable live n now).unserved = s.unserved ∧
          (s.poll b readable live n now).place = s.place := by
        unfold Monitor.poll
        rcases etr290StatusPayload b Written.fields
          (if readable = true then s.file else .unreadable) live n s.last now with _ | payload
        · exact ⟨rfl, rfl⟩
        · exact ⟨rfl, rfl⟩
      have hone := hrest (by rw [hsame.1]; exact hpos)
      rw [hsame.2] at hone
      exact hone

end Proofs

/-! ## Main result -/

/-- **No reset is lost**, in every run whose steps meet the condition: before the loop has tested
the marker twice after a reset it has cleared the session, and no poll publishes a session with an
accumulation from before the last clear that was written when the poll began. -/
theorem resets_along (b : Builtins) (intervalSec : ℤ) (as : List MonitorAction) (s : Monitor)
    (hfine : Runs.Along Monitor.Fine (Monitor.step b intervalSec) .new as)
    (hrun : Runs.run (Monitor.step b intervalSec) .new as = some s) :
    (∀ pre created post, as = pre ++ .reset created :: post → 2 ≤ rounds post →
      ∃ a ∈ post, a.isClear = true) ∧
    ∀ p ∈ s.polls, p.Clean s.log := by
  have hkeep : ∀ as s s', Monitor.Kept s →
      Runs.Along Monitor.Fine (Monitor.step b intervalSec) s as →
      Runs.run (Monitor.step b intervalSec) s as = some s' → Monitor.Kept s' :=
    Runs.run_invariant fun _ _ _ h hok hs => h.step hok hs
  refine ⟨fun pre created post has hrounds => ?_, (hkeep as .new s kept_new hfine hrun).polls⟩
  subst has
  rw [Runs.run_append, Option.bind_eq_some_iff] at hrun
  obtain ⟨t, hpre, hrun⟩ := hrun
  rw [Runs.run_cons, Option.bind_eq_some_iff] at hrun
  obtain ⟨u, hu, hrun⟩ := hrun
  obtain ⟨hfinePre, hfineRest⟩ := Runs.along_append hfine
  obtain ⟨hreset, hfinePost⟩ := hfineRest t hpre
  have hkept := (hkeep pre .new t kept_new hfinePre hpre).step hreset hu
  have hpos : 0 < u.unserved := by
    obtain rfl := Option.some.inj hu
    exact Nat.succ_pos _
  by_contra hno
  push Not at hno
  have hone := rounds_le_one hkept hpos (hfinePost u hu) hrun
    fun a ha => by simpa using hno a ha
  split_ifs at hone <;> omega

/-- An interval with errors. -/
def faultyInterval (now : ℕ) : Snapshot where
  available := true
  intervalSec := 2
  updatedAt := now
  worstSeverity := 1
  counters := Dict.set "TS_sync_loss" ⟨3, 1⟩ ∅
  errorCount := some 5
  packetCount := some 900
  bitrateBps := some 8000000
  pidStructure := none

/-- A reset between two intervals with errors. -/
def servedReset : List MonitorAction :=
  [.accumulate (faultyInterval 0), .check, .publish none true, .reset true, .check, .clear 1 true,
    .unlink, .accumulate (faultyInterval 2), .publish none true]

/-- A reset between two intervals with errors that is served, and a poll after it: what is
published begins with the second interval. -/
theorem resets_along_served : ∃ s t : Monitor,
    (Runs.run (Monitor.step .ascii 2) .new servedReset = some s ∧ s.floor = 1 ∧
      s.log = [faultyInterval 0, faultyInterval 2]) ∧
    Runs.run (Monitor.step .ascii 2) .new (servedReset ++ [.poll true true 0 3]) = some t ∧
    ∀ p ∈ t.polls, p.Clean t.log := by
  have hrun : ∃ t, Runs.run (Monitor.step .ascii 2) .new
      (servedReset ++ [.poll true true 0 3]) = some t := ⟨_, rfl⟩
  obtain ⟨t, ht⟩ := hrun
  refine ⟨_, t, ⟨rfl, rfl, rfl⟩, ht, (resets_along .ascii 2 _ t ?_ ht).2⟩
  refine Runs.along_cons trivial rfl (Runs.along_cons trivial rfl (Runs.along_cons trivial rfl ?_))
  apply Runs.along_cons ⟨rfl, Place.noConfusion, Place.noConfusion⟩ rfl
  refine Runs.along_cons trivial rfl (Runs.along_cons trivial rfl (Runs.along_cons trivial rfl ?_))
  refine Runs.along_cons trivial rfl (Runs.along_cons trivial rfl ?_)
  exact Runs.along_cons (fun hno => absurd hno (by decide)) rfl trivial

/-- A reset that the removal of the marker of another one takes away. -/
theorem reset_lost : ¬ ∀ as s, Runs.run (Monitor.step .ascii 2) .new as = some s →
    ∀ pre created post, as = pre ++ .reset created :: post → 2 ≤ rounds post →
      ∃ a ∈ post, a.isClear = true := by
  intro h
  obtain ⟨a, ha, hclear⟩ := h
    [.reset true, .check, .clear 0 true, .reset true, .unlink, .publish none true, .check,
      .publish none true, .check] _ rfl
    [.reset true, .check, .clear 0 true] true
    [.unlink, .publish none true, .check, .publish none true, .check] rfl (by decide)
  revert hclear
  fin_cases ha <;> decide

end Etr290
