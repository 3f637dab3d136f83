/-
# The severity badge

`worst_severity` is computed from running totals whose severities are those of the latest rollup.
Totals only grow, and the badge says what the totals say; it stays as bad as it was as long as no
rollup lists, with severity 2, a counter that has a positive total with severity 1 (`badge_along`).

Three facts are put together: totals only grow, because what is added is not negative; the fold that
computes the badge says whether a counter of either severity is positive (`worst_eq`); and a counter
keeps its severity unless a rollup lists it with another.
-/
import IngestFarm.Etr290Rows

namespace Etr290

/-! ## Counters -/

namespace Counters

/-- Some counter of a severity is positive. -/
def Raised (cs : Counters) (severity : ℤ) : Prop :=
  ∃ name c, cs.lookup name = some c ∧ c.severity = severity ∧ 0 < c.value

/-- No counter is negative, and each has severity 1 or 2. -/
def Sane (cs : Counters) : Prop :=
  ∀ name c, cs.lookup name = some c → 0 ≤ c.value ∧ (c.severity = 1 ∨ c.severity = 2)

/-- All P1 and P2 counters are there. -/
def Complete (cs : Counters) : Prop := ∀ name ∈ allCounters, name ∈ cs

/-- A counter of that severity is above zero. -/
theorem raised_iff {cs : Counters} {severity : ℤ} :
    cs.Raised severity ↔ ∃ e ∈ cs.entries, e.2.severity = severity ∧ 0 < e.2.value := by
  constructor
  · rintro ⟨name, c, hc, h⟩
    exact ⟨⟨name, c⟩, Dict.mem_entries_iff.mpr hc, h⟩
  · rintro ⟨⟨name, c⟩, he, h⟩
    exact ⟨name, c, Dict.mem_entries_iff.mp he, h⟩

/-- The loop over the counters, from a badge `w`. -/
theorem foldl_worst (l : List (Sigma fun _ : String => Counter)) (w : ℤ) :
    l.foldl (fun worst e =>
      if e.2.value ≤ 0 then worst
      else if e.2.severity = 1 then 1
      else if e.2.severity = 2 ∧ worst ≠ 1 then 2
      else worst) w =
    open Classical in
    if w = 1 ∨ ∃ e ∈ l, e.2.severity = 1 ∧ 0 < e.2.value then 1
    else if ∃ e ∈ l, e.2.severity = 2 ∧ 0 < e.2.value then 2
    else w := by
  classical
  induction l generalizing w with
  | nil =>
    rw [List.foldl_nil]
    split_ifs with h₁ h₂
    · simpa using h₁
    · exact absurd h₂ (by simp)
    · rfl
  | cons e l ih =>
    rw [List.foldl_cons, ih]
    simp only [List.exists_mem_cons_iff]
    by_cases hle : e.2.value ≤ 0
    · have hpos : ¬ 0 < e.2.value := not_lt.mpr hle
      simp [hle, hpos]
    · have hpos : 0 < e.2.value := not_le.mp hle
      by_cases h1 : e.2.severity = 1
      · simp [hle, h1, hpos]
      · by_cases h2 : e.2.severity = 2
        · by_cases hw : w = 1
          · simp [hle, h2, hpos, hw]
          · by_cases hl : ∃ e ∈ l, e.2.severity = 1 ∧ 0 < e.2.value
            · simp [hle, h2, hpos, hw, hl]
            · simp [hle, h2, hpos, hw, hl]
        · simp [hle, h1, h2, hpos]

/-- **The badge says what the counters say.** -/
theorem worst_eq (cs : Counters) :
    (cs.worst = 1 ↔ cs.Raised 1) ∧ (cs.worst = 2 ↔ ¬ cs.Raised 1 ∧ cs.Raised 2) ∧
      (cs.worst = 0 ↔ ¬ cs.Raised 1 ∧ ¬ cs.Raised 2) := by
  classical
  have h : cs.worst = if cs.Raised 1 then 1 else if cs.Raised 2 then 2 else 0 := by
    unfold worst
    rw [foldl_worst]
    simp only [raised_iff, zero_ne_one, false_or]
  rw [h]
  split_ifs with h₁ h₂ <;> simp [*]

/-- Without a positive total there is no badge. -/
theorem worst_of_zero {cs : Counters} (h : ∀ name, cs.value name = 0) : cs.worst = 0 := by
  have hnone : ∀ severity, ¬ cs.Raised severity := by
    rintro severity ⟨name, c, hc, -, hpos⟩
    have hval := h name
    rw [value, hc] at hval
    exact absurd hpos (not_lt.mpr (le_of_eq hval))
  exact (worst_eq cs).2.2.mpr ⟨hnone 1, hnone 2⟩

/-! ### Lookups -/

/-- Filling adds what is missing, with its default severity. -/
theorem lookup_foldl_fill (names : List String) (cs : Counters) (name : String) :
    (names.foldl (fun cs name => if name ∈ cs.keys then cs
      else Dict.set name ⟨0, defaultSeverity name⟩ cs) cs).lookup name =
      (cs.lookup name).or (if name ∈ names then some ⟨0, defaultSeverity name⟩ else none) := by
  induction names generalizing cs with
  | nil => simp
  | cons other names ih =>
    rw [List.foldl_cons, ih]
    by_cases hmem : other ∈ cs.keys
    · rw [if_pos hmem]
      by_cases hname : name = other
      · subst hname
        obtain ⟨c, hc⟩ := Dict.mem_iff_exists_lookup.mp (AList.mem_keys.mpr hmem)
        rw [hc, Option.some_or, Option.some_or]
      · simp [hname]
    · rw [if_neg hmem, Dict.lookup_set]
      by_cases hname : name = other
      · subst hname
        have hnone : cs.lookup name = none :=
          AList.lookup_eq_none.mpr fun h => hmem (AList.mem_keys.mp h)
        simp [hnone]
      · simp [hname]

/-- All counters are there after filling. -/
theorem lookup_fill (cs : Counters) (name : String) :
    cs.fill.lookup name =
      (cs.lookup name).or
        (if name ∈ allCounters then some ⟨0, defaultSeverity name⟩ else none) := by
  unfold fill
  exact lookup_foldl_fill allCounters cs name

/-- **Filling completes.** -/
theorem complete_fill (cs : Counters) : cs.fill.Complete := by
  intro name hname
  rw [Dict.mem_iff_exists_lookup, lookup_fill, if_pos hname]
  rcases cs.lookup name with _ | c
  · exact ⟨_, rfl⟩
  · exact ⟨c, rfl⟩

theorem defaultSeverity_eq (name : String) :
    defaultSeverity name = 1 ∨ defaultSeverity name = 2 := by
  unfold defaultSeverity
  split_ifs
  · exact Or.inl rfl
  · exact Or.inr rfl

/-- And keeps the counters sane. -/
theorem Sane.fill {cs : Counters} (h : cs.Sane) : cs.fill.Sane := by
  intro name c hc
  rw [lookup_fill] at hc
  rcases hcs : cs.lookup name with _ | d
  · rw [hcs, Option.none_or] at hc
    split_ifs at hc
    obtain rfl := Option.some.inj hc
    exact ⟨le_rfl, defaultSeverity_eq name⟩
  · rw [hcs, Option.some_or] at hc
    obtain rfl := Option.some.inj hc
    exact h name d hcs

theorem sane_empty : Sane ∅ := fun _ _ h => absurd h (by simp)

/-- A sane counter may be written. -/
theorem Sane.set {cs : Counters} (h : cs.Sane) {name : String} {c : Counter} (hval : 0 ≤ c.value)
    (hsev : c.severity = 1 ∨ c.severity = 2) : Sane (Dict.set name c cs) := by
  intro name' c' hc'
  rw [Dict.lookup_set] at hc'
  split_ifs at hc' with hname
  · obtain rfl := Option.some.inj hc'
    exact ⟨hval, hsev⟩
  · exact h name' c' hc'

/-- A sane value is no debt. -/
theorem Sane.value_nonneg {cs : Counters} (h : cs.Sane) (name : String) : 0 ≤ cs.value name := by
  unfold value
  rcases hc : cs.lookup name with _ | c
  · exact le_rfl
  · exact (h name c hc).1

/-- What the accumulator leaves of a counter: the sum, with the severity of the interval. -/
theorem lookup_plus (cs interval : Counters) (name : String) :
    (cs.plus interval).lookup name =
      match interval.lookup name with
      | some c => some ⟨cs.value name + c.value, c.severity⟩
      | none => cs.lookup name := by
  have key : ∀ (l : List (Sigma fun _ : String => Counter)) (cs : Counters), l.NodupKeys →
      (l.foldl (fun cs e =>
        Dict.set e.1 ⟨value cs e.1 + e.2.value, e.2.severity⟩ cs) cs).lookup name =
      match l.dlookup name with
      | some c => some ⟨cs.value name + c.value, c.severity⟩
      | none => cs.lookup name := by
    intro l
    induction l with
    | nil => exact fun _ _ => rfl
    | cons e l ih =>
      intro cs hl
      obtain ⟨k, c⟩ := e
      rw [List.nodupKeys_cons] at hl
      rw [List.foldl_cons, ih _ hl.2]
      by_cases hk : name = k
      · subst hk
        rw [List.dlookup_eq_none.mpr hl.1, List.dlookup_cons_eq, Dict.lookup_set, if_pos rfl]
      · rw [List.dlookup_cons_ne l ⟨k, c⟩ hk, Dict.lookup_set, if_neg hk, value_set, if_neg hk]
  exact key interval.entries cs interval.nodupKeys

/-- Sane counters add up to sane ones. -/
theorem Sane.plus {cs interval : Counters} (h : cs.Sane) (h' : interval.Sane) :
    (cs.plus interval).Sane := by
  intro name c hc
  rw [lookup_plus] at hc
  rcases hi : interval.lookup name with _ | d <;> rw [hi] at hc
  · exact h name c hc
  · obtain rfl := Option.some.inj hc
    obtain ⟨hval, hsev⟩ := h' name d hi
    exact ⟨add_nonneg (h.value_nonneg name) hval, hsev⟩

end Counters

/-! ## Rows and rollups -/

/-- A row whose value is not negative. -/
def Row.Nonneg : Row → Prop
  | counter _ _ value => 0 ≤ value
  | bitrate value => 0 ≤ value
  | packetCount value => 0 ≤ value
  | errorCount value => 0 ≤ value

/-- The accepted rows of a body are not negative. -/
def NonnegBody (b : Builtins) (body : Text) : Prop := ∀ row ∈ accepted b body, row.Nonneg

section Rollup

variable {b : Builtins} {intervalSec : ℤ} {body : Text} {now : ℕ} {snap : Snapshot}

/-- An accepted row is that of a line. -/
theorem exists_of_mem_acceptedLines {lines : List Text} {row : Row}
    (h : row ∈ acceptedLines b lines) :
    ∃ line ∈ lines, parseInfluxLine b line = some (some row) := by
  induction lines with
  | nil => exact absurd h List.not_mem_nil
  | cons line lines ih =>
    unfold acceptedLines at h
    rcases hline : parseInfluxLine b line with _ | _ | row' <;> rw [hline] at h
    · exact absurd h List.not_mem_nil
    · obtain ⟨line', hmem, hrow⟩ := ih h
      exact ⟨line', List.mem_cons_of_mem _ hmem, hrow⟩
    · rcases List.mem_cons.mp h with rfl | h
      · exact ⟨line, List.mem_cons_self, hline⟩
      · obtain ⟨line', hmem, hrow⟩ := ih h
        exact ⟨line', List.mem_cons_of_mem _ hmem, hrow⟩

/-- And of a known counter. -/
theorem known_of_mem_accepted {row : Row} (h : row ∈ accepted b body) : row.Known := by
  obtain ⟨line, -, hrow⟩ := exists_of_mem_acceptedLines h
  exact known_of_parse hrow

/-- **A rollup of such a body is sane and complete.** -/
theorem rollup_sane (hbody : NonnegBody b body) (h : interval b intervalSec body now = some snap) :
    snap.counters.Sane ∧ snap.counters.Complete := by
  unfold interval at h
  rcases hp : parseInfluxBody b body with _ | p <;> rw [hp] at h
  · exact absurd h (by simp)
  · dsimp only at h
    split_ifs at h
    obtain rfl := Option.some.inj h
    refine ⟨Counters.Sane.fill ?_, Counters.complete_fill _⟩
    have hrows : ∀ row ∈ p.counters, 0 ≤ row.value ∧ (row.severity = 1 ∨ row.severity = 2) := by
      intro row hrow
      have hcounters : p.counters = (accepted b body).filterMap Row.counterRow? := by
        rw [parseLines_eq b _ _ p hp, foldl_add]
        rfl
      rw [hcounters, List.mem_filterMap] at hrow
      obtain ⟨r, hr, hrow⟩ := hrow
      have hknown := known_of_mem_accepted hr
      have hnonneg := hbody r hr
      cases r with
      | counter name severity value =>
        obtain rfl := Option.some.inj hrow
        exact ⟨hnonneg, hknown.1⟩
      | bitrate value => exact absurd hrow (by simp [Row.counterRow?])
      | packetCount value => exact absurd hrow (by simp [Row.counterRow?])
      | errorCount value => exact absurd hrow (by simp [Row.counterRow?])
    unfold Counters.ofRows
    have hfold : ∀ (rows : List CounterRow) (cs : Counters), cs.Sane →
        (∀ row ∈ rows, 0 ≤ row.value ∧ (row.severity = 1 ∨ row.severity = 2)) →
        Counters.Sane (rows.foldl (fun cs row =>
          Dict.set row.name ⟨row.value, row.severity⟩ cs) cs) := by
      intro rows
      induction rows with
      | nil => exact fun _ hcs _ => hcs
      | cons row rows ih =>
        intro cs hcs hall
        obtain ⟨hval, hsev⟩ := hall row List.mem_cons_self
        exact ih _ (hcs.set hval hsev) fun r hr => hall r (List.mem_cons_of_mem _ hr)
    exact hfold p.counters ∅ Counters.sane_empty hrows

end Rollup

/-! ## Accumulations -/

/-- What an accumulation makes of the session `old`. -/
structure Accumulated (old new : Snapshot) : Prop where
  /-- All counters of both priorities are there. -/
  complete : new.counters.Complete
  /-- The badge says what the totals say. -/
  badge : (new.worstSeverity = 1 ↔ new.counters.Raised 1) ∧
    (new.worstSeverity = 2 ↔ ¬ new.counters.Raised 1 ∧ new.counters.Raised 2) ∧
    (new.worstSeverity = 0 ↔ ¬ new.counters.Raised 1 ∧ ¬ new.counters.Raised 2)
  /-- No total goes down. -/
  grows : ∀ name, old.counters.value name ≤ new.counters.value name
  /-- A badge of priority 1 stays. -/
  priorityOne : old.worstSeverity = 1 → new.worstSeverity = 1
  /-- A badge of priority 2 does not go out. -/
  priorityTwo : old.worstSeverity = 2 → new.worstSeverity ≠ 0

/-- The condition on a step: what is added does not list, with severity 2, a counter that has a
positive total with severity 1. -/
def KeepsSeverity (s : Stub) : Action → Prop
  | .add i => ∀ snap, s.inHand[i]? = some snap → ∀ name c c',
      s.snapshot.counters.lookup name = some c → c.severity = 1 → 0 < c.value →
      snap.counters.lookup name = some c' → c'.severity = 1
  | _ => True

/-- The invariant: sane counters everywhere, and a badge that says what they say. -/
structure Badged (s : Stub) : Prop where
  /-- Totals are not negative, and their severities are 1 or 2. -/
  sane : s.snapshot.counters.Sane
  /-- The badge is computed from them. -/
  badge : s.snapshot.worstSeverity = s.snapshot.counters.worst
  /-- So it will be from what is in hand. -/
  inHand : ∀ snap ∈ s.inHand, snap.counters.Sane ∧ snap.counters.Complete

section Steps

variable {b : Builtins} {intervalSec : ℤ} {s s' : Stub} {snap : Snapshot}

/-- The session that an interval is added to. -/
theorem sane_session (intervalSec : ℤ) (hs : s.snapshot.counters.Sane) :
    (if s.snapshot.counters = ∅ then emptyEtr290Session intervalSec 0 else s.snapshot).counters.Sane
      ∧ ∀ name c, s.snapshot.counters.lookup name = some c →
        (if s.snapshot.counters = ∅ then emptyEtr290Session intervalSec 0
          else s.snapshot).counters.lookup name = some c := by
  split_ifs with h
  · refine ⟨Counters.sane_empty.fill, fun name c hc => ?_⟩
    rw [h, AList.lookup_empty] at hc
    exact absurd hc (by simp)
  · exact ⟨hs, fun _ _ hc => hc⟩

/-- A counter after an accumulation. -/
theorem accumulate_lookup (snap : Snapshot) (hs : s.snapshot.counters.Sane) {name : String}
    {c : Counter} (hc : s.snapshot.counters.lookup name = some c) :
    (accumulateEtr290Snapshot s.snapshot snap).counters.lookup name =
      some (match snap.counters.lookup name with
        | some c' => ⟨c.value + c'.value, c'.severity⟩
        | none => c) := by
  have hbase := (sane_session (orElse (orElse snap.intervalSec s.snapshot.intervalSec) 2)
    hs).2 name c hc
  show (Counters.fill (Counters.plus _ _)).lookup name = _
  rw [Counters.lookup_fill, Counters.lookup_plus]
  rcases snap.counters.lookup name with _ | c'
  · dsimp only
    rw [hbase, Option.some_or]
  · dsimp only
    rw [Option.some_or, Counters.value, hbase]
    rfl

/-- A positive total stays positive. -/
theorem accumulate_positive (hs : s.snapshot.counters.Sane) (hsnap : snap.counters.Sane)
    {severity : ℤ} (h : s.snapshot.counters.Raised severity) :
    ∃ name c c', s.snapshot.counters.lookup name = some c ∧ c.severity = severity ∧ 0 < c.value ∧
      (accumulateEtr290Snapshot s.snapshot snap).counters.lookup name = some c' ∧ 0 < c'.value ∧
      (c' = c ∨ ∃ d, snap.counters.lookup name = some d ∧ c'.severity = d.severity) := by
  obtain ⟨name, c, hc, hsev, hpos⟩ := h
  have hlookup := accumulate_lookup snap hs hc
  rcases hd : snap.counters.lookup name with _ | d <;> rw [hd] at hlookup
  · exact ⟨name, c, c, hc, hsev, hpos, hlookup, hpos, Or.inl rfl⟩
  · have hval := (hsnap name d hd).1
    exact ⟨name, c, _, hc, hsev, hpos, hlookup, by dsimp only; omega, Or.inr ⟨d, hd, rfl⟩⟩

/-- **An accumulation keeps the counters sane.** -/
theorem accumulate_sane (hs : s.snapshot.counters.Sane) (hsnap : snap.counters.Sane) :
    (accumulateEtr290Snapshot s.snapshot snap).counters.Sane :=
  Counters.Sane.fill (Counters.Sane.plus (sane_session _ hs).1 hsnap)

/-- **One accumulation.** -/
theorem Badged.accumulated (h : Badged s) {i : ℕ} (hi : s.inHand[i]? = some snap)
    (hkeeps : KeepsSeverity s (.add i)) :
    Accumulated s.snapshot (accumulateEtr290Snapshot s.snapshot snap) := by
  have hsnap := (h.inHand snap (List.mem_of_getElem? hi)).1
  have hnew := accumulate_sane h.sane hsnap
  have hworst : (accumulateEtr290Snapshot s.snapshot snap).worstSeverity =
      (accumulateEtr290Snapshot s.snapshot snap).counters.worst := rfl
  refine ⟨Counters.complete_fill _, Counters.worst_eq _, fun name => ?_, fun hone => ?_,
    fun htwo hzero => ?_⟩
  · rw [accumulate_value]
    have hval := hsnap.value_nonneg name
    omega
  · rw [h.badge, (Counters.worst_eq _).1] at hone
    obtain ⟨name, c, c', hc, hsev, hpos, hc', hpos', hd⟩ := accumulate_positive h.sane hsnap hone
    rw [hworst, (Counters.worst_eq _).1]
    refine ⟨name, c', hc', ?_, hpos'⟩
    rcases hd with rfl | ⟨d, hd, hsev'⟩
    · exact hsev
    · rw [hsev']
      exact hkeeps snap hi name c d hc hsev hpos hd
  · rw [h.badge, (Counters.worst_eq _).2.1] at htwo
    rw [hworst, (Counters.worst_eq _).2.2] at hzero
    obtain ⟨name, -, c', -, -, -, hc', hpos', -⟩ := accumulate_positive h.sane hsnap htwo.2
    rcases (hnew name c' hc').2 with hsev | hsev
    · exact hzero.1 ⟨name, c', hc', hsev, hpos'⟩
    · exact hzero.2 ⟨name, c', hc', hsev, hpos'⟩

/-- **Every step keeps the invariant.** -/
theorem badged_step {a : Action} (h : Badged s)
    (hbody : ∀ body now, a = .post body now → NonnegBody b body)
    (hs : step b intervalSec s a = some s') : Badged s' := by
  cases a with
  | post body now =>
    obtain rfl := Option.some.inj hs
    refine ⟨h.sane, h.badge, fun snap hsnap => ?_⟩
    rcases List.mem_append.mp hsnap with hsnap | hsnap
    · exact h.inHand snap hsnap
    · exact rollup_sane (hbody body now rfl) (Option.mem_toList.mp hsnap)
  | add i =>
    obtain ⟨snap, hi, rfl⟩ := Option.map_eq_some_iff.mp hs
    have hsnap := (h.inHand snap (List.mem_of_getElem? hi)).1
    exact ⟨accumulate_sane h.sane hsnap, rfl, fun snap' hsnap' =>
      h.inHand snap' (List.mem_of_mem_eraseIdx hsnap')⟩
  | reset now =>
    obtain rfl := Option.some.inj hs
    refine ⟨Counters.sane_empty.fill, ?_, h.inHand⟩
    refine (Counters.worst_of_zero fun name => ?_).symm
    exact (Counters.value_fill ∅ name).trans (Counters.value_empty name)
  | pidStructure st =>
    obtain rfl := Option.some.inj hs
    exact ⟨h.sane, h.badge, h.inHand⟩

end Steps

/-- The first badge is right. -/
theorem badged_new : Badged Stub.new :=
  ⟨Counters.sane_empty, (Counters.worst_of_zero Counters.value_empty).symm,
    fun _ hmem => absurd hmem List.not_mem_nil⟩

/-! ## Runs -/

/-- **The badge along a run.**  Whatever the order of bodies, handlers, resets and main loop: if
no accepted row is negative, every accumulation of a run that meets the condition has all counters,
a badge that says what they say, totals that do not fall and a badge that does not improve. -/
theorem badge_along (b : Builtins) (intervalSec : ℤ) (as : List Action) (i : ℕ) (s s' : Stub)
    (hbodies : ∀ body now, .post body now ∈ as → NonnegBody b body)
    (hrun : Runs.run (step b intervalSec) Stub.new as = some s)
    (hstep : step b intervalSec s (.add i) = some s') (hkeeps : KeepsSeverity s (.add i)) :
    Accumulated s.snapshot s'.snapshot := by
  have halong : Runs.Along (fun _ a => ∀ body now, a = .post body now → NonnegBody b body)
      (step b intervalSec) Stub.new as := by
    apply Runs.along_of_forall
    rintro t _ ha body now rfl
    exact hbodies body now ha
  have h : Badged s := Runs.run_invariant (fun _ _ _ hI hok hs => badged_step hI hok hs) as
    Stub.new s badged_new halong hrun
  obtain ⟨snap, hi, rfl⟩ := Option.map_eq_some_iff.mp hstep
  exact h.accumulated hi hkeeps

/-- The rollup of a second body is added to a session with errors. -/
theorem badge_along_twoBodies :
    Accumulated (accumulateEtr290Snapshot Stub.new.snapshot singleRollup)
      (accumulateEtr290Snapshot (accumulateEtr290Snapshot Stub.new.snapshot singleRollup)
        nextRollup) := by
  refine badge_along .ascii 2 [.post singleBody 0, .add 0, .post nextBody 2] 0
    ⟨accumulateEtr290Snapshot Stub.new.snapshot singleRollup, [nextRollup],
      [.counter "pid_error" 1 3, .packetCount 50, .counter "crc_error" 2 2,
        .counter "pid_error" 1 1]⟩ ⟨_, [], _⟩ ?_ ?_ rfl ?_
  · intro body now hmem
    have hnonneg : ∀ row ∈ accepted .ascii singleBody ++ accepted .ascii nextBody, row.Nonneg := by
      rw [accepted_singleBody, accepted_nextBody]
      intro row hrow
      fin_cases hrow <;> simp [Row.Nonneg]
    have hbody : (body = singleBody ∧ now = 0) ∨ body = nextBody ∧ now = 2 := by
      simpa using hmem
    rcases hbody with ⟨rfl, -⟩ | ⟨rfl, -⟩
    · exact fun row hrow => hnonneg row (List.mem_append_left _ hrow)
    · exact fun row hrow => hnonneg row (List.mem_append_right _ hrow)
  · simp [step, interval_singleBody, interval_nextBody, accepted_singleBody, accepted_nextBody,
      Stub.new]
  · intro snap hsnap name c c' hc hone hpos hc'
    obtain rfl := Option.some.inj hsnap
    have hsession : (accumulateEtr290Snapshot Stub.new.snapshot singleRollup).counters =
        ((emptyEtr290Session 2 0).counters.plus singleRollup.counters).fill := by
      have hnew : Stub.new.snapshot.counters = ∅ := rfl
      simp only [accumulateEtr290Snapshot, if_pos hnew]
      rfl
    -- The counters that have severity 1 in the session have it in every rollup without rows.
    have hfirst : ∀ e ∈ ((emptyEtr290Session 2 0).counters.plus singleRollup.counters).fill.entries,
        e.2.severity = 1 → e.1 ∈ p1Counters := by decide +kernel
    have hnext : ∀ e ∈ nextRollup.counters.entries, e.1 ∈ p1Counters → e.2.severity = 1 := by
      decide +kernel
    have hname := hfirst ⟨name, c⟩ (Dict.mem_entries_iff.mpr (hsession ▸ hc)) hone
    exact hnext ⟨name, c'⟩ (Dict.mem_entries_iff.mpr hc') hname

/-! ## A badge that improves -/

/-- A P2 counter with severity 1. -/
def raisedBody : Text := "counter,name=crc_error,scope=ts,severity=1 value=3i".toList

/-- A body without a row for it. -/
def quietBody : Text := "counter,name=pid_error,scope=ts,severity=1 value=0i".toList

theorem parse_raisedBody :
    parseInfluxBody .ascii raisedBody = some ⟨[⟨"crc_error", 1, 3⟩], none, none, none⟩ := by
  decide +kernel

theorem accepted_raisedBody : accepted .ascii raisedBody = [.counter "crc_error" 1 3] := by
  decide +kernel

theorem parse_quietBody :
    parseInfluxBody .ascii quietBody = some ⟨[⟨"pid_error", 1, 0⟩], none, none, none⟩ := by
  decide +kernel

theorem accepted_quietBody : accepted .ascii quietBody = [.counter "pid_error" 1 0] := by
  decide +kernel

theorem lookup_ofRows_singleton (row : CounterRow) (name : String) :
    (Counters.ofRows [row]).lookup name =
      if name = row.name then some ⟨row.value, row.severity⟩ else none := by
  unfold Counters.ofRows
  rw [List.foldl_cons, List.foldl_nil, Dict.lookup_set, AList.lookup_empty]

/-- **The badge improves on its own**: 3 errors of severity 1, and then they have severity 2. -/
theorem badge_improves : ¬ ∀ (b : Builtins) (intervalSec : ℤ) (as : List Action) (i : ℕ)
    (s s' : Stub), (∀ body now, .post body now ∈ as → NonnegBody b body) →
    Runs.run (step b intervalSec) Stub.new as = some s →
    step b intervalSec s (.add i) = some s' → Accumulated s.snapshot s'.snapshot := by
  intro h
  set raised := rollupEtr290Snapshot ⟨[⟨"crc_error", 1, 3⟩], none, none, none⟩ 2 0 with hraised
  set quiet := rollupEtr290Snapshot ⟨[⟨"pid_error", 1, 0⟩], none, none, none⟩ 2 1 with hquiet
  set session := accumulateEtr290Snapshot Stub.new.snapshot raised with hsession
  have hpost : interval .ascii 2 raisedBody 0 = some raised := by
    unfold interval
    rw [parse_raisedBody]
    rfl
  have hpost' : interval .ascii 2 quietBody 1 = some quiet := by
    unfold interval
    rw [parse_quietBody]
    rfl
  have hacc := h .ascii 2 [.post raisedBody 0, .add 0, .post quietBody 1] 0
    ⟨session, [quiet], [.counter "crc_error" 1 3, .counter "pid_error" 1 0]⟩
    ⟨accumulateEtr290Snapshot session quiet, [], _⟩ ?_ ?_ rfl
  · -- the session has 3 errors of severity 1
    have hcrc : session.counters.lookup "crc_error" = some ⟨3, 1⟩ := by
      have hr : raised.counters.lookup "crc_error" = some ⟨3, 1⟩ := by
        show (Counters.fill _).lookup _ = _
        rw [Counters.lookup_fill, lookup_ofRows_singleton, if_pos rfl, Option.some_or]
      have hblank : Stub.new.snapshot.counters = ∅ := rfl
      have hzero : (Counters.fill ∅).value "crc_error" = 0 :=
        (Counters.value_fill ∅ _).trans (Counters.value_empty _)
      show (Counters.fill (Counters.plus (if _ then _ else _ : Snapshot).counters _)).lookup _ = _
      rw [if_pos hblank, Counters.lookup_fill, Counters.lookup_plus, hr, Option.some_or]
      show some (⟨(Counters.fill ∅).value "crc_error" + 3, 1⟩ : Counter) = _
      rw [hzero]
      rfl
    have hvalue : ∀ name, name ≠ "crc_error" →
        (accumulateEtr290Snapshot session quiet).counters.value name = 0 := by
      intro name hname
      rw [accumulate_value, accumulate_value, rollup_value, rollup_value, Counters.value,
        Counters.value, Counters.value, lookup_ofRows_singleton, lookup_ofRows_singleton,
        if_neg hname]
      split_ifs <;> rfl
    have hone : session.worstSeverity = 1 :=
      (Counters.worst_eq session.counters).1.mpr ⟨"crc_error", _, hcrc, rfl, by decide⟩
    obtain ⟨name, c, hc, hsev, hpos⟩ := hacc.badge.1.mp (hacc.priorityOne hone)
    by_cases hname : name = "crc_error"
    · -- the quiet interval lists it with severity 2
      subst hname
      have hsane : session.counters.Sane := by
        refine accumulate_sane (s := Stub.new) Counters.sane_empty (Counters.Sane.fill ?_)
        exact Counters.sane_empty.set (by decide) (Or.inl rfl)
      have hlookup := accumulate_lookup (s := ⟨session, [], []⟩) quiet hsane hcrc
      have hq : quiet.counters.lookup "crc_error" = some ⟨0, 2⟩ := by
        show (Counters.fill _).lookup _ = _
        rw [Counters.lookup_fill, lookup_ofRows_singleton, if_neg (by decide), Option.none_or]
        decide
      rw [hq] at hlookup
      obtain rfl := Option.some.inj (hc.symm.trans hlookup)
      exact absurd hsev (by decide)
    · have hval := hvalue name hname
      rw [Counters.value, hc] at hval
      exact absurd hpos (not_lt.mpr (le_of_eq hval))
  · intro body now hmem
    have hcases : body = raisedBody ∨ body = quietBody := by
      simp at hmem
      rcases hmem with ⟨rfl, -⟩ | ⟨rfl, -⟩
      · exact Or.inl rfl
      · exact Or.inr rfl
    intro row hrow
    rcases hcases with rfl | rfl
    · rw [accepted_raisedBody] at hrow
      obtain rfl := List.mem_singleton.mp hrow
      exact (by decide : (0 : ℤ) ≤ 3)
    · rw [accepted_quietBody] at hrow
      obtain rfl := List.mem_singleton.mp hrow
      exact le_refl (0 : ℤ)
  · simp [step, hpost, hpost', Stub.new, accepted_raisedBody, accepted_quietBody, hsession]

end Etr290
