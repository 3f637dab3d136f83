/-
# Durations of assets

`sane_media_ms` and `resolve_asset_duration_ms` of `ingest_farm/postprocess/main.py` with
`playlist_duration_ms` of `ingest_farm/postprocess/proxy.py`, as `_process` combines them.  Times
are microseconds of one clock.  The arithmetic of floats is a parameter; an `int` or a `round` of
an infinity or of a NaN raises.

A playlist goes before the discoverer, and the discoverer before the wall clock unless it says more
than twice as much; a value counts only if it is positive.
-/
import IngestFarm.Etr290

namespace PostProcess

open Etr290

/-- The float operations of the durations. -/
structure FloatOps where
  add : PyFloat → PyFloat → PyFloat
  mul : PyFloat → PyFloat → PyFloat
  trueDiv : ℤ → ℤ → PyFloat

/-- `round(x)`: to the nearest integer, ties to the even one. -/
def roundHalfEven (q : ℚ) : ℤ :=
  if q - ⌊q⌋ < 1 / 2 then ⌊q⌋
  else if 1 / 2 < q - ⌊q⌋ then ⌊q⌋ + 1
  else if ⌊q⌋ % 2 = 0 then ⌊q⌋
  else ⌊q⌋ + 1

/-- `int(round(x))`; `none` where it raises. -/
def roundInt : PyFloat → Option ℤ
  | .finite q => some (roundHalfEven q)
  | _ => none

/-- `_MAX_SANE_DURATION_MS`: longer than any recording, so beyond it a discovered duration is not
believed. -/
def maxSaneDurationMs : ℤ := 12 * 3600 * 1000

section Code

variable (b : Builtins) (ops : FloatOps)

/-- `sane_media_ms`; `none` is an exception. -/
def saneMediaMs (value : Json) : Option (Option ℤ) :=
  match pyInt b value with
  | .overflowError => none
  | .typeOrValueError => some none
  | .number ms => if ms ≤ 0 ∨ maxSaneDurationMs < ms then some none else some (some ms)

/-- The `try` block around the discoverer: `none` for one that raises, else the value at
`"duration_ms"`, which is `None` where there is none. -/
def discoverMs (probe : Option Json) : Option ℤ := ((probe.bind (saneMediaMs b)).getD none)

/-- The seconds of a `#EXTINF:` line; `none` for another line, or where `float` raises. -/
def extinf (line : Text) : Option PyFloat :=
  if "#EXTINF:".toList.isPrefixOf line then
    b.float (PyText.strip (cut ',' ((cut ':' line).2.getD [])).1)
  else none

/-- The times that a playlist lists. -/
def extinfs (text : Text) : List PyFloat := (PyText.splitlines text).filterMap (extinf b)

/-- Their sum, in milliseconds. -/
def totalMs (times : List PyFloat) : PyFloat :=
  ops.mul (times.foldl ops.add (.finite 0)) (.finite 1000)

/-- `playlist_duration_ms` of the text, `none` for no file; the outer `none` is an exception. -/
def playlistDurationMs (playlist : Option Text) : Option (Option ℤ) :=
  match playlist.map (extinfs b) with
  | none => some none
  | some [] => some none
  | some times => (roundInt (totalMs ops times)).map some

/-- `(ended_at - started_at).total_seconds() * 1000`: an exact quotient of microseconds, rounded to
a float, times a thousand. -/
def windowMs (started ended : ℤ) : PyFloat :=
  ops.mul (ops.trueDiv (ended - started) 1000000) (.finite 1000)

/-- `wall_ms` of `_load_recording`; the outer `none` is an exception. -/
def wallMs (started : ℤ) (ended : Option ℤ) : Option (Option ℤ) :=
  match ended with
  | none => some none
  | some ended => (truncate (windowMs ops started ended)).map some

/-- `resolve_asset_duration_ms`: the playlist before the discoverer, and the discoverer before the
wall clock, unless it says more than twice as much. -/
def resolveAssetDurationMs (playlistMs discoverMs wallMs : Option ℤ) : Option ℤ × String :=
  match playlistMs.filter (0 < ·), discoverMs.filter (0 < ·), wallMs with
  | some ms, _, _ => (some ms, "hls_playlist")
  | none, some ms, some wall =>
    if wall * 2 < ms then (some wall, "wall_clock") else (some ms, "discoverer")
  | none, some ms, none => (some ms, "discoverer")
  | none, none, some wall => if 0 < wall then (some wall, "wall_clock") else (none, "unknown")
  | none, none, none => (none, "unknown")

/-- The duration of the asset that `_process` creates, and its source; `none` where an exception
leaves the recording without an asset. -/
def assetDuration (started : ℤ) (ended : Option ℤ) (probe : Option Json)
    (playlist : Option Text) : Option (Option ℤ × String) := do
  let wall ← wallMs ops started ended
  let playlistMs ← playlistDurationMs b ops playlist
  some (resolveAssetDurationMs playlistMs (discoverMs b probe) wall)

end Code

/-- What fits the column `assets.duration_ms`. -/
def Storable (d : Option ℤ × String) : Prop :=
  d = (none, "unknown") ∨ ∃ ms, d.1 = some ms ∧ 0 < ms ∧ ms < 2 ^ 31

/-! ## Numbers -/

/-- The nearest integer, and an even one in a tie. -/
theorem roundHalfEven_spec (q : ℚ) :
    (roundHalfEven q : ℚ) - q ≤ 1 / 2 ∧ q - roundHalfEven q ≤ 1 / 2 ∧
      (|(roundHalfEven q : ℚ) - q| = 1 / 2 → Even (roundHalfEven q)) := by
  have hle := Int.floor_le q
  have hlt := Int.lt_floor_add_one q
  unfold roundHalfEven
  split_ifs with h₁ h₂ h₃
  · refine ⟨by linarith, by linarith, fun h => ?_⟩
    rw [abs_of_nonpos (by linarith)] at h
    linarith
  · push_cast
    refine ⟨by linarith, by linarith, fun h => ?_⟩
    rw [abs_of_nonneg (by linarith)] at h
    linarith
  · exact ⟨by linarith, by linarith, fun _ => Int.even_iff.mpr h₃⟩
  · push_cast
    exact ⟨by linarith, by linarith, fun _ => Int.even_iff.mpr (by omega)⟩

/-- Ties go to the even number below. -/
theorem lt_roundHalfEven_iff {m : ℤ} (hm : Even m) (q : ℚ) :
    m < roundHalfEven q ↔ (m : ℚ) + 1 / 2 < q := by
  obtain ⟨hup, hdown, htie⟩ := roundHalfEven_spec q
  constructor
  · intro h
    have hcast : (m : ℚ) + 1 ≤ roundHalfEven q := by exact_mod_cast Int.add_one_le_of_lt h
    by_contra hn
    -- only the number after `m` is near enough, and it is odd
    have hround : roundHalfEven q = m + 1 := by
      have hlt : (roundHalfEven q : ℚ) < m + 2 := by linarith
      have hlt' : roundHalfEven q < m + 2 := by exact_mod_cast hlt
      omega
    have hodd := htie (by
      rw [hround, abs_of_nonneg] <;> push_cast <;> rw [hround] at hup <;> push_cast at hup <;>
        linarith)
    rw [hround] at hodd
    exact absurd hodd (by simpa [Int.even_add_one] using hm)
  · intro h
    by_contra hn
    have hcast : (roundHalfEven q : ℚ) ≤ m := by exact_mod_cast not_lt.mp hn
    linarith

/-- And to the even number above. -/
theorem roundHalfEven_lt_iff {m : ℤ} (hm : Even m) (q : ℚ) :
    roundHalfEven q < m ↔ q < (m : ℚ) - 1 / 2 := by
  obtain ⟨hup, hdown, htie⟩ := roundHalfEven_spec q
  constructor
  · intro h
    have hcast : (roundHalfEven q : ℚ) + 1 ≤ m := by exact_mod_cast Int.add_one_le_of_lt h
    by_contra hn
    have hround : roundHalfEven q = m - 1 := by
      have hlt : (m : ℚ) - 2 < roundHalfEven q := by linarith
      have hlt' : m - 2 < roundHalfEven q := by exact_mod_cast hlt
      omega
    have hodd := htie (by
      rw [hround, abs_of_nonpos] <;> push_cast <;> rw [hround] at hdown <;> push_cast at hdown <;>
        linarith)
    rw [hround] at hodd
    exact absurd hodd (by simpa [Int.even_sub_one] using hm)
  · intro h
    by_contra hn
    have hcast : (m : ℚ) ≤ roundHalfEven q := by exact_mod_cast not_lt.mp hn
    linarith

/-- Truncation of a positive number is its floor. -/
theorem tdiv_of_nonneg {q : ℚ} (h : 0 ≤ q) : q.num.tdiv q.den = ⌊q⌋ := by
  rw [Int.tdiv_eq_ediv_of_nonneg (Rat.num_nonneg.mpr h), Rat.floor_def']

/-- And of a negative one it is not above zero. -/
theorem tdiv_of_neg {q : ℚ} (h : q < 0) : q.num.tdiv q.den ≤ 0 := by
  have hpos := Int.tdiv_nonneg (a := -q.num) (b := q.den) (by have := Rat.num_neg.mpr h; omega)
    (by omega)
  rw [Int.neg_tdiv] at hpos
  omega

/-- `int` of a float is positive from one on. -/
theorem tdiv_pos_iff (q : ℚ) : 0 < q.num.tdiv q.den ↔ 1 ≤ q := by
  rcases lt_or_ge q 0 with h | h
  · have hle := tdiv_of_neg h
    constructor
    · intro hpos
      omega
    · intro hone
      linarith
  · rw [tdiv_of_nonneg h, Int.floor_pos]

/-- Below a bound before and after truncation. -/
theorem tdiv_lt_iff {m : ℤ} (hm : 0 < m) (q : ℚ) : q.num.tdiv q.den < m ↔ q < m := by
  rcases lt_or_ge q 0 with h | h
  · have hle := tdiv_of_neg h
    have hcast : (0 : ℚ) < m := by exact_mod_cast hm
    exact ⟨fun _ => h.trans hcast, fun _ => by omega⟩
  · rw [tdiv_of_nonneg h, Int.floor_lt]

/-! ## The choice among three times -/

/-- A duration that fits into the column. -/
theorem storable_some {ms : ℤ} {source : String} :
    Storable (some ms, source) ↔ 0 < ms ∧ ms < 2 ^ 31 := by
  unfold Storable
  constructor
  · rintro (h | ⟨n, h, hpos, hlt⟩)
    · exact absurd h (by simp)
    · obtain rfl := Option.some.inj h
      exact ⟨hpos, hlt⟩
  · rintro ⟨hpos, hlt⟩
    exact Or.inr ⟨ms, rfl, hpos, hlt⟩

/-- No duration at all. -/
theorem storable_unknown : Storable (none, "unknown") := Or.inl rfl

/-- **When the choice can be stored**: a sane probe covers a long window, not a reversed one. -/
theorem storable_resolve_iff {playlistMs discoverMs wallMs : Option ℤ}
    (hsane : ∀ ms, discoverMs = some ms → 0 < ms ∧ ms ≤ maxSaneDurationMs) :
    Storable (resolveAssetDurationMs playlistMs discoverMs wallMs) ↔
      (∀ ms, playlistMs = some ms → ms < 2 ^ 31) ∧
      ((∀ ms, playlistMs = some ms → ms ≤ 0) → ∀ wall, wallMs = some wall →
        (discoverMs ≠ none → 0 < wall) ∧ (discoverMs = none → wall < 2 ^ 31)) := by
  -- A positive playlist duration is taken as it is.
  by_cases hlisted : ∃ ms, playlistMs = some ms ∧ 0 < ms
  · obtain ⟨pl, rfl, hpos⟩ := hlisted
    have hres : resolveAssetDurationMs (some pl) discoverMs wallMs =
        (some pl, "hls_playlist") := by
      unfold resolveAssetDurationMs
      rw [Option.filter_some_pos (by simpa using hpos)]
    rw [hres, storable_some]
    constructor
    · rintro ⟨-, hlt⟩
      refine ⟨fun ms h => ?_, fun h => ?_⟩
      · obtain rfl := Option.some.inj h
        exact hlt
      · exact absurd (h pl rfl) (not_le.mpr hpos)
    · rintro ⟨hlt, -⟩
      exact ⟨hpos, hlt pl rfl⟩
  · have hnone : ∀ ms, playlistMs = some ms → ms ≤ 0 := fun ms h =>
      not_lt.mp fun hpos => hlisted ⟨ms, h, hpos⟩
    have hfilter : playlistMs.filter (0 < ·) = none := by
      rw [Option.filter_eq_none_iff]
      intro ms h
      simpa using hnone ms h
    have hbound : ∀ ms, playlistMs = some ms → ms < 2 ^ 31 := fun ms h =>
      (hnone ms h).trans_lt (by decide)
    unfold resolveAssetDurationMs
    rw [hfilter]
    rcases discoverMs with _ | d
    · -- Without a probe the window counts if it is positive.
      rcases wallMs with _ | wall
      · exact ⟨fun _ => ⟨hbound, fun _ _ h => absurd h (by simp)⟩, fun _ => storable_unknown⟩
      · rw [Option.filter_none]
        dsimp only
        split_ifs with hw
        · rw [storable_some]
          refine ⟨fun h => ⟨hbound, fun _ wall' hwall => ?_⟩, fun h => ⟨hw, ?_⟩⟩
          · obtain rfl := Option.some.inj hwall
            exact ⟨fun hne => absurd rfl hne, fun _ => h.2⟩
          · exact (h.2 hnone wall rfl).2 rfl
        · refine ⟨fun _ => ⟨hbound, fun _ wall' hwall => ?_⟩, fun _ => storable_unknown⟩
          obtain rfl := Option.some.inj hwall
          exact ⟨fun hne => absurd rfl hne, fun _ => by omega⟩
    · obtain ⟨hpos, hmax⟩ := hsane d rfl
      have hmax' : d < 2 ^ 31 := hmax.trans_lt (by decide)
      rw [Option.filter_some_pos (by simpa using hpos)]
      rcases wallMs with _ | wall
      · exact ⟨fun _ => ⟨hbound, fun _ _ h => absurd h (by simp)⟩,
          fun _ => storable_some.mpr ⟨hpos, hmax'⟩⟩
      · -- a window under half of the probe is taken, whatever its sign
        have hwall : 0 < wall ↔ (∀ ms, playlistMs = some ms → ms < 2 ^ 31) ∧
            ((∀ ms, playlistMs = some ms → ms ≤ 0) → ∀ wall', some wall = some wall' →
              (some d ≠ none → 0 < wall') ∧ (some d = none → wall' < 2 ^ 31)) := by
          refine ⟨fun hw => ⟨hbound, fun _ wall' h => ?_⟩, fun h => ?_⟩
          · obtain rfl := Option.some.inj h
            exact ⟨fun _ => hw, fun h => absurd h (by simp)⟩
          · exact (h.2 hnone wall rfl).1 (by simp)
        rw [← hwall]
        dsimp only
        split_ifs with hlong
        · rw [storable_some]
          exact ⟨fun h => h.1, fun hw => ⟨hw, by omega⟩⟩
        · rw [storable_some]
          exact ⟨fun _ => by omega, fun _ => ⟨hpos, hmax'⟩⟩

/-! ## The condition -/

section Condition

variable (b : Builtins) (ops : FloatOps)

/-- The discoverer gives a number of milliseconds, positive and not beyond half a day. -/
def Probed (probe : Option Json) : Prop :=
  ∃ value n, probe = some value ∧ pyInt b value = .number n ∧ 0 < n ∧ n ≤ maxSaneDurationMs

/-- The times that the playlist lists, if there is one. -/
def listedTimes (playlist : Option Text) : List PyFloat := (playlist.map (extinfs b)).getD []

/-- The playlist lists more than half a millisecond. -/
def Timed (playlist : Option Text) : Prop :=
  listedTimes b playlist ≠ [] ∧ ∃ q, totalMs ops (listedTimes b playlist) = .finite q ∧ 1 / 2 < q

/-- The times of a recording make a duration for the column. -/
structure Fits (started : ℤ) (ended : Option ℤ) (probe : Option Json)
    (playlist : Option Text) : Prop where
  listed : listedTimes b playlist ≠ [] →
    ∃ q, totalMs ops (listedTimes b playlist) = .finite q ∧ q < 2 ^ 31 - 1 / 2
  window : ∀ e, ended = some e → ∃ q, windowMs ops started e = .finite q ∧
    (¬ Timed b ops playlist → (Probed b probe → 1 ≤ q) ∧ (¬ Probed b probe → q < 2 ^ 31))

variable {b ops} {started : ℤ} {ended : Option ℤ} {probe : Option Json} {playlist : Option Text}

/-- A discovered duration is positive and sane. -/
theorem discoverMs_eq_some {n : ℤ} : discoverMs b probe = some n ↔
    ∃ value, probe = some value ∧ pyInt b value = .number n ∧ 0 < n ∧ n ≤ maxSaneDurationMs := by
  unfold discoverMs
  rcases probe with _ | value
  · simp
  · rw [Option.bind_some]
    unfold saneMediaMs
    rcases hint : pyInt b value with m | _ | _
    · dsimp only
      split_ifs with h
      · constructor
        · intro hn
          exact absurd hn (by simp)
        · rintro ⟨value', hv, hn, hpos, hle⟩
          obtain rfl := Option.some.inj hv
          rw [hint] at hn
          obtain rfl := Conversion.number.inj hn
          omega
      · rw [Option.getD_some, Option.some.injEq]
        constructor
        · rintro rfl
          exact ⟨value, rfl, hint, by omega, by omega⟩
        · rintro ⟨value', hv, hn, -, -⟩
          obtain rfl := Option.some.inj hv
          rw [hint] at hn
          exact Conversion.number.inj hn
    all_goals simp [hint]

/-- And otherwise there is none. -/
theorem discoverMs_eq_none : discoverMs b probe = none ↔ ¬ Probed b probe := by
  rw [Option.eq_none_iff_forall_ne_some]
  constructor
  · rintro h ⟨value, n, hv⟩
    exact h n (discoverMs_eq_some.mpr ⟨value, hv⟩)
  · intro h n hn
    obtain ⟨value, hv⟩ := discoverMs_eq_some.mp hn
    exact h ⟨value, n, hv⟩

/-- A playlist without times has no duration. -/
theorem playlistDurationMs_eq : playlistDurationMs b ops playlist =
    if listedTimes b playlist = [] then some none
    else (roundInt (totalMs ops (listedTimes b playlist))).map some := by
  unfold playlistDurationMs listedTimes
  rcases playlist with _ | text
  · rfl
  · rw [Option.map_some, Option.getD_some]
    rcases extinfs b text with _ | ⟨t, ts⟩ <;> rfl

/-- All three sources, and what is made of them. -/
theorem assetDuration_eq_some {d : Option ℤ × String} :
    assetDuration b ops started ended probe playlist = some d ↔
      ∃ wall pl, wallMs ops started ended = some wall ∧
        playlistDurationMs b ops playlist = some pl ∧
        resolveAssetDurationMs pl (discoverMs b probe) wall = d := by
  unfold assetDuration
  simp [Option.bind_eq_some_iff]

/-- The playlist's part of the condition. -/
theorem playlistDurationMs_eq_some {pl : Option ℤ} :
    playlistDurationMs b ops playlist = some pl ↔
      (listedTimes b playlist = [] ∧ pl = none) ∨ (listedTimes b playlist ≠ [] ∧
        ∃ q, totalMs ops (listedTimes b playlist) = .finite q ∧ pl = some (roundHalfEven q)) := by
  rw [playlistDurationMs_eq]
  split_ifs with h
  · simp [h, eq_comm]
  · rcases totalMs ops (listedTimes b playlist) with q | _ | _ <;>
      simp [h, roundInt, eq_comm]

/-- The wall clock, where there is an end. -/
theorem wallMs_eq_some {wall : Option ℤ} : wallMs ops started ended = some wall ↔
    (ended = none ∧ wall = none) ∨ ∃ e q, ended = some e ∧ windowMs ops started e = .finite q ∧
      wall = some (q.num.tdiv q.den) := by
  unfold wallMs
  rcases ended with _ | e
  · simp [eq_comm]
  · dsimp only
    rcases hw : windowMs ops started e with q | _ | _ <;> simp [truncate, hw, eq_comm]

/-- What the playlist gives is positive if it lists more than half a millisecond. -/
theorem playlist_timed {pl : Option ℤ} (hpl : playlistDurationMs b ops playlist = some pl) :
    (∀ ms, pl = some ms → ms ≤ 0) ↔ ¬ Timed b ops playlist := by
  rcases playlistDurationMs_eq_some.mp hpl with ⟨hnil, rfl⟩ | ⟨hne, q, hq, rfl⟩
  · exact ⟨fun _ ht => ht.1 hnil, fun _ _ h => absurd h (by simp)⟩
  · have hround := lt_roundHalfEven_iff (m := 0) (by decide) q
    rw [Int.cast_zero, zero_add] at hround
    constructor
    · rintro h ⟨-, q', hq', hlt⟩
      rw [hq] at hq'
      obtain rfl := PyFloat.finite.inj hq'
      exact absurd (hround.mpr hlt) (not_lt.mpr (h _ rfl))
    · intro h ms hms
      obtain rfl := Option.some.inj hms
      by_contra hpos
      exact h ⟨hne, q, hq, hround.mp (not_le.mp hpos)⟩

/-- The playlist's duration fits the column. -/
theorem playlist_fits {pl : Option ℤ} (hpl : playlistDurationMs b ops playlist = some pl) :
    (∀ ms, pl = some ms → ms < 2 ^ 31) ↔ (listedTimes b playlist ≠ [] →
      ∃ q, totalMs ops (listedTimes b playlist) = .finite q ∧ q < 2 ^ 31 - 1 / 2) := by
  have hbig : Even (2 ^ 31 : ℤ) := by decide
  rcases playlistDurationMs_eq_some.mp hpl with ⟨hnil, rfl⟩ | ⟨hne, q, hq, rfl⟩
  · exact ⟨fun _ hne => absurd hnil hne, fun _ _ h => absurd h (by simp)⟩
  · constructor
    · intro h _
      have hlt := (roundHalfEven_lt_iff hbig q).mp (h _ rfl)
      exact ⟨q, hq, by exact_mod_cast hlt⟩
    · intro h ms hms
      obtain rfl := Option.some.inj hms
      obtain ⟨q', hq', hlt⟩ := h hne
      rw [hq] at hq'
      obtain rfl := PyFloat.finite.inj hq'
      exact (roundHalfEven_lt_iff hbig q).mpr (by exact_mod_cast hlt)

/-- The clock's window, where it is needed, is not reversed with a sane probe beside it and fits
the column without one. -/
theorem wall_fits {Needed : Prop} {wall : Option ℤ} (hwall : wallMs ops started ended = some wall) :
    (Needed → ∀ w, wall = some w →
      (discoverMs b probe ≠ none → 0 < w) ∧ (discoverMs b probe = none → w < 2 ^ 31)) ↔
    ∀ e, ended = some e → ∃ q, windowMs ops started e = .finite q ∧
      (Needed → (Probed b probe → 1 ≤ q) ∧ (¬ Probed b probe → q < 2 ^ 31)) := by
  rcases wallMs_eq_some.mp hwall with ⟨rfl, rfl⟩ | ⟨e, q, rfl, hq, rfl⟩
  · exact ⟨fun _ e he => absurd he (by simp), fun _ _ w hw => absurd hw (by simp)⟩
  · constructor
    · intro h e' he
      obtain rfl := Option.some.inj he
      refine ⟨q, hq, fun hneeded => ⟨fun hprobed => ?_, fun hprobed => ?_⟩⟩
      · exact (tdiv_pos_iff q).mp ((h hneeded _ rfl).1 fun hnone =>
          discoverMs_eq_none.mp hnone hprobed)
      · have hlt := (h hneeded _ rfl).2 (discoverMs_eq_none.mpr hprobed)
        exact_mod_cast (tdiv_lt_iff (by decide) q).mp hlt
    · intro h hneeded w hw
      obtain rfl := Option.some.inj hw
      obtain ⟨q', hq', hclock⟩ := h e rfl
      rw [hq] at hq'
      obtain rfl := PyFloat.finite.inj hq'
      refine ⟨fun hne => ?_, fun hnone => ?_⟩
      · refine (tdiv_pos_iff q).mpr ((hclock hneeded).1 ?_)
        by_contra hprobed
        exact hne (discoverMs_eq_none.mpr hprobed)
      · exact (tdiv_lt_iff (by decide) q).mpr
          (by exact_mod_cast (hclock hneeded).2 (discoverMs_eq_none.mp hnone))

/-- Times that fit make numbers. -/
theorem Fits.durations (h : Fits b ops started ended probe playlist) :
    (∃ pl, playlistDurationMs b ops playlist = some pl) ∧
      ∃ wall, wallMs ops started ended = some wall := by
  constructor
  · by_cases hnil : listedTimes b playlist = []
    · exact ⟨none, playlistDurationMs_eq_some.mpr (Or.inl ⟨hnil, rfl⟩)⟩
    · obtain ⟨q, hq, -⟩ := h.listed hnil
      exact ⟨_, playlistDurationMs_eq_some.mpr (Or.inr ⟨hnil, q, hq, rfl⟩)⟩
  · rcases ended with _ | e
    · exact ⟨none, rfl⟩
    · obtain ⟨q, hq, -⟩ := h.window e rfl
      exact ⟨_, wallMs_eq_some.mpr (Or.inr ⟨e, q, rfl, hq, rfl⟩)⟩

/-- **A duration can be stored exactly under the condition.** -/
theorem storable_iff (b : Builtins) (ops : FloatOps) (started : ℤ) (ended : Option ℤ)
    (probe : Option Json) (playlist : Option Text) :
    (∃ d, assetDuration b ops started ended probe playlist = some d ∧ Storable d) ↔
      Fits b ops started ended probe playlist := by
  have hsane : ∀ ms, discoverMs b probe = some ms → 0 < ms ∧ ms ≤ maxSaneDurationMs := by
    intro ms h
    obtain ⟨-, -, -, hpos, hle⟩ := discoverMs_eq_some.mp h
    exact ⟨hpos, hle⟩
  constructor
  · rintro ⟨d, hd, hstorable⟩
    obtain ⟨wall, pl, hwall, hpl, rfl⟩ := assetDuration_eq_some.mp hd
    obtain ⟨hlarge, hclock⟩ := (storable_resolve_iff hsane).mp hstorable
    rw [playlist_timed hpl] at hclock
    exact ⟨(playlist_fits hpl).mp hlarge, (wall_fits hwall).mp hclock⟩
  · intro h
    obtain ⟨⟨pl, hpl⟩, wall, hwall⟩ := h.durations
    have hlarge := (playlist_fits hpl).mpr h.listed
    have hclock := (wall_fits hwall).mpr h.window
    rw [← playlist_timed hpl] at hclock
    exact ⟨_, assetDuration_eq_some.mpr ⟨wall, pl, hwall, hpl, rfl⟩,
      (storable_resolve_iff hsane).mpr ⟨hlarge, hclock⟩⟩

end Condition

/-! ## A reversed window -/

/-- Exact arithmetic of finite floats. -/
def FloatOps.exact : FloatOps where
  add
    | .finite p, .finite q => .finite (p + q)
    | _, _ => .nan
  mul
    | .finite p, .finite q => .finite (p * q)
    | _, _ => .nan
  trueDiv m n := .finite (m / n)

/-- **A window of no length is stored as it is**, if the discoverer finds a second of media. -/
theorem reversed_window_is_stored :
    ¬ ∀ (b : Builtins) (ops : FloatOps) (started : ℤ) (ended : Option ℤ) (probe : Option Json)
      (playlist : Option Text),
      ∃ d, assetDuration b ops started ended probe playlist = some d ∧ Storable d := by
  intro h
  obtain ⟨d, hd, hstorable⟩ := h .ascii .exact 0 (some 0) (some (.int 1000)) none
  have hzero : assetDuration .ascii .exact 0 (some 0) (some (.int 1000)) none =
      some (some 0, "wall_clock") := by decide +kernel
  rw [hzero] at hd
  obtain rfl := Option.some.inj hd
  exact absurd (storable_some.mp hstorable).1 (lt_irrefl 0)

end PostProcess
