/-
# The receive rate of the SRT child

The pad probe `_on_buf` and the rate that `_write_status` publishes, in exact arithmetic.  The
probe keeps one window; a window ends at the first arrival that is a second or more after its
start, and a gap of more than two seconds starts it anew.  The rate of the last window that
ended is kept over a gap, so a poll within the first second after one publishes it again.

Beside the probe a run keeps the arrivals, the windows they were counted in and the rates that
were stored.
-/
import IngestFarm.Durations
import IngestFarm.Runs

namespace ReceiveRate

open PostProcess (roundHalfEven)

/-- `_RECEIVING_IDLE_SEC`: without a buffer for so long, nothing is being received. -/
def receivingIdleSec : ℚ := 2

/-- `has_data`, `buf_count`, `bytes_total`, `rate_window` and `last_buf_at`. -/
structure Probe where
  hasData : Bool
  bufCount : ℕ
  bytesTotal : ℕ
  windowStart : ℚ
  windowBytes : ℕ
  mbps : ℚ
  lastBufAt : ℚ

/-- The variables as `main` sets them up at the time `t`. -/
def Probe.initial (t : ℚ) : Probe where
  hasData := false
  bufCount := 0
  bytesTotal := 0
  windowStart := t
  windowBytes := 0
  mbps := 0
  lastBufAt := 0

/-- The window is started anew after a gap. -/
def restartWindow (now : ℚ) (p : Probe) : Probe :=
  if receivingIdleSec < now - p.lastBufAt then { p with windowStart := now, windowBytes := 0 }
  else p

/-- The window ends with an arrival at `now`. -/
def endsWindow (now : ℚ) (p : Probe) : Bool := 1 ≤ now - (restartWindow now p).windowStart

/-- `_on_buf`: a buffer is counted, may restart the window, and may end it with a new rate. -/
def onBuf (now : ℚ) (size : ℕ) (p : Probe) : Probe :=
  let p := { p with
    hasData := true
    bufCount := p.bufCount + 1
    bytesTotal := p.bytesTotal + size }
  let p := restartWindow now p
  let p := { p with lastBufAt := now }
  let elapsed := now - p.windowStart
  let p := { p with windowBytes := p.windowBytes + size }
  if 1 ≤ elapsed then
    { p with
      mbps := p.windowBytes * 8 / elapsed / 1000000
      windowStart := now
      windowBytes := 0 }
  else p

/-- `round(x, 3)`: the nearest thousandth, and of two the even one. -/
def round3 (x : ℚ) : ℚ := roundHalfEven (x * 1000) / 1000

/-- What `_write_status` publishes of the probe. -/
structure Status where
  receiving : Bool
  bytesReceivedTotal : ℕ
  receiveRateMbps : ℚ

/-- `_write_status`, as far as the probe goes. -/
def writeStatus (now : ℚ) (p : Probe) : Status :=
  let live := p.hasData && now - p.lastBufAt < receivingIdleSec
  { receiving := live
    bytesReceivedTotal := p.bytesTotal
    receiveRateMbps := if live = true then round3 p.mbps else 0 }

/-! ## Windows -/

/-- A buffer that arrives. -/
structure Arrival where
  time : ℚ
  size : ℕ

/-- A stretch of consecutive arrivals that are counted together, from a start on. -/
structure Window where
  start : ℚ
  buffers : List Arrival

namespace Window

/-- What arrived in a window. -/
def bytes (w : Window) : ℕ := (w.buffers.map Arrival.size).sum

/-- The time of the last arrival that is counted. -/
def finish (w : Window) : ℚ := (w.buffers.getLast?.map Arrival.time).getD w.start

/-- How long it was open. -/
def length (w : Window) : ℚ := w.finish - w.start

/-- The rate over the window in Mbit/s. -/
def rate (w : Window) : ℚ := 8 * w.bytes / (w.length * 10 ^ 6)

/-- No two consecutive arrivals are more than two seconds apart. -/
def Unbroken (buffers : List Arrival) : Prop :=
  buffers.IsChain fun a b => b.time - a.time ≤ 2

end Window

/-- The time of the last arrival, and of the last one that came more than two seconds after
the one before it. -/
def gaps (arrivals : List Arrival) : Option ℚ × Option ℚ :=
  arrivals.foldl (fun acc a =>
    (some a.time, if acc.1.any (fun t => 2 < a.time - t) then some a.time else acc.2)) (none, none)

/-- The end of the most recent gap of more than two seconds. -/
def gapEnd (arrivals : List Arrival) : Option ℚ := (gaps arrivals).2

/-- The time of the last arrival. -/
def lastTime (arrivals : List Arrival) : Option ℚ := (gaps arrivals).1

/-- The window lies after the most recent gap. -/
def AfterGap (arrivals : List Arrival) (w : Window) : Prop :=
  ∀ g, gapEnd arrivals = some g → g ≤ w.start

/-! ## Runs -/

/-- The probe with what has happened: the windows that ended, all stretches of arrivals in
order (with the windows that a gap cut short), and the current one. -/
structure Trace where
  /-- The variables of the child. -/
  probe : Probe
  /-- All buffers so far. -/
  arrivals : List Arrival
  /-- The windows that have ended. -/
  windows : List Window
  /-- Their rates. -/
  stored : List ℚ
  /-- The stretches of buffers between two starts of a window. -/
  counted : List (List Arrival)
  /-- The buffers of the current window. -/
  pending : List Arrival

/-- A probe that has seen nothing. -/
def Trace.initial (t : ℚ) : Trace := ⟨Probe.initial t, [], [], [], [], []⟩

/-- A buffer arrives, or the status is written. -/
inductive Event where
  | arrival (a : Arrival)
  | poll (now : ℚ)

/-- The trace after an arrival. -/
def Trace.record (t : Trace) (a : Arrival) : Trace :=
  let restarts := receivingIdleSec < a.time - t.probe.lastBufAt
  let counted := if restarts then t.counted ++ [t.pending] else t.counted
  let pending := (if restarts then [] else t.pending) ++ [a]
  let probe := onBuf a.time a.size t.probe
  let arrivals := t.arrivals ++ [a]
  if endsWindow a.time t.probe = true then
    { probe := probe
      arrivals := arrivals
      windows := t.windows ++ [⟨(restartWindow a.time t.probe).windowStart, pending⟩]
      stored := t.stored ++ [probe.mbps]
      counted := counted ++ [pending]
      pending := [] }
  else { t with probe := probe, arrivals := arrivals, counted := counted, pending := pending }

/-- One event; the clock does not go back between arrivals. -/
def step (t : Trace) : Event → Option Trace
  | .arrival a =>
    if (lastTime t.arrivals).any (fun last => a.time < last) then none else some (t.record a)
  | .poll _ => some t

/-- **The bytes are counted**: the total is that of all arrivals, the stored rates are those of
the windows that ended, and every arrival is counted once. -/
structure Counted (t : Trace) : Prop where
  /-- The total is that of all buffers. -/
  total : t.probe.bytesTotal = (t.arrivals.map Arrival.size).sum
  /-- The stored rates are those of the windows. -/
  rates : t.stored = t.windows.map Window.rate
  /-- A window lasts a second at least. -/
  long : ∀ w ∈ t.windows, 1 ≤ w.length
  /-- It has no gap. -/
  unbroken : ∀ w ∈ t.windows, Window.Unbroken w.buffers
  /-- Every buffer is in one stretch. -/
  once : t.arrivals = t.counted.flatten ++ t.pending
  /-- The windows are among the stretches. -/
  part : (t.windows.map Window.buffers).Sublist t.counted

/-- **A rate that is published while live** is that of a window after the most recent gap. -/
def Honest (now : ℚ) (t : Trace) : Prop :=
  (writeStatus now t.probe).receiving = true → (writeStatus now t.probe).receiveRateMbps ≠ 0 →
    ∃ w ∈ t.windows, (writeStatus now t.probe).receiveRateMbps = round3 w.rate ∧
      AfterGap t.arrivals w

/-- A status that is written while live finds a second of data after the most recent gap, or a
rate that rounds to zero. -/
def Settled (t : Trace) : Event → Prop
  | .arrival _ => True
  | .poll now => (writeStatus now t.probe).receiving = true → ∀ g, gapEnd t.arrivals = some g →
      (∃ last, lastTime t.arrivals = some last ∧ g + 1 ≤ last) ∨ round3 t.probe.mbps = 0

/-! ## One arrival -/

/-- The state behind the published rate. -/
structure Tracked (t : Trace) : Prop where
  counted : Counted t
  /-- The bytes of the window are those of its buffers. -/
  bytes : t.probe.windowBytes = (t.pending.map Arrival.size).sum
  /-- The rate is that of the last window. -/
  mbps : t.probe.mbps = t.stored.getLastD 0
  /-- The current window has no gap. -/
  pendingUnbroken : Window.Unbroken t.pending
  /-- The time of the last buffer is known. -/
  last : ∀ last, lastTime t.arrivals = some last → t.probe.lastBufAt = last
  /-- It is that of the last buffer of the window. -/
  pendingLast : ∀ a ∈ t.pending.getLast?, lastTime t.arrivals = some a.time
  /-- There was a buffer if the flag says so. -/
  data : t.probe.hasData = true → lastTime t.arrivals ≠ none
  /-- A window began a second or more before the last buffer. -/
  past : ∀ w ∈ t.windows, ∃ last, lastTime t.arrivals = some last ∧ w.start + 1 ≤ last
  /-- The current window begins after the last gap; so does the last one after a second. -/
  gap : ∀ g, gapEnd t.arrivals = some g → g ≤ t.probe.windowStart ∧
    ∃ last, lastTime t.arrivals = some last ∧
      ((t.probe.windowStart = g ∧ last < g + 1 ∧ ∀ w ∈ t.windows, w.start < g) ∨
        (g + 1 ≤ last ∧ ∃ w ∈ t.windows.getLast?, g ≤ w.start))

/-- One buffer more, after a gap or not. -/
theorem gaps_append (l : List Arrival) (a : Arrival) :
    lastTime (l ++ [a]) = some a.time ∧
      gapEnd (l ++ [a]) =
        if (lastTime l).any (fun t => 2 < a.time - t) then some a.time else gapEnd l := by
  unfold lastTime gapEnd gaps
  rw [List.foldl_append]
  exact ⟨rfl, rfl⟩

/-- No buffer yet. -/
theorem lastTime_eq_none {l : List Arrival} (h : lastTime l = none) : l = [] := by
  induction l using List.reverseRecOn with
  | nil => rfl
  | append_singleton l a =>
    rw [(gaps_append l a).1] at h
    exact absurd h (by simp)

section Arrivals

variable {t t' : Trace} {a : Arrival}

/-- **After a gap** a new window starts with the arrival. -/
theorem record_of_gap (h : 2 < a.time - t.probe.lastBufAt) :
    t.record a =
      { t with
        probe := { t.probe with
          hasData := true
          bufCount := t.probe.bufCount + 1
          bytesTotal := t.probe.bytesTotal + a.size
          windowStart := a.time
          windowBytes := a.size
          lastBufAt := a.time }
        arrivals := t.arrivals ++ [a]
        counted := t.counted ++ [t.pending]
        pending := [a] } := by
  have hends : endsWindow a.time t.probe = false := by
    simp [endsWindow, restartWindow, receivingIdleSec, h]
  unfold Trace.record
  rw [hends]
  simp [onBuf, restartWindow, receivingIdleSec, h]

/-- **Within a window** the arrival is counted. -/
theorem record_of_running (h : ¬ 2 < a.time - t.probe.lastBufAt)
    (hends : ¬ 1 ≤ a.time - t.probe.windowStart) :
    t.record a =
      { t with
        probe := { t.probe with
          hasData := true
          bufCount := t.probe.bufCount + 1
          bytesTotal := t.probe.bytesTotal + a.size
          windowBytes := t.probe.windowBytes + a.size
          lastBufAt := a.time }
        arrivals := t.arrivals ++ [a]
        pending := t.pending ++ [a] } := by
  have hfalse : endsWindow a.time t.probe = false := by
    simp [endsWindow, restartWindow, receivingIdleSec, h, hends]
  unfold Trace.record
  rw [hfalse]
  simp [onBuf, restartWindow, receivingIdleSec, h, hends]

/-- **At the end of a window** its rate is stored. -/
theorem record_of_end (h : ¬ 2 < a.time - t.probe.lastBufAt)
    (hends : 1 ≤ a.time - t.probe.windowStart) :
    t.record a =
      { probe :=
          { hasData := true
            bufCount := t.probe.bufCount + 1
            bytesTotal := t.probe.bytesTotal + a.size
            windowStart := a.time
            windowBytes := 0
            mbps := (t.probe.windowBytes + a.size : ℕ) * 8 / (a.time - t.probe.windowStart) /
              1000000
            lastBufAt := a.time }
        arrivals := t.arrivals ++ [a]
        windows := t.windows ++ [⟨t.probe.windowStart, t.pending ++ [a]⟩]
        stored := t.stored ++ [(t.probe.windowBytes + a.size : ℕ) * 8 /
          (a.time - t.probe.windowStart) / 1000000]
        counted := t.counted ++ [t.pending ++ [a]]
        pending := [] } := by
  have htrue : endsWindow a.time t.probe = true := by
    simp [endsWindow, restartWindow, receivingIdleSec, h, hends]
  unfold Trace.record
  rw [htrue]
  simp [onBuf, restartWindow, receivingIdleSec, h, hends]

/-- The total grows by what arrives. -/
theorem sum_sizes_append (l : List Arrival) (a : Arrival) :
    ((l ++ [a]).map Arrival.size).sum = (l.map Arrival.size).sum + a.size := by
  rw [List.map_append, List.sum_append]
  simp

/-- What the test of the probe says of the arrivals: the code and the history agree on gaps. -/
theorem gapEnd_append (h : Tracked t) :
    gapEnd (t.arrivals ++ [a]) =
      if 2 < a.time - t.probe.lastBufAt ∧ t.arrivals ≠ [] then some a.time
      else gapEnd t.arrivals := by
  rw [(gaps_append t.arrivals a).2]
  cases hlast : lastTime t.arrivals with
  | none =>
    have hnil := lastTime_eq_none hlast
    simp [hnil]
  | some last =>
    have hne : t.arrivals ≠ [] := by
      intro hnil
      rw [hnil] at hlast
      exact absurd hlast (by simp [lastTime, gaps])
    rw [h.last last hlast]
    simp [hne]

/-- An arrival after a gap. -/
theorem Tracked.record_of_gap (h : Tracked t) (hgap : 2 < a.time - t.probe.lastBufAt)
    (hclock : ∀ last, lastTime t.arrivals = some last → last ≤ a.time) :
    Tracked (t.record a) := by
  have hgapEnd := gapEnd_append (a := a) h
  rw [ReceiveRate.record_of_gap hgap]
  have hlast : lastTime (t.arrivals ++ [a]) = some a.time := (gaps_append t.arrivals a).1
  -- Every window that was counted is over by the time of this arrival.
  have hpast : ∀ w ∈ t.windows, w.start + 1 ≤ a.time := by
    intro w hw
    obtain ⟨last, hlast', hle⟩ := h.past w hw
    exact hle.trans (hclock last hlast')
  constructor
  · constructor
    · rw [sum_sizes_append, ← h.counted.total]
    · exact h.counted.rates
    · exact h.counted.long
    · exact h.counted.unbroken
    · show t.arrivals ++ [a] = (t.counted ++ [t.pending]).flatten ++ [a]
      rw [h.counted.once]
      simp
    · exact h.counted.part.trans (List.sublist_append_left ..)
  · simp
  · exact h.mbps
  · exact List.IsChain.singleton a
  · intro last hl
    exact Option.some.inj (hlast.symm.trans hl)
  · intro b hb
    obtain rfl := Option.some.inj hb
    exact hlast
  · intro _
    rw [hlast]
    simp
  · intro w hw
    exact ⟨a.time, hlast, hpast w hw⟩
  · intro g hg
    -- The first arrival of all ends no gap.
    by_cases hnil : t.arrivals = []
    · rw [hgapEnd, if_neg (fun hand => hand.2 hnil), hnil] at hg
      exact absurd hg (by simp [gapEnd, gaps])
    · rw [hgapEnd, if_pos ⟨hgap, hnil⟩] at hg
      obtain rfl := Option.some.inj hg
      refine ⟨le_refl _, a.time, hlast, Or.inl ⟨rfl, by linarith, fun w hw => ?_⟩⟩
      have := hpast w hw
      linarith

/-- The pending arrivals and the next one are unbroken when there is no gap. -/
theorem Tracked.unbroken_append (h : Tracked t) (hgap : ¬ 2 < a.time - t.probe.lastBufAt) :
    Window.Unbroken (t.pending ++ [a]) := by
  unfold Window.Unbroken
  rw [List.isChain_append]
  refine ⟨h.pendingUnbroken, List.IsChain.singleton a, fun b hb c hc => ?_⟩
  obtain rfl := Option.some.inj hc
  have hlast := h.last b.time (h.pendingLast b hb)
  rw [hlast] at hgap
  linarith

/-- An arrival within a window. -/
theorem Tracked.record_of_running (h : Tracked t) (hgap : ¬ 2 < a.time - t.probe.lastBufAt)
    (hends : ¬ 1 ≤ a.time - t.probe.windowStart)
    (hclock : ∀ last, lastTime t.arrivals = some last → last ≤ a.time) :
    Tracked (t.record a) := by
  have hgapEnd := gapEnd_append (a := a) h
  have hunbroken := h.unbroken_append hgap
  rw [if_neg fun hand => hgap hand.1] at hgapEnd
  rw [ReceiveRate.record_of_running hgap hends]
  have hlast : lastTime (t.arrivals ++ [a]) = some a.time := (gaps_append t.arrivals a).1
  constructor
  · constructor
    · rw [sum_sizes_append, ← h.counted.total]
    · exact h.counted.rates
    · exact h.counted.long
    · exact h.counted.unbroken
    · show t.arrivals ++ [a] = t.counted.flatten ++ (t.pending ++ [a])
      rw [h.counted.once]
      simp
    · exact h.counted.part
  · rw [sum_sizes_append, ← h.bytes]
  · exact h.mbps
  · exact hunbroken
  · intro last hl
    exact Option.some.inj (hlast.symm.trans hl)
  · intro b hb
    rw [List.getLast?_concat] at hb
    obtain rfl := Option.some.inj hb
    exact hlast
  · intro _
    rw [hlast]
    simp
  · intro w hw
    obtain ⟨last, hlast', hle⟩ := h.past w hw
    exact ⟨a.time, hlast, hle.trans (hclock last hlast')⟩
  · intro g hg
    rw [hgapEnd] at hg
    obtain ⟨hstart, last, hlast', hor⟩ := h.gap g hg
    refine ⟨hstart, a.time, hlast, ?_⟩
    -- The window that began at the gap goes on, or one that began later does.
    rcases hor with ⟨heq, -, hbefore⟩ | ⟨hlate, hw⟩
    · refine Or.inl ⟨heq, ?_, hbefore⟩
      rw [← heq]
      linarith
    · exact Or.inr ⟨hlate.trans (hclock last hlast'), hw⟩

/-- The window that an arrival ends is counted. -/
theorem Tracked.counted_of_end (h : Tracked t) (hgap : ¬ 2 < a.time - t.probe.lastBufAt)
    (hends : 1 ≤ a.time - t.probe.windowStart) : Counted (t.record a) := by
  have hunbroken := h.unbroken_append hgap
  rw [ReceiveRate.record_of_end hgap hends]
  have hlength : (Window.mk t.probe.windowStart (t.pending ++ [a])).length =
      a.time - t.probe.windowStart := by
    simp [Window.length, Window.finish]
  have hbytes : (Window.mk t.probe.windowStart (t.pending ++ [a])).bytes =
      t.probe.windowBytes + a.size := by
    unfold Window.bytes
    rw [sum_sizes_append, ← h.bytes]
  constructor
  · rw [sum_sizes_append, ← h.counted.total]
  -- The division by the length and by a million is the rate of the window.
  · have hrate : ((t.probe.windowBytes + a.size : ℕ) * 8 / (a.time - t.probe.windowStart) /
        1000000 : ℚ) = (Window.mk t.probe.windowStart (t.pending ++ [a])).rate := by
      unfold Window.rate
      rw [hlength, hbytes, div_div]
      norm_num
      ring
    rw [List.map_append, ← h.counted.rates, hrate]
    rfl
  · intro w hw
    rcases List.mem_append.mp hw with hw | hw
    · exact h.counted.long w hw
    · obtain rfl := List.mem_singleton.mp hw
      rw [hlength]
      exact hends
  · intro w hw
    rcases List.mem_append.mp hw with hw | hw
    · exact h.counted.unbroken w hw
    · obtain rfl := List.mem_singleton.mp hw
      exact hunbroken
  · show t.arrivals ++ [a] = (t.counted ++ [t.pending ++ [a]]).flatten ++ []
    rw [h.counted.once]
    simp
  · rw [List.map_append]
    exact h.counted.part.append (List.Sublist.refl _)

/-- An arrival that ends a window. -/
theorem Tracked.record_of_end (h : Tracked t) (hgap : ¬ 2 < a.time - t.probe.lastBufAt)
    (hends : 1 ≤ a.time - t.probe.windowStart)
    (hclock : ∀ last, lastTime t.arrivals = some last → last ≤ a.time) :
    Tracked (t.record a) := by
  have hgapEnd := gapEnd_append (a := a) h
  rw [if_neg fun hand => hgap hand.1] at hgapEnd
  have hcounted := h.counted_of_end hgap hends
  rw [ReceiveRate.record_of_end hgap hends] at hcounted ⊢
  have hlast : lastTime (t.arrivals ++ [a]) = some a.time := (gaps_append t.arrivals a).1
  constructor
  · exact hcounted
  · rfl
  · simp
  · exact List.IsChain.nil
  · intro last hl
    exact Option.some.inj (hlast.symm.trans hl)
  · intro b hb
    exact absurd hb (by simp)
  · intro _
    rw [hlast]
    simp
  · intro w hw
    refine ⟨a.time, hlast, ?_⟩
    rcases List.mem_append.mp hw with hw | hw
    · obtain ⟨last, hlast', hle⟩ := h.past w hw
      exact hle.trans (hclock last hlast')
    · obtain rfl := List.mem_singleton.mp hw
      dsimp only
      linarith
  -- The window that ends here is one that began at the last gap or after it.
  · intro g hg
    rw [hgapEnd] at hg
    obtain ⟨hstart, -⟩ := h.gap g hg
    refine ⟨?_, a.time, hlast, Or.inr ⟨by linarith, _, List.getLast?_concat, hstart⟩⟩
    dsimp only
    linarith

/-- **One event** is tracked. -/
theorem Tracked.step (h : Tracked t) {e : Event} (he : ReceiveRate.step t e = some t') :
    Tracked t' := by
  cases e with
  | poll now =>
    obtain rfl := Option.some.inj he
    exact h
  | arrival a =>
    unfold ReceiveRate.step at he
    dsimp only at he
    by_cases hclock : (lastTime t.arrivals).any (fun last => a.time < last) = true
    · rw [if_pos hclock] at he
      exact absurd he (by simp)
    · rw [if_neg hclock] at he
      obtain rfl := Option.some.inj he
      have hclock' : ∀ last, lastTime t.arrivals = some last → last ≤ a.time := by
        intro last hlast
        rw [hlast] at hclock
        simpa using hclock
      by_cases hgap : 2 < a.time - t.probe.lastBufAt
      · exact h.record_of_gap hgap hclock'
      · by_cases hends : 1 ≤ a.time - t.probe.windowStart
        · exact h.record_of_end hgap hends hclock'
        · exact h.record_of_running hgap hends hclock'

/-- Nothing to track. -/
theorem tracked_initial (start : ℚ) : Tracked (Trace.initial start) := by
  have hnone : ∀ last, lastTime (Trace.initial start).arrivals ≠ some last := by
    intro last
    simp [Trace.initial, lastTime, gaps]
  constructor
  · constructor <;> simp [Trace.initial, Probe.initial]
  · rfl
  · rfl
  · exact List.IsChain.nil
  · intro last hl
    exact absurd hl (hnone last)
  · intro b hb
    exact absurd hb (by simp [Trace.initial])
  · intro hdata
    exact absurd hdata (by simp [Trace.initial, Probe.initial])
  · intro w hw
    exact absurd hw (by simp [Trace.initial])
  · intro g hg
    exact absurd hg (by simp [Trace.initial, gapEnd, gaps])

end Arrivals

/-! ## What is published -/

/-- No rate. -/
theorem round3_zero : round3 0 = 0 := by
  norm_num [round3, roundHalfEven]

/-- **One status** is honest exactly when it is written in a settled state. -/
theorem honest_iff_settled {t : Trace} (h : Tracked t) (now : ℚ) :
    Honest now t ↔ Settled t (.poll now) := by
  have hrate : (writeStatus now t.probe).receiving = true →
      (writeStatus now t.probe).receiveRateMbps = round3 t.probe.mbps := by
    intro hlive
    exact if_pos hlive
  constructor
  · intro hhonest hlive g hg
    obtain ⟨-, last, hlast, ⟨-, -, hbefore⟩ | ⟨hlate, -⟩⟩ := h.gap g hg
    · by_cases hzero : round3 t.probe.mbps = 0
      · exact Or.inr hzero
      · -- No window ended after the gap, so none of them is after it.
        obtain ⟨w, hw, -, hafter⟩ := hhonest hlive (by rw [hrate hlive]; exact hzero)
        have h1 := hbefore w hw
        have h2 := hafter g hg
        linarith
    · exact Or.inl ⟨last, hlast, hlate⟩
  · intro hsettled hlive hne
    rw [hrate hlive] at hne ⊢
    -- A rate other than zero is that of the last window that was counted.
    have hlastWindow : ∃ w, t.windows.getLast? = some w ∧ t.probe.mbps = w.rate := by
      rw [h.mbps, h.counted.rates] at hne ⊢
      cases hl : t.windows.getLast? with
      | none =>
        rw [List.getLast?_eq_none_iff.mp hl] at hne
        exact absurd round3_zero hne
      | some w =>
        refine ⟨w, rfl, ?_⟩
        rw [List.getLastD_eq_getLast?, List.getLast?_map, hl]
        rfl
    obtain ⟨w, hw, hmbps⟩ := hlastWindow
    refine ⟨w, List.mem_of_getLast? hw, by rw [hmbps], fun g hg => ?_⟩
    obtain ⟨last, hlast, hlate⟩ := (hsettled hlive g hg).resolve_right hne
    obtain ⟨-, last', hlast', hor⟩ := h.gap g hg
    obtain rfl := Option.some.inj (hlast.symm.trans hlast')
    rcases hor with ⟨-, hearly, -⟩ | ⟨-, w', hw', hafter⟩
    · linarith
    · obtain rfl := Option.some.inj (hw.symm.trans hw')
      exact hafter

/-- **The receive rate is honest.**  Bytes and windows are always counted right; what is
published while live is honest exactly in the runs whose polls are settled. -/
theorem receive_rate_honest_iff (start : ℚ) (events : List Event) :
    ((∀ pre post t, events = pre ++ post → Runs.run step (Trace.initial start) pre = some t →
        Counted t) ∧
      ∀ pre now post t, events = pre ++ .poll now :: post →
        Runs.run step (Trace.initial start) pre = some t → Honest now t) ↔
      Runs.Along Settled step (Trace.initial start) events := by
  have htracked : ∀ pre t, Runs.run step (Trace.initial start) pre = some t → Tracked t := by
    intro pre t ht
    exact Runs.run_invariant (I := Tracked) (fun _ _ _ hI _ hst => hI.step hst) pre _ t
      (tracked_initial start) (Runs.along_of_forall (fun _ _ _ => trivial) _) ht
  rw [Runs.along_iff]
  constructor
  · rintro ⟨-, h⟩ pre e post t hsplit ht
    cases e with
    | arrival a => trivial
    | poll now => exact (honest_iff_settled (htracked pre t ht) now).mp (h pre now post t hsplit ht)
  · intro h
    refine ⟨fun pre post t _ ht => (htracked pre t ht).counted, fun pre now post t hsplit ht => ?_⟩
    exact (honest_iff_settled (htracked pre t ht) now).mpr (h pre _ post t hsplit ht)

/-! ## A rate from before a gap -/

/-- A second of data, ten seconds of silence and one more buffer. -/
def resumed : List Event :=
  [.arrival ⟨10, 1000000⟩, .arrival ⟨11, 1000000⟩, .arrival ⟨21, 1000⟩]

/-- The rate of the window before the gap is published once the stream is back. -/
theorem stale_rate_published :
    ∃ t, Runs.run step (Trace.initial 0) resumed = some t ∧ gapEnd t.arrivals = some 21 ∧
      (writeStatus 21 t.probe).receiving = true ∧
      (writeStatus 21 t.probe).receiveRateMbps = 16 ∧ ¬ Honest 21 t := by
  have hrun : Runs.run step (Trace.initial 0) resumed = some
      { probe := ⟨true, 3, 2001000, 21, 1000, 16, 21⟩
        arrivals := [⟨10, 1000000⟩, ⟨11, 1000000⟩, ⟨21, 1000⟩]
        windows := [⟨10, [⟨10, 1000000⟩, ⟨11, 1000000⟩]⟩]
        stored := [16]
        counted := [[], [⟨10, 1000000⟩, ⟨11, 1000000⟩], []]
        pending := [⟨21, 1000⟩] } := by
    norm_num [resumed, step, Trace.record, onBuf, restartWindow, endsWindow, receivingIdleSec,
      Trace.initial, Probe.initial, lastTime, gaps]
  have hlive : (writeStatus 21 ⟨true, 3, 2001000, 21, 1000, 16, 21⟩).receiving = true := by
    norm_num [writeStatus, receivingIdleSec]
  have hrate : (writeStatus 21 ⟨true, 3, 2001000, 21, 1000, 16, 21⟩).receiveRateMbps = 16 := by
    norm_num [writeStatus, receivingIdleSec, round3, roundHalfEven]
  refine ⟨_, hrun, by norm_num [gapEnd, gaps], hlive, hrate, fun h => ?_⟩
  obtain ⟨w, hw, -, hafter⟩ := h hlive (by rw [hrate]; norm_num)
  obtain rfl := List.mem_singleton.mp hw
  have hge := hafter 21 (by norm_num [gapEnd, gaps])
  norm_num at hge

end ReceiveRate
