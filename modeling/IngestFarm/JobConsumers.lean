/-
# The consumers of the job lists

The two loops that live as long as their process: `_connect_jobs` of the worker and the
loop of the post-process worker, both around `blocking_pop`.  A round is the value that
`_running` has when the loop checks it and the reply that Redis would give to the pop.
Only a timeout is caught on the way, so one lost connection or one payload that is not
JSON ends a loop for good; `consume_of_passes` and `consume_of_not_passes` say so for any
body, and the two loops are instances.
-/
import IngestFarm.World

/-- The reply to one `brpop`. -/
inductive Reply where
  | item (raw : Raw)
  | nothing
  | timeout
  | connectionError

/-- One turn of a loop. -/
structure Round where
  running : Bool
  reply : Reply

/-- Where a loop is when the rounds are over. -/
inductive Exit where
  | waiting
  | stopped
  | raised (e : PyError)
  deriving DecidableEq

/-- `blocking_pop`: a timeout and an empty reply are no job, but a lost connection and a payload
that is no JSON leave it as exceptions. -/
def blockingPop (q : Queue) : Reply → Except PyError (Option Json)
  | .item (.json v) => .ok (some v)
  | .item .invalid => .error .jsonDecode
  | .nothing => .ok none
  | .timeout => .ok none
  | .connectionError => .error (.external (.redisPop q))

/-- `while self._running: job = blocking_pop(queue); if job: hand(job)`.  The jobs handed
over so far are the accumulator. -/
def consume (q : Queue) (hand : List Json → Json → Except PyError Unit) :
    List Round → List Json → List Json × Exit
  | [], handed => (handed, .waiting)
  | r :: rs, handed =>
    if r.running = false then (handed, .stopped)
    else
      match blockingPop q r.reply with
      | .error e => (handed, .raised e)
      | .ok none => consume q hand rs handed
      | .ok (some v) =>
        if v.truthy = true then
          match hand handed v with
          | .error e => (handed ++ [v], .raised e)
          | .ok () => consume q hand rs (handed ++ [v])
        else consume q hand rs handed

/-- `_connect_jobs`: `GLib.idle_add` only queues the callback. -/
def connectJobs (rounds : List Round) : List Json × Exit :=
  consume .connect (fun _ _ => .ok ()) rounds []

/-- `_process` up to its parameter: `catalog` is what becomes of a recording id after the
jobs before it. -/
def process (catalog : List Json → Json → Option PyError) (handed : List Json) (job : Json) :
    Except PyError Unit :=
  match job with
  | .obj fields =>
    match Json.field? "recording_id" fields with
    | none => .error .keyError
    | some id =>
      match catalog handed id with
      | none => .ok ()
      | some e => .error e
  | _ => .error .typeError

/-- `try: self._process(job)`; the report in the `except` branch calls `job.get`. -/
def processOrReport (catalog : List Json → Json → Option PyError) (handed : List Json)
    (job : Json) : Except PyError Unit :=
  match process catalog handed job with
  | .ok () => .ok ()
  | .error _ =>
    match job with
    | .obj _ => .ok ()
    | _ => .error .attributeError

/-- The loop of `PostProcessWorker.run`. -/
def postProcessJobs (catalog : List Json → Json → Option PyError) (rounds : List Round) :
    List Json × Exit :=
  consume .postprocess (processOrReport catalog) rounds []

/-! ## What a loop should do -/

/-- The rounds before the loop is told to stop. -/
def liveRounds (rounds : List Round) : List Round := rounds.takeWhile Round.running

/-- The payload of a reply. -/
def Reply.payload? : Reply → Option Json
  | .item (.json v) => some v
  | _ => none

/-- The payloads that Redis has given away. -/
def poppedJobs (rounds : List Round) : List Json :=
  (liveRounds rounds).filterMap fun r => r.reply.payload?

/-- A job object that names its subject. -/
def wellFormed (key : String) : Json → Bool
  | .obj fields => (Json.field? key fields).isSome
  | _ => false

/-- The loop left only because it was told to, and its handler got the well-formed jobs, each
once and in the order popped. -/
structure Survives (key : String) (rounds : List Round) (out : List Json × Exit) : Prop where
  exit : out.2 = if ∃ r ∈ rounds, r.running = false then .stopped else .waiting
  jobs : out.1.filter (wellFormed key) = (poppedJobs rounds).filter (wellFormed key)

/-! ## The loop -/

section Loop

variable {q : Queue} {hand : List Json → Json → Except PyError Unit} {passes : Json → Prop}

/-- The reply does not end the loop, for a body that raises exactly on the jobs that do not
pass. -/
def Reply.Passes (passes : Json → Prop) : Reply → Prop
  | .item (.json v) => v.truthy = true → passes v
  | .item .invalid => False
  | .nothing => True
  | .timeout => True
  | .connectionError => False

theorem liveRounds_cons {r : Round} (rs : List Round) (h : r.running = true) :
    liveRounds (r :: rs) = r :: liveRounds rs := by
  rw [liveRounds, List.takeWhile_cons_of_pos h, liveRounds]

theorem liveRounds_stop {r : Round} (rs : List Round) (h : r.running = false) :
    liveRounds (r :: rs) = [] := by
  rw [liveRounds, List.takeWhile_cons_of_neg (by simp [h])]

/-- **A loop whose replies all pass** hands over every truthy payload. -/
theorem consume_of_passes (hhand : ∀ handed v, hand handed v = .ok () ↔ passes v) :
    ∀ (rounds : List Round) (handed : List Json),
      (∀ r ∈ liveRounds rounds, r.reply.Passes passes) →
      consume q hand rounds handed = (handed ++ (poppedJobs rounds).filter Json.truthy,
        if ∃ r ∈ rounds, r.running = false then .stopped else .waiting) := by
  intro rounds
  induction rounds with
  | nil => intro handed _; simp [consume, poppedJobs, liveRounds]
  | cons r rs ih =>
    intro handed hpass
    by_cases hrun : r.running = true
    · rw [liveRounds_cons rs hrun] at hpass
      have hr := hpass r (List.mem_cons_self ..)
      have hrs := fun handed => ih handed fun x hx => hpass x (List.mem_cons_of_mem _ hx)
      have hpop : poppedJobs (r :: rs) = r.reply.payload?.toList ++ poppedJobs rs := by
        rw [poppedJobs, liveRounds_cons rs hrun, List.filterMap_cons, poppedJobs]
        cases r.reply.payload? <;> rfl
      have hany : (∃ x ∈ r :: rs, x.running = false) ↔ ∃ x ∈ rs, x.running = false := by
        simp [hrun]
      simp only [consume, hrun, hpop, hany]
      rcases hreply : r.reply with (_ | v) | _ | _ | _ <;> rw [hreply] at hr
      · exact hr.elim
      · by_cases hv : v.truthy = true
        · simp [blockingPop, Reply.payload?, hv, (hhand handed v).mpr (hr hv), hrs]
        · simp [blockingPop, Reply.payload?, hv, hrs]
      · simp [blockingPop, Reply.payload?, hrs]
      · simp [blockingPop, Reply.payload?, hrs]
      · exact hr.elim
    · have hstop : r.running = false := Bool.eq_false_iff.mpr hrun
      simp [consume, poppedJobs, liveRounds_stop rs hstop, hstop]

/-- **A loop with a reply that does not pass** dies of it. -/
theorem consume_of_not_passes (hhand : ∀ handed v, hand handed v = .ok () ↔ passes v) :
    ∀ (rounds : List Round) (handed : List Json),
      (∃ r ∈ liveRounds rounds, ¬ r.reply.Passes passes) →
      ∃ e, (consume q hand rounds handed).2 = .raised e := by
  intro rounds
  induction rounds with
  | nil => rintro handed ⟨r, hr, -⟩; exact absurd hr (by simp [liveRounds])
  | cons r rs ih =>
    rintro handed ⟨x, hx, hno⟩
    by_cases hrun : r.running = true
    · rw [liveRounds_cons rs hrun, List.mem_cons] at hx
      have hlater : r.reply.Passes passes → ∃ x ∈ liveRounds rs, ¬ x.reply.Passes passes := by
        intro hr
        rcases hx with rfl | hx
        · exact absurd hr hno
        · exact ⟨x, hx, hno⟩
      simp only [consume, hrun]
      rcases hreply : r.reply with (_ | v) | _ | _ | _ <;> rw [hreply] at hlater
      · exact ⟨_, rfl⟩
      · by_cases hv : v.truthy = true
        · cases hh : hand handed v with
          | error e => exact ⟨e, by simp [blockingPop, hv, hh]⟩
          | ok _ =>
            simp only [blockingPop, hv, hh]
            exact ih _ (hlater fun _ => (hhand handed v).mp hh)
        · simp only [blockingPop, hv]
          exact ih _ (hlater fun h => absurd h hv)
      · exact ih _ (hlater trivial)
      · exact ih _ (hlater trivial)
      · exact ⟨_, rfl⟩
    · rw [liveRounds_stop rs (Bool.eq_false_iff.mpr hrun)] at hx
      exact absurd hx (by simp)

/-- A well-formed job is truthy. -/
theorem truthy_of_wellFormed {key : String} {v : Json} (h : wellFormed key v = true) :
    v.truthy = true := by
  cases v with
  | obj fields =>
    cases fields with
    | nil => simp [wellFormed, Json.field?] at h
    | cons f fs => rfl
  | _ => simp [wellFormed] at h

/-- **What a loop should do, it does exactly while every reply passes.** -/
theorem survives_consume_iff {key : String}
    (hhand : ∀ handed v, hand handed v = .ok () ↔ passes v) (rounds : List Round) :
    Survives key rounds (consume q hand rounds []) ↔
      ∀ r ∈ liveRounds rounds, r.reply.Passes passes := by
  constructor
  · intro h
    by_contra hno
    push Not at hno
    obtain ⟨e, he⟩ := consume_of_not_passes (q := q) hhand rounds [] hno
    have hexit := h.exit
    rw [he] at hexit
    split at hexit <;> exact absurd hexit (by simp)
  · intro hpass
    rw [consume_of_passes hhand rounds [] hpass]
    refine ⟨rfl, ?_⟩
    rw [List.nil_append, List.filter_filter]
    refine List.filter_congr fun v _ => ?_
    cases hw : wellFormed key v with
    | false => rfl
    | true => simp [truthy_of_wellFormed hw]

end Loop

/-! ## The two loops -/

/-- The body of the post-process loop survives every object, whatever `_process` does. -/
theorem processOrReport_eq_ok (catalog : List Json → Json → Option PyError) (handed : List Json)
    (v : Json) : processOrReport catalog handed v = .ok () ↔ ∃ fields, v = .obj fields := by
  unfold processOrReport
  cases v with
  | obj fields =>
    cases process catalog handed (.obj fields) <;> simp
  | _ => simp [process]

/-- **The two consumers survive exactly the harmless replies**: no lost connection, no payload
that is not JSON, and for the post-process worker no other truthy payload than an object. -/
theorem consumers_survive_iff (catalog : List Json → Json → Option PyError)
    (rounds : List Round) :
    (Survives "channel_id" rounds (connectJobs rounds) ↔
        ∀ r ∈ liveRounds rounds, r.reply.Passes fun _ => True) ∧
      (Survives "recording_id" rounds (postProcessJobs catalog rounds) ↔
        ∀ r ∈ liveRounds rounds, r.reply.Passes fun v => ∃ fields, v = .obj fields) :=
  ⟨survives_consume_iff (fun _ _ => by simp) rounds,
    survives_consume_iff (processOrReport_eq_ok catalog) rounds⟩

/-- A job that arrives after Redis was restarted: nobody consumes it. -/
theorem consumers_lose_job_after_restart :
    ¬ ∀ (catalog : List Json → Json → Option PyError) (rounds : List Round),
      Survives "channel_id" rounds (connectJobs rounds) ∧
        Survives "recording_id" rounds (postProcessJobs catalog rounds) := by
  intro h
  have hjobs := (h (fun _ _ => none) [⟨true, .connectionError⟩,
    ⟨true, .item (.json (.obj [("channel_id", .str "a")]))⟩]).1.jobs
  have hlen : 0 = 1 := congrArg List.length hjobs
  exact absurd hlen (by decide)
