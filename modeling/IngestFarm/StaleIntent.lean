/-
# A request and a worker that write the same status

The steps of one scheduler request, in their own transactions, interleaved with commits of
the worker on the same channel.  The request reads the status, commits its intent, publishes
and, if the publish fails, commits the status it has read; nothing checks that the row is
still as it was read.  `log` keeps the reads and commits, the newest first, so that a commit
stands directly before the one it replaces.

An intent that equals the status as read is not written at all: the ORM only updates columns
that have changed.

The condition (`InTime`) is one on the schedule, where the log plays no part: a flag follows the
run, lowered by a commit of the worker and raised by a read or a commit of the request, and it must
be up whenever the request commits.
-/
import IngestFarm.Rejections
import IngestFarm.Runs

open Prog

/-- The guard of an operation; `srt` says that the channel's protocol is SRT. -/
def Operation.accepts (srt : Bool) : Operation → ChannelStatus → Bool
  | request r, st => r.accepts st
  | resetEtr290, st =>
    srt && (st ∈ [.connecting, .connected, .recording, .starting, .stopping] : Bool)

/-- The status a request commits before it publishes, if it has one to commit. -/
def Operation.newStatus : Operation → ChannelStatus → Option ChannelStatus
  | request .connect, _ => some .connecting
  | request .disconnect, _ => some .disconnecting
  | request .startRecording, .connected => some .starting
  | request .startRecording, _ => none
  | request .stopRecording, _ => some .stopping
  | resetEtr290, _ => none

namespace StaleIntent

/-- Where a request is.  `more` says that it is the auto-connect of `start_recording`. -/
inductive Phase where
  /-- Before the read of the row. -/
  | reading
  /-- It has read the row and will commit an intent, or nothing. -/
  | committing (loaded : ChannelStatus) (newStatus : Option ChannelStatus) (more : Bool)
  /-- It has committed and will publish. -/
  | publishing (previous : ChannelStatus) (newStatus : Option ChannelStatus) (more : Bool)
  /-- The publish has failed: it will write the status back. -/
  | undoing (previous : ChannelStatus)
  /-- The connect job is queued: it will read the row again for the record start. -/
  | rereading
  /-- It is over. -/
  | finished
  deriving DecidableEq

/-- What happens to the row. -/
inductive Entry where
  /-- The request has read the row. -/
  | read
  /-- The worker has committed a status. -/
  | worker (st : ChannelStatus)
  /-- The request has. -/
  | request (st : ChannelStatus)
  deriving DecidableEq

structure Race where
  /-- The status of the row. -/
  status : ChannelStatus
  /-- Where the request is. -/
  phase : Phase
  /-- What has happened to the row, the newest first. -/
  log : List Entry
  deriving DecidableEq

/-- A commit of the worker, or the next step of the request; `published` is the outcome of
the publish, if that is the step. -/
inductive Action where
  /-- The worker commits a status. -/
  | worker (st : ChannelStatus)
  /-- The request takes its next step. -/
  | request (published : Bool)

namespace Race

/-- Before a request for a channel. -/
def init (st : ChannelStatus) : Race := ⟨st, .reading, []⟩

/-- The status that the request is about to write. -/
def writes (s : Race) : Option ChannelStatus :=
  match s.phase with
  | .committing loaded (some st) _ => if st = loaded then none else some st
  | .undoing previous => some previous
  | _ => none

/-- The row after the next commit of the request. -/
def write (s : Race) (phase : Phase) : Race :=
  match s.writes with
  | none => { s with phase := phase }
  | some st => ⟨st, phase, .request st :: s.log⟩

/-- The next step of the request reads the row, or commits to it. -/
def touches (s : Race) : Bool :=
  match s.phase with
  | .reading | .rereading => true
  | _ => s.writes.isSome

/-- The row has been read. -/
def read (s : Race) (phase : Phase) : Race := ⟨s.status, phase, .read :: s.log⟩

end Race

/-- One step. -/
def step (op : Operation) (srt : Bool) (s : Race) : Action → Option Race
  | .worker st => some { s with status := st, log := .worker st :: s.log }
  | .request published =>
    match s.phase with
    | .reading =>
      if op.accepts srt s.status = false then some (s.read .finished)
      else if op = .request .startRecording ∧ s.status = .idle then
        some (s.read (.committing s.status (some .connecting) true))
      else some (s.read (.committing s.status (op.newStatus s.status) false))
    | .committing loaded newStatus more => some (s.write (.publishing loaded newStatus more))
    | .publishing previous newStatus more =>
      if published = true then
        some { s with phase := if more = true then .rereading else .finished }
      else some { s with phase := if newStatus = none then .finished else .undoing previous }
    | .undoing _ => some (s.write .finished)
    | .rereading =>
      if s.status ∉ [.connected, .connecting, .starting] then some (s.read .finished)
      else some (s.read (.committing s.status (op.newStatus s.status) false))
    | .finished => none

/-- No commit of the request directly replaces one that the worker made after the read. -/
def Kept (log : List Entry) : Prop :=
  log.IsChain fun newer older => ¬ ((∃ st, newer = .request st) ∧ ∃ st, older = .worker st)

/-- Whether the request knows the row after a step: a commit of the worker is news to it until it
reads the row or commits. -/
def knowsAfter (s : Race) (knows : Bool) : Action → Bool
  | .worker _ => false
  | .request _ => knows || s.touches

/-- **No stale write in a schedule**: whenever the request commits, the worker has not committed
since the request last read the row or committed. -/
def InTime (op : Operation) (srt : Bool) : Bool → Race → List Action → Prop
  | _, _, [] => True
  | knows, s, a :: as =>
    ((∃ published, a = .request published) → s.writes ≠ none → knows = true) ∧
      ∀ s', step op srt s a = some s' → InTime op srt (knowsAfter s knows a) s' as

/-! ## Every interleaving -/

section Interleavings

variable {op : Operation} {srt : Bool} {s s' : Race} {a : Action} {knows : Bool}

/-- The worker has not committed anything since the request has read the row, or written it. -/
def Current (s : Race) : Prop := ∀ st, s.log.head? ≠ some (.worker st)

/-- The condition on a step: what the request is about to replace is what it has seen. -/
def Undisturbed (s : Race) : Action → Prop
  | .worker _ => True
  | .request _ => s.writes ≠ none → Current s

theorem kept_cons_read {log : List Entry} : Kept (.read :: log) ↔ Kept log := by
  cases log with
  | nil => simp [Kept]
  | cons e log => simp [Kept]

theorem kept_cons_worker {st : ChannelStatus} {log : List Entry} :
    Kept (.worker st :: log) ↔ Kept log := by
  cases log with
  | nil => simp [Kept]
  | cons e log => simp [Kept]

theorem kept_cons_request {st : ChannelStatus} {log : List Entry} :
    Kept (.request st :: log) ↔ Kept log ∧ ∀ st', log.head? ≠ some (.worker st') := by
  cases log with
  | nil => simp [Kept]
  | cons e log =>
    simp only [Kept, List.isChain_cons_cons, List.head?_cons]
    rw [and_comm]
    refine and_congr_right fun _ => ?_
    constructor
    · intro h st' he
      exact h ⟨⟨st, rfl⟩, st', Option.some.inj he⟩
    · rintro h ⟨-, st', rfl⟩
      exact h st' rfl

/-- A commit of the request. -/
theorem kept_write (phase : Phase) :
    Kept (s.write phase).log ↔ Kept s.log ∧ (s.writes ≠ none → Current s) := by
  unfold Race.write
  cases hw : s.writes with
  | none => simp
  | some st =>
    rw [kept_cons_request]
    simp [Current]

/-- **What a step of the request can do**: read, commit, or neither. -/
theorem request_cases {published : Bool} (h : step op srt s (.request published) = some s') :
    (s.touches = true ∧ s.writes = none ∧ ∃ phase, s' = s.read phase) ∨
    (s.touches = s.writes.isSome ∧ ∃ phase, s' = s.write phase) ∨
    (s.touches = false ∧ s.writes = none ∧ s'.log = s.log) := by
  unfold step at h
  cases hp : s.phase with
  | reading =>
    have htouches : s.touches = true := by simp [Race.touches, hp]
    have hw : s.writes = none := by simp [Race.writes, hp]
    simp only [hp] at h
    refine Or.inl ⟨htouches, hw, ?_⟩
    split_ifs at h <;> exact ⟨_, (Option.some.inj h).symm⟩
  | committing loaded newStatus more =>
    simp only [hp] at h
    exact Or.inr (Or.inl ⟨by simp [Race.touches, hp], _, (Option.some.inj h).symm⟩)
  | publishing previous newStatus more =>
    have hw : s.writes = none := by simp [Race.writes, hp]
    have htouches : s.touches = false := by simp [Race.touches, hp, hw]
    simp only [hp] at h
    refine Or.inr (Or.inr ⟨htouches, hw, ?_⟩)
    split_ifs at h <;> rw [← Option.some.inj h]
  | undoing previous =>
    simp only [hp] at h
    exact Or.inr (Or.inl ⟨by simp [Race.touches, hp], _, (Option.some.inj h).symm⟩)
  | rereading =>
    have htouches : s.touches = true := by simp [Race.touches, hp]
    have hw : s.writes = none := by simp [Race.writes, hp]
    simp only [hp] at h
    refine Or.inl ⟨htouches, hw, ?_⟩
    split_ifs at h <;> exact ⟨_, (Option.some.inj h).symm⟩
  | finished =>
    simp only [hp] at h
    cases h

/-- **One step** keeps what the worker has achieved exactly when it is undisturbed. -/
theorem kept_step (h : step op srt s a = some s') :
    Kept s'.log ↔ Kept s.log ∧ Undisturbed s a := by
  cases a with
  | worker st =>
    obtain rfl := Option.some.inj h
    rw [kept_cons_worker]
    simp [Undisturbed]
  | request published =>
    rcases request_cases h with ⟨-, hw, phase, rfl⟩ | ⟨-, phase, rfl⟩ | ⟨-, hw, hlog⟩
    · rw [Race.read, kept_cons_read]
      simp [Undisturbed, hw]
    · exact kept_write phase
    · rw [hlog]
      simp [Undisturbed, hw]

/-- The flag says whether the log ends with a commit of the worker. -/
theorem knows_step (hknows : knows = true ↔ Current s) (h : step op srt s a = some s') :
    knowsAfter s knows a = true ↔ Current s' := by
  cases a with
  | worker st =>
    obtain rfl := Option.some.inj h
    simp [knowsAfter, Current]
  | request published =>
    rcases request_cases h with ⟨htouches, -, phase, rfl⟩ | ⟨htouches, phase, rfl⟩ |
      ⟨htouches, -, hlog⟩
    · simp [knowsAfter, htouches, Race.read, Current]
    · rw [knowsAfter, htouches, Race.write]
      cases hw : s.writes with
      | none => simpa [Current] using hknows
      | some st => simp [Current]
    · rw [knowsAfter, htouches, Bool.or_false, hknows, Current, Current, hlog]

/-- The schedule against the log. -/
theorem inTime_iff : ∀ (as : List Action) {s : Race} {knows : Bool},
    (knows = true ↔ Current s) →
      (InTime op srt knows s as ↔ Runs.Along Undisturbed (step op srt) s as) := by
  intro as
  induction as with
  | nil => exact fun _ => Iff.rfl
  | cons a as ih =>
    intro s knows hknows
    refine and_congr ?_ (forall_congr' fun s' => forall_congr' fun hstep =>
      ih (knows_step hknows hstep))
    cases a with
    | worker st => simp [Undisturbed]
    | request published => simp [Undisturbed, hknows]

/-- From steps to runs. -/
theorem kept_run : ∀ (as : List Action) (s s' : Race), Runs.run (step op srt) s as = some s' →
    (Kept s'.log ↔ Kept s.log ∧ Runs.Along Undisturbed (step op srt) s as) := by
  intro as
  induction as with
  | nil =>
    intro s s' h
    rw [Runs.run_nil, Option.some.injEq] at h
    simp [h, Runs.Along]
  | cons a as ih =>
    intro s s' h
    rw [Runs.run_cons, Option.bind_eq_some_iff] at h
    obtain ⟨t, ht, h⟩ := h
    rw [ih t s' h, kept_step ht, and_assoc]
    refine and_congr_right fun _ => and_congr_right fun _ => ?_
    constructor
    · intro hal s₁ hs₁
      exact Option.some.inj (ht.symm.trans hs₁) ▸ hal
    · exact fun hal => hal t ht

end Interleavings

/-! ## The request alone -/

/-- The status an operation leaves when nobody interferes; `first` and `second` are the
outcomes of its publishes. -/
def solo (op : Operation) (srt first : Bool) (st : ChannelStatus) : ChannelStatus :=
  if op.accepts srt st = false then st
  else if first = true then
    if op = .request .startRecording ∧ st = .idle then .connecting else op.intent st
  else st

/-- The steps of a request that nobody interferes with. -/
def script (op : Operation) (srt first second : Bool) (st : ChannelStatus) : List Action :=
  if op.accepts srt st = false then [.request true]
  else if op = .request .startRecording ∧ st = .idle then
    if first = true then
      [.request true, .request true, .request true, .request true, .request true, .request second]
    else [.request true, .request true, .request false, .request true]
  else if first = true ∨ op.newStatus st = none then
    [.request true, .request true, .request first]
  else [.request true, .request true, .request false, .request true]

/-- Alone, the steps lead to `solo`. -/
theorem run_script (op : Operation) (srt first second : Bool) (st : ChannelStatus) :
    ∃ s', Runs.run (step op srt) (Race.init st) (script op srt first second st) = some s' ∧
      s'.phase = .finished ∧ s'.status = solo op srt first st := by
  cases op with
  | resetEtr290 => cases srt <;> cases first <;> cases st <;> exact ⟨_, rfl, rfl, rfl⟩
  | request r =>
    cases r <;> cases st <;> cases first <;> cases second <;> exact ⟨_, rfl, rfl, rfl⟩

section Program

variable {up : Queue → Bool} {op : Operation} {w : World} {c : ChannelId} {ch : Channel}

/-- The status after a publish and the undoing of a failed one. -/
theorem wp_solo {q : Queue} {payload : Json} {newStatus : Option ChannelStatus} {n : ℕ}
    (hst : w.db.status c = some ch.status) {first : Bool} (hfirst : up q = first) :
    wp (publishing up) (Scheduler.commitThenPublish c ch.status q payload newStatus)
      (fun _ _ w' => w'.db.status c =
        some (if first = true then newStatus.getD ch.status else ch.status))
      (fun _ _ w' => w'.db.status c =
        some (if first = true then newStatus.getD ch.status else ch.status))
      (fun _ => False) n w := by
  refine wp_commitThenPublish_publishing hst (fun hup n' => ?_) fun hdown e n' => ?_
  · rw [← hfirst, if_pos hup]
    simp [hst]
  · rw [← hfirst, hdown]
    simpa using hst

/-- **The scheduler's method** leaves the status that its steps lead to. -/
theorem wp_program (hch : w.db.channels.lookup c = some ch) :
    wp (publishing up) (op.program c)
      (fun _ _ w' => w'.db.status c = some (solo op (ch.protocol = .srt)
        (up ((op.jobs ch.status).headD .connect)) ch.status))
      (fun _ _ w' => w'.db.status c = some (solo op (ch.protocol = .srt)
        (up ((op.jobs ch.status).headD .connect)) ch.status)) (fun _ => False) 0 w := by
  have hst : w.db.status c = some ch.status := by simp [Database.status, hch]
  -- A refused operation has read the row and nothing else.
  have hrefused : op.accepts (ch.protocol = .srt) ch.status = false → ∀ first,
      w.db.status c = some (solo op (ch.protocol = .srt) first ch.status) := by
    intro hacc first
    rw [hst, solo, if_pos hacc]
  cases op with
  | resetEtr290 =>
    refine (wp_bind ..).mpr (wp_getChannel_publishing hch ?_)
    rw [wp_ite, wp_ite]
    refine ⟨fun hno => hrefused ?_ _, fun hsrt => ⟨fun hno => hrefused ?_ _, fun hacc => ?_⟩⟩
    · simp [Operation.accepts, hno]
    · simp only [Operation.accepts, Bool.and_eq_false_imp]
      exact fun _ => decide_eq_false hno
    · have h := @wp_solo up w c ch .etr290Reset (Scheduler.payload c) none (0 + 1) hst _ rfl
      simpa [solo, Operation.intent, Operation.jobs] using h
  | request r =>
    cases r with
    | connect =>
      refine (wp_bind ..).mpr (wp_getChannel_publishing hch ?_)
      rw [wp_ite]
      refine ⟨fun hno => hrefused (decide_eq_false hno) _, fun hacc => ?_⟩
      have hacc' : Operation.accepts (ch.protocol = .srt) (.request .connect) ch.status = true :=
        decide_eq_true (not_not.mp hacc)
      unfold Scheduler.pickWorker
      rw [wp_bind]
      apply wp_query_publishing
      have h := @wp_solo up w c ch .connect (Scheduler.connectPayload c w.db.idlest)
        (some .connecting) (0 + 1 + 1) hst _ rfl
      simpa [solo, hacc', Operation.intent, Operation.jobs, Request.jobs, Request.intent,
        Database.idlest] using h
    | disconnect =>
      refine (wp_bind ..).mpr (wp_getChannel_publishing hch ?_)
      rw [wp_ite]
      refine ⟨fun hno => hrefused (decide_eq_false hno) _, fun hacc => ?_⟩
      have hacc' : Operation.accepts (ch.protocol = .srt) (.request .disconnect) ch.status = true :=
        decide_eq_true (not_not.mp hacc)
      have h := @wp_solo up w c ch .disconnect (Scheduler.payload c) (some .disconnecting) (0 + 1)
        hst _ rfl
      simpa [solo, hacc', Operation.intent, Operation.jobs, Request.jobs, Request.intent] using h
    | stopRecording =>
      refine (wp_bind ..).mpr (wp_getChannel_publishing hch ?_)
      rw [wp_ite]
      refine ⟨fun hno => hrefused (decide_eq_false hno) _, fun hacc => ?_⟩
      have hacc' : Operation.accepts (ch.protocol = .srt) (.request .stopRecording) ch.status =
          true := decide_eq_true (not_not.mp hacc)
      have h := @wp_solo up w c ch .recordStop (Scheduler.payload c) (some .stopping) (0 + 1)
        hst _ rfl
      simpa [solo, hacc', Operation.intent, Operation.jobs, Request.jobs, Request.intent] using h
    | startRecording =>
      by_cases hidle : ch.status = .idle
      · have hsolo : ∀ first, solo (.request .startRecording) (ch.protocol = .srt) first ch.status =
            if first = true then .connecting else .idle := by
          intro first
          simp [solo, hidle, Operation.accepts, Request.accepts]
        have hjobs : up (((Operation.request .startRecording).jobs ch.status).headD .connect) =
            up .connect := by simp [hidle, Operation.jobs, Request.jobs]
        rw [hjobs, hsolo]
        refine wp_startRecording_idle hch hidle (fun hup _ n w' hdone => ?_) (fun hdown e n => ?_)
          fun hup _ e n => ?_
        · obtain ⟨st, hst', hstatus, -⟩ := hdone
          obtain rfl : st = .idle := by
            rw [hst, hidle] at hst'
            exact (Option.some.inj hst').symm
          rw [hstatus, if_pos hup]
          rfl
        · rw [hdown, hst, hidle]
          rfl
        · rw [if_pos hup]
          simp [hst]
      · refine (wp_bind ..).mpr (wp_getChannel_publishing hch ?_)
        rw [wp_bind, wp_whenever]
        refine ⟨fun h => absurd h hidle, fun _ => ?_⟩
        simp only [if_neg hidle, wp_bind, wp_pure, wp_ite]
        refine ⟨fun hno => hrefused (decide_eq_false fun hacc => ?_) _, fun hacc => ?_⟩
        · simp_all
        · have hcases : ch.status = .connected ∨ ch.status = .connecting ∨
              ch.status = .starting := by simpa [or_iff_not_imp_left] using hacc
          have h := @wp_solo up w c ch .recordStart (Scheduler.payload c)
            (if ch.status = .connected then some .starting else none) (0 + 1) hst _ rfl
          rcases hcases with hc | hc | hc
          · simpa [solo, hc, Operation.accepts, Request.accepts, Operation.intent, Operation.jobs,
              Request.jobs, Request.intent] using h
          · simpa [solo, hc, Operation.accepts, Request.accepts, Operation.intent, Operation.jobs,
              Request.jobs, Request.intent] using h
          · simpa [solo, hc, Operation.accepts, Request.accepts, Operation.intent, Operation.jobs,
              Request.jobs, Request.intent] using h

end Program

/-! ## Results -/

/-- **What the worker has achieved is kept** exactly in the schedules in which the request replaces
nothing that it has not seen. -/
theorem kept_iff (op : Operation) (srt : Bool) (st : ChannelStatus) (as : List Action) (s : Race)
    (hrun : Runs.run (step op srt) (Race.init st) as = some s) :
    Kept s.log ↔ InTime op srt true (Race.init st) as := by
  have hfirst : true = true ↔ Current (Race.init st) := by simp [Current, Race.init]
  rw [kept_run as _ s hrun, inTime_iff as hfirst]
  simp [Kept, Race.init]

/-- The worker commits before the request reads and after it has committed. -/
theorem kept_iff_disconnect : InTime (.request .disconnect) false true (Race.init .connecting)
    [.worker .connected, .request true, .request true, .worker .idle, .request true] :=
  (kept_iff (.request .disconnect) false .connecting
    [.worker .connected, .request true, .request true, .worker .idle, .request true]
    ⟨.idle, .finished, [.worker .idle, .request .disconnecting, .read, .worker .connected]⟩
    rfl).mp (by simp [Kept])

/-- The heartbeat finds the session dead between the read and the commit of a record start:
the channel shows `starting` and has no session. -/
theorem error_is_replaced : ¬ ∀ (op : Operation) (srt : Bool) (st : ChannelStatus)
    (as : List Action) (s : Race), Runs.run (step op srt) (Race.init st) as = some s →
      Kept s.log := by
  intro h
  have hkept := h (.request .startRecording) false .connected
    [.request true, .worker .error, .request true] _ rfl
  have hreplaced : Kept [.request .starting, .worker .error, .read] := hkept
  simp [Kept] at hreplaced

end StaleIntent
