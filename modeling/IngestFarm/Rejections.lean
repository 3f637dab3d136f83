/-
# Requests that are not accepted

Every operation of the scheduler either raises or returns; the API tells the caller that a
request that raised "was not accepted".  With a database that works and publishes that may
fail, list by list, an operation that raises has changed nothing, with one exception: the
auto-connect of `start_recording` is not undone when its second publish fails.

The fate of a publish is decided for each list on its own.  The exception needs two of them: the
publish of the connect job works, and that of the record start does not.
-/
import IngestFarm.Requests

open Prog

/-- The public operations of the scheduler. -/
inductive Operation where
  | request (r : Request)
  | resetEtr290
  deriving DecidableEq, Repr

namespace Operation

/-- The method of the scheduler. -/
def program : Operation → ChannelId → Handler Unit
  | request r => r.program
  | resetEtr290 => Scheduler.resetEtr290

/-- The status an accepted operation leaves. -/
def intent : Operation → ChannelStatus → ChannelStatus
  | request r, st => r.intent st
  | resetEtr290, st => st

/-- The lists an accepted operation publishes to. -/
def jobs : Operation → ChannelStatus → List Queue
  | request r, st => r.jobs st
  | resetEtr290, _ => [.etr290Reset]

end Operation

/-- The environment in which only a publish can fail, on the lists that are not `up`. -/
def publishing (up : Queue → Bool) : Oracle Call := answers fun
  | .redisPush q => up q
  | _ => true

/-- What the caller of an operation is told is what has happened. -/
structure Honest (op : Operation) (c : ChannelId) (w : World)
    (outcome : Except (Halt PyError) Unit × World) : Prop where
  raised : ∀ e, outcome.1 = .error (.raised e) →
    outcome.2.db.status c = w.db.status c ∧ outcome.2.lists = w.lists
  returned : outcome.1 = .ok () → ∃ st, w.db.status c = some st ∧
    outcome.2.db.status c = some (op.intent st) ∧ ∀ q, outcome.2.lists q =
      w.lists q ++ if q ∈ op.jobs st then [.json (jobPayload c w.db q)] else []

/-- The one operation and the one failure that is not undone. -/
def HalfConnected (up : Queue → Bool) (op : Operation) (c : ChannelId) (w : World) : Prop :=
  op = .request .startRecording ∧ w.db.status c = some .idle ∧ up .connect = true ∧
    up .recordStart = false

/-! ## Environments in which a publish may fail -/

section Publishing

variable {up : Queue → Bool} {E : PyError → ℕ → World → Prop} {C : World → Prop} {n : ℕ}
  {w : World} {c : ChannelId} {q : Queue} {st : ChannelStatus}

/-- Everything but a push works. -/
theorem publishing_ok {k : Call} (h : ∀ q, k ≠ .redisPush q) (n : ℕ) :
    publishing up n k = .ok := by
  unfold publishing
  rw [answers_eq_ok]
  cases k <;> simp_all

@[simp] theorem publishing_push_ok : publishing up n (.redisPush q) = .ok ↔ up q = true :=
  answers_eq_ok _ _ _

@[simp] theorem publishing_push_fail : publishing up n (.redisPush q) = .fail ↔ up q = false :=
  answers_eq_fail _ _ _

@[simp] theorem publishing_crash {k : Call} : publishing up n k = .crash ↔ False :=
  answers_eq_crash _ _ _

/-- A query. -/
theorem wp_query_publishing {α : Type} {Q : α → ℕ → World → Prop} {f : Database → α}
    (h : Q (f w.db) (n + 1) w) : wp (publishing up) (query f) Q E C n w := by
  rw [wp_query, publishing_ok (by simp)]
  exact ⟨fun _ => h, fun hf => absurd hf (by simp), fun hc => absurd hc (by simp)⟩

/-- A commit. -/
theorem wp_commit_publishing {Q : Unit → ℕ → World → Prop} {f : Database → Database}
    (h : Q () (n + 1) (w.commitDb f)) : wp (publishing up) (commit f) Q E C n w := by
  rw [wp_commit, publishing_ok (by simp)]
  exact ⟨fun _ => h, fun hf => absurd hf (by simp), fun hc => absurd hc (by simp)⟩

/-- A channel that is there. -/
theorem wp_getChannel_publishing {Q : Channel → ℕ → World → Prop} {ch : Channel}
    (hch : w.db.channels.lookup c = some ch) (h : Q ch (n + 1) w) :
    wp (publishing up) (Scheduler.getChannel c) Q E C n w := by
  unfold Scheduler.getChannel
  rw [wp_bind]
  apply wp_query_publishing
  rw [hch]
  exact h

/-- And one that is not. -/
theorem wp_getChannel_unknown {Q : Channel → ℕ → World → Prop}
    (hch : w.db.channels.lookup c = none) (hE : ∀ e n', E e n' w) :
    wp (publishing up) (Scheduler.getChannel c) Q E C n w := by
  unfold Scheduler.getChannel
  rw [wp_bind]
  apply wp_query_publishing
  rw [hch]
  exact hE _ _

/-- An intent that is taken back has never been there. -/
theorem setStatus_undo (hst : w.db.status c = some st) (st' : ChannelStatus) :
    (w.commitDb (Database.setStatus c st')).commitDb (Database.setStatus c st) = w := by
  have hdb : ((w.db.setStatus c st').setStatus c st) = w.db.setStatus c st := by
    unfold Database.setStatus
    rw [Dict.modify_modify]
    rfl
  rw [World.commitDb, World.commitDb_db, hdb, Database.setStatus_of_status hst]
  rfl

/-- **One publish**: queued with its intent, or refused and undone. -/
theorem wp_commitThenPublish_publishing {Q : Unit → ℕ → World → Prop} {payload : Json}
    {newStatus : Option ChannelStatus} (hst : w.db.status c = some st)
    (hQ : up q = true → ∀ n', Q () n'
      ((w.commitDb (Database.setStatus c (newStatus.getD st))).push q (.json payload)))
    (hE : up q = false → ∀ e n', E e n' w) :
    wp (publishing up) (Scheduler.commitThenPublish c st q payload newStatus) Q E C n w := by
  unfold Scheduler.commitThenPublish
  cases newStatus with
  | none =>
    have hsame : w.commitDb (Database.setStatus c st) = w := by
      rw [World.commitDb, Database.setStatus_of_status hst]
    rw [Option.getD_none, hsame] at hQ
    simp only [wp_attempt, wp_publishEvent, publishing_push_ok, publishing_push_fail]
    exact ⟨fun hup => hQ hup _, fun hdown => hE hdown _ _, fun hc => absurd hc (by simp)⟩
  | some st' =>
    rw [wp_bind]
    apply wp_commit_publishing
    simp only [wp_attempt, wp_publishEvent, publishing_push_ok, publishing_push_fail]
    refine ⟨fun hup => hQ hup _, fun hdown => ?_, fun hc => absurd hc (by simp)⟩
    simp only [wp_bind]
    apply wp_commit_publishing
    rw [setStatus_undo hst, wp_external, publishing_ok (by simp)]
    exact ⟨fun _ => hE hdown _ _, fun hf => absurd hf (by simp), fun hc => absurd hc (by simp)⟩

/-- **`connect_channel`** of an idle channel or one in error. -/
theorem wp_connectChannel_publishing {Q : Unit → ℕ → World → Prop} {ch : Channel}
    (hch : w.db.channels.lookup c = some ch) (hacc : ch.status ∈ [.idle, .error])
    (hQ : up .connect = true → ∀ n', Q () n' ((w.commitDb (Database.setStatus c .connecting)).push
      .connect (.json (Scheduler.connectPayload c w.db.idlest))))
    (hE : up .connect = false → ∀ e n', E e n' w) :
    wp (publishing up) (Scheduler.connectChannel c) Q E C n w := by
  unfold Scheduler.connectChannel Scheduler.pickWorker
  rw [wp_bind]
  apply wp_getChannel_publishing hch
  rw [wp_ite, wp_bind]
  refine ⟨fun h => absurd hacc h, fun _ => wp_query_publishing ?_⟩
  exact wp_commitThenPublish_publishing (by simp [Database.status, hch]) hQ hE

end Publishing

/-! ## Outcomes -/

/-- The operation has been carried out. -/
def Done (op : Operation) (c : ChannelId) (w w' : World) : Prop :=
  ∃ st, w.db.status c = some st ∧ w'.db.status c = some (op.intent st) ∧
    ∀ q, w'.lists q = w.lists q ++ if q ∈ op.jobs st then [.json (jobPayload c w.db q)] else []

/-- Nothing has happened. -/
def Undone (c : ChannelId) (w w' : World) : Prop :=
  w'.db.status c = w.db.status c ∧ w'.lists = w.lists

section Outcomes

variable {up : Queue → Bool} {op : Operation} {w : World} {c : ChannelId} {st : ChannelStatus}

/-- An operation with one job. -/
theorem done_of_push {q : Queue} (hst : w.db.status c = some st) (hjobs : op.jobs st = [q]) :
    Done op c w ((w.commitDb (Database.setStatus c (op.intent st))).push q
      (.json (jobPayload c w.db q))) := by
  refine ⟨st, hst, by simp [hst], fun q' => ?_⟩
  rw [hjobs, World.push_lists, World.commitDb_lists]
  by_cases hq : q' = q
  · subst hq
    simp
  · simp [hq]

/-- **`start_recording`** of an idle channel: two publishes. -/
theorem wp_startRecording_idle {ch : Channel} {Q : Unit → ℕ → World → Prop}
    {E : PyError → ℕ → World → Prop}
    (hch : w.db.channels.lookup c = some ch) (hidle : ch.status = .idle)
    (hQ : up .connect = true → up .recordStart = true → ∀ n w',
      Done (.request .startRecording) c w w' → Q () n w')
    (hE : up .connect = false → ∀ e n, E e n w)
    (hE' : up .connect = true → up .recordStart = false → ∀ e n, E e n
      ((w.commitDb (Database.setStatus c .connecting)).push .connect
        (.json (Scheduler.connectPayload c w.db.idlest)))) :
    wp (publishing up) (Scheduler.startRecording c) Q E (fun _ => False) 0 w := by
  have hst : w.db.status c = some .idle := by simp [Database.status, hch, hidle]
  unfold Scheduler.startRecording
  rw [wp_bind]
  apply wp_getChannel_publishing hch
  rw [wp_bind, wp_whenever]
  refine ⟨fun _ => ?_, fun h => absurd hidle h⟩
  refine wp_connectChannel_publishing hch (by simp [hidle]) (fun hup n₁ => ?_) hE
  simp only [if_pos hidle, wp_bind]
  -- The channel is read again, with the intent of the first publish.
  have hch' : (w.db.setStatus c .connecting).channels.lookup c =
      some { ch with status := .connecting } := by simp [Database.setStatus, hch]
  apply wp_getChannel_publishing hch'
  rw [wp_ite]
  refine ⟨fun hno => absurd hno (by simp), fun _ => ?_⟩
  refine wp_commitThenPublish_publishing (by simp [hst]) (fun hup' n₂ => ?_)
    fun hdown e n₂ => hE' hup hdown e n₂
  refine hQ hup hup' _ _ ⟨.idle, hst, by simp [hst, Operation.intent, Request.intent], fun q => ?_⟩
  cases q <;> simp [Operation.jobs, Request.jobs, jobPayload]

/-- **Every operation** that is not half connected is carried out or has done nothing. -/
theorem wp_operation (h : ¬ HalfConnected up op c w) :
    wp (publishing up) (op.program c) (fun _ _ w' => Done op c w w') (fun _ _ w' => Undone c w w')
      (fun _ => False) 0 w := by
  -- Whatever raises before the commit has written and pushed nothing.
  have hsame : Undone c w w := ⟨rfl, rfl⟩
  cases hch : w.db.channels.lookup c with
  | none =>
    have hmissing : ∀ Q : Channel → ℕ → World → Prop, wp (publishing up) (Scheduler.getChannel c) Q
        (fun _ _ w' => Undone c w w') (fun _ => False) 0 w :=
      fun Q => wp_getChannel_unknown hch fun _ _ => hsame
    cases op with
    | request r => cases r <;> exact (wp_bind ..).mpr (hmissing _)
    | resetEtr290 => exact (wp_bind ..).mpr (hmissing _)
  | some ch =>
    have hst : w.db.status c = some ch.status := by simp [Database.status, hch]
    cases op with
    | resetEtr290 =>
      refine (wp_bind ..).mpr (wp_getChannel_publishing hch ?_)
      rw [wp_ite, wp_ite]
      refine ⟨fun _ => hsame, fun _ => ⟨fun _ => hsame, fun _ => ?_⟩⟩
      exact wp_commitThenPublish_publishing hst (fun _ _ => done_of_push hst rfl)
        fun _ _ _ => hsame
    | request r =>
      cases r with
      | connect =>
        refine (wp_bind ..).mpr (wp_getChannel_publishing hch ?_)
        rw [wp_ite]
        refine ⟨fun _ => hsame, fun hacc => ?_⟩
        unfold Scheduler.pickWorker
        rw [wp_bind]
        apply wp_query_publishing
        exact wp_commitThenPublish_publishing hst (fun _ _ => done_of_push hst rfl)
          fun _ _ _ => hsame
      | disconnect =>
        refine (wp_bind ..).mpr (wp_getChannel_publishing hch ?_)
        rw [wp_ite]
        refine ⟨fun _ => hsame, fun hacc => ?_⟩
        exact wp_commitThenPublish_publishing hst (fun _ _ => done_of_push hst rfl)
          fun _ _ _ => hsame
      | stopRecording =>
        refine (wp_bind ..).mpr (wp_getChannel_publishing hch ?_)
        rw [wp_ite]
        refine ⟨fun _ => hsame, fun hacc => ?_⟩
        exact wp_commitThenPublish_publishing hst (fun _ _ => done_of_push hst rfl)
          fun _ _ _ => hsame
      | startRecording =>
        -- An idle channel is connected and started in one request, with two publishes; any other
        -- channel gets one.
        by_cases hidle : ch.status = .idle
        · refine wp_startRecording_idle hch hidle (fun _ _ _ _ h => h) (fun _ _ _ => hsame)
            fun hup hdown _ _ => ?_
          exact absurd ⟨rfl, by rw [hst, hidle], hup, hdown⟩ h
        · refine (wp_bind ..).mpr (wp_getChannel_publishing hch ?_)
          rw [wp_bind, wp_whenever]
          refine ⟨fun h => absurd h hidle, fun _ => ?_⟩
          simp only [if_neg hidle, wp_bind, wp_pure, wp_ite]
          refine ⟨fun _ => hsame, fun hacc => ?_⟩
          have hcases : ch.status = .connected ∨ ch.status = .connecting ∨
              ch.status = .starting := by simpa [or_iff_not_imp_left] using hacc
          have hintent : (if ch.status = .connected then some ChannelStatus.starting else none).getD
              ch.status = (Operation.request .startRecording).intent ch.status := by
            rcases hcases with hc | hc | hc <;> rw [hc] <;> rfl
          have hjobs : (Operation.request .startRecording).jobs ch.status = [.recordStart] := by
            rcases hcases with hc | hc | hc <;> rw [hc] <;> rfl
          refine wp_commitThenPublish_publishing hst (fun _ _ => ?_) fun _ _ _ => hsame
          rw [hintent]
          exact done_of_push hst hjobs

/-- What the weakest precondition says of the outcome as a whole. -/
theorem honest_of_wp (h : wp (publishing up) (op.program c) (fun _ _ w' => Done op c w w')
    (fun _ _ w' => Undone c w w') (fun _ => False) 0 w) :
    Honest op c w (exec (publishing up) (op.program c) w) := by
  unfold wp at h
  unfold exec
  rcases hm : op.program c (publishing up) 0 w with ⟨(e | _) | a, n', t⟩ <;> rw [hm] at h
  · exact ⟨fun _ _ => h, fun hx => absurd hx (by simp)⟩
  · exact h.elim
  · exact ⟨fun _ hx => absurd hx (by simp), fun _ => h⟩

/-- **Half connected**: the channel stays at `connecting`. -/
theorem exec_of_halfConnected (h : HalfConnected up op c w) : ∃ e,
    (exec (publishing up) (op.program c) w).1 = .error (.raised e) ∧
      (exec (publishing up) (op.program c) w).2.db.status c = some .connecting := by
  obtain ⟨rfl, hst, hup, hdown⟩ := h
  obtain ⟨ch, hch, hidle⟩ := Option.map_eq_some_iff.mp hst
  have hwp : wp (publishing up) (Scheduler.startRecording c)
      (fun _ _ _ => up .recordStart = true)
      (fun _ _ w' => w' = (w.commitDb (Database.setStatus c .connecting)).push .connect
        (.json (Scheduler.connectPayload c w.db.idlest))) (fun _ => False) 0 w :=
    wp_startRecording_idle hch hidle (fun _ hup' _ _ _ => hup')
      (fun hno => absurd (hup.symm.trans hno) (by simp)) fun _ _ _ _ => rfl
  obtain ⟨e, he⟩ := exec_of_wp_raise (wp_mono hwp
    (fun _ _ _ hup' => absurd (hdown.symm.trans hup') (by simp)) (fun _ _ _ h => h) fun _ h => h)
  refine ⟨e, congrArg Prod.fst he, ?_⟩
  refine (congrArg (fun r => r.2.db.status c) he).trans ?_
  simp [hst]

end Outcomes

/-! ## Results -/

/-- **What raises has changed nothing, and what returns has been carried out**, except when
the second publish of an auto-connecting `start_recording` fails. -/
theorem honest_iff (op : Operation) (c : ChannelId) (up : Queue → Bool) (w : World) :
    Honest op c w (exec (publishing up) (op.program c) w) ↔ ¬ HalfConnected up op c w := by
  constructor
  · intro h hhalf
    obtain ⟨e, hraised, hstatus⟩ := exec_of_halfConnected hhalf
    have hidle := (h.raised e hraised).1
    rw [hstatus, hhalf.2.1] at hidle
    exact absurd hidle (by decide)
  · intro h
    exact honest_of_wp (wp_operation h)

/-- `start_recording` of an idle channel, with record-start jobs that cannot be queued. -/
theorem halfConnected_is_not_honest : ¬ ∀ (op : Operation) (c : ChannelId) (up : Queue → Bool)
    (w : World), Honest op c w (exec (publishing up) (op.program c) w) := by
  intro h
  have hraised := (h (.request .startRecording) (.str "a") (fun q => q ≠ .recordStart)
    (World.fresh { channels := Dict.set (.str "a") ⟨"A", .udp, .idle⟩ ∅
                   recordings := ∅
                   workers := ∅ } 0)).raised _ rfl
  have hidle : some ChannelStatus.connecting = some ChannelStatus.idle := hraised.1
  exact absurd hidle (by decide)
