/-
# Status and sessions at rest

The statuses that requests write are promises: `connecting` that a connect job is under way,
`disconnecting`, `stopping` and `starting` that a job waits for the drain.  `Obs.Settling` says
so for one channel, and what its session has to look like meanwhile; a channel without jobs
whose sessions are known to be up then shows a status that matches its session.

One step breaks the promise: a connect callback that still finds capacity opens its session even
when the channel is idle or in error by then, because a disconnect or a heartbeat came first.

Handlers are seen through `Obs`, which forgets ids and rows: the relations of `Steps` become those
of an observer (`Obs.Start`, `Obs.Stop`, `Obs.Beat`), and each of them keeps the promise once.
Which jobs are under way is an argument (`Waits`), so that the same lemmas serve a drain, which
takes three of them, and a connect callback, which takes the fourth.
-/
import IngestFarm.Interleaving

open Prog

/-- Which jobs of a channel are under way. -/
structure Waits where
  connect : Prop
  disconnect : Prop
  stop : Prop
  start : Prop

/-- What holds of a channel at any time, apart from the status `starting`; `gone` says that a
disconnect was accepted last. -/
structure Obs.Tidy (j : Waits) (died : Bool) (gone : Prop) (x : Obs) : Prop where
  /-- A channel at one of these statuses has a session. -/
  held : ∀ st ∈ [ChannelStatus.connected, .starting, .recording, .stopping], x.status = some st →
    x.session ≠ none
  /-- A session that is up belongs to such a channel, or to one that is being disconnected. -/
  alive : ∀ rec, x.session = some (true, rec) →
    ∃ st ∈ [ChannelStatus.connected, .starting, .recording, .stopping, .disconnecting],
      x.status = some st
  /-- A channel that does not record yet has no session that does. -/
  quiet : ∀ st ∈ [ChannelStatus.connected, .starting], x.status = some st →
    ∀ up, x.session ≠ some (up, true)
  /-- The status `connecting` has a connect job under way. -/
  connecting : x.status = some .connecting → j.connect
  /-- So has `disconnecting` its own. -/
  disconnecting : x.status = some .disconnecting → j.disconnect
  /-- And `stopping`. -/
  stopping : x.status = some .stopping → j.stop
  /-- After a heartbeat without deaths no session is down. -/
  dies : died = false → ∀ rec, x.session ≠ some (false, rec)
  /-- An accepted disconnect still waits, or the channel is off air. -/
  gone : gone → j.disconnect ∨ (x.session = none ∧ ∀ st ∈ activeStatuses, x.status ≠ some st)

/-- What holds of a channel at any time. -/
structure Obs.Settling (j : Waits) (died : Bool) (gone : Prop) (x : Obs) : Prop
    extends Obs.Tidy j died gone x where
  starting : x.status = some .starting → j.start ∨ ∃ rec, x.session = some (false, rec)

/-! ## Steps of an observed channel -/

/-- `_handle_record_start`, as an observer sees it. -/
inductive Obs.Start (died : Bool) (x : Obs) : Obs → Prop
  /-- The start is remembered. -/
  | absent : x.session = none → Start died x { x with pending := true }
  /-- A session that is down, or has just died. -/
  | dead (up rec : Bool) : x.session = some (up, rec) → (up = true → died = true) →
      Start died x { x with session := some (false, rec), pending := true }
  /-- A session that records. -/
  | already : x.session = some (true, true) → Start died x { x with pending := false }
  /-- The capture is open. -/
  | opened : x.session = some (true, false) →
      Start died x ⟨x.status.map fun _ => .recording, some (true, true), false⟩
  /-- It could not be opened. -/
  | failed (up : Bool) : x.session = some (true, false) → (up = false → died = true) →
      Start died x ⟨x.status.map fun _ => if up = true then .connected else .error,
        some (up, false), false⟩

/-- `_handle_record_stop`, as far as an observer of status and session sees it. -/
inductive Obs.Stop (died : Bool) (x : Obs) : Obs → Prop
  /-- No session. -/
  | absent : x.session = none →
      Stop died x ⟨if x.status.any (· ∈ [.stopping, .recording, .starting]) = true then some .idle
        else x.status, none, false⟩
  /-- A session, which may die meanwhile, does not record any more. -/
  | settled (up rec up' : Bool) : x.session = some (up, rec) → (up = true → up' = false →
      died = true) → (up = false → up' = false) →
      Stop died x ⟨x.status.map fun _ => if up' = true then .connected else .idle,
        some (up', false), false⟩

/-- `_heartbeat`: a session that is up is left alone, a dead one is dropped and its channel
fails. -/
inductive Obs.Beat (x : Obs) : Obs → Prop
  | up : (∀ rec, x.session ≠ some (false, rec)) → Beat x x
  | dead : Beat x ⟨if x.status.any (· ∈ activeStatuses) = true then some .error else x.status,
      none, false⟩

/-- A session that was seen dead was dead or has died. -/
theorem Seen.up_eq {died up : Bool} {x y : ChannelSession} (h : Seen died x up y) :
    (x.isConnected = true → up = false → died = true) ∧ (x.isConnected = false → up = false) := by
  cases h with
  | asIs => exact ⟨fun h h' => absurd (h.symm.trans h') (by decide), fun h => h⟩
  | ended hd => exact ⟨fun _ _ => hd, fun _ => rfl⟩

section Observed

variable {died : Bool} {fresh : RecordingId} {v v' : View}

/-- What is observed of a session. -/
theorem View.obs_some {s : SessionId} {x : ChannelSession} (hs : v.session = some (s, x)) :
    v.obs.session = some (x.isConnected, x.recording) := by
  show v.session.map _ = _
  rw [hs]
  rfl

/-- And of none. -/
theorem View.obs_none (hs : v.session = none) : v.obs.session = none := by
  show v.session.map _ = _
  rw [hs]
  rfl

/-- A start, as it is observed. -/
theorem StartStep.obs (h : StartStep died fresh v v') : Obs.Start died v.obs v'.obs := by
  cases h with
  | absent hs => exact Obs.Start.absent (View.obs_none hs)
  | dead s x x' hs hseen =>
    have h' := @Obs.Start.dead died _ x.isConnected x.recording (View.obs_some hs)
      fun h => hseen.up_eq.1 h rfl
    rw [← hseen.isConnected_eq, ← hseen.recording_eq] at h'
    exact h'
  | already s x hs hup hrec =>
    exact Obs.Start.already (by rw [View.obs_some hs, hup, hrec])
  | opened s x y hs hup hrec hy hy' =>
    have h' := @Obs.Start.opened died v.obs (by rw [View.obs_some hs, hup, hrec])
    show Obs.Start died v.obs ⟨v.status.map _, some (y.isConnected, y.recording), false⟩
    rw [hy, hy']
    exact h'
  | failed s x y up y' hs hup hrec hy hdied hseen =>
    have hup' : up = false → died = true := by
      intro hno
      rcases hdied with hy' | hdied
      · exact hseen.up_eq.1 hy' hno
      · exact hdied
    have h' := Obs.Start.failed (x := v.obs) up (by rw [View.obs_some hs, hup, hrec]) hup'
    show Obs.Start died v.obs ⟨v.status.map _, some (y'.isConnected, y'.recording), false⟩
    rw [hseen.isConnected_eq, hseen.recording_eq, hy]
    exact h'

/-- A stop. -/
theorem StopStep.obs (h : StopStep died v v') : Obs.Stop died v.obs v'.obs := by
  cases h with
  | absent t hs ht =>
    have h' := @Obs.Stop.absent died _ (View.obs_none hs)
    show Obs.Stop died v.obs ⟨_, v.obs.session, false⟩
    rw [View.obs_none hs]
    exact h'
  | finalized s x y t up y' hs hrec ht hy hup hseen =>
    have h' := @Obs.Stop.settled died v.obs x.isConnected x.recording up
      (View.obs_some hs) (fun h => hseen.up_eq.1 (hup.trans h)) fun h => hseen.up_eq.2 (hup.trans h)
    show Obs.Stop died v.obs ⟨v.status.map _, some (y'.isConnected, y'.recording), false⟩
    rw [hseen.isConnected_eq, hseen.recording_eq, hy]
    exact h'
  | idle s x up x' hs hrec hid hseen =>
    have h' := @Obs.Stop.settled died v.obs x.isConnected x.recording up
      (View.obs_some hs) hseen.up_eq.1 hseen.up_eq.2
    show Obs.Stop died v.obs ⟨v.status.map _, some (x'.isConnected, x'.recording), false⟩
    rw [hseen.isConnected_eq, hseen.recording_eq, hrec]
    exact h'

/-- And a heartbeat. -/
theorem HeartbeatStep.obs (h : HeartbeatStep v v') : Obs.Beat v.obs v'.obs := by
  cases h with
  | absent hs => exact Obs.Beat.up (by simp [View.obs_none hs])
  | up s x hs hup => exact Obs.Beat.up (by simp [View.obs_some hs, hup])
  | dead s x t hs ht => exact Obs.Beat.dead

end Observed

/-! ## Each step keeps the promises -/

section Promises

variable {j : Waits} {died : Bool} {gone : Prop} {x y : Obs}

/-- **A record start**, also one that a connect handler makes. -/
theorem Obs.Tidy.start (h : x.Tidy j died gone) (hstep : Obs.Start died x y) :
    y.Settling j died gone := by
  obtain ⟨held, alive, quiet, connecting, disconnecting, stopping, dies, hgone⟩ := h
  -- A start that opens or fails finds a session that is up, so a last disconnect still waits.
  cases hstep with
  | absent hs =>
    refine ⟨⟨held, alive, quiet, connecting, disconnecting, stopping, dies, hgone⟩, fun hst => ?_⟩
    exact absurd hs (held .starting (by decide) hst)
  | dead up rec hs hdied =>
    have hdied' : died = true := by
      cases up with
      | true => exact hdied rfl
      | false => exact Bool.of_not_eq_false fun hd => dies hd rec hs
    refine ⟨⟨fun _ _ _ => by simp, fun _ h => absurd h (by simp), fun st hmem hst up' hup => ?_,
      connecting, disconnecting, stopping, fun hd => absurd (hdied'.symm.trans hd) (by decide),
      fun hg => Or.inl ?_⟩, fun _ => Or.inr ⟨rec, rfl⟩⟩
    · obtain ⟨-, rfl⟩ : false = up' ∧ rec = true := by simpa using hup
      exact quiet st hmem hst up hs
    · exact (hgone hg).elim id fun h => absurd (h.1.symm.trans hs) (by simp)
  | already hs =>
    refine ⟨⟨held, alive, quiet, connecting, disconnecting, stopping, dies, hgone⟩, fun hst => ?_⟩
    exact absurd hs (quiet .starting (by decide) hst true)
  | opened hs =>
    obtain ⟨st, hmem, hst⟩ := alive false hs
    have hdis : gone → j.disconnect := fun hg =>
      (hgone hg).elim id fun h => absurd (h.1.symm.trans hs) (by simp)
    constructor
    constructor
    all_goals simp_all
  | failed up hs hdied =>
    obtain ⟨st, hmem, hst⟩ := alive false hs
    have hdis : gone → j.disconnect := fun hg =>
      (hgone hg).elim id fun h => absurd (h.1.symm.trans hs) (by simp)
    cases up with
    | true =>
      constructor
      constructor
      all_goals simp_all
    | false =>
      constructor
      constructor
      all_goals simp_all

/-- The jobs that are left after a drain. -/
def Waits.drained (j : Waits) : Waits := ⟨j.connect, False, False, False⟩

/-- A stop settles what it was asked for. -/
theorem Obs.Settling.stop (h : x.Settling j died gone) (hdis : ¬ j.disconnect)
    (hstep : Obs.Stop died x y) : y.Settling j.drained died gone := by
  obtain ⟨⟨held, alive, quiet, connecting, disconnecting, stopping, dies, hgone⟩, starting⟩ := h
  have hgone' : gone → x.session = none ∧ ∀ st ∈ activeStatuses, x.status ≠ some st :=
    fun hg => (hgone hg).resolve_left hdis
  -- Without a session there is no status to settle; with one it says whether the session is up.
  cases hstep with
  | absent hs =>
    -- The guarded write does not apply: those statuses have a session.
    have hst : ∀ st ∈ [ChannelStatus.connected, .starting, .recording, .stopping],
        x.status ≠ some st := fun st hmem h => held st hmem h hs
    have hif : (if x.status.any (· ∈ [.stopping, .recording, .starting]) = true then some .idle
        else x.status) = x.status := by
      refine if_neg fun hany => ?_
      rcases hx : x.status with _ | st
      · rw [hx] at hany
        exact absurd hany (by simp)
      · rw [hx] at hany
        refine hst st ?_ hx
        cases st <;> simp_all
    rw [hif]
    refine ⟨⟨fun st hmem h => absurd h (hst st hmem), fun _ h => absurd h (by simp),
      fun st hmem h => ?_, connecting, fun h => hdis (disconnecting h),
      fun h => absurd h (hst .stopping (by decide)), fun _ _ => by simp,
      fun hg => Or.inr ⟨rfl, (hgone' hg).2⟩⟩, fun h => absurd h (hst .starting (by decide))⟩
    refine absurd h (hst st ?_)
    cases st <;> simp_all
  | settled up rec up' hs hdied hdown =>
    have hdies : died = false → up' = true := by
      intro hd
      cases up with
      | true => exact Bool.of_not_eq_false fun h => absurd (hdied rfl h) (by simp [hd])
      | false => exact absurd hs (dies hd rec)
    have hnot : ¬ gone := fun hg => absurd ((hgone' hg).1.symm.trans hs) (by simp)
    cases up' with
    | true =>
      obtain rfl : up = true := Bool.of_not_eq_false fun h => absurd (hdown h) (by decide)
      obtain ⟨st, hmem, hst⟩ := alive rec hs
      constructor
      constructor
      all_goals simp_all
    | false =>
      constructor
      constructor
      all_goals simp_all

/-- A write that is guarded by the active statuses leaves none of them. -/
theorem not_active_of_write {status : Option ChannelStatus} {st' : ChannelStatus}
    (hst' : st' ∉ activeStatuses) : ∀ st ∈ activeStatuses,
      (if status.any (· ∈ activeStatuses) = true then some st' else status) ≠ some st := by
  intro st hmem h
  split at h
  · exact hst' (Option.some.inj h ▸ hmem)
  · rename_i hno
    rw [h] at hno
    exact hno (by simpa using hmem)

/-- A channel without a session whose status is not active. -/
theorem Obs.settling_of_not_active (hs : x.session = none)
    (hstatus : ∀ st ∈ activeStatuses, x.status ≠ some st) : x.Settling j died gone := by
  have hsub : ∀ st ∈ [ChannelStatus.connected, .starting, .recording, .stopping],
      st ∈ activeStatuses := by decide
  refine ⟨⟨fun st hmem h => absurd h (hstatus st (hsub st hmem)),
    fun _ h => absurd (hs.symm.trans h) (by simp), fun st hmem h => absurd h (hstatus st ?_),
    fun h => absurd h (hstatus _ (by decide)), fun h => absurd h (hstatus _ (by decide)),
    fun h => absurd h (hstatus _ (by decide)), fun _ _ h => absurd (hs.symm.trans h) (by simp),
    fun _ => Or.inr ⟨hs, hstatus⟩⟩, fun h => absurd h (hstatus _ (by decide))⟩
  have hsub' : ∀ st ∈ [ChannelStatus.connected, .starting], st ∈ activeStatuses := by decide
  exact hsub' st hmem

/-- After a disconnect nothing is left to settle. -/
theorem Obs.settling_disconnect : (Op.disconnect.effect x).Settling j died gone :=
  Obs.settling_of_not_active rfl (not_active_of_write (by decide))

/-- **One op of a drain**, the one that was resolved. -/
theorem Obs.Settling.start (h : x.Settling j died gone) (hdis : ¬ j.disconnect)
    (hstop : j.stop → x.status ≠ some .stopping) (hstep : Obs.Start died x y) :
    y.Settling j.drained died gone := by
  obtain ⟨⟨held, alive, quiet, connecting, disconnecting, stopping, dies, hgone⟩, starting⟩ := h
  refine Obs.Tidy.start ⟨held, alive, quiet, connecting, fun h => hdis (disconnecting h),
    fun h => hstop (stopping h) h, dies, fun hg => Or.inr ?_⟩ hstep
  exact (hgone hg).resolve_left hdis

/-- A channel that has no job. -/
theorem Obs.Settling.untouched (h : x.Settling j died gone) (hdis : ¬ j.disconnect)
    (hstop : ¬ j.stop) (hstart : ¬ j.start) : x.Settling j.drained died gone := by
  obtain ⟨⟨held, alive, quiet, connecting, disconnecting, stopping, dies, hgone⟩, starting⟩ := h
  exact ⟨⟨held, alive, quiet, connecting, fun h => hdis (disconnecting h),
    fun h => hstop (stopping h), dies, fun hg => Or.inr ((hgone hg).resolve_left hdis)⟩,
    fun h => Or.inr ((starting h).resolve_left hstart)⟩

/-- More sessions may have died, and more jobs may wait. -/
theorem Obs.Settling.mono {j' : Waits} {died' : Bool} (h : x.Settling j died gone)
    (hd : died' = false → died = false) (hconn : j.connect → j'.connect)
    (hdis : j.disconnect → j'.disconnect) (hstop : j.stop → j'.stop)
    (hstart : j.start → j'.start) : x.Settling j' died' gone := by
  obtain ⟨⟨held, alive, quiet, connecting, disconnecting, stopping, dies, hgone⟩, starting⟩ := h
  exact ⟨⟨held, alive, quiet, fun h => hconn (connecting h), fun h => hdis (disconnecting h),
    fun h => hstop (stopping h), fun h => dies (hd h), fun hg => (hgone hg).imp hdis id⟩,
    fun h => (starting h).imp hstart id⟩

/-- A heartbeat settles the dead. -/
theorem Obs.Settling.beat (h : x.Settling j died gone) (hstep : Obs.Beat x y) :
    y.Settling j false gone := by
  obtain ⟨⟨held, alive, quiet, connecting, disconnecting, stopping, dies, hgone⟩, starting⟩ := h
  cases hstep with
  | up hup =>
    exact ⟨⟨held, alive, quiet, connecting, disconnecting, stopping, fun _ => hup, hgone⟩, starting⟩
  | dead => exact Obs.settling_of_not_active rfl (not_active_of_write (by decide))

/-- A session dies. -/
theorem Obs.Settling.die (h : x.Settling j died gone) (up rec : Bool)
    (hs : x.session = some (up, rec)) :
    Obs.Settling j true gone { x with session := some (false, rec) } := by
  obtain ⟨⟨held, alive, quiet, connecting, disconnecting, stopping, dies, hgone⟩, starting⟩ := h
  refine ⟨⟨fun _ _ _ => by simp, fun _ h => absurd h (by simp), fun st hmem hst up' hup => ?_,
    connecting, disconnecting, stopping, fun h => absurd h (by decide), fun hg => Or.inl ?_⟩,
    fun _ => Or.inr ⟨rec, rfl⟩⟩
  · obtain ⟨-, rfl⟩ : false = up' ∧ rec = true := by simpa using hup
    exact quiet st hmem hst up hs
  · exact (hgone hg).elim id fun h => absurd (h.1.symm.trans hs) (by simp)

/-- The jobs after an accepted request. -/
def Waits.add (j : Waits) (r : Request) (st : ChannelStatus) : Waits :=
  ⟨j.connect ∨ .connect ∈ r.jobs st, j.disconnect ∨ .disconnect ∈ r.jobs st,
    j.stop ∨ .recordStop ∈ r.jobs st, j.start ∨ .recordStart ∈ r.jobs st⟩

/-- A channel goes to `connecting` without a session that is up, and with the job waiting. -/
theorem Obs.Settling.to_connecting {j' : Waits} {gone' : Prop} (h : x.Settling j died gone)
    (hdead : ∀ rec, x.session ≠ some (true, rec)) (hjob : j'.connect) (hgone' : ¬ gone') :
    Obs.Settling j' died gone' { x with status := some .connecting } := by
  obtain ⟨⟨held, alive, quiet, connecting, disconnecting, stopping, dies, hgone⟩, starting⟩ := h
  exact ⟨⟨by simp, fun rec hs => absurd hs (hdead rec), by simp, fun _ => hjob, by simp, by simp,
    dies, fun hg => absurd hg hgone'⟩, by simp⟩

/-- And to `starting` from there or from `connected`, with its job waiting. -/
theorem Obs.Settling.to_starting {j' : Waits} {gone' : Prop} (h : x.Settling j died gone)
    (hst : x.status = some .connected ∨ x.status = some .starting) (hjob : j'.start)
    (hgone' : ¬ gone') : Obs.Settling j' died gone' { x with status := some .starting } := by
  obtain ⟨⟨held, alive, quiet, connecting, disconnecting, stopping, dies, hgone⟩, starting⟩ := h
  have hheld : x.session ≠ none := by
    rcases hst with hst | hst
    · exact held .connected (by decide) hst
    · exact held .starting (by decide) hst
  have hquiet : ∀ up, x.session ≠ some (up, true) := by
    intro up
    rcases hst with hst | hst
    · exact quiet .connected (by decide) hst up
    · exact quiet .starting (by decide) hst up
  exact ⟨⟨fun _ _ _ => hheld, fun rec hs => ⟨.starting, by decide, rfl⟩, fun _ _ _ => hquiet,
    by simp, by simp, by simp, dies, fun hg => absurd hg hgone'⟩, fun _ => Or.inl hjob⟩

/-- **A request keeps its promise**: the job of the intent it commits is queued. -/
theorem Obs.Settling.request (h : x.Settling j died gone) {r : Request} {st : ChannelStatus}
    (hst : x.status = some st) (hacc : r.accepts st = true) :
    Obs.Settling (j.add r st) died (r = .disconnect) { x with status := some (r.intent st) } := by
  obtain ⟨⟨held, alive, quiet, connecting, disconnecting, stopping, dies, hgone⟩, starting⟩ := id h
  have hlive : ∀ rec, x.session = some (true, rec) →
      st ∈ [ChannelStatus.connected, .starting, .recording, .stopping, .disconnecting] := by
    intro rec hs
    obtain ⟨st', hmem, hst'⟩ := alive rec hs
    exact Option.some.inj (hst'.symm.trans hst) ▸ hmem
  -- Every intent comes with its own job, or finds one under way.
  cases r with
  | connect =>
    -- Neither idle nor error has a session that is up.
    have hdead : ∀ rec, x.session ≠ some (true, rec) := by
      intro rec hs
      have hmem := hlive rec hs
      cases st <;> simp_all [Request.accepts]
    exact h.to_connecting hdead (Or.inr List.mem_cons_self) (by decide)
  | disconnect =>
    exact ⟨⟨by simp [Request.intent], fun rec hs => ⟨.disconnecting, by decide, rfl⟩,
      by simp [Request.intent], by simp [Request.intent], fun _ => Or.inr List.mem_cons_self,
      by simp [Request.intent], dies, fun _ => Or.inl (Or.inr List.mem_cons_self)⟩,
      by simp [Request.intent]⟩
  | stopRecording =>
    have hheld : x.session ≠ none := by
      refine held st ?_ hst
      cases st <;> simp_all [Request.accepts]
    exact ⟨⟨fun _ _ _ => hheld, fun rec hs => ⟨.stopping, by decide, rfl⟩,
      by simp [Request.intent], by simp [Request.intent], by simp [Request.intent],
      fun _ => Or.inr List.mem_cons_self, dies, fun h => absurd h (by decide)⟩,
      by simp [Request.intent]⟩
  | startRecording =>
    cases st with
    | idle =>
      have hdead : ∀ rec, x.session ≠ some (true, rec) := fun rec hs =>
        absurd (hlive rec hs) (by decide)
      exact h.to_connecting hdead (Or.inr List.mem_cons_self) (by decide)
    | connected => exact h.to_starting (Or.inl hst) (Or.inr List.mem_cons_self) (by decide)
    | connecting =>
      have hdead : ∀ rec, x.session ≠ some (true, rec) := fun rec hs =>
        absurd (hlive rec hs) (by decide)
      exact h.to_connecting hdead (Or.inl (connecting hst)) (by decide)
    | starting => exact h.to_starting (Or.inr hst) (Or.inr List.mem_cons_self) (by decide)
    | _ => exact absurd hacc (by decide)

end Promises

/-! ## The connect handler -/

section Connecting

variable {j : Waits} {died : Bool} {gone : Prop} {x : Obs} {fresh : ℕ} {works : Prop}
  {v v' : View}

/-- The jobs that are left after a connect callback. -/
def Waits.connected (j : Waits) : Waits := { j with connect := False }

/-- A connect job that is done. -/
theorem Obs.Settling.connected (h : x.Settling j died gone) (hst : x.status ≠ some .connecting) :
    x.Settling j.connected died gone := by
  obtain ⟨⟨held, alive, quiet, connecting, disconnecting, stopping, dies, hgone⟩, starting⟩ := h
  exact ⟨⟨held, alive, quiet, fun h => absurd h hst, disconnecting, stopping, dies, hgone⟩,
    starting⟩

/-- A channel whose session is not up goes to error. -/
theorem Obs.Settling.fault (h : x.Settling j died gone)
    (hdown : ∀ rec, x.session ≠ some (true, rec))
    {status : Option ChannelStatus} (herror : ∀ st, status = some st → st = .error) :
    Obs.Settling j.connected died gone { x with status := status } := by
  have hno : ∀ {P : Prop} (st : ChannelStatus), st ≠ .error → status = some st → P :=
    fun st hne h => absurd (herror st h) hne
  have hsub : ∀ st ∈ activeStatuses, st ≠ .error := by decide
  refine ⟨⟨fun st hmem => hno st ?_, fun rec hs => absurd hs (hdown rec), fun st hmem => hno st ?_,
    hno _ (by decide), hno _ (by decide), hno _ (by decide), h.dies,
    fun hg => (h.gone hg).imp id fun h => ⟨h.1, fun st hmem => hno st (hsub st hmem)⟩⟩,
    hno _ (by decide)⟩
  · rintro rfl
    exact absurd hmem (by decide)
  · rintro rfl
    exact absurd hmem (by decide)

/-- A session that is found missing or dead. -/
theorem NotUp.settling (h : v.obs.Settling j died gone) (hnot : NotUp died v v') :
    v'.obs.Settling j died gone ∧ (∀ rec, v'.obs.session ≠ some (true, rec)) ∧
      v'.status = v.status := by
  cases hnot with
  | absent hs => exact ⟨h, by simp [View.obs_none hs], rfl⟩
  | dead s x x' hs hseen =>
    have hsession : View.obs { v with session := some (s, x') } =
        { v.obs with session := some (false, x.recording) } := by
      show (⟨v.status, some (x'.isConnected, x'.recording), v.pending⟩ : Obs) = _
      rw [hseen.isConnected_eq, hseen.recording_eq]
      rfl
    rw [hsession]
    refine ⟨?_, by simp, rfl⟩
    rcases hup : x.isConnected with _ | _
    · have hsame : { v.obs with session := some (false, x.recording) } = v.obs := by
        have hs' := View.obs_some hs
        rw [hup] at hs'
        rw [← hs']
      rw [hsame]
      exact h
    · obtain rfl : died = true := hseen.up_eq.1 hup rfl
      exact h.die _ _ (View.obs_some hs)

/-- **`_handle_connect`**, when it opens no session for a channel that is not active. -/
theorem Obs.Settling.connect (h : v.obs.Settling j died gone)
    (hstep : ConnectStep died fresh works v v')
    (hcare : works → ∃ st ∈ activeStatuses, v.status = some st) :
    v'.obs.Settling j.connected died gone := by
  cases hstep with
  | already s x v' hs hup hstart =>
    obtain ⟨st, hmem, hst⟩ := h.alive x.recording (by rw [View.obs_some hs, hup])
    have hne : v.status ≠ some .connecting := by
      have hst' : v.status = some st := hst
      rw [hst']
      rintro ⟨⟩
      exact absurd hmem (by decide)
    have hsame : v.toStored.writeIf [.connecting] .connected = v.toStored := by
      refine Stored.ext (if_neg fun hany => ?_) rfl
      rcases hv : v.status with _ | st'
      · rw [hv] at hany
        exact absurd hany (by simp)
      · rw [hv] at hany hne
        exact hne (by simpa using hany)
    rw [hsame] at hstart
    have h' := h.connected hne
    cases hstart with
    | skipped _ => exact h'
    | started v' _ hstart => exact h'.toTidy.start hstart.obs
  | full v₁ hnot =>
    obtain ⟨h₁, hdown, -⟩ := hnot.settling h
    by_cases hany : v₁.status.any (· ∈ [.connecting, .starting]) = true
    · have h' := @Obs.Settling.fault _ _ _ _ h₁ hdown (some .error)
        fun st h => (Option.some.inj h).symm
      show Obs.Settling j.connected died gone ⟨if _ then _ else _, _, _⟩
      rw [if_pos hany]
      exact h'
    · have h' := h₁.connected fun (hst : v₁.status = some .connecting) =>
        hany (by rw [hst]; decide)
      show Obs.Settling j.connected died gone ⟨if _ then _ else _, _, _⟩
      rw [if_neg hany]
      exact h'
  | opens v₁ v' hnot hopen =>
    obtain ⟨h₁, hdown, hstatus⟩ := hnot.settling h
    cases hopen with
    | unknown hst => exact h₁.connected fun h => absurd (hst.symm.trans h) (by simp)
    | failed =>
      refine h₁.fault hdown fun st h => ?_
      obtain ⟨st', -, hst⟩ := Option.map_eq_some_iff.mp h
      exact hst.symm
    | opened x v' hw hst hx hx' hstart =>
      obtain ⟨st, hmem, hst'⟩ := hcare hw
      rw [← hstatus] at hst'
      have hmarked : (v₁.toStored.writeIf [.connecting] .connected).status =
          some (if st = .connecting then .connected else st) := by
        show (if v₁.status.any _ = true then _ else v₁.status) = _
        rw [hst']
        cases st <;> rfl
      -- The new session is up and idle, whatever the status promises.
      have htidy : Obs.Tidy j.connected died gone (View.obs { v₁ with
          toStored := v₁.toStored.writeIf [.connecting] .connected
          session := some (fresh, x) }) := by
        have hobs : View.obs { v₁ with toStored := v₁.toStored.writeIf [.connecting] .connected
                                       session := some (fresh, x) } =
            ⟨some (if st = .connecting then .connected else st), some (true, false),
              v₁.pending⟩ := by
          show (⟨_, some (x.isConnected, x.recording), _⟩ : Obs) = _
          rw [hx, hx', hmarked]
        have hold : v₁.obs.status = some st := hst'
        rw [hobs]
        refine ⟨fun _ _ _ => by simp, fun _ _ => ⟨_, ?_, rfl⟩, fun _ _ _ up h => absurd h (by simp),
          fun h => ?_, fun h => ?_, fun h => ?_, fun _ _ => by simp, fun hg => Or.inl ?_⟩
        · cases st <;> simp_all [activeStatuses]
        · have h' := Option.some.inj h
          split at h'
          · exact absurd h' (by decide)
          · contradiction
        · refine h₁.disconnecting (hold.trans ?_)
          cases st <;> simp_all
        · refine h₁.stopping (hold.trans ?_)
          cases st <;> simp_all
        · exact (h₁.gone hg).elim id fun h => absurd hold (h.2 st hmem)
      cases hstart with
      | started v' _ hstart => exact htidy.start hstart.obs
      | skipped hno =>
        refine ⟨htidy, fun h => absurd ?_ hno⟩
        have h' : (v₁.toStored.writeIf [.connecting] .connected).status = some .starting := h
        rw [hmarked] at h'
        refine Or.inl (hst'.trans ?_)
        cases st <;> simp_all

end Connecting

/-! ## The whole farm -/

namespace System

/-- The jobs of a channel that are under way. -/
def waits (S : System) (c : ChannelId) : Waits :=
  ⟨S.Connects c, c ∈ S.world.queued .disconnect, c ∈ S.world.queued .recordStop,
    c ∈ S.world.queued .recordStart⟩

/-- Every channel keeps its promises. -/
structure Settled (S : System) : Prop where
  books : S.Books
  channels : ∀ c, (S.world.view c).obs.Settling (S.waits c) S.world.died
    (S.last c = some .disconnect)

/-- A connect callback opens a session for a channel that is not active any more. -/
def Strays (cfg : Settings) (S : System) : Action → Prop
  | .idleConnect o => ∃ job rest c, S.idle = job :: rest ∧ job.channel = some c ∧
      Opens cfg o.1 0 c S.world ∧ ∀ st ∈ activeStatuses, S.world.db.status c ≠ some st
  | _ => False

/-- No job is waiting, and every session has been looked at since the last one died. -/
structure AtRest (S : System) : Prop where
  /-- No job waits in Redis. -/
  lists : ∀ q ∈ [Queue.connect, .disconnect, .recordStop, .recordStart], S.world.lists q = []
  /-- No connect job waits for the main loop. -/
  idle : S.idle = []
  /-- No death is left to be found. -/
  died : S.world.died = false

/-- Status and session of a channel agree. -/
structure Agrees (S : System) (c : ChannelId) : Prop where
  /-- A session is up exactly if the channel is said to be connected or recording. -/
  connected : (∃ s, S.world.sessions.lookup c = some s ∧ (S.world.heap s).isConnected = true) ↔
    S.world.db.status c = some .connected ∨ S.world.db.status c = some .recording
  /-- No status promises anything. -/
  settled : ∀ st ∈ [ChannelStatus.connecting, .starting, .stopping, .disconnecting],
    S.world.db.status c ≠ some st
  /-- What was disconnected last has no session. -/
  gone : S.last c = some .disconnect → S.world.sessions.lookup c = none

/-- **At rest, status and sessions agree.** -/
theorem Settled.agrees {S : System} (h : S.Settled) (hrest : S.AtRest) (c : ChannelId) :
    S.Agrees c := by
  have hqueued : ∀ q ∈ [Queue.connect, .disconnect, .recordStop, .recordStart],
      c ∉ S.world.queued q := by
    intro q hq
    unfold World.queued
    rw [hrest.lists q hq]
    exact List.not_mem_nil
  have hconnect : ¬ (S.waits c).connect := by
    rintro (hc | hc)
    · exact hqueued .connect (by decide) hc
    · rw [hrest.idle] at hc
      exact List.not_mem_nil hc
  have hdis : ¬ (S.waits c).disconnect := hqueued .disconnect (by decide)
  have hstop : ¬ (S.waits c).stop := hqueued .recordStop (by decide)
  have hstart : ¬ (S.waits c).start := hqueued .recordStart (by decide)
  obtain ⟨⟨held, alive, quiet, connecting, disconnecting, stopping, dies, hgone⟩, starting⟩ :=
    h.channels c
  have hup := dies hrest.died
  -- A status that promises something has a job under way, and there is none.
  have hno : ∀ st ∈ [ChannelStatus.connecting, .starting, .stopping, .disconnecting],
      S.world.db.status c ≠ some st := by
    intro st hmem hst
    simp only [List.mem_cons, List.not_mem_nil, or_false] at hmem
    rcases hmem with rfl | rfl | rfl | rfl
    · exact hconnect (connecting hst)
    · rcases starting hst with h | ⟨rec, h⟩
      · exact hstart h
      · exact hup rec h
    · exact hstop (stopping hst)
    · exact hdis (disconnecting hst)
  -- What is up is at one of the two statuses that are left, and what has one of them is up.
  refine ⟨⟨?_, fun hst => ?_⟩, hno, fun hlast => ?_⟩
  · rintro ⟨s, hs, hs'⟩
    obtain ⟨st, hmem, hst⟩ := alive (S.world.heap s).recording (by rw [obs_session hs, hs'])
    have hst' : S.world.db.status c = some st := hst
    cases st with
    | connected => exact Or.inl hst'
    | recording => exact Or.inr hst'
    | _ => first
      | exact absurd hst' (hno _ (by decide))
      | exact absurd hmem (by decide)
  · rcases hs : S.world.sessions.lookup c with _ | s
    · apply absurd (congrArg Obs.session (obs_no_session hs))
      rcases hst with hst | hst
      · exact held _ (by decide) hst
      · exact held _ (by decide) hst
    · refine ⟨s, rfl, Bool.of_not_eq_false fun hdown => hup (S.world.heap s).recording ?_⟩
      rw [obs_session hs, hdown]
  · have hnone := ((hgone hlast).resolve_left hdis).1
    rcases hs : S.world.sessions.lookup c with _ | s
    · rfl
    · rw [obs_session hs] at hnone
      exact absurd hnone (by simp)

section Steps

variable {cfg : Settings} {S S' : System}

/-- A request brings its own job. -/
theorem settled_request (h : S.Settled) {r : Request} {c : ChannelId}
    (hstep : S.request r c = some S') : S'.Settled := by
  refine ⟨books_request h.books hstep, fun d => ?_⟩
  obtain ⟨hid, rfl | ⟨st, hst, hacc, rfl⟩⟩ := request_eq hstep
  · exact h.channels d
  -- The lists have what they had, and the jobs of the request at their ends.
  · have hjobs : ∀ q, d ∈ (r.outcome c st S.world).queued q ↔
        d ∈ S.world.queued q ∨ d = c ∧ q ∈ r.jobs st := by
      intro q
      rw [queued_outcome hid, List.mem_append]
      by_cases hq : q ∈ r.jobs st
      · rw [if_pos hq]
        simp [hq]
      · rw [if_neg hq]
        simp [hq]
    have hdied : (r.outcome c st S.world).died = S.world.died := by
      rw [outcome_eq]
      rfl
    show Obs.Settling _ (r.outcome c st S.world).died _ _
    rw [hdied, view_outcome]
    by_cases hd : d = c
    · subst hd
      rw [if_pos rfl]
      have hst' : (S.world.view d).obs.status = some st := hst
      have h' := (h.channels d).request hst' hacc
      have hobs : View.obs { S.world.view d with
          toStored := (S.world.view d).toStored.write (r.intent st) } =
          { (S.world.view d).obs with status := some (r.intent st) } := by
        show (⟨(S.world.db.status d).map _, _, _⟩ : Obs) = _
        rw [hst]
        rfl
      rw [hobs]
      have hlast : Function.update S.last d (some r) d = some .disconnect ↔ r = .disconnect := by
        rw [Function.update_self, Option.some.injEq]
      have h'' := @Obs.Settling.mono _ _ _ _ (waits { S with
        world := r.outcome d st S.world, last := Function.update S.last d (some r) } d) _ h'
        (fun hd => hd) ?_ ?_ ?_ ?_
      · rw [← propext hlast] at h''
        exact h''
      · rintro ((h | h) | h)
        · exact Or.inl ((hjobs .connect).mpr (Or.inl h))
        · exact Or.inr h
        · exact Or.inl ((hjobs .connect).mpr (Or.inr ⟨rfl, h⟩))
      · exact fun h => (hjobs .disconnect).mpr (h.imp id fun h => ⟨rfl, h⟩)
      · exact fun h => (hjobs .recordStop).mpr (h.imp id fun h => ⟨rfl, h⟩)
      · exact fun h => (hjobs .recordStart).mpr (h.imp id fun h => ⟨rfl, h⟩)
    · rw [if_neg hd]
      have hlast : Function.update S.last c (some r) d = S.last d := Function.update_of_ne hd _ _
      show Obs.Settling _ _ (Function.update S.last c (some r) d = some .disconnect) _
      rw [hlast]
      refine (h.channels d).mono (fun hd => hd) ?_ ?_ ?_ ?_
      · exact fun hc => hc.imp (fun hc => (hjobs .connect).mpr (Or.inl hc)) id
      · exact fun hc => (hjobs .disconnect).mpr (Or.inl hc)
      · exact fun hc => (hjobs .recordStop).mpr (Or.inl hc)
      · exact fun hc => (hjobs .recordStart).mpr (Or.inl hc)

/-- The job moves from the list to the callbacks. -/
theorem settled_popConnect (h : S.Settled) (hstep : S.step cfg .popConnect = some S') :
    S'.Settled := by
  have hbooks := books_step h.books hstep
  obtain ⟨c, job, rest, hlist, hc, rfl⟩ := popConnect_eq h.books hstep
  have hcontrol : ∀ q, q ≠ .connect → ∀ d, d ∈ S.world.queued q →
      d ∈ (S.world.setList .connect rest).queued q := by
    intro q hq d hd
    unfold World.queued
    rwa [World.setList_lists, Function.update_of_ne hq]
  refine ⟨hbooks, fun d => ?_⟩
  -- For every channel the job is under way before and after.
  refine (h.channels d).mono (fun hd => hd) ?_ ?_ ?_ ?_
  · rintro (hd | hd)
    · unfold World.queued at hd
      rw [hlist, List.filterMap_cons, show (Raw.json job).channel = some c from hc] at hd
      rcases List.mem_cons.mp hd with rfl | hd
      · refine Or.inr (List.mem_filterMap.mpr ⟨job, ?_, hc⟩)
        exact List.mem_append_right _ (List.mem_singleton_self job)
      · apply Or.inl
        unfold World.queued
        rw [World.setList_lists, Function.update_self]
        exact hd
    · obtain ⟨job', hjob', hd⟩ := List.mem_filterMap.mp hd
      exact Or.inr (List.mem_filterMap.mpr ⟨job', List.mem_append_left _ hjob', hd⟩)
  · exact hcontrol .disconnect (by decide) d
  · exact hcontrol .recordStop (by decide) d
  · exact hcontrol .recordStart (by decide) d

/-- The callback of a connect job keeps the system settled. -/
theorem settled_idleConnect (h : S.Settled) {o : Environment}
    (hcare : ¬ Strays cfg S (.idleConnect o)) (hstep : S.step cfg (.idleConnect o) = some S') :
    S'.Settled := by
  have hbooks := books_step h.books hstep
  unfold step at hstep
  dsimp only at hstep
  rcases hidle : S.idle with _ | ⟨job, rest⟩
  · rw [hidle] at hstep
    exact absurd hstep (by simp)
  · rw [hidle] at hstep
    obtain rfl := Option.some.inj hstep
    obtain ⟨c, hc⟩ := h.books.idle job (by rw [hidle]; exact List.mem_cons_self)
    obtain ⟨hlocal, hconnect⟩ := @idleConnect_eq cfg _ o _ _ h.books.sound hc
    have hlists : ∀ q, q.isControl = true →
        (final o.1 (IngestWorker.idleConnect cfg job) S.world).lists q = S.world.lists q :=
      hlocal.jobs
    refine ⟨hbooks, fun d => ?_⟩
    -- The callback is about one channel, which no longer waits for it.
    by_cases hd : d = c
    · subst hd
      have h' := ((h.channels d).mono hlocal.died id id id id).connect hconnect fun hopens => by
        by_contra hno
        refine hcare ⟨job, rest, d, hidle, hc, hopens, fun st hmem hst => hno ⟨st, hmem, hst⟩⟩
      exact h'.mono id False.elim (mem_queued (hlists .disconnect rfl))
        (mem_queued (hlists .recordStop rfl)) (mem_queued (hlists .recordStart rfl))
    · show Obs.Settling _ _ _ ((final o.1 (IngestWorker.idleConnect cfg job) S.world).view d).obs
      rw [hlocal.views h.books.sound d hd]
      refine (h.channels d).mono hlocal.died ?_ (mem_queued (hlists .disconnect rfl))
        (mem_queued (hlists .recordStop rfl)) (mem_queued (hlists .recordStart rfl))
      rintro (hconn | hconn)
      · exact Or.inl (mem_queued (hlists .connect rfl) hconn)
      · apply Or.inr
        rw [hidle, List.filterMap_cons, hc] at hconn
        exact (List.mem_cons.mp hconn).resolve_left hd

/-- So does a heartbeat. -/
theorem settled_heartbeat (h : S.Settled) (o : Environment) :
    Settled { S with world := final o.1 (IngestWorker.heartbeat cfg) S.world } := by
  have hbeat := heartbeat_eq cfg o h.books.sound
  have hlists := hbeat.jobs
  refine ⟨books_step (a := .heartbeat o) h.books rfl, fun d => ?_⟩
  have h' := (h.channels d).beat (hbeat.views d).obs
  refine h'.mono (fun _ => rfl) ?_ ?_ ?_ ?_
  · exact fun hc => hc.imp (mem_queued (hlists .connect rfl)) id
  · exact mem_queued (hlists .disconnect rfl)
  · exact mem_queued (hlists .recordStop rfl)
  · exact mem_queued (hlists .recordStart rfl)

/-- And a drain, which is where jobs are taken. -/
theorem settled_drain (cfg : Settings) (h : S.Settled) (o : Environment) :
    Settled { S with
      world := final o.1 (IngestWorker.drainControlQueues IngestWorker.handlers) S.world } := by
  have hkeep : ∀ c n u, wp o.1 (IngestWorker.handlers (S.world.resolved c) c) (fun _ _ _ => True)
      (fun _ _ _ => True) (fun _ => True) n u := fun c n u => wp_true _ n u
  have hdrain := drain_eq (J := fun _ => True) o h.books trivial (fun _ _ _ h => h)
    fun c n u _ _ _ _ => hkeep c n u
  refine ⟨@books_step cfg _ _ h.books (.drain o) rfl, fun d => ?_⟩
  have hd := (h.channels d).mono hdrain.died id id id id
  have hconn : S.Connects d → Connects { S with
      world := final o.1 (IngestWorker.drainControlQueues IngestWorker.handlers) S.world } d :=
    fun hc => hc.imp (mem_queued hdrain.connect) id
  have hdone : ∀ {gone : Prop} {x : Obs}, x.Settling (S.waits d).drained
      (final o.1 (IngestWorker.drainControlQueues IngestWorker.handlers) S.world).died gone →
      x.Settling (waits { S with
        world := final o.1 (IngestWorker.drainControlQueues IngestWorker.handlers) S.world } d)
      (final o.1 (IngestWorker.drainControlQueues IngestWorker.handlers) S.world).died gone :=
    fun h => h.mono id hconn False.elim False.elim False.elim
  -- A channel with a job makes the step of its op, and one without keeps everything.
  by_cases hjob : S.world.HasJob d
  · obtain ⟨fresh, -, hstep⟩ := hdrain.acted d hjob
    apply hdone
    by_cases hdis : d ∈ S.world.queued .disconnect
    · have hres : S.world.resolved d = .disconnect := if_pos hdis
      rw [hres] at hstep
      show Obs.Settling _ _ _ (View.obs _)
      rw [obs_disconnectStep hstep]
      exact Obs.settling_disconnect
    · cases hres : S.world.resolved d with
      | disconnect =>
        apply absurd hres
        unfold World.resolved
        rw [if_neg hdis]
        split_ifs <;> simp
      | stop =>
        rw [hres] at hstep
        exact hd.stop hdis (StopStep.obs hstep)
      | start =>
        rw [hres] at hstep
        refine hd.start hdis (fun hstop hst => ?_) (StartStep.obs hstep)
        -- A start loses against a stop while the status is `stopping`.
        have hst' : S.world.db.status d = some .stopping := hst
        have hstop' : d ∈ S.world.queued .recordStop := hstop
        apply absurd hres
        unfold World.resolved
        rw [if_neg hdis, if_pos hst', if_pos hstop']
        split_ifs <;> simp
  · show Obs.Settling _ _ _ (View.obs _)
    rw [hdrain.untouched d hjob]
    exact hdone (hd.untouched (fun h => hjob (Or.inl h)) (fun h => hjob (Or.inr (Or.inl h)))
      fun h => hjob (Or.inr (Or.inr h)))

/-- A session that dies is one that a heartbeat will find. -/
theorem settled_die (cfg : Settings) (h : S.Settled) (s : SessionId) :
    Settled { S with world := S.world.die s } := by
  refine ⟨@books_step cfg _ _ h.books (.die s) rfl, fun d => ?_⟩
  have hd : (S.world.view d).obs.Settling (S.waits d) true (S.last d = some .disconnect) :=
    (h.channels d).mono (fun h => absurd h (by decide)) id id id id
  show ((S.world.die s).view d).obs.Settling (S.waits d) true (S.last d = some .disconnect)
  -- Only the channel of the session sees anything.
  rcases hs : S.world.sessions.lookup d with _ | s'
  · have hsame : ((S.world.die s).view d).obs = (S.world.view d).obs := by
      rw [obs_no_session hs]
      exact obs_no_session hs
    rw [hsame]
    exact hd
  · by_cases hss : s' = s
    · subst hss
      have hdead : ((S.world.die s').view d).obs =
          { (S.world.view d).obs with session := some (false, (S.world.heap s').recording) } := by
        rw [obs_session hs]
        have hs' : (S.world.die s').sessions.lookup d = some s' := hs
        rw [obs_session hs']
        simp
      rw [hdead]
      exact hd.die _ _ (congrArg Obs.session (obs_session hs))
    · have hsame : ((S.world.die s).view d).obs = (S.world.view d).obs := by
        have hs' : (S.world.die s).sessions.lookup d = some s' := hs
        rw [obs_session hs, obs_session hs']
        simp [hss]
      rw [hsame]
      exact hd

/-- **One step keeps every promise**, unless a connect callback strays. -/
theorem settled_step (h : S.Settled) {a : Action} (hcare : ¬ Strays cfg S a)
    (hstep : S.step cfg a = some S') : S'.Settled := by
  cases a with
  | request r c => exact settled_request h hstep
  | popConnect => exact settled_popConnect h hstep
  | idleConnect o => exact settled_idleConnect h hcare hstep
  | heartbeat o => exact Option.some.inj hstep ▸ settled_heartbeat h o
  | drain o => exact Option.some.inj hstep ▸ settled_drain cfg h o
  | die s => exact Option.some.inj hstep ▸ settled_die cfg h s

/-- A quiet system is settled. -/
theorem settled_of_quiet (h : S.Quiet) : S.Settled := by
  refine ⟨books_of_quiet h, fun c => Obs.settling_of_not_active ?_ fun st hmem hst => ?_⟩
  · have hs : S.world.sessions.lookup c = none := by
      rw [h.pristine.sessions]
      rfl
    exact congrArg Obs.session (obs_no_session hs)
  · apply h.inactive c
    have hst' : S.world.db.status c = some st := hst
    show (S.world.db.status c).any (· ∈ activeStatuses) = true
    rw [hst']
    simpa using hmem

/-- **In every run without a stray connect callback, status and sessions agree at rest.** -/
theorem agrees_along {as : List Action} (h : S.Quiet)
    (hcare : Runs.Along (fun S a => ¬ Strays cfg S a) (step cfg) S as)
    (hrun : Runs.run (step cfg) S as = some S') (hrest : S'.AtRest) (c : ChannelId) :
    S'.Agrees c :=
  (Runs.run_invariant (I := Settled) (fun _ _ _ h hok hstep => settled_step h hok hstep) as S S'
    (settled_of_quiet h) hcare hrun).agrees hrest c

end Steps

/-- A farm at rest with one idle channel. -/
def foyer : System := ⟨lobby, [], fun _ => none⟩

/-- The system of the witness is quiet. -/
theorem quiet_foyer : foyer.Quiet where
  pristine := ⟨rfl, rfl, by simp [foyer, lobby, World.fresh],
    by simp [foyer, lobby, World.fresh, Database.InFlight]⟩
  inactive c := by
    intro hact
    have hlook : (((Dict.set (.str "lobby") ⟨"Lobby", .srt, .idle⟩ ∅ :
        Dict ChannelId Channel).lookup c).map Channel.status).any (· ∈ activeStatuses) = true :=
      hact
    rw [Dict.lookup_set] at hlook
    split at hlook
    · exact absurd hlook (by decide)
    · exact absurd hlook (by simp)
  lists _ := rfl
  idle := rfl
  pending := rfl
  last _ := rfl

/-- A disconnect is handled while the connect job is still on its way: the channel is idle, and
has a session that is up. -/
theorem connect_callback_leaves_ghost :
    ¬ ∀ (cfg : Settings) (S S' : System) (as : List Action), S.Quiet →
      Runs.run (step cfg) S as = some S' → S'.AtRest → ∀ c, S'.Agrees c := by
  intro h
  have hagrees := h ⟨"worker", 8⟩ foyer _ [.request .connect (.str "lobby"),
    .request .disconnect (.str "lobby"), .heartbeat .good, .drain .good, .popConnect,
    .idleConnect .good] quiet_foyer rfl ⟨?_, rfl, rfl⟩ (.str "lobby")
  · have hgone := hagrees.gone rfl
    exact absurd hgone (by decide)
  · intro q hq
    simp only [List.mem_cons, List.not_mem_nil, or_false] at hq
    rcases hq with rfl | rfl | rfl | rfl <;> rfl

/-- The channel is connected. -/
theorem agrees_along_foyer :
    ∃ S', Runs.run (step ⟨"worker", 8⟩) foyer [.request .connect (.str "lobby"), .popConnect,
      .idleConnect .good, .heartbeat .good] = some S' ∧ S'.Agrees (.str "lobby") := by
  refine ⟨_, rfl, @agrees_along ⟨"worker", 8⟩ foyer _
    [.request .connect (.str "lobby"), .popConnect,
    .idleConnect .good, .heartbeat .good] quiet_foyer ?_ rfl ⟨fun q hq => ?_, rfl, rfl⟩ _⟩
  · refine Runs.along_cons (fun h => h) rfl (Runs.along_cons (fun h => h) rfl
      (Runs.along_cons ?_ rfl (Runs.along_cons (fun h => h) rfl trivial)))
    -- The callback comes while the channel is still `connecting`.
    rintro ⟨job, rest, c, hidle, hc, -, hst⟩
    obtain ⟨rfl, -⟩ := List.cons.inj hidle
    have hc' : some (ChannelId.str "lobby") = some c := hc
    obtain rfl := Option.some.inj hc'
    exact hst .connecting (by decide) rfl
  · simp only [List.mem_cons, List.not_mem_nil, or_false] at hq
    rcases hq with rfl | rfl | rfl | rfl <;> rfl

end System
