/-
# Steps of a view

One relation for each handler of the worker, between the view of its channel before and
after, and one for what is stored when the process is killed inside it.  Everything that
`session.connect` and `start_recording` can do, and sessions that die at a check, is a
constructor.  `Acts` ties a program to such a pair of relations: in an environment whose
database and Redis are up it ends normally, and has done nothing else.
-/
import IngestFarm.Views

open Prog

/-- Taking a job off a list. -/
def Call.isPop : Call → Bool
  | redisPop _ => true
  | _ => false

/-- Database and Redis are up, taking a job apart; the process may be killed. -/
def Steady (o : Oracle Call) : Prop :=
  ∀ n k, o n k = .fail → k.mayFail = true ∨ k.isPop = true

/-! ## Steps of a view -/

/-- A session object at a check: as it was, or found dead. -/
inductive Seen (died : Bool) (x : ChannelSession) : Bool → ChannelSession → Prop
  | asIs : Seen died x x.isConnected x
  | ended : died = true → Seen died x false x.markEnded

/-- What was seen is so afterwards. -/
theorem Seen.isConnected_eq {died up : Bool} {x y : ChannelSession} (h : Seen died x up y) :
    y.isConnected = up := by
  cases h with
  | asIs => rfl
  | ended => exact ChannelSession.isConnected_markEnded x

/-- Looking at a session leaves its recording alone. -/
theorem Seen.recording_eq {died up : Bool} {x y : ChannelSession} (h : Seen died x up y) :
    y.recording = x.recording := by
  cases h <;> rfl

/-- Fewer deaths are seen if fewer happened. -/
theorem Seen.mono {died died' up : Bool} {x y : ChannelSession} (h : Seen died x up y)
    (hd : died' = false → died = false) : Seen died' x up y := by
  cases h with
  | asIs => exact asIs
  | ended hdied => exact ended (by cases died' <;> simp_all)

/-- The row that `_finalize_recording` finishes. -/
def Target (v : View) (t : Option RecordingId) : Prop :=
  match v.recordingId with
  | none => Picks v.rows t
  | some r => t = some r

/-- A channel's status after an unconditional write. -/
def Stored.write (st : ChannelStatus) (x : Stored) : Stored :=
  { x with status := x.status.map fun _ => st }

/-- A channel's status after a write that is guarded by the old one. -/
def Stored.writeIf (sts : List ChannelStatus) (st : ChannelStatus) (x : Stored) : Stored :=
  { x with status := if x.status.any (· ∈ sts) = true then some st else x.status }

@[simp] theorem Stored.rows_write (st : ChannelStatus) (x : Stored) :
    (x.write st).rows = x.rows := rfl

@[simp] theorem Stored.rows_writeIf (sts : List ChannelStatus) (st : ChannelStatus)
    (x : Stored) : (x.writeIf sts st).rows = x.rows := rfl

/-- A later write does not see the guarded one. -/
theorem Stored.map_writeIf (sts : List ChannelStatus) (st : ChannelStatus) (x : Stored)
    (a : ChannelStatus) : (x.writeIf sts st).status.map (fun _ => a) = x.status.map fun _ => a := by
  unfold writeIf
  split
  · cases hst : x.status <;> simp_all
  · rfl

@[simp] theorem Stored.status_write (st : ChannelStatus) (x : Stored) :
    (x.write st).status = x.status.map fun _ => st := rfl

/-- `_handle_record_start`; `fresh` is the id of the row it may insert. -/
inductive StartStep (died : Bool) (fresh : RecordingId) (v : View) : View → Prop
  /-- No session: the start is remembered for the connect handler. -/
  | absent : v.session = none → StartStep died fresh v { v with pending := true }
  /-- A session that is down, or is found so: the same. -/
  | dead (s : SessionId) (x x' : ChannelSession) : v.session = some (s, x) →
      Seen died x false x' →
      StartStep died fresh v { v with pending := true, session := some (s, x') }
  /-- A session that records: the start is forgotten. -/
  | already (s : SessionId) (x : ChannelSession) : v.session = some (s, x) →
      x.isConnected = true → x.recording = true →
      StartStep died fresh v { v with pending := false }
  /-- The capture is opened, and a fresh row is in flight. -/
  | opened (s : SessionId) (x y : ChannelSession) : v.session = some (s, x) →
      x.isConnected = true → x.recording = false → y.isConnected = true → y.recording = true →
      StartStep died fresh v
        { toStored := ⟨v.status.map fun _ => .recording, Function.update v.rows fresh (some s)⟩
          session := some (s, y), recordingId := some fresh, pending := false }
  /-- It could not be: the fresh row has failed, and the status says if the session is up. -/
  | failed (s : SessionId) (x y : ChannelSession) (up : Bool) (y' : ChannelSession) :
      v.session = some (s, x) → x.isConnected = true → x.recording = false →
      y.recording = false → (y.isConnected = true ∨ died = true) → Seen died y up y' →
      StartStep died fresh v
        { toStored := v.toStored.write (if up = true then .connected else .error)
          session := some (s, y'), recordingId := none, pending := false }

/-- What is stored when `_handle_record_start` is killed. -/
inductive StartKilled (fresh : RecordingId) (v : View) : Stored → Prop
  | before : StartKilled fresh v v.toStored
  | inserted (s : SessionId) (x : ChannelSession) : v.session = some (s, x) →
      x.isConnected = true → x.recording = false →
      StartKilled fresh v
        ⟨v.status.map fun _ => .recording, Function.update v.rows fresh (some s)⟩

/-- The pending mark of before does not count. -/
theorem StartStep.of_pending {died : Bool} {fresh : RecordingId} {v v' : View} {p : Bool}
    (h : StartStep died fresh { v with pending := p } v') : StartStep died fresh v v' := by
  cases h with
  | absent hs => exact absent hs
  | dead s x x' hs hseen => exact dead s x x' hs hseen
  | already s x hs hup hrec => exact already s x hs hup hrec
  | opened s x y hs hup hrec hy hy' => exact opened s x y hs hup hrec hy hy'
  | failed s x y up y' hs hup hrec hy hd hseen => exact failed s x y up y' hs hup hrec hy hd hseen

/-- A pending request makes no difference to what is stored. -/
theorem StartKilled.of_pending {fresh : RecordingId} {v : View} {x : Stored} {p : Bool}
    (h : StartKilled fresh { v with pending := p } x) : StartKilled fresh v x := by
  cases h with
  | before => exact before
  | inserted s x hs hup hrec => exact inserted s x hs hup hrec

/-- `_handle_record_stop` on a channel: without a session the status is put right and the row fails,
with one the recording is finished, or the session is found dead. -/
inductive StopStep (died : Bool) (v : View) : View → Prop
  /-- No session: the newest row in flight fails. -/
  | absent (t : Option RecordingId) : v.session = none → Picks v.rows t →
      StopStep died v
        { v with
          toStored := { v.toStored.writeIf [.stopping, .recording, .starting] .idle with
            rows := dropRow t v.rows }
          pending := false }
  /-- The recording is finished, and the status says whether the session is still up. -/
  | finalized (s : SessionId) (x y : ChannelSession) (t : Option RecordingId) (up : Bool)
      (y' : ChannelSession) : v.session = some (s, x) →
      x.recording = true ∨ v.recordingId ≠ none → Target v t →
      y.recording = false → y.isConnected = x.isConnected → Seen died y up y' →
      StopStep died v
        { toStored := ⟨v.status.map fun _ => if up = true then .connected else .idle,
            dropRow t v.rows⟩
          session := some (s, y'), recordingId := none, pending := false }
  /-- Nothing to finish: only the status is written. -/
  | idle (s : SessionId) (x : ChannelSession) (up : Bool) (x' : ChannelSession) :
      v.session = some (s, x) → x.recording = false → v.recordingId = none →
      Seen died x up x' →
      StopStep died v
        { v with
          toStored := v.toStored.write (if up = true then .connected else .idle)
          session := some (s, x'), pending := false }

/-- `_handle_disconnect` on a channel: the session goes in every case, and its recording is finished
on the way. -/
inductive DisconnectStep (v : View) : View → Prop
  /-- No session: only the status is written. -/
  | absent : v.session = none →
      DisconnectStep v { v with toStored := v.toStored.writeIf activeStatuses .idle,
                                pending := false }
  /-- A session that does not record is torn down, and a remembered row is left alone. -/
  | idle (s : SessionId) (x : ChannelSession) : v.session = some (s, x) → x.recording = false →
      DisconnectStep v { v with toStored := v.toStored.writeIf activeStatuses .idle,
                                session := none, pending := false }
  /-- The recording is finished before the session is torn down. -/
  | finalized (s : SessionId) (x : ChannelSession) (t : Option RecordingId) :
      v.session = some (s, x) → x.recording = true → Target v t →
      DisconnectStep v
        { toStored := { v.toStored.writeIf activeStatuses .idle with rows := dropRow t v.rows }
          session := none, recordingId := none, pending := false }

/-- What is stored when a handler that finalizes is killed. -/
inductive FinalizeKilled (v : View) : Stored → Prop
  | before : FinalizeKilled v v.toStored
  | finalized (s : SessionId) (x : ChannelSession) (t : Option RecordingId) :
      v.session = some (s, x) → x.recording = true ∨ v.recordingId ≠ none → Target v t →
      FinalizeKilled v { v.toStored with rows := dropRow t v.rows }

/-- A stop forgets a pending request anyway. -/
theorem StopStep.of_pending {died : Bool} {v v' : View} {p : Bool}
    (h : StopStep died { v with pending := p } v') : StopStep died v v' := by
  cases h with
  | absent t hs ht => exact absent t hs ht
  | finalized s x y t up y' hs hrec ht hy hy' hseen =>
    exact finalized s x y t up y' hs hrec ht hy hy' hseen
  | idle s x up x' hs hrec hr hseen => exact idle s x up x' hs hrec hr hseen

/-- And what is stored does not depend on it. -/
theorem FinalizeKilled.of_pending {v : View} {x : Stored} {p : Bool}
    (h : FinalizeKilled { v with pending := p } x) : FinalizeKilled v x := by
  cases h with
  | before => exact before
  | finalized s x t hs hrec ht => exact finalized s x t hs hrec ht

/-- A record start that a connect handler makes when one is wanted. -/
inductive MaybeStart (died : Bool) (fresh : RecordingId) (wanted : Prop) (v : View) : View → Prop
  | skipped : ¬ wanted → MaybeStart died fresh wanted v v
  | started (v' : View) : wanted → StartStep died fresh v v' → MaybeStart died fresh wanted v v'

theorem MaybeStart.congr {died : Bool} {fresh : RecordingId} {p q : Prop} {v v' : View}
    (h : MaybeStart died fresh p v v') (hpq : p ↔ q) : MaybeStart died fresh q v v' := by
  cases h with
  | skipped hp => exact skipped fun hq => hp (hpq.mpr hq)
  | started v' hp hv => exact started v' (hpq.mp hp) hv

/-- The part of `_handle_connect` that creates a session; `fresh` is the session's id and
`works` says that its `connect` does not raise. -/
inductive OpenStep (died : Bool) (fresh : ℕ) (works : Prop) (v : View) : View → Prop
  /-- The channel has no row. -/
  | unknown : v.status = none → OpenStep died fresh works v v
  /-- The session could not connect. -/
  | failed : OpenStep died fresh works v { v with toStored := v.toStored.write .error }
  /-- It could, and a record start follows if one was asked for. -/
  | opened (x : ChannelSession) (v' : View) : works → v.status ≠ none → x.isConnected = true →
      x.recording = false → MaybeStart died (fresh + 1) (v.status = some .starting ∨
        v.pending = true) { v with toStored := v.toStored.writeIf [.connecting] .connected,
                                   session := some (fresh, x) } v' →
      OpenStep died fresh works v v'

/-- The session of a channel is found missing or dead. -/
inductive NotUp (died : Bool) (v : View) : View → Prop
  | absent : v.session = none → NotUp died v v
  | dead (s : SessionId) (x x' : ChannelSession) : v.session = some (s, x) →
      Seen died x false x' → NotUp died v { v with session := some (s, x') }

/-- A session that may work may be opened. -/
theorem OpenStep.mono {died : Bool} {fresh : ℕ} {works works' : Prop} {v v' : View}
    (h : OpenStep died fresh works v v') (hworks : works → works') :
    OpenStep died fresh works' v v' := by
  cases h with
  | unknown hst => exact unknown hst
  | failed => exact failed
  | opened x v' hw hst hx hx' hv => exact opened x v' (hworks hw) hst hx hx' hv

/-- A session that was found dead, with fewer deaths. -/
theorem NotUp.mono {died died' : Bool} {v v' : View} (h : NotUp died v v')
    (hd : died' = false → died = false) : NotUp died' v v' := by
  cases h with
  | absent hs => exact absent hs
  | dead s x x' hs hseen => exact dead s x x' hs (hseen.mono hd)

/-- A session that is not up is not connected. -/
theorem NotUp.not_connected {died : Bool} {v v' : View} (h : NotUp died v v') {s : SessionId}
    {x : ChannelSession} (hs : v'.session = some (s, x)) : x.isConnected = false := by
  cases h with
  | absent hnone => exact absurd (hnone.symm.trans hs) (by simp)
  | dead s' x' y _ hseen =>
    obtain ⟨-, rfl⟩ := Prod.mk.inj (Option.some.inj hs)
    exact hseen.isConnected_eq

/-- Nothing else is touched. -/
theorem NotUp.pending_eq {died : Bool} {v v' : View} (h : NotUp died v v') :
    v'.pending = v.pending := by
  cases h <;> rfl

/-- `_handle_connect` on a channel: it is up already, or the worker is full, or a session is opened,
which may fail. -/
inductive ConnectStep (died : Bool) (fresh : ℕ) (works : Prop) (v : View) : View → Prop
  /-- There is a session that is up: a record start may follow. -/
  | already (s : SessionId) (x : ChannelSession) (v' : View) : v.session = some (s, x) →
      x.isConnected = true → MaybeStart died fresh (v.pending = true)
        { v with toStored := v.toStored.writeIf [.connecting] .connected } v' →
      ConnectStep died fresh works v v'
  /-- The worker is at capacity. -/
  | full (v₁ : View) : NotUp died v v₁ → ConnectStep died fresh works v
      { v₁ with toStored := v₁.toStored.writeIf [.connecting, .starting] .error }
  /-- A new session is opened in the place of none, or of a dead one. -/
  | opens (v₁ v' : View) : NotUp died v v₁ → OpenStep died fresh works v₁ v' →
      ConnectStep died fresh works v v'

/-- What is stored when `_handle_connect` is killed. -/
inductive ConnectKilled (fresh : ℕ) (works : Prop) (v : View) : Stored → Prop
  /-- Nothing was committed. -/
  | before : ConnectKilled fresh works v v.toStored
  /-- The status write was. -/
  | marked : ConnectKilled fresh works v (v.toStored.writeIf [.connecting] .connected)
  /-- The row of a start on the old session was. -/
  | restarted (s : SessionId) (x : ChannelSession) : v.session = some (s, x) →
      x.isConnected = true → x.recording = false → v.pending = true → ConnectKilled fresh works v
        ⟨v.status.map fun _ => .recording, Function.update v.rows fresh (some s)⟩
  /-- The row of a start on the new session was. -/
  | started : works → v.status = some .starting ∨ v.pending = true → ConnectKilled fresh works v
      ⟨v.status.map fun _ => .recording, Function.update v.rows (fresh + 1) (some fresh)⟩

/-! ## The environment -/

namespace Steady

variable {o : Oracle Call} {w : World} {s : SessionId}

/-- A steady environment fails only what may fail. -/
theorem ne_fail (h : Steady o) (n : ℕ) {k : Call} (hk : k.mayFail = false)
    (hp : k.isPop = false) : o n k ≠ .fail := by
  intro hf
  rcases h n k hf with h' | h'
  · exact absurd h' (by simp [hk])
  · exact absurd h' (by simp [hp])

theorem not_may (h : Steady o) {k : Call} (hk : k.mayFail = false) (hp : k.isPop = false) :
    ¬ May o .fail k := by
  rintro ⟨n, hn⟩
  exact h.ne_fail n hk hp hn

theorem db (h : Steady o) (n : ℕ) (k : Call) (hk : k.isDb = true) : o n k ≠ .fail := by
  refine h.ne_fail n ?_ ?_ <;> cases k <;> simp_all [Call.isDb, Call.mayFail, Call.isPop]

/-- It publishes what is completed. -/
theorem not_unpublished (h : Steady o) : ¬ Unpublished o := by
  rintro (hp | hp)
  · exact h.not_may rfl rfl hp
  · exact h.not_may rfl rfl hp

/-- It lists the files of a capture. -/
theorem not_unlistable (h : Steady o) : ¬ (Unlistable o w s ∨ Unsizable o w s) := by
  rintro (⟨-, -, hl | hl⟩ | ⟨-, hl⟩)
  · exact h.not_may rfl rfl hl
  · exact h.not_may rfl rfl hl
  · exact h.not_may rfl rfl hl

/-- It closes sessions. -/
theorem not_unclosable (h : Steady o) : ¬ Unclosable o w s := by
  rintro (hl | ⟨-, hl⟩ | ⟨-, hl⟩)
  · exact h.not_unlistable (Or.inl hl)
  · exact h.not_unlistable (Or.inr hl)
  · exact h.not_may rfl rfl hl

end Steady

/-- The environment of a worker that is never killed, with database and Redis up. -/
def Healthy (o : Oracle Call) : Prop :=
  ∀ n k, o n k ≠ .crash ∧ (o n k = .fail → k.mayFail = true)

/-- A healthy environment is steady. -/
theorem Healthy.steady {o : Oracle Call} (h : Healthy o) : Steady o :=
  fun n k hf => Or.inl ((h n k).2 hf)

/-- And it kills nothing. -/
theorem Healthy.not_mayCrash {o : Oracle Call} (h : Healthy o) : ¬ MayCrash o := by
  rintro ⟨n, k, hc⟩
  exact (h n k).1 hc

/-- Where every call works. -/
theorem healthy_allOk : Healthy allOk := by
  intro n k
  simp [allOk]

section Specs

variable {o : Oracle Call} {E : PyError → ℕ → World → Prop} {C : World → Prop} {n : ℕ}
  {w : World}

/-- A call that works. -/
theorem wp_external_of {Q : Unit → ℕ → World → Prop} {k : Call} (ho : Steady o)
    (hk : k.mayFail = false) (hp : k.isPop = false) (hQ : ∀ n', Q () n' w)
    (hC : MayCrash o → C w) : wp o (external k) Q E C n w := by
  rw [wp_external]
  exact ⟨fun _ => hQ _, fun h => absurd h (ho.ne_fail _ hk hp), fun h => hC ⟨_, _, h⟩⟩

/-- The process was killed, and what is stored about channel `c` is as `killed` says. -/
structure Killed (o : Oracle Call) (c : ChannelId) (w : World) (killed : Stored → Prop)
    (w' : World) : Prop where
  /-- Only where a call can kill the process. -/
  crash : MayCrash o
  /-- Other channels have kept what they had. -/
  store : StoreLocal c w w'
  /-- What is stored of this one is a state in the middle of the handler. -/
  stored : Sound w → killed (w'.stored c)

/-- Run from `u`, the program ends normally, having touched only channel `c` since `w`: its
view is then as `step` says.  If it is killed, what is stored is as `killed` says. -/
def Acts (o : Oracle Call) (c : ChannelId) (w : World) (m : Handler Unit)
    (step : Bool → View → Prop) (killed : Stored → Prop) (n : ℕ) (u : World) : Prop :=
  wp o m (fun _ _ w' => Local c w w' ∧ (Sound w → step w'.died (w'.view c)))
    (fun _ _ _ => False) (Killed o c w killed) n u

namespace Acts

variable {c : ChannelId} {u : World} {m : Handler Unit} {step step' : Bool → View → Prop}
  {killed killed' : Stored → Prop}

/-- **Sequencing**: what was done before is done on the same channel. -/
theorem after (h : Local c w u) (hm : Acts o c u m step killed n u)
    (hstep : Sound w → ∀ d v, (d = false → u.died = false) → step d v → step' d v)
    (hkilled : Sound w → ∀ x, killed x → killed' x) : Acts o c w m step' killed' n u := by
  refine wp_mono hm (fun _ _ w' hw' => ?_) (fun _ _ _ h => h) fun w' hw' => ?_
  · exact ⟨h.trans hw'.1, fun hs => hstep hs _ _ hw'.1.died (hw'.2 (h.sound hs))⟩
  · exact ⟨hw'.crash, StoreLocal.trans h hw'.store,
      fun hs => hkilled hs _ (hw'.stored (h.sound hs))⟩

/-- A kill before anything is stored. -/
theorem killed_of (h : Local c w u) (hstore : Sound w → u.stored c = w.stored c)
    (hk : killed (w.stored c)) (hcrash : MayCrash o) : Killed o c w killed u :=
  ⟨hcrash, StoreLocal.of_local h (SameStore.rfl' u), fun hs => by rwa [hstore hs]⟩

/-- A program that is not killed ends as `step` says. -/
theorem final (hm : Acts o c w m step killed 0 w) (ho : ¬ MayCrash o) :
    Local c w (Prog.final o m w) ∧
      (Sound w → step (Prog.final o m w).died ((Prog.final o m w).view c)) := by
  refine final_of_wp (P := fun w' => Local c w w' ∧ (Sound w → step w'.died (w'.view c))) ?_
  exact wp_mono hm (fun _ _ _ h => h) (fun _ _ _ h => h.elim) fun _ h => absurd h.crash ho

end Acts

end Specs
