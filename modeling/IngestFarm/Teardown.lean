/-
# Who tears down a session

A session is up from the end of its `connect()` until its teardown begins, and its pipeline or
child process lives as long.  `_sessions` is what `worker_capacity` is compared with, so a session
that is up should be in it.  Three ways out of `_sessions` do not begin a teardown: a heartbeat
forgets the sessions it finds dead, a connect handler puts a fresh session in the place of one,
and a disconnect handler takes the session out before it finishes the recording, which may raise.

`Tracked` says that every session that is up stands in `_sessions`.  Most handlers only let sessions
die (`Holds`), which keeps that; the three ways out are conditions on a step (`Abandons`), each in
terms of the state before it and of the calls that fail.
-/
import IngestFarm.Frames
import IngestFarm.Ownership

open Prog

/-- `connect()` has returned and `_teardown` has not begun. -/
def ChannelSession.isUp (x : ChannelSession) : Bool := x.pipeline && !x.stopping

/-! ## Programs that return -/

namespace Prog

variable {κ ε σ α β : Type}

/-- From every state and at every call, `m` returns unless it is killed. -/
def Returns (o : Oracle κ) (m : Prog κ ε σ α) : Prop :=
  ∀ (n : ℕ) (s : σ), wp o m (fun _ _ _ => True) (fun _ _ _ => False)
    (fun _ => ∃ n k, o n k = .crash) n s

namespace Returns

variable {o : Oracle κ} {m : Prog κ ε σ α}

theorem pure (a : α) : Returns o (pure a : Prog κ ε σ α) := fun _ _ => trivial

theorem reads (f : σ → α) : Returns o (reads f : Prog κ ε σ α) := fun _ _ => trivial

/-- A state change returns. -/
theorem modify (f : σ → σ) : Returns o (modify f : Prog κ ε σ Unit) := fun _ _ => trivial

/-- A call returns if it cannot fail. -/
theorem call {k : κ} (e : ε) (hk : ∀ n, o n k ≠ .fail) :
    Returns o (call k e : Prog κ ε σ Unit) := by
  intro n s
  rw [wp_call]
  exact ⟨fun _ => trivial, fun hf => absurd hf (hk n), fun hc => ⟨n, k, hc⟩⟩

/-- **Sequencing.** -/
theorem bind {f : α → Prog κ ε σ β} (hm : Returns o m) (hf : ∀ a, Returns o (f a)) :
    Returns o (m >>= f) := by
  intro n s
  rw [wp_bind]
  exact wp_mono (hm n s) (fun a n' t _ => hf a n' t) (fun _ _ _ h => h) fun _ h => h

/-- Either branch returns. -/
theorem ite {b : Prop} [Decidable b] {m' : Prog κ ε σ α} (hm : Returns o m)
    (hm' : Returns o m') : Returns o (if b then m else m') := by
  split
  · exact hm
  · exact hm'

theorem whenever {b : Prop} [Decidable b] {m : Prog κ ε σ Unit} (hm : Returns o m) :
    Returns o (whenever b m) := ite hm (pure ())

end Returns

end Prog

/-! ## Sessions that stay -/

/-- `_sessions` is as it was, and no session has come up. -/
structure Holds (w w' : World) : Prop where
  sessions : w'.sessions = w.sessions
  up : ∀ s, (w'.heap s).isUp = true → (w.heap s).isUp = true

/-- Holding on to the sessions is a frame. -/
theorem frame_holds : Frame Holds :=
  ⟨fun _ => ⟨rfl, fun _ h => h⟩, fun _ _ _ h h' =>
    ⟨h'.sessions.trans h.sessions, fun s hs => h.up s (h'.up s hs)⟩⟩

/-- A change of one session object that does not bring it up. -/
theorem holds_of_update {w w' : World} {s : SessionId} {x : ChannelSession}
    (hsess : w'.sessions = w.sessions) (hheap : w'.heap = Function.update w.heap s x)
    (hx : x.isUp = true → (w.heap s).isUp = true) : Holds w w' := by
  refine ⟨hsess, fun s' hs' => ?_⟩
  rw [hheap] at hs'
  by_cases hss : s' = s
  · subst hss
    rw [Function.update_self] at hs'
    exact hx hs'
  · rwa [Function.update_of_ne hss] at hs'

/-- It is one for the handlers of a channel. -/
theorem workerFrame_holds : WorkerFrame Holds where
  refl := frame_holds.refl
  trans := frame_holds.trans
  session _ := {
    refl := frame_holds.refl
    trans := frame_holds.trans
    die := fun _ => holds_of_update rfl rfl id
    prepare := fun _ _ => holds_of_update rfl rfl id
    setRecording := fun _ _ => holds_of_update rfl rfl id
    setCount := fun _ _ => holds_of_update rfl rfl id
    markStopping := fun _ => holds_of_update rfl rfl fun h => by simp [ChannelSession.isUp] at h
    close := fun _ => holds_of_update rfl rfl fun h => by simp [ChannelSession.isUp] at h }
  addStats _ _ := ⟨rfl, fun _ h => h⟩
  dropStats _ _ := ⟨rfl, fun _ h => h⟩
  note _ _ := ⟨rfl, fun _ h => h⟩
  push _ _ _ := ⟨rfl, fun _ h => h⟩
  addPending _ _ := ⟨rfl, fun _ h => h⟩
  dropPending _ _ := ⟨rfl, fun _ h => h⟩
  dropRecordingId _ _ := ⟨rfl, fun _ h => h⟩
  setStatus _ _ _ := ⟨rfl, fun _ h => h⟩
  endRecording _ _ _ _ := ⟨rfl, fun _ h => h⟩
  setCounts _ _ _ _ := ⟨rfl, fun _ h => h⟩

/-- A start drops no session. -/
theorem holds_handleRecordStart (c : ChannelId) :
    Keeps Holds (fun _ => True) (IngestWorker.handleRecordStart c) :=
  workerFrame_holds.handleRecordStart (fun _ _ _ _ => ⟨rfl, fun _ h => h⟩)
    (fun _ => ⟨rfl, fun _ h => h⟩) fun _ _ => ⟨rfl, fun _ h => h⟩

/-- Every session that is up is in `_sessions`, which is within capacity. -/
structure Tracked (cfg : Settings) (w : World) : Prop where
  held : ∀ s, (w.heap s).isUp = true → ∃ c, w.sessions.lookup c = some s
  capacity : w.sessions.keys.length ≤ cfg.workerCapacity

/-- What is held stays tracked. -/
theorem Holds.tracked {cfg : Settings} {w w' : World} (h : Holds w w') (hw : Tracked cfg w) :
    Tracked cfg w' := by
  constructor
  · intro s hs
    rw [h.sessions]
    exact hw.held s (h.up s hs)
  · rw [h.sessions]
    exact hw.capacity

/-! ## The handlers -/

/-- The calls that a disconnect handler makes before it tears its session down. -/
def Call.finishes : Call → Bool
  | .dbQuery | .dbCommit | .redisPush _ | .listSegments _ | .statSegments _ | .totalSize _ => true
  | _ => false

/-- A call that finishes a recording fails. -/
def Fumbles (o : Oracle Call) : Prop := ∃ n k, Call.finishes k = true ∧ o n k = .fail

section Handlers

variable {o : Oracle Call} {n : ℕ} {w : World} {c : ChannelId} {s : SessionId} {cfg : Settings}

/-- A call that finishes a recording does not fail here. -/
theorem returns_external (ho : ¬ Fumbles o) {k : Call} (hk : k.finishes = true) :
    Returns o (external k) := Returns.call _ fun n hf => ho ⟨n, k, hk, hf⟩

/-- A query returns. -/
theorem returns_query {α : Type} (ho : ¬ Fumbles o) (f : Database → α) : Returns o (query f) :=
  (returns_external ho rfl).bind fun _ => Returns.reads _

/-- So does the stop of a capture. -/
theorem returns_stopRecording (ho : ¬ Fumbles o) (s : SessionId) :
    Returns o (ChannelSession.stopRecording s) := by
  unfold ChannelSession.stopRecording ChannelSession.countSegments
  refine (Returns.reads _).bind fun recording => Returns.whenever ?_
  refine (Returns.modify _).bind fun _ => (Returns.reads _).bind fun dir => ?_
  cases dir with
  | none => exact Returns.pure ()
  | some dir =>
    refine (returns_external ho rfl).bind fun _ => (Returns.modify _).bind fun _ => ?_
    exact returns_external ho rfl

/-- A recording can be finished when the calls for it work. -/
theorem returns_finalizeRecording (ho : ¬ Fumbles o) (c : ChannelId) (s : SessionId) :
    Returns o (IngestWorker.finalizeRecording c s) := by
  have hannounce : ∀ q r, Returns o (IngestWorker.announce q c r) := by
    intro q r
    unfold IngestWorker.announce publishEvent
    refine Returns.bind (Returns.bind (returns_external ho rfl) fun _ => Returns.modify _)
      fun _ => Returns.modify _
  unfold IngestWorker.finalizeRecording IngestWorker.finishRecording
  refine (Returns.reads _).bind fun recording => (Returns.reads _).bind fun known => ?_
  apply Returns.ite (Returns.pure ())
  refine Returns.bind (Returns.whenever (returns_stopRecording ho s)) fun _ => ?_
  refine (Returns.reads _).bind fun session => ?_
  have hmeasure : Returns o (IngestWorker.measure s session.outputDir) := by
    unfold IngestWorker.measure
    cases session.outputDir with
    | none => exact Returns.pure 0
    | some dir => exact (returns_external ho rfl).bind fun _ => Returns.reads _
  refine hmeasure.bind fun bytes => (Returns.reads _).bind fun files => ?_
  refine (Returns.reads _).bind fun id => (Returns.modify _).bind fun _ => ?_
  have hfind : Returns o (IngestWorker.findRecording c id) := by
    unfold IngestWorker.findRecording
    cases id with
    | none => exact returns_query ho _
    | some r =>
      refine (returns_query ho _).bind fun found => ?_
      exact Returns.ite (Returns.pure _) (returns_query ho _)
  refine hfind.bind fun row => ?_
  unfold IngestWorker.completeRecording commit
  cases row with
  | none => exact Returns.pure ()
  | some r =>
    refine (Returns.reads _).bind fun now => ?_
    refine Returns.bind ((returns_external ho rfl).bind fun _ => Returns.modify _) fun _ => ?_
    refine (Returns.modify _).bind fun _ => (returns_external ho rfl).bind fun _ => ?_
    exact (hannounce _ r).bind fun _ => hannounce _ r

/-- What a handler that keeps `_sessions` ends in. -/
theorem Tracked.keeps {α : Type} {S : α → Prop} {m : Handler α} {u : World} (hw : Tracked cfg w)
    (hu : Holds w u) (h : Keeps Holds S m) :
    wp o m (fun _ _ w' => Tracked cfg w') (fun _ _ w' => Tracked cfg w') (Tracked cfg) n u :=
  wp_mono (h.from_ frame_holds hu) (fun _ _ _ h => h.1.tracked hw) (fun _ _ _ h => h.tracked hw)
    fun _ h => h.tracked hw

/-- **`disconnect()`** begins the teardown, unless the count of the segments raises first. -/
theorem wp_disconnectSession (hret : (w.heap s).recording = true → ¬ Fumbles o) :
    wp o (ChannelSession.disconnect s)
      (fun _ _ w' => Holds w w' ∧ (w'.heap s).isUp = false)
      (fun _ _ w' => Holds w w' ∧ (w'.heap s).isUp = false) (fun _ => MayCrash o) n w := by
  have hteardown : ∀ n₁ u, Holds w u → wp o (ChannelSession.teardown s)
      (fun _ _ w' => Holds w w' ∧ (w'.heap s).isUp = false)
      (fun _ _ w' => Holds w w' ∧ (w'.heap s).isUp = false) (fun _ => MayCrash o) n₁ u := by
    intro n₁ u hu
    unfold ChannelSession.teardown
    rw [wp_bind, wp_reads, wp_whenever]
    refine ⟨fun _ => ?_, fun hstop => ⟨hu, ?_⟩⟩
    · rw [wp_bind, wp_modify, wp_bind, wp_external]
      have hmark : Holds w (u.updSession s ChannelSession.markStopping) :=
        frame_holds.trans _ _ _ hu ((workerFrame_holds.session s).markStopping u)
      refine ⟨fun _ => ⟨?_, ?_⟩, fun _ => ⟨hmark, ?_⟩, fun hc => ⟨_, _, hc⟩⟩
      · exact frame_holds.trans _ _ _ hmark ((workerFrame_holds.session s).close _)
      · simp [ChannelSession.isUp]
      · simp [ChannelSession.isUp]
    · have hstop' : (u.heap s).stopping = true := Bool.of_not_eq_false hstop
      simp [ChannelSession.isUp, hstop']
  unfold ChannelSession.disconnect
  rw [wp_bind, wp_reads, wp_bind, wp_whenever]
  refine ⟨fun hrec => ?_, fun _ => hteardown n w (frame_holds.refl w)⟩
  refine wp_mono (wp_and ((workerFrame_holds.session s).stopRecording o n w)
    (returns_stopRecording (hret hrec) s n w)) (fun _ n₁ u hu => hteardown n₁ u hu.1.1)
    (fun _ _ _ hf => hf.2.elim) fun _ hc => hc.2

/-- **A disconnect** takes the session out and begins its teardown, unless a call that finishes
the recording fails. -/
theorem wp_disconnect_tracked (hw : Tracked cfg w)
    (hcare : ∀ s, w.sessions.lookup c = some s → (w.heap s).recording = true → ¬ Fumbles o) :
    wp o (IngestWorker.handleDisconnect c) (fun _ _ w' => Tracked cfg w')
      (fun _ _ w' => Tracked cfg w') (fun w' => MayCrash o ∨ Tracked cfg w') n w := by
  obtain ⟨u₀, hu₀, hsess, hheap⟩ : ∃ u₀, u₀ = (w.dropPending c).dropSession c ∧
      u₀.sessions = w.sessions.erase c ∧ u₀.heap = w.heap := ⟨_, rfl, rfl, rfl⟩
  have hcap : u₀.sessions.keys.length ≤ cfg.workerCapacity := by
    rw [hsess, AList.keys_erase]
    exact (List.length_erase_le ..).trans hw.capacity
  -- The channels that keep their session.
  have hheld : ∀ s, (w.heap s).isUp = true → w.sessions.lookup c ≠ some s →
      ∃ d, u₀.sessions.lookup d = some s := by
    intro s hs hne
    obtain ⟨d, hd⟩ := hw.held s hs
    refine ⟨d, ?_⟩
    rw [hsess, Dict.lookup_erase, if_neg]
    · exact hd
    · rintro rfl
      exact hne hd
  have hrest : Keeps Holds (fun _ => True) (do
      IngestWorker.clearStats c
      let ch ← query fun db => db.status c
      whenever (ch.any (· ∈ activeStatuses)) (commit (Database.setStatus c .idle))) := by
    refine Keeps.seq frame_holds (workerFrame_holds.clearStats c) fun _ => ?_
    refine Keeps.queried frame_holds fun ch => Keeps.whenever frame_holds fun _ => ?_
    exact Stages.commit frame_holds (workerFrame_holds.setStatus c _)
  have hfinish : ∀ n₁ u, Tracked cfg u → wp o (do
      IngestWorker.clearStats c
      let ch ← query fun db => db.status c
      whenever (ch.any (· ∈ activeStatuses)) (commit (Database.setStatus c .idle)))
      (fun _ _ w' => Tracked cfg w') (fun _ _ w' => Tracked cfg w')
      (fun w' => MayCrash o ∨ Tracked cfg w') n₁ u :=
    fun n₁ u hu => wp_mono (hu.keeps (frame_holds.refl u) hrest) (fun _ _ _ h => h)
      (fun _ _ _ h => h) fun _ h => Or.inr h
  unfold IngestWorker.handleDisconnect
  rw [wp_bind, wp_modify, wp_bind, wp_reads, World.dropPending_sessions, wp_bind, wp_modify,
    wp_bind, ← hu₀]
  rcases hs : w.sessions.lookup c with _ | s
  · have htracked : Tracked cfg u₀ := by
      refine ⟨fun s hup => hheld s (hheap ▸ hup) ?_, hcap⟩
      rw [hs]
      simp
    exact hfinish n u₀ htracked
  · -- The session that is taken out is not up any more.
    have htracked : ∀ u, Holds u₀ u → (u.heap s).isUp = false → Tracked cfg u := by
      intro u hu hdown
      refine ⟨fun s' hup => ?_, by rw [hu.sessions]; exact hcap⟩
      have hne : s' ≠ s := by
        rintro rfl
        exact absurd (hdown.symm.trans hup) (by decide)
      rw [hu.sessions]
      refine hheld s' (hheap ▸ hu.up s' hup) fun h => hne ?_
      exact (Option.some.inj (hs.symm.trans h)).symm
    have hclose : ∀ n₁ u, Holds u₀ u → ((u.heap s).recording = true → ¬ Fumbles o) →
        wp o (ChannelSession.disconnect s) (fun _ n₂ u₂ => wp o (do
          IngestWorker.clearStats c
          let ch ← query fun db => db.status c
          whenever (ch.any (· ∈ activeStatuses)) (commit (Database.setStatus c .idle)))
          (fun _ _ w' => Tracked cfg w') (fun _ _ w' => Tracked cfg w')
          (fun w' => MayCrash o ∨ Tracked cfg w') n₂ u₂) (fun _ _ w' => Tracked cfg w')
          (fun w' => MayCrash o ∨ Tracked cfg w') n₁ u := by
      intro n₁ u hu hret
      refine wp_mono (wp_disconnectSession hret) ?_ ?_ fun _ hc => Or.inl hc
      · rintro _ n₂ u₂ ⟨hu₂, hdown⟩
        exact hfinish n₂ u₂ (htracked u₂ (frame_holds.trans _ _ _ hu hu₂) hdown)
      · rintro _ _ u₂ ⟨hu₂, hdown⟩
        exact htracked u₂ (frame_holds.trans _ _ _ hu hu₂) hdown
    unfold IngestWorker.closeSession
    dsimp only
    rw [wp_bind, wp_reads, wp_bind, wp_whenever]
    refine ⟨fun hrec => ?_, fun hrec => hclose n u₀ (frame_holds.refl u₀) fun h => absurd h hrec⟩
    have hret := hcare s hs (hheap ▸ hrec)
    refine wp_mono (wp_and (workerFrame_holds.finalizeRecording c s o n u₀)
      (returns_finalizeRecording hret c s n u₀)) ?_ (fun _ _ _ hf => hf.2.elim)
      fun _ hc => Or.inl hc.2
    rintro _ n₁ u ⟨⟨hu, -⟩, -⟩
    exact hclose n₁ u hu fun _ => hret

/-- **A heartbeat** that finds no session dead. -/
theorem wp_heartbeat_tracked (hw : Tracked cfg w)
    (hcare : o n .dbQuery = .ok → ∀ c s, w.sessions.lookup c = some s →
      (w.heap s).isConnected = true ∧ ∀ n, o n (.poll s) ≠ .fail) :
    wp o (IngestWorker.heartbeat cfg) (fun _ _ w' => Tracked cfg w')
      (fun _ _ w' => Tracked cfg w') (Tracked cfg) n w := by
  have hsame : ∀ u : World, u.sessions = w.sessions ∧ u.heap = w.heap → Tracked cfg u := by
    rintro u ⟨hsess, hheap⟩
    exact Holds.tracked ⟨hsess, fun s hs => hheap ▸ hs⟩ hw
  unfold IngestWorker.heartbeat
  rw [wp_bind, wp_query]
  refine ⟨fun hok => ?_, fun _ => hw, fun _ => hw⟩
  rw [wp_bind, wp_reads, wp_bind, wp_reads, wp_bind, wp_reads, wp_bind]
  refine wp_fold (I := fun rest _ u => (∀ e ∈ rest, w.sessions.lookup e.1 = some e.2) ∧
    u.sessions = w.sessions ∧ u.heap = w.heap) ?_ ?_ _ _ _ _
    ⟨fun e he => Dict.mem_entries_iff.mp he, rfl, rfl⟩
  · rintro e rest staged n₁ u ⟨hrest, hu⟩
    obtain ⟨hup, hpoll⟩ := hcare hok e.1 e.2 (hrest e List.mem_cons_self)
    have hrest' : ∀ e' ∈ rest, w.sessions.lookup e'.1 = some e'.2 :=
      fun e' he' => hrest e' (List.mem_cons_of_mem _ he')
    unfold IngestWorker.heartbeatSession
    rw [wp_bind, ChannelSession.wp_checkConnected]
    refine ⟨fun _ => ?_, fun hf => absurd hf (hpoll n₁), fun _ => hsame u hu⟩
    rw [hu.2, hup, if_pos rfl, wp_bind]
    unfold IngestWorker.publishStats
    simp only [wp_attempt, wp_bind, wp_external, wp_modify, wp_pure]
    exact ⟨fun _ => ⟨hrest', hu⟩, fun _ => ⟨hrest', hu⟩, fun _ => hsame u hu⟩
  · rintro staged n₁ u ⟨-, hu⟩
    rw [wp_bind, wp_commit]
    exact ⟨fun _ => hsame _ hu, fun _ => hsame u hu, fun _ => hsame u hu⟩

/-- The part of a connect handler that opens a session: the fresh session is held from the moment
it is up. -/
theorem wp_openSession_tracked {u : World} (hw : Tracked cfg w) (hu : Holds w u)
    (hcap : w.sessions.keys.length < cfg.workerCapacity)
    (hcare : u.db.status c ≠ none → o (n + 2) (.connect u.nextId) = .ok →
      w.sessions.lookup c = none) :
    wp o (IngestWorker.openSession c) (fun _ _ w' => Tracked cfg w')
      (fun _ _ w' => Tracked cfg w') (Tracked cfg) n u := by
  have hfailed : ∀ n₁ u₁, Tracked cfg u₁ → wp o (IngestWorker.connectFailed c)
      (fun _ _ w' => Tracked cfg w') (fun _ _ w' => Tracked cfg w') (Tracked cfg) n₁ u₁ := by
    intro n₁ u₁ hu₁
    refine hu₁.keeps (frame_holds.refl u₁) (S := fun _ => True) ?_
    unfold IngestWorker.connectFailed
    refine Keeps.queried frame_holds fun ch => Keeps.whenever frame_holds fun _ => ?_
    exact Stages.commit frame_holds (workerFrame_holds.setStatus c _)
  have hu' := hu.tracked hw
  unfold IngestWorker.openSession channelToConfig ChannelSession.create
  rw [wp_bind, wp_query]
  refine ⟨fun _ => ?_, fun _ => hu', fun _ => hu'⟩
  rcases hch : u.db.channels.lookup c with _ | ch
  · exact hu'
  · have hst : u.db.status c ≠ none := by simp [Database.status, hch]
    simp only [wp_bind, wp_external, wp_pure, wp_reads, wp_modify, wp_attempt]
    refine ⟨fun _ => ?_, fun _ => hu', fun _ => hu'⟩
    -- `u₁` has the session object, which is not up yet.
    obtain ⟨u₁, hu₁, hnew⟩ : ∃ u₁, u₁ = u.takeId.updSession u.nextId
        (fun _ => ChannelSession.new ch.protocol) ∧ Holds u u₁ :=
      ⟨_, rfl, holds_of_update rfl rfl fun h => absurd h (by simp [ChannelSession.isUp,
        ChannelSession.new])⟩
    rw [← hu₁]
    have hold := frame_holds.trans _ _ _ hu hnew
    unfold IngestWorker.connectSession ChannelSession.connect
    rw [wp_bind, wp_bind, wp_external]
    refine ⟨fun hok => ?_, fun _ => hfailed _ u₁ (hold.tracked hw), fun _ => hold.tracked hw⟩
    have hnone := hcare hst hok
    rw [wp_modify, wp_bind, wp_modify]
    have hset : Tracked cfg (World.setSession c u.nextId
        (World.updSession u.nextId ChannelSession.markConnected u₁)) := by
      constructor
      · intro s hup
        by_cases hs : s = u.nextId
        · exact ⟨c, by simp [hs]⟩
        · have hup₁ : (u₁.heap s).isUp = true := by simpa [hs] using hup
          obtain ⟨d, hd⟩ := hw.held s (hold.up s hup₁)
          have hne : d ≠ c := by
            rintro rfl
            exact absurd (hnone.symm.trans hd) (by simp)
          refine ⟨d, ?_⟩
          show (Dict.set c u.nextId u₁.sessions).lookup d = some s
          rw [Dict.lookup_set, if_neg hne, hold.sessions]
          exact hd
      · have hkeys : c ∉ u₁.sessions.keys := by
          rw [hold.sessions]
          exact AList.lookup_eq_none.mp hnone
        show (Dict.set c u.nextId u₁.sessions).keys.length ≤ _
        have hlen : (Dict.set c u.nextId u₁.sessions).keys.length =
            w.sessions.keys.length + 1 := by
          unfold AList.keys
          rw [Dict.entries_set_of_not_mem hkeys, hold.sessions]
          simp [List.keys]
        rw [hlen]
        omega
    refine wp_mono (Tracked.keeps (S := fun _ => True) hset (frame_holds.refl _) ?_)
      (fun _ _ _ h => h) (fun _ n₁ u₂ h => hfailed n₁ u₂ h) fun _ h => h
    refine Keeps.queried frame_holds fun st => ?_
    refine Keeps.seq frame_holds (Keeps.whenever frame_holds fun _ => ?_) fun _ => ?_
    · exact Stages.commit frame_holds (stages_ite (workerFrame_holds.setStatus c _)
        (stages_id frame_holds))
    · refine Keeps.read frame_holds fun pending => Keeps.whenever frame_holds fun _ => ?_
      exact holds_handleRecordStart c

/-- **A connect** that does not put a session in the place of another. -/
theorem wp_connect_tracked (hw : Tracked cfg w)
    (hcare : Opens cfg o 0 c w → w.sessions.lookup c = none) :
    wp o (IngestWorker.handleConnect cfg c) (fun _ _ w' => Tracked cfg w')
      (fun _ _ w' => Tracked cfg w') (Tracked cfg) 0 w := by
  -- What happens once the session is found missing or dead.
  have hopen : ∀ n u, Holds w u → u.db = w.db → u.nextId = w.nextId →
      (w.sessions.keys.length < cfg.workerCapacity → w.db.status c ≠ none →
        o (n + 2) (.connect w.nextId) = .ok → Opens cfg o 0 c w) →
      wp o (do
        let held ← reads fun w => w.sessions.keys.length
        if cfg.workerCapacity ≤ held then do
          let ch ← query fun db => db.status c
          whenever (ch.any (· ∈ [.connecting, .starting])) (commit (Database.setStatus c .error))
        else IngestWorker.openSession c) (fun _ _ w' => Tracked cfg w')
      (fun _ _ w' => Tracked cfg w') (Tracked cfg) n u := by
    intro n u hu hdb hid hopens
    rw [wp_bind, wp_reads, wp_ite]
    refine ⟨fun _ => ?_, fun hcap => ?_⟩
    · refine hw.keeps hu (S := fun _ => True) ?_
      refine Keeps.queried frame_holds fun ch => Keeps.whenever frame_holds fun _ => ?_
      exact Stages.commit frame_holds (workerFrame_holds.setStatus c _)
    · have hcap' : w.sessions.keys.length < cfg.workerCapacity := by
        rw [← hu.sessions]
        exact not_le.mp hcap
      refine wp_openSession_tracked hw hu hcap' fun hst hok => hcare (hopens hcap' ?_ ?_)
      · rwa [← hdb]
      · rwa [← hid]
  unfold IngestWorker.handleConnect IngestWorker.alreadyConnected
  rw [wp_bind, wp_bind, wp_reads]
  rcases hs : w.sessions.lookup c with _ | s
  · rw [wp_pure, if_neg (by decide)]
    refine hopen 0 w (frame_holds.refl w) rfl rfl fun hcap hst hok => ⟨hcap, hst, ?_⟩
    rw [hs]
    exact hok
  · dsimp only
    rw [ChannelSession.wp_checkConnected]
    refine ⟨fun _ => ?_, fun hpoll => ?_, fun _ => hw⟩
    · rcases hup : (w.heap s).isConnected with _ | _
      · rw [if_neg (by decide)]
        refine hopen 1 w (frame_holds.refl w) rfl rfl fun hcap hst hok => ⟨hcap, hst, ?_⟩
        rw [hs]
        exact ⟨Or.inl hup, hok⟩
      · rw [if_pos rfl]
        refine hw.keeps (frame_holds.refl w) (S := fun _ => True) ?_
        refine Keeps.queried frame_holds fun ch => ?_
        refine Keeps.seq frame_holds (Keeps.whenever frame_holds fun _ => ?_) fun _ => ?_
        · exact Stages.commit frame_holds (workerFrame_holds.setStatus c _)
        · refine Keeps.read frame_holds fun pending => Keeps.whenever frame_holds fun _ => ?_
          exact holds_handleRecordStart c
    · rw [if_neg (by decide)]
      refine hopen 1 (w.die s) ((workerFrame_holds.session s).die w) rfl rfl
        fun hcap hst hok => ⟨hcap, hst, ?_⟩
      rw [hs]
      exact ⟨Or.inr hpoll, hok⟩

end Handlers

/-! ## The worker -/

/-- One behaviour of an environment that does not kill the process; any call may fail. -/
abbrev Survivable := {o : Oracle Call // ¬ MayCrash o}

/-- One step of a worker, or of what surrounds it. -/
inductive FaultyStep where
  | request (r : Request) (c : ChannelId)
  | pop (q : Queue)
  | connect (c : ChannelId) (o : Survivable)
  | control (op : Op) (c : ChannelId) (o : Survivable)
  | reset (c : ChannelId) (o : Survivable)
  | heartbeat (o : Survivable)
  | die (s : SessionId)

/-- The state after a step; a handler may have raised.  A tick is `heartbeat`, `pop`s, `control`s
and `reset`s in one. -/
def FaultyStep.run (cfg : Settings) (w : World) : FaultyStep → Option World
  | request r c => some (w.request r c)
  | pop q => some (w.setList q (w.lists q).tail)
  | connect c o => some (final o.1 (IngestWorker.handleConnect cfg c) w)
  | control op c o => some (final o.1 (IngestWorker.handlers op c) w)
  | reset c o => some (final o.1 (IngestWorker.handleEtr290Reset c) w)
  | heartbeat o => some (final o.1 (IngestWorker.heartbeat cfg) w)
  | die s => some (w.die s)

/-- The step takes a session out of `_sessions` without its teardown: a heartbeat finds one dead,
a connect handler puts another in its place, or a disconnect handler cannot finish the recording
of one. -/
def Abandons (cfg : Settings) (w : World) : FaultyStep → Prop
  | .heartbeat o => o.1 0 .dbQuery = .ok ∧ ∃ c s, w.sessions.lookup c = some s ∧
      ((w.heap s).isConnected = false ∨ ∃ n, o.1 n (.poll s) = .fail)
  | .connect c o => Opens cfg o.1 0 c w ∧ w.sessions.lookup c ≠ none
  | .control .disconnect c o => Fumbles o.1 ∧
      ∃ s, w.sessions.lookup c = some s ∧ (w.heap s).recording = true
  | _ => False

/-- A worker without sessions. -/
structure NoSessions (w : World) : Prop where
  sessions : w.sessions = ∅
  heap : ∀ s, (w.heap s).isUp = false

/-- **One step**, unless it abandons a session. -/
theorem tracked_step {cfg : Settings} {w w' : World} {a : FaultyStep} (h : Tracked cfg w)
    (hcare : ¬ Abandons cfg w a) (hstep : a.run cfg w = some w') : Tracked cfg w' := by
  -- A kill is none of these steps, so what holds after every end of the program holds.
  have hrule : ∀ {m : Handler Unit} (o : Survivable),
      wp o.1 m (fun _ _ w' => Tracked cfg w') (fun _ _ w' => Tracked cfg w')
        (fun w' => MayCrash o.1 ∨ Tracked cfg w') 0 w → Tracked cfg (final o.1 m w) :=
    fun o hm => final_of_wp (P := Tracked cfg) (wp_mono hm (fun _ _ _ h => h) (fun _ _ _ h => h)
      fun _ hc => hc.elim (fun hc => absurd hc o.2) id)
  cases a with
  | request r c =>
    obtain rfl := Option.some.inj hstep
    refine Holds.tracked ?_ h
    rcases request_cases r c w with ⟨st, -, -, -, hout⟩ | ⟨-, hout⟩
    · rw [hout, outcome_eq]
      exact ⟨rfl, fun _ hs => hs⟩
    · rw [hout]
      exact frame_holds.refl w
  | pop q =>
    obtain rfl := Option.some.inj hstep
    have hlist : Holds w (w.setList q (w.lists q).tail) := ⟨rfl, fun _ hs => hs⟩
    exact hlist.tracked h
  | connect c o =>
    obtain rfl := Option.some.inj hstep
    refine final_of_wp (P := Tracked cfg) (wp_connect_tracked h fun hopens => ?_)
    by_contra hne
    exact hcare ⟨hopens, hne⟩
  | control op c o =>
    obtain rfl := Option.some.inj hstep
    cases op with
    | disconnect =>
      exact hrule o (wp_disconnect_tracked h fun s hs hrec hf => hcare ⟨hf, s, hs, hrec⟩)
    | stop =>
      exact final_of_wp (P := Tracked cfg)
        (h.keeps (frame_holds.refl w) (workerFrame_holds.handleRecordStop c))
    | start =>
      exact final_of_wp (P := Tracked cfg)
        (h.keeps (frame_holds.refl w) (holds_handleRecordStart c))
  | reset c o =>
    obtain rfl := Option.some.inj hstep
    have hnote := (workerFrame_holds.note (.reset c) w).tracked h
    exact hrule o (wp_handleEtr290Reset c (fun _ => hnote) fun _ => Or.inr hnote)
  | heartbeat o =>
    obtain rfl := Option.some.inj hstep
    refine final_of_wp (P := Tracked cfg) (wp_heartbeat_tracked h fun hok c s hs => ⟨?_, ?_⟩)
    · by_contra hup
      exact hcare ⟨hok, c, s, hs, Or.inl (Bool.eq_false_iff.mpr hup)⟩
    · intro n hf
      exact hcare ⟨hok, c, s, hs, Or.inr ⟨n, hf⟩⟩
  | die s =>
    obtain rfl := Option.some.inj hstep
    exact ((workerFrame_holds.session s).die w).tracked h

/-- A worker without sessions tracks all of them. -/
theorem tracked_of_noSessions {cfg : Settings} {w : World} (h : NoSessions w) : Tracked cfg w := by
  constructor
  · intro s hs
    rw [h.heap s] at hs
    exact absurd hs (by decide)
  · rw [h.sessions]
    exact Nat.zero_le _

/-- No more sessions are up than `_sessions` has entries. -/
theorem Tracked.encard_le {cfg : Settings} {w : World} (h : Tracked cfg w) :
    Set.encard {s | (w.heap s).isUp = true} ≤ cfg.workerCapacity := by
  have hsub : {s | (w.heap s).isUp = true} ⊆
      (↑(w.sessions.keys.toFinset.image fun c => (w.sessions.lookup c).getD 0) :
        Set SessionId) := by
    intro s hs
    obtain ⟨c, hc⟩ := h.held s hs
    have hmem : c ∈ w.sessions.keys := AList.mem_keys.mp (Dict.mem_iff_exists_lookup.mpr ⟨s, hc⟩)
    refine Finset.mem_coe.mpr (Finset.mem_image.mpr ⟨c, List.mem_toFinset.mpr hmem, ?_⟩)
    rw [hc]
    rfl
  apply (Set.encard_le_encard hsub).trans
  rw [Set.encard_coe_eq_coe_finsetCard]
  have hcard : (w.sessions.keys.toFinset.image fun c => (w.sessions.lookup c).getD 0).card ≤
      cfg.workerCapacity :=
    (Finset.card_image_le.trans (List.toFinset_card_le _)).trans h.capacity
  exact_mod_cast hcard

/-- **In every run whose steps abandon no session**, each session that is up is in `_sessions`, and
there are no more of them than `worker_capacity`. -/
theorem sessions_held_along {cfg : Settings} {w w' : World} {as : List FaultyStep}
    (hw : NoSessions w)
    (hcare : Runs.Along (fun w a => ¬ Abandons cfg w a) (FaultyStep.run cfg) w as)
    (hrun : Runs.run (FaultyStep.run cfg) w as = some w') :
    (∀ s, (w'.heap s).isUp = true → ∃ c, w'.sessions.lookup c = some s) ∧
      Set.encard {s | (w'.heap s).isUp = true} ≤ cfg.workerCapacity := by
  have htracked : Tracked cfg w' := Runs.run_invariant (I := Tracked cfg)
    (fun _ _ _ h hok hstep => tracked_step h hok hstep) as w w' (tracked_of_noSessions hw) hcare
    hrun
  exact ⟨htracked.held, htracked.encard_le⟩

/-- The world of the witness has none. -/
theorem noSessions_offAir : NoSessions offAir := ⟨rfl, fun _ => rfl⟩

/-- The environment in which every call works. -/
def Survivable.good : Survivable := ⟨allOk, healthy_allOk.not_mayCrash⟩

/-- A heartbeat finds a session dead and forgets it: its pipeline is never torn down, and the next
connect makes two of them on a worker that has room for one. -/
theorem dead_session_abandoned :
    ¬ ∀ (cfg : Settings) (w w' : World) (as : List FaultyStep), NoSessions w →
      Runs.run (FaultyStep.run cfg) w as = some w' →
        (∀ s, (w'.heap s).isUp = true → ∃ c, w'.sessions.lookup c = some s) ∧
          Set.encard {s | (w'.heap s).isUp = true} ≤ cfg.workerCapacity := by
  intro h
  obtain ⟨-, hcard⟩ := h ⟨"worker", 1⟩ offAir _ [.connect (.str "a") .good, .die 0,
    .heartbeat .good, .connect (.str "a") .good] noSessions_offAir rfl
  have hsub : ({0, 1} : Set SessionId) ⊆ {s | ((final allOk
      (IngestWorker.handleConnect ⟨"worker", 1⟩ (.str "a")) (final allOk
        (IngestWorker.heartbeat ⟨"worker", 1⟩) (World.die 0 (final allOk
          (IngestWorker.handleConnect ⟨"worker", 1⟩ (.str "a")) offAir)))).heap s).isUp =
            true} := by
    rintro s (rfl | rfl)
    · exact rfl
    · exact rfl
  have htwo : ((2 : ℕ) : ℕ∞) ≤ ((1 : ℕ) : ℕ∞) := by
    rw [show ((2 : ℕ) : ℕ∞) = Set.encard ({0, 1} : Set SessionId) from
      (Set.encard_pair (by decide)).symm]
    exact (Set.encard_le_encard hsub).trans hcard
  exact absurd (Nat.cast_le.mp htwo) (by decide)

/-- A worker that has recorded and disconnected, and connects again. -/
def reconnected : World :=
  final allOk (IngestWorker.handleConnect ⟨"worker", 1⟩ (.str "a"))
    (final allOk (IngestWorker.handlers .disconnect (.str "a"))
      (final allOk (IngestWorker.handlers .start (.str "a"))
        (final allOk (IngestWorker.handleConnect ⟨"worker", 1⟩ (.str "a")) offAir)))

/-- The first session is down and the second one is up, which is all that the worker has room
for. -/
theorem sessions_held_along_offAir : Runs.run (FaultyStep.run ⟨"worker", 1⟩) offAir
      [.connect (.str "a") .good, .control .start (.str "a") .good,
        .control .disconnect (.str "a") .good, .connect (.str "a") .good] = some reconnected ∧
    (reconnected.heap 0).isUp = false ∧ (reconnected.heap 2).isUp = true ∧
    (∀ s, (reconnected.heap s).isUp = true → ∃ c, reconnected.sessions.lookup c = some s) ∧
      Set.encard {s | (reconnected.heap s).isUp = true} ≤ ((1 : ℕ) : ℕ∞) := by
  have hrun : Runs.run (FaultyStep.run ⟨"worker", 1⟩) offAir
      [.connect (.str "a") .good, .control .start (.str "a") .good,
        .control .disconnect (.str "a") .good, .connect (.str "a") .good] = some reconnected := rfl
  -- No call fails, so the disconnect finishes the recording.
  have hcalm : ¬ Fumbles allOk := by
    rintro ⟨n, k, -, hfail⟩
    cases hfail
  refine ⟨hrun, by decide +kernel, by decide +kernel,
    sessions_held_along noSessions_offAir ?_ hrun⟩
  refine ⟨fun h => h.2 rfl, fun w₁ h₁ => ⟨fun h => h, fun w₂ h₂ => ⟨fun h => hcalm h.1,
    fun w₃ h₃ => ⟨fun h => h.2 ?_, fun _ _ => trivial⟩⟩⟩⟩
  obtain rfl := Option.some.inj h₁
  obtain rfl := Option.some.inj h₂
  obtain rfl := Option.some.inj h₃
  rfl
