/-
# The connection handlers

`_handle_disconnect` and `_handle_connect` do what their step relations say, and nothing
else.  A connect handler may run a record start of its own.

A handler is followed from its first statement to its last.  At every call the oracle answers: a
call that works leads on, one of database or Redis does not fail here, and one that may (`connect`)
is a branch of the relation; a kill has to leave what the second relation allows.  What is written
on the way is put into a function of the state first (`World.idled`, `World.opened`).  That it
touches no other channel and what it makes of its own are lemmas about the function, so that the
walk through the program has only to name them.
-/
import IngestFarm.RecordHandlers

open Prog

section Specs

variable {o : Oracle Call} {E : PyError → ℕ → World → Prop} {C : World → Prop} {n : ℕ}
  {w : World} {c : ChannelId} {s : SessionId}

/-! ## Disconnecting -/

/-- The session can be popped before or after it is closed. -/
theorem closedSession_popped (session : Option SessionId) :
    World.closedSession c session ((w.dropPending c).dropSession c) =
      ((World.closedSession c session w).dropPending c).dropSession c := by
  cases session with
  | none => rfl
  | some s =>
    by_cases hrec : (w.heap s).recording = true
    · simp only [World.closedSession, World.dropSession_heap, World.dropPending_heap, if_pos hrec]
      rfl
    · simp only [World.closedSession, World.dropSession_heap, World.dropPending_heap, if_neg hrec]
      rfl

/-- Closing a session is a step on its channel. -/
theorem local_closedSession : Local c w (World.closedSession c (w.sessions.lookup c) w) := by
  cases hs : w.sessions.lookup c with
  | none => exact Local.rfl'
  | some s =>
    by_cases hrec : (w.heap s).recording = true
    · rw [World.closedSession, if_pos hrec]
      exact (local_finalized (Local.own hs)).trans (Local.updSession _ (Local.own hs))
    · rw [World.closedSession, if_neg hrec]
      exact Local.updSession _ (Local.own hs)

/-- So is the disconnect with what it stores. -/
theorem local_idled : Local c w (w.idled c) := by
  unfold World.idled
  split
  · exact Local.setStatus .idle
  · exact Local.rfl'

/-- The channel is idle after that. -/
theorem stored_idled : (w.idled c).stored c = (w.stored c).writeIf activeStatuses .idle := by
  have h : w.idled c = w.commitDb (writeIf c activeStatuses .idle) := by
    simp only [World.idled, World.commitDb, writeIf]
    split <;> rfl
  rw [h]
  refine Stored.ext ?_ ?_
  · simp [Stored.writeIf]
  · simp

/-- **`_handle_disconnect`.**  The channel makes the disconnect step, and a kill leaves it where the
finalization was struck; no other channel sees anything. -/
theorem handleDisconnect_acts (ho : Steady o) (c : ChannelId) (n : ℕ) (w : World) :
    Acts o c w (IngestWorker.handleDisconnect c) (fun _ v' => DisconnectStep (w.view c) v')
      (FinalizeKilled (w.view c)) n w := by
  have hclosed := @local_closedSession w c
  have hloc : Local c w (w.disconnected c) := by
    rw [World.disconnected, closedSession_popped]
    exact ((hclosed.trans Local.dropPending).trans Local.dropSession).trans local_idled
  have hstored : (w.disconnected c).stored c =
      ((World.closedSession c (w.sessions.lookup c) w).stored c).writeIf activeStatuses .idle := by
    rw [World.disconnected, closedSession_popped]
    exact stored_idled
  -- What the channel looks like afterwards depends on its session: none, one that records, or one
  -- that does not.
  have hview : Sound w → DisconnectStep (w.view c) ((w.disconnected c).view c) := by
    intro hw
    have hst := congrArg Stored.status hstored
    have hrows := congrArg Stored.rows hstored
    have hgone : ((w.disconnected c).view c).session = none := by simp [World.disconnected]
    have hpend : ((w.disconnected c).view c).pending = false := by simp [World.disconnected]
    have hids : (w.disconnected c).recordingIds =
        (World.closedSession c (w.sessions.lookup c) w).recordingIds := by
      rw [World.disconnected, closedSession_popped]
      unfold World.idled
      split <;> rfl
    have hid : ((w.disconnected c).view c).recordingId = _ :=
      congrArg (AList.lookup c) hids
    cases hs : w.sessions.lookup c with
    | none =>
      rw [hs] at hst hrows hid
      refine Eq.mpr (congrArg _ ?_) (DisconnectStep.absent (by simp [hs]))
      exact View.ext hst hrows (hgone.trans (by simp [hs])) hid hpend
    | some s =>
      by_cases hrec : (w.heap s).recording = true
      · rw [hs, World.closedSession, if_pos hrec] at hst hrows hid
        have hfin : (World.tornDown s (w.finalized c s)).stored c = _ := stored_finalized
        rw [hfin] at hst hrows
        refine Eq.mpr (congrArg _ ?_) (DisconnectStep.finalized s (w.heap s) _ (by simp [hs]) hrec
          (target_finalizeTarget hw))
        refine View.ext hst hrows hgone (hid.trans ?_) hpend
        simp [World.tornDown, World.finalized, World.finished]
      · rw [hs, World.closedSession, if_neg hrec] at hst hrows hid
        refine Eq.mpr (congrArg _ ?_) (DisconnectStep.idle s (w.heap s) (by simp [hs])
          (by simpa using hrec))
        exact View.ext hst hrows hgone hid hpend
  -- A kill may come after the recording was finished and before the status is written.
  have hkilled : Sound w → FinalizeKilled (w.view c)
      ((World.closedSession c (w.sessions.lookup c) w).stored c) := by
    intro hw
    cases hs : w.sessions.lookup c with
    | none => exact FinalizeKilled.before
    | some s =>
      by_cases hrec : (w.heap s).recording = true
      · rw [World.closedSession, if_pos hrec]
        have hstored : (World.tornDown s (w.finalized c s)).stored c = _ := stored_finalized
        rw [hstored]
        exact FinalizeKilled.finalized s (w.heap s) _ (by simp [hs]) (Or.inl hrec)
          (target_finalizeTarget hw)
      · rw [World.closedSession, if_neg hrec]
        exact FinalizeKilled.before
  -- Neither exception leaves the handler: publishes work, and so do the calls that end a session.
  refine wp_handleDisconnect ho.db (fun _ n' w' hw' => ?_) ?_ ?_ ?_
  · exact ⟨hloc.trans (Local.ofSameBooks hw'), fun hw => hw'.view_eq c ▸ hview hw⟩
  · exact fun _ _ _ _ h => absurd h ho.not_unpublished
  · exact fun _ _ h => absurd h ho.not_unclosable
  · intro h w' hw'
    rcases hw' with hw' | hw'
    · exact ⟨h, StoreLocal.of_local Local.rfl' hw',
        fun _ => hw'.stored_eq c ▸ FinalizeKilled.before⟩
    · rw [closedSession_popped] at hw'
      have hsame := hw'.trans (SameStore.popped c (World.closedSession c (w.sessions.lookup c) w))
      exact ⟨h, StoreLocal.of_local hclosed hsame, fun hw => hsame.stored_eq c ▸ hkilled hw⟩

/-! ## Connecting -/

/-- **The `except` branch of `_handle_connect`.** -/
theorem connectFailed_acts (ho : Steady o) :
    Acts o c w (IngestWorker.connectFailed c)
      (fun _ v' => v' = { w.view c with toStored := (w.view c).toStored.write .error })
      (fun x => x = w.stored c) n w := by
  have hk : MayCrash o → Killed o c w (fun x => x = w.stored c) w :=
    Acts.killed_of Local.rfl' (fun _ => rfl) rfl
  unfold Acts IngestWorker.connectFailed
  rw [wp_bind]
  refine wp_query_of ho.db (fun n₁ => ?_) hk
  rw [wp_whenever]
  refine ⟨fun hst => wp_commit_of ho.db (fun n₂ => ?_) hk, fun hst => ?_⟩
  · exact ⟨Local.setStatus .error, fun _ => View.ext (by simp) (by simp) rfl rfl rfl⟩
  · exact ⟨Local.rfl', fun _ => View.ext (by simp [not_not.mp hst]) (by simp) rfl rfl rfl⟩

/-- A record start that is wanted or not. -/
theorem maybeStart_acts (ho : Steady o) {wanted : Prop} [Decidable wanted] :
    Acts o c w (whenever wanted (IngestWorker.handleRecordStart c))
      (fun died v' => MaybeStart died w.nextId wanted (w.view c) v')
      (fun x => wanted ∧ StartKilled w.nextId (w.view c) x) n w := by
  unfold Acts
  rw [wp_whenever]
  refine ⟨fun hwant => ?_, fun hwant => ⟨Local.rfl', fun _ => MaybeStart.skipped hwant⟩⟩
  exact (handleRecordStart_acts ho c n w).after Local.rfl'
    (fun _ d v _ hv => MaybeStart.started v hwant hv) fun _ x hx => ⟨hwant, hx⟩

/-- The status write of a channel that has got its session. -/
theorem view_marked : (w.commitDb (writeIf c [.connecting] .connected)).view c =
    { w.view c with toStored := (w.view c).toStored.writeIf [.connecting] .connected } :=
  View.ext (by simp [Stored.writeIf]) (by simp) rfl rfl rfl

/-- **`_handle_connect` for a channel that is connected already.** -/
theorem handleConnected_acts (ho : Steady o) {s : SessionId}
    (hs : w.sessions.lookup c = some s) (hup : (w.heap s).isConnected = true) (works : Prop) :
    Acts o c w (do
        let ch ← query fun db => db.status c
        whenever (ch = some .connecting) (commit (Database.setStatus c .connected))
        let pending ← reads fun w => decide (c ∈ w.pendingRecord)
        whenever (pending = true) (IngestWorker.handleRecordStart c))
      (fun died v' => ConnectStep died w.nextId works (w.view c) v')
      (ConnectKilled w.nextId works (w.view c)) n w := by
  have hsession : (w.view c).session = some (s, w.heap s) := by simp [hs]
  have hk : MayCrash o → Killed o c w (ConnectKilled w.nextId works (w.view c)) w :=
    Acts.killed_of Local.rfl' (fun _ => rfl) ConnectKilled.before
  -- After the status write there is only the record start.
  have hrest : ∀ n₁, Acts o c w (do
      let pending ← reads fun w => decide (c ∈ w.pendingRecord)
      whenever (pending = true) (IngestWorker.handleRecordStart c))
      (fun died v' => ConnectStep died w.nextId works (w.view c) v')
      (ConnectKilled w.nextId works (w.view c)) n₁
      (w.commitDb (writeIf c [.connecting] .connected)) := by
    intro n₁
    unfold Acts
    rw [wp_bind, wp_reads]
    have hstart := @maybeStart_acts o n₁ (w.commitDb (writeIf c [.connecting] .connected)) c ho
      (decide (c ∈ w.pendingRecord) = true) _
    rw [view_marked] at hstart
    change Acts o c w _ (fun died v' => ConnectStep died w.nextId works (w.view c) v')
      (ConnectKilled w.nextId works (w.view c)) n₁ _
    refine hstart.after local_writeIf (fun _ d v _ hv => ?_) fun _ x hx => ?_
    · exact ConnectStep.already s (w.heap s) v hsession hup hv
    · obtain ⟨hwant, hx⟩ := hx
      cases hx with
      | before => exact ConnectKilled.marked
      | inserted s' x' hs' hup' hrec' =>
        have hkilled :=
          @ConnectKilled.restarted w.nextId works (w.view c) s' x' hs' hup' hrec' hwant
        rwa [← Stored.map_writeIf [.connecting] .connected] at hkilled
  -- The status write: `connecting` becomes `connected`, and any other status is left alone.
  unfold Acts at hrest ⊢
  rw [wp_bind]
  refine wp_query_of ho.db (fun n₁ => ?_) hk
  rw [wp_bind, wp_whenever]
  refine ⟨fun hst => wp_commit_of ho.db (fun n₂ => ?_) hk, fun hst => ?_⟩
  · have hw : w.commitDb (Database.setStatus c .connected) =
        w.commitDb (writeIf c [.connecting] .connected) := by
      simp [World.commitDb, writeIf, hst]
    exact hw ▸ hrest n₂
  · have hw : w = w.commitDb (writeIf c [.connecting] .connected) := by
      have hany : ¬ (w.db.status c).any (· ∈ [ChannelStatus.connecting]) = true := by
        cases h : w.db.status c <;> simp_all
      rw [World.commitDb, writeIf, if_neg hany]
    have h := hrest n₁
    rw [← hw] at h
    exact h

/-- A session that has been created and connected, and belongs to channel `c`. -/
def World.opened (c : ChannelId) (protocol : SourceProtocol) (w : World) : World :=
  ((w.takeId.updSession w.nextId fun _ => ChannelSession.new protocol).updSession w.nextId
    ChannelSession.markConnected).setSession c w.nextId

/-- A session is opened for its channel. -/
theorem local_opened {protocol : SourceProtocol} : Local c w (w.opened c protocol) := by
  have hnew : Local c w (w.updSession w.nextId fun _ => ChannelSession.new protocol) :=
    Local.updSession _ (Local.fresh le_rfl)
  have hup := hnew.trans (Local.updSession ChannelSession.markConnected (Local.fresh le_rfl))
  exact hup.trans Local.takeSession

/-- A session that was created in vain is in nobody's view. -/
theorem view_new (hw : Sound w) {protocol : SourceProtocol} :
    (w.takeId.updSession w.nextId fun _ => ChannelSession.new protocol).view c = w.view c := by
  refine View.ext rfl rfl ?_ rfl rfl
  cases hs : w.sessions.lookup c with
  | none => simp [hs]
  | some s => simp [hs, (hw.sessions_lt c s hs).ne]

/-- And is connected. -/
theorem view_opened {protocol : SourceProtocol} : (w.opened c protocol).view c =
    { w.view c with session := some (w.nextId, (ChannelSession.new protocol).markConnected) } :=
  View.ext rfl rfl (by simp [World.opened]) rfl rfl

/-- **The `try` block of `_handle_connect`**, once `connect` has worked. -/
theorem connected_acts (ho : Steady o) {protocol : SourceProtocol} {b : Prop} [Decidable b]
    {works : Prop} (hworks : works) (hst : w.db.status c ≠ none)
    (hb : b ↔ w.db.status c = some .starting) :
    Acts o c w (do
        let ch ← query fun db => db.status c
        whenever (ch.any (· ∈ [.connecting, .starting]))
          (commit (if ch = some .connecting then Database.setStatus c .connected else id))
        let pending ← reads fun w => decide (c ∈ w.pendingRecord)
        whenever (b ∨ pending = true) (IngestWorker.handleRecordStart c))
      (fun died v' => OpenStep died w.nextId works (w.view c) v')
      (ConnectKilled w.nextId works (w.view c)) n (w.opened c protocol) := by
  have hloc : Local c w (w.opened c protocol) := local_opened
  have hk : MayCrash o → Killed o c w (ConnectKilled w.nextId works (w.view c))
      (w.opened c protocol) :=
    Acts.killed_of hloc (fun _ => rfl) ConnectKilled.before
  have hview : ((w.opened c protocol).commitDb (writeIf c [.connecting] .connected)).view c = _ :=
    view_marked
  rw [view_opened] at hview
  -- After the status write there is only the record start, asked for by `starting` or remembered.
  have hrest : ∀ n₁, Acts o c w (do
      let pending ← reads fun w => decide (c ∈ w.pendingRecord)
      whenever (b ∨ pending = true) (IngestWorker.handleRecordStart c))
      (fun died v' => OpenStep died w.nextId works (w.view c) v')
      (ConnectKilled w.nextId works (w.view c)) n₁
      ((w.opened c protocol).commitDb (writeIf c [.connecting] .connected)) := by
    intro n₁
    unfold Acts
    rw [wp_bind, wp_reads]
    have hstart := @maybeStart_acts o n₁ ((w.opened c protocol).commitDb
      (writeIf c [.connecting] .connected)) c ho (b ∨ decide (c ∈ w.pendingRecord) = true) _
    rw [hview] at hstart
    change Acts o c w _ (fun died v' => OpenStep died w.nextId works (w.view c) v')
      (ConnectKilled w.nextId works (w.view c)) n₁ _
    refine hstart.after (hloc.trans local_writeIf) (fun _ d v _ hv => ?_) fun _ x hx => ?_
    · refine OpenStep.opened _ v hworks hst ?_ rfl (hv.congr (or_congr_left hb))
      rfl
    · obtain ⟨hwant, hx⟩ := hx
      cases hx with
      | before => exact ConnectKilled.marked
      | inserted s' x' hs' hup' hrec' =>
        have hkilled := @ConnectKilled.started w.nextId works (w.view c) hworks
          (hwant.imp hb.mp id)
        rw [← Stored.map_writeIf [.connecting] .connected] at hkilled
        obtain ⟨rfl, -⟩ := Prod.mk.inj (Option.some.inj hs')
        exact hkilled
  unfold Acts at hrest ⊢
  rw [wp_bind]
  refine wp_query_of ho.db (fun n₁ => ?_) hk
  rw [wp_bind, wp_whenever]
  -- For a channel that is not connecting the guarded write is none.
  have hother : (w.opened c protocol).db.status c ≠ some .connecting →
      (w.opened c protocol).commitDb (writeIf c [.connecting] .connected) =
        w.opened c protocol := by
    intro hne
    have hany : ¬ ((w.opened c protocol).db.status c).any (· ∈ [ChannelStatus.connecting]) =
        true := by
      cases h : (w.opened c protocol).db.status c <;> simp_all
    rw [World.commitDb, writeIf, if_neg hany]
  refine ⟨fun hany => wp_commit_of ho.db (fun n₂ => ?_) hk, fun hany => ?_⟩
  · by_cases hc : (w.opened c protocol).db.status c = some .connecting
    · have hw : (w.opened c protocol).commitDb (Database.setStatus c .connected) =
          (w.opened c protocol).commitDb (writeIf c [.connecting] .connected) := by
        simp [World.commitDb, writeIf, hc]
      rw [if_pos hc, hw]
      exact hrest n₂
    · have h := hrest n₂
      rw [hother hc] at h
      rw [if_neg hc]
      exact h
  · have h := hrest n₁
    rw [hother fun hc => hany (by rw [hc]; rfl)] at h
    exact h

/-- **The part of `_handle_connect` that creates a session.** -/
theorem openSession_acts (ho : Steady o) :
    Acts o c w (IngestWorker.openSession c)
      (fun died v' => OpenStep died w.nextId (w.db.status c ≠ none ∧
        o (n + 2) (.connect w.nextId) = .ok) (w.view c) v')
      (ConnectKilled w.nextId (w.db.status c ≠ none ∧ o (n + 2) (.connect w.nextId) = .ok)
        (w.view c)) n w := by
  have hbefore : ∀ u : World, Local c w u → u.stored c = w.stored c → MayCrash o →
      Killed o c w (ConnectKilled w.nextId (w.db.status c ≠ none ∧
        o (n + 2) (.connect w.nextId) = .ok) (w.view c)) u :=
    fun u hu hst => Acts.killed_of hu (fun _ => hst) ConnectKilled.before
  have hk := hbefore w Local.rfl' rfl
  unfold Acts IngestWorker.openSession channelToConfig ChannelSession.create
  rw [wp_bind, wp_query]
  refine ⟨fun _ => ?_, fun h => absurd h (ho.db _ _ rfl), fun h => hk ⟨_, _, h⟩⟩
  -- A channel without a row opens nothing; for one with a row a session object is made.
  cases hch : w.db.channels.lookup c with
  | none => exact ⟨Local.rfl', fun _ => OpenStep.unknown (by simp [Database.status, hch])⟩
  | some ch =>
    have hst : w.db.status c = some ch.status := by simp [Database.status, hch]
    simp only [wp_bind, wp_external, wp_pure, wp_reads, wp_modify, wp_attempt]
    refine ⟨fun _ => ?_, fun h => absurd h (ho.ne_fail _ rfl rfl), fun h => hk ⟨_, _, h⟩⟩
    have hnew :
        Local c w (w.takeId.updSession w.nextId fun _ => ChannelSession.new ch.protocol) := by
      have h : Local c w (w.updSession w.nextId fun _ => ChannelSession.new ch.protocol) :=
        Local.updSession _ (Local.fresh le_rfl)
      exact h.trans Local.takeId
    unfold IngestWorker.connectSession ChannelSession.connect
    rw [wp_bind, wp_bind, wp_external]
    -- `connect` works, or raises, or the process is killed in it.
    refine ⟨fun hok => ?_, fun _ => ?_, fun h => hbefore _ hnew rfl ⟨_, _, h⟩⟩
    · rw [wp_modify, wp_bind, wp_modify]
      have hconn := @connected_acts o (n + 1 + 1 + 1) w c ho ch.protocol
        (decide (ch.status = .starting) = true) _ _
          (show w.db.status c ≠ none ∧ o (n + 2) (.connect w.nextId) = .ok
          from ⟨by simp [hst], hok⟩) (by simp [hst]) (by simp [hst])
      exact wp_mono hconn (fun _ _ _ h => h) (fun _ _ _ (h : False) => h.elim) fun _ h => h
    · change Acts o c w _ (fun died v' => OpenStep died w.nextId (w.db.status c ≠ none ∧
        o (n + 2) (.connect w.nextId) = .ok) (w.view c) v') (ConnectKilled w.nextId
          (w.db.status c ≠ none ∧ o (n + 2) (.connect w.nextId) = .ok) (w.view c)) _ _
      refine (connectFailed_acts ho).after hnew (fun hw d v _ hv => ?_) fun _ x hx => ?_
      · rw [hv, view_new hw]
        exact OpenStep.failed
      · exact hx ▸ ConnectKilled.before

/-- A connect handler that starts with call `n` finds no live session for its channel, and
opens one. -/
def Opens (cfg : Settings) (o : Oracle Call) (n : ℕ) (c : ChannelId) (w : World) : Prop :=
  w.sessions.keys.length < cfg.workerCapacity ∧ w.db.status c ≠ none ∧
    match w.sessions.lookup c with
    | none => o (n + 2) (.connect w.nextId) = .ok
    | some s => ((w.heap s).isConnected = false ∨ o n (.poll s) = .fail) ∧
        o (n + 3) (.connect w.nextId) = .ok

/-- What happens once the session is found missing or dead. -/
theorem rejectOrOpen_acts (ho : Steady o) {cfg : Settings} {u : World} {works : Prop}
    (hloc : Local c w u) (hnot : NotUp u.died (w.view c) (u.view c))
    (hstored : (u.view c).toStored = (w.view c).toStored) (hid : u.nextId = w.nextId)
    (hsess : u.sessions = w.sessions)
    (hworks : w.sessions.keys.length < cfg.workerCapacity → w.db.status c ≠ none →
      o (n + 2) (.connect w.nextId) = .ok → works) :
    Acts o c w (do
        let held ← reads fun w => w.sessions.keys.length
        if cfg.workerCapacity ≤ held then do
          let ch ← query fun db => db.status c
          whenever (ch.any (· ∈ [.connecting, .starting])) (commit (Database.setStatus c .error))
        else IngestWorker.openSession c)
      (fun died v' => ConnectStep died w.nextId works (w.view c) v')
      (ConnectKilled w.nextId works (w.view c)) n u := by
  have hst : u.db.status c = w.db.status c := congrArg Stored.status hstored
  have hk : MayCrash o → Killed o c w (ConnectKilled w.nextId works (w.view c)) u :=
    Acts.killed_of hloc (fun _ => hstored) ConnectKilled.before
  unfold Acts
  rw [wp_bind, wp_reads, wp_ite]
  -- At capacity the channel goes to `error`, if its status says that somebody waits for it.
  refine ⟨fun _ => ?_, fun hcap => ?_⟩
  · rw [wp_bind]
    refine wp_query_of ho.db (fun n₁ => ?_) hk
    have hfull : Local c w (u.commitDb (writeIf c [.connecting, .starting] .error)) ∧
        (Sound w → ConnectStep u.died w.nextId works (w.view c)
          ((u.commitDb (writeIf c [.connecting, .starting] .error)).view c)) := by
      refine ⟨hloc.trans local_writeIf, fun _ => ?_⟩
      refine Eq.mpr (congrArg _ ?_) (ConnectStep.full (u.view c) hnot)
      exact View.ext (by simp [Stored.writeIf]) (by simp) rfl rfl rfl
    rw [wp_whenever]
    refine ⟨fun hany => wp_commit_of ho.db (fun n₂ => ?_) hk, fun hany => ?_⟩
    · simpa only [World.commitDb, writeIf, if_pos hany] using hfull
    · simpa only [World.commitDb, writeIf, if_neg hany] using hfull
  · change Acts o c w _ (fun died v' => ConnectStep died w.nextId works (w.view c) v')
      (ConnectKilled w.nextId works (w.view c)) n u
    have hworks' : u.db.status c ≠ none ∧ o (n + 2) (.connect u.nextId) = .ok → works :=
      fun h => hworks (by rw [← hsess]; exact not_le.mp hcap) (hst ▸ h.1) (hid ▸ h.2)
    -- Below it a session is opened.  What the step says of `u` it says of `w`, with the same rows.
    refine (openSession_acts ho).after hloc (fun _ d v hd hv => ?_) fun _ x hx => ?_
    · rw [hid] at hv
      exact ConnectStep.opens (u.view c) v (hnot.mono hd) (hv.mono (hid ▸ hworks'))
    · rw [hid] at hx
      cases hx with
      | before => exact hstored ▸ ConnectKilled.before
      | marked => exact hstored ▸ ConnectKilled.marked
      | restarted s x hs hup => exact absurd hup (by simp [hnot.not_connected hs])
      | started hw hwant =>
        have hwant' : (w.view c).status = some .starting ∨ (w.view c).pending = true := by
          rwa [← hstored, ← hnot.pending_eq]
        have h := @ConnectKilled.started w.nextId works (w.view c) (hworks' (hid ▸ hw)) hwant'
        rw [← hstored] at h
        exact h

/-- **`_handle_connect`.**  The channel makes the connect step, where `Opens` says whether a
session is opened; a kill leaves it at one of the points between two writes. -/
theorem handleConnect_acts (ho : Steady o) (cfg : Settings) (c : ChannelId) (n : ℕ) (w : World) :
    Acts o c w (IngestWorker.handleConnect cfg c)
      (fun died v' => ConnectStep died w.nextId (Opens cfg o n c w) (w.view c) v')
      (ConnectKilled w.nextId (Opens cfg o n c w) (w.view c)) n w := by
  unfold Acts IngestWorker.handleConnect IngestWorker.alreadyConnected
  rw [wp_bind, wp_bind, wp_reads]
  -- There is no session, or one that is up, or one that was down, or one that the check sees die.
  cases hs : w.sessions.lookup c with
  | none =>
    rw [wp_pure, wp_ite]
    refine ⟨by simp, fun _ => ?_⟩
    apply rejectOrOpen_acts ho Local.rfl' (NotUp.absent (by simp [hs])) rfl rfl rfl
    exact fun hcap hst hok => ⟨hcap, hst, by rw [hs]; exact hok⟩
  | some s =>
    rw [ChannelSession.wp_checkConnected]
    simp only [wp_ite]
    have hsession : (w.view c).session = some (s, w.heap s) := by simp [hs]
    refine ⟨fun _ => ⟨fun hup => ?_, fun hup => ?_⟩, fun hdead => ⟨by simp, fun _ => ?_⟩,
      fun h => ?_⟩
    · exact handleConnected_acts ho hs hup _
    · have hup' : (w.heap s).isConnected = false := by simpa using hup
      refine rejectOrOpen_acts ho Local.rfl' ?_ rfl rfl rfl ?_
      · have hseen : Seen w.died (w.heap s) false (w.heap s) := hup' ▸ Seen.asIs
        refine Eq.mpr (congrArg _ ?_) (NotUp.dead s _ _ hsession hseen)
        exact View.ext rfl rfl hsession rfl rfl
      · exact fun hcap hst hok => ⟨hcap, hst, by rw [hs]; exact ⟨Or.inl hup', hok⟩⟩
    · obtain ⟨hloc, hview, -⟩ := local_checked (c := c) hs (Or.inr ⟨rfl, rfl⟩)
      refine rejectOrOpen_acts ho hloc ?_ (by rw [hview]) rfl rfl ?_
      · rw [hview]
        exact NotUp.dead s _ _ hsession (Seen.ended rfl)
      · exact fun hcap hst hok => ⟨hcap, hst, by rw [hs]; exact ⟨Or.inr hdead, hok⟩⟩
    · exact Acts.killed_of Local.rfl' (fun _ => rfl) ConnectKilled.before ⟨_, _, h⟩

end Specs
