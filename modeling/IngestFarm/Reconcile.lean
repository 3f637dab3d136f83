/-
# Startup reconciliation

`_reconcile_orphaned_channels` on its own, for any database and any sessions of the worker.
The helper `_fail_active_recording` fetches one row, so a channel that is cleared keeps every
other row that is in flight.  `Reconciled` says what the call should leave; the call leaves
it exactly when no cleared channel has two rows in flight.

`Cleared` is the invariant of the loop: what is staged once some of the claimed channels have been
looked at.  Everything about the whole call is read off it (`reconcile_cases`), also that a second
call finds nothing to do: what is still claimed then has a session.
-/
import IngestFarm.Startup

open Prog

/-- The worker row claims the channel, its status is active and it has no session. -/
def Orphaned (cfg : Settings) (w : World) (c : ChannelId) : Prop :=
  Listed cfg w c ∧ (w.stored c).Active ∧ c ∉ w.sessions

/-- At most one row of the channel is in flight. -/
def Database.OneInFlight (db : Database) (c : ChannelId) : Prop :=
  ∀ r r', db.InFlight c r → db.InFlight c r' → r = r'

/-- `_reconcile_orphaned_channels` while the database answers. -/
def World.reconcile (cfg : Settings) (w : World) : World :=
  final allOk (IngestWorker.reconcileOrphanedChannels cfg) w

/-- What the reconciliation of `w` should leave. -/
structure Reconciled (cfg : Settings) (w w' : World) : Prop where
  /-- Only the database changes. -/
  memory : w' = { w with db := w'.db }
  /-- An orphan goes to idle. -/
  idle : ∀ c ch, Orphaned cfg w c → w.db.channels.lookup c = some ch →
    w'.db.channels.lookup c = some { ch with status := .idle }
  /-- No other channel changes. -/
  channels : ∀ c, ¬ Orphaned cfg w c → w'.db.channels.lookup c = w.db.channels.lookup c
  /-- The rows in flight of an orphan fail. -/
  failed : ∀ r row, w.db.recordings.lookup r = some row → Orphaned cfg w row.channelId →
    row.status = .recording →
      w'.db.recordings.lookup r = some { row with status := .failed, endedAt := some w.now }
  /-- No other row changes. -/
  recordings : ∀ r, (∀ row, w.db.recordings.lookup r = some row →
    ¬ (Orphaned cfg w row.channelId ∧ row.status = .recording)) →
      w'.db.recordings.lookup r = w.db.recordings.lookup r
  /-- The worker keeps the claim to what it has a session for. -/
  worker : ∀ row, w.db.workers.lookup cfg.workerId = some row →
    w'.db.workers.lookup cfg.workerId =
      some { row with activeChannels := row.activeChannels.filter (· ∈ w.sessions) }
  /-- No other worker row changes. -/
  workers : ∀ host, (host = cfg.workerId → w.db.workers.lookup host = none) →
    w'.db.workers.lookup host = w.db.workers.lookup host

/-! ## The loop -/

/-- The staged changes once the orphans `done` have been looked at. -/
structure Cleared (w : World) (done : List ChannelId) (staged : Database → Database) : Prop where
  /-- The orphans so far that have no session are idle. -/
  channels : ∀ c, (staged w.db).channels.lookup c = (w.db.channels.lookup c).map fun ch =>
    if c ∈ done ∧ c ∉ w.sessions then { ch with status := .idle } else ch
  /-- Of each of them the newest row in flight has failed. -/
  recordings : ∀ r, (staged w.db).recordings.lookup r = (w.db.recordings.lookup r).map fun row =>
    if row.channelId ∈ done ∧ row.channelId ∉ w.sessions ∧
        w.db.activeRecording row.channelId = some r then
      { row with status := .failed, endedAt := some w.now }
    else row
  /-- Worker rows stay. -/
  workers : (staged w.db).workers = w.db.workers
  /-- Without such an orphan nothing is staged. -/
  kept : (∀ c ∈ done, c ∈ w.sessions) → staged = id

theorem Cleared.nil (w : World) : Cleared w [] id := by
  constructor
  · intro c
    simp
  · intro r
    simp
  · rfl
  · intro _
    rfl

/-- An orphan with a session is left alone. -/
theorem Cleared.held {w : World} {done : List ChannelId} {staged : Database → Database}
    {c : ChannelId} (h : Cleared w done staged) (hc : c ∈ w.sessions) :
    Cleared w (done ++ [c]) staged := by
  constructor
  · intro d
    rw [h.channels]
    by_cases hd : d = c
    · subst hd
      simp [hc]
    · simp [hd]
  · intro r
    rw [h.recordings]
    refine congrFun (congrArg Option.map (funext fun row => ?_)) _
    by_cases hd : row.channelId = c
    · subst hd
      simp [hc]
    · simp [hd]
  · exact h.workers
  · intro hall
    exact h.kept fun d hd => hall d (List.mem_append_left _ hd)

/-- **One orphan.**  Its status and the row that the query finds are written. -/
theorem Cleared.orphan {w : World} {done : List ChannelId} {staged : Database → Database}
    {c : ChannelId} (h : Cleared w done staged) (hc : c ∉ w.sessions) :
    Cleared w (done ++ [c])
      (failRow (w.db.activeRecording c) w.now ∘ Database.setStatus c .idle ∘ staged) := by
  -- The row that the query finds is one of this channel, so no other channel loses a row.
  have hrow : ∀ r, w.db.activeRecording c = some r →
      ∃ row, w.db.recordings.lookup r = some row ∧ row.channelId = c := by
    intro r hr
    obtain ⟨row, hrow, hchan, -⟩ := Database.inFlight_of_activeRecording hr
    exact ⟨row, hrow, hchan⟩
  constructor
  · intro d
    have hfail : ∀ db : Database, (failRow (w.db.activeRecording c) w.now db).channels =
        db.channels := by
      intro db
      cases w.db.activeRecording c <;> rfl
    rw [Function.comp_apply, Function.comp_apply, hfail, Database.setStatus, Dict.lookup_modify,
      h.channels, h.channels]
    by_cases hd : d = c
    · subst hd
      cases w.db.channels.lookup d with
      | none => simp
      | some ch =>
        by_cases hdone : d ∈ done <;> simp [hc, hdone]
    · simp [hd]
  · intro r
    rw [Function.comp_apply, Function.comp_apply]
    cases ht : w.db.activeRecording c with
    | none =>
      rw [failRow, id_eq, Database.setStatus, h.recordings]
      refine congrFun (congrArg Option.map (funext fun row => ?_)) _
      by_cases hd : row.channelId = c
      · subst hd
        simp [ht]
      · simp [hd]
    | some t =>
      rw [failRow, Database.endRecording, Database.setStatus, Dict.lookup_modify]
      by_cases hr : r = t
      · subst hr
        obtain ⟨row, hl, rfl⟩ := hrow r ht
        rw [if_pos rfl, h.recordings, hl]
        by_cases hdone : row.channelId ∈ done <;> simp [hc, ht, hdone]
      · rw [if_neg hr, h.recordings]
        refine congrFun (congrArg Option.map (funext fun row => ?_)) _
        by_cases hd : row.channelId = c
        · subst hd
          simp [ht, Ne.symm hr]
        · simp [hd]
  · rw [Function.comp_apply, Function.comp_apply]
    cases w.db.activeRecording c <;> exact h.workers
  · intro hall
    exact absurd (hall c (by simp)) hc

/-! ## The whole call -/

/-- What the call does: nothing without a claim, and else one commit. -/
theorem reconcile_cases (cfg : Settings) (w : World) :
    (w.reconcile cfg = w ∧ ∀ c, ¬ Listed cfg w c) ∨
      ∃ row staged done, w.db.workers.lookup cfg.workerId = some row ∧ Cleared w done staged ∧
        (∀ c, c ∈ done ↔ Listed cfg w c ∧ (w.stored c).Active) ∧
        w.reconcile cfg = w.commitDb (Database.setWorker cfg.workerId
          { row with activeChannels := row.activeChannels.filter (· ∈ w.sessions) } ∘ staged) := by
  have ho : Steady (allOk : Oracle Call) := healthy_allOk.steady
  have hcrash : ¬ MayCrash (allOk : Oracle Call) := healthy_allOk.not_mayCrash
  apply final_of_wp (P := fun w' => (w' = w ∧ ∀ c, ¬ Listed cfg w c) ∨
    ∃ row staged done, w.db.workers.lookup cfg.workerId = some row ∧ Cleared w done staged ∧
      (∀ c, c ∈ done ↔ Listed cfg w c ∧ (w.stored c).Active) ∧
      w' = w.commitDb (Database.setWorker cfg.workerId
        { row with activeChannels := row.activeChannels.filter (· ∈ w.sessions) } ∘ staged))
  unfold IngestWorker.reconcileOrphanedChannels
  rw [wp_bind]
  refine wp_query_of ho.db (fun n₁ => ?_) fun h => absurd h hcrash
  cases hrow : w.db.workers.lookup cfg.workerId with
  | none => exact Or.inl ⟨rfl, fun c => by simp [Listed, hrow]⟩
  | some row =>
    simp only [wp_ite]
    refine ⟨fun hnil => Or.inl ⟨rfl, fun c => by simp [Listed, hrow, hnil]⟩, fun _ => ?_⟩
    rw [wp_bind]
    refine wp_query_of ho.db (fun n₂ => ?_) fun h => absurd h hcrash
    rw [wp_bind]
    -- The invariant: the channels already looked at are those in front of the rest.
    refine wp_fold (I := fun xs acc u => u = w ∧ ∃ done, Cleared w done acc.1 ∧
        done ++ xs.map Sigma.fst = (w.db.channels.entries.filter fun e =>
          e.1 ∈ row.activeChannels ∧ e.2.status ∈ activeStatuses).map Sigma.fst)
      (fun e xs acc n₃ u h => ?_) (fun acc n₃ u h => ?_) _ _ _ _ ⟨rfl, [], Cleared.nil w, rfl⟩
    · obtain ⟨rfl, done, hcleared, hdone⟩ := h
      have hdone' : (done ++ [e.1]) ++ xs.map Sigma.fst = done ++ (e :: xs).map Sigma.fst := by
        simp
      unfold IngestWorker.reconcileOrphan
      rw [wp_bind, wp_reads, wp_ite]
      refine ⟨fun hmem => ?_, fun hmem => ?_⟩
      · exact ⟨rfl, done ++ [e.1], hcleared.held hmem, hdone'.trans hdone⟩
      · rw [wp_bind]
        refine wp_failActiveRecording ho (fun n₄ => ?_) fun h => absurd h hcrash
        rw [wp_pure]
        exact ⟨rfl, done ++ [e.1], hcleared.orphan hmem, hdone'.trans hdone⟩
    · obtain ⟨rfl, done, hcleared, hdone⟩ := h
      rw [wp_bind, wp_reads]
      refine wp_commit_of ho.db (fun n₄ => ?_) fun h => absurd h hcrash
      refine Or.inr ⟨row, acc.1, done, rfl, hcleared, fun c => ?_, rfl⟩
      rw [← mem_orphans hrow c, ← hdone]
      simp

/-- **A second call changes nothing.** -/
theorem reconcile_reconcile (cfg : Settings) (w : World) :
    (w.reconcile cfg).reconcile cfg = w.reconcile cfg := by
  rcases reconcile_cases cfg w with ⟨hkept, -⟩ | ⟨row, staged, done, hrow, hcleared, hdone, hw⟩
  · rw [hkept, hkept]
  have hworkers : (w.reconcile cfg).db.workers.lookup cfg.workerId =
      some { row with activeChannels := row.activeChannels.filter (· ∈ w.sessions) } := by
    rw [hw, World.commitDb_db, Function.comp_apply, Database.setWorker, Dict.lookup_set, if_pos rfl]
  have hsessions : (w.reconcile cfg).sessions = w.sessions := by
    rw [hw, World.commitDb_sessions]
  rcases reconcile_cases cfg (w.reconcile cfg) with
    ⟨hkept, -⟩ | ⟨row', staged', done', hrow', hcleared', hdone', hw'⟩
  · exact hkept
  obtain rfl := Option.some.inj (hworkers.symm.trans hrow')
  -- Every channel that is still claimed has a session.
  have hstaged : staged' = id := by
    apply hcleared'.kept
    intro c hc
    obtain ⟨⟨row'', hrow'', hmem⟩, -⟩ := (hdone' c).mp hc
    obtain rfl := Option.some.inj (hworkers.symm.trans hrow'')
    rw [hsessions]
    simpa using (List.mem_filter.mp hmem).2
  have hset : Database.setWorker cfg.workerId
      { row with
        activeChannels := List.filter (· ∈ (w.reconcile cfg).sessions)
          (row.activeChannels.filter (· ∈ w.sessions)) } (w.reconcile cfg).db =
        (w.reconcile cfg).db := by
    unfold Database.setWorker
    rw [Dict.set_of_lookup]
    rw [hworkers, hsessions, List.filter_filter]
    simp
  rw [hw', hstaged, Function.comp_id]
  unfold World.commitDb
  rw [hset]

/-- **Exactly the rows that the claim names**, when the query finds every one of them. -/
theorem reconciled_of_oneInFlight {cfg : Settings} {w : World}
    (h : ∀ c, Orphaned cfg w c → w.db.OneInFlight c) : Reconciled cfg w (w.reconcile cfg) := by
  rcases reconcile_cases cfg w with ⟨hkept, hno⟩ | ⟨row, staged, done, hrow, hcleared, hdone, hw⟩
  · rw [hkept]
    have hnone : ∀ c, ¬ Orphaned cfg w c := fun c hc => hno c hc.1
    refine ⟨rfl, fun c ch hc => absurd hc (hnone c), fun c _ => rfl, ?_, fun r _ => rfl, ?_,
      fun host _ => rfl⟩
    · intro r row _ hc
      exact absurd hc (hnone _)
    · intro row hrow
      have hnil : row.activeChannels = [] := by
        apply List.eq_nil_iff_forall_not_mem.mpr
        intro c hc
        exact hno c ⟨row, hrow, hc⟩
      obtain ⟨beat, channels, capacity⟩ := row
      obtain rfl : channels = [] := hnil
      exact hrow
  -- What was cleared are the orphans, and their only row in flight is the one that the query finds.
  · have horphaned : ∀ c, (c ∈ done ∧ c ∉ w.sessions) ↔ Orphaned cfg w c := by
      intro c
      rw [hdone, Orphaned, and_assoc]
    have hchannels : ∀ c, (w.reconcile cfg).db.channels.lookup c =
        (staged w.db).channels.lookup c := by
      intro c
      rw [hw]
      rfl
    have hrecordings : ∀ r, (w.reconcile cfg).db.recordings.lookup r =
        (staged w.db).recordings.lookup r := by
      intro r
      rw [hw]
      rfl
    have hworkers : ∀ host, (w.reconcile cfg).db.workers.lookup host =
        if host = cfg.workerId then
          some { row with activeChannels := row.activeChannels.filter (· ∈ w.sessions) }
        else w.db.workers.lookup host := by
      intro host
      rw [hw, World.commitDb_db, Function.comp_apply, Database.setWorker, Dict.lookup_set,
        hcleared.workers]
    constructor
    · rw [hw]
      rfl
    · intro c ch hc hl
      rw [hchannels, hcleared.channels, hl, Option.map_some, if_pos ((horphaned c).mpr hc)]
    · intro c hc
      rw [hchannels, hcleared.channels]
      simp only [if_neg (mt (horphaned c).mp hc), Option.map_id']
    · intro r rec hl hc hst
      have hin : w.db.InFlight rec.channelId r := ⟨rec, hl, rfl, hst⟩
      have hpick : w.db.activeRecording rec.channelId = some r := by
        cases ht : w.db.activeRecording rec.channelId with
        | none => exact absurd hin (Database.activeRecording_eq_none.mp ht r)
        | some t => rw [h _ hc t r (Database.inFlight_of_activeRecording ht) hin]
      have hmem := (horphaned _).mpr hc
      rw [hrecordings, hcleared.recordings, hl, Option.map_some, if_pos ⟨hmem.1, hmem.2, hpick⟩]
    · intro r hno
      rw [hrecordings, hcleared.recordings]
      cases hl : w.db.recordings.lookup r with
      | none => rfl
      | some rec =>
        rw [Option.map_some, if_neg]
        rintro ⟨hmem, hsess, hpick⟩
        apply hno rec hl
        obtain ⟨rec', hl', -, hst⟩ := Database.inFlight_of_activeRecording hpick
        obtain rfl := Option.some.inj (hl.symm.trans hl')
        exact ⟨(horphaned _).mp ⟨hmem, hsess⟩, hst⟩
    · intro row' hrow'
      obtain rfl := Option.some.inj (hrow.symm.trans hrow')
      rw [hworkers, if_pos rfl]
    · intro host hhost
      rw [hworkers, if_neg]
      intro heq
      exact absurd (hrow.symm.trans (heq ▸ hhost heq)) (by simp)

/-- **Startup reconciliation is exact** when no channel that it clears has two rows in flight,
and only then. -/
theorem reconcile_exact_iff (cfg : Settings) (w : World) :
    (Reconciled cfg w (w.reconcile cfg) ∧ (w.reconcile cfg).reconcile cfg = w.reconcile cfg) ↔
      ∀ c, Orphaned cfg w c → w.db.OneInFlight c := by
  constructor
  · rintro ⟨h, -⟩ c hc r r' ⟨rec, hl, rfl, hst⟩ ⟨rec', hl', hchan, hst'⟩
    have hfailed := h.failed r rec hl hc hst
    have hfailed' := h.failed r' rec' hl' (hchan ▸ hc) hst'
    rcases reconcile_cases cfg w with ⟨hkept, hno⟩ | ⟨row, staged, done, -, hcleared, -, hw⟩
    · exact absurd hc.1 (hno _)
    · rw [hw, World.commitDb_db] at hfailed hfailed'
      -- A row that has failed is the one that the query has found, so two of them are one.
      have hpick : ∀ t x, w.db.recordings.lookup t = some x → x.status = .recording →
          (staged w.db).recordings.lookup t =
            some { x with status := .failed, endedAt := some w.now } →
              w.db.activeRecording x.channelId = some t := by
        intro t x hx hxst hxf
        rw [hcleared.recordings, hx, Option.map_some] at hxf
        by_contra hne
        rw [if_neg (fun hall => hne hall.2.2)] at hxf
        have := congrArg Recording.status (Option.some.inj hxf)
        rw [hxst] at this
        exact absurd this (by simp)
      have h1 := hpick r rec hl hst hfailed
      have h2 := hpick r' rec' hl' hst' hfailed'
      rw [hchan, h1] at h2
      exact Option.some.inj h2
  · intro h
    exact ⟨reconciled_of_oneInFlight h, reconcile_reconcile cfg w⟩

/-! ## Two rows in flight -/

/-- A connected channel with two rows in flight, claimed by the worker that starts again. -/
def doubledRow : World :=
  let row : Recording := ⟨.str "c", 1, none, .recording, ⟨.str "c", 0⟩, 0, 0, 0⟩
  let channel : Channel := ⟨"a", .srt, .recording⟩
  World.fresh
    { channels := Dict.set (.str "c") channel ∅
      recordings := Dict.set 2 { row with startedAt := 2 } (Dict.set 1 row ∅)
      workers := Dict.set "host" ⟨none, [.str "c"], 1⟩ ∅ } 3

/-- The older of two rows in flight keeps its status, and nothing picks it up again. -/
theorem older_row_left_recording :
    ¬ Reconciled ⟨"host", 1⟩ doubledRow (doubledRow.reconcile ⟨"host", 1⟩) := by
  intro h
  have hfailed := h.failed 1 ⟨.str "c", 1, none, .recording, ⟨.str "c", 0⟩, 0, 0, 0⟩ (by decide)
    ⟨⟨⟨none, [.str "c"], 1⟩, by decide, by decide⟩, by unfold Stored.Active; decide, by decide⟩ rfl
  have hleft : ((doubledRow.reconcile ⟨"host", 1⟩).db.recordings.lookup 1).map Recording.status =
      some .recording := by decide
  rw [hfailed] at hleft
  exact absurd hleft (by decide)
