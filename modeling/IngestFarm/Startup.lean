/-
# A restart

A worker that is killed loses its memory; the database, the Redis lists and the files stay.
`World.restart` is the state after the next `_startup` on the same hostname.  It puts a
channel right exactly when the worker row lists it and its status is active, so whether the
recovery is complete can be read off the state at the kill.

The loop over the orphans stages its changes and one commit writes them, as in a heartbeat; the
invariant `Reconciling` again speaks of what a commit would make.  `recovered_restart_iff` turns the
result into a condition on what is stored (`Stored.Recoverable`), which later modules carry through
runs that may be killed anywhere.
-/
import IngestFarm.RecordHandlers

open Prog

/-- The status is one of `ACTIVE_STATUSES`. -/
def Stored.Active (x : Stored) : Prop := x.status.any (· ∈ activeStatuses) = true

namespace World

/-- A process that has just been started again. -/
@[simps] def reboot (w : World) : World :=
  { w with
    sessions := ∅
    recordingIds := ∅
    pendingRecord := ∅
    heap := fun _ => ChannelSession.new .udp
    died := false }

/-- The state after a restart on the same hostname. -/
def restart (cfg : Settings) (w : World) : World := final allOk (IngestWorker.startup cfg) w.reboot

end World

/-- The worker row of this hostname lists the channel. -/
def Listed (cfg : Settings) (w : World) (c : ChannelId) : Prop :=
  ∃ row, w.db.workers.lookup cfg.workerId = some row ∧ c ∈ row.activeChannels

/-- A job for the channel is waiting in one of the worker's lists. -/
def Waiting (w : World) (c : ChannelId) : Prop :=
  ∃ q, q.isControl = true ∧ ∃ job ∈ w.lists q, job.channel = some c

/-- No row is left in flight, and only a channel with a waiting job is left active. -/
structure Recovered (w : World) : Prop where
  rows : ∀ r row, w.db.recordings.lookup r = some row → row.status ≠ .recording
  active : ∀ c, (w.stored c).Active → Waiting w c

/-! ## What `_startup` does -/

/-- The orphans are the claimed channels whose status is active. -/
theorem mem_orphans {cfg : Settings} {w : World} {row : WorkerRow}
    (hrow : w.db.workers.lookup cfg.workerId = some row) (c : ChannelId) :
    c ∈ (w.db.channels.entries.filter fun e =>
        e.1 ∈ row.activeChannels ∧ e.2.status ∈ activeStatuses).map Sigma.fst ↔
      Listed cfg w c ∧ (w.stored c).Active := by
  have hlisted : Listed cfg w c ↔ c ∈ row.activeChannels := by
    simp [Listed, hrow]
  rw [hlisted]
  constructor
  · intro hc
    obtain ⟨⟨c', ch⟩, hmem, rfl⟩ := List.mem_map.mp hc
    obtain ⟨hmem, hch⟩ := List.mem_filter.mp hmem
    have hch : c' ∈ row.activeChannels ∧ ch.status ∈ activeStatuses := by simpa using hch
    have hl := Dict.mem_entries_iff.mp hmem
    exact ⟨hch.1, by simp [Stored.Active, Database.status, hl, hch.2]⟩
  · rintro ⟨hc, hact⟩
    obtain ⟨st, hst, hst'⟩ : ∃ st, w.db.status c = some st ∧ st ∈ activeStatuses := by
      simpa [Stored.Active, Option.any_eq_true] using hact
    obtain ⟨ch, hch, rfl⟩ := Option.map_eq_some_iff.mp hst
    refine List.mem_map.mpr ⟨⟨c, ch⟩, List.mem_filter.mpr ⟨Dict.mem_entries_iff.mpr hch, ?_⟩, rfl⟩
    simp [hc, hst']

/-- What `_startup` makes of the state it finds. -/
structure Restarted (cfg : Settings) (w w' : World) : Prop where
  sound : Sound w'
  /-- The memory of the worker is gone. -/
  sessions : w'.sessions = ∅
  recordingIds : w'.recordingIds = ∅
  /-- Redis has kept its lists. -/
  lists : w'.lists = w.lists
  /-- There is a row for the worker. -/
  worker : ∃ row, w'.db.workers.lookup cfg.workerId = some row
  /-- A channel that was claimed and active is put right. -/
  orphaned : ∀ c, Listed cfg w c → (w.stored c).Active →
    w'.stored c = ⟨some .idle, dropRow (w.db.activeRecording c) (w.db.rowsOf c)⟩
  /-- No other channel is touched. -/
  kept : ∀ c, ¬ (Listed cfg w c ∧ (w.stored c).Active) → w'.stored c = w.stored c

/-- The loop of `_reconcile_orphaned_channels`: `xs` are the orphans still to do. -/
structure Reconciling (w : World) (all xs : List (Sigma fun _ : ChannelId => Channel))
    (staged : Database → Database) : Prop where
  sound : Sound (w.commitDb staged)
  /-- No channel comes twice. -/
  nodup : (xs.map Sigma.fst).Nodup
  /-- What is still to be looked at is as it was. -/
  waiting : ∀ e ∈ xs, w.db.status e.1 ≠ none ∧ (w.commitDb staged).view e.1 = w.view e.1
  /-- What was looked at is put right. -/
  done : ∀ c, c ∈ all.map Sigma.fst → c ∉ xs.map Sigma.fst → (w.commitDb staged).stored c =
    ⟨some .idle, dropRow (w.db.activeRecording c) (w.db.rowsOf c)⟩
  /-- What is not claimed stays. -/
  others : ∀ c, c ∉ all.map Sigma.fst → (w.commitDb staged).stored c = w.stored c
  subset : ∀ e ∈ xs, e ∈ all
  /-- Worker rows stay. -/
  workers : (staged w.db).workers = w.db.workers

section Specs

variable {o : Oracle Call} {E : PyError → ℕ → World → Prop} {C : World → Prop} {n : ℕ}
  {w : World} {c : ChannelId}

/-- **One orphan.** -/
theorem Reconciling.orphan {all xs : List (Sigma fun _ : ChannelId => Channel)}
    {e : Sigma fun _ : ChannelId => Channel} {staged : Database → Database}
    (h : Reconciling w all (e :: xs) staged) :
    Reconciling w all xs (failRow (w.db.activeRecording e.1) w.now ∘
      Database.setStatus e.1 .idle ∘ staged) := by
  obtain ⟨c, ch⟩ := e
  obtain ⟨hst, hview⟩ := h.waiting ⟨c, ch⟩ (List.mem_cons_self ..)
  have hnodup := List.nodup_cons.mp h.nodup
  have hrows : (staged w.db).rowsOf c = w.db.rowsOf c := congrArg (fun v => v.rows) hview
  have hstatus : (staged w.db).status c = w.db.status c := congrArg (fun v => v.status) hview
  -- The row that is failed is the channel's, also among the staged rows.
  have hloc : Local c (w.commitDb staged) (w.commitDb (failRow (w.db.activeRecording c) w.now ∘
      Database.setStatus c .idle ∘ staged)) := by
    refine (Local.setStatus .idle).trans (local_failRow fun _ r row hr hrow => ?_)
    by_contra hne
    apply (picks_activeRecording w.db c).2 r hr
    rw [← hrows]
    have hrow' : (staged w.db).recordings.lookup r = some row := hrow
    simp [Database.rowsOf, hrow', hne]
  have hother : ∀ d, d ≠ c → (w.commitDb (failRow (w.db.activeRecording c) w.now ∘
      Database.setStatus c .idle ∘ staged)).view d = (w.commitDb staged).view d :=
    hloc.views h.sound
  refine ⟨hloc.sound h.sound, hnodup.2, fun e he => ?_, fun d hd hx => ?_, fun d hd => ?_,
    fun e he => h.subset e (List.mem_cons_of_mem _ he), hloc.workers.trans h.workers⟩
  · have hmem : e.1 ∈ xs.map Sigma.fst := List.mem_map_of_mem he
    have hne : e.1 ≠ c := fun hc => hnodup.1 (hc ▸ hmem)
    obtain ⟨hst', hview'⟩ := h.waiting e (List.mem_cons_of_mem _ he)
    exact ⟨hst', (hother e.1 hne).trans hview'⟩
  · by_cases hdc : d = c
    · subst hdc
      obtain ⟨st, hst⟩ := Option.ne_none_iff_exists'.mp hst
      refine Stored.ext ?_ ?_
      · simp [hstatus, hst]
      · simp [hrows]
    · have hx' : d ∉ (⟨c, ch⟩ :: xs : List (Sigma fun _ : ChannelId => Channel)).map Sigma.fst := by
        simpa [hdc] using hx
      exact (congrArg View.toStored (hother d hdc)).trans (h.done d hd hx')
  · have hdc : d ≠ c := by
      rintro rfl
      exact hd (List.mem_map_of_mem (h.subset ⟨d, ch⟩ (List.mem_cons_self ..)))
    exact (congrArg View.toStored (hother d hdc)).trans (h.others d hd)

/-- **`_reconcile_orphaned_channels`** of a worker without sessions. -/
theorem wp_reconcile {Q : Unit → ℕ → World → Prop} (ho : Steady o) (hcrash : ¬ MayCrash o)
    (cfg : Settings) (hw : Sound w) (hs : w.sessions = ∅)
    (hQ : ∀ n' f, Sound (w.commitDb f) →
      (∀ c, Listed cfg w c → (w.stored c).Active → (w.commitDb f).stored c =
        ⟨some .idle, dropRow (w.db.activeRecording c) (w.db.rowsOf c)⟩) →
      (∀ c, ¬ (Listed cfg w c ∧ (w.stored c).Active) → (w.commitDb f).stored c = w.stored c) →
      Q () n' (w.commitDb f)) :
    wp o (IngestWorker.reconcileOrphanedChannels cfg) Q E C n w := by
  unfold IngestWorker.reconcileOrphanedChannels
  rw [wp_bind]
  refine wp_query_of ho.db (fun n₁ => ?_) fun h => absurd h hcrash
  cases hrow : w.db.workers.lookup cfg.workerId with
  | none =>
    refine hQ n₁ id hw (fun c hl => ?_) fun _ _ => rfl
    obtain ⟨row, hrow', -⟩ := hl
    exact absurd (hrow.symm.trans hrow') (by simp)
  | some row =>
    simp only [wp_ite]
    refine ⟨fun hnil => ?_, fun _ => ?_⟩
    · refine hQ n₁ id hw (fun c hl => ?_) fun _ _ => rfl
      obtain ⟨row', hrow', hmem⟩ := hl
      obtain rfl := Option.some.inj (hrow.symm.trans hrow')
      exact absurd (hnil ▸ hmem) List.not_mem_nil
    · rw [wp_bind]
      refine wp_query_of ho.db (fun n₂ => ?_) fun h => absurd h hcrash
      rw [wp_bind]
      -- `Reconciling` is the invariant of the loop, from all orphans to none.
      refine wp_fold (I := fun xs acc u => u = w ∧ Reconciling w (w.db.channels.entries.filter
          fun e => e.1 ∈ row.activeChannels ∧ e.2.status ∈ activeStatuses) xs acc.1)
        (fun e xs acc n₃ u h => ?_) (fun acc n₃ u h => ?_) _ _ _ _ ⟨rfl, ?_⟩
      · obtain ⟨rfl, h⟩ := h
        unfold IngestWorker.reconcileOrphan
        rw [wp_bind, wp_reads, wp_ite]
        refine ⟨fun hmem => absurd hmem (by simp [hs]), fun _ => ?_⟩
        rw [wp_bind]
        refine wp_failActiveRecording ho (fun n₄ => ?_) fun h => absurd h hcrash
        rw [wp_pure]
        exact ⟨rfl, h.orphan⟩
      · obtain ⟨rfl, h⟩ := h
        rw [wp_bind, wp_reads]
        refine wp_commit_of ho.db (fun n₄ => ?_) fun h => absurd h hcrash
        refine hQ _ _ ⟨h.sound.distinct, h.sound.sessions_lt, h.sound.rows_lt, h.sound.known⟩
          (fun c hl hact => ?_) fun c hno => ?_
        · exact h.done c ((mem_orphans hrow c).mpr ⟨hl, hact⟩) (by simp)
        · exact h.others c fun hc => hno ((mem_orphans hrow c).mp hc)
      · refine ⟨hw, ?_, fun e he => ⟨?_, rfl⟩, fun c hc hx => absurd hc hx, fun _ _ => rfl,
          fun _ he => he, rfl⟩
        · exact w.db.channels.nodupKeys.sublist List.filter_sublist
        · have hl := Dict.mem_entries_iff.mp (List.mem_filter.mp he).1
          simp [Database.status, hl]

/-- **`_startup`.**  The worker starts with no session, and every channel that it was seen to have
is reconciled. -/
theorem restarted (cfg : Settings) (w : World)
    (hw : ∀ r row, w.db.recordings.lookup r = some row → r < w.nextId) :
    Restarted cfg w (w.restart cfg) := by
  have hsound : Sound w.reboot := by
    refine ⟨fun c d s hs => ?_, fun c s hs => ?_, hw, fun c r hr => ?_⟩
    · exact absurd hs (by simp)
    · exact absurd hs (by simp)
    · exact absurd hr (by simp)
  have ho : Steady (allOk : Oracle Call) := healthy_allOk.steady
  have hcrash : ¬ MayCrash (allOk : Oracle Call) := healthy_allOk.not_mayCrash
  apply final_of_wp (P := Restarted cfg w)
  unfold IngestWorker.startup
  rw [wp_bind]
  refine wp_reconcile ho hcrash cfg hsound rfl fun n f hf horphaned hkept => ?_
  unfold IngestWorker.registerWorker
  rw [wp_bind]
  refine wp_query_of ho.db (fun n₁ => ?_) fun h => absurd h hcrash
  rw [wp_bind, wp_reads, wp_bind, wp_reads]
  refine wp_commit_of ho.db (fun n₂ => ?_) fun h => absurd h hcrash
  exact
    { sound := ⟨hf.distinct, hf.sessions_lt, hf.rows_lt, hf.known⟩
      sessions := rfl
      recordingIds := rfl
      lists := rfl
      worker := ⟨_, by rw [World.commitDb_db, Database.setWorker, Dict.lookup_set, if_pos rfl]⟩
      orphaned := fun c hl hact => horphaned c hl hact
      kept := fun c hno => hkept c hno }

end Specs

/-! ## When the recovery is complete -/

/-- What `_startup` puts right about a channel, whether it is listed on the worker row and
whether a job for it is waiting. -/
structure Stored.Recoverable (listed waiting : Prop) (x : Stored) : Prop where
  /-- An active status is claimed, or has a job that waits. -/
  active : x.Active → listed ∨ waiting
  /-- A row in flight is of a claimed and active channel. -/
  rows : ∀ r, x.rows r ≠ none → listed ∧ x.Active
  /-- There is at most one. -/
  unique : ∀ r r', x.rows r ≠ none → x.rows r' ≠ none → r = r'

/-- Rows in flight are those of some channel. -/
theorem rows_ended_iff {w : World} :
    (∀ r row, w.db.recordings.lookup r = some row → row.status ≠ .recording) ↔
      ∀ c r, (w.stored c).rows r = none := by
  constructor
  · intro h c r
    by_contra hne
    obtain ⟨s, hs⟩ := Option.ne_none_iff_exists'.mp hne
    obtain ⟨row, hrow, -, hst⟩ := Database.inFlight_iff_rowsOf.mpr ⟨s, hs⟩
    exact h r row hrow hst
  · intro h r row hrow hst
    have hin : w.db.InFlight row.channelId r := ⟨row, hrow, rfl, hst⟩
    obtain ⟨s, hs⟩ := Database.inFlight_iff_rowsOf.mp hin
    exact absurd (hs.symm.trans (h row.channelId r)) (by simp)

theorem waiting_congr {w w' : World} {c : ChannelId}
    (h : ∀ q, q.isControl = true → w'.lists q = w.lists q) : Waiting w' c ↔ Waiting w c := by
  refine exists_congr fun q => and_congr_right fun hq => ?_
  rw [h q hq]

theorem listed_congr {cfg : Settings} {w w' : World} {c : ChannelId}
    (h : w'.db.workers = w.db.workers) : Listed cfg w' c ↔ Listed cfg w c := by
  simp [Listed, h]

/-- An idle channel is not active. -/
theorem Stored.not_active_idle (rows : RecordingId → Option SessionId) :
    ¬ (Stored.mk (some .idle) rows).Active := by
  simp [Stored.Active, activeStatuses]

/-- **A restart recovers exactly what is recoverable.** -/
theorem recovered_restart_iff (cfg : Settings) {w : World}
    (hw : ∀ r row, w.db.recordings.lookup r = some row → r < w.nextId) :
    Recovered (w.restart cfg) ↔
      ∀ c, (w.stored c).Recoverable (Listed cfg w c) (Waiting w c) := by
  have h := restarted cfg w hw
  constructor
  · intro hrec c
    have hrows := rows_ended_iff.mp hrec.rows c
    refine ⟨fun hact => ?_, fun r hr => ?_, fun r r' hr hr' => ?_⟩
    -- A channel that the worker was not seen to have is left, so its intent must be waiting.
    · by_cases hl : Listed cfg w c
      · exact Or.inl hl
      · have hkept := h.kept c fun hno => hl hno.1
        have hwaiting := hrec.active c (hkept ▸ hact)
        exact Or.inr ((waiting_congr fun q _ => congrFun h.lists q).mp hwaiting)
    · by_contra hno
      rw [h.kept c hno] at hrows
      exact hr (hrows r)
    · by_cases hno : Listed cfg w c ∧ (w.stored c).Active
      · -- Only one of the two rows can be the one that is failed.
        rw [h.orphaned c hno.1 hno.2] at hrows
        have hpick : ∀ r, w.db.rowsOf c r ≠ none → w.db.activeRecording c = some r := by
          intro r hr
          by_contra hne
          obtain ⟨s, hs⟩ := Option.ne_none_iff_exists'.mp hr
          exact absurd ((dropRow_eq_some.mpr ⟨hne, hs⟩).symm.trans (hrows r)) (by simp)
        exact Option.some.inj ((hpick r hr).symm.trans (hpick r' hr'))
      · rw [h.kept c hno] at hrows
        exact absurd (hrows r) hr
  · intro hrec
    refine ⟨rows_ended_iff.mpr fun c r => ?_, fun c hact => ?_⟩
    · by_cases hno : Listed cfg w c ∧ (w.stored c).Active
      · rw [h.orphaned c hno.1 hno.2]
        by_contra hne
        obtain ⟨s, hs⟩ := Option.ne_none_iff_exists'.mp hne
        obtain ⟨hpick, hr⟩ := dropRow_eq_some.mp hs
        have hpicks := picks_activeRecording w.db c
        -- The row that is failed is the one the query picks, and there is no other.
        cases ht : w.db.activeRecording c with
        | none => exact absurd (hpicks.1 ht r) (by simp [hr])
        | some r' =>
          have hrr : r' = r := (hrec c).unique r' r (hpicks.2 r' ht) (by simp [hr])
          exact hpick (by rw [ht, hrr])
      · rw [h.kept c hno]
        by_contra hr
        exact hno ((hrec c).rows r hr)
    · by_cases hno : Listed cfg w c ∧ (w.stored c).Active
      · rw [h.orphaned c hno.1 hno.2] at hact
        exact absurd hact (Stored.not_active_idle _)
      · rw [h.kept c hno] at hact
        rcases (hrec c).active hact with hl | hwait
        · exact absurd ⟨hl, hact⟩ hno
        · exact (waiting_congr fun q _ => congrFun h.lists q).mpr hwait
