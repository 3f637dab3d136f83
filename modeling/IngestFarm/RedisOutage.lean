/-
# A Redis outage

The handlers `_heartbeat`, `_handle_disconnect` and `_handle_record_stop` under a Redis
that fails some of its calls, compared with a healthy one.  Redis makes no difference to
a program that guards each of its Redis calls (`RedisFree`), which `_heartbeat` does.  The
other two end in `_finalize_recording`, whose events are published unguarded: a failing
publish cuts the handler off before the teardown or before the last status write.
-/
import IngestFarm.Outcomes

open Prog

/-- Redis answers as `up` says; everything else works. -/
def outage (up : Call → Bool) (k : Call) : Bool := !k.isRedis || up k

/-- Redis makes no difference to `m`: it ends normally, with one result and one state of the
books. -/
def RedisFree {α : Type} (m : Handler α) (w : World) : Prop :=
  ∃ a w₁, ∀ up n w', SameBooks w' w → wp (answers (outage up)) m
    (fun b _ t => b = a ∧ SameBooks t w₁) (fun _ _ _ => False) (fun _ => False) n w'

namespace RedisFree

variable {α β γ : Type} {w : World}

theorem pure' (a : α) : RedisFree (pure a) w :=
  ⟨a, w, fun _ _ _ hw => ⟨rfl, hw⟩⟩

/-- **Composition.** -/
theorem bind {m : Handler β} {f : β → Handler α} (hm : RedisFree m w)
    (hf : ∀ b w₁, RedisFree (f b) w₁) : RedisFree (m >>= f) w := by
  obtain ⟨b, w₁, hm⟩ := hm
  obtain ⟨a, w₂, hf⟩ := hf b w₁
  refine ⟨a, w₂, fun up n w' hw => ?_⟩
  rw [wp_bind]
  refine wp_mono (hm up n w' hw) ?_ (fun _ _ _ h => h) fun _ h => h
  rintro b' n' t ⟨rfl, ht⟩
  exact hf up n' t ht

theorem reads {f : World → α} (hf : ∀ w', SameBooks w' w → f w' = f w) :
    RedisFree (Prog.reads f) w :=
  ⟨f w, w, fun _ _ w' hw => ⟨hf w' hw, hw⟩⟩

/-- A change of the state that agrees on the books. -/
theorem modify {f : World → World} (hf : ∀ w', SameBooks w' w → SameBooks (f w') (f w)) :
    RedisFree (Prog.modify f) w :=
  ⟨(), f w, fun _ _ w' hw => ⟨rfl, hf w' hw⟩⟩

/-- The database does not know about Redis. -/
theorem query (f : Database → α) : RedisFree (query f) w :=
  ⟨f w.db, w, fun _ _ w' hw => by simp [outage, Call.isRedis, hw, hw.db]⟩

/-- Nor does a commit. -/
theorem commit (f : Database → Database) : RedisFree (commit f) w :=
  ⟨(), w.commitDb f, fun _ _ w' hw => by simp [outage, Call.isRedis, hw.commitDb f]⟩

/-- A branch on what the books say. -/
theorem ite {b : Prop} [Decidable b] {m m' : Handler α} (hm : RedisFree m w)
    (hm' : RedisFree m' w) : RedisFree (if b then m else m') w := by
  split
  · exact hm
  · exact hm'

/-- **The accumulator loop.** -/
theorem fold {f : γ → β → Handler γ} (hf : ∀ acc x w₁, RedisFree (f acc x) w₁) :
    ∀ (xs : List β) (acc : γ) (w : World), RedisFree (Prog.fold f xs acc) w := by
  intro xs
  induction xs with
  | nil => intro acc w; exact pure' acc
  | cons x xs ih => intro acc w; exact bind (hf acc x w) ih

/-- A session is looked at without Redis. -/
theorem checkConnected (s : SessionId) : RedisFree (ChannelSession.checkConnected s) w :=
  ⟨(w.heap s).isConnected, w, fun _ _ w' hw => by simp [outage, Call.isRedis, hw, hw.heap]⟩

/-- Deleting stats is guarded. -/
theorem clearStats (c : ChannelId) : RedisFree (IngestWorker.clearStats c) w := by
  refine ⟨(), w, fun up n w' hw => ?_⟩
  rw [IngestWorker.wp_clearStats]
  exact ⟨fun _ => ⟨rfl, (SameBooks.dropStats c w').trans hw⟩, fun _ => ⟨rfl, hw⟩, by simp⟩

/-- So is setting them. -/
theorem publishStats (c : ChannelId) : RedisFree (IngestWorker.publishStats c) w := by
  refine ⟨(), w, fun up n w' hw => ?_⟩
  rw [IngestWorker.wp_publishStats]
  exact ⟨fun _ => ⟨rfl, (SameBooks.addStats c w').trans hw⟩, fun _ => ⟨rfl, hw⟩, by simp⟩

/-- Two environments leave the same books. -/
theorem sameBooks {m : Handler α} (hm : RedisFree m w) (up : Call → Bool) :
    SameBooks (final (answers (outage up)) m w) (final allOk m w) := by
  obtain ⟨a, w₁, hm⟩ := hm
  have hall : (allOk : Oracle Call) = answers (outage fun _ => true) := by
    funext n k
    simp [allOk, answers, outage]
  have key : ∀ up, SameBooks (final (answers (outage up)) m w) w₁ := by
    intro up
    refine final_of_wp (P := fun t => SameBooks t w₁) ?_
    exact wp_mono (hm up 0 w (SameBooks.rfl' w)) (fun _ _ _ h => h.2)
      (fun _ _ _ h => h.elim) fun _ h => h.elim
  rw [hall]
  exact (key up).trans (key _).symm

end RedisFree

/-! ## The heartbeat -/

/-- A row that fails. -/
theorem redisFree_failActiveRecording (c : ChannelId) (w : World) :
    RedisFree (IngestWorker.failActiveRecording c) w := by
  refine (RedisFree.query _).bind fun r w₁ => (RedisFree.reads fun w' hw => hw.now).bind ?_
  intro now w₂
  cases r with
  | none => exact RedisFree.pure' _
  | some r => exact RedisFree.pure' _

/-- One session of a heartbeat. -/
theorem redisFree_heartbeatSession (staged : Database → Database)
    (item : Sigma fun _ : ChannelId => SessionId) (w : World) :
    RedisFree (IngestWorker.heartbeatSession staged item) w := by
  refine (RedisFree.checkConnected item.2).bind fun up w₁ => RedisFree.ite ?_ ?_
  · exact (RedisFree.publishStats item.1).bind fun _ _ => RedisFree.pure' staged
  · refine (RedisFree.modify fun w' hw => hw.dropSession item.1).bind fun _ _ => ?_
    refine (RedisFree.modify fun w' hw => hw.dropRecordingId item.1).bind fun _ _ => ?_
    refine (RedisFree.modify fun w' hw => hw.dropPending item.1).bind fun _ _ => ?_
    refine (RedisFree.clearStats item.1).bind fun _ _ => ?_
    refine (redisFree_failActiveRecording item.1 _).bind fun fail _ => ?_
    exact (RedisFree.query _).bind fun ch _ => RedisFree.pure' _

/-- **The heartbeat does not depend on Redis.** -/
theorem redisFree_heartbeat (cfg : Settings) (w : World) :
    RedisFree (IngestWorker.heartbeat cfg) w := by
  refine (RedisFree.query _).bind fun worker _ => ?_
  refine (RedisFree.reads fun w' hw => by rw [hw.sessions]).bind fun keys _ => ?_
  refine (RedisFree.reads fun w' hw => hw.now).bind fun now _ => ?_
  refine (RedisFree.reads fun w' hw => by rw [hw.sessions]).bind fun items _ => ?_
  refine (RedisFree.fold redisFree_heartbeatSession items _ _).bind fun staged _ => ?_
  refine (RedisFree.commit staged).bind fun _ _ => ?_
  exact RedisFree.modify fun w' hw => hw.clearDied

/-- A stop without a session. -/
theorem redisFree_stopWithoutSession (c : ChannelId) (w : World) :
    RedisFree (IngestWorker.stopWithoutSession c) w := by
  refine (RedisFree.query _).bind fun ch _ => ?_
  refine (redisFree_failActiveRecording c _).bind fun fail _ => ?_
  exact RedisFree.commit _

/-! ## Cut off in the middle -/

/-- The status that `_handle_record_stop` leaves a channel in. -/
def settledStatus (x : ChannelSession) : ChannelStatus :=
  if x.isConnected = true then .connected else .idle

namespace World

/-- The outcome of the last status write of `_handle_record_stop`. -/
def settled (c : ChannelId) (s : SessionId) (w : World) : World :=
  if w.db.status c = none then w
  else w.commitDb (Database.setStatus c (settledStatus (w.heap s)))

/-- The outcome of `_handle_record_stop` with a session. -/
def stopped (c : ChannelId) (s : SessionId) (w : World) : World :=
  settled c s (if w.HasRecording c s then w.finalized c s else w)

end World

/-- Both events of a completed recording reach Redis. -/
def Announced (up : Call → Bool) : Prop :=
  up (.redisPush .recordingComplete) = true ∧ up (.redisPush .postprocess) = true

instance (up : Call → Bool) : Decidable (Announced up) := inferInstanceAs (Decidable (_ ∧ _))

/-- An event of the recording that the disconnect finishes cannot be published, and there
is still something to do after it. -/
def DisconnectCut (up : Call → Bool) (w : World) (c : ChannelId) : Prop :=
  ∃ s, w.sessions.lookup c = some s ∧ (w.heap s).recording = true ∧
    w.finalizeTarget c ≠ none ∧ ¬ Announced up ∧
      ((w.heap s).stopping = false ∨ (w.db.status c).any (· ∈ activeStatuses) = true)

/-- An event of the recording that is stopped cannot be published, and the status is still
to be written. -/
def StopCut (up : Call → Bool) (w : World) (c : ChannelId) : Prop :=
  ∃ s, w.sessions.lookup c = some s ∧ w.HasRecording c s ∧ w.finalizeTarget c ≠ none ∧
    ¬ Announced up ∧ ∃ st, w.db.status c = some st ∧ st ≠ settledStatus (w.heap s)

section Specs

variable {up : Call → Bool} {E : PyError → ℕ → World → Prop} {C : World → Prop} {n : ℕ}
  {w : World}

/-- The database is up during the outage. -/
theorem outage_db (n : ℕ) (k : Call) (hk : k.isDb = true) : answers (outage up) n k ≠ .fail := by
  cases k <;> simp_all [outage, Call.isDb, Call.isRedis]

/-- A completed recording is published if the push goes through. -/
theorem published_outage : Published (answers (outage up)) ↔ Announced up := by
  simp [Published, Announced, outage, Call.isRedis]

/-- And otherwise not. -/
theorem unpublished_outage : Unpublished (answers (outage up)) ↔ ¬ Announced up := by
  simp [Unpublished, Announced, outage, Call.isRedis, imp_iff_not_or]

/-- In an outage the media calls work. -/
theorem not_unclosable_outage (s : SessionId) : ¬ Unclosable (answers (outage up)) w s := by
  simp [Unclosable, Unlistable, Unsizable, outage, Call.isRedis]

/-- The disk is up too. -/
theorem not_unlistable_outage (s : SessionId) :
    ¬ (Unlistable (answers (outage up)) w s ∨ Unsizable (answers (outage up)) w s) := by
  simp [Unlistable, Unsizable, outage, Call.isRedis]

/-- The last status write of `_handle_record_stop`. -/
theorem wp_settle {Q : Unit → ℕ → World → Prop} {c : ChannelId} {s : SessionId} {w₁ : World}
    (hw : SameBooks w w₁) (hQ : ∀ n' w', SameBooks w' (w₁.settled c s) → Q () n' w') :
    wp (answers (outage up)) (query fun db => db.status c)
      (fun ch n' w' => wp (answers (outage up)) (whenever (ch ≠ none) (do
        let up ← ChannelSession.checkConnected s
        commit (Database.setStatus c (if up = true then .connected else .idle)))) Q E C n' w')
      E C n w := by
  have hq : outage up .dbQuery = true := rfl
  have hc : outage up .dbCommit = true := rfl
  have hpoll : outage up (.poll s) = true := rfl
  simp only [wp_query, wp_whenever, wp_bind, ChannelSession.wp_checkConnected, wp_commit,
    answers_eq_ok, answers_eq_fail, answers_eq_crash, hq, hc, hpoll, hw.db, hw.heap]
  refine ⟨fun _ => ⟨fun hst => ⟨fun _ => ⟨fun _ => hQ _ _ ?_, by simp, False.elim⟩, by simp,
    False.elim⟩, fun hst => hQ _ _ ?_⟩, by simp, False.elim⟩
  · rw [World.settled, if_neg hst]
    exact hw.commitDb _
  · rw [World.settled, if_pos (not_not.mp hst)]
    exact hw

/-- **`_handle_record_stop` with a session.** -/
theorem wp_stopSession {Q : Unit → ℕ → World → Prop} {c : ChannelId} {s : SessionId}
    (hQ : (w.HasRecording c s → w.finalizeTarget c = none ∨ Announced up) →
      ∀ n' w', SameBooks w' (w.stopped c s) → Q () n' w')
    (hE : w.HasRecording c s → w.finalizeTarget c ≠ none → ¬ Announced up →
      ∀ e n' w', SameBooks w' (w.finalized c s) → E e n' w') :
    wp (answers (outage up)) (IngestWorker.stopSession c s) Q E C n w := by
  unfold World.stopped at hQ
  unfold IngestWorker.stopSession
  rw [wp_bind]
  by_cases hrec : w.HasRecording c s
  · rw [if_pos hrec] at hQ
    have halive := not_mayCrash_answers (outage up)
    refine wp_finalizeRecording outage_db hrec ?_ ?_ ?_ (fun h => absurd h halive)
      fun h => absurd h halive
    · intro _ _ hpub n₁ w₁ hw₁
      rw [published_outage] at hpub
      exact wp_settle hw₁ fun n' w' hw' => hQ (fun _ => hpub) n' w' hw'
    · intro _ _ htarget hpub
      exact hE hrec htarget (unpublished_outage.mp hpub)
    · intro h
      exact absurd h (not_unlistable_outage s)
  · rw [if_neg hrec] at hQ
    have hnone : (w.heap s).recording = false ∧ w.recordingIds.lookup c = none := by
      simpa [World.HasRecording] using hrec
    unfold IngestWorker.finalizeRecording
    simp only [wp_bind, wp_reads, wp_ite, hnone, wp_pure]
    refine ⟨fun _ => ?_, fun h => absurd ⟨trivial, trivial⟩ h⟩
    exact wp_settle (SameBooks.rfl' w) fun n' w' hw' => hQ (fun h => absurd h hrec) n' w' hw'

end Specs

/-! ## Comparing with a healthy Redis -/

/-- No outage at all. -/
theorem allOk_eq : (allOk : Oracle Call) = answers (outage fun _ => true) := by
  funext n k
  simp [allOk, answers, outage]

/-- Two programs that end alike end alike in the comparison with a third. -/
theorem SameBooks.congr {w₁ w₁' w₂ w₂' : World} (h : SameBooks w₁ w₁') (h' : SameBooks w₂ w₂') :
    SameBooks w₁ w₂ ↔ SameBooks w₁' w₂' :=
  ⟨fun hw => (h.symm.trans hw).trans h', fun hw => (h.trans hw).trans h'.symm⟩

/-- **Where a stop ends.** -/
theorem final_stopSession {up : Call → Bool} {w : World} {c : ChannelId} {s : SessionId} :
    SameBooks (final (answers (outage up)) (IngestWorker.stopSession c s) w)
      (if w.HasRecording c s ∧ w.finalizeTarget c ≠ none ∧ ¬ Announced up
        then w.finalized c s else w.stopped c s) := by
  refine final_of_wp (P := fun t => SameBooks t _) (wp_stopSession ?_ ?_)
  · intro hpub n' w' hw'
    rw [if_neg fun h => (hpub h.1).elim h.2.1 h.2.2]
    exact hw'
  · intro hrec htarget hpub e n' w' hw'
    rw [if_pos ⟨hrec, htarget, hpub⟩]
    exact hw'

/-- **Where a disconnect ends.** -/
theorem final_handleDisconnect {up : Call → Bool} {w : World} {c : ChannelId} {s : SessionId}
    (hs : w.sessions.lookup c = some s) :
    SameBooks (final (answers (outage up)) (IngestWorker.handleDisconnect c) w)
      (if (w.heap s).recording = true ∧ w.finalizeTarget c ≠ none ∧ ¬ Announced up
        then ((w.dropPending c).dropSession c).finalized c s else w.disconnected c) := by
  refine final_of_wp (P := fun t => SameBooks t _) (wp_handleDisconnect outage_db ?_ ?_ ?_ ?_)
  · intro hcl n' w' hw'
    rw [if_neg fun h => ((hcl s hs).2 h.1).elim h.2.1 fun hp => h.2.2 (published_outage.mp hp)]
    exact hw'
  · intro s' hs' hrec htarget hpub e n' w' hw'
    obtain rfl : s = s' := Option.some.inj (hs.symm.trans hs')
    rw [if_pos ⟨hrec, htarget, unpublished_outage.mp hpub⟩]
    exact hw'
  · intro s' _ h
    exact absurd h (not_unclosable_outage s')
  · intro h
    exact absurd h (not_mayCrash_answers _)

/-- What is missing after a cut stop is the status write, if it would change anything. -/
theorem sameBooks_settled_iff {w : World} {c : ChannelId} {s : SessionId} :
    SameBooks w (w.settled c s) ↔
      ∀ st, w.db.status c = some st → st = settledStatus (w.heap s) := by
  unfold World.settled
  cases hst : w.db.status c with
  | none => simp [SameBooks.rfl']
  | some st =>
    simp only [reduceCtorEq, if_false, Option.some.injEq, forall_eq']
    constructor
    · intro h
      have hdb := congrArg (fun db => db.status c) h.db
      simpa [hst] using hdb
    · rintro rfl
      refine ⟨⟨?_, fun _ _ => rfl, rfl, rfl, rfl⟩, rfl, rfl, rfl, rfl, rfl, rfl⟩
      exact (Database.setStatus_of_status hst).symm

/-- What is missing after a cut disconnect is the teardown and the status write. -/
theorem sameBooks_idled_iff {w : World} {c : ChannelId} {s : SessionId} :
    SameBooks w ((w.tornDown s).idled c) ↔
      (w.heap s).stopping = true ∧ (w.db.status c).any (· ∈ activeStatuses) = false := by
  constructor
  · intro h
    have hstop : ((w.tornDown s).idled c).heap s = (w.tornDown s).heap s := by
      unfold World.idled
      split <;> rfl
    constructor
    · have hx := congrArg ChannelSession.stopping ((congrFun h.heap s).trans hstop)
      rw [hx]
      by_cases hst : (w.heap s).stopping = true
      · simp [World.tornDown, hst]
      · simp [World.tornDown, hst]
    · by_contra hact
      have hany : (w.db.status c).any (· ∈ activeStatuses) = true := by simpa using hact
      have hx := congrArg (fun db => db.status c) h.db
      rw [World.idled, if_pos (by exact hany)] at hx
      cases hst : w.db.status c with
      | none => simp [hst] at hany
      | some st =>
        have hidle : st = .idle := by simpa [World.tornDown, hst] using hx
        rw [hst, hidle] at hany
        exact absurd hany (by decide)
  · rintro ⟨hstop, hst⟩
    have hw : w.tornDown s = w := by
      rw [World.tornDown, World.updSession_congr (g := id), World.updSession_self]
      simp [hstop]
    rw [hw, World.idled, hst]
    exact SameBooks.rfl' w

/-- **A disconnect** does the same with and without Redis exactly when it has nothing to announce,
or can. -/
theorem disconnect_same_books_iff (up : Call → Bool) (w : World) (c : ChannelId) :
    SameBooks (final (answers (outage up)) (IngestWorker.handleDisconnect c) w)
      (final allOk (IngestWorker.handleDisconnect c) w) ↔ ¬ DisconnectCut up w c := by
  rw [allOk_eq]
  unfold DisconnectCut
  cases hs : w.sessions.lookup c with
  | none =>
    -- Without a session only the stats are deleted in Redis.
    have hfree : ∀ up, SameBooks (final (answers (outage up)) (IngestWorker.handleDisconnect c) w)
        (w.disconnected c) := by
      intro up
      refine final_of_wp (P := fun t => SameBooks t (w.disconnected c))
        (wp_handleDisconnect outage_db (fun _ _ _ h => h) ?_ ?_ ?_)
      · intro s hs'
        exact absurd (hs.symm.trans hs') (by simp)
      · intro s hs'
        exact absurd (hs.symm.trans hs') (by simp)
      · intro h
        exact absurd h (not_mayCrash_answers _)
    simpa using (hfree up).trans (hfree _).symm
  | some s =>
    have hall : Announced fun _ => true := ⟨rfl, rfl⟩
    rw [SameBooks.congr (final_handleDisconnect hs) (final_handleDisconnect hs)]
    rw [if_neg (c := _ ∧ _ ∧ ¬ Announced fun _ => true) fun h => h.2.2 hall]
    split
    · rename_i hcut
      obtain ⟨hrec, htarget, hpub⟩ := hcut
      have hw : w.disconnected c = (((((w.dropPending c).dropSession c).finalized c s)).tornDown
          s).idled c := by
        simp [World.disconnected, World.closedSession, hs, hrec]
      rw [hw, sameBooks_idled_iff]
      simp [hrec, htarget, hpub]
    · rename_i hcut
      apply iff_of_true (SameBooks.rfl' _)
      rintro ⟨s', hs', hrec, htarget, hpub, -⟩
      obtain rfl := Option.some.inj hs'
      exact hcut ⟨hrec, htarget, hpub⟩

/-- **A stop**, likewise. -/
theorem stop_same_books_iff (up : Call → Bool) (w : World) (c : ChannelId) :
    SameBooks (final (answers (outage up)) (IngestWorker.handleRecordStop c) w)
      (final allOk (IngestWorker.handleRecordStop c) w) ↔ ¬ StopCut up w c := by
  rw [allOk_eq]
  unfold StopCut
  cases hs : w.sessions.lookup c with
  | none =>
    have hfin : ∀ o, final o (IngestWorker.handleRecordStop c) w =
        final o (IngestWorker.stopWithoutSession c) (w.dropPending c) := by
      intro o
      rw [IngestWorker.handleRecordStop, final_modify_bind, final_reads_bind]
      simp only [World.dropPending_sessions, hs]
    have hfree := redisFree_stopWithoutSession c (w.dropPending c)
    rw [hfin, hfin]
    simpa using (hfree.sameBooks up).trans (hfree.sameBooks _).symm
  | some s =>
    have hfin : ∀ o, final o (IngestWorker.handleRecordStop c) w =
        final o (IngestWorker.stopSession c s) (w.dropPending c) := by
      intro o
      rw [IngestWorker.handleRecordStop, final_modify_bind, final_reads_bind]
      simp only [World.dropPending_sessions, hs]
    have hall : Announced fun _ => true := ⟨rfl, rfl⟩
    rw [hfin, hfin, SameBooks.congr final_stopSession final_stopSession]
    rw [if_neg (c := _ ∧ _ ∧ ¬ Announced fun _ => true) fun h => h.2.2 hall]
    split
    · rename_i hcut
      obtain ⟨hrec, htarget, hpub⟩ := hcut
      rw [World.stopped, if_pos hrec, sameBooks_settled_iff]
      have hup : settledStatus (((w.dropPending c).finalized c s).heap s) =
          settledStatus (w.heap s) := by
        simp [settledStatus]
      rw [hup, World.status_finalized]
      constructor
      · rintro h ⟨s', hs', -, -, -, st, hst, hne⟩
        obtain rfl := Option.some.inj hs'
        exact hne (h st hst)
      · intro h st hst
        by_contra hne
        exact h ⟨s, rfl, hrec, htarget, hpub, st, hst, hne⟩
    · rename_i hcut
      apply iff_of_true (SameBooks.rfl' _)
      rintro ⟨s', hs', hrec, htarget, hpub, -⟩
      obtain rfl := Option.some.inj hs'
      exact hcut ⟨hrec, htarget, hpub⟩

/-- **Where an outage makes a difference.**  None for the heartbeat; a disconnect or a stop
ends with the books of a healthy Redis unless a failing publish cuts it off. -/
theorem outage_same_books_iff (cfg : Settings) (up : Call → Bool) (w : World) :
    SameBooks (final (answers (outage up)) (IngestWorker.heartbeat cfg) w)
        (final allOk (IngestWorker.heartbeat cfg) w) ∧
      ∀ c, (SameBooks (final (answers (outage up)) (IngestWorker.handleDisconnect c) w)
          (final allOk (IngestWorker.handleDisconnect c) w) ↔ ¬ DisconnectCut up w c) ∧
        (SameBooks (final (answers (outage up)) (IngestWorker.handleRecordStop c) w)
          (final allOk (IngestWorker.handleRecordStop c) w) ↔ ¬ StopCut up w c) := by
  refine ⟨(redisFree_heartbeat cfg w).sameBooks up, fun c => ⟨?_, ?_⟩⟩
  · exact disconnect_same_books_iff up w c
  · exact stop_same_books_iff up w c

/-- A worker with one channel that is recording. -/
def onAir : World :=
  let base := World.fresh
    { channels := Dict.set (.str "a") ⟨"A", .udp, .recording⟩ ∅
      recordings := Dict.set 1
        { channelId := .str "a", startedAt := 0, endedAt := none, status := .recording,
          storagePath := ⟨.str "a", 0⟩, segmentCount := 0, byteSize := 0, startedBy := 0 } ∅
      workers := ∅ } 2
  { base with
    sessions := Dict.set (.str "a") 0 ∅
    recordingIds := Dict.set (.str "a") 1 ∅
    heap := fun _ => ⟨.udp, true, false, true, some ⟨.str "a", 0⟩, 0, false⟩ }

/-- With Redis down, the disconnect of a recording channel does not tear its session down. -/
theorem outage_leaves_session_running :
    ¬ ∀ (cfg : Settings) (up : Call → Bool) (w : World) (c : ChannelId),
      SameBooks (final (answers (outage up)) (IngestWorker.heartbeat cfg) w)
          (final allOk (IngestWorker.heartbeat cfg) w) ∧
        SameBooks (final (answers (outage up)) (IngestWorker.handleDisconnect c) w)
          (final allOk (IngestWorker.handleDisconnect c) w) ∧
        SameBooks (final (answers (outage up)) (IngestWorker.handleRecordStop c) w)
          (final allOk (IngestWorker.handleRecordStop c) w) := by
  intro h
  have hheap := (h ⟨"worker", 8⟩ (fun _ => false) onAir (.str "a")).2.1.heap
  have hstop : false = true := congrArg (fun heap => (heap 0).stopping) hheap
  exact absurd hstop (by decide)
