/-
# No recording without a current request

A record start that finds no live session is remembered in `_pending_record`, and one that waits
in its list is not taken back when the channel fails.  `Watched` remembers for each channel
whether a record start was accepted since its status was last idle or error; a row is inserted
only then, unless a channel at rest with a forgotten start is connected again, or has a session
all the same.

The first half is about one channel: `View.Current` says that a start which is remembered, queued or
promised by the status was asked for, unless the channel is at rest, and each handler keeps that.
The second half puts the channels together (`current_step`) and shows that a step inserts rows only
for channels that were asked (`within_step`).
-/
import IngestFarm.Frames
import IngestFarm.Settling

open Prog

/-- The status is `idle` or `error`. -/
def resting (st : Option ChannelStatus) : Bool := st.any (· ∈ [.idle, .error])

/-! ## When a handler inserts a row -/

section Created

variable {o : Oracle Call} {n : ℕ} {w u : World} {c : ChannelId} {P : ChannelId → Prop}

/-- A record start inserts a row when it finds a session that is up and not recording. -/
theorem wp_start_within (hu : w.Within P u)
    (h : ∀ s, u.sessions.lookup c = some s → (u.heap s).isConnected = true →
      (u.heap s).recording = false → P c) :
    wp o (IngestWorker.handleRecordStart c) (fun _ _ u' => w.Within P u')
      (fun _ _ u' => w.Within P u') (w.Within P) n u := by
  by_cases hc : P c
  · exact wp_mono ((IngestWorker.keeps_handleRecordStart hc).from_ frame_within hu)
      (fun _ _ _ h => h.1) (fun _ _ _ h => h) fun _ h => h
  · unfold IngestWorker.handleRecordStart
    rw [wp_bind, wp_reads]
    rcases hs : u.sessions.lookup c with _ | s
    · exact hu
    · dsimp only
      rw [wp_bind, ChannelSession.wp_checkConnected]
      refine ⟨fun _ => ?_, fun _ => ?_, fun _ => hu⟩
      · rcases hup : (u.heap s).isConnected with _ | _
        · exact hu
        · have hrec : (u.heap s).recording = true :=
            Bool.of_not_eq_false fun hrec => hc (h s hs hup hrec)
          rw [if_neg (by decide), wp_bind, wp_reads, wp_bind, wp_modify, if_pos hrec]
          exact hu
      · rw [if_pos rfl]
        exact hu

/-- The session part of a connect handler; it inserts a row when a start is wanted. -/
theorem wp_connectSession_within {s : SessionId} {b : Bool} (hu : w.Within P u)
    (h : o n (.connect s) = .ok → b = true ∨ c ∈ u.pendingRecord → P c) :
    wp o (IngestWorker.connectSession c s b) (fun _ _ u' => w.Within P u')
      (fun _ _ u' => w.Within P u') (w.Within P) n u := by
  have hmark : ∀ st : Option ChannelStatus, Staged (if st = some .connecting then
      Database.setStatus c .connected else id) :=
    fun st => staged_ite (staged_setStatus c _) staged_id
  unfold IngestWorker.connectSession ChannelSession.connect
  simp only [wp_bind, wp_external, wp_modify, wp_query, wp_whenever, wp_commit, wp_reads]
  refine ⟨fun hok => ⟨fun _ => ⟨fun _ => ⟨fun _ => ?_, fun _ => hu, fun _ => hu⟩, fun _ => ?_⟩,
    fun _ => hu, fun _ => hu⟩, fun _ => hu, fun _ => hu⟩
  · refine ⟨fun hwant => wp_start_within (hu.trans (hmark _ P _)) fun _ _ _ _ => h hok ?_,
      fun _ => hu.trans (hmark _ P _)⟩
    exact hwant.imp id fun h => by simpa using h
  · refine ⟨fun hwant => wp_start_within hu fun _ _ _ _ => h hok ?_, fun _ => hu⟩
    exact hwant.imp id fun h => by simpa using h

/-- **A connect handler** inserts a row when a start is wanted and its session is up, or comes
up. -/
theorem wp_connect_within {cfg : Settings}
    (h : w.db.status c = some .starting ∨ c ∈ w.pendingRecord →
      Opens cfg o 0 c w ∨ (∃ s, w.sessions.lookup c = some s ∧ (w.heap s).isConnected = true) →
        P c) :
    wp o (IngestWorker.handleConnect cfg c) (fun _ _ u' => w.Within P u')
      (fun _ _ u' => w.Within P u') (w.Within P) 0 w := by
  have hw : w.Within P w := frame_within.refl w
  -- What happens once the session is found missing or dead.
  have hopen : ∀ n u, u.db = w.db → u.sessions = w.sessions → u.nextId = w.nextId →
      u.pendingRecord = w.pendingRecord → (w.sessions.keys.length < cfg.workerCapacity →
        w.db.status c ≠ none → o (n + 2) (.connect w.nextId) = .ok → Opens cfg o 0 c w) →
      wp o (do
        let held ← reads fun w => w.sessions.keys.length
        if cfg.workerCapacity ≤ held then do
          let ch ← query fun db => db.status c
          whenever (ch.any (· ∈ [.connecting, .starting])) (commit (Database.setStatus c .error))
        else IngestWorker.openSession c) (fun _ _ u' => w.Within P u')
      (fun _ _ u' => w.Within P u') (w.Within P) n u := by
    intro n u hdb hsess hid hpend hopens
    have hu : w.Within P u := Database.Within.of_eq (congrArg Database.recordings hdb)
    rw [wp_bind, wp_reads, wp_ite]
    refine ⟨fun _ => ?_, fun hcap => ?_⟩
    · simp only [wp_bind, wp_query, wp_whenever, wp_commit]
      exact ⟨fun _ => ⟨fun _ => ⟨fun _ => hu.trans (staged_setStatus c _ P _), fun _ => hu,
        fun _ => hu⟩, fun _ => hu⟩, fun _ => hu, fun _ => hu⟩
    · unfold IngestWorker.openSession channelToConfig ChannelSession.create
      rw [wp_bind, wp_query]
      refine ⟨fun _ => ?_, fun _ => hu, fun _ => hu⟩
      rcases hch : u.db.channels.lookup c with _ | ch
      · exact hu
      · have hst : w.db.status c = some ch.status := by
          rw [← hdb]
          simp [Database.status, hch]
        simp only [wp_bind, wp_external, wp_pure, wp_reads, wp_modify, wp_attempt]
        refine ⟨fun _ => ?_, fun _ => hu, fun _ => hu⟩
        refine wp_mono (wp_connectSession_within hu fun hok hwant => ?_) (fun _ _ _ h => h) ?_
          fun _ h => h
        · have hok' : o (n + 2) (.connect w.nextId) = .ok := by
            rw [← hid]
            exact hok
          have hwant' : w.db.status c = some .starting ∨ c ∈ w.pendingRecord := by
            rcases hwant with hstart | hp
            · rw [hst, of_decide_eq_true hstart]
              exact Or.inl rfl
            · exact Or.inr (hpend ▸ hp)
          refine h hwant' (Or.inl (hopens ?_ (by simp [hst]) hok'))
          rw [← hsess]
          exact not_le.mp hcap
        · intro e n' u' hu'
          unfold IngestWorker.connectFailed
          simp only [wp_bind, wp_query, wp_whenever, wp_commit]
          exact ⟨fun _ => ⟨fun _ => ⟨fun _ => hu'.trans (staged_setStatus c _ P _), fun _ => hu',
            fun _ => hu'⟩, fun _ => hu'⟩, fun _ => hu', fun _ => hu'⟩
  unfold IngestWorker.handleConnect IngestWorker.alreadyConnected
  rw [wp_bind, wp_bind, wp_reads]
  rcases hs : w.sessions.lookup c with _ | s
  · rw [wp_pure, if_neg (by decide)]
    refine hopen 0 w rfl rfl rfl rfl fun hcap hst hok => ⟨hcap, hst, ?_⟩
    rw [hs]
    exact hok
  · dsimp only
    rw [ChannelSession.wp_checkConnected]
    refine ⟨fun _ => ?_, fun hpoll => ?_, fun _ => hw⟩
    · rcases hup : (w.heap s).isConnected with _ | _
      · rw [if_neg (by decide)]
        refine hopen 1 w rfl rfl rfl rfl fun hcap hst hok => ⟨hcap, hst, ?_⟩
        rw [hs]
        exact ⟨Or.inl hup, hok⟩
      · rw [if_pos rfl]
        have hP : c ∈ w.pendingRecord → P c := fun hp => h (Or.inr hp) (Or.inr ⟨s, hs, hup⟩)
        simp only [wp_bind, wp_query, wp_whenever, wp_commit, wp_reads, decide_eq_true_eq]
        refine ⟨fun _ => ⟨fun _ => ⟨fun _ => ⟨fun hp => ?_, fun _ => ?_⟩, fun _ => hw, fun _ => hw⟩,
          fun _ => ⟨fun hp => ?_, fun _ => hw⟩⟩, fun _ => hw, fun _ => hw⟩
        · exact wp_start_within (hw.trans (staged_setStatus c _ P _)) fun _ _ _ _ => hP hp
        · exact hw.trans (staged_setStatus c _ P _)
        · exact wp_start_within hw fun _ _ _ _ => hP hp
    · rw [if_neg (by decide)]
      refine hopen 1 (w.die s) rfl rfl rfl rfl fun hcap hst hok => ⟨hcap, hst, ?_⟩
      rw [hs]
      exact ⟨Or.inr hpoll, hok⟩

end Created

/-! ## One channel -/

section Channel

variable {died : Bool} {fresh : ℕ} {works : Prop} {starts : Prop} {asked : Bool} {v v' : View}

/-- A start that is remembered or waits was asked for, unless the channel is at rest. -/
def View.Current (starts : Prop) (asked : Bool) (v : View) : Prop :=
  v.pending = true ∨ starts ∨ v.status = some .starting → asked = true ∨ resting v.status = true

/-- The statuses of a channel that is off air. -/
theorem resting_iff {st : Option ChannelStatus} :
    resting st = true ↔ st = some .idle ∨ st = some .error := by
  rcases st with _ | st
  · simp [resting]
  · simp [resting]

/-- A write of an error keeps it off air. -/
theorem resting_write (x : Stored) (h : resting x.status = true) :
    resting (x.write .error).status = true := by
  rcases resting_iff.mp h with h | h
  · rw [Stored.status_write, h]
    rfl
  · rw [Stored.status_write, h]
    rfl

/-- It is not starting then. -/
theorem not_starting_of_resting {st : Option ChannelStatus} (h : resting st = true) :
    st ≠ some .starting := by
  rintro rfl
  exact absurd h (by decide)

/-- A guarded write that does not apply to a channel at rest. -/
theorem writeIf_of_resting {x : Stored} {sts : List ChannelStatus} {st : ChannelStatus}
    (h : resting x.status = true) (hidle : .idle ∉ sts) (herror : .error ∉ sts) :
    (x.writeIf sts st).status = x.status := by
  refine if_neg fun hany => ?_
  rcases resting_iff.mp h with h | h
  · rw [h] at hany
    exact hidle (by simpa using hany)
  · rw [h] at hany
    exact herror (by simpa using hany)

/-- A session that is found dead does not change the status. -/
theorem NotUp.status_eq (h : NotUp died v v') : v'.status = v.status := by
  cases h <;> rfl

/-- A connect handler of a channel that wants no start. -/
theorem ConnectStep.unwanted (h : ConnectStep died fresh works v v') (hp : v.pending = false)
    (hst : v.status ≠ some .starting) :
    v'.pending = false ∧ v'.status ≠ some .starting ∧
      (resting v.status = true → resting v'.status = true) := by
  -- The only status the handler writes by itself is `connected`, over `connecting`.
  have hmark : ∀ x : Stored, x.status ≠ some .starting →
      (x.writeIf [.connecting] .connected).status ≠ some .starting := by
    intro x hx
    show (if x.status.any _ = true then _ else x.status) ≠ _
    split
    · simp
    · exact hx
  have hrest : ∀ x : Stored, resting x.status = true →
      resting (x.writeIf [.connecting] .connected).status = true := by
    intro x hx
    rw [writeIf_of_resting hx (by decide) (by decide)]
    exact hx
  cases h with
  | already s x v' hs hup hstart =>
    cases hstart with
    | skipped _ => exact ⟨hp, hmark _ hst, hrest _⟩
    | started v' hwant _ => exact absurd (hp.symm.trans hwant) (by decide)
  | full v₁ hnot =>
    have hst₁ := hnot.status_eq
    refine ⟨hnot.pending_eq.trans hp, ?_, fun h => ?_⟩
    · show (if v₁.status.any _ = true then _ else v₁.status) ≠ _
      rw [hst₁]
      split
      · simp
      · exact hst
    · have h₁ : resting v₁.status = true := hst₁ ▸ h
      show resting (v₁.toStored.writeIf _ _).status = true
      rw [writeIf_of_resting h₁ (by decide) (by decide)]
      exact h₁
  | opens v₁ v' hnot hopen =>
    have hst₁ := hnot.status_eq
    have hp₁ := hnot.pending_eq.trans hp
    rw [← hst₁] at hst ⊢
    cases hopen with
    | unknown _ => exact ⟨hp₁, hst, id⟩
    | failed =>
      refine ⟨hp₁, fun h => ?_, resting_write _⟩
      obtain ⟨_, -, h⟩ := Option.map_eq_some_iff.mp h
      exact absurd h (by decide)
    | opened x v' hw hne hx hx' hstart =>
      cases hstart with
      | skipped _ => exact ⟨hp₁, hmark _ hst, hrest _⟩
      | started v' hwant _ =>
        exact absurd hwant (not_or.mpr ⟨hst, by simp [hp₁]⟩)

/-- A connect handler that finds no session up and opens none leaves a channel at rest. -/
theorem ConnectStep.down (h : ConnectStep died fresh works v v') (hworks : ¬ works)
    (hdown : ∀ s x, v.session = some (s, x) → x.isConnected = false)
    (hrest : resting v.status = true) : resting v'.status = true := by
  cases h with
  | already s x v' hs hup hstart => exact absurd (hup.symm.trans (hdown s x hs)) (by decide)
  | full v₁ hnot =>
    have h₁ : resting v₁.status = true := hnot.status_eq ▸ hrest
    show resting (v₁.toStored.writeIf _ _).status = true
    rw [writeIf_of_resting h₁ (by decide) (by decide)]
    exact h₁
  | opens v₁ v' hnot hopen =>
    have h₁ : resting v₁.status = true := hnot.status_eq ▸ hrest
    cases hopen with
    | unknown _ => exact h₁
    | failed => exact resting_write _ h₁
    | opened x v' hw hne hx hx' hstart => exact absurd hw hworks

/-- Fewer starts, more that was asked for. -/
theorem View.Current.mono {v : View} {starts starts' : Prop} {asked asked' : Bool}
    (h : v.Current starts asked) (hstarts : starts' → starts) (hasked : asked = true →
      asked' = true) : v.Current starts' asked' :=
  fun hwant => (h (hwant.imp id (Or.imp hstarts id))).imp hasked id

/-- A connect that keeps what is remembered. -/
theorem View.Current.connect (h : v.Current starts asked)
    (hstep : ConnectStep died fresh works v v')
    (hcare : v.pending = true → resting v.status = true → ¬ works ∧
      ∀ s x, v.session = some (s, x) → x.isConnected = false) : v'.Current starts asked := by
  intro hwant'
  -- A status of `starting` was asked for.  Otherwise only a remembered start can record, and then
  -- the handler must not be one that `hcare` excludes.
  by_cases hst : v.status = some .starting
  · exact (h (Or.inr (Or.inr hst))).imp id fun hr => absurd hst (not_starting_of_resting hr)
  · rcases hp : v.pending with _ | _
    · obtain ⟨hp', hst', hrest⟩ := hstep.unwanted hp hst
      rcases hwant' with hp'' | hstarts | hst''
      · exact absurd (hp'.symm.trans hp'') (by decide)
      · exact (h (Or.inr (Or.inl hstarts))).imp id hrest
      · exact absurd hst'' hst'
    · refine (h (Or.inl hp)).imp id fun hrest => ?_
      obtain ⟨hworks, hdown⟩ := hcare hp hrest
      exact hstep.down hworks hdown hrest

/-- One op of a drain; a channel at rest with a start has no session that could record. -/
theorem View.Current.handled {op : Op} (h : v.Current starts asked)
    (hstep : OpStep died fresh op v v') (hstarts : op = .start → starts)
    (hcare : op = .start → resting v.status = true → ∀ s x, v.session = some (s, x) →
      x.isConnected = true → x.recording = true) : v'.Current False asked := by
  -- A guarded write that has `starting` among its statuses leaves none.
  have hguard : ∀ (x : Stored) (sts : List ChannelStatus), .starting ∈ sts →
      (x.writeIf sts .idle).status ≠ some .starting := by
    intro x sts hmem hx
    have hx' : (if x.status.any (· ∈ sts) = true then some .idle else x.status) =
      some ChannelStatus.starting := hx
    split at hx'
    · exact absurd hx' (by decide)
    · rename_i hno
      rw [hx'] at hno
      exact hno (by simpa using hmem)
  cases op with
  | disconnect =>
    intro hwant
    cases (hstep : DisconnectStep v v') with
    | absent hs => exact absurd hwant (by simpa using hguard _ _ (by decide))
    | idle s x hs hx => exact absurd hwant (by simpa using hguard _ _ (by decide))
    | finalized s x t hs hx ht => exact absurd hwant (by simpa using hguard _ _ (by decide))
  | stop =>
    intro hwant
    have hmap : ∀ up : Bool, (v.status.map fun _ => if up = true then ChannelStatus.connected
        else .idle) ≠ some .starting := by
      intro up h
      obtain ⟨_, -, h⟩ := Option.map_eq_some_iff.mp h
      cases up <;> exact absurd h (by decide)
    cases (hstep : StopStep died v v') with
    | absent t hs ht => exact absurd hwant (by simpa using hguard _ _ (by decide))
    | finalized s x y t up y' hs hrec ht hy hup hseen =>
      rcases hwant with h | h | h
      · exact absurd h Bool.false_ne_true
      · exact h.elim
      · exact absurd h (hmap up)
    | idle s x up x' hs hrec hid hseen =>
      rcases hwant with h | h | h
      · exact absurd h Bool.false_ne_true
      · exact h.elim
      · exact absurd h (hmap up)
  | start =>
    intro _
    refine (h (Or.inr (Or.inl (hstarts rfl)))).imp id fun hrest => ?_
    have hrec := hcare rfl hrest
    cases (hstep : StartStep died fresh v v') with
    | absent hs => exact hrest
    | dead s x x' hs hseen => exact hrest
    | already s x hs hup hx => exact hrest
    | opened s x y hs hup hx hy hy' =>
      exact absurd (hx.symm.trans (hrec s x hs hup)) (by decide)
    | failed s x y up y' hs hup hx hy hd hseen =>
      exact absurd (hx.symm.trans (hrec s x hs hup)) (by decide)

/-- A heartbeat remembers everything. -/
theorem View.Current.beat (h : v.Current starts asked) (hstep : HeartbeatStep v v') :
    v'.Current starts asked := by
  cases hstep with
  | absent hs => exact h
  | up s x hs hup => exact h
  | dead s x t hs ht =>
    intro hwant
    -- The status of a dead session's channel goes to error, so the channel is at rest, or it stays.
    by_cases hany : v.status.any (· ∈ activeStatuses) = true
    · right
      show resting (if v.status.any (· ∈ activeStatuses) = true then _ else v.status) = true
      rw [if_pos hany]
      rfl
    · have hsame : (v.toStored.writeIf activeStatuses .error).status = v.status := if_neg hany
      have hnot : v.status ≠ some .starting := by
        intro hst
        rw [hst] at hany
        exact hany (by decide)
      rcases hwant with h' | hstarts | hst
      · exact absurd h' Bool.false_ne_true
      · refine (h (Or.inr (Or.inl hstarts))).imp id fun hr => ?_
        show resting (v.toStored.writeIf activeStatuses .error).status = true
        rw [hsame]
        exact hr
      · have hst' : (v.toStored.writeIf activeStatuses .error).status = some .starting := hst
        exact absurd (hsame.symm.trans hst') hnot

end Channel

/-- When the drain runs a start, a start waits and no disconnect does. -/
theorem start_of_resolved {w : World} {c : ChannelId} (hjob : w.HasJob c)
    (h : w.resolved c = .start) : c ∉ w.queued .disconnect ∧ c ∈ w.queued .recordStart := by
  unfold World.resolved at h
  by_cases hdis : c ∈ w.queued .disconnect
  · rw [if_pos hdis] at h
    exact absurd h (by decide)
  · refine ⟨hdis, ?_⟩
    rw [if_neg hdis] at h
    by_cases hboth : c ∈ w.queued .recordStop ∧ c ∈ w.queued .recordStart
    · exact hboth.2
    · rw [if_neg hboth] at h
      by_cases hstop : c ∈ w.queued .recordStop
      · rw [if_pos hstop] at h
        exact absurd h (by decide)
      · exact (hjob.resolve_left hdis).resolve_left hstop

/-! ## The whole farm -/

/-- A farm, and for each channel whether a record start was accepted since it was last at rest. -/
structure Watched where
  system : System
  asked : ChannelId → Bool

namespace Watched

/-- The step is an accepted record start of the channel. -/
def starts (S : System) (c : ChannelId) : System.Action → Bool
  | .request .startRecording d =>
    d = c && (S.world.db.status c).any fun st => Request.startRecording.accepts st
  | _ => false

/-- A step of the farm; a channel at rest forgets what it was asked. -/
def step (cfg : Settings) (W : Watched) (a : System.Action) : Option Watched :=
  (W.system.step cfg a).map fun S' =>
    ⟨S', fun c => !resting (S'.world.db.status c) && (W.asked c || starts W.system c a)⟩

/-- A channel at rest with a forgotten start is connected again, comes up, or has a record start
handled on a session that it has all the same. -/
def Revives (cfg : Settings) (S : System) : System.Action → Prop
  | .request .connect c => resting (S.world.db.status c) = true ∧
      (c ∈ S.world.pendingRecord ∨ c ∈ S.world.queued .recordStart)
  | .idleConnect o => ∃ job rest c, S.idle = job :: rest ∧ job.channel = some c ∧
      resting (S.world.db.status c) = true ∧ c ∈ S.world.pendingRecord ∧
        (Opens cfg o.1 0 c S.world ∨
          ∃ s, S.world.sessions.lookup c = some s ∧ (S.world.heap s).isConnected = true)
  | .drain _ => ∃ c s, resting (S.world.db.status c) = true ∧ c ∈ S.world.queued .recordStart ∧
      c ∉ S.world.queued .disconnect ∧ S.world.sessions.lookup c = some s ∧
        (S.world.heap s).isConnected = true ∧ (S.world.heap s).recording = false
  | _ => False

/-- What holds in every state. -/
structure Current (W : Watched) : Prop where
  books : W.system.Books
  channels : ∀ c, (W.system.world.view c).Current (c ∈ W.system.world.queued .recordStart)
    (W.asked c)

section Steps

variable {cfg : Settings} {W W' : Watched} {S' : System} {a : System.Action}

/-- **Every row that a step inserts was asked for.** -/
theorem within_step (h : W.Current) (hcare : ¬ Revives cfg W.system a)
    (hstep : W.system.step cfg a = some S') :
    W.system.world.Within (fun c => W.asked c = true) S'.world := by
  have hrefl := frame_within (P := fun c => W.asked c = true) |>.refl W.system.world
  cases a with
  | request r c =>
    obtain ⟨-, rfl | ⟨st, hst, hacc, rfl⟩⟩ := System.request_eq hstep
    · exact hrefl
    · show W.system.world.db.Within _ (r.outcome c st W.system.world).db
      rw [outcome_eq]
      exact staged_setStatus c _ _ _
  | popConnect =>
    obtain ⟨c, job, rest, hlist, hc, rfl⟩ := System.popConnect_eq h.books hstep
    exact hrefl
  | idleConnect o =>
    unfold System.step at hstep
    dsimp only at hstep
    rcases hidle : W.system.idle with _ | ⟨job, rest⟩
    · rw [hidle] at hstep
      exact absurd hstep (by simp)
    · rw [hidle] at hstep
      obtain rfl := Option.some.inj hstep
      obtain ⟨c, hc⟩ := h.books.idle job (by rw [hidle]; exact List.mem_cons_self)
      refine final_of_wp (P := W.system.world.Within fun c => W.asked c = true) ?_
      unfold IngestWorker.idleConnect
      rw [wp_attempt, wp_bind]
      apply wp_jobField_of_channel hc
      -- The handler records only for a start that is wanted; a forgotten one would be revived.
      refine wp_mono (@wp_connect_within o.1 _ c _ cfg fun hwant hup => ?_) (fun _ _ _ h => h)
        (fun _ _ _ h => h) fun _ h => h
      have hview := h.channels c
      rcases hwant with hst | hp
      · have hst' : (W.system.world.view c).status = some .starting := hst
        refine (hview (Or.inr (Or.inr hst'))).resolve_right fun hr => ?_
        exact absurd hst' (not_starting_of_resting hr)
      · have hp' : (W.system.world.view c).pending = true := by simpa using hp
        refine (hview (Or.inl hp')).resolve_right fun hr => ?_
        exact hcare ⟨job, rest, c, hidle, hc, hr, hp, hup⟩
  | heartbeat o =>
    obtain rfl := Option.some.inj hstep
    exact (IngestWorker.keeps_heartbeat cfg).final
  | drain o =>
    obtain rfl := Option.some.inj hstep
    refine (System.drain_eq (J := W.system.world.Within fun c => W.asked c = true) o h.books hrefl
      (fun _ _ _ h => h) fun c n u _ hu hjob hview => ?_).inv
    cases hres : W.system.world.resolved c with
    | disconnect =>
      exact wp_mono ((IngestWorker.keeps_handleDisconnect c).from_ frame_within hu)
        (fun _ _ _ h => h.1) (fun _ _ _ h => h) fun _ h => h
    | stop =>
      exact wp_mono ((IngestWorker.keeps_handleRecordStop c).from_ frame_within hu)
        (fun _ _ _ h => h.1) (fun _ _ _ h => h) fun _ h => h
    | start =>
      -- A start that inserts finds a session that is up and idle.
      refine wp_start_within hu fun s hs hup hrec => ?_
      obtain ⟨hdis, hqueued⟩ := start_of_resolved hjob hres
      refine (h.channels c (Or.inr (Or.inl hqueued))).resolve_right fun hr => ?_
      have hsession : (W.system.world.view c).session = some (s, u.heap s) := by
        rw [← hview]
        simp [hs]
      obtain ⟨s', hs', heq⟩ := Option.map_eq_some_iff.mp hsession
      obtain ⟨rfl, hheap⟩ := Prod.mk.inj heq
      rw [← hheap] at hup hrec
      exact hcare ⟨c, s', hr, hqueued, hdis, hs', hup, hrec⟩
  | die s =>
    obtain rfl := Option.some.inj hstep
    exact hrefl

/-- A step that keeps the promise with what was asked before keeps it with what is asked then. -/
theorem current_of {v : View} {starts : Prop} {asked start : Bool}
    (h : v.Current starts (asked || start)) :
    v.Current starts (!resting v.status && (asked || start)) := by
  intro hwant
  rcases hr : resting v.status with _ | _
  · exact Or.inl ((h hwant).resolve_right (by simp [hr]))
  · exact Or.inr rfl

/-- Only a request to record starts anything. -/
theorem starts_eq_false {S : System} {d : ChannelId} (ha : ∀ c, a ≠ .request .startRecording c) :
    starts S d a = false := by
  cases a with
  | request r c =>
    cases r with
    | startRecording => exact absurd rfl (ha c)
    | _ => rfl
  | _ => rfl

/-- A request. -/
theorem current_request (h : W.Current) {r : Request} {c : ChannelId}
    (hcare : ¬ Revives cfg W.system (.request r c)) (hstep : W.system.request r c = some S')
    (d : ChannelId) : (S'.world.view d).Current (d ∈ S'.world.queued .recordStart)
      (W.asked d || starts W.system d (.request r c)) := by
  have hd := h.channels d
  obtain ⟨hid, rfl | ⟨st, hst, hacc, rfl⟩⟩ := System.request_eq hstep
  · exact hd.mono id fun h => by simp [h]
  · have hjobs : d ∈ (r.outcome c st W.system.world).queued .recordStart →
        d ∈ W.system.world.queued .recordStart ∨ d = c ∧ .recordStart ∈ r.jobs st := by
      intro hq
      rw [queued_outcome hid, List.mem_append] at hq
      refine hq.imp id fun hq => ?_
      split at hq
      · exact ⟨List.mem_singleton.mp hq, ‹_›⟩
      · exact absurd hq List.not_mem_nil
    rw [view_outcome]
    by_cases hdc : d = c
    · subst hdc
      rw [if_pos rfl]
      have hst' : (W.system.world.view d).status = some st := hst
      -- Before the request the channel was at rest, or what it waits for was asked for.
      have hold : (W.system.world.view d).pending = true ∨
          d ∈ W.system.world.queued .recordStart → W.asked d = true ∨ resting (some st) = true := by
        rw [← hst']
        exact fun hwant => hd (hwant.imp id Or.inl)
      have hgone : r ≠ .startRecording → (W.system.world.view d).pending = true ∨
          d ∈ W.system.world.queued .recordStart → resting (some st) = false →
            (W.asked d || starts W.system d (.request r d)) = true := by
        intro hr hwant hno
        rw [(hold hwant).resolve_right (by simp [hno])]
        rfl
      intro hwant
      have hwant' : (W.system.world.view d).pending = true ∨
          (d ∈ W.system.world.queued .recordStart ∨ d = d ∧ .recordStart ∈ r.jobs st) ∨
            r.intent st = .starting := by
        refine hwant.imp id (Or.imp hjobs fun hs => ?_)
        have hs' : (W.system.world.db.status d).map (fun _ => r.intent st) = some .starting := hs
        rw [hst] at hs'
        exact Option.some.inj hs'
      left
      cases r with
      | connect =>
        have hrest : resting (W.system.world.db.status d) = true := by
          rw [hst]
          cases st <;> first
            | rfl
            | exact absurd hacc (by decide)
        rcases hwant' with hp | (hq | ⟨-, hq⟩) | hs
        · exact absurd ⟨hrest, Or.inl (by simpa using hp)⟩ hcare
        · exact absurd ⟨hrest, Or.inr hq⟩ hcare
        · exact absurd hq (by simp [Request.jobs])
        · exact absurd hs (by simp [Request.intent])
      | disconnect =>
        have hno : resting (some st) = false := by
          cases st <;> first
            | rfl
            | exact absurd hacc (by decide)
        rcases hwant' with hp | (hq | ⟨-, hq⟩) | hs
        · exact hgone (by decide) (Or.inl hp) hno
        · exact hgone (by decide) (Or.inr hq) hno
        · exact absurd hq (by simp [Request.jobs])
        · exact absurd hs (by simp [Request.intent])
      | stopRecording =>
        have hno : resting (some st) = false := by
          cases st <;> first
            | rfl
            | exact absurd hacc (by decide)
        rcases hwant' with hp | (hq | ⟨-, hq⟩) | hs
        · exact hgone (by decide) (Or.inl hp) hno
        · exact hgone (by decide) (Or.inr hq) hno
        · exact absurd hq (by simp [Request.jobs])
        · exact absurd hs (by simp [Request.intent])
      | startRecording =>
        have hstarts : starts W.system d (.request .startRecording d) = true := by
          unfold starts
          rw [hst]
          simpa using hacc
        rw [hstarts, Bool.or_true]
    · rw [if_neg hdc]
      refine hd.mono (fun hq => ?_) fun h => by simp [h]
      exact (hjobs hq).resolve_right fun h => hdc h.1

/-- **One step keeps every promise.** -/
theorem current_step (h : W.Current) (hcare : ¬ Revives cfg W.system a)
    (hstep : step cfg W a = some W') : W'.Current := by
  obtain ⟨S', hS', rfl⟩ := Option.map_eq_some_iff.mp hstep
  -- Steps other than requests ask for nothing.
  have hquiet : (∀ c, a ≠ .request .startRecording c) → (∀ d, (S'.world.view d).Current
      (d ∈ S'.world.queued .recordStart) (W.asked d)) → ∀ d, (S'.world.view d).Current
        (d ∈ S'.world.queued .recordStart) (W.asked d || starts W.system d a) := by
    intro ha hd d
    rw [starts_eq_false ha, Bool.or_false]
    exact hd d
  have hmem : ∀ {w w' : World} {q : Queue} {d : ChannelId}, w'.lists q = w.lists q →
      d ∈ w'.queued q → d ∈ w.queued q := fun hl hd => System.mem_queued hl.symm hd
  suffices hchannels : S'.Books ∧ ∀ d, (S'.world.view d).Current
      (d ∈ S'.world.queued .recordStart) (W.asked d || starts W.system d a) from
    ⟨hchannels.1, fun d => current_of (hchannels.2 d)⟩
  refine ⟨System.books_step h.books hS', ?_⟩
  cases a with
  | request r c => exact current_request h hcare hS'
  | popConnect =>
    refine hquiet (by simp) fun d => ?_
    obtain ⟨c, job, rest, hlist, hc, rfl⟩ := System.popConnect_eq h.books hS'
    refine (h.channels d).mono (hmem ?_) id
    rw [World.setList_lists, Function.update_of_ne (by decide)]
  | idleConnect o =>
    refine hquiet (by simp) fun d => ?_
    unfold System.step at hS'
    dsimp only at hS'
    rcases hidle : W.system.idle with _ | ⟨job, rest⟩
    · rw [hidle] at hS'
      exact absurd hS' (by simp)
    · rw [hidle] at hS'
      obtain rfl := Option.some.inj hS'
      obtain ⟨c, hc⟩ := h.books.idle job (by rw [hidle]; exact List.mem_cons_self)
      obtain ⟨hlocal, hconnect⟩ := @System.idleConnect_eq cfg _ o _ _ h.books.sound hc
      refine View.Current.mono ?_ (hmem (hlocal.jobs .recordStart rfl)) id
      by_cases hd : d = c
      · subst hd
        refine (h.channels d).connect hconnect fun hp hr => ?_
        have hp' : d ∈ W.system.world.pendingRecord := by simpa using hp
        refine ⟨fun hopens => hcare ⟨job, rest, d, hidle, hc, hr, hp', Or.inl hopens⟩,
          fun s x hs => Bool.of_not_eq_true fun hup => ?_⟩
        obtain ⟨s', hs', heq⟩ := Option.map_eq_some_iff.mp hs
        obtain ⟨rfl, rfl⟩ := Prod.mk.inj heq
        exact hcare ⟨job, rest, d, hidle, hc, hr, hp', Or.inr ⟨s', hs', hup⟩⟩
      · rw [hlocal.views h.books.sound d hd]
        exact h.channels d
  | heartbeat o =>
    refine hquiet (by simp) fun d => ?_
    obtain rfl := Option.some.inj hS'
    have hbeat := System.heartbeat_eq cfg o h.books.sound
    exact ((h.channels d).beat (hbeat.views d)).mono (hmem (hbeat.jobs .recordStart rfl)) id
  | drain o =>
    refine hquiet (by simp) fun d => ?_
    obtain rfl := Option.some.inj hS'
    have hdrain := System.drain_eq (J := fun _ => True) o h.books trivial (fun _ _ _ h => h)
      fun c n u _ _ _ _ => wp_true _ n u
    -- A drain empties the list of starts.
    have hnone : ∀ {Q : Prop}, d ∈ (final o.1 (IngestWorker.drainControlQueues
        IngestWorker.handlers) W.system.world).queued .recordStart → Q := by
      intro Q hd
      unfold World.queued at hd
      rw [hdrain.empty .recordStart (by decide)] at hd
      exact absurd hd List.not_mem_nil
    by_cases hjob : W.system.world.HasJob d
    · obtain ⟨fresh, -, hstep⟩ := hdrain.acted d hjob
      suffices hdone : View.Current False (W.asked d) ((final o.1 (IngestWorker.drainControlQueues
          IngestWorker.handlers) W.system.world).view d) from hdone.mono hnone id
      refine (h.channels d).handled hstep (fun hres => (start_of_resolved hjob hres).2)
        fun hres hr s x hs hup => Bool.of_not_eq_false fun hrec => ?_
      obtain ⟨hdis, hqueued⟩ := start_of_resolved hjob hres
      obtain ⟨s', hs', heq⟩ := Option.map_eq_some_iff.mp hs
      obtain ⟨rfl, rfl⟩ := Prod.mk.inj heq
      exact hcare ⟨d, s', hr, hqueued, hdis, hs', hup, hrec⟩
    · show View.Current _ _ ((final o.1 (IngestWorker.drainControlQueues
        IngestWorker.handlers) W.system.world).view d)
      rw [hdrain.untouched d hjob]
      exact (h.channels d).mono hnone id
  | die s =>
    refine hquiet (by simp) fun d => ?_
    obtain rfl := Option.some.inj hS'
    exact h.channels d

/-- **In every run that revives no forgotten start, a row is inserted only for a channel that was
asked to record since it was last idle or in error.** -/
theorem rows_requested_along {W'' : Watched} {as : List System.Action} (hW : W.system.Quiet)
    (hcare : Runs.Along (fun W a => ¬ Revives cfg W.system a) (step cfg) W as)
    (hrun : Runs.run (step cfg) W as = some W') (hlast : ¬ Revives cfg W'.system a)
    (hstep : step cfg W' a = some W'') (r : RecordingId) (row : Recording)
    (hrow : W''.system.world.db.recordings.lookup r = some row)
    (hnew : W'.system.world.db.recordings.lookup r = none) :
    W'.asked row.channelId = true := by
  -- At the beginning nothing is remembered, queued or starting.
  have hbegin : W.Current := by
    refine ⟨System.books_of_quiet hW, fun c hwant => ?_⟩
    rcases hwant with hp | hq | hs
    · have hp' : c ∈ W.system.world.pendingRecord := by simpa using hp
      rw [hW.pending] at hp'
      exact absurd hp' (Finset.notMem_empty c)
    · unfold World.queued at hq
      rw [hW.lists] at hq
      exact absurd hq List.not_mem_nil
    · refine absurd ?_ (hW.inactive c)
      show (W.system.world.view c).status.any (· ∈ activeStatuses) = true
      rw [hs]
      rfl
  -- The invariant holds before the last step, and the last step inserts what was asked for.
  have hcurrent := Runs.run_invariant (I := Current)
    (fun _ _ _ h hok hstep => current_step h hok hstep) as W W' hbegin hcare hrun
  obtain ⟨S'', hS'', rfl⟩ := Option.map_eq_some_iff.mp hstep
  rcases within_step hcurrent hlast hS'' r row hrow with ⟨row', hrow', -⟩ | hasked
  · exact absurd (hrow'.symm.trans hnew) (by simp)
  · exact hasked

end Steps

/-- The environment in which the session with this id cannot connect. -/
def unreachable (s : SessionId) : Environment :=
  ⟨fun _ k => if k = .connect s then .fail else .ok, by
    intro n k
    dsimp only
    split
    · rename_i hk
      rw [hk]
      exact ⟨by decide, fun _ => rfl⟩
    · exact ⟨by decide, fun h => absurd h (by decide)⟩⟩

/-- A record start connects the channel first, and its session cannot connect; a plain connect
later records. -/
theorem forgotten_start_records :
    ¬ ∀ (cfg : Settings) (W W' W'' : Watched) (as : List System.Action) (a : System.Action),
      W.system.Quiet → Runs.run (step cfg) W as = some W' → step cfg W' a = some W'' →
        ∀ r row, W''.system.world.db.recordings.lookup r = some row →
          W'.system.world.db.recordings.lookup r = none → W'.asked row.channelId = true := by
  intro h
  have hasked := h ⟨"worker", 8⟩ ⟨System.foyer, fun _ => false⟩ _ _
    [.request .startRecording (.str "lobby"), .heartbeat .good, .drain .good, .popConnect,
      .idleConnect (unreachable 0), .request .connect (.str "lobby"), .popConnect]
    (.idleConnect .good) System.quiet_foyer rfl rfl 2 _ rfl rfl
  exact absurd hasked (by decide)

/-- The start of a channel that is connected first. -/
theorem rows_requested_along_foyer :
    ∃ W', Runs.run (step ⟨"worker", 8⟩) ⟨System.foyer, fun _ => false⟩
      [.request .startRecording (.str "lobby"), .popConnect, .idleConnect .good] = some W' ∧
        W'.asked (.str "lobby") = true := by
  refine ⟨_, rfl, @rows_requested_along ⟨"worker", 8⟩ ⟨System.foyer, fun _ => false⟩ _
    (.drain .good) _ [.request .startRecording (.str "lobby"), .popConnect, .idleConnect .good]
    System.quiet_foyer ?_ rfl ?_ rfl 1 _ rfl rfl⟩
  · refine Runs.along_cons (fun h => h) rfl (Runs.along_cons (fun h => h) rfl
      (Runs.along_cons ?_ rfl trivial))
    rintro ⟨job, rest, c, hidle, hc, -, hp, -⟩
    exact absurd hp (Finset.notMem_empty c)
  · -- After the callback the channel is connected, and no other channel has a job.
    rintro ⟨c, s, hrest, hq, -⟩
    have hq' : c ∈ [ChannelId.str "lobby"] := hq
    rw [List.mem_singleton.mp hq'] at hrest
    exact absurd hrest (by decide)

end Watched
