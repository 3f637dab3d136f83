/-
# What a failing tick loses

`_drain_control_queues` pops the jobs of all channels before it handles the first.  When a pop
raises, what was popped before it is lost, and when a handler raises, so is what was popped for
the channels after it.  `AllApplied` judges a tick by what it popped and handled, `Undisturbed`
says when nothing is lost, from the lists, the pops that raise and the handler calls that raise.

The proof goes backwards from the trace.  `Followed` lists the ways in which a tick can end: a pop
has raised, a handler has, or all were called and the resets were applied up to some id.  For each
of them the trace is known, and `AllApplied` becomes a condition on the batch
(`allApplied_iff_tail`), which is compared with `Undisturbed` case by case.
-/
import IngestFarm.Popping
import IngestFarm.Batches

open Prog

/-! ## Handlers -/

/-- The op that `_resolve_ops` leaves of a channel's ops. -/
def choice (st : Option ChannelStatus) (ops : List Op) : Op :=
  if .disconnect ∈ ops then .disconnect
  else if .start ∈ ops ∧ .stop ∈ ops then if st = some .stopping then .stop else .start
  else if .stop ∈ ops then .stop
  else .start

/-- The choice is one of the operations. -/
theorem choice_mem (st : Option ChannelStatus) {ops : List Op} (h : ops ≠ []) :
    choice st ops ∈ ops := by
  unfold choice
  split
  · assumption
  · rename_i hdis
    split
    · rename_i hboth
      split
      · exact hboth.2
      · exact hboth.1
    · split
      · assumption
      · rename_i hstop
        obtain ⟨op, hop⟩ := List.exists_mem_of_ne_nil ops h
        cases op with
        | disconnect => exact absurd hop hdis
        | stop => exact absurd hop hstop
        | start => exact hop

/-- The handler calls of a tick on `w`: those of `raises` raise, and each is about its channel. -/
def Calls (o : Oracle Call) (w : World) (handlers : Op → ChannelId → Handler Unit)
    (raises : Op → ChannelId → Prop) : Prop :=
  ∀ op c n u, Sound u → u.view c = w.view c →
    wp o (handlers op c) (fun _ _ u' => Local c u u' ∧ ¬ raises op c)
      (fun _ _ u' => Local c u u' ∧ raises op c) (fun _ => False) n u

section Apply

variable {o : Oracle Call} {n : ℕ} {w u : World} {handlers : Op → ChannelId → Handler Unit}
  {raises : Op → ChannelId → Prop}

@[simp] theorem log_note_work {e : Event} (he : e.isWork = true) :
    (u.note e).log = u.log ++ [e] := by
  simp [World.log, he]

/-- **Resolution**, of any ops. -/
theorem wp_resolveOps_choice {Q : List Op → ℕ → World → Prop} {E : PyError → ℕ → World → Prop}
    {C : World → Prop} (hdb : ∀ n, o n .dbQuery = .ok) {c : ChannelId} {ops : List Op}
    (hne : ops ≠ []) (hnodup : ops.Nodup)
    (hQ : ∀ n', Q [choice (u.db.status c) ops] n' u) :
    wp o (IngestWorker.resolveOps c ops) Q E C n u := by
  have hmem := choice_mem (u.db.status c) hne
  unfold IngestWorker.resolveOps
  rw [wp_ite, wp_ite]
  -- A disconnect wins; a start and a stop ask for the status; any other list has one op.
  refine ⟨fun hdis => ?_, fun hdis => ⟨fun hboth => ?_, fun hboth => ?_⟩⟩
  · have hpick : choice (u.db.status c) ops = .disconnect := if_pos hdis
    rw [wp_pure, ← hpick]
    exact hQ n
  · have hpick : choice (u.db.status c) ops =
        if u.db.status c = some .stopping then .stop else .start :=
      (if_neg hdis).trans (if_pos hboth)
    rw [wp_bind, wp_query, hdb]
    refine ⟨fun _ => ?_, fun h => absurd h (by decide), fun h => absurd h (by decide)⟩
    rw [wp_pure, ← hpick]
    exact hQ _
  · have hother : ∀ op ∈ ops, op = .stop ∨ op = .start := by
      intro op hop
      cases op with
      | disconnect => exact absurd hop hdis
      | stop => exact Or.inl rfl
      | start => exact Or.inr rfl
    have hone : ops = [choice (u.db.status c) ops] := by
      refine eq_singleton_of_nodup hnodup hmem fun op hop => ?_
      rcases hother op hop with rfl | rfl <;> rcases hother _ hmem with hpick | hpick <;>
        rw [hpick] at hmem ⊢
      · exact absurd ⟨hmem, hop⟩ hboth
      · exact absurd ⟨hop, hmem⟩ hboth
    rw [wp_pure]
    have hops := hQ n
    rwa [← hone] at hops

/-- What is noted of the channels whose handlers are called. -/
def calledFor (pick : ChannelId → Op) (cs : List ChannelId) : List Event :=
  cs.map fun c => .handled (pick c) c

/-- **The op of one channel.** -/
theorem wp_applyOps_call (hdb : ∀ n, o n .dbQuery = .ok) (h : Calls o w handlers raises)
    {e : Sigma fun _ : ChannelId => List Op} (hne : e.2 ≠ []) (hnodup : e.2.Nodup)
    (hsound : Sound u) (hview : u.view e.1 = w.view e.1) (disc : Finset ChannelId) {op : Op}
    (hop : choice (w.db.status e.1) e.2 = op) :
    wp o (IngestWorker.applyOps handlers disc e)
      (fun disc' _ u' => ¬ raises op e.1 ∧
        disc' = (if op = .disconnect then insert e.1 disc else disc) ∧
        Local e.1 (u.note (.handled op e.1)) u')
      (fun _ _ u' => raises op e.1 ∧ Local e.1 (u.note (.handled op e.1)) u')
      (fun _ => False) n u := by
  have hstatus : u.db.status e.1 = w.db.status e.1 := congrArg (fun v => v.status) hview
  have hnote : Sound (u.note (.handled op e.1)) :=
    ⟨hsound.distinct, hsound.sessions_lt, hsound.rows_lt, hsound.known⟩
  unfold IngestWorker.applyOps
  rw [wp_bind]
  refine wp_resolveOps_choice hdb hne hnodup fun n₁ => ?_
  rw [hstatus, hop]
  unfold fold IngestWorker.dispatch
  rw [wp_bind, wp_bind, wp_modify, wp_bind]
  refine wp_mono (h op e.1 n₁ _ hnote hview) ?_ ?_ fun _ h => h
  · exact fun _ _ u' hu' => ⟨hu'.2, rfl, hu'.1⟩
  · exact fun _ _ u' hu' => ⟨hu'.2, hu'.1⟩

/-- **The handlers of a tick**, up to the first that raises. -/
theorem wp_applyOps_calls (hdb : ∀ n, o n .dbQuery = .ok) (h : Calls o w handlers raises)
    {pick : ChannelId → Op} :
    ∀ (rest : List (Sigma fun _ : ChannelId => List Op)) (disc : Finset ChannelId) (n : ℕ)
      (u : World), Sound u → rest.NodupKeys →
      (∀ e ∈ rest, e.2 ≠ [] ∧ e.2.Nodup ∧ choice (w.db.status e.1) e.2 = pick e.1) →
      (∀ c ∈ rest.keys, u.view c = w.view c) →
      wp o (fold (IngestWorker.applyOps handlers) rest disc)
        (fun disc' _ u' => (∀ c ∈ rest.keys, ¬ raises (pick c) c) ∧
          (∀ d, d ∈ disc' ↔ d ∈ disc ∨ (d ∈ rest.keys ∧ pick d = .disconnect)) ∧
          u'.log = u.log ++ calledFor pick rest.keys)
        (fun _ _ u' => ∃ pre c post, rest.keys = pre ++ c :: post ∧
          (∀ d ∈ pre, ¬ raises (pick d) d) ∧ raises (pick c) c ∧
          u'.log = u.log ++ calledFor pick (pre ++ [c]))
        (fun _ => False) n u := by
  intro rest
  -- By induction on the channels still to come; a handler changes no view but its own channel's.
  induction rest with
  | nil =>
    intro disc n u _ _ _ _
    refine ⟨fun c hc => absurd hc List.not_mem_nil, fun d => by simp, ?_⟩
    simp [calledFor]
  | cons e rest ih =>
    intro disc n u hsound hnodup hpick hviews
    obtain ⟨hnot, hnodup'⟩ := List.nodupKeys_cons.mp hnodup
    obtain ⟨hne, hops, hchoice⟩ := hpick e List.mem_cons_self
    have hnote : Sound (u.note (.handled (pick e.1) e.1)) :=
      ⟨hsound.distinct, hsound.sessions_lt, hsound.rows_lt, hsound.known⟩
    rw [fold, wp_bind]
    refine wp_mono (wp_applyOps_call hdb h hne hops hsound (hviews e.1 (by simp)) disc hchoice)
      ?_ ?_ fun _ h => h
    · rintro _ n₂ u₂ ⟨hok, rfl, hlocal⟩
      have hlog : u₂.log = u.log ++ [.handled (pick e.1) e.1] :=
        hlocal.log.trans (log_note_work rfl)
      have hviews' : ∀ c ∈ rest.keys, u₂.view c = w.view c := by
        intro c hc
        have hce : c ≠ e.1 := by
          rintro rfl
          exact hnot hc
        exact (hlocal.views hnote c hce).trans (hviews c (List.mem_cons_of_mem _ hc))
      refine wp_mono (ih _ n₂ u₂ (hlocal.sound hnote) hnodup'
        (fun e' he' => hpick e' (List.mem_cons_of_mem _ he')) hviews') ?_ ?_ fun _ h => h
      · rintro disc' _ u' ⟨hrest, hdisc, hlog'⟩
        refine ⟨fun c hc => ?_, fun d => ?_, ?_⟩
        · rcases List.mem_cons.mp hc with rfl | hc
          · exact hok
          · exact hrest c hc
        · rw [hdisc, List.keys_cons, List.mem_cons]
          by_cases hdis : pick e.1 = .disconnect
          · rw [if_pos hdis, Finset.mem_insert]
            constructor
            · rintro ((rfl | hd) | hd)
              · exact Or.inr ⟨Or.inl rfl, hdis⟩
              · exact Or.inl hd
              · exact Or.inr ⟨Or.inr hd.1, hd.2⟩
            · rintro (hd | ⟨rfl | hd, hp⟩)
              · exact Or.inl (Or.inr hd)
              · exact Or.inl (Or.inl rfl)
              · exact Or.inr ⟨hd, hp⟩
          · rw [if_neg hdis]
            constructor
            · rintro (hd | hd)
              · exact Or.inl hd
              · exact Or.inr ⟨Or.inr hd.1, hd.2⟩
            · rintro (hd | ⟨rfl | hd, hp⟩)
              · exact Or.inl hd
              · exact absurd hp hdis
              · exact Or.inr ⟨hd, hp⟩
        · rw [hlog', hlog, List.keys_cons, List.append_assoc]
          rfl
      · rintro _ _ u' ⟨pre, c, post, hkeys, hpre, hc, hlog'⟩
        refine ⟨e.1 :: pre, c, post, by rw [List.keys_cons, hkeys]; rfl, fun d hd => ?_, hc, ?_⟩
        · rcases List.mem_cons.mp hd with rfl | hd
          · exact hok
          · exact hpre d hd
        · rw [hlog', hlog, List.append_assoc]
          rfl
    · rintro _ n₂ u₂ ⟨hraise, hlocal⟩
      refine ⟨[], e.1, rest.keys, by simp, fun d hd => absurd hd List.not_mem_nil, hraise, ?_⟩
      exact hlocal.log.trans (log_note_work rfl)

/-- What is noted of the resets that are applied. -/
def resetFor (disc : ChannelId → Prop) [DecidablePred disc] (ids : List Json) : List Event :=
  ((ids.filterMap Json.toKey).filter fun c => ¬ disc c).map .reset

/-- **The resets of a tick**, up to the first id that cannot be looked up. -/
theorem wp_applyResets (hlive : ¬ MayCrash o) (disc : Finset ChannelId) :
    ∀ (ids : List Json) (n : ℕ) (u : World),
      wp o (each (IngestWorker.applyReset disc) ids)
        (fun _ _ u' => (∀ id ∈ ids, id.toKey ≠ none) ∧ u'.log = u.log ++ resetFor (· ∈ disc) ids)
        (fun _ _ u' => ∃ pre id post, ids = pre ++ id :: post ∧ (∀ id ∈ pre, id.toKey ≠ none) ∧
          id.toKey = none ∧ u'.log = u.log ++ resetFor (· ∈ disc) pre)
        (fun _ => False) n u := by
  intro ids
  induction ids with
  | nil =>
    intro n u
    refine ⟨fun id hid => absurd hid List.not_mem_nil, ?_⟩
    simp [resetFor]
  | cons id ids ih =>
    intro n u
    unfold each IngestWorker.applyReset
    rw [wp_bind]
    cases hkey : id.toKey with
    | none =>
      refine ⟨[], id, ids, rfl, fun id hid => absurd hid List.not_mem_nil, hkey, ?_⟩
      simp [resetFor]
    | some c =>
      -- The others, once this one is done.
      have hrest : ∀ n' u', u'.log = u.log ++ resetFor (· ∈ disc) [id] →
          wp o (each (IngestWorker.applyReset disc) ids)
            (fun _ _ u' => (∀ i ∈ id :: ids, i.toKey ≠ none) ∧
              u'.log = u.log ++ resetFor (· ∈ disc) (id :: ids))
            (fun _ _ u' => ∃ pre i post, id :: ids = pre ++ i :: post ∧
              (∀ i ∈ pre, i.toKey ≠ none) ∧ i.toKey = none ∧
              u'.log = u.log ++ resetFor (· ∈ disc) pre)
            (fun _ => False) n' u' := by
        intro n' u' hlog
        have happend : ∀ l, resetFor (· ∈ disc) (id :: l) =
            resetFor (· ∈ disc) [id] ++ resetFor (· ∈ disc) l := by
          intro l
          unfold resetFor
          rw [← List.map_append, ← List.filter_append, ← List.filterMap_append]
          rfl
        refine wp_mono (ih n' u') ?_ ?_ fun _ h => h
        · rintro _ _ u'' ⟨hids, hlog'⟩
          refine ⟨fun i hi => ?_, ?_⟩
          · rcases List.mem_cons.mp hi with rfl | hi
            · simp [hkey]
            · exact hids i hi
          · rw [hlog', hlog, happend ids, List.append_assoc]
        · rintro _ _ u'' ⟨pre, i, post, rfl, hpre, hi, hlog'⟩
          refine ⟨id :: pre, i, post, rfl, fun j hj => ?_, hi, ?_⟩
          · rcases List.mem_cons.mp hj with rfl | hj
            · simp [hkey]
            · exact hpre j hj
          · rw [hlog', hlog, happend pre, List.append_assoc]
      dsimp only
      rw [wp_whenever]
      refine ⟨fun hc => ?_, fun hc => hrest n u ?_⟩
      · refine wp_handleEtr290Reset c (fun n' => hrest n' _ ?_) fun hcrash => hlive hcrash
        rw [log_note_work rfl]
        simp [resetFor, hkey, hc]
      · have hc' : c ∈ disc := not_not.mp hc
        simp [resetFor, hkey, hc']

end Apply

/-! ## A whole tick -/

/-- `op'` is run where `op` was asked for: it is the same, or wins over it. -/
def Prevails (st : Option ChannelStatus) (op op' : Op) : Prop :=
  op' = op ∨ op' = .disconnect ∨ (op = .start ∧ op' = .stop ∧ st = some .stopping) ∨
    (op = .stop ∧ op' = .start ∧ st ≠ some .stopping)

/-- A popped reset job of a channel. -/
def Event.isResetJob (c : ChannelId) : Event → Bool
  | .popped .etr290Reset raw => raw.channel = some c
  | _ => false

/-- An applied reset of a channel. -/
def Event.isReset (c : ChannelId) : Event → Bool
  | .reset d => d = c
  | _ => false

/-- No popped job is lost: of what a tick on `w` has done, each well-formed control job that was
popped has had its op or one that wins over it called for its channel, and each reset has been
applied, unless its channel was disconnected or the handler of its own channel has raised. -/
structure AllApplied (w : World) (raises : Op → ChannelId → Prop) (new : List Event) : Prop where
  control : ∀ op raw c, Event.popped op.queue raw ∈ new → raw.channel = some c →
    ∃ op', Event.handled op' c ∈ new ∧ Prevails (w.db.status c) op op' ∧
      ∃ raw', Event.popped op'.queue raw' ∈ new ∧ raw'.channel = some c
  reset : ∀ c, new.countP (Event.isResetJob c) ≤ new.countP (Event.isReset c) ∨
    Event.handled .disconnect c ∈ new ∨ ∃ op, Event.handled op c ∈ new ∧ raises op c

namespace World

/-- The channels that a tick finds control jobs for, in the order of the handler calls. -/
def channelsOf (o : Oracle Call) (w : World) : List ChannelId := (batchOf (w.popped o)).keys

/-- The op of a channel that a tick calls. -/
def pick (o : Oracle Call) (w : World) (c : ChannelId) : Op :=
  choice (w.db.status c) ((batchOf (w.popped o)).ops c)

/-- The tick disconnects the channel. -/
def Disconnects (o : Oracle Call) (w : World) (c : ChannelId) : Prop :=
  c ∈ w.channelsOf o ∧ w.pick o c = .disconnect

instance (o : Oracle Call) (w : World) : DecidablePred (w.Disconnects o) :=
  fun _ => inferInstanceAs (Decidable (_ ∧ _))

end World

/-- Nothing that was popped is cut off: a pop raises only where no job of a channel has been
popped, a handler only for the last channel and with no reset for another left to apply, and no
reset comes after an id that cannot be looked up. -/
structure Undisturbed (o : Oracle Call) (w : World) (raises : Op → ChannelId → Prop) : Prop where
  pops : ¬ w.PopsThrough o → ∀ e ∈ w.popped o, e.2.channel = none
  handlers : w.PopsThrough o → ∀ c ∈ w.channelsOf o, raises (w.pick o c) c →
    (w.channelsOf o).getLast? = some c ∧
      ∀ id ∈ resetIdsOf (w.popped o), ∀ d, id.toKey = some d → d = c ∨ w.Disconnects o d
  resets : w.PopsThrough o → (∀ c ∈ w.channelsOf o, ¬ raises (w.pick o c) c) →
    ∀ pre id post, resetIdsOf (w.popped o) = pre ++ id :: post → id.toKey = none →
      ∀ id' ∈ post, ∀ d, id'.toKey = some d → w.Disconnects o d

/-- What follows the pops of a tick. -/
inductive Followed (o : Oracle Call) (w : World) (raises : Op → ChannelId → Prop) :
    List Event → Prop
  | popRaised : ¬ w.PopsThrough o → Followed o w raises []
  | handlerRaised (pre : List ChannelId) (c : ChannelId) (post : List ChannelId) :
      w.PopsThrough o → w.channelsOf o = pre ++ c :: post →
      (∀ d ∈ pre, ¬ raises (w.pick o d) d) → raises (w.pick o c) c →
      Followed o w raises (calledFor (w.pick o) (pre ++ [c]))
  | applied (seen rest : List Json) :
      w.PopsThrough o → (∀ c ∈ w.channelsOf o, ¬ raises (w.pick o c) c) →
      resetIdsOf (w.popped o) = seen ++ rest → (∀ id ∈ seen, id.toKey ≠ none) →
      (rest = [] ∨ ∃ id post, rest = id :: post ∧ id.toKey = none) →
      Followed o w raises
        (calledFor (w.pick o) (w.channelsOf o) ++ resetFor (w.Disconnects o) seen)

section Tick

variable {o : Oracle Call} {w : World} {handlers : Op → ChannelId → Handler Unit}
  {raises : Op → ChannelId → Prop}

/-- Which resets are called for depends on which fail. -/
theorem resetFor_congr {p q : ChannelId → Prop} [DecidablePred p] [DecidablePred q]
    (h : ∀ c, p c ↔ q c) (ids : List Json) : resetFor p ids = resetFor q ids := by
  unfold resetFor
  congr 1
  refine List.filter_congr fun c _ => ?_
  simp [h c]

/-- The ops of a popped batch. -/
theorem ops_batchOf (popped : List (Queue × Raw)) :
    (∀ c op, op ∈ (batchOf popped).ops c ↔ (op, c) ∈ popped.filterMap controlJob) ∧
      (∀ c, ((batchOf popped).ops c).Nodup) ∧
      ∀ c ops, (batchOf popped).lookup c = some ops → ops ≠ [] := by
  obtain ⟨hmem, hnodup, hne⟩ := IngestWorker.Batch.foldl_add (popped.filterMap controlJob) ∅
    (fun d => List.nodup_nil) (fun d ops h => absurd h (by simp))
  refine ⟨fun c op => (hmem c op).trans ?_, hnodup, hne⟩
  have hempty : op ∉ IngestWorker.Batch.ops ∅ c := List.not_mem_nil
  simp [hempty]

/-- Popping is logged, job by job. -/
theorem log_takeOffAll (popped : List (Queue × Raw)) (lists : Queue → List Raw) (w : World) :
    (w.takeOffAll popped lists).log = w.log ++ popped.map fun e => Event.popped e.1 e.2 := by
  unfold World.log World.takeOffAll
  rw [List.filter_append]
  congr 1
  rw [List.filter_eq_self]
  intro e he
  obtain ⟨e', -, rfl⟩ := List.mem_map.mp he
  rfl

/-- **What a tick notes.** -/
theorem drain_log (hw : Sound w) (hlive : ¬ MayCrash o) (hdb : ∀ n, o n .dbQuery = .ok)
    (h : Calls o w handlers raises) :
    ∃ tail, (final o (IngestWorker.drainControlQueues handlers) w).log =
      w.log ++ ((w.popped o).map (fun e => Event.popped e.1 e.2) ++ tail) ∧
        Followed o w raises tail := by
  have hpops : PopsLive o := fun n q hcrash => hlive ⟨n, _, hcrash⟩
  refine final_of_wp (P := fun w' : World => ∃ tail, w'.log =
    w.log ++ ((w.popped o).map (fun e => Event.popped e.1 e.2) ++ tail) ∧
      Followed o w raises tail) ?_
  unfold IngestWorker.drainControlQueues
  rw [wp_bind]
  -- The pops get through or raise; then the handlers, which may raise; then the resets.
  refine wp_collectJobs_scan hpops (fun n lists hthrough => ?_) fun hno e n lists => ?_
  · set u := w.takeOffAll (w.popped o) lists
    have hu : u.log = w.log ++ (w.popped o).map fun e => Event.popped e.1 e.2 :=
      log_takeOffAll _ _ _
    have hsound : Sound u := ⟨hw.distinct, hw.sessions_lt, hw.rows_lt, hw.known⟩
    obtain ⟨-, hnodup, hne⟩ := ops_batchOf (w.popped o)
    have hpick : ∀ e ∈ (batchOf (w.popped o)).entries,
        e.2 ≠ [] ∧ e.2.Nodup ∧ choice (w.db.status e.1) e.2 = w.pick o e.1 := by
      intro e he
      have hlook : (batchOf (w.popped o)).lookup e.1 = some e.2 := Dict.mem_entries_iff.mp he
      have hops : (batchOf (w.popped o)).ops e.1 = e.2 := by
        unfold IngestWorker.Batch.ops
        rw [hlook, Option.getD_some]
      refine ⟨hne _ _ hlook, hops ▸ hnodup e.1, ?_⟩
      unfold World.pick
      rw [hops]
    unfold IngestWorker.applyJobs
    rw [wp_bind]
    refine wp_mono (wp_applyOps_calls hdb h _ ∅ n u hsound (batchOf (w.popped o)).nodupKeys hpick
      fun _ _ => rfl) ?_ ?_ fun _ hf => hf.elim
    · rintro disc n' u' ⟨hok, hdisc, hlog⟩
      have hdisc' : ∀ c, c ∈ disc ↔ w.Disconnects o c := fun c => by
        rw [hdisc c]
        simp [World.Disconnects, World.channelsOf, AList.keys]
      refine wp_mono (wp_applyResets hlive disc _ n' u') ?_ ?_ fun _ hf => hf.elim
      · rintro _ _ u'' ⟨hids, hlog'⟩
        refine ⟨_, ?_, Followed.applied (resetIdsOf (w.popped o)) [] hthrough hok
          (List.append_nil _).symm hids (Or.inl rfl)⟩
        rw [hlog', hlog, hu, resetFor_congr hdisc']
        simp [World.channelsOf, AList.keys]
      · rintro _ _ u'' ⟨pre, id, post, hids, hpre, hid, hlog'⟩
        refine ⟨_, ?_, Followed.applied pre (id :: post) hthrough hok hids hpre
          (Or.inr ⟨id, post, rfl, hid⟩)⟩
        rw [hlog', hlog, hu, resetFor_congr hdisc']
        simp [World.channelsOf, AList.keys]
    · rintro _ n' u' ⟨pre, c, post, hkeys, hpre, hc, hlog⟩
      refine ⟨_, ?_, Followed.handlerRaised pre c post hthrough hkeys hpre hc⟩
      rw [hlog, hu, List.append_assoc]
  · exact ⟨[], by rw [log_takeOffAll, List.append_nil], Followed.popRaised hno⟩

/-! ### What was noted of a channel -/

/-- Each channel gets the one operation that was picked for it. -/
theorem handled_mem_calledFor {pick : ChannelId → Op} {cs : List ChannelId} {op : Op}
    {c : ChannelId} : Event.handled op c ∈ calledFor pick cs ↔ c ∈ cs ∧ op = pick c := by
  unfold calledFor
  rw [List.mem_map]
  constructor
  · rintro ⟨d, hd, heq⟩
    obtain ⟨rfl, rfl⟩ := Event.handled.inj heq
    exact ⟨hd, rfl⟩
  · rintro ⟨hc, rfl⟩
    exact ⟨c, hc, rfl⟩

/-- A reset is no control operation. -/
theorem handled_not_mem_resetFor {p : ChannelId → Prop} [DecidablePred p] {ids : List Json}
    {op : Op} {c : ChannelId} : Event.handled op c ∉ resetFor p ids := by
  unfold resetFor
  simp

/-- What follows the pops pops nothing. -/
theorem popped_mem_iff {popped : List (Queue × Raw)} {tail : List Event}
    (h : Followed o w raises tail) {q : Queue} {raw : Raw} :
    Event.popped q raw ∈ (popped.map fun e => Event.popped e.1 e.2) ++ tail ↔
      (q, raw) ∈ popped := by
  have hnot : Event.popped q raw ∉ tail := by
    cases h with
    | popRaised _ => exact List.not_mem_nil
    | handlerRaised pre c post _ _ _ _ => simp [calledFor]
    | applied seen rest _ _ _ _ _ => simp [calledFor, resetFor]
  rw [List.mem_append, or_iff_left hnot, List.mem_map]
  constructor
  · rintro ⟨⟨q', raw'⟩, he, heq⟩
    obtain ⟨rfl, rfl⟩ := Event.popped.inj heq
    exact he
  · exact fun he => ⟨_, he, rfl⟩

/-- And what pops handles nothing. -/
theorem handled_mem_iff {popped : List (Queue × Raw)} {tail : List Event} {op : Op}
    {c : ChannelId} :
    Event.handled op c ∈ (popped.map fun e => Event.popped e.1 e.2) ++ tail ↔
      Event.handled op c ∈ tail := by
  rw [List.mem_append, or_iff_right]
  simp

/-- The queue of an operation. -/
theorem Queue.op?_eq_some {q : Queue} {op : Op} : q.op? = some op ↔ q = op.queue := by
  cases q <;> cases op <;> decide

/-- The popped control jobs of a channel. -/
theorem mem_filterMap_controlJob {popped : List (Queue × Raw)} {op : Op} {c : ChannelId} :
    (op, c) ∈ popped.filterMap controlJob ↔
      ∃ raw, (op.queue, raw) ∈ popped ∧ raw.channel = some c := by
  rw [List.mem_filterMap]
  constructor
  · rintro ⟨⟨q, raw⟩, he, hjob⟩
    obtain ⟨op', hop', hc⟩ := Option.bind_eq_some_iff.mp hjob
    obtain ⟨c', hc', heq⟩ := Option.map_eq_some_iff.mp hc
    obtain ⟨rfl, rfl⟩ := Prod.mk.inj heq
    refine ⟨raw, ?_, hc'⟩
    have hq : q = op'.queue := Queue.op?_eq_some.mp hop'
    exact hq ▸ he
  · rintro ⟨raw, he, hc⟩
    refine ⟨_, he, ?_⟩
    simp [controlJob, Queue.op?_eq_some.mpr rfl, hc]

/-- A channel is dealt with if a job for it was popped. -/
theorem mem_channelsOf {c : ChannelId} : c ∈ w.channelsOf o ↔
    ∃ (op : Op) (raw : Raw), (op.queue, raw) ∈ w.popped o ∧ raw.channel = some c := by
  obtain ⟨hmem, -, hne⟩ := ops_batchOf (w.popped o)
  have hkey : c ∈ w.channelsOf o ↔ ∃ ops, (batchOf (w.popped o)).lookup c = some ops :=
    AList.mem_keys.symm.trans Dict.mem_iff_exists_lookup
  rw [hkey]
  constructor
  · rintro ⟨ops, hops⟩
    obtain ⟨op, hop⟩ := List.exists_mem_of_ne_nil ops (hne c ops hops)
    have hop' : op ∈ (batchOf (w.popped o)).ops c := by
      unfold IngestWorker.Batch.ops
      rwa [hops, Option.getD_some]
    obtain ⟨raw, hraw⟩ := mem_filterMap_controlJob.mp ((hmem c op).mp hop')
    exact ⟨op, raw, hraw⟩
  · rintro ⟨op, raw, hraw⟩
    have hop := (hmem c op).mpr (mem_filterMap_controlJob.mpr ⟨raw, hraw⟩)
    cases hlook : (batchOf (w.popped o)).lookup c with
    | none =>
      unfold IngestWorker.Batch.ops at hop
      rw [hlook] at hop
      exact absurd hop List.not_mem_nil
    | some ops => exact ⟨ops, rfl⟩

/-- The op that is called wins, and was asked for. -/
theorem pick_prevails {op : Op} {raw : Raw} {c : ChannelId} (hraw : (op.queue, raw) ∈ w.popped o)
    (hc : raw.channel = some c) : Prevails (w.db.status c) op (w.pick o c) ∧
      ∃ raw', ((w.pick o c).queue, raw') ∈ w.popped o ∧ raw'.channel = some c := by
  obtain ⟨hmem, -, -⟩ := ops_batchOf (w.popped o)
  have hop := (hmem c op).mpr (mem_filterMap_controlJob.mpr ⟨raw, hraw, hc⟩)
  refine ⟨?_, ?_⟩
  · unfold World.pick choice Prevails
    by_cases hdis : Op.disconnect ∈ (batchOf (w.popped o)).ops c
    · rw [if_pos hdis]
      exact Or.inr (Or.inl rfl)
    · rw [if_neg hdis]
      by_cases hboth : Op.start ∈ (batchOf (w.popped o)).ops c ∧
          Op.stop ∈ (batchOf (w.popped o)).ops c
      · rw [if_pos hboth]
        by_cases hst : w.db.status c = some .stopping
        · rw [if_pos hst]
          cases op with
          | disconnect => exact absurd hop hdis
          | stop => exact Or.inl rfl
          | start => exact Or.inr (Or.inr (Or.inl ⟨rfl, rfl, hst⟩))
        · rw [if_neg hst]
          cases op with
          | disconnect => exact absurd hop hdis
          | stop => exact Or.inr (Or.inr (Or.inr ⟨rfl, rfl, hst⟩))
          | start => exact Or.inl rfl
      · rw [if_neg hboth]
        cases op with
        | disconnect => exact absurd hop hdis
        | stop => exact Or.inl (if_pos hop)
        | start => exact Or.inl (if_neg fun hstop => hboth ⟨hop, hstop⟩)
  · exact mem_filterMap_controlJob.mp
      ((hmem c _).mp (choice_mem (w.db.status c) (List.ne_nil_of_mem hop)))

/-! ### Resets -/

/-- A popped reset job is an id that names its channel. -/
theorem countP_isResetJob (popped : List (Queue × Raw)) (c : ChannelId) :
    (popped.map fun e => Event.popped e.1 e.2).countP (Event.isResetJob c) =
      ((resetIdsOf popped).filterMap Json.toKey).count c := by
  unfold resetIdsOf
  induction popped with
  | nil => rfl
  | cons e popped ih =>
    obtain ⟨q, raw⟩ := e
    rw [List.map_cons, List.countP_cons, ih]
    by_cases hq : q = .etr290Reset
    · subst hq
      have hjob : (Event.popped .etr290Reset raw).isResetJob c =
          decide (raw.channel = some c) := rfl
      rw [hjob, Raw.channel_eq]
      cases hid : raw.id? with
      | none => simp [hid]
      | some id =>
        cases hkey : id.toKey with
        | none => simp [hid, hkey]
        | some d => simp [hid, hkey, List.count_cons]
    · have hjob : (Event.popped q raw).isResetJob c = false := by
        cases q <;> first | rfl | exact absurd rfl hq
      simp [hq, hjob]

/-- Each reset job is answered on its own. -/
theorem countP_isReset (p : ChannelId → Prop) [DecidablePred p] (ids : List Json) (c : ChannelId) :
    (resetFor p ids).countP (Event.isReset c) =
      if p c then 0 else (ids.filterMap Json.toKey).count c := by
  have hmap : ∀ cs : List ChannelId,
      (cs.map Event.reset).countP (Event.isReset c) = cs.count c := by
    intro cs
    rw [List.countP_map, List.count]
    refine List.countP_congr fun d _ => ?_
    simp [Event.isReset]
  unfold resetFor
  rw [hmap]
  by_cases hp : p c
  · rw [if_pos hp, List.count_eq_zero]
    simp [hp]
  · rw [if_neg hp]
    exact List.count_filter (by simpa using hp)

/-- Control operations answer none. -/
theorem countP_isReset_calledFor (pick : ChannelId → Op) (cs : List ChannelId) (c : ChannelId) :
    (calledFor pick cs).countP (Event.isReset c) = 0 := by
  rw [List.countP_eq_zero]
  intro e he
  obtain ⟨d, -, rfl⟩ := List.mem_map.mp he
  simp [Event.isReset]

theorem countP_isReset_popped (popped : List (Queue × Raw)) (c : ChannelId) :
    (popped.map fun e => Event.popped e.1 e.2).countP (Event.isReset c) = 0 := by
  rw [List.countP_eq_zero]
  intro e he
  obtain ⟨d, -, rfl⟩ := List.mem_map.mp he
  simp [Event.isReset]

/-- Nothing is popped after the pops. -/
theorem countP_isResetJob_tail {tail : List Event} (h : Followed o w raises tail) (c : ChannelId) :
    tail.countP (Event.isResetJob c) = 0 := by
  rw [List.countP_eq_zero]
  intro e he
  cases h with
  | popRaised _ => exact absurd he List.not_mem_nil
  | handlerRaised pre c' post _ _ _ _ =>
    obtain ⟨d, -, rfl⟩ := List.mem_map.mp he
    simp [Event.isResetJob]
  | applied seen rest _ _ _ _ _ =>
    rcases List.mem_append.mp he with he | he
    · obtain ⟨d, -, rfl⟩ := List.mem_map.mp he
      simp [Event.isResetJob]
    · obtain ⟨d, -, rfl⟩ := List.mem_map.mp he
      simp [Event.isResetJob]

/-- The channels of the reset jobs. -/
theorem mem_resetKeys {popped : List (Queue × Raw)} {c : ChannelId} :
    c ∈ (resetIdsOf popped).filterMap Json.toKey ↔
      ∃ raw, (Queue.etr290Reset, raw) ∈ popped ∧ raw.channel = some c := by
  unfold resetIdsOf
  rw [List.filterMap_filterMap, List.mem_filterMap]
  constructor
  · rintro ⟨⟨q, raw⟩, he, hc⟩
    by_cases hq : q = .etr290Reset
    · subst hq
      rw [if_pos rfl] at hc
      exact ⟨raw, he, (Raw.channel_eq raw).trans hc⟩
    · simp [hq] at hc
  · rintro ⟨raw, he, hc⟩
    refine ⟨_, he, ?_⟩
    rw [if_pos rfl]
    exact (Raw.channel_eq raw).symm.trans hc

/-- A queue is popped if it was asked. -/
theorem queue_mem_scanAll {lists : Queue → List Raw} {qs : List Queue} {n : ℕ} {e : Queue × Raw}
    (he : e ∈ (scanAll o lists qs n).1) : e.1 ∈ qs := by
  induction qs generalizing n with
  | nil => exact absurd he List.not_mem_nil
  | cons q qs ih =>
    rw [scanAll] at he
    split at he
    · obtain ⟨raw, -, rfl⟩ := List.mem_map.mp he
      exact List.mem_cons_self
    · rcases List.mem_append.mp he with he | he
      · obtain ⟨raw, -, rfl⟩ := List.mem_map.mp he
        exact List.mem_cons_self
      · exact List.mem_cons_of_mem _ (ih he)

/-- A popped element is a control job or a reset. -/
theorem popped_cases {q : Queue} {raw : Raw} (he : (q, raw) ∈ w.popped o) :
    (∃ op : Op, q = op.queue) ∨ q = .etr290Reset := by
  have hq := queue_mem_scanAll he
  simp only [controlQueues, List.mem_cons, List.not_mem_nil, or_false] at hq
  rcases hq with rfl | rfl | rfl | rfl
  · exact Or.inl ⟨.disconnect, rfl⟩
  · exact Or.inl ⟨.stop, rfl⟩
  · exact Or.inl ⟨.start, rfl⟩
  · exact Or.inr rfl

/-- The judgement in terms of the pops and of what follows them. -/
theorem allApplied_iff_tail {tail : List Event} (h : Followed o w raises tail) :
    AllApplied w raises (((w.popped o).map fun e => Event.popped e.1 e.2) ++ tail) ↔
      (∀ c ∈ w.channelsOf o, Event.handled (w.pick o c) c ∈ tail) ∧
        ∀ c, ((resetIdsOf (w.popped o)).filterMap Json.toKey).count c ≤
            tail.countP (Event.isReset c) ∨
          Event.handled .disconnect c ∈ tail ∨ ∃ op, Event.handled op c ∈ tail ∧ raises op c := by
  -- The op that was handled for a channel is the one that was picked.
  have hpick : ∀ op c, Event.handled op c ∈ tail → op = w.pick o c := by
    intro op c hmem
    cases h with
    | popRaised _ => exact absurd hmem List.not_mem_nil
    | handlerRaised pre c' post _ _ _ _ => exact (handled_mem_calledFor.mp hmem).2
    | applied seen rest _ _ _ _ _ =>
      rcases List.mem_append.mp hmem with hmem | hmem
      · exact (handled_mem_calledFor.mp hmem).2
      · exact absurd hmem handled_not_mem_resetFor
  constructor
  · intro happ
    refine ⟨fun c hc => ?_, fun c => ?_⟩
    · obtain ⟨op, raw, hraw, hchan⟩ := mem_channelsOf.mp hc
      obtain ⟨op', hop', -⟩ := happ.control op raw c ((popped_mem_iff h).mpr hraw) hchan
      rw [handled_mem_iff] at hop'
      exact hpick op' c hop' ▸ hop'
    · have hreset := happ.reset c
      rw [List.countP_append, List.countP_append, countP_isResetJob, countP_isResetJob_tail h,
        countP_isReset_popped, Nat.add_zero, Nat.zero_add] at hreset
      simpa only [handled_mem_iff] using hreset
  · rintro ⟨hcontrol, hreset⟩
    refine ⟨fun op raw c hraw hchan => ?_, fun c => ?_⟩
    · have hraw' := (popped_mem_iff h).mp hraw
      obtain ⟨hprev, raw', he', hc'⟩ := pick_prevails hraw' hchan
      refine ⟨w.pick o c, ?_, hprev, raw', (popped_mem_iff h).mpr he', hc'⟩
      exact handled_mem_iff.mpr (hcontrol c (mem_channelsOf.mpr ⟨op, raw, hraw', hchan⟩))
    · rw [List.countP_append, List.countP_append, countP_isResetJob, countP_isResetJob_tail h,
        countP_isReset_popped, Nat.add_zero, Nat.zero_add]
      simpa only [handled_mem_iff] using hreset c

/-- **A pop has raised.** -/
theorem allApplied_popRaised (hno : ¬ w.PopsThrough o) :
    AllApplied w raises (((w.popped o).map fun e => Event.popped e.1 e.2) ++ []) ↔
      Undisturbed o w raises := by
  rw [allApplied_iff_tail (Followed.popRaised hno)]
  constructor
  · rintro ⟨hcontrol, hreset⟩
    refine ⟨fun _ => ?_, fun h => absurd h hno, fun h => absurd h hno⟩
    rintro ⟨q, raw⟩ he
    by_contra hne
    obtain ⟨c, hc⟩ := Option.ne_none_iff_exists'.mp hne
    -- Nothing has been called, so any job of a channel is lost.
    rcases popped_cases he with ⟨op, rfl⟩ | rfl
    · exact absurd (hcontrol c (mem_channelsOf.mpr ⟨op, raw, he, hc⟩)) List.not_mem_nil
    · have hpos := List.count_pos_iff.mpr (mem_resetKeys.mpr ⟨raw, he, hc⟩)
      rcases hreset c with hle | hdis | ⟨op, hop, -⟩
      · exact absurd (hpos.trans_le hle) (Nat.lt_irrefl 0)
      · exact absurd hdis List.not_mem_nil
      · exact absurd hop List.not_mem_nil
  · intro h
    refine ⟨fun c hc => ?_, fun c => Or.inl ?_⟩
    · obtain ⟨op, raw, hraw, hchan⟩ := mem_channelsOf.mp hc
      exact absurd ((h.pops hno _ hraw).symm.trans hchan) (by simp)
    · have hzero : ((resetIdsOf (w.popped o)).filterMap Json.toKey).count c = 0 := by
        rw [List.count_eq_zero]
        intro hmem
        obtain ⟨raw, hraw, hchan⟩ := mem_resetKeys.mp hmem
        exact absurd ((h.pops hno _ hraw).symm.trans hchan) (by simp)
      rw [hzero]
      exact Nat.zero_le _

/-- The channels of a tick are distinct. -/
theorem nodup_channelsOf : (w.channelsOf o).Nodup := (batchOf (w.popped o)).nodupKeys

/-- **A handler has raised.** -/
theorem allApplied_handlerRaised {pre post : List ChannelId} {c : ChannelId}
    (hthrough : w.PopsThrough o) (hkeys : w.channelsOf o = pre ++ c :: post)
    (hpre : ∀ d ∈ pre, ¬ raises (w.pick o d) d) (hc : raises (w.pick o c) c) :
    AllApplied w raises (((w.popped o).map fun e => Event.popped e.1 e.2) ++
        calledFor (w.pick o) (pre ++ [c])) ↔ Undisturbed o w raises := by
  have hnodup : (pre ++ c :: post).Nodup := hkeys ▸ nodup_channelsOf
  have hmem : c ∈ w.channelsOf o := by simp [hkeys]
  have hcount : ∀ d, (calledFor (w.pick o) (pre ++ [c])).countP (Event.isReset d) = 0 :=
    countP_isReset_calledFor _ _
  rw [allApplied_iff_tail (Followed.handlerRaised pre c post hthrough hkeys hpre hc)]
  simp only [handled_mem_calledFor, hcount]
  constructor
  · rintro ⟨hcontrol, hreset⟩
    -- A channel after the one that raised has a job and no call.
    have hpost : post = [] := by
      rw [List.eq_nil_iff_forall_not_mem]
      intro d hd
      have hd' := (hcontrol d (by simp [hkeys, hd])).1
      rw [List.nodup_append] at hnodup
      rcases List.mem_append.mp hd' with hd' | hd'
      · exact hnodup.2.2 d hd' d (List.mem_cons_of_mem _ hd) rfl
      · rw [List.mem_singleton] at hd'
        subst hd'
        exact (List.nodup_cons.mp hnodup.2.1).1 hd
    subst hpost
    refine ⟨fun hno => absurd hthrough hno, fun _ d hd hraise => ?_, fun _ hnone => ?_⟩
    · have hdc : d = c := by
        rw [hkeys] at hd
        rcases List.mem_append.mp hd with hd | hd
        · exact absurd hraise (hpre d hd)
        · exact List.mem_singleton.mp hd
      subst hdc
      refine ⟨by rw [hkeys, List.getLast?_concat], fun id hid d' hd' => ?_⟩
      have hpos : 0 < ((resetIdsOf (w.popped o)).filterMap Json.toKey).count d' :=
        List.count_pos_iff.mpr (List.mem_filterMap.mpr ⟨id, hid, hd'⟩)
      rcases hreset d' with hle | ⟨hin, hdis⟩ | ⟨op, ⟨hin, rfl⟩, hraise'⟩
      · exact absurd (hpos.trans_le hle) (Nat.lt_irrefl 0)
      · exact Or.inr ⟨hkeys ▸ hin, hdis.symm⟩
      · rcases List.mem_append.mp hin with hin | hin
        · exact absurd hraise' (hpre d' hin)
        · exact Or.inl (List.mem_singleton.mp hin)
    · exact absurd hc (hnone c hmem)
  · intro h
    obtain ⟨hlast, hids⟩ := h.handlers hthrough c hmem hc
    -- The last channel is the one that raised, and occurs once.
    have hpost : post = [] := by
      rcases List.eq_nil_or_concat post with hnil | ⟨post', d, rfl⟩
      · exact hnil
      · have hd : d = c := by
          rw [hkeys, List.concat_eq_append, ← List.cons_append, ← List.append_assoc,
            List.getLast?_concat] at hlast
          exact Option.some.inj hlast
        subst hd
        rw [List.nodup_append] at hnodup
        exact absurd (by simp) (List.nodup_cons.mp hnodup.2.1).1
    subst hpost
    refine ⟨fun d hd => ⟨hkeys ▸ hd, trivial⟩, fun d => ?_⟩
    by_cases hd : d ∈ (resetIdsOf (w.popped o)).filterMap Json.toKey
    · obtain ⟨id, hid, hkey⟩ := List.mem_filterMap.mp hd
      rcases hids id hid d hkey with rfl | ⟨hin, hdis⟩
      · exact Or.inr (Or.inr ⟨_, ⟨by simp, rfl⟩, hc⟩)
      · exact Or.inr (Or.inl ⟨hkeys ▸ hin, hdis.symm⟩)
    · rw [List.count_eq_zero.mpr hd]
      exact Or.inl le_rfl

/-- **No handler has raised.** -/
theorem allApplied_applied {seen rest : List Json} (hthrough : w.PopsThrough o)
    (hok : ∀ c ∈ w.channelsOf o, ¬ raises (w.pick o c) c)
    (hids : resetIdsOf (w.popped o) = seen ++ rest) (hseen : ∀ id ∈ seen, id.toKey ≠ none)
    (hrest : rest = [] ∨ ∃ id post, rest = id :: post ∧ id.toKey = none) :
    AllApplied w raises (((w.popped o).map fun e => Event.popped e.1 e.2) ++
        (calledFor (w.pick o) (w.channelsOf o) ++ resetFor (w.Disconnects o) seen)) ↔
      Undisturbed o w raises := by
  have hhandled : ∀ op c, Event.handled op c ∈
      calledFor (w.pick o) (w.channelsOf o) ++ resetFor (w.Disconnects o) seen ↔
        c ∈ w.channelsOf o ∧ op = w.pick o c := by
    intro op c
    rw [List.mem_append, or_iff_left handled_not_mem_resetFor, handled_mem_calledFor]
  have hcount : ∀ c, (calledFor (w.pick o) (w.channelsOf o) ++
      resetFor (w.Disconnects o) seen).countP (Event.isReset c) =
        if w.Disconnects o c then 0 else (seen.filterMap Json.toKey).count c := by
    intro c
    rw [List.countP_append, countP_isReset_calledFor, countP_isReset, Nat.zero_add]
  rw [allApplied_iff_tail (Followed.applied seen rest hthrough hok hids hseen hrest)]
  simp only [hhandled, hcount]
  -- A reset that is not applied comes after the id that raised.
  have hkey : (∀ c, ((resetIdsOf (w.popped o)).filterMap Json.toKey).count c ≤
        (if w.Disconnects o c then 0 else (seen.filterMap Json.toKey).count c) ∨
      (c ∈ w.channelsOf o ∧ Op.disconnect = w.pick o c) ∨
        ∃ op, (c ∈ w.channelsOf o ∧ op = w.pick o c) ∧ raises op c) ↔
      ∀ id ∈ rest, ∀ d, id.toKey = some d → w.Disconnects o d := by
    rw [hids, List.filterMap_append]
    simp only [List.count_append]
    constructor
    · intro h id hid d hd
      have hpos : 0 < (rest.filterMap Json.toKey).count d :=
        List.count_pos_iff.mpr (List.mem_filterMap.mpr ⟨id, hid, hd⟩)
      by_contra hnot
      rcases h d with hle | ⟨hin, hdis⟩ | ⟨op, ⟨hin, rfl⟩, hraise⟩
      · rw [if_neg hnot] at hle
        omega
      · exact hnot ⟨hin, hdis.symm⟩
      · exact hok d hin hraise
    · intro h c
      by_cases hdis : w.Disconnects o c
      · exact Or.inr (Or.inl ⟨hdis.1, hdis.2.symm⟩)
      · left
        have hzero : (rest.filterMap Json.toKey).count c = 0 := by
          rw [List.count_eq_zero, List.mem_filterMap]
          rintro ⟨id, hid, hc⟩
          exact hdis (h id hid c hc)
        rw [if_neg hdis, hzero, Nat.add_zero]
  constructor
  · rintro ⟨-, hreset⟩
    refine ⟨fun hno => absurd hthrough hno, fun _ c hc hraise => absurd hraise (hok c hc),
      fun _ _ pre id post heq hid id' hid' d hd => ?_⟩
    have hin : id' ∈ rest := by
      -- The first such id ends what was seen.
      rw [hids] at heq
      rcases List.append_eq_append_iff.mp heq with ⟨l, hl, hrest'⟩ | ⟨l, hl, hpost⟩
      · rw [hrest']
        exact List.mem_append_right _ (List.mem_cons_of_mem _ hid')
      · cases l with
        | nil =>
          rw [List.nil_append] at hpost
          rw [← hpost]
          exact List.mem_cons_of_mem _ hid'
        | cons x l =>
          obtain ⟨rfl, -⟩ := List.cons.inj hpost
          exact absurd hid (hseen id (by simp [hl]))
    exact hkey.mp hreset id' hin d hd
  · intro h
    refine ⟨fun c hc => ⟨hc, trivial⟩, hkey.mpr fun id' hid' d hd => ?_⟩
    rcases hrest with rfl | ⟨id, post, rfl, hid⟩
    · exact absurd hid' List.not_mem_nil
    · rcases List.mem_cons.mp hid' with rfl | hid'
      · exact absurd (hid.symm.trans hd) (by simp)
      · exact h.resets hthrough hok seen id post hids hid id' hid' d hd

/-- **A tick loses no job exactly if nothing that was popped is cut off.** -/
theorem jobs_applied_iff (hw : Sound w) (hlive : ¬ MayCrash o) (hdb : ∀ n, o n .dbQuery = .ok)
    (h : Calls o w handlers raises) :
    AllApplied w raises
        ((final o (IngestWorker.drainControlQueues handlers) w).log.drop w.log.length) ↔
      Undisturbed o w raises := by
  obtain ⟨tail, hlog, hfollowed⟩ := drain_log hw hlive hdb h
  rw [hlog, List.drop_left]
  -- One case for each way in which a tick can end.
  cases hfollowed with
  | popRaised hno => exact allApplied_popRaised hno
  | handlerRaised pre c post hthrough hkeys hpre hc =>
    exact allApplied_handlerRaised hthrough hkeys hpre hc
  | applied seen rest hthrough hok hids hseen hrest =>
    exact allApplied_applied hthrough hok hids hseen hrest

end Tick

/-! ## Handlers that raise -/

/-- The handlers of the worker, where the calls of `raises` raise once they are done. -/
def IngestWorker.failing (raises : Op → ChannelId → Bool) (op : Op) (c : ChannelId) :
    Handler Unit := do
  IngestWorker.handlers op c
  whenever (raises op c = true) (raise (.external .dbCommit))

/-- **Any set of handler calls** can be the one that raises. -/
theorem calls_failing {o : Oracle Call} (ho : Steady o) (hlive : ¬ MayCrash o) (w : World)
    (raises : Op → ChannelId → Bool) :
    Calls o w (IngestWorker.failing raises) fun op c => raises op c = true := by
  intro op c n u hsound _
  have hlocal : wp o (IngestWorker.handlers op c) (fun _ _ u' => Local c u u')
      (fun _ _ _ => False) (fun _ => False) n u := by
    cases op with
    | disconnect =>
      exact wp_mono (handleDisconnect_acts ho c n u) (fun _ _ _ h => h.1) (fun _ _ _ h => h)
        fun _ h => hlive h.crash
    | stop =>
      exact wp_mono (handleRecordStop_acts ho c n u) (fun _ _ _ h => h.1) (fun _ _ _ h => h)
        fun _ h => hlive h.crash
    | start =>
      exact wp_mono (handleRecordStart_acts ho c n u) (fun _ _ _ h => h.1) (fun _ _ _ h => h)
        fun _ h => hlive h.crash
  unfold IngestWorker.failing
  rw [wp_bind]
  refine wp_mono hlocal (fun _ n' u' h => ?_) (fun _ _ _ h => h.elim) fun _ h => h
  rw [wp_whenever, wp_raise]
  exact ⟨fun hraise => ⟨h, hraise⟩, fun hok => ⟨h, hok⟩⟩

/-- A worker with disconnects of two channels in its list. -/
def twoDisconnects : World :=
  ((World.fresh
    { channels := Dict.set (.str "b") ⟨"B", .udp, .disconnecting⟩
        (Dict.set (.str "a") ⟨"A", .udp, .disconnecting⟩ ∅)
      recordings := ∅
      workers := ∅ } 0).push .disconnect (.json (.obj [("channel_id", .str "a")]))).push
    .disconnect (.json (.obj [("channel_id", .str "b")]))

/-- The world of the witness is sound. -/
theorem sound_twoDisconnects : Sound twoDisconnects :=
  ⟨by simp [twoDisconnects, World.fresh], by simp [twoDisconnects, World.fresh],
    by simp [twoDisconnects, World.fresh], by simp [twoDisconnects, World.fresh]⟩

/-- The handler of the first channel raises: the job of the second has been popped, and is never
applied. -/
theorem failing_handler_loses_job :
    ¬ ∀ (o : Oracle Call) (w : World) (handlers : Op → ChannelId → Handler Unit)
      (raises : Op → ChannelId → Prop), Sound w → ¬ MayCrash o → (∀ n, o n .dbQuery = .ok) →
      Calls o w handlers raises → AllApplied w raises
        ((final o (IngestWorker.drainControlQueues handlers) w).log.drop w.log.length) := by
  intro h
  have happ := h allOk twoDisconnects (IngestWorker.failing fun _ c => c = .str "a") _
    sound_twoDisconnects (Healthy.not_mayCrash healthy_allOk) (fun _ => rfl)
    (calls_failing healthy_allOk.steady (Healthy.not_mayCrash healthy_allOk) _ _)
  have hnew : (final allOk (IngestWorker.drainControlQueues
      (IngestWorker.failing fun _ c => c = .str "a")) twoDisconnects).log.drop
        twoDisconnects.log.length =
      [.popped .disconnect (.json (.obj [("channel_id", .str "a")])),
        .popped .disconnect (.json (.obj [("channel_id", .str "b")])),
        .handled .disconnect (.str "a")] := rfl
  rw [hnew] at happ
  obtain ⟨op', hop', -⟩ := happ.control .disconnect
    (.json (.obj [("channel_id", .str "b")])) (.str "b") (by simp [Op.queue]) rfl
  simp at hop'

/-- Two disconnects at once, of which one fails. -/
theorem jobs_applied_iff_twoDisconnects :
    AllApplied twoDisconnects (fun _ c => decide (c = .str "b") = true)
        ((final allOk (IngestWorker.drainControlQueues
          (IngestWorker.failing fun _ c => c = .str "b")) twoDisconnects).log.drop
            twoDisconnects.log.length) ↔
      Undisturbed allOk twoDisconnects fun _ c => decide (c = .str "b") = true :=
  jobs_applied_iff sound_twoDisconnects (Healthy.not_mayCrash healthy_allOk) (fun _ => rfl)
    (calls_failing healthy_allOk.steady (Healthy.not_mayCrash healthy_allOk) _ _)
