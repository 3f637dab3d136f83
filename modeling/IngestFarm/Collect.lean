/-
# What one drain does to each channel

With Redis up and well-formed jobs in the control lists, the first half of
`_drain_control_queues` collects exactly the jobs of the lists (`collected`), and the second
half runs one op for each channel that has a job: `resolved`, which looks at the stored status
only where a start and a stop have met.  `wp_drain` says so for any relation `R` that the
handlers realise on the views of their channels.

What a handler may rely on is the view of its own channel: the ops that ran before it were those of
other channels, which have left it as it was at the pop (`Draining.todo`).  So the loop over the
batch needs the relation of each handler once, on the state at the pop.
-/
import IngestFarm.Drain
import IngestFarm.Steps

open Prog

/-- The list of an op. -/
def Op.queue : Op → Queue
  | disconnect => .disconnect
  | stop => .recordStop
  | start => .recordStart

/-- Pops work. -/
def PopsUp (o : Oracle Call) : Prop := ∀ n q, o n (.redisPop q) = .ok

/-- A healthy environment pops. -/
theorem Healthy.popsUp {o : Oracle Call} (h : Healthy o) : PopsUp o := by
  intro n q
  rcases ho : o n (.redisPop q) with _ | _ | _
  · rfl
  · exact absurd ((h n (.redisPop q)).2 ho) (by simp [Call.mayFail])
  · exact absurd ho (h n (.redisPop q)).1

/-- Every job of the control lists names a channel. -/
def WellFormed (w : World) : Prop :=
  ∀ q ∈ controlQueues, ∀ raw ∈ w.lists q, ∃ c, raw.channel = some c

namespace World

/-- The channels that have a job in a list, in the order of the jobs. -/
def queued (w : World) (q : Queue) : List ChannelId := (w.lists q).filterMap Raw.channel

/-- A list has been emptied by pops. -/
@[simps] def took (q : Queue) (w : World) : World :=
  { w with
    lists := Function.update w.lists q []
    trace := w.trace ++ (w.lists q).map (Event.popped q) }

/-- The four control lists have been emptied. -/
def tookAll (w : World) : World :=
  (((w.took .disconnect).took .recordStop).took .recordStart).took .etr290Reset

/-- The ops collected from the lists, in the order of their first appearance. -/
def collected (w : World) : IngestWorker.Batch :=
  ((w.queued .disconnect).map (Prod.mk Op.disconnect) ++
    (w.queued .recordStop).map (Prod.mk Op.stop) ++
    (w.queued .recordStart).map (Prod.mk Op.start)).foldl (fun batch e => batch.add e.2 e.1) ∅

/-- What `_resolve_ops` makes of the jobs of a channel. -/
def resolved (w : World) (c : ChannelId) : Op :=
  if c ∈ w.queued .disconnect then .disconnect
  else if c ∈ w.queued .recordStop ∧ c ∈ w.queued .recordStart then
    if w.db.status c = some .stopping then .stop else .start
  else if c ∈ w.queued .recordStop then .stop
  else .start

/-- A channel has a control job. -/
def HasJob (w : World) (c : ChannelId) : Prop :=
  c ∈ w.queued .disconnect ∨ c ∈ w.queued .recordStop ∨ c ∈ w.queued .recordStart

end World

/-! ## Jobs -/

/-- A job that names a channel is a truthy object. -/
theorem Json.of_channel {job : Json} {c : ChannelId} (h : job.channel = some c) :
    job.truthy = true ∧ ∃ id, job.jobId = some (some id) ∧ id.toKey = some c := by
  unfold channel at h
  rw [Option.bind_eq_some_iff] at h
  obtain ⟨id, hid, hkey⟩ := h
  rw [Option.bind_eq_some_iff] at hid
  obtain ⟨id', hjob, rfl⟩ := hid
  refine ⟨?_, _, hjob, hkey⟩
  cases job with
  | obj fields =>
    cases fields with
    | nil =>
      unfold jobId field? at hjob
      exact absurd hjob (by simp)
    | cons e fields => rfl
  | _ => exact absurd hjob (by simp [jobId])

/-- A payload with a channel is an object. -/
theorem Raw.of_channel {raw : Raw} {c : ChannelId} (h : raw.channel = some c) :
    ∃ job, raw = .json job ∧ job.channel = some c := by
  cases raw with
  | invalid => exact absurd h (by simp [channel])
  | json job => exact ⟨job, rfl, h⟩

section Rules

variable {o : Oracle Call} {E : PyError → ℕ → World → Prop} {C : World → Prop} {n : ℕ}
  {w : World}

/-- `job.get("channel_id")`: it never raises on an object, and what is not an object cannot be
asked. -/
theorem wp_jobChannel_iff {Q : Option Json → ℕ → World → Prop} {job : Json} {id : Option Json}
    (h : job.jobId = some id) :
    wp o (IngestWorker.jobChannel job) Q E C n w ↔ Q id n w := by
  cases job with
  | obj fields =>
    have hid : (Json.field? "channel_id" fields).filter Json.truthy = id := Option.some.inj h
    unfold IngestWorker.jobChannel
    rw [← hid]
    dsimp only
    rcases Json.field? "channel_id" fields with _ | v
    · rfl
    · dsimp only
      rw [Option.filter_some]
      by_cases hv : v.truthy = true
      · rw [if_pos hv, if_pos hv]
        rfl
      · rw [if_neg hv, if_neg hv]
        rfl
  | _ => exact absurd h (by simp [Json.jobId])

/-- A job with a channel joins the batch. -/
theorem wp_collectOp_of_channel {Q : IngestWorker.Batch → ℕ → World → Prop} {job : Json}
    {c : ChannelId} (h : job.channel = some c) (op : Op) (batch : IngestWorker.Batch)
    (hQ : Q (batch.add c op) n w) : wp o (IngestWorker.collectOp op batch job) Q E C n w := by
  obtain ⟨-, id, hid, hkey⟩ := Json.of_channel h
  unfold IngestWorker.collectOp
  rw [wp_bind, wp_jobChannel_iff hid]
  dsimp only
  rw [hkey]
  exact hQ

/-- A reset with a channel joins the list. -/
theorem wp_collectReset_of_channel {Q : List Json → ℕ → World → Prop} {job : Json}
    {c : ChannelId} (h : job.channel = some c) (ids : List Json)
    (hQ : ∀ id, id.toKey = some c → Q (ids ++ [id]) n w) :
    wp o (IngestWorker.collectReset ids job) Q E C n w := by
  obtain ⟨-, id, hid, hkey⟩ := Json.of_channel h
  unfold IngestWorker.collectReset
  rw [wp_bind, wp_jobChannel_iff hid]
  exact hQ id hkey

/-- **Draining one list** of well-formed jobs; `I` is what the jobs so far have left. -/
theorem wp_popAll_of_channel {γ : Type} {q : Queue} {f : γ → Json → Handler γ}
    {I : List ChannelId → γ → Prop} {Q : γ → ℕ → World → Prop} (ho : PopsUp o)
    (hf : ∀ done acc job c n w (P : γ → ℕ → World → Prop), job.channel = some c → I done acc →
      (∀ acc' n', I (done ++ [c]) acc' → P acc' n' w) → wp o (f acc job) P E C n w)
    (hjobs : ∀ raw ∈ w.lists q, ∃ c, raw.channel = some c) {acc : γ} (hacc : I [] acc)
    (hQ : ∀ acc' n', I (w.queued q) acc' → Q acc' n' (w.took q)) :
    wp o (IngestWorker.popAll q f acc) Q E C n w := by
  -- On the length of the list, which the fuel exceeds; `done` is what has been taken off so far.
  have hloop : ∀ (raws : List Raw) (fuel n : ℕ) (w : World) (done : List ChannelId) (acc : γ),
      w.lists q = raws → raws.length < fuel → (∀ raw ∈ raws, ∃ c, raw.channel = some c) →
      I done acc → (∀ acc' n', I (done ++ raws.filterMap Raw.channel) acc' →
        Q acc' n' (w.took q)) → wp o (IngestWorker.popLoop q f fuel acc) Q E C n w := by
    have hno : ∀ {P : Prop} {n : ℕ} (a : Answer), a ≠ .ok → o n (.redisPop q) = a → P :=
      fun a ha h => absurd (h.symm.trans (ho _ q)) ha
    intro raws
    induction raws with
    | nil =>
      rintro (_ | fuel) n w done acc hlist hfuel hjobs hacc hQ
      · exact absurd hfuel (by simp)
      -- Taking the rest after the first entry is taking all.
      have htook : w.took q = w := by
        unfold World.took
        rw [hlist, List.map_nil, List.append_nil, ← hlist, Function.update_eq_self]
      rw [List.filterMap_nil, List.append_nil, htook] at hQ
      unfold IngestWorker.popLoop IngestWorker.tryPop
      simp only [wp_bind, wp_external, wp_reads]
      refine ⟨fun _ => ?_, hno _ (by decide), hno _ (by decide)⟩
      rw [hlist]
      exact hQ acc _ hacc
    | cons raw raws ih =>
      rintro (_ | fuel) n w done acc hlist hfuel hjobs hacc hQ
      · exact absurd hfuel (by simp)
      obtain ⟨c, hc⟩ := hjobs raw List.mem_cons_self
      obtain ⟨job, rfl, hjob⟩ := Raw.of_channel hc
      obtain ⟨htruthy, -⟩ := Json.of_channel hjob
      have htook : ((w.setList q raws).note (.popped q (.json job))).took q = w.took q := by
        unfold World.took World.note World.setList
        rw [hlist]
        simp
      unfold IngestWorker.popLoop IngestWorker.tryPop
      simp only [wp_bind, wp_external, wp_reads]
      refine ⟨fun _ => ?_, hno _ (by decide), hno _ (by decide)⟩
      rw [hlist]
      dsimp only
      rw [wp_bind, wp_modify, wp_bind, wp_modify, wp_pure]
      dsimp only
      rw [if_pos htruthy, wp_bind]
      refine hf done acc job c _ _ _ hjob hacc fun acc' n' hacc' => ?_
      refine ih fuel n' _ (done ++ [c]) acc' (by simp) ?_
        (fun raw hraw => hjobs raw (List.mem_cons_of_mem _ hraw)) hacc' fun acc'' n'' h => ?_
      · rw [List.length_cons] at hfuel
        omega
      · rw [htook]
        apply hQ acc'' n''
        rwa [List.filterMap_cons_some hc, ← List.singleton_append, ← List.append_assoc]
  unfold IngestWorker.popAll
  rw [wp_bind, wp_reads]
  exact hloop (w.lists q) _ n w [] acc rfl (Nat.lt_succ_self _) hjobs hacc hQ

end Rules

/-! ## The batch -/

namespace IngestWorker.Batch

/-- The ops of a channel in a batch. -/
def ops (batch : Batch) (c : ChannelId) : List Op := (batch.lookup c).getD []

variable {batch : Batch} {c d : ChannelId} {op op' : Op}

/-- What a batch says after a job. -/
theorem lookup_add : (batch.add c op).lookup d = if d = c then
    some (if op ∈ batch.ops c then batch.ops c else batch.ops c ++ [op]) else batch.lookup d :=
  Dict.lookup_set _ _ _ _

/-- An operation is in it if it was, or is the new one. -/
theorem mem_ops_add : op' ∈ (batch.add c op).ops d ↔ op' ∈ batch.ops d ∨ (op' = op ∧ d = c) := by
  show op' ∈ ((batch.add c op).lookup d).getD [] ↔ _
  rw [lookup_add]
  by_cases hd : d = c
  · subst hd
    rw [if_pos rfl, Option.getD_some]
    split
    · constructor
      · exact Or.inl
      · rintro (h | ⟨rfl, -⟩) <;> assumption
    · rw [List.mem_append, List.mem_singleton]
      simp
  · rw [if_neg hd]
    simp [hd, ops]

/-- And never twice. -/
theorem nodup_ops_add (h : ∀ d, (batch.ops d).Nodup) (d : ChannelId) :
    ((batch.add c op).ops d).Nodup := by
  show (((batch.add c op).lookup d).getD []).Nodup
  rw [lookup_add]
  by_cases hd : d = c
  · rw [if_pos hd, Option.getD_some]
    split
    · exact h c
    · rename_i hmem
      exact List.nodup_append.mpr ⟨h c, List.nodup_singleton op, by
        rintro a ha b hb rfl
        exact hmem (List.mem_singleton.mp hb ▸ ha)⟩
  · rw [if_neg hd]
    exact h d

/-- What a list of jobs adds to a batch. -/
theorem foldl_add (pairs : List (Op × ChannelId)) (batch : Batch)
    (hnodup : ∀ d, (batch.ops d).Nodup) (hne : ∀ d ops, batch.lookup d = some ops → ops ≠ []) :
    let batch' := pairs.foldl (fun batch e => batch.add e.2 e.1) batch
    (∀ d op, op ∈ batch'.ops d ↔ op ∈ batch.ops d ∨ (op, d) ∈ pairs) ∧
      (∀ d, (batch'.ops d).Nodup) ∧ ∀ d ops, batch'.lookup d = some ops → ops ≠ [] := by
  induction pairs generalizing batch with
  | nil => exact ⟨fun d op => by simp, hnodup, hne⟩
  | cons e pairs ih =>
    have hne' : ∀ d ops, (batch.add e.2 e.1).lookup d = some ops → ops ≠ [] := by
      intro d ops h
      rw [lookup_add] at h
      split at h
      · obtain rfl := Option.some.inj h
        split
        · exact List.ne_nil_of_mem ‹_›
        · exact List.append_ne_nil_of_right_ne_nil _ (List.cons_ne_nil _ _)
      · exact hne d ops h
    obtain ⟨hmem, hnodup', hne''⟩ := ih (batch.add e.2 e.1) (nodup_ops_add hnodup) hne'
    refine ⟨fun d op => ?_, hnodup', hne''⟩
    rw [List.foldl_cons, hmem d op, mem_ops_add, List.mem_cons, or_assoc]
    simp [Prod.ext_iff]

end IngestWorker.Batch

/-- The ops of a channel are those it has jobs for. -/
theorem World.ops_collected (w : World) :
    (∀ c op, op ∈ w.collected.ops c ↔ c ∈ w.queued op.queue) ∧
      (∀ c, (w.collected.ops c).Nodup) ∧
      ∀ c ops, w.collected.lookup c = some ops → ops ≠ [] := by
  obtain ⟨hmem, hnodup, hne⟩ := IngestWorker.Batch.foldl_add
    ((w.queued .disconnect).map (Prod.mk Op.disconnect) ++
      (w.queued .recordStop).map (Prod.mk Op.stop) ++
      (w.queued .recordStart).map (Prod.mk Op.start)) ∅ (fun d => List.nodup_nil)
    (fun d ops h => absurd h (by simp))
  refine ⟨fun c op => (hmem c op).trans ?_, hnodup, hne⟩
  have hempty : op ∉ IngestWorker.Batch.ops ∅ c := List.not_mem_nil
  cases op <;> simp [hempty, Op.queue]

section Drain

variable {o : Oracle Call} {E : PyError → ℕ → World → Prop} {C : World → Prop} {n : ℕ}
  {w : World}

theorem queued_took {q q' : Queue} (h : q' ≠ q) : (w.took q).queued q' = w.queued q' := by
  unfold World.queued
  rw [World.took_lists, Function.update_of_ne h]

/-- The other lists are as they were. -/
theorem wellFormed_took (hw : WellFormed w) (q : Queue) : WellFormed (w.took q) := by
  intro q' hq' raw hraw
  rw [World.took_lists] at hraw
  by_cases h : q' = q
  · subst h
    rw [Function.update_self] at hraw
    exact absurd hraw List.not_mem_nil
  · rw [Function.update_of_ne h] at hraw
    exact hw q' hq' raw hraw

/-- One list of control jobs is added to the batch. -/
theorem wp_popOps {Q : IngestWorker.Batch → ℕ → World → Prop} (ho : PopsUp o) {q : Queue}
    (hjobs : ∀ raw ∈ w.lists q, ∃ c, raw.channel = some c) (op : Op) (batch : IngestWorker.Batch)
    (hQ : ∀ n', Q (((w.queued q).map (Prod.mk op)).foldl (fun batch e => batch.add e.2 e.1) batch)
      n' (w.took q)) :
    wp o (IngestWorker.popAll q (IngestWorker.collectOp op) batch) Q E C n w := by
  refine wp_popAll_of_channel (I := fun done acc => acc =
    (done.map (Prod.mk op)).foldl (fun batch e => batch.add e.2 e.1) batch) ho ?_ hjobs rfl ?_
  · rintro done acc job c n w P hjob rfl hP
    refine wp_collectOp_of_channel hjob op _ (hP _ n ?_)
    rw [List.map_append, List.foldl_append]
    rfl
  · rintro acc' n' rfl
    exact hQ n'

/-- **The first half of the drain.** -/
theorem wp_collectJobs {Q : IngestWorker.Batch × List Json → ℕ → World → Prop} (ho : PopsUp o)
    (hw : WellFormed w)
    (hQ : ∀ ids n', (∀ id ∈ ids, ∃ c, Json.toKey id = some c) →
      Q (w.collected, ids) n' w.tookAll) :
    wp o IngestWorker.collectJobs Q E C n w := by
  -- The three op lists in the order of the drain, then the resets, which leave ids only.
  have h₁ := wellFormed_took hw .disconnect
  have h₂ := wellFormed_took h₁ .recordStop
  have h₃ := wellFormed_took h₂ .recordStart
  unfold IngestWorker.collectJobs
  rw [wp_bind]
  refine wp_popOps ho (hw _ (by simp [controlQueues])) .disconnect ∅ fun n₁ => ?_
  rw [wp_bind]
  refine wp_popOps ho (h₁ _ (by simp [controlQueues])) .stop _ fun n₂ => ?_
  rw [wp_bind]
  refine wp_popOps ho (h₂ _ (by simp [controlQueues])) .start _ fun n₃ => ?_
  rw [wp_bind]
  refine wp_popAll_of_channel (I := fun _ ids => ∀ id ∈ ids, ∃ c, Json.toKey id = some c) ho
    ?_ (h₃ _ (by simp [controlQueues])) (by simp) fun ids n₄ hids => ?_
  · intro done ids job c n w P hjob hids hP
    refine wp_collectReset_of_channel hjob ids fun id hid => hP _ n fun id' hid' => ?_
    rcases List.mem_append.mp hid' with hid' | hid'
    · exact hids id' hid'
    · exact ⟨c, List.mem_singleton.mp hid' ▸ hid⟩
  · rw [queued_took (by decide), queued_took (by decide), queued_took (by decide),
      ← List.foldl_append, ← List.foldl_append, ← List.append_assoc, wp_pure]
    exact hQ ids n₄ hids

/-! ## The handlers -/

/-- What a drain has done, channel by channel; `R` says what the handlers do to a view, and `J`
is what they keep. -/
structure Drained (R : Bool → Op → View → View → Prop) (J : World → Prop) (w w' : World) :
    Prop where
  /-- The invariant of the handlers. -/
  inv : J w'
  sound : Sound w'
  /-- A death stays known. -/
  died : w'.died = false → w.died = false
  /-- The control lists are empty. -/
  empty : ∀ q ∈ controlQueues, w'.lists q = []
  /-- The list of connect jobs is not touched. -/
  connect : w'.lists .connect = w.lists .connect
  /-- A channel without a job has kept everything. -/
  untouched : ∀ c, ¬ w.HasJob c → w'.view c = w.view c
  /-- One with a job has made the step of the op that was resolved for it. -/
  acted : ∀ c, w.HasJob c → R w'.died (w.resolved c) (w.view c) (w'.view c)

theorem eq_singleton_of_nodup {α : Type} {l : List α} {a : α} (hl : l.Nodup) (ha : a ∈ l)
    (h : ∀ b ∈ l, b = a) : l = [a] := by
  rcases l with _ | ⟨x, _ | ⟨y, l⟩⟩
  · exact absurd ha List.not_mem_nil
  · rw [h x List.mem_cons_self]
  · have hx := h x List.mem_cons_self
    have hy := h y (List.mem_cons_of_mem x List.mem_cons_self)
    rw [List.nodup_cons, hx, hy] at hl
    exact absurd List.mem_cons_self hl.1

/-- **Resolution.** -/
theorem wp_resolveOps {Q : List Op → ℕ → World → Prop} (ho : Steady o) {u : World}
    {c : ChannelId} {ops : List Op} (hops : w.collected.lookup c = some ops)
    (hst : u.db.status c = w.db.status c) (hQ : ∀ n', Q [w.resolved c] n' u)
    (hC : MayCrash o → C u) : wp o (IngestWorker.resolveOps c ops) Q E C n u := by
  obtain ⟨hmem, hnodup, hne⟩ := w.ops_collected
  have hops' : w.collected.ops c = ops := by
    show (w.collected.lookup c).getD [] = ops
    rw [hops]
    rfl
  have hmem' : ∀ op, op ∈ ops ↔ c ∈ w.queued op.queue := hops' ▸ hmem c
  have hnodup' : ops.Nodup := hops' ▸ hnodup c
  unfold IngestWorker.resolveOps
  rw [wp_ite, wp_ite]
  -- A disconnect among the ops, both record ops, or one op alone.
  refine ⟨fun hdis => ?_, fun hdis => ⟨fun hboth => ?_, fun hboth => ?_⟩⟩
  · have hres : w.resolved c = .disconnect := if_pos ((hmem' _).mp hdis)
    rw [wp_pure, ← hres]
    exact hQ n
  · have hres : w.resolved c = if w.db.status c = some .stopping then .stop else .start :=
      (if_neg fun h => hdis ((hmem' _).mpr h)).trans
        (if_pos ⟨(hmem' _).mp hboth.2, (hmem' _).mp hboth.1⟩)
    rw [wp_bind, wp_query]
    refine ⟨fun _ => ?_, fun hf => absurd hf (ho.db n _ rfl), fun hc => hC ⟨n, _, hc⟩⟩
    rw [wp_pure, hst, ← hres]
    exact hQ _
  · rw [wp_pure]
    -- No disconnect and not both of the others: what is left is the one op that was resolved.
    have hone : ops = [w.resolved c] := by
      have hother : ∀ op ∈ ops, op = .stop ∨ op = .start := by
        intro op hop
        cases op with
        | disconnect => exact absurd hop hdis
        | stop => exact Or.inl rfl
        | start => exact Or.inr rfl
      have hneg : w.resolved c = if c ∈ w.queued .recordStop then .stop else .start :=
        (if_neg fun h => hdis ((hmem' .disconnect).mpr h)).trans
          (if_neg fun h => hboth ⟨(hmem' .start).mpr h.2, (hmem' .stop).mpr h.1⟩)
      by_cases hstop : Op.stop ∈ ops
      · have hqueued : c ∈ w.queued .recordStop := (hmem' .stop).mp hstop
        rw [hneg, if_pos hqueued]
        refine eq_singleton_of_nodup hnodup' hstop fun op hop => ?_
        rcases hother op hop with rfl | rfl
        · rfl
        · exact absurd ⟨hop, hstop⟩ hboth
      · rw [hneg, if_neg fun h : c ∈ w.queued .recordStop => hstop ((hmem' .stop).mpr h)]
        have hall : ∀ op ∈ ops, op = .start := by
          intro op hop
          rcases hother op hop with rfl | rfl
          · exact absurd hop hstop
          · rfl
        obtain ⟨op, hop⟩ := List.exists_mem_of_ne_nil ops (hne c ops hops)
        exact eq_singleton_of_nodup hnodup' (hall op hop ▸ hop) hall
    rw [hone]
    exact hQ n

/-- Where the drain is: the channels of `rest` are still to do. -/
structure Draining (R : Bool → Op → View → View → Prop) (J : World → Prop) (w : World)
    (rest : List (Sigma fun _ : ChannelId => List Op)) (u : World) : Prop where
  /-- The invariant of the handlers. -/
  inv : J u
  sound : Sound u
  /-- A death stays known. -/
  died : u.died = false → w.died = false
  /-- The lists are what the pops have left. -/
  lists : ∀ q, q.isControl = true → u.lists q = w.tookAll.lists q
  /-- A channel whose turn is still to come has kept everything. -/
  todo : ∀ c, c ∈ rest.keys ∨ ¬ w.HasJob c → u.view c = w.view c
  /-- One that has had its turn has made its step. -/
  acted : ∀ c, w.HasJob c → c ∉ rest.keys → R u.died (w.resolved c) (w.view c) (u.view c)

/-- A channel has a job if one is collected. -/
theorem hasJob_iff (w : World) (c : ChannelId) : w.HasJob c ↔ c ∈ w.collected := by
  obtain ⟨hmem, -, hne⟩ := w.ops_collected
  rw [Dict.mem_iff_exists_lookup]
  constructor
  · intro h
    rcases hl : w.collected.lookup c with _ | ops
    · have hno : ∀ op, op ∉ w.collected.ops c := by
        intro op hop
        rw [IngestWorker.Batch.ops, hl] at hop
        exact List.not_mem_nil hop
      rcases h with h | h | h
      · exact absurd ((hmem c .disconnect).mpr h) (hno _)
      · exact absurd ((hmem c .stop).mpr h) (hno _)
      · exact absurd ((hmem c .start).mpr h) (hno _)
    · exact ⟨ops, rfl⟩
  · rintro ⟨ops, hops⟩
    obtain ⟨op, hop⟩ := List.exists_mem_of_ne_nil ops (hne c ops hops)
    have hjob := (hmem c op).mp (by rw [IngestWorker.Batch.ops, hops]; exact hop)
    cases op with
    | disconnect => exact Or.inl hjob
    | stop => exact Or.inr (Or.inl hjob)
    | start => exact Or.inr (Or.inr hjob)

/-- **The ops of one channel.** -/
theorem wp_applyOps {R : Bool → Op → View → View → Prop} {J : World → Prop} (ho : Steady o)
    (hmono : ∀ d d' op v v', (d' = false → d = false) → R d op v v' → R d' op v v')
    (hJ : ∀ u lists trace, J u → J { u with lists := lists, trace := trace })
    {handlers : Op → ChannelId → Handler Unit}
    (hh : ∀ c n u, Sound u → J u → w.HasJob c → u.view c = w.view c →
      wp o (handlers (w.resolved c) c) (fun _ _ u' => Local c u u' ∧
        R u'.died (w.resolved c) (u.view c) (u'.view c) ∧ J u') (fun _ _ _ => False)
        (fun _ => MayCrash o) n u)
    {e : Sigma fun _ : ChannelId => List Op} {rest : List (Sigma fun _ : ChannelId => List Op)}
    (he : w.collected.lookup e.1 = some e.2) (hrest : e.1 ∉ rest.keys) {u : World}
    (hu : Draining R J w (e :: rest) u) (disconnected : Finset ChannelId) :
    wp o (IngestWorker.applyOps handlers disconnected e) (fun _ _ u' => Draining R J w rest u')
      (fun _ _ _ => False) (fun _ => MayCrash o) n u := by
  have hjob : w.HasJob e.1 := (hasJob_iff w e.1).mpr (Dict.mem_iff_exists_lookup.mpr ⟨_, he⟩)
  have hview : u.view e.1 = w.view e.1 := hu.todo e.1 (Or.inl List.mem_cons_self)
  have hnote : Sound (u.note (.handled (w.resolved e.1) e.1)) :=
    ⟨hu.sound.distinct, hu.sound.sessions_lt, hu.sound.rows_lt, hu.sound.known⟩
  unfold IngestWorker.applyOps
  rw [wp_bind]
  refine wp_resolveOps ho he (congrArg (fun v => v.status) hview) (fun n' => ?_) fun hc => hc
  unfold fold IngestWorker.dispatch
  rw [wp_bind, wp_bind, wp_modify, wp_bind]
  have hnoted : J (u.note (.handled (w.resolved e.1) e.1)) := hJ u _ _ hu.inv
  refine wp_mono (hh e.1 n' _ hnote hnoted hjob hview) ?_ (fun _ _ _ h => h) (fun _ h => h)
  rintro _ n'' u' ⟨hlocal, hR, hinv⟩
  have hR' : R u'.died (w.resolved e.1) (w.view e.1) (u'.view e.1) := hview ▸ hR
  show Draining R J w rest u'
  -- The other channels see nothing of the handler, and that of the op has made its step.
  refine ⟨hinv, hlocal.sound hnote, fun hd => hu.died (hlocal.died hd), fun q hq => ?_,
    fun c hc => ?_,
    fun c hc hnot => ?_⟩
  · exact (hlocal.jobs q hq).trans (hu.lists q hq)
  · have hne : c ≠ e.1 := by
      rintro rfl
      rcases hc with hc | hc
      · exact hrest hc
      · exact hc hjob
    exact (hlocal.views hnote c hne).trans (hu.todo c (hc.imp (List.mem_cons_of_mem _) id))
  · by_cases hce : c = e.1
    · rw [hce]
      exact hR'
    · rw [hlocal.views hnote c hce]
      refine hmono _ _ _ _ _ hlocal.died (hu.acted c hc ?_)
      rw [List.keys_cons, List.mem_cons, not_or]
      exact ⟨hce, hnot⟩

/-- **The drain, channel by channel.** -/
theorem wp_drain {R : Bool → Op → View → View → Prop} {J : World → Prop} (ho : Steady o)
    (hpops : PopsUp o)
    (hmono : ∀ d d' op v v', (d' = false → d = false) → R d op v v' → R d' op v v')
    (hJ : ∀ u lists trace, J u → J { u with lists := lists, trace := trace })
    {handlers : Op → ChannelId → Handler Unit}
    (hh : ∀ c n u, Sound u → J u → w.HasJob c → u.view c = w.view c →
      wp o (handlers (w.resolved c) c) (fun _ _ u' => Local c u u' ∧
        R u'.died (w.resolved c) (u.view c) (u'.view c) ∧ J u') (fun _ _ _ => False)
        (fun _ => MayCrash o) n u)
    (hw : Sound w) (hinv : J w) (hjobs : WellFormed w) :
    wp o (IngestWorker.drainControlQueues handlers) (fun _ _ w' => Drained R J w w')
      (fun _ _ _ => False) (fun _ => MayCrash o) n w := by
  unfold IngestWorker.drainControlQueues
  rw [wp_bind]
  refine wp_collectJobs hpops hjobs fun ids n' hids => ?_
  unfold IngestWorker.applyJobs
  rw [wp_bind]
  -- The loop over the batch, whose invariant names the channels still to do; then the resets.
  have hstart : Draining R J w w.collected.entries w.tookAll := by
    refine ⟨hJ w _ _ hinv, ⟨hw.distinct, hw.sessions_lt, hw.rows_lt, hw.known⟩, id, fun _ _ => rfl,
      fun _ _ => rfl, fun c hc hnot => ?_⟩
    exact absurd (AList.mem_keys.mp ((hasJob_iff w c).mp hc)) hnot
  refine wp_fold (I := fun rest _ u => Draining R J w rest u ∧ rest.NodupKeys ∧
    ∀ e ∈ rest, w.collected.lookup e.1 = some e.2) ?_ ?_ _ _ n' _
    ⟨hstart, w.collected.nodupKeys, fun e he => Dict.mem_entries_iff.mp he⟩
  · rintro e rest disconnected n u ⟨hu, hnodup, hlookup⟩
    have hnot : e.1 ∉ rest.keys := (List.nodupKeys_cons.mp hnodup).1
    refine wp_mono (wp_applyOps ho hmono hJ hh (hlookup e List.mem_cons_self) hnot hu disconnected)
      ?_ (fun _ _ _ h => h) (fun _ h => h)
    intro _ _ u' hu'
    exact ⟨hu', (List.nodupKeys_cons.mp hnodup).2,
      fun e' he' => hlookup e' (List.mem_cons_of_mem _ he')⟩
  · rintro disconnected n'' u ⟨hu, -, -⟩
    have hdone : Drained R J w u := by
      refine ⟨hu.inv, hu.sound, hu.died, fun q hq => ?_, hu.lists .connect rfl,
        fun c hc => hu.todo c (Or.inr hc), fun c hc => hu.acted c hc List.not_mem_nil⟩
      rw [hu.lists q (by revert hq; cases q <;> decide)]
      unfold World.tookAll
      simp only [World.took_lists]
      revert hq
      cases q <;> simp [controlQueues]
    refine wp_each (I := fun ids u => (∀ id ∈ ids, ∃ c, Json.toKey id = some c) ∧ Drained R J w u)
      ?_ (fun _ _ h => h.2) ids n'' u ⟨hids, hdone⟩
    rintro id ids n u ⟨hids, hu⟩
    obtain ⟨c, hc⟩ := hids id List.mem_cons_self
    -- A reset only puts a note into the log.
    have hnote : Drained R J w (u.note (.reset c)) :=
      ⟨hJ u _ _ hu.inv,
        ⟨hu.sound.distinct, hu.sound.sessions_lt, hu.sound.rows_lt, hu.sound.known⟩, hu.died,
        hu.empty, hu.connect, hu.untouched, hu.acted⟩
    have hids' : ∀ id ∈ ids, ∃ c, Json.toKey id = some c :=
      fun id' hid' => hids id' (List.mem_cons_of_mem _ hid')
    unfold IngestWorker.applyReset
    rw [hc]
    dsimp only
    rw [wp_whenever]
    exact ⟨fun _ => wp_handleEtr290Reset c (fun _ => ⟨hids', hnote⟩) fun hc => hc,
      fun _ => ⟨hids', hu⟩⟩

end Drain
