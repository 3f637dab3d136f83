/-
# Draining the control lists

An invariant that survives the popping of a job, a trace entry and every handler survives
`_drain_control_queues`, in every environment and however the drain ends.

The drain is a loop of loops: four lists, the elements of each, the channels of the batch, the
resets.  Each part has a rule with the invariant in all three postconditions, so that a later result
needs only to say what a pop, a note and a handler keep.
-/
import IngestFarm.Worker

open Prog

/-- The lists that a drain empties. -/
def controlQueues : List Queue := [.disconnect, .recordStop, .recordStart, .etr290Reset]

section Rules

variable {o : Oracle Call} {E : PyError → ℕ → World → Prop} {C : World → Prop} {n : ℕ}
  {w : World} {J : World → Prop}

/-- What popping and taking notes keeps. -/
structure Drainable (J : World → Prop) : Prop where
  pop : ∀ w q raw rest, q ∈ controlQueues → J w → w.lists q = raw :: rest →
    J (w.setList q rest)
  note : ∀ w e, J w → J (w.note e)

/-- One pop. -/
theorem wp_tryPop_inv (hJ : Drainable J) (hC : MayCrash o → ∀ w, J w → C w) {q : Queue}
    (hq : q ∈ controlQueues) (hw : J w) :
    wp o (IngestWorker.tryPop q) (fun _ _ w' => J w') (fun _ _ w' => J w') C n w := by
  unfold IngestWorker.tryPop
  simp only [wp_bind, wp_external, wp_reads]
  refine ⟨fun _ => ?_, fun _ => hw, fun h => hC ⟨_, _, h⟩ w hw⟩
  cases hl : w.lists q with
  | nil => exact hw
  | cons raw rest =>
    have hpopped := hJ.note _ (.popped q raw) (hJ.pop w q raw rest hq hw hl)
    simp only [wp_bind, wp_modify]
    cases raw with
    | invalid => exact hpopped
    | json v => exact hpopped

/-- A loop that only collects. -/
theorem wp_popAll_inv {γ : Type} (hJ : Drainable J) (hC : MayCrash o → ∀ w, J w → C w)
    {q : Queue} (hq : q ∈ controlQueues) {f : γ → Json → Handler γ}
    (hf : ∀ acc v n w, J w → wp o (f acc v) (fun _ _ w' => J w') (fun _ _ w' => J w') C n w)
    (acc : γ) (hw : J w) :
    wp o (IngestWorker.popAll q f acc) (fun _ _ w' => J w') (fun _ _ w' => J w') C n w := by
  have hloop : ∀ fuel acc n w, J w → wp o (IngestWorker.popLoop q f fuel acc)
      (fun _ _ w' => J w') (fun _ _ w' => J w') C n w := by
    intro fuel
    induction fuel with
    | zero => intro acc n w hw; exact hw
    | succ fuel ih =>
      intro acc n w hw
      rw [IngestWorker.popLoop, wp_bind]
      refine wp_mono (wp_tryPop_inv hJ hC hq hw) (fun job n' w' hw' => ?_) (fun _ _ _ h => h)
        fun _ h => h
      cases job with
      | none => exact hw'
      | some v =>
        simp only [wp_ite, wp_bind, wp_pure]
        refine ⟨fun _ => ?_, fun _ => hw'⟩
        exact wp_mono (hf acc v n' w' hw') (fun acc' n'' w'' h => ih acc' n'' w'' h)
          (fun _ _ _ h => h) fun _ h => h
  unfold IngestWorker.popAll
  rw [wp_bind, wp_reads]
  exact hloop _ _ _ _ hw

/-- Reading the channel id of a job changes nothing. -/
theorem wp_jobChannel {Q : Option Json → ℕ → World → Prop} {job : Json}
    (hQ : ∀ id, Q id n w) (hE : ∀ e, E e n w) :
    wp o (IngestWorker.jobChannel job) Q E C n w := by
  unfold IngestWorker.jobChannel
  split
  · split
    · exact hQ _
    · split
      · exact hQ _
      · exact hQ _
  · exact hE _

theorem wp_collectOp_inv (op : Op) (batch : IngestWorker.Batch) (job : Json) (hw : J w) :
    wp o (IngestWorker.collectOp op batch job) (fun _ _ w' => J w') (fun _ _ w' => J w') C n w := by
  unfold IngestWorker.collectOp
  rw [wp_bind]
  refine wp_jobChannel (fun id => ?_) fun _ => hw
  split
  · exact hw
  · split
    · exact hw
    · exact hw

theorem wp_collectReset_inv (ids : List Json) (job : Json) (hw : J w) :
    wp o (IngestWorker.collectReset ids job) (fun _ _ w' => J w') (fun _ _ w' => J w') C n w := by
  unfold IngestWorker.collectReset
  rw [wp_bind]
  refine wp_jobChannel (fun id => ?_) fun _ => hw
  split
  · exact hw
  · exact hw

/-- Two parts that keep the invariant, one after the other. -/
theorem wp_bind_inv {α β : Type} {m : Handler α} {f : α → Handler β}
    (hm : wp o m (fun _ _ w' => J w') (fun _ _ w' => J w') C n w)
    (hf : ∀ a n' w', J w' → wp o (f a) (fun _ _ w' => J w') (fun _ _ w' => J w') C n' w') :
    wp o (m >>= f) (fun _ _ w' => J w') (fun _ _ w' => J w') C n w := by
  rw [wp_bind]
  exact wp_mono hm (fun a n' w' hw' => hf a n' w' hw') (fun _ _ _ h => h) fun _ h => h

/-- **Collecting the jobs keeps the invariant.** -/
theorem wp_collectJobs_inv (hJ : Drainable J) (hC : MayCrash o → ∀ w, J w → C w) (hw : J w) :
    wp o IngestWorker.collectJobs (fun _ _ w' => J w') (fun _ _ w' => J w') C n w := by
  unfold IngestWorker.collectJobs
  refine wp_bind_inv (wp_popAll_inv hJ hC (by simp [controlQueues])
    (fun batch v n w hw => wp_collectOp_inv _ batch v hw) _ hw) fun _ _ w hw => ?_
  refine wp_bind_inv (wp_popAll_inv hJ hC (by simp [controlQueues])
    (fun batch v n w hw => wp_collectOp_inv _ batch v hw) _ hw) fun _ _ w hw => ?_
  refine wp_bind_inv (wp_popAll_inv hJ hC (by simp [controlQueues])
    (fun batch v n w hw => wp_collectOp_inv _ batch v hw) _ hw) fun _ _ w hw => ?_
  exact wp_bind_inv (wp_popAll_inv hJ hC (by simp [controlQueues])
    (fun ids v n w hw => wp_collectReset_inv ids v hw) _ hw) fun _ _ w hw => hw

/-- A reset changes nothing but the trace, and does not raise. -/
theorem wp_handleEtr290Reset {Q : Unit → ℕ → World → Prop} (c : ChannelId)
    (hQ : ∀ n', Q () n' (w.note (.reset c))) (hC : MayCrash o → C (w.note (.reset c))) :
    wp o (IngestWorker.handleEtr290Reset c) Q E C n w := by
  unfold IngestWorker.handleEtr290Reset ChannelSession.resetEtr290
  rw [wp_bind, wp_modify, wp_bind, wp_reads]
  cases (w.note (.reset c)).sessions.lookup c with
  | none => exact hQ n
  | some s =>
    simp only [wp_attempt, wp_bind, wp_reads, wp_whenever, wp_external, wp_pure]
    exact ⟨fun _ => ⟨fun _ => hQ _, fun _ => hQ _, fun h => hC ⟨_, _, h⟩⟩, fun _ => hQ _⟩

/-- **The handlers keep the invariant**, so the second part of the drain does. -/
theorem wp_applyJobs_inv (hJ : Drainable J) (hC : MayCrash o → ∀ w, J w → C w)
    {handlers : Op → ChannelId → Handler Unit}
    (hh : ∀ op c n w, J w → wp o (handlers op c) (fun _ _ w' => J w') (fun _ _ w' => J w') C n w)
    (jobs : IngestWorker.Batch × List Json) (hw : J w) :
    wp o (IngestWorker.applyJobs handlers jobs) (fun _ _ w' => J w') (fun _ _ w' => J w') C
      n w := by
  have hresolve : ∀ c ops n w, J w → wp o (IngestWorker.resolveOps c ops)
      (fun _ _ w' => J w') (fun _ _ w' => J w') C n w := by
    intro c ops n w hw
    unfold IngestWorker.resolveOps
    simp only [wp_ite, wp_pure, wp_bind, wp_query]
    exact ⟨fun _ => hw, fun _ => ⟨fun _ => ⟨fun _ => hw, fun _ => hw, fun h => hC ⟨_, _, h⟩ w hw⟩,
      fun _ => hw⟩⟩
  have hdispatch : ∀ c disconnected op n w, J w → wp o (IngestWorker.dispatch handlers c
      disconnected op) (fun _ _ w' => J w') (fun _ _ w' => J w') C n w := by
    intro c disconnected op n w hw
    unfold IngestWorker.dispatch
    rw [wp_bind, wp_modify, wp_bind]
    exact wp_mono (hh op c n _ (hJ.note w _ hw)) (fun _ _ _ h => h) (fun _ _ _ h => h)
      fun _ h => h
  have hops : ∀ disconnected e n w, J w → wp o (IngestWorker.applyOps handlers disconnected e)
      (fun _ _ w' => J w') (fun _ _ w' => J w') C n w := by
    intro disconnected e n w hw
    unfold IngestWorker.applyOps
    rw [wp_bind]
    refine wp_mono (hresolve e.1 e.2 n w hw) (fun ops n' w' hw' => ?_) (fun _ _ _ h => h)
      fun _ h => h
    exact wp_fold (I := fun _ _ w => J w) (fun op _ acc n w hw => hdispatch e.1 acc op n w hw)
      (fun _ _ _ h => h) ops disconnected n' w' hw'
  have hreset : ∀ disconnected id n w, J w → wp o (IngestWorker.applyReset disconnected id)
      (fun _ _ w' => J w') (fun _ _ w' => J w') C n w := by
    intro disconnected id n w hw
    unfold IngestWorker.applyReset
    split
    · exact hw
    · rename_i c _
      have hnote := hJ.note w (.reset c) hw
      rw [wp_whenever]
      exact ⟨fun _ => wp_handleEtr290Reset c (fun _ => hnote) fun h => hC h _ hnote, fun _ => hw⟩
  unfold IngestWorker.applyJobs
  rw [wp_bind]
  refine wp_fold (I := fun _ _ w => J w) (fun e _ acc n w hw => hops acc e n w hw)
    (fun disconnected n' w' hw' => ?_) _ _ n w hw
  exact wp_each (I := fun _ w => J w) (fun id _ n w hw => hreset disconnected id n w hw)
    (fun _ _ h => h) jobs.2 n' w' hw'

/-- **The drain keeps the invariant.** -/
theorem wp_drain_inv (hJ : Drainable J) (hC : MayCrash o → ∀ w, J w → C w)
    {handlers : Op → ChannelId → Handler Unit}
    (hh : ∀ op c n w, J w → wp o (handlers op c) (fun _ _ w' => J w') (fun _ _ w' => J w') C n w)
    (hw : J w) :
    wp o (IngestWorker.drainControlQueues handlers) (fun _ _ w' => J w') (fun _ _ w' => J w') C
      n w := by
  unfold IngestWorker.drainControlQueues
  rw [wp_bind]
  exact wp_mono (wp_collectJobs_inv hJ hC hw)
    (fun jobs n' w' hw' => wp_applyJobs_inv hJ hC hh jobs hw') (fun _ _ _ h => h) fun _ h => h

end Rules
