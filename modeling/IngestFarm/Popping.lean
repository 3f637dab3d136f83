/-
# Popping the control lists

The first half of `_drain_control_queues` with anything in the lists and any pop raising.  A pop
takes its element off the list for good; `scan` says, from the lists and the pops that raise,
which elements a tick pops and whether it gets through, and `wp_collectJobs_scan` that the code
does just that, collects the ops and ids of what was popped, and changes nothing else.

An element that is no JSON, has no `.get` or has an id that cannot be a key of the batch raises when
it is popped (`Raw.breaks`), a falsy one ends the loop over its list (`Raw.ends`), and one without
an id is taken off and skipped.
-/
import IngestFarm.Collect

open Prog

/-! ## Pops -/

/-- The truthy id of a job, hashable or not. -/
def Raw.id? : Raw → Option Json
  | .invalid => none
  | .json v => v.jobId.bind id

/-- The element raises when it is popped or collected: it is no JSON, it has no `get`, or its id
cannot be a key of the batch. -/
def Raw.breaks (q : Queue) : Raw → Bool
  | .invalid => true
  | .json v => v.truthy && match v.jobId with
    | none => true
    | some none => false
    | some (some id) => q ≠ .etr290Reset && id.toKey.isNone

/-- The element ends the loop over its list. -/
def Raw.ends : Raw → Bool
  | .invalid => false
  | .json v => !v.truthy

/-- The elements that the loop over a list pops from call `n` on, and the call after the loop;
`none` when it raises. -/
def scan (o : Oracle Call) (q : Queue) : ℕ → List Raw → List Raw × Option ℕ
  | n, [] => ([], if o n (.redisPop q) = .ok then some (n + 1) else none)
  | n, raw :: raws =>
    if o n (.redisPop q) = .ok then
      if raw.breaks q = true then ([raw], none)
      else if raw.ends = true then ([raw], some (n + 1))
      else (raw :: (scan o q (n + 1) raws).1, (scan o q (n + 1) raws).2)
    else ([], none)

/-- The elements that are popped from some lists, one list after the other. -/
def scanAll (o : Oracle Call) (lists : Queue → List Raw) :
    List Queue → ℕ → List (Queue × Raw) × Option ℕ
  | [], n => ([], some n)
  | q :: qs, n =>
    match scan o q n (lists q) with
    | (raws, none) => (raws.map (Prod.mk q), none)
    | (raws, some n') =>
      (raws.map (Prod.mk q) ++ (scanAll o lists qs n').1, (scanAll o lists qs n').2)

namespace World

/-- What a tick pops. -/
def popped (o : Oracle Call) (w : World) : List (Queue × Raw) :=
  (scanAll o w.lists controlQueues 0).1

/-- No pop of the tick raises. -/
def PopsThrough (o : Oracle Call) (w : World) : Prop :=
  (scanAll o w.lists controlQueues 0).2 ≠ none

/-- Elements have been taken off a list. -/
def takeOff (q : Queue) (raws : List Raw) (w : World) : World :=
  { w with
    lists := Function.update w.lists q ((w.lists q).drop raws.length)
    trace := w.trace ++ raws.map (Event.popped q) }

end World

section Pops

variable {o : Oracle Call} {E : PyError → ℕ → World → Prop} {C : World → Prop} {n : ℕ}
  {w : World}

/-- No pop kills the process. -/
def PopsLive (o : Oracle Call) : Prop := ∀ n q, o n (.redisPop q) ≠ .crash

/-- Nothing is popped. -/
theorem takeOff_nil (q : Queue) (w : World) : w.takeOff q [] = w := by
  unfold World.takeOff
  rw [List.length_nil, List.drop_zero, List.map_nil, List.append_nil, Function.update_eq_self]

/-- The head of a list, and then more of it. -/
theorem takeOff_cons {q : Queue} {raw : Raw} {raws : List Raw} (hlist : w.lists q = raw :: raws)
    (more : List Raw) : (w.takeOff q [raw]).takeOff q more = w.takeOff q (raw :: more) := by
  unfold World.takeOff
  rw [hlist]
  simp

/-- **The loop over one list.**  `I` is what the elements so far have left. -/
theorem wp_popLoop_scan {γ : Type} {q : Queue} {f : γ → Json → Handler γ} {I : List Raw → γ → Prop}
    {Q : γ → ℕ → World → Prop} (ho : PopsLive o)
    (hf : ∀ done acc v n w (P : γ → ℕ → World → Prop), v.truthy = true → I done acc →
      (Raw.breaks q (.json v) = false → ∀ acc', I (done ++ [.json v]) acc' → P acc' n w) →
      (Raw.breaks q (.json v) = true → ∀ e, E e n w) → wp o (f acc v) P E C n w)
    (hend : ∀ done acc raw, raw.ends = true → I done acc → I (done ++ [raw]) acc)
    (raws : List Raw) :
    ∀ (fuel n : ℕ) (w : World) (done : List Raw) (acc : γ),
      w.lists q = raws → raws.length < fuel → I done acc →
      (∀ acc' n', (scan o q n raws).2 = some n' → I (done ++ (scan o q n raws).1) acc' →
        Q acc' n' (w.takeOff q (scan o q n raws).1)) →
      ((scan o q n raws).2 = none → ∀ e n', E e n' (w.takeOff q (scan o q n raws).1)) →
      wp o (IngestWorker.popLoop q f fuel acc) Q E C n w := by
  induction raws with
  | nil =>
    rintro (_ | fuel) n w done acc hlist hfuel hacc hQ hE
    · exact absurd hfuel (by simp)
    unfold scan at hQ hE
    rw [takeOff_nil] at hE
    simp only [takeOff_nil, List.append_nil] at hQ
    unfold IngestWorker.popLoop IngestWorker.tryPop
    simp only [wp_bind, wp_external, wp_reads]
    refine ⟨fun hok => ?_, fun hfail => ?_, fun hcrash => absurd hcrash (ho n q)⟩
    · rw [hlist]
      exact hQ acc _ (if_pos hok) hacc
    · exact hE (if_neg (by rw [hfail]; decide)) _ _
  | cons raw raws ih =>
    rintro (_ | fuel) n w done acc hlist hfuel hacc hQ hE
    · exact absurd hfuel (by simp)
    have hone : (w.setList q raws).note (.popped q raw) = w.takeOff q [raw] := by
      unfold World.takeOff World.note World.setList
      rw [hlist]
      rfl
    unfold IngestWorker.popLoop IngestWorker.tryPop
    simp only [wp_bind, wp_external, wp_reads]
    refine ⟨fun hok => ?_, fun hfail => ?_, fun hcrash => absurd hcrash (ho n q)⟩
    · rw [hlist]
      dsimp only
      rw [wp_bind, wp_modify, wp_bind, wp_modify, hone]
      unfold scan at hQ hE
      rw [if_pos hok] at hQ hE
      cases hb : raw.breaks q with
      | true =>
        -- It raises at once, in `json.loads`, or when it is collected.
        rw [if_pos hb] at hQ hE
        cases raw with
        | invalid => exact hE rfl _ _
        | json v =>
          have htruthy : v.truthy = true := by
            unfold Raw.breaks at hb
            exact (Bool.and_eq_true_iff.mp hb).1
          rw [wp_pure]
          dsimp only
          rw [if_pos htruthy, wp_bind]
          exact hf done acc v _ _ _ htruthy hacc (fun h => absurd (hb.symm.trans h) (by simp))
            fun _ e => hE rfl e _
      | false =>
        rw [if_neg (by simp [hb])] at hQ hE
        cases raw with
        | invalid => exact absurd hb (by simp [Raw.breaks])
        | json v =>
          rw [wp_pure]
          dsimp only
          cases htruthy : v.truthy with
          | false =>
            -- `while job:` ends here, with the element gone.
            have hends : (Raw.json v).ends = true := by simp [Raw.ends, htruthy]
            rw [if_pos hends] at hQ hE
            rw [if_neg (by simp), wp_pure]
            exact hQ acc _ rfl (hend done acc _ hends hacc)
          | true =>
            have hends : ¬ (Raw.json v).ends = true := by simp [Raw.ends, htruthy]
            rw [if_neg hends] at hQ hE
            rw [if_pos rfl, wp_bind]
            refine hf done acc v _ _ _ htruthy hacc (fun _ acc' hacc' => ?_)
              (fun h => absurd (hb.symm.trans h) (by simp))
            refine ih fuel _ _ (done ++ [.json v]) acc' ?_ ?_ hacc' ?_ ?_
            · unfold World.takeOff
              simp [hlist]
            · rw [List.length_cons] at hfuel
              omega
            · intro acc'' n'' hn'' hacc''
              rw [takeOff_cons hlist]
              apply hQ acc'' n'' hn''
              rwa [List.append_assoc, List.singleton_append] at hacc''
            · intro hn e n''
              rw [takeOff_cons hlist]
              exact hE hn e n''
    · unfold scan at hE
      rw [if_neg (by rw [hfail]; decide), takeOff_nil] at hE
      exact hE rfl _ _

/-- **One list, whatever is in it.** -/
theorem wp_popAll_scan {γ : Type} {q : Queue} {f : γ → Json → Handler γ} {I : List Raw → γ → Prop}
    {Q : γ → ℕ → World → Prop} (ho : PopsLive o)
    (hf : ∀ done acc v n w (P : γ → ℕ → World → Prop), v.truthy = true → I done acc →
      (Raw.breaks q (.json v) = false → ∀ acc', I (done ++ [.json v]) acc' → P acc' n w) →
      (Raw.breaks q (.json v) = true → ∀ e, E e n w) → wp o (f acc v) P E C n w)
    (hend : ∀ done acc raw, raw.ends = true → I done acc → I (done ++ [raw]) acc)
    {acc : γ} (hacc : I [] acc)
    (hQ : ∀ acc' n', (scan o q n (w.lists q)).2 = some n' → I (scan o q n (w.lists q)).1 acc' →
      Q acc' n' (w.takeOff q (scan o q n (w.lists q)).1))
    (hE : (scan o q n (w.lists q)).2 = none → ∀ e n',
      E e n' (w.takeOff q (scan o q n (w.lists q)).1)) :
    wp o (IngestWorker.popAll q f acc) Q E C n w := by
  unfold IngestWorker.popAll
  rw [wp_bind, wp_reads]
  refine wp_popLoop_scan ho hf hend (w.lists q) _ n w [] acc rfl (Nat.lt_succ_self _) hacc ?_ hE
  simpa only [List.nil_append] using hQ

end Pops

/-! ## Jobs -/

/-- The op whose list it is. -/
def Queue.op? : Queue → Option Op
  | disconnect => some .disconnect
  | recordStop => some .stop
  | recordStart => some .start
  | _ => none

/-- The control job of a popped element. -/
def controlJob (e : Queue × Raw) : Option (Op × ChannelId) :=
  e.1.op?.bind fun op => e.2.channel.map (Prod.mk op)

/-- The batch that popped elements make. -/
def batchOf (popped : List (Queue × Raw)) : IngestWorker.Batch :=
  (popped.filterMap controlJob).foldl (fun batch e => batch.add e.2 e.1) ∅

/-- The ids of popped resets. -/
def resetIdsOf (popped : List (Queue × Raw)) : List Json :=
  popped.filterMap fun e => if e.1 = .etr290Reset then e.2.id? else none

section Collect

variable {o : Oracle Call} {E : PyError → ℕ → World → Prop} {C : World → Prop} {n : ℕ}
  {w : World}

/-- The channel of a payload. -/
theorem Raw.channel_json (v : Json) : (Raw.json v).channel = (Raw.json v).id?.bind Json.toKey := rfl

/-- A value without `get` raises. -/
theorem wp_jobChannel_none {Q : Option Json → ℕ → World → Prop} {job : Json}
    (h : job.jobId = none) (hE : ∀ e, E e n w) : wp o (IngestWorker.jobChannel job) Q E C n w := by
  cases job with
  | obj fields => exact absurd h (by simp [Json.jobId])
  | _ => exact hE _

/-- One control job, whatever it is. -/
theorem wp_collectOp_cases {P : IngestWorker.Batch → ℕ → World → Prop} {q : Queue}
    (hq : q ≠ .etr290Reset) (op : Op) {v : Json} (hv : v.truthy = true)
    (batch : IngestWorker.Batch)
    (hP : Raw.breaks q (.json v) = false → P ((((Raw.json v).channel.toList).map
      (Prod.mk op)).foldl (fun batch e => batch.add e.2 e.1) batch) n w)
    (hE : Raw.breaks q (.json v) = true → ∀ e, E e n w) :
    wp o (IngestWorker.collectOp op batch v) P E C n w := by
  unfold IngestWorker.collectOp
  rw [wp_bind]
  cases hid : v.jobId with
  | none => exact wp_jobChannel_none hid (hE (by simp [Raw.breaks, hv, hid]))
  | some id? =>
    rw [wp_jobChannel_iff hid]
    cases id? with
    | none =>
      have hnone : (Raw.json v).channel = none := by simp [Raw.channel_json, Raw.id?, hid]
      rw [hnone] at hP
      exact hP (by simp [Raw.breaks, hid])
    | some id =>
      dsimp only
      have hkey : (Raw.json v).channel = id.toKey := by simp [Raw.channel_json, Raw.id?, hid]
      rw [hkey] at hP
      cases hk : id.toKey with
      | none => exact hE (by simp [Raw.breaks, hv, hid, hk, hq]) _
      | some c =>
        rw [hk] at hP
        exact hP (by simp [Raw.breaks, hid, hk])

/-- One reset job, whatever it is. -/
theorem wp_collectReset_cases {P : List Json → ℕ → World → Prop} {v : Json}
    (hv : v.truthy = true) (ids : List Json)
    (hP : Raw.breaks .etr290Reset (.json v) = false → P (ids ++ (Raw.json v).id?.toList) n w)
    (hE : Raw.breaks .etr290Reset (.json v) = true → ∀ e, E e n w) :
    wp o (IngestWorker.collectReset ids v) P E C n w := by
  unfold IngestWorker.collectReset
  rw [wp_bind]
  cases hid : v.jobId with
  | none => exact wp_jobChannel_none hid (hE (by simp [Raw.breaks, hv, hid]))
  | some id? =>
    rw [wp_jobChannel_iff hid]
    have heq : (Raw.json v).id? = id? := by simp [Raw.id?, hid]
    rw [heq] at hP
    cases id? with
    | none =>
      rw [Option.toList_none, List.append_nil] at hP
      exact hP (by simp [Raw.breaks, hid])
    | some id => exact hP (by simp [Raw.breaks, hid])

/-- What ends a scan has no id. -/
theorem id?_of_ends {raw : Raw} (h : raw.ends = true) : raw.id? = none := by
  cases raw with
  | invalid => rfl
  | json v =>
    have hfalse : v.truthy = false := by simpa [Raw.ends] using h
    cases v with
    | obj fields =>
      cases fields with
      | nil => rfl
      | cons e fields => exact absurd hfalse (by simp [Json.truthy])
    | _ => rfl

/-- The channel is read off the id. -/
theorem Raw.channel_eq (raw : Raw) : raw.channel = raw.id?.bind Json.toKey := by
  cases raw with
  | invalid => rfl
  | json v => rfl

/-- The jobs of one queue are jobs for one operation. -/
theorem filterMap_controlJob {q : Queue} {op : Op} (hq : q.op? = some op) (raws : List Raw) :
    (raws.map (Prod.mk q)).filterMap controlJob =
      (raws.filterMap Raw.channel).map (Prod.mk op) := by
  rw [List.filterMap_map, List.map_filterMap]
  congr 1
  funext raw
  simp [controlJob, hq]

/-- One list of control jobs is added to the batch. -/
theorem wp_popOps_scan {Q : IngestWorker.Batch → ℕ → World → Prop} (ho : PopsLive o) {q : Queue}
    {op : Op} (hq : q.op? = some op) (batch : IngestWorker.Batch)
    (hQ : ∀ n', (scan o q n (w.lists q)).2 = some n' →
      Q ((((scan o q n (w.lists q)).1.map (Prod.mk q)).filterMap controlJob).foldl
        (fun batch e => batch.add e.2 e.1) batch) n' (w.takeOff q (scan o q n (w.lists q)).1))
    (hE : (scan o q n (w.lists q)).2 = none → ∀ e n',
      E e n' (w.takeOff q (scan o q n (w.lists q)).1)) :
    wp o (IngestWorker.popAll q (IngestWorker.collectOp op) batch) Q E C n w := by
  have hreset : q ≠ .etr290Reset := by
    rintro rfl
    exact absurd hq (by simp [Queue.op?])
  refine wp_popAll_scan (I := fun done acc => acc = ((done.filterMap Raw.channel).map
    (Prod.mk op)).foldl (fun batch e => batch.add e.2 e.1) batch) ho ?_ ?_ rfl ?_ hE
  · rintro done acc v n w P hv rfl hP hE
    refine wp_collectOp_cases hreset op hv _ (fun hb => hP hb _ ?_) hE
    rw [List.filterMap_append, List.map_append, List.foldl_append]
    congr 2
  · rintro done acc raw hends rfl
    have hnone : raw.channel = none := by rw [Raw.channel_eq, id?_of_ends hends]; rfl
    rw [List.filterMap_append, List.filterMap_cons_none hnone, List.filterMap_nil, List.append_nil]
  · rintro acc' n' hn' rfl
    rw [← filterMap_controlJob hq]
    exact hQ n' hn'

/-- The resets of the last list. -/
theorem wp_popResets_scan {Q : List Json → ℕ → World → Prop} (ho : PopsLive o)
    (hQ : ∀ n', (scan o .etr290Reset n (w.lists .etr290Reset)).2 = some n' →
      Q ((scan o .etr290Reset n (w.lists .etr290Reset)).1.filterMap Raw.id?) n'
        (w.takeOff .etr290Reset (scan o .etr290Reset n (w.lists .etr290Reset)).1))
    (hE : (scan o .etr290Reset n (w.lists .etr290Reset)).2 = none → ∀ e n',
      E e n' (w.takeOff .etr290Reset (scan o .etr290Reset n (w.lists .etr290Reset)).1)) :
    wp o (IngestWorker.popAll .etr290Reset IngestWorker.collectReset []) Q E C n w := by
  refine wp_popAll_scan (I := fun done acc => acc = done.filterMap Raw.id?) ho ?_ ?_ rfl ?_ hE
  · rintro done acc v n w P hv rfl hP hE
    refine wp_collectReset_cases hv _ (fun hb => hP hb _ ?_) hE
    rw [List.filterMap_append]
    congr 1
  · rintro done acc raw hends rfl
    rw [List.filterMap_append, List.filterMap_cons_none (id?_of_ends hends), List.filterMap_nil,
      List.append_nil]
  · rintro acc' n' hn' rfl
    exact hQ n' hn'

/-- The state after a list of pops. -/
def World.takeOffAll (popped : List (Queue × Raw)) (w : World) (lists : Queue → List Raw) : World :=
  { w with lists := lists, trace := w.trace ++ popped.map fun e => Event.popped e.1 e.2 }

/-- Where the popping is: `qs` are the lists still to do, from call `n` on. -/
structure Collecting (o : Oracle Call) (w : World) (qs : List Queue) (done : List (Queue × Raw))
    (n : ℕ) (u : World) : Prop where
  world : u = w.takeOffAll done u.lists
  lists : ∀ q ∈ qs, u.lists q = w.lists q
  popped : done ++ (scanAll o w.lists qs n).1 = w.popped o
  through : (scanAll o w.lists qs n).2 ≠ none ↔ w.PopsThrough o

/-- One queue after the others. -/
theorem takeOff_takeOffAll {u : World} {done : List (Queue × Raw)}
    (h : u = w.takeOffAll done u.lists) (q : Queue) (raws : List Raw) : u.takeOff q raws =
      w.takeOffAll (done ++ raws.map (Prod.mk q)) (u.takeOff q raws).lists := by
  generalize hl : u.lists = lists at h
  subst h
  simp [World.takeOff, World.takeOffAll, Function.comp_def]

variable {q : Queue} {qs : List Queue} {done : List (Queue × Raw)} {u : World}

/-- A queue was emptied, and the next one is asked. -/
theorem Collecting.next (h : Collecting o w (q :: qs) done n u) (hq : q ∉ qs) {n' : ℕ}
    (hn : (scan o q n (u.lists q)).2 = some n') :
    Collecting o w qs (done ++ (scan o q n (u.lists q)).1.map (Prod.mk q)) n'
      (u.takeOff q (scan o q n (u.lists q)).1) := by
  have hlist := h.lists q List.mem_cons_self
  have hall : scanAll o w.lists (q :: qs) n =
      ((scan o q n (u.lists q)).1.map (Prod.mk q) ++ (scanAll o w.lists qs n').1,
        (scanAll o w.lists qs n').2) := by
    rw [scanAll, ← hlist]
    split
    · rename_i raws heq
      rw [heq] at hn
      exact absurd hn (by simp)
    · rename_i raws n'' heq
      rw [heq] at hn ⊢
      obtain rfl := Option.some.inj hn
      rfl
  refine ⟨takeOff_takeOffAll h.world q _, fun q' hq' => ?_, ?_, ?_⟩
  · have hne : q' ≠ q := by
      rintro rfl
      exact hq hq'
    show Function.update u.lists q _ q' = _
    rw [Function.update_of_ne hne]
    exact h.lists q' (List.mem_cons_of_mem _ hq')
  · rw [← h.popped, hall, List.append_assoc]
  · rw [← h.through, hall]

/-- A queue could not be emptied, and that is where it stops. -/
theorem Collecting.stops (h : Collecting o w (q :: qs) done n u)
    (hn : (scan o q n (u.lists q)).2 = none) :
    ¬ w.PopsThrough o ∧ ∃ lists, u.takeOff q (scan o q n (u.lists q)).1 =
      w.takeOffAll (w.popped o) lists := by
  have hall : scanAll o w.lists (q :: qs) n =
      ((scan o q n (u.lists q)).1.map (Prod.mk q), none) := by
    rw [scanAll, ← h.lists q List.mem_cons_self]
    split
    · rename_i raws heq
      rw [heq]
    · rename_i raws n'' heq
      rw [heq] at hn
      exact absurd hn (by simp)
  refine ⟨fun hthrough => h.through.mpr hthrough (by rw [hall]),
    (u.takeOff q (scan o q n (u.lists q)).1).lists, ?_⟩
  rw [← h.popped, hall]
  exact takeOff_takeOffAll h.world q _

/-- All queues were emptied. -/
theorem Collecting.ends (h : Collecting o w [] done n u) :
    w.PopsThrough o ∧ done = w.popped o ∧ u = w.takeOffAll done u.lists :=
  ⟨h.through.mp (by simp [scanAll]), by rw [← h.popped, scanAll, List.append_nil], h.world⟩

/-- The batch of two parts. -/
theorem batchOf_append (as bs : List (Queue × Raw)) : batchOf (as ++ bs) =
    (bs.filterMap controlJob).foldl (fun batch e => batch.add e.2 e.1) (batchOf as) := by
  unfold batchOf
  rw [List.filterMap_append, List.foldl_append]

/-- And their resets. -/
theorem resetIdsOf_append (as bs : List (Queue × Raw)) :
    resetIdsOf (as ++ bs) = resetIdsOf as ++ resetIdsOf bs := List.filterMap_append

/-- What a list that does not hold resets adds. -/
theorem resetIdsOf_map_of_ne {q : Queue} (hq : q ≠ .etr290Reset) (raws : List Raw) :
    resetIdsOf (raws.map (Prod.mk q)) = [] := by
  unfold resetIdsOf
  rw [List.filterMap_map, List.filterMap_eq_nil_iff]
  intro raw _
  exact if_neg hq

/-- Resets are not in the batch. -/
theorem filterMap_controlJob_reset (raws : List Raw) :
    (raws.map (Prod.mk Queue.etr290Reset)).filterMap controlJob = [] := by
  rw [List.filterMap_map, List.filterMap_eq_nil_iff]
  intro raw _
  rfl

/-- The next list holds control jobs. -/
theorem wp_popOps_collecting {Q : IngestWorker.Batch → ℕ → World → Prop} (ho : PopsLive o)
    (h : Collecting o w (q :: qs) done n u) (hids : resetIdsOf done = []) {op : Op}
    (hq : q.op? = some op) (hnot : q ∉ qs)
    (hQ : ∀ done' n' u', Collecting o w qs done' n' u' → resetIdsOf done' = [] →
      Q (batchOf done') n' u')
    (hE : ¬ w.PopsThrough o → ∀ e n' lists, E e n' (w.takeOffAll (w.popped o) lists)) :
    wp o (IngestWorker.popAll q (IngestWorker.collectOp op) (batchOf done)) Q E C n u := by
  have hreset : q ≠ .etr290Reset := by
    rintro rfl
    exact absurd hq (by simp [Queue.op?])
  refine wp_popOps_scan ho hq _ (fun n' hn' => ?_) fun hn e n' => ?_
  · rw [← batchOf_append]
    apply hQ _ n' _ (h.next hnot hn')
    rw [resetIdsOf_append, hids, resetIdsOf_map_of_ne hreset]
    rfl
  · obtain ⟨hno, lists, heq⟩ := h.stops hn
    rw [heq]
    exact hE hno e n' lists

/-- **The first half of a tick, whatever is in the lists.** -/
theorem wp_collectJobs_scan {Q : IngestWorker.Batch × List Json → ℕ → World → Prop}
    (ho : PopsLive o)
    (hQ : ∀ n' lists, w.PopsThrough o → Q (batchOf (w.popped o), resetIdsOf (w.popped o)) n'
      (w.takeOffAll (w.popped o) lists))
    (hE : ¬ w.PopsThrough o → ∀ e n' lists, E e n' (w.takeOffAll (w.popped o) lists)) :
    wp o IngestWorker.collectJobs Q E C 0 w := by
  have hstart : Collecting o w controlQueues [] 0 w := by
    refine ⟨?_, fun _ _ => rfl, rfl, Iff.rfl⟩
    simp [World.takeOffAll]
  unfold IngestWorker.collectJobs
  rw [wp_bind]
  refine wp_popOps_collecting ho hstart rfl rfl (by decide) (fun done₁ n₁ u₁ h₁ hids₁ => ?_) hE
  rw [wp_bind]
  refine wp_popOps_collecting ho h₁ hids₁ rfl (by decide) (fun done₂ n₂ u₂ h₂ hids₂ => ?_) hE
  rw [wp_bind]
  refine wp_popOps_collecting ho h₂ hids₂ rfl (by decide) (fun done₃ n₃ u₃ h₃ hids₃ => ?_) hE
  rw [wp_bind]
  refine wp_popResets_scan ho (fun n₄ hn₄ => ?_) fun hn e n' => ?_
  · obtain ⟨hthrough, hpopped, hworld⟩ := (h₃.next List.not_mem_nil hn₄).ends
    have hbatch : batchOf done₃ = batchOf (w.popped o) := by
      rw [← hpopped, batchOf_append, filterMap_controlJob_reset]
      rfl
    have hids : (scan o .etr290Reset n₃ (u₃.lists .etr290Reset)).1.filterMap Raw.id? =
        resetIdsOf (w.popped o) := by
      rw [← hpopped, resetIdsOf_append, hids₃]
      unfold resetIdsOf
      rw [List.nil_append, List.filterMap_map]
      rfl
    rw [wp_pure, hbatch, hids, hworld, hpopped]
    exact hQ n₄ _ hthrough
  · obtain ⟨hno, lists, heq⟩ := h₃.stops hn
    rw [heq]
    exact hE hno e n' lists

end Collect
