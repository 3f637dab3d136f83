/-
# The catalog pass of a restart

`_catalog_uncataloged_recordings` over jobs and restarts.  The recordings that wait for an asset
are looked up in one order, the newest first; a pass takes the first of them.

* `Archive.waiting`: the recordings that the query would find without its limit;
* `Archive.Adds`: the preorder that jobs keep, new assets of some recordings only;
* `waiting_after`: what is left waiting after a run.
-/
import IngestFarm.AssetMedia
import IngestFarm.Backfill

/-! ## Sorting what is left -/

namespace List

variable {α : Type} {r : α → α → Prop} [DecidableRel r]

/-- Inserting what the filter drops. -/
theorem filter_orderedInsert_of_neg {p : α → Bool} {a : α} (ha : ¬ p a = true) (l : List α) :
    (l.orderedInsert r a).filter p = l.filter p := by
  induction l with
  | nil => exact filter_cons_of_neg ha
  | cons b l ih =>
    rw [orderedInsert]
    split_ifs
    · exact filter_cons_of_neg ha
    · rw [filter_cons, filter_cons, ih]

/-- Inserting what it keeps. -/
theorem filter_orderedInsert_of_pos [IsTrans α r] {p : α → Bool} {a : α} (ha : p a = true)
    {l : List α} (hl : l.Pairwise r) :
    (l.orderedInsert r a).filter p = (l.filter p).orderedInsert r a := by
  induction l with
  | nil => exact filter_cons_of_pos ha
  | cons b l ih =>
    rw [pairwise_cons] at hl
    have hfirst : r a b → ((l.filter p).orderedInsert r a) = a :: l.filter p := by
      intro hab
      cases hf : l.filter p with
      | nil => rfl
      | cons c t =>
        have hc : c ∈ l := mem_of_mem_filter (hf ▸ mem_cons_self)
        rw [orderedInsert, if_pos (trans_of r hab (hl.1 c hc))]
    rw [orderedInsert]
    by_cases hab : r a b
    · rw [if_pos hab, filter_cons_of_pos ha, filter_cons]
      split_ifs
      · rw [orderedInsert, if_pos hab]
      · rw [hfirst hab]
    · rw [if_neg hab, filter_cons, filter_cons, ih hl.2]
      split_ifs
      · rw [orderedInsert, if_neg hab]
      · rfl

/-- **A stable sort of what is left** is what is left of the sort. -/
theorem filter_insertionSort [IsTrans α r] [Std.Total r] (p : α → Bool) (l : List α) :
    (l.filter p).insertionSort r = (l.insertionSort r).filter p := by
  induction l with
  | nil => rfl
  | cons a l ih =>
    rw [insertionSort_cons]
    by_cases ha : p a = true
    · rw [filter_cons_of_pos ha, insertionSort_cons, ih,
        filter_orderedInsert_of_pos ha (pairwise_insertionSort r l)]
    · rw [filter_cons_of_neg ha, ih, filter_orderedInsert_of_neg ha]

/-- Without its first elements a list without duplicates is shorter by them. -/
theorem filter_notMem_take {l : List ℕ} (hl : l.Nodup) (n : ℕ) :
    l.filter (fun x => x ∉ l.take n) = l.drop n := by
  have hsplit : l.take n ++ l.drop n = l := take_append_drop n l
  have hdisjoint : ∀ x ∈ l.drop n, x ∉ l.take n := by
    intro x hx hx'
    rw [← hsplit, nodup_append] at hl
    exact hl.2.2 x hx' x hx rfl
  conv_lhs => rw [← hsplit]
  rw [filter_append, filter_eq_nil_iff.mpr, nil_append, filter_eq_self.mpr]
  · intro x hx
    simpa [hsplit] using hdisjoint x hx
  · intro x hx
    simpa [hsplit] using hx

end List

open Prog

namespace PostProcess

/-- The recordings without asset, the newest first. -/
def Archive.waiting (w : Archive) : List RecordingId :=
  ((w.recordings.entries.filter fun e =>
    e.2.status = .completed ∧ w.assetsOf e.1 = []).insertionSort
      fun e e' => e'.2.startedAt ≤ e.2.startedAt).map Sigma.fst

/-- **The batch of a start** is the first part of what waits. -/
theorem uncataloged_eq (w : Archive) (limit : ℕ) : w.uncataloged limit = w.waiting.take limit :=
  rfl

/-- New assets are of recordings in `P`, and no recording changes. -/
structure Archive.Adds (P : RecordingId → Prop) (w w' : Archive) : Prop where
  recordings : w'.recordings = w.recordings
  kept : ∀ r, w.HasAsset r → w'.HasAsset r
  added : ∀ r, w'.HasAsset r → w.HasAsset r ∨ P r

section Waiting

variable {P : RecordingId → Prop} {w w' w'' : Archive}

namespace Archive.Adds

theorem refl (w : Archive) : w.Adds P w := ⟨rfl, fun _ h => h, fun _ h => Or.inl h⟩

theorem trans (h : w.Adds P w') (h' : w'.Adds P w'') : w.Adds P w'' where
  recordings := h'.recordings.trans h.recordings
  kept := fun r hr => h'.kept r (h.kept r hr)
  added := by
    intro r hr
    rcases h'.added r hr with hr | hP
    · exact h.added r hr
    · exact Or.inr hP

/-- More recordings may get assets. -/
theorem mono {Q : RecordingId → Prop} (h : w.Adds P w') (hPQ : ∀ r, P r → Q r) : w.Adds Q w' :=
  ⟨h.recordings, h.kept, fun r hr => (h.added r hr).imp id (hPQ r)⟩

/-- A change of files only. -/
theorem of_assets (hrec : w'.recordings = w.recordings) (hassets : w'.assets = w.assets) :
    w.Adds P w' := by
  have hiff : ∀ r, w'.HasAsset r ↔ w.HasAsset r := by
    intro r
    unfold HasAsset
    rw [hassets]
  exact ⟨hrec, fun r hr => (hiff r).mpr hr, fun r hr => Or.inl ((hiff r).mp hr)⟩

/-- Adding assets is a frame of the file operations. -/
theorem filesFrame : FilesFrame (Archive.Adds P) where
  refl := refl
  trans := fun _ _ _ h h' => h.trans h'
  put := fun _ _ _ _ => of_assets rfl rfl
  append := fun _ _ _ _ => of_assets rfl rfl
  setDerived := fun _ _ _ _ => of_assets rfl rfl
  eraseThumbnail := fun _ _ => of_assets rfl rfl

/-- One asset more. -/
theorem addAsset {a : Asset} (ha : P a.recordingId) (w : Archive) : w.Adds P (w.addAsset a) := by
  refine ⟨rfl, fun r hr => ?_, fun r hr => ?_⟩
  · obtain ⟨b, hb, hbr⟩ := hr
    exact ⟨b, List.mem_append_left _ hb, hbr⟩
  · obtain ⟨b, hb, rfl⟩ := hr
    rcases List.mem_append.mp hb with hb | hb
    · exact Or.inl ⟨b, hb, rfl⟩
    · rw [List.mem_singleton.mp hb]
      exact Or.inr ha

/-- An asset stays that of its recording. -/
theorem updateAsset {r : RecordingId} {f : Asset → Asset}
    (hf : ∀ a : Asset, (f a).recordingId = a.recordingId) (w : Archive) :
    w.Adds P (w.updateAsset r f) := by
  have hid : ∀ a : Asset, (if a.recordingId = r then f a else a).recordingId = a.recordingId := by
    intro a
    split_ifs
    · exact hf a
    · rfl
  refine ⟨rfl, fun r' hr' => ?_, fun r' hr' => Or.inl ?_⟩
  · obtain ⟨a, ha, rfl⟩ := hr'
    exact ⟨_, List.mem_map_of_mem ha, hid a⟩
  · obtain ⟨b, hb, rfl⟩ := hr'
    obtain ⟨a, ha, rfl⟩ := List.mem_map.mp hb
    exact ⟨a, ha, (hid a).symm⟩

end Archive.Adds

/-! ## Programs -/

open Prog.Keeps

variable {encode : Tool → Bytes → List (String × Bytes)} {o : Oracle ArchiveCall} {n : ℕ}

/-- The tools write files only. -/
theorem adds_deriveMedia (master : MediaPath) (a : Asset) : Prog.Keeps (Archive.Adds P)
    (fun found => found.recordingId = a.recordingId) (deriveMedia encode master a) := by
  have hF : FilesFrame (Archive.Adds P) := Archive.Adds.filesFrame
  have htool : ∀ tool : Tool, Prog.Keeps (Archive.Adds P) (fun _ => True)
      (tryGenerate encode tool master) := by
    intro tool
    unfold tryGenerate generate
    refine Prog.Keeps.attempt hF.toFrame ?_ fun _ => Prog.Keeps.pure hF.toFrame trivial
    refine seq hF.toFrame ?_ fun _ => Prog.Keeps.pure hF.toFrame trivial
    refine read hF.toFrame fun data => ?_
    refine seq hF.toFrame (hF.clear tool master.dir) fun _ => ?_
    refine seq hF.toFrame (hF.write master.dir _) fun _ => ?_
    refine seq hF.toFrame (Prog.Keeps.call hF.toFrame _ _) fun _ => ?_
    refine read hF.toFrame fun written => ?_
    exact ite (fun _ => Prog.Keeps.raise hF.toFrame _)
      fun _ => Prog.Keeps.pure hF.toFrame trivial
  unfold deriveMedia
  refine read hF.toFrame fun data => ?_
  refine ite (fun _ => Prog.Keeps.pure hF.toFrame rfl) fun _ => ?_
  refine seq hF.toFrame (htool .proxy) fun proxy => ?_
  refine seq hF.toFrame (htool .thumbnail) fun thumb => ?_
  exact Prog.Keeps.pure hF.toFrame rfl

/-- **A job** adds an asset of its own recording at most. -/
theorem adds_process {r : RecordingId} (hr : P r) :
    Prog.Keeps (Archive.Adds P) (fun _ => True) (process encode r) := by
  have hF : FilesFrame (Archive.Adds P) := Archive.Adds.filesFrame
  have hcreate : ∀ a : Asset, a.recordingId = r →
      Prog.Keeps (Archive.Adds P) (fun _ => True) (createAsset a) := by
    intro a ha
    unfold createAsset
    refine seq hF.toFrame (hF.oneOrNone _) fun existing => ?_
    refine ite (fun _ => Prog.Keeps.pure hF.toFrame trivial) fun _ => ?_
    refine seq hF.toFrame (Prog.Keeps.call hF.toFrame _ _) fun _ => ?_
    refine read hF.toFrame fun allowed => ?_
    exact ite (fun _ => Prog.Keeps.modify fun w => .addAsset (ha ▸ hr) w)
      fun _ => Prog.Keeps.raise hF.toFrame _
  unfold process
  refine seq hF.toFrame (hF.loadRecording r) fun loaded => ?_
  cases loaded with
  | none => exact Prog.Keeps.pure hF.toFrame trivial
  | some dir =>
    refine read hF.toFrame fun segments => ?_
    cases segments with
    | nil => exact hcreate _ rfl
    | cons seg rest =>
      unfold catalogSegments
      refine seq hF.toFrame (hF.masterOf dir seg rest) fun name => ?_
      refine seq hF.toFrame (Prog.Keeps.attempt hF.toFrame (Prog.Keeps.call hF.toFrame _ _)
        fun _ => Prog.Keeps.pure hF.toFrame trivial) fun _ => ?_
      exact Prog.Keeps.bind hF.toFrame (adds_deriveMedia _ _) fun found hfound =>
        hcreate found hfound

/-- The backfill adds no asset. -/
theorem adds_backfillMissingMedia : Prog.Keeps (Archive.Adds P) (fun _ => True)
    (backfillMissingMedia encode) := by
  have hF : FilesFrame (Archive.Adds P) := Archive.Adds.filesFrame
  have hcommit : ∀ (r : RecordingId) (f : Asset → Asset), (∀ a, (f a).recordingId =
      a.recordingId) → Prog.Keeps (Archive.Adds P) (fun _ => True) (do
        call .query .database
        call .commit .database
        modify (Archive.updateAsset r f) : Job Unit) := by
    intro r f hf
    refine seq hF.toFrame (Prog.Keeps.call hF.toFrame _ _) fun _ => ?_
    refine seq hF.toFrame (Prog.Keeps.call hF.toFrame _ _) fun _ => ?_
    exact Prog.Keeps.modify fun w => .updateAsset hf w
  unfold backfillMissingMedia
  refine seq hF.toFrame (hF.select fun _ => trivial) fun pending => ?_
  refine Prog.Keeps.each hF.toFrame (fun a => ?_) pending
  unfold backfillAsset
  refine read hF.toFrame fun data => ?_
  refine ite (fun _ => hcommit _ _ fun _ => rfl) fun _ => ?_
  refine seq hF.toFrame ((adds_deriveMedia _ _).mono fun _ _ => trivial) fun found => ?_
  exact hcommit _ _ fun _ => rfl

/-! ## What is left waiting -/

/-- A recording waits once. -/
theorem nodup_waiting (w : Archive) : w.waiting.Nodup := by
  unfold Archive.waiting
  have hperm := (List.perm_insertionSort (fun e e' : Sigma fun _ : RecordingId => Recording =>
    e'.2.startedAt ≤ e.2.startedAt) (w.recordings.entries.filter fun e =>
      e.2.status = .completed ∧ w.assetsOf e.1 = [])).map Sigma.fst
  rw [hperm.nodup_iff]
  exact List.NodupKeys.sublist List.filter_sublist w.recordings.nodupKeys

/-- It waits if it is completed and has no asset. -/
theorem mem_waiting {r : RecordingId} : r ∈ w.waiting ↔
    ∃ row, w.recordings.lookup r = some row ∧ row.status = .completed ∧ ¬ w.HasAsset r := by
  unfold Archive.waiting
  simp only [List.mem_map, List.mem_insertionSort, List.mem_filter, decide_eq_true_eq,
    assetsOf_eq_nil]
  constructor
  · rintro ⟨⟨i, row⟩, ⟨hmem, hrow⟩, rfl⟩
    exact ⟨row, Dict.mem_entries_iff.mp hmem, hrow⟩
  · rintro ⟨row, hmem, hrow⟩
    exact ⟨⟨r, row⟩, ⟨Dict.mem_entries_iff.mpr hmem, hrow⟩, rfl⟩

/-- **What a step leaves waiting** are those of before that have no asset now, in their order. -/
theorem Archive.Adds.waiting (h : w.Adds P w') :
    w'.waiting = w.waiting.filter fun r => w'.assetsOf r = [] := by
  have htotal : Std.Total fun e e' : Sigma fun _ : RecordingId => Recording =>
      e'.2.startedAt ≤ e.2.startedAt := ⟨fun e e' => Nat.le_total _ _⟩
  have htrans : IsTrans (Sigma fun _ : RecordingId => Recording) fun e e' =>
      e'.2.startedAt ≤ e.2.startedAt := ⟨fun _ _ _ h h' => h'.trans h⟩
  have hfilter : (w'.recordings.entries.filter fun e =>
      e.2.status = .completed ∧ w'.assetsOf e.1 = []) =
      (w.recordings.entries.filter fun e => e.2.status = .completed ∧ w.assetsOf e.1 = []).filter
        fun e => w'.assetsOf e.1 = [] := by
    rw [h.recordings, List.filter_filter]
    apply List.filter_congr
    intro e _
    have hkept : w'.assetsOf e.1 = [] → w.assetsOf e.1 = [] := by
      rw [assetsOf_eq_nil, assetsOf_eq_nil]
      exact fun hno hhas => hno (h.kept e.1 hhas)
    rw [← Bool.decide_and, decide_eq_decide]
    exact ⟨fun hc => ⟨hc.2, hc.1, hkept hc.2⟩, fun hc => ⟨hc.2.1, hc.1⟩⟩
  unfold Archive.waiting
  rw [hfilter, List.filter_insertionSort, List.filter_map]
  rfl

/-- A step leaves fewer waiting, in the same order. -/
theorem Archive.Adds.waiting_sublist (h : w.Adds P w') : w'.waiting.Sublist w.waiting := by
  rw [h.waiting]
  exact List.filter_sublist

/-- Nothing fails and the process is not killed. -/
def Smooth (o : Oracle ArchiveCall) : Prop := ¬ Failing o ∧ ¬ MayCrash o

variable {w₀ : Archive}

/-- **A smooth catalog pass** gives each recording of its batch an asset. -/
theorem wp_catalog_smooth (ho : Smooth o) (h : Consistent w₀ w) :
    wp o (catalogUncatalogedRecordings encode)
      (fun _ _ w' => Consistent w₀ w' ∧ w.Adds (· ∈ w.uncataloged backfillBatch) w' ∧
        ∀ r ∈ w.uncataloged backfillBatch, w'.HasAsset r)
      (fun _ _ _ => False) (fun _ => False) n w := by
  -- A smooth run ends in no exception and no kill, so only the ordinary outcome is left.
  have hsmooth : ∀ {α : Type} {m : Job α} {Q : α → Archive → Prop} {n : ℕ} {w : Archive},
      Keeps o w₀ m Q n w →
        wp o m (fun a _ w' => Q a w') (fun _ _ _ => False) (fun _ => False) n w :=
    fun hm => wp_mono hm (fun _ _ _ hq => hq) (fun _ _ _ he => ho.1 he.2) fun _ hc => ho.2 hc.2
  unfold catalogUncatalogedRecordings
  rw [wp_bind]
  refine wp_mono (hsmooth (keeps_select h)) ?_ (fun _ _ _ h => h) (fun _ h => h)
  rintro ids n₁ w₁ ⟨rfl, rfl⟩
  -- `done` are the recordings of the batch that have had their turn, in order.
  refine wp_each (I := fun todo w' => Consistent w₀ w' ∧
    w₁.Adds (· ∈ w₁.uncataloged backfillBatch) w' ∧
      ∃ done, w₁.uncataloged backfillBatch = done ++ todo ∧ ∀ r ∈ done, w'.HasAsset r)
    ?_ ?_ _ n₁ w₁ ⟨h, .refl w₁, [], rfl, fun _ hr => absurd hr List.not_mem_nil⟩
  · rintro r todo n w' ⟨hc, hadds, done, hsplit, hdone⟩
    have hmem : r ∈ w₁.uncataloged backfillBatch := by
      rw [hsplit]
      simp
    obtain ⟨row, hrow, -, -⟩ := mem_waiting.mp (List.mem_of_mem_take
      ((uncataloged_eq w₁ backfillBatch) ▸ hmem))
    have hrec : r ∈ w₀.recordings := by
      rw [← h.recordings]
      exact Dict.mem_iff_exists_lookup.mpr ⟨row, hrow⟩
    rw [wp_attempt]
    refine wp_mono (wp_and (hsmooth (keeps_process hc))
      (adds_process (P := (· ∈ w₁.uncataloged backfillBatch)) hmem o n w')) ?_
      (fun _ _ _ hf => hf.1.elim) (fun _ hf => hf.1.elim)
    rintro _ n₂ w₂ ⟨⟨hc₂, hhas⟩, hadds₂, -⟩
    refine ⟨hc₂, hadds.trans hadds₂, done ++ [r], by rw [hsplit, List.append_assoc]; rfl, ?_⟩
    intro r' hr'
    rcases List.mem_append.mp hr' with hr' | hr'
    · exact hadds₂.kept r' (hdone r' hr')
    · rw [List.mem_singleton.mp hr']
      exact hhas hrec
  · rintro n w' ⟨hc, hadds, done, hsplit, hdone⟩
    rw [List.append_nil] at hsplit
    exact ⟨hc, hadds, fun r hr => hdone r (hsplit ▸ hr)⟩

/-- **A smooth restart** takes the batch off the recordings that wait. -/
theorem waiting_restart (ho : Smooth o) (h : Consistent w₀ w) :
    (final o (startupPasses encode) w).waiting = w.waiting.drop backfillBatch := by
  refine final_of_wp (P := fun w' : Archive => w'.waiting = w.waiting.drop backfillBatch) ?_
  unfold startupPasses
  rw [wp_bind]
  refine wp_mono (wp_catalog_smooth ho h) ?_ (fun _ _ _ hf => hf.elim) fun _ hf => hf.elim
  rintro _ n₁ w₁ ⟨hc, hadds, hall⟩
  have hfirst : w₁.waiting = w.waiting.drop backfillBatch := by
    rw [hadds.waiting, ← List.filter_notMem_take (nodup_waiting w)]
    apply List.filter_congr
    intro r hr
    obtain ⟨_, _, _, hno⟩ := mem_waiting.mp hr
    rw [decide_eq_decide, assetsOf_eq_nil, ← uncataloged_eq]
    exact ⟨fun hnone hmem => hnone (hall r hmem),
      fun hmem hhas => (hadds.added r hhas).elim hno hmem⟩
  -- The backfill comes second, and however it ends it adds no asset.
  have hsecond : ∀ {w' : Archive}, w₁.Adds (fun _ => False) w' →
      w'.waiting = w.waiting.drop backfillBatch := by
    intro w' hw'
    rw [hw'.waiting, hfirst, List.filter_eq_self]
    intro r hr
    rw [← hfirst] at hr
    obtain ⟨_, _, _, hno⟩ := mem_waiting.mp hr
    rw [decide_eq_true_eq, assetsOf_eq_nil]
    exact fun hhas => (hw'.added r hhas).elim hno id
  exact wp_mono (adds_backfillMissingMedia o n₁ w₁) (fun _ _ _ hw => hsecond hw.1)
    (fun _ _ _ hw => hsecond hw) fun _ hw => hsecond hw

end Waiting

/-- **What is left waiting after a run**: jobs may fail or be killed anywhere, and each smooth
restart takes the newest five off; nothing else is added. -/
theorem waiting_after (encode : Tool → Bytes → List (String × Bytes)) {w₀ w : Archive}
    (h : Consistent w₀ w) (as : List (Arrival × Oracle ArchiveCall))
    (has : ∀ a ∈ as, a.1 = .restart → Smooth a.2) :
    (w.after encode as).waiting.Sublist (w.waiting.drop (backfillBatch * restarts as)) := by
  induction as generalizing w with
  | nil => exact List.Sublist.refl _
  | cons a as ih =>
    obtain ⟨arrival, o⟩ := a
    have hnext : Consistent w₀ (final o (arrival.program encode) w) := h.arrival arrival o
    have hrest := ih hnext fun a ha => has a (List.mem_cons_of_mem _ ha)
    cases arrival with
    | job r =>
      have hjob : (final o (process encode r) w).waiting.Sublist w.waiting :=
        (adds_process (P := fun _ => True) trivial).final.waiting_sublist
      exact hrest.trans (hjob.drop _)
    | restart =>
      -- Five are taken off now, the rest by the restarts that follow.
      have hcount : restarts ((.restart, o) :: as) = restarts as + 1 := by
        unfold restarts
        exact List.countP_cons_of_pos rfl
      have hfirst : (final o (startupPasses encode) w).waiting = w.waiting.drop backfillBatch :=
        waiting_restart (has (.restart, o) List.mem_cons_self rfl) h
      have hrest : (Archive.after encode (final o (startupPasses encode) w) as).waiting.Sublist
          ((final o (startupPasses encode) w).waiting.drop (backfillBatch * restarts as)) :=
        hrest
      rw [hfirst, List.drop_drop] at hrest
      rw [hcount, Nat.mul_succ, Nat.add_comm]
      exact hrest

/-- **Restarts catalog everything**: after enough smooth restarts, with jobs of any outcome in
between, every completed recording has an asset. -/
theorem restarts_catalog_everything (encode : Tool → Bytes → List (String × Bytes))
    {w : Archive} (hone : (w.assets.map Asset.recordingId).Nodup) (hnew : w.created = [])
    (as : List (Arrival × Oracle ArchiveCall)) (has : ∀ a ∈ as, a.1 = .restart → Smooth a.2) :
    (w.after encode as).waiting.Sublist (w.waiting.drop (backfillBatch * restarts as)) ∧
      (w.waiting.length ≤ backfillBatch * restarts as →
        ∀ r row, (w.after encode as).recordings.lookup r = some row → row.status = .completed →
          (w.after encode as).HasAsset r) := by
  have hleft := waiting_after encode (consistent_self hone hnew) as has
  refine ⟨hleft, fun henough r row hrow hdone => ?_⟩
  rw [List.drop_eq_nil_of_le henough, List.sublist_nil] at hleft
  by_contra hno
  have hmem : r ∈ (w.after encode as).waiting := mem_waiting.mpr ⟨row, hrow, hdone, hno⟩
  rw [hleft] at hmem
  exact absurd hmem List.not_mem_nil

/-- A job that fails, and a restart. -/
theorem restarts_catalog_everything_once :
    (interrupted.after (fun _ _ => []) [(.job 0, fun _ _ => .fail), (.restart, allOk)]).HasAsset
      0 := by
  have hrestart : ∀ a ∈ [((.job 0, fun _ _ => .fail) : Arrival × Oracle ArchiveCall),
      (.restart, allOk)], a.1 = .restart → Smooth a.2 := by
    intro a ha hr
    rw [List.mem_cons, List.mem_singleton] at ha
    rcases ha with rfl | rfl
    · exact absurd hr (by simp)
    · exact ⟨fun ⟨_, _, hf⟩ => absurd hf (by simp [allOk]),
        fun ⟨_, _, hc⟩ => absurd hc (by simp [allOk])⟩
  have hall := restarts_catalog_everything (fun _ _ => []) (w := interrupted) List.nodup_nil rfl
    [(.job 0, fun _ _ => .fail), (.restart, allOk)] hrestart
  have hkept : (interrupted.after (fun _ _ => [])
      [(.job 0, fun _ _ => .fail), (.restart, allOk)]).recordings = interrupted.recordings :=
    ((consistent_self (w := interrupted) List.nodup_nil rfl).after _).recordings
  refine hall.2 (by decide) 0 _ (by rw [hkept]; rfl) rfl

end PostProcess
