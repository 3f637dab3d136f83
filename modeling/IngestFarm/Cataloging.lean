/-
# Cataloging is repeatable

Jobs, crashes, failures and restarts in any order and number: a recording gets at most one
asset, a job for a cataloged recording does nothing, and what is cataloged is what one
uninterrupted run on the first archive would have cataloged.  The invariant `Consistent`
says that the worker writes only files that are not listed as segments (`master.ts` and
those below `derived/`), so that every attempt finds the segments of the first one.
-/
import IngestFarm.Catalog

open Prog

namespace PostProcess

/-- The contents of a file that is listed. -/
def Directory.content (d : Directory) (name : String) : Bytes := (d.files.lookup name).getD []

/-- The media of a directory in one piece, if it has segments. -/
def Directory.merged (d : Directory) : Option Bytes :=
  if d.listSegments = [] then none else some (d.listSegments.flatMap d.content)

/-- What is to be cataloged for a recording. -/
def Archive.expected (w : Archive) (r : RecordingId) (row : Recording) : Cataloged :=
  ⟨r, (w.media row.storagePath).listSegments.length, (w.media row.storagePath).merged⟩

/-- A recording has an asset. -/
def Archive.HasAsset (w : Archive) (r : RecordingId) : Prop := ∃ a ∈ w.assets, a.recordingId = r

/-- The environment makes a call fail at some time. -/
def Failing (o : Oracle ArchiveCall) : Prop := ∃ n k, o n k = .fail

/-- The archive after any of the worker's steps, seen from the first archive `w₀`. -/
structure Consistent (w₀ w : Archive) : Prop where
  /-- The rows of recordings stay. -/
  recordings : w.recordings = w₀.recordings
  /-- Every directory lists the segments that it listed at first. -/
  listed : ∀ dir, (w.media dir).listSegments = (w₀.media dir).listSegments
  /-- Their contents stay. -/
  contents : ∀ dir name, isSegmentName name = true →
    (w.media dir).files.lookup name = (w₀.media dir).files.lookup name
  /-- A recording has at most one asset. -/
  unique : (w.assets.map Asset.recordingId).Nodup
  /-- An asset stays. -/
  kept : ∀ r, w₀.HasAsset r → w.HasAsset r
  /-- What was cataloged is what one uninterrupted run would have. -/
  created : ∀ e ∈ w.created, ∃ row, w₀.recordings.lookup e.recordingId = some row ∧
    ¬ w₀.HasAsset e.recordingId ∧ e = w₀.expected e.recordingId row
  /-- An asset was there at first, or was cataloged since. -/
  assets : ∀ a ∈ w.assets, w₀.HasAsset a.recordingId ∨
    ∃ e ∈ w.created, e.recordingId = a.recordingId ∧ e.segmentCount = a.segmentCount

/-- Two archives that differ below `derived/` only. -/
structure SameFiles (w w' : Archive) : Prop where
  /-- The rows of recordings are the same. -/
  recordings : w'.recordings = w.recordings
  /-- So are the assets. -/
  assets : w'.assets = w.assets
  /-- Nothing was cataloged. -/
  created : w'.created = w.created
  /-- Nothing was written outside `derived/`. -/
  files : ∀ dir, (w'.media dir).files = (w.media dir).files

/-! ## Segments -/

/-- The master is no segment. -/
theorem not_isSegmentName_master : isSegmentName masterName = false := by decide

/-- The segments of a directory. -/
theorem mem_listSegments {d : Directory} {name : String} :
    name ∈ d.listSegments ↔ isSegmentName name = true ∧ name ∈ d.files := by
  unfold Directory.listSegments
  rw [List.mem_insertionSort, List.mem_filter, AList.mem_keys, and_comm]

/-- Writing the master does not change what is listed. -/
@[simp] theorem listSegments_put_master (d : Directory) (data : Bytes) :
    (d.put masterName data).listSegments = d.listSegments := by
  unfold Directory.listSegments Directory.put
  rw [Dict.filter_keys_set not_isSegmentName_master]

/-- A file that is put replaces the one of its name. -/
theorem lookup_put {d : Directory} {name other : String} {data : Bytes} :
    (d.put name data).files.lookup other = if other = name then some data
      else d.files.lookup other :=
  Dict.lookup_set _ _ _ _

/-- The pieces that are read make up the file. -/
theorem flatten_chunks {α : Type} (k : ℕ) :
    ∀ (fuel : ℕ) (l : List α), l.length ≤ fuel → (chunks k fuel l).flatten = l := by
  intro fuel
  induction fuel with
  | zero =>
    intro l hl
    have hnil : l = [] := List.length_eq_zero_iff.mp (by omega)
    rw [hnil]
    rfl
  | succ fuel ih =>
    intro l hl
    cases l with
    | nil => rfl
    | cons x xs =>
      have hrest : (xs.drop k).length ≤ fuel := by
        rw [List.length_cons] at hl
        rw [List.length_drop]
        omega
      show (x :: xs.take k) ++ (chunks k fuel (xs.drop k)).flatten = x :: xs
      rw [ih _ hrest, List.cons_append, List.take_append_drop]

/-! ## Changes that keep the invariant -/

namespace SameFiles

variable {w w' w'' : Archive}

@[refl] theorem refl (w : Archive) : SameFiles w w := ⟨rfl, rfl, rfl, fun _ => rfl⟩

theorem trans (h : SameFiles w w') (h' : SameFiles w' w'') : SameFiles w w'' where
  recordings := h'.recordings.trans h.recordings
  assets := h'.assets.trans h.assets
  created := h'.created.trans h.created
  files := fun dir => (h'.files dir).trans (h.files dir)

/-- A change below `derived/`. -/
theorem derived (w : Archive) (dir : SessionDir) (f : Dict String Bytes → Dict String Bytes) :
    SameFiles w (w.update dir fun d => { d with derived := f d.derived }) := by
  refine ⟨rfl, rfl, rfl, fun other => ?_⟩
  show (Function.update w.media dir _ other).files = _
  by_cases h : other = dir
  · subst h
    rw [Function.update_self]
  · rw [Function.update_of_ne h]

/-- What a path holds. -/
theorem bytesAt (h : SameFiles w w') (path : MediaPath) : w'.bytesAt path = w.bytesAt path := by
  unfold Archive.bytesAt
  rw [h.files]

end SameFiles

namespace Consistent

variable {w₀ w w' : Archive}

/-- An archive with the same files is as consistent. -/
theorem of_sameFiles (h : Consistent w₀ w) (hs : SameFiles w w') : Consistent w₀ w' := by
  have hlist : ∀ dir, (w'.media dir).listSegments = (w.media dir).listSegments := by
    intro dir
    unfold Directory.listSegments
    rw [hs.files]
  constructor
  · rw [hs.recordings, h.recordings]
  · intro dir
    rw [hlist, h.listed]
  · intro dir name hname
    rw [hs.files, h.contents dir name hname]
  · rw [hs.assets]
    exact h.unique
  · intro r hr
    unfold Archive.HasAsset
    rw [hs.assets]
    exact h.kept r hr
  · rw [hs.created]
    exact h.created
  · rw [hs.assets, hs.created]
    exact h.assets

/-- Writing the master keeps the invariant. -/
theorem put_master (h : Consistent w₀ w) (dir : SessionDir) (data : Bytes) :
    Consistent w₀ (w.update dir (Directory.put masterName data)) := by
  have hmedia : ∀ other, (w.update dir (Directory.put masterName data)).media other =
      if other = dir then (w.media dir).put masterName data else w.media other := by
    intro other
    show Function.update w.media dir _ other = _
    by_cases ho : other = dir
    · subst ho
      rw [Function.update_self, if_pos rfl]
    · rw [Function.update_of_ne ho, if_neg ho]
  refine ⟨h.recordings, fun other => ?_, fun other name hname => ?_, h.unique, h.kept, h.created,
    h.assets⟩
  · rw [hmedia, ← h.listed other]
    by_cases ho : other = dir
    · rw [if_pos ho, listSegments_put_master, ho]
    · rw [if_neg ho]
  · have hne : name ≠ masterName := by
      rintro rfl
      exact absurd hname (by rw [not_isSegmentName_master]; decide)
    rw [hmedia, ← h.contents other name hname]
    by_cases ho : other = dir
    · rw [if_pos ho, lookup_put, if_neg hne, ho]
    · rw [if_neg ho]

/-- What is listed has the contents it had. -/
theorem content (h : Consistent w₀ w) {dir : SessionDir} {name : String}
    (hname : name ∈ (w₀.media dir).listSegments) :
    (w.media dir).files.lookup name = some ((w₀.media dir).content name) := by
  obtain ⟨hseg, hmem⟩ := mem_listSegments.mp hname
  obtain ⟨data, hdata⟩ := Dict.mem_iff_exists_lookup.mp hmem
  unfold Directory.content
  rw [h.contents dir name hseg, hdata, Option.getD_some]

end Consistent

/-! ## The master -/

/-- The invariant, with `x` in the master of `dir`. -/
structure Holding (w₀ : Archive) (dir : SessionDir) (x : Bytes) (w : Archive) : Prop where
  consistent : Consistent w₀ w
  master : (w.media dir).files.lookup masterName = some x

section Programs

variable {w₀ w : Archive} {o : Oracle ArchiveCall} {n : ℕ} {dir : SessionDir} {x : Bytes}
  {r : RecordingId}

/-- The master is opened, and holds nothing at first. -/
theorem Holding.of_consistent (h : Consistent w₀ w) (dir : SessionDir) (data : Bytes) :
    Holding w₀ dir data (w.update dir (Directory.put masterName data)) := by
  refine ⟨h.put_master dir data, ?_⟩
  show (Function.update w.media dir _ dir).files.lookup masterName = _
  rw [Function.update_self, lookup_put, if_pos rfl]

/-- It grows byte by byte. -/
theorem Holding.append (h : Holding w₀ dir x w) (b : UInt8) :
    Holding w₀ dir (x ++ [b]) (w.update dir (Directory.append masterName b)) := by
  have hw := Holding.of_consistent h.consistent dir (x ++ [b])
  have heq : w.update dir (Directory.append masterName b) =
      w.update dir (Directory.put masterName (x ++ [b])) := by
    unfold Archive.update Directory.append
    rw [h.master, Option.getD_some]
  rw [heq]
  exact hw

/-- A program that keeps the invariant, however it ends. -/
def Keeps (o : Oracle ArchiveCall) (w₀ : Archive) {α : Type} (m : Job α)
    (Q : α → Archive → Prop) (n : ℕ) (w : Archive) : Prop :=
  wp o m (fun a _ w' => Q a w') (fun _ _ w' => Consistent w₀ w' ∧ Failing o)
    (fun w' => Consistent w₀ w' ∧ MayCrash o) n w

/-- A call that fails leaves what was there. -/
theorem keeps_call {k : ArchiveCall} {e : ArchiveError} {Q : Unit → Archive → Prop}
    (h : Consistent w₀ w) (hQ : Q () w) : Keeps o w₀ (call k e) Q n w := by
  unfold Keeps
  rw [wp_call]
  exact ⟨fun _ => hQ, fun hf => ⟨h, n, k, hf⟩, fun hc => ⟨h, n, k, hc⟩⟩

/-- One step after another. -/
theorem keeps_bind {α β : Type} {m : Job β} {f : β → Job α} {Q : α → Archive → Prop}
    {R : β → Archive → Prop} (hm : Keeps o w₀ m R n w)
    (hf : ∀ b n' w', R b w' → Keeps o w₀ (f b) Q n' w') : Keeps o w₀ (m >>= f) Q n w := by
  unfold Keeps at hm ⊢
  rw [wp_bind]
  exact wp_mono hm hf (fun _ _ _ h => h) (fun _ h => h)

/-- A loop, by what holds before each of its rounds. -/
theorem keeps_each {β : Type} {v : Archive} {f : β → Job Unit} {I : List β → Archive → Prop}
    (hstep : ∀ x xs n w, I (x :: xs) w → Keeps o v (f x) (fun _ w' => I xs w') n w)
    (xs : List β) (n : ℕ) (w : Archive) (h : I xs w) :
    Keeps o v (each f xs) (fun _ w' => I [] w') n w :=
  wp_each (I := I) hstep (fun _ _ h => h) xs n w h

/-- A query. -/
theorem keeps_select {α : Type} {f : Archive → α} (h : Consistent w₀ w) :
    Keeps o w₀ (select f) (fun a w' => a = f w ∧ w' = w) n w := by
  unfold select
  exact keeps_bind (R := fun _ w' => w' = w) (keeps_call h rfl) fun _ n' w' hw => by
    rw [hw]
    exact ⟨rfl, rfl⟩

/-- A chunk is added to the master. -/
theorem keeps_writeChunk (h : Holding w₀ dir x w) (data : Bytes) :
    Keeps o w₀ (writeChunk dir masterName data)
      (fun _ w' => Holding w₀ dir (x ++ data) w') n w := by
  unfold writeChunk
  have hloop := keeps_each (o := o) (v := w₀) (f := fun b => do
      call .write .io
      modify (Archive.update dir (Directory.append masterName b)))
    (I := fun xs w => ∃ ys, data = ys ++ xs ∧ Holding w₀ dir (x ++ ys) w)
    (fun b xs n w ⟨ys, hdata, hw⟩ => by
      refine keeps_bind (R := fun _ w' => w' = w) (keeps_call hw.consistent rfl) ?_
      rintro _ n' w' rfl
      exact ⟨ys ++ [b], by simp [hdata], by rw [← List.append_assoc]; exact hw.append b⟩)
    data n w ⟨[], rfl, by rwa [List.append_nil]⟩
  refine wp_mono hloop ?_ (fun _ _ _ h => h) (fun _ h => h)
  rintro _ n' w' ⟨ys, hdata, hw⟩
  rwa [hdata, List.append_nil]

/-- A segment is read as it was. -/
theorem keeps_readSegment (h : Consistent w₀ w) {seg : String}
    (hseg : seg ∈ (w₀.media dir).listSegments) :
    Keeps o w₀ (readSegment dir seg)
      (fun fh w' => w' = w ∧ fh.flatten = (w₀.media dir).content seg) n w := by
  unfold readSegment
  refine keeps_bind (R := fun _ w' => w' = w) (keeps_call h rfl) ?_
  rintro _ n' w' rfl
  unfold Keeps
  rw [wp_bind, wp_reads, h.content hseg]
  exact ⟨rfl, flatten_chunks _ _ _ le_rfl⟩

/-- A segment is added to the master. -/
theorem keeps_copySegment (h : Holding w₀ dir x w) {seg : String}
    (hseg : seg ∈ (w₀.media dir).listSegments) :
    Keeps o w₀ (do
      let fh ← readSegment dir seg
      each (fun chunk => do
        call .read .io
        writeChunk dir masterName chunk) fh
      call .read .io)
      (fun _ w' => Holding w₀ dir (x ++ (w₀.media dir).content seg) w') n w := by
  apply keeps_bind (keeps_readSegment h.consistent hseg)
  rintro fh n' w' ⟨rfl, hfh⟩
  refine keeps_bind (R := fun _ w' => Holding w₀ dir (x ++ (w₀.media dir).content seg) w') ?_
    fun _ n' w' hw => keeps_call hw.consistent hw
  have hloop := keeps_each (o := o) (v := w₀) (f := fun chunk => do
      call .read .io
      writeChunk dir masterName chunk)
    (I := fun xs w => ∃ ys, fh = ys ++ xs ∧ Holding w₀ dir (x ++ ys.flatten) w)
    (fun chunk xs n w ⟨ys, hfh, hw⟩ => by
      refine keeps_bind (R := fun _ w' => w' = w) (keeps_call hw.consistent rfl) ?_
      rintro _ n' w' rfl
      refine wp_mono (keeps_writeChunk hw chunk) ?_ (fun _ _ _ h => h) (fun _ h => h)
      intro _ _ w'' hw''
      exact ⟨ys ++ [chunk], by simp [hfh], by simpa using hw''⟩)
    fh n' w' ⟨[], rfl, by simpa using h⟩
  refine wp_mono hloop ?_ (fun _ _ _ h => h) (fun _ h => h)
  rintro _ _ w'' ⟨ys, hys, hw''⟩
  rw [List.append_nil] at hys
  rwa [← hfh, hys]

/-- **The master is the segments in order.** -/
theorem keeps_masterOf (h : Consistent w₀ w) {seg : String} {rest : List String}
    (hsegs : (w₀.media dir).listSegments = seg :: rest) :
    Keeps o w₀ (masterOf dir seg rest)
      (fun name w' => Consistent w₀ w' ∧
        (w'.media dir).files.lookup name = (w₀.media dir).merged) n w := by
  unfold masterOf Directory.merged
  rw [hsegs, if_neg (List.cons_ne_nil seg rest)]
  have hmem : ∀ name ∈ seg :: rest, name ∈ (w₀.media dir).listSegments := by
    rw [hsegs]
    exact fun _ h => h
  cases rest with
  | nil =>
    rw [if_pos rfl]
    refine ⟨h, ?_⟩
    rw [h.content (hmem seg List.mem_cons_self), List.flatMap_singleton]
  | cons seg' rest =>
    rw [if_neg (List.cons_ne_nil seg' rest)]
    unfold concatMpegtsSegments
    refine keeps_bind (R := fun _ w' => w' = w) (keeps_call h rfl) ?_
    rintro _ n' w' rfl
    refine keeps_bind (R := fun _ w' => Holding w₀ dir [] w')
      (Holding.of_consistent h dir []) fun _ n' w' hw => ?_
    -- the segments before the current one are in the master
    have hloop := keeps_each (o := o) (v := w₀) (f := fun seg => do
        let fh ← readSegment dir seg
        each (fun chunk => do
          call .read .io
          writeChunk dir masterName chunk) fh
        call .read .io)
      (I := fun xs w => ∃ ys, seg :: seg' :: rest = ys ++ xs ∧
        Holding w₀ dir (ys.flatMap (w₀.media dir).content) w)
      (fun name xs n w ⟨ys, hys, hw⟩ => by
        have hname : name ∈ seg :: seg' :: rest := by
          rw [hys]
          exact List.mem_append_right _ List.mem_cons_self
        refine wp_mono (keeps_copySegment hw (hmem name hname)) ?_ (fun _ _ _ h => h)
          (fun _ h => h)
        intro _ _ w'' hw''
        exact ⟨ys ++ [name], by simp [hys], by simpa using hw''⟩)
      (seg :: seg' :: rest) n' w' ⟨[], rfl, hw⟩
    apply keeps_bind hloop
    rintro _ n'' w'' ⟨ys, hys, hw''⟩
    rw [List.append_nil] at hys
    rw [hys]
    exact ⟨hw''.consistent, hw''.master⟩

/-! ## Proxy and thumbnail -/

variable {encode : Tool → Bytes → List (String × Bytes)}

/-- A media tool writes below `derived/` only. -/
theorem wp_generate (tool : Tool) (master : MediaPath) :
    wp o (generate encode tool master) (fun _ _ w' => SameFiles w w')
      (fun _ _ w' => SameFiles w w') (fun w' => SameFiles w w' ∧ MayCrash o) n w := by
  have hcall : ∀ {n : ℕ} {w' : Archive}, SameFiles w w' →
      wp o (call ArchiveCall.media ArchiveError.media) (fun _ _ w'' => w'' = w' ∧ SameFiles w w'')
        (fun _ _ w'' => SameFiles w w'') (fun w'' => SameFiles w w'' ∧ MayCrash o) n w' := by
    intro n w' hw
    rw [wp_call]
    exact ⟨fun _ => ⟨rfl, hw⟩, fun _ => hw, fun hc => ⟨hw, n, _, hc⟩⟩
  have hclear : wp o (whenever (tool = .thumbnail) (modify (Archive.update master.dir fun d =>
      { d with derived := d.derived.erase tool.output }))) (fun _ _ w' => SameFiles w w')
      (fun (_ : ArchiveError) _ w' => SameFiles w w') (fun w' => SameFiles w w' ∧ MayCrash o)
      n w := by
    rw [wp_whenever, wp_modify]
    exact ⟨fun _ => SameFiles.derived w master.dir _, fun _ => SameFiles.refl w⟩
  unfold generate
  rw [wp_bind, wp_reads, wp_bind]
  refine wp_mono hclear ?_ (fun _ _ _ h => h) (fun _ h => h)
  intro _ n' w' hw
  rw [wp_bind]
  refine wp_each (I := fun _ w' => SameFiles w w') ?_ ?_ _ n' w' hw
  · intro f fs n w' hw
    rw [wp_bind]
    refine wp_mono (hcall hw) ?_ (fun _ _ _ h => h) (fun _ h => h)
    rintro _ _ w'' ⟨-, hw⟩
    exact hw.trans (SameFiles.derived w'' master.dir _)
  · intro n w' hw
    rw [wp_bind]
    refine wp_mono (hcall hw) ?_ (fun _ _ _ h => h) (fun _ h => h)
    rintro _ n w'' ⟨-, hw⟩
    rw [wp_bind, wp_reads, wp_ite]
    exact ⟨fun _ => hw, fun _ => hw⟩

/-- A tool writes derived files only. -/
theorem keeps_tryGenerate (h : Consistent w₀ w) (tool : Tool) (master : MediaPath) :
    Keeps o w₀ (tryGenerate encode tool master) (fun _ w' => SameFiles w w') n w := by
  unfold Keeps tryGenerate
  rw [wp_attempt, wp_bind]
  exact wp_mono (wp_generate tool master) (fun _ _ _ hw => hw) (fun _ _ _ hw => hw)
    (fun _ hw => ⟨h.of_sameFiles hw.1, hw.2⟩)

/-- Deriving media does not touch the segments, the master or the rows. -/
theorem keeps_deriveMedia (h : Consistent w₀ w) (master : MediaPath) (a : Asset) :
    Keeps o w₀ (deriveMedia encode master a)
      (fun a' w' => SameFiles w w' ∧ a'.recordingId = a.recordingId ∧
        a'.masterPath = a.masterPath ∧ a'.segmentCount = a.segmentCount) n w := by
  unfold deriveMedia
  refine keeps_bind (R := fun _ w' => w' = w) (m := reads _) rfl ?_
  rintro data n' w' rfl
  by_cases hdata : data = none
  · rw [if_pos hdata]
    exact ⟨SameFiles.refl _, rfl, rfl, rfl⟩
  · rw [if_neg hdata]
    refine keeps_bind (keeps_tryGenerate h .proxy master) fun proxy n₁ w₁ h₁ => ?_
    refine keeps_bind (keeps_tryGenerate (h.of_sameFiles h₁) .thumbnail master)
      fun thumb n₂ w₂ h₂ => ?_
    exact ⟨h₁.trans h₂, rfl, rfl, rfl⟩

/-! ## Rows -/

/-- The assets of a recording. -/
theorem mem_assetsOf {a : Asset} : a ∈ w.assetsOf r ↔ a ∈ w.assets ∧ a.recordingId = r := by
  unfold Archive.assetsOf
  rw [List.mem_filter, decide_eq_true_eq]

/-- A recording without an asset. -/
theorem assetsOf_eq_nil : w.assetsOf r = [] ↔ ¬ w.HasAsset r := by
  unfold Archive.HasAsset
  rw [List.eq_nil_iff_forall_not_mem]
  constructor
  · rintro h ⟨a, ha, hr⟩
    exact h a (mem_assetsOf.mpr ⟨ha, hr⟩)
  · intro h a ha
    exact h ⟨a, mem_assetsOf.mp ha⟩

/-- The unique constraint, recording by recording. -/
theorem length_assetsOf_le_one (h : (w.assets.map Asset.recordingId).Nodup) (r : RecordingId) :
    (w.assetsOf r).length ≤ 1 := by
  have hnodup : ((w.assetsOf r).map Asset.recordingId).Nodup :=
    h.sublist (List.filter_sublist.map _)
  have hconst : (w.assetsOf r).map Asset.recordingId = (w.assetsOf r).map fun _ => r :=
    List.map_congr_left fun a ha => (mem_assetsOf.mp ha).2
  rw [hconst, List.map_const', List.nodup_replicate] at hnodup
  exact hnodup

/-- With one asset a recording at most, the query finds it. -/
theorem keeps_oneOrNone (h : Consistent w₀ w) :
    Keeps o w₀ (oneOrNone r) (fun a w' => w' = w ∧ (a = none ↔ ¬ w.HasAsset r)) n w := by
  unfold oneOrNone
  apply keeps_bind (keeps_select h)
  rintro _ n' w' ⟨rfl, rfl⟩
  rw [← assetsOf_eq_nil]
  have hone := length_assetsOf_le_one h.unique r
  rcases hf : w'.assetsOf r with _ | ⟨a, _ | ⟨b, rest⟩⟩
  · exact ⟨rfl, by simp⟩
  · exact ⟨rfl, by simp⟩
  · rw [hf, List.length_cons, List.length_cons] at hone
    omega

/-- An asset with the expected count and media may be added. -/
theorem Consistent.addAsset (h : Consistent w₀ w) {a : Asset} {row : Recording}
    (hrow : w₀.recordings.lookup a.recordingId = some row) (hno : ¬ w.HasAsset a.recordingId)
    (hcount : a.segmentCount = (w₀.media row.storagePath).listSegments.length)
    (hbytes : w.bytesAt a.masterPath = (w₀.media row.storagePath).merged) :
    Consistent w₀ (w.addAsset a) := by
  refine ⟨h.recordings, h.listed, h.contents, ?_, ?_, ?_, ?_⟩
  · show ((w.assets ++ [a]).map Asset.recordingId).Nodup
    rw [List.map_append, List.nodup_append]
    refine ⟨h.unique, List.nodup_singleton _, ?_⟩
    rintro r hr _ hr' rfl
    obtain ⟨b, hb, hbr⟩ := List.mem_map.mp hr
    exact hno ⟨b, hb, hbr.trans (List.mem_singleton.mp hr')⟩
  · intro r hr
    obtain ⟨b, hb, hbr⟩ := h.kept r hr
    exact ⟨b, List.mem_append_left _ hb, hbr⟩
  · intro e he
    rcases List.mem_append.mp he with he | he
    · exact h.created e he
    · rw [List.mem_singleton.mp he]
      exact ⟨row, hrow, fun hold => hno (h.kept _ hold), by rw [hbytes, hcount]; rfl⟩
  · intro b hb
    rcases List.mem_append.mp hb with hb | hb
    · rcases h.assets b hb with hold | ⟨e, he, hr, hc⟩
      · exact Or.inl hold
      · exact Or.inr ⟨e, List.mem_append_left _ he, hr, hc⟩
    · rw [List.mem_singleton.mp hb]
      exact Or.inr ⟨_, List.mem_append_right _ List.mem_cons_self, rfl, rfl⟩

/-- Writing to an asset what does not concern its segments. -/
theorem Consistent.updateAsset (h : Consistent w₀ w) {f : Asset → Asset}
    (hid : ∀ a, (f a).recordingId = a.recordingId)
    (hcount : ∀ a, (f a).segmentCount = a.segmentCount) :
    Consistent w₀ (w.updateAsset r f) := by
  have hr : ∀ a : Asset, (if a.recordingId = r then f a else a).recordingId = a.recordingId := by
    intro a
    split
    · exact hid a
    · rfl
  refine ⟨h.recordings, h.listed, h.contents, ?_, ?_, h.created, ?_⟩
  · show ((w.assets.map _).map Asset.recordingId).Nodup
    have hcomp : (Asset.recordingId ∘ fun a => if a.recordingId = r then f a else a) =
        Asset.recordingId := funext hr
    rw [List.map_map, hcomp]
    exact h.unique
  · intro r' hr'
    obtain ⟨a, ha, har⟩ := h.kept r' hr'
    exact ⟨_, List.mem_map_of_mem ha, (hr a).trans har⟩
  · intro b hb
    obtain ⟨a, ha, rfl⟩ := List.mem_map.mp hb
    rw [hr a]
    rcases h.assets a ha with hold | ⟨e, he, hea, hec⟩
    · exact Or.inl hold
    · refine Or.inr ⟨e, he, hea, hec.trans ?_⟩
      split
      · rw [hcount]
      · rfl

/-- The commit of `_create_asset`, after the media work. -/
theorem keeps_createAsset (h : Consistent w₀ w) {a : Asset} {row : Recording}
    (hrow : w₀.recordings.lookup a.recordingId = some row)
    (hcount : a.segmentCount = (w₀.media row.storagePath).listSegments.length)
    (hbytes : w.bytesAt a.masterPath = (w₀.media row.storagePath).merged) :
    Keeps o w₀ (createAsset a)
      (fun _ w' => Consistent w₀ w' ∧ w'.HasAsset a.recordingId) n w := by
  unfold createAsset
  apply keeps_bind (keeps_oneOrNone h)
  rintro existing n' w' ⟨rfl, hexisting⟩
  by_cases hnone : existing = none
  · rw [if_neg (not_not_intro hnone)]
    have hno := hexisting.mp hnone
    refine keeps_bind (R := fun _ w'' => w'' = w') (keeps_call h rfl) ?_
    rintro _ n'' w'' rfl
    have hallowed : w''.Insertable a := by
      refine ⟨?_, fun b hb hr => hno ⟨b, hb, hr⟩⟩
      rw [h.recordings]
      exact Dict.mem_iff_exists_lookup.mpr ⟨row, hrow⟩
    unfold Keeps
    rw [wp_bind, wp_reads, decide_eq_true hallowed, if_pos rfl, wp_modify]
    exact ⟨h.addAsset hrow hno hcount hbytes, a, List.mem_append_right _ List.mem_cons_self, rfl⟩
  · rw [if_pos hnone]
    exact ⟨h, not_not.mp fun hno => hnone (hexisting.mpr hno)⟩

/-! ## Jobs -/

/-- What is loaded is a recording without an asset. -/
theorem keeps_loadRecording (h : Consistent w₀ w) :
    Keeps o w₀ (loadRecording r) (fun loaded w' => w' = w ∧ match loaded with
      | none => r ∈ w₀.recordings → w.HasAsset r
      | some dir => ∃ row, w₀.recordings.lookup r = some row ∧ row.storagePath = dir) n w := by
  unfold loadRecording
  apply keeps_bind (keeps_select h)
  rintro _ n' w' ⟨rfl, rfl⟩
  rw [h.recordings]
  rcases hrow : w₀.recordings.lookup r with _ | row
  · refine ⟨rfl, fun hmem => ?_⟩
    obtain ⟨row, hr⟩ := Dict.mem_iff_exists_lookup.mp hmem
    exact absurd (hrow.symm.trans hr) (by simp)
  · apply keeps_bind (keeps_oneOrNone h)
    rintro existing n'' w'' ⟨rfl, hexisting⟩
    by_cases hnone : existing = none
    · rw [if_neg (not_not_intro hnone)]
      refine keeps_bind (R := fun _ w' => w' = w'') (keeps_call h rfl) ?_
      rintro _ _ _ rfl
      exact ⟨rfl, row, rfl, rfl⟩
    · rw [if_pos hnone]
      exact ⟨rfl, fun _ => not_not.mp fun hno => hnone (hexisting.mpr hno)⟩

/-- **A job keeps the invariant, and if nothing fails the recording is cataloged.** -/
theorem keeps_process (h : Consistent w₀ w) :
    Keeps o w₀ (process encode r)
      (fun _ w' => Consistent w₀ w' ∧ (r ∈ w₀.recordings → w'.HasAsset r)) n w := by
  unfold process
  apply keeps_bind (keeps_loadRecording h)
  rintro (_ | dir) n' w' ⟨rfl, hloaded⟩
  · exact ⟨h, hloaded⟩
  · obtain ⟨row, hrow, rfl⟩ := hloaded
    refine keeps_bind (R := fun segs w'' => w'' = w' ∧
      segs = (w₀.media row.storagePath).listSegments) (m := reads _)
      ⟨rfl, h.listed row.storagePath⟩ ?_
    rintro segs n₁ w₁ ⟨rfl, hsegs⟩
    -- Without segments the asset has no media; with some the master is made and derived from.
    cases segs with
    | nil =>
      have hmerged : (w₀.media row.storagePath).merged = none := if_pos hsegs.symm
      refine wp_mono (keeps_createAsset h hrow (by rw [← hsegs]; rfl) (by rw [hmerged]; rfl))
        (fun _ _ w' hw => ⟨hw.1, fun _ => hw.2⟩) (fun _ _ _ hw => hw) (fun _ hw => hw)
    | cons seg rest =>
      apply keeps_bind (keeps_masterOf h hsegs.symm)
      rintro name n₂ w₂ ⟨h₂, hmaster⟩
      refine keeps_bind (R := fun _ w' => w' = w₂) ?_ ?_
      · unfold Keeps
        rw [wp_attempt, wp_call]
        exact ⟨fun _ => rfl, fun _ => rfl, fun hc => ⟨h₂, n₂, _, hc⟩⟩
      rintro _ n₃ w₃ rfl
      apply keeps_bind (keeps_deriveMedia h₂ _ _)
      rintro a n₄ w₄ ⟨hsame, hid, hpath, hcount⟩
      have hbytes : w₄.bytesAt a.masterPath = (w₀.media row.storagePath).merged := by
        rw [hpath, hsame.bytesAt]
        exact hmaster
      -- What the master holds when the asset is made is the merged recording.
      refine wp_mono (keeps_createAsset (h₂.of_sameFiles hsame)
        (?_ : w₀.recordings.lookup a.recordingId = some row) ?_ hbytes)
        (fun _ _ w' hw => ⟨hw.1, fun _ => ?_⟩) (fun _ _ _ hw => hw) (fun _ hw => hw)
      · rw [hid]
        exact hrow
      · rw [hcount, ← hsegs]
        rfl
      · have hasset := hw.2
        rw [hid] at hasset
        exact hasset

/-- **A job for a cataloged recording does nothing.** -/
theorem wp_process_of_hasAsset (h : w.HasAsset r) :
    wp o (process encode r) (fun _ _ w' => w' = w) (fun _ _ w' => w' = w) (fun w' => w' = w)
      n w := by
  have hcall : ∀ {k : ArchiveCall} {e : ArchiveError} {n : ℕ},
      wp o (call k e) (fun _ _ w' => w' = w) (fun _ _ w' => w' = w) (fun w' => w' = w) n w := by
    intro k e n
    rw [wp_call]
    exact ⟨fun _ => rfl, fun _ => rfl, fun _ => rfl⟩
  unfold process loadRecording select
  rw [wp_bind, wp_bind, wp_bind]
  refine wp_mono hcall ?_ (fun _ _ _ hw => hw) (fun _ hw => hw)
  rintro _ n' w' rfl
  rw [wp_reads]
  rcases w'.recordings.lookup r with _ | row
  · rfl
  · unfold oneOrNone select
    dsimp only
    rw [wp_bind, wp_bind, wp_bind]
    refine wp_mono hcall ?_ (fun _ _ _ hw => hw) (fun _ hw => hw)
    rintro _ n'' w'' rfl
    rw [wp_reads]
    rcases hfound : w''.assetsOf r with _ | ⟨a, _ | ⟨b, rest⟩⟩
    · exact absurd h (assetsOf_eq_nil.mp hfound)
    · rfl
    · rfl

/-- A job whose exceptions are caught. -/
theorem keeps_attempt_process (h : Consistent w₀ w) :
    Keeps o w₀ (attempt (process encode r) fun _ => pure ()) (fun _ w' => Consistent w₀ w')
      n w := by
  unfold Keeps
  rw [wp_attempt]
  exact wp_mono (keeps_process h) (fun _ _ _ hw => hw.1) (fun _ _ _ hw => hw.1) (fun _ hw => hw)

/-- **The backfill of one asset** keeps the archive consistent. -/
theorem keeps_backfillAsset (h : Consistent w₀ w) (a : Asset) :
    Keeps o w₀ (backfillAsset encode a) (fun _ w' => Consistent w₀ w') n w := by
  have hwrite : ∀ {n : ℕ} {w : Archive} {f : Asset → Asset}, Consistent w₀ w →
      (∀ a, (f a).recordingId = a.recordingId) → (∀ a, (f a).segmentCount = a.segmentCount) →
      Keeps o w₀ (do
        call .query .database
        call .commit .database
        modify (Archive.updateAsset a.recordingId f)) (fun _ w' => Consistent w₀ w') n w := by
    intro n w f hw hid hcount
    refine keeps_bind (R := fun _ w' => w' = w) (keeps_call hw rfl) ?_
    rintro _ n₁ w₁ rfl
    refine keeps_bind (R := fun _ w' => w' = w₁) (keeps_call hw rfl) ?_
    rintro _ n₂ w₂ rfl
    exact hw.updateAsset hid hcount
  unfold backfillAsset
  refine keeps_bind (R := fun _ w' => w' = w) (m := reads _) rfl ?_
  rintro data n' w' rfl
  by_cases hdata : data = none
  · rw [if_pos hdata]
    exact hwrite h (fun _ => rfl) (fun _ => rfl)
  · rw [if_neg hdata]
    apply keeps_bind (keeps_deriveMedia h _ _)
    rintro found n'' w'' ⟨hsame, -, -, -⟩
    exact hwrite (h.of_sameFiles hsame) (fun _ => rfl) (fun _ => rfl)

/-- Both passes of a restart keep the invariant. -/
theorem keeps_startupPasses (h : Consistent w₀ w) :
    Keeps o w₀ (startupPasses encode) (fun _ w' => Consistent w₀ w') n w := by
  unfold startupPasses catalogUncatalogedRecordings backfillMissingMedia
  refine keeps_bind (R := fun _ w' => Consistent w₀ w') ?_ fun _ n' w' h' => ?_
  · apply keeps_bind (keeps_select h)
    rintro ids n' w' ⟨-, rfl⟩
    exact keeps_each (I := fun _ w => Consistent w₀ w) (fun _ _ _ _ hw => keeps_attempt_process hw)
      _ _ _ h
  · apply keeps_bind (keeps_select h')
    rintro pending n'' w'' ⟨-, rfl⟩
    exact keeps_each (I := fun _ w => Consistent w₀ w) (fun a _ _ _ hw => keeps_backfillAsset hw a)
      _ _ _ h'

/-- **One arrival**, wherever it fails or is killed. -/
theorem Consistent.arrival (h : Consistent w₀ w) (a : Arrival) (o : Oracle ArchiveCall) :
    Consistent w₀ (final o (a.program encode) w) := by
  apply final_of_wp
  cases a with
  | job r =>
    exact wp_mono (keeps_process h) (fun _ _ _ hw => hw.1) (fun _ _ _ hw => hw.1)
      (fun _ hw => hw.1)
  | restart =>
    exact wp_mono (keeps_startupPasses h) (fun _ _ _ hw => hw) (fun _ _ _ hw => hw.1)
      (fun _ hw => hw.1)

/-- **Any number of arrivals.** -/
theorem Consistent.after (h : Consistent w₀ w) (as : List (Arrival × Oracle ArchiveCall)) :
    Consistent w₀ (w.after encode as) := by
  induction as generalizing w with
  | nil => exact h
  | cons a as ih => exact ih (h.arrival a.1 a.2)

end Programs

/-! ## Repeatability -/

/-- An archive before anything is cataloged under observation. -/
theorem consistent_self {w : Archive} (hone : (w.assets.map Asset.recordingId).Nodup)
    (hnew : w.created = []) : Consistent w w := by
  refine ⟨rfl, fun _ => rfl, fun _ _ _ => rfl, hone, fun _ h => h, ?_, ?_⟩
  · rw [hnew]
    exact fun e he => absurd he List.not_mem_nil
  · exact fun a ha => Or.inl ⟨a, ha, rfl⟩

/-- What one uninterrupted run catalogs. -/
theorem expected_mem_uninterrupted {encode : Tool → Bytes → List (String × Bytes)} {w : Archive}
    {r : RecordingId} {row : Recording} (hself : Consistent w w)
    (hrow : w.recordings.lookup r = some row) (hno : ¬ w.HasAsset r) :
    w.expected r row ∈ (final allOk (process encode r) w).created := by
  refine final_of_wp (P := fun w' : Archive => w.expected r row ∈ w'.created) ?_
  refine wp_mono (keeps_process hself) ?_ ?_ ?_
  · rintro _ n' w' ⟨h, hasset⟩
    obtain ⟨a, ha, har⟩ := hasset (Dict.mem_iff_exists_lookup.mpr ⟨row, hrow⟩)
    rcases h.assets a ha with hold | ⟨e, he, her, -⟩
    · exact absurd (har ▸ hold) hno
    · obtain ⟨row', hrow', -, heq⟩ := h.created e he
      rw [her, har] at hrow' heq
      obtain rfl : row' = row := Option.some.inj (hrow'.symm.trans hrow)
      exact heq ▸ he
  · rintro _ _ _ ⟨-, n, k, hf⟩
    exact absurd hf (by simp [allOk])
  · rintro _ ⟨-, n, k, hc⟩
    exact absurd hc (by simp [allOk])

/-- **Cataloging is repeatable.**  After any sequence of jobs and restarts, each failing or
killed anywhere, a recording has at most one asset, a further job for a cataloged recording
changes nothing whatever its environment, the segments are the first ones, and each asset
that was created has the count and the media that one uninterrupted run would have given. -/
theorem cataloging_repeatable (encode : Tool → Bytes → List (String × Bytes)) (w₀ : Archive)
    (hone : (w₀.assets.map Asset.recordingId).Nodup) (hnew : w₀.created = [])
    (as : List (Arrival × Oracle ArchiveCall)) :
    (∀ r, ((w₀.after encode as).assetsOf r).length ≤ 1) ∧
    (∀ r o, (w₀.after encode as).HasAsset r →
      final o (process encode r) (w₀.after encode as) = w₀.after encode as) ∧
    (∀ dir, ((w₀.after encode as).media dir).listSegments = (w₀.media dir).listSegments) ∧
    (∀ a ∈ (w₀.after encode as).assets, w₀.HasAsset a.recordingId ∨
      ∃ e ∈ (w₀.after encode as).created,
        e.recordingId = a.recordingId ∧ e.segmentCount = a.segmentCount) ∧
    ∀ e ∈ (w₀.after encode as).created,
      e ∈ (final allOk (process encode e.recordingId) w₀).created := by
  have hself := consistent_self hone hnew
  have h : Consistent w₀ (w₀.after encode as) := hself.after as
  refine ⟨length_assetsOf_le_one h.unique, fun r o hr => ?_, h.listed, h.assets, fun e he => ?_⟩
  · exact final_of_wp (wp_process_of_hasAsset hr)
  · obtain ⟨row, hrow, hno, heq⟩ := h.created e he
    rw [heq]
    exact expected_mem_uninterrupted hself hrow hno

/-- A recording of two segments, with a master that a killed run has left. -/
def interrupted : Archive where
  recordings := AList.singleton 0 {
    channelId := .str "a", startedAt := 0, endedAt := some 9, status := .completed,
    storagePath := ⟨.str "a", 0⟩, segmentCount := 2, byteSize := 3, startedBy := 0 }
  assets := []
  media := fun _ => {
    files := Dict.set "segment_00001.ts" [3] (Dict.set "segment_00000.ts" [1, 2]
      (AList.singleton masterName [1]))
    derived := ∅ }
  created := []

/-- A job that is killed at its sixth call, a restart, and the job again. -/
theorem cataloging_repeatable_interrupted :
    let w := interrupted.after (fun _ data => [("proxy/playlist.m3u8", data)])
      [(.job 0, fun n _ => if n = 5 then .crash else .ok), (.restart, allOk), (.job 0, allOk)]
    ∀ e ∈ w.created, e ∈ (final allOk (process (fun _ data => [("proxy/playlist.m3u8", data)])
      e.recordingId) interrupted).created :=
  (cataloging_repeatable _ interrupted (by decide) rfl _).2.2.2.2

end PostProcess
