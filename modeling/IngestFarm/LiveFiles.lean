/-
# The live directory

The files by which a channel shows what it does: the preview images of `write_thumbs` and of
`ChannelSession.get_stats`, and the documents of `write_json_atomic`.  Whoever opens one is meant
to get a whole image or document.  Replacing a file gives that.  Writing one in place does not,
which is what the promotion of a thumbnail does every time and the rest after an error: from the
step that opens the file until the last piece a reader gets less.
-/
import IngestFarm.Publishing

namespace LiveFiles

open Publishing Runs

/-- The files, with those that a writer keeps to itself. -/
inductive File
  | thumb
  | thumbOk
  | thumbTmp
  | thumbPubTmp
  | status
  | statusTmp
  | etr290
  | etr290Tmp
  deriving DecidableEq

/-- The streaming thread and the tick of a session, the main loops of SRT child and sidecar. -/
inductive Writer
  | streaming
  | tick
  | child
  | sidecar
  deriving DecidableEq

/-- The in-place fall-back of `write_thumbs` for `thumb.jpg`. -/
def thumbInPlace (data : Bytes) : Program File := .write .thumb data .done .done

/-- `write_thumbs` from `pub_tmp` on. -/
def publishThumb (data : Bytes) : Program File :=
  .write .thumbPubTmp data (.replace .thumbPubTmp .thumb .done (thumbInPlace data))
    (thumbInPlace data)

/-- `write_thumbs`: the new frame goes beside the old one and is moved over it; where the move fails
it is written in place. -/
def writeThumbs (data : Bytes) : Program File :=
  .write .thumbTmp data
    (.replace .thumbTmp .thumbOk (publishThumb data)
      (.write .thumbOk data (publishThumb data) .done))
    .done

/-- The promotion of a thumbnail in `ChannelSession.get_stats`. -/
def promoteThumb : Program File :=
  .stat .thumb fun isFile =>
    if isFile = none then .done
    else .stat .thumb fun size =>
      if 100 ≤ size.getD 0 then
        .read .thumb (fun bytes => .write .thumbOk bytes .done .done) .done
      else .done

/-- `write_json_atomic`: the same for a document, and the file beside it is removed after a
failure. -/
def writeJsonAtomic (path tmp : File) (data : Bytes) : Program File :=
  let inPlace := .write path data (.unlink tmp .done .done) (.unlink tmp .done .done)
  .write tmp data (.replace tmp path .done inPlace) inPlace

/-- The calls, with the bytes of the image or the document. -/
inductive Call
  | writeThumbs (data : Bytes)
  | promoteThumb
  | writeStatus (data : Bytes)
  | writeEtr290 (data : Bytes)

/-- `_on_jpeg` leaves out images of less than 100 bytes, and no JSON document is empty. -/
def code : Code File Writer Call where
  thread
    | .writeThumbs _ => .streaming
    | .promoteThumb => .tick
    | .writeStatus _ => .child
    | .writeEtr290 _ => .sidecar
  body
    | .writeThumbs data => LiveFiles.writeThumbs data
    | .promoteThumb => LiveFiles.promoteThumb
    | .writeStatus data => writeJsonAtomic .status .statusTmp data
    | .writeEtr290 data => writeJsonAtomic .etr290 .etr290Tmp data
  document
    | .writeThumbs data => some data
    | .promoteThumb => none
    | .writeStatus data => some data
    | .writeEtr290 data => some data
  accepts
    | .writeThumbs data => 100 ≤ data.length
    | .promoteThumb => true
    | .writeStatus data => data ≠ []
    | .writeEtr290 data => data ≠ []

def layout : Layout File Writer where
  published
    | .thumb | .thumbOk | .status | .etr290 => true
    | .thumbTmp | .thumbPubTmp | .statusTmp | .etr290Tmp => false
  owner
    | .thumb | .thumbOk | .thumbTmp | .thumbPubTmp => .streaming
    | .status | .statusTmp => .child
    | .etr290 | .etr290Tmp => .sidecar

/-- **No file of a run is torn**, for a reader who opens it after any part of the run and reads
it piece by piece during the rest, and the stable thumbnail never goes back. -/
structure NeverTorn (as : List (Action Writer Call)) : Prop where
  whole : ∀ pre post s file i bytes, as = pre ++ post → run (step code) start pre = some s →
    layout.published file = true → s.disk.entry file = some i → Reads code s i [] post bytes →
    bytes ∈ s.documents (layout.owner file)
  neverBack : ∀ pre mid post s t earlier later, as = pre ++ mid ++ post →
    run (step code) start pre = some s → run (step code) s mid = some t →
    s.disk.shows .thumbOk = some earlier → t.disk.shows .thumbOk = some later →
    ∃ i j : ℕ, i ≤ j ∧ (s.documents .streaming)[i]? = some earlier ∧
      (t.documents .streaming)[j]? = some later

/-- No step opens a published file to write it in place. -/
def ReplacesOnly (as : List (Action Writer Call)) : Prop :=
  Along (NotInPlace layout) (step code) start as

/-! ## The programs -/

theorem publishes_writeThumbs (data : Bytes) :
    Publishes layout .streaming (some data) none (writeThumbs data) := by
  simp [writeThumbs, publishThumb, thumbInPlace, Publishes, layout]

theorem publishes_promoteThumb (newest : Option Bytes) :
    Publishes layout .tick newest none promoteThumb := by
  intro isFile
  dsimp only
  split_ifs
  · trivial
  · intro size
    dsimp only
    split_ifs
    · simp [Publishes, layout]
    · trivial

/-- The two temporary files of a replacement belong to one writer. -/
theorem publishes_writeJsonAtomic {path tmp : File} {writer : Writer} {data : Bytes}
    (hpath : layout.published path = true) (htmp : layout.published tmp = false)
    (howner : layout.owner path = writer) (howner' : layout.owner tmp = writer) :
    Publishes layout writer (some data) none (writeJsonAtomic path tmp data) := by
  simp [writeJsonAtomic, Publishes, hpath, htmp, howner, howner']

/-- **All three programs** write files of their own and replace the published ones by these. -/
theorem sound : Sound code layout := by
  intro c newest hnewest _
  cases c with
  | writeThumbs data =>
    rw [hnewest data rfl]
    exact publishes_writeThumbs data
  | promoteThumb => exact publishes_promoteThumb newest
  | writeStatus data =>
    rw [hnewest data rfl]
    exact publishes_writeJsonAtomic rfl rfl rfl rfl
  | writeEtr290 data =>
    rw [hnewest data rfl]
    exact publishes_writeJsonAtomic rfl rfl rfl rfl

variable {as : List (Action Writer Call)} {s s' : State File Writer}

/-- No document is empty. -/
theorem document_ne_nil {c : Call} (haccepts : code.accepts c = true) {document : Bytes}
    (h : code.document c = some document) : document ≠ [] := by
  cases c with
  | writeThumbs data =>
    obtain rfl := Option.some.inj h
    rintro rfl
    exact absurd haccepts (by decide)
  | promoteThumb => exact absurd h (by simp [code])
  | writeStatus data =>
    obtain rfl := Option.some.inj h
    exact of_decide_eq_true haccepts
  | writeEtr290 data =>
    obtain rfl := Option.some.inj h
    exact of_decide_eq_true haccepts

theorem documents_ne_nil (hrun : run (step code) start as = some s) :
    ∀ writer, ∀ document ∈ s.documents writer, document ≠ [] := by
  have hstep : ∀ (s : State File Writer) a s', (∀ writer, ∀ document ∈ s.documents writer,
      document ≠ []) → True → step code s a = some s' →
      ∀ writer, ∀ document ∈ s'.documents writer, document ≠ [] := by
    intro s a s' hs _ h writer document hmem
    rcases step_cases h with ⟨c, -, haccepts, -, -, hdocuments⟩ | ⟨_, _, _, -, -, -, hdocuments⟩
    · rw [hdocuments] at hmem
      by_cases hw : writer = code.thread c
      · subst hw
        rw [Function.update_self, List.mem_append, Option.mem_toList] at hmem
        rcases hmem with hmem | hmem
        · exact hs _ document hmem
        · exact document_ne_nil haccepts hmem
      · rw [Function.update_of_ne hw] at hmem
        exact hs writer document hmem
    · rw [hdocuments] at hmem
      exact hs writer document hmem
  refine run_invariant hstep as start s ?_ (along_of_forall (fun _ _ _ => trivial) _) hrun
  intro writer document hmem
  exact absurd hmem List.not_mem_nil

/-- **A file opened in place** is empty at once. -/
theorem shows_of_opens {a : Action Writer Call} {file : File} (hopens : opens s a = some file) :
    ∃ s', step code s a = some s' ∧ s'.disk.shows file = some [] := by
  cases a with
  | call c => exact absurd hopens (by simp [opens])
  | step writer outcome =>
    cases outcome with
    | fails => exact absurd hopens (by simp [opens])
    | goes n =>
      simp only [opens] at hopens
      split at hopens
      · next path data next failed hthread =>
        obtain rfl := Option.some.inj hopens
        obtain ⟨hentry, hempty⟩ := Disk.openWrite_entry s.disk path
        refine ⟨_, by
          simp only [step, hthread, Thread.step, Thread.write, Option.map_some]
          rfl, ?_⟩
        exact Disk.shows_eq_some.mpr ⟨_, hentry, hempty⟩
      · exact absurd hopens (by simp)

/-! ## Runs -/

theorem whole_of_replacesOnly (h : ReplacesOnly as) : NeverTorn as where
  whole := by
    rintro pre post s file i bytes rfl hrun hfile hentry hreads
    obtain ⟨hpre, hpost⟩ := along_append h
    exact reads_published sound (inv_run sound hpre inv_start hrun) (hpost s hrun) hfile hentry
      hreads
  neverBack := by
    rintro pre mid post s t earlier later rfl hrun hrun' hearlier hlater
    obtain ⟨hpremid, -⟩ := along_append h
    obtain ⟨hpre, hmid⟩ := along_append hpremid
    have hinv := inv_run sound hpre inv_start hrun
    obtain ⟨i, hi⟩ := List.getElem?_of_mem (hinv.whole .thumbOk earlier rfl hearlier)
    obtain ⟨j, document, hle, hshows, hj⟩ :=
      shows_run sound hinv (hmid s hrun) hrun' rfl hearlier hi
    obtain rfl := Option.some.inj (hshows.symm.trans hlater)
    exact ⟨i, j, hle, hi, hj⟩

/-- **Exactly when published files are never torn**: when no file is written in place, neither
by the promotion nor after an error. -/
theorem never_torn_iff (as : List (Action Writer Call)) : NeverTorn as ↔ ReplacesOnly as := by
  refine ⟨fun h => along_iff.mpr ?_, whole_of_replacesOnly⟩
  rintro pre a post s rfl hrun file hopens
  by_contra hpublished
  -- a reader who opens the file now gets nothing
  obtain ⟨s', hstep, hshows⟩ := shows_of_opens hopens
  obtain ⟨i, hentry, hempty⟩ := Disk.shows_eq_some.mp hshows
  have hrun' : run (step code) start (pre ++ [a]) = some s' := by
    rw [run_append, hrun, Option.bind_some, run_cons, hstep]
    rfl
  have hreads : Reads code s' i [] post [] := .eof (by rw [hempty, List.drop_nil])
  have hmem := h.whole (pre ++ [a]) post s' file i [] (by rw [List.append_assoc]; rfl) hrun'
    (by simpa using hpublished) hentry hreads
  exact documents_ne_nil hrun' _ _ hmem rfl

/-- The promotion of a thumbnail empties the stable one before it writes it. -/
theorem promotion_empties_thumbnail : ¬ ∀ as : List (Action Writer Call), NeverTorn as := by
  intro h
  let as : List (Action Writer Call) :=
    .call (.writeThumbs (List.replicate 100 0)) :: List.replicate 8 (.step .streaming (.goes 99)) ++
      .call .promoteThumb :: List.replicate 6 (.step .tick (.goes 99))
  have hshows : (run (step code) start as).map (fun s => (s.disk.shows .thumbOk)) =
      some (some []) := by rfl
  obtain ⟨s, hrun, hs⟩ := Option.map_eq_some_iff.mp hshows
  obtain ⟨i, hentry, hempty⟩ := Disk.shows_eq_some.mp hs
  have hmem := (h as).whole as [] s .thumbOk i [] (List.append_nil _).symm hrun rfl hentry
    (.eof (by rw [hempty, List.drop_nil]))
  exact documents_ne_nil hrun _ _ hmem rfl

end LiveFiles
