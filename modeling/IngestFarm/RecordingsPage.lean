/-
# The page of the recordings

`RecordingsPage` of the web interface: a form for the metadata of a recording, a dialog for its
deletion, and one flag for both that is set while a request is on its way.

The API merges what the form sends, so a key is never removed (`metadata_keys_stay`): the form
shows what was typed in again exactly when nothing was left out (`saved_metadata_reopens_iff`).

The flag disables what sends.  It does not disable the Cancel button of the form nor the buttons
of the rows, and a successful answer closes whatever is open then: it closes what it has saved or
deleted as long as the user stays there until it comes (`answers_close_their_own_iff`).
-/
import IngestFarm.ApiTables
import IngestFarm.Busy

open Runs Busy Prog ApiTables
open Etr290 (Text)
open Paths (RealPath)

namespace RecordingsPage

/-! ## Requests -/

/-- The dict that an object is read as: the last entry of a key counts. -/
def ofFields (fields : List (String × Json)) : Dict String Json :=
  fields.foldl (fun d e => Dict.set e.1 e.2 d) ∅

/-- What the page asks the API for; `metadata` is what the text of the form parses to. -/
inductive Task where
  | save (id : ℕ) (metadata : Json)
  | delete (id : ℕ)

namespace Task

/-- The recording that is saved. -/
def saves : Task → Option ℕ
  | save id _ => some id
  | delete _ => none

/-- The recording that is deleted. -/
def deletes : Task → Option ℕ
  | save _ _ => none
  | delete id => some id

/-- The request, as the API validates it; metadata are an object or `null`. -/
def request : Task → Option Request
  | save id (.obj fields) =>
    some (.updateRecording id (some (ofFields fields)))
  | save id .null => some (.updateRecording id none)
  | save _ _ => none
  | delete id => some (.deleteRecording id)

end Task

/-- A row as it was last polled. -/
structure Shown where
  status : RecordingStatus
  metadata : Json

/-- `_recording_response`, as far as the page reads it. -/
def recordingResponse (row : RecordingRow) : Shown :=
  ⟨row.status, .obj (row.metadata.entries.map fun e => (e.1, e.2))⟩

end RecordingsPage

/-! ## The page -/

/-- The state of `RecordingsPage`; `metadataJson` is what the text parses to, if it does. -/
structure RecordingsPage where
  /-- The rows of the last poll. -/
  recordings : List (ℕ × RecordingsPage.Shown)
  /-- The row whose form is open. -/
  editing : Option ℕ
  /-- What the text of the form parses to. -/
  metadataJson : Option Json
  /-- The row whose dialog is open. -/
  deleteTarget : Option ℕ
  /-- The flag `busy`, and the requests. -/
  lock : Lock Unit RecordingsPage.Task

namespace RecordingsPage

/-- What happens to the page. -/
inductive Action where
  /-- The recordings are polled. -/
  | poll (recordings : List (ℕ × Shown))
  /-- The form of a row is opened. -/
  | openEdit (id : ℕ)
  /-- The text is changed. -/
  | type (parsed : Option Json)
  /-- The form is closed. -/
  | cancelEdit
  /-- It is sent. -/
  | saveMetadata
  /-- The dialog of a row is opened. -/
  | askDelete (id : ℕ)
  /-- It is closed. -/
  | cancelDelete
  /-- It is confirmed. -/
  | confirmDelete
  /-- The server handles a request. -/
  | handle (i : ℕ)
  /-- A request is answered, well or badly. -/
  | answer (i : ℕ) (ok : Bool)

/-- The page as it is opened. -/
def opened : RecordingsPage := ⟨[], none, none, none, .free⟩

/-- `busy`: a request of the form or of the dialog is on its way. -/
def busy (p : RecordingsPage) : Bool := p.lock.busy.isSome

/-- The page after a step of its lock. -/
def withLock (p : RecordingsPage) (l : Option (Lock Unit Task)) : Option RecordingsPage :=
  l.map fun l => { p with lock := l }

/-- A step of the page. -/
def step (p : RecordingsPage) : Action → Option RecordingsPage
  | .poll recordings => some { p with recordings := recordings }
  | .openEdit id =>
    match p.recordings.lookup id with
    | none => none
    | some row =>
      if row.status = .recording then none
      else some { p with editing := some id, metadataJson := some row.metadata }
  | .type parsed => if p.editing.isSome then some { p with metadataJson := parsed } else none
  -- This button is not disabled while a request is on its way.
  | .cancelEdit => if p.editing.isSome then some { p with editing := none } else none
  | .saveMetadata =>
    match p.editing with
    | none => none
    | some id =>
      if p.busy then none
      else match p.metadataJson with
        -- `JSON.parse` raises, and nothing is sent.
        | none => some p
        | some metadata => p.withLock (p.lock.send () (.save id metadata))
  | .askDelete id =>
    match p.recordings.lookup id with
    | none => none
    | some row => if row.status = .recording then none else some { p with deleteTarget := some id }
  | .cancelDelete =>
    if p.deleteTarget.isSome && !p.busy then some { p with deleteTarget := none } else none
  | .confirmDelete =>
    match p.deleteTarget with
    | none => none
    | some id => if p.busy then none else p.withLock (p.lock.send () (.delete id))
  | .handle i => p.withLock (p.lock.handle i)
  | .answer i ok =>
    match p.lock.awaited[i]? with
    | none => none
    | some ⟨_, .save _ _, _⟩ =>
      { p with editing := if ok then none else p.editing }.withLock (p.lock.answer i)
    | some ⟨_, .delete _, _⟩ =>
      { p with deleteTarget := if ok then none else p.deleteTarget }.withLock (p.lock.answer i)

/-- **What a successful answer closes is its own**: the form is that of the recording being saved,
and the dialog that of the recording being deleted. -/
structure Own (p : RecordingsPage) : Prop where
  save : ∀ x ∈ p.lock.awaited, ∀ id, x.request.saves = some id → p.editing = some id
  delete : ∀ x ∈ p.lock.awaited, ∀ id, x.request.deletes = some id → p.deleteTarget = some id

/-- The user does not leave the form of a save, nor the dialog of a deletion, before it is
answered. -/
def Stays (p : RecordingsPage) : Action → Prop
  | .openEdit id => ∀ x ∈ p.lock.awaited, ∀ i, x.request.saves = some i → i = id
  | .cancelEdit => ∀ x ∈ p.lock.awaited, x.request.saves = none
  | .askDelete id => ∀ x ∈ p.lock.awaited, ∀ i, x.request.deletes = some i → i = id
  | _ => True

section Steps

variable {p p' : RecordingsPage} {a : Action}

theorem withLock_lock {l : Option (Lock Unit Task)} (h : p.withLock l = some p') :
    l = some p'.lock ∧ p'.editing = p.editing ∧ p'.deleteTarget = p.deleteTarget := by
  obtain ⟨l', rfl, rfl⟩ := Option.map_eq_some_iff.mp h
  exact ⟨rfl, rfl, rfl⟩

/-- **The moves of the page**: what a step does to the forms and to the lock. -/
inductive Moves (p p' : RecordingsPage) : Action → Prop
  | quiet {a : Action} (hstays : p.Stays a) (hlock : p'.lock = p.lock)
      (hediting : p'.editing = p.editing) (hdelete : p'.deleteTarget = p.deleteTarget) :
      Moves p p' a
  | openEdit {id : ℕ} (hlock : p'.lock = p.lock) (hediting : p'.editing = some id)
      (hdelete : p'.deleteTarget = p.deleteTarget) : Moves p p' (.openEdit id)
  | cancelEdit (hlock : p'.lock = p.lock) (hediting : p'.editing = none)
      (hdelete : p'.deleteTarget = p.deleteTarget) : Moves p p' .cancelEdit
  | askDelete {id : ℕ} (hlock : p'.lock = p.lock) (hediting : p'.editing = p.editing)
      (hdelete : p'.deleteTarget = some id) : Moves p p' (.askDelete id)
  | cancelDelete (hlock : p'.lock = p.lock) (hfree : p.lock.busy = none) :
      Moves p p' .cancelDelete
  | save {id : ℕ} {metadata : Json} (hediting : p'.editing = some id)
      (hsend : Busy.step p.lock (.send () (.save id metadata)) = some p'.lock) :
      Moves p p' .saveMetadata
  | delete {id : ℕ} (hdelete : p'.deleteTarget = some id)
      (hsend : Busy.step p.lock (.send () (.delete id)) = some p'.lock) :
      Moves p p' .confirmDelete
  | handle {i : ℕ} (hediting : p'.editing = p.editing)
      (hdelete : p'.deleteTarget = p.deleteTarget)
      (hhandle : Busy.step p.lock (.handle i) = some p'.lock) : Moves p p' (.handle i)
  | answer {i : ℕ} {ok : Bool} (hanswer : Busy.step p.lock (.answer i) = some p'.lock) :
      Moves p p' (.answer i ok)

theorem moves_of_step (h : p.step a = some p') : Moves p p' a := by
  cases a with
  | poll recordings =>
    obtain rfl := Option.some.inj h
    exact .quiet trivial rfl rfl rfl
  | openEdit id =>
    simp only [step] at h
    split at h
    · cases h
    · split_ifs at h
      obtain rfl := Option.some.inj h
      exact .openEdit rfl rfl rfl
  | type parsed =>
    simp only [step] at h
    split_ifs at h
    obtain rfl := Option.some.inj h
    exact .quiet trivial rfl rfl rfl
  | cancelEdit =>
    simp only [step] at h
    split_ifs at h
    obtain rfl := Option.some.inj h
    exact .cancelEdit rfl rfl rfl
  -- A text that cannot be parsed is reported and not sent.
  | saveMetadata =>
    simp only [step] at h
    split at h
    · cases h
    · rename_i id hediting
      split_ifs at h
      split at h
      · obtain rfl := Option.some.inj h
        exact .quiet trivial rfl rfl rfl
      · obtain ⟨hsend, hsame, _⟩ := withLock_lock h
        exact .save (hsame.trans hediting) hsend
  | askDelete id =>
    simp only [step] at h
    split at h
    · cases h
    · split_ifs at h
      obtain rfl := Option.some.inj h
      exact .askDelete rfl rfl rfl
  | cancelDelete =>
    simp only [step] at h
    split_ifs at h with hcond
    obtain rfl := Option.some.inj h
    rw [Bool.and_eq_true, Bool.not_eq_true'] at hcond
    exact .cancelDelete rfl (Option.isNone_iff_eq_none.mp (Option.isSome_eq_false_iff.mp hcond.2))
  | confirmDelete =>
    simp only [step] at h
    split at h
    · cases h
    · rename_i id hdelete
      split_ifs at h
      obtain ⟨hsend, _, hsame⟩ := withLock_lock h
      exact .delete (hsame.trans hdelete) hsend
  | handle i =>
    obtain ⟨hhandle, hediting, hdelete⟩ := withLock_lock h
    exact .handle hediting hdelete hhandle
  -- An answer to a save or a delete closes its own dialog only.
  | answer i ok =>
    simp only [step] at h
    split at h
    · cases h
    · exact .answer (withLock_lock h).1
    · exact .answer (withLock_lock h).1

theorem inOrder_step (h : InOrder p.lock) (hstep : p.step a = some p') : InOrder p'.lock := by
  cases moves_of_step hstep with
  | quiet _ hlock | openEdit hlock | cancelEdit hlock | askDelete hlock | cancelDelete hlock =>
    rwa [hlock]
  | save _ hsend => exact h.step (overtakes_eq_false hsend) hsend
  | delete _ hsend => exact h.step (overtakes_eq_false hsend) hsend
  | handle _ _ hhandle => exact h.step rfl hhandle
  | answer hanswer => exact h.step rfl hanswer

/-- Nothing on its way closes anything. -/
theorem own_of_nil (h : p.lock.awaited = []) : p.Own :=
  ⟨fun x hx => by simp [h] at hx, fun x hx => by simp [h] at hx⟩

/-- The same forms, and the same requests on their way. -/
theorem own_congr (hrequests : p'.lock.awaited.map Call.request = p.lock.awaited.map Call.request)
    (hediting : p'.editing = p.editing) (hdelete : p'.deleteTarget = p.deleteTarget) :
    p'.Own ↔ p.Own := by
  have hmono : ∀ {q q' : RecordingsPage},
      q'.lock.awaited.map Call.request = q.lock.awaited.map Call.request →
      q'.editing = q.editing → q'.deleteTarget = q.deleteTarget → q.Own → q'.Own := by
    intro q q' hreq hed hdel hq
    have hold : ∀ x ∈ q'.lock.awaited, ∃ y ∈ q.lock.awaited, y.request = x.request := by
      intro x hx
      have hmem := List.mem_map_of_mem (f := Call.request) hx
      rw [hreq] at hmem
      exact List.mem_map.mp hmem
    constructor
    · intro x hx id hid
      obtain ⟨y, hy, heq⟩ := hold x hx
      rw [hed]
      exact hq.save y hy id (by rw [heq, hid])
    · intro x hx id hid
      obtain ⟨y, hy, heq⟩ := hold x hx
      rw [hdel]
      exact hq.delete y hy id (by rw [heq, hid])
  exact ⟨hmono hrequests.symm hediting.symm hdelete.symm, hmono hrequests hediting hdelete⟩

/-- What is on its way after a request was sent. -/
theorem awaited_send (h : InOrder p.lock) {t : Task}
    (hsend : Busy.step p.lock (.send () t) = some p'.lock) :
    p'.lock.awaited = [⟨(), t, false⟩] := by
  have hfree : p.lock.busy = none := by simpa [overtakes] using overtakes_eq_false hsend
  have hnone := h.awaited_nil hfree
  simp only [Busy.step, Lock.send, hfree] at hsend
  rw [if_neg (by simp)] at hsend
  rw [← Option.some.inj hsend, hnone]
  rfl

/-- Handling a request leaves it on its way. -/
theorem requests_handle {i : ℕ} (hhandle : Busy.step p.lock (.handle i) = some p'.lock) :
    p'.lock.awaited.map Call.request = p.lock.awaited.map Call.request := by
  simp only [Busy.step, Lock.handle] at hhandle
  split at hhandle
  · cases hhandle
  · rename_i x hx
    split_ifs at hhandle
    rw [← Option.some.inj hhandle]
    show (p.lock.awaited.set i _).map Call.request = _
    obtain ⟨hi, rfl⟩ := List.getElem?_eq_some_iff.mp hx
    have hlen : i < (p.lock.awaited.map Call.request).length := by simpa using hi
    have hsame : p.lock.awaited[i].request = (p.lock.awaited.map Call.request)[i] := by simp
    rw [List.map_set, hsame, List.set_getElem_self]

/-- The answer is that to the only request. -/
theorem awaited_answer (h : InOrder p.lock) {i : ℕ}
    (hanswer : Busy.step p.lock (.answer i) = some p'.lock) : p'.lock.awaited = [] := by
  have hle := h.awaited_le
  simp only [Busy.step, Lock.answer] at hanswer
  split_ifs at hanswer with hi
  rw [← Option.some.inj hanswer]
  apply List.eq_nil_of_length_eq_zero
  have hlen : (p.lock.awaited.eraseIdx i).length = p.lock.awaited.length - 1 :=
    List.length_eraseIdx_of_lt hi
  show (p.lock.awaited.eraseIdx i).length = 0
  omega

/-- **One step**: an answer still closes its own exactly when the user stays. -/
theorem own_iff_stays (h : InOrder p.lock) (hown : p.Own) (hstep : p.step a = some p') :
    p'.Own ↔ p.Stays a := by
  cases moves_of_step hstep with
  | quiet hstays hlock hediting hdelete =>
    exact ⟨fun _ => hstays, fun _ => (own_congr (by rw [hlock]) hediting hdelete).mpr hown⟩
  | openEdit hlock hediting hdelete =>
    constructor
    · intro hown' x hx i hi
      rw [← hlock] at hx
      exact Option.some.inj ((hown'.save x hx i hi).symm.trans hediting)
    · intro hstays
      constructor
      · intro x hx i hi
        rw [hlock] at hx
        rw [hediting, hstays x hx i hi]
      · intro x hx i hi
        rw [hlock] at hx
        rw [hdelete, hown.delete x hx i hi]
  | cancelEdit hlock hediting hdelete =>
    constructor
    · intro hown' x hx
      rw [← hlock] at hx
      by_contra hsome
      obtain ⟨i, hi⟩ := Option.ne_none_iff_exists'.mp hsome
      exact absurd ((hown'.save x hx i hi).symm.trans hediting) (Option.some_ne_none i)
    · intro hstays
      constructor
      · intro x hx i hi
        rw [hlock] at hx
        rw [hstays x hx] at hi
        cases hi
      · intro x hx i hi
        rw [hlock] at hx
        rw [hdelete, hown.delete x hx i hi]
  | askDelete hlock hediting hdelete =>
    constructor
    · intro hown' x hx i hi
      rw [← hlock] at hx
      exact Option.some.inj ((hown'.delete x hx i hi).symm.trans hdelete)
    · intro hstays
      constructor
      · intro x hx i hi
        rw [hlock] at hx
        rw [hediting, hown.save x hx i hi]
      · intro x hx i hi
        rw [hlock] at hx
        rw [hdelete, hstays x hx i hi]
  | cancelDelete hlock hfree =>
    -- The dialog is disabled while anything is on its way.
    exact ⟨fun _ => trivial, fun _ => own_of_nil (by rw [hlock, h.awaited_nil hfree])⟩
  | save hediting hsend =>
    refine ⟨fun _ => trivial, fun _ => ?_⟩
    have hawaited := awaited_send h hsend
    constructor <;> intro x hx i hi <;> rw [hawaited, List.mem_singleton] at hx <;> subst hx
    · rw [hediting]
      exact hi
    · cases hi
  | delete hdelete hsend =>
    refine ⟨fun _ => trivial, fun _ => ?_⟩
    have hawaited := awaited_send h hsend
    constructor <;> intro x hx i hi <;> rw [hawaited, List.mem_singleton] at hx <;> subst hx
    · cases hi
    · rw [hdelete]
      exact hi
  | handle hediting hdelete hhandle =>
    exact ⟨fun _ => trivial,
      fun _ => (own_congr (requests_handle hhandle) hediting hdelete).mpr hown⟩
  | answer hanswer =>
    exact ⟨fun _ => trivial, fun _ => own_of_nil (awaited_answer h hanswer)⟩

/-- Every run of the page. -/
theorem inOrder_of_run {as : List Action} (h : run step opened as = some p) : InOrder p.lock := by
  have htrue : Along (fun _ _ => True) step opened as := along_of_forall (fun _ _ _ => trivial) _
  exact run_invariant (I := fun p => InOrder p.lock) (fun _ _ _ hs _ hstep => inOrder_step hs hstep)
    as opened p inOrder_free htrue h

/-- A run in which the user stays. -/
theorem own_of_run {as : List Action} (hstays : Along Stays step opened as)
    (h : run step opened as = some p) : p.Own := by
  have hfirst : InOrder opened.lock ∧ opened.Own := ⟨inOrder_free, own_of_nil rfl⟩
  refine (run_invariant (I := fun p => InOrder p.lock ∧ p.Own) ?_ as opened p hfirst hstays h).2
  intro s a s' hs hok hstep
  exact ⟨inOrder_step hs.1 hstep, (own_iff_stays hs.1 hs.2 hstep).mpr hok⟩

/-- **An answer closes what it has saved or deleted, in every state of a run, exactly when the
user stays until it comes**; there is one request on its way, and the server has handled those
before it in their order. -/
theorem answers_close_their_own_iff {as : List Action} (hrun : run step opened as = some p) :
    InOrder p.lock ∧
      ((∀ pre post s, as = pre ++ post → run step opened pre = some s → s.Own) ↔
        Along Stays step opened as) := by
  refine ⟨inOrder_of_run hrun, fun hown => ?_, fun hstays pre post s hsplit hs => ?_⟩
  · rw [along_iff]
    intro pre a post s hsplit hs
    have hnext : ∃ s', s.step a = some s' := by
      rw [hsplit, run_append, hs, Option.bind_some, run_cons, Option.bind_eq_some_iff] at hrun
      obtain ⟨s', hs', _⟩ := hrun
      exact ⟨s', hs'⟩
    obtain ⟨s', hs'⟩ := hnext
    have hafter : run step opened (pre ++ [a]) = some s' := by
      rw [run_append, hs, Option.bind_some, run_cons, hs', Option.bind_some, run_nil]
    refine (own_iff_stays (inOrder_of_run hs) (hown pre (a :: post) s hsplit hs) hs').mp ?_
    exact hown (pre ++ [a]) post s' (by rw [hsplit, List.append_assoc]; rfl) hafter
  · rw [hsplit] at hstays
    exact own_of_run (along_append hstays).1 hs

end Steps

/-- A save that is left: its answer closes the form of another recording. -/
def left : List Action := [
  .poll [(1, ⟨.completed, .obj []⟩), (2, ⟨.completed, .obj []⟩)], .openEdit 1, .saveMetadata,
  .cancelEdit, .openEdit 2, .type (some (.obj [("note", .int 7)])), .handle 0, .answer 0 true]

theorem answers_close_their_own_iff_left : ∃ p, run step opened left = some p ∧
    p.editing = none ∧ p.lock.sent.length = 1 ∧ InOrder p.lock ∧
      ¬ ∀ pre post s, left = pre ++ post → run step opened pre = some s → s.Own := by
  have hrun : run step opened left = some _ := rfl
  obtain ⟨horder, hiff⟩ := answers_close_their_own_iff hrun
  refine ⟨_, hrun, rfl, rfl, horder, fun hown => ?_⟩
  have hstays : Stays _ .cancelEdit := along_iff.mp (hiff.mp hown) (left.take 3) .cancelEdit
    (left.drop 4) _ rfl rfl
  exact absurd (hstays _ (List.mem_singleton_self _)) (Option.some_ne_none 1)

/-! ## What becomes of the metadata -/

/-- The text of the form is an object with these entries, in whatever order. -/
def Shows (p : RecordingsPage) (metadata : Dict String Json) : Prop :=
  ∃ fields, p.metadataJson = some (.obj fields) ∧
    ∀ k, (ofFields fields).lookup k = metadata.lookup k

/-- An answer of the API is read back as it was stored. -/
theorem lookup_ofFields (d : Dict String Json) (k : String) :
    (ofFields (d.entries.map fun e => (e.1, e.2))).lookup k = d.lookup k := by
  have hmerge : ofFields (d.entries.map fun e => (e.1, e.2)) = merge ∅ d := by
    rw [ofFields, List.foldl_map, merge]
  rw [hmerge, lookup_merge, AList.lookup_empty, Option.or_none]

/-- **What the form shows** when it is opened on a row that was polled. -/
theorem shows_openEdit {p p' : RecordingsPage} {id : ℕ} {row : RecordingRow}
    (hpolled : p.recordings.lookup id = some (recordingResponse row))
    (hopen : p.step (.openEdit id) = some p') (metadata : Dict String Json) :
    p'.Shows metadata ↔ ∀ k, row.metadata.lookup k = metadata.lookup k := by
  have htext : p'.metadataJson = some (recordingResponse row).metadata := by
    simp only [step, hpolled] at hopen
    split_ifs at hopen
    rw [← Option.some.inj hopen]
  unfold Shows
  rw [htext]
  constructor
  · rintro ⟨fields, hfields, hall⟩ k
    obtain rfl := Json.obj.inj (Option.some.inj hfields)
    rw [← hall k, lookup_ofFields]
  · exact fun hall => ⟨_, rfl, fun k => by rw [lookup_ofFields, hall k]⟩

section Metadata

variable {t : Tables} {id : ℕ} (cwd : RealPath) (storageRoot : Text)

/-- **What a request leaves of a recording**: the row as it was, or with metadata merged in. -/
theorem recording_request (h : t.Consistent) {r : Request} {o : Oracle DbCall}
    {row' : RecordingRow}
    (hrow' : (final o (r.program cwd storageRoot) t).recordings.lookup id = some row') :
    ∃ row, t.recordings.lookup id = some row ∧ (row' = row ∨
      ∃ new, r = .updateRecording id (some new) ∧
        row' = { row with metadata := merge row.metadata new }) := by
  -- A request that writes another table leaves the row.
  have hsame : ∀ {t' : Tables}, t'.recordings = t.recordings →
      t'.recordings.lookup id = some row' → ∃ row, t.recordings.lookup id = some row ∧
        (row' = row ∨ ∃ new, r = .updateRecording id (some new) ∧
          row' = { row with metadata := merge row.metadata new }) :=
    fun hrecordings hrow => ⟨row', hrecordings ▸ hrow, Or.inl rfl⟩
  -- A removal takes the rows it is about; the row that is there afterwards is none of them.
  have hremoved : ∀ {gone : ℕ → Prop} {t' : Tables}, Removed gone t t' →
      t'.recordings.lookup id = some row' → t.recordings.lookup id = some row' := by
    intro gone t' hr hrow
    by_cases hgone : gone id
    · rw [(hr.recordings id).1 hgone] at hrow
      cases hrow
    · rwa [(hr.recordings id).2 hgone] at hrow
  rcases effect_final cwd storageRoot h r o with hrows | hc
  · exact hsame hrows.2.1 hrow'
  · cases r with
    | createChannel i now payload => exact hsame (Tables.insertChannel_others hc).1 hrow'
    | updateChannel i payload =>
      obtain ⟨row, _, _, hwrite⟩ := hc
      exact hsame (Tables.writeChannel_others hwrite).1 hrow'
    | deleteChannel i => exact ⟨row', hremoved hc.2.removed hrow', Or.inl rfl⟩
    | deleteRecording i => exact ⟨row', hremoved hc.2.removed hrow', Or.inl rfl⟩
    | deleteAsset i => exact ⟨row', hremoved hc.2.removed hrow', Or.inl rfl⟩
    | updateAsset i title metadata =>
      refine hsame ?_ hrow'
      show (final o _ t).recordings = t.recordings
      obtain ⟨row, _, hwritten⟩ := hc
      rw [hwritten]
      rfl
    | updateRecording i metadata =>
      obtain ⟨row, hrow, _, ⟨_, hnew⟩ | ⟨new, rfl, hnew⟩⟩ := hc
      · exact hsame (by show (final o _ t).recordings = _; rw [hnew]) hrow'
      · have hrow' : (final o _ t).recordings.lookup id = some row' := hrow'
        rw [hnew] at hrow'
        have hrow' : (Dict.modify i _ t.recordings).lookup id = some row' := hrow'
        rw [Dict.lookup_modify] at hrow'
        by_cases hi : id = i
        · subst hi
          rw [if_pos rfl, hrow, Option.map_some] at hrow'
          exact ⟨row, hrow, Or.inr ⟨new, rfl, (Option.some.inj hrow').symm⟩⟩
        · rw [if_neg hi] at hrow'
          exact ⟨row', hrow', Or.inl rfl⟩

/-- No other process writes metadata of the recording, and its id is not used again. -/
def LeavesMetadata (id : ℕ) : Event → Prop
  | .write (.recording i f) => i = id → ∀ row, (f row).metadata = row.metadata
  | .write (.addRecording i _) => i ≠ id
  | _ => True

/-- The event is no edit of the metadata of the recording. -/
def Quiet (id : ℕ) (e : Event) : Prop :=
  LeavesMetadata id e ∧ ∀ new o, e ≠ .request (.updateRecording id (some new)) o

/-- What another process writes. -/
theorem metadata_write {w : Write} (hw : LeavesMetadata id (.write w)) {row' : RecordingRow}
    (hrow' : (w.effect t).recordings.lookup id = some row') :
    ∃ row, t.recordings.lookup id = some row ∧ row'.metadata = row.metadata := by
  cases w with
  | status | asset | files => exact ⟨row', hrow', rfl⟩
  | addAsset i new =>
    have hrow' : ((t.insertAsset i new).getD t).recordings.lookup id = some row' := hrow'
    unfold Tables.insertAsset at hrow'
    split_ifs at hrow' <;> exact ⟨row', hrow', rfl⟩
  | recording i f =>
    have hrow' : (Dict.modify i _ t.recordings).lookup id = some row' := hrow'
    rw [Dict.lookup_modify] at hrow'
    split_ifs at hrow' with hi
    · subst hi
      obtain ⟨row, hrow, rfl⟩ := Option.map_eq_some_iff.mp hrow'
      exact ⟨row, hrow, hw rfl row⟩
    · exact ⟨row', hrow', rfl⟩
  | addRecording i new =>
    have hrow' : ((t.insertRecording i new).getD t).recordings.lookup id = some row' := hrow'
    unfold Tables.insertRecording at hrow'
    split_ifs at hrow'
    · exact ⟨row', hrow', rfl⟩
    · have hrow' : (Dict.set i new t.recordings).lookup id = some row' := hrow'
      rw [Dict.lookup_set, if_neg (Ne.symm hw)] at hrow'
      exact ⟨row', hrow', rfl⟩

theorem mem_merge (old new : Dict String Json) (k : String) :
    k ∈ merge old new ↔ k ∈ new ∨ k ∈ old := by
  rw [Dict.mem_iff_exists_lookup, lookup_merge, Dict.mem_iff_exists_lookup,
    Dict.mem_iff_exists_lookup]
  cases new.lookup k <;> simp

/-- **One event** leaves every key. -/
theorem keys_happen (h : t.Consistent) {e : Event} (he : LeavesMetadata id e)
    {row' : RecordingRow}
    (hrow' : (happen cwd storageRoot t e).recordings.lookup id = some row') :
    ∃ row, t.recordings.lookup id = some row ∧ ∀ k ∈ row.metadata, k ∈ row'.metadata := by
  cases e with
  | write w =>
    obtain ⟨row, hrow, hsame⟩ := metadata_write he hrow'
    exact ⟨row, hrow, fun k hk => by rwa [hsame]⟩
  | request r o =>
    obtain ⟨row, hrow, rfl | ⟨new, _, rfl⟩⟩ := recording_request cwd storageRoot h hrow'
    · exact ⟨row', hrow, fun _ hk => hk⟩
    · exact ⟨row, hrow, fun k hk => (mem_merge _ _ k).mpr (Or.inr hk)⟩

/-- **One quiet event** leaves the metadata. -/
theorem metadata_happen (h : t.Consistent) {e : Event} (he : Quiet id e) {row' : RecordingRow}
    (hrow' : (happen cwd storageRoot t e).recordings.lookup id = some row') :
    ∃ row, t.recordings.lookup id = some row ∧ row'.metadata = row.metadata := by
  cases e with
  | write w => exact metadata_write he.1 hrow'
  | request r o =>
    obtain ⟨row, hrow, rfl | ⟨new, rfl, _⟩⟩ := recording_request cwd storageRoot h hrow'
    · exact ⟨row', hrow, rfl⟩
    · exact absurd rfl (he.2 new o)

/-- A relation between the row before and the row after, over a sequence of events. -/
theorem row_happened {P : Event → Prop} {R : RecordingRow → RecordingRow → Prop}
    (hrefl : ∀ row, R row row) (htrans : ∀ a b c, R a b → R b c → R a c)
    (hstep : ∀ {t : Tables} {e : Event} {row' : RecordingRow}, t.Consistent → P e →
      (happen cwd storageRoot t e).recordings.lookup id = some row' →
        ∃ row, t.recordings.lookup id = some row ∧ R row row')
    (h : t.Consistent) (es : List Event) (hes : ∀ e ∈ es, P e) {row' : RecordingRow}
    (hrow' : (happened cwd storageRoot t es).recordings.lookup id = some row') :
    ∃ row, t.recordings.lookup id = some row ∧ R row row' := by
  induction es generalizing t with
  | nil => exact ⟨row', hrow', hrefl row'⟩
  | cons e es ih =>
    obtain ⟨mid, hmid, hrest⟩ := ih (consistent_happened cwd storageRoot h [e])
      (fun e' he' => hes e' (List.mem_cons_of_mem _ he')) hrow'
    obtain ⟨row, hrow, hfirst⟩ := hstep h (hes e List.mem_cons_self) hmid
    exact ⟨row, hrow, htrans _ _ _ hfirst hrest⟩

/-- **No key of the metadata is ever removed** by requests that are handled one after another:
whatever is requested and however it ends, what a recording has once had a value for it has a value
for as long as it is there.  A request is one event here.  Of two PATCHes at once the later commit
writes what it had merged before, and the key of the other one is lost. -/
theorem metadata_keys_stay (h : t.Consistent) (es : List Event)
    (hes : ∀ e ∈ es, LeavesMetadata id e) {row row' : RecordingRow}
    (hrow : t.recordings.lookup id = some row)
    (hrow' : (happened cwd storageRoot t es).recordings.lookup id = some row') :
    ∀ k ∈ row.metadata, k ∈ row'.metadata := by
  obtain ⟨old, hold, hkeys⟩ := row_happened cwd storageRoot
    (R := fun a b => ∀ k ∈ a.metadata, k ∈ b.metadata) (fun _ _ hk => hk)
    (fun _ _ _ hab hbc k hk => hbc k (hab k hk))
    (fun h he hrow' => keys_happen cwd storageRoot h he hrow') h es hes hrow'
  rwa [Option.some.inj (hrow.symm.trans hold)]

/-- Two edits, the second without the key of the first. -/
theorem metadata_keys_stay_edited : ∃ row,
    (happened [] [] (oneChannel .idle .completed)
      [.request (.updateRecording 1 (some (AList.singleton "note" (.int 7)))) allOk,
        .request (.updateRecording 1 (some (AList.singleton "take" (.int 2)))) allOk]
      ).recordings.lookup 1 = some row ∧ "note" ∈ row.metadata := by
  obtain ⟨mid, hmid, hnote⟩ : ∃ mid, (happened [] [] (oneChannel .idle .completed)
      [.request (.updateRecording 1 (some (AList.singleton "note" (.int 7)))) allOk]
      ).recordings.lookup 1 = some mid ∧ "note" ∈ mid.metadata := ⟨_, rfl, by decide⟩
  obtain ⟨row, hrow⟩ : ∃ row, (happened [] [] (happened [] [] (oneChannel .idle .completed)
      [.request (.updateRecording 1 (some (AList.singleton "note" (.int 7)))) allOk])
      [.request (.updateRecording 1 (some (AList.singleton "take" (.int 2)))) allOk]
      ).recordings.lookup 1 = some row := ⟨_, rfl⟩
  refine ⟨row, hrow, ?_⟩
  refine metadata_keys_stay [] [] (consistent_happened [] [] (consistent_oneChannel _ _)
    [.request (.updateRecording 1 (some (AList.singleton "note" (.int 7)))) allOk]) _ ?_ hmid hrow
    _ hnote
  intro e he
  rw [List.mem_singleton] at he
  subst he
  trivial

/-- **The form shows what was saved in it** exactly when nothing was left out: after a save that
was answered, and until the next edit, each key has the value that was typed in, or else the one
that it had when the server saved, whatever the form had shown; and the form that is opened on the
row as it is polled shows that. -/
theorem saved_metadata_reopens_iff (h : t.Consistent) (pre post : List Event)
    {fields : List (String × Json)} {r : Request} {new : Dict String Json} {o : Oracle DbCall}
    (hr : (Task.save id (.obj fields)).request = some r)
    (hnew : r = .updateRecording id (some new))
    (hok : (exec o (r.program cwd storageRoot) (happened cwd storageRoot t pre)).1 = .ok ())
    (hpost : ∀ e ∈ post, Quiet id e) {row row' : RecordingRow}
    (hrow : (happened cwd storageRoot t pre).recordings.lookup id = some row)
    (hrow' : (happened cwd storageRoot t (pre ++ .request r o :: post)).recordings.lookup id =
      some row') :
    (∀ k, row'.metadata.lookup k = (new.lookup k).or (row.metadata.lookup k)) ∧
      ((∀ k, row'.metadata.lookup k = new.lookup k) ↔ ∀ k ∈ row.metadata, k ∈ new) ∧
      ∀ p p' : RecordingsPage, p.recordings.lookup id = some (recordingResponse row') →
        p.step (.openEdit id) = some p' → (p'.Shows new ↔ ∀ k ∈ row.metadata, k ∈ new) := by
  have hbefore := consistent_happened cwd storageRoot h pre
  unfold happened at hrow'
  rw [List.foldl_append, List.foldl_cons] at hrow'
  obtain ⟨saved, hsaved, hsame⟩ := row_happened cwd storageRoot
    (R := fun a b => b.metadata = a.metadata) (fun _ => rfl) (fun _ _ _ hab hbc => hbc.trans hab)
    (fun h he hrow' => metadata_happen cwd storageRoot h he hrow')
    (consistent_happened cwd storageRoot hbefore [.request r o]) post hpost hrow'
  have hkeys : ∀ k, row'.metadata.lookup k = (new.lookup k).or (row.metadata.lookup k) := by
    subst hnew
    obtain ⟨old, hold, _, ⟨hnone, _⟩ | ⟨new', hnew', hwritten⟩⟩ := committed_of_ok hbefore hok
    · cases hnone
    · obtain rfl := Option.some.inj hnew'
      obtain rfl := Option.some.inj (hrow.symm.trans hold)
      have hsaved : (final o _ (happened cwd storageRoot t pre)).recordings.lookup id =
        some saved := hsaved
      rw [hwritten] at hsaved
      have hsaved : (Dict.modify id _ (happened cwd storageRoot t pre).recordings).lookup id =
        some saved := hsaved
      rw [Dict.lookup_modify, if_pos rfl, hrow, Option.map_some] at hsaved
      intro k
      rw [hsame, ← Option.some.inj hsaved]
      exact lookup_merge row.metadata new k
  have hiff : (∀ k, row'.metadata.lookup k = new.lookup k) ↔ ∀ k ∈ row.metadata, k ∈ new := by
    refine ⟨fun hall k hk => ?_, fun hall k => ?_⟩
    · obtain ⟨v, hv⟩ := Dict.mem_iff_exists_lookup.mp hk
      have hk' := (hkeys k).symm.trans (hall k)
      cases hl : new.lookup k with
      | some w => exact Dict.mem_iff_exists_lookup.mpr ⟨w, hl⟩
      | none =>
        rw [hl, hv] at hk'
        cases hk'
    · rw [hkeys k]
      cases hl : new.lookup k with
      | some w => rfl
      | none =>
        -- What was left out the row did not have.
        have hno : k ∉ row.metadata := fun hk =>
          AList.lookup_eq_none.mp hl (hall k hk)
        rw [AList.lookup_eq_none.mpr hno]
        rfl
  exact ⟨hkeys, hiff, fun p p' hpolled hopen => (shows_openEdit hpolled hopen new).trans hiff⟩

/-- The take is noted, then the form is saved with another take and a note, and at last the title
of the asset is changed. -/
theorem saved_metadata_reopens_iff_noted : ∃ row row',
    (happened [] [] (oneChannel .idle .completed)
      [.request (.updateRecording 1 (some (Dict.set "take" (.int 1) ∅))) allOk]
      ).recordings.lookup 1 = some row ∧ "take" ∈ row.metadata ∧
    (happened [] [] (oneChannel .idle .completed)
      [.request (.updateRecording 1 (some (Dict.set "take" (.int 1) ∅))) allOk,
        .request (.updateRecording 1 (some (ofFields [("take", .int 2), ("note", .int 7)]))) allOk,
        .request (.updateAsset 2 (some "Late news") none) allOk]).recordings.lookup 1 = some row' ∧
    ∀ p p' : RecordingsPage, p.recordings.lookup 1 = some (recordingResponse row') →
      p.step (.openEdit 1) = some p' →
        p'.Shows (ofFields [("take", .int 2), ("note", .int 7)]) := by
  obtain ⟨row, hrow, hkeys, htake⟩ : ∃ row, (happened [] [] (oneChannel .idle .completed)
      [.request (.updateRecording 1 (some (Dict.set "take" (.int 1) ∅))) allOk]
      ).recordings.lookup 1 = some row ∧ row.metadata.keys = ["take"] ∧ "take" ∈ row.metadata :=
    ⟨_, rfl, rfl, by decide⟩
  obtain ⟨row', hrow'⟩ : ∃ row', (happened [] [] (oneChannel .idle .completed)
      ([.request (.updateRecording 1 (some (Dict.set "take" (.int 1) ∅))) allOk] ++
        .request (.updateRecording 1 (some (ofFields [("take", .int 2), ("note", .int 7)])))
          allOk ::
        [.request (.updateAsset 2 (some "Late news") none) allOk])).recordings.lookup 1 =
      some row' := ⟨_, rfl⟩
  refine ⟨row, row', hrow, htake, hrow', fun p p' hpolled hopen => ?_⟩
  have hquiet : ∀ e ∈ [Event.request (.updateAsset 2 (some "Late news") none) allOk],
      Quiet 1 e := by
    intro e he
    rw [List.mem_singleton] at he
    subst he
    exact ⟨trivial, fun _ _ h => by cases h⟩
  refine ((saved_metadata_reopens_iff [] [] (consistent_oneChannel .idle .completed)
    [.request (.updateRecording 1 (some (Dict.set "take" (.int 1) ∅))) allOk]
    [.request (.updateAsset 2 (some "Late news") none) allOk]
    (rfl : (Task.save 1 (.obj [("take", .int 2), ("note", .int 7)])).request = some _) rfl rfl
    hquiet hrow hrow').2.2 p p' hpolled hopen).mpr ?_
  intro k hk
  have hk : k ∈ row.metadata.keys := AList.mem_keys.mp hk
  rw [hkeys, List.mem_singleton] at hk
  subst hk
  decide

end Metadata

end RecordingsPage
