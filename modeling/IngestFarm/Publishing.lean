/-
# Publishing files

Threads that write files which others read at any moment.  A program is a tree of file
operations, each with what follows it and what follows its error, and an operation takes many
steps: to open, one for each piece, to close.  A directory gives names to contents, as a file
system does: replacing moves a name, and a handle stays with the content that it was opened on.

A thread that writes to names of its own and moves them to the published ones publishes whole
documents; a reader then gets one of these, however its reading is cut up and delayed.
-/
import IngestFarm.Runs

namespace Publishing

open Runs

/-- The content of a file. -/
abbrev Bytes := List UInt8

/-- A program over files named by `ν`. -/
inductive Program (ν : Type) where
  | done
  | write (path : ν) (data : Bytes) (next failed : Program ν)
  | replace (source target : ν) (next failed : Program ν)
  | unlink (path : ν) (next failed : Program ν)
  | stat (path : ν) (next : Option ℕ → Program ν)
  | read (path : ν) (next : Bytes → Program ν) (failed : Program ν)

/-- The names of a directory and the contents, numbered in the order of their creation. -/
structure Disk (ν : Type) where
  entry : ν → Option ℕ
  content : ℕ → Bytes
  unused : ℕ

/-- Where a thread is: its handle is a content with what is left to write or was read so far. -/
structure Thread (ν : Type) where
  program : Program ν
  handle : Option (ℕ × Bytes)

/-- Whether the next operation fails, and else the length of its next piece, less one. -/
inductive Outcome
  | fails
  | goes (n : ℕ)
  deriving DecidableEq

namespace Disk

variable {ν : Type}

/-- What a name shows. -/
def shows (disk : Disk ν) (path : ν) : Option Bytes := (disk.entry path).map disk.content

/-- What a reader sees at a path. -/
theorem shows_eq_some {disk : Disk ν} {path : ν} {bytes : Bytes} :
    disk.shows path = some bytes ↔ ∃ i, disk.entry path = some i ∧ disk.content i = bytes := by
  rw [shows, Option.map_eq_some_iff]

/-- A disk without files. -/
def empty : Disk ν := ⟨fun _ => none, fun _ => [], 0⟩

variable [DecidableEq ν]

/-- To open for writing empties the content, or creates one. -/
def openWrite (disk : Disk ν) (path : ν) : Disk ν × ℕ :=
  match disk.entry path with
  | some i => ({ disk with content := Function.update disk.content i [] }, i)
  | none =>
    ({ entry := Function.update disk.entry path (some disk.unused)
       content := Function.update disk.content disk.unused []
       unused := disk.unused + 1 }, disk.unused)

/-- A piece is written at the end of an open file. -/
def append (disk : Disk ν) (i : ℕ) (piece : Bytes) : Disk ν :=
  { disk with content := Function.update disk.content i (disk.content i ++ piece) }

/-- A path gets the file of another one, and what it showed before is gone. -/
def rename (disk : Disk ν) (source : ν) (i : ℕ) (target : ν) : Disk ν :=
  { disk with entry := Function.update (Function.update disk.entry target (some i)) source none }

/-- A path shows nothing any more; open files are not touched. -/
def unlink (disk : Disk ν) (path : ν) : Disk ν :=
  { disk with entry := Function.update disk.entry path none }

end Disk

section Steps

variable {ν : Type} [DecidableEq ν]

/-- A step of `write`. -/
def Thread.write (disk : Disk ν) (handle : Option (ℕ × Bytes)) (path : ν) (data : Bytes)
    (next failed : Program ν) : Outcome → Disk ν × Thread ν
  | .fails => (disk, ⟨failed, none⟩)
  | .goes n =>
    match handle with
    | none => ((disk.openWrite path).1,
        ⟨.write path data next failed, some ((disk.openWrite path).2, data)⟩)
    | some (i, rest) =>
      if rest = [] then (disk, ⟨next, none⟩)
      else (disk.append i (rest.take (n + 1)),
        ⟨.write path data next failed, some (i, rest.drop (n + 1))⟩)

/-- A step of `read`. -/
def Thread.read (disk : Disk ν) (handle : Option (ℕ × Bytes)) (path : ν)
    (next : Bytes → Program ν) (failed : Program ν) : Outcome → Thread ν
  | .fails => ⟨failed, none⟩
  | .goes n =>
    match handle with
    | none =>
      match disk.entry path with
      | none => ⟨failed, none⟩
      | some i => ⟨.read path next failed, some (i, [])⟩
    | some (i, got) =>
      let rest := (disk.content i).drop got.length
      if rest = [] then ⟨next got, none⟩
      else ⟨.read path next failed, some (i, got ++ rest.take (n + 1))⟩

/-- One step of a thread; `none` for one that has nothing to do. -/
def Thread.step (disk : Disk ν) (thread : Thread ν) (outcome : Outcome) :
    Option (Disk ν × Thread ν) :=
  match thread.program, outcome with
  | .done, _ => none
  | .write path data next failed, _ =>
    some (Thread.write disk thread.handle path data next failed outcome)
  | .replace _ _ _ failed, .fails => some (disk, ⟨failed, none⟩)
  | .replace source target next failed, .goes _ =>
    match disk.entry source with
    | none => some (disk, ⟨failed, none⟩)
    | some i => some (disk.rename source i target, ⟨next, none⟩)
  | .unlink _ _ failed, .fails => some (disk, ⟨failed, none⟩)
  | .unlink path next _, .goes _ => some (disk.unlink path, ⟨next, none⟩)
  | .stat _ next, .fails => some (disk, ⟨next none, none⟩)
  | .stat path next, .goes _ => some (disk, ⟨next ((disk.shows path).map List.length), none⟩)
  | .read path next failed, _ =>
    some (disk, Thread.read disk thread.handle path next failed outcome)

end Steps

/-- The calls that start programs, each in a thread of its own kind and, where it publishes, with
a document. -/
structure Code (ν τ γ : Type) where
  thread : γ → τ
  body : γ → Program ν
  document : γ → Option Bytes
  accepts : γ → Bool

/-- Which names are published, and which thread writes documents for a name. -/
structure Layout (ν τ : Type) where
  published : ν → Bool
  owner : ν → τ

/-- The directory, the threads and the documents that each thread was called with. -/
structure State (ν τ : Type) where
  disk : Disk ν
  threads : τ → Thread ν
  documents : τ → List Bytes

/-- A call into a thread that has nothing to do, or a step of a thread. -/
inductive Action (τ γ : Type)
  | call (c : γ)
  | step (t : τ) (outcome : Outcome)

/-- The writer has nothing left to do. -/
def Program.isDone {ν : Type} : Program ν → Bool
  | .done => true
  | _ => false

section Runs

variable {ν τ γ : Type} [DecidableEq ν]

/-- Nothing was written, and no thread has anything to do. -/
def start : State ν τ := ⟨.empty, fun _ => ⟨.done, none⟩, fun _ => []⟩

variable (code : Code ν τ γ) (layout : Layout ν τ)

/-- A call begins a program, and a thread does its next operation. -/
def step [DecidableEq τ] (s : State ν τ) : Action τ γ → Option (State ν τ)
  | .call c =>
    if (s.threads (code.thread c)).program.isDone && code.accepts c then
      some { s with
        threads := Function.update s.threads (code.thread c) ⟨code.body c, none⟩
        documents := Function.update s.documents (code.thread c)
          (s.documents (code.thread c) ++ (code.document c).toList) }
    else none
  | .step t outcome =>
    ((s.threads t).step s.disk outcome).map fun r =>
      { s with disk := r.1, threads := Function.update s.threads t r.2 }

/-- The file that a step opens for writing. -/
def opens (s : State ν τ) : Action τ γ → Option ν
  | .step t (.goes _) =>
    match s.threads t with
    | ⟨.write path _ _ _, none⟩ => some path
    | _ => none
  | _ => none

/-- No published file is written in place. -/
def NotInPlace (s : State ν τ) (a : Action τ γ) : Prop :=
  ∀ path, opens s a = some path → layout.published path = false

/-- **What a reader gets** that has read `got` from content `i`, and reads on while the threads
go on. -/
inductive Reads [DecidableEq τ] : State ν τ → ℕ → Bytes → List (Action τ γ) → Bytes → Prop
  | eof {s i got as} : (s.disk.content i).drop got.length = [] → Reads s i got as got
  | piece {s i got as bytes} (n : ℕ) :
      Reads s i (got ++ ((s.disk.content i).drop got.length).take n) as bytes →
      Reads s i got as bytes
  | wait {s i got as bytes a t} : step code s a = some t → Reads t i got as bytes →
      Reads s i got (a :: as) bytes

/-- A program that writes names of its thread only, and moves a name to a published one only when
the newest document was written there. -/
def Publishes (t : τ) (newest : Option Bytes) : Option (ν × Bytes) → Program ν → Prop
  | _, .done => True
  | _, .write path data next failed =>
    (layout.published path = false →
      layout.owner path = t ∧ Publishes t newest (some (path, data)) next) ∧
    Publishes t newest none failed
  | written, .replace source target next failed =>
    (layout.published target = true ∧ layout.owner target = t) ∧
    (∃ document, written = some (source, document) ∧ newest = some document) ∧
    Publishes t newest none next ∧ Publishes t newest none failed
  | _, .unlink path next failed =>
    (layout.published path = false ∧ layout.owner path = t) ∧
    Publishes t newest none next ∧ Publishes t newest none failed
  | _, .stat _ next => ∀ size, Publishes t newest none (next size)
  | _, .read _ next failed =>
    (∀ bytes, Publishes t newest none (next bytes)) ∧ Publishes t newest none failed

/-- Every program that a call starts publishes as it should, when its document is the newest. -/
def Sound : Prop :=
  ∀ c newest, (∀ document, code.document c = some document → newest = some document) →
    code.accepts c = true → Publishes layout (code.thread c) newest none (code.body c)

/-- What was written is on the disk, under a name that only the thread uses. -/
def Written (disk : Disk ν) (t : τ) (written : Option (ν × Bytes)) : Prop :=
  ∀ path document, written = some (path, document) → layout.published path = false ∧
    layout.owner path = t ∧ disk.shows path = some document

/-- A thread is on its way to publish: what it began to write is under a name of its own. -/
structure OnItsWay (disk : Disk ν) (t : τ) (newest : Option Bytes) (thread : Thread ν) :
    Prop where
  publishes : ∃ written, Publishes layout t newest written thread.program ∧
    Written layout disk t written
  writing : ∀ path data next failed i rest,
    thread = ⟨.write path data next failed, some (i, rest)⟩ →
    (layout.published path = false ∧ layout.owner path = t) ∧
      disk.entry path = some i ∧ disk.content i ++ rest = data

/-- No two names have one content. -/
def Distinct (entry : ν → Option ℕ) : Prop :=
  ∀ path path' i, entry path = some i → entry path' = some i → path = path'

/-- The invariant: names have contents of their own, and published ones whole documents. -/
structure Inv (s : State ν τ) : Prop where
  used : ∀ path i, s.disk.entry path = some i → i < s.disk.unused
  distinct : Distinct s.disk.entry
  whole : ∀ path bytes, layout.published path = true → s.disk.shows path = some bytes →
    bytes ∈ s.documents (layout.owner path)
  onItsWay : ∀ t, OnItsWay layout s.disk t (s.documents t).getLast? (s.threads t)

/-- A content that no name of a thread has: nobody writes it any more. -/
def Sealed (disk : Disk ν) (i : ℕ) : Prop :=
  i < disk.unused ∧ ∀ path, layout.published path = false → disk.entry path ≠ some i

/-- What a thread does to the disk in one step. -/
inductive Effect (disk : Disk ν) (t : τ) (newest : Option Bytes) : Disk ν → Prop
  | idle : Effect disk t newest disk
  | opened (path : ν) : layout.published path = false → layout.owner path = t →
      Effect disk t newest (disk.openWrite path).1
  | appended (path : ν) (i : ℕ) (piece : Bytes) : layout.published path = false →
      layout.owner path = t → disk.entry path = some i → Effect disk t newest (disk.append i piece)
  | renamed (source : ν) (i : ℕ) (target : ν) : layout.published source = false →
      layout.owner source = t → disk.entry source = some i → layout.published target = true →
      layout.owner target = t → newest = some (disk.content i) →
      Effect disk t newest (disk.rename source i target)
  | unlinked (path : ν) : layout.published path = false → layout.owner path = t →
      Effect disk t newest (disk.unlink path)

/-! ## The disk -/

namespace Disk

/-- To open for writing: the name has an empty content. -/
theorem openWrite_entry (disk : Disk ν) (path : ν) :
    (disk.openWrite path).1.entry path = some (disk.openWrite path).2 ∧
      (disk.openWrite path).1.content (disk.openWrite path).2 = [] := by
  unfold openWrite
  cases h : disk.entry path with
  | none => simp
  | some i => simp [h]

/-- Opening one path leaves the others. -/
theorem openWrite_entry_of_ne {disk : Disk ν} {path path' : ν} (h : path' ≠ path) :
    (disk.openWrite path).1.entry path' = disk.entry path' := by
  unfold openWrite
  cases disk.entry path with
  | none => simp [h]
  | some i => rfl

/-- Another content is not touched. -/
theorem openWrite_content_of_ne {disk : Disk ν} {path : ν} {i : ℕ}
    (hlt : i < disk.unused) (h : disk.entry path ≠ some i) :
    (disk.openWrite path).1.content i = disk.content i := by
  unfold openWrite
  cases hp : disk.entry path with
  | none =>
    have hne : i ≠ disk.unused := by omega
    simp [hne]
  | some j =>
    have hne : i ≠ j := by
      rintro rfl
      exact h hp
    simp [hne]

/-- A number is used once. -/
theorem unused_le_openWrite (disk : Disk ν) (path : ν) :
    disk.unused ≤ (disk.openWrite path).1.unused := by
  unfold openWrite
  cases disk.entry path with
  | none => simp
  | some i => simp

end Disk

/-- A path that goes. -/
theorem Distinct.update_none {entry : ν → Option ℕ} (h : Distinct entry) {path : ν} :
    Distinct (Function.update entry path none) := by
  have hback : ∀ {path' i}, Function.update entry path none path' = some i →
      entry path' = some i := by
    intro path' i hi
    by_cases heq : path' = path
    · subst heq
      simp at hi
    · rwa [Function.update_of_ne heq] at hi
  exact fun p q i hp hq => h p q i (hback hp) (hback hq)

/-- A name may be given a content that no other name has. -/
theorem Distinct.update_some {entry : ν → Option ℕ} (h : Distinct entry) {path : ν} {i : ℕ}
    (hfresh : ∀ path', entry path' = some i → False) :
    Distinct (Function.update entry path (some i)) := by
  intro p q j hp hq
  by_cases heqp : p = path
  · by_cases heqq : q = path
    · rw [heqp, heqq]
    · rw [heqp, Function.update_self] at hp
      rw [Function.update_of_ne heqq, ← hp] at hq
      exact (hfresh q hq).elim
  · rw [Function.update_of_ne heqp] at hp
    by_cases heqq : q = path
    · rw [heqq, Function.update_self] at hq
      rw [← hq] at hp
      exact (hfresh p hp).elim
    · rw [Function.update_of_ne heqq] at hq
      exact h p q j hp hq

section Effects

variable {layout} {disk disk' : Disk ν} {t : τ} {newest : Option Bytes}

/-- The names of another thread stay. -/
theorem Effect.entry_of_owner_ne (h : Effect layout disk t newest disk') {path : ν}
    (hpath : layout.owner path ≠ t) : disk'.entry path = disk.entry path := by
  have hne : ∀ path', layout.owner path' = t → path ≠ path' := by
    rintro path' howner rfl
    exact hpath howner
  cases h with
  | idle => rfl
  | opened path' hprivate howner => exact Disk.openWrite_entry_of_ne (hne path' howner)
  | appended path' i piece hprivate howner hentry => rfl
  | renamed source i target hprivate howner hentry hpublished howner' hnewest =>
    simp [Disk.rename, hne source howner, hne target howner']
  | unlinked path' hprivate howner => simp [Disk.unlink, hne path' howner]

/-- A name that is not published is moved, removed or created, never given another content. -/
theorem Effect.entry_of_private (h : Effect layout disk t newest disk')
    {path : ν} (hpath : layout.published path = false) {i : ℕ} (hi : disk'.entry path = some i)
    (hlt : i < disk.unused) : disk.entry path = some i := by
  cases h with
  | idle => exact hi
  | opened path' hprivate howner =>
    by_cases heq : path = path'
    · subst heq
      unfold Disk.openWrite at hi
      cases hp : disk.entry path with
      | none =>
        simp only [hp, Function.update_self, Option.some.injEq] at hi
        omega
      | some j => simpa [hp] using hi
    · rwa [Disk.openWrite_entry_of_ne heq] at hi
  | appended path' j piece hprivate howner hentry => exact hi
  | renamed source j target hprivate howner hentry hpublished howner' hnewest =>
    have htarget : path ≠ target := by
      rintro rfl
      rw [hpath] at hpublished
      exact absurd hpublished (by simp)
    by_cases heq : path = source
    · subst heq
      simp [Disk.rename] at hi
    · simpa [Disk.rename, heq, htarget] using hi
  | unlinked path' hprivate howner =>
    by_cases heq : path = path'
    · subst heq
      simp [Disk.unlink] at hi
    · simpa [Disk.unlink, heq] using hi

/-- A content that no name of the thread has stays, and stays so. -/
theorem Effect.content_eq (h : Effect layout disk t newest disk') {i : ℕ} (hlt : i < disk.unused)
    (hi : ∀ path, layout.published path = false → layout.owner path = t →
      disk.entry path ≠ some i) : disk'.content i = disk.content i := by
  cases h with
  | idle => rfl
  | opened path' hprivate howner =>
    exact Disk.openWrite_content_of_ne hlt (hi path' hprivate howner)
  | appended path' j piece hprivate howner hentry =>
    have hne : i ≠ j := by
      rintro rfl
      exact hi path' hprivate howner hentry
    simp [Disk.append, hne]
  | renamed source j target hprivate howner hentry hpublished howner' hnewest => rfl
  | unlinked path' hprivate howner => rfl

/-- Numbers only grow. -/
theorem Effect.unused_le (h : Effect layout disk t newest disk') :
    disk.unused ≤ disk'.unused := by
  cases h with
  | idle => exact le_rfl
  | opened path' hprivate howner => exact Disk.unused_le_openWrite disk path'
  | appended path' j piece hprivate howner hentry => exact le_rfl
  | renamed source j target hprivate howner hentry hpublished howner' hnewest => exact le_rfl
  | unlinked path' hprivate howner => exact le_rfl

/-- **A published name** stays as it is, or is given the newest document. -/
theorem Effect.entry_of_published (h : Effect layout disk t newest disk') {path : ν}
    (hpath : layout.published path = true) :
    disk'.entry path = disk.entry path ∨
      ∃ i, disk'.entry path = some i ∧ newest = some (disk'.content i) ∧
        layout.owner path = t := by
  have hne : ∀ path', layout.published path' = false → path ≠ path' := by
    rintro path' hprivate rfl
    rw [hpath] at hprivate
    exact absurd hprivate (by simp)
  cases h with
  | idle => exact Or.inl rfl
  | opened path' hprivate howner =>
    exact Or.inl (Disk.openWrite_entry_of_ne (hne path' hprivate))
  | appended path' i piece hprivate howner hentry => exact Or.inl rfl
  | renamed source i target hprivate howner hentry hpublished howner' hnewest =>
    by_cases heq : path = target
    · subst heq
      refine Or.inr ⟨i, ?_, hnewest, howner'⟩
      simp [Disk.rename, hne source hprivate]
    · exact Or.inl (by simp [Disk.rename, hne source hprivate, heq])
  | unlinked path' hprivate howner =>
    exact Or.inl (by simp [Disk.unlink, hne path' hprivate])

/-- **A sealed content** stays as it is, and stays sealed. -/
theorem Effect.sealed (h : Effect layout disk t newest disk') {i : ℕ}
    (hi : Sealed layout disk i) :
    Sealed layout disk' i ∧ disk'.content i = disk.content i := by
  refine ⟨⟨hi.1.trans_le h.unused_le, fun path hpath hentry => ?_⟩, ?_⟩
  · exact hi.2 path hpath (h.entry_of_private hpath hentry hi.1)
  · exact h.content_eq hi.1 fun path hpath _ => hi.2 path hpath

omit [DecidableEq ν] in
/-- Nothing is being written. -/
theorem written_none : Written layout disk t none := fun _ _ h => absurd h (by simp)

omit [DecidableEq ν] in
/-- A thread that has just begun or ended an operation. -/
theorem OnItsWay.of_publishes {program : Program ν} (h : Publishes layout t newest none program) :
    OnItsWay layout disk t newest ⟨program, none⟩ where
  publishes := ⟨none, h, written_none⟩
  writing := by
    intro path data next failed i rest heq
    exact absurd (congrArg Thread.handle heq) (by simp)

/-- A step of `write`, to a file of the thread's own. -/
theorem OnItsWay.write_step {path : ν} {data : Bytes} {next failed : Program ν}
    {handle : Option (ℕ × Bytes)} {outcome : Outcome}
    (h : OnItsWay layout disk t newest ⟨.write path data next failed, handle⟩)
    (hplace : ∀ n, outcome = .goes n → handle = none → layout.published path = false)
    {r : Disk ν × Thread ν} (hr : Thread.write disk handle path data next failed outcome = r) :
    Effect layout disk t newest r.1 ∧ OnItsWay layout r.1 t newest r.2 := by
  obtain ⟨written, ⟨hnext, hfailed⟩, -⟩ := h.publishes
  subst hr
  cases outcome with
  | fails => exact ⟨.idle, .of_publishes hfailed⟩
  | goes n =>
    cases handle with
    | none =>
      -- The file is opened anew, and the whole of the data is still to be written.
      have hprivate := hplace n rfl rfl
      have howner := (hnext hprivate).1
      obtain ⟨hentry, hempty⟩ := Disk.openWrite_entry disk path
      refine ⟨.opened path hprivate howner, ⟨none, ⟨hnext, hfailed⟩, written_none⟩, ?_⟩
      rintro _ _ _ _ _ _ ⟨⟩
      have hdata : (disk.openWrite path).1.content (disk.openWrite path).2 ++ data = data := by
        rw [hempty, List.nil_append]
      exact ⟨⟨hprivate, howner⟩, hentry, hdata⟩
    | some handle =>
      obtain ⟨i, rest⟩ := handle
      obtain ⟨⟨hprivate, howner⟩, hentry, hdata⟩ := h.writing path data next failed i rest rfl
      simp only [Thread.write]
      split_ifs with hrest
      · -- the file is closed: all of the data is there
        rw [hrest, List.append_nil] at hdata
        refine ⟨.idle, ⟨some (path, data), (hnext hprivate).2, ?_⟩, ?_⟩
        · rintro _ _ ⟨⟩
          exact ⟨hprivate, howner, Disk.shows_eq_some.mpr ⟨i, hentry, hdata⟩⟩
        · intro _ _ _ _ _ _ heq
          exact absurd (congrArg Thread.handle heq) (by simp)
      · refine ⟨.appended path i _ hprivate howner hentry,
          ⟨none, ⟨hnext, hfailed⟩, written_none⟩, ?_⟩
        rintro _ _ _ _ _ _ ⟨⟩
        refine ⟨⟨hprivate, howner⟩, hentry, ?_⟩
        simp [Disk.append, List.append_assoc, hdata]

omit [DecidableEq ν] in
/-- A step of `read`. -/
theorem OnItsWay.read_step {path : ν} {next : Bytes → Program ν} {failed : Program ν}
    (hnext : ∀ bytes, Publishes layout t newest none (next bytes))
    (hfailed : Publishes layout t newest none failed) (handle : Option (ℕ × Bytes))
    (outcome : Outcome) :
    OnItsWay layout disk t newest (Thread.read disk handle path next failed outcome) := by
  have hread : ∀ handle, OnItsWay layout disk t newest ⟨.read path next failed, handle⟩ := by
    refine fun handle => ⟨⟨none, ⟨hnext, hfailed⟩, written_none⟩, ?_⟩
    intro _ _ _ _ _ _ heq
    exact absurd (congrArg Thread.program heq) (by simp)
  cases outcome with
  | fails => exact .of_publishes hfailed
  | goes n =>
    cases handle with
    | none =>
      simp only [Thread.read]
      cases disk.entry path with
      | none => exact .of_publishes hfailed
      | some i => exact hread _
    | some handle =>
      simp only [Thread.read]
      split_ifs
      · exact .of_publishes (hnext _)
      · exact hread _

/-- **A step of a thread** that writes no published file in place. -/
theorem OnItsWay.step {thread thread' : Thread ν} {outcome : Outcome}
    (h : OnItsWay layout disk t newest thread)
    (hplace : ∀ path data next failed n, outcome = .goes n →
      thread = ⟨.write path data next failed, none⟩ → layout.published path = false)
    (hstep : thread.step disk outcome = some (disk', thread')) :
    Effect layout disk t newest disk' ∧ OnItsWay layout disk' t newest thread' := by
  obtain ⟨program, handle⟩ := thread
  obtain ⟨written, hpublishes, hwritten⟩ := h.publishes
  -- A replace shows the document that the private file holds; no other operation touches a
  -- published one.
  cases program with
  | done => exact absurd hstep (by simp [Thread.step])
  | write path data next failed =>
    simp only [Thread.step, Option.some.injEq] at hstep
    refine h.write_step (fun n hgoes hhandle => ?_) hstep
    exact hplace path data next failed n hgoes (by rw [hhandle])
  | replace source target next failed =>
    obtain ⟨⟨hpublished, howner⟩, ⟨document, rfl, hnewest⟩, hnext, hfailed⟩ := hpublishes
    obtain ⟨hprivate, howner', hshows⟩ := hwritten source document rfl
    obtain ⟨i, hentry, hcontent⟩ := Disk.shows_eq_some.mp hshows
    cases outcome with
    | fails =>
      simp only [Thread.step, Option.some.injEq] at hstep
      obtain ⟨rfl, rfl⟩ := Prod.mk.inj hstep
      exact ⟨.idle, .of_publishes hfailed⟩
    | goes n =>
      simp only [Thread.step, hentry, Option.some.injEq] at hstep
      obtain ⟨rfl, rfl⟩ := Prod.mk.inj hstep
      rw [← hcontent] at hnewest
      exact ⟨.renamed source i target hprivate howner' hentry hpublished howner hnewest,
        .of_publishes hnext⟩
  | unlink path next failed =>
    obtain ⟨⟨hprivate, howner⟩, hnext, hfailed⟩ := hpublishes
    cases outcome with
    | fails =>
      simp only [Thread.step, Option.some.injEq] at hstep
      obtain ⟨rfl, rfl⟩ := Prod.mk.inj hstep
      exact ⟨.idle, .of_publishes hfailed⟩
    | goes n =>
      simp only [Thread.step, Option.some.injEq] at hstep
      obtain ⟨rfl, rfl⟩ := Prod.mk.inj hstep
      exact ⟨.unlinked path hprivate howner, .of_publishes hnext⟩
  | stat path next =>
    cases outcome with
    | fails =>
      simp only [Thread.step, Option.some.injEq] at hstep
      obtain ⟨rfl, rfl⟩ := Prod.mk.inj hstep
      exact ⟨.idle, .of_publishes (hpublishes none)⟩
    | goes n =>
      simp only [Thread.step, Option.some.injEq] at hstep
      obtain ⟨rfl, rfl⟩ := Prod.mk.inj hstep
      exact ⟨.idle, .of_publishes (hpublishes _)⟩
  | read path next failed =>
    obtain ⟨hnext, hfailed⟩ := hpublishes
    simp only [Thread.step, Option.some.injEq] at hstep
    obtain ⟨rfl, rfl⟩ := Prod.mk.inj hstep
    exact ⟨.idle, .read_step hnext hfailed handle outcome⟩

/-- **A step of another thread** leaves a thread on its way. -/
theorem OnItsWay.frame {u : τ} {newest' : Option Bytes} {thread : Thread ν}
    (h : OnItsWay layout disk u newest' thread) (heffect : Effect layout disk t newest disk')
    (hne : u ≠ t) (hused : ∀ path i, disk.entry path = some i → i < disk.unused)
    (hdistinct : Distinct disk.entry) : OnItsWay layout disk' u newest' thread := by
  have hkeep : ∀ path i, layout.owner path = u → disk.entry path = some i →
      disk'.entry path = some i ∧ disk'.content i = disk.content i := by
    intro path i howner hentry
    refine ⟨?_, heffect.content_eq (hused path i hentry) ?_⟩
    · rw [heffect.entry_of_owner_ne (by rw [howner]; exact hne), hentry]
    · intro path' _ howner' hentry'
      obtain rfl := hdistinct path path' i hentry hentry'
      exact hne (howner.symm.trans howner')
  obtain ⟨written, hpublishes, hwritten⟩ := h.publishes
  refine ⟨⟨written, hpublishes, fun path document hdocument => ?_⟩, ?_⟩
  · obtain ⟨hprivate, howner, hshows⟩ := hwritten path document hdocument
    obtain ⟨i, hentry, hcontent⟩ := Disk.shows_eq_some.mp hshows
    obtain ⟨hentry', hcontent'⟩ := hkeep path i howner hentry
    exact ⟨hprivate, howner, Disk.shows_eq_some.mpr ⟨i, hentry', hcontent'.trans hcontent⟩⟩
  · intro path data next failed i rest heq
    obtain ⟨⟨hprivate, howner⟩, hentry, hdata⟩ := h.writing path data next failed i rest heq
    obtain ⟨hentry', hcontent'⟩ := hkeep path i howner hentry
    exact ⟨⟨hprivate, howner⟩, hentry', by rw [hcontent', hdata]⟩

/-- What is shown has a number that was used. -/
theorem Effect.used (h : Effect layout disk t newest disk')
    (hused : ∀ path i, disk.entry path = some i → i < disk.unused) :
    ∀ path i, disk'.entry path = some i → i < disk'.unused := by
  intro path i hi
  cases h with
  | idle => exact hused path i hi
  | opened path' hprivate howner =>
    by_cases heq : path = path'
    · subst heq
      cases hp : disk.entry path with
      | none =>
        simp only [Disk.openWrite, hp, Function.update_self, Option.some.injEq] at hi ⊢
        omega
      | some j =>
        simp only [Disk.openWrite, hp] at hi ⊢
        exact hused path i (hp.trans hi)
    · rw [Disk.openWrite_entry_of_ne heq] at hi
      exact (hused path i hi).trans_le (Disk.unused_le_openWrite disk path')
  | appended path' j piece hprivate howner hentry => exact hused path i hi
  | renamed source j target hprivate howner hentry hpublished howner' hnewest =>
    by_cases hsource : path = source
    · subst hsource
      simp [Disk.rename] at hi
    · by_cases htarget : path = target
      · subst htarget
        simp only [Disk.rename, Function.update_of_ne hsource, Function.update_self,
          Option.some.injEq] at hi
        exact hi ▸ hused source j hentry
      · exact hused path i (by simpa [Disk.rename, hsource, htarget] using hi)
  | unlinked path' hprivate howner =>
    by_cases heq : path = path'
    · subst heq
      simp [Disk.unlink] at hi
    · exact hused path i (by simpa [Disk.unlink, heq] using hi)

/-- No two paths show the same file. -/
theorem Effect.distinct (h : Effect layout disk t newest disk')
    (hused : ∀ path i, disk.entry path = some i → i < disk.unused)
    (hdistinct : Distinct disk.entry) : Distinct disk'.entry := by
  cases h with
  | idle => exact hdistinct
  | opened path' hprivate howner =>
    unfold Disk.openWrite
    cases hp : disk.entry path' with
    | none => exact hdistinct.update_some fun path hpath => absurd (hused path _ hpath) (by omega)
    | some j => exact hdistinct
  | appended path' j piece hprivate howner hentry => exact hdistinct
  | renamed source j target hprivate howner hentry hpublished howner' hnewest =>
    have hne : source ≠ target := by
      rintro rfl
      rw [hprivate] at hpublished
      exact absurd hpublished (by simp)
    show Distinct (Function.update (Function.update disk.entry target (some j)) source none)
    rw [Function.update_comm hne.symm]
    refine hdistinct.update_none.update_some fun path hpath => ?_
    by_cases heq : path = source
    · subst heq
      exact absurd hpath (by simp)
    · rw [Function.update_of_ne heq] at hpath
      exact heq (hdistinct path source j hpath hentry)
  | unlinked path' hprivate howner => exact hdistinct.update_none

end Effects

/-! ## Steps and runs -/

section System

variable [DecidableEq τ] {code : Code ν τ γ} {layout} {s s' : State ν τ} {a : Action τ γ}
variable {as : List (Action τ γ)} {path : ν} {i : ℕ} {bytes : Bytes}

omit [DecidableEq ν] [DecidableEq τ] in
/-- The first state. -/
theorem inv_start : Inv layout (start : State ν τ) where
  used := by
    intro path i hi
    exact absurd hi (by simp [start, Disk.empty])
  distinct := by
    intro path path' i hi
    exact absurd hi (by simp [start, Disk.empty])
  whole := by
    intro path bytes _ hshows
    exact absurd hshows (by simp [start, Disk.empty, Disk.shows])
  onItsWay := fun t => .of_publishes trivial

omit [DecidableEq ν] [DecidableEq τ] in
/-- The content of a published name is sealed. -/
theorem Inv.sealed (hinv : Inv layout s) (hpath : layout.published path = true)
    (hentry : s.disk.entry path = some i) : Sealed layout s.disk i := by
  refine ⟨hinv.used path i hentry, fun path' hprivate hentry' => ?_⟩
  obtain rfl := hinv.distinct path path' i hentry hentry'
  rw [hpath] at hprivate
  exact absurd hprivate (by simp)

/-- **What a step does**: a call starts a program, and a step moves one thread. -/
theorem step_cases (h : step code s a = some s') :
    (∃ c, a = .call c ∧ code.accepts c = true ∧ s'.disk = s.disk ∧
      s'.threads = Function.update s.threads (code.thread c) ⟨code.body c, none⟩ ∧
      s'.documents = Function.update s.documents (code.thread c)
        (s.documents (code.thread c) ++ (code.document c).toList)) ∨
    (∃ t outcome thread', a = .step t outcome ∧
      (s.threads t).step s.disk outcome = some (s'.disk, thread') ∧
      s'.threads = Function.update s.threads t thread' ∧ s'.documents = s.documents) := by
  cases a with
  | call c =>
    simp only [step] at h
    split_ifs at h with hok
    rw [Bool.and_eq_true] at hok
    obtain rfl := Option.some.inj h
    exact Or.inl ⟨c, rfl, hok.2, rfl, rfl, rfl⟩
  | step t outcome =>
    simp only [step, Option.map_eq_some_iff] at h
    obtain ⟨⟨disk', thread'⟩, hstep, rfl⟩ := h
    exact Or.inr ⟨t, outcome, thread', rfl, hstep, rfl, rfl⟩

/-- The documents of a thread only grow. -/
theorem documents_step (h : step code s a = some s') (t : τ) :
    s.documents t <+: s'.documents t := by
  rcases step_cases h with ⟨c, -, -, -, -, hdocuments⟩ | ⟨u, outcome, thread', -, -, -, hdocuments⟩
  · rw [hdocuments]
    by_cases ht : t = code.thread c
    · subst ht
      rw [Function.update_self]
      exact List.prefix_append _ _
    · rw [Function.update_of_ne ht]
  · rw [hdocuments]

/-- The effect of a step that writes no published file in place. -/
theorem effect_step (hinv : Inv layout s) (hplace : NotInPlace layout s a)
    (h : step code s a = some s') :
    ∃ t, Effect layout s.disk t (s'.documents t).getLast? s'.disk := by
  rcases step_cases h with ⟨c, -, -, hdisk, -⟩ | ⟨t, outcome, thread', rfl, hstep, -, hdocuments⟩
  · exact ⟨code.thread c, hdisk ▸ .idle⟩
  · refine ⟨t, ?_⟩
    rw [hdocuments]
    refine ((hinv.onItsWay t).step (fun path data next failed n hgoes hthread => ?_) hstep).1
    subst hgoes
    exact hplace path (by simp only [opens, hthread])

/-- **The invariant** is kept by programs that publish as they should. -/
theorem inv_step (hcode : Sound code layout) (hinv : Inv layout s)
    (hplace : NotInPlace layout s a) (h : step code s a = some s') : Inv layout s' := by
  obtain ⟨t, heffect⟩ := effect_step hinv hplace h
  refine ⟨heffect.used hinv.used, heffect.distinct hinv.used hinv.distinct, ?_, fun u => ?_⟩
  · intro path bytes hpath hshows
    obtain ⟨i, hentry, hcontent⟩ := Disk.shows_eq_some.mp hshows
    -- A published path shows what it showed, or its owner has renamed the newest document to it.
    rcases heffect.entry_of_published hpath with hsame | ⟨j, hj, hnewest, howner⟩
    · rw [hsame] at hentry
      have hsealed := hinv.sealed hpath hentry
      refine (documents_step h _).subset (hinv.whole path bytes hpath ?_)
      exact Disk.shows_eq_some.mpr ⟨i, hentry, (heffect.sealed hsealed).2.symm.trans hcontent⟩
    · obtain rfl := Option.some.inj (hj.symm.trans hentry)
      rw [hcontent] at hnewest
      rw [howner]
      exact List.mem_of_getLast? hnewest
  · rcases step_cases h with ⟨c, rfl, haccepts, hdisk, hthreads, hdocuments⟩ |
      ⟨v, outcome, thread', rfl, hstep, hthreads, hdocuments⟩
    · rw [hthreads, hdocuments, hdisk]
      -- The thread that takes the call begins its program; the others go on.
      by_cases hu : u = code.thread c
      · subst hu
        rw [Function.update_self, Function.update_self]
        refine .of_publishes (hcode c _ (fun document hdocument => ?_) haccepts)
        rw [hdocument, Option.toList_some, List.getLast?_append]
        rfl
      · rw [Function.update_of_ne hu, Function.update_of_ne hu]
        exact hinv.onItsWay u
    · rw [hthreads, hdocuments]
      have hown := (hinv.onItsWay v).step (fun path data next failed n hgoes hthread => by
        subst hgoes
        exact hplace path (by simp only [opens, hthread])) hstep
      by_cases hu : u = v
      · subst hu
        rw [Function.update_self]
        exact hown.2
      · rw [Function.update_of_ne hu]
        exact (hinv.onItsWay u).frame hown.1 hu hinv.used hinv.distinct

/-- **A reader of a sealed content** gets all of it, however late its pieces come. -/
theorem reads_of_sealed (hcode : Sound code layout) {got : Bytes}
    (hreads : Reads code s i got as bytes) (hinv : Inv layout s) (hi : Sealed layout s.disk i)
    (hgot : got <+: s.disk.content i) (hplace : Along (NotInPlace layout) (step code) s as) :
    bytes = s.disk.content i := by
  induction hreads with
  | eof hnil =>
    rw [List.drop_eq_nil_iff] at hnil
    exact hgot.eq_of_length_le hnil
  | piece n hreads ih =>
    refine ih hinv hi ?_ hplace
    obtain ⟨rest, hrest⟩ := hgot
    rw [← hrest, List.drop_left, List.prefix_append_right_inj]
    exact List.take_prefix n rest
  | wait hstep hreads ih =>
    obtain ⟨t, heffect⟩ := effect_step hinv hplace.1 hstep
    obtain ⟨hsealed, hcontent⟩ := heffect.sealed hi
    rw [← hcontent]
    exact ih (inv_step hcode hinv hplace.1 hstep) hsealed (by rwa [hcontent]) (hplace.2 _ hstep)

/-- **Every run keeps it.** -/
theorem inv_run (hcode : Sound code layout)
    (hplace : Along (NotInPlace layout) (step code) s as) (hinv : Inv layout s)
    (hrun : run (step code) s as = some s') : Inv layout s' :=
  run_invariant (fun _ _ _ hI hok hstep => inv_step hcode hI hok hstep) as s s' hinv hplace hrun

/-- **A published name shows whole documents**, to a reader who opens it now and reads on. -/
theorem reads_published (hcode : Sound code layout) (hinv : Inv layout s)
    (hplace : Along (NotInPlace layout) (step code) s as)
    (hpath : layout.published path = true) (hentry : s.disk.entry path = some i)
    (hreads : Reads code s i [] as bytes) : bytes ∈ s.documents (layout.owner path) := by
  have hbytes := reads_of_sealed hcode hreads hinv (hinv.sealed hpath hentry) List.nil_prefix hplace
  exact hinv.whole path bytes hpath (Disk.shows_eq_some.mpr ⟨i, hentry, hbytes.symm⟩)

/-- One step leaves a published name as it is, or shows the newest document there. -/
theorem shows_step (hinv : Inv layout s) (hplace : NotInPlace layout s a)
    (h : step code s a = some s') (hpath : layout.published path = true)
    (hshows : s.disk.shows path = some bytes) :
    s'.disk.shows path = some bytes ∨ ∃ document, s'.disk.shows path = some document ∧
      (s'.documents (layout.owner path)).getLast? = some document := by
  obtain ⟨t, heffect⟩ := effect_step hinv hplace h
  obtain ⟨i, hentry, hcontent⟩ := Disk.shows_eq_some.mp hshows
  rcases heffect.entry_of_published hpath with hsame | ⟨j, hj, hnewest, howner⟩
  · have hkeep := (heffect.sealed (hinv.sealed hpath hentry)).2
    exact Or.inl (Disk.shows_eq_some.mpr ⟨i, hsame.trans hentry, hkeep.trans hcontent⟩)
  · exact Or.inr ⟨s'.disk.content j, Disk.shows_eq_some.mpr ⟨j, hj, rfl⟩, howner ▸ hnewest⟩

/-- **A published name never goes back**: what it shows later was called for no earlier. -/
theorem shows_run (hcode : Sound code layout) (hinv : Inv layout s)
    (hplace : Along (NotInPlace layout) (step code) s as)
    (hrun : run (step code) s as = some s') (hpath : layout.published path = true)
    (hshows : s.disk.shows path = some bytes)
    (hi : (s.documents (layout.owner path))[i]? = some bytes) :
    ∃ j document, i ≤ j ∧ s'.disk.shows path = some document ∧
      (s'.documents (layout.owner path))[j]? = some document := by
  let I : State ν τ → Prop := fun t => Inv layout t ∧ ∃ j document, i ≤ j ∧
    t.disk.shows path = some document ∧ (t.documents (layout.owner path))[j]? = some document
  have hI : ∀ s a s', I s → NotInPlace layout s a → step code s a = some s' → I s' := by
    rintro s a s' ⟨hinv, j, document, hle, hshows, hj⟩ hok hstep
    refine ⟨inv_step hcode hinv hok hstep, ?_⟩
    obtain ⟨later, hlater⟩ := documents_step hstep (layout.owner path)
    obtain ⟨hlt, -⟩ := List.getElem?_eq_some_iff.mp hj
    rcases shows_step hinv hok hstep hpath hshows with hsame | ⟨newest, hnew, hlast⟩
    · exact ⟨j, document, hle, hsame, by rw [← hlater, List.getElem?_append_left hlt, hj]⟩
    · rw [List.getLast?_eq_getElem?] at hlast
      refine ⟨_, newest, ?_, hnew, hlast⟩
      rw [← hlater, List.length_append]
      omega
  exact (run_invariant hI as s s' ⟨hinv, i, bytes, le_rfl, hshows, hi⟩ hplace hrun).2

end System

end Runs

end Publishing
