/-
# Deleting a recording while it is cataloged

The steps of the API's `delete_recording` and of the post-process worker's `_process` for one
recording, in any order.  The delete removes the media first and commits the rows then, and
the worker writes into the directory that the delete removes, so the media of a row that stays
can be gone, and files of a row that is gone can stay.  `Untorn` is what holds where neither
happens (`untorn_along`).

The removal is `shutil.rmtree`, one file operation a step (`TreeRemoval.step`): a directory is
listed when it is entered, and what the worker creates in it afterwards, be it a file or a
directory such as `derived/`, keeps it from being removed.  The `OSError` of a failed operation is
only logged, and the delete goes on to its commit.  The worker makes its directories as
`Path.mkdir(parents=True, exist_ok=True)` does, one a step as well.

* `processStep`, `deleteStep`, `removeStep`: the code;
* `Apart`: the condition on a step, judged in the state before it;
* `Sound`: the invariant, by the phase of the delete;
* `Effect`: what a step of the worker does, as far as the delete is concerned.
-/
import IngestFarm.Cataloging
import IngestFarm.Runs
import IngestFarm.TreeRemoval

open PostProcess TreeRemoval

namespace Deletion

/-- A path below the directory of the recording. -/
abbrev Path := List String

/-- The directory of the recording, with all that lies below it. -/
abbrev Media := Tree String Bytes

/-- Where a tool writes: `derived/proxy`, and `derived` itself. -/
def toolDir : Tool → Path
  | .proxy => ["derived", "proxy"]
  | .thumbnail => ["derived"]

/-- What a tool must have left at its end. -/
def outputPath : Tool → Path
  | .proxy => ["derived", "proxy", "playlist.m3u8"]
  | .thumbnail => ["derived", "thumb.jpg"]

/-- Where `_process` is.  In `mkdir` it makes the directory `dir` and then those of `inner`;
`climbing` says that a missing parent is made first. -/
inductive ProcessPhase where
  | loading
  | listing
  | making (seg : String) (rest : List String)
  | opening (seg : String) (rest : List String)
  | copying (chunks : List Bytes) (todo : List String) (asset : Asset)
  | discovering (asset : Asset)
  | checking (asset : Asset)
  | mkdir (tool : Tool) (dir : Path) (climbing : Bool) (inner : List Path) (asset : Asset)
  | unlinking (asset : Asset)
  | media (tool : Tool) (todo : List (String × Bytes)) (asset : Asset)
  | creating (asset : Asset)
  | committing (asset : Asset)
  | finished

/-- Where `delete_recording` is; `found` is the asset it has queried, `frames` are the directories
that the removal is in. -/
inductive DeletePhase where
  | loading
  | querying
  | listing (found : Option Asset)
  | removing (frames : List (Frame String)) (found : Option Asset)
  | committing (found : Option Asset)
  | finished

/-- The rows and the directory of one completed recording. -/
structure Scene where
  row : Bool
  asset : Option Asset
  tree : Media
  process : ProcessPhase
  delete : DeletePhase

/-- `ok` says whether the external call of the step works; `names` is the order in which
`os.scandir` lists the directory that a removal enters. -/
inductive Action where
  | process (ok : Bool)
  | delete (ok : Bool)
  | remove (names : List String)

/-- `LocalStorage.list_segments`: the files of the directory that match, sorted. -/
def listSegments (t : Media) : List String :=
  ((t.children []).filter fun name => isSegmentName name && (t.data [name]).isSome).insertionSort
    (· ≤ ·)

section Steps

variable (encode : Tool → Bytes → List (String × Bytes)) (r : RecordingId) (home : SessionDir)

/-- The master of an asset, if it is a file. -/
def masterBytes (s : Scene) (a : Asset) : Option Bytes :=
  a.masterPath.file.bind fun name => s.tree.data [name]

/-- A media tool starts by making its directory. -/
def startTool (s : Scene) (tool : Tool) (a : Asset) : Scene :=
  { s with process := .mkdir tool (toolDir tool) true [] a }

/-- The pipeline of a tool runs; what it writes depends on the master. -/
def runTool (s : Scene) (tool : Tool) (a : Asset) : Scene :=
  { s with process := .media tool (encode tool ((masterBytes s a).getD [])) a }

/-- The directory of a tool is there.  The thumbnail tool then removes an old thumbnail. -/
def readyTool (s : Scene) (tool : Tool) (a : Asset) : Scene :=
  match tool with
  | .proxy => runTool encode s .proxy a
  | .thumbnail => { s with process := .unlinking a }

/-- A media tool has ended. -/
def endTool (s : Scene) (tool : Tool) (ok : Bool) (a : Asset) : Scene :=
  let path := if ok = true ∧ (s.tree.data (outputPath tool)).isSome then some tool.output
    else none
  let state := if path = none then MediaState.failed else .ok
  match tool with
  | .proxy => startTool s .thumbnail { a with proxyPath := path, proxy := state }
  | .thumbnail =>
    { s with process := .creating { a with thumbnailPath := path, thumbnail := state } }

/-- The next directory inwards, or the tool if there is none. -/
def descend (s : Scene) (tool : Tool) (inner : List Path) (a : Asset) : Scene :=
  match inner with
  | [] => readyTool encode s tool a
  | dir :: inner => { s with process := .mkdir tool dir false inner a }

/-- One call of `mkdir`: a missing parent is made first, but only on the way out. -/
def mkdirStep (s : Scene) (ok : Bool) (tool : Tool) (dir : Path) (climbing : Bool)
    (inner : List Path) (a : Asset) : Scene :=
  if s.tree.isDir dir = true then descend encode s tool inner a
  else if ok = false then endTool s tool false a
  else match s.tree.mkdir dir with
    | some t => descend encode { s with tree := t } tool inner a
    | none =>
      if climbing = true ∧ s.tree.hasParent dir = false then
        { s with process := .mkdir tool dir.dropLast true (dir :: inner) a }
      else endTool s tool false a

/-- One step of `_process`. -/
def processStep (s : Scene) (ok : Bool) : Option Scene :=
  match s.process with
  | .loading =>
    some { s with process := if ok = true ∧ s.row = true ∧ s.asset = none then .listing
      else .finished }
  | .listing =>
    match listSegments s.tree with
    | [] => some { s with process := .creating (emptyAsset r home) }
    | [seg] => some { s with process := .discovering (segmentsAsset r home seg []) }
    | seg :: rest => some { s with process := .making seg rest }
  | .making seg rest =>
    if s.tree.isDir [] = true then some { s with process := .opening seg rest }
    else if ok = true then
      match s.tree.mkdir [] with
      | some t => some { s with tree := t, process := .opening seg rest }
      | none => some { s with process := .finished }
    else some { s with process := .finished }
  | .opening seg rest =>
    if ok = true then
      match s.tree.put [masterName] (.file []) with
      | some t => some
        { s with
          tree := t
          process := .copying [] (seg :: rest) (segmentsAsset r home masterName rest) }
      | none => some { s with process := .finished }
    else some { s with process := .finished }
  | .copying (chunk :: chunks) todo a =>
    if ok = true then
      -- A master that was removed meanwhile takes the bytes with it.
      match s.tree.data [masterName] with
      | none => some { s with process := .copying chunks todo a }
      | some data => some
        { s with
          tree := (s.tree.put [masterName] (.file (data ++ chunk))).getD s.tree
          process := .copying chunks todo a }
    else some { s with process := .finished }
  | .copying [] [] a => some { s with process := .discovering a }
  | .copying [] (seg :: todo) a =>
    match s.tree.data [seg] with
    | none => some { s with process := .finished }
    | some data =>
      if ok = true then
        some { s with process := .copying (chunks chunkSize data.length data) todo a }
      else some { s with process := .finished }
  | .discovering a => some { s with process := .checking a }
  | .checking a =>
    if (masterBytes s a).isSome then some (startTool s .proxy a)
    else some { s with process := .creating { a with mediaError := some "master_not_a_file" } }
  | .mkdir tool dir climbing inner a => some (mkdirStep encode s ok tool dir climbing inner a)
  | .unlinking a =>
    match s.tree.data (outputPath .thumbnail) with
    | none => some (runTool encode s .thumbnail a)
    | some _ =>
      if ok = true then
        match s.tree.unlink (outputPath .thumbnail) with
        | some t => some (runTool encode { s with tree := t } .thumbnail a)
        | none => some (endTool s .thumbnail false a)
      else some (endTool s .thumbnail false a)
  | .media tool [] a => some (endTool s tool ok a)
  | .media tool (f :: todo) a =>
    if ok = true then
      match s.tree.put (toolDir tool ++ [f.1]) (.file f.2) with
      | some t => some { s with tree := t, process := .media tool todo a }
      | none => some (endTool s tool false a)
    else some (endTool s tool false a)
  | .creating a =>
    some { s with process := if ok = true ∧ s.asset = none then .committing a else .finished }
  | .committing a =>
    -- the foreign key and the unique constraint
    some { s with
      asset := if ok = true ∧ s.row = true ∧ s.asset = none then some a else s.asset
      process := .finished }
  | .finished => none

/-- One step of `delete_recording`, up to the removal and after it. -/
def deleteStep (s : Scene) (ok : Bool) : Option Scene :=
  match s.delete with
  | .loading =>
    some { s with delete := if ok = true ∧ s.row = true then .querying else .finished }
  | .querying =>
    some { s with delete := if ok = true then .listing s.asset else .finished }
  | .listing _ => none
  | .removing _ _ => none
  | .committing found =>
    -- an asset that was not there at the query keeps the recording from being deleted
    if ok = true ∧ (s.asset = none ∨ found ≠ none) then some
      { s with row := false, asset := none, delete := .finished }
    else some { s with delete := .finished }
  | .finished => none

/-- One step of `safe_remove_path`: the first one lists the directory, if there is one. -/
def removeStep (s : Scene) (names : List String) : Option Scene :=
  match s.delete with
  | .listing found =>
    if s.tree.isDir [] = true then
      if names.Perm (s.tree.children []) then
        some { s with delete := .removing [⟨[], names⟩] found }
      else none
    else some { s with tree := (s.tree.unlink []).getD s.tree, delete := .committing found }
  | .removing frames found =>
    match TreeRemoval.step s.tree frames names with
    | none => none
    | some (t, []) => some { s with tree := t, delete := .committing found }
    | some (t, f :: frames) => some { s with tree := t, delete := .removing (f :: frames) found }
  | _ => none

/-- One step of either. -/
def step (s : Scene) : Action → Option Scene
  | .process ok => processStep encode r home s ok
  | .delete ok => deleteStep s ok
  | .remove names => removeStep s names

end Steps

/-- A recording with its directory, before both. -/
def Scene.start (tree₀ : Media) (asset : Option Asset) : Scene :=
  ⟨true, asset, tree₀, .loading, .loading⟩

/-- The row with all its segments, or nothing at all: no row, and no file in the directory. -/
def Untorn (tree₀ : Media) (s : Scene) : Prop :=
  (s.row = true ∧ ∀ name ∈ listSegments tree₀, s.tree.data [name] = tree₀.data [name]) ∨
  (s.row = false ∧ s.asset = none ∧ ∀ p, s.tree.data p = none)

/-! ## The condition -/

/-- What the next step of the worker creates, if it works. -/
def Scene.creates (s : Scene) : Option Path :=
  match s.process with
  | .making _ _ => some []
  | .opening _ _ => some [masterName]
  | .mkdir _ dir _ _ _ => some dir
  | .media tool (f :: _) _ => some (toolDir tool ++ [f.1])
  | _ => none

/-- What the next step of the worker removes, if it works. -/
def Scene.removes (s : Scene) : Option Path :=
  match s.process with
  | .unlinking _ => some (outputPath .thumbnail)
  | _ => none

/-- A new entry stays with its row, or the removal has still to come to it. -/
def Covers (p : Path) (s : Scene) : Prop :=
  match s.delete with
  | .loading | .querying | .listing _ => True
  | .removing frames _ => Ahead frames p
  | .committing _ => False
  | .finished => s.row = true

/-- The removal has listed the entry and not yet removed it. -/
def Awaited (p : Path) (s : Scene) : Prop :=
  match s.delete with
  | .removing frames _ => Listed frames p
  | _ => False

/-- The condition on a step: the worker creates files and directories only where the delete, if it
has begun to remove, has still to go, and takes none away that the delete has listed; the delete's
commit works and has seen the asset, or there was nothing to keep. -/
def Apart (tree₀ : Media) (s : Scene) : Action → Prop
  | .process ok => ok = true →
    (∀ p, s.creates = some p → s.tree.kind p = none → s.tree.hasParent p = true → Covers p s) ∧
      ∀ p, s.removes = some p → s.tree.kind p ≠ none → ¬ Awaited p s
  | .delete ok =>
    match s.delete with
    | .committing found => (ok = true ∧ (s.asset = none ∨ found ≠ none)) ∨ listSegments tree₀ = []
    | _ => True
  | .remove _ => True

/-- The invariant, by the phase of the delete: the segments are there until the removal begins,
then the removal knows of everything, and in the end nothing is left. -/
def Sound (tree₀ : Media) (s : Scene) : DeletePhase → Prop
  | .loading | .querying | .listing _ => s.row = true ∧
      ∀ name ∈ listSegments tree₀, s.tree.data [name] = tree₀.data [name]
  | .removing frames _ => s.row = true ∧ Accounts s.tree frames
  | .committing _ => s.row = true ∧ ∀ p, p ∉ s.tree.entries
  | .finished => Untorn tree₀ s

/-! ## What a step of the worker does -/

/-- The effect of a step of `_process`, as far as the delete is concerned: the segments and the
directories stay, new entries are covered, and no awaited one goes. -/
structure Effect (s s' : Scene) : Prop where
  row : s'.row = s.row
  delete : s'.delete = s.delete
  asset : s.row = false → s'.asset = s.asset
  segments : ∀ name, isSegmentName name = true → s'.tree.data [name] = s.tree.data [name]
  dirs : ∀ p, s.tree.isDir p = true → s'.tree.isDir p = true
  kept : ∀ p, Awaited p s → p ∈ s.tree.entries → p ∈ s'.tree.entries
  added : ∀ p, p ∈ s'.tree.entries → p ∈ s.tree.entries ∨ Covers p s

section Process

variable {encode : Tool → Bytes → List (String × Bytes)} {r : RecordingId} {home : SessionDir}
  {s s' : Scene} {tree₀ t : Media}

/-- A step that leaves the directory alone. -/
theorem Effect.of_tree (hrow : s'.row = s.row) (hdelete : s'.delete = s.delete)
    (hasset : s.row = false → s'.asset = s.asset) (htree : s'.tree = s.tree) : Effect s s' := by
  constructor
  · exact hrow
  · exact hdelete
  · exact hasset
  · exact fun _ _ => by rw [htree]
  · exact fun _ h => by rwa [htree]
  · exact fun _ _ h => by rwa [htree]
  · exact fun _ h => Or.inl (by rwa [htree] at h)

/-- The contents of the other files. -/
theorem data_put {p q : Path} {x : Node Bytes} (hput : s.tree.put p x = some t) (hne : q ≠ p) :
    t.data q = s.tree.data q := by
  unfold Tree.data
  rw [Tree.kind_put hput, if_neg hne]

/-- A new directory changes no file. -/
theorem data_mkdir {p : Path} (hmk : s.tree.mkdir p = some t) (q : Path) :
    t.data q = s.tree.data q := by
  unfold Tree.data
  rw [Tree.kind_mkdir hmk]
  split_ifs with hq
  · subst hq
    unfold Tree.mkdir at hmk
    split_ifs at hmk with hnone
    rw [hnone]
  · rfl

/-- **A step that makes an entry** or writes a file anew. -/
theorem Effect.of_put {p : Path} {x : Node Bytes} (hput : s.tree.put p x = some t)
    (hseg : ∀ name, isSegmentName name = true → t.data [name] = s.tree.data [name])
    (hcovers : s.tree.kind p = none → Covers p s) (phase : ProcessPhase) :
    Effect s { s with tree := t, process := phase } := by
  have hmem : ∀ q, q ∈ s.tree.entries → q ∈ t.entries := by
    intro q hq
    rw [Tree.mem_iff_kind, Tree.kind_put hput]
    split_ifs
    · exact Option.some_ne_none x
    · exact Tree.mem_iff_kind.mp hq
  constructor
  · rfl
  · rfl
  · exact fun _ => rfl
  · exact hseg
  · intro q hq
    rw [Tree.isDir_iff, Tree.kind_put hput, if_neg]
    · exact Tree.isDir_iff.mp hq
    · rintro rfl
      rw [(Tree.put_eq_some hput).2] at hq
      exact absurd hq (by decide)
  · exact fun q _ hq => hmem q hq
  · intro q hq
    rw [Tree.mem_iff_kind, Tree.kind_put hput] at hq
    split_ifs at hq with heq
    · subst heq
      -- The entry is new, so the removal has yet to come to it; or it was there before.
      cases hkind : s.tree.kind q with
      | none => exact Or.inr (hcovers hkind)
      | some y => exact Or.inl (Tree.mem_iff_kind.mpr (by rw [hkind]; exact Option.some_ne_none y))
    · exact Or.inl (Tree.mem_iff_kind.mpr hq)

/-- A new directory. -/
theorem Effect.of_mkdir {p : Path} (hmk : s.tree.mkdir p = some t) (hcovers : Covers p s)
    (phase : ProcessPhase) : Effect s { s with tree := t, process := phase } := by
  exact Effect.of_put (Tree.mkdir_eq_some hmk).2 (fun name _ => data_mkdir hmk [name])
    (fun _ => hcovers) phase

/-- The old thumbnail is removed. -/
theorem Effect.of_unlink (hun : s.tree.unlink (outputPath .thumbnail) = some t)
    (hfree : ¬ Awaited (outputPath .thumbnail) s) (phase : ProcessPhase) :
    Effect s { s with tree := t, process := phase } := by
  -- No other path is touched, and the removal does not wait for this one.
  have hkind : ∀ q, q ≠ outputPath .thumbnail → t.kind q = s.tree.kind q := by
    intro q hq
    rw [Tree.kind_unlink hun, if_neg hq]
  constructor
  · rfl
  · rfl
  · exact fun _ => rfl
  · intro name _
    show t.data [name] = s.tree.data [name]
    unfold Tree.data
    rw [hkind [name] (by simp [outputPath])]
  · intro q hq
    rw [Tree.isDir_iff, hkind]
    · exact Tree.isDir_iff.mp hq
    · rintro rfl
      unfold Tree.unlink at hun
      split_ifs at hun with hdata
      obtain ⟨d, hd⟩ := Option.isSome_iff_exists.mp hdata
      rw [Tree.isDir_iff, Tree.data_eq_some.mp hd] at hq
      cases hq
  · intro q hawaited hq
    rw [Tree.mem_iff_kind, hkind]
    · exact Tree.mem_iff_kind.mp hq
    · rintro rfl
      exact hfree hawaited
  · intro q hq
    rw [Tree.mem_iff_kind, Tree.kind_unlink hun] at hq
    split_ifs at hq
    · exact absurd rfl hq
    · exact Or.inl (Tree.mem_iff_kind.mpr hq)

/-- Nothing but the phase of the worker. -/
theorem Effect.still (phase : ProcessPhase) : Effect s { s with process := phase } :=
  Effect.of_tree rfl rfl (fun _ => rfl) rfl

/-- The end of a tool moves the process and no file. -/
theorem endTool_eq (s : Scene) (tool : Tool) (ok : Bool) (a : Asset) :
    ∃ phase, endTool s tool ok a = { s with process := phase } := by
  cases tool <;> exact ⟨_, rfl⟩

/-- So does a step to the next directory. -/
theorem descend_eq (s : Scene) (tool : Tool) (inner : List Path) (a : Asset) :
    ∃ phase, descend encode s tool inner a = { s with process := phase } := by
  cases inner with
  | nil => cases tool <;> exact ⟨_, rfl⟩
  | cons dir inner => exact ⟨_, rfl⟩

/-- One call of `mkdir`. -/
theorem effect_mkdir {ok : Bool} {tool : Tool} {dir : Path} {climbing : Bool} {inner : List Path}
    {a : Asset} (hcovers : ok = true → s.tree.kind dir = none → s.tree.hasParent dir = true →
      Covers dir s) :
    Effect s (mkdirStep encode s ok tool dir climbing inner a) := by
  have ended : Effect s (endTool s tool false a) := by
    obtain ⟨phase, heq⟩ := endTool_eq s tool false a
    rw [heq]
    exact .still phase
  unfold mkdirStep
  -- The directory is there, the call fails, it works, or a parent has to be made first.
  by_cases hdir : s.tree.isDir dir = true
  · rw [if_pos hdir]
    obtain ⟨phase, heq⟩ : ∃ phase, descend encode s tool inner a = { s with process := phase } :=
      descend_eq s tool inner a
    rw [heq]
    exact .still phase
  · rw [if_neg hdir]
    by_cases hok : ok = false
    · rw [if_pos hok]
      exact ended
    · rw [if_neg hok]
      cases hmk : s.tree.mkdir dir with
      | some t =>
        obtain ⟨hnone, hput⟩ := Tree.mkdir_eq_some hmk
        have hnew := hcovers (Bool.eq_true_of_not_eq_false hok) hnone (Tree.put_eq_some hput).1
        obtain ⟨phase, heq⟩ : ∃ phase, descend encode { s with tree := t } tool inner a =
            { s with tree := t, process := phase } := descend_eq _ tool inner a
        dsimp only
        rw [heq]
        exact .of_mkdir hmk hnew phase
      | none =>
        dsimp only
        split_ifs
        · exact .still _
        · exact ended

/-- A segment is not the master. -/
theorem ne_segment_master {name : String} (h : isSegmentName name = true) :
    ([name] : Path) ≠ [masterName] := by
  intro heq
  obtain rfl : name = masterName := by simpa using heq
  rw [not_isSegmentName_master] at h
  exact absurd h (by decide)

/-- Nor is it a derived file. -/
theorem ne_toolDir (tool : Tool) (f name : String) : ([name] : Path) ≠ toolDir tool ++ [f] := by
  cases tool <;> simp [toolDir]

/-- **The effect of every step of the worker** that meets the condition. -/
theorem process_effect {ok : Bool} (hapart : Apart tree₀ s (.process ok))
    (hs : processStep encode r home s ok = some s') : Effect s s' := by
  have still : ∀ phase, Effect s { s with process := phase } := fun phase => .still phase
  have ended : ∀ tool ok a, Effect s (endTool s tool ok a) := by
    intro tool ok a
    obtain ⟨phase, heq⟩ := endTool_eq s tool ok a
    rw [heq]
    exact still phase
  unfold Apart Scene.creates Scene.removes at hapart
  unfold processStep at hs
  cases hphase : s.process with
  | loading =>
    rw [hphase] at hs
    obtain rfl := Option.some.inj hs
    exact still _
  | listing =>
    rw [hphase] at hs
    dsimp only at hs
    split at hs <;> obtain rfl := Option.some.inj hs <;> exact still _
  | making seg rest =>
    rw [hphase] at hs hapart
    dsimp only at hs hapart
    split_ifs at hs with hdir hok
    · obtain rfl := Option.some.inj hs
      exact still _
    · split at hs <;> obtain rfl := Option.some.inj hs
      · rename_i t hmk
        obtain ⟨hnone, hput⟩ := Tree.mkdir_eq_some hmk
        exact .of_mkdir hmk ((hapart hok).1 [] rfl hnone (Tree.put_eq_some hput).1) _
      · exact still _
    · obtain rfl := Option.some.inj hs
      exact still _
  | opening seg rest =>
    rw [hphase] at hs hapart
    dsimp only at hs hapart
    split_ifs at hs with hok
    · split at hs <;> obtain rfl := Option.some.inj hs
      · rename_i t hput
        refine .of_put hput (fun name hname => data_put hput (ne_segment_master hname)) ?_ _
        exact fun hnone => (hapart hok).1 _ rfl hnone (Tree.put_eq_some hput).1
      · exact still _
    · obtain rfl := Option.some.inj hs
      exact still _
  | copying chunks todo a =>
    rw [hphase] at hs
    rcases chunks with _ | ⟨chunk, chunks⟩
    · rcases todo with _ | ⟨seg, todo⟩ <;> dsimp only at hs
      · obtain rfl := Option.some.inj hs
        exact still _
      · split at hs
        · obtain rfl := Option.some.inj hs
          exact still _
        · split_ifs at hs <;> obtain rfl := Option.some.inj hs <;> exact still _
    · dsimp only at hs
      split_ifs at hs
      · split at hs <;> obtain rfl := Option.some.inj hs
        · exact still _
        · rename_i data hdata
          cases hput : s.tree.put [masterName] (.file (data ++ chunk)) with
          | none => exact still _
          | some t =>
            -- The master is there, so nothing is new.
            refine .of_put hput (fun name hname => data_put hput (ne_segment_master hname)) ?_ _
            intro hnone
            rw [Tree.data_eq_some.mp hdata] at hnone
            cases hnone
      · obtain rfl := Option.some.inj hs
        exact still _
  | discovering a =>
    rw [hphase] at hs
    obtain rfl := Option.some.inj hs
    exact still _
  | checking a =>
    rw [hphase] at hs
    dsimp only at hs
    split_ifs at hs <;> obtain rfl := Option.some.inj hs <;> exact still _
  | mkdir tool dir climbing inner a =>
    rw [hphase] at hs hapart
    dsimp only at hs hapart
    obtain rfl := Option.some.inj hs
    exact effect_mkdir fun hok hnone hparent => (hapart hok).1 dir rfl hnone hparent
  | unlinking a =>
    rw [hphase] at hs hapart
    dsimp only at hs hapart
    split at hs
    · obtain rfl := Option.some.inj hs
      exact still _
    · rename_i data hdata
      split_ifs at hs with hok
      · split at hs <;> obtain rfl := Option.some.inj hs
        · rename_i t hun
          refine .of_unlink hun ((hapart hok).2 _ rfl ?_) _
          rw [Tree.data_eq_some.mp hdata]
          exact Option.some_ne_none _
        · exact ended _ _ _
      · obtain rfl := Option.some.inj hs
        exact ended _ _ _
  | media tool todo a =>
    rw [hphase] at hs hapart
    rcases todo with _ | ⟨f, todo⟩ <;> dsimp only at hs hapart
    · obtain rfl := Option.some.inj hs
      exact ended _ _ _
    · split_ifs at hs with hok
      · split at hs <;> obtain rfl := Option.some.inj hs
        · rename_i t hput
          refine .of_put hput (fun name _ => data_put hput (ne_toolDir tool f.1 name)) ?_ _
          exact fun hnone => (hapart hok).1 _ rfl hnone (Tree.put_eq_some hput).1
        · exact ended _ _ _
      · obtain rfl := Option.some.inj hs
        exact ended _ _ _
  | creating a =>
    rw [hphase] at hs
    obtain rfl := Option.some.inj hs
    exact still _
  | committing a =>
    rw [hphase] at hs
    obtain rfl := Option.some.inj hs
    refine Effect.of_tree rfl rfl (fun hrow => ?_) rfl
    show (if ok = true ∧ s.row = true ∧ s.asset = none then some a else s.asset) = s.asset
    rw [if_neg]
    rintro ⟨-, htrue, -⟩
    rw [hrow] at htrue
    exact absurd htrue (by decide)
  | finished =>
    rw [hphase] at hs
    cases hs

end Process

/-! ## The invariant -/

section Invariant

variable {encode : Tool → Bytes → List (String × Bytes)} {r : RecordingId} {home : SessionDir}
  {s s' : Scene} {tree₀ : Media} {a : Action}

/-- A file is in the tree. -/
theorem mem_of_data {t : Media} {p : Path} {d : Bytes} (h : t.data p = some d) :
    p ∈ t.entries := by
  rw [Tree.mem_iff_kind, Tree.data_eq_some.mp h]
  exact Option.some_ne_none _

/-- The segments of a directory. -/
theorem mem_listSegments {t : Media} {name : String} :
    name ∈ listSegments t ↔ isSegmentName name = true ∧ (t.data [name]).isSome = true := by
  unfold listSegments
  rw [List.mem_insertionSort, List.mem_filter, Bool.and_eq_true, Tree.mem_children]
  constructor
  · exact fun h => h.2
  · intro h
    obtain ⟨data, hdata⟩ := Option.isSome_iff_exists.mp h.2
    exact ⟨mem_of_data hdata, h⟩

/-- A tree without entries has no file. -/
theorem data_eq_none {t : Media} (h : ∀ p, p ∉ t.entries) (p : Path) : t.data p = none := by
  cases hdata : t.data p with
  | none => rfl
  | some d => exact absurd (mem_of_data hdata) (h p)

/-- **A step of the worker** keeps the invariant. -/
theorem Sound.process (h : Sound tree₀ s s.delete) (he : Effect s s') :
    Sound tree₀ s' s'.delete := by
  have hseg : ∀ name ∈ listSegments tree₀, s'.tree.data [name] = s.tree.data [name] :=
    fun name hname => he.segments name (mem_listSegments.mp hname).1
  have hkept := he.kept
  have hadded := he.added
  rw [he.delete]
  unfold Awaited at hkept
  unfold Covers at hadded
  cases hd : s.delete with
  | loading | querying | listing found =>
    rw [hd] at h
    exact ⟨he.row.trans h.1, fun name hname => (hseg name hname).trans (h.2 name hname)⟩
  | removing frames found =>
    rw [hd] at h hkept hadded
    exact ⟨he.row.trans h.1, h.2.mono he.dirs hkept hadded⟩
  | committing found =>
    rw [hd] at h hadded
    exact ⟨he.row.trans h.1, fun p hp => (hadded p hp).elim (h.2 p) id⟩
  | finished =>
    rw [hd] at h hadded
    rcases h with ⟨hrow, hsegs⟩ | ⟨hrow, hasset, hnone⟩
    · exact Or.inl ⟨he.row.trans hrow, fun name hname => (hseg name hname).trans (hsegs name hname)⟩
    · refine Or.inr ⟨he.row.trans hrow, (he.asset hrow).trans hasset, fun p => ?_⟩
      -- Without a row nothing new is covered, and what is there are directories, which stay.
      cases hdata : s'.tree.data p with
      | none => rfl
      | some d =>
        have hmem : p ∈ s.tree.entries := by
          rcases hadded p (mem_of_data hdata) with hmem | hnew
          · exact hmem
          · rw [hrow] at hnew
            exact absurd hnew Bool.false_ne_true
        have hdir : s.tree.isDir p = true := by
          have hno := hnone p
          unfold Tree.data at hno
          unfold Tree.isDir
          rcases hkind : s.tree.kind p with _ | _ | d'
          · exact absurd hkind (Tree.mem_iff_kind.mp hmem)
          · rfl
          · rw [hkind] at hno
            cases hno
        have hdir' := Tree.isDir_iff.mp (he.dirs p hdir)
        rw [Tree.data_eq_some.mp hdata] at hdir'
        cases hdir'

/-- A step of the delete outside the removal. -/
theorem Sound.delete {ok : Bool} (h : Sound tree₀ s s.delete) (hapart : Apart tree₀ s (.delete ok))
    (hs : deleteStep s ok = some s') : Sound tree₀ s' s'.delete := by
  unfold Apart at hapart
  unfold deleteStep at hs
  cases hd : s.delete with
  | loading =>
    rw [hd] at hs h
    dsimp only at hs
    obtain rfl := Option.some.inj hs
    dsimp only
    split
    · exact h
    · exact Or.inl h
  | querying =>
    rw [hd] at hs h
    dsimp only at hs
    obtain rfl := Option.some.inj hs
    dsimp only
    split
    · exact h
    · exact Or.inl h
  -- A commit that works finds the directory gone; one that fails is apart only without segments.
  | committing found =>
    rw [hd] at hs h hapart
    dsimp only at hs hapart
    split at hs <;> rename_i hok <;> obtain rfl := Option.some.inj hs
    · exact Or.inr ⟨rfl, rfl, data_eq_none h.2⟩
    · rcases hapart with hok' | hnone
      · exact absurd hok' hok
      · refine Or.inl ⟨h.1, ?_⟩
        rw [hnone]
        exact fun name hname => absurd hname List.not_mem_nil
  | listing found | removing frames found | finished =>
    rw [hd] at hs
    cases hs

/-- **A step of the removal**: it begins with what it has listed, and ends with nothing left. -/
theorem Sound.remove {names : List String} (h : Sound tree₀ s s.delete)
    (hs : removeStep s names = some s') : Sound tree₀ s' s'.delete := by
  unfold removeStep at hs
  cases hd : s.delete with
  | listing found =>
    rw [hd] at hs h
    dsimp only at hs
    split_ifs at hs with hdir hnames
    · obtain rfl := Option.some.inj hs
      exact ⟨h.1, accounts_start hdir hnames⟩
    · obtain rfl := Option.some.inj hs
      refine ⟨h.1, ?_⟩
      -- Without a directory there is at most a file of that name.
      have hbelow : ∀ p, p ∈ s.tree.entries → p = [] := by
        intro p hp
        by_contra hne
        exact hdir (Tree.isDir_of_isPrefix hp (List.nil_prefix) (Ne.symm hne))
      intro p hp
      cases hun : s.tree.unlink [] with
      | none =>
        have hp : p ∈ s.tree.entries := by
          simpa [hun] using hp
        obtain rfl := hbelow p hp
        unfold Tree.unlink at hun
        split_ifs at hun with hdata
        have hkind := Tree.mem_iff_kind.mp hp
        unfold Tree.isDir at hdir
        unfold Tree.data at hdata
        rcases hk : s.tree.kind [] with _ | _ | d <;> simp [hk] at hkind hdir hdata
      | some t =>
        have hp : p ∈ t.entries := by
          simpa [hun] using hp
        rw [Tree.mem_iff_kind, Tree.kind_unlink hun] at hp
        split_ifs at hp with hnil
        · exact hp rfl
        · exact hnil (hbelow p (Tree.mem_iff_kind.mpr hp))
  | removing frames found =>
    rw [hd] at hs h
    dsimp only at hs
    split at hs
    · cases hs
    · rename_i t hstep
      obtain rfl := Option.some.inj hs
      exact ⟨h.1, (h.2.step hstep).eq_empty⟩
    · rename_i t f rest hstep
      obtain rfl := Option.some.inj hs
      exact ⟨h.1, h.2.step hstep⟩
  | loading | querying | committing found | finished =>
    rw [hd] at hs
    cases hs

/-- **One step of either.** -/
theorem sound_step (h : Sound tree₀ s s.delete) (hapart : Apart tree₀ s a)
    (hs : step encode r home s a = some s') : Sound tree₀ s' s'.delete := by
  cases a with
  | process ok => exact h.process (process_effect hapart hs)
  | delete ok => exact h.delete hapart hs
  | remove names => exact h.remove hs

end Invariant

/-! ## Both finished -/

/-- **Deletion and cataloging do not tear each other**, in every interleaving whose steps meet
the condition: once both are finished, the recording is there with its segments or it is gone
with all its files. -/
theorem untorn_along (encode : Tool → Bytes → List (String × Bytes)) (r : RecordingId)
    (home : SessionDir) (tree₀ : Media) (asset : Option Asset) (as : List Action) (s : Scene)
    (hapart : Runs.Along (Apart tree₀) (step encode r home) (Scene.start tree₀ asset) as)
    (hrun : Runs.run (step encode r home) (Scene.start tree₀ asset) as = some s)
    (hdone : s.process = .finished ∧ s.delete = .finished) : Untorn tree₀ s := by
  have hstart : Sound tree₀ (Scene.start tree₀ asset) (Scene.start tree₀ asset).delete :=
    ⟨rfl, fun _ _ => rfl⟩
  have h : Sound tree₀ s s.delete := Runs.run_invariant (I := fun s => Sound tree₀ s s.delete)
    (fun _ _ _ hI hok hs => sound_step hI hok hs) as _ s hstart hapart hrun
  rw [hdone.2] at h
  exact h

/-- A directory with one segment. -/
def oneSegment : Media where
  entries := Dict.set ["segment_00000.ts"] (.file [7]) (AList.singleton [] .dir)
  inDir := by
    intro p k h
    rcases (Dict.mem_set _ _ _ _).mp h with heq | hmem
    · obtain rfl : p = [] := by
        cases p with
        | nil => rfl
        | cons x p => simp at heq
      rfl
    · rw [AList.mem_keys] at hmem
      simp at hmem

/-- The steps of a delete of a directory with one segment. -/
def deletion (committed : Bool) : List Action :=
  [.delete true, .delete true, .remove ["segment_00000.ts"], .remove [], .remove [],
    .delete committed]

/-- A tool that writes one file. -/
def oneFile : Tool → Bytes → List (String × Bytes)
  | .proxy, data => [("playlist.m3u8", data)]
  | .thumbnail, data => [("thumb.jpg", data)]

/-- The worker makes `derived/proxy` before the delete begins, and writes its playlist when the
delete has listed `derived` but not yet `derived/proxy`.  After the removal it makes no directory
anew, and its asset finds no recording. -/
def overlapping : List Action :=
  List.replicate 7 (.process true) ++
    [.delete true, .delete true, .remove ["derived", "segment_00000.ts"], .remove ["proxy"],
      .process true, .remove ["playlist.m3u8"]] ++ List.replicate 5 (.remove []) ++
    [.process true, .process false, .delete true, .process true, .process true]

/-- Before the delete begins the worker is free. -/
theorem apart_unbegun {tree₀ : Media} {s : Scene} {ok : Bool} (h : s.delete = .loading) :
    Apart tree₀ s (.process ok) := by
  refine fun _ => ⟨fun p _ _ _ => ?_, fun p _ _ => ?_⟩
  · unfold Covers
    rw [h]
    trivial
  · unfold Awaited
    rw [h]
    exact id

/-- A step of the worker that neither creates nor removes. -/
theorem apart_idle {tree₀ : Media} {s : Scene} {ok : Bool} (hcreates : s.creates = none)
    (hremoves : s.removes = none) : Apart tree₀ s (.process ok) := by
  refine fun _ => ⟨fun p hp => ?_, fun p hp => ?_⟩
  · rw [hcreates] at hp
    cases hp
  · rw [hremoves] at hp
    cases hp

/-- A removal overlaps with a process that had stopped before it. -/
theorem untorn_along_deletion : ∃ s, Runs.run (step oneFile 0 ⟨.str "a", 0⟩)
      (Scene.start oneSegment none) overlapping = some s ∧ s.row = false ∧
        Untorn oneSegment s := by
  refine ⟨_, rfl, rfl, untorn_along oneFile 0 ⟨.str "a", 0⟩ oneSegment none overlapping _ ?_ rfl
    ⟨rfl, rfl⟩⟩
  have hfree : ∀ {s : Scene} {ok : Bool}, s.delete = .loading → Apart oneSegment s (.process ok) :=
    apart_unbegun
  have hremove : ∀ names s, Apart oneSegment s (.remove names) := fun _ _ => trivial
  refine Runs.along_cons (hfree rfl) rfl (Runs.along_cons (hfree rfl) rfl
    (Runs.along_cons (hfree rfl) rfl (Runs.along_cons (hfree rfl) rfl
    (Runs.along_cons (hfree rfl) rfl (Runs.along_cons (hfree rfl) rfl
    (Runs.along_cons (hfree rfl) rfl ?_))))))
  refine Runs.along_cons trivial rfl (Runs.along_cons trivial rfl
    (Runs.along_cons (hremove _ _) rfl (Runs.along_cons (hremove _ _) rfl
    (Runs.along_cons ?_ rfl ?_))))
  · -- The playlist lies ahead: `derived/proxy` is listed and not yet entered.
    refine fun _ => ⟨fun p hp _ _ => ?_, fun p hp => by cases hp⟩
    obtain rfl := Option.some.inj hp
    exact ⟨_, List.mem_cons_self, "proxy", List.mem_cons_self, ⟨["playlist.m3u8"], rfl⟩⟩
  refine Runs.along_cons (hremove _ _) rfl (Runs.along_cons (hremove _ _) rfl
    (Runs.along_cons (hremove _ _) rfl (Runs.along_cons (hremove _ _) rfl
    (Runs.along_cons (hremove _ _) rfl (Runs.along_cons (hremove _ _) rfl ?_)))))
  refine Runs.along_cons (apart_idle rfl rfl) rfl (Runs.along_cons (fun h => by cases h) rfl
    (Runs.along_cons (Or.inl ⟨rfl, Or.inl rfl⟩) rfl (Runs.along_cons (apart_idle rfl rfl) rfl
    (Runs.along_cons (apart_idle rfl rfl) rfl trivial))))

/-- **A failed commit leaves a row without its media.** -/
theorem failed_commit_tears : ¬ ∀ (encode : Tool → Bytes → List (String × Bytes))
    (r : RecordingId) (home : SessionDir) (tree₀ : Media) (asset : Option Asset)
    (as : List Action) (s : Scene),
    Runs.run (step encode r home) (Scene.start tree₀ asset) as = some s →
    s.process = .finished ∧ s.delete = .finished → Untorn tree₀ s := by
  intro h
  have huntorn := h (fun _ _ => []) 0 ⟨.str "a", 0⟩ oneSegment
    (some (emptyAsset 0 ⟨.str "a", 0⟩)) (.process true :: deletion false) _ rfl ⟨rfl, rfl⟩
  rcases huntorn with ⟨-, hsegs⟩ | ⟨hrow, -⟩
  · have hlost := hsegs "segment_00000.ts" (mem_listSegments.mpr ⟨by decide, by decide⟩)
    exact absurd hlost (by decide)
  · exact absurd hrow (by decide)

end Deletion
