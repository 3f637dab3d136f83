/-
# What an asset says about its media

The path columns of an asset and the entries of its metadata, over jobs and restarts in any
environment: tools that fail, a database that is away, a process that is killed anywhere.

* `Asset.Kept`: what no step takes from an asset;
* `Archive.Derived`, `Archive.Honest`: an entry `ok` stands beside a path, and a proxy path names
  a playlist that is there;
* `Archive.Enriched`: the preorder that every step keeps.

A proxy is written over the old one, so its playlist stays; a thumbnail is removed before it is
written anew, which is why only its path is kept.
-/
import IngestFarm.Cataloging
import IngestFarm.Frames

open Prog

namespace PostProcess

/-! ## Rows -/

/-- The later state of an asset: its recording, its master and its counts are the same, and no
path is taken away. -/
structure Asset.Kept (a a' : Asset) : Prop where
  recordingId : a'.recordingId = a.recordingId
  masterPath : a'.masterPath = a.masterPath
  segmentCount : a'.segmentCount = a.segmentCount
  concatenatedSegments : a'.concatenatedSegments = a.concatenatedSegments
  proxyPath : a.proxyPath ≠ none → a'.proxyPath ≠ none
  thumbnailPath : a.thumbnailPath ≠ none → a'.thumbnailPath ≠ none

theorem Asset.Kept.refl (a : Asset) : a.Kept a := ⟨rfl, rfl, rfl, rfl, id, id⟩

/-- Two changes that keep the row. -/
theorem Asset.Kept.trans {a b c : Asset} (h : a.Kept b) (h' : b.Kept c) : a.Kept c where
  recordingId := h'.recordingId.trans h.recordingId
  masterPath := h'.masterPath.trans h.masterPath
  segmentCount := h'.segmentCount.trans h.segmentCount
  concatenatedSegments := h'.concatenatedSegments.trans h.concatenatedSegments
  proxyPath := h'.proxyPath ∘ h.proxyPath
  thumbnailPath := h'.thumbnailPath ∘ h.thumbnailPath

namespace Archive

/-- The playlist of the proxy is there. -/
def HasPlaylist (w : Archive) (dir : SessionDir) : Prop :=
  Tool.proxy.output ∈ (w.media dir).derived

/-- **What the columns of an asset say is so.** -/
structure Derived (w : Archive) (a : Asset) : Prop where
  proxyOk : a.proxy = .ok → a.proxyPath ≠ none
  thumbnailOk : a.thumbnail = .ok → a.thumbnailPath ≠ none
  proxyPath : ∀ p, a.proxyPath = some p → p = Tool.proxy.output ∧ w.HasPlaylist a.masterPath.dir
  thumbnailPath : ∀ p, a.thumbnailPath = some p → p = Tool.thumbnail.output

/-- One asset a recording, and each of them derived. -/
structure Honest (w : Archive) : Prop where
  unique : (w.assets.map Asset.recordingId).Nodup
  derived : ∀ a ∈ w.assets, w.Derived a

/-- **What a step does**: assets are added and kept, playlists stay, and the rows stay honest. -/
structure Enriched (w w' : Archive) : Prop where
  assets : ∀ (i : ℕ) (a : Asset), w.assets[i]? = some a →
    ∃ a', w'.assets[i]? = some a' ∧ a.Kept a'
  playlists : ∀ dir, w.HasPlaylist dir → w'.HasPlaylist dir
  honest : w.Honest → w'.Honest

/-- The asset is in the table, with the same master. -/
def Holds (w : Archive) (a : Asset) : Prop :=
  ∃ b ∈ w.assets, b.recordingId = a.recordingId ∧ b.masterPath = a.masterPath

end Archive

section Growth

variable {w w' w'' : Archive}

/-- More playlists confirm more paths. -/
theorem Archive.Derived.mono {a : Asset} (h : w.Derived a)
    (hplay : ∀ dir, w.HasPlaylist dir → w'.HasPlaylist dir) : w'.Derived a :=
  ⟨h.proxyOk, h.thumbnailOk, fun p hp => ⟨(h.proxyPath p hp).1, hplay _ (h.proxyPath p hp).2⟩,
    h.thumbnailPath⟩

/-- An asset is found again in an archive with more in it. -/
theorem Archive.Holds.mono {a : Asset} (h : w.Holds a) (hmore : w.Enriched w') : w'.Holds a := by
  obtain ⟨b, hb, hid, hmaster⟩ := h
  obtain ⟨i, hi⟩ := List.mem_iff_getElem?.mp hb
  obtain ⟨b', hb', hkept⟩ := hmore.assets i b hi
  exact ⟨b', List.mem_iff_getElem?.mpr ⟨i, hb'⟩, hkept.recordingId.trans hid,
    hkept.masterPath.trans hmaster⟩

/-- The row of an asset that the table holds. -/
theorem Archive.Holds.master {a b : Asset} (h : w.Holds a) (hw : w.Honest) (hb : b ∈ w.assets)
    (hid : b.recordingId = a.recordingId) : b.masterPath = a.masterPath := by
  obtain ⟨c, hc, hcid, hmaster⟩ := h
  obtain rfl : b = c := List.inj_on_of_nodup_map hw.unique hb hc (hid.trans hcid.symm)
  exact hmaster

namespace Archive.Enriched

theorem refl (w : Archive) : w.Enriched w :=
  ⟨fun _ a ha => ⟨a, ha, .refl a⟩, fun _ h => h, id⟩

theorem trans (h : w.Enriched w') (h' : w'.Enriched w'') : w.Enriched w'' := by
  refine ⟨fun i a ha => ?_, fun dir hd => h'.playlists dir (h.playlists dir hd),
    fun hw => h'.honest (h.honest hw)⟩
  obtain ⟨b, hb, hab⟩ := h.assets i a ha
  obtain ⟨c, hc, hbc⟩ := h'.assets i b hb
  exact ⟨c, hc, hab.trans hbc⟩

/-- Enriching is a frame. -/
theorem frame : Frame Archive.Enriched := ⟨refl, fun _ _ _ h h' => h.trans h'⟩

/-- A change of files that leaves the playlists. -/
theorem update (dir : SessionDir) {f : Directory → Directory}
    (hf : ∀ d : Directory, Tool.proxy.output ∈ d.derived → Tool.proxy.output ∈ (f d).derived)
    (w : Archive) : w.Enriched (w.update dir f) := by
  have hplay : ∀ d, w.HasPlaylist d → (w.update dir f).HasPlaylist d := by
    intro d hd
    unfold HasPlaylist Archive.update
    dsimp only
    by_cases heq : d = dir
    · subst heq
      rw [Function.update_self]
      exact hf _ hd
    · rw [Function.update_of_ne heq]
      exact hd
  exact ⟨fun _ a ha => ⟨a, ha, .refl a⟩, hplay,
    fun hw => ⟨hw.unique, fun a ha => (hw.derived a ha).mono hplay⟩⟩

/-- A new asset is added with what was derived. -/
theorem addAsset {a : Asset} (hnew : w.Insertable a) (ha : w.Derived a) :
    w.Enriched (w.addAsset a) := by
  refine ⟨fun i b hb => ⟨b, ?_, .refl b⟩, fun _ h => h, fun hw => ⟨?_, ?_⟩⟩
  · show (w.assets ++ [a])[i]? = some b
    rw [List.getElem?_append_left (List.getElem?_eq_some_iff.mp hb).1]
    exact hb
  · show ((w.assets ++ [a]).map Asset.recordingId).Nodup
    rw [List.map_append, List.nodup_append]
    refine ⟨hw.unique, List.nodup_singleton _, ?_⟩
    rintro r hr s hs rfl
    obtain ⟨b, hb, rfl⟩ := List.mem_map.mp hr
    exact hnew.2 b hb (List.mem_singleton.mp hs)
  · intro b hb
    rcases List.mem_append.mp hb with hb | hb
    · exact (hw.derived b hb).mono fun _ h => h
    · rw [List.mem_singleton.mp hb]
      exact ha.mono fun _ h => h

/-- An asset is rewritten with at least what it had. -/
theorem updateAsset {r : RecordingId} {f : Asset → Asset}
    (hkept : ∀ b : Asset, b.Kept (f b))
    (hf : w.Honest → ∀ b ∈ w.assets, b.recordingId = r → w.Derived b → w.Derived (f b)) :
    w.Enriched (w.updateAsset r f) := by
  refine ⟨fun i b hb => ?_, fun _ h => h, fun hw => ⟨?_, ?_⟩⟩
  · refine ⟨if b.recordingId = r then f b else b, ?_, ?_⟩
    · show (w.assets.map _)[i]? = _
      rw [List.getElem?_map, hb]
      rfl
    · split_ifs
      · exact hkept b
      · exact .refl b
  · have hids : ((w.updateAsset r f).assets.map Asset.recordingId) =
        w.assets.map Asset.recordingId := by
      show (w.assets.map _).map Asset.recordingId = _
      rw [List.map_map]
      apply List.map_congr_left
      intro b _
      show (if b.recordingId = r then f b else b).recordingId = b.recordingId
      split_ifs
      · exact (hkept b).recordingId
      · rfl
    rw [hids]
    exact hw.unique
  · intro b hb
    obtain ⟨c, hc, rfl⟩ := List.mem_map.mp hb
    have hd := hw.derived c hc
    by_cases hcr : c.recordingId = r
    · rw [if_pos hcr]
      exact (hf hw c hc hcr hd).mono fun _ h => h
    · rw [if_neg hcr]
      exact hd.mono fun _ h => h

end Archive.Enriched

end Growth

/-! ## Programs -/

/-- A preorder that the writes of files keep. -/
structure FilesFrame (R : Archive → Archive → Prop) : Prop extends Frame R where
  put : ∀ (dir : SessionDir) (name : String) (data : Bytes) (w : Archive),
    R w (w.update dir (Directory.put name data))
  append : ∀ (dir : SessionDir) (name : String) (b : UInt8) (w : Archive),
    R w (w.update dir (Directory.append name b))
  setDerived : ∀ (dir : SessionDir) (name : String) (data : Bytes) (w : Archive),
    R w (w.update dir fun d => { d with derived := Dict.set name data d.derived })
  eraseThumbnail : ∀ (dir : SessionDir) (w : Archive),
    R w (w.update dir fun d => { d with derived := d.derived.erase Tool.thumbnail.output })

namespace FilesFrame

open Prog.Keeps

variable {R : Archive → Archive → Prop} (h : FilesFrame R)
  {encode : Tool → Bytes → List (String × Bytes)}

include h

theorem select {α : Type} {S : α → Prop} {f : Archive → α} (hf : ∀ w, S (f w)) :
    Prog.Keeps R S (PostProcess.select f) :=
  seq h.toFrame (Prog.Keeps.call h.toFrame _ _) fun _ => reads h.toFrame hf

theorem oneOrNone (r : RecordingId) :
    Prog.Keeps R (fun _ => True) (PostProcess.oneOrNone r) := by
  unfold PostProcess.oneOrNone
  refine seq h.toFrame (h.select fun _ => trivial) fun found => ?_
  rcases found with _ | ⟨a, _ | ⟨b, rest⟩⟩
  · exact Prog.Keeps.pure h.toFrame trivial
  · exact Prog.Keeps.pure h.toFrame trivial
  · -- Two rows for one recording: `scalar_one_or_none` raises.
    exact Prog.Keeps.raise h.toFrame _

theorem readSegment (dir : SessionDir) (name : String) :
    Prog.Keeps R (fun _ => True) (PostProcess.readSegment dir name) := by
  unfold PostProcess.readSegment
  refine seq h.toFrame (Prog.Keeps.call h.toFrame _ _) fun _ => ?_
  refine read h.toFrame fun content => ?_
  cases content with
  | none => exact Prog.Keeps.raise h.toFrame _
  | some data => exact Prog.Keeps.pure h.toFrame trivial

/-- Concatenating writes files of the directory only. -/
theorem masterOf (dir : SessionDir) (seg : String) (rest : List String) :
    Prog.Keeps R (fun _ => True) (PostProcess.masterOf dir seg rest) := by
  unfold PostProcess.masterOf
  refine ite (fun _ => Prog.Keeps.pure h.toFrame trivial) fun _ => ?_
  unfold concatMpegtsSegments
  rcases rest with _ | ⟨seg', rest⟩
  · exact Prog.Keeps.pure h.toFrame trivial
  · dsimp only
    refine seq h.toFrame (Prog.Keeps.call h.toFrame _ _) fun _ => ?_
    refine seq h.toFrame (Prog.Keeps.modify fun w => h.put dir masterName [] w) fun _ => ?_
    refine seq h.toFrame (Prog.Keeps.each h.toFrame (fun name => ?_) _) fun _ =>
      Prog.Keeps.pure h.toFrame trivial
    refine seq h.toFrame (h.readSegment dir name) fun fh => ?_
    refine seq h.toFrame (Prog.Keeps.each h.toFrame (fun chunk => ?_) fh) fun _ =>
      Prog.Keeps.call h.toFrame _ _
    refine seq h.toFrame (Prog.Keeps.call h.toFrame _ _) fun _ => ?_
    unfold writeChunk
    refine Prog.Keeps.each h.toFrame (fun b => ?_) chunk
    exact seq h.toFrame (Prog.Keeps.call h.toFrame _ _) fun _ =>
      Prog.Keeps.modify fun w => h.append dir masterName b w

/-- The file that a thumbnail replaces is removed first. -/
theorem clear (tool : Tool) (dir : SessionDir) :
    Prog.Keeps R (fun _ => True) (whenever (tool = .thumbnail) (modify (Archive.update dir
      fun d => { d with derived := d.derived.erase tool.output })) : Job Unit) := by
  refine Prog.Keeps.whenever h.toFrame fun htool => Prog.Keeps.modify fun w => ?_
  subst htool
  exact h.eraseThumbnail dir w

/-- What a tool writes. -/
theorem write (dir : SessionDir) (files : List (String × Bytes)) :
    Prog.Keeps R (fun _ => True) (each (fun f => do
      call .media .media
      modify (Archive.update dir fun d => { d with
        derived := Dict.set f.1 f.2 d.derived })) files : Job Unit) := by
  refine Prog.Keeps.each h.toFrame (fun f => ?_) _
  exact seq h.toFrame (Prog.Keeps.call h.toFrame _ _) fun _ =>
    Prog.Keeps.modify fun w => h.setDerived dir f.1 f.2 w

theorem loadRecording (r : RecordingId) :
    Prog.Keeps R (fun _ => True) (PostProcess.loadRecording r) := by
  unfold PostProcess.loadRecording
  refine seq h.toFrame (h.select fun _ => trivial) fun recording => ?_
  cases recording with
  | none => exact Prog.Keeps.pure h.toFrame trivial
  | some row =>
    refine seq h.toFrame (h.oneOrNone r) fun existing => ?_
    refine ite (fun _ => Prog.Keeps.pure h.toFrame trivial) fun _ => ?_
    exact seq h.toFrame (Prog.Keeps.call h.toFrame _ _) fun _ =>
      Prog.Keeps.pure h.toFrame trivial

end FilesFrame

section Programs

open Prog.Keeps
open Archive (Enriched)

variable {encode : Tool → Bytes → List (String × Bytes)} {o : Oracle ArchiveCall} {n : ℕ}
  {w w' : Archive}

/-- Files that are written enrich the archive. -/
theorem filesFrame_enriched : FilesFrame Enriched where
  toFrame := Enriched.frame
  put := fun dir name data w =>
    Enriched.update (f := Directory.put name data) dir (fun _ hd => hd) w
  append := fun dir name b w =>
    Enriched.update (f := Directory.append name b) dir (fun _ hd => hd) w
  setDerived := fun dir _ _ w =>
    Enriched.update dir (fun _ hd => (Dict.mem_set _ _ _ _).mpr (Or.inr hd)) w
  eraseThumbnail := by
    refine fun dir w => Enriched.update dir (fun d hd => ?_) w
    show Tool.proxy.output ∈ d.derived.erase Tool.thumbnail.output
    rw [AList.mem_erase]
    exact ⟨by decide, hd⟩

/-- Where the output of a tool has been left. -/
def Written (w : Archive) (tool : Tool) (dir : SessionDir) : Prop :=
  tool.output ∈ (w.media dir).derived

/-- **A tool that returns** has left what was asked for. -/
theorem wp_generate_written (tool : Tool) (master : MediaPath) :
    wp o (generate encode tool master)
      (fun path _ w' => w.Enriched w' ∧ path = tool.output ∧ Written w' tool master.dir)
      (fun _ _ w' => w.Enriched w') (fun w' => w.Enriched w') n w := by
  unfold generate
  rw [wp_bind, wp_reads, wp_bind]
  refine wp_of_keeps (filesFrame_enriched.clear tool master.dir) ?_ (fun _ _ _ h => h)
    (fun _ h => h)
  intro _ n₁ w₁ h₁ _
  rw [wp_bind]
  refine wp_mono (Prog.Keeps.from_ Enriched.frame (filesFrame_enriched.write master.dir _) h₁) ?_
    (fun _ _ _ h => h) (fun _ h => h)
  rintro _ n₂ w₂ ⟨h₂, _⟩
  rw [wp_bind]
  refine wp_mono (Prog.Keeps.from_ Enriched.frame (Prog.Keeps.call Enriched.frame _ _) h₂) ?_
    (fun _ _ _ h => h) (fun _ h => h)
  rintro _ n₃ w₃ ⟨h₃, _⟩
  rw [wp_bind, wp_reads, wp_ite]
  refine ⟨fun _ => h₃, fun hsome => ⟨h₃, rfl, ?_⟩⟩
  unfold Written
  rw [← AList.lookup_isSome, Option.isSome_iff_ne_none]
  exact hsome

/-- What a tool's `try` block returns: the path and `ok`, or neither. -/
def Found (w : Archive) (tool : Tool) (dir : SessionDir) (found : Option String × MediaState) :
    Prop :=
  (found = (some tool.output, .ok) ∧ Written w tool dir) ∨ found = (none, .failed)

/-- What a tool says it has found is there. -/
theorem wp_tryGenerate_found (tool : Tool) (master : MediaPath) :
    wp o (tryGenerate encode tool master)
      (fun found _ w' => w.Enriched w' ∧ Found w' tool master.dir found)
      (fun _ _ w' => w.Enriched w') (fun w' => w.Enriched w') n w := by
  unfold tryGenerate
  rw [wp_attempt, wp_bind]
  refine wp_mono (wp_generate_written tool master) ?_ ?_ (fun _ h => h)
  · rintro path _ w' ⟨hmore, rfl, hwritten⟩
    exact ⟨hmore, Or.inl ⟨rfl, hwritten⟩⟩
  · -- Whatever the tool raises is logged and counted as `failed`.
    exact fun _ _ w' hmore => ⟨hmore, Or.inr rfl⟩

/-- **`_derive_media`** returns what is so, and does not touch what else the asset says. -/
theorem wp_deriveMedia_derived (a : Asset) :
    wp o (deriveMedia encode a.masterPath a)
      (fun found _ w' => w.Enriched w' ∧ w'.Derived found ∧ found.recordingId = a.recordingId ∧
        found.masterPath = a.masterPath)
      (fun _ _ w' => w.Enriched w') (fun w' => w.Enriched w') n w := by
  unfold deriveMedia
  rw [wp_bind, wp_reads]
  split_ifs with hnone
  · exact ⟨.refl w, ⟨fun h => absurd h (by simp), fun h => absurd h (by simp),
      fun _ h => absurd h (by simp), fun _ h => absurd h (by simp)⟩, rfl, rfl⟩
  · rw [wp_bind]
    refine wp_mono (wp_tryGenerate_found .proxy a.masterPath) ?_ (fun _ _ _ h => h) fun _ h => h
    rintro proxy n₁ w₁ ⟨h₁, hproxy⟩
    rw [wp_bind]
    refine wp_mono (wp_tryGenerate_found .thumbnail a.masterPath) ?_
      (fun _ _ _ h => h₁.trans h) fun _ h => h₁.trans h
    rintro thumb n₂ w₂ ⟨h₂, hthumb⟩
    refine ⟨h₁.trans h₂, ⟨?_, ?_, ?_, ?_⟩, rfl, rfl⟩
    · rintro hok
      rcases hproxy with ⟨rfl, _⟩ | rfl
      · exact Option.some_ne_none _
      · exact absurd hok (by simp)
    · rintro hok
      rcases hthumb with ⟨rfl, _⟩ | rfl
      · exact Option.some_ne_none _
      · exact absurd hok (by simp)
    · -- The thumbnail comes after the proxy; it leaves the playlist.
      intro p hp
      rcases hproxy with ⟨rfl, hwritten⟩ | rfl
      · exact ⟨(Option.some.inj hp).symm, h₂.playlists _ hwritten⟩
      · exact absurd hp (by simp)
    · intro p hp
      rcases hthumb with ⟨rfl, _⟩ | rfl
      · exact (Option.some.inj hp).symm
      · exact absurd hp (by simp)

/-- **`_create_asset`** of an asset that says what is so. -/
theorem wp_createAsset_derived {a : Asset} (ha : w.Derived a) :
    wp o (createAsset a) (fun _ _ w' => w.Enriched w') (fun _ _ w' => w.Enriched w')
      (fun w' => w.Enriched w') n w := by
  unfold createAsset
  rw [wp_bind]
  refine wp_of_keeps (filesFrame_enriched.oneOrNone a.recordingId) ?_ (fun _ _ _ h => h)
    (fun _ h => h)
  intro existing n₁ w₁ h₁ _
  rw [wp_ite, wp_bind]
  refine ⟨fun _ => h₁, fun _ => ?_⟩
  rw [wp_call]
  refine ⟨fun _ => ?_, fun _ => h₁, fun _ => h₁⟩
  rw [wp_bind, wp_reads, wp_ite]
  refine ⟨fun hallowed => ?_, fun _ => h₁⟩
  exact h₁.trans (Enriched.addAsset (of_decide_eq_true hallowed) (ha.mono h₁.playlists))

/-- **A job** keeps what there is. -/
theorem enriches_process (r : RecordingId) :
    Prog.Keeps Enriched (fun _ => True) (process encode r) := by
  unfold process
  refine seq Enriched.frame (filesFrame_enriched.loadRecording r) fun loaded => ?_
  cases loaded with
  | none => exact Prog.Keeps.pure Enriched.frame trivial
  | some dir =>
    refine read Enriched.frame fun segments => ?_
    cases segments with
    | nil =>
      intro o n w
      refine wp_mono (wp_createAsset_derived ?_) (fun _ _ _ h => ⟨h, trivial⟩)
        (fun _ _ _ h => h) fun _ h => h
      exact ⟨fun h => absurd h (by simp [emptyAsset]), fun h => absurd h (by simp [emptyAsset]),
        fun _ h => absurd h (by simp [emptyAsset]), fun _ h => absurd h (by simp [emptyAsset])⟩
    | cons seg rest =>
      unfold catalogSegments
      refine seq Enriched.frame (filesFrame_enriched.masterOf dir seg rest) fun name => ?_
      refine seq Enriched.frame (Prog.Keeps.attempt Enriched.frame
        (Prog.Keeps.call Enriched.frame _ _) fun _ => Prog.Keeps.pure Enriched.frame trivial)
        fun _ => ?_
      intro o n w
      rw [wp_bind]
      refine wp_mono (wp_deriveMedia_derived (segmentsAsset r dir name rest)) ?_
        (fun _ _ _ h => h) fun _ h => h
      rintro found n₁ w₁ ⟨h₁, hfound, _⟩
      exact wp_mono (wp_createAsset_derived hfound) (fun _ _ _ h => ⟨h₁.trans h, trivial⟩)
        (fun _ _ _ h => h₁.trans h) fun _ h => h₁.trans h

/-- A later derivation is added to what the row says. -/
theorem kept_refill (found old : Asset) : old.Kept (refill found old) where
  recordingId := rfl
  masterPath := rfl
  segmentCount := rfl
  concatenatedSegments := rfl
  proxyPath := by
    intro hold
    show (found.proxyPath.orElse fun _ => old.proxyPath) ≠ none
    cases hfound : found.proxyPath with
    | none => exact hold
    | some p => exact Option.some_ne_none p
  thumbnailPath := by
    intro hold
    show (found.thumbnailPath.orElse fun _ => old.thumbnailPath) ≠ none
    cases hfound : found.thumbnailPath with
    | none => exact hold
    | some p => exact Option.some_ne_none p

/-- Old and new paths together are derived. -/
theorem derived_refill {found old : Asset} (hfound : w.Derived found) (hold : w.Derived old)
    (hmaster : old.masterPath = found.masterPath) : w.Derived (refill found old) where
  proxyOk := by
    intro hok
    obtain ⟨p, hp⟩ := Option.ne_none_iff_exists'.mp (hfound.proxyOk hok)
    simp [refill, hp]
  thumbnailOk := by
    intro hok
    obtain ⟨p, hp⟩ := Option.ne_none_iff_exists'.mp (hfound.thumbnailOk hok)
    simp [refill, hp]
  -- A path is the one that was found, or else the old one; both stand for a playlist.
  proxyPath := by
    intro p hp
    have hp : (found.proxyPath.orElse fun _ => old.proxyPath) = some p := hp
    show p = Tool.proxy.output ∧ w.HasPlaylist old.masterPath.dir
    cases hnew : found.proxyPath with
    | none =>
      rw [hnew] at hp
      exact hold.proxyPath p hp
    | some q =>
      rw [hnew] at hp
      obtain rfl : q = p := Option.some.inj hp
      rw [hmaster]
      exact hfound.proxyPath q hnew
  thumbnailPath := by
    intro p hp
    have hp : (found.thumbnailPath.orElse fun _ => old.thumbnailPath) = some p := hp
    cases hnew : found.thumbnailPath with
    | none =>
      rw [hnew] at hp
      exact hold.thumbnailPath p hp
    | some q =>
      rw [hnew] at hp
      obtain rfl : q = p := Option.some.inj hp
      exact hfound.thumbnailPath q hnew

/-- **One asset of a backfill.** -/
theorem wp_backfillAsset_enriches {a : Asset} (ha : w.Holds a) :
    wp o (backfillAsset encode a) (fun _ _ w' => w.Enriched w') (fun _ _ w' => w.Enriched w')
      (fun w' => w.Enriched w') n w := by
  -- However the write turns out, it adds to what the media pass has done.
  have hcommit : ∀ {w₁ : Archive} {n : ℕ} {f : Asset → Asset}, w.Enriched w₁ →
      w₁.Enriched (w₁.updateAsset a.recordingId f) →
      wp o (call ArchiveCall.query ArchiveError.database >>= fun _ =>
        call ArchiveCall.commit ArchiveError.database >>= fun _ =>
          modify (Archive.updateAsset a.recordingId f)) (fun _ _ w' => w.Enriched w')
        (fun _ _ w' => w.Enriched w') (fun w' => w.Enriched w') n w₁ := by
    intro w₁ n f h₁ hf
    rw [wp_bind, wp_call]
    refine ⟨fun _ => ?_, fun _ => h₁, fun _ => h₁⟩
    rw [wp_bind, wp_call]
    exact ⟨fun _ => h₁.trans hf, fun _ => h₁, fun _ => h₁⟩
  unfold backfillAsset
  rw [wp_bind, wp_reads]
  split_ifs with hnone
  · -- The master is gone: only the entries of the metadata change.
    apply hcommit (.refl w)
    apply Enriched.updateAsset
    · exact fun b => ⟨rfl, rfl, rfl, rfl, id, id⟩
    · exact fun _ b _ _ hb => ⟨hb.proxyOk, hb.thumbnailOk, hb.proxyPath, hb.thumbnailPath⟩
  · rw [wp_bind]
    refine wp_mono (wp_deriveMedia_derived a) ?_ (fun _ _ _ h => h) fun _ h => h
    rintro found n₁ w₁ ⟨h₁, hfound, -, hmaster⟩
    apply hcommit h₁
    apply Enriched.updateAsset (kept_refill found)
    intro hw b hb hid hold
    exact derived_refill hfound hold (((ha.mono h₁).master hw hb hid).trans hmaster.symm)

/-- The backfill enriches. -/
theorem enriches_backfillMissingMedia :
    Prog.Keeps Enriched (fun _ => True) (backfillMissingMedia encode) := by
  intro o n w
  unfold backfillMissingMedia
  rw [wp_bind]
  have hselect : wp o (select fun w => w.missingMedia backfillBatch)
      (fun pending n' w' => w' = w ∧ pending = w.missingMedia backfillBatch)
      (fun _ _ w' => w.Enriched w') (fun w' => w.Enriched w') n w := by
    unfold select
    rw [wp_bind, wp_call]
    exact ⟨fun _ => ⟨rfl, rfl⟩, fun _ => .refl w, fun _ => .refl w⟩
  refine wp_mono hselect ?_ (fun _ _ _ h => h) fun _ h => h
  rintro pending n w₁ ⟨rfl, rfl⟩
  -- The rows that were selected stay in the table while the ones before them are written.
  refine wp_each (I := fun todo w' => w₁.Enriched w' ∧ ∀ a ∈ todo, w'.Holds a) ?_ ?_ _ n w₁
    ⟨.refl w₁, fun a ha => ?_⟩
  · rintro a todo n w' ⟨hmore, htodo⟩
    refine wp_mono (wp_backfillAsset_enriches (htodo a List.mem_cons_self)) ?_
      (fun _ _ _ h => hmore.trans h) fun _ h => hmore.trans h
    exact fun _ _ w'' h => ⟨hmore.trans h,
      fun b hb => (htodo b (List.mem_cons_of_mem _ hb)).mono h⟩
  · exact fun n w' h => ⟨h.1, trivial⟩
  · have hmem := List.mem_of_mem_take ha
    rw [List.mem_filter, List.mem_reverse] at hmem
    exact ⟨a, hmem.1, rfl, rfl⟩

/-- **A job or a restart** keeps what there is. -/
theorem enriches_program (a : Arrival) :
    Prog.Keeps Enriched (fun _ => True) (a.program encode) := by
  cases a with
  | job r => exact enriches_process r
  | restart =>
    show Prog.Keeps Enriched _ (startupPasses encode)
    unfold startupPasses catalogUncatalogedRecordings
    refine seq Enriched.frame ?_ fun _ => enriches_backfillMissingMedia
    refine seq Enriched.frame (filesFrame_enriched.select fun _ => trivial) fun ids => ?_
    exact Prog.Keeps.each Enriched.frame (fun r => Prog.Keeps.attempt Enriched.frame
      (enriches_process r) fun _ => Prog.Keeps.pure Enriched.frame trivial) ids

/-- **So does any sequence of jobs and starts.** -/
theorem enriches_after (w : Archive) (as : List (Arrival × Oracle ArchiveCall)) :
    w.Enriched (w.after encode as) := by
  induction as generalizing w with
  | nil => exact .refl w
  | cons a as ih => exact (enriches_program a.1).final.trans (ih _)

/-- **What an asset says about its media stays true**: after any jobs and restarts, whatever
fails and wherever the process is killed, each asset is in its place with its master and its
paths, an entry `ok` has its path, and a proxy path names a playlist that is there. -/
theorem media_columns_stay_true (encode : Tool → Bytes → List (String × Bytes)) {w : Archive}
    (hw : w.Honest) (as : List (Arrival × Oracle ArchiveCall)) :
    (w.after encode as).Honest ∧ ∀ (i : ℕ) (a : Asset), w.assets[i]? = some a →
      ∃ a', (w.after encode as).assets[i]? = some a' ∧ a.Kept a' :=
  ⟨(enriches_after w as).honest hw, (enriches_after w as).assets⟩

/-- A job, and a restart that is killed. -/
theorem media_columns_stay_true_killed : interrupted.Honest ∧
    (interrupted.after (fun _ data => [("proxy/playlist.m3u8", data)])
      [(.job 0, allOk), (.restart, fun n _ => if n = 5 then .crash else .ok)]).Honest := by
  have hstart : interrupted.Honest := ⟨List.nodup_nil, fun a ha => absurd ha List.not_mem_nil⟩
  exact ⟨hstart, (media_columns_stay_true _ hstart _).1⟩

end Programs

end PostProcess
