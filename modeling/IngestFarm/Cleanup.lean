/-
# Deleting a recording's media

`delete_recording_media` on a file tree without symbolic links, where resolving a path is
taking out its `..`.  The paths of the asset are looked at after the storage directory has gone,
but the answers are those of the tree before (`extraPaths_removed`); so what is removed is what
lies at or below the targets, as far as these lie under the storage root (`kind_delete`).

The tree is a function on resolved paths with the proof that an entry has its parents, so that what
is removed with a path is what lies at or below it, and a removal leaves a tree.
-/
import IngestFarm.Serving

namespace Cleanup

open Etr290 (Text)
open Paths
open Serving (AssetRow present)

/-- What a path is. -/
inductive Kind where
  | file
  | dir
  deriving DecidableEq

/-- A file tree: whatever exists lies in directories. -/
structure FileTree where
  kind : RealPath → Option Kind
  inDirs : ∀ p q, p <+: q → p ≠ q → kind q ≠ none → kind p = some .dir

namespace FileTree

/-- `path.exists()`. -/
def Exists (tree : FileTree) (p : RealPath) : Prop := tree.kind p ≠ none

/-- `path.is_file()`. -/
def IsFile (tree : FileTree) (p : RealPath) : Prop := tree.kind p = some .file

instance (tree : FileTree) (p : RealPath) : Decidable (tree.IsFile p) :=
  inferInstanceAs (Decidable (tree.kind p = some .file))

/-- `shutil.rmtree(ignore_errors=True)` when nothing else writes: all that lies at or below the
target goes. -/
def rmtree (tree : FileTree) (target : RealPath) : FileTree where
  kind := fun p => if target <+: p then none else tree.kind p
  inDirs := by
    intro p q hpq hne hq
    by_cases htq : target <+: q
    · rw [if_pos htq] at hq
      exact absurd rfl hq
    · rw [if_neg htq] at hq
      rw [if_neg fun htp => htq (htp.trans hpq)]
      exact tree.inDirs p q hpq hne hq

/-- `unlink` of a file. -/
def unlink (tree : FileTree) (target : RealPath) (h : tree.IsFile target) : FileTree where
  kind := fun p => if p = target then none else tree.kind p
  inDirs := by
    intro p q hpq hne hq
    by_cases htq : q = target
    · rw [if_pos htq] at hq
      exact absurd rfl hq
    · rw [if_neg htq] at hq
      have hdir := tree.inDirs p q hpq hne hq
      rw [if_neg]
      · exact hdir
      · rintro rfl
        exact absurd (hdir.symm.trans h) (by decide)

end FileTree

/-- Take out the `..`. -/
def collapse (parts : List Component) : RealPath :=
  parts.foldl (fun acc c => if c.name = ['.', '.'] then acc.dropLast else acc ++ [c]) []

/-- `Path.resolve` without links, from a working directory. -/
def resolve (cwd : RealPath) (p : PurePath) : RealPath :=
  collapse (if p.absolute then p.parts else cwd ++ p.parts)

/-- `path.parent` of a resolved path. -/
def parent (p : RealPath) : RealPath := p.dropLast

/-- `".m3u8"`, the suffix of a path whose whole directory is derived media. -/
def playlistSuffix : Text := ['.', 'm', '3', 'u', '8']

/-- `safe_remove_path` of a resolved path, when no removal fails. -/
def safeRemovePath (root target : RealPath) (tree : FileTree) : FileTree :=
  if RealPath.isUnder root target = false then tree
  else
    match h : tree.kind target with
    | none => tree
    | some .dir => tree.rmtree target
    | some .file => tree.unlink target h

/-- What `_collect_extra_paths` makes of one path of the asset. -/
def extraPath (tree : FileTree) (storageDir path : RealPath) : List RealPath :=
  if path = storageDir ∨ storageDir ∈ RealPath.parents path then []
  else if tree.IsFile path then [path]
  else if RealPath.suffix path = playlistSuffix then [path, parent path]
  else [path]

/-- The paths of the asset that are set, in the order in which they are looked at. -/
def assetPaths (cwd : RealPath) (asset : AssetRow) : List RealPath :=
  ([asset.masterPath, asset.proxyPath, asset.thumbnailPath].filterMap present).map fun raw =>
    resolve cwd (.ofText raw)

/-- `_collect_extra_paths`: what the asset names outside the directory of the recording, and for a
playlist its directory. -/
def collectExtraPaths (cwd : RealPath) (tree : FileTree) (storagePath : Text)
    (asset : Option AssetRow) : List RealPath :=
  match asset with
  | none => []
  | some asset =>
    (assetPaths cwd asset).flatMap (extraPath tree (resolve cwd (.ofText storagePath)))

/-- `delete_recording_media`: the directory of the recording and the extra paths, each only if it is
under the storage root. -/
def deleteRecordingMedia (cwd : RealPath) (storageRoot storagePath : Text)
    (asset : Option AssetRow) (tree : FileTree) : FileTree :=
  let root := resolve cwd (.ofText storageRoot)
  let tree := safeRemovePath root (resolve cwd (.ofText storagePath)) tree
  (collectExtraPaths cwd tree storagePath asset).foldl
    (fun tree extra => safeRemovePath root extra tree) tree

/-! ## What is removed -/

section Removal

variable {tree : FileTree} {root target : RealPath}

/-- **One removal** takes what lies at or below its target, if that lies under the root. -/
theorem kind_safeRemovePath (root target : RealPath) (tree : FileTree) (p : RealPath) :
    (safeRemovePath root target tree).kind p =
      if root <+: target ∧ target <+: p then none else tree.kind p := by
  unfold safeRemovePath
  by_cases hroot : root <+: target
  · rw [if_neg (by rw [isUnder_iff.mpr hroot]; exact Bool.true_eq_false.mp)]
    simp only [hroot, true_and]
    -- Below what does not exist, or is a file, there is nothing.
    have hbelow : tree.kind target ≠ some .dir → target <+: p → p ≠ target →
        tree.kind p = none := by
      intro hdir hp hne
      by_contra hex
      exact hdir (tree.inDirs target p hp (Ne.symm hne) hex)
    split
    · next h =>
      by_cases hp : target <+: p
      · rw [if_pos hp]
        by_cases hne : p = target
        · rw [hne, h]
        · exact hbelow (by rw [h]; simp) hp hne
      · rw [if_neg hp]
    · rfl
    · next h =>
      show (if p = target then none else tree.kind p) = _
      by_cases hne : p = target
      · rw [if_pos hne, hne, if_pos (List.prefix_refl _)]
      · rw [if_neg hne]
        by_cases hp : target <+: p
        · rw [if_pos hp]
          exact hbelow (by rw [h]; simp) hp hne
        · rw [if_neg hp]
  · have hfalse : RealPath.isUnder root target = false := by
      rw [← Bool.not_eq_true, isUnder_iff]
      exact hroot
    rw [if_pos hfalse, if_neg fun h => hroot h.1]

/-- **Several removals** one after the other. -/
theorem kind_foldl (root : RealPath) (targets : List RealPath) (tree : FileTree) (p : RealPath) :
    (targets.foldl (fun tree extra => safeRemovePath root extra tree) tree).kind p =
      if ∃ t ∈ targets, root <+: t ∧ t <+: p then none else tree.kind p := by
  induction targets generalizing tree with
  | nil => simp
  | cons t ts ih =>
    rw [List.foldl_cons, ih, kind_safeRemovePath]
    by_cases hts : ∃ u ∈ ts, root <+: u ∧ u <+: p
    · obtain ⟨u, hu, hup⟩ := hts
      rw [if_pos ⟨u, hu, hup⟩, if_pos ⟨u, List.mem_cons_of_mem _ hu, hup⟩]
    · rw [if_neg hts]
      by_cases ht : root <+: t ∧ t <+: p
      · rw [if_pos ht, if_pos ⟨t, List.mem_cons_self .., ht⟩]
      · rw [if_neg ht, if_neg]
        rintro ⟨u, hu, hup⟩
        rcases List.mem_cons.mp hu with rfl | hu
        · exact ht hup
        · exact hts ⟨u, hu, hup⟩

/-- The first removal does not change what is found at the paths that are looked at. -/
theorem extraPath_removed (root storageDir path : RealPath) (tree : FileTree) :
    extraPath (safeRemovePath root storageDir tree) storageDir path =
      extraPath tree storageDir path := by
  unfold extraPath
  by_cases hunder : path = storageDir ∨ storageDir ∈ RealPath.parents path
  · rw [if_pos hunder, if_pos hunder]
  · rw [if_neg hunder, if_neg hunder]
    have hnot : ¬ storageDir <+: path := by
      intro hp
      have h := isUnder_iff.mpr hp
      rw [RealPath.isUnder, Bool.or_eq_true, decide_eq_true_eq, decide_eq_true_eq] at h
      exact hunder (h.imp_left Eq.symm)
    have hfile : (safeRemovePath root storageDir tree).IsFile path ↔ tree.IsFile path := by
      unfold FileTree.IsFile
      rw [kind_safeRemovePath, if_neg fun h => hnot h.2]
    simp only [hfile]

end Removal

/-! ## All of it and nothing else -/

section Deletion

variable (cwd : RealPath) (storageRoot storagePath : Text) (asset : Option AssetRow)

/-- The resolved paths of some columns of the asset. -/
def columns (f : AssetRow → List (Option Text)) : List RealPath :=
  match asset with
  | none => []
  | some asset => ((f asset).filterMap present).map fun raw => resolve cwd (.ofText raw)

/-- The master and the thumbnail. -/
def singleFiles : List RealPath := columns cwd asset fun a => [a.masterPath, a.thumbnailPath]

/-- The playlist of the proxy. -/
def playlists : List RealPath := columns cwd asset fun a => [a.proxyPath]

/-- What belongs to the recording: its directory, master, thumbnail and the HLS package. -/
def media : List RealPath :=
  resolve cwd (.ofText storagePath) :: singleFiles cwd asset ++ (playlists cwd asset).map parent

/-- All media is gone, as far as it lies strictly below the root, and nothing else. -/
structure Deleted (root : RealPath) (media : List RealPath) (tree tree' : FileTree) : Prop where
  gone : ∀ p ∈ media, root <+: p → p ≠ root → ¬ tree'.Exists p
  spared : ∀ f, tree.IsFile f → (∀ p ∈ media, ¬ p <+: f) → tree'.IsFile f
  rootKept : tree.Exists root → tree'.Exists root
  outside : ∀ p, ¬ root <+: p → tree'.kind p = tree.kind p

/-- A path of the asset whose parent is removed as well: it ends in `.m3u8` and is no file. -/
def Leads (tree : FileTree) (path : RealPath) : Prop :=
  ¬ tree.IsFile path ∧ RealPath.suffix path = playlistSuffix

/-- A path of the asset that does not lie at or below the storage directory. -/
def Apart (path : RealPath) : Prop :=
  path ∈ singleFiles cwd asset ++ playlists cwd asset ∧
    ¬ resolve cwd (.ofText storagePath) <+: path

/-- **Where the paths have to lie.** -/
structure WellPlaced (tree : FileTree) : Prop where
  /-- Nothing that is removed is the storage root. -/
  rootApart : tree.Exists (resolve cwd (.ofText storageRoot)) →
    resolve cwd (.ofText storagePath) ≠ resolve cwd (.ofText storageRoot) ∧
      ∀ z, Apart cwd storagePath asset z → z ≠ resolve cwd (.ofText storageRoot) ∧
        (Leads tree z → parent z ≠ resolve cwd (.ofText storageRoot))
  /-- A storage directory above media that lies below the root lies below the root itself. -/
  above : ∀ p ∈ media cwd storagePath asset, resolve cwd (.ofText storageRoot) <+: p →
    p ≠ resolve cwd (.ofText storageRoot) → tree.Exists p →
      resolve cwd (.ofText storagePath) <+: p →
        resolve cwd (.ofText storageRoot) <+: resolve cwd (.ofText storagePath)
  /-- An HLS package that is apart from the storage directory has no playlist file, or goes
  with another path. -/
  package : ∀ p ∈ playlists cwd asset, resolve cwd (.ofText storageRoot) <+: parent p →
    parent p ≠ resolve cwd (.ofText storageRoot) → tree.Exists (parent p) →
      ¬ resolve cwd (.ofText storagePath) <+: parent p →
        ∃ z, Apart cwd storagePath asset z ∧
          (resolve cwd (.ofText storageRoot) <+: z ∧ z <+: parent p ∨
            Leads tree z ∧ resolve cwd (.ofText storageRoot) <+: parent z ∧
              parent z <+: parent p)
  /-- The directory of a missing master or thumbnail that is named like a playlist holds
  media only. -/
  spare : ∀ z, Apart cwd storagePath asset z → Leads tree z →
    resolve cwd (.ofText storageRoot) <+: parent z → ∀ f, tree.IsFile f → parent z <+: f →
      ∃ p ∈ media cwd storagePath asset, p <+: f

variable {cwd storageRoot storagePath asset} {tree : FileTree}

/-- A path is below its parent. -/
theorem parent_below (p : RealPath) : parent p <+: p := List.dropLast_prefix p

/-- The media of a recording, as the deletion finds them. -/
theorem mem_media {p : RealPath} : p ∈ media cwd storagePath asset ↔
    p = resolve cwd (.ofText storagePath) ∨ p ∈ singleFiles cwd asset ∨
      ∃ z ∈ playlists cwd asset, parent z = p := by
  unfold media
  rw [List.cons_append, List.mem_cons, List.mem_append, List.mem_map]

/-- What an asset names is a file or a playlist. -/
theorem mem_assetPaths {row : AssetRow} {z : RealPath} : z ∈ assetPaths cwd row ↔
    z ∈ singleFiles cwd (some row) ++ playlists cwd (some row) := by
  unfold assetPaths singleFiles playlists columns
  simp only [List.mem_map, List.mem_filterMap, List.mem_append, List.mem_cons, List.not_mem_nil,
    or_false]
  constructor
  · rintro ⟨raw, ⟨o, ho, hraw⟩, rfl⟩
    rcases ho with rfl | rfl | rfl
    · exact Or.inl ⟨raw, ⟨_, Or.inl rfl, hraw⟩, rfl⟩
    · exact Or.inr ⟨raw, ⟨_, rfl, hraw⟩, rfl⟩
    · exact Or.inl ⟨raw, ⟨_, Or.inr rfl, hraw⟩, rfl⟩
  · rintro (⟨raw, ⟨o, ho, hraw⟩, rfl⟩ | ⟨raw, ⟨o, rfl, hraw⟩, rfl⟩)
    · rcases ho with rfl | rfl
      · exact ⟨raw, ⟨_, Or.inl rfl, hraw⟩, rfl⟩
      · exact ⟨raw, ⟨_, Or.inr (Or.inr rfl), hraw⟩, rfl⟩
    · exact ⟨raw, ⟨_, Or.inr (Or.inl rfl), hraw⟩, rfl⟩

/-- What the path leads to removing. -/
theorem mem_extraPath {storageDir z t : RealPath} : t ∈ extraPath tree storageDir z ↔
    ¬ storageDir <+: z ∧ (t = z ∨ Leads tree z ∧ t = parent z) := by
  have hunder : (z = storageDir ∨ storageDir ∈ RealPath.parents z) ↔ storageDir <+: z := by
    rw [← isUnder_iff, RealPath.isUnder, Bool.or_eq_true, decide_eq_true_eq, decide_eq_true_eq,
      eq_comm]
  unfold extraPath Leads
  by_cases hz : storageDir <+: z
  · rw [if_pos (hunder.mpr hz)]
    simp [hz]
  · rw [if_neg (mt hunder.mp hz)]
    by_cases hfile : tree.IsFile z
    · rw [if_pos hfile]
      simp [hz, hfile]
    · rw [if_neg hfile]
      by_cases hsuffix : RealPath.suffix z = playlistSuffix
      · rw [if_pos hsuffix]
        simp [hz, hfile, hsuffix]
      · rw [if_neg hsuffix]
        simp [hz, hsuffix]

/-- The targets under the root are gone with what lies below them. -/
def Target (cwd : RealPath) (storagePath : Text) (asset : Option AssetRow) (tree : FileTree)
    (t : RealPath) : Prop :=
  t = resolve cwd (.ofText storagePath) ∨
    ∃ z, Apart cwd storagePath asset z ∧ (t = z ∨ Leads tree z ∧ t = parent z)

/-- **What `delete_recording_media` leaves.** -/
theorem kind_delete (p : RealPath) :
    ((∃ t, Target cwd storagePath asset tree t ∧ resolve cwd (.ofText storageRoot) <+: t ∧
        t <+: p) →
      (deleteRecordingMedia cwd storageRoot storagePath asset tree).kind p = none) ∧
    ((¬ ∃ t, Target cwd storagePath asset tree t ∧ resolve cwd (.ofText storageRoot) <+: t ∧
        t <+: p) →
      (deleteRecordingMedia cwd storageRoot storagePath asset tree).kind p = tree.kind p) := by
  have hextra : ∀ t, t ∈ collectExtraPaths cwd (safeRemovePath (resolve cwd (.ofText storageRoot))
        (resolve cwd (.ofText storagePath)) tree) storagePath asset ↔
      ∃ z, Apart cwd storagePath asset z ∧ (t = z ∨ Leads tree z ∧ t = parent z) := by
    intro t
    cases asset with
    | none => simp [collectExtraPaths, Apart, singleFiles, playlists, columns]
    | some row =>
      unfold collectExtraPaths
      simp only [List.mem_flatMap, extraPath_removed, mem_extraPath, mem_assetPaths, Apart,
        and_assoc]
  unfold deleteRecordingMedia
  dsimp only
  rw [kind_foldl, kind_safeRemovePath]
  constructor
  · rintro ⟨t, rfl | ht, hroot, hp⟩
    · rw [if_pos (⟨hroot, hp⟩ : _ ∧ _)]
      split <;> rfl
    · rw [if_pos ⟨t, (hextra t).mpr ht, hroot, hp⟩]
  · intro hno
    rw [if_neg, if_neg]
    · rintro ⟨hroot, hp⟩
      exact hno ⟨_, Or.inl rfl, hroot, hp⟩
    · rintro ⟨t, ht, hroot, hp⟩
      exact hno ⟨t, Or.inr ((hextra t).mp ht), hroot, hp⟩

/-- What has gone lies at or below a target under the root. -/
theorem target_of_gone {p : RealPath} (hex : tree.Exists p)
    (hgone : ¬ (deleteRecordingMedia cwd storageRoot storagePath asset tree).Exists p) :
    ∃ t, Target cwd storagePath asset tree t ∧ resolve cwd (.ofText storageRoot) <+: t ∧
      t <+: p := by
  by_contra hno
  apply hgone
  unfold FileTree.Exists
  rw [(kind_delete p).2 hno]
  exact hex

/-- What the outcome says about the paths. -/
theorem wellPlaced_of_deleted
    (h : Deleted (resolve cwd (.ofText storageRoot)) (media cwd storagePath asset) tree
      (deleteRecordingMedia cwd storageRoot storagePath asset tree)) :
    WellPlaced cwd storageRoot storagePath asset tree := by
  refine ⟨fun hex => ?_, fun p hp hroot hne hex hS => ?_, fun p hp hroot hne hex hS => ?_,
    fun z hz hleads hroot f hf hzf => ?_⟩
  · have hkept := h.rootKept hex
    have hnot : ∀ t, Target cwd storagePath asset tree t →
        t ≠ resolve cwd (.ofText storageRoot) := by
      rintro t ht rfl
      exact hkept ((kind_delete _).1 ⟨_, ht, List.prefix_refl _, List.prefix_refl _⟩)
    refine ⟨hnot _ (Or.inl rfl), fun z hz => ⟨hnot z (Or.inr ⟨z, hz, Or.inl rfl⟩), fun hl => ?_⟩⟩
    exact hnot _ (Or.inr ⟨z, hz, Or.inr ⟨hl, rfl⟩⟩)
  · obtain ⟨t, ht, hroot', htp⟩ := target_of_gone hex (h.gone p hp hroot hne)
    rcases ht with rfl | ⟨z, hz, hor⟩
    · exact hroot'
    · have htz : t <+: z := by
        rcases hor with rfl | ⟨-, rfl⟩
        · exact List.prefix_refl _
        · exact parent_below z
      -- The target is not below the storage directory, so it lies above it.
      rcases List.prefix_or_prefix_of_prefix htp hS with hts | hst
      · exact hroot'.trans hts
      · exact absurd (hst.trans htz) hz.2
  · have hmem : parent p ∈ media cwd storagePath asset :=
      mem_media.mpr (Or.inr (Or.inr ⟨p, hp, rfl⟩))
    obtain ⟨t, ht, hroot', htp⟩ := target_of_gone hex (h.gone _ hmem hroot hne)
    rcases ht with rfl | ⟨z, hz, rfl | ⟨hleads, rfl⟩⟩
    · exact absurd htp hS
    · exact ⟨t, hz, Or.inl ⟨hroot', htp⟩⟩
    · exact ⟨z, hz, Or.inr ⟨hleads, hroot', htp⟩⟩
  · by_contra hno
    have hspared := h.spared f hf fun p hp hpf => hno ⟨p, hp, hpf⟩
    have hnone : (deleteRecordingMedia cwd storageRoot storagePath asset tree).kind f = none :=
      (kind_delete f).1 ⟨parent z, Or.inr ⟨z, hz, Or.inr ⟨hleads, rfl⟩⟩, hroot, hzf⟩
    exact absurd (hspared.symm.trans hnone) (by simp)

/-- Media under the root and not below the storage directory have a target above them. -/
theorem WellPlaced.target (h : WellPlaced cwd storageRoot storagePath asset tree) {p : RealPath}
    (hp : p ∈ media cwd storagePath asset) (hroot : resolve cwd (.ofText storageRoot) <+: p)
    (hne : p ≠ resolve cwd (.ofText storageRoot)) (hex : tree.Exists p) :
    ∃ t, Target cwd storagePath asset tree t ∧ resolve cwd (.ofText storageRoot) <+: t ∧
      t <+: p := by
  by_cases hS : resolve cwd (.ofText storagePath) <+: p
  · exact ⟨_, Or.inl rfl, h.above p hp hroot hne hex hS, hS⟩
  rcases mem_media.mp hp with rfl | hmem | ⟨z, hz, rfl⟩
  · exact absurd (List.prefix_refl _) hS
  · exact ⟨p, Or.inr ⟨p, ⟨List.mem_append_left _ hmem, hS⟩, Or.inl rfl⟩, hroot,
      List.prefix_refl _⟩
  · obtain ⟨y, hy, ⟨hrooty, hyp⟩ | ⟨hleads, hrooty, hyp⟩⟩ := h.package z hz hroot hne hex hS
    · exact ⟨y, Or.inr ⟨y, hy, Or.inl rfl⟩, hrooty, hyp⟩
    · exact ⟨parent y, Or.inr ⟨y, hy, Or.inr ⟨hleads, rfl⟩⟩, hrooty, hyp⟩

/-- And what the paths say about the outcome. -/
theorem deleted_of_wellPlaced (h : WellPlaced cwd storageRoot storagePath asset tree) :
    Deleted (resolve cwd (.ofText storageRoot)) (media cwd storagePath asset) tree
      (deleteRecordingMedia cwd storageRoot storagePath asset tree) := by
  refine ⟨fun p hp hroot hne hex' => ?_, fun f hf hno => ?_, fun hex => ?_, fun p hp => ?_⟩
  · have hex : tree.Exists p := by
      intro hnone
      apply hex'
      by_cases ht : ∃ t, Target cwd storagePath asset tree t ∧
          resolve cwd (.ofText storageRoot) <+: t ∧ t <+: p
      · exact (kind_delete p).1 ht
      · exact ((kind_delete p).2 ht).trans hnone
    exact hex' ((kind_delete p).1 (h.target hp hroot hne hex))
  · unfold FileTree.IsFile
    rw [(kind_delete f).2]
    · exact hf
    · rintro ⟨t, ht, hroot, htf⟩
      rcases ht with rfl | ⟨z, hz, rfl | ⟨hleads, rfl⟩⟩
      · exact hno _ (mem_media.mpr (Or.inl rfl)) htf
      · rcases List.mem_append.mp hz.1 with hmem | hmem
        · exact hno _ (mem_media.mpr (Or.inr (Or.inl hmem))) htf
        · exact hno _ (mem_media.mpr (Or.inr (Or.inr ⟨t, hmem, rfl⟩)))
            ((parent_below t).trans htf)
      · obtain ⟨p, hp, hpf⟩ := h.spare z hz hleads hroot f hf htf
        exact hno p hp hpf
  · obtain ⟨hS, hz⟩ := h.rootApart hex
    unfold FileTree.Exists
    rw [(kind_delete _).2]
    · exact hex
    · rintro ⟨t, ht, hroot, htr⟩
      have heq := List.IsPrefix.eq_of_length_le htr hroot.length_le
      rcases ht with rfl | ⟨z, hz', rfl | ⟨hleads, rfl⟩⟩
      · exact hS heq
      · exact (hz t hz').1 heq
      · exact (hz z hz').2 hleads heq
  · rw [(kind_delete p).2]
    rintro ⟨t, -, hroot, htp⟩
    exact hp (hroot.trans htp)

/-- **Deleting removes all of a recording's media and nothing else** exactly when the paths
are well placed. -/
theorem deleted_iff (cwd : RealPath) (storageRoot storagePath : Text) (asset : Option AssetRow)
    (tree : FileTree) :
    Deleted (resolve cwd (.ofText storageRoot)) (media cwd storagePath asset) tree
        (deleteRecordingMedia cwd storageRoot storagePath asset tree) ↔
      WellPlaced cwd storageRoot storagePath asset tree :=
  ⟨wellPlaced_of_deleted, deleted_of_wellPlaced⟩

end Deletion

/-! ## A package that stays -/

/-- The tree of one file and the directories above it. -/
def FileTree.ofFile (path : RealPath) : FileTree where
  kind := fun p => if p = path then some .file else if p <+: path then some .dir else none
  inDirs := by
    intro p q hpq hne hq
    have hqpath : q <+: path := by
      by_cases heq : q = path
      · exact heq ▸ List.prefix_refl _
      · rw [if_neg heq] at hq
        by_contra hno
        exact hq (if_neg hno)
    have hlt : p.length < path.length :=
      (hpq.length_le.lt_of_ne fun h => hne (hpq.eq_of_length h)).trans_le hqpath.length_le
    rw [if_neg, if_pos (hpq.trans hqpath)]
    rintro rfl
    exact lt_irrefl _ hlt

/-- `/data/derived/playlist.m3u8`, a proxy outside the recording's own directory. -/
def derivedPlaylist : RealPath := Serving.dataDir ::
  ["derived", "playlist.m3u8"].filterMap fun name => component name.toList

/-- The playlist is a file, so only the playlist goes and its package directory stays. -/
theorem package_left_behind :
    ¬ Deleted (resolve [] (.ofText "/data".toList))
      (media [] "/data/recording".toList
        (some ⟨none, some (RealPath.text derivedPlaylist), none⟩))
      (FileTree.ofFile derivedPlaylist)
      (deleteRecordingMedia [] "/data".toList "/data/recording".toList
        (some ⟨none, some (RealPath.text derivedPlaylist), none⟩)
        (FileTree.ofFile derivedPlaylist)) := by
  intro h
  refine h.gone (parent derivedPlaylist) ?_ ?_ ?_ ?_
  · decide
  · decide
  · decide
  · have hkind : (deleteRecordingMedia [] "/data".toList "/data/recording".toList
        (some ⟨none, some (RealPath.text derivedPlaylist), none⟩)
        (FileTree.ofFile derivedPlaylist)).kind (parent derivedPlaylist) = some .dir := by decide
    unfold FileTree.Exists
    rw [hkind]
    simp

end Cleanup
