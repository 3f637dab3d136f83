/-
# Served media

`_safe_under` and the three endpoints that return files of an asset.  Master and thumbnail are
checked against the storage root.  The proxy endpoint is checked against the directory of the
asset's own playlist only, and a request may name any file below it, by an absolute path if
need be; so it stays under the storage root exactly when that directory has no file outside.

Resolving a path depends on the links of the file system and is a parameter, of which only one thing
is asked: what is resolved stays as it is.
-/
import IngestFarm.Paths

namespace Serving

open Etr290 (Text)
open Paths

/-- What the endpoints see of the file system. -/
structure FileSystem where
  resolve : PurePath → RealPath
  isFile : RealPath → Bool
  resolve_resolved : ∀ p, resolve (PurePath.ofReal (resolve p)) = resolve p

/-- The paths of an asset row. -/
structure AssetRow where
  masterPath : Option Text
  proxyPath : Option Text
  thumbnailPath : Option Text

/-- A file that an endpoint returns, as it is or rewritten. -/
structure FileReply where
  path : RealPath
  mediaType : String
  rewritten : Bool
  deriving DecidableEq

/-- `HTTPException(status_code, detail)`, the answer that a request gets instead of a file. -/
structure HttpError where
  statusCode : ℕ
  detail : String
  deriving DecidableEq

section Endpoints

variable (fs : FileSystem)

/-- `_safe_under`: a candidate is resolved, links included, and must be a file at or below the
root. -/
def safeUnder (root candidate : PurePath) : Except HttpError RealPath :=
  let root := fs.resolve root
  let target := fs.resolve candidate
  if root ∉ RealPath.parents target ∧ target ≠ root then .error ⟨400, "Invalid path"⟩
  else if fs.isFile target = false then .error ⟨404, "File not found"⟩
  else .ok target

/-- A path column that is set and not empty. -/
def present (column : Option Text) : Option Text := column.filter (· ≠ [])

variable (storageRoot : PurePath)

/-- `download_master`: the path of the row must be under the storage root. -/
def downloadMaster (asset : Option AssetRow) : Except HttpError FileReply :=
  match asset.bind fun a => present a.masterPath with
  | none => .error ⟨404, "Master not found"⟩
  | some master => do
    let path ← safeUnder fs storageRoot (.ofText master)
    pure ⟨path, "video/mp2t", false⟩

/-- `get_thumbnail`: the same for the picture. -/
def getThumbnail (asset : Option AssetRow) : Except HttpError FileReply :=
  match asset.bind fun a => present a.thumbnailPath with
  | none => .error ⟨404, "Thumbnail not found"⟩
  | some thumbnail => do
    let path ← safeUnder fs storageRoot (.ofText thumbnail)
    pure ⟨path, "image/jpeg", false⟩

/-- `get_proxy_file`: the root is the directory of the proxy that the row names, wherever that
is. -/
def getProxyFile (asset : Option AssetRow) (filePath : Text) : Except HttpError FileReply :=
  match asset.bind fun a => present a.proxyPath with
  | none => .error ⟨404, "Proxy not found"⟩
  | some proxy => do
    let proxyRoot := (PurePath.ofText proxy).parent
    let target ← safeUnder fs proxyRoot (proxyRoot.join (.ofText filePath))
    if RealPath.suffix target = ".m3u8".toList then
      pure ⟨target, "application/vnd.apple.mpegurl", true⟩
    else if RealPath.suffix target = ".ts".toList then pure ⟨target, "video/mp2t", false⟩
    else pure ⟨target, "application/octet-stream", false⟩

end Endpoints

/-- **Whatever is returned lies under the storage root**, and a proxy file also under the
directory of the asset's playlist. -/
structure StaysUnder (fs : FileSystem) (storageRoot : PurePath) (asset : AssetRow) : Prop where
  master : ∀ r, downloadMaster fs storageRoot (some asset) = .ok r →
    fs.resolve storageRoot <+: fs.resolve (.ofReal r.path)
  thumbnail : ∀ r, getThumbnail fs storageRoot (some asset) = .ok r →
    fs.resolve storageRoot <+: fs.resolve (.ofReal r.path)
  proxy : ∀ filePath r, getProxyFile fs (some asset) filePath = .ok r →
    fs.resolve storageRoot <+: fs.resolve (.ofReal r.path) ∧
      ∀ proxy, asset.proxyPath = some proxy →
        fs.resolve (PurePath.ofText proxy).parent <+: fs.resolve (.ofReal r.path)

/-- Every file below the directory of the asset's playlist lies below the storage root. -/
def ProxyInside (fs : FileSystem) (storageRoot : PurePath) (asset : AssetRow) : Prop :=
  ∀ proxy, present asset.proxyPath = some proxy → ∀ t, fs.isFile t = true →
    fs.resolve (.ofReal t) = t → fs.resolve (PurePath.ofText proxy).parent <+: t →
      fs.resolve storageRoot <+: t

section Specs

variable {fs : FileSystem} {storageRoot root candidate : PurePath} {asset : AssetRow}

/-- **`_safe_under`** returns the resolved candidate when it is a file below the root. -/
theorem safeUnder_eq_ok {target : RealPath} :
    safeUnder fs root candidate = .ok target ↔ target = fs.resolve candidate ∧
      fs.resolve root <+: target ∧ fs.isFile target = true := by
  have hunder : ¬ (fs.resolve root ∉ RealPath.parents (fs.resolve candidate) ∧
      fs.resolve candidate ≠ fs.resolve root) ↔ fs.resolve root <+: fs.resolve candidate := by
    rw [← isUnder_iff, RealPath.isUnder, Bool.or_eq_true, decide_eq_true_eq, decide_eq_true_eq,
      not_and_or, not_not, not_not, or_comm, eq_comm]
  unfold safeUnder
  dsimp only
  by_cases hbad : fs.resolve root ∉ RealPath.parents (fs.resolve candidate) ∧
      fs.resolve candidate ≠ fs.resolve root
  · rw [if_pos hbad]
    constructor
    · intro h
      exact absurd h (by simp)
    · rintro ⟨rfl, hp, -⟩
      exact absurd hbad (hunder.mpr hp)
  · rw [if_neg hbad]
    cases hfile : fs.isFile (fs.resolve candidate) with
    | false =>
      rw [if_pos rfl]
      constructor
      · intro h
        exact absurd h (by simp)
      · rintro ⟨rfl, -, htrue⟩
        exact absurd (hfile.symm.trans htrue) (by simp)
    | true =>
      rw [if_neg Bool.true_eq_false.mp]
      constructor
      · intro h
        obtain rfl := Except.ok.inj h
        exact ⟨rfl, hunder.mp hbad, hfile⟩
      · rintro ⟨rfl, -, -⟩
        rfl

/-- A file below the root, named by itself, is returned. -/
theorem resolve_of_safeUnder {target : RealPath} (h : safeUnder fs root candidate = .ok target) :
    fs.resolve root <+: fs.resolve (.ofReal target) ∧ fs.resolve (.ofReal target) = target := by
  obtain ⟨rfl, hp, -⟩ := safeUnder_eq_ok.mp h
  rw [fs.resolve_resolved]
  exact ⟨hp, rfl⟩

/-- What a master or thumbnail request returns lies under the storage root. -/
theorem under_of_checked {r : FileReply} {mediaType : String}
    (h : (do
      let path ← safeUnder fs root candidate
      pure (FileReply.mk path mediaType false)) = .ok r) :
    fs.resolve root <+: fs.resolve (.ofReal r.path) := by
  cases hsafe : safeUnder fs root candidate with
  | error e =>
    rw [hsafe] at h
    exact absurd h (by simp [bind, Except.bind])
  | ok target =>
    rw [hsafe] at h
    obtain rfl := Except.ok.inj h
    exact (resolve_of_safeUnder hsafe).1

theorem under_downloadMaster {r : FileReply}
    (h : downloadMaster fs storageRoot (some asset) = .ok r) :
    fs.resolve storageRoot <+: fs.resolve (.ofReal r.path) := by
  unfold downloadMaster at h
  rw [Option.bind_some] at h
  cases hmaster : present asset.masterPath with
  | none =>
    rw [hmaster] at h
    exact absurd h (by simp)
  | some master =>
    rw [hmaster] at h
    exact under_of_checked h

theorem under_getThumbnail {r : FileReply}
    (h : getThumbnail fs storageRoot (some asset) = .ok r) :
    fs.resolve storageRoot <+: fs.resolve (.ofReal r.path) := by
  unfold getThumbnail at h
  rw [Option.bind_some] at h
  cases hthumbnail : present asset.thumbnailPath with
  | none =>
    rw [hthumbnail] at h
    exact absurd h (by simp)
  | some thumbnail =>
    rw [hthumbnail] at h
    exact under_of_checked h

/-- **A proxy request** returns the file that the check lets through. -/
theorem getProxyFile_path {filePath : Text} {t : RealPath} :
    (∃ r, getProxyFile fs (some asset) filePath = .ok r ∧ r.path = t) ↔
      ∃ proxy, present asset.proxyPath = some proxy ∧
        safeUnder fs (PurePath.ofText proxy).parent
          ((PurePath.ofText proxy).parent.join (.ofText filePath)) = .ok t := by
  unfold getProxyFile
  rw [Option.bind_some]
  cases hproxy : present asset.proxyPath with
  | none => simp
  | some proxy =>
    dsimp only
    cases hsafe : safeUnder fs (PurePath.ofText proxy).parent
        ((PurePath.ofText proxy).parent.join (.ofText filePath)) with
    | error e =>
      constructor
      · rintro ⟨r, h, -⟩
        exact absurd h (by simp [bind, Except.bind])
      · rintro ⟨proxy', hproxy', h⟩
        obtain rfl := Option.some.inj hproxy'
        exact absurd (hsafe.symm.trans h) (by simp)
    | ok target =>
      constructor
      · rintro ⟨r, h, rfl⟩
        refine ⟨proxy, rfl, hsafe.trans ?_⟩
        simp only [bind, Except.bind, pure, Except.pure] at h
        split_ifs at h <;> rw [← Except.ok.inj h]
      · rintro ⟨proxy', hproxy', h⟩
        obtain rfl := Option.some.inj hproxy'
        obtain rfl := Except.ok.inj (hsafe.symm.trans h)
        simp only [bind, Except.bind, pure, Except.pure]
        split_ifs
        · exact ⟨_, rfl, rfl⟩
        · exact ⟨_, rfl, rfl⟩
        · exact ⟨_, rfl, rfl⟩

/-- An absolute request replaces the directory of the playlist. -/
theorem join_text (p : PurePath) (t : RealPath) :
    p.join (.ofText (RealPath.text t)) = .ofReal t := by
  rw [ofText_text]
  rfl

end Specs

/-- **Served media stays under the storage root** exactly when the directory of the asset's
playlist has no file outside it. -/
theorem served_media_stays_under_iff (fs : FileSystem) (storageRoot : PurePath)
    (asset : AssetRow) : StaysUnder fs storageRoot asset ↔ ProxyInside fs storageRoot asset := by
  constructor
  · intro h proxy hproxy t hfile hreal hunder
    have hsafe : safeUnder fs (PurePath.ofText proxy).parent
        ((PurePath.ofText proxy).parent.join (.ofText (RealPath.text t))) = .ok t := by
      rw [join_text]
      exact safeUnder_eq_ok.mpr ⟨hreal.symm, hunder, hfile⟩
    obtain ⟨r, hr, rfl⟩ := getProxyFile_path.mpr ⟨proxy, hproxy, hsafe⟩
    have hstays := (h.proxy _ r hr).1
    rwa [hreal] at hstays
  · intro h
    refine ⟨fun r hr => under_downloadMaster hr, fun r hr => under_getThumbnail hr,
      fun filePath r hr => ?_⟩
    obtain ⟨proxy, hproxy, hsafe⟩ := getProxyFile_path.mp ⟨r, hr, rfl⟩
    obtain ⟨htarget, hunder, hfile⟩ := safeUnder_eq_ok.mp hsafe
    obtain ⟨-, hreal⟩ := resolve_of_safeUnder hsafe
    rw [hreal]
    refine ⟨h proxy hproxy r.path hfile hreal hunder, fun proxy' hproxy' => ?_⟩
    rw [present, hproxy', Option.filter_some] at hproxy
    split at hproxy
    · obtain rfl := Option.some.inj hproxy
      exact hunder
    · exact absurd hproxy (by simp)

/-! ## A playlist elsewhere -/

/-- A component of letters. -/
def named (t : Text) (hne : t ≠ []) (hslash : '/' ∉ t) (hdot : t ≠ ['.']) : Component :=
  ⟨t, hne, hslash, hdot⟩

def dataDir : Component := named "data".toList (by decide) (by decide) (by decide)

def etcDir : Component := named "etc".toList (by decide) (by decide) (by decide)

def passwd : Component := named "passwd".toList (by decide) (by decide) (by decide)

/-- A file system without links in which the working directory is the root and
`/etc/passwd` is the only file; `..` is taken literally, and no path here has one. -/
def plainFiles : FileSystem where
  resolve := PurePath.parts
  isFile := fun p => p = [etcDir, passwd]
  resolve_resolved := fun _ => rfl

/-- An asset whose playlist column names a file in `/etc` gives away every file there. -/
theorem proxy_serves_etc :
    ¬ StaysUnder plainFiles (.ofReal [dataDir]) ⟨none, some "/etc/playlist.m3u8".toList, none⟩ := by
  intro h
  have hr : getProxyFile plainFiles (some ⟨none, some "/etc/playlist.m3u8".toList, none⟩)
      "passwd".toList = .ok ⟨[etcDir, passwd], "application/octet-stream", false⟩ := by decide
  exact absurd (h.proxy _ _ hr).1 (by decide)

end Serving
