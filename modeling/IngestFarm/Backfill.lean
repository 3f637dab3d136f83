/-
# The backfill of missing media

`_backfill_missing_media` of `ingest_farm/postprocess/main.py` for any limit, within jobs and
restarts.  The batch is the newest of the assets that lack a proxy or a thumbnail.  An asset whose
master is not a file stays in it, and so does one whose derivation fails.

* `attempts`: the assets of one backfill for which media are derived;
* `attempts_iff`: as many as there can be, exactly if the batch is not starved;
* `mem_attempted`: every repairable asset has its turn, in a run without starvation.
-/
import IngestFarm.Cataloging
import IngestFarm.Frames
import IngestFarm.Runs

/-! ## Turns of a loop -/

namespace Prog

variable {κ ε σ α β : Type}

/-- The items of a `for` loop whose turn comes in a state with `p`. -/
def turns (p : β → σ → Bool) (f : β → Prog κ ε σ Unit) : List β → Oracle κ → ℕ → σ → List β
  | [], _, _, _ => []
  | x :: xs, o, n, s =>
    (if p x s = true then [x] else []) ++
      match f x o n s with
      | (.ok _, n', s') => turns p f xs o n' s'
      | _ => []

/-- **The items in question**, where no turn ends the loop and `p` can be told from the item. -/
theorem turns_eq_filter {o : Oracle κ} {I : σ → Prop} {p : β → σ → Bool} {q : β → Bool}
    {f : β → Prog κ ε σ Unit} (hp : ∀ x s, I s → p x s = q x)
    (hstep : ∀ x n s, I s →
      wp o (f x) (fun _ _ s' => I s') (fun _ _ _ => False) (fun _ => False) n s)
    (xs : List β) (n : ℕ) (s : σ) (hI : I s) : turns p f xs o n s = xs.filter q := by
  induction xs generalizing n s with
  | nil => rfl
  | cons x xs ih =>
    have hx := hstep x n s hI
    unfold turns
    rw [hp x s hI, List.filter_cons]
    unfold wp at hx
    rcases hf : f x o n s with ⟨(_ | _) | _, n', s'⟩
    · rw [hf] at hx
      exact hx.elim
    · rw [hf] at hx
      exact hx.elim
    · rw [hf] at hx
      dsimp only
      rw [ih n' s' hx]
      split_ifs
      · rfl
      · rfl

/-- What holds of the state where a program can only return. -/
theorem state_of_wp {o : Oracle κ} {m : Prog κ ε σ α} {P : σ → Prop} {n : ℕ} {s : σ}
    (h : wp o m (fun _ _ s' => P s') (fun _ _ _ => False) (fun _ => False) n s) :
    P (m o n s).2.2 := by
  unfold wp at h
  rcases hm : m o n s with ⟨(e | _) | a, n', s'⟩ <;> rw [hm] at h
  · exact h.elim
  · exact h.elim
  · exact h

/-- What holds where a program returns. -/
theorem of_wp_ok {o : Oracle κ} {m : Prog κ ε σ α} {Q : α → ℕ → σ → Prop}
    {E : ε → ℕ → σ → Prop} {C : σ → Prop} {n n' : ℕ} {s s' : σ} {a : α}
    (h : wp o m Q E C n s) (hm : m o n s = (.ok a, n', s')) : Q a n' s' := by
  unfold wp at h
  rw [hm] at h
  exact h

end Prog

open Prog

namespace PostProcess

/-! ## The batch -/

/-- `master.is_file()`: the archive has bytes at that path. -/
def Archive.isFile (w : Archive) (path : MediaPath) : Bool := (w.bytesAt path).isSome

/-- An asset lacks its proxy or its thumbnail. -/
def Asset.lacksMedia (a : Asset) : Bool := a.proxyPath = none ∨ a.thumbnailPath = none

/-- Assets without proxy or thumbnail, the newest first. -/
def Archive.pending (w : Archive) : List Asset := w.assets.reverse.filter Asset.lacksMedia

/-- Those whose master is a file. -/
def Archive.repairable (w : Archive) : List Asset :=
  w.pending.filter fun a => w.isFile a.masterPath

/-- The batch is all repairable, or what it leaves out is not. -/
def Archive.Unstarved (w : Archive) (limit : ℕ) : Prop :=
  (∀ a ∈ w.pending.take limit, w.isFile a.masterPath = true) ∨
    ∀ a ∈ w.pending.drop limit, ¬ w.isFile a.masterPath = true

/-- What the backfills may have to do: pending assets, and recordings without an asset. -/
def Archive.backlog (w : Archive) : ℕ :=
  w.pending.length + (w.recordings.keys.filter fun r => w.assetsOf r = []).length

section Passes

variable (encode : Tool → Bytes → List (String × Bytes)) (limit : ℕ)

/-- `_backfill_missing_media(limit=limit)` for any batch size: the assets that lack media, the
newest first, each with an attempt of its own. -/
def backfillUpTo : Job Unit := do
  let pending ← select fun w => w.missingMedia limit
  each (backfillAsset encode) pending

/-- With the batch size of the code it is the code's pass. -/
theorem backfillUpTo_batch : backfillUpTo encode backfillBatch = backfillMissingMedia encode := rfl

/-- The assets for which a backfill derives media. -/
def attempts (o : Oracle ArchiveCall) (n : ℕ) (w : Archive) : List Asset :=
  match select (fun w => w.missingMedia limit) o n w with
  | (.ok pending, n', w') =>
    turns (fun a w => w.isFile a.masterPath) (backfillAsset encode) pending o n' w'
  | _ => []

/-- A restart: both passes. -/
def restartUpTo : Job Unit := do
  catalogUncatalogedRecordings encode
  backfillUpTo encode limit

/-- And so is the whole start. -/
theorem restartUpTo_batch : restartUpTo encode backfillBatch = startupPasses encode := rfl

/-- The assets for which a restart derives media in its backfill. -/
def restartAttempts (o : Oracle ArchiveCall) (w : Archive) : List Asset :=
  match catalogUncatalogedRecordings encode o 0 w with
  | (.ok _, n, w') => attempts encode limit o n w'
  | _ => []

/-- A job, or a restart. -/
def Archive.arrive (w : Archive) : Arrival × Oracle ArchiveCall → Option Archive
  | (.job r, o) => some (final o (process encode r) w)
  | (.restart, o) => some (final o (restartUpTo encode limit) w)

/-- The assets for which the backfills of a run derive media. -/
def Archive.attempted : Archive → List (Arrival × Oracle ArchiveCall) → List Asset
  | _, [] => []
  | w, (.job r, o) :: as => Archive.attempted (final o (process encode r) w) as
  | w, (.restart, o) :: as =>
    restartAttempts encode limit o w ++ Archive.attempted (final o (restartUpTo encode limit) w) as

end Passes

/-- The process lives and the database works. -/
structure Working (o : Oracle ArchiveCall) : Prop where
  /-- No call kills the process. -/
  alive : ¬ MayCrash o
  /-- Queries work. -/
  query : ∀ n, o n .query = .ok
  /-- Commits work. -/
  commit : ∀ n, o n .commit = .ok

/-- Both media tools write what is asked of them. -/
structure Deriving (encode : Tool → Bytes → List (String × Bytes)) (o : Oracle ArchiveCall)
    (data : Bytes) : Prop where
  media : ∀ n, o n .media = .ok
  written : ∀ tool : Tool, tool.output ∈ (encode tool data).map Prod.fst

/-- A backfill gets somewhere: it leaves out nothing repairable, or its batch is repaired. -/
def Archive.Advances (encode : Tool → Bytes → List (String × Bytes)) (limit : ℕ)
    (o : Oracle ArchiveCall) (w : Archive) : Prop :=
  (∀ a ∈ w.pending.drop limit, ¬ w.isFile a.masterPath = true) ∨
    ∀ a ∈ w.pending.take limit, ∃ data, w.bytesAt a.masterPath = some data ∧
      Deriving encode o data

/-- The condition on a step: a restart gets to its backfill, and that somewhere. -/
def Archive.Fine (encode : Tool → Bytes → List (String × Bytes)) (limit : ℕ) (w : Archive) :
    Arrival × Oracle ArchiveCall → Prop
  | (.job _, _) => True
  | (.restart, o) => Working o ∧ ∃ n w', catalogUncatalogedRecordings encode o 0 w =
      (.ok (), n, w') ∧ w'.Advances encode limit o

/-- The restarts of a run. -/
def restarts (as : List (Arrival × Oracle ArchiveCall)) : ℕ :=
  as.countP fun a => match a.1 with
    | .restart => true
    | .job _ => false

section Proofs

variable {encode : Tool → Bytes → List (String × Bytes)} {o : Oracle ArchiveCall} {n : ℕ}
  {w w' w'' : Archive} {limit : ℕ}

/-! ## Deriving media -/

/-- Other directories may change. -/
theorem isFile_of_files (h : ∀ dir, (w'.media dir).files = (w.media dir).files)
    (path : MediaPath) : w'.isFile path = w.isFile path := by
  unfold Archive.isFile Archive.bytesAt
  rw [h]

/-- Where tools and database work, a call does. -/
theorem Working.wp_call {k : ArchiveCall} {e : ArchiveError} {Q : Unit → ℕ → Archive → Prop}
    {E : ArchiveError → ℕ → Archive → Prop} {C : Archive → Prop} (hk : ∀ n, o n k = .ok)
    (hQ : Q () (n + 1) w) : wp o (call k e) Q E C n w := by
  rw [Prog.wp_call, hk n]
  exact ⟨fun _ => hQ, fun h => absurd h (by decide), fun h => absurd h (by decide)⟩

/-- A media tool that writes what is asked for returns its path. -/
theorem wp_generate_deriving {tool : Tool} {master : MediaPath} {data : Bytes}
    (hdata : w.bytesAt master = some data) (h : Deriving encode o data) :
    wp o (generate encode tool master) (fun path _ _ => path = tool.output)
      (fun _ _ _ => False) (fun _ => False) n w := by
  have hclear : ∀ {Q : Unit → ℕ → Archive → Prop}, (∀ w', Q () n w') →
      wp o (whenever (tool = .thumbnail) (modify (Archive.update master.dir fun d =>
        { d with derived := d.derived.erase tool.output }))) Q
        (fun (_ : ArchiveError) _ _ => False) (fun _ => False) n w := by
    intro Q hQ
    rw [wp_whenever, wp_modify]
    exact ⟨fun _ => hQ _, fun _ => hQ _⟩
  unfold generate
  rw [wp_bind, wp_reads, wp_bind]
  refine hclear fun w' => ?_
  rw [wp_bind, hdata, Option.getD_some]
  -- what is asked for is still to be written, or is there
  refine wp_each (I := fun fs w' => tool.output ∈ fs.map Prod.fst ∨
    (w'.media master.dir).derived.lookup tool.output ≠ none) ?_ ?_ _ n w' (Or.inl (h.written tool))
  · intro f fs n w' hw
    rw [wp_bind]
    apply Working.wp_call h.media
    show tool.output ∈ fs.map Prod.fst ∨ _
    have hlookup : ((w'.update master.dir fun d =>
        { d with derived := Dict.set f.1 f.2 d.derived }).media master.dir).derived.lookup
          tool.output = if tool.output = f.1 then some f.2
            else (w'.media master.dir).derived.lookup tool.output := by
      unfold Archive.update
      dsimp only
      rw [Function.update_self, Dict.lookup_set]
    rw [hlookup]
    by_cases hf : tool.output = f.1
    · rw [if_pos hf]
      exact Or.inr (Option.some_ne_none _)
    · rw [if_neg hf]
      refine hw.imp (fun hmem => ?_) id
      rw [List.map_cons, List.mem_cons] at hmem
      exact hmem.resolve_left hf
  · intro n w' hw
    have hthere := hw.resolve_left List.not_mem_nil
    rw [wp_bind]
    apply Working.wp_call h.media
    rw [wp_bind, wp_reads, if_neg hthere]
    rfl

/-- The exceptions of a tool are caught; what it returns is a path if it works. -/
theorem wp_tryGenerate (hw : Working o) (tool : Tool) (master : MediaPath) :
    wp o (tryGenerate encode tool master)
      (fun found _ w' => SameFiles w w' ∧
        ∀ data, w.bytesAt master = some data → Deriving encode o data → found.1 ≠ none)
      (fun _ _ _ => False) (fun _ => False) n w := by
  unfold tryGenerate
  rw [wp_attempt, wp_bind]
  by_cases hd : ∃ data, w.bytesAt master = some data ∧ Deriving encode o data
  · obtain ⟨data, hdata, hderiving⟩ := hd
    refine wp_mono (wp_and (wp_generate tool master) (wp_generate_deriving hdata hderiving)) ?_
      (fun _ _ _ h => h.2.elim) (fun _ h => h.2.elim)
    rintro path _ w' ⟨hsame, rfl⟩
    exact ⟨hsame, fun _ _ _ => Option.some_ne_none _⟩
  · refine wp_mono (wp_generate tool master) ?_ ?_ (fun _ h => hw.alive h.2)
    · exact fun path _ w' hsame => ⟨hsame, fun data hdata hd' => absurd ⟨data, hdata, hd'⟩ hd⟩
    · exact fun e _ w' hsame => ⟨hsame, fun data hdata hd' => absurd ⟨data, hdata, hd'⟩ hd⟩

/-- **Deriving media** leaves the files and says what was found. -/
theorem wp_deriveMedia (hw : Working o) (master : MediaPath) (a : Asset) :
    wp o (deriveMedia encode master a)
      (fun found _ w' => SameFiles w w' ∧
        ∀ data, w.bytesAt master = some data → Deriving encode o data →
          found.proxyPath ≠ none ∧ found.thumbnailPath ≠ none)
      (fun _ _ _ => False) (fun _ => False) n w := by
  unfold deriveMedia
  rw [wp_bind, wp_reads]
  split_ifs with hnone
  · refine ⟨SameFiles.refl w, fun data hdata => ?_⟩
    rw [hnone] at hdata
    exact absurd hdata (by simp)
  · rw [wp_bind]
    refine wp_mono (wp_tryGenerate hw .proxy master) ?_ (fun _ _ _ h => h) (fun _ h => h)
    rintro proxy n₁ w₁ ⟨hsame, hproxy⟩
    rw [wp_bind]
    refine wp_mono (wp_tryGenerate hw .thumbnail master) ?_ (fun _ _ _ h => h) (fun _ h => h)
    rintro thumb n₂ w₂ ⟨hsame', hthumb⟩
    refine ⟨hsame.trans hsame', fun data hdata hd => ⟨hproxy data hdata hd, ?_⟩⟩
    exact hthumb data ((hsame.bytesAt master).trans hdata) hd

/-- What one turn of the backfill does: it rewrites the row of the asset. -/
structure Rewrites (a : Asset) (f : Asset → Asset) (w w' : Archive) : Prop where
  /-- The rows of recordings stay. -/
  recordings : w'.recordings = w.recordings
  /-- The files outside `derived/` stay. -/
  files : ∀ dir, (w'.media dir).files = (w.media dir).files
  /-- The row of this asset is rewritten, and no other. -/
  assets : w'.assets = w.assets.map fun b => if b.recordingId = a.recordingId then f b else b
  /-- It stays the asset of its recording. -/
  id : ∀ b, (f b).recordingId = b.recordingId

/-- Then the row is written. -/
theorem SameFiles.rewrites (h : SameFiles w w') (a : Asset) {f : Asset → Asset}
    (hid : ∀ b, (f b).recordingId = b.recordingId) :
    Rewrites a f w (w'.updateAsset a.recordingId f) :=
  ⟨h.recordings, h.files, by unfold Archive.updateAsset; dsimp only; rw [h.assets], hid⟩

/-- **One turn of the backfill**, while the database works. -/
theorem wp_backfillAsset (hw : Working o) (a : Asset) :
    wp o (backfillAsset encode a)
      (fun _ _ w' => ∃ f, Rewrites a f w w' ∧
        ((∃ data, w.bytesAt a.masterPath = some data ∧ Deriving encode o data) →
          ∀ b, (f b).lacksMedia = false))
      (fun _ _ _ => False) (fun _ => False) n w := by
  unfold backfillAsset
  rw [wp_bind, wp_reads]
  split_ifs with hnone
  · rw [wp_bind]
    apply Working.wp_call hw.query
    rw [wp_bind]
    apply Working.wp_call hw.commit
    refine ⟨_, (SameFiles.refl w).rewrites a fun _ => rfl, ?_⟩
    rintro ⟨data, hdata, -⟩
    rw [hnone] at hdata
    exact absurd hdata (by simp)
  · rw [wp_bind]
    refine wp_mono (wp_deriveMedia hw a.masterPath a) ?_ (fun _ _ _ h => h) (fun _ h => h)
    rintro found n₁ w₁ ⟨hsame, hfound⟩
    rw [wp_bind]
    apply Working.wp_call hw.query
    rw [wp_bind]
    apply Working.wp_call hw.commit
    refine ⟨_, hsame.rewrites a fun _ => rfl, ?_⟩
    rintro ⟨data, hdata, hd⟩ b
    obtain ⟨hproxy, hthumb⟩ := hfound data hdata hd
    obtain ⟨proxy, hproxy⟩ := Option.ne_none_iff_exists'.mp hproxy
    obtain ⟨thumb, hthumb⟩ := Option.ne_none_iff_exists'.mp hthumb
    unfold Asset.lacksMedia refill
    dsimp only
    rw [hproxy, hthumb]
    rfl

/-! ## One backfill -/

/-- **The attempts of a backfill** are the assets of its batch whose master is a file. -/
theorem attempts_eq (hw : Working o) :
    attempts encode limit o n w =
      (w.pending.take limit).filter fun a => w.isFile a.masterPath := by
  have hselect : select (fun w => w.missingMedia limit) o n w =
      (.ok (w.pending.take limit), n + 1, w) := by
    have hcall : call ArchiveCall.query ArchiveError.database o n w = (.ok (), n + 1, w) := by
      unfold call
      rw [hw.query n]
    exact bind_of_ok hcall
  unfold attempts
  rw [hselect]
  refine turns_eq_filter (I := fun w' => ∀ dir, (w'.media dir).files = (w.media dir).files)
    (fun a w' h => isFile_of_files h a.masterPath) (fun a n w' h => ?_) _ _ w fun _ => rfl
  refine wp_mono (wp_backfillAsset hw a) ?_ (fun _ _ _ h => h) (fun _ h => h)
  rintro _ _ w'' ⟨f, hf, -⟩ dir
  exact (hf.files dir).trans (h dir)

/-- As many of the first `n` as there can be, exactly if those left out are not wanted or the
others all are. -/
theorem length_filter_take_eq_min {α : Type} (p : α → Bool) (l : List α) (n : ℕ) :
    ((l.take n).filter p).length = min n (l.filter p).length ↔
      (∀ a ∈ l.take n, p a = true) ∨ ∀ a ∈ l.drop n, ¬ p a = true := by
  have hsum : (l.filter p).length = ((l.take n).filter p).length +
      ((l.drop n).filter p).length := by
    conv_lhs => rw [← List.take_append_drop n l]
    rw [List.filter_append, List.length_append]
  have hle : ((l.take n).filter p).length ≤ (l.take n).length := List.length_filter_le _ _
  have htake : (l.take n).length = min n l.length := List.length_take
  rw [← List.filter_eq_self, ← List.filter_eq_nil_iff]
  constructor
  · intro h
    rcases Nat.lt_or_ge ((l.take n).filter p).length n with hlt | hge
    · refine Or.inr (List.eq_nil_of_length_eq_zero ?_)
      omega
    · refine Or.inl (List.filter_sublist.eq_of_length ?_)
      omega
  · rintro (h | h)
    · rw [h] at hsum ⊢
      rcases Nat.lt_or_ge n l.length with hlt | hge
      · omega
      · rw [List.drop_of_length_le hge, List.filter_nil, List.length_nil] at hsum
        omega
    · rw [h, List.length_nil] at hsum
      omega

/-- **A backfill makes all the attempts it can** exactly if its batch is not starved. -/
theorem attempts_iff (hw : Working o) :
    (attempts encode limit o n w).length = min limit w.repairable.length ↔ w.Unstarved limit := by
  rw [attempts_eq hw]
  exact length_filter_take_eq_min _ _ _

/-- Fewer where one more is excluded. -/
theorem countP_succ_le {α : Type} {p q : α → Bool} {l : List α} {x : α} (hx : x ∈ l)
    (hp : p x = false) (hq : q x = true) (h : ∀ y, p y = true → q y = true) :
    l.countP p + 1 ≤ l.countP q := by
  obtain ⟨l₁, l₂, rfl⟩ := List.append_of_mem hx
  have h₁ : l₁.countP p ≤ l₁.countP q := List.countP_mono_left fun y _ hy => h y hy
  have h₂ : l₂.countP p ≤ l₂.countP q := List.countP_mono_left fun y _ hy => h y hy
  rw [List.countP_append, List.countP_append, List.countP_cons_of_neg (by rw [hp]; decide),
    List.countP_cons_of_pos hq]
  omega

/-- What waits is what lacks media. -/
theorem length_pending : w.pending.length = w.assets.countP Asset.lacksMedia := by
  unfold Archive.pending
  rw [← List.countP_eq_length_filter, List.countP_reverse]

/-! ## Progress -/

/-- What jobs and catalog passes do: no file and no asset goes, and the backlog does not grow. -/
structure Grows (w w' : Archive) : Prop where
  /-- The rows of recordings stay. -/
  recordings : w'.recordings = w.recordings
  /-- No file goes. -/
  files : ∀ path, w.isFile path = true → w'.isFile path = true
  /-- No asset goes. -/
  assets : ∀ a ∈ w.assets, a ∈ w'.assets
  /-- No recording gets a second asset. -/
  unique : (w.assets.map Asset.recordingId).Nodup → (w'.assets.map Asset.recordingId).Nodup
  /-- The backlog does not grow. -/
  backlog : w'.backlog ≤ w.backlog

/-- Growing is a frame. -/
theorem frame_grows : Frame Grows where
  refl _ := ⟨rfl, fun _ h => h, fun _ h => h, fun h => h, le_rfl⟩
  trans _ _ _ h h' := ⟨h'.recordings.trans h.recordings, fun p hp => h'.files p (h.files p hp),
    fun a ha => h'.assets a (h.assets a ha), fun hu => h'.unique (h.unique hu),
    h'.backlog.trans h.backlog⟩

/-- A repairable asset lacks media and has its master. -/
theorem mem_repairable {a : Asset} :
    a ∈ w.repairable ↔ a ∈ w.assets ∧ a.lacksMedia = true ∧ w.isFile a.masterPath = true := by
  unfold Archive.repairable Archive.pending
  rw [List.mem_filter, List.mem_filter, List.mem_reverse, and_assoc]

/-- What can be repaired stays so. -/
theorem Grows.repairable (h : Grows w w') {a : Asset} (ha : a ∈ w.repairable) :
    a ∈ w'.repairable := by
  obtain ⟨hmem, hlacks, hfile⟩ := mem_repairable.mp ha
  exact mem_repairable.mpr ⟨h.assets a hmem, hlacks, h.files _ hfile⟩

/-- Files of a directory may be added or changed. -/
theorem grows_update (w : Archive) (dir : SessionDir) {f : Directory → Directory}
    (hf : ∀ d name, (d.files.lookup name).isSome = true →
      ((f d).files.lookup name).isSome = true) : Grows w (w.update dir f) := by
  refine ⟨rfl, fun path hpath => ?_, fun _ h => h, fun h => h, le_rfl⟩
  unfold Archive.isFile Archive.bytesAt at hpath ⊢
  rcases hname : path.file with _ | name
  · rw [hname] at hpath
    exact absurd hpath Bool.false_ne_true
  · rw [hname] at hpath
    show ((Function.update w.media dir (f (w.media dir)) path.dir).files.lookup name).isSome = true
    by_cases hdir : path.dir = dir
    · rw [hdir, Function.update_self]
      rw [hdir] at hpath
      exact hf _ name hpath
    · rw [Function.update_of_ne hdir]
      exact hpath

/-- A file that is put takes no other away. -/
theorem isSome_lookup_put {d : Directory} {name other : String} {data : Bytes}
    (h : (d.files.lookup other).isSome = true) :
    ((d.put name data).files.lookup other).isSome = true := by
  rw [lookup_put]
  split_ifs
  · rfl
  · exact h

/-- A new asset has taken its recording from the backlog. -/
theorem grows_addAsset {a : Asset} (ha : w.Insertable a) : Grows w (w.addAsset a) := by
  refine ⟨rfl, fun _ h => h, fun b hb => List.mem_append_left _ hb, fun hu => ?_, ?_⟩
  · show ((w.assets ++ [a]).map Asset.recordingId).Nodup
    rw [List.map_append, List.nodup_append]
    refine ⟨hu, List.nodup_singleton _, ?_⟩
    rintro r hr _ hr' rfl
    obtain ⟨b, hb, hbr⟩ := List.mem_map.mp hr
    exact ha.2 b hb (hbr.trans (List.mem_singleton.mp hr'))
  · have hpending : (w.addAsset a).pending.length ≤ w.pending.length + 1 := by
      rw [length_pending, length_pending]
      show (w.assets ++ [a]).countP Asset.lacksMedia ≤ _
      rw [List.countP_append]
      exact Nat.add_le_add_left List.countP_le_length _
    have hfewer : ((w.addAsset a).recordings.keys.filter
        fun r => (w.addAsset a).assetsOf r = []).length + 1 ≤
        (w.recordings.keys.filter fun r => w.assetsOf r = []).length := by
      rw [← List.countP_eq_length_filter, ← List.countP_eq_length_filter]
      refine countP_succ_le (AList.mem_keys.mp ha.1) ?_ ?_ fun r hr => ?_
      · exact decide_eq_false fun hnil => (assetsOf_eq_nil.mp hnil)
          ⟨a, List.mem_append_right _ (List.mem_singleton.mpr rfl), rfl⟩
      · exact decide_eq_true (assetsOf_eq_nil.mpr fun ⟨b, hb, hbr⟩ => ha.2 b hb hbr)
      · refine decide_eq_true (assetsOf_eq_nil.mpr fun ⟨b, hb, hbr⟩ => ?_)
        exact assetsOf_eq_nil.mp (of_decide_eq_true hr) ⟨b, List.mem_append_left _ hb, hbr⟩
    unfold Archive.backlog
    omega

theorem keeps_select_grows {α : Type} (f : Archive → α) :
    Prog.Keeps Grows (fun _ => True) (select f) :=
  Prog.Keeps.seq frame_grows (Prog.Keeps.call frame_grows _ _) fun _ =>
    Prog.Keeps.reads frame_grows fun _ => trivial

/-- A lookup reads rows. -/
theorem grows_oneOrNone (r : RecordingId) :
    Prog.Keeps Grows (fun _ => True) (oneOrNone r) := by
  unfold oneOrNone
  refine Prog.Keeps.seq frame_grows (keeps_select_grows _) fun found => ?_
  rcases found with _ | ⟨a, _ | ⟨b, rest⟩⟩
  · exact Prog.Keeps.pure frame_grows trivial
  · exact Prog.Keeps.pure frame_grows trivial
  · exact Prog.Keeps.raise frame_grows _

/-- So does the load of a recording. -/
theorem grows_loadRecording (r : RecordingId) :
    Prog.Keeps Grows (fun _ => True) (loadRecording r) := by
  unfold loadRecording
  refine Prog.Keeps.seq frame_grows (keeps_select_grows _) fun recording => ?_
  rcases recording with _ | row
  · exact Prog.Keeps.pure frame_grows trivial
  · refine Prog.Keeps.seq frame_grows (grows_oneOrNone r) fun existing => ?_
    refine Prog.Keeps.ite (fun _ => Prog.Keeps.pure frame_grows trivial) fun _ => ?_
    exact Prog.Keeps.seq frame_grows (Prog.Keeps.call frame_grows _ _) fun _ =>
      Prog.Keeps.pure frame_grows trivial

/-- A new asset is one more. -/
theorem grows_createAsset (a : Asset) : Prog.Keeps Grows (fun _ => True) (createAsset a) := by
  unfold createAsset
  refine Prog.Keeps.seq frame_grows (grows_oneOrNone _) fun existing => ?_
  refine Prog.Keeps.ite (fun _ => Prog.Keeps.pure frame_grows trivial) fun _ => ?_
  refine Prog.Keeps.seq frame_grows (Prog.Keeps.call frame_grows _ _) fun _ => ?_
  intro o n w
  rw [wp_bind, wp_reads]
  split_ifs with hallowed
  · exact ⟨grows_addAsset (of_decide_eq_true hallowed), trivial⟩
  · exact frame_grows.refl w

/-- Writing the master, and reading the segments. -/
theorem grows_masterOf (dir : SessionDir) (seg : String) (rest : List String) :
    Prog.Keeps Grows (fun _ => True) (masterOf dir seg rest) := by
  have hcall : ∀ {k : ArchiveCall} {e : ArchiveError},
      Prog.Keeps Grows (fun _ => True) (call k e : Job Unit) := Prog.Keeps.call frame_grows _ _
  have hread : ∀ name, Prog.Keeps Grows (fun _ => True) (readSegment dir name) := by
    intro name
    unfold readSegment
    refine Prog.Keeps.seq frame_grows hcall fun _ => ?_
    refine Prog.Keeps.read frame_grows fun content => ?_
    rcases content with _ | data
    · exact Prog.Keeps.raise frame_grows _
    · exact Prog.Keeps.pure frame_grows trivial
  have hwrite : ∀ chunk, Prog.Keeps Grows (fun _ => True) (writeChunk dir masterName chunk) := by
    intro chunk
    refine Prog.Keeps.each frame_grows (fun b => ?_) chunk
    exact Prog.Keeps.seq frame_grows hcall fun _ => Prog.Keeps.modify fun w =>
      grows_update w dir fun _ _ h => isSome_lookup_put h
  unfold masterOf
  refine Prog.Keeps.ite (fun _ => Prog.Keeps.pure frame_grows trivial) fun hrest => ?_
  obtain ⟨seg', rest', rfl⟩ := List.exists_cons_of_ne_nil hrest
  unfold concatMpegtsSegments
  refine Prog.Keeps.seq frame_grows hcall fun _ => ?_
  refine Prog.Keeps.seq frame_grows (Prog.Keeps.modify fun w =>
    grows_update w dir fun _ _ h => isSome_lookup_put h) fun _ => ?_
  refine Prog.Keeps.seq frame_grows (Prog.Keeps.each frame_grows (fun name => ?_) _) fun _ =>
    Prog.Keeps.pure frame_grows trivial
  refine Prog.Keeps.seq frame_grows (hread name) fun fh => ?_
  refine Prog.Keeps.seq frame_grows (Prog.Keeps.each frame_grows (fun chunk => ?_) _) fun _ =>
    hcall
  exact Prog.Keeps.seq frame_grows hcall fun _ => hwrite chunk

theorem SameFiles.grows (h : SameFiles w w') : Grows w w' := by
  refine ⟨h.recordings, fun path hpath => ?_, fun a ha => ?_, fun hu => ?_, ?_⟩
  · rw [isFile_of_files h.files]
    exact hpath
  · rw [h.assets]
    exact ha
  · rw [h.assets]
    exact hu
  · unfold Archive.backlog Archive.pending Archive.assetsOf
    rw [h.assets, h.recordings]

/-- Derived media are new files. -/
theorem grows_deriveMedia (master : MediaPath) (a : Asset) :
    Prog.Keeps Grows (fun _ => True) (deriveMedia encode master a) := by
  have htool : ∀ tool, Prog.Keeps Grows (fun _ => True) (tryGenerate encode tool master) := by
    intro tool
    refine Prog.Keeps.attempt frame_grows ?_ fun _ => Prog.Keeps.pure frame_grows trivial
    refine Prog.Keeps.seq frame_grows (fun o n w => ?_) fun _ => Prog.Keeps.pure frame_grows trivial
    exact wp_mono (wp_generate tool master) (fun _ _ _ h => ⟨h.grows, trivial⟩)
      (fun _ _ _ h => h.grows) fun _ h => h.1.grows
  unfold deriveMedia
  refine Prog.Keeps.read frame_grows fun data => ?_
  refine Prog.Keeps.ite (fun _ => Prog.Keeps.pure frame_grows trivial) fun _ => ?_
  refine Prog.Keeps.seq frame_grows (htool .proxy) fun proxy => ?_
  exact Prog.Keeps.seq frame_grows (htool .thumbnail) fun thumb =>
    Prog.Keeps.pure frame_grows trivial

/-- **A job grows the archive**, wherever it ends. -/
theorem grows_process (r : RecordingId) : Prog.Keeps Grows (fun _ => True) (process encode r) := by
  unfold process
  refine Prog.Keeps.seq frame_grows (grows_loadRecording r) fun loaded => ?_
  rcases loaded with _ | dir
  · exact Prog.Keeps.pure frame_grows trivial
  · refine Prog.Keeps.read frame_grows fun segments => ?_
    rcases segments with _ | ⟨seg, rest⟩
    · exact grows_createAsset _
    · unfold catalogSegments
      refine Prog.Keeps.seq frame_grows (grows_masterOf dir seg rest) fun name => ?_
      refine Prog.Keeps.seq frame_grows (Prog.Keeps.attempt frame_grows
        (Prog.Keeps.call frame_grows _ _) fun _ => Prog.Keeps.pure frame_grows trivial) fun _ => ?_
      exact Prog.Keeps.seq frame_grows (grows_deriveMedia _ _) fun a => grows_createAsset a

/-- The pass before the backfill only adds. -/
theorem grows_catalogUncatalogedRecordings :
    Prog.Keeps Grows (fun _ => True) (catalogUncatalogedRecordings encode) := by
  unfold catalogUncatalogedRecordings
  refine Prog.Keeps.seq frame_grows (keeps_select_grows _) fun ids => ?_
  exact Prog.Keeps.each frame_grows (fun r => Prog.Keeps.attempt frame_grows (grows_process r)
    fun _ => Prog.Keeps.pure frame_grows trivial) ids

/-- What a backfill of `batch` does while everything in it is repaired. -/
structure Refills (batch : List Asset) (w w' : Archive) : Prop where
  /-- The rows of recordings stay. -/
  recordings : w'.recordings = w.recordings
  /-- The files outside `derived/` stay. -/
  files : ∀ dir, (w'.media dir).files = (w.media dir).files
  /-- The assets stay, in their order. -/
  ids : w'.assets.map Asset.recordingId = w.assets.map Asset.recordingId
  /-- Those outside the batch are not written. -/
  others : ∀ b ∈ w.assets, b ∉ batch → b ∈ w'.assets
  /-- Each of the batch has left the backlog. -/
  pending : w'.pending.length + batch.length ≤ w.pending.length

theorem Refills.nil (w : Archive) : Refills [] w w :=
  ⟨rfl, fun _ => rfl, rfl, fun _ h _ => h, le_rfl⟩

/-- One more asset is repaired. -/
theorem Refills.snoc {batch : List Asset} {a : Asset} {f : Asset → Asset} (h : Refills batch w w')
    (hunique : (w.assets.map Asset.recordingId).Nodup) (ha : a ∈ w.assets) (hnot : a ∉ batch)
    (hlacks : a.lacksMedia = true) (hf : Rewrites a f w' w'')
    (hgood : ∀ b, (f b).lacksMedia = false) :
    Refills (batch ++ [a]) w w'' := by
  refine ⟨hf.recordings.trans h.recordings, fun dir => (hf.files dir).trans (h.files dir), ?_,
    fun b hb hbatch => ?_, ?_⟩
  · rw [hf.assets, ← h.ids, List.map_map]
    refine List.map_congr_left fun b _ => ?_
    show (if b.recordingId = a.recordingId then f b else b).recordingId = b.recordingId
    split_ifs
    · exact hf.id b
    · rfl
  · rw [List.mem_append, List.mem_singleton, not_or] at hbatch
    rw [hf.assets]
    have hne : b.recordingId ≠ a.recordingId :=
      fun heq => hbatch.2 (List.inj_on_of_nodup_map hunique hb ha heq)
    exact List.mem_map.mpr ⟨b, h.others b hb hbatch.1, if_neg hne⟩
  · have hone : w''.pending.length + 1 ≤ w'.pending.length := by
      rw [length_pending, length_pending, hf.assets, List.countP_map]
      refine countP_succ_le (h.others a ha hnot) ?_ hlacks fun b hb => ?_
      · dsimp only [Function.comp]
        rw [if_pos rfl]
        exact hgood a
      · dsimp only [Function.comp] at hb
        split_ifs at hb
        · rw [hgood b] at hb
          exact absurd hb Bool.false_ne_true
        · exact hb
    have hbatch := h.pending
    rw [List.length_append, List.length_singleton]
    omega

/-- A pass lowers the backlog by its batch. -/
theorem Refills.backlog {batch : List Asset} (h : Refills batch w w') :
    w'.backlog + batch.length ≤ w.backlog := by
  have hkeys : (w'.recordings.keys.filter fun r => w'.assetsOf r = []) =
      w.recordings.keys.filter fun r => w.assetsOf r = [] := by
    rw [h.recordings]
    refine List.filter_congr fun r _ => ?_
    have hiff : w'.HasAsset r ↔ w.HasAsset r := by
      have hmem := congrArg (r ∈ ·) h.ids
      simpa [List.mem_map, Archive.HasAsset] using hmem
    rw [decide_eq_decide, assetsOf_eq_nil, assetsOf_eq_nil, hiff]
  have hpending := h.pending
  unfold Archive.backlog
  rw [hkeys]
  omega

/-- What is not in the batch is still repairable. -/
theorem Refills.repairable {batch : List Asset} (h : Refills batch w w') {a : Asset}
    (ha : a ∈ w.repairable) (hnot : a ∉ batch) : a ∈ w'.repairable := by
  obtain ⟨hmem, hlacks, hfile⟩ := mem_repairable.mp ha
  refine mem_repairable.mpr ⟨h.others a hmem hnot, hlacks, ?_⟩
  rw [isFile_of_files h.files]
  exact hfile

/-- **A backfill whose batch can be repaired repairs it.** -/
theorem wp_backfillUpTo (hw : Working o) (hunique : (w.assets.map Asset.recordingId).Nodup)
    (hbatch : ∀ a ∈ w.pending.take limit, ∃ data, w.bytesAt a.masterPath = some data ∧
      Deriving encode o data) :
    wp o (backfillUpTo encode limit) (fun _ _ w' => Refills (w.pending.take limit) w w')
      (fun _ _ _ => False) (fun _ => False) n w := by
  have hmem : ∀ a ∈ w.pending.take limit, a ∈ w.assets ∧ a.lacksMedia = true := by
    intro a ha
    have hpending := List.mem_of_mem_take ha
    unfold Archive.pending at hpending
    rw [List.mem_filter, List.mem_reverse] at hpending
    exact hpending
  have hnodup : (w.pending.take limit).Nodup := by
    apply List.Nodup.sublist (List.take_sublist _ _)
    exact (List.nodup_reverse.mpr (List.Nodup.of_map _ hunique)).sublist List.filter_sublist
  unfold backfillUpTo select
  rw [wp_bind, wp_bind]
  apply Working.wp_call hw.query
  rw [wp_reads]
  -- the assets before the current one are repaired
  refine wp_each (I := fun xs w' => ∃ ys, w.pending.take limit = ys ++ xs ∧ Refills ys w w')
    ?_ ?_ (w.pending.take limit) _ w ⟨[], rfl, Refills.nil w⟩
  · rintro a xs n w' ⟨ys, hys, hrefills⟩
    have ha : a ∈ w.pending.take limit := by
      rw [hys]
      exact List.mem_append_right _ List.mem_cons_self
    have hnot : a ∉ ys := by
      rw [hys] at hnodup
      exact fun hmem' => (List.nodup_append.mp hnodup).2.2 a hmem' a List.mem_cons_self rfl
    refine wp_mono (wp_backfillAsset hw a) ?_ (fun _ _ _ h => h) (fun _ h => h)
    rintro _ _ w'' ⟨f, hf, hgood⟩
    obtain ⟨data, hdata, hderiving⟩ := hbatch a ha
    have hsame : w'.bytesAt a.masterPath = some data := by
      rw [← hdata]
      unfold Archive.bytesAt
      rw [hrefills.files]
    refine ⟨ys ++ [a], by rw [hys, List.append_assoc]; rfl, ?_⟩
    exact hrefills.snoc hunique (hmem a ha).1 hnot (hmem a ha).2 hf
      (hgood ⟨data, hsame, hderiving⟩)
  · rintro n w' ⟨ys, hys, hrefills⟩
    rw [hys, List.append_nil]
    exact hrefills

/-- **Every repairable asset has its turn**, in a run whose restarts get somewhere. -/
theorem mem_attempted (as : List (Arrival × Oracle ArchiveCall)) (w : Archive)
    (hunique : (w.assets.map Asset.recordingId).Nodup)
    (hfine : Runs.Along (Archive.Fine encode limit) (Archive.arrive encode limit) w as)
    (hmany : w.backlog ≤ limit * restarts as) {a : Asset} (ha : a ∈ w.repairable) :
    a ∈ w.attempted encode limit as := by
  induction as generalizing w with
  | nil =>
    -- With no restart left there would have to be no backlog.
    have hpos : 0 < w.pending.length := List.length_pos_of_mem (List.mem_of_mem_filter ha)
    unfold Archive.backlog restarts at hmany
    rw [List.countP_nil] at hmany
    omega
  | cons step as ih =>
    obtain ⟨arrival, o⟩ := step
    cases arrival with
    | job r =>
      -- A job adds nothing to the backlog.
      have hgrows : Grows w (final o (process encode r) w) := (grows_process r).final
      refine ih _ (hgrows.unique hunique) (hfine.2 _ rfl) ?_ (hgrows.repairable ha)
      exact hgrows.backlog.trans hmany
    | restart =>
      obtain ⟨hw, n, v, hcatalog, hadvances⟩ := hfine.1
      have hgrows : Grows w v :=
        (of_wp_ok (grows_catalogUncatalogedRecordings o 0 w) hcatalog).1
      have hav := hgrows.repairable ha
      have hpending : a ∈ v.pending := List.mem_of_mem_filter hav
      have hfile := (mem_repairable.mp hav).2.2
      have hturn : restartAttempts encode limit o w =
          (v.pending.take limit).filter fun a => v.isFile a.masterPath := by
        unfold restartAttempts
        rw [hcatalog]
        exact attempts_eq hw
      show a ∈ restartAttempts encode limit o w ++ _
      rw [hturn, List.mem_append, List.mem_filter]
      by_cases hbatch : a ∈ v.pending.take limit
      · exact Or.inl ⟨hbatch, hfile⟩
      · -- it is left out, so the batch is full and is repaired
        have hrest : a ∈ v.pending.drop limit := by
          rw [← List.take_append_drop limit v.pending, List.mem_append] at hpending
          exact hpending.resolve_left hbatch
        have hall := hadvances.resolve_left fun hno => hno a hrest hfile
        have hrefills :
            Refills (v.pending.take limit) v (final o (restartUpTo encode limit) w) := by
          have hrun : restartUpTo encode limit o 0 w = backfillUpTo encode limit o n v :=
            bind_of_ok hcatalog
          show Refills _ v (restartUpTo encode limit o 0 w).2.2
          rw [hrun]
          exact state_of_wp (wp_backfillUpTo hw (hgrows.unique hunique) hall)
        refine Or.inr (ih _ ?_ (hfine.2 _ rfl) ?_ (hrefills.repairable hav hbatch))
        · rw [hrefills.ids]
          exact hgrows.unique hunique
        · have hlen : (v.pending.take limit).length = limit := by
            rw [List.length_take]
            have := List.length_pos_of_mem hrest
            rw [List.length_drop] at this
            omega
          have hless := hrefills.backlog
          rw [hlen] at hless
          have hcount : restarts ((Arrival.restart, o) :: as) = restarts as + 1 :=
            List.countP_cons_of_pos rfl
          rw [hcount, Nat.mul_succ] at hmany
          have hbound := hgrows.backlog
          omega

end Proofs

/-! ## Main result -/

/-- **The backfill makes progress where it is not starved.**  One backfill derives media for as many
repairable assets as its limit allows exactly if its batch is not starved; and in a run of jobs and
restarts whose restarts get somewhere, each repairable asset has its turn once the backlog fits in
the batches. -/
theorem backfill_progress (encode : Tool → Bytes → List (String × Bytes)) (limit : ℕ) :
    (∀ o n w, Working o →
      ((attempts encode limit o n w).length = min limit w.repairable.length ↔
        w.Unstarved limit)) ∧
    ∀ as w, (w.assets.map Asset.recordingId).Nodup →
      Runs.Along (Archive.Fine encode limit) (Archive.arrive encode limit) w as →
      w.backlog ≤ limit * restarts as →
      ∀ a ∈ w.repairable, a ∈ w.attempted encode limit as :=
  ⟨fun _ _ _ hw => attempts_iff hw,
    fun as w hunique hfine hmany _ ha => mem_attempted as w hunique hfine hmany ha⟩

/-- Where nothing fails, everything works. -/
theorem working_allOk : Working allOk :=
  ⟨fun ⟨_, _, h⟩ => Answer.noConfusion h, fun _ => rfl, fun _ => rfl⟩

/-- Tools that write what is asked for. -/
def copying : Tool → Bytes → List (String × Bytes) := fun tool data => [(tool.output, data)]

/-- The encoder of the witnesses makes something of any master. -/
theorem deriving_copying (data : Bytes) : Deriving copying allOk data :=
  ⟨fun _ => rfl, fun _ => List.mem_singleton.mpr rfl⟩

/-- Recordings of which the first `full` have a segment. -/
def catalogOf (full empty : ℕ) : Archive where
  recordings := (List.range (full + empty)).foldl (fun d r => Dict.set r {
    channelId := .str "a", startedAt := r, endedAt := some (r + 1), status := .completed,
    storagePath := ⟨.str "a", r⟩, segmentCount := 1, byteSize := 1, startedBy := 0 } d) ∅
  assets := (List.range full).map (fun r => segmentsAsset r ⟨.str "a", r⟩ "segment_00000.ts" []) ++
    (List.range empty).map fun i => emptyAsset (full + i) ⟨.str "a", full + i⟩
  media := fun dir => {
    files := if dir.sessionId < full then AList.singleton "segment_00000.ts" [1] else ∅
    derived := ∅ }
  created := []

/-- Two assets to repair, a limit of one, and two restarts. -/
theorem backfill_progress_two :
    (attempts copying 1 allOk 0 (catalogOf 2 0)).length = min 1 (catalogOf 2 0).repairable.length ∧
    ∀ a ∈ (catalogOf 2 0).repairable,
      a ∈ (catalogOf 2 0).attempted copying 1 [(.restart, allOk), (.restart, allOk)] := by
  refine ⟨((backfill_progress copying 1).1 allOk 0 _ working_allOk).mpr (Or.inl ?_),
    (backfill_progress copying 1).2 _ _ ?_ ?_ ?_⟩
  · decide
  · decide
  · refine Runs.along_cons ⟨working_allOk, _, _, rfl, Or.inr ?_⟩ rfl ?_
    · have hbytes : ∀ a ∈ (catalogOf 2 0).pending.take 1,
          (catalogOf 2 0).bytesAt a.masterPath = some [1] := by decide
      exact fun a ha => ⟨[1], hbytes a ha, deriving_copying [1]⟩
    · exact Runs.along_cons ⟨working_allOk, _, _, rfl, Or.inl (by decide)⟩ rfl trivial
  · decide

/-- Five newer assets without segments starve an older one that could be repaired. -/
theorem backfill_starves : ¬ ∀ limit, 1 ≤ limit → ∀ o n w, Working o →
    (attempts copying limit o n w).length = min limit w.repairable.length := by
  intro h
  have hlength := h 5 (by decide) allOk 0 (catalogOf 1 5) working_allOk
  rw [attempts_eq working_allOk] at hlength
  revert hlength
  decide

end PostProcess
