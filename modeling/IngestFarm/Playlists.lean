/-
# VOD playlists

`finalize_vod_playlist_text` and `rewrite_proxy_playlist` of `ingest_farm/postprocess/proxy.py`.
A recording's playlist is finalized on disk by the post-processor and once more whenever the API
serves it, there after its segment URIs were rewritten.  Finalizing works line by line, so the
two commute, and a second time changes nothing.
-/
import IngestFarm.Durations

namespace Playlist

open Etr290 PyText
open PostProcess (FloatOps extinf extinfs playlistDurationMs)

/-- `line.strip().startswith(tag)`: white space around a line does not hide its tag. -/
def tagged (tag line : Text) : Bool := tag.isPrefixOf (strip line)

/-- `#EXT-X-ENDLIST`: no segment will follow. -/
def endLine : Text := "#EXT-X-ENDLIST".toList

/-- `#EXT-X-PLAYLIST-TYPE:`, which a playlist may have once. -/
def typeTag : Text := "#EXT-X-PLAYLIST-TYPE:".toList

/-- `#EXT-X-PLAYLIST-TYPE:VOD`: nothing in the playlist will change. -/
def vodLine : Text := typeTag ++ "VOD".toList

/-- An end tag, by the code's own test. -/
def isEndlist (line : Text) : Bool := tagged endLine line

/-- A type line. -/
def isPlaylistType (line : Text) : Bool := tagged typeTag line

/-- The line after which a type line is inserted. -/
def isTargetDuration (line : Text) : Bool := tagged "#EXT-X-TARGETDURATION".toList line

/-- A line that finalizing neither drops nor replaces. -/
def isOther (line : Text) : Bool := !isEndlist line && !isPlaylistType line

/-- The variables of the loop of `finalize_vod_playlist_text`. -/
structure Scan where
  lines : List Text
  targetIdx : Option ℕ
  hasVod : Bool

/-- One round of the loop. -/
def scanLine (s : Scan) (line : Text) : Scan :=
  if isEndlist line then s
  else if isPlaylistType line then { s with hasVod := true, lines := s.lines ++ [vodLine] }
  else if isTargetDuration line then
    { s with targetIdx := some s.lines.length, lines := s.lines ++ [line] }
  else { s with lines := s.lines ++ [line] }

/-- `lines.insert(i, line)`: beyond the end it is an append. -/
def insertLine (i : ℕ) (line : Text) (lines : List Text) : List Text :=
  lines.take i ++ line :: lines.drop i

/-- `insert_at`: after the target duration, or after the first line if there is none. -/
def Scan.insertAt (s : Scan) : ℕ :=
  match s.targetIdx with
  | some i => i + 1
  | none => min 1 s.lines.length

/-- The lines after the loop, with the type line where there is none yet. -/
def Scan.typed (s : Scan) : List Text :=
  if s.hasVod then s.lines else insertLine s.insertAt vodLine s.lines

/-- The loop over all lines. -/
def scanLines (lines : List Text) : Scan := lines.foldl scanLine ⟨[], none, false⟩

/-- The lines of the finalized text. -/
def finalizeLines (lines : List Text) : List Text := (scanLines lines).typed ++ [endLine]

/-- `"\n".join(lines) + "\n"`: every line is ended, the last one too. -/
def joinLines (lines : List Text) : Text := ['\n'].intercalate lines ++ ['\n']

/-- `finalize_vod_playlist_text`: the lines of the text as those of a VOD playlist. -/
def finalizeVodPlaylistText (text : Text) : Text := joinLines (finalizeLines (splitlines text))

/-- A line that names a segment by a relative URI: not blank, no tag and no `http` URI. -/
def isSegmentUri (line : Text) : Bool :=
  strip line ≠ [] ∧ "#".toList.isPrefixOf (strip line) = false ∧
    "http".toList.isPrefixOf (strip line) = false

/-- `/api/assets/{asset_id}/proxy/{stripped}`, where the API serves a segment. -/
def proxyUri (assetId stripped : Text) : Text :=
  "/api/assets/".toList ++ assetId ++ "/proxy/".toList ++ stripped

/-- One round of the loop of `rewrite_proxy_playlist`. -/
def rewriteLine (assetId line : Text) : Text :=
  if isSegmentUri line then proxyUri assetId (strip line) else line

/-- `rewrite_proxy_playlist`: the URIs are rewritten first, then the text is finalized. -/
def rewriteProxyPlaylist (text assetId : Text) : Text :=
  finalizeVodPlaylistText (joinLines ((splitlines text).map (rewriteLine assetId)))

/-- `Path.read_text`: a carriage return ends a line like a line feed. -/
def readText : Text → Text
  | [] => []
  | '\r' :: '\n' :: cs => '\n' :: readText cs
  | c :: cs => (if c = '\r' then '\n' else c) :: readText cs

/-- `finalize_vod_playlist`: what the file holds afterwards. -/
def finalizeVodPlaylist (file : Text) : Text := finalizeVodPlaylistText (readText file)

/-- `playlist_duration_ms`: the durations of a file's segments, through the line ends of
`read_text`. -/
def fileDurationMs (b : Builtins) (ops : FloatOps) (file : Option Text) : Option (Option ℤ) :=
  playlistDurationMs b ops (file.map readText)

/-- **Finalizing makes a playlist VOD and keeps the rest of it.** -/
structure KeepsContent (text : Text) : Prop where
  oneType : (splitlines (finalizeVodPlaylistText text)).filter isPlaylistType = [vodLine]
  endlistLast : ∃ body, splitlines (finalizeVodPlaylistText text) = body ++ [endLine] ∧
    ∀ line ∈ body, isEndlist line = false
  others : (splitlines (finalizeVodPlaylistText text)).filter isOther =
    (splitlines text).filter isOther
  twice : finalizeVodPlaylistText (finalizeVodPlaylistText text) = finalizeVodPlaylistText text
  duration : ∀ b ops, fileDurationMs b ops (some (finalizeVodPlaylist text)) =
    fileDurationMs b ops (some text)

/-- **Serving a playlist is finalizing it**, up to the URIs of the segments, whether or not it
was finalized before: those are rewritten, all of them, and no other line is. -/
structure ServedAlike (text assetId : Text) : Prop where
  commutes : rewriteProxyPlaylist (finalizeVodPlaylistText text) assetId =
    rewriteProxyPlaylist text assetId
  uris : splitlines (rewriteProxyPlaylist text assetId) =
    (splitlines (finalizeVodPlaylistText text)).map fun line =>
      if isSegmentUri line = true then proxyUri assetId (strip line) else line

/-! ## Tags -/

/-- A line cannot carry two tags of which neither starts with the other. -/
theorem tagged_exclusive {tag tag' line : Text} (hno : ¬ tag <+: tag') (hno' : ¬ tag' <+: tag)
    (h : tagged tag line = true) : tagged tag' line = false := by
  rw [tagged, List.isPrefixOf_iff_prefix] at h
  rw [tagged, ← Bool.not_eq_true, List.isPrefixOf_iff_prefix]
  intro h'
  rcases List.prefix_or_prefix_of_prefix h h' with hpre | hpre
  · exact hno hpre
  · exact hno' hpre

/-- A type line is no end tag. -/
theorem isEndlist_of_isPlaylistType {line : Text} (h : isPlaylistType line = true) :
    isEndlist line = false := by
  have hno : ¬ typeTag <+: endLine := by decide
  have hno' : ¬ endLine <+: typeTag := by decide
  exact tagged_exclusive hno hno' h

@[simp] theorem isPlaylistType_vodLine : isPlaylistType vodLine = true := by rfl

@[simp] theorem isEndlist_vodLine : isEndlist vodLine = false := by rfl

@[simp] theorem isEndlist_endLine : isEndlist endLine = true := by rfl

@[simp] theorem isPlaylistType_endLine : isPlaylistType endLine = false := by rfl

@[simp] theorem isOther_vodLine : isOther vodLine = false := by rfl

@[simp] theorem isOther_endLine : isOther endLine = false := by rfl

/-- The other lines are those that the loop neither drops nor rewrites. -/
theorem isOther_iff {line : Text} :
    isOther line = true ↔ isEndlist line = false ∧ isPlaylistType line = false := by
  rw [isOther, Bool.and_eq_true, Bool.not_eq_true', Bool.not_eq_true']

/-- A line that starts with another character has not the tag. -/
theorem tagged_of_head {c : Char} {cs tag : Text} (hc : isSpace c = false)
    (hne : tag.head? ≠ some c) (htag : tag ≠ []) : tagged tag (c :: cs) = false := by
  rw [tagged, ← Bool.not_eq_true, List.isPrefixOf_iff_prefix]
  intro h
  cases tag with
  | nil => exact htag rfl
  | cons d ds =>
    have hd : d = c := (List.cons_prefix_cons.mp (h.trans (strip_prefix_of_head hc))).1
    exact hne (by rw [hd, List.head?_cons])

/-! ## The loop -/

/-- What finalizing makes of one line. -/
def kept (line : Text) : Option Text :=
  if isEndlist line then none else if isPlaylistType line then some vodLine else some line

/-- **One round**: the line goes through `kept`, and a type line is noted. -/
theorem scanLine_spec (s : Scan) (line : Text) :
    (scanLine s line).lines = s.lines ++ (kept line).toList ∧
      (scanLine s line).hasVod = (s.hasVod || isPlaylistType line) := by
  unfold scanLine kept
  by_cases hend : isEndlist line = true
  · have htype : isPlaylistType line = false := by
      by_contra h
      rw [isEndlist_of_isPlaylistType (by simpa using h)] at hend
      exact absurd hend (by simp)
    simp [hend, htype]
  · by_cases htype : isPlaylistType line = true
    · simp [hend, htype]
    · by_cases htarget : isTargetDuration line = true
      · simp [hend, htype, htarget]
      · simp [hend, htype, htarget]

/-- The loop keeps the lines in their order, and knows whether there was a type line. -/
theorem foldl_scanLine (lines : List Text) (s : Scan) :
    (lines.foldl scanLine s).lines = s.lines ++ lines.filterMap kept ∧
      (lines.foldl scanLine s).hasVod = (s.hasVod || lines.any isPlaylistType) := by
  induction lines generalizing s with
  | nil => simp
  | cons line lines ih =>
    obtain ⟨hlines, hvod⟩ := scanLine_spec s line
    obtain ⟨hlines', hvod'⟩ := ih (scanLine s line)
    rw [List.foldl_cons, hlines', hvod', hlines, hvod]
    constructor
    · cases h : kept line with
      | none => simp [h]
      | some l => simp [h]
    · rw [List.any_cons, Bool.or_assoc]

/-- **The whole loop.** -/
theorem scanLines_spec (lines : List Text) :
    (scanLines lines).lines = lines.filterMap kept ∧
      (scanLines lines).hasVod = lines.any isPlaylistType := by
  have h := foldl_scanLine lines ⟨[], none, false⟩
  exact ⟨h.1.trans (List.nil_append _), h.2.trans (Bool.false_or _)⟩

/-- What a filter sees of an insertion. -/
theorem filter_insertLine (p : Text → Bool) (i : ℕ) (line : Text) (lines : List Text) :
    (insertLine i line lines).filter p =
      (lines.take i).filter p ++ [line].filter p ++ (lines.drop i).filter p := by
  rw [insertLine, List.filter_append, ← List.singleton_append, List.filter_append,
    List.append_assoc]

/-- A line that the filter drops may be inserted anywhere. -/
theorem filter_insertLine_of_neg {p : Text → Bool} {line : Text} (h : p line = false) (i : ℕ)
    (lines : List Text) : (insertLine i line lines).filter p = lines.filter p := by
  rw [filter_insertLine, List.filter_singleton, h, Bool.cond_false, List.append_nil,
    ← List.filter_append, List.take_append_drop]

theorem mem_insertLine {i : ℕ} {line l : Text} {lines : List Text} :
    l ∈ insertLine i line lines ↔ l = line ∨ l ∈ lines := by
  have hsplit : l ∈ lines ↔ l ∈ lines.take i ∨ l ∈ lines.drop i := by
    rw [← List.mem_append, List.take_append_drop]
  rw [insertLine, List.mem_append, List.mem_cons, hsplit]
  tauto

theorem map_insertLine (f : Text → Text) (i : ℕ) (line : Text) (lines : List Text) :
    (insertLine i line lines).map f = insertLine i (f line) (lines.map f) := by
  rw [insertLine, insertLine, List.map_append, List.map_cons, List.map_take, List.map_drop]

/-- The loop keeps every other line. -/
theorem filter_other_kept (lines : List Text) :
    (lines.filterMap kept).filter isOther = lines.filter isOther := by
  induction lines with
  | nil => rfl
  | cons line lines ih =>
    by_cases hend : isEndlist line = true
    · simp [kept, isOther, hend, ih]
    · by_cases htype : isPlaylistType line = true
      · simp [kept, isOther, hend, htype, ih]
      · simp [kept, isOther, hend, htype, ih]

/-- Every type line becomes the `VOD` line. -/
theorem filter_type_kept (lines : List Text) :
    (lines.filterMap kept).filter isPlaylistType =
      List.replicate (lines.countP isPlaylistType) vodLine := by
  induction lines with
  | nil => rfl
  | cons line lines ih =>
    by_cases htype : isPlaylistType line = true
    · have hend := isEndlist_of_isPlaylistType htype
      simp [kept, hend, htype, ih, List.replicate_succ]
    · by_cases hend : isEndlist line = true
      · simp [kept, hend, htype, ih]
      · simp [kept, hend, htype, ih]

/-! ## The finalized lines -/

variable {lines : List Text} {assetId text : Text}

/-- The lines before the end tag: what was kept, and the `VOD` line in any case. -/
theorem mem_typed {line : Text} (h : line ∈ (scanLines lines).typed) :
    line = vodLine ∨ isOther line = true ∧ line ∈ lines := by
  have hkept : ∀ {l}, l ∈ lines.filterMap kept → l = vodLine ∨ isOther l = true ∧ l ∈ lines := by
    intro l hl
    obtain ⟨line', hmem, hline⟩ := List.mem_filterMap.mp hl
    unfold kept at hline
    split_ifs at hline with hend htype
    · exact Or.inl (Option.some.inj hline).symm
    · obtain rfl := Option.some.inj hline
      exact Or.inr ⟨isOther_iff.mpr ⟨by simpa using hend, by simpa using htype⟩, hmem⟩
  unfold Scan.typed at h
  rw [(scanLines_spec lines).1] at h
  split_ifs at h
  · exact hkept h
  · rcases mem_insertLine.mp h with h | h
    · exact Or.inl h
    · exact hkept h

/-- The loop leaves no end tag behind. -/
theorem isEndlist_of_mem_typed {line : Text} (h : line ∈ (scanLines lines).typed) :
    isEndlist line = false := by
  rcases mem_typed h with rfl | ⟨hother, -⟩
  · exact isEndlist_vodLine
  · exact (isOther_iff.mp hother).1

/-- After the loop there is a type line in any case. -/
theorem vodLine_mem_typed (lines : List Text) : vodLine ∈ (scanLines lines).typed := by
  unfold Scan.typed
  rw [(scanLines_spec lines).1, (scanLines_spec lines).2]
  split_ifs with hvod
  · obtain ⟨line, hmem, htype⟩ := List.any_eq_true.mp hvod
    refine List.mem_filterMap.mpr ⟨line, hmem, ?_⟩
    rw [kept, if_neg (by simp [isEndlist_of_isPlaylistType htype]), if_pos htype]
  · exact mem_insertLine.mpr (Or.inl rfl)

/-- Finalizing adds two lines and makes up no other. -/
theorem mem_finalizeLines {line : Text} (h : line ∈ finalizeLines lines) :
    line = vodLine ∨ line = endLine ∨ line ∈ lines := by
  rcases List.mem_append.mp h with h | h
  · rcases mem_typed h with h | ⟨-, h⟩
    · exact Or.inl h
    · exact Or.inr (Or.inr h)
  · exact Or.inr (Or.inl (List.mem_singleton.mp h))

/-- There is the end tag at least. -/
theorem finalizeLines_ne_nil (lines : List Text) : finalizeLines lines ≠ [] :=
  List.append_ne_nil_of_right_ne_nil _ (List.cons_ne_nil _ _)

/-- **The other lines** stay as they are, in their order. -/
theorem filter_other_finalizeLines (lines : List Text) :
    (finalizeLines lines).filter isOther = lines.filter isOther := by
  have htyped : (scanLines lines).typed.filter isOther = lines.filter isOther := by
    unfold Scan.typed
    rw [(scanLines_spec lines).1]
    split_ifs
    · exact filter_other_kept lines
    · rw [filter_insertLine_of_neg isOther_vodLine, filter_other_kept]
  rw [finalizeLines, List.filter_append, htyped]
  simp

/-- **One type line**, with the value `VOD`. -/
theorem filter_type_finalizeLines (h : lines.countP isPlaylistType ≤ 1) :
    (finalizeLines lines).filter isPlaylistType = [vodLine] := by
  have htyped : (scanLines lines).typed.filter isPlaylistType = [vodLine] := by
    unfold Scan.typed
    rw [(scanLines_spec lines).1, (scanLines_spec lines).2]
    split_ifs with hvod
    · have hpos : 0 < lines.countP isPlaylistType :=
        List.countP_pos_iff.mpr (List.any_eq_true.mp hvod)
      rw [filter_type_kept, show lines.countP isPlaylistType = 1 from by omega]
      rfl
    · have hzero : lines.countP isPlaylistType = 0 := by
        rw [List.countP_eq_zero]
        intro line hline htype
        exact hvod (List.any_eq_true.mpr ⟨line, hline, htype⟩)
      have hnone : (lines.filterMap kept).filter isPlaylistType = [] := by
        rw [filter_type_kept, hzero, List.replicate_zero]
      rw [← List.take_append_drop (scanLines lines).insertAt (lines.filterMap kept),
        List.filter_append, List.append_eq_nil_iff] at hnone
      rw [filter_insertLine, hnone.1, hnone.2]
      rfl
  rw [finalizeLines, List.filter_append, htyped]
  simp

/-- **Finalizing again** changes nothing. -/
theorem finalizeLines_finalizeLines (lines : List Text) :
    finalizeLines (finalizeLines lines) = finalizeLines lines := by
  -- every line before the end tag is kept as it is, and a type line is among them
  have hkept : ∀ line ∈ (scanLines lines).typed, kept line = some line := by
    intro line hline
    unfold kept
    rw [if_neg (by simp [isEndlist_of_mem_typed hline])]
    rcases mem_typed hline with rfl | ⟨hother, -⟩
    · rw [if_pos isPlaylistType_vodLine]
    · rw [if_neg (by simp [(isOther_iff.mp hother).2])]
  have hbody : (finalizeLines lines).filterMap kept = (scanLines lines).typed := by
    have hend : kept endLine = none := by rw [kept, if_pos isEndlist_endLine]
    have hsame : (scanLines lines).typed.filterMap kept = (scanLines lines).typed := by
      rw [List.filterMap_congr hkept, List.filterMap_some]
    rw [finalizeLines, List.filterMap_append, hsame]
    simp [hend]
  have hvod : (finalizeLines lines).any isPlaylistType = true :=
    List.any_eq_true.mpr ⟨vodLine, List.mem_append_left _ (vodLine_mem_typed lines),
      isPlaylistType_vodLine⟩
  conv_lhs => rw [finalizeLines, Scan.typed]
  rw [(scanLines_spec _).1, (scanLines_spec _).2, hvod, if_pos rfl, hbody]
  rfl

/-! ## Rewriting -/

/-- A rewritten URI is no tag. -/
theorem tagged_proxyUri {tag stripped : Text} (htag : tag.head? = some '#') :
    tagged tag (proxyUri assetId stripped) = false := by
  have huri : proxyUri assetId stripped =
      '/' :: ("api/assets/".toList ++ assetId ++ "/proxy/".toList ++ stripped) := rfl
  rw [huri]
  refine tagged_of_head (by decide) ?_ ?_
  · rw [htag]
    decide
  · rintro rfl
    exact absurd htag (by simp)

/-- **Rewriting a line** leaves it in its class: only lines that are no tags are rewritten. -/
theorem tagged_rewriteLine {tag : Text} (htag : tag.head? = some '#') (line : Text) :
    tagged tag (rewriteLine assetId line) = tagged tag line := by
  unfold rewriteLine
  split_ifs with huri
  · rw [tagged_proxyUri htag, eq_comm, tagged, ← Bool.not_eq_true, List.isPrefixOf_iff_prefix]
    intro hpre
    have hhash : "#".toList <+: tag := by
      cases tag with
      | nil => exact absurd htag (by simp)
      | cons c cs =>
        obtain rfl := Option.some.inj htag
        exact ⟨cs, rfl⟩
    have hno := (of_decide_eq_true huri).2.1
    rw [← Bool.not_eq_true, List.isPrefixOf_iff_prefix] at hno
    exact hno (hhash.trans hpre)
  · rfl

/-- A tag is no URI. -/
theorem rewriteLine_of_tagged {tag line : Text} (htag : tag.head? = some '#')
    (h : tagged tag line = true) : rewriteLine assetId line = line := by
  unfold rewriteLine
  split_ifs with huri
  · have hsame : tagged tag (rewriteLine assetId line) = tagged tag line :=
      tagged_rewriteLine htag line
    rw [rewriteLine, if_pos huri, tagged_proxyUri htag, h] at hsame
    exact absurd hsame (by simp)
  · rfl

@[simp] theorem rewriteLine_vodLine : rewriteLine assetId vodLine = vodLine :=
  rewriteLine_of_tagged rfl isPlaylistType_vodLine

@[simp] theorem rewriteLine_endLine : rewriteLine assetId endLine = endLine :=
  rewriteLine_of_tagged rfl isEndlist_endLine

/-- The variables of the loop over the rewritten lines. -/
def Scan.rewritten (assetId : Text) (s : Scan) : Scan :=
  { s with lines := s.lines.map (rewriteLine assetId) }

/-- One round on a rewritten line. -/
theorem scanLine_rewritten (s : Scan) (line : Text) :
    scanLine (s.rewritten assetId) (rewriteLine assetId line) =
      (scanLine s line).rewritten assetId := by
  have hend : isEndlist (rewriteLine assetId line) = isEndlist line := tagged_rewriteLine rfl line
  have htype : isPlaylistType (rewriteLine assetId line) = isPlaylistType line :=
    tagged_rewriteLine rfl line
  have htarget : isTargetDuration (rewriteLine assetId line) = isTargetDuration line :=
    tagged_rewriteLine rfl line
  unfold scanLine Scan.rewritten
  rw [hend, htype, htarget]
  split_ifs <;> simp

/-- **Finalizing and rewriting commute.** -/
theorem finalizeLines_map (lines : List Text) :
    finalizeLines (lines.map (rewriteLine assetId)) =
      (finalizeLines lines).map (rewriteLine assetId) := by
  have hscan : ∀ s : Scan, (lines.map (rewriteLine assetId)).foldl scanLine (s.rewritten assetId) =
      (lines.foldl scanLine s).rewritten assetId := by
    intro s
    rw [List.foldl_map]
    induction lines generalizing s with
    | nil => rfl
    | cons line lines ih => rw [List.foldl_cons, List.foldl_cons, scanLine_rewritten, ih]
  have htyped : ∀ s : Scan,
      (s.rewritten assetId).typed = s.typed.map (rewriteLine assetId) := by
    intro s
    have hat : (s.rewritten assetId).insertAt = s.insertAt := by
      simp [Scan.insertAt, Scan.rewritten]
    unfold Scan.typed
    rw [hat]
    show (if s.hasVod then _ else _) = _
    split_ifs
    · rfl
    · rw [map_insertLine, rewriteLine_vodLine]
      rfl
  have h := hscan ⟨[], none, false⟩
  rw [finalizeLines, finalizeLines, List.map_append, ← htyped, scanLines, scanLines, ← h]
  simp [Scan.rewritten]

/-! ## Texts -/

/-- Joined lines are ended lines. -/
theorem joinLines_eq (h : lines ≠ []) : joinLines lines = lines.flatMap (· ++ ['\n']) := by
  induction lines with
  | nil => exact absurd rfl h
  | cons line lines ih =>
    cases lines with
    | nil => simp [joinLines, List.intercalate]
    | cons line' lines =>
      rw [List.flatMap_cons, ← ih (List.cons_ne_nil _ _)]
      simp [joinLines, List.intercalate]

/-- Unbroken lines that were joined are split again. -/
theorem splitlines_joinLines (hne : lines ≠ [])
    (h : ∀ line ∈ lines, ∀ c ∈ line, isLineBreak c = false) :
    splitlines (joinLines lines) = lines := by
  rw [joinLines_eq hne, splitlines_unbroken h]

/-- **The lines of a finalized text.** -/
theorem splitlines_finalizeVodPlaylistText (text : Text) :
    splitlines (finalizeVodPlaylistText text) = finalizeLines (splitlines text) := by
  have hvod : vodLine.all (!isLineBreak ·) = true := rfl
  have hend : endLine.all (!isLineBreak ·) = true := rfl
  refine splitlines_joinLines (finalizeLines_ne_nil _) fun line hline c hc => ?_
  rcases mem_finalizeLines hline with rfl | rfl | hmem
  · simpa using List.all_eq_true.mp hvod c hc
  · simpa using List.all_eq_true.mp hend c hc
  · exact unbroken_of_mem_splitlines hmem c hc

/-- A URI that is written holds no line break, so it stays one line. -/
theorem unbroken_rewriteLine (hid : ∀ c ∈ assetId, isLineBreak c = false) {line : Text}
    (h : ∀ c ∈ line, isLineBreak c = false) :
    ∀ c ∈ rewriteLine assetId line, isLineBreak c = false := by
  have hstrip : ∀ c ∈ strip line, isLineBreak c = false := by
    intro c hc
    have hl : c ∈ lstrip line := (List.rdropWhile_prefix isSpace _).subset hc
    exact h c ((List.dropWhile_suffix isSpace).subset hl)
  have hfront : "/api/assets/".toList.all (!isLineBreak ·) = true := rfl
  have hproxy : "/proxy/".toList.all (!isLineBreak ·) = true := rfl
  unfold rewriteLine
  split_ifs
  · intro c hc
    rcases List.mem_append.mp hc with hc | hc
    · rcases List.mem_append.mp hc with hc | hc
      · rcases List.mem_append.mp hc with hc | hc
        · simpa using List.all_eq_true.mp hfront c hc
        · exact hid c hc
      · simpa using List.all_eq_true.mp hproxy c hc
    · exact hstrip c hc
  · exact h

/-- **Serving a text**: the finalized lines, with their URIs rewritten. -/
theorem rewriteProxyPlaylist_eq (hne : text ≠ []) (hid : ∀ c ∈ assetId, isLineBreak c = false) :
    rewriteProxyPlaylist text assetId =
      joinLines ((finalizeLines (splitlines text)).map (rewriteLine assetId)) := by
  have hlines : splitlines (joinLines ((splitlines text).map (rewriteLine assetId))) =
      (splitlines text).map (rewriteLine assetId) := by
    refine splitlines_joinLines (by simpa using splitlines_ne_nil hne) fun line hline => ?_
    obtain ⟨l, hl, rfl⟩ := List.mem_map.mp hline
    exact unbroken_rewriteLine hid (unbroken_of_mem_splitlines hl)
  rw [rewriteProxyPlaylist, finalizeVodPlaylistText, hlines, finalizeLines_map]

theorem finalizeVodPlaylistText_ne_nil (text : Text) : finalizeVodPlaylistText text ≠ [] := by
  intro hnil
  have h := splitlines_finalizeVodPlaylistText text
  rw [hnil] at h
  exact finalizeLines_ne_nil _ h.symm

/-- **The lines that are served** are those of the finalized text, with their URIs rewritten. -/
theorem splitlines_rewriteProxyPlaylist (hne : text ≠ [])
    (hid : ∀ c ∈ assetId, isLineBreak c = false) :
    splitlines (rewriteProxyPlaylist text assetId) =
      (splitlines (finalizeVodPlaylistText text)).map (rewriteLine assetId) := by
  rw [rewriteProxyPlaylist_eq hne hid, splitlines_finalizeVodPlaylistText]
  refine splitlines_joinLines (by simpa using finalizeLines_ne_nil _) fun line hline => ?_
  obtain ⟨l, hl, rfl⟩ := List.mem_map.mp hline
  rw [← splitlines_finalizeVodPlaylistText] at hl
  exact unbroken_rewriteLine hid (unbroken_of_mem_splitlines hl)

/-- **Finalizing before serving changes nothing.** -/
theorem servedAlike (hne : text ≠ []) (hid : ∀ c ∈ assetId, isLineBreak c = false) :
    ServedAlike text assetId where
  commutes := by
    rw [rewriteProxyPlaylist_eq (finalizeVodPlaylistText_ne_nil text) hid,
      rewriteProxyPlaylist_eq hne hid, splitlines_finalizeVodPlaylistText,
      finalizeLines_finalizeLines]
  uris := splitlines_rewriteProxyPlaylist hne hid

/-! ## Files -/

/-- Line ends are read as line ends. -/
theorem splitlines_readText (text : Text) : splitlines (readText text) = splitlines text := by
  have hfeed : ∀ cs, splitlines ('\n' :: cs) = [] :: splitlines cs := fun cs =>
    splitlines_line (fun _ hc => absurd hc List.not_mem_nil) cs
  induction text using readText.induct with
  | case1 => rfl
  | case2 cs ih => rw [readText, hfeed, splitlines, ih]
  | case3 c cs hne ih =>
    rw [readText]
    · by_cases hc : c = '\r'
      · rw [if_pos hc, hfeed, ih, hc, splitlines, if_pos (by decide)]
        rintro cs' - rfl
        exact hne cs' hc rfl
      · rw [if_neg hc, splitlines_cons hc ih]
    · exact hne

/-- What finalizing removes or adds lists no time. -/
theorem extinf_of_not_other (b : Builtins) {line : Text} (h : isOther line = false) :
    extinf b line = none := by
  unfold extinf
  split_ifs with htime
  · rw [List.isPrefixOf_iff_prefix] at htime
    obtain ⟨rest, rfl⟩ := htime
    have hstrip : strip ("#EXTINF:".toList ++ rest) <+: "#EXTINF:".toList ++ rest :=
      strip_prefix_of_head (c := '#') (by decide)
    -- a line that lists a time would start with two tags
    have hno : ∀ tag : Text, ¬ tag <+: "#EXTINF:".toList → ¬ "#EXTINF:".toList <+: tag →
        tagged tag ("#EXTINF:".toList ++ rest) = false := by
      intro tag hlt hgt
      rw [tagged, ← Bool.not_eq_true, List.isPrefixOf_iff_prefix]
      intro htag
      rcases List.prefix_or_prefix_of_prefix (htag.trans hstrip) (List.prefix_append _ rest) with
        hpre | hpre
      · exact hlt hpre
      · exact hgt hpre
    have hend := hno endLine (by decide) (by decide)
    have htype := hno typeTag (by decide) (by decide)
    rw [isOther_iff.mpr ⟨hend, htype⟩] at h
    exact absurd h (by simp)
  · rfl

/-- **The same times** before and after. -/
theorem extinfs_finalizeVodPlaylistText (b : Builtins) (text : Text) :
    extinfs b (finalizeVodPlaylistText text) = extinfs b text := by
  have hother : ∀ lines : List Text,
      lines.filterMap (extinf b) = (lines.filter isOther).filterMap (extinf b) := by
    intro lines
    rw [List.filterMap_filter]
    refine List.filterMap_congr fun line _ => ?_
    cases h : isOther line with
    | true => rfl
    | false => exact extinf_of_not_other b h
  rw [extinfs, extinfs, splitlines_finalizeVodPlaylistText, hother, filter_other_finalizeLines,
    ← hother]

/-- **Finalizing keeps the content.** -/
theorem keepsContent (h : (splitlines text).countP isPlaylistType ≤ 1) : KeepsContent text where
  oneType := by
    rw [splitlines_finalizeVodPlaylistText]
    exact filter_type_finalizeLines h
  endlistLast := by
    rw [splitlines_finalizeVodPlaylistText]
    exact ⟨_, rfl, fun line hline => isEndlist_of_mem_typed hline⟩
  others := by
    rw [splitlines_finalizeVodPlaylistText]
    exact filter_other_finalizeLines _
  twice := by
    rw [finalizeVodPlaylistText, splitlines_finalizeVodPlaylistText, finalizeLines_finalizeLines]
    rfl
  duration := by
    intro b ops
    have htimes : extinfs b (readText (finalizeVodPlaylist text)) = extinfs b (readText text) := by
      conv_lhs => rw [extinfs, splitlines_readText]
      exact extinfs_finalizeVodPlaylistText b (readText text)
    simp only [fileDurationMs, playlistDurationMs, Option.map_some, htimes]

/-- **VOD playlists keep their content.**  With at most one type line, finalizing gives one that
says `VOD` and one end tag, the last line, and changes neither another line nor the duration;
and the API serves the same playlist before and after. -/
theorem vod_playlists_keep_their_content (hne : text ≠ [])
    (htype : (splitlines text).countP isPlaylistType ≤ 1) :
    KeepsContent text ∧
      ∀ assetId, (∀ c ∈ assetId, isLineBreak c = false) → ServedAlike text assetId :=
  ⟨keepsContent htype, fun _ hid => servedAlike hne hid⟩

/-- A playlist with an end tag, no type line and one segment. -/
theorem vod_playlists_keep_their_content_event :
    let text := "#EXTM3U\n#EXTINF:4.0,\na.ts\n#EXT-X-ENDLIST\n".toList
    KeepsContent text ∧ ServedAlike text ['x'] :=
  have h := vod_playlists_keep_their_content (List.cons_ne_nil _ _) (by decide)
  ⟨h.1, h.2 ['x'] (by simp [isLineBreak])⟩

end Playlist
