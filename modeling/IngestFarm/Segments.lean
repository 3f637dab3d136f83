/-
# Segments in order

The capture names its files `segment_%05d.ts`, and `LocalStorage.list_segments` sorts names.
The names of five digits sort as their numbers do; the name of segment 100000 comes before that
of segment 99999.  So the master is the capture in order exactly up to 100000 segments
(`inOrder_iff`).
-/
import IngestFarm.Cataloging
import IngestFarm.Padded

open Prog

namespace PostProcess

/-- The name that the capture gives to its segment `i`. -/
def segmentName (i : ℕ) : String :=
  String.ofList ("segment_".toList ++ (padded 5 i ++ ".ts".toList))

/-- The matching names of a directory are those of the first `n` segments. -/
def Directory.Captured (d : Directory) (n : ℕ) : Prop :=
  ∀ name, isSegmentName name = true → (name ∈ d.files ↔ ∃ i < n, name = segmentName i)

/-- The files alone, without rows. -/
def Archive.ofMedia (media : SessionDir → Directory) : Archive := ⟨∅, [], media, []⟩

/-- The segments are listed in the order of their numbers, and what is concatenated from two or
more of them, whenever that returns, is their contents in that order. -/
structure InOrder (media : SessionDir → Directory) (dir : SessionDir) (n : ℕ) : Prop where
  listed : (media dir).listSegments = (List.range n).map segmentName
  returns : (exec allOk (concatMpegtsSegments dir (media dir).listSegments)
    (.ofMedia media)).1.isOk = true
  master : 2 ≤ n → ∀ o name w',
    exec o (concatMpegtsSegments dir (media dir).listSegments) (.ofMedia media) = (.ok name, w') →
      (w'.media dir).files.lookup name =
        some ((List.range n).flatMap fun i => (media dir).content (segmentName i))

/-! ## Names -/

/-- The name of a segment, character by character. -/
theorem toList_segmentName (i : ℕ) :
    (segmentName i).toList = "segment_".toList ++ (padded 5 i ++ ".ts".toList) :=
  String.toList_ofList

/-- It is that of a segment. -/
theorem isSegmentName_segmentName (i : ℕ) : isSegmentName (segmentName i) = true := by
  have hpre : "segment_".toList <+: (segmentName i).toList := by
    rw [toList_segmentName]
    exact List.prefix_append _ _
  have hsuf : ".ts".toList <:+ (segmentName i).toList := by
    rw [toList_segmentName, ← List.append_assoc]
    exact List.suffix_append _ _
  have hlen : "segment_".length + ".ts".length ≤ (segmentName i).length := by
    rw [← String.length_toList, ← String.length_toList, ← String.length_toList,
      toList_segmentName, List.length_append, List.length_append]
    omega
  unfold isSegmentName
  rw [List.isPrefixOf_iff_prefix.mpr hpre, List.isSuffixOf_iff_suffix.mpr hsuf,
    decide_eq_true hlen]
  rfl

/-- **Five digits sort as numbers do.** -/
theorem segmentName_lt {i j : ℕ} (hij : i < j) (hj : j < 100000) :
    segmentName i < segmentName j := by
  have hj' : j < 10 ^ 5 := hj
  have hlt := padded_lt_padded hij hj' (by decide)
  rw [String.lt_iff_toList_lt, toList_segmentName, toList_segmentName]
  apply append_lt_append_left
  apply append_lt_append_of_lt hlt
  rw [length_padded (hij.trans hj') (by decide), length_padded hj' (by decide)]

/-- The sixth digit does not. -/
theorem segmentName_not_le : ¬ segmentName 99999 ≤ segmentName 100000 := by
  rw [String.le_iff_toList_le, toList_segmentName, toList_segmentName]
  decide

/-! ## Listing -/

section Listing

variable {d : Directory} {n : ℕ}

/-- **Five digits sort as numbers**, up to a hundred thousand. -/
theorem sorted_segmentNames (hn : n ≤ 100000) :
    ((List.range n).map segmentName).Pairwise (· < ·) := by
  rw [List.pairwise_map]
  refine List.Pairwise.imp_of_mem ?_ List.pairwise_lt_range
  intro i j _ hj hij
  exact segmentName_lt hij ((List.mem_range.mp hj).trans_le hn)

/-- The list is that of the names, in some order. -/
theorem Directory.Captured.perm (h : d.Captured n) (hn : n ≤ 100000) :
    d.listSegments.Perm ((List.range n).map segmentName) := by
  have hnodup : d.listSegments.Nodup := by
    unfold Directory.listSegments
    rw [(List.perm_insertionSort (· ≤ ·) _).nodup_iff]
    exact d.files.keys_nodup.filter _
  rw [List.perm_ext_iff_of_nodup hnodup ((sorted_segmentNames hn).imp ne_of_lt)]
  intro name
  rw [mem_listSegments, List.mem_map]
  constructor
  · rintro ⟨hseg, hmem⟩
    obtain ⟨i, hi, rfl⟩ := (h name hseg).mp hmem
    exact ⟨i, List.mem_range.mpr hi, rfl⟩
  · rintro ⟨i, hi, rfl⟩
    have hseg := isSegmentName_segmentName i
    exact ⟨hseg, (h _ hseg).mpr ⟨i, List.mem_range.mp hi, rfl⟩⟩

/-- The listing is sorted by name. -/
theorem sortedLE_listSegments (d : Directory) : d.listSegments.SortedLE :=
  List.sortedLE_insertionSort

/-- **Up to 100000 segments, the list is in order.** -/
theorem Directory.Captured.listSegments_eq (h : d.Captured n) (hn : n ≤ 100000) :
    d.listSegments = (List.range n).map segmentName :=
  (h.perm hn).eq_of_sortedLE (sortedLE_listSegments d)
    ((sorted_segmentNames hn).imp le_of_lt).sortedLE

/-- Beyond that it is not. -/
theorem listSegments_ne (hn : 100000 < n) :
    d.listSegments ≠ (List.range n).map segmentName := by
  intro h
  have hsorted := (sortedLE_listSegments d).pairwise
  rw [h, List.pairwise_map, List.pairwise_iff_getElem] at hsorted
  have hle := hsorted 99999 100000 (by simp; omega) (by simpa using hn) (by decide)
  rw [List.getElem_range, List.getElem_range] at hle
  exact segmentName_not_le hle

end Listing

/-! ## Concatenation -/

/-- An archive that is only files. -/
theorem consistent_ofMedia (media : SessionDir → Directory) :
    Consistent (.ofMedia media) (.ofMedia media) := by
  refine ⟨rfl, fun _ => rfl, fun _ _ _ => rfl, List.nodup_nil, fun _ h => h, ?_, ?_⟩
  · exact fun _ he => absurd he List.not_mem_nil
  · exact fun _ ha => absurd ha List.not_mem_nil

/-- Where there are segments, the master is the concatenation. -/
theorem concat_eq_masterOf (dir : SessionDir) (seg : String) (rest : List String) :
    concatMpegtsSegments dir (seg :: rest) = masterOf dir seg rest := by
  cases rest with
  | nil => rfl
  | cons seg' rest => rfl

section Concat

variable {media : SessionDir → Directory} {dir : SessionDir}

/-- **What is concatenated is what is listed.** -/
theorem keeps_concat (o : Oracle ArchiveCall) (hne : (media dir).listSegments ≠ []) :
    Keeps o (.ofMedia media) (concatMpegtsSegments dir (media dir).listSegments)
      (fun name w' => (w'.media dir).files.lookup name =
        some ((media dir).listSegments.flatMap (media dir).content)) 0 (.ofMedia media) := by
  rcases hsegs : (media dir).listSegments with _ | ⟨seg, rest⟩
  · exact absurd hsegs hne
  · have hmerged : (media dir).merged = some ((seg :: rest).flatMap (media dir).content) := by
      unfold Directory.merged
      rw [if_neg hne, hsegs]
    rw [concat_eq_masterOf, ← hmerged]
    exact wp_mono (keeps_masterOf (consistent_ofMedia media) hsegs) (fun _ _ _ h => h.2)
      (fun _ _ _ h => h) (fun _ h => h)

theorem not_failing_allOk : ¬ Failing allOk := by
  rintro ⟨n, k, h⟩
  exact absurd h (by simp [allOk])

theorem not_mayCrash_allOk : ¬ MayCrash (allOk (κ := ArchiveCall)) := by
  rintro ⟨n, k, h⟩
  exact absurd h (by simp [allOk])

/-- Nothing but a failing call or a kill keeps the concatenation from its end. -/
theorem concat_returns (hne : (media dir).listSegments ≠ []) :
    (exec allOk (concatMpegtsSegments dir (media dir).listSegments)
      (.ofMedia media)).1.isOk = true := by
  have h := keeps_concat allOk hne
  unfold Keeps wp at h
  unfold exec
  rcases hrun : concatMpegtsSegments dir (media dir).listSegments allOk 0 (.ofMedia media) with
    ⟨(e | _) | name, n', w'⟩ <;> rw [hrun] at h
  · exact absurd h.2 not_failing_allOk
  · exact absurd h.2 not_mayCrash_allOk
  · rfl

/-- The master that comes out has the bytes of the listing, in its order. -/
theorem concat_master (hne : (media dir).listSegments ≠ []) {o : Oracle ArchiveCall}
    {name : String} {w' : Archive}
    (hrun : exec o (concatMpegtsSegments dir (media dir).listSegments) (.ofMedia media) =
      (.ok name, w')) :
    (w'.media dir).files.lookup name =
      some ((media dir).listSegments.flatMap (media dir).content) := by
  have h := keeps_concat o hne
  unfold exec at hrun
  obtain ⟨hres, rfl⟩ := Prod.mk.inj hrun
  unfold Keeps wp at h
  rcases hm : concatMpegtsSegments dir (media dir).listSegments o 0 (.ofMedia media) with
    ⟨(e | _) | name', n', t⟩ <;> rw [hm] at h hres
  · exact absurd hres (by simp)
  · exact absurd hres (by simp)
  · obtain rfl := Except.ok.inj hres
    exact h

end Concat

/-! ## The limit -/

/-- **The master is the capture in order exactly up to 100000 segments**, whatever the segments
contain and whatever else lies in the directory. -/
theorem inOrder_iff (media : SessionDir → Directory) (dir : SessionDir) (n : ℕ) (hn : 1 ≤ n)
    (h : (media dir).Captured n) : InOrder media dir n ↔ n ≤ 100000 := by
  constructor
  · intro ho
    by_contra hlarge
    exact listSegments_ne (not_le.mp hlarge) ho.listed
  · intro hle
    have hlist := h.listSegments_eq hle
    have hne : (media dir).listSegments ≠ [] := by
      rw [hlist]
      simp
      omega
    refine ⟨hlist, concat_returns hne, fun _ o name w' hrun => ?_⟩
    rw [concat_master hne hrun, hlist, List.flatMap_map]

/-- A directory with the first `n` segments, each of one byte that counts them. -/
def capture (n : ℕ) : Directory :=
  ⟨(List.range n).foldl (fun files i => Dict.set (segmentName i) [UInt8.ofNat i] files) ∅, ∅⟩

/-- The segments that were captured. -/
theorem mem_capture (n : ℕ) (name : String) :
    name ∈ (capture n).files ↔ ∃ i < n, name = segmentName i := by
  unfold capture
  induction n with
  | zero => simp
  | succ n ih =>
    rw [List.range_succ, List.foldl_append, List.foldl_cons, List.foldl_nil]
    dsimp only at ih ⊢
    rw [Dict.mem_set, ih]
    constructor
    · rintro (rfl | ⟨i, hi, rfl⟩)
      · exact ⟨n, by omega, rfl⟩
      · exact ⟨i, by omega, rfl⟩
    · rintro ⟨i, hi, rfl⟩
      rcases Nat.lt_succ_iff_lt_or_eq.mp hi with hi | rfl
      · exact Or.inr ⟨i, hi, rfl⟩
      · exact Or.inl rfl

/-- And no others. -/
theorem captured_capture (n : ℕ) : (capture n).Captured n := fun name _ => mem_capture n name

/-- Two segments with different bytes, which are the media of the master. -/
theorem inOrder_iff_two : (capture 2).files.lookup (segmentName 0) = some [0] ∧
    (capture 2).files.lookup (segmentName 1) = some [1] ∧
    InOrder (fun _ => capture 2) ⟨.str "lobby", 0⟩ 2 :=
  ⟨by decide, by decide,
    (inOrder_iff _ ⟨.str "lobby", 0⟩ 2 (by decide) (captured_capture 2)).mpr (by decide)⟩

/-- **100001 segments are not in order.** -/
theorem long_capture_out_of_order : ¬ ∀ (media : SessionDir → Directory) (dir : SessionDir) (n : ℕ),
    1 ≤ n → (media dir).Captured n → InOrder media dir n := by
  intro h
  have ho := h (fun _ => capture 100001) ⟨.str "lobby", 0⟩ 100001 (by decide)
    (captured_capture 100001)
  exact listSegments_ne (by decide) ho.listed

end PostProcess
