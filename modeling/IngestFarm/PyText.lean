/-
# Python text

`str.isspace`, `str.strip`, `str.rstrip`, `str.split(maxsplit=1)` and `str.splitlines` on
texts as lists of characters, with the character classes of the Python documentation.  A
clean text has no line break and no white space at either end: these are the lines that
survive being written to a text file and read back line by line.
-/
import Mathlib

namespace PyText

/-- `str.isspace` of one character. -/
def isSpace (c : Char) : Bool :=
  c.toNat ∈ [9, 10, 11, 12, 13, 28, 29, 30, 31, 32, 133, 160, 5760, 8232, 8233, 8239, 8287, 12288]
    || (8192 ≤ c.toNat && c.toNat ≤ 8202)

/-- The boundaries of `str.splitlines`. -/
def isLineBreak (c : Char) : Bool := c.toNat ∈ [10, 11, 12, 13, 28, 29, 30, 133, 8232, 8233]

/-- `str.lstrip()`. -/
def lstrip (l : List Char) : List Char := l.dropWhile isSpace

/-- `str.rstrip()`. -/
def rstrip (l : List Char) : List Char := l.rdropWhile isSpace

/-- `str.strip()`. -/
def strip (l : List Char) : List Char := rstrip (lstrip l)

/-- `split(maxsplit=1)`: the first word and, if there is more, the rest. -/
def splitOnce (l : List Char) : List (List Char) :=
  let l := lstrip l
  if l = [] then []
  else
    let word := l.takeWhile fun c => !isSpace c
    let rest := lstrip (l.dropWhile fun c => !isSpace c)
    if rest = [] then [word] else [word, rest]

/-- `splitlines()`; a carriage return and the line feed after it are one boundary. -/
def splitlines : List Char → List (List Char)
  | [] => []
  | '\r' :: '\n' :: cs => [] :: splitlines cs
  | c :: cs =>
    if isLineBreak c = true then [] :: splitlines cs
    else
      match splitlines cs with
      | [] => [[c]]
      | l :: ls => (c :: l) :: ls

/-- A line that is the same after writing and reading. -/
structure Clean (l : List Char) : Prop where
  nonempty : l ≠ []
  unbroken : ∀ c ∈ l, isLineBreak c = false
  head : ∀ c ∈ l.head?, isSpace c = false
  last : ∀ c ∈ l.getLast?, isSpace c = false

/-! ## Stripping -/

/-- Nothing to strip on the left. -/
theorem lstrip_of_head {l : List Char} (h : ∀ c ∈ l.head?, isSpace c = false) : lstrip l = l := by
  cases l with
  | nil => rfl
  | cons c cs =>
    rw [lstrip, List.dropWhile_cons_of_neg]
    simpa using h c rfl

/-- Nothing to strip on the right. -/
theorem rstrip_of_last {l : List Char} (h : ∀ c ∈ l.getLast?, isSpace c = false) :
    rstrip l = l := by
  rw [rstrip, List.rdropWhile_eq_self_iff]
  intro hl
  simpa using h _ (List.getLast?_eq_some_getLast hl)

/-- **A clean line has nothing to strip.** -/
theorem Clean.strip {l : List Char} (h : Clean l) : PyText.strip l = l := by
  rw [PyText.strip, lstrip_of_head h.head, rstrip_of_last h.last]

/-- A text with a visible character does not strip to nothing. -/
theorem strip_ne_nil {l : List Char} (h : ∃ c ∈ l, isSpace c = false) : PyText.strip l ≠ [] := by
  obtain ⟨c, hc, hsp⟩ := h
  intro hnil
  rw [PyText.strip, rstrip, List.rdropWhile_eq_nil_iff] at hnil
  have hmem : c ∈ lstrip l := by
    rw [← List.takeWhile_append_dropWhile (p := isSpace) (l := l), List.mem_append] at hc
    rcases hc with hc | hc
    · exact absurd (List.mem_takeWhile_imp hc) (by simp [hsp])
    · exact hc
  exact absurd (hnil c hmem) (by simp [hsp])

/-- A stripped text does not begin with white space. -/
theorem head_strip {l : List Char} : ∀ c ∈ (strip l).head?, isSpace c = false := by
  intro c hc
  have hhead : c ∈ (lstrip l).head? := by
    obtain ⟨t, ht⟩ : strip l <+: lstrip l := List.rdropWhile_prefix isSpace _
    have hne : strip l ≠ [] := by
      rintro hnil
      rw [hnil] at hc
      exact absurd hc (by simp)
    rw [← ht, List.head?_append_of_ne_nil _ hne]
    exact hc
  have hnot := List.head?_dropWhile_not isSpace l
  rw [lstrip] at hhead
  rw [Option.mem_def.mp hhead] at hnot
  exact hnot

/-- Nor does it end with it. -/
theorem last_strip {l : List Char} : ∀ c ∈ (strip l).getLast?, isSpace c = false := by
  intro c hc
  have hne : strip l ≠ [] := by
    rintro hnil
    rw [hnil] at hc
    exact absurd hc (by simp)
  have hlast := List.rdropWhile_last_not isSpace (lstrip l) hne
  rw [List.getLast?_eq_some_getLast hne] at hc
  obtain rfl := Option.some.inj hc
  simpa [strip, rstrip] using hlast

/-- **Stripping twice is stripping once.** -/
theorem strip_strip (l : List Char) : strip (strip l) = strip l := by
  conv_lhs => rw [strip]
  rw [lstrip_of_head head_strip, rstrip_of_last last_strip]

/-- Visible characters put in front of a stripped text leave nothing to strip. -/
theorem strip_append_strip {p l : List Char} (hp : ∀ c ∈ p, isSpace c = false) :
    strip (p ++ strip l) = p ++ strip l := by
  have hhead : ∀ c ∈ (p ++ strip l).head?, isSpace c = false := by
    intro c hc
    cases p with
    | nil => exact head_strip c hc
    | cons a p =>
      obtain rfl := Option.some.inj hc
      exact hp a (List.mem_cons_self ..)
  have hlast : ∀ c ∈ (p ++ strip l).getLast?, isSpace c = false := by
    intro c hc
    by_cases hnil : strip l = []
    · rw [hnil, List.append_nil] at hc
      exact hp c (List.mem_of_getLast? hc)
    · rw [List.getLast?_append_of_ne_nil _ hnil] at hc
      exact last_strip c hc
  conv_lhs => rw [strip]
  rw [lstrip_of_head hhead, rstrip_of_last hlast]

/-- A visible first character stays in front. -/
theorem strip_prefix_of_head {c : Char} {cs : List Char} (hc : isSpace c = false) :
    strip (c :: cs) <+: c :: cs := by
  have hhead : lstrip (c :: cs) = c :: cs := lstrip_of_head (by simpa using hc)
  rw [strip, hhead]
  exact List.rdropWhile_prefix isSpace _

/-! ## Lines -/

/-- An unbroken line before a line feed is the first line. -/
theorem splitlines_line {l : List Char} (h : ∀ c ∈ l, isLineBreak c = false) (rest : List Char) :
    splitlines (l ++ '\n' :: rest) = l :: splitlines rest := by
  induction l with
  | nil => rw [List.nil_append]; simp [splitlines, isLineBreak]
  | cons c cs ih =>
    have hc : isLineBreak c = false := h c (List.mem_cons_self ..)
    have hcr : c ≠ '\r' := by
      rintro rfl
      exact absurd hc (by decide)
    have hrest := ih fun d hd => h d (List.mem_cons_of_mem _ hd)
    rw [List.cons_append, splitlines]
    · simp [hc, hrest]
    · intro cs' hcs
      exact absurd hcs hcr

/-- Unbroken lines, each ended by a line feed, are split back. -/
theorem splitlines_unbroken {ls : List (List Char)}
    (h : ∀ l ∈ ls, ∀ c ∈ l, isLineBreak c = false) :
    splitlines (ls.flatMap fun l => l ++ ['\n']) = ls := by
  induction ls with
  | nil => rfl
  | cons l ls ih =>
    rw [List.flatMap_cons, List.append_assoc, List.singleton_append,
      splitlines_line (h l (List.mem_cons_self ..)),
      ih fun l' hl' => h l' (List.mem_cons_of_mem _ hl')]

/-- **Lines survive.**  Clean lines, each ended by a line feed, are split back. -/
theorem splitlines_flatMap {ls : List (List Char)} (h : ∀ l ∈ ls, Clean l) :
    splitlines (ls.flatMap fun l => l ++ ['\n']) = ls :=
  splitlines_unbroken fun l hl => (h l hl).unbroken

/-- A text that is not empty has a line. -/
theorem splitlines_ne_nil {text : List Char} (h : text ≠ []) : splitlines text ≠ [] := by
  cases text using splitlines.fun_cases with
  | case1 => exact absurd rfl h
  | case2 cs => simp [splitlines]
  | case3 c cs hne hbreak =>
    rw [splitlines, if_pos hbreak]
    · exact List.cons_ne_nil _ _
    · exact hne
  | case4 c cs hne hbreak hnil =>
    rw [splitlines, if_neg hbreak, hnil]
    · exact List.cons_ne_nil _ _
    · exact hne
  | case5 c cs hne hbreak l ls hsplit =>
    rw [splitlines, if_neg hbreak, hsplit]
    · exact List.cons_ne_nil _ _
    · exact hne

/-- A character that ends no line with the next one goes with the lines after it. -/
theorem splitlines_cons {c : Char} {cs cs' : List Char} (hc : c ≠ '\r')
    (hcs : splitlines cs = splitlines cs') : splitlines (c :: cs) = splitlines (c :: cs') := by
  rw [splitlines, splitlines, hcs]
  · intro _ hcr
    exact absurd hcr hc
  · intro _ hcr
    exact absurd hcr hc

/-- The lines that `splitlines` gives have no line break. -/
theorem unbroken_of_mem_splitlines {body line : List Char} (h : line ∈ splitlines body) :
    ∀ c ∈ line, isLineBreak c = false := by
  induction body using splitlines.induct generalizing line with
  | case1 => exact absurd h List.not_mem_nil
  | case2 cs ih =>
    rw [splitlines] at h
    rcases List.mem_cons.mp h with rfl | h
    · exact fun _ hc => absurd hc List.not_mem_nil
    · exact ih h
  | case3 c cs hne hbreak ih =>
    rw [splitlines, if_pos hbreak] at h
    · rcases List.mem_cons.mp h with rfl | h
      · exact fun _ hc => absurd hc List.not_mem_nil
      · exact ih h
    · exact hne
  | case4 c cs hne hbreak hnil ih =>
    rw [splitlines, if_neg hbreak, hnil] at h
    · obtain rfl := List.mem_singleton.mp h
      rintro d hd
      obtain rfl := List.mem_singleton.mp hd
      simpa using hbreak
    · exact hne
  | case5 c cs hne hbreak l ls hsplit ih =>
    rw [splitlines, if_neg hbreak, hsplit] at h
    · rw [hsplit] at ih
      rcases List.mem_cons.mp h with rfl | h
      · intro d hd
        rcases List.mem_cons.mp hd with rfl | hd
        · simpa using hbreak
        · exact ih List.mem_cons_self d hd
      · exact ih (List.mem_cons_of_mem _ h)
    · exact hne

/-! ## Words -/

/-- A text that starts with a visible word has it in front of the split. -/
theorem takeWhile_word {w : List Char} (hw : ∀ c ∈ w, isSpace c = false) (rest : List Char) :
    (w ++ rest).takeWhile (fun c => !isSpace c) = w ++ rest.takeWhile (fun c => !isSpace c) ∧
      (w ++ rest).dropWhile (fun c => !isSpace c) = rest.dropWhile fun c => !isSpace c := by
  have hall : ∀ c ∈ w, (!isSpace c) = true := fun c hc => by simp [hw c hc]
  exact ⟨List.takeWhile_append_of_pos hall, List.dropWhile_append_of_pos hall⟩

/-- **A visible word, a blank and a clean text** are split at the blank. -/
theorem splitOnce_pair {w d : List Char} (hne : w ≠ []) (hw : ∀ c ∈ w, isSpace c = false)
    (hd : Clean d) : splitOnce (w ++ ' ' :: d) = [w, d] := by
  have hblank : isSpace ' ' = true := by decide
  have hl : lstrip (w ++ ' ' :: d) = w ++ ' ' :: d := by
    refine lstrip_of_head fun c hc => ?_
    rw [List.head?_append_of_ne_nil _ hne] at hc
    exact hw c (List.mem_of_mem_head? hc)
  have h := takeWhile_word hw (' ' :: d)
  have hrest : lstrip (' ' :: d) = d := by
    rw [lstrip, List.dropWhile_cons_of_pos hblank]
    exact lstrip_of_head hd.head
  rw [splitOnce]
  simp [hl, h, hblank, hrest, hd.nonempty]

end PyText
