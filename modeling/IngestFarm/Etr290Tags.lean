/-
# Escaped tags

Line protocol escapes a comma, an equals sign and a space in the value of a tag by a backslash.
The parser of `ingest_farm/worker/etr290.py` splits at every comma before it unescapes, so that it
sees a value up to its first comma (`seen`); the other pieces have no key that is a plain text
(`not_prefix_piece`).
-/
import IngestFarm.Etr290

namespace Etr290

/-- The characters that are escaped. -/
def isSpecial (c : Char) : Bool := c = ',' ∨ c = '=' ∨ c = ' '

/-- A text without special characters and backslashes, such as one of letters, digits and
underscores. -/
def Plain (l : Text) : Prop := ∀ c ∈ l, isSpecial c = false ∧ c ≠ '\\'

instance (l : Text) : Decidable (Plain l) :=
  inferInstanceAs (Decidable (∀ c ∈ l, isSpecial c = false ∧ c ≠ '\\'))

/-- The value of a tag with a backslash before each special character. -/
def escapeTag : Text → Text
  | [] => []
  | c :: cs => if isSpecial c = true then '\\' :: c :: escapeTag cs else c :: escapeTag cs

/-- A tag of a row. -/
def encodeTag (e : Text × Text) : Text := ',' :: (e.1 ++ '=' :: escapeTag e.2)

/-- The tags as they are split at commas, when `tail` comes after the last of them. -/
def seen (tail : Text) : List (Text × Text) → List (Text × Text)
  | [] => []
  | e :: es =>
    (e.1, (escapeTag e.2 ++ if es = [] then tail else []).takeWhile (· ≠ ',')) :: seen tail es

/-! ## Splitting -/

section Splitting

variable {sep : Char} {l r : Text}

/-- Nothing to cut. -/
theorem cut_of_not_mem (h : sep ∉ l) : cut sep l = (l, none) := by
  induction l with
  | nil => rfl
  | cons c cs ih =>
    rw [List.mem_cons, not_or] at h
    rw [cut, if_neg (Ne.symm h.1), ih h.2]

/-- The cut is at the first separator. -/
theorem cut_append (h : sep ∉ l) : cut sep (l ++ sep :: r) = (l, some r) := by
  induction l with
  | nil => rw [List.nil_append, cut, if_pos rfl]
  | cons c cs ih =>
    rw [List.mem_cons, not_or] at h
    rw [List.cons_append, cut, if_neg (Ne.symm h.1), ih h.2]

/-- Nothing to cut from behind. -/
theorem rcut_of_not_mem (h : sep ∉ l) : rcut sep l = (l, none) := by
  unfold rcut
  rw [cut_of_not_mem (by rwa [List.mem_reverse])]

/-- And from behind at the last one. -/
theorem rcut_append (h : sep ∉ r) : rcut sep (l ++ sep :: r) = (l, some r) := by
  unfold rcut
  have hrev : (l ++ sep :: r).reverse = r.reverse ++ sep :: l.reverse := by simp
  rw [hrev, cut_append (by rwa [List.mem_reverse])]
  dsimp only
  rw [List.reverse_reverse, List.reverse_reverse]

/-- The first piece is the text before the first separator. -/
theorem fields_head (sep : Char) (l : Text) :
    ∃ ps, fields sep l = l.takeWhile (· ≠ sep) :: ps := by
  induction l with
  | nil => exact ⟨[], rfl⟩
  | cons c cs ih =>
    obtain ⟨ps, hps⟩ := ih
    by_cases hc : c = sep
    · refine ⟨fields sep cs, ?_⟩
      rw [fields, if_pos hc, List.takeWhile_cons_of_neg (by simpa using hc)]
    · refine ⟨ps, ?_⟩
      rw [fields, if_neg hc, hps, List.takeWhile_cons_of_pos (by simpa using hc)]

/-- What comes before the first separator is in front of the first piece. -/
theorem fields_prepend (h : sep ∉ l) {p : Text} {ps : List Text} (hr : fields sep r = p :: ps) :
    fields sep (l ++ r) = (l ++ p) :: ps := by
  induction l with
  | nil => exact hr
  | cons c cs ih =>
    rw [List.mem_cons, not_or] at h
    rw [List.cons_append, fields, if_neg (Ne.symm h.1), ih h.2]
    rfl

/-- One field. -/
theorem fields_of_not_mem (h : sep ∉ l) : fields sep l = [l] := by
  have hnil : fields sep [] = [] :: [] := rfl
  have hone := fields_prepend h hnil
  rwa [List.append_nil] at hone

/-- **The pieces of two texts with a separator between them.** -/
theorem fields_append (sep : Char) (l r : Text) :
    fields sep (l ++ sep :: r) = fields sep l ++ fields sep r := by
  induction l with
  | nil =>
    show fields sep (sep :: r) = [] :: fields sep r
    rw [fields, if_pos rfl]
  | cons c cs ih =>
    obtain ⟨ps, hps⟩ := fields_head sep cs
    rw [List.cons_append, fields, fields, ih, hps]
    by_cases hc : c = sep
    · rw [if_pos hc, if_pos hc]
      rfl
    · rw [if_neg hc, if_neg hc]
      rfl

/-- A plain key is read back. -/
theorem keyValue_of_plain {key raw : Text} (h : Plain key) :
    keyValue (key ++ '=' :: raw) = some (key, raw) := by
  unfold keyValue
  rw [cut_append fun hmem => absurd (h _ hmem).1 (by decide)]

/-- A part with an equals sign starts with its key. -/
theorem prefix_of_keyValue {part key raw : Text} (h : keyValue part = some (key, raw)) :
    key ++ ['='] <+: part := by
  have hcut : ∀ (l key raw : Text), cut '=' l = (key, some raw) → key ++ ['='] <+: l := by
    intro l
    induction l with
    | nil => exact fun key raw h => absurd (congrArg Prod.snd h) (by simp [cut])
    | cons c cs ih =>
      intro key raw h
      rw [cut] at h
      split_ifs at h with hc
      · obtain ⟨rfl, -⟩ := Prod.mk.inj h
        rw [hc]
        exact ⟨cs, rfl⟩
      · obtain ⟨rfl, hraw⟩ := Prod.mk.inj h
        exact List.cons_prefix_cons.mpr ⟨rfl, ih _ raw (Prod.ext rfl hraw)⟩
  unfold keyValue at h
  rcases hc : cut '=' part with ⟨before, _ | after⟩ <;> rw [hc] at h
  · exact absurd h (by simp)
  · obtain ⟨rfl, rfl⟩ := Prod.mk.inj (Option.some.inj h)
    exact hcut part _ _ hc

end Splitting

/-! ## Escaping -/

section Escaping

variable {v w tail : Text}

/-- A special character is escaped. -/
theorem escapeTag_special {c : Char} (h : isSpecial c = true) (cs : Text) :
    escapeTag (c :: cs) = '\\' :: c :: escapeTag cs := by
  rw [escapeTag, if_pos h]

/-- Others are not. -/
theorem escapeTag_ordinary {c : Char} (h : isSpecial c = false) (cs : Text) :
    escapeTag (c :: cs) = c :: escapeTag cs := by
  rw [escapeTag, if_neg (by rw [h]; exact Bool.false_ne_true)]

/-- Escaping goes character by character. -/
theorem escapeTag_append (v w : Text) : escapeTag (v ++ w) = escapeTag v ++ escapeTag w := by
  induction v with
  | nil => rfl
  | cons c cs ih =>
    rw [List.cons_append, escapeTag, escapeTag, ih]
    split_ifs
    · rfl
    · rfl

/-- Nothing to escape. -/
theorem escapeTag_of_ordinary (h : ∀ c ∈ w, isSpecial c = false) : escapeTag w = w := by
  induction w with
  | nil => rfl
  | cons c cs ih =>
    rw [escapeTag_ordinary (h c List.mem_cons_self),
      ih fun d hd => h d (List.mem_cons_of_mem _ hd)]

/-- A special character leaves a backslash. -/
theorem backslash_mem_escapeTag {c : Char} (hc : c ∈ w) (h : isSpecial c = true) :
    '\\' ∈ escapeTag w := by
  obtain ⟨w₁, w₂, rfl⟩ := List.append_of_mem hc
  rw [escapeTag_append, escapeTag_special h]
  exact List.mem_append_right _ List.mem_cons_self

/-- Escaping adds backslashes only. -/
theorem mem_of_mem_escapeTag {c : Char} (h : c ∈ escapeTag w) : c = '\\' ∨ c ∈ w := by
  induction w with
  | nil => exact absurd h List.not_mem_nil
  | cons d cs ih =>
    rw [escapeTag] at h
    split_ifs at h
    · rcases List.mem_cons.mp h with h | h
      · exact Or.inl h
      · rcases List.mem_cons.mp h with rfl | h
        · exact Or.inr List.mem_cons_self
        · exact (ih h).imp id (List.mem_cons_of_mem _)
    · rcases List.mem_cons.mp h with rfl | h
      · exact Or.inr List.mem_cons_self
      · exact (ih h).imp id (List.mem_cons_of_mem _)

/-- A character that is no backslash stands for itself. -/
theorem unescape_cons {c : Char} (h : c ≠ '\\') (cs : Text) :
    unescapeInfluxTag (c :: cs) = c :: unescapeInfluxTag cs := by
  rw [unescapeInfluxTag]
  exact fun _ _ hc => absurd hc h

/-- **Unescaping undoes escaping**, in front of any text. -/
theorem unescape_escapeTag (h : '\\' ∉ w) (tail : Text) :
    unescapeInfluxTag (escapeTag w ++ tail) = w ++ unescapeInfluxTag tail := by
  induction w with
  | nil => rfl
  | cons c cs ih =>
    rw [List.mem_cons, not_or] at h
    by_cases hc : isSpecial c = true
    · rw [escapeTag_special hc, List.cons_append, List.cons_append, unescapeInfluxTag, ih h.2]
      rfl
    · rw [escapeTag_ordinary (by simpa using hc), List.cons_append, unescape_cons (Ne.symm h.1),
        ih h.2]
      rfl

/-- A plain key does not begin in an escape. -/
theorem not_prefix_backslash {key l : Text} (hkey : Plain key) : ¬ key ++ ['='] <+: '\\' :: l := by
  rintro ⟨rest, hrest⟩
  have hhead := congrArg List.head? hrest
  cases key with
  | nil => exact absurd hhead (by simp)
  | cons c cs => exact (hkey c List.mem_cons_self).2 (Option.some.inj hhead)

/-- **No plain key** stands before an equals sign at the beginning of an escaped text. -/
theorem not_prefix_escapeTag {key : Text} (hkey : Plain key)
    (htail : ∀ c ∈ tail.head?, isSpecial c = true ∧ c ≠ '=' ∨ c = '\\') :
    ¬ key ++ ['='] <+: escapeTag w ++ tail := by
  induction w generalizing key with
  | nil =>
    rintro ⟨rest, hrest⟩
    have hhead := congrArg List.head? hrest
    cases key with
    | nil =>
      have hc := htail '=' hhead.symm
      exact absurd hc (by decide)
    | cons c cs =>
      have hplain := hkey c List.mem_cons_self
      rcases htail c hhead.symm with hc | hc
      · rw [hplain.1] at hc
        exact absurd hc.1 Bool.false_ne_true
      · exact hplain.2 hc
  | cons d cs ih =>
    by_cases hd : isSpecial d = true
    · rw [escapeTag_special hd]
      exact not_prefix_backslash hkey
    · rw [escapeTag_ordinary (by simpa using hd)]
      cases key with
      | nil =>
        intro hpre
        have hdeq := (List.cons_prefix_cons.mp hpre).1
        rw [← hdeq] at hd
        exact hd (by decide)
      | cons c ks =>
        intro hpre
        exact ih (fun c' hc' => hkey c' (List.mem_cons_of_mem _ hc'))
          (List.cons_prefix_cons.mp hpre).2

/-- **No piece of an escaped text** has a plain key. -/
theorem not_prefix_piece {key p : Text} (hkey : Plain key) (hcomma : ',' ∉ tail)
    (htail : ∀ c ∈ tail.head?, isSpecial c = true ∧ c ≠ '=' ∨ c = '\\')
    (hp : p ∈ fields ',' (escapeTag w ++ tail)) : ¬ key ++ ['='] <+: p := by
  induction w generalizing p with
  | nil =>
    rw [escapeTag, List.nil_append, fields_of_not_mem hcomma, List.mem_singleton] at hp
    rw [hp]
    exact not_prefix_escapeTag (w := []) hkey htail
  | cons d cs ih =>
    obtain ⟨ps, hps⟩ := fields_head ',' (escapeTag cs ++ tail)
    have hrest : ∀ q ∈ ps, ¬ key ++ ['='] <+: q :=
      fun q hq => ih (by rw [hps]; exact List.mem_cons_of_mem _ hq)
    by_cases hd : isSpecial d = true
    · rw [escapeTag_special hd, List.cons_append, List.cons_append] at hp
      by_cases hcom : d = ','
      · rw [hcom, show '\\' :: ',' :: (escapeTag cs ++ tail) =
          ['\\'] ++ ',' :: (escapeTag cs ++ tail) from rfl, fields_append] at hp
        rcases List.mem_append.mp hp with hp | hp
        · rw [fields_of_not_mem (by decide), List.mem_singleton] at hp
          rw [hp]
          exact not_prefix_backslash hkey
        · exact ih hp
      · have hpieces := fields_prepend (l := ['\\', d]) (by simpa using Ne.symm hcom) hps
        rcases List.mem_cons.mp (hpieces ▸ hp) with rfl | hp
        · exact not_prefix_backslash hkey
        · exact hrest p hp
    · rw [escapeTag_ordinary (by simpa using hd)] at hp
      have hcom : ',' ∉ [d] := by
        rw [List.mem_singleton]
        rintro rfl
        exact hd (by decide)
      rcases List.mem_cons.mp (fields_prepend hcom hps ▸ hp) with rfl | hp
      · have hno : ¬ key ++ ['='] <+: escapeTag (d :: cs) ++ tail :=
          not_prefix_escapeTag hkey htail
        rw [escapeTag_ordinary (by simpa using hd)] at hno
        exact fun hpre => hno
          (hpre.trans (List.cons_prefix_cons.mpr ⟨rfl, List.takeWhile_prefix _⟩))
      · exact hrest p hp

/-- **A value up to its first comma**, which leaves a backslash behind. -/
theorem takeWhile_escapeTag (hcomma : ',' ∉ tail) :
    (escapeTag w ++ tail).takeWhile (· ≠ ',') =
      if ',' ∈ w then escapeTag (w.takeWhile (· ≠ ',')) ++ ['\\'] else escapeTag w ++ tail := by
  induction w with
  | nil =>
    rw [if_neg List.not_mem_nil, escapeTag, List.nil_append, List.takeWhile_eq_self_iff]
    exact fun c hc => by simpa using fun h : c = ',' => hcomma (h ▸ hc)
  | cons d cs ih =>
    by_cases hcom : d = ','
    · subst hcom
      rw [if_pos List.mem_cons_self, escapeTag_special (by decide),
        List.takeWhile_cons_of_neg (by decide), escapeTag, List.cons_append, List.cons_append,
        List.takeWhile_cons_of_pos (by decide), List.takeWhile_cons_of_neg (by decide)]
      rfl
    · have hiff : ',' ∈ d :: cs ↔ ',' ∈ cs := by
        rw [List.mem_cons]
        exact or_iff_right (Ne.symm hcom)
      have htake : ∀ l : Text, (d :: l).takeWhile (· ≠ ',') = d :: l.takeWhile (· ≠ ',') :=
        fun l => List.takeWhile_cons_of_pos (decide_eq_true hcom)
      by_cases hd : isSpecial d = true
      · rw [escapeTag_special hd, List.cons_append, List.cons_append,
          List.takeWhile_cons_of_pos (by decide), htake, ih, htake, escapeTag_special hd]
        simp only [hiff]
        split_ifs
        · rfl
        · rfl
      · have hord : isSpecial d = false := by simpa using hd
        rw [escapeTag_ordinary hord, List.cons_append, htake, ih, htake, escapeTag_ordinary hord]
        simp only [hiff]
        split_ifs
        · rfl
        · rfl

end Escaping

/-! ## Tags of a text -/

section Tags

variable {name v tail : Text} {es : List (Text × Text)}

/-- Pieces without the key. -/
theorem filter_keyValue_eq_nil {ps : List Text} (h : ∀ p ∈ ps, ¬ name ++ ['='] <+: p) :
    (ps.filterMap keyValue).filter (fun kv => kv.1 = name) = [] := by
  rw [List.filter_eq_nil_iff]
  intro kv hkv
  obtain ⟨p, hp, hkey⟩ := List.mem_filterMap.mp hkv
  rw [decide_eq_true_eq]
  rintro rfl
  exact h p hp (prefix_of_keyValue hkey)

/-- What stands before the separator does not see what follows. -/
theorem takeWhile_append_sep {α : Type} {p : α → Bool} {l r : List α} {c : α} (h : p c = false) :
    (l ++ c :: r).takeWhile p = l.takeWhile p := by
  induction l with
  | nil => rw [List.nil_append, List.takeWhile_cons_of_neg (by rw [h]; decide), List.takeWhile_nil]
  | cons d l ih => rw [List.cons_append, List.takeWhile_cons, List.takeWhile_cons, ih]

/-- The tags of a line, one after another. -/
theorem flatMap_encodeTag_cons (e : Text × Text) (es : List (Text × Text)) :
    (e :: es).flatMap encodeTag =
      ',' :: (e.1 ++ '=' :: (escapeTag e.2 ++ es.flatMap encodeTag)) := by
  rw [List.flatMap_cons, encodeTag]
  simp

/-- **The tags of a text under a plain name** are those that are seen. -/
theorem filter_keyValue_eq (hname : Plain name) (hcomma : ',' ∉ tail)
    (htail : ∀ c ∈ tail.head?, isSpecial c = true ∧ c ≠ '=' ∨ c = '\\')
    (hkeys : ∀ e ∈ es, Plain e.1) :
    ((fields ',' (escapeTag v ++ es.flatMap encodeTag ++ tail)).filterMap keyValue).filter
      (fun kv => kv.1 = name) = (seen tail es).filter fun kv => kv.1 = name := by
  induction es generalizing v with
  | nil =>
    rw [List.flatMap_nil, List.append_nil]
    exact filter_keyValue_eq_nil fun p => not_prefix_piece hname hcomma htail
  | cons e es ih =>
    have hkey : Plain e.1 := hkeys e List.mem_cons_self
    have hrest := ih (v := e.2) fun e' he' => hkeys e' (List.mem_cons_of_mem _ he')
    obtain ⟨ps, hps⟩ := fields_head ',' (escapeTag e.2 ++ es.flatMap encodeTag ++ tail)
    have hpiece : (escapeTag e.2 ++ es.flatMap encodeTag ++ tail).takeWhile (· ≠ ',') =
        (escapeTag e.2 ++ if es = [] then tail else []).takeWhile (· ≠ ',') := by
      cases es with
      | nil => rw [if_pos rfl, List.flatMap_nil, List.append_nil]
      | cons e' es =>
        rw [if_neg (List.cons_ne_nil e' es), List.append_nil, flatMap_encodeTag_cons,
          List.append_assoc, List.cons_append]
        exact takeWhile_append_sep (by decide)
    rw [hpiece] at hps
    -- the piece of the value is not a tag itself
    have hnot : ¬ name ++ ['='] <+: (escapeTag e.2 ++ if es = [] then tail else []).takeWhile
        (· ≠ ',') := by
      have hno : ¬ name ++ ['='] <+: escapeTag e.2 ++ (es.flatMap encodeTag ++ tail) := by
        apply not_prefix_escapeTag hname
        cases es with
        | nil => exact htail
        | cons e' es =>
          rw [flatMap_encodeTag_cons]
          rintro c ⟨⟩
          exact Or.inl (by decide)
      rw [← hpiece, List.append_assoc]
      exact fun hpre => hno (hpre.trans (List.takeWhile_prefix _))
    have hcut : (fields ',' (escapeTag v ++ (e :: es).flatMap encodeTag ++ tail)) =
        fields ',' (escapeTag v ++ []) ++
          (e.1 ++ '=' :: (escapeTag e.2 ++ if es = [] then tail else []).takeWhile (· ≠ ',')) ::
            ps := by
      rw [flatMap_encodeTag_cons, List.append_assoc, List.cons_append, fields_append,
        List.append_nil]
      congr 1
      have hno : ',' ∉ e.1 ++ ['='] := by
        rw [List.mem_append, List.mem_singleton, not_or]
        exact ⟨fun hmem => absurd (hkey _ hmem).1 (by decide), by decide⟩
      have hpre := fields_prepend hno hps
      simp only [List.append_assoc, List.cons_append, List.nil_append] at hpre ⊢
      exact hpre
    have hmore : (ps.filterMap keyValue).filter (fun kv => kv.1 = name) =
        (seen tail es).filter fun kv => kv.1 = name := by
      rw [← hrest, hps, List.filterMap_cons]
      rcases hkv : keyValue _ with _ | kv
      · rfl
      · dsimp only
        rw [List.filter_cons_of_neg]
        rw [decide_eq_true_eq]
        rintro rfl
        exact hnot (prefix_of_keyValue hkv)
    rw [hcut, List.filterMap_append, List.filter_append,
      filter_keyValue_eq_nil fun p => not_prefix_piece hname List.not_mem_nil (by simp),
      List.nil_append, List.filterMap_cons, keyValue_of_plain hkey, seen]
    dsimp only
    rw [List.filter_cons, List.filter_cons, hmore]

end Tags

end Etr290
