/-
# Searching in lists

`str.split(sep, 1)`, `sep in s` and `s.replace(old, "")` for a separator of several
characters, on lists over any type with decidable equality.

* `splitAt`: what comes before the first occurrence, and what comes after it;
* `Occurs`: the pattern is a contiguous part;
* `remove`: every occurrence is dropped, from left to right and without overlaps.
-/
import Mathlib

namespace Searching

variable {α : Type} [DecidableEq α]

/-- The part before the first occurrence of `sep` and, if there is one, the part after it. -/
def splitAt (sep : List α) : List α → List α × Option (List α)
  | [] => ([], if sep = [] then some [] else none)
  | c :: cs =>
    if sep <+: c :: cs then ([], some ((c :: cs).drop sep.length))
    else
      let (before, after) := splitAt sep cs
      (c :: before, after)

/-- `sep in l`: a piece of it, anywhere. -/
def Occurs (sep l : List α) : Prop := sep <:+: l

instance (sep l : List α) : Decidable (Occurs sep l) :=
  inferInstanceAs (Decidable (sep <:+: l))

/-- `remove` in the middle of an occurrence: `skip` elements of it are still to be dropped. -/
def removeFrom (old : List α) : ℕ → List α → List α
  | _, [] => []
  | skip + 1, _ :: cs => removeFrom old skip cs
  | 0, c :: cs =>
    if old <+: c :: cs then removeFrom old (old.length - 1) cs
    else c :: removeFrom old 0 cs

/-- `l.replace(old, "")`: from left to right, where matches do not overlap. -/
def remove (old l : List α) : List α := removeFrom old 0 l

/-! ## The first occurrence -/

/-- There is nothing after the first occurrence exactly when there is none. -/
theorem splitAt_snd_eq_none {sep l : List α} : (splitAt sep l).2 = none ↔ ¬ Occurs sep l := by
  induction l with
  | nil =>
    by_cases hsep : sep = []
    · simp [splitAt, hsep, Occurs]
    · simp [splitAt, hsep, Occurs]
  | cons c cs ih =>
    unfold Occurs at ih ⊢
    rw [splitAt, List.infix_cons_iff]
    by_cases hp : sep <+: c :: cs
    · simp [hp]
    · simp [hp, ih]

/-- Without an occurrence the whole list comes first. -/
theorem splitAt_of_not_occurs {sep l : List α} (h : ¬ Occurs sep l) :
    splitAt sep l = (l, none) := by
  have hsnd := splitAt_snd_eq_none.mpr h
  induction l with
  | nil =>
    rw [splitAt] at hsnd ⊢
    exact Prod.ext rfl hsnd
  | cons c cs ih =>
    have hcs : ¬ Occurs sep cs := fun hocc => h (List.infix_cons hocc)
    have hp : ¬ sep <+: c :: cs := fun hp => h hp.isInfix
    rw [splitAt, if_neg hp, ih hcs (splitAt_snd_eq_none.mpr hcs)]

/-- **A separator whose first element does not come earlier** splits where it stands. -/
theorem splitAt_append {a : α} {sep before : List α} (h : a ∉ before) (after : List α) :
    splitAt (a :: sep) (before ++ (a :: sep) ++ after) = (before, some after) := by
  induction before with
  | nil =>
    rw [List.nil_append, List.cons_append, splitAt, if_pos]
    · simp
    · rw [← List.cons_append]
      exact List.prefix_append ..
  | cons c cs ih =>
    rw [List.mem_cons, not_or] at h
    rw [List.cons_append, List.cons_append, splitAt, if_neg, ih h.2]
    intro hp
    exact h.1 (List.cons_prefix_cons.mp hp).1

/-- **A tail that shares no element with the separator** does not change where it stands. -/
theorem splitAt_append_tail {sep r : List α} (hsep : sep ≠ []) (h : ∀ x ∈ r, x ∉ sep)
    (l : List α) :
    splitAt sep (l ++ r) = match splitAt sep l with
      | (before, some after) => (before, some (after ++ r))
      | (before, none) => (before ++ r, none) := by
  have hfront : ∀ t, sep <+: t ++ r ↔ sep <+: t := by
    intro t
    constructor
    · intro hp
      rcases List.prefix_or_prefix_of_prefix hp (List.prefix_append t r) with hp' | ⟨u, rfl⟩
      · exact hp'
      · cases u with
        | nil => rw [List.append_nil]
        | cons x u =>
          obtain ⟨v, rfl⟩ := (List.prefix_append_right_inj t).mp hp
          exact absurd (List.mem_append_right t (List.mem_cons_self ..))
            (h x (List.mem_cons_self ..))
    · intro hp
      exact hp.trans (List.prefix_append ..)
  induction l with
  | nil =>
    have hno : ¬ Occurs sep r := by
      intro hocc
      obtain ⟨x, s, rfl⟩ := List.exists_cons_of_ne_nil hsep
      exact h x (hocc.subset (List.mem_cons_self ..)) (List.mem_cons_self ..)
    rw [List.nil_append, splitAt_of_not_occurs hno, splitAt, if_neg hsep]
    rfl
  | cons c cs ih =>
    rw [List.cons_append, splitAt, splitAt, ih]
    by_cases hp : sep <+: c :: cs
    · have hpr : sep <+: c :: (cs ++ r) := (hfront (c :: cs)).mpr hp
      rw [if_pos hp, if_pos hpr, ← List.cons_append, List.drop_append_of_le_length hp.length_le]
    · have hpr : ¬ sep <+: c :: (cs ++ r) := fun hpr => hp ((hfront (c :: cs)).mp hpr)
      rw [if_neg hp, if_neg hpr]
      rcases splitAt sep cs with ⟨before, _ | after⟩ <;> rfl

/-! ## Removing occurrences -/

theorem removeFrom_drop (old : List α) (skip : ℕ) (l : List α) :
    removeFrom old skip l = remove old (l.drop skip) := by
  induction l generalizing skip with
  | nil => cases skip <;> simp [removeFrom, remove]
  | cons c cs ih =>
    cases skip with
    | zero => rfl
    | succ skip => rw [removeFrom, ih, List.drop_succ_cons]

@[simp] theorem remove_nil (old : List α) : remove old [] = [] := rfl

/-- An element at which an occurrence begins is dropped with it. -/
theorem remove_of_front {old : List α} {c : α} {cs : List α} (h : old <+: c :: cs) :
    remove old (c :: cs) = remove old (cs.drop (old.length - 1)) := by
  rw [remove, removeFrom, if_pos h, removeFrom_drop]

/-- An element at which no occurrence begins stays. -/
theorem remove_cons {old : List α} {c : α} {cs : List α} (h : ¬ old <+: c :: cs) :
    remove old (c :: cs) = c :: remove old cs := by
  rw [remove, removeFrom, if_neg h]
  rfl

/-- **An occurrence in front is dropped.** -/
theorem remove_append_self {old : List α} (hold : old ≠ []) (l : List α) :
    remove old (old ++ l) = remove old l := by
  obtain ⟨a, sep, rfl⟩ := List.exists_cons_of_ne_nil hold
  have hp : a :: sep <+: a :: (sep ++ l) := List.prefix_append (a :: sep) l
  rw [List.cons_append, remove_of_front hp]
  simp

/-- Elements at which no occurrence begins stay. -/
theorem remove_append {old l r : List α} (h : ∀ t, t <:+ l → t ≠ [] → ¬ old <+: t ++ r) :
    remove old (l ++ r) = l ++ remove old r := by
  induction l with
  | nil => rfl
  | cons c cs ih =>
    rw [List.cons_append, remove_cons, ih, List.cons_append]
    · intro t ht hne
      exact h t (ht.trans (List.suffix_cons ..)) hne
    · rw [← List.cons_append]
      exact h (c :: cs) (List.suffix_refl _) (by simp)

theorem remove_of_not_occurs {old l : List α} (h : ¬ Occurs old l) : remove old l = l := by
  induction l with
  | nil => rfl
  | cons c cs ih =>
    rw [remove_cons fun hp => h hp.isInfix, ih fun hocc => h (List.infix_cons hocc)]

/-- **Two parts are treated one by one** when no occurrence reaches from one into the other. -/
theorem remove_append_of_not_crossing {old l r : List α}
    (h : ∀ t, t <:+ l → old <+: t ++ r → old <+: t) (hr : ¬ Occurs old r) :
    remove old (l ++ r) = remove old l ++ r := by
  induction hn : l.length using Nat.strong_induction_on generalizing l with
  | _ n ih =>
    cases l with
    | nil => rw [List.nil_append, remove_of_not_occurs hr, remove_nil, List.nil_append]
    | cons c cs =>
      rw [List.length_cons] at hn
      by_cases hp : old <+: c :: cs
      · have hpr : old <+: c :: (cs ++ r) := hp.trans (List.prefix_append (c :: cs) r)
        have hlen : old.length - 1 ≤ cs.length := by
          have := hp.length_le
          rw [List.length_cons] at this
          omega
        rw [List.cons_append, remove_of_front hpr, remove_of_front hp,
          List.drop_append_of_le_length hlen]
        apply ih (cs.drop (old.length - 1)).length _ _ rfl
        · rw [List.length_drop]
          omega
        · intro t ht
          exact h t (ht.trans ((List.drop_suffix ..).trans (List.suffix_cons ..)))
      · have hpr : ¬ old <+: c :: (cs ++ r) := fun hpr => hp (h _ (List.suffix_refl _) hpr)
        rw [List.cons_append, remove_cons hpr, remove_cons hp, List.cons_append,
          ih cs.length (by omega) (fun t ht => h t (ht.trans (List.suffix_cons ..))) rfl]

theorem length_removeFrom_le (old : List α) (skip : ℕ) (l : List α) :
    (removeFrom old skip l).length ≤ l.length := by
  induction l generalizing skip with
  | nil => simp [removeFrom]
  | cons c cs ih =>
    cases skip with
    | succ skip =>
      rw [removeFrom, List.length_cons]
      have := ih skip
      omega
    | zero =>
      rw [removeFrom]
      by_cases hp : old <+: c :: cs
      · rw [if_pos hp, List.length_cons]
        have := ih (old.length - 1)
        omega
      · rw [if_neg hp, List.length_cons, List.length_cons]
        have := ih 0
        omega

/-- **An occurrence makes the result shorter.** -/
theorem length_remove_lt {old l : List α} (hold : old ≠ []) (h : Occurs old l) :
    (remove old l).length < l.length := by
  induction l with
  | nil => exact absurd (List.infix_nil.mp h) hold
  | cons c cs ih =>
    by_cases hp : old <+: c :: cs
    · rw [remove, removeFrom, if_pos hp, List.length_cons]
      have := length_removeFrom_le old (old.length - 1) cs
      omega
    · have hcs : Occurs old cs := (List.infix_cons_iff.mp h).resolve_left hp
      rw [remove_cons hp, List.length_cons, List.length_cons]
      have := ih hcs
      omega

/-- Nothing changes exactly when there is no occurrence. -/
theorem remove_eq_self_iff {old l : List α} (hold : old ≠ []) :
    remove old l = l ↔ ¬ Occurs old l := by
  constructor
  · intro heq hocc
    have := length_remove_lt hold hocc
    rw [heq] at this
    exact absurd this (lt_irrefl _)
  · exact remove_of_not_occurs

end Searching
