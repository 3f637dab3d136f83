/-
# Zero-padded numbers

Decimal texts of at least a given width, as the format `%0kd` writes them.  Among numbers that
fit into the width, the order of the texts is that of the numbers (`padded_lt_padded`).
-/
import Mathlib

/-- The decimal text of `i`, with zeros in front up to the width `k`. -/
def padded (k i : ℕ) : List Char := List.leftpad k '0' (Nat.toDigits 10 i)

/-! ## Texts of one length -/

/-- Texts of one length are compared before what follows them. -/
theorem append_lt_append_of_lt {l l' : List Char} (h : l < l') (hlen : l.length = l'.length)
    (r r' : List Char) : l ++ r < l' ++ r' := by
  induction l generalizing l' with
  | nil =>
    obtain rfl := List.length_eq_zero_iff.mp hlen.symm
    exact absurd h (lt_irrefl _)
  | cons c l ih =>
    cases l' with
    | nil => exact absurd hlen (by simp)
    | cons c' l' =>
      rw [List.cons_append, List.cons_append, List.cons_lt_cons_iff]
      rcases List.cons_lt_cons_iff.mp h with hc | ⟨hc, hl⟩
      · exact Or.inl hc
      · exact Or.inr ⟨hc, ih hl (by simpa using hlen)⟩

/-- What two texts have in front does not matter. -/
theorem append_lt_append_left (l : List Char) {r r' : List Char} (h : r < r') :
    l ++ r < l ++ r' := by
  induction l with
  | nil => exact h
  | cons c l ih =>
    rw [List.cons_append, List.cons_append, List.cons_lt_cons_iff]
    exact Or.inr ⟨rfl, ih⟩

/-! ## Digits -/

theorem digitChar_lt_digitChar {i j : ℕ} (h : i < j) (hj : j < 10) :
    Nat.digitChar i < Nat.digitChar j := by
  have hval : (Nat.digitChar i).toNat < (Nat.digitChar j).toNat := by
    rw [Nat.toNat_digitChar_of_lt_ten (h.trans hj), Nat.toNat_digitChar_of_lt_ten hj]
    omega
  exact hval

/-- The last digit of a text that is wide enough. -/
theorem padded_succ {k : ℕ} (i : ℕ) (hk : 0 < k) :
    padded (k + 1) i = padded k (i / 10) ++ [Nat.digitChar (i % 10)] := by
  unfold padded List.leftpad
  rcases lt_or_ge i 10 with hi | hi
  · rw [Nat.toDigits_of_lt_base hi, Nat.div_eq_of_lt hi, Nat.mod_eq_of_lt hi,
      Nat.toDigits_of_lt_base (by omega : 0 < 10)]
    have hzeros : List.replicate k '0' = List.replicate (k - 1) '0' ++ ['0'] := by
      conv_lhs => rw [← Nat.sub_add_cancel hk, List.replicate_succ']
    simp only [List.length_singleton, Nat.add_sub_cancel]
    rw [hzeros]
    rfl
  · rw [Nat.toDigits_of_base_le (by omega) hi, List.length_append, List.length_singleton,
      ← List.append_assoc]
    congr 2
    congr 1
    omega

theorem length_padded {k i : ℕ} (h : i < 10 ^ k) (hk : 0 < k) : (padded k i).length = k := by
  unfold padded List.leftpad
  rw [List.length_append, List.length_replicate]
  have hle : (Nat.toDigits 10 i).length ≤ k :=
    (Nat.length_toDigits_le_iff (by omega) hk).mpr h
  omega

/-- **The order of the texts is that of the numbers.** -/
theorem padded_lt_padded {k i j : ℕ} (hij : i < j) (hj : j < 10 ^ k) (hk : 0 < k) :
    padded k i < padded k j := by
  induction k generalizing i j with
  | zero => omega
  | succ k ih =>
    rcases Nat.eq_zero_or_pos k with rfl | hpos
    · have hone : ∀ n, n < 10 → padded 1 n = [Nat.digitChar n] := by
        intro n hn
        unfold padded List.leftpad
        rw [Nat.toDigits_of_lt_base hn]
        rfl
      have hj' : j < 10 := by simpa using hj
      rw [hone i (by omega), hone j hj', List.cons_lt_cons_iff]
      exact Or.inl (digitChar_lt_digitChar hij hj')
    · have hi : i < 10 ^ (k + 1) := hij.trans hj
      have hdiv : ∀ n, n < 10 ^ (k + 1) → n / 10 < 10 ^ k := by
        intro n hn
        rw [Nat.div_lt_iff_lt_mul (by omega), ← pow_succ]
        exact hn
      rw [padded_succ i hpos, padded_succ j hpos]
      rcases (Nat.div_le_div_right (c := 10) hij.le).lt_or_eq with hlt | heq
      · refine append_lt_append_of_lt (ih hlt (hdiv j hj) hpos) ?_ _ _
        rw [length_padded (hdiv i hi) hpos, length_padded (hdiv j hj) hpos]
      · rw [heq]
        apply append_lt_append_left
        rw [List.cons_lt_cons_iff]
        exact Or.inl (digitChar_lt_digitChar (by omega) (by omega))
