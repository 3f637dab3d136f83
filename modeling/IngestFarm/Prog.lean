/-
# Programs over an unreliable environment

A shallow embedding of imperative code that changes a state and makes external calls
(database, message broker, subprocess).  Every call is answered by an `Oracle`, indexed
by the number of the call, so one oracle fixes one behaviour of the environment and a
statement about every behaviour quantifies over oracles.  A call can work, fail, which
raises an exception that `attempt` can catch, or be the point where the process is
killed, which nothing catches.

* `Prog κ ε σ α`: calls `κ`, exceptions `ε`, state `σ`, result `α`;
* `wp`: the weakest precondition, with one postcondition for a normal return, one for an
  exception and one for a kill in mid-program;
* `wp_mono`, `wp_fold`, `wp_each`: consequence and the loop rules.
-/
import Mathlib

/-- How one external call is answered. -/
inductive Answer where
  | ok
  | fail
  | crash
  deriving DecidableEq, Repr

/-- Why a program stopped before its end. -/
inductive Halt (ε : Type) where
  | raised (e : ε)
  | crashed
  deriving DecidableEq, Repr

/-- One behaviour of the environment: the answer to the `n`-th call. -/
abbrev Oracle (κ : Type) := ℕ → κ → Answer

/-- A program: it reads the oracle and the number of calls made so far. -/
def Prog (κ ε σ α : Type) : Type :=
  Oracle κ → ℕ → σ → Except (Halt ε) α × ℕ × σ

namespace Prog

variable {κ ε σ α β γ : Type}

instance : Monad (Prog κ ε σ) where
  pure a := fun _ n s => (.ok a, n, s)
  bind m f := fun o n s =>
    match m o n s with
    | (.ok a, n', s') => f a o n' s'
    | (.error h, n', s') => (.error h, n', s')

/-- A component of the current state. -/
def reads (f : σ → α) : Prog κ ε σ α := fun _ n s => (.ok (f s), n, s)

/-- Change the state. -/
def modify (f : σ → σ) : Prog κ ε σ Unit := fun _ n s => (.ok (), n, f s)

/-- Raise an exception. -/
def raise (e : ε) : Prog κ ε σ α := fun _ n s => (.error (.raised e), n, s)

/-- Make an external call and learn whether it worked. -/
def ask (k : κ) : Prog κ ε σ Bool := fun o n s =>
  match o n k with
  | .ok => (.ok true, n + 1, s)
  | .fail => (.ok false, n + 1, s)
  | .crash => (.error .crashed, n + 1, s)

/-- Make an external call that raises `e` when it fails. -/
def call (k : κ) (e : ε) : Prog κ ε σ Unit := fun o n s =>
  match o n k with
  | .ok => (.ok (), n + 1, s)
  | .fail => (.error (.raised e), n + 1, s)
  | .crash => (.error .crashed, n + 1, s)

/-- `try: m` with the handler `h`; a kill is not an exception. -/
def attempt (m : Prog κ ε σ α) (h : ε → Prog κ ε σ α) : Prog κ ε σ α := fun o n s =>
  match m o n s with
  | (.error (.raised e), n', s') => h e o n' s'
  | r => r

/-- `if b: m`, a branch without an `else`. -/
def whenever (b : Prop) [Decidable b] (m : Prog κ ε σ Unit) : Prog κ ε σ Unit :=
  if b then m else pure ()

/-- A `for` loop with an accumulator. -/
def fold (f : γ → β → Prog κ ε σ γ) : List β → γ → Prog κ ε σ γ
  | [], acc => pure acc
  | x :: xs, acc => f acc x >>= fold f xs

/-- A `for` loop. -/
def each (f : β → Prog κ ε σ Unit) : List β → Prog κ ε σ Unit
  | [] => pure ()
  | x :: xs => f x >>= fun _ => each f xs

/-! ## Weakest preconditions -/

/-- `wp o m Q E C n s`: under the oracle `o`, from call number `n` and state `s`, a normal
return of `m` satisfies `Q`, an exception satisfies `E` and a kill satisfies `C`. -/
def wp (o : Oracle κ) (m : Prog κ ε σ α) (Q : α → ℕ → σ → Prop) (E : ε → ℕ → σ → Prop)
    (C : σ → Prop) (n : ℕ) (s : σ) : Prop :=
  match m o n s with
  | (.ok a, n', s') => Q a n' s'
  | (.error (.raised e), n', s') => E e n' s'
  | (.error .crashed, _, s') => C s'

section Rules

variable {o : Oracle κ} {Q : α → ℕ → σ → Prop} {E : ε → ℕ → σ → Prop} {C : σ → Prop}
  {n : ℕ} {s : σ}

@[simp] theorem wp_pure (a : α) : wp o (pure a : Prog κ ε σ α) Q E C n s ↔ Q a n s := Iff.rfl

/-- A program and what follows it. -/
theorem bind_apply (m : Prog κ ε σ β) (f : β → Prog κ ε σ α) :
    (m >>= f) o n s = (match m o n s with
      | (.ok a, n', s') => f a o n' s'
      | (.error h, n', s') => (.error h, n', s')) := rfl

/-- What follows a program that returns. -/
theorem bind_of_ok {m : Prog κ ε σ β} {f : β → Prog κ ε σ α} {b : β} {n' : ℕ} {s' : σ}
    (hm : m o n s = (.ok b, n', s')) : (m >>= f) o n s = f b o n' s' := by
  rw [bind_apply, hm]

@[simp] theorem wp_bind (m : Prog κ ε σ β) (f : β → Prog κ ε σ α) :
    wp o (m >>= f) Q E C n s ↔
      wp o m (fun b n' s' => wp o (f b) Q E C n' s') E C n s := by
  unfold wp
  rw [bind_apply]
  rcases m o n s with ⟨(_ | _) | _, n', s'⟩ <;> rfl

@[simp] theorem wp_reads (f : σ → α) :
    wp o (reads f : Prog κ ε σ α) Q E C n s ↔ Q (f s) n s := Iff.rfl

@[simp] theorem wp_modify {Q : Unit → ℕ → σ → Prop} (f : σ → σ) :
    wp o (modify f : Prog κ ε σ Unit) Q E C n s ↔ Q () n (f s) := Iff.rfl

@[simp] theorem wp_raise (e : ε) :
    wp o (raise e : Prog κ ε σ α) Q E C n s ↔ E e n s := Iff.rfl

@[simp] theorem wp_ask {Q : Bool → ℕ → σ → Prop} (k : κ) :
    wp o (ask k : Prog κ ε σ Bool) Q E C n s ↔
      (o n k = .ok → Q true (n + 1) s) ∧ (o n k = .fail → Q false (n + 1) s) ∧
        (o n k = .crash → C s) := by
  unfold wp ask
  cases o n k <;> simp

@[simp] theorem wp_call {Q : Unit → ℕ → σ → Prop} (k : κ) (e : ε) :
    wp o (call k e : Prog κ ε σ Unit) Q E C n s ↔
      (o n k = .ok → Q () (n + 1) s) ∧ (o n k = .fail → E e (n + 1) s) ∧
        (o n k = .crash → C s) := by
  unfold wp call
  cases o n k <;> simp

@[simp] theorem wp_attempt (m : Prog κ ε σ α) (h : ε → Prog κ ε σ α) :
    wp o (attempt m h) Q E C n s ↔ wp o m Q (fun e n' s' => wp o (h e) Q E C n' s') C n s := by
  unfold wp attempt
  rcases m o n s with ⟨(_ | _) | _, n', s'⟩ <;> rfl

@[simp] theorem wp_ite (b : Prop) [Decidable b] (m m' : Prog κ ε σ α) :
    wp o (if b then m else m') Q E C n s ↔
      (b → wp o m Q E C n s) ∧ (¬ b → wp o m' Q E C n s) := by
  by_cases hb : b <;> simp [hb]

@[simp] theorem wp_whenever {Q : Unit → ℕ → σ → Prop} (b : Prop) [Decidable b]
    (m : Prog κ ε σ Unit) :
    wp o (whenever b m) Q E C n s ↔ (b → wp o m Q E C n s) ∧ (¬ b → Q () n s) := by
  unfold whenever
  rw [wp_ite, wp_pure]

/-- **Consequence.** -/
theorem wp_mono {m : Prog κ ε σ α} {Q' : α → ℕ → σ → Prop} {E' : ε → ℕ → σ → Prop}
    {C' : σ → Prop} (h : wp o m Q' E' C' n s) (hQ : ∀ a n' s', Q' a n' s' → Q a n' s')
    (hE : ∀ e n' s', E' e n' s' → E e n' s') (hC : ∀ s', C' s' → C s') :
    wp o m Q E C n s := by
  unfold wp at h ⊢
  rcases hm : m o n s with ⟨(e | _) | a, n', s'⟩ <;> rw [hm] at h
  · exact hE _ _ _ h
  · exact hC _ h
  · exact hQ _ _ _ h

/-- How a program ends may be used in what holds then. -/
theorem wp_self {m : Prog κ ε σ α} (h : wp o m Q E C n s) :
    wp o m (fun a n' s' => Q a n' s' ∧ (m o n s).1 = .ok a)
      (fun e n' s' => E e n' s' ∧ (m o n s).1 = .error (.raised e))
      (fun s' => C s' ∧ (m o n s).1 = .error .crashed) n s := by
  unfold wp at h ⊢
  rcases hm : m o n s with ⟨(e | _) | a, n', s'⟩ <;> rw [hm] at h
  · exact ⟨h, rfl⟩
  · exact ⟨h, rfl⟩
  · exact ⟨h, rfl⟩

/-- **The accumulator loop**: `I xs acc s` holds when `xs` are still to do. -/
theorem wp_fold {I : List β → γ → σ → Prop} {f : γ → β → Prog κ ε σ γ}
    {Q : γ → ℕ → σ → Prop}
    (hstep : ∀ x xs acc n s, I (x :: xs) acc s →
      wp o (f acc x) (fun acc' _ s' => I xs acc' s') E C n s)
    (hend : ∀ acc n s, I [] acc s → Q acc n s) :
    ∀ (xs : List β) (acc : γ) (n : ℕ) (s : σ), I xs acc s →
      wp o (fold f xs acc) Q E C n s := by
  intro xs
  induction xs with
  | nil => intro acc n s hI; exact hend acc n s hI
  | cons x xs ih =>
    intro acc n s hI
    rw [fold, wp_bind]
    exact wp_mono (hstep x xs acc n s hI) (fun acc' n' s' h => ih acc' n' s' h)
      (fun _ _ _ h => h) (fun _ h => h)

/-- **The plain loop.** -/
theorem wp_each {I : List β → σ → Prop} {f : β → Prog κ ε σ Unit} {Q : Unit → ℕ → σ → Prop}
    (hstep : ∀ x xs n s, I (x :: xs) s →
      wp o (f x) (fun _ _ s' => I xs s') E C n s)
    (hend : ∀ n s, I [] s → Q () n s) :
    ∀ (xs : List β) (n : ℕ) (s : σ), I xs s → wp o (each f xs) Q E C n s := by
  intro xs
  induction xs with
  | nil => intro n s hI; exact hend n s hI
  | cons x xs ih =>
    intro n s hI
    rw [each, wp_bind]
    exact wp_mono (hstep x xs n s hI) (fun _ n' s' h => ih n' s' h)
      (fun _ _ _ h => h) (fun _ h => h)

end Rules

/-! ## Whole runs -/

/-- The outcome of a program that starts with its first call. -/
def exec (o : Oracle κ) (m : Prog κ ε σ α) (s : σ) : Except (Halt ε) α × σ :=
  ((m o 0 s).1, (m o 0 s).2.2)

/-- The state a program leaves, however it ends. -/
def final (o : Oracle κ) (m : Prog κ ε σ α) (s : σ) : σ := (exec o m s).2

/-- The state after an assignment and what follows. -/
theorem final_modify_bind (o : Oracle κ) (f : σ → σ) (k : Unit → Prog κ ε σ α) (s : σ) :
    final o (modify f >>= k) s = final o (k ()) (f s) := rfl

/-- And after a look at it. -/
theorem final_reads_bind (o : Oracle κ) (f : σ → β) (k : β → Prog κ ε σ α) (s : σ) :
    final o (reads f >>= k) s = final o (k (f s)) s := rfl

/-- The environment in which every call works. -/
def allOk : Oracle κ := fun _ _ => .ok

/-- The environment in which a call is answered the same way each time it is made. -/
def answers (ans : κ → Bool) : Oracle κ := fun _ k => if ans k = true then .ok else .fail

/-- The environment gives the answer `a` to `k` at some time. -/
def May (o : Oracle κ) (a : Answer) (k : κ) : Prop := ∃ n, o n k = a

/-- The environment kills the process at some time. -/
def MayCrash (o : Oracle κ) : Prop := ∃ n k, o n k = .crash

@[simp] theorem answers_eq_ok (ans : κ → Bool) (n : ℕ) (k : κ) :
    answers ans n k = .ok ↔ ans k = true := by
  unfold answers
  cases ans k <;> simp

@[simp] theorem answers_eq_fail (ans : κ → Bool) (n : ℕ) (k : κ) :
    answers ans n k = .fail ↔ ans k = false := by
  unfold answers
  cases ans k <;> simp

@[simp] theorem answers_eq_crash (ans : κ → Bool) (n : ℕ) (k : κ) :
    answers ans n k = .crash ↔ False := by
  unfold answers
  cases ans k <;> simp

/-- An environment that only answers kills nothing. -/
theorem not_mayCrash_answers (ans : κ → Bool) : ¬ MayCrash (answers ans) := by
  simp [MayCrash]

@[simp] theorem may_answers_ok (ans : κ → Bool) (k : κ) :
    May (answers ans) .ok k ↔ ans k = true := by
  simp [May]

@[simp] theorem may_answers_fail (ans : κ → Bool) (k : κ) :
    May (answers ans) .fail k ↔ ans k = false := by
  simp [May]

/-- Two facts about one run. -/
theorem wp_and {o : Oracle κ} {m : Prog κ ε σ α} {Q Q' : α → ℕ → σ → Prop}
    {E E' : ε → ℕ → σ → Prop} {C C' : σ → Prop} {n : ℕ} {s : σ} (h : wp o m Q E C n s)
    (h' : wp o m Q' E' C' n s) :
    wp o m (fun a n s => Q a n s ∧ Q' a n s) (fun e n s => E e n s ∧ E' e n s)
      (fun s => C s ∧ C' s) n s := by
  unfold wp at h h' ⊢
  rcases hm : m o n s with ⟨(e | _) | a, n', s'⟩ <;> rw [hm] at h h'
  · exact ⟨h, h'⟩
  · exact ⟨h, h'⟩
  · exact ⟨h, h'⟩

theorem wp_true {o : Oracle κ} (m : Prog κ ε σ α) (n : ℕ) (s : σ) :
    wp o m (fun _ _ _ => True) (fun _ _ _ => True) (fun _ => True) n s := by
  unfold wp
  rcases m o n s with ⟨(e | _) | a, n', s'⟩ <;> exact trivial

/-- What holds after a normal return, an exception and a kill holds of the final state. -/
theorem final_of_wp {o : Oracle κ} {m : Prog κ ε σ α} {P : σ → Prop} {s : σ}
    (h : wp o m (fun _ _ s' => P s') (fun _ _ s' => P s') P 0 s) : P (final o m s) := by
  unfold wp at h
  unfold final exec
  rcases hm : m o 0 s with ⟨(e | _) | a, n', s'⟩ <;> rw [hm] at h <;> exact h

/-- A program that can only end in one way does. -/
theorem exec_of_wp {o : Oracle κ} {m : Prog κ ε σ α} {a : α} {s s' : σ}
    (h : wp o m (fun b _ t => b = a ∧ t = s') (fun _ _ _ => False) (fun _ => False) 0 s) :
    exec o m s = (.ok a, s') := by
  unfold wp at h
  unfold exec
  rcases hm : m o 0 s with ⟨(e | _) | b, n', t⟩ <;> rw [hm] at h
  · exact h.elim
  · exact h.elim
  · obtain ⟨rfl, rfl⟩ := h
    rfl

/-- A program that can only raise does. -/
theorem exec_of_wp_raise {o : Oracle κ} {m : Prog κ ε σ α} {s s' : σ}
    (h : wp o m (fun _ _ _ => False) (fun _ _ t => t = s') (fun _ => False) 0 s) :
    ∃ e, exec o m s = (.error (.raised e), s') := by
  unfold wp at h
  unfold exec
  rcases hm : m o 0 s with ⟨(e | _) | b, n', t⟩ <;> rw [hm] at h
  · exact ⟨e, by rw [h]⟩
  · exact h.elim
  · exact h.elim

/-- What holds of the state at a kill. -/
theorem crashed_of_wp {o : Oracle κ} {m : Prog κ ε σ α} {Q : α → ℕ → σ → Prop}
    {E : ε → ℕ → σ → Prop} {C : σ → Prop} {s s' : σ} (h : wp o m Q E C 0 s)
    (hm : exec o m s = (.error .crashed, s')) : C s' := by
  unfold exec at hm
  obtain ⟨hres, rfl⟩ := Prod.mk.inj hm
  unfold wp at h
  rcases hrun : m o 0 s with ⟨(e | _) | a, n', t⟩ <;> rw [hrun] at h hres
  · exact absurd hres (by simp)
  · exact h
  · exact absurd hres (by simp)

end Prog
