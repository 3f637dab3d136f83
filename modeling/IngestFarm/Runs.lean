/-
# Runs of a transition system

A system is a partial step function on states; an action that is not enabled has no
successor.  `run` executes a list of actions, `Along ok` says that every step of a run
meets a condition on the state before it, and `run_invariant` is the one induction from
steps to runs that the results about worker, scheduler and SRT child use.
-/
import Mathlib

namespace Runs

variable {σ α : Type}

/-- Execute a list of actions; `none` when one of them is not enabled. -/
def run (step : σ → α → Option σ) : σ → List α → Option σ
  | s, [] => some s
  | s, a :: as => (step s a).bind fun s' => run step s' as

/-- Every step of the run meets `ok`, judged in the state before the step. -/
def Along (ok : σ → α → Prop) (step : σ → α → Option σ) : σ → List α → Prop
  | _, [] => True
  | s, a :: as => ok s a ∧ ∀ s', step s a = some s' → Along ok step s' as

@[simp] theorem run_nil (step : σ → α → Option σ) (s : σ) : run step s [] = some s := rfl

@[simp] theorem run_cons (step : σ → α → Option σ) (s : σ) (a : α) (as : List α) :
    run step s (a :: as) = (step s a).bind fun s' => run step s' as := rfl

/-- A run in two parts. -/
theorem run_append (step : σ → α → Option σ) (s : σ) (as bs : List α) :
    run step s (as ++ bs) = (run step s as).bind fun t => run step t bs := by
  induction as generalizing s with
  | nil => rfl
  | cons a as ih =>
    rw [List.cons_append, run_cons, run_cons, Option.bind_assoc]
    congr 1
    funext t
    exact ih t

/-- The condition holds of the first part of a run, and of the rest where that ends. -/
theorem along_append {step : σ → α → Option σ} {ok : σ → α → Prop} {as bs : List α} {s : σ}
    (h : Along ok step s (as ++ bs)) :
    Along ok step s as ∧ ∀ t, run step s as = some t → Along ok step t bs := by
  induction as generalizing s with
  | nil =>
    refine ⟨trivial, fun t ht => ?_⟩
    obtain rfl : s = t := Option.some.inj ht
    exact h
  | cons a as ih =>
    refine ⟨⟨h.1, fun s' hs' => (ih (h.2 s' hs')).1⟩, fun t ht => ?_⟩
    rw [run_cons, Option.bind_eq_some_iff] at ht
    obtain ⟨s', hs', ht⟩ := ht
    exact (ih (h.2 s' hs')).2 t ht

/-- One step more. -/
theorem along_cons {step : σ → α → Option σ} {ok : σ → α → Prop} {s t : σ} {a : α} {as : List α}
    (hok : ok s a) (hstep : step s a = some t) (h : Along ok step t as) :
    Along ok step s (a :: as) := by
  refine ⟨hok, fun s' hs' => ?_⟩
  obtain rfl : t = s' := Option.some.inj (hstep.symm.trans hs')
  exact h

/-- A condition on the actions alone. -/
theorem along_of_forall {step : σ → α → Option σ} {ok : σ → α → Prop} {as : List α}
    (h : ∀ s, ∀ a ∈ as, ok s a) (s : σ) : Along ok step s as := by
  induction as generalizing s with
  | nil => trivial
  | cons a as ih =>
    exact ⟨h s a List.mem_cons_self,
      fun s' _ => ih (fun t a' ha' => h t a' (List.mem_cons_of_mem _ ha')) s'⟩

/-- A condition holds along a run exactly when it holds of every step after its prefix. -/
theorem along_iff {step : σ → α → Option σ} {ok : σ → α → Prop} {as : List α} {s : σ} :
    Along ok step s as ↔ ∀ pre a post t, as = pre ++ a :: post → run step s pre = some t →
      ok t a := by
  constructor
  · rintro h pre a post t rfl ht
    exact ((along_append h).2 t ht).1
  · intro h
    induction as generalizing s with
    | nil => trivial
    | cons a as ih =>
      refine ⟨h [] a as s rfl rfl, fun s' hs' => ih fun pre b post t hsplit ht => ?_⟩
      refine h (a :: pre) b post t (by rw [hsplit]; rfl) ?_
      rw [run_cons, hs']
      exact ht

/-- Two conditions on steps that agree wherever an invariant holds, which they keep. -/
theorem along_congr {step : σ → α → Option σ} {ok ok' : σ → α → Prop} {I : σ → Prop}
    (hstep : ∀ s a s', I s → ok' s a → step s a = some s' → I s')
    (hiff : ∀ s a, I s → (ok s a ↔ ok' s a)) :
    ∀ (as : List α) (s : σ), I s → (Along ok step s as ↔ Along ok' step s as) := by
  intro as
  induction as with
  | nil => exact fun _ _ => Iff.rfl
  | cons a as ih =>
    intro s hI
    constructor
    · rintro ⟨hok, h⟩
      have hok' := (hiff s a hI).mp hok
      exact ⟨hok', fun s' hs' => (ih s' (hstep s a s' hI hok' hs')).mp (h s' hs')⟩
    · rintro ⟨hok', h⟩
      refine ⟨(hiff s a hI).mpr hok', fun s' hs' => ?_⟩
      exact (ih s' (hstep s a s' hI hok' hs')).mpr (h s' hs')

/-- **From steps to runs**, along a condition on the steps. -/
theorem run_invariant {step : σ → α → Option σ} {ok : σ → α → Prop} {I : σ → Prop}
    (hstep : ∀ s a s', I s → ok s a → step s a = some s' → I s') :
    ∀ (as : List α) (s s' : σ), I s → Along ok step s as → run step s as = some s' → I s' := by
  intro as
  induction as with
  | nil =>
    intro s s' hI _ hrun
    rw [run_nil, Option.some.injEq] at hrun
    exact hrun ▸ hI
  | cons a as ih =>
    intro s s' hI hok hrun
    rw [run_cons, Option.bind_eq_some_iff] at hrun
    obtain ⟨t, ht, hrun⟩ := hrun
    exact ih t s' (hstep s a t hI hok.1 ht) (hok.2 t ht) hrun

end Runs
