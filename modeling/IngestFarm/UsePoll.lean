/-
# Polling

The hook `usePoll` of the web interface, by which every page reads the API.  An effect polls at
once, at every interval and whenever the tab becomes visible, and its clean-up cancels the polls
that have not answered; it runs again for another key or interval and after a `reload`.  Between
a render and its effects answers may come and the timer may fire.

Within one effect the polls may overlap, and then the last answer wins instead of the last
question.  A change of the key takes away the data and leaves the error.
-/
import IngestFarm.Runs

namespace UsePoll

open Runs

/-- What a poll is answered: a value, or a rejection with the message if it is an `Error`. -/
inductive Answer (T : Type)
  | value (v : T)
  | rejected (message : Option String)

/-- The poll was answered with data. -/
def Answer.isValue {T : Type} : Answer T → Bool
  | .value _ => true
  | .rejected _ => false

/-- A poll: the effect that issued it, the key that its `fn` was rendered with, its answer. -/
structure Request (κ T : Type) where
  /-- The effect that issued it. -/
  effect : ℕ
  /-- The key that its function was rendered with. -/
  resetKey : κ
  /-- Its answer, once there is one. -/
  answer : Option (Answer T)

/-- A state variable of the hook, with the poll that it was set from. -/
structure Shown (α : Type) where
  request : ℕ
  value : α

/-- The dependencies of the polling effect. -/
structure Deps (κ : Type) where
  intervalMs : ℕ
  tick : ℕ
  resetKey : κ
  deriving DecidableEq

/-- The hook: the dependencies of the last render and those that the effects ran with, the number
of the effect whose `cancelled` is false, its timer, and the polls in the order of their issue. -/
structure Hook (κ T : Type) where
  /-- The dependencies of the last render. -/
  deps : Deps κ
  /-- Those that the effects ran with, once they have. -/
  ran : Option (Deps κ)
  /-- The number of the effect that is not cancelled. -/
  effect : ℕ
  /-- Its interval is set. -/
  timer : Bool
  /-- The tab is hidden. -/
  hidden : Bool
  /-- All polls, in the order of their issue. -/
  requests : List (Request κ T)
  /-- The data on the page, with the poll that they came from. -/
  data : Option (Shown T)
  /-- The error on the page, with the poll that it came from. -/
  error : Option (Shown String)

/-- What happens to a hook. -/
inductive Action (κ T : Type)
  /-- The timer fires. -/
  | interval
  /-- The tab becomes visible or hidden. -/
  | visibility (hidden : Bool)
  /-- `reload` is called. -/
  | reload
  /-- The hook is rendered, with another key or interval perhaps. -/
  | render (resetKey : κ) (intervalMs : ℕ)
  /-- The effects of the last render run. -/
  | effects
  /-- A poll is answered. -/
  | answer (i : ℕ) (a : Answer T)

section Code

variable {κ T : Type}

/-- The first render. -/
def mount (resetKey : κ) (intervalMs : ℕ) (hidden : Bool) : Hook κ T :=
  ⟨⟨intervalMs, 0, resetKey⟩, none, 0, false, hidden, [], none, none⟩

namespace Hook

/-- `run` until it waits: `fnRef.current` is the `fn` of the last render. -/
def run (s : Hook κ T) : Hook κ T :=
  { s with requests := s.requests ++ [⟨s.effect, s.deps.resetKey, none⟩] }

/-- `start`: the interval of the hook runs. -/
def startTimer (s : Hook κ T) : Hook κ T := { s with timer := true }

/-- `stop`: it stands, and polls that were issued are not touched. -/
def stopTimer (s : Hook κ T) : Hook κ T := { s with timer := false }

/-- `onVisibility`: hidden pages do not poll, and a page that is shown polls at once. -/
def onVisibility (s : Hook κ T) : Hook κ T :=
  if s.hidden then s.stopTimer else s.run.startTimer

/-- The clean-up of the polling effect: from now on its polls are cancelled. -/
def cleanUp (s : Hook κ T) : Hook κ T := { s.stopTimer with effect := s.effect + 1 }

/-- The effects have run for the key of the last render. -/
def Settled (s : Hook κ T) : Prop := s.ran.map Deps.resetKey = some s.deps.resetKey

instance [DecidableEq κ] (s : Hook κ T) : Decidable s.Settled := inferInstanceAs (Decidable (_ = _))

/-- The effect on `resetKey`. -/
def resetData [DecidableEq κ] (s : Hook κ T) : Hook κ T :=
  if s.Settled then s else { s with data := none }

/-- The body of the polling effect. -/
def beginPolling (s : Hook κ T) : Hook κ T :=
  let s := s.run
  if s.hidden then s else s.startTimer

/-- React runs the effects whose dependencies have changed. -/
def effects [DecidableEq κ] (s : Hook κ T) : Hook κ T :=
  if s.ran = some s.deps then s
  else { s.cleanUp.resetData.beginPolling with ran := some s.deps }

/-- A poll settles. -/
def settle (s : Hook κ T) (i : ℕ) (a : Answer T) : Hook κ T :=
  { s with requests := s.requests.modify i fun r => { r with answer := some a } }

/-- The text that is shown for a rejection. -/
def errorText (message : Option String) : String := message.getD "Request failed"

/-- The rest of `run`, unless it is cancelled. -/
def receive (s : Hook κ T) (i : ℕ) : Answer T → Hook κ T
  | .value v => { s with data := some ⟨i, v⟩, error := none }
  | .rejected message => { s with error := some ⟨i, errorText message⟩ }

end Hook

/-- A step of the hook.  React runs the effects of one change of the props before it renders the
next one. -/
def step [DecidableEq κ] (s : Hook κ T) : Action κ T → Option (Hook κ T)
  | .interval => if s.timer then some s.run else none
  | .visibility hidden =>
    let s := { s with hidden := hidden }
    some (if s.ran = none then s else s.onVisibility)
  | .reload => some { s with deps := { s.deps with tick := s.deps.tick + 1 } }
  | .render resetKey intervalMs =>
    if s.ran.map (fun d => (d.resetKey, d.intervalMs)) = some (s.deps.resetKey, s.deps.intervalMs)
    then some { s with deps := { s.deps with resetKey := resetKey, intervalMs := intervalMs } }
    else none
  | .effects => some s.effects
  | .answer i a =>
    match s.requests[i]? with
    | none => none
    | some r =>
      if r.answer.isSome then none
      else some (if r.effect = s.effect then (s.settle i a).receive i a else s.settle i a)

/-! ## What should be shown -/

/-- Poll `i` was issued for the current key and was answered `a`. -/
def Hook.Answered (s : Hook κ T) (i : ℕ) (a : Answer T) : Prop :=
  ∃ r, s.requests[i]? = some r ∧ r.resetKey = s.deps.resetKey ∧ r.answer = some a

/-- Poll `i` was issued by the effect that is not cancelled. -/
def Hook.Live (s : Hook κ T) (i : ℕ) : Prop :=
  ∃ r, s.requests[i]? = some r ∧ r.effect = s.effect

/-- The answer `a` of poll `i` is shown. -/
def Hook.Shows (s : Hook κ T) (i : ℕ) : Answer T → Prop
  | .value v => s.data = some ⟨i, v⟩ ∧ s.error = none
  | .rejected message => s.error = some ⟨i, Hook.errorText message⟩

/-- **What is shown comes from the latest poll** that was answered for the key: the data from the
latest one that was answered with data, the error from the latest one. -/
structure UpToDate (s : Hook κ T) : Prop where
  /-- The data are from the latest poll that was answered with data. -/
  data : ∀ d, s.data = some d → s.Answered d.request (.value d.value) ∧
    ∀ j v, s.Answered j (.value v) → j ≤ d.request
  /-- The error is from the latest poll that was answered. -/
  error : ∀ e, s.error = some e →
    (∃ message, s.Answered e.request (.rejected message) ∧ e.value = Hook.errorText message) ∧
      ∀ j a, s.Answered j a → j ≤ e.request
  /-- The latest answer is shown. -/
  latest : ∀ i a, s.Answered i a → (∀ j b, s.Answered j b → j ≤ i) → s.Live i → s.Shows i a

/-- The answer of poll `i` leaves alone what came from a later one. -/
def KeepsLater (s s' : Hook κ T) (i : ℕ) : Prop :=
  ((∃ d, s.data = some d ∧ i < d.request) ∨ ∃ e, s.error = some e ∧ i < e.request) →
    s'.data = s.data ∧ s'.error = s.error

/-- **The page never steps back** to an older poll. -/
structure NeverStepsBack [DecidableEq κ] (s₀ : Hook κ T) (as : List (Action κ T)) : Prop where
  upToDate : ∀ pre post s, as = pre ++ post → run step s₀ pre = some s → s.Settled → UpToDate s
  keepsLater : ∀ pre i a post s s', as = pre ++ .answer i a :: post →
    run step s₀ pre = some s → step s (.answer i a) = some s' → KeepsLater s s' i

/-- No live poll is answered after a later one of its effect; a cancelled poll for the current
key is answered with data only while no earlier data is shown, and at all only while no earlier
error is; and the effects run for another key only while no error of a former one is shown. -/
def Orderly (s : Hook κ T) : Action κ T → Prop
  | .answer i a => ∀ r, s.requests[i]? = some r → r.answer = none →
    if r.effect = s.effect then
      ∀ j r', s.requests[j]? = some r' → r'.effect = s.effect → r'.answer ≠ none → j ≤ i
    else s.Settled → r.resetKey = s.deps.resetKey →
      (∀ e, s.error = some e → i ≤ e.request) ∧
        (a.isValue = true → ∀ d, s.data = some d → i ≤ d.request)
  | .effects => ¬ s.Settled → ∀ e, s.error = some e →
    ∃ r, s.requests[e.request]? = some r ∧ r.resetKey = s.deps.resetKey
  | _ => True

/-! ## The polls -/

/-- Poll `i` was answered `a` while the effect that issued it was not cancelled, nor is by now. -/
def Hook.LiveAnswered (s : Hook κ T) (i : ℕ) (a : Answer T) : Prop :=
  ∃ r, s.requests[i]? = some r ∧ r.effect = s.effect ∧ r.answer = some a

/-- The polls of an effect come before those of the next one; those of the effect that is not
cancelled are for the current key. -/
structure Numbered (s : Hook κ T) : Prop where
  /-- No poll is of a later effect. -/
  bound : ∀ (i : ℕ) (r : Request κ T), s.requests[i]? = some r → r.effect ≤ s.effect
  /-- The polls of an effect come before those of the next one. -/
  order : ∀ (i j : ℕ) (r r' : Request κ T), s.requests[i]? = some r → s.requests[j]? = some r' →
    r.effect < r'.effect → i < j
  /-- The polls of the effect that is not cancelled are for the current key. -/
  keys : s.Settled → ∀ (i : ℕ) (r : Request κ T), s.requests[i]? = some r →
    r.effect = s.effect → r.resetKey = s.deps.resetKey

/-- **The invariant** of the runs in which the answers are orderly. -/
structure Inv (s : Hook κ T) : Prop where
  numbered : Numbered s
  /-- The data on the page were answered. -/
  dataFrom : ∀ d, s.data = some d →
    ∃ r, s.requests[d.request]? = some r ∧ r.answer = some (.value d.value)
  /-- So was the error. -/
  errorFrom : ∀ e, s.error = some e → ∃ r message, s.requests[e.request]? = some r ∧
    r.answer = some (.rejected message) ∧ e.value = Hook.errorText message
  /-- The latest answer of the effect that is not cancelled is shown. -/
  latest : ∀ i a, s.LiveAnswered i a → (∀ j b, s.LiveAnswered j b → j ≤ i) → s.Shows i a
  /-- Between renders the data are up to date. -/
  data : s.Settled → ∀ d, s.data = some d → s.Answered d.request (.value d.value) ∧
    ∀ j v, s.Answered j (.value v) → j ≤ d.request
  /-- So is the error. -/
  error : s.Settled → ∀ e, s.error = some e →
    (∃ message, s.Answered e.request (.rejected message) ∧ e.value = Hook.errorText message) ∧
      ∀ j a, s.Answered j a → j ≤ e.request
  between : ¬ s.Settled → ∀ e (r : Request κ T), s.error = some e →
    s.requests[e.request]? = some r → r.resetKey = s.deps.resetKey → r.effect = s.effect

section Lookups

variable {s s' : Hook κ T} {i j : ℕ} {r r' : Request κ T} {a b : Answer T}

/-- A new poll is the last one. -/
theorem getElem?_run : s.run.requests[j]? = some r ↔
    s.requests[j]? = some r ∨
      j = s.requests.length ∧ r = ⟨s.effect, s.deps.resetKey, none⟩ := by
  show (s.requests ++ [_])[j]? = some r ↔ _
  rcases Nat.lt_trichotomy j s.requests.length with hlt | rfl | hgt
  · rw [List.getElem?_append_left hlt]
    constructor
    · exact Or.inl
    · rintro (h | ⟨rfl, -⟩)
      · exact h
      · omega
  · rw [List.getElem?_concat_length, List.getElem?_eq_none le_rfl]
    simp [eq_comm]
  · rw [List.getElem?_eq_none (by simp; omega), List.getElem?_eq_none (by omega)]
    simp
    omega

/-- A new poll is not answered. -/
theorem exists_answered_run (P : Request κ T → Prop) :
    (∃ r, s.run.requests[j]? = some r ∧ P r ∧ r.answer = some b) ↔
      ∃ r, s.requests[j]? = some r ∧ P r ∧ r.answer = some b := by
  constructor
  · rintro ⟨r, hr, hP, hans⟩
    rcases getElem?_run.mp hr with hr | ⟨-, rfl⟩
    · exact ⟨r, hr, hP, hans⟩
    · exact absurd hans (by simp)
  · rintro ⟨r, hr, hP, hans⟩
    exact ⟨r, getElem?_run.mpr (Or.inl hr), hP, hans⟩

/-- Issuing a poll answers none. -/
theorem answered_run : s.run.Answered j b ↔ s.Answered j b :=
  exists_answered_run fun r => r.resetKey = s.deps.resetKey

/-- Nor does it answer one of the running effect. -/
theorem liveAnswered_run : s.run.LiveAnswered j b ↔ s.LiveAnswered j b :=
  exists_answered_run fun r => r.effect = s.effect

/-- A poll that was answered is not one that was not. -/
theorem ne_of_answered (hi : s.requests[i]? = some r') (hnone : r'.answer = none)
    (hj : s.requests[j]? = some r) (hans : r.answer = some b) : j ≠ i := by
  rintro rfl
  obtain rfl := Option.some.inj (hi.symm.trans hj)
  exact absurd (hnone.symm.trans hans) (by simp)

/-- Only the poll that settles has another answer. -/
theorem getElem?_settle (hi : s.requests[i]? = some r') :
    (s.settle i a).requests[j]? = some r ↔
      j ≠ i ∧ s.requests[j]? = some r ∨ j = i ∧ r = { r' with answer := some a } := by
  show (s.requests.modify i _)[j]? = some r ↔ _
  by_cases hj : j = i
  · subst hj
    rw [List.getElem?_modify_eq, hi]
    simp [eq_comm]
  · rw [List.getElem?_modify_ne _ _ (Ne.symm hj)]
    simp [hj]

/-- The poll that settles is answered, and the others are as they were. -/
theorem exists_answered_settle (P : Request κ T → Prop) (hi : s.requests[i]? = some r')
    (hnone : r'.answer = none) (hP : P { r' with answer := some a } ↔ P r') :
    (∃ r, (s.settle i a).requests[j]? = some r ∧ P r ∧ r.answer = some b) ↔
      (∃ r, s.requests[j]? = some r ∧ P r ∧ r.answer = some b) ∨ j = i ∧ b = a ∧ P r' := by
  constructor
  · rintro ⟨r, hr, hPr, hans⟩
    rcases (getElem?_settle hi).mp hr with ⟨-, hr⟩ | ⟨rfl, rfl⟩
    · exact Or.inl ⟨r, hr, hPr, hans⟩
    · exact Or.inr ⟨rfl, (Option.some.inj hans).symm, hP.mp hPr⟩
  · rintro (⟨r, hr, hPr, hans⟩ | ⟨rfl, rfl, hPr⟩)
    · have hj := ne_of_answered hi hnone hr hans
      exact ⟨r, (getElem?_settle hi).mpr (Or.inl ⟨hj, hr⟩), hPr, hans⟩
    · exact ⟨_, (getElem?_settle hi).mpr (Or.inr ⟨rfl, rfl⟩), hP.mpr hPr, rfl⟩

/-- One answer more. -/
theorem answered_settle (hi : s.requests[i]? = some r') (hnone : r'.answer = none) :
    (s.settle i a).Answered j b ↔
      s.Answered j b ∨ j = i ∧ b = a ∧ r'.resetKey = s.deps.resetKey :=
  exists_answered_settle (fun r => r.resetKey = s.deps.resetKey) hi hnone Iff.rfl

/-- One more of the running effect, if the poll is of it. -/
theorem liveAnswered_settle (hi : s.requests[i]? = some r') (hnone : r'.answer = none) :
    (s.settle i a).LiveAnswered j b ↔
      s.LiveAnswered j b ∨ j = i ∧ b = a ∧ r'.effect = s.effect :=
  exists_answered_settle (fun r => r.effect = s.effect) hi hnone Iff.rfl

/-- A poll after one that is not cancelled is not cancelled either. -/
theorem Numbered.effect_of_le (h : Numbered s) (hi : s.requests[i]? = some r)
    (hj : s.requests[j]? = some r') (hlive : r.effect = s.effect) (hle : i ≤ j) :
    r'.effect = s.effect := by
  have hbound := h.bound j r' hj
  by_contra hne
  have hlt := h.order j i r' r hj hi (by omega)
  omega

/-- If a poll of the effect was answered, there is a latest one. -/
theorem exists_latest (h : s.LiveAnswered i a) :
    ∃ n b, i ≤ n ∧ s.LiveAnswered n b ∧ ∀ j c, s.LiveAnswered j c → j ≤ n := by
  classical
  have hlt : ∀ {j c}, s.LiveAnswered j c → j < s.requests.length := by
    rintro j c ⟨r, hr, -⟩
    exact (List.getElem?_eq_some_iff.mp hr).1
  let P : ℕ → Prop := fun j => ∃ c, s.LiveAnswered j c
  have hle : ∀ j, P j → j ≤ Nat.findGreatest P s.requests.length := by
    rintro j ⟨c, hc⟩
    exact Nat.le_findGreatest (hlt hc).le ⟨c, hc⟩
  obtain ⟨b, hb⟩ : P (Nat.findGreatest P s.requests.length) :=
    Nat.findGreatest_spec (hlt h).le ⟨a, h⟩
  exact ⟨_, b, hle i ⟨a, h⟩, hb, fun j c hc => hle j ⟨c, hc⟩⟩

/-- The clauses for settled states. -/
theorem Inv.upToDate (h : Inv s) (hsettled : s.Settled) : UpToDate s where
  data := h.data hsettled
  error := h.error hsettled
  latest := by
    rintro i a ⟨r, hr, -, hans⟩ hlatest ⟨r', hr', hlive⟩
    obtain rfl := Option.some.inj (hr.symm.trans hr')
    refine h.latest i a ⟨r, hr, hlive, hans⟩ ?_
    rintro j b ⟨q, hq, hqlive, hqans⟩
    exact hlatest j b ⟨q, hq, h.numbered.keys hsettled j q hq hqlive, hqans⟩

/-- A poll that was answered keeps its answer. -/
theorem getElem?_settle_of_answered (hi : s.requests[i]? = some r') (hnone : r'.answer = none)
    (hj : s.requests[j]? = some r) (hans : r.answer = some b) :
    (s.settle i a).requests[j]? = some r :=
  (getElem?_settle hi).mpr (Or.inl ⟨ne_of_answered hi hnone hj hans, hj⟩)

/-- If no poll of the effect was answered after `i`, no poll for the key was. -/
theorem Numbered.answered_le (h : Numbered s) (hi : s.requests[i]? = some r)
    (hlive : r.effect = s.effect) (hle : ∀ j b, s.LiveAnswered j b → j ≤ i)
    (hj : s.Answered j b) : j ≤ i := by
  obtain ⟨q, hq, -, hans⟩ := hj
  by_contra hlt
  exact hlt (hle j b ⟨q, hq, h.effect_of_le hi hq hlive (by omega), hans⟩)

/-- The error of an effect that is not cancelled comes from its latest answer. -/
theorem Inv.error_latest (h : Inv s) {e : Shown String} (he : s.error = some e)
    (hj : s.LiveAnswered j b) : j ≤ e.request := by
  obtain ⟨n, c, hjn, hn, hlatest⟩ := exists_latest hj
  have hshows := h.latest n c hn hlatest
  cases c with
  | value v => exact absurd (he.symm.trans hshows.2) (by simp)
  | rejected message =>
    obtain rfl := Option.some.inj (he.symm.trans hshows)
    exact hjn

end Lookups

/-! ## The invariant along a step -/

section Steps

variable {s s' : Hook κ T} {i : ℕ} {r : Request κ T} {a : Answer T}

/-- The first render has asked for nothing. -/
theorem inv_mount (resetKey : κ) (intervalMs : ℕ) (hidden : Bool) :
    Inv (mount resetKey intervalMs hidden : Hook κ T) where
  numbered := ⟨by simp [mount], by simp [mount], by simp [mount, Hook.Settled]⟩
  dataFrom := by simp [mount]
  errorFrom := by simp [mount]
  latest := by
    rintro i a ⟨r, hr, -⟩
    exact absurd hr (by simp [mount])
  data := by simp [mount]
  error := by simp [mount]
  between := by simp [mount]

/-- The timer, the visibility, the interval and the tick leave the invariant alone. -/
theorem Inv.frame (h : Inv s) (timer hidden : Bool) (intervalMs tick : ℕ) :
    Inv { s with timer := timer, hidden := hidden, deps := ⟨intervalMs, tick, s.deps.resetKey⟩ } :=
  ⟨⟨h.numbered.bound, h.numbered.order, h.numbered.keys⟩, h.dataFrom, h.errorFrom, h.latest,
    h.data, h.error, h.between⟩

/-- Polls are numbered in the order in which they were issued. -/
theorem Numbered.run (h : Numbered s) : Numbered s.run where
  bound := by
    intro i r hr
    rcases getElem?_run.mp hr with hr | ⟨-, rfl⟩
    · exact h.bound i r hr
    · exact le_rfl
  order := by
    intro i j r r' hr hr' hlt
    rcases getElem?_run.mp hr' with hr' | ⟨rfl, rfl⟩
    · rcases getElem?_run.mp hr with hr | ⟨rfl, rfl⟩
      · exact h.order i j r r' hr hr' hlt
      · exact absurd (h.bound j r' hr') (by simpa using hlt)
    · rcases getElem?_run.mp hr with hr | ⟨rfl, rfl⟩
      · exact (List.getElem?_eq_some_iff.mp hr).1
      · exact absurd hlt (lt_irrefl _)
  keys := by
    intro hsettled i r hr hlive
    rcases getElem?_run.mp hr with hr | ⟨-, rfl⟩
    · exact h.keys hsettled i r hr hlive
    · rfl

/-- A poll is issued. -/
theorem Inv.run (h : Inv s) : Inv s.run where
  numbered := h.numbered.run
  dataFrom := by
    intro d hd
    obtain ⟨r, hr, hans⟩ := h.dataFrom d hd
    exact ⟨r, getElem?_run.mpr (Or.inl hr), hans⟩
  errorFrom := by
    intro e he
    obtain ⟨r, message, hr, hans, htext⟩ := h.errorFrom e he
    exact ⟨r, message, getElem?_run.mpr (Or.inl hr), hans, htext⟩
  latest := by
    intro i a hi hlatest
    exact h.latest i a (liveAnswered_run.mp hi) fun j b hj => hlatest j b (liveAnswered_run.mpr hj)
  data := by
    intro hsettled d hd
    obtain ⟨hfrom, hle⟩ := h.data hsettled d hd
    exact ⟨answered_run.mpr hfrom, fun j v hj => hle j v (answered_run.mp hj)⟩
  error := by
    intro hsettled e he
    obtain ⟨⟨message, hfrom, htext⟩, hle⟩ := h.error hsettled e he
    exact ⟨⟨message, answered_run.mpr hfrom, htext⟩, fun j b hj => hle j b (answered_run.mp hj)⟩
  between := by
    intro hsettled e r he hr hkey
    rcases getElem?_run.mp hr with hr | ⟨-, rfl⟩
    · exact h.between hsettled e r he hr hkey
    · rfl

/-- A page that is shown polls, and one that is hidden does not. -/
theorem Inv.onVisibility (h : Inv s) : Inv s.onVisibility := by
  unfold Hook.onVisibility
  split
  · exact h.frame false s.hidden s.deps.intervalMs s.deps.tick
  · exact h.run.frame true s.hidden s.deps.intervalMs s.deps.tick

/-- Another key is rendered: what is shown belongs to the former one. -/
theorem Inv.newKey (h : Inv s) (hsettled : s.Settled) {resetKey : κ}
    (hne : resetKey ≠ s.deps.resetKey) (intervalMs : ℕ) :
    Inv { s with deps := ⟨intervalMs, s.deps.tick, resetKey⟩ } := by
  have hunsettled : ¬ s.ran.map Deps.resetKey = some resetKey := by
    intro heq
    exact hne (Option.some.inj (heq.symm.trans hsettled))
  exact {
    numbered := ⟨h.numbered.bound, h.numbered.order, fun hnow => absurd hnow hunsettled⟩
    dataFrom := h.dataFrom
    errorFrom := h.errorFrom
    latest := h.latest
    data := fun hnow => absurd hnow hunsettled
    error := fun hnow => absurd hnow hunsettled
    between := by
      intro _ e r he hr hkey
      obtain ⟨⟨message, ⟨q, hq, hqkey, -⟩, -⟩, -⟩ := h.error hsettled e he
      obtain rfl := Option.some.inj (hr.symm.trans hq)
      exact absurd (hkey.symm.trans hqkey) hne }

/-- The effects begin to poll for the key; its data is what is left. -/
theorem Inv.newEffect [DecidableEq κ] (h : Inv s) (horderly : Orderly s .effects) :
    Inv { s with
      ran := some s.deps
      effect := s.effect + 1
      data := if s.Settled then s.data else none } where
  -- No poll of the new effect has been asked for, so none is live.
  numbered := {
    bound := fun i r hr => (h.numbered.bound i r hr).trans (Nat.le_succ _)
    order := h.numbered.order
    keys := by
      intro _ i r hr hlive
      have hbound := h.numbered.bound i r hr
      have hlive : r.effect = s.effect + 1 := hlive
      omega }
  dataFrom := by
    intro d hd
    have hd : (if s.Settled then s.data else none) = some d := hd
    split at hd
    · exact h.dataFrom d hd
    · cases hd
  errorFrom := h.errorFrom
  latest := by
    rintro i a ⟨r, hr, hlive, -⟩ _
    have hbound := h.numbered.bound i r hr
    have hlive : r.effect = s.effect + 1 := hlive
    omega
  data := by
    intro _ d hd
    have hd : (if s.Settled then s.data else none) = some d := hd
    split at hd
    · next hsettled => exact h.data hsettled d hd
    · cases hd
  error := by
    intro _ e he
    by_cases hsettled : s.Settled
    · exact h.error hsettled e he
    · -- The error is of a poll for the new key, so of the effect that the render found.
      obtain ⟨r, hr, hkey⟩ := horderly hsettled e he
      have hlive := h.between hsettled e r he hr hkey
      obtain ⟨q, message, hq, hans, htext⟩ := h.errorFrom e he
      obtain rfl := Option.some.inj (hr.symm.trans hq)
      exact ⟨⟨message, ⟨r, hr, hkey, hans⟩, htext⟩, fun j b hj =>
        h.numbered.answered_le hr hlive (fun _ _ => h.error_latest he) hj⟩
  between := fun hunsettled => absurd rfl hunsettled

/-- Data of another key is dropped. -/
theorem resetData_eq [DecidableEq κ] :
    s.resetData = { s with data := if s.Settled then s.data else none } := by
  unfold Hook.resetData
  split
  · rfl
  · rfl

/-- An effect polls at once. -/
theorem beginPolling_eq : s.beginPolling = { s.run with timer := !s.hidden || s.timer } := by
  show (if s.hidden then s.run else s.run.startTimer) = _
  cases s.hidden
  · rfl
  · rfl

/-- The effects of a render that changed their dependencies. -/
theorem effects_eq [DecidableEq κ] (hran : s.ran ≠ some s.deps) :
    s.effects = { s with
      ran := some s.deps
      effect := s.effect + 1
      timer := !s.hidden
      requests := s.requests ++ [⟨s.effect + 1, s.deps.resetKey, none⟩]
      data := if s.Settled then s.data else none } := by
  rw [Hook.effects, if_neg hran, resetData_eq, beginPolling_eq]
  simp only [Hook.cleanUp, Hook.stopTimer, Bool.or_false]
  rfl

/-- **The effects keep the invariant.** -/
theorem Inv.effects [DecidableEq κ] (h : Inv s) (horderly : Orderly s .effects) :
    Inv s.effects := by
  by_cases hran : s.ran = some s.deps
  · rw [Hook.effects, if_pos hran]
    exact h
  · rw [effects_eq hran]
    exact (h.newEffect horderly).run.frame (!s.hidden) s.hidden s.deps.intervalMs s.deps.tick

/-- An answer moves no number. -/
theorem Numbered.settle (h : Numbered s) (hr : s.requests[i]? = some r) :
    Numbered (s.settle i a) := by
  -- Every poll has the effect and the key that it had.
  have hold : ∀ {j : ℕ} {q : Request κ T}, (s.settle i a).requests[j]? = some q →
      ∃ q', s.requests[j]? = some q' ∧ q'.effect = q.effect ∧ q'.resetKey = q.resetKey := by
    intro j q hq
    rcases (getElem?_settle hr).mp hq with ⟨-, hq⟩ | ⟨rfl, rfl⟩
    · exact ⟨q, hq, rfl, rfl⟩
    · exact ⟨r, hr, rfl, rfl⟩
  constructor
  · intro j q hq
    obtain ⟨q', hq', heffect, -⟩ := hold hq
    exact heffect ▸ h.bound j q' hq'
  · intro j k q p hq hp hlt
    obtain ⟨q', hq', hqeffect, -⟩ := hold hq
    obtain ⟨p', hp', hpeffect, -⟩ := hold hp
    exact h.order j k q' p' hq' hp' (by omega)
  · intro hsettled j q hq hlive
    obtain ⟨q', hq', heffect, hkey⟩ := hold hq
    exact hkey ▸ h.keys hsettled j q' hq' (heffect.trans hlive)

/-- The data is still that of its poll. -/
theorem Inv.dataFrom_settle (h : Inv s) (hr : s.requests[i]? = some r) (hnone : r.answer = none)
    {d : Shown T} (hd : s.data = some d) :
    ∃ q, (s.settle i a).requests[d.request]? = some q ∧ q.answer = some (.value d.value) := by
  obtain ⟨q, hq, hans⟩ := h.dataFrom d hd
  exact ⟨q, getElem?_settle_of_answered hr hnone hq hans, hans⟩

/-- The error is still that of its poll. -/
theorem Inv.errorFrom_settle (h : Inv s) (hr : s.requests[i]? = some r) (hnone : r.answer = none)
    {e : Shown String} (he : s.error = some e) :
    ∃ q message, (s.settle i a).requests[e.request]? = some q ∧
      q.answer = some (.rejected message) ∧ e.value = Hook.errorText message := by
  obtain ⟨q, message, hq, hans, htext⟩ := h.errorFrom e he
  exact ⟨q, message, getElem?_settle_of_answered hr hnone hq hans, hans, htext⟩

/-- A cancelled poll settles. -/
theorem Inv.settle (h : Inv s) (hr : s.requests[i]? = some r) (hnone : r.answer = none)
    (hcancelled : r.effect ≠ s.effect) (horderly : Orderly s (.answer i a)) :
    Inv (s.settle i a) := by
  have hlate := horderly r hr hnone
  rw [if_neg hcancelled] at hlate
  -- The poll is of another effect, so the live answers are the ones that there were.
  have hlive : ∀ {j : ℕ} {b : Answer T},
      (s.settle i a).LiveAnswered j b ↔ s.LiveAnswered j b := by
    intro j b
    rw [liveAnswered_settle hr hnone]
    simp [hcancelled]
  exact {
    numbered := h.numbered.settle hr
    dataFrom := fun d hd => h.dataFrom_settle hr hnone hd
    errorFrom := fun e he => h.errorFrom_settle hr hnone he
    latest := fun j b hj hlatest =>
      h.latest j b (hlive.mp hj) fun k c hk => hlatest k c (hlive.mpr hk)
    data := by
      intro hsettled d hd
      obtain ⟨hfrom, hle⟩ := h.data hsettled d hd
      refine ⟨(answered_settle hr hnone).mpr (Or.inl hfrom), fun j v hj => ?_⟩
      rcases (answered_settle hr hnone).mp hj with hj | ⟨rfl, rfl, hkey⟩
      · exact hle j v hj
      · exact (hlate hsettled hkey).2 rfl d hd
    error := by
      intro hsettled e he
      obtain ⟨⟨message, hfrom, htext⟩, hle⟩ := h.error hsettled e he
      refine ⟨⟨message, (answered_settle hr hnone).mpr (Or.inl hfrom), htext⟩, fun j b hj => ?_⟩
      rcases (answered_settle hr hnone).mp hj with hj | ⟨rfl, rfl, hkey⟩
      · exact hle j b hj
      · exact (hlate hsettled hkey).1 e he
    between := by
      intro hsettled e q he hq hkey
      rcases (getElem?_settle hr).mp hq with ⟨-, hq⟩ | ⟨hi, -⟩
      · exact h.between hsettled e q he hq hkey
      · obtain ⟨p, message, hp, hans, -⟩ := h.errorFrom e he
        exact absurd hi (ne_of_answered hr hnone hp hans) }

/-- An orderly answer to a poll that is not cancelled comes after those of its effect. -/
theorem Orderly.le_of_liveAnswered (horderly : Orderly s (.answer i a))
    (hr : s.requests[i]? = some r) (hnone : r.answer = none) (hlive : r.effect = s.effect)
    {j : ℕ} {b : Answer T} (hj : s.LiveAnswered j b) : j ≤ i := by
  obtain ⟨q, hq, hqlive, hans⟩ := hj
  have hearlier := horderly r hr hnone
  rw [if_pos hlive] at hearlier
  exact hearlier j q hq hqlive (by rw [hans]; simp)

/-- Poll `i` has just been answered, and no later one was: not for the key, nor by its effect. -/
structure Newest (s : Hook κ T) (i : ℕ) (a : Answer T) : Prop where
  answered : s.Settled → s.Answered i a
  le : ∀ j b, s.Answered j b → j ≤ i
  latest : ∀ j b, s.LiveAnswered j b → (∀ k c, s.LiveAnswered k c → k ≤ j) → j = i ∧ b = a

/-- An answer that is not overtaken is the newest. -/
theorem Numbered.newest (h : Numbered s) (hr : s.requests[i]? = some r) (hnone : r.answer = none)
    (hlive : r.effect = s.effect) (horderly : Orderly s (.answer i a)) :
    Newest (s.settle i a) i a where
  answered := by
    intro hsettled
    exact (answered_settle hr hnone).mpr (Or.inr ⟨rfl, rfl, h.keys hsettled i r hr hlive⟩)
  le := by
    intro j b hj
    rcases (answered_settle hr hnone).mp hj with hj | ⟨rfl, -, -⟩
    · exact h.answered_le hr hlive
        (fun _ _ hk => horderly.le_of_liveAnswered hr hnone hlive hk) hj
    · exact le_rfl
  latest := by
    intro j b hj hmax
    rcases (liveAnswered_settle hr hnone).mp hj with hbefore | ⟨hji, hba, -⟩
    · have hij := hmax i a ((liveAnswered_settle hr hnone).mpr (Or.inr ⟨rfl, rfl, hlive⟩))
      have hle := horderly.le_of_liveAnswered hr hnone hlive hbefore
      obtain ⟨q, hq, -, hans⟩ := hbefore
      exact absurd (le_antisymm hle hij) (ne_of_answered hr hnone hq hans)
    · exact ⟨hji, hba⟩

/-- A poll of the effect that is not cancelled is answered with data. -/
theorem Inv.receive_value {v : T} (h : Inv s) (hr : s.requests[i]? = some r)
    (hnone : r.answer = none) (hlive : r.effect = s.effect)
    (horderly : Orderly s (.answer i (.value v))) :
    Inv ((s.settle i (.value v)).receive i (.value v)) := by
  have hnumbered := h.numbered.settle (a := .value v) hr
  have hnewest := h.numbered.newest hr hnone hlive horderly
  exact {
    numbered := ⟨hnumbered.bound, hnumbered.order, hnumbered.keys⟩
    dataFrom := by
      intro d hd
      obtain rfl := Option.some.inj hd
      exact ⟨_, (getElem?_settle hr).mpr (Or.inr ⟨rfl, rfl⟩), rfl⟩
    errorFrom := fun e he => absurd he (by simp [Hook.receive])
    latest := by
      intro j b hj hmax
      obtain ⟨rfl, rfl⟩ := hnewest.latest j b hj hmax
      exact ⟨rfl, rfl⟩
    data := by
      intro hsettled d hd
      obtain rfl := Option.some.inj hd
      exact ⟨hnewest.answered hsettled, fun j w hj => hnewest.le j (.value w) hj⟩
    error := fun _ e he => absurd he (by simp [Hook.receive])
    between := fun _ e _ he => absurd he (by simp [Hook.receive]) }

/-- A poll of the effect that is not cancelled is rejected: the data stays. -/
theorem Inv.receive_rejected {message : Option String} (h : Inv s) (hr : s.requests[i]? = some r)
    (hnone : r.answer = none) (hlive : r.effect = s.effect)
    (horderly : Orderly s (.answer i (.rejected message))) :
    Inv ((s.settle i (.rejected message)).receive i (.rejected message)) := by
  have hnumbered := h.numbered.settle (a := .rejected message) hr
  -- The answer is the newest of the live ones, and it is what the error shows.
  have hnewest := h.numbered.newest hr hnone hlive horderly
  have hi : (s.settle i (.rejected message)).requests[i]? =
      some { r with answer := some (.rejected message) } :=
    (getElem?_settle hr).mpr (Or.inr ⟨rfl, rfl⟩)
  exact {
    numbered := ⟨hnumbered.bound, hnumbered.order, hnumbered.keys⟩
    dataFrom := fun d hd => h.dataFrom_settle hr hnone hd
    errorFrom := by
      intro e he
      obtain rfl := Option.some.inj he
      exact ⟨_, message, hi, rfl, rfl⟩
    latest := by
      intro j b hj hmax
      obtain ⟨rfl, rfl⟩ := hnewest.latest j b hj hmax
      exact rfl
    data := by
      intro hsettled d hd
      obtain ⟨hfrom, hle⟩ := h.data hsettled d hd
      refine ⟨(answered_settle hr hnone).mpr (Or.inl hfrom), fun j v hj => ?_⟩
      rcases (answered_settle hr hnone).mp hj with hj | ⟨-, hv, -⟩
      · exact hle j v hj
      · cases hv
    error := by
      intro hsettled e he
      obtain rfl := Option.some.inj he
      exact ⟨⟨message, hnewest.answered hsettled, rfl⟩, hnewest.le⟩
    between := by
      intro _ e q he hq _
      obtain rfl := Option.some.inj he
      obtain rfl := Option.some.inj (hi.symm.trans hq)
      exact hlive }

/-- A poll of the effect that is not cancelled is answered, after all that were before. -/
theorem Inv.receive (h : Inv s) (hr : s.requests[i]? = some r) (hnone : r.answer = none)
    (hlive : r.effect = s.effect) (horderly : Orderly s (.answer i a)) :
    Inv ((s.settle i a).receive i a) := by
  cases a with
  | value v => exact h.receive_value hr hnone hlive horderly
  | rejected message => exact h.receive_rejected hr hnone hlive horderly

variable [DecidableEq κ]

/-- A poll is answered once. -/
theorem step_answer (hstep : step s (.answer i a) = some s') :
    ∃ r, s.requests[i]? = some r ∧ r.answer = none ∧
      s' = if r.effect = s.effect then (s.settle i a).receive i a else s.settle i a := by
  simp only [step] at hstep
  split at hstep
  · cases hstep
  · next r hr =>
    split at hstep
    · cases hstep
    · next hsome => exact ⟨r, hr, by simpa using hsome, (Option.some.inj hstep).symm⟩

/-- **An orderly step keeps the invariant.** -/
theorem inv_step {act : Action κ T} (h : Inv s) (horderly : Orderly s act)
    (hstep : step s act = some s') : Inv s' := by
  cases act with
  | interval =>
    simp only [step] at hstep
    split at hstep
    · exact Option.some.inj hstep ▸ h.run
    · cases hstep
  | visibility hidden =>
    have hframe := h.frame s.timer hidden s.deps.intervalMs s.deps.tick
    obtain rfl := Option.some.inj hstep
    split
    · exact hframe
    · exact hframe.onVisibility
  | reload =>
    obtain rfl := Option.some.inj hstep
    exact h.frame s.timer s.hidden s.deps.intervalMs (s.deps.tick + 1)
  | render resetKey intervalMs =>
    simp only [step] at hstep
    split at hstep
    · next hran =>
      obtain rfl := Option.some.inj hstep
      have hsettled : s.Settled := by
        show s.ran.map Deps.resetKey = _
        cases hs : s.ran with
        | none => simp [hs] at hran
        | some d => simp_all
      -- Without a new key the render only changes the interval.
      by_cases hkey : resetKey = s.deps.resetKey
      · subst hkey
        exact h.frame s.timer s.hidden intervalMs s.deps.tick
      · exact h.newKey hsettled hkey intervalMs
    · cases hstep
  | effects => exact Option.some.inj hstep ▸ h.effects horderly
  | answer i a =>
    obtain ⟨r, hr, hnone, rfl⟩ := step_answer hstep
    split
    · next hlive => exact h.receive hr hnone hlive horderly
    · next hcancelled => exact h.settle hr hnone hcancelled horderly

/-! ## Never back to an older poll -/

/-- What is asked of one step. -/
def Good (s : Hook κ T) (act : Action κ T) : Prop :=
  ∀ s', step s act = some s' →
    (s'.Settled → UpToDate s') ∧ ∀ i a, act = .answer i a → KeepsLater s s' i

/-- An orderly answer leaves alone what came from a later poll: there is no such thing, or the
poll is cancelled. -/
theorem Inv.keepsLater (h : Inv s) (horderly : Orderly s (.answer i a))
    (hstep : step s (.answer i a) = some s') : KeepsLater s s' i := by
  obtain ⟨r, hr, hnone, rfl⟩ := step_answer hstep
  split
  · next hlive =>
    have hnot : ∀ j q b, s.requests[j]? = some q → q.answer = some b → ¬ i < j := by
      intro j q b hq hans hij
      have hqlive := h.numbered.effect_of_le hr hq hlive hij.le
      have hle := horderly.le_of_liveAnswered hr hnone hlive ⟨q, hq, hqlive, hans⟩
      omega
    rintro (⟨d, hd, hi⟩ | ⟨e, he, hi⟩)
    · obtain ⟨q, hq, hans⟩ := h.dataFrom d hd
      exact absurd hi (hnot _ q _ hq hans)
    · obtain ⟨q, message, hq, hans, -⟩ := h.errorFrom e he
      exact absurd hi (hnot _ q _ hq hans)
  · exact fun _ => ⟨rfl, rfl⟩

omit [DecidableEq κ] in
/-- A live answer that spares what came from later polls overtakes none of its effect. -/
theorem Inv.le_of_keepsLater (h : Inv s) (hkeeps : KeepsLater s ((s.settle i a).receive i a) i)
    {j : ℕ} {b : Answer T} (hj : s.LiveAnswered j b) : j ≤ i := by
  obtain ⟨n, c, hjn, hn, hlatest⟩ := exists_latest hj
  have hshows := h.latest n c hn hlatest
  by_contra hij
  cases c with
  | value w =>
    have hkept := hkeeps (Or.inl ⟨_, hshows.1, by show i < n; omega⟩)
    cases a with
    | value v =>
      have heq : some (Shown.mk i v) = some ⟨n, w⟩ := hkept.1.trans hshows.1
      cases heq
      omega
    | rejected message => exact absurd (hkept.2.trans hshows.2) (by simp [Hook.receive])
  | rejected text =>
    have hkept := hkeeps (Or.inr ⟨_, hshows, by show i < n; omega⟩)
    cases a with
    | value v => exact absurd (hkept.2.trans hshows) (by simp [Hook.receive])
    | rejected message =>
      have heq : some (Shown.mk i (Hook.errorText message)) = some ⟨n, Hook.errorText text⟩ :=
        hkept.2.trans hshows
      have hin : i = n := congrArg Shown.request (Option.some.inj heq)
      omega

/-- **A step is good exactly when it is orderly.** -/
theorem good_iff (h : Inv s) (act : Action κ T) : Good s act ↔ Orderly s act := by
  constructor
  · intro hgood
    cases act with
    | interval => trivial
    | visibility hidden => trivial
    | reload => trivial
    | render resetKey intervalMs => trivial
    | effects =>
      intro hsettled e he
      have hran : s.ran ≠ some s.deps := fun hran =>
        hsettled (congrArg (Option.map Deps.resetKey) hran)
      obtain ⟨hupToDate, -⟩ := hgood s.effects rfl
      rw [effects_eq hran] at hupToDate
      obtain ⟨⟨message, ⟨r, hr, hkey, hans⟩, -⟩, -⟩ := (hupToDate rfl).error e he
      obtain ⟨q, text, hq, -⟩ := h.errorFrom e he
      have hlt := (List.getElem?_eq_some_iff.mp hq).1
      exact ⟨r, (List.getElem?_append_left hlt).symm.trans hr, hkey⟩
    | answer i a =>
      intro r hr hnone
      have hstep : step s (.answer i a) =
          some (if r.effect = s.effect then (s.settle i a).receive i a else s.settle i a) := by
        simp [step, hr, hnone]
      obtain ⟨hupToDate, hkeeps⟩ := hgood _ hstep
      split
      · next hlive =>
        rw [if_pos hlive] at hkeeps
        intro j q hq hqlive hans
        obtain ⟨b, hb⟩ := Option.ne_none_iff_exists'.mp hans
        exact h.le_of_keepsLater (hkeeps i a rfl) ⟨q, hq, hqlive, hb⟩
      · next hcancelled =>
        rw [if_neg hcancelled] at hupToDate
        intro hsettled hkey
        have hanswered : (s.settle i a).Answered i a :=
          (answered_settle hr hnone).mpr (Or.inr ⟨rfl, rfl, hkey⟩)
        refine ⟨fun e he => ((hupToDate hsettled).error e he).2 i a hanswered, ?_⟩
        intro hvalue d hd
        cases a with
        | value v => exact ((hupToDate hsettled).data d hd).2 i v hanswered
        | rejected message => cases hvalue
  · intro horderly s' hstep
    refine ⟨(inv_step h horderly hstep).upToDate, ?_⟩
    rintro i a rfl
    exact h.keepsLater horderly hstep

/-- What is asked of a run, step by step. -/
theorem neverStepsBack_iff_along {s₀ : Hook κ T} {as : List (Action κ T)}
    (hstart : s₀.Settled → UpToDate s₀) :
    NeverStepsBack s₀ as ↔ Along Good step s₀ as := by
  constructor
  · intro hnever
    rw [along_iff]
    intro pre act post s hsplit hrun s' hstep
    constructor
    · refine hnever.upToDate (pre ++ [act]) post s' (by simp [hsplit]) ?_
      rw [run_append, hrun]
      simp [hstep]
    · rintro i a rfl
      exact hnever.keepsLater pre i a post s s' hsplit hrun hstep
  · intro halong
    rw [along_iff] at halong
    constructor
    · intro pre post s hsplit hrun
      rcases List.eq_nil_or_concat' pre with rfl | ⟨init, act, rfl⟩
      · obtain rfl := Option.some.inj hrun
        exact hstart
      · rw [run_append, Option.bind_eq_some_iff] at hrun
        obtain ⟨t, ht, hstep⟩ := hrun
        rw [run_cons, Option.bind_eq_some_iff] at hstep
        obtain ⟨s', hstep, hs'⟩ := hstep
        obtain rfl := Option.some.inj hs'
        exact (halong init act post t (by simp [hsplit]) ht s' hstep).1
    · intro pre i a post s s' hsplit hrun hstep
      exact (halong pre _ post s hsplit hrun s' hstep).2 i a rfl

/-- **The page never steps back exactly along the orderly runs**, whatever is rendered, however
often it polls and in whichever order the polls are answered. -/
theorem never_steps_back_iff (resetKey : κ) (intervalMs : ℕ) (hidden : Bool)
    (as : List (Action κ T)) :
    NeverStepsBack (mount resetKey intervalMs hidden) as ↔
      Along Orderly step (mount resetKey intervalMs hidden) as := by
  have hmount := inv_mount (T := T) resetKey intervalMs hidden
  rw [neverStepsBack_iff_along hmount.upToDate]
  exact along_congr (fun _ _ _ h horderly hstep => inv_step h horderly hstep)
    (fun _ act h => good_iff h act) as _ hmount

end Steps

/-- Two polls of one effect overlap, and the answer of the first replaces that of the second. -/
theorem earlier_answer_replaces_later :
    ¬ ∀ as : List (Action String ℕ), NeverStepsBack (mount "channel" 2000 false) as := by
  intro h
  have hkeeps := (h [.effects, .interval, .answer 1 (.value 1), .answer 0 (.value 0)]).keepsLater
    [.effects, .interval, .answer 1 (.value 1)] 0 (.value 0) [] _ _ rfl rfl rfl
    (Or.inl ⟨⟨1, 1⟩, rfl, by decide⟩)
  have hdata : some (Shown.mk 0 0) = some (Shown.mk 1 1) := hkeeps.1
  cases hdata

end Code

end UsePoll
