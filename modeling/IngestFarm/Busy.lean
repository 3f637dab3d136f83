/-
# One request at a time

A client that disables what sends a request while it waits for the answer.  It remembers the key
of the last request; a key whose own request is the last one is disabled, the answer to any
request enables all keys again.  With one key there is never more than one request on its way, and
the server handles the requests in the order in which they were sent.  With several keys the same
holds until a request is sent while that of another key is on its way; each such request allows
one more (`Bounded`).

A request that is answered before the server has handled it is one that never reached it.
-/
import IngestFarm.Runs

namespace Busy

variable {κ ρ : Type}

/-- A request on its way, and whether the server has handled it. -/
structure Call (κ ρ : Type) where
  /-- The key that it keeps disabled. -/
  key : κ
  /-- What is asked for. -/
  request : ρ
  /-- The server has handled it. -/
  handled : Bool

/-- The client, and what was sent and handled so far. -/
structure Lock (κ ρ : Type) where
  /-- The key that is disabled. -/
  busy : Option κ
  /-- The requests on their way, in the order in which they were sent. -/
  awaited : List (Call κ ρ)
  /-- All requests that were sent. -/
  sent : List (κ × ρ)
  /-- All that the server has handled. -/
  handled : List (κ × ρ)

namespace Lock

/-- A client that has sent nothing. -/
def free : Lock κ ρ := ⟨none, [], [], []⟩

/-- Send a request, unless its key is disabled. -/
def send [DecidableEq κ] (l : Lock κ ρ) (k : κ) (r : ρ) : Option (Lock κ ρ) :=
  if l.busy = some k then none
  else some { l with
    busy := some k
    awaited := l.awaited ++ [⟨k, r, false⟩]
    sent := l.sent ++ [(k, r)] }

/-- The server handles request `i` of those on their way. -/
def handle (l : Lock κ ρ) (i : ℕ) : Option (Lock κ ρ) :=
  match l.awaited[i]? with
  | none => none
  | some x =>
    if x.handled then none
    else some { l with
      awaited := l.awaited.set i { x with handled := true }
      handled := l.handled ++ [(x.key, x.request)] }

/-- Request `i` is answered or has failed. -/
def answer (l : Lock κ ρ) (i : ℕ) : Option (Lock κ ρ) :=
  if i < l.awaited.length then some { l with busy := none, awaited := l.awaited.eraseIdx i }
  else none

end Lock

/-- The steps of a client and its server. -/
inductive Act (κ ρ : Type) where
  | send (k : κ) (r : ρ)
  | handle (i : ℕ)
  | answer (i : ℕ)

/-- A step. -/
def step [DecidableEq κ] (l : Lock κ ρ) : Act κ ρ → Option (Lock κ ρ)
  | .send k r => l.send k r
  | .handle i => l.handle i
  | .answer i => l.answer i

/-- The step sends a request while another one is the last. -/
def overtakes (l : Lock κ ρ) : Act κ ρ → Bool
  | .send _ _ => l.busy.isSome
  | _ => false

/-! ## What a step does to the log of requests -/

section Steps

variable [DecidableEq κ] {l l' : Lock κ ρ}

/-- A request is sent. -/
theorem sent_of_send {k : κ} {r : ρ} (h : step l (.send k r) = some l') :
    l'.sent = l.sent ++ [(k, r)] := by
  simp only [step, Lock.send] at h
  split_ifs at h
  obtain rfl := Option.some.inj h
  rfl

/-- Handling sends nothing. -/
theorem sent_of_handle {i : ℕ} (h : step l (.handle i) = some l') : l'.sent = l.sent := by
  simp only [step, Lock.handle] at h
  split at h
  · cases h
  · split_ifs at h
    obtain rfl := Option.some.inj h
    rfl

/-- Nor does an answer. -/
theorem sent_of_answer {i : ℕ} (h : step l (.answer i) = some l') : l'.sent = l.sent := by
  simp only [step, Lock.answer] at h
  split_ifs at h
  obtain rfl := Option.some.inj h
  rfl

end Steps

/-! ## How many requests are on their way -/

/-- No more than `n + 1` requests are on their way, and one less when nothing is disabled. -/
structure Bounded (n : ℕ) (l : Lock κ ρ) : Prop where
  awaited : l.awaited.length ≤ n + 1
  free : l.busy = none → l.awaited.length ≤ n

/-- A larger bound. -/
theorem Bounded.mono {m n : ℕ} {l : Lock κ ρ} (h : Bounded m l) (hmn : m ≤ n) : Bounded n l :=
  ⟨by have := h.awaited; omega, fun hfree => (h.free hfree).trans hmn⟩

/-- **One step**: only a request that overtakes another raises the bound. -/
theorem Bounded.step [DecidableEq κ] {n : ℕ} {l l' : Lock κ ρ} {a : Act κ ρ} (h : Bounded n l)
    (hstep : step l a = some l') : Bounded (n + (overtakes l a).toNat) l' := by
  cases a with
  | send k r =>
    simp only [Busy.step, Lock.send] at hstep
    split_ifs at hstep
    obtain rfl := Option.some.inj hstep
    refine ⟨?_, fun hfree => absurd hfree (by simp)⟩
    simp only [overtakes, List.length_append, List.length_singleton]
    cases hbusy : l.busy with
    | none =>
      have hn := h.free hbusy
      simp only [Option.isSome_none, Bool.toNat_false]
      omega
    | some k' =>
      have hn := h.awaited
      simp only [Option.isSome_some, Bool.toNat_true]
      omega
  | handle i =>
    simp only [Busy.step, Lock.handle] at hstep
    split at hstep
    · cases hstep
    · split_ifs at hstep
      obtain rfl := Option.some.inj hstep
      exact ⟨by simpa [overtakes] using h.awaited, by simpa [overtakes] using h.free⟩
  | answer i =>
    simp only [Busy.step, Lock.answer] at hstep
    split_ifs at hstep with hi
    obtain rfl := Option.some.inj hstep
    have hlen : (l.awaited.eraseIdx i).length = l.awaited.length - 1 :=
      List.length_eraseIdx_of_lt hi
    have hn := h.awaited
    refine ⟨?_, fun _ => ?_⟩
    · show (l.awaited.eraseIdx i).length ≤ n + 0 + 1
      omega
    · show (l.awaited.eraseIdx i).length ≤ n + 0
      omega

/-! ## The order of the requests -/

/-- At most one request is on its way, and it is the last one sent; the server has handled some of
those sent, in their order. -/
inductive InOrder (l : Lock κ ρ) : Prop
  /-- Nothing is on its way. -/
  | free (hawaited : l.awaited = []) (hhandled : l.handled.Sublist l.sent)
  /-- The last request is on its way to the server. -/
  | sent {k : κ} {r : ρ} {before : List (κ × ρ)} (hbusy : l.busy.isSome)
      (hawaited : l.awaited = [⟨k, r, false⟩]) (hsent : l.sent = before ++ [(k, r)])
      (hhandled : l.handled.Sublist before) : InOrder l
  /-- Its answer is on its way back. -/
  | handled {k : κ} {r : ρ} (hbusy : l.busy.isSome) (hawaited : l.awaited = [⟨k, r, true⟩])
      (hhandled : l.handled.Sublist l.sent) : InOrder l

theorem inOrder_free : InOrder (Lock.free : Lock κ ρ) := .free rfl (List.Sublist.refl [])

/-- What was handled was sent, in the same order. -/
theorem InOrder.sublist {l : Lock κ ρ} (h : InOrder l) : l.handled.Sublist l.sent := by
  cases h with
  | free _ hhandled => exact hhandled
  | sent _ _ hsent hhandled =>
    rw [hsent]
    exact hhandled.trans (List.sublist_append_left _ _)
  | handled _ _ hhandled => exact hhandled

/-- At most one is on its way. -/
theorem InOrder.awaited_le {l : Lock κ ρ} (h : InOrder l) : l.awaited.length ≤ 1 := by
  cases h with
  | free hawaited _ => simp [hawaited]
  | sent _ hawaited _ _ => simp [hawaited]
  | handled _ hawaited _ => simp [hawaited]

/-- When nothing is disabled nothing is on its way. -/
theorem InOrder.awaited_nil {l : Lock κ ρ} (h : InOrder l) (hfree : l.busy = none) :
    l.awaited = [] := by
  cases h with
  | free hawaited _ => exact hawaited
  | sent hbusy _ _ _ => simp [hfree] at hbusy
  | handled hbusy _ _ => simp [hfree] at hbusy

/-- **One step** that overtakes nothing keeps the order. -/
theorem InOrder.step [DecidableEq κ] {l l' : Lock κ ρ} {a : Act κ ρ} (h : InOrder l)
    (hover : overtakes l a = false) (hstep : step l a = some l') : InOrder l' := by
  cases a with
  | send k r =>
    have hfree : l.busy = none := by simpa [overtakes] using hover
    have hawaited := h.awaited_nil hfree
    simp only [Busy.step, Lock.send, hfree] at hstep
    rw [if_neg (by simp)] at hstep
    obtain rfl := Option.some.inj hstep
    exact .sent rfl (by simp [hawaited]) rfl h.sublist
  | handle i =>
    simp only [Busy.step, Lock.handle] at hstep
    split at hstep
    · cases hstep
    · rename_i x hx
      split_ifs at hstep with hhandled
      obtain rfl := Option.some.inj hstep
      cases h with
      | free hawaited _ => simp [hawaited] at hx
      | handled _ hawaited _ =>
        -- The only request on its way has been handled.
        rw [hawaited] at hx
        have hi := List.mem_of_getElem? hx
        simp only [List.mem_singleton] at hi
        exact absurd (congrArg Call.handled hi) hhandled
      | sent hbusy hawaited hsent hsub =>
        rw [hawaited, List.getElem?_singleton] at hx
        split_ifs at hx with hi
        obtain rfl := Option.some.inj hx
        subst hi
        refine .handled hbusy (by rw [hawaited]; rfl) ?_
        rw [hsent]
        exact hsub.append (List.Sublist.refl _)
  | answer i =>
    have hle := h.awaited_le
    have hsub := h.sublist
    simp only [Busy.step, Lock.answer] at hstep
    split_ifs at hstep with hi
    obtain rfl := Option.some.inj hstep
    refine .free ?_ hsub
    apply List.eq_nil_of_length_eq_zero
    have hlen : (l.awaited.eraseIdx i).length = l.awaited.length - 1 :=
      List.length_eraseIdx_of_lt hi
    show (l.awaited.eraseIdx i).length = 0
    omega

/-- With one key nothing is overtaken. -/
theorem overtakes_eq_false [DecidableEq κ] [Subsingleton κ] {l l' : Lock κ ρ} {a : Act κ ρ}
    (hstep : step l a = some l') : overtakes l a = false := by
  cases a with
  | send k r =>
    cases hbusy : l.busy with
    | none => simp [overtakes, hbusy]
    | some k' =>
      obtain rfl := Subsingleton.elim k k'
      simp [Busy.step, Lock.send, hbusy] at hstep
  | handle i => rfl
  | answer i => rfl

end Busy
