/-
# The published ETR 290 entry

`snapshot_is_fresh` of `ingest_farm/worker/etr290.py`, and `_etr290_status_payload` with its caller
`_write_status` of `ingest_farm/worker/srt_session_proc.py`.  The child reads `etr290.json`, which
the sidecar writes, and keeps the last available entry for polls without a file.  Times are seconds
in exact arithmetic; what the file holds is any JSON value, or nothing that can be read.
-/
import IngestFarm.PidStructure
import IngestFarm.Etr290
import IngestFarm.Runs

namespace Etr290

/-- A decoded JSON object. -/
abbrev Doc := List (String × Json)

/-- `doc[key] = value`: an old value is replaced; the order of the keys is nothing to a reader. -/
def setField (key : String) (value : Json) (doc : Doc) : Doc :=
  (doc.filter fun e => e.1 ≠ key) ++ [(key, value)]

/-- `x is True`: truthy values are not enough. -/
def isTrue : Json → Bool
  | .bool b => b
  | _ => false

/-! ## Freshness -/

/-- `STALE_INTERVALS` and `MIN_FRESH_SEC`: the age, in seconds, up to which a snapshot is fresh. -/
def maxAge (intervalSec : ℤ) : ℚ := max 10 (3 * max 1 intervalSec : ℤ)

/-- `float(updated)` of an `int` or a `float`: the inner `none` is any other value, the outer one
an integer that no float holds. -/
def asNumber : Json → Option (Option PyFloat)
  | .bool b => some (some (.finite (if b then 1 else 0)))
  | .int n => if fitsFloat n = true then some (some (.finite n)) else none
  | .float x => some (some x)
  | _ => some none

/-- A time that is at most `age` before `now`. -/
def isWithin (age now : ℚ) : PyFloat → Bool
  | .finite q => now - q ≤ age
  | .inf neg => !neg
  | .nan => false

section Freshness

variable (b : Builtins)

/-- `int(snap.get("interval_sec") or 2)`: a missing interval and zero are both two seconds. -/
def intervalOf (snap : Doc) : Option ℤ :=
  let value := get snap "interval_sec"
  match pyInt b (if value.truthy = true then value else .int 2) with
  | .number n => some n
  | _ => none

/-- `snapshot_is_fresh`; `none` is an exception. -/
def snapshotIsFresh (snap : Doc) (now : ℚ) : Option Bool :=
  if (get snap "available").truthy = false then some false
  else
    match asNumber (get snap "updated_at"), intervalOf b snap with
    | some none, _ => some false
    | some (some updated), some interval => some (isWithin (maxAge interval) now updated)
    | _, _ => none

end Freshness

/-! ## The payload -/

/-- What reading `etr290.json` gives: no file, an `OSError` or a `JSONDecodeError`, another
exception, a value that is no object, or an object. -/
inductive FileRead (δ : Type) where
  | missing
  | unreadable
  | raises
  | other
  | document (d : δ)

/-- The objects that a file can hold are a type `δ`, which is seen through `fields`. -/
inductive Payload (δ : Type) where
  | copy (d : δ) (tapDrops : ℤ)
  | stale (tapDrops : ℤ)

section Payload

variable {δ : Type} (b : Builtins) (fields : δ → Doc)

/-- The entry at `"etr290"`. -/
def Payload.entry : Payload δ → Doc
  | .copy d tapDrops => setField "tap_drops" (.int tapDrops) (fields d)
  | .stale tapDrops =>
    [("available", .bool false), ("reason", .str "stale"), ("tap_drops", .int tapDrops)]

/-- A copy of a snapshot that is fresh, and `otherwise` in place of one that is not. -/
def copyIfFresh (d : δ) (tapDrops : ℤ) (now : ℚ) (otherwise : Option (Payload δ)) :
    Option (Option (Payload δ)) :=
  (snapshotIsFresh b (fields d) now).map fun fresh =>
    if fresh = true then some (.copy d tapDrops) else otherwise

/-- `_etr290_status_payload`; the outer `none` is an exception, the inner one no entry. -/
def etr290StatusPayload (file : FileRead δ) (live : Bool) (tapDrops : ℤ) (last : Option δ)
    (now : ℚ) : Option (Option (Payload δ)) :=
  match file, live, last with
  | .raises, _, _ => none
  | _, false, _ => some none
  | .document data, true, _ =>
    if isTrue (get (fields data) "available") = true then
      copyIfFresh b fields data tapDrops now (some (.stale tapDrops))
    else some (some (.copy data tapDrops))
  | _, true, some snap =>
    copyIfFresh b fields snap tapDrops now
      (if (get (fields snap) "available").truthy = true then some (.stale tapDrops) else none)
  | _, true, none => some none

/-! ## Polls -/

/-- One status that was written: when, whether media was live, and the entry. -/
structure Poll (δ : Type) where
  now : ℚ
  live : Bool
  payload : Option (Payload δ)

/-- The child: the file it reads, the snapshot it keeps, and what it has published. -/
structure Child (δ : Type) where
  file : FileRead δ
  last : Option δ
  polls : List (Poll δ)

def Child.new : Child δ := ⟨.missing, none, []⟩

/-- What `etr290_last["snap"]` is after a poll.  The snapshot is kept as it was found: the
`tap_drops` that were added to it are replaced whenever it is published again. -/
def keepLast (last : Option δ) : Option (Payload δ) → Option δ
  | some (.copy d tapDrops) =>
    if (get (Payload.entry fields (.copy d tapDrops)) "available").truthy = true then some d
    else last
  | _ => last

/-- `_write_status`, as far as the entry goes; an exception leaves status and snapshot. -/
def Child.poll (c : Child δ) (live : Bool) (tapDrops : ℤ) (now : ℚ) : Child δ :=
  match etr290StatusPayload b fields c.file live tapDrops c.last now with
  | none => c
  | some payload =>
    { c with
      last := keepLast fields c.last payload
      polls := c.polls ++ [⟨now, live, payload⟩] }

/-- The sidecar (or anything else) changes the file; the child polls, or drains a reset. -/
inductive ChildAction (δ : Type) where
  | write (file : FileRead δ)
  | poll (live : Bool) (tapDrops : ℤ) (now : ℚ)
  | reset

def Child.step (c : Child δ) : ChildAction δ → Option (Child δ)
  | .write file => some { c with file := file }
  | .poll live tapDrops now => some (c.poll b fields live tapDrops now)
  | .reset => some { c with last := none }

/-- An entry that was updated recently, by its own interval. -/
def Current (now : ℚ) (entry : Doc) : Prop :=
  ∃ updated interval, asNumber (get entry "updated_at") = some (some updated) ∧
    intervalOf b entry = some interval ∧ isWithin (maxAge interval) now updated = true

/-- An entry that is available is one of live media, and a current one. -/
def Poll.Honest (p : Poll δ) : Prop :=
  ∀ payload, p.payload = some payload →
    isTrue (get (payload.entry fields) "available") = true →
    p.live = true ∧ Current b p.now (payload.entry fields)

end Payload

/-! ## Fields -/

theorem get_setField_of_ne {doc : Doc} {key key' : String} {value : Json} (h : key' ≠ key) :
    get (setField key value doc) key' = get doc key' := by
  have hfind : ((setField key value doc).reverse.find? fun e => e.1 = key') =
      doc.reverse.find? fun e => e.1 = key' := by
    unfold setField
    rw [List.reverse_append, List.reverse_singleton, List.singleton_append, List.find?_cons_of_neg
      (by simpa using Ne.symm h), ← List.filter_reverse, List.find?_filter]
    congr 1
    funext e
    by_cases he : e.1 = key'
    · simp [he, h]
    · simp [he]
  unfold get Json.field?
  rw [hfind]

/-! ## Fresh copies -/

section Proofs

variable {δ : Type} {b : Builtins} {fields : δ → Doc}

/-- What is fresh is current. -/
theorem current_of_fresh {snap : Doc} {now : ℚ} (h : snapshotIsFresh b snap now = some true) :
    Current b now snap := by
  unfold snapshotIsFresh at h
  split_ifs at h
  · exact absurd h (by simp)
  · rcases hu : asNumber (get snap "updated_at") with _ | _ | updated <;> rw [hu] at h
    · exact absurd h (by simp)
    · exact absurd h (by simp)
    · rcases hi : intervalOf b snap with _ | interval <;> rw [hi] at h
      · exact absurd h (by simp)
      · exact ⟨updated, interval, hu, hi, Option.some.inj h⟩

/-- The count of dropped buffers does not matter. -/
theorem current_setField {doc : Doc} {now : ℚ} {n : ℤ} (h : Current b now doc) :
    Current b now (setField "tap_drops" (.int n) doc) := by
  obtain ⟨updated, interval, hu, hi, hrecent⟩ := h
  refine ⟨updated, interval, ?_, ?_, hrecent⟩
  · rw [get_setField_of_ne (by decide)]
    exact hu
  · unfold intervalOf at hi ⊢
    rw [get_setField_of_ne (by decide)]
    exact hi

/-- A copy is published only while it is fresh. -/
theorem copyIfFresh_copy {d d' : δ} {n n' : ℤ} {now : ℚ} {otherwise : Option (Payload δ)}
    (hother : otherwise = none ∨ ∃ m, otherwise = some (.stale m))
    (h : copyIfFresh b fields d n now otherwise = some (some (.copy d' n'))) :
    d' = d ∧ snapshotIsFresh b (fields d) now = some true := by
  unfold copyIfFresh at h
  obtain ⟨fresh, hfresh, h⟩ := Option.map_eq_some_iff.mp h
  by_cases hf : fresh = true
  · rw [if_pos hf] at h
    subst hf
    obtain ⟨rfl, -⟩ := Payload.copy.inj (Option.some.inj h)
    exact ⟨rfl, hfresh⟩
  · rw [if_neg hf] at h
    rcases hother with rfl | ⟨m, rfl⟩
    · exact absurd h (by simp)
    · exact absurd h (by simp)

/-- Where a copy comes from: the file, or the last snapshot if the file holds none. -/
theorem payload_copy {file : FileRead δ} {live : Bool} {n m : ℤ} {last : Option δ} {now : ℚ}
    {d : δ} (h : etr290StatusPayload b fields file live n last now = some (some (.copy d m))) :
    live = true ∧
      ((file = .document d ∧ (snapshotIsFresh b (fields d) now = some true ∨
        isTrue (get (fields d) "available") = false)) ∨
      (last = some d ∧ (∀ d', file ≠ .document d') ∧
        snapshotIsFresh b (fields d) now = some true)) := by
  rcases live with _ | _
  · rcases file with _ | _ | _ | _ | _ <;> exact absurd h (by simp [etr290StatusPayload])
  · refine ⟨rfl, ?_⟩
    have hlast : ∀ snap, copyIfFresh b fields snap n now
        (if (get (fields snap) "available").truthy = true then some (.stale n) else none) =
          some (some (.copy d m)) → snap = d ∧ snapshotIsFresh b (fields d) now = some true := by
      intro snap hcopy
      obtain ⟨rfl, hf⟩ := copyIfFresh_copy (by split_ifs <;> simp) hcopy
      exact ⟨rfl, hf⟩
    rcases file with _ | _ | _ | _ | data
    case document =>
      left
      dsimp only [etr290StatusPayload] at h
      split_ifs at h with htrue
      · obtain ⟨rfl, hf⟩ := copyIfFresh_copy (Or.inr ⟨n, rfl⟩) h
        exact ⟨rfl, Or.inl hf⟩
      · obtain ⟨rfl, -⟩ := Payload.copy.inj (Option.some.inj (Option.some.inj h))
        exact ⟨rfl, Or.inr (by simpa using htrue)⟩
    case raises => exact absurd h (by simp [etr290StatusPayload])
    all_goals
      right
      rcases last with _ | snap
      · exact absurd h (by simp [etr290StatusPayload])
      · obtain ⟨rfl, hf⟩ := hlast snap h
        exact ⟨rfl, by simp, hf⟩

/-- **The payload**: an available entry is a current copy, of live media. -/
theorem payload_honest {file : FileRead δ} {live : Bool} {n : ℤ} {last : Option δ} {now : ℚ}
    {payload : Payload δ}
    (h : etr290StatusPayload b fields file live n last now = some (some payload))
    (havail : isTrue (get (payload.entry fields) "available") = true) :
    live = true ∧ Current b now (payload.entry fields) := by
  rcases payload with ⟨d, m⟩ | m
  · obtain ⟨hlive, hsource⟩ := payload_copy h
    have hget : get (Payload.entry fields (.copy d m)) "available" = get (fields d) "available" :=
      get_setField_of_ne (by decide)
    rw [hget] at havail
    refine ⟨hlive, ?_⟩
    rcases hsource with ⟨-, hf | hno⟩ | ⟨-, -, hf⟩
    · exact current_setField (current_of_fresh hf)
    · rw [hno] at havail
      exact absurd havail (by simp)
    · exact current_setField (current_of_fresh hf)
  · exact absurd havail (by simp [Payload.entry, get, Json.field?, isTrue])

/-- One poll. -/
theorem Child.poll_honest {c : Child δ} {live : Bool} {n : ℤ} {now : ℚ}
    (h : ∀ p ∈ c.polls, p.Honest b fields) :
    ∀ p ∈ (c.poll b fields live n now).polls, p.Honest b fields := by
  unfold Child.poll
  rcases hp : etr290StatusPayload b fields c.file live n c.last now with _ | payload
  · exact h
  · intro p hmem
    rcases List.mem_append.mp hmem with hmem | hmem
    · exact h p hmem
    · obtain rfl := List.mem_singleton.mp hmem
      rintro payload' rfl havail
      exact payload_honest hp havail

/-- **Stale data is never published as current.**  Whatever the file holds at any time, and in
whatever order it changes, is polled and is reset: an entry with `available` true is published only
while media is live, and not after its time. -/
theorem honest_along {δ : Type} (b : Builtins) (fields : δ → Doc) (as : List (ChildAction δ))
    (c : Child δ) (hrun : Runs.run (Child.step b fields) .new as = some c) :
    ∀ p ∈ c.polls, p.Honest b fields := by
  have hstep : ∀ (c : Child δ) a c', (∀ p ∈ c.polls, p.Honest b fields) → True →
      Child.step b fields c a = some c' → ∀ p ∈ c'.polls, p.Honest b fields := by
    intro c a c' hI _ hstep
    cases a with
    | write file =>
      obtain rfl := Option.some.inj hstep
      exact hI
    | reset =>
      obtain rfl := Option.some.inj hstep
      exact hI
    | poll live n now =>
      obtain rfl := Option.some.inj hstep
      exact Child.poll_honest hI
  exact Runs.run_invariant hstep as .new c (fun _ hp => absurd hp List.not_mem_nil)
    (Runs.along_of_forall (fun _ _ _ => trivial) _) hrun

end Proofs

/-- A snapshot that was updated at 4 seconds. -/
def sampleDoc : Doc :=
  [("available", .bool true), ("interval_sec", .int 2), ("updated_at", .int 4)]

theorem snapshotIsFresh_sampleDoc : snapshotIsFresh .ascii sampleDoc 5 = some true := by
  decide +kernel

/-- It is published at 5 seconds. -/
theorem honest_along_sampleDoc :
    Poll.Honest .ascii id (⟨5, true, some (.copy sampleDoc 0)⟩ : Poll Doc) := by
  have hpayload : etr290StatusPayload .ascii id (.document sampleDoc) true 0 none 5 =
      some (some (.copy sampleDoc 0)) := by
    have hcopy : copyIfFresh .ascii id sampleDoc 0 5 (some (.stale 0)) =
        some (some (.copy sampleDoc 0)) := by
      unfold copyIfFresh
      rw [id_eq, snapshotIsFresh_sampleDoc, Option.map_some, if_pos rfl]
    exact hcopy
  have hpoll : Child.poll .ascii id ⟨.document sampleDoc, none, []⟩ true 0 5 =
      ⟨.document sampleDoc, some sampleDoc, [⟨5, true, some (.copy sampleDoc 0)⟩]⟩ := by
    unfold Child.poll
    rw [hpayload]
    rfl
  exact honest_along .ascii id [.write (.document sampleDoc), .poll true 0 5]
    ⟨.document sampleDoc, some sampleDoc, [⟨5, true, some (.copy sampleDoc 0)⟩]⟩
    (congrArg some hpoll) _ List.mem_cons_self

end Etr290
