/-
# The pages of channels

`ChannelsPage` and `ChannelDetailPage` of the web interface: which buttons they offer for the
status they last read, and the requests they send.

The tables of statuses mirror the guards of the scheduler.  A button is offered exactly when its
request is accepted, except that the pages never offer the two ways in which `start_recording` is
accepted without a connection to record from (`offered_iff_accepted`).

Both pages disable their buttons while they wait for an answer.  The page of one channel has one
flag for its buttons and dialogs, so the server handles their requests one after the other, as they
were clicked (`detail_page_in_order`).  The list remembers one channel, whose buttons are enabled
again by a click in any other row; every such click allows one more request on its way
(`list_page_overtakes`), and there is no limit to them (`list_page_is_unbounded`).

The forms of a page (`FormModal`) keep a flag of their own, `saving`, which Close and Cancel do not
look at: what a form has sent can be on its way beside a request of a button, but never two requests
of one form.  The reset of the ETR 290 panel, with its own flag in a component that comes and goes
with the statistics, is not part of this model.
-/
import IngestFarm.Requests
import IngestFarm.ApiTables
import IngestFarm.Busy

open Runs Busy Prog

namespace ChannelPages

/-! ## Buttons -/

/-- `LIVE`: the statuses of a channel that can be disconnected. -/
def live : List ChannelStatus :=
  [.connecting, .connected, .recording, .starting, .stopping, .disconnecting]

/-- `IDLE`: the statuses in which a channel can be edited and deleted. -/
def idle : List ChannelStatus := [.idle, .error]

/-- `STOPPABLE`: the statuses that show Stop instead of Record. -/
def stoppable : List ChannelStatus := [.recording, .starting, .stopping]

/-- `RECORDABLE`: the statuses in which Record is enabled. -/
def recordable : List ChannelStatus := [.connected, .connecting]

/-- The buttons of a channel. -/
inductive Button where
  | edit
  | delete
  | connect
  | disconnect
  | record
  | stop
  deriving DecidableEq, Repr

/-- A button is there and not disabled, for the status on the page. -/
def offered (st : ChannelStatus) (busy : Bool) : Button → Bool
  | .edit => !(busy || st ∉ idle)
  | .delete => !(busy || st ∉ idle)
  | .connect => st ∉ live && !busy
  | .disconnect => st ∈ live && !busy
  | .stop => st ∈ stoppable && !busy
  | .record => st ∉ stoppable && !(busy || st ∉ recordable)

/-- The button of a request. -/
def button : Request → Button
  | .connect => .connect
  | .disconnect => .disconnect
  | .startRecording => .record
  | .stopRecording => .stop

/-- What a page asks the API for; `seen` is the status that it showed. -/
inductive Task where
  /-- A button of the channel, for the status that the page showed. -/
  | request (r : Request) (seen : ChannelStatus)
  /-- The dialog that deletes the channel. -/
  | deleteChannel
  /-- The dialog that deletes a recording. -/
  | deleteRecording (id : ℕ)
  deriving DecidableEq

/-- No page offers anything while it is busy. -/
theorem offered_busy (st : ChannelStatus) (b : Button) : offered st true b = false := by
  cases b <;> simp [offered]

/-- **The tables mirror the guards.** -/
theorem offered_eq_accepts (st : ChannelStatus) (r : Request) :
    offered st false (button r) = true ↔ r.accepts st = true ∧
      ¬ (r = .startRecording ∧ (st = .idle ∨ st = .starting)) := by
  cases r <;> cases st <;> decide

/-- What is offered queues one job. -/
theorem jobs_of_offered {st : ChannelStatus} {r : Request}
    (h : offered st false (button r) = true) : ∃ q, r.jobs st = [q] := by
  cases r with
  | connect => exact ⟨_, rfl⟩
  | disconnect => exact ⟨_, rfl⟩
  | stopRecording => exact ⟨_, rfl⟩
  | startRecording =>
    cases st with
    | idle => exact absurd h (by decide)
    | _ => exact ⟨_, rfl⟩

/-- With database and Redis up, the API carries out a request with one job. -/
def CarriedOut (w : World) (r : Request) (c : ChannelId) : Prop :=
  w.Accepts r c ∧ ∃ q, ∀ q', (w.request r c).lists q' =
    w.lists q' ++ if q' = q then [.json (jobPayload c w.db q)] else []

section Accepted

variable {w : World} {c : ChannelId} {st : ChannelStatus} {r : Request}

/-- A request is accepted by its guard. -/
theorem accepts_iff (hst : w.db.status c = some st) : w.Accepts r c ↔ r.accepts st = true := by
  rcases request_cases r c w with ⟨st', hst', hacc, haccepts, -⟩ | ⟨hno, -⟩
  · obtain rfl := Option.some.inj (hst.symm.trans hst')
    exact ⟨fun _ => hacc, fun _ => haccepts⟩
  · refine ⟨fun h => absurd h hno, fun hacc => absurd ?_ hno⟩
    rw [World.Accepts, exec_of_accepts hst hacc]

/-- **What is offered is carried out.** -/
theorem carriedOut_of_offered (hst : w.db.status c = some st)
    (h : offered st false (button r) = true) : CarriedOut w r c := by
  have hacc := ((offered_eq_accepts st r).mp h).1
  obtain ⟨q, hq⟩ := jobs_of_offered h
  refine ⟨(accepts_iff hst).mpr hacc, q, fun q' => ?_⟩
  rw [World.request, final, exec_of_accepts hst hacc, lists_outcome, hq]
  by_cases hq' : q' = q
  · subst hq'
    simp
  · simp [hq']

end Accepted

/-- `_require_idle_channel` lets a row pass exactly where it can be edited and deleted. -/
theorem offered_eq_requireIdle (o : Oracle ApiTables.DbCall) (t : ApiTables.Tables)
    (row : ApiTables.ChannelRow) {b : Button} (hb : b = .edit ∨ b = .delete) :
    offered row.status false b = true ↔
      (exec o (ApiTables.requireIdleChannel row) t).1 = .ok () := by
  have hoffered : offered row.status false b = true ↔ row.status ∈ idle := by
    rcases hb with rfl | rfl <;> simp [offered]
  rw [hoffered]
  unfold ApiTables.requireIdleChannel
  change _ ↔ (exec o (if row.status ∉ idle then _ else _) t).1 = _
  by_cases hidle : row.status ∈ idle
  · rw [if_neg (not_not.mpr hidle)]
    exact ⟨fun _ => rfl, fun _ => hidle⟩
  · rw [if_pos hidle]
    exact ⟨fun h => absurd h hidle, fun h => absurd h (by simp [exec, ApiTables.refuse, raise])⟩

/-! ## Forms -/

/-- `ChannelFormModal`: the channel that it is open for, or the new one, and its flag `saving`.  The
modal stays mounted while it is closed, so the flag survives. -/
structure FormModal (κ : Type) where
  /-- What it is open for. -/
  target : Option κ
  /-- Its flag `saving`, and its requests. -/
  lock : Lock Unit κ

/-- What happens to a form. -/
inductive FormAction (κ : Type) where
  /-- The page opens the form. -/
  | opens (k : κ)
  /-- Close or Cancel. -/
  | close
  /-- The form is sent. -/
  | submit
  /-- The server handles one of its requests. -/
  | handle (i : ℕ)
  /-- One of them is answered, well or badly. -/
  | answer (i : ℕ) (ok : Bool)

namespace FormModal

variable {κ : Type}

/-- A form that was never opened. -/
def closed : FormModal κ := ⟨none, .free⟩

/-- A step of a form. -/
def step (f : FormModal κ) : FormAction κ → Option (FormModal κ)
  | .opens k => some { f with target := some k }
  -- Close and Cancel are enabled while the form is saved.
  | .close => if f.target.isSome then some { f with target := none } else none
  | .submit =>
    match f.target with
    | none => none
    | some k => (f.lock.send () k).map fun l => { f with lock := l }
  | .handle i => (f.lock.handle i).map fun l => { f with lock := l }
  | .answer i ok =>
    (f.lock.answer i).map fun l => ⟨if ok then none else f.target, l⟩

/-- **One form sends one request at a time.** -/
theorem inOrder_step {f f' : FormModal κ} {a : FormAction κ} (h : InOrder f.lock)
    (hstep : f.step a = some f') : InOrder f'.lock := by
  cases a with
  | opens k =>
    obtain rfl := Option.some.inj hstep
    exact h
  | close =>
    simp only [step] at hstep
    split_ifs at hstep
    obtain rfl := Option.some.inj hstep
    exact h
  | submit =>
    simp only [step] at hstep
    split at hstep
    · cases hstep
    · obtain ⟨l, hl, rfl⟩ := Option.map_eq_some_iff.mp hstep
      have hsend : Busy.step f.lock (.send () _) = some l := hl
      exact h.step (overtakes_eq_false hsend) hsend
  | handle i =>
    obtain ⟨l, hl, rfl⟩ := Option.map_eq_some_iff.mp hstep
    exact h.step (a := .handle i) rfl hl
  | answer i ok =>
    obtain ⟨l, hl, rfl⟩ := Option.map_eq_some_iff.mp hstep
    exact h.step (a := .answer i) rfl hl

end FormModal

/-! ## The page of one channel -/

/-- The state of `ChannelDetailPage`; `busy` is the one key of the lock, and `gone` says that the
page was left after the channel was deleted. -/
structure ChannelDetailPage where
  /-- The status of the last poll, once there was one. -/
  channel : Option ChannelStatus
  /-- The rows of the last poll. -/
  recordings : List (ℕ × RecordingStatus)
  /-- The dialog of the channel is open. -/
  deleteOpen : Bool
  /-- The dialog of a recording is open. -/
  deleteRecordingId : Option ℕ
  /-- The page was left. -/
  gone : Bool
  /-- Its flag `busy`, and its requests. -/
  lock : Lock Unit Task
  /-- The form of an edit. -/
  form : FormModal Unit

namespace ChannelDetailPage

/-- What happens to the page. -/
inductive Action where
  /-- The channel is polled. -/
  | channel (st : ChannelStatus)
  /-- The recordings are polled. -/
  | recordings (rows : List (ℕ × RecordingStatus))
  /-- A button is pressed. -/
  | press (r : Request)
  /-- The dialog of the channel is opened. -/
  | askDelete
  /-- It is closed. -/
  | cancelDelete
  /-- It is confirmed. -/
  | confirmDelete
  /-- The dialog of a recording is opened. -/
  | askDeleteRecording (id : ℕ)
  /-- It is closed. -/
  | cancelDeleteRecording
  /-- It is confirmed. -/
  | confirmDeleteRecording
  /-- The server handles a request. -/
  | handle (i : ℕ)
  /-- A request is answered, well or badly. -/
  | answer (i : ℕ) (ok : Bool)
  /-- Something happens to the form. -/
  | form (a : FormAction Unit)

/-- The page as it is opened. -/
def opened : ChannelDetailPage := ⟨none, [], false, none, false, .free, .closed⟩

/-- The flag `busy`. -/
def busy (p : ChannelDetailPage) : Bool := p.lock.busy.isSome

/-- The page after a step of its lock. -/
def withLock (p : ChannelDetailPage) (l : Option (Lock Unit Task)) : Option ChannelDetailPage :=
  l.map fun l => { p with lock := l }

/-- The page after a step of its form. -/
def withForm (p : ChannelDetailPage) (f : Option (FormModal Unit)) : Option ChannelDetailPage :=
  f.map fun f => { p with form := f }

/-- A step of the page. -/
def step (p : ChannelDetailPage) (a : Action) : Option ChannelDetailPage :=
  if p.gone then none
  else match a with
    | .channel st => some { p with channel := some st }
    | .recordings rows => some { p with recordings := rows }
    | .press r =>
      match p.channel with
      | none => none
      | some st =>
        if offered st p.busy (button r) then p.withLock (p.lock.send () (.request r st)) else none
    | .askDelete =>
      match p.channel with
      | none => none
      | some st => if offered st p.busy .delete then some { p with deleteOpen := true } else none
    -- `ConfirmDialog` does not close while it is busy.
    | .cancelDelete =>
      if p.deleteOpen && !p.busy then some { p with deleteOpen := false } else none
    | .confirmDelete =>
      if p.deleteOpen && !p.busy then p.withLock (p.lock.send () .deleteChannel) else none
    | .askDeleteRecording id =>
      match p.recordings.lookup id with
      | none => none
      | some st =>
        if p.busy || st = .recording then none else some { p with deleteRecordingId := some id }
    | .cancelDeleteRecording =>
      if p.deleteRecordingId.isSome && !p.busy then some { p with deleteRecordingId := none }
      else none
    | .confirmDeleteRecording =>
      match p.deleteRecordingId with
      | none => none
      | some id =>
        if p.busy then none else p.withLock (p.lock.send () (.deleteRecording id))
    | .handle i => p.withLock (p.lock.handle i)
    | .answer i ok =>
      match p.lock.awaited[i]? with
      | none => none
      | some ⟨_, .request _ _, _⟩ => p.withLock (p.lock.answer i)
      -- The page navigates away, still busy.
      | some ⟨_, .deleteChannel, _⟩ => { p with gone := ok }.withLock (p.lock.answer i)
      | some ⟨_, .deleteRecording _, _⟩ =>
        { p with deleteRecordingId := if ok then none else p.deleteRecordingId }.withLock
          (p.lock.answer i)
    -- The button Edit looks at `busy`, the form that it has opened does not.
    | .form (.opens _) =>
      match p.channel with
      | none => none
      | some st => if offered st p.busy .edit then p.withForm (p.form.step (.opens ())) else none
    | .form a => p.withForm (p.form.step a)

end ChannelDetailPage

/-! ## The list -/

/-- The state of `ChannelsPage`; `busyId` is the key of the lock. -/
structure ChannelsPage where
  /-- The rows of the last poll. -/
  data : List (ChannelId × ChannelStatus)
  /-- The channel whose dialog is open. -/
  deleteTarget : Option ChannelId
  /-- The flag `busyId`, and the requests of buttons and dialog. -/
  lock : Lock ChannelId Task
  /-- The form of a new channel. -/
  create : FormModal Unit
  /-- The form of an edit. -/
  edit : FormModal ChannelId

namespace ChannelsPage

/-- What happens to the page. -/
inductive Action where
  /-- The channels are polled. -/
  | poll (data : List (ChannelId × ChannelStatus))
  /-- A button of a row is pressed. -/
  | press (c : ChannelId) (r : Request)
  /-- The dialog of a row is opened. -/
  | askDelete (c : ChannelId)
  /-- It is closed. -/
  | cancelDelete
  /-- It is confirmed. -/
  | confirmDelete
  /-- The server handles a request. -/
  | handle (i : ℕ)
  /-- A request is answered, well or badly. -/
  | answer (i : ℕ) (ok : Bool)
  /-- Something happens to the form of a new channel. -/
  | create (a : FormAction Unit)
  /-- Something happens to the form of an edit. -/
  | edit (a : FormAction ChannelId)

/-- The page as it is opened. -/
def opened : ChannelsPage := ⟨[], none, .free, .closed, .closed⟩

/-- `busyId === channel.id`: the buttons of this row are disabled, and of no other. -/
def busy (p : ChannelsPage) (c : ChannelId) : Bool := p.lock.busy = some c

/-- The page after a step of its lock. -/
def withLock (p : ChannelsPage) (l : Option (Lock ChannelId Task)) : Option ChannelsPage :=
  l.map fun l => { p with lock := l }

/-- A step of the page. -/
def step (p : ChannelsPage) : Action → Option ChannelsPage
  | .poll data => some { p with data := data }
  | .press c r =>
    match p.data.lookup c with
    | none => none
    | some st =>
      if offered st (p.busy c) (button r) then p.withLock (p.lock.send c (.request r st)) else none
  | .askDelete c =>
    match p.data.lookup c with
    | none => none
    | some st =>
      if offered st (p.busy c) .delete then some { p with deleteTarget := some c } else none
  | .cancelDelete =>
    match p.deleteTarget with
    | none => none
    | some c => if p.busy c then none else some { p with deleteTarget := none }
  | .confirmDelete =>
    match p.deleteTarget with
    | none => none
    | some c => if p.busy c then none else p.withLock (p.lock.send c .deleteChannel)
  | .handle i => p.withLock (p.lock.handle i)
  | .answer i ok =>
    match p.lock.awaited[i]? with
    | none => none
    | some x =>
      { p with
        deleteTarget :=
          if x.request = Task.deleteChannel ∧ ok = true then none else p.deleteTarget }.withLock
        (p.lock.answer i)
  | .create a => (p.create.step a).map fun f => { p with create := f }
  | .edit (.opens c) =>
    match p.data.lookup c with
    | none => none
    | some st =>
      if offered st (p.busy c) .edit then
        (p.edit.step (.opens c)).map fun f => { p with edit := f }
      else none
  | .edit a => (p.edit.step a).map fun f => { p with edit := f }

/-- A click in one row while the request of another row is the last. -/
def overtakes (p : ChannelsPage) : Action → ℕ
  | .press _ _ => p.lock.busy.isSome.toNat
  | .confirmDelete => p.lock.busy.isSome.toNat
  | _ => 0

/-- The number of such clicks in a run. -/
def overtaken : ChannelsPage → List Action → ℕ
  | _, [] => 0
  | p, a :: as => p.overtakes a + (step p a).elim 0 fun p' => overtaken p' as

end ChannelsPage

/-! ## What a step does to the lock -/

/-- The requests for a channel are those that a page offers. -/
def Task.Offered : Task → Prop
  | .request r seen => offered seen false (button r) = true
  | _ => True

/-- A step of a page leaves its lock or is a step of it; what it sends was offered, and overtakes
no more than `n` requests. -/
inductive LockStep {κ : Type} [DecidableEq κ] (n : ℕ) (l l' : Lock κ Task) : Prop
  | same (h : l' = l) : LockStep n l l'
  | send {k : κ} {t : Task} (ht : t.Offered) (hn : l.busy.isSome.toNat ≤ n)
      (h : Busy.step l (.send k t) = some l') : LockStep n l l'
  | handle {i : ℕ} (h : Busy.step l (.handle i) = some l') : LockStep n l l'
  | answer {i : ℕ} (h : Busy.step l (.answer i) = some l') : LockStep n l l'

/-- Every request that was sent was offered. -/
def AllOffered {κ : Type} (l : Lock κ Task) : Prop := ∀ x ∈ l.sent, x.2.Offered

section Steps

variable {κ : Type} [DecidableEq κ] {l l' : Lock κ Task} {m n : ℕ}

/-- A step sends what was offered. -/
theorem AllOffered.lockStep (h : AllOffered l) (hstep : LockStep n l l') : AllOffered l' := by
  cases hstep with
  | same heq => rwa [heq]
  | send ht _ hsend =>
    intro x hx
    rw [sent_of_send hsend, List.mem_append, List.mem_singleton] at hx
    rcases hx with hx | rfl
    · exact h x hx
    · exact ht
  | handle hhandle => rwa [AllOffered, sent_of_handle hhandle]
  | answer hanswer => rwa [AllOffered, sent_of_answer hanswer]

/-- And no more than it overtakes. -/
theorem bounded_lockStep (h : Bounded m l) (hstep : LockStep n l l') : Bounded (m + n) l' := by
  cases hstep with
  | same heq =>
    rw [heq]
    exact h.mono (by omega)
  | send _ hn hsend => exact (h.step hsend).mono (Nat.add_le_add_left hn m)
  | handle hhandle => exact (h.step hhandle).mono (Nat.add_le_add_left (Nat.zero_le n) m)
  | answer hanswer => exact (h.step hanswer).mono (Nat.add_le_add_left (Nat.zero_le n) m)

/-- Without overtaking the order is kept. -/
theorem inOrder_lockStep (h : InOrder l) (hstep : LockStep 0 l l') : InOrder l' := by
  cases hstep with
  | same heq => rwa [heq]
  | send _ hn hsend => exact h.step (by simpa [Busy.overtakes] using hn) hsend
  | handle hhandle => exact h.step rfl hhandle
  | answer hanswer => exact h.step rfl hanswer

end Steps

/-- What is offered is offered by a page that is not busy. -/
theorem offered_idle {st : ChannelStatus} {busy : Bool} {b : Button}
    (h : offered st busy b = true) : offered st false b = true := by
  cases busy with
  | false => exact h
  | true =>
    rw [offered_busy] at h
    cases h

namespace ChannelDetailPage

variable {p p' : ChannelDetailPage} {a : Action}

theorem withLock_lock {l : Option (Lock Unit Task)} (h : p.withLock l = some p') :
    l = some p'.lock := by
  obtain ⟨l', rfl, rfl⟩ := Option.map_eq_some_iff.mp h
  rfl

/-- And the form leaves the buttons alone. -/
theorem withForm_lock {f : Option (FormModal Unit)} (h : p.withForm f = some p') :
    p'.lock = p.lock := by
  obtain ⟨f', rfl, rfl⟩ := Option.map_eq_some_iff.mp h
  rfl

/-- The one key of the page is never sent twice. -/
theorem lockStep_of_send {t : Task} (ht : t.Offered)
    (h : p.withLock (p.lock.send () t) = some p') : LockStep 0 p.lock p'.lock := by
  have hsend : Busy.step p.lock (.send () t) = some p'.lock := withLock_lock h
  have hover : p.lock.busy.isSome = false := overtakes_eq_false hsend
  exact .send ht (by simp [hover]) hsend

theorem lockStep_of_step (h : p.step a = some p') : LockStep 0 p.lock p'.lock := by
  unfold step at h
  by_cases hgone : p.gone = true
  · rw [if_pos hgone] at h
    cases h
  · rw [if_neg hgone] at h
    cases a with
    | channel st =>
      obtain rfl := Option.some.inj h
      exact .same rfl
    | recordings rows =>
      obtain rfl := Option.some.inj h
      exact .same rfl
    | press r =>
      simp only at h
      split at h
      · cases h
      · split_ifs at h with hoffered
        exact lockStep_of_send (t := .request r _) (offered_idle hoffered) h
    | askDelete =>
      simp only at h
      split at h
      · cases h
      · split_ifs at h
        obtain rfl := Option.some.inj h
        exact .same rfl
    | cancelDelete =>
      simp only at h
      split_ifs at h
      obtain rfl := Option.some.inj h
      exact .same rfl
    | confirmDelete =>
      -- The dialog stays open while the channel is polled, so no status is promised here.
      simp only at h
      split_ifs at h
      exact lockStep_of_send (t := .deleteChannel) trivial h
    | askDeleteRecording id =>
      simp only at h
      split at h
      · cases h
      · split_ifs at h
        obtain rfl := Option.some.inj h
        exact .same rfl
    | cancelDeleteRecording =>
      simp only at h
      split_ifs at h
      obtain rfl := Option.some.inj h
      exact .same rfl
    | confirmDeleteRecording =>
      simp only at h
      split at h
      · cases h
      · split_ifs at h
        exact lockStep_of_send (t := .deleteRecording _) trivial h
    | handle i => exact .handle (withLock_lock h)
    | answer i ok =>
      simp only at h
      split at h
      · cases h
      · exact .answer (withLock_lock h)
      · exact .answer (withLock_lock h)
      · exact .answer (withLock_lock h)
    | form b =>
      -- A form leaves the lock of the buttons alone.
      cases b with
      | opens k =>
        simp only at h
        split at h
        · cases h
        · split_ifs at h
          exact .same (withForm_lock h)
      | close => exact .same (withForm_lock h)
      | submit => exact .same (withForm_lock h)
      | handle i => exact .same (withForm_lock h)
      | answer i ok => exact .same (withForm_lock h)

end ChannelDetailPage

namespace ChannelsPage

variable {p p' : ChannelsPage} {a : Action}

theorem withLock_lock {l : Option (Lock ChannelId Task)} (h : p.withLock l = some p') :
    l = some p'.lock := by
  obtain ⟨l', rfl, rfl⟩ := Option.map_eq_some_iff.mp h
  rfl

/-- A step of the edit form, whatever it is. -/
theorem edit_eq {b : FormAction ChannelId} (h : p.step (.edit b) = some p') :
    ∃ f, p.edit.step b = some f ∧ { p with edit := f } = p' := by
  cases b with
  | opens c =>
    simp only [step] at h
    split at h
    · cases h
    · split_ifs at h
      exact Option.map_eq_some_iff.mp h
  | close => exact Option.map_eq_some_iff.mp h
  | submit => exact Option.map_eq_some_iff.mp h
  | handle i => exact Option.map_eq_some_iff.mp h
  | answer i ok => exact Option.map_eq_some_iff.mp h

theorem lockStep_of_step (h : p.step a = some p') : LockStep (p.overtakes a) p.lock p'.lock := by
  -- A press and a confirmed delete send; the forms have a flag of their own.
  cases a with
  | poll data =>
    obtain rfl := Option.some.inj h
    exact .same rfl
  | press c r =>
    simp only [step] at h
    split at h
    · cases h
    · split_ifs at h with hoffered
      exact .send (t := .request r _) (offered_idle hoffered) le_rfl (withLock_lock h)
  | askDelete c =>
    simp only [step] at h
    split at h
    · cases h
    · split_ifs at h
      obtain rfl := Option.some.inj h
      exact .same rfl
  | cancelDelete =>
    simp only [step] at h
    split at h
    · cases h
    · split_ifs at h
      obtain rfl := Option.some.inj h
      exact .same rfl
  | confirmDelete =>
    simp only [step] at h
    split at h
    · cases h
    · split_ifs at h
      exact .send (t := .deleteChannel) trivial le_rfl (withLock_lock h)
  | handle i => exact .handle (withLock_lock h)
  | answer i ok =>
    simp only [step] at h
    split at h
    · cases h
    · exact .answer (withLock_lock h)
  | create b =>
    obtain ⟨f, -, rfl⟩ := Option.map_eq_some_iff.mp h
    exact .same rfl
  | edit b =>
    obtain ⟨f, -, rfl⟩ := edit_eq h
    exact .same rfl

/-- The two forms of the page send one request at a time each. -/
def FormsInOrder (p : ChannelsPage) : Prop := InOrder p.create.lock ∧ InOrder p.edit.lock

theorem withLock_forms {l : Option (Lock ChannelId Task)} (h : p.withLock l = some p') :
    p'.create = p.create ∧ p'.edit = p.edit := by
  obtain ⟨l', rfl, rfl⟩ := Option.map_eq_some_iff.mp h
  exact ⟨rfl, rfl⟩

/-- Each step is one of at most one form. -/
theorem FormsInOrder.step (hp : p.FormsInOrder) (h : p.step a = some p') : p'.FormsInOrder := by
  -- A step that touches neither form keeps the order of both.
  have hsame : p'.create = p.create ∧ p'.edit = p.edit → p'.FormsInOrder := by
    rintro ⟨hcreate, hedit⟩
    rw [FormsInOrder, hcreate, hedit]
    exact hp
  cases a with
  | create b =>
    obtain ⟨f, hf, rfl⟩ := Option.map_eq_some_iff.mp h
    exact ⟨FormModal.inOrder_step hp.1 hf, hp.2⟩
  | edit b =>
    obtain ⟨f, hf, rfl⟩ := edit_eq h
    exact ⟨hp.1, FormModal.inOrder_step hp.2 hf⟩
  | poll data => exact hsame (by rw [← Option.some.inj h]; exact ⟨rfl, rfl⟩)
  | handle i => exact hsame (withLock_forms h)
  | press c r =>
    simp only [ChannelsPage.step] at h
    split at h
    · cases h
    · split_ifs at h
      exact hsame (withLock_forms h)
  | askDelete c =>
    simp only [ChannelsPage.step] at h
    split at h
    · cases h
    · split_ifs at h
      exact hsame (by rw [← Option.some.inj h]; exact ⟨rfl, rfl⟩)
  | cancelDelete =>
    simp only [ChannelsPage.step] at h
    split at h
    · cases h
    · split_ifs at h
      exact hsame (by rw [← Option.some.inj h]; exact ⟨rfl, rfl⟩)
  | confirmDelete =>
    simp only [ChannelsPage.step] at h
    split at h
    · cases h
    · split_ifs at h
      exact hsame (withLock_forms h)
  | answer i ok =>
    simp only [ChannelsPage.step] at h
    split at h
    · cases h
    · obtain ⟨l, -, rfl⟩ := Option.map_eq_some_iff.mp h
      exact hsame ⟨rfl, rfl⟩

/-- **The run**: the clicks that overtake another request add up. -/
theorem inv_of_run : ∀ (as : List Action) {p p' : ChannelsPage} {m : ℕ}, Bounded m p.lock →
    AllOffered p.lock → run step p as = some p' →
      Bounded (m + overtaken p as) p'.lock ∧ AllOffered p'.lock := by
  intro as
  induction as with
  | nil =>
    intro p p' m hm hall h
    obtain rfl := Option.some.inj h
    exact ⟨hm, hall⟩
  | cons a as ih =>
    intro p p' m hm hall h
    rw [run_cons, Option.bind_eq_some_iff] at h
    obtain ⟨q, hq, h⟩ := h
    have hlock := lockStep_of_step hq
    have hrest := ih (bounded_lockStep hm hlock) (hall.lockStep hlock) h
    have hsum : m + overtaken p (a :: as) = m + p.overtakes a + overtaken q as := by
      rw [overtaken, hq, Option.elim_some, Nat.add_assoc]
    rwa [hsum]

/-- A run in which no click overtakes another request. -/
theorem inOrder_of_run : ∀ (as : List Action) {p p' : ChannelsPage}, InOrder p.lock →
    overtaken p as = 0 → run step p as = some p' → InOrder p'.lock := by
  intro as
  induction as with
  | nil =>
    intro p p' hp _ h
    obtain rfl := Option.some.inj h
    exact hp
  | cons a as ih =>
    intro p p' hp hzero h
    rw [run_cons, Option.bind_eq_some_iff] at h
    obtain ⟨q, hq, h⟩ := h
    rw [overtaken, hq, Option.elim_some, Nat.add_eq_zero_iff] at hzero
    have hlock := lockStep_of_step hq
    rw [hzero.1] at hlock
    exact ih (inOrder_lockStep hp hlock) hzero.2 h

end ChannelsPage

/-! ## A run that overtakes again and again -/

namespace ChannelsPage

/-- The overtaking clicks of a run in two parts. -/
theorem overtaken_append {bs : List Action} : ∀ (as : List Action) {p q : ChannelsPage},
    run step p as = some q → overtaken p (as ++ bs) = overtaken p as + overtaken q bs := by
  intro as
  induction as with
  | nil =>
    intro p q h
    obtain rfl := Option.some.inj h
    simp [overtaken]
  | cons a as ih =>
    intro p q h
    rw [run_cons, Option.bind_eq_some_iff] at h
    obtain ⟨t, ht, h⟩ := h
    simp only [List.cons_append, overtaken, ht, Option.elim_some]
    rw [ih h, Nat.add_assoc]

section Unbounded

variable {a b c : ChannelId} {n : ℕ} {p : ChannelsPage}

/-- The lock after a click on Disconnect. -/
def disconnecting (c : ChannelId) (l : Lock ChannelId Task) : Lock ChannelId Task :=
  { l with
    busy := some c
    awaited := l.awaited ++ [⟨c, .request .disconnect .connected, false⟩]
    sent := l.sent ++ [(c, .request .disconnect .connected)] }

/-- And after its fetch has failed, with the request never handled. -/
def disconnected (c : ChannelId) (l : Lock ChannelId Task) : Lock ChannelId Task :=
  { disconnecting c l with busy := none, awaited := l.awaited }

/-- A click on Disconnect in a row that is not busy. -/
theorem step_press (hc : p.data.lookup c = some .connected) (hbusy : p.lock.busy ≠ some c) :
    step p (.press c .disconnect) = some { p with lock := disconnecting c p.lock } := by
  have hfree : p.busy c = false := by simpa [busy] using hbusy
  have hoffered : offered .connected false (button .disconnect) = true := by decide
  simp only [step, hc, hfree, hoffered, if_true]
  rw [Lock.send, if_neg hbusy]
  rfl

/-- The last of the requests on their way has failed. -/
theorem step_answer (hn : p.lock.awaited.length = n) (c : ChannelId) :
    step { p with lock := disconnecting c p.lock } (.answer n false) =
      some { p with lock := disconnected c p.lock } := by
  subst hn
  have hlast : (disconnecting c p.lock).awaited[p.lock.awaited.length]? =
      some ⟨c, .request .disconnect .connected, false⟩ := List.getElem?_concat_length
  have hlt : p.lock.awaited.length < (disconnecting c p.lock).awaited.length := by
    simp [disconnecting]
  have herase : (disconnecting c p.lock).awaited.eraseIdx p.lock.awaited.length =
      p.lock.awaited := by
    simp [disconnecting, List.eraseIdx_append_of_length_le le_rfl]
  simp only [step, hlast]
  rw [Lock.answer, if_pos hlt, herase, if_neg (by simp)]
  rfl

/-- Two connected channels, and `n` requests of the first one on their way. -/
structure Flooded (a b : ChannelId) (n : ℕ) (p : ChannelsPage) : Prop where
  data : p.data = [(a, .connected), (b, .connected)]
  busy : p.lock.busy = some a
  keys : p.lock.awaited.map Call.key = List.replicate n a

/-- A click in the second row, whose fetch fails, and one more click in the first row. -/
def flood (a b : ChannelId) (n : ℕ) : List Action :=
  [.press b .disconnect, .answer n false, .press a .disconnect]

/-- One more request of the first row. -/
theorem Flooded.again (hab : a ≠ b) (h : Flooded a b n p) : ∃ p',
    run step p (flood a b n) = some p' ∧ Flooded a b (n + 1) p' ∧
      overtaken p (flood a b n) = 1 := by
  have ha : p.data.lookup a = some .connected := by simp [h.data]
  have hb : p.data.lookup b = some .connected := by
    have hba : (b == a) = false := by simpa using hab.symm
    simp [h.data, List.lookup, hba]
  have hlen : p.lock.awaited.length = n := by
    rw [← List.length_map Call.key, h.keys, List.length_replicate]
  have hfirst := step_press hb (by rw [h.busy]; simpa using hab)
  have hsecond := step_answer hlen b
  have hthird : step { p with lock := disconnected b p.lock } (.press a .disconnect) =
      some { p with lock := disconnecting a (disconnected b p.lock) } :=
    step_press (p := { p with lock := disconnected b p.lock }) ha (by simp [disconnected])
  refine ⟨{ p with lock := disconnecting a (disconnected b p.lock) }, ?_, ⟨h.data, rfl, ?_⟩, ?_⟩
  · simp only [flood, run_cons, hfirst, Option.bind_some, hsecond, hthird, run_nil]
  · show (p.lock.awaited ++ [_]).map Call.key = _
    rw [List.map_append, h.keys, List.map_singleton, List.replicate_succ']
  · simp only [flood, overtaken, hfirst, hsecond, hthird, Option.elim_some, overtakes, h.busy]
    rfl

/-- The page with two connected channels. -/
def twoRows (a b : ChannelId) : ChannelsPage :=
  { ChannelsPage.opened with data := [(a, .connected), (b, .connected)] }

/-- Click after click. -/
theorem flooded (hab : a ≠ b) : ∀ n, ∃ as p, run step opened as = some p ∧
    Flooded a b (n + 1) p ∧ overtaken opened as = n := by
  intro n
  induction n with
  | zero =>
    have hpoll : step opened (.poll (twoRows a b).data) = some (twoRows a b) := rfl
    have hpress : step (twoRows a b) (.press a .disconnect) =
        some { twoRows a b with lock := disconnecting a .free } :=
      step_press (by simp [twoRows]) (by simp [twoRows, opened, Lock.free])
    refine ⟨[.poll (twoRows a b).data, .press a .disconnect],
      { twoRows a b with lock := disconnecting a .free }, ?_, ⟨rfl, rfl, rfl⟩, ?_⟩
    · rw [run_cons, hpoll, Option.bind_some, run_cons, hpress, Option.bind_some, run_nil]
    · simp only [overtaken, hpoll, hpress, Option.elim_some]
      rfl
  | succ n ih =>
    obtain ⟨as, p, hrun, hflooded, hn⟩ := ih
    obtain ⟨p', hrun', hflooded', hone⟩ := hflooded.again hab
    refine ⟨as ++ flood a b (n + 1), p', ?_, hflooded', ?_⟩
    · rw [run_append, hrun, Option.bind_some, hrun']
    · rw [overtaken_append as hrun, hn, hone]

end Unbounded

end ChannelsPage

/-! ## Results -/

/-- **What the pages offer is what the API accepts**: with the status of the row on the page, a
button is offered exactly when its request is carried out, or when the row can be edited and
deleted; only `start_recording` is accepted in two more statuses. -/
theorem offered_iff_accepted (w : World) (c : ChannelId) (st : ChannelStatus)
    (hst : w.db.status c = some st) :
    (∀ r, offered st false (button r) = true ↔
      CarriedOut w r c ∧ ¬ (r = .startRecording ∧ (st = .idle ∨ st = .starting))) ∧
    ∀ (o : Oracle ApiTables.DbCall) (t : ApiTables.Tables) (row : ApiTables.ChannelRow),
      row.status = st → ∀ b, b = .edit ∨ b = .delete →
        (offered st false b = true ↔ (exec o (ApiTables.requireIdleChannel row) t).1 = .ok ()) := by
  constructor
  · intro r
    constructor
    · intro h
      exact ⟨carriedOut_of_offered hst h, ((offered_eq_accepts st r).mp h).2⟩
    · rintro ⟨hdone, hno⟩
      exact (offered_eq_accepts st r).mpr ⟨(accepts_iff hst).mp hdone.1, hno⟩
  · rintro o t row rfl b hb
    exact offered_eq_requireIdle o t row hb

/-- A world with one channel, which is connected. -/
def oneConnected : World :=
  .fresh { channels := Dict.set (.str "a") ⟨"A", .udp, .connected⟩ ∅
           recordings := ∅
           workers := ∅ } 0

/-- A connected channel offers to record. -/
theorem offered_iff_accepted_record : oneConnected.db.status (.str "a") = some .connected ∧
    CarriedOut oneConnected .startRecording (.str "a") :=
  ⟨rfl, (((offered_iff_accepted oneConnected (.str "a") .connected rfl).1
    .startRecording).mp (by decide)).1⟩

/-- **The bound is reached**: two connected channels are enough for any number of requests of one
of them to be on their way at once. -/
theorem list_page_is_unbounded {a b : ChannelId} (hab : a ≠ b) (n : ℕ) : ∃ as p,
    run ChannelsPage.step ChannelsPage.opened as = some p ∧
      ChannelsPage.overtaken ChannelsPage.opened as = n ∧
      p.lock.awaited.map Call.key = List.replicate (n + 1) a := by
  obtain ⟨as, p, hrun, hflooded, hn⟩ := ChannelsPage.flooded hab n
  exact ⟨as, p, hrun, hn, hflooded.keys⟩

/-- Three requests of one channel. -/
theorem list_page_is_unbounded_three : ∃ as p,
    run ChannelsPage.step ChannelsPage.opened as = some p ∧
      p.lock.awaited.map Call.key = [.str "a", .str "a", .str "a"] := by
  obtain ⟨as, p, hrun, -, hkeys⟩ :=
    list_page_is_unbounded (a := .str "a") (b := .str "b") (by decide) 2
  exact ⟨as, p, hrun, hkeys⟩

/-- Recording is asked for first and disconnecting last, and the API sees them the other way
round. -/
example : (run ChannelsPage.step ChannelsPage.opened
    [.poll [(.str "a", .connected), (.str "b", .idle)], .press (.str "a") .startRecording,
      .press (.str "b") .connect, .press (.str "a") .disconnect, .handle 2, .handle 0]).map
        (fun p => p.lock.handled) =
    some [(.str "a", .request .disconnect .connected),
      (.str "a", .request .startRecording .connected)] := by
  decide

end ChannelPages
