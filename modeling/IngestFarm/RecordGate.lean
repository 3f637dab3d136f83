/-
# The record gate

The valve in front of the capture sink, as `start_recording` and `stop_recording` of a session
and `_start_record` and `_stop_record` of the SRT child move it.  Both go through
`relink_valve`, which unlinks and stops the old sink before it tries the new one; neither puts
the old link back.  A valve element always has its source pad, so that test is left out.

`Consistent` compares the flag of a recording with its gate, and `Harmless` is the condition on an
operation: no link of a start fails, and a start that fails earlier finds the gate shut.
-/
import IngestFarm.Runs

namespace RecordGate

/-- What the valve can be linked to. -/
inductive Sink where
  | idle
  | capture
  deriving DecidableEq

/-- The location of the capture sink: a placeholder at first, then
`directory / "segment_%05d.ts"`. -/
inductive Location (Dir : Type) where
  | placeholder
  | segments (directory : Dir)

/-- Valve, sinks and the recording flag. -/
structure Gate (Dir : Type) where
  peer : Option Sink
  drop : Bool
  stopped : Sink → Bool
  location : Location Dir
  recording : Bool

variable {Dir : Type}

/-- The pipeline as it is built. -/
def Gate.initial : Gate Dir where
  peer := some .idle
  drop := true
  stopped := fun _ => false
  location := .placeholder
  recording := false

/-- `relink_valve`; `linked` is what `valve.link` answers. -/
def relinkValve (newSink : Sink) (linked : Bool) (g : Gate Dir) : Bool × Gate Dir :=
  let g := match g.peer with
    | none => g
    | some old => { g with peer := none, stopped := Function.update g.stopped old true }
  if linked = true then
    (true, { g with peer := some newSink, stopped := Function.update g.stopped newSink false })
  else (false, g)

/-- How far a start gets before it touches the valve. -/
inductive Attempt where
  | notConnected
  | mkdirFails
  | reachesValve (linked : Bool)

/-- `ChannelSession.start_recording` of an in-process session: the error it raises and what it
leaves. -/
def startRecording (outputDir : Dir) (attempt : Attempt) (g : Gate Dir) :
    Option String × Gate Dir :=
  match attempt with
  | .notConnected => (some "Not connected", g)
  | .mkdirFails =>
    if g.recording = true then (some "Already recording", g) else (some "OSError", g)
  | .reachesValve linked =>
    if g.recording = true then (some "Already recording", g)
    else
      let g := { g with location := .segments outputDir }
      match relinkValve .capture linked g with
      | (false, g) => (some "Failed to link valve → multifilesink", g)
      | (true, g) => (none, { g with drop := false, recording := true })

/-- `ChannelSession.stop_recording` of an in-process session. -/
def stopRecording (linked : Bool) (g : Gate Dir) : Gate Dir :=
  if g.recording = false then g
  else { (relinkValve .idle linked { g with drop := true }).2 with recording := false }

/-- `_start_record` of the child. -/
def childStartRecord (outputDir : Dir) (attempt : Attempt) (g : Gate Dir) : Gate Dir :=
  match attempt with
  | .notConnected => g
  | .mkdirFails => g
  | .reachesValve linked =>
    let g := { g with location := .segments outputDir }
    match relinkValve .capture linked g with
    | (false, g) => g
    | (true, g) => { g with drop := false, recording := true }

/-- `_stop_record` of the child. -/
def childStopRecord (linked : Bool) (g : Gate Dir) : Gate Dir :=
  { (relinkValve .idle linked { g with drop := true }).2 with recording := false }

/-! ## Sequences of operations -/

/-- Where the valve lives. -/
inductive Owner where
  | session
  | child
  deriving DecidableEq

inductive Op (Dir : Type) where
  | start (outputDir : Dir) (attempt : Attempt)
  | stop (linked : Bool)

/-- The gate, and the directory of the last start that got to the valve. -/
structure State (Dir : Type) where
  gate : Gate Dir
  lastStart : Option Dir

def State.initial : State Dir := ⟨Gate.initial, none⟩

/-- The start gets to the valve: a session refuses while it records, the child does not. -/
def reaches (owner : Owner) (s : State Dir) : Attempt → Bool
  | .reachesValve _ => owner = .child || !s.gate.recording
  | _ => false

/-- The gate after one operation. -/
def operate (owner : Owner) (g : Gate Dir) : Op Dir → Gate Dir
  | .start outputDir attempt =>
    match owner with
    | .session => (startRecording outputDir attempt g).2
    | .child => childStartRecord outputDir attempt g
  | .stop linked =>
    match owner with
    | .session => stopRecording linked g
    | .child => childStopRecord linked g

/-- One operation, with the note of the last start. -/
def step (owner : Owner) (s : State Dir) (op : Op Dir) : Option (State Dir) :=
  some
    { gate := operate owner s.gate op
      lastStart := match op with
        | .start outputDir attempt =>
          if reaches owner s attempt = true then some outputDir else s.lastStart
        | .stop _ => s.lastStart }

/-- **The gate is consistent.**  Data passes only into the directory of the last start, and the
flag says whether it does. -/
structure Consistent (s : State Dir) : Prop where
  linked : s.gate.drop = false → s.gate.peer = some .capture
  located : s.gate.drop = false → ∃ d, s.lastStart = some d ∧ s.gate.location = .segments d
  flag : s.gate.recording = true ↔ s.gate.drop = false

/-- Closed and linked to the idle sink. -/
def Gate.Shut (g : Gate Dir) : Prop := g.drop = true ∧ g.peer = some .idle

/-- A start that gets to the valve and cannot link the capture sink. -/
def LinkFails (owner : Owner) (s : State Dir) (op : Op Dir) : Prop :=
  ∃ outputDir, op = .start outputDir (.reachesValve false) ∧
    reaches owner s (.reachesValve false) = true

/-- A start that is not refused because the session records already, and does not begin a
recording. -/
def FailedStart (owner : Owner) (s : State Dir) (op : Op Dir) : Prop :=
  ∃ outputDir attempt, op = .start outputDir attempt ∧ attempt ≠ .reachesValve true ∧
    (owner = .session → s.gate.recording = false)

/-- The valve link of a start works, and a start that fails earlier finds the gate shut. -/
def Harmless (owner : Owner) (s : State Dir) (op : Op Dir) : Prop :=
  ¬ LinkFails owner s op ∧ (FailedStart owner s op → s.gate.Shut)

/-! ## One operation -/

section Steps

variable {owner : Owner} {s s' : State Dir} {op : Op Dir} {g : Gate Dir}

theorem relinkValve_fst (newSink : Sink) (linked : Bool) (g : Gate Dir) :
    (relinkValve newSink linked g).1 = linked := by
  unfold relinkValve
  cases linked <;> rfl

/-- **`relink_valve`** leaves the new sink linked, or nothing, and touches no other field. -/
theorem relinkValve_spec (newSink : Sink) (linked : Bool) (g : Gate Dir) :
    (relinkValve newSink linked g).2.peer = (if linked = true then some newSink else none) ∧
      (relinkValve newSink linked g).2.drop = g.drop ∧
      (relinkValve newSink linked g).2.location = g.location ∧
      (relinkValve newSink linked g).2.recording = g.recording := by
  unfold relinkValve
  rcases g with ⟨_ | old, drop, stopped, location, recording⟩ <;> cases linked <;>
    exact ⟨rfl, rfl, rfl, rfl⟩

/-- **What a start can do**: nothing, or link the capture sink and open, or fail. -/
theorem start_cases (owner : Owner) (s : State Dir) (d : Dir) (attempt : Attempt) :
    (reaches owner s attempt = false ∧ operate owner s.gate (.start d attempt) = s.gate) ∨
      ∃ linked, attempt = .reachesValve linked ∧ reaches owner s attempt = true ∧
        (operate owner s.gate (.start d attempt)).location = .segments d ∧
        ((linked = true ∧ (operate owner s.gate (.start d attempt)).peer = some .capture ∧
            (operate owner s.gate (.start d attempt)).drop = false ∧
            (operate owner s.gate (.start d attempt)).recording = true) ∨
          (linked = false ∧ (operate owner s.gate (.start d attempt)).peer = none ∧
            (operate owner s.gate (.start d attempt)).drop = s.gate.drop ∧
            (operate owner s.gate (.start d attempt)).recording = s.gate.recording)) := by
  cases attempt with
  | notConnected => exact Or.inl ⟨rfl, by cases owner <;> rfl⟩
  | mkdirFails =>
    refine Or.inl ⟨rfl, ?_⟩
    cases owner with
    | child => rfl
    | session =>
      show (startRecording d .mkdirFails s.gate).2 = s.gate
      unfold startRecording
      dsimp only
      split <;> rfl
  | reachesValve linked =>
    obtain ⟨hpeer, hdrop, hlocation, hrecording⟩ :=
      relinkValve_spec .capture linked { s.gate with location := .segments d }
    have hfst := relinkValve_fst .capture linked { s.gate with location := .segments d }
    have hchild : (childStartRecord d (.reachesValve linked) s.gate).location = .segments d ∧
        ((linked = true ∧ (childStartRecord d (.reachesValve linked) s.gate).peer = some .capture ∧
            (childStartRecord d (.reachesValve linked) s.gate).drop = false ∧
            (childStartRecord d (.reachesValve linked) s.gate).recording = true) ∨
          (linked = false ∧ (childStartRecord d (.reachesValve linked) s.gate).peer = none ∧
            (childStartRecord d (.reachesValve linked) s.gate).drop = s.gate.drop ∧
            (childStartRecord d (.reachesValve linked) s.gate).recording = s.gate.recording)) := by
      unfold childStartRecord
      dsimp only
      rcases hrelink : relinkValve .capture linked { s.gate with location := .segments d } with
        ⟨answer, g⟩
      rw [hrelink] at hpeer hdrop hlocation hrecording hfst
      obtain rfl : answer = linked := hfst
      cases answer with
      | true => exact ⟨hlocation, Or.inl ⟨rfl, hpeer, rfl, rfl⟩⟩
      | false => exact ⟨hlocation, Or.inr ⟨rfl, hpeer, hdrop, hrecording⟩⟩
    cases owner with
    | child => exact Or.inr ⟨linked, rfl, rfl, hchild⟩
    | session =>
      cases hrec : s.gate.recording with
      | true =>
        refine Or.inl ⟨by simp [reaches, hrec], ?_⟩
        show (startRecording d (.reachesValve linked) s.gate).2 = s.gate
        unfold startRecording
        dsimp only
        rw [if_pos hrec]
      | false =>
        -- A session that does not record does what the child does.
        have hsame : (startRecording d (.reachesValve linked) s.gate).2 =
            childStartRecord d (.reachesValve linked) s.gate := by
          unfold startRecording childStartRecord
          dsimp only
          rw [hrec, if_neg Bool.false_ne_true]
          rcases relinkValve .capture linked _ with ⟨_ | _, g⟩ <;> rfl
        rw [hrec] at hchild
        refine Or.inr ⟨linked, rfl, by simp [reaches, hrec], ?_⟩
        show _ ∧ _
        unfold operate
        dsimp only
        rw [hsame]
        exact hchild

/-- **A stop closes the valve**, whatever the idle link does; a session that does not record
leaves it as it is. -/
theorem stop_cases (owner : Owner) (g : Gate Dir) (linked : Bool) :
    (owner = .session ∧ g.recording = false ∧ operate owner g (.stop linked) = g) ∨
      ((operate owner g (.stop linked)).drop = true ∧
        (operate owner g (.stop linked)).recording = false) := by
  obtain ⟨-, hdrop, -, -⟩ := relinkValve_spec .idle linked { g with drop := true }
  cases owner with
  | child => exact Or.inr ⟨hdrop, rfl⟩
  | session =>
    show (_ ∧ _ ∧ stopRecording linked g = g) ∨
      ((stopRecording linked g).drop = true ∧ (stopRecording linked g).recording = false)
    unfold stopRecording
    by_cases hrec : g.recording = false
    · exact Or.inl ⟨rfl, hrec, if_pos hrec⟩
    · rw [if_neg hrec]
      exact Or.inr ⟨hdrop, rfl⟩

theorem consistent_initial : Consistent (State.initial : State Dir) := by
  constructor
  · intro h
    exact absurd h Bool.true_eq_false.mp
  · intro h
    exact absurd h Bool.true_eq_false.mp
  · show false = true ↔ true = false
    simp

/-- **One operation** keeps the gate consistent unless the link of a start fails. -/
theorem Consistent.step (h : Consistent s) (hok : ¬ LinkFails owner s op)
    (hstep : RecordGate.step owner s op = some s') : Consistent s' := by
  obtain rfl := Option.some.inj hstep
  cases op with
  | stop linked =>
    rcases stop_cases owner s.gate linked with ⟨-, -, hkept⟩ | ⟨hdrop, hrec⟩
    · constructor
      · rw [hkept]
        exact h.linked
      · rw [hkept]
        exact h.located
      · rw [hkept]
        exact h.flag
    · constructor
      · intro hopen
        exact absurd (hdrop.symm.trans hopen) (by simp)
      · intro hopen
        exact absurd (hdrop.symm.trans hopen) (by simp)
      · rw [hdrop, hrec]
        simp
  | start d attempt =>
    rcases start_cases owner s d attempt with ⟨hno, hkept⟩ | ⟨linked, rfl, hreach, hloc, hend⟩
    · constructor
      · rw [hkept]
        exact h.linked
      · rw [hkept]
        dsimp only
        rw [hno, if_neg Bool.false_ne_true]
        exact h.located
      · rw [hkept]
        exact h.flag
    · rcases hend with ⟨rfl, hpeer, hdrop, hrec⟩ | ⟨rfl, -⟩
      · constructor
        · intro _
          exact hpeer
        · intro _
          refine ⟨d, ?_, hloc⟩
          dsimp only
          rw [hreach, if_pos rfl]
        · rw [hdrop, hrec]
          simp
      · exact absurd ⟨d, rfl, hreach⟩ hok

/-- A start whose link fails leaves the valve linked to nothing. -/
theorem not_shut_of_linkFails (h : LinkFails owner s op)
    (hstep : RecordGate.step owner s op = some s') : ¬ s'.gate.Shut := by
  obtain ⟨d, rfl, hreach⟩ := h
  obtain rfl := Option.some.inj hstep
  rintro ⟨-, hpeer⟩
  rcases start_cases owner s d (.reachesValve false) with ⟨hno, -⟩ | ⟨linked, hlinked, -, -, hend⟩
  · exact absurd (hno.symm.trans hreach) (by simp)
  · rcases hend with ⟨rfl, -⟩ | ⟨-, hnone, -⟩
    · exact absurd hlinked (by simp)
    · exact absurd (hnone.symm.trans hpeer) (by simp)

/-- A start that fails before it gets to the valve leaves the gate as it is. -/
theorem gate_of_failedStart (h : FailedStart owner s op) (hlink : ¬ LinkFails owner s op)
    (hstep : RecordGate.step owner s op = some s') : s'.gate = s.gate := by
  obtain ⟨d, attempt, rfl, hne, hrefused⟩ := h
  obtain rfl := Option.some.inj hstep
  rcases start_cases owner s d attempt with ⟨-, hkept⟩ | ⟨linked, rfl, hreach, -⟩
  · exact hkept
  · cases linked with
    | true => exact absurd rfl hne
    | false => exact absurd ⟨d, rfl, hreach⟩ hlink

end Steps

/-- **The record gate is consistent**, and shut after every failed start, exactly in the runs
in which no link of a start fails and a start that fails earlier finds the gate shut. -/
theorem record_gate_consistent_iff (owner : Owner) (ops : List (Op Dir)) :
    (∀ pre op post s s', ops = pre ++ op :: post →
      Runs.run (step owner) State.initial pre = some s → step owner s op = some s' →
        Consistent s' ∧ (FailedStart owner s op → s'.gate.Shut)) ↔
      Runs.Along (Harmless owner) (step owner) State.initial ops := by
  constructor
  · intro h
    rw [Runs.along_iff]
    intro pre op post s hsplit hs
    have hshut := (h pre op post s _ hsplit hs rfl).2
    have hlink : ¬ LinkFails owner s op := by
      intro hfails
      obtain ⟨d, hop, hreach⟩ := hfails
      refine not_shut_of_linkFails ⟨d, hop, hreach⟩ rfl (hshut ⟨d, _, hop, by simp, ?_⟩)
      rintro rfl
      simpa [reaches] using hreach
    refine ⟨hlink, fun hfailed => ?_⟩
    rw [← gate_of_failedStart hfailed hlink rfl]
    exact hshut hfailed
  · rintro h pre op post s s' rfl hs hstep
    obtain ⟨hpre, hrest⟩ := Runs.along_append h
    have hconsistent : Consistent s := Runs.run_invariant (I := Consistent)
      (fun _ _ _ hI hok hst => hI.step hok.1 hst) pre State.initial s consistent_initial hpre hs
    obtain ⟨hlink, hshut⟩ := (hrest s hs).1
    refine ⟨hconsistent.step hlink hstep, fun hfailed => ?_⟩
    rw [gate_of_failedStart hfailed hlink hstep]
    exact hshut hfailed

/-- A repeated record command whose link fails leaves the child with the flag up, the valve open
and linked to nothing. -/
theorem repeated_record_unlinked :
    ∃ s : State ℕ, Runs.run (step .child) State.initial
        [.start 1 (.reachesValve true), .start 2 (.reachesValve false)] = some s ∧
      s.gate.recording = true ∧ s.gate.drop = false ∧ s.gate.peer = none ∧ ¬ Consistent s := by
  refine ⟨_, rfl, rfl, rfl, rfl, ?_⟩
  intro h
  exact absurd (h.linked rfl) (by decide)

end RecordGate
