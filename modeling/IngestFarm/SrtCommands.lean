/-
# The command file of an SRT child

The worker sends commands to the SRT child by appending lines to the file `cmds`; the child
polls the file, reads it, truncates it and then executes what it has read.  The file
operations of the two processes interleave freely.  A line that is appended between the
read and the truncate of one poll is lost, since the truncate removes more than was read;
apart from that every line is executed once and in order (`delivered_of_exclusive`).
-/
import IngestFarm.PyText
import IngestFarm.Runs

namespace SrtCommands

/-- What the worker sends. -/
inductive Command where
  | record (dir : List Char)
  | stop
  | etr290Reset
  | quit
  deriving DecidableEq

/-! The words of the protocol. -/

/-- The command that starts a capture. -/
def recordOp : List Char := ['r', 'e', 'c', 'o', 'r', 'd']

/-- The command that stops it. -/
def stopOp : List Char := ['s', 't', 'o', 'p']

/-- The command that resets the counters. -/
def resetOp : List Char := ['e', 't', 'r', '2', '9', '0', '_', 'r', 'e', 's', 'e', 't']

/-- The command that ends the child. -/
def quitOp : List Char := ['q', 'u', 'i', 't']

/-- The text of a command. -/
def Command.text : Command → List Char
  | record dir => recordOp ++ ' ' :: dir
  | stop => stopOp
  | etr290Reset => resetOp
  | quit => quitOp

/-- What `_srt_send_cmd` writes. -/
def Command.line (c : Command) : List Char := PyText.rstrip c.text ++ ['\n']

/-- A recording directory is a path that ends in a session id, on one line. -/
def Command.Sendable : Command → Prop
  | record dir => PyText.Clean dir
  | _ => True

/-- One line of `_drain_cmds`; `none` for a line that is skipped. -/
def parseLine (line : List Char) : Option Command :=
  match PyText.splitOnce (PyText.strip line) with
  | [] => none
  | op :: args =>
    if op = quitOp then some .quit
    else if op = recordOp then args.head?.map .record
    else if op = stopOp then some .stop
    else if op = resetOp then some .etr290Reset
    else none

/-- The loop of `_drain_cmds`: what it executes of the lines, `quit` being the last. -/
def drainLines : List (List Char) → List Command
  | [] => []
  | line :: lines =>
    match parseLine line with
    | none => drainLines lines
    | some .quit => [.quit]
    | some c => c :: drainLines lines

/-- Where the child is in its poll. -/
inductive Phase where
  /-- Between two polls. -/
  | waiting
  /-- The file exists. -/
  | found
  /-- Its text is read. -/
  | read (raw : List Char)
  /-- The file is emptied. -/
  | taken (raw : List Char)
  /-- The child has executed `quit`. -/
  | gone
  deriving DecidableEq

/-- The file, the child, and what was sent and executed so far. -/
structure Mailbox where
  /-- The text of the file, if it exists. -/
  file : Option (List Char)
  /-- Where the child is in its poll. -/
  phase : Phase
  /-- What the worker has appended. -/
  sent : List Command
  /-- What the child has executed. -/
  executed : List Command

/-- A new session: the state directory is empty. -/
def Mailbox.new : Mailbox := ⟨none, .waiting, [], []⟩

/-- One file operation of either process, or the execution of the lines in hand.  `read` and
`truncate` can fail with an `OSError`, which ends the poll. -/
inductive Action where
  /-- The worker appends a line. -/
  | append (c : Subtype Command.Sendable)
  /-- The child looks for the file. -/
  | checkExists
  /-- It reads the text. -/
  | read
  /-- It cannot. -/
  | readFails
  /-- It empties the file. -/
  | truncate
  /-- It cannot, and the text is dropped. -/
  | truncateFails
  /-- It executes what it has read. -/
  | execute

/-- A step of the parent, which appends, or of the child, which takes what is there. -/
def step (m : Mailbox) : Action → Option Mailbox
  | .append c =>
    some { m with file := some (m.file.getD [] ++ c.1.line), sent := m.sent ++ [c.1] }
  | .checkExists =>
    match m.phase with
    | .waiting => some { m with phase := if m.file.isSome = true then .found else .waiting }
    | _ => none
  | .read =>
    match m.phase, m.file with
    | .found, some raw =>
      some { m with phase := if PyText.strip raw = [] then .waiting else .read raw }
    | _, _ => none
  | .readFails =>
    match m.phase with
    | .found => some { m with phase := .waiting }
    | _ => none
  | .truncate =>
    match m.phase with
    | .read raw => some { m with file := some [], phase := .taken raw }
    | _ => none
  | .truncateFails =>
    match m.phase with
    | .read _ => some { m with phase := .waiting }
    | _ => none
  | .execute =>
    match m.phase with
    | .taken raw =>
      let done := drainLines (PyText.splitlines raw)
      some { m with
        executed := m.executed ++ done
        phase := if .quit ∈ done then .gone else .waiting }
    | _ => none

/-! ## What delivery means -/

/-- The commands up to the first `quit`. -/
def untilQuit : List Command → List Command
  | [] => []
  | .quit :: _ => [.quit]
  | c :: cs => c :: untilQuit cs

/-- The child has nothing left to do: it has quit, or its next poll finds no text. -/
def Mailbox.Drained (m : Mailbox) : Prop :=
  m.phase = .gone ∨ m.phase = .waiting ∧ PyText.strip (m.file.getD []) = []

/-- **Delivery**: nothing but the commands sent before a `quit` is executed, once and in
order, and all of them once the child has nothing left to do. -/
structure Mailbox.Delivered (m : Mailbox) : Prop where
  order : m.executed <+: untilQuit m.sent
  all : m.Drained → m.executed = untilQuit m.sent

/-- A truncate removes what the child has read and no more. -/
def Exclusive (m : Mailbox) : Action → Prop
  | .truncate => ∀ raw, m.phase = .read raw → m.file = some raw
  | _ => True

/-! ## Lines and commands -/

/-- The text of a command that can be sent is clean. -/
theorem Command.Sendable.clean {c : Command} (h : c.Sendable) : PyText.Clean c.text := by
  cases c with
  | record dir =>
    have hdir : PyText.Clean dir := h
    obtain ⟨x, xs, rfl⟩ := List.exists_cons_of_ne_nil hdir.nonempty
    refine ⟨by simp [text], ?_, ?_, ?_⟩
    · intro c hc
      rw [text, List.mem_append, List.mem_cons] at hc
      rcases hc with hc | rfl | hc
      · revert c
        simp [recordOp, PyText.isLineBreak]
      · decide
      · exact hdir.unbroken c hc
    · intro c hc
      obtain rfl : 'r' = c := by simpa [text, recordOp] using hc
      decide
    · intro c hc
      apply hdir.last c
      rw [text, List.getLast?_append_of_ne_nil _ (by simp), List.getLast?_cons_cons] at hc
      exact hc
  | stop =>
    exact ⟨by decide, by simp [text, stopOp, PyText.isLineBreak],
      by simp [text, stopOp, PyText.isSpace],
      by simp [text, stopOp, PyText.isSpace]⟩
  | etr290Reset =>
    exact ⟨by decide, by simp [text, resetOp, PyText.isLineBreak],
      by simp [text, resetOp, PyText.isSpace],
      by simp [text, resetOp, PyText.isSpace]⟩
  | quit =>
    exact ⟨by decide, by simp [text, quitOp, PyText.isLineBreak],
      by simp [text, quitOp, PyText.isSpace],
      by simp [text, quitOp, PyText.isSpace]⟩

/-- A clean text is written as it is. -/
theorem Command.Sendable.line_eq {c : Command} (h : c.Sendable) : c.line = c.text ++ ['\n'] := by
  rw [line, PyText.rstrip_of_last h.clean.last]

/-- **A sent line is read back as the command it is.** -/
theorem parseLine_text {c : Command} (h : c.Sendable) : parseLine c.text = some c := by
  unfold parseLine
  rw [h.clean.strip]
  cases c with
  | record dir =>
    have hdir : PyText.Clean dir := h
    rw [Command.text, PyText.splitOnce_pair (by decide) (by simp [recordOp, PyText.isSpace]) hdir]
    rfl
  | stop => decide
  | etr290Reset => decide
  | quit => decide

/-- What the file holds when `cs` are queued in it. -/
def render (cs : List Command) : List Char := cs.flatMap Command.line

/-- **The child executes what was queued**, up to the first `quit`. -/
theorem drainLines_render {cs : List Command} (h : ∀ c ∈ cs, c.Sendable) :
    drainLines (PyText.splitlines (render cs)) = untilQuit cs := by
  have hrender : render cs = (cs.map Command.text).flatMap fun l => l ++ ['\n'] := by
    rw [render, List.flatMap_map]
    exact List.flatMap_congr fun c hc => (h c hc).line_eq
  rw [hrender, PyText.splitlines_flatMap]
  · clear hrender
    induction cs with
    | nil => rfl
    | cons c cs ih =>
      have hcs := ih fun d hd => h d (List.mem_cons_of_mem _ hd)
      rw [List.map_cons, drainLines, parseLine_text (h c (List.mem_cons_self ..))]
      cases c with
      | quit => rfl
      | _ => simp only [untilQuit, hcs]
  · intro l hl
    obtain ⟨c, hc, rfl⟩ := List.mem_map.mp hl
    exact (h c hc).clean

/-- A queued command is visible. -/
theorem strip_render_eq_nil {cs : List Command} (h : ∀ c ∈ cs, c.Sendable)
    (hnil : PyText.strip (render cs) = []) : cs = [] := by
  cases cs with
  | nil => rfl
  | cons c cs =>
    have hc := h c (List.mem_cons_self ..)
    refine absurd hnil (PyText.strip_ne_nil ?_)
    obtain ⟨x, xs, hx⟩ := List.exists_cons_of_ne_nil hc.clean.nonempty
    refine ⟨x, ?_, hc.clean.head x (by rw [hx]; rfl)⟩
    rw [render, List.flatMap_cons, hc.line_eq, hx]
    simp

/-- Commands are told from their texts by the file having none. -/
theorem render_eq_nil {cs : List Command} (h : render cs = []) : cs = [] := by
  cases cs with
  | nil => rfl
  | cons c cs => simp [render, Command.line] at h

/-! ## Up to the quit -/

/-- A quit is the last that is executed. -/
theorem quit_mem_untilQuit {cs : List Command} : .quit ∈ untilQuit cs ↔ .quit ∈ cs := by
  induction cs with
  | nil => rfl
  | cons c cs ih => cases c <;> simp [untilQuit, ih]

/-- Before a `quit` nothing is cut off. -/
theorem untilQuit_append {cs : List Command} (h : .quit ∉ cs) (ds : List Command) :
    untilQuit (cs ++ ds) = cs ++ untilQuit ds := by
  induction cs with
  | nil => rfl
  | cons c cs ih =>
    rw [List.mem_cons, not_or] at h
    have hcs := ih h.2
    cases c with
    | quit => exact absurd rfl h.1
    | _ => simp only [List.cons_append, untilQuit, hcs]

/-- After a `quit` nothing counts. -/
theorem untilQuit_append_of_mem {cs : List Command} (h : .quit ∈ cs) (ds : List Command) :
    untilQuit (cs ++ ds) = untilQuit cs := by
  induction cs with
  | nil => exact absurd h (by simp)
  | cons c cs ih =>
    cases c with
    | quit => rfl
    | _ =>
      have hcs := ih (by simpa using h)
      simp only [List.cons_append, untilQuit, hcs]

/-! ## The invariant -/

/-- Everything sent is executed, or `held` for the next execution, or `queued` behind it. -/
structure Accounts (sent executed held queued : List Command) : Prop where
  /-- Nothing is lost, and nothing is executed twice or out of order. -/
  sent : sent = executed ++ (held ++ queued)
  /-- What is still to be executed can be sent. -/
  sendable : ∀ c ∈ held ++ queued, c.Sendable
  /-- `quit` was not executed. -/
  live : .quit ∉ executed

/-- What the file holds when `cs` are queued in it. -/
def HasText (file : Option (List Char)) (cs : List Command) : Prop := file.getD [] = render cs

/-- Where the commands are at each point of a poll. -/
inductive Inv : Mailbox → Prop
  /-- Everything that is not executed is in the file. -/
  | waiting {file sent executed queued} (hacc : Accounts sent executed [] queued)
      (hfile : HasText file queued) : Inv ⟨file, .waiting, sent, executed⟩
  /-- So it is once the file was seen. -/
  | found {file sent executed queued} (hacc : Accounts sent executed [] queued)
      (hfile : HasText file queued) : Inv ⟨file, .found, sent, executed⟩
  /-- What was read is in hand and still in the file. -/
  | read {file sent executed held queued} (hacc : Accounts sent executed held queued)
      (hfile : HasText file (held ++ queued)) : Inv ⟨file, .read (render held), sent, executed⟩
  /-- It is in hand only. -/
  | taken {file sent executed held queued} (hacc : Accounts sent executed held queued)
      (hfile : HasText file queued) : Inv ⟨file, .taken (render held), sent, executed⟩
  /-- Nothing after `quit` was executed. -/
  | gone {file sent executed} (hexec : executed = untilQuit sent) (hquit : .quit ∈ sent) :
      Inv ⟨file, .gone, sent, executed⟩

/-- Nothing was sent. -/
theorem inv_new : Inv Mailbox.new :=
  @Inv.waiting none [] [] [] ⟨rfl, by simp, List.not_mem_nil⟩ rfl

/-- Lines follow each other. -/
theorem render_append (cs ds : List Command) : render (cs ++ ds) = render cs ++ render ds :=
  List.flatMap_append ..

/-- An appended command is queued. -/
theorem Accounts.append {sent executed held queued : List Command}
    (h : Accounts sent executed held queued) (c : Subtype Command.Sendable) :
    Accounts (sent ++ [c.1]) executed held (queued ++ [c.1]) := by
  refine ⟨by simp [h.sent], fun d hd => ?_, h.live⟩
  rw [← List.append_assoc, List.mem_append, List.mem_singleton] at hd
  rcases hd with hd | rfl
  · exact h.sendable d hd
  · exact c.2

/-- One line more. -/
theorem HasText.append {file : Option (List Char)} {cs : List Command} (h : HasText file cs)
    (c : Command) : HasText (some (file.getD [] ++ c.line)) (cs ++ [c]) := by
  unfold HasText at *
  rw [h, render_append, Option.getD_some]
  simp [render]

/-- What is queued can be taken in hand. -/
theorem Accounts.hold {sent executed queued : List Command}
    (h : Accounts sent executed [] queued) : Accounts sent executed queued [] :=
  ⟨by simpa using h.sent, by simpa using h.sendable, h.live⟩

/-- What is in hand can be left in the file. -/
theorem Accounts.release {sent executed held queued : List Command}
    (h : Accounts sent executed held queued) : Accounts sent executed [] (held ++ queued) :=
  ⟨h.sent, h.sendable, h.live⟩

/-- **Every step that leaves appended text alone keeps the invariant.** -/
theorem inv_step {m m' : Mailbox} {a : Action} (hI : Inv m) (hok : Exclusive m a)
    (h : step m a = some m') : Inv m' := by
  cases a with
  | append c =>
    obtain rfl : _ = m' := Option.some.inj h
    cases hI with
    | waiting hacc hfile => exact .waiting (hacc.append c) (hfile.append c)
    | found hacc hfile => exact .found (hacc.append c) (hfile.append c)
    | read hacc hfile =>
      refine .read (hacc.append c) ?_
      rw [← List.append_assoc]
      exact hfile.append c
    | taken hacc hfile => exact .taken (hacc.append c) (hfile.append c)
    | gone hexec hquit =>
      refine .gone ?_ (List.mem_append_left _ hquit)
      rw [hexec, untilQuit_append_of_mem hquit]
  | checkExists =>
    cases hI with
    | @waiting file sent executed queued hacc hfile =>
      obtain rfl : _ = m' := Option.some.inj h
      by_cases hf : file.isSome = true
      · simp only [if_pos hf]
        exact .found hacc hfile
      · simp only [if_neg hf]
        exact .waiting hacc hfile
    | _ => simp [step] at h
  | read =>
    cases hI with
    | @found file sent executed queued hacc hfile =>
      cases file with
      | none => simp [step] at h
      | some raw =>
        obtain rfl : _ = m' := Option.some.inj h
        by_cases hblank : PyText.strip raw = []
        · simp only [if_pos hblank]
          exact .waiting hacc hfile
        · simp only [if_neg hblank]
          have hraw : raw = render queued := hfile
          rw [hraw]
          refine .read hacc.hold ?_
          rw [List.append_nil]
          rfl
    | _ => simp [step] at h
  | readFails =>
    cases hI with
    | found hacc hfile =>
      obtain rfl : _ = m' := Option.some.inj h
      exact .waiting hacc hfile
    | _ => simp [step] at h
  | truncate =>
    cases hI with
    | @read file sent executed held queued hacc hfile =>
      obtain rfl : _ = m' := Option.some.inj h
      -- The file is what was read: nothing is queued behind it.
      have hsame : file = some (render held) := hok _ rfl
      have hnil : queued = [] := by
        rw [hsame, HasText, Option.getD_some, render_append] at hfile
        exact render_eq_nil (List.self_eq_append_right.mp hfile)
      subst hnil
      exact .taken hacc rfl
    | _ => simp [step] at h
  | truncateFails =>
    cases hI with
    | read hacc hfile =>
      obtain rfl : _ = m' := Option.some.inj h
      exact .waiting hacc.release hfile
    | _ => simp [step] at h
  | execute =>
    cases hI with
    | @taken file sent executed held queued hacc hfile =>
      obtain rfl : _ = m' := Option.some.inj h
      have hdone := drainLines_render fun c hc => hacc.sendable c (List.mem_append_left _ hc)
      simp only [hdone, quit_mem_untilQuit]
      by_cases hquit : .quit ∈ held
      · rw [if_pos hquit]
        refine .gone ?_ ?_
        · rw [hacc.sent, untilQuit_append hacc.live, untilQuit_append_of_mem hquit]
        · rw [hacc.sent]
          simp [hquit]
      · rw [if_neg hquit]
        have hall : untilQuit held = held := by simpa [untilQuit] using untilQuit_append hquit []
        rw [hall]
        refine .waiting ⟨?_, ?_, ?_⟩ hfile
        · simpa using hacc.sent
        · exact fun c hc => hacc.sendable c (List.mem_append_right _ hc)
        · simpa [hquit] using hacc.live
    | _ => simp [step] at h

/-- **The invariant is delivery.** -/
theorem Inv.delivered {m : Mailbox} (hI : Inv m) : m.Delivered := by
  have hupto : ∀ {sent executed held queued}, Accounts sent executed held queued →
      executed <+: untilQuit sent := by
    intro sent executed held queued hacc
    rw [hacc.sent, untilQuit_append hacc.live]
    exact List.prefix_append ..
  cases hI with
  | @waiting file sent executed queued hacc hfile =>
    refine ⟨hupto hacc, fun hdrained => ?_⟩
    rcases hdrained with h | ⟨-, h⟩
    · exact absurd h (by simp)
    · have hnil : queued = [] := by
        refine strip_render_eq_nil (fun c hc => hacc.sendable c (by simpa using hc)) ?_
        rw [← hfile]
        exact h
      have hsent := hacc.sent
      rw [hnil, List.append_nil, List.append_nil] at hsent
      have hall := untilQuit_append hacc.live []
      rw [List.append_nil, untilQuit, List.append_nil] at hall
      rw [hsent, hall]
  | found hacc hfile => exact ⟨hupto hacc, fun h => by simp [Mailbox.Drained] at h⟩
  | read hacc hfile => exact ⟨hupto hacc, fun h => by simp [Mailbox.Drained] at h⟩
  | taken hacc hfile => exact ⟨hupto hacc, fun h => by simp [Mailbox.Drained] at h⟩
  | gone hexec hquit => exact ⟨hexec ▸ List.prefix_rfl, fun _ => hexec⟩

/-! ## Runs -/

/-- **Commands are delivered in every run without a lost append.** -/
theorem delivered_of_exclusive {acts : List Action} {m : Mailbox}
    (hok : Runs.Along Exclusive step Mailbox.new acts)
    (hrun : Runs.run step Mailbox.new acts = some m) : m.Delivered :=
  (Runs.run_invariant (fun _ _ _ hI hok h => inv_step hI hok h) acts _ _ inv_new hok hrun).delivered

/-- A `stop` that arrives after the truncate is delivered by the next poll. -/
theorem delivered_late_stop : Mailbox.Delivered
    ⟨some [], .waiting, [.etr290Reset, .stop], [.etr290Reset, .stop]⟩ :=
  @delivered_of_exclusive
    [.append ⟨.etr290Reset, trivial⟩, .checkExists, .read, .truncate,
      .append ⟨.stop, trivial⟩, .execute, .checkExists, .read, .truncate, .execute] _
    (Runs.along_cons trivial rfl <| Runs.along_cons trivial rfl <| Runs.along_cons trivial rfl <|
      Runs.along_cons (by rintro raw ⟨⟩; rfl) rfl <| Runs.along_cons trivial rfl <|
      Runs.along_cons trivial rfl <| Runs.along_cons trivial rfl <|
      Runs.along_cons trivial rfl <| Runs.along_cons (by rintro raw ⟨⟩; rfl) rfl <|
      Runs.along_cons trivial rfl trivial) rfl

/-! ## The lost append -/

/-- A `stop` that arrives between the read and the truncate of one poll. -/
def lostStop : List Action :=
  [.append ⟨.etr290Reset, trivial⟩, .checkExists, .read, .append ⟨.stop, trivial⟩, .truncate,
    .execute]

/-- The stop is never executed, though the child has nothing left to do. -/
theorem stop_is_lost :
    ¬ ∀ (acts : List Action) (m : Mailbox), Runs.run step Mailbox.new acts = some m →
      m.Delivered := by
  intro h
  have hrun : Runs.run step Mailbox.new lostStop =
      some ⟨some [], .waiting, [.etr290Reset, .stop], [.etr290Reset]⟩ := by
    rfl
  have hall := (h _ _ hrun).all (Or.inr ⟨rfl, rfl⟩)
  exact absurd hall (by decide)

end SrtCommands
