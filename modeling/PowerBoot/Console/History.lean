import PowerBoot.Console.Stream
import PowerBoot.Coop.Alone
import PowerBoot.Coop.Log
import PowerBoot.Coop.Logic
import Mathlib.Data.List.Induction

/-! The history of the console. Any threads write to it, and each write is put into the lines in one
critical section, in which no other thread runs. -/

namespace PowerBoot.Console
open Coop Code

/-- A call `_consolewrite(fd, buf, count)`, with the `count` bytes at `buf`. -/
inductive Entry where
  | consolewrite (buf : Bytes)

inductive Op where
  | beginCritical
  | pushBack (str : Bytes)
  | size
  | eraseFirst
  | endCritical

@[reducible] def Op.Reply : Op → Type
  | .size => Nat
  | .beginCritical | .pushBack _ | .eraseFirst | .endCritical => Unit

@[reducible] def signature : Signature := { Op, Reply := Op.Reply, Entry }

inductive Event where
  | called (thread : ThreadId) (buf : Bytes)
  | pushed (thread : ThreadId) (str : Bytes)
  | returned (thread : ThreadId) (size : Nat)
deriving DecidableEq

def Event.thread : Event → ThreadId
  | .called thread _ | .pushed thread _ | .returned thread _ => thread

/-- The lines, how many critical sections have begun and not ended, and what happened. -/
structure History where
  lineBuffer : List Bytes := []
  critical : Nat := 0
  log : List Event := []

def History.record (event : Event) (history : History) : History := { history with log := history.log ++ [event] }

def exec (thread : ThreadId) : (o : Op) → Unit → History → Option (o.Reply × History)
  | .beginCritical, _, history => some ((), { history with critical := history.critical + 1 })
  | .pushBack str, _, history =>
    some ((), { history with lineBuffer := history.lineBuffer ++ [str] }.record (.pushed thread str))
  | .size, _, history => some (history.lineBuffer.length, history)
  | .eraseFirst, _, history => match history.lineBuffer with
    | _ :: lineBuffer => some ((), { history with lineBuffer })
    | [] => none
  | .endCritical, _, history => some ((), { history with critical := history.critical - 1 })

abbrev perform (o : Op) : Code signature o.Reply := Code.call (S := signature) o

/-- `_consolewrite`, statement by statement. -/
def consolewriteCode (buf : Bytes) : Code signature Nat := do
  let str := buf
  perform .beginCritical
  perform (.pushBack str)
  let size ← perform .size
  when (size ≥ 40) (perform .eraseFirst)
  perform .endCritical
  pause
  return str.length

def kernel : Kernel signature where
  State := History
  Input := Unit
  Value := Nat
  body | .consolewrite buf => consolewriteCode buf
  exec := exec
  called | thread, .consolewrite buf, history => some (history.record (.called thread buf))
  spawned _ _ _ history := history
  disposed _ _ history := history
  exited _ history := history
  returned thread size history := history.record (.returned thread size)
  threw _ history := history
  environment _ _ := none

def writesOf (log : List Event) : List Bytes :=
  log.filterMap fun
    | .pushed _ str => some str
    | _ => none

def own (thread : ThreadId) (log : List Event) : List Event := log.filter (·.thread = thread)

/-- The last 39 of the writes, or all of them. -/
def lastLines (writes : List Bytes) : List Bytes := writes.drop (writes.length - min writes.length 39)

/-- A call returns the size of what it was called with, which it has pushed once meanwhile. -/
def Answered (past : List Event) (event : Event) : Prop :=
  ∀ thread size, event = .returned thread size → ∃ before buf,
    own thread past = before ++ [.called thread buf, .pushed thread buf] ∧ size = buf.length

structure Remembers (history : History) : Prop where
  lines : history.critical = 0 → history.lineBuffer = lastLines (writesOf history.log)
  answers : Throughout Answered history.log

section lines
variable {writes : List Bytes} {str : Bytes}

theorem lastLines_length : (lastLines writes).length = min writes.length 39 := by
  rw [lastLines, List.length_drop]
  omega

theorem consolewrite_last : consolewrite (lastLines writes) str = lastLines (writes ++ [str]) := by
  have size := @lastLines_length writes
  unfold consolewrite
  dsimp only
  rw [List.length_append, List.length_singleton, size, lastLines, lastLines, List.length_append, List.length_singleton]
  split
  next full =>
    have few : writes.length + 1 - min (writes.length + 1) 39 = writes.length - min writes.length 39 + 1 := by omega
    rw [few, ← List.drop_append_of_le_length (by omega), List.drop_drop]
  next room =>
    have few : writes.length + 1 - min (writes.length + 1) 39 = writes.length - min writes.length 39 := by omega
    rw [few, List.drop_append_of_le_length (by omega)]

/-- The lines after a sequence of writes are the last of them. -/
theorem written_last : written writes = lastLines writes := by
  induction writes using List.reverseRecOn with
  | nil => rfl
  | append_singleton writes str ih =>
    rw [← consolewrite_last, ← ih]
    exact List.foldl_concat ..

end lines

section rules
variable {thread other : ThreadId} {history after : History} {log : List Event}

/-- Between two sections no critical section is open. What a thread relies on is that nobody else acts for it. -/
def remembering : Rules kernel where
  choices := .all kernel
  knows history name := ∃ event ∈ history.log, event.thread = name
  alive _ _ := True
  invariant history := history.critical = 0 ∧ Remembers history
  rely thread before after := own thread after.log = own thread before.log
  step _ _ after := Remembers after
  idle _ _ := True
  requires | .consolewrite buf, thread, history => ∃ before, own thread history.log = before ++ [.called thread buf]

theorem own_concat {event : Event} :
    own thread (log ++ [event]) = own thread log ++ if event.thread = thread then [event] else [] := by
  rw [own, List.filter_append, ← own]
  congr 1
  by_cases mine : event.thread = thread <;> simp [mine]

theorem writesOf_concat {event : Event} : writesOf (log ++ [event]) = writesOf log ++ writesOf [event] :=
  List.filterMap_append

theorem Remembers.inside (critical : history.critical ≠ 0) (answers : Throughout Answered history.log) :
    Remembers history where
  lines outside := (critical outside).elim
  answers := answers

theorem answered_pushed {str : Bytes} : Answered log (.pushed thread str) := nofun

theorem Remembers.record {event : Event} (remembers : Remembers history) (quiet : writesOf [event] = [])
    (answered : Answered history.log event) : Remembers (history.record event) where
  lines outside := by
    rw [History.record, writesOf_concat, quiet, List.append_nil]
    exact remembers.lines outside
  answers := throughout_concat.mpr ⟨remembers.answers, answered⟩

theorem exec_log {o : Op} {reply : o.Reply} (executed : exec thread o () history = some (reply, after)) :
    ∀ event ∈ after.log, event ∈ history.log ∨ event.thread = thread := by
  intro event member
  cases o with
  | pushBack str =>
    cases executed
    rcases List.mem_append.mp member with before | last
    · exact .inl before
    · rw [List.mem_singleton.mp last]
      exact .inr rfl
  | eraseFirst =>
    rw [exec] at executed
    split at executed <;> cases executed
    exact .inl member
  | _ =>
    cases executed
    exact .inl member

theorem eraseFirst_drops {reply : Unit} (executed : exec thread .eraseFirst () history = some (reply, after)) :
    after = { history with lineBuffer := history.lineBuffer.drop 1 } := by
  rw [exec] at executed
  split at executed
  next lines =>
    cases executed
    rw [lines, List.drop_one, List.tail_cons]
  · cases executed

theorem remembering_record {event : Event} (mine : event.thread = thread) :
    remembering.Keeps (· = thread) (fun _ => True) history (history.record event) where
  known name := by
    rintro ⟨event', member, rfl⟩
    rcases List.mem_append.mp member with before | last
    · exact .inl ⟨event', before, rfl⟩
    · rw [List.mem_singleton.mp last]
      exact .inr mine
  alive _ _ _ := trivial

theorem remembering_named : remembering.Named where
  exec thread o input before reply after executed := by
    refine ⟨?_, fun _ _ _ => trivial⟩
    rintro name ⟨event, member, rfl⟩
    exact (exec_log executed event member).imp_left fun before => ⟨event, before, rfl⟩
  called thread entry before after called := by
    cases entry
    cases called
    exact ⟨remembering_record rfl, trivial⟩
  spawned _ _ _ _ := ⟨⟨fun _ knows => .inl knows, fun _ _ _ => trivial⟩, trivial⟩
  disposed _ _ _ := ⟨fun _ knows => .inl knows, fun _ _ _ => trivial⟩
  exited _ _ _ knows := .inl knows
  returned _ _ _ := remembering_record rfl
  threw _ _ := ⟨fun _ knows => .inl knows, fun _ _ _ => trivial⟩
  environment _ _ _ moved := by cases moved

/-- The end of a write: the lines are in order again before any other thread runs. -/
theorem endCritical_holds {buf : Bytes} {start now : History} (inside : now.critical = 1)
    (lines : now.lineBuffer = lastLines (writesOf now.log)) (answers : Throughout Answered now.log)
    (mine : ∃ before, own thread now.log = before ++ [.called thread buf, .pushed thread buf])
    (others : ∀ other, other ≠ thread → own other now.log = own other start.log) :
    remembering.Holds thread (do perform .endCritical; pause; return buf.length) (remembering.Returns thread)
      start now := by
  intro _ _ after _ executed
  cases executed
  have remembers : Remembers { now with critical := now.critical - 1 } := ⟨fun _ => lines, answers⟩
  have outside : now.critical - 1 = 0 := by rw [inside]
  refine ⟨remembers, ⟨⟨outside, remembers⟩, others⟩, ?_⟩
  rintro later ⟨open_, kept⟩ same _
  obtain ⟨before, mine⟩ := mine
  have answered : Answered later.log (.returned thread buf.length) := by
    rintro _ _ ⟨⟩
    exact ⟨before, buf, same.trans mine, rfl⟩
  refine ⟨⟨⟨open_, kept.record rfl answered⟩, fun other different => ?_⟩, trivial⟩
  exact own_concat.trans (by simp [Event.thread, different.symm])

/-- One write, from its call to its return. -/
theorem consolewrite_holds {buf : Bytes} (outside : history.critical = 0) (remembers : Remembers history)
    (called : ∃ before, own thread history.log = before ++ [.called thread buf]) :
    remembering.Holds thread (consolewriteCode buf) (remembering.Returns thread) history history := by
  obtain ⟨before, called⟩ := called
  have lines := remembers.lines outside
  have pushed := @consolewrite_last (writesOf history.log) buf
  have writes : writesOf (history.log ++ [.pushed thread buf]) = writesOf history.log ++ [buf] := writesOf_concat
  rw [consolewrite, ← lines, ← writes] at pushed
  have answers : Throughout Answered (history.log ++ [.pushed thread buf]) :=
    throughout_concat.mpr ⟨remembers.answers, answered_pushed⟩
  have mine : own thread (history.log ++ [.pushed thread buf]) = before ++
    [.called thread buf, .pushed thread buf] := by
    rw [own_concat, called]
    simp [Event.thread]
  have others (other : ThreadId) (different : other ≠ thread) :
      own other (history.log ++ [.pushed thread buf]) = own other history.log :=
    own_concat.trans (by simp [Event.thread, different.symm])
  have inside : history.critical + 1 = 1 := by rw [outside]
  intro _ _ _ _ begun
  cases begun
  refine ⟨.inside (Nat.succ_ne_zero _) remembers.answers, ?_⟩
  intro _ _ _ _ pushes
  cases pushes
  refine ⟨.inside (Nat.succ_ne_zero _) answers, ?_⟩
  intro _ _ _ _ sized
  cases sized
  refine ⟨.inside (Nat.succ_ne_zero _) answers, ?_⟩
  change remembering.Holds thread ((when ((history.lineBuffer ++ [buf]).length ≥ 40) (perform .eraseFirst)).bind
    fun _ => do perform .endCritical; pause; return buf.length) _ _ _
  by_cases full : (history.lineBuffer ++ [buf]).length ≥ 40
  · rw [when, if_pos full]
    rw [if_pos full] at pushed
    intro _ _ _ _ erased
    obtain rfl := @eraseFirst_drops thread _ _ _ erased
    exact ⟨.inside (Nat.succ_ne_zero _) answers, endCritical_holds inside pushed answers ⟨before, mine⟩ others⟩
  · rw [when, if_neg full]
    rw [if_neg full] at pushed
    exact endCritical_holds inside pushed answers ⟨before, mine⟩ others

theorem remembering_sound : remembering.Sound where
  refl _ _ := rfl
  trans first second := second.trans first
  named := remembering_named
  fresh _ _ := trivial
  idles _ _ := trivial
  readies {entry thread before after} same ready := by
    cases entry
    obtain ⟨front, ready⟩ := ready
    exact ⟨front, same.trans ready⟩
  called {thread entry before after} _ kept _ called := by
    cases entry
    cases called
    refine ⟨⟨⟨kept.1, kept.2.record rfl nofun⟩, fun other different => ?_⟩, ?_⟩
    · exact own_concat.trans (by simp [Event.thread, different.symm])
    · exact ⟨own thread before.log, own_concat.trans (by simp [Event.thread])⟩
  environment _ _ moved := by cases moved
  body {entry thread history} kept called _ := by
    cases entry
    exact consolewrite_holds kept.1 kept.2 called

end rules

/-- In any run of any threads, the lines are the last 39 of what was written, in the order of the critical
sections, whenever no such section is open; and each write returns the size of what it has put there. -/
theorem history_remembered {count : Nat} {world : World kernel}
    (reached : (Choices.all kernel).Reaches (World.initial {} count) world) :
    Remembers world.state ∧ (world.current = none → world.state.critical = 0) := by
  have start : Remembers {} := ⟨fun _ => rfl, .nil⟩
  have safe : remembering.Safe (World.initial {} count) :=
    .initial ⟨rfl, start⟩ (fun name => by rintro ⟨event, member, _⟩; cases member) fun _ => trivial
  refine ⟨?_, fun outside => ((safe.reaches remembering_sound reached).invariant outside).1⟩
  exact remembering_sound.everywhere safe rfl (fun _ kept => kept.2) (fun _ _ _ stepped => stepped) reached

section alone
variable {thread : ThreadId} {buf : Bytes} {history : History}

theorem runs_op {α : Type} {o : Op} {next : o.Reply → Code signature α} {rest : Code signature α} {reply : o.Reply}
    {after last : History} (executed : exec thread o () history = some (reply, after))
    (later : @Runs _ kernel thread _ (next reply) after rest last) :
    @Runs _ kernel thread _ (.op o next) history rest last := .op executed later

theorem consolewrite_alone : @Alone _ kernel thread _ (consolewriteCode buf) history buf.length
    { history with
      lineBuffer := consolewrite history.lineBuffer buf
      log := history.log ++ [.pushed thread buf] } := by
  obtain ⟨lineBuffer, critical, log⟩ := history
  refine runs_op rfl (runs_op rfl (runs_op rfl ?_))
  change Alone thread ((when ((lineBuffer ++ [buf]).length ≥ 40) (perform .eraseFirst)).bind
    fun _ => do perform .endCritical; pause; return buf.length) _ _ _
  by_cases full : (lineBuffer ++ [buf]).length ≥ 40
  · rw [when, if_pos full, consolewrite, if_pos full]
    cases lineBuffer with
    | nil => simp at full
    | cons line lineBuffer => exact runs_op rfl (runs_op rfl (.yield (.here _ _)))
  · rw [when, if_neg full, consolewrite, if_neg full]
    exact runs_op rfl (.yield (.here _ _))

/-- A write can always be made and returns, whatever the other threads are about to do. -/
theorem consolewrite_returns {world : World kernel} (outside : world.current = none) :
    (Choices.all kernel).Reaches world
      { state := {
          world.state with
          lineBuffer := consolewrite world.state.lineBuffer buf
          log := world.state.log ++ [.called world.threads.length buf, .pushed world.threads.length buf,
            .returned world.threads.length buf.length] }
        threads := world.threads ++ [.idle] } := by
  have called : kernel.called world.threads.length (.consolewrite buf) world.state =
      some (world.state.record (.called world.threads.length buf)) := rfl
  have reached := @Alone.called _ kernel ⟨()⟩ _ world _ _ _ outside called consolewrite_alone
  simpa [kernel, History.record] using reached

end alone

/-- Two threads, of which the second one writes while the first one waits to return. -/
def interleaved : World kernel :=
  (@World.initial _ kernel {} 2).after
    ([.call 0 (.consolewrite [65, 0]), .resume 0] ++ List.replicate 5 (.continue ()) ++
    [.call 1 (.consolewrite []), .resume 1] ++ List.replicate 5 (.continue ()) ++ [.resume 0, .continue ()])

theorem history_remembered_interleaved : interleaved.state.lineBuffer = lastLines (writesOf interleaved.state.log) ∧
    interleaved.state.log = [.called 0 [65, 0], .pushed 0 [65, 0], .called 1 [], .pushed 1 [], .returned 0 2] :=
  ⟨(@history_remembered 2 interleaved .after).1.lines rfl, rfl⟩

end PowerBoot.Console
