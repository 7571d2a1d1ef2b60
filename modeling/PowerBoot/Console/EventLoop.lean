import PowerBoot.Console.Prints
import PowerBoot.Coop.Extension

/-! The application thread of the console. `MacMain` waits for events and draws the window
again and again, while other threads write to the console. The window's size and its update
region are kept by the Toolbox. -/

namespace PowerBoot.Console.EventLoop
open Coop Code

/-- `event.what`, as far as `MacMain` tells events apart. -/
inductive What where
  | updateEvt | activateEvt | mouseDown | osEvt | other
deriving DecidableEq

/-- What FindWindow answers. -/
inductive Part where
  | inDrag | inGrow | inGoAway | other
deriving DecidableEq

/-- The calls to the Toolbox. What `MacMain` does before its window is there is one of them, and
`ScreenDraw` is one too, because no other thread runs meanwhile. -/
inductive Toolbox where
  | consoleSetup
  | systemTask
  | getNextEvent
  | beginUpdate
  | screenDraw
  | endUpdate
  | getWRefCon
  | findWindow
  | dragWindow
  | growWindow
  | sizeWindow (w h : BitVec 16)
  | trackGoAway
  | closeWindow

@[reducible] def Toolbox.Reply : Toolbox → Type
  | .getNextEvent => Option What
  | .findWindow => Part
  | .growWindow => BitVec 32
  | .trackGoAway => Bool
  | .consoleSetup | .systemTask | .beginUpdate | .screenDraw | .endUpdate | .getWRefCon | .dragWindow
  | .sizeWindow .. | .closeWindow => Unit

inductive Start where
  | macMain

@[reducible] def signature : Signature := Console.signature.extend Toolbox Toolbox.Reply Start

/-- The answers of the Toolbox. `expose` is not one: something uncovers a part of the window. -/
inductive Input where
  | none
  | size (w h : BitVec 16)
  | event (what : Option What)
  | part (part : Part)
  | grown (growResult : BitVec 32)
  | tracked (goAway : Bool)
  | expose

inductive Value where
  | wrote (size : Nat)
  | done

/-- What the application thread has done. A poll is remembered with whether the window had to be
updated, and a frame with the number of events in the history when it was drawn. -/
inductive Scene where
  | sized (w h : BitVec 16)
  | polled (what : Option What) (invalid : Bool)
  | drawn (time : Nat) (marks : List Mark)
  | tracked (goAway : Bool)
  | quit
  | ended
deriving DecidableEq

/-- The state of the machine. `main` is the application thread. -/
structure Desk where
  history : History := {}
  main : Option ThreadId := none
  size : BitVec 16 × BitVec 16 := (0, 0)
  invalid : Bool := false
  scenes : List Scene := []

def Desk.stage (scene : Scene) (desk : Desk) : Desk := { desk with scenes := desk.scenes ++ [scene] }

/-- The rectangle has an inside. -/
def inside (w h : BitVec 16) : Bool := 0 < w.toInt ∧ 0 < h.toInt

def Desk.resize (w h : BitVec 16) (desk : Desk) : Desk := { desk with size := (w, h) }.stage (.sized w h)

section draw
variable (machine : Machine) (rec : Rect)

/-- `ScreenDraw`, which writes to the console where it prints, and invalidates what it has drawn. -/
def Desk.draw (thread : ThreadId) (desk : Desk) : Option Desk :=
  (screenDraw machine rec desk.history.lineBuffer).map fun screen => { desk with
    history := {
      desk.history with
      lineBuffer := screen.lineBuffer
      log := desk.history.log ++ (printed machine screen.marks).map (.pushed thread) }
    invalid := desk.invalid || inside desk.size.1 desk.size.2
    scenes := desk.scenes ++ [.drawn desk.history.log.length screen.marks] }

/-- NewWindow makes a window that has to be drawn, and SizeWindow does nothing if both sides are 0. -/
def Toolbox.exec (thread : ThreadId) : (o : Toolbox) → Input → Desk → Option (o.Reply × Desk)
  | .consoleSetup, .size w h, desk => some ((), { desk.resize w h with invalid := true })
  | .systemTask, _, desk | .endUpdate, _, desk | .getWRefCon, _, desk | .dragWindow, _, desk | .closeWindow, _, desk =>
    some ((), desk)
  | .getNextEvent, .event what, desk => some (what, desk.stage (.polled what desk.invalid))
  | .beginUpdate, _, desk => some ((), { desk with invalid := false })
  | .screenDraw, _, desk => (desk.draw machine rec thread).map ((), ·)
  | .findWindow, .part part, desk => some (part, desk)
  | .growWindow, .grown growResult, desk => some (growResult, desk)
  | .sizeWindow w h, _, desk => some ((), if w = 0 ∧ h = 0 then desk else desk.resize w h)
  | .trackGoAway, .tracked goAway, desk => some (goAway, desk.stage (.tracked goAway))
  | _, _, _ => none

def exec (thread : ThreadId) : (o : Console.Op ⊕ Toolbox) → Input → Desk →
    Option (Sum.elim Console.Op.Reply Toolbox.Reply o × Desk)
  | .inl o, _, desk => (Console.exec thread o () desk.history).map fun (reply, history) =>
      (reply, { desk with history })
  | .inr o, input, desk => o.exec machine rec thread input desk

end draw

abbrev toolbox (o : Toolbox) : Code signature o.Reply := additional (S := Console.signature) o

/-- The window is drawn anew. -/
def update : Code signature Unit := do
  toolbox .beginUpdate
  toolbox .screenDraw
  toolbox .endUpdate

/-- The loop around GetNextEvent. -/
def nextEvent : Code signature What :=
  iterate (fun _ => do
    match ← toolbox .getNextEvent with
    | some what => return .inr what
    | none =>
      toolbox .systemTask
      update
      return .inl ()) ()

/-- The switch on an event. -/
def handle : What → Code signature Unit
  | .updateEvt => update
  | .activateEvt => toolbox .getWRefCon
  | .mouseDown => do
    match ← toolbox .findWindow with
    | .inDrag => toolbox .dragWindow
    | .inGrow =>
      let growResult ← toolbox .growWindow
      toolbox (.sizeWindow (growResult.setWidth 16) ((growResult >>> 16).setWidth 16))
    | .inGoAway => if ← toolbox .trackGoAway then Code.exit else return ()
    | .other => return ()
  | .osEvt | .other => return ()

/-- `MacMain`, statement by statement. -/
def macMain : Code signature Value := do
  toolbox .consoleSetup
  update
  let exitLoop := false
  iterate (fun _ => do
    toolbox .systemTask
    let event ← nextEvent
    handle event
    pause
    return if ¬ exitLoop then .inl () else .inr ()) ()
  toolbox .closeWindow
  return .done

def body : Console.Entry ⊕ Start → Code signature Value
  | .inl (.consolewrite buf) => do
    let size ← (consolewriteCode buf).extend
    return .wrote size
  | .inr .macMain => macMain

def called (thread : ThreadId) : Console.Entry ⊕ Start → Desk → Option Desk
  | .inl (.consolewrite buf), desk => some { desk with history := desk.history.record (.called thread buf) }
  | .inr .macMain, desk => if desk.main.isSome then none else some { desk with main := some thread }

def returned (thread : ThreadId) : Value → Desk → Desk
  | .wrote size, desk => { desk with history := desk.history.record (.returned thread size) }
  | .done, desk => desk.stage .ended

def kernel (machine : Machine) (rec : Rect) : Kernel signature where
  State := Desk
  Input := Input
  Value := Value
  body := body
  exec := exec machine rec
  called := called
  spawned _ _ _ desk := desk
  disposed _ _ desk := desk
  exited _ desk := desk.stage .quit
  returned := returned
  threw _ desk := desk.stage .ended
  environment
    | .expose, desk => some { desk with invalid := true }
    | _, _ => none

end PowerBoot.Console.EventLoop
