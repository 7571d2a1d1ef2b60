import PowerBoot.Text.Numeral

/-! The console: `_consolewrite` keeps the last lines, and `ScreenDraw` draws them character
by character, with the colors that escape sequences in them ask for. -/

namespace PowerBoot.Console

abbrev Bytes := List UInt8

inductive Color where
  | black | red | green | yellow | blue | magenta | cyan | white
deriving DecidableEq

/-- The members of a `Rect` that `ScreenDraw` reads. -/
structure Rect where
  top : BitVec 16
  left : BitVec 16
deriving DecidableEq

/-- What `ScreenDraw` does on the way, in order. Erasing at the beginning of an empty string
is not defined. -/
inductive Mark where
  | erase (colorCodes : Bytes)
  | print (text : Bytes)
  | color (code : Int)
  | glyph (c : UInt8) (x y : BitVec 16) (foreColor backColor : Color)
deriving DecidableEq

/-- What the code runs on: the widths of characters, the room that the vector has before it
moves its strings, and two readings that can be asked for. With `lenient`, erasing at the
beginning of an empty string does nothing; with `silent`, `printf` does not write a line. -/
structure Machine where
  charWidth : BitVec 16 → BitVec 16
  capacity : Nat
  lenient : Bool
  silent : Bool

/-- The line buffer, the local variables of `ScreenDraw` and the colors of the port. -/
structure Screen where
  lineBuffer : List Bytes
  x : BitVec 16 := 0
  y : BitVec 16
  makingColor : Bool := false
  colorCodes : Bytes := []
  foreColor : Color := .white
  backColor : Color := .black
  marks : List Mark := []
deriving DecidableEq

def Screen.mark (mark : Mark) (screen : Screen) : Screen := { screen with marks := screen.marks ++ [mark] }

/-- The lines after `_consolewrite` of a string. -/
def consolewrite (lineBuffer : List Bytes) (str : Bytes) : List Bytes :=
  let lineBuffer := lineBuffer ++ [str]
  if lineBuffer.length ≥ 40 then lineBuffer.drop 1 else lineBuffer

/-- `isdigit`. -/
def isDigit (c : UInt8) : Bool := 48 ≤ c ∧ c ≤ 57

/-- `atoi` of digits, which stops at the largest int. -/
def atoi (digits : Bytes) : Int := min (Text.valueFrom 10 0 digits) (2 ^ 31 - 1)

def handleColorCode (code : Int) (screen : Screen) : Screen :=
  match code with
  | 30 => { screen with foreColor := .black }
  | 31 => { screen with foreColor := .red }
  | 32 => { screen with foreColor := .green }
  | 33 => { screen with foreColor := .yellow }
  | 34 => { screen with foreColor := .blue }
  | 35 => { screen with foreColor := .magenta }
  | 36 => { screen with foreColor := .cyan }
  | 37 => { screen with foreColor := .white }
  | 40 => { screen with backColor := .black }
  | 41 => { screen with backColor := .red }
  | 42 => { screen with backColor := .green }
  | 43 => { screen with backColor := .yellow }
  | 44 => { screen with backColor := .blue }
  | 45 => { screen with backColor := .magenta }
  | 46 => { screen with backColor := .cyan }
  | 47 => { screen with backColor := .white }
  | _ => screen

variable (machine : Machine) (rec : Rect)

/-- `str.erase(str.begin())`. -/
def eraseBegin : Bytes → Option Bytes
  | _ :: rest => some rest
  | [] => if machine.lenient then some [] else none

/-- `printf` of a text inside the loop over the lines. The iterator of the loop stays valid
only where the vector neither moves nor drops its first string. -/
def printf (text : Bytes) (lineBuffer : List Bytes) : Option (List Bytes) :=
  if machine.silent then some lineBuffer
  else if lineBuffer.length < machine.capacity ∧ lineBuffer.length + 1 < 40 then some (consolewrite lineBuffer text)
  else none

/-- The default branch of the switch. -/
def drawDefault (c : UInt8) (screen : Screen) : Screen :=
  if screen.makingColor then
    if isDigit c then { screen with colorCodes := screen.colorCodes ++ [c] } else screen
  else screen.mark (.glyph c screen.x screen.y screen.foreColor screen.backColor)

/-- The switch on a character. -/
def drawSwitch (c : UInt8) (screen : Screen) : Option Screen :=
  if c = 27 then do
    let colorCodes ← eraseBegin machine screen.colorCodes
    return { screen.mark (.erase screen.colorCodes) with makingColor := true, colorCodes }
  else if c = 10 then some { screen with x := rec.left + 9, y := screen.y + 12 }
  else if c = 9 then
    let x := screen.x + 16
    some { screen with x := (x + 8) &&& (x - 7) }
  else if c = 13 then some { screen with x := rec.left + 9 }
  else if c = 109 ∧ screen.makingColor then do
    let lineBuffer ← printf machine (screen.colorCodes ++ [10]) screen.lineBuffer
    let marked := (screen.mark (.print (screen.colorCodes ++ [10]))).mark (.color (atoi screen.colorCodes))
    return handleColorCode (atoi screen.colorCodes) { marked with makingColor := false, lineBuffer }
  else some (drawDefault c screen)

/-- One turn of the loop over a line. The pen advances by the width of the index. -/
def drawChar (ch : Nat) (c : UInt8) (screen : Screen) : Option Screen := do
  let screen ← drawSwitch machine rec c screen
  return { screen with x := screen.x + (machine.charWidth (BitVec.ofNat 16 ch) + 9) }

def drawChars : Nat → Bytes → Screen → Option Screen
  | _, [], screen => some screen
  | ch, c :: text, screen => (drawChar machine rec ch c screen).bind (drawChars (ch + 1) text)

def drawLine (text : Bytes) (screen : Screen) : Option Screen :=
  drawChars machine rec 0 text { screen with x := rec.left + 9 }

/-- The lines from an index on, those that are written meanwhile included. -/
def drawLines : Nat → Nat → Screen → Option Screen
  | 0, _, _ => none
  | fuel + 1, line, screen =>
    match screen.lineBuffer[line]? with
    | some text => (drawLine machine rec text screen).bind (drawLines fuel (line + 1))
    | none => some screen

/-- `ScreenDraw`. There are never more lines than at first, or 39. -/
def screenDraw (lineBuffer : List Bytes) : Option Screen :=
  drawLines machine rec (lineBuffer.length + 40) 0 { lineBuffer, y := rec.top + 9 }

end PowerBoot.Console
