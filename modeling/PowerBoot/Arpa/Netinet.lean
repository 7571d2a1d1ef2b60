import PowerBoot.Text.Numeral
import Mathlib.Data.List.Basic

/-! `inet_addr` of the socket layer, statement by statement. An `unsigned long` has 32
bits, and a pointer into the string is what the memory holds from there on. -/

namespace PowerBoot.Arpa

abbrev Word := BitVec 32

/-- The memory from `cp` on, up to the end of what may be read. -/
abbrev Cursor := List UInt8

/-- A string of C: the bytes in front of its NUL. -/
structure CString where
  bytes : List UInt8
  ended : 0 ∉ bytes

def CString.memory (s : CString) : Cursor := s.bytes ++ [0]

/-- What a statement does: something that C does not define, a return from the function,
or what the statements after it go on with. -/
inductive Flow (α : Type) where
  | undefined
  | returns (value : Word)
  | continues (value : α)
deriving DecidableEq

instance : Monad Flow where
  pure := Flow.continues
  bind first rest := match first with
    | .undefined => .undefined
    | .returns value => .returns value
    | .continues value => rest value

def INADDR_NONE : Word := 0xFFFFFFFF

def dot : UInt8 := 46
def zero : UInt8 := 48

def isdigit (c : UInt8) : Bool := 48 ≤ c && c ≤ 57

def isxdigit (c : UInt8) : Bool := isdigit c || (65 ≤ c && c ≤ 70) || (97 ≤ c && c ≤ 102)

def tolower (c : UInt8) : UInt8 := if 65 ≤ c ∧ c ≤ 90 then c + 32 else c

/-- `*cp`. -/
def deref : Cursor → Flow UInt8
  | [] => .undefined
  | c :: _ => .continues c

/-- `cp++`. -/
def advance (cp : Cursor) : Cursor := cp.tail

/-- The base of the next part, and the cursor behind the prefix that tells it. -/
def base (cp : Cursor) : Flow (Nat × Cursor) := do
  if (← deref cp) = zero then
    let cp := advance cp
    if (← deref cp) = 120 ∨ (← deref cp) = 88 then return (16, advance cp)
    else return (8, cp)
  else return (10, cp)

/-- `n`, or nothing where the loop over the digits breaks. -/
def digit (base : Nat) (c : UInt8) : Option Int :=
  if isdigit c then some (c.toNat - 48)
  else if base = 16 ∧ isxdigit c then some ((tolower c).toNat - 97 + 10)
  else none

/-- The loop over the digits of a part. -/
def digits (base : Nat) (val : Word) : Cursor → Flow (Word × Cursor)
  | [] => .undefined
  | c :: cp =>
    if c = 0 then .continues (val, c :: cp)
    else match digit base c with
      | none => .continues (val, c :: cp)
      | some n =>
        if n ≥ base then .returns INADDR_NONE
        else digits base (val * BitVec.ofNat 32 base + BitVec.ofInt 32 n) cp

/-- The checks behind the digits of part `i`. -/
def follow (i : Nat) (val : Word) (cp : Cursor) : Flow (Word × Cursor) := do
  if (← deref cp) = dot then
    if i = 3 then .returns INADDR_NONE
    else return (val, advance cp)
  else if (← deref cp) ≠ 0 then .returns INADDR_NONE
  else return (val, cp)

def part (i : Nat) (cp : Cursor) : Flow (Word × Cursor) := do
  let (base, cp) ← base cp
  let (val, cp) ← digits base 0 cp
  follow i val cp

/-- `parts[i] = val`. Nothing initializes the array. -/
def store (parts : List (Option Word)) (i : Nat) (val : Word) : Flow (List (Option Word)) :=
  if i < parts.length then .continues (parts.set i (some val)) else .undefined

/-- `parts[i]`. -/
def load (parts : List (Option Word)) (i : Nat) : Flow Word :=
  match parts[i]? with
  | some (some val) => .continues val
  | _ => .undefined

/-- The loop over the parts, with the number of turns that are left. -/
def loop : Nat → Nat → Cursor → List (Option Word) → Flow (Nat × List (Option Word))
  | 0, i, _, parts => .continues (i, parts)
  | turns + 1, i, cp, parts => do
    let (val, cp) ← part i cp
    let parts ← store parts i val
    loop turns (i + 1) cp parts

/-- The statements behind the checks for NULL and for the empty string. -/
def parse (cp : Cursor) : Flow Word := do
  let (i, parts) ← loop 4 0 cp (List.replicate 4 none)
  if i ≠ 4 then .returns INADDR_NONE
  else .returns (((← load parts 0) <<< 24) ||| ((← load parts 1) <<< 16) ||| ((← load parts 2) <<< 8) |||
    (← load parts 3))

def start (cp : Option Cursor) : Flow Word :=
  match cp with
  | none => .returns INADDR_NONE
  | some cp => do if (← deref cp) = 0 then .returns INADDR_NONE else parse cp

/-- The result, where C defines one. -/
def inetAddr (cp : Option Cursor) : Option Word :=
  match start cp with
  | .undefined => none
  | .returns value | .continues value => some value

namespace Flow
variable {α β : Type}

@[simp] theorem bind_continues (value : α) (rest : α → Flow β) : (Flow.continues value >>= rest) = rest value := rfl

@[simp] theorem bind_returns (value : Word) (rest : α → Flow β) : (Flow.returns value >>= rest) = .returns value := rfl

@[simp] theorem bind_undefined (rest : α → Flow β) : (Flow.undefined >>= rest) = .undefined := rfl

@[simp] theorem pure_eq (value : α) : (pure value : Flow α) = .continues value := rfl

end Flow

@[simp] theorem deref_cons (c : UInt8) (cp : Cursor) : deref (c :: cp) = .continues c := rfl

@[simp] theorem advance_cons (c : UInt8) (cp : Cursor) : advance (c :: cp) = cp := rfl

end PowerBoot.Arpa
