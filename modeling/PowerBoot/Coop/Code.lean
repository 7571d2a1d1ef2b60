import Mathlib.Logic.Basic

/-! Code of cooperative threads. A thread runs without interruption from one
yield to the next; everything it does to the shared memory is an operation of
the signature, so the same syntax serves several machines. -/

namespace Coop

abbrev ThreadId := Nat

/-- What a machine offers its threads: operations with their replies, and the
entry points a thread can be started on. -/
structure Signature where
  Op : Type
  Reply : Op → Type
  Entry : Type

/-- The remaining code of a thread. `dispose` may name the running thread, and
then the rest is never executed; `exit` ends every thread. -/
inductive Code (S : Signature) : Type → Type 1 where
  | pure {α : Type} (value : α) : Code S α
  | throw {α : Type} : Code S α
  | exit {α : Type} : Code S α
  | op {α : Type} (o : S.Op) (next : S.Reply o → Code S α) : Code S α
  | yield {α : Type} (next : Code S α) : Code S α
  | spawn {α : Type} (entry : S.Entry) (next : ThreadId → Code S α) : Code S α
  | dispose {α : Type} (thread : ThreadId) (next : Code S α) : Code S α
  | loop {α β γ : Type} (body : β → Code S (β ⊕ γ)) (state : β) (next : γ → Code S α) : Code S α

namespace Code
variable {S : Signature} {α β γ : Type}

def bind : Code S α → (α → Code S β) → Code S β
  | .pure value, rest => rest value
  | .throw, _ => .throw
  | .exit, _ => .exit
  | .op o next, rest => .op o fun reply => (next reply).bind rest
  | .yield next, rest => .yield (next.bind rest)
  | .spawn entry next, rest => .spawn entry fun child => (next child).bind rest
  | .dispose thread next, rest => .dispose thread (next.bind rest)
  | .loop body state next, rest => .loop body state fun value => (next value).bind rest

/-- What follows one execution of a loop body. -/
def turn (body : β → Code S (β ⊕ γ)) (next : γ → Code S α) : β ⊕ γ → Code S α
  | .inl state => .loop body state next
  | .inr value => next value

instance : Monad (Code S) where
  pure := Code.pure
  bind := Code.bind

def call (o : S.Op) : Code S (S.Reply o) := .op o .pure

/-- YieldToAnyThread. -/
def pause : Code S Unit := .yield (.pure ())

/-- DisposeThread. -/
def stop (thread : ThreadId) : Code S Unit := .dispose thread (.pure ())

/-- NewThread: the new thread is ready and runs at a later yield. -/
def start (entry : S.Entry) : Code S ThreadId := .spawn entry .pure

/-- Repeat `body` from `state` until it answers with `Sum.inr`. -/
def iterate (body : β → Code S (β ⊕ γ)) (state : β) : Code S γ := .loop body state .pure

/-- `while (condition) body`. -/
def repeatWhile (condition : Code S Bool) (body : Code S Unit) : Code S Unit :=
  iterate (fun _ => do
    if ← condition then
      body
      return .inl ()
    else return .inr ()) ()

/-- `if (condition) code`. -/
def when (condition : Prop) [Decidable condition] (code : Code S Unit) : Code S Unit :=
  if condition then code else .pure ()

@[simp] theorem pure_eq (value : α) : (Pure.pure value : Code S α) = .pure value := rfl

@[simp] theorem bind_eq (code : Code S α) (rest : α → Code S β) : code >>= rest = code.bind rest := rfl

@[simp] theorem pure_bind (value : α) (rest : α → Code S β) : (Code.pure value).bind rest = rest value := rfl

@[simp] theorem call_bind (o : S.Op) (rest : S.Reply o → Code S β) : (call o).bind rest = .op o rest := rfl

@[simp] theorem pause_bind (rest : Unit → Code S β) : (pause).bind rest = .yield (rest ()) := rfl

@[simp] theorem stop_bind (thread : ThreadId) (rest : Unit → Code S β) :
    (stop thread).bind rest = .dispose thread (rest ()) := rfl

@[simp] theorem start_bind (entry : S.Entry) (rest : ThreadId → Code S β) :
    (start entry).bind rest = .spawn entry rest := rfl

@[simp] theorem iterate_bind (body : β → Code S (β ⊕ γ)) (state : β) (rest : γ → Code S α) :
    (iterate body state).bind rest = .loop body state rest := rfl

theorem bind_assoc (code : Code S α) (first : α → Code S β) (rest : β → Code S γ) :
    (code.bind first).bind rest = code.bind fun value => (first value).bind rest := by
  induction code with
  | pure value | throw | exit => rfl
  | op o next ih => simp only [bind, ih]
  | yield next ih => simp only [bind, ih]
  | spawn entry next ih => simp only [bind, ih]
  | dispose thread next ih => simp only [bind, ih]
  | loop body state next _ ih => simp only [bind, ih]

theorem bind_pure (code : Code S α) : code.bind .pure = code := by
  induction code with
  | pure value | throw | exit => rfl
  | op o next ih => simp only [bind, ih]
  | yield next ih => simp only [bind, ih]
  | spawn entry next ih => simp only [bind, ih]
  | dispose thread next ih => simp only [bind, ih]
  | loop body state next _ ih => simp only [bind, ih]

theorem when_false {condition : Prop} [Decidable condition] {code : Code S Unit} {rest : Unit → Code S α}
    (never : ¬ condition) : (when condition code).bind rest = rest () := by
  rw [when, if_neg never, pure_bind]

theorem turn_bind {δ : Type} (body : β → Code S (β ⊕ γ)) (next : γ → Code S α) (rest : α → Code S δ) :
    (fun result => (turn body next result).bind rest) = turn body fun value => (next value).bind rest := by
  funext result
  cases result <;> rfl

/-- A property that code has where all of its parts have it. -/
structure Composes (safe : ∀ {α : Type}, Code S α → Prop) : Prop where
  pure : ∀ {α : Type} (value : α), safe (.pure value)
  bind : ∀ {α β : Type} {code : Code S α} {rest : α → Code S β}, safe code → (∀ value, safe (rest value)) →
    safe (code.bind rest)
  iterate : ∀ {β γ : Type} {body : β → Code S (β ⊕ γ)} {state : β}, (∀ state, safe (body state)) →
    safe (iterate body state)

namespace Composes
variable {safe : ∀ {α : Type}, Code S α → Prop} (composes : Composes safe)
include composes

theorem when {condition : Prop} [Decidable condition] {code : Code S Unit} (part : condition → safe code) :
    safe (when condition code) := by
  unfold Code.when
  split
  next holds => exact part holds
  · exact composes.pure ()

theorem repeatWhile {condition : Code S Bool} {body : Code S Unit} (tests : safe condition) (part : safe body) :
    safe (repeatWhile condition body) := by
  refine composes.iterate fun _ => composes.bind tests fun holds => ?_
  cases holds with
  | false => exact composes.pure _
  | true => exact composes.bind part fun _ => composes.pure _

end Composes
end Code
end Coop
