import PowerBoot.Coop.Allowance

/-! A machine as a part of a larger one. Code that was verified for the part is safe in the
larger machine too, where the rest of that machine lets it be. -/

namespace Coop

/-- A signature with more operations and more entry points. -/
@[reducible] def Signature.extend (S : Signature) (Op : Type) (Reply : Op → Type) (Entry : Type) : Signature where
  Op := S.Op ⊕ Op
  Reply := Sum.elim S.Reply Reply
  Entry := S.Entry ⊕ Entry

variable {S : Signature} {Op Entry : Type} {Reply : Op → Type}

namespace Code

/-- The same code, with the operations of the larger signature. -/
def extend {α : Type} : Code S α → Code (S.extend Op Reply Entry) α
  | .pure value => .pure value
  | .throw => .throw
  | .exit => .exit
  | .op o next => @Code.op (S.extend Op Reply Entry) _ (.inl o) fun reply => (next reply).extend
  | .yield next => .yield next.extend
  | .spawn entry next => .spawn (.inl entry) fun child => (next child).extend
  | .dispose thread next => .dispose thread next.extend
  | .loop body state next => .loop (fun state => (body state).extend) state fun value => (next value).extend

/-- An operation that the larger signature adds. -/
def additional (o : Op) : Code (S.extend Op Reply Entry) (Reply o) :=
  @Code.op (S.extend Op Reply Entry) _ (.inr o) .pure

end Code

/-- Where the section began and where it is, as far as the part does not see it, is as `beside` says. -/
structure Carries {K : Kernel S} {L : Kernel (S.extend Op Reply Entry)} (part : Rules K) (rules : Rules L)
    (view : L.State → K.State) (actor : ThreadId) (beside : L.State → L.State → Prop) : Prop where
  exec : ∀ {start now after : L.State} {o : S.Op} {input : L.Input} {reply : S.Reply o}, beside start now →
    rules.choices.answers actor (.inl o) input now →
    @Kernel.exec _ L actor (.inl o) input now = some (reply, after) →
    beside start after ∧ ∃ input, part.choices.answers actor o input (view now) ∧
      K.exec actor o input (view now) = some (reply, view after) ∧
      (part.step actor (view now) (view after) → rules.step actor now after)
  ends : ∀ {start now}, beside start now → part.Ends actor (view start) (view now) → rules.Ends actor start now
  waits : ∀ {start now later}, beside start now → rules.invariant later → rules.rely actor now later →
    rules.alive actor later → beside later later ∧ part.invariant (view later) ∧
      part.rely actor (view now) (view later) ∧ part.alive actor (view later)

/-- Safe code of the part that creates and disposes of no thread is safe in the larger machine. -/
theorem Carries.holds {K : Kernel S} {L : Kernel (S.extend Op Reply Entry)} {part : Rules K} {rules : Rules L}
    {view : L.State → K.State} {actor : ThreadId} {beside : L.State → L.State → Prop}
    (carries : Carries part rules view actor beside) {α : Type} {code : Code S α} {post : α → K.State → K.State → Prop}
    {start now : L.State} {ops : S.Op → Prop} (within : code.Within { ops })
    (safe : part.Holds actor code post (view start) (view now)) (fits : beside start now) :
    rules.Holds actor code.extend (fun value start now => post value (view start) (view now) ∧ beside start now)
      start now := by
  induction code generalizing start now with
  | pure value => exact ⟨safe, fits⟩
  | throw | exit => exact within.elim
  | op o next ih =>
    intro input reply after answered executed
    obtain ⟨fits, input, answered, executed, stepped⟩ := carries.exec fits answered executed
    obtain ⟨step, safe⟩ := safe input reply (view after) answered executed
    exact ⟨stepped step, ih reply (within.2 reply trivial) safe fits⟩
  | yield next ih =>
    refine ⟨carries.ends fits safe.1, fun later kept moved alive => ?_⟩
    obtain ⟨fits, kept, moved, alive⟩ := carries.waits fits kept moved alive
    exact ih within (safe.2 (view later) kept moved alive) fits
  | spawn => exact within.1.elim
  | dispose => exact within.1.elim
  | loop body state next ihBody ihNext =>
    obtain ⟨kept, holds, step⟩ := safe
    refine ⟨fun state start now => kept state (view start) (view now) ∧ beside start now, ⟨holds, fits⟩, ?_⟩
    rintro state start now ⟨inside, fits⟩
    refine (ihBody state (within.1 state) (step state (view start) (view now) inside) fits).mono ?_
    rintro result start now ⟨done, fits⟩
    cases result with
    | inl state => exact ⟨done, fits⟩
    | inr value => exact ihNext value (within.2 value) done fits

end Coop
