import PowerBoot.Coop.Logic

/-! Code that keeps to an allowance, whatever its control flow: the operations it uses
with the replies that they have, the threads it creates and disposes of, and whether it
may throw or exit. -/

namespace Coop
variable {S : Signature} {K : Kernel S}

structure Allowance (S : Signature) where
  ops : S.Op → Prop
  replies : (o : S.Op) → S.Reply o → Prop := fun _ _ => True
  entries : S.Entry → Prop := fun _ => False
  disposes : ThreadId → Prop := fun _ => False
  throws : Prop := False
  exits : Prop := False

/-- The code does nothing but what it may. -/
def Code.Within (may : Allowance S) {α : Type} : Code S α → Prop
  | .pure _ => True
  | .throw => may.throws
  | .exit => may.exits
  | .op o next => may.ops o ∧ ∀ reply, may.replies o reply → Within may (next reply)
  | .yield next => Within may next
  | .spawn entry next => may.entries entry ∧ ∀ child, Within may (next child)
  | .dispose thread next => may.disposes thread ∧ Within may next
  | .loop body _ next => (∀ state, Within may (body state)) ∧ ∀ value, Within may (next value)

section within
variable {may : Allowance S} {α β γ : Type}

theorem Code.Within.bind {code : Code S α} {rest : α → Code S β} (first : code.Within may)
    (then_ : ∀ value, (rest value).Within may) : (code.bind rest).Within may := by
  induction code with
  | pure value => exact then_ value
  | throw | exit => exact first
  | op o next ih => exact ⟨first.1, fun reply expected => ih reply (first.2 reply expected) then_⟩
  | yield next ih => exact ih first then_
  | spawn entry next ih => exact ⟨first.1, fun child => ih child (first.2 child) then_⟩
  | dispose thread next ih => exact ⟨first.1, ih first.2 then_⟩
  | loop body state next _ ih => exact ⟨first.1, fun value => ih value (first.2 value) then_⟩

theorem Code.Within.op {o : S.Op} {rest : S.Reply o → Code S α} (used : may.ops o)
    (within : ∀ reply, may.replies o reply → (rest reply).Within may) : ((Code.call o).bind rest).Within may :=
  ⟨used, within⟩

theorem Code.Within.iterate {body : β → Code S (β ⊕ γ)} {turn : β} (within : ∀ turn, (body turn).Within may) :
    (Code.iterate body turn).Within may := ⟨within, fun _ => trivial⟩

theorem Code.Within.composes : Composes fun {_} (code : Code S _) => code.Within may where
  pure _ := trivial
  bind := .bind
  iterate := .iterate

theorem Code.Within.repeatWhile {condition : Code S Bool} {body : Code S Unit} (tests : condition.Within may)
    (within : body.Within may) : (Code.repeatWhile condition body).Within may :=
  Code.Within.composes.repeatWhile tests within

end within

namespace Rules
variable {rules : Rules K} {actor : ThreadId}

theorem Ends.refl (orderly : rules.Orderly) {now : K.State} (kept : rules.invariant now) : rules.Ends actor now now :=
  ⟨kept, fun other _ => orderly.refl other now⟩

theorem Ends.trans (orderly : rules.Orderly) {first middle last : K.State} (before : rules.Ends actor first middle)
    (after : rules.Ends actor middle last) : rules.Ends actor first last :=
  ⟨after.invariant, fun other different => orderly.trans (before.others other different) (after.others other different)⟩

/-- Where a thread is in its code: its section can end here, and `mine` holds. -/
structure Works (rules : Rules K) (actor : ThreadId) (mine : K.State → Prop) (start now : K.State) : Prop where
  ends : rules.Ends actor start now
  holds : mine now

namespace Works
variable {mine more : K.State → Prop} {start now after : K.State}

theorem begins (orderly : rules.Orderly) (kept : rules.invariant now) (holds : mine now) :
    rules.Works actor mine now now := ⟨.refl orderly kept, holds⟩

theorem step (works : rules.Works actor mine start now) (orderly : rules.Orderly) (ends : rules.Ends actor now after)
    (holds : more after) : rules.Works actor more start after := ⟨works.ends.trans orderly ends, holds⟩

theorem mono (works : rules.Works actor mine start now) (holds : more now) : rules.Works actor more start now :=
  ⟨works.ends, holds⟩

end Works

variable (rules actor)

/-- All that is allowed keeps the invariant, what is owed to the others and a fact `mine`
of the acting thread. -/
structure Bears (may : Allowance S) (mine : K.State → Prop) : Prop where
  op : ∀ o input now reply after, may.ops o → rules.choices.answers actor o input now →
    K.exec actor o input now = some (reply, after) → rules.invariant now → mine now →
    rules.step actor now after ∧ rules.Ends actor now after ∧ mine after ∧ may.replies o reply
  waits : ∀ before after, rules.invariant after → rules.rely actor before after → rules.alive actor after →
    mine before → mine after
  threw : may.throws → ∀ now, rules.invariant now → mine now →
    rules.Ends actor now (K.threw actor now) ∧ rules.idle actor (K.threw actor now)
  exited : may.exits → ∀ now, rules.invariant now → mine now → rules.Ends actor now (K.exited actor now)
  spawned : ∀ child entry now, may.entries entry → child ≠ actor → ¬ rules.knows now child →
    rules.invariant now → mine now → let after := K.spawned actor child entry now
    rules.step actor now after ∧ rules.Ends actor now after ∧ rules.requires entry child after ∧ mine after
  disposed : ∀ thread now, may.disposes thread → rules.invariant now → mine now →
    let after := K.disposed actor thread now
    rules.step actor now after ∧ rules.Ends actor now after ∧ (thread ≠ actor → mine after)

variable {rules actor} {may : Allowance S} {mine : K.State → Prop}

/-- Such code is safe, keeps `mine` and can end its section anywhere. -/
theorem Bears.holds (bears : rules.Bears actor may mine) (orderly : rules.Orderly) {α : Type} {code : Code S α}
    (within : code.Within may) {start now : K.State} (works : rules.Works actor mine start now) :
    rules.Holds actor code (fun _ => rules.Works actor mine) start now := by
  induction code generalizing start now with
  | pure value => exact works
  | throw =>
    obtain ⟨closes, idle⟩ := bears.threw within now works.ends.invariant works.holds
    exact ⟨works.ends.trans orderly closes, idle⟩
  | exit => exact works.ends.trans orderly (bears.exited within now works.ends.invariant works.holds)
  | op o next ih =>
    intro input reply after answered executed
    obtain ⟨stepped, more, kept, expected⟩ :=
      bears.op o input now reply after within.1 answered executed works.ends.invariant works.holds
    exact ⟨stepped, ih reply (within.2 reply expected) (works.step orderly more kept)⟩
  | yield next ih =>
    refine ⟨works.ends, fun later kept moved alive => ?_⟩
    exact ih within (.begins orderly kept (bears.waits now later kept moved alive works.holds))
  | spawn entry next ih =>
    intro child other fresh
    obtain ⟨stepped, more, ready, kept⟩ :=
      bears.spawned child entry now within.1 other fresh works.ends.invariant works.holds
    exact ⟨stepped, works.ends.trans orderly more, ready, ih child (within.2 child)
      (.begins orderly more.invariant kept)⟩
  | dispose thread next ih =>
    obtain ⟨stepped, more, kept⟩ := bears.disposed thread now within.1 works.ends.invariant works.holds
    refine ⟨stepped, ?_⟩
    split
    · exact works.ends.trans orderly more
    next other => exact ih within.2 (works.step orderly more (kept other))
  | loop body state next ihBody ihNext =>
    refine ⟨fun _ => rules.Works actor mine, works, fun state start now works => ?_⟩
    apply (ihBody state (within.1 state) works).mono
    intro result start now works
    cases result with
    | inl state => exact works
    | inr value => exact ihNext value (within.2 value) works

theorem Bears.plain (bears : rules.Bears actor may mine) (orderly : rules.Orderly) {α β : Type} {code : Code S α}
    (within : code.Within may) {start now : K.State} (works : rules.Works actor mine start now) {rest : α → Code S β}
    {post : β → K.State → K.State → Prop}
    (safe : ∀ value start now, rules.Works actor mine start now → rules.Holds actor (rest value) post start now) :
    rules.Holds actor (code.bind rest) post start now :=
  ((bears.holds orderly within works).mono safe).bind

end Rules
end Coop
