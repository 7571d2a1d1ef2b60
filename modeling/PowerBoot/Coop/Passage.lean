import PowerBoot.Coop.Alone

/-! Code of a lone thread that may be in the middle of its work. An assertion about all the
states it comes through, with one about those in which it gives a value. -/

namespace Coop
variable {S : Signature} {K : Kernel S}

/-- From this state on the thread, alone, keeps to `during` at each step of the code, and
leaves `post` where it gives a value. It comes to a throw, an exit or the end of a thread
only in `stops`, and what it does after that is left out. -/
def Passage (thread : ThreadId) (during stops : K.State → Prop) {α : Type} :
    Code S α → (α → K.State → Prop) → K.State → Prop
  | .pure value, post => fun state => during state ∧ post value state
  | .throw, _ | .exit, _ | .spawn .., _ | .dispose .., _ => fun state => during state ∧ stops state
  | .op o next, post => fun state => during state ∧ ∀ input reply after,
    K.exec thread o input state = some (reply, after) → Passage thread during stops (next reply) post after
  | .yield next, post => Passage thread during stops next post
  | @Code.loop _ _ β _ body turn next, post => fun state =>
    ∃ each : β → K.State → Prop, each turn state ∧ ∀ turn state, each turn state →
      Passage thread during stops (body turn) (fun
        | .inl turn => each turn
        | .inr value => Passage thread during stops (next value) post) state

namespace Passage
variable {thread : ThreadId} {during stops : K.State → Prop} {α β γ : Type}

theorem here {code : Code S α} {post : α → K.State → Prop} {state : K.State}
    (passes : Passage thread during stops code post state) : during state := by
  induction code with
  | pure | op => exact passes.1
  | throw | exit | spawn | dispose => exact passes.1
  | yield next ih => exact ih passes
  | loop body turn next ihBody =>
    obtain ⟨each, holds, turns⟩ := passes
    exact ihBody turn (turns turn state holds)

theorem mono {code : Code S α} {post weaker : α → K.State → Prop} {state : K.State}
    (passes : Passage thread during stops code post state)
    (implies : ∀ value state, during state → post value state → weaker value state) :
    Passage thread during stops code weaker state := by
  induction code generalizing state with
  | pure value => exact ⟨passes.1, implies value state passes.1 passes.2⟩
  | throw | exit | spawn | dispose => exact passes
  | op o next ih =>
    exact ⟨passes.1, fun input reply after executed => ih reply (passes.2 input reply after executed) implies⟩
  | yield next ih => exact ih passes implies
  | loop body turn next ihBody ihNext =>
    obtain ⟨each, holds, turns⟩ := passes
    refine ⟨each, holds, fun turn state kept => ihBody turn (turns turn state kept) ?_⟩
    rintro (turn | value) state _ done
    · exact done
    · exact ihNext value done implies

theorem bind {code : Code S α} {rest : α → Code S β} {post : β → K.State → Prop} {state : K.State}
    (passes : Passage thread during stops code (fun value => Passage thread during stops (rest value) post) state) :
    Passage thread during stops (code.bind rest) post state := by
  induction code generalizing state with
  | pure value => exact passes.2
  | throw | exit | spawn | dispose => exact passes
  | op o next ih => exact ⟨passes.1, fun input reply after executed => ih reply (passes.2 input reply after executed)⟩
  | yield next ih => exact ih passes
  | loop body turn next _ ihNext =>
    obtain ⟨each, holds, turns⟩ := passes
    refine ⟨each, holds, fun turn state kept => (turns turn state kept).mono ?_⟩
    rintro (turn | value) state _ done
    · exact done
    · exact ihNext value done

theorem turn {body : β → Code S (β ⊕ γ)} {turn : β} {next : γ → Code S α} {post : α → K.State → Prop}
    {state : K.State} (passes : Passage thread during stops (.loop body turn next) post state) :
    Passage thread during stops ((body turn).bind (.turn body next)) post state := by
  obtain ⟨each, holds, turns⟩ := passes
  apply Passage.bind
  apply (turns turn state holds).mono
  rintro (turn | value) state _ done
  · exact ⟨each, done, turns⟩
  · exact done

/-- A loop keeps an assertion from turn to turn. -/
theorem iterate {body : β → Code S (β ⊕ γ)} {turn : β} {post : γ → K.State → Prop} {state : K.State}
    (each : β → K.State → Prop) (holds : each turn state)
    (turns : ∀ turn state, each turn state → Passage thread during stops (body turn) (Sum.elim each post) state) :
    Passage thread during stops (.iterate body turn) post state := by
  refine ⟨each, holds, fun turn state kept => (turns turn state kept).mono ?_⟩
  rintro (turn | value) state now done
  · exact done
  · exact ⟨now, done⟩

/-- The assertion goes on with whatever the thread is left with. -/
theorem along {code rest : Code S α} {post : α → K.State → Prop} {state last : K.State}
    (passes : Passage thread during stops code post state) (runs : Runs thread code state rest last) :
    Passage thread during stops rest post last := by
  induction runs with
  | here => exact passes
  | op executed _ ih => exact ih (passes.2 _ _ _ executed)
  | «yield» _ ih => exact ih passes
  | loop _ ih => exact ih passes.turn

theorem stopped {rest : Code S α} {post : α → K.State → Prop} {state : K.State}
    (passes : Passage thread during stops rest post state)
    (stop : rest = .throw ∨ rest = .exit ∨ ∃ other next, rest = .dispose other next) : stops state := by
  obtain rfl | rfl | ⟨_, _, rfl⟩ := stop <;> exact passes.2

end Passage

/-- Code that keeps an assertion from its start to its end. -/
def Maintains (thread : ThreadId) (during stops mine : K.State → Prop) {α : Type} (code : Code S α) : Prop :=
  ∀ ⦃state⦄, mine state → Passage thread during stops code (fun _ => mine) state

namespace Maintains
variable {thread : ThreadId} {during stops mine : K.State → Prop} (keeps : ∀ state, mine state → during state)
include keeps

theorem composes : Code.Composes fun {_} (code : Code S _) => Maintains thread during stops mine code where
  pure value state holds := ⟨keeps state holds, holds⟩
  bind first second state holds := ((first holds).mono fun value _ _ holds => second value holds).bind
  iterate {β γ body turn} turns state holds := by
    refine Passage.iterate (fun _ => mine) holds fun turn state holds => (turns turn holds).mono ?_
    rintro (turn | value) state _ holds <;> exact holds

theorem call {o : S.Op} (does : ∀ {input reply state after}, K.exec thread o input state = some (reply, after) →
    mine state → mine after) : Maintains thread during stops mine (.call o) :=
  fun state holds =>
    ⟨keeps state holds, fun _ _ after executed => ⟨keeps after (does executed holds), does executed holds⟩⟩

theorem pause :
    Maintains thread during stops mine (.pause : Code S Unit) := fun state holds => ⟨keeps state holds, holds⟩

end Maintains
end Coop
