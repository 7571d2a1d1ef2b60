import PowerBoot.Coop.Alone
import Mathlib.Logic.Relation

/-! What comes of code that no other thread interrupts: only events happen at its yields.
Unlike a thread that runs alone, this one may dispose of others. -/

namespace Coop
variable {S : Signature} {K : Kernel S}

/-- Why code gives no value. -/
inductive Failure where
  | threw
  | stopped
  | exited
deriving DecidableEq

inductive Outcome (α : Type) where
  | value (value : α)
  | fails (why : Failure)

def Elapses : K.State → K.State → Prop :=
  Relation.ReflTransGen fun state after => ∃ input, K.environment input state = some after

/-- `thread` executes the code from the first state, with this outcome in the second one. -/
inductive Completes (thread : ThreadId) : {α : Type} → Code S α → K.State → Outcome α → K.State → Prop where
  | pure {α : Type} (value : α) (state : K.State) : Completes thread (.pure value) state (.value value) state
  | throw {α : Type} (state : K.State) : Completes thread (.throw : Code S α) state (.fails .threw) state
  | exit {α : Type} (state : K.State) : Completes thread (.exit : Code S α) state (.fails .exited) state
  | op {α : Type} {o : S.Op} {next : S.Reply o → Code S α} {outcome : Outcome α} {state after last : K.State}
      {input : K.Input} {reply : S.Reply o} (executed : K.exec thread o input state = some (reply, after))
      (later : Completes thread (next reply) after outcome last) : Completes thread (.op o next) state outcome last
  | yield {α : Type} {next : Code S α} {outcome : Outcome α} {state between last : K.State}
      (elapsed : Elapses state between) (later : Completes thread next between outcome last) :
      Completes thread (.yield next) state outcome last
  | disposes {α : Type} {other : ThreadId} {next : Code S α} {outcome : Outcome α} {state last : K.State}
      (different : other ≠ thread) (later : Completes thread next (K.disposed thread other state) outcome last) :
      Completes thread (.dispose other next) state outcome last
  | stops {α : Type} {next : Code S α} (state : K.State) :
      Completes thread (.dispose thread next) state (.fails .stopped) (K.disposed thread thread state)
  | again {α β γ : Type} {body : β → Code S (β ⊕ γ)} {turn following : β} {next : γ → Code S α} {outcome : Outcome α}
      {state middle last : K.State} (turned : Completes thread (body turn) state (.value (.inl following)) middle)
      (later : Completes thread (.loop body following next) middle outcome last) :
      Completes thread (.loop body turn next) state outcome last
  | leaves {α β γ : Type} {body : β → Code S (β ⊕ γ)} {turn : β} {value : γ} {next : γ → Code S α} {outcome : Outcome α}
      {state middle last : K.State} (turned : Completes thread (body turn) state (.value (.inr value)) middle)
      (later : Completes thread (next value) middle outcome last) :
        Completes thread (.loop body turn next) state outcome last
  | breaks {α β γ : Type} {body : β → Code S (β ⊕ γ)} {turn : β} {next : γ → Code S α} {why : Failure}
      {state last : K.State} (turned : Completes thread (body turn) state (.fails why) last) :
      Completes thread (.loop body turn next) state (.fails why) last

namespace Completes
variable {thread : ThreadId} {α β γ : Type} {state last : K.State}

theorem pure_iff {value : α} {outcome : Outcome α} :
    Completes thread (Code.pure value : Code S α) state outcome last ↔ outcome = .value value ∧ last = state := by
  constructor
  · rintro ⟨⟩
    exact ⟨rfl, rfl⟩
  · rintro ⟨rfl, rfl⟩
    exact .pure _ _

theorem op_iff {o : S.Op} {next : S.Reply o → Code S α} {outcome : Outcome α} :
    Completes thread (.op o next) state outcome last ↔
      ∃ input reply after, K.exec thread o input state = some (reply, after) ∧
        Completes thread (next reply) after outcome last := by
  constructor
  · rintro ⟨⟩
    next executed later => exact ⟨_, _, _, executed, later⟩
  · rintro ⟨_, _, _, executed, later⟩
    exact .op executed later

theorem yield_iff {next : Code S α} {outcome : Outcome α} :
    Completes thread (.yield next) state outcome last ↔
      ∃ between, Elapses state between ∧ Completes thread next between outcome last := by
  constructor
  · rintro ⟨⟩
    next elapsed later => exact ⟨_, elapsed, later⟩
  · rintro ⟨_, elapsed, later⟩
    exact .yield elapsed later

theorem dispose_iff {other : ThreadId} {next : Code S α} {outcome : Outcome α} :
    Completes thread (.dispose other next) state outcome last ↔
      if other = thread then outcome = .fails .stopped ∧ last = K.disposed thread thread state
      else Completes thread next (K.disposed thread other state) outcome last := by
  constructor
  · rintro ⟨⟩
    next different later => rwa [if_neg different]
    next => rw [if_pos rfl]; exact ⟨rfl, rfl⟩
  · split
    next same =>
      subst same
      rintro ⟨rfl, rfl⟩
      exact .stops _
    next different => exact .disposes different

theorem loop_iff {body : β → Code S (β ⊕ γ)} {turn : β} {next : γ → Code S α} {outcome : Outcome α} :
    Completes thread (.loop body turn next) state outcome last ↔
      (∃ result middle, Completes thread (body turn) state (.value result) middle ∧
        Completes thread (Code.turn body next result) middle outcome last) ∨
      ∃ why, outcome = .fails why ∧ Completes thread (body turn) state (.fails why) last := by
  constructor
  · rintro ⟨⟩
    next turned later => exact Or.inl ⟨_, _, turned, later⟩
    next turned later => exact Or.inl ⟨_, _, turned, later⟩
    next turned => exact Or.inr ⟨_, rfl, turned⟩
  · rintro (⟨result, middle, turned, later⟩ | ⟨why, rfl, turned⟩)
    · cases result with
      | inl following => exact .again turned later
      | inr value => exact .leaves turned later
    · exact .breaks turned

theorem loop_induction {body : β → Code S (β ⊕ γ)} {next : γ → Code S α}
    {motive : β → K.State → Outcome α → K.State → Prop}
    (again : ∀ {turn following state middle outcome last}, Completes thread (body turn) state
      (.value (.inl following)) middle →
      motive following middle outcome last → motive turn state outcome last)
    (leaves : ∀ {turn value state middle outcome last}, Completes thread (body turn) state
      (.value (.inr value)) middle →
      Completes thread (next value) middle outcome last → motive turn state outcome last)
    (breaks : ∀ {turn state why last}, Completes thread (body turn) state (.fails why) last →
      motive turn state (.fails why) last)
    {turn : β} {outcome : Outcome α} (completes : Completes thread (.loop body turn next) state outcome last) :
    motive turn state outcome last := by
  generalize whole : Code.loop body turn next = code at completes
  induction completes generalizing turn with
  | again turned _ _ ih =>
    cases whole
    exact again turned (ih (motive := motive) again leaves breaks rfl)
  | leaves turned later =>
    cases whole
    exact leaves turned later
  | breaks turned =>
    cases whole
    exact breaks turned
  | _ => cases whole

theorem andThen {code : Code S α} {rest : α → Code S β} {value : α} {middle : K.State} {outcome : Outcome β}
    (first : Completes thread code state (.value value) middle)
    (second : Completes thread (rest value) middle outcome last) :
    Completes thread (code.bind rest) state outcome last := by
  generalize given : Outcome.value value = result at first
  induction first with
  | pure =>
    cases given
    exact second
  | throw | exit | stops | breaks => cases given
  | op executed _ ih => exact .op executed (ih second given)
  | «yield» elapsed _ ih => exact .yield elapsed (ih second given)
  | disposes different _ ih => exact .disposes different (ih second given)
  | again turned _ _ ih => exact .again turned (ih second given)
  | leaves turned _ _ ih => exact .leaves turned (ih second given)

theorem andFails {code : Code S α} {rest : α → Code S β} {why : Failure}
    (first : Completes thread code state (.fails why) last) :
    Completes thread (code.bind rest) state (.fails why) last := by
  generalize given : Outcome.fails why = result at first
  induction first with
  | pure => cases given
  | throw state => cases given; exact .throw state
  | exit state => cases given; exact .exit state
  | stops state => cases given; exact .stops state
  | op executed _ ih => exact .op executed (ih given)
  | «yield» elapsed _ ih => exact .yield elapsed (ih given)
  | disposes different _ ih => exact .disposes different (ih given)
  | again turned _ _ ih => exact .again turned (ih given)
  | leaves turned _ _ ih => exact .leaves turned (ih given)
  | breaks turned => cases given; exact .breaks turned

/-- Two parts have been executed where the first one has, and then the second one; or
where the first one has failed. -/
theorem bind_iff {code : Code S α} {rest : α → Code S β} {outcome : Outcome β} :
    Completes thread (code.bind rest) state outcome last ↔
      (∃ value middle, Completes thread code state (.value value) middle ∧
        Completes thread (rest value) middle outcome last) ∨
      ∃ why, outcome = .fails why ∧ Completes thread code state (.fails why) last := by
  constructor
  · intro completes
    induction code generalizing state outcome last with
    | pure value => exact Or.inl ⟨value, state, .pure _ _, completes⟩
    | throw =>
      cases (show Completes thread (.throw : Code S β) state outcome last from completes)
      exact Or.inr ⟨_, rfl, .throw _⟩
    | exit =>
      cases (show Completes thread (.exit : Code S β) state outcome last from completes)
      exact Or.inr ⟨_, rfl, .exit _⟩
    | op o next ih =>
      obtain ⟨_, reply, _, executed, later⟩ := op_iff.mp completes
      rcases ih reply later with ⟨value, middle, first, second⟩ | ⟨why, rfl, first⟩
      · exact Or.inl ⟨value, middle, .op executed first, second⟩
      · exact Or.inr ⟨why, rfl, .op executed first⟩
    | «yield» next ih =>
      obtain ⟨_, elapsed, later⟩ := yield_iff.mp completes
      rcases ih later with ⟨value, middle, first, second⟩ | ⟨why, rfl, first⟩
      · exact Or.inl ⟨value, middle, .yield elapsed first, second⟩
      · exact Or.inr ⟨why, rfl, .yield elapsed first⟩
    | spawn entry next ih =>
      cases (show Completes thread (.spawn entry fun child => (next child).bind rest) state outcome last from completes)
    | dispose other next ih =>
      have disposes := dispose_iff.mp completes
      split at disposes
      next same =>
        obtain ⟨rfl, rfl⟩ := disposes
        exact Or.inr ⟨_, rfl, same ▸ .stops _⟩
      next different =>
        rcases ih disposes with ⟨value, middle, first, second⟩ | ⟨why, rfl, first⟩
        · exact Or.inl ⟨value, middle, .disposes different first, second⟩
        · exact Or.inr ⟨why, rfl, .disposes different first⟩
    | loop body turn next _ ih =>
      refine loop_induction (motive := fun turn state outcome last =>
        (∃ value middle, Completes thread (.loop body turn next) state (.value value) middle ∧
          Completes thread (rest value) middle outcome last) ∨
        ∃ why, outcome = .fails why ∧ Completes thread (.loop body turn next) state (.fails why) last)
        ?_ ?_ ?_ completes
      · rintro _ _ _ _ _ _ turned (⟨value, middle, first, second⟩ | ⟨why, rfl, first⟩)
        · exact Or.inl ⟨value, middle, .again turned first, second⟩
        · exact Or.inr ⟨why, rfl, .again turned first⟩
      · intro _ value _ _ _ _ turned later
        rcases ih value later with ⟨value, middle, first, second⟩ | ⟨why, rfl, first⟩
        · exact Or.inl ⟨value, middle, .leaves turned first, second⟩
        · exact Or.inr ⟨why, rfl, .leaves turned first⟩
      · exact fun turned => Or.inr ⟨_, rfl, .breaks turned⟩
  · rintro (⟨value, middle, first, second⟩ | ⟨why, rfl, first⟩)
    · exact first.andThen second
    · exact first.andFails

theorem turned {body : β → Code S (β ⊕ γ)} {next : γ → Code S α} {turn : β} {outcome : Outcome α}
    (completes : Completes thread ((body turn).bind (.turn body next)) state outcome last) :
    Completes thread (.loop body turn next) state outcome last := by
  apply loop_iff.mpr
  rcases bind_iff.mp completes with ⟨result, middle, first, later⟩ | failed
  · exact Or.inl ⟨result, middle, first, later⟩
  · exact Or.inr failed

theorem of_runs {code rest : Code S α} {middle : K.State} {outcome : Outcome α}
    (runs : Runs thread code state rest middle)
    (completes : Completes thread rest middle outcome last) : Completes thread code state outcome last := by
  induction runs with
  | here => exact completes
  | op executed _ ih => exact .op executed (ih completes)
  | «yield» _ ih => exact .yield .refl (ih completes)
  | loop _ ih => exact turned (ih completes)

theorem of_alone {code : Code S α} {value : α} (alone : Alone thread code state value last) :
    Completes thread code state (.value value) last := of_runs alone (.pure _ _)

/-- What each step keeps to, the whole execution keeps to. -/
theorem advances {step : K.State → K.State → Prop} (refl : ∀ state, step state state)
    (trans : ∀ {first second third}, step first second → step second third → step first third)
    (op : ∀ {o input state reply after}, K.exec thread o input state = some (reply, after) → step state after)
    (event : ∀ {input state after}, K.environment input state = some after → step state after)
    (disposed : ∀ other state, step state (K.disposed thread other state)) {code : Code S α} {outcome : Outcome α}
    (completes : Completes thread code state outcome last) : step state last := by
  have waits {state between : K.State} (elapsed : Elapses state between) : step state between := by
    induction elapsed with
    | refl => exact refl _
    | tail _ happened ih =>
      obtain ⟨input, happened⟩ := happened
      exact trans ih (event happened)
  induction completes with
  | pure | throw | exit => exact refl _
  | op executed _ ih => exact trans (op executed) ih
  | «yield» elapsed _ ih => exact trans (waits elapsed) ih
  | disposes _ _ ih => exact trans (disposed _ _) ih
  | stops => exact disposed _ _
  | again _ _ first second | leaves _ _ first second => exact trans first second
  | breaks _ ih => exact ih

/-- The world after the thread has executed a part of its code. -/
def Follows (thread : ThreadId) (rest : α → Code S K.Value) (last : K.State) (next : World K) : Outcome α → Prop
  | .value value => next.state = last ∧ next.threads[thread]? = some (.running (rest value)) ∧
      (next.current = none ∨ next.current = some thread)
  | .fails .stopped => next.state = last ∧ next.threads[thread]? = some .stopped
  | .fails .threw => next.state = K.threw thread last ∧ next.threads[thread]? = some .idle
  | .fails .exited => next.state = K.exited thread last ∧ next.threads[thread]? = some .stopped

theorem elapses_reaches {state between : K.State} (elapsed : Elapses state between) {world : World K}
    (here : world.state = state) (outside : world.current = none) :
    (Choices.all K).Reaches world { world with state := between } := by
  subst here
  induction elapsed with
  | refl => exact .start
  | tail _ happened ih =>
    obtain ⟨input, happened⟩ := happened
    refine .step ih (Choices.all_allows (.environment input) _) ?_
    simp [World.step, outside, happened]

variable [Inhabited K.Input]

theorem loop_reaches {body : β → Code S (β ⊕ γ)} {turn : β} {next : γ → Code S α} {rest : α → Code S K.Value}
    {world : World K} (found : world.threads[thread]? = some (.running ((Code.loop body turn next).bind rest)))
    (free : world.current = none ∨ world.current = some thread) :
    ∃ begun, (Choices.all K).Reaches world begun ∧ begun.state = world.state ∧
      begun.threads[thread]? = some (.running ((body turn).bind (.turn body fun value => (next value).bind rest))) ∧
      (begun.current = none ∨ begun.current = some thread) := by
  have inside := (List.getElem?_eq_some_iff.mp found).1
  exact ⟨_, Runs.advanced default _ found free rfl, rfl, List.getElem?_set_self inside, Or.inr rfl⟩

/-- What is executed so is a part of a run of the world. -/
theorem reaches {code : Code S α} {rest : α → Code S K.Value} {outcome : Outcome α}
    (completes : Completes thread code state outcome last) {world : World K} (here : world.state = state)
    (found : world.threads[thread]? = some (.running (code.bind rest)))
    (free : world.current = none ∨ world.current = some thread) :
    ∃ next, (Choices.all K).Reaches world next ∧ Follows thread rest last next outcome := by
  induction completes generalizing world with
  | pure value state => exact ⟨world, .start, here, found, free⟩
  | throw state =>
    subst here
    have inside := (List.getElem?_eq_some_iff.mp found).1
    exact ⟨_, Runs.advanced default _ found free rfl, rfl, List.getElem?_set_self inside⟩
  | exit state =>
    subst here
    have inside := (List.getElem?_eq_some_iff.mp found).1
    exact ⟨_, Runs.advanced default _ found free rfl, rfl, by simp [inside]⟩
  | stops state =>
    subst here
    have inside := (List.getElem?_eq_some_iff.mp found).1
    exact ⟨_, Runs.advanced default _ found free rfl, rfl, List.getElem?_set_self (by simpa using inside)⟩
  | @op α o next outcome state after last input reply executed _ ih =>
    subst here
    have inside := (List.getElem?_eq_some_iff.mp found).1
    let then_ : World K := ⟨after, world.threads.set thread (.running ((next reply).bind rest)), some thread⟩
    have first := Runs.advanced input then_ found free (by simp [World.advance, Code.bind, executed, then_])
    obtain ⟨last, reached, follows⟩ := @ih rest then_ rfl (List.getElem?_set_self inside) (.inr rfl)
    exact ⟨last, first.trans _ reached, follows⟩
  | @«yield» α next outcome state between last elapsed _ ih =>
    subst here
    have inside := (List.getElem?_eq_some_iff.mp found).1
    let outside : World K := ⟨world.state, world.threads.set thread (.running (next.bind rest)), none⟩
    have first := Runs.advanced default outside found free rfl
    have waited := @elapses_reaches _ K _ _ elapsed outside rfl rfl
    obtain ⟨last, reached, follows⟩ := @ih rest { outside with state := between } rfl (List.getElem?_set_self inside)
      (.inl rfl)
    exact ⟨last, (first.trans _ waited).trans _ reached, follows⟩
  | @disposes α other next outcome state last different _ ih =>
    subst here
    have inside := (List.getElem?_eq_some_iff.mp found).1
    let then_ : World K := ⟨K.disposed thread other world.state,
      (world.threads.set thread (.running (next.bind rest))).set other .stopped, some thread⟩
    have first := Runs.advanced default then_ found free (by simp [World.advance, Code.bind, then_, different])
    have going : then_.threads[thread]? = some (.running (next.bind rest)) := by
      rw [List.getElem?_set_ne different, List.getElem?_set_self inside]
    obtain ⟨last, reached, follows⟩ := @ih rest then_ rfl going (.inr rfl)
    exact ⟨last, first.trans _ reached, follows⟩
  | again _ _ ihTurn ihLater | leaves _ _ ihTurn ihLater =>
    obtain ⟨_, first, same, found, free⟩ := loop_reaches found free
    obtain ⟨_, reached, here, found, free⟩ := ihTurn (same.trans here) found free
    obtain ⟨last, after, follows⟩ := ihLater here found free
    exact ⟨last, (first.trans _ reached).trans _ after, follows⟩
  | @breaks _ _ _ _ _ _ why _ _ _ ih =>
    obtain ⟨_, first, same, found, free⟩ := loop_reaches found free
    obtain ⟨last, reached, follows⟩ := ih (same.trans here) found free
    refine ⟨last, first.trans _ reached, ?_⟩
    cases why <;> exact follows

end Completes
end Coop
