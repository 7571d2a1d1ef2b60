import PowerBoot.Coop.World

/-! A thread that runs alone: at its yields no other thread and no event goes on
before it. What it can do so is one of the runs of the whole world. -/

namespace Coop
variable {S : Signature} {K : Kernel S}

/-- `thread` can run its code alone from the first code and state to the second ones. -/
inductive Runs (thread : ThreadId) {α : Type} : Code S α → K.State → Code S α → K.State → Prop where
  | here (code : Code S α) (state : K.State) : Runs thread code state code state
  | op {o : S.Op} {next : S.Reply o → Code S α} {rest : Code S α} {state after last : K.State} {input : K.Input}
      {reply : S.Reply o} (executed : K.exec thread o input state = some (reply, after))
      (later : Runs thread (next reply) after rest last) : Runs thread (.op o next) state rest last
  | yield {next rest : Code S α} {state last : K.State} (later : Runs thread next state rest last) :
      Runs thread (.yield next) state rest last
  | loop {β γ : Type} {body : β → Code S (β ⊕ γ)} {turn : β} {next : γ → Code S α} {rest : Code S α}
      {state last : K.State} (later : Runs thread ((body turn).bind (.turn body next)) state rest last) :
      Runs thread (.loop body turn next) state rest last

/-- `thread` can run `code` alone from `state`, and ends with `value` in `last`. -/
abbrev Alone (thread : ThreadId) {α : Type} (code : Code S α) (state : K.State) (value : α) (last : K.State) : Prop :=
  Runs thread code state (.pure value) last

namespace Runs
variable {thread : ThreadId} {α β : Type}

theorem of_pure {value : α} {rest : Code S α} {state last : K.State}
    (runs : Runs thread (.pure value) state rest last) :
    last = state := by
  cases runs
  rfl

theorem trans {code middle rest : Code S α} {state between last : K.State}
    (first : Runs thread code state middle between)
    (second : Runs thread middle between rest last) : Runs thread code state rest last := by
  induction first with
  | here => exact second
  | op executed _ ih => exact .op executed (ih second)
  | yield _ ih => exact .yield (ih second)
  | loop _ ih => exact .loop (ih second)

theorem bind {code rest : Code S α} {next : α → Code S β} {state last : K.State}
    (runs : Runs thread code state rest last) : Runs thread (code.bind next) state (rest.bind next) last := by
  induction runs with
  | here => exact .here _ _
  | op executed _ ih => exact .op executed ih
  | yield _ ih => exact .yield ih
  | loop _ ih =>
    refine .loop ?_
    rw [← Code.turn_bind, ← Code.bind_assoc]
    exact ih

theorem andThen {code : Code S α} {next : α → Code S β} {rest : Code S β} {state middle last : K.State} {value : α}
    (first : Alone thread code state value middle) (second : Runs thread (next value) middle rest last) :
    Runs thread (code.bind next) state rest last :=
  first.bind.trans second

theorem parts {code : Code S α} {rest : α → Code S β} {final : Code S β} {state last : K.State}
    (runs : Runs thread (code.bind rest) state final last) :
    (∃ left, final = left.bind rest ∧ Runs thread code state left last) ∨
      ∃ value middle, Alone thread code state value middle ∧ Runs thread (rest value) middle final last := by
  generalize whole : code.bind rest = joined at runs
  induction runs generalizing code with
  | here joined state => exact Or.inl ⟨code, whole.symm, .here _ _⟩
  | op executed later ih =>
    cases code with
    | pure value => exact Or.inr ⟨value, _, .here _ _, (show rest value = _ from whole) ▸ .op executed later⟩
    | op o next =>
      cases whole
      rcases ih rfl with ⟨left, same, first⟩ | ⟨value, middle, first, second⟩
      · exact Or.inl ⟨left, same, .op executed first⟩
      · exact Or.inr ⟨value, middle, .op executed first, second⟩
    | _ => cases whole
  | «yield» later ih =>
    cases code with
    | pure value => exact Or.inr ⟨value, _, .here _ _, (show rest value = _ from whole) ▸ .yield later⟩
    | «yield» next =>
      cases whole
      rcases ih rfl with ⟨left, same, first⟩ | ⟨value, middle, first, second⟩
      · exact Or.inl ⟨left, same, .yield first⟩
      · exact Or.inr ⟨value, middle, .yield first, second⟩
    | _ => cases whole
  | loop later ih =>
    cases code with
    | pure value => exact Or.inr ⟨value, _, .here _ _, (show rest value = _ from whole) ▸ .loop later⟩
    | loop body turn next =>
      cases whole
      rw [← Code.turn_bind, ← Code.bind_assoc] at ih
      rcases ih rfl with ⟨left, same, first⟩ | ⟨value, middle, first, second⟩
      · exact Or.inl ⟨left, same, .loop first⟩
      · exact Or.inr ⟨value, middle, .loop first, second⟩
    | _ => cases whole

theorem resumed {code : Code S K.Value} {world : World K}
    (found : world.threads[thread]? = some (.running code))
    (free : world.current = none ∨ world.current = some thread) :
    (Choices.all K).Reaches world { world with current := some thread } := by
  rcases free with outside | current
  · refine .step .start (Choices.all_allows (.resume thread) world) ?_
    simp [World.step, outside, found]
  · rw [← current]
    exact .start

theorem advanced {code : Code S K.Value} {world : World K} (input : K.Input) (next : World K)
    (found : world.threads[thread]? = some (.running code))
    (free : world.current = none ∨ world.current = some thread)
    (stepped : World.advance thread input { world with current := some thread } code = some next) :
    (Choices.all K).Reaches world next := by
  refine (resumed found free).trans _ (.step .start (Choices.all_allows (.continue input) _) ?_)
  simpa [World.step, found] using stepped

variable [Inhabited K.Input]

/-- Running alone is a run of the world. -/
theorem reaches {code rest : Code S K.Value} {state last : K.State} (runs : Runs thread code state rest last)
    {world : World K} (here : world.state = state) (found : world.threads[thread]? = some (.running code))
    (free : world.current = none ∨ world.current = some thread) :
    ∃ current, (current = none ∨ current = some thread) ∧ (Choices.all K).Reaches world
      { state := last, threads := world.threads.set thread (.running rest), current } := by
  subst here
  have inside := (List.getElem?_eq_some_iff.mp found).1
  generalize now : world.state = state at runs
  induction runs generalizing world with
  | here code state =>
    subst now
    refine ⟨world.current, free, ?_⟩
    have same : world.threads.set thread (.running code) = world.threads := by
      obtain ⟨_, found⟩ := List.getElem?_eq_some_iff.mp found
      rw [← found, List.set_getElem_self]
    rw [same]
    exact .start
  | @op o next rest state after last input reply executed _ ih =>
    subst now
    let then_ : World K := ⟨after, world.threads.set thread (.running (next reply)), some thread⟩
    have first := advanced input then_ found free (by simp [World.advance, executed, then_])
    obtain ⟨current, ends, later⟩ := @ih then_ (List.getElem?_set_self inside) (.inr rfl)
      (by simpa [then_] using inside) rfl
    exact ⟨current, ends, by simpa only [then_, List.set_set] using first.trans _ later⟩
  | @«yield» next rest state last _ ih =>
    subst now
    let then_ : World K := ⟨world.state, world.threads.set thread (.running next), none⟩
    have first := advanced default then_ found free rfl
    obtain ⟨current, ends, later⟩ := @ih then_ (List.getElem?_set_self inside) (.inl rfl)
      (by simpa [then_] using inside) rfl
    exact ⟨current, ends, by simpa only [then_, List.set_set] using first.trans _ later⟩
  | @loop β γ body turn next rest state last _ ih =>
    subst now
    let then_ : World K := ⟨world.state, world.threads.set thread (.running ((body turn).bind (.turn body next))),
      some thread⟩
    have first := advanced default then_ found free rfl
    obtain ⟨current, ends, later⟩ := @ih then_ (List.getElem?_set_self inside) (.inr rfl)
      (by simpa [then_] using inside) rfl
    exact ⟨current, ends, by simpa only [then_, List.set_set] using first.trans _ later⟩

theorem yields {code rest : Code S K.Value} {last : K.State} {world : World K}
    (runs : Runs thread code world.state (.yield rest) last) (found : world.threads[thread]? = some (.running code))
    (outside : world.current = none) : (Choices.all K).Reaches world
      { state := last, threads := world.threads.set thread (.running rest), current := none } := by
  obtain ⟨current, ends, reached⟩ := runs.reaches rfl found (.inl outside)
  have inside := (List.getElem?_eq_some_iff.mp found).1
  refine reached.trans _ (advanced default _ (List.getElem?_set_self inside) ends ?_)
  simp [World.advance]

theorem returns {code : Code S K.Value} {value : K.Value} {last : K.State} {world : World K}
    (alone : Alone thread code world.state value last) (found : world.threads[thread]? = some (.running code))
    (outside : world.current = none) : (Choices.all K).Reaches world
      { state := K.returned thread value last, threads := world.threads.set thread .idle, current := none } := by
  obtain ⟨current, ends, reached⟩ := alone.reaches rfl found (.inl outside)
  have inside := (List.getElem?_eq_some_iff.mp found).1
  refine reached.trans _ (advanced default _ (List.getElem?_set_self inside) ends ?_)
  simp [World.advance]

end Runs

theorem World.calls {entry : S.Entry} {world : World K} {begun : K.State} (outside : world.current = none)
    (admitted : K.called world.threads.length entry world.state = some begun) : (Choices.all K).Reaches world
      { state := begun, threads := world.threads ++ [.running (K.body entry)], current := none } := by
  refine .step .start (Choices.all_allows (.call world.threads.length entry) world) ?_
  simp [World.step, outside, World.begin, admitted]

section called
variable [Inhabited K.Input] {entry : S.Entry} {world : World K} {begun last : K.State}

/-- A new thread makes a call and runs alone up to a yield. -/
theorem Runs.called {rest : Code S K.Value} (outside : world.current = none)
    (admitted : K.called world.threads.length entry world.state = some begun)
    (runs : Runs world.threads.length (K.body entry) begun (.yield rest) last) : (Choices.all K).Reaches world
      { state := last, threads := world.threads ++ [.running rest], current := none } := by
  have yields := @Runs.yields _ _ _ _ (K.body entry) rest last
    { state := begun, threads := world.threads ++ [.running (K.body entry)], current := none } runs (by simp) rfl
  simpa using (World.calls outside admitted).trans _ yields

/-- A new thread makes a call and runs alone to its end. -/
theorem Alone.called {value : K.Value} (outside : world.current = none)
    (admitted : K.called world.threads.length entry world.state = some begun)
    (alone : Alone world.threads.length (K.body entry) begun value last) : (Choices.all K).Reaches world
      { state := K.returned world.threads.length value last, threads := world.threads ++ [.idle], current :=
        none } := by
  have returns := @Runs.returns _ _ _ _ (K.body entry) value last
    { state := begun, threads := world.threads ++ [.running (K.body entry)], current := none } alone (by simp) rfl
  simpa using (World.calls outside admitted).trans _ returns

end called
end Coop
