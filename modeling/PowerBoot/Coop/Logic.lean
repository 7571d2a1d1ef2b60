import PowerBoot.Coop.World

/-! Assertions for the code of cooperative threads. Between its yields a thread
runs alone, so an invariant may be broken inside a section and is owed only at
its end. What the other threads do meanwhile is described by one relation for
each thread, and a thread owes that relation to all the others. -/

namespace Coop
variable {S : Signature} {K : Kernel S}

/-- `knows` bounds the thread names a state can mention, which makes the name of
a new thread fresh, and every running thread is `alive`. `step` is owed by every
single operation. -/
structure Rules (K : Kernel S) where
  choices : Choices K
  knows : K.State → ThreadId → Prop
  alive : ThreadId → K.State → Prop
  invariant : K.State → Prop
  rely : ThreadId → K.State → K.State → Prop
  step : ThreadId → K.State → K.State → Prop
  idle : ThreadId → K.State → Prop
  requires : S.Entry → ThreadId → K.State → Prop

namespace Rules
variable (rules : Rules K) (actor : ThreadId)

/-- A section that began at `start` may end at `now`. -/
structure Ends (start now : K.State) : Prop where
  invariant : rules.invariant now
  others : ∀ other, other ≠ actor → rules.rely other start now

/-- The call is over: its result is recorded and the thread is idle again. -/
def Returns (value : K.Value) (start now : K.State) : Prop :=
  rules.Ends actor start (K.returned actor value now) ∧ rules.idle actor (K.returned actor value now)

/-- The code is safe from `now`, in a section that began at `start`, and leaves
`post` where it finishes. A loop is safe when it has an invariant. -/
def Holds {α : Type} : Code S α → (α → K.State → K.State → Prop) → K.State → K.State → Prop
  | .pure value, post => post value
  | .throw, _ => fun start now =>
    rules.Ends actor start (K.threw actor now) ∧ rules.idle actor (K.threw actor now)
  | .exit, _ => fun start now => rules.Ends actor start (K.exited actor now)
  | .op o next, post => fun start now => ∀ input reply after, rules.choices.answers actor o input now →
    K.exec actor o input now = some (reply, after) →
      rules.step actor now after ∧ Holds (next reply) post start after
  | .yield next, post => fun start now => rules.Ends actor start now ∧
    ∀ later, rules.invariant later → rules.rely actor now later → rules.alive actor later →
      Holds next post later later
  | .spawn entry next, post => fun start now => ∀ child, child ≠ actor → ¬ rules.knows now child →
    let after := K.spawned actor child entry now
    rules.step actor now after ∧ rules.Ends actor start after ∧
      rules.requires entry child after ∧ Holds (next child) post after after
  | .dispose thread next, post => fun start now =>
    let after := K.disposed actor thread now
    rules.step actor now after ∧
      if thread = actor then rules.Ends actor start after else Holds next post start after
  | @Code.loop _ _ β _ body state next, post => fun start now =>
    ∃ kept : β → K.State → K.State → Prop, kept state start now ∧
      ∀ state start now, kept state start now → Holds (body state) (fun
        | .inl state => kept state
        | .inr value => Holds (next value) post) start now

variable {rules actor}

theorem Holds.mono {α : Type} {code : Code S α} {post weaker : α → K.State → K.State → Prop} {start now : K.State}
    (safe : rules.Holds actor code post start now)
    (implies : ∀ value start now, post value start now → weaker value start now) :
    rules.Holds actor code weaker start now := by
  induction code generalizing start now with
  | pure value => exact implies value start now safe
  | throw | exit => exact safe
  | op o next ih =>
    intro input reply after answered executed
    obtain ⟨stepped, rest⟩ := safe input reply after answered executed
    exact ⟨stepped, ih reply rest implies⟩
  | yield next ih =>
    exact ⟨safe.1, fun later kept moved alive => ih (safe.2 later kept moved alive) implies⟩
  | spawn entry next ih =>
    intro child other fresh
    obtain ⟨stepped, ends, ready, rest⟩ := safe child other fresh
    exact ⟨stepped, ends, ready, ih child rest implies⟩
  | dispose thread next ih =>
    refine ⟨safe.1, ?_⟩
    have rest := safe.2
    split
    next same => simpa only [same, if_true] using rest
    next other => exact ih (by simpa only [other, if_false] using rest) implies
  | loop body state next ihBody ihNext =>
    obtain ⟨kept, holds, step⟩ := safe
    refine ⟨kept, holds, fun state start now inside => ihBody state (step state start now inside) ?_⟩
    intro result start now done
    cases result with
    | inl state => exact done
    | inr value => exact ihNext value done implies

theorem Holds.bind {α β : Type} {code : Code S α} {rest : α → Code S β}
    {post : β → K.State → K.State → Prop} {start now : K.State}
    (safe : rules.Holds actor code (fun value => rules.Holds actor (rest value) post) start now) :
    rules.Holds actor (code.bind rest) post start now := by
  induction code generalizing start now with
  | pure value => exact safe
  | throw | exit => exact safe
  | op o next ih =>
    intro input reply after answered executed
    obtain ⟨stepped, safe⟩ := safe input reply after answered executed
    exact ⟨stepped, ih reply safe⟩
  | yield next ih => exact ⟨safe.1, fun later kept moved alive => ih (safe.2 later kept moved alive)⟩
  | spawn entry next ih =>
    intro child other fresh
    obtain ⟨stepped, ends, ready, safe⟩ := safe child other fresh
    exact ⟨stepped, ends, ready, ih child safe⟩
  | dispose thread next ih =>
    refine ⟨safe.1, ?_⟩
    have safe := safe.2
    split
    next same => simpa only [same, if_true] using safe
    next other => exact ih (by simpa only [other, if_false] using safe)
  | loop body state next _ ih =>
    obtain ⟨kept, holds, step⟩ := safe
    refine ⟨kept, holds, fun state start now inside => (step state start now inside).mono ?_⟩
    intro result start now done
    cases result with
    | inl state => exact done
    | inr value => exact ih value done

theorem Holds.turn {α β γ : Type} {body : β → Code S (β ⊕ γ)} {state : β} {next : γ → Code S α}
    {post : α → K.State → K.State → Prop} {start now : K.State}
    (safe : rules.Holds actor (.loop body state next) post start now) :
    rules.Holds actor ((body state).bind (.turn body next)) post start now := by
  obtain ⟨kept, holds, step⟩ := safe
  apply Holds.bind
  apply (step state start now holds).mono
  intro result start now done
  cases result with
  | inl state => exact ⟨kept, done, step⟩
  | inr value => exact done

variable (rules)

/-- A step that can make only `new` threads known and leaves the `spared` alive. -/
structure Keeps (new spared : ThreadId → Prop) (before after : K.State) : Prop where
  known : ∀ name, rules.knows after name → rules.knows before name ∨ new name
  alive : ∀ name, spared name → rules.alive name before → rules.alive name after

/-- Only a thread that acts or is created can become known, and only disposing of
a thread ends it. -/
structure Named : Prop where
  exec : ∀ thread o input before reply after, K.exec thread o input before = some (reply, after) →
    rules.Keeps (· = thread) (fun _ => True) before after
  called : ∀ thread entry before after, K.called thread entry before = some after →
    rules.Keeps (· = thread) (fun _ => True) before after ∧ rules.alive thread after
  spawned : ∀ thread child entry state, let after := K.spawned thread child entry state
    rules.Keeps (fun name => name = thread ∨ name = child) (fun _ => True) state after ∧ rules.alive child after
  disposed : ∀ thread other state, rules.Keeps (· = thread) (· ≠ other) state (K.disposed thread other state)
  exited : ∀ thread state name, rules.knows (K.exited thread state) name → rules.knows state name ∨ name = thread
  returned : ∀ thread value state, rules.Keeps (· = thread) (fun _ => True) state (K.returned thread value state)
  threw : ∀ thread state, rules.Keeps (· = thread) (fun _ => True) state (K.threw thread state)
  environment : ∀ input before after, K.environment input before = some after →
    rules.Keeps (fun _ => False) (fun _ => True) before after

/-- What others do again and again is still what they do. -/
structure Orderly : Prop where
  refl : ∀ thread state, rules.rely thread state state
  trans : ∀ {thread first middle last}, rules.rely thread first middle → rules.rely thread middle last →
    rules.rely thread first last

/-- What has to be shown of a machine, once for each of its entry points. -/
structure Sound : Prop extends rules.Orderly where
  named : rules.Named
  fresh : ∀ {thread state}, rules.invariant state → ¬ rules.knows state thread → rules.idle thread state
  idles : ∀ {thread before after}, rules.rely thread before after → rules.idle thread before → rules.idle thread after
  readies : ∀ {entry thread before after}, rules.rely thread before after →
    rules.requires entry thread before → rules.requires entry thread after
  called : ∀ {thread entry before after}, rules.choices.calls thread entry before →
    rules.invariant before → rules.idle thread before → K.called thread entry before = some after →
    rules.Ends thread before after ∧ rules.requires entry thread after
  environment : ∀ {input before after}, rules.choices.moves input before → rules.invariant before →
    K.environment input before = some after →
    rules.invariant after ∧ ∀ thread, rules.rely thread before after
  body : ∀ {entry thread state}, rules.invariant state → rules.requires entry thread state →
    rules.alive thread state → rules.Holds thread (K.body entry) (rules.Returns thread) state state

/-- A thread that is not inside its section. -/
def Rest (thread : ThreadId) (state : K.State) : Activity K → Prop
  | .idle => rules.idle thread state
  | .running code => ∀ later, rules.invariant later → rules.rely thread state later →
    rules.alive thread later → rules.Holds thread code (rules.Returns thread) later later
  | .stopped => True

def Rests (threads : List (Activity K)) (state : K.State) (inside : Option ThreadId) : Prop :=
  ∀ (thread : ThreadId) activity, some thread ≠ inside → threads[thread]? = some activity →
    rules.Rest thread state activity

/-- Known threads exist and running threads are alive. -/
structure Lives (threads : List (Activity K)) (state : K.State) : Prop where
  known : ∀ name, rules.knows state name → name < threads.length
  alive : ∀ name code, threads[name]? = some (.running code) → rules.alive name state

structure Safe (world : World K) : Prop where
  lives : rules.Lives world.threads world.state
  holds : match world.current with
    | none => rules.invariant world.state ∧ rules.Rests world.threads world.state none
    | some actor => actor < world.threads.length ∧ ∃ start, rules.Rests world.threads start (some actor) ∧
      ∀ code, world.threads[actor]? = some (.running code) →
        rules.Holds actor code (rules.Returns actor) start world.state

variable {rules}

theorem Rest.moved (sound : rules.Sound) {thread before after} {activity : Activity K}
    (rest : rules.Rest thread before activity) (moved : rules.rely thread before after) :
    rules.Rest thread after activity := by
  cases activity with
  | idle => exact sound.idles moved rest
  | running code => exact fun later kept more alive => rest later kept (sound.trans moved more) alive
  | stopped => trivial

theorem Rest.ready (sound : rules.Sound) {thread state} {entry : S.Entry}
    (ready : rules.requires entry thread state) : rules.Rest thread state (.running (K.body entry)) :=
  fun _ kept moved alive => sound.body kept (sound.readies moved ready) alive

theorem Rests.ended (sound : rules.Sound) {actor : ThreadId} {threads : List (Activity K)} {start now : K.State}
    {activity : Activity K} (rests : rules.Rests threads start (some actor)) (ends : rules.Ends actor start now)
    (rest : rules.Rest actor now activity) : rules.Rests (threads.set actor activity) now none := by
  intro thread other _ found
  rw [List.getElem?_set] at found
  split at found
  next same =>
    subst thread
    split at found
    · cases found; exact rest
    · cases found
  next different =>
    exact (rests thread other (by simpa using Ne.symm different) found).moved sound
      (ends.others thread (Ne.symm different))

theorem Rests.set_inside {actor : ThreadId} {threads : List (Activity K)} {state : K.State} {activity : Activity K}
    (rests : rules.Rests threads state (some actor)) :
    rules.Rests (threads.set actor activity) state (some actor) := by
  intro thread other outside found
  have different : actor ≠ thread := fun same => outside (by rw [same])
  rw [List.getElem?_set_ne different] at found
  exact rests thread other outside found

theorem Rests.stop {inside : Option ThreadId} {threads : List (Activity K)} {state : K.State}
    (rests : rules.Rests threads state inside) (stopped : ThreadId) :
    rules.Rests (threads.set stopped .stopped) state inside := by
  intro thread other outside found
  rw [List.getElem?_set] at found
  split at found
  · split at found
    · cases found; trivial
    · cases found
  · exact rests thread other outside found

private theorem found_push {threads : List (Activity K)} {new found : Activity K} {name : ThreadId}
    (there : (threads ++ [new])[name]? = some found) :
    threads[name]? = some found ∨ name = threads.length ∧ found = new := by
  rw [List.getElem?_append] at there
  split at there
  · exact Or.inl there
  next beyond =>
    rw [List.getElem?_singleton] at there
    split at there
    next last =>
      exact Or.inr ⟨Nat.le_antisymm (Nat.sub_eq_zero_iff_le.mp last) (Nat.not_lt.mp beyond),
        (Option.some.inj there).symm⟩
    · cases there

theorem Rests.push {inside : Option ThreadId} {threads : List (Activity K)} {state : K.State} {activity : Activity K}
    (rests : rules.Rests threads state inside) (rest : rules.Rest threads.length state activity) :
    rules.Rests (threads ++ [activity]) state inside := by
  intro thread other outside found
  rcases found_push found with old | ⟨rfl, rfl⟩
  · exact rests thread other outside old
  · exact rest

theorem Lives.keeps {new : ThreadId → Prop} {threads : List (Activity K)} {before after : K.State}
    (lives : rules.Lives threads before) (keeps : rules.Keeps new (fun _ => True) before after)
    (exist : ∀ name, new name → name < threads.length) : rules.Lives threads after where
  known name knows := (keeps.known name knows).elim (lives.known name) (exist name)
  alive name code found := keeps.alive name trivial (lives.alive name code found)

theorem Lives.set {threads : List (Activity K)} {state : K.State} {actor : ThreadId} {activity : Activity K}
    (lives : rules.Lives threads state)
    (alive : ∀ code, activity = .running code → rules.alive actor state) :
    rules.Lives (threads.set actor activity) state := by
  refine ⟨fun name knows => by simpa using lives.known name knows, ?_⟩
  intro name code found
  rw [List.getElem?_set] at found
  split at found
  next same =>
    subst name
    split at found
    · exact alive code (Option.some.inj found)
    · cases found
  · exact lives.alive name code found

theorem Lives.dispose {new : ThreadId → Prop} {threads : List (Activity K)} {before after : K.State}
    {stopped : ThreadId} (lives : rules.Lives threads before) (keeps : rules.Keeps new (· ≠ stopped) before after)
    (exist : ∀ name, new name → name < threads.length) : rules.Lives (threads.set stopped .stopped) after := by
  refine ⟨fun name knows => ?_, ?_⟩
  · rw [List.length_set]
    exact (keeps.known name knows).elim (lives.known name) (exist name)
  · intro name code found
    rw [List.getElem?_set] at found
    split at found
    · split at found <;> cases found
    next different => exact keeps.alive name (Ne.symm different) (lives.alive name code found)

theorem Safe.starts {state : K.State} {count : Nat} (kept : rules.invariant state)
    (known : ∀ name, rules.knows state name → name < count)
    (idle : ∀ thread, rules.idle thread state) : rules.Safe (World.initial state count) := by
  refine ⟨⟨fun name knows => by simpa [World.initial] using known name knows, ?_⟩, kept, ?_⟩
  · intro name code found
    simp only [World.initial, List.getElem?_replicate] at found
    split at found <;> cases found
  · intro thread activity _ found
    simp only [World.initial, List.getElem?_replicate] at found
    split at found
    · cases found
      exact idle thread
    · cases found

theorem Safe.initial {state : K.State} {count : Nat} (kept : rules.invariant state)
    (known : ∀ name, ¬ rules.knows state name)
    (idle : ∀ thread, rules.idle thread state) : rules.Safe (World.initial state count) :=
  .starts kept (fun name knows => (known name knows).elim) idle

private theorem Safe.begin (sound : rules.Sound) {world next : World K} {thread : ThreadId} {entry : S.Entry}
    (safe : rules.Safe world) (outside : world.current = none)
    (allowed : rules.choices.calls thread entry world.state)
    (stepped : world.begin thread entry = some next) : rules.Safe next := by
  obtain ⟨lives, holds⟩ := safe
  simp only [outside] at holds
  obtain ⟨kept, rests⟩ := holds
  simp only [World.begin, Option.bind_eq_some_iff] at stepped
  obtain ⟨after, called, placed⟩ := stepped
  obtain ⟨keeps, alive⟩ := sound.named.called thread entry world.state after called
  have moved (idle : rules.idle thread world.state) := sound.called allowed kept idle called
  have others (idle : rules.idle thread world.state) : rules.Rests (world.threads.set thread .stopped) after none :=
    Rests.ended sound (fun other activity different found => rests other activity (by simp) found)
      (moved idle).1 trivial
  split at placed
  next new =>
    cases placed
    have idle : rules.idle thread world.state :=
      sound.fresh kept fun old => Nat.lt_irrefl _ (new ▸ lives.known thread old)
    refine ⟨⟨?_, ?_⟩, ?_⟩
    · intro name knows
      simp only [List.length_append, List.length_singleton]
      rcases keeps.known name knows with old | rfl
      · exact Nat.lt_succ_of_lt (lives.known name old)
      · exact new ▸ Nat.lt_succ_self _
    · intro name code found
      rcases found_push found with old | ⟨same, _⟩
      · exact keeps.alive name trivial (lives.alive name code old)
      · exact (same.trans new.symm) ▸ alive
    · simp only [outside]
      refine ⟨(moved idle).1.invariant, Rests.push ?_ (new ▸ Rest.ready sound (moved idle).2)⟩
      simpa [new, List.set_eq_of_length_le] using others idle
  next old =>
    split at placed
    next found =>
      cases placed
      have idle : rules.idle thread world.state := rests thread .idle (by simp) found
      have within := (List.getElem?_eq_some_iff.mp found).1
      refine ⟨(lives.keeps keeps fun name same => same ▸ within).set fun _ _ => alive, ?_⟩
      simp only [outside]
      refine ⟨(moved idle).1.invariant, ?_⟩
      exact Rests.ended sound (fun other activity different found => rests other activity (by simp) found)
        (moved idle).1 (Rest.ready sound (moved idle).2)
    · cases placed

private theorem Safe.advance (sound : rules.Sound) {world next : World K} {actor : ThreadId} {input : K.Input}
    {code : Code S K.Value} (safe : rules.Safe world) (current : world.current = some actor)
    (found : world.threads[actor]? = some (.running code))
    (allowed : rules.choices.Allows (.continue input) world)
    (stepped : world.advance actor input code = some next) : rules.Safe next := by
  obtain ⟨lives, holds⟩ := safe
  simp only [current] at holds
  obtain ⟨inside, start, rests, holds⟩ := holds
  have holds := holds code found
  have exist (name : ThreadId) (same : name = actor) : name < world.threads.length := same ▸ inside
  have alive := lives.alive actor code found
  -- The section of the thread goes on in the next world.
  have goesOn {state : K.State} {rest : Code S K.Value}
      (safe : rules.Holds actor rest (rules.Returns actor) start state)
      (lives : rules.Lives (world.threads.set actor (.running rest)) state) :
      rules.Safe { world with state, threads := world.threads.set actor (.running rest) } := by
    refine ⟨lives, ?_⟩
    simp only [current, List.length_set]
    refine ⟨inside, start, rests.set_inside, fun code found => ?_⟩
    simp only [List.getElem?_set_self inside] at found
    cases found
    exact safe
  cases code with
  | pure value =>
    cases stepped
    refine ⟨(lives.keeps (sound.named.returned actor value world.state) exist).set nofun, holds.1.invariant, ?_⟩
    exact Rests.ended sound rests holds.1 holds.2
  | throw =>
    cases stepped
    refine ⟨(lives.keeps (sound.named.threw actor world.state) exist).set nofun, holds.1.invariant, ?_⟩
    exact Rests.ended sound rests holds.1 holds.2
  | exit =>
    cases stepped
    refine ⟨⟨?_, ?_⟩, holds.invariant, ?_⟩
    · intro name knows
      simp only [List.length_map]
      exact (sound.named.exited actor world.state name knows).elim (lives.known name) (exist name)
    · intro name code found
      simp only [List.getElem?_map, Option.map_eq_some_iff] at found
      obtain ⟨_, _, same⟩ := found
      cases same
    · intro thread activity _ found
      simp only [List.getElem?_map, Option.map_eq_some_iff] at found
      obtain ⟨_, _, rfl⟩ := found
      trivial
  | op o rest =>
    simp only [World.advance, Option.map_eq_some_iff] at stepped
    obtain ⟨⟨reply, after⟩, executed, rfl⟩ := stepped
    have rest := (holds input reply after (allowed actor o rest current found) executed).2
    have keeps := sound.named.exec actor o input world.state reply after executed
    exact goesOn rest ((lives.keeps keeps exist).set fun _ _ => keeps.alive actor trivial alive)
  | yield rest =>
    cases stepped
    exact ⟨lives.set fun _ _ => alive, holds.1.invariant, Rests.ended sound rests holds.1 holds.2⟩
  | spawn entry rest =>
    cases stepped
    have fresh : ¬ rules.knows world.state world.threads.length :=
      fun old => Nat.lt_irrefl _ (lives.known _ old)
    obtain ⟨_, ends, ready, safe⟩ := holds world.threads.length (Nat.ne_of_gt inside) fresh
    obtain ⟨keeps, born⟩ := sound.named.spawned actor world.threads.length entry world.state
    refine ⟨⟨?_, ?_⟩, ?_⟩
    · intro name knows
      simp only [List.length_append, List.length_set, List.length_singleton]
      rcases keeps.known name knows with old | rfl | rfl
      · exact Nat.lt_succ_of_lt (lives.known name old)
      · exact Nat.lt_succ_of_lt inside
      · exact Nat.lt_succ_self _
    · intro name code found
      have mine : rules.Lives (world.threads.set actor (.running (rest world.threads.length))) world.state :=
        lives.set fun _ _ => alive
      rcases found_push found with old | ⟨same, _⟩
      · exact keeps.alive name trivial (mine.alive name code old)
      · rw [List.length_set] at same
        exact same ▸ born
    · simp only [current, List.length_append, List.length_set, List.length_singleton]
      refine ⟨Nat.lt_succ_of_lt inside, K.spawned actor world.threads.length entry world.state, ?_, ?_⟩
      · refine Rests.push ?_ (by simpa only [List.length_set] using Rest.ready sound ready)
        apply Rests.set_inside
        intro thread activity outside found
        exact (rests thread activity outside found).moved sound
          (ends.others thread fun same => outside (by rw [same]))
      · intro code found
        rw [List.getElem?_append_left (by simpa using inside), List.getElem?_set_self inside] at found
        cases found
        exact safe
  | dispose thread rest =>
    cases stepped
    have keeps := sound.named.disposed actor thread world.state
    have mine : rules.Lives (world.threads.set actor (.running rest)) world.state := lives.set fun _ _ => alive
    refine ⟨mine.dispose keeps fun name same => by simpa using exist name same, ?_⟩
    by_cases same : thread = actor
    · subst thread
      have ends : rules.Ends actor start (K.disposed actor actor world.state) := by simpa using holds.2
      simp only [if_true, List.set_set]
      exact ⟨ends.invariant, Rests.ended sound rests ends trivial⟩
    · simp only [same, if_false, List.length_set]
      refine ⟨inside, start, rests.set_inside.stop thread, ?_⟩
      intro code found
      rw [List.getElem?_set_ne same, List.getElem?_set_self inside] at found
      cases found
      simpa [same] using holds.2
  | loop body state rest =>
    cases stepped
    exact goesOn holds.turn (lives.set fun _ _ => alive)

theorem Safe.step (sound : rules.Sound) {world next : World K} {action : Action K} (safe : rules.Safe world)
    (allowed : rules.choices.Allows action world) (stepped : world.step action = some next) : rules.Safe next := by
  cases current : world.current with
  | none =>
    cases action with
    | call thread entry =>
      simp only [World.step, current] at stepped
      exact safe.begin sound current allowed stepped
    | resume thread =>
      simp only [World.step, current] at stepped
      split at stepped
      next code found =>
        cases stepped
        obtain ⟨lives, holds⟩ := safe
        simp only [current] at holds
        refine ⟨lives, (List.getElem?_eq_some_iff.mp found).1, world.state, ?_, ?_⟩
        · exact fun other activity _ found => holds.2 other activity (by simp) found
        · intro other same
          have rest := holds.2 thread _ (by simp) same
          exact rest world.state holds.1 (sound.refl thread _) (lives.alive thread _ same)
      · cases stepped
    | «continue» input => simp [World.step, current] at stepped
    | environment input =>
      simp only [World.step, current, Option.map_eq_some_iff] at stepped
      obtain ⟨after, moved, rfl⟩ := stepped
      obtain ⟨lives, holds⟩ := safe
      simp only [current] at holds
      obtain ⟨kept, others⟩ := sound.environment allowed holds.1 moved
      refine ⟨lives.keeps (sound.named.environment _ _ _ moved) (fun _ never => never.elim), ?_⟩
      exact ⟨kept, fun thread activity inside found => (holds.2 thread activity inside found).moved sound
        (others thread)⟩
  | some actor =>
    cases action with
    | «continue» input =>
      simp only [World.step, current] at stepped
      split at stepped
      next code found => exact safe.advance sound current found allowed stepped
      · cases stepped
    | call | resume | environment => simp [World.step, current] at stepped

theorem Safe.reaches (sound : rules.Sound) {start world : World K} (safe : rules.Safe start)
    (reached : rules.choices.Reaches start world) : rules.Safe world := by
  induction reached with
  | start => exact safe
  | step _ allowed stepped ih => exact ih.step sound allowed stepped

/-- Between two sections the invariant holds. -/
theorem Safe.invariant {world : World K} (safe : rules.Safe world) (outside : world.current = none) :
    rules.invariant world.state := by
  have holds := safe.holds
  simp only [outside] at holds
  exact holds.1

/-- Every operation of a run keeps to what single operations owe. -/
theorem Safe.operation {world : World K} (safe : rules.Safe world) {actor : ThreadId} {input : K.Input} {o : S.Op}
    {next : S.Reply o → Code S K.Value} {reply : S.Reply o} {after : K.State}
    (current : world.current = some actor) (found : world.threads[actor]? = some (.running (.op o next)))
    (answered : rules.choices.answers actor o input world.state)
    (executed : K.exec actor o input world.state = some (reply, after)) :
    rules.step actor world.state after := by
  have holds := safe.holds
  simp only [current] at holds
  obtain ⟨_, _, _, holds⟩ := holds
  exact (holds _ found input reply after answered executed).1

theorem Sound.keeping (sound : rules.Sound) {choices : Choices K} {start world : World K} (safe : rules.Safe start)
    (allowed : ∀ action world, choices.Allows action world → rules.choices.Allows action world)
    (reached : choices.Reaches start world) : (choices.keeping rules.step).Reaches start world := by
  suffices (choices.keeping rules.step).Reaches start world ∧ rules.Safe world from this.1
  induction reached with
  | start => exact ⟨.start, safe⟩
  | @step world next action _ chosen stepped ih =>
    obtain ⟨reached, safe⟩ := ih
    refine ⟨.step reached ?_ stepped, safe.step sound (allowed action world chosen) stepped⟩
    cases action with
    | «continue» input =>
      intro actor o rest current found
      refine ⟨chosen actor o rest current found, fun reply after executed => ?_⟩
      exact safe.operation current found (allowed _ _ chosen actor o rest current found) executed
    | call | resume | environment => exact chosen

/-- A property kept by the invariant at yields and by every operation holds in
the middle of sections as well. -/
theorem Sound.everywhere (sound : rules.Sound) {property : K.State → Prop} {start world : World K}
    (safe : rules.Safe start) (outside : start.current = none)
    (kept : ∀ state, rules.invariant state → property state)
    (stepped : ∀ actor before after, rules.step actor before after → property after)
    (reached : rules.choices.Reaches start world) : property world.state := by
  induction reached with
  | start => exact kept _ (safe.invariant outside)
  | @step world next action before allowed taken ih =>
    have safeBefore := safe.reaches sound before
    have safeNext := safeBefore.step sound allowed taken
    cases current : next.current with
    | none => exact kept _ (safeNext.invariant current)
    | some actor =>
      cases inside : world.current with
      | none =>
        cases action with
        | call thread entry =>
          simp only [World.step, inside, World.begin, Option.bind_eq_some_iff] at taken
          obtain ⟨after, _, placed⟩ := taken
          split at placed
          · cases placed; simp at current
          · split at placed <;> cases placed; simp at current
        | resume thread =>
          simp only [World.step, inside] at taken
          split at taken <;> cases taken
          exact ih
        | «continue» input => simp [World.step, inside] at taken
        | environment input =>
          simp only [World.step, inside, Option.map_eq_some_iff] at taken
          obtain ⟨_, _, rfl⟩ := taken
          simp at current
      | some mine =>
        cases action with
        | call | resume | environment => simp [World.step, inside] at taken
        | «continue» input =>
          simp only [World.step, inside] at taken
          split at taken
          next code found =>
            have holds := safeBefore.holds
            simp only [inside] at holds
            obtain ⟨within, _, _, holds⟩ := holds
            have holds := holds code found
            cases code with
            | pure | throw | exit | yield => cases taken; simp at current
            | op o rest =>
              simp only [World.advance, Option.map_eq_some_iff] at taken
              obtain ⟨⟨reply, after⟩, executed, rfl⟩ := taken
              exact stepped _ _ _ (holds input reply after (allowed mine o rest inside found) executed).1
            | spawn entry rest =>
              cases taken
              have fresh : ¬ rules.knows world.state world.threads.length :=
                fun old => Nat.lt_irrefl _ (safeBefore.lives.known _ old)
              exact stepped _ _ _ (holds world.threads.length (Nat.ne_of_gt within) fresh).1
            | dispose thread rest =>
              cases taken
              exact stepped _ _ _ holds.1
            | loop body state rest =>
              cases taken
              exact ih
          · cases taken

end Rules
end Coop
