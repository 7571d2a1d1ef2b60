import PowerBoot.Coop.World
import Mathlib.Data.List.Forall2

/-! Two runs of a machine side by side, from related states and with the same choices. While
their threads do the same operations they stay related, whatever the operations answer. -/

namespace Coop
variable {S : Signature} {K : Kernel S}

/-- The operation that code begins with. -/
def Code.head {α : Type} : Code S α → Option S.Op
  | .op o _ => some o
  | _ => none

namespace World

def pending (world : World K) : Option (ThreadId × S.Op) :=
  world.current.bind fun actor => match world.threads[actor]? with
    | some (.running code) => code.head.map (actor, ·)
    | _ => none

/-- The operations of a run, in order, with the threads that did them. -/
def operations : List (Action K) → World K → List (ThreadId × S.Op)
  | [], _ => []
  | action :: rest, world => match world.step action with
    | some next => world.pending.toList ++ operations rest next
    | none => []

end World

def Action.Alike (inputs : K.Input → K.Input → Prop) : Action K → Action K → Prop
  | .call thread entry, other => other = .call thread entry
  | .resume thread, other => other = .resume thread
  | .continue input, other => ∃ input', other = .continue input' ∧ inputs input input'
  | .environment input, other => other = .environment input

/-- All actions of a run keep to the choices. -/
def Choices.Allowed (choices : Choices K) : List (Action K) → World K → Prop
  | [], _ => True
  | action :: rest, world =>
    choices.Allows action world ∧ ∀ next, world.step action = some next → Allowed choices rest next

theorem Choices.Allowed.tested {choices : Choices K} {test : Action K → World K → Bool}
    (sound : ∀ action world, test action world = true → choices.Allows action world) {actions : List (Action K)}
    {world : World K} (passed : (world.runWhere test actions).isSome = true) : choices.Allowed actions world := by
  induction actions generalizing world with
  | nil => trivial
  | cons action actions ih =>
    rw [World.runWhere] at passed
    split at passed
    next now =>
      refine ⟨sound action world now, fun next stepped => ih ?_⟩
      rwa [stepped] at passed
    · cases passed

/-- Two runs at once. `kept` is what no thread takes from the pair of states that another
thread has seen. -/
structure Twins (K : Kernel S) where
  choices : Choices K
  inputs : K.Input → K.Input → Prop
  related : K.State → K.State → Prop
  kept : K.State × K.State → K.State × K.State → Prop
  requires : S.Entry → K.State → K.State → Prop

namespace Twins
variable (twins : Twins K) (actor : ThreadId)

/-- Both runs have gone on, and are still related. -/
structure Moves (state state' after after' : K.State) : Prop where
  related : twins.related after after'
  kept : twins.kept (state, state') (after, after')

def Returns (value value' : K.Value) (state state' : K.State) : Prop :=
  twins.Moves state state' (K.returned actor value state) (K.returned actor value' state')

/-- The second code does the operations of the first one, from states that may differ, and
`post` relates what they finish with. -/
def Same {α : Type} : Code S α → Code S α → (α → α → K.State → K.State → Prop) → K.State → K.State → Prop
  | .pure value, code, post => fun state state' => ∃ value', code = .pure value' ∧ post value value' state state'
  | .throw, code, _ => fun _ _ => code = .throw
  | .exit, code, _ => fun _ _ => code = .exit
  | .op o next, code, post => fun state state' => ∃ next', code = .op o next' ∧
    ∀ input input' reply after, twins.choices.answers actor o input state → twins.inputs input input' →
      K.exec actor o input state = some (reply, after) →
        ∃ reply' after', K.exec actor o input' state' = some (reply', after') ∧
          twins.Moves state state' after after' ∧ Same (next reply) (next' reply') post after after'
  | .yield next, code, post => fun state state' => ∃ next', code = .yield next' ∧
    ∀ later later', twins.Moves state state' later later' → Same next next' post later later'
  | .spawn entry next, code, post => fun state state' => ∃ next', code = .spawn entry next' ∧ ∀ child,
    let after := K.spawned actor child entry state
    let after' := K.spawned actor child entry state'
    twins.requires entry after after' ∧ Same (next child) (next' child) post after after'
  | .dispose thread next, code, post => fun state state' => ∃ next', code = .dispose thread next' ∧
    Same next next' post (K.disposed actor thread state) (K.disposed actor thread state')
  | @Code.loop _ _ β γ body turn next, code, post => fun state state' =>
    ∃ body' turn' next', code = @Code.loop _ _ β γ body' turn' next' ∧
      ∃ kept : β → β → K.State → K.State → Prop, kept turn turn' state state' ∧
        ∀ turn turn' state state', kept turn turn' state state' → Same (body turn) (body' turn') (fun
          | .inl turn, .inl turn' => kept turn turn'
          | .inr value, .inr value' => Same (next value) (next' value') post
          | _, _ => fun _ _ => False) state state'

variable {twins actor} {α β γ : Type} {state state' : K.State}

theorem Same.mono {code code' : Code S α} {post weaker : α → α → K.State → K.State → Prop}
    (same : twins.Same actor code code' post state state')
    (implies : ∀ value value' state state', post value value' state state' → weaker value value' state state') :
    twins.Same actor code code' weaker state state' := by
  induction code generalizing state state' with
  | pure value =>
    obtain ⟨value', rfl, holds⟩ := same
    exact ⟨value', rfl, implies _ _ _ _ holds⟩
  | throw | exit => exact same
  | op o next ih =>
    obtain ⟨next', rfl, goes⟩ := same
    refine ⟨next', rfl, fun input input' reply after answered alike executed => ?_⟩
    obtain ⟨reply', after', executed', moves, rest⟩ := goes input input' reply after answered alike executed
    exact ⟨reply', after', executed', moves, ih reply rest implies⟩
  | yield next ih =>
    obtain ⟨next', rfl, goes⟩ := same
    exact ⟨next', rfl, fun later later' moves => ih (goes later later' moves) implies⟩
  | spawn entry next ih =>
    obtain ⟨next', rfl, goes⟩ := same
    exact ⟨next', rfl, fun child => ⟨(goes child).1, ih child (goes child).2 implies⟩⟩
  | dispose thread next ih =>
    obtain ⟨next', rfl, rest⟩ := same
    exact ⟨next', rfl, ih rest implies⟩
  | loop body turn next ihBody ihNext =>
    obtain ⟨body', turn', next', rfl, kept, holds, goes⟩ := same
    refine ⟨body', turn', next', rfl, kept, holds, fun turn turn' state state' inside => ?_⟩
    refine ihBody turn (goes turn turn' state state' inside) fun result result' state state' done => ?_
    cases result with
    | inl turn => cases result' <;> exact done
    | inr value =>
      cases result' with
      | inl turn' => exact done
      | inr value' => exact ihNext value done implies

theorem Same.bind {code code' : Code S α} {rest rest' : α → Code S β} {post : β → β → K.State → K.State → Prop}
    (same : twins.Same actor code code' (fun value value' => twins.Same actor (rest value) (rest' value') post)
      state state') :
    twins.Same actor (code.bind rest) (code'.bind rest') post state state' := by
  induction code generalizing state state' with
  | pure value =>
    obtain ⟨value', rfl, holds⟩ := same
    exact holds
  | throw =>
    cases (show code' = .throw from same)
    rfl
  | exit =>
    cases (show code' = .exit from same)
    rfl
  | op o next ih =>
    obtain ⟨next', rfl, goes⟩ := same
    refine ⟨fun reply => (next' reply).bind rest', rfl, fun input input' reply after answered alike executed => ?_⟩
    obtain ⟨reply', after', executed', moves, same⟩ := goes input input' reply after answered alike executed
    exact ⟨reply', after', executed', moves, ih reply same⟩
  | yield next ih =>
    obtain ⟨next', rfl, goes⟩ := same
    exact ⟨next'.bind rest', rfl, fun later later' moves => ih (goes later later' moves)⟩
  | spawn entry next ih =>
    obtain ⟨next', rfl, goes⟩ := same
    exact ⟨fun child => (next' child).bind rest', rfl, fun child => ⟨(goes child).1, ih child (goes child).2⟩⟩
  | dispose thread next ih =>
    obtain ⟨next', rfl, same⟩ := same
    exact ⟨next'.bind rest', rfl, ih same⟩
  | loop body turn next _ ih =>
    obtain ⟨body', turn', next', rfl, kept, holds, goes⟩ := same
    refine ⟨body', turn', fun value => (next' value).bind rest', rfl, kept, holds, ?_⟩
    intro turn turn' state state' inside
    refine (goes turn turn' state state' inside).mono fun result result' state state' done => ?_
    cases result with
    | inl turn => cases result' <;> exact done
    | inr value =>
      cases result' with
      | inl turn' => exact done
      | inr value' => exact ih value done

theorem Same.head {code code' : Code S α} {post : α → α → K.State → K.State → Prop}
    (same : twins.Same actor code code' post state state') : code'.head = code.head := by
  cases code with
  | throw | exit => rw [show code' = _ from same]
  | op | pure | yield | spawn | dispose =>
    obtain ⟨_, rfl, _⟩ := same
    rfl
  | loop =>
    obtain ⟨_, _, _, rfl, _⟩ := same
    rfl

theorem Same.turn {body : β → Code S (β ⊕ γ)} {turn : β} {next : γ → Code S α} {code' : Code S α}
    {post : α → α → K.State → K.State → Prop} (same : twins.Same actor (.loop body turn next) code' post state state') :
    ∃ body' turn' next', code' = .loop (β := β) (γ := γ) body' turn' next' ∧
      twins.Same actor ((body turn).bind (.turn body next)) ((body' turn').bind (.turn body' next')) post
        state state' := by
  obtain ⟨body', turn', next', rfl, kept, holds, goes⟩ := same
  refine ⟨body', turn', next', rfl, Same.bind ((goes turn turn' state state' holds).mono ?_)⟩
  intro result result' state state' done
  cases result with
  | inl turn =>
    cases result' with
    | inl turn' => exact ⟨body', turn', next', rfl, kept, done, goes⟩
    | inr value' => exact done.elim
  | inr value =>
    cases result' with
    | inl turn' => exact done.elim
    | inr value' => exact done

section rules
variable {pre : K.State → K.State → Prop}

variable (twins actor) in
/-- The code finishes with the same value in both runs. -/
def Matches (pre : K.State → K.State → Prop) (code : Code S α) (post : α → K.State → K.State → Prop) : Prop :=
  ∀ state state', pre state state' →
    twins.Same actor code code (fun value value' now now' => value' = value ∧ post value now now') state state'

theorem Matches.mono {code : Code S α} {post weaker : α → K.State → K.State → Prop}
    (same : twins.Matches actor pre code post)
    (implies : ∀ value state state', post value state state' → weaker value state state') :
    twins.Matches actor pre code weaker := by
  intro state state' holds
  exact (same state state' holds).mono fun value _ now now' ⟨equal, done⟩ => ⟨equal, implies value now now' done⟩

theorem Matches.value {value : α} {post : α → K.State → K.State → Prop}
    (implies : ∀ state state', pre state state' → post value state state') : twins.Matches actor pre
      (.pure value) post :=
  fun state state' holds => ⟨value, rfl, rfl, implies state state' holds⟩

theorem Matches.pure (value : α) : twins.Matches actor pre (.pure value) fun _ => pre := .value fun _ _ holds => holds

theorem Matches.bind {code : Code S α} {rest : α → Code S β} {middle : α → K.State → K.State → Prop}
    {post : β → K.State → K.State → Prop} (first : twins.Matches actor pre code middle)
    (then_ : ∀ value, twins.Matches actor (middle value) (rest value) post) :
    twins.Matches actor pre (code.bind rest) post := by
  intro state state' holds
  refine Same.bind ((first state state' holds).mono ?_)
  rintro _ value now now' ⟨rfl, holds⟩
  exact then_ value now now' holds

theorem Matches.iterate {body : β → Code S (β ⊕ γ)} {turn : β} {post : γ → K.State → K.State → Prop}
    (turns : ∀ turn, twins.Matches actor pre (body turn) fun result => match result with
      | .inl _ => pre
      | .inr value => post value) : twins.Matches actor pre (.iterate body turn) post := by
  intro state state' holds
  refine ⟨body, turn, .pure, rfl, fun turn turn' now now' => turn' = turn ∧ pre now now', ⟨rfl, holds⟩, ?_⟩
  rintro _ turn now now' ⟨rfl, holds⟩
  refine (turns turn now now' holds).mono ?_
  rintro (next | value) _ later later' ⟨rfl, done⟩
  · exact ⟨rfl, done⟩
  · exact ⟨value, rfl, rfl, done⟩

theorem Matches.repeatWhile (turns : K.State → K.State → Prop) {done : K.State → K.State → Prop}
    {condition : Code S Bool} {body : Code S Unit}
    (tests : twins.Matches actor pre condition fun more => if more then turns else done)
    (part : twins.Matches actor turns body fun _ => pre) :
    twins.Matches actor pre (.repeatWhile condition body) fun _ => done := by
  refine Matches.iterate fun _ => Matches.bind tests fun more => ?_
  cases more with
  | false => exact .value fun _ _ holds => holds
  | true => exact Matches.bind part fun _ => .value fun _ _ holds => holds

theorem Matches.composes : Code.Composes fun {_} code => twins.Matches actor pre code fun _ => pre where
  pure := .pure
  bind := .bind
  iterate turns := .iterate fun turn state state' holds =>
    (turns turn state state' holds).mono fun result _ _ _ ⟨same, holds⟩ => ⟨same, by cases result <;> exact holds⟩

end rules

variable (twins)

/-- What has to be shown of a machine: what the runs do besides operations leaves them related,
and the code of each entry is the same in both. -/
structure Sound : Prop where
  refl : ∀ pair, twins.kept pair pair
  trans : ∀ {first middle last}, twins.kept first middle → twins.kept middle last → twins.kept first last
  called : ∀ {thread entry state state' after}, twins.choices.calls thread entry state → twins.related state state' →
    K.called thread entry state = some after → ∃ after', K.called thread entry state' = some after' ∧
      twins.Moves state state' after after' ∧ twins.requires entry after after'
  environment : ∀ {input state state' after}, twins.choices.moves input state → twins.related state state' →
    K.environment input state = some after → ∃ after', K.environment input state' = some after' ∧
      twins.Moves state state' after after'
  spawned : ∀ {thread child entry state state'}, twins.related state state' →
    twins.Moves state state' (K.spawned thread child entry state) (K.spawned thread child entry state')
  disposed : ∀ {thread other state state'}, twins.related state state' →
    twins.Moves state state' (K.disposed thread other state) (K.disposed thread other state')
  exited : ∀ {thread state state'}, twins.related state state' →
    twins.Moves state state' (K.exited thread state) (K.exited thread state')
  threw : ∀ {thread state state'}, twins.related state state' →
    twins.Moves state state' (K.threw thread state) (K.threw thread state')
  readies : ∀ {entry state state' later later'}, twins.Moves state state' later later' →
    twins.requires entry state state' → twins.requires entry later later'
  body : ∀ {entry thread state state'}, twins.related state state' → twins.requires entry state state' →
    twins.Same thread (K.body entry) (K.body entry) (twins.Returns thread) state state'

/-- What a thread of the one run and its twin are doing. -/
def Paired (inside : Option ThreadId) (thread : ThreadId) (state state' : K.State) :
    Option (Activity K) → Option (Activity K) → Prop
  | none, other => other = none
  | some .idle, other => other = some .idle
  | some .stopped, other => other = some .stopped
  | some (.running code), other => ∃ code', other = some (.running code') ∧
    if inside = some thread then twins.Same thread code code' (twins.Returns thread) state state'
    else ∀ later later', twins.Moves state state' later later' →
      twins.Same thread code code' (twins.Returns thread) later later'

/-- The two runs are in step. -/
structure Beside (world world' : World K) : Prop where
  current : world'.current = world.current
  related : twins.related world.state world'.state
  count : world'.threads.length = world.threads.length
  threads : ∀ thread,
    twins.Paired world.current thread world.state world'.state world.threads[thread]? world'.threads[thread]?

variable {twins}

theorem Sound.stays (sound : twins.Sound) (related : twins.related state state') :
    twins.Moves state state' state state' :=
  ⟨related, sound.refl _⟩

theorem Moves.trans (sound : twins.Sound) {middle middle' last last' : K.State}
    (first : twins.Moves state state' middle middle') (second : twins.Moves middle middle' last last') :
    twins.Moves state state' last last' :=
  ⟨second.related, sound.trans first.kept second.kept⟩

section threads
variable {inside inside' : Option ThreadId} {thread : ThreadId} {after after' : K.State}

theorem Paired.waits (sound : twins.Sound) {activity activity' : Option (Activity K)} (outside : inside ≠ some thread)
    (later : inside' ≠ some thread) (moves : twins.Moves state state' after after')
    (paired : twins.Paired inside thread state state' activity activity') :
    twins.Paired inside' thread after after' activity activity' := by
  rcases activity with _ | _ | code | _
  · exact paired
  · exact paired
  · obtain ⟨code', rfl, same⟩ := paired
    refine ⟨code', rfl, ?_⟩
    rw [if_neg outside] at same
    rw [if_neg later]
    exact fun last last' more => same last last' (moves.trans sound more)
  · exact paired

theorem Paired.stopped {activity activity' : Option (Activity K)}
    (paired : twins.Paired inside thread state state' activity activity') :
    twins.Paired inside' thread after after' (activity.map fun _ => .stopped) (activity'.map fun _ => .stopped) := by
  rcases activity with _ | _ | code | _
  · rw [show activity' = none from paired]
    rfl
  · rw [show activity' = some .idle from paired]
    rfl
  · obtain ⟨code', rfl, _⟩ := paired
    rfl
  · rw [show activity' = some .stopped from paired]
    rfl

theorem paired_set {threads threads' : List (Activity K)} {activity activity' : Activity K}
    (count : threads'.length = threads.length)
    (others : ∀ other, other ≠ thread → twins.Paired inside other state state' threads[other]? threads'[other]?)
    (new : twins.Paired inside thread state state' (some activity) (some activity')) (other : ThreadId) :
    twins.Paired inside other state state' (threads.set thread activity)[other]?
      (threads'.set thread activity')[other]? := by
  rw [List.getElem?_set, List.getElem?_set, count]
  split
  next same =>
    subst same
    split
    · exact new
    · exact rfl
  next different => exact others other (Ne.symm different)

theorem paired_push {threads threads' : List (Activity K)} {activity activity' : Activity K}
    (count : threads'.length = threads.length)
    (old : ∀ other, twins.Paired inside other state state' threads[other]? threads'[other]?)
    (new : twins.Paired inside threads.length state state' (some activity) (some activity')) (other : ThreadId) :
    twins.Paired inside other state state' (threads ++ [activity])[other]? (threads' ++ [activity'])[other]? := by
  rw [List.getElem?_append, List.getElem?_append, count]
  split
  · exact old other
  next beyond =>
    rw [List.getElem?_singleton, List.getElem?_singleton]
    split
    next last =>
      obtain rfl : other = threads.length :=
        Nat.le_antisymm (Nat.sub_eq_zero_iff_le.mp last) (Nat.not_lt.mp beyond)
      exact new
    · exact rfl

end threads

namespace Beside
variable {world world' next : World K} {input input' : K.Input} {action action' : Action K}
  {actions actions' : List (Action K)}

theorem starts (related : twins.related state state') (count : Nat) :
    twins.Beside (World.initial state count) (World.initial state' count) := by
  refine ⟨rfl, related, by simp [World.initial], fun thread => ?_⟩
  simp only [World.initial, List.getElem?_replicate]
  split <;> rfl

private theorem others (sound : twins.Sound) (beside : twins.Beside world world') {thread : ThreadId}
    {inside : Option ThreadId} {after after' : K.State} (mine : ∀ other, other ≠ thread → world.current ≠ some other)
    (later : ∀ other, other ≠ thread → inside ≠ some other)
    (moves : twins.Moves world.state world'.state after after') (other : ThreadId) (different : other ≠ thread) :
    twins.Paired inside other after after' world.threads[other]? world'.threads[other]? :=
  (beside.threads other).waits sound (mine other different) (later other different) moves

private theorem begin (sound : twins.Sound) (beside : twins.Beside world world') (outside : world.current = none)
    {thread : ThreadId} {entry : S.Entry} (allowed : twins.choices.calls thread entry world.state)
    (stepped : world.begin thread entry = some next) :
    ∃ next', world'.begin thread entry = some next' ∧ twins.Beside next next' := by
  obtain ⟨after, admitted, stepped⟩ := Option.bind_eq_some_iff.mp stepped
  obtain ⟨after', admitted', moves, ready⟩ := sound.called allowed beside.related admitted
  have body : twins.Paired none thread after after' (some (.running (K.body entry)))
      (some (.running (K.body entry))) := by
    refine ⟨K.body entry, rfl, ?_⟩
    rw [if_neg nofun]
    exact fun later later' more => sound.body more.related (sound.readies more ready)
  have waits (other : ThreadId) : twins.Paired none other after after' world.threads[other]? world'.threads[other]? :=
    (beside.threads other).waits sound (by simp [outside]) nofun moves
  have outside' : world'.current = none := beside.current.trans outside
  simp only [World.begin, admitted', Option.bind_some, beside.count]
  split at stepped
  next new =>
    cases stepped
    refine ⟨_, if_pos new, outside'.trans outside.symm, moves.related, by simp [beside.count], ?_⟩
    subst new
    simp only [outside]
    exact paired_push beside.count waits body
  next old =>
    split at stepped
    next found =>
      cases stepped
      have twin := beside.threads thread
      rw [found] at twin
      rw [if_neg old, (show world'.threads[thread]? = some .idle from twin)]
      refine ⟨_, rfl, outside'.trans outside.symm, moves.related, by simp [beside.count], ?_⟩
      simp only [outside]
      exact paired_set beside.count (fun other _ => waits other) body
    · cases stepped

private theorem advance (sound : twins.Sound) (beside : twins.Beside world world') {actor : ThreadId}
    {code : Code S K.Value} (current : world.current = some actor)
    (found : world.threads[actor]? = some (.running code))
    (allowed : twins.choices.Allows (.continue input) world) (alike : twins.inputs input input')
    (stepped : world.advance actor input code = some next) :
    ∃ code' next', world'.threads[actor]? = some (.running code') ∧ world'.advance actor input' code' = some next' ∧
      twins.Beside next next' := by
  have twin := beside.threads actor
  rw [found, current] at twin
  obtain ⟨code', found', same⟩ := twin
  rw [if_pos rfl] at same
  have current' : world'.current = some actor := beside.current.trans current
  have mine (other : ThreadId) (different : other ≠ actor) : world.current ≠ some other := by
    simpa [current] using Ne.symm different
  have inside (other : ThreadId) (different : other ≠ actor) : some actor ≠ some other := by
    simpa using Ne.symm different
  refine ⟨code', ?_⟩
  cases code with
  | pure value =>
    cases stepped
    obtain ⟨value', rfl, moves⟩ := same
    refine ⟨_, found', rfl, rfl, moves.related, by simp [beside.count], ?_⟩
    exact paired_set beside.count (beside.others sound mine nofun moves) rfl
  | throw =>
    cases stepped
    cases (show code' = .throw from same)
    have moves := @Sound.threw _ _ _ sound actor _ _ beside.related
    refine ⟨_, found', rfl, rfl, moves.related, by simp [beside.count], ?_⟩
    exact paired_set beside.count (beside.others sound mine nofun moves) rfl
  | exit =>
    cases stepped
    cases (show code' = .exit from same)
    have moves := @Sound.exited _ _ _ sound actor _ _ beside.related
    refine ⟨_, found', rfl, rfl, moves.related, by simp [beside.count], fun thread => ?_⟩
    rw [List.getElem?_map, List.getElem?_map]
    exact (beside.threads thread).stopped
  | op o rest =>
    obtain ⟨rest', rfl, goes⟩ := same
    simp only [World.advance, Option.map_eq_some_iff] at stepped
    obtain ⟨⟨reply, after⟩, executed, rfl⟩ := stepped
    obtain ⟨reply', after', executed', moves, same⟩ :=
      goes input input' reply after (allowed actor o rest current found) alike executed
    refine ⟨{ world' with state := after', threads := world'.threads.set actor (.running (rest' reply')) }, found', ?_,
      beside.current, moves.related, by simp [beside.count], ?_⟩
    · simp only [World.advance, executed', Option.map_some]
    · simp only [current]
      exact paired_set beside.count (beside.others sound mine inside moves) ⟨rest' reply', rfl, (if_pos rfl).mpr same⟩
  | yield rest =>
    cases stepped
    obtain ⟨rest', rfl, goes⟩ := same
    refine ⟨_, found', rfl, rfl, beside.related, by simp [beside.count], ?_⟩
    refine paired_set beside.count (beside.others sound mine nofun (sound.stays beside.related)) ⟨rest', rfl, ?_⟩
    rw [if_neg nofun]
    exact goes
  | spawn entry rest =>
    cases stepped
    obtain ⟨rest', rfl, goes⟩ := same
    obtain ⟨ready, same⟩ := goes world.threads.length
    have moves := @Sound.spawned _ _ _ sound actor world.threads.length entry _ _ beside.related
    refine ⟨_, found', rfl, beside.current, ?_, by simp [beside.count], ?_⟩
    · simpa only [beside.count] using moves.related
    · simp only [current, beside.count]
      refine paired_push (by simp [beside.count])
        (paired_set beside.count (beside.others sound mine inside moves) ⟨_, rfl, ?_⟩) ⟨_, rfl, ?_⟩
      · rw [if_pos rfl]
        exact same
      · have within := (List.getElem?_eq_some_iff.mp found).1
        rw [if_neg (by simpa using Nat.ne_of_lt within)]
        exact fun later later' more => sound.body more.related (sound.readies more ready)
  | dispose thread rest =>
    cases stepped
    obtain ⟨rest', rfl, same⟩ := same
    have moves := @Sound.disposed _ _ _ sound actor thread _ _ beside.related
    have mineNow : twins.Paired (some actor) actor (K.disposed actor thread world.state)
        (K.disposed actor thread world'.state) (some (.running rest)) (some (.running rest')) :=
      ⟨rest', rfl, (if_pos rfl).mpr same⟩
    have now := paired_set beside.count (beside.others sound mine inside moves) mineNow
    refine ⟨_, found', rfl, rfl, moves.related, by simp [beside.count], ?_⟩
    refine paired_set (by simp [beside.count]) (fun other different => ?_) rfl
    by_cases self : thread = actor
    · rw [if_pos self]
      exact (now other).waits sound (inside other (self ▸ different)) nofun (sound.stays moves.related)
    · rw [if_neg self]
      exact now other
  | loop body turn rest =>
    cases stepped
    obtain ⟨body', turn', rest', rfl, turned⟩ := same.turn
    refine ⟨_, found', rfl, beside.current, beside.related, by simp [beside.count], ?_⟩
    simp only [current]
    refine paired_set beside.count (beside.others sound mine inside (sound.stays beside.related)) ⟨_, rfl, ?_⟩
    rw [if_pos rfl]
    exact turned

theorem step (sound : twins.Sound) (beside : twins.Beside world world') (alike : action.Alike twins.inputs action')
    (allowed : twins.choices.Allows action world) (stepped : world.step action = some next) :
    ∃ next', world'.step action' = some next' ∧ twins.Beside next next' := by
  cases current : world.current with
  | none =>
    have outside := beside.current.trans current
    cases action with
    | call thread entry =>
      obtain rfl : action' = .call thread entry := alike
      simp only [World.step, current, outside] at stepped ⊢
      exact beside.begin sound current allowed stepped
    | resume thread =>
      obtain rfl : action' = .resume thread := alike
      simp only [World.step, current, outside] at stepped ⊢
      split at stepped
      next code found =>
        cases stepped
        have twin := beside.threads thread
        rw [found] at twin
        obtain ⟨code', found', same⟩ := twin
        rw [if_neg (by simp [current])] at same
        rw [found']
        refine ⟨_, rfl, rfl, beside.related, beside.count, fun other => ?_⟩
        by_cases mine : other = thread
        · subst mine
          simp only [found, found']
          exact ⟨code', rfl, (if_pos rfl).mpr (same _ _ (sound.stays beside.related))⟩
        · refine (beside.threads other).waits sound (by simp [current]) ?_ (sound.stays beside.related)
          simpa using Ne.symm mine
      · cases stepped
    | «continue» input => simp [World.step, current] at stepped
    | environment input =>
      obtain rfl : action' = .environment input := alike
      simp only [World.step, current, outside, Option.map_eq_some_iff] at stepped ⊢
      obtain ⟨after, moved, rfl⟩ := stepped
      obtain ⟨after', moved', moves⟩ := sound.environment allowed beside.related moved
      refine ⟨_, ⟨after', moved', rfl⟩, rfl, moves.related, beside.count, fun thread => ?_⟩
      exact (beside.threads thread).waits sound (by simp [current]) (by simp) moves
  | some actor =>
    have inside := beside.current.trans current
    cases action with
    | «continue» input =>
      obtain ⟨input', rfl, alike⟩ := alike
      simp only [World.step, current, inside] at stepped ⊢
      split at stepped
      next code found =>
        obtain ⟨code', next', found', stepped', beside⟩ := beside.advance sound current found allowed alike stepped
        exact ⟨next', by rw [found']; exact stepped', beside⟩
      · cases stepped
    | call | resume | environment => simp [World.step, current] at stepped

/-- Threads in step are about to do the same operation. -/
theorem pending (beside : twins.Beside world world') : world'.pending = world.pending := by
  rw [World.pending, World.pending, beside.current]
  cases current : world.current with
  | none => rfl
  | some actor =>
    have twin := beside.threads actor
    rw [Option.bind_some, Option.bind_some]
    rcases found : world.threads[actor]? with _ | _ | code | _
    · rw [found] at twin
      rw [show world'.threads[actor]? = none from twin]
    · rw [found] at twin
      rw [show world'.threads[actor]? = some .idle from twin]
    · rw [found] at twin
      obtain ⟨code', found', same⟩ := twin
      rw [if_pos current] at same
      rw [found']
      exact congrArg (Option.map (actor, ·)) same.head
    · rw [found] at twin
      rw [show world'.threads[actor]? = some .stopped from twin]

/-- A run has a twin, which does the same operations. -/
theorem run (sound : twins.Sound) (alike : List.Forall₂ (Action.Alike twins.inputs) actions actions')
    (beside : twins.Beside world world') (allowed : twins.choices.Allowed actions world)
    (ran : world.run actions = some next) :
    ∃ next', world'.run actions' = some next' ∧ twins.Beside next next' ∧
      world'.operations actions' = world.operations actions := by
  induction alike generalizing world world' with
  | nil =>
    cases ran
    exact ⟨world', rfl, beside, rfl⟩
  | cons first _ ih =>
    obtain ⟨middle, stepped, ran⟩ := Option.bind_eq_some_iff.mp ran
    obtain ⟨middle', stepped', later⟩ := beside.step sound first allowed.1 stepped
    obtain ⟨next', ran', last, operations⟩ := ih later (allowed.2 middle stepped) ran
    refine ⟨next', by simp [World.run, stepped', ran'], last, ?_⟩
    simp only [World.operations, stepped, stepped', beside.pending, operations]

end Beside
end Twins
end Coop
