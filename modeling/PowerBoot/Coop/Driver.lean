import PowerBoot.Coop.Log
import PowerBoot.Coop.Passage

/-! A program that uses a machine. It has a thread of its own, on which it makes one call
after the other and goes on with what each returns; beside that it prints. -/

namespace Coop
variable {S : Signature} {K : Kernel S} {Thrown Out : Type} {α β : Type}

/-- What a program asks for: a call of the machine, or a line of output. -/
inductive Request (S : Signature) (Out : Type) where
  | call (entry : S.Entry)
  | say (out : Out)

@[reducible] def Request.Reply (K : Kernel S) (Thrown : Type) : Request S Out → Type
  | .call _ => Except Thrown K.Value
  | .say _ => Unit

/-- A program creates no threads. -/
@[reducible] def driving (K : Kernel S) (Thrown Out : Type) : Signature where
  Op := Request S Out
  Reply := Request.Reply K Thrown
  Entry := Empty

abbrev Driving (K : Kernel S) (Thrown Out : Type) := Code (driving K Thrown Out)

/-- What a program has done: a call together with what came of it, or a line of output. -/
inductive Told (K : Kernel S) (Thrown Out : Type) where
  | called (entry : S.Entry) (reply : Except Thrown K.Value)
  | said (out : Out)

/-- The program alone, where a call may end with anything. -/
@[reducible] def teller (K : Kernel S) (Thrown Out : Type) : Kernel (driving K Thrown Out) where
  State := List (Told K Thrown Out)
  Input := Option (Except Thrown K.Value)
  Value := Unit
  body := nofun
  exec _ o input story := match o with
    | .call entry => input.map fun reply => (reply, story ++ [.called entry reply])
    | .say out => some ((), story ++ [.said out])
  called := nofun
  spawned := nofun
  disposed _ _ story := story
  exited _ story := story
  returned _ _ story := story
  threw _ story := story
  environment _ _ := none

/-- A part of a program that ends where a call throws. -/
abbrev Trying (K : Kernel S) (Thrown Out : Type) := ExceptT Thrown (Driving K Thrown Out)

namespace Driving

def say (out : Out) : Driving K Thrown Out Unit := Code.call (S := driving K Thrown Out) (.say out)

def invoke (entry : S.Entry) : Trying K Thrown Out K.Value :=
  ExceptT.mk (Code.call (S := driving K Thrown Out) (.call entry))

/-- Repeat `body` until it answers with `Sum.inr` or throws. -/
def repeats (body : β → Trying K Thrown Out (β ⊕ α)) (turn : β) : Trying K Thrown Out α :=
  ExceptT.mk (Code.iterate (fun turn => do
    match ← (body turn).run with
    | .ok (.inl turn) => return .inl turn
    | .ok (.inr value) => return .inr (.ok value)
    | .error thrown => return .inr (.error thrown)) turn)

end Driving

/-- The program and the machine that it uses. While it is busy, its code is at the call that
its thread is executing. -/
structure Driven (K : Kernel S) (Thrown Out : Type) where
  world : World K
  code : Driving K Thrown Out Unit
  busy : Bool := false
  story : List (Told K Thrown Out) := []

/-- A move of the machine, or one of the program: it goes on by itself, or with what has
become of its call. -/
inductive Move (K : Kernel S) (Thrown : Type) where
  | machine (action : Action K)
  | program
  | returns (input : K.Input)
  | throws (input : K.Input) (thrown : Thrown)

namespace Driven

/-- The machine moves while the program is in a call, at a yield or at its end. -/
def waits (driven : Driven K Thrown Out) : Bool :=
  driven.busy || match driven.code with
    | .op .. | .loop .. => false
    | _ => true

/-- The next step of the thread is the last one of its call. -/
def completes (thread : ThreadId) (world : World K) : Bool :=
  world.current = some thread && match world.threads[thread]? with
    | some (.running (.pure _)) | some (.running .throw) => true
    | _ => false

/-- The program makes its call, and the thread goes on with the code of it. -/
def enter (thread : ThreadId) (entry : S.Entry) (driven : Driven K Thrown Out) : Option (Driven K Thrown Out) := do
  let begun ← driven.world.step (.call thread entry)
  let world ← begun.step (.resume thread)
  return { driven with world, busy := true }

/-- What the program does by itself. -/
def proceed (thread : ThreadId) (driven : Driven K Thrown Out) : Option (Driven K Thrown Out) :=
  match driven.code with
  | .op (.call entry) _ => driven.enter thread entry
  | .op (.say out) next => some { driven with code := next (), story := driven.story ++ [.said out] }
  | .yield next => if driven.world.current = none then some { driven with code := next } else none
  | .loop body turn next => some { driven with code := (body turn).bind (.turn body next) }
  | _ => none

/-- The call is over, and the program goes on with the reply. -/
def leave (input : K.Input) (reply : Except Thrown K.Value) (driven : Driven K Thrown Out) :
    Option (Driven K Thrown Out) :=
  match driven.code with
  | .op (.call entry) next => (driven.world.step (.continue input)).map fun world =>
    { world, code := next reply, story := driven.story ++ [.called entry reply] }
  | _ => none

def step (thread : ThreadId) (move : Move K Thrown) (driven : Driven K Thrown Out) : Option (Driven K Thrown Out) :=
  match move with
  | .machine (.call ..) => none
  | .machine action =>
    if driven.waits && !completes thread driven.world then
      (driven.world.step action).map fun world => { driven with world }
    else none
  | .program => if driven.busy then none else driven.proceed thread
  | .returns input =>
    if driven.busy && driven.world.current = some thread then
      match driven.world.threads[thread]? with
      | some (.running (.pure value)) => driven.leave input (.ok value)
      | _ => none
    else none
  | .throws input thrown =>
    if driven.busy && driven.world.current = some thread then
      match driven.world.threads[thread]? with
      | some (.running .throw) => driven.leave input (.error thrown)
      | _ => none
    else none

/-- The run in which the program starts on an idle thread. -/
def initial (state : K.State) (count : Nat) (program : Driving K Thrown Out Unit) : Driven K Thrown Out :=
  { world := .initial state count, code := program }

section moves
variable {thread : ThreadId} {driven next : Driven K Thrown Out} {input : K.Input}

theorem step_machine {action : Action K} (stepped : driven.step thread (.machine action) = some next) :
    (∀ actor entry, action ≠ .call actor entry) ∧ completes thread driven.world = false ∧
      ∃ world, driven.world.step action = some world ∧ next = { driven with world } := by
  have moves (calls : ∀ actor entry, action ≠ .call actor entry)
      (taken : (if driven.waits && !completes thread driven.world then
        (driven.world.step action).map fun world => { driven with world } else none) = some next) :
      (∀ actor entry, action ≠ .call actor entry) ∧ completes thread driven.world = false ∧
        ∃ world, driven.world.step action = some world ∧ next = { driven with world } := by
    split at taken
    next free =>
      obtain ⟨world, moved, rfl⟩ := Option.map_eq_some_iff.mp taken
      rw [Bool.and_eq_true, Bool.not_eq_true'] at free
      exact ⟨calls, free.2, world, moved, rfl⟩
    · cases taken
  cases action with
  | call => cases stepped
  | resume | «continue» | environment => exact moves nofun stepped

theorem step_program (stepped : driven.step thread .program = some next) :
    driven.busy = false ∧ driven.proceed thread = some next := by
  rw [step] at stepped
  split at stepped
  · cases stepped
  next free => exact ⟨by simpa using free, stepped⟩

theorem step_returns (stepped : driven.step thread (.returns input) = some next) :
    driven.busy = true ∧ driven.world.current = some thread ∧ ∃ value,
      driven.world.threads[thread]? = some (.running (.pure value)) ∧ driven.leave input (.ok value) = some next := by
  rw [step] at stepped
  split at stepped
  next busy =>
    rw [Bool.and_eq_true, decide_eq_true_eq] at busy
    split at stepped
    next value found => exact ⟨busy.1, busy.2, value, found, stepped⟩
    · cases stepped
  · cases stepped

theorem step_throws {thrown : Thrown} (stepped : driven.step thread (.throws input thrown) = some next) :
    driven.busy = true ∧ driven.world.current = some thread ∧
      driven.world.threads[thread]? = some (.running .throw) ∧ driven.leave input (.error thrown) = some next := by
  rw [step] at stepped
  split at stepped
  next busy =>
    rw [Bool.and_eq_true, decide_eq_true_eq] at busy
    split at stepped
    next found => exact ⟨busy.1, busy.2, found, stepped⟩
    · cases stepped
  · cases stepped

end moves

/-- The first of the moves that is possible is made, `count` times. -/
def play (thread : ThreadId) (moves : List (Move K Thrown)) : Nat → Driven K Thrown Out → Driven K Thrown Out
  | 0, driven => driven
  | count + 1, driven => match moves.findSome? fun move => driven.step thread move with
    | some next => play thread moves count next
    | none => driven

/-- What is reached while the machine keeps to the choices. -/
inductive Reaches (choices : Choices K) (thread : ThreadId) (start : Driven K Thrown Out) :
    Driven K Thrown Out → Prop where
  | start : Reaches choices thread start start
  | step {driven next : Driven K Thrown Out} {move : Move K Thrown} (before : Reaches choices thread start driven)
      (allowed : ∀ action, move = .machine action → choices.Allows action driven.world)
      (stepped : driven.step thread move = some next) : Reaches choices thread start next

end Driven

/-- Whatever else it does, the code gives only such values. -/
def Code.GivesOnly (post : α → Prop) : Code S α → Prop
  | .pure value => post value
  | .throw | .exit => True
  | .op _ next => ∀ reply, (next reply).GivesOnly post
  | .yield next | .dispose _ next => next.GivesOnly post
  | .spawn _ next => ∀ child, (next child).GivesOnly post
  | .loop _ _ next => ∀ value, (next value).GivesOnly post

theorem Code.GivesOnly.bind {code : Code S α} {rest : α → Code S β} {post : β → Prop}
    (gives : ∀ value, (rest value).GivesOnly post) : (code.bind rest).GivesOnly post := by
  induction code with
  | pure value => exact gives value
  | throw | exit => trivial
  | op o next ih => exact fun reply => ih reply gives
  | yield next ih | dispose thread next ih => exact ih gives
  | spawn entry next ih => exact fun child => ih child gives
  | loop body turn next _ ih => exact fun value => ih value gives

theorem Code.GivesOnly.turn {γ : Type} {body : β → Code S (β ⊕ γ)} {turn : β} {next : γ → Code S α} {post : α → Prop}
    (gives : (Code.loop body turn next).GivesOnly post) : ((body turn).bind (.turn body next)).GivesOnly post := by
  apply Code.GivesOnly.bind
  rintro (turn | value)
  · exact gives
  · exact gives value

/-- Where a call begins or ends. -/
inductive Turning (K : Kernel S) where
  | began (caller : ThreadId) (entry : S.Entry)
  | ended (value : Option K.Value)

def Told.turnings (thread : ThreadId) : Told K Thrown Out → List (Turning K)
  | .called entry reply => [.began thread entry, .ended reply.toOption]
  | .said _ => []

/-- The state keeps the history of all calls that have begun, and of how those of one
thread have ended. -/
structure Kernel.Recounts (K : Kernel S) (thread : ThreadId) (history : K.State → List (Turning K)) : Prop where
  exec : ∀ {actor o input state reply after}, K.exec actor o input state = some (reply, after) →
    history after = history state
  called : ∀ {actor entry state after}, K.called actor entry state = some after →
    history after = history state ++ [.began actor entry]
  spawned : ∀ {actor child entry state}, history (K.spawned actor child entry state) = history state
  disposed : ∀ {actor other state}, history (K.disposed actor other state) = history state
  exited : ∀ {actor state}, history (K.exited actor state) = history state
  returned : ∀ {value state}, history (K.returned thread value state) = history state ++ [.ended (some value)]
  threw : ∀ {state}, history (K.threw thread state) = history state ++ [.ended none]
  returns : ∀ {actor value state}, actor ≠ thread → history (K.returned actor value state) = history state
  throws : ∀ {actor state}, actor ≠ thread → history (K.threw actor state) = history state
  environment : ∀ {input state after}, K.environment input state = some after → history after = history state

/-- Nothing happens to the calls of the thread, which can only go on or stop. -/
structure Passes (thread : ThreadId) (history : K.State → List (Turning K)) (world next : World K) : Prop where
  history : history next.state = history world.state
  inside : thread < next.threads.length
  thread : ∀ code, next.threads[thread]? = some (.running code) →
    ∃ earlier, world.threads[thread]? = some (.running earlier) ∧ ∀ post, earlier.GivesOnly post → code.GivesOnly post

namespace Kernel.Recounts
variable {thread : ThreadId} {history : K.State → List (Turning K)} (recounts : K.Recounts thread history)
  {world next : World K}
include recounts

private theorem advance {actor : ThreadId} {input : K.Input} {code : Code S K.Value}
    (found : world.threads[actor]? = some (.running code)) (stepped : world.advance actor input code = some next)
    (inside : thread < world.threads.length)
    (goes : actor = thread → (∀ value, code ≠ .pure value) ∧ code ≠ .throw) : Passes thread history world next := by
  have other (idle : actor ≠ thread) (mine : Activity K) (code : Code S K.Value)
      (later : (world.threads.set actor mine)[thread]? = some (.running code)) : ∃ earlier,
      world.threads[thread]? = some (.running earlier) ∧ ∀ post, earlier.GivesOnly post → code.GivesOnly post := by
    rw [List.getElem?_set_ne idle] at later
    exact ⟨code, later, fun _ gives => gives⟩
  have mine (rest : Code S K.Value) (gives : ∀ post, code.GivesOnly post → rest.GivesOnly post) (last : Code S K.Value)
      (later : (world.threads.set actor (.running rest))[thread]? = some (.running last)) : ∃ earlier,
      world.threads[thread]? = some (.running earlier) ∧ ∀ post, earlier.GivesOnly post → last.GivesOnly post := by
    by_cases same : actor = thread
    · subst same
      rw [List.getElem?_set_self inside] at later
      cases later
      exact ⟨code, found, gives⟩
    · exact other same _ _ later
  cases code with
  | pure value =>
    cases stepped
    have idle : actor ≠ thread := fun same => (goes same).1 value rfl
    exact ⟨recounts.returns idle, by simpa using inside, other idle _⟩
  | throw =>
    cases stepped
    have idle : actor ≠ thread := fun same => (goes same).2 rfl
    exact ⟨recounts.throws idle, by simpa using inside, other idle _⟩
  | exit =>
    cases stepped
    exact ⟨recounts.exited, by simpa using inside, fun code later => by simp [inside] at later⟩
  | op o rest =>
    obtain ⟨⟨reply, after⟩, executed, rfl⟩ := Option.map_eq_some_iff.mp stepped
    exact ⟨recounts.exec executed, by simpa using inside, mine _ fun _ gives => gives reply⟩
  | yield rest =>
    cases stepped
    exact ⟨rfl, by simpa using inside, mine _ fun _ gives => gives⟩
  | spawn entry rest =>
    cases stepped
    refine ⟨recounts.spawned, Nat.lt_of_lt_of_le inside (by simp), fun code later => ?_⟩
    rw [List.getElem?_append_left (by simpa using inside)] at later
    exact mine _ (fun _ gives => gives _) code later
  | dispose gone rest =>
    cases stepped
    refine ⟨recounts.disposed, by simpa using inside, fun code later => ?_⟩
    rw [List.getElem?_set] at later
    split at later
    · split at later <;> cases later
    · exact mine rest (fun _ gives => gives) code later
  | loop body turn rest =>
    cases stepped
    exact ⟨rfl, by simpa using inside, mine _ fun _ gives => gives.turn⟩

/-- A move of the machine that neither begins a call nor ends one of the thread. -/
theorem passes {action : Action K} (stepped : world.step action = some next) (inside : thread < world.threads.length)
    (calls : ∀ actor entry, action ≠ .call actor entry) (goes : Driven.completes thread world = false) :
    Passes thread history world next := by
  have still {world next : World K} (same : history next.state = history world.state)
      (threads : next.threads = world.threads) (inside : thread < world.threads.length) :
      Passes thread history world next :=
    ⟨same, threads ▸ inside, fun code later => ⟨code, threads ▸ later, fun _ gives => gives⟩⟩
  unfold World.step at stepped
  split at stepped
  · exact (calls _ _ rfl).elim
  · split at stepped <;> cases stepped
    exact still rfl rfl inside
  · obtain ⟨state, moved, rfl⟩ := Option.map_eq_some_iff.mp stepped
    exact still (recounts.environment moved) rfl inside
  next actor input current =>
    split at stepped
    next code found =>
      refine recounts.advance found stepped inside ?_
      rintro rfl
      constructor
      · rintro value rfl
        simp [Driven.completes, current, found] at goes
      · rintro rfl
        simp [Driven.completes, current, found] at goes
    · cases stepped
  · cases stepped

end Kernel.Recounts

/-- The values in a story are those that the calls give. -/
def Fitting (fits : S.Entry → K.Value → Prop) (story : List (Told K Thrown Out)) : Prop :=
  ∀ entry value, .called entry (.ok value) ∈ story → fits entry value

variable (choices : Choices K) (thread : ThreadId) (program : Driving K Thrown Out Unit)
  (history : K.State → List (Turning K)) (fits : S.Entry → K.Value → Prop)

/-- All calls are those that the program comes to, after a story that the state recounts. -/
def Choices.driven : Choices K where
  answers := choices.answers
  calls actor entry state := actor = thread ∧ ∃ next story,
    Runs (K := teller K Thrown Out) thread program [] (.op (.call entry) next) story ∧ Fitting fits story ∧
    history state = story.flatMap (Told.turnings thread)
  moves := choices.moves

/-- What the call in progress adds to the history. -/
def Driven.begun (driven : Driven K Thrown Out) : List (Turning K) :=
  match driven.busy, driven.code with
  | true, .op (.call entry) _ => [.began thread entry]
  | _, _ => []

/-- What holds at each moment of a run: the program has done what it could have done alone,
and the machine has been called as the story says. -/
structure Driven.Follows (start : World K) (driven : Driven K Thrown Out) : Prop where
  tells : Runs (K := teller K Thrown Out) thread program [] driven.code driven.story
  fitting : Fitting fits driven.story
  recounts : history driven.world.state = driven.story.flatMap (Told.turnings thread) ++ driven.begun thread
  inside : thread < driven.world.threads.length
  calls : driven.busy = true → ∃ entry next, driven.code = .op (.call entry) next
  idle : driven.busy = false → ∀ code, driven.world.threads[thread]? ≠ some (.running code)
  gives : ∀ code entry next, driven.code = .op (.call entry) next →
    driven.world.threads[thread]? = some (.running code) → code.GivesOnly (fits entry)
  reached : (choices.driven thread program history fits).Reaches start driven.world

namespace Driven.Follows
variable {choices thread program history fits} {start : World K} {driven next : Driven K Thrown Out}
  (follows : driven.Follows choices thread program history fits start) (recounts : K.Recounts thread history)

theorem unbegun (free : driven.busy = false) : driven.begun thread = [] := by rw [Driven.begun, free]

include follows

include recounts in
theorem machine {action : Action K} {world : World K} (stepped : driven.world.step action = some world)
    (calls : ∀ actor entry, action ≠ .call actor entry) (goes : completes thread driven.world = false)
    (allowed : choices.Allows action driven.world) :
    ({ driven with world } : Driven K Thrown Out).Follows choices thread program history fits start := by
  have passes := recounts.passes stepped follows.inside calls goes
  refine ⟨follows.tells, follows.fitting, passes.history.trans follows.recounts, passes.inside, follows.calls,
    fun free code found => ?_, fun code entry next here found => ?_, follows.reached.trans _ (.step .start ?_ stepped)⟩
  · obtain ⟨earlier, running, _⟩ := passes.thread code found
    exact follows.idle free earlier running
  · obtain ⟨earlier, running, gives⟩ := passes.thread code found
    exact gives _ (follows.gives earlier entry next here running)
  · cases action with
    | call actor entry => exact (calls actor entry rfl).elim
    | resume | «continue» | environment => exact allowed

include recounts in
theorem enter {entry : S.Entry} {rest : Except Thrown K.Value → Driving K Thrown Out Unit}
    (fit : ∀ entry, (K.body entry).GivesOnly (fits entry)) (free : driven.busy = false)
    (here : driven.code = .op (.call entry) rest) (entered : driven.enter thread entry = some next) :
    next.Follows choices thread program history fits start := by
  simp only [Driven.enter, Option.bind_eq_bind, Option.bind_eq_some_iff] at entered
  obtain ⟨begun, called, world, resumed, entered⟩ := entered
  cases entered
  obtain ⟨admitted, outside, found⟩ := World.step_call called
  obtain rfl : { begun with current := some thread } = world := by simpa [World.step, outside, found] using resumed
  have earlier : history driven.world.state = driven.story.flatMap (Told.turnings thread) := by
    rw [follows.recounts, unbegun free, List.append_nil]
  refine ⟨follows.tells, follows.fitting, ?_, (List.getElem?_eq_some_iff.mp found).1, fun _ => ⟨entry, rest, here⟩,
    (fun free => by cases free), fun code other next now running => ?_, ?_⟩
  · rw [recounts.called admitted, earlier, Driven.begun, here]
  · cases here.symm.trans now
    cases found.symm.trans running
    exact fit entry
  · have told := follows.tells
    rw [here] at told
    have calls : (choices.driven thread program history fits).Allows (.call thread entry) driven.world :=
      ⟨rfl, rest, driven.story, told, follows.fitting, earlier⟩
    have goes : (choices.driven thread program history fits).Allows (.resume thread) begun := trivial
    exact follows.reached.trans _ (.step (.step .start calls called) goes resumed)

/-- The call ends, and the history says how. -/
theorem leave {input : K.Input} {reply : Except Thrown K.Value} {code : Code S K.Value}
    (left : driven.leave input reply = some next) (busy : driven.busy = true)
    (current : driven.world.current = some thread) (found : driven.world.threads[thread]? = some (.running code))
    (ended : ∀ world, driven.world.step (.continue input) = some world →
      world.threads = driven.world.threads.set thread .idle ∧
        history world.state = history driven.world.state ++ [.ended reply.toOption])
    (quiet : ∀ o rest, code ≠ .op o rest)
    (fit : ∀ post value, code.GivesOnly post → reply = .ok value → post value) :
    next.Follows choices thread program history fits start := by
  obtain ⟨entry, rest, here⟩ := follows.calls busy
  simp only [Driven.leave, here] at left
  obtain ⟨world, stepped, rfl⟩ := Option.map_eq_some_iff.mp left
  obtain ⟨threads, told⟩ := ended world stepped
  have still (code : Code S K.Value) : world.threads[thread]? ≠ some (.running code) := by
    rw [threads, List.getElem?_set_self follows.inside]
    simp
  refine ⟨?_, ?_, ?_, ?_, (fun busy => by cases busy), fun _ => still,
    fun code _ _ _ running => (still code running).elim, ?_⟩
  · have tells := follows.tells
    rw [here] at tells
    exact tells.trans (.op (show (teller K Thrown Out).exec thread _ (some reply) _ = _ from rfl) (.here _ _))
  · intro other value member
    rcases List.mem_append.mp member with earlier | last
    · exact follows.fitting other value earlier
    · cases List.mem_singleton.mp last
      exact fit _ value (follows.gives code entry rest here found) rfl
  · rw [told, follows.recounts, Driven.begun, busy, here, Driven.begun, List.flatMap_append, List.flatMap_singleton]
    simp [Told.turnings]
  · rw [threads, List.length_set]
    exact follows.inside
  · refine follows.reached.trans _ (.step .start ?_ stepped)
    intro actor o next inside running
    cases current.symm.trans inside
    cases found.symm.trans running
    exact (quiet _ _ rfl).elim

include recounts in
theorem step {move : Move K Thrown} (fit : ∀ entry, (K.body entry).GivesOnly (fits entry))
    (allowed : ∀ action, move = .machine action → choices.Allows action driven.world)
    (stepped : driven.step thread move = some next) : next.Follows choices thread program history fits start := by
  cases move with
  | machine action =>
    obtain ⟨calls, goes, world, moved, rfl⟩ := step_machine stepped
    exact follows.machine recounts moved calls goes (allowed action rfl)
  | program =>
    obtain ⟨free, proceeds⟩ := step_program stepped
    rw [Driven.proceed] at proceeds
    have onward (code : Driving K Thrown Out Unit) (more : List (Told K Thrown Out))
        (tells : Runs (K := teller K Thrown Out) thread driven.code driven.story code (driven.story ++ more))
        (silent : more.flatMap (Told.turnings thread) = []) (fitting : Fitting fits more) :
        ({ driven with code, story := driven.story ++ more } : Driven K Thrown Out).Follows
          choices thread program history fits start := by
      refine ⟨follows.tells.trans tells, ?_, ?_, follows.inside, fun busy => ?_, follows.idle,
        fun now _ _ _ running => (follows.idle free now running).elim, follows.reached⟩
      · intro entry value member
        exact (List.mem_append.mp member).elim (follows.fitting entry value) (fitting entry value)
      · rw [follows.recounts, unbegun free, Driven.begun, List.flatMap_append, silent]
        simp [free]
      · cases free.symm.trans busy
    split at proceeds
    next entry rest here => exact follows.enter recounts fit free here proceeds
    next out rest here =>
      cases proceeds
      refine onward _ [.said out] ?_ rfl fun _ _ member => by simp at member
      rw [here]
      exact .op (show (teller K Thrown Out).exec thread _ none _ = _ from rfl) (.here _ _)
    next rest here =>
      split at proceeds <;> cases proceeds
      have gone := onward rest [] (by rw [here, List.append_nil]; exact .yield (.here _ _)) rfl fun _ _ member => by
        cases member
      rwa [List.append_nil] at gone
    next body turn rest here =>
      cases proceeds
      have gone := onward _ [] (by rw [here, List.append_nil]; exact .loop (.here _ _)) rfl fun _ _ member => by
        cases member
      rwa [List.append_nil] at gone
    · cases proceeds
  | returns input =>
    obtain ⟨busy, current, value, found, left⟩ := step_returns stepped
    refine follows.leave left busy current found (fun world moved => ?_)
      (fun _ _ same => by cases same) fun post given gives same => ?_
    · simp only [World.step, current, found] at moved
      cases moved
      exact ⟨rfl, recounts.returned⟩
    · cases same
      exact gives
  | throws input thrown =>
    obtain ⟨busy, current, found, left⟩ := step_throws stepped
    refine follows.leave left busy current found (fun world moved => ?_)
      (fun _ _ same => by cases same) fun _ _ _ same => by cases same
    simp only [World.step, current, found] at moved
    cases moved
    exact ⟨rfl, recounts.threw⟩

end Driven.Follows

namespace Driven
variable {choices thread program history fits}

/-- In every run the program keeps to its code, and the machine to the calls that it makes. -/
theorem Reaches.follows {state : K.State} {count : Nat} {driven : Driven K Thrown Out}
    (reached : Reaches choices thread (.initial state count program) driven) (recounts : K.Recounts thread history)
    (fit : ∀ entry, (K.body entry).GivesOnly (fits entry)) (empty : history state = []) (inside : thread < count) :
    driven.Follows choices thread program history fits (.initial state count) := by
  induction reached with
  | start =>
    refine ⟨.here _ _, (fun _ _ member => by cases member), empty, by simpa [initial, World.initial] using inside,
      (fun busy => by cases busy), fun _ code found => ?_,
      fun code _ _ _ found => ?_, .start⟩ <;> simp [initial, World.initial, inside] at found
  | step _ allowed stepped ih => exact ih.step recounts fit allowed stepped

theorem Reaches.trans {first middle last : Driven K Thrown Out} (before : Reaches choices thread first middle)
    (after : Reaches choices thread middle last) : Reaches choices thread first last := by
  induction after with
  | start => exact before
  | step _ allowed stepped ih => exact ih.step allowed stepped

theorem Reaches.play {moves : List (Move K Thrown)} {count : Nat} {start driven : Driven K Thrown Out}
    (reached : Reaches choices thread start driven)
    (free : ∀ action, .machine action ∈ moves → ∀ world, choices.Allows action world) :
    Reaches choices thread start (driven.play thread moves count) := by
  induction count generalizing driven with
  | zero => exact reached
  | succ count ih =>
    rw [Driven.play]
    split
    next next found =>
      obtain ⟨move, member, stepped⟩ := List.exists_of_findSome?_eq_some found
      exact ih (reached.step (fun action same => free action (same ▸ member) _) stepped)
    · exact reached

end Driven

namespace Driving
variable {during stops : List (Told K Thrown Out) → Prop} {story : List (Told K Thrown Out)} {thread : ThreadId}

theorem passes_bind {first : Trying K Thrown Out α} {rest : α → Trying K Thrown Out β}
    {post : Except Thrown β → List (Told K Thrown Out) → Prop}
    (passes : Passage (K := teller K Thrown Out) thread during stops first.run (fun
      | .ok value => Passage (K := teller K Thrown Out) thread during stops (rest value).run post
      | .error thrown => post (.error thrown)) story) :
    Passage (K := teller K Thrown Out) thread during stops (first >>= rest).run post story := by
  refine Passage.bind (passes.mono ?_)
  rintro (thrown | value) story now done
  · exact ⟨now, done⟩
  · exact done

theorem passes_lift {code : Driving K Thrown Out α} {post : Except Thrown α → List (Told K Thrown Out) → Prop}
    (passes : Passage (K := teller K Thrown Out) thread during stops code (fun value => post (.ok value)) story) :
    Passage (K := teller K Thrown Out) thread during stops (ExceptT.lift code).run post story :=
  Passage.bind (passes.mono fun _ _ now done => ⟨now, done⟩)

theorem passes_invoke {entry : S.Entry} {post : Except Thrown K.Value → List (Told K Thrown Out) → Prop}
    (now : during story) (replied : ∀ reply, during (story ++ [.called entry reply]) ∧
      post reply (story ++ [.called entry reply])) :
    Passage (K := teller K Thrown Out) thread during stops (invoke entry).run post story := by
  refine ⟨now, fun input reply after executed => ?_⟩
  obtain ⟨_, rfl, same⟩ := Option.map_eq_some_iff.mp executed
  cases same
  exact replied reply

theorem passes_say {out : Out} {post : List (Told K Thrown Out) → Prop} (now : during story)
    (then_ : during (story ++ [.said out]) ∧ post (story ++ [.said out])) :
    Passage (K := teller K Thrown Out) thread during stops (say out) (fun _ => post) story := by
  refine ⟨now, fun input reply after executed => ?_⟩
  cases executed
  exact then_

/-- A loop that can throw keeps an assertion from turn to turn. -/
theorem passes_repeats {body : β → Trying K Thrown Out (β ⊕ α)} {turn : β}
    {post : Except Thrown α → List (Told K Thrown Out) → Prop} (each : β → List (Told K Thrown Out) → Prop)
    (holds : each turn story)
    (turns : ∀ turn story, each turn story →
      Passage (K := teller K Thrown Out) thread during stops (body turn).run (fun
        | .ok (.inl turn) => each turn
        | .ok (.inr value) => post (.ok value)
        | .error thrown => post (.error thrown)) story) :
    Passage (K := teller K Thrown Out) thread during stops (repeats body turn).run post story := by
  refine Passage.iterate each holds fun turn story kept => Passage.bind ((turns turn story kept).mono ?_)
  rintro (thrown | turn | value) story now done
  · exact ⟨now, done⟩
  · exact ⟨now, done⟩
  · exact ⟨now, done⟩

end Driving
end Coop
