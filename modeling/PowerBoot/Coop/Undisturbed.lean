import PowerBoot.Coop.Allowance
import PowerBoot.Coop.Alone

/-! Code that nobody disturbs. Where the others change nothing that a thread can see, it
goes on after each of its yields as if it had run alone up to there. -/

namespace Coop
variable {S : Signature} {K : Kernel S}

/-- The choices, where something is known of every state. -/
def Choices.knowing (choices : Choices K) (known : K.State → Prop) : Choices K where
  answers actor o input state := choices.answers actor o input state ∧ known state
  calls thread entry state := choices.calls thread entry state ∧ known state
  moves input state := choices.moves input state ∧ known state

theorem Choices.Reaches.knowing {choices : Choices K} {known : K.State → Prop} {start world : World K}
    (everywhere : ∀ world, choices.Reaches start world → known world.state) (reached : choices.Reaches start world) :
    (choices.knowing known).Reaches start world := by
  induction reached with
  | start => exact .start
  | @step world next action before allowed stepped ih =>
    refine .step ih ?_ stepped
    have known := everywhere world before
    cases action with
    | «continue» input => exact fun actor o rest current found => ⟨allowed actor o rest current found, known⟩
    | resume => trivial
    | call | environment => exact ⟨allowed, known⟩

/-- The run passes through this state right after a call. -/
def Choices.Begun (choices : Choices K) (start world : World K) (thread : ThreadId) (entry : S.Entry)
    (begun : K.State) : Prop :=
  ∃ before after, choices.Reaches start before ∧ choices.Allows (.call thread entry) before ∧
    before.step (.call thread entry) = some after ∧ choices.Reaches after world ∧ after.state = begun

/-- The choices, where the states that calls lead to are of one kind. -/
def Choices.calling (choices : Choices K) (begun : ThreadId → S.Entry → K.State → Prop) : Choices K :=
  { choices with calls := fun thread entry state => choices.calls thread entry state ∧
      ∀ after, K.called thread entry state = some after → begun thread entry after }

theorem Choices.Reaches.calling {choices : Choices K} {start world : World K} (reached : choices.Reaches start world) :
    (choices.calling (choices.Begun start world)).Reaches start world := by
  suffices ∀ middle, choices.Reaches start middle → choices.Reaches middle world →
    (choices.calling (choices.Begun start world)).Reaches start middle from this world reached .start
  intro middle before
  induction before with
  | start => exact fun _ => .start
  | @step earlier next action before allowed stepped ih =>
    intro later
    refine .step (ih (.trans _ (.step .start allowed stepped) later)) ?_ stepped
    cases action with
    | call thread entry =>
      refine ⟨allowed, fun state called => ⟨earlier, next, before, allowed, stepped, later, ?_⟩⟩
      exact Option.some.inj ((World.step_call stepped).1.symm.trans called)
    | resume | «continue» | environment => exact allowed

theorem Choices.keeping_allows {choices : Choices K} {step : ThreadId → K.State → K.State → Prop} {action : Action K}
    {world : World K} (allowed : (choices.keeping step).Allows action world) : choices.Allows action world := by
  cases action with
  | «continue» => exact fun actor o rest current found => (allowed actor o rest current found).1
  | call | resume | environment => exact allowed

/-- What sound rules say of every state and of every operation may be taken for granted in
another proof about the same runs. -/
theorem Rules.Sound.knowing {rules : Rules K} (sound : rules.Sound) {property : K.State → Prop} {choices : Choices K}
    {start world : World K} (safe : rules.Safe start) (outside : start.current = none)
    (kept : ∀ state, rules.invariant state → property state)
    (stepped : ∀ actor before after, rules.step actor before after → property after)
    (allowed : ∀ action world, choices.Allows action world → rules.choices.Allows action world)
    (reached : choices.Reaches start world) : ((choices.keeping rules.step).knowing property).Reaches start world :=
  (sound.keeping safe allowed reached).knowing fun _ earlier =>
    sound.everywhere safe outside kept stepped
      (earlier.mono _ fun action world now => allowed action world (Choices.keeping_allows now))

variable (actor : ThreadId) {α : Type}

/-- The thread, which began the whole code at `begun`, sees a state in which it could be
alone. `sees` relates that state to the present one. -/
def Alongside (sees : K.State → K.State → Prop) (whole : Code S α) (begun now : K.State) : Prop :=
  ∃ rest ghost, Runs actor whole begun rest ghost ∧ sees ghost now

namespace Rules
variable (rules : Rules K)

/-- Operations do the same in the state of the lone run, what the others do is not seen, and
the thread may go on from whatever it has reached. -/
structure Undisturbed (may : Allowance S) (sees : K.State → K.State → Prop) (whole : Code S α) (begun : K.State) :
    Prop where
  same : ∀ o input now reply after ghost, may.ops o → rules.choices.answers actor o input now →
    K.exec actor o input now = some (reply, after) → rules.invariant now → sees ghost now →
    may.replies o reply ∧ ∃ last, K.exec actor o input ghost = some (reply, last) ∧ sees last after
  op : ∀ o input now reply after, may.ops o → rules.choices.answers actor o input now →
    K.exec actor o input now = some (reply, after) → rules.invariant now →
    Alongside actor sees whole begun now → Alongside actor sees whole begun after →
    rules.step actor now after ∧ rules.Ends actor now after
  waits : ∀ before after ghost, rules.invariant after → rules.rely actor before after → rules.alive actor after →
    sees ghost before → sees ghost after
  threw : may.throws → ∀ now ghost, rules.invariant now → Runs actor whole begun .throw ghost → sees ghost now →
    rules.Ends actor now (K.threw actor now) ∧ rules.idle actor (K.threw actor now)
  exited : may.exits → ∀ now ghost, rules.invariant now → Runs actor whole begun .exit ghost → sees ghost now →
    rules.Ends actor now (K.exited actor now)
  spawns : ∀ entry, ¬ may.entries entry
  disposed : ∀ thread next now ghost, may.disposes thread → rules.invariant now →
    Runs actor whole begun (.dispose thread next) ghost → sees ghost now → thread = actor ∧
    rules.step actor now (K.disposed actor thread now) ∧ rules.Ends actor now (K.disposed actor thread now)

variable {rules actor} {may : Allowance S} {sees : K.State → K.State → Prop} {whole : Code S α} {begun : K.State}

/-- Such code is safe, and where it gives a value it could have given it alone. -/
theorem Undisturbed.holds (free : rules.Undisturbed actor may sees whole begun) (orderly : rules.Orderly) {β : Type}
    {code : Code S β} {tail : β → Code S α} (within : code.Within may) {start now ghost : K.State}
    (runs : Runs actor whole begun (code.bind tail) ghost) (seen : sees ghost now)
    (ends : rules.Ends actor start now) :
    rules.Holds actor code (fun value start now => ∃ ghost, Runs actor whole begun (tail value) ghost ∧
      sees ghost now ∧ rules.Ends actor start now) start now := by
  induction code generalizing start now ghost with
  | pure value => exact ⟨ghost, runs, seen, ends⟩
  | throw =>
    obtain ⟨closes, idle⟩ := free.threw within now ghost ends.invariant runs seen
    exact ⟨ends.trans orderly closes, idle⟩
  | exit => exact ends.trans orderly (free.exited within now ghost ends.invariant runs seen)
  | op o next ih =>
    intro input reply after answered executed
    obtain ⟨expected, last, alone, later⟩ := free.same o input now reply after ghost within.1 answered executed
      ends.invariant seen
    have further := runs.trans (.op alone (.here _ _))
    obtain ⟨stepped, more⟩ := free.op o input now reply after within.1 answered executed ends.invariant
      ⟨_, ghost, runs, seen⟩ ⟨_, last, further, later⟩
    exact ⟨stepped, ih reply (within.2 reply expected) further later (ends.trans orderly more)⟩
  | yield next ih =>
    refine ⟨ends, fun later kept moved alive => ?_⟩
    exact ih within (runs.trans (.yield (.here _ _))) (free.waits now later ghost kept moved alive seen)
      (.refl orderly kept)
  | spawn entry => exact (free.spawns entry within.1).elim
  | dispose thread next ih =>
    obtain ⟨rfl, stepped, more⟩ := free.disposed thread _ now ghost within.1 ends.invariant runs seen
    exact ⟨stepped, by rw [if_pos rfl]; exact ends.trans orderly more⟩
  | @loop α β γ body turn next ihBody ihNext =>
    refine ⟨fun turn start now => ∃ ghost, Runs actor whole begun ((Code.loop body turn next).bind tail) ghost ∧
      sees ghost now ∧ rules.Ends actor start now, ⟨ghost, runs, seen, ends⟩, fun turn start now kept => ?_⟩
    obtain ⟨ghost, runs, seen, ends⟩ := kept
    have turned := runs.trans (.loop (.here _ _))
    apply (ihBody turn (within.1 turn) turned seen ends).mono
    rintro (turn | value) start now ⟨ghost, runs, seen, ends⟩
    · exact ⟨ghost, runs, seen, ends⟩
    · exact ihNext value (within.2 value) runs seen ends

end Rules
end Coop
