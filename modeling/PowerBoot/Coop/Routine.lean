import PowerBoot.Coop.Allowance

/-! Most code touches nothing that a given property is about. It is enough to
look at the operations it uses, one by one, whatever its control flow. -/

namespace Coop
variable {S : Signature} {K : Kernel S}

/-- Every operation in the code is one of `ops`, and every thread it creates starts
at one of `entries`. -/
def Code.Uses (ops : S.Op → Prop) (entries : S.Entry → Prop) {α : Type} : Code S α → Prop
  | .pure _ => True
  | .throw => True
  | .exit => True
  | .op o next => ops o ∧ ∀ reply, Uses ops entries (next reply)
  | .yield next => Uses ops entries next
  | .spawn entry next => entries entry ∧ ∀ child, Uses ops entries (next child)
  | .dispose _ next => Uses ops entries next
  | .loop body _ next => (∀ state, Uses ops entries (body state)) ∧ ∀ value, Uses ops entries (next value)

theorem Code.Uses.bind {ops : S.Op → Prop} {entries : S.Entry → Prop} {α β : Type} {code : Code S α}
    {rest : α → Code S β} (first : code.Uses ops entries) (then_ : ∀ value, (rest value).Uses ops entries) :
    (code.bind rest).Uses ops entries := by
  induction code with
  | pure value => exact then_ value
  | throw | exit => trivial
  | op o next ih => exact ⟨first.1, fun reply => ih reply (first.2 reply) then_⟩
  | yield next ih => exact ih first then_
  | spawn entry next ih => exact ⟨first.1, fun child => ih child (first.2 child) then_⟩
  | dispose thread next ih => exact ih first then_
  | loop body state next _ ih => exact ⟨first.1, fun value => ih value (first.2 value) then_⟩

theorem Code.Uses.turn {ops : S.Op → Prop} {entries : S.Entry → Prop} {α β γ : Type} {body : β → Code S (β ⊕ γ)}
    {state : β} {next : γ → Code S α} (uses : (Code.loop body state next).Uses ops entries) :
    ((body state).bind (.turn body next)).Uses ops entries := by
  refine (uses.1 state).bind fun result => ?_
  cases result with
  | inl state => exact uses
  | inr value => exact uses.2 value

theorem Code.Uses.mono {ops more : S.Op → Prop} {entries others : S.Entry → Prop} {α : Type} {code : Code S α}
    (uses : code.Uses ops entries) (wider : ∀ o, ops o → more o) (starts : ∀ entry, entries entry → others entry) :
    code.Uses more others := by
  induction code with
  | pure | throw | exit => trivial
  | op o next ih => exact ⟨wider o uses.1, fun reply => ih reply (uses.2 reply)⟩
  | yield next ih => exact ih uses
  | spawn entry next ih => exact ⟨starts entry uses.1, fun child => ih child (uses.2 child)⟩
  | dispose thread next ih => exact ih uses
  | loop body state next ihBody ihNext =>
    exact ⟨fun state => ihBody state (uses.1 state), fun value => ihNext value (uses.2 value)⟩

/-- These operations, and nothing else is kept from the code. -/
def Allowance.routine (ops : S.Op → Prop) (entries : S.Entry → Prop) : Allowance S where
  ops := ops
  entries := entries
  disposes _ := True
  throws := True
  exits := True

theorem Code.Uses.within {ops : S.Op → Prop} {entries : S.Entry → Prop} {α : Type} {code : Code S α}
    (uses : code.Uses ops entries) : code.Within (.routine ops entries) := by
  induction code with
  | pure | throw | exit => trivial
  | op o next ih => exact ⟨uses.1, fun reply _ => ih reply (uses.2 reply)⟩
  | yield next ih => exact ih uses
  | spawn entry next ih => exact ⟨uses.1, fun child => ih child (uses.2 child)⟩
  | dispose thread next ih => exact ⟨trivial, ih uses⟩
  | loop body state next ihBody ihNext =>
    exact ⟨fun state => ihBody state (uses.1 state), fun value => ihNext value (uses.2 value)⟩

section uses
variable {ops : S.Op → Prop} {entries : S.Entry → Prop} {α β γ : Type}

theorem Code.Uses.op {o : S.Op} {rest : S.Reply o → Code S α} (used : ops o)
    (uses : ∀ reply, (rest reply).Uses ops entries) : ((Code.call o).bind rest).Uses ops entries := ⟨used, uses⟩

theorem Code.Uses.iterate {body : β → Code S (β ⊕ γ)} {turn : β} (uses : ∀ turn, (body turn).Uses ops entries) :
    (Code.iterate body turn).Uses ops entries := ⟨uses, fun _ => trivial⟩

theorem Code.Uses.composes : Composes fun {_} (code : Code S _) => code.Uses ops entries where
  pure _ := trivial
  bind := .bind
  iterate := .iterate

theorem Code.Uses.when {condition : Prop} [Decidable condition] {code : Code S Unit} (uses : code.Uses ops entries) :
    (Code.when condition code).Uses ops entries := Code.Uses.composes.when fun _ => uses

theorem Code.Uses.repeatWhile {condition : Code S Bool} {body : Code S Unit} (tests : condition.Uses ops entries)
    (uses : body.Uses ops entries) : (Code.repeatWhile condition body).Uses ops entries :=
  Code.Uses.composes.repeatWhile tests uses

end uses

namespace Rules
variable (rules : Rules K) (actor : ThreadId)

/-- Each of these operations keeps the invariant and what is owed to the others
by itself, together with a fact `mine` of the acting thread. -/
structure Routine (ops : S.Op → Prop) (entries : S.Entry → Prop) (mine : K.State → Prop) : Prop where
  op : ∀ o input now reply after, ops o → rules.choices.answers actor o input now →
    K.exec actor o input now = some (reply, after) → rules.invariant now → mine now →
    rules.step actor now after ∧ rules.Ends actor now after ∧ mine after
  waits : ∀ before after, rules.invariant after → rules.rely actor before after → rules.alive actor after →
    mine before → mine after
  threw : ∀ now, rules.invariant now → mine now →
    rules.Ends actor now (K.threw actor now) ∧ rules.idle actor (K.threw actor now)
  exited : ∀ now, rules.invariant now → mine now → rules.Ends actor now (K.exited actor now)
  spawned : ∀ child entry now, entries entry → child ≠ actor → ¬ rules.knows now child →
    rules.invariant now → mine now → let after := K.spawned actor child entry now
    rules.step actor now after ∧ rules.Ends actor now after ∧ rules.requires entry child after ∧ mine after
  disposed : ∀ thread now, rules.invariant now → mine now → let after := K.disposed actor thread now
    rules.step actor now after ∧ rules.Ends actor now after ∧ mine after

variable {rules actor}

theorem Routine.bears {ops : S.Op → Prop} {entries : S.Entry → Prop} {mine : K.State → Prop}
    (routine : rules.Routine actor ops entries mine) : rules.Bears actor (.routine ops entries) mine where
  op o input now reply after used answered executed kept holds := by
    obtain ⟨stepped, ends, holds⟩ := routine.op o input now reply after used answered executed kept holds
    exact ⟨stepped, ends, holds, trivial⟩
  waits := routine.waits
  threw _ := routine.threw
  exited _ := routine.exited
  spawned := routine.spawned
  disposed thread now _ kept holds := by
    obtain ⟨stepped, ends, holds⟩ := routine.disposed thread now kept holds
    exact ⟨stepped, ends, fun _ => holds⟩

/-- Routine code is safe, keeps `mine` and can end its section anywhere. -/
theorem Routine.holds (orderly : rules.Orderly) {ops : S.Op → Prop} {entries : S.Entry → Prop} {mine : K.State → Prop}
    (routine : rules.Routine actor ops entries mine) {α : Type} {code : Code S α} (uses : code.Uses ops entries)
    {start now : K.State} (ends : rules.Ends actor start now) (holds : mine now) :
    rules.Holds actor code (fun _ start now => rules.Ends actor start now ∧ mine now) start now :=
  (routine.bears.holds orderly uses.within ⟨ends, holds⟩).mono fun _ _ _ works => ⟨works.ends, works.holds⟩

theorem Routine.bind (orderly : rules.Orderly) {ops : S.Op → Prop} {entries : S.Entry → Prop} {mine : K.State → Prop}
    (routine : rules.Routine actor ops entries mine) {α β : Type} {code : Code S α} (uses : code.Uses ops entries)
    {rest : α → Code S β} {post : β → K.State → K.State → Prop} {start now : K.State}
    (ends : rules.Ends actor start now) (holds : mine now)
    (safe : ∀ value start now, rules.Ends actor start now → mine now → rules.Holds actor (rest value) post start now) :
    rules.Holds actor (code.bind rest) post start now :=
  ((routine.holds orderly uses ends holds).mono
    (fun value start now ⟨ends, holds⟩ => safe value start now ends holds)).bind

namespace Works
variable {mine : K.State → Prop} {start now : K.State}

theorem yields (works : rules.Works actor mine start now) {α : Type} {rest : Code S α}
    {post : α → K.State → K.State → Prop} (safe : ∀ later, rules.invariant later → rules.rely actor now later →
      rules.alive actor later → rules.Holds actor rest post later later) :
    rules.Holds actor (.yield rest) post start now := ⟨works.ends, safe⟩

end Works

/-- Code that starts and finishes where `mine` holds and its section can end. -/
def Stays (rules : Rules K) (actor : ThreadId) (mine : K.State → Prop) {α : Type} (code : Code S α) : Prop :=
  ∀ start now : K.State, rules.Works actor mine start now →
    rules.Holds actor code (fun _ => rules.Works actor mine) start now

theorem Stays.composes {mine : K.State → Prop} :
    Code.Composes fun {_} (code : Code S _) => rules.Stays actor mine code where
  pure _ _ _ works := works
  bind first rest _ _ works := ((first _ _ works).mono rest).bind
  iterate turns _ _ works := by
    refine ⟨fun _ => rules.Works actor mine, works, fun state start now works => ?_⟩
    refine (turns state start now works).mono fun result start now works => ?_
    cases result <;> exact works

theorem Stays.then {mine : K.State → Prop} {α β : Type} {code : Code S α} (stays : rules.Stays actor mine code)
    {start now : K.State} (works : rules.Works actor mine start now) {rest : α → Code S β}
    {post : β → K.State → K.State → Prop}
    (safe : ∀ value start now, rules.Works actor mine start now → rules.Holds actor (rest value) post start now) :
    rules.Holds actor (code.bind rest) post start now := ((stays start now works).mono safe).bind

theorem Routine.stays (orderly : rules.Orderly) {ops : S.Op → Prop} {entries : S.Entry → Prop} {mine : K.State → Prop}
    (routine : rules.Routine actor ops entries mine) {α : Type} {code : Code S α} (uses : code.Uses ops entries) :
    rules.Stays actor mine code := fun _ _ works =>
  (routine.holds orderly uses works.ends works.holds).mono fun _ _ _ ⟨ends, holds⟩ => ⟨ends, holds⟩

/-- An entry point made of routine code alone. -/
theorem Routine.returns (orderly : rules.Orderly) {ops : S.Op → Prop} {entries : S.Entry → Prop} {mine : K.State → Prop}
    (routine : rules.Routine actor ops entries mine) {entry : S.Entry} (uses : (K.body entry).Uses ops entries)
    (closes : ∀ value now, rules.invariant now → mine now →
      rules.Ends actor now (K.returned actor value now) ∧ rules.idle actor (K.returned actor value now))
    {now : K.State} (kept : rules.invariant now) (holds : mine now) :
    rules.Holds actor (K.body entry) (rules.Returns actor) now now := by
  apply (routine.holds orderly uses (.refl orderly kept) holds).mono
  intro value start now ⟨ends, holds⟩
  obtain ⟨closed, idle⟩ := closes value now ends.invariant holds
  exact ⟨ends.trans orderly closed, idle⟩

end Rules

/-- A property of the state that the steps of one thread keep, as long as its code
uses only `ops` and `entries`. -/
structure KeptBy (property : K.State → Prop) (thread : ThreadId) (ops : S.Op → Prop) (entries : S.Entry → Prop) :
    Prop where
  op : ∀ {o input state reply after}, ops o → K.exec thread o input state = some (reply, after) →
    property state → property after
  spawned : ∀ {child entry state}, entries entry → property state → property (K.spawned thread child entry state)
  disposed : ∀ {other state}, property state → property (K.disposed thread other state)
  returned : ∀ {value state}, property state → property (K.returned thread value state)
  threw : ∀ {state}, property state → property (K.threw thread state)
  exited : ∀ {state}, property state → property (K.exited thread state)

/-- No other thread is inside its section, and what is left of this one is known. -/
private structure OnlyBy (property : K.State → Prop) (thread : ThreadId) (ops : S.Op → Prop)
    (entries : S.Entry → Prop) (world : World K) : Prop where
  free : world.current = none ∨ world.current = some thread
  uses : ∀ code, world.threads[thread]? = some (.running code) → code.Uses ops entries
  holds : property world.state

variable {property : K.State → Prop} {thread : ThreadId} {ops : S.Op → Prop} {entries : S.Entry → Prop}

private theorem OnlyBy.set {state : K.State} {threads : List (Activity K)} {activity : Activity K}
    {current : Option ThreadId} (free : current = none ∨ current = some thread)
    (uses : ∀ code, activity = .running code → code.Uses ops entries) (holds : property state) :
    OnlyBy property thread ops entries { state, threads := threads.set thread activity, current } := by
  refine ⟨free, fun code found => ?_, holds⟩
  simp only [List.getElem?_set, if_true] at found
  split at found
  · exact uses code (Option.some.inj found)
  · cases found

private theorem OnlyBy.advance (kept : KeptBy property thread ops entries) {world next : World K} {input : K.Input}
    {code : Code S K.Value} (only : OnlyBy property thread ops entries world) (current : world.current = some thread)
    (found : world.threads[thread]? = some (.running code)) (stepped : world.advance thread input code = some next) :
    OnlyBy property thread ops entries next := by
  have uses := only.uses code found
  cases code with
  | pure value =>
    cases stepped
    exact .set (.inl rfl) nofun (kept.returned only.holds)
  | throw =>
    cases stepped
    exact .set (.inl rfl) nofun (kept.threw only.holds)
  | exit =>
    cases stepped
    refine ⟨.inl rfl, fun code found => ?_, kept.exited only.holds⟩
    simp only [List.getElem?_map, Option.map_eq_some_iff] at found
    obtain ⟨_, _, same⟩ := found
    cases same
  | op o rest =>
    simp only [World.advance, Option.map_eq_some_iff] at stepped
    obtain ⟨⟨reply, after⟩, executed, rfl⟩ := stepped
    exact .set (.inr current) (fun code same => by cases same; exact uses.2 reply) (kept.op uses.1 executed only.holds)
  | yield rest =>
    cases stepped
    exact .set (.inl rfl) (fun code same => by cases same; exact uses) only.holds
  | spawn entry rest =>
    cases stepped
    have inside := (List.getElem?_eq_some_iff.mp found).1
    refine ⟨.inr current, fun code found => ?_, kept.spawned uses.1 only.holds⟩
    simp only at found
    rw [List.getElem?_append_left (by simpa using inside), List.getElem?_set_self inside] at found
    cases found
    exact uses.2 _
  | dispose stopped rest =>
    cases stepped
    refine ⟨?_, fun code found => ?_, kept.disposed only.holds⟩
    · by_cases same : stopped = thread <;> simp [same]
    · have running := @OnlyBy.set S K property thread ops entries world.state world.threads (.running rest) none
        (.inl rfl) (fun code same => by cases same; exact uses) only.holds
      simp only [List.getElem?_set] at found
      split at found
      · split at found <;> cases found
      · exact running.uses code (by simpa [List.getElem?_set] using found)
  | loop body state rest =>
    cases stepped
    exact .set (.inr current) (fun code same => by cases same; exact uses.turn) only.holds

/-- What a thread keeps with each of its steps holds wherever it gets when it runs alone. -/
theorem KeptBy.alone (kept : KeptBy property thread ops entries) {world later : World K}
    (outside : world.current = none)
    (uses : ∀ code, world.threads[thread]? = some (.running code) → code.Uses ops entries)
    (holds : property world.state) {sections : List (List K.Input)}
    (ran : world.run (World.alone thread sections) = some later) : property later.state := by
  have own (action : Action K) (member : action ∈ World.alone thread sections) := World.alone_actions member
  suffices OnlyBy property thread ops entries later from this.holds
  have only : OnlyBy property thread ops entries world := ⟨.inl outside, uses, holds⟩
  clear outside uses holds
  generalize World.alone thread sections = actions at own ran
  induction actions generalizing world with
  | nil =>
    cases ran
    exact only
  | cons action actions ih =>
    simp only [World.run, Option.bind_eq_bind, Option.bind_eq_some_iff] at ran
    obtain ⟨next, stepped, ran⟩ := ran
    refine ih ?_ (fun action member => own action (List.mem_cons_of_mem _ member)) ran
    rcases own action (List.mem_cons_self ..) with rfl | ⟨input, rfl⟩
    · rcases only.free with outside | current
      · simp only [World.step, outside] at stepped
        split at stepped
        · cases stepped
          exact ⟨.inr rfl, only.uses, only.holds⟩
        · cases stepped
      · simp [World.step, current] at stepped
    · rcases only.free with outside | current
      · simp [World.step, outside] at stepped
      · simp only [World.step, current] at stepped
        split at stepped
        next code found => exact only.advance kept current found stepped
        · cases stepped

end Coop
