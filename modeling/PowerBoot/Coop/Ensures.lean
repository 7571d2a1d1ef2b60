import PowerBoot.Coop.Completion
import PowerBoot.Coop.Routine

/-! Rules of pre- and postconditions for code that only events interrupt. They are about
executions that give a value. -/

namespace Coop
variable {S : Signature} {K : Kernel S}

/-- Where the code starts in `pre` and gives a value, it ends in `post`. -/
def Ensures (thread : ThreadId) {α : Type} (pre : K.State → Prop) (code : Code S α) (post : α → K.State → Prop) :
    Prop :=
  ∀ ⦃state value last⦄, pre state → Completes (K := K) thread code state (.value value) last → post value last

/-- No event ends the assertion. -/
def Kernel.Stable (K : Kernel S) (assertion : K.State → Prop) : Prop :=
  ∀ ⦃input state after⦄, K.environment input state = some after → assertion state → assertion after

theorem Kernel.Stable.elapses {assertion : K.State → Prop} (stable : K.Stable assertion) {state between : K.State}
    (elapsed : Elapses state between) (holds : assertion state) : assertion between := by
  induction elapsed with
  | refl => exact holds
  | tail _ happened ih =>
    obtain ⟨input, happened⟩ := happened
    exact stable happened ih

namespace Ensures
variable {thread : ThreadId} {α β γ : Type} {pre : K.State → Prop}

theorem mono {required : K.State → Prop} {code : Code S α} {post more : α → K.State → Prop}
    (ensures : Ensures thread pre code post) (before : ∀ state, required state → pre state)
    (after : ∀ value state, post value state → more value state) : Ensures thread required code more :=
  fun _ _ _ holds completes => after _ _ (ensures (before _ holds) completes)

theorem given {fact : Prop} {code : Code S α} {post : α → K.State → Prop}
    (ensures : fact → Ensures thread pre code post) :
    Ensures thread (fun state => fact ∧ pre state) code post :=
  fun _ _ _ holds => ensures holds.1 holds.2

theorem pure {value : α} {post : α → K.State → Prop} (holds : ∀ state, pre state → post value state) :
    Ensures thread pre (.pure value) post := by
  intro state given last now completes
  obtain ⟨same, rfl⟩ := Completes.pure_iff.mp completes
  cases same
  exact holds _ now

theorem throws {post : α → K.State → Prop} : Ensures thread pre .throw post := by
  intro state value last _ completes
  cases completes

theorem exits {post : α → K.State → Prop} : Ensures thread pre .exit post := by
  intro state value last _ completes
  cases completes

theorem call {o : S.Op} {post : S.Reply o → K.State → Prop}
    (does : ∀ {input state reply after}, pre state → K.exec thread o input state = some (reply, after) →
      post reply after) :
    Ensures thread pre (.call o) post := by
  intro state value last holds completes
  obtain ⟨input, reply, after, executed, later⟩ := Completes.op_iff.mp completes
  obtain ⟨same, rfl⟩ := Completes.pure_iff.mp later
  cases same
  exact does holds executed

theorem pause (stable : K.Stable pre) : Ensures thread pre .pause fun _ => pre := by
  intro state value last holds completes
  obtain ⟨between, elapsed, later⟩ := Completes.yield_iff.mp completes
  obtain ⟨_, rfl⟩ := Completes.pure_iff.mp later
  exact stable.elapses elapsed holds

theorem stop {other : ThreadId} : Ensures thread pre (.stop other) fun _ last =>
    other ≠ thread ∧ ∃ state, pre state ∧ last = K.disposed thread other state := by
  intro state value last holds completes
  have stopped := Completes.dispose_iff.mp completes
  split at stopped
  · cases stopped.1
  next different =>
    obtain ⟨_, rfl⟩ := Completes.pure_iff.mp stopped
    exact ⟨different, state, holds, rfl⟩

theorem bind {code : Code S α} {rest : α → Code S β} {post : β → K.State → Prop} (middle : α → K.State → Prop)
    (first : Ensures thread pre code middle) (second : ∀ value, Ensures thread (middle value) (rest value) post) :
    Ensures thread pre (code.bind rest) post := by
  intro state value last holds completes
  rcases Completes.bind_iff.mp completes with ⟨found, between, before, after⟩ | ⟨why, never, _⟩
  · exact second found (first holds before) after
  · cases never

theorem passing {code : Code S α} {rest : α → Code S β} {post : β → K.State → Prop}
    (first : Ensures thread pre code fun _ => pre) (second : ∀ value, Ensures thread pre (rest value) post) :
    Ensures thread pre (code.bind rest) post := first.bind _ second

theorem when {condition : Prop} [Decidable condition] {code : Code S Unit} {post : K.State → Prop}
    (runs : condition → Ensures thread pre code fun _ => post) (skips : ¬ condition → ∀ state, pre state → post state) :
    Ensures thread pre (.when condition code) fun _ => post := by
  unfold Code.when
  split
  next holds => exact runs holds
  next fails => exact .pure (skips fails)

theorem iterate {body : β → Code S (β ⊕ γ)} {turn : β} {post : γ → K.State → Prop} (each : β → K.State → Prop)
    (turns : ∀ turn, Ensures thread (each turn) (body turn) (Sum.elim each post)) :
    Ensures thread (each turn) (.iterate body turn) post := by
  intro state value last holds completes
  refine Completes.loop_induction (motive := fun turn state outcome last => each turn state →
    ∀ value, outcome = .value value → post value last) ?_ ?_ ?_ completes holds value rfl
  · exact fun turned later holds value given => later (turns _ holds turned) value given
  · intro turn value state middle outcome last turned later holds given same
    subst same
    obtain ⟨same, rfl⟩ := Completes.pure_iff.mp later
    cases same
    exact turns _ holds turned
  · intro turn state why last _ _ value never
    cases never

end Ensures
end Coop
