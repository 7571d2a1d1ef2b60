import PowerBoot.Coop.Alone
import PowerBoot.Coop.Routine

/-! Code that runs alone ends with a value, or its thread is stopped on the way. The
outcomes of a program are those of its parts, and a relation between states that the
parts keep is kept by the program. -/

namespace Coop
variable {S : Signature} {K : Kernel S}

/-- The code is a value, or it stops `thread`. -/
def Code.Gives (thread : ThreadId) {α : Type} : Code S α → Option α → Prop
  | .pure value, some result => value = result
  | .exit, none => True
  | .dispose other _, none => other = thread
  | _, _ => False

/-- `thread` can run `code` alone from `state` and ends in `last`, with a value unless it
was stopped. A run in which the code throws or never ends is no outcome. -/
def Finishes (thread : ThreadId) {α : Type} (code : Code S α) (state : K.State) (result : Option α)
    (last : K.State) : Prop :=
  ∃ final, Runs thread code state final last ∧ final.Gives thread result

section turns
variable {thread : ThreadId} {β γ : Type}

inductive Turns (thread : ThreadId) (body : β → Code S (β ⊕ γ)) : β → K.State → β → K.State → Prop where
  | refl (turn : β) (state : K.State) : Turns thread body turn state turn state
  | step {turn next later : β} {state middle last : K.State} (first : Alone thread (body turn) state (.inl next) middle)
      (rest : Turns thread body next middle later last) : Turns thread body turn state later last

theorem Turns.keeps {body : β → Code S (β ⊕ γ)} {turn later : β} {state last : K.State}
    (turns : Turns thread body turn state later last) (property : K.State → Prop) (kept : ∀ {turn next state middle},
      Alone thread (body turn) state (.inl next) middle → property state → property middle)
    (holds : property state) : property last := by
  induction turns with
  | refl => exact holds
  | step first _ ih => exact ih (kept first holds)

/-- The last turn of a loop, which gives its value or stops the thread. -/
def Leaves (thread : ThreadId) (body : β → Code S (β ⊕ γ)) (turn : β) (state : K.State) (result : Option γ)
    (last : K.State) : Prop :=
  Finishes thread (body turn) state (result.map .inr) last

end turns

namespace Finishes
variable {thread : ThreadId} {α β γ : Type} {state last : K.State}

theorem some_iff {code : Code S α} {value : α} :
    Finishes thread code state (some value) last ↔ Alone thread code state value last := by
  refine ⟨?_, fun alone => ⟨_, alone, rfl⟩⟩
  rintro ⟨final, runs, gives⟩
  cases final with
  | pure found =>
    cases (show found = value from gives)
    exact runs
  | _ => exact False.elim gives

theorem pure_iff {value : α} {result : Option α} :
    Finishes thread (Code.pure value : Code S α) state result last ↔ result = some value ∧ last = state := by
  constructor
  · rintro ⟨final, runs, gives⟩
    cases runs
    cases result with
    | none => exact False.elim gives
    | some found => exact ⟨congrArg some (show value = found from gives).symm, rfl⟩
  · rintro ⟨rfl, rfl⟩
    exact ⟨_, .here _ _, rfl⟩

theorem op_iff {o : S.Op} {next : S.Reply o → Code S α} {result : Option α} :
    Finishes thread (.op o next) state result last ↔
      ∃ input reply after, K.exec thread o input state = some (reply, after) ∧
        Finishes thread (next reply) after result last := by
  constructor
  · rintro ⟨final, runs, gives⟩
    cases runs with
    | here => cases result <;> exact False.elim gives
    | op executed later => exact ⟨_, _, _, executed, final, later, gives⟩
  · rintro ⟨input, reply, after, executed, final, later, gives⟩
    exact ⟨final, .op executed later, gives⟩

theorem yield_iff {next : Code S α} {result : Option α} :
    Finishes thread (.yield next) state result last ↔ Finishes thread next state result last := by
  constructor
  · rintro ⟨final, runs, gives⟩
    cases runs with
    | here => cases result <;> exact False.elim gives
    | «yield» later => exact ⟨final, later, gives⟩
  · rintro ⟨final, later, gives⟩
    exact ⟨final, .yield later, gives⟩

theorem dispose_iff {other : ThreadId} {next : Code S α} {result : Option α} :
    Finishes thread (.dispose other next) state result last ↔ result = none ∧ other = thread ∧ last = state := by
  constructor
  · rintro ⟨final, runs, gives⟩
    cases runs
    cases result with
    | none => exact ⟨rfl, gives, rfl⟩
    | some => exact False.elim gives
  · rintro ⟨rfl, rfl, rfl⟩
    exact ⟨_, .here _ _, rfl⟩

theorem exit_iff {result : Option α} :
    Finishes thread (Code.exit : Code S α) state result last ↔ result = none ∧ last = state := by
  constructor
  · rintro ⟨final, runs, gives⟩
    cases runs
    cases result with
    | none => exact ⟨rfl, rfl⟩
    | some => exact False.elim gives
  · rintro ⟨rfl, rfl⟩
    exact ⟨_, .here _ _, trivial⟩

theorem throw_iff {result : Option α} : Finishes thread (Code.throw : Code S α) state result last ↔ False := by
  refine ⟨?_, False.elim⟩
  rintro ⟨final, runs, gives⟩
  cases runs
  cases result <;> exact gives

/-- The outcomes of two parts: those of the second part after the first one, and the
stops of the first one. -/
theorem bind_iff {code : Code S α} {rest : α → Code S β} {result : Option β} :
    Finishes thread (code.bind rest) state result last ↔
      (∃ value middle, Alone thread code state value middle ∧ Finishes thread (rest value) middle result last) ∨
        result = none ∧ Finishes thread code state none last := by
  constructor
  · rintro ⟨final, runs, gives⟩
    rcases runs.parts with ⟨left, rfl, first⟩ | ⟨value, middle, first, second⟩
    · cases left with
      | pure value => exact Or.inl ⟨value, last, first, _, .here _ _, gives⟩
      | exit | dispose =>
        cases result with
        | none => exact Or.inr ⟨rfl, _, first, gives⟩
        | some => exact False.elim gives
      | _ => cases result <;> exact False.elim gives
    · exact Or.inl ⟨value, middle, first, final, second, gives⟩
  · rintro (⟨value, middle, first, final, second, gives⟩ | ⟨rfl, final, first, gives⟩)
    · exact ⟨final, first.andThen second, gives⟩
    · refine ⟨final.bind rest, first.bind, ?_⟩
      cases final with
      | exit | dispose => exact gives
      | _ => exact False.elim gives

private theorem turned {body : β → Code S (β ⊕ γ)} {first : Code S (β ⊕ γ)} {result : Option γ} {code final : Code S γ}
    (runs : Runs thread code state final last) (gives : final.Gives thread result)
    (whole : code = first.bind (.turn body .pure)) :
    Finishes thread first state (result.map .inr) last ∨ ∃ turn middle, Alone thread first state (.inl turn) middle ∧
      ∃ later between, Turns thread body turn middle later between ∧ Leaves thread body later between result last := by
  induction runs generalizing first with
  | here code state =>
    subst whole
    left
    cases first with
    | pure outcome =>
      cases outcome with
      | inl turn => cases result <;> exact False.elim gives
      | inr value =>
        cases result with
        | none => exact False.elim gives
        | some found => exact ⟨_, .here _ _, congrArg Sum.inr gives⟩
    | exit | dispose =>
      cases result with
      | none => exact ⟨_, .here _ _, gives⟩
      | some => exact False.elim gives
    | _ => cases result <;> exact False.elim gives
  | op executed _ ih =>
    cases first with
    | pure outcome => cases outcome <;> cases whole
    | op o next =>
      cases whole
      rcases ih gives rfl with ⟨final, runs, ends⟩ | ⟨turn, middle, runs, later⟩
      · exact Or.inl ⟨final, .op executed runs, ends⟩
      · exact Or.inr ⟨turn, middle, .op executed runs, later⟩
    | _ => cases whole
  | «yield» _ ih =>
    cases first with
    | pure outcome => cases outcome <;> cases whole
    | «yield» next =>
      cases whole
      rcases ih gives rfl with ⟨final, runs, ends⟩ | ⟨turn, middle, runs, later⟩
      · exact Or.inl ⟨final, .yield runs, ends⟩
      · exact Or.inr ⟨turn, middle, .yield runs, later⟩
    | _ => cases whole
  | loop _ ih =>
    cases first with
    | pure outcome =>
      cases outcome with
      | inr value => cases whole
      | inl turn =>
        cases whole
        refine Or.inr ⟨turn, _, .here _ _, ?_⟩
        rcases ih gives rfl with ends | ⟨next, middle, runs, later, between, turns, ends⟩
        · exact ⟨turn, _, .refl _ _, ends⟩
        · exact ⟨later, between, .step runs turns, ends⟩
    | loop inside turn next =>
      cases whole
      rw [← Code.turn_bind, ← Code.bind_assoc] at ih
      rcases ih gives rfl with ⟨final, runs, ends⟩ | ⟨turn, middle, runs, later⟩
      · exact Or.inl ⟨final, .loop runs, ends⟩
      · exact Or.inr ⟨turn, middle, .loop runs, later⟩
    | _ => cases whole

theorem iterate_iff {body : β → Code S (β ⊕ γ)} {turn : β} {result : Option γ} :
    Finishes thread (Code.iterate body turn) state result last ↔
      ∃ later middle, Turns thread body turn state later middle ∧ Leaves thread body later middle result last := by
  constructor
  · rintro ⟨final, runs, gives⟩
    have whole : Code.iterate body turn = (Code.pure (.inl turn)).bind (.turn body .pure) := rfl
    rcases turned runs gives whole with ⟨final, runs, ends⟩ | ⟨next, middle, runs, later⟩
    · cases runs
      cases result <;> cases ends
    · cases runs
      exact later
  · rintro ⟨later, middle, turns, ends⟩
    induction turns with
    | refl turn state =>
      have turned : Finishes thread ((body turn).bind (.turn body .pure)) state result last := by
        apply bind_iff.mpr
        cases result with
        | none => exact Or.inr ⟨rfl, ends⟩
        | some value => exact Or.inl ⟨_, _, some_iff.mp ends, pure_iff.mpr ⟨rfl, rfl⟩⟩
      obtain ⟨final, runs, gives⟩ := turned
      exact ⟨final, .loop runs, gives⟩
    | step first _ ih =>
      obtain ⟨final, runs, gives⟩ := ih ends
      exact ⟨final, .loop (first.andThen runs), gives⟩

theorem loop_iff {δ : Type} {body : β → Code S (β ⊕ γ)} {turn : β} {next : γ → Code S δ} {result : Option δ} :
    Finishes thread (.loop body turn next) state result last ↔
      Finishes thread ((body turn).bind (.turn body next)) state result last := by
  constructor
  · rintro ⟨final, runs, gives⟩
    cases runs with
    | here => cases result <;> exact False.elim gives
    | loop later => exact ⟨final, later, gives⟩
  · rintro ⟨final, later, gives⟩
    exact ⟨final, .loop later, gives⟩

end Finishes

section uses
variable {thread : ThreadId} {α : Type} {ops : S.Op → Prop} {entries : S.Entry → Prop} {code : Code S α}
  {state last : K.State}

theorem Runs.keeps (property : K.State → Prop) (kept : ∀ {o input state reply after}, ops o →
      K.exec thread o input state = some (reply, after) → property state → property after)
    {rest : Code S α} (runs : Runs thread code state rest last) (uses : code.Uses ops entries)
    (holds : property state) : property last := by
  induction runs with
  | here => exact holds
  | op executed _ ih => exact ih (uses.2 _) (kept uses.1 executed holds)
  | «yield» _ ih => exact ih uses holds
  | loop _ ih => exact ih uses.turn holds

theorem Finishes.keeps (property : K.State → Prop) (kept : ∀ {o input state reply after}, ops o →
      K.exec thread o input state = some (reply, after) → property state → property after)
    {result : Option α} (finishes : Finishes thread code state result last) (uses : code.Uses ops entries)
    (holds : property state) : property last := by
  obtain ⟨final, runs, _⟩ := finishes
  exact runs.keeps property kept uses holds

end uses

end Coop
