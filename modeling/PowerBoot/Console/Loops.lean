import PowerBoot.Console.Draw

/-! The loops of `ScreenDraw`. Lines that are written on the way come after the lines that
were there, which are drawn first, one after the other. -/

namespace PowerBoot.Console

variable {machine : Machine} {rec : Rect} {ch : Nat} {c : UInt8} {text : Bytes} {screen after last : Screen}

@[simp] theorem mark_lineBuffer {mark : Mark} : (screen.mark mark).lineBuffer = screen.lineBuffer := rfl

@[simp] theorem mark_makingColor {mark : Mark} : (screen.mark mark).makingColor = screen.makingColor := rfl

@[simp] theorem mark_colorCodes {mark : Mark} : (screen.mark mark).colorCodes = screen.colorCodes := rfl

@[simp] theorem mark_marks {mark : Mark} : (screen.mark mark).marks = screen.marks ++ [mark] := rfl

theorem handleColorCode_sets (code : Int) : ∃ foreColor backColor,
    handleColorCode code screen = { screen with foreColor, backColor } := by
  unfold handleColorCode
  split <;> exact ⟨_, _, rfl⟩

section handleColorCode
variable {code : Int}

@[simp] theorem handleColorCode_lineBuffer : (handleColorCode code screen).lineBuffer = screen.lineBuffer := by
  obtain ⟨_, _, sets⟩ := @handleColorCode_sets screen code
  rw [sets]

@[simp] theorem handleColorCode_makingColor : (handleColorCode code screen).makingColor = screen.makingColor := by
  obtain ⟨_, _, sets⟩ := @handleColorCode_sets screen code
  rw [sets]

@[simp] theorem handleColorCode_colorCodes : (handleColorCode code screen).colorCodes = screen.colorCodes := by
  obtain ⟨_, _, sets⟩ := @handleColorCode_sets screen code
  rw [sets]

@[simp] theorem handleColorCode_marks : (handleColorCode code screen).marks = screen.marks := by
  obtain ⟨_, _, sets⟩ := @handleColorCode_sets screen code
  rw [sets]

end handleColorCode

theorem drawDefault_lineBuffer : (drawDefault c screen).lineBuffer = screen.lineBuffer := by
  unfold drawDefault
  split
  · split <;> rfl
  · rfl

theorem eraseBegin_tail {codes rest : Bytes} (erased : eraseBegin machine codes = some rest) : rest = codes.tail := by
  cases codes with
  | nil =>
    simp only [eraseBegin, Option.ite_none_right_eq_some, Option.some.injEq] at erased
    exact erased.2.symm
  | cons =>
    cases erased
    rfl

/-- What one character does, by the branch of the switch that it takes. -/
inductive Switched (machine : Machine) (rec : Rect) (c : UInt8) (screen : Screen) : Screen → Prop where
  | escape (is : c = 27) (defined : screen.colorCodes ≠ [] ∨ machine.lenient = true) : Switched machine rec c screen
      { screen.mark (.erase screen.colorCodes) with makingColor := true, colorCodes := screen.colorCodes.tail }
  | moves (is : c = 10 ∨ c = 9 ∨ c = 13) (x y : BitVec 16) : Switched machine rec c screen { screen with x, y }
  | color (is : c = 109) (making : screen.makingColor = true) (lineBuffer : List Bytes)
      (printed : printf machine (screen.colorCodes ++ [10]) screen.lineBuffer = some lineBuffer) :
      Switched machine rec c screen (handleColorCode (atoi screen.colorCodes)
        { (screen.mark (.print (screen.colorCodes ++ [10]))).mark (.color (atoi screen.colorCodes)) with
          makingColor := false, lineBuffer })
  | default (other : c ≠ 27 ∧ ¬ (c = 10 ∨ c = 9 ∨ c = 13)) (shown : ¬ (c = 109 ∧ screen.makingColor = true)) :
      Switched machine rec c screen (drawDefault c screen)

theorem drawSwitch_cases (drawn : drawSwitch machine rec c screen = some after) :
    Switched machine rec c screen after := by
  unfold drawSwitch at drawn
  split at drawn
  next escape =>
    obtain ⟨rest, erased, same⟩ := Option.bind_eq_some_iff.mp drawn
    obtain rfl := eraseBegin_tail erased
    cases same
    refine .escape escape ?_
    by_contra neither
    have undefined := not_or.mp neither
    simp [eraseBegin, not_not.mp undefined.1, undefined.2] at erased
  next noEscape =>
    split at drawn
    next newline =>
      cases drawn
      exact .moves (.inl newline) _ _
    next noNewline =>
      split at drawn
      next tab =>
        cases drawn
        exact .moves (.inr (.inl tab)) _ _
      next noTab =>
        split at drawn
        next return_ =>
          cases drawn
          exact .moves (.inr (.inr return_)) _ _
        next noReturn =>
          split at drawn
          next color =>
            obtain ⟨lineBuffer, printed, same⟩ := Option.bind_eq_some_iff.mp drawn
            cases same
            exact .color color.1 color.2 lineBuffer printed
          next shown =>
            cases drawn
            exact .default ⟨noEscape, by tauto⟩ shown

theorem printf_grows {lineBuffer lines : List Bytes} (printed : printf machine text lineBuffer = some lines) :
    (machine.silent = true ∧ lines = lineBuffer) ∨
      (machine.silent = false ∧ lines = lineBuffer ++ [text] ∧ lines.length < 40) := by
  unfold printf at printed
  split at printed
  next silent =>
    cases printed
    exact .inl ⟨silent, rfl⟩
  next prints =>
    split at printed
    next room =>
      cases printed
      have few : (lineBuffer ++ [text]).length < 40 := by
        rw [List.length_append, List.length_singleton]
        exact room.2
      have kept : consolewrite lineBuffer text = lineBuffer ++ [text] := if_neg (Nat.not_le.mpr few)
      exact .inr ⟨Bool.eq_false_iff.mpr prints, kept, kept ▸ few⟩
    · cases printed

theorem drawSwitch_grows (drawn : drawSwitch machine rec c screen = some after) :
    screen.lineBuffer <+: after.lineBuffer := by
  cases drawSwitch_cases drawn with
  | escape | moves => exact List.prefix_refl _
  | default => exact drawDefault_lineBuffer ▸ List.prefix_refl _
  | color _ _ lineBuffer printed =>
    rw [handleColorCode_lineBuffer]
    rcases printf_grows printed with ⟨_, rfl⟩ | ⟨_, rfl, _⟩
    · exact List.prefix_refl _
    · exact List.prefix_append ..

theorem drawChar_some (drawn : drawChar machine rec ch c screen = some after) : ∃ switched,
    drawSwitch machine rec c screen = some switched ∧
      after = { switched with x := switched.x + (machine.charWidth (BitVec.ofNat 16 ch) + 9) } := by
  obtain ⟨switched, first, same⟩ := Option.bind_eq_some_iff.mp drawn
  cases same
  exact ⟨switched, first, rfl⟩

theorem drawLine_eq :
    drawLine machine rec text screen = drawChars machine rec 0 text { screen with x := rec.left + 9 } := rfl

/-- What every turn of the loop over a line keeps to, and the start of a line, is kept to by the loops. -/
structure Keeps (machine : Machine) (rec : Rect) (keeps : Screen → Screen → Prop) : Prop where
  refl : ∀ screen, keeps screen screen
  trans : ∀ {first middle last}, keeps first middle → keeps middle last → keeps first last
  moved : ∀ {screen} x, keeps screen { screen with x }
  switched : ∀ {c screen after}, drawSwitch machine rec c screen = some after → keeps screen after

namespace Keeps
variable {keeps : Screen → Screen → Prop}

theorem char (kept : Keeps machine rec keeps) (drawn : drawChar machine rec ch c screen = some after) :
    keeps screen after := by
  obtain ⟨switched, turned, rfl⟩ := drawChar_some drawn
  exact kept.trans (kept.switched turned) (kept.moved _)

theorem chars (kept : Keeps machine rec keeps) (drawn : drawChars machine rec ch text screen = some after) :
    keeps screen after := by
  induction text generalizing ch screen with
  | nil =>
    cases drawn
    exact kept.refl _
  | cons c text ih =>
    obtain ⟨middle, first, rest⟩ := Option.bind_eq_some_iff.mp drawn
    exact kept.trans (kept.char first) (ih rest)

theorem line (kept : Keeps machine rec keeps) (drawn : drawLine machine rec text screen = some after) :
    keeps screen after := kept.trans (kept.moved _) (kept.chars drawn)

theorem lines (kept : Keeps machine rec keeps) {fuel line : Nat}
    (drawn : drawLines machine rec fuel line screen = some after) : keeps screen after := by
  induction fuel generalizing line screen with
  | zero => cases drawn
  | succ fuel ih =>
    rw [drawLines] at drawn
    split at drawn
    · obtain ⟨middle, first, rest⟩ := Option.bind_eq_some_iff.mp drawn
      exact kept.trans (kept.line first) (ih rest)
    · cases drawn
      exact kept.refl _

end Keeps

theorem grows_keeps : Keeps machine rec fun screen after => screen.lineBuffer <+: after.lineBuffer where
  refl _ := List.prefix_refl _
  trans := List.IsPrefix.trans
  moved _ := List.prefix_refl _
  switched := drawSwitch_grows

/-- The lines that are there, one after the other. -/
def drawAll (machine : Machine) (rec : Rect) : List Bytes → Screen → Option Screen
  | [], screen => some screen
  | text :: lines, screen => (drawLine machine rec text screen).bind (drawAll machine rec lines)

theorem Keeps.all {keeps : Screen → Screen → Prop} {lines : List Bytes} (kept : Keeps machine rec keeps)
    (drawn : drawAll machine rec lines screen = some after) : keeps screen after := by
  induction lines generalizing screen with
  | nil =>
    cases drawn
    exact kept.refl _
  | cons text lines ih =>
    obtain ⟨middle, first, rest⟩ := Option.bind_eq_some_iff.mp drawn
    exact kept.trans (kept.line first) (ih rest)

/-- The lines that were there are drawn before those that were written meanwhile. -/
theorem drawLines_eq {lines before : List Bytes} {fuel : Nat} (there : before ++ lines <+: screen.lineBuffer) :
    drawLines machine rec (lines.length + fuel) before.length screen =
      (drawAll machine rec lines screen).bind (drawLines machine rec fuel (before.length + lines.length)) := by
  induction lines generalizing before screen with
  | nil => simp [drawAll]
  | cons text lines ih =>
    obtain ⟨rest, whole⟩ := there
    have here : screen.lineBuffer[before.length]? = some text := by
      rw [← whole]
      simp
    have more : lines.length + 1 + fuel = (lines.length + fuel) + 1 := by omega
    rw [List.length_cons, more, drawLines, here, drawAll, Option.bind_assoc]
    dsimp only
    cases first : drawLine machine rec text screen with
    | none => rfl
    | some middle =>
      have there : (before ++ [text]) ++ lines <+: middle.lineBuffer := by
        refine List.IsPrefix.trans ?_ (grows_keeps.line first)
        rw [← whole, List.append_assoc]
        exact List.prefix_append ..
      have next := ih there
      rw [List.length_append, List.length_singleton] at next
      have behind : before.length + (lines.length + 1) = before.length + 1 + lines.length := by omega
      simp only [Option.bind_some, next, behind]

theorem screenDraw_eq {lineBuffer : List Bytes} : screenDraw machine rec lineBuffer =
    (drawAll machine rec lineBuffer { lineBuffer, y := rec.top + 9 }).bind
      (drawLines machine rec 40 lineBuffer.length) := by
  rw [screenDraw]
  have whole := @drawLines_eq machine rec { lineBuffer, y := rec.top + 9 } lineBuffer [] 40 (List.prefix_refl _)
  simpa using whole

theorem bounded_keeps (limit : Nat) (most : 39 ≤ limit) : Keeps machine rec fun screen after =>
    screen.lineBuffer.length ≤ limit → after.lineBuffer.length ≤ limit where
  refl _ := id
  trans first second bound := second (first bound)
  moved _ := id
  switched drawn bound := by
    cases drawSwitch_cases drawn with
    | escape | moves => exact bound
    | default => rwa [drawDefault_lineBuffer]
    | color _ _ lineBuffer printed =>
      rw [handleColorCode_lineBuffer]
      rcases printf_grows printed with ⟨_, rfl⟩ | ⟨_, _, few⟩
      · exact bound
      · exact Nat.le_trans (Nat.le_of_lt_succ few) most

/-- The loop over the lines never stops for want of turns. -/
theorem drawLines_enough {fuel line limit : Nat} (most : 39 ≤ limit) (bound : screen.lineBuffer.length ≤ limit)
    (inside : line ≤ screen.lineBuffer.length) (enough : limit < line + fuel) :
    drawLines machine rec (fuel + 1) line screen = drawLines machine rec fuel line screen := by
  induction fuel generalizing line screen with
  | zero => omega
  | succ fuel ih =>
    rw [drawLines, drawLines]
    split
    next text here =>
      refine Option.bind_congr fun middle first => ?_
      have grown := (grows_keeps.line first).length_le
      have reaches : line < screen.lineBuffer.length := (List.getElem?_eq_some_iff.mp here).1
      exact ih ((bounded_keeps limit most).line first bound) (by omega) (by omega)
    · rfl

end PowerBoot.Console
