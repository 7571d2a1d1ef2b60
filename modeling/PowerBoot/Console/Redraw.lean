import PowerBoot.Console.Escapes

/-! Drawing writes to the lines that it draws where an escape sequence ends, because the
number of each sequence is printed on the same console. -/

namespace PowerBoot.Console

variable {machine : Machine} {rec : Rect} {ch : Nat} {c : UInt8} {text later : Bytes} {screen after : Screen}

def glyphsOf (marks : List Mark) : List Mark :=
  marks.filter fun
    | .glyph .. => true
    | _ => false

/-- The glyphs of each of these draws, with no write of the program in between. -/
def redraws (machine : Machine) (rec : Rect) : Nat → List Bytes → Option (List (List Mark))
  | 0, _ => some []
  | n + 1, lineBuffer => do
    let screen ← screenDraw machine rec lineBuffer
    return glyphsOf screen.marks :: (← redraws machine rec n screen.lineBuffer)

/-- `ScreenDraw` leaves the lines as they were, and can be repeated. -/
def ReadOnly (machine : Machine) (rec : Rect) (lineBuffer : List Bytes) : Prop :=
  ∃ screen, screenDraw machine rec lineBuffer = some screen ∧ screen.lineBuffer = lineBuffer ∧
    ∀ n, redraws machine rec n lineBuffer = some (List.replicate n (glyphsOf screen.marks))

theorem redraws_same {lineBuffer : List Bytes} (drawn : screenDraw machine rec lineBuffer = some screen)
    (same : screen.lineBuffer = lineBuffer) (n : Nat) :
    redraws machine rec n lineBuffer = some (List.replicate n (glyphsOf screen.marks)) := by
  induction n with
  | zero => rfl
  | succ n ih => simp [redraws, drawn, same, ih, List.replicate_succ]

/-- No escape sequence of the text ends in it, those that have begun before included. -/
def Harmless (making : Bool) (text : Bytes) : Prop :=
  (making = true → 109 ∉ text) ∧ ∀ before after, text = before ++ 27 :: after → 109 ∉ after

theorem harmless_cons {making : Bool} : Harmless making (c :: text) ↔
    ¬ (making = true ∧ c = 109) ∧ Harmless (making || c == 27) text := by
  constructor
  · rintro ⟨open_, escapes⟩
    refine ⟨?_, fun making_ => ?_, fun before after split => ?_⟩
    · rintro ⟨making_, rfl⟩
      exact open_ making_ (List.mem_cons_self ..)
    · rcases Bool.or_eq_true_iff.mp making_ with making_ | escape
      · exact (List.ne_and_not_mem_of_not_mem_cons (open_ making_)).2
      · exact escapes [] text (by rw [beq_iff_eq.mp escape, List.nil_append])
    · exact escapes (c :: before) after (by rw [split, List.cons_append])
  · rintro ⟨closes, open_, escapes⟩
    refine ⟨fun making_ member => ?_, fun before after split => ?_⟩
    · rcases List.mem_cons.mp member with rfl | member
      · exact closes ⟨making_, rfl⟩
      · exact open_ (by simp [making_]) member
    · cases before with
      | nil =>
        cases split
        exact open_ (by simp)
      | cons _ before =>
        cases split
        exact escapes before after rfl

theorem drawSwitch_plain (closes : ¬ (screen.makingColor = true ∧ c = 109))
    (drawn : drawSwitch machine rec c screen = some after) :
    after.lineBuffer = screen.lineBuffer ∧ after.makingColor = (screen.makingColor || c == 27) := by
  cases drawSwitch_cases drawn with
  | escape is => simp [is]
  | moves is => rcases is with rfl | rfl | rfl <;> simp
  | color is making => exact (closes ⟨making, is⟩).elim
  | default other =>
    refine ⟨drawDefault_lineBuffer, ?_⟩
    unfold drawDefault
    split
    · split <;> simp [other.1]
    · simp [other.1]

theorem drawSwitch_prints (prints : machine.silent = false) (closes : screen.makingColor = true ∧ c = 109)
    (drawn : drawSwitch machine rec c screen = some after) : screen.lineBuffer.length < after.lineBuffer.length := by
  obtain ⟨making, rfl⟩ := closes
  cases drawSwitch_cases drawn with
  | escape is => cases is
  | moves is => rcases is with is | is | is <;> cases is
  | default _ shown => exact (shown ⟨rfl, making⟩).elim
  | color _ _ lineBuffer printed =>
    rw [handleColorCode_lineBuffer]
    rcases printf_grows printed with ⟨silent, _⟩ | ⟨_, rfl, _⟩
    · rw [prints] at silent
      cases silent
    · simp

theorem drawSwitch_defined (closes : ¬ (screen.makingColor = true ∧ c = 109))
    (defined : machine.lenient = true ∨ c ≠ 27) : ∃ after, drawSwitch machine rec c screen = some after := by
  by_cases escape : c = 27
  · have lenient : machine.lenient = true := defined.resolve_right (not_not.mpr escape)
    cases codes : screen.colorCodes with
    | nil => simp [drawSwitch, escape, eraseBegin, codes, lenient]
    | cons => simp [drawSwitch, escape, eraseBegin, codes]
  · rw [and_comm] at closes
    unfold drawSwitch
    rw [if_neg escape, if_neg closes]
    split_ifs <;> exact ⟨_, rfl⟩

/-- A harmless text is drawn, and what is behind it is still harmless. -/
theorem drawChars_harmless (harmless : Harmless screen.makingColor (text ++ later))
    (defined : machine.lenient = true ∨ 27 ∉ text) : ∃ after, drawChars machine rec ch text screen = some after ∧
      after.lineBuffer = screen.lineBuffer ∧ Harmless after.makingColor later := by
  induction text generalizing ch screen with
  | nil => exact ⟨screen, rfl, rfl, harmless⟩
  | cons c text ih =>
    obtain ⟨closes, harmless⟩ := harmless_cons.mp harmless
    have here : machine.lenient = true ∨ c ≠ 27 := defined.imp_right fun absent => (List.ne_of_not_mem_cons absent).symm
    obtain ⟨switched, turned⟩ := @drawSwitch_defined machine rec c screen closes here
    obtain ⟨same, making⟩ := drawSwitch_plain closes turned
    rw [← making] at harmless
    obtain ⟨after, drawn, kept, behind⟩ := @ih (ch + 1)
      { switched with x := switched.x + (machine.charWidth (BitVec.ofNat 16 ch) + 9) } harmless
      (defined.imp_right List.not_mem_of_not_mem_cons)
    refine ⟨after, ?_, kept.trans same, behind⟩
    rw [drawChars, drawChar, turned]
    exact drawn

theorem drawAll_harmless {lines : List Bytes} (harmless : Harmless screen.makingColor lines.flatten)
    (defined : machine.lenient = true ∨ 27 ∉ lines.flatten) : ∃ after, drawAll machine rec lines screen = some after ∧
      after.lineBuffer = screen.lineBuffer := by
  induction lines generalizing screen with
  | nil => exact ⟨screen, rfl, rfl⟩
  | cons text lines ih =>
    rw [List.flatten_cons] at harmless defined
    obtain ⟨middle, first, same, harmless⟩ := @drawChars_harmless machine rec 0 text lines.flatten
      { screen with x := rec.left + 9 } harmless
        (defined.imp_right fun absent => fun member => absent (List.mem_append_left _ member))
    obtain ⟨after, drawn, kept⟩ :=
      ih harmless (defined.imp_right fun absent => fun member => absent (List.mem_append_right _ member))
    refine ⟨after, ?_, kept.trans same⟩
    rw [drawAll, drawLine, first]
    exact drawn

theorem drawChars_unharmed (prints : machine.silent = false) (drawn : drawChars machine rec ch text screen = some after)
    (same : after.lineBuffer.length ≤ screen.lineBuffer.length) (harmless : Harmless after.makingColor later) :
    Harmless screen.makingColor (text ++ later) := by
  induction text generalizing ch screen with
  | nil =>
    cases drawn
    exact harmless
  | cons c text ih =>
    obtain ⟨middle, first, rest⟩ := Option.bind_eq_some_iff.mp drawn
    obtain ⟨switched, turned, rfl⟩ := drawChar_some first
    have grown := (grows_keeps.chars rest).length_le
    have closes : ¬ (screen.makingColor = true ∧ c = 109) := by
      intro closes
      have longer := drawSwitch_prints prints closes turned
      dsimp only at grown
      omega
    obtain ⟨kept, making⟩ := drawSwitch_plain closes turned
    refine harmless_cons.mpr ⟨closes, ?_⟩
    rw [← making]
    have behind := ih rest (by simpa only [kept] using same)
    exact behind

theorem drawAll_unharmed {lines : List Bytes} (prints : machine.silent = false)
    (drawn : drawAll machine rec lines screen = some after)
    (same : after.lineBuffer.length ≤ screen.lineBuffer.length) :
    Harmless screen.makingColor lines.flatten := by
  induction lines generalizing screen with
  | nil => exact ⟨fun _ => List.not_mem_nil, fun before after split => by simp at split⟩
  | cons text lines ih =>
    obtain ⟨middle, first, rest⟩ := Option.bind_eq_some_iff.mp drawn
    have before := (grows_keeps.line first).length_le
    have behind := (grows_keeps.all rest).length_le
    rw [List.flatten_cons]
    have here := drawChars_unharmed prints (drawLine_eq.symm.trans first) (by dsimp only; omega) (ih rest (by omega))
    exact here

/-- Where erasing from the empty string is not defined, the first escape is the end. -/
theorem drawChars_strict (strict : machine.lenient = false) (drawn : drawChars machine rec ch text screen = some after)
    (idle : screen.makingColor = false ∧ screen.colorCodes = []) :
    27 ∉ text ∧ after.makingColor = false ∧ after.colorCodes = [] := by
  induction text generalizing ch screen with
  | nil =>
    cases drawn
    exact ⟨List.not_mem_nil, idle⟩
  | cons c text ih =>
    obtain ⟨middle, first, rest⟩ := Option.bind_eq_some_iff.mp drawn
    obtain ⟨switched, turned, rfl⟩ := drawChar_some first
    have step : c ≠ 27 ∧ switched.makingColor = false ∧ switched.colorCodes = [] := by
      cases drawSwitch_cases turned with
      | escape _ defined => simp [idle.2, strict] at defined
      | moves is => exact ⟨by rintro rfl; simp at is, idle⟩
      | color _ making => simp [idle.1] at making
      | default other => simpa [drawDefault, idle.1, other.1] using idle
    obtain ⟨absent, later⟩ := ih rest step.2
    exact ⟨List.not_mem_cons_of_ne_of_not_mem step.1.symm absent, later⟩

theorem drawAll_strict {lines : List Bytes} (strict : machine.lenient = false)
    (drawn : drawAll machine rec lines screen = some after)
    (idle : screen.makingColor = false ∧ screen.colorCodes = []) :
    27 ∉ lines.flatten := by
  induction lines generalizing screen with
  | nil => exact List.not_mem_nil
  | cons text lines ih =>
    obtain ⟨middle, first, rest⟩ := Option.bind_eq_some_iff.mp drawn
    obtain ⟨absent, idle⟩ := drawChars_strict strict (drawLine_eq.symm.trans first) idle
    rw [List.flatten_cons, List.mem_append, not_or]
    exact ⟨absent, ih rest idle⟩

private theorem readOnly_harmless {lines : List Bytes} (prints : machine.silent = false)
    (reads : ReadOnly machine rec lines) :
    (machine.lenient = true ∨ 27 ∉ lines.flatten) ∧ Harmless false lines.flatten := by
  obtain ⟨screen, drawn, same, _⟩ := reads
  rw [screenDraw_eq] at drawn
  obtain ⟨after, drawn, rest⟩ := Option.bind_eq_some_iff.mp drawn
  have grown := (grows_keeps.lines rest).length_le
  rw [same] at grown
  refine ⟨?_, drawAll_unharmed prints drawn grown⟩
  cases lenient : machine.lenient with
  | true => exact .inl rfl
  | false => exact .inr (drawAll_strict lenient drawn ⟨rfl, rfl⟩)

/-- Drawing is read-only exactly where no escape sequence ends. Strictly speaking there must be
none at all, because the first one erases from an empty string. -/
theorem screenDraw_readOnly {lines : List Bytes} (prints : machine.silent = false) :
    ReadOnly machine rec lines ↔ (machine.lenient = true ∨ 27 ∉ lines.flatten) ∧
      ∀ before after, lines.flatten = before ++ 27 :: after → 109 ∉ after := by
  constructor
  · intro reads
    obtain ⟨defined, _, escapes⟩ := readOnly_harmless prints reads
    exact ⟨defined, escapes⟩
  · rintro ⟨defined, escapes⟩
    have harmless : Harmless false lines.flatten := ⟨nofun, escapes⟩
    obtain ⟨screen, drawn, same⟩ := @drawAll_harmless machine rec { lineBuffer := lines, y := rec.top + 9 } lines
      harmless defined
    have drawn := screenDraw_drawAll drawn same
    exact ⟨screen, drawn, same, redraws_same drawn same⟩

def printing (lenient : Bool) : Machine := { monospaced with lenient, silent := false }

theorem screenDraw_readOnly_plain : ReadOnly (printing false) ⟨0, 0⟩ [[72, 105, 10]] := by
  refine (screenDraw_readOnly rfl).mpr ⟨.inr (by decide), fun before after split => ?_⟩
  have member : (27 : UInt8) ∈ [[72, 105, 10]].flatten := by rw [split]; simp
  exact absurd member (by decide)

/-- Drawing red text writes the number of its color, and drawing it again writes it again. -/
theorem screenDraw_writes :
    ¬ ReadOnly (printing true) ⟨0, 0⟩ [red.whole] ∧ ¬ ReadOnly (printing false) ⟨0, 0⟩ [red.whole] ∧
    (screenDraw (printing true) ⟨0, 0⟩ [red.whole]).map (·.lineBuffer) = some [red.whole, [51, 49, 10]] := by
  have harmful : ¬ Harmless false [red.whole].flatten := by
    rintro ⟨_, escapes⟩
    have closed := escapes [] [91, 51, 49, 109, 65] (by decide)
    revert closed
    decide
  exact ⟨fun reads => harmful (readOnly_harmless rfl reads).2, fun reads => harmful (readOnly_harmless rfl reads).2,
    by decide +kernel⟩

end PowerBoot.Console
