import PowerBoot.Console.Redraw

/-! What `ScreenDraw` shows where nothing is printed on the way. Escapes and line ends go on from
one line to the next, the pen does not. -/

namespace PowerBoot.Console

variable {machine : Machine} {rec : Rect} {c : UInt8} {text before : Bytes} {screen after : Screen}

/-- What goes on from one line to the next: how many lines have ended, and the escapes. -/
structure Ink where
  ends : Nat := 0
  making : Bool := false
  codes : Bytes := []
  foreColor : Color := .white
  backColor : Color := .black

def Ink.colored (ink : Ink) : Screen :=
  handleColorCode (atoi ink.codes) { lineBuffer := [], y := 0, foreColor := ink.foreColor, backColor := ink.backColor }

def Ink.next (ink : Ink) (c : UInt8) : Ink :=
  if c = 27 then { ink with making := true, codes := ink.codes.tail }
  else if c = 10 then { ink with ends := ink.ends + 1 }
  else if c = 109 ∧ ink.making then
    { ink with making := false, foreColor := ink.colored.foreColor, backColor := ink.colored.backColor }
  else if ink.making ∧ isDigit c then { ink with codes := ink.codes ++ [c] }
  else ink

def visible (c : UInt8) : Bool := c ≠ 27 ∧ c ≠ 10 ∧ c ≠ 9 ∧ c ≠ 13

/-- A glyph, without the place of the window and the widths of characters: what its line has before
it, and how many lines have ended. -/
structure Shown where
  before : Bytes
  c : UInt8
  ends : Nat
  foreColor : Color
  backColor : Color

/-- The characters of a line, each with what the line has before it. -/
def cellsFrom : Bytes → Bytes → List (Bytes × UInt8)
  | _, [] => []
  | before, c :: text => (before, c) :: cellsFrom (before ++ [c]) text

def cells (lines : List Bytes) : List (Bytes × UInt8) := lines.flatMap (cellsFrom [])

def shownFrom : Ink → List (Bytes × UInt8) → List Shown
  | _, [] => []
  | ink, (before, c) :: cells =>
    if visible c ∧ ¬ ink.making then ⟨before, c, ink.ends, ink.foreColor, ink.backColor⟩ :: shownFrom (ink.next c) cells
    else shownFrom (ink.next c) cells

def shown (lines : List Bytes) : List Shown := shownFrom {} (cells lines)

/-- Where the pen goes before it advances. -/
def turn (rec : Rect) (c : UInt8) (x : BitVec 16) : BitVec 16 :=
  if c = 10 ∨ c = 13 then rec.left + 9 else if c = 9 then (x + 16 + 8) &&& (x + 16 - 7) else x

def pen (machine : Machine) (rec : Rect) (before : Bytes) : BitVec 16 :=
  before.zipIdx.foldl (fun x (c, ch) => turn rec c x + (machine.charWidth (BitVec.ofNat 16 ch) + 9)) (rec.left + 9)

def Shown.glyph (machine : Machine) (rec : Rect) (shown : Shown) : Mark :=
  .glyph shown.c (pen machine rec shown.before) (rec.top + 9 + 12 * BitVec.ofNat 16 shown.ends) shown.foreColor
    shown.backColor

theorem pen_snoc : pen machine rec (before ++ [c]) =
    turn rec c (pen machine rec before) + (machine.charWidth (BitVec.ofNat 16 before.length) + 9) := by
  simp [pen, List.zipIdx_append, List.foldl_append]

section draw

structure Inked (rec : Rect) (ink : Ink) (screen : Screen) : Prop where
  y : screen.y = rec.top + 9 + 12 * BitVec.ofNat 16 ink.ends
  making : screen.makingColor = ink.making
  codes : screen.colorCodes = ink.codes
  foreColor : screen.foreColor = ink.foreColor
  backColor : screen.backColor = ink.backColor

theorem handleColorCode_colors {code : Int} {other : Screen} (fore : screen.foreColor = other.foreColor)
    (back : screen.backColor = other.backColor) : handleColorCode code screen =
      { screen with foreColor := (handleColorCode code other).foreColor, backColor :=
        (handleColorCode code other).backColor } := by
  unfold handleColorCode
  split <;> simp [← fore, ← back]

variable {ink : Ink}

theorem Inked.color (inked : Inked rec ink screen) :
    Inked rec { ink with foreColor := ink.colored.foreColor, backColor := ink.colored.backColor }
      (handleColorCode (atoi ink.codes) screen) ∧ (handleColorCode (atoi ink.codes) screen).x = screen.x := by
  have colors := @handleColorCode_colors screen (atoi ink.codes)
    { lineBuffer := [], y := 0, foreColor := ink.foreColor, backColor := ink.backColor } inked.foreColor inked.backColor
  rw [colors]
  exact ⟨⟨inked.y, inked.making, inked.codes, rfl, rfl⟩, rfl⟩

theorem line_end {top : BitVec 16} {ends : Nat} :
    top + 12 * BitVec.ofNat 16 (ends + 1) = top + 12 * BitVec.ofNat 16 ends + 12 := by
  rw [BitVec.ofNat_add]
  bv_omega

theorem drawSwitch_inked (inked : Inked rec ink screen) (drawn : drawSwitch machine rec c screen = some after) :
    Inked rec (ink.next c) after ∧ after.x = turn rec c screen.x ∧ glyphsOf after.marks = glyphsOf screen.marks ++
      if visible c ∧ ¬ ink.making then [.glyph c screen.x screen.y ink.foreColor ink.backColor] else [] := by
  obtain ⟨y, making, codes, foreColor, backColor⟩ := inked
  cases drawSwitch_cases drawn with
  | escape is =>
    subst is
    exact ⟨⟨y, rfl, congrArg List.tail codes, foreColor, backColor⟩, by simp [turn, Screen.mark], by simp [glyphsOf,
      visible]⟩
  | moves is x y' =>
    rcases is with rfl | rfl | rfl
    · obtain ⟨rfl, rfl⟩ : x = rec.left + 9 ∧ y' = screen.y + 12 := by simpa [drawSwitch, eq_comm] using drawn
      refine ⟨⟨?_, making, codes, foreColor, backColor⟩, by simp [turn], by simp [visible]⟩
      rw [y]
      exact line_end.symm
    · obtain ⟨rfl, rfl⟩ : x = (screen.x + 16 + 8) &&& (screen.x + 16 - 7) ∧ y' = screen.y := by
        simpa [drawSwitch, eq_comm] using drawn
      have same : ink.next 9 = ink := by simp [Ink.next, isDigit]
      rw [same]
      exact ⟨⟨y, making, codes, foreColor, backColor⟩, rfl, by simp [visible]⟩
    · obtain ⟨rfl, rfl⟩ : x = rec.left + 9 ∧ y' = screen.y := by simpa [drawSwitch, eq_comm] using drawn
      have same : ink.next 13 = ink := by simp [Ink.next, isDigit]
      rw [same]
      exact ⟨⟨y, making, codes, foreColor, backColor⟩, rfl, by simp [visible]⟩
  | color is closes lineBuffer printed =>
    subst is
    rw [closes] at making
    have next : ink.next 109 = { ink with
        making := false, foreColor := ink.colored.foreColor, backColor := ink.colored.backColor } := by
      simp [Ink.next, ← making]
    rw [next, codes]
    have idle : Inked rec { ink with making := false }
      { (screen.mark (.print (ink.codes ++ [10]))).mark (.color (atoi ink.codes)) with
        makingColor := false, lineBuffer } := ⟨y, rfl, codes, foreColor, backColor⟩
    exact ⟨idle.color.1, idle.color.2, by simp [glyphsOf, ← making]⟩
  | default other notClosing =>
    obtain ⟨noEscape, noMove⟩ := other
    have stays : turn rec c screen.x = screen.x := by
      unfold turn
      rw [if_neg (by tauto), if_neg (by tauto)]
    have next : ink.next c = if ink.making ∧ isDigit c then { ink with codes := ink.codes ++ [c] } else ink := by
      unfold Ink.next
      rw [if_neg noEscape, if_neg (by tauto), if_neg (by rwa [← making])]
    have seen : visible c = true := by simp [visible]; tauto
    rw [stays, next, seen, drawDefault, making]
    cases made : ink.making with
    | true =>
      rw [made] at making
      by_cases digit : isDigit c = true
      · rw [if_pos rfl, if_pos digit, if_pos ⟨rfl, digit⟩]
        exact ⟨⟨y, rfl, congrArg (· ++ [c]) codes, foreColor, backColor⟩, rfl, by simp⟩
      · rw [if_pos rfl, if_neg digit, if_neg fun both => digit both.2]
        exact ⟨⟨y, making.trans made.symm, codes, foreColor, backColor⟩, rfl, by simp⟩
    | false =>
      rw [made] at making
      exact ⟨⟨y, making.trans made.symm, codes, foreColor, backColor⟩, rfl, by simp [glyphsOf, foreColor, backColor]⟩

theorem drawChars_inked (inked : Inked rec ink screen) (here : screen.x = pen machine rec before)
    (drawn : drawChars machine rec before.length text screen = some after) :
    Inked rec (text.foldl Ink.next ink) after ∧ glyphsOf after.marks =
      glyphsOf screen.marks ++ (shownFrom ink (cellsFrom before text)).map (Shown.glyph machine rec) := by
  induction text generalizing ink before screen with
  | nil =>
    cases drawn
    exact ⟨inked, by simp [cellsFrom, shownFrom]⟩
  | cons c text ih =>
    obtain ⟨middle, first, rest⟩ := Option.bind_eq_some_iff.mp drawn
    obtain ⟨switched, turned, rfl⟩ := drawChar_some first
    obtain ⟨later, x, marks⟩ := drawSwitch_inked inked turned
    have length : (before ++ [c]).length = before.length + 1 := List.length_append
    rw [← length] at rest
    obtain ⟨last, whole⟩ := @ih (before ++ [c])
      { switched with x := switched.x + (machine.charWidth (BitVec.ofNat 16 before.length) + 9) } (ink.next c)
      ⟨later.y, later.making, later.codes, later.foreColor, later.backColor⟩ (by rw [pen_snoc, ← here, ← x]) rest
    refine ⟨last, whole.trans ?_⟩
    dsimp only
    rw [marks, cellsFrom, shownFrom, inked.y, here]
    split
    · simp [Shown.glyph]
    · rw [List.append_nil]

theorem shownFrom_append {cells later : List (Bytes × UInt8)} : shownFrom ink (cells ++ later) =
    shownFrom ink cells ++ shownFrom ((cells.map Prod.snd).foldl Ink.next ink) later := by
  induction cells generalizing ink with
  | nil => rfl
  | cons cell cells ih =>
    simp only [List.cons_append, shownFrom, List.map_cons, List.foldl_cons, ih]
    split <;> rfl

theorem cellsFrom_snd : (cellsFrom before text).map Prod.snd = text := by
  induction text generalizing before with
  | nil => rfl
  | cons c text ih => rw [cellsFrom, List.map_cons, ih]

theorem cells_cons {lines : List Bytes} : cells (text :: lines) = cellsFrom [] text ++ cells lines := List.flatMap_cons

theorem cells_snd {lines : List Bytes} : (cells lines).map Prod.snd = lines.flatten := by
  induction lines with
  | nil => rfl
  | cons text lines ih => rw [cells_cons, List.map_append, cellsFrom_snd, ih, List.flatten_cons]

theorem drawAll_inked {lines : List Bytes} (inked : Inked rec ink screen)
    (drawn : drawAll machine rec lines screen = some after) : glyphsOf after.marks =
      glyphsOf screen.marks ++ (shownFrom ink (cells lines)).map (Shown.glyph machine rec) := by
  induction lines generalizing ink screen with
  | nil =>
    cases drawn
    simp [cells, shownFrom]
  | cons text lines ih =>
    obtain ⟨middle, first, rest⟩ := Option.bind_eq_some_iff.mp drawn
    obtain ⟨later, marks⟩ := @drawChars_inked machine rec text [] { screen with x := rec.left + 9 } middle ink
      ⟨inked.y, inked.making, inked.codes, inked.foreColor, inked.backColor⟩ rfl first
    have whole := ih later rest
    rw [whole, marks, cells_cons, shownFrom_append, cellsFrom_snd, List.map_append, List.append_assoc]

/-- What `ScreenDraw` shows where it writes no lines. -/
theorem screenDraw_shown {lines : List Bytes}
    (drawn : drawAll machine rec lines { lineBuffer := lines, y := rec.top + 9 } =
    some after) : glyphsOf after.marks = (shown lines).map (Shown.glyph machine rec) := by
  have start : Inked rec {} { lineBuffer := lines, y := rec.top + 9 } := ⟨by simp, rfl, rfl, rfl, rfl⟩
  exact drawAll_inked start drawn

end draw

end PowerBoot.Console
