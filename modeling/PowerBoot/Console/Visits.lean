import PowerBoot.Console.Redraw
import Mathlib.Logic.Relation

/-! The two loops of `ScreenDraw` turn by turn, with the indices that they read at and the strings
that they erase from. -/

namespace PowerBoot.Console

variable {machine : Machine} {rec : Rect} {c : UInt8} {text : Bytes} {lines : List Bytes} {screen after : Screen}

/-- Where the loops stand: at which line, and at which index of it where the inner loop has begun. -/
structure Visit where
  line : Nat
  ch : Option Nat
  screen : Screen

def Visit.entry (visit : Visit) : Option Bytes := visit.screen.lineBuffer[visit.line]?

/-- A call of `line->at` or of `colorCodes.erase(colorCodes.begin())`, with the size of its string. -/
inductive Access where
  | lineAt (index size : Nat)
  | eraseBegin (size : Nat)

def Access.Valid : Access → Prop
  | .lineAt index size => index < size
  | .eraseBegin size => 0 < size

/-- The calls of the next turn. -/
def Visit.accesses (visit : Visit) : List Access :=
  match visit.ch, visit.entry with
  | some ch, some text =>
    if ch < text.length then
      .lineAt ch text.length :: if text[ch]? = some 27 then [.eraseBegin visit.screen.colorCodes.length] else []
    else []
  | _, _ => []

/-- The next turn of the loop over the lines or of the loop over a line. -/
def Visit.next (machine : Machine) (rec : Rect) (visit : Visit) : Option Visit := do
  let text ← visit.entry
  match visit.ch with
  | none => return { visit with ch := some 0, screen := { visit.screen with x := rec.left + 9 } }
  | some ch =>
    if inside : ch < text.length then
      let screen ← drawChar machine rec ch text[ch] visit.screen
      return { visit with ch := some (ch + 1), screen }
    else return { visit with line := visit.line + 1, ch := none }

def Turn (machine : Machine) (rec : Rect) (visit later : Visit) : Prop := visit.next machine rec = some later

def Visit.start (rec : Rect) (lineBuffer : List Bytes) : Visit := ⟨0, none, { lineBuffer, y := rec.top + 9 }⟩

def Reached (machine : Machine) (rec : Rect) (lineBuffer : List Bytes) : Visit → Prop :=
  Relation.ReflTransGen (Turn machine rec) (Visit.start rec lineBuffer)

section turns
variable {line ch : Nat}

theorem line_stays {lines' : List Bytes} (grown : lines <+: lines') (there : lines[line]? = some text) :
    lines'[line]? = some text := by
  obtain ⟨more, rfl⟩ := grown
  rwa [List.getElem?_append_left (List.getElem?_eq_some_iff.mp there).1]

theorem turn_begin (there : screen.lineBuffer[line]? = some text) :
    Turn machine rec ⟨line, none, screen⟩ ⟨line, some 0, { screen with x := rec.left + 9 }⟩ := by
  simp [Turn, Visit.next, Visit.entry, there]

theorem turn_char (there : screen.lineBuffer[line]? = some text) (read : text[ch]? = some c)
    (drawn : drawChar machine rec ch c screen = some after) :
    Turn machine rec ⟨line, some ch, screen⟩ ⟨line, some (ch + 1), after⟩ := by
  obtain ⟨inside, rfl⟩ := List.getElem?_eq_some_iff.mp read
  simp [Turn, Visit.next, Visit.entry, there, inside, drawn]

theorem turn_end (there : screen.lineBuffer[line]? = some text) (behind : text.length ≤ ch) :
    Turn machine rec ⟨line, some ch, screen⟩ ⟨line + 1, none, screen⟩ := by
  simp [Turn, Visit.next, Visit.entry, there, Nat.not_lt.mpr behind]

theorem turn_cases {visit later : Visit} (turned : Turn machine rec visit later) :
    ∃ line screen text, screen.lineBuffer[line]? = some text ∧
      (visit = ⟨line, none, screen⟩ ∧ later = ⟨line, some 0, { screen with x := rec.left + 9 }⟩ ∨
      (∃ ch c after, visit = ⟨line, some ch, screen⟩ ∧ text[ch]? = some c ∧
        drawChar machine rec ch c screen = some after ∧ later = ⟨line, some (ch + 1), after⟩) ∨
      ∃ ch, visit = ⟨line, some ch, screen⟩ ∧ text.length ≤ ch ∧ later = ⟨line + 1, none, screen⟩) := by
  obtain ⟨line, ch, screen⟩ := visit
  obtain ⟨text, there, turned⟩ := Option.bind_eq_some_iff.mp turned
  refine ⟨line, screen, text, there, ?_⟩
  cases ch with
  | none =>
    cases turned
    exact .inl ⟨rfl, rfl⟩
  | some ch =>
    dsimp only at turned
    split at turned
    next inside =>
      obtain ⟨after, drawn, same⟩ := Option.bind_eq_some_iff.mp turned
      cases same
      exact .inr (.inl ⟨ch, _, after, rfl, List.getElem?_eq_getElem inside, drawn, rfl⟩)
    next outside =>
      cases turned
      exact .inr (.inr ⟨ch, rfl, Nat.not_lt.mp outside, rfl⟩)

theorem next_of_drop {α : Type} {items rest : List α} {item : α} {i : Nat} (behind : items.drop i = item :: rest) :
    items[i]? = some item ∧ items.drop (i + 1) = rest := by
  rw [← List.head?_drop, ← List.tail_drop, behind]
  exact ⟨rfl, rfl⟩

theorem reaches_chars {rest : Bytes} (there : screen.lineBuffer[line]? = some text) (behind : text.drop ch = rest)
    (drawn : drawChars machine rec ch rest screen = some after) :
    Relation.ReflTransGen (Turn machine rec) ⟨line, some ch, screen⟩ ⟨line + 1, none, after⟩ := by
  induction rest generalizing ch screen with
  | nil =>
    cases drawn
    exact .single (turn_end there (List.drop_eq_nil_iff.mp behind))
  | cons c rest ih =>
    obtain ⟨middle, first, drawn⟩ := Option.bind_eq_some_iff.mp drawn
    obtain ⟨read, later⟩ := next_of_drop behind
    exact .head (turn_char there read first) (ih (line_stays (grows_keeps.char first) there) later drawn)

theorem reaches_lines {fuel : Nat} (drawn : drawLines machine rec fuel line screen = some after) :
    ∃ last, Relation.ReflTransGen (Turn machine rec) ⟨line, none, screen⟩ ⟨last, none, after⟩ ∧
      after.lineBuffer[last]? = none := by
  induction fuel generalizing line screen with
  | zero => cases drawn
  | succ fuel ih =>
    rw [drawLines] at drawn
    split at drawn
    next text there =>
      obtain ⟨middle, first, drawn⟩ := Option.bind_eq_some_iff.mp drawn
      obtain ⟨last, reached, outside⟩ := ih drawn
      have inner : Relation.ReflTransGen (Turn machine rec) ⟨line, some 0, { screen with x := rec.left + 9 }⟩
          ⟨line + 1, none, middle⟩ := reaches_chars there List.drop_zero (drawLine_eq.symm.trans first)
      exact ⟨last, .head (turn_begin there) (inner.trans reached), outside⟩
    next outside =>
      cases drawn
      exact ⟨line, .refl, outside⟩

/-- What is left to draw at a visit. -/
def Visit.rest (machine : Machine) (rec : Rect) (fuel : Nat) (visit : Visit) : Option Screen :=
  match visit.ch with
  | none => drawLines machine rec fuel visit.line visit.screen
  | some ch => (drawChars machine rec ch ((visit.entry.getD []).drop ch) visit.screen).bind
    (drawLines machine rec fuel (visit.line + 1))

theorem turn_rest {visit later : Visit} {limit : Nat} (most : 39 ≤ limit)
    (bound : visit.screen.lineBuffer.length ≤ limit) (turned : Turn machine rec visit later) :
    later.rest machine rec (limit + 1) = visit.rest machine rec (limit + 1) ∧
      later.screen.lineBuffer.length ≤ limit := by
  obtain ⟨line, screen, text, there, ⟨rfl, rfl⟩ | ⟨ch, c, after, rfl, read, drawn, rfl⟩ | ⟨ch, rfl, behind, rfl⟩⟩ :=
    turn_cases turned
  · have inside := (List.getElem?_eq_some_iff.mp there).1
    have enough := @drawLines_enough machine rec screen (limit + 1) line limit most bound (Nat.le_of_lt inside)
      (by omega)
    refine ⟨?_, bound⟩
    simp only [Visit.rest, Visit.entry, there, Option.getD_some, List.drop_zero]
    rw [← enough, drawLines, there]
    rfl
  · have grown := line_stays (grows_keeps.char drawn) there
    obtain ⟨inside, rfl⟩ := List.getElem?_eq_some_iff.mp read
    refine ⟨?_, (bounded_keeps limit most).char drawn bound⟩
    simp only [Visit.rest, Visit.entry, there, grown, Option.getD_some]
    rw [List.drop_eq_getElem_cons inside, drawChars, drawn]
    rfl
  · refine ⟨?_, bound⟩
    simp only [Visit.rest, Visit.entry, there, Option.getD_some, List.drop_eq_nil_iff.mpr behind, drawChars,
      Option.bind_some]

end turns

/-- The turns are those of `ScreenDraw`: what it draws is what is drawn when they end. -/
theorem reached_screenDraw : screenDraw machine rec lines = some screen ↔
    ∃ line, Reached machine rec lines ⟨line, none, screen⟩ ∧ screen.lineBuffer[line]? = none := by
  constructor
  · intro drawn
    exact reaches_lines drawn
  · rintro ⟨line, reached, outside⟩
    have invariant {visit : Visit} (reached : Reached machine rec lines visit) :
        visit.rest machine rec (lines.length + 39 + 1) = screenDraw machine rec lines ∧
          visit.screen.lineBuffer.length ≤ lines.length + 39 := by
      induction reached with
      | refl => exact ⟨rfl, Nat.le_add_right ..⟩
      | tail _ turned ih =>
        obtain ⟨same, bound⟩ := turn_rest (by omega) ih.2 turned
        exact ⟨same.trans ih.1, bound⟩
    rw [← (invariant reached).1, Visit.rest, drawLines, outside]

/-- Nothing has been printed, and no escape has begun. -/
structure Idle (lines : List Bytes) (screen : Screen) : Prop where
  lineBuffer : screen.lineBuffer = lines
  making : screen.makingColor = false
  codes : screen.colorCodes = []

theorem drawChar_idle {ch : Nat} (idle : Idle lines screen) (plain : c ≠ 27) :
    ∃ after, drawChar machine rec ch c screen = some after ∧ Idle lines after := by
  obtain ⟨lineBuffer, making, codes⟩ := idle
  have open_ : ¬ (screen.makingColor = true ∧ c = 109) := by simp [making]
  obtain ⟨switched, turned⟩ := @drawSwitch_defined machine rec c screen open_ (.inr plain)
  refine ⟨_, by rw [drawChar, turned]; rfl, ?_⟩
  cases drawSwitch_cases turned with
  | escape is => exact (plain is).elim
  | moves => exact ⟨lineBuffer, making, codes⟩
  | color is makes => exact (open_ ⟨makes, is⟩).elim
  | default =>
    have shown : drawDefault c screen = screen.mark (.glyph c screen.x screen.y screen.foreColor screen.backColor) := by
      simp [drawDefault, making]
    rw [shown]
    exact ⟨lineBuffer, making, codes⟩

/-- Every call of these visits is defined. -/
def AccessesValid (machine : Machine) (rec : Rect) (lineBuffer : List Bytes) : Prop :=
  ∀ visit, Reached machine rec lineBuffer visit → ∀ access ∈ visit.accesses, access.Valid

theorem accesses_char {line ch : Nat} (there : screen.lineBuffer[line]? = some text) (read : text[ch]? = some c) :
    (⟨line, some ch, screen⟩ : Visit).accesses =
      .lineAt ch text.length :: if c = 27 then [.eraseBegin screen.colorCodes.length] else [] := by
  obtain ⟨inside, rfl⟩ := List.getElem?_eq_some_iff.mp read
  simp [Visit.accesses, Visit.entry, there, inside]

theorem accesses_cases {visit : Visit} {access : Access} (member : access ∈ visit.accesses) :
    ∃ text ch c, visit.entry = some text ∧ text[ch]? = some c ∧
      (access = .lineAt ch text.length ∨ c = 27 ∧ access = .eraseBegin visit.screen.colorCodes.length) := by
  unfold Visit.accesses at member
  split at member
  next ch text _ there =>
    split at member
    next inside =>
      refine ⟨text, ch, text[ch], there, List.getElem?_eq_getElem inside, ?_⟩
      rcases List.mem_cons.mp member with same | erased
      · exact .inl same
      · split at erased
        next escape => exact .inr ⟨(List.getElem?_eq_some_iff.mp escape).2, List.mem_singleton.mp erased⟩
        next => cases erased
    next => cases member
  next => cases member

/-- Up to the first escape nothing is kept that it could erase. So where each call is defined there is none. -/
theorem reached_plain (valid : AccessesValid machine rec lines) {line ch : Nat}
    (reached : Reached machine rec lines ⟨line, some ch, screen⟩) (idle : Idle lines screen)
    (there : lines[line]? = some text) (read : text[ch]? = some c) : c ≠ 27 := by
  rintro rfl
  rw [← idle.lineBuffer] at there
  have erased := valid _ reached (.eraseBegin screen.colorCodes.length) (by simp [accesses_char there read])
  simp [Access.Valid, idle.codes] at erased

theorem reached_chars (valid : AccessesValid machine rec lines) {line ch : Nat} {rest : Bytes}
    (reached : Reached machine rec lines ⟨line, some ch, screen⟩) (idle : Idle lines screen)
    (there : lines[line]? = some text) (behind : text.drop ch = rest) :
    27 ∉ rest ∧ ∃ after, Reached machine rec lines ⟨line + 1, none, after⟩ ∧ Idle lines after := by
  have here := there
  rw [← idle.lineBuffer] at here
  induction rest generalizing ch screen with
  | nil => exact ⟨List.not_mem_nil, screen, reached.tail (turn_end here (List.drop_eq_nil_iff.mp behind)), idle⟩
  | cons c rest ih =>
    obtain ⟨read, later⟩ := next_of_drop behind
    have plain := reached_plain valid reached idle there read
    obtain ⟨after, drawn, idle'⟩ := @drawChar_idle machine rec c lines screen ch idle plain
    obtain ⟨absent, ends⟩ := ih (reached.tail (turn_char here read drawn)) idle' later (by rwa [idle'.lineBuffer])
    exact ⟨List.not_mem_cons_of_ne_of_not_mem plain.symm absent, ends⟩

theorem reached_lines (valid : AccessesValid machine rec lines) {line : Nat} {rest : List Bytes}
    (reached : Reached machine rec lines ⟨line, none, screen⟩) (idle : Idle lines screen)
    (behind : lines.drop line = rest) : 27 ∉ rest.flatten := by
  induction rest generalizing line screen with
  | nil => exact List.not_mem_nil
  | cons text rest ih =>
    obtain ⟨there, later⟩ := next_of_drop behind
    have begun := reached.tail (turn_begin (by rwa [idle.lineBuffer]))
    obtain ⟨absent, after, reached, idle⟩ := reached_chars valid begun ⟨idle.1, idle.2, idle.3⟩ there List.drop_zero
    rw [List.flatten_cons, List.mem_append, not_or]
    exact ⟨absent, ih reached idle later⟩

theorem reached_idle {visit : Visit} (plain : 27 ∉ lines.flatten) (reached : Reached machine rec lines visit) :
    Idle lines visit.screen := by
  induction reached with
  | refl => exact ⟨rfl, rfl, rfl⟩
  | tail _ turned idle =>
    obtain ⟨line, screen, text, there, ⟨rfl, rfl⟩ | ⟨ch, c, after, rfl, read, drawn, rfl⟩ | ⟨ch, rfl, _, rfl⟩⟩ :=
      turn_cases turned
    · exact ⟨idle.lineBuffer, idle.making, idle.codes⟩
    · rw [idle.lineBuffer] at there
      have among : c ∈ lines.flatten :=
        List.mem_flatten_of_mem (List.mem_of_getElem? there) (List.mem_of_getElem? read)
      have other := ne_of_mem_of_not_mem among plain
      obtain ⟨after', again, idle'⟩ := @drawChar_idle machine rec c lines screen ch idle other
      cases drawn.symm.trans again
      exact idle'
    · exact idle

/-- Each index is inside its line. Each erase finds a character exactly where there is no escape at all, because
the first one erases before anything is kept. -/
theorem accesses_valid : AccessesValid machine rec lines ↔ 27 ∉ lines.flatten := by
  constructor
  · intro valid
    exact reached_lines valid .refl ⟨rfl, rfl, rfl⟩ List.drop_zero
  · intro plain visit reached access member
    obtain ⟨text, ch, c, there, read, rfl | ⟨rfl, rfl⟩⟩ := accesses_cases member
    · exact (List.getElem?_eq_some_iff.mp read).1
    · rw [Visit.entry, (reached_idle plain reached).lineBuffer] at there
      exact (plain (List.mem_flatten_of_mem (List.mem_of_getElem? there) (List.mem_of_getElem? read))).elim

/-- Red text begins with an escape, and the string that it erases from is empty. -/
theorem accesses_red : ¬ AccessesValid (printing false) ⟨0, 0⟩ [red.whole] := by
  intro valid
  have begun : Reached (printing false) ⟨0, 0⟩ [red.whole] ⟨0, some 0, { lineBuffer := [red.whole], x := 9, y := 9 }⟩ :=
    .single (turn_begin rfl)
  exact reached_plain valid begun ⟨rfl, rfl, rfl⟩ rfl rfl rfl

end PowerBoot.Console
