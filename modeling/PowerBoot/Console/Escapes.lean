import PowerBoot.Console.Loops

/-! Color escapes. The digits are kept from one escape to the next, less the first of them. -/

namespace PowerBoot.Console

variable {machine : Machine} {rec : Rect} {ch : Nat} {c : UInt8} {text : Bytes} {screen after : Screen}

/-- The codes that `handleColorCode` was called with. -/
def codesOf (marks : List Mark) : List Int :=
  marks.filterMap fun
    | .color code => some code
    | _ => none

/-- What is known of escapes after a part of the text. -/
structure Escape where
  making : Bool := false
  digits : Bytes := []
  codes : List Int := []

def Escape.next (escape : Escape) (c : UInt8) : Escape :=
  if c = 27 then { escape with making := true, digits := escape.digits.tail }
  else if c = 109 ∧ escape.making then { escape with making := false, codes := escape.codes ++ [atoi escape.digits] }
  else if escape.making ∧ isDigit c then { escape with digits := escape.digits ++ [c] }
  else escape

def Screen.escape (screen : Screen) : Escape := ⟨screen.makingColor, screen.colorCodes, codesOf screen.marks⟩

theorem drawSwitch_escape (drawn : drawSwitch machine rec c screen = some after) :
    after.escape = screen.escape.next c := by
  cases drawSwitch_cases drawn with
  | escape is => simp [Screen.escape, Escape.next, codesOf, is]
  | moves is => rcases is with rfl | rfl | rfl <;> simp [Screen.escape, Escape.next, isDigit]
  | color is making => simp [Screen.escape, Escape.next, codesOf, is, making]
  | default other shown =>
    simp only [Screen.escape, Escape.next, other.1, if_false, shown, drawDefault]
    by_cases making : screen.makingColor = true
    · by_cases digit : isDigit c = true
      · simp [making, digit]
      · simp [making, digit]
    · simp [making, codesOf]

theorem drawChars_escape (drawn : drawChars machine rec ch text screen = some after) :
    after.escape = text.foldl Escape.next screen.escape := by
  induction text generalizing ch screen with
  | nil =>
    cases drawn
    rfl
  | cons c text ih =>
    obtain ⟨middle, first, rest⟩ := Option.bind_eq_some_iff.mp drawn
    obtain ⟨switched, turned, rfl⟩ := drawChar_some first
    rw [ih rest, List.foldl_cons, ← drawSwitch_escape turned]
    rfl

theorem drawAll_escape {lines : List Bytes} (drawn : drawAll machine rec lines screen = some after) :
    after.escape = lines.flatten.foldl Escape.next screen.escape := by
  induction lines generalizing screen with
  | nil =>
    cases drawn
    rfl
  | cons text lines ih =>
    obtain ⟨middle, first, rest⟩ := Option.bind_eq_some_iff.mp drawn
    rw [ih rest, List.flatten_cons, List.foldl_append, drawChars_escape (drawLine_eq.symm.trans first)]
    rfl

section quiet

theorem quiet_keeps (quiet : machine.silent = true ∨ machine.capacity = 0) :
    Keeps machine rec fun screen after => after.lineBuffer = screen.lineBuffer where
  refl _ := rfl
  trans first second := second.trans first
  moved _ := rfl
  switched drawn := by
    cases drawSwitch_cases drawn with
    | escape | moves => rfl
    | default => exact drawDefault_lineBuffer
    | color _ _ lineBuffer printed =>
      rw [handleColorCode_lineBuffer]
      rcases quiet with silent | full
      · rw [printf, if_pos silent] at printed
        exact (Option.some.inj printed).symm
      · simp only [printf, full, Nat.not_lt_zero, false_and, if_false, Option.ite_none_right_eq_some] at printed
        exact (Option.some.inj printed.2).symm

variable (lenient : machine.lenient = true) (silent : machine.silent = true)
include lenient silent

theorem drawSwitch_total : ∃ after, drawSwitch machine rec c screen = some after := by
  have erased : ∃ rest, eraseBegin machine screen.colorCodes = some rest := by
    cases screen.colorCodes with
    | nil => exact ⟨[], if_pos lenient⟩
    | cons _ rest => exact ⟨rest, rfl⟩
  have printed : printf machine (screen.colorCodes ++ [10]) screen.lineBuffer = some screen.lineBuffer := if_pos silent
  obtain ⟨rest, erased⟩ := erased
  unfold drawSwitch
  rw [erased, printed]
  split_ifs <;> exact ⟨_, rfl⟩

theorem drawChars_total : ∃ after, drawChars machine rec ch text screen = some after := by
  induction text generalizing ch screen with
  | nil => exact ⟨screen, rfl⟩
  | cons c text ih =>
    obtain ⟨switched, turned⟩ := @drawSwitch_total machine rec c screen lenient silent
    rw [drawChars, drawChar, turned]
    exact ih

theorem drawAll_total {lines : List Bytes} : ∃ after, drawAll machine rec lines screen = some after := by
  induction lines generalizing screen with
  | nil => exact ⟨screen, rfl⟩
  | cons text lines ih =>
    obtain ⟨middle, first⟩ := @drawChars_total machine rec 0 text { screen with x := rec.left + 9 } lenient silent
    rw [drawAll, drawLine, first]
    exact ih

end quiet

/-- Where no line is written meanwhile, the lines are drawn and nothing else. -/
theorem screenDraw_drawAll {lines : List Bytes}
    (drawn : drawAll machine rec lines { lineBuffer := lines, y := rec.top + 9 } =
    some after) (same : after.lineBuffer = lines) : screenDraw machine rec lines = some after := by
  rw [screenDraw_eq, drawn, Option.bind_some, drawLines, same, List.getElem?_eq_none (Nat.le_refl _)]

/-- An escape sequence that is well formed, ESC [ digits m, with the text behind it. -/
structure Sequence where
  digits : Bytes
  text : Bytes
  some_ : digits ≠ []
  each : ∀ c ∈ digits, isDigit c = true
  fits : Text.valueFrom 10 0 digits ≤ 2 ^ 31 - 1
  plain : 27 ∉ text

def Sequence.value (sequence : Sequence) : Int := Text.valueFrom 10 0 sequence.digits

/-- A text in which each ESC starts such a sequence. -/
structure Colored where
  start : Bytes
  plain : 27 ∉ start
  sequences : List Sequence

def Colored.whole (colored : Colored) : Bytes :=
  colored.start ++ colored.sequences.flatMap fun sequence => 27 :: 91 :: sequence.digits ++ 109 :: sequence.text

/-- The digits before sequence `k` that are still there when it is read. -/
def Colored.left (colored : Colored) (k : Nat) : Bytes :=
  ((colored.sequences.take k).map (·.digits)).flatten.drop k

section fold
variable {escape : Escape} {digits : Bytes}

theorem foldl_plain (idle : escape.making = false) (plain : 27 ∉ text) : text.foldl Escape.next escape = escape := by
  induction text with
  | nil => rfl
  | cons c text ih =>
    obtain ⟨here, later⟩ := List.ne_and_not_mem_of_not_mem_cons plain
    have kept : escape.next c = escape := by simp [Escape.next, Ne.symm here, idle]
    rw [List.foldl_cons, kept, ih later]

theorem foldl_digits (making : escape.making = true) (each : ∀ c ∈ digits, isDigit c = true) :
    digits.foldl Escape.next escape = { escape with digits := escape.digits ++ digits } := by
  induction digits generalizing escape with
  | nil => simp
  | cons c digits ih =>
    have digit := each c (List.mem_cons_self ..)
    have other : c ≠ 27 ∧ c ≠ 109 := by
      constructor <;> rintro rfl <;> revert digit <;> decide
    have next : escape.next c = { escape with digits := escape.digits ++ [c] } := by
      simp [Escape.next, other, making, digit]
    rw [List.foldl_cons, next]
    refine (ih (by exact making) fun c member => each c (List.mem_cons_of_mem _ member)).trans ?_
    simp

/-- A sequence is read with the digits that were left, less the first one. -/
theorem foldl_sequence (sequence : Sequence) :
    (27 :: 91 :: sequence.digits ++ 109 :: sequence.text).foldl Escape.next escape =
      ⟨false, escape.digits.tail ++ sequence.digits,
        escape.codes ++ [atoi (escape.digits.tail ++ sequence.digits)]⟩ := by
  have opens : (escape.next 27).next 91 = ⟨true, escape.digits.tail, escape.codes⟩ := by
    simp [Escape.next, isDigit]
  rw [List.cons_append, List.cons_append, List.foldl_cons, List.foldl_cons, opens, List.foldl_append,
    foldl_digits rfl sequence.each, List.foldl_cons]
  have closes : (Escape.mk true (escape.digits.tail ++ sequence.digits) escape.codes).next 109 =
      ⟨false, escape.digits.tail ++ sequence.digits,
        escape.codes ++ [atoi (escape.digits.tail ++ sequence.digits)]⟩ := by
    simp [Escape.next]
  rw [closes, foldl_plain rfl sequence.plain]

/-- The codes of sequences, where these digits were left by the one before. -/
def codesFrom : Bytes → List Sequence → List Int
  | _, [] => []
  | kept, sequence :: later => atoi (kept.tail ++ sequence.digits) :: codesFrom (kept.tail ++ sequence.digits) later

theorem foldl_sequences {sequences : List Sequence} :
    ((sequences.flatMap fun sequence => 27 :: 91 :: sequence.digits ++ 109 :: sequence.text).foldl Escape.next
      escape).codes =
      escape.codes ++ codesFrom escape.digits sequences := by
  induction sequences generalizing escape with
  | nil => simp [codesFrom]
  | cons sequence later ih =>
    rw [List.flatMap_cons, List.foldl_append, foldl_sequence, ih]
    simp [codesFrom]

end fold

section values
variable {kept : Bytes} {sequences : List Sequence} {k : Nat}

/-- Of all digits so far, one is dropped at each sequence behind the first one. -/
theorem codesFrom_get (some_ : kept ≠ []) (inside : k < sequences.length) : (codesFrom kept sequences)[k]? =
    some (atoi ((kept ++ ((sequences.take (k + 1)).map (·.digits)).flatten).drop (k + 1))) := by
  induction sequences generalizing kept k with
  | nil => cases inside
  | cons sequence later ih =>
    obtain ⟨first, kept, rfl⟩ := List.exists_cons_of_ne_nil some_
    cases k with
    | zero => simp [codesFrom]
    | succ k =>
      have more : kept ++ sequence.digits ≠ [] := fun empty => sequence.some_ (List.append_eq_nil_iff.mp empty).2
      have next := ih more (Nat.lt_of_succ_lt_succ inside)
      rw [codesFrom, List.getElem?_cons_succ, List.tail_cons, next]
      simp

theorem flatten_length (sequences : List Sequence) : sequences.length ≤ (sequences.map (·.digits)).flatten.length := by
  induction sequences with
  | nil => exact Nat.le_refl _
  | cons sequence later ih =>
    have pos := List.length_pos_iff.mpr sequence.some_
    simp only [List.map_cons, List.flatten_cons, List.length_append, List.length_cons]
    omega

theorem codesFrom_left {colored : Colored} {sequence : Sequence} (found : colored.sequences[k]? = some sequence) :
    (codesFrom [] colored.sequences)[k]? = some (atoi (colored.left k ++ sequence.digits)) := by
  have start : codesFrom [] colored.sequences = codesFrom [48] colored.sequences := by
    cases colored.sequences <;> rfl
  have inside := (List.getElem?_eq_some_iff.mp found).1
  have enough := flatten_length (colored.sequences.take k)
  rw [List.length_take_of_le (Nat.le_of_lt inside)] at enough
  rw [start, codesFrom_get (List.cons_ne_nil _ _) inside, List.take_add_one, found]
  simp only [Colored.left, Option.toList_some, List.map_append, List.flatten_append, List.cons_append, List.nil_append,
    List.drop_succ_cons, List.map_cons, List.map_nil, List.flatten_singleton, List.drop_append_of_le_length enough]

/-- Digits in front change the number unless they are zeros, or it is the largest one anyway. -/
theorem atoi_front {front : Bytes} {sequence : Sequence} (each : ∀ c ∈ front, isDigit c = true) :
    atoi (front ++ sequence.digits) = sequence.value ↔ (∀ c ∈ front, c = 48) ∨ sequence.value = 2 ^ 31 - 1 := by
  have zeros : Text.valueFrom 10 0 front = 0 ↔ ∀ c ∈ front, c = 48 := by
    rw [Text.valueFrom_zero_iff (by decide)]
    refine forall₂_congr fun c member => ?_
    have digit := each c member
    simp only [isDigit, Bool.decide_and, Bool.and_eq_true, decide_eq_true_eq] at digit
    rw [Text.digitValue, if_pos digit, Option.getD_some]
    constructor
    · intro zero
      apply UInt8.toNat_inj.mp
      have least := UInt8.le_iff_toNat_le.mp digit.1
      exact Nat.le_antisymm (Nat.sub_eq_zero_iff_le.mp zero) least
    · rintro rfl
      rfl
  have place : 0 < 10 ^ sequence.digits.length := Nat.pow_pos (by decide)
  have fits := sequence.fits
  rw [← zeros, atoi, Sequence.value, Text.valueFrom_append, Text.valueFrom_eq]
  generalize Text.valueFrom 10 0 front = carried at *
  generalize Text.valueFrom 10 0 sequence.digits = value at *
  have front_ : carried = 0 ↔ carried * 10 ^ sequence.digits.length = 0 := by
    rw [Nat.mul_eq_zero, or_iff_left place.ne']
  rw [front_]
  generalize carried * 10 ^ sequence.digits.length = more
  omega

theorem codesFrom_length : (codesFrom kept sequences).length = sequences.length := by
  induction sequences generalizing kept with
  | nil => rfl
  | cons sequence later ih => simp [codesFrom, ih]

theorem left_digits {colored : Colored} : ∀ c ∈ colored.left k, isDigit c = true := by
  intro c member
  obtain ⟨digits, among, here⟩ := List.mem_flatten.mp (List.mem_of_mem_drop member)
  obtain ⟨sequence, _, rfl⟩ := List.mem_map.mp among
  exact sequence.each c here

end values

/-- Each sequence is handled once, with its own number, exactly where the digits that are left
before it are zeros. The largest int is what any longer number is taken for. -/
theorem color_codes {lines : List Bytes} {colored : Colored} (lenient : machine.lenient = true)
    (silent : machine.silent = true) (text : lines.flatten = colored.whole) :
    ∃ screen, screenDraw machine rec lines = some screen ∧
      (codesOf screen.marks = colored.sequences.map Sequence.value ↔
        ∀ k sequence, colored.sequences[k]? = some sequence →
          (∀ c ∈ colored.left k, c = 48) ∨ sequence.value = 2 ^ 31 - 1) := by
  obtain ⟨screen, drawn⟩ := @drawAll_total machine rec { lineBuffer := lines, y := rec.top + 9 } lenient silent lines
  refine ⟨screen, screenDraw_drawAll drawn ((quiet_keeps (.inl silent)).all drawn), ?_⟩
  have codes : codesOf screen.marks = codesFrom [] colored.sequences := by
    have read := congrArg Escape.codes (drawAll_escape drawn)
    rw [text, Colored.whole, List.foldl_append, foldl_plain rfl colored.plain, foldl_sequences] at read
    exact read
  rw [codes]
  constructor
  · intro same k sequence found
    have code := congrArg (·[k]?) same
    simp only [codesFrom_left found, List.getElem?_map, found, Option.map_some, Option.some.injEq] at code
    exact (atoi_front left_digits).mp code
  · intro zeros
    apply List.ext_getElem?
    intro k
    cases found : colored.sequences[k]? with
    | none =>
      have outside := List.getElem?_eq_none_iff.mp found
      rw [List.getElem?_eq_none (by rwa [codesFrom_length]), List.getElem?_map, found, Option.map_none]
    | some sequence =>
      rw [codesFrom_left found, List.getElem?_map, found, Option.map_some]
      exact congrArg some ((atoi_front left_digits).mpr (zeros k sequence found))

/-- Widths of six everywhere, for tests. -/
def monospaced : Machine where
  charWidth _ := 6
  capacity := 64
  lenient := true
  silent := true

def redGreen : Colored where
  start := []
  plain := nofun
  sequences := [
    ⟨[51, 49], [65], nofun, by decide +kernel, by decide +kernel, by decide +kernel⟩,
    ⟨[51, 50], [66], nofun, by decide +kernel, by decide +kernel, by decide +kernel⟩]

def red : Colored := { redGreen with sequences := redGreen.sequences.take 1 }

theorem color_codes_red : ∃ screen,
    screenDraw monospaced ⟨0, 0⟩ [red.whole] = some screen ∧ codesOf screen.marks = [31] := by
  obtain ⟨screen, drawn, codes⟩ := @color_codes monospaced ⟨0, 0⟩ [red.whole] red rfl rfl List.flatten_singleton
  refine ⟨screen, drawn, codes.mpr ?_⟩
  rintro (_ | k) sequence found
  · exact .inl nofun
  · cases found

/-- The second sequence is handled with the last digit of the first one. -/
theorem color_codes_pile_up : (screenDraw monospaced ⟨0, 0⟩ [redGreen.whole]).map (fun screen => codesOf screen.marks) =
    some [31, 132] ∧ redGreen.sequences.map Sequence.value = [31, 32] := by
  decide +kernel

end PowerBoot.Console
