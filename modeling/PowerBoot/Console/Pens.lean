import PowerBoot.Console.Sites
import Mathlib.Data.BitVec
import Mathlib.Data.List.DropRight
import Mathlib.Data.List.Forall2

/-! Where the pen is when a glyph is drawn. It advances once for each index of a line, by the width of the
index and not of what stands there. -/

namespace PowerBoot.Console

variable {machine : Machine} {rec : Rect} {c : UInt8} {text before opening : Bytes} {lines : List Bytes}
  {screen after : Screen} {site : Site}

/-- The glyphs of these lines, which come before those of lines that are written meanwhile. -/
def linePlaces (lines : List Bytes) (screen : Screen) : List Place :=
  (placesOf screen.marks).take (glyphSites lines).length

theorem marks_keeps : Keeps machine rec fun screen after => screen.marks <+: after.marks where
  refl _ := List.prefix_refl _
  trans := List.IsPrefix.trans
  moved _ := List.prefix_refl _
  switched drawn := by
    cases drawSwitch_cases drawn with
    | escape | moves => simp
    | color => simp
    | default =>
      unfold drawDefault
      split
      · split <;> exact List.prefix_refl _
      · exact List.prefix_append ..

theorem screenDraw_places (drawn : screenDraw machine rec lines = some screen) :
    linePlaces lines screen = (glyphSites lines).map (Site.place machine rec) := by
  rw [screenDraw_eq] at drawn
  obtain ⟨after, first, rest⟩ := Option.bind_eq_some_iff.mp drawn
  obtain ⟨more, whole⟩ := marks_keeps.lines rest
  rw [linePlaces, ← whole, placesOf, List.filterMap_append]
  have places := drawAll_places first
  rw [placesOf] at places
  rw [places, List.take_left' (List.length_map _)]

/-- A line up to its last newline or carriage return, and what is behind it. -/
def rowStart (before : Bytes) : Bytes := before.rdropWhile fun c => c ≠ 10 ∧ c ≠ 13

def row (before : Bytes) : Bytes := before.rtakeWhile fun c => c ≠ 10 ∧ c ≠ 13

/-- The turns that the pen has advanced in since it was set to the left, by the start of the line or by its
last newline or carriage return, whose own turn is the first then. -/
def rowTurns (before : Bytes) : List (Bytes × UInt8) := (cellsFrom [] before).drop ((rowStart before).length - 1)

/-- The bytes of its row that have a glyph and are before it. -/
def Site.rowGlyphs (site : Site) : Bytes :=
  ((cellsFrom (rowStart site.before) (row site.before)).filter fun (before, c) =>
    visible c ∧ ¬ Escaped (site.opening ++ before)).map Prod.snd

def advance (machine : Machine) (ch : Nat) : BitVec 16 := machine.charWidth (BitVec.ofNat 16 ch) + 9

/-- Where a glyph ought to be: the widths of the glyphs of its row before it, each with 9 for the gap. -/
def Site.ideal (machine : Machine) (rec : Rect) (site : Site) : Int :=
  rec.left.toInt + 9 + (site.rowGlyphs.map fun c => (machine.charWidth (BitVec.ofNat 16 c.toNat)).toInt + 9).sum

abbrev Fits (x : Int) : Prop := -2 ^ 15 ≤ x ∧ x < 2 ^ 15

/-- Each glyph of a line without tabs is where it ought to be, as long as that fits. -/
def Advances (machine : Machine) (rec : Rect) (lines : List Bytes) (screen : Screen) : Prop :=
  List.Forall₂ (fun site place => 9 ∉ site.text → Fits (site.ideal machine rec) →
    place.x.toInt = site.ideal machine rec) (glyphSites lines) (linePlaces lines screen)

section row

theorem rowStart_length : (rowStart before).length ≤ before.length := (List.rdropWhile_prefix _ _).length_le

theorem cellsFrom_length : (cellsFrom before text).length = text.length := by
  rw [← List.length_map Prod.snd, cellsFrom_snd]

theorem cellsFrom_snoc : cellsFrom [] (before ++ [c]) = cellsFrom [] before ++ [(before, c)] := cellsFrom_append

theorem rowTurns_break (is : c = 10 ∨ c = 13) : rowTurns (before ++ [c]) = [(before, c)] := by
  have start : rowStart (before ++ [c]) = before ++ [c] := by
    rw [rowStart, List.rdropWhile_concat_neg]
    simp only [decide_eq_true_eq, not_and_or, not_not]
    exact is
  rw [rowTurns, start, cellsFrom_snoc, List.length_append, List.length_singleton, Nat.add_sub_cancel,
    List.drop_left' cellsFrom_length]

theorem rowTurns_other (is : ¬ (c = 10 ∨ c = 13)) : rowTurns (before ++ [c]) = rowTurns before ++ [(before, c)] := by
  have start : rowStart (before ++ [c]) = rowStart before := by
    rw [rowStart, List.rdropWhile_concat_pos]
    · rfl
    · simpa using not_or.mp is
  have inside := @rowStart_length before
  rw [rowTurns, rowTurns, start, cellsFrom_snoc, List.drop_append_of_le_length (by rw [cellsFrom_length]; omega)]

/-- Without tabs the pen advances from the left by the widths of the indices of its row. -/
theorem pen_row (plain : 9 ∉ before) : pen machine rec before =
    rec.left + 9 + ((rowTurns before).map fun (front, _) => advance machine front.length).sum := by
  induction before using List.reverseRecOn with
  | nil => simp [pen, rowTurns, cellsFrom]
  | append_singleton before c ih =>
    rw [List.mem_append, not_or, List.mem_singleton] at plain
    rw [pen_snoc, turn]
    by_cases is : c = 10 ∨ c = 13
    · rw [if_pos is, rowTurns_break is, List.map_singleton, List.sum_singleton]
      rfl
    · rw [if_neg is, if_neg (Ne.symm plain.2), ih plain.1, rowTurns_other is, List.map_append, List.sum_append,
        List.map_singleton, List.sum_singleton]
      exact BitVec.add_assoc ..

theorem cellsFrom_split {cell : Bytes × UInt8} (member : cell ∈ cellsFrom before text) :
    ∃ front rest, cell.1 = before ++ front ∧ text = front ++ cell.2 :: rest := by
  induction text generalizing before with
  | nil => cases member
  | cons c text ih =>
    rcases List.mem_cons.mp member with rfl | member
    · exact ⟨[], text, (List.append_nil _).symm, rfl⟩
    · obtain ⟨front, rest, same, rfl⟩ := ih member
      exact ⟨c :: front, rest, by rw [same, List.append_assoc]; rfl, rfl⟩

theorem site_cell (member : site ∈ sitesFrom opening lines) : ∃ more, site.opening = opening ++ more ∧
    site.text ∈ lines ∧ (site.before, site.c) ∈ cellsFrom [] site.text := by
  induction lines generalizing opening with
  | nil => cases member
  | cons text lines ih =>
    rcases List.mem_append.mp member with member | member
    · obtain ⟨cell, inside, rfl⟩ := List.mem_map.mp member
      exact ⟨[], (List.append_nil _).symm, List.mem_cons_self .., inside⟩
    · obtain ⟨more, behind, among, inside⟩ := ih member
      exact ⟨text ++ more, by rw [behind, List.append_assoc], List.mem_cons_of_mem _ among, inside⟩

theorem site_split (member : site ∈ sitesFrom opening lines) :
    ∃ rest, site.text = site.before ++ site.c :: rest := by
  obtain ⟨_, _, _, inside⟩ := site_cell member
  obtain ⟨front, rest, same, whole⟩ := cellsFrom_split inside
  obtain rfl : site.before = front := same
  exact ⟨rest, whole⟩

theorem ofInt_sum {numbers : List Int} : BitVec.ofInt 16 numbers.sum = (numbers.map (BitVec.ofInt 16)).sum := by
  induction numbers with
  | nil => rfl
  | cons number numbers ih => rw [List.sum_cons, BitVec.ofInt_add, ih, List.map_cons, List.sum_cons]

theorem ofInt_ideal : BitVec.ofInt 16 (site.ideal machine rec) =
    rec.left + 9 + (site.rowGlyphs.map fun c => advance machine c.toNat).sum := by
  rw [Site.ideal, BitVec.ofInt_add, BitVec.ofInt_add, ofInt_sum, BitVec.ofInt_toInt, List.map_map]
  congr 3
  refine funext fun c => ?_
  rw [Function.comp_apply, BitVec.ofInt_add, BitVec.ofInt_toInt]
  rfl

theorem toInt_eq_iff {x : BitVec 16} {number : Int} (fits : Fits number) :
    x.toInt = number ↔ x = BitVec.ofInt 16 number := by
  constructor
  · rintro rfl
    rw [BitVec.ofInt_toInt]
  · rintro rfl
    exact BitVec.toInt_ofInt_eq_self (by decide) fits.1 fits.2

end row

theorem advances_iff (drawn : screenDraw machine rec lines = some screen) : Advances machine rec lines screen ↔
    ∀ site ∈ glyphSites lines, 9 ∉ site.text → Fits (site.ideal machine rec) →
      (pen machine rec site.before).toInt = site.ideal machine rec := by
  rw [Advances, screenDraw_places drawn, List.forall₂_map_right_iff, List.forall₂_same]
  exact Iff.rfl

theorem pen_ideal (member : site ∈ sitesFrom opening lines) (plain : 9 ∉ site.text)
    (fits : Fits (site.ideal machine rec)) : (pen machine rec site.before).toInt = site.ideal machine rec ↔
      ((rowTurns site.before).map fun (front, _) => advance machine front.length).sum =
        (site.rowGlyphs.map fun c => advance machine c.toNat).sum := by
  obtain ⟨rest, whole⟩ := site_split member
  rw [whole, List.mem_append, not_or] at plain
  rw [toInt_eq_iff fits, ofInt_ideal, pen_row plain.1, BitVec.add_right_inj]

/-- Each glyph is where it ought to be exactly where the indices that the pen has advanced for are as wide as the
glyphs of the row. -/
theorem pen_advances (drawn : screenDraw machine rec lines = some screen) : Advances machine rec lines screen ↔
    ∀ site ∈ glyphSites lines, 9 ∉ site.text → Fits (site.ideal machine rec) →
      ((rowTurns site.before).map fun (front, _) => advance machine front.length).sum =
        (site.rowGlyphs.map fun c => advance machine c.toNat).sum := by
  rw [advances_iff drawn]
  exact forall₂_congr fun site member => forall₂_congr fun plain fits =>
    pen_ideal (List.mem_of_mem_filter member) plain fits

section oneWidth

theorem toNat_sum {α : Type} {items : List α} {f : α → BitVec 16} {width : Nat} (each : ∀ item, (f item).toNat = width)
    (short : items.length * width < 2 ^ 16) : (items.map f).sum.toNat = items.length * width := by
  induction items with
  | nil => simp
  | cons item items ih =>
    rw [List.length_cons, Nat.add_mul, Nat.one_mul] at short
    rw [List.map_cons, List.sum_cons, BitVec.toNat_add, each, ih (by omega), List.length_cons, Nat.add_mul, Nat.one_mul]
    omega

theorem rowTurns_length : (rowTurns before).length = before.length - ((rowStart before).length - 1) := by
  rw [rowTurns, List.length_drop, cellsFrom_length]

theorem rowStart_row : rowStart before ++ row before = before := List.rdropWhile_append_rtakeWhile

theorem rowGlyphs_le : site.rowGlyphs.length ≤ (row site.before).length := by
  rw [Site.rowGlyphs, List.length_map, ← @cellsFrom_length (row site.before) (rowStart site.before)]
  exact List.length_filter_le ..

theorem rowGlyphs_length : (rowTurns site.before).length = site.rowGlyphs.length ↔ site.rowGlyphs = site.before := by
  have parts := congrArg List.length (@rowStart_row site.before)
  rw [List.length_append] at parts
  have few := @rowGlyphs_le site
  rw [rowTurns_length]
  constructor
  · intro same
    have start : rowStart site.before = [] := List.length_eq_zero_iff.mp (by omega)
    have whole : row site.before = site.before := by
      have all := @rowStart_row site.before
      rwa [start, List.nil_append] at all
    rw [Site.rowGlyphs, start, whole, List.length_map] at same
    rw [Site.rowGlyphs, start, whole, List.filter_sublist.eq_of_length, cellsFrom_snd]
    rw [cellsFrom_length, ← same]
    simp
  · intro same
    rw [same] at few ⊢
    omega

/-- In a font of one width the glyphs are where they ought to be exactly where only glyphs stand before them. -/
theorem advances_one_width {width : BitVec 16} (drawn : screenDraw machine rec lines = some screen)
    (one : ∀ ch, machine.charWidth ch = width)
    (short : ∀ text ∈ lines, text.length * (width.toNat + 9) < 2 ^ 16) : Advances machine rec lines screen ↔
      ∀ site ∈ glyphSites lines, 9 ∉ site.text → Fits (site.ideal machine rec) → site.rowGlyphs = site.before := by
  rw [advances_iff drawn]
  refine forall₂_congr fun site member => forall₂_congr fun plain fits => ?_
  have sites := List.mem_of_mem_filter member
  rw [pen_ideal sites plain fits, ← rowGlyphs_length]
  obtain ⟨rest, whole⟩ := site_split sites
  obtain ⟨_, _, among, _⟩ := site_cell sites
  have narrow := short _ among
  rw [whole, List.length_append, List.length_cons] at narrow
  have turns := @rowTurns_length site.before
  have gap : (width + 9).toNat = width.toNat + 9 := by
    have least : width.toNat + 9 ≤ (site.before.length + (rest.length + 1)) * (width.toNat + 9) :=
      Nat.le_mul_of_pos_left _ (by omega)
    rw [BitVec.toNat_add]
    exact Nat.mod_eq_of_lt (Nat.lt_of_le_of_lt least narrow)
  have each (ch : Nat) : (advance machine ch).toNat = width.toNat + 9 := by rw [advance, one, gap]
  have fits_ {n : Nat} (few : n ≤ site.before.length) : n * (width.toNat + 9) < 2 ^ 16 :=
    Nat.lt_of_le_of_lt (Nat.mul_le_mul_right _ (by omega)) narrow
  have few := Nat.le_trans (@rowGlyphs_le site) (List.rtakeWhile_suffix _ _).length_le
  rw [← BitVec.toNat_inj, toNat_sum (fun _ => each _) (fits_ (by rw [rowTurns_length]; omega)),
    toNat_sum (fun _ => each _) (fits_ few)]
  exact Nat.mul_right_cancel_iff (by omega)

end oneWidth

/-- A word in a font of one width. -/
theorem pen_advances_word : ∃ screen, screenDraw monospaced ⟨0, 0⟩ [[72, 105, 10]] = some screen ∧
    Advances monospaced ⟨0, 0⟩ [[72, 105, 10]] screen := by
  obtain ⟨screen, drawn, _⟩ := @screenDraw_total monospaced ⟨0, 0⟩ [[72, 105, 10]] rfl rfl
  refine ⟨screen, drawn, (pen_advances drawn).mpr ?_⟩
  decide +kernel

/-- A letter behind an escape is five characters to the right of where it is without the escape. -/
theorem pen_drifts :
    (screenDraw monospaced ⟨0, 0⟩ [red.whole]).map (linePlaces [red.whole]) = some [⟨65, 84, 9⟩] ∧
    (screenDraw monospaced ⟨0, 0⟩ [[65]]).map (linePlaces [[65]]) = some [⟨65, 9, 9⟩] ∧
    ∀ screen, screenDraw monospaced ⟨0, 0⟩ [red.whole] = some screen →
      ¬ Advances monospaced ⟨0, 0⟩ [red.whole] screen := by
  refine ⟨by decide +kernel, by decide +kernel, fun screen drawn advances => ?_⟩
  have moved := (advances_iff drawn).mp advances
  revert moved
  decide +kernel

end PowerBoot.Console
