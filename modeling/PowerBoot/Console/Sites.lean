import PowerBoot.Console.Shown
import Mathlib.Data.List.Induction

/-! Which bytes of the lines have a glyph, and in which row it is: a description of the whole text, without
a scan of it. -/

namespace PowerBoot.Console

variable {machine : Machine} {rec : Rect} {c : UInt8} {text before opening line : Bytes} {lines : List Bytes}
  {screen after : Screen}

/-- The text ends inside an escape, which goes from an ESC to the next `m`. -/
def Escaped (text : Bytes) : Prop := ∃ front back, text = front ++ 27 :: back ∧ 109 ∉ back

theorem escaped_snoc : Escaped (text ++ [c]) ↔ c = 27 ∨ c ≠ 109 ∧ Escaped text := by
  constructor
  · rintro ⟨front, back, whole, open_⟩
    rcases List.eq_nil_or_concat back with rfl | ⟨back, d, rfl⟩
    · exact .inl (List.singleton_inj.mp (List.append_inj' whole rfl).2)
    · rw [List.concat_eq_append, ← List.cons_append, ← List.append_assoc] at whole
      obtain ⟨split, last⟩ := List.append_inj' whole rfl
      rw [List.concat_eq_append, List.mem_append, not_or, List.mem_singleton, ← List.singleton_inj.mp last] at open_
      exact .inr ⟨Ne.symm open_.2, front, back, split, open_.1⟩
  · rintro (rfl | ⟨other, front, back, rfl, open_⟩)
    · exact ⟨text, [], rfl, List.not_mem_nil⟩
    · refine ⟨front, back ++ [c], by rw [List.append_assoc, List.cons_append], ?_⟩
      simpa [open_] using Ne.symm other

theorem making_next {ink : Ink} : (ink.next c).making = true ↔ c = 27 ∨ c ≠ 109 ∧ ink.making = true := by
  unfold Ink.next
  split_ifs with escape _ closes
  · simp [escape]
  · simp_all
  · simp [closes.1]
  all_goals
    simp only [escape, false_or, iff_and_self]
    exact fun making is => closes ⟨is, making⟩

theorem ends_next {ink : Ink} : (ink.next c).ends = ink.ends + if c = 10 then 1 else 0 := by
  unfold Ink.next
  split_ifs <;> simp_all

theorem foldl_snoc {ink : Ink} : (text ++ [c]).foldl Ink.next ink = (text.foldl Ink.next ink).next c := by
  rw [List.foldl_append, List.foldl_cons, List.foldl_nil]

theorem ink_making : (text.foldl Ink.next {}).making = true ↔ Escaped text := by
  induction text using List.reverseRecOn with
  | nil => simp [Escaped]
  | append_singleton text c ih => rw [foldl_snoc, making_next, ih, escaped_snoc]

theorem ink_ends : (text.foldl Ink.next {}).ends = text.count 10 := by
  induction text using List.reverseRecOn with
  | nil => rfl
  | append_singleton text c ih =>
    rw [foldl_snoc, ends_next, ih, List.count_append, List.count_singleton]
    simp

instance : DecidablePred Escaped := fun _ => decidable_of_iff _ ink_making

/-- A byte of the lines: the text of the lines before, its line, and what is before it in its line. -/
structure Site where
  opening : Bytes
  text : Bytes
  before : Bytes
  c : UInt8
deriving DecidableEq

def Site.past (site : Site) : Bytes := site.opening ++ site.before

abbrev Site.Drawn (site : Site) : Prop := visible site.c = true ∧ ¬ Escaped site.past

def sitesFrom (opening : Bytes) : List Bytes → List Site
  | [] => []
  | text :: lines => (cellsFrom [] text).map (fun (before, c) => ⟨opening, text, before, c⟩) ++
    sitesFrom (opening ++ text) lines

def glyphSites (lines : List Bytes) : List Site := (sitesFrom [] lines).filter Site.Drawn

/-- A glyph, without its colors. -/
structure Place where
  c : UInt8
  x : BitVec 16
  y : BitVec 16
deriving DecidableEq

def placesOf (marks : List Mark) : List Place :=
  marks.filterMap fun
    | .glyph c x y _ _ => some ⟨c, x, y⟩
    | _ => none

def Site.place (machine : Machine) (rec : Rect) (site : Site) : Place :=
  ⟨site.c, pen machine rec site.before, rec.top + 9 + 12 * BitVec.ofNat 16 (site.past.count 10)⟩

section sites

theorem shownFrom_sites : (shownFrom ((opening ++ before).foldl Ink.next {}) (cellsFrom before text)).map
      (fun shown => (shown.before, shown.c, shown.ends)) =
    (((cellsFrom before text).map fun (before, c) => Site.mk opening line before c).filter Site.Drawn).map
      fun site => (site.before, site.c, site.past.count 10) := by
  induction text generalizing before with
  | nil => rfl
  | cons c text ih =>
    have next : ((opening ++ before).foldl Ink.next {}).next c = (opening ++ (before ++ [c])).foldl Ink.next {} := by
      rw [← List.append_assoc, foldl_snoc]
    have drawn : Site.Drawn ⟨opening, line, before, c⟩ ↔
        visible c = true ∧ ¬ ((opening ++ before).foldl Ink.next {}).making = true := by
      rw [ink_making]
      exact Iff.rfl
    rw [cellsFrom, shownFrom, next, List.map_cons, List.filter_cons]
    by_cases shows : Site.Drawn ⟨opening, line, before, c⟩
    · rw [if_pos (drawn.mp shows), if_pos (decide_eq_true shows), List.map_cons, List.map_cons, ih, ink_ends]
      rfl
    · rw [if_neg (mt drawn.mpr shows), if_neg (by simpa using shows), ih]

theorem shown_sites : (shownFrom (opening.foldl Ink.next {}) (cells lines)).map
      (fun shown => (shown.before, shown.c, shown.ends)) =
    ((sitesFrom opening lines).filter Site.Drawn).map fun site => (site.before, site.c, site.past.count 10) := by
  induction lines generalizing opening with
  | nil => rfl
  | cons text lines ih =>
    have here := @shownFrom_sites text [] opening text
    rw [List.append_nil] at here
    rw [cells_cons, shownFrom_append, cellsFrom_snd, ← List.foldl_append, List.map_append, here, ih, sitesFrom,
      List.filter_append, List.map_append]

theorem placesOf_glyphs {marks : List Mark} : placesOf marks = placesOf (glyphsOf marks) := by
  induction marks with
  | nil => rfl
  | cons mark marks ih => cases mark <;> simp_all [placesOf, glyphsOf]

/-- Each byte that has a glyph is drawn once, in the order of the text. -/
theorem drawAll_places (drawn : drawAll machine rec lines { lineBuffer := lines, y := rec.top + 9 } = some after) :
    placesOf after.marks = (glyphSites lines).map (Site.place machine rec) := by
  have sites := congrArg (List.map fun (before, c, ends) =>
    Place.mk c (pen machine rec before) (rec.top + 9 + 12 * BitVec.ofNat 16 ends)) (@shown_sites [] lines)
  rw [List.map_map, List.map_map] at sites
  rw [placesOf_glyphs, screenDraw_shown drawn]
  refine Eq.trans ?_ sites
  simp [placesOf, shown, Shown.glyph, List.filterMap_map, Function.comp_def]

theorem cellsFrom_append {later : Bytes} :
    cellsFrom before (text ++ later) = cellsFrom before text ++ cellsFrom (before ++ text) later := by
  induction text generalizing before with
  | nil => simp [cellsFrom]
  | cons c text ih => simp [cellsFrom, ih]

theorem cellsFrom_opening : (cellsFrom before text).map (fun (before, c) => (opening ++ before, c)) =
    cellsFrom (opening ++ before) text := by
  induction text generalizing before with
  | nil => rfl
  | cons c text ih => rw [cellsFrom, cellsFrom, List.map_cons, ih, List.append_assoc]

theorem sitesFrom_text : (sitesFrom opening lines).map (fun site => (site.past, site.c)) =
    cellsFrom opening lines.flatten := by
  induction lines generalizing opening with
  | nil => rfl
  | cons text lines ih =>
    have here := @cellsFrom_opening text [] opening
    rw [List.append_nil] at here
    rw [sitesFrom, List.map_append, ih, List.map_map, List.flatten_cons, cellsFrom_append, ← here]
    rfl

end sites

/-- The glyphs that a text ought to have, each with the `y` of its row: all bytes but escapes and the bytes
that move the pen. A row is twelve lower for each newline before it. -/
def glyphRows (rec : Rect) (text : Bytes) : List (UInt8 × BitVec 16) :=
  ((cellsFrom [] text).filter fun (before, c) => visible c ∧ ¬ Escaped before).map
    fun (before, c) => (c, rec.top + 9 + 12 * BitVec.ofNat 16 (before.count 10))

theorem glyphSites_rows : (glyphSites lines).map (fun site => (site.c, rec.top + 9 + 12 * BitVec.ofNat 16
    (site.past.count 10))) = glyphRows rec lines.flatten := by
  rw [glyphRows, ← sitesFrom_text, List.filter_map, List.map_map, glyphSites]
  rfl

theorem screenDraw_total (lenient : machine.lenient = true) (silent : machine.silent = true) :
    ∃ screen, screenDraw machine rec lines = some screen ∧
      placesOf screen.marks = (glyphSites lines).map (Site.place machine rec) := by
  obtain ⟨screen, drawn⟩ := @drawAll_total machine rec { lineBuffer := lines, y := rec.top + 9 } lenient silent lines
  exact ⟨screen, screenDraw_drawAll drawn ((quiet_keeps (.inl silent)).all drawn), drawAll_places drawn⟩

/-- `ScreenDraw` draws the glyphs of the text that its lines make up, in order, each once and in its row. -/
theorem screenDraw_rows (lenient : machine.lenient = true) (silent : machine.silent = true) :
    ∃ screen, screenDraw machine rec lines = some screen ∧
      (placesOf screen.marks).map (fun place => (place.c, place.y)) = glyphRows rec lines.flatten := by
  obtain ⟨screen, drawn, places⟩ := @screenDraw_total machine rec lines lenient silent
  refine ⟨screen, drawn, ?_⟩
  rw [places, List.map_map, ← glyphSites_rows]
  rfl

/-- A newline, and an escape that goes on in the next line. -/
theorem screenDraw_rows_red : ∃ screen, screenDraw monospaced ⟨0, 0⟩ [[65, 10, 27, 51], [49, 109, 66, 13, 67]] =
    some screen ∧ (placesOf screen.marks).map (fun place => (place.c, place.y)) = [(65, 9), (66, 21), (67, 21)] := by
  obtain ⟨screen, drawn, rows⟩ := @screenDraw_rows monospaced ⟨0, 0⟩ [[65, 10, 27, 51], [49, 109, 66, 13, 67]] rfl rfl
  refine ⟨screen, drawn, rows.trans ?_⟩
  decide +kernel

end PowerBoot.Console
