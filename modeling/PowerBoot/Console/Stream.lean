import PowerBoot.Console.Shown

/-! A stream of bytes on the console, and how what is drawn of it depends on the writes that it
came in. -/

namespace PowerBoot.Console

variable {machine : Machine} {rec : Rect} {c : UInt8} {text before : Bytes} {screen after : Screen}

def written (writes : List Bytes) : List Bytes := writes.foldl consolewrite []

theorem consolewrite_suffix {lines writes : List Bytes} (kept : lines <:+ writes) :
    consolewrite lines text <:+ writes ++ [text] := by
  have pushed : lines ++ [text] <:+ writes ++ [text] := by
    obtain ⟨dropped, rfl⟩ := kept
    exact ⟨dropped, by rw [List.append_assoc]⟩
  unfold consolewrite
  dsimp only
  split
  · exact (List.drop_suffix 1 _).trans pushed
  · exact pushed

theorem foldl_suffix {lines before writes : List Bytes} (kept : lines <:+ before) :
    writes.foldl consolewrite lines <:+ before ++ writes := by
  induction writes generalizing lines before with
  | nil => rwa [List.append_nil]
  | cons text writes ih =>
    have later := ih (@consolewrite_suffix text _ _ kept)
    rwa [List.append_assoc] at later

theorem written_suffix {writes : List Bytes} : written writes <:+ writes :=
  @foldl_suffix [] [] writes List.suffix_rfl

theorem flatten_suffix {lines writes : List Bytes} (kept : lines <:+ writes) : lines.flatten <:+ writes.flatten := by
  obtain ⟨dropped, rfl⟩ := kept
  rw [List.flatten_append]
  exact List.suffix_append ..

/-- What a glyph depends on: its character, how many characters its line has before it, and how many
lines have ended, of which the pen keeps 16 bits. -/
def Shown.place (shown : Shown) : UInt8 × Nat × Nat := (shown.c, shown.before.length, shown.ends % 16384)

section places

/-- Each cell follows this text and the cells before it. -/
def Follows : Bytes → List (Bytes × UInt8) → Prop
  | _, [] => True
  | text, (before, c) :: cells => before <:+ text ∧ Follows (text ++ [c]) cells

theorem Follows.append {cells later : List (Bytes × UInt8)} : Follows text (cells ++ later) ↔
    Follows text cells ∧ Follows (text ++ cells.map Prod.snd) later := by
  induction cells generalizing text with
  | nil => simp [Follows]
  | cons cell cells ih => simp [Follows, ih, and_assoc]

theorem cellsFrom_follows (ends : before <:+ screenText) : Follows screenText (cellsFrom before text) := by
  induction text generalizing before screenText with
  | nil => trivial
  | cons c text ih =>
    obtain ⟨dropped, rfl⟩ := ends
    exact ⟨List.suffix_append .., ih ⟨dropped, by rw [List.append_assoc]⟩⟩

theorem cells_follows {lines : List Bytes} : Follows before (cells lines) := by
  induction lines generalizing before with
  | nil => trivial
  | cons text lines ih =>
    rw [cells_cons]
    exact Follows.append.mpr ⟨cellsFrom_follows (List.nil_suffix), ih⟩

theorem next_ends {ink : Ink} {ends : Nat} : ∃ later, { ink with ends }.next c = { ink.next c with ends := later } := by
  unfold Ink.next Ink.colored
  split_ifs <;> exact ⟨_, rfl⟩

theorem glyph_of_place {shown shown' : Shown} (part : shown.before <:+ text) (part' : shown'.before <:+ text)
    (colors : shown.foreColor = shown'.foreColor ∧ shown.backColor = shown'.backColor)
      (same : shown.place = shown'.place) :
    shown.glyph machine rec = shown'.glyph machine rec := by
  simp only [Shown.place, Prod.mk.injEq] at same
  obtain ⟨c, length, ends⟩ := same
  have before : shown.before = shown'.before :=
    (List.suffix_of_suffix_length_le part part' length.le).eq_of_length length
  have y : 12 * BitVec.ofNat 16 shown.ends = 12 * BitVec.ofNat 16 shown'.ends := by
    apply BitVec.eq_of_toNat_eq
    rw [BitVec.toNat_mul, BitVec.toNat_mul, BitVec.toNat_ofNat, BitVec.toNat_ofNat]
    have twelve : (12 : BitVec 16).toNat = 12 := rfl
    rw [twelve]
    omega
  rw [Shown.glyph, Shown.glyph, c, before, y, colors.1, colors.2]

theorem glyphs_of_places {ink : Ink} {ends : Nat} {cells cells' : List (Bytes × UInt8)}
    (text_ : cells.map Prod.snd = cells'.map Prod.snd) (follows : Follows text cells) (follows' : Follows text cells')
    (places : (shownFrom ink cells).map Shown.place = (shownFrom { ink with ends } cells').map Shown.place) :
    (shownFrom ink cells).map (Shown.glyph machine rec) = (shownFrom { ink with ends } cells').map
      (Shown.glyph machine rec) := by
  induction cells generalizing ink ends cells' text with
  | nil =>
    cases cells' with
    | nil => rfl
    | cons => cases text_
  | cons cell cells ih =>
    obtain ⟨before, c⟩ := cell
    cases cells' with
    | nil => cases text_
    | cons cell' cells' =>
      obtain ⟨before', c'⟩ := cell'
      obtain ⟨rfl, rest⟩ := List.cons_eq_cons.mp text_
      obtain ⟨later, next⟩ := @next_ends c ink ends
      rw [shownFrom, shownFrom] at places ⊢
      dsimp only at places ⊢
      rw [next] at places ⊢
      split at places
      next seen =>
        rw [if_pos seen, if_pos seen]
        obtain ⟨here, places⟩ := List.cons_eq_cons.mp places
        exact List.cons_eq_cons.mpr
          ⟨glyph_of_place follows.1 follows'.1 ⟨rfl, rfl⟩ here, ih rest follows.2 follows'.2 places⟩
      next unseen =>
        rw [if_neg unseen, if_neg unseen]
        exact ih rest follows.2 follows'.2 places

theorem foldl_idle {ink : Ink} (idle : ink.making = false) (plain : 27 ∉ text) :
    ∃ ends, text.foldl Ink.next ink = { ink with ends } := by
  induction text generalizing ink with
  | nil => exact ⟨ink.ends, rfl⟩
  | cons c text ih =>
    obtain ⟨here, later⟩ := List.ne_and_not_mem_of_not_mem_cons plain
    have noColor : ¬ (c = 109 ∧ ink.making = true) := by simp [idle]
    have noDigit : ¬ (ink.making = true ∧ isDigit c = true) := by simp [idle]
    have next : ∃ ends, ink.next c = { ink with ends } := by
      unfold Ink.next
      rw [if_neg here.symm, if_neg noColor, if_neg noDigit]
      split <;> exact ⟨_, rfl⟩
    obtain ⟨ends, next⟩ := next
    rw [List.foldl_cons, next]
    exact ih idle later

theorem shown_length {ink : Ink} {cells : List (Bytes × UInt8)} (idle : ink.making = false)
    (plain : 27 ∉ cells.map Prod.snd) :
    (shownFrom ink cells).length = ((cells.map Prod.snd).filter visible).length := by
  induction cells generalizing ink with
  | nil => rfl
  | cons cell cells ih =>
    obtain ⟨before, c⟩ := cell
    obtain ⟨here, later⟩ := List.ne_and_not_mem_of_not_mem_cons plain
    obtain ⟨ends, next⟩ := @foldl_idle [c] ink idle (by simpa using here)
    have idle' : (ink.next c).making = false := by
      change ([c].foldl Ink.next ink).making = false
      rw [next]
      exact idle
    have rest := ih idle' later
    rw [shownFrom, List.map_cons, List.filter_cons, idle]
    dsimp only
    split
    next seen => simp [seen.1, rest]
    next unseen =>
      rw [if_neg (by simpa using unseen)]
      exact rest

/-- A text that begins earlier shows no more where nothing of its beginning is visible. -/
theorem glyphs_of_longer {lines lines' : List Bytes} {front : Bytes} (longer : lines.flatten = front ++ lines'.flatten)
    (plain : front = [] ∨ 27 ∉ lines.flatten)
    (places : (shown lines).map Shown.place = (shown lines').map Shown.place) :
    (shown lines).map (Shown.glyph machine rec) = (shown lines').map (Shown.glyph machine rec) := by
  have whole := @cells_snd lines
  rw [longer] at whole
  obtain ⟨first, second, cut, isFront, isRest⟩ := List.map_eq_append_iff.mp whole
  have parts : shown lines = shownFrom {} first ++ shownFrom (front.foldl Ink.next {}) second := by
    rw [shown, cut, shownFrom_append, isFront]
  have nothing : shownFrom {} first = [] ∧ ∃ ends, front.foldl Ink.next {} = { ends } := by
    rcases plain with rfl | plain
    · rw [List.map_eq_nil_iff.mp isFront]
      exact ⟨rfl, 0, rfl⟩
    · have plain' : 27 ∉ front ++ lines'.flatten := longer ▸ plain
      rw [List.mem_append, not_or] at plain'
      refine ⟨?_, foldl_idle rfl plain'.1⟩
      have count := congrArg List.length places
      rw [List.length_map, List.length_map, shown, shown, shown_length rfl (by rwa [cells_snd]),
        shown_length rfl (by rw [cells_snd]; exact plain'.2), cells_snd, cells_snd, longer, List.filter_append,
        List.length_append] at count
      apply List.length_eq_zero_iff.mp
      rw [shown_length rfl (by rw [isFront]; exact plain'.1), isFront]
      omega
  obtain ⟨empty, ends, next⟩ := nothing
  rw [parts, empty, List.nil_append, next] at places ⊢
  have follows : Follows front second := by
    have all := @cells_follows [] lines
    rw [cut, Follows.append, isFront] at all
    exact all.2
  exact (glyphs_of_places (cells_snd.trans isRest.symm) cells_follows follows places.symm).symm

end places

section alike
variable {lenient silent : Bool} {writes writes' : List Bytes}

/-- After both of these sequences of writes, `ScreenDraw` draws the same, for all widths of characters, all
rectangles and any room in the vector. -/
def Alike (lenient silent : Bool) (writes writes' : List Bytes) : Prop :=
  ∀ charWidth capacity rec, ∃ screen screen',
    screenDraw ⟨charWidth, capacity, lenient, silent⟩ rec (written writes) = some screen ∧
    screenDraw ⟨charWidth, capacity, lenient, silent⟩ rec (written writes') = some screen' ∧
    glyphsOf screen.marks = glyphsOf screen'.marks

/-- The lines can be drawn, and nothing is printed on the way. -/
structure Safe (lenient silent : Bool) (lines : List Bytes) : Prop where
  defined : lenient = true ∨ 27 ∉ lines.flatten
  quiet : silent = true ∨ Harmless false lines.flatten

/-- What the lines show has the same places. Lines with escapes have the same text, too. -/
structure SamePlaces (lenient silent : Bool) (lines lines' : List Bytes) : Prop where
  first : Safe lenient silent lines
  second : Safe lenient silent lines'
  text : lines.flatten = lines'.flatten ∨ 27 ∉ lines.flatten ∧ 27 ∉ lines'.flatten
  places : (shown lines).map Shown.place = (shown lines').map Shown.place

theorem Safe.draws {lines : List Bytes} (safe : Safe machine.lenient machine.silent lines) :
    ∃ screen, screenDraw machine rec lines = some screen ∧
      glyphsOf screen.marks = (shown lines).map (Shown.glyph machine rec) := by
  have all : ∃ screen, drawAll machine rec lines { lineBuffer := lines, y := rec.top + 9 } = some screen ∧
      screen.lineBuffer = lines := by
    rcases safe with ⟨lenient | plain, silent | harmless⟩
    · obtain ⟨screen, drawn⟩ := @drawAll_total machine rec { lineBuffer := lines, y := rec.top + 9 } lenient silent
        lines
      exact ⟨screen, drawn, (quiet_keeps (.inl silent)).all drawn⟩
    · exact drawAll_harmless harmless (.inl lenient)
    · refine drawAll_harmless ⟨nofun, fun before after split => ?_⟩ (.inr plain)
      exact (plain (by simp [split])).elim
    · exact drawAll_harmless harmless (.inr plain)
  obtain ⟨screen, drawn, same⟩ := all
  exact ⟨screen, screenDraw_drawAll drawn same, screenDraw_shown drawn⟩

theorem safe_of_draws {lines : List Bytes} (full : machine.capacity = 0)
    (drawn : screenDraw machine rec lines = some screen) :
    Safe machine.lenient machine.silent lines := by
  rw [screenDraw_eq] at drawn
  obtain ⟨after, drawn, _⟩ := Option.bind_eq_some_iff.mp drawn
  have same : after.lineBuffer = lines := (quiet_keeps (.inr full)).all drawn
  constructor
  · cases strict : machine.lenient with
    | true => exact .inl rfl
    | false => exact .inr (drawAll_strict strict drawn ⟨rfl, rfl⟩)
  · cases prints : machine.silent with
    | true => exact .inl rfl
    | false =>
      refine .inr (drawAll_unharmed prints drawn ?_)
      rw [same]

theorem SamePlaces.alike (same : writes.flatten = writes'.flatten)
    (places : SamePlaces lenient silent (written writes) (written writes')) : Alike lenient silent writes writes' := by
  intro charWidth capacity rec
  obtain ⟨screen, drawn, glyphs⟩ := @Safe.draws ⟨charWidth, capacity, lenient, silent⟩ rec _ places.first
  obtain ⟨screen', drawn', glyphs'⟩ := @Safe.draws ⟨charWidth, capacity, lenient, silent⟩ rec _ places.second
  refine ⟨screen, screen', drawn, drawn', ?_⟩
  rw [glyphs, glyphs']
  rcases places.text with text | ⟨plain, plain'⟩
  · exact @glyphs_of_longer _ rec _ _ [] text (.inl rfl) places.places
  · have suffix := flatten_suffix (@written_suffix writes)
    have suffix' := flatten_suffix (@written_suffix writes')
    rw [← same] at suffix'
    rcases List.suffix_or_suffix_of_suffix suffix suffix' with ⟨front, longer⟩ | ⟨front, longer⟩
    · exact (glyphs_of_longer longer.symm (.inr plain') places.places.symm).symm
    · exact glyphs_of_longer longer.symm (.inr plain) places.places

theorem pen_congr {other : Machine}
    (same : ∀ ch < before.length, machine.charWidth (BitVec.ofNat 16 ch) = other.charWidth (BitVec.ofNat 16 ch)) :
    pen machine rec before = pen other rec before := by
  refine List.foldl_ext _ _ _ fun x cell member => ?_
  obtain ⟨c, ch⟩ := cell
  have inside : ch < before.length := by simpa using List.snd_lt_of_mem_zipIdx member
  simp only [same ch inside]

theorem not_longer {before' : Bytes} {capacity : Nat} (short : before'.length ≤ 2 ^ 16)
    (same : ∀ charWidth, pen ⟨charWidth, capacity, lenient, silent⟩ rec before =
      pen ⟨charWidth, capacity, lenient, silent⟩ rec before') : before'.length ≤ before.length := by
  by_contra longer
  have nonempty : before' ≠ [] := fun empty => longer (by simp [empty])
  obtain ⟨front, c, rfl⟩ := (List.eq_nil_or_concat before').resolve_left nonempty
  rw [List.concat_eq_append, List.length_append, List.length_singleton] at short longer
  let widths (width index : BitVec 16) : BitVec 16 := if index = BitVec.ofNat 16 front.length then width else 0
  -- what stands before the last character does not depend on its width
  have free (text : Bytes) (fits : text.length ≤ front.length) :
      pen ⟨widths 0, capacity, lenient, silent⟩ rec text = pen ⟨widths 1, capacity, lenient, silent⟩ rec text := by
    refine pen_congr fun ch inside => ?_
    have other : BitVec.ofNat 16 ch ≠ BitVec.ofNat 16 front.length := by
      intro equal
      have values := congrArg BitVec.toNat equal
      rw [BitVec.toNat_ofNat, BitVec.toNat_ofNat] at values
      omega
    exact (if_neg other).trans (if_neg other).symm
  have both := free before (by omega)
  rw [same, same, List.concat_eq_append, pen_snoc, pen_snoc, ← free front (Nat.le_refl _)] at both
  have widths_ : widths 0 (BitVec.ofNat 16 front.length) + 9 = widths 1 (BitVec.ofNat 16 front.length) + 9 :=
    (BitVec.add_right_inj _).mp both
  simp [widths] at widths_

theorem place_of_glyph {shown shown' : Shown} {capacity : Nat} (short : shown.before.length ≤ 2 ^ 16)
    (short' : shown'.before.length ≤ 2 ^ 16)
    (same : ∀ charWidth, shown.glyph ⟨charWidth, capacity, lenient, silent⟩ rec =
      shown'.glyph ⟨charWidth, capacity, lenient, silent⟩ rec) :
    shown.place = shown'.place := by
  simp only [Shown.glyph, Mark.glyph.injEq] at same
  have length : shown.before.length = shown'.before.length :=
    Nat.le_antisymm (not_longer short fun charWidth => (same charWidth).2.1.symm)
      (not_longer short' fun charWidth => (same charWidth).2.1)
  have y := congrArg BitVec.toNat (BitVec.add_right_inj _ |>.mp (same 0).2.2.1)
  have twelve : (12 : BitVec 16).toNat = 12 := rfl
  rw [BitVec.toNat_mul, BitVec.toNat_mul, BitVec.toNat_ofNat, BitVec.toNat_ofNat, twelve] at y
  have ends : shown.ends % 16384 = shown'.ends % 16384 := by omega
  rw [Shown.place, Shown.place, (same 0).1, length, ends]

theorem places_of_glyphs {shown shown' : List Shown} {capacity : Nat}
    (short : ∀ one ∈ shown, one.before.length ≤ 2 ^ 16)
    (short' : ∀ one ∈ shown', one.before.length ≤ 2 ^ 16) (same : ∀ charWidth,
      shown.map (Shown.glyph ⟨charWidth, capacity, lenient, silent⟩ rec) =
        shown'.map (Shown.glyph ⟨charWidth, capacity, lenient, silent⟩ rec)) :
    shown.map Shown.place = shown'.map Shown.place := by
  induction shown generalizing shown' with
  | nil =>
    have none := same 0
    rw [List.map_nil, eq_comm, List.map_eq_nil_iff] at none
    rw [none]
  | cons one shown ih =>
    cases shown' with
    | nil => cases same 0
    | cons one' shown' =>
      simp only [List.map_cons, List.cons.injEq] at same ⊢
      exact ⟨place_of_glyph (short _ (List.mem_cons_self ..)) (short' _ (List.mem_cons_self ..)) fun charWidth =>
        (same charWidth).1,
        ih (fun _ member => short _ (List.mem_cons_of_mem _ member))
          (fun _ member => short' _ (List.mem_cons_of_mem _ member))
          fun charWidth => (same charWidth).2⟩

theorem shownFrom_cell {ink : Ink} {cells : List (Bytes × UInt8)} {one : Shown} (member : one ∈ shownFrom ink cells) :
    (one.before, one.c) ∈ cells := by
  induction cells generalizing ink with
  | nil => cases member
  | cons cell cells ih =>
    rw [shownFrom] at member
    split at member
    · rcases List.mem_cons.mp member with rfl | member
      · exact List.mem_cons_self ..
      · exact List.mem_cons_of_mem _ (ih member)
    · exact List.mem_cons_of_mem _ (ih member)

theorem cellsFrom_before {cell : Bytes × UInt8} (member : cell ∈ cellsFrom before text) :
    cell.1.length < before.length + text.length := by
  induction text generalizing before with
  | nil => cases member
  | cons c text ih =>
    rcases List.mem_cons.mp member with rfl | member
    · simp
    · have later := ih member
      rw [List.length_append, List.length_singleton] at later
      rw [List.length_cons]
      omega

theorem shown_before {one : Shown} (short : ∀ text ∈ writes, text.length ≤ 2 ^ 16)
    (member : one ∈ shown (written writes)) :
    one.before.length ≤ 2 ^ 16 := by
  obtain ⟨text, line, cell⟩ := List.mem_flatMap.mp (shownFrom_cell member)
  have inside := cellsFrom_before cell
  rw [List.length_nil, Nat.zero_add] at inside
  exact Nat.le_trans (Nat.le_of_lt inside) (short text (written_suffix.subset line))

/-- How the output was split makes no difference where what is shown has the same places. For writes of at
most 65536 characters that is needed, too, where the console is strict or keeps the same text. -/
theorem draws_stream (same : writes.flatten = writes'.flatten) :
    (SamePlaces lenient silent (written writes) (written writes') → Alike lenient silent writes writes') ∧
    ((∀ text ∈ writes ++ writes', text.length ≤ 2 ^ 16) →
      (lenient = false ∨ (written writes).flatten = (written writes').flatten) →
      Alike lenient silent writes writes' → SamePlaces lenient silent (written writes) (written writes')) := by
  refine ⟨SamePlaces.alike same, fun short comparable alike => ?_⟩
  obtain ⟨screen, screen', drawn, drawn', _⟩ := alike 0 0 ⟨0, 0⟩
  have safe := safe_of_draws rfl drawn
  have safe' := safe_of_draws rfl drawn'
  refine ⟨safe, safe', ?_, ?_⟩
  · rcases comparable with strict | text
    · exact .inr ⟨safe.defined.resolve_left (by simp [strict]), safe'.defined.resolve_left (by simp [strict])⟩
    · exact .inl text
  · refine @places_of_glyphs ⟨0, 0⟩ lenient silent _ _ 0
      (fun _ member => shown_before (fun text line => short text (List.mem_append_left _ line)) member)
      (fun _ member => shown_before (fun text line => short text (List.mem_append_right _ line)) member)
        fun charWidth => ?_
    obtain ⟨screen, screen', drawn, drawn', glyphs⟩ := alike charWidth 0 ⟨0, 0⟩
    obtain ⟨_, again, shown_⟩ := @Safe.draws ⟨charWidth, 0, lenient, silent⟩ ⟨0, 0⟩ _ safe
    obtain ⟨_, again', shown_'⟩ := @Safe.draws ⟨charWidth, 0, lenient, silent⟩ ⟨0, 0⟩ _ safe'
    rw [← shown_, ← shown_', ← Option.some.inj (drawn.symm.trans again), ← Option.some.inj (drawn'.symm.trans again'),
      glyphs]

/-- A line written at once, and in two writes. -/
theorem draws_stream_line : Alike false false [[72, 105], [10]] [[72, 105, 10]] := by
  refine (@draws_stream false false _ _ (by decide)).1
    ⟨⟨.inr (by decide), .inr ⟨nofun, ?_⟩⟩, ⟨.inr (by decide), .inr ⟨nofun, ?_⟩⟩,
    .inl (by decide), by decide⟩
  all_goals
    intro before after split
    have member : (27 : UInt8) ∈ [72, 105, 10] := by
      rw [show [72, 105, 10] = before ++ 27 :: after from split]
      simp
    exact absurd member (by decide)

/-- The second of two letters is drawn over the first when it comes in a write of its own. -/
theorem draws_stream_split : [[65, 66]].flatten = [[65], [66]].flatten ∧
    ¬ Alike false false [[65, 66]] [[65], [66]] ∧ ¬ Alike true true [[65, 66]] [[65], [66]] := by
  have differ (lenient silent : Bool) :
      (screenDraw ⟨fun _ => 6, 64, lenient, silent⟩ ⟨0, 0⟩ (written [[65, 66]])).map
        (fun screen => glyphsOf screen.marks) ≠
        (screenDraw ⟨fun _ => 6, 64, lenient, silent⟩ ⟨0, 0⟩ (written [[65], [66]])).map fun screen =>
          glyphsOf screen.marks := by
    revert lenient silent
    decide +kernel
  have unlike (lenient silent : Bool) : ¬ Alike lenient silent [[65, 66]] [[65], [66]] := by
    intro alike
    obtain ⟨screen, screen', drawn, drawn', glyphs⟩ := alike (fun _ => 6) 64 ⟨0, 0⟩
    apply differ lenient silent
    rw [drawn, drawn', Option.map_some, Option.map_some, glyphs]
  exact ⟨by decide, unlike false false, unlike true true⟩

end alike

end PowerBoot.Console
