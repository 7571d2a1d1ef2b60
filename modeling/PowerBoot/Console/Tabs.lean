import PowerBoot.Console.Pens
import Mathlib.Algebra.Order.BigOperators.Group.List
import Mathlib.Data.List.Chain

/-! The order of the glyphs in a row. Whatever stands in a row advances the pen, but a tab may take it back. -/

namespace PowerBoot.Console

variable {machine : Machine} {rec : Rect} {c : UInt8} {text before opening : Bytes} {lines : List Bytes}
  {screen : Screen} {first second third : Site}

/-- Where a tab takes the pen to, before it advances. -/
def tabStop (x : BitVec 16) : BitVec 16 := (x + 16 + 8) &&& (x + 16 - 7)

/-- The pen does not leave its 16 bits in this turn. -/
def Room (machine : Machine) (rec : Rect) (turned : Bytes × UInt8) : Prop :=
  (turned.2 = 9 → Fits ((pen machine rec turned.1).toInt + 16)) ∧
    Fits ((turn rec turned.2 (pen machine rec turned.1)).toInt +
      (machine.charWidth (BitVec.ofNat 16 turned.1.length)).toInt + 9)

/-- It has not left them in the row, up to this byte. -/
def Site.Clear (machine : Machine) (rec : Rect) (site : Site) : Prop :=
  Fits (rec.left.toInt + 9) ∧ ∀ turned ∈ rowTurns site.before, Room machine rec turned

instance : DecidablePred (Room machine rec) := fun _ => inferInstanceAs (Decidable (_ ∧ _))

instance : DecidablePred (Site.Clear machine rec) := fun _ => inferInstanceAs (Decidable (_ ∧ _))

/-- What a line has from one of its bytes on up to a later one. -/
def stretch (first second : Site) : Bytes := second.before.drop first.before.length

/-- No newline or carriage return of a line comes between these bytes of it. -/
def SameRow (first second : Site) : Prop :=
  first.opening = second.opening ∧ ∀ c ∈ stretch first second, ¬ (c = 10 ∨ c = 13)

instance : DecidableRel SameRow := fun _ _ => inferInstanceAs (Decidable (_ ∧ _))

/-- In each row the glyphs go from left to right. -/
def Increasing (machine : Machine) (rec : Rect) (lines : List Bytes) (screen : Screen) : Prop :=
  ((glyphSites lines).zip (linePlaces lines screen)).Pairwise fun first second =>
    SameRow first.1 second.1 → second.1.Clear machine rec → first.2.x.toInt < second.2.x.toInt

/-- How far the characters of a text advance the pen, whose line has this before them. -/
def advancedBy (machine : Machine) (before text : Bytes) : Int :=
  ((cellsFrom before text).map fun (front, _) => (machine.charWidth (BitVec.ofNat 16 front.length)).toInt + 9).sum

/-- How far the tabs of a text take it back. -/
def takenBack (machine : Machine) (rec : Rect) (before text : Bytes) : Int :=
  ((cellsFrom before text).map fun (front, c) =>
    if c = 9 then (pen machine rec front).toInt - (tabStop (pen machine rec front)).toInt else 0).sum

/-- From one glyph to another, the characters advance the pen more than the tabs take it back. -/
def Outruns (machine : Machine) (rec : Rect) (first second : Site) : Prop :=
  takenBack machine rec first.before (stretch first second) < advancedBy machine first.before (stretch first second)

instance : DecidableRel (Outruns machine rec) := fun _ _ => inferInstanceAs (Decidable (_ < _))

section pen

theorem rowTurns_append (plain : ∀ c ∈ text, ¬ (c = 10 ∨ c = 13)) :
    rowTurns (before ++ text) = rowTurns before ++ cellsFrom before text := by
  induction text generalizing before with
  | nil => simp [cellsFrom]
  | cons c text ih =>
    obtain ⟨here, later⟩ := List.forall_mem_cons.mp plain
    have rest := @ih (before ++ [c]) later
    rw [List.append_assoc, List.singleton_append, rowTurns_other here, List.append_assoc] at rest
    exact rest

theorem toInt_advance {x width : BitVec 16} (fits : Fits (x.toInt + width.toInt + 9)) :
    (x + (width + 9)).toInt = x.toInt + width.toInt + 9 := by
  rw [toInt_eq_iff fits, BitVec.ofInt_add, BitVec.ofInt_add, BitVec.ofInt_toInt, BitVec.ofInt_toInt, BitVec.add_assoc]
  rfl

/-- The pen goes as far as the characters advance it, less what the tabs take back. -/
theorem pen_moved (plain : ∀ c ∈ text, ¬ (c = 10 ∨ c = 13))
    (room : ∀ turned ∈ cellsFrom before text, Room machine rec turned) :
    (pen machine rec (before ++ text)).toInt =
      (pen machine rec before).toInt + advancedBy machine before text - takenBack machine rec before text := by
  induction text generalizing before with
  | nil => simp [advancedBy, takenBack, cellsFrom]
  | cons c text ih =>
    obtain ⟨here, later⟩ := List.forall_mem_cons.mp plain
    obtain ⟨fits, rest⟩ := List.forall_mem_cons.mp room
    have moved := @ih (before ++ [c]) later rest
    rw [pen_snoc, toInt_advance fits.2, List.append_assoc, List.singleton_append] at moved
    rw [moved, turn, if_neg here]
    simp only [advancedBy, takenBack, cellsFrom, List.map_cons, List.sum_cons]
    split
    · dsimp only [tabStop]
      omega
    · omega

end pen

section order

/-- The first byte stands before the second one, in the same line or in an earlier one. -/
def Precedes (first second : Site) : Prop :=
  (first.opening = second.opening ∧ ∃ between, second.before = first.before ++ first.c :: between) ∨
    first.opening.length < second.opening.length

theorem cellsFrom_pairwise : (cellsFrom before text).Pairwise fun first second =>
    ∃ between, second.1 = first.1 ++ first.2 :: between := by
  induction text generalizing before with
  | nil => exact .nil
  | cons c text ih =>
    refine .cons (fun cell member => ?_) ih
    obtain ⟨between, _, same, _⟩ := cellsFrom_split member
    exact ⟨between, by rw [same, List.append_assoc]; rfl⟩

theorem opening_le {site : Site} (member : site ∈ sitesFrom opening lines) : opening.length ≤ site.opening.length := by
  obtain ⟨more, behind, _⟩ := site_cell member
  rw [behind, List.length_append]
  exact Nat.le_add_right ..

theorem sitesFrom_pairwise : (sitesFrom opening lines).Pairwise Precedes := by
  induction lines generalizing opening with
  | nil => exact .nil
  | cons text lines ih =>
    refine List.pairwise_append.mpr ⟨?_, ih, fun first here second later => .inr ?_⟩
    · refine List.pairwise_map.mpr (cellsFrom_pairwise.imp fun between => .inl ⟨rfl, between⟩)
    · obtain ⟨cell, inside, rfl⟩ := List.mem_map.mp here
      have size := List.length_pos_of_mem inside
      have behind := opening_le later
      rw [cellsFrom_length] at size
      rw [List.length_append] at behind
      dsimp only
      omega

theorem glyphSites_pairwise : (glyphSites lines).Pairwise Precedes := sitesFrom_pairwise.filter _

theorem Precedes.split (precedes : Precedes first second) (same : first.opening = second.opening) :
    second.before = first.before ++ stretch first second := by
  rcases precedes with ⟨_, between, whole⟩ | shorter
  · rw [stretch, whole, List.drop_left]
  · rw [same] at shorter
    exact (Nat.lt_irrefl _ shorter).elim

theorem Precedes.opening_le (precedes : Precedes first second) : first.opening.length ≤ second.opening.length := by
  rcases precedes with ⟨same, _⟩ | shorter
  · exact Nat.le_of_eq (congrArg _ same)
  · exact Nat.le_of_lt shorter

theorem Precedes.between (before : Precedes first second) (behind : Precedes second third)
    (same : first.opening = third.opening) : first.opening = second.opening ∧ second.opening = third.opening ∧
      stretch first third = stretch first second ++ stretch second third := by
  have lower := before.opening_le
  have upper := behind.opening_le
  have here : first.opening = second.opening := by
    rcases before with ⟨here, _⟩ | shorter
    · exact here
    · rw [same] at shorter
      omega
  have there := here.symm.trans same
  refine ⟨here, there, ?_⟩
  rw [stretch, behind.split there, before.split here, List.append_assoc, List.drop_left]

theorem pairwise_of_chain {α : Type*} {ordered related : α → α → Prop} {items : List α}
    (sorted : items.Pairwise ordered) (chain : items.IsChain related)
    (step : ∀ {a b c}, ordered a b → ordered b c → related a b → related b c → related a c) :
    items.Pairwise related := by
  induction items with
  | nil => exact .nil
  | cons a items ih =>
    obtain ⟨front, sorted⟩ := List.pairwise_cons.mp sorted
    have later := ih sorted chain.tail
    refine .cons (fun c member => ?_) later
    cases items with
    | nil => cases member
    | cons b items =>
      have next := (List.isChain_cons_cons.mp chain).1
      rcases List.mem_cons.mp member with rfl | member
      · exact next
      · exact step (front b (List.mem_cons_self ..)) (List.rel_of_pairwise_cons sorted member) next
          (List.rel_of_pairwise_cons later member)

end order

section increasing

theorem Precedes.rowTurns (precedes : Precedes first second) (row : SameRow first second) :
    rowTurns second.before = Console.rowTurns first.before ++ cellsFrom first.before (stretch first second) := by
  rw [precedes.split row.1]
  exact rowTurns_append row.2

theorem Precedes.pen_lt (precedes : Precedes first second) (row : SameRow first second)
    (clear : second.Clear machine rec) :
    (pen machine rec first.before).toInt < (pen machine rec second.before).toInt ↔
      Outruns machine rec first second := by
  have room : ∀ turned ∈ cellsFrom first.before (stretch first second), Room machine rec turned := by
    intro turned member
    apply clear.2
    rw [precedes.rowTurns row]
    exact List.mem_append_right _ member
  rw [precedes.split row.1, pen_moved row.2 room, Outruns]
  omega

theorem Outruns.trans (before : Precedes first second) (behind : Precedes second third)
    (front : SameRow first second → second.Clear machine rec → Outruns machine rec first second)
    (back : SameRow second third → third.Clear machine rec → Outruns machine rec second third)
    (row : SameRow first third) (clear : third.Clear machine rec) : Outruns machine rec first third := by
  obtain ⟨here, there, whole⟩ := before.between behind row.1
  have plain := row.2
  rw [whole, List.forall_mem_append] at plain
  have first_ : SameRow first second := ⟨here, plain.1⟩
  have second_ : SameRow second third := ⟨there, plain.2⟩
  have clear' : second.Clear machine rec := by
    refine ⟨clear.1, fun turned member => clear.2 turned ?_⟩
    rw [behind.rowTurns second_]
    exact List.mem_append_left _ member
  have ahead := front first_ clear'
  have later := back second_ clear
  rw [Outruns] at ahead later ⊢
  rw [whole, takenBack, advancedBy, cellsFrom_append, ← before.split here, List.map_append, List.map_append,
    List.sum_append, List.sum_append]
  exact Int.add_lt_add ahead later

theorem increasing_iff (drawn : screenDraw machine rec lines = some screen) : Increasing machine rec lines screen ↔
    (glyphSites lines).Pairwise fun first second => SameRow first second → second.Clear machine rec →
      (pen machine rec first.before).toInt < (pen machine rec second.before).toInt := by
  have zipped : ((glyphSites lines).map id).zip ((glyphSites lines).map (Site.place machine rec)) =
      (glyphSites lines).map fun site => (site, site.place machine rec) := List.zip_map'
  rw [List.map_id] at zipped
  rw [Increasing, screenDraw_places drawn, zipped, List.pairwise_map]
  exact Iff.rfl

/-- Where that holds from each glyph to the next one, it holds from each to all later ones. -/
theorem increasing_of_chain (drawn : screenDraw machine rec lines = some screen)
    (chain : (glyphSites lines).IsChain fun first second =>
      SameRow first second → second.Clear machine rec → Outruns machine rec first second) :
    Increasing machine rec lines screen := by
  have outruns := pairwise_of_chain glyphSites_pairwise chain fun before behind front back =>
    Outruns.trans before behind front back
  refine (increasing_iff drawn).mpr ((glyphSites_pairwise.and outruns).imp fun both row clear => ?_)
  exact (both.1.pen_lt row clear).mpr (both.2 row clear)

/-- The glyphs of each row go from left to right exactly where, from each glyph to the next one, the characters
advance the pen more than the tabs take it back. -/
theorem screenDraw_increasing (drawn : screenDraw machine rec lines = some screen) :
    Increasing machine rec lines screen ↔ (glyphSites lines).IsChain fun first second =>
      SameRow first second → second.Clear machine rec → Outruns machine rec first second := by
  refine ⟨fun increasing => ?_, increasing_of_chain drawn⟩
  have rows := (increasing_iff drawn).mp increasing
  refine (glyphSites_pairwise.and rows).isChain.imp fun first second both row clear => ?_
  exact (both.1.pen_lt row clear).mp (both.2 row clear)

/-- A tab behind two letters takes the pen forward. -/
theorem screenDraw_increasing_tab : ∃ screen, screenDraw monospaced ⟨0, 0⟩ [[65, 66, 9, 67]] = some screen ∧
    Increasing monospaced ⟨0, 0⟩ [[65, 66, 9, 67]] screen := by
  obtain ⟨screen, drawn, _⟩ := @screenDraw_total monospaced ⟨0, 0⟩ [[65, 66, 9, 67]] rfl rfl
  refine ⟨screen, drawn, (screenDraw_increasing drawn).mpr ?_⟩
  decide +kernel

/-- A tab behind three letters takes the pen back, and the next letter is drawn between the last two. -/
theorem screenDraw_overprints :
    (screenDraw monospaced ⟨0, 0⟩ [[65, 66, 67, 9, 68]]).map (linePlaces [[65, 66, 67, 9, 68]]) =
      some [⟨65, 9, 9⟩, ⟨66, 24, 9⟩, ⟨67, 39, 9⟩, ⟨68, 29, 9⟩] ∧
    ∀ screen, screenDraw monospaced ⟨0, 0⟩ [[65, 66, 67, 9, 68]] = some screen →
      ¬ Increasing monospaced ⟨0, 0⟩ [[65, 66, 67, 9, 68]] screen := by
  refine ⟨by decide +kernel, fun screen drawn increasing => ?_⟩
  have rows := (increasing_iff drawn).mp increasing
  revert rows
  decide +kernel

end increasing

section stops

/-- The bits of a number and of the number 15 above it: in the upper half of each block of 32 they have
less in common. -/
theorem and_back {n : Nat} : (n + 24) &&& (n + 9) < n ↔ 16 < (n + 9) % 32 := by
  have low := @Nat.and_mod_two_pow (n + 24) (n + 9) 5
  have high := @Nat.and_div_two_pow (n + 24) (n + 9) 5
  have five : 2 ^ 5 = 32 := rfl
  rw [five] at low high
  by_cases upper : 16 < (n + 9) % 32
  · have least : ((n + 24) &&& (n + 9)) % 32 ≤ (n + 24) % 32 := low ▸ Nat.and_le_left
    have most : ((n + 24) &&& (n + 9)) / 32 ≤ (n + 9) / 32 := high ▸ Nat.and_le_right
    omega
  · have common : ∀ r ≤ 16, r ≤ ((r + 15) &&& r) + 8 := by decide
    have few := common _ (Nat.not_lt.mp upper)
    have next : (n + 24) % 32 = (n + 9) % 32 + 15 := by omega
    have same : (n + 24) / 32 = (n + 9) / 32 := by omega
    rw [next] at low
    rw [same, Nat.and_self] at high
    omega

theorem tabStop_toNat {x : BitVec 16} (room : x.toNat + 24 < 2 ^ 16) :
    (tabStop x).toNat = (x.toNat + 24) &&& (x.toNat + 9) := by
  have up : (x + 16 + 8).toNat = x.toNat + 24 := by bv_omega
  have down : (x + 16 - 7).toNat = x.toNat + 9 := by bv_omega
  rw [tabStop, BitVec.toNat_and, up, down]

/-- A tab takes the pen back exactly from the upper half of a block of 32. -/
theorem tabStop_back {x : BitVec 16} (room : x.toNat + 24 < 2 ^ 16) :
    (tabStop x).toNat < x.toNat ↔ 16 < (x.toNat + 9) % 32 := by
  rw [tabStop_toNat room, and_back]

theorem advancedBy_pos (widths : ∀ ch, 0 ≤ (machine.charWidth ch).toInt) (some_ : text ≠ []) :
    0 < advancedBy machine before text := by
  apply List.sum_pos
  · intro step member
    obtain ⟨turned, _, rfl⟩ := List.mem_map.mp member
    have width := widths (BitVec.ofNat 16 turned.1.length)
    dsimp only
    omega
  · intro empty
    have size := congrArg List.length empty
    rw [List.length_map, cellsFrom_length] at size
    exact some_ (List.length_eq_zero_iff.mp size)

theorem takenBack_nonpos (stops : ∀ turned ∈ cellsFrom before text, turned.2 = 9 →
    (pen machine rec turned.1).toInt ≤ (tabStop (pen machine rec turned.1)).toInt) :
    takenBack machine rec before text ≤ 0 := by
  have each := List.sum_le_card_nsmul ((cellsFrom before text).map fun (front, c) =>
    if c = 9 then (pen machine rec front).toInt - (tabStop (pen machine rec front)).toInt else 0) 0
    fun step member => by
      obtain ⟨turned, inside, rfl⟩ := List.mem_map.mp member
      dsimp only
      split
      next tab =>
        have stop := stops turned inside tab
        omega
      next => exact Int.le_refl 0
  simpa [takenBack] using each

/-- With widths that are not negative, a row without such tabs before its glyphs goes from left to right. -/
theorem increasing_of_tabs (drawn : screenDraw machine rec lines = some screen)
    (widths : ∀ ch, 0 ≤ (machine.charWidth ch).toInt)
    (stops : ∀ site ∈ glyphSites lines, ∀ turned ∈ rowTurns site.before, turned.2 = 9 →
      (pen machine rec turned.1).toNat + 24 < 2 ^ 15 ∧ ((pen machine rec turned.1).toNat + 9) % 32 ≤ 16) :
    Increasing machine rec lines screen := by
  apply increasing_of_chain drawn
  refine (glyphSites_pairwise.imp_of_mem fun _ member precedes row clear => ?_).isChain
  refine Int.lt_of_le_of_lt (takenBack_nonpos fun turned inside tab => ?_) (advancedBy_pos widths ?_)
  · have inRow : turned ∈ rowTurns _ := precedes.rowTurns row ▸ List.mem_append_right _ inside
    obtain ⟨room, lower⟩ := stops _ member turned inRow tab
    have wide := Nat.lt_trans room (by decide : 2 ^ 15 < 2 ^ 16)
    have forward := mt (tabStop_back wide).mp (Nat.not_lt.mpr lower)
    have most : (tabStop (pen machine rec turned.1)).toNat ≤ (pen machine rec turned.1).toNat + 9 :=
      tabStop_toNat wide ▸ Nat.and_le_right
    rw [BitVec.toInt_eq_toNat_cond, BitVec.toInt_eq_toNat_cond]
    omega
  · intro empty
    rcases precedes with ⟨_, between, whole⟩ | shorter
    · rw [stretch, whole, List.drop_left] at empty
      cases empty
    · rw [row.1] at shorter
      exact Nat.lt_irrefl _ shorter

end stops

end PowerBoot.Console
