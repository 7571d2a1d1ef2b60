import PowerBoot.Console.History
import PowerBoot.Console.Redraw

/-! What drawing writes to the console. The lines that it prints are lines of the history like all others,
and there is no room for many of them. -/

namespace PowerBoot.Console

variable {machine : Machine} {rec : Rect} {lines more : List Bytes} {text later : Bytes}

/-- The strings that drawing has written to the console. -/
def printed (machine : Machine) (marks : List Mark) : List Bytes :=
  if machine.silent then []
  else marks.filterMap fun
    | .print text => some text
    | _ => none

/-- Drawing appends the strings that it prints, as long as they fit. -/
theorem printed_keeps : Keeps machine rec fun screen after => ∃ marks, after.marks = screen.marks ++ marks ∧
    after.lineBuffer = screen.lineBuffer ++ printed machine marks ∧
    (printed machine marks = [] ∨ after.lineBuffer.length < 40) where
  refl screen := ⟨[], by simp [printed]⟩
  trans := by
    rintro first middle last ⟨marks, grown, lines, fits⟩ ⟨more, grown', lines', fits'⟩
    have both : printed machine (marks ++ more) = printed machine marks ++ printed machine more := by
      unfold printed
      split
      · rfl
      · exact List.filterMap_append
    refine ⟨marks ++ more, by rw [grown', grown, List.append_assoc], ?_, ?_⟩
    · rw [lines', lines, both, List.append_assoc]
    · rcases fits' with none | few
      · rw [both, none, List.append_nil]
        refine fits.imp_right fun few => ?_
        rwa [lines', none, List.append_nil]
      · exact .inr few
  moved x := ⟨[], by simp [printed]⟩
  switched {c screen after} drawn := by
    cases drawSwitch_cases drawn with
    | escape => exact ⟨[.erase screen.colorCodes], by simp [printed, mark_marks]⟩
    | moves => exact ⟨[], by simp [printed]⟩
    | default =>
      refine ⟨(drawDefault c screen).marks.drop screen.marks.length, ?_⟩
      unfold drawDefault
      split
      · split <;> simp [printed]
      · simp [printed, Screen.mark]
    | color _ _ lineBuffer printed_ =>
      refine ⟨[.print (screen.colorCodes ++ [10]), .color (atoi screen.colorCodes)], ?_⟩
      rcases printf_grows printed_ with ⟨silent, rfl⟩ | ⟨prints, rfl, few⟩
      · simp [printed, silent]
      · exact ⟨by simp, by simp [printed, prints], .inr (by simpa using few)⟩

theorem lastLines_append {writes : List Bytes} (fits : more = [] ∨ (lastLines writes ++ more).length < 40) :
    lastLines (writes ++ more) = lastLines writes ++ more := by
  rcases fits with rfl | few
  · simp
  · have size := @lastLines_length writes
    rw [List.length_append, size] at few
    unfold lastLines
    cases more with
    | nil => simp
    | cons str more =>
      rw [List.length_cons] at few
      have short : writes.length - min writes.length 39 = 0 := by omega
      have short' : (writes ++ str :: more).length - min (writes ++ str :: more).length 39 = 0 := by
        rw [List.length_append, List.length_cons]
        omega
      rw [short, short', List.drop_zero, List.drop_zero]

/-- What is drawn from the last lines prints lines that are the last ones again. -/
theorem screenDraw_last {writes : List Bytes} {screen : Screen}
    (drawn : screenDraw machine rec (lastLines writes) = some screen) :
    screen.lineBuffer = lastLines (writes ++ printed machine screen.marks) := by
  obtain ⟨marks, grown, lines, fits⟩ := printed_keeps.lines drawn
  obtain rfl : screen.marks = marks := by simpa using grown
  rw [lines, lastLines_append]
  rwa [lines] at fits

theorem harmless_front (harmless : Harmless false (text ++ later)) : Harmless false text := by
  refine ⟨nofun, fun before after split member => ?_⟩
  refine harmless.2 before (after ++ later) ?_ (List.mem_append_left _ member)
  rw [split, List.append_assoc, List.cons_append]

/-- A complete escape sequence makes every drawing write another line. -/
theorem screenDraw_longer {screen : Screen} (prints : machine.silent = false)
    (harmful : ¬ Harmless false lines.flatten) (drawn : screenDraw machine rec lines = some screen) :
    lines.length < screen.lineBuffer.length ∧ screen.lineBuffer.length < 40 ∧
      ¬ Harmless false screen.lineBuffer.flatten := by
  obtain ⟨marks, _, grown, fits⟩ := printed_keeps.lines drawn
  have longer : lines.length < screen.lineBuffer.length := by
    by_contra same
    rw [screenDraw_eq] at drawn
    obtain ⟨middle, drawn, rest⟩ := Option.bind_eq_some_iff.mp drawn
    have kept := (grows_keeps.lines rest).length_le
    exact harmful (drawAll_unharmed prints drawn (Nat.le_trans kept (Nat.not_lt.mp same)))
  refine ⟨longer, fits.resolve_left fun none => ?_, fun harmless => harmful ?_⟩
  · rw [grown, none, List.append_nil] at longer
    exact Nat.lt_irrefl _ longer
  · rw [grown, List.flatten_append] at harmless
    exact harmless_front harmless

/-- Colored text cannot be drawn again and again: before there are forty lines, `ScreenDraw` runs into the
insertion that makes its iterator invalid. -/
theorem redraws_bounded {n : Nat} {frames : List (List Mark)} (prints : machine.silent = false)
    (harmful : ¬ Harmless false lines.flatten) (some_ : n ≠ 0) (drawn : redraws machine rec n lines = some frames) :
    lines.length + n < 40 := by
  induction n generalizing lines frames with
  | zero => exact (some_ rfl).elim
  | succ n ih =>
    obtain ⟨screen, first, rest⟩ := Option.bind_eq_some_iff.mp drawn
    obtain ⟨later, again, _⟩ := Option.bind_eq_some_iff.mp rest
    obtain ⟨longer, few, harmful⟩ := screenDraw_longer prints harmful first
    cases n with
    | zero => omega
    | succ n =>
      have bound := ih harmful (Nat.succ_ne_zero n) again
      omega

theorem redraws_bounded_red : [red.whole].length + 2 < 40 := by
  have harmful : ¬ Harmless false [red.whole].flatten := by
    rintro ⟨_, escapes⟩
    exact absurd (escapes [] [91, 51, 49, 109, 65] (by decide)) (by decide)
  have drawn : (redraws (printing true) ⟨0, 0⟩ 2 [red.whole]).isSome = true := by decide +kernel
  obtain ⟨frames, drawn⟩ := Option.isSome_iff_exists.mp drawn
  exact redraws_bounded rfl harmful (Nat.succ_ne_zero 1) drawn

end PowerBoot.Console
