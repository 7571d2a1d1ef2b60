import PowerBoot.Arpa.Netinet

/-! `inet_addr` reads no byte behind the NUL and writes no part behind the array: every
access it makes is one that C defines, and none depends on the memory behind the string. -/

namespace PowerBoot.Arpa

/-- The end of the string is not behind the cursor. -/
def Inside (cp : Cursor) : Prop := 0 ∈ cp

/-- What a statement does with more memory behind the string: it returns the same, or goes
on from the same place, which is inside the string. -/
inductive Kept (beyond : Cursor) {α : Type} : Flow (α × Cursor) → Flow (α × Cursor) → Prop where
  | returns (value : Word) : Kept beyond (.returns value) (.returns value)
  | continues (value : α) (cp : Cursor) (inside : Inside cp) :
      Kept beyond (.continues (value, cp)) (.continues (value, cp ++ beyond))

section kept
variable {α β : Type} {beyond : Cursor}

theorem Kept.bind {first second : Flow (α × Cursor)} {next : α × Cursor → Flow (β × Cursor)}
    (kept : Kept beyond first second)
    (later : ∀ value cp, Inside cp → Kept beyond (next (value, cp)) (next (value, cp ++ beyond))) :
    Kept beyond (first >>= next) (second >>= next) := by
  cases kept with
  | returns value => exact .returns value
  | continues value cp inside => exact later value cp inside

theorem Inside.behind {c : UInt8} {cp : Cursor} (inside : Inside (c :: cp)) (nonzero : c ≠ 0) : Inside cp := by
  rcases List.mem_cons.mp inside with zero | inside
  · exact (nonzero zero.symm).elim
  · exact inside

theorem Inside.some {cp : Cursor} (inside : Inside cp) : ∃ c rest, cp = c :: rest :=
  List.exists_cons_of_ne_nil (List.ne_nil_of_mem inside)

/-- The look ahead behind a zero, and the skip over the letter. -/
theorem base_kept {cp : Cursor} (inside : Inside cp) : Kept beyond (base cp) (base (cp ++ beyond)) := by
  obtain ⟨c, rest, rfl⟩ := inside.some
  by_cases isZero : c = zero
  · have inside : Inside rest := inside.behind (by rw [isZero]; decide)
    obtain ⟨x, rest, rfl⟩ := inside.some
    by_cases letter : x = 120 ∨ x = 88
    · have nonzero : x ≠ 0 := by rcases letter with rfl | rfl <;> decide
      simpa [base, isZero, letter] using Kept.continues 16 rest (inside.behind nonzero)
    · simpa [base, isZero, letter] using Kept.continues 8 (x :: rest) inside
  · simpa [base, isZero] using Kept.continues 10 (c :: rest) inside

/-- The loop over the digits goes on behind a byte only if it is none of those that end
the string. -/
theorem digits_kept {base : Nat} {val : Word} {cp : Cursor} (inside : Inside cp) :
    Kept beyond (digits base val cp) (digits base val (cp ++ beyond)) := by
  induction cp generalizing val with
  | nil => cases inside
  | cons c rest ih =>
    rw [List.cons_append, digits, digits]
    split
    · exact .continues val (c :: rest) inside
    next nonzero =>
      split
      · exact .continues val (c :: rest) inside
      next n _ =>
        split
        · exact .returns INADDR_NONE
        · exact ih (inside.behind nonzero)

theorem follow_kept {i : Nat} {val : Word} {cp : Cursor} (inside : Inside cp) :
    Kept beyond (follow i val cp) (follow i val (cp ++ beyond)) := by
  obtain ⟨c, rest, rfl⟩ := inside.some
  by_cases isDot : c = dot
  · by_cases last : i = 3
    · simpa [follow, isDot, last] using Kept.returns INADDR_NONE
    · simpa [follow, isDot, last] using Kept.continues val rest (inside.behind (by rw [isDot]; decide))
  · by_cases ended : c = 0
    · subst ended
      simpa [follow, isDot] using Kept.continues val (0 :: rest) inside
    · simpa [follow, isDot, ended] using Kept.returns INADDR_NONE

theorem part_kept {i : Nat} {cp : Cursor} (inside : Inside cp) :
    Kept beyond (part i cp) (part i (cp ++ beyond)) := by
  unfold part
  refine (base_kept inside).bind fun base cp inside => ?_
  exact (digits_kept inside).bind fun val cp inside => follow_kept inside

end kept

/-- The array of four parts, the first `count` of which are initialized. -/
structure Filled (count : Nat) (parts : List (Option Word)) : Prop where
  four : parts.length = 4
  values : ∀ j < count, ∃ val, parts[j]? = some (some val)

section filled
variable {count i : Nat} {parts : List (Option Word)} {val : Word}

theorem store_filled (filled : Filled i parts) (room : i < 4) :
    ∃ stored, store parts i val = .continues stored ∧ Filled (i + 1) stored := by
  have inside : i < parts.length := by rw [filled.four]; exact room
  refine ⟨parts.set i (some val), if_pos inside, by simp [filled.four], fun j before => ?_⟩
  by_cases new : i = j
  · exact ⟨val, by rw [← new, List.getElem?_set_self inside]⟩
  · rw [List.getElem?_set_ne new]
    exact filled.values j (by omega)

theorem load_filled (filled : Filled count parts) (below : i < count) : ∃ val, load parts i = .continues val := by
  obtain ⟨val, found⟩ := filled.values i below
  exact ⟨val, by rw [load, found]⟩

/-- Every turn stores one part, also those that begin where the string has ended. -/
theorem loop_inside {turns : Nat} {cp : Cursor} (beyond : Cursor) (inside : Inside cp) (filled : Filled i parts)
    (four : i + turns = 4) : loop turns i (cp ++ beyond) parts = loop turns i cp parts ∧
      ((∃ value, loop turns i cp parts = .returns value) ∨
        ∃ stored, loop turns i cp parts = .continues (4, stored) ∧ Filled 4 stored) := by
  induction turns generalizing i cp parts with
  | zero =>
    obtain rfl : i = 4 := four
    exact ⟨rfl, Or.inr ⟨parts, rfl, filled⟩⟩
  | succ turns ih =>
    have kept := @part_kept beyond i cp inside
    rw [loop, loop]
    generalize part i cp = first, part i (cp ++ beyond) = second at kept ⊢
    cases kept with
    | returns value => exact ⟨rfl, Or.inl ⟨value, rfl⟩⟩
    | continues val cp inside =>
      obtain ⟨stored, stores, filled⟩ := @store_filled i parts val filled (by omega)
      simp only [Flow.bind_continues, stores]
      exact ih inside filled (by omega)

end filled

theorem parse_inside {cp : Cursor} (beyond : Cursor) (inside : Inside cp) :
    parse (cp ++ beyond) = parse cp ∧ parse cp ≠ .undefined := by
  have empty : Filled 0 (List.replicate 4 (none : Option Word)) := ⟨rfl, by simp⟩
  obtain ⟨same, ends⟩ := @loop_inside 0 _ 4 cp beyond inside empty rfl
  rw [parse, parse, same]
  refine ⟨rfl, ?_⟩
  rcases ends with ⟨value, returns⟩ | ⟨stored, continues, filled⟩
  · rw [returns]
    simp
  · obtain ⟨first, readFirst⟩ := load_filled filled (i := 0) (by decide)
    obtain ⟨second, readSecond⟩ := load_filled filled (i := 1) (by decide)
    obtain ⟨third, readThird⟩ := load_filled filled (i := 2) (by decide)
    obtain ⟨fourth, readFourth⟩ := load_filled filled (i := 3) (by decide)
    rw [continues]
    simp [readFirst, readSecond, readThird, readFourth]

/-- Whatever the string, everything that is read is in front of what follows its NUL, and
everything that is written is in the array. -/
theorem inetAddr_inside (s : CString) (beyond : Cursor) :
    start (some s.memory) ≠ .undefined ∧ start (some (s.memory ++ beyond)) = start (some s.memory) := by
  have inside : Inside s.memory := by simp [Inside, CString.memory]
  obtain ⟨c, rest, memory⟩ := inside.some
  obtain ⟨same, defined⟩ := parse_inside beyond inside
  rw [memory] at same defined ⊢
  by_cases empty : c = 0
  · simp [start, empty]
  · simpa [start, empty] using ⟨defined, same⟩

end PowerBoot.Arpa
