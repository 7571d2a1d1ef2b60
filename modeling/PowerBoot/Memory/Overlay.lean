import Mathlib.Data.List.Induction

/-! Lists that are stored at the start of a buffer, one after the other. -/

namespace Memory
variable {α : Type*} {buffer chunk : List α} {chunks : List (List α)}

/-- The buffer after `data` was stored at its start. -/
def overwrite (buffer data : List α) : List α := data ++ buffer.drop data.length

theorem overwrite_nil (buffer : List α) : overwrite buffer [] = buffer := rfl

theorem length_overwrite (buffer data : List α) : buffer.length ≤ (overwrite buffer data).length := by
  simp only [overwrite, List.length_append, List.length_drop]
  omega

theorem overwrite_prefix (buffer data : List α) (count : Nat) :
    data.take count <+: (overwrite buffer data).take count := by
  rw [overwrite, List.take_append]
  exact List.prefix_append ..

/-- The buffer after all of them, each of which is stored over those before. -/
def overlay (buffer : List α) (chunks : List (List α)) : List α := chunks.foldl overwrite buffer

theorem overlay_concat : overlay buffer (chunks ++ [chunk]) = overwrite (overlay buffer chunks) chunk := by
  simp [overlay]

theorem overlay_length (fits : ∀ chunk ∈ chunks, chunk.length ≤ buffer.length) :
    (overlay buffer chunks).length = buffer.length := by
  induction chunks using List.reverseRecOn with
  | nil => rfl
  | append_singleton chunks chunk ih =>
    have before := ih fun other member => fits other (List.mem_append_left _ member)
    have room := fits chunk (List.mem_append_right _ (List.mem_singleton_self chunk))
    rw [overlay_concat, overwrite, List.length_append, List.length_drop, before]
    omega

/-- Each element is that of the last chunk that reaches so far, if there is one. -/
theorem overlay_getElem (i : Nat) : (overlay buffer chunks)[i]? =
    (chunks.filter fun chunk => i < chunk.length).getLast?.elim buffer[i]? (·[i]?) := by
  induction chunks using List.reverseRecOn with
  | nil => rfl
  | append_singleton chunks chunk ih =>
    rw [overlay_concat, overwrite]
    by_cases reaches : i < chunk.length
    · simp [reaches, List.getElem?_append_left]
    · rw [List.getElem?_append_right (Nat.le_of_not_lt reaches), List.getElem?_drop,
        Nat.add_sub_cancel' (Nat.le_of_not_lt reaches), ih]
      simp [reaches]

theorem overlay_nil (empty : ∀ chunk ∈ chunks, chunk = []) : overlay buffer chunks = buffer := by
  induction chunks with
  | nil => rfl
  | cons chunk chunks ih =>
    obtain rfl := empty chunk (List.mem_cons_self ..)
    exact ih fun other member => empty other (List.mem_cons_of_mem _ member)

/-- One chunk as large as the buffer is all that is left in it, where the chunks are not
longer together. -/
theorem overlay_whole (member : chunk ∈ chunks) (whole : chunk.length = buffer.length)
    (within : chunks.flatten.length ≤ buffer.length) :
    overlay buffer chunks = chunk ∧ chunks.flatten = chunk := by
  obtain ⟨before, after, rfl⟩ := List.append_of_mem member
  have empty : before.flatten.length = 0 ∧ after.flatten.length = 0 := by
    simp only [List.flatten_append, List.flatten_cons, List.length_append] at within
    omega
  have none_before : ∀ chunk ∈ before, chunk = [] := List.flatten_eq_nil_iff.mp (List.length_eq_zero_iff.mp empty.1)
  have none_after : ∀ chunk ∈ after, chunk = [] := List.flatten_eq_nil_iff.mp (List.length_eq_zero_iff.mp empty.2)
  constructor
  · have first : overlay buffer (before ++ chunk :: after) = overlay (overwrite (overlay buffer before) chunk)
      after := by
      simp [overlay]
    rw [first, overlay_nil none_before, overlay_nil none_after, overwrite, whole, List.drop_length, List.append_nil]
  · simp [List.length_eq_zero_iff.mp empty.1, List.length_eq_zero_iff.mp empty.2]

/-- What the buffer held shows through at its end unless a chunk is as large. -/
theorem overlay_shows {length : Nat} {first second : α} (different : first ≠ second) (some_ : 0 < length)
    (same : overlay (List.replicate length first) chunks = overlay (List.replicate length second) chunks) :
    ∃ chunk ∈ chunks, length ≤ chunk.length := by
  have shown := congrArg (·[length - 1]?) same
  simp only [overlay_getElem] at shown
  cases last : (chunks.filter fun chunk => length - 1 < chunk.length).getLast? with
  | none =>
    rw [last] at shown
    have inside : length - 1 < length := by omega
    simp [inside, different] at shown
  | some chunk =>
    obtain ⟨member, reaches⟩ := List.mem_filter.mp (List.mem_of_getLast? last)
    have reaches : length - 1 < chunk.length := by simpa using reaches
    exact ⟨chunk, member, by omega⟩

end Memory
