import PowerBoot.Arpa.Netinet
import Mathlib.Data.List.Forall2

/-! What `inet_addr` accepts: up to four parts, each of them a numeral or what is left
of one without its digits. -/

namespace PowerBoot.Arpa
open Text

/-- The bases that a prefix can tell. -/
def Known (base : Nat) : Prop := base = 8 ∨ base = 10 ∨ base = 16

theorem radix_known (part : List UInt8) : Known (radix part).1 := by
  unfold radix Known
  grind

theorem digit_sixteen (c : UInt8) : digit 16 c = (digitValue c).map Int.ofNat := by
  simp only [digit, isdigit, isxdigit, tolower, digitValue, Bool.and_eq_true, Bool.or_eq_true, decide_eq_true_eq,
    UInt8.le_iff_toNat_le, UInt8.reduceToNat, true_and]
  have lower : (c + 32).toNat = (c.toNat + 32) % 256 := UInt8.toNat_add c 32
  split <;> grind

theorem digit_small {base : Nat} (small : base ≠ 16) (c : UInt8) :
    digit base c = if 48 ≤ c ∧ c ≤ 57 then (digitValue c).map Int.ofNat else none := by
  grind [digit, isdigit, digitValue, UInt8.le_iff_toNat_le]

theorem digit_of_digit {base : Nat} {c : UInt8} (known : Known base) (isDigit : IsDigit base c) :
    ∃ n : Nat, digitValue c = some n ∧ n < base ∧ digit base c = some (n : Int) := by
  obtain ⟨n, found, below⟩ := isDigit
  refine ⟨n, found, below, ?_⟩
  by_cases sixteen : base = 16
  · rw [sixteen, digit_sixteen, found]
    rfl
  · have decimal : 48 ≤ c ∧ c ≤ 57 := by
      simp only [digitValue, UInt8.le_iff_toNat_le, UInt8.reduceToNat] at found ⊢
      unfold Known at known
      grind
    rw [digit_small sixteen, if_pos decimal, found]
    rfl

/-- Another character ends the loop over the digits, or the function. -/
theorem digit_of_other {base : Nat} {c : UInt8} (other : ¬ IsDigit base c) :
    digit base c = none ∨ ∃ n : Int, digit base c = some n ∧ n ≥ base := by
  have mapped : digit base c = none ∨ digit base c = (digitValue c).map Int.ofNat := by
    by_cases sixteen : base = 16
    · exact Or.inr (sixteen ▸ digit_sixteen c)
    · rw [digit_small sixteen]
      split
      · exact Or.inr rfl
      · exact Or.inl rfl
  rcases mapped with none | value
  · exact Or.inl none
  · cases found : digitValue c with
    | none => exact Or.inl (by rw [value, found]; rfl)
    | some n =>
      have large : base ≤ n := Nat.le_of_not_lt fun below => other ⟨n, found, below⟩
      refine Or.inr ⟨n, by rw [value, found]; rfl, ?_⟩
      exact_mod_cast large

/-- What can follow a part: the end of the string, or a dot. -/
def Stop (e : UInt8) : Prop := e = 0 ∨ e = dot

theorem Stop.not_digit {e : UInt8} (stop : Stop e) (base : Nat) : digit base e = none := by
  rcases stop with rfl | rfl <;> simp [digit, isdigit, isxdigit, dot]

section digits
variable {val : Word} {c e : UInt8} {cp rest ds : Cursor}

theorem digits_stop {base : Nat} (stop : Stop e) : digits base val (e :: rest) = .continues (val, e :: rest) := by
  unfold digits
  split
  · rfl
  · rw [stop.not_digit]

theorem digits_digit {base v : Nat} (known : Known base) (isDigit : IsDigit base c) :
    digits base (BitVec.ofNat 32 v) (c :: cp) =
      digits base (BitVec.ofNat 32 (v * base + (digitValue c).getD 0)) cp := by
  obtain ⟨n, found, below, read⟩ := digit_of_digit known isDigit
  have nonzero : c ≠ 0 := by
    rintro rfl
    simpa using isDigit.inside
  have inBase : ¬ (n : Int) ≥ base := by omega
  rw [digits, if_neg nonzero, read]
  simp only [inBase, if_false, found, Option.getD_some]
  congr 1
  rw [BitVec.ofInt_natCast, BitVec.ofNat_add, BitVec.ofNat_mul]

theorem digits_all {base : Nat} (known : Known base) (each : ∀ c ∈ ds, IsDigit base c) (v : Nat) :
    digits base (BitVec.ofNat 32 v) (ds ++ rest) = digits base (BitVec.ofNat 32 (valueFrom base v ds)) rest := by
  induction ds generalizing v with
  | nil => rfl
  | cons c ds ih =>
    rw [List.cons_append, digits_digit known (each c (List.mem_cons_self ..)),
      ih fun c member => each c (List.mem_cons_of_mem _ member)]
    rfl

/-- Anything else in front of the end of the part is found. -/
theorem digits_broken {base : Nat} (known : Known base) (broken : ∃ c ∈ ds, ¬ IsDigit base c) (ended : 0 ∉ ds)
    (whole : dot ∉ ds) (v : Nat) : digits base (BitVec.ofNat 32 v) (ds ++ rest) = .returns INADDR_NONE ∨
      ∃ val c cp, digits base (BitVec.ofNat 32 v) (ds ++ rest) = .continues (val, c :: cp) ∧ ¬ Stop c := by
  induction ds generalizing v with
  | nil => simp at broken
  | cons c ds ih =>
    rw [List.mem_cons, not_or] at ended whole
    by_cases isDigit : IsDigit base c
    · rw [List.cons_append, digits_digit known isDigit]
      refine ih ?_ ended.2 whole.2 _
      obtain ⟨other, member, isOther⟩ := broken
      rcases List.mem_cons.mp member with rfl | member
      · exact (isOther isDigit).elim
      · exact ⟨other, member, isOther⟩
    · rw [List.cons_append, digits, if_neg (Ne.symm ended.1)]
      rcases digit_of_other isDigit with none | ⟨n, read, large⟩
      · refine Or.inr ⟨_, c, ds ++ rest, by rw [none], ?_⟩
        rintro (zero | isDot)
        · exact ended.1 zero.symm
        · exact whole.1 isDot.symm
      · exact Or.inl (by rw [read]; exact if_pos large)

end digits

theorem base_eq {p rest : Cursor} {e : UInt8} (stop : Stop e) :
    base (p ++ e :: rest) = .continues ((radix p).1, (radix p).2 ++ e :: rest) := by
  have different : e ≠ 48 ∧ e ≠ 120 ∧ e ≠ 88 := by
    rcases stop with rfl | rfl <;> decide
  cases p with
  | nil => simp [base, radix, zero, different]
  | cons c p =>
    by_cases isZero : c = 48
    · subst isZero
      cases p with
      | nil => simp [base, radix, zero, different]
      | cons x p => by_cases letter : x = 120 ∨ x = 88 <;> simp [base, radix, zero, letter]
    · simp [base, radix, zero, isZero]

section part
variable {i v : Nat} {p rest : Cursor} {e : UInt8}

theorem part_accepts (stop : Stop e) (tolerable : Tolerable p v) :
    part i (p ++ e :: rest) = follow i (BitVec.ofNat 32 v) (e :: rest) := by
  obtain ⟨each, rfl⟩ := tolerable_iff.mp tolerable
  rw [part, base_eq stop, Flow.bind_continues]
  have all := @digits_all (e :: rest) _ _ (radix_known p) each 0
  simp only [BitVec.ofNat_eq_ofNat] at all ⊢
  rw [all, digits_stop stop, Flow.bind_continues]

theorem follow_broken {val : Word} {c : UInt8} {cp : Cursor} (broken : ¬ Stop c) :
    follow i val (c :: cp) = .returns INADDR_NONE := by
  obtain ⟨nonzero, other⟩ := not_or.mp broken
  simp [follow, nonzero, other]

theorem part_rejects (stop : Stop e) (ended : 0 ∉ p) (whole : dot ∉ p) (broken : ∀ v, ¬ Tolerable p v) :
    part i (p ++ e :: rest) = .returns INADDR_NONE := by
  have inside : ∀ c ∈ (radix p).2, c ∈ p := by
    unfold radix
    grind
  have other : ∃ c ∈ (radix p).2, ¬ IsDigit (radix p).1 c := by
    by_contra none
    simp only [not_exists, not_and, not_not] at none
    exact broken _ (tolerable_iff.mpr ⟨none, rfl⟩)
  rw [part, base_eq stop, Flow.bind_continues]
  have read := @digits_broken (e :: rest) _ _ (radix_known p) other (fun member => ended (inside 0 member))
    (fun member => whole (inside dot member)) 0
  simp only [BitVec.ofNat_eq_ofNat] at read ⊢
  rcases read with returns | ⟨val, c, cp, continues, unstopped⟩
  · rw [returns, Flow.bind_returns]
  · rw [continues, Flow.bind_continues, follow_broken unstopped]

end part

/-- The memory that holds parts with dots between them. -/
def cursor (parts : List Cursor) : Cursor := [dot].intercalate parts ++ [0]

theorem cursor_single (p : Cursor) : cursor [p] = p ++ [0] := by simp [cursor]

theorem cursor_cons (p q : Cursor) (parts : List Cursor) :
    cursor (p :: q :: parts) = p ++ dot :: cursor (q :: parts) := by simp [cursor]

section follow
variable {i : Nat} {val : Word} {cp : Cursor}

theorem follow_end : follow i val [0] = .continues (val, [0]) := by
  simp [follow, dot]

theorem follow_dot (more : i ≠ 3) : follow i val (dot :: cp) = .continues (val, cp) := by
  simp [follow, more]

theorem follow_last : follow 3 val (dot :: cp) = .returns INADDR_NONE := by
  simp [follow]

end follow

/-- The array with some parts stored and `turns` to come. -/
def stored (values : List Nat) (turns : Nat) : List (Option Word) :=
  values.map (fun v => some (BitVec.ofNat 32 v)) ++ List.replicate turns none

theorem store_next {values : List Nat} {turns v : Nat} :
    store (stored values (turns + 1)) values.length (BitVec.ofNat 32 v) = .continues
      (stored (values ++ [v]) turns) := by
  have inside : values.length < (stored values (turns + 1)).length := by simp [stored]
  rw [store, if_pos inside]
  simp [stored, List.replicate_succ]

/-- Where there are no more than four parts and all of them can be tolerated, those that
are missing are read as zeros. -/
theorem loop_accepts {turns : Nat} {done : List Nat} {parts : List Cursor} {values : List Nat}
    (tolerable : List.Forall₂ Tolerable parts values) (some_ : parts ≠ []) (room : parts.length ≤ turns)
    (four : done.length + turns = 4) : loop turns done.length (cursor parts) (stored done turns) =
      .continues (4, stored (done ++ values ++ List.replicate (turns - parts.length) 0) 0) := by
  induction turns generalizing done parts values with
  | zero => exact (some_ (List.length_eq_zero_iff.mp (Nat.le_zero.mp room))).elim
  | succ turns ih =>
    cases tolerable with
    | nil => exact (some_ rfl).elim
    | @cons p v parts values first others =>
      have later (parts : List Cursor) (values : List Nat) (tolerable : List.Forall₂ Tolerable parts values)
          (some_ : parts ≠ []) (room : parts.length ≤ turns) :=
        @ih (done ++ [v]) parts values tolerable some_ room (by simp; omega)
      simp only [List.length_append, List.length_singleton] at later
      cases others with
      | nil =>
        rw [cursor_single, loop, part_accepts (Or.inl rfl) first, follow_end, Flow.bind_continues]
        simp only [store_next, Flow.bind_continues]
        cases turns with
        | zero =>
          have last : done.length + 1 = 4 := four
          simp [loop, last]
        | succ turns =>
          have ended := later [[]] [0] (.cons (Or.inr ⟨Or.inl rfl, rfl⟩) .nil) (by simp) (by simp)
          rw [cursor_single, List.nil_append] at ended
          simpa [List.replicate_succ] using ended
      | @cons q w parts values second others =>
        simp only [List.length_cons, Nat.add_le_add_iff_right] at room
        have more : done.length ≠ 3 := by omega
        rw [cursor_cons, loop, part_accepts (Or.inr rfl) first, follow_dot more, Flow.bind_continues]
        simp only [store_next, Flow.bind_continues]
        have rest := later (q :: parts) (w :: values) (.cons second others) (by simp) (by simpa using room)
        simpa using rest

theorem loop_rejects {turns : Nat} {done : List Nat} {parts : List Cursor} (some_ : parts ≠ [])
    (ended : ∀ p ∈ parts, 0 ∉ p) (whole : ∀ p ∈ parts, dot ∉ p) (room : 0 < turns)
    (broken : turns < parts.length ∨ ∃ p ∈ parts, ∀ v, ¬ Tolerable p v) (four : done.length + turns = 4) :
    loop turns done.length (cursor parts) (stored done turns) = .returns INADDR_NONE := by
  induction turns generalizing done parts with
  | zero => exact (Nat.lt_irrefl 0 room).elim
  | succ turns ih =>
    obtain ⟨p, parts, rfl⟩ := List.exists_cons_of_ne_nil some_
    have endedP := ended p (List.mem_cons_self ..)
    have wholeP := whole p (List.mem_cons_self ..)
    by_cases first : ∃ v, Tolerable p v
    · obtain ⟨v, first⟩ := first
      have others : turns < parts.length ∨ ∃ p ∈ parts, ∀ v, ¬ Tolerable p v := by
        rcases broken with many | ⟨other, member, intolerable⟩
        · exact Or.inl (Nat.lt_of_succ_lt_succ many)
        · rcases List.mem_cons.mp member with rfl | member
          · exact (intolerable v first).elim
          · exact Or.inr ⟨other, member, intolerable⟩
      cases parts with
      | nil => simp at others
      | cons q parts =>
        rw [cursor_cons, loop, part_accepts (Or.inr rfl) first]
        by_cases last : done.length = 3
        · rw [last, follow_last, Flow.bind_returns]
        · rw [follow_dot last, Flow.bind_continues]
          simp only [store_next, Flow.bind_continues]
          have rest := @ih (done ++ [v]) (q :: parts) (by simp)
            (fun p member => ended p (List.mem_cons_of_mem _ member))
            (fun p member => whole p (List.mem_cons_of_mem _ member)) (by omega) others (by simp; omega)
          simpa using rest
    · have intolerable : ∀ v, ¬ Tolerable p v := not_exists.mp first
      cases parts with
      | nil => rw [cursor_single, loop, part_rejects (Or.inl rfl) endedP wholeP intolerable, Flow.bind_returns]
      | cons q parts =>
        rw [cursor_cons, loop, part_rejects (Or.inr rfl) endedP wholeP intolerable, Flow.bind_returns]

/-- The address of four numbers, each of which is put where its byte belongs. -/
def address (values : List Nat) : Word :=
  (BitVec.ofNat 32 (values.getD 0 0) <<< 24) ||| (BitVec.ofNat 32 (values.getD 1 0) <<< 16) |||
    (BitVec.ofNat 32 (values.getD 2 0) <<< 8) ||| BitVec.ofNat 32 (values.getD 3 0)

theorem address_padded (values : List Nat) (count : Nat) :
    address (values ++ List.replicate count 0) = address values := by
  have same (i : Nat) : (values ++ List.replicate count 0).getD i 0 = values.getD i 0 := by
    simp only [List.getD_eq_getElem?_getD, List.getElem?_append]
    split
    · rfl
    next beyond => grind
  simp only [address, same]

/-- A string of one to four parts, in which only digits may be missing, with the numbers
of its parts. -/
structure Tolerated (s : Cursor) (values : List Nat) : Prop where
  nonempty : s ≠ []
  four : (s.splitOn dot).length ≤ 4
  parts : List.Forall₂ Tolerable (s.splitOn dot) values

theorem Tolerated.unique {s : Cursor} {values others : List Nat} (first : Tolerated s values)
    (second : Tolerated s others) : values = others :=
  List.right_unique_forall₂' (fun _ _ _ left right => left.unique right) first.parts second.parts

/-- Four numerals with dots between them. -/
def Shaped (s : Cursor) : Prop := ∃ a b c d v w x y, Numeral a v ∧ Numeral b w ∧ Numeral c x ∧ Numeral d y ∧
  s = a ++ dot :: b ++ dot :: c ++ dot :: d

theorem mem_splitOn {s p : Cursor} (member : p ∈ s.splitOn dot) : dot ∉ p ∧ ∀ c ∈ p, c ∈ s := by
  induction s generalizing p with
  | nil =>
    obtain rfl : p = [] := by simpa using member
    simp
  | cons c s ih =>
    rw [List.splitOn_cons_eq_if_modifyHead] at member
    split at member
    · rcases List.mem_cons.mp member with rfl | member
      · simp
      · exact ⟨(ih member).1, fun d inside => List.mem_cons_of_mem _ ((ih member).2 d inside)⟩
    next different =>
      obtain ⟨q, parts, split⟩ := List.exists_cons_of_ne_nil (List.splitOn_ne_nil dot s)
      simp only [split, List.modifyHead_cons, List.mem_cons] at member ih
      rcases member with rfl | member
      · obtain ⟨whole, inside⟩ := ih (Or.inl rfl)
        refine ⟨?_, fun d member => ?_⟩
        · rw [List.mem_cons, not_or]
          exact ⟨fun same => different (by simp [← same]), whole⟩
        · rcases List.mem_cons.mp member with rfl | member
          · exact List.mem_cons_self ..
          · exact List.mem_cons_of_mem _ (inside d member)
      · obtain ⟨whole, inside⟩ := ih (Or.inr member)
        exact ⟨whole, fun d member => List.mem_cons_of_mem _ (inside d member)⟩

namespace CString
variable (s : CString)

theorem memory_eq : s.memory = cursor (s.bytes.splitOn dot) := by
  rw [memory, cursor, List.intercalate_splitOn]

theorem inetAddr_nonempty (nonempty : s.bytes ≠ []) : start (some s.memory) = parse s.memory := by
  obtain ⟨c, rest, given⟩ := List.exists_cons_of_ne_nil nonempty
  have first : c ≠ 0 := by
    rintro rfl
    exact s.ended (given ▸ List.mem_cons_self ..)
  simp [start, memory, given, first]

theorem inetAddr_tolerated {values : List Nat} (tolerated : Tolerated s.bytes values) :
    inetAddr (some s.memory) = some (address values) := by
  have some_ : s.bytes.splitOn dot ≠ [] := List.splitOn_ne_nil _ _
  have loops := @loop_accepts 4 [] _ _ tolerated.parts some_ tolerated.four rfl
  have length := tolerated.parts.length_eq
  rw [inetAddr, inetAddr_nonempty s tolerated.nonempty, parse, memory_eq]
  simp only [List.length_nil, stored, List.map_nil, List.nil_append, List.replicate_zero, List.append_nil] at loops
  rw [loops, Flow.bind_continues, ← address_padded values (4 - (s.bytes.splitOn dot).length)]
  match values, length, tolerated.four with
  | [], empty, _ => exact (some_ (List.length_eq_zero_iff.mp empty)).elim
  | [_], one, _ => simp [one, load, address, List.replicate]
  | [_, _], two, _ => simp [two, load, address, List.replicate]
  | [_, _, _], three, _ => simp [three, load, address]
  | [_, _, _, _], four, _ => simp [four, load, address]
  | _ :: _ :: _ :: _ :: _ :: _, more, four =>
    rw [more] at four
    simp only [List.length_cons] at four
    omega

theorem inetAddr_rejected (rejected : ∀ values, ¬ Tolerated s.bytes values) :
    inetAddr (some s.memory) = some INADDR_NONE := by
  by_cases nonempty : s.bytes = []
  · simp [inetAddr, start, memory, nonempty]
  · have broken : 4 < (s.bytes.splitOn dot).length ∨ ∃ p ∈ s.bytes.splitOn dot, ∀ v, ¬ Tolerable p v := by
      by_contra none
      simp only [not_or, Nat.not_lt, not_exists, not_and, not_forall, not_not] at none
      obtain ⟨four, each⟩ := none
      have parts : List.Forall₂ Tolerable (s.bytes.splitOn dot) ((s.bytes.splitOn dot).map valueOf) := by
        refine List.forall₂_map_right_iff.mpr (List.forall₂_same.mpr fun p member => ?_)
        obtain ⟨v, tolerable⟩ := each p member
        rwa [← tolerable.valueOf]
      exact rejected _ ⟨nonempty, four, parts⟩
    have some_ : s.bytes.splitOn dot ≠ [] := List.splitOn_ne_nil _ _
    have loops := @loop_rejects 4 [] _ some_
      (fun p member zero => s.ended ((mem_splitOn member).2 0 zero)) (fun p member => (mem_splitOn member).1)
      (by decide) broken rfl
    rw [inetAddr, inetAddr_nonempty s nonempty, parse, memory_eq]
    simp only [List.length_nil, stored, List.map_nil, List.nil_append] at loops
    rw [loops, Flow.bind_returns]

end CString

/-- What is accepted has four numerals, but for strings in which parts or their digits are
missing and that are not read as the address that stands for an error. -/
theorem inetAddr_shape (s : CString) : ∃ addr, inetAddr (some s.memory) = some addr ∧
    ((addr ≠ INADDR_NONE → Shaped s.bytes) ↔
      Shaped s.bytes ∨ ∀ values, Tolerated s.bytes values → address values = INADDR_NONE) := by
  by_cases accepted : ∃ values, Tolerated s.bytes values
  · obtain ⟨values, tolerated⟩ := accepted
    refine ⟨address values, s.inetAddr_tolerated tolerated, ?_⟩
    constructor
    · intro shape
      by_cases none : address values = INADDR_NONE
      · refine Or.inr fun others again => ?_
        rwa [again.unique tolerated]
      · exact Or.inl (shape none)
    · rintro (shaped | all) valid
      · exact shaped
      · exact (valid (all values tolerated)).elim
  · have rejected := not_exists.mp accepted
    refine ⟨INADDR_NONE, s.inetAddr_rejected rejected, ?_⟩
    constructor
    · exact fun _ => Or.inr fun values tolerated => (rejected values tolerated).elim
    · exact fun _ valid => (valid rfl).elim

def threeParts : CString := ⟨[49, 46, 50, 46, 51], by decide⟩

theorem inetAddr_threeParts : inetAddr (some threeParts.memory) = some 0x01020300 ∧ ¬ Shaped threeParts.bytes := by
  refine ⟨by decide, ?_⟩
  rintro ⟨a, b, c, d, v, w, x, y, _, _, _, _, same⟩
  have dots := congrArg (List.count dot) same
  have three : 3 ≤ List.count dot (a ++ dot :: b ++ dot :: c ++ dot :: d) := by
    simp only [List.count_append, List.count_cons_self]
    omega
  have two : List.count dot threeParts.bytes = 2 := by decide
  omega

end PowerBoot.Arpa
