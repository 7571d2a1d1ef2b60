import Mathlib.Data.List.Basic
import Mathlib.Tactic.Ring

/-! Numerals as C writes them: the digits of a base, behind the prefix that tells
the base. -/

namespace Text

/-- The value of a digit. Letters of either case go on from ten. -/
def digitValue (c : UInt8) : Option Nat :=
  if 48 ≤ c ∧ c ≤ 57 then some (c.toNat - 48)
  else if 65 ≤ c ∧ c ≤ 70 then some (c.toNat - 55)
  else if 97 ≤ c ∧ c ≤ 102 then some (c.toNat - 87)
  else none

/-- The character is a digit of this base, which is at most sixteen. -/
def IsDigit (base : Nat) (c : UInt8) : Prop := ∃ n, digitValue c = some n ∧ n < base

/-- The number that digits stand for, behind the digits of `value`. -/
def valueFrom (base : Nat) (value : Nat) (digits : List UInt8) : Nat :=
  digits.foldl (fun value c => value * base + (digitValue c).getD 0) value

theorem valueFrom_eq {base value : Nat} {digits : List UInt8} :
    valueFrom base value digits = value * base ^ digits.length + valueFrom base 0 digits := by
  induction digits generalizing value with
  | nil => simp [valueFrom]
  | cons c digits ih =>
    have first (value : Nat) : valueFrom base value (c :: digits) =
      valueFrom base (value * base + (digitValue c).getD 0) digits := rfl
    rw [first, first, ih, @ih (0 * base + _), List.length_cons, Nat.pow_succ']
    ring

theorem valueFrom_append {base value : Nat} {first second : List UInt8} :
    valueFrom base value (first ++ second) = valueFrom base (valueFrom base value first) second :=
  List.foldl_append

theorem valueFrom_zero_iff {base : Nat} {digits : List UInt8} (some_ : 0 < base) :
    valueFrom base 0 digits = 0 ↔ ∀ c ∈ digits, (digitValue c).getD 0 = 0 := by
  induction digits with
  | nil => simp [valueFrom]
  | cons c digits ih =>
    have first : valueFrom base 0 (c :: digits) = valueFrom base (0 * base + (digitValue c).getD 0) digits := rfl
    have place : base ^ digits.length ≠ 0 := (Nat.pow_pos some_).ne'
    rw [first, valueFrom_eq, Nat.add_eq_zero_iff, ih, Nat.mul_eq_zero, or_iff_left place]
    simp

/-- A numeral with its value: decimal, octal behind a zero, or hexadecimal behind 0x. -/
inductive Numeral : List UInt8 → Nat → Prop where
  | decimal (first : UInt8) (digits : List UInt8) (nonzero : first ≠ 48)
      (each : ∀ c ∈ first :: digits, IsDigit 10 c) : Numeral (first :: digits) (valueFrom 10 0 (first :: digits))
  | octal (digits : List UInt8) (each : ∀ c ∈ digits, IsDigit 8 c) : Numeral (48 :: digits) (valueFrom 8 0 digits)
  | hexadecimal (x : UInt8) (digits : List UInt8) (letter : x = 120 ∨ x = 88) (some_ : digits ≠ [])
      (each : ∀ c ∈ digits, IsDigit 16 c) : Numeral (48 :: x :: digits) (valueFrom 16 0 digits)

/-- The base that the prefix tells, and the digits behind it. -/
def radix : List UInt8 → Nat × List UInt8
  | [] => (10, [])
  | c :: rest =>
    if c = 48 then match rest with
      | [] => (8, [])
      | x :: digits => if x = 120 ∨ x = 88 then (16, digits) else (8, x :: digits)
    else (10, c :: rest)

/-- A numeral, or what is left of one without its digits. -/
def Tolerable (part : List UInt8) (value : Nat) : Prop :=
  Numeral part value ∨ (part = [] ∨ part = [48, 120] ∨ part = [48, 88]) ∧ value = 0

instance {base : Nat} {c : UInt8} : Decidable (IsDigit base c) :=
  match found : digitValue c with
  | some n => decidable_of_iff (n < base) (by simp [IsDigit, found])
  | none => .isFalse (by simp [IsDigit, found])

theorem IsDigit.inside {base : Nat} {c : UInt8} (digit : IsDigit base c) :
    48 ≤ c ∧ c ≤ 57 ∨ 65 ≤ c ∧ c ≤ 70 ∨ 97 ≤ c ∧ c ≤ 102 := by
  obtain ⟨n, found, _⟩ := digit
  simp only [digitValue] at found
  grind

theorem IsDigit.letter {base : Nat} {x : UInt8} (letter : x = 120 ∨ x = 88) : ¬ IsDigit base x := by
  intro digit
  rcases letter with rfl | rfl <;> simpa using digit.inside

theorem tolerable_iff {part : List UInt8} {value : Nat} : Tolerable part value ↔
    (∀ c ∈ (radix part).2, IsDigit (radix part).1 c) ∧ value = valueFrom (radix part).1 0 (radix part).2 := by
  constructor
  · rintro (numeral | ⟨rfl | rfl | rfl, rfl⟩)
    · cases numeral with
      | decimal first digits nonzero each => simpa [radix, nonzero] using each
      | octal digits each =>
        cases digits with
        | nil => simp [radix]
        | cons x digits =>
          have octal := each x (List.mem_cons_self ..)
          have digit : ¬ (x = 120 ∨ x = 88) := fun letter => IsDigit.letter letter octal
          simpa [radix, digit] using each
      | hexadecimal x digits letter _ each => simpa [radix, letter] using each
    all_goals simp [radix, valueFrom]
  · rintro ⟨each, rfl⟩
    cases part with
    | nil => exact Or.inr ⟨Or.inl rfl, rfl⟩
    | cons first rest =>
      by_cases zero : first = 48
      · subst zero
        cases rest with
        | nil => exact Or.inl (.octal [] nofun)
        | cons x digits =>
          by_cases letter : x = 120 ∨ x = 88
          · simp only [radix, if_pos, letter] at each ⊢
            by_cases none : digits = []
            · subst none
              refine Or.inr ⟨Or.inr ?_, rfl⟩
              rcases letter with rfl | rfl <;> simp
            · exact Or.inl (.hexadecimal x digits letter none each)
          · simp only [radix, if_true, letter, if_false] at each ⊢
            exact Or.inl (.octal _ each)
      · simp only [radix, zero, if_false] at each ⊢
        exact Or.inl (.decimal first rest zero each)

/-- The number of a part, behind its prefix. -/
def valueOf (part : List UInt8) : Nat := valueFrom (radix part).1 0 (radix part).2

theorem Tolerable.valueOf {part : List UInt8} {value : Nat} (tolerable : Tolerable part value) :
    value = Text.valueOf part := (tolerable_iff.mp tolerable).2

theorem Tolerable.unique {part : List UInt8} {value other : Nat} (first : Tolerable part value)
    (second : Tolerable part other) : value = other :=
  first.valueOf.trans second.valueOf.symm

end Text
