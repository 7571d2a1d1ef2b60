import PowerBoot.Text.Numeral
import Mathlib.Data.Nat.Digits.Lemmas
import Mathlib.Data.List.Forall2

/-! Numbers written as numerals, in every base, with leading zeros and with letters of
either case. -/

namespace Text

/-- The character of a digit. `upper` tells the case of a letter. -/
def digitChar (upper : Bool) (n : Nat) : UInt8 :=
  if n < 10 then UInt8.ofNat (48 + n)
  else if upper then UInt8.ofNat (55 + n)
  else UInt8.ofNat (87 + n)

/-- The digits of a number, most significant first. -/
def digitsOf (base n : Nat) : List Nat := (Nat.digits base n).reverse

/-- The digits of a number as it is written: zero has one, too. -/
def shownDigits (base n : Nat) : List Nat := if n = 0 then [0] else digitsOf base n

/-- A way to write a number. `zeros` counts the zeros that lead, behind the prefix. -/
inductive Style where
  | decimal
  | octal (zeros : Nat)
  | hexadecimal (capital : Bool) (zeros : Nat) (upper : Nat → Bool)

def Style.write : Style → Nat → List UInt8
  | decimal, n => (shownDigits 10 n).map (digitChar false)
  | octal zeros, n => 48 :: (List.replicate zeros 48 ++ (digitsOf 8 n).map (digitChar false))
  | hexadecimal capital zeros upper, n => 48 :: (if capital then 88 else 120) ::
      (List.replicate zeros 48 ++ (shownDigits 16 n).mapIdx fun i d => digitChar (upper i) d)

/-- A character and the digit that it shows. -/
def Shows (c : UInt8) (d : Nat) : Prop := digitValue c = some d

theorem shows_digitChar {d : Nat} (below : d < 16) (upper : Bool) : Shows (digitChar upper d) d := by
  have each : ∀ d < 16, ∀ upper, digitValue (digitChar upper d) = some d := by decide
  exact each d below upper

section shown
variable {base v : Nat} {cs : List UInt8} {ds : List Nat}

theorem valueFrom_shown (shown : List.Forall₂ Shows cs ds) :
    valueFrom base v cs = ds.foldl (fun v d => v * base + d) v := by
  induction shown generalizing v with
  | nil => rfl
  | cons first _ ih =>
    rw [valueFrom, List.foldl_cons, List.foldl_cons, first]
    exact ih

theorem isDigit_shown (shown : List.Forall₂ Shows cs ds) (below : ∀ d ∈ ds, d < base) : ∀ c ∈ cs, IsDigit base c := by
  induction shown with
  | nil => simp
  | cons first _ ih =>
    rintro c (_ | ⟨_, member⟩)
    · exact ⟨_, first, below _ (List.mem_cons_self ..)⟩
    · exact ih (fun d member => below d (List.mem_cons_of_mem _ member)) c member

end shown

section digits
variable {base : Nat} (n : Nat)

theorem digitsOf_value : (digitsOf base n).foldl (fun v d => v * base + d) 0 = n := by
  rw [digitsOf, List.foldl_reverse]
  have value := Nat.ofDigits_eq_foldr base (Nat.digits base n)
  rw [Nat.ofDigits_digits] at value
  conv_rhs => rw [value]
  congr 1
  funext d v
  rw [Nat.mul_comm, Nat.add_comm]
  rfl

theorem digitsOf_below (large : 1 < base) : ∀ d ∈ digitsOf base n, d < base :=
  fun _ member => Nat.digits_lt_base large (List.mem_reverse.mp member)

theorem shownDigits_value : (shownDigits base n).foldl (fun v d => v * base + d) 0 = n := by
  unfold shownDigits
  split
  next zero => simp [zero]
  · exact digitsOf_value n

theorem shownDigits_below (large : 1 < base) : ∀ d ∈ shownDigits base n, d < base := by
  unfold shownDigits
  split
  · simp; omega
  · exact digitsOf_below n large

theorem shownDigits_ne_nil : shownDigits base n ≠ [] := by
  unfold shownDigits digitsOf
  split
  · simp
  next positive => simpa [Nat.digits_ne_nil_iff_ne_zero] using positive

end digits

theorem shows_map {ds : List Nat} (below : ∀ d ∈ ds, d < 16) (upper : Bool) :
    List.Forall₂ Shows (ds.map (digitChar upper)) ds :=
  List.forall₂_map_left_iff.mpr (List.forall₂_same.mpr fun d member => shows_digitChar (below d member) upper)

theorem shows_mapIdx {ds : List Nat} (below : ∀ d ∈ ds, d < 16) (upper : Nat → Bool) :
    List.Forall₂ Shows (ds.mapIdx fun i d => digitChar (upper i) d) ds := by
  induction ds generalizing upper with
  | nil => exact .nil
  | cons d ds ih =>
    rw [List.mapIdx_cons]
    exact .cons (shows_digitChar (below d (List.mem_cons_self ..)) _)
      (ih (fun d member => below d (List.mem_cons_of_mem _ member)) fun i => upper (i + 1))

theorem shows_zeros (zeros : Nat) : List.Forall₂ Shows (List.replicate zeros 48) (List.replicate zeros 0) := by
  induction zeros with
  | zero => exact .nil
  | succ zeros ih => exact .cons rfl ih

theorem foldl_zeros (base zeros : Nat) (ds : List Nat) :
    (List.replicate zeros 0 ++ ds).foldl (fun v d => v * base + d) 0 = ds.foldl (fun v d => v * base + d) 0 := by
  induction zeros with
  | zero => rfl
  | succ zeros ih => simpa [List.replicate_succ] using ih

theorem padded {base n zeros : Nat} {cs : List UInt8} {ds : List Nat} (shown : List.Forall₂ Shows cs ds)
    (below : ∀ d ∈ ds, d < base) (large : 1 < base) (value : ds.foldl (fun v d => v * base + d) 0 = n) :
    (∀ c ∈ List.replicate zeros 48 ++ cs, IsDigit base c) ∧ valueFrom base 0 (List.replicate zeros 48 ++ cs) = n := by
  have all := List.rel_append (shows_zeros zeros) shown
  refine ⟨isDigit_shown all fun d member => ?_, ?_⟩
  · rcases List.mem_append.mp member with zero | member
    · rw [List.eq_of_mem_replicate zero]
      omega
    · exact below d member
  · rw [valueFrom_shown all, foldl_zeros, value]

theorem digitsOf_first {n d : Nat} {ds : List Nat} (given : digitsOf 10 n = d :: ds) : d ≠ 0 := by
  have some_ : Nat.digits 10 n ≠ [] := by
    intro none
    simp [digitsOf, none] at given
  have last := Nat.getLast_digit_ne_zero 10 (m := n) (by simpa [Nat.digits_ne_nil_iff_ne_zero] using some_)
  have first : (Nat.digits 10 n).getLast some_ = d := by
    have reversed : Nat.digits 10 n = ds.reverse ++ [d] := by
      rw [← List.reverse_reverse (Nat.digits 10 n), ← digitsOf, given, List.reverse_cons]
    simp [reversed]
  rwa [first] at last

/-- What is written is a numeral with the number as its value. -/
theorem Style.write_numeral (style : Style) (n : Nat) : Numeral (style.write n) n := by
  cases style with
  | decimal =>
    by_cases zero : n = 0
    · rw [zero]
      exact .octal [] nofun
    · have below := @digitsOf_below 10 n (by decide)
      have shown := shows_map (fun d member => Nat.lt_trans (below d member) (by decide)) false
      have value := @digitsOf_value 10 n
      obtain ⟨d, ds, given⟩ : ∃ d ds, digitsOf 10 n = d :: ds :=
        List.exists_cons_of_ne_nil (by simpa [shownDigits, zero] using @shownDigits_ne_nil 10 n)
      have each := isDigit_shown shown below
      rw [← valueFrom_shown shown] at value
      have nonzero : digitChar false d ≠ 48 := by
        intro same
        have shows := shows_digitChar (Nat.lt_trans (below d (given ▸ List.mem_cons_self ..)) (by decide)) false
        rw [same] at shows
        exact digitsOf_first given (Option.some.inj shows).symm
      simp only [write, shownDigits, zero, if_false]
      rw [given, List.map_cons] at each value ⊢
      have numeral := Numeral.decimal _ _ nonzero each
      rwa [value] at numeral
  | octal zeros =>
    have below := @digitsOf_below 8 n (by decide)
    have shown := shows_map (fun d member => Nat.lt_trans (below d member) (by decide)) false
    obtain ⟨each, value⟩ := @padded 8 n zeros _ _ shown below (by decide) (digitsOf_value n)
    have numeral := Numeral.octal _ each
    rwa [value] at numeral
  | hexadecimal capital zeros upper =>
    have below := @shownDigits_below 16 n (by decide)
    obtain ⟨each, value⟩ := @padded 16 n zeros _ _ (shows_mapIdx below upper) below (by decide) (shownDigits_value n)
    have letter : (if capital then (88 : UInt8) else 120) = 120 ∨ (if capital then (88 : UInt8) else 120) = 88 := by
      cases capital <;> simp
    have some_ : List.replicate zeros 48 ++ (shownDigits 16 n).mapIdx (fun i d => digitChar (upper i) d) ≠ [] := by
      simpa using fun _ => shownDigits_ne_nil n
    have numeral := Numeral.hexadecimal _ _ letter some_ each
    rwa [value] at numeral

end Text
