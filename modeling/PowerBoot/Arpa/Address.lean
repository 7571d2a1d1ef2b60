import PowerBoot.Arpa.Shape
import PowerBoot.Text.Rendering

/-! The bytes of the address that `inet_addr` reads: what becomes of numbers that are too
large for one, and every way to write an address down. -/

namespace PowerBoot.Arpa
open Text

theorem numeral_inside {part : List UInt8} {n : Nat} (numeral : Numeral part n) {c : UInt8} (member : c ∈ part) :
    c ≠ 0 ∧ c ≠ dot := by
  have digit {base : Nat} (isDigit : IsDigit base c) : c ≠ 0 ∧ c ≠ dot := by
    constructor <;> rintro rfl <;> simpa [dot] using isDigit.inside
  cases numeral with
  | decimal first digits nonzero each => exact digit (each c member)
  | octal digits each =>
    rcases List.mem_cons.mp member with rfl | member
    · decide
    · exact digit (each c member)
  | hexadecimal x digits letter some_ each =>
    rcases List.mem_cons.mp member with rfl | member
    · decide
    · rcases List.mem_cons.mp member with rfl | member
      · rcases letter with rfl | rfl <;> decide
      · exact digit (each c member)

/-- Four numerals with dots between them, and their values. -/
def Quad (s : Cursor) (v w x y : Nat) : Prop := ∃ a b c d, Numeral a v ∧ Numeral b w ∧ Numeral c x ∧ Numeral d y ∧
  s = a ++ dot :: b ++ dot :: c ++ dot :: d

section quad
variable {s : Cursor} {v w x y : Nat}

theorem Quad.tolerated (quad : Quad s v w x y) : Tolerated s [v, w, x, y] := by
  obtain ⟨a, b, c, d, first, second, third, fourth, rfl⟩ := quad
  have joined : a ++ dot :: b ++ dot :: c ++ dot :: d = [dot].intercalate [a, b, c, d] := by simp
  have parts : List.Forall₂ Numeral [a, b, c, d] [v, w, x, y] :=
    .cons first (.cons second (.cons third (.cons fourth .nil)))
  have whole : ∀ p ∈ [a, b, c, d], dot ∉ p := by
    simp only [List.mem_cons, List.not_mem_nil, or_false, forall_eq_or_imp, forall_eq]
    exact ⟨fun member => (numeral_inside first member).2 rfl, fun member => (numeral_inside second member).2 rfl,
      fun member => (numeral_inside third member).2 rfl, fun member => (numeral_inside fourth member).2 rfl⟩
  have split : (a ++ dot :: b ++ dot :: c ++ dot :: d).splitOn dot = [a, b, c, d] := by
    rw [joined, List.splitOn_intercalate dot whole (by simp)]
  refine ⟨by simp, by rw [split]; rfl, ?_⟩
  rw [split]
  exact parts.imp fun _ _ => Or.inl

theorem Quad.inside (quad : Quad s v w x y) : 0 ∉ s := by
  obtain ⟨a, b, c, d, first, second, third, fourth, rfl⟩ := quad
  have different : dot ≠ 0 := by decide
  simp only [List.append_assoc, List.mem_append, List.mem_cons, not_or, List.cons_append]
  exact ⟨fun member => (numeral_inside first member).1 rfl, different.symm,
    fun member => (numeral_inside second member).1 rfl, different.symm,
    fun member => (numeral_inside third member).1 rfl, different.symm,
    fun member => (numeral_inside fourth member).1 rfl⟩

end quad

/-- Byte `k` of an address, the most significant one first. -/
def octet (addr : Word) (k : Nat) : Nat := addr.toNat / 256 ^ (3 - k) % 256

def octets (addr : Word) : List Nat := [octet addr 0, octet addr 1, octet addr 2, octet addr 3]

section address
variable {v w x y : Nat}

theorem address_bytes (first : v < 256) (second : w < 256) (third : x < 256) (fourth : y < 256) :
    (address [v, w, x, y]).toNat = v * 2 ^ 24 + w * 2 ^ 16 + x * 2 ^ 8 + y := by
  have low : x <<< 8 ||| y = x * 2 ^ 8 + y := by
    rw [← Nat.shiftLeft_add_eq_or_of_lt (by omega), Nat.shiftLeft_eq]
  have middle : w <<< 16 ||| (x * 2 ^ 8 + y) = w * 2 ^ 16 + (x * 2 ^ 8 + y) := by
    rw [← Nat.shiftLeft_add_eq_or_of_lt (by omega), Nat.shiftLeft_eq]
  have high : v <<< 24 ||| (w * 2 ^ 16 + (x * 2 ^ 8 + y)) = v * 2 ^ 24 + (w * 2 ^ 16 + (x * 2 ^ 8 + y)) := by
    rw [← Nat.shiftLeft_add_eq_or_of_lt (by omega), Nat.shiftLeft_eq]
  have fits (n k : Nat) (below : n < 256) (room : k ≤ 24) : (n % 2 ^ 32) <<< k % 2 ^ 32 = n <<< k := by
    have small : n <<< k < 2 ^ 32 := by
      rw [Nat.shiftLeft_eq]
      calc n * 2 ^ k ≤ 255 * 2 ^ 24 := Nat.mul_le_mul (by omega) (Nat.pow_le_pow_right (by decide) room)
        _ < 2 ^ 32 := by decide
    rw [Nat.mod_eq_of_lt (Nat.lt_trans below (by decide)), Nat.mod_eq_of_lt small]
  simp only [address, List.getD_cons_zero, List.getD_cons_succ, BitVec.toNat_or, BitVec.toNat_shiftLeft,
    BitVec.toNat_ofNat]
  rw [fits v 24 first (by decide), fits w 16 second (by decide), fits x 8 third (by decide),
    Nat.mod_eq_of_lt (Nat.lt_trans fourth (by decide)), Nat.or_assoc, Nat.or_assoc, low, middle, high]
  omega

theorem octets_address (first : v < 256) (second : w < 256) (third : x < 256) (fourth : y < 256) :
    octets (address [v, w, x, y]) = [v, w, x, y] := by
  simp only [octets, octet, address_bytes first second third fourth, List.cons.injEq, and_true]
  omega

theorem octet_lt (addr : Word) (k : Nat) : octet addr k < 256 := Nat.mod_lt _ (by decide)

theorem address_octets (addr : Word) : address (octets addr) = addr := by
  have bounded := addr.isLt
  apply BitVec.eq_of_toNat_eq
  rw [octets, address_bytes (octet_lt ..) (octet_lt ..) (octet_lt ..) (octet_lt ..)]
  simp only [octet]
  omega

theorem full_iff {n k : Nat} : n % 2 ^ k = 2 ^ k - 1 ↔ ∀ i < k, n.testBit i := by
  constructor
  · intro full i inside
    have bit := congrArg (Nat.testBit · i) full
    simpa [inside] using bit
  · intro each
    apply Nat.eq_of_testBit_eq
    intro i
    by_cases inside : i < k
    · simp [inside, each i inside]
    · simp [inside]

theorem none_iff {addr : Word} : addr = INADDR_NONE ↔ ∀ i < 32, addr.getLsbD i := by
  have ones : INADDR_NONE = BitVec.allOnes 32 := rfl
  rw [ones]
  constructor
  · intro same i inside
    rw [same, BitVec.getLsbD_allOnes]
    exact decide_eq_true inside
  · intro each
    apply BitVec.eq_of_getLsbD_eq
    intro i inside
    rw [each i inside, BitVec.getLsbD_allOnes]
    exact (decide_eq_true inside).symm

/-- Every byte is filled with ones, by its number and by what numbers behind it spill. -/
def Saturated (v w x y : Nat) : Prop :=
  y % 2 ^ 8 = 255 ∧ (x ||| y / 2 ^ 8) % 2 ^ 8 = 255 ∧ (w ||| x / 2 ^ 8 ||| y / 2 ^ 16) % 2 ^ 8 = 255 ∧
    (v ||| w / 2 ^ 8 ||| x / 2 ^ 16 ||| y / 2 ^ 24) % 2 ^ 8 = 255

/-- Only such numbers make the address that stands for an error. -/
theorem address_none_iff : address [v, w, x, y] = INADDR_NONE ↔ Saturated v w x y := by
  have byte (n : Nat) : n % 2 ^ 8 = 255 ↔ ∀ i < 8, n.testBit i := full_iff
  rw [none_iff, Saturated, byte, byte, byte, byte]
  simp only [address, List.getD_cons_zero, List.getD_cons_succ, BitVec.getLsbD_or, BitVec.getLsbD_shiftLeft,
    BitVec.getLsbD_ofNat, Nat.testBit_or, Nat.testBit_div_two_pow]
  constructor
  · intro each
    refine ⟨fun i inside => ?_, fun i inside => ?_, fun i inside => ?_, fun i inside => ?_⟩
    · simpa [show i < 32 by omega, show i < 24 by omega, show i < 16 by omega, inside] using each i (by omega)
    · have bit := each (i + 8) (by omega)
      simpa [show i + 8 < 32 by omega, show i + 8 < 24 by omega, show i + 8 < 16 by omega, show i < 32 by omega]
        using bit
    · have bit := each (i + 16) (by omega)
      simpa [show i + 16 < 32 by omega, show i + 16 < 24 by omega, show i + 16 - 8 = i + 8 by omega,
        show i + 8 < 32 by omega, show i < 32 by omega] using bit
    · have bit := each (i + 24) (by omega)
      simpa [show i + 24 < 32 by omega, show i + 24 - 8 = i + 16 by omega, show i + 24 - 16 = i + 8 by omega,
        show i + 8 < 32 by omega, show i + 16 < 32 by omega, show i < 32 by omega] using bit
  · rintro ⟨fourth, third, second, first⟩ i inside
    by_cases one : i < 8
    · have bit := fourth i one
      simp [bit, inside]
    by_cases two : i < 16
    · have bit := third (i - 8) (by omega)
      simp only [show i - 8 + 8 = i by omega] at bit
      simpa [inside, two, show i < 24 by omega, one, show i - 8 < 32 by omega] using bit
    by_cases three : i < 24
    · have bit := second (i - 16) (by omega)
      simp only [show i - 16 + 8 = i - 8 by omega, show i - 16 + 16 = i by omega] at bit
      simpa [inside, three, one, two, show i - 8 < 32 by omega, show i - 16 < 32 by omega] using bit
    · have bit := first (i - 24) (by omega)
      simp only [show i - 24 + 8 = i - 16 by omega, show i - 24 + 16 = i - 8 by omega,
        show i - 24 + 24 = i by omega] at bit
      simpa [inside, three, one, two, show i - 8 < 32 by omega, show i - 16 < 32 by omega,
        show i - 24 < 32 by omega] using bit

end address

/-- Numbers that fit are read into their bytes, and others are rejected. -/
def ReadsInRange (s : CString) (values : List Nat) : Prop :=
  if ∀ n ∈ values, n ≤ 255 then ∃ addr, inetAddr (some s.memory) = some addr ∧ octets addr = values
  else inetAddr (some s.memory) = some INADDR_NONE

/-- Numbers that are too large are rejected only where what is left of them makes the
address that stands for an error. -/
theorem inetAddr_range (s : CString) {v w x y : Nat} (quad : Quad s.bytes v w x y) :
    ReadsInRange s [v, w, x, y] ↔ (∀ n ∈ [v, w, x, y], n ≤ 255) ∨ Saturated v w x y := by
  have read := s.inetAddr_tolerated quad.tolerated
  unfold ReadsInRange
  split
  next fits =>
    have bounded (n : Nat) (member : n ∈ [v, w, x, y]) : n < 256 := Nat.lt_succ_of_le (fits n member)
    exact iff_of_true ⟨_, read, octets_address (bounded v (by simp)) (bounded w (by simp)) (bounded x (by simp))
      (bounded y (by simp))⟩ (Or.inl fits)
  next large =>
    rw [read, Option.some.injEq, address_none_iff]
    exact (or_iff_right large).symm

/-- The address of a number that fills two bytes with ones. -/
def saturating : CString := ⟨[50, 53, 53, 46, 50, 53, 53, 46, 48, 46, 48, 120, 70, 70, 70, 70], by decide⟩

theorem inetAddr_range_saturating : ReadsInRange saturating [255, 255, 0, 65535] := by
  refine (inetAddr_range saturating
    ⟨[50, 53, 53], [50, 53, 53], [48], [48, 120, 70, 70, 70, 70], ?_, ?_, ?_, ?_, rfl⟩).mpr
    (Or.inr (by unfold Saturated; decide))
  · exact .decimal 50 [53, 53] (by decide) (by decide +kernel)
  · exact .decimal 50 [53, 53] (by decide) (by decide +kernel)
  · exact .octal [] (by decide +kernel)
  · exact .hexadecimal 120 [70, 70, 70, 70] (by decide) (by decide) (by decide +kernel)

/-- The address of a number that spills into the byte in front of it. -/
def spilling : CString := ⟨[49, 46, 50, 46, 52, 46, 50, 53, 54], by decide⟩

theorem inetAddr_spilling : Quad spilling.bytes 1 2 4 256 ∧ inetAddr (some spilling.memory) = some 0x01020500 ∧
    ¬ ReadsInRange spilling [1, 2, 4, 256] := by
  refine ⟨⟨[49], [50], [52], [50, 53, 54], ?_, ?_, ?_, ?_, rfl⟩, by decide +kernel, ?_⟩
  · exact .decimal 49 [] (by decide) (by decide +kernel)
  · exact .decimal 50 [] (by decide) (by decide +kernel)
  · exact .decimal 52 [] (by decide) (by decide +kernel)
  · exact .decimal 50 [53, 54] (by decide) (by decide +kernel)
  · unfold ReadsInRange
    decide

/-- An address written down, each byte in a style of its own. -/
def render (styles : Fin 4 → Style) (addr : Word) : Cursor :=
  (styles 0).write (octet addr 0) ++ dot :: (styles 1).write (octet addr 1) ++ dot :: (styles 2).write (octet addr 2) ++
    dot :: (styles 3).write (octet addr 3)

theorem render_quad (styles : Fin 4 → Style) (addr : Word) :
    Quad (render styles addr) (octet addr 0) (octet addr 1) (octet addr 2) (octet addr 3) :=
  ⟨_, _, _, _, Style.write_numeral .., Style.write_numeral .., Style.write_numeral .., Style.write_numeral .., rfl⟩

/-- The string of an address. -/
def rendered (styles : Fin 4 → Style) (addr : Word) : CString := ⟨render styles addr, (render_quad styles addr).inside⟩

/-- What is written is read back. -/
theorem inetAddr_rendered (styles : Fin 4 → Style) (addr : Word) :
    inetAddr (some (rendered styles addr).memory) = some addr := by
  have read := (rendered styles addr).inetAddr_tolerated (render_quad styles addr).tolerated
  rw [read]
  exact congrArg some (address_octets addr)

end PowerBoot.Arpa
