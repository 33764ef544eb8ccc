import Mathlib.Data.List.Induction
import Xrss.Zig.Integer

namespace Xrss.Zig

def isDigit (char : UInt8) : Bool := decide (0x30 ≤ char ∧ char ≤ 0x39)

def digitValue (char : UInt8) : Nat := char.toNat - 0x30

/-- A digit goes behind the number so far, an underscore adds nothing. -/
def appendDigit (value : Nat) (char : UInt8) : Nat :=
  if char = 0x5f then value else value * 10 + digitValue char

def decimalValue (digits : Bytes) : Nat := digits.foldl appendDigit 0

/-- Digits with underscores between them. -/
structure DigitGroups (digits : Bytes) : Prop where
  nonempty : digits ≠ []
  head : digits.head? ≠ some 0x5f
  last : digits.getLast? ≠ some 0x5f
  chars : ∀ char ∈ digits, char = 0x5f ∨ isDigit char

/-- The numerals of unsigned integers: a sign may come first, and only zero may
be negative. -/
inductive Numeral : Bytes → Nat → Prop where
  | bare {digits : Bytes} (groups : DigitGroups digits) : Numeral digits (decimalValue digits)
  | plus {digits : Bytes} (groups : DigitGroups digits) :
      Numeral (0x2b :: digits) (decimalValue digits)
  | minus {digits : Bytes} (groups : DigitGroups digits) (zero : decimalValue digits = 0) :
      Numeral (0x2d :: digits) 0

theorem charToDigit_decimal (char : UInt8) :
    charToDigit char 10 = if isDigit char then .ok (digitValue char) else .error .invalidCharacter := by
  unfold charToDigit isDigit digitValue
  by_cases digit : 0x30 ≤ char ∧ char ≤ 0x39
  · have small : ¬ 10 ≤ char.toNat - 48 := by
      have := UInt8.le_iff_toNat_le.mp digit.2
      simp at this
      omega
    simp [digit, small]
  · by_cases upper : 0x41 ≤ char ∧ char ≤ 0x5a
    · simp [digit, upper]
    · by_cases lower : 0x61 ≤ char ∧ char ≤ 0x7a
      · simp [digit, upper, lower]
      · simp [digit, upper, lower]

theorem castUnsigned_eq_ok {bits value : Nat} {result : Int} :
    castUnsigned bits result = .ok value ↔ result = value ∧ value < 2 ^ bits := by
  unfold castUnsigned
  have small : (value : Int) < 2 ^ bits ↔ value < 2 ^ bits := by exact_mod_cast Iff.rfl
  by_cases range : 0 ≤ result ∧ result < 2 ^ bits
  · rw [if_pos range, Outcome.ok.injEq, ← small]
    omega
  · rw [if_neg range, ← small]
    simp only [reduceCtorEq, false_iff]
    omega

theorem le_appendDigit (value : Nat) (char : UInt8) : value ≤ appendDigit value char := by
  unfold appendDigit
  split <;> omega

theorem le_foldl_appendDigit (digits : Bytes) (value : Nat) :
    value ≤ digits.foldl appendDigit value := by
  induction digits generalizing value with
  | nil => exact Nat.le_refl value
  | cons char rest ih => exact Nat.le_trans (le_appendDigit value char) (ih _)

section Loop

variable {bits accumulate value : Nat}

/-- The product is checked apart from the sum, which is at least as large. -/
theorem parseDigit_pos_eq_ok (fits : accumulate < 2 ^ bits) {char : UInt8} :
    parseDigit bits 10 .pos accumulate char = .ok value ↔
      (char = 0x5f ∨ isDigit char) ∧ value = appendDigit accumulate char ∧ value < 2 ^ bits := by
  unfold parseDigit appendDigit
  by_cases underscore : char = 0x5f
  · simp only [underscore, if_true, Outcome.ok.injEq, true_or, true_and]
    constructor
    · intro same
      subst same
      exact ⟨rfl, fits⟩
    · intro kept
      exact kept.1.symm
  · simp only [underscore, if_false, false_or, charToDigit_decimal, reduceCtorEq, and_false]
    by_cases digit : isDigit char
    · simp only [digit, if_true, Outcome.ok_bind, true_and]
      by_cases zero : accumulate = 0
      · simp only [zero, if_true, Outcome.ok_bind, castUnsigned_eq_ok]
        omega
      · simp only [zero, if_false, Outcome.bind_eq_ok, castUnsigned_eq_ok]
        constructor
        · intro steps
          obtain ⟨scaled, ⟨same, _⟩, total, within⟩ := steps
          exact ⟨by omega, within⟩
        · intro total
          obtain ⟨rfl, within⟩ := total
          exact ⟨accumulate * 10, ⟨by omega, by omega⟩, by omega, within⟩
    · simp [digit]

/-- After a minus only zeros are digits. -/
theorem parseDigit_neg_eq_ok {char : UInt8} :
    parseDigit bits 10 .neg 0 char = .ok value ↔
      (char = 0x5f ∨ isDigit char) ∧ appendDigit 0 char = 0 ∧ value = 0 := by
  unfold parseDigit appendDigit
  by_cases underscore : char = 0x5f
  · simp only [underscore, if_true, Outcome.ok.injEq, true_or, true_and]
    omega
  · simp only [underscore, if_false, false_or, charToDigit_decimal, and_self, if_true]
    by_cases digit : isDigit char
    · have positive : 0 < 2 ^ bits := Nat.two_pow_pos bits
      simp only [digit, if_true, Outcome.ok_bind, castUnsigned_eq_ok, true_and]
      constructor
      · intro negated
        have := negated.1
        omega
      · intro zero
        obtain ⟨zero, rfl⟩ := zero
        exact ⟨by omega, positive⟩
    · simp [digit]

theorem foldlM_parseDigit_pos (digits : Bytes) (fits : accumulate < 2 ^ bits) :
    digits.foldlM (parseDigit bits 10 .pos) accumulate = .ok value ↔
      (∀ char ∈ digits, char = 0x5f ∨ isDigit char) ∧
        value = digits.foldl appendDigit accumulate ∧ value < 2 ^ bits := by
  induction digits generalizing accumulate with
  | nil =>
    simp only [List.foldlM_nil, Outcome.pure_eq_ok, Outcome.ok.injEq, List.foldl_nil]
    constructor
    · intro same
      subst same
      exact ⟨by simp, rfl, fits⟩
    · intro kept
      exact kept.2.1.symm
  | cons char rest ih =>
    simp only [List.foldlM_cons, Outcome.bind_eq_ok, parseDigit_pos_eq_ok fits, List.foldl_cons,
      List.forall_mem_cons]
    constructor
    · intro loop
      obtain ⟨_, ⟨first, rfl, within⟩, ran⟩ := loop
      obtain ⟨later, same, final⟩ := (ih within).mp ran
      exact ⟨⟨first, later⟩, same, final⟩
    · intro total
      obtain ⟨⟨first, later⟩, rfl, final⟩ := total
      have within : appendDigit accumulate char < 2 ^ bits :=
        Nat.lt_of_le_of_lt (le_foldl_appendDigit rest _) final
      exact ⟨_, ⟨first, rfl, within⟩, (ih within).mpr ⟨later, rfl, final⟩⟩

theorem foldlM_parseDigit_neg (digits : Bytes) :
    digits.foldlM (parseDigit bits 10 .neg) 0 = .ok value ↔
      (∀ char ∈ digits, char = 0x5f ∨ isDigit char) ∧ decimalValue digits = 0 ∧ value = 0 := by
  unfold decimalValue
  induction digits with
  | nil =>
    simp only [List.foldlM_nil, Outcome.pure_eq_ok, Outcome.ok.injEq, List.foldl_nil, true_and]
    exact ⟨fun same => ⟨by simp, same.symm⟩, fun same => same.2.symm⟩
  | cons char rest ih =>
    simp only [List.foldlM_cons, Outcome.bind_eq_ok, parseDigit_neg_eq_ok, List.foldl_cons,
      List.forall_mem_cons]
    constructor
    · intro loop
      obtain ⟨_, ⟨first, zero, rfl⟩, ran⟩ := loop
      obtain ⟨later, total, rfl⟩ := ih.mp ran
      exact ⟨⟨first, later⟩, by rw [zero, total], rfl⟩
    · intro zeros
      obtain ⟨⟨first, later⟩, total, rfl⟩ := zeros
      have zero : appendDigit 0 char = 0 := by
        have := le_foldl_appendDigit rest (appendDigit 0 char)
        omega
      rw [zero] at total
      exact ⟨0, ⟨first, zero, rfl⟩, ih.mpr ⟨later, total, rfl⟩⟩

theorem parseIntWithSign_eq_ok {sign : Sign} {digits : Bytes} :
    parseIntWithSign bits 10 sign digits = .ok value ↔
      DigitGroups digits ∧ match sign with
        | .pos => value = decimalValue digits ∧ value < 2 ^ bits
        | .neg => decimalValue digits = 0 ∧ value = 0 := by
  unfold parseIntWithSign
  by_cases empty : digits = []
  · simp only [empty, if_true, reduceCtorEq, false_iff]
    exact fun groups => groups.1.nonempty rfl
  · by_cases edge : digits.head? = some 0x5f ∨ digits.getLast? = some 0x5f
    · simp only [empty, edge, if_true, if_false, reduceCtorEq, false_iff]
      exact fun groups => edge.elim groups.1.head groups.1.last
    · have groups : DigitGroups digits ↔ ∀ char ∈ digits, char = 0x5f ∨ isDigit char :=
        ⟨DigitGroups.chars, fun chars => ⟨empty, not_or.mp edge |>.1, not_or.mp edge |>.2, chars⟩⟩
      rw [if_neg empty, if_neg edge, groups]
      cases sign with
      | pos => exact foldlM_parseDigit_pos digits (Nat.two_pow_pos bits)
      | neg => exact foldlM_parseDigit_neg digits

/-- Digit groups start with neither sign. -/
theorem DigitGroups.unsigned {char : UInt8} {rest : Bytes} (groups : DigitGroups (char :: rest)) :
    char ≠ 0x2b ∧ char ≠ 0x2d := by
  have first := groups.chars char (by simp)
  constructor <;>
  · intro same
    rw [same] at first
    revert first
    decide

theorem numeral_plus {rest : Bytes} :
    Numeral (0x2b :: rest) value ↔ DigitGroups rest ∧ value = decimalValue rest := by
  constructor
  · intro numeral
    cases numeral with
    | bare groups => exact (groups.unsigned.1 rfl).elim
    | plus groups => exact ⟨groups, rfl⟩
  · intro signed
    obtain ⟨groups, rfl⟩ := signed
    exact .plus groups

theorem numeral_minus {rest : Bytes} :
    Numeral (0x2d :: rest) value ↔ DigitGroups rest ∧ decimalValue rest = 0 ∧ value = 0 := by
  constructor
  · intro numeral
    cases numeral with
    | bare groups => exact (groups.unsigned.2 rfl).elim
    | minus groups zero => exact ⟨groups, zero, rfl⟩
  · intro signed
    obtain ⟨groups, zero, rfl⟩ := signed
    exact .minus groups zero

theorem numeral_bare {buf : Bytes} (noPlus : ∀ rest, buf ≠ 0x2b :: rest)
    (noMinus : ∀ rest, buf ≠ 0x2d :: rest) :
    Numeral buf value ↔ DigitGroups buf ∧ value = decimalValue buf := by
  constructor
  · intro numeral
    cases numeral with
    | bare groups => exact ⟨groups, rfl⟩
    | plus _ => exact (noPlus _ rfl).elim
    | minus _ _ => exact (noMinus _ rfl).elim
  · intro unsigned
    obtain ⟨groups, rfl⟩ := unsigned
    exact .bare groups

theorem parseInt_eq_ok {buf : Bytes} :
    parseInt bits buf 10 = .ok value ↔ Numeral buf value ∧ value < 2 ^ bits := by
  unfold parseInt
  split
  · simp only [reduceCtorEq, false_iff]
    intro accepted
    cases accepted.1 with
    | bare groups => exact groups.nonempty rfl
  · rw [parseIntWithSign_eq_ok, numeral_plus, and_assoc]
  · rw [parseIntWithSign_eq_ok, numeral_minus]
    have positive : 0 < 2 ^ bits := Nat.two_pow_pos bits
    constructor
    · intro parsed
      obtain ⟨groups, zero, rfl⟩ := parsed
      exact ⟨⟨groups, zero, rfl⟩, positive⟩
    · exact fun numeral => numeral.1
  · rename_i noPlus noMinus
    rw [parseIntWithSign_eq_ok, numeral_bare (fun rest => noPlus rest) (fun rest => noMinus rest),
      and_assoc]

end Loop

theorem Numeral.unique {buf : Bytes} {first second : Nat} (left : Numeral buf first)
    (right : Numeral buf second) : first = second := by
  have fits (value : Nat) (small : value ≤ first + second) : value < 2 ^ (first + second) :=
    Nat.lt_of_le_of_lt small Nat.lt_two_pow_self
  have read := parseInt_eq_ok.mpr ⟨left, fits first (by omega)⟩
  rw [parseInt_eq_ok.mpr ⟨right, fits second (by omega)⟩] at read
  exact (Outcome.ok.inj read).symm

theorem digitValue_lt {char : UInt8} (digit : isDigit char) : digitValue char < 10 := by
  have upper := UInt8.le_iff_toNat_le.mp (of_decide_eq_true digit).2
  unfold digitValue
  simp at upper
  omega

theorem foldl_appendDigit_lt {digits : Bytes} (chars : ∀ char ∈ digits, char = 0x5f ∨ isDigit char)
    (value : Nat) : digits.foldl appendDigit value < (value + 1) * 10 ^ digits.length := by
  induction digits generalizing value with
  | nil => simp
  | cons char rest ih =>
    obtain ⟨first, later⟩ := List.forall_mem_cons.mp chars
    have step : appendDigit value char + 1 ≤ (value + 1) * 10 := by
      unfold appendDigit
      split
      · omega
      · have := digitValue_lt (first.resolve_left ‹_›)
        omega
    calc rest.foldl appendDigit (appendDigit value char)
        < (appendDigit value char + 1) * 10 ^ rest.length := ih later _
      _ ≤ (value + 1) * 10 * 10 ^ rest.length := Nat.mul_le_mul_right _ step
      _ = (value + 1) * 10 ^ (char :: rest).length := by
        rw [List.length_cons, Nat.pow_succ', Nat.mul_assoc]

theorem DigitGroups.value_lt {digits : Bytes} (groups : DigitGroups digits) :
    decimalValue digits < 10 ^ digits.length := by
  simpa [decimalValue] using foldl_appendDigit_lt groups.chars 0

theorem Numeral.value_lt {buf : Bytes} {value : Nat} (numeral : Numeral buf value) :
    value < 10 ^ buf.length := by
  cases numeral with
  | bare groups => exact groups.value_lt
  | plus groups =>
    exact Nat.lt_of_lt_of_le groups.value_lt (Nat.pow_le_pow_right (by decide) (Nat.le_succ _))
  | minus groups zero => exact Nat.pow_pos (by decide)

theorem Numeral.lt_of_length_le {buf : Bytes} {value width : Nat} (numeral : Numeral buf value)
    (short : buf.length ≤ width) : value < 10 ^ width :=
  Nat.lt_of_lt_of_le numeral.value_lt (Nat.pow_le_pow_right (by decide) short)

/-- The decimal digits of a number, with zeros up to a width. -/
def decimal : Nat → Nat → Bytes
  | 0, _ => []
  | width + 1, value => decimal width (value / 10) ++ [UInt8.ofNat (0x30 + value % 10)]

@[simp] theorem length_decimal (width value : Nat) : (decimal width value).length = width := by
  induction width generalizing value with
  | zero => rfl
  | succ width ih => simp [decimal, ih]

theorem toNat_digit {digit : Nat} (small : digit < 10) :
    (UInt8.ofNat (0x30 + digit)).toNat = 0x30 + digit := by
  rw [UInt8.toNat_ofNat']
  omega

theorem isDigit_digit {digit : Nat} (small : digit < 10) : isDigit (UInt8.ofNat (0x30 + digit)) := by
  simp only [isDigit, UInt8.le_iff_toNat_le, toNat_digit small, decide_eq_true_eq]
  simp
  omega

theorem ne_of_isDigit {char other : UInt8} (digit : isDigit char) (dark : isDigit other = false) :
    char ≠ other := by
  intro same
  rw [same, dark] at digit
  cases digit

theorem appendDigit_of_isDigit {char : UInt8} (digit : isDigit char) (value : Nat) :
    appendDigit value char = value * 10 + digitValue char :=
  if_neg (ne_of_isDigit digit (by decide))

theorem decimal_digits (width value : Nat) : ∀ char ∈ decimal width value, isDigit char := by
  induction width generalizing value with
  | zero => simp [decimal]
  | succ width ih =>
    intro char member
    rcases List.mem_append.mp member with earlier | last
    · exact ih _ char earlier
    · rw [List.mem_singleton.mp last]
      exact isDigit_digit (Nat.mod_lt _ (by decide))

theorem decimalValue_concat (digits : Bytes) (char : UInt8) :
    decimalValue (digits ++ [char]) = appendDigit (decimalValue digits) char := by
  simp [decimalValue]

theorem decimalValue_decimal {width value : Nat} (fits : value < 10 ^ width) :
    decimalValue (decimal width value) = value := by
  induction width generalizing value with
  | zero =>
    have zero : value = 0 := by simpa using fits
    subst zero
    rfl
  | succ width ih =>
    have shorter : value / 10 < 10 ^ width := by
      rw [Nat.pow_succ] at fits
      exact Nat.div_lt_of_lt_mul (by omega)
    have small : value % 10 < 10 := Nat.mod_lt _ (by decide)
    rw [decimal, decimalValue_concat, ih shorter, appendDigit_of_isDigit (isDigit_digit small),
      digitValue, toNat_digit small]
    omega

/-- Plain digits are the ones their value is written with. -/
theorem decimal_decimalValue {digits : Bytes} (plain : ∀ char ∈ digits, isDigit char) :
    decimal digits.length (decimalValue digits) = digits := by
  induction digits using List.reverseRecOn with
  | nil => rfl
  | append_singleton digits char ih =>
    have earlier := ih fun other member => plain other (by simp [member])
    have digit := plain char (by simp)
    have small := digitValue_lt digit
    have same : UInt8.ofNat (0x30 + digitValue char) = char := by
      have lower := UInt8.le_iff_toNat_le.mp (of_decide_eq_true digit).1
      apply UInt8.toNat_inj.mp
      rw [toNat_digit small, digitValue]
      simp at lower
      omega
    have front : (decimalValue digits * 10 + digitValue char) / 10 = decimalValue digits := by omega
    have back : (decimalValue digits * 10 + digitValue char) % 10 = digitValue char := by omega
    rw [List.length_append, List.length_singleton, decimal, decimalValue_concat,
      appendDigit_of_isDigit digit, front, back, earlier, same]

theorem DigitGroups.of_digits {digits : Bytes} (nonempty : digits ≠ [])
    (plain : ∀ char ∈ digits, isDigit char) : DigitGroups digits where
  nonempty := nonempty
  head first := ne_of_isDigit (plain _ (List.mem_of_mem_head? first)) (by decide) rfl
  last final := ne_of_isDigit (plain _ (List.mem_of_getLast? final)) (by decide) rfl
  chars char member := .inr (plain char member)

theorem numeral_decimal {width value : Nat} (wide : 0 < width) (fits : value < 10 ^ width) :
    Numeral (decimal width value) value := by
  have nonempty : decimal width value ≠ [] := by
    rw [← List.length_pos_iff, length_decimal]
    exact wide
  have read := Numeral.bare (.of_digits nonempty (decimal_digits width value))
  rwa [decimalValue_decimal fits] at read

/-- Plain digits are a numeral of no value but their own. -/
theorem numeral_digits {digits : Bytes} {value : Nat} (numeral : Numeral digits value)
    (plain : ∀ char ∈ digits, isDigit char) : digits = decimal digits.length value := by
  cases numeral with
  | bare groups => exact (decimal_decimalValue plain).symm
  | plus groups => exact absurd (plain 0x2b (by simp)) (by decide)
  | minus groups zero => exact absurd (plain 0x2d (by simp)) (by decide)

end Xrss.Zig
