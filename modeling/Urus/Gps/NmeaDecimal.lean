/-
This file models how decimal numbers are read from NMEA sentences, and proves for which texts the
hundredths are right.

The whole part is read by `strtol`, and the sign of the number is taken from it. A minus sign in
front of a zero whole part is lost, so that the decimals of such a number come out positive.
-/

import Mathlib.Tactic

namespace Urus.Gps.NmeaDecimal

/-! ### The code -/

/-- `isdigit`. -/
def isDigit (c : Char) : Bool := 48 ≤ c.toNat && c.toNat ≤ 57

/-- `isspace`. -/
def isSpace (c : Char) : Bool := c.toNat = 32 || 9 ≤ c.toNat && c.toNat ≤ 13

/-- `DIGIT_TO_VAL`. -/
def digitToVal (c : Char) : ℕ := c.toNat - 48

/-- The number that digits stand for. -/
def digitsValue (digits : List ℕ) : ℕ := digits.foldl (fun value digit => 10 * value + digit) 0

/-- The largest and the smallest `int32_t` and `long`. -/
def int32Max : ℤ := 2 ^ 31 - 1
def int32Min : ℤ := -2 ^ 31
def longMax : ℤ := 2 ^ 63 - 1
def longMin : ℤ := -2 ^ 63

/-- A number without its sign, and whether there is a minus sign. -/
def splitSign : List Char → Bool × List Char
  | '-' :: rest => (true, rest)
  | '+' :: rest => (false, rest)
  | rest => (false, rest)

/-- `strtol` with base 10: the number and what follows it. -/
def strtol (p : List Char) : ℤ × List Char :=
  let (minus, rest) := splitSign (p.dropWhile isSpace)
  let digits := rest.takeWhile isDigit
  if digits = [] then (0, p)
  else
    let value : ℤ := digitsValue (digits.map digitToVal)
    (max longMin (min longMax (if minus then -value else value)), rest.dropWhile isDigit)

/-- The decimals behind the point, added to the hundredths of the whole part. -/
def addDecimals (ret sign : ℤ) : List Char → ℤ
  | [] => ret
  | first :: rest =>
    if isDigit first then
      let ret := ret + sign * 10 * digitToVal first
      match rest with
      | [] => ret
      | second :: rest =>
        if isDigit second then
          let ret := ret + sign * digitToVal second
          match rest with
          | [] => ret
          | third :: _ =>
            if isDigit third then ret + sign * (if digitToVal third ≥ 5 then 1 else 0) else ret
        else ret
    else ret

/-- The conversion of a `long` to `int32_t`. -/
def toInt32 (value : ℤ) : ℤ := (value + 2 ^ 31) % 2 ^ 32 - 2 ^ 31

/-- `_parse_decimal_100`, while `100 * strtol(...)` does not go past a `long`. -/
def parseDecimal100 (p : List Char) : ℤ :=
  let (parsed, endptr) := strtol p
  let ret := 100 * parsed
  let sign : ℤ := if ret < 0 then -1 else 1
  if ret ≥ int32Max then int32Max
  else if ret ≤ int32Min then int32Min
  else
    match endptr with
    | '.' :: decimals => toInt32 (addDecimals ret sign decimals)
    | _ => toInt32 ret

/-! ### Decimal numbers -/

/-- The sign in front of a number. -/
inductive Sign
  | none
  | plus
  | minus
  deriving DecidableEq

/-- A sign as text. -/
def Sign.text : Sign → List Char
  | .none => []
  | .plus => ['+']
  | .minus => ['-']

/-- A digit as text. -/
def digitChar (digit : Fin 10) : Char := Char.ofNat (48 + digit)

/-- A decimal number: a sign or none, digits, and a point with digits behind it or none. -/
structure Decimal where
  sign : Sign
  whole : List (Fin 10)
  some_whole : whole ≠ []
  fraction : Option (List (Fin 10))

/-- The digits behind the point. -/
def Decimal.decimals (decimal : Decimal) : List (Fin 10) := decimal.fraction.getD []

/-- A decimal number as text. -/
def Decimal.text (decimal : Decimal) : List Char :=
  decimal.sign.text ++ (decimal.whole.map digitChar ++
    decimal.fraction.elim [] fun digits => '.' :: digits.map digitChar)

/-- A number with the sign of the text. -/
def Decimal.signed (decimal : Decimal) (value : ℤ) : ℤ :=
  if decimal.sign = .minus then -value else value

/-- The whole part. -/
def Decimal.wholeValue (decimal : Decimal) : ℕ := digitsValue (decimal.whole.map Fin.val)

/-- All digits as one number, that is the value times a power of ten. -/
def Decimal.allDigits (decimal : Decimal) : ℕ :=
  digitsValue ((decimal.whole ++ decimal.decimals).map Fin.val)

/-- A hundred times the value lies strictly between the limits of `int32_t`. -/
def Decimal.Fits (decimal : Decimal) : Prop :=
  int32Min * 10 ^ decimal.decimals.length < decimal.signed decimal.allDigits * 100 ∧
    decimal.signed decimal.allDigits * 100 < int32Max * 10 ^ decimal.decimals.length

/-- The hundredths that two decimals stand for, and one more if the third one is at least 5. -/
def roundedDecimals (decimals : List (Fin 10)) : ℕ :=
  10 * (decimals.getD 0 0).val + (decimals.getD 1 0).val +
    if 5 ≤ (decimals.getD 2 0).val then 1 else 0

/-- The value times a hundred, truncated behind the second decimal and rounded away from zero by the
third one. -/
def Decimal.hundredths (decimal : Decimal) : ℤ :=
  decimal.signed (100 * decimal.wholeValue + roundedDecimals decimal.decimals)

/-- A minus sign with nothing but zeros before the point, and hundredths behind it. -/
def Decimal.LosesSign (decimal : Decimal) : Prop :=
  decimal.sign = .minus ∧ decimal.wholeValue = 0 ∧ roundedDecimals decimal.decimals ≠ 0

/-! ### Reading a text -/

theorem isDigit_digitChar : ∀ digit, isDigit (digitChar digit) = true := by decide

theorem digitToVal_digitChar : ∀ digit, digitToVal (digitChar digit) = digit.val := by decide

theorem not_isSpace_digitChar : ∀ digit, isSpace (digitChar digit) = false := by decide

theorem splitSign_digitChar (digit : Fin 10) (rest : List Char) :
    splitSign (digitChar digit :: rest) = (false, digitChar digit :: rest) := by
  have notMinus : digitChar digit ≠ '-' := by revert digit; decide
  have notPlus : digitChar digit ≠ '+' := by revert digit; decide
  unfold splitSign
  split
  case h_1 same => exact absurd (List.cons.inj same).1 notMinus
  case h_2 same => exact absurd (List.cons.inj same).1 notPlus
  case h_3 => rfl

/-- The digits in front of a text that does not go on with a digit. -/
theorem span_digits (digits : List (Fin 10)) {rest : List Char}
    (stops : ∀ c ∈ rest.head?, isDigit c = false) :
    (digits.map digitChar ++ rest).takeWhile isDigit = digits.map digitChar ∧
      (digits.map digitChar ++ rest).dropWhile isDigit = rest := by
  have all : ∀ c ∈ digits.map digitChar, isDigit c = true := by
    intro c member
    obtain ⟨digit, -, rfl⟩ := List.mem_map.mp member
    exact isDigit_digitChar digit
  rw [List.takeWhile_append_of_pos all, List.dropWhile_append_of_pos all]
  cases rest with
  | nil => exact ⟨List.append_nil _, rfl⟩
  | cons c rest =>
    have stop : isDigit c = false := stops c rfl
    rw [List.takeWhile_cons_of_neg (by simp [stop]), List.dropWhile_cons_of_neg (by simp [stop])]
    exact ⟨List.append_nil _, rfl⟩

theorem splitSign_text (decimal : Decimal) :
    splitSign (decimal.text.dropWhile isSpace) =
      (decide (decimal.sign = .minus), decimal.whole.map digitChar ++
        decimal.fraction.elim [] fun digits => '.' :: digits.map digitChar) := by
  obtain ⟨sign, whole, some_whole, fraction⟩ := decimal
  obtain ⟨digit, rest, rfl⟩ := List.exists_cons_of_ne_nil some_whole
  unfold Decimal.text
  cases sign with
  | none =>
    change splitSign (List.dropWhile isSpace (digitChar digit :: _)) = _
    rw [List.dropWhile_cons_of_neg (by simp [not_isSpace_digitChar]), splitSign_digitChar]
    rfl
  | plus => rfl
  | minus => rfl

theorem map_digitToVal (digits : List (Fin 10)) :
    (digits.map digitChar).map digitToVal = digits.map Fin.val := by
  rw [List.map_map]
  exact List.map_congr_left fun digit _ => digitToVal_digitChar digit

theorem strtol_text (decimal : Decimal) (small : (decimal.wholeValue : ℤ) ≤ longMax) :
    strtol decimal.text =
      (decimal.signed decimal.wholeValue,
        decimal.fraction.elim [] fun digits => '.' :: digits.map digitChar) := by
  have stops : ∀ c ∈ (decimal.fraction.elim [] fun digits => '.' :: digits.map digitChar).head?,
      isDigit c = false := by
    cases decimal.fraction with
    | none => exact fun _ member => nomatch member
    | some digits =>
      intro c member
      cases member
      rfl
  obtain ⟨taken, dropped⟩ := span_digits decimal.whole stops
  have some_digits : decimal.whole.map digitChar ≠ [] := by
    rw [Ne, List.map_eq_nil_iff]
    exact decimal.some_whole
  unfold strtol
  rw [splitSign_text]
  dsimp only
  rw [taken, dropped, if_neg some_digits, map_digitToVal]
  change (max longMin (min longMax
    (if decide (decimal.sign = .minus) = true then -(decimal.wholeValue : ℤ)
      else decimal.wholeValue)), _) = _
  unfold Decimal.signed longMin
  unfold longMax at small ⊢
  refine Prod.ext ?_ rfl
  by_cases minus : decimal.sign = .minus
  · simp only [minus, decide_true, if_true]
    omega
  · simp only [minus, decide_false, if_false, Bool.false_eq_true]
    omega

theorem addDecimals_digits (ret sign : ℤ) (decimals : List (Fin 10)) :
    addDecimals ret sign (decimals.map digitChar) = ret + sign * roundedDecimals decimals := by
  have five : ∀ digit : Fin 10, (if digitToVal (digitChar digit) ≥ 5 then (1 : ℤ) else 0) =
      ((if 5 ≤ digit.val then 1 else 0 : ℕ) : ℤ) := by decide
  match decimals with
  | [] =>
    rw [List.map_nil, addDecimals]
    change ret = ret + sign * (0 : ℕ)
    ring
  | [first] =>
    rw [List.map_cons, List.map_nil, addDecimals, if_pos (isDigit_digitChar first)]
    dsimp only
    rw [digitToVal_digitChar]
    change _ = ret + sign * (10 * first.val + 0 + 0 : ℕ)
    push_cast
    ring
  | [first, second] =>
    rw [List.map_cons, List.map_cons, List.map_nil, addDecimals,
      if_pos (isDigit_digitChar first)]
    dsimp only
    rw [if_pos (isDigit_digitChar second), digitToVal_digitChar, digitToVal_digitChar]
    change _ = ret + sign * (10 * first.val + second.val + 0 : ℕ)
    push_cast
    ring
  | first :: second :: third :: rest =>
    rw [List.map_cons, List.map_cons, List.map_cons, addDecimals,
      if_pos (isDigit_digitChar first)]
    dsimp only
    rw [if_pos (isDigit_digitChar second), if_pos (isDigit_digitChar third), five,
      digitToVal_digitChar, digitToVal_digitChar]
    change _ = ret + sign *
      (10 * first.val + second.val + (if 5 ≤ third.val then 1 else 0) : ℕ)
    rw [Nat.cast_add, Nat.cast_add, Nat.cast_mul]
    push_cast
    ring

/-! ### Limits -/

theorem digitsValue_append_singleton (digits : List ℕ) (digit : ℕ) :
    digitsValue (digits ++ [digit]) = 10 * digitsValue digits + digit := by
  rw [digitsValue, List.foldl_append]
  rfl

/-- Digits behind others make a number at least as large as zeros would. -/
theorem le_digitsValue_append (first second : List ℕ) :
    digitsValue first * 10 ^ second.length ≤ digitsValue (first ++ second) := by
  induction second using List.reverseRecOn with
  | nil => rw [List.length_nil, pow_zero, mul_one, List.append_nil]
  | append_singleton second digit inductionHypothesis =>
    rw [← List.append_assoc, digitsValue_append_singleton, List.length_append,
      List.length_singleton, pow_succ, ← mul_assoc]
    omega

/-- The hundredths without rounding are not more than a hundred times the value. -/
theorem Decimal.truncated_le (decimal : Decimal) :
    (100 * decimal.wholeValue + 10 * (decimal.decimals.getD 0 0).val +
        (decimal.decimals.getD 1 0).val) * 10 ^ decimal.decimals.length ≤
      decimal.allDigits * 100 := by
  unfold Decimal.allDigits
  rw [List.map_append]
  change (100 * digitsValue (decimal.whole.map Fin.val) + _ + _) * _ ≤ _
  generalize decimal.whole.map Fin.val = whole
  match decimal.decimals with
  | [] =>
    change (100 * digitsValue whole + 10 * 0 + 0) * 10 ^ 0 ≤ digitsValue (whole ++ []) * 100
    rw [List.append_nil]
    omega
  | [first] =>
    change (100 * digitsValue whole + 10 * first.val + 0) * 10 ^ 1 ≤
      digitsValue (whole ++ [first.val]) * 100
    rw [digitsValue_append_singleton]
    omega
  | first :: second :: rest =>
    have bound := le_digitsValue_append (whole ++ [first.val] ++ [second.val]) (rest.map Fin.val)
    rw [digitsValue_append_singleton, digitsValue_append_singleton, List.length_map,
      List.append_assoc, List.append_assoc] at bound
    change (100 * digitsValue whole + 10 * first.val + second.val) * 10 ^ (rest.length + 2) ≤
      digitsValue (whole ++ ([first.val] ++ ([second.val] ++ rest.map Fin.val))) * 100
    calc (100 * digitsValue whole + 10 * first.val + second.val) * 10 ^ (rest.length + 2)
        = (10 * (10 * digitsValue whole + first.val) + second.val) * 10 ^ rest.length * 100 := by
          ring
      _ ≤ _ := Nat.mul_le_mul_right 100 bound

/-- A number that fits is read without reaching a limit. -/
theorem Decimal.Fits.truncated {decimal : Decimal} (fits : decimal.Fits) :
    100 * decimal.wholeValue + 10 * (decimal.decimals.getD 0 0).val +
      (decimal.decimals.getD 1 0).val < 2 ^ 31 ∧
    (decimal.sign ≠ .minus → 100 * decimal.wholeValue + 10 * (decimal.decimals.getD 0 0).val +
      (decimal.decimals.getD 1 0).val < 2 ^ 31 - 1) := by
  obtain ⟨low, high⟩ := fits
  have bound := decimal.truncated_le
  set truncated := 100 * decimal.wholeValue + 10 * (decimal.decimals.getD 0 0).val +
    (decimal.decimals.getD 1 0).val
  have scaled : ∀ limit : ℕ, decimal.allDigits * 100 < limit * 10 ^ decimal.decimals.length →
      truncated < limit := fun limit below =>
    lt_of_mul_lt_mul_right (lt_of_le_of_lt bound below) (Nat.zero_le _)
  unfold Decimal.signed int32Min int32Max at *
  by_cases minus : decimal.sign = .minus
  · rw [if_pos minus] at low
    refine ⟨scaled (2 ^ 31) ?_, fun notMinus => absurd minus notMinus⟩
    zify
    linarith
  · rw [if_neg minus] at high
    have limit : (2 ^ 31 - 1 : ℤ) = (2147483647 : ℕ) := by norm_num
    rw [limit] at high
    have below : truncated < 2147483647 := scaled 2147483647 (by exact_mod_cast high)
    exact ⟨by omega, fun _ => by omega⟩

theorem roundedDecimals_le (decimals : List (Fin 10)) :
    10 * (decimals.getD 0 0).val + (decimals.getD 1 0).val ≤ roundedDecimals decimals ∧
      roundedDecimals decimals ≤ 10 * (decimals.getD 0 0).val + (decimals.getD 1 0).val + 1 := by
  unfold roundedDecimals
  split <;> omega

theorem toInt32_of_range {value : ℤ} (low : -2 ^ 31 ≤ value) (high : value < 2 ^ 31) :
    toInt32 value = value := by
  unfold toInt32
  rw [Int.emod_eq_of_lt (by omega) (by omega)]
  omega

/-! ### What is read -/

theorem parseDecimal100_text {decimal : Decimal} (fits : decimal.Fits) :
    parseDecimal100 decimal.text =
      decimal.signed (100 * decimal.wholeValue) +
        (if decimal.signed (100 * decimal.wholeValue) < 0 then -1 else 1) *
          roundedDecimals decimal.decimals := by
  obtain ⟨below, belowMax⟩ := fits.truncated
  obtain ⟨-, rounded⟩ := roundedDecimals_le decimal.decimals
  have product : 100 * decimal.signed decimal.wholeValue =
      decimal.signed (100 * decimal.wholeValue) := by
    unfold Decimal.signed
    split <;> ring
  have range : -2 ^ 31 < decimal.signed (100 * decimal.wholeValue) ∧
      decimal.signed (100 * decimal.wholeValue) < 2 ^ 31 - 1 := by
    unfold Decimal.signed
    by_cases minus : decimal.sign = .minus
    · rw [if_pos minus]
      omega
    · rw [if_neg minus]
      have less := belowMax minus
      omega
  have total : -2 ^ 31 ≤ decimal.signed (100 * decimal.wholeValue) +
        (if decimal.signed (100 * decimal.wholeValue) < 0 then -1 else 1) *
          roundedDecimals decimal.decimals ∧
      decimal.signed (100 * decimal.wholeValue) +
        (if decimal.signed (100 * decimal.wholeValue) < 0 then -1 else 1) *
          roundedDecimals decimal.decimals < 2 ^ 31 := by
    unfold Decimal.signed
    by_cases minus : decimal.sign = .minus
    · rw [if_pos minus]
      split <;> omega
    · rw [if_neg minus, if_neg (by omega)]
      have less := belowMax minus
      omega
  unfold parseDecimal100
  rw [strtol_text decimal (by unfold longMax; omega)]
  dsimp only
  rw [product, if_neg (by unfold int32Max; omega), if_neg (by unfold int32Min; omega)]
  cases fraction : decimal.fraction with
  | none =>
    have none : decimal.decimals = [] := by rw [Decimal.decimals, fraction, Option.getD_none]
    rw [none] at total ⊢
    change toInt32 _ = _ + _ * ((0 : ℕ) : ℤ)
    rw [Nat.cast_zero, mul_zero, add_zero]
    exact toInt32_of_range (by omega) (by omega)
  | some digits =>
    have some : decimal.decimals = digits := by rw [Decimal.decimals, fraction, Option.getD_some]
    rw [some] at total ⊢
    change toInt32 (addDecimals _ _ (digits.map digitChar)) = _
    rw [addDecimals_digits]
    exact toInt32_of_range total.1 total.2

/-- For every decimal number that fits, the hundredths are right exactly if no sign is lost. -/
theorem parseDecimal100_iff (decimal : Decimal) (fits : decimal.Fits) :
    parseDecimal100 decimal.text = decimal.hundredths ↔ ¬decimal.LosesSign := by
  rw [parseDecimal100_text fits]
  unfold Decimal.hundredths Decimal.LosesSign Decimal.signed
  by_cases minus : decimal.sign = .minus
  · rw [if_pos minus, if_pos minus]
    by_cases zero : decimal.wholeValue = 0
    · rw [if_neg (by omega)]
      simp only [minus, zero, true_and]
      omega
    · rw [if_pos (by omega)]
      simp only [zero, false_and, and_false, not_false_eq_true, iff_true]
      ring
  · rw [if_neg minus, if_neg minus, if_neg (by omega)]
    simp only [minus, false_and, not_false_eq_true, iff_true]
    ring

/-- Minus one and six thousandths. -/
def minusOne : Decimal := ⟨.minus, [1], by decide, some [0, 0, 6]⟩

theorem parseDecimal100_iff_minusOne :
    parseDecimal100 minusOne.text = minusOne.hundredths ↔ ¬minusOne.LosesSign :=
  parseDecimal100_iff minusOne
    ⟨(by decide : int32Min * 10 ^ 3 < -1006 * 100), (by decide : -1006 * 100 < int32Max * 10 ^ 3)⟩

/-- Minus a half. -/
def minusHalf : Decimal := ⟨.minus, [0], by decide, some [5]⟩

/-- Minus a half is read as a half. -/
theorem minusHalf_read :
    minusHalf.Fits ∧ minusHalf.text = ['-', '0', '.', '5'] ∧ minusHalf.hundredths = -50 ∧
      parseDecimal100 minusHalf.text = 50 :=
  ⟨⟨(by decide : int32Min * 10 ^ 1 < -5 * 100), (by decide : -5 * 100 < int32Max * 10 ^ 1)⟩,
    by decide⟩

end Urus.Gps.NmeaDecimal
