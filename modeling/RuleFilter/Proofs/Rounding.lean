import RuleFilter.Binary64.Layout
import RuleFilter.Proofs.Numerals
import Mathlib.Data.Nat.Log

/-! # Doubles of large integers

Integers from `2 ^ 63` to `2 ^ 64 - 1` become doubles 2048 apart: which one is told by the number of
steps to which the integer is rounded (`ofInt_eq_iff`). The text of such a double has at most
seventeen digits before its zeros, so it ends in two of them (`write_plain_ofInt`). -/

namespace RuleFilter.Binary64

/-! ### Steps -/

/-- An integer beyond the signed 64-bit range but within the unsigned one. -/
structure Wide (n : Int) : Prop where
  low : 0x8000000000000000 ≤ n
  high : n ≤ 0xFFFFFFFFFFFFFFFF

/-- The number of steps of 2048 nearest to an integer. -/
def steps (n : Int) : Nat :=
  roundedQuotient n.natAbs 2048

theorem roundedQuotient_bounds (num den : Nat) :
    num / den ≤ roundedQuotient num den ∧ roundedQuotient num den ≤ num / den + 1 := by
  unfold roundedQuotient
  simp only
  split <;> omega

variable {n m : Int}

theorem steps_bounds (h : Wide n) :
    0x10000000000000 ≤ steps n ∧ steps n ≤ 0x20000000000000 := by
  have hbounds := roundedQuotient_bounds n.natAbs 2048
  have hlow := h.low
  have hhigh := h.high
  unfold steps
  omega

theorem binaryExponent_wide (h : Wide n) : binaryExponent n.natAbs 1 = 63 := by
  have hlow := h.low
  have hhigh := h.high
  have hlog : n.natAbs.log2 = 63 := (Nat.log2_eq_iff (by omega)).mpr ⟨by omega, by omega⟩
  unfold binaryExponent
  simp only
  rw [hlog]
  refine if_pos ?_
  show 1 * 0x8000000000000000 ≤ n.natAbs * 1
  omega

theorem nearestMagnitude_wide (h : Wide n) :
    nearestMagnitude n.natAbs 1 = 1085 * 0x10000000000000 + steps n := by
  have hlow := h.low
  have hsteps := steps_bounds h
  unfold nearestMagnitude
  rw [if_neg (by omega), binaryExponent_wide h]
  show min (1085 * 0x10000000000000 + roundedQuotient (n.natAbs * 1) 2048)
    (0x7FF * 0x10000000000000) = _
  rw [Nat.mul_one]
  change min (_ + steps n) _ = _
  omega

theorem toNat_bits_ofInt (h : Wide n) :
    (ofInt n).bits.toNat = 1085 * 0x10000000000000 + steps n := by
  have hlow := h.low
  have hsteps := steps_bounds h
  unfold ofInt ofMagnitude
  rw [decide_eq_false (by omega), nearestMagnitude_wide h]
  simp only [Bool.false_eq_true, if_false, Nat.add_zero]
  exact UInt64.toNat_ofNat_of_lt' (show _ < 0x10000000000000000 by omega)

/-- **Two of them become the same double iff they are rounded to the same number of steps.** -/
theorem ofInt_eq_iff (hn : Wide n) (hm : Wide m) : ofInt n = ofInt m ↔ steps n = steps m := by
  constructor
  · intro h
    have hbits := toNat_bits_ofInt hn
    rw [h, toNat_bits_ofInt hm] at hbits
    omega
  · intro h
    have hbits : (ofInt n).bits = (ofInt m).bits := by
      rw [← UInt64.toNat_inj, toNat_bits_ofInt hn, toNat_bits_ofInt hm, h]
    calc ofInt n = ⟨(ofInt n).bits⟩ := rfl
      _ = ⟨(ofInt m).bits⟩ := by rw [hbits]
      _ = ofInt m := rfl

/-! ### Fields -/

theorem magnitude_ofInt (h : Wide n) :
    (ofInt n).magnitude = 1085 * 0x10000000000000 + steps n := by
  have hsteps := steps_bounds h
  unfold magnitude
  rw [toNat_bits_ofInt h]
  exact Nat.mod_eq_of_lt (show _ < 0x8000000000000000 by omega)

theorem isNegative_ofInt (h : Wide n) : (ofInt n).isNegative = false := by
  have hsteps := steps_bounds h
  unfold isNegative
  rw [toNat_bits_ofInt h]
  exact decide_eq_false (show ¬ 0x8000000000000000 ≤ _ by omega)

theorem isFinite_ofInt (h : Wide n) : (ofInt n).isFinite = true := by
  have hsteps := steps_bounds h
  unfold isFinite
  rw [magnitude_ofInt h]
  exact decide_eq_true (show _ < 0x7FF * 0x10000000000000 by omega)

theorem exponentField_ofInt (h : Wide n) :
    (ofInt n).exponentField = (1085 * 0x10000000000000 + steps n) / 0x10000000000000 := by
  unfold exponentField
  rw [magnitude_ofInt h]

theorem fractionField_ofInt (h : Wide n) :
    (ofInt n).fractionField = (1085 * 0x10000000000000 + steps n) % 0x10000000000000 := by
  unfold fractionField
  rw [magnitude_ofInt h]

/-- The exponent makes the significand count steps, but the last number of steps is a power of two
with the next exponent. -/
theorem significand_ofInt (h : Wide n) :
    (steps n < 0x20000000000000 ∧ (ofInt n).significand = steps n ∧ (ofInt n).exponent = 11) ∨
      (steps n = 0x20000000000000 ∧ (ofInt n).significand = 0x10000000000000 ∧
        (ofInt n).exponent = 12) := by
  have hsteps := steps_bounds h
  unfold significand exponent
  rw [exponentField_ofInt h, fractionField_ofInt h, if_neg (by omega)]
  show (_ ∧ 0x10000000000000 + _ = _ ∧ _) ∨ (_ ∧ 0x10000000000000 + _ = _ ∧ _)
  omega

/-! ### Digits -/

/-- The reals that round to `v`, for a double `v` that a wide integer becomes. Seventeen digits of
`v` are always among them. -/
structure WideRange (r : RoundingRange) (v : Nat) : Prop where
  den : r.den = 4
  mid : r.mid = 4 * v
  above : r.mid < r.high
  below : r.low + 400 ≤ r.mid
  belowLong : 10000000000000000000 ≤ v → r.low + 4000 ≤ r.mid
  low : 1000000000000000000 ≤ v
  high : v < 100000000000000000000

theorem wideRange_ofInt (h : Wide n) :
    WideRange (ofInt n).roundingRange (steps n * 2048) := by
  have hsteps := steps_bounds h
  unfold roundingRange
  rw [exponentField_ofInt h, fractionField_ofInt h]
  rcases significand_ofInt h with ⟨hfirst, hs, he⟩ | ⟨hlast, hs, he⟩
  · rw [hs, he]
    refine ⟨rfl, ?_, ?_, ?_, fun hlong => ?_, by omega, by omega⟩
    · show 4 * steps n * 2048 = _
      omega
    · show 4 * steps n * 2048 < (4 * steps n + 2) * 2048
      omega
    · show (4 * steps n - ite _ 1 2) * 2048 + 400 ≤ 4 * steps n * 2048
      split_ifs <;> omega
    -- the lower neighbour is near only below the power of two, which has nineteen digits
    · show (4 * steps n - ite _ 1 2) * 2048 + 4000 ≤ 4 * steps n * 2048
      split_ifs <;> omega
  -- the other power of two has twenty, but its neighbours lie twice as far apart
  · rw [hs, he, hlast]
    exact ⟨rfl, rfl, by decide, by decide, fun _ => by decide, by decide, by decide⟩

/-- The decimal below a double rounds to the double, if the last digits that it leaves out are few
enough. -/
theorem contains_floor {r : RoundingRange} {k : Nat} (hden : 0 < r.den)
    (hlow : r.low + r.den * Nat.pow 10 k ≤ r.mid) (hhigh : r.mid < r.high) :
    r.contains (r.mid * Nat.pow 10 (-(k : Int)).toNat / (r.den * Nat.pow 10 (k : Int).toNat)) k =
      true := by
  have hscale : (-(k : Int)).toNat = 0 := by omega
  have hpos : 0 < r.den * Nat.pow 10 k := Nat.mul_pos hden (Nat.pow_pos (by decide))
  have hle := Nat.div_mul_le_self r.mid (r.den * Nat.pow 10 k)
  have hlt := Nat.lt_div_mul_add (a := r.mid) hpos
  have hpoint : r.mid / (r.den * Nat.pow 10 k) * Nat.pow 10 k * r.den =
      r.mid / (r.den * Nat.pow 10 k) * (r.den * Nat.pow 10 k) := by
    rw [Nat.mul_assoc, Nat.mul_comm (Nat.pow 10 k)]
  unfold RoundingRange.contains
  rw [hscale, Int.toNat_natCast]
  change (if r.closed = true then
    decide (r.low * 1 ≤ r.mid * 1 / _ * _ * r.den) &&
      decide (r.mid * 1 / _ * _ * r.den ≤ r.high * 1)
    else decide (r.low * 1 < r.mid * 1 / _ * _ * r.den) &&
      decide (r.mid * 1 / _ * _ * r.den < r.high * 1)) = true
  simp only [Nat.mul_one, hpoint]
  split_ifs
  · simp only [Bool.and_eq_true, decide_eq_true_eq]
    omega
  · simp only [Bool.and_eq_true, decide_eq_true_eq]
    omega

theorem neighbour?_ne_none {r : RoundingRange} {tie : Tie} {scale : Int}
    (h : r.contains (r.mid * Nat.pow 10 (-scale).toNat / (r.den * Nat.pow 10 scale.toNat)) scale =
      true) : r.neighbour? tie scale ≠ none := by
  unfold RoundingRange.neighbour?
  simp only
  rw [h]
  generalize r.contains (_ + 1) scale = upper
  cases upper with
  | false => exact Option.some_ne_none _
  | true =>
    simp only
    split <;> exact Option.some_ne_none _

/-- A decimal is found on the grid that was asked for, and it rounds to the number. -/
theorem eq_of_neighbour? {r : RoundingRange} {tie : Tie} {scale : Int} {d : Decimal}
    (h : r.neighbour? tie scale = some d) :
    d.scale = scale ∧ r.contains d.digits scale = true := by
  unfold RoundingRange.neighbour? at h
  simp only at h
  split at h
  case h_1 => cases h
  case h_2 hlower _ =>
    cases h
    exact ⟨rfl, hlower⟩
  case h_3 _ hupper =>
    cases h
    exact ⟨rfl, hupper⟩
  case h_4 hlower hupper =>
    split at h
    · cases h
      exact ⟨rfl, hlower⟩
    · cases h
      exact ⟨rfl, hupper⟩
    · cases h
      exact ⟨rfl, hupper⟩
    · split_ifs at h
      · cases h
        exact ⟨rfl, hlower⟩
      · cases h
        exact ⟨rfl, hupper⟩

/-- The point of a number with nineteen or twenty digits. -/
theorem WideRange.pointPosition {r : RoundingRange} {v : Nat} (h : WideRange r v) :
    r.pointPosition = 19 ∨ (r.pointPosition = 20 ∧ 10000000000000000000 ≤ v) := by
  have hden := h.den
  have hmid := h.mid
  have hlow := h.low
  have hhigh := h.high
  have hquot : r.mid / r.den = v := by
    rw [hmid, hden]
    exact Nat.mul_div_cancel_left v (by decide)
  have hlength := fun k (hk : 0 < k) =>
    Nat.length_toDigits_le_iff (b := 10) (n := v) (k := k) (by decide) hk
  have hshort := hlength 18 (by decide)
  have hmiddle := hlength 19 (by decide)
  have hlong := hlength 20 (by decide)
  unfold RoundingRange.pointPosition
  rw [if_pos (by omega), hquot]
  omega

/-- **The shortest decimal of a double that a wide integer becomes has its last digit in front of
two others**, at least. -/
theorem two_le_scale {x : Binary64} {v : Nat} (h : WideRange x.roundingRange v) (tie : Tie) :
    2 ≤ (x.shortestDecimal tie).scale := by
  have hden := h.den
  have hbelow := h.below
  have hposition : 19 ≤ x.roundingRange.pointPosition := by
    rcases h.pointPosition with h | h <;> omega
  have hcontains : x.roundingRange.neighbour? tie (x.roundingRange.pointPosition - (16 + 1)) ≠
      none := by
    rcases h.pointPosition with hp | ⟨hp, hv⟩
    · rw [hp]
      exact neighbour?_ne_none (contains_floor (k := 2) (by omega) (by rw [hden]; exact hbelow)
        h.above)
    · rw [hp]
      exact neighbour?_ne_none (contains_floor (k := 3) (by omega)
        (by rw [hden]; exact h.belowLong hv) h.above)
  unfold shortestDecimal
  simp only
  cases hfind : (List.range 17).findSome? fun (k : Nat) =>
      x.roundingRange.neighbour? tie (x.roundingRange.pointPosition - (k + 1)) with
  | none =>
    exact absurd (List.findSome?_eq_none_iff.mp hfind 16 (by decide)) hcontains
  | some d =>
    obtain ⟨k, hk, hd⟩ := List.exists_of_findSome?_eq_some hfind
    have hscale := (eq_of_neighbour? hd).1
    rw [List.mem_range] at hk
    rw [Option.getD_some, hscale]
    omega

/-! ### Texts -/

theorem Decimal.point_toDigits {d : Decimal} (h : 2 ≤ d.scale) :
    d.toDigits.digits.length + 2 ≤ d.toDigits.point := by
  have hlength : ((Nat.toDigits 10 d.digits).reverse.dropWhile (· == '0')).length ≤
      (Nat.toDigits 10 d.digits).length := by
    have hsublist := (List.dropWhile_sublist (l := (Nat.toDigits 10 d.digits).reverse)
      (· == '0')).length_le
    rwa [List.length_reverse] at hsublist
  unfold Decimal.toDigits
  simp only
  rw [List.length_reverse]
  omega

/-- Positional digits whose point lies at least two places behind them end in two zeros. -/
theorem Digits.positional_of_le {d : Digits} (h : d.digits.length + 2 ≤ d.point) :
    ∃ front, d.positional [] = front ++ ['0', '0'] := by
  obtain ⟨k, hk⟩ : ∃ k, (d.point - d.digits.length).toNat = k + 2 :=
    ⟨(d.point - d.digits.length).toNat - 2, by omega⟩
  refine ⟨d.digits ++ List.replicate k '0', ?_⟩
  unfold Digits.positional
  simp only
  rw [if_neg (by omega), if_pos (by omega), hk, List.append_nil, List.append_assoc,
    ← List.replicate_append_replicate]
  rfl

/-- **The text of a double that a wide integer becomes ends in two zeros.** -/
theorem write_plain_ofInt (h : Wide n) : ∃ front, plain.write (ofInt n) = front ++ ['0', '0'] := by
  have hsteps := steps_bounds h
  have hsignificand : (ofInt n).significand ≠ 0 := by
    rcases significand_ofInt h with ⟨-, hs, -⟩ | ⟨-, hs, -⟩ <;> omega
  unfold Layout.write
  rw [isNaN_of_isFinite (isFinite_ofInt h), isNegative_ofInt h, isFinite_ofInt h]
  unfold shortestDigits
  simp only [Bool.false_eq_true, if_false, Bool.not_true, List.nil_append]
  rw [if_neg hsignificand]
  exact Digits.positional_of_le (Decimal.point_toDigits (two_le_scale (wideRange_ofInt h) _))

/-- An integer whose text ends in two zeros is a multiple of a hundred. -/
theorem dvd_of_toDigits {k : Nat} {front : List Char}
    (h : Nat.toDigits 10 k = front ++ ['0', '0']) : 100 ∣ k := by
  have hvalue : k = Nat.ofDigitChars 10 (front ++ ['0', '0']) 0 := by
    rw [← h, Nat.ofDigitChars_ten_toDigits]
  rw [Nat.ofDigitChars_append] at hvalue
  generalize Nat.ofDigitChars 10 front 0 = head at hvalue
  change k = 10 * (10 * head + 0) + 0 at hvalue
  omega

end RuleFilter.Binary64
