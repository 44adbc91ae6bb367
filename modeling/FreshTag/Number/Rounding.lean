/-
FreshTag/Number/Rounding.lean

Rounding an exact quotient to a whole number.  `roundDiv tie num den` is the
whole number nearest to `num / den`; an exact half goes where `tie` says.

Main statements: the result is within half a unit of the quotient
(`roundDiv_near`), and whole quotients are kept (`roundDiv_mul`).
-/

namespace FreshTag.Number

/-- Where an exact half is rounded to. -/
inductive Tie where
  /-- to the even neighbour -/
  | toEven
  /-- to the greater neighbour -/
  | up
  deriving DecidableEq, Repr

/-- The whole number nearest to `num / den`. -/
def roundDiv (tie : Tie) (num den : Nat) : Nat :=
  let low := num / den
  let rest := num % den
  if 2 * rest < den then low
  else if den < 2 * rest then low + 1
  else match tie with
    | .toEven => low + low % 2
    | .up => low + 1

theorem roundDiv_near (tie : Tie) (num : Nat) {den : Nat} (h : 0 < den) :
    2 * num ≤ 2 * (roundDiv tie num den * den) + den ∧
      2 * (roundDiv tie num den * den) ≤ 2 * num + den := by
  have hm := Nat.div_add_mod num den
  have hlt := Nat.mod_lt num h
  rw [Nat.mul_comm] at hm
  simp only [roundDiv]
  generalize num / den = low at hm ⊢
  generalize num % den = rest at hm hlt ⊢
  have hone : (low + 1) * den = low * den + den := by rw [Nat.add_mul, Nat.one_mul]
  by_cases h₁ : 2 * rest < den
  · simp only [h₁, if_true]; omega
  · by_cases h₂ : den < 2 * rest
    · simp only [h₁, h₂, if_true, if_false]; omega
    · cases tie
      · rcases Nat.mod_two_eq_zero_or_one low with he | he
        · simp only [h₁, h₂, he, if_false, Nat.add_zero]; omega
        · simp only [h₁, h₂, he, if_false]; omega
      · simp only [h₁, h₂, if_false]; omega

theorem roundDiv_mul (tie : Tie) (n : Nat) {den : Nat} (h : 0 < den) :
    roundDiv tie (n * den) den = n := by
  simp [roundDiv, Nat.mul_div_cancel n h, h]

end FreshTag.Number
