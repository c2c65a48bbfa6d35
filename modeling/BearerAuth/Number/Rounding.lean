/-!
# Rounding a quotient

`nearestEven` rounds a quotient of natural numbers to the nearest natural number, a half to the even
neighbour.

* `nearestEven_le`, `le_nearestEven` : the result is within half a unit of the quotient.
-/

namespace BearerAuth.Number

/-- The natural number nearest to `num / den`; of two equally near ones, the even one. -/
def nearestEven (num den : Nat) : Nat :=
  let q := num / den
  let r := num % den
  if den < 2 * r || (2 * r == den && q % 2 == 1) then q + 1 else q

theorem nearestEven_mul_left (q den : Nat) (h : 0 < den) : nearestEven (q * den) den = q := by
  simp [nearestEven, Nat.mul_div_cancel _ h, Nat.ne_of_lt h]

theorem nearestEven_le (num den : Nat) (h : 0 < den) :
    2 * (nearestEven num den * den) ≤ 2 * num + den := by
  have hq := Nat.div_add_mod num den
  have hr := Nat.mod_lt num h
  have hc : num / den * den = den * (num / den) := Nat.mul_comm _ _
  unfold nearestEven
  simp only
  split
  · rename_i hs
    rw [Nat.add_mul]
    simp at hs
    omega
  · omega

theorem le_nearestEven (num den : Nat) (h : 0 < den) :
    2 * num ≤ 2 * (nearestEven num den * den) + den := by
  have hq := Nat.div_add_mod num den
  have hr := Nat.mod_lt num h
  have hc : num / den * den = den * (num / den) := Nat.mul_comm _ _
  unfold nearestEven
  simp only
  split
  · rw [Nat.add_mul]
    omega
  · rename_i hs
    simp at hs
    omega

end BearerAuth.Number
