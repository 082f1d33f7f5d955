/-
  Rounding a quotient to the nearest number, a tie going to the even one.

  * `nearest a b`: the whole number nearest to `a / b`;
  * `roundUnits a b`: the whole number of units nearest to `a / b` among those
    with 53 significant bits; it is a magnitude unless it is too large
    (`isMagnitude_roundUnits`);
  * `Number.ofQuotient s a b`: the number with sign `s` nearest to `a / b`
    units, an infinity beyond the largest magnitude.
-/
import GotoBasic.Number.Basic

namespace GotoBasic

/-- The whole number nearest to `a / b`, the even one if two are. -/
def nearest (a b : Nat) : Nat :=
  if 2 * (a % b) < b ∨ (2 * (a % b) = b ∧ a / b % 2 = 0) then a / b else a / b + 1

theorem div_le_nearest (a b : Nat) : a / b ≤ nearest a b := by
  unfold nearest; split <;> omega

theorem nearest_le (a b : Nat) : nearest a b ≤ a / b + 1 := by
  unfold nearest; split <;> omega

/-- The numbers around `n` units lie `2 ^ spacing n` units apart. -/
def spacing (n : Nat) : Nat := n.log2 - 52

/-- The units of the number nearest to `a / b` units, were there no largest. -/
def roundUnits (a b : Nat) : Nat :=
  nearest a (b * Nat.pow 2 (spacing (a / b))) * Nat.pow 2 (spacing (a / b))

/-- A rounded quotient has at most 53 significant bits. -/
theorem nearest_spacing_le (a b : Nat) :
    nearest a (b * Nat.pow 2 (spacing (a / b))) ≤ Nat.pow 2 53 := by
  refine Nat.le_trans (nearest_le _ _) (Nat.succ_le_of_lt ?_)
  rw [← Nat.div_div_eq_div_mul]
  simp only [Nat.pow_eq]
  rw [Nat.div_lt_iff_lt_mul (Nat.two_pow_pos _), ← Nat.pow_add]
  refine Nat.lt_of_lt_of_le Nat.lt_log2_self (Nat.pow_le_pow_right (by decide) ?_)
  unfold spacing; omega

/-- A rounded quotient has 53 significant bits once the spacing exceeds one. -/
theorem le_nearest_spacing {a b : Nat} (h : 0 < spacing (a / b)) :
    Nat.pow 2 52 ≤ nearest a (b * Nat.pow 2 (spacing (a / b))) := by
  refine Nat.le_trans ?_ (div_le_nearest _ _)
  rw [← Nat.div_div_eq_div_mul]
  simp only [Nat.pow_eq]
  rw [Nat.le_div_iff_mul_le (Nat.two_pow_pos _), ← Nat.pow_add]
  have hne : a / b ≠ 0 := by
    intro h0
    simp [spacing, h0] at h
  have he : 52 + spacing (a / b) = (a / b).log2 := by
    unfold spacing at h ⊢; omega
  rw [he]
  exact Nat.log2_self_le hne

theorem lt_of_two_pow_lt {i n : Nat} (h : Nat.pow 2 i < Nat.pow 2 n) : i < n :=
  (Nat.pow_lt_pow_iff_right (by decide : 1 < 2)).1 h

/-- A rounded quotient below a power of two is a product of few bits and a
    small power of two. -/
theorem roundUnits_eq_mul {a b n : Nat} (h : roundUnits a b < Nat.pow 2 (53 + n)) :
    ∃ m q, m < Nat.pow 2 53 ∧ q ≤ n ∧ roundUnits a b = m * Nat.pow 2 q := by
  have hle := nearest_spacing_le a b
  have hge := @le_nearest_spacing a b
  unfold roundUnits at h ⊢
  generalize spacing (a / b) = e at *
  generalize nearest a (b * Nat.pow 2 e) = k at *
  have hbound : ∀ i, Nat.pow 2 i ≤ k * Nat.pow 2 e → i < 53 + n := fun i hi =>
    lt_of_two_pow_lt (Nat.lt_of_le_of_lt hi h)
  rcases Nat.lt_or_eq_of_le hle with hk | rfl
  · refine ⟨k, e, hk, ?_, rfl⟩
    rcases Nat.eq_zero_or_pos e with rfl | he
    · exact Nat.zero_le n
    · have := hbound (52 + e)
        (Nat.le_trans (Nat.le_of_eq (Nat.pow_add 2 52 e)) (Nat.mul_le_mul_right _ (hge he)))
      omega
  · refine ⟨Nat.pow 2 52, e + 1, by decide, ?_, ?_⟩
    · have := hbound (53 + e) (Nat.le_of_eq (Nat.pow_add 2 53 e))
      omega
    · simp only [Nat.pow_eq, ← Nat.pow_add]
      congr 1
      omega

/-- A rounded quotient below the limit is a magnitude. -/
theorem isMagnitude_roundUnits {a b : Nat} (h : roundUnits a b < Number.beyond) :
    IsMagnitude (roundUnits a b) := by
  unfold Number.beyond at h
  exact @roundUnits_eq_mul a b 2045 h

/-- The number with the given sign nearest to `a / b` units. -/
def Number.ofQuotient (negative : Bool) (a b : Nat) : Number :=
  if h : roundUnits a b < beyond then
    .finite negative (roundUnits a b) (isMagnitude_roundUnits h)
  else .infinite negative

end GotoBasic
