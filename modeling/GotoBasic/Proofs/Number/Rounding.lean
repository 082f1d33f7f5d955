/-
  Rounding goes to the nearest number, and of two to the even one.

  The points of the binary64 line are the whole numbers of units with at most
  53 significant bits, here without a largest one: beyond the finite
  magnitudes a point stands for infinity.

  * `IsPoint v`: `v` is one of them;
  * `IsNearest q u`: no point is closer to `q` than `u`, and if another one is
    as close, then `u` has the even significand;
  * `roundUnits_congr`: how a quotient is rounded depends on its value only;
  * `roundUnits_point`: points stay as they are; `roundUnits_eq_zero`,
    `beyond_le_roundUnits`: what is rounded to zero and to infinity;
  * `isNearest_roundUnits`: the rounded quotient is the nearest point, and
    there is one only (`IsNearest.unique`);
  * `Number.ofQuotient_eq_finite`, `Number.ofQuotient_eq_infinite`,
    `Number.ofQuotient_eq_zero`: the number of a quotient.
-/
import GotoBasic.Number.Round
import Mathlib.Data.Nat.Cast.Order.Field
import Mathlib.Data.Rat.Cast.Order
import Mathlib.Tactic.FieldSimp
import Mathlib.Tactic.Linarith

namespace GotoBasic

/-- A whole number with at most 53 significant bits. -/
def IsPoint (v : Nat) : Prop := ∃ m q, m < 2 ^ 53 ∧ v = m * 2 ^ q

theorem IsMagnitude.isPoint {u : Nat} (h : IsMagnitude u) : IsPoint u := by
  obtain ⟨m, q, hm, _, rfl⟩ := h
  exact ⟨m, q, hm, rfl⟩

/-- A point as a multiple of the spacing around it. -/
def significand (u : Nat) : Nat := u / 2 ^ spacing u

/-- The point `u` is nearest to `q`, and even if another one is as near. -/
structure IsNearest (q : ℚ) (u : Nat) : Prop where
  isPoint : IsPoint u
  closest : ∀ v, IsPoint v → |q - u| ≤ |q - v|
  even : ∀ v, IsPoint v → v ≠ u → |q - u| = |q - v| → Even (significand u)

/-! ## Rounding to a whole number -/

theorem nearest_mul_right (a b : Nat) {k : Nat} (hk : 0 < k) :
    nearest (a * k) (b * k) = nearest a b := by
  have hlt : 2 * (a % b * k) < b * k ↔ 2 * (a % b) < b := by
    rw [← Nat.mul_assoc, Nat.mul_lt_mul_right hk]
  have heq : 2 * (a % b * k) = b * k ↔ 2 * (a % b) = b := by
    rw [← Nat.mul_assoc, Nat.mul_left_inj hk.ne']
  simp only [nearest, Nat.mul_div_mul_right a b hk, Nat.mul_mod_mul_right, hlt, heq]

theorem nearest_mul_self (n : Nat) {b : Nat} (hb : 0 < b) : nearest (n * b) b = n := by
  simp [nearest, hb]

/-- The distance from `a` to the multiple `j * b`. -/
def gap (a b j : Nat) : Nat := ((a : ℤ) - (j * b : Nat)).natAbs

/-- A multiple of `b` is one of two neighbours, or a step beyond them. -/
theorem mul_cases (t b j : Nat) :
    j * b + b ≤ t * b ∨ j = t ∨ j = t + 1 ∨ (t + 1) * b + b ≤ j * b := by
  rcases Nat.lt_or_ge j t with h | h
  · exact .inl (by simpa [Nat.succ_mul] using Nat.mul_le_mul_right b h)
  · rcases Nat.lt_or_ge (t + 1) j with h' | h'
    · exact .inr (.inr (.inr (by simpa [Nat.succ_mul] using Nat.mul_le_mul_right b h')))
    · omega

theorem nearest_cases (a b : Nat) :
    nearest a b = a / b ∧ (2 * (a % b) < b ∨ 2 * (a % b) = b ∧ a / b % 2 = 0) ∨
      nearest a b = a / b + 1 ∧ (b < 2 * (a % b) ∨ 2 * (a % b) = b ∧ a / b % 2 = 1) := by
  unfold nearest
  split
  · exact .inl ⟨rfl, ‹_›⟩
  · exact .inr ⟨rfl, by omega⟩

section
variable {a b : Nat} (hb : 0 < b) {j : Nat}
include hb

/-- No multiple is closer than the nearest one. -/
theorem gap_nearest_le : gap a b (nearest a b) ≤ gap a b j := by
  have hdiv := Nat.div_add_mod' a b
  have hmod := Nat.mod_lt a hb
  have hnext : (a / b + 1) * b = a / b * b + b := Nat.succ_mul _ _
  unfold gap
  rcases nearest_cases a b with ⟨hn, hr⟩ | ⟨hn, hr⟩ <;> rw [hn] <;>
    rcases mul_cases (a / b) b j with h | rfl | rfl | h <;> omega

/-- If another multiple is as close as the nearest one, that one is even. -/
theorem even_nearest (hj : j ≠ nearest a b) (h : gap a b (nearest a b) = gap a b j) :
    Even (nearest a b) := by
  have hdiv := Nat.div_add_mod' a b
  have hmod := Nat.mod_lt a hb
  have hnext : (a / b + 1) * b = a / b * b + b := Nat.succ_mul _ _
  rw [Nat.even_iff]
  unfold gap at h
  rcases nearest_cases a b with ⟨hn, hr⟩ | ⟨hn, hr⟩ <;> rw [hn] at hj h ⊢ <;>
    rcases mul_cases (a / b) b j with h' | rfl | rfl | h' <;> omega

end

/-! ## Rounding to a point -/

theorem roundUnits_eq (a b : Nat) :
    roundUnits a b = nearest a (b * 2 ^ spacing (a / b)) * 2 ^ spacing (a / b) := rfl

theorem roundUnits_mul_right (a b : Nat) {k : Nat} (hk : 0 < k) :
    roundUnits (a * k) (b * k) = roundUnits a b := by
  simp only [roundUnits_eq, Nat.mul_div_mul_right a b hk, Nat.mul_right_comm b k,
    nearest_mul_right _ _ hk]

/-- How a quotient is rounded depends on its value only. -/
theorem roundUnits_congr {a b a' b' : Nat} (hb : 0 < b) (hb' : 0 < b')
    (h : (a : ℚ) / b = a' / b') : roundUnits a b = roundUnits a' b' := by
  have hcross : a * b' = a' * b := by
    rw [div_eq_div_iff (by positivity) (by positivity)] at h
    exact_mod_cast h
  calc roundUnits a b = roundUnits (a * b') (b * b') := (roundUnits_mul_right a b hb').symm
    _ = roundUnits (a' * b) (b' * b) := by rw [hcross, Nat.mul_comm b b']
    _ = roundUnits a' b' := roundUnits_mul_right a' b' hb

/-- A point is a multiple of a spacing, or below the numbers that have it. -/
theorem IsPoint.grid {v : Nat} (h : IsPoint v) (s : Nat) :
    (∃ j, v = j * 2 ^ s) ∨ 0 < s ∧ v < 2 ^ 52 * 2 ^ s := by
  obtain ⟨m, q, hm, rfl⟩ := h
  rcases Nat.lt_or_ge q s with hq | hq
  · refine .inr ⟨by omega, ?_⟩
    calc m * 2 ^ q < 2 ^ 53 * 2 ^ q := Nat.mul_lt_mul_of_pos_right hm (Nat.two_pow_pos q)
      _ = 2 ^ 52 * 2 ^ (q + 1) := by rw [Nat.pow_succ]; omega
      _ ≤ 2 ^ 52 * 2 ^ s := Nat.mul_le_mul_left _ (Nat.pow_le_pow_right (by decide) hq)
  · refine .inl ⟨m * 2 ^ (q - s), ?_⟩
    rw [Nat.mul_assoc, ← Nat.pow_add, Nat.sub_add_cancel hq]

/-- The numbers that have a spacing above one have 53 significant bits. -/
theorem two_pow_mul_le {n : Nat} (h : 0 < spacing n) : 2 ^ 52 * 2 ^ spacing n ≤ n := by
  have hne : n ≠ 0 := by
    rintro rfl
    simp [spacing] at h
  have he : 52 + spacing n = n.log2 := by
    unfold spacing at h ⊢
    omega
  rw [← Nat.pow_add, he]
  exact Nat.log2_self_le hne

theorem IsPoint.eq_significand_mul {u : Nat} (h : IsPoint u) :
    u = significand u * 2 ^ spacing u := by
  rcases h.grid (spacing u) with ⟨j, hj⟩ | ⟨hs, hlt⟩
  · exact (Nat.div_mul_cancel ⟨j, by rwa [Nat.mul_comm]⟩).symm
  · exact absurd (two_pow_mul_le hs) (by omega)

/-- Points stay as they are. -/
theorem roundUnits_point {u b : Nat} (h : IsPoint u) (hb : 0 < b) : roundUnits (u * b) b = u := by
  have hpos : 0 < b * 2 ^ spacing u := Nat.mul_pos hb (Nat.two_pow_pos _)
  have hn : nearest (u * b) (b * 2 ^ spacing u) = significand u := by
    nth_rewrite 1 [h.eq_significand_mul]
    rw [Nat.mul_right_comm, Nat.mul_assoc, nearest_mul_self _ hpos]
  rw [roundUnits_eq, Nat.mul_div_cancel u hb, hn, ← h.eq_significand_mul]

/-- What is below half a unit is rounded to zero. -/
theorem roundUnits_eq_zero {a b : Nat} (h : 2 * a < b) : roundUnits a b = 0 := by
  have hdiv : a / b = 0 := Nat.div_eq_of_lt (by omega)
  have hmod : a % b = a := Nat.mod_eq_of_lt (by omega)
  have hspacing : spacing 0 = 0 := rfl
  rw [roundUnits_eq, hdiv, hspacing, Nat.pow_zero, Nat.mul_one, Nat.mul_one, nearest, hdiv, hmod,
    if_pos (.inl h)]

/-- Rounding does not go below a power of two. -/
theorem two_pow_le_roundUnits {a b n : Nat} (hn : 52 < n) (h : Nat.pow 2 n ≤ a / b) :
    Nat.pow 2 n ≤ roundUnits a b := by
  have hne : a / b ≠ 0 := (Nat.lt_of_lt_of_le (Nat.two_pow_pos n) h).ne'
  have hlog : n ≤ (a / b).log2 := (Nat.le_log2 hne).2 h
  have hs : n - 52 ≤ spacing (a / b) := Nat.sub_le_sub_right hlog 52
  calc 2 ^ n = 2 ^ 52 * 2 ^ (n - 52) := by rw [← Nat.pow_add, Nat.add_sub_cancel' hn.le]
    _ ≤ nearest a (b * 2 ^ spacing (a / b)) * 2 ^ spacing (a / b) :=
      Nat.mul_le_mul (le_nearest_spacing (by omega)) (Nat.pow_le_pow_right (by decide) hs)

/-- What is beyond the finite magnitudes stays there. -/
theorem beyond_le_roundUnits {a b : Nat} (h : Number.beyond ≤ a / b) :
    Number.beyond ≤ roundUnits a b := by
  have hpow := @two_pow_le_roundUnits a b (53 + 2045) (by decide)
  unfold Number.beyond at h ⊢
  exact hpow h

theorem significand_mul {k s : Nat} (hk : k < 2 ^ 53) (hs : s = 0 ∨ 2 ^ 52 ≤ k) :
    significand (k * 2 ^ s) = k := by
  have hspacing : spacing (k * 2 ^ s) = s := by
    rcases hs with rfl | hge
    · rw [Nat.pow_zero, Nat.mul_one, spacing]
      rcases Nat.eq_zero_or_pos k with rfl | hpos
      · rfl
      · have := (Nat.log2_lt hpos.ne').2 hk
        omega
    · have hne : k * 2 ^ s ≠ 0 := (Nat.mul_pos (by omega) (Nat.two_pow_pos s)).ne'
      have hlog : (k * 2 ^ s).log2 = 52 + s := by
        rw [Nat.log2_eq_iff hne, Nat.add_right_comm, Nat.pow_add, Nat.pow_add]
        exact ⟨Nat.mul_le_mul_right _ hge, Nat.mul_lt_mul_of_pos_right hk (Nat.two_pow_pos s)⟩
      rw [spacing, hlog, Nat.add_sub_cancel_left]
  rw [significand, hspacing, Nat.mul_div_cancel _ (Nat.two_pow_pos s)]

theorem significand_lt (u : Nat) : significand u < 2 ^ 53 := by
  rw [significand, Nat.div_lt_iff_lt_mul (Nat.two_pow_pos _), ← Nat.pow_add]
  refine Nat.lt_of_lt_of_le Nat.lt_log2_self (Nat.pow_le_pow_right (by decide) ?_)
  unfold spacing
  omega

theorem le_significand {u : Nat} (h : 0 < spacing u) : 2 ^ 52 ≤ significand u :=
  (Nat.le_div_iff_mul_le (Nat.two_pow_pos _)).2 (two_pow_mul_le h)

/-- A rounded quotient has an even significand if it is an even multiple. -/
theorem even_significand {a b : Nat} (h : Even (nearest a (b * 2 ^ spacing (a / b)))) :
    Even (significand (roundUnits a b)) := by
  have hle := nearest_spacing_le a b
  have hge := @le_nearest_spacing a b
  simp only [Nat.pow_eq] at hle hge
  rw [roundUnits_eq]
  generalize spacing (a / b) = s at *
  generalize nearest a (b * 2 ^ s) = k at *
  rcases Nat.lt_or_eq_of_le hle with hk | rfl
  · rw [significand_mul hk (by omega)]
    exact h
  · have hcarry : 2 ^ 53 * 2 ^ s = 2 ^ 52 * 2 ^ (s + 1) := by rw [Nat.pow_succ]; omega
    rw [hcarry, significand_mul (by decide) (.inr (Nat.le_refl _))]
    decide

/-! ## The nearest point -/

/-- The next point above one. -/
theorem IsPoint.succ_le {u v : Nat} (hu : IsPoint u) (hv : IsPoint v) (h : u < v) :
    (significand u + 1) * 2 ^ spacing u ≤ v := by
  rcases hv.grid (spacing u) with ⟨j, rfl⟩ | ⟨hs, hlt⟩
  · refine Nat.mul_le_mul_right _ (Nat.lt_of_mul_lt_mul_right (a := 2 ^ spacing u) ?_)
    rwa [← hu.eq_significand_mul]
  · exact absurd (two_pow_mul_le hs) (by omega)

/-- Between two points that are as close, no other point lies. -/
theorem IsNearest.not_between {q : ℚ} {u v w : Nat} (hu : IsNearest q u)
    (htie : |q - u| = |q - v|) (hw : IsPoint w) (huw : u < w) (hwv : w < v) : False := by
  have hmiddle : q - u = v - q := by
    rcases abs_eq_abs.1 htie with h | h
    · have : (u : ℚ) < v := Nat.cast_lt.2 (huw.trans hwv)
      linarith
    · linarith
  have huw' : (u : ℚ) < w := Nat.cast_lt.2 huw
  have hwv' : (w : ℚ) < v := Nat.cast_lt.2 hwv
  have hcloser : |q - w| < q - u := abs_lt.2 ⟨by linarith, by linarith⟩
  exact absurd (hu.closest w hw) (not_le.2 (hcloser.trans_le (le_abs_self _)))

theorem IsNearest.le {q : ℚ} {u v : Nat} (hu : IsNearest q u) (hv : IsNearest q v) : v ≤ u := by
  by_contra hlt
  rw [not_le] at hlt
  have htie : |q - u| = |q - v| :=
    le_antisymm (hu.closest v hv.isPoint) (hv.closest u hu.isPoint)
  have hueven := hu.even v hv.isPoint hlt.ne' htie
  have hveven := hv.even u hu.isPoint hlt.ne htie.symm
  -- the next point above `u` is odd, and it is `v`, as none lies between them
  have hsucc : significand u + 1 < 2 ^ 53 := by
    have := significand_lt u
    rcases hueven with ⟨r, hr⟩
    omega
  have hodd : significand ((significand u + 1) * 2 ^ spacing u) = significand u + 1 := by
    refine significand_mul hsucc ?_
    rcases Nat.eq_zero_or_pos (spacing u) with h | h
    · exact .inl h
    · exact .inr ((le_significand h).trans (Nat.le_succ _))
  have hpoint : IsPoint ((significand u + 1) * 2 ^ spacing u) := ⟨_, _, hsucc, rfl⟩
  have hbelow : u < (significand u + 1) * 2 ^ spacing u := by
    nth_rewrite 1 [hu.isPoint.eq_significand_mul]
    exact Nat.mul_lt_mul_of_pos_right (Nat.lt_succ_self _) (Nat.two_pow_pos _)
  rcases (hu.isPoint.succ_le hv.isPoint hlt).lt_or_eq with h | h
  · exact hu.not_between htie hpoint hbelow h
  · rw [← h, hodd, Nat.even_add_one] at hveven
    exact hveven hueven

/-- There is one nearest point only. -/
theorem IsNearest.unique {q : ℚ} {u v : Nat} (hu : IsNearest q u) (hv : IsNearest q v) : v = u :=
  le_antisymm (hu.le hv) (hv.le hu)

theorem isPoint_roundUnits (a b : Nat) : IsPoint (roundUnits a b) := by
  have hlt : roundUnits a b < 2 ^ (53 + roundUnits a b) :=
    calc roundUnits a b < 2 ^ roundUnits a b := Nat.lt_two_pow_self
      _ ≤ 2 ^ (53 + roundUnits a b) := Nat.pow_le_pow_right (by decide) (by omega)
  obtain ⟨m, q, hm, _, h⟩ := roundUnits_eq_mul hlt
  exact ⟨m, q, hm, h⟩

section
variable {a b : Nat} (hb : 0 < b)
include hb

theorem abs_sub_eq_gap (j s : Nat) :
    |(a : ℚ) / b - (j * 2 ^ s : Nat)| = gap a (b * 2 ^ s) j / b := by
  have hbq : (0 : ℚ) < b := Nat.cast_pos.2 hb
  have hsub : (a : ℚ) / b - j * 2 ^ s = (a - j * (b * 2 ^ s)) / b := by field_simp
  rw [gap, Nat.cast_natAbs, Int.cast_abs]
  push_cast
  rw [hsub, abs_div, abs_of_pos hbq]

/-- No multiple of the spacing is closer. -/
theorem abs_sub_roundUnits_le (j : Nat) :
    |(a : ℚ) / b - roundUnits a b| ≤ |(a : ℚ) / b - (j * 2 ^ spacing (a / b) : Nat)| := by
  have hpos : 0 < b * 2 ^ spacing (a / b) := Nat.mul_pos hb (Nat.two_pow_pos _)
  rw [roundUnits_eq, abs_sub_eq_gap hb, abs_sub_eq_gap hb]
  exact div_le_div_of_nonneg_right (Nat.cast_le.2 (gap_nearest_le hpos)) (Nat.cast_nonneg b)

/-- A point that is no multiple of the spacing is farther away. -/
theorem abs_sub_roundUnits_lt {v : Nat} (hs : 0 < spacing (a / b))
    (hv : v < 2 ^ 52 * 2 ^ spacing (a / b)) :
    |(a : ℚ) / b - roundUnits a b| < |(a : ℚ) / b - v| := by
  have hle : ((2 ^ 52 * 2 ^ spacing (a / b) : Nat) : ℚ) ≤ a / b :=
    (Nat.cast_le.2 (two_pow_mul_le hs)).trans Nat.cast_div_le
  have hlt : (v : ℚ) < (2 ^ 52 * 2 ^ spacing (a / b) : Nat) := Nat.cast_lt.2 hv
  calc |(a : ℚ) / b - roundUnits a b|
      ≤ |(a : ℚ) / b - (2 ^ 52 * 2 ^ spacing (a / b) : Nat)| := abs_sub_roundUnits_le hb _
    _ = (a : ℚ) / b - (2 ^ 52 * 2 ^ spacing (a / b) : Nat) := abs_of_nonneg (by linarith)
    _ < (a : ℚ) / b - v := by linarith
    _ ≤ |(a : ℚ) / b - v| := le_abs_self _

/-- **The rounded quotient is the nearest point**, a tie going to the even
    one. -/
theorem isNearest_roundUnits : IsNearest ((a : ℚ) / b) (roundUnits a b) where
  isPoint := isPoint_roundUnits a b
  closest v hv := by
    rcases hv.grid (spacing (a / b)) with ⟨j, rfl⟩ | ⟨hs, hlt⟩
    · exact abs_sub_roundUnits_le hb j
    · exact (abs_sub_roundUnits_lt hb hs hlt).le
  even v hv hne htie := by
    rcases hv.grid (spacing (a / b)) with ⟨j, rfl⟩ | ⟨hs, hlt⟩
    · have hpos : 0 < b * 2 ^ spacing (a / b) := Nat.mul_pos hb (Nat.two_pow_pos _)
      have hbq : (b : ℚ) ≠ 0 := Nat.cast_ne_zero.2 hb.ne'
      rw [roundUnits_eq, abs_sub_eq_gap hb, abs_sub_eq_gap hb, div_left_inj' hbq,
        Nat.cast_inj] at htie
      refine even_significand (even_nearest hpos ?_ htie)
      rintro rfl
      exact hne rfl
    · exact absurd htie (abs_sub_roundUnits_lt hb hs hlt).ne

end

/-! ## Numbers -/

theorem mul_two_pow_lt {m q p n : Nat} (hm : m < Nat.pow 2 p) (hq : q ≤ n) :
    m * Nat.pow 2 q < Nat.pow 2 (p + n) :=
  calc m * 2 ^ q < 2 ^ p * 2 ^ q := Nat.mul_lt_mul_of_pos_right hm (Nat.two_pow_pos q)
    _ ≤ 2 ^ p * 2 ^ n := Nat.mul_le_mul_left _ (Nat.pow_le_pow_right (by decide) hq)
    _ = 2 ^ (p + n) := (Nat.pow_add 2 p n).symm

theorem IsMagnitude.lt_beyond {u : Nat} (h : IsMagnitude u) : u < Number.beyond := by
  obtain ⟨m, q, hm, hq, rfl⟩ := h
  have hlt := @mul_two_pow_lt m q 53 2045 hm hq
  unfold Number.beyond
  exact hlt

theorem Number.ofQuotient_eq_finite {negative : Bool} {a b u : Nat} (hu : IsMagnitude u)
    (h : roundUnits a b = u) : ofQuotient negative a b = .finite negative u hu := by
  subst h
  rw [ofQuotient, dif_pos hu.lt_beyond]

theorem Number.ofQuotient_eq_infinite {negative : Bool} {a b : Nat} (h : beyond ≤ a / b) :
    ofQuotient negative a b = .infinite negative := by
  rw [ofQuotient, dif_neg (Nat.not_lt.2 (beyond_le_roundUnits h))]

theorem Number.ofQuotient_eq_zero {negative : Bool} {a b : Nat} (h : 2 * a < b) :
    ofQuotient negative a b = .zero negative :=
  ofQuotient_eq_finite isMagnitude_zero (roundUnits_eq_zero h)

end GotoBasic
