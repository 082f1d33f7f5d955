/-
  Decimals by their exact value.

  * `Decimal.value`, `Decimal.units`: what a decimal is worth, in ones and in
    units;
  * `Decimal.RoundsTo d u`: rounding the exact value of `d` gives `u` units; it
    depends on the value only (`RoundsTo.congr`), and means that `u` is the
    nearest point (`RoundsTo.isNearest_iff`);
  * `Decimal.toNumber_eq_round`: the short cuts for plainly large and plainly
    small decimals change nothing;
  * `Decimal.roundsTo_shortest`: the shortest decimal of a magnitude rounds to
    it.
-/
import GotoBasic.Decimal.Shortest
import GotoBasic.Proofs.Number.Rounding

namespace GotoBasic

namespace Decimal

/-! ## Values -/

/-- One is a power of two in units, and a unit is a power of five in steps of
    the finest grid.  The exponent is given as a variable, so that no proof
    computes the powers. -/
theorem exists_scale :
    ∃ p : Nat, p = 1074 ∧ Number.unitsPerOne = Nat.pow 2 p ∧ fineness = Nat.pow 5 p :=
  ⟨1074, rfl, by decide +kernel, by decide +kernel⟩

/-- The exact value of a decimal. -/
def value (d : Decimal) : ℚ := d.coefficient * 10 ^ d.exponent

/-- The exact value in units. -/
def units (d : Decimal) : ℚ := d.value * Number.unitsPerOne

theorem units_eq_zero {d : Decimal} (h : d.coefficient = 0) : d.units = 0 := by
  rw [units, value, h, Nat.cast_zero, zero_mul, zero_mul]

theorem round_ofNat (negative : Bool) (c k : Nat) :
    round negative ⟨c, .ofNat k⟩ = .ofQuotient negative (c * Nat.pow 10 k * Number.unitsPerOne) 1 :=
  rfl

theorem round_negSucc (negative : Bool) (c k : Nat) :
    round negative ⟨c, .negSucc k⟩ =
      .ofQuotient negative (c * Number.unitsPerOne) (Nat.pow 10 (k + 1)) :=
  rfl

theorem exists_quotient (d : Decimal) :
    ∃ a b : Nat, 0 < b ∧ (a : ℚ) / b = d.units ∧
      ∀ negative, d.round negative = .ofQuotient negative a b := by
  obtain ⟨c, e⟩ := d
  cases e with
  | ofNat k =>
    refine ⟨_, 1, Nat.one_pos, ?_, fun negative => round_ofNat negative c k⟩
    rw [units, value]
    generalize Number.unitsPerOne = n
    simp
  | negSucc k =>
    refine ⟨_, _, Nat.pow_pos (by decide), ?_, fun negative => round_negSucc negative c k⟩
    rw [units, value, zpow_negSucc]
    generalize Number.unitsPerOne = n
    push_cast
    field_simp

/-- Rounding the exact value gives `u` units. -/
def RoundsTo (d : Decimal) (u : Nat) : Prop :=
  ∃ a b : Nat, 0 < b ∧ (a : ℚ) / b = d.units ∧ roundUnits a b = u

theorem roundsTo_zero {d : Decimal} (h : d.coefficient = 0) : d.RoundsTo 0 :=
  ⟨0, 1, Nat.one_pos, by rw [units_eq_zero h, Nat.cast_zero, zero_div],
    roundUnits_eq_zero (by decide)⟩

namespace RoundsTo

variable {d d' : Decimal} {u : Nat}

theorem congr (h : d.RoundsTo u) (hv : d'.value = d.value) : d'.RoundsTo u := by
  rwa [RoundsTo, units, hv]

theorem round_eq (h : d.RoundsTo u) (hu : IsMagnitude u) (negative : Bool) :
    d.round negative = .finite negative u hu := by
  obtain ⟨a, b, hb, hab, hu'⟩ := h
  obtain ⟨a', b', hb', hab', hround⟩ := d.exists_quotient
  rw [hround]
  exact Number.ofQuotient_eq_finite hu ((roundUnits_congr hb' hb (hab'.trans hab.symm)).trans hu')

theorem isNearest_iff (h : d.RoundsTo u) {v : Nat} : IsNearest d.units v ↔ v = u := by
  obtain ⟨a, b, hb, hab, rfl⟩ := h
  have hnearest : IsNearest d.units (roundUnits a b) := hab ▸ isNearest_roundUnits hb
  refine ⟨hnearest.unique, ?_⟩
  rintro rfl
  exact hnearest

theorem coefficient_ne_zero (h : d.RoundsTo u) (hne : u ≠ 0) : d.coefficient ≠ 0 := by
  intro h0
  obtain ⟨a, b, hb, hab, rfl⟩ := h
  have hbq : (b : ℚ) ≠ 0 := Nat.cast_ne_zero.2 hb.ne'
  rw [units_eq_zero h0, div_eq_zero_iff, or_iff_left hbq, Nat.cast_eq_zero] at hab
  exact hne (roundUnits_eq_zero (by omega))

end RoundsTo

/-! ## Large and small decimals -/

theorem beyond_le_mul {c k n : Nat} (hc : c ≠ 0) (hk : n ≤ k)
    (hn : Number.beyond ≤ Nat.pow 10 n * Number.unitsPerOne) :
    Number.beyond ≤ c * Nat.pow 10 k * Number.unitsPerOne := by
  refine hn.trans (Nat.mul_le_mul_right _ ?_)
  exact (Nat.pow_le_pow_right (by decide) hk).trans
    (Nat.le_mul_of_pos_left _ (Nat.pos_of_ne_zero hc))

theorem round_of_isHuge {d : Decimal} (h : d.isHuge = true) (negative : Bool) :
    d.round negative = .infinite negative := by
  obtain ⟨c, e⟩ := d
  obtain ⟨hc, he⟩ : c ≠ 0 ∧ 310 ≤ e := by simpa [isHuge] using h
  obtain ⟨k, rfl⟩ : ∃ k : Nat, e = .ofNat k := ⟨e.toNat, by simp; omega⟩
  have hk : 310 ≤ k := by simpa using he
  have hle := beyond_le_mul hc hk (by decide +kernel)
  rw [round_ofNat, Number.ofQuotient_eq_infinite (by rwa [Nat.div_one])]

/-- Ten is above eight. -/
theorem two_mul_lt {c n k : Nat} (h : c.log2 + 2 + n ≤ 3 * k) :
    2 * (c * Nat.pow 2 n) < Nat.pow 10 k :=
  calc 2 * (c * 2 ^ n) < 2 * (2 ^ (c.log2 + 1) * 2 ^ n) := by
        have := Nat.mul_lt_mul_of_pos_right (@Nat.lt_log2_self c) (Nat.two_pow_pos n)
        omega
    _ = 2 ^ (c.log2 + 1 + n + 1) := by rw [← Nat.pow_add, ← Nat.pow_succ']
    _ ≤ 2 ^ (3 * k) := Nat.pow_le_pow_right (by decide) (by omega)
    _ = 8 ^ k := by rw [Nat.pow_mul]
    _ ≤ 10 ^ k := Nat.pow_le_pow_left (by decide) k

theorem round_of_isTiny {d : Decimal} (h : d.isTiny = true) (negative : Bool) :
    d.round negative = .zero negative := by
  obtain ⟨c, e⟩ := d
  have htiny : c = 0 ∨ (c.log2 : ℤ) + 1 + 3 * e < -1100 ∧ e < 0 := by simpa [isTiny] using h
  cases e with
  | ofNat k =>
    obtain rfl : c = 0 := by
      rcases htiny with h | ⟨_, h⟩
      · exact h
      · exact absurd h (by simp)
    rw [round_ofNat, Number.ofQuotient_eq_zero (by simp)]
  | negSucc k =>
    rw [round_negSucc, Number.ofQuotient_eq_zero]
    rcases htiny with rfl | ⟨h, _⟩
    · simp
    · obtain ⟨p, hp, hone, _⟩ := exists_scale
      rw [hone]
      exact two_mul_lt (by omega)

/-- The short cuts change nothing. -/
theorem toNumber_eq_round (negative : Bool) (d : Decimal) :
    d.toNumber negative = d.round negative := by
  unfold toNumber
  split
  · rw [round_of_isHuge ‹_›]
  · split
    · rw [round_of_isTiny ‹_›]
    · rfl

/-! ## The shortest decimal -/

theorem fineness_pos : 0 < fineness := by
  obtain ⟨p, _, _, hfine⟩ := exists_scale
  rw [hfine]
  exact Nat.pow_pos (by decide)

theorem zpow_mul_two_pow (c n p : Nat) :
    (c : ℚ) * 10 ^ ((n : ℤ) - p) * (Nat.pow 2 p : Nat) =
      (c * Nat.pow 10 n : Nat) / (Nat.pow 5 p : Nat) := by
  have hten : (10 : ℚ) ^ p = 2 ^ p * 5 ^ p := by rw [← mul_pow]; norm_num
  simp only [Nat.pow_eq]
  push_cast
  rw [zpow_sub₀ (by norm_num), zpow_natCast, zpow_natCast, hten]
  field_simp

theorem roundsTo_of_readsBack {u c n : Nat} {e : ℤ} (h : readsBack u c n = true)
    (he : e = n - 1074) : RoundsTo ⟨c, e⟩ u := by
  obtain ⟨p, hp, hone, hfine⟩ := exists_scale
  have hep : e = n - p := by omega
  refine ⟨c * Nat.pow 10 n, fineness, fineness_pos, ?_, beq_iff_eq.1 h⟩
  rw [units, value, hone, hfine, hep]
  exact (zpow_mul_two_pow c n p).symm

theorem readsBack_of_pick {u n c : Nat} (h : pick u n = some c) : readsBack u c n = true := by
  rw [pick] at h
  have hback := List.find?_some h
  exact hback

/-- On the finest grid the magnitude is a point itself. -/
theorem readsBack_finest {u : Nat} (hu : IsMagnitude u) :
    readsBack u (u * fineness) 0 = true := by
  rw [readsBack, beq_iff_eq, Nat.pow_eq, Nat.pow_zero, Nat.mul_one]
  exact roundUnits_point hu.isPoint fineness_pos

/-- A search for what reads back ends there, wherever it starts. -/
theorem roundsTo_searchFrom {candidate : Nat → Option Nat} {finest u : Nat}
    (hcandidate : ∀ n c, candidate n = some c → readsBack u c n = true)
    (hfinest : readsBack u finest 0 = true) (n : Nat) :
    (searchFrom candidate finest n).RoundsTo u := by
  induction n with
  | zero => exact roundsTo_of_readsBack hfinest (by simp)
  | succ n ih =>
    rw [searchFrom]
    split
    · rename_i c hc
      exact roundsTo_of_readsBack (hcandidate _ c hc) (by push_cast; rfl)
    · exact ih

/-- The shortest decimal reads back. -/
theorem roundsTo_shortest {u : Nat} (hu : IsMagnitude u) : (shortest u).RoundsTo u :=
  roundsTo_searchFrom (fun _ _ => readsBack_of_pick) (readsBack_finest hu) _

end Decimal

end GotoBasic
