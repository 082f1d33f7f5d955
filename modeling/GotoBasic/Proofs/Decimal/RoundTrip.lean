/-
  Printing a number and reading the text again gives the number.

  * `standing ds e`: the decimal with the digits `ds`, the first of which
    stands for `10 ^ e`;
  * `Worth cs d`: the characters `cs` spell a decimal of the same value as
    `d`; what is laid out is worth what it was (`worth_positional`,
    `worth_scientific`, `worth_decimal`);
  * `spells_number`: the text of a finite number spells a decimal that rounds
    to it;
  * `toNumber_toText`: every number but `nan` is read back as it was printed,
    with its sign.
-/
import GotoBasic.Proofs.Decimal.Exact
import GotoBasic.Proofs.Decimal.Grammar
import Mathlib.Tactic.Ring

namespace GotoBasic

namespace Decimal

/-- Zeros at the end of the coefficient count as part of the exponent. -/
theorem value_mul_pow (c k : Nat) (e : ℤ) :
    (⟨c * 10 ^ k, e⟩ : Decimal).value = (⟨c, e + k⟩ : Decimal).value := by
  simp only [value]
  push_cast
  rw [zpow_add₀ (by norm_num), zpow_natCast]
  ring

end Decimal

namespace Layout

open Numeral

/-- The digits whose first one stands for `10 ^ e`, as a decimal. -/
def standing (ds : List Char) (e : ℤ) : Decimal := ⟨Nat.ofDigitChars 10 ds 0, e + 1 - ds.length⟩

/-- The characters spell a decimal of the value of `d`. -/
def Worth (cs : List Char) (d : Decimal) : Prop := ∃ d', Unsigned cs d' ∧ d'.value = d.value

theorem Worth.congr {cs : List Char} {d d' : Decimal} (h : Worth cs d) (hv : d.value = d'.value) :
    Worth cs d' := by
  rwa [Worth, ← hv]

/-! ## Digits -/

theorem ofDigitChars_append_zeros (ds : List Char) (k : Nat) :
    Nat.ofDigitChars 10 (ds ++ List.replicate k '0') 0 = Nat.ofDigitChars 10 ds 0 * 10 ^ k := by
  rw [Nat.ofDigitChars_append, Nat.ofDigitChars_replicate_zero, Nat.mul_comm]

theorem ofDigitChars_zeros_append (ds : List Char) (k : Nat) :
    Nat.ofDigitChars 10 (List.replicate k '0' ++ ds) 0 = Nat.ofDigitChars 10 ds 0 := by
  rw [Nat.ofDigitChars_append, Nat.ofDigitChars_replicate_zero, Nat.mul_zero]

theorem isDigit_replicate (k : Nat) : ∀ c ∈ List.replicate k '0', c.isDigit = true := by
  intro c hc
  rw [List.eq_of_mem_replicate hc]
  decide

theorem isDigits_zero : IsDigits ['0'] := ⟨by simp, isDigit_replicate 1⟩

theorem isDigits_digits (n : Nat) : IsDigits (digits n) :=
  ⟨Nat.toDigits_ne_nil, fun _ hc => Nat.isDigit_of_mem_toDigits (by decide) (by decide) hc⟩

theorem isDigits_padded (width n : Nat) : IsDigits (padded width n) := by
  obtain ⟨hne, hd⟩ := isDigits_digits n
  exact ⟨by simp [padded, hne], List.forall_mem_append.2 ⟨isDigit_replicate _, hd⟩⟩

theorem ofDigitChars_padded (width n : Nat) : Nat.ofDigitChars 10 (padded width n) 0 = n := by
  rw [padded, ofDigitChars_zeros_append, digits, Nat.ofDigitChars_ten_toDigits]

/-! ## Positional and scientific form -/

theorem worth_append {cs m x ds : List Char} {places c k : Nat} {e e' : ℤ}
    (hm : Mantissa m ds places) (hx : Exponent x e) (hcs : cs = m ++ x)
    (hc : Nat.ofDigitChars 10 ds 0 = c * 10 ^ k) (he : e' = e - places + k) :
    Worth cs ⟨c, e'⟩ := by
  refine ⟨_, hcs ▸ Unsigned.mk hm hx, ?_⟩
  rw [hc, Decimal.value_mul_pow, he]

theorem worth_pointed {ds : List Char} (h : IsDigits ds) (e : Nat) :
    Worth (pointed ds (e + 1)) (standing ds e) := by
  unfold pointed
  split
  · -- all digits stand in front of the point, with zeros up to it
    have hwhole : IsDigits (ds ++ List.replicate (e + 1 - ds.length) '0') :=
      ⟨by simp [h.1], List.forall_mem_append.2 ⟨h.2, isDigit_replicate _⟩⟩
    have hzeros := ofDigitChars_append_zeros ds (e + 1 - ds.length + 1)
    rw [List.replicate_succ', ← List.append_assoc] at hzeros
    refine worth_append (.pointed hwhole (isDigit_replicate 1)) .absent (by simp) hzeros ?_
    simp only [List.length_replicate]
    omega
  · have hwhole : IsDigits (ds.take (e + 1)) :=
      ⟨by simp [h.1], fun c hc => h.2 c (List.mem_of_mem_take hc)⟩
    have hfraction : ∀ c ∈ ds.drop (e + 1), c.isDigit = true :=
      fun c hc => h.2 c (List.mem_of_mem_drop hc)
    have hall : Nat.ofDigitChars 10 (ds.take (e + 1) ++ ds.drop (e + 1)) 0 =
        Nat.ofDigitChars 10 ds 0 * 10 ^ 0 := by simp
    refine worth_append (.pointed hwhole hfraction) .absent (by simp) hall ?_
    simp only [List.length_drop]
    omega

/-- The positional form is worth its digits. -/
theorem worth_positional {ds : List Char} (h : IsDigits ds) (e : ℤ) :
    Worth (positional ds e) (standing ds e) := by
  cases e with
  | ofNat e => exact worth_pointed h e
  | negSucc e =>
    have hfraction : ∀ c ∈ List.replicate e '0' ++ ds, c.isDigit = true :=
      List.forall_mem_append.2 ⟨isDigit_replicate e, h.2⟩
    have hall : Nat.ofDigitChars 10 (['0'] ++ (List.replicate e '0' ++ ds)) 0 =
        Nat.ofDigitChars 10 ds 0 * 10 ^ 0 := by
      have hzeros := ofDigitChars_zeros_append ds (e + 1)
      simpa [List.replicate_succ] using hzeros
    refine worth_append (.pointed isDigits_zero hfraction) .absent (by simp [positional]) hall ?_
    simp only [List.length_append, List.length_replicate]
    omega

/-- The exponent of the scientific form. -/
theorem exponent_padded (width : Nat) (e : ℤ) :
    Exponent ('e' :: (if e < 0 then '-' else '+') :: padded width e.natAbs) e := by
  have hdigits := isDigits_padded width e.natAbs
  by_cases he : e < 0
  · have hx := Exponent.present (.inl rfl) .minus hdigits
    have hval : Number.signed true e.natAbs = e := by
      simp only [Number.signed, if_true]
      omega
    rw [ofDigitChars_padded, hval] at hx
    rwa [if_pos he]
  · have hx := Exponent.present (.inl rfl) .plus hdigits
    have hval : Number.signed false e.natAbs = e := by
      simp only [Number.signed, Bool.false_eq_true, if_false]
      omega
    rw [ofDigitChars_padded, hval] at hx
    rwa [if_neg he]

/-- The scientific form is worth its digits. -/
theorem worth_scientific (l : Layout) {ds : List Char} (h : IsDigits ds) (e : ℤ) :
    Worth (l.scientific ds e) (standing ds e) := by
  have hx := exponent_padded l.exponentDigits e
  obtain ⟨d, ds, rfl, hd⟩ := h.exists_cons
  have hfirst : IsDigits [d] := ⟨by simp, by simpa using hd⟩
  cases ds with
  | nil =>
    refine worth_append (.whole hfirst) hx rfl (by rw [Nat.pow_zero, Nat.mul_one]) ?_
    simp
  | cons d' ds =>
    have hrest : ∀ c ∈ d' :: ds, c.isDigit = true := fun c hc => h.2 c (List.mem_cons_of_mem _ hc)
    refine worth_append (.pointed hfirst hrest) hx rfl (by rw [Nat.pow_zero, Nat.mul_one]; rfl) ?_
    simp only [List.length_cons]
    omega

/-! ## The layout of a decimal -/

/-- What is stripped is zeros. -/
theorem exists_strip (ds : List Char) :
    ∃ k, ds = (ds.reverse.dropWhile (· == '0')).reverse ++ List.replicate k '0' := by
  have hzeros : ∀ c ∈ (ds.reverse.takeWhile (· == '0')).reverse, c = '0' := by
    intro c hc
    simpa using List.mem_takeWhile_imp (List.mem_reverse.1 hc)
  refine ⟨(ds.reverse.takeWhile (· == '0')).reverse.length, ?_⟩
  rw [← List.eq_replicate_of_mem hzeros, ← List.reverse_append, List.takeWhile_append_dropWhile,
    List.reverse_reverse]

section
variable {c k : Nat} {ds : List Char} (hk : digits c = ds ++ List.replicate k '0')
include hk

theorem mul_pow_eq : Nat.ofDigitChars 10 ds 0 * 10 ^ k = c := by
  rw [← ofDigitChars_append_zeros, ← hk, digits, Nat.ofDigitChars_ten_toDigits]

theorem isDigits_of_strip (hc : c ≠ 0) : IsDigits ds := by
  refine ⟨?_, fun x hx => (isDigits_digits c).2 x (hk ▸ List.mem_append_left _ hx)⟩
  rintro rfl
  exact hc (by simpa using (mul_pow_eq hk).symm)

theorem value_standing (e : ℤ) :
    (standing ds (e + (digits c).length - 1)).value = (⟨c, e⟩ : Decimal).value := by
  have hlength := congrArg List.length hk
  rw [List.length_append, List.length_replicate] at hlength
  have he : e + (digits c).length - 1 + 1 - ds.length = e + k := by omega
  rw [standing, he, ← Decimal.value_mul_pow, mul_pow_eq hk]

end

/-- What is laid out is worth the decimal. -/
theorem worth_decimal (l : Layout) {d : Decimal} (h : d.coefficient ≠ 0) :
    Worth (l.decimal d) d := by
  obtain ⟨k, hk⟩ := exists_strip (digits d.coefficient)
  have hdigits := isDigits_of_strip hk h
  have hvalue := value_standing hk d.exponent
  refine Worth.congr ?_ hvalue
  rw [decimal]
  split
  · exact worth_positional hdigits _
  · exact worth_scientific l hdigits _

/-! ## The text of a number -/

theorem sign_number (negative : Bool) : Sign (if negative then ['-'] else []) negative := by
  cases negative
  · exact .absent
  · exact .minus

/-- The text of a finite number spells a decimal that rounds to it. -/
theorem spells_number (l : Layout) (negative : Bool) {u : Nat} (hu : IsMagnitude u) :
    ∃ d, Spells (l.number (.finite negative u hu)) negative d ∧ d.RoundsTo u := by
  by_cases h0 : u = 0
  · subst h0
    have hspelled := Unsigned.mk (.pointed isDigits_zero isDigits_zero.2) .absent
    exact ⟨_, .mk (sign_number negative) hspelled, Decimal.roundsTo_zero rfl⟩
  · have hshort := Decimal.roundsTo_shortest hu
    obtain ⟨d, hd, hv⟩ := worth_decimal l (hshort.coefficient_ne_zero h0)
    refine ⟨d, ?_, hshort.congr hv⟩
    rw [number, if_neg h0]
    exact .mk (sign_number negative) hd

end Layout

/-! ## Reading it back -/

theorem Text.plainChar_of_ordinary {c : Char} (h : Numeral.Ordinary c) : plainChar c = c := by
  have hascii : ∀ n < 127, plainChar (Char.ofNat n) = Char.ofNat n := by decide
  have hc := hascii c.toNat h.2.1
  rwa [Char.ofNat_toNat] at hc

/-- A numeral that is a text by itself is read as it stands. -/
theorem toNumber_ofList {cs : List Char} {x : Number} (h : Numeral.IsNumeral cs)
    (hx : Numeral.read cs = some x) :
    '_' ∉ (String.ofList cs).toList ∧ (Value.text (String.ofList cs)).toNumber = .ok x := by
  have hunder : '_' ∉ (String.ofList cs).toList := by
    rw [String.toList_ofList]
    intro hm
    exact (h.ordinary _ hm).2.2 rfl
  have hmap : cs.map Text.plainChar = cs := by
    rw [List.map_congr_left fun c hc => Text.plainChar_of_ordinary (h.ordinary c hc), List.map_id']
  have hplain : Numeral.plain (String.ofList cs) = cs := by
    rw [Numeral.plain, String.toList_ofList, hmap]
    exact Text.trim_eq_self fun c hc => Text.isBlank_of_ordinary (h.ordinary c hc)
  refine ⟨hunder, ?_⟩
  simp only [Value.toNumber, Value.numberOfText?, List.contains_eq_mem, hunder, decide_false,
    Bool.false_eq_true, if_false, Number.ofNumeral?, hplain, hx]

theorem toText_infinite (negative : Bool) :
    Numeral.IsNumeral (Layout.standard.number (.infinite negative)) ∧
      Numeral.read (Layout.standard.number (.infinite negative)) = some (.infinite negative) := by
  refine ⟨.name (Layout.sign_number negative) ?_, ?_⟩
  · decide
  · cases negative <;> rfl

/-- **Printing and reading back.**  The text of a number has no underscore and
    is read as that number; the number nearest to the decimal that is spelled,
    the even one of two, is the one that was printed. -/
theorem toNumber_toText (x : Number) (hx : x ≠ .nan) :
    ∃ s, (Value.number x).toText = .ok s ∧ '_' ∉ s.toList ∧ (Value.text s).toNumber = .ok x ∧
      ∀ negative u hu, x = .finite negative u hu →
        ∃ d, Numeral.Spells s.toList negative d ∧ ∀ v, IsNearest d.units v ↔ v = u := by
  refine ⟨x.toText, rfl, ?_⟩
  cases x with
  | nan => exact absurd rfl hx
  | infinite negative =>
    obtain ⟨hnumeral, hread⟩ := toText_infinite negative
    obtain ⟨hunder, hback⟩ := toNumber_ofList hnumeral hread
    exact ⟨hunder, hback, nofun⟩
  | finite negative u hu =>
    obtain ⟨d, hspells, hrounds⟩ := Layout.standard.spells_number negative hu
    have hread := Numeral.read_of_spells hspells
    rw [Decimal.toNumber_eq_round, hrounds.round_eq hu] at hread
    obtain ⟨hunder, hback⟩ := toNumber_ofList (.decimal hspells) hread
    refine ⟨hunder, hback, ?_⟩
    rintro _ _ _ ⟨⟩
    refine ⟨d, ?_, fun _ => hrounds.isNearest_iff⟩
    rwa [Number.toText, String.toList_ofList]

theorem isMagnitude_one : IsMagnitude 1 := ⟨1, 0, by decide, by decide, by decide⟩

/-- The negative number next to zero. -/
theorem toNumber_toText_least :
    Number.finite true 1 isMagnitude_one ≠ .nan ∧
      (Value.number (.finite true 1 isMagnitude_one)).toText = .ok "-5e-324" ∧
      (Value.text "-5e-324").toNumber = .ok (.finite true 1 isMagnitude_one) := by
  have hne : Number.finite true 1 isMagnitude_one ≠ .nan := nofun
  have htext : (Value.number (.finite true 1 isMagnitude_one)).toText = .ok "-5e-324" := by
    decide +kernel
  obtain ⟨s, hs, _, hback, _⟩ := toNumber_toText _ hne
  obtain rfl : "-5e-324" = s := Except.ok.inj (htext.symm.trans hs)
  exact ⟨hne, htext, hback⟩

end GotoBasic
