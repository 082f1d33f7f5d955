/-
  The tables of blanks and digits of all scripts.

  * `exists_of_digitIn`, `exists_of_has`: what is found in a table lies in one
    of its ranges;
  * `isDigit_plainChar`: the plain form of a decimal digit is a digit.
-/
import GotoBasic.Decimal.Numeral

namespace GotoBasic

namespace Text

theorem exists_of_digitIn {zs : List Nat} {n d : Nat} (h : digitIn zs n = some d) :
    ∃ z ∈ zs, z ≤ n ∧ n < z + 10 ∧ d = n - z := by
  induction zs with
  | nil => simp [digitIn] at h
  | cons z zs ih =>
    rw [digitIn] at h
    split at h
    · simp at h
    · split at h
      · cases h
        exact ⟨z, by simp, by omega, by omega, rfl⟩
      · obtain ⟨z', hz', h'⟩ := ih h
        exact ⟨z', by simp [hz'], h'⟩

theorem exists_of_has {t : Table} {n : Nat} (h : t.has n = true) :
    ∃ r ∈ t, r.1 ≤ n ∧ n ≤ r.2 := by
  induction t with
  | nil => simp [Table.has] at h
  | cons r t ih =>
    rw [Table.has] at h
    split at h
    · simp at h
    · split at h
      · exact ⟨r, by simp, by omega, by omega⟩
      · obtain ⟨r', hr', h'⟩ := ih h
        exact ⟨r', by simp [hr'], h'⟩

/-- No digit is a blank. -/
theorem zeros_wideBlanks : ∀ z ∈ zeros, ∀ r ∈ wideBlanks, z + 10 ≤ r.1 ∨ r.2 < z := by decide

theorem isDigit_digitChar : ∀ d < 10, (Nat.digitChar d).isDigit = true := by decide

/-- The plain form of a decimal digit is one of 0 to 9. -/
theorem isDigit_plainChar {c : Char} (h : isDecimalDigit c = true) :
    (plainChar c).isDigit = true := by
  obtain ⟨d, hd⟩ := Option.isSome_iff_exists.1 h
  obtain ⟨z, hz, hzn, hnz, rfl⟩ := exists_of_digitIn hd
  have hblank : wideBlanks.has c.toNat = false := by
    rw [Bool.eq_false_iff]
    intro hb
    obtain ⟨r, hr, hrn, hnr⟩ := exists_of_has hb
    rcases zeros_wideBlanks z hz r hr with h' | h' <;> omega
  simp only [plainChar, hblank, hd, Bool.false_eq_true, if_false]
  exact isDigit_digitChar _ (by omega)

end Text

end GotoBasic
