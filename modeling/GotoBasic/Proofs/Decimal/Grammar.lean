/-
  The grammar of numerals.

      numeral   := sign? (mantissa exponent? | inf | infinity | nan)
      mantissa  := digits | digits . digit* | . digits
      exponent  := (e | E) sign? digits
      sign      := + | -

  The names may be written in small or large letters.

  * `Numeral.Sign`, `Numeral.Mantissa`, `Numeral.Exponent`: the parts, with
    what they stand for; `Numeral.Spells cs s d`: the characters `cs` spell the
    decimal `d` with the sign `s`;
  * `Numeral.IsNumeral cs`: the characters `cs` are a numeral;
  * `Numeral.readDecimal_eq_some_iff`, `Numeral.isSome_read_iff`: the reader
    reads the numerals of the grammar, and nothing else;
  * `Text.Plain c c'`: `c'` is the plain form of `c`, by the tables of blanks
    and digits;
  * `Text.IsNumeral s`: the plain form of `s` is a numeral between blanks;
  * `isSome_ofGrouped?`: one or more digits of any script are a numeral;
  * `toNumber_text_iff`: the texts that are numerals, and hold no underscore,
    have a number.
-/
import GotoBasic.Value
import GotoBasic.Proofs.Decimal.Digits
import Mathlib.Data.List.Forall2
import Mathlib.Data.List.TakeWhile

namespace GotoBasic

namespace Numeral

/-! ## The grammar -/

/-- One or more of the digits 0 to 9. -/
def IsDigits (cs : List Char) : Prop := cs ≠ [] ∧ ∀ c ∈ cs, c.isDigit = true

/-- A sign, or none; the flag tells whether it is a minus. -/
inductive Sign : List Char → Bool → Prop
  | absent : Sign [] false
  | plus : Sign ['+'] false
  | minus : Sign ['-'] true

/-- Digits with a point, or without: all the digits, and the number of those
    behind the point. -/
inductive Mantissa : List Char → List Char → Nat → Prop
  | whole {ds : List Char} : IsDigits ds → Mantissa ds ds 0
  | pointed {ds fs : List Char} : IsDigits ds → (∀ c ∈ fs, c.isDigit = true) →
      Mantissa (ds ++ '.' :: fs) (ds ++ fs) fs.length
  | fraction {fs : List Char} : IsDigits fs → Mantissa ('.' :: fs) fs fs.length

/-- An exponent, or none, which is zero. -/
inductive Exponent : List Char → Int → Prop
  | absent : Exponent [] 0
  | present {c : Char} {sign ds : List Char} {negative : Bool} : c = 'e' ∨ c = 'E' →
      Sign sign negative → IsDigits ds →
      Exponent (c :: (sign ++ ds)) (Number.signed negative (Nat.ofDigitChars 10 ds 0))

/-- A mantissa and an exponent spell a decimal. -/
inductive Unsigned : List Char → Decimal → Prop
  | mk {m x ds : List Char} {places : Nat} {e : Int} : Mantissa m ds places → Exponent x e →
      Unsigned (m ++ x) ⟨Nat.ofDigitChars 10 ds 0, e - places⟩

/-- The characters spell a decimal with a sign. -/
inductive Spells : List Char → Bool → Decimal → Prop
  | mk {sign body : List Char} {negative : Bool} {d : Decimal} : Sign sign negative →
      Unsigned body d → Spells (sign ++ body) negative d

/-- The names of numbers that have no digits. -/
def names : List (List Char) := ["inf".toList, "infinity".toList, "nan".toList]

/-- The characters are a numeral. -/
inductive IsNumeral : List Char → Prop
  | decimal {cs : List Char} {negative : Bool} {d : Decimal} : Spells cs negative d → IsNumeral cs
  | name {sign w : List Char} {negative : Bool} : Sign sign negative →
      w.map Char.toLower ∈ names → IsNumeral (sign ++ w)

/-! ## Signs and runs of digits -/

theorem IsDigits.exists_cons {ds : List Char} (h : IsDigits ds) :
    ∃ d ds', ds = d :: ds' ∧ d.isDigit = true := by
  obtain ⟨d, ds', rfl⟩ := List.exists_cons_of_ne_nil h.1
  exact ⟨d, ds', rfl, h.2 d (by simp)⟩

/-- No sign stands in front of the characters. -/
def Bare (cs : List Char) : Prop := ∀ c ∈ cs.head?, c ≠ '+' ∧ c ≠ '-'

theorem bare_cons {c : Char} (h : c ≠ '+' ∧ c ≠ '-') (cs : List Char) : Bare (c :: cs) := by
  intro c' hc'
  obtain rfl : c = c' := by simpa using hc'
  exact h

/-- What begins a mantissa is no sign. -/
theorem ne_sign {c : Char} (h : c.isDigit = true ∨ c = '.') : c ≠ '+' ∧ c ≠ '-' := by
  constructor <;> rintro rfl <;> revert h <;> decide

theorem splitSign_append {sign cs : List Char} {negative : Bool} (hs : Sign sign negative)
    (h : Bare cs) : splitSign (sign ++ cs) = (negative, cs) := by
  cases hs with
  | plus => rfl
  | minus => rfl
  | absent =>
    rw [List.nil_append]
    unfold splitSign
    split
    · exact absurd rfl (h '-' rfl).2
    · exact absurd rfl (h '+' rfl).1
    · rfl

/-- What is split off is a sign. -/
theorem exists_sign (cs : List Char) :
    ∃ sign, Sign sign (splitSign cs).1 ∧ cs = sign ++ (splitSign cs).2 := by
  unfold splitSign
  split
  · exact ⟨_, .minus, rfl⟩
  · exact ⟨_, .plus, rfl⟩
  · exact ⟨_, .absent, rfl⟩

/-- No digit stands in front of the characters. -/
def Digitless (cs : List Char) : Prop := ∀ c ∈ cs.head?, c.isDigit = false

theorem digitless_cons {c : Char} (h : c.isDigit = false) (cs : List Char) :
    Digitless (c :: cs) := by
  intro c' hc'
  obtain rfl : c = c' := by simpa using hc'
  exact h

theorem splitDigits_append {ds cs : List Char} (hd : ∀ c ∈ ds, c.isDigit = true)
    (h : Digitless cs) : splitDigits (ds ++ cs) = (ds, cs) := by
  have htake : cs.takeWhile Char.isDigit = [] := by
    cases cs with
    | nil => rfl
    | cons c cs => exact List.takeWhile_cons_of_neg (by simp [h c rfl])
  have hdrop : cs.dropWhile Char.isDigit = cs := by
    simpa [htake] using List.takeWhile_append_dropWhile (p := Char.isDigit) (l := cs)
  rw [splitDigits, List.takeWhile_append_of_pos hd, List.dropWhile_append_of_pos hd, htake, hdrop,
    List.append_nil]

/-- What is split off is digits. -/
theorem eq_append_of_splitDigits {cs ds rest : List Char} (h : splitDigits cs = (ds, rest)) :
    (∀ c ∈ ds, c.isDigit = true) ∧ cs = ds ++ rest := by
  obtain ⟨rfl, rfl⟩ := Prod.mk.inj h
  exact ⟨fun c hc => List.mem_takeWhile_imp hc, List.takeWhile_append_dropWhile.symm⟩

/-! ## Exponents -/

theorem readExponent_eq_some_iff {cs : List Char} {e : Int} :
    readExponent cs = some e ↔ Exponent cs e := by
  constructor
  · intro h
    cases cs with
    | nil =>
      obtain rfl : 0 = e := by simpa [readExponent] using h
      exact .absent
    | cons c cs =>
      obtain ⟨sign, hs, hcs⟩ := exists_sign cs
      simp only [readExponent, Option.ite_none_right_eq_some, Option.ite_none_left_eq_some,
        Option.some.injEq] at h
      obtain ⟨hc, hds, rfl⟩ := h
      have hdigits : IsDigits (splitSign cs).2 := by
        simpa [IsDigits] using hds
      nth_rewrite 1 [hcs]
      exact .present hc hs hdigits
  · intro h
    cases h with
    | absent => rfl
    | @present c sign ds negative hc hs hds =>
      have hbare : Bare ds := by
        obtain ⟨d, ds', rfl, hd⟩ := hds.exists_cons
        exact bare_cons (ne_sign (.inl hd)) ds'
      have hsplit := splitSign_append hs hbare
      have hdigits : (ds.isEmpty || !ds.all Char.isDigit) = false := by
        simpa [IsDigits] using hds
      simp only [readExponent, if_pos hc, hsplit, hdigits]
      rfl

/-! ## Decimals -/

theorem digitless_of_exponent {x : List Char} {e : Int} (h : Exponent x e) : Digitless x := by
  cases h with
  | absent => exact nofun
  | present hc _ _ => exact digitless_cons (by rcases hc with rfl | rfl <;> decide) _

theorem splitFraction_exponent {x : List Char} {e : Int} (h : Exponent x e) :
    splitFraction x = ([], x) := by
  cases h with
  | absent => rfl
  | present hc _ _ => rcases hc with rfl | rfl <;> rfl

theorem readDecimal_append {m x ds : List Char} {places : Nat} {e : Int} (hm : Mantissa m ds places)
    (hx : Exponent x e) : readDecimal (m ++ x) = some ⟨Nat.ofDigitChars 10 ds 0, e - places⟩ := by
  have hnext := digitless_of_exponent hx
  have hpoint : ∀ fs : List Char, Digitless ('.' :: fs) := digitless_cons (by decide)
  have hexp := readExponent_eq_some_iff.2 hx
  cases hm with
  | whole hds =>
    simp [readDecimal, splitDigits_append hds.2 hnext, splitFraction_exponent hx, hexp,
      hds.1]
  | pointed hds hfs =>
    simp [readDecimal, splitDigits_append hds.2 (hpoint _), splitFraction,
      splitDigits_append hfs hnext, hexp, hds.1]
  | fraction hfs =>
    have hnone : splitDigits ('.' :: (ds ++ x)) = ([], '.' :: (ds ++ x)) :=
      @splitDigits_append [] _ (by simp) (hpoint _)
    simp [readDecimal, hnone, splitFraction, splitDigits_append hfs.2 hnext, hexp, hfs.1]

/-- What is split off is a point with digits, or nothing. -/
theorem eq_append_of_splitFraction {cs fs rest : List Char} (h : splitFraction cs = (fs, rest)) :
    fs = [] ∧ cs = rest ∨ (∀ c ∈ fs, c.isDigit = true) ∧ cs = '.' :: (fs ++ rest) := by
  unfold splitFraction at h
  split at h
  · obtain ⟨hfs, hcs⟩ := eq_append_of_splitDigits h
    exact .inr ⟨hfs, congrArg _ hcs⟩
  · obtain ⟨rfl, rfl⟩ := Prod.mk.inj h
    exact .inl ⟨rfl, rfl⟩

theorem unsigned_of_readDecimal {cs : List Char} {d : Decimal} (h : readDecimal cs = some d) :
    Unsigned cs d := by
  obtain ⟨ds, rest, hwhole⟩ : ∃ ds rest, splitDigits cs = (ds, rest) := ⟨_, _, rfl⟩
  obtain ⟨fs, x, hfraction⟩ : ∃ fs x, splitFraction rest = (fs, x) := ⟨_, _, rfl⟩
  simp only [readDecimal, hwhole, hfraction, Option.ite_none_left_eq_some, Option.map_eq_some_iff,
    readExponent_eq_some_iff, Bool.and_eq_true, List.isEmpty_iff, not_and] at h
  obtain ⟨hne, e, he, rfl⟩ := h
  obtain ⟨hds, rfl⟩ := eq_append_of_splitDigits hwhole
  rcases eq_append_of_splitFraction hfraction with ⟨rfl, rfl⟩ | ⟨hfs, rfl⟩
  · have hdigits : IsDigits ds := ⟨fun h => hne h rfl, hds⟩
    simpa using Unsigned.mk (.whole hdigits) he
  · by_cases hnone : ds = []
    · subst hnone
      simpa using Unsigned.mk (.fraction ⟨hne rfl, hfs⟩) he
    · simpa using Unsigned.mk (.pointed ⟨hnone, hds⟩ hfs) he

theorem readDecimal_eq_some_iff {cs : List Char} {d : Decimal} :
    readDecimal cs = some d ↔ Unsigned cs d := by
  refine ⟨unsigned_of_readDecimal, ?_⟩
  rintro ⟨hm, hx⟩
  exact readDecimal_append hm hx

/-! ## Numerals -/

/-- A mantissa begins with a digit or a point. -/
theorem Unsigned.exists_cons {cs : List Char} {d : Decimal} (h : Unsigned cs d) :
    ∃ c cs', cs = c :: cs' ∧ (c.isDigit = true ∨ c = '.') := by
  obtain ⟨hm, _⟩ := h
  cases hm with
  | whole hds =>
    obtain ⟨c, cs', rfl, hc⟩ := hds.exists_cons
    exact ⟨c, _, rfl, .inl hc⟩
  | pointed hds _ =>
    obtain ⟨c, cs', rfl, hc⟩ := hds.exists_cons
    exact ⟨c, _, rfl, .inl hc⟩
  | fraction _ => exact ⟨_, _, rfl, .inr rfl⟩

theorem Unsigned.bare {cs : List Char} {d : Decimal} (h : Unsigned cs d) : Bare cs := by
  obtain ⟨c, cs', rfl, hc⟩ := h.exists_cons
  exact bare_cons (ne_sign hc) cs'

/-- No name begins with a digit or a point. -/
theorem Unsigned.map_notMem_names {cs : List Char} {d : Decimal} (h : Unsigned cs d) :
    cs.map Char.toLower ∉ names := by
  obtain ⟨c, cs', rfl, hc⟩ := h.exists_cons
  have hlower : ∀ n < 58, (Char.ofNat n).toLower ≠ 'i' ∧ (Char.ofNat n).toLower ≠ 'n' := by decide
  have hlt : c.toNat < 58 := by
    rcases hc with hc | rfl
    · exact Nat.lt_succ_of_le (Char.isDigit_iff_toNat.1 hc).2
    · decide
  have hfirst := hlower c.toNat hlt
  rw [Char.ofNat_toNat] at hfirst
  simp [names, hfirst]

theorem bare_of_name {w : List Char} (h : w.map Char.toLower ∈ names) : Bare w := by
  cases w with
  | nil => exact nofun
  | cons c w =>
    refine bare_cons ?_ w
    constructor <;> rintro rfl <;> revert h <;> simp [names]

/-- A name stands for an infinity or for no number. -/
theorem isSome_read_of_name {sign w : List Char} {negative : Bool} (hs : Sign sign negative)
    (h : w.map Char.toLower ∈ names) : (read (sign ++ w)).isSome = true := by
  simp only [read, splitSign_append hs (bare_of_name h)]
  split
  · rfl
  · split
    · rfl
    · simp_all [names]

/-- The spelling of a decimal stands for the number nearest to it. -/
theorem read_of_spells {cs : List Char} {negative : Bool} {d : Decimal}
    (h : Spells cs negative d) : read cs = some (d.toNumber negative) := by
  obtain ⟨hs, h⟩ := h
  have hname := h.map_notMem_names
  simp only [names, List.mem_cons, List.not_mem_nil, or_false, not_or] at hname
  obtain ⟨hinf, hinfinity, hnan⟩ := hname
  simp only [read, splitSign_append hs h.bare, hinf, hinfinity, hnan, or_self,
    if_false, readDecimal_eq_some_iff.2 h, Option.map_some]

theorem isNumeral_of_isSome_read {cs : List Char} (h : (read cs).isSome = true) :
    IsNumeral cs := by
  obtain ⟨sign, hs, hcs⟩ := exists_sign cs
  rw [hcs]
  simp only [read] at h
  by_cases hname : (splitSign cs).2.map Char.toLower ∈ names
  · exact .name hs hname
  · simp only [names, List.mem_cons, List.not_mem_nil, or_false, not_or] at hname
    obtain ⟨hinf, hinfinity, hnan⟩ := hname
    simp only [hinf, hinfinity, hnan, or_self, if_false, Option.isSome_map] at h
    obtain ⟨d, hd⟩ := Option.isSome_iff_exists.1 h
    exact .decimal (.mk hs (readDecimal_eq_some_iff.1 hd))

/-- The reader reads the numerals. -/
theorem isSome_read_iff {cs : List Char} : (read cs).isSome = true ↔ IsNumeral cs := by
  refine ⟨isNumeral_of_isSome_read, ?_⟩
  intro h
  cases h with
  | decimal hd =>
    rw [read_of_spells hd]
    rfl
  | name hs hw => exact isSome_read_of_name hs hw

/-- Without underscores there is nothing to ungroup. -/
theorem ungroup_eq_self {cs : List Char} (h : '_' ∉ cs) (before : Char) :
    ungroup before cs = cs := by
  fun_induction ungroup before cs <;> simp_all

/-! ## The characters of numerals -/

/-- A character of ASCII that is shown, other than the underscore. -/
def Ordinary (c : Char) : Prop := 32 < c.toNat ∧ c.toNat < 127 ∧ c ≠ '_'

instance (c : Char) : Decidable (Ordinary c) := inferInstanceAs (Decidable (_ ∧ _ ∧ _))

theorem ordinary_of_isDigit {c : Char} (h : c.isDigit = true) : Ordinary c := by
  have h1 : 48 ≤ c.toNat := (Char.isDigit_iff_toNat.1 h).1
  have h2 : c.toNat ≤ 57 := (Char.isDigit_iff_toNat.1 h).2
  refine ⟨by omega, by omega, ?_⟩
  rintro rfl
  exact absurd h (by decide)

theorem IsDigits.ordinary {ds : List Char} (h : IsDigits ds) : ∀ c ∈ ds, Ordinary c :=
  fun c hc => ordinary_of_isDigit (h.2 c hc)

theorem ordinary_of_toLower {c : Char} (h : Ordinary c.toLower) : Ordinary c := by
  by_cases hc : 'A' ≤ c ∧ c ≤ 'Z'
  · have h1 : 65 ≤ c.toNat := hc.1
    have h2 : c.toNat ≤ 90 := hc.2
    refine ⟨by omega, by omega, ?_⟩
    rintro rfl
    exact absurd h2 (by decide)
  · have hlower : c.toLower = c := dif_neg hc
    rwa [hlower] at h

theorem Sign.ordinary {sign : List Char} {negative : Bool} (h : Sign sign negative) :
    ∀ c ∈ sign, Ordinary c := by
  intro c hc
  cases h with
  | absent => simp at hc
  | plus => rw [List.mem_singleton.1 hc]; decide
  | minus => rw [List.mem_singleton.1 hc]; decide

theorem Mantissa.ordinary {m ds : List Char} {places : Nat} (h : Mantissa m ds places) :
    ∀ c ∈ m, Ordinary c := by
  have hpoint : Ordinary '.' := by decide
  cases h with
  | whole hds => exact hds.ordinary
  | pointed hds hfs =>
    refine List.forall_mem_append.2 ⟨hds.ordinary, List.forall_mem_cons.2 ⟨hpoint, ?_⟩⟩
    exact fun c hc => ordinary_of_isDigit (hfs c hc)
  | fraction hfs => exact List.forall_mem_cons.2 ⟨hpoint, hfs.ordinary⟩

theorem Exponent.ordinary {x : List Char} {e : Int} (h : Exponent x e) : ∀ c ∈ x, Ordinary c := by
  cases h with
  | absent => simp
  | present he hs hds =>
    refine List.forall_mem_cons.2 ⟨?_, List.forall_mem_append.2 ⟨hs.ordinary, hds.ordinary⟩⟩
    rcases he with rfl | rfl <;> decide

theorem IsNumeral.ordinary {cs : List Char} (h : IsNumeral cs) : ∀ c ∈ cs, Ordinary c := by
  cases h with
  | decimal hd =>
    obtain ⟨hs, hm, hx⟩ := hd
    exact List.forall_mem_append.2 ⟨hs.ordinary, List.forall_mem_append.2 ⟨hm.ordinary, hx.ordinary⟩⟩
  | name hs hw =>
    have hnames : names.all (·.all (decide <| Ordinary ·)) = true := by decide
    refine List.forall_mem_append.2 ⟨hs.ordinary, fun c hc => ordinary_of_toLower ?_⟩
    have hletters := List.all_eq_true.1 hnames _ hw
    exact of_decide_eq_true (List.all_eq_true.1 hletters _ (List.mem_map_of_mem hc))

end Numeral

/-! ## Plain forms -/

namespace Text

/-- The blanks that may stand around a numeral. -/
def blanks : List Char := [' ', '\t', '\n', '\x0b', '\x0c', '\r']

theorem isBlank_iff {c : Char} : isBlank c = true ↔ c ∈ blanks := by
  simp [isBlank, blanks, or_assoc]

/-- The plain form of a character: a blank beyond ASCII becomes a space, a
    digit the digit 0 to 9 of the same value, and any other one stays. -/
inductive Plain : Char → Char → Prop
  | blank {c : Char} {r : Nat × Nat} : r ∈ wideBlanks → r.1 ≤ c.toNat → c.toNat ≤ r.2 →
      Plain c ' '
  | digit {c : Char} {z d : Nat} : z ∈ zeros → d < 10 → c.toNat = z + d → Plain c d.digitChar
  | other {c : Char} : (∀ r ∈ wideBlanks, c.toNat < r.1 ∨ r.2 < c.toNat) →
      (∀ z ∈ zeros, c.toNat < z ∨ z + 10 ≤ c.toNat) → Plain c c

/-- The text is a numeral: its plain form is one, between blanks. -/
def IsNumeral (s : String) : Prop :=
  ∃ front core back : List Char, List.Forall₂ Plain s.toList (front ++ core ++ back) ∧
    (∀ c ∈ front, c ∈ blanks) ∧ (∀ c ∈ back, c ∈ blanks) ∧ Numeral.IsNumeral core

/-! ### Tables -/

/-- A sorted table has the code points of its ranges. -/
theorem has_of_mem {t : Table} (ht : t.Pairwise fun r r' => r.1 ≤ r'.1) {r : Nat × Nat} {n : Nat}
    (hr : r ∈ t) (h1 : r.1 ≤ n) (h2 : n ≤ r.2) : t.has n = true := by
  induction t with
  | nil => simp at hr
  | cons r' t ih =>
    obtain ⟨hfirst, hrest⟩ := List.pairwise_cons.1 ht
    rw [Table.has]
    rcases List.mem_cons.1 hr with rfl | hr
    · rw [if_neg (by omega), if_pos h2]
    · have hle := hfirst r hr
      rw [if_neg (by omega)]
      split
      · rfl
      · exact ih hrest hr

/-- A code point in one of the runs of ten has its place there as value. -/
theorem digitIn_of_mem {zs : List Nat} (hzs : zs.Pairwise fun z z' => z + 10 ≤ z') {z d : Nat}
    (hz : z ∈ zs) (hd : d < 10) : digitIn zs (z + d) = some d := by
  induction zs with
  | nil => simp at hz
  | cons z' zs ih =>
    obtain ⟨hfirst, hrest⟩ := List.pairwise_cons.1 hzs
    rw [digitIn]
    rcases List.mem_cons.1 hz with rfl | hz
    · rw [if_neg (by omega), if_pos (by omega), Nat.add_sub_cancel_left]
    · have hle := hfirst z hz
      rw [if_neg (by omega), if_neg (by omega)]
      exact ih hrest hz

theorem has_eq_false {t : Table} {n : Nat} (h : ∀ r ∈ t, n < r.1 ∨ r.2 < n) :
    t.has n = false := by
  rw [Bool.eq_false_iff]
  intro ht
  obtain ⟨r, hr, h1, h2⟩ := exists_of_has ht
  rcases h r hr with h' | h' <;> omega

theorem digitIn_eq_none {zs : List Nat} {n : Nat} (h : ∀ z ∈ zs, n < z ∨ z + 10 ≤ n) :
    digitIn zs n = none := by
  rw [Option.eq_none_iff_forall_ne_some]
  intro d hd
  obtain ⟨z, hz, h1, h2, _⟩ := exists_of_digitIn hd
  rcases h z hz with h' | h' <;> omega

theorem pairwise_wideBlanks : wideBlanks.Pairwise fun r r' => r.1 ≤ r'.1 := by decide

theorem pairwise_zeros : zeros.Pairwise fun z z' => z + 10 ≤ z' := by decide

/-- Every character has the plain form that is computed. -/
theorem plain_plainChar (c : Char) : Plain c (plainChar c) := by
  unfold plainChar
  by_cases hblank : wideBlanks.has c.toNat = true
  · rw [if_pos hblank]
    obtain ⟨r, hr, h1, h2⟩ := exists_of_has hblank
    exact .blank hr h1 h2
  · rw [if_neg hblank]
    split
    · rename_i d hd
      obtain ⟨z, hz, h1, h2, rfl⟩ := exists_of_digitIn hd
      exact .digit hz (by omega) (by omega)
    · rename_i hnone
      refine .other ?_ ?_
      · intro r hr
        by_contra h
        exact hblank (has_of_mem pairwise_wideBlanks hr (by omega) (by omega))
      · intro z hz
        by_contra h
        have hd := digitIn_of_mem pairwise_zeros hz (d := c.toNat - z) (by omega)
        rw [Nat.add_sub_cancel' (by omega)] at hd
        rw [decimalDigit?, hd] at hnone
        exact nomatch hnone

/-- A character has no other plain form. -/
theorem Plain.plainChar_eq {c c' : Char} (h : Plain c c') : plainChar c = c' := by
  cases h with
  | blank hr h1 h2 => rw [plainChar, if_pos (has_of_mem pairwise_wideBlanks hr h1 h2)]
  | @digit z d hz hd hc =>
    have hblank : wideBlanks.has c.toNat = false := has_eq_false fun r hr => by
      rcases zeros_wideBlanks z hz r hr with h' | h' <;> omega
    have hdigit : decimalDigit? c = some d := by
      rw [decimalDigit?, hc, digitIn_of_mem pairwise_zeros hz hd]
    simp only [plainChar, hblank, hdigit, Bool.false_eq_true, if_false]
  | other hblank hdigit =>
    simp [plainChar, has_eq_false hblank, decimalDigit?, digitIn_eq_none hdigit]

theorem forall₂_plain_iff {cs cs' : List Char} :
    List.Forall₂ Plain cs cs' ↔ cs.map plainChar = cs' := by
  have hplain : Plain = fun c c' => plainChar c = c' := by
    funext c c'
    exact propext ⟨Plain.plainChar_eq, fun h => h ▸ plain_plainChar c⟩
  rw [hplain, ← List.forall₂_map_left_iff, List.forall₂_eq_eq_eq]

/-! ### Blanks around a numeral -/

theorem isBlank_of_ordinary {c : Char} (h : Numeral.Ordinary c) : isBlank c = false := by
  rw [Bool.eq_false_iff]
  intro hb
  have hmem := isBlank_iff.1 hb
  simp only [blanks, List.mem_cons, List.not_mem_nil, or_false] at hmem
  rcases hmem with rfl | rfl | rfl | rfl | rfl | rfl <;> exact absurd h (by decide)

/-- Blanks at both ends are dropped. -/
theorem trim_append {front core back : List Char} (hfront : ∀ c ∈ front, isBlank c = true)
    (hcore : ∀ c ∈ core, isBlank c = false) (hback : ∀ c ∈ back, isBlank c = true) :
    trim (front ++ core ++ back) = core := by
  have hdrop : ∀ ds es : List Char, ds ≠ [] → (∀ c ∈ ds, isBlank c = false) →
      (ds ++ es).dropWhile isBlank = ds ++ es := by
    intro ds es hne hds
    obtain ⟨d, ds, rfl⟩ := List.exists_cons_of_ne_nil hne
    exact List.dropWhile_cons_of_neg (by simp [hds d])
  rw [trim, List.append_assoc, List.dropWhile_append_of_pos hfront]
  by_cases hne : core = []
  · subst hne
    rw [List.nil_append, List.dropWhile_eq_nil_iff.2 hback]
    rfl
  · have hrev := hdrop core.reverse [] (by simpa using hne) (by simpa using hcore)
    rw [List.append_nil] at hrev
    rw [hdrop core back hne hcore, List.reverse_append,
      List.dropWhile_append_of_pos (by simpa using hback), hrev, List.reverse_reverse]

theorem trim_eq_self {cs : List Char} (h : ∀ c ∈ cs, isBlank c = false) : trim cs = cs := by
  simpa using @trim_append [] cs [] (by simp) h (by simp)

/-- What is dropped is blanks. -/
theorem exists_trim (cs : List Char) : ∃ front back : List Char,
    cs = front ++ trim cs ++ back ∧ (∀ c ∈ front, isBlank c = true) ∧
      (∀ c ∈ back, isBlank c = true) := by
  let rest := (cs.dropWhile isBlank).reverse
  refine ⟨cs.takeWhile isBlank, (rest.takeWhile isBlank).reverse, ?_, ?_, ?_⟩
  · have hrest : (rest.dropWhile isBlank).reverse ++ (rest.takeWhile isBlank).reverse =
        cs.dropWhile isBlank := by
      rw [← List.reverse_append, List.takeWhile_append_dropWhile, List.reverse_reverse]
    rw [trim, List.append_assoc, hrest, List.takeWhile_append_dropWhile]
  · exact fun c hc => List.mem_takeWhile_imp hc
  · exact fun c hc => List.mem_takeWhile_imp (List.mem_reverse.1 hc)

/-- The texts whose plain characters are a numeral, by the grammar. -/
theorem isNumeral_iff {s : String} : IsNumeral s ↔ Numeral.IsNumeral (Numeral.plain s) := by
  simp only [IsNumeral, forall₂_plain_iff, ← isBlank_iff]
  constructor
  · rintro ⟨front, core, back, hs, hfront, hback, hcore⟩
    rw [Numeral.plain, hs, trim_append hfront (fun c hc => isBlank_of_ordinary (hcore.ordinary c hc))
      hback]
    exact hcore
  · intro h
    obtain ⟨front, back, hs, hfront, hback⟩ := exists_trim (s.toList.map plainChar)
    exact ⟨front, _, back, hs, hfront, hback, h⟩

end Text

/-! ## Texts that have a number -/

/-- **Digits are a numeral**: a text of one or more decimal digits, of any
    script, stands for a number. -/
theorem isSome_ofGrouped? {s : String} (hne : s.toList ≠ [])
    (h : ∀ c ∈ s.toList, Text.isDecimalDigit c = true) : (Number.ofGrouped? s).isSome = true := by
  have hdigits : Numeral.IsDigits (s.toList.map Text.plainChar) := by
    refine ⟨by simpa using hne, ?_⟩
    simp only [List.mem_map]
    rintro _ ⟨c, hc, rfl⟩
    exact Text.isDigit_plainChar (h c hc)
  have hplain : Numeral.plain s = s.toList.map Text.plainChar :=
    Text.trim_eq_self fun c hc => Text.isBlank_of_ordinary (hdigits.ordinary c hc)
  have hunder : '_' ∉ s.toList.map Text.plainChar :=
    fun hm => (hdigits.ordinary _ hm).2.2 rfl
  have hspells := Numeral.Spells.mk .absent (.mk (.whole hdigits) .absent)
  rw [List.nil_append, List.append_nil] at hspells
  rw [Number.ofGrouped?, hplain, Numeral.ungroup_eq_self hunder]
  exact Numeral.isSome_read_iff.2 (.decimal hspells)

theorem isSome_ofNumeral?_iff {s : String} :
    (Number.ofNumeral? s).isSome = true ↔ Text.IsNumeral s := by
  rw [Number.ofNumeral?, Numeral.isSome_read_iff, Text.isNumeral_iff]

theorem isSome_numberOfText?_iff {s : String} :
    (Value.numberOfText? s).isSome = true ↔ '_' ∉ s.toList ∧ Text.IsNumeral s := by
  rw [← isSome_ofNumeral?_iff, Value.numberOfText?]
  by_cases h : '_' ∈ s.toList <;> simp [h]

/-- **The texts that have a number** are the numerals without underscores;
    any other text fails as one that is not numeric. -/
theorem toNumber_text_iff (s : String) :
    ((∃ x, (Value.text s).toNumber = .ok x) ↔ '_' ∉ s.toList ∧ Text.IsNumeral s) ∧
      ((Value.text s).toNumber = .error (.notNumeric s) ↔ ¬ ('_' ∉ s.toList ∧ Text.IsNumeral s)) ∧
        (RunError.notNumeric s).name = "EvalError" := by
  rw [← isSome_numberOfText?_iff, Value.toNumber]
  cases Value.numberOfText? s with
  | none => simp [RunError.name]
  | some x => simp [RunError.name]

/-- Digits and blanks of any script count, a separator of fields does not. -/
example : (Value.numberOfText? "\u3000+١٢.e-٣\n").isSome = true ∧
    (Value.numberOfText? "1\x1c").isSome = false := by decide +kernel

end GotoBasic
