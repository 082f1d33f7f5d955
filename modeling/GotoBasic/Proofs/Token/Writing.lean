/-
  Texts for given tokens.

  * `Token.written`: a text for a token, with a blank behind a word, a number
    or a label;
  * `munch_written`: the text written for well spelled tokens consists of
    their lexemes;
  * `exists_source`: any well spelled tokens are those of a text.
-/
import GotoBasic.Proofs.Token.Munch
import GotoBasic.Proofs.Decimal.Digits
import GotoBasic.Proofs.Token.Spelling

namespace GotoBasic

/-! ## Classes of characters -/

namespace Text

/-- No decimal digit is a letter. -/
theorem zeros_letters : ∀ z ∈ zeros, ∀ r ∈ letters, z + 10 ≤ r.1 ∨ r.2 < z := by
  have hall : (zeros.all fun z => letters.all fun r => (z + 10).ble r.1 || r.2.blt z) = true := by
    decide +kernel
  intro z hz r hr
  have hzr := List.all_eq_true.1 (List.all_eq_true.1 hall z hz) r hr
  rcases (Bool.or_eq_true _ _).mp hzr with h | h
  · exact .inl (Nat.le_of_ble_eq_true h)
  · exact .inr (Nat.le_of_ble_eq_true h)

theorem isLetter_eq_false {c : Char} (h : isDecimalDigit c = true) : isLetter c = false := by
  obtain ⟨d, hd⟩ := Option.isSome_iff_exists.1 h
  obtain ⟨z, hz, hzn, hnz, -⟩ := exists_of_digitIn hd
  rw [Bool.eq_false_iff]
  intro hl
  obtain ⟨r, hr, hrn, hnr⟩ := exists_of_has hl
  rcases zeros_letters z hz r hr with h' | h' <;> omega

end Text

theorem lookup_signs_eq_none {isOf : Char → Bool} {c : Char} (hs : ∀ s ∈ signs, isOf s.1 = false)
    (hc : isOf c = true) : signs.lookup c = none := by
  refine List.lookup_eq_none_iff.2 fun s hm => ?_
  have := hs s hm
  rw [bne_iff_ne]
  rintro rfl
  simp [this] at hc

theorem bite_letter {c : Char} (hc : Text.isLetter c = true) (cs : List Char) :
    bite c cs = biteRun .word Text.isWordChar [c] cs := by
  simp [bite, lookup_signs_eq_none (by decide) hc, hc]

theorem bite_digit {c : Char} (hc : Text.isDecimalDigit c = true) (cs : List Char) :
    bite c cs = biteRun .number Text.isDecimalDigit [c] cs := by
  simp [bite, lookup_signs_eq_none (by decide) hc, Text.isLetter_eq_false hc, hc]

theorem munch_space (cs : List Char) : munch (' ' :: cs) = munch cs := by
  have hb : bite ' ' cs = (none, cs) := rfl
  rw [munch, hb]
  rfl

theorem biteRun_append {kind : TokenKind} {isInside : Char → Bool} {run : List Char} {d : Char}
    (hrun : ∀ c ∈ run, isInside c = true) (hd : isInside d = false) (read cs : List Char) :
    biteRun kind isInside read (run ++ d :: cs) =
      (some ⟨kind, String.ofList (read ++ run)⟩, d :: cs) := by
  simp [biteRun, List.takeWhile_append_of_pos hrun, List.dropWhile_append_of_pos hrun, hd]

/-! ## Writing -/

/-- A text for a token. -/
def Token.written (t : Token) : List Char :=
  match t.kind with
  | .word | .number => t.text.toList ++ [' ']
  | .string => '"' :: (t.text.toList ++ ['"'])
  | .label => ':' :: (t.text.toList ++ [' '])
  | _ => t.text.toList

theorem munch_written_word {text : String} (h : IsWordSpelling text.toList) (cs : List Char) :
    munch (text.toList ++ ' ' :: cs) = ⟨.word, text⟩ :: munch cs := by
  obtain ⟨c, rest, htext, hc, hrest⟩ := h
  rw [htext, List.cons_append, munch, bite_letter hc, biteRun_append hrest (by decide)]
  simp [munch_space, ← htext]

theorem munch_written_number {text : String} (h : IsDigitSpelling text.toList)
    (cs : List Char) : munch (text.toList ++ ' ' :: cs) = ⟨.number, text⟩ :: munch cs := by
  obtain ⟨c, rest, htext⟩ := List.exists_cons_of_ne_nil h.1
  have hdigits := h.2
  simp only [htext, List.mem_cons, forall_eq_or_imp] at hdigits
  rw [htext, List.cons_append, munch, bite_digit hdigits.1, biteRun_append hdigits.2 (by decide)]
  simp [munch_space, ← htext]

theorem munch_written_string {text : String} (h : '"' ∉ text.toList) (cs : List Char) :
    munch ('"' :: (text.toList ++ '"' :: cs)) = ⟨.string, text⟩ :: munch cs := by
  have hb : bite '"' (text.toList ++ '"' :: cs) =
      biteString [] (text.toList ++ '"' :: cs) := rfl
  have hrun : ∀ c ∈ text.toList, (c != '"') = true := by
    intro c hc
    rw [bne_iff_ne]
    rintro rfl
    exact h hc
  rw [munch, hb]
  simp [biteString, List.takeWhile_append_of_pos hrun, List.dropWhile_append_of_pos hrun]

theorem munch_written_label {text : String} (h : IsWordSpelling text.toList) (cs : List Char) :
    munch (':' :: (text.toList ++ ' ' :: cs)) = ⟨.label, text⟩ :: munch cs := by
  obtain ⟨c, rest, htext, hc, hrest⟩ := h
  have hb : bite ':' (text.toList ++ ' ' :: cs) = biteLabel (text.toList ++ ' ' :: cs) := rfl
  have hblank : ¬ (c == ' ' || c == '\t') = true := by
    intro hblank
    simp only [Bool.or_eq_true, beq_iff_eq] at hblank
    rcases hblank with rfl | rfl <;> exact absurd hc (by decide)
  have hw : Text.isWordChar c = true := by simp [Text.isWordChar, hc]
  rw [munch, hb, htext, List.cons_append, biteLabel_cons, if_neg hblank, if_pos hc,
    biteRun_cons, if_pos hw, biteRun_append hrest (by decide)]
  simp [munch_space, ← htext]

theorem munch_written_sign {text : String} (c : Char) {kind : TokenKind}
    (htext : text = String.singleton c) (hc : signs.lookup c = some kind) (cs : List Char) :
    munch (text.toList ++ cs) = ⟨kind, text⟩ :: munch cs := by
  subst htext
  have hb : bite c cs = (some ⟨kind, String.singleton c⟩, cs) := by simp [bite, hc]
  rw [String.toList_singleton, List.singleton_append, munch, hb]
  rfl

theorem munch_written_cons {t : Token} (hs : t.Spelled) (hk : t.kind ≠ .eof) (cs : List Char) :
    munch (t.written ++ cs) = t.lexeme :: munch cs := by
  obtain ⟨kind, text, place⟩ := t
  cases kind with
  | word => simpa [Token.written, Token.lexeme] using munch_written_word hs cs
  | number => simpa [Token.written, Token.lexeme] using munch_written_number hs cs
  | string => simpa [Token.written, Token.lexeme] using munch_written_string hs cs
  | label => simpa [Token.written, Token.lexeme] using munch_written_label hs cs
  | line => exact munch_written_sign '\n' hs rfl cs
  | equals => exact munch_written_sign '=' hs rfl cs
  | operator =>
    have hs : text ∈ ["+", "-", "*", "/", "<", ">"] := hs
    simp only [List.mem_cons, List.not_mem_nil, or_false] at hs
    rcases hs with h | h | h | h | h | h
    · exact munch_written_sign '+' h rfl cs
    · exact munch_written_sign '-' h rfl cs
    · exact munch_written_sign '*' h rfl cs
    · exact munch_written_sign '/' h rfl cs
    · exact munch_written_sign '<' h rfl cs
    · exact munch_written_sign '>' h rfl cs
  | leftParen => exact munch_written_sign '(' hs rfl cs
  | rightParen => exact munch_written_sign ')' hs rfl cs
  | eof => exact absurd rfl hk

theorem munch_written {ts : List Token} (hs : ∀ t ∈ ts, t.Spelled)
    (hk : ∀ t ∈ ts, t.kind ≠ .eof) (cs : List Char) :
    munch (ts.flatMap Token.written ++ cs) = ts.map Token.lexeme ++ munch cs := by
  induction ts with
  | nil => rfl
  | cons t ts ih =>
    rw [List.flatMap_cons, List.append_assoc, munch_written_cons (hs t (by simp)) (hk t (by simp)),
      ih (fun u hu => hs u (by simp [hu])) fun u hu => hk u (by simp [hu])]
    rfl

/-- **Any well spelled tokens are those of a text**, with a line break behind
    them. -/
theorem exists_source {ts : List Token} (hs : ∀ t ∈ ts, t.Spelled) (hk : ∀ t ∈ ts, t.kind ≠ .eof) :
    ∃ source, (Token.scan source).map Token.lexeme =
      ts.map Token.lexeme ++ [⟨.line, "\n"⟩, ⟨.eof, ""⟩] := by
  refine ⟨String.ofList (ts.flatMap Token.written ++ ['\n']), ?_⟩
  have hclosed : closed (ts.flatMap Token.written ++ ['\n']) =
      ts.flatMap Token.written ++ ['\n'] := by simp [closed]
  have hline : munch ['\n'] = [⟨.line, "\n"⟩, ⟨.eof, ""⟩] := by decide +kernel
  rw [lexemes_scan_closed, String.toList_ofList, hclosed, munch_written hs hk, hline]

end GotoBasic
