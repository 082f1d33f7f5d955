/-
  Where the tokens of a text lie.

  * `Place.ofOffset cs k`: the line and column of the offset `k` in the text,
    counted from the line breaks in front of it;
  * `Token.WrittenAs`: what a token looks like in a text; `Span cs`: a token
    with the piece of the text `cs` that it was read from;
  * `Mode.Reads`: the token under way starts behind the last one, and all
    that was read of it stands there; `Mode.reads_move`: a move keeps this,
    and a token that it finishes was read from there;
  * `scan_spans`: the tokens of a text have spans, one behind the other.
-/
import GotoBasic.Proofs.Token.Blocks
import Mathlib.Data.List.DropRight

namespace GotoBasic

/-! ## Places and offsets -/

/-- The offset just behind the last line break among the first `k`
    characters. -/
def lineStart (cs : List Char) (k : Nat) : Nat := ((cs.take k).rdropWhile (· != '\n')).length

/-- The place of an offset: its line counts the line breaks in front of it, and
    its column the characters from the last one on. -/
def Place.ofOffset (cs : List Char) (k : Nat) : Place :=
  ⟨1 + (cs.take k).count '\n', (k : Int) - lineStart cs k + 1⟩

/-- The place behind the first characters of a text is that of their number. -/
theorem Place.start_after_eq (front rest : List Char) :
    Place.start.after front = .ofOffset (front ++ rest) front.length := by
  rw [ofOffset, lineStart, List.take_left]
  induction front using List.reverseRecOn with
  | nil => rfl
  | append_singleton front c ih =>
    have hafter : Place.start.after (front ++ [c]) =
        Scanner.placeAfter c (Place.start.after front) := by
      simp [Place.after]
    rw [hafter, ih]
    by_cases hc : c = '\n'
    · rw [List.rdropWhile_concat_neg _ _ _ (by simp [hc])]
      simp [Scanner.placeAfter, hc, Int.add_assoc]
    · rw [List.rdropWhile_concat_pos _ _ _ (by simp [hc])]
      simp [Scanner.placeAfter, hc]
      omega

/-- Behind the text only the column grows. -/
theorem Place.ofOffset_past (cs : List Char) (n : Nat) : Place.ofOffset cs (cs.length + n) =
    ⟨(Place.ofOffset cs cs.length).line, (Place.ofOffset cs cs.length).column + n⟩ := by
  simp only [ofOffset, lineStart, List.take_length, List.take_of_length_le (Nat.le_add_right _ n),
    Place.mk.injEq, true_and]
  omega

theorem Scanner.place_advanceBy (k : Nat) (s : Scanner) : (advanceBy k s).place =
    ⟨(s.place.after (s.rest.take k)).line,
      (s.place.after (s.rest.take k)).column + (k - s.rest.length : Nat)⟩ := by
  induction k generalizing s with
  | zero => simp [advanceBy, Place.after]
  | succ k ih =>
    obtain ⟨rest, n, p⟩ := s
    cases rest with
    | nil =>
      rw [advanceBy, ih]
      simp [advance, Place.after]
      omega
    | cons c cs =>
      rw [advanceBy, ih]
      simp [advance, Place.after]

theorem Scanner.place_advanceBy_ofText (source : String) (k : Nat) :
    (advanceBy k (ofText source)).place = .ofOffset (closed source.toList) k := by
  rw [place_advanceBy]
  show Place.mk (Place.start.after ((closed source.toList).take k)).line
    ((Place.start.after ((closed source.toList).take k)).column + _) = _
  rcases Nat.le_total k (closed source.toList).length with hk | hk
  · have hplace := Place.start_after_eq ((closed source.toList).take k)
      ((closed source.toList).drop k)
    rw [List.take_append_drop, List.length_take_of_le hk] at hplace
    simp [hplace, ofText, Nat.sub_eq_zero_of_le hk]
  · obtain ⟨n, rfl⟩ := Nat.exists_eq_add_of_le hk
    have hplace := Place.start_after_eq (closed source.toList) []
    rw [List.append_nil] at hplace
    rw [Place.ofOffset_past, List.take_of_length_le hk, hplace]
    simp [ofText]

/-! ## Spans -/

/-- What a token looks like in a text. -/
def Token.WrittenAs (t : Token) (cs : List Char) : Prop :=
  match t.kind with
  | .string => cs = '"' :: (t.text.toList ++ ['"'])
  | .label =>
    ∃ blanks, (∀ c ∈ blanks, c = ' ' ∨ c = '\t') ∧ cs = ':' :: (blanks ++ t.text.toList)
  | .eof => cs = []
  | _ => cs = t.text.toList

/-- A token, and the piece of the text `cs` that it was read from. -/
structure Span (cs : List Char) where
  token : Token
  start : Nat
  spelling : List Char
  place : token.place = .ofOffset cs start
  written : token.WrittenAs spelling
  found : spelling <+: cs.drop start
  last : token.kind = .eof → start = cs.length

namespace Span

variable {cs : List Char}

/-- The offset behind a span. -/
def stop (a : Span cs) : Nat := a.start + a.spelling.length

/-- One span starts and ends in front of another. -/
def Before (a b : Span cs) : Prop := a.start < b.start ∧ a.stop ≤ b.start

/-- The span of a token that was read between `front` and `rest`. -/
def between (t : Token) (front spelling rest : List Char) (hcs : cs = front ++ (spelling ++ rest))
    (hp : t.place = Place.start.after front) (hw : t.WrittenAs spelling)
    (hl : t.kind = .eof → front = cs) : Span cs where
  token := t
  start := front.length
  spelling := spelling
  place := by rw [hp, hcs]; exact Place.start_after_eq front _
  written := hw
  found := by simp [hcs]
  last h := congrArg List.length (hl h)

end Span

/-- The reversed tokens have spans, one behind the other, in front of the offset
    `free`. -/
def Laid (cs : List Char) (free : Nat) (found : List Token) : Prop :=
  ∃ spans : List (Span cs), spans.map Span.token = found ∧
    spans.Pairwise (fun b a => a.Before b) ∧ ∀ a ∈ spans, a.start < a.stop ∧ a.stop ≤ free

theorem laid_nil (cs : List Char) : Laid cs 0 [] := ⟨[], rfl, .nil, by simp⟩

theorem Laid.exists_cons {cs : List Char} {free : Nat} {found : List Token}
    (h : Laid cs free found) {b : Span cs} (hb : free ≤ b.start) :
    ∃ spans : List (Span cs), spans.map Span.token = found ∧
      (b :: spans).Pairwise (fun b a => a.Before b) ∧
      ∀ a ∈ spans, a.start < a.stop ∧ a.stop ≤ free := by
  obtain ⟨spans, hfound, hord, hstop⟩ := h
  refine ⟨spans, hfound, List.pairwise_cons.2 ⟨fun a ha => ?_, hord⟩, hstop⟩
  have := hstop a ha
  exact ⟨by omega, by omega⟩

/-! ## Reading a token -/

/-- The characters `past` end with `part`, which starts at the given place and
    not before the offset `free`. -/
def Underway (free : Nat) (past : List Char) (start : Place) (part : List Char) : Prop :=
  part ≠ [] ∧ ∃ front, past = front ++ part ∧ free ≤ front.length ∧ start = Place.start.after front

/-- The token ends behind the characters `past` and was read from there. -/
def Token.Ends (free : Nat) (past : List Char) (t : Token) : Prop :=
  t.kind ≠ .eof ∧ ∃ spelling, t.WrittenAs spelling ∧ Underway free past t.place spelling

/-- What the mode has read of a token stands at the end of the characters
    `past`. -/
def Mode.Reads (free : Nat) (past : List Char) : Mode → Prop
  | default | comment => True
  | word start text | number start text => Underway free past start text.reverse
  | string start text => Underway free past start ('"' :: text.reverse)
  | label start text => ∃ blanks, (∀ c ∈ blanks, c = ' ' ∨ c = '\t') ∧
      Underway free past start (':' :: (blanks ++ text.reverse))

/-- What a move finishes was read from the text, and so is what it leaves under
    way. -/
def Move.Reads (free : Nat) (past : List Char) (m : Move) : Prop :=
  m.mode.Reads free past ∧ ∀ t ∈ m.token, t.Ends free past ∧ m.mode = .default

section
variable {free : Nat} {past part : List Char} {start : Place} {c : Char}

theorem Underway.first (h : free ≤ past.length) (c : Char) :
    Underway free (past ++ [c]) (Place.start.after past) [c] :=
  ⟨by simp, past, rfl, h, rfl⟩

theorem Underway.push (h : Underway free past start part) (c : Char) :
    Underway free (past ++ [c]) start (part ++ [c]) := by
  obtain ⟨-, front, rfl, hfree, hstart⟩ := h
  exact ⟨by simp, front, by simp, hfree, hstart⟩

namespace Move

theorem reads_goOn {m : Mode} (h : m.Reads free (past ++ [c])) :
    (goOn m).Reads free (if (goOn m).consumes then past ++ [c] else past) :=
  ⟨h, by simp [goOn]⟩

theorem reads_leave : leave.Reads free (if leave.consumes then past ++ [c] else past) :=
  ⟨trivial, by simp [leave]⟩

theorem reads_finish {kind : TokenKind} {text : List Char} (hk : kind ≠ .eof)
    (hw : Token.WrittenAs ⟨kind, String.ofList text.reverse, start⟩ part)
    (h : Underway free past start part) : (finish kind text start).Reads free
      (if (finish kind text start).consumes then past ++ [c] else past) := by
  refine ⟨trivial, fun t ht => ⟨?_, rfl⟩⟩
  obtain rfl : ⟨kind, String.ofList text.reverse, start⟩ = t := by simpa [finish] using ht
  exact ⟨hk, part, hw, h⟩

end Move

/-- A sign is written as itself. -/
theorem writtenAs_of_signKind? {kind : TokenKind} {p : Place} (h : signKind? c = some kind) :
    kind ≠ .eof ∧ Token.WrittenAs ⟨kind, String.singleton c, p⟩ [c] := by
  unfold signKind? at h
  split at h <;> cases h
  all_goals exact ⟨by decide, by simp [Token.WrittenAs]⟩

namespace Mode

theorem reads_beginning (h : free ≤ past.length) (c : Char) :
    (beginning c (Place.start.after past)).Reads free (past ++ [c]) := by
  have hfirst := Underway.first h c
  unfold beginning
  split
  · rename_i kind hk
    refine ⟨trivial, fun t ht => ⟨?_, rfl⟩⟩
    obtain rfl : ⟨kind, String.singleton c, Place.start.after past⟩ = t := by simpa using ht
    obtain ⟨hne, hw⟩ := writtenAs_of_signKind? hk
    exact ⟨hne, [c], hw, hfirst⟩
  · split
    · exact Move.reads_goOn hfirst
    · split
      · exact Move.reads_goOn hfirst
      · split
        · rename_i hc
          exact Move.reads_goOn (hc ▸ hfirst)
        · split
          · rename_i hc
            exact Move.reads_goOn ⟨[], by simp, hc ▸ hfirst⟩
          · split <;> exact Move.reads_goOn trivial

/-- **A move keeps what is under way**, and a token that it finishes was read
    from the text. -/
theorem reads_move {m : Mode} (hm : m.Reads free past) (h : free ≤ past.length) (c : Char) :
    (m.move c (Place.start.after past)).Reads free
      (if (m.move c (Place.start.after past)).consumes then past ++ [c] else past) := by
  cases m with
  | default =>
    simp only [move, consumes_beginning, if_true]
    exact reads_beginning h c
  | word start text =>
    simp only [move]
    split
    · exact Move.reads_goOn (by simpa [Reads] using Underway.push hm c)
    · exact Move.reads_finish (by decide) String.toList_ofList.symm hm
  | number start text =>
    simp only [move]
    split
    · exact Move.reads_goOn (by simpa [Reads] using Underway.push hm c)
    · exact Move.reads_finish (by decide) String.toList_ofList.symm hm
  | string start text =>
    have hpush := Underway.push hm c
    simp only [move]
    split
    · rename_i hc
      subst hc
      refine ⟨trivial, fun t ht => ⟨?_, rfl⟩⟩
      obtain rfl : ⟨.string, String.ofList text.reverse, start⟩ = t := by
        simpa [Move.finish] using ht
      exact ⟨by simp, _, by simp [Token.WrittenAs], hpush⟩
    · exact Move.reads_goOn (by simpa [Reads] using hpush)
  | label start text =>
    obtain ⟨blanks, hblanks, hm⟩ := hm
    have hpush := Underway.push hm c
    simp only [move]
    split
    · rename_i hc
      simp only [Bool.and_eq_true, List.isEmpty_iff, Bool.or_eq_true, beq_iff_eq] at hc
      obtain ⟨rfl, hc⟩ := hc
      refine Move.reads_goOn ⟨blanks ++ [c], ?_, by simpa using hpush⟩
      simpa [or_imp, forall_and, hc] using hblanks
    · split
      · exact Move.reads_leave
      · split
        · exact Move.reads_goOn ⟨blanks, hblanks, by simpa using hpush⟩
        · exact Move.reads_finish (by decide) ⟨blanks, hblanks, by simp⟩ hm
  | comment =>
    simp only [move]
    split
    · exact Move.reads_leave
    · exact Move.reads_goOn trivial

end Mode

end

/-! ## Reading a text -/

theorem Token.Ends.laid_cons {cs past rest : List Char} {free : Nat} {t : Token}
    {found : List Token} (h : t.Ends free past) (hcs : cs = past ++ rest)
    (hl : Laid cs free found) : Laid cs past.length (t :: found) := by
  obtain ⟨hk, spelling, hw, hne, front, rfl, hfree, hp⟩ := h
  have hsplit : cs = front ++ (spelling ++ rest) := by rw [hcs, List.append_assoc]
  let b : Span cs := .between t front spelling rest hsplit hp hw fun h => absurd h hk
  obtain ⟨spans, hfound, hord, hstop⟩ := hl.exists_cons (b := b) hfree
  have hlength := List.length_pos_iff.2 hne
  refine ⟨b :: spans, by simp [hfound, b, Span.between], hord, fun a ha => ?_⟩
  rcases List.mem_cons.1 ha with rfl | ha
  · simp only [Span.stop, Span.between, b, List.length_append]
    omega
  · have := hstop a ha
    rw [List.length_append]
    omega

/-- The characters that are consumed after a move. -/
theorem Scanner.follow_past {cs past rest : List Char} {s : Scanner} {c : Char}
    (hcs : cs = past ++ s.rest) (hp : s.place = Place.start.after past) (hs : s.rest = c :: rest)
    (move : Move) :
    cs = (if move.consumes then past ++ [c] else past) ++ (s.follow move).rest ∧
      (s.follow move).place = Place.start.after (if move.consumes then past ++ [c] else past) ∧
      past.length ≤ (if move.consumes then past ++ [c] else past).length := by
  cases hc : move.consumes with
  | true => simp [follow, hc, advance, hs, hcs, hp, Place.after]
  | false => simpa [follow, hc, hp] using hcs

/-- **From any mode on, the machine finds tokens that lie behind those before
    them**, the last one at the end of the text. -/
theorem Scanner.spans_scanFrom {cs : List Char} {m : Mode} {s : Scanner} {found : List Token}
    {free : Nat} {past : List Char} (hcs : cs = past ++ s.rest)
    (hp : s.place = Place.start.after past) (hfree : free ≤ past.length) (hm : m.Reads free past)
    (hl : Laid cs free found) : ∃ spans : List (Span cs),
      spans.map Span.token = (scanFrom m s found).1 ∧ spans.Pairwise Span.Before ∧
        spans.getLast?.map Span.start = some cs.length := by
  fun_induction scanFrom m s found generalizing free past with
  | case1 m s found hs =>
    rw [hs, List.append_nil] at hcs
    let b : Span cs := .between s.endToken past [] [] (by simpa using hcs) hp rfl fun _ => hcs.symm
    obtain ⟨spans, hfound, hord, -⟩ := hl.exists_cons (b := b) hfree
    refine ⟨(b :: spans).reverse, ?_, List.pairwise_reverse.2 hord, ?_⟩
    · rw [List.map_reverse, List.map_cons, hfound]
      rfl
    · simp [b, Span.between, hcs]
  | case2 m s found c rest hs move =>
    rename_i ih
    have hmove := Mode.reads_move hm hfree c
    rw [← hp] at hmove
    obtain ⟨hcs', hp', hlength⟩ := follow_past hcs hp hs move
    generalize (if move.consumes then past ++ [c] else past) = past' at hmove hcs' hp' hlength
    cases ht : move.token with
    | none => simpa [ht] using ih hcs' hp' (by omega) hmove.1 (by simpa [ht] using hl)
    | some t =>
      obtain ⟨hends, hmode⟩ := hmove.2 t ht
      have hdefault : move.mode.Reads past'.length past' := by rw [hmode]; trivial
      simpa [ht] using ih hcs' hp' (Nat.le_refl _) hdefault
        (by simpa [ht] using hends.laid_cons hcs' hl)

/-- **The tokens of a text lie in it one behind the other**, each where its place
    says and spelled there, the last one at the end of the text; a line break
    was added unless the text had one.  After any number of characters the
    scanner is at the place of that offset, and behind the text its column
    goes on growing. -/
theorem scan_spans (source : String) :
    (∃ spans : List (Span (closed source.toList)),
      spans.map Span.token = Token.scan source ∧
      spans.Pairwise (fun a b => a.start < b.start ∧ a.stop ≤ b.start) ∧
      spans.getLast?.map Span.start = some (closed source.toList).length) ∧
    (∀ k, (Scanner.advanceBy k (.ofText source)).place = .ofOffset (closed source.toList) k) ∧
    ∀ n, (Scanner.advanceBy ((closed source.toList).length + n) (.ofText source)).place =
      ⟨(Scanner.advanceBy (closed source.toList).length (.ofText source)).place.line,
        (Scanner.advanceBy (closed source.toList).length (.ofText source)).place.column + n⟩ := by
  have hm : Mode.default.Reads 0 [] := trivial
  refine ⟨?_, Scanner.place_advanceBy_ofText source, fun n => ?_⟩
  · exact @Scanner.spans_scanFrom _ .default (.ofText source) [] 0 [] rfl rfl (Nat.zero_le _) hm
      (laid_nil _)
  · simp only [Scanner.place_advanceBy_ofText]
    exact Place.ofOffset_past _ n

-- A line break inside a string counts for the tokens behind it.
example : (Token.scan "a \"b\nc\" d").map Token.place =
    [⟨1, 1⟩, ⟨1, 3⟩, ⟨2, 4⟩, ⟨2, 5⟩, ⟨3, 1⟩] := by
  decide +kernel

end GotoBasic
