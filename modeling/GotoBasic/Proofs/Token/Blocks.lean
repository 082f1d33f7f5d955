/-
  Texts that consist of blocks of lines.

  * `Mode.read m p cs`: the mode of the machine after the characters `cs`,
    and the tokens that it finished; `scan_eq_read`: these are the tokens of a
    text, together with the end;
  * `leavesStringOpen source`: at the end of the text the machine is inside a
    string;
  * `Mode.read_down`: on other lines the machine finds the same tokens, on
    other lines;
  * `scan_append`: behind a block of lines, the machine starts afresh;
  * `scan_blocks`: so does a scanner that was moved there.
-/
import GotoBasic.Proofs.Token.Runs

namespace GotoBasic

/-! ## Reading character by character -/

/-- The place behind the characters `cs` at `p`. -/
def Place.after (p : Place) (cs : List Char) : Place :=
  cs.foldl (fun p c => Scanner.placeAfter c p) p

namespace Mode

/-- The mode after the character `c` at `p`, and the tokens that were finished;
    a move that leaves the character is followed by one of the default mode. -/
def pass (m : Mode) (c : Char) (p : Place) : Mode × List Token :=
  if (m.move c p).consumes then ((m.move c p).mode, (m.move c p).token.toList)
  else ((beginning c p).mode, (m.move c p).token.toList ++ (beginning c p).token.toList)

/-- The mode after the characters, and the tokens that were finished. -/
def read (m : Mode) (p : Place) : List Char → Mode × List Token
  | [] => (m, [])
  | c :: cs =>
    let rest := (m.pass c p).1.read (Scanner.placeAfter c p) cs
    (rest.1, (m.pass c p).2 ++ rest.2)

variable {m : Mode} {p : Place} {c : Char}

theorem move_default : default.move c p = beginning c p := rfl

theorem read_append (cs ds : List Char) : m.read p (cs ++ ds) =
    (((m.read p cs).1.read (p.after cs) ds).1,
      (m.read p cs).2 ++ ((m.read p cs).1.read (p.after cs) ds).2) := by
  induction cs generalizing m p with
  | nil => rfl
  | cons c cs ih => simp [read, ih, Place.after]

end Mode

theorem Scanner.scanFrom_cons (m : Mode) (c : Char) (cs : List Char) (n : Nat) (p : Place)
    (found : List Token) : scanFrom m ⟨c :: cs, n, p⟩ found =
      scanFrom (m.pass c p).1 ⟨cs, n + 1, placeAfter c p⟩ ((m.pass c p).2.reverse ++ found) := by
  have hrev : ∀ o : Option Token, o.toList.reverse = o.toList := by rintro (_ | _) <;> rfl
  rw [scanFrom]
  simp only [follow, advance]
  cases hc : (m.move c p).consumes with
  | true => simp [Mode.pass, hc, hrev]
  | false =>
    -- the character is left to the default mode, which consumes it
    rw [(Mode.move_of_leaves hc).1]
    simp only [Bool.false_eq_true, if_false]
    rw [scanFrom]
    simp [follow, advance, Mode.move_default, Mode.consumes_beginning, Mode.pass, hc, hrev]

theorem Scanner.scanFrom_eq_read (m : Mode) (cs : List Char) (n : Nat) (p : Place)
    (found : List Token) : (scanFrom m ⟨cs, n, p⟩ found).1 =
      found.reverse ++ (m.read p cs).2 ++ [⟨.eof, "", p.after cs⟩] := by
  induction cs generalizing m n p found with
  | nil =>
    rw [scanFrom]
    simp [Mode.read, endToken, Place.after]
  | cons c cs ih =>
    rw [scanFrom_cons, ih]
    simp [Mode.read, Place.after]

/-- The place where a text starts. -/
def Place.start : Place := ⟨1, 1⟩

theorem scan_eq_read (source : String) : Token.scan source =
    (Mode.default.read .start (closed source.toList)).2 ++
      [⟨.eof, "", Place.start.after (closed source.toList)⟩] :=
  Scanner.scanFrom_eq_read .default (closed source.toList) 0 .start []

/-! ## On other lines -/

/-- The place so many lines down. -/
def Place.down (k : Nat) (p : Place) : Place := ⟨p.line + k, p.column⟩

/-- The token at another place. -/
def Token.relocate (f : Place → Place) (t : Token) : Token := { t with place := f t.place }

/-- The mode whose token under way is at another place. -/
def Mode.relocate (f : Place → Place) : Mode → Mode
  | word start text => word (f start) text
  | number start text => number (f start) text
  | string start text => string (f start) text
  | label start text => label (f start) text
  | m => m

/-- The move with all its places moved. -/
def Move.relocate (f : Place → Place) (m : Move) : Move :=
  ⟨m.mode.relocate f, m.token.map (Token.relocate f), m.consumes⟩

theorem Scanner.placeAfter_down (k : Nat) (c : Char) (p : Place) :
    placeAfter c (p.down k) = (placeAfter c p).down k := by
  unfold placeAfter
  split <;> simp [Place.down]; omega

theorem Place.after_down (k : Nat) (p : Place) (cs : List Char) :
    (p.down k).after cs = (p.after cs).down k := by
  induction cs generalizing p with
  | nil => rfl
  | cons c cs ih => simpa [Place.after, Scanner.placeAfter_down] using ih (Scanner.placeAfter c p)

namespace Mode

theorem beginning_relocate (f : Place → Place) (c : Char) (p : Place) :
    beginning c (f p) = (beginning c p).relocate f := by
  unfold beginning
  cases signKind? c with
  | some kind => rfl
  | none =>
    simp only
    repeat' split
    all_goals rfl

theorem move_relocate (f : Place → Place) (m : Mode) (c : Char) (p : Place) :
    (m.relocate f).move c (f p) = (m.move c p).relocate f := by
  cases m with
  | default => exact beginning_relocate f c p
  | word | number | string | label | comment =>
    simp only [move, relocate]
    repeat' split
    all_goals rfl

theorem pass_relocate (f : Place → Place) (m : Mode) (c : Char) (p : Place) :
    (m.relocate f).pass c (f p) =
      ((m.pass c p).1.relocate f, (m.pass c p).2.map (Token.relocate f)) := by
  have htoken : ∀ o : Option Token,
      (o.map (Token.relocate f)).toList = o.toList.map (Token.relocate f) := by
    rintro (_ | _) <;> rfl
  simp only [pass, move_relocate, beginning_relocate]
  cases hc : (m.move c p).consumes <;> simp [Move.relocate, hc, htoken]

theorem read_down (k : Nat) (m : Mode) (p : Place) (cs : List Char) :
    (m.relocate (Place.down k)).read (p.down k) cs =
      ((m.read p cs).1.relocate (Place.down k),
        (m.read p cs).2.map (Token.relocate (Place.down k))) := by
  induction cs generalizing m p with
  | nil => rfl
  | cons c cs ih => simp [read, pass_relocate, Scanner.placeAfter_down, ih]

end Mode

/-! ## Behind a line break -/

/-- The machine is inside a string. -/
def Mode.isString : Mode → Bool
  | string _ _ => true
  | _ => false

/-- The text ends inside a string. -/
def leavesStringOpen (source : String) : Bool :=
  (Mode.default.read .start source.toList).1.isString

/-- Outside strings a line break is a token, and what was under way ends. -/
theorem Mode.pass_newline {m : Mode} {p : Place} (h : (m.pass '\n' p).1.isString = false) :
    (m.pass '\n' p).1 = default ∧ (m.pass '\n' p).2.getLast? = some ⟨.line, "\n", p⟩ := by
  have hb : beginning '\n' p = ⟨default, some ⟨.line, "\n", p⟩, true⟩ := rfl
  cases m with
  | default => simp [pass, move, hb]
  | string => simp [pass, move, Move.goOn, isString] at h
  | word | number | label | comment => simp [pass, consumes_newline, mayLeave, hb]

theorem Mode.ne_eof_of_move {m : Mode} {c : Char} {p : Place} :
    ∀ t ∈ (m.move c p).token, t.kind ≠ .eof := by
  cases m with
  | default =>
    rw [move_default, beginning]
    cases hk : signKind? c with
    | none =>
      simp only
      repeat' split
      all_goals simp [Move.goOn]
    | some kind =>
      have : kind ≠ .eof := by
        rintro rfl
        unfold signKind? at hk
        split at hk <;> cases hk
      simpa using this
  | word | number | string | label | comment =>
    simp only [move]
    repeat' split
    all_goals simp [Move.goOn, Move.leave, Move.finish]

theorem Mode.ne_eof_of_read {m : Mode} {p : Place} {cs : List Char} :
    ∀ t ∈ (m.read p cs).2, t.kind ≠ .eof := by
  induction cs generalizing m p with
  | nil => simp [read]
  | cons c cs ih =>
    intro t ht
    rcases List.mem_append.1 ht with ht | ht
    · unfold pass at ht
      split at ht
      · exact ne_eof_of_move t (Option.mem_toList.1 ht)
      · rcases List.mem_append.1 ht with ht | ht
        · exact ne_eof_of_move t (Option.mem_toList.1 ht)
        · rw [← move_default] at ht
          exact ne_eof_of_move t (Option.mem_toList.1 ht)
    · exact ih t ht

theorem Place.line_after (p : Place) (cs : List Char) :
    (p.after cs).line = p.line + cs.count '\n' := by
  induction cs generalizing p with
  | nil => simp [Place.after]
  | cons c cs ih =>
    have := ih (Scanner.placeAfter c p)
    simp only [Place.after, List.foldl_cons] at this ⊢
    rw [this, List.count_cons]
    by_cases hc : c = '\n' <;> simp [Scanner.placeAfter, hc]; omega

/-- A text of whole lines: it is empty or ends with a line break. -/
def WholeLines (cs : List Char) : Prop := cs = [] ∨ cs.getLast? = some '\n'

theorem WholeLines.eq_nil_or {cs : List Char} (h : WholeLines cs) :
    cs = [] ∨ ∃ ds, cs = ds ++ ['\n'] :=
  h.imp_right List.getLast?_eq_some_iff.1

theorem Place.start_after {cs : List Char} (h : WholeLines cs) :
    Place.start.after cs = Place.start.down (cs.count '\n') := by
  rcases h.eq_nil_or with rfl | ⟨ds, rfl⟩
  · rfl
  · have hline := Place.start.line_after ds
    have hafter : Place.start.after (ds ++ ['\n']) = ⟨(Place.start.after ds).line + 1, 1⟩ := by
      simp [Place.after, Scanner.placeAfter]
    rw [hafter, hline]
    simp [Place.down, Place.start, Int.add_assoc]

theorem Mode.read_wholeLines {cs : List Char} (h : WholeLines cs)
    (ho : (default.read .start cs).1.isString = false) :
    (default.read .start cs).1 = default ∧
      ∀ t ∈ (default.read .start cs).2.getLast?, t.kind = .line := by
  rcases h.eq_nil_or with rfl | ⟨ds, rfl⟩
  · simp [read]
  · rw [read_append] at ho ⊢
    obtain ⟨hmode, hlast⟩ := pass_newline ho
    refine ⟨hmode, fun t ht => ?_⟩
    obtain rfl : ⟨.line, "\n", Place.start.after ds⟩ = t := by
      simpa [read, List.getLast?_append, hlast] using ht
    rfl

theorem closed_append {cs : List Char} (h : WholeLines cs) (ds : List Char) :
    closed (cs ++ ds) = cs ++ closed ds := by
  cases hd : ds.getLast? with
  | none =>
    obtain rfl := List.getLast?_eq_none_iff.1 hd
    rcases h with rfl | h
    · rfl
    · simp [closed, h]
  | some c => by_cases hc : c = '\n' <;> simp [closed, List.getLast?_append, hd, hc]

/-- **A scanner at the start of a line** finds the tokens of the text, so many
    lines down. -/
theorem Scanner.scan_down (s : String) (k n : Nat) :
    (scan ⟨closed s.toList, n, Place.start.down k⟩).1 =
      (Token.scan s).map (Token.relocate (.down k)) := by
  have hread := Mode.read_down k .default .start (closed s.toList)
  simp only [Mode.relocate] at hread
  rw [scan, scanFrom_eq_read, scan_eq_read, hread, Place.after_down]
  simp [Token.relocate]

theorem closed_of_wholeLines {cs : List Char} (h : WholeLines cs) : closed cs = cs := by
  simpa [closed] using closed_append h []

/-- **Behind whole lines that leave no string open the machine starts afresh**,
    so many lines down. -/
theorem scan_append {s₁ : String} (h : WholeLines s₁.toList) (ho : leavesStringOpen s₁ = false)
    (s₂ : String) : ∃ ts, (∀ t ∈ ts.getLast?, t.kind = .line) ∧ (∀ t ∈ ts, t.kind ≠ .eof) ∧
      (∃ p, Token.scan s₁ = ts ++ [⟨.eof, "", p⟩]) ∧
      Token.scan (s₁ ++ s₂) =
        ts ++ (Token.scan s₂).map (Token.relocate (.down (s₁.toList.count '\n'))) := by
  obtain ⟨hmode, hlast⟩ := Mode.read_wholeLines h ho
  refine ⟨(Mode.default.read .start s₁.toList).2, hlast, fun t => Mode.ne_eof_of_read t,
    ⟨_, closed_of_wholeLines h ▸ scan_eq_read s₁⟩, ?_⟩
  have hplace : Place.start.after (s₁.toList ++ closed s₂.toList) =
      (Place.start.after s₁.toList).after (closed s₂.toList) := List.foldl_append
  rw [scan_eq_read, String.toList_append, closed_append h, Mode.read_append, hmode, hplace,
    Place.start_after h, ← Scanner.scan_down s₂ _ 0, Scanner.scan, Scanner.scanFrom_eq_read]
  simp

/-! ## A scanner that was moved on -/

theorem Scanner.advanceBy_append (cs ds : List Char) (n : Nat) (p : Place) :
    advanceBy cs.length ⟨cs ++ ds, n, p⟩ = ⟨ds, n + cs.length, p.after cs⟩ := by
  induction cs generalizing n p with
  | nil => rfl
  | cons c cs ih =>
    rw [List.length_cons, List.cons_append, advanceBy, advance, ih]
    simp [Place.after, Nat.add_assoc, Nat.add_comm 1]

/-- Moved over whole lines, a scanner is at the start of a line. -/
theorem Scanner.advanceBy_ofText {s₁ : String} (h : WholeLines s₁.toList) (s₂ : String) :
    (ofText (s₁ ++ s₂)).advanceBy s₁.length =
      ⟨closed s₂.toList, s₁.length, Place.start.down (s₁.toList.count '\n')⟩ := by
  have hmove := advanceBy_append s₁.toList (closed s₂.toList) 0 .start
  rw [← closed_append h, ← String.toList_append, String.length_toList, Nat.zero_add,
    Place.start_after h] at hmove
  exact hmove

/-- **Blocks of lines are split into tokens one by one.**  Behind whole lines
    that leave no string open, a text has its own tokens, so many lines down and
    in the same columns; so it has for a scanner that was moved over the lines
    in front of it, whatever they hold. -/
theorem scan_blocks (s₁ s₂ : String) (h : WholeLines s₁.toList) :
    (leavesStringOpen s₁ = false →
      ∃ ts p, Token.scan s₁ = ts ++ [⟨.eof, "", p⟩] ∧
        Token.scan (s₁ ++ s₂) =
          ts ++ (Token.scan s₂).map (Token.relocate (.down (s₁.toList.count '\n')))) ∧
    ((Scanner.ofText (s₁ ++ s₂)).advanceBy s₁.length).scan.1 =
      (Token.scan s₂).map (Token.relocate (.down (s₁.toList.count '\n'))) := by
  constructor
  · intro ho
    obtain ⟨ts, -, -, ⟨p, hscan₁⟩, hscan⟩ := scan_append h ho s₂
    exact ⟨ts, p, hscan₁, hscan⟩
  · rw [Scanner.advanceBy_ofText h]
    exact Scanner.scan_down s₂ _ _

/-- A colon and a comment that line breaks cut short, in front of a string that
    holds one. -/
theorem scan_blocks_colon :
    (leavesStringOpen "a :\n'b\n" = false ∧
      ∃ ts p, Token.scan "a :\n'b\n" = ts ++ [⟨.eof, "", p⟩] ∧
        Token.scan ("a :\n'b\n" ++ "\"\n\"") =
          ts ++ [⟨.string, "\n", ⟨3, 1⟩⟩, ⟨.line, "\n", ⟨4, 2⟩⟩, ⟨.eof, "", ⟨5, 1⟩⟩]) ∧
    ((Scanner.ofText ("a :\n'b\n" ++ "\"\n\"")).advanceBy 7).scan.1 =
      [⟨.string, "\n", ⟨3, 1⟩⟩, ⟨.line, "\n", ⟨4, 2⟩⟩, ⟨.eof, "", ⟨5, 1⟩⟩] := by
  have ho : leavesStringOpen "a :\n'b\n" = false := by decide +kernel
  have hdown : (Token.scan "\"\n\"").map (Token.relocate (.down 2)) =
      [⟨.string, "\n", ⟨3, 1⟩⟩, ⟨.line, "\n", ⟨4, 2⟩⟩, ⟨.eof, "", ⟨5, 1⟩⟩] := by
    decide +kernel
  obtain ⟨hscan, hmoved⟩ := scan_blocks "a :\n'b\n" "\"\n\"" (.inr (by decide))
  obtain ⟨ts, p, hfirst, hboth⟩ := hscan ho
  exact ⟨⟨ho, ts, p, hfirst, hdown ▸ hboth⟩, hdown ▸ hmoved⟩

end GotoBasic
