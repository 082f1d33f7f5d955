/-
  Runs of the machine over a text.

  * `Mode.mayLeave`: the modes that leave some characters to the next move;
    `Mode.consumes_newline`: a line break is one of these characters;
  * `Reading`: the machine on its way through a text; `Reading.next`: the same
    after one more move;
  * `Reading.Runs`: move after move, the machine comes to the end of the text;
  * `Reading.next_cases`: a move takes the scanner over one character, or it
    goes from one of these modes to the default one and the scanner stays;
  * `Reading.exists_runs`: hence the machine comes to the end, with at most two
    moves for each character;
  * `Reading.Runs.consumed_eq`: on its way it consumes the rest of the text,
    one character after the other;
  * `scan_terminates`: so it does from every offset of a text.
-/
import GotoBasic.Token.Scan

namespace GotoBasic

/-! ## Modes that leave a character -/

namespace Mode

/-- The four modes that leave some characters to the next move. -/
def mayLeave : Mode → Bool
  | word _ _ | number _ _ | label _ _ | comment => true
  | default | string _ _ => false

/-- These modes leave a line break, and the others consume it. -/
theorem consumes_newline (m : Mode) (p : Place) : (m.move '\n' p).consumes = !m.mayLeave := by
  have hw : Text.isWordChar '\n' = false := by decide
  have hl : Text.isLetter '\n' = false := by decide
  have hd : Text.isDecimalDigit '\n' = false := by decide
  cases m with
  | default => rfl
  | word | number | comment => simp [move, mayLeave, hw, hd, Move.finish, Move.leave]
  | string => simp [move, mayLeave, Move.goOn]
  | label start text => cases text <;> simp [move, mayLeave, hw, hl, Move.finish, Move.leave]

theorem mayLeave_iff (m : Mode) : m.mayLeave = true ↔ ∃ c p, (m.move c p).consumes = false := by
  constructor
  · intro h
    exact ⟨'\n', ⟨1, 1⟩, by simp [consumes_newline, h]⟩
  · rintro ⟨c, p, hc⟩
    cases m with
    | default => simp [move, consumes_beginning] at hc
    | string =>
      simp only [move] at hc
      split at hc <;> cases hc
    | word | number | label | comment => rfl

end Mode

/-! ## Scanners that were moved on -/

namespace Scanner

theorem position_advance (s : Scanner) : s.advance.position = s.position + 1 := by
  unfold advance
  split <;> rfl

theorem position_advanceBy (k : Nat) (s : Scanner) :
    (s.advanceBy k).position = s.position + k := by
  induction k generalizing s with
  | zero => rfl
  | succ k ih =>
    rw [advanceBy, ih, position_advance]
    omega

theorem rest_advanceBy (k : Nat) (s : Scanner) : (s.advanceBy k).rest = s.rest.drop k := by
  induction k generalizing s with
  | zero => rfl
  | succ k ih => rw [advanceBy, ih, rest_advance, List.drop_tail]

theorem advanceBy_advanceBy (j k : Nat) (s : Scanner) :
    (s.advanceBy j).advanceBy k = s.advanceBy (j + k) := by
  induction j generalizing s with
  | zero => rw [advanceBy, Nat.zero_add]
  | succ j ih => rw [advanceBy, ih, Nat.succ_add, advanceBy]

end Scanner

/-! ## Move after move -/

/-- The machine on its way through a text: its mode, the scanner, and the
    reversed tokens that it found. -/
structure Reading where
  mode : Mode
  scanner : Scanner
  found : List Token

namespace Reading

/-- The machine before its first move. -/
def start (s : Scanner) : Reading := ⟨.default, s, []⟩

/-- The machine after its next move; at the end of the text there is none. -/
def next (r : Reading) : Reading :=
  match r.scanner.rest with
  | [] => r
  | c :: _ =>
    let move := r.mode.move c r.scanner.place
    ⟨move.mode, r.scanner.follow move, move.token.toList ++ r.found⟩

/-- From `r` on the machine comes to the end of the text, where it is `last`;
    the list holds the machine before each of its moves. -/
inductive Runs : Reading → List Reading → Reading → Prop where
  | ended {r : Reading} : r.scanner.rest = [] → Runs r [] r
  | move {r last : Reading} {rs : List Reading} :
      r.scanner.rest ≠ [] → Runs r.next rs last → Runs r (r :: rs) last

/-- The character over which the next move takes the scanner, and its
    offset. -/
def consumed? (r : Reading) : Option (Char × Nat) :=
  if r.next.scanner.position = r.scanner.position then none
  else r.scanner.rest.head?.map (·, r.scanner.position)

/-- A bound for the moves to come. -/
def bound (r : Reading) : Nat := 2 * r.scanner.rest.length + r.mode.weight

variable {r last : Reading} {rs : List Reading} {c : Char} {cs : List Char}

theorem next_of_cons (h : r.scanner.rest = c :: cs) : r.next =
    ⟨(r.mode.move c r.scanner.place).mode, r.scanner.follow (r.mode.move c r.scanner.place),
      (r.mode.move c r.scanner.place).token.toList ++ r.found⟩ := by
  simp only [next, h]

/-- **A move takes the scanner over one character, or the scanner stays** and
    the machine goes from a mode that may leave characters to the default
    one. -/
theorem next_cases (h : r.scanner.rest ≠ []) :
    r.next.scanner = r.scanner.advance ∨
      r.next.scanner = r.scanner ∧ r.mode.mayLeave = true ∧ r.next.mode = .default := by
  obtain ⟨c, cs, hs⟩ := List.exists_cons_of_ne_nil h
  rw [next_of_cons hs]
  cases hc : (r.mode.move c r.scanner.place).consumes with
  | true => exact .inl (by simp [Scanner.follow, hc])
  | false =>
    have hleave : r.mode.mayLeave = true := r.mode.mayLeave_iff.2 ⟨c, r.scanner.place, hc⟩
    exact .inr ⟨by simp [Scanner.follow, hc], hleave, (Mode.move_of_leaves hc).1⟩

theorem consumed?_of_advance (hs : r.scanner.rest = c :: cs)
    (h : r.next.scanner = r.scanner.advance) : r.consumed? = some (c, r.scanner.position) := by
  simp [consumed?, h, Scanner.position_advance, hs]

theorem consumed?_of_stay (h : r.next.scanner = r.scanner) : r.consumed? = none := by
  simp [consumed?, h]

theorem bound_next_lt (h : r.scanner.rest ≠ []) : r.next.bound < r.bound := by
  obtain ⟨c, cs, hs⟩ := List.exists_cons_of_ne_nil h
  rw [next_of_cons hs]
  exact Scanner.follow_decreases r.mode hs

/-- **The machine comes to the end of the text**, and makes at most two moves
    for each character. -/
theorem exists_runs (r : Reading) : ∃ rs last, r.Runs rs last ∧ rs.length ≤ r.bound := by
  by_cases hs : r.scanner.rest = []
  · exact ⟨[], r, .ended hs, Nat.zero_le _⟩
  · have hlt := bound_next_lt hs
    obtain ⟨rs, last, hrun, hle⟩ := exists_runs r.next
    refine ⟨r :: rs, last, .move hs hrun, ?_⟩
    rw [List.length_cons]
    omega
termination_by r.bound

/-- After a move the scan finds what it finds before it. -/
theorem scanFrom_eq_next (r : Reading) : Scanner.scanFrom r.mode r.scanner r.found =
    Scanner.scanFrom r.next.mode r.next.scanner r.next.found := by
  obtain ⟨m, ⟨rest, n, p⟩, found⟩ := r
  cases rest with
  | nil => rfl
  | cons c cs =>
    rw [Scanner.scanFrom]
    rfl

namespace Runs

/-- The scan finds what the machine found on its way, and the end. -/
theorem scanFrom_eq (h : r.Runs rs last) : Scanner.scanFrom r.mode r.scanner r.found =
    ((last.scanner.endToken :: last.found).reverse, last.scanner) := by
  induction h with
  | @ended r hs =>
    obtain ⟨m, ⟨rest, n, p⟩, found⟩ := r
    obtain rfl : rest = [] := hs
    rw [Scanner.scanFrom]
  | @move r last rs _ _ ih => rw [scanFrom_eq_next, ih]

/-- **What is left of the text is consumed character by character**, each one
    once. -/
theorem consumed_eq (h : r.Runs rs last) :
    rs.filterMap consumed? = r.scanner.rest.zipIdx r.scanner.position := by
  induction h with
  | ended hs => simp [hs]
  | @move r last rs hs _ ih =>
    rcases next_cases hs with hnext | ⟨hnext, -, -⟩
    · obtain ⟨c, cs, hs⟩ := List.exists_cons_of_ne_nil hs
      rw [List.filterMap_cons_some (consumed?_of_advance hs hnext), ih, hnext,
        Scanner.rest_advance, Scanner.position_advance, hs, List.tail_cons, List.zipIdx_cons]
    · rw [List.filterMap_cons_none (consumed?_of_stay hnext), ih, hnext]

/-- At the end the scanner was moved over what was left of the text. -/
theorem scanner_eq (h : r.Runs rs last) :
    last.scanner = r.scanner.advanceBy r.scanner.rest.length := by
  induction h with
  | ended hs =>
    rw [hs]
    rfl
  | @move r last rs hs _ ih =>
    rcases next_cases hs with hnext | ⟨hnext, -, -⟩
    · obtain ⟨c, cs, hs⟩ := List.exists_cons_of_ne_nil hs
      rw [ih, hnext, Scanner.rest_advance, hs]
      rfl
    · rw [ih, hnext]

theorem rest_last (h : r.Runs rs last) : last.scanner.rest = [] := by
  rw [h.scanner_eq, Scanner.rest_advanceBy, List.drop_length]

theorem rest_ne_nil (h : r.Runs rs last) : ∀ a ∈ rs, a.scanner.rest ≠ [] := by
  induction h with
  | ended _ => simp
  | move hs _ ih => exact List.forall_mem_cons.2 ⟨hs, ih⟩

end Runs

end Reading

/-- At the end of a text a scan finds the end only, and stays there. -/
theorem Scanner.scan_of_rest {s : Scanner} (h : s.rest = []) : s.scan = ([s.endToken], s) := by
  have hended : (Reading.start s).Runs [] (.start s) := .ended h
  exact hended.scanFrom_eq

/-- **From every offset the machine comes to the end of the text.**  Four of the
    six modes leave some characters to the next move, and the others none.
    After `k` characters, which may be more than the closed text has, the
    machine makes at most two moves for each character that is left.  A move
    that leaves its character goes to the default mode, and every move of the
    default mode takes the scanner over one character; what is left of the text
    is consumed character by character, each one once.  At the end the scanner
    is where the closed text ends, or where it was if that is further on; a
    second scan finds the end only and leaves the scanner there. -/
theorem scan_terminates (source : String) (k : Nat) :
    (∀ m : Mode, m.mayLeave = true ↔ ∃ c p, (m.move c p).consumes = false) ∧
    ∃ rs last, (Reading.start ((Scanner.ofText source).advanceBy k)).Runs rs last ∧
      rs.length ≤ 2 * ((closed source.toList).length - k) ∧
      (∀ r ∈ rs, r.next.scanner = r.scanner.advance ∨
        r.next.scanner = r.scanner ∧ r.mode.mayLeave = true ∧ r.next.mode = .default) ∧
      (∀ r ∈ rs, r.mode = .default → r.next.scanner = r.scanner.advance) ∧
      rs.filterMap Reading.consumed? = ((closed source.toList).drop k).zipIdx k ∧
      ((Scanner.ofText source).advanceBy k).scan =
        (last.found.reverse ++ [last.scanner.endToken], last.scanner) ∧
      last.scanner = (Scanner.ofText source).advanceBy (max k (closed source.toList).length) ∧
      last.scanner.position = max k (closed source.toList).length ∧
      last.scanner.scan = ([last.scanner.endToken], last.scanner) := by
  refine ⟨Mode.mayLeave_iff, ?_⟩
  obtain ⟨rs, last, hrun, hlength⟩ :=
    Reading.exists_runs (.start ((Scanner.ofText source).advanceBy k))
  have hcases := fun r hr => Reading.next_cases (hrun.rest_ne_nil r hr)
  have hrest : ((Scanner.ofText source).advanceBy k).rest = (closed source.toList).drop k :=
    Scanner.rest_advanceBy k _
  have hposition : ∀ n, ((Scanner.ofText source).advanceBy n).position = n := by
    intro n
    rw [Scanner.position_advanceBy]
    exact Nat.zero_add n
  have hlast : last.scanner =
      (Scanner.ofText source).advanceBy (max k (closed source.toList).length) := by
    have hmax : k + ((closed source.toList).length - k) = max k (closed source.toList).length := by
      omega
    rw [hrun.scanner_eq, Reading.start, hrest, List.length_drop, Scanner.advanceBy_advanceBy, hmax]
  refine ⟨rs, last, hrun, ?_, hcases, fun r hr hm => ?_, ?_, ?_, hlast, ?_,
    Scanner.scan_of_rest hrun.rest_last⟩
  · simpa [Reading.bound, Reading.start, hrest, Mode.weight] using hlength
  · -- the default mode is none of the four
    refine (hcases r hr).resolve_right fun h => ?_
    simp [hm, Mode.mayLeave] at h
  · rw [hrun.consumed_eq, Reading.start, hrest, hposition]
  · rw [← List.reverse_cons]
    exact hrun.scanFrom_eq
  · rw [hlast, hposition]

-- A colon without a name and an empty comment: the machine looks twice at the
-- mark of the comment and at the line break.
example : (List.range 7).map (fun n =>
    (Nat.repeat Reading.next n (.start (.ofText ":'"))).scanner.position) =
      [0, 1, 1, 2, 2, 3, 3] := by
  decide +kernel

end GotoBasic
