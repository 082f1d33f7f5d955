/-
  The command line and the service agree about scripts that end.

  * `Machine.EndsWithin`: a machine ends or fails within so many statements;
  * `CommandLine.written`: what the command writes for the lines that were
    printed and the failure, if there is one;
  * `CommandLine.run_eq_written`: the command writes what the service finds;
  * `CommandLine.run_agrees`: so the lines and the report on the two output
    streams are those of the service's answer.
-/
import GotoBasic.Service
import GotoBasic.Script.CommandLine
import GotoBasic.Proofs.Machine.Steps

namespace GotoBasic

/-! ## Runs that end within a limit -/

/-- The machine ends or fails within `limit` statements. -/
def Machine.EndsWithin (limit : Int) (m : Machine) : Prop :=
  ∃ es m' ending, m.Ends limit ⊤ es m' false ending ∧ ending ≠ .unfinished

theorem Machine.Ends.length_le {limit : Int} {stop : ℕ∞} {m m' : Machine} {es : List Effect}
    {stopped : Bool} {ending : Ending} (h : m.Ends limit stop es m' stopped ending) :
    es.length ≤ limit.toNat := by
  cases h with
  | stopped _ _ hl | finished _ _ _ hl => exact hl
  | failed _ _ _ hl => omega
  | unfinished _ _ _ hl => exact hl.le

theorem Ending.failure?_of_ne {ending : Ending} (h : ending ≠ .unfinished) (limit limit' : Int) :
    ending.failure? limit = ending.failure? limit' := by
  cases ending with
  | unfinished => exact absurd rfl h
  | finished | failed | astray => rfl

/-! ## What the command writes -/

theorem Text.lines_singleton (text : String) : Text.lines [text] = text ++ "\n" := by
  simp [Text.lines, String.join]

namespace CommandLine

/-- What the command writes for the lines that were printed and the failure, if
    there is one. -/
def written : List String × Option Failure → Result
  | (lines, none) => ⟨Text.lines lines, "", .code 0⟩
  | (lines, some failure) => ⟨Text.lines lines, failure.report ++ "\n", .code 1⟩

variable {fs : Files} {path : String} {bytes : List UInt8} {source : String} {p : Program}
  {requested : Option String} {level : LogLevel} {limit : Int} {fuel : Nat}

theorem ofRun_of_ends {es : List Effect} {m : Machine} {ending : Ending}
    (h : (Machine.start p).Ends limit ⊤ es m false ending) (hne : ending ≠ .unfinished)
    (hlevel : level.showsDebug = false) (hfuel : limit.toNat < fuel) :
    ofRun level fuel p = written (es.filterMap Effect.line?, ending.failure? limit) := by
  have hrun := Machine.run_of_ends h hne (h.length_le.trans_lt hfuel)
  rw [ofRun, hrun]
  simp only [hlevel, Ending.failure?_of_ne hne fuel limit]
  cases ending.failure? limit with
  | none => rfl
  | some failure => simp [written, Run.lines, Text.lines_singleton]

/-- The command writes what the service finds about the text of a script. -/
theorem ofSource_eq_written (hlevel : level.showsDebug = false) (hfuel : limit.toNat < fuel)
    (hends : ∀ p, Program.parse source = .ok p → (Machine.start p).EndsWithin limit) :
    ofSource level fuel (.ok source) = written (Service.runSource limit source) := by
  cases hparse : Program.parse source with
  | error error =>
    simp only [ofSource, Service.runSource, hparse, Text.lines_singleton]
    rfl
  | ok p =>
    obtain ⟨es, m, ending, h, hne⟩ := hends p hparse
    simp only [ofSource, Service.runSource, hparse, Machine.runBounded_of_ends h]
    exact ofRun_of_ends h hne hlevel hfuel

theorem run_eq_written (hpath : '\x00' ∉ path.toList) (hread : fs.read path = .ok bytes)
    (hdecode : Script.decode bytes = .ok source)
    (hlevel : (LogLevel.choose requested "WARNING").showsDebug = false)
    (hends : ∀ p, Program.parse source = .ok p → (Machine.start p).EndsWithin limit)
    (hfuel : limit.toNat < fuel) :
    run fs requested fuel [path] = written (Service.runSource limit source) := by
  have hload : Script.load fs path = .ok source := by
    simp only [Script.load, hread, Script.ofBytes, hdecode]
  rw [run, if_neg (by simpa using hpath), hload]
  exact ofSource_eq_written hlevel hfuel hends

/-- **The command line and the service agree about a script that ends or fails
    within the limit, or is not parsed.**  The command writes each line of the
    service's answer, and the error of the answer, if there is one, behind
    them on the other stream.  Of a script that is not parsed nothing is
    printed; of one that fails, what was printed before stays. -/
theorem run_agrees (hpath : '\x00' ∉ path.toList) (hread : fs.read path = .ok bytes)
    (hdecode : Script.decode bytes = .ok source)
    (hlevel : (LogLevel.choose requested "WARNING").showsDebug = false)
    (hends : ∀ p, Program.parse source = .ok p → (Machine.start p).EndsWithin limit)
    (hfuel : limit.toNat < fuel) :
    ((∃ lines,
        Service.run limit source =
          .object [("success", .bool true), ("output", .strings lines)] ∧
        run fs requested fuel [path] = ⟨Text.lines lines, "", .code 0⟩) ∨
      ∃ lines error,
        Service.run limit source =
          .object [("success", .bool false), ("output", .strings lines), ("error", .string error)] ∧
        run fs requested fuel [path] = ⟨Text.lines lines, error ++ "\n", .code 1⟩) ∧
    (∀ error, Program.parse source = .error error →
      run fs requested fuel [path] = ⟨"", "ParseError: " ++ error.message ++ "\n", .code 1⟩) ∧
    ∀ p es m error, Program.parse source = .ok p →
      (Machine.start p).Ends limit ⊤ es m false (.failed error) →
      run fs requested fuel [path] =
        ⟨Text.lines (es.filterMap Effect.line?), "EvalError: " ++ error.message ++ "\n",
         .code 1⟩ := by
  have hrun := run_eq_written hpath hread hdecode hlevel hends hfuel
  refine ⟨?_, ?_, ?_⟩
  · rcases hsource : Service.runSource limit source with ⟨lines, _ | failure⟩
    · left
      exact ⟨lines, by rw [Service.run, hsource], by rw [hrun, hsource]; rfl⟩
    · right
      exact ⟨lines, failure.report, by rw [Service.run, hsource], by rw [hrun, hsource]; rfl⟩
  · intro error hparse
    have hreport : (Failure.parse error).report = "ParseError: " ++ error.message := by
      rw [Failure.report, name_of_parse hparse]
      rfl
    rw [hrun, ← hreport]
    simp only [Service.runSource, hparse]
    rfl
  · intro p es m error hparse h
    have hreport : (Failure.run error).report = "EvalError: " ++ error.message := by
      rw [Failure.report, Failure.name,
        (h.numeric (proper_of_parse hparse) (Machine.sound_start p)).report.1]
      rfl
    rw [hrun, ← hreport]
    simp only [Service.runSource, hparse, Machine.runBounded_of_ends h]
    rfl

/-- The text of a script that prints a line and then fails. -/
def failingText : String := ":a print \"x\" if \"y\" then a"

/-- The program of that script. -/
def failingProgram : Program :=
  ⟨#[.print (.literal (.text "x")), .ifThen (.literal (.text "y")) (.text "a")], [("a", 0)]⟩

/-- A file system with that script. -/
def failingFiles : Files := Files.fresh.put "s.jas" (.file failingText.toUTF8.toList)

/-- A script that prints a line and then fails within ten statements. -/
theorem run_agrees_failing :
    run failingFiles none 11 ["s.jas"] =
        ⟨"x\n", "EvalError: Cannot convert 'y' to a number\n", .code 1⟩ ∧
      ∃ lines error,
        Service.run 10 failingText =
          .object [("success", .bool false), ("output", .strings lines), ("error", .string error)] ∧
        run failingFiles none 11 ["s.jas"] = ⟨Text.lines lines, error ++ "\n", .code 1⟩ := by
  have hread : failingFiles.read "s.jas" = .ok failingText.toUTF8.toList := by decide +kernel
  have hdecode : Script.decode failingText.toUTF8.toList = .ok failingText := by
    with_unfolding_all rfl
  have hparse : Program.parse failingText = .ok failingProgram := by with_unfolding_all rfl
  have hstep : Machine.step ⟨failingProgram, [], 1⟩ =
      .failed (.notNumeric "y") ⟨failingProgram, [], 2⟩ := by
    with_unfolding_all rfl
  have hfails : (Machine.start failingProgram).Ends 10 ⊤ [.printed "x"] _ false (.failed _) :=
    .failed (.next rfl (.refl _)) hstep (ENat.natCast_lt_top 1) (by decide)
  have hends : ∀ p, Program.parse failingText = .ok p → (Machine.start p).EndsWithin 10 := by
    intro p hp
    cases hparse.symm.trans hp
    exact ⟨_, _, _, hfails, by simp⟩
  obtain ⟨hagree, -, hfailed⟩ := @run_agrees failingFiles "s.jas" _ failingText none 10 11
    (by decide) hread hdecode (by decide +kernel) hends (by decide)
  have hrun := hfailed _ _ _ _ hparse hfails
  refine ⟨hrun, ?_⟩
  rcases hagree with ⟨lines, -, hok⟩ | hagree
  · have hexit := congrArg Result.exit (hok.symm.trans hrun)
    cases hexit
  · exact hagree

end CommandLine

end GotoBasic
