import Pagelet.Proofs.Run.Capping
import Pagelet.Proofs.Statement.Joining

/-!
# Scripts run as one

Two scripts on lines of their own do as one script what they do one after the other.  The
second does not see what the first has reported, so its report only stands behind the
other one, as far as the limit on problems leaves room for both.
-/

namespace Pagelet
namespace Script

variable {setting : Setting}

/-- The state with an earlier report in front of its own, and no more problems than the
limit allows. -/
def State.behind (limits : Limits) (earlier : Report) (state : State) : State :=
  { state with report := earlier.append state.report }.capped limits.problems

/-- A problem finds room behind an earlier report or is cut off. -/
theorem State.behind_fail (limits : Limits) (earlier : Report) (problem : Problem)
    (state : State) :
    (state.behind limits earlier).fail limits problem =
      (state.fail limits problem).behind limits earlier := by
  have joined : (state.behind limits earlier).fail limits problem =
      (fail limits problem { state with report := earlier.append state.report }).capped
        limits.problems :=
    State.capped_fail le_rfl problem _
  have total : (earlier.append state.report).problems.length =
      earlier.problems.length + state.report.problems.length := List.length_append
  rw [joined]
  unfold fail
  by_cases room : (earlier.append state.report).problems.length < limits.problems
  · -- there is at least as much room without the earlier report
    have alone : state.report.problems.length < limits.problems := by omega
    rw [if_pos room, if_pos alone]
    simp [behind, Report.append]
  · have full : limits.problems ≤ (earlier.append state.report).problems.length :=
      Nat.le_of_not_lt room
    rw [if_neg room]
    split
    · have cut : ((earlier.append state.report).problems ++ [problem]).take limits.problems =
          (earlier.append state.report).problems.take limits.problems :=
        List.take_append_of_le_length full
      simp only [Report.append] at cut
      simp [behind, capped, Report.append, ← List.append_assoc, cut]
    · rfl

/-- Behind an earlier report every effect is the same. -/
theorem parallel_behind (setting : Setting) (earlier : Report) :
    Parallel setting setting (fun _ => True)
      (fun state other => other = state.behind setting.limits earlier) where
  chain := rfl
  depth := rfl
  block _ _ := trivial
  body _ _ _ := trivial
  functions := by rintro state _ rfl; rfl
  eval := by rintro _ _ state _ _ _ rfl; rfl
  read := by rintro _ _ state _ _ _ _ rfl _; rfl
  counted := by rintro state _ rfl; rfl
  emit := by
    rintro state _ output rfl
    simp [State.behind, State.capped, State.emit, Report.append]
  fail := by
    rintro state _ problem rfl
    exact State.behind_fail setting.limits earlier problem state
  edit := by rintro state _ change rfl; rfl
  assign := by rintro _ _ state _ value _ _ rfl; rfl
  define := by rintro _ _ state _ _ rfl; rfl

/-- A block may be run in two parts. -/
theorem runBlock_append (setting : Setting) (call : String → State → State)
    (front back : List Statement) (state : State) :
    runBlock setting call (front ++ back) state =
      runBlock setting call back (runBlock setting call front state) := by
  induction front generalizing state with
  | nil => rfl
  | cons statement front ih => exact ih (statement.run setting call state)

/-- The second script begins in the environment and the document that the first one leaves
behind. -/
theorem run_lineEnd (setting : Setting) {first second : String} (flat : EndsFlat first)
    (fits : (first ++ "\n" ++ second).utf8ByteSize ≤ setting.limits.scriptBytes)
    (environment : Environment) (document : Document) :
    run setting (first ++ "\n" ++ second) environment document =
      (run setting second (run setting first environment document).environment
          (run setting first environment document).document).behind setting.limits
        (run setting first environment document).report := by
  have sizes : (first ++ "\n" ++ second).utf8ByteSize =
      first.utf8ByteSize + 1 + second.utf8ByteSize := by
    rw [String.utf8ByteSize_append, String.utf8ByteSize_append]
    rfl
  have runs (source : String) (environment : Environment) (document : Document)
      (short : source.utf8ByteSize ≤ setting.limits.scriptBytes) :
      run setting source environment document =
        runProgram setting (program source) { environment, document } :=
    if_neg (Nat.not_lt.2 short)
  have started : run setting first environment document = State.behind setting.limits
      (run setting first environment document).report
      { environment := (run setting first environment document).environment
        document := (run setting first environment document).document } := by
    simp only [State.behind, State.capped, Report.append_empty]
    rw [List.take_of_length_le (length_problems_run_le setting first environment document)]
  have whole : run setting (first ++ "\n" ++ second) environment document =
      runProgram setting (program second) (run setting first environment document) := by
    rw [runs _ _ _ fits, runs first _ _ (by omega), flat.program_lineEnd]
    exact runBlock_append _ _ _ _ _
  rw [whole, runs second _ _ (by omega)]
  exact (parallel_behind setting _).runProgram (fun _ _ => trivial) started

/-- However many problems may be reported, the run of a script reports no more than so
many. -/
def ReportsAtMost (count : Nat) (setting : Setting) (source : String) (environment : Environment)
    (document : Document) : Prop :=
  ∀ room, (run { setting with limits.problems := room } source environment
    document).report.problems.length ≤ count

/-- Room for one more problem is enough to tell whether there is one more. -/
theorem reportsAtMost_iff {count : Nat} {source : String} {environment : Environment}
    {document : Document} :
    ReportsAtMost count setting source environment document ↔
      (run { setting with limits.problems := count + 1 } source environment
        document).report.problems.length ≤ count := by
  refine ⟨fun most => most (count + 1), fun few => ?_⟩
  let outcome (room : Nat) : State :=
    run { setting with limits.problems := room } source environment document
  have capped {fewer more : Nat} (le : fewer ≤ more) :
      outcome fewer = (outcome more).capped fewer :=
    run_capped { setting with limits.problems := more } le source environment document
  exact length_problems_le_of_succ outcome capped few

/-- A script that ends outside strings and brackets, and another one on a new line behind
it, do as one script what they do when the second is run after the first, as long as the
whole is not too long and its problems can all be reported. -/
theorem run_joined {first second : String} {environment : Environment} {document : Document}
    (flat : EndsFlat first)
    (fits : (first ++ "\n" ++ second).utf8ByteSize ≤ setting.limits.scriptBytes)
    (few : ReportsAtMost setting.limits.problems setting (first ++ "\n" ++ second) environment
      document) :
    let earlier := run setting first environment document
    let later := run setting second earlier.environment earlier.document
    run setting (first ++ "\n" ++ second) environment document =
      { later with report := earlier.report.append later.report } := by
  intro earlier later
  -- with room for one more problem, the two reports are at least as long
  let roomy : Setting := { setting with limits.problems := setting.limits.problems + 1 }
  let before := run roomy first environment document
  let after := run roomy second before.environment before.document
  have less : setting.limits.problems ≤ roomy.limits.problems := Nat.le_succ _
  have beforeCut : earlier = before.capped setting.limits.problems :=
    run_capped roomy less first environment document
  have afterCut : later = after.capped setting.limits.problems := by
    simp only [later, beforeCut]
    exact run_capped roomy less second before.environment before.document
  have whole : run roomy (first ++ "\n" ++ second) environment document =
      after.behind roomy.limits before.report :=
    run_lineEnd roomy flat fits environment document
  have total : before.report.problems.length + after.report.problems.length ≤
      setting.limits.problems := by
    have counted := reportsAtMost_iff.1 few
    rw [whole, State.behind, State.capped, List.length_take, Report.append,
      List.length_append] at counted
    simp only [roomy] at counted
    omega
  have fitting : (earlier.report.append later.report).problems.length ≤
      setting.limits.problems := by
    simp only [beforeCut, afterCut, State.capped, Report.append, List.length_append,
      List.length_take]
    omega
  rw [run_lineEnd setting flat fits environment document, State.behind, State.capped,
    List.take_of_length_le fitting]

/-- A script with a function and a problem that ends in a comment with an open string. -/
def openingScript : String :=
  "function show() { document.write(n * 3) } var n = '7\x7d'; alert(n / 0) // ' \x7b"

/-- A script that calls the function, with two problems. -/
def closingScript : String :=
  "if (n == '7\x7d') { show() } launch rockets"

theorem run_joined_openingScript :
    let setting : Setting := { limits := { problems := 3 }, chain := [⟨0⟩] }
    EndsFlat openingScript ∧
      (openingScript ++ "\n" ++ closingScript).utf8ByteSize ≤ setting.limits.scriptBytes ∧
      ReportsAtMost 3 setting (openingScript ++ "\n" ++ closingScript) {} {} ∧
      let earlier := run setting openingScript {} {}
      let later := run setting closingScript earlier.environment earlier.document
      run setting (openingScript ++ "\n" ++ closingScript) {} {} =
        { later with report := earlier.report.append later.report } := by
  intro setting
  have flat : EndsFlat openingScript := by decide +kernel
  have fits : (openingScript ++ "\n" ++ closingScript).utf8ByteSize ≤
      setting.limits.scriptBytes := by decide
  have few : ReportsAtMost 3 setting (openingScript ++ "\n" ++ closingScript) {} {} :=
    reportsAtMost_iff.2 (by decide +kernel)
  exact ⟨flat, fits, few, run_joined flat fits few⟩

end Script
end Pagelet
