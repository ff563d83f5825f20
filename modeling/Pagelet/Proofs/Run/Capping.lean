import Pagelet.Proofs.Run.Parallel

/-!
# The limit on reported problems

How many problems a run may report decides how long its list of problems is, and nothing
else: what the statements do never depends on what was reported before.  Under a lower
limit the same list ends sooner.
-/

namespace Pagelet
namespace Script

open Style (StyleRef)

/-- The state with no more than the first so many of its problems reported. -/
def State.capped (count : Nat) (state : State) : State :=
  { state with report.problems := state.report.problems.take count }

/-- What each of several scripts leaves behind, every run beginning where the one before
it ended. -/
def runs (limits : Limits) :
    List (String × List StyleRef) → Environment → Document → List State
  | [], _, _ => []
  | (source, chain) :: later, environment, document =>
      let state := run ⟨limits, chain⟩ source environment document
      state :: runs limits later state.environment state.document

variable {setting : Setting} {count : Nat}

/-- A problem that is reported beyond the lower limit is cut off with those behind it. -/
theorem State.capped_fail {limits : Limits} (le : count ≤ limits.problems) (problem : Problem)
    (state : State) :
    (state.capped count).fail { limits with problems := count } problem =
      (state.fail limits problem).capped count := by
  have taken : (state.capped count).report.problems.length =
      min count state.report.problems.length := List.length_take
  unfold fail
  by_cases room : state.report.problems.length < count
  · have inside : (state.capped count).report.problems.length < count := by omega
    have whole : state.report.problems.length + 1 ≤ count := room
    rw [if_pos inside, if_pos (Nat.lt_of_lt_of_le room le)]
    simp [capped, List.take_of_length_le, whole, Nat.le_of_lt room]
  · have full : count ≤ state.report.problems.length := Nat.le_of_not_lt room
    have beyond : ¬(state.capped count).report.problems.length < count := by omega
    rw [if_neg beyond]
    split
    · simp [capped, List.take_append_of_le_length full]
    · rfl

/-- Under a lower limit on problems, every effect is the same but for the problems that
are cut off. -/
theorem parallel_capped (le : count ≤ setting.limits.problems) :
    Parallel setting { setting with limits.problems := count } (fun _ => True)
      (fun state other => other = state.capped count) where
  chain := rfl
  depth := rfl
  block _ _ := trivial
  body _ _ _ := trivial
  functions := by rintro state _ rfl; rfl
  eval := by rintro _ _ state _ _ _ rfl; rfl
  read := by rintro _ _ state _ _ _ _ rfl _; rfl
  counted := by rintro state _ rfl; rfl
  emit := by rintro state _ output rfl; rfl
  fail := by
    rintro state _ problem rfl
    exact State.capped_fail le problem state
  edit := by rintro state _ change rfl; rfl
  assign := by rintro _ _ state _ value _ _ rfl; rfl
  define := by rintro _ _ state _ _ rfl; rfl

/-- Under a lower limit a program reports the first of its problems and does the same
otherwise. -/
theorem runProgram_capped (le : count ≤ setting.limits.problems) (statements : List Statement)
    {state : State} (fresh : state.report.problems = []) :
    runProgram { setting with limits.problems := count } statements state =
      (runProgram setting statements state).capped count := by
  apply (parallel_capped le).runProgram (fun _ _ => trivial)
  rw [State.capped, fresh, List.take_nil, ← fresh]

/-- Under a lower limit a run reports the first of its problems and is the same otherwise. -/
theorem run_capped (setting : Setting) (le : count ≤ setting.limits.problems)
    (source : String) (environment : Environment) (document : Document) :
    run { setting with limits.problems := count } source environment document =
      (run setting source environment document).capped count := by
  unfold run
  by_cases long : setting.limits.scriptBytes < source.utf8ByteSize
  · rw [if_pos long, if_pos long, ← State.capped_fail le]
    simp [State.capped]
  · rw [if_neg long, if_neg long]
    exact runProgram_capped le (program source) rfl

/-- If a lower limit only cuts problems off, room for one more problem is enough to tell
whether there are more than so many. -/
theorem length_problems_le_of_succ (outcome : Nat → State)
    (capped : ∀ {fewer more}, fewer ≤ more → outcome fewer = (outcome more).capped fewer)
    (few : (outcome (count + 1)).report.problems.length ≤ count) (room : Nat) :
    (outcome room).report.problems.length ≤ count := by
  rcases Nat.lt_or_ge count room with more | fewer
  · rw [capped more, State.capped, List.length_take] at few
    omega
  · rw [capped le_rfl, State.capped, List.length_take]
    omega

/-- A run reports no more problems than its limit allows. -/
theorem length_problems_run_le (setting : Setting) (source : String) (environment : Environment)
    (document : Document) :
    (run setting source environment document).report.problems.length ≤
      setting.limits.problems := by
  have capped : run setting source environment document =
      (run setting source environment document).capped setting.limits.problems :=
    run_capped setting le_rfl source environment document
  rw [capped]
  exact List.length_take_le _ _

/-- Several runs in a row under a lower limit on problems leave behind, one by one, what
they leave behind under a higher one, but for the problems that the lower limit cuts off
at the end of each report. -/
theorem runs_capped (limits : Limits) {fewer more : Nat} (le : fewer ≤ more)
    (scripts : List (String × List StyleRef)) (environment : Environment) (document : Document) :
    runs { limits with problems := fewer } scripts environment document =
      (runs { limits with problems := more } scripts environment document).map
        (State.capped fewer) := by
  induction scripts generalizing environment document with
  | nil => rfl
  | cons script later ih =>
      obtain ⟨source, chain⟩ := script
      have here : run ⟨{ limits with problems := fewer }, chain⟩ source environment document =
          (run ⟨{ limits with problems := more }, chain⟩ source environment document).capped
            fewer :=
        run_capped ⟨{ limits with problems := more }, chain⟩ le source environment document
      simp only [runs, List.map_cons, here]
      exact congrArg _ (ih _ _)

/-- Scripts that meet unknown statements, faults and a function that is not defined, between
statements that have their effect. -/
def failingScripts : List (String × List StyleRef) :=
  [("one two; alert('a'); var n = 1 / 0", []),
    ("function f() { three four; document.write(n) } f(); g(); console.log(-n)", [⟨0⟩])]

theorem runs_capped_failingScripts :
    1 ≤ 3 ∧
      runs { problems := 1 } failingScripts {} {} =
        (runs { problems := 3 } failingScripts {} {}).map (State.capped 1) ∧
      (runs { problems := 3 } failingScripts {} {}).map (·.report.problems.length) = [2, 3] :=
  ⟨by decide, runs_capped {} (by decide) failingScripts {} {}, by decide +kernel⟩

end Script
end Pagelet
