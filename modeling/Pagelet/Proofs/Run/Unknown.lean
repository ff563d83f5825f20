import Pagelet.Proofs.Run.Capping
import Pagelet.Proofs.Run.Depth

/-!
# Unknown statements

An unknown statement is reported and does nothing else.  A program does the same when all
its unknown statements are taken out, those in the bodies of functions among them, and
what it reports is the same but for them.
-/

namespace Pagelet
namespace Script

mutual

/-- The statement without the unknown ones in its block, unless it is unknown itself. -/
def Statement.withoutUnknown? : Statement → Option Statement
  | .unknown _ => none
  | .define name body => some (.define name (withoutUnknown body))
  | .conditional condition body => some (.conditional condition (withoutUnknown body))
  | statement => some statement

/-- The statements without the unknown ones, however many blocks these stand inside. -/
def withoutUnknown : List Statement → List Statement
  | [] => []
  | statement :: rest => statement.withoutUnknown?.toList ++ withoutUnknown rest

end

/-- The environment with the unknown statements taken out of its functions. -/
def Environment.withoutUnknown (environment : Environment) : Environment :=
  { environment with
    functions := environment.functions.map fun _ body => Script.withoutUnknown body }

/-- Whether the problem is an unknown statement. -/
def Problem.isUnknownStatement : Problem → Bool
  | unknownStatement _ => true
  | _ => false

/-- The problems that are not unknown statements. -/
def otherProblems (problems : List Problem) : List Problem :=
  problems.filter (!·.isUnknownStatement)

/-- A problem other than an unknown statement is kept behind those that are. -/
theorem otherProblems_concat {problem : Problem} (other : problem.isUnknownStatement = false)
    (problems : List Problem) :
    otherProblems (problems ++ [problem]) = otherProblems problems ++ [problem] := by
  simp [otherProblems, other]

mutual

/-- In what is left of a statement there is nothing to take out. -/
theorem Statement.withoutUnknown?_idem :
    ∀ statement : Statement, ∀ left ∈ statement.withoutUnknown?, left.withoutUnknown? = some left
  | .unknown _, left, taken => by cases taken
  | .define name body, left, taken => by
      cases taken
      rw [Statement.withoutUnknown?, withoutUnknown_idem body]
  | .conditional condition body, left, taken => by
      cases taken
      rw [Statement.withoutUnknown?, withoutUnknown_idem body]
  | .alert _, left, taken => by cases taken; rfl
  | .call _, left, taken => by cases taken; rfl
  | .write _, left, taken => by cases taken; rfl
  | .log _, left, taken => by cases taken; rfl
  | .declare _, left, taken => by cases taken; rfl
  | .assign _ _, left, taken => by cases taken; rfl
  | .setHandler _ _, left, taken => by cases taken; rfl
  | .setText _ _, left, taken => by cases taken; rfl

/-- In what is left of a block there is nothing to take out. -/
theorem withoutUnknown_idem :
    ∀ statements : List Statement,
      withoutUnknown (withoutUnknown statements) = withoutUnknown statements
  | [] => rfl
  | statement :: rest => by
      rw [withoutUnknown]
      cases taken : statement.withoutUnknown? with
      | none => exact withoutUnknown_idem rest
      | some left =>
          have same := Statement.withoutUnknown?_idem statement left taken
          rw [Option.toList_some, List.singleton_append, withoutUnknown, same,
            withoutUnknown_idem rest]
          rfl

end

namespace Environment

variable (environment : Environment)

/-- Leaving unknown statements out twice leaves out no more. -/
theorem withoutUnknown_idem :
    environment.withoutUnknown.withoutUnknown = environment.withoutUnknown := by
  simp only [withoutUnknown, Std.ExtTreeMap.map_map, Script.withoutUnknown_idem]

theorem getElem?_withoutUnknown (name : String) :
    environment.withoutUnknown.functions[name]? =
      environment.functions[name]?.map Script.withoutUnknown :=
  Std.ExtTreeMap.getElem?_map

/-- A new body is defined without its unknown statements. -/
theorem withoutUnknown_define (name : String) (body : List Statement) :
    { environment with functions := environment.functions.insert name body }.withoutUnknown =
      { environment.withoutUnknown with
        functions := environment.withoutUnknown.functions.insert name
          (Script.withoutUnknown body) } := by
  have functions : (environment.functions.insert name body).map
      (fun _ body => Script.withoutUnknown body) =
        (environment.functions.map fun _ body => Script.withoutUnknown body).insert name
          (Script.withoutUnknown body) := by
    apply Std.ExtTreeMap.ext_getElem?
    intro called
    simp only [Std.ExtTreeMap.getElem?_map, Std.ExtTreeMap.getElem?_insert]
    split <;> rfl
  simp only [withoutUnknown, functions]

end Environment

/-- The two states are the same but for unknown statements: the second one has none in its
functions, and of all the problems that were met, it reports those that are not unknown
statements, as far as the limit leaves room for them. -/
def SameKnown (limits : Limits) (state other : State) : Prop :=
  ∃ met, state.report.problems = met.take limits.problems ∧
    other =
      { state with
        environment := state.environment.withoutUnknown
        report.problems := (otherProblems met).take limits.problems }

/-- Of the problems that are met, the first ones are reported. -/
theorem State.fail_eq_take {limits : Limits} {state : State} {met : List Problem}
    (reported : state.report.problems = met.take limits.problems) (problem : Problem) :
    state.fail limits problem =
      { state with report.problems := (met ++ [problem]).take limits.problems } := by
  have count : state.report.problems.length = min limits.problems met.length := by
    rw [reported, List.length_take]
  unfold fail
  by_cases room : met.length < limits.problems
  · have fits : (met ++ [problem]).length ≤ limits.problems := by
      rw [List.length_append]
      exact room
    rw [if_pos (by omega), List.take_of_length_le fits, reported,
      List.take_of_length_le (Nat.le_of_lt room)]
  · have full : limits.problems ≤ met.length := Nat.le_of_not_lt room
    rw [if_neg (by omega), List.take_append_of_le_length full, ← reported]

namespace SameKnown

variable {setting : Setting} {limits : Limits} {state other : State} {snippet : Snippet}

/-- The variables are the same. -/
theorem bindings_eq (same : SameKnown limits state other) :
    other.environment.bindings = state.environment.bindings := by
  obtain ⟨met, -, rfl⟩ := same
  rfl

/-- The functions are those without unknown statements. -/
theorem getElem?_functions (same : SameKnown limits state other) (name : String) :
    other.environment.functions[name]? =
      state.environment.functions[name]?.map withoutUnknown := by
  obtain ⟨met, -, rfl⟩ := same
  exact Environment.getElem?_withoutUnknown _ name

/-- The unknown statement itself leaves no trace on the other side. -/
theorem unknown (same : SameKnown limits state other) (text : String) :
    SameKnown limits (state.fail limits (.unknownStatement text)) other := by
  obtain ⟨met, reported, rfl⟩ := same
  refine ⟨met ++ [.unknownStatement text], ?_, ?_⟩ <;> rw [State.fail_eq_take reported]
  simp [otherProblems, Problem.isUnknownStatement]

/-- A problem other than an unknown statement may occur on both sides. -/
theorem fail (same : SameKnown limits state other) {problem : Problem}
    (known : problem.isUnknownStatement = false) :
    SameKnown limits (state.fail limits problem) (other.fail limits problem) := by
  obtain ⟨met, reported, rfl⟩ := same
  refine ⟨met ++ [problem], ?_, ?_⟩ <;> rw [State.fail_eq_take reported]
  rw [otherProblems_concat known]
  exact State.fail_eq_take rfl problem

theorem counted (same : SameKnown limits state other) :
    SameKnown limits state.counted other.counted := by
  obtain ⟨met, reported, rfl⟩ := same
  exact ⟨met, reported, rfl⟩

theorem emit (same : SameKnown limits state other) (output : Output) :
    SameKnown limits (state.emit output) (other.emit output) := by
  obtain ⟨met, reported, rfl⟩ := same
  exact ⟨met, reported, rfl⟩

theorem edit (same : SameKnown limits state other) (change : Document → Document) :
    SameKnown limits (state.edit change) (other.edit change) := by
  obtain ⟨met, reported, rfl⟩ := same
  exact ⟨met, reported, rfl⟩

theorem assign (same : SameKnown limits state other) (name : String) (value : Value) :
    SameKnown limits (state.assign name value) (other.assign name value) := by
  obtain ⟨met, reported, rfl⟩ := same
  exact ⟨met, reported, rfl⟩

/-- A function may be defined on both sides, on one of them without its unknown statements. -/
theorem define (same : SameKnown limits state other) (name : String) (body : List Statement) :
    SameKnown limits (state.define name body) (other.define name (withoutUnknown body)) := by
  obtain ⟨met, reported, rfl⟩ := same
  refine ⟨met, reported, ?_⟩
  simp only [State.define, Environment.withoutUnknown_define]

/-- An expression has the same value on both sides. -/
theorem evaluate (same : SameKnown limits state other) (snippet : Snippet) :
    (other.evaluate limits snippet).1 = (state.evaluate limits snippet).1 ∧
      SameKnown limits (state.evaluate limits snippet).2 (other.evaluate limits snippet).2 := by
  unfold State.evaluate
  rw [same.bindings_eq]
  split
  · exact ⟨rfl, same⟩
  · split
    · exact ⟨rfl, same.fail rfl⟩
    · exact ⟨rfl, same⟩

/-- A condition is decided in the same way on both sides. -/
theorem decideCondition {holds : Bool} {decided : State} (same : SameKnown limits state other)
    (decides : state.decideCondition limits snippet = (holds, decided)) :
    ∃ after, other.decideCondition limits snippet = (holds, after) ∧
      SameKnown limits decided after := by
  unfold State.decideCondition at decides ⊢
  rw [same.bindings_eq]
  split at decides
  · cases decides
    exact ⟨other, rfl, same⟩
  · cases decides
    exact ⟨_, rfl, same.fail rfl⟩

/-- A plain statement is taken out and leaves no trace, or is kept and has its effect on
both sides. -/
theorem effect {statement : Statement} (plain : statement.IsPlain)
    (same : SameKnown setting.limits state other) :
    statement.withoutUnknown? = none ∧
        SameKnown setting.limits (statement.effect setting state) other ∨
      ∃ left, statement.withoutUnknown? = some left ∧ left.IsPlain ∧
        SameKnown setting.limits (statement.effect setting state)
          (left.effect setting other) := by
  cases statement with
  | unknown text => exact .inl ⟨rfl, same.unknown text⟩
  | call name => exact plain.elim
  | conditional condition body => exact plain.elim
  | define name body => exact .inr ⟨_, rfl, trivial, (same.define name body).counted⟩
  | declare name => exact .inr ⟨_, rfl, trivial, (same.assign name default).counted⟩
  | alert message =>
      obtain ⟨value, after⟩ := same.evaluate message
      refine .inr ⟨_, rfl, trivial, ?_⟩
      simp only [Statement.effect, Statement.run, value]
      exact (after.emit _).counted
  | log line =>
      obtain ⟨value, after⟩ := same.evaluate line
      refine .inr ⟨_, rfl, trivial, ?_⟩
      simp only [Statement.effect, Statement.run, value]
      exact (after.emit _).counted
  | write content =>
      obtain ⟨value, after⟩ := same.evaluate content
      refine .inr ⟨_, rfl, trivial, ?_⟩
      simp only [Statement.effect, Statement.run, value]
      exact (after.edit _).counted
  | assign name snippet =>
      obtain ⟨value, after⟩ := same.evaluate snippet
      refine .inr ⟨_, rfl, trivial, ?_⟩
      simp only [Statement.effect, Statement.run, value]
      exact (after.assign name _).counted
  | setHandler target handler =>
      obtain ⟨id, after⟩ := same.evaluate target
      refine .inr ⟨_, rfl, trivial, ?_⟩
      simp only [Statement.effect, Statement.run, id]
      exact (after.edit _).counted
  | setText target content =>
      obtain ⟨id, named⟩ := same.evaluate target
      obtain ⟨value, after⟩ := named.evaluate content
      refine .inr ⟨_, rfl, trivial, ?_⟩
      simp only [Statement.effect, Statement.run, id, value]
      exact (after.edit _).counted

end SameKnown

/-! ## Runs -/

/-- What a block may do, it may also do without its unknown statements, and it makes the
same calls. -/
theorem Performs.withoutUnknown {setting : Setting} {active : Nat} {statements : List Statement}
    {before after other : State} {made : List Call}
    (performs : Performs setting active statements before made after)
    (same : SameKnown setting.limits before other) :
    ∃ later, Performs setting active (withoutUnknown statements) other made later ∧
      SameKnown setting.limits after later := by
  induction performs generalizing other with
  | done => exact ⟨other, .done, same⟩
  | plain plain _ ih =>
      rcases same.effect plain with ⟨taken, same⟩ | ⟨left, kept, plain, same⟩
      · obtain ⟨later, rest, same⟩ := ih same
        refine ⟨later, ?_, same⟩
        rw [Script.withoutUnknown, taken]
        exact rest
      · obtain ⟨later, rest, same⟩ := ih same
        refine ⟨later, ?_, same⟩
        rw [Script.withoutUnknown, kept]
        exact .plain plain rest
  | taken decides _ _ bodies rests =>
      obtain ⟨decided, holds, within⟩ := same.decideCondition decides
      obtain ⟨inner, body, within⟩ := bodies within
      obtain ⟨later, rest, same⟩ := rests within.counted
      exact ⟨later, .taken holds body rest, same⟩
  | passed decides _ ih =>
      obtain ⟨decided, fails, within⟩ := same.decideCondition decides
      obtain ⟨later, rest, same⟩ := ih within.counted
      exact ⟨later, .passed fails rest, same⟩
  | undefined missing _ ih =>
      obtain ⟨later, rest, after⟩ := ih (same.fail rfl)
      refine ⟨later, .undefined ?_ rest, after⟩
      rw [same.getElem?_functions, missing, Option.map_none]
  | entered known _ _ bodies rests =>
      obtain ⟨inner, body, within⟩ := bodies same
      obtain ⟨later, rest, after⟩ := rests within.counted
      refine ⟨later, .entered ?_ body rest, after⟩
      rw [same.getElem?_functions, known, Option.map_some]
  | @refused _ name _ _ _ _ _ known _ ih =>
      obtain ⟨later, rest, after⟩ := ih (same.fail rfl)
      have defined := same.getElem?_functions name
      rw [known, Option.map_some] at defined
      exact ⟨later, .refused defined rest, after⟩

/-- A program does the same without its unknown statements. -/
theorem SameKnown.runProgram (setting : Setting) {state other : State}
    (same : SameKnown setting.limits state other) (statements : List Statement) :
    SameKnown setting.limits (runProgram setting statements state)
      (runProgram setting (withoutUnknown statements) other) := by
  obtain ⟨made, keeps⟩ := exists_keepsLimit_runProgram setting statements state
  obtain ⟨calls, others⟩ :=
    exists_keepsLimit_runProgram setting (Script.withoutUnknown statements) other
  obtain ⟨later, performs, same⟩ := keeps.performs.withoutUnknown same
  -- the run without unknown statements is the only one that keeps to the limit
  obtain ⟨-, rfl⟩ := others.performs.unique performs others.within keeps.within
  exact same

/-- However many problems may be reported, the program reports no more than its limit
allows. -/
def ReportsAll (setting : Setting) (statements : List Statement) (state : State) : Prop :=
  ∀ room, (runProgram { setting with limits.problems := room } statements
    state).report.problems.length ≤ setting.limits.problems

/-- Room for one more problem is enough to tell whether all are reported. -/
theorem reportsAll_of_succ {setting : Setting} {statements : List Statement} {state : State}
    (fresh : state.report.problems = [])
    (few : (runProgram { setting with limits.problems := setting.limits.problems + 1 }
      statements state).report.problems.length ≤ setting.limits.problems) :
    ReportsAll setting statements state := by
  let outcome (room : Nat) : State :=
    runProgram { setting with limits.problems := room } statements state
  have capped {fewer more : Nat} (le : fewer ≤ more) :
      outcome fewer = (outcome more).capped fewer := by
    let roomy : Setting := { setting with limits.problems := more }
    have lower : fewer ≤ roomy.limits.problems := le
    exact runProgram_capped lower statements fresh
  exact length_problems_le_of_succ outcome capped few

/-- A program and the same program without its unknown statements, in an environment whose
functions have none either, do the same to the document and the variables, show the same,
and have the same statements carried out.  The functions that they leave behind are the
same without unknown statements.  If all problems are reported, those of the second
program are those of the first, in order, that are not unknown statements. -/
theorem runProgram_withoutUnknown (setting : Setting) (statements : List Statement)
    (environment : Environment) (document : Document) :
    let start : State := { environment, document }
    let after := runProgram setting statements start
    let later := runProgram setting (withoutUnknown statements)
      { environment := environment.withoutUnknown, document }
    later.document = after.document ∧
      later.environment.bindings = after.environment.bindings ∧
      later.report.outputs = after.report.outputs ∧
      later.report.statements = after.report.statements ∧
      later.environment.withoutUnknown = after.environment.withoutUnknown ∧
      (ReportsAll setting statements start →
        later.report.problems = otherProblems after.report.problems) := by
  intro start after later
  have begun (limits : Limits) :
      SameKnown limits start { environment := environment.withoutUnknown, document } :=
    ⟨[], List.take_nil.symm, by simp [otherProblems, start]⟩
  obtain ⟨met, -, same⟩ : SameKnown setting.limits after later :=
    (begun setting.limits).runProgram setting statements
  refine ⟨by rw [same], by rw [same]; rfl, by rw [same], by rw [same], ?_, fun all => ?_⟩
  · rw [same]
    exact Environment.withoutUnknown_idem _
  · -- where there is room for one more problem, none is cut off on either side
    let roomy : Setting := { setting with limits.problems := setting.limits.problems + 1 }
    have less : setting.limits.problems ≤ roomy.limits.problems := Nat.le_succ _
    have afterCut : after = (runProgram roomy statements start).capped setting.limits.problems :=
      runProgram_capped less statements rfl
    have laterCut : later = (runProgram roomy (withoutUnknown statements)
        { environment := environment.withoutUnknown, document }).capped setting.limits.problems :=
      runProgram_capped less (withoutUnknown statements) rfl
    obtain ⟨met, reported, same⟩ := (begun roomy.limits).runProgram roomy statements
    have few : met.length ≤ setting.limits.problems := by
      have counted := all roomy.limits.problems
      have room : roomy.limits.problems = setting.limits.problems + 1 := rfl
      rw [reported, List.length_take] at counted
      omega
    have fewer : (otherProblems met).length ≤ setting.limits.problems :=
      Nat.le_trans (List.length_filter_le _ met) few
    rw [afterCut, laterCut, same]
    simp only [State.capped]
    rw [reported, List.take_take, List.take_take, Nat.min_eq_left less,
      List.take_of_length_le few, List.take_of_length_le fewer]

/-- A function with an unknown statement in its block, and one that calls it. -/
def patchyEnvironment : Environment where
  functions := Std.ExtTreeMap.insert ∅ "old" (program "if (1) \x7b launch rockets; n = n + 1 \x7d")

/-- A program with unknown statements at every level, some of them in a function that it
defines, and with problems of other kinds between them. -/
def patchyScript : String :=
  "one two; function next() \x7b old(); three four; document.write(n / 0) \x7d " ++
    "var n = 1; if (n == 1) \x7b five six; next() \x7d seven eight; missing(); alert(n)"

theorem runProgram_withoutUnknown_patchyScript :
    let setting : Setting := { limits := { problems := 7 }, chain := [⟨0⟩] }
    let statements := program patchyScript
    ReportsAll setting statements { environment := patchyEnvironment, document := {} } ∧
      (runProgram setting (withoutUnknown statements)
          { environment := patchyEnvironment.withoutUnknown, document := {} }).report.problems =
        otherProblems (runProgram setting statements
          { environment := patchyEnvironment, document := {} }).report.problems ∧
      (runProgram setting statements
        { environment := patchyEnvironment, document := {} }).report.problems.length = 7 := by
  intro setting statements
  have all : ReportsAll setting statements { environment := patchyEnvironment, document := {} } :=
    reportsAll_of_succ rfl (by decide +kernel)
  obtain ⟨-, -, -, -, -, problems⟩ :=
    runProgram_withoutUnknown setting statements patchyEnvironment {}
  refine ⟨all, problems all, ?_⟩
  decide +kernel

end Script
end Pagelet
