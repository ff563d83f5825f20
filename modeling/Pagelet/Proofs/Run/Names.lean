import Pagelet.Proofs.Expression.Faultless
import Pagelet.Proofs.Run.Unmentioned

/-!
# Names of variables and functions

Whatever scripts are run one after the other, the variables and functions that they leave
behind have names, and so they do at every moment of a run.  A text that cannot be read as
an expression and has no sign of arithmetic is looked up as it stands; since such a text is
never a name, nothing is ever found.
-/

namespace Pagelet
namespace Script

open Style (StyleRef)

namespace Statement

/-- The function that a statement defines, if it defines one. -/
def defines? : Statement → Option String
  | define name _ => some name
  | _ => none

/-- What the statement itself sets or defines has a name. -/
structure BindsName (statement : Statement) : Prop where
  /-- The variable has a name. -/
  sets : ∀ name ∈ statement.sets?, IsName name
  /-- The function has a name. -/
  defines : ∀ name ∈ statement.defines?, IsName name

/-- What the statement sets or defines has a name, and so it is for the statements in its
block. -/
inductive BindsNames : Statement → Prop
  | intro {statement : Statement} (own : statement.BindsName)
      (block : ∀ inner ∈ statement.body, BindsNames inner) : BindsNames statement

theorem BindsNames.own {statement : Statement} (binds : statement.BindsNames) :
    statement.BindsName := by
  cases binds
  assumption

/-- What binds names does so in its block. -/
theorem BindsNames.block {statement inner : Statement} (binds : statement.BindsNames)
    (mem : inner ∈ statement.body) : inner.BindsNames := by
  cases binds with
  | intro _ block => exact block inner mem

section Reading

variable {cs : List Char} {name : String}

open Reads (nothing just)

theorem bindsName_of_none {statement : Statement} (noVariable : statement.sets? = none)
    (noFunction : statement.defines? = none) : statement.BindsName where
  sets name set := by rw [noVariable] at set; cases set
  defines name defined := by rw [noFunction] at defined; cases defined

theorem bindsName_declare (isName : IsName name) : (declare name).BindsName where
  sets _ set := by cases set; exact isName
  defines _ defined := by cases defined

theorem bindsName_assign (isName : IsName name) (value : Snippet) :
    (assign name value).BindsName where
  sets _ set := by cases set; exact isName
  defines _ defined := by cases defined

theorem bindsName_define (isName : IsName name) (body : List Statement) :
    (define name body).BindsName where
  sets _ set := by cases set
  defines _ defined := by cases defined; exact isName

/-- A definition binds the name it was read with. -/
theorem bindsName_definition? (block : List Char → List Statement) (cs : List Char) :
    Reads BindsName (definition? block cs) := by
  refine .bind _ fun rest _ => ?_
  dsimp only
  split
  · exact nothing
  · refine .bind _ fun parts cut => .bind _ fun body _ => just ?_
    exact bindsName_define (isName_of_splitName? cut) _

theorem bindsName_invocation? (cs : List Char) : Reads BindsName (invocation? cs) := by
  refine .bind _ fun parts _ => .bind _ fun inside _ => ?_
  split
  · exact just (bindsName_of_none rfl rfl)
  · exact nothing

theorem bindsName_choice? (block : List Char → List Statement) (single : List Char → Statement)
    (cs : List Char) : Reads BindsName (choice? block single cs) := by
  rcases choice?_cases cs with none_ | ⟨condition, body, chosen⟩ | ⟨condition, text, chosen⟩ |
    ⟨condition, chosen⟩
  · rw [none_]
    exact nothing
  all_goals
    rw [chosen]
    exact just (bindsName_of_none rfl rfl)

theorem bindsName_declaration? (cs : List Char) : Reads BindsName (declaration? cs) := by
  refine .bind _ fun rest _ => ?_
  dsimp only
  split
  · exact nothing
  · refine .bind _ fun parts cut => ?_
    have isName := isName_of_splitName? cut
    split
    · exact just (bindsName_declare isName)
    · exact .bind _ fun value _ => just (bindsName_assign isName _)

theorem bindsName_mutation? (cs : List Char) : Reads BindsName (mutation? cs) := by
  refine .bind _ fun rest _ => .bind _ fun parts _ => .bind _ fun member _ =>
    .bind _ fun names _ => .bind _ fun value _ => ?_
  split
  · exact .map _ fun _ _ => bindsName_of_none rfl rfl
  · exact just (bindsName_of_none rfl rfl)
  · exact just (bindsName_of_none rfl rfl)
  · exact nothing

theorem bindsName_assignment? (cs : List Char) : Reads BindsName (assignment? cs) := by
  refine .bind _ fun parts cut => ?_
  dsimp only
  split
  · exact nothing
  · exact .bind _ fun value _ => just (bindsName_assign (isName_of_splitName? cut) _)

end Reading

/-- A statement that is read binds names only. -/
theorem bindsName_read (room : Nat) (text : List Char) : (read room text).BindsName := by
  cases room with
  | zero => exact bindsName_of_none rfl rfl
  | succ room =>
      rw [read_succ]
      refine Reads.getD ?_ _ (bindsName_of_none rfl rfl)
      have called (callee : String) (form : Snippet → Statement)
          (free : ∀ snippet, (form snippet).BindsName) :
          Reads BindsName ((argument? callee (Text.trim text)).map form) :=
        .map _ fun snippet _ => free snippet
      exact .orElse (called _ _ fun _ => bindsName_of_none rfl rfl) <|
        .orElse (bindsName_definition? _ _) <|
        .orElse (bindsName_invocation? _) <|
        .orElse (bindsName_choice? _ _ _) <|
        .orElse (called _ _ fun _ => bindsName_of_none rfl rfl) <|
        .orElse (called _ _ fun _ => bindsName_of_none rfl rfl) <|
        .orElse (bindsName_declaration? _) <|
        .orElse (bindsName_mutation? _) (bindsName_assignment? _)

/-- In a statement that is read, names only are bound, however deep its blocks are nested. -/
theorem bindsNames_read (room : Nat) (text : List Char) : (read room text).BindsNames := by
  induction room generalizing text with
  | zero => exact ⟨bindsName_read 0 text, by simp [read, body]⟩
  | succ room ih =>
      refine ⟨bindsName_read (room + 1) text, fun inner mem => ?_⟩
      obtain ⟨texts, block⟩ := exists_body_read text
      rw [block] at mem
      obtain ⟨part, -, rfl⟩ := List.mem_map.1 mem
      exact ih part

end Statement

open Statement (IsName BindsNames)

/-- Every statement of a program binds names, in its blocks too. -/
theorem bindsNames_of_mem_program {source : String} {statement : Statement}
    (mem : statement ∈ program source) : statement.BindsNames := by
  obtain ⟨text, -, rfl⟩ := List.mem_map.1 mem
  exact Statement.bindsNames_read _ text

/-- The variables and functions have names, and so do those that the functions bind. -/
structure Environment.WellNamed (environment : Environment) : Prop where
  /-- Every variable has a name. -/
  bindings {name : String} {value : Value} :
    environment.bindings[name]? = some value → IsName name
  /-- Every function has a name. -/
  functions {name : String} {body : List Statement} :
    environment.functions[name]? = some body → IsName name
  /-- What the body of a function binds has a name. -/
  bodies {name : String} {body : List Statement} {inner : Statement} :
    environment.functions[name]? = some body → inner ∈ body → inner.BindsNames

namespace Environment.WellNamed

variable {environment : Environment} {name : String}

theorem empty : Environment.WellNamed {} where
  bindings known := by simp at known
  functions known := by simp at known
  bodies known := by simp at known

theorem assign (named : environment.WellNamed) (isName : IsName name) (value : Value) :
    Environment.WellNamed
      { environment with bindings := environment.bindings.insert name value } where
  bindings known := by
    rw [Std.ExtTreeMap.getElem?_insert] at known
    split at known
    · next same => exact Std.LawfulEqCmp.eq_of_compare same ▸ isName
    · exact named.bindings known
  functions := named.functions
  bodies := named.bodies

theorem define (named : environment.WellNamed) (isName : IsName name) {body : List Statement}
    (binds : ∀ inner ∈ body, inner.BindsNames) :
    Environment.WellNamed
      { environment with functions := environment.functions.insert name body } where
  bindings := named.bindings
  functions known := by
    rw [Std.ExtTreeMap.getElem?_insert] at known
    split at known
    · next same => exact Std.LawfulEqCmp.eq_of_compare same ▸ isName
    · exact named.functions known
  bodies known mem := by
    rw [Std.ExtTreeMap.getElem?_insert] at known
    split at known
    · cases known
      exact binds _ mem
    · exact named.bodies known mem

end Environment.WellNamed

@[simp]
theorem State.environment_fail (limits : Limits) (problem : Problem) (state : State) :
    (state.fail limits problem).environment = state.environment := by
  unfold fail
  split <;> rfl

/-- Side by side with itself, a run that binds names only keeps its environment well named. -/
theorem parallel_wellNamed (setting : Setting) :
    Parallel setting setting BindsNames
      (fun state other => other = state ∧ state.environment.WellNamed) where
  chain := rfl
  depth := rfl
  block := BindsNames.block
  body := by rintro state _ name body inner ⟨rfl, named⟩ known mem; exact named.bodies known mem
  functions := by rintro state _ ⟨rfl, -⟩; rfl
  eval := by rintro _ _ state _ _ _ ⟨rfl, -⟩; rfl
  read := by rintro _ _ state _ _ _ _ ⟨rfl, -⟩ _; rfl
  counted := by rintro state _ ⟨rfl, named⟩; exact ⟨rfl, named⟩
  emit := by rintro state _ output ⟨rfl, named⟩; exact ⟨rfl, named⟩
  fail := by
    rintro state _ problem ⟨rfl, named⟩
    exact ⟨rfl, by rwa [State.environment_fail]⟩
  edit := by rintro state _ change ⟨rfl, named⟩; exact ⟨rfl, named⟩
  assign := by
    rintro statement name state _ value binds sets ⟨rfl, named⟩
    exact ⟨rfl, named.assign (binds.own.sets name sets) value⟩
  define := by
    rintro name body state _ binds ⟨rfl, named⟩
    exact ⟨rfl, named.define (binds.own.defines name rfl) fun _ mem => binds.block mem⟩

/-- The environments that a new interpreter may have between two runs. -/
inductive Reached (limits : Limits) : Environment → Prop
  /-- At first nothing is bound. -/
  | new : Reached limits {}
  /-- A run leaves its environment to the next one. -/
  | run {environment : Environment} (reached : Reached limits environment)
      (chain : List StyleRef) (source : String) (document : Document) :
      Reached limits (Script.run ⟨limits, chain⟩ source environment document).environment

/-- While a block is carried out from a state, with room for so many further calls, the
environment is the given one at some moment. -/
inductive Passes (setting : Setting) : Nat → List Statement → State → Environment → Prop
  /-- This is the environment before the first statement, or behind the last one. -/
  | now {room : Nat} {statements : List Statement} {state : State} :
      Passes setting room statements state state.environment
  /-- It comes about behind the first statement. -/
  | later {room : Nat} {statement : Statement} {rest : List Statement} {state : State}
      {environment : Environment} :
      Passes setting room rest (statement.run setting (callFunction setting room) state)
        environment →
      Passes setting room (statement :: rest) state environment
  /-- It comes about in the block of a condition that holds. -/
  | inBlock {room : Nat} {condition : Snippet} {body rest : List Statement}
      {state decided : State} {environment : Environment} :
      state.decideCondition setting.limits condition = (true, decided) →
      Passes setting room body decided environment →
      Passes setting room (.conditional condition body :: rest) state environment
  /-- It comes about in the body of a function that is called. -/
  | inCall {room : Nat} {name : String} {body rest : List Statement} {state : State}
      {environment : Environment} :
      state.environment.functions[name]? = some body →
      Passes setting room body state environment →
      Passes setting (room + 1) (.call name :: rest) state environment

/-- The environment that a block leaves behind comes about. -/
theorem Passes.runBlock (setting : Setting) (room : Nat) (statements : List Statement)
    (state : State) :
    Passes setting room statements state
      (runBlock setting (callFunction setting room) statements state).environment := by
  induction statements generalizing state with
  | nil => exact .now
  | cons statement rest ih => exact .later (ih _)

/-- Every environment that is reached is named well. -/
theorem Reached.wellNamed {limits : Limits} {environment : Environment}
    (reached : Reached limits environment) : environment.WellNamed := by
  induction reached with
  | new => exact .empty
  | run _ chain source document named =>
      unfold Script.run
      split
      · rwa [State.environment_fail]
      · exact ((parallel_wellNamed ⟨limits, chain⟩).runProgram
          (fun _ mem => bindsNames_of_mem_program mem) ⟨rfl, named⟩).2

/-- Every environment that a run passes through is named well. -/
theorem Passes.wellNamed {setting : Setting} {room : Nat} {statements : List Statement}
    {state : State} {environment : Environment}
    (passes : Passes setting room statements state environment)
    (binds : ∀ statement ∈ statements, statement.BindsNames)
    (named : state.environment.WellNamed) : environment.WellNamed := by
  induction passes with
  | now => exact named
  | @later room statement rest state environment _ ih =>
      obtain ⟨first, others⟩ := List.forall_mem_cons.1 binds
      have parallel := parallel_wellNamed setting
      exact ih others (parallel.run (fun name _ _ => parallel.callFunction room name) statement
        first ⟨rfl, named⟩).2
  | @inBlock room condition body rest state decided environment decides _ ih =>
      obtain ⟨first, -⟩ := List.forall_mem_cons.1 binds
      have part : condition ∈ (Statement.conditional condition body).snippets :=
        List.mem_cons_self
      have after := ((parallel_wellNamed setting).decideCondition first part ⟨rfl, named⟩).2.2
      rw [decides] at after
      exact ih (fun _ mem => first.block mem) after
  | inCall known _ ih => exact ih (fun _ mem => named.bodies known mem) named

/-- Whatever scripts a new interpreter has run, and at every moment of the next run, the
variables and functions have names.  So a snippet without a sign of arithmetic is never
reported: it has the value of its expression if it can be read, and otherwise no variable
is found under its text, and it counts as the empty text. -/
theorem evaluate_of_reached {limits : Limits} {chain : List StyleRef} {source : String}
    {document : Document} {before environment : Environment} (reached : Reached limits before)
    (passes : Passes ⟨limits, chain⟩ limits.callDepth (program source)
      { environment := before, document } environment) :
    (∀ (name : String) (value : Value),
        environment.bindings[name]? = some value → IsName name) ∧
      (∀ (name : String) (body : List Statement),
        environment.functions[name]? = some body → IsName name) ∧
      ∀ (state : State) (snippet : Snippet), state.environment = environment →
        snippet.isArithmetic = false →
        (∀ expr, snippet.expression = .ok expr →
          ∃ value, expr.eval environment.bindings = .ok value ∧
            state.evaluate limits snippet = (value, state)) ∧
        (∀ fault, snippet.expression = .error fault →
          environment.bindings[snippet.source]? = none ∧
            state.evaluate limits snippet = (.text "", state)) := by
  have named : environment.WellNamed :=
    passes.wellNamed (fun _ mem => bindsNames_of_mem_program mem) reached.wellNamed
  refine ⟨fun _ _ => named.bindings, fun _ _ => named.functions, ?_⟩
  rintro state snippet rfl quiet
  refine ⟨fun expr read => ?_, fun fault unread => ?_⟩
  · obtain ⟨value, evaluated⟩ := snippet.exists_eval quiet read state.environment.bindings
    have evals : snippet.eval state.environment.bindings = .ok value := by
      rw [Snippet.eval, read]
      exact evaluated
    exact ⟨value, evaluated, by rw [State.evaluate, evals]⟩
  · have fails : snippet.eval state.environment.bindings = .error fault := by
      rw [Snippet.eval, unread]
      rfl
    have unbound : state.environment.bindings[snippet.source]? = none := by
      cases found : state.environment.bindings[snippet.source]? with
      | none => rfl
      | some value => exact absurd rfl (Snippet.source_ne_of_eval (named.bindings found) fails)
    refine ⟨unbound, ?_⟩
    rw [State.evaluate, fails]
    simp only [quiet, Variables.read, unbound]
    rfl

/-- The environment that a first script leaves behind. -/
def labelEnvironment : Environment :=
  (run ⟨{}, []⟩ "var total = 1; function show() \x7b alert(total) \x7d" {} {}).environment

/-- A second script has set another variable in a block.  The names of both variables
together make a snippet that cannot be read, and a comparison of them one that can. -/
theorem evaluate_of_reached_labelEnvironment :
    let setting : Setting := ⟨{}, []⟩
    let script := "if (total == 1) \x7b label = 'x'; show() \x7d"
    let before : State := { environment := labelEnvironment, document := {} }
    ∃ state : State, Reached {} labelEnvironment ∧
      Passes setting 64 (program script) before state.environment ∧
      state.environment.bindings["label"]? = some (.text "x") ∧
      state.evaluate {} ⟨"label total"⟩ = (.text "", state) ∧
      (state.evaluate {} ⟨"label != total"⟩).2 = state := by
  intro setting script before
  have reached : Reached {} labelEnvironment := .run .new [] _ {}
  let state := runBlock setting (callFunction setting 64) (program script) before
  have passes : Passes setting 64 (program script) before state.environment := .runBlock ..
  have unread : Snippet.expression ⟨"label total"⟩ =
      .error (.unexpectedLexeme (.name "total")) := by decide +kernel
  have comparison : Snippet.expression ⟨"label != total"⟩ =
      .ok (.binary .notEqual (.var "label") (.var "total")) := by decide +kernel
  obtain ⟨-, -, evaluates⟩ := evaluate_of_reached reached passes
  obtain ⟨-, empty⟩ := evaluates state ⟨"label total"⟩ rfl (by decide)
  obtain ⟨value, -⟩ := evaluates state ⟨"label != total"⟩ rfl (by decide)
  obtain ⟨_, -, evaluated⟩ := value _ comparison
  exact ⟨state, reached, passes, by decide +kernel, (empty _ unread).2, by rw [evaluated]⟩

end Script
end Pagelet
