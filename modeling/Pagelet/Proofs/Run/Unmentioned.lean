import Pagelet.Proofs.Expression.Soundness
import Pagelet.Proofs.Run.Parallel
import Pagelet.Proofs.Statement.Forms

/-!
# Variables that a script does not mention

A variable is mentioned where a statement sets it and where an expression that can be read
has it for an operand.  A text that cannot be read, and is looked up as it stands, is
never a name.  So the value of a variable that no statement mentions takes no part in a
run, and the run leaves it as it was.
-/

namespace Pagelet
namespace Script

/-- A variable is read as the value that it has, and no other variable counts. -/
theorem Variables.read_congr {bindings others : Variables} {name : String}
    (same : others[name]? = bindings[name]?) : others.read name = bindings.read name := by
  rw [read, read, same]

namespace Expr

/-- The variables of an expression. -/
def names : Expr → List String
  | literal _ => []
  | var name => [name]
  | unary _ operand => operand.names
  | binary _ left right => left.names ++ right.names

/-- An expression takes its value from its variables alone. -/
theorem eval_congr {bindings others : Variables} {expr : Expr}
    (agree : ∀ name ∈ expr.names, others[name]? = bindings[name]?) :
    expr.eval others = expr.eval bindings := by
  induction expr with
  | literal value => rfl
  | var name =>
      rw [eval, eval, Variables.read_congr (agree name (List.mem_singleton.2 rfl))]
  | unary op operand ih => rw [eval, eval, ih agree]
  | binary op left right ihLeft ihRight =>
      rw [names, List.forall_mem_append] at agree
      rw [eval, eval, ihLeft agree.1, ihRight agree.2]

/-- Every variable of a tree is written as a name. -/
theorem Derives.name_mem {category : Category} {lexemes : List Lexeme} {expr : Expr}
    (derived : Derives category lexemes expr) {name : String} (mem : name ∈ expr.names) :
    .name name ∈ lexemes := by
  induction derived with
  | atom atom =>
      cases atom with
      | var => rw [List.mem_singleton.1 mem]; exact List.mem_singleton_self _
      | _ => cases mem
  | parens derived ih =>
      exact List.mem_append_left _ (List.mem_cons_of_mem _ (ih mem))
  | signed signs derived ih => exact List.mem_cons_of_mem _ (ih mem)
  | ofOperand derived ih => exact ih mem
  | ofProduct derived ih => exact ih mem
  | ofSum derived ih => exact ih mem
  | productLink first joins last ihFirst ihLast =>
      rcases List.mem_append.1 mem with inLeft | inRight
      · exact List.mem_append_left _ (ihFirst inLeft)
      · exact List.mem_append_right _ (List.mem_cons_of_mem _ (ihLast inRight))
  | sumLink first joins last ihFirst ihLast =>
      rcases List.mem_append.1 mem with inLeft | inRight
      · exact List.mem_append_left _ (ihFirst inLeft)
      · exact List.mem_append_right _ (List.mem_cons_of_mem _ (ihLast inRight))
  | compared first joins last ihFirst ihLast =>
      rcases List.mem_append.1 mem with inLeft | inRight
      · exact List.mem_append_left _ (ihFirst inLeft)
      · exact List.mem_append_right _ (List.mem_cons_of_mem _ (ihLast inRight))

end Expr

/-- A name is read as a variable, or as the truth value that it spells. -/
theorem Expr.parse_name {name : String} (isName : Statement.IsName name) :
    parse name = .ok (ofName name) := by
  obtain ⟨first, more, spelled, starts, continues⟩ := isName.exists_cons
  have notBlank : Text.isBlank first = false :=
    Lexeme.isBlank_of_isPlain
      (Lexeme.isPlain_of_isNameChar (Lexeme.isNameChar_of_isNameStart starts))
  have taken : more.takeWhile isNameChar = more := List.takeWhile_eq_self_iff.2 continues
  have left : more.dropWhile isNameChar = [] := List.dropWhile_eq_nil_iff.2 continues
  have scanned : Lexeme.scan name.toList = .ok [.name name] := by
    rw [spelled, Lexeme.scan_next notBlank (Lexeme.next_of_isNameStart starts more), taken, left,
      ← spelled, String.ofList_toList, Lexeme.scan_nil]
    rfl
  rw [parse, scanned]
  rfl

namespace Snippet

/-- The variables of a snippet, if it can be read. -/
def names (snippet : Snippet) : List String :=
  match snippet.expression with
  | .ok expression => expression.names
  | .error _ => []

/-- A snippet has the same value where its names have the same values. -/
theorem eval_congr {bindings others : Variables} {snippet : Snippet}
    (agree : ∀ name ∈ snippet.names, others[name]? = bindings[name]?) :
    snippet.eval others = snippet.eval bindings := by
  unfold names at agree
  unfold eval
  cases found : snippet.expression with
  | error fault => rfl
  | ok expression =>
      rw [found] at agree
      exact Expr.eval_congr agree

/-- A text without a value is no name. -/
theorem source_ne_of_eval {name : String} (isName : Statement.IsName name)
    {bindings : Variables} {snippet : Snippet} {fault : Fault}
    (fails : snippet.eval bindings = .error fault) : snippet.source ≠ name := by
  rintro rfl
  rw [eval, expression, Expr.parse_name isName] at fails
  unfold Expr.ofName at fails
  split at fails
  · cases fails
  · split at fails <;> cases fails

/-- What a statement takes from a snippet, it takes from its variables alone. -/
theorem evaluate_congr {name : String} (isName : Statement.IsName name) {snippet : Snippet}
    (free : name ∉ snippet.names) {state other : State}
    (agree : ∀ another : String, another ≠ name →
      other.environment.bindings[another]? = state.environment.bindings[another]?)
    (limits : Limits) :
    (other.evaluate limits snippet).1 = (state.evaluate limits snippet).1 := by
  have evals : snippet.eval other.environment.bindings = snippet.eval state.environment.bindings :=
    eval_congr fun another mem => agree another (ne_of_mem_of_not_mem mem free)
  unfold State.evaluate
  rw [evals]
  cases found : snippet.eval state.environment.bindings with
  | ok value => rfl
  | error fault =>
      dsimp only
      split
      · rfl
      · exact Variables.read_congr (agree snippet.source (source_ne_of_eval isName found))

/-- A variable of a snippet is one of the names in its text. -/
theorem exists_name_mem {snippet : Snippet} {name : String} (mem : name ∈ snippet.names) :
    ∃ lexemes, Lexeme.scan snippet.source.toList = .ok lexemes ∧ .name name ∈ lexemes := by
  unfold names at mem
  cases found : snippet.expression with
  | error fault => rw [found] at mem; cases mem
  | ok expr =>
      rw [found] at mem
      obtain ⟨lexemes, scanned, read⟩ := Expr.bind_eq_ok_iff.1 found
      exact ⟨lexemes, scanned, (Expr.derives_of_ofLexemes read).name_mem mem⟩

end Snippet

/-- The statement sets the variable, or one of its expressions has it. -/
def Statement.Mentions (name : String) (statement : Statement) : Prop :=
  statement.sets? = some name ∨ ∃ snippet ∈ statement.snippets, name ∈ snippet.names

instance (name : String) (statement : Statement) : Decidable (statement.Mentions name) :=
  inferInstanceAs (Decidable (_ ∨ _))

/-- No statement mentions the variable, however many blocks it stands inside. -/
def Omits (name : String) (statements : List Statement) : Prop :=
  ∀ blocks, ∀ statement ∈ insideBlocks blocks statements, ¬statement.Mentions name

namespace Omits

variable {name : String} {statements : List Statement} {statement : Statement}

/-- What several statements omit, each of them does. -/
theorem single (omits : Omits name statements) (mem : statement ∈ statements) :
    Omits name [statement] := by
  intro blocks inner inside
  apply omits blocks inner
  exact insideBlocks_subset (List.cons_subset.2 ⟨mem, List.nil_subset _⟩) blocks inside

/-- What a statement omits is omitted in its block. -/
theorem body (omits : Omits name [statement]) : Omits name statement.body := by
  intro blocks inner inside
  apply omits (blocks + 1) inner
  rw [insideBlocks, List.flatMap_singleton]
  exact inside

theorem not_mentions (omits : Omits name [statement]) : ¬statement.Mentions name :=
  omits 0 statement (List.mem_singleton_self statement)

/-- Only so many blocks have to be looked into as there are. -/
theorem of_forall_lt (blocks : Nat) (flat : insideBlocks blocks statements = [])
    (omits : ∀ outer < blocks, ∀ inner ∈ insideBlocks outer statements, ¬inner.Mentions name) :
    Omits name statements := by
  intro outer inner inside
  by_cases less : outer < blocks
  · exact omits outer less inner inside
  · rw [← Nat.add_sub_cancel' (Nat.le_of_not_lt less), insideBlocks_add, flat,
      insideBlocks_nil] at inside
    cases inside

end Omits

/-- Two environments agree but for the value of one variable, which each has for its own,
and no function mentions the variable. -/
structure AgreeBut (name : String) (value foreign : Option Value)
    (environment other : Environment) : Prop where
  /-- The functions are the same. -/
  functions : other.functions = environment.functions
  /-- No function mentions the variable. -/
  bodies {function : String} {body : List Statement} :
    environment.functions[function]? = some body → Omits name body
  /-- The other variables are the same. -/
  others {another : String} : another ≠ name →
    other.bindings[another]? = environment.bindings[another]?
  /-- The value on one side. -/
  value : environment.bindings[name]? = value
  /-- The value on the other side. -/
  foreign : other.bindings[name]? = foreign

namespace AgreeBut

variable {name : String} {value foreign : Option Value} {environment other : Environment}

/-- Another variable is set on both sides. -/
theorem assign (agree : AgreeBut name value foreign environment other) {another : String}
    (apart : another ≠ name) (assigned : Value) :
    AgreeBut name value foreign
      { environment with bindings := environment.bindings.insert another assigned }
      { other with bindings := other.bindings.insert another assigned } where
  functions := agree.functions
  bodies := agree.bodies
  others {third} distinct := by
    simp [Std.ExtTreeMap.getElem?_insert, agree.others distinct]
  value := by simp [Std.ExtTreeMap.getElem?_insert, apart, agree.value]
  foreign := by simp [Std.ExtTreeMap.getElem?_insert, apart, agree.foreign]

/-- A function that does not mention the variable is defined on both sides. -/
theorem define (agree : AgreeBut name value foreign environment other) (function : String)
    {body : List Statement} (omits : Omits name body) :
    AgreeBut name value foreign
      { environment with functions := environment.functions.insert function body }
      { other with functions := other.functions.insert function body } where
  functions := by rw [agree.functions]
  bodies {called found} known := by
    rw [Std.ExtTreeMap.getElem?_insert] at known
    split at known
    · cases known
      exact omits
    · exact agree.bodies known
  others := agree.others
  value := agree.value
  foreign := agree.foreign

end AgreeBut

/-! ## Runs -/

/-- Two states are the same but for environments that agree but for one variable. -/
def SameBut (name : String) (value foreign : Option Value) (state other : State) : Prop :=
  ∃ environment, other = { state with environment } ∧
    AgreeBut name value foreign state.environment environment

/-- Where a variable is not mentioned, states stay the same but for its value. -/
theorem parallel_omits {name : String} (isName : Statement.IsName name) (setting : Setting)
    (value foreign : Option Value) :
    Parallel setting setting (fun statement => Omits name [statement])
      (SameBut name value foreign) where
  chain := rfl
  depth := rfl
  block omits mem := omits.body.single mem
  body := by
    rintro state _ function body inner ⟨environment, rfl, agree⟩ known mem
    exact (agree.bodies known).single mem
  functions := by
    rintro state _ ⟨environment, rfl, agree⟩
    exact agree.functions
  eval := by
    rintro statement snippet state _ omits part ⟨environment, rfl, agree⟩
    apply Snippet.eval_congr
    intro another mem
    apply agree.others
    rintro rfl
    exact omits.not_mentions (.inr ⟨snippet, part, mem⟩)
  read := by
    rintro statement snippet state _ fault omits part ⟨environment, rfl, agree⟩ fails
    exact Variables.read_congr (agree.others (Snippet.source_ne_of_eval isName fails))
  counted := by
    rintro state _ ⟨environment, rfl, agree⟩
    exact ⟨environment, rfl, agree⟩
  emit := by
    rintro state _ output ⟨environment, rfl, agree⟩
    exact ⟨environment, rfl, agree⟩
  fail := by
    rintro state _ problem ⟨environment, rfl, agree⟩
    unfold State.fail
    by_cases room : state.report.problems.length < setting.limits.problems
    · rw [if_pos room, if_pos room]
      exact ⟨environment, rfl, agree⟩
    · rw [if_neg room, if_neg room]
      exact ⟨environment, rfl, agree⟩
  edit := by
    rintro state _ change ⟨environment, rfl, agree⟩
    exact ⟨environment, rfl, agree⟩
  assign := by
    rintro statement another state _ assigned omits sets ⟨environment, rfl, agree⟩
    have apart : another ≠ name := by
      rintro rfl
      exact omits.not_mentions (.inl sets)
    exact ⟨_, rfl, agree.assign apart assigned⟩
  define := by
    rintro function body state _ omits ⟨environment, rfl, agree⟩
    exact ⟨_, rfl, agree.define function omits.body⟩

/-- A variable that neither a program nor a function mentions takes no part in a run.  From
environments that agree on all other variables, the program does the same, gives every
other variable the same value, and leaves this one on each side as it was.  A text in which
the variable is not read as a name, even if a longer name or a string contains it, does not
mention it and means the same on both sides. -/
theorem runProgram_omits (setting : Setting) {name : String} (isName : Statement.IsName name)
    {statements : List Statement} (omits : Omits name statements)
    {environment other : Environment} (functions : other.functions = environment.functions)
    (bodies : ∀ (function : String) (body : List Statement),
      environment.functions[function]? = some body → Omits name body)
    (agree : ∀ another : String, another ≠ name →
      other.bindings[another]? = environment.bindings[another]?)
    (document : Document) :
    let start : State := { environment, document }
    let start' : State := { environment := other, document }
    let left := runProgram setting statements start
    let right := runProgram setting statements start'
    right.document = left.document ∧ right.report = left.report ∧
      right.environment.functions = left.environment.functions ∧
      (∀ another : String, another ≠ name →
        right.environment.bindings[another]? = left.environment.bindings[another]?) ∧
      left.environment.bindings[name]? = environment.bindings[name]? ∧
      right.environment.bindings[name]? = other.bindings[name]? ∧
      ∀ snippet : Snippet,
        (∀ lexemes, Lexeme.scan snippet.source.toList = .ok lexemes → .name name ∉ lexemes) →
          name ∉ snippet.names ∧
            (start'.evaluate setting.limits snippet).1 =
              (start.evaluate setting.limits snippet).1 := by
  intro start start' left right
  have begun : AgreeBut name environment.bindings[name]? other.bindings[name]? environment other :=
    { functions, bodies := bodies _ _, others := agree _, value := rfl, foreign := rfl }
  obtain ⟨after, same, agreed⟩ : SameBut name environment.bindings[name]? other.bindings[name]?
      left right :=
    (parallel_omits isName setting _ _).runProgram (fun _ mem => omits.single mem)
      ⟨other, rfl, begun⟩
  rw [same]
  refine ⟨rfl, rfl, agreed.functions, fun _ => agreed.others, agreed.value, agreed.foreign, ?_⟩
  intro snippet unnamed
  have free : name ∉ snippet.names := by
    intro mem
    obtain ⟨lexemes, scanned, named⟩ := Snippet.exists_name_mem mem
    exact unnamed lexemes scanned named
  exact ⟨free, Snippet.evaluate_congr isName free agree setting.limits⟩

/-- A script with a name, a string and a broken expression around another name. -/
def counterScript : String :=
  "function step() \x7b counter = 'count' + n; again() \x7d " ++
    "if (n) \x7b step(); alert(a count) \x7d"

/-- An environment with a function that a script may call. -/
def counterEnvironment : Environment where
  bindings := Std.ExtTreeMap.insert ∅ "n" (.number 2)
  functions := Std.ExtTreeMap.insert ∅ "again" (program "if (accounts) \x7b other() \x7d")

theorem runProgram_omits_counterScript :
    let setting : Setting := { limits := {}, chain := [⟨0⟩] }
    let other : Environment :=
      { counterEnvironment with bindings := counterEnvironment.bindings.insert "count" (.number 7) }
    let left := runProgram setting (program counterScript)
      { environment := counterEnvironment, document := {} }
    let right := runProgram setting (program counterScript)
      { environment := other, document := {} }
    Statement.IsName "count" ∧ Omits "count" (program counterScript) ∧
      (∀ (function : String) (body : List Statement),
        counterEnvironment.functions[function]? = some body → Omits "count" body) ∧
      (∀ another : String, another ≠ "count" →
        other.bindings[another]? = counterEnvironment.bindings[another]?) ∧
      right.document = left.document ∧ right.report = left.report ∧
      left.environment.bindings["count"]? = none ∧
      right.environment.bindings["count"]? = some (.number 7) := by
  intro setting other
  have isName : Statement.IsName "count" := ⟨⟨'c', rfl, rfl⟩, List.all_eq_true.1 rfl⟩
  have omits : Omits "count" (program counterScript) := by
    apply Omits.of_forall_lt 2
    · exact List.isEmpty_iff.1 (by decide +kernel)
    · decide +kernel
  have bodies (function : String) (body : List Statement)
      (known : counterEnvironment.functions[function]? = some body) : Omits "count" body := by
    rw [counterEnvironment, Std.ExtTreeMap.getElem?_insert] at known
    split at known
    · cases known
      apply Omits.of_forall_lt 2
      · exact List.isEmpty_iff.1 (by decide +kernel)
      · decide +kernel
    · cases known
  have agree (another : String) (apart : another ≠ "count") :
      other.bindings[another]? = counterEnvironment.bindings[another]? := by
    simp [other, Std.ExtTreeMap.getElem?_insert, apart.symm]
  have functions : other.functions = counterEnvironment.functions := rfl
  have unset : counterEnvironment.bindings["count"]? = none := by
    simp [counterEnvironment]
  have set : other.bindings["count"]? = some (.number 7) := by simp [other]
  obtain ⟨document, report, _, _, before, after, _⟩ :=
    runProgram_omits setting isName omits functions bodies agree {}
  exact ⟨isName, omits, bodies, agree, document, report, before.trans unset, after.trans set⟩

end Script
end Pagelet
