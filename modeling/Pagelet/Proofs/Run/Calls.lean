import Mathlib
import Pagelet.Proofs.Statement.Room
import Pagelet.Script.Run

/-!
# Calls

What a block may do is told by rules that count the active calls and know no limit: a
function that is called may be carried out or refused, and its body is whatever the
environment holds when the call is reached.  Of all that these rules allow, a run does
the one thing that keeps to the limit on active calls.
-/

namespace Pagelet
namespace Script

/-- A call of a defined function. -/
structure Call where
  /-- The function. -/
  name : String
  /-- How many calls are active when this one is reached. -/
  active : Nat
  /-- Whether the body of the function is carried out.  A call is refused otherwise. -/
  entered : Bool
deriving DecidableEq, Repr

/-- A call is dealt with as the limit on active calls has it. -/
structure Call.Within (limit : Nat) (made : Call) : Prop where
  /-- With the call itself, no more are active than allowed while the body is carried
  out. -/
  le_of_entered : made.entered = true → made.active + 1 ≤ limit
  /-- The call is refused exactly when as many calls are active already. -/
  refused_iff : made.entered = false ↔ made.active = limit

instance (limit : Nat) (made : Call) : Decidable (made.Within limit) :=
  decidable_of_iff
    ((made.entered = true → made.active + 1 ≤ limit) ∧
      (made.entered = false ↔ made.active = limit))
    ⟨fun ⟨inside, refused⟩ => ⟨inside, refused⟩,
      fun within => ⟨within.le_of_entered, within.refused_iff⟩⟩

/-- The limit decides whether a call is carried out. -/
theorem Call.Within.entered_eq {limit : Nat} {one other : Call} (within : one.Within limit)
    (inside : other.Within limit) (same : one.active = other.active) :
    one.entered = other.entered := by
  have alike : one.entered = false ↔ other.entered = false := by
    rw [within.refused_iff, inside.refused_iff, same]
  simpa only [Bool.not_eq_false, ← Bool.eq_iff_iff] using not_congr alike

/-- Whether a statement neither is a call nor has a block to carry out. -/
def Statement.IsPlain : Statement → Prop
  | call _ => False
  | conditional _ _ => False
  | _ => True

/-- What a plain statement does. -/
def Statement.effect (setting : Setting) (statement : Statement) (state : State) : State :=
  statement.run setting (fun _ state => state) state

/-- A plain statement runs no block and calls nothing. -/
theorem Statement.IsPlain.run_eq {statement : Statement} (plain : statement.IsPlain)
    (setting : Setting) (invoke : String → State → State) (state : State) :
    statement.run setting invoke state = statement.effect setting state := by
  cases statement with
  | call name => exact plain.elim
  | conditional condition body => exact plain.elim
  | _ => rfl

/-- With so many calls active, a block may lead from one state to another and make these
calls on the way. -/
inductive Performs (setting : Setting) :
    Nat → List Statement → State → List Call → State → Prop
  /-- Nothing is left to do. -/
  | done {active : Nat} {state : State} : Performs setting active [] state [] state
  /-- A plain statement has its effect. -/
  | plain {active : Nat} {statement : Statement} {rest : List Statement}
      {state after : State} {made : List Call} :
      statement.IsPlain →
      Performs setting active rest (statement.effect setting state) made after →
      Performs setting active (statement :: rest) state made after
  /-- The condition holds, and the block behind it is carried out. -/
  | taken {active : Nat} {condition : Snippet} {body rest : List Statement}
      {state decided inner after : State} {made later : List Call} :
      state.decideCondition setting.limits condition = (true, decided) →
      Performs setting active body decided made inner →
      Performs setting active rest inner.counted later after →
      Performs setting active (.conditional condition body :: rest) state (made ++ later) after
  /-- The condition does not hold. -/
  | passed {active : Nat} {condition : Snippet} {body rest : List Statement}
      {state decided after : State} {made : List Call} :
      state.decideCondition setting.limits condition = (false, decided) →
      Performs setting active rest decided.counted made after →
      Performs setting active (.conditional condition body :: rest) state made after
  /-- The function that is called is not defined. -/
  | undefined {active : Nat} {name : String} {rest : List Statement} {state after : State}
      {made : List Call} :
      state.environment.functions[name]? = none →
      Performs setting active rest (state.fail setting.limits (.unknownFunction name)) made
        after →
      Performs setting active (.call name :: rest) state made after
  /-- The body of the function that is called is carried out, with one more call active. -/
  | entered {active : Nat} {name : String} {body rest : List Statement}
      {state inner after : State} {made later : List Call} :
      state.environment.functions[name]? = some body →
      Performs setting (active + 1) body state made inner →
      Performs setting active rest inner.counted later after →
      Performs setting active (.call name :: rest) state
        (⟨name, active, true⟩ :: made ++ later) after
  /-- The function that is called is defined, but the call is refused. -/
  | refused {active : Nat} {name : String} {body rest : List Statement}
      {state after : State} {made : List Call} :
      state.environment.functions[name]? = some body →
      Performs setting active rest
        (state.fail setting.limits (.callDepthExceeded name setting.limits.callDepth)) made
        after →
      Performs setting active (.call name :: rest) state (⟨name, active, false⟩ :: made) after

/-- A block leads from one state to another, and each call on the way is dealt with as the
limit has it. -/
structure KeepsLimit (setting : Setting) (active : Nat) (statements : List Statement)
    (before : State) (made : List Call) (after : State) : Prop where
  /-- The block leads there. -/
  performs : Performs setting active statements before made after
  /-- Each call is dealt with as the limit has it. -/
  within : ∀ one ∈ made, one.Within setting.limits.callDepth

section

variable {setting : Setting} {active : Nat} {invoke : String → State → State}

/-- A statement does its part of each block that begins with it, with these calls. -/
def Leads (setting : Setting) (active : Nat) (statement : Statement) (before after : State)
    (made : List Call) : Prop :=
  ∀ rest later last, KeepsLimit setting active rest after later last →
    KeepsLimit setting active (statement :: rest) before (made ++ later) last

/-- With so many calls active, a further call keeps to the limit. -/
def CallsLead (setting : Setting) (active : Nat) (invoke : String → State → State) : Prop :=
  ∀ name state, ∃ made, Leads setting active (.call name) state (invoke name state) made

/-- A plain statement makes no call. -/
theorem leads_of_isPlain (statement : Statement) (state : State)
    (plain : statement.IsPlain) :
    Leads setting active statement state (statement.run setting invoke state) [] := by
  rintro rest later last ⟨performs, within⟩
  rw [plain.run_eq] at performs
  exact ⟨.plain plain performs, within⟩

/-- A call of a function that is not there is a problem, and no call. -/
theorem leads_of_undefined {name : String} {state : State}
    (missing : state.environment.functions[name]? = none) :
    Leads setting active (.call name) state
      (state.fail setting.limits (.unknownFunction name)) [] :=
  fun _ _ _ others => ⟨.undefined missing others.performs, others.within⟩

mutual

/-- A statement keeps to the limit if calls do. -/
theorem exists_leads (calls : CallsLead setting active invoke) :
    ∀ (statement : Statement) (state : State),
      ∃ made, Leads setting active statement state (statement.run setting invoke state) made
  | .call name, state => calls name state
  | .conditional condition body, state => by
      cases holds : state.decideCondition setting.limits condition with
      | mk holding decided =>
          obtain ⟨made, keeps⟩ := exists_keepsLimit calls body decided
          simp only [Statement.run, holds]
          cases holding with
          | false => exact ⟨[], fun _ _ _ others => ⟨.passed holds others.performs, others.within⟩⟩
          | true =>
              refine ⟨made, fun _ _ _ others => ⟨.taken holds keeps.performs others.performs, ?_⟩⟩
              exact List.forall_mem_append.2 ⟨keeps.within, others.within⟩
  | .alert _, _ => ⟨[], leads_of_isPlain _ _ trivial⟩
  | .define _ _, _ => ⟨[], leads_of_isPlain _ _ trivial⟩
  | .write _, _ => ⟨[], leads_of_isPlain _ _ trivial⟩
  | .log _, _ => ⟨[], leads_of_isPlain _ _ trivial⟩
  | .declare _, _ => ⟨[], leads_of_isPlain _ _ trivial⟩
  | .assign _ _, _ => ⟨[], leads_of_isPlain _ _ trivial⟩
  | .setHandler _ _, _ => ⟨[], leads_of_isPlain _ _ trivial⟩
  | .setText _ _, _ => ⟨[], leads_of_isPlain _ _ trivial⟩
  | .unknown _, _ => ⟨[], leads_of_isPlain _ _ trivial⟩

/-- A block keeps to the limit if calls do. -/
theorem exists_keepsLimit (calls : CallsLead setting active invoke) :
    ∀ (statements : List Statement) (state : State),
      ∃ made, KeepsLimit setting active statements state made
        (runBlock setting invoke statements state)
  | [], _ => ⟨[], .done, by simp⟩
  | statement :: rest, state => by
      obtain ⟨made, leads⟩ := exists_leads calls statement state
      obtain ⟨later, keeps⟩ := exists_keepsLimit calls rest (statement.run setting invoke state)
      exact ⟨made ++ later, leads rest later _ keeps⟩

end

/-- Calls keep to the limit when they have the room that the active calls leave. -/
theorem callsLead_callFunction {room : Nat}
    (leaves : active + room = setting.limits.callDepth) :
    CallsLead setting active (callFunction setting room) := by
  induction room generalizing active with
  | zero =>
      intro name state
      unfold callFunction
      cases known : state.environment.functions[name]? with
      | none => exact ⟨[], leads_of_undefined known⟩
      | some body =>
          refine ⟨[⟨name, active, false⟩], fun _ _ _ others =>
            ⟨.refused known others.performs, List.forall_mem_cons.2 ⟨⟨?_, ?_⟩, others.within⟩⟩⟩
          · simp
          · simpa using leaves
  | succ room ih =>
      intro name state
      unfold callFunction
      cases known : state.environment.functions[name]? with
      | none => exact ⟨[], leads_of_undefined known⟩
      | some body =>
          have inside : active + 1 + room = setting.limits.callDepth := by omega
          obtain ⟨made, keeps⟩ := exists_keepsLimit (ih inside) body state
          refine ⟨⟨name, active, true⟩ :: made, fun _ _ _ others =>
            ⟨.entered known keeps.performs others.performs, ?_⟩⟩
          rw [List.cons_append, List.forall_mem_cons, List.forall_mem_append]
          have fewer : active + 1 ≤ setting.limits.callDepth := by omega
          refine ⟨⟨fun _ => fewer, ?_⟩, keeps.within, others.within⟩
          simpa only [Bool.true_eq_false, false_iff] using Nat.ne_of_lt fewer

/-- Of what a block may do from a state, only one thing keeps to the limit. -/
theorem Performs.unique {statements : List Statement} {before after other : State}
    {made calls : List Call}
    (first : Performs setting active statements before made after)
    (second : Performs setting active statements before calls other)
    (within : ∀ one ∈ made, one.Within setting.limits.callDepth)
    (inside : ∀ one ∈ calls, one.Within setting.limits.callDepth) :
    calls = made ∧ other = after := by
  induction first generalizing calls other with
  | done =>
      cases second
      exact ⟨rfl, rfl⟩
  | plain plain _ ih =>
      cases second with
      | plain _ others => exact ih others within inside
      | taken | passed | undefined | entered | refused => exact plain.elim
  | taken decides _ _ bodies rests =>
      cases second with
      | plain plain _ => exact plain.elim
      | passed decides' _ => simp [decides] at decides'
      | taken decides' body rest =>
          obtain rfl : _ = _ := congrArg Prod.snd (decides.symm.trans decides')
          rw [List.forall_mem_append] at within inside
          obtain ⟨rfl, rfl⟩ := bodies body within.1 inside.1
          obtain ⟨rfl, rfl⟩ := rests rest within.2 inside.2
          exact ⟨rfl, rfl⟩
  | passed decides _ ih =>
      cases second with
      | plain plain _ => exact plain.elim
      | taken decides' _ _ => simp [decides] at decides'
      | passed decides' others =>
          obtain rfl : _ = _ := congrArg Prod.snd (decides.symm.trans decides')
          exact ih others within inside
  | undefined missing _ ih =>
      cases second with
      | plain plain _ => exact plain.elim
      | undefined _ others => exact ih others within inside
      | entered known _ _ => simp [missing] at known
      | refused known _ => simp [missing] at known
  | entered known _ _ bodies rests =>
      cases second with
      | plain plain _ => exact plain.elim
      | undefined missing _ => simp [missing] at known
      | refused _ _ =>
          rw [List.cons_append, List.forall_mem_cons] at within
          cases within.1.entered_eq (List.forall_mem_cons.1 inside).1 rfl
      | entered known' body rest =>
          obtain rfl := Option.some.inj (known.symm.trans known')
          rw [List.cons_append, List.forall_mem_cons, List.forall_mem_append] at within inside
          obtain ⟨rfl, rfl⟩ := bodies body within.2.1 inside.2.1
          obtain ⟨rfl, rfl⟩ := rests rest within.2.2 inside.2.2
          exact ⟨rfl, rfl⟩
  | refused known _ ih =>
      cases second with
      | plain plain _ => exact plain.elim
      | undefined missing _ => simp [missing] at known
      | entered _ _ _ =>
          rw [List.cons_append, List.forall_mem_cons] at inside
          cases inside.1.entered_eq (List.forall_mem_cons.1 within).1 rfl
      | refused _ others =>
          rw [List.forall_mem_cons] at within inside
          obtain ⟨rfl, rfl⟩ := ih others within.2 inside.2
          exact ⟨rfl, rfl⟩

end

/-- A run leads where the rules for calls lead when each call is dealt with as the limit
has it, by the one way there is.  A script that is too long is not run.  However a script
nests its blocks, no statement stands inside more blocks than one above the limit, and
those that do are kept as text. -/
theorem run_keepsLimit (setting : Setting) (source : String) (environment : Environment)
    (document : Document) :
    (source.utf8ByteSize ≤ setting.limits.scriptBytes →
      ∃ made, ∀ calls after,
        KeepsLimit setting 0 (program source) { environment, document } calls after ↔
          calls = made ∧ after = run setting source environment document) ∧
    (setting.limits.scriptBytes < source.utf8ByteSize →
      (run setting source environment document).environment = environment ∧
        (run setting source environment document).document = document ∧
        (run setting source environment document).report.statements = 0) ∧
    ∀ blocks, ∀ statement ∈ insideBlocks blocks (program source),
      blocks ≤ maxBlockDepth + 1 ∧
        (blocks = maxBlockDepth + 1 → ∃ text, statement = .unknown text) := by
  refine ⟨fun short => ?_, fun long => ?_, fun blocks statement inside => ⟨?_, ?_⟩⟩
  · have runs : run setting source environment document =
        runProgram setting (program source) { environment, document } :=
      if_neg (Nat.not_lt.2 short)
    obtain ⟨made, keeps⟩ := exists_keepsLimit
      (callsLead_callFunction (Nat.zero_add setting.limits.callDepth)) (program source)
      { environment, document }
    rw [runs]
    refine ⟨made, fun calls after => ⟨fun other => ?_, ?_⟩⟩
    · exact keeps.performs.unique other.performs keeps.within other.within
    · rintro ⟨rfl, rfl⟩
      exact keeps
  · rw [run, if_pos long, State.fail]
    split <;> exact ⟨rfl, rfl, rfl⟩
  · exact le_of_mem_insideBlocks inside
  · rintro rfl
    exact exists_unknown_of_mem_insideBlocks inside

/-- Two functions that call each other and one that takes its own place while it runs. -/
def cyclicScript : String :=
  "function even() { odd() } function odd() { even() } " ++
    "function again() { function again() { even() } again() } again()"

/-- A definition gives the function its body and leaves the others alone. -/
theorem getElem?_functions_effect (setting : Setting) (name other : String)
    (body : List Statement) (state : State) :
    (Statement.effect setting (.define name body) state).environment.functions[other]? =
      if name = other then some body else state.environment.functions[other]? := by
  simp [Statement.effect, Statement.run, State.define, State.counted,
    Std.ExtTreeMap.getElem?_insert]

/-- With room for three calls, the function that takes its own place is entered twice, and of the
two that call each other the first is entered and the second refused. -/
theorem run_keepsLimit_cyclicScript :
    let setting : Setting := { limits := { callDepth := 3 }, chain := [] }
    cyclicScript.utf8ByteSize ≤ setting.limits.scriptBytes ∧
      ∀ calls after,
        KeepsLimit setting 0 (program cyclicScript) { environment := {}, document := {} } calls
            after ↔
          calls = [⟨"again", 0, true⟩, ⟨"again", 1, true⟩, ⟨"even", 2, true⟩,
              ⟨"odd", 3, false⟩] ∧
            after = run setting cyclicScript {} {} := by
  intro setting
  have short : cyclicScript.utf8ByteSize ≤ setting.limits.scriptBytes := by decide
  obtain ⟨made, unique⟩ := (run_keepsLimit setting cyclicScript {} {}).1 short
  have parsed : program cyclicScript =
      [.define "even" [.call "odd"], .define "odd" [.call "even"],
        .define "again" [.define "again" [.call "even"], .call "again"], .call "again"] := by
    cbv
  let body : List Statement := [.define "again" [.call "even"], .call "again"]
  let defined (name : String) (body : List Statement) (state : State) : State :=
    Statement.effect setting (.define name body) state
  let first : State := defined "again" body <| defined "odd" [.call "even"] <|
    defined "even" [.call "odd"] { environment := {}, document := {} }
  let second : State := defined "again" [.call "even"] first
  have outer : first.environment.functions["again"]? = some body := by
    simp [first, defined, getElem?_functions_effect]
  have inner : second.environment.functions["again"]? = some [.call "even"] := by
    simp [second, defined, getElem?_functions_effect]
  have even : second.environment.functions["even"]? = some [.call "odd"] := by
    simp [second, first, defined, getElem?_functions_effect]
  have odd : second.environment.functions["odd"]? = some [.call "even"] := by
    simp [second, first, defined, getElem?_functions_effect]
  obtain ⟨_, third⟩ : ∃ after,
      Performs setting 3 [.call "odd"] second [⟨"odd", 3, false⟩] after :=
    ⟨_, .refused odd .done⟩
  obtain ⟨_, called⟩ : ∃ after, Performs setting 2 [.call "even"] second
      [⟨"even", 2, true⟩, ⟨"odd", 3, false⟩] after :=
    ⟨_, .entered even third .done⟩
  obtain ⟨_, again⟩ : ∃ after, Performs setting 1 body first
      [⟨"again", 1, true⟩, ⟨"even", 2, true⟩, ⟨"odd", 3, false⟩] after :=
    ⟨_, .plain trivial (.entered inner called .done)⟩
  obtain ⟨after, whole⟩ : ∃ after,
      Performs setting 0 (program cyclicScript) { environment := {}, document := {} }
        [⟨"again", 0, true⟩, ⟨"again", 1, true⟩, ⟨"even", 2, true⟩, ⟨"odd", 3, false⟩] after := by
    rw [parsed]
    exact ⟨_, .plain trivial (.plain trivial (.plain trivial (.entered outer again .done)))⟩
  obtain ⟨rfl, -⟩ := (unique _ after).1 ⟨whole, by decide⟩
  exact ⟨short, unique⟩

end Script
end Pagelet
