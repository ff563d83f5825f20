import Pagelet.Proofs.Run.Calls

/-!
# The limit on active calls

The limit on active calls only ever cuts a run off.  It takes part in a run where a call
is reached with as many calls active as it allows, and nowhere else: if that never comes
about, every higher limit gives the same run.
-/

namespace Pagelet
namespace Script

variable {setting : Setting} {active depth : Nat} {statements : List Statement}
  {before after : State} {made : List Call}

/-- Under a limit that leaves room for it, a call is carried out. -/
theorem Call.within_of_entered {limit : Nat} {one : Call} (entered : one.entered = true)
    (room : one.active < limit) : one.Within limit where
  le_of_entered _ := room
  refused_iff := by simp [entered, Nat.ne_of_lt room]

/-- A call that is reached below the limit is carried out. -/
theorem Call.Within.entered_of_ne {limit : Nat} {one : Call} (within : one.Within limit)
    (below : one.active ≠ limit) : one.entered = true :=
  Bool.of_not_eq_false (mt within.refused_iff.1 below)

/-- Only a call looks at the limit on active calls. -/
theorem Statement.IsPlain.effect_deeper {statement : Statement} (plain : statement.IsPlain)
    (setting : Setting) (depth : Nat) (state : State) :
    statement.effect { setting with limits.callDepth := depth } state =
      statement.effect setting state := by
  cases statement with
  | call name => exact plain.elim
  | conditional condition body => exact plain.elim
  | _ => rfl

/-- What a block may do without a refused call does not depend on the limit. -/
theorem Performs.deeper (performs : Performs setting active statements before made after)
    (entered : ∀ one ∈ made, one.entered = true) :
    Performs { setting with limits.callDepth := depth } active statements before made after := by
  induction performs with
  | done => exact .done
  | plain plain _ ih =>
      refine .plain plain ?_
      rw [plain.effect_deeper]
      exact ih entered
  | taken decides _ _ body rest =>
      rw [List.forall_mem_append] at entered
      exact .taken decides (body entered.1) (rest entered.2)
  | passed decides _ ih => exact .passed decides (ih entered)
  | undefined missing _ ih => exact .undefined missing (ih entered)
  | entered known _ _ body rest =>
      rw [List.cons_append, List.forall_mem_cons, List.forall_mem_append] at entered
      exact .entered known (body entered.2.1) (rest entered.2.2)
  | refused known _ ih => cases (List.forall_mem_cons.1 entered).1

/-- What keeps to a limit and never comes up against it keeps to every higher limit. -/
theorem KeepsLimit.deeper (keeps : KeepsLimit setting active statements before made after)
    (le : setting.limits.callDepth ≤ depth)
    (below : ∀ one ∈ made, one.active ≠ setting.limits.callDepth) :
    KeepsLimit { setting with limits.callDepth := depth } active statements before made
      after := by
  have entered (one : Call) (mem : one ∈ made) : one.entered = true :=
    (keeps.within one mem).entered_of_ne (below one mem)
  refine ⟨keeps.performs.deeper entered, fun one mem => ?_⟩
  have room : one.active < setting.limits.callDepth :=
    (keeps.within one mem).le_of_entered (entered one mem)
  exact Call.within_of_entered (entered one mem) (Nat.lt_of_lt_of_le room le)

/-- The run of a program keeps to its limit. -/
theorem exists_keepsLimit_runProgram (setting : Setting) (statements : List Statement)
    (state : State) :
    ∃ made, KeepsLimit setting 0 statements state made (runProgram setting statements state) :=
  exists_keepsLimit (callsLead_callFunction (Nat.zero_add setting.limits.callDepth)) statements
    state

/-- In the run of a program, no call of a defined function is reached while as many calls
are active as the limit allows. -/
def StaysBelow (setting : Setting) (statements : List Statement) (state : State) : Prop :=
  ∀ made after, KeepsLimit setting 0 statements state made after →
    ∀ one ∈ made, one.active ≠ setting.limits.callDepth

/-- It is enough to look at one account of the run, since there is no other. -/
theorem KeepsLimit.staysBelow (keeps : KeepsLimit setting 0 statements before made after)
    (below : ∀ one ∈ made, one.active ≠ setting.limits.callDepth) :
    StaysBelow setting statements before := by
  intro calls other others
  obtain ⟨rfl, -⟩ := keeps.performs.unique others.performs keeps.within others.within
  exact below

/-- A run that never comes up against the limit on active calls is the same under every
higher limit. -/
theorem runProgram_deeper {state : State} (below : StaysBelow setting statements state)
    (le : setting.limits.callDepth ≤ depth) :
    runProgram { setting with limits.callDepth := depth } statements state =
      runProgram setting statements state := by
  obtain ⟨made, keeps⟩ := exists_keepsLimit_runProgram setting statements state
  obtain ⟨calls, others⟩ :=
    exists_keepsLimit_runProgram { setting with limits.callDepth := depth } statements state
  have same := keeps.deeper le (below made _ keeps)
  exact (same.performs.unique others.performs same.within others.within).2

/-- A function that calls another one is called, takes a new body and is called again. -/
def siblingCalls : List Statement :=
  [.call "outer", .define "outer" [.declare "n"], .call "outer"]

theorem runProgram_deeper_siblingCalls :
    let setting : Setting := { limits := { callDepth := 2 }, chain := [] }
    let functions : Std.ExtTreeMap String (List Statement) compare :=
      .insert (.insert ∅ "outer" [.call "inner", .call "inner"]) "inner" [.declare "n"]
    let state : State := { environment := { functions }, document := {} }
    StaysBelow setting siblingCalls state ∧ 2 ≤ 64 ∧
      runProgram { setting with limits.callDepth := 64 } siblingCalls state =
        runProgram setting siblingCalls state := by
  intro setting functions state
  let made : List Call :=
    [⟨"outer", 0, true⟩, ⟨"inner", 1, true⟩, ⟨"inner", 1, true⟩, ⟨"outer", 0, true⟩]
  have outer : functions["outer"]? = some [.call "inner", .call "inner"] := by
    rw [Std.ExtTreeMap.getElem?_insert, if_neg (by decide), Std.ExtTreeMap.getElem?_insert_self]
  have inner : functions["inner"]? = some [.declare "n"] := by simp [functions]
  have renewed : (functions.insert "outer" [.declare "n"])["outer"]? = some [.declare "n"] := by
    simp
  have performs : ∃ after, Performs setting 0 siblingCalls state made after :=
    ⟨_, .entered outer (.entered inner (.plain (by trivial) .done)
      (.entered inner (.plain (by trivial) .done) .done))
      (.plain (by trivial) (.entered renewed (.plain (by trivial) .done) .done))⟩
  obtain ⟨after, performs⟩ := performs
  have short : ∀ one ∈ made, one.entered = true ∧ one.active < 2 := by decide
  have keeps : KeepsLimit setting 0 siblingCalls state made after :=
    ⟨performs, fun one mem => Call.within_of_entered (short one mem).1 (short one mem).2⟩
  have below : StaysBelow setting siblingCalls state :=
    keeps.staysBelow fun one mem => Nat.ne_of_lt (short one mem).2
  exact ⟨below, by decide, runProgram_deeper below (by decide)⟩

end Script
end Pagelet
