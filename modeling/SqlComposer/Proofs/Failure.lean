import SqlComposer.Proofs.Changes

set_option autoImplicit false

namespace SqlComposer

theorem Statement.renewed_eq (s : Statement) :
    s.renewed = if s.stage = .compiled then s.reset else s := by
  unfold renewed
  cases s.stage <;> simp

theorem Edit.failed_eq {edit : Edit} {s : Statement} {error : Error}
    (failed : (edit.run s).1 = .error error) : (edit.run s).2 = edit.base s := by
  rw [run_eq] at failed ⊢
  split
  · next applied => simp [applied] at failed
  · rfl

theorem Query.failed_eq {query : Query} {s : Statement} {error : Error}
    (failed : (query.run s).1 = .error error) : (query.run s).2 = s := by
  unfold run at failed ⊢
  split
  · next answered => simp [answered] at failed
  · rfl

theorem Built.conclude_failed {A : Type} {s : Statement} {built : Built A}
    {finish : A → Except Error Statement} {error : Error}
    (failed : (built.conclude s finish).result = .error error) :
    (built.conclude s finish).statement = s := by
  unfold conclude at failed ⊢
  split
  · next done => simp [done] at failed
  · rfl

namespace Call

def startsOver : Call → Bool
  | .edit action => action.startsOver
  | _ => false

-- The statement that a call works on.
def base : Call → Statement → Statement
  | .edit action, s => action.base s
  | _, s => s

theorem base_eq (call : Call) (s : Statement) : call.base s =
    if call.startsOver ∧ s.stage = .compiled then ((Call.edit .reset).run s).statement else s := by
  cases call with
  | edit action =>
    simp only [base, Edit.base, startsOver, Statement.renewed_eq]
    by_cases starts : action.startsOver
    · simp only [starts, if_true, true_and]
      rfl
    · simp [starts]
  | _ => simp [base, startsOver]

theorem failed_eq {call : Call} {s : Statement} {error : Error}
    (failed : (call.run s).result = .error error) : (call.run s).statement = call.base s := by
  cases call with
  | edit action =>
    have refused : ∃ reason, (action.run s).1 = .error reason := by
      cases ran : (action.run s).1 with
      | ok => simp [run, ran, Except.map] at failed
      | error reason => exact ⟨reason, rfl⟩
    obtain ⟨reason, refused⟩ := refused
    exact Edit.failed_eq refused
  | query query => exact Query.failed_eq failed
  | whereGroup | havingGroup | whereExists | union =>
    simp only [run_whereGroup, run_havingGroup, run_whereExists, run_union] at failed ⊢
    exact Built.conclude_failed failed
  | whereInQuery =>
    rw [run_whereInQuery] at failed ⊢
    split
    · rfl
    · next found =>
      rw [found] at failed
      exact Built.conclude_failed failed
  | attempt call => cases failed

/-- The calls of a run that succeed, with a reset in the place of each that fails on a compiled
statement when it begins the next one. -/
def effective : List Call → Statement → List Call
  | [], _ => []
  | call :: rest, s =>
    let outcome := call.run s
    let later := effective rest outcome.statement
    match outcome.result with
    | .ok _ => call :: later
    | .error _ =>
      if call.startsOver ∧ s.stage = .compiled then .edit .reset :: later else later

theorem runAll_cons (call : Call) (rest : List Call) (s : Statement) :
    runAll (call :: rest) s = runAll rest (call.run s).statement := rfl

theorem runAll_effective (calls : List Call) (s : Statement) :
    runAll (effective calls s) s = runAll calls s := by
  induction calls generalizing s with
  | nil => rfl
  | cons call rest ih =>
    rw [runAll_cons, ← ih]
    simp only [effective]
    split
    · exact runAll_cons call _ s
    · next failed =>
      rw [failed_eq failed, base_eq]
      split
      · exact runAll_cons (.edit .reset) _ s
      · rfl

end Call

/-- A call that fails leaves every part of the statement as it was; one that begins the next statement
leaves a compiled one as a reset does. So a run comes to the same as its calls that succeed. -/
theorem failed_calls_unchanged (s : Statement) :
    (∀ (call : Call) (error : Error), (call.run s).result = .error error →
      (call.run s).statement =
        if call.startsOver ∧ s.stage = .compiled then ((Call.edit .reset).run s).statement else s) ∧
    ∀ calls, Call.runAll (Call.effective calls s) s = Call.runAll calls s :=
  ⟨fun call _ failed => (Call.failed_eq failed).trans (call.base_eq s),
    fun calls => Call.runAll_effective calls s⟩

-- A name that is refused where the next statement begins, and a count refused two callbacks deep.
theorem failed_calls_unchanged_nested :
    let s := Call.runAll [.edit (.fromTable "a"), .edit .distinct, .query .toSql] (.new {})
    let begun : Call := .edit (.fromTable "b;")
    let nested : Call := .whereExists .and false
      [.edit (.table "b"), .whereGroup .or true [.edit (.limit (.integer (-1)))]]
    s.stage = .compiled ∧
      (begun.run s).result = .error (.invalidReference "from" "b;") ∧
      (begun.run s).statement = ((Call.edit .reset).run s).statement ∧
      (nested.run s).result = .error (.invalidArgument "limit" (.notCount "-1")) ∧
      (nested.run s).statement = s := by
  intro s begun nested
  have compiled : s.stage = .compiled := by decide +kernel
  have first : (begun.run s).result = .error (.invalidReference "from" "b;") := by rfl
  have second : (nested.run s).result = .error (.invalidArgument "limit" (.notCount "-1")) := by
    rfl
  have unchanged := (failed_calls_unchanged s).1
  have left := unchanged begun _ first
  rw [if_pos ⟨rfl, compiled⟩] at left
  exact ⟨compiled, first, left, second, unchanged nested _ second⟩

end SqlComposer
