import SqlComposer.Proofs.Execution
import SqlComposer.Proofs.Failure

set_option autoImplicit false

namespace SqlComposer

theorem Edit.run_of_not_compiled {edit : Edit} {s : Statement} (stage : s.stage ≠ .compiled) :
    edit.run s = match edit.apply s with
      | .ok next => (.ok (), next)
      | .error error => (.error error, s) := by
  have base : edit.base s = s := by simp [Edit.base, Statement.renewed_eq, stage]
  cases applied : edit.apply s <;> simp [run_eq, base, applied]

theorem Edit.run_of_compiled {edit : Edit} (starts : edit.startsOver) {s : Statement}
    (stage : s.stage = .compiled) : edit.run s = edit.run s.reset := by
  have renewed : edit.base s = edit.base s.reset := by
    simp [Edit.base, starts, Statement.renewed_eq, stage, Statement.reset, Statement.new]
  rw [run_eq, run_eq, renewed]

variable {C : Type} [Connection C]

theorem Operation.failed_cases {operation : Operation} (completes : operation.completes)
    {session : Session C} (accepted : (operation.complete session.statement).1 = .ok ())
    {error : Error} (failed : (operation.run session).1 = .error error) :
    let completed := (operation.complete session.statement).2
    (∃ sql, completed.sql = .ok sql ∧ (operation.run session).2.statement = completed.compiled) ∨
      ∃ reason, completed.sql = .error reason ∧ (operation.run session).2.statement = completed := by
  intro completed
  have text : operation.text session.statement = completed.sql := by
    simp [Operation.text, accepted, bind, Except.bind, completed]
  cases compiles : completed.sql with
  | error reason =>
    rw [run_refused completes (text.trans compiles)]
    exact .inr ⟨reason, rfl, rfl⟩
  | ok sql =>
    have sent := run_sent completes session.recorded (text.trans compiles)
    have same : operation.run session = unrecord (operation.run session.recorded) :=
      operation.run_unrecorded session.recorded
    rw [same] at failed ⊢
    generalize operation.run session.recorded = answered at failed sent ⊢
    cases sent with
    | failed message received statement depth => exact .inl ⟨sql, rfl, statement⟩
    | done reply => cases failed

/-- A method that fails leaves the completed statement, and as compiled just where it does compile. The
edits that begin the next statement then forget it; otherwise they go on with it. -/
theorem failed_method_leaves (session : Session C) (operation : Operation)
    (completes : operation.completes) (accepted : (operation.complete session.statement).1 = .ok ())
    (error : Error) (failed : (operation.run session).1 = .error error) :
    let completed := (operation.complete session.statement).2
    let left := (operation.run session).2.statement
    (left = match completed.sql with
      | .ok _ => { completed with stage := .compiled }
      | .error _ => completed) ∧
    (left.stage = .compiled ↔ (∃ sql, completed.sql = .ok sql) ∨ completed.stage = .compiled) ∧
    ∀ edit : Edit, edit.startsOver →
      edit.run left =
        if left.stage = .compiled then
          edit.run { Statement.new completed.settings with
            table := if completed.settings.retainTable then completed.table else none }
        else match edit.apply completed with
          | .ok next => (.ok (), next)
          | .error reason => (.error reason, completed) := by
  intro completed left
  have outcome := Operation.failed_cases completes accepted failed
  change (∃ sql, completed.sql = .ok sql ∧ left = completed.compiled) ∨
    ∃ reason, completed.sql = .error reason ∧ left = completed at outcome
  clear_value left
  obtain ⟨sql, compiles, rfl⟩ | ⟨reason, refused, rfl⟩ := outcome
  · have stage : completed.compiled.stage = .compiled := rfl
    refine ⟨by rw [compiles]; rfl, by simp [compiles, stage], fun edit starts => ?_⟩
    rw [if_pos stage]
    exact Edit.run_of_compiled starts stage
  · refine ⟨by rw [refused], by simp [refused], fun edit starts => ?_⟩
    by_cases stage : completed.stage = .compiled
    · rw [if_pos stage]
      exact Edit.run_of_compiled starts stage
    · rw [if_neg stage]
      exact Edit.run_of_not_compiled stage

-- A count that the driver refuses: the next table begins a statement without the aggregate.
theorem failed_method_leaves_refused :
    let driver : Scripted := { driver := "mysql", ownRaw := true, failures := [(.execute, "locked")] }
    let s := Call.runAll [.edit (.fromTable "a"), .edit (.limit (.integer 3))] (.new {})
    let session : Session Scripted := ⟨driver, s, 0, none⟩
    let operation : Operation := .count none
    let left := (operation.run session).2.statement
    operation.completes ∧ (operation.complete s).1 = .ok () ∧
      (∃ error, (operation.run session).1 = .error error) ∧ left.stage = .compiled ∧
      (Edit.table "b").run left = (Edit.table "b").run (.new {}) := by
  intro driver s session operation left
  have accepted : (operation.complete s).1 = .ok () := by decide +kernel
  have unanswered : (operation.run session).1.toBool = false := by decide +kernel
  obtain ⟨error, failed⟩ : ∃ error, (operation.run session).1 = .error error := by
    cases answered : (operation.run session).1 with
    | error error => exact ⟨error, rfl⟩
    | ok reply => simp [answered, Except.toBool] at unanswered
  obtain ⟨-, -, forgets⟩ := failed_method_leaves session operation rfl accepted error failed
  have stage : left.stage = .compiled := by decide +kernel
  have forgotten := forgets (.table "b") rfl
  rw [if_pos stage] at forgotten
  exact ⟨rfl, accepted, ⟨error, failed⟩, stage, forgotten⟩

/-- A delete without a table is not left compiled, and the statement that is begun next deletes. -/
theorem failed_delete_leaks :
    let driver : Scripted := { driver := "mysql", ownRaw := true }
    let session : Session Scripted := ⟨driver, .new {}, 0, none⟩
    let failed := Operation.delete.run session.recorded
    let begun := (Edit.fromTable "movies").run failed.2.statement
    let after := (Operation.get.run { failed.2 with statement := begun.2 }).2
    Session.new none driver = .ok session ∧
      (Operation.delete.complete session.statement).1 = .ok () ∧
      (∃ error, failed.1 = .error error) ∧ failed.2.statement.stage ≠ .compiled ∧
      begun.1 = .ok () ∧ begun.2.kind = .delete ∧
      after.receipts.map (fun call => call.arrival.sql) =
        [("DELETE FROM \x60movies\x60" : Text)] := by
  intro driver session failed begun after
  refine ⟨rfl, by decide +kernel, ⟨_, rfl⟩, by decide +kernel, by decide +kernel, rfl, ?_⟩
  decide +kernel

end SqlComposer
