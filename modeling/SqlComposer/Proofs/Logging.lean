import Mathlib.Data.List.Induction
import SqlComposer.Proofs.Steps

set_option autoImplicit false

namespace SqlComposer

/-- A statement is logged as the connection received it, with the driver's message if it failed. -/
def Receipt.entry? (receipt : Receipt) : Option LogEntry :=
  if receipt.arrival.action.isStatement then
    some ⟨receipt.arrival.sql, receipt.arrival.values, receipt.failure⟩
  else none

def Operation.switchesLog : Operation → Bool
  | .enableLog | .takeLog => true
  | _ => false

variable {C : Type} [Connection C] {A : Type}

def Logged (session after : Session (Recorded C)) : Prop :=
  ∃ received, after.receipts = session.receipts ++ received ∧
    after.log = session.log.map (· ++ received.filterMap Receipt.entry?)

namespace Logged

variable {session middle after : Session (Recorded C)}

omit [Connection C] in
theorem same (receipts : after.receipts = session.receipts) (log : after.log = session.log) :
    Logged session after :=
  ⟨[], by simpa using receipts, by simp [log]⟩

omit [Connection C] in
theorem silent {receipt : Receipt} (received : after.receipts = session.receipts ++ [receipt])
    (plain : receipt.arrival.action.isStatement = false) (log : after.log = session.log) :
    Logged session after :=
  ⟨[receipt], received, by simp [Receipt.entry?, plain, log]⟩

omit [Connection C] in
theorem trans (first : Logged session middle) (second : Logged middle after) :
    Logged session after := by
  obtain ⟨received, receipts, log⟩ := first
  obtain ⟨more, later, rest⟩ := second
  refine ⟨received ++ more, by rw [later, receipts, List.append_assoc], ?_⟩
  rw [rest, log, Option.map_map]
  simp [Function.comp_def]

end Logged

namespace Session

variable (session : Session (Recorded C))

theorem send_logged (raw : Bool) (sql : Text) (values : List Value) :
    Logged session (session.send raw sql values).2 := by
  cases raw with
  | false =>
    rcases acted : Connection.execute sql values session.connection.connection with
      ⟨message | rows, connection⟩ <;>
    simp [Logged, send, Connection.execute, Recorded.receive, Recorded.failure, receipts, acted,
      Receipt.entry?, Action.isStatement]
  | true =>
    rcases acted : Connection.executeRaw sql values session.connection.connection with
      ⟨message | rows, connection⟩ <;>
    simp [Logged, send, Connection.executeRaw, Recorded.receive, Recorded.failure, receipts, acted,
      Receipt.entry?, Action.isStatement]

theorem execute_logged : Logged session session.execute.2 := by
  unfold execute
  cases session.statement.sql with
  | error error => exact .same rfl rfl
  | ok sql =>
    have sent := send_logged { session with statement := session.statement.compiled } false sql
      session.statement.values
    dsimp only
    generalize { session with statement := session.statement.compiled }.send false sql
      session.statement.values = answered at sent ⊢
    rcases answered with ⟨error | rows, after⟩ <;> exact sent

theorem perform_logged (operation : Operation) : Logged session (session.perform operation).2 := by
  rw [perform_eq]
  rcases operation.complete session.statement with ⟨error | _, s⟩
  · exact .same rfl rfl
  · exact execute_logged { session with statement := s }

theorem query_logged (sql : Text) (values : List Value) :
    Logged session (session.query sql values).2 := by
  have sent := session.send_logged false sql values
  unfold query
  generalize session.send false sql values = answered at sent ⊢
  rcases answered with ⟨error | rows, after⟩ <;> exact sent

theorem begin_logged : Logged session session.begin.2 := by
  unfold begin
  split
  · rcases begun : Connection.begin session.connection.connection with ⟨message | _, connection⟩ <;>
    · simp only [Connection.begin, Recorded.receive, begun]
      exact .silent rfl rfl rfl
  · exact .same rfl rfl

omit [Connection C] in
theorem close_logged {action : Action} (plain : action.isStatement = false) (method word : Text)
    (act : C → Except Text Unit × C) :
    Logged session (session.close method word (Recorded.receive { action } act)).2 := by
  unfold close
  split
  · exact .same rfl rfl
  · rcases acted : act session.connection.connection with ⟨message | _, connection⟩ <;>
    · simp only [Recorded.receive, acted]
      exact .silent rfl plain rfl
  · exact .same rfl rfl

end Session

theorem Operation.run_logged (operation : Operation) (keeps : operation.switchesLog = false)
    (session : Session (Recorded C)) : Logged session (operation.run session).2 := by
  by_cases completing : operation.completes
  · rw [run_eq_perform completing]
    exact session.perform_logged operation
  · cases operation with
    | query sql values => exact session.query_logged sql values
    | raw sql values => exact session.send_logged true sql values
    | begin => exact session.begin_logged
    | commit => exact session.close_logged rfl "commit" "COMMIT" Connection.commit
    | rollback => exact session.close_logged rfl "rollback" "ROLLBACK" Connection.rollback
    | log | counters => exact .same rfl rfl
    | enableLog | takeLog => cases keeps
    | get | getOne | insert | insertGetId | update | delete | count | aggregate | hasRows =>
      exact absurd rfl completing

def Step.switch (wasOn : Bool) : Step C → Bool
  | .operate .enableLog => true
  | .operate .takeLog => false
  | _ => wasOn

/-- Logging is off at first, is switched on by enabling it and off by taking the log. -/
def isLogging (steps : List (Step C)) : Bool :=
  steps.foldl (fun wasOn step => step.switch wasOn) false

omit [Connection C] in
theorem isLogging_concat (steps : List (Step C)) (step : Step C) :
    isLogging (steps ++ [step]) = step.switch (isLogging steps) := by
  simp [isLogging]

omit [Connection C] in
theorem Step.switch_cases (step : Step C) :
    step = .operate .enableLog ∨ step = .operate .takeLog ∨ ∀ wasOn, step.switch wasOn = wasOn := by
  match step with
  | .operate operation => cases operation <;> simp [switch]
  | .compose _ | .useConnection _ => simp [switch]

omit [Connection C] in
theorem switched_of_isLogging {steps : List (Step C)} (logging : isLogging steps = true) :
    ∃ before since, steps = before ++ .operate .enableLog :: since ∧ isLogging before = false ∧
      .operate .takeLog ∉ since := by
  induction steps using List.reverseRecOn with
  | nil => cases logging
  | append_singleton steps step ih =>
    rw [isLogging_concat] at logging
    cases on : isLogging steps with
    | false =>
      refine ⟨steps, [], ?_, on, by simp⟩
      rcases step.switch_cases with rfl | rfl | keeps
      · rfl
      · cases logging
      · rw [keeps, on] at logging
        cases logging
    | true =>
      obtain ⟨before, since, rfl, off, kept⟩ := ih on
      refine ⟨before, since ++ [step], by simp, off, ?_⟩
      rw [List.mem_append, List.mem_singleton, not_or]
      refine ⟨kept, ?_⟩
      rintro rfl
      cases logging

namespace Step

variable {session : Session (Recorded C)}

theorem log_run_enableLog :
    ((operate .enableLog : Step C).recorded.run session).log = some (session.log.getD []) := rfl

theorem run_logged (step : Step C) (keeps : ∀ wasOn, step.switch wasOn = wasOn) :
    Logged session (step.recorded.run session) := by
  cases step with
  | compose call => exact .same rfl rfl
  | useConnection use => exact .same rfl rfl
  | operate operation =>
    refine operation.run_logged ?_ session
    cases operation with
    | enableLog => cases keeps false
    | takeLog => cases keeps true
    | _ => rfl

theorem isSome_log_run (step : Step C) (session : Session (Recorded C)) :
    (step.recorded.run session).log.isSome = step.switch session.log.isSome := by
  rcases step.switch_cases with rfl | rfl | keeps
  · rfl
  · rfl
  · obtain ⟨received, -, log⟩ := step.run_logged keeps
    rw [keeps, log, Option.isSome_map]

theorem isSome_log_runAll (steps : List (Step C)) (off : session.log = none) :
    (runAll (steps.map recorded) session).log.isSome = isLogging steps := by
  have along (steps : List (Step C)) (session : Session (Recorded C)) :
      (runAll (steps.map recorded) session).log.isSome =
        steps.foldl (fun wasOn step => step.switch wasOn) session.log.isSome := by
    induction steps generalizing session with
    | nil => rfl
    | cons step rest ih =>
      rw [List.map_cons, runAll_cons, ih, List.foldl_cons, isSome_log_run]
  rw [along, off]
  rfl

theorem log_since (steps : List (Step C)) (kept : .operate .takeLog ∉ steps)
    {held : List LogEntry} (on : session.log = some held) :
    ∃ received, (runAll (steps.map recorded) session).receipts = session.receipts ++ received ∧
      (runAll (steps.map recorded) session).log =
        some (held ++ received.filterMap Receipt.entry?) := by
  induction steps generalizing session held with
  | nil => exact ⟨[], by simp [runAll], by simpa [runAll] using on⟩
  | cons step rest ih =>
    rw [List.mem_cons, not_or] at kept
    have stepped : Logged session (step.recorded.run session) := by
      rcases step.switch_cases with rfl | rfl | keeps
      -- Enabling a log that is on changes nothing.
      · exact .same rfl (by rw [log_run_enableLog, on]; rfl)
      · exact absurd rfl kept.1
      · exact step.run_logged keeps
    obtain ⟨received, receipts, log⟩ := stepped
    rw [on, Option.map_some] at log
    obtain ⟨more, later, final⟩ := ih kept.2 log
    refine ⟨received ++ more, ?_, ?_⟩
    · rw [List.map_cons, runAll_cons, later, receipts, List.append_assoc]
    · rw [List.map_cons, runAll_cons, final, List.filterMap_append, List.append_assoc]

end Step

/-- Wherever steps on a new session have come, also inside of a transaction that a program runs, there
is no log while logging is off. While it is on, the log is what the connection received since it was
switched on: every statement in order, also one that failed, and nothing else. -/
theorem log_is_history (settings? : Option Settings) (connection : C) (session : Session C)
    (new : Session.new settings? connection = .ok session) :
    (∀ program : Program A,
      program.run session = unrecord (program.run session.recorded) ∧
      ∀ passed ∈ session.recorded :: program.trail session.recorded, ∃ done : List (Step C),
        done <+: program.path session.recorded ∧
        passed = Step.runAll (done.map Step.recorded) session.recorded) ∧
    ∀ steps : List (Step C),
      let now := Step.runAll (steps.map Step.recorded) session.recorded
      now.unrecorded = Step.runAll steps session ∧
      (isLogging steps = false → now.log = none) ∧
      (isLogging steps = true → ∃ before since received,
        steps = before ++ .operate .enableLog :: since ∧
        isLogging before = false ∧ .operate .takeLog ∉ since ∧
        now.receipts =
          (Step.runAll (before.map Step.recorded) session.recorded).receipts ++ received ∧
        now.log = some (received.filterMap Receipt.entry?)) ∧
      Operation.log.run now = (.ok (.entries (now.log.getD [])), now) ∧
      Operation.takeLog.run now = (.ok (.entries (now.log.getD [])), { now with log := none }) := by
  have off : session.recorded.log = none := by
    obtain ⟨settings, rfl⟩ := Session.new_starts new
    rfl
  refine ⟨fun program => ⟨program.run_unrecorded session.recorded, fun passed present => ?_⟩,
    fun steps => ⟨Step.runAll_unrecorded steps session.recorded, fun quiet => ?_, fun logging => ?_,
      rfl, rfl⟩⟩
  · rcases List.mem_cons.1 present with rfl | later
    · exact ⟨[], List.nil_prefix, rfl⟩
    · obtain ⟨taken, within, rfl⟩ := (program.run_passes session.recorded).along passed later
      rw [← program.map_recorded_path] at within
      obtain ⟨done, ahead, rfl⟩ := List.prefix_map_iff.1 within
      exact ⟨done, ahead, rfl⟩
  · rw [← Option.not_isSome_iff_eq_none, Step.isSome_log_runAll steps off, quiet]
    exact Bool.false_ne_true
  · obtain ⟨before, since, rfl, quiet, kept⟩ := switched_of_isLogging logging
    have silent : (Step.runAll (before.map Step.recorded) session.recorded).log = none := by
      rw [← Option.not_isSome_iff_eq_none, Step.isSome_log_runAll before off, quiet]
      exact Bool.false_ne_true
    have enabled : ((Step.operate .enableLog).recorded.run
        (Step.runAll (before.map Step.recorded) session.recorded)).log = some [] := by
      rw [Step.log_run_enableLog, silent]
      rfl
    obtain ⟨received, receipts, log⟩ := Step.log_since since kept enabled
    refine ⟨before, since, received, rfl, quiet, kept, ?_, ?_⟩
    · rw [List.map_append, Step.runAll_append]
      exact receipts
    · rw [List.map_append, Step.runAll_append]
      exact log

-- Enabled again inside of a transaction, and the driver refuses the query. The commit is not logged.
theorem log_is_history_locked :
    let driver : Scripted :=
      { driver := "mysql", ownRaw := true, failures := [(.execute, "locked")] }
    let session : Session Scripted := ⟨driver, .new {}, 0, none⟩
    let steps : List (Step Scripted) :=
      [.operate (.raw "SET x" []), .operate .enableLog, .operate .begin,
        .operate (.raw "VACUUM" []), .operate .enableLog, .operate (.query "DO ?" [.int64 1]),
        .operate .commit]
    let now := Step.runAll (steps.map Step.recorded) session.recorded
    Session.new none driver = .ok session ∧ isLogging steps = true ∧
      now.log = some [⟨"VACUUM", [], none⟩, ⟨"DO ?", [.int64 1], some "locked"⟩] ∧
      ∃ before since received,
        steps = before ++ .operate .enableLog :: since ∧
        isLogging before = false ∧ .operate .takeLog ∉ since ∧
        now.receipts =
          (Step.runAll (before.map Step.recorded) session.recorded).receipts ++ received ∧
        now.log = some (received.filterMap Receipt.entry?) := by
  intro driver session steps now
  have new : Session.new none driver = .ok session := rfl
  have logging : isLogging steps = true := rfl
  obtain ⟨-, -, on, -, -⟩ := (log_is_history (A := Reply) none driver session new).2 steps
  exact ⟨new, logging, rfl, on logging⟩

end SqlComposer
