import SqlComposer.Connection.Recorded
import SqlComposer.Session.Program

set_option autoImplicit false

namespace SqlComposer

section Views

variable {C A : Type}

def Session.recorded (session : Session C) : Session (Recorded C) :=
  { session with connection := { connection := session.connection } }

def Session.unrecorded (session : Session (Recorded C)) : Session C :=
  { session with connection := session.connection.connection }

def Session.receipts (session : Session (Recorded C)) : List Receipt := session.connection.receipts

def unrecord (answered : A × Session (Recorded C)) : A × Session C :=
  (answered.1, answered.2.unrecorded)

end Views

variable {C : Type} [Connection C] {A : Type}

namespace Session

theorem send_unrecorded (raw : Bool) (sql : Text) (values : List Value)
    (session : Session (Recorded C)) :
    session.unrecorded.send raw sql values = unrecord (session.send raw sql values) := by
  cases raw <;> rfl

theorem execute_unrecorded (session : Session (Recorded C)) :
    session.unrecorded.execute = unrecord session.execute := by
  unfold execute
  cases compiled : session.statement.sql with
  | error error => simp [unrecorded, unrecord, compiled]
  | ok sql =>
    have sent := send_unrecorded false sql session.statement.values
      { session with statement := session.statement.compiled }
    simp only [unrecorded] at sent
    simp only [unrecorded, compiled, sent, unrecord]
    split <;> simp_all

theorem finish_unrecorded (edit : Edit) (session : Session (Recorded C)) :
    session.unrecorded.finish edit = unrecord (session.finish edit) := by
  unfold finish
  rcases made : edit.run session.statement with ⟨error | _, s⟩
  · simp [unrecorded, unrecord, made]
  · have executed := execute_unrecorded { session with statement := s }
    simp only [unrecorded] at executed
    simp only [unrecorded, made, executed]

theorem begin_unrecorded (session : Session (Recorded C)) :
    session.unrecorded.begin = unrecord session.begin := by
  unfold begin
  by_cases outermost : session.depth = 0
  · rcases begun : Connection.begin session.connection.connection with ⟨message | _, connection⟩ <;>
      simp [unrecorded, unrecord, outermost, begun, Connection.begin, Recorded.receive]
  · simp [unrecorded, unrecord, outermost]

omit [Connection C] in
theorem close_unrecorded (method word : Text) {act : C → Except Text Unit × C}
    {act' : Recorded C → Except Text Unit × Recorded C}
    (alike : ∀ c, ((act' c).1, (act' c).2.connection) = act c.connection)
    (session : Session (Recorded C)) :
    session.unrecorded.close method word act = unrecord (session.close method word act') := by
  have closed := alike session.connection
  unfold close
  match depth : session.depth with
  | 0 => simp [unrecorded, unrecord, depth]
  | 1 =>
    rcases acted : act' session.connection with ⟨message | _, connection⟩ <;>
      simp [unrecorded, unrecord, depth, acted, ← closed]
  | depth + 2 => simp_all [unrecorded, unrecord]

theorem commit_unrecorded (session : Session (Recorded C)) :
    session.unrecorded.commit = unrecord session.commit :=
  close_unrecorded "commit" "COMMIT" (fun _ => rfl) session

theorem rollback_unrecorded (session : Session (Recorded C)) :
    session.unrecorded.rollback = unrecord session.rollback :=
  close_unrecorded "rollback" "ROLLBACK" (fun _ => rfl) session

theorem settle_unrecorded (result : Except Error A) (session : Session (Recorded C)) :
    session.unrecorded.settle result = unrecord (session.settle result) := by
  unfold settle
  cases result with
  | error error => simp [rollback_unrecorded, unrecord]
  | ok a =>
    rcases committed : session.commit with ⟨error | _, after⟩ <;>
      simp [commit_unrecorded, committed, unrecord, rollback_unrecorded]

theorem transaction_unrecorded {body : Session C → Except Error A × Session C}
    {body' : Session (Recorded C) → Except Error A × Session (Recorded C)}
    (alike : ∀ session, body session.unrecorded = unrecord (body' session))
    (session : Session (Recorded C)) :
    session.unrecorded.transaction body = unrecord (session.transaction body') := by
  unfold transaction
  rcases begun : session.begin with ⟨error | _, inside⟩
  · simp [begin_unrecorded, begun, unrecord]
  · simp only [begin_unrecorded, begun, unrecord, alike]
    exact settle_unrecorded _ _

end Session

theorem Operation.run_unrecorded (operation : Operation) (session : Session (Recorded C)) :
    operation.run session.unrecorded = unrecord (operation.run session) := by
  cases operation with
  | get => simp [run, replyWith, unrecord, Session.execute_unrecorded]
  | getOne | count | aggregate | hasRows =>
    simp [run, replyWith, unrecord, Session.getOne, Session.hasRows, Session.count, Session.aggregate,
      Session.finish_unrecorded]
  | insert | insertGetId | update | delete =>
    simp only [run, replyWith, unrecord, Session.insert, Session.insertGetId, Session.update,
      Session.delete, Session.finishCounting, Session.finish_unrecorded]
    rfl
  | query sql values =>
    simp only [run, replyWith, Session.query, Session.send_unrecorded]
    rcases session.send false sql values with ⟨error | rows, after⟩ <;> rfl
  | raw => simp [run, replyWith, unrecord, Session.raw, Session.send_unrecorded]
  | begin => simp [run, replyWith, unrecord, Session.begin_unrecorded]
  | commit => simp [run, replyWith, unrecord, Session.commit_unrecorded]
  | rollback => simp [run, replyWith, unrecord, Session.rollback_unrecorded]
  | enableLog | log | takeLog | counters => rfl

theorem Program.run_unrecorded (program : Program A) (session : Session (Recorded C)) :
    program.run session.unrecorded = unrecord (program.run session) := by
  induction program generalizing session with
  | done result => rfl
  | compose call next ih =>
    exact ih _ { session with statement := (call.run session.statement).statement }
  | operate operation next ih =>
    simp only [run, Operation.run_unrecorded]
    exact ih _ _
  | transact body next inner ih =>
    simp only [run, Session.transaction_unrecorded inner]
    exact ih _ _

end SqlComposer
