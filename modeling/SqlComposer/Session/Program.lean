import SqlComposer.Session.Call

set_option autoImplicit false

/-!
What callers do with a session. A program sees the answer of every step before it takes the next, and
so can go on where a step failed, or fail by itself where none did. The body of a transaction is a
program too. The calls of a list are a program: `SessionCall.run_program`.
-/

namespace SqlComposer

inductive Program : Type → Type 1 where
  | done {A : Type} (result : Except Error A) : Program A
  | compose {A : Type} (call : Call) (next : Except Error Reply → Program A) : Program A
  | operate {A : Type} (operation : Operation) (next : Except Error Reply → Program A) : Program A
  | transact {A B : Type} (body : Program B) (next : Except Error B → Program A) : Program A

variable {C : Type} [Connection C]

namespace Program

def run {A : Type} : Program A → Session C → Except Error A × Session C
  | .done result, session => (result, session)
  | .compose call next, session =>
    let outcome := call.run session.statement
    (next outcome.result).run { session with statement := outcome.statement }
  | .operate operation next, session =>
    let (result, session) := operation.run session
    (next result).run session
  | .transact body next, session =>
    let (result, session) := session.transaction fun session => body.run session
    (next result).run session

def bind {A B : Type} : Program A → (Except Error A → Program B) → Program B
  | .done result, last => last result
  | .compose call next, last => .compose call fun result => (next result).bind last
  | .operate operation next, last => .operate operation fun result => (next result).bind last
  | .transact body next, last => .transact body fun result => (next result).bind last

theorem run_bind {A B : Type} (program : Program A) (last : Except Error A → Program B)
    (session : Session C) :
    (program.bind last).run session = (last (program.run session).1).run (program.run session).2 := by
  induction program generalizing session with
  | done result => rfl
  | compose call next ih | operate operation next ih => exact ih _ last _
  | transact body next _ ih => exact ih _ last _

end Program

mutual

def SessionCall.program? : SessionCall C → Option (Program Reply)
  | .statement call => some (.compose call .done)
  | .operation action => some (.operate action .done)
  | .transaction calls =>
    (SessionCall.programAll? calls).map fun body => .transact body .done
  | .useConnection _ => none
  | .attempt call =>
    call.program?.map fun program => program.bind fun result => .done (.ok (.ofAttempt result))

def SessionCall.programAll? : List (SessionCall C) → Option (Program Reply)
  | [] => some (.done (.ok .done))
  | call :: rest => do
    let first ← call.program?
    let later ← SessionCall.programAll? rest
    return first.bind fun
      | .ok _ => later
      | .error error => .done (.error error)

end

mutual

theorem SessionCall.run_program (call : SessionCall C) (program : Program Reply)
    (given : call.program? = some program) (session : Session C) :
    program.run session = ((call.run session).result, (call.run session).session) := by
  match call with
  | .statement call | .operation action =>
    obtain rfl := Option.some.inj given
    rfl
  | .transaction calls =>
    obtain ⟨body, inside, rfl⟩ := Option.map_eq_some_iff.1 given
    rcases opened : session.begin with ⟨error | _, begun⟩
    · simp [Program.run, Session.transaction, SessionCall.run, opened]
    · simp [Program.run, Session.transaction, SessionCall.run, opened, Progress.settle,
        SessionCall.runAll_program calls body inside begun]
  | .useConnection use => simp [SessionCall.program?] at given
  | .attempt call =>
    obtain ⟨inner, inside, rfl⟩ := Option.map_eq_some_iff.1 given
    rw [Program.run_bind, SessionCall.run_program call inner inside session]
    rfl

theorem SessionCall.runAll_program (calls : List (SessionCall C)) (program : Program Reply)
    (given : SessionCall.programAll? calls = some program) (session : Session C) :
    program.run session =
      ((SessionCall.runAll calls session).result, (SessionCall.runAll calls session).session) := by
  match calls with
  | [] =>
    obtain rfl := Option.some.inj given
    rfl
  | call :: rest =>
    simp only [SessionCall.programAll?, Option.bind_eq_bind, Option.bind_eq_some_iff] at given
    obtain ⟨first, begins, later, continues, same⟩ := given
    obtain rfl := Option.some.inj same
    rw [Program.run_bind, SessionCall.run_program call first begins session]
    cases answered : (call.run session).result with
    | error error => simp [SessionCall.runAll, answered, Program.run]
    | ok reply =>
      simp only [SessionCall.runAll, answered]
      rw [SessionCall.runAll_program rest later continues]

end

end SqlComposer
