import SqlComposer.Proofs.Calls

set_option autoImplicit false

namespace SqlComposer

variable {C : Type} [Connection C] {A : Type}

namespace Program

/-- Transactions are begun and ended by `transact` only. -/
def Indirect {A : Type} : Program A → Prop
  | .done _ => True
  | .compose _ next => ∀ result, (next result).Indirect
  | .operate operation next => operation.isDirect = false ∧ ∀ result, (next result).Indirect
  | .transact body next => body.Indirect ∧ ∀ result, (next result).Indirect

def sends {A : Type} : Program A → Session C → List Arrival
  | .done _, _ => []
  | .compose call next, session =>
    let outcome := call.run session.statement
    (next outcome.result).sends { session with statement := outcome.statement }
  | .operate operation next, session =>
    let (result, after) := operation.run session
    operation.sends session.statement ++ (next result).sends after
  | .transact body next, session =>
    let (result, after) := session.transaction fun session => body.run session
    let inner := match session.begin with
      | (.error _, _) => []
      | (.ok (), inside) => body.sends inside
    inner ++ (next result).sends after

end Program

namespace Session

def deeper (session : Session C) : Session C := { session with depth := session.depth + 1 }

variable {session : Session C}

theorem begin_inside (inside : 0 < session.depth) : session.begin = (.ok (), session.deeper) := by
  have outer : session.depth ≠ 0 := by omega
  simp [begin, deeper, outer]

omit [Connection C] in
theorem close_inside {method word : Text} {act : C → Except Text Unit × C} {outer : Nat}
    (depth : session.depth = outer + 2) :
    session.close method word act = (.ok (), { session with depth := outer + 1 }) := by
  simp [close, depth]

theorem settle_inside (result : Except Error A) {outer : Nat} (depth : session.depth = outer + 2) :
    session.settle result = (result, { session with depth := outer + 1 }) := by
  cases result with
  | error error => simp [settle, rollback, close_inside depth]
  | ok a => simp [settle, commit, close_inside depth]

theorem transaction_inside (inside : 0 < session.depth)
    (body : Session C → Except Error A × Session C)
    (kept : (body session.deeper).2.depth = session.deeper.depth) :
    session.transaction body =
      ((body session.deeper).1, { (body session.deeper).2 with depth := session.depth }) := by
  obtain ⟨outer, depth⟩ := Nat.exists_eq_succ_of_ne_zero (Nat.ne_of_gt inside)
  have inner : (body session.deeper).2.depth = outer + 2 := by
    rw [kept, deeper, depth]
  simp only [transaction, begin_inside inside, settle_inside _ inner, depth]

theorem transaction_calls_inside {session : Session (Recorded C)} (inside : 0 < session.depth)
    (body : Session (Recorded C) → Except Error A × Session (Recorded C)) {arrivals : List Arrival}
    (within : Calls session.deeper (body session.deeper).2 arrivals) :
    (session.transaction body).1 = (body session.deeper).1 ∧
      Calls session (session.transaction body).2 arrivals := by
  rw [transaction_inside inside body within.depth]
  exact ⟨rfl, within.received, within.statements, rfl⟩

end Session

theorem Program.run_calls (program : Program A) (indirect : program.Indirect)
    (session : Session (Recorded C)) (inside : 0 < session.depth) :
    Calls session (program.run session).2 (program.sends session) := by
  induction program generalizing session with
  | done result => exact .none rfl rfl
  | compose call next ih =>
    have rest := ih (call.run session.statement).result (indirect _)
      { session with statement := (call.run session.statement).statement } inside
    exact ⟨rest.received, rest.statements, rest.depth⟩
  | operate operation next ih =>
    have first := operation.run_calls indirect.1 session
    exact first.trans (ih _ (indirect.2 _) _ (by rw [first.depth]; exact inside))
  | transact body next inner ih =>
    -- The body's statements are sent one level deeper, where settling sends nothing.
    have within := inner indirect.1 session.deeper (Nat.succ_pos _)
    have first := (Session.transaction_calls_inside inside (fun session => body.run session) within).2
    simp only [run, sends, Session.begin_inside inside]
    exact first.trans (ih _ (indirect.2 _) _ (by rw [first.depth]; exact inside))

/-- How the outermost transaction ends: with the result of its body, the last calls, its own result and
the depth behind it. -/
inductive Closing : Except Error A → List Receipt → Except Error A → Nat → Prop where
  | committed (a : A) : Closing (.ok a) [⟨{ action := .commit }, none⟩] (.ok a) 0
  | undone (a : A) (message : Text) (failure : Option Text) :
    Closing (.ok a) [⟨{ action := .commit }, some message⟩, ⟨{ action := .rollback }, failure⟩]
      (.error (.execution "COMMIT" message)) (if failure.isSome then 1 else 0)
  | rolledBack (error : Error) (failure : Option Text) :
    Closing (.error error) [⟨{ action := .rollback }, failure⟩] (.error error)
      (if failure.isSome then 1 else 0)

namespace Session

variable {session : Session (Recorded C)}

theorem rollback_outermost (outermost : session.depth = 1) :
    ∃ failure : Option Text,
      session.rollback.2.receipts = session.receipts ++ [⟨{ action := .rollback }, failure⟩] ∧
      session.rollback.2.depth = if failure.isSome then 1 else 0 := by
  have closed := session.rollback_closed
  generalize session.rollback = answered at closed ⊢
  cases closed with
  | outside depth | inner depth => omega
  | failed message _ received depth => exact ⟨some message, received, depth⟩
  | ended _ received depth => exact ⟨none, received, depth⟩

theorem settle_closing (result : Except Error A) (outermost : session.depth = 1) :
    ∃ closing, (session.settle result).2.receipts = session.receipts ++ closing ∧
      Closing result closing (session.settle result).1 (session.settle result).2.depth := by
  unfold settle
  cases result with
  | error error =>
    obtain ⟨failure, received, depth⟩ := rollback_outermost outermost
    refine ⟨_, received, ?_⟩
    rw [depth]
    exact .rolledBack error failure
  | ok a =>
    have closed := session.commit_closed
    generalize session.commit = answered at closed ⊢
    cases closed with
    | outside depth | inner depth => omega
    | ended _ received depth =>
      refine ⟨_, received, ?_⟩
      rw [depth]
      exact .committed a
    | failed message _ committed still =>
      obtain ⟨failure, received, depth⟩ := rollback_outermost still
      refine ⟨_, by rw [received, committed, List.append_assoc], ?_⟩
      rw [depth]
      exact .undone a message failure

end Session

/-- Outside of a transaction, the connection sees one begin, and unless that fails the calls of the
body's statements and the calls that commit or roll back. Inside of one it sees just the statements. -/
theorem transaction_calls (body : Program A) (indirect : body.Indirect)
    (session : Session (Recorded C)) :
    let ended := session.transaction fun session => body.run session
    (session.unrecorded.transaction fun session => body.run session) = unrecord ended ∧
    (session.depth = 0 →
      (∃ message : Text,
        ended.1 = .error (.execution "BEGIN" message) ∧
        ended.2 = { session with connection := ended.2.connection } ∧
        ended.2.receipts = session.receipts ++ [⟨{ action := .begin }, some message⟩]) ∨
      ∃ inside calls closing,
        session.begin = (.ok (), inside) ∧ inside.depth = 1 ∧
        ended.2.receipts =
          session.receipts ++ ⟨{ action := .begin }, none⟩ :: calls ++ closing ∧
        calls.map Receipt.arrival = body.sends inside ∧
        (∀ call ∈ calls, call.arrival.action.isStatement) ∧
        Closing (body.run inside).1 closing ended.1 ended.2.depth) ∧
    (0 < session.depth →
      ended.1 = (body.run session.deeper).1 ∧
      Calls session ended.2 (body.sends session.deeper)) := by
  intro ended
  refine ⟨Session.transaction_unrecorded body.run_unrecorded session, fun outside => ?_,
    fun inside => ?_⟩
  · have begun := session.begin_begun
    simp only [ended, Session.transaction]
    generalize session.begin = answered at begun ⊢
    cases begun with
    | deeper inside => omega
    | failed message _ received rest => exact .inl ⟨message, rfl, rest, received⟩
    | @opened inside _ received depth =>
      have ran := body.run_calls indirect inside (by omega)
      obtain ⟨calls, later, arrived⟩ := ran.received
      obtain ⟨closing, settled, closes⟩ :=
        Session.settle_closing (body.run inside).1 (ran.depth.trans depth)
      refine .inr ⟨inside, calls, closing, rfl, depth, ?_, arrived, ?_, closes⟩
      · simp [settled, later, received]
      · intro call present
        exact ran.statements _ (arrived ▸ List.mem_map_of_mem present)
  · have within := body.run_calls indirect session.deeper (Nat.succ_pos _)
    exact Session.transaction_calls_inside inside (fun session => body.run session) within

-- A statement inside a nested transaction. The driver fails the commit, and the rollback too.
theorem transaction_calls_deadlock :
    let driver : Scripted :=
      { driver := "mysql", ownRaw := true
        failures := [(.commit, "deadlock"), (.rollback, "gone away")] }
    let session : Session (Recorded Scripted) := ⟨{ connection := driver }, .new {}, 0, none⟩
    let body : Program Reply := .transact (.operate (.raw "VACUUM" []) .done) .done
    let ended := session.transaction fun session => body.run session
    body.Indirect ∧
      (∃ inside calls closing,
        session.begin = (.ok (), inside) ∧
        ended.2.receipts =
          session.receipts ++ ⟨{ action := .begin }, none⟩ :: calls ++ closing ∧
        calls.map Receipt.arrival = body.sends inside ∧
        Closing (body.run inside).1 closing ended.1 ended.2.depth) ∧
      ended.2.receipts.map (fun call => call.arrival.action) =
        [.begin, .executeRaw, .commit, .rollback] ∧
      ended.2.depth = 1 := by
  intro driver session body ended
  have indirect : body.Indirect := ⟨⟨rfl, fun _ => trivial⟩, fun _ => trivial⟩
  have outermost := (transaction_calls body indirect session).2.1 rfl
  refine ⟨indirect, ?_, rfl, rfl⟩
  rcases outermost with ⟨message, failed, -⟩ | ⟨inside, calls, closing, begun, -, received, sent, -, ends⟩
  · cases failed
  · exact ⟨inside, calls, closing, begun, received, sent, ends⟩

end SqlComposer
