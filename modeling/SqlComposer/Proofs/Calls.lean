import SqlComposer.Proofs.Execution

set_option autoImplicit false

namespace SqlComposer

def Action.isStatement : Action → Bool
  | .execute | .executeRaw => true
  | .begin | .commit | .rollback => false

namespace Operation

def isDirect : Operation → Bool
  | .begin | .commit | .rollback => true
  | _ => false

-- The call that executes the completed statement.
def execution (operation : Operation) (s : Statement) : List Arrival :=
  match operation.text s with
  | .ok sql => [⟨.execute, sql, (operation.complete s).2.values⟩]
  | .error _ => []

def sends (operation : Operation) (s : Statement) : List Arrival :=
  match operation with
  | .query sql values => [⟨.execute, sql, values⟩]
  | .raw sql values => [⟨.executeRaw, sql, values⟩]
  | _ => if operation.completes then operation.execution s else []

theorem sends_of_completes {operation : Operation} (completes : operation.completes)
    (s : Statement) : operation.sends s = operation.execution s := by
  cases operation with
  | query | raw => cases completes
  | _ => simp [sends, completes]

end Operation

variable {C : Type} [Connection C] {A B : Type}

structure Calls (session after : Session (Recorded C)) (arrivals : List Arrival) : Prop where
  received : ∃ receipts, after.receipts = session.receipts ++ receipts ∧
    receipts.map Receipt.arrival = arrivals
  statements : ∀ arrival ∈ arrivals, arrival.action.isStatement
  depth : after.depth = session.depth

namespace Calls

variable {session middle after : Session (Recorded C)}

omit [Connection C] in
theorem none (received : after.receipts = session.receipts) (depth : after.depth = session.depth) :
    Calls session after [] :=
  ⟨⟨[], by simpa using received, rfl⟩, by simp, depth⟩

omit [Connection C] in
theorem trans {arrivals more : List Arrival} (first : Calls session middle arrivals)
    (second : Calls middle after more) : Calls session after (arrivals ++ more) := by
  obtain ⟨receipts, received, rfl⟩ := first.received
  obtain ⟨others, later, rfl⟩ := second.received
  refine ⟨⟨receipts ++ others, ?_, by simp⟩, ?_, second.depth.trans first.depth⟩
  · rw [later, received, List.append_assoc]
  · intro arrival present
    rcases List.mem_append.1 present with present | present
    · exact first.statements arrival present
    · exact second.statements arrival present

end Calls

omit [Connection C] in
theorem Sent.calls {session : Session (Recorded C)} {arrival : Arrival} {failed done : Statement}
    {answered : Except Error A × Session (Recorded C)} (sent : Sent session arrival failed done answered)
    (statement : arrival.action.isStatement) : Calls session answered.2 [arrival] := by
  cases sent with
  | failed message received _ depth | done a received _ depth =>
    exact ⟨⟨_, received, rfl⟩, by simpa using statement, depth⟩

theorem Operation.run_calls (operation : Operation) (indirect : operation.isDirect = false)
    (session : Session (Recorded C)) :
    Calls session (operation.run session).2 (operation.sends session.statement) := by
  by_cases completing : operation.completes
  · rw [sends_of_completes completing]
    unfold execution
    cases ready : operation.text session.statement with
    | error error =>
      rw [run_refused completing ready]
      exact .none rfl rfl
    | ok sql => exact (run_sent completing session ready).calls rfl
  · cases operation with
    | query sql values => exact (session.query_sent sql values).calls rfl
    | raw sql values => exact (session.send_sent true sql values).calls rfl
    | enableLog | log | takeLog | counters => exact .none rfl rfl
    | begin | commit | rollback => cases indirect
    | get | getOne | insert | insertGetId | update | delete | count | aggregate | hasRows =>
      exact absurd rfl completing

inductive Begun (session : Session (Recorded C)) : Except Error Unit × Session (Recorded C) → Prop where
  | deeper (inside : 0 < session.depth) :
    Begun session (.ok (), { session with depth := session.depth + 1 })
  | failed {after : Session (Recorded C)} (message : Text) (outside : session.depth = 0)
    (received : after.receipts = session.receipts ++ [⟨{ action := .begin }, some message⟩])
    (rest : after = { session with connection := after.connection }) :
    Begun session (.error (.execution "BEGIN" message), after)
  | opened {after : Session (Recorded C)} (outside : session.depth = 0)
    (received : after.receipts = session.receipts ++ [⟨{ action := .begin }, none⟩])
    (depth : after.depth = 1) :
    Begun session (.ok (), after)

inductive Closed (action : Action) (method word : Text) (session : Session (Recorded C)) :
    Except Error Unit × Session (Recorded C) → Prop where
  | outside (depth : session.depth = 0) :
    Closed action method word session (.error (.invalidArgument method .noTransaction), session)
  | failed {after : Session (Recorded C)} (message : Text) (outermost : session.depth = 1)
    (received : after.receipts = session.receipts ++ [⟨{ action }, some message⟩])
    (depth : after.depth = 1) :
    Closed action method word session (.error (.execution word message), after)
  | ended {after : Session (Recorded C)} (outermost : session.depth = 1)
    (received : after.receipts = session.receipts ++ [⟨{ action }, none⟩]) (depth : after.depth = 0) :
    Closed action method word session (.ok (), after)
  | inner {after : Session (Recorded C)} (inside : 1 < session.depth)
    (received : after.receipts = session.receipts) (depth : after.depth + 1 = session.depth) :
    Closed action method word session (.ok (), after)

namespace Session

variable (session : Session (Recorded C))

theorem begin_begun : Begun session session.begin := by
  unfold begin
  by_cases outside : session.depth = 0
  · rcases begun : Connection.begin session.connection.connection with ⟨message | _, connection⟩
    · simp only [outside, Connection.begin, Recorded.receive, begun]
      exact .failed message outside rfl (by simp [outside])
    · simp only [outside, Connection.begin, Recorded.receive, begun]
      exact .opened outside rfl rfl
  · rw [if_neg outside]
    exact .deeper (Nat.pos_of_ne_zero outside)

omit [Connection C] in
theorem close_closed (action : Action) (method word : Text) (act : C → Except Text Unit × C) :
    Closed action method word session
      (session.close method word (Recorded.receive { action } act)) := by
  unfold close
  match depth : session.depth with
  | 0 => exact .outside depth
  | 1 =>
    rcases acted : act session.connection.connection with ⟨message | _, connection⟩
    · simp only [Recorded.receive, acted]
      exact .failed message depth rfl rfl
    · simp only [Recorded.receive, acted]
      exact .ended depth rfl rfl
  | outer + 2 => exact .inner (by omega) rfl (by simp [depth])

theorem commit_closed : Closed .commit "commit" "COMMIT" session session.commit :=
  session.close_closed .commit "commit" "COMMIT" Connection.commit

theorem rollback_closed : Closed .rollback "rollback" "ROLLBACK" session session.rollback :=
  session.close_closed .rollback "rollback" "ROLLBACK" Connection.rollback

end Session

end SqlComposer
