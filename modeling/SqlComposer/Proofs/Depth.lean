import SqlComposer.Proofs.Calls

set_option autoImplicit false

namespace SqlComposer

def Receipt.after (receipt : Receipt) (wasOpen : Bool) : Bool :=
  match receipt.arrival.action, receipt.failure with
  | .begin, none => true
  | .commit, none | .rollback, none => false
  | _, _ => wasOpen

def isOpen (receipts : List Receipt) : Bool :=
  receipts.foldl (fun wasOpen receipt => receipt.after wasOpen) false

def Action.Fits (action : Action) (isOpen : Bool) : Prop :=
  match action with
  | .begin => isOpen = false
  | .commit | .rollback => isOpen = true
  | .execute | .executeRaw => True

/-- No call begins inside a transaction, or ends one outside of it. -/
def Orderly (receipts : List Receipt) : Prop :=
  ∀ before receipt behind, receipts = before ++ receipt :: behind →
    receipt.arrival.action.Fits (isOpen before)

theorem Action.fits_of_isStatement {action : Action} (statement : action.isStatement) (isOpen : Bool) :
    action.Fits isOpen := by
  cases action <;> trivial

theorem Receipt.after_of_isStatement {receipt : Receipt}
    (statement : receipt.arrival.action.isStatement) (wasOpen : Bool) :
    receipt.after wasOpen = wasOpen := by
  unfold after
  cases called : receipt.arrival.action with
  | execute | executeRaw => rfl
  | begin | commit | rollback => simp [called, Action.isStatement] at statement

theorem isOpen_concat (receipts : List Receipt) (receipt : Receipt) :
    isOpen (receipts ++ [receipt]) = receipt.after (isOpen receipts) := by
  simp [isOpen]

theorem Orderly.concat {receipts : List Receipt} (orderly : Orderly receipts) {receipt : Receipt}
    (fits : receipt.arrival.action.Fits (isOpen receipts)) : Orderly (receipts ++ [receipt]) := by
  intro before last behind split
  rcases List.eq_nil_or_concat behind with rfl | ⟨behind, final, rfl⟩
  · obtain ⟨rfl, same⟩ := List.append_inj' split rfl
    obtain rfl : receipt = last := by simpa using same
    exact fits
  · have shorter : receipts ++ [receipt] = (before ++ last :: behind) ++ [final] := by
      simpa using split
    exact orderly before last behind (List.append_inj' shorter rfl).1

theorem Orderly.append_statements {receipts : List Receipt} (orderly : Orderly receipts)
    {calls : List Receipt} (statements : ∀ call ∈ calls, call.arrival.action.isStatement) :
    Orderly (receipts ++ calls) ∧ isOpen (receipts ++ calls) = isOpen receipts := by
  induction calls generalizing receipts with
  | nil => simpa using orderly
  | cons call rest ih =>
    obtain ⟨statement, others⟩ := List.forall_mem_cons.1 statements
    have first := orderly.concat (Action.fits_of_isStatement statement (isOpen receipts))
    have appended := ih first others
    rwa [isOpen_concat, Receipt.after_of_isStatement statement, List.append_assoc] at appended

variable {C : Type} [Connection C] {A B : Type}

theorem Session.new_starts {settings? : Option Settings} {connection : C} {session : Session C}
    (new : Session.new settings? connection = .ok session) :
    ∃ settings, session = ⟨connection, .new settings, 0, none⟩ := by
  unfold Session.new at new
  cases spoken : Dialect.ofDriver (Connection.driver connection) with
  | error error => simp [spoken, bind, Except.bind] at new
  | ok dialect =>
    rw [spoken] at new
    cases new
    exact ⟨_, rfl⟩

theorem Session.new_depth {settings? : Option Settings} {connection : C} {session : Session C}
    (new : Session.new settings? connection = .ok session) : session.depth = 0 := by
  obtain ⟨settings, rfl⟩ := Session.new_starts new
  rfl

section Trail

variable {D : Type} [Connection D]

namespace Session

def settling (result : Except Error A) (session : Session D) : List (Session D) :=
  match result with
  | .error _ => [session.rollback.2]
  | .ok _ =>
    match session.commit with
    | (.ok (), session) => [session]
    | (.error _, session) => [session, session.rollback.2]

def passing (body : Session D → Except Error A × Session D) (trail : Session D → List (Session D))
    (session : Session D) : List (Session D) :=
  match session.begin with
  | (.error _, session) => [session]
  | (.ok (), session) => session :: (trail session ++ (body session).2.settling (body session).1)

theorem settle_mem_settling (result : Except Error A) (session : Session D) :
    (session.settle result).2 ∈ session.settling result := by
  unfold settle settling
  cases result with
  | error error => simp
  | ok a => rcases session.commit with ⟨error | _, after⟩ <;> simp

theorem transaction_mem_passing (body : Session D → Except Error A × Session D)
    (trail : Session D → List (Session D)) (session : Session D) :
    (session.transaction body).2 ∈ session.passing body trail := by
  unfold transaction passing
  rcases session.begin with ⟨error | _, begun⟩
  · simp
  · simp [settle_mem_settling]

end Session

namespace Program

/-- The sessions behind every step, those inside transactions among them. -/
def trail {A : Type} : Program A → Session D → List (Session D)
  | .done _, _ => []
  | .compose call next, session =>
    let outcome := call.run session.statement
    let after := { session with statement := outcome.statement }
    after :: (next outcome.result).trail after
  | .operate operation next, session =>
    let (result, after) := operation.run session
    after :: (next result).trail after
  | .transact body next, session =>
    let (result, after) := session.transaction fun session => body.run session
    session.passing (fun session => body.run session) (fun session => body.trail session) ++
      (next result).trail after

theorem run_mem_trail (program : Program A) (session : Session D) :
    (program.run session).2 ∈ session :: program.trail session := by
  induction program generalizing session with
  | done result => simp [run]
  | compose call next ih => exact List.mem_cons_of_mem _ (ih _ _)
  | operate operation next ih => exact List.mem_cons_of_mem _ (ih _ _)
  | transact body next _ ih =>
    have ends := Session.transaction_mem_passing (fun session => body.run session)
      (fun session => body.trail session) session
    have later := ih (session.transaction fun session => body.run session).1
      (session.transaction fun session => body.run session).2
    simp only [run, trail, List.mem_cons, List.mem_append] at later ⊢
    rcases later with same | later
    · rw [same]
      exact .inr (.inl ends)
    · exact .inr (.inr later)

end Program

end Trail

structure Tracked (session : Session (Recorded C)) : Prop where
  orderly : Orderly session.receipts
  depth : isOpen session.receipts = true ↔ 0 < session.depth

namespace Tracked

variable {session after : Session (Recorded C)}

omit [Connection C] in
theorem same (tracked : Tracked session) (received : after.receipts = session.receipts)
    (depth : 0 < after.depth ↔ 0 < session.depth) : Tracked after := by
  constructor
  · rw [received]
    exact tracked.orderly
  · rw [received, depth, tracked.depth]

omit [Connection C] in
theorem receive (tracked : Tracked session) {receipt : Receipt}
    (received : after.receipts = session.receipts ++ [receipt])
    (fits : receipt.arrival.action.Fits (isOpen session.receipts))
    (depth : receipt.after (isOpen session.receipts) = true ↔ 0 < after.depth) : Tracked after := by
  constructor
  · rw [received]
    exact tracked.orderly.concat fits
  · rw [received, isOpen_concat, depth]

omit [Connection C] in
theorem calls (tracked : Tracked session) {arrivals : List Arrival}
    (calls : Calls session after arrivals) : Tracked after := by
  obtain ⟨receipts, received, rfl⟩ := calls.received
  have appended := tracked.orderly.append_statements fun call present =>
    calls.statements call.arrival (List.mem_map_of_mem present)
  constructor
  · rw [received]
    exact appended.1
  · rw [received, appended.2, calls.depth, tracked.depth]

omit [Connection C] in
theorem begun (tracked : Tracked session) {answered : Except Error Unit × Session (Recorded C)}
    (begun : Begun session answered) : Tracked answered.2 := by
  have outside (depth : session.depth = 0) : isOpen session.receipts = false := by
    rw [← Bool.not_eq_true, tracked.depth]
    omega
  cases begun with
  | deeper inside => exact tracked.same rfl (by simpa using inside)
  | failed message depth received rest =>
    exact tracked.receive received (outside depth) (by rw [rest]; exact tracked.depth)
  | opened depth received now =>
    exact tracked.receive received (outside depth) (by simp [Receipt.after, now])

omit [Connection C] in
theorem closed (tracked : Tracked session) {action : Action} {method word : Text}
    (closes : action = .commit ∨ action = .rollback)
    {answered : Except Error Unit × Session (Recorded C)}
    (closed : Closed action method word session answered) : Tracked answered.2 := by
  have inside (depth : session.depth = 1) : isOpen session.receipts = true :=
    tracked.depth.2 (by omega)
  have fits (depth : session.depth = 1) : action.Fits (isOpen session.receipts) := by
    rcases closes with rfl | rfl <;> exact inside depth
  cases closed with
  | outside => exact tracked
  -- A failed call keeps both the connection and the depth, so the transaction can be ended again.
  | failed message depth received now =>
    refine tracked.receive received (fits depth) ?_
    rcases closes with rfl | rfl <;> simp [Receipt.after, inside depth, now]
  | ended depth received now =>
    refine tracked.receive received (fits depth) ?_
    rcases closes with rfl | rfl <;> simp [Receipt.after, now]
  | inner depth received now =>
    dsimp only at now ⊢
    exact tracked.same received (by omega)

theorem commit (tracked : Tracked session) : Tracked session.commit.2 :=
  tracked.closed (.inl rfl) session.commit_closed

theorem rollback (tracked : Tracked session) : Tracked session.rollback.2 :=
  tracked.closed (.inr rfl) session.rollback_closed

theorem operation (tracked : Tracked session) (operation : Operation) :
    Tracked (operation.run session).2 := by
  by_cases direct : operation.isDirect = false
  · exact tracked.calls (operation.run_calls direct session)
  · cases operation with
    | begin => exact tracked.begun session.begin_begun
    | commit => exact tracked.commit
    | rollback => exact tracked.rollback
    | _ => exact absurd rfl direct

theorem settling (tracked : Tracked session) (result : Except Error A) :
    ∀ passed ∈ session.settling result, Tracked passed := by
  unfold Session.settling
  cases result with
  | error error => simpa using tracked.rollback
  | ok a =>
    have committed := tracked.commit
    generalize session.commit = answered at committed ⊢
    rcases answered with ⟨error | _, after⟩
    · simpa using ⟨committed, committed.rollback⟩
    · simpa using committed

theorem passing (tracked : Tracked session)
    (body : Session (Recorded C) → Except Error A × Session (Recorded C))
    (trail : Session (Recorded C) → List (Session (Recorded C)))
    (inner : ∀ session, Tracked session → ∀ passed ∈ trail session, Tracked passed)
    (ends : ∀ session, (body session).2 ∈ session :: trail session) :
    ∀ passed ∈ session.passing body trail, Tracked passed := by
  have begun := tracked.begun session.begin_begun
  unfold Session.passing
  generalize session.begin = answered at begun ⊢
  rcases answered with ⟨error | _, inside⟩
  · simpa using begun
  · have ended : Tracked (body inside).2 := by
      rcases List.mem_cons.1 (ends inside) with same | later
      · rw [same]
        exact begun
      · exact inner inside begun _ later
    simp only [List.forall_mem_cons, List.forall_mem_append]
    exact ⟨begun, inner inside begun, ended.settling (body inside).1⟩

end Tracked

-- The body of a transaction runs from the session behind its begin, so its hypothesis is general.
theorem Program.trail_tracked (program : Program A) {session : Session (Recorded C)}
    (tracked : Tracked session) : ∀ passed ∈ program.trail session, Tracked passed := by
  induction program generalizing session with
  | done result => simp [trail]
  | compose call next ih =>
    have composed : Tracked { session with statement := (call.run session.statement).statement } :=
      tracked.same rfl Iff.rfl
    exact List.forall_mem_cons.2 ⟨composed, ih _ composed⟩
  | operate operation next ih =>
    have operated := tracked.operation operation
    exact List.forall_mem_cons.2 ⟨operated, ih _ operated⟩
  | transact body next inner ih =>
    have passed := tracked.passing (fun session => body.run session)
      (fun session => body.trail session) (fun _ => inner) body.run_mem_trail
    have settled := passed _ (Session.transaction_mem_passing _ _ session)
    exact List.forall_mem_append.2 ⟨passed, ih _ settled⟩

omit [Connection C] in
theorem Closed.lowers {action : Action} {method word : Text} {session : Session (Recorded C)}
    {answered : Except Error Unit × Session (Recorded C)}
    (closed : Closed action method word session answered) :
    (session.depth = 0 → answered = (.error (.invalidArgument method .noTransaction), session)) ∧
    (answered.1 = .ok () → answered.2.depth + 1 = session.depth) := by
  cases closed with
  | outside depth => simp
  | failed message outermost received depth => simp [outermost]
  | ended outermost received depth => simp [outermost, depth]
  | inner inside received depth => exact ⟨by omega, fun _ => depth⟩

/-- However a program that is given a new session goes on, and whichever of its calls the driver
fails, transactions are begun and ended in order and one is open just while the depth is positive. A
commit or rollback that succeeds takes one level off, and none reaches the connection at depth 0. -/
theorem open_iff_depth_pos (settings? : Option Settings) (connection : C) (session : Session C)
    (new : Session.new settings? connection = .ok session) (program : Program A) :
    program.run session = unrecord (program.run session.recorded) ∧
    (program.run session.recorded).2 ∈ session.recorded :: program.trail session.recorded ∧
    ∀ passed ∈ session.recorded :: program.trail session.recorded,
      Orderly passed.receipts ∧
      (isOpen passed.receipts = true ↔ 0 < passed.depth) ∧
      (passed.depth = 0 →
        passed.commit = (.error (.invalidArgument "commit" .noTransaction), passed) ∧
        passed.rollback = (.error (.invalidArgument "rollback" .noTransaction), passed)) ∧
      (passed.commit.1 = .ok () → passed.commit.2.depth + 1 = passed.depth) ∧
      (passed.rollback.1 = .ok () → passed.rollback.2.depth + 1 = passed.depth) := by
  have start : Tracked session.recorded := by
    constructor
    · simp [Orderly, Session.receipts, Session.recorded]
    · simp [isOpen, Session.receipts, Session.recorded, Session.new_depth new]
  have along : ∀ passed ∈ session.recorded :: program.trail session.recorded, Tracked passed :=
    List.forall_mem_cons.2 ⟨start, program.trail_tracked start⟩
  refine ⟨program.run_unrecorded session.recorded, program.run_mem_trail _, fun passed present => ?_⟩
  obtain ⟨orderly, depth⟩ := along passed present
  have commits := passed.commit_closed.lowers
  have rolls := passed.rollback_closed.lowers
  exact ⟨orderly, depth, fun outside => ⟨commits.1 outside, rolls.1 outside⟩, commits.2, rolls.2⟩

-- The driver fails the commit and then the rollback, so that the transaction stays open.
theorem open_iff_depth_pos_deadlock :
    let driver : Scripted :=
      { driver := "mysql", ownRaw := true
        failures := [(.commit, "deadlock"), (.rollback, "gone away")] }
    let session : Session Scripted := ⟨driver, .new {}, 0, none⟩
    let program : Program Unit := .transact (.transact (.done (.ok ())) .done) .done
    let after := (program.run session.recorded).2
    Session.new none driver = .ok session ∧
      after.receipts.map (fun call => call.arrival.action) = [.begin, .commit, .rollback] ∧
      after.depth = 1 ∧ Orderly after.receipts ∧ isOpen after.receipts = true := by
  intro driver session program after
  have new : Session.new none driver = .ok session := rfl
  obtain ⟨-, ends, passes⟩ := open_iff_depth_pos none driver session new program
  obtain ⟨orderly, agrees, -⟩ := passes after ends
  have depth : after.depth = 1 := rfl
  exact ⟨new, rfl, depth, orderly, agrees.2 (by omega)⟩

end SqlComposer
