import SqlComposer.Proofs.Depth

set_option autoImplicit false

/-!
Whatever callers do with a session is a sequence of single steps. A program takes its steps one by one,
also inside transactions, which only add the steps that begin and end them:
`Program.run_passes`.
-/

namespace SqlComposer

inductive Step (C : Type) where
  | compose (call : Call)
  | operate (operation : Operation)
  | useConnection (use : C → C)

variable {C : Type} [Connection C] {A B D : Type}

namespace Step

def run : Step C → Session C → Session C
  | .compose call, session => { session with statement := (call.run session.statement).statement }
  | .operate operation, session => (operation.run session).2
  | .useConnection use, session => { session with connection := use session.connection }

def runAll (steps : List (Step C)) (session : Session C) : Session C :=
  steps.foldl (fun session step => step.run session) session

theorem runAll_cons (step : Step C) (rest : List (Step C)) (session : Session C) :
    runAll (step :: rest) session = runAll rest (step.run session) := rfl

theorem runAll_append (first second : List (Step C)) (session : Session C) :
    runAll (first ++ second) session = runAll second (runAll first session) :=
  List.foldl_append

def recorded : Step C → Step (Recorded C)
  | .compose call => .compose call
  | .operate operation => .operate operation
  | .useConnection use =>
    .useConnection fun c => { c with connection := use c.connection }

theorem run_unrecorded (step : Step C) (session : Session (Recorded C)) :
    (step.recorded.run session).unrecorded = step.run session.unrecorded := by
  cases step with
  | operate operation =>
    have same := operation.run_unrecorded session
    simp only [recorded, run, same, unrecord]
  | compose | useConnection => rfl

theorem runAll_unrecorded (steps : List (Step C)) (session : Session (Recorded C)) :
    (runAll (steps.map recorded) session).unrecorded = runAll steps session.unrecorded := by
  induction steps generalizing session with
  | nil => rfl
  | cons step rest ih => rw [List.map_cons, runAll_cons, runAll_cons, ih, run_unrecorded]

end Step

namespace Session

def settlingPath (result : Except Error A) (session : Session C) : List (Step D) :=
  match result with
  | .error _ => [.operate .rollback]
  | .ok _ =>
    match session.commit with
    | (.ok (), _) => [.operate .commit]
    | (.error _, _) => [.operate .commit, .operate .rollback]

def passingPath (body : Session C → Except Error A × Session C) (path : Session C → List (Step D))
    (session : Session C) : List (Step D) :=
  match session.begin with
  | (.error _, _) => [.operate .begin]
  | (.ok (), inside) =>
    .operate .begin :: (path inside ++ (body inside).2.settlingPath (body inside).1)

end Session

def Program.path {A : Type} : Program A → Session C → List (Step D)
  | .done _, _ => []
  | .compose call next, session =>
    let outcome := call.run session.statement
    .compose call :: (next outcome.result).path { session with statement := outcome.statement }
  | .operate operation next, session =>
    let (result, after) := operation.run session
    .operate operation :: (next result).path after
  | .transact body next, session =>
    let (result, after) := session.transaction fun session => body.run session
    session.passingPath (fun session => body.run session) (fun session => body.path session) ++
      (next result).path after

section Recorded

variable {E : Type}

theorem Session.map_recorded_settlingPath (result : Except Error A) (session : Session C) :
    (session.settlingPath result : List (Step E)).map Step.recorded =
      session.settlingPath result := by
  unfold settlingPath
  cases result with
  | error error => rfl
  | ok a => rcases session.commit with ⟨error | _, after⟩ <;> rfl

theorem Program.map_recorded_path (program : Program A) (session : Session C) :
    (program.path session : List (Step E)).map Step.recorded = program.path session := by
  induction program generalizing session with
  | done result => rfl
  | compose call next ih | operate operation next ih =>
    rw [path, path, List.map_cons, ih]
    rfl
  | transact body next inner ih =>
    rw [path, path, List.map_append, ih]
    congr 1
    unfold Session.passingPath
    rcases session.begin with ⟨error | _, inside⟩
    · rfl
    · simp only [List.map_cons, List.map_append, inner, Session.map_recorded_settlingPath,
        Step.recorded]

end Recorded

structure Passes (steps : List (Step C)) (session : Session C) (trail : List (Session C))
    (last : Session C) : Prop where
  ends : Step.runAll steps session = last
  along : ∀ passed ∈ trail, ∃ done, done <+: steps ∧ passed = Step.runAll done session

namespace Passes

variable {steps more : List (Step C)} {session middle last : Session C}
  {trail others : List (Session C)}

theorem nil (session : Session C) : Passes [] session [] session :=
  ⟨rfl, by simp⟩

theorem append (first : Passes steps session trail middle) (second : Passes more middle others last) :
    Passes (steps ++ more) session (trail ++ others) last := by
  refine ⟨by rw [Step.runAll_append, first.ends, second.ends], fun passed member => ?_⟩
  rcases List.mem_append.1 member with early | late
  · obtain ⟨done, within, rfl⟩ := first.along passed early
    exact ⟨done, within.trans (List.prefix_append steps more), rfl⟩
  · obtain ⟨done, within, rfl⟩ := second.along passed late
    refine ⟨steps ++ done, (List.prefix_append_right_inj steps).2 within, ?_⟩
    rw [Step.runAll_append, first.ends]

theorem single (step : Step C) (session : Session C) :
    Passes [step] session [step.run session] (step.run session) := by
  refine ⟨rfl, fun passed member => ⟨[step], List.prefix_rfl, ?_⟩⟩
  rw [List.mem_singleton.1 member]
  rfl

theorem cons (step : Step C) (rest : Passes steps (step.run session) trail last) :
    Passes (step :: steps) session (step.run session :: trail) last :=
  (single step session).append rest

end Passes

namespace Session

variable (session : Session C)

theorem settle_passes (result : Except Error A) :
    Passes (session.settlingPath result) session (session.settling result)
      (session.settle result).2 := by
  have committed : (Step.operate .commit).run session = session.commit.2 := rfl
  unfold settlingPath settling settle
  cases result with
  | error error => exact Passes.single (.operate .rollback) session
  | ok a =>
    generalize session.commit = answered at committed ⊢
    rcases answered with ⟨error | _, after⟩
    · have ends := (Passes.single (.operate .commit) session).append
        (Passes.single (.operate .rollback) ((Step.operate .commit).run session))
      rw [committed] at ends
      exact ends
    · have ends := Passes.single (.operate .commit) session
      rw [committed] at ends
      exact ends

theorem transaction_passes (body : Session C → Except Error A × Session C)
    (path : Session C → List (Step C)) (trail : Session C → List (Session C))
    (inner : ∀ session, Passes (path session) session (trail session) (body session).2) :
    Passes (session.passingPath body path) session (session.passing body trail)
      (session.transaction body).2 := by
  have begun : (Step.operate .begin).run session = session.begin.2 := rfl
  unfold passingPath passing transaction
  generalize session.begin = answered at begun ⊢
  rcases answered with ⟨error | _, inside⟩
  · have ends := Passes.single (.operate .begin) session
    rw [begun] at ends
    exact ends
  · have ended := (inner inside).append ((body inside).2.settle_passes (body inside).1)
    rw [← show (Step.operate .begin).run session = inside from begun] at ended ⊢
    exact Passes.cons (.operate .begin) ended

end Session

theorem Program.run_passes (program : Program A) (session : Session C) :
    Passes (program.path session) session (program.trail session) (program.run session).2 := by
  induction program generalizing session with
  | done result => exact .nil session
  | compose call next ih => exact .cons (.compose call) (ih _ _)
  | operate operation next ih => exact .cons (.operate operation) (ih _ _)
  | transact body next inner ih =>
    have passed := session.transaction_passes (fun session => body.run session)
      (fun session => body.path session) (fun session => body.trail session) inner
    exact passed.append (ih _ _)

end SqlComposer
