import Mathlib.Data.List.Forall2
import SqlComposer.Call
import SqlComposer.Proofs.MaskedEdits

set_option autoImplicit false

namespace SqlComposer

mutual

def Call.masked : Call → Call
  | .edit edit => .edit edit.masked
  | .query query => .query query
  | .whereGroup connective negated calls => .whereGroup connective negated (Call.maskedAll calls)
  | .whereInQuery connective negated column calls =>
    .whereInQuery connective negated column (Call.maskedAll calls)
  | .whereExists connective negated calls => .whereExists connective negated (Call.maskedAll calls)
  | .havingGroup connective negated calls => .havingGroup connective negated (Call.maskedAll calls)
  | .union all members => .union all (Member.maskedAll members)
  | .attempt call => .attempt call.masked

def Call.maskedAll : List Call → List Call
  | [] => []
  | call :: rest => call.masked :: Call.maskedAll rest

def Member.masked : Member → Member
  | ⟨origin, calls⟩ => ⟨origin, Call.maskedAll calls⟩

def Member.maskedAll : List Member → List Member
  | [] => []
  | member :: rest => member.masked :: Member.maskedAll rest

end

/-- The same error, or halts that show the same text with as many values. -/
inductive Error.Alike : Error → Error → Prop where
  | same (error : Error) : Alike error error
  | halted (sql : Text) (first second : List Value) (sizes : first.length = second.length) :
    Alike (.debugHalt (Statement.fill first sql)) (.debugHalt (Statement.fill second sql))

/-- The same reply, but for the values where the reply is to show them. -/
inductive Reply.Alike : Reply → Reply → Prop where
  | same (reply : Reply) : Alike reply reply
  | values (first second : List Value) (sizes : first.length = second.length) :
    Alike (.values first) (.values second)
  | compiled (sql : Text) (first second : List Value) (sizes : first.length = second.length) :
    Alike (.compiled sql first) (.compiled sql second)
  | shown (sql : Text) (first second : List Value) (sizes : first.length = second.length) :
    Alike (.text (Statement.debugText (Statement.fill first sql)))
      (.text (Statement.debugText (Statement.fill second sql)))
  | failed {first second : Error} (errors : first.Alike second) :
    Alike (.failed first) (.failed second)

inductive ResultsAlike {A : Type} (R : A → A → Prop) : Except Error A → Except Error A → Prop where
  | ok {first second : A} (related : R first second) : ResultsAlike R (.ok first) (.ok second)
  | error {first second : Error} (errors : first.Alike second) :
    ResultsAlike R (.error first) (.error second)

inductive Report.Alike : Report → Report → Prop where
  | intro {first second : Report} (results : ResultsAlike Reply.Alike first.result second.result)
    (inner : List.Forall₂ Report.Alike first.inner second.inner) : Alike first second

structure Outcome.Alike (first second : Outcome) : Prop where
  results : ResultsAlike Reply.Alike first.result second.result
  statements : first.statement.masked = second.statement.masked
  inner : List.Forall₂ Report.Alike first.inner second.inner

structure Built.Alike {A : Type} (R : A → A → Prop) (first second : Built A) : Prop where
  results : ResultsAlike R first.result second.result
  reports : List.Forall₂ Report.Alike first.reports second.reports

abbrev Statement.Matches (s t : Statement) : Prop := s.masked = t.masked

theorem Outcome.Alike.report {first second : Outcome} (alike : first.Alike second) :
    first.report.Alike second.report :=
  .intro alike.results alike.inner

section Results

variable {A B : Type} {R : A → A → Prop} {S : B → B → Prop} {first second : Except Error A}

theorem ResultsAlike.of_eq (refl : ∀ a, R a a) (same : first = second) : ResultsAlike R first second := by
  subst same
  cases first with
  | ok a => exact .ok (refl a)
  | error error => exact .error (.same error)

theorem ResultsAlike.map {f g : A → B} (alike : ResultsAlike R first second)
    (mapped : ∀ a b, R a b → S (f a) (g b)) : ResultsAlike S (first.map f) (second.map g) := by
  cases alike with
  | ok related => exact .ok (mapped _ _ related)
  | error errors => exact .error errors

theorem ResultsAlike.bind {f g : A → Except Error B} (alike : ResultsAlike R first second)
    (continued : ∀ a b, R a b → ResultsAlike S (f a) (g b)) :
    ResultsAlike S (first.bind f) (second.bind g) := by
  cases alike with
  | ok related => exact continued _ _ related
  | error errors => exact .error errors

theorem Reply.Alike.ofAttempt {first second : Except Error Reply}
    (alike : ResultsAlike Reply.Alike first second) :
    (Reply.ofAttempt first).Alike (Reply.ofAttempt second) := by
  cases alike with
  | ok related => exact related
  | error errors => exact .failed errors

theorem Built.Alike.conclude {s t : Statement} (matched : s.Matches t) {first second : Built A}
    (alike : first.Alike R second) {finish other : A → Except Error Statement}
    (finished : ∀ a b, R a b → ResultsAlike Statement.Matches (finish a) (other b)) :
    (first.conclude s finish).Alike (second.conclude t other) := by
  have results := alike.results.bind finished
  unfold Built.conclude
  generalize first.result.bind finish = one at results
  generalize second.result.bind other = two at results
  cases results with
  | ok related => exact ⟨.ok (.same .done), related, alike.reports⟩
  | error errors => exact ⟨.error errors, matched, alike.reports⟩

end Results

variable {s t : Statement}

theorem Statement.Matches.settings (matched : s.Matches t) : s.settings = t.settings := by
  rw [← s.settings_masked, ← t.settings_masked, matched]

theorem Edit.run_alike {edit other : Edit} (same : edit.masked = other.masked) (matched : s.Matches t) :
    (edit.run s).1 = (other.run t).1 ∧ (edit.run s).2.Matches (other.run t).2 := by
  have runs : edit.masked.run s.masked = other.masked.run t.masked := by rw [same, matched]
  rw [run_masked, run_masked] at runs
  exact Prod.mk.inj runs

theorem Query.answer_alike (query : Query) (matched : s.Matches t) :
    ResultsAlike Reply.Alike (query.answer s) (query.answer t) := by
  have texts := Statement.sql_eq_of_masked matched
  have sizes := Statement.length_values_of_masked matched
  have settings := matched.settings
  cases query with
  | toSql | toSqlWith _ | quoteChar | allows _ =>
    exact .of_eq .same (by simp only [answer, Statement.sqlWith, texts, settings])
  | params => exact .ok (.values _ _ sizes)
  | compile =>
    simp only [answer, texts]
    cases t.sql with
    | error error => exact .error (.same error)
    | ok sql => exact .ok (.compiled sql _ _ sizes)
  | debug halt sinkFailure =>
    simp only [answer, Statement.debug, Statement.sqlWith, texts]
    cases t.sql with
    | error error => exact .error (.same error)
    | ok sql =>
      cases sinkFailure with
      | some message => exact .error (.same _)
      | none =>
        cases halt with
        | true => exact .error (.halted sql _ _ sizes)
        | false => exact .ok (.shown sql _ _ sizes)

theorem Query.run_alike (query : Query) (matched : s.Matches t) :
    ResultsAlike Reply.Alike (query.run s).1 (query.run t).1 ∧
      (query.run s).2.Matches (query.run t).2 := by
  have answers := query.answer_alike matched
  have compiled : s.compiled.Matches t.compiled := by
    rw [Statement.Matches, ← Statement.compiled_masked, ← Statement.compiled_masked, matched]
  unfold Query.run
  generalize query.answer s = one at answers
  generalize query.answer t = two at answers
  cases answers with
  | error errors => exact ⟨.error errors, matched⟩
  | ok related =>
    refine ⟨.ok related, ?_⟩
    dsimp only
    split
    · exact compiled
    · exact matched

theorem Statement.Matches.child (matched : s.Matches t) (bound : Bool) :
    (s.child bound).Matches (t.child bound) := by
  rw [Statement.Matches, ← Statement.child_masked, ← Statement.child_masked, matched]

theorem Statement.Matches.addWhere (matched : s.Matches t) (connective : Connective)
    {predicate other : Predicate} (same : predicate.masked = other.masked) :
    (s.addWhere connective predicate).Matches (t.addWhere connective other) := by
  rw [Statement.Matches, ← Statement.addWhere_masked, ← Statement.addWhere_masked, matched, same]

theorem ResultsAlike.of_masked {first second : Except Error Statement}
    (same : first.map Statement.masked = second.map Statement.masked) :
    ResultsAlike Statement.Matches first second := by
  cases first with
  | error error =>
    cases second with
    | error other =>
      obtain rfl := Except.error.inj same
      exact .error (.same error)
    | ok t => cases same
  | ok s =>
    cases second with
    | error error => cases same
    | ok t => exact .ok (Except.ok.inj same)

mutual

theorem Call.run_alike (call other : Call) (same : call.masked = other.masked) {s t : Statement}
    (matched : s.Matches t) : (call.run s).Alike (other.run t) := by
  match call with
  | .edit edit =>
    cases other with
    | edit other =>
      obtain ⟨results, matched⟩ := Edit.run_alike (Call.edit.inj same) matched
      exact ⟨.of_eq .same (congrArg (Except.map fun _ => Reply.done) results), matched, .nil⟩
    | _ => simp [Call.masked] at same
  | .query query =>
    cases other with
    | query other =>
      obtain rfl := Call.query.inj same
      obtain ⟨results, matched⟩ := query.run_alike matched
      exact ⟨results, matched, .nil⟩
    | _ => simp [Call.masked] at same
  | .whereGroup connective negated calls =>
    cases other with
    | whereGroup connective negated others =>
      obtain ⟨rfl, rfl, calls_same⟩ := Call.whereGroup.inj same
      have built := Call.build_alike calls others calls_same (matched.child true)
      rw [Call.run_whereGroup, Call.run_whereGroup]
      refine built.conclude matched fun child child' children => .ok ?_
      rw [Statement.Matches, ← Statement.whereGroup_masked, ← Statement.whereGroup_masked, matched,
        children]
    | _ => simp [Call.masked] at same
  | .whereInQuery connective negated column calls =>
    cases other with
    | whereInQuery connective negated column others =>
      obtain ⟨rfl, rfl, rfl, calls_same⟩ := Call.whereInQuery.inj same
      have built := Call.build_alike calls others calls_same (matched.child false)
      simp only [Call.run_whereInQuery, matched.settings]
      cases Reference.check t.settings "where_in" column with
      | error error => exact ⟨.error (.same error), matched, .nil⟩
      | ok column =>
        refine built.conclude matched fun child child' children => .ok (matched.addWhere connective ?_)
        exact congrArg (Predicate.inQuery negated column) children
    | _ => simp [Call.masked] at same
  | .whereExists connective negated calls =>
    cases other with
    | whereExists connective negated others =>
      obtain ⟨rfl, rfl, calls_same⟩ := Call.whereExists.inj same
      have built := Call.build_alike calls others calls_same (matched.child true)
      rw [Call.run_whereExists, Call.run_whereExists]
      refine built.conclude matched fun child child' children => .ok (matched.addWhere connective ?_)
      exact congrArg (Predicate.existsQuery negated) children
    | _ => simp [Call.masked] at same
  | .havingGroup connective negated calls =>
    cases other with
    | havingGroup connective negated others =>
      obtain ⟨rfl, rfl, calls_same⟩ := Call.havingGroup.inj same
      have built := Call.build_alike calls others calls_same (matched.child true)
      rw [Call.run_havingGroup, Call.run_havingGroup]
      refine built.conclude matched fun child child' children => .ok ?_
      rw [Statement.Matches, ← Statement.havingGroup_masked, ← Statement.havingGroup_masked, matched,
        children]
    | _ => simp [Call.masked] at same
  | .union all members =>
    cases other with
    | union all others =>
      obtain ⟨rfl, members_same⟩ := Call.union.inj same
      have built := Member.buildAll_alike members others members_same
      rw [Call.run_union, Call.run_union]
      refine built.conclude matched fun first second listed => ?_
      have unions : (s.union all first).map Statement.masked =
          (t.union all second).map Statement.masked := by
        rw [← Statement.union_masked, ← Statement.union_masked, listed, matched]
      exact .of_masked unions
    | _ => simp [Call.masked] at same
  | .attempt call =>
    cases other with
    | attempt other =>
      have attempted := Call.run_alike call other (Call.attempt.inj same) matched
      exact ⟨.ok (.ofAttempt attempted.results), attempted.statements, attempted.inner⟩
    | _ => simp [Call.masked] at same

theorem Call.build_alike (calls others : List Call)
    (same : Call.maskedAll calls = Call.maskedAll others) {s t : Statement} (matched : s.Matches t) :
    (Call.build calls s).Alike Statement.Matches (Call.build others t) := by
  match calls with
  | [] =>
    cases others with
    | nil => exact ⟨.ok matched, .nil⟩
    | cons other others => simp [Call.maskedAll] at same
  | call :: rest =>
    cases others with
    | nil => simp [Call.maskedAll] at same
    | cons other others =>
      obtain ⟨first, later⟩ := List.cons.inj same
      have ran := Call.run_alike call other first matched
      have built := Call.build_alike rest others later ran.statements
      have results := ran.results
      simp only [Call.build]
      generalize (call.run s).result = one at results
      generalize (other.run t).result = two at results
      cases results with
      | error errors => exact ⟨.error errors, .cons ran.report .nil⟩
      | ok => exact ⟨built.results, .cons ran.report built.reports⟩

theorem Member.build_alike (member other : Member) (same : member.masked = other.masked) :
    member.build.Alike Statement.Matches other.build := by
  match member with
  | ⟨origin, calls⟩ =>
    match other with
    | ⟨start, others⟩ =>
      obtain ⟨rfl, calls_same⟩ := Member.mk.inj same
      simp only [Member.build]
      cases origin.start with
      | error error => exact ⟨.error (.same error), .nil⟩
      | ok s => exact Call.build_alike calls others calls_same rfl

theorem Member.buildAll_alike (members others : List Member)
    (same : Member.maskedAll members = Member.maskedAll others) :
    (Member.buildAll members).Alike (fun a b => a.map Statement.masked = b.map Statement.masked)
      (Member.buildAll others) := by
  match members with
  | [] =>
    cases others with
    | nil => exact ⟨.ok rfl, .nil⟩
    | cons other others => simp [Member.maskedAll] at same
  | member :: rest =>
    cases others with
    | nil => simp [Member.maskedAll] at same
    | cons other others =>
      obtain ⟨first, later⟩ := List.cons.inj same
      have built := Member.build_alike member other first
      have listed := Member.buildAll_alike rest others later
      have results := built.results
      simp only [Member.buildAll]
      generalize member.build.result = one at results
      generalize other.build.result = two at results
      cases results with
      | error errors => exact ⟨.error errors, built.reports⟩
      | ok related =>
        refine ⟨listed.results.map fun a b rows => ?_, List.rel_append built.reports listed.reports⟩
        simp only [List.map_cons]
        rw [rows, related]

end

/-- The calls of two runs that differ in the bound values only come out alike one by one, and after
each of them the text, or the reason why there is none, is the same and the number of values too. -/
theorem sql_independent_of_values (calls others : List Call) (s t : Statement)
    (same : calls.map Call.masked = others.map Call.masked) (matched : s.masked = t.masked) :
    List.Forall₂
      (fun first second => first.Alike second ∧ first.statement.sql = second.statement.sql ∧
        first.statement.values.length = second.statement.values.length)
      (Call.runEach calls s) (Call.runEach others t) := by
  induction calls generalizing others s t with
  | nil =>
    obtain rfl := List.map_eq_nil_iff.1 same.symm
    exact .nil
  | cons call rest ih =>
    cases others with
    | nil => cases same
    | cons other others =>
      obtain ⟨first, later⟩ := List.cons.inj same
      have ran := Call.run_alike call other first matched
      exact .cons ⟨ran, Statement.sql_eq_of_masked ran.statements,
        Statement.length_values_of_masked ran.statements⟩ (ih others _ _ later ran.statements)

theorem sql_independent_of_null :
    let calls (value : Value) (values : List Value) : List Call :=
      [.edit (.fromTable "a"),
        .edit (.wherePredicate (.typed .and) (.compare false "x" (.typed .equal) value)),
        .whereExists .or true
          [.edit (.table "b"), .edit (.wherePredicate (.typed .and) (.inValues false "y" values))],
        .query .compile]
    (calls .null [.null]).map Call.masked = (calls (.text "?") [.bool true]).map Call.masked ∧
      List.Forall₂
        (fun first second => first.Alike second ∧ first.statement.sql = second.statement.sql ∧
          first.statement.values.length = second.statement.values.length)
        (Call.runEach (calls .null [.null]) (.new {}))
        (Call.runEach (calls (.text "?") [.bool true]) (.new {})) :=
  ⟨rfl, sql_independent_of_values _ _ _ _ rfl rfl⟩

end SqlComposer
