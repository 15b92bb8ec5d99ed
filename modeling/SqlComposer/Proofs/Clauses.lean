import Mathlib.Tactic.Choose
import SqlComposer.Proofs.Reuse

set_option autoImplicit false

namespace SqlComposer

theorem Stage.touched_ne {stage : Stage} (unfinished : stage ≠ .compiled) :
    stage.touched ≠ .compiled := by
  cases stage with
  | fresh | building => simp [touched]
  | compiled => exact absurd rfl unfinished

inductive Clause where
  | kind
  | distinct
  | joins
  | wheres
  | groups
  | havings
  | orders
  | pagination
deriving DecidableEq

namespace Clause

def Content : Clause → Type
  | .kind => Kind
  | .distinct => Bool
  | .joins => List Join
  | .wheres | .havings => List Condition
  | .groups | .orders => List SortEntry
  | .pagination => Pagination

def get : (c : Clause) → Statement → c.Content
  | .kind, s => s.kind
  | .distinct, s => s.distinct
  | .joins, s => s.joins
  | .wheres, s => s.wheres
  | .groups, s => s.groups
  | .havings, s => s.havings
  | .orders, s => s.orders
  | .pagination, s => s.pagination

def put : (c : Clause) → c.Content → Statement → Statement
  | .kind, content, s => { s with kind := content }
  | .distinct, content, s => { s with distinct := content }
  | .joins, content, s => { s with joins := content }
  | .wheres, content, s => { s with wheres := content }
  | .groups, content, s => { s with groups := content }
  | .havings, content, s => { s with havings := content }
  | .orders, content, s => { s with orders := content }
  | .pagination, content, s => { s with pagination := content }

-- Without content the statement is left as it is, untouched too.
def write (c : Clause) (s : Statement) : Option c.Content → Statement
  | none => s
  | some content => (c.put content s).touched

variable {c d : Clause} {s : Statement} {content? : Option c.Content}

@[simp] theorem settings_write : (c.write s content?).settings = s.settings := by
  cases content? <;> cases c <;> rfl

@[simp] theorem table_write : (c.write s content?).table = s.table := by
  cases content? <;> cases c <;> rfl

@[simp] theorem get_write : c.get (c.write s content?) = content?.getD (c.get s) := by
  cases content? <;> cases c <;> rfl

theorem get_write_of_ne (apart : c ≠ d) : d.get (c.write s content?) = d.get s := by
  cases content? <;> cases c <;> cases d <;> first | rfl | exact absurd rfl apart

theorem write_comm (apart : c ≠ d) {other? : Option d.Content} :
    d.write (c.write s content?) other? = c.write (d.write s other?) content? := by
  cases content? <;> cases other? <;> cases c <;> cases d <;> first | rfl | exact absurd rfl apart

theorem stage_write_ne (unfinished : s.stage ≠ .compiled) : (c.write s content?).stage ≠ .compiled := by
  cases content? with
  | none => exact unfinished
  | some content => cases c <;> exact Stage.touched_ne unfinished

/-! ### Operations on one clause -/

def Makes (c : Clause) (operation : Statement → Except Error Statement) : Prop :=
  ∃ make : Settings → Option Text → c.Content → Except Error c.Content, ∀ s,
    operation s = (make s.settings s.table (c.get s)).map fun content => c.write s (some content)

namespace Makes

theorem update (c : Clause) (f : c.Content → c.Content) :
    c.Makes fun s => .ok (c.write s (some (f (c.get s)))) :=
  ⟨fun _ _ held => .ok (f held), fun _ => rfl⟩

theorem require {A : Type} (check : Settings → Except Error A)
    {operation : A → Statement → Except Error Statement} (later : ∀ a, c.Makes (operation a)) :
    c.Makes fun s => check s.settings >>= fun a => operation a s := by
  choose make makes using later
  refine ⟨fun settings table held => check settings >>= fun a => make a settings table held, fun s => ?_⟩
  dsimp only
  cases check s.settings with
  | error error => rfl
  | ok a => exact makes a s

theorem establish (method : Text) (f : Kind → Kind) :
    Clause.kind.Makes fun s => s.establish method (f s.kind) := by
  refine ⟨fun _ _ held =>
    if held.admits (f held) then .ok (f held) else .error (.conflictingKind method held.name), fun s => ?_⟩
  unfold Statement.establish
  dsimp only [get]
  split <;> rfl

theorem addItems (method : Text) (items : List SelectItem) :
    Clause.kind.Makes fun s => s.addItems method items :=
  .establish method fun held => .select (held.items ++ items)

theorem insert (rows : List Row) : Clause.kind.Makes fun s => s.insert rows := by
  cases rows with
  | nil => exact ⟨fun _ _ _ => .error (.invalidArgument "insert" .noRows), fun _ => rfl⟩
  | cons row rest =>
    exact .require (fun settings => (row :: rest).forM (Row.validate settings "insert")) fun _ =>
      .establish "insert" fun _ => .insert (row :: rest)

theorem join (table : Text) (left? right? operator? kind? : Option Text) :
    Clause.joins.Makes fun s => s.join table left? right? operator? kind? := by
  refine ⟨fun settings current? held =>
    current?.elim (.error (.invalidArgument "join" .joinWithoutTable)) fun current =>
      (joinInput settings current table left? right? operator? kind?).map fun join => List.append held [join],
    fun s => ?_⟩
  match s with
  | { table := none, .. } => rfl
  | { settings, table := some current, .. } =>
    dsimp only [Statement.join, Option.elim]
    cases joinInput settings current table left? right? operator? kind? <;> rfl

theorem limit (limit : Nat) : Clause.pagination.Makes fun s =>
    .ok (Statement.touched { s with pagination := { s.pagination with limit } }) :=
  .update .pagination fun held : Pagination => ({ held with limit } : Pagination)

theorem offset (offset : Nat) : Clause.pagination.Makes fun s =>
    .ok (Statement.touched { s with pagination := { s.pagination with offset } }) :=
  .update .pagination fun held : Pagination => ({ held with offset } : Pagination)

theorem paginate (page perPage : UInt64) : Clause.pagination.Makes fun s => s.paginate page perPage := by
  refine ⟨fun _ _ held => held.paginate page perPage, fun s => ?_⟩
  unfold Statement.paginate
  dsimp only [get]
  cases s.pagination.paginate page perPage <;> rfl

end Makes

end Clause

namespace Edit

def clause? : Edit → Option Clause
  | .select _ | .selectRaw _ | .aggregate .. | .insert _ | .update _ | .delete | .truncate => some .kind
  | .distinct => some .distinct
  | .join .. => some .joins
  | .wherePredicate .. => some .wheres
  | .groupBy .. => some .groups
  | .havingCompare .. => some .havings
  | .orderBy .. | .orderByRandom => some .orders
  | .limit _ | .take _ | .offset _ | .skip _ | .paginate .. => some .pagination
  | .fromTable _ | .table _ | .addReferenceChars _ | .setQuote _ | .reset => none

theorem makes {edit : Edit} {c : Clause} (given : edit.clause? = some c) : c.Makes edit.apply :=
  match edit, c, given with
  | .select columns, _, rfl =>
    .require (fun settings => columns.entries.mapM (Reference.check settings "select"))
      fun references => .addItems "select" (references.map .column)
  | .selectRaw columns, _, rfl => .addItems "select_raw" (columns.entries.map .fragment)
  | .aggregate function column? alias?, _, rfl =>
    .require (fun settings => aggregateInput settings function column? alias?)
      fun item => .addItems function.name [item]
  | .insert rows, _, rfl => .require (fun _ => rows.toRows) .insert
  | .update row, _, rfl =>
    .require (fun _ => row.toRow) fun row =>
      .require (fun settings => row.validate settings "update") fun _ =>
        .establish "update" fun _ => .update row
  | .delete, _, rfl => .establish "delete" fun _ => .delete
  | .truncate, _, rfl => .establish "truncate" fun _ => .truncate
  | .distinct, _, rfl => .update .distinct fun _ => true
  | .join .., _, rfl => .join ..
  | .wherePredicate connective input, _, rfl =>
    .require (fun _ => connective.toConnective "where") fun connective =>
      .require input.toPredicate fun predicate =>
        .update .wheres fun held => List.append held [⟨connective, predicate⟩]
  | .havingCompare connective negated column comparison value, _, rfl =>
    .require (fun _ => connective.toConnective "having") fun connective =>
      .require (fun settings => compareInput settings "having" negated column comparison value)
        fun predicate => .update .havings fun held => List.append held [⟨connective, predicate⟩]
  | .groupBy input direction?, _, rfl =>
    .require (fun settings => input.normalize settings "group_by" direction?) fun entries =>
      .update .groups (SortEntry.putAll entries)
  | .orderBy input direction?, _, rfl =>
    .require (fun settings => input.normalize settings "order_by" direction?) fun entries =>
      .update .orders (SortEntry.putAll entries)
  | .orderByRandom, _, rfl => .update .orders fun held => List.append held [.random]
  | .limit count, _, rfl => .require (fun _ => count.toCount "limit") .limit
  | .take count, _, rfl => .require (fun _ => count.toCount "take") .limit
  | .offset count, _, rfl => .require (fun _ => count.toCount "offset") .offset
  | .skip count, _, rfl => .require (fun _ => count.toCount "skip") .offset
  | .paginate .., _, rfl => .paginate ..

theorem get_of_other {edit : Edit} {c : Clause} {s next : Statement} (kept : edit ≠ .reset)
    (other : edit.clause? ≠ some c) (applied : edit.apply s = .ok next) : c.get next = c.get s := by
  cases named : edit.clause? with
  | some d =>
    obtain ⟨make, makes⟩ := Edit.makes named
    rw [makes] at applied
    obtain ⟨content, -, rfl⟩ := map_eq_ok.1 applied
    exact Clause.get_write_of_ne fun same => other (by rw [named, same])
  | none =>
    cases edit with
    | fromTable | table =>
      obtain ⟨checked, -, rfl⟩ := Statement.setTable_eq_ok.1 applied
      cases c <;> rfl
    | addReferenceChars =>
      obtain ⟨chars, -, rfl⟩ := Edit.addReferenceChars_eq_ok.1 applied
      cases c <;> rfl
    | setQuote =>
      obtain ⟨quote, -, rfl⟩ := Edit.setQuote_eq_ok.1 applied
      cases c <;> rfl
    | reset => exact absurd rfl kept
    | _ => cases named

end Edit

def Built.behind {A B : Type} (checked : Except Error B) (build : B → Built A) : Built (B × A) where
  result := checked >>= fun b => (build b).result.map (b, ·)
  reports := (checked.toOption.map fun b => (build b).reports).getD []

namespace Call

def clause? : Call → Option Clause
  | .edit action => action.clause?
  | .whereGroup .. | .whereInQuery .. | .whereExists .. => some .wheres
  | .havingGroup .. => some .havings
  | .attempt call => call.clause?
  | .query _ | .union .. => none

def Confined (c : Clause) (call : Call) : Prop :=
  ∃ act : Settings → Option Text → c.Content → Report × Option c.Content,
    ∀ s, ¬ call.Clears s →
      (call.run s).report = (act s.settings s.table (c.get s)).1 ∧
        (call.run s).statement = c.write s (act s.settings s.table (c.get s)).2

variable {call : Call} {c : Clause}

theorem confined_edit {action : Edit} (makes : c.Makes action.apply) : (edit action).Confined c := by
  obtain ⟨make, same⟩ := makes
  refine ⟨fun settings table held =>
    let made := make settings table held
    (⟨made.map fun _ => .done, []⟩, made.toOption), fun s kept => ?_⟩
  simp only [run, run_of_kept kept, same s, Outcome.report]
  cases make s.settings s.table (c.get s) <;> exact ⟨rfl, rfl⟩

theorem confined_conclude {A : Type} (build : Settings → Option Text → Built A)
    (add : A → c.Content → Option c.Content)
    (ran : ∀ s, call.run s =
      (build s.settings s.table).conclude s fun a => .ok (c.write s (add a (c.get s)))) :
    call.Confined c := by
  refine ⟨fun settings table held =>
    let built := build settings table
    (⟨built.result.map fun _ => .done, built.reports⟩, built.result.toOption.bind fun a => add a held),
    fun s _ => ?_⟩
  simp only [ran, Built.conclude, Outcome.report]
  cases (build s.settings s.table).result <;> exact ⟨rfl, rfl⟩

theorem confined_attempt (inner : call.Confined c) : (attempt call).Confined c := by
  obtain ⟨act, same⟩ := inner
  refine ⟨fun settings table held =>
    let acted := act settings table held
    (⟨.ok (.ofAttempt acted.1.result), acted.1.inner⟩, acted.2), fun s kept => ?_⟩
  obtain ⟨report, statement⟩ := same s kept
  exact ⟨by simp only [← report]; rfl, statement⟩

theorem confined {call : Call} {c : Clause} (given : call.clause? = some c) : call.Confined c :=
  match call, c, given with
  | .edit _, _, given => confined_edit (Edit.makes given)
  | .whereGroup connective negated calls, _, rfl =>
    confined_conclude (fun settings table => build calls { Statement.new settings with table })
      (fun child held => if child.wheres.isEmpty then none else
        some (List.append held [⟨connective, .group negated child.wheres⟩]))
      fun s => (run_whereGroup connective negated calls s).trans <| by
        congr 1
        funext child
        unfold Statement.whereGroup
        cases child.wheres <;> rfl
  | .havingGroup connective negated calls, _, rfl =>
    confined_conclude (fun settings table => build calls { Statement.new settings with table })
      (fun child held => if child.havings.isEmpty then none else
        some (List.append held [⟨connective, .group negated child.havings⟩]))
      fun s => (run_havingGroup connective negated calls s).trans <| by
        congr 1
        funext child
        unfold Statement.havingGroup
        cases child.havings <;> rfl
  | .whereExists connective negated calls, _, rfl =>
    confined_conclude (fun settings table => build calls { Statement.new settings with table })
      (fun child held => some (List.append held [⟨connective, .existsQuery negated child⟩]))
      fun s => run_whereExists connective negated calls s
  | .whereInQuery connective negated column calls, _, rfl =>
    confined_conclude
      (fun settings _ =>
        .behind (Reference.check settings "where_in" column) fun _ => build calls (.new settings))
      (fun inner held => some (List.append held [⟨connective, .inQuery negated inner.1 inner.2⟩]))
      fun s => (run_whereInQuery connective negated calls s column).trans <| by
        cases Reference.check s.settings "where_in" column with
        | error error => rfl
        | ok checked =>
          simp only [Built.conclude, Built.behind]
          have same : s.child false = .new s.settings := rfl
          rw [same]
          cases (build calls (.new s.settings)).result <;> rfl
  | .attempt call, _, given => confined_attempt (confined (show call.clause? = some _ from given))

end Call

/-! ### Interleaving -/

namespace Call

variable {s : Statement} {a b : Call} {c d : Clause}

@[simp] theorem clause?_bare (call : Call) : call.bare.clause? = call.clause? := by
  match call with
  | .attempt call => exact call.clause?_bare
  | .edit _ | .query _ | .whereGroup .. | .whereInQuery .. | .whereExists .. | .havingGroup ..
  | .union .. => rfl

theorem not_clears (given : a.clause? = some c) (unfinished : s.stage ≠ .compiled) : ¬ a.Clears s := by
  rintro (resets | ⟨-, compiled⟩)
  · rw [← clause?_bare, resets] at given
    cases given
  · exact unfinished compiled

theorem unfinished_run (given : a.clause? = some c) (unfinished : s.stage ≠ .compiled) :
    (a.run s).statement.stage ≠ .compiled := by
  obtain ⟨act, same⟩ := confined given
  rw [(same s (not_clears given unfinished)).2]
  exact Clause.stage_write_ne unfinished

theorem swap (left : a.clause? = some c) (right : b.clause? = some d) (apart : c ≠ d)
    (unfinished : s.stage ≠ .compiled) :
    (b.run (a.run s).statement).report = (b.run s).report ∧
      (b.run (a.run s).statement).statement = (a.run (b.run s).statement).statement := by
  obtain ⟨actA, sameA⟩ := confined left
  obtain ⟨actB, sameB⟩ := confined right
  obtain ⟨-, nextA⟩ := sameA s (not_clears left unfinished)
  obtain ⟨reportB, nextB⟩ := sameB s (not_clears right unfinished)
  obtain ⟨reportAB, nextAB⟩ := sameB _ (not_clears right (unfinished_run left unfinished))
  obtain ⟨-, nextBA⟩ := sameA _ (not_clears left (unfinished_run right unfinished))
  rw [reportAB, reportB, nextAB, nextBA, nextA, nextB]
  simp only [Clause.settings_write, Clause.table_write, Clause.get_write_of_ne apart,
    Clause.get_write_of_ne apart.symm, true_and]
  exact Clause.write_comm apart

def reportsOn (c : Clause) : List Call → Statement → List Report
  | [], _ => []
  | call :: rest, s =>
    let later := reportsOn c rest (call.run s).statement
    if call.clause? = some c then (call.run s).report :: later else later

/-- The two runs come to the same statement, and the calls on each clause report the same. -/
structure Alike (s : Statement) (first second : List Call) : Prop where
  reports : ∀ c, reportsOn c first s = reportsOn c second s
  statement : runAll first s = runAll second s

namespace Alike

variable {first second third before : List Call}

theorem symm (alike : Alike s first second) : Alike s second first :=
  ⟨fun c => (alike.reports c).symm, alike.statement.symm⟩

theorem trans (one : Alike s first second) (two : Alike s second third) : Alike s first third :=
  ⟨fun c => (one.reports c).trans (two.reports c), one.statement.trans two.statement⟩

theorem cons (call : Call) (rest : Alike (call.run s).statement first second) :
    Alike s (call :: first) (call :: second) := by
  refine ⟨fun c => ?_, rest.statement⟩
  simp only [reportsOn, rest.reports c]

theorem swap (left : a.clause? = some c) (right : b.clause? = some d) (apart : c ≠ d)
    (unfinished : s.stage ≠ .compiled) (rest : List Call) : Alike s (a :: b :: rest) (b :: a :: rest) := by
  obtain ⟨reportB, same⟩ := Call.swap left right apart unfinished
  obtain ⟨reportA, -⟩ := Call.swap right left apart.symm unfinished
  refine ⟨fun e => ?_, ?_⟩
  · simp only [reportsOn, reportA, reportB, same, left, right, Option.some.injEq]
    split
    · next first =>
      split
      · next second => exact absurd (first.trans second.symm) apart
      · rfl
    · rfl
  · simp only [runAll_cons, same]

theorem toFront (given : a.clause? = some c) (rest : List Call)
    (others : ∀ call ∈ before, ∃ d, call.clause? = some d ∧ d ≠ c) (unfinished : s.stage ≠ .compiled) :
    Alike s (before ++ a :: rest) (a :: (before ++ rest)) := by
  induction before generalizing s with
  | nil => exact ⟨fun _ => rfl, rfl⟩
  | cons b before ih =>
    obtain ⟨⟨d, other, apart⟩, others⟩ := List.forall_mem_cons.1 others
    have moved := ih others (unfinished_run other unfinished)
    exact (moved.cons b).trans (.swap other given apart unfinished _)

end Alike

theorem exists_front {call : Call} {rest second : List Call} (given : call.clause? = some c)
    (same : ∀ d : Clause, (call :: rest).filter (·.clause? = some d) = second.filter (·.clause? = some d)) :
    ∃ before after, second = before ++ call :: after ∧ (∀ other ∈ before, other.clause? ≠ some c) ∧
      ∀ d : Clause, rest.filter (·.clause? = some d) = (before ++ after).filter (·.clause? = some d) := by
  have found := (same c).symm
  rw [List.filter_cons_of_pos (by simpa using given)] at found
  obtain ⟨before, after, rfl, others, -, left⟩ := List.filter_eq_cons_iff.1 found
  have elsewhere : ∀ other ∈ before, other.clause? ≠ some c := by simpa using others
  refine ⟨before, after, rfl, elsewhere, fun d => ?_⟩
  by_cases here : c = d
  · subst here
    have none : before.filter (·.clause? = some c) = [] := by simpa using elsewhere
    rw [List.filter_append, none, List.nil_append, left]
  · have whole := same d
    simpa [given, here] using whole

end Call

/-- On a statement that is not compiled, calls on clauses can change places as long as those on each
clause stay in order: each reports the same, and all come to the same statement. -/
theorem clauses_commute (s : Statement) (unfinished : s.stage ≠ .compiled) (first second : List Call)
    (eachFirst : ∀ call ∈ first, call.clause?.isSome) (eachSecond : ∀ call ∈ second, call.clause?.isSome)
    (same : ∀ c : Clause, first.filter (·.clause? = some c) = second.filter (·.clause? = some c)) :
    (∀ c, Call.reportsOn c first s = Call.reportsOn c second s) ∧
      Call.runAll first s = Call.runAll second s := by
  suffices alike : Call.Alike s first second from ⟨alike.reports, alike.statement⟩
  induction first generalizing s second with
  | nil =>
    have none : second = [] := by
      refine List.eq_nil_iff_forall_not_mem.2 fun call member => ?_
      obtain ⟨c, given⟩ := Option.isSome_iff_exists.1 (eachSecond call member)
      have kept : call ∈ second.filter (·.clause? = some c) := by simp [member, given]
      simp [← same c] at kept
    subst none
    exact ⟨fun _ => rfl, rfl⟩
  | cons call rest ih =>
    obtain ⟨⟨c, given⟩, eachRest⟩ :
        (∃ c, call.clause? = some c) ∧ ∀ call ∈ rest, call.clause?.isSome := by
      simpa [Option.isSome_iff_exists] using eachFirst
    obtain ⟨before, after, rfl, others, remaining⟩ := Call.exists_front given same
    have apart : ∀ other ∈ before, ∃ d, other.clause? = some d ∧ d ≠ c := by
      intro other member
      obtain ⟨d, named⟩ := Option.isSome_iff_exists.1 (eachSecond other (by simp [member]))
      refine ⟨d, named, fun equal => others other member ?_⟩
      rw [named, equal]
    have eachOther : ∀ other ∈ before ++ after, other.clause?.isSome := by
      intro other member
      refine eachSecond other ?_
      rcases List.mem_append.1 member with early | late
      · exact List.mem_append_left _ early
      · exact List.mem_append_right _ (List.mem_cons_of_mem _ late)
    have later := ih _ (Call.unfinished_run given unfinished) _ eachRest eachOther remaining
    exact (later.cons call).trans (Call.Alike.toFront given after apart unfinished).symm

-- An update behind a selected column and a sort by no column are refused in either order.
theorem clauses_commute_refused :
    let s := Call.runAll [.edit (.fromTable "a")] (.new {})
    let column : Call := .edit (.select (.text "b"))
    let row : Call := .edit (.update (.pairs [("c", .null)]))
    let inner : Call := .whereExists .and true [.edit (.table "d"), .query .toSql, .edit .delete]
    let sort : Call := .edit (.orderBy (.text "e;") none)
    let limit : Call := .edit (.limit (.integer 2))
    let first := [column, row, inner, sort, limit]
    let second := [limit, column, sort, inner, row]
    let answers (c : Clause) := (Call.reportsOn c second s).map fun report => report.result.map fun _ => ()
    Call.runAll first s = Call.runAll second s ∧
      answers .kind = [.ok (), .error (.conflictingKind "update" "select")] ∧
      answers .orders = [.error (.invalidReference "order_by" "e;")] ∧
      (Call.runAll second s).sql =
        .ok "SELECT `a`.`b` FROM `a` WHERE NOT EXISTS (DELETE FROM `d`) LIMIT 2" := by
  intro s column row inner sort limit first second answers
  have unfinished : s.stage ≠ .compiled := by decide +kernel
  obtain ⟨reports, statement⟩ :=
    clauses_commute s unfinished first second (by decide) (by decide) (by rintro ⟨⟩ <;> rfl)
  refine ⟨statement, ?_⟩
  simp only [answers, ← reports, ← statement]
  decide +kernel

end SqlComposer
