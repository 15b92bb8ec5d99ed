import SqlComposer.Proofs.Reuse

set_option autoImplicit false

namespace SqlComposer

namespace Kind

/-- What it comes to when a kind is established once more: items stand behind the earlier ones, and
anything else replaces what was there. -/
def followedBy : Kind → Kind → Kind
  | .select held, .select items => .select (held ++ items)
  | _, made => made

theorem followedBy_of_single {kind made : Kind} (single : ∀ items, made ≠ .select items) :
    kind.followedBy made = made := by
  unfold followedBy
  split
  · next items => exact (single items rfl).elim
  · rfl

theorem admits_iff {kind made : Kind} (established : kind ≠ .unset) (solid : made.Solid) :
    kind.admits made ↔ made.name = kind.name := by
  cases kind with
  | unset => exact (established rfl).elim
  | select | insert | update | delete | truncate | union =>
    cases made with
    | unset | union => exact solid.elim
    | select | insert | update | delete | truncate =>
      dsimp only [admits, name]
      decide

end Kind

namespace Edit

variable {edit : Edit} {s next : Statement}

theorem kindName?_of_configures (configures : edit.configures) : edit.kindName? = none := by
  cases edit with
  | addReferenceChars | setQuote => rfl
  | _ => cases configures

theorem kind_of_plain (plain : edit.kindName? = none) (kept : edit ≠ .reset)
    (applied : edit.apply s = .ok next) : next.kind = s.kind := by
  cases edit.effect applied with
  | established kind _ _ named => simp [plain] at named
  | cleared resets => exact absurd resets kept
  | _ => rfl

theorem kind_of_named {name : Text} (named : edit.kindName? = some name)
    (applied : edit.apply s = .ok next) :
    next.kind.Solid ∧ next.kind.name = name ∧ s.kind.admits next.kind := by
  cases edit.effect applied with
  | established kind admitted solid given =>
    exact ⟨solid, Option.some.inj (given.symm.trans named), admitted⟩
  | clauses plain | filtered plain | compared plain => simp [plain] at named
  | configured _ configures => simp [kindName?_of_configures configures] at named
  | cleared resets =>
    subst resets
    cases named

def method? : Edit → Option Text
  | .select _ => some "select"
  | .selectRaw _ => some "select_raw"
  | .aggregate function .. => some function.name
  | .insert _ => some "insert"
  | .update _ => some "update"
  | .delete => some "delete"
  | .truncate => some "truncate"
  | _ => none

end Edit

namespace Statement

variable {s made : Statement} {method : Text}

def unestablished (s : Statement) : Statement := { s with kind := .unset }

-- What establishes a kind where there is none: it follows one of the same name or is refused.
def continued (s made : Statement) (method : Text) : Except Error Statement :=
  if s.kind.admits made.kind then .ok { made with kind := s.kind.followedBy made.kind }
  else .error (.conflictingKind method s.kind.name)

theorem continued_of_admits (admitted : s.kind.admits made.kind) :
    s.continued made method = .ok { made with kind := s.kind.followedBy made.kind } :=
  if_pos admitted

theorem continued_of_refused (refused : ¬ s.kind.admits made.kind) :
    s.continued made method = .error (.conflictingKind method s.kind.name) :=
  if_neg refused

theorem establish_continued {kind : Kind} (single : ∀ items, kind ≠ .select items)
    (done : s.unestablished.establish method kind = .ok made) :
    s.establish method kind = s.continued made method := by
  obtain ⟨-, rfl⟩ := establish_eq_ok.1 done
  simp only [establish, continued, touched, unestablished, Kind.followedBy_of_single single]

theorem addItems_continued {items : List SelectItem}
    (done : s.unestablished.addItems method items = .ok made) :
    s.addItems method items = s.continued made method := by
  obtain ⟨-, rfl⟩ := establish_eq_ok.1 done
  have admits : s.kind.admits (.select (s.kind.items ++ items)) = s.kind.admits (.select items) := by
    cases s.kind <;> rfl
  have follows (admitted : s.kind.admits (.select items)) :
      s.kind.followedBy (.select items) = .select (s.kind.items ++ items) := by
    revert admitted
    cases s.kind with
    | unset | select => exact fun _ => rfl
    | insert | update | delete | truncate | union => simp [Kind.admits]
  rw [addItems, establish, admits]
  by_cases admitted : s.kind.admits (.select items)
  · rw [if_pos admitted, ← follows admitted]
    exact Eq.symm (continued_of_admits admitted)
  · rw [if_neg admitted]
    exact Eq.symm (continued_of_refused admitted)

theorem insert_of_valid {rows : List Row} (some : rows ≠ [])
    (valid : ∀ row ∈ rows, row.validate s.settings "insert" = .ok ()) :
    s.insert rows = s.establish "insert" (.insert rows) := by
  cases rows with
  | nil => exact (some rfl).elim
  | cons row rest =>
    rw [insert_cons, forM_eq_ok.2 valid]
    rfl

end Statement

namespace Edit

variable {edit : Edit} {s made : Statement} {method : Text}

theorem apply_continued (given : edit.method? = some method)
    (valid : edit.apply s.unestablished = .ok made) : edit.apply s = s.continued made method := by
  cases edit with
  | select columns =>
    obtain rfl := Option.some.inj given
    obtain ⟨references, found, added⟩ := Statement.select_eq_ok.1 valid
    have checked : columns.entries.mapM (Reference.check s.settings "select") = .ok references := found
    rw [apply, Statement.select, checked]
    exact Statement.addItems_continued added
  | selectRaw =>
    obtain rfl := Option.some.inj given
    exact Statement.addItems_continued valid
  | aggregate function column? alias? =>
    obtain rfl := Option.some.inj given
    obtain ⟨item, found, added⟩ := Statement.aggregate_eq_ok.1 valid
    have checked : aggregateInput s.settings function column? alias? = .ok item := found
    rw [apply, Statement.aggregate, checked]
    exact Statement.addItems_continued added
  | insert input =>
    obtain rfl := Option.some.inj given
    obtain ⟨rows, read, inserted⟩ := Edit.insert_eq_ok.1 valid
    obtain ⟨some, valid, done⟩ := Statement.insert_eq_ok.1 inserted
    rw [apply, read]
    have inserts := Statement.insert_of_valid (s := s) some valid
    exact inserts.trans (Statement.establish_continued (by simp) done)
  | update input =>
    obtain rfl := Option.some.inj given
    obtain ⟨row, read, updated⟩ := Edit.update_eq_ok.1 valid
    obtain ⟨valid, done⟩ := Statement.update_eq_ok.1 updated
    have checked : row.validate s.settings "update" = .ok () := valid
    have updates : s.update row = s.establish "update" (.update row) := by
      rw [Statement.update, checked]
      rfl
    rw [apply, read]
    exact updates.trans (Statement.establish_continued (by simp) done)
  | delete | truncate =>
    obtain rfl := Option.some.inj given
    exact Statement.establish_continued (by simp) valid
  | _ => cases given

end Edit

theorem Kind.Solid.ne_unset {kind : Kind} (solid : kind.Solid) : kind ≠ .unset := by
  rintro rfl
  exact solid

namespace Call

variable {call : Call} {s : Statement}

def kindName? : Call → Option Text
  | .edit action => action.kindName?
  | .union .. => some "union"
  | _ => none

theorem kind_of_plain (kept : ¬ call.Clears s) (plain : call.bare.kindName? = none) :
    (call.run s).statement.kind = s.kind := by
  have made := call.effect kept
  generalize (call.run s).statement = next at made ⊢
  cases made with
  | edited action given kept applied =>
    rw [given] at plain
    exact Edit.kind_of_plain plain kept applied
  | united _ _ _ given =>
    rw [given] at plain
    cases plain
  | _ => rfl

theorem kind_of_established (kept : ¬ call.Clears s) (established : s.kind ≠ .unset) :
    (call.run s).statement.kind ≠ .unset ∧ (call.run s).statement.kind.name = s.kind.name := by
  have made := call.effect kept
  generalize (call.run s).statement = next at made ⊢
  cases made with
  | edited action _ kept applied =>
    cases named : action.kindName? with
    | none =>
      rw [Edit.kind_of_plain named kept applied]
      exact ⟨established, rfl⟩
    | some name =>
      obtain ⟨solid, -, admitted⟩ := Edit.kind_of_named named applied
      exact ⟨solid.ne_unset, (Kind.admits_iff established solid).1 admitted⟩
  | united _ _ _ _ unset => exact absurd unset established
  | _ => exact ⟨established, rfl⟩

theorem established_of_ok {name : Text} (named : call.kindName? = some name) {reply : Reply}
    (succeeds : (call.run s).result = .ok reply) :
    (call.run s).statement.kind ≠ .unset ∧ (call.run s).statement.kind.name = name := by
  cases call with
  | edit action =>
    simp only [run, Edit.run_eq] at succeeds ⊢
    cases applied : action.apply (action.base s) with
    | error error => simp [applied, Except.map] at succeeds
    | ok next =>
      obtain ⟨solid, same, -⟩ := Edit.kind_of_named named applied
      exact ⟨solid.ne_unset, same⟩
  | union all members =>
    rw [run_union] at succeeds ⊢
    unfold Built.conclude at succeeds ⊢
    split at succeeds
    · next next done =>
      cases built : (Member.buildAll members).result with
      | error error => simp [built, Except.bind] at done
      | ok statements =>
        rw [built] at done
        obtain ⟨-, -, rfl⟩ := Statement.union_eq_ok.1 done
        obtain rfl := Option.some.inj named
        exact ⟨by simp [Statement.touched], rfl⟩
    · cases succeeds
  | _ => cases named

theorem union_refused (established : s.kind ≠ .unset) (all : Bool) (members : List Member) :
    ((union all members).run s).statement = s ∧
    (∃ error, ((union all members).run s).result = .error error) ∧
    ∀ built, (Member.buildAll members).result = .ok built →
      ((union all members).run s).result =
        .error (.conflictingKind (Statement.unionMethod all) s.kind.name) := by
  rw [run_union, Built.conclude]
  cases (Member.buildAll members).result with
  | error error => exact ⟨rfl, ⟨error, rfl⟩, by simp⟩
  | ok built =>
    rw [Except.bind, Statement.union_of_established _ _ _ established]
    exact ⟨rfl, ⟨_, rfl⟩, fun _ _ => rfl⟩

end Call

theorem Edit.run_named {edit : Edit} {s : Statement} {name : Text} (named : edit.kindName? = some name)
    (kept : ¬ (Call.edit edit).Clears s) (established : s.kind ≠ .unset) :
    (name ≠ s.kind.name → ∃ error, edit.run s = (.error error, s)) ∧
    ∀ method made, edit.method? = some method → edit.apply { s with kind := .unset } = .ok made →
      edit.run s =
        if name = s.kind.name then (.ok (), { made with kind := s.kind.followedBy made.kind })
        else (.error (.conflictingKind method s.kind.name), s) := by
  rw [Call.run_of_kept kept]
  refine ⟨fun other => ?_, fun method made given valid => ?_⟩
  · cases applied : edit.apply s with
    | error error => exact ⟨error, rfl⟩
    | ok next =>
      obtain ⟨solid, same, admitted⟩ := kind_of_named named applied
      exact absurd (same.symm.trans ((Kind.admits_iff established solid).1 admitted)) other
  · obtain ⟨solid, same, -⟩ := kind_of_named named valid
    have admits : s.kind.admits made.kind ↔ name = s.kind.name := by
      rw [Kind.admits_iff established solid, same]
    rw [apply_continued given valid]
    by_cases alike : name = s.kind.name
    · rw [if_pos alike, Statement.continued_of_admits (admits.2 alike)]
    · rw [if_neg alike, Statement.continued_of_refused fun admitted => alike (admits.1 admitted)]

theorem Uninterrupted.kind {calls : List Call} {s : Statement} (run : Uninterrupted calls s)
    (established : s.kind ≠ .unset) :
    (Call.runAll calls s).kind ≠ .unset ∧ (Call.runAll calls s).kind.name = s.kind.name := by
  induction calls generalizing s with
  | nil => exact ⟨established, rfl⟩
  | cons call rest ih =>
    obtain ⟨kept, rested⟩ := run
    obtain ⟨still, same⟩ := Call.kind_of_established kept established
    rw [Call.runAll_cons, ← same]
    exact ih rested still

/-- Once a call has established the kind of a statement, it stays until the statement is cleared. An
edit for another kind is then refused, and so is every union; if it is accepted where no kind is
established, the conflict is what is wrong with it. One for the same kind is accepted where it was
accepted without, and adds its items or replaces the rows. No other call changes the kind. -/
theorem first_kind_stays (s : Statement) (first : Call) (name : Text)
    (establishes : first.bare.kindName? = some name) (reply : Reply)
    (succeeds : (first.bare.run s).result = .ok reply) (calls : List Call)
    (run : Uninterrupted calls (first.run s).statement) :
    let now := Call.runAll (first :: calls) s
    (now.kind ≠ .unset ∧ now.kind.name = name) ∧
    (∀ call : Call, ¬ call.Clears now → call.bare.kindName? = none →
      (call.run now).statement.kind = now.kind) ∧
    (∀ (edit : Edit) (other : Text), edit.kindName? = some other → ¬ (Call.edit edit).Clears now →
      (other ≠ name → ∃ error, edit.run now = (.error error, now)) ∧
      ∀ method made, edit.method? = some method → edit.apply { now with kind := .unset } = .ok made →
        edit.run now =
          if other = name then (.ok (), { made with kind := now.kind.followedBy made.kind })
          else (.error (.conflictingKind method name), now)) ∧
    ∀ all members,
      ((Call.union all members).run now).statement = now ∧
      (∃ error, ((Call.union all members).run now).result = .error error) ∧
      ∀ built, (Member.buildAll members).result = .ok built →
        ((Call.union all members).run now).result =
          .error (.conflictingKind (Statement.unionMethod all) name) := by
  intro now
  obtain ⟨established, named⟩ := Call.established_of_ok establishes succeeds
  rw [first.statement_bare] at established named
  obtain ⟨still, same⟩ := run.kind established
  have fixed : now.kind.name = name := same.trans named
  subst fixed
  exact ⟨⟨still, rfl⟩, fun call kept plain => Call.kind_of_plain kept plain,
    fun edit other given kept => edit.run_named given kept still,
    fun all members => Call.union_refused still all members⟩

-- A maximum behind a selected column, and an update and a union in the place of either.
theorem first_kind_stays_conflict :
    let first : Call := .attempt (.edit (.select (.text "a")))
    let calls : List Call := [.edit .distinct, .edit .delete, .query .toSql]
    let now := Call.runAll (first :: calls) (.new {})
    let greatest : Edit := .aggregate .max (some "b") (some "c")
    first.bare.kindName? = some "select" ∧ Uninterrupted calls (first.run (.new {})).statement ∧
      now.kind.name = "select" ∧
      ((greatest.run now).1 = .ok () ∧ (greatest.run now).2.kind.items.length = 2) ∧
      (Edit.update (.pairs [("a", .null)])).run now =
        (.error (.conflictingKind "update" "select"), now) ∧
      ((Call.union true [⟨.table "d", []⟩]).run now).result =
        .error (.conflictingKind "union_all" "select") := by
  intro first calls now greatest
  have named : first.bare.kindName? = some "select" := rfl
  have run : Uninterrupted calls (first.run (.new {})).statement := by
    simp [calls, Uninterrupted, Call.Clears, Call.bare, Call.startsOver, Edit.startsOver]
  obtain ⟨⟨-, fixed⟩, -, edits, unions⟩ :=
    first_kind_stays (.new {}) first "select" named .done rfl calls run
  have kept (edit : Edit) (ending : edit.startsOver = false) (other : edit ≠ .reset) :
      ¬ (Call.edit edit).Clears now := by
    simp [Call.Clears, Call.bare, Call.startsOver, ending, other]
  have appended := (edits greatest "select" rfl (kept _ rfl (by simp [greatest]))).2 "max" _ rfl rfl
  have refused := (edits (.update (.pairs [("a", .null)])) "update" rfl (kept _ rfl (by simp))).2
    "update" _ rfl rfl
  rw [if_pos rfl] at appended
  rw [if_neg (by decide)] at refused
  refine ⟨named, run, fixed, ?_, refused, (unions true [⟨.table "d", []⟩]).2.2 _ rfl⟩
  rw [appended]
  exact ⟨rfl, rfl⟩

end SqlComposer
