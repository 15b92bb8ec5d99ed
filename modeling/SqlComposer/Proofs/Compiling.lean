import SqlComposer.Proofs.WellFormed
import SqlComposer.Proofs.Writing

set_option autoImplicit false

namespace SqlComposer

def Pagination.Bounded (pagination : Pagination) : Prop :=
  pagination.offset = 0 ∨ pagination.limit ≠ 0

mutual

/-- A statement that filters needs a table, a limit for its offset and subqueries that compile; the
rows of an insert need equal columns, and a union needs members that compile. -/
def Statement.Compilable : Statement → Prop
  | { kind, table, wheres, pagination, .. } =>
    match kind with
    | .unset | .select _ | .update _ | .delete =>
      table.isSome ∧ pagination.Bounded ∧ Condition.AllCompilable wheres
    | .insert rows =>
      table.isSome ∧ ∀ first ∈ rows.head?, ∀ row ∈ rows, ∀ column,
        column ∈ row.columns ↔ column ∈ first.columns
    | .truncate => table.isSome
    | .union _ members => pagination.Bounded ∧ Statement.AllCompilable members

def Statement.AllCompilable : List Statement → Prop
  | [] => True
  | member :: rest => member.Compilable ∧ Statement.AllCompilable rest

def Condition.AllCompilable : List Condition → Prop
  | [] => True
  | ⟨_, predicate⟩ :: rest => predicate.Compilable ∧ Condition.AllCompilable rest

def Predicate.Compilable : Predicate → Prop
  | .inQuery _ _ query | .existsQuery _ query => query.Compilable
  | .group _ conditions => Condition.AllCompilable conditions
  | _ => True

end

theorem Pagination.validate_eq_ok {pagination : Pagination} :
    pagination.validate = .ok () ↔ pagination.Bounded := by
  unfold validate Bounded
  split <;> simp <;> omega

theorem requireTable_eq_ok {table : Option Text} : requireTable table = .ok () ↔ table.isSome := by
  cases table <;> simp [requireTable]

theorem checkRows_eq_ok_iff {rows : List Row} (some : rows ≠ []) :
    checkRows rows = .ok () ↔ ∀ first ∈ rows.head?, ∀ row ∈ rows, ∀ column,
      column ∈ row.columns ↔ column ∈ first.columns := by
  obtain ⟨first, rest, rfl⟩ := List.exists_cons_of_ne_nil some
  simp [checkRows_eq_ok, Row.sameColumns_iff]

mutual

-- Comparisons and groups of them hold no statement.
theorem Condition.checkAll_of_compares (conditions : List Condition)
    (compares : Condition.EveryOf (fun _ => True) Predicate.Compares conditions) :
    Condition.checkAll conditions = .ok () := by
  match conditions with
  | [] => rfl
  | ⟨_, predicate⟩ :: rest =>
    rw [Condition.checkAll_cons, then_eq_ok]
    exact ⟨Predicate.check_of_compares predicate compares.1,
      Condition.checkAll_of_compares rest compares.2⟩

theorem Predicate.check_of_compares (predicate : Predicate)
    (compares : predicate.Every (fun _ => True) Predicate.Compares) : predicate.check = .ok () := by
  match predicate with
  | .compare .. => rfl
  | .group _ conditions => exact Condition.checkAll_of_compares conditions compares.2
  | .inQuery .. | .existsQuery .. => exact compares.1.elim
  | .between .. | .inValues .. | .isNull .. | .columns .. | .datePart .. | .fragment .. =>
    exact compares.elim

end

mutual

theorem Statement.check_eq_ok (s : Statement)
    (every : s.Every Statement.WellFormed Predicate.WellFormed) :
    s.check = .ok () ↔ s.Compilable := by
  match s with
  | { kind, table, wheres, havings, pagination, .. } =>
    obtain ⟨wellFormed, inWheres, -, inMembers⟩ := (Statement.every_iff _).1 every
    have filter := Condition.checkAll_eq_ok wheres inWheres
    have grouped := Condition.checkAll_of_compares havings wellFormed.havings
    match kind with
    | .unset | .select _ =>
      simp only [Statement.check, Statement.Compilable, then_eq_ok, requireTable_eq_ok, filter, grouped,
        Pagination.validate_eq_ok, true_and]
      tauto
    | .update _ | .delete =>
      simp only [Statement.check, Statement.Compilable, then_eq_ok, requireTable_eq_ok, filter,
        Pagination.validate_eq_ok]
      tauto
    | .insert rows =>
      simp only [Statement.check, Statement.Compilable, then_eq_ok, requireTable_eq_ok,
        checkRows_eq_ok_iff wellFormed.kind.insert.1]
    | .truncate => exact requireTable_eq_ok
    | .union all members =>
      simp only [Statement.check, Statement.Compilable, then_eq_ok, Pagination.validate_eq_ok,
        Statement.checkAll_eq_ok members (inMembers all members rfl)]

theorem Statement.checkAll_eq_ok (members : List Statement)
    (every : Statement.EveryOf Statement.WellFormed Predicate.WellFormed members) :
    Statement.checkAll members = .ok () ↔ Statement.AllCompilable members := by
  match members with
  | [] => simp [Statement.checkAll, Statement.AllCompilable]
  | member :: rest =>
    rw [Statement.checkAll, then_eq_ok, Statement.check_eq_ok member every.1,
      Statement.checkAll_eq_ok rest every.2, Statement.AllCompilable]

theorem Condition.checkAll_eq_ok (conditions : List Condition)
    (every : Condition.EveryOf Statement.WellFormed Predicate.WellFormed conditions) :
    Condition.checkAll conditions = .ok () ↔ Condition.AllCompilable conditions := by
  match conditions with
  | [] => simp [Condition.checkAll, Condition.AllCompilable]
  | ⟨_, predicate⟩ :: rest =>
    rw [Condition.checkAll_cons, then_eq_ok, Predicate.check_eq_ok predicate every.1,
      Condition.checkAll_eq_ok rest every.2, Condition.AllCompilable]

theorem Predicate.check_eq_ok (predicate : Predicate)
    (every : predicate.Every Statement.WellFormed Predicate.WellFormed) :
    predicate.check = .ok () ↔ predicate.Compilable := by
  match predicate with
  | .inQuery _ _ query | .existsQuery _ query => exact Statement.check_eq_ok query every.2
  | .group _ conditions => exact Condition.checkAll_eq_ok conditions every.2
  | .compare .. | .between .. | .inValues .. | .isNull .. | .columns .. | .datePart .. | .fragment .. =>
    simp [Predicate.check, Predicate.Compilable]

end

def Error.ofCompiling : List Error :=
  [.invalidArgument "to_sql" .noTable, .invalidArgument "offset" .offsetWithoutLimit,
    .invalidArgument "insert" .unequalColumns]

def Refuses (condition : Except Error Unit) : Prop :=
  ∀ error, condition = .error error → error ∈ Error.ofCompiling

namespace Refuses

theorem ok : Refuses (.ok ()) := by
  rintro _ ⟨⟩

theorem andThen {first second : Except Error Unit} (one : Refuses first) (two : Refuses second) :
    Refuses (first >>= fun _ => second) := by
  cases first with
  | error error => exact one
  | ok => exact two

theorem requireTable (table : Option Text) : Refuses (requireTable table) := by
  cases table with
  | some => exact ok
  | none =>
    rintro _ ⟨⟩
    simp [Error.ofCompiling]

theorem validate (pagination : Pagination) : Refuses pagination.validate := by
  unfold Pagination.validate
  split
  · rintro _ ⟨⟩
    simp [Error.ofCompiling]
  · exact ok

theorem checkRows {rows : List Row} (some : rows ≠ []) : Refuses (checkRows rows) := by
  obtain ⟨first, rest, rfl⟩ := List.exists_cons_of_ne_nil some
  rw [SqlComposer.checkRows]
  split
  · exact ok
  · rintro _ ⟨⟩
    simp [Error.ofCompiling]

end Refuses

mutual

theorem Statement.check_refuses (s : Statement)
    (every : s.Every Statement.WellFormed Predicate.WellFormed) : Refuses s.check := by
  match s with
  | { kind, table, wheres, havings, pagination, .. } =>
    obtain ⟨wellFormed, inWheres, inHavings, inMembers⟩ := (Statement.every_iff _).1 every
    have named := Refuses.requireTable table
    have filter := Condition.checkAll_refuses wheres inWheres
    have pages := Refuses.validate pagination
    match kind with
    | .unset | .select _ =>
      exact named.andThen (filter.andThen ((Condition.checkAll_refuses havings inHavings).andThen pages))
    | .update _ | .delete => exact named.andThen (filter.andThen pages)
    | .insert rows => exact named.andThen (.checkRows wellFormed.kind.insert.1)
    | .truncate => exact named
    | .union all members =>
      exact pages.andThen (Statement.checkAll_refuses members (inMembers all members rfl))

theorem Statement.checkAll_refuses (members : List Statement)
    (every : Statement.EveryOf Statement.WellFormed Predicate.WellFormed members) :
    Refuses (Statement.checkAll members) := by
  match members with
  | [] => exact .ok
  | member :: rest =>
    exact (Statement.check_refuses member every.1).andThen (Statement.checkAll_refuses rest every.2)

theorem Condition.checkAll_refuses (conditions : List Condition)
    (every : Condition.EveryOf Statement.WellFormed Predicate.WellFormed conditions) :
    Refuses (Condition.checkAll conditions) := by
  match conditions with
  | [] => exact .ok
  | ⟨_, predicate⟩ :: rest =>
    rw [Condition.checkAll_cons]
    exact (Predicate.check_refuses predicate every.1).andThen (Condition.checkAll_refuses rest every.2)

theorem Predicate.check_refuses (predicate : Predicate)
    (every : predicate.Every Statement.WellFormed Predicate.WellFormed) : Refuses predicate.check := by
  match predicate with
  | .inQuery _ _ query | .existsQuery _ query => exact Statement.check_refuses query every.2
  | .group _ conditions => exact Condition.checkAll_refuses conditions every.2
  | .compare .. | .between .. | .inValues .. | .isNull .. | .columns .. | .datePart .. | .fragment .. =>
    exact .ok

end

theorem Call.run_toSql (s : Statement) : (Call.query .toSql).run s = match s.sql with
    | .ok text => ⟨.ok (.text text), { s with stage := .compiled }, []⟩
    | .error error => ⟨.error error, s, []⟩ := by
  simp only [Call.run, Query.run, Query.answer]
  cases s.sql <;> rfl

/-- A composed statement compiles just if it has all that its kind needs. Then it is marked as compiled
and changed in no other way; otherwise the reason is one of three, and nothing changes. -/
theorem composed_compiles_iff (s : Statement) (composable : s.Composable) :
    ((∃ text, ((Call.query .toSql).run s).result = .ok (.text text)) ↔ s.Compilable) ∧
      (s.Compilable → ((Call.query .toSql).run s).statement = { s with stage := .compiled }) ∧
      (¬ s.Compilable → ((Call.query .toSql).run s).statement = s ∧
        ∃ error ∈ Error.ofCompiling, ((Call.query .toSql).run s).result = .error error) := by
  have holds_iff := s.check_eq_ok composable.wellFormed
  have refuses := s.check_refuses composable.wellFormed
  rw [Call.run_toSql, s.sql_eq]
  cases check : s.check with
  | ok =>
    have holds : s.Compilable := holds_iff.1 check
    simp [Except.map, holds]
  | error error =>
    have fails : ¬ s.Compilable := by
      intro holds
      have passed := holds_iff.2 holds
      simp [check] at passed
    simp [Except.map, fails, refuses error check]

-- A subquery without a table fails a statement that filters, at any depth; an insert does not look.
theorem composed_compiles_iff_nested :
    let inner : Call := .whereInQuery .and true "b" [.edit (.limit (.integer 5))]
    let rows : RowsInput := .many [[("x", .null), ("y", .null)], [("y", .null), ("x", .null)]]
    let s := Call.runAll [.edit (.fromTable "a"), .whereGroup .or true [inner],
      .edit (.offset (.integer 3))] (.new {})
    let t := Call.runAll [.edit (.insert rows)] s
    let text : Text := "INSERT INTO \x60a\x60 (\x60x\x60,\x60y\x60) VALUES (?,?),(?,?)"
    s.Composable ∧ ((Call.query .toSql).run s).result = .error (.invalidArgument "to_sql" .noTable) ∧
      ¬ s.Compilable ∧ ((Call.query .toSql).run s).statement = s ∧
      t.Composable ∧ ((Call.query .toSql).run t).result = .ok (.text text) ∧
      t.Compilable ∧ ((Call.query .toSql).run t).statement = { t with stage := .compiled } := by
  intro inner rows s t text
  have first : s.Composable := Call.composable_runAll _ (.start .blank rfl trivial)
  have second : t.Composable := Call.composable_runAll [.edit (.insert rows)] first
  have failed : ((Call.query .toSql).run s).result = .error (.invalidArgument "to_sql" .noTable) := by
    rw [Call.run_toSql, show s.sql = .error (.invalidArgument "to_sql" .noTable) by decide +kernel]
  have compiled : ((Call.query .toSql).run t).result = .ok (.text text) := by
    rw [Call.run_toSql, show t.sql = .ok text by decide +kernel]
  clear_value t s
  have compilable := (composed_compiles_iff t second).1.1 ⟨text, compiled⟩
  have refused : ¬ s.Compilable := by
    intro holds
    obtain ⟨other, answered⟩ := (composed_compiles_iff s first).1.2 holds
    rw [failed] at answered
    cases answered
  exact ⟨first, failed, refused, ((composed_compiles_iff s first).2.2 refused).1, second, compiled,
    compilable, (composed_compiles_iff t second).2.1 compilable⟩

end SqlComposer
