import SqlComposer.Proofs.Clauses
import SqlComposer.Proofs.Writing

set_option autoImplicit false

namespace SqlComposer

open Token

namespace Statement

variable {s t : Statement} {all : Bool} {members : List Statement} {texts : List Text}

def ending (s : Statement) : Text :=
  Token.sql (orderTokens s.scope .newline s.orders ++ s.pagination.tokens .newline)

theorem sql_of_union (united : s.kind = .union all members) (compile : members.mapM sql = .ok texts) :
    s.sql = s.pagination.validate.map fun _ => joinMembers all texts ++ s.ending := by
  obtain ⟨checked, rfl⟩ : Statement.checkAll members = .ok () ∧
      members.map (fun member => Token.sql member.tokens) = texts := by
    rw [mapM_sql] at compile
    obtain ⟨_, checked, same⟩ := map_eq_ok.1 compile
    exact ⟨checked, same⟩
  match s with
  | { kind, .. } =>
    obtain rfl := united
    rw [sql_eq, check, checked]
    cases Pagination.validate _ with
    | error error => rfl
    | ok => simp [Except.map, bind, Except.bind, tokens, sql_memberTokens, ending, scope]

theorem ending_eq_nil : s.ending = [] ↔ s.orders = [] ∧ s.pagination.limit = 0 := by
  have orders : Token.sql (orderTokens s.scope .newline s.orders) = [] ↔ s.orders = [] := by
    unfold orderTokens clauseTokens
    cases s.orders <;> simp
  have pages : Token.sql (s.pagination.tokens .newline) = [] ↔ s.pagination.limit = 0 := by
    unfold Pagination.tokens
    split <;> simp [*]
  rw [ending, sql_append, List.append_eq_nil_iff, orders, pages]

theorem validate_of_unset (unset : s.kind = .unset) {text : Text} (compiles : s.sql = .ok text) :
    s.pagination.validate = .ok () := by
  match s with
  | { kind, .. } =>
    obtain rfl := unset
    rw [sql_eq, check] at compiles
    obtain ⟨_, checked, -⟩ := map_eq_ok.1 compiles
    obtain ⟨-, tables⟩ := then_eq_ok.1 checked
    obtain ⟨-, filters⟩ := then_eq_ok.1 tables
    exact (then_eq_ok.1 filters).2

structure EndsAs (s t : Statement) : Prop where
  settings : s.settings = t.settings
  table : s.table = t.table
  orders : s.orders = t.orders
  pagination : s.pagination = t.pagination

namespace EndsAs

variable {u : Statement}

theorem refl (s : Statement) : s.EndsAs s := ⟨rfl, rfl, rfl, rfl⟩

theorem symm (ends : s.EndsAs t) : t.EndsAs s :=
  ⟨ends.settings.symm, ends.table.symm, ends.orders.symm, ends.pagination.symm⟩

theorem trans (first : s.EndsAs t) (second : t.EndsAs u) : s.EndsAs u :=
  ⟨first.settings.trans second.settings, first.table.trans second.table, first.orders.trans second.orders,
    first.pagination.trans second.pagination⟩

end EndsAs

end Statement

namespace Call

def reads : Call → Bool
  | .query _ => true
  | .attempt call => call.reads
  | _ => false

variable {call : Call} {s t : Statement}

theorem get_of_confined {c d : Clause}
    {act : Settings → Option Text → c.Content → Report × Option c.Content}
    (settings : s.settings = t.settings) (table : s.table = t.table) (same : d.get s = d.get t) :
    d.get (c.write s (act s.settings s.table (c.get s)).2) =
      d.get (c.write t (act t.settings t.table (c.get t)).2) := by
  by_cases here : c = d
  · subst here
    rw [Clause.get_write, Clause.get_write, settings, table, same]
  · rw [Clause.get_write_of_ne here, Clause.get_write_of_ne here, same]

theorem not_clears_of_unfinished (kept : ¬ call.Clears s) (unfinished : t.stage ≠ .compiled) :
    ¬ call.Clears t := by
  rintro (resets | ⟨-, compiled⟩)
  · exact kept (.inl resets)
  · exact unfinished compiled

theorem endsAs_union (all : Bool) (list : List Member) (s : Statement) :
    s.EndsAs ((union all list).run s).statement ∧
      (s.stage ≠ .compiled → ((union all list).run s).statement.stage ≠ .compiled) := by
  rw [run_union]
  refine Invariant.conclude
    (I := fun next => s.EndsAs next ∧ (s.stage ≠ .compiled → next.stage ≠ .compiled))
    ⟨.refl s, id⟩ fun members next _ done => ?_
  obtain ⟨-, -, rfl⟩ := Statement.union_eq_ok.1 done
  exact ⟨⟨rfl, rfl, rfl, rfl⟩, Stage.touched_ne⟩

theorem endsAs (call : Call) (kept : ¬ call.Clears s) (ends : s.EndsAs t)
    (unfinished : t.stage ≠ .compiled) (writes : call.reads = false) :
    (call.run s).statement.EndsAs (call.run t).statement ∧ (call.run t).statement.stage ≠ .compiled := by
  have open' := not_clears_of_unfinished kept unfinished
  cases given : call.clause? with
  | some c =>
    obtain ⟨act, same⟩ := confined given
    have stays := unfinished_run given unfinished
    rw [(same s kept).2]
    rw [(same t open').2] at stays ⊢
    refine ⟨⟨?_, ?_, ?_, ?_⟩, stays⟩
    · simpa using ends.settings
    · simpa using ends.table
    · exact get_of_confined (d := .orders) ends.settings ends.table ends.orders
    · exact get_of_confined (d := .pagination) ends.settings ends.table ends.pagination
  | none =>
    match call with
    | .edit action =>
      simp only [run, run_of_kept kept, run_of_kept open']
      cases action with
      | fromTable name | table name =>
        simp only [Edit.apply, Statement.setTable, ends.settings]
        cases Reference.check t.settings _ name with
        | error error => exact ⟨ends, unfinished⟩
        | ok checked => exact ⟨⟨rfl, rfl, ends.orders, ends.pagination⟩, Stage.touched_ne unfinished⟩
      | addReferenceChars chars =>
        simp only [Edit.apply, ends.settings]
        cases chars.toChars with
        | error error => exact ⟨ends, unfinished⟩
        | ok list => exact ⟨⟨rfl, ends.table, ends.orders, ends.pagination⟩, unfinished⟩
      | setQuote text =>
        simp only [Edit.apply, ends.settings]
        cases Quote.ofText text with
        | error error => exact ⟨ends, unfinished⟩
        | ok quote => exact ⟨⟨rfl, ends.table, ends.orders, ends.pagination⟩, unfinished⟩
      | reset => exact absurd (.inl rfl) kept
      | _ => cases given
    | .union all list =>
      have left := endsAs_union all list s
      have right := endsAs_union all list t
      exact ⟨left.1.symm.trans (ends.trans right.1), right.2 unfinished⟩
    | .attempt call => exact call.endsAs kept ends unfinished writes
    | .query _ => cases writes

theorem endsAs_of_reads (call : Call) (reading : call.reads) (s : Statement) :
    (call.run s).statement.EndsAs s := by
  match call with
  | .query reader =>
    simp only [run, Query.run]
    cases reader.answer s with
    | error error => exact .refl s
    | ok reply =>
      dsimp only
      split <;> exact ⟨rfl, rfl, rfl, rfl⟩
  | .attempt call => exact call.endsAs_of_reads reading s
  | .edit _ | .whereGroup .. | .whereInQuery .. | .whereExists .. | .havingGroup .. | .union .. =>
    cases reading

theorem kind_of_union {all : Bool} {members : List Statement} (kept : ¬ call.Clears s)
    (united : s.kind = .union all members) : (call.run s).statement.kind = .union all members := by
  have made := call.effect kept
  generalize (call.run s).statement = next at made ⊢
  cases made with
  | same | compiled | filtered | compared => exact united
  | edited action _ kept applied =>
    cases action.effect applied with
    | clauses | filtered | compared | configured => exact united
    | established kind admitted => simp [united, Kind.admits] at admitted
    | cleared resets => exact absurd resets kept
  | united _ _ _ _ unset => simp [united] at unset

end Call

namespace Uninterrupted

variable {calls : List Call} {s t : Statement}

theorem union {all : Bool} {members : List Statement} (run : Uninterrupted calls s)
    (united : s.kind = .union all members) : (Call.runAll calls s).kind = .union all members := by
  induction calls generalizing s with
  | nil => exact united
  | cons call rest ih => exact ih run.2 (Call.kind_of_union run.1 united)

theorem endsAs (run : Uninterrupted calls s) (ends : s.EndsAs t) (unfinished : t.stage ≠ .compiled) :
    (Call.runAll calls s).EndsAs (Call.runAll (calls.filter fun call => !call.reads) t) := by
  induction calls generalizing s t with
  | nil => exact ends
  | cons call rest ih =>
    obtain ⟨kept, rested⟩ := run
    cases reading : call.reads with
    | true =>
      rw [List.filter_cons_of_neg (by simp [reading])]
      exact ih rested ((call.endsAs_of_reads reading s).trans ends) unfinished
    | false =>
      rw [List.filter_cons_of_pos (by simp [reading])]
      obtain ⟨next, stays⟩ := call.endsAs kept ends unfinished reading
      exact ih rested next stays

end Uninterrupted

/-- A union writes its members, the statement that it was made of first, and behind them its own orders
and pagination. It still has those of that statement, which its first member writes as well: nothing
stands behind the members just where there were none. Later calls add to them as they would have
without the union. -/
theorem union_keeps_order (s united : Statement) (all : Bool) (members : List Statement)
    (texts : List Text) (made : (Change.union all members).run s = .ok () united)
    (compile : (s :: members).mapM Statement.sql = .ok texts) :
    united.sql = .ok (joinMembers all texts ++ s.ending) ∧
    (s.ending = [] ↔ s.orders = [] ∧ s.pagination.limit = 0) ∧
    ∀ later, Uninterrupted later united →
      let u := Call.runAll later united
      let t := Call.runAll (later.filter fun call => !call.reads) { s with stage := .building }
      u.sql = (u.pagination.validate.map fun _ => joinMembers all texts ++ u.ending) ∧
        u.scope = t.scope ∧ u.orders = t.orders ∧ u.pagination = t.pagination := by
  obtain ⟨unset, -, rfl⟩ : s.kind = .unset ∧ members ≠ [] ∧
      .touched { s with kind := .union all (s :: members) } = united := by
    rw [← Statement.union_eq_ok]
    have makes := Change.union_makes (s := s) all members
    rw [Change.Makes, made] at makes
    cases done : s.union all members with
    | error error => simp [done, Change.outcome] at makes
    | ok next => simp_all [Change.outcome]
  have valid : s.pagination.validate = .ok () := by
    rw [List.mapM_cons] at compile
    obtain ⟨text, compiles, -⟩ := bind_eq_ok.1 compile
    exact Statement.validate_of_unset unset compiles
  refine ⟨?_, Statement.ending_eq_nil, fun later run => ?_⟩
  · rw [Statement.sql_of_union (s := .touched { s with kind := .union all (s :: members) }) rfl compile]
    have own : (Statement.touched { s with kind := .union all (s :: members) }).pagination = s.pagination :=
      rfl
    rw [own, valid]
    rfl
  · intro u t
    have ends : u.EndsAs t := run.endsAs ⟨rfl, rfl, rfl, rfl⟩ (by simp)
    refine ⟨Statement.sql_of_union (run.union rfl) compile, ?_, ends.orders, ends.pagination⟩
    rw [Statement.scope, Statement.scope, ends.settings, ends.table]

-- The limit of the first member, and one in its place that is set later together with an order.
theorem union_keeps_order_later :
    let s := Call.runAll [.edit (.fromTable "a"), .edit (.limit (.integer 5))] (.new {})
    let members := [Call.runAll [.edit (.fromTable "b")] (.new {})]
    let united : Statement := .touched { s with kind := .union true (s :: members) }
    let later : List Call :=
      [.query .toSql, .edit (.orderBy (.text "c") none), .edit (.limit (.integer 9))]
    let joined : Text := "(SELECT * FROM `a` LIMIT 5)\nUNION ALL\n(SELECT * FROM `b`)"
    let ending : Text := "\nORDER BY `a`.`c`\nLIMIT 9"
    (Change.union true members).run s = .ok () united ∧ united.sql = .ok (joined ++ "\nLIMIT 5") ∧
      Uninterrupted later united ∧ (Call.runAll later united).sql = .ok (joined ++ ending) := by
  intro s members united later joined ending
  have made : (Change.union true members).run s = .ok () united := by
    have unset : s.kind = .unset := rfl
    have makes := Change.union_makes (s := s) true members
    rw [Change.Makes, Statement.union_eq_ok.2 ⟨unset, by simp [members], rfl⟩] at makes
    exact makes
  let texts : List Text := ["SELECT * FROM `a` LIMIT 5", "SELECT * FROM `b`"]
  have compile : (s :: members).mapM Statement.sql = .ok texts := by decide +kernel
  have run : Uninterrupted later united := by
    simp [later, Uninterrupted, Call.Clears, Call.bare, Call.startsOver, Edit.startsOver]
  obtain ⟨now, -, behind⟩ := union_keeps_order s united true members texts made compile
  have own : s.ending = "\nLIMIT 5" := by decide +kernel
  have joins : joinMembers true texts = joined := by decide +kernel
  rw [joins] at now behind
  rw [own] at now
  obtain ⟨text, -⟩ := behind later run
  refine ⟨made, now, run, text.trans ?_⟩
  have valid : (Call.runAll later united).pagination.validate = .ok () := by decide +kernel
  have last : (Call.runAll later united).ending = ending := by decide +kernel
  rw [valid, last]
  rfl

/-- An order that is set before the union stands in its first member and behind the last one. -/
theorem union_repeats_order :
    let s := Call.runAll [.edit (.fromTable "a"), .edit (.orderBy (.text "x") none)] (.new {})
    let member := Call.runAll [.edit (.fromTable "b")] (.new {})
    let united := ((Call.union false [⟨.table "b", []⟩]).run s).statement
    let first : Text := "SELECT * FROM `a` ORDER BY `a`.`x`"
    let second : Text := "SELECT * FROM `b`"
    s.sql = .ok first ∧ member.sql = .ok second ∧ united.kind.name = "union" ∧
      united.sql = .ok (joinMembers false [first, second] ++ "\nORDER BY `a`.`x`") ∧
      united.sql ≠ .ok (joinMembers false [first, second]) := by
  decide +kernel

end SqlComposer
