import SqlComposer.Proofs.Columns

set_option autoImplicit false

namespace SqlComposer

open Token

namespace Write

/-- In the scope the action adds the tokens and asks for so many values, if the condition holds; if
not, it fails with the condition's error. The scope stays in both cases. -/
def Renders (action : Write) (scope : Scope) (condition : Except Error Unit) (tokens : List Token)
    (count : Nat) : Prop :=
  ∀ w : Writer, w.scope = scope →
    match condition with
    | .ok () => action w =
        .ok () { w with text := w.text ++ sql tokens, placeholders := w.placeholders + count }
    | .error error => ∃ left : Writer, action w = .error error left ∧ left.scope = scope

variable {scope : Scope} {first second : Write} {condition later : Except Error Unit}
  {tokens more : List Token} {count extra : Nat}

namespace Renders

theorem nothing : Renders (pure ()) scope (.ok ()) [] 0 := by
  intro w _
  simp [sql, pure, EStateM.pure]

theorem put (tokens : List Token) : Renders (Write.put tokens) scope (.ok ()) tokens 0 := by
  intro w _
  rfl

theorem inScope (tokens : Scope → List Token) :
    Renders (Write.inScope tokens) scope (.ok ()) (tokens scope) 0 := by
  rintro w rfl
  rfl

theorem await (count : Nat) : Renders (Write.await count) scope (.ok ()) [] count := by
  intro w _
  have kept : w.text ++ sql [] = w.text := List.append_nil _
  rw [kept]
  rfl

theorem require (condition : Except Error Unit) :
    Renders (Write.require condition) scope condition [] 0 := by
  intro w same
  cases condition with
  | ok => exact nothing w same
  | error error => exact ⟨w, rfl, same⟩

-- Behind the requirement its condition is known to hold.
theorem guarded (given : condition = .ok () → Renders second scope later more extra) :
    Renders (Write.require condition >>= fun _ => second) scope (condition >>= fun _ => later) more
      extra := by
  cases condition with
  | ok => exact given rfl
  | error error =>
    intro w same
    exact ⟨w, rfl, same⟩

theorem congr (given : Renders first scope condition tokens count) (same : more = tokens)
    (counted : condition = .ok () → extra = count) : Renders first scope condition more extra := by
  intro w at_scope
  have := given w at_scope
  cases condition with
  | ok => rw [same, counted rfl]; exact this
  | error => exact this

theorem bind (one : Renders first scope condition tokens count)
    (two : Renders second scope later more extra) :
    Renders (first >>= fun _ => second) scope (condition >>= fun _ => later) (tokens ++ more)
      (count + extra) := by
  intro w same
  have ran := one w same
  cases condition with
  | error error =>
    obtain ⟨left, failed, kept⟩ := ran
    exact ⟨left, by simp [Bind.bind, EStateM.bind, failed], kept⟩
  | ok =>
    have next := two _ (show ({ w with
      text := w.text ++ sql tokens, placeholders := w.placeholders + count } : Writer).scope = scope
      from same)
    cases later with
    | ok => simp_all [Bind.bind, EStateM.bind, Except.bind, sql_append, Nat.add_assoc]
    | error error =>
      obtain ⟨left, failed, kept⟩ := next
      exact ⟨left, by simp [Bind.bind, EStateM.bind, ran, failed], kept⟩

theorem andThen (one : Renders first scope (.ok ()) tokens count)
    (two : Renders second scope later more extra) :
    Renders (first >>= fun _ => second) scope later (tokens ++ more) (count + extra) :=
  one.bind two

theorem before (one : Renders first scope condition tokens count)
    (two : Renders second scope (.ok ()) more extra) :
    Renders (first >>= fun _ => second) scope condition (tokens ++ more) (count + extra) := by
  have both := one.bind two
  cases condition <;> exact both

theorem ask (count : Nat) : Renders (Write.ask count) scope (.ok ()) (placeholders count) count :=
  ((put _).andThen (await count)).congr (by simp) (by simp)

theorem clause {A : Type} (entries : List A) (lead : List Token)
    (given : Renders first scope condition tokens count)
    (absent : entries = [] → condition = .ok () ∧ count = 0) :
    Renders (Write.clause entries lead first) scope condition (clauseTokens entries lead tokens)
      count := by
  cases entries with
  | nil =>
    obtain ⟨rfl, rfl⟩ := absent rfl
    exact nothing
  | cons entry rest => exact ((put lead).andThen given).congr rfl (by simp)

theorem separated {A : Type} (separator : List Token) (write : A → Write)
    (written : A → List Token) (asked : Nat)
    (each : ∀ item, Renders (write item) scope (.ok ()) (written item) asked) (items : List A) :
    Renders (Write.separated separator (items.map write)) scope (.ok ())
      (separator.intercalate (items.map written)) (items.length * asked) := by
  induction items with
  | nil => simpa [Write.separated, List.intercalate] using nothing
  | cons item rest ih =>
    cases rest with
    | nil => simpa [Write.separated, List.intercalate] using each item
    | cons next rest =>
      refine ((each item).andThen ((put separator).andThen ih)).congr ?_ ?_
      · simp [List.intercalate]
      · simp only [List.length_cons, Nat.add_mul]
        omega

theorem enter {inner : Scope} (given : Renders first inner condition tokens count) :
    Renders (Write.enter inner first) scope condition tokens count := by
  intro w same
  have ran := given { w with scope := inner } rfl
  cases condition with
  | ok => simp [Write.enter, ran]
  | error error =>
    obtain ⟨left, failed, -⟩ := ran
    exact ⟨{ left with scope := w.scope }, by simp [Write.enter, failed], same⟩

end Renders

end Write

open Write

theorem writeLimit_renders (scope : Scope) (separator : Token) (pagination : Pagination) :
    Renders (writeLimit separator pagination) scope pagination.validate
      (pagination.tokens separator) 0 :=
  ((Renders.require _).before (Renders.put _)).congr (by simp) (by simp)

theorem writeInsert_renders (scope : Scope) (table : Option Text) (rows : List Row) :
    Renders (writeInsert table rows) scope (requireTable table >>= fun _ => checkRows rows)
      (insertTokens scope table rows) (rowValues rows).length := by
  let columns := (rows.head?.map Row.columns).getD []
  have group : Renders (do put [.leftParen]; ask columns.length; put [.rightParen]) scope (.ok ())
      (parenthesised (placeholders columns.length)) columns.length :=
    ((Renders.put _).andThen ((Renders.ask _).andThen (Renders.put _))).congr
      (by simp [parenthesised]) (by simp)
  have groups := Renders.separated [.comma] _ _ _ (fun _ : Row => group) rows
  have written : Renders (writeInsert table rows) scope _ _ _ :=
    (Renders.require _).bind ((Renders.require _).before ((Renders.put _).andThen
      ((Renders.inScope _).andThen ((Renders.put _).andThen groups))))
  refine written.congr ?_ ?_
  · simp [insertTokens, commaSeparated, columns]
  · intro checked
    cases table with
    | none => cases checked
    | some table => simp [length_rowValues checked, columns]

theorem writeAssignment_renders (scope : Scope) (column : Text) :
    Renders (writeAssignment column) scope (.ok ()) (assignmentTokens scope column) 1 :=
  ((Renders.inScope _).andThen (Renders.ask 1)).congr (by simp [assignmentTokens])
    (by simp)

mutual

theorem Statement.write_renders (s : Statement) (scope : Scope) :
    Renders s.write scope s.check s.tokens s.values.length := by
  match s with
  | { settings, kind, distinct, table, joins, wheres, groups, havings, orders, pagination, .. } =>
    have limit := writeLimit_renders (.ofTable settings table) .space pagination
    have filter := (Condition.writeList_renders wheres (.ofTable settings table)).clause wheres
      [.space, .word .WHERE, .space] (by rintro rfl; exact ⟨rfl, rfl⟩)
    have filterGroups := (Condition.writeList_renders havings (.ofTable settings table)).clause
      havings [.space, .word .HAVING, .space] (by rintro rfl; exact ⟨rfl, rfl⟩)
    match kind with
    | .unset =>
      exact Renders.congr (.enter ((Renders.require _).bind ((Renders.put _).andThen
        ((Renders.inScope _).andThen (filter.bind ((Renders.inScope _).andThen
          (filterGroups.bind ((Renders.inScope _).andThen limit))))))))
        (by simp [Statement.tokens]) (by simp [Statement.values])
    | .select items =>
      exact Renders.congr (.enter ((Renders.require _).bind ((Renders.put _).andThen
        ((Renders.inScope _).andThen (filter.bind ((Renders.inScope _).andThen
          (filterGroups.bind ((Renders.inScope _).andThen limit))))))))
        (by simp [Statement.tokens]) (by simp [Statement.values])
    | .insert rows => exact .enter (writeInsert_renders _ table rows)
    | .update row =>
      have assignments := Renders.separated [.comma] _ _ 1
        (writeAssignment_renders (.ofTable settings table)) row.columns
      exact Renders.congr (.enter ((Renders.require _).bind ((Renders.put _).andThen
        ((Renders.inScope _).andThen ((Renders.put _).andThen (assignments.andThen
          (filter.bind ((Renders.inScope _).andThen limit))))))))
        (by simp [Statement.tokens, commaSeparated])
        (by simp [Statement.values, Row.length_values])
    | .delete =>
      exact Renders.congr (.enter ((Renders.require _).bind ((Renders.put _).andThen
        ((Renders.inScope _).andThen (filter.bind ((Renders.inScope _).andThen limit))))))
        (by simp [Statement.tokens]) (by simp [Statement.values])
    | .truncate =>
      exact Renders.congr
        (.enter ((Renders.require _).before ((Renders.put _).andThen (Renders.inScope _))))
        (by simp [Statement.tokens]) (by simp [Statement.values])
    | .union all members =>
      have inner := Statement.writeMembers_renders all members (.ofTable settings table)
      have last (valid : pagination.validate = .ok ()) :
          Renders (writeLimit .newline pagination) (.ofTable settings table) (.ok ())
            (pagination.tokens .newline) 0 := by
        rw [← valid]
        exact writeLimit_renders _ .newline pagination
      exact Renders.congr (.enter (Renders.guarded fun valid =>
        inner.before ((Renders.inScope _).andThen (last valid))))
        (by simp [Statement.tokens]) (by simp [Statement.values])

theorem Statement.writeMembers_renders (all : Bool) (members : List Statement) (scope : Scope) :
    Renders (Statement.writeMembers all members) scope (Statement.checkAll members)
      (Statement.memberTokens all members) (Statement.listValues members).length := by
  match members with
  | [] => exact Renders.nothing
  | member :: rest =>
    have later := Statement.writeLaterMembers_renders all rest scope
    have first := Statement.write_renders member scope
    exact ((Renders.put _).andThen (first.bind ((Renders.put _).andThen later))).congr
      (by simp [Statement.memberTokens, parenthesised])
      (by simp [Statement.listValues])

theorem Statement.writeLaterMembers_renders (all : Bool) (members : List Statement)
    (scope : Scope) :
    Renders (Statement.writeLaterMembers all members) scope (Statement.checkAll members)
      (Statement.laterTokens all members) (Statement.listValues members).length := by
  match members with
  | [] => exact Renders.nothing
  | member :: rest =>
    have later := Statement.writeLaterMembers_renders all rest scope
    have first := Statement.write_renders member scope
    exact ((Renders.put _).andThen (first.bind ((Renders.put _).andThen later))).congr
      (by simp [Statement.laterTokens, parenthesised])
      (by simp [Statement.listValues])

theorem Condition.writeList_renders (conditions : List Condition) (scope : Scope) :
    Renders (Condition.writeList conditions) scope (Condition.checkAll conditions)
      (Condition.listTokens scope conditions) (Condition.listValues conditions).length := by
  match conditions with
  | [] => exact Renders.nothing
  | ⟨connective, predicate⟩ :: rest =>
    have first := Predicate.write_renders predicate scope
    have later := Condition.writeLater_renders rest scope
    exact (first.bind later).congr rfl (by simp [Condition.listValues])

theorem Condition.writeLater_renders (conditions : List Condition) (scope : Scope) :
    Renders (Condition.writeLater conditions) scope (Condition.checkAll conditions)
      (Condition.laterTokens scope conditions) (Condition.listValues conditions).length := by
  match conditions with
  | [] => exact Renders.nothing
  | ⟨connective, predicate⟩ :: rest =>
    have first := Predicate.write_renders predicate scope
    have later := Condition.writeLater_renders rest scope
    exact ((Renders.put _).andThen (first.bind later)).congr (by simp [Condition.laterTokens])
      (by simp [Condition.listValues])

theorem Predicate.write_renders (predicate : Predicate) (scope : Scope) :
    Renders predicate.write scope predicate.check (predicate.tokens scope)
      predicate.values.length := by
  match predicate with
  | .compare negated column comparison value =>
    exact Renders.congr ((Renders.put _).andThen ((Renders.inScope _).andThen
      ((Renders.put _).andThen (Renders.ask 1)))) (by simp [Predicate.tokens]) (by simp [Predicate.values])
  | .between negated column low high =>
    exact Renders.congr ((Renders.inScope _).andThen ((Renders.put _).andThen
      ((Renders.ask 1).andThen ((Renders.put _).andThen (Renders.ask 1)))))
      (by simp [Predicate.tokens]) (by simp [Predicate.values])
  | .inValues negated column values =>
    exact Renders.congr ((Renders.inScope _).andThen ((Renders.put _).andThen
      ((Renders.ask _).andThen (Renders.put _))))
      (by simp [Predicate.tokens, parenthesised]) (by simp [Predicate.values])
  | .inQuery negated column query =>
    have inner := Statement.write_renders query scope
    exact Renders.congr ((Renders.inScope _).andThen ((Renders.put _).andThen
      (inner.before (Renders.put _))))
      (by simp [Predicate.tokens, parenthesised]) (by simp [Predicate.values])
  | .isNull negated column =>
    exact Renders.congr ((Renders.inScope _).andThen (Renders.put _)) (by simp [Predicate.tokens])
      (by simp [Predicate.values])
  | .columns left comparison right =>
    exact Renders.congr ((Renders.inScope _).andThen ((Renders.put _).andThen (Renders.inScope _)))
      (by simp [Predicate.tokens]) (by simp [Predicate.values])
  | .datePart part column comparison value =>
    exact Renders.congr ((Renders.put _).andThen ((Renders.inScope _).andThen
      ((Renders.put _).andThen (Renders.ask 1)))) (by simp [Predicate.tokens]) (by simp [Predicate.values])
  | .existsQuery negated query =>
    have inner := Statement.write_renders query scope
    exact Renders.congr ((Renders.put _).andThen (inner.before (Renders.put _)))
      (by simp [Predicate.tokens, parenthesised]) (by simp [Predicate.values])
  | .fragment negated text values =>
    exact Renders.congr ((Renders.put _).andThen ((Renders.put _).andThen (Renders.await _)))
      (by simp [Predicate.tokens]) (by simp [Predicate.values])
  | .group negated conditions =>
    have inner := Condition.writeList_renders conditions scope
    exact Renders.congr ((Renders.put _).andThen ((Renders.put _).andThen
      (inner.before (Renders.put _))))
      (by simp [Predicate.tokens, parenthesised]) (by simp [Predicate.values])

end

def Reference.written (quote : Quote) (reference : Text) : Text := Token.sql (quoted quote reference)

theorem Token.sql_intercalate (separator : List Token) (items : List (List Token)) :
    sql (separator.intercalate items) = (sql separator).intercalate (items.map sql) := by
  cases items with
  | nil => rfl
  | cons first rest => simp [Text.intercalate_cons, sql, List.flatMap_map, List.flatMap_assoc]

theorem Write.Renders.textIn {action : Write} {scope : Scope} {condition : Except Error Unit}
    {tokens : List Token} {count : Nat} (given : Renders action scope condition tokens count) :
    action.textIn scope = condition.map fun _ => Token.sql tokens := by
  have ran := given { scope } rfl
  cases condition with
  | ok => simp [Write.textIn, ran, Except.map]
  | error error =>
    obtain ⟨left, failed, -⟩ := ran
    simp [Write.textIn, failed, Except.map]

theorem Statement.sql_eq (s : Statement) : s.sql = s.check.map fun _ => Token.sql s.tokens :=
  (s.write_renders _).textIn

def Write.Appends (action : Write) (w : Writer) : Except Error Text → Prop
  | .ok text => ∃ asked, action w =
      .ok () { w with text := w.text ++ text, placeholders := w.placeholders + asked }
  | .error error => ∃ left : Writer, action w = .error error left ∧ left.scope = w.scope

theorem Write.Renders.appends {action : Write} {w : Writer} {condition : Except Error Unit}
    {tokens : List Token} {count : Nat} (given : Renders action w.scope condition tokens count) :
    action.Appends w (condition.map fun _ => Token.sql tokens) := by
  have ran := given w rfl
  cases condition with
  | ok => exact ⟨count, ran⟩
  | error => exact ran

theorem Write.Renders.appends_of_eq {action : Write} {w : Writer} {condition : Except Error Unit}
    {tokens : List Token} {count : Nat} {result : Except Error Text}
    (given : Renders action w.scope condition tokens count)
    (same : (condition.map fun _ => Token.sql tokens) = result) : action.Appends w result :=
  same ▸ given.appends

def Predicate.sqlIn (scope : Scope) (predicate : Predicate) : Except Error Text :=
  predicate.write.textIn scope

theorem Predicate.sqlIn_eq (scope : Scope) (predicate : Predicate) :
    predicate.sqlIn scope = predicate.check.map fun _ => Token.sql (predicate.tokens scope) :=
  (predicate.write_renders scope).textIn

def Condition.sqlIn (scope : Scope) (condition : Condition) : Except Error (Connective × Text) :=
  (condition.predicate.sqlIn scope).map fun text => (condition.connective, text)

-- The first connective is not written.
def joinPredicates : List (Connective × Text) → Text
  | [] => []
  | (_, text) :: rest =>
    text ++ rest.flatMap fun (connective, text) => ' ' :: connective.sql ++ ' ' :: text

def unionSeparator (all : Bool) : Text := if all then "\nUNION ALL\n" else "\nUNION\n"

def joinMembers (all : Bool) (texts : List Text) : Text :=
  (unionSeparator all).intercalate (texts.map fun text => '(' :: text ++ [')'])

theorem mapM_sql (members : List Statement) :
    members.mapM Statement.sql =
      (Statement.checkAll members).map fun _ => members.map fun member => Token.sql member.tokens := by
  induction members with
  | nil => rfl
  | cons member rest ih =>
    rw [List.mapM_cons, ih, Statement.sql_eq, Statement.checkAll]
    cases member.check <;> cases Statement.checkAll rest <;> rfl

theorem mapM_sqlIn (scope : Scope) (conditions : List Condition) :
    conditions.mapM (Condition.sqlIn scope) = (Condition.checkAll conditions).map fun _ =>
      conditions.map fun condition =>
        (condition.connective, Token.sql (condition.predicate.tokens scope)) := by
  induction conditions with
  | nil => rfl
  | cons condition rest ih =>
    rw [List.mapM_cons, ih, Condition.sqlIn, Predicate.sqlIn_eq, Condition.checkAll_cons]
    cases condition.predicate.check <;> cases Condition.checkAll rest <;> rfl

theorem sql_laterTokens (all : Bool) (members : List Statement) :
    Token.sql (Statement.laterTokens all members) = members.flatMap fun member =>
      unionSeparator all ++ '(' :: Token.sql member.tokens ++ [')'] := by
  induction members with
  | nil => rfl
  | cons member rest ih =>
    have lead : Token.sql (.newline :: words (if all then [.UNION, .ALL] else [.UNION]) ++
        [Token.newline]) = unionSeparator all := by
      cases all <;> rfl
    have split : Statement.laterTokens all (member :: rest) =
        (.newline :: words (if all then [.UNION, .ALL] else [.UNION]) ++ [Token.newline]) ++
          (.leftParen :: member.tokens ++ [Token.rightParen] ++ Statement.laterTokens all rest) := by
      simp [Statement.laterTokens, parenthesised]
    rw [split, sql_append, lead, sql_append, ih]
    simp

theorem sql_memberTokens (all : Bool) (members : List Statement) :
    Token.sql (Statement.memberTokens all members) =
      joinMembers all (members.map fun member => Token.sql member.tokens) := by
  cases members with
  | nil => rfl
  | cons member rest =>
    simp [Statement.memberTokens, joinMembers, Text.intercalate_cons, sql_laterTokens, parenthesised,
      List.flatMap_map]

theorem sql_listTokens (scope : Scope) (conditions : List Condition) :
    Token.sql (Condition.listTokens scope conditions) =
      joinPredicates (conditions.map fun condition =>
        (condition.connective, Token.sql (condition.predicate.tokens scope))) := by
  have later (rest : List Condition) : Token.sql (Condition.laterTokens scope rest) =
      rest.flatMap fun condition => ' ' :: condition.connective.sql ++
        ' ' :: Token.sql (condition.predicate.tokens scope) := by
    induction rest with
    | nil => rfl
    | cons condition rest ih => simp [Condition.laterTokens_cons, ih]
  cases conditions with
  | nil => rfl
  | cons condition rest =>
    simp [Condition.listTokens_cons, joinPredicates, later, List.flatMap_map]

def existsLead (negated : Bool) : Text := if negated then "NOT EXISTS (" else "EXISTS ("

def inLead (negated : Bool) : Text := if negated then " NOT IN (" else " IN ("

theorem sql_existsLead (negated : Bool) :
    Token.sql (notTokens negated ++ [Token.word .EXISTS, Token.space, Token.leftParen]) =
      existsLead negated := by
  cases negated <;> rfl

theorem sql_inLead (negated : Bool) :
    Token.sql (.space :: notTokens negated ++ [Token.word .IN, Token.space, Token.leftParen]) =
      inLead negated := by
  cases negated <;> rfl

theorem existsQuery_appends (w : Writer) (negated : Bool) (query : Statement) :
    (Predicate.existsQuery negated query).write.Appends w
      (query.sql.map fun text => existsLead negated ++ text ++ [')']) := by
  refine (Predicate.write_renders _ w.scope).appends_of_eq ?_
  have tokens : (Predicate.existsQuery negated query).tokens w.scope =
      (notTokens negated ++ [Token.word .EXISTS, Token.space, Token.leftParen]) ++ query.tokens ++
        [Token.rightParen] := by
    simp [Predicate.tokens, parenthesised]
  rw [tokens, sql_append, sql_append, sql_existsLead, Statement.sql_eq, Predicate.check]
  cases query.check <;> rfl

theorem inQuery_appends (w : Writer) (negated : Bool) (column : Text) (query : Statement) :
    (Predicate.inQuery negated column query).write.Appends w
      (query.sql.map fun text =>
        Token.sql (w.scope.column column) ++ inLead negated ++ text ++ [')']) := by
  refine (Predicate.write_renders _ w.scope).appends_of_eq ?_
  have tokens : (Predicate.inQuery negated column query).tokens w.scope =
      w.scope.column column ++
        (.space :: notTokens negated ++ [Token.word .IN, Token.space, Token.leftParen]) ++
        query.tokens ++ [Token.rightParen] := by
    simp [Predicate.tokens, parenthesised]
  rw [tokens, sql_append, sql_append, sql_append, sql_inLead, Statement.sql_eq, Predicate.check]
  cases query.check <;> rfl

theorem union_appends (w : Writer) (s : Statement) (all : Bool) (members : List Statement) :
    ({ s with kind := .union all members } : Statement).write.Appends w (do
      s.pagination.validate
      let texts ← members.mapM Statement.sql
      return joinMembers all texts ++ Token.sql (orderTokens s.scope .newline s.orders) ++
        Token.sql (s.pagination.tokens .newline)) := by
  refine (Statement.write_renders _ w.scope).appends_of_eq ?_
  rw [Statement.check, Statement.tokens, sql_append, sql_append, sql_memberTokens, mapM_sql]
  cases s.pagination.validate <;> cases Statement.checkAll members <;> rfl

/-- Whatever the writer holds, a statement adds the text that it compiles to by itself or fails with
the same error, and the scope stays: a subquery stands in its predicate, and members in their union,
with their own text, and every predicate is written as if it stood alone in the outer scope. -/
theorem rendering_compositional (w : Writer) :
    (∀ s : Statement, s.write.Appends w s.sql) ∧
    (∀ (negated : Bool) (query : Statement),
      (Predicate.existsQuery negated query).write.Appends w
        (query.sql.map fun text => existsLead negated ++ text ++ [')'])) ∧
    (∀ (negated : Bool) (column : Text) (query : Statement),
      (Predicate.inQuery negated column query).write.Appends w
        (query.sql.map fun text =>
          Token.sql (w.scope.column column) ++ inLead negated ++ text ++ [')'])) ∧
    (∀ (s : Statement) (all : Bool) (members : List Statement),
      ({ s with kind := .union all members } : Statement).write.Appends w (do
        s.pagination.validate
        let texts ← members.mapM Statement.sql
        return joinMembers all texts ++ Token.sql (orderTokens s.scope .newline s.orders) ++
          Token.sql (s.pagination.tokens .newline))) ∧
    ∀ conditions : List Condition, (Condition.writeList conditions).Appends w
      ((conditions.mapM (Condition.sqlIn w.scope)).map joinPredicates) := by
  refine ⟨fun s => ?_, existsQuery_appends w, inQuery_appends w, union_appends w, fun conditions => ?_⟩
  · exact (s.write_renders w.scope).appends_of_eq s.sql_eq.symm
  · refine (Condition.writeList_renders conditions w.scope).appends_of_eq ?_
    rw [mapM_sqlIn, sql_listTokens]
    cases Condition.checkAll conditions <;> rfl

end SqlComposer
