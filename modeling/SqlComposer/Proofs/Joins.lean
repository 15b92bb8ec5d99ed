import SqlComposer.Proofs.Clauses
import SqlComposer.Proofs.Spelling
import SqlComposer.Proofs.Writing

set_option autoImplicit false

namespace SqlComposer

open Token

section Stay

variable {s next : Statement}

theorem Edit.joins_prefix {edit : Edit} (kept : edit ≠ .reset) (applied : edit.apply s = .ok next) :
    s.joins <+: next.joins := by
  by_cases own : edit.clause? = some .joins
  · cases edit with
    | join =>
      obtain ⟨current, join, -, -, rfl⟩ := Statement.join_eq_ok.1 applied
      exact List.prefix_append s.joins [join]
    | _ => cases own
  · have same : next.joins = s.joins := Edit.get_of_other kept own applied
    exact same ▸ List.prefix_refl s.joins

theorem Call.joins_prefix {call : Call} (kept : ¬ call.Clears s) :
    s.joins <+: (call.run s).statement.joins := by
  have made := call.effect kept
  generalize (call.run s).statement = next at made ⊢
  cases made with
  | edited action _ kept applied => exact Edit.joins_prefix kept applied
  | same | compiled | filtered | compared | united => exact List.prefix_refl s.joins

theorem Uninterrupted.joins_prefix {calls : List Call} (run : Uninterrupted calls s) :
    s.joins <+: (Call.runAll calls s).joins := by
  induction calls generalizing s with
  | nil => exact List.prefix_refl s.joins
  | cons call rest ih => exact (Call.joins_prefix run.1).trans (ih run.2)

end Stay

def joinText (kind : JoinKind) (table left : Text) (comparison : Comparison) (right : Text) : Text :=
  Token.sql (words kind.words) ++ ' ' :: table ++ " ON " ++ left ++ Token.sql comparison.tokens ++ right

def Reference.qualifier (quote : Quote) (table : Text) : Text :=
  written quote (clean quote (tableName table))

theorem Join.sql_tokens (scope : Scope) (join : Join) :
    Token.sql (join.tokens scope) =
      joinText join.kind (Reference.written scope.quote join.table) (Token.sql (scope.column join.left))
        join.comparison (Token.sql (scope.columnOf (Reference.tableName join.table) join.right)) := by
  have on : Token.sql [.space, .word .ON, .space] = (" ON " : Text) := rfl
  simp only [tokens, joinText, Reference.written, Scope.columnOf, sql_append, sql_cons, text_space, on,
    List.cons_append, List.nil_append]

def Kind.selects : Kind → Bool
  | .unset | .select _ => true
  | .insert _ | .update _ | .delete | .truncate | .union .. => false

theorem Statement.sql_of_join {s : Statement} {join : Join} (selects : s.kind.selects)
    (held : join ∈ s.joins) : ∃ front behind, s.sql = s.check.map fun _ =>
      front ++ ' ' :: Token.sql (join.tokens s.scope) ++ behind := by
  have listed : .space :: join.tokens s.scope <:+: Join.listTokens s.scope s.joins :=
    Text.infix_intercalate (List.mem_map_of_mem held)
  have stays {inner : List Token} (more : List Token)
      (inside : Join.listTokens s.scope s.joins <:+: inner) :
      Join.listTokens s.scope s.joins <:+: inner ++ more :=
    inside.trans (List.prefix_append inner more).isInfix
  have inside : Join.listTokens s.scope s.joins <:+: s.tokens := by
    match s with
    | { kind, .. } =>
      match kind with
      | .unset | .select _ =>
        rw [tokens]
        exact stays _ (stays _ (stays _ (stays _ (stays _ (List.suffix_append _ _).isInfix))))
  obtain ⟨front, behind, whole⟩ := listed.trans inside
  refine ⟨Token.sql front, Token.sql behind, ?_⟩
  rw [sql_eq, ← whole]
  simp

def Reference.Qualified (reference : Text) : Prop := '.' ∈ reference ∧ reference.head? ≠ some '.'

instance (reference : Text) : Decidable (Reference.Qualified reference) :=
  inferInstanceAs (Decidable (_ ∧ _))

section Columns

variable {column : Text} (scope : Scope) (table : Text)

theorem Scope.sql_columnOf_qualified (own : Reference.Qualified column) :
    Token.sql (scope.columnOf table column) =
      Reference.written scope.quote (Reference.cleaned scope.quote column) := by
  rw [columnOf, Reference.qualify_of_dot own.1 own.2]
  rfl

theorem Scope.sql_columnOf_plain (plain : ¬ Reference.Qualified column) :
    Token.sql (scope.columnOf table column) =
      Reference.written scope.quote (Reference.clean scope.quote table) ++ '.' ::
        Reference.written scope.quote (Reference.clean scope.quote column) := by
  have behind : Reference.qualify scope.quote (some table) column =
      Reference.clean scope.quote table ++ '.' :: Reference.clean scope.quote column := by
    by_cases dot : '.' ∈ column
    · have leads : column.head? = some '.' := by
        by_contra other
        exact plain ⟨dot, other⟩
      obtain ⟨rest, rfl⟩ := List.head?_eq_some_iff.1 leads
      rfl
    · exact Reference.qualify_of_plain dot (some table)
  rw [columnOf, behind, Reference.quoted_meet, sql_append]
  rfl

end Columns

def Reference.defaultColumn (quote : Quote) (current : Text) : Text :=
  clean quote (cutAlias current).1 ++ "_id"

theorem Edit.join_run {s : Statement} {current joined left right : Text}
    {left? right? operator? kind? : Option Text} {comparison : Comparison}
    (held : s.table = some current) (valid : Reference.validate s.settings "join" joined = .ok ())
    (compares : joinComparison (joinOperands right? operator?).2 = .ok comparison)
    (first : joinColumn s.settings current "id" left? = .ok left)
    (second : joinColumn s.settings joined.trim (Reference.defaultColumn s.settings.quote current)
      (joinOperands right? operator?).1 = .ok right) :
    (Edit.join joined left? right? operator? kind?).run s = (.ok (), .touched { s with
      joins := s.joins ++ [⟨JoinKind.parse (kind?.getD []), joined.trim, left, comparison, right⟩] }) := by
  have checked : Reference.check s.settings "join" joined = .ok joined.trim := by
    rw [Reference.check, valid]
    rfl
  have made : joinInput s.settings current joined left? right? operator? kind? =
      .ok ⟨JoinKind.parse (kind?.getD []), joined.trim, left, comparison, right⟩ := by
    rcases operands : joinOperands right? operator? with ⟨last?, middle?⟩
    rw [operands] at compares second
    have compared : joinComparison middle? = .ok comparison := compares
    have found : joinColumn s.settings joined.trim (Reference.clean s.settings.quote
        (Reference.cutAlias current).1 ++ "_id") last? = .ok right := second
    simp only [joinInput, operands]
    exact bind_eq_ok.2 ⟨_, checked, bind_eq_ok.2 ⟨_, compared, bind_eq_ok.2 ⟨_, first,
      bind_eq_ok.2 ⟨_, found, rfl⟩⟩⟩⟩
  exact Edit.run_of_apply (Statement.join_eq_ok.2 ⟨current, _, held, made, rfl⟩)

theorem exists_joinColumn {settings : Settings} (table standard : Text) {column? : Option Text}
    (valid : ∀ column, column? = some column → Reference.validate settings "join" column = .ok ()) :
    ∃ name, joinColumn settings table standard column? = .ok name ∧ (column? = none → name = standard) := by
  cases column? with
  | none => exact ⟨standard, rfl, fun _ => rfl⟩
  | some column =>
    exact ⟨_, joinColumn_eq_ok.2 (.inr ⟨column, rfl, valid column rfl, rfl⟩), fun none => nomatch none⟩

theorem Statement.sql_of_joined {s : Statement} {join : Join} {calls : List Call} {present : Text}
    (held : join ∈ s.joins) (run : Uninterrupted calls s) (selects : (Call.runAll calls s).kind.selects)
    (table : (Call.runAll calls s).table = some present) :
    let t := Call.runAll calls s
    let quote := t.settings.quote
    let scope : Scope := ⟨quote, none⟩
    ∃ front behind, t.sql = t.check.map fun _ => front ++ ' ' :: joinText join.kind
      (Reference.written quote join.table)
      (Token.sql (scope.columnOf (Reference.tableName present) join.left)) join.comparison
      (Token.sql (scope.columnOf (Reference.tableName join.table) join.right)) ++ behind := by
  intro t quote scope
  have kept : join ∈ t.joins := run.joins_prefix.subset held
  obtain ⟨front, behind, text⟩ := t.sql_of_join selects kept
  have own : t.scope = ⟨quote, some (Reference.tableName present)⟩ := by
    unfold Statement.scope
    rw [table]
    rfl
  rw [Join.sql_tokens, own] at text
  exact ⟨front, behind, text⟩

/-- A join on no columns compares an `id` of the current table with the column of the joined one that is
named after the current table, unless that name brings a table of its own: then it stands as it is, whatever
table is joined. -/
theorem join_defaults (s : Statement) (current joined : Text)
    (left? right? operator? kind? : Option Text) (comparison : Comparison)
    (held : s.table = some current) (valid : Reference.validate s.settings "join" joined = .ok ())
    (compares : joinComparison (joinOperands right? operator?).2 = .ok comparison)
    (columns : ∀ column, left? = some column ∨ (joinOperands right? operator?).1 = some column →
      Reference.validate s.settings "join" column = .ok ()) :
    ∃ next, (Edit.join joined left? right? operator? kind?).run s = (.ok (), next) ∧
      ∀ calls, Uninterrupted calls next → ∀ present,
        let t := Call.runAll calls next
        let quote := t.settings.quote
        let named := Reference.defaultColumn s.settings.quote current
        t.kind.selects → t.table = some present → ∃ left right front behind,
          t.sql = (t.check.map fun _ => front ++ ' ' :: joinText (JoinKind.parse (kind?.getD []))
            (Reference.written quote joined.trim) left comparison right ++ behind) ∧
          (left? = none → left = Reference.qualifier quote present ++ '.' :: Reference.written quote "id") ∧
          ((joinOperands right? operator?).1 = none → right =
            if Reference.Qualified named then Reference.written quote (Reference.cleaned quote named)
            else Reference.qualifier quote joined.trim ++ '.' ::
              Reference.written quote (Reference.clean quote named)) := by
  obtain ⟨left, first, unnamed⟩ := exists_joinColumn current "id"
    fun column given => columns column (.inl given)
  obtain ⟨right, second, default⟩ := exists_joinColumn joined.trim
    (Reference.defaultColumn s.settings.quote current) fun column given => columns column (.inr given)
  have ran : (Edit.join joined left? right? operator? kind?).run s = _ :=
    Edit.join_run held valid compares first second
  let join : Join := ⟨JoinKind.parse (kind?.getD []), joined.trim, left, comparison, right⟩
  have kept : join ∈ (Statement.touched { s with joins := s.joins ++ [join] }).joins := by
    simp [Statement.touched]
  refine ⟨_, ran, fun calls run present => ?_⟩
  intro t quote named selects table
  obtain ⟨front, behind, text⟩ := Statement.sql_of_joined kept run selects table
  refine ⟨_, _, front, behind, text, fun none => ?_, fun none => ?_⟩
  · have bare : Reference.clean quote "id" = "id" := by cases quote <;> rfl
    rw [show join.left = "id" from unnamed none, Scope.sql_columnOf_plain _ _ (by decide)]
    exact congrArg (fun name => Reference.qualifier quote present ++ '.' :: Reference.written quote name) bare
  · rw [show join.right = named from default none]
    split
    · next own => exact Scope.sql_columnOf_qualified _ _ own
    · next plain => exact Scope.sql_columnOf_plain _ _ plain

-- The comparison stands in the place of the second column; both tables go by their aliases.
theorem join_defaults_aliased :
    let s := Call.runAll [.edit (.fromTable "users AS u")] (.new {})
    let edit : Edit := .join "`mail` as m" none (some "<") none (some "left")
    let next := (edit.run s).2
    let text : Text := " LEFT JOIN `mail` AS `m` ON `u`.`id`<`m`.`users_id`"
    s.table = some "users AS u" ∧ edit.run s = (.ok (), next) ∧
      ∃ front behind, next.sql = next.check.map fun _ => front ++ text ++ behind := by
  intro s edit next text
  have held : s.table = some "users AS u" := by decide +kernel
  have done : edit.run s = (.ok (), next) := Prod.ext (by decide +kernel) rfl
  obtain ⟨made, ran, later⟩ := join_defaults s "users AS u" "`mail` as m" none (some "<") none (some "left")
    .less held (by rfl) (by rfl) (by rintro column (given | given) <;> cases given)
  obtain rfl : made = next := congrArg Prod.snd (ran.symm.trans done)
  obtain ⟨left, right, front, behind, shown, first, second⟩ :=
    later [] trivial "users AS u" (by decide +kernel) (by decide +kernel)
  rw [first rfl, second rfl] at shown
  refine ⟨held, done, front, behind, shown.trans ?_⟩
  exact congrArg (fun text => next.check.map fun _ => front ++ text ++ behind) (by decide +kernel)

/-- The name of a table in a schema brings the schema as its table, so the second column is none of the
joined table. -/
theorem default_column_of_schema :
    let s := Call.runAll [.edit (.fromTable "shop.users")] (.new {})
    let next := ((Edit.join "emails" none none none none).run s).2
    next.sql = .ok "SELECT * FROM `shop`.`users` JOIN `emails` ON `shop`.`users`.`id`=`shop`.`users_id`" ∧
      next.sql ≠ .ok
        "SELECT * FROM `shop`.`users` JOIN `emails` ON `shop`.`users`.`id`=`emails`.`shop`.`users_id`" ∧
      next.sql ≠ .ok
        "SELECT * FROM `shop`.`users` JOIN `emails` ON `shop`.`users`.`id`=`emails`.`users_id`" := by
  decide +kernel

end SqlComposer
