import Mathlib.Data.List.Forall2
import SqlComposer.Proofs.Columns
import SqlComposer.Proofs.Rewording

set_option autoImplicit false

namespace SqlComposer

open Token

namespace Token

inductive SameButNames : List Token → List Token → Prop where
  | nil : SameButNames [] []
  | cons (token : Token) {tokens others : List Token} :
    SameButNames tokens others → SameButNames (token :: tokens) (token :: others)
  | name (quote : Quote) (reference other : Text) {tokens others : List Token} :
    SameButNames tokens others →
    SameButNames (Reference.quoted quote reference ++ tokens) (Reference.quoted quote other ++ others)

namespace SameButNames

variable {tokens others more others' : List Token}

theorem kept (tokens : List Token) : SameButNames tokens tokens := by
  induction tokens with
  | nil => exact .nil
  | cons token rest ih => exact .cons token ih

theorem append (first : SameButNames tokens others) (second : SameButNames more others') :
    SameButNames (tokens ++ more) (others ++ others') := by
  induction first with
  | nil => exact second
  | cons token _ ih => exact .cons token ih
  | name quote reference other _ ih =>
    rw [List.append_assoc, List.append_assoc]
    exact .name quote reference other ih

theorem quoted (quote : Quote) (reference other : Text) :
    SameButNames (Reference.quoted quote reference) (Reference.quoted quote other) := by
  simpa using SameButNames.name quote reference other .nil

-- A bare wildcard is the reference `*`.
theorem star (quote : Quote) (other : Text) : SameButNames [.star] (Reference.quoted quote other) :=
  quoted quote ['*'] other

theorem symm (same : SameButNames tokens others) : SameButNames others tokens := by
  induction same with
  | nil => exact .nil
  | cons token _ ih => exact .cons token ih
  | name quote reference other _ ih => exact .name quote other reference ih

theorem intercalate (separator : List Token) {items others : List (List Token)}
    (each : List.Forall₂ SameButNames items others) :
    SameButNames (separator.intercalate items) (separator.intercalate others) := by
  induction each with
  | nil => exact .nil
  | @cons item other rest others first later ih =>
    cases later with
    | nil => simpa [List.intercalate] using first
    | cons =>
      have joined := first.append ((kept separator).append ih)
      simpa [List.intercalate] using joined

theorem map {A : Type} (separator : List Token) (first second : A → List Token) (items : List A)
    (each : ∀ item, SameButNames (first item) (second item)) :
    SameButNames (separator.intercalate (items.map first))
      (separator.intercalate (items.map second)) := by
  apply intercalate
  rw [List.forall₂_map_left_iff, List.forall₂_map_right_iff, List.forall₂_same]
  exact fun item _ => each item

-- Of the names only their number matters.
theorem names (separator : List Token) (first second : Text → List Token) (columns others : List Text)
    (sizes : columns.length = others.length)
    (each : ∀ column other, SameButNames (first column) (second other)) :
    SameButNames (separator.intercalate (columns.map first))
      (separator.intercalate (others.map second)) := by
  apply intercalate
  rw [List.forall₂_map_left_iff, List.forall₂_map_right_iff, List.forall₂_iff_get]
  exact ⟨sizes, fun i _ _ => each _ _⟩

theorem parenthesised (same : SameButNames tokens others) :
    SameButNames (Token.parenthesised tokens) (Token.parenthesised others) :=
  .cons .leftParen (same.append (kept _))

theorem clause {A B : Type} (entries : List A) (entries' : List B) (lead : List Token)
    (sizes : entries'.length = entries.length) (same : SameButNames tokens others) :
    SameButNames (clauseTokens entries lead tokens) (clauseTokens entries' lead others) := by
  cases entries with
  | nil =>
    obtain rfl := List.eq_nil_of_length_eq_zero sizes
    exact .nil
  | cons entry rest =>
    obtain ⟨entry', rest', rfl⟩ := List.exists_cons_of_length_eq_add_one sizes
    exact (kept lead).append same

end SameButNames

end Token

open SameButNames (kept quoted star)

theorem Rewording.length_columns (words : Rewording) (row : Row) :
    (words.row row).columns.length = row.columns.length := by
  rw [Row.length_columns, Row.length_columns, words.size_row]

variable (words : Rewording) (scope other : Scope)

theorem Scope.column_sameButNames (quotes : other.quote = scope.quote) (reference name : Text) :
    SameButNames (scope.column reference) (other.column name) := by
  unfold Scope.column
  rw [quotes]
  exact quoted scope.quote _ _

theorem tableTokens_sameButNames (quotes : other.quote = scope.quote) (table : Option Text) :
    SameButNames (tableTokens scope table) (tableTokens other (table.map words.name)) := by
  cases table with
  | none => exact .nil
  | some table =>
    simp only [tableTokens, Option.map_some, quotes]
    exact quoted scope.quote _ _

theorem SortEntry.tokens_reword (quotes : other.quote = scope.quote) (entry : SortEntry) :
    SameButNames (entry.tokens scope) ((entry.reword words).tokens other) := by
  match entry with
  | .column reference .ascending => exact scope.column_sameButNames other quotes _ _
  | .column reference .descending =>
    exact (scope.column_sameButNames other quotes _ _).append (kept _)
  | .random => exact kept _

theorem sortTokens_reword (quotes : other.quote = scope.quote) (entries : List SortEntry) :
    SameButNames (commaSeparated (entries.map (SortEntry.tokens scope)))
      (commaSeparated ((entries.map (SortEntry.reword words)).map (SortEntry.tokens other))) := by
  rw [List.map_map]
  exact .map _ _ _ _ fun entry => entry.tokens_reword words scope other quotes

theorem groupTokens_reword (quotes : other.quote = scope.quote) (entries : List SortEntry) :
    SameButNames (groupTokens scope entries)
      (groupTokens other (entries.map (SortEntry.reword words))) :=
  .clause _ _ _ (by simp) (sortTokens_reword words scope other quotes entries)

theorem orderTokens_reword (quotes : other.quote = scope.quote) (separator : Token)
    (entries : List SortEntry) :
    SameButNames (orderTokens scope separator entries)
      (orderTokens other separator (entries.map (SortEntry.reword words))) :=
  .clause _ _ _ (by simp) (sortTokens_reword words scope other quotes entries)

theorem Join.tokens_reword (quotes : other.quote = scope.quote) (join : Join) :
    SameButNames (join.tokens scope) ((join.reword words).tokens other) := by
  have joined := scope.column_sameButNames other quotes join.left (words.name join.left)
  have table := quoted scope.quote join.table (words.name join.table)
  have last : SameButNames (scope.columnOf (Reference.tableName join.table) join.right)
      (other.columnOf (Reference.tableName (words.name join.table)) (words.name join.right)) := by
    unfold Scope.columnOf
    rw [quotes]
    exact quoted scope.quote _ _
  have whole := (kept (Token.words join.kind.words ++ [Token.space])).append (table.append
    ((kept [.space, .word .ON, .space]).append (joined.append
      ((kept join.comparison.tokens).append last))))
  simpa [Join.tokens, Join.reword, quotes] using whole

theorem Join.listTokens_reword (quotes : other.quote = scope.quote) (joins : List Join) :
    SameButNames (Join.listTokens scope joins)
      (Join.listTokens other (joins.map (Join.reword words))) := by
  unfold Join.listTokens
  rw [List.map_map]
  exact .map _ _ _ _ fun join => .cons .space (join.tokens_reword words scope other quotes)

theorem SelectItem.tokens_reword (quotes : other.quote = scope.quote) (item : SelectItem) :
    SameButNames (item.tokens scope) ((item.reword words).tokens other) := by
  match item with
  | .column reference => exact scope.column_sameButNames other quotes _ _
  | .fragment value => exact kept _
  | .aggregate function reference name =>
    have argument : SameButNames
        (if Reference.isWildcard reference then [.star] else scope.column reference)
        (if Reference.isWildcard (words.name reference) then [.star]
          else other.column (words.name reference)) := by
      unfold Scope.column
      rw [quotes]
      split
      · split
        · exact kept _
        · exact star _ _
      · split
        · exact (star _ _).symm
        · exact quoted _ _ _
    have named := (kept [.space, .word .AS, .space]).append (quoted scope.quote name (words.name name))
    have whole := SameButNames.cons (.word (.aggregate function)) (argument.parenthesised.append named)
    simpa [SelectItem.tokens, SelectItem.reword, quotes] using whole

theorem SelectItem.listTokens_reword (quotes : other.quote = scope.quote) (items : List SelectItem) :
    SameButNames (SelectItem.listTokens scope items)
      (SelectItem.listTokens other (items.map (SelectItem.reword words))) := by
  cases items with
  | nil => exact kept _
  | cons item rest =>
    have joined := SameButNames.map [.comma] (SelectItem.tokens scope)
      (SelectItem.tokens other ∘ SelectItem.reword words) (item :: rest) fun item =>
        item.tokens_reword words scope other quotes
    simpa [SelectItem.listTokens, commaSeparated] using joined

theorem insertTokens_reword (quotes : other.quote = scope.quote) (table : Option Text)
    (rows : List Row) :
    SameButNames (insertTokens scope table rows)
      (insertTokens other (table.map words.name) (rows.map words.row)) := by
  let columns := (rows.head?.map Row.columns).getD []
  let others := ((rows.map words.row).head?.map Row.columns).getD []
  have sizes : columns.length = others.length := by
    cases rows with
    | nil => rfl
    | cons row rest => simpa [columns, others] using (words.length_columns row).symm
  have names := SameButNames.names [.comma] (Reference.quoted scope.quote)
    (Reference.quoted scope.quote) columns others sizes (quoted scope.quote)
  have groups := kept ([Token.space, Token.word .VALUES, Token.space] ++
    commaSeparated (rows.map fun _ => parenthesised (placeholders columns.length)))
  have table := tableTokens_sameButNames words scope other quotes table
  have whole := (kept (Token.words [.INSERT, .INTO] ++ [Token.space])).append
    (table.append (.cons .space (names.parenthesised.append groups)))
  rw [insertTokens, insertTokens]
  simpa [columns, others, sizes, quotes, commaSeparated, Function.comp_def] using whole

theorem assignmentTokens_reword (quotes : other.quote = scope.quote) (row : Row) :
    SameButNames (commaSeparated (row.columns.map (assignmentTokens scope)))
      (commaSeparated ((words.row row).columns.map (assignmentTokens other))) :=
  .names _ _ _ _ _ (words.length_columns row).symm fun column name =>
    (scope.column_sameButNames other quotes column name).append (kept _)

mutual

theorem Statement.tokens_reword (s : Statement) :
    SameButNames s.tokens (s.reword words).tokens := by
  match s with
  | { settings, kind, distinct, table, joins, wheres, groups, havings, orders, pagination, .. } =>
    let scope := Scope.ofTable settings table
    let other := Scope.ofTable settings (table.map words.name)
    have named := tableTokens_sameButNames words scope other rfl table
    have filter := SameButNames.clause wheres (Condition.rewordAll words wheres)
      [.space, .word .WHERE, .space] (by simp [Condition.rewordAll_eq])
      (Condition.listTokens_reword scope other rfl wheres)
    have ordered := (orderTokens_reword words scope other rfl .space orders).append
      (kept (pagination.tokens .space))
    have listing (items : List SelectItem) := by
      have filterGroups := SameButNames.clause havings (Condition.rewordAll words havings)
        [.space, .word .HAVING, .space] (by simp [Condition.rewordAll_eq])
        (Condition.listTokens_reword scope other rfl havings)
      have grouped := groupTokens_reword words scope other rfl groups
      have joined := Join.listTokens_reword words scope other rfl joins
      have listed := SelectItem.listTokens_reword words scope other rfl items
      exact listed.append ((kept [.space, .word .FROM, .space]).append (named.append (joined.append
        (filter.append (grouped.append (filterGroups.append ordered))))))
    match kind with
    | .unset =>
      have whole := (kept (.word .SELECT :: .space ::
        if distinct then [.word .DISTINCT, .space] else [])).append (listing [])
      simpa [Statement.tokens, Statement.reword, Kind.reword, Kind.items, scope, other] using whole
    | .select items =>
      have whole := (kept (.word .SELECT :: .space ::
        if distinct then [.word .DISTINCT, .space] else [])).append (listing items)
      simpa [Statement.tokens, Statement.reword, Kind.reword, Kind.items, scope, other] using whole
    | .insert rows => exact insertTokens_reword words scope other rfl table rows
    | .update row =>
      have assignments := assignmentTokens_reword words scope other rfl row
      have changes := named.append ((kept [.space, .word .SET, .space]).append
        (assignments.append (filter.append ordered)))
      have whole := SameButNames.cons (.word .UPDATE) (.cons .space changes)
      simpa [Statement.tokens, Statement.reword, Kind.reword, scope, other] using whole
    | .delete =>
      have source := named.append (filter.append ordered)
      have whole := (kept (Token.words [.DELETE, .FROM] ++ [Token.space])).append source
      simpa [Statement.tokens, Statement.reword, Kind.reword, scope, other] using whole
    | .truncate =>
      have whole := (kept (Token.words [.TRUNCATE, .TABLE] ++ [Token.space])).append named
      simpa [Statement.tokens, Statement.reword, Kind.reword, scope, other] using whole
    | .union all members =>
      have inner := Statement.memberTokens_reword all members
      have pages := (orderTokens_reword words scope other rfl .newline orders).append
        (kept (pagination.tokens .newline))
      simpa [Statement.tokens, Statement.reword, Kind.reword, scope, other] using inner.append pages

theorem Statement.memberTokens_reword (all : Bool) (members : List Statement) :
    SameButNames (Statement.memberTokens all members)
      (Statement.memberTokens all (Statement.rewordAll words members)) := by
  match members with
  | [] => exact .nil
  | member :: rest =>
    have first := Statement.tokens_reword member
    exact first.parenthesised.append (Statement.laterTokens_reword all rest)

theorem Statement.laterTokens_reword (all : Bool) (members : List Statement) :
    SameButNames (Statement.laterTokens all members)
      (Statement.laterTokens all (Statement.rewordAll words members)) := by
  match members with
  | [] => exact .nil
  | member :: rest =>
    have first := Statement.tokens_reword member
    have keyword := kept (.newline :: Token.words (if all then [.UNION, .ALL] else [.UNION]) ++
      [Token.newline])
    have whole := keyword.append (first.parenthesised.append (Statement.laterTokens_reword all rest))
    simpa [Statement.laterTokens, Statement.rewordAll] using whole

theorem Condition.listTokens_reword (scope other : Scope) (quotes : other.quote = scope.quote)
    (conditions : List Condition) :
    SameButNames (Condition.listTokens scope conditions)
      (Condition.listTokens other (Condition.rewordAll words conditions)) := by
  match conditions with
  | [] => exact .nil
  | ⟨connective, predicate⟩ :: rest =>
    exact (Predicate.tokens_reword scope other quotes predicate).append
      (Condition.laterTokens_reword scope other quotes rest)

theorem Condition.laterTokens_reword (scope other : Scope) (quotes : other.quote = scope.quote)
    (conditions : List Condition) :
    SameButNames (Condition.laterTokens scope conditions)
      (Condition.laterTokens other (Condition.rewordAll words conditions)) := by
  match conditions with
  | [] => exact .nil
  | ⟨connective, predicate⟩ :: rest =>
    have body := (Predicate.tokens_reword scope other quotes predicate).append
      (Condition.laterTokens_reword scope other quotes rest)
    exact .cons .space (.cons (.word connective.word) (.cons .space body))

theorem Predicate.tokens_reword (scope other : Scope) (quotes : other.quote = scope.quote)
    (predicate : Predicate) :
    SameButNames (predicate.tokens scope) ((predicate.reword words).tokens other) := by
  have named (reference : Text) := scope.column_sameButNames other quotes reference
    (words.name reference)
  match predicate with
  | .compare negated column comparison value =>
    have whole := (kept (notTokens negated)).append ((named column).append
      (kept (comparison.tokens ++ [Token.placeholder])))
    simpa [Predicate.tokens, Predicate.reword] using whole
  | .between negated column low high =>
    have whole := (named column).append (kept (.space :: notTokens negated ++
      [Token.word .BETWEEN, Token.space, Token.placeholder, Token.space, Token.word .AND, Token.space,
        Token.placeholder]))
    simpa [Predicate.tokens, Predicate.reword] using whole
  | .inValues negated column values =>
    have whole := (named column).append (kept (.space :: notTokens negated ++
      .word .IN :: .space :: parenthesised (placeholders values.length)))
    simpa [Predicate.tokens, Predicate.reword] using whole
  | .inQuery negated column query =>
    have inner := Statement.tokens_reword query
    have whole := (named column).append ((kept (.space :: notTokens negated ++
      [Token.word .IN, Token.space])).append inner.parenthesised)
    simpa [Predicate.tokens, Predicate.reword] using whole
  | .isNull negated column =>
    have whole := (named column).append (kept (.space :: .word .IS :: .space :: notTokens negated ++
      [Token.word .NULL]))
    simpa [Predicate.tokens, Predicate.reword] using whole
  | .columns left comparison right =>
    have whole := (named left).append ((kept comparison.tokens).append (named right))
    simpa [Predicate.tokens, Predicate.reword] using whole
  | .datePart part column comparison value =>
    have whole := SameButNames.cons (.word (.datePart part)) ((named column).parenthesised.append
      (kept (comparison.tokens ++ [Token.placeholder])))
    simpa [Predicate.tokens, Predicate.reword] using whole
  | .existsQuery negated query =>
    have inner := Statement.tokens_reword query
    have whole := (kept (notTokens negated ++ [Token.word .EXISTS, Token.space])).append
      inner.parenthesised
    simpa [Predicate.tokens, Predicate.reword] using whole
  | .fragment negated text values => exact kept _
  | .group negated conditions =>
    have inner := Condition.listTokens_reword scope other quotes conditions
    exact (kept (notTokens negated)).append inner.parenthesised

end

end SqlComposer
