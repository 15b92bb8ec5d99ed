import SqlComposer.Proofs.References
import SqlComposer.Statement.Tokens

set_option autoImplicit false

namespace SqlComposer

open Token

variable {P : Token → Prop} {D R : Text → Prop}

namespace Token

structure Fixed (P : Token → Prop) : Prop where
  word : ∀ value, P (.word value)
  symbol : ∀ comparison, P (.symbol comparison)
  number : ∀ value, P (.number value)
  space : P .space
  newline : P .newline
  comma : P .comma
  dot : P .dot
  star : P .star
  leftParen : P .leftParen
  rightParen : P .rightParen

def Each (P : Token → Prop) (tokens : List Token) : Prop := ∀ token ∈ tokens, P token

variable {tokens more : List Token}

@[simp] theorem each_nil : Each P [] := by simp [Each]

@[simp] theorem each_cons {token : Token} : Each P (token :: tokens) ↔ P token ∧ Each P tokens :=
  List.forall_mem_cons

@[simp] theorem each_append : Each P (tokens ++ more) ↔ Each P tokens ∧ Each P more :=
  List.forall_mem_append

theorem each_intercalate {separator : List Token} {items : List (List Token)}
    (between : Each P separator) (items_each : ∀ item ∈ items, Each P item) :
    Each P (separator.intercalate items) := by
  intro token member
  rcases Text.mem_intercalate member with inside | ⟨item, present, inside⟩
  · exact between token inside
  · exact items_each item present token inside

namespace Fixed

variable (fixed : Fixed P)

include fixed

theorem words (list : List Word) : Each P (Token.words list) := by
  refine each_intercalate (by simp [fixed.space]) fun item member => ?_
  obtain ⟨value, -, rfl⟩ := List.mem_map.1 member
  simp [fixed.word]

theorem commaSeparated {items : List (List Token)} (items_each : ∀ item ∈ items, Each P item) :
    Each P (Token.commaSeparated items) :=
  each_intercalate (by simp [fixed.comma]) items_each

theorem parenthesised (each : Each P tokens) : Each P (Token.parenthesised tokens) := by
  simp [Token.parenthesised, each, fixed.leftParen, fixed.rightParen]

theorem placeholders (placeholder : P .placeholder) (count : Nat) :
    Each P (Token.placeholders count) := by
  refine fixed.commaSeparated fun item member => ?_
  rw [List.eq_of_mem_replicate member]
  simp [placeholder]

theorem comparison (comparison : Comparison) : Each P comparison.tokens := by
  cases comparison <;> simp [Comparison.tokens, fixed.word, fixed.symbol, fixed.space]

theorem notTokens (negated : Bool) : Each P (notTokens negated) := by
  cases negated <;> simp [SqlComposer.notTokens, fixed.word, fixed.space]

theorem pagination {separator : Token} (first : P separator) (pagination : Pagination) :
    Each P (pagination.tokens separator) := by
  unfold Pagination.tokens
  split
  · exact each_nil
  · split <;> simp [first, fixed.word, fixed.space, fixed.number]

theorem quoted {quote : Quote} {reference : Text}
    (segments : ∀ part ∈ Reference.parts reference, ∀ piece ∈ Text.split '.' part,
      P (Reference.segment quote piece)) : Each P (Reference.quoted quote reference) := by
  refine each_intercalate (by simp [fixed.space, fixed.word]) fun item member => ?_
  obtain ⟨part, within, rfl⟩ := List.mem_map.1 member
  refine each_intercalate (by simp [fixed.dot]) fun item member => ?_
  obtain ⟨piece, inside, rfl⟩ := List.mem_map.1 member
  simp [segments part within piece inside]

end Fixed

end Token

theorem clauseTokens_each {A : Type} {entries : List A} {lead body : List Token} (first : Each P lead)
    (rest : Each P body) : Each P (clauseTokens entries lead body) := by
  unfold clauseTokens
  split
  · exact each_nil
  · exact each_append.2 ⟨first, rest⟩

structure Scope.Writes (P : Token → Prop) (D R : Text → Prop) (scope : Scope) : Prop where
  direct : ∀ reference, D reference → Each P (Reference.quoted scope.quote reference)
  column : ∀ reference, R reference → Each P (scope.column reference)
  columnOf : ∀ table reference, D table → R reference →
    Each P (scope.columnOf (Reference.tableName table) reference)

section Clauses

variable (fixed : Fixed P) {scope : Scope} (writes : scope.Writes P D R)

include writes

theorem tableTokens_each {table : Option Text} (named : ∀ name ∈ table, D name) :
    Each P (tableTokens scope table) := by
  cases table with
  | none => exact each_nil
  | some table => exact writes.direct table (named table rfl)

include fixed

theorem sortTokens_each {entries : List SortEntry}
    (holds : ∀ entry ∈ entries, ∀ reference ∈ entry.references, R reference) :
    Each P (commaSeparated (entries.map (SortEntry.tokens scope))) := by
  refine fixed.commaSeparated fun item member => ?_
  obtain ⟨entry, present, rfl⟩ := List.mem_map.1 member
  match entry with
  | .column reference direction =>
    have written := writes.column reference (holds _ present _ (by simp [SortEntry.references]))
    cases direction <;> simp [SortEntry.tokens, written, fixed.space, fixed.word]
  | .random => simp [SortEntry.tokens, fixed.word, fixed.leftParen, fixed.rightParen]

theorem groupTokens_each {entries : List SortEntry}
    (holds : ∀ entry ∈ entries, ∀ reference ∈ entry.references, R reference) :
    Each P (groupTokens scope entries) :=
  clauseTokens_each (by simp [fixed.words, fixed.space]) (sortTokens_each fixed writes holds)

theorem orderTokens_each {separator : Token} (first : P separator) {entries : List SortEntry}
    (holds : ∀ entry ∈ entries, ∀ reference ∈ entry.references, R reference) :
    Each P (orderTokens scope separator entries) :=
  clauseTokens_each (by simp [first, fixed.words, fixed.space]) (sortTokens_each fixed writes holds)

theorem Join.listTokens_each {joins : List Join} (holds : ∀ join ∈ joins, join.Holds D R) :
    Each P (Join.listTokens scope joins) := by
  refine each_intercalate (by simp [fixed.newline]) fun item member => ?_
  obtain ⟨join, present, rfl⟩ := List.mem_map.1 member
  obtain ⟨table, left, right⟩ := holds join present
  simp [Join.tokens, fixed.words, fixed.space, fixed.word, fixed.comparison, writes.direct _ table,
    writes.column _ left, writes.columnOf _ _ table right]

theorem SelectItem.listTokens_each {items : List SelectItem} (holds : ∀ item ∈ items, item.Holds D R)
    (fragments : ∀ text, .fragment text ∈ items → P (.fragment text)) :
    Each P (SelectItem.listTokens scope items) := by
  unfold SelectItem.listTokens
  split
  · simp [fixed.star]
  · refine fixed.commaSeparated fun tokens member => ?_
    obtain ⟨item, present, rfl⟩ := List.mem_map.1 member
    match item with
    | .column reference => exact writes.column reference (holds _ present)
    | .fragment text => simp [SelectItem.tokens, fragments text present]
    | .aggregate function reference name =>
      obtain ⟨known, named⟩ := holds _ present
      have argument : Each P
          (if Reference.isWildcard reference then [.star] else scope.column reference) := by
        split
        · simp [fixed.star]
        · exact writes.column reference known
      simp [SelectItem.tokens, fixed.word, fixed.space, fixed.parenthesised argument,
        writes.direct name named]

variable (placeholder : P .placeholder)

include placeholder

theorem insertTokens_each {table : Option Text} {rows : List Row} (named : ∀ name ∈ table, D name)
    (columns : ∀ row ∈ rows, ∀ column ∈ row.columns, D column) :
    Each P (insertTokens scope table rows) := by
  have names : Each P (commaSeparated
      (((rows.head?.map Row.columns).getD []).map (Reference.quoted scope.quote))) := by
    refine fixed.commaSeparated fun item member => ?_
    obtain ⟨column, present, rfl⟩ := List.mem_map.1 member
    cases rows with
    | nil => cases present
    | cons row rest => exact writes.direct column (columns row (by simp) column present)
  have values (count : Nat) :
      Each P (commaSeparated (rows.map fun _ => parenthesised (placeholders count))) := by
    refine fixed.commaSeparated fun item member => ?_
    obtain ⟨row, -, rfl⟩ := List.mem_map.1 member
    exact fixed.parenthesised (fixed.placeholders placeholder count)
  simp only [insertTokens, List.cons_append, List.nil_append, List.append_assoc, each_append, each_cons,
    fixed.words, fixed.space, fixed.word, tableTokens_each writes named, fixed.parenthesised names, values,
    and_self]

theorem assignments_each {columns : List Text} (holds : ∀ column ∈ columns, R column) :
    Each P (commaSeparated (columns.map (assignmentTokens scope))) := by
  refine fixed.commaSeparated fun item member => ?_
  obtain ⟨column, present, rfl⟩ := List.mem_map.1 member
  simp [assignmentTokens, writes.column column (holds column present), fixed.symbol, placeholder]

end Clauses

structure Statement.Written (P : Token → Prop) (D R : Text → Prop) (s : Statement) : Prop where
  writes : s.scope.Writes P D R
  holds : s.Holds D R R
  fragments : ∀ text, .fragment text ∈ s.kind.items → P (.fragment text)

structure Predicate.Written (P : Token → Prop) (R : Text → Prop) (predicate : Predicate) : Prop where
  holds : predicate.Holds R
  fragments : ∀ negated text values, predicate = .fragment negated text values → P (.fragment text)

section Statements

variable (fixed : Fixed P) (placeholder : P .placeholder)

include fixed placeholder

-- Each of those below uses them through the others.
set_option linter.unusedSectionVars false

mutual

theorem Statement.each_token (s : Statement)
    (written : s.Every (Statement.Written P D R) (Predicate.Written P R)) : Each P s.tokens := by
  match s with
  | { settings, kind, distinct, table, joins, wheres, groups, havings, orders, pagination, .. } =>
    obtain ⟨⟨writes, ⟨named, references, joined, grouped, ordered⟩, fragments⟩, inWheres, inHavings,
      inMembers⟩ := (Statement.every_iff _).1 written
    let scope := Scope.ofTable settings table
    have writes : scope.Writes P D R := writes
    have source : Each P (tableTokens scope table) := tableTokens_each writes named
    have sorted (separator : Token) (first : P separator) : Each P (orderTokens scope separator orders) :=
      orderTokens_each fixed writes first ordered
    have filters {A : Type} (entries : List A) (word : Word) {body : List Token} (each : Each P body) :
        Each P (clauseTokens entries [.space, .word word, .space] body) :=
      clauseTokens_each (by simp [fixed.space, fixed.word]) each
    have filtered := filters wheres .WHERE (Condition.each_token scope writes wheres inWheres)
    have filteredGroups := filters havings .HAVING (Condition.each_token scope writes havings inHavings)
    have selected : Each P (SelectItem.listTokens scope kind.items) :=
      SelectItem.listTokens_each fixed writes (Kind.items_holds references) fragments
    match kind with
    | .unset | .select _ =>
      have distinctly : Each P (if distinct then [.word .DISTINCT, .space] else []) := by
        split <;> simp [fixed.word, fixed.space]
      have linked : Each P (Join.listTokens scope joins) := Join.listTokens_each fixed writes joined
      have gathered : Each P (groupTokens scope groups) := groupTokens_each fixed writes grouped
      simp [Statement.tokens, fixed.word, fixed.space, distinctly, selected, source, linked, filtered,
        gathered, filteredGroups, sorted, fixed.pagination, scope]
    | .insert rows =>
      exact insertTokens_each fixed writes placeholder named references
    | .update row =>
      have assigned : Each P (commaSeparated (row.columns.map (assignmentTokens scope))) :=
        assignments_each fixed writes placeholder references
      simp [Statement.tokens, fixed.word, fixed.space, source, assigned, filtered, sorted,
        fixed.pagination, scope]
    | .delete =>
      simp [Statement.tokens, fixed.words, fixed.space, source, filtered, sorted, fixed.pagination,
        scope]
    | .truncate => simp [Statement.tokens, fixed.words, fixed.space, source, scope]
    | .union all members =>
      have inner := Statement.each_memberToken all members (inMembers all members rfl)
      simp [Statement.tokens, inner, fixed.newline, sorted, fixed.pagination, scope]

theorem Statement.each_memberToken (all : Bool) (members : List Statement)
    (written : Statement.EveryOf (Statement.Written P D R) (Predicate.Written P R) members) :
    Each P (Statement.memberTokens all members) := by
  match members with
  | [] => exact each_nil
  | member :: rest =>
    have first := Statement.each_token member written.1
    have later := Statement.each_laterToken all rest written.2
    exact each_append.2 ⟨fixed.parenthesised first, later⟩

theorem Statement.each_laterToken (all : Bool) (members : List Statement)
    (written : Statement.EveryOf (Statement.Written P D R) (Predicate.Written P R) members) :
    Each P (Statement.laterTokens all members) := by
  match members with
  | [] => exact each_nil
  | member :: rest =>
    have first := Statement.each_token member written.1
    have later := Statement.each_laterToken all rest written.2
    simp [Statement.laterTokens, fixed.newline, fixed.words, fixed.parenthesised first, later]

theorem Condition.each_token (scope : Scope) (writes : scope.Writes P D R) (conditions : List Condition)
    (written : Condition.EveryOf (Statement.Written P D R) (Predicate.Written P R) conditions) :
    Each P (Condition.listTokens scope conditions) := by
  match conditions with
  | [] => exact each_nil
  | ⟨_, predicate⟩ :: rest =>
    exact each_append.2 ⟨Predicate.each_token scope writes predicate written.1,
      Condition.each_laterToken scope writes rest written.2⟩

theorem Condition.each_laterToken (scope : Scope) (writes : scope.Writes P D R)
    (conditions : List Condition)
    (written : Condition.EveryOf (Statement.Written P D R) (Predicate.Written P R) conditions) :
    Each P (Condition.laterTokens scope conditions) := by
  match conditions with
  | [] => exact each_nil
  | ⟨connective, predicate⟩ :: rest =>
    have first := Predicate.each_token scope writes predicate written.1
    have later := Condition.each_laterToken scope writes rest written.2
    simp [Condition.laterTokens, fixed.space, fixed.word, first, later]

theorem Predicate.each_token (scope : Scope) (writes : scope.Writes P D R) (predicate : Predicate)
    (written : predicate.Every (Statement.Written P D R) (Predicate.Written P R)) :
    Each P (predicate.tokens scope) := by
  match predicate with
  | .compare _ column _ _ | .between _ column _ _ | .isNull _ column =>
    have named := writes.column column (written.holds column (by simp [Predicate.references]))
    simp [Predicate.tokens, named, placeholder, fixed.notTokens, fixed.comparison, fixed.space,
      fixed.word]
  | .inValues _ column values =>
    have named := writes.column column (written.holds column (by simp [Predicate.references]))
    have listed := fixed.parenthesised (fixed.placeholders placeholder values.length)
    simp [Predicate.tokens, named, listed, fixed.notTokens, fixed.space, fixed.word]
  | .inQuery _ column query =>
    have named := writes.column column (written.1.holds column (by simp [Predicate.references]))
    have inner := fixed.parenthesised (Statement.each_token query written.2)
    simp [Predicate.tokens, named, inner, fixed.notTokens, fixed.space, fixed.word]
  | .columns left _ right =>
    have first := writes.column left (written.holds left (by simp [Predicate.references]))
    have second := writes.column right (written.holds right (by simp [Predicate.references]))
    simp [Predicate.tokens, first, second, fixed.comparison]
  | .datePart _ column _ _ =>
    have named := writes.column column (written.holds column (by simp [Predicate.references]))
    simp [Predicate.tokens, fixed.parenthesised named, placeholder, fixed.comparison, fixed.word]
  | .existsQuery _ query =>
    have inner := fixed.parenthesised (Statement.each_token query written.2)
    simp [Predicate.tokens, inner, fixed.notTokens, fixed.space, fixed.word]
  | .fragment negated text values =>
    simp [Predicate.tokens, fixed.notTokens, written.fragments negated text values rfl]
  | .group _ conditions =>
    have inner := fixed.parenthesised (Condition.each_token scope writes conditions written.2)
    simp [Predicate.tokens, inner, fixed.notTokens]

end

end Statements

end SqlComposer
