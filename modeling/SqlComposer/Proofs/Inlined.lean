import SqlComposer.Proofs.Tokens
import SqlComposer.Proofs.Writing

set_option autoImplicit false

namespace SqlComposer

open Token

def Value.shown (value : Value) : Text := '\'' :: value.display ++ ['\'']

def interleave : List Text → List Value → Text
  | piece :: pieces, value :: values => piece ++ value.shown ++ interleave pieces values
  | pieces, _ => pieces.flatten

namespace Token

def shown (value : Value) : Token := .fragment value.shown

def shownList (values : List Value) : List Token := commaSeparated (values.map fun value => [shown value])

end Token

def insertInlined (scope : Scope) (table : Option Text) (rows : List Row) : List Token :=
  let columns := (rows.head?.map Row.columns).getD []
  words [.INSERT, .INTO] ++ .space :: tableTokens scope table ++ .space ::
    parenthesised (commaSeparated (columns.map (Reference.quoted scope.quote))) ++
    [.space, .word .VALUES, .space] ++
    commaSeparated (rows.map fun row => parenthesised (shownList (row.valuesIn columns)))

def assignmentInlined (scope : Scope) (field : Text × Value) : List Token :=
  scope.column field.1 ++ [.symbol .equal, shown field.2]

mutual

def Statement.inlined : Statement → List Token
  | { settings, kind, distinct, table, joins, wheres, groups, havings, orders, pagination, .. } =>
    let scope := Scope.ofTable settings table
    match kind with
    | .unset | .select _ =>
      .word .SELECT :: .space :: (if distinct then [.word .DISTINCT, .space] else []) ++
        SelectItem.listTokens scope kind.items ++ [.space, .word .FROM, .space] ++
        tableTokens scope table ++ Join.listTokens scope joins ++
        clauseTokens wheres [.space, .word .WHERE, .space] (Condition.listInlined scope wheres) ++
        groupTokens scope groups ++
        clauseTokens havings [.space, .word .HAVING, .space] (Condition.listInlined scope havings) ++
        orderTokens scope .space orders ++ pagination.tokens .space
    | .insert rows => insertInlined scope table rows
    | .update row =>
      .word .UPDATE :: .space :: tableTokens scope table ++ [.space, .word .SET, .space] ++
        commaSeparated (row.fields.map (assignmentInlined scope)) ++
        clauseTokens wheres [.space, .word .WHERE, .space] (Condition.listInlined scope wheres) ++
        orderTokens scope .space orders ++ pagination.tokens .space
    | .delete =>
      words [.DELETE, .FROM] ++ .space :: tableTokens scope table ++
        clauseTokens wheres [.space, .word .WHERE, .space] (Condition.listInlined scope wheres) ++
        orderTokens scope .space orders ++ pagination.tokens .space
    | .truncate => words [.TRUNCATE, .TABLE] ++ .space :: tableTokens scope table
    | .union all members =>
      Statement.memberInlined all members ++ orderTokens scope .newline orders ++
        pagination.tokens .newline

def Statement.memberInlined (all : Bool) : List Statement → List Token
  | [] => []
  | member :: rest => parenthesised member.inlined ++ Statement.laterInlined all rest

def Statement.laterInlined (all : Bool) : List Statement → List Token
  | [] => []
  | member :: rest =>
    .newline :: words (if all then [.UNION, .ALL] else [.UNION]) ++ .newline ::
      parenthesised member.inlined ++ Statement.laterInlined all rest

def Condition.listInlined (scope : Scope) : List Condition → List Token
  | [] => []
  | ⟨_, predicate⟩ :: rest => predicate.inlined scope ++ Condition.laterInlined scope rest

def Condition.laterInlined (scope : Scope) : List Condition → List Token
  | [] => []
  | ⟨connective, predicate⟩ :: rest =>
    .space :: .word connective.word :: .space :: predicate.inlined scope ++
      Condition.laterInlined scope rest

def Predicate.inlined (scope : Scope) : Predicate → List Token
  | .compare negated column comparison value =>
    notTokens negated ++ scope.column column ++ comparison.tokens ++ [shown value]
  | .between negated column low high =>
    scope.column column ++ .space :: notTokens negated ++
      [.word .BETWEEN, .space, shown low, .space, .word .AND, .space, shown high]
  | .inValues negated column values =>
    scope.column column ++ .space :: notTokens negated ++ .word .IN :: .space ::
      parenthesised (shownList values)
  | .inQuery negated column query =>
    scope.column column ++ .space :: notTokens negated ++ .word .IN :: .space ::
      parenthesised query.inlined
  | .isNull negated column =>
    scope.column column ++ .space :: .word .IS :: .space :: notTokens negated ++ [.word .NULL]
  | .columns left comparison right =>
    scope.column left ++ comparison.tokens ++ scope.column right
  | .datePart part column comparison value =>
    .word (.datePart part) :: parenthesised (scope.column column) ++ comparison.tokens ++
      [shown value]
  | .existsQuery negated query =>
    notTokens negated ++ .word .EXISTS :: .space :: parenthesised query.inlined
  | .fragment negated text values =>
    notTokens negated ++ [.fragment (interleave (Text.split '?' text) values)]
  | .group negated conditions =>
    notTokens negated ++ parenthesised (Condition.listInlined scope conditions)

end

-- The tokens ask for no value.
def Token.Silent (tokens : List Token) : Prop := ∀ token ∈ tokens, '?' ∉ token.text

namespace Token.Silent

variable {tokens more : List Token}

theorem nil : Silent [] := by simp [Silent]

theorem cons {token : Token} (first : '?' ∉ token.text) (rest : Silent tokens) :
    Silent (token :: tokens) :=
  List.forall_mem_cons.2 ⟨first, rest⟩

theorem append (first : Silent tokens) (second : Silent more) : Silent (tokens ++ more) :=
  List.forall_mem_append.2 ⟨first, second⟩

theorem intercalate {separator : List Token} {items : List (List Token)} (between : Silent separator)
    (each : ∀ item ∈ items, Silent item) : Silent (separator.intercalate items) :=
  each_intercalate between each

theorem word (value : Word) : '?' ∉ (Token.word value).text := by
  cases value with
  | datePart part => cases part <;> decide
  | aggregate function => cases function <;> decide
  | _ => decide

theorem spaced (value : Word) : Silent [.space, .word value, .space] :=
  cons (by decide) (cons (word value) (cons (by decide) nil))

theorem words (list : List Word) : Silent (Token.words list) := by
  refine intercalate (cons (by decide) nil) fun item member => ?_
  obtain ⟨value, -, rfl⟩ := List.mem_map.1 member
  exact cons (word value) nil

theorem symbol (comparison : Comparison) : '?' ∉ (Token.symbol comparison).text := by
  cases comparison <;> decide

theorem number (n : Nat) : '?' ∉ (Token.number n).text := by
  intro member
  have digit := Nat.isDigit_of_mem_toDigits (by decide) (by decide) member
  exact absurd digit (by decide)

theorem commaSeparated {items : List (List Token)} (each : ∀ item ∈ items, Silent item) :
    Silent (Token.commaSeparated items) :=
  intercalate (cons (by decide) nil) each

theorem parenthesised (silent : Silent tokens) : Silent (Token.parenthesised tokens) :=
  cons (by decide) (silent.append (cons (by decide) nil))

theorem not_mem_sql (silent : Silent tokens) : '?' ∉ sql tokens := by
  intro member
  obtain ⟨token, present, inside⟩ := List.mem_flatMap.1 member
  exact silent token present inside

end Token.Silent

theorem fixed_silent : Fixed fun token => '?' ∉ token.text where
  word := Silent.word
  symbol := Silent.symbol
  number := Silent.number
  space := by decide
  newline := by decide
  comma := by decide
  dot := by decide
  star := by decide
  leftParen := by decide
  rightParen := by decide

namespace Reference

variable {quote : Quote} {reference : Text}

theorem quoted_silent (plain : '?' ∉ reference) : Silent (quoted quote reference) := by
  refine fixed_silent.quoted fun part present name split => ?_
  unfold segment
  split
  · decide
  · intro member
    have inside : '?' ∈ unquote quote name := by
      have foreign := isForeign_questionMark.quote quote
      simpa [foreign] using member
    exact plain (mem_of_mem_parts present (Text.mem_of_mem_split split (mem_of_mem_unquote inside)))

theorem not_mem_tableName (plain : '?' ∉ reference) : '?' ∉ tableName reference :=
  mt mem_of_mem_tableName plain

theorem not_mem_qualify {table : Option Text} (named : ∀ name ∈ table, '?' ∉ name)
    (plain : '?' ∉ reference) : '?' ∉ qualify quote table reference := by
  intro member
  rcases mem_of_mem_qualify member with dot | inside | ⟨name, present, inside⟩
  · cases dot
  · exact plain inside
  · exact named name present inside

end Reference

theorem Comparison.silent (comparison : Comparison) : Silent comparison.tokens :=
  fixed_silent.comparison comparison

theorem notTokens_silent (negated : Bool) : Silent (notTokens negated) := fixed_silent.notTokens negated

theorem Pagination.silent {separator : Token} (plain : '?' ∉ separator.text) (pagination : Pagination) :
    Silent (pagination.tokens separator) :=
  fixed_silent.pagination plain pagination

section Silent

variable {scope : Scope}

theorem tableTokens_silent {table : Option Text} (plain : ∀ name ∈ table, '?' ∉ name) :
    Silent (tableTokens scope table) := by
  cases table with
  | none => exact .nil
  | some table => exact Reference.quoted_silent (plain table rfl)

variable (named : ∀ name ∈ scope.table, '?' ∉ name)

include named

theorem Scope.writes_silent : scope.Writes (fun token => '?' ∉ token.text) ('?' ∉ ·) ('?' ∉ ·) where
  direct _ plain := Reference.quoted_silent plain
  column _ plain := Reference.quoted_silent (Reference.not_mem_qualify named plain)
  columnOf table _ absent plain := by
    refine Reference.quoted_silent (Reference.not_mem_qualify ?_ plain)
    rintro _ ⟨⟩
    exact Reference.not_mem_tableName absent

theorem Scope.column_silent {reference : Text} (plain : '?' ∉ reference) :
    Silent (scope.column reference) :=
  (Scope.writes_silent named).column reference plain

theorem groupTokens_silent {entries : List SortEntry}
    (plain : ∀ entry ∈ entries, ∀ reference ∈ entry.references, '?' ∉ reference) :
    Silent (groupTokens scope entries) :=
  groupTokens_each fixed_silent (Scope.writes_silent named) plain

theorem orderTokens_silent {separator : Token} (between : '?' ∉ separator.text) {entries : List SortEntry}
    (plain : ∀ entry ∈ entries, ∀ reference ∈ entry.references, '?' ∉ reference) :
    Silent (orderTokens scope separator entries) :=
  orderTokens_each fixed_silent (Scope.writes_silent named) between plain

theorem Join.listTokens_silent {joins : List Join}
    (plain : ∀ join ∈ joins, ∀ reference ∈ join.references, '?' ∉ reference) :
    Silent (Join.listTokens scope joins) :=
  Join.listTokens_each fixed_silent (Scope.writes_silent named) fun join member =>
    Join.holds_iff.2 (plain join member)

theorem SelectItem.listTokens_silent {items : List SelectItem}
    (plain : ∀ item ∈ items, item.Holds ('?' ∉ ·) ('?' ∉ ·))
    (fragments : ∀ text, .fragment text ∈ items → '?' ∉ text) :
    Silent (SelectItem.listTokens scope items) :=
  SelectItem.listTokens_each fixed_silent (Scope.writes_silent named) plain fragments

end Silent

end SqlComposer
