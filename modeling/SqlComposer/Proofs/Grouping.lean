import SqlComposer.Proofs.WellFormed
import SqlComposer.Statement.Tokens

set_option autoImplicit false

namespace SqlComposer

namespace Token

def isFlat : Token → Bool
  | .leftParen | .rightParen | .word .SET | .word .VALUES | .word .RAND => false
  | _ => true

def isName : Token → Bool
  | .star | .quoted .. => true
  | _ => false

inductive Grouped : List Token → Prop where
  | nil : Grouped []
  | flat {rest : List Token} (token : Token) (plain : token.isFlat) (later : Grouped rest) :
    Grouped (token :: rest)
  | group {inner rest : List Token} (some : inner ≠ []) (within : Grouped inner)
    (later : Grouped rest) : Grouped (.leftParen :: (inner ++ .rightParen :: rest))
  | random {rest : List Token} (later : Grouped rest) :
    Grouped (.word .RAND :: .leftParen :: .rightParen :: rest)
  | set {rest : List Token} (name : Token) (named : name.isName) (later : Grouped rest) :
    Grouped (.word .SET :: .space :: name :: rest)
  | values {inner rest : List Token} (within : Grouped inner) (later : Grouped rest) :
    Grouped (.word .VALUES :: .space :: .leftParen :: .placeholder :: (inner ++ .rightParen :: rest))

namespace Grouped

variable {tokens more inner : List Token}

theorem append (first : Grouped tokens) (second : Grouped more) : Grouped (tokens ++ more) := by
  induction first with
  | nil => exact second
  | flat token plain _ ih => exact .flat token plain ih
  | group some within _ _ ih => simpa using Grouped.group some within ih
  | random _ ih => exact .random ih
  | set name named _ ih => exact .set name named ih
  | values within _ _ ih => simpa using Grouped.values within ih

theorem of_flat (plain : tokens.all isFlat) : Grouped tokens := by
  induction tokens with
  | nil => exact .nil
  | cons token rest ih =>
    simp only [List.all_cons, Bool.and_eq_true] at plain
    exact .flat token plain.1 (ih plain.2)

theorem parenthesised (some : inner ≠ []) (within : Grouped inner) :
    Grouped (Token.parenthesised inner) := by
  simpa [Token.parenthesised] using Grouped.group some within .nil

theorem commaSeparated {items : List (List Token)} (each : ∀ item ∈ items, Grouped item) :
    Grouped (Token.commaSeparated items) :=
  Text.intercalate_closed .nil (fun _ _ => append) (of_flat rfl) each

theorem clause {A : Type} {entries : List A} {lead body : List Token} (led : Grouped lead)
    (inside : Grouped body) : Grouped (clauseTokens entries lead body) := by
  unfold clauseTokens
  split
  · exact .nil
  · exact led.append inside

end Grouped

theorem all_intercalate {separator : List Token} {items : List (List Token)} (test : Token → Bool)
    (between : separator.all test) (each : ∀ item ∈ items, item.all test) :
    (separator.intercalate items).all test := by
  apply Text.intercalate_closed (P := fun tokens => tokens.all test) rfl _ between each
  intro a b first second
  simp [first, second]

theorem placeholders_succ (count : Nat) :
    placeholders (count + 1) = .placeholder :: (List.replicate count [comma, placeholder]).flatten := by
  simp [placeholders, commaSeparated, List.replicate_succ, Text.intercalate_cons, List.flatMap]

@[simp] theorem flat_placeholders (count : Nat) : (placeholders count).all isFlat := by
  apply all_intercalate
  · rfl
  · intro item member
    rw [List.eq_of_mem_replicate member]
    rfl

end Token

open Token

namespace Reference

variable (quote : Quote)

theorem isName_segment (name : Text) : (segment quote name).isName := by
  unfold segment
  split <;> rfl

theorem flat_dotted (part : Text) : (dotted quote part).all isFlat := by
  apply all_intercalate
  · rfl
  · intro item member
    obtain ⟨name, -, rfl⟩ := List.mem_map.1 member
    unfold segment
    split <;> rfl

@[simp] theorem flat_quoted (reference : Text) : (quoted quote reference).all isFlat := by
  apply all_intercalate
  · rfl
  · intro item member
    obtain ⟨part, -, rfl⟩ := List.mem_map.1 member
    exact flat_dotted quote part

theorem dotted_eq_cons (part : Text) :
    ∃ name rest, dotted quote part = name :: rest ∧ name.isName := by
  obtain ⟨first, rest, split⟩ := List.exists_cons_of_ne_nil (Text.split_ne_nil '.' part)
  exact ⟨segment quote first, _, by rw [dotted, split, List.map_cons, Text.intercalate_cons]; rfl,
    isName_segment quote first⟩

theorem quoted_eq_cons (reference : Text) :
    ∃ name rest, quoted quote reference = name :: rest ∧ name.isName := by
  obtain ⟨first, later, cut⟩ := List.exists_cons_of_ne_nil (parts_ne_nil reference)
  obtain ⟨name, rest, same, named⟩ := dotted_eq_cons quote first
  exact ⟨name, _, by rw [quoted, cut, List.map_cons, Text.intercalate_cons, same]; rfl, named⟩

end Reference

variable (scope : Scope)

@[simp] theorem Scope.flat_column (reference : Text) : (scope.column reference).all isFlat :=
  Reference.flat_quoted scope.quote _

@[simp] theorem Scope.flat_columnOf (table reference : Text) :
    (scope.columnOf table reference).all isFlat :=
  Reference.flat_quoted scope.quote _

theorem Scope.column_eq_cons (reference : Text) :
    ∃ name rest, scope.column reference = name :: rest ∧ name.isName :=
  Reference.quoted_eq_cons scope.quote _

@[simp] theorem Comparison.flat_tokens (comparison : Comparison) : comparison.tokens.all isFlat := by
  cases comparison <;> rfl

@[simp] theorem flat_notTokens (negated : Bool) : (notTokens negated).all isFlat := by
  cases negated <;> rfl

@[simp] theorem flat_tableTokens (table : Option Text) : (tableTokens scope table).all isFlat := by
  cases table with
  | none => rfl
  | some table => exact Reference.flat_quoted scope.quote table

theorem Pagination.flat_tokens (separator : Token) (plain : separator.isFlat)
    (pagination : Pagination) : (pagination.tokens separator).all isFlat := by
  unfold Pagination.tokens
  split
  · rfl
  · rw [List.cons_append, List.all_cons, plain]
    split <;> rfl

theorem Join.flat_tokens (join : Join) : (join.tokens scope).all isFlat := by
  have kind : (words join.kind.words).all isFlat := by cases join.kind <;> rfl
  simp [Join.tokens, kind, isFlat]

theorem Join.flat_listTokens (joins : List Join) : (Join.listTokens scope joins).all isFlat := by
  apply all_intercalate
  · rfl
  · intro item member
    obtain ⟨join, -, rfl⟩ := List.mem_map.1 member
    simp [join.flat_tokens, isFlat]

namespace Token.Grouped

theorem not (negated : Bool) {tokens : List Token} (grouped : Grouped tokens) :
    Grouped (notTokens negated ++ tokens) :=
  (of_flat (flat_notTokens negated)).append grouped

theorem sorted (entries : List SortEntry) :
    Grouped (Token.commaSeparated (entries.map (SortEntry.tokens scope))) := by
  apply commaSeparated
  intro item member
  obtain ⟨entry, -, rfl⟩ := List.mem_map.1 member
  match entry with
  | .column reference .ascending => exact of_flat (scope.flat_column reference)
  | .column reference .descending => exact of_flat (by simp [SortEntry.tokens, isFlat])
  | .random => exact .random .nil

theorem groups (entries : List SortEntry) : Grouped (groupTokens scope entries) :=
  clause (of_flat rfl) (sorted scope entries)

theorem orders (separator : Token) (plain : separator.isFlat) (entries : List SortEntry) :
    Grouped (orderTokens scope separator entries) :=
  clause (.flat separator plain (of_flat rfl)) (sorted scope entries)

theorem selected (items : List SelectItem) : Grouped (SelectItem.listTokens scope items) := by
  unfold SelectItem.listTokens
  split
  · exact of_flat rfl
  · apply commaSeparated
    intro tokens member
    obtain ⟨item, -, rfl⟩ := List.mem_map.1 member
    match item with
    | .column reference => exact of_flat (scope.flat_column reference)
    | .fragment text => exact of_flat rfl
    | .aggregate function reference name =>
      have argument : (if Reference.isWildcard reference then [star] else scope.column reference).all
          isFlat := by
        split
        · rfl
        · exact scope.flat_column reference
      have some : (if Reference.isWildcard reference then [star] else scope.column reference) ≠ [] := by
        obtain ⟨first, rest, column, -⟩ := scope.column_eq_cons reference
        split <;> simp [column]
      have named : Grouped ([.space, .word .AS, .space] ++ Reference.quoted scope.quote name) :=
        of_flat (by simp [isFlat])
      have whole := (parenthesised some (of_flat argument)).append named
      simpa [SelectItem.tokens] using Grouped.flat (.word (.aggregate function)) rfl whole

-- The first of the groups stands right behind the word.
theorem listed {rows : List Row} (some : rows ≠ []) (count : Nat) :
    Grouped (.word .VALUES :: .space :: Token.commaSeparated
      (rows.map fun _ => Token.parenthesised (placeholders (count + 1)))) := by
  obtain ⟨first, rest, rfl⟩ := List.exists_cons_of_ne_nil some
  let marks : List Token := (List.replicate count [comma, placeholder]).flatten
  have marked : placeholders (count + 1) = .placeholder :: marks := placeholders_succ count
  have flat : Grouped marks := of_flat (by simp [marks, isFlat, List.all_flatten])
  have later (rows : List Row) :
      Grouped (rows.flatMap fun _ => .comma :: Token.parenthesised (.placeholder :: marks)) := by
    induction rows with
    | nil => exact .nil
    | cons row rest ih =>
      have group : Grouped (Token.parenthesised (.placeholder :: marks)) :=
        parenthesised (by simp) (.flat .placeholder rfl flat)
      exact (Grouped.flat .comma rfl group).append ih
  have split : Token.commaSeparated ((first :: rest).map fun _ =>
      Token.parenthesised (placeholders (count + 1))) =
        Token.parenthesised (placeholders (count + 1)) ++
          rest.flatMap fun _ => .comma :: Token.parenthesised (placeholders (count + 1)) := by
    rw [Token.commaSeparated, List.map_cons, Text.intercalate_cons, List.flatMap_map]
    rfl
  rw [split, marked]
  have whole := Grouped.values flat (later rest)
  simpa only [Token.parenthesised, List.cons_append, List.append_assoc, List.nil_append] using whole

theorem inserted (table : Option Text) {rows : List Row} (solid : (Kind.insert rows).Solid) :
    Grouped (insertTokens scope table rows) := by
  obtain ⟨some, columns⟩ := solid
  obtain ⟨first, rest, rfl⟩ := List.exists_cons_of_ne_nil some
  obtain ⟨column, others, named⟩ := List.exists_cons_of_ne_nil (columns first (by simp))
  have names : Grouped (Token.parenthesised
      (Token.commaSeparated (first.columns.map (Reference.quoted scope.quote)))) := by
    apply parenthesised
    · obtain ⟨name, more, quoted, -⟩ := Reference.quoted_eq_cons scope.quote column
      simp [named, Token.commaSeparated, Text.intercalate_cons, quoted]
    · apply commaSeparated
      intro item member
      obtain ⟨reference, -, rfl⟩ := List.mem_map.1 member
      exact of_flat (Reference.flat_quoted scope.quote reference)
  have size : first.columns.length = others.length + 1 := by simp [named]
  have groups := Grouped.flat .space rfl (listed some others.length)
  have target : Grouped (words [.INSERT, .INTO] ++ .space :: tableTokens scope table ++ [space]) :=
    of_flat (by simp [words, isFlat])
  have whole := target.append (names.append groups)
  simpa [insertTokens, size] using whole

theorem assigned {columns : List Text} (some : columns ≠ []) :
    Grouped (.word .SET :: .space ::
      Token.commaSeparated (columns.map (assignmentTokens scope))) := by
  obtain ⟨column, others, rfl⟩ := List.exists_cons_of_ne_nil some
  obtain ⟨name, rest, written, named⟩ := scope.column_eq_cons column
  have first : rest.all isFlat := by
    have flat := scope.flat_column column
    simp only [written, List.all_cons, Bool.and_eq_true] at flat
    exact flat.2
  have later : Grouped (rest ++ [.symbol .equal, .placeholder] ++
      others.flatMap fun column => .comma :: assignmentTokens scope column) :=
    of_flat (by simp [first, assignmentTokens, isFlat])
  have whole := Grouped.set name named later
  simpa [Token.commaSeparated, Text.intercalate_cons, List.flatMap_map, assignmentTokens, written]
    using whole

end Token.Grouped

-- No statement begins like a list of values.
theorem Statement.tokens_eq_cons {s : Statement} (wellFormed : s.kind.WellFormed) :
    ∃ token rest, s.tokens = token :: rest ∧ token ≠ .placeholder := by
  match s with
  | { kind, .. } =>
    cases kind with
    | union all members =>
      obtain ⟨first, rest, rfl, -⟩ := wellFormed.union
      exact ⟨.leftParen, _, rfl, by simp⟩
    | unset | select => exact ⟨.word .SELECT, _, rfl, by simp⟩
    | insert => exact ⟨.word .INSERT, _, rfl, by simp⟩
    | update => exact ⟨.word .UPDATE, _, rfl, by simp⟩
    | delete => exact ⟨.word .DELETE, _, rfl, by simp⟩
    | truncate => exact ⟨.word .TRUNCATE, _, rfl, by simp⟩

theorem Statement.tokens_ne_nil {s : Statement} (wellFormed : s.kind.WellFormed) : s.tokens ≠ [] := by
  obtain ⟨token, rest, same, -⟩ := Statement.tokens_eq_cons wellFormed
  simp [same]

theorem Predicate.tokens_ne_nil (predicate : Predicate) : predicate.tokens scope ≠ [] := by
  cases predicate with
  | columns left comparison right =>
    obtain ⟨name, rest, same, -⟩ := scope.column_eq_cons left
    simp [Predicate.tokens, same]
  | _ => simp [Predicate.tokens, Token.parenthesised]

theorem Condition.listTokens_ne_nil {conditions : List Condition} (some : conditions ≠ []) :
    Condition.listTokens scope conditions ≠ [] := by
  obtain ⟨first, rest, rfl⟩ := List.exists_cons_of_ne_nil some
  simp [Condition.listTokens_cons, Predicate.tokens_ne_nil]

mutual

theorem Statement.tokens_grouped (s : Statement)
    (every : s.Every Statement.WellFormed Predicate.WellFormed) : Grouped s.tokens := by
  match s with
  | { settings, kind, distinct, table, joins, wheres, groups, havings, orders, pagination, .. } =>
    let scope := Scope.ofTable settings table
    obtain ⟨wellFormed, inWheres, inHavings, inMembers⟩ := (Statement.every_iff _).1 every
    have named : Grouped (tableTokens scope table) := .of_flat (flat_tableTokens scope table)
    have filter : Grouped (clauseTokens wheres [.space, .word .WHERE, .space] _) :=
      .clause (.of_flat rfl) (Condition.listTokens_grouped scope wheres inWheres)
    have filterGroups : Grouped (clauseTokens havings [.space, .word .HAVING, .space] _) :=
      .clause (.of_flat rfl) (Condition.listTokens_grouped scope havings inHavings)
    have pages : Grouped (orderTokens scope .space orders ++ pagination.tokens .space) :=
      (Grouped.orders scope .space rfl orders).append
        (.of_flat (pagination.flat_tokens .space rfl))
    have selected := Grouped.selected scope kind.items
    match kind with
    | .unset | .select items =>
      have tail := filter.append ((Grouped.groups scope groups).append (filterGroups.append pages))
      have source := named.append ((Grouped.of_flat (Join.flat_listTokens scope joins)).append tail)
      have listed := selected.append (.flat .space rfl (.flat (.word .FROM) rfl
        (.flat .space rfl source)))
      have quantified : Grouped (if distinct then [.word .DISTINCT, .space] else []) :=
        .of_flat (by cases distinct <;> rfl)
      have whole := Grouped.flat (.word .SELECT) rfl (.flat .space rfl (quantified.append listed))
      simpa [Statement.tokens] using whole
    | .insert rows => exact .inserted scope table wellFormed.kind.insert
    | .update row =>
      have assigned := Grouped.assigned scope wellFormed.kind.update
      have changes := assigned.append (filter.append pages)
      have whole := Grouped.flat (.word .UPDATE) rfl (.flat .space rfl
        (named.append (.flat .space rfl changes)))
      simpa [Statement.tokens] using whole
    | .delete =>
      have source := named.append (filter.append pages)
      have lead : Grouped (words [.DELETE, .FROM] ++ [.space]) := .of_flat rfl
      have whole := lead.append source
      simpa [Statement.tokens] using whole
    | .truncate =>
      have lead : Grouped (words [.TRUNCATE, .TABLE] ++ [.space]) := .of_flat rfl
      have whole := lead.append named
      simpa [Statement.tokens] using whole
    | .union all members =>
      have inner := Statement.memberTokens_grouped all members (inMembers all members rfl)
      have ordered := (Grouped.orders scope .newline rfl orders).append
        (.of_flat (pagination.flat_tokens .newline rfl))
      simpa [Statement.tokens] using inner.append ordered

theorem Statement.memberTokens_grouped (all : Bool) (members : List Statement)
    (every : Statement.EveryOf Statement.WellFormed Predicate.WellFormed members) :
    Grouped (Statement.memberTokens all members) := by
  match members with
  | [] => exact .nil
  | member :: rest =>
    have some := Statement.tokens_ne_nil ((Statement.every_iff member).1 every.1).1.kind
    exact (Grouped.parenthesised some (Statement.tokens_grouped member every.1)).append
      (Statement.laterTokens_grouped all rest every.2)

theorem Statement.laterTokens_grouped (all : Bool) (members : List Statement)
    (every : Statement.EveryOf Statement.WellFormed Predicate.WellFormed members) :
    Grouped (Statement.laterTokens all members) := by
  match members with
  | [] => exact .nil
  | member :: rest =>
    have some := Statement.tokens_ne_nil ((Statement.every_iff member).1 every.1).1.kind
    have group := (Grouped.parenthesised some (Statement.tokens_grouped member every.1)).append
      (Statement.laterTokens_grouped all rest every.2)
    have keyword : Grouped (.newline :: words (if all then [.UNION, .ALL] else [.UNION])) :=
      .of_flat (by cases all <;> rfl)
    simpa [Statement.laterTokens] using keyword.append (.flat .newline rfl group)

theorem Condition.listTokens_grouped (scope : Scope) (conditions : List Condition)
    (every : Condition.EveryOf Statement.WellFormed Predicate.WellFormed conditions) :
    Grouped (Condition.listTokens scope conditions) := by
  match conditions with
  | [] => exact .nil
  | ⟨_, predicate⟩ :: rest =>
    exact (Predicate.tokens_grouped scope predicate every.1).append
      (Condition.laterTokens_grouped scope rest every.2)

theorem Condition.laterTokens_grouped (scope : Scope) (conditions : List Condition)
    (every : Condition.EveryOf Statement.WellFormed Predicate.WellFormed conditions) :
    Grouped (Condition.laterTokens scope conditions) := by
  match conditions with
  | [] => exact .nil
  | ⟨connective, predicate⟩ :: rest =>
    have body := (Predicate.tokens_grouped scope predicate every.1).append
      (Condition.laterTokens_grouped scope rest every.2)
    have lead : Grouped [.space, .word connective.word, .space] :=
      .of_flat (by cases connective <;> rfl)
    exact lead.append body

theorem Predicate.tokens_grouped (scope : Scope) (predicate : Predicate)
    (every : predicate.Every Statement.WellFormed Predicate.WellFormed) :
    Grouped (predicate.tokens scope) := by
  match predicate with
  | .compare .. | .between .. | .isNull .. | .columns .. | .fragment .. =>
    exact .of_flat (by simp [Predicate.tokens, isFlat])
  | .inValues negated column values =>
    have lead : Grouped (scope.column column ++ .space :: notTokens negated ++ [.word .IN, .space]) :=
      .of_flat (by simp [isFlat])
    have some : placeholders values.length ≠ [] := by
      obtain ⟨value, rest, rfl⟩ := List.exists_cons_of_ne_nil every
      simp [placeholders_succ]
    have group := Grouped.parenthesised some (.of_flat (flat_placeholders values.length))
    simpa [Predicate.tokens] using lead.append group
  | .inQuery negated column query =>
    have lead : Grouped (scope.column column ++ .space :: notTokens negated ++ [.word .IN, .space]) :=
      .of_flat (by simp [isFlat])
    have some := Statement.tokens_ne_nil ((Statement.every_iff query).1 every.2).1.kind
    have group := Grouped.parenthesised some (Statement.tokens_grouped query every.2)
    simpa [Predicate.tokens] using lead.append group
  | .datePart part column comparison value =>
    obtain ⟨name, rest, same, -⟩ := scope.column_eq_cons column
    have group := Grouped.parenthesised (by simp [same]) (.of_flat (scope.flat_column column))
    have operand : Grouped (comparison.tokens ++ [.placeholder]) := .of_flat (by simp [isFlat])
    simpa [Predicate.tokens] using Grouped.flat (.word (.datePart part)) rfl (group.append operand)
  | .existsQuery negated query =>
    have lead : Grouped (notTokens negated ++ [.word .EXISTS, .space]) :=
      .of_flat (by simp [isFlat])
    have some := Statement.tokens_ne_nil ((Statement.every_iff query).1 every.2).1.kind
    have group := Grouped.parenthesised some (Statement.tokens_grouped query every.2)
    simpa [Predicate.tokens] using lead.append group
  | .group negated conditions =>
    have inner := Condition.listTokens_grouped scope conditions every.2
    have some := Condition.listTokens_ne_nil scope every.1
    exact .not negated (.parenthesised some inner)

end

end SqlComposer
