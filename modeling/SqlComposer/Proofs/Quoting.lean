import SqlComposer.Proofs.Every
import SqlComposer.Proofs.Lexing
import SqlComposer.Proofs.Naming
import SqlComposer.Proofs.Writing

set_option autoImplicit false

namespace SqlComposer

open Token

namespace Token.Readable

variable {counts : Nat → Prop} {touching : Bool} {tokens more : List Token}

theorem nil : Readable counts touching [] := trivial

theorem cons (token : Token) (plain : token.Plain counts) (alone : token.run? = none)
    (rest : Readable counts false tokens) : Readable counts touching (token :: tokens) :=
  ⟨fun _ => alone, plain, by simpa [alone] using rest⟩

theorem word (value : Word) (rest : Readable counts true tokens) :
    Readable counts false (.word value :: tokens) :=
  ⟨by simp, trivial, rest⟩

theorem number (n : Nat) (allowed : counts n) (rest : Readable counts true tokens) :
    Readable counts false (.number n :: tokens) :=
  ⟨by simp, allowed, rest⟩

theorem intercalate {separator : List Token} {items : List (List Token)}
    (each : ∀ item ∈ items, Readable counts touching item)
    (joined : ∀ item ∈ items, Readable counts true (separator ++ item)) :
    Readable counts touching (separator.intercalate items) := by
  cases items with
  | nil => trivial
  | cons first rest =>
    have later (pieces : List (List Token)) (within : ∀ piece ∈ pieces, piece ∈ first :: rest) :
        Readable counts true (pieces.flatMap (separator ++ ·)) := by
      induction pieces with
      | nil => trivial
      | cons piece pieces ih =>
        exact (joined piece (within piece (by simp))).append
          (ih fun other member => within other (by simp [member]))
    rw [Text.intercalate_cons]
    exact (each first (by simp)).append (later rest fun piece member => by simp [member])

theorem commaSeparated {items : List (List Token)}
    (each : ∀ item ∈ items, Readable counts false item) :
    Readable counts false (Token.commaSeparated items) :=
  intercalate each fun item member => cons .comma trivial rfl (each item member)

theorem placeholders (count : Nat) : Readable counts false (Token.placeholders count) := by
  apply commaSeparated
  intro item member
  rw [List.eq_of_mem_replicate member]
  exact cons .placeholder trivial rfl trivial

theorem parenthesised (inner : Readable counts false tokens) :
    Readable counts touching (Token.parenthesised tokens) :=
  cons .leftParen trivial rfl (inner.append (cons .rightParen trivial rfl trivial))

theorem words (list : List Word) : Readable counts false (Token.words list) := by
  apply intercalate
  · intro item member
    obtain ⟨value, -, rfl⟩ := List.mem_map.1 member
    exact word value trivial
  · intro item member
    obtain ⟨value, -, rfl⟩ := List.mem_map.1 member
    exact cons .space trivial rfl (word value trivial)

end Token.Readable

namespace Token

def Sealed (counts : Nat → Prop) (tokens : List Token) : Prop :=
  ∀ touching rest, Readable counts false rest → Readable counts touching (tokens ++ rest)

namespace Sealed

variable {counts : Nat → Prop} {tokens more : List Token}

theorem readable (closed : Sealed counts tokens) {touching : Bool} : Readable counts touching tokens := by
  simpa using closed touching [] trivial

theorem single (token : Token) (plain : token.Plain counts) (alone : token.run? = none) :
    Sealed counts [token] :=
  fun _ _ rest => Readable.cons token plain alone rest

theorem append (first : Sealed counts tokens) (second : Sealed counts more) :
    Sealed counts (tokens ++ more) := by
  intro touching rest readable
  rw [List.append_assoc]
  exact first touching _ (second false rest readable)

theorem intercalate {separator : List Token} {items : List (List Token)} (some : items ≠ [])
    (between : Sealed counts separator) (each : ∀ item ∈ items, Sealed counts item) :
    Sealed counts (separator.intercalate items) := by
  obtain ⟨first, rest, rfl⟩ := List.exists_cons_of_ne_nil some
  rw [Text.intercalate_cons]
  have later (pieces : List (List Token)) (within : ∀ piece ∈ pieces, piece ∈ first :: rest) :
      ∀ start, Sealed counts start → Sealed counts (start ++ pieces.flatMap (separator ++ ·)) := by
    induction pieces with
    | nil => intro start closed; simpa using closed
    | cons piece pieces ih =>
      intro start closed
      have next := closed.append (between.append (each piece (within piece (by simp))))
      simpa [List.append_assoc] using ih (fun other member => within other (by simp [member])) _ next
  exact later rest (fun piece member => by simp [member]) first (each first (by simp))

theorem parenthesised (inner : Readable counts false tokens) :
    Sealed counts (Token.parenthesised tokens) := by
  intro touching rest readable
  have whole : Readable counts touching (.leftParen :: (tokens ++ .rightParen :: rest)) :=
    .cons .leftParen trivial rfl (inner.append (.cons .rightParen trivial rfl readable))
  simpa [Token.parenthesised] using whole

end Sealed

theorem sealed_as (counts : Nat → Prop) : Sealed counts [.space, .word .AS, .space] :=
  fun _ _ rest => .cons .space trivial rfl (.word .AS (.cons .space trivial rfl rest))

end Token

namespace Reference

variable (counts : Nat → Prop) (quote : Quote)

theorem sealed_segment (name : Text) : Sealed counts [segment quote name] := by
  unfold segment
  split
  · exact .single .star trivial rfl
  · exact .single _ (by simp [Plain, unquote]) rfl

theorem sealed_dotted (part : Text) : Sealed counts (dotted quote part) := by
  apply Sealed.intercalate
  · simp [Text.split_ne_nil]
  · exact .single .dot trivial rfl
  · intro item member
    obtain ⟨name, -, rfl⟩ := List.mem_map.1 member
    exact sealed_segment counts quote name

theorem sealed_quoted (reference : Text) : Sealed counts (quoted quote reference) := by
  apply Sealed.intercalate
  · simp [parts_ne_nil]
  · exact sealed_as counts
  · intro item member
    obtain ⟨part, -, rfl⟩ := List.mem_map.1 member
    exact sealed_dotted counts quote part

end Reference

variable (counts : Nat → Prop) (scope : Scope)

theorem Scope.sealed_column (reference : Text) : Sealed counts (scope.column reference) :=
  Reference.sealed_quoted counts scope.quote _

theorem Scope.sealed_columnOf (table reference : Text) :
    Sealed counts (scope.columnOf table reference) :=
  Reference.sealed_quoted counts scope.quote _

theorem Comparison.readable (comparison : Comparison) : Readable counts false comparison.tokens := by
  cases comparison <;> simp [Comparison.tokens, Readable, Plain, run?]

theorem notTokens_readable (negated : Bool) {rest : List Token}
    (readable : Readable counts false rest) : Readable counts false (notTokens negated ++ rest) := by
  cases negated with
  | false => exact readable
  | true => exact .word .NOT (.cons .space trivial rfl readable)

theorem tableTokens_readable (table : Option Text) :
    Readable counts true (tableTokens scope table) := by
  cases table with
  | none => trivial
  | some table => exact (Reference.sealed_quoted counts scope.quote table).readable

theorem clauseTokens_readable {A : Type} (entries : List A) (separator : Token) (list : List Word)
    {body : List Token} (plain : separator.Plain counts) (alone : separator.run? = none)
    (readable : Readable counts false body) :
    Readable counts true (clauseTokens entries (separator :: words list ++ [Token.space]) body) := by
  unfold clauseTokens
  split
  · trivial
  · have lead := (Readable.words list).append (Readable.cons .space trivial rfl readable)
    simpa using Readable.cons separator plain alone lead

theorem SortEntry.readable (entry : SortEntry) : Readable counts false (entry.tokens scope) := by
  match entry with
  | .column reference .ascending => exact (scope.sealed_column counts reference).readable
  | .column reference .descending =>
    exact scope.sealed_column counts reference false _ (.cons .space trivial rfl (.word .DESC trivial))
  | .random =>
    exact .word .RAND (.cons .leftParen trivial rfl (.cons .rightParen trivial rfl trivial))

theorem sortTokens_readable (entries : List SortEntry) :
    Readable counts false (commaSeparated (entries.map (SortEntry.tokens scope))) := by
  apply Readable.commaSeparated
  intro item member
  obtain ⟨entry, -, rfl⟩ := List.mem_map.1 member
  exact entry.readable counts scope

theorem groupTokens_readable (entries : List SortEntry) :
    Readable counts true (groupTokens scope entries) :=
  clauseTokens_readable counts entries .space [.GROUP, .BY] trivial rfl
    (sortTokens_readable counts scope entries)

theorem orderTokens_readable (separator : Token) (entries : List SortEntry)
    (plain : separator.Plain counts) (alone : separator.run? = none) :
    Readable counts true (orderTokens scope separator entries) :=
  clauseTokens_readable counts entries separator [.ORDER, .BY] plain alone
    (sortTokens_readable counts scope entries)

theorem Pagination.readable (separator : Token) (pagination : Pagination)
    (plain : separator.Plain counts) (alone : separator.run? = none)
    (limit : counts pagination.limit) (offset : counts pagination.offset) :
    Readable counts true (pagination.tokens separator) := by
  unfold Pagination.tokens
  split
  · trivial
  · refine .cons separator plain alone (.word .LIMIT (.cons .space trivial rfl (.number _ limit ?_)))
    split
    · trivial
    · exact .cons .space trivial rfl (.word .OFFSET (.cons .space trivial rfl (.number _ offset trivial)))

theorem Join.readable (join : Join) : Readable counts false (join.tokens scope) := by
  have condition := (join.comparison.readable counts).append
    (scope.sealed_columnOf counts (Reference.tableName join.table) join.right).readable
  have columns := scope.sealed_column counts join.left false _ condition
  have table := Reference.sealed_quoted counts scope.quote join.table false _
    (.cons .space trivial rfl (.word .ON (.cons .space trivial rfl columns)))
  have whole := (Readable.words join.kind.words).append (.cons .space trivial rfl table)
  simpa [Join.tokens] using whole

theorem Join.list_readable (joins : List Join) : Readable counts true (Join.listTokens scope joins) := by
  apply Readable.intercalate
  · intro item member
    obtain ⟨join, -, rfl⟩ := List.mem_map.1 member
    exact .cons .space trivial rfl (join.readable counts scope)
  · intro item member
    obtain ⟨join, -, rfl⟩ := List.mem_map.1 member
    exact .cons .newline trivial rfl (.cons .space trivial rfl (join.readable counts scope))

theorem SelectItem.readable (item : SelectItem) (noRaw : ∀ text, item ≠ .fragment text) :
    Readable counts false (item.tokens scope) := by
  match item with
  | .column reference => exact (scope.sealed_column counts reference).readable
  | .fragment text => exact absurd rfl (noRaw text)
  | .aggregate function reference name =>
    have argument : Readable counts false
        (if Reference.isWildcard reference then [.star] else scope.column reference) := by
      split
      · exact .cons .star trivial rfl trivial
      · exact (scope.sealed_column counts reference).readable
    have named := Token.sealed_as counts false _ (Reference.sealed_quoted counts scope.quote name).readable
    have whole := Sealed.parenthesised argument true _ named
    simpa [SelectItem.tokens] using Readable.word (.aggregate function) whole

theorem SelectItem.list_readable (items : List SelectItem) (noRaw : ∀ text, .fragment text ∉ items) :
    Readable counts false (SelectItem.listTokens scope items) := by
  unfold SelectItem.listTokens
  split
  · exact .cons .star trivial rfl trivial
  · apply Readable.commaSeparated
    intro tokens member
    obtain ⟨item, present, rfl⟩ := List.mem_map.1 member
    exact item.readable counts scope fun text same => noRaw text (same ▸ present)

theorem assignmentTokens_readable (column : Text) {touching : Bool} :
    Readable counts touching (assignmentTokens scope column) :=
  scope.sealed_column counts column touching _
    ⟨by simp, by simp [Plain], .cons .placeholder trivial rfl trivial⟩

theorem insertTokens_readable (table : Option Text) (rows : List Row) :
    Readable counts false (insertTokens scope table rows) := by
  let columns := (rows.head?.map Row.columns).getD []
  have names : Readable counts false (commaSeparated (columns.map (Reference.quoted scope.quote))) := by
    apply Readable.commaSeparated
    intro item member
    obtain ⟨column, -, rfl⟩ := List.mem_map.1 member
    exact (Reference.sealed_quoted counts scope.quote column).readable
  have groups : Readable counts false
      (commaSeparated (rows.map fun _ => parenthesised (placeholders columns.length))) := by
    apply Readable.commaSeparated
    intro item member
    obtain ⟨row, -, rfl⟩ := List.mem_map.1 member
    exact .parenthesised (.placeholders _)
  have values := Sealed.parenthesised names false _
    (.cons .space trivial rfl (.word .VALUES (.cons .space trivial rfl groups)))
  have named := (tableTokens_readable counts scope table).append (.cons .space trivial rfl values)
  have whole := (Readable.words [.INSERT, .INTO]).append (.cons .space trivial rfl named.mono)
  simpa [insertTokens, columns] using whole

def Predicate.isFragment : Predicate → Bool
  | .fragment .. => true
  | _ => false

theorem distinctTokens_readable (distinct : Bool) {rest : List Token}
    (readable : Readable counts false rest) :
    Readable counts false ((if distinct then [Token.word .DISTINCT, Token.space] else []) ++ rest) := by
  cases distinct with
  | false => exact readable
  | true => exact .word .DISTINCT (.cons .space trivial rfl readable)

-- What is asked of each statement inside.
def Statement.Quotable (counts : Nat → Prop) (s : Statement) : Prop :=
  (∀ text, .fragment text ∉ s.kind.items) ∧ counts s.pagination.limit ∧ counts s.pagination.offset

theorem filterTokens_readable {A : Type} (entries : List A) (word : Word) {body : List Token}
    (readable : Readable counts false body) :
    Readable counts true (clauseTokens entries [.space, .word word, .space] body) :=
  clauseTokens_readable counts entries .space [word] trivial rfl readable

mutual

theorem Statement.tokens_readable (s : Statement)
    (every : s.Every (Statement.Quotable counts) fun predicate => ¬ predicate.isFragment) :
    Readable counts false s.tokens := by
  match s with
  | { settings, kind, distinct, table, joins, wheres, groups, havings, orders, pagination, .. } =>
    let scope := Scope.ofTable settings table
    obtain ⟨⟨noRaw, limit, offset⟩, inWheres, inHavings, inMembers⟩ := (Statement.every_iff _).1 every
    have filter := filterTokens_readable counts wheres .WHERE
      (Condition.listTokens_readable scope wheres inWheres)
    have filterGroups := filterTokens_readable counts havings .HAVING
      (Condition.listTokens_readable scope havings inHavings)
    have named := tableTokens_readable counts scope table
    have ordered := (orderTokens_readable counts scope .space orders trivial rfl).append
      (pagination.readable counts .space trivial rfl limit offset)
    match kind with
    | .unset | .select items =>
      have tail := (groupTokens_readable counts scope groups).append (filterGroups.append ordered)
      have source := named.append ((Join.list_readable counts scope joins).append (filter.append tail))
      have listed := (SelectItem.list_readable counts scope _ noRaw).append
        (.cons .space trivial rfl (.word .FROM (.cons .space trivial rfl source.mono)))
      have whole := Readable.word .SELECT (.cons .space trivial rfl
        (distinctTokens_readable counts distinct listed))
      simpa [Statement.tokens] using whole
    | .insert rows => exact insertTokens_readable counts scope table rows
    | .update row =>
      have assignments : Readable counts false
          (commaSeparated (row.columns.map (assignmentTokens scope))) := by
        apply Readable.commaSeparated
        intro item member
        obtain ⟨column, -, rfl⟩ := List.mem_map.1 member
        exact assignmentTokens_readable counts scope column
      have changes := named.append (.cons .space trivial rfl (.word .SET (.cons .space trivial rfl
        (assignments.append (filter.append ordered)))))
      have whole := Readable.word .UPDATE (.cons .space trivial rfl changes.mono)
      simpa [Statement.tokens] using whole
    | .delete =>
      have source := named.append (filter.append ordered)
      have whole := (Readable.words [.DELETE, .FROM]).append (.cons .space trivial rfl source.mono)
      simpa [Statement.tokens] using whole
    | .truncate =>
      have whole := (Readable.words [.TRUNCATE, .TABLE]).append (.cons .space trivial rfl named.mono)
      simpa [Statement.tokens] using whole
    | .union all members =>
      have inner := Statement.memberTokens_readable all members (inMembers all members rfl)
      have pages := (orderTokens_readable counts scope .newline orders trivial rfl).append
        (pagination.readable counts .newline trivial rfl limit offset)
      simpa [Statement.tokens] using inner.append pages

theorem Statement.memberTokens_readable (all : Bool) (members : List Statement)
    (every : Statement.EveryOf (Statement.Quotable counts) (fun predicate => ¬ predicate.isFragment)
      members) : Readable counts false (Statement.memberTokens all members) := by
  match members with
  | [] => trivial
  | member :: rest =>
    have first := Statement.tokens_readable member every.1
    have later := Statement.laterTokens_readable all rest every.2
    exact Sealed.parenthesised first false _ later.mono

theorem Statement.laterTokens_readable (all : Bool) (members : List Statement)
    (every : Statement.EveryOf (Statement.Quotable counts) (fun predicate => ¬ predicate.isFragment)
      members) : Readable counts true (Statement.laterTokens all members) := by
  match members with
  | [] => trivial
  | member :: rest =>
    have first := Statement.tokens_readable member every.1
    have later := Statement.laterTokens_readable all rest every.2
    have group := Sealed.parenthesised first false _ later.mono
    have keyword := (Readable.words (if all then [.UNION, .ALL] else [.UNION])).append
      (.cons .newline trivial rfl group)
    have whole : Readable counts true (.newline :: _) := .cons .newline trivial rfl keyword
    simpa [Statement.laterTokens] using whole

theorem Condition.listTokens_readable (scope : Scope) (conditions : List Condition)
    (every : Condition.EveryOf (Statement.Quotable counts) (fun predicate => ¬ predicate.isFragment)
      conditions) : Readable counts false (Condition.listTokens scope conditions) := by
  match conditions with
  | [] => trivial
  | ⟨connective, predicate⟩ :: rest =>
    exact (Predicate.tokens_readable scope predicate every.1).append
      (Condition.laterTokens_readable scope rest every.2)

theorem Condition.laterTokens_readable (scope : Scope) (conditions : List Condition)
    (every : Condition.EveryOf (Statement.Quotable counts) (fun predicate => ¬ predicate.isFragment)
      conditions) : Readable counts true (Condition.laterTokens scope conditions) := by
  match conditions with
  | [] => trivial
  | ⟨connective, predicate⟩ :: rest =>
    have body := (Predicate.tokens_readable scope predicate every.1).append
      (Condition.laterTokens_readable scope rest every.2)
    exact .cons .space trivial rfl (.word connective.word (.cons .space trivial rfl body))

theorem Predicate.tokens_readable (scope : Scope) (predicate : Predicate)
    (every : predicate.Every (Statement.Quotable counts) fun predicate => ¬ predicate.isFragment) :
    Readable counts false (predicate.tokens scope) := by
  match predicate with
  | .compare negated column comparison value =>
    have operand := (comparison.readable counts).append (.cons .placeholder trivial rfl .nil)
    simpa [Predicate.tokens] using notTokens_readable counts negated
      (scope.sealed_column counts column false _ operand)
  | .between negated column low high =>
    have high : Readable counts false [.word .AND, .space, .placeholder] :=
      .word .AND (.cons .space trivial rfl (.cons .placeholder trivial rfl .nil))
    have bounds : Readable counts false (_ :: _) := .word .BETWEEN (.cons .space trivial rfl
      (.cons .placeholder trivial rfl (.cons .space trivial rfl high)))
    simpa [Predicate.tokens] using scope.sealed_column counts column false _
      (.cons .space trivial rfl (notTokens_readable counts negated bounds))
  | .inValues negated column values =>
    have list : Readable counts false (_ :: _) := .word .IN (.cons .space trivial rfl
      (.parenthesised (.placeholders values.length)))
    simpa [Predicate.tokens] using scope.sealed_column counts column false _
      (.cons .space trivial rfl (notTokens_readable counts negated list))
  | .inQuery negated column query =>
    have inner := Statement.tokens_readable query every.2
    have list := Readable.word .IN (.cons .space trivial rfl (.parenthesised inner))
    simpa [Predicate.tokens] using scope.sealed_column counts column false _
      (.cons .space trivial rfl (notTokens_readable counts negated list))
  | .isNull negated column =>
    simpa [Predicate.tokens] using scope.sealed_column counts column false _
      (.cons .space trivial rfl (.word .IS (.cons .space trivial rfl
        (notTokens_readable counts negated (.word .NULL .nil)))))
  | .columns left comparison right =>
    have operand := (comparison.readable counts).append (scope.sealed_column counts right).readable
    simpa [Predicate.tokens] using scope.sealed_column counts left false _ operand
  | .datePart part column comparison value =>
    have operand := (comparison.readable counts).append (.cons .placeholder trivial rfl .nil)
    have argument := Sealed.parenthesised (scope.sealed_column counts column).readable true _ operand
    simpa [Predicate.tokens] using Readable.word (.datePart part) argument
  | .existsQuery negated query =>
    have inner := Statement.tokens_readable query every.2
    simpa [Predicate.tokens] using notTokens_readable counts negated
      (.word .EXISTS (.cons .space trivial rfl (.parenthesised inner)))
  | .fragment negated text values => exact absurd rfl every
  | .group negated conditions =>
    have inner := Condition.listTokens_readable scope conditions every.2
    exact notTokens_readable counts negated (.parenthesised inner)

end

def Statement.Counts (s : Statement) (n : Nat) : Prop :=
  ¬ s.Every (fun inner => inner.pagination.limit ≠ n ∧ inner.pagination.offset ≠ n) fun _ => True

def Statement.NoRaw (s : Statement) : Prop :=
  s.Every (fun inner => ∀ text, .fragment text ∉ inner.kind.items) fun predicate =>
    ¬ predicate.isFragment

theorem Statement.plain_of_mem_tokens {s : Statement} (noRaw : s.NoRaw) :
    ∀ token ∈ s.tokens, token.Plain s.Counts := by
  intro token member
  have readable := s.tokens_readable (fun _ => True)
    (noRaw.imp (fun _ items => ⟨items, trivial, trivial⟩) fun _ kept => kept)
  have plain := readable.plain_of_mem token member
  cases token with
  | number n =>
    intro avoided
    have without := s.tokens_readable (· ≠ n)
      (s.every_combine (fun _ items sizes => ⟨items, sizes⟩) (fun _ kept _ => kept) noRaw avoided)
    exact without.plain_of_mem (.number n) member rfl
  | _ => exact plain

def Token.Named (quote : Quote) (tokens : List Token) : Prop :=
  ∃ pieces : List (List Token), tokens = [space, .word .AS, .space].intercalate pieces ∧
    ∀ piece ∈ pieces, ∀ token ∈ piece,
      token = .dot ∨ token = .star ∨ ∃ body, token = .quoted quote body ∧ quote.char ∉ body

theorem Reference.quoted_named (quote : Quote) (reference : Text) :
    Token.Named quote (quoted quote reference) := by
  refine ⟨(parts reference).map (dotted quote), rfl, ?_⟩
  intro piece member token present
  obtain ⟨part, -, rfl⟩ := List.mem_map.1 member
  rcases Text.mem_intercalate present with separator | ⟨item, within, inside⟩
  · exact .inl (List.mem_singleton.1 separator)
  · obtain ⟨name, -, rfl⟩ := List.mem_map.1 within
    obtain rfl := List.mem_singleton.1 inside
    unfold segment
    split
    · exact .inr (.inl rfl)
    · exact .inr (.inr ⟨_, rfl, by simp [unquote]⟩)

theorem quoting_complete (s : Statement) (text : Text) (noRaw : s.NoRaw) (compiles : s.sql = .ok text) :
    text = Token.sql s.tokens ∧ (∀ token ∈ s.tokens, token.Plain s.Counts) ∧
      Token.lex text = some s.tokens ∧
      (∀ words : Rewording, Token.SameButNames s.tokens (s.reword words).tokens) ∧
      ∀ quote reference, Token.Named quote (Reference.quoted quote reference) := by
  have checked : text = Token.sql s.tokens := by
    rw [Statement.sql_eq] at compiles
    cases check : s.check <;> simp_all [Except.map]
  have readable := s.tokens_readable (fun _ => True)
    (noRaw.imp (fun _ items => ⟨items, trivial, trivial⟩) fun _ kept => kept)
  refine ⟨checked, Statement.plain_of_mem_tokens noRaw, ?_, fun words => s.tokens_reword words,
    Reference.quoted_named⟩
  rw [checked]
  exact Token.lexFrom_sql _ s.tokens readable

-- Two kinds of quotes, and a stray one of each in a reference under the other.
theorem quoting_complete_nested :
    let inner : Statement := { Statement.new {} with
      kind := .select [.aggregate .max "x\x22.y" "z"]
      table := some "d"
      pagination := { limit := 10 } }
    let member : Statement := { Statement.new { quote := .double } with
      table := some "a\x60b AS c"
      wheres := [⟨.and, .existsQuery true inner⟩] }
    let s : Statement := { Statement.new {} with kind := .union true [member, inner] }
    let innerText : Text := "SELECT MAX(\x60x\x22\x60.\x60y\x60) AS \x60z\x60 FROM \x60d\x60 LIMIT 10"
    let text : Text := "(SELECT * FROM \x22a\x60b\x22 AS \x22c\x22 WHERE NOT EXISTS (" ++ innerText ++
      "))\nUNION ALL\n(" ++ innerText ++ ")"
    s.NoRaw ∧ s.sql = .ok text ∧ Token.lex text = some s.tokens := by
  intro inner member s innerText text
  have noRaw : s.NoRaw := by
    simp [s, member, inner, Statement.NoRaw, Statement.new, Statement.Every, Statement.EveryOf,
      Condition.EveryOf, Predicate.Every, Kind.items, Predicate.isFragment]
  have compiles : s.sql = .ok text := by decide +kernel
  have complete := quoting_complete s text noRaw compiles
  exact ⟨noRaw, compiles, complete.2.2.1⟩

end SqlComposer
