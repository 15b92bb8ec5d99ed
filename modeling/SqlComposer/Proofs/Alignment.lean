import SqlComposer.Proofs.Inlined

set_option autoImplicit false

namespace SqlComposer

open Token

structure Fills (values : List Value) (tokens shown : List Token) : Prop where
  count : (sql tokens).count '?' = values.length
  fill : ∀ rest text,
    Statement.fill (values ++ rest) (sql tokens ++ text) = sql shown ++ Statement.fill rest text

namespace Fills

variable {values others : List Value} {tokens shown more later : List Token}

theorem fill_cons (values : List Value) {c : Char} (other : c ≠ '?') (text : Text) :
    Statement.fill values (c :: text) = c :: Statement.fill values text := by
  rw [Statement.fill]
  intro value later _ same
  exact other same

theorem fill_silent (values : List Value) {plain : Text} (silent : '?' ∉ plain) (text : Text) :
    Statement.fill values (plain ++ text) = plain ++ Statement.fill values text := by
  induction plain with
  | nil => rfl
  | cons c rest ih =>
    have other : c ≠ '?' := fun same => silent (by simp [same])
    have kept := ih fun member => silent (by simp [member])
    rw [List.cons_append, fill_cons values other, kept]
    rfl

theorem silent (silent : Silent tokens) : Fills [] tokens tokens where
  count := List.count_eq_zero.2 silent.not_mem_sql
  fill rest text := fill_silent rest silent.not_mem_sql text

theorem append (first : Fills values tokens shown) (second : Fills others more later) :
    Fills (values ++ others) (tokens ++ more) (shown ++ later) where
  count := by simp [first.count, second.count]
  fill rest text := by
    rw [sql_append, sql_append, List.append_assoc, List.append_assoc, first.fill, second.fill,
      List.append_assoc]

theorem before (first : Silent more) (second : Fills values tokens shown) :
    Fills values (more ++ tokens) (more ++ shown) :=
  (Fills.silent first).append second

theorem behind (first : Fills values tokens shown) (second : Silent more) :
    Fills values (tokens ++ more) (shown ++ more) := by
  simpa using first.append (Fills.silent second)

theorem parenthesised (inner : Fills values tokens shown) :
    Fills values (Token.parenthesised tokens) (Token.parenthesised shown) := by
  have left : Silent [.leftParen] := .cons (by decide) .nil
  have right : Silent [.rightParen] := .cons (by decide) .nil
  exact (before left inner).behind right

theorem placeholder (value : Value) : Fills [value] [.placeholder] [Token.shown value] where
  count := rfl
  fill rest text := by simp [Token.shown, Value.shown, Statement.fill]

theorem clause {A : Type} {entries : List A} {lead : List Token} (first : Silent lead)
    (given : Fills values tokens shown) (absent : entries = [] → values = []) :
    Fills values (clauseTokens entries lead tokens) (clauseTokens entries lead shown) := by
  cases entries with
  | nil =>
    obtain rfl := absent rfl
    exact silent .nil
  | cons entry rest => exact before first given

theorem intercalate {A : Type} {separator : List Token} (between : Silent separator)
    {items : List A} {asked : A → List Value} {written filled : A → List Token}
    (each : ∀ item ∈ items, Fills (asked item) (written item) (filled item)) :
    Fills (items.flatMap asked) (separator.intercalate (items.map written))
      (separator.intercalate (items.map filled)) := by
  induction items with
  | nil => exact silent .nil
  | cons item rest ih =>
    have first := each item (by simp)
    have others := ih fun other member => each other (by simp [member])
    cases rest with
    | nil => simpa [List.intercalate] using first
    | cons next rest =>
      have joined := first.append (before between others)
      simpa [List.intercalate] using joined

theorem commaSeparated {A : Type} {items : List A} {asked : A → List Value}
    {written filled : A → List Token}
    (each : ∀ item ∈ items, Fills (asked item) (written item) (filled item)) :
    Fills (items.flatMap asked) (Token.commaSeparated (items.map written))
      (Token.commaSeparated (items.map filled)) :=
  intercalate (.cons (by decide) .nil) each

theorem placeholders (values : List Value) :
    Fills values (Token.placeholders values.length) (shownList values) := by
  have listed := commaSeparated fun value (_ : value ∈ values) => placeholder value
  simpa [Token.placeholders, shownList, List.map_const'] using listed

end Fills

theorem interleave_extend (c : Char) (pieces : List Text) (values : List Value) (some : pieces ≠ []) :
    interleave (Text.extend c pieces) values = c :: interleave pieces values := by
  obtain ⟨piece, rest, rfl⟩ := List.exists_cons_of_ne_nil some
  cases values <;> simp [Text.extend, interleave]

theorem Fills.fragment {text : Text} {values : List Value} (count : text.count '?' = values.length) :
    Fills values [.fragment text] [.fragment (interleave (Text.split '?' text) values)] where
  count := by simpa using count
  fill rest behind := by
    simp only [sql_cons, sql_nil, List.append_nil, text_fragment]
    induction text generalizing values with
    | nil =>
      obtain rfl := List.eq_nil_of_length_eq_zero count.symm
      simp [Text.split, interleave]
    | cons c text ih =>
      by_cases same : c = '?'
      · subst same
        obtain ⟨value, values, rfl⟩ : ∃ value later, values = value :: later := by
          cases values with
          | nil => simp at count
          | cons value later => exact ⟨value, later, rfl⟩
        have filled := ih (show text.count '?' = values.length by simpa using count)
        simp [Text.split, interleave, Statement.fill, Value.shown, filled]
      · have filled := ih (by simpa [same] using count)
        rw [List.cons_append, Fills.fill_cons _ same, filled]
        simp [Text.split, same, interleave_extend, Text.split_ne_nil]

def Statement.Quiet (s : Statement) : Prop :=
  s.Unmarked '?' ∧ ∀ text, .fragment text ∈ s.kind.items → '?' ∉ text

def Predicate.Balanced (predicate : Predicate) : Prop :=
  ∀ negated text values, predicate = .fragment negated text values → text.count '?' = values.length

def Predicate.Quiet (predicate : Predicate) : Prop := predicate.Unmarked '?' ∧ predicate.Balanced

theorem insertTokens_fills (scope : Scope) {table : Option Text} {rows : List Row}
    (named : ∀ name ∈ table, '?' ∉ name) (columns : ∀ row ∈ rows, ∀ column ∈ row.columns, '?' ∉ column)
    (checked : checkRows rows = .ok ()) :
    Fills (rowValues rows) (insertTokens scope table rows) (insertInlined scope table rows) := by
  obtain ⟨first, rest, rfl⟩ : ∃ first rest, rows = first :: rest := by
    cases rows with
    | nil => cases checked
    | cons first rest => exact ⟨first, rest, rfl⟩
  have sizes := length_valuesIn_of_checkRows checked
  have lists := Fills.commaSeparated fun row (member : row ∈ first :: rest) => by
    have filled := (Fills.placeholders (row.valuesIn first.columns)).parenthesised
    rw [sizes row member] at filled
    exact filled
  have space : Silent [.space] := .cons (by decide) .nil
  have names : Silent (Token.commaSeparated (first.columns.map (Reference.quoted scope.quote))) := by
    refine .commaSeparated fun item member => ?_
    obtain ⟨column, present, rfl⟩ := List.mem_map.1 member
    exact Reference.quoted_silent (columns first (by simp) column present)
  have source : Silent (tableTokens scope table) := tableTokens_silent named
  have lead := (Silent.words [.INSERT, .INTO]).append (space.append (source.append
    (space.append (names.parenthesised.append (Silent.spaced .VALUES)))))
  simpa [insertTokens, insertInlined, rowValues] using Fills.before lead lists

theorem assignments_fill {scope : Scope} (named : ∀ name ∈ scope.table, '?' ∉ name) {row : Row}
    (columns : ∀ column ∈ row.columns, '?' ∉ column) :
    Fills row.values (Token.commaSeparated (row.columns.map (assignmentTokens scope)))
      (Token.commaSeparated (row.fields.map (assignmentInlined scope))) := by
  have lists := Fills.commaSeparated fun field (member : field ∈ row.fields) => by
    have column := columns field.1 (List.mem_map_of_mem member)
    have equal : Silent [.symbol .equal] := .cons (Silent.symbol .equal) .nil
    exact Fills.before ((scope.column_silent named column).append equal) (Fills.placeholder field.2)
  have values : row.values = row.fields.flatMap fun field => [field.2] := List.map_eq_flatMap
  have inlined : assignmentInlined scope =
      fun field => scope.column field.1 ++ [.symbol .equal, Token.shown field.2] := rfl
  rw [values, inlined, Row.columns, Keyed.keys, List.map_map]
  simpa [Function.comp_def, assignmentTokens] using lists

theorem Scope.named_ofTable {settings : Settings} {table : Option Text}
    (plain : ∀ name ∈ table, '?' ∉ name) : ∀ name ∈ (Scope.ofTable settings table).table, '?' ∉ name := by
  cases table with
  | none => simp [Scope.ofTable]
  | some table =>
    rintro _ ⟨⟩
    exact Reference.not_mem_tableName (plain table rfl)

mutual

theorem Statement.inlined_fills (s : Statement) (quiet : s.Every Statement.Quiet Predicate.Quiet)
    (checked : s.check = .ok ()) : Fills s.values s.tokens s.inlined := by
  match s with
  | { settings, kind, distinct, table, joins, wheres, groups, havings, orders, pagination, .. } =>
    let scope := Scope.ofTable settings table
    obtain ⟨⟨unmarked, fragments⟩, inWheres, inHavings, inMembers⟩ := (Statement.every_iff _).1 quiet
    obtain ⟨plain, references, joined, grouped, ordered⟩ := Statement.unmarked_iff.1 unmarked
    have named : ∀ name ∈ scope.table, '?' ∉ name := Scope.named_ofTable plain
    have source : Silent (tableTokens scope table) := tableTokens_silent plain
    have space : '?' ∉ Token.space.text := by decide
    have newline : '?' ∉ Token.newline.text := by decide
    have pages : Silent (orderTokens scope .space orders ++ pagination.tokens .space) :=
      (orderTokens_silent named space ordered).append (Pagination.silent space pagination)
    have filter (valid : Condition.checkAll wheres = .ok ()) :
        Fills (Condition.listValues wheres)
          (clauseTokens wheres [.space, .word .WHERE, .space] (Condition.listTokens scope wheres))
          (clauseTokens wheres [.space, .word .WHERE, .space] (Condition.listInlined scope wheres)) :=
      (Condition.listInlined_fills scope named wheres inWheres valid).clause (Silent.spaced .WHERE)
        (by rintro rfl; rfl)
    have filterGroups (valid : Condition.checkAll havings = .ok ()) :
        Fills (Condition.listValues havings)
          (clauseTokens havings [.space, .word .HAVING, .space] (Condition.listTokens scope havings))
          (clauseTokens havings [.space, .word .HAVING, .space] (Condition.listInlined scope havings)) :=
      (Condition.listInlined_fills scope named havings inHavings valid).clause (Silent.spaced .HAVING)
        (by rintro rfl; rfl)
    have selected : Silent (SelectItem.listTokens scope kind.items) :=
      SelectItem.listTokens_silent named (Kind.items_holds (Kind.holds_iff.2 references)) fragments
    have distinctly : Silent (if distinct then [.word .DISTINCT, .space] else []) := by
      split
      · exact .cons (Silent.word .DISTINCT) (.cons (by decide) .nil)
      · exact .nil
    have linked := Join.listTokens_silent named joined
    have sorted := groupTokens_silent named grouped
    match kind with
    | .unset | .select _ =>
      obtain ⟨-, inWheres, inHavings, -⟩ : requireTable table = .ok () ∧
          Condition.checkAll wheres = .ok () ∧ Condition.checkAll havings = .ok () ∧
            pagination.validate = .ok () := by
        simpa only [Statement.check, then_eq_ok] using checked
      have lead := (Silent.words [.SELECT]).append ((show Silent [.space] from .cons space .nil).append
        (distinctly.append (selected.append ((Silent.spaced .FROM).append (source.append linked)))))
      have tail := (Fills.before sorted (filterGroups inHavings)).behind pages
      have whole := Fills.before lead ((filter inWheres).append tail)
      simpa [Statement.values, Statement.tokens, Statement.inlined, Token.words, scope] using whole
    | .insert rows =>
      obtain ⟨-, valid⟩ : requireTable table = .ok () ∧ checkRows rows = .ok () := by
        simpa only [Statement.check, then_eq_ok] using checked
      refine insertTokens_fills scope plain (fun row member column inside => ?_) valid
      exact references column (List.mem_flatMap.2 ⟨row, member, inside⟩)
    | .update row =>
      obtain ⟨-, inWheres, -⟩ : requireTable table = .ok () ∧ Condition.checkAll wheres = .ok () ∧
          pagination.validate = .ok () := by
        simpa only [Statement.check, then_eq_ok] using checked
      have lead := (Silent.words [.UPDATE]).append ((show Silent [.space] from .cons space .nil).append
        (source.append (Silent.spaced .SET)))
      have whole := Fills.before lead ((assignments_fill named references).append
        ((filter inWheres).behind pages))
      simpa [Statement.values, Statement.tokens, Statement.inlined, Token.words, scope] using whole
    | .delete =>
      obtain ⟨-, inWheres, -⟩ : requireTable table = .ok () ∧ Condition.checkAll wheres = .ok () ∧
          pagination.validate = .ok () := by
        simpa only [Statement.check, then_eq_ok] using checked
      have lead := (Silent.words [.DELETE, .FROM]).append
        ((show Silent [.space] from .cons space .nil).append source)
      have whole := Fills.before lead ((filter inWheres).behind pages)
      simpa [Statement.values, Statement.tokens, Statement.inlined, scope] using whole
    | .truncate =>
      have lead := (Silent.words [.TRUNCATE, .TABLE]).append
        ((show Silent [.space] from .cons space .nil).append source)
      simpa [Statement.values, Statement.tokens, Statement.inlined, scope] using Fills.silent lead
    | .union all members =>
      obtain ⟨-, inside⟩ : pagination.validate = .ok () ∧ Statement.checkAll members = .ok () := by
        simpa only [Statement.check, then_eq_ok] using checked
      have inner := Statement.memberInlined_fills all members (inMembers all members rfl) inside
      have tail := (orderTokens_silent named newline ordered).append
        (Pagination.silent newline pagination)
      simpa [Statement.values, Statement.tokens, Statement.inlined, scope] using inner.behind tail

theorem Statement.memberInlined_fills (all : Bool) (members : List Statement)
    (quiet : Statement.EveryOf Statement.Quiet Predicate.Quiet members)
    (checked : Statement.checkAll members = .ok ()) :
    Fills (Statement.listValues members) (Statement.memberTokens all members)
      (Statement.memberInlined all members) := by
  match members with
  | [] => exact .silent .nil
  | member :: rest =>
    obtain ⟨first, later⟩ := then_eq_ok.1 checked
    exact (Statement.inlined_fills member quiet.1 first).parenthesised.append
      (Statement.laterInlined_fills all rest quiet.2 later)

theorem Statement.laterInlined_fills (all : Bool) (members : List Statement)
    (quiet : Statement.EveryOf Statement.Quiet Predicate.Quiet members)
    (checked : Statement.checkAll members = .ok ()) :
    Fills (Statement.listValues members) (Statement.laterTokens all members)
      (Statement.laterInlined all members) := by
  match members with
  | [] => exact .silent .nil
  | member :: rest =>
    obtain ⟨first, later⟩ := then_eq_ok.1 checked
    have newline : Silent [.newline] := .cons (by decide) .nil
    have keyword := newline.append
      ((Silent.words (if all then [.UNION, .ALL] else [.UNION])).append newline)
    have whole := Fills.before keyword ((Statement.inlined_fills member quiet.1 first).parenthesised.append
      (Statement.laterInlined_fills all rest quiet.2 later))
    simpa [Statement.listValues, Statement.laterTokens, Statement.laterInlined] using whole

theorem Condition.listInlined_fills (scope : Scope) (named : ∀ name ∈ scope.table, '?' ∉ name)
    (conditions : List Condition) (quiet : Condition.EveryOf Statement.Quiet Predicate.Quiet conditions)
    (checked : Condition.checkAll conditions = .ok ()) :
    Fills (Condition.listValues conditions) (Condition.listTokens scope conditions)
      (Condition.listInlined scope conditions) := by
  match conditions with
  | [] => exact .silent .nil
  | ⟨connective, predicate⟩ :: rest =>
    obtain ⟨first, later⟩ := then_eq_ok.1 checked
    exact (Predicate.inlined_fills scope named predicate quiet.1 first).append
      (Condition.laterInlined_fills scope named rest quiet.2 later)

theorem Condition.laterInlined_fills (scope : Scope) (named : ∀ name ∈ scope.table, '?' ∉ name)
    (conditions : List Condition) (quiet : Condition.EveryOf Statement.Quiet Predicate.Quiet conditions)
    (checked : Condition.checkAll conditions = .ok ()) :
    Fills (Condition.listValues conditions) (Condition.laterTokens scope conditions)
      (Condition.laterInlined scope conditions) := by
  match conditions with
  | [] => exact .silent .nil
  | ⟨connective, predicate⟩ :: rest =>
    obtain ⟨first, later⟩ := then_eq_ok.1 checked
    exact Fills.before (Silent.spaced connective.word)
      ((Predicate.inlined_fills scope named predicate quiet.1 first).append
        (Condition.laterInlined_fills scope named rest quiet.2 later))

theorem Predicate.inlined_fills (scope : Scope) (named : ∀ name ∈ scope.table, '?' ∉ name)
    (predicate : Predicate) (quiet : predicate.Every Statement.Quiet Predicate.Quiet)
    (checked : predicate.check = .ok ()) :
    Fills predicate.values (predicate.tokens scope) (predicate.inlined scope) := by
  have space : Silent [.space] := .cons (by decide) .nil
  match predicate with
  | .compare negated column comparison value =>
    have plain := scope.column_silent named (quiet.1 column (by simp [Predicate.references]))
    have lead := (notTokens_silent negated).append (plain.append comparison.silent)
    simpa [Predicate.values, Predicate.tokens, Predicate.inlined] using
      Fills.before lead (Fills.placeholder value)
  | .between negated column low high =>
    have plain := scope.column_silent named (quiet.1 column (by simp [Predicate.references]))
    have lead := plain.append (space.append ((notTokens_silent negated).append
      ((Silent.words [.BETWEEN]).append space)))
    have bounds := (Fills.placeholder low).append
      (Fills.before (Silent.spaced .AND) (Fills.placeholder high))
    simpa [Predicate.values, Predicate.tokens, Predicate.inlined, Token.words] using
      Fills.before lead bounds
  | .inValues negated column values =>
    have plain := scope.column_silent named (quiet.1 column (by simp [Predicate.references]))
    have lead := plain.append (space.append ((notTokens_silent negated).append
      ((Silent.words [.IN]).append space)))
    simpa [Predicate.values, Predicate.tokens, Predicate.inlined, Token.words] using
      Fills.before lead (Fills.placeholders values).parenthesised
  | .inQuery negated column query =>
    have plain := scope.column_silent named (quiet.1.1 column (by simp [Predicate.references]))
    have inner := Statement.inlined_fills query quiet.2 checked
    have lead := plain.append (space.append ((notTokens_silent negated).append
      ((Silent.words [.IN]).append space)))
    simpa [Predicate.values, Predicate.tokens, Predicate.inlined, Token.words] using
      Fills.before lead inner.parenthesised
  | .isNull negated column =>
    have plain := scope.column_silent named (quiet.1 column (by simp [Predicate.references]))
    have lead := plain.append ((Silent.spaced .IS).append ((notTokens_silent negated).append
      (Silent.words [.NULL])))
    simpa [Predicate.values, Predicate.tokens, Predicate.inlined, Token.words] using Fills.silent lead
  | .columns left comparison right =>
    have first := scope.column_silent named (quiet.1 left (by simp [Predicate.references]))
    have second := scope.column_silent named (quiet.1 right (by simp [Predicate.references]))
    simpa [Predicate.values, Predicate.tokens, Predicate.inlined] using
      Fills.silent (first.append (comparison.silent.append second))
  | .datePart part column comparison value =>
    have plain := scope.column_silent named (quiet.1 column (by simp [Predicate.references]))
    have lead := (Silent.words [.datePart part]).append (plain.parenthesised.append comparison.silent)
    simpa [Predicate.values, Predicate.tokens, Predicate.inlined, Token.words] using
      Fills.before lead (Fills.placeholder value)
  | .existsQuery negated query =>
    have inner := Statement.inlined_fills query quiet.2 checked
    have lead := (notTokens_silent negated).append ((Silent.words [.EXISTS]).append space)
    simpa [Predicate.values, Predicate.tokens, Predicate.inlined, Token.words] using
      Fills.before lead inner.parenthesised
  | .fragment negated text values =>
    have count := quiet.2 negated text values rfl
    exact Fills.before (notTokens_silent negated) (Fills.fragment count)
  | .group negated conditions =>
    have inner := Condition.listInlined_fills scope named conditions quiet.2 checked
    exact Fills.before (notTokens_silent negated) inner.parenthesised

end

theorem nested_balanced (P : Settings → Prop) : Nested P (fun _ => True) Predicate.Balanced where
  new _ _ := trivial
  child _ _ _ := trivial
  edit _ _ _ _ _ := trivial
  compiled _ := trivial
  addWhere _ _ _ := trivial
  havingGroup _ _ _ _ := trivial
  union _ _ := trivial
  predicate _ made := made.balanced
  group _ _ _ := by simp [Predicate.Balanced]
  inQuery _ _ _ _ _ _ := by simp [Predicate.Balanced]
  existsQuery _ _ := by simp [Predicate.Balanced]

theorem Reachable.balanced {P : Settings → Prop} {s : Statement} (reached : Reachable P s) :
    s.Every (fun _ => True) Predicate.Balanced :=
  reached.invariant (nested_balanced P).invariant

/-- Where no builder on the way allowed a question mark in references, and no raw select item has
one, the placeholders of the text are those of the values, each in its own place. -/
theorem placeholders_aligned (s : Statement) (text : Text)
    (reached : Reachable (fun settings => settings.allows '?' = false) s)
    (fragments : s.Every (fun inner => ∀ text, .fragment text ∈ inner.kind.items → '?' ∉ text)
      fun _ => True)
    (compiles : s.sql = .ok text) :
    text.count '?' = s.values.length ∧ s.sqlWith s.values = .ok (Token.sql s.inlined) := by
  have references := reached.unmarked Reference.isForeign_questionMark
  have silent := references.and fragments
  have quiet : s.Every Statement.Quiet Predicate.Quiet :=
    s.every_combine (fun _ own _ => own) (fun _ own balanced => ⟨own.1, balanced⟩) silent
      reached.balanced
  obtain ⟨checked, rfl⟩ : s.check = .ok () ∧ Token.sql s.tokens = text := by
    rw [Statement.sql_eq] at compiles
    obtain ⟨_, checked, same⟩ := map_eq_ok.1 compiles
    exact ⟨checked, same⟩
  have filled := s.inlined_fills quiet checked
  refine ⟨filled.count, ?_⟩
  have whole := filled.fill [] []
  rw [Statement.sqlWith, compiles]
  simpa [Except.map, Statement.fill] using whole

-- A value with a question mark in it, before a subquery whose value comes later.
theorem placeholders_aligned_exists :
    let named : Statement := Statement.touched { Statement.new {} with table := some "a" }
    let outer := named.addWhere .and (.fragment false "x = ? OR y" [.text "?"])
    let child := Statement.touched { outer.child true with table := some "b" }
    let inner := child.addWhere .and (.compare false "z" .like (.text "c"))
    let s := outer.addWhere .or (.existsQuery true inner)
    let written (first second : Text) : Text := "SELECT * FROM \x60a\x60 WHERE x = " ++ first ++
      " OR y OR NOT EXISTS (SELECT * FROM \x60b\x60 WHERE \x60b\x60.\x60z\x60 LIKE " ++ second ++ ")"
    Reachable (fun settings => settings.allows '?' = false) s ∧
      s.sql = .ok (written "?" "?") ∧ (written "?" "?").count '?' = s.values.length ∧
      s.sqlWith s.values = .ok (written "'?'" "'c'") := by
  intro named outer child inner s written
  let fragment : PredicateInput := .fragment false "x = ? OR y" [.text "?"]
  let compare : PredicateInput := .compare false "z" (.typed .like) (.text "c")
  have start : Reachable (fun settings => settings.allows '?' = false) (.new {}) := .start .blank rfl rfl
  have toNamed : (Edit.fromTable "a").apply (.new {}) = .ok named :=
    Statement.setTable_eq_ok.2 ⟨"a", by decide +kernel, rfl⟩
  have toOuter : (Edit.wherePredicate (.typed .and) fragment).apply named = .ok outer :=
    Statement.wherePredicate_eq_ok.2 ⟨.and, _, rfl, by rfl, rfl⟩
  have toChild : (Edit.table "b").apply (outer.child true) = .ok child :=
    Statement.setTable_eq_ok.2 ⟨"b", by decide +kernel, rfl⟩
  have toInner : (Edit.wherePredicate (.typed .and) compare).apply child = .ok inner :=
    Statement.wherePredicate_eq_ok.2 ⟨.and, _, rfl,
      compareInput_eq_ok.2 ⟨"z", .like, by decide +kernel, rfl, rfl⟩, rfl⟩
  have outerReached := (start.edit (.fromTable "a") rfl toNamed).edit _ rfl toOuter
  have innerReached := ((outerReached.child true).edit (.table "b") rfl toChild).edit _ rfl toInner
  have built : (Call.build [.edit (.table "b"), .edit (.wherePredicate (.typed .and) compare)]
      (outer.child true)).result = .ok inner :=
    Call.build_edit toChild (Call.build_edit toInner rfl)
  have reached := outerReached.existsQuery .or true built innerReached
  have compiles : s.sql = .ok (written "?" "?") := by decide +kernel
  have fragments : s.Every (fun inner => ∀ text, .fragment text ∈ inner.kind.items → '?' ∉ text)
      fun _ => True := by
    simp [s, inner, child, outer, named, Statement.addWhere, Statement.touched, Statement.child,
      Statement.new, Statement.Every, Condition.EveryOf, Predicate.Every, Kind.items]
  have aligned := placeholders_aligned s _ reached fragments compiles
  have inlined : Token.sql s.inlined = written "'?'" "'c'" := by decide +kernel
  exact ⟨reached, compiles, aligned.1, inlined ▸ aligned.2⟩

end SqlComposer
