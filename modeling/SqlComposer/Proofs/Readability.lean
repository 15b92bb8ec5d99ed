import SqlComposer.Proofs.Outline
import SqlComposer.Proofs.Quoting

set_option autoImplicit false

namespace SqlComposer

open Token

mutual

/-- The predicates are of one kind and are written with the same words, columns and subqueries, and
with as many placeholders. -/
def Predicate.SameShape (scope : Scope) : Predicate → Predicate → Prop
  | .compare negated column comparison _, .compare negated' column' comparison' _ =>
    negated = negated' ∧ Token.sql (scope.column column) = Token.sql (scope.column column') ∧
      comparison = comparison'
  | .between negated column _ _, .between negated' column' _ _ =>
    negated = negated' ∧ Token.sql (scope.column column) = Token.sql (scope.column column')
  | .inValues negated column values, .inValues negated' column' values' =>
    negated = negated' ∧ Token.sql (scope.column column) = Token.sql (scope.column column') ∧
      values.length = values'.length
  | .inQuery negated column query, .inQuery negated' column' query' =>
    negated = negated' ∧ Token.sql (scope.column column) = Token.sql (scope.column column') ∧
      query.sql = query'.sql
  | .isNull negated column, .isNull negated' column' =>
    negated = negated' ∧ Token.sql (scope.column column) = Token.sql (scope.column column')
  | .columns left comparison right, .columns left' comparison' right' =>
    Token.sql (scope.column left) = Token.sql (scope.column left') ∧ comparison = comparison' ∧
      Token.sql (scope.column right) = Token.sql (scope.column right')
  | .datePart part column comparison _, .datePart part' column' comparison' _ =>
    part = part' ∧ Token.sql (scope.column column) = Token.sql (scope.column column') ∧
      comparison = comparison'
  | .existsQuery negated query, .existsQuery negated' query' =>
    negated = negated' ∧ query.sql = query'.sql
  | .fragment negated text _, .fragment negated' text' _ => negated = negated' ∧ text = text'
  | .group negated conditions, .group negated' conditions' =>
    negated = negated' ∧ Condition.SameShape scope conditions conditions'
  | _, _ => False

-- The connective of the first condition says nothing.
def Condition.SameShape (scope : Scope) : List Condition → List Condition → Prop
  | [], [] => True
  | ⟨_, predicate⟩ :: rest, ⟨_, predicate'⟩ :: rest' =>
    predicate.SameShape scope predicate' ∧ Condition.SameLater scope rest rest'
  | _, _ => False

def Condition.SameLater (scope : Scope) : List Condition → List Condition → Prop
  | [], [] => True
  | ⟨connective, predicate⟩ :: rest, ⟨connective', predicate'⟩ :: rest' =>
    connective = connective' ∧ predicate.SameShape scope predicate' ∧
      Condition.SameLater scope rest rest'
  | _, _ => False

end

theorem Connective.word_injective {a b : Connective} (same : a.word = b.word) : a = b := by
  cases a <;> cases b <;> first | rfl | cases same

theorem Statement.sql_eq_of_tokens {s t : Statement} (first : s.check = .ok ())
    (second : t.check = .ok ()) (same : s.tokens = t.tokens) : s.sql = t.sql := by
  rw [Statement.sql_eq, Statement.sql_eq, first, second, same]

-- Two lists that begin with a predicate have equal tokens only part by part.
theorem Predicate.outline_eq_of_append (scope : Scope) {p q : Predicate} {rest rest' : List Condition}
    (every : p.Every Statement.WellFormed Predicate.WellFormed)
    (every' : q.Every Statement.WellFormed Predicate.WellFormed)
    (same : p.tokens scope ++ Condition.laterTokens scope rest =
      q.tokens scope ++ Condition.laterTokens scope rest') :
    p.outline scope = q.outline scope ∧
      Condition.laterTokens scope rest = Condition.laterTokens scope rest' := by
  have first := Outline.read_tokens scope p every (Condition.continues_laterTokens scope rest)
  have second := Outline.read_tokens scope q every' (Condition.continues_laterTokens scope rest')
  rw [same, second] at first
  exact Prod.mk.inj (Option.some.inj first.symm)

mutual

theorem Predicate.sameShape_of_outline (scope : Scope) (p q : Predicate)
    (every : p.Every Statement.WellFormed Predicate.WellFormed)
    (every' : q.Every Statement.WellFormed Predicate.WellFormed) (checked : p.check = .ok ())
    (checked' : q.check = .ok ()) (same : p.outline scope = q.outline scope) :
    p.SameShape scope q := by
  match p with
  | .compare .. | .between .. | .inValues .. | .isNull .. | .columns .. | .datePart .. | .fragment .. =>
    cases q <;> simp_all [Predicate.outline, Predicate.SameShape]
  | .inQuery negated column query =>
    cases q with
    | inQuery negated' column' query' =>
      obtain ⟨negations, columns, tokens⟩ := Outline.inQuery.inj same
      exact ⟨negations, congrArg Token.sql columns, Statement.sql_eq_of_tokens checked checked' tokens⟩
    | _ => simp [Predicate.outline] at same
  | .existsQuery negated query =>
    cases q with
    | existsQuery negated' query' =>
      obtain ⟨negations, tokens⟩ := Outline.existsQuery.inj same
      exact ⟨negations, Statement.sql_eq_of_tokens checked checked' tokens⟩
    | _ => simp [Predicate.outline] at same
  | .group negated conditions =>
    cases q with
    | group negated' conditions' =>
      obtain ⟨negations, tokens⟩ := Outline.group.inj same
      exact ⟨negations, Condition.sameShape_of_tokens scope conditions conditions' every.2 every'.2
        checked checked' tokens⟩
    | _ => simp [Predicate.outline] at same

theorem Condition.sameShape_of_tokens (scope : Scope) (a b : List Condition)
    (every : Condition.EveryOf Statement.WellFormed Predicate.WellFormed a)
    (every' : Condition.EveryOf Statement.WellFormed Predicate.WellFormed b)
    (checked : Condition.checkAll a = .ok ()) (checked' : Condition.checkAll b = .ok ())
    (same : Condition.listTokens scope a = Condition.listTokens scope b) :
    Condition.SameShape scope a b := by
  match a, b with
  | [], [] => trivial
  | [], condition :: rest =>
    exact absurd same.symm (Condition.listTokens_ne_nil scope (List.cons_ne_nil condition rest))
  | condition :: rest, [] =>
    exact absurd same (Condition.listTokens_ne_nil scope (List.cons_ne_nil condition rest))
  | ⟨_, p⟩ :: rest, ⟨_, q⟩ :: rest' =>
    rw [Condition.checkAll_cons, then_eq_ok] at checked checked'
    obtain ⟨outlines, later⟩ := Predicate.outline_eq_of_append scope every.1 every'.1 same
    exact ⟨Predicate.sameShape_of_outline scope p q every.1 every'.1 checked.1 checked'.1 outlines,
      Condition.sameLater_of_tokens scope rest rest' every.2 every'.2 checked.2 checked'.2 later⟩

theorem Condition.sameLater_of_tokens (scope : Scope) (a b : List Condition)
    (every : Condition.EveryOf Statement.WellFormed Predicate.WellFormed a)
    (every' : Condition.EveryOf Statement.WellFormed Predicate.WellFormed b)
    (checked : Condition.checkAll a = .ok ()) (checked' : Condition.checkAll b = .ok ())
    (same : Condition.laterTokens scope a = Condition.laterTokens scope b) :
    Condition.SameLater scope a b := by
  match a, b with
  | [], [] => trivial
  | [], ⟨_, _⟩ :: _ => cases same
  | ⟨_, _⟩ :: _, [] => cases same
  | ⟨connective, p⟩ :: rest, ⟨connective', q⟩ :: rest' =>
    rw [Condition.checkAll_cons, then_eq_ok] at checked checked'
    simp only [Condition.laterTokens, List.cons_append, List.cons.injEq, Token.word.injEq,
      true_and] at same
    obtain ⟨word, body⟩ := same
    obtain ⟨outlines, later⟩ := Predicate.outline_eq_of_append scope every.1 every'.1 body
    exact ⟨Connective.word_injective word,
      Predicate.sameShape_of_outline scope p q every.1 every'.1 checked.1 checked'.1 outlines,
      Condition.sameLater_of_tokens scope rest rest' every.2 every'.2 checked.2 checked'.2 later⟩

end

def Condition.Composable (conditions : List Condition) : Prop :=
  ∃ s : Statement, s.Composable ∧ (conditions = s.wheres ∨ conditions = s.havings)

theorem Condition.Composable.wellFormed {conditions : List Condition}
    (composable : Condition.Composable conditions) :
    Condition.EveryOf Statement.WellFormed Predicate.WellFormed conditions := by
  obtain ⟨s, reached, clause⟩ := composable
  obtain ⟨-, inWheres, inHavings, -⟩ := (Statement.every_iff s).1 reached.wellFormed
  rcases clause with rfl | rfl
  · exact inWheres
  · exact inHavings

def Condition.NoRaw (conditions : List Condition) : Prop :=
  Condition.EveryOf (fun inner => ∀ text, .fragment text ∉ inner.kind.items)
    (fun predicate => ¬ predicate.isFragment) conditions

theorem Condition.lex_listTokens (scope : Scope) {conditions : List Condition}
    (noRaw : Condition.NoRaw conditions) :
    Token.lex (Token.sql (Condition.listTokens scope conditions)) =
      some (Condition.listTokens scope conditions) := by
  have quotable : Condition.EveryOf (Statement.Quotable fun _ => True)
      (fun predicate => ¬ predicate.isFragment) conditions :=
    Condition.everyOf_combine (fun _ items _ => ⟨items, trivial, trivial⟩) (fun _ plain _ => plain)
      conditions noRaw noRaw
  exact Token.lexFrom_sql _ _ (Condition.listTokens_readable (fun _ => True) scope conditions quotable)

theorem predicates_readable (scope : Scope) (a b : List Condition) (text : Text)
    (first : Condition.Composable a) (second : Condition.Composable b) (plain : Condition.NoRaw a)
    (plain' : Condition.NoRaw b) (written : (Condition.writeList a).textIn scope = .ok text)
    (written' : (Condition.writeList b).textIn scope = .ok text) : Condition.SameShape scope a b := by
  rw [(Condition.writeList_renders _ scope).textIn] at written written'
  obtain ⟨_, checked, text_a⟩ := map_eq_ok.1 written
  obtain ⟨_, checked', text_b⟩ := map_eq_ok.1 written'
  have read := Condition.lex_listTokens scope plain
  rw [text_a, ← text_b, Condition.lex_listTokens scope plain'] at read
  exact Condition.sameShape_of_tokens scope a b first.wellFormed second.wellFormed checked checked'
    (Option.some.inj read.symm)

-- The same words with other values, in a group and beside a subquery.
theorem predicates_readable_nested :
    let blank : Statement := .new {}
    let inner : Statement := .touched { blank with table := some "d" }
    let list (value : Value) : List Condition :=
      [⟨.and, .group true [⟨.xor, .between true "b" value value⟩, ⟨.or, .inValues false "c" [value, value]⟩]⟩,
        ⟨.or, .existsQuery true inner⟩]
    let text : Text := "NOT (\x60b\x60 NOT BETWEEN ? AND ? OR \x60c\x60 IN (?,?)) OR NOT EXISTS " ++
      "(SELECT * FROM \x60d\x60)"
    let scope : Scope := ⟨.backtick, none⟩
    (∀ value, Condition.Composable (list value) ∧ Condition.NoRaw (list value)) ∧
      (Condition.writeList (list .null)).textIn scope = .ok text ∧
      (Condition.writeList (list (.bool true))).textIn scope = .ok text ∧
      Condition.SameShape scope (list .null) (list (.bool true)) := by
  intro blank inner list text scope
  have composed (value : Value) : Condition.Composable (list value) := by
    let range : Edit := .wherePredicate (.typed .xor) (.between true "b" value value)
    let listing : Edit := .wherePredicate (.typed .or) (.inValues false "c" [value, value])
    let first := blank.addWhere .xor (.between true "b" value value)
    let both := first.addWhere .or (.inValues false "c" [value, value])
    let group := blank.addWhere .and (.group true both.wheres)
    have column : Reference.check {} "where_in" "c" = .ok "c" := by decide +kernel
    have toFirst : range.apply blank = .ok first :=
      Statement.wherePredicate_eq_ok.2 ⟨.xor, _, rfl, bind_eq_ok.2 ⟨"b", by decide +kernel, rfl⟩, rfl⟩
    have toBoth : listing.apply first = .ok both :=
      Statement.wherePredicate_eq_ok.2 ⟨.or, _, rfl, bind_eq_ok.2 ⟨"c", column, rfl⟩, rfl⟩
    have built : (Call.build [.edit range, .edit listing] (blank.child true)).result = .ok both :=
      Call.build_edit toFirst (Call.build_edit toBoth rfl)
    have grouped : ((Call.whereGroup .and true [.edit range, .edit listing]).run blank).statement =
        group := by
      rw [Call.run_whereGroup, Built.conclude, built]
      rfl
    have start : blank.Composable := .start .blank rfl trivial
    have reached : group.Composable := grouped ▸ Call.composable_runAll [.whereGroup ..] start
    have table : Reference.check {} "table" "d" = .ok "d" := by decide +kernel
    have toInner : (Edit.table "d").apply (group.child true) = .ok inner :=
      Statement.setTable_eq_ok.2 ⟨"d", table, rfl⟩
    have queried : (Call.build [.edit (.table "d")] (group.child true)).result = .ok inner :=
      Call.build_edit toInner rfl
    have whole := reached.existsQuery .or true queried
      ((reached.child true).edit (.table "d") rfl toInner)
    exact ⟨_, whole, .inl rfl⟩
  have plain (value : Value) : Condition.NoRaw (list value) :=
    ⟨⟨nofun, nofun, nofun, trivial⟩, ⟨nofun, nofun, trivial, trivial, trivial⟩, trivial⟩
  have first : (Condition.writeList (list .null)).textIn scope = .ok text := by decide +kernel
  have second : (Condition.writeList (list (.bool true))).textIn scope = .ok text := by
    decide +kernel
  exact ⟨fun value => ⟨composed value, plain value⟩, first, second,
    predicates_readable scope (list .null) (list (.bool true)) text (composed .null)
      (composed (.bool true)) (plain .null) (plain (.bool true)) first second⟩

end SqlComposer
