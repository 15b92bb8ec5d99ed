import SqlComposer.Proofs.Spelling
import SqlComposer.Proofs.Tokens
import SqlComposer.Proofs.Writing

set_option autoImplicit false

namespace SqlComposer

open Token

def Token.Quotes (N : Quote → Text → Prop) : Token → Prop
  | .quoted quote name => N quote name
  | _ => True

theorem Token.fixed_quotes (N : Quote → Text → Prop) : Fixed (Quotes N) where
  word _ := trivial
  symbol _ := trivial
  number _ := trivial
  space := trivial
  newline := trivial
  comma := trivial
  dot := trivial
  star := trivial
  leftParen := trivial
  rightParen := trivial

structure Settings.Under (settings inner : Settings) : Prop where
  quote : inner.quote = settings.quote
  allows : ∀ c, inner.allows c → settings.allows c

theorem Scope.columnOf_eq (scope : Scope) (table reference : Text) :
    scope.columnOf table reference = Scope.column ⟨scope.quote, some table⟩ reference := rfl

namespace Reference

variable {settings : Settings} {quote : Quote} {text : Text}

theorem quotes_segment {N : Quote → Text → Prop} {piece : Text}
    (holds : piece ≠ ['*'] → N quote (unquote quote piece)) : (segment quote piece).Quotes N := by
  by_cases wild : piece = ['*']
  · simp [segment, isWildcard, wild, Quotes]
  · simp [segment, isWildcard, wild, Quotes, holds wild]

/-! ### The characters of all references -/

def Loose (settings : Settings) (quote : Quote) (name : Text) : Prop :=
  quote = settings.quote ∧
    ∀ c ∈ name, c = '*' ∨ isBlank c ∨ c.isAlphanum ∨ c = '_' ∨ settings.allows c

def Spellable (settings : Settings) (reference : Text) : Prop :=
  ∀ c ∈ reference, c = settings.quote.char ∨ c = '.' ∨ c = '*' ∨ isBlank c ∨ c.isAlphanum ∨ c = '_' ∨
    settings.allows c

theorem spellable_of_plain {word : Text} (plain : word.all fun c => c.isAlphanum || c == '_') :
    Spellable settings word := by
  intro c member
  have known := List.all_eq_true.1 plain c member
  rw [Bool.or_eq_true, beq_iff_eq] at known
  rcases known with letter | sign
  · simp [letter]
  · simp [sign]

theorem spellable_of_accepts (accepted : accepts settings text) : Spellable settings text := by
  intro c member
  simp only [accepts, Bool.or_eq_true, isWildcard, beq_iff_eq, Bool.and_eq_true,
    List.all_eq_true] at accepted
  rcases accepted with rfl | ⟨-, plain⟩
  · simp [List.mem_singleton.1 member]
  · by_cases outer : c = settings.quote.char
    · exact .inl outer
    · by_cases blank : isBlank c
      · simp [blank]
      · have bare : c ∈ (unquote settings.quote text).trim :=
          Text.mem_trim (List.mem_filter.2 ⟨member, by simpa using outer⟩) (by simpa using blank)
        rcases plain c bare with ((letter | sign) | dot) | allowed
        · simp [letter]
        · simp [sign]
        · simp [dot]
        · simp [allowed]

theorem Accepted.spellable (accepted : Accepted settings text) : Spellable settings text := by
  intro c member
  by_cases solid : c = ' '
  · exact .inr (.inr (.inr (.inl (by rw [solid]; rfl))))
  · by_cases letter : c.isAlpha
    · simp [Char.isAlphanum, letter]
    · obtain ⟨part, within, inside⟩ := exists_part solid (by simpa using letter) member
      exact spellable_of_accepts (accepted part within) c inside

theorem Spellable.quoted (spellable : Spellable settings text) :
    Each (Quotes (Loose settings)) (quoted settings.quote text) := by
  refine (fixed_quotes _).quoted fun part within piece inside => quotes_segment fun _ => ⟨rfl, ?_⟩
  intro c member
  obtain ⟨kept, other⟩ := List.mem_filter.1 member
  have held := mem_of_mem_parts within (Text.mem_of_mem_split inside kept)
  rcases spellable c held with same | rfl | known
  · simp [same] at other
  · exact (Text.not_mem_of_mem_split inside kept).elim
  · exact known

theorem writes_loose {scope : Scope} (same : scope.quote = settings.quote)
    (named : ∀ name ∈ scope.table, Spellable settings name) :
    scope.Writes (Quotes (Loose settings)) (Spellable settings) (Spellable settings) := by
  have qualified {table : Option Text} (named : ∀ name ∈ table, Spellable settings name)
      (reference : Text) (holds : Spellable settings reference) :
      Spellable settings (qualify settings.quote table reference) := by
    intro c member
    rcases mem_of_mem_qualify member with rfl | inside | ⟨name, present, inside⟩
    · exact .inr (.inl rfl)
    · exact holds c inside
    · exact named name present c inside
  refine ⟨fun _ holds => ?_, fun reference holds => ?_, fun table reference front holds => ?_⟩
  · rw [same]
    exact holds.quoted
  · rw [Scope.column, same]
    exact (qualified named reference holds).quoted
  · rw [Scope.columnOf, same]
    refine (qualified (fun name present => ?_) reference holds).quoted
    obtain rfl := Option.some.inj present
    exact fun c member => front c (mem_of_mem_tableName member)

theorem kept_accepted : Kept settings.Under (Accepted settings) (Spellable settings) where
  given allowed valid :=
    have accepted := (accepted_of_validate valid).mono allowed.quote allowed.allows
    ⟨accepted, (accepted_trim accepted).1⟩
  stripped table allowed valid c member :=
    have accepted := (accepted_of_validate valid).mono allowed.quote allowed.allows
    accepted.spellable c (mem_of_mem_stripTable member)
  identity := spellable_of_plain (by decide)
  named allowed accepted c member := by
    rcases List.mem_append.1 member with front | behind
    · exact accepted.spellable c
        (mem_of_mem_parts (cutAlias_fst_mem_parts _) (mem_of_mem_clean front))
    · have suffix : Spellable settings "_id" := spellable_of_plain (by decide)
      exact suffix c behind

/-! ### Neat references -/

def Strict (settings : Settings) (quote : Quote) (name : Text) : Prop :=
  quote = settings.quote ∧ name.trim = name ∧ Allowed settings name

theorem Tight.quoted (tight : Tight settings.quote text) (accepted : Accepted settings text) :
    Each (Quotes (Strict settings)) (quoted settings.quote text) := by
  refine (fixed_quotes _).quoted fun part within piece inside => quotes_segment fun other => ?_
  have trimmed := tight.trimmed part within piece inside
  refine ⟨rfl, trimmed, ?_⟩
  rw [← trimmed]
  exact (accepted.piece within inside).resolve_left other

theorem Stable.quoted {whole single : Text → Text} (bares : Bares settings.quote whole single)
    (wild : single ['*'] = ['*']) (stable : Stable whole single text) (accepted : Accepted settings text) :
    Each (Quotes (Strict settings)) (quoted settings.quote (whole text)) := by
  refine (fixed_quotes _).quoted fun bare bareWithin name nameInside => quotes_segment fun other => ?_
  rw [stable.cuts] at bareWithin
  obtain ⟨part, within, rfl⟩ := List.mem_map.1 bareWithin
  rw [bares.split] at nameInside
  obtain ⟨piece, inside, rfl⟩ := List.mem_map.1 nameInside
  have trimmed := stable.trimmed part within piece inside
  rw [bares.bare]
  refine ⟨rfl, trimmed, ?_⟩
  rw [← trimmed, bares.trim]
  refine (accepted.piece within inside).resolve_left ?_
  rintro rfl
  exact other wild

theorem Accepted.tableName (accepted : Accepted settings text) : Accepted settings (tableName text) := by
  have whole := parts_eq text
  unfold Reference.tableName
  split
  · next name cut =>
    rw [cutAlias_eq_none cut]
    exact (accepted_trim accepted).1
  · next name rest cut =>
    rw [cut] at whole
    have later : Accepted settings rest := fun part within => accepted part (by simp [whole, within])
    exact (accepted_trim later).1

theorem Neat.quotes_column (neat : Neat settings.quote text) (accepted : Accepted settings text)
    {table : Option Text}
    (named : ∀ name ∈ table, Accepted settings name ∧ Tight settings.quote name) :
    Each (Quotes (Strict settings)) (Scope.column ⟨settings.quote, table⟩ text) := by
  have front : Each (Quotes (Strict settings)) (Scope.qualifier ⟨settings.quote, table⟩) := by
    cases table with
    | none => exact each_nil
    | some table =>
      obtain ⟨known, tight⟩ := named table rfl
      have bare := tight.toStable.quoted (bares_unquote _) (unquote_wildcard _) known
      simp [Scope.qualifier, clean, tight.trim_eq, bare, Quotes]
  rw [neat.column]
  have own := neat.toStable.quoted (bares_cleaned _) (unquote_wildcard _) accepted
  refine each_append.2 ⟨?_, own⟩
  split
  · exact each_nil
  · exact front

theorem writes_strict {scope : Scope} (same : scope.quote = settings.quote)
    (named : ∀ name ∈ scope.table, Accepted settings name ∧ Tight settings.quote name) :
    scope.Writes (Quotes (Strict settings))
      (fun reference => Accepted settings reference ∧ Tight settings.quote reference)
      fun reference => Accepted settings reference ∧ Neat settings.quote reference := by
  obtain ⟨quote, table⟩ := scope
  obtain rfl : quote = settings.quote := same
  refine ⟨fun reference holds => holds.2.quoted holds.1,
    fun reference holds => holds.2.quotes_column holds.1 named,
    fun table reference front holds => ?_⟩
  rw [Scope.columnOf_eq]
  refine holds.2.quotes_column holds.1 fun name present => ?_
  obtain rfl := Option.some.inj present
  exact ⟨front.1.tableName, front.2.tableName⟩

end Reference

namespace Statement

variable {settings : Settings} {s : Statement}

def Tidy (settings : Settings) (s : Statement) : Prop :=
  s.Holds (Reference.Tight settings.quote) (Reference.Neat settings.quote)
    fun column => Reference.Accepted settings column ∧ Reference.Neat settings.quote column

theorem written_loose (under : settings.Under s.settings)
    (holds : s.Holds (Reference.Accepted settings) (Reference.Accepted settings)
      (Reference.Spellable settings)) :
    s.Written (Quotes (Reference.Loose settings)) (Reference.Spellable settings)
      (Reference.Spellable settings) where
  writes := by
    refine Reference.writes_loose under.quote fun name present => ?_
    obtain ⟨table, known, rfl⟩ := Option.map_eq_some_iff.1 present
    exact (holds.table table known).tableName.spellable
  holds := holds.imp (fun _ accepted => accepted.spellable) (fun _ accepted => accepted.spellable)
    fun _ => id
  fragments _ _ := trivial

theorem written_strict (under : settings.Under s.settings)
    (holds : s.Holds (Reference.Accepted settings) (Reference.Accepted settings)
      (Reference.Spellable settings))
    (tidy : s.Tidy settings) :
    s.Written (Quotes (Reference.Strict settings))
      (fun reference => Reference.Accepted settings reference ∧ Reference.Tight settings.quote reference)
      fun reference => Reference.Accepted settings reference ∧ Reference.Neat settings.quote reference where
  writes := by
    refine Reference.writes_strict under.quote fun name present => ?_
    obtain ⟨table, known, rfl⟩ := Option.map_eq_some_iff.1 present
    exact ⟨(holds.table table known).tableName, (tidy.table table known).tableName⟩
  holds := (holds.and tidy).imp (fun _ => id) (fun _ => id) fun _ both => both.2
  fragments _ _ := trivial

end Statement

def Predicate.Tidy (settings : Settings) (predicate : Predicate) : Prop :=
  predicate.Holds (Reference.Neat settings.quote)

namespace Reachable

variable {settings : Settings} {s : Statement} (reached : Reachable settings.Under s)

include reached

theorem each_loose : Each (Quotes (Reference.Loose settings)) s.tokens := by
  have known := reached.settings_every.and (reached.holds Reference.kept_accepted)
  exact s.each_token (fixed_quotes _) trivial (known.imp
    (fun inner holds => inner.written_loose holds.1 holds.2)
    fun predicate holds =>
      ⟨fun reference member => (holds.2 reference member).spellable, fun _ _ _ _ => trivial⟩)

theorem each_strict (tidy : s.Every (Statement.Tidy settings) (Predicate.Tidy settings)) :
    Each (Quotes (Reference.Strict settings)) s.tokens := by
  have known := reached.settings_every.and (reached.holds Reference.kept_accepted)
  exact s.each_token (fixed_quotes _) trivial (s.every_combine
    (fun inner holds neat => inner.written_strict holds.1 holds.2 neat)
    (fun predicate holds neat =>
      ⟨fun reference member => ⟨holds.2 reference member, neat reference member⟩, fun _ _ _ _ => trivial⟩)
    known tidy)

end Reachable

def Token.Leads (quote : Quote) : Option Text → List Token → Prop
  | some table, lead => ∃ names, lead = names ++ [.dot] ∧ Spelling quote (Reference.pieces quote table) names
  | none, lead => lead = []

namespace Reference

variable {settings : Settings} {quote : Quote} {text : Text}

theorem Tight.leads (tight : Tight quote text) :
    Leads quote (some text) (Scope.qualifier ⟨quote, some text⟩) := by
  refine ⟨Reference.quoted quote (unquote quote text), ?_, tight.toStable.spelling (bares_unquote quote)⟩
  simp [Scope.qualifier, clean, tight.trim_eq]

theorem Neat.leads_column (neat : Neat settings.quote text) {table : Option Text}
    (named : ∀ name ∈ table, Tight settings.quote name) :
    ∃ lead names, (Scope.ofTable settings table).column text = lead ++ names ∧
      Leads settings.quote (if '.' ∈ (cutAlias text).1 then none else table.map tableName) lead ∧
      Spelling settings.quote (pieces settings.quote text) names := by
  refine ⟨_, _, neat.column (table.map Reference.tableName), ?_,
    neat.toStable.spelling (bares_cleaned _)⟩
  split
  · rfl
  · cases table with
    | none => rfl
    | some table => exact (named table rfl).tableName.leads

/-- The pieces of what is accepted are names. A reference that is written as it is shows just these pieces
if there are no blanks round them; as a column it does if it is neat. -/
theorem written_as_checked (settings : Settings) :
    (∀ method given, validate settings method given = .ok () →
      (∀ part ∈ pieces settings.quote given, ∀ piece ∈ part,
        piece.trim = piece ∧ IsName settings piece) ∧
      ∀ held ∈ [given, given.trim],
        (Spelling settings.quote (pieces settings.quote given) (quoted settings.quote held) ↔
          ∀ part ∈ parts held, ∀ piece ∈ Text.split '.' part,
            (unquote settings.quote piece).trim = unquote settings.quote piece) ∧
        ∀ table : Option Text, Neat settings.quote held →
          (∀ name ∈ table, Tight settings.quote name) →
          ∃ lead names, (Scope.ofTable settings table).column held = lead ++ names ∧
            Leads settings.quote (if '.' ∈ (cutAlias held).1 then none else table.map tableName) lead ∧
            Spelling settings.quote (pieces settings.quote given) names) ∧
    ∀ s text, Reachable settings.Under s → s.sql = .ok text →
      text = sql s.tokens ∧
        ∀ quote name, .quoted quote name ∈ s.tokens →
          Loose settings quote name ∧
            (s.Every (Statement.Tidy settings) (Predicate.Tidy settings) →
              Strict settings quote name) := by
  refine ⟨fun method given valid => ?_, fun s text reached compiles => ?_⟩
  · have accepted := accepted_of_validate valid
    refine ⟨fun part within piece inside =>
      ⟨trim_of_mem_pieces part within piece inside, isName_of_accepted accepted part within piece inside⟩, ?_⟩
    intro held member
    have same : pieces settings.quote held = pieces settings.quote given := by
      rcases List.mem_cons.1 member with rfl | last
      · rfl
      · obtain rfl := List.mem_singleton.1 last
        exact (accepted_trim accepted).2
    rw [← same]
    exact ⟨spelling_quoted_iff, fun table neat named => neat.leads_column named⟩
  · obtain ⟨_, -, rfl⟩ := map_eq_ok.1 (s.sql_eq ▸ compiles)
    refine ⟨rfl, fun quote name member => ⟨reached.each_loose _ member, fun tidy => ?_⟩⟩
    exact reached.each_strict tidy _ member

-- Quotes and outer blanks in what is given, and a table that goes by its alias.
theorem written_as_checked_alias :
    let given : Text := " \x60title\x60 AS t"
    let table : Text := "movies AS m"
    let named : Statement := Statement.touched { Statement.new {} with table := some table }
    let s : Statement := Statement.touched { named with kind := .select [.column given.trim] }
    validate {} "select" given = .ok () ∧ Neat .backtick given.trim ∧ Tight .backtick table ∧
      (∃ lead names, (Scope.ofTable {} (some table)).column given.trim = lead ++ names ∧
        Leads .backtick (some (tableName table)) lead ∧
        Spelling .backtick (pieces .backtick given) names) ∧
      Reachable (Settings.Under {}) s ∧ s.Every (Statement.Tidy {}) (Predicate.Tidy {}) ∧
      s.sql = .ok "SELECT \x60m\x60.\x60title\x60 AS \x60t\x60 FROM \x60movies\x60 AS \x60m\x60" ∧
      ∀ quote name, .quoted quote name ∈ s.tokens → Strict {} quote name := by
  intro given table named s
  have valid : validate {} "select" given = .ok () := by decide +kernel
  have neat : Neat .backtick given.trim := by
    refine ⟨⟨?_, ?_⟩, ?_, ?_⟩ <;> decide +kernel
  have tight : Tight .backtick table := by
    refine ⟨⟨?_, ?_⟩, ?_⟩ <;> decide +kernel
  have start : Reachable (Settings.Under {}) (.new {}) := .start .blank rfl ⟨rfl, fun _ => id⟩
  have toNamed : (Edit.fromTable table).apply (.new {}) = .ok named :=
    Statement.setTable_eq_ok.2 ⟨table, by decide +kernel, rfl⟩
  have toSelected : (Edit.select (.list [given])).apply named = .ok s :=
    Statement.select_eq_ok.2 ⟨[given.trim], by decide +kernel, rfl⟩
  have reached := (start.edit (.fromTable table) rfl toNamed).edit (.select (.list [given])) rfl toSelected
  have compiles : s.sql =
      .ok "SELECT \x60m\x60.\x60title\x60 AS \x60t\x60 FROM \x60movies\x60 AS \x60m\x60" := by
    decide +kernel
  have tidy : s.Every (Statement.Tidy {}) (Predicate.Tidy {}) := by
    have own : s.Tidy {} := by
      refine ⟨?_, ?_, ?_, ?_, ?_⟩ <;>
        simp [s, named, Statement.touched, Statement.new, Kind.Holds, SelectItem.Holds, neat, tight]
    refine (Statement.every_iff s).2 ⟨own, ?_⟩
    simp [s, named, Statement.touched, Statement.new, Condition.EveryOf]
  have all := written_as_checked {}
  have column := ((all.1 "select" given valid).2 given.trim (by simp)).2 (some table) neat
    (by simpa using tight)
  have plain : '.' ∉ (cutAlias given.trim).1 := by decide +kernel
  rw [if_neg plain] at column
  exact ⟨valid, neat, tight, column, reached, tidy, compiles,
    fun quote name member => ((all.2 s _ reached compiles).2 quote name member).2 tidy⟩

/-- A second blank behind a cut is accepted and stands in the name of the table, and its columns are
qualified by the name without it. -/
theorem alias_keeps_blank :
    let given : Text := "movies AS  m"
    let named : Statement := Statement.touched { Statement.new {} with table := some given }
    let s : Statement := Statement.touched { named with kind := .select [.column "title"] }
    validate {} "from" given = .ok () ∧ pieces .backtick given = [[↑"movies"], [↑"m"]] ∧
      ¬ Spelling .backtick (pieces .backtick given) (quoted .backtick given) ∧
      Reachable (Settings.Under {}) s ∧
      s.sql = .ok "SELECT \x60m\x60.\x60title\x60 FROM \x60movies\x60 AS \x60 m\x60" := by
  intro given named s
  have start : Reachable (Settings.Under {}) (.new {}) := .start .blank rfl ⟨rfl, fun _ => id⟩
  have toNamed : (Edit.fromTable given).apply (.new {}) = .ok named :=
    Statement.setTable_eq_ok.2 ⟨given, by decide +kernel, rfl⟩
  have toSelected : (Edit.select (.text "title")).apply named = .ok s :=
    Statement.select_eq_ok.2 ⟨["title"], by decide +kernel, rfl⟩
  refine ⟨by decide +kernel, by decide +kernel, ?_,
    (start.edit _ rfl toNamed).edit (.select (.text "title")) rfl toSelected, by decide +kernel⟩
  rw [spelling_quoted_iff]
  decide +kernel

end Reference

end SqlComposer
