import SqlComposer.Proofs.Joins

set_option autoImplicit false

namespace SqlComposer

open Token

namespace Text

variable {head text piece : Text}

theorem dot_mem_of_afterDotted {rest : Text} (after : afterDotted head text = some rest) : '.' ∈ text := by
  fun_induction afterDotted head text with
  | case1 rest' => simp
  | case2 h head c rest' same ih => exact List.mem_cons_of_mem _ (ih after)
  | case3 | case4 => cases after

theorem afterDotted_of_plain (plain : '.' ∉ text) : afterDotted head text = none := by
  cases after : afterDotted head text with
  | none => rfl
  | some rest => exact absurd (dot_mem_of_afterDotted after) plain

theorem afterDotted_append (plain : '.' ∉ piece) (rest : '.' ∉ text) :
    afterDotted head (piece ++ '.' :: text) = if sameLetters head piece then some text else none := by
  induction head generalizing piece with
  | nil =>
    cases piece with
    | nil => rfl
    | cons c piece =>
      have other : c ≠ '.' := by rintro rfl; simp at plain
      simp [afterDotted, sameLetters, other]
  | cons h head ih =>
    cases piece with
    | nil => simp [afterDotted, afterDotted_of_plain rest, sameLetters]
    | cons c piece =>
      have later := ih (List.not_mem_of_not_mem_cons plain)
      by_cases same : h.toLower = c.toLower
      · simp [afterDotted, same, later, sameLetters]
      · simp [afterDotted, same, sameLetters]

theorem afterDotted_of_sameLetters (same : sameLetters head piece) :
    afterDotted head (piece ++ '.' :: text) = some text := by
  induction head generalizing piece with
  | nil =>
    cases piece with
    | nil => rfl
    | cons c piece => simp [sameLetters] at same
  | cons h head ih =>
    cases piece with
    | nil => simp [sameLetters] at same
    | cons c piece =>
      obtain ⟨first, later⟩ : h.toLower = c.toLower ∧ sameLetters head piece := by
        simpa [sameLetters] using same
      rw [List.cons_append, afterDotted, if_pos first]
      exact ih later

end Text

/-! ### Names and their pieces -/

def dots (segments : List Text) : Text := ['.'].intercalate segments

structure Segment (settings : Settings) (text : Text) : Prop where
  some : text ≠ []
  named : text ≠ ['*']
  allowed : Reference.Allowed settings text
  plain : '.' ∉ text
  bare : settings.quote.char ∉ text
  solid : ∀ c ∈ text, isBlank c = false

instance (settings : Settings) (text : Text) : Decidable (Segment settings text) :=
  -- Over the characters of the text: the instance for all characters there are cannot be run.
  have : Decidable (Reference.Allowed settings text) := List.decidableBAll _ text
  have : Decidable (∀ c ∈ text, isBlank c = false) := List.decidableBAll _ text
  decidable_of_iff (text ≠ [] ∧ text ≠ ['*'] ∧ Reference.Allowed settings text ∧ '.' ∉ text ∧
      settings.quote.char ∉ text ∧ ∀ c ∈ text, isBlank c = false)
    ⟨fun ⟨a, b, c, d, e, f⟩ => ⟨a, b, c, d, e, f⟩, fun ⟨a, b, c, d, e, f⟩ => ⟨a, b, c, d, e, f⟩⟩

structure Dotted (settings : Settings) (segments : List Text) (text : Text) : Prop where
  some : segments ≠ []
  each : ∀ segment ∈ segments, Segment settings segment
  bare : Reference.unquote settings.quote text = dots segments

instance (settings : Settings) (segments : List Text) (text : Text) :
    Decidable (Dotted settings segments text) :=
  decidable_of_iff (segments ≠ [] ∧ (∀ segment ∈ segments, Segment settings segment) ∧
      Reference.unquote settings.quote text = dots segments)
    ⟨fun ⟨a, b, c⟩ => ⟨a, b, c⟩, fun ⟨a, b, c⟩ => ⟨a, b, c⟩⟩

def quotedNames (quote : Quote) (names : List Text) : Text :=
  dots (names.map fun name => quote.char :: name ++ [quote.char])

namespace Dotted

variable {settings : Settings} {segments others : List Text} {text : Text}

theorem split_dots (dotted : Dotted settings segments text) : Text.split '.' (dots segments) = segments :=
  Text.split_intercalate dotted.some fun segment member => (dotted.each segment member).plain

theorem solid (dotted : Dotted settings segments text) : ∀ c ∈ text, isBlank c = false := by
  intro c member
  by_cases quoting : c = settings.quote.char
  · exact quoting ▸ Reference.isBlank_quote settings.quote
  · have kept : c ∈ dots segments := dotted.bare ▸ List.mem_filter.2 ⟨member, by simpa using quoting⟩
    rcases Text.mem_intercalate kept with dot | ⟨segment, within, inside⟩
    · obtain rfl := List.mem_singleton.1 dot
      rfl
    · exact (dotted.each segment within).solid c inside

theorem ne_nil (dotted : Dotted settings segments text) : text ≠ [] := by
  rintro rfl
  obtain ⟨first, rest, rfl⟩ := List.exists_cons_of_ne_nil dotted.some
  have empty : dots (first :: rest) = [] := dotted.bare.symm
  rw [dots, Text.intercalate_cons, List.append_eq_nil_iff] at empty
  exact (dotted.each first (by simp)).some empty.1

theorem trim_eq (dotted : Dotted settings segments text) : text.trim = text :=
  Reference.trim_of_blankless dotted.solid

theorem clean_eq (dotted : Dotted settings segments text) :
    Reference.clean settings.quote text = dots segments := by
  rw [Reference.clean, dotted.trim_eq, dotted.bare]

theorem of_segments (some : segments ≠ []) (each : ∀ segment ∈ segments, Segment settings segment) :
    Dotted settings segments (dots segments) where
  some := some
  each := each
  bare := by
    refine List.filter_eq_self.2 fun c member => ?_
    rw [bne_iff_ne]
    rintro rfl
    rcases Text.mem_intercalate member with dot | ⟨segment, within, inside⟩
    · cases quote : settings.quote <;> simp [quote, Quote.char] at dot
    · exact (each segment within).bare inside

theorem of_segment {name : Text} (named : Segment settings name) : Dotted settings [name] name := by
  have each : ∀ segment ∈ [name], Segment settings segment := by simpa using named
  simpa [dots] using of_segments (by simp) each

theorem unquoted (dotted : Dotted settings segments text) : Dotted settings segments (dots segments) :=
  .of_segments dotted.some dotted.each

theorem cleaned_eq (dotted : Dotted settings segments text) :
    Reference.cleaned settings.quote (dots segments) = dots segments := by
  have each : ∀ segment ∈ segments, Reference.clean settings.quote segment = segment := by
    intro segment member
    have single := of_segment (dotted.each segment member)
    simpa [dots] using single.clean_eq
  rw [Reference.cleaned, dotted.split_dots, List.map_congr_left each, List.map_id']
  rfl

theorem accepts (dotted : Dotted settings segments text) : Reference.accepts settings text := by
  have trimmed : (Reference.unquote settings.quote text).trim = dots segments := by
    rw [dotted.bare, dotted.unquoted.trim_eq]
  simp only [Reference.accepts, trimmed, Bool.or_eq_true, Bool.and_eq_true, List.all_eq_true]
  refine .inr ⟨by simpa using dotted.unquoted.ne_nil, fun c member => ?_⟩
  rcases Text.mem_intercalate member with dot | ⟨segment, within, inside⟩
  · obtain rfl := List.mem_singleton.1 dot
    simp
  · rcases (dotted.each segment within).allowed c inside with letter | sign | allowed
    · simp [letter]
    · simp [sign]
    · simp [allowed]

theorem validate (dotted : Dotted settings segments text) (method : Text) :
    Reference.validate settings method text = .ok () := by
  refine Reference.validate_of_accepts ?_
  rw [Reference.parts_of_blankless dotted.solid]
  simpa using dotted.accepts

theorem sql_dotted (dotted : Dotted settings segments text) :
    Token.sql (Reference.dotted settings.quote text) = quotedNames settings.quote segments := by
  have pieces : (Text.split '.' text).map (Reference.unquote settings.quote) = segments := by
    rw [← (Reference.bares_unquote settings.quote).split, dotted.bare, dotted.split_dots]
  have named (name : Text) (member : name ∈ Text.split '.' text) :
      Token.sql [Reference.segment settings.quote name] =
        settings.quote.char :: Reference.unquote settings.quote name ++ [settings.quote.char] := by
    have other : Reference.isWildcard name = false := by
      refine beq_eq_false_iff_ne.2 fun wild => ?_
      have inside : Reference.unquote settings.quote name ∈ segments :=
        pieces ▸ List.mem_map_of_mem member
      rw [wild, Reference.unquote_wildcard] at inside
      exact (dotted.each _ inside).named rfl
    simp [Reference.segment, other]
  have each : (Text.split '.' text).map (Token.sql ∘ fun name => [Reference.segment settings.quote name]) =
      segments.map fun name => settings.quote.char :: name ++ [settings.quote.char] := by
    rw [← pieces, List.map_map]
    exact List.map_congr_left named
  rw [Reference.dotted, sql_intercalate, List.map_map, each]
  rfl

theorem written_eq (dotted : Dotted settings segments text) :
    Reference.written settings.quote text = quotedNames settings.quote segments := by
  rw [Reference.written, Reference.quoted, Reference.parts_of_blankless dotted.solid, List.map_singleton,
    List.intercalate_singleton, dotted.sql_dotted]

end Dotted

structure TableName where
  name : List Text
  alias? : Option Text

namespace TableName

def qualifier (table : TableName) : List Text :=
  match table.alias? with
  | some other => [other]
  | none => table.name

def answers (table : TableName) (text : Text) : Bool :=
  (dots table.name :: table.alias?.toList).any fun name => Text.sameLetters name text

def written (quote : Quote) (table : TableName) : Text :=
  quotedNames quote table.name ++
    match table.alias? with
    | some other => " AS " ++ quotedNames quote [other]
    | none => ""

/-- The text shows the name and the alias, quotes aside. -/
inductive Shown (settings : Settings) : TableName → Text → Prop where
  | bare {name : List Text} {text : Text} (named : Dotted settings name text) :
    Shown settings ⟨name, none⟩ text
  | aliased {name : List Text} {text other behind : Text} {a s : Char} (named : Dotted settings name text)
    (called : Dotted settings [other] behind) (as : Reference.isAs a s) :
    Shown settings ⟨name, some other⟩ (text ++ ' ' :: a :: s :: ' ' :: behind)

end TableName

theorem Reference.cutAlias_append {front behind : Text} {a s : Char}
    (solid : ∀ c ∈ front, isBlank c = false) (as : isAs a s) :
    cutAlias (front ++ ' ' :: a :: s :: ' ' :: behind) = (front, some behind) := by
  induction front with
  | nil => simp [cutAlias, as]
  | cons c front ih =>
    obtain ⟨first, later⟩ := List.forall_mem_cons.1 solid
    have other : c ≠ ' ' := by rintro rfl; cases first
    rw [List.cons_append, cutAlias, ih later]
    rintro a s rest rfl
    exact absurd rfl other

theorem Reference.parts_append {front behind : Text} {a s : Char}
    (solid : ∀ c ∈ front, isBlank c = false) (as : isAs a s) :
    parts (front ++ ' ' :: a :: s :: ' ' :: behind) = front :: parts behind := by
  rw [parts_eq, cutAlias_append solid as]

namespace TableName.Shown

variable {settings : Settings} {table : TableName} {text : Text}

theorem trim_eq (shown : table.Shown settings text) : text.trim = text := by
  cases shown with
  | bare named => exact named.trim_eq
  | @aliased name text other behind a s named called as =>
    obtain ⟨first, front, rfl⟩ := List.exists_cons_of_ne_nil named.ne_nil
    obtain ⟨init, last, rfl⟩ := (List.eq_nil_or_concat behind).resolve_left called.ne_nil
    refine Text.trim_eq_self (fun c rest same => ?_) (fun c rest same => ?_)
    · obtain ⟨rfl, -⟩ := List.cons.inj same
      exact named.solid _ (by simp)
    · have split : (first :: front ++ ' ' :: a :: s :: ' ' :: init) ++ [last] = rest ++ [c] := by
        simpa using same
      obtain rfl : last = c := by simpa using (List.append_inj' split rfl).2
      exact called.solid _ (by simp)

theorem validate (shown : table.Shown settings text) (method : Text) :
    Reference.validate settings method text = .ok () := by
  cases shown with
  | bare named => exact named.validate method
  | aliased named called as =>
    refine Reference.validate_of_accepts ?_
    rw [Reference.parts_append named.solid as, Reference.parts_of_blankless called.solid]
    simpa using ⟨named.accepts, called.accepts⟩

theorem cutAlias_unquote (shown : table.Shown settings text) :
    Reference.cutAlias (Reference.unquote settings.quote text) = (dots table.name, table.alias?) := by
  cases shown with
  | bare named =>
    rw [named.bare]
    exact Reference.cutAlias_of_blankless named.unquoted.solid
  | @aliased name text other behind a s named called as =>
    rw [Reference.unquote_append settings.quote text behind as, named.bare, called.bare,
      Reference.cutAlias_append named.unquoted.solid as]
    simp [dots]

theorem qualifier (shown : table.Shown settings text) :
    Dotted settings table.qualifier (Reference.tableName text) := by
  cases shown with
  | bare named =>
    have same : Reference.tableName text = text := by
      rw [Reference.tableName, Reference.cutAlias_of_blankless named.solid]
      exact named.trim_eq
    rwa [same]
  | @aliased name text other behind a s named called as =>
    have same : Reference.tableName (text ++ ' ' :: a :: s :: ' ' :: behind) = behind := by
      rw [Reference.tableName, Reference.cutAlias_append named.solid as]
      exact called.trim_eq
    rwa [same]

theorem written_eq (shown : table.Shown settings text) :
    Reference.written settings.quote text = table.written settings.quote := by
  cases shown with
  | bare named => exact named.written_eq.trans (List.append_nil _).symm
  | aliased named called as =>
    have between : Token.sql [.space, .word .AS, .space] = (" AS " : Text) := rfl
    rw [Reference.written, Reference.quoted, Reference.parts_append named.solid as,
      Reference.parts_of_blankless called.solid, sql_intercalate, between]
    simp [named.sql_dotted, called.sql_dotted, TableName.written]

theorem names_solid (shown : table.Shown settings text) :
    ∀ name ∈ dots table.name :: table.alias?.toList, name.isEmpty = false ∧ name.trim = name := by
  have solid {segments : List Text} {text : Text} (dotted : Dotted settings segments text) :
      text.isEmpty = false ∧ text.trim = text :=
    ⟨by simpa using dotted.ne_nil, dotted.trim_eq⟩
  cases shown with
  | bare named => simpa using solid named.unquoted
  | aliased named called as =>
    have other := solid called.unquoted
    simpa [dots] using And.intro (solid named.unquoted) other

end TableName.Shown

/-! ### Columns -/

theorem findSome?_of_each {A B : Type} {items : List A} {f : A → Option B} {p : A → Bool} {b : B}
    (each : ∀ a ∈ items, f a = if p a then some b else none) :
    items.findSome? f = if items.any p then some b else none := by
  induction items with
  | nil => rfl
  | cons a rest ih =>
    have later := ih fun other member => each other (by simp [member])
    rw [List.findSome?_cons, each a (by simp), later, List.any_cons]
    cases p a <;> rfl

/-- A column behind the table that it names, if it names one. -/
structure ColumnName where
  table : List Text
  name : Text

namespace ColumnName

def segments (column : ColumnName) : List Text := column.table ++ [column.name]

/-- The column names its table by one segment at most, or it names the given table in full. -/
def near (column : ColumnName) (table : TableName) : Bool :=
  column.table.length ≤ 1 || Text.sameLetters (dots table.name) (dots column.table)

def isOf (column : ColumnName) (table : TableName) : Bool :=
  column.table.isEmpty || table.answers (dots column.table)

def under (column : ColumnName) (table : TableName) : List Text :=
  if column.isOf table then table.qualifier ++ [column.name] else column.segments

variable {settings : Settings} {column : ColumnName} {table : TableName} {text shown : Text}

theorem segment_name (named : Dotted settings column.segments text) : Segment settings column.name :=
  named.each column.name (by simp [segments])

theorem dots_segments (named : column.table ≠ []) :
    dots column.segments = dots column.table ++ '.' :: column.name := by
  rw [segments, dots, Text.intercalate_append named (by simp)]
  simp [dots]

-- The names of a table as they are shown need no trimming, and none of them is empty.
theorem stripTable_of_shown (named : Dotted settings column.segments text)
    (spelled : table.Shown settings shown) :
    Reference.stripTable settings.quote shown text =
      ((dots table.name :: table.alias?.toList).findSome? fun name =>
        Text.afterDotted name (dots column.segments)).getD (dots column.segments) := by
  have trimmed : (Reference.unquote settings.quote text).trim = dots column.segments := by
    rw [named.bare, named.unquoted.trim_eq]
  have names : (dots table.name :: table.alias?.toList).findSome? ((fun name =>
      if name.isEmpty then none else Text.afterDotted name (dots column.segments)) ∘ Text.trim) =
        (dots table.name :: table.alias?.toList).findSome? fun name =>
          Text.afterDotted name (dots column.segments) := by
    rw [← List.head?_filterMap, ← List.head?_filterMap]
    refine congrArg List.head? (List.filterMap_congr fun name member => ?_)
    obtain ⟨some, same⟩ := spelled.names_solid name member
    simp only [Function.comp_apply, same, some, Bool.false_eq_true, if_false]
  unfold Reference.stripTable
  rw [trimmed, spelled.cutAlias_unquote]
  dsimp only
  rw [List.findSome?_map, names]
  cases List.findSome? _ _ <;> rfl

theorem stripTable_eq (named : Dotted settings column.segments text) (spelled : table.Shown settings shown)
    (near : column.near table) :
    Reference.stripTable settings.quote shown text =
      if column.isOf table then column.name else dots column.segments := by
  have plain := (segment_name named).plain
  rw [stripTable_of_shown named spelled]
  rcases column with ⟨_ | ⟨first, rest⟩, name⟩
  · have single : dots (segments ⟨[], name⟩) = name := by simp [segments, dots]
    have missed : (dots table.name :: table.alias?.toList).findSome?
        (fun head => Text.afterDotted head name) = none :=
      List.findSome?_eq_none_iff.2 fun head _ => Text.afterDotted_of_plain plain
    rw [single, missed]
    exact (ite_self name).symm
  · have split : dots (segments ⟨first :: rest, name⟩) = dots (first :: rest) ++ '.' :: name :=
      dots_segments (by simp)
    by_cases whole : Text.sameLetters (dots table.name) (dots (first :: rest))
    · have own : isOf ⟨first :: rest, name⟩ table := by simp [isOf, TableName.answers, whole]
      rw [split, List.findSome?_cons, Text.afterDotted_of_sameLetters whole, if_pos own]
      rfl
    · obtain rfl : rest = [] := by simpa [ColumnName.near, whole] using near
      have piece : '.' ∉ dots [first] := by
        simpa [dots] using (named.each first (by simp [segments])).plain
      rw [split, findSome?_of_each fun head _ => Text.afterDotted_append piece plain]
      have same : isOf ⟨[first], name⟩ table = table.answers (dots [first]) := rfl
      rw [same, TableName.answers]
      cases List.any _ _ <;> rfl

section Under

variable (spelled : table.Shown settings shown)

include spelled

theorem sql_columnOf_segment {name : Text} (named : Segment settings name) :
    Token.sql (Scope.columnOf ⟨settings.quote, none⟩ (Reference.tableName shown) name) =
      quotedNames settings.quote (table.qualifier ++ [name]) := by
  have single := Dotted.of_segment named
  have plain : ¬ Reference.Qualified name := fun own => named.plain own.1
  rw [Scope.sql_columnOf_plain _ _ plain, spelled.qualifier.clean_eq, single.clean_eq,
    spelled.qualifier.unquoted.written_eq, single.unquoted.written_eq]
  unfold quotedNames dots
  rw [List.map_append, Text.intercalate_append (by simp [spelled.qualifier.some]) (by simp)]
  simp

theorem sql_under (named : Dotted settings column.segments text) (near : column.near table) :
    Token.sql (Scope.columnOf ⟨settings.quote, none⟩ (Reference.tableName shown)
        (Reference.stripTable settings.quote shown text)) =
      quotedNames settings.quote (column.under table) := by
  rw [stripTable_eq named spelled near, under]
  by_cases own : column.isOf table
  · rw [if_pos own, if_pos own]
    exact sql_columnOf_segment spelled (segment_name named)
  · have named_table : column.table ≠ [] := by
      intro none
      simp [isOf, none] at own
    have qualified : Reference.Qualified (dots column.segments) := by
      obtain ⟨first, rest, same⟩ := List.exists_cons_of_ne_nil named_table
      have segment := named.each first (by simp [segments, same])
      obtain ⟨c, letters, rfl⟩ := List.exists_cons_of_ne_nil segment.some
      have leads : c ≠ '.' := fun dot => segment.plain (by simp [dot])
      rw [dots_segments named_table, same, dots, Text.intercalate_cons]
      simpa [Reference.Qualified] using leads
    rw [if_neg own, if_neg own, Scope.sql_columnOf_qualified _ _ qualified, named.cleaned_eq,
      named.unquoted.written_eq]

end Under

end ColumnName

theorem joinColumn_of_dotted {settings : Settings} {segments : List Text} {text : Text}
    (named : Dotted settings segments text) (table standard : Text) :
    joinColumn settings table standard (some text) =
      .ok (Reference.stripTable settings.quote table text) :=
  joinColumn_eq_ok.2 (.inr ⟨text, rfl, named.validate "join", rfl⟩)

/-! ### The place of the comparison -/

theorem joinOperands_swap {right? : Option Text} (operator : Comparison)
    (columns : ∀ column ∈ right?, ¬ Comparison.isSpelled column) :
    joinOperands (some operator.sql) right? = joinOperands right? (some operator.sql) := by
  have spelled : Comparison.isSpelled operator.sql := by simp [Comparison.isSpelled, Comparison.read?_sql]
  cases right? with
  | none => simp [joinOperands, spelled]
  | some column => simp [joinOperands, spelled, columns column rfl]

theorem joinInput_swap {settings : Settings} {current table : Text} {left? right? kind? : Option Text}
    (operator : Comparison) (columns : ∀ column ∈ right?, ¬ Comparison.isSpelled column) :
    joinInput settings current table left? (some operator.sql) right? kind? =
      joinInput settings current table left? right? (some operator.sql) kind? := by
  unfold joinInput
  rw [joinOperands_swap operator columns]

/-- Columns that name no table, or one of their own, are written behind the name that the table goes by, and
those that name another table behind that name. A comparison stands behind the second column or in its
place. -/
theorem join_columns (s : Statement) (current joined first second : Text) (table other : TableName)
    (left right : ColumnName) (operator? kind? : Option Text) (comparison : Comparison)
    (held : s.table = some current) (shown : table.Shown s.settings current)
    (otherShown : other.Shown s.settings joined) (leftNamed : Dotted s.settings left.segments first)
    (rightNamed : Dotted s.settings right.segments second) (leftNear : left.near table)
    (rightNear : right.near other) (column : ¬ Comparison.isSpelled second)
    (compares : joinComparison operator? = .ok comparison) :
    (∃ next, (Edit.join joined (some first) (some second) operator? kind?).run s = (.ok (), next) ∧
      ∀ calls, Uninterrupted calls next →
        let t := Call.runAll calls next
        let quote := s.settings.quote
        t.kind.selects → t.table = some current → t.settings.quote = quote → ∃ front behind,
          t.sql = t.check.map fun _ => front ++ ' ' :: joinText (JoinKind.parse (kind?.getD []))
            (other.written quote) (quotedNames quote (left.under table)) comparison
            (quotedNames quote (right.under other)) ++ behind) ∧
    ∀ (joined : Text) (left? right? kind? : Option Text) (operator : Comparison),
      (∀ column ∈ right?, ¬ Comparison.isSpelled column) →
        (Edit.join joined left? (some operator.sql) right? kind?).run s =
          (Edit.join joined left? right? (some operator.sql) kind?).run s := by
  constructor
  · have operands : joinOperands (some second) operator? = (some second, operator?) := by
      simp [joinOperands, column]
    have compared : joinComparison (joinOperands (some second) operator?).2 = .ok comparison := by
      rw [operands]
      exact compares
    have leftFound := joinColumn_of_dotted leftNamed current "id"
    have rightFound : joinColumn s.settings joined.trim (Reference.defaultColumn s.settings.quote current)
        (joinOperands (some second) operator?).1 =
          .ok (Reference.stripTable s.settings.quote joined second) := by
      rw [operands, otherShown.trim_eq]
      exact joinColumn_of_dotted rightNamed joined _
    let join : Join := ⟨JoinKind.parse (kind?.getD []), joined,
      Reference.stripTable s.settings.quote current first, comparison,
      Reference.stripTable s.settings.quote joined second⟩
    obtain ⟨next, ran, kept⟩ : ∃ next,
        (Edit.join joined (some first) (some second) operator? kind?).run s = (.ok (), next) ∧
          join ∈ next.joins := by
      refine ⟨_, Edit.join_run held (otherShown.validate "join") compared leftFound rightFound, ?_⟩
      simp [Statement.touched, otherShown.trim_eq, join]
    refine ⟨next, ran, fun calls run => ?_⟩
    intro t quote selects present quotes
    obtain ⟨front, behind, text⟩ := Statement.sql_of_joined kept run selects present
    rw [show (Call.runAll calls next).settings.quote = s.settings.quote from quotes] at text
    dsimp only [join] at text
    rw [ColumnName.sql_under shown leftNamed leftNear,
      ColumnName.sql_under otherShown rightNamed rightNear,
      otherShown.written_eq] at text
    exact ⟨front, behind, text⟩
  · intro joined left? right? kind? operator columns
    simp only [Edit.run, Edit.change, Change.join, joinInput_swap operator columns]

-- A table joined with itself: the first column names it by its name and the second by its new alias.
theorem join_columns_self :
    let s := Call.runAll [.edit (.fromTable "shop.users AS u")] (.new {})
    let edit : Edit := .joinOnWith "`shop`.`users` as `Boss`" "SHOP.`users`.boss" "<>" "boss.id"
    let swapped : Edit := .joinOnWith "`shop`.`users` as `Boss`" "SHOP.`users`.boss" "boss.id" "<>"
    let next := (swapped.run s).2
    let text : Text := " JOIN `shop`.`users` AS `Boss` ON `u`.`boss`<>`Boss`.`id`"
    swapped.run s = (.ok (), next) ∧ edit.run s = (.ok (), next) ∧
      ∃ front behind, next.sql = next.check.map fun _ => front ++ text ++ behind := by
  intro s edit swapped next text
  have held : s.table = some "shop.users AS u" := by decide +kernel
  have done : swapped.run s = (.ok (), next) := Prod.ext (by decide +kernel) rfl
  have name : Dotted s.settings ["shop", "users"] "shop.users" := by decide +kernel
  have quoted : Dotted s.settings ["shop", "users"] "`shop`.`users`" := by decide +kernel
  have lower : Dotted s.settings ["u"] "u" := by decide +kernel
  have boss : Dotted s.settings ["Boss"] "`Boss`" := by decide +kernel
  have shown : TableName.Shown s.settings ⟨["shop", "users"], some "u"⟩ "shop.users AS u" :=
    @TableName.Shown.aliased s.settings _ "shop.users" "u" "u" 'A' 'S' name lower (by decide)
  have otherShown : TableName.Shown s.settings ⟨["shop", "users"], some "Boss"⟩ "`shop`.`users` as `Boss`" :=
    @TableName.Shown.aliased s.settings _ "`shop`.`users`" "Boss" "`Boss`" 'a' 's' quoted boss (by decide)
  obtain ⟨⟨made, ran, later⟩, swap⟩ := join_columns s "shop.users AS u" "`shop`.`users` as `Boss`"
    "SHOP.`users`.boss" "boss.id" _ _ ⟨["SHOP", "users"], "boss"⟩ ⟨["boss"], "id"⟩ (some "<>") none .unequal held shown
    otherShown (by decide +kernel) (by decide +kernel) (by decide) (by decide) (by decide) (by rfl)
  obtain rfl : made = next := congrArg Prod.snd (ran.symm.trans done)
  refine ⟨done, (swap _ _ _ _ .unequal (by decide)).trans done, ?_⟩
  obtain ⟨front, behind, whole⟩ := later [] trivial (by decide +kernel) (by decide +kernel) rfl
  refine ⟨front, behind, whole.trans ?_⟩
  exact congrArg (fun text => next.check.map fun _ => front ++ text ++ behind) (by decide +kernel)

/-- A column cannot go by the name of a comparison that stands bare. -/
theorem join_column_named_like :
    let s := Call.runAll [.edit (.fromTable "users")] (.new {})
    let next := ((Edit.joinOn "emails" "id" "LIKE").run s).2
    Dotted s.settings (ColumnName.segments ⟨[], "LIKE"⟩) "LIKE" ∧
      next.sql = .ok "SELECT * FROM `users` JOIN `emails` ON `users`.`id` LIKE `emails`.`users_id`" ∧
      next.sql ≠ .ok "SELECT * FROM `users` JOIN `emails` ON `users`.`id`=`emails`.`LIKE`" := by
  decide +kernel

end SqlComposer
