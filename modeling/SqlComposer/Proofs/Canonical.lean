import SqlComposer.Proofs.JoinColumns

set_option autoImplicit false

namespace SqlComposer

open Token

namespace Text

variable {c sep : Char} {text : Text}

theorem mem_trim_iff (solid : isBlank c = false) : c ∈ text.trim ↔ c ∈ text := by
  have other {d : Char} (blank : isBlank d) : c ≠ d := by
    rintro rfl
    simp [solid] at blank
  exact trim_induction (P := fun t => c ∈ t ↔ c ∈ text)
    (fun d t blank same => by simpa [other blank] using same)
    (fun d t blank same => by simpa [other blank] using same) text Iff.rfl

theorem head?_trim (solid : isBlank c = false) (leads : text.head? = some c) : text.trim.head? = some c := by
  have other {d : Char} (blank : isBlank d) : d ≠ c := by
    rintro rfl
    simp [solid] at blank
  refine trim_induction (P := fun t => t.head? = some c) (fun d t blank leads => ?_)
    (fun d t blank leads => ?_) text leads
  · exact (other blank (by simpa using leads)).elim
  · cases t with
    | nil => exact (other blank (by simpa using leads)).elim
    | cons first rest => simpa using leads

theorem split_behind (plain : sep ∉ text) (front : Text) : ∃ init last,
    split sep front = init ++ [last] ∧ split sep (front ++ text) = init ++ [last ++ text] := by
  induction front with
  | nil => exact ⟨[], [], rfl, by simpa using split_of_not_mem plain⟩
  | cons c front ih =>
    obtain ⟨init, last, ends, longer⟩ := ih
    by_cases same : c = sep
    · exact ⟨[] :: init, last, by simp [split, same, ends], by simp [split, same, longer]⟩
    · rw [List.cons_append, split_cons same, split_cons same, ends, longer]
      cases init with
      | nil => exact ⟨[], c :: last, rfl, rfl⟩
      | cons piece pieces => exact ⟨(c :: piece) :: pieces, last, rfl, rfl⟩

end Text

namespace Reference

variable {quote : Quote} {text : Text}

theorem cleaned_trim (text : Text) : cleaned quote text.trim = cleaned quote text := by
  have left (c : Char) (t : Text) (blank : isBlank c) : clean quote (c :: t) = clean quote t := by
    rw [clean, Text.trim_cons blank, clean]
  have right (c : Char) (t : Text) (blank : isBlank c) : clean quote (t ++ [c]) = clean quote t := by
    rw [clean, Text.trim_concat blank, clean]
  refine Text.trim_induction (P := fun t => cleaned quote t = cleaned quote text)
    (fun c t blank same => ?_) (fun c t blank same => ?_) text rfl
  · rw [← same, cleaned, cleaned, Text.map_split_cons rfl blank fun t => left c t blank]
  · rw [← same, cleaned, cleaned, Text.map_split_concat rfl blank fun t => right c t blank]

theorem cleaned_eq_unquote (trimmed : ∀ piece ∈ Text.split '.' text, piece.trim = piece) :
    cleaned quote text = unquote quote text := by
  have each (piece : Text) (inside : piece ∈ Text.split '.' text) : clean quote piece = unquote quote piece :=
    congrArg (unquote quote) (trimmed piece inside)
  rw [cleaned, List.map_congr_left each, ← (bares_unquote quote).split, Text.intercalate_split]

theorem cleaned_meet (a b : Text) :
    cleaned quote (a ++ '.' :: b) = cleaned quote a ++ '.' :: cleaned quote b := by
  unfold cleaned
  rw [Text.split_append, List.map_append, Text.intercalate_append (by simp [Text.split_ne_nil])
    (by simp [Text.split_ne_nil])]
  simp

theorem written_meet (a b : Text) :
    written quote (a ++ '.' :: b) = written quote a ++ '.' :: written quote b := by
  simp [written, quoted_meet]

end Reference

def marked (quote : Quote) : Text × Bool → Text
  | (name, true) => quote.char :: name ++ [quote.char]
  | (name, false) => name

theorem unquote_marked {quote : Quote} {name : Text} (bare : quote.char ∉ name) (quoted : Bool) :
    Reference.unquote quote (marked quote (name, quoted)) = name := by
  have kept : Reference.unquote quote name = name :=
    List.filter_eq_self.2 fun c member => by simpa using ne_of_mem_of_not_mem member bare
  cases quoted with
  | false => exact kept
  | true => simpa [marked, Reference.unquote] using kept

theorem unquote_dots (quote : Quote) (pieces : List Text) :
    Reference.unquote quote (dots pieces) = dots (pieces.map (Reference.unquote quote)) := by
  have dot : '.' ≠ quote.char := by cases quote <;> decide
  cases pieces with
  | nil => rfl
  | cons first rest =>
    simp [dots, Reference.unquote, Text.intercalate_cons, List.filter_flatMap, List.flatMap_map, dot]

namespace Dotted

variable {settings : Settings} {segments : List Text} {text : Text}

theorem of_marked {names : List (Text × Bool)} (some : names ≠ [])
    (each : ∀ name ∈ names.map Prod.fst, Segment settings name) :
    Dotted settings (names.map Prod.fst) (dots (names.map (marked settings.quote))) where
  some := by simpa using some
  each := each
  bare := by
    rw [unquote_dots, List.map_map]
    refine congrArg dots (List.map_congr_left fun name member => ?_)
    exact unquote_marked (each name.1 (List.mem_map_of_mem member)).bare name.2

theorem quotedNames (dotted : Dotted settings segments text) :
    Dotted settings segments (quotedNames settings.quote segments) := by
  let names : List (Text × Bool) := segments.map (·, true)
  have all : Dotted settings (names.map Prod.fst) (dots (names.map (marked settings.quote))) :=
    of_marked (by simpa [names] using dotted.some) (by simpa [names, Function.comp_def] using dotted.each)
  simpa [names, Function.comp_def, SqlComposer.quotedNames, marked] using all

theorem piece (dotted : Dotted settings segments text) {piece : Text} (inside : piece ∈ Text.split '.' text) :
    Dotted settings [Reference.unquote settings.quote piece] piece := by
  have named : Reference.unquote settings.quote piece ∈ segments := by
    rw [← dotted.split_dots, ← dotted.bare, (Reference.bares_unquote settings.quote).split]
    exact List.mem_map_of_mem inside
  exact ⟨by simp, by simpa using dotted.each _ named, by simp [dots]⟩

theorem dot_mem_iff (dotted : Dotted settings segments text) : '.' ∈ text ↔ segments.length ≠ 1 := by
  have dot : '.' ≠ settings.quote.char := by cases settings.quote <;> decide
  have kept : '.' ∈ text ↔ '.' ∈ dots segments := by
    simp [← dotted.bare, Reference.unquote, dot]
  rw [kept]
  rcases segments with _ | ⟨first, _ | ⟨second, rest⟩⟩
  · exact absurd rfl dotted.some
  · simpa [dots] using (dotted.each first (by simp)).plain
  · simp [dots]

theorem head?_ne_dot (dotted : Dotted settings segments text) : text.head? ≠ Option.some '.' := by
  intro leads
  obtain ⟨rest, rfl⟩ := List.head?_eq_some_iff.1 leads
  have empty : Dotted settings [Reference.unquote settings.quote []] [] :=
    dotted.piece (by simp [Text.split])
  exact empty.ne_nil rfl

end Dotted

namespace TableName.Shown

variable {settings : Settings} {table : TableName} {text : Text}

theorem unquoted (shown : table.Shown settings text) :
    table.Shown settings (Reference.unquote settings.quote text) := by
  cases shown with
  | bare named => exact .bare (named.bare ▸ named.unquoted)
  | aliased named called as =>
    rw [Reference.unquote_append settings.quote _ _ as]
    exact .aliased (named.bare ▸ named.unquoted) (called.bare ▸ called.unquoted) as

theorem written (shown : table.Shown settings text) : table.Shown settings (table.written settings.quote) := by
  cases shown with
  | bare named => simpa [TableName.written] using Shown.bare named.quotedNames
  | aliased named called as =>
    exact .aliased (a := 'A') (s := 'S') named.quotedNames called.quotedNames rfl

theorem undotted_alias {other behind : Text} {a s : Char} (called : Dotted settings [other] behind)
    (as : Reference.isAs a s) : '.' ∉ ' ' :: a :: s :: ' ' :: behind := by
  have plain : '.' ∉ behind := fun dot => called.dot_mem_iff.1 dot rfl
  have letters : '.' ≠ a ∧ '.' ≠ s := by
    constructor <;> rintro rfl <;> simp [Reference.isAs] at as
  simp [plain, letters]

theorem trim_piece (shown : table.Shown settings text) {piece : Text} (inside : piece ∈ Text.split '.' text) :
    piece.trim = piece := by
  cases shown with
  | bare named => exact (named.piece inside).trim_eq
  | @aliased name text other behind a s named called as =>
    obtain ⟨init, last, front, whole⟩ := Text.split_behind (undotted_alias called as) text
    rw [whole, List.mem_append, List.mem_singleton] at inside
    rcases inside with earlier | rfl
    · exact (named.piece (by simp [front, earlier])).trim_eq
    · exact (Shown.aliased (named.piece (by simp [front])) called as).trim_eq

theorem dot_mem_iff (shown : table.Shown settings text) : '.' ∈ text ↔ table.name.length ≠ 1 := by
  cases shown with
  | bare named => exact named.dot_mem_iff
  | aliased named called as =>
    rw [List.mem_append, or_iff_left (undotted_alias called as), named.dot_mem_iff]

theorem head?_ne_dot (shown : table.Shown settings text) : text.head? ≠ some '.' := by
  cases shown with
  | bare named => exact named.head?_ne_dot
  | aliased named called as =>
    rw [List.head?_append_of_ne_nil _ named.ne_nil]
    exact named.head?_ne_dot

theorem qualified_iff (shown : table.Shown settings text.trim) :
    Reference.Qualified text ↔ table.name.length ≠ 1 := by
  have leads : text.head? ≠ some '.' := mt (Text.head?_trim rfl) shown.head?_ne_dot
  rw [Reference.Qualified, and_iff_left leads, ← Text.mem_trim_iff rfl, shown.dot_mem_iff]

theorem qualified_append (shown : table.Shown settings text) (rest : Text) :
    Reference.Qualified (text ++ '.' :: rest) := by
  have some : text ≠ [] := by
    cases shown with
    | bare named => exact named.ne_nil
    | aliased => simp
  refine ⟨by simp, ?_⟩
  rw [List.head?_append_of_ne_nil _ some]
  exact shown.head?_ne_dot

theorem written_cleaned (shown : table.Shown settings text.trim) :
    Reference.written settings.quote (Reference.cleaned settings.quote text) =
      table.written settings.quote := by
  rw [← Reference.cleaned_trim, Reference.cleaned_eq_unquote fun piece inside => shown.trim_piece inside]
  exact shown.unquoted.written_eq

theorem written_clean (shown : table.Shown settings text.trim) :
    Reference.written settings.quote (Reference.clean settings.quote text) = table.written settings.quote :=
  shown.unquoted.written_eq

theorem trimmed (shown : table.Shown settings text) : table.Shown settings text.trim :=
  shown.trim_eq.symm ▸ shown

end TableName.Shown

theorem Scope.sql_column_qualified (scope : Scope) {reference : Text} (own : Reference.Qualified reference) :
    Token.sql (scope.column reference) =
      Reference.written scope.quote (Reference.cleaned scope.quote reference) := by
  rw [column, Reference.qualify_of_dot own.1 own.2]
  rfl

/-- A column of one name is written behind the table, any other and its alias as they are, between quotes.
Names that have their quotes already, even all of them as in what is written, do not get more. -/
theorem clean_reference_canonical (settings : Settings) (table column : TableName) (source reference : Text)
    (under : table.Shown settings source.trim) (named : column.Shown settings reference.trim) :
    let quote := settings.quote
    let bare := column.written quote
    let whole := if column.name.length = 1 then table.written quote ++ '.' :: bare else bare
    Token.sql (Scope.column ⟨quote, some source⟩ reference) = whole ∧
      Token.sql (Reference.quoted quote reference.trim) = bare ∧
      (∀ table?, Token.sql (Scope.column ⟨quote, table?⟩ whole) = whole) ∧
      Token.sql (Reference.quoted quote whole) = whole ∧ Token.sql (Reference.quoted quote bare) = bare := by
  intro quote bare whole
  have bareAgain : Reference.written quote bare = bare := named.written.written_eq
  by_cases single : column.name.length = 1
  · have plain : ¬ Reference.Qualified reference := fun own => named.qualified_iff.1 own single
    have behind : whole = table.written quote ++ '.' :: bare := if_pos single
    have own : Reference.Qualified whole := behind ▸ under.written.qualified_append bare
    have cleaned : Reference.written quote (Reference.cleaned quote whole) = whole := by
      rw [behind, Reference.cleaned_meet, Reference.written_meet, under.written.trimmed.written_cleaned,
        named.written.trimmed.written_cleaned]
    refine ⟨?_, named.written_eq, fun table? => ?_, ?_, bareAgain⟩
    · rw [behind, ← under.written_clean, show bare = _ from named.written_clean.symm]
      exact Scope.sql_columnOf_plain ⟨quote, none⟩ source plain
    · rw [Scope.sql_column_qualified _ own, cleaned]
    · rw [behind]
      exact (Reference.written_meet _ _).trans (congrArg₂ _ under.written.written_eq (congrArg _ bareAgain))
  · have whole_eq : whole = bare := if_neg single
    have own := named.qualified_iff.2 single
    have ownAgain : Reference.Qualified bare := named.written.trimmed.qualified_iff.2 single
    rw [whole_eq]
    refine ⟨?_, named.written_eq, fun table? => ?_, bareAgain, bareAgain⟩
    · rw [Scope.sql_column_qualified _ own, named.written_cleaned]
    · rw [Scope.sql_column_qualified _ ownAgain, named.written.trimmed.written_cleaned]

-- Names that read like the word between a name and its alias, with quotes and blanks here and there.
theorem clean_reference_canonical_as :
    let settings := Settings.addReferenceChars {} "$-".toList
    let source : Text := "shop.`or-ders` as `O`"
    let reference : Text := "\t`as` aS as\n"
    let whole : Text := "`shop`.`or-ders` AS `O`.`as` AS `as`"
    Token.sql (Scope.column ⟨settings.quote, some source⟩ reference) = whole ∧
      Token.sql (Reference.quoted settings.quote reference.trim) = ("`as` AS `as`" : Text) ∧
      (∀ table?, Token.sql (Scope.column ⟨settings.quote, table?⟩ whole) = whole) ∧
      Token.sql (Scope.column ⟨settings.quote, some source⟩ "as.`$u`") = ("`as`.`$u`" : Text) := by
  intro settings source reference whole
  have table : Dotted settings ["shop", "or-ders"] "shop.`or-ders`" := by decide +kernel
  have other : Dotted settings ["O"] "`O`" := by decide +kernel
  have quoted : Dotted settings ["as"] "`as`" := by decide +kernel
  have plain : Dotted settings ["as"] "as" := by decide +kernel
  have own : Dotted settings ["as", "$u"] "as.`$u`" := by decide +kernel
  have under : TableName.Shown settings ⟨["shop", "or-ders"], some "O"⟩ source :=
    .aliased (a := 'a') (s := 's') table other (by decide)
  have named : TableName.Shown settings ⟨["as"], some "as"⟩ "`as` aS as" :=
    .aliased (a := 'a') (s := 'S') quoted plain (by decide)
  have trimmed : reference.trim = "`as` aS as" := by decide +kernel
  obtain ⟨first, second, again, -⟩ :=
    clean_reference_canonical settings _ _ source reference under.trimmed (trimmed ▸ named)
  obtain ⟨qualified, -⟩ := clean_reference_canonical settings _ ⟨["as", "$u"], none⟩ source "as.`$u`"
    under.trimmed (TableName.Shown.bare own).trimmed
  exact ⟨first, second, again, qualified⟩

end SqlComposer
