import Mathlib.Data.List.Forall2
import SqlComposer.Proofs.Cutting
import SqlComposer.Token

set_option autoImplicit false

/-!
How references are written. One that is written as it is shows the pieces that the check reads exactly
where they have no blanks round them: `Reference.spelling_quoted_iff`. A column does if trimming it
between its dots moves no cut: `Reference.Stable.spelling`, `Reference.Neat.column`.
-/

namespace SqlComposer

namespace Text

variable {A : Type}

theorem flatMap_append_inj {sep : List A} {a b : List (List A)}
    (lengths : a.map List.length = b.map List.length)
    (same : a.flatMap (sep ++ ·) = b.flatMap (sep ++ ·)) : a = b := by
  induction a generalizing b with
  | nil =>
    cases b with
    | nil => rfl
    | cons => cases lengths
  | cons piece rest ih =>
    cases b with
    | nil => cases lengths
    | cons other others =>
      rw [List.map_cons, List.map_cons, List.cons.injEq] at lengths
      rw [List.flatMap_cons, List.flatMap_cons] at same
      obtain ⟨first, later⟩ := List.append_inj same (by simp [lengths.1])
      rw [List.append_cancel_left first, ih lengths.2 later]

theorem intercalate_inj {sep : List A} {a b : List (List A)}
    (lengths : a.map List.length = b.map List.length)
    (same : sep.intercalate a = sep.intercalate b) : a = b := by
  cases a with
  | nil =>
    cases b with
    | nil => rfl
    | cons => cases lengths
  | cons piece rest =>
    cases b with
    | nil => cases lengths
    | cons other others =>
      rw [List.map_cons, List.map_cons, List.cons.injEq] at lengths
      rw [intercalate_cons, intercalate_cons] at same
      obtain ⟨first, later⟩ := List.append_inj same lengths.1
      rw [first, flatMap_append_inj lengths.2 later]

theorem intercalate_append {sep : List A} {a b : List (List A)} (left : a ≠ []) (right : b ≠ []) :
    sep.intercalate (a ++ b) = sep.intercalate a ++ sep ++ sep.intercalate b := by
  obtain ⟨first, rest, rfl⟩ := List.exists_cons_of_ne_nil left
  obtain ⟨next, more, rfl⟩ := List.exists_cons_of_ne_nil right
  simp [intercalate_cons]

theorem intercalate_meet {sep : List A} (front behind : List (List A)) (last first : List A) :
    sep.intercalate (front ++ (last ++ first) :: behind) =
      sep.intercalate (front ++ [last]) ++ sep.intercalate (first :: behind) := by
  cases front <;> simp [intercalate_cons]

end Text

namespace Token

def dotJoined (names : List Token) : List Token := [dot].intercalate (names.map fun name => [name])

def joined (names : List (List Token)) : List Token :=
  [space, .word .AS, .space].intercalate (names.map dotJoined)

def Spells (quote : Quote) (token : Token) (piece : Text) : Prop :=
  token = .quoted quote piece ∨ piece = ['*'] ∧ token = .star

/-- Exactly these pieces in this order. -/
def Spelling (quote : Quote) (pieces : List (List Text)) (tokens : List Token) : Prop :=
  ∃ names, List.Forall₂ (List.Forall₂ (Spells quote)) names pieces ∧ tokens = joined names

theorem length_dotJoined (names : List Token) : (dotJoined names).length = 2 * names.length - 1 := by
  cases names with
  | nil => simp [dotJoined]
  | cons first rest =>
    have later : (rest.flatMap fun name => [dot, name]).length = 2 * rest.length := by
      induction rest with
      | nil => rfl
      | cons name rest ih => simp [ih]; omega
    simp [dotJoined, Text.intercalate_cons, List.flatMap_map, later]
    omega

theorem dotJoined_injective : Function.Injective dotJoined := by
  intro a b same
  have sizes := congrArg List.length same
  rw [length_dotJoined, length_dotJoined] at sizes
  have equal : a.length = b.length := by omega
  have singles : Function.Injective fun name : Token => [name] := fun _ _ same => List.singleton_inj.1 same
  refine List.map_injective_iff.2 singles (Text.intercalate_inj ?_ same)
  simp [Function.comp_def, List.map_const', equal]

theorem joined_inj {a b : List (List Token)} (lengths : a.map List.length = b.map List.length)
    (same : joined a = joined b) : a = b := by
  refine List.map_injective_iff.2 dotJoined_injective (Text.intercalate_inj ?_ same)
  have doubled := congrArg (List.map fun n => 2 * n - 1) lengths
  simpa [Function.comp_def, length_dotJoined] using doubled

end Token

namespace Reference

variable {quote : Quote} {text : Text}

def segments (quote : Quote) (reference : Text) : List (List Token) :=
  (parts reference).map fun part => (Text.split '.' part).map (segment quote)

theorem quoted_eq (quote : Quote) (reference : Text) :
    quoted quote reference = Token.joined (segments quote reference) := by
  unfold quoted dotted
  simp [segments, Token.joined, Token.dotJoined, Function.comp_def]

theorem unquote_wildcard (quote : Quote) : unquote quote ['*'] = ['*'] := by cases quote <;> rfl

theorem spells_segment_iff {piece : Text} :
    Token.Spells quote (segment quote piece) (unquote quote piece).trim ↔
      (unquote quote piece).trim = unquote quote piece := by
  by_cases wild : isWildcard piece
  · obtain rfl : piece = ['*'] := by simpa [isWildcard] using wild
    rw [unquote_wildcard]
    exact iff_of_true (.inr ⟨rfl, rfl⟩) rfl
  · simp [Token.Spells, segment, wild, eq_comm]

theorem forall₂_segments_iff :
    List.Forall₂ (List.Forall₂ (Token.Spells quote)) (segments quote text) (pieces quote text) ↔
      ∀ part ∈ parts text, ∀ piece ∈ Text.split '.' part,
        (unquote quote piece).trim = unquote quote piece := by
  simp only [segments, pieces, List.forall₂_map_left_iff, List.forall₂_map_right_iff,
    List.forall₂_same, spells_segment_iff]

theorem spelling_quoted_iff :
    Token.Spelling quote (pieces quote text) (quoted quote text) ↔
      ∀ part ∈ parts text, ∀ piece ∈ Text.split '.' part,
        (unquote quote piece).trim = unquote quote piece := by
  rw [← forall₂_segments_iff, quoted_eq]
  constructor
  · rintro ⟨names, spelled, same⟩
    have shape : names.map List.length = (pieces quote text).map List.length := by
      rw [← List.forall₂_eq_eq_eq, List.forall₂_map_left_iff, List.forall₂_map_right_iff]
      exact spelled.imp fun _ _ each => each.length_eq
    have lengths : (segments quote text).map List.length = names.map List.length := by
      rw [shape]
      simp [segments, pieces, Function.comp_def]
    exact Token.joined_inj lengths same ▸ spelled
  · exact fun spelled => ⟨_, spelled, rfl⟩

/-! ### References that are taken bare -/

def cleaned (quote : Quote) (reference : Text) : Text :=
  ['.'].intercalate ((Text.split '.' reference).map (clean quote))

structure Bares (quote : Quote) (whole single : Text → Text) : Prop where
  split : ∀ text, Text.split '.' (whole text) = (Text.split '.' text).map single
  bare : ∀ text, unquote quote (single text) = single text
  trim : ∀ text, (single text).trim = (unquote quote text).trim

theorem bares_unquote (quote : Quote) : Bares quote (unquote quote) (unquote quote) where
  split := Text.split_filter (by cases quote <;> decide)
  bare text := by simp [unquote]
  trim _ := rfl

theorem bares_cleaned (quote : Quote) : Bares quote (cleaned quote) (clean quote) where
  split text := by
    refine Text.split_intercalate (by simp [Text.split_ne_nil]) fun piece member => ?_
    obtain ⟨piece, inside, rfl⟩ := List.mem_map.1 member
    exact fun dot => Text.not_mem_of_mem_split inside (mem_of_mem_clean dot)
  bare text := (bares_unquote quote).bare text.trim
  trim text :=
    Text.trim_induction (P := fun t => (unquote quote t).trim = (unquote quote text).trim)
      (fun _ t blank same => trim_unquote_cons blank t ▸ same)
      (fun _ t blank same => trim_unquote_concat blank t ▸ same) text rfl

structure Stable (whole single : Text → Text) (reference : Text) : Prop where
  trimmed : ∀ part ∈ parts reference, ∀ piece ∈ Text.split '.' part, (single piece).trim = single piece
  cuts : parts (whole reference) = (parts reference).map whole

/-- Nothing is to be trimmed, and the quotes hide no cut. -/
structure Tight (quote : Quote) (reference : Text) : Prop
    extends Stable (unquote quote) (unquote quote) reference where
  solid : ∀ part ∈ parts reference, part ≠ []

/-- Trimming between the dots is trimming between dots and cuts. No dot comes first, and one behind a cut
only if there is one before it. -/
structure Neat (quote : Quote) (reference : Text) : Prop
    extends Stable (cleaned quote) (clean quote) reference where
  leads : reference.head? ≠ some '.'
  heads : '.' ∈ reference → '.' ∈ (cutAlias reference).1

theorem Stable.spelling {whole single : Text → Text} (bares : Bares quote whole single)
    (stable : Stable whole single text) :
    Token.Spelling quote (pieces quote text) (quoted quote (whole text)) := by
  have same : pieces quote text = pieces quote (whole text) := by
    simp [pieces, stable.cuts, Function.comp_def, bares.split, bares.bare, bares.trim]
  rw [same, spelling_quoted_iff, stable.cuts]
  intro part within piece inside
  obtain ⟨part, given, rfl⟩ := List.mem_map.1 within
  rw [bares.split] at inside
  obtain ⟨piece, known, rfl⟩ := List.mem_map.1 inside
  rw [bares.bare]
  exact stable.trimmed part given piece known

theorem Tight.trim_eq (tight : Tight quote text) : text.trim = text := by
  refine Text.trim_eq_self ?_ ?_
  · rintro c rest rfl
    by_contra blank
    rw [Bool.not_eq_false] at blank
    have kept : c ≠ quote.char := ne_quote_of_isBlank blank
    rcases parts_cons c rest with ⟨a, s, more, -, -, -, cut⟩ | uncut
    · exact tight.solid [] (by simp [cut]) rfl
    · obtain ⟨part, others, first⟩ := List.exists_cons_of_ne_nil (parts_ne_nil rest)
      obtain ⟨piece, pieces, split⟩ := List.exists_cons_of_ne_nil (Text.split_ne_nil '.' part)
      have known := tight.trimmed (c :: part) (by simp [uncut, first, Text.extend]) (c :: piece)
        (by simp [Text.split_cons (ne_dot_of_isBlank blank), split, Text.extend])
      rw [unquote, List.filter_cons_of_pos (by simpa using kept)] at known
      exact Text.trim_cons_ne blank _ known
  · rintro c rest rfl
    by_contra blank
    rw [Bool.not_eq_false] at blank
    have kept : c ≠ quote.char := ne_quote_of_isBlank blank
    rcases parts_concat c rest with ⟨init, -, cut⟩ | ⟨init, last, -, uncut⟩
    · exact tight.solid [] (by simp [cut]) rfl
    · obtain ⟨pieces, piece, -, split⟩ := Text.split_concat (ne_dot_of_isBlank blank) last
      have known := tight.trimmed (last ++ [c]) (by simp [uncut]) (piece ++ [c]) (by simp [split])
      rw [unquote, List.filter_append, List.filter_cons_of_pos (by simpa using kept)] at known
      exact Text.trim_concat_ne blank _ known

theorem ne_quote_of_isAs (quote : Quote) {a s : Char} (as : isAs a s) : a ≠ quote.char ∧ s ≠ quote.char := by
  simp only [isAs, Bool.and_eq_true, Bool.or_eq_true, beq_iff_eq] at as
  rcases as with ⟨rfl | rfl, rfl | rfl⟩ <;> cases quote <;> decide

theorem unquote_append (quote : Quote) (front behind : Text) {a s : Char} (as : isAs a s) :
    unquote quote (front ++ ' ' :: a :: s :: ' ' :: behind) =
      unquote quote front ++ ' ' :: a :: s :: ' ' :: unquote quote behind := by
  have letters := ne_quote_of_isAs quote as
  have space : ' ' ≠ quote.char := by cases quote <;> decide
  simp [unquote, letters, space]

theorem cutAlias_eq_some {name rest : Text} (cut : cutAlias text = (name, some rest)) :
    ∃ a s, isAs a s ∧ text = name ++ ' ' :: a :: s :: ' ' :: rest := by
  fun_induction cutAlias text generalizing name rest with
  | case1 a s behind as =>
    obtain ⟨rfl, rfl⟩ : [] = name ∧ behind = rest := by simpa using cut
    exact ⟨a, s, as, rfl⟩
  | case2 a s behind as name' alias? inner ih | case3 c behind other name' alias? inner ih =>
    obtain ⟨rfl, rfl⟩ := Prod.mk.inj cut
    obtain ⟨b, t, as', same⟩ := ih inner
    exact ⟨b, t, as', by simp [same]⟩
  | case4 => cases cut

theorem cutAlias_eq_none {name : Text} (cut : cutAlias text = (name, none)) : name = text := by
  fun_induction cutAlias text generalizing name with
  | case1 => cases cut
  | case2 a s behind as name' alias? inner ih | case3 c behind other name' alias? inner ih =>
    obtain ⟨rfl, rfl⟩ := Prod.mk.inj cut
    rw [ih inner]
  | case4 =>
    obtain ⟨rfl, -⟩ := Prod.mk.inj cut
    rfl

theorem Tight.alias {name rest : Text} (tight : Tight quote text)
    (cut : cutAlias text = (name, some rest)) : Tight quote rest := by
  have whole : parts text = name :: parts rest := by rw [parts_eq, cut]
  obtain ⟨a, s, as, same⟩ := cutAlias_eq_some cut
  refine ⟨⟨fun part within => tight.trimmed part (by simp [whole, within]), ?_⟩,
    fun part within => tight.solid part (by simp [whole, within])⟩
  have bare : unquote quote text =
      unquote quote name ++ ' ' :: a :: s :: ' ' :: unquote quote rest := by
    rw [same, unquote_append quote name rest as]
  have cuts := tight.cuts
  rw [whole, List.map_cons, parts_eq] at cuts
  rcases found : cutAlias (unquote quote text) with ⟨front, behind?⟩
  rw [found] at cuts
  cases behind? with
  | none =>
    have none : parts rest = [] := by simpa using (List.cons.inj cuts).2
    exact (parts_ne_nil rest none).elim
  | some behind =>
    obtain ⟨rfl, later⟩ := List.cons.inj cuts
    obtain ⟨b, t, -, same⟩ := cutAlias_eq_some found
    rw [bare] at same
    have equal := List.append_cancel_left same
    simp only [List.cons.injEq, true_and] at equal
    rw [equal.2.2]
    exact later

theorem Tight.tableName (tight : Tight quote text) : Tight quote (tableName text) := by
  unfold Reference.tableName
  split
  · next name cut =>
    rw [cutAlias_eq_none cut, tight.trim_eq]
    exact tight
  · next name rest cut =>
    rw [(tight.alias cut).trim_eq]
    exact tight.alias cut

section Blankless

variable (blankless : ∀ c ∈ text, isBlank c = false)

include blankless

theorem parts_of_blankless : parts text = [text] := by
  induction text with
  | nil => rfl
  | cons c rest ih =>
    rcases parts_cons c rest with ⟨a, s, more, rfl, -, -, -⟩ | uncut
    · exact absurd (blankless ' ' (by simp)) (by decide)
    · rw [uncut, ih fun other member => blankless other (by simp [member])]
      rfl

theorem trim_of_blankless : text.trim = text :=
  Text.trim_eq_self (fun c _ same => blankless c (by simp [same])) fun c _ same => blankless c (by simp [same])

theorem cutAlias_of_blankless : cutAlias text = (text, none) := by
  have whole := parts_of_blankless blankless
  rw [parts_eq] at whole
  rcases cut : cutAlias text with ⟨name, rest?⟩
  rw [cut] at whole
  cases rest? with
  | none => rw [cutAlias_eq_none cut]
  | some rest => exact absurd (List.cons.inj whole).2 (parts_ne_nil rest)

end Blankless

theorem parts_meet (a b : Text) : ∃ front last first behind,
    parts a = front ++ [last] ∧ parts b = first :: behind ∧
      parts (a ++ '.' :: b) = front ++ (last ++ '.' :: first) :: behind := by
  obtain ⟨first, behind, right⟩ := List.exists_cons_of_ne_nil (parts_ne_nil b)
  have extended (c : Char) (left whole : List Text)
      (ih : ∃ front last, left = front ++ [last] ∧
        whole = front ++ (last ++ '.' :: first) :: behind) :
      ∃ front last, Text.extend c left = front ++ [last] ∧
        Text.extend c whole = front ++ (last ++ '.' :: first) :: behind := by
    obtain ⟨front, last, rfl, rfl⟩ := ih
    cases front with
    | nil => exact ⟨[], c :: last, rfl, rfl⟩
    | cons piece rest => exact ⟨(c :: piece) :: rest, last, rfl, rfl⟩
  have met : ∃ front last, parts a = front ++ [last] ∧
      parts (a ++ '.' :: b) = front ++ (last ++ '.' :: first) :: behind := by
    fun_induction parts a with
    | case1 a s rest as ih =>
      obtain ⟨front, last, left, whole⟩ := ih
      exact ⟨[] :: front, last, by simp [left], by simp [parts, as, whole]⟩
    | case2 a s rest as ih =>
      have uncut : parts (' ' :: a :: s :: ' ' :: rest ++ '.' :: b) =
          Text.extend ' ' (parts (a :: s :: ' ' :: rest ++ '.' :: b)) := by
        simp [parts, as]
      rw [uncut]
      exact extended ' ' _ _ ih
    | case3 c rest other ih =>
      rcases parts_cons c (rest ++ '.' :: b) with ⟨a, s, more, rfl, longer, as, -⟩ | uncut
      -- All four characters of a cut stand before the dot.
      · rcases rest with _ | ⟨x, _ | ⟨y, _ | ⟨z, rest⟩⟩⟩
        · obtain ⟨rfl, -⟩ := List.cons.inj longer
          simp [isAs] at as
        · obtain ⟨-, longer⟩ := List.cons.inj longer
          obtain ⟨rfl, -⟩ := List.cons.inj longer
          simp [isAs] at as
        · simp at longer
        · simp only [List.cons_append, List.cons.injEq] at longer
          obtain ⟨rfl, rfl, rfl, -⟩ := longer
          exact (other x y rest rfl rfl).elim
      · rw [List.cons_append, uncut]
        exact extended c _ _ ih
    | case4 => exact ⟨[], [], rfl, by simp [parts, right, Text.extend]⟩
  obtain ⟨front, last, left, whole⟩ := met
  exact ⟨front, last, first, behind, left, right, whole⟩

theorem dotted_meet (quote : Quote) (a b : Text) :
    dotted quote (a ++ '.' :: b) = dotted quote a ++ .dot :: dotted quote b := by
  unfold dotted
  rw [Text.split_append, List.map_append, Text.intercalate_append (by simp [Text.split_ne_nil])
    (by simp [Text.split_ne_nil])]
  simp

theorem quoted_meet (quote : Quote) (a b : Text) :
    quoted quote (a ++ '.' :: b) = quoted quote a ++ .dot :: quoted quote b := by
  obtain ⟨front, last, first, behind, left, right, whole⟩ := parts_meet a b
  unfold quoted
  rw [whole, left, right, List.map_append, List.map_append, List.map_cons, dotted_meet,
    Text.intercalate_meet]
  simp [Text.intercalate_cons]

/-! ### Qualifying -/

theorem isSome_splitFirst (sep : Char) (text : Text) :
    (Text.splitFirst sep text).2.isSome ↔ sep ∈ text := by
  induction text with
  | nil => simp [Text.splitFirst]
  | cons c rest ih =>
    by_cases same : c = sep
    · simp [Text.splitFirst, same]
    · simp [Text.splitFirst, same, ih, Ne.symm same]

theorem qualify_of_dot (dot : '.' ∈ text) (leads : text.head? ≠ some '.') (table : Option Text) :
    qualify quote table text = ['.'].intercalate ((Text.split '.' text).map (clean quote)) := by
  obtain ⟨c, before, after, first⟩ :
      ∃ c before after, Text.splitFirst '.' text = (c :: before, some after) := by
    obtain ⟨after, found⟩ := Option.isSome_iff_exists.1 ((isSome_splitFirst '.' text).2 dot)
    cases text with
    | nil => cases dot
    | cons c rest =>
      have other : c ≠ '.' := by simpa using leads
      simp only [Text.splitFirst, other, if_false] at found ⊢
      exact ⟨c, _, after, by rw [found]⟩
  unfold qualify
  rw [first]

theorem qualify_of_plain (plain : '.' ∉ text) (table : Option Text) :
    qualify quote table text = match table with
      | some table => clean quote table ++ '.' :: clean quote text
      | none => clean quote text := by
  have none : (Text.splitFirst '.' text).2 = none := by
    rw [← Option.not_isSome_iff_eq_none, isSome_splitFirst]
    exact plain
  unfold qualify
  rcases found : Text.splitFirst '.' text with ⟨before, after⟩
  obtain rfl : after = Option.none := by rw [← none, found]
  cases before <;> cases table <;> rfl

end Reference

def Scope.qualifier (scope : Scope) : List Token :=
  match scope.table with
  | some table => Reference.quoted scope.quote (Reference.clean scope.quote table) ++ [.dot]
  | none => []

theorem Reference.Neat.column {quote : Quote} {reference : Text} (neat : Neat quote reference)
    (table : Option Text) :
    Scope.column ⟨quote, table⟩ reference =
      (if '.' ∈ (cutAlias reference).1 then [] else Scope.qualifier ⟨quote, table⟩) ++
        quoted quote (cleaned quote reference) := by
  unfold Scope.column
  by_cases dot : '.' ∈ reference
  · rw [qualify_of_dot dot neat.leads, if_pos (neat.heads dot)]
    rfl
  · have first : '.' ∉ (cutAlias reference).1 := mt (mem_of_mem_parts (cutAlias_fst_mem_parts _)) dot
    have whole : cleaned quote reference = clean quote reference := by
      simp [cleaned, Text.split_of_not_mem dot]
    rw [qualify_of_plain dot, if_neg first, whole, Scope.qualifier]
    cases table with
    | none => rfl
    | some table => simp [quoted_meet]

end SqlComposer
