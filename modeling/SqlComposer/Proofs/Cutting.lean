import Mathlib.Data.List.DropRight
import SqlComposer.Proofs.Characters

set_option autoImplicit false

namespace SqlComposer

namespace Text

variable {A : Type} {c sep : Char} {text : Text}

/-! ### Trimming -/

theorem trim_cons (blank : isBlank c) (text : Text) : trim (c :: text) = trim text := by
  simp [trim, trimLeft, blank]

theorem trim_concat (blank : isBlank c) (text : Text) : trim (text ++ [c]) = trim text := by
  have dropped (text : Text) : trimRight (text ++ [c]) = trimRight text := by
    simp [trimRight, blank]
  unfold trim trimLeft
  rw [List.dropWhile_append]
  split
  · next empty =>
    rw [List.isEmpty_iff.1 empty]
    simp [blank]
  · exact dropped _

theorem trim_induction {P : Text → Prop} (left : ∀ c text, isBlank c → P (c :: text) → P text)
    (right : ∀ c text, isBlank c → P (text ++ [c]) → P text) (text : Text) (holds : P text) :
    P text.trim := by
  have lefts (text : Text) (holds : P text) : P text.trimLeft := by
    induction text with
    | nil => exact holds
    | cons c rest ih =>
      unfold trimLeft
      rw [List.dropWhile_cons]
      split
      · next blank => exact ih (left c rest blank holds)
      · exact holds
  have rights (text : Text) (holds : P text) : P text.trimRight := by
    induction text using List.reverseRecOn with
    | nil => exact holds
    | append_singleton rest c ih =>
      unfold trimRight
      rw [List.reverse_concat, List.dropWhile_cons]
      split
      · next blank => exact ih (right c rest blank holds)
      · rw [← List.reverse_concat, List.reverse_reverse]
        exact holds
  exact rights _ (lefts text holds)

theorem length_trim_le (text : Text) : text.trim.length ≤ text.length :=
  trim_induction (P := fun t => t.length ≤ text.length) (fun _ _ _ => Nat.le_of_succ_le)
    (fun _ _ _ shorter => by simp at shorter; omega) text le_rfl

theorem trim_cons_ne (blank : isBlank c) (text : Text) : trim (c :: text) ≠ c :: text := by
  intro same
  have shorter := length_trim_le text
  rw [← trim_cons blank, same, List.length_cons] at shorter
  omega

theorem trim_concat_ne (blank : isBlank c) (text : Text) : trim (text ++ [c]) ≠ text ++ [c] := by
  intro same
  have shorter := length_trim_le text
  rw [← trim_concat blank, same, List.length_append, List.length_singleton] at shorter
  omega

theorem trim_eq_self (left : ∀ c rest, text = c :: rest → isBlank c = false)
    (right : ∀ c rest, text = rest ++ [c] → isBlank c = false) : text.trim = text := by
  have front : trimLeft text = text := by
    cases text with
    | nil => rfl
    | cons c rest => simp [trimLeft, left c rest rfl]
  rw [trim, front]
  rcases List.eq_nil_or_concat' text with rfl | ⟨init, last, rfl⟩
  · rfl
  · simp [trimRight, right last init rfl]

theorem trim_blanks {before after : Text} (left : ∀ c ∈ before, isBlank c = true)
    (right : ∀ c ∈ after, isBlank c = true) (text : Text) :
    trim (before ++ text ++ after) = trim text := by
  induction before with
  | nil =>
    induction after using List.reverseRecOn with
    | nil => simp
    | append_singleton rest c ih =>
      rw [← List.append_assoc, trim_concat (right c (by simp))]
      exact ih fun d member => right d (by simp [member])
  | cons c rest ih =>
    rw [List.cons_append, List.cons_append, trim_cons (left c (by simp))]
    exact ih fun d member => left d (by simp [member])

theorem trim_trim (text : Text) : text.trim.trim = text.trim :=
  trim_induction (P := fun t => t.trim = text.trim) (fun _ t blank same => trim_cons blank t ▸ same)
    (fun _ t blank same => trim_concat blank t ▸ same) text rfl

theorem mem_trimRight_append (front : Text) (member : c ∈ trimRight text) :
    c ∈ trimRight (front ++ text) := by
  have inside : c ∈ text.reverse.dropWhile isBlank := List.mem_reverse.1 member
  have some : (text.reverse.dropWhile isBlank).isEmpty = false := by
    simpa using List.ne_nil_of_mem inside
  simp [trimRight, List.dropWhile_append, some, inside]

theorem mem_trimRight_behind (behind : Text) (member : c ∈ trimRight text) :
    c ∈ trimRight (text ++ behind) := by
  have inside : c ∈ text.reverse.dropWhile isBlank := List.mem_reverse.1 member
  rw [trimRight, List.mem_reverse, List.reverse_append, List.dropWhile_append]
  split
  · exact inside
  · exact List.mem_append_right _ ((List.dropWhile_sublist isBlank).subset inside)

theorem mem_trim_of_infix {part : Text} (inside : part <:+: text) (member : c ∈ part.trim) :
    c ∈ text.trim := by
  obtain ⟨front, behind, rfl⟩ := inside
  have some : part.trimLeft.isEmpty = false := by
    cases left : part.trimLeft with
    | nil => simp [trim, left, trimRight] at member
    | cons => rfl
  have longer : c ∈ trim (part ++ behind) := by
    unfold trimLeft at some
    rw [trim, trimLeft, List.dropWhile_append, some]
    exact mem_trimRight_behind behind member
  rw [List.append_assoc, trim, trimLeft, List.dropWhile_append]
  split
  · exact longer
  · obtain ⟨dropped, same⟩ := List.dropWhile_suffix isBlank (l := part ++ behind)
    rw [← same, ← List.append_assoc]
    exact mem_trimRight_append _ longer

/-! ### Splitting -/

theorem extend_append {pieces : List Text} (some : pieces ≠ []) (more : List Text) :
    extend c (pieces ++ more) = extend c pieces ++ more := by
  obtain ⟨piece, rest, rfl⟩ := List.exists_cons_of_ne_nil some
  rfl

theorem split_append (sep : Char) (a b : Text) :
    split sep (a ++ sep :: b) = split sep a ++ split sep b := by
  induction a with
  | nil => simp [split]
  | cons c rest ih =>
    by_cases same : c = sep
    · simp [split, same, ih]
    · simp [split, same, ih, extend_append (split_ne_nil sep rest)]

theorem split_of_not_mem (plain : sep ∉ text) : split sep text = [text] := by
  induction text with
  | nil => rfl
  | cons c rest ih =>
    obtain ⟨other, later⟩ : sep ≠ c ∧ sep ∉ rest := by simpa using plain
    rw [split, if_neg (Ne.symm other), ih later]
    rfl

theorem split_intercalate {pieces : List Text} (some : pieces ≠ [])
    (plain : ∀ piece ∈ pieces, sep ∉ piece) : split sep ([sep].intercalate pieces) = pieces := by
  induction pieces with
  | nil => exact absurd rfl some
  | cons piece rest ih =>
    have first := split_of_not_mem (plain piece (by simp))
    cases rest with
    | nil => simpa using first
    | cons next more =>
      have later := ih (by simp) fun other member => plain other (by simp [member])
      have whole : [sep].intercalate (piece :: next :: more) =
          piece ++ sep :: [sep].intercalate (next :: more) := by
        simp [intercalate_cons]
      rw [whole, split_append, first, later]
      rfl

theorem map_filter_extend (p : Char → Bool) {pieces : List Text} (some : pieces ≠ []) :
    (extend c pieces).map (List.filter p) =
      if p c then extend c (pieces.map (List.filter p)) else pieces.map (List.filter p) := by
  obtain ⟨piece, rest, rfl⟩ := List.exists_cons_of_ne_nil some
  by_cases kept : p c <;> simp [extend, kept]

theorem split_filter {p : Char → Bool} (keeps : p sep) (text : Text) :
    split sep (text.filter p) = (split sep text).map (List.filter p) := by
  induction text with
  | nil => simp [split]
  | cons c rest ih =>
    by_cases same : c = sep
    · simp [split, same, keeps, ih]
    · rw [split, if_neg same, map_filter_extend p (split_ne_nil sep rest), List.filter_cons]
      split
      · rw [split, if_neg same, ih]
      · exact ih

theorem split_cons (other : c ≠ sep) (text : Text) : split sep (c :: text) = extend c (split sep text) := by
  rw [split, if_neg other]

theorem split_concat (other : c ≠ sep) (text : Text) : ∃ init last,
    split sep text = init ++ [last] ∧ split sep (text ++ [c]) = init ++ [last ++ [c]] := by
  induction text with
  | nil => exact ⟨[], [], rfl, by simp [split, other, extend]⟩
  | cons first rest ih =>
    obtain ⟨init, last, ends, longer⟩ := ih
    by_cases same : first = sep
    · exact ⟨[] :: init, last, by simp [split, same, ends], by simp [split, same, longer]⟩
    · rw [List.cons_append, split_cons same, split_cons same, ends, longer]
      cases init with
      | nil => exact ⟨[], first :: last, rfl, rfl⟩
      | cons piece pieces => exact ⟨(first :: piece) :: pieces, last, rfl, rfl⟩

section Pieces

variable {f : Text → A} (solid : isBlank sep = false) (blank : isBlank c)

include solid blank

theorem map_split_cons (left : ∀ text, f (c :: text) = f text) (text : Text) :
    (split sep (c :: text)).map f = (split sep text).map f := by
  have other : c ≠ sep := by
    rintro rfl
    simp [blank] at solid
  obtain ⟨piece, rest, same⟩ := List.exists_cons_of_ne_nil (split_ne_nil sep text)
  simp [split_cons other, same, extend, left piece]

theorem map_split_concat (right : ∀ text, f (text ++ [c]) = f text) (text : Text) :
    (split sep (text ++ [c])).map f = (split sep text).map f := by
  have other : c ≠ sep := by
    rintro rfl
    simp [blank] at solid
  obtain ⟨init, last, ends, longer⟩ := split_concat other text
  simp [ends, longer, right last]

end Pieces

theorem infix_intercalate {sep piece : List A} {pieces : List (List A)} (member : piece ∈ pieces) :
    piece <:+: sep.intercalate pieces := by
  induction pieces with
  | nil => cases member
  | cons first rest ih =>
    rcases List.mem_cons.1 member with rfl | later
    · rw [intercalate_cons]
      exact List.infix_append' [] piece _
    · cases rest with
      | nil => cases later
      | cons next more =>
        have whole : sep.intercalate (first :: next :: more) =
            first ++ sep ++ sep.intercalate (next :: more) := by
          simp [intercalate_cons]
        rw [whole]
        exact (ih later).trans (List.suffix_append _ _).isInfix

theorem not_mem_of_mem_split {piece : Text} (member : piece ∈ split sep text) : sep ∉ piece := by
  induction text generalizing piece with
  | nil =>
    obtain rfl := List.mem_singleton.1 member
    simp
  | cons c rest ih =>
    by_cases same : c = sep
    · simp only [split, same, if_true, List.mem_cons] at member
      rcases member with rfl | later
      · simp
      · exact ih later
    · obtain ⟨first, others, pieces⟩ := List.exists_cons_of_ne_nil (split_ne_nil sep rest)
      rw [pieces] at ih
      simp only [split, same, if_false, pieces, extend, List.mem_cons] at member
      rcases member with rfl | later
      · simpa [Ne.symm same] using ih (List.mem_cons_self ..)
      · exact ih (List.mem_cons_of_mem _ later)

theorem infix_of_mem_split {piece : Text} (member : piece ∈ split sep text) : piece <:+: text :=
  intercalate_split sep text ▸ infix_intercalate member

end Text

namespace Reference

variable {c : Char} {quote : Quote} {settings : Settings} {text : Text}

def pieces (quote : Quote) (reference : Text) : List (List Text) :=
  (parts reference).map fun part =>
    (Text.split '.' part).map fun piece => (unquote quote piece).trim

theorem isBlank_quote (quote : Quote) : isBlank quote.char = false := by cases quote <;> rfl

theorem ne_quote_of_isBlank (blank : isBlank c) : c ≠ quote.char := by
  rintro rfl
  simp [isBlank_quote] at blank

theorem ne_dot_of_isBlank (blank : isBlank c) : c ≠ '.' := by
  rintro rfl
  simp [isBlank, blankRanges] at blank

theorem trim_unquote_cons (blank : isBlank c) (text : Text) :
    (unquote quote (c :: text)).trim = (unquote quote text).trim := by
  simp [unquote, ne_quote_of_isBlank blank, Text.trim_cons blank]

theorem trim_unquote_concat (blank : isBlank c) (text : Text) :
    (unquote quote (text ++ [c])).trim = (unquote quote text).trim := by
  simp [unquote, ne_quote_of_isBlank blank, Text.trim_concat blank]

theorem parts_cons (c : Char) (text : Text) :
    (∃ a s rest, c = ' ' ∧ text = a :: s :: ' ' :: rest ∧ isAs a s ∧
      parts (c :: text) = [] :: parts rest) ∨
      parts (c :: text) = Text.extend c (parts text) := by
  generalize whole : c :: text = reference
  fun_cases parts reference with
  | case1 a s rest as =>
    cases whole
    exact .inl ⟨a, s, rest, rfl, rfl, as, rfl⟩
  | case2 | case3 =>
    cases whole
    exact .inr rfl
  | case4 => cases whole

theorem parts_concat (c : Char) (text : Text) :
    (∃ init, init ≠ [] ∧ parts (text ++ [c]) = init ++ [[]]) ∨
      ∃ init last, parts text = init ++ [last] ∧ parts (text ++ [c]) = init ++ [last ++ [c]] := by
  have extended (first : Char) (pieces longer : List Text)
      (ih : (∃ init, init ≠ [] ∧ longer = init ++ [[]]) ∨
        ∃ init last, pieces = init ++ [last] ∧ longer = init ++ [last ++ [c]]) :
      (∃ init, init ≠ [] ∧ Text.extend first longer = init ++ [[]]) ∨
        ∃ init last, Text.extend first pieces = init ++ [last] ∧
          Text.extend first longer = init ++ [last ++ [c]] := by
    rcases ih with ⟨init, some, rfl⟩ | ⟨init, last, rfl, rfl⟩
    · obtain ⟨piece, rest, rfl⟩ := List.exists_cons_of_ne_nil some
      exact .inl ⟨(first :: piece) :: rest, by simp, rfl⟩
    · cases init with
      | nil => exact .inr ⟨[], first :: last, rfl, rfl⟩
      | cons piece rest => exact .inr ⟨(first :: piece) :: rest, last, rfl, rfl⟩
  fun_induction parts text with
  | case1 a s rest as ih =>
    have cut : parts (' ' :: a :: s :: ' ' :: rest ++ [c]) = [] :: parts (rest ++ [c]) := by
      simp [parts, as]
    rw [cut]
    rcases ih with ⟨init, some, longer⟩ | ⟨init, last, ends, longer⟩
    · exact .inl ⟨[] :: init, by simp, by simp [longer]⟩
    · exact .inr ⟨[] :: init, last, by simp [ends], by simp [longer]⟩
  | case2 a s rest as ih =>
    have uncut : parts (' ' :: a :: s :: ' ' :: rest ++ [c]) =
        Text.extend ' ' (parts (a :: s :: ' ' :: rest ++ [c])) := by
      simp [parts, as]
    rw [uncut]
    exact extended ' ' _ _ ih
  | case3 first rest other ih =>
    rcases parts_cons first (rest ++ [c]) with ⟨a, s, more, rfl, longer, -, cut⟩ | uncut
    -- The cut is behind the rest, so that the last part is empty.
    · rcases List.eq_nil_or_concat more with rfl | ⟨init, last, rfl⟩
      · exact .inl ⟨[[]], by simp, cut⟩
      · have same : rest ++ [c] = (a :: s :: ' ' :: init) ++ [last] := by simpa using longer
        exact (other a s init rfl (List.append_inj' same rfl).1).elim
    · rw [List.cons_append, uncut]
      exact extended first _ _ ih
  | case4 => exact .inr ⟨[], [], rfl, by simp [parts, Text.extend]⟩

/-! ### What is accepted -/

def Accepted (settings : Settings) (reference : Text) : Prop :=
  ∀ part ∈ parts reference, accepts settings part

theorem accepted_of_validate {method : Text} (valid : validate settings method text = .ok ()) :
    Accepted settings text := by
  unfold validate at valid
  split at valid
  · cases valid
  · next none =>
    intro part within
    simpa using List.find?_eq_none.1 none part within

theorem validate_of_accepts {method : Text} (each : ∀ part ∈ parts text, accepts settings part) :
    validate settings method text = .ok () := by
  have none : (parts text).find? (fun part => !accepts settings part) = none :=
    List.find?_eq_none.2 fun part within => by simp [each part within]
  rw [validate, none]

theorem not_accepts_nil : ¬ accepts settings [] := by
  simp [accepts, isWildcard, unquote, Text.trim, Text.trimLeft, Text.trimRight]

theorem accepts_of_trim {longer : Text} (other : isWildcard longer = false)
    (same : (unquote settings.quote longer).trim = (unquote settings.quote text).trim)
    (accepted : accepts settings longer) : accepts settings text := by
  unfold accepts at accepted ⊢
  rw [other, same, Bool.false_or] at accepted
  rw [accepted, Bool.or_true]

theorem accepts_of_cons (blank : isBlank c) (accepted : accepts settings (c :: text)) :
    accepts settings text := by
  refine accepts_of_trim ?_ (trim_unquote_cons blank text) accepted
  simp only [isWildcard, beq_eq_false_iff_ne, ne_eq, List.cons.injEq, not_and]
  rintro rfl
  simp [isBlank, blankRanges] at blank

theorem accepts_of_concat (blank : isBlank c) (accepted : accepts settings (text ++ [c])) :
    accepts settings text := by
  refine accepts_of_trim ?_ (trim_unquote_concat blank text) accepted
  simp only [isWildcard, beq_eq_false_iff_ne, ne_eq]
  intro same
  obtain ⟨-, rfl⟩ : text = [] ∧ c = '*' := by
    have split := List.append_inj' (show text ++ [c] = [] ++ ['*'] from same) rfl
    simpa using split
  simp [isBlank, blankRanges] at blank

theorem dottedPieces_cons (blank : isBlank c) (part : Text) :
    (Text.split '.' (c :: part)).map (fun piece => (unquote quote piece).trim) =
      (Text.split '.' part).map fun piece => (unquote quote piece).trim :=
  Text.map_split_cons rfl blank (trim_unquote_cons blank) part

theorem dottedPieces_concat (blank : isBlank c) (part : Text) :
    (Text.split '.' (part ++ [c])).map (fun piece => (unquote quote piece).trim) =
      (Text.split '.' part).map fun piece => (unquote quote piece).trim :=
  Text.map_split_concat rfl blank (trim_unquote_concat blank) part

theorem accepted_trim (accepted : Accepted settings text) :
    Accepted settings text.trim ∧ pieces settings.quote text.trim = pieces settings.quote text := by
  let P (t : Text) : Prop :=
    Accepted settings t ∧ pieces settings.quote t = pieces settings.quote text
  have left (c : Char) (t : Text) (blank : isBlank c) (holds : P (c :: t)) : P t := by
    obtain ⟨accepted, same⟩ := holds
    rcases parts_cons c t with ⟨a, s, rest, -, -, -, cut⟩ | uncut
    · exact (not_accepts_nil (accepted [] (by simp [cut]))).elim
    · obtain ⟨part, rest, first⟩ := List.exists_cons_of_ne_nil (parts_ne_nil t)
      rw [first] at uncut
      simp only [Accepted, pieces, uncut, Text.extend, List.forall_mem_cons, List.map_cons,
        dottedPieces_cons blank] at accepted same
      simp only [P, Accepted, pieces, first, List.forall_mem_cons, List.map_cons]
      exact ⟨⟨accepts_of_cons blank accepted.1, accepted.2⟩, same⟩
  have right (c : Char) (t : Text) (blank : isBlank c) (holds : P (t ++ [c])) : P t := by
    obtain ⟨accepted, same⟩ := holds
    rcases parts_concat c t with ⟨init, -, cut⟩ | ⟨init, last, ends, uncut⟩
    · exact (not_accepts_nil (accepted [] (by simp [cut]))).elim
    · simp only [Accepted, pieces, uncut, List.forall_mem_append, List.forall_mem_singleton,
        List.map_append, List.map_cons, List.map_nil, dottedPieces_concat blank] at accepted same
      simp only [P, Accepted, pieces, ends, List.forall_mem_append, List.forall_mem_singleton,
        List.map_append, List.map_cons, List.map_nil]
      exact ⟨⟨accepted.1, accepts_of_concat blank accepted.2⟩, same⟩
  exact Text.trim_induction left right text ⟨accepted, rfl⟩

def Allowed (settings : Settings) (name : Text) : Prop :=
  ∀ c ∈ name, c.isAlphanum ∨ c = '_' ∨ settings.allows c

def IsName (settings : Settings) (piece : Text) : Prop := piece = ['*'] ∨ Allowed settings piece

theorem Accepted.piece (accepted : Accepted settings text) {part piece : Text}
    (within : part ∈ parts text) (inside : piece ∈ Text.split '.' part) :
    piece = ['*'] ∨ Allowed settings (unquote settings.quote piece).trim := by
  have checked := accepted part within
  simp only [accepts, Bool.or_eq_true, isWildcard, beq_iff_eq, Bool.and_eq_true,
    List.all_eq_true] at checked
  rcases checked with rfl | ⟨-, plain⟩
  · exact .inl (by simpa [Text.split, Text.extend] using inside)
  · refine .inr fun c member => ?_
    have kept : c ∈ unquote settings.quote piece := Text.mem_of_mem_trim member
    have known := plain c
      (Text.mem_trim_of_infix ((Text.infix_of_mem_split inside).filter (· != settings.quote.char)) member)
    rcases known with ((letter | sign) | dot) | allowed
    · exact .inl letter
    · exact .inr (.inl sign)
    · exact (Text.not_mem_of_mem_split inside (dot ▸ mem_of_mem_unquote kept)).elim
    · exact .inr (.inr allowed)

theorem isName_of_accepted (accepted : Accepted settings text) :
    ∀ part ∈ pieces settings.quote text, ∀ piece ∈ part, IsName settings piece := by
  simp only [pieces, List.mem_map, forall_exists_index, and_imp, forall_apply_eq_imp_iff₂]
  intro part within piece inside
  rcases accepted.piece within inside with rfl | plain
  · refine .inl ?_
    cases settings.quote <;> decide
  · exact .inr plain

theorem trim_of_mem_pieces : ∀ part ∈ pieces quote text, ∀ piece ∈ part, piece.trim = piece := by
  simp only [pieces, List.mem_map, forall_exists_index, and_imp, forall_apply_eq_imp_iff₂]
  exact fun _ _ _ _ => Text.trim_trim _

theorem Accepted.mono {inner : Settings} (same : inner.quote = settings.quote)
    (more : ∀ c, inner.allows c → settings.allows c) (accepted : Accepted inner text) :
    Accepted settings text := by
  intro part within
  have checked := accepted part within
  simp only [accepts, same, Bool.or_eq_true, Bool.and_eq_true, List.all_eq_true] at checked ⊢
  exact checked.imp_right (And.imp_right fun each c member => (each c member).imp_right (more c))

end Reference

end SqlComposer
