import SqlComposer.Proofs.Operations

set_option autoImplicit false

namespace SqlComposer

namespace Text

variable {c : Char} {text : Text}

theorem mem_of_mem_trim (member : c ∈ trim text) : c ∈ text := by
  have inner := (List.dropWhile_sublist isBlank).subset (List.mem_reverse.1 member)
  exact (List.dropWhile_sublist isBlank).subset (List.mem_reverse.1 inner)

theorem mem_dropWhile {p : Char → Bool} (member : c ∈ text) (kept : p c = false) :
    c ∈ text.dropWhile p := by
  induction text with
  | nil => cases member
  | cons first rest ih =>
    rw [List.dropWhile_cons]
    split
    · next dropped =>
      rcases List.mem_cons.1 member with rfl | later
      · simp [kept] at dropped
      · exact ih later
    · exact member

theorem mem_trim (member : c ∈ text) (solid : isBlank c = false) : c ∈ trim text := by
  have left : c ∈ trimLeft text := mem_dropWhile member solid
  exact List.mem_reverse.2 (mem_dropWhile (List.mem_reverse.2 left) solid)

theorem mem_of_mem_extend {first : Char} {pieces : List Text} {piece : Text}
    (within : piece ∈ extend first pieces) (member : c ∈ piece) :
    c = first ∨ ∃ old ∈ pieces, c ∈ old := by
  cases pieces with
  | nil =>
    obtain rfl := List.mem_singleton.1 within
    exact .inl (List.mem_singleton.1 member)
  | cons old rest =>
    rcases List.mem_cons.1 within with rfl | later
    · exact (List.mem_cons.1 member).imp_right fun inside => ⟨old, by simp, inside⟩
    · exact .inr ⟨piece, by simp [later], member⟩

theorem mem_extend {first : Char} {pieces : List Text}
    (found : c = first ∨ ∃ old ∈ pieces, c ∈ old) : ∃ piece ∈ extend first pieces, c ∈ piece := by
  cases pieces with
  | nil =>
    rcases found with rfl | ⟨old, inside, -⟩
    · exact ⟨[c], by simp [extend], by simp⟩
    · cases inside
  | cons piece rest =>
    rcases found with rfl | ⟨old, inside, member⟩
    · exact ⟨c :: piece, by simp [extend], by simp⟩
    · rcases List.mem_cons.1 inside with rfl | later
      · exact ⟨first :: old, by simp [extend], by simp [member]⟩
      · exact ⟨old, by simp [extend, later], member⟩

theorem mem_of_mem_split {sep : Char} {piece : Text} (within : piece ∈ split sep text)
    (member : c ∈ piece) : c ∈ text := by
  induction text generalizing piece with
  | nil =>
    obtain rfl := List.mem_singleton.1 within
    exact member
  | cons first rest ih =>
    by_cases same : first = sep
    · simp only [split, same, if_true] at within
      rcases List.mem_cons.1 within with rfl | later
      · cases member
      · exact List.mem_cons_of_mem _ (ih later member)
    · simp only [split, same, if_false] at within
      rcases mem_of_mem_extend within member with rfl | ⟨old, inside, present⟩
      · simp
      · exact List.mem_cons_of_mem _ (ih inside present)

theorem mem_of_afterDotted {head rest : Text} (after : afterDotted head text = some rest)
    (member : c ∈ rest) : c ∈ text := by
  fun_induction afterDotted head text with
  | case1 rest' =>
    obtain rfl := Option.some.inj after
    exact List.mem_cons_of_mem _ member
  | case2 h head c' rest' same ih => exact List.mem_cons_of_mem _ (ih after)
  | case3 => cases after
  | case4 => cases after

end Text

namespace Reference

variable {c : Char} {quote : Quote} {text : Text}

theorem mem_of_mem_unquote (member : c ∈ unquote quote text) : c ∈ text :=
  (List.mem_filter.1 member).1

theorem mem_of_mem_clean (member : c ∈ clean quote text) : c ∈ text :=
  Text.mem_of_mem_trim (mem_of_mem_unquote member)

theorem mem_of_mem_parts {part : Text} (within : part ∈ parts text) (member : c ∈ part) :
    c ∈ text := by
  fun_induction parts text generalizing part with
  | case1 a s rest as ih =>
    rcases List.mem_cons.1 within with rfl | later
    · cases member
    · simp [ih later member]
  | case2 a s rest as ih =>
    rcases Text.mem_of_mem_extend within member with rfl | ⟨old, inside, present⟩
    · simp
    · exact List.mem_cons_of_mem _ (ih inside present)
  | case3 first rest other ih =>
    rcases Text.mem_of_mem_extend within member with rfl | ⟨old, inside, present⟩
    · simp
    · exact List.mem_cons_of_mem _ (ih inside present)
  | case4 =>
    obtain rfl := List.mem_singleton.1 within
    exact member

theorem cutAlias_fst_mem_parts (text : Text) : (cutAlias text).1 ∈ parts text := by
  rw [parts_eq]
  cases cutAlias text with
  | mk name alias? => cases alias? <;> simp

theorem mem_of_mem_alias {rest : Text} (cut : (cutAlias text).2 = some rest) (member : c ∈ rest) :
    c ∈ text := by
  fun_induction cutAlias text with
  | case1 a s rest' as =>
    obtain rfl := Option.some.inj cut
    simp [member]
  | case2 a s rest' as name alias? inner ih =>
    rw [inner] at ih
    exact List.mem_cons_of_mem _ (ih cut)
  | case3 first rest' other name alias? inner ih =>
    rw [inner] at ih
    exact List.mem_cons_of_mem _ (ih cut)
  | case4 => cases cut

theorem mem_of_mem_tableName (member : c ∈ tableName text) : c ∈ text := by
  have named : c ∈ (cutAlias text).1 → c ∈ text := mem_of_mem_parts (cutAlias_fst_mem_parts text)
  unfold tableName at member
  split at member
  · next name cut =>
    rw [cut] at named
    exact named (Text.mem_of_mem_trim member)
  · next name rest cut => exact mem_of_mem_alias (by rw [cut]) (Text.mem_of_mem_trim member)

theorem mem_of_mem_qualify {table : Option Text} (member : c ∈ qualify quote table text) :
    c = '.' ∨ c ∈ text ∨ ∃ name ∈ table, c ∈ name := by
  unfold qualify at member
  split at member
  · rcases Text.mem_intercalate member with dot | ⟨piece, present, inside⟩
    · exact .inl (List.mem_singleton.1 dot)
    · obtain ⟨part, within, rfl⟩ := List.mem_map.1 present
      exact .inr (.inl (Text.mem_of_mem_split within (mem_of_mem_clean inside)))
  · next table _ =>
    rcases List.mem_append.1 member with first | last
    · exact .inr (.inr ⟨table, rfl, mem_of_mem_clean first⟩)
    · exact (List.mem_cons.1 last).imp_right fun second => .inl (mem_of_mem_clean second)
  · exact .inr (.inl (mem_of_mem_clean member))

theorem exists_part (solid : c ≠ ' ') (letter : c.isAlpha = false) (member : c ∈ text) :
    ∃ part ∈ parts text, c ∈ part := by
  fun_induction parts text with
  | case1 a s rest as ih =>
    have letters : a.isAlpha ∧ s.isAlpha := by
      simp only [isAs, Bool.and_eq_true, Bool.or_eq_true, beq_iff_eq] at as
      rcases as with ⟨rfl | rfl, rfl | rfl⟩ <;> decide
    have inner : c ∈ rest := by
      simp only [List.mem_cons] at member
      rcases member with rfl | rfl | rfl | rfl | later
      · exact absurd rfl solid
      · simp [letters.1] at letter
      · simp [letters.2] at letter
      · exact absurd rfl solid
      · exact later
    obtain ⟨part, within, present⟩ := ih inner
    exact ⟨part, List.mem_cons_of_mem _ within, present⟩
  | case2 a s rest as ih =>
    rcases List.mem_cons.1 member with rfl | later
    · exact absurd rfl solid
    · exact Text.mem_extend (.inr (ih later))
  | case3 first rest other ih =>
    rcases List.mem_cons.1 member with rfl | later
    · exact Text.mem_extend (.inl rfl)
    · exact Text.mem_extend (.inr (ih later))
  | case4 => cases member

theorem mem_of_mem_stripTable {table : Text} (member : c ∈ stripTable quote table text) : c ∈ text := by
  have bare (inside : c ∈ (unquote quote text).trim) : c ∈ text :=
    mem_of_mem_unquote (Text.mem_of_mem_trim inside)
  unfold stripTable at member
  dsimp only at member
  split at member
  · next rest found =>
    obtain ⟨name, -, after⟩ := List.exists_of_findSome?_eq_some found
    split at after
    · cases after
    · exact bare (Text.mem_of_afterDotted after member)
  · exact bare member

structure IsForeign (mark : Char) : Prop where
  letter : mark.isAlphanum = false
  sign : mark ∉ ['_', '.', '*', ' ']
  blank : isBlank mark = false
  quote : ∀ quote : Quote, mark ≠ quote.char

theorem IsForeign.not_mem {mark : Char} (foreign : IsForeign mark) {word : Text}
    (plain : word.all fun c => c.isAlphanum || c == '_') : mark ∉ word := by
  intro member
  have accepted := List.all_eq_true.1 plain mark member
  rw [foreign.letter, Bool.false_or, beq_iff_eq] at accepted
  exact foreign.sign (by simp [accepted])

theorem isForeign_questionMark : IsForeign '?' where
  letter := rfl
  sign := by decide
  blank := rfl
  quote quote := by cases quote <;> decide

variable {settings : Settings} {method : Text} {mark : Char}

theorem not_mem_of_accepts (foreign : IsForeign mark) (banned : settings.allows mark = false)
    (accepted : accepts settings text) : mark ∉ text := by
  intro member
  simp only [accepts, Bool.or_eq_true, isWildcard, beq_iff_eq, Bool.and_eq_true,
    List.all_eq_true] at accepted
  rcases accepted with rfl | ⟨-, within⟩
  · exact foreign.sign (by simp [List.mem_singleton.1 member])
  · have bare : mark ∈ (unquote settings.quote text).trim :=
      Text.mem_trim (List.mem_filter.2 ⟨member, by simpa using foreign.quote settings.quote⟩)
        foreign.blank
    have signs := foreign.sign
    simp only [List.mem_cons, not_or] at signs
    rcases within mark bare with ((letter | rfl) | rfl) | allowed
    · simp [foreign.letter] at letter
    · exact signs.1 rfl
    · exact signs.2.1 rfl
    · simp [banned] at allowed

theorem not_mem_of_validate (foreign : IsForeign mark) (banned : settings.allows mark = false)
    (valid : validate settings method text = .ok ()) : mark ∉ text := by
  intro member
  have letter : mark.isAlpha = false := by
    have both := foreign.letter
    simp only [Char.isAlphanum, Bool.or_eq_false_iff] at both
    exact both.1
  obtain ⟨part, within, present⟩ := exists_part (fun same => foreign.sign (by simp [same])) letter member
  unfold validate at valid
  split at valid
  · cases valid
  · next none =>
    have accepted := List.find?_eq_none.1 none part within
    exact not_mem_of_accepts foreign banned (by simpa using accepted) present

end Reference

end SqlComposer
