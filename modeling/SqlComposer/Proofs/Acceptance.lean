import SqlComposer.Proofs.Inheritance

set_option autoImplicit false

namespace SqlComposer.Reference

variable {settings : Settings} {text : Text} {c : Char}

def IsCut (cut : Text) : Prop := cut ∈ ([" as ", " aS ", " As ", " AS "] : List String).map String.toList

def Uncut (text : Text) : Prop := ∀ cut, IsCut cut → ¬ cut <:+: text

-- A cut that begins further to the left ends within the first three characters of the leftmost one.
inductive Parting : Text → List Text → Prop where
  | whole {text : Text} (uncut : Uncut text) : Parting text [text]
  | cut {front cut behind : Text} {later : List Text} (isCut : IsCut cut)
    (leftmost : Uncut (front ++ cut.take 3)) (rest : Parting behind later) :
    Parting (front ++ cut ++ behind) (front :: later)

theorem isCut_iff {cut : Text} : IsCut cut ↔ ∃ a s, isAs a s ∧ cut = [' ', a, s, ' '] := by
  constructor
  · intro cuts
    simp only [IsCut, List.map_cons, List.map_nil, List.mem_cons, List.not_mem_nil, or_false] at cuts
    rcases cuts with rfl | rfl | rfl | rfl
    · exact ⟨'a', 's', rfl, rfl⟩
    · exact ⟨'a', 'S', rfl, rfl⟩
    · exact ⟨'A', 's', rfl, rfl⟩
    · exact ⟨'A', 'S', rfl, rfl⟩
  · rintro ⟨a, s, as, rfl⟩
    simp only [isAs, Bool.and_eq_true, Bool.or_eq_true, beq_iff_eq] at as
    rcases as with ⟨rfl | rfl, rfl | rfl⟩ <;> simp [IsCut]

theorem uncut_of_short (short : text.length < 4) : Uncut text := by
  intro cut cuts inside
  obtain ⟨a, s, -, rfl⟩ := isCut_iff.1 cuts
  have longer := inside.length_le
  simp at longer
  omega

-- A cut begins the text.
def Cuts (text : Text) : Prop := ∃ cut, IsCut cut ∧ cut <+: text

theorem cuts_iff : Cuts text ↔ ∃ a s rest, isAs a s ∧ text = ' ' :: a :: s :: ' ' :: rest := by
  constructor
  · rintro ⟨cut, cuts, rest, rfl⟩
    obtain ⟨a, s, as, rfl⟩ := isCut_iff.1 cuts
    exact ⟨a, s, rest, as, rfl⟩
  · rintro ⟨a, s, rest, as, rfl⟩
    exact ⟨[' ', a, s, ' '], isCut_iff.2 ⟨a, s, as, rfl⟩, rest, rfl⟩

theorem Cuts.of_prefix {longer : Text} (cuts : Cuts text) (inside : text <+: longer) : Cuts longer := by
  obtain ⟨cut, isCut, begins⟩ := cuts
  exact ⟨cut, isCut, begins.trans inside⟩

theorem uncut_cons : Uncut (c :: text) ↔ ¬ Cuts (c :: text) ∧ Uncut text := by
  simp only [Uncut, Cuts, List.infix_cons_iff, not_or, not_exists, not_and]
  exact forall₂_and

theorem parts_cons_of_kept (kept : ¬ Cuts (c :: text)) :
    parts (c :: text) = Text.extend c (parts text) := by
  rcases parts_cons c text with ⟨a, s, rest, rfl, rfl, as, -⟩ | uncut
  · exact (kept (cuts_iff.2 ⟨a, s, rest, as, rfl⟩)).elim
  · exact uncut

theorem parts_of_uncut (uncut : Uncut text) : parts text = [text] := by
  induction text with
  | nil => rfl
  | cons c rest ih =>
    obtain ⟨kept, later⟩ := uncut_cons.1 uncut
    rw [parts_cons_of_kept kept, ih later]
    rfl

-- The first four characters are those before the last one of the cut.
theorem cuts_leftmost {front cut behind : Text} (isCut : IsCut cut)
    (cuts : Cuts (c :: front ++ cut ++ behind)) : Cuts (c :: front ++ cut.take 3) := by
  obtain ⟨a, s, -, rfl⟩ := isCut_iff.1 isCut
  obtain ⟨other, others, begins⟩ := cuts
  refine ⟨other, others, List.prefix_of_prefix_length_le begins ⟨' ' :: behind, by simp⟩ ?_⟩
  obtain ⟨b, t, -, rfl⟩ := isCut_iff.1 others
  simp

theorem parts_of_leftmost {front cut : Text} (behind : Text) (isCut : IsCut cut)
    (leftmost : Uncut (front ++ cut.take 3)) : parts (front ++ cut ++ behind) = front :: parts behind := by
  induction front with
  | nil =>
    obtain ⟨a, s, as, rfl⟩ := isCut_iff.1 isCut
    simp [parts, as]
  | cons c front ih =>
    obtain ⟨kept, later⟩ := uncut_cons.1 leftmost
    have whole : parts (c :: (front ++ cut ++ behind)) = Text.extend c (parts (front ++ cut ++ behind)) :=
      parts_cons_of_kept (mt (cuts_leftmost isCut) kept)
    rw [List.cons_append, List.cons_append, whole, ih later]
    rfl

theorem Parting.eq_parts {pieces : List Text} (parting : Parting text pieces) : pieces = parts text := by
  induction parting with
  | whole uncut => rw [parts_of_uncut uncut]
  | cut isCut leftmost _ ih => rw [parts_of_leftmost _ isCut leftmost, ih]

theorem Parting.extend {pieces : List Text} (kept : ¬ Cuts (c :: text)) (parting : Parting text pieces) :
    Parting (c :: text) (Text.extend c pieces) := by
  cases parting with
  | whole uncut => exact .whole (uncut_cons.2 ⟨kept, uncut⟩)
  | @cut front cut behind later isCut leftmost rest =>
    have before : c :: front ++ cut.take 3 <+: c :: front ++ cut ++ behind := by
      rw [List.append_assoc]
      exact (List.prefix_append_right_inj _).2 ((List.take_prefix 3 cut).trans (List.prefix_append ..))
    have first : Uncut (c :: front ++ cut.take 3) :=
      uncut_cons.2 ⟨fun cuts => kept (cuts.of_prefix before), leftmost⟩
    exact .cut isCut first rest

theorem parting_parts (text : Text) : Parting text (parts text) := by
  fun_induction parts text with
  | case1 a s rest as ih =>
    exact @Parting.cut [] _ _ _ (isCut_iff.2 ⟨a, s, as, rfl⟩) (uncut_of_short (by simp)) ih
  | case2 a s rest as ih =>
    refine ih.extend fun cuts => ?_
    obtain ⟨b, t, behind, as', same⟩ := cuts_iff.1 cuts
    simp_all
  | case3 c rest other ih =>
    refine ih.extend fun cuts => ?_
    obtain ⟨a, s, behind, -, same⟩ := cuts_iff.1 cuts
    obtain ⟨rfl, rfl⟩ := List.cons.inj same
    exact other a s behind rfl rfl
  | case4 => exact .whole (uncut_of_short (by simp))

example : parts "a as as b" = ["a".toList, "as b".toList] := by decide

/-- A bare wildcard, or letters, digits, underscores, dots and the characters of the settings, without the
quotes and the blanks round them. -/
def Grammatical (settings : Settings) (part : Text) : Prop :=
  part = ['*'] ∨
    (let bare := Text.trim (part.filter (· ≠ settings.quote.char))
     bare ≠ [] ∧ ∀ c ∈ bare, c.isAlphanum ∨ c = '_' ∨ c = '.' ∨ c ∈ settings.referenceChars)

theorem accepts_iff {part : Text} : accepts settings part ↔ Grammatical settings part := by
  have sign : part.filter (· != settings.quote.char) = part.filter (· ≠ settings.quote.char) :=
    List.filter_congr fun c _ => by rw [bne, decide_not, beq_eq_decide]
  simp only [accepts, Grammatical, isWildcard, unquote, Settings.allows, sign, Bool.or_eq_true,
    beq_iff_eq, Bool.and_eq_true, Bool.not_eq_true', List.isEmpty_eq_false_iff, List.all_eq_true,
    List.contains_iff_mem, or_assoc]

theorem validate_eq_ok {method : Text} :
    validate settings method text = .ok () ↔ ∀ part ∈ parts text, Grammatical settings part := by
  simp only [← accepts_iff]
  exact ⟨accepted_of_validate, validate_of_accepts⟩

theorem validate_eq_error {method : Text} {error : Error} :
    validate settings method text = .error error ↔ ∃ front part behind,
      parts text = front ++ part :: behind ∧ (∀ earlier ∈ front, Grammatical settings earlier) ∧
        ¬ Grammatical settings part ∧ error = .invalidReference method part := by
  simp only [← accepts_iff]
  unfold validate
  constructor
  · intro refused
    split at refused
    · next part found =>
      obtain ⟨bad, front, behind, whole, earlier⟩ := List.find?_eq_some_iff_append.1 found
      exact ⟨front, part, behind, whole, by simpa using earlier, by simpa using bad,
        (Except.error.inj refused).symm⟩
    · cases refused
  · rintro ⟨front, part, behind, whole, earlier, bad, rfl⟩
    have found : (parts text).find? (fun part => !accepts settings part) = some part :=
      List.find?_eq_some_iff_append.2 ⟨by simpa using bad, front, behind, whole, by simpa using earlier⟩
    rw [found]

/-- A reference is parted in one way only, and accepted just if all its parts are grammatical. Otherwise the
first part that is not is named as it was given. Characters that are added later keep it accepted. -/
theorem validate_by_parts (settings : Settings) (method reference : Text) :
    ∃ parts, (∀ others, Parting reference others ↔ others = parts) ∧
      (validate settings method reference = .ok () ↔ ∀ part ∈ parts, Grammatical settings part) ∧
      (∀ error, validate settings method reference = .error error ↔ ∃ front part behind,
        parts = front ++ part :: behind ∧ (∀ earlier ∈ front, Grammatical settings earlier) ∧
          ¬ Grammatical settings part ∧ error = .invalidReference method part) ∧
      ∀ chars, validate settings method reference = .ok () →
        validate (settings.addReferenceChars chars) method reference = .ok () := by
  refine ⟨parts reference, fun others => ?_, validate_eq_ok, fun error => validate_eq_error,
    fun chars valid => ?_⟩
  · exact ⟨Parting.eq_parts, fun same => same ▸ parting_parts reference⟩
  · exact validate_under (settings.addReferenceChars_under chars) valid method

end SqlComposer.Reference
