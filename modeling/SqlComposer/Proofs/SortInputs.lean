import SqlComposer.Proofs.Changes
import SqlComposer.Proofs.Spelling

set_option autoImplicit false

namespace SqlComposer

namespace Text

variable {sep : Char} {front text : Text}

theorem splitFirst_append (plain : sep ∉ front) (rest : Text) :
    splitFirst sep (front ++ sep :: rest) = (front, some rest) := by
  induction front with
  | nil => simp [splitFirst]
  | cons c front ih =>
    obtain ⟨other, later⟩ : sep ≠ c ∧ sep ∉ front := by simpa using plain
    simp [splitFirst, Ne.symm other, ih later]

theorem trim_append (some : front ≠ []) (solid : ∀ c ∈ front, isBlank c = false)
    (nonempty : text ≠ []) (trimmed : text.trim = text) (between : Text) :
    trim (front ++ between ++ text) = front ++ between ++ text := by
  obtain ⟨first, front, rfl⟩ := List.exists_cons_of_ne_nil some
  obtain ⟨init, last, rfl⟩ := (List.eq_nil_or_concat' text).resolve_left nonempty
  refine trim_eq_self (fun c rest same => ?_) (fun c rest same => ?_)
  · obtain ⟨rfl, -⟩ := List.cons.inj same
    exact solid _ (by simp)
  · rw [← List.append_assoc] at same
    obtain rfl : last = c := by simpa using (List.append_inj' same rfl).2
    by_contra blank
    rw [Bool.not_eq_false] at blank
    exact trim_concat_ne blank init trimmed

end Text

section Results

variable {A B : Type} {items : List A}

theorem bind_eq_error {result : Except Error A} {f : A → Except Error B} {error : Error} :
    (result >>= f) = .error error ↔ result = .error error ∨ ∃ a, result = .ok a ∧ f a = .error error := by
  cases result <;> simp [Bind.bind, Except.bind]

theorem mapM_congr {f g : A → Except Error B} (same : ∀ item ∈ items, f item = g item) :
    items.mapM f = items.mapM g := by
  induction items with
  | nil => rfl
  | cons item rest ih =>
    obtain ⟨first, later⟩ := List.forall_mem_cons.1 same
    rw [List.mapM_cons, List.mapM_cons, first, ih later]

theorem mapM_eq_ok {f : A → Except Error B} {R : A → B → Prop} {results : List B}
    (each : ∀ item ∈ items, ∀ result, f item = .ok result ↔ R item result) :
    items.mapM f = .ok results ↔ List.Forall₂ R items results := by
  induction items generalizing results with
  | nil => simp [pure, Except.pure, eq_comm]
  | cons item rest ih =>
    obtain ⟨first, later⟩ := List.forall_mem_cons.1 each
    simp only [List.mapM_cons, bind_eq_ok, pure_eq_ok, first, ih later, List.forall₂_cons_left_iff]
    constructor
    · rintro ⟨result, found, others, rested, rfl⟩
      exact ⟨result, others, found, rested, rfl⟩
    · rintro ⟨result, others, found, rested, rfl⟩
      exact ⟨result, found, others, rested, rfl⟩

theorem mapM_eq_error {f : A → Except Error B} {error : Error} :
    items.mapM f = .error error ↔ ∃ front bad behind, items = front ++ bad :: behind ∧
      (∀ earlier ∈ front, ∃ result, f earlier = .ok result) ∧ f bad = .error error := by
  induction items with
  | nil => simp [pure, Except.pure]
  | cons item rest ih =>
    have split : (item :: rest).mapM f = .error error ↔
        f item = .error error ∨ (∃ result, f item = .ok result) ∧ rest.mapM f = .error error := by
      rw [List.mapM_cons, bind_eq_error]
      simp only [bind_eq_error, pure, Except.pure, reduceCtorEq, and_false, exists_false, or_false,
        exists_and_right]
    rw [split, ih]
    constructor
    · rintro (failed | ⟨passed, front, bad, behind, rfl, earlier, failed⟩)
      · exact ⟨[], item, rest, rfl, by simp, failed⟩
      · exact ⟨item :: front, bad, behind, rfl, List.forall_mem_cons.2 ⟨passed, earlier⟩, failed⟩
    · rintro ⟨_ | ⟨first, front⟩, bad, behind, whole, earlier, failed⟩
      · obtain ⟨rfl, rfl⟩ := List.cons.inj whole
        exact .inl failed
      · obtain ⟨rfl, rfl⟩ := List.cons.inj whole
        obtain ⟨passed, later⟩ := List.forall_mem_cons.1 earlier
        exact .inr ⟨passed, front, bad, behind, rfl, later, failed⟩

end Results

/-- A column and a direction that can be told apart in a text. -/
structure Listable (entry : Text × Text) : Prop where
  column : entry.1 ≠ []
  solid : ∀ c ∈ entry.1, isBlank c = false
  apart : ',' ∉ entry.1
  direction : entry.2 ≠ []
  trimmed : entry.2.trim = entry.2
  behind : ',' ∉ entry.2

instance (entry : Text × Text) : Decidable (Listable entry) :=
  have : Decidable (∀ c ∈ entry.1, isBlank c = false) := List.decidableBAll _ entry.1
  decidable_of_iff (entry.1 ≠ [] ∧ (∀ c ∈ entry.1, isBlank c = false) ∧ ',' ∉ entry.1 ∧ entry.2 ≠ [] ∧
      entry.2.trim = entry.2 ∧ ',' ∉ entry.2)
    ⟨fun ⟨a, b, c, d, e, f⟩ => ⟨a, b, c, d, e, f⟩, fun ⟨a, b, c, d, e, f⟩ => ⟨a, b, c, d, e, f⟩⟩

def sortToken (entry : Text × Text) : Text := entry.1 ++ ' ' :: entry.2

def sortText (entries : List (Text × Text)) : Text :=
  List.intercalate ", ".toList (entries.map sortToken)

def sortShapes (entries : List (Text × Text)) : List SortInput :=
  [.text (sortText entries), .tokens (entries.map sortToken), .pairs entries]

namespace SortInput

variable {settings : Settings} {method : Text} {entry : Text × Text} {entries : List (Text × Text)}

def Taken (settings : Settings) (method : Text) (entry : Text × Text) (taken : Text × Direction) : Prop :=
  Reference.validate settings method entry.1 = .ok () ∧ Direction.parse method entry.2 = .ok taken.2 ∧
    taken.1 = entry.1

inductive Refused (settings : Settings) (method : Text) (entry : Text × Text) (error : Error) : Prop where
  | column (bad : Reference.validate settings method entry.1 = .error error)
  | direction (valid : Reference.validate settings method entry.1 = .ok ())
    (bad : Direction.parse method entry.2 = .error error)

theorem parseToken_trim (token : Text) :
    parseToken settings method token.trim = parseToken settings method token := by
  unfold parseToken
  rw [Text.trim_trim]

theorem comma_mem_sortText (several : 2 ≤ entries.length) : ',' ∈ sortText entries := by
  match entries with
  | first :: second :: rest => simp [sortText]

section Listable

variable (listable : Listable entry)

include listable

theorem trim_sortToken : (sortToken entry).trim = sortToken entry := by
  have whole := Text.trim_append listable.column listable.solid listable.direction listable.trimmed [' ']
  simpa [sortToken] using whole

theorem comma_not_mem_sortToken : ',' ∉ sortToken entry := by
  simp [sortToken, listable.apart, listable.behind]

theorem parsePair_eq : parsePair settings method entry = do
    Reference.validate settings method entry.1
    let direction ← Direction.parse method entry.2
    return (entry.1, direction) := by
  have trimmed : entry.1.trim = entry.1 := Reference.trim_of_blankless listable.solid
  rcases entry with ⟨column, direction⟩
  simp only at trimmed
  simp only [parsePair, Reference.check, trimmed]
  cases Reference.validate settings method column <;> rfl

theorem parseToken_sortToken :
    parseToken settings method (sortToken entry) = parsePair settings method entry := by
  have plain : ' ' ∉ entry.1 := fun space => absurd (listable.solid ' ' space) (by decide)
  have split : Text.splitFirst ' ' (sortToken entry) = (entry.1, some entry.2) :=
    Text.splitFirst_append plain entry.2
  rw [parsePair_eq listable, parseToken, trim_sortToken listable, split]
  simp only [Option.map_some, listable.trimmed, Direction.parseOptional]

theorem parsePair_eq_ok {taken : Text × Direction} :
    parsePair settings method entry = .ok taken ↔ Taken settings method entry taken := by
  rw [parsePair_eq listable, then_eq_ok, bind_eq_ok, Taken]
  refine and_congr_right fun _ => ?_
  constructor
  · rintro ⟨direction, parsed, same⟩
    obtain rfl := pure_eq_ok.1 same
    exact ⟨parsed, rfl⟩
  · rintro ⟨parsed, same⟩
    exact ⟨taken.2, parsed, pure_eq_ok.2 (Prod.ext same.symm rfl)⟩

theorem parsePair_eq_error {error : Error} :
    parsePair settings method entry = .error error ↔ Refused settings method entry error := by
  rw [parsePair_eq listable, bind_eq_error]
  constructor
  · rintro (bad | ⟨_, valid, later⟩)
    · exact .column bad
    · rcases bind_eq_error.1 later with bad | ⟨direction, -, passed⟩
      · exact .direction valid bad
      · cases passed
  · rintro (bad | ⟨valid, bad⟩)
    · exact .inl bad
    · exact .inr ⟨(), valid, bind_eq_error.2 (.inl bad)⟩

end Listable

section List

variable (listable : ∀ entry ∈ entries, Listable entry)

include listable

theorem map_trim_split (some : entries ≠ []) :
    (Text.split ',' (sortText entries)).map Text.trim = entries.map sortToken := by
  obtain ⟨first, rest, rfl⟩ := List.exists_cons_of_ne_nil some
  let blank (entry : Text × Text) : Text := ' ' :: sortToken entry
  have whole : sortText (first :: rest) = [','].intercalate (sortToken first :: rest.map blank) := by
    simp [sortText, blank, Text.intercalate_cons, List.flatMap_map]
  have plain : ∀ piece ∈ sortToken first :: rest.map blank, ',' ∉ piece := by
    rw [List.forall_mem_cons, List.forall_mem_map]
    refine ⟨comma_not_mem_sortToken (listable first (by simp)), fun entry member => ?_⟩
    simpa [blank] using comma_not_mem_sortToken (listable entry (by simp [member]))
  have trimmed (entry : Text × Text) (member : entry ∈ rest) : (blank entry).trim = sortToken entry :=
    (Text.trim_cons rfl _).trans (trim_sortToken (listable entry (by simp [member])))
  rw [whole, Text.split_intercalate (by simp) plain, List.map_cons, List.map_map, List.map_cons,
    trim_sortToken (listable first (by simp))]
  exact congrArg _ (List.map_congr_left trimmed)

theorem mapM_sortToken :
    (entries.map sortToken).mapM (parseToken settings method) = entries.mapM (parsePair settings method) := by
  rw [List.mapM_map]
  exact mapM_congr fun entry member => parseToken_sortToken (listable entry member)

theorem mapM_parsePair_eq_error {error : Error} :
    entries.mapM (parsePair settings method) = .error error ↔ ∃ front bad behind,
      entries = front ++ bad :: behind ∧ (∀ earlier ∈ front, ∃ taken, Taken settings method earlier taken) ∧
        Refused settings method bad error := by
  rw [mapM_eq_error]
  refine exists_congr fun front => exists_congr fun bad => exists_congr fun behind =>
    and_congr_right fun whole => and_congr (forall₂_congr fun earlier member => ?_) ?_
  · exact exists_congr fun taken => parsePair_eq_ok (listable earlier (by simp [whole, member]))
  · exact parsePair_eq_error (listable bad (by simp [whole]))

theorem mapM_split (some : entries ≠ []) :
    (Text.split ',' (sortText entries)).mapM (parseToken settings method) =
      entries.mapM (parsePair settings method) := by
  rw [← mapM_sortToken listable, ← map_trim_split listable some, List.mapM_map]
  exact mapM_congr fun token _ => (parseToken_trim token).symm

theorem normalize_shape (several : 2 ≤ entries.length) {input : SortInput} (shape : input ∈ sortShapes entries)
    (direction? : Option Text) : input.normalize settings method direction? =
      parseList method direction? (parsePair settings method) entries := by
  have some : entries ≠ [] := by
    rintro rfl
    simp at several
  simp only [sortShapes, List.mem_cons, List.not_mem_nil, or_false] at shape
  rcases shape with rfl | rfl | rfl
  · have comma : (sortText entries).contains ',' = true := by simpa using comma_mem_sortText several
    rw [normalize, if_pos comma, parseList, mapM_split listable some, parseList]
  · rw [normalize, parseList, mapM_sortToken listable, parseList]
  · rfl

end List

theorem normalize_single (listable : Listable entry) {input : SortInput}
    (single : input ∈ [.tokens [sortToken entry], .pairs [entry]]) :
    input.normalize settings method none = normalize settings method (some entry.2) (.text entry.1) := by
  have text : normalize settings method (some entry.2) (.text entry.1) =
      [entry].mapM (parsePair settings method) := by
    have plain : (entry.1.contains ',') = false := by simpa using listable.apart
    have trimmed : entry.1.trim = entry.1 := Reference.trim_of_blankless listable.solid
    rw [List.mapM_cons, parsePair_eq listable, normalize, plain, trimmed]
    simp [Direction.parseOptional]
  rw [text]
  have each : ∀ other ∈ [entry], Listable other := by simpa using listable
  simp only [List.mem_cons, List.not_mem_nil, or_false] at single
  rcases single with rfl | rfl
  · exact mapM_sortToken each
  · rfl

end SortInput

section Edits

variable {s : Statement} {input other : SortInput} {direction? other? : Option Text}

theorem Edit.run_orderBy_congr (same : input.normalize s.settings "order_by" direction? =
    other.normalize s.settings "order_by" other?) :
    (Edit.orderBy input direction?).run s = (Edit.orderBy other other?).run s := by
  simp only [Edit.run_eq, Edit.apply, Edit.base, Edit.startsOver, Bool.false_eq_true, if_false,
    Statement.orderBy, same]

theorem Edit.run_groupBy_congr (same : input.normalize s.settings "group_by" direction? =
    other.normalize s.settings "group_by" other?) :
    (Edit.groupBy input direction?).run s = (Edit.groupBy other other?).run s := by
  simp only [Edit.run_eq, Edit.apply, Edit.base, Edit.startsOver, Bool.false_eq_true, if_false,
    Statement.groupBy, same]

end Edits

/-- Several entries are taken all or refused for the first bad one, whatever their shape, and never with a
direction beside them. An entry alone does what its column does with its direction. -/
theorem sort_shapes_agree (settings : Settings) (method : Text) (entries : List (Text × Text))
    (listable : ∀ entry ∈ entries, Listable entry) :
    (2 ≤ entries.length → ∀ input ∈ sortShapes entries,
      (∀ taken, input.normalize settings method none = .ok taken ↔
        List.Forall₂ (SortInput.Taken settings method) entries taken) ∧
      (∀ error, input.normalize settings method none = .error error ↔ ∃ front bad behind,
        entries = front ++ bad :: behind ∧
          (∀ earlier ∈ front, ∃ taken, SortInput.Taken settings method earlier taken) ∧
          SortInput.Refused settings method bad error) ∧
      ∀ direction, input.normalize settings method (some direction) =
        .error (.invalidArgument method .listWithDirection)) ∧
    ∀ entry ∈ entries, ∀ input ∈ [SortInput.tokens [sortToken entry], .pairs [entry]],
      input.normalize settings method none =
        SortInput.normalize settings method (some entry.2) (.text entry.1) ∧
      ∀ s : Statement,
        (Edit.orderBy input none).run s = (Edit.orderBy (.text entry.1) (some entry.2)).run s ∧
          (Edit.groupBy input none).run s = (Edit.groupBy (.text entry.1) (some entry.2)).run s := by
  refine ⟨fun several input shape => ⟨fun taken => ?_, fun error => ?_, fun direction => ?_⟩,
    fun entry member input single => ⟨?_, fun s => ⟨?_, ?_⟩⟩⟩
  · rw [SortInput.normalize_shape listable several shape]
    exact mapM_eq_ok fun entry member taken => SortInput.parsePair_eq_ok (listable entry member)
  · rw [SortInput.normalize_shape listable several shape]
    exact SortInput.mapM_parsePair_eq_error listable
  · rw [SortInput.normalize_shape listable several shape]
    rfl
  · exact SortInput.normalize_single (listable entry member) single
  · exact Edit.run_orderBy_congr (SortInput.normalize_single (listable entry member) single)
  · exact Edit.run_groupBy_congr (SortInput.normalize_single (listable entry member) single)

-- The second entry is bad for its direction, before the third one for its column.
theorem sort_shapes_agree_refused :
    let entries : List (Text × Text) := [("films.year", "DESC nulls"), ("title", "up"), ("ra;ting", "asc")]
    (∀ input ∈ sortShapes entries,
      input.normalize {} "order_by" none = .error (.invalidDirection "order_by" "up") ∧
        input.normalize {} "order_by" (some "asc") = .error (.invalidArgument "order_by" .listWithDirection)) ∧
      (Edit.orderBy (.tokens ["films.year DESC nulls"]) none).run (.new {}) =
        (Edit.orderBy (.text "films.year") (some "DESC nulls")).run (.new {}) := by
  intro entries
  obtain ⟨shapes, singles⟩ := sort_shapes_agree {} "order_by" entries (by decide +kernel)
  refine ⟨fun input shape => ?_, ?_⟩
  · obtain ⟨-, refused, directed⟩ := shapes (by decide) input shape
    refine ⟨(refused _).2 ⟨[("films.year", "DESC nulls")], _, _, rfl, ?_, ?_⟩, directed "asc"⟩
    · simpa using ⟨_, _, by decide +kernel, rfl, rfl⟩
    · exact .direction (by decide +kernel) (by decide +kernel)
  · exact ((singles ("films.year", "DESC nulls") (by simp [entries]) _ (by simp [sortToken])).2 (.new {})).1

end SqlComposer
