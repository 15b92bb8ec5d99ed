import SqlComposer.Pagination.Digits
import SqlComposer.Proofs.Clauses
import SqlComposer.Proofs.Numerals
import SqlComposer.Proofs.Pages

set_option autoImplicit false

namespace SqlComposer

namespace Count

variable (count : Count) (n : Nat)

def value : Nat := count.digits.value

@[simp] theorem value_ofNat : (ofNat n).value = n := (numeral_decimal n).value

@[simp] theorem isZero_iff : count.isZero = true ↔ count.value = 0 :=
  (Text.value_eq_zero count.numeric).symm

theorem numeral_text : Numeral count.value count.text := by
  have numeric : (count.digits.dropWhile (· == '0')).all Char.isDigit = true :=
    List.all_eq_true.2 fun c member =>
      List.all_eq_true.1 count.numeric c ((List.dropWhile_sublist _).mem member)
  have worth := Text.value_cutZeros count.digits
  unfold text
  split
  · next none =>
    rw [none] at worth
    exact ⟨rfl, worth, .inl rfl⟩
  · next some =>
    refine ⟨numeric, worth, .inr ?_⟩
    cases cut : count.digits.dropWhile (· == '0') with
    | nil => exact absurd cut some
    | cons c rest =>
      refine ⟨c, rest, rfl, fun zero => ?_⟩
      have first := List.head_dropWhile_not (p := (· == '0')) (l := count.digits) (by simp [cut])
      simp [cut, zero] at first

theorem text_eq_decimal : count.text = decimal count.value :=
  count.numeral_text.unique (numeral_decimal count.value)

end Count

namespace CountInput

/-- The number that an input denotes, if it denotes any. No digits denote zero. -/
def number? : CountInput → Option Nat
  | .text digits => if digits.all fun c => '0' ≤ c ∧ c ≤ '9' then some digits.value else none
  | .integer (.ofNat n) => some n
  | .integer (.negSucc _) => none

theorem isDigit_eq : Char.isDigit = fun c => decide ('0' ≤ c ∧ c ≤ '9') := by
  funext c
  rw [Bool.eq_iff_iff]
  simp only [Char.isDigit, Bool.and_eq_true, decide_eq_true_eq]
  rfl

theorem number?_eq (input : CountInput) :
    input.number? = if input.toText.all Char.isDigit = true then some input.toText.value else none := by
  match input with
  | .text digits => rw [number?, toText, isDigit_eq]
  | .integer (.ofNat n) =>
    have numeral := numeral_decimal n
    exact ((if_pos numeral.numeric).trans (congrArg some numeral.value)).symm
  | .integer (.negSucc n) =>
    have sign : ('-' :: decimal (n + 1)).all Char.isDigit ≠ true := by simp
    exact (if_neg sign).symm

theorem parse_toText (input : CountInput) (method : Text) :
    (∀ n, input.number? = some n → ∃ count, Count.parse method input.toText = .ok count ∧ count.value = n) ∧
    (input.number? = none →
      Count.parse method input.toText = .error (.invalidArgument method (.notCount input.toText))) := by
  rw [input.number?_eq]
  unfold Count.parse
  by_cases numeric : input.toText.all Char.isDigit = true
  · rw [if_pos numeric, dif_pos numeric]
    exact ⟨fun n worth => ⟨_, rfl, Option.some.inj worth⟩, nofun⟩
  · rw [if_neg numeric, dif_neg numeric]
    exact ⟨nofun, fun _ => rfl⟩

theorem toCount_eq_parse (input : CountInput) (method : Text) :
    input.toCount method = (Count.parse method input.toText).map Count.value := by
  unfold toCount Count.parse
  split
  · simp [Count.value, Text.value_eq_ofDigitChars, Except.map]
  · rfl

end CountInput

namespace Counts

def pages (counts : Counts) : Pagination := ⟨counts.limit.value, counts.offset.value⟩

theorem validate_pages (counts : Counts) : counts.pages.validate = counts.validate := by
  unfold Pagination.validate validate
  refine if_congr ?_ rfl rfl
  simp [pages, ← Count.isZero_iff]

theorem paginate_pages (counts : Counts) (page perPage : UInt64) :
    counts.pages.paginate page perPage = (counts.paginate page perPage).map pages := by
  unfold Pagination.paginate paginate
  by_cases first : page.toNat ≤ 1
  · have early : ¬ 1 < page.toNat := by omega
    simp only [first, early, if_true, if_false]
    simp [pages, Except.map, bind, Except.bind]
  · have later : 1 < page.toNat := by omega
    simp only [first, later, if_true, if_false]
    split <;> simp [pages, Except.map, bind, Except.bind]

theorem write_pages {counts : Counts} (valid : counts.validate = .ok ()) (limited : counts.limit.value ≠ 0) :
    counts.write = .ok (pageText counts.limit.value counts.offset.value) := by
  have some : counts.limit.isZero ≠ true := fun zero => limited ((Count.isZero_iff _).1 zero)
  unfold write pageText
  rw [valid, Count.text_eq_decimal, Count.text_eq_decimal]
  simp only [bind, Except.bind, if_neg some]
  simp only [Count.isZero_iff]

theorem writeBehind_pages (separator : Token) (counts : Counts) :
    counts.writeBehind separator.text =
      counts.pages.validate.map fun _ => Token.sql (counts.pages.tokens separator) := by
  unfold writeBehind
  rw [counts.validate_pages]
  cases valid : counts.validate with
  | error error => rfl
  | ok done =>
    by_cases limited : counts.limit.value = 0
    · have first : counts.offset.value = 0 := by
        have bounded := Pagination.validate_eq_ok.1 (counts.validate_pages.trans valid)
        exact bounded.resolve_right (· limited)
      have none : counts.isEmpty = true := by simp [isEmpty, limited, first]
      have unwritten : counts.pages.tokens separator = [] := if_pos limited
      simp [none, unwritten, bind, Except.bind, Except.map]
    · have some : counts.isEmpty ≠ true := by simp [isEmpty, limited]
      have text : Token.sql (counts.pages.tokens separator) =
          separator.text ++ pageText counts.limit.value counts.offset.value :=
        Pagination.sql_tokens limited separator
      simp only [if_neg some, write_pages valid limited, text, bind, Except.bind, Except.map]

end Counts

inductive CountMethod where
  | limit
  | take
  | offset
  | skip

namespace CountMethod

def edit : CountMethod → CountInput → Edit
  | .limit => .limit
  | .take => .take
  | .offset => .offset
  | .skip => .skip

def name : CountMethod → Text
  | .limit => "limit"
  | .take => "take"
  | .offset => "offset"
  | .skip => "skip"

def put : CountMethod → Count → Counts → Counts
  | .limit, count, counts | .take, count, counts => { counts with limit := count }
  | .offset, count, counts | .skip, count, counts => { counts with offset := count }

end CountMethod

namespace Counts

/-! ### What the calls give -/

def set (counts : Counts) (method : CountMethod) (input : CountInput) : Counts :=
  match Count.parse method.name input.toText with
  | .ok count => method.put count counts
  | .error _ => counts

def edited (counts : Counts) : Edit → Counts
  | .limit input => counts.set .limit input
  | .take input => counts.set .take input
  | .offset input => counts.set .offset input
  | .skip input => counts.set .skip input
  | .paginate page perPage => (counts.paginate page perPage).toOption.getD counts
  | _ => counts

def called (counts : Counts) : Call → Counts
  | .edit action => counts.edited action
  | .attempt call => counts.called call
  | _ => counts

def afterAll (calls : List Call) : Counts := calls.foldl called {}

variable {counts : Counts} {s next : Statement}

theorem setLimit_eq (held : s.pagination = counts.pages) (method : Text) (input : CountInput) :
    s.setLimit method input = (Count.parse method input.toText).map fun limit =>
      Statement.touched { s with pagination := ({ counts with limit } : Counts).pages } := by
  rw [Statement.setLimit, input.toCount_eq_parse, held]
  cases Count.parse method input.toText <;> rfl

theorem setOffset_eq (held : s.pagination = counts.pages) (method : Text) (input : CountInput) :
    s.setOffset method input = (Count.parse method input.toText).map fun offset =>
      Statement.touched { s with pagination := ({ counts with offset } : Counts).pages } := by
  rw [Statement.setOffset, input.toCount_eq_parse, held]
  cases Count.parse method input.toText <;> rfl

theorem apply_method (held : s.pagination = counts.pages) (method : CountMethod) (input : CountInput) :
    (method.edit input).apply s = (Count.parse method.name input.toText).map fun count =>
      Statement.touched { s with pagination := (method.put count counts).pages } :=
  match method with
  | .limit | .take => setLimit_eq held _ input
  | .offset | .skip => setOffset_eq held _ input

theorem pagination_method (held : s.pagination = counts.pages) (method : CountMethod) {input : CountInput}
    (applied : (method.edit input).apply s = .ok next) : next.pagination = (counts.set method input).pages := by
  rw [apply_method held, map_eq_ok] at applied
  obtain ⟨count, parsed, rfl⟩ := applied
  simp only [set, parsed]
  rfl

theorem pagination_apply (held : s.pagination = counts.pages) {edit : Edit} (kept : edit ≠ .reset)
    (applied : edit.apply s = .ok next) : next.pagination = (counts.edited edit).pages := by
  by_cases own : edit.clause? = some .pagination
  · cases edit with
    | limit input => exact pagination_method held .limit applied
    | take input => exact pagination_method held .take applied
    | offset input => exact pagination_method held .offset applied
    | skip input => exact pagination_method held .skip applied
    | paginate page perPage =>
      obtain ⟨pagination, paged, rfl⟩ := Statement.paginate_eq_ok.1 applied
      rw [held, paginate_pages, map_eq_ok] at paged
      obtain ⟨given, found, rfl⟩ := paged
      simp only [edited, found]
      rfl
    | _ => cases own
  · have same : next.pagination = s.pagination := Edit.get_of_other kept own applied
    have none : counts.edited edit = counts := by
      cases edit <;> first | rfl | exact absurd rfl own
    rw [same, none, held]

theorem edited_of_error (held : s.pagination = counts.pages) {edit : Edit} {error : Error}
    (refused : edit.apply s = .error error) : counts.edited edit = counts := by
  have method (method : CountMethod) (input : CountInput)
      (refused : (method.edit input).apply s = .error error) : counts.set method input = counts := by
    rw [apply_method held] at refused
    unfold set
    cases parsed : Count.parse method.name input.toText with
    | ok count => simp [parsed, Except.map] at refused
    | error error => rfl
  cases edit with
  | limit input => exact method .limit input refused
  | take input => exact method .take input refused
  | offset input => exact method .offset input refused
  | skip input => exact method .skip input refused
  | paginate page perPage =>
    have refused : s.paginate page perPage = .error error := refused
    rw [Statement.paginate, held, paginate_pages] at refused
    cases paged : counts.paginate page perPage with
    | ok given => simp [paged, Except.map, bind, Except.bind, pure, Except.pure] at refused
    | error error => simp only [edited, paged, Except.toOption, Option.getD_none]
  | _ => rfl

theorem pagination_effect {call : Call} (other : ∀ action, call ≠ .edit action) (made : call.Effect s next) :
    next.pagination = s.pagination := by
  cases made with
  | same | compiled | filtered | compared | united => rfl
  | edited action edits => exact absurd edits (other action)

theorem pagination_run (held : s.pagination = counts.pages) (call : Call) (kept : ¬ call.Clears s) :
    (call.run s).statement.pagination = (counts.called call).pages := by
  refine call.run_cases (motive := fun call next => next.pagination = (counts.called call).pages)
    (fun action next stays applied _ => pagination_apply held stays applied) (fun action error failed _ => ?_)
    (fun call next edits attempts made => ?_) (fun call next same => same) kept
  · rw [called, edited_of_error held failed, held]
  · have none : counts.called call = counts := by
      cases call with
      | edit action => exact absurd rfl (edits action)
      | attempt call => exact absurd rfl (attempts call)
      | _ => rfl
    rw [none, pagination_effect edits made, held]

theorem pagination_runAll (held : s.pagination = counts.pages) {calls : List Call}
    (run : Uninterrupted calls s) :
    (Call.runAll calls s).pagination = (calls.foldl called counts).pages := by
  induction calls generalizing s counts with
  | nil => exact held
  | cons call rest ih =>
    rw [Call.runAll_cons]
    exact ih (pagination_run held call run.1) run.2

end Counts

/-! ### How the counts are written -/

namespace Statement

variable {s : Statement}

theorem check_refused {error : Error} (refused : s.pagination.validate = .error error)
    (paged : s.kind.pageSeparator? ≠ none) :
    s.check = .error error ∨
      ∃ earlier, ({ s with pagination := {} } : Statement).check = .error earlier ∧ s.check = .error earlier := by
  have last (checked : Except Error Unit) :
      (checked >>= fun _ => .error error) = (.error error : Except Error Unit) ∨
        ∃ earlier, (checked >>= fun _ => .ok ()) = (.error earlier : Except Error Unit) ∧
          (checked >>= fun _ => .error error) = (.error earlier : Except Error Unit) := by
    cases checked with
    | ok done => exact .inl rfl
    | error earlier => exact .inr ⟨earlier, rfl, rfl⟩
  have none : Pagination.validate {} = .ok () := rfl
  match s with
  | { kind, table, wheres, havings, pagination, .. } =>
    have refused : pagination.validate = .error error := refused
    match kind with
    | .unset | .select _ =>
      simpa only [check, refused, none, bind_assoc] using
        last (requireTable table >>= fun _ => Condition.checkAll wheres >>= fun _ => Condition.checkAll havings)
    | .update _ | .delete =>
      simpa only [check, refused, none, bind_assoc] using
        last (requireTable table >>= fun _ => Condition.checkAll wheres)
    | .union all members =>
      refine .inl ?_
      simp only [check, refused]
      rfl
    | .insert _ | .truncate => exact absurd rfl paged

theorem sql_unpaged (unpaged : s.pagination = {}) :
    s.sql = ({ s with pagination := {} } : Statement).sql := by
  match s, unpaged with
  | { .. }, rfl => rfl

end Statement

theorem Counts.sql_writeBehind {counts : Counts} {s : Statement} (held : s.pagination = counts.pages)
    {separator : Token} (paged : s.kind.pageSeparator? = some separator) {body : Text}
    (bare : ({ s with pagination := {} } : Statement).sql = .ok body) :
    s.sql = (counts.writeBehind separator.text).map (body ++ ·) := by
  rw [counts.writeBehind_pages, ← held]
  cases valid : s.pagination.validate with
  | ok done =>
    rw [s.sql_pages valid, bare, paged]
    rfl
  | error error =>
    obtain last | ⟨earlier, failed, -⟩ := Statement.check_refused valid (by simp [paged])
    · rw [s.sql_eq, last]
      rfl
    · rw [Statement.sql_eq, failed] at bare
      cases bare

theorem CountMethod.run_edit (method : CountMethod) (input : CountInput) {counts : Counts} {s : Statement}
    (held : s.pagination = counts.pages) :
    match input.number? with
    | some n => ((method.edit input).run s).1 = .ok () ∧
        ∃ count, count.value = n ∧ counts.called (.edit (method.edit input)) = method.put count counts
    | none => (method.edit input).run s = (.error (.invalidArgument method.name (.notCount input.toText)), s) := by
  have base : (method.edit input).base s = s := by cases method <;> rfl
  have sets : counts.called (.edit (method.edit input)) = counts.set method input := by cases method <;> rfl
  obtain ⟨taken, refused⟩ := input.parse_toText method.name
  rw [Edit.run_eq, base, Counts.apply_method held]
  cases denoted : input.number? with
  | some n =>
    obtain ⟨count, parsed, worth⟩ := taken n denoted
    simp only [parsed, sets, Counts.set]
    exact ⟨rfl, count, worth, rfl⟩
  | none =>
    rw [refused denoted]
    rfl

/-- Whatever calls are made, the digits that they leave are written behind the statement as the numbers that
they denote: not at all where both are zero, and else the limit with an offset that is not zero, each as the
one numeral without leading zeros. An offset without a limit is refused, unless something else is so before. An
input that denotes no number is refused by the method that it was given to, and leaves all as it is. -/
theorem counts_written_as_numbers (s : Statement) (calls : List Call) (unset : s.pagination = {})
    (run : Uninterrupted calls s) :
    let t := Call.runAll calls s
    let bare : Statement := { t with pagination := {} }
    let counts := Counts.afterAll calls
    let l := counts.limit.value
    let o := counts.offset.value
    (∀ separator, t.kind.pageSeparator? = some separator →
      (∀ body, bare.sql = .ok body → t.sql = (counts.writeBehind separator.text).map (body ++ ·)) ∧
      (l = 0 → o = 0 → t.sql = bare.sql) ∧
      (l = 0 → 0 < o → t.sql = .error (.invalidArgument "offset" .offsetWithoutLimit) ∨
        ∃ error, bare.sql = .error error ∧ t.sql = .error error) ∧
      (0 < l → t.sql = bare.sql.map fun body =>
        body ++ separator.text ++ (("LIMIT " : Text) ++ counts.limit.text ++
          if o = 0 then [] else (" OFFSET " : Text) ++ counts.offset.text))) ∧
    (Numeral l counts.limit.text ∧ Numeral o counts.offset.text) ∧
    ∀ (method : CountMethod) (input : CountInput),
      match input.number? with
      | some n => ((method.edit input).run t).1 = .ok () ∧ ∃ count, count.value = n ∧
          Counts.afterAll (calls ++ [.edit (method.edit input)]) = method.put count counts
      | none =>
        (method.edit input).run t = (.error (.invalidArgument method.name (.notCount input.toText)), t) := by
  intro t bare counts l o
  have held : t.pagination = counts.pages := Counts.pagination_runAll unset run
  refine ⟨fun separator paged => ⟨fun body written => Counts.sql_writeBehind held paged written,
    fun noLimit noOffset => ?_, fun noLimit someOffset => ?_, fun limited => ?_⟩,
    ⟨counts.limit.numeral_text, counts.offset.numeral_text⟩, fun method input => ?_⟩
  · exact Statement.sql_unpaged (held.trans (congrArg₂ Pagination.mk noLimit noOffset))
  · have refused : t.pagination.validate = .error (.invalidArgument "offset" .offsetWithoutLimit) := by
      rw [held]
      exact if_pos ⟨noLimit, someOffset.ne'⟩
    obtain last | ⟨earlier, failed, same⟩ := Statement.check_refused refused (by simp [paged])
    · exact .inl (by rw [t.sql_eq, last]; rfl)
    · exact .inr ⟨earlier, by rw [bare.sql_eq, failed]; rfl, by rw [t.sql_eq, same]; rfl⟩
  · have limited : t.pagination.limit ≠ 0 := by rw [held]; exact limited.ne'
    have valid : t.pagination.validate = .ok () := Pagination.validate_eq_ok.2 (.inr limited)
    have text := Pagination.sql_tokens limited separator
    rw [t.sql_pages valid, paged, Option.map_some, Option.getD_some, text, held]
    unfold pageText
    simp only [Counts.pages, Count.text_eq_decimal, List.append_assoc]
    rfl
  · rw [Counts.afterAll, List.foldl_concat]
    exact method.run_edit input held

-- Leading zeros, and two inputs between that are no counts; then an empty limit under the same offset.
theorem counts_written_as_numbers_padded :
    let s := Call.runAll [.edit (.fromTable "a"), .edit .delete] (.new {})
    let calls : List Call := [.edit (.limit (.text "007")), .attempt (.edit (.take (.text "1.5"))),
      .attempt (.edit (.offset (.integer (-1)))), .edit (.skip (.text "00010000000000000000000000"))]
    let t := Call.runAll calls s
    let u := Call.runAll (calls ++ [.edit (.take (.text ""))]) s
    Uninterrupted calls s ∧ t.sql = .ok "DELETE FROM `a` LIMIT 7 OFFSET 10000000000000000000000" ∧
      u.sql = .error (.invalidArgument "offset" .offsetWithoutLimit) := by
  intro s calls t u
  have run : Uninterrupted calls s := by decide +kernel
  have longer : Uninterrupted (calls ++ [.edit (.take (.text ""))]) s := by decide +kernel
  have unset : s.pagination = {} := by decide +kernel
  obtain ⟨paged, -⟩ := counts_written_as_numbers s calls unset run
  obtain ⟨refused, -⟩ := counts_written_as_numbers s _ unset longer
  obtain ⟨-, -, -, limited⟩ := paged .space (by decide +kernel)
  obtain ⟨-, -, unlimited, -⟩ := refused .space (by decide +kernel)
  refine ⟨run, (limited (by decide +kernel)).trans (by decide +kernel), ?_⟩
  obtain offset | ⟨error, failed, -⟩ := unlimited (by decide +kernel) (by decide +kernel)
  · exact offset
  · have written : ({ u with pagination := {} } : Statement).sql = .ok "DELETE FROM `a`" := by decide +kernel
    exact nomatch written.symm.trans failed

end SqlComposer
