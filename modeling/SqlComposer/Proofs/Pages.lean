import SqlComposer.Proofs.Changes
import SqlComposer.Proofs.Compiling
import SqlComposer.Proofs.Writing

set_option autoImplicit false

namespace SqlComposer

open Token

def Kind.pageSeparator? : Kind → Option Token
  | .unset | .select _ | .update _ | .delete => some .space
  | .union .. => some .newline
  | .insert _ | .truncate => none

def pageText (limit offset : Nat) : Text :=
  ("LIMIT " : Text) ++ decimal limit ++ if offset = 0 then [] else (" OFFSET " : Text) ++ decimal offset

namespace Pagination

theorem sql_tokens {pagination : Pagination} (limited : pagination.limit ≠ 0) (separator : Token) :
    Token.sql (pagination.tokens separator) =
      separator.text ++ pageText pagination.limit pagination.offset := by
  have limit (rest : Text) : Word.LIMIT.text ++ ' ' :: rest = ("LIMIT " : Text) ++ rest := rfl
  have offset (rest : Text) : ' ' :: (Word.OFFSET.text ++ ' ' :: rest) = (" OFFSET " : Text) ++ rest := rfl
  unfold tokens pageText
  rw [if_neg limited]
  by_cases first : pagination.offset = 0
  · simp only [first, if_true, List.append_nil, sql_cons, sql_nil, text_word, text_space, text_number,
      List.cons_append, List.nil_append, limit]
  · simp only [first, if_false, sql_cons, sql_nil, text_word, text_space, text_number, List.append_nil,
      List.cons_append, List.nil_append, List.append_assoc, limit, offset]

theorem paginate_eq (pagination : Pagination) (page perPage : UInt64) :
    let start := (page.toNat - 1) * perPage.toNat
    pagination.paginate page perPage =
      if 1 < page.toNat ∧ UInt64.size ≤ start then .error (.invalidArgument "paginate" .pageOverflow)
      else .ok ⟨perPage.toNat, if 1 < page.toNat then start else pagination.offset⟩ := by
  intro start
  unfold paginate
  by_cases first : page.toNat ≤ 1
  · have early : ¬ 1 < page.toNat := by omega
    simp [first, early]
  · have later : 1 < page.toNat := by omega
    by_cases fits : start < UInt64.size
    · have small : ¬ UInt64.size ≤ start := by omega
      simp only [first, later, small, if_false, and_false, if_true]
      exact if_pos fits
    · have large : UInt64.size ≤ start := by omega
      simp only [first, later, large, if_false, and_self, if_true]
      exact if_neg fits

end Pagination

theorem Edit.run_paginate (page perPage : UInt64) (s : Statement) :
    (Edit.paginate page perPage).run s = ((s.pagination.paginate page perPage).map fun _ => (),
      ((s.pagination.paginate page perPage).map fun pagination =>
        Statement.touched { s with pagination }).toOption.getD s) := by
  rw [run_eq]
  have base : (Edit.paginate page perPage).base s = s := rfl
  simp only [base, apply, Statement.paginate]
  cases s.pagination.paginate page perPage <;> rfl

namespace Statement

variable (s : Statement)

theorem check_pages (valid : s.pagination.validate = .ok ()) :
    s.check = ({ s with pagination := {} } : Statement).check := by
  match s with
  | { kind, pagination, .. } =>
    have valid : pagination.validate = .ok () := valid
    have none : Pagination.validate {} = .ok () := rfl
    cases kind <;> simp only [check, valid, none]

theorem tokens_pages : s.tokens = ({ s with pagination := {} } : Statement).tokens ++
    (s.kind.pageSeparator?.map fun separator => s.pagination.tokens separator).getD [] := by
  cases s with
  | mk settings stage kind =>
    have none (separator : Token) : Pagination.tokens separator {} = [] := rfl
    cases kind <;> simp [tokens, none, Kind.pageSeparator?]

theorem sql_pages (valid : s.pagination.validate = .ok ()) :
    s.sql = ({ s with pagination := {} } : Statement).sql.map fun body => body ++
      Token.sql ((s.kind.pageSeparator?.map fun separator => s.pagination.tokens separator).getD []) := by
  rw [sql_eq, sql_eq, s.check_pages valid, s.tokens_pages, sql_append]
  cases check _ <;> rfl

theorem sql_touched : s.touched.sql = s.sql := by
  cases s with
  | mk settings stage kind => cases kind <;> rfl

end Statement

/-- A page that begins past the largest integer is refused and changes nothing. Any other sets the limit,
and behind the first page the offset too: there just this is written. The first page has the offset that
was set before, and so is written without one just where there was none. -/
theorem paginate_writes_page (s : Statement) (page perPage : UInt64) (sized : 1 ≤ perPage) :
    let start := (page.toNat - 1) * perPage.toNat
    if 1 < page.toNat ∧ UInt64.size ≤ start then
      (Edit.paginate page perPage).run s = (.error (.invalidArgument "paginate" .pageOverflow), s)
    else
      let offset := if 1 < page.toNat then start else s.pagination.offset
      let next : Statement := .touched { s with pagination := ⟨perPage.toNat, offset⟩ }
      let bare : Statement := { s with pagination := {} }
      (Edit.paginate page perPage).run s = (.ok (), next) ∧
        (1 < page.toNat → offset ≠ 0) ∧
        (∀ separator, s.kind.pageSeparator? = some separator →
          next.sql = bare.sql.map fun body => body ++ separator.text ++ pageText perPage.toNat offset) ∧
        (s.kind.pageSeparator? = none → next.sql = bare.sql) := by
  intro start
  rw [Edit.run_paginate, Pagination.paginate_eq]
  split
  · rfl
  · intro offset next bare
    have limited : perPage.toNat ≠ 0 := by
      have least : 1 ≤ perPage.toNat := UInt64.le_iff_toNat_le.1 sized
      omega
    have valid : next.pagination.validate = .ok () :=
      Pagination.validate_eq_ok.2 (.inr limited)
    have body : ({ next with pagination := {} } : Statement).sql = bare.sql := bare.sql_touched
    refine ⟨rfl, fun later => ?_, fun separator given => ?_, fun unpaged => ?_⟩
    · have start_pos : 0 < start := Nat.mul_pos (by omega) (by omega)
      simp only [offset, later, if_true]
      omega
    · have written : Token.sql (next.pagination.tokens separator) =
          separator.text ++ pageText perPage.toNat offset := Pagination.sql_tokens limited separator
      have shown : next.kind.pageSeparator? = some separator := given
      simp [next.sql_pages valid, body, shown, written]
    · have hidden : next.kind.pageSeparator? = none := unpaged
      simp only [next.sql_pages valid, body, hidden, Option.map_none, Option.getD_none, sql_nil,
        List.append_nil]
      cases bare.sql <;> rfl

-- The third page in the place of an offset, and a page that begins past the largest integer.
theorem paginate_writes_page_third :
    let s := Call.runAll [.edit (.fromTable "a"), .edit (.offset (.integer 7))] (.new {})
    let third := (Edit.paginate 3 25).run s
    let past := (Edit.paginate 0xFFFFFFFFFFFFFFFF 2).run s
    third.1 = .ok () ∧ third.2.sql = .ok "SELECT * FROM `a` LIMIT 25 OFFSET 50" ∧
      past = (.error (.invalidArgument "paginate" .pageOverflow), s) := by
  intro s third past
  have page := paginate_writes_page s 3 25 (by decide)
  have refused := paginate_writes_page s 0xFFFFFFFFFFFFFFFF 2 (by decide)
  rw [if_neg (by decide)] at page
  rw [if_pos (by decide)] at refused
  obtain ⟨ran, -, written, -⟩ := page
  have text := written .space rfl
  exact ⟨congrArg (·.1) ran, (congrArg (·.2.sql) ran).trans (text.trans (by decide +kernel)), refused⟩

/-- The first page behind the third is written with the offset of the third. -/
theorem first_page_keeps_offset :
    let s := Call.runAll [.edit (.fromTable "a"), .edit (.paginate 3 25)] (.new {})
    let first := (Edit.paginate 1 25).run s
    s.sql = .ok "SELECT * FROM `a` LIMIT 25 OFFSET 50" ∧ first.1 = .ok () ∧
      first.2.sql = .ok "SELECT * FROM `a` LIMIT 25 OFFSET 50" := by
  decide +kernel

end SqlComposer
