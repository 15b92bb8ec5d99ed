import SqlComposer.Proofs.Clauses
import SqlComposer.Proofs.Joins
import SqlComposer.Proofs.SortEntries

set_option autoImplicit false

namespace SqlComposer

open Token

inductive SortClause where
  | groups
  | orders

namespace SortClause

def clause : SortClause → Clause
  | .groups => .groups
  | .orders => .orders

def get : SortClause → Statement → List SortEntry
  | .groups, s => s.groups
  | .orders, s => s.orders

def without : SortClause → Statement → Statement
  | .groups, s => { s with groups := [] }
  | .orders, s => { s with orders := [] }

def before : SortClause → Statement → Statement
  | .groups, s => { s with groups := [], havings := [], orders := [], pagination := {} }
  | .orders, s => { s with orders := [], pagination := {} }

def lead? : SortClause → Kind → Option Text
  | .groups, .unset | .groups, .select _ => some " GROUP BY "
  | .orders, .unset | .orders, .select _ | .orders, .update _ | .orders, .delete => some " ORDER BY "
  | .orders, .union .. => some "\nORDER BY "
  | .groups, _ | .orders, _ => none

def entriesOf : Except Error (List (Text × Direction)) → List SortEntry
  | .ok pairs => pairs.map fun (reference, direction) => .column reference direction
  | .error _ => []

def asked (settings : Settings) : SortClause → Edit → List SortEntry
  | .groups, .groupBy input direction? => entriesOf (input.normalize settings "group_by" direction?)
  | .orders, .orderBy input direction? => entriesOf (input.normalize settings "order_by" direction?)
  | .orders, .orderByRandom => [.random]
  | _, _ => []

def given (clause : SortClause) (s : Statement) : Call → List SortEntry
  | .edit action =>
    match (action.run s).1 with
    | .ok () => clause.asked s.settings action
    | .error _ => []
  | .attempt call => clause.given s call
  | _ => []

def allGiven (clause : SortClause) : List Call → Statement → List SortEntry
  | [], _ => []
  | call :: rest, s => clause.given s call ++ clause.allGiven rest (call.run s).statement

variable {clause : SortClause} {s next : Statement}

theorem get_apply {edit : Edit} (kept : edit ≠ .reset) (applied : edit.apply s = .ok next) :
    clause.get next = SortEntry.addAll (clause.asked s.settings edit) (clause.get s) := by
  by_cases own : edit.clause? = some clause.clause
  · cases clause with
    | groups =>
      cases edit with
      | groupBy input direction? =>
        obtain ⟨pairs, found, rfl⟩ := Statement.groupBy_eq_ok.1 applied
        simp only [asked, found, entriesOf, ← SortEntry.putAll_eq]
        rfl
      | _ => cases own
    | orders =>
      cases edit with
      | orderBy input direction? =>
        obtain ⟨pairs, found, rfl⟩ := Statement.orderBy_eq_ok.1 applied
        simp only [asked, found, entriesOf, ← SortEntry.putAll_eq]
        rfl
      | orderByRandom =>
        obtain rfl := Except.ok.inj applied
        rfl
      | _ => cases own
  · have same : clause.get next = clause.get s := by
      cases clause <;> exact Edit.get_of_other kept own applied
    have none : clause.asked s.settings edit = [] := by
      cases clause <;> cases edit <;> first | rfl | exact absurd rfl own
    rw [same, none]
    rfl

theorem get_effect {call : Call} (other : ∀ action, call ≠ .edit action) (made : call.Effect s next) :
    clause.get next = clause.get s := by
  cases made with
  | same => rfl
  | compiled | filtered | compared | united => cases clause <;> rfl
  | edited action edits => exact absurd edits (other action)

theorem get_run (call : Call) (kept : ¬ call.Clears s) :
    clause.get (call.run s).statement = SortEntry.addAll (clause.given s call) (clause.get s) := by
  match call with
  | .attempt call =>
    have inner : ¬ call.Clears s := kept
    exact get_run call inner
  | .edit action =>
    have stays : action ≠ .reset := fun resets => kept (.inl (resets ▸ rfl))
    simp only [given, Call.run, Call.run_of_kept kept]
    cases applied : action.apply s with
    | ok next => exact get_apply stays applied
    | error error => rfl
  | .query _ | .whereGroup .. | .whereInQuery .. | .whereExists .. | .havingGroup .. | .union .. =>
    exact get_effect (by simp [Call.bare]) (Call.effect _ kept)

theorem get_runAll {calls : List Call} (run : Uninterrupted calls s) :
    clause.get (Call.runAll calls s) = SortEntry.addAll (clause.allGiven calls s) (clause.get s) := by
  induction calls generalizing s with
  | nil => rfl
  | cons call rest ih =>
    rw [Call.runAll_cons, ih run.2, get_run call run.1, allGiven, SortEntry.addAll, SortEntry.addAll,
      SortEntry.addAll, List.foldl_append]

def entryText (scope : Scope) : SortEntry → Text
  | .column reference .ascending => Token.sql (scope.column reference)
  | .column reference .descending => Token.sql (scope.column reference) ++ " DESC"
  | .random => "RAND()"

def text (scope : Scope) (lead : Text) (entries : List SortEntry) : Text :=
  if entries = [] then [] else lead ++ [','].intercalate (entries.map (entryText scope))

theorem text_eq_nil {scope : Scope} {kind : Kind} {lead : Text} (written : clause.lead? kind = some lead)
    {entries : List SortEntry} : text scope lead entries = [] ↔ entries = [] := by
  have words : lead ≠ [] := by
    rintro rfl
    cases clause <;> cases kind <;> simp [lead?] at written
  unfold text
  split
  · next none => exact iff_of_true rfl none
  · next some => exact iff_of_false (by simp [words]) some

theorem sql_tokens (scope : Scope) (entry : SortEntry) : Token.sql (entry.tokens scope) = entryText scope entry := by
  match entry with
  | .column reference .ascending => rfl
  | .column reference .descending => exact sql_append ..
  | .random => rfl

theorem sql_clauseTokens (scope : Scope) (lead : List Token) (entries : List SortEntry) :
    Token.sql (clauseTokens entries lead (commaSeparated (entries.map (SortEntry.tokens scope)))) =
      text scope (Token.sql lead) entries := by
  have listed : Token.sql (commaSeparated (entries.map (SortEntry.tokens scope))) =
      [','].intercalate (entries.map (entryText scope)) := by
    rw [commaSeparated, sql_intercalate, List.map_map]
    exact congrArg _ (List.map_congr_left fun entry _ => sql_tokens scope entry)
  unfold clauseTokens text
  cases entries with
  | nil => rfl
  | cons first rest => rw [List.isEmpty_cons, if_neg (by simp), if_neg (by simp), sql_append, listed]

theorem check_without (s : Statement) : (clause.without s).check = s.check := by
  cases s with
  | mk settings stage kind => cases clause <;> cases kind <;> rfl

theorem tokens_written {lead : Text} (written : clause.lead? s.kind = some lead) :
    ∃ body behind, Token.sql body = text s.scope lead (clause.get s) ∧
      s.tokens = (clause.before s).tokens ++ body ++ behind ∧
        (clause.without s).tokens = (clause.before s).tokens ++ behind := by
  have ungrouped (scope : Scope) : groupTokens scope [] = [] := rfl
  have unordered (scope : Scope) (separator : Token) : orderTokens scope separator [] = [] := rfl
  have unfiltered (lead body : List Token) : clauseTokens ([] : List Condition) lead body = [] := rfl
  have unpaged (separator : Token) : Pagination.tokens separator {} = [] := rfl
  cases s with
  | mk settings stage kind distinct table joins wheres groups havings orders pagination =>
    let scope := Scope.ofTable settings table
    cases clause with
    | groups =>
      cases kind with
      | unset | select items =>
        obtain rfl := Option.some.inj written
        refine ⟨groupTokens scope groups, clauseTokens havings [.space, .word .HAVING, .space]
          (Condition.listTokens scope havings) ++ orderTokens scope .space orders ++
            pagination.tokens .space, sql_clauseTokens .., ?_, ?_⟩ <;>
        simp [Statement.tokens, before, without, scope, ungrouped, unordered, unfiltered, unpaged]
      | _ => cases written
    | orders =>
      cases kind with
      | unset | select items | update row | delete =>
        obtain rfl := Option.some.inj written
        refine ⟨orderTokens scope .space orders, pagination.tokens .space, sql_clauseTokens .., ?_, ?_⟩ <;>
        simp [Statement.tokens, before, without, scope, unordered, unpaged]
      | union all members =>
        obtain rfl := Option.some.inj written
        refine ⟨orderTokens scope .newline orders, pagination.tokens .newline, sql_clauseTokens .., ?_, ?_⟩ <;>
        simp [Statement.tokens, before, without, scope, unordered, unpaged]
      | _ => cases written

theorem tokens_unwritten (unwritten : clause.lead? s.kind = none) : (clause.without s).tokens = s.tokens := by
  cases s with
  | mk settings stage kind =>
    cases clause <;> cases kind <;> first | rfl | cases unwritten

theorem sql_written {lead : Text} (written : clause.lead? s.kind = some lead) :
    ∃ behind, s.sql = (s.check.map fun _ =>
        Token.sql (clause.before s).tokens ++ text s.scope lead (clause.get s) ++ behind) ∧
      (clause.without s).sql = s.check.map fun _ => Token.sql (clause.before s).tokens ++ behind := by
  obtain ⟨body, behind, shown, whole, rest⟩ := tokens_written written
  refine ⟨Token.sql behind, ?_, ?_⟩
  · rw [Statement.sql_eq, whole, sql_append, sql_append, shown]
  · rw [Statement.sql_eq, check_without, rest, sql_append]

theorem sql_unwritten (unwritten : clause.lead? s.kind = none) : s.sql = (clause.without s).sql := by
  rw [Statement.sql_eq, Statement.sql_eq, check_without, tokens_unwritten unwritten]

end SortClause

/-- Kinds of statement that have the clause are written with it just if the calls gave any entries, whatever
other calls stand between them: each column once where it came first, with its last direction, and every
random entry where it was given. Other kinds are written without it. The clause holds the same as a map that
keeps the order of its keys and numbers the random ones. -/
theorem sort_clause_listed (clause : SortClause) (s : Statement) (calls : List Call)
    (empty : clause.get s = []) (run : Uninterrupted calls s) :
    let t := Call.runAll calls s
    let given := clause.allGiven calls s
    let listed := SortEntry.listing given
    (∀ lead, clause.lead? t.kind = some lead →
      let written := SortClause.text t.scope lead listed
      (written = [] ↔ given = []) ∧
      ∃ behind, t.sql = (t.check.map fun _ => Token.sql (clause.before t).tokens ++ written ++ behind) ∧
        (clause.without t).sql = t.check.map fun _ => Token.sql (clause.before t).tokens ++ behind) ∧
    (clause.lead? t.kind = none → t.sql = (clause.without t).sql) ∧
    clause.get t = listed ∧ (SortMap.addAll given .empty).shown = listed := by
  intro t given listed
  have kept : clause.get t = listed := by
    rw [SortClause.get_runAll run, empty, SortEntry.addAll_nil]
  have keyed : (SortMap.addAll given .empty).shown = listed :=
    (SortMap.shown_addAll given .empty).trans (SortEntry.addAll_nil given)
  refine ⟨fun lead has => ⟨?_, ?_⟩, SortClause.sql_unwritten, kept, keyed⟩
  · rw [SortClause.text_eq_nil has, SortEntry.listing_eq_nil]
  · rw [← kept]
    exact SortClause.sql_written has

-- A list whose second token is bad comes between, and a column again with another direction.
theorem sort_clause_listed_delete :
    let s := Call.runAll [.edit (.fromTable "a"), .edit .delete] (.new {})
    let calls : List Call := [.edit (.orderBy (.text "y desc, x") none), .edit .orderByRandom,
      .attempt (.edit (.orderBy (.tokens ["z", "q;"]) none)), .edit (.orderBy (.text "y") (some "asc")),
      .edit (.limit (.integer 2)), .edit .orderByRandom, .edit (.orderBy (.pairs [("x", "desc")]) none)]
    let t := Call.runAll calls s
    let written : Text := " ORDER BY `a`.`y`,`a`.`x` DESC,RAND(),RAND()"
    Uninterrupted calls s ∧
      ∃ behind, t.sql = t.check.map fun _ => ("DELETE FROM `a`" : Text) ++ written ++ behind := by
  intro s calls t written
  have run : Uninterrupted calls s := by
    simp [calls, Uninterrupted, Call.Clears, Call.bare, Call.startsOver, Edit.startsOver]
  obtain ⟨lists, -⟩ := sort_clause_listed .orders s calls (by decide +kernel) run
  obtain ⟨-, behind, shown, -⟩ := lists " ORDER BY " (by decide +kernel)
  refine ⟨run, behind, shown.trans ?_⟩
  exact congrArg (fun text => t.check.map fun _ => text ++ behind) (by decide +kernel)

/-- An insert is written without the columns it was to be sorted by. -/
theorem sort_clause_of_insert :
    let s := Call.runAll [.edit (.fromTable "a"), .edit (.insert (.one (.pairs [("x", .null)])))] (.new {})
    let calls : List Call := [.edit (.orderBy (.text "x") none)]
    let t := Call.runAll calls s
    Uninterrupted calls s ∧ SortClause.orders.get s = [] ∧
      SortClause.orders.allGiven calls s = [.column "x" .ascending] ∧
      t.sql = .ok "INSERT INTO `a` (`x`) VALUES (?)" ∧
      t.sql ≠ .ok "INSERT INTO `a` (`x`) VALUES (?) ORDER BY `a`.`x`" := by
  refine ⟨?_, by decide +kernel⟩
  simp [Uninterrupted, Call.Clears, Call.bare, Call.startsOver, Edit.startsOver]

end SqlComposer
