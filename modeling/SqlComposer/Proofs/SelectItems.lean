import SqlComposer.Proofs.Inserts
import SqlComposer.Proofs.Joins
import SqlComposer.Proofs.Kinds
import SqlComposer.Proofs.SortInputs

set_option autoImplicit false

namespace SqlComposer

open Token

namespace SelectItem

def written (scope : Scope) : SelectItem → Text
  | .column reference => Token.sql (scope.column reference)
  | .fragment value => value
  | .aggregate function reference name =>
    let argument : Text := if Reference.isWildcard reference then ['*'] else Token.sql (scope.column reference)
    function.sql ++ ("(" : Text) ++ argument ++ (") AS " : Text) ++ Token.sql (Reference.quoted scope.quote name)

def listed (scope : Scope) (items : List SelectItem) : Text :=
  if items = [] then ['*'] else commaJoined (items.map (written scope))

theorem sql_tokens (scope : Scope) (item : SelectItem) : Token.sql (item.tokens scope) = item.written scope := by
  match item with
  | .column reference => rfl
  | .fragment value => exact List.append_nil value
  | .aggregate function reference name =>
    have word : (Word.aggregate function).text = function.sql := rfl
    have behind : Word.AS.text = ['A', 'S'] := rfl
    by_cases wildcard : Reference.isWildcard reference <;>
      simp [tokens, written, wildcard, parenthesised, word, behind]

theorem sql_listTokens (scope : Scope) (items : List SelectItem) :
    Token.sql (listTokens scope items) = listed scope items := by
  unfold listTokens listed
  cases items with
  | nil => rfl
  | cons first rest =>
    rw [List.isEmpty_cons, if_neg (by simp), if_neg (by simp), sql_commaSeparated, List.map_map]
    exact congrArg commaJoined (List.map_congr_left fun item _ => sql_tokens scope item)

end SelectItem

def selectText (distinct : Bool) (list behind : Text) : Text :=
  ("SELECT " : Text) ++ (if distinct then ("DISTINCT " : Text) else []) ++ list ++ (" FROM " : Text) ++ behind

namespace Statement

variable {s : Statement}

theorem check_selects (selects : s.kind.selects) (items : List SelectItem) :
    ({ s with kind := .select items } : Statement).check = s.check := by
  match s with
  | { kind, .. } =>
    cases kind with
    | unset | select => rfl
    | _ => cases selects

theorem tokens_selects (selects : s.kind.selects) : ∃ behind, ∀ items,
    ({ s with kind := .select items } : Statement).tokens =
      .word .SELECT :: .space :: (if s.distinct then [.word .DISTINCT, .space] else []) ++
        SelectItem.listTokens s.scope items ++ [.space, .word .FROM, .space] ++ behind := by
  match s with
  | { settings, distinct, table, joins, wheres, groups, havings, orders, pagination, .. } =>
    let scope := Scope.ofTable settings table
    refine ⟨tableTokens scope table ++ Join.listTokens scope joins ++
      clauseTokens wheres [.space, .word .WHERE, .space] (Condition.listTokens scope wheres) ++
      groupTokens scope groups ++
      clauseTokens havings [.space, .word .HAVING, .space] (Condition.listTokens scope havings) ++
      orderTokens scope .space orders ++ pagination.tokens .space, fun items => ?_⟩
    simp only [tokens, Kind.items, Statement.scope, scope, List.cons_append, List.append_assoc]

theorem sql_selects (selects : s.kind.selects) : ∃ behind, ∀ items,
    ({ s with kind := .select items } : Statement).sql = s.check.map fun _ =>
      selectText s.distinct (SelectItem.listed s.scope items) behind := by
  obtain ⟨behind, tokens⟩ := tokens_selects selects
  have distinct : Token.sql (if s.distinct then [.word .DISTINCT, .space] else []) =
      if s.distinct then ("DISTINCT " : Text) else [] := by cases s.distinct <;> rfl
  refine ⟨Token.sql behind, fun items => ?_⟩
  have text : Token.sql ({ s with kind := .select items } : Statement).tokens =
      selectText s.distinct (SelectItem.listed s.scope items) (Token.sql behind) := by
    rw [tokens items, sql_append, sql_append, sql_append, sql_cons, sql_cons, distinct,
      SelectItem.sql_listTokens]
    rfl
  rw [sql_eq, check_selects selects, text]

theorem sql_of_items (selects : s.kind.selects) :
    s.sql = ({ s with kind := .select s.kind.items } : Statement).sql := by
  match s with
  | { kind, .. } =>
    cases kind with
    | unset | select => rfl
    | _ => cases selects

end Statement

theorem mapM_check_eq_ok {settings : Settings} {method : Text} {entries references : List Text} :
    entries.mapM (Reference.check settings method) = .ok references ↔
      (∀ entry ∈ entries, Reference.validate settings method entry = .ok ()) ∧
        entries.map Text.trim = references := by
  induction entries generalizing references with
  | nil => simp [pure_eq_ok]
  | cons entry rest ih =>
    simp only [List.mapM_cons, bind_eq_ok, pure_eq_ok, Reference.check_eq_ok, ih, List.forall_mem_cons,
      List.map_cons]
    constructor
    · rintro ⟨_, ⟨first, rfl⟩, _, ⟨later, rfl⟩, rfl⟩
      exact ⟨⟨first, later⟩, rfl⟩
    · rintro ⟨⟨first, later⟩, rfl⟩
      exact ⟨_, ⟨first, rfl⟩, _, ⟨later, rfl⟩, rfl⟩

theorem Reference.check_eq_error {settings : Settings} {method reference : Text} {error : Error} :
    check settings method reference = .error error ↔ validate settings method reference = .error error := by
  rw [check, bind_eq_error]
  simp [pure, Except.pure]

theorem Kind.items_of_admits {kind made : Kind} (admitted : kind.admits made) (other : made.name ≠ "select") :
    made.items = kind.items := by
  cases made with
  | unset | select => exact absurd rfl other
  | insert | update | delete | truncate | union =>
    cases kind with
    | select => cases admitted
    | _ => rfl

namespace Edit

variable {edit : Edit} {s next : Statement}

def items : Edit → List SelectItem
  | .select columns => columns.entries.map fun column => .column column.trim
  | .selectRaw columns => columns.entries.map .fragment
  | .aggregate function column? alias? =>
    [.aggregate function (aggregateColumn column?).trim (alias?.getD function.name).trim]
  | _ => []

theorem items_addItems {method : Text} {items : List SelectItem} (added : s.addItems method items = .ok next) :
    next.kind.items = s.kind.items ++ items := by
  obtain ⟨-, rfl⟩ := Statement.establish_eq_ok.1 added
  rfl

theorem items_apply (kept : edit ≠ .reset) (applied : edit.apply s = .ok next) :
    next.kind.items = s.kind.items ++ edit.items := by
  cases named : edit.kindName? with
  | none =>
    have same := kind_of_plain named kept applied
    have none : edit.items = [] := by
      cases edit <;> first | rfl | cases named
    rw [same, none, List.append_nil]
  | some name =>
    cases edit with
    | select columns =>
      obtain ⟨references, checked, added⟩ := Statement.select_eq_ok.1 applied
      obtain ⟨-, rfl⟩ := mapM_check_eq_ok.1 checked
      rw [items_addItems added, List.map_map]
      rfl
    | selectRaw columns => exact items_addItems applied
    | aggregate function column? alias? =>
      obtain ⟨item, given, added⟩ := Statement.aggregate_eq_ok.1 applied
      obtain ⟨checked, name, found, named, rfl⟩ := aggregateInput_eq_ok given
      obtain ⟨-, rfl⟩ := Reference.check_eq_ok.1 found
      obtain ⟨-, rfl⟩ := Reference.check_eq_ok.1 named
      exact items_addItems added
    | insert | update | delete | truncate =>
      obtain rfl := Option.some.inj named
      obtain ⟨-, made, admitted⟩ := kind_of_named rfl applied
      have other : next.kind.name ≠ "select" := by rw [made]; decide
      rw [Kind.items_of_admits admitted other]
      exact (List.append_nil _).symm
    | _ => cases named

end Edit

namespace SelectItem

def given (s : Statement) : Call → List SelectItem
  | .edit action =>
    match (action.run s).1 with
    | .ok () => action.items
    | .error _ => []
  | .attempt call => given s call
  | _ => []

def allGiven : List Call → Statement → List SelectItem
  | [], _ => []
  | call :: rest, s => given s call ++ allGiven rest (call.run s).statement

variable {s next : Statement}

theorem items_effect {call : Call} (other : ∀ action, call ≠ .edit action) (made : call.Effect s next) :
    next.kind.items = s.kind.items := by
  cases made with
  | same | compiled | filtered | compared => rfl
  | edited action edits => exact absurd edits (other action)
  | united all list members _ unset => rw [unset]; rfl

theorem items_run (call : Call) (kept : ¬ call.Clears s) :
    (call.run s).statement.kind.items = s.kind.items ++ given s call := by
  refine call.run_cases (motive := fun call next => next.kind.items = s.kind.items ++ given s call)
    (fun action next stays applied ran => ?_) (fun action error _ ran => ?_)
    (fun call next edits attempts made => ?_) (fun call next same => same) kept
  · rw [given, ran]
    exact Edit.items_apply stays applied
  · rw [given, ran]
    exact (List.append_nil _).symm
  · have none : given s call = [] := by
      cases call with
      | edit action => exact absurd rfl (edits action)
      | attempt call => exact absurd rfl (attempts call)
      | _ => rfl
    rw [none, List.append_nil]
    exact items_effect edits made

theorem items_runAll {calls : List Call} (run : Uninterrupted calls s) :
    (Call.runAll calls s).kind.items = s.kind.items ++ allGiven calls s := by
  induction calls generalizing s with
  | nil => exact (List.append_nil _).symm
  | cons call rest ih =>
    rw [Call.runAll_cons, ih run.2, items_run call run.1, allGiven, List.append_assoc]

theorem allGiven_append (before after : List Call) (s : Statement) :
    allGiven (before ++ after) s = allGiven before s ++ allGiven after (Call.runAll before s) := by
  induction before generalizing s with
  | nil => rfl
  | cons call rest ih =>
    rw [List.cons_append, allGiven, allGiven, ih, List.append_assoc]
    rfl

theorem commaJoined_middle (before after : List Text) {pieces : List Text} (some : pieces ≠ []) :
    commaJoined (before ++ pieces ++ after) = commaJoined (before ++ commaJoined pieces :: after) := by
  obtain ⟨piece, rest, rfl⟩ := List.exists_cons_of_ne_nil some
  cases before with
  | nil => simp [commaJoined, Text.intercalate_cons]
  | cons first more => simp [commaJoined, Text.intercalate_cons]

theorem listed_raw (scope : Scope) (earlier later : List SelectItem) (text : Text) :
    listed scope (earlier ++ (Edit.selectRaw (.text text)).items ++ later) =
      commaJoined (earlier.map (written scope) ++ text :: later.map (written scope)) := by
  have pieces : (Edit.selectRaw (.text text)).items.map (written scope) = Text.split ',' text := by
    rw [Edit.items, List.map_map]
    exact List.map_id _
  have some : earlier ++ (Edit.selectRaw (.text text)).items ++ later ≠ [] := by
    have cut := Text.split_ne_nil ',' text
    rw [← pieces] at cut
    simp [List.map_eq_nil_iff.not.1 cut]
  have joined : commaJoined (Text.split ',' text) = text := Text.intercalate_split ',' text
  rw [listed, if_neg some, List.map_append, List.map_append, pieces,
    commaJoined_middle _ _ (Text.split_ne_nil ',' text), joined]

end SelectItem

namespace Edit

theorem run_of_entries {columns other : ColumnInput} (same : columns.entries = other.entries) (s : Statement) :
    (Edit.selectRaw columns).run s = (Edit.selectRaw other).run s ∧
      (Edit.select columns).run s = (Edit.select other).run s := by
  have raw : (Edit.selectRaw columns).change = (Edit.selectRaw other).change := by
    simp only [change, Change.selectRaw, same]
  have checked : (Edit.select columns).change = (Edit.select other).change := by
    simp only [change, Change.select, same]
  exact ⟨by rw [run, run, raw], by rw [run, run, checked]⟩

theorem run_select_invalid {columns : ColumnInput} {s : Statement} {piece : Text}
    (member : piece ∈ columns.entries)
    (invalid : Reference.validate s.settings "select" piece ≠ .ok ()) :
    ∃ front bad behind error, columns.entries = front ++ bad :: behind ∧
      (∀ earlier ∈ front, Reference.validate s.settings "select" earlier = .ok ()) ∧
      Reference.validate s.settings "select" bad = .error error ∧
      (Edit.select columns).run s = (.error error, s.renewed) := by
  have settings : s.renewed.settings = s.settings := (Edit.select columns).settings_base s
  cases checked : columns.entries.mapM (Reference.check s.settings "select") with
  | ok references => exact absurd ((mapM_check_eq_ok.1 checked).1 piece member) invalid
  | error error =>
    obtain ⟨front, bad, behind, whole, passed, refused⟩ := mapM_eq_error.1 checked
    refine ⟨front, bad, behind, error, whole, fun earlier within => ?_, Reference.check_eq_error.1 refused, ?_⟩
    · obtain ⟨reference, found⟩ := passed earlier within
      exact (Reference.check_eq_ok.1 found).1
    · have failed : (Edit.select columns).apply ((Edit.select columns).base s) = .error error := by
        change s.renewed.select columns = .error error
        rw [Statement.select, settings, checked]
        rfl
      rw [run_eq, failed]
      rfl

end Edit

/-- Whatever calls are made, the select list holds what those that succeeded have given, in the order of the
calls, and a star where they gave nothing. A text of raw items stands in it as it was given, whatever commas are
in it, and does the same as the list of its pieces. Columns that are joined by commas do the same as the list of
them too, and where one of them is no reference none is added. -/
theorem select_list_as_given (s : Statement) (calls : List Call) (empty : s.kind.items = [])
    (run : Uninterrupted calls s) :
    let t := Call.runAll calls s
    let given := SelectItem.allGiven calls s
    t.kind.items = given ∧
    (t.kind.selects → ∃ behind,
      t.sql = (t.check.map fun _ => selectText t.distinct (SelectItem.listed t.scope given) behind) ∧
        ∀ items, ({ t with kind := .select items } : Statement).sql =
          t.check.map fun _ => selectText t.distinct (SelectItem.listed t.scope items) behind) ∧
    (∀ before text after, calls = before ++ .edit (.selectRaw (.text text)) :: after →
      let u := Call.runAll before s
      let raw := (Edit.selectRaw (.text text)).run u
      raw.1 = .ok () →
        SelectItem.listed t.scope given =
          commaJoined ((SelectItem.allGiven before s).map (SelectItem.written t.scope) ++
            text :: (SelectItem.allGiven after raw.2).map (SelectItem.written t.scope))) ∧
    (∀ text, Text.split ',' text ≠ [] ∧ (∀ piece ∈ Text.split ',' text, ',' ∉ piece) ∧
      commaJoined (Text.split ',' text) = text) ∧
    ∀ (pieces : List Text) (u : Statement), pieces ≠ [] → (∀ piece ∈ pieces, ',' ∉ piece) →
      let joined := ColumnInput.text (commaJoined pieces)
      (Edit.selectRaw joined).run u = (Edit.selectRaw (.list pieces)).run u ∧
      (Edit.select joined).run u = (Edit.select (.list pieces)).run u ∧
      ∀ piece ∈ pieces, Reference.validate u.settings "select" piece ≠ .ok () →
        ∃ front bad behind error, pieces = front ++ bad :: behind ∧
          (∀ earlier ∈ front, Reference.validate u.settings "select" earlier = .ok ()) ∧
          Reference.validate u.settings "select" bad = .error error ∧
          (Edit.select (.list pieces)).run u =
            (.error error, if u.stage = .compiled then u.reset else u) := by
  intro t given
  have held : t.kind.items = given := by
    rw [SelectItem.items_runAll run, empty, List.nil_append]
  refine ⟨held, fun selects => ?_, ?_, fun text => ⟨Text.split_ne_nil ',' text,
    fun _ => Text.not_mem_of_mem_split, Text.intercalate_split ',' text⟩, ?_⟩
  · obtain ⟨behind, written⟩ := Statement.sql_selects selects
    exact ⟨behind, held ▸ (Statement.sql_of_items selects).trans (written _), written⟩
  · intro before text after whole u raw succeeded
    have contributed : given = SelectItem.allGiven before s ++
        ((Edit.selectRaw (.text text)).items ++ SelectItem.allGiven after raw.2) := by
      have added : SelectItem.given u (.edit (.selectRaw (.text text))) = (Edit.selectRaw (.text text)).items := by
        have done : ((Edit.selectRaw (.text text)).run u).1 = .ok () := succeeded
        rw [SelectItem.given, done]
      simp only [given, whole, SelectItem.allGiven_append, SelectItem.allGiven, ← added]
      rfl
    rw [contributed, ← List.append_assoc, SelectItem.listed_raw]
  · intro pieces u some plain joined
    have entries : joined.entries = pieces := Text.split_intercalate some plain
    have same : (Edit.selectRaw joined).run u = (Edit.selectRaw (.list pieces)).run u ∧
        (Edit.select joined).run u = (Edit.select (.list pieces)).run u := Edit.run_of_entries entries u
    refine ⟨same.1, same.2, fun piece member invalid => ?_⟩
    have listed : piece ∈ (ColumnInput.list pieces).entries := member
    rw [← Statement.renewed_eq]
    exact Edit.run_select_invalid listed invalid

-- A list with a bad column and a call for another kind come between, and the raw text ends with a comma.
theorem select_list_as_given_mixed :
    let s := Call.runAll [.edit (.fromTable "a")] (.new {})
    let raw : Text := "COUNT(*) AS n, f(x, ','),"
    let calls : List Call := [.edit (.select (.text "x, y")), .attempt (.edit (.select (.list ["z", "q;"]))),
      .edit (.selectRaw (.text raw)), .attempt (.edit .delete), .edit (.aggregate .max (some "w") none)]
    let t := Call.runAll calls s
    let list : Text := "`a`.`x`,`a`.`y`,COUNT(*) AS n, f(x, ','),,MAX(`a`.`w`) AS `max`"
    Uninterrupted calls s ∧ SelectItem.listed t.scope (SelectItem.allGiven calls s) = list ∧
      ∃ behind, t.sql = t.check.map fun _ => selectText false list behind := by
  intro s raw calls t list
  have run : Uninterrupted calls s := by decide +kernel
  obtain ⟨-, selects, verbatim, -⟩ := select_list_as_given s calls (by decide +kernel) run
  have text := verbatim (calls.take 2) raw (calls.drop 3) rfl (by decide +kernel)
  have listed : SelectItem.listed t.scope (SelectItem.allGiven calls s) = list :=
    text.trans (by decide +kernel)
  obtain ⟨behind, shown, -⟩ := selects (by decide +kernel)
  have all : t.distinct = false := by decide +kernel
  refine ⟨run, listed, behind, ?_⟩
  rw [shown, listed, all]

end SqlComposer
