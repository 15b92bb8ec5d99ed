import SqlComposer.Call

set_option autoImplicit false

namespace SqlComposer

namespace Change

variable {A B : Type} {s next last : Statement}

def Reads (action : Change A) (s : Statement) (result : Except Error A) : Prop :=
  action.run s = match result with
    | .ok a => .ok a s
    | .error error => .error error s

def Writes (action : Change Unit) (s next : Statement) : Prop := action.run s = .ok () next

-- Where the result is an error, the given statement is left.
def outcome (left : Statement) : Except Error Statement → EStateM.Result Error Statement Unit
  | .ok next => .ok () next
  | .error error => .error error left

def Makes (action : Change Unit) (s : Statement) (result : Except Error Statement) : Prop :=
  action.run s = outcome s result

namespace Reads

theorem require (result : Except Error A) : Reads (Change.require result) s result := by
  cases result <;> rfl

theorem reference (method text : Text) :
    Reads (Change.reference method text) s (Reference.check s.settings method text) :=
  require (Reference.check s.settings method text)

theorem get {f : Statement → Change A} {result : Except Error A} (given : Reads (f s) s result) :
    Reads (MonadState.get >>= f) s result :=
  given

theorem bind {action : Change A} {f : A → Change B} {result : Except Error A}
    {g : A → Except Error B} (first : Reads action s result) (later : ∀ a, Reads (f a) s (g a)) :
    Reads (action >>= f) s (result >>= g) := by
  cases result with
  | error error => simp_all [Reads, Bind.bind, EStateM.run, EStateM.bind, Except.bind]
  | ok a =>
    have second := later a
    simp_all [Reads, Bind.bind, EStateM.run, EStateM.bind, Except.bind]

theorem mapM {f : A → Change B} {g : A → Except Error B} (each : ∀ a, Reads (f a) s (g a))
    (items : List A) : Reads (items.mapM f) s (items.mapM g) := by
  induction items with
  | nil => rfl
  | cons item rest ih =>
    rw [List.mapM_cons, List.mapM_cons]
    exact (each item).bind fun first => ih.bind fun others => require (pure (first :: others))

theorem forM {f : A → Change Unit} {g : A → Except Error Unit} (each : ∀ a, Reads (f a) s (g a))
    (items : List A) : Reads (items.forM f) s (items.forM g) := by
  induction items with
  | nil => rfl
  | cons item rest ih => exact (each item).bind fun _ => ih

theorem makes {action : Change A} {f : A → Change Unit} {result : Except Error A}
    {g : A → Except Error Statement} (first : Reads action s result)
    (later : ∀ a, Makes (f a) s (g a)) : Makes (action >>= f) s (result >>= g) := by
  cases result with
  | error error => simp_all [Reads, Makes, outcome, Bind.bind, EStateM.run, EStateM.bind, Except.bind]
  | ok a =>
    have second := later a
    simp_all [Reads, Makes, outcome, Bind.bind, EStateM.run, EStateM.bind, Except.bind]

end Reads

namespace Writes

theorem andThen {first second : Change Unit} (one : Writes first s next) (two : Writes second next last) :
    Writes (first >>= fun _ => second) s last := by
  simp_all [Writes, Bind.bind, EStateM.run, EStateM.bind]

theorem forM (step : A → Statement → Statement) (items : List A) :
    Writes (items.forM fun item => modify (step item)) s (items.foldl (fun s item => step item s) s) := by
  induction items generalizing s with
  | nil => rfl
  | cons item rest ih =>
    have first : Writes (modify (step item)) s (step item s) := rfl
    exact first.andThen ih

theorem makes {action : Change Unit} (writes : Writes action s next) : Makes action s (.ok next) :=
  writes

end Writes

theorem touch_writes (s : Statement) : Writes touch s s.touched := rfl

theorem Makes.andThen {first second : Change Unit} {result : Except Error Statement}
    {g : Statement → Statement} (one : Makes first s result)
    (two : ∀ next, result = .ok next → Writes second next (g next)) :
    Makes (first >>= fun _ => second) s (result.map g) := by
  cases result with
  | error error => simp_all [Makes, outcome, Bind.bind, EStateM.run, EStateM.bind, Except.map]
  | ok next =>
    have later := two next rfl
    simp_all [Makes, outcome, Writes, Bind.bind, EStateM.run, EStateM.bind, Except.map]

theorem Makes.get {f : Statement → Change Unit} {result : Except Error Statement}
    (given : Makes (f s) s result) : Makes (get >>= f) s result :=
  given

theorem makes_throw (error : Error) : Makes (throw error) s (.error error) := rfl

theorem establish_makes (method : Text) (kind : Kind) :
    Makes (establish method kind) s (s.establish method kind) := by
  refine .get ?_
  by_cases admitted : s.kind.admits kind
  · simp only [Statement.establish, admitted, if_true]
    exact rfl
  · simp only [Statement.establish, admitted]
    exact rfl

-- The items of earlier calls establish the kind, and each item is a write of its own.
theorem addItems_makes (method : Text) (items : List SelectItem) :
    Makes (addItems method items) s (s.addItems method items) := by
  let push (item : SelectItem) (s : Statement) : Statement :=
    { s with kind := .select (s.kind.items ++ [item]) }
  have pushed : ∀ (items : List SelectItem) (t : Statement) (held : List SelectItem),
      items.foldl (fun t item => push item t) { t with kind := .select held } =
        { t with kind := .select (held ++ items) } := by
    intro items
    induction items with
    | nil => simp
    | cons item rest ih =>
      intro t held
      rw [List.foldl_cons, show push item { t with kind := .select held } =
        { t with kind := .select (held ++ [item]) } from rfl, ih]
      simp
  have established := establish_makes (s := s) method (.select s.kind.items)
  have both := established.andThen fun next _ => Writes.forM push items (s := next)
  have same : (s.establish method (.select s.kind.items)).map
      (fun next => items.foldl (fun t item => push item t) next) = s.addItems method items := by
    have admits : s.kind.admits (.select s.kind.items) =
        s.kind.admits (.select (s.kind.items ++ items)) := by
      cases s.kind <;> rfl
    unfold Statement.addItems Statement.establish
    rw [admits]
    split
    · exact congrArg Except.ok (pushed items s.touched s.kind.items)
    · rfl
  exact same ▸ both

theorem Makes.renewed {body : Change Unit} {result : Except Error Statement}
    (given : Makes body s.renewed result) :
    (do renew; body).run s = outcome s.renewed result :=
  given

theorem setTable_makes (method table : Text) :
    (setTable method table).run s = outcome s.renewed (s.renewed.setTable method table) := by
  refine Makes.renewed ((Reads.reference method table).makes fun checked => ?_)
  have written : Writes (do modify fun t => { t with table := some checked }; touch) s.renewed
      (Statement.touched { s.renewed with table := some checked }) := rfl
  exact written.makes

theorem select_makes (columns : ColumnInput) :
    (select columns).run s = outcome s.renewed (s.renewed.select columns) :=
  Makes.renewed ((Reads.mapM (Reads.reference "select") columns.entries).makes fun references =>
    addItems_makes "select" (references.map .column))

theorem selectRaw_makes (columns : ColumnInput) :
    (selectRaw columns).run s = outcome s.renewed (s.renewed.selectRaw columns) :=
  (addItems_makes "select_raw" (columns.entries.map .fragment)).renewed

theorem aggregate_makes (function : Aggregate) (column? alias? : Option Text) :
    Makes (aggregate function column? alias?) s (s.aggregate function column? alias?) :=
  .get ((Reads.require _).makes fun item => addItems_makes function.name [item])

theorem join_makes (table : Text) (left? right? operator? kind? : Option Text) :
    Makes (join table left? right? operator? kind?) s (s.join table left? right? operator? kind?) := by
  match s with
  | { table := none, .. } => rfl
  | { table := some current, .. } => exact .get ((Reads.require _).makes fun join => Writes.makes rfl)

theorem addWhere_makes (connective : Connective) (predicate : Predicate) :
    Makes (addWhere connective predicate) s (.ok (s.addWhere connective predicate)) := rfl

theorem wherePredicate_makes (connective : ConnectiveInput) (input : PredicateInput) :
    Makes (wherePredicate connective input) s (s.wherePredicate connective input) :=
  (Reads.require _).makes fun _ => .get ((Reads.require _).makes fun _ => Writes.makes rfl)

theorem havingCompare_makes (connective : ConnectiveInput) (negated : Bool) (column : Text)
    (comparison : ComparisonInput) (value : Value) :
    Makes (havingCompare connective negated column comparison value) s
      (s.havingCompare connective negated column comparison value) :=
  (Reads.require _).makes fun _ => .get ((Reads.require _).makes fun _ => Writes.makes rfl)

theorem whereGroup_makes (connective : Connective) (negated : Bool) (child : Statement) :
    Makes (whereGroup connective negated child) s (.ok (s.whereGroup connective negated child)) := by
  unfold whereGroup Statement.whereGroup
  split <;> exact Writes.makes rfl

theorem havingGroup_makes (connective : Connective) (negated : Bool) (child : Statement) :
    Makes (havingGroup connective negated child) s
      (.ok (s.havingGroup connective negated child)) := by
  unfold havingGroup Statement.havingGroup
  split <;> exact Writes.makes rfl

theorem Writes.update {L : Type} (update : (L → L) → Statement → Statement)
    (keeps : ∀ t, update id t = t) (chains : ∀ f g t, update f (update g t) = update (f ∘ g) t)
    (step : A → L → L) (items : List A) :
    Writes (items.forM fun item => modify (update (step item))) s
      (update (fun held => items.foldl (fun held item => step item held) held) s) := by
  have folded (items : List A) (t : Statement) :
      items.foldl (fun t item => update (step item) t) t =
        update (fun held => items.foldl (fun held item => step item held) held) t := by
    induction items generalizing t with
    | nil => exact (keeps t).symm
    | cons item rest ih => rw [List.foldl_cons, ih, chains]; rfl
  exact folded items s ▸ Writes.forM (fun item => update (step item)) items

theorem groupBy_makes (input : SortInput) (direction? : Option Text) :
    Makes (groupBy input direction?) s (s.groupBy input direction?) := by
  refine .get ((Reads.require _).makes fun entries => ?_)
  have written := Writes.update (s := s) (fun f t => { t with groups := f t.groups })
    (fun t => by cases t; rfl) (fun _ _ _ => rfl) (fun entry => SortEntry.put entry.1 entry.2) entries
  exact (written.andThen (touch_writes _)).makes

theorem orderBy_makes (input : SortInput) (direction? : Option Text) :
    Makes (orderBy input direction?) s (s.orderBy input direction?) := by
  refine .get ((Reads.require _).makes fun entries => ?_)
  have written := Writes.update (s := s) (fun f t => { t with orders := f t.orders })
    (fun t => by cases t; rfl) (fun _ _ _ => rfl) (fun entry => SortEntry.put entry.1 entry.2) entries
  exact (written.andThen (touch_writes _)).makes

theorem paginate_makes (page perPage : UInt64) :
    Makes (paginate page perPage) s (s.paginate page perPage) := by
  unfold Makes paginate Statement.paginate Pagination.paginate
  by_cases first : page.toNat ≤ 1
  · have early : ¬ 1 < page.toNat := by omega
    simp only [first, early, if_true, if_false]
    rfl
  · have later : 1 < page.toNat := by omega
    by_cases fits : (page.toNat - 1) * perPage.toNat < UInt64.size
    · simp only [first, later, fits, if_true, if_false]
      rfl
    · simp only [first, later, fits, if_true, if_false]
      rfl

theorem insert_makes (input : RowsInput) :
    Makes (insert input) s (input.toRows >>= fun rows => s.insert rows) := by
  refine (Reads.require _).makes fun rows => ?_
  unfold Statement.insert
  by_cases empty : rows.isEmpty
  · simp only [empty, if_true]
    exact makes_throw _
  · simp only [empty]
    exact (Reads.forM (fun row => .get (.require _)) rows).makes fun _ => establish_makes _ _

theorem update_makes (input : RowInput) :
    Makes (update input) s (input.toRow >>= fun row => s.update row) :=
  (Reads.require _).makes fun _ => .get ((Reads.require _).makes fun _ => establish_makes _ _)

theorem union_makes (all : Bool) (members : List Statement) :
    Makes (union all members) s (s.union all members) := by
  refine .get ?_
  unfold Statement.union
  cases s.kind with
  | unset =>
    by_cases empty : members.isEmpty
    · simp only [empty, if_true]
      exact makes_throw _
    · simp only [empty]
      exact establish_makes _ _
  | select | insert | update | delete | truncate | union => exact makes_throw _

end Change

namespace Edit

theorem change_eq (edit : Edit) (s : Statement) :
    edit.change.run s = Change.outcome (edit.base s) (edit.apply (edit.base s)) := by
  cases edit with
  | fromTable | table => exact Change.setTable_makes ..
  | select columns => exact Change.select_makes columns
  | selectRaw columns => exact Change.selectRaw_makes columns
  | distinct | orderByRandom | reset => rfl
  | aggregate => exact Change.aggregate_makes ..
  | join => exact Change.join_makes ..
  | wherePredicate => exact Change.wherePredicate_makes ..
  | havingCompare => exact Change.havingCompare_makes ..
  | groupBy => exact Change.groupBy_makes ..
  | orderBy => exact Change.orderBy_makes ..
  | limit | take | offset | skip =>
    exact (Change.Reads.require _).makes fun _ => Change.Writes.makes rfl
  | paginate => exact Change.paginate_makes ..
  | insert => exact Change.insert_makes _
  | update => exact Change.update_makes _
  | delete | truncate => exact Change.establish_makes ..
  | addReferenceChars | setQuote =>
    exact (Change.Reads.require _).makes fun _ => Change.Writes.makes rfl

theorem run_eq (edit : Edit) (s : Statement) :
    edit.run s = match edit.apply (edit.base s) with
      | .ok next => (.ok (), next)
      | .error error => (.error error, edit.base s) := by
  rw [run, change_eq]
  cases edit.apply (edit.base s) <;> rfl

end Edit

namespace Built

variable {A : Type} {s : Statement} {built : Built A} {finish : A → Change Unit}
  {result : A → Except Error Statement}

def conclude (s : Statement) (built : Built A) (result : A → Except Error Statement) : Outcome :=
  match built.result.bind result with
  | .ok next => ⟨.ok .done, next, built.reports⟩
  | .error error => ⟨.error error, s, built.reports⟩

theorem complete_eq (makes : ∀ a, (finish a).Makes s (result a)) :
    built.complete s finish = built.conclude s result := by
  unfold complete conclude
  cases built.result with
  | error error => rfl
  | ok a =>
    have made : (finish a).run s = Change.outcome s (result a) := makes a
    simp only [made, Except.bind]
    cases result a <;> rfl

end Built

namespace Call

variable (connective : Connective) (negated : Bool) (calls : List Call) (s : Statement)

theorem run_whereGroup : (whereGroup connective negated calls).run s =
    (build calls (s.child true)).conclude s fun child =>
      .ok (s.whereGroup connective negated child) :=
  Built.complete_eq fun _ => Change.whereGroup_makes ..

theorem run_havingGroup : (havingGroup connective negated calls).run s =
    (build calls (s.child true)).conclude s fun child =>
      .ok (s.havingGroup connective negated child) :=
  Built.complete_eq fun _ => Change.havingGroup_makes ..

theorem run_whereExists : (whereExists connective negated calls).run s =
    (build calls (s.child true)).conclude s fun child =>
      .ok (s.addWhere connective (.existsQuery negated child)) :=
  Built.complete_eq fun _ => Change.addWhere_makes ..

theorem run_whereInQuery (column : Text) : (whereInQuery connective negated column calls).run s =
    match Reference.check s.settings "where_in" column with
    | .error error => ⟨.error error, s, []⟩
    | .ok column => (build calls (s.child false)).conclude s fun child =>
      .ok (s.addWhere connective (.inQuery negated column child)) := by
  rw [run]
  cases Reference.check s.settings "where_in" column with
  | error error => rfl
  | ok column => exact Built.complete_eq fun child => Change.addWhere_makes connective _

theorem run_union (all : Bool) (members : List Member) : (union all members).run s =
    (Member.buildAll members).conclude s fun built => s.union all built :=
  Built.complete_eq fun _ => Change.union_makes ..

end Call

end SqlComposer
