import SqlComposer.Proofs.Columns

set_option autoImplicit false

namespace SqlComposer

theorem Keyed.filterMap_get? {K A : Type} [DecidableEq K] {entries : List (K × A)}
    (distinct : (keys entries).Nodup) :
    (keys entries).filterMap (fun key => get? key entries) = entries.map Prod.snd := by
  induction entries with
  | nil => rfl
  | cons entry rest ih =>
    obtain ⟨absent, later⟩ := List.nodup_cons.1 (show (entry.1 :: keys rest).Nodup from distinct)
    have first : get? entry.1 (entry :: rest) = some entry.2 := if_pos rfl
    have others : (keys rest).filterMap (fun key => get? key (entry :: rest)) =
        (keys rest).filterMap fun key => get? key rest :=
      List.filterMap_congr fun key member => if_neg fun same : entry.1 = key => absent (same ▸ member)
    calc (keys (entry :: rest)).filterMap (fun key => get? key (entry :: rest))
      _ = entry.2 :: (keys rest).filterMap (fun key => get? key (entry :: rest)) :=
        List.filterMap_cons_some first
      _ = (entry :: rest).map Prod.snd := by rw [others, ih later, List.map_cons]

namespace Row

variable {a b : Row}

theorem columns_perm (same : a.sameColumns b) : a.columns.Perm b.columns :=
  (List.perm_ext_iff_of_nodup a.distinct b.distinct).2 ((sameColumns_iff a b).1 same)

theorem valuesIn_columns (row : Row) : row.valuesIn row.columns = row.values :=
  Keyed.filterMap_get? row.distinct

theorem valuesIn_perm (same : a.sameColumns b) : (a.valuesIn b.columns).Perm a.values := by
  have moved : (a.valuesIn b.columns).Perm (a.valuesIn a.columns) :=
    (columns_perm same).symm.filterMap a.get?
  rwa [valuesIn_columns] at moved

theorem mem_columns_set (row : Row) (column other : Text) (value : Value) :
    other ∈ (row.set column value).columns ↔ other = column ∨ other ∈ row.columns := by
  rw [columns, set, Keyed.keys_put, columns]
  split
  · next present =>
    constructor
    · exact .inr
    · rintro (rfl | member)
      · exact present
      · exact member
  · simp [or_comm]

theorem mem_columns_ofPairs (fields : List (Text × Value)) (column : Text) :
    column ∈ (ofPairs fields).columns ↔ column ∈ fields.map Prod.fst := by
  have held (row : Row) : column ∈ (fields.foldl (fun row field => row.set field.1 field.2) row).columns ↔
      column ∈ row.columns ∨ column ∈ fields.map Prod.fst := by
    induction fields generalizing row with
    | nil => simp
    | cons field rest ih =>
      rw [List.foldl_cons, ih, mem_columns_set, List.map_cons, List.mem_cons, or_assoc, or_left_comm]
  have start : column ∉ empty.columns := List.not_mem_nil
  exact (held empty).trans (or_iff_right start)

theorem sameColumns_congr {a' b' : Row} (left : ∀ column, column ∈ a.columns ↔ column ∈ a'.columns)
    (right : ∀ column, column ∈ b.columns ↔ column ∈ b'.columns) : a.sameColumns b = a'.sameColumns b' :=
  Bool.eq_iff_iff.2 (by simp only [sameColumns_iff, left, right])

end Row

/-- Whether rows have the same columns hangs on the set of columns alone, not on the order of the calls that
built them, their values or how often they name a column. Then one row gives just its own values for the
columns of the other. -/
theorem same_columns_as_sets (first second third : List (Text × Value)) :
    let a := Row.ofPairs first
    let b := Row.ofPairs second
    let c := Row.ofPairs third
    (a.sameColumns b ↔ ∀ column, column ∈ a.columns ↔ column ∈ b.columns) ∧
    (∀ column, column ∈ a.columns ↔ column ∈ first.map Prod.fst) ∧
    a.sameColumns a ∧ (a.sameColumns b ↔ b.sameColumns a) ∧
    (a.sameColumns b → b.sameColumns c → a.sameColumns c) ∧
    (∀ fields, (∀ column, column ∈ fields.map Prod.fst ↔ column ∈ first.map Prod.fst) →
      (Row.ofPairs fields).sameColumns b = a.sameColumns b ∧
        b.sameColumns (Row.ofPairs fields) = b.sameColumns a) ∧
    (a.sameColumns b →
      (a.valuesIn b.columns).length = a.size ∧ (a.valuesIn b.columns).Perm a.values) := by
  intro a b c
  refine ⟨Row.sameColumns_iff a b, Row.mem_columns_ofPairs first, ?_, ?_, fun left right => ?_,
    fun fields same => ?_, fun same => ?_⟩
  · exact (Row.sameColumns_iff a a).2 fun column => .rfl
  · simp only [Row.sameColumns_iff, iff_comm]
  · rw [Row.sameColumns_iff] at left right ⊢
    exact fun column => (left column).trans (right column)
  · have held (column : Text) : column ∈ (Row.ofPairs fields).columns ↔ column ∈ a.columns := by
      rw [Row.mem_columns_ofPairs, same, Row.mem_columns_ofPairs]
    exact ⟨Row.sameColumns_congr held fun _ => .rfl, Row.sameColumns_congr (fun _ => .rfl) held⟩
  · have moved := Row.valuesIn_perm same
    have count : a.values.length = a.size := List.length_map ..
    exact ⟨moved.length_eq.trans count, moved⟩

example :
    let a := Row.ofPairs [("x", .bool true), ("y", .null), ("x", .text "z")]
    let b := Row.ofPairs [("y", .null), ("x", .null)]
    a.sameColumns b ∧ (a.valuesIn b.columns).map Value.display = [[], "z".toList] := by
  decide

end SqlComposer
