import Mathlib.Data.List.Perm.Subperm
import SqlComposer.Statement.Compile

set_option autoImplicit false

namespace SqlComposer

namespace Keyed

theorem isSome_get? {K A : Type} [DecidableEq K] (key : K) (entries : List (K × A)) :
    (get? key entries).isSome ↔ key ∈ keys entries := by
  induction entries with
  | nil => simp [get?, keys]
  | cons entry rest ih =>
    by_cases same : entry.1 = key
    · simp [get?, keys, same]
    · simpa [get?, keys, same, Ne.symm same] using ih

theorem put_of_not_mem {K A : Type} [DecidableEq K] {key : K} {value : A} {entries : List (K × A)}
    (absent : key ∉ keys entries) : put key value entries = entries ++ [(key, value)] := by
  induction entries with
  | nil => rfl
  | cons entry rest ih =>
    simp only [keys, List.map_cons, List.mem_cons, not_or] at absent ih
    simp [put, Ne.symm absent.1, ih absent.2]

end Keyed

namespace Row

theorem ofPairs_fields (row : Row) : ofPairs row.fields = row := by
  have appended (fields : List (Text × Value)) : ∀ start : Row,
      (Keyed.keys (start.fields ++ fields)).Nodup →
      (fields.foldl (fun row field => row.set field.1 field.2) start).fields =
        start.fields ++ fields := by
    induction fields with
    | nil => simp
    | cons field rest ih =>
      intro start distinct
      have absent : field.1 ∉ Keyed.keys start.fields := by
        intro present
        simp only [Keyed.keys, List.map_append, List.nodup_append] at distinct
        exact distinct.2.2 _ present field.1 (by simp) rfl
      have added : (start.set field.1 field.2).fields = start.fields ++ [field] :=
        Keyed.put_of_not_mem absent
      rw [List.foldl_cons, ih _ (by simpa [added] using distinct), added]
      simp
  have fields : (ofPairs row.fields).fields = row.fields := appended row.fields empty row.distinct
  cases row
  exact Row.mk.injEq .. ▸ fields

theorem isSome_get? (row : Row) (column : Text) :
    (row.get? column).isSome ↔ column ∈ row.columns :=
  Keyed.isSome_get? column row.fields

theorem length_columns (row : Row) : row.columns.length = row.size := by
  simp [columns, Keyed.keys, size]

theorem length_values (row : Row) : row.values.length = row.columns.length := by
  simp [values, columns, Keyed.keys]

theorem sameColumns_iff (a b : Row) :
    a.sameColumns b ↔ ∀ column, column ∈ a.columns ↔ column ∈ b.columns := by
  simp only [sameColumns, Bool.and_eq_true, beq_iff_eq, List.all_eq_true, isSome_get?]
  constructor
  · rintro ⟨sizes, within⟩ column
    have sub : List.Subperm a.columns b.columns := List.subperm_of_subset a.distinct within
    exact (sub.perm_of_length_le (by simp [length_columns, sizes])).mem_iff
  · intro same
    have perm : a.columns.Perm b.columns := (List.perm_ext_iff_of_nodup a.distinct b.distinct).2 same
    exact ⟨by simpa [length_columns] using perm.length_eq, fun column member => (same column).1 member⟩

theorem length_valuesIn (row : Row) (columns : List Text)
    (present : ∀ column ∈ columns, column ∈ row.columns) :
    (row.valuesIn columns).length = columns.length := by
  induction columns with
  | nil => rfl
  | cons column rest ih =>
    obtain ⟨value, found⟩ :=
      Option.isSome_iff_exists.1 ((row.isSome_get? column).2 (present column (by simp)))
    have others := ih fun other member => present other (by simp [member])
    simpa [valuesIn, found] using others

end Row

theorem checkRows_eq_ok {first : Row} {rest : List Row} :
    checkRows (first :: rest) = .ok () ↔ ∀ other ∈ rest, other.sameColumns first := by
  rw [checkRows, ← List.all_eq_true]
  by_cases same : rest.all fun row => row.sameColumns first
  · simp only [same, if_true]
  · simp only [same, if_false, reduceCtorEq]

theorem length_valuesIn_of_checkRows {first : Row} {rest : List Row}
    (checked : checkRows (first :: rest) = .ok ()) :
    ∀ row ∈ first :: rest, (row.valuesIn first.columns).length = first.columns.length := by
  intro row member
  have same := checkRows_eq_ok.1 checked
  apply Row.length_valuesIn
  rcases List.mem_cons.1 member with rfl | later
  · exact fun _ present => present
  · exact fun column => ((Row.sameColumns_iff row first).1 (same row later) column).2

theorem length_rowValues {rows : List Row} (checked : checkRows rows = .ok ()) :
    (rowValues rows).length = rows.length * ((rows.head?.map Row.columns).getD []).length := by
  cases rows with
  | nil => simp [rowValues]
  | cons first rest =>
    have each := length_valuesIn_of_checkRows checked
    have total : ((first :: rest).map fun row => (row.valuesIn first.columns).length) =
        List.replicate (rest.length + 1) first.columns.length :=
      List.eq_replicate_iff.2 ⟨by simp, by simpa using each⟩
    simp only [rowValues, List.length_flatMap, List.head?_cons, Option.map_some, Option.getD_some]
    rw [total]
    simp

end SqlComposer
