import Mathlib.Data.List.Induction
import Mathlib.Data.List.Nodup
import SqlComposer.Sort.Map

set_option autoImplicit false

namespace SqlComposer

namespace SortEntry

def add : SortEntry → List SortEntry → List SortEntry
  | .column reference direction, held => put reference direction held
  | .random, held => held ++ [.random]

def addAll (given held : List SortEntry) : List SortEntry :=
  given.foldl (fun held entry => add entry held) held

def column? : SortEntry → Option Text
  | .column reference _ => some reference
  | .random => none

def columns (entries : List SortEntry) : List Text := entries.filterMap column?

@[simp] theorem columns_nil : columns [] = [] := rfl

@[simp] theorem columns_column (reference : Text) (direction : Direction) (rest : List SortEntry) :
    columns (.column reference direction :: rest) = reference :: columns rest := rfl

@[simp] theorem columns_random (rest : List SortEntry) : columns (.random :: rest) = columns rest := rfl

@[simp] theorem columns_append (front behind : List SortEntry) :
    columns (front ++ behind) = columns front ++ columns behind := List.filterMap_append

def sameColumn : SortEntry → SortEntry → Bool
  | .column reference _, .column other _ => reference = other
  | _, _ => false

def firsts : List SortEntry → List SortEntry
  | [] => []
  | entry :: rest => entry :: (firsts rest).filter fun later => !entry.sameColumn later

def direction? (reference : Text) : SortEntry → Option Direction
  | .column other direction => if other = reference then some direction else none
  | .random => none

def withLast (given : List SortEntry) : SortEntry → SortEntry
  | .column reference direction =>
    .column reference ((given.filterMap (direction? reference)).getLast?.getD direction)
  | .random => .random

def listing (given : List SortEntry) : List SortEntry := (firsts given).map (withLast given)

variable {given entries : List SortEntry} {reference : Text} {direction : Direction}

theorem putAll_eq (pairs : List (Text × Direction)) (held : List SortEntry) :
    putAll pairs held = addAll (pairs.map fun (reference, direction) => .column reference direction) held := by
  simp [putAll, addAll, List.foldl_map, add]

theorem any_sameColumn : given.any (·.sameColumn (.column reference direction)) = true ↔
    reference ∈ columns given := by
  simp only [List.any_eq_true, columns, List.mem_filterMap]
  refine exists_congr fun entry => and_congr_right fun _ => ?_
  cases entry <;> simp [sameColumn, column?]

theorem firsts_concat (given : List SortEntry) (entry : SortEntry) :
    firsts (given ++ [entry]) =
      if given.any (·.sameColumn entry) then firsts given else firsts given ++ [entry] := by
  induction given with
  | nil => rfl
  | cons first rest ih =>
    rw [List.cons_append, firsts, ih, List.any_cons]
    by_cases same : first.sameColumn entry
    · split <;> simp [firsts, same]
    · split <;> simp_all [firsts]

theorem mem_columns_of_repeated {entry : SortEntry} (repeated : given.any (·.sameColumn entry)) :
    ∀ reference ∈ columns [entry], reference ∈ columns given := by
  cases entry with
  | column other direction => simpa using any_sameColumn.1 repeated
  | random => simp

theorem not_mem_columns_of_new {entry : SortEntry} (new : ¬ given.any (·.sameColumn entry)) :
    ∀ reference ∈ columns [entry], reference ∉ columns given := by
  cases entry with
  | column other direction => simpa using mt any_sameColumn.2 new
  | random => simp

theorem mem_columns_firsts : reference ∈ columns (firsts given) ↔ reference ∈ columns given := by
  induction given using List.reverseRecOn with
  | nil => rfl
  | append_singleton given entry ih =>
    rw [firsts_concat, columns_append, List.mem_append, ← ih]
    split
    · next repeated =>
      exact (or_iff_left_of_imp fun last => ih.2 (mem_columns_of_repeated repeated reference last)).symm
    · rw [columns_append, List.mem_append]

theorem nodup_columns_firsts (given : List SortEntry) : (columns (firsts given)).Nodup := by
  induction given using List.reverseRecOn with
  | nil => exact List.nodup_nil
  | append_singleton given entry ih =>
    rw [firsts_concat]
    split
    · exact ih
    · next new =>
      have last : (columns [entry]).Nodup := by cases entry <;> simp
      rw [columns_append]
      refine ih.append last fun reference early late => ?_
      exact not_mem_columns_of_new new reference late (mem_columns_firsts.1 early)

def turn (reference : Text) (direction : Direction) : SortEntry → SortEntry
  | .column other old => .column other (if other = reference then direction else old)
  | .random => .random

theorem put_of_not_mem (new : reference ∉ columns entries) :
    put reference direction entries = entries ++ [.column reference direction] := by
  fun_induction put reference direction entries with
  | case1 => rfl
  | case2 old rest => simp at new
  | case3 other old rest differs ih => rw [ih (List.not_mem_of_not_mem_cons new), List.cons_append]
  | case4 rest ih => rw [ih new, List.cons_append]

theorem map_turn_of_not_mem (new : reference ∉ columns entries) :
    entries.map (turn reference direction) = entries := by
  induction entries with
  | nil => rfl
  | cons entry rest ih =>
    cases entry with
    | column other old =>
      obtain ⟨apart, later⟩ : reference ≠ other ∧ reference ∉ columns rest := by simpa using new
      rw [List.map_cons, ih later, turn, if_neg apart.symm]
    | random => rw [List.map_cons, ih new, turn]

theorem put_of_mem (distinct : (columns entries).Nodup) (old : reference ∈ columns entries) :
    put reference direction entries = entries.map (turn reference direction) := by
  fun_induction put reference direction entries with
  | case1 => cases old
  | case2 before rest =>
    rw [List.map_cons, map_turn_of_not_mem (List.nodup_cons.1 distinct).1, turn, if_pos rfl]
  | case3 other before rest differs ih =>
    have later : reference ∈ columns rest := List.mem_of_ne_of_mem (Ne.symm differs) old
    rw [List.map_cons, ih (List.nodup_cons.1 distinct).2 later, turn, if_neg differs]
  | case4 rest ih => rw [List.map_cons, ih distinct old, turn]

theorem withLast_concat (entry : SortEntry) :
    withLast (given ++ [.column reference direction]) entry =
      turn reference direction (withLast given entry) := by
  cases entry with
  | column other old =>
    by_cases same : reference = other
    · subst same
      simp [withLast, turn, direction?, List.filterMap_append]
    · simp [withLast, turn, direction?, List.filterMap_append, same, Ne.symm same]
  | random => rfl

theorem withLast_concat_random (entry : SortEntry) :
    withLast (given ++ [.random]) entry = withLast given entry := by
  cases entry <;> simp [withLast, direction?, List.filterMap_append]

theorem columns_map_withLast (entries : List SortEntry) :
    columns (entries.map (withLast given)) = columns entries := by
  rw [columns, List.filterMap_map]
  refine List.filterMap_congr fun entry _ => ?_
  cases entry <;> rfl

theorem listing_concat (given : List SortEntry) (entry : SortEntry) :
    listing (given ++ [entry]) = add entry (listing given) := by
  have distinct : (columns (listing given)).Nodup := by
    rw [listing, columns_map_withLast]
    exact nodup_columns_firsts given
  have known {reference : Text} : reference ∈ columns (listing given) ↔ reference ∈ columns given := by
    rw [listing, columns_map_withLast, mem_columns_firsts]
  cases entry with
  | random =>
    have fresh : given.any (·.sameColumn .random) = false := by
      simp only [List.any_eq_false]
      rintro (_ | _) - <;> simp [sameColumn]
    have same : withLast (given ++ [.random]) = withLast given := funext withLast_concat_random
    rw [listing, firsts_concat, fresh, same, listing, add]
    simp [withLast]
  | column reference direction =>
    have turned (entries : List SortEntry) :
        entries.map (withLast (given ++ [.column reference direction])) =
          (entries.map (withLast given)).map (turn reference direction) := by
      rw [List.map_map, funext withLast_concat]
      rfl
    rw [listing, firsts_concat, add]
    by_cases old : reference ∈ columns given
    · rw [if_pos (any_sameColumn.2 old), turned, put_of_mem distinct (known.2 old), listing]
    · have new := mt known.1 old
      have last : [column reference direction].map (withLast (given ++ [.column reference direction])) =
          [.column reference direction] := by
        simp [turned, withLast, turn]
      rw [if_neg (mt any_sameColumn.1 old), List.map_append, turned, last, ← listing,
        map_turn_of_not_mem new, put_of_not_mem new]

theorem addAll_nil (given : List SortEntry) : addAll given [] = listing given := by
  induction given using List.reverseRecOn with
  | nil => rfl
  | append_singleton given entry ih =>
    rw [listing_concat, ← ih]
    simp [addAll]

example : listing [.column "b" .descending, .random, .column "a" .descending, .column "b" .ascending, .random] =
    [.column "b" .ascending, .random, .column "a" .descending, .random] := by
  decide

theorem listing_eq_nil : listing given = [] ↔ given = [] := by
  cases given <;> simp [listing, firsts]

end SortEntry

namespace SortMap

theorem map_put_column (reference : Text) (direction : Direction) (entries : List (SortKey × Direction)) :
    (Keyed.put (.column reference) direction entries).map entry =
      SortEntry.put reference direction (entries.map entry) := by
  induction entries with
  | nil => rfl
  | cons first rest ih =>
    match first with
    | (.column other, old) =>
      by_cases same : other = reference
      · simp [Keyed.put, entry, SortEntry.put, same]
      · simp [Keyed.put, entry, SortEntry.put, same, ih]
    | (.random number, old) => simp [Keyed.put, entry, SortEntry.put, ih]

theorem put_of_new {key : SortKey} {entries : List (SortKey × Direction)} (new : key ∉ Keyed.keys entries)
    (direction : Direction) : Keyed.put key direction entries = entries ++ [(key, direction)] := by
  induction entries with
  | nil => rfl
  | cons first rest ih =>
    obtain ⟨other, later⟩ : key ≠ first.1 ∧ key ∉ Keyed.keys rest := by
      simpa [Keyed.keys] using new
    rw [Keyed.put, if_neg other.symm, ih later, List.cons_append]

theorem shown_add (given : SortEntry) (map : SortMap) : (add given map).shown = SortEntry.add given map.shown := by
  cases given with
  | column reference direction => exact map_put_column reference direction map.entries
  | random =>
    have new : .random map.randoms ∉ Keyed.keys map.entries := fun old => Nat.lt_irrefl _ (map.counted _ old)
    simp only [shown, add, put_of_new new, List.map_append, SortEntry.add]
    rfl

theorem shown_addAll (given : List SortEntry) (map : SortMap) :
    (addAll given map).shown = SortEntry.addAll given map.shown := by
  induction given generalizing map with
  | nil => rfl
  | cons first rest ih => exact (ih _).trans (congrArg (SortEntry.addAll rest) (shown_add first map))

theorem shown_putAll (pairs : List (Text × Direction)) (map : SortMap) :
    (map.putAll pairs).shown = SortEntry.putAll pairs map.shown := by
  rw [putAll, shown_addAll, SortEntry.putAll_eq]

end SortMap

end SqlComposer
