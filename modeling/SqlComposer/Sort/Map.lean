import SqlComposer.Sort

set_option autoImplicit false

namespace SqlComposer

inductive SortKey where
  | column (reference : Text)
  | random (number : Nat)
deriving DecidableEq

structure SortMap where
  entries : List (SortKey × Direction)
  randoms : Nat
  distinct : (Keyed.keys entries).Nodup
  counted : ∀ number, SortKey.random number ∈ Keyed.keys entries → number < randoms

namespace SortMap

def empty : SortMap where
  entries := []
  randoms := 0
  distinct := List.nodup_nil
  counted := by simp [Keyed.keys]

def add : SortEntry → SortMap → SortMap
  | .column reference direction, map =>
    { map with
      entries := Keyed.put (.column reference) direction map.entries
      distinct := Keyed.nodup_put _ _ _ map.distinct
      counted := by
        intro number member
        rw [Keyed.keys_put] at member
        split at member
        · exact map.counted number member
        · exact map.counted number (by simpa using member) }
  | .random, map =>
    { entries := Keyed.put (.random map.randoms) .ascending map.entries
      randoms := map.randoms + 1
      distinct := Keyed.nodup_put _ _ _ map.distinct
      counted := by
        intro number member
        rw [Keyed.keys_put] at member
        split at member
        · exact Nat.lt_succ_of_lt (map.counted number member)
        · rcases List.mem_append.1 member with old | new
          · exact Nat.lt_succ_of_lt (map.counted number old)
          · obtain rfl : number = map.randoms := by simpa using new
            exact Nat.lt_succ_self _ }

def addAll (given : List SortEntry) (map : SortMap) : SortMap :=
  given.foldl (fun map entry => add entry map) map

def putAll (pairs : List (Text × Direction)) (map : SortMap) : SortMap :=
  addAll (pairs.map fun (reference, direction) => .column reference direction) map

def entry : SortKey × Direction → SortEntry
  | (.column reference, direction) => .column reference direction
  | (.random _, _) => .random

def shown (map : SortMap) : List SortEntry := map.entries.map entry

end SortMap

end SqlComposer
