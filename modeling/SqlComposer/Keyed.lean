set_option autoImplicit false

namespace SqlComposer.Keyed

variable {K A B : Type} [DecidableEq K]

def keys (entries : List (K × A)) : List K := entries.map Prod.fst

def put (key : K) (value : A) : List (K × A) → List (K × A)
  | [] => [(key, value)]
  | (k, v) :: rest => if k = key then (k, value) :: rest else (k, v) :: put key value rest

def get? (key : K) : List (K × A) → Option A
  | [] => none
  | (k, v) :: rest => if k = key then some v else get? key rest

theorem keys_put (key : K) (value : A) (entries : List (K × A)) :
    keys (put key value entries) = if key ∈ keys entries then keys entries else keys entries ++ [key] := by
  induction entries with
  | nil => simp [put, keys]
  | cons entry rest ih =>
    by_cases same : entry.1 = key
    · simp [put, keys, same]
    · simp only [put, same, if_false, keys, List.map_cons, List.mem_cons, Ne.symm same, false_or] at ih ⊢
      rw [ih]
      split <;> simp [*]

theorem nodup_put (key : K) (value : A) (entries : List (K × A)) (distinct : (keys entries).Nodup) :
    (keys (put key value entries)).Nodup := by
  rw [keys_put]
  split
  · exact distinct
  · next absent => exact List.nodup_append.2 ⟨distinct, by simp, by
      intro a member b last; simp at last; subst last; rintro rfl; exact absent member⟩

def ofList (pairs : List (K × A)) : List (K × A) :=
  pairs.foldl (fun entries (key, value) => put key value entries) []

end SqlComposer.Keyed

namespace SqlComposer.Sorted

variable {K A : Type} [DecidableEq K] [LT K] [DecidableLT K]

def put (key : K) (value : A) : List (K × A) → List (K × A)
  | [] => [(key, value)]
  | (k, v) :: rest =>
    if key < k then (key, value) :: (k, v) :: rest
    else if key = k then (k, value) :: rest
    else (k, v) :: put key value rest

def distinct (keys : List K) : List K :=
  (keys.foldl (fun entries key => put key () entries) []).map Prod.fst

end SqlComposer.Sorted
