set_option autoImplicit false

namespace SqlComposer

abbrev Text := List Char

instance : Coe String Text := ⟨String.toList⟩

namespace Text

def extend (c : Char) : List Text → List Text
  | [] => [[c]]
  | piece :: rest => (c :: piece) :: rest

-- The pieces between the separators, empty ones included; there is always at least one.
def split (sep : Char) : Text → List Text
  | [] => [[]]
  | c :: rest => if c = sep then [] :: split sep rest else extend c (split sep rest)

theorem split_ne_nil (sep : Char) (text : Text) : split sep text ≠ [] := by
  cases text with
  | nil => simp [split]
  | cons c rest =>
    by_cases same : c = sep
    · simp [split, same]
    · cases pieces : split sep rest <;> simp [split, same, extend, pieces]

theorem intercalate_extend (sep : Text) (c : Char) (pieces : List Text) (some : pieces ≠ []) :
    sep.intercalate (extend c pieces) = c :: sep.intercalate pieces := by
  match pieces, some with
  | [piece], _ => simp [extend, List.intercalate]
  | piece :: next :: rest, _ => simp [extend, List.intercalate]

theorem intercalate_cons {A : Type} (sep first : List A) (rest : List (List A)) :
    sep.intercalate (first :: rest) = first ++ rest.flatMap (sep ++ ·) := by
  induction rest generalizing first with
  | nil => simp
  | cons next rest ih => simp [ih]

theorem mem_intercalate {A : Type} {sep : List A} {pieces : List (List A)} {a : A}
    (member : a ∈ sep.intercalate pieces) : a ∈ sep ∨ ∃ piece ∈ pieces, a ∈ piece := by
  cases pieces with
  | nil => simp at member
  | cons first rest =>
    rw [intercalate_cons] at member
    simp only [List.mem_append, List.mem_flatMap] at member
    rcases member with early | ⟨piece, later, separator | inside⟩
    · exact .inr ⟨first, by simp, early⟩
    · exact .inl separator
    · exact .inr ⟨piece, by simp [later], inside⟩

theorem intercalate_closed {A : Type} {P : List A → Prop} {sep : List A} {pieces : List (List A)}
    (nil : P []) (append : ∀ a b, P a → P b → P (a ++ b)) (between : P sep)
    (each : ∀ piece ∈ pieces, P piece) : P (sep.intercalate pieces) := by
  cases pieces with
  | nil => exact nil
  | cons first rest =>
    rw [intercalate_cons]
    refine append _ _ (each first (by simp)) ?_
    have later (pieces : List (List A)) (within : ∀ piece ∈ pieces, P piece) :
        P (pieces.flatMap (sep ++ ·)) := by
      induction pieces with
      | nil => exact nil
      | cons piece pieces ih =>
        exact append _ _ (append _ _ between (within piece (by simp)))
          (ih fun other member => within other (by simp [member]))
    exact later rest fun piece member => each piece (by simp [member])

theorem intercalate_split (sep : Char) (text : Text) :
    List.intercalate [sep] (split sep text) = text := by
  induction text with
  | nil => simp [split, List.intercalate]
  | cons c rest ih =>
    by_cases same : c = sep
    · cases pieces : split sep rest with
      | nil => exact absurd pieces (split_ne_nil sep rest)
      | cons piece more =>
        rw [pieces] at ih
        simp only [split, same, if_true, pieces]
        simpa [List.intercalate] using ih
    · simp [split, same, intercalate_extend, split_ne_nil, ih]

def splitFirst (sep : Char) : Text → Text × Option Text
  | [] => ([], none)
  | c :: rest =>
    if c = sep then ([], some rest)
    else
      let (before, after) := splitFirst sep rest
      (c :: before, after)

end Text

def decimal (n : Nat) : Text := Nat.toDigits 10 n

def decimalInt : Int → Text
  | .ofNat n => decimal n
  | .negSucc n => '-' :: decimal (n + 1)

end SqlComposer
