import SqlComposer.Proofs.Acceptance
import SqlComposer.Reference.Bytes

set_option autoImplicit false

namespace SqlComposer

namespace Text

variable {c : Char} {text : Text} {b : UInt8}

/-! ### Characters as bytes -/

theorem bytes_cons (c : Char) (text : Text) : bytes (c :: text) = String.utf8EncodeChar c ++ bytes text :=
  List.flatMap_cons

theorem bytes_append (front behind : Text) : bytes (front ++ behind) = bytes front ++ bytes behind :=
  List.flatMap_append

theorem length_bytes_cons (c : Char) (text : Text) :
    (bytes (c :: text)).length = c.utf8Size + (bytes text).length := by
  rw [bytes_cons, List.length_append, String.length_utf8EncodeChar]

theorem encode_ascii (ascii : c.toNat < 128) : String.utf8EncodeChar c = [UInt8.ofNat c.toNat] :=
  if_pos (Nat.le_of_lt_succ ascii)

theorem high_of_mem_encode (foreign : ¬ c.toNat < 128) (member : b ∈ String.utf8EncodeChar c) :
    128 ≤ b.toNat := by
  have large : ¬ c.val.toNat ≤ 127 := fun small => foreign (Nat.lt_succ_of_le small)
  simp only [String.utf8EncodeChar, if_neg large] at member
  split at member
  · simp only [List.mem_cons, List.not_mem_nil, or_false] at member
    rcases member with rfl | rfl <;> simp only [UInt8.toNat_ofNat'] <;> omega
  · split at member
    · simp only [List.mem_cons, List.not_mem_nil, or_false] at member
      rcases member with rfl | rfl | rfl <;> simp only [UInt8.toNat_ofNat'] <;> omega
    · simp only [List.mem_cons, List.not_mem_nil, or_false] at member
      rcases member with rfl | rfl | rfl | rfl <;> simp only [UInt8.toNat_ofNat'] <;> omega

theorem of_bytes_eq_cons {later : List UInt8} (low : b.toNat < 128) (same : bytes text = b :: later) :
    ∃ rest, text = Char.ofNat b.toNat :: rest ∧ bytes rest = later := by
  cases text with
  | nil => cases same
  | cons c rest =>
    rw [bytes_cons] at same
    by_cases ascii : c.toNat < 128
    · rw [encode_ascii ascii] at same
      obtain ⟨rfl, rested⟩ := List.cons.inj same
      have value : (UInt8.ofNat c.toNat).toNat = c.toNat := by
        rw [UInt8.toNat_ofNat']
        omega
      exact ⟨rest, by rw [value, Char.ofNat_toNat], rested⟩
    · have some : String.utf8EncodeChar c ≠ [] := by
        refine List.ne_nil_of_length_pos ?_
        rw [String.length_utf8EncodeChar]
        exact c.utf8Size_pos
      obtain ⟨first, more, encoded⟩ := List.exists_cons_of_ne_nil some
      rw [encoded] at same
      obtain ⟨rfl, -⟩ := List.cons.inj same
      have high := high_of_mem_encode ascii (encoded ▸ List.mem_cons_self)
      omega

/-! ### Taking texts apart -/

theorem splitBytes_append (front behind : Text) :
    splitBytes (bytes front).length (front ++ behind) = some (front, behind) := by
  induction front with
  | nil => cases behind <;> rfl
  | cons c front ih =>
    obtain ⟨place, next⟩ : ∃ place, (bytes (c :: front)).length = place + 1 := by
      refine Nat.exists_eq_succ_of_ne_zero ?_
      have some := c.utf8Size_pos
      rw [length_bytes_cons]
      omega
    have size : place + 1 = c.utf8Size + (bytes front).length := by rw [← next, length_bytes_cons]
    have later : place + 1 - c.utf8Size = (bytes front).length := by omega
    rw [next, List.cons_append, splitBytes, if_pos (by omega), later, ih]
    rfl

theorem of_splitBytes {place : Nat} {front behind : Text} (split : splitBytes place text = some (front, behind)) :
    text = front ++ behind ∧ (bytes front).length = place := by
  fun_induction splitBytes place text generalizing front behind with
  | case1 text =>
    obtain ⟨rfl, rfl⟩ := Prod.mk.inj (Option.some.inj split)
    exact ⟨rfl, rfl⟩
  | case2 => cases split
  | case3 place c rest fits ih =>
    obtain ⟨⟨before, after⟩, inner, same⟩ := Option.map_eq_some_iff.1 split
    obtain ⟨rfl, rfl⟩ := Prod.mk.inj same
    obtain ⟨whole, size⟩ := ih inner
    refine ⟨by rw [whole, List.cons_append], ?_⟩
    rw [length_bytes_cons, size]
    omega
  | case4 => cases split

theorem isSome_splitBytes (text : Text) (place : Nat) :
    (splitBytes place text).isSome ↔ String.Pos.Raw.IsValid (String.ofList text) ⟨place⟩ := by
  have ends (front : Text) : (String.ofList front).rawEndPos = ⟨(bytes front).length⟩ := by
    refine String.Pos.Raw.ext ?_
    rw [String.byteIdx_rawEndPos, ← String.size_toByteArray, String.toByteArray_ofList, List.utf8Encode,
      List.size_toByteArray, bytes]
  rw [String.Pos.Raw.isValid_iff_exists_append]
  constructor
  · intro splits
    obtain ⟨⟨front, behind⟩, split⟩ := Option.isSome_iff_exists.1 splits
    obtain ⟨rfl, rfl⟩ := of_splitBytes split
    exact ⟨.ofList front, .ofList behind, String.ofList_append, (ends front).symm⟩
  · rintro ⟨front, behind, whole, reached⟩
    have same : text = front.toList ++ behind.toList := by
      rw [← String.toList_append, ← whole, String.toList_ofList]
    rw [← String.ofList_toList (s := front), ends] at reached
    obtain rfl : place = _ := congrArg String.Pos.Raw.byteIdx reached
    rw [same, splitBytes_append]
    rfl

end Text

namespace Reference

open Text

variable {c : Char} {text : Text} {b : UInt8}

/-! ### The search -/

theorem letter_of_folded (b : UInt8) :
    (b ||| 0x20 = 0x61 → b = 0x61 ∨ b = 0x41) ∧ (b ||| 0x20 = 0x73 → b = 0x73 ∨ b = 0x53) := by
  have each : ∀ n < 256, let b := UInt8.ofNat n
      (b ||| 0x20 = 0x61 → b = 0x61 ∨ b = 0x41) ∧ (b ||| 0x20 = 0x73 → b = 0x73 ∨ b = 0x53) := by
    decide +kernel
  have known := each b.toNat b.toNat_lt
  rwa [UInt8.ofNat_toNat] at known

theorem beginsCut_bytes (text : Text) : beginsCut (bytes text) ↔ Cuts text := by
  rw [cuts_iff]
  constructor
  · intro begins
    match encoded : bytes text with
    | [] | [_] | [_, _] | [_, _, _] => simp [encoded, beginsCut] at begins
    | b :: c :: d :: e :: more =>
      simp only [encoded, beginsCut, Bool.and_eq_true, beq_iff_eq] at begins
      obtain ⟨⟨⟨rfl, rfl⟩, third⟩, fourth⟩ := begins
      have a := (letter_of_folded c).1 third
      have s := (letter_of_folded d).2 fourth
      obtain ⟨rest, rfl, first⟩ := of_bytes_eq_cons (by decide) encoded
      obtain ⟨rest, rfl, second⟩ := of_bytes_eq_cons (by rcases a with rfl | rfl <;> decide) first
      obtain ⟨rest, rfl, third⟩ := of_bytes_eq_cons (by rcases s with rfl | rfl <;> decide) second
      obtain ⟨rest, rfl, -⟩ := of_bytes_eq_cons (by decide) third
      refine ⟨_, _, rest, ?_, rfl⟩
      rcases a with rfl | rfl <;> rcases s with rfl | rfl <;> rfl
  · rintro ⟨a, s, rest, as, rfl⟩
    simp only [isAs, Bool.and_eq_true, Bool.or_eq_true, beq_iff_eq] at as
    rcases as with ⟨rfl | rfl, rfl | rfl⟩ <;> rfl

theorem findCut_append {high : List UInt8} (each : ∀ b ∈ high, 128 ≤ b.toNat) (later : List UInt8) :
    findCut (high ++ later) = (findCut later).map (· + high.length) := by
  induction high with
  | nil => simp
  | cons b high ih =>
    obtain ⟨first, others⟩ := List.forall_mem_cons.1 each
    have kept (more : List UInt8) : beginsCut (b :: more) = false := by
      have other : b ≠ 0x20 := by rintro rfl; exact absurd first (by decide)
      unfold beginsCut
      split
      · next same =>
        obtain ⟨rfl, -⟩ := List.cons.inj same
        simp [other]
      · rfl
    rw [List.cons_append, findCut, kept, if_neg Bool.false_ne_true, ih others, Option.map_map]
    rfl

theorem findCut_cons (kept : ¬ Cuts (c :: text)) :
    findCut (bytes (c :: text)) = (findCut (bytes text)).map (· + c.utf8Size) := by
  rw [← String.length_utf8EncodeChar]
  by_cases ascii : c.toNat < 128
  · have encoded := bytes_cons c text
    rw [encode_ascii ascii] at encoded ⊢
    rw [← beginsCut_bytes] at kept
    rw [encoded] at kept ⊢
    exact if_neg kept
  · rw [bytes_cons]
    exact findCut_append (fun _ member => high_of_mem_encode ascii member) (bytes text)

theorem findCut_of_uncut (uncut : Uncut text) : findCut (bytes text) = none := by
  induction text with
  | nil => rfl
  | cons c rest ih =>
    obtain ⟨kept, later⟩ := uncut_cons.1 uncut
    rw [findCut_cons kept, ih later]
    rfl

theorem findCut_of_leftmost {front cut : Text} (behind : Text) (isCut : IsCut cut)
    (leftmost : Uncut (front ++ cut.take 3)) :
    findCut (bytes (front ++ cut ++ behind)) = some (bytes front).length := by
  induction front with
  | nil =>
    have begins : Cuts (cut ++ behind) := ⟨cut, isCut, List.prefix_append cut behind⟩
    obtain ⟨a, s, -, rfl⟩ := isCut_iff.1 isCut
    exact if_pos ((beginsCut_bytes _).2 begins)
  | cons c front ih =>
    obtain ⟨kept, later⟩ := uncut_cons.1 leftmost
    have whole : findCut (bytes (c :: (front ++ cut ++ behind))) = _ :=
      findCut_cons (mt (cuts_leftmost isCut) kept)
    rw [List.cons_append, List.cons_append, whole, ih later, length_bytes_cons, Nat.add_comm]
    rfl

/-! ### The cut -/

/-- The first cut, in the letters of the text. -/
def CutAt (text name cut rest : Text) : Prop :=
  IsCut cut ∧ text = name ++ cut ++ rest ∧ Uncut (name ++ cut.take 3)

theorem uncut_or_cutAt (text : Text) : Uncut text ∨ ∃ name cut rest, CutAt text name cut rest := by
  have parting := parting_parts text
  generalize parts text = pieces at parting
  cases parting with
  | whole uncut => exact .inl uncut
  | cut isCut leftmost _ => exact .inr ⟨_, _, _, isCut, rfl, leftmost⟩

theorem splitAlias_of_uncut (uncut : Uncut text) : splitAlias text = some (text, none) := by
  rw [splitAlias, findCut_of_uncut uncut]

theorem length_bytes_of_isCut {cut : Text} (isCut : IsCut cut) : (bytes cut).length = 4 := by
  obtain ⟨a, s, as, rfl⟩ := isCut_iff.1 isCut
  simp only [isAs, Bool.and_eq_true, Bool.or_eq_true, beq_iff_eq] at as
  rcases as with ⟨rfl | rfl, rfl | rfl⟩ <;> rfl

theorem splitBytes_of_isCut {cut : Text} (front behind : Text) (isCut : IsCut cut) :
    splitBytes (bytes front).length (front ++ cut ++ behind) = some (front, cut ++ behind) ∧
      splitBytes ((bytes front).length + 4) (front ++ cut ++ behind) = some (front ++ cut, behind) := by
  have size : (bytes front).length + 4 = (bytes (front ++ cut)).length := by
    rw [bytes_append, List.length_append, length_bytes_of_isCut isCut]
  refine ⟨?_, size ▸ splitBytes_append ..⟩
  rw [List.append_assoc]
  exact splitBytes_append ..

theorem splitAlias_of_leftmost {front cut : Text} (behind : Text) (isCut : IsCut cut)
    (leftmost : Uncut (front ++ cut.take 3)) :
    splitAlias (front ++ cut ++ behind) = some (front, some behind) := by
  obtain ⟨before, after⟩ := splitBytes_of_isCut front behind isCut
  simp only [splitAlias, findCut_of_leftmost behind isCut leftmost, before, after]
  rfl

theorem cutAlias_of_uncut (uncut : Uncut text) : cutAlias text = (text, none) := by
  have whole := parts_of_uncut uncut
  rw [parts_eq] at whole
  match cut : cutAlias text with
  | (name, none) => rw [cutAlias_eq_none cut]
  | (name, some rest) =>
    simp only [cut] at whole
    exact absurd (List.cons.inj whole).2 (parts_ne_nil rest)

theorem cutAlias_of_leftmost {front cut : Text} (behind : Text) (isCut : IsCut cut)
    (leftmost : Uncut (front ++ cut.take 3)) :
    cutAlias (front ++ cut ++ behind) = (front, some behind) := by
  have whole := parts_of_leftmost behind isCut leftmost
  rw [parts_eq] at whole
  match found : cutAlias (front ++ cut ++ behind) with
  | (name, none) =>
    simp only [found] at whole
    exact absurd (List.cons.inj whole).2.symm (parts_ne_nil behind)
  | (name, some rest) =>
    simp only [found] at whole
    obtain ⟨rfl, -⟩ := List.cons.inj whole
    obtain ⟨a, s, -, rfl⟩ := isCut_iff.1 isCut
    obtain ⟨b, t, -, same⟩ := cutAlias_eq_some found
    obtain ⟨-, -, rfl⟩ : a = b ∧ s = t ∧ behind = rest := by simpa using same
    rfl

theorem splitAlias_eq (reference : Text) : splitAlias reference = some (cutAlias reference) := by
  obtain uncut | ⟨name, cut, rest, isCut, rfl, leftmost⟩ := uncut_or_cutAt reference
  · rw [splitAlias_of_uncut uncut, cutAlias_of_uncut uncut]
  · rw [splitAlias_of_leftmost rest isCut leftmost, cutAlias_of_leftmost rest isCut leftmost]

theorem splitAlias_eq_uncut : splitAlias text = some (text, none) ↔ Uncut text := by
  refine ⟨fun whole => ?_, splitAlias_of_uncut⟩
  obtain uncut | ⟨name, cut, rest, isCut, rfl, leftmost⟩ := uncut_or_cutAt text
  · exact uncut
  · rw [splitAlias_of_leftmost rest isCut leftmost] at whole
    cases (Prod.mk.inj (Option.some.inj whole)).2

theorem splitAlias_eq_cut {name rest : Text} :
    splitAlias text = some (name, some rest) ↔ ∃ cut, CutAt text name cut rest := by
  constructor
  · intro found
    obtain uncut | ⟨front, cut, behind, first⟩ := uncut_or_cutAt text
    · rw [splitAlias_of_uncut uncut] at found
      cases found
    · obtain ⟨isCut, rfl, leftmost⟩ := first
      rw [splitAlias_of_leftmost behind isCut leftmost] at found
      cases found
      exact ⟨cut, isCut, rfl, leftmost⟩
  · rintro ⟨cut, isCut, rfl, leftmost⟩
    exact splitAlias_of_leftmost rest isCut leftmost

theorem isValid_findCut {place : Nat} (found : findCut (bytes text) = some place) :
    String.Pos.Raw.IsValid (String.ofList text) ⟨place⟩ ∧
      String.Pos.Raw.IsValid (String.ofList text) ⟨place + 4⟩ := by
  obtain uncut | ⟨name, cut, rest, isCut, rfl, leftmost⟩ := uncut_or_cutAt text
  · rw [findCut_of_uncut uncut] at found
    cases found
  · rw [findCut_of_leftmost rest isCut leftmost] at found
    obtain rfl := Option.some.inj found
    obtain ⟨before, after⟩ := splitBytes_of_isCut name rest isCut
    rw [← isSome_splitBytes, ← isSome_splitBytes, before, after]
    exact ⟨rfl, rfl⟩

/-! ### The loops -/

theorem quoted_of_leftmost (quote : Quote) {front cut : Text} (behind : Text) (isCut : IsCut cut)
    (leftmost : Uncut (front ++ cut.take 3)) : quoted quote (front ++ cut ++ behind) =
      dotted quote front ++ [.space, .word .AS, .space] ++ quoted quote behind := by
  obtain ⟨part, later, next⟩ := List.exists_cons_of_ne_nil (parts_ne_nil behind)
  simp only [quoted, parts_of_leftmost behind isCut leftmost, next, List.map_cons]
  simp

theorem quoteRounds_eq {pieces : List Text} (parting : Parting text pieces) (quote : Quote) (rounds : Nat) :
    quoteRounds quote rounds text = if pieces.length ≤ rounds then some (quoted quote text) else none := by
  induction parting generalizing rounds with
  | @whole text uncut =>
    have single : quoted quote text = dotted quote text := by
      simp [quoted, parts_of_uncut uncut]
    cases rounds with
    | zero => rfl
    | succ rounds => simp [quoteRounds, splitAlias_of_uncut uncut, single]
  | @cut front cut behind later isCut leftmost _ ih =>
    cases rounds with
    | zero => rfl
    | succ rounds =>
      simp only [quoteRounds, splitAlias_of_leftmost behind isCut leftmost, ih,
        quoted_of_leftmost quote behind isCut leftmost, List.length_cons, Nat.add_le_add_iff_right]
      split <;> rfl

section Validation

variable (settings : Settings) (method : Text)

theorem validate_of_uncut (uncut : Uncut text) : validate settings method text =
    if accepts settings text then .ok () else .error (.invalidReference method text) := by
  unfold validate
  rw [parts_of_uncut uncut, List.find?_singleton]
  cases accepts settings text <;> rfl

theorem validate_of_leftmost {front cut : Text} (behind : Text) (isCut : IsCut cut)
    (leftmost : Uncut (front ++ cut.take 3)) : validate settings method (front ++ cut ++ behind) =
      validate settings method front >>= fun _ => validate settings method behind := by
  have uncut : Uncut front := fun other cuts inside =>
    leftmost other cuts (inside.trans (List.prefix_append ..).isInfix)
  rw [validate_of_uncut settings method uncut, validate, parts_of_leftmost behind isCut leftmost,
    List.find?_cons]
  cases accepts settings front <;> rfl

theorem validateRounds_of_uncut (uncut : Uncut text) (rounds : Nat) :
    validateRounds settings method (rounds + 1) text = some (validate settings method text) := by
  rw [validate_of_uncut settings method uncut, validateRounds, splitAlias_of_uncut uncut]
  by_cases wild : isWildcard text
  · simp [wild, accepts]
  · rw [if_neg wild]

theorem validateRounds_eq {pieces : List Text} (parting : Parting text pieces) {rounds : Nat}
    (enough : pieces.length ≤ rounds) :
    validateRounds settings method rounds text = some (validate settings method text) := by
  induction parting generalizing rounds with
  | whole uncut =>
    obtain ⟨rounds, rfl⟩ := Nat.exists_eq_add_of_le' enough
    exact validateRounds_of_uncut settings method uncut rounds
  | @cut front cut behind later isCut leftmost rest ih =>
    have some : 0 < later.length := by
      rw [rest.eq_parts]
      exact List.length_pos_of_ne_nil (parts_ne_nil behind)
    rw [List.length_cons] at enough
    obtain ⟨rounds, rfl⟩ : ∃ more, rounds = more + 1 + 1 := ⟨rounds - 2, by omega⟩
    have long : ¬ isWildcard (front ++ cut ++ behind) := by
      intro wild
      obtain ⟨a, s, -, rfl⟩ := isCut_iff.1 isCut
      have short := congrArg List.length (beq_iff_eq.1 wild)
      simp at short
      omega
    have uncut : Uncut front := fun other cuts inside =>
      leftmost other cuts (inside.trans (List.prefix_append ..).isInfix)
    rw [validateRounds, if_neg long, splitAlias_of_leftmost behind isCut leftmost,
      validate_of_leftmost settings method behind isCut leftmost]
    simp only [validateRounds_of_uncut settings method uncut, ih (Nat.le_of_succ_le_succ enough)]
    cases validate settings method front <;> rfl

end Validation

/-- A reference is cut at its leftmost ` AS ` just if it holds one, and always between two characters,
although the search goes by bytes. The loops that search again behind each cut end on every reference: they go
round once for each cut and once more behind the last, which is once for each part. -/
theorem cut_between_characters (reference : Text) :
    (splitAlias reference = some (reference, none) ↔ Uncut reference) ∧
    (∀ name rest, splitAlias reference = some (name, some rest) ↔
      ∃ cut, IsCut cut ∧ reference = name ++ cut ++ rest ∧ Uncut (name ++ cut.take 3)) ∧
    (∀ place, findCut reference.bytes = some place →
      String.Pos.Raw.IsValid (String.ofList reference) ⟨place⟩ ∧
        String.Pos.Raw.IsValid (String.ofList reference) ⟨place + 4⟩) ∧
    splitAlias reference = some (cutAlias reference) ∧
    ∃ pieces, Parting reference pieces ∧
      (∀ quote rounds, quoteRounds quote rounds reference =
        if pieces.length ≤ rounds then some (quoted quote reference) else none) ∧
      ∀ settings method rounds, pieces.length ≤ rounds →
        validateRounds settings method rounds reference = some (validate settings method reference) :=
  ⟨splitAlias_eq_uncut, fun _ _ => splitAlias_eq_cut, fun _ => isValid_findCut, splitAlias_eq reference,
    parts reference, parting_parts reference, quoteRounds_eq (parting_parts reference),
    fun settings method _ => validateRounds_eq settings method (parting_parts reference)⟩

-- Characters of two, four and three bytes.
example : splitAlias "é as €" = some ("é".toList, some "€".toList) ∧
    findCut (bytes "é𝄞€ aS b") = some 9 ∧ splitBytes 1 "é" = none := by
  decide

end Reference

end SqlComposer
