/-!
# Taking texts apart

What stands behind a given beginning of a text, and the pieces of a text between the occurrences of
a separator. Main statements: a text is its beginning with what stands behind it
(`after?_eq_some_iff`), joining the pieces gives the text back (`join_splitOn`), and no piece holds
the separator (`not_mem_of_mem_splitOn`).
-/

namespace RegistryGate.Text

/-- What stands behind a given beginning of a text. -/
def after? : (lead text : List Char) → Option (List Char)
  | [], text => some text
  | _, [] => none
  | c :: lead, d :: text => if c = d then after? lead text else none

theorem after?_eq_some_iff {lead text rest : List Char} :
    after? lead text = some rest ↔ text = lead ++ rest := by
  induction lead generalizing text with
  | nil => simp [after?, eq_comm]
  | cons c lead ih =>
    cases text with
    | nil => simp [after?]
    | cons d text =>
      by_cases h : c = d
      · simp [after?, h, ih]
      · simp [after?, h, Ne.symm h]

/-- The pieces of a text between the occurrences of a separator. -/
def splitOn (separator : Char) : List Char → List (List Char)
  | [] => [[]]
  | c :: rest =>
    if c = separator then [] :: splitOn separator rest
    else match splitOn separator rest with
      | [] => [[c]]
      | first :: more => (c :: first) :: more

/-- Pieces with a separator between them. -/
def join (separator : Char) : List (List Char) → List Char
  | [] => []
  | [piece] => piece
  | piece :: rest => piece ++ separator :: join separator rest

theorem splitOn_ne_nil (separator : Char) (text : List Char) : splitOn separator text ≠ [] := by
  cases text with
  | nil => simp [splitOn]
  | cons c rest =>
    simp only [splitOn]
    split
    · simp
    · split <;> simp

theorem join_splitOn (separator : Char) (text : List Char) :
    join separator (splitOn separator text) = text := by
  induction text with
  | nil => rfl
  | cons c rest ih =>
    simp only [splitOn]
    split
    case isTrue h =>
      obtain ⟨first, more, hs⟩ := List.exists_cons_of_ne_nil (splitOn_ne_nil separator rest)
      rw [hs] at ih ⊢
      simp [join, ih, h]
    case isFalse h =>
      split
      case h_1 hs => exact absurd hs (splitOn_ne_nil separator rest)
      case h_2 first more hs =>
        rw [hs] at ih
        cases more with
        | nil => simpa [join] using ih
        | cons second more => simpa [join] using ih

theorem splitOn_of_not_mem {separator : Char} {text : List Char} (absent : separator ∉ text) :
    splitOn separator text = [text] := by
  induction text with
  | nil => rfl
  | cons c text ih =>
    have different := List.ne_of_not_mem_cons absent
    have behind := List.not_mem_of_not_mem_cons absent
    rw [splitOn, if_neg (Ne.symm different), ih behind]

theorem splitOn_append {separator : Char} {piece : List Char} (absent : separator ∉ piece)
    (rest : List Char) :
    splitOn separator (piece ++ separator :: rest) = piece :: splitOn separator rest := by
  induction piece with
  | nil => rw [List.nil_append, splitOn, if_pos rfl]
  | cons c piece ih =>
    have different := List.ne_of_not_mem_cons absent
    have behind := List.not_mem_of_not_mem_cons absent
    rw [List.cons_append, splitOn, if_neg (Ne.symm different), ih behind]

/-- What stands before a text without a separator goes to its first piece. -/
theorem splitOn_front {separator : Char} {front text first : List Char} {more : List (List Char)}
    (absent : separator ∉ front) (pieces : splitOn separator text = first :: more) :
    splitOn separator (front ++ text) = (front ++ first) :: more := by
  induction front with
  | nil => exact pieces
  | cons c front ih =>
    have different := List.ne_of_not_mem_cons absent
    have behind := List.not_mem_of_not_mem_cons absent
    rw [List.cons_append, splitOn, if_neg (Ne.symm different), ih behind]
    rfl

/-- A separator keeps the pieces before it and behind it apart. -/
theorem splitOn_append_separator (separator : Char) (text rest : List Char) :
    splitOn separator (text ++ separator :: rest) =
      splitOn separator text ++ splitOn separator rest := by
  induction text with
  | nil => simp [splitOn]
  | cons c text ih =>
    obtain ⟨first, more, pieces⟩ := List.exists_cons_of_ne_nil (splitOn_ne_nil separator text)
    rw [pieces] at ih
    by_cases same : c = separator
    · rw [List.cons_append, splitOn, if_pos same, ih, splitOn, if_pos same, pieces]
      rfl
    · rw [List.cons_append, splitOn, if_neg same, ih, splitOn, if_neg same, pieces]
      rfl

theorem splitOn_join {separator : Char} {pieces : List (List Char)} (some : pieces ≠ [])
    (plain : ∀ piece ∈ pieces, separator ∉ piece) :
    splitOn separator (join separator pieces) = pieces := by
  induction pieces with
  | nil => exact absurd rfl some
  | cons piece rest ih =>
    obtain ⟨here, later⟩ := List.forall_mem_cons.mp plain
    cases rest with
    | nil => exact splitOn_of_not_mem here
    | cons second rest =>
      rw [join, splitOn_append here, ih (List.cons_ne_nil second rest) later]
      rintro ⟨⟩

theorem mem_join {separator c : Char} {pieces : List (List Char)} (member : c ∈ join separator pieces) :
    c = separator ∨ ∃ piece ∈ pieces, c ∈ piece := by
  fun_induction join separator pieces with
  | case1 => cases member
  | case2 piece => exact .inr ⟨piece, List.mem_singleton_self piece, member⟩
  | case3 piece rest _ ih =>
    rcases List.mem_append.mp member with here | later
    · exact .inr ⟨piece, List.mem_cons_self, here⟩
    · rcases List.mem_cons.mp later with same | behind
      · exact .inl same
      · rcases ih behind with same | ⟨other, listed, inside⟩
        · exact .inl same
        · exact .inr ⟨other, List.mem_cons_of_mem piece listed, inside⟩

theorem mem_of_mem_splitOn {separator c : Char} {text piece : List Char}
    (member : piece ∈ splitOn separator text) (inside : c ∈ piece) : c ∈ text := by
  induction text generalizing piece with
  | nil =>
    rw [List.mem_singleton.mp member] at inside
    cases inside
  | cons d text ih =>
    rw [splitOn] at member
    split at member
    case isTrue =>
      rcases List.mem_cons.mp member with rfl | later
      · cases inside
      · exact List.mem_cons_of_mem d (ih later inside)
    case isFalse =>
      obtain ⟨first, more, pieces⟩ := List.exists_cons_of_ne_nil (splitOn_ne_nil separator text)
      rw [pieces] at member ih
      rcases List.mem_cons.mp member with rfl | later
      · rcases List.mem_cons.mp inside with rfl | behind
        · exact List.mem_cons_self
        · exact List.mem_cons_of_mem d (ih List.mem_cons_self behind)
      · exact List.mem_cons_of_mem d (ih (List.mem_cons_of_mem first later) inside)

theorem not_mem_of_mem_splitOn {separator : Char} {text piece : List Char}
    (member : piece ∈ splitOn separator text) : separator ∉ piece := by
  induction text generalizing piece with
  | nil =>
    rw [List.mem_singleton.mp member]
    exact List.not_mem_nil
  | cons c text ih =>
    rw [splitOn] at member
    split at member
    case isTrue =>
      rcases List.mem_cons.mp member with rfl | later
      · exact List.not_mem_nil
      · exact ih later
    case isFalse different =>
      obtain ⟨first, more, pieces⟩ := List.exists_cons_of_ne_nil (splitOn_ne_nil separator text)
      rw [pieces] at member ih
      rcases List.mem_cons.mp member with rfl | later
      · exact List.not_mem_cons_of_ne_of_not_mem (Ne.symm different) (ih List.mem_cons_self)
      · exact ih (List.mem_cons_of_mem _ later)

/-- There is one piece more than separators. -/
theorem length_splitOn (separator : Char) (text : List Char) :
    (splitOn separator text).length = text.count separator + 1 := by
  induction text with
  | nil => rfl
  | cons c text ih =>
    rw [splitOn]
    by_cases same : c = separator
    · rw [if_pos same, List.length_cons, ih, same, List.count_cons_self]
    · obtain ⟨first, more, pieces⟩ := List.exists_cons_of_ne_nil (splitOn_ne_nil separator text)
      rw [pieces] at ih
      rw [if_neg same, pieces, List.count_cons_of_ne same]
      exact ih

theorem exists_three_pieces {separator : Char} {text : List Char}
    (two : text.count separator = 2) :
    ∃ first second third, splitOn separator text = [first, second, third] := by
  have length := length_splitOn separator text
  rw [two] at length
  obtain ⟨first, more, pieces⟩ := List.exists_cons_of_length_eq_add_one length
  rw [pieces] at length ⊢
  obtain ⟨second, more, rfl⟩ := List.exists_cons_of_length_eq_add_one (Nat.succ.inj length)
  obtain ⟨third, more, rfl⟩ :=
    List.exists_cons_of_length_eq_add_one (Nat.succ.inj (Nat.succ.inj length))
  obtain rfl := List.eq_nil_of_length_eq_zero (Nat.succ.inj (Nat.succ.inj (Nat.succ.inj length)))
  exact ⟨first, second, third, rfl⟩

/-- A text comes apart into three pieces just when it is these with separators between them and no
others. -/
theorem splitOn_eq_three_iff {separator : Char} {text first second third : List Char} :
    splitOn separator text = [first, second, third] ↔
      text = first ++ separator :: (second ++ separator :: third) ∧ separator ∉ first ∧
        separator ∉ second ∧ separator ∉ third := by
  constructor
  · intro pieces
    have plain : ∀ piece ∈ [first, second, third], separator ∉ piece := by
      rw [← pieces]
      exact fun piece member => not_mem_of_mem_splitOn member
    refine ⟨?_, plain first (by simp), plain second (by simp), plain third (by simp)⟩
    rw [← join_splitOn separator text, pieces]
    rfl
  · rintro ⟨rfl, noneFirst, noneSecond, noneThird⟩
    rw [splitOn_append noneFirst, splitOn_append noneSecond, splitOn_of_not_mem noneThird]

end RegistryGate.Text
