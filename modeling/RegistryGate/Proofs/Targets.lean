import Mathlib.Data.List.Forall2
import RegistryGate.Proofs.Addresses

/-!
# Targets

Where the URL leads that comes of joining a path to a base. Its target is the one of the base with the
path behind it (`join?_target`), unless dot segments of the path are resolved: then it has fewer segments
(`join?_fewer`). That needs two facts about every URL that is read: it is made of the characters that its
parts may hold, so that writing them again changes nothing, and its own dot segments are resolved already
(`Normal`).
-/

namespace RegistryGate

/-! ## Writing parts again -/

namespace Percent

variable {safe : Char → Bool} {text : List Char} {c : Char}

theorem mem_encodeChar {d : Char} (member : d ∈ encodeChar safe c) :
    safe d = true ∨ d = '%' ∨ isHex d = true := by
  unfold encodeChar at member
  split at member
  case isTrue plain =>
    rw [List.mem_singleton.mp member]
    exact .inl plain
  case isFalse =>
    obtain ⟨byte, -, escaped⟩ := List.mem_flatMap.mp member
    exact .inr (mem_escapeByte escaped)

theorem mem_encodeKeeping (member : c ∈ encodeKeeping safe text) :
    safe c = true ∨ c = '%' ∨ isHex c = true := by
  fun_induction encodeKeeping safe text with
  | case1 => cases member
  | case2 a b rest hex ih =>
    obtain ⟨first, second⟩ := Bool.and_eq_true_iff.mp hex
    simp only [List.mem_cons] at member
    rcases member with rfl | rfl | rfl | later
    · exact .inr (.inl rfl)
    · exact .inr (.inr first)
    · exact .inr (.inr second)
    · exact ih later
  | case3 a b rest hex ih =>
    rcases List.mem_append.mp member with here | later
    · exact mem_encodeChar here
    · exact ih later
  | case4 d rest other ih =>
    rcases List.mem_append.mp member with here | later
    · exact mem_encodeChar here
    · exact ih later

/-- What holds no other characters than may stand there is written as it is. -/
theorem encodeKeeping_eq_self (plain : ∀ c ∈ text, safe c = true) : encodeKeeping safe text = text := by
  fun_induction encodeKeeping safe text with
  | case1 => rfl
  | case2 a b rest hex ih =>
    simp only [List.forall_mem_cons] at plain
    rw [ih plain.2.2.2]
  | case3 a b rest hex ih =>
    obtain ⟨here, later⟩ := List.forall_mem_cons.mp plain
    rw [encodeChar, if_pos here, ih later, List.singleton_append]
  | case4 d rest other ih =>
    obtain ⟨here, later⟩ := List.forall_mem_cons.mp plain
    rw [encodeChar, if_pos here, ih later, List.singleton_append]

theorem isUnreserved_of_isHex (hex : isHex c = true) : isUnreserved c = true := by
  unfold isHex Text.hexValue? at hex
  unfold isUnreserved
  split_ifs at hex <;> simp_all
  all_goals omega

/-- A character is written as itself, or an escape stands for it. -/
theorem encodeChar_cases (safe : Char → Bool) (c : Char) :
    encodeChar safe c = [c] ∨ '%' ∈ encodeChar safe c := by
  unfold encodeChar
  split
  · exact .inl rfl
  · right
    obtain ⟨byte, bytes, written⟩ : ∃ byte bytes, Text.utf8Point (.ofChar c) = byte :: bytes := by
      unfold Text.utf8Point
      dsimp only
      split_ifs <;> exact ⟨_, _, rfl⟩
    simp [written, escapeByte]

end Percent

namespace Url

/-! ## Characters of the parts -/

theorem printableExcept_iff {excluded : List Char} {c : Char} :
    printableExcept excluded c = true ↔ (0x20 < c.toNat ∧ c.toNat < 0x7f) ∧ c ∉ excluded := by
  simp only [printableExcept, Bool.and_eq_true, decide_eq_true_eq, Bool.not_eq_true',
    List.contains_eq_mem, decide_eq_false_iff_not]

theorem isQueryChar_of_isPathChar {c : Char} (plain : isPathChar c = true) : isQueryChar c = true := by
  obtain ⟨printable, outside⟩ := printableExcept_iff.mp plain
  have fewer : "\"#<>".toList ⊆ "\"#<>?`\x7b\x7d".toList := by decide
  exact printableExcept_iff.mpr ⟨printable, fun member => outside (fewer member)⟩

theorem isPathChar_of_isUnreserved {c : Char} (plain : Percent.isUnreserved c = true) :
    isPathChar c = true := by
  have outside : c ∉ "\"#<>?`\x7b\x7d".toList := by
    intro member
    have refused : ("\"#<>?`\x7b\x7d".toList.all fun d => !Percent.isUnreserved d) = true := by decide
    have contrary := List.all_eq_true.mp refused c member
    rw [plain] at contrary
    cases contrary
  have printable : 0x20 < c.toNat ∧ c.toNat < 0x7f := by
    simp only [Percent.isUnreserved, Bool.or_eq_true, Bool.and_eq_true, decide_eq_true_eq,
      beq_iff_eq] at plain
    rcases plain with (((((upper | lower) | digit) | rfl) | rfl) | rfl) | rfl
    · omega
    · omega
    · omega
    · decide
    · decide
    · decide
    · decide
  exact printableExcept_iff.mpr ⟨printable, outside⟩

theorem isPathChar_of_mem_encodeKeeping {text : List Char} {c : Char}
    (member : c ∈ Percent.encodeKeeping isPathChar text) : isPathChar c = true := by
  rcases Percent.mem_encodeKeeping member with plain | rfl | hex
  · exact plain
  · decide
  · exact isPathChar_of_isUnreserved (Percent.isUnreserved_of_isHex hex)

theorem isQueryChar_of_mem_encodeKeeping {text : List Char} {c : Char}
    (member : c ∈ Percent.encodeKeeping isQueryChar text) : isQueryChar c = true := by
  rcases Percent.mem_encodeKeeping member with plain | rfl | hex
  · exact plain
  · decide
  · exact isQueryChar_of_isPathChar (isPathChar_of_isUnreserved (Percent.isUnreserved_of_isHex hex))

/-! ## Dot segments -/

/-- A segment that is a step and no name: to where one is, or one up. -/
def IsStep (segment : List Char) : Prop := segment = ['.'] ∨ segment = ['.', '.']

variable {segments before : List (List Char)} {segment path : List Char}

theorem resolveSegment_of_not_step (name : ¬ IsStep segment) :
    resolveSegment before segment = segment :: before := by
  rw [IsStep, not_or] at name
  rw [resolveSegment, if_neg name.1, if_neg name.2]

theorem length_resolveSegment_of_step (before : List (List Char)) (step : IsStep segment) :
    (resolveSegment before segment).length ≤ before.length := by
  unfold resolveSegment
  rcases step with rfl | rfl
  · exact Nat.le_refl before.length
  · rw [if_neg (by decide), if_pos rfl]
    split_ifs <;> simp

theorem mem_resolveSegment {other : List Char} (member : other ∈ resolveSegment before segment) :
    other ∈ before ∨ other = segment ∧ ¬ IsStep segment := by
  by_cases step : IsStep segment
  · left
    unfold resolveSegment at member
    split_ifs at member with here up first
    · exact member
    · exact member
    · exact List.mem_of_mem_tail member
    · exact absurd step (by simp [IsStep, here, up])
  · rw [resolveSegment_of_not_step step] at member
    rcases List.mem_cons.mp member with rfl | earlier
    · exact .inr ⟨rfl, step⟩
    · exact .inl earlier

theorem foldl_resolveSegment (names : ∀ segment ∈ segments, ¬ IsStep segment)
    (before : List (List Char)) :
    segments.foldl resolveSegment before = segments.reverse ++ before := by
  induction segments generalizing before with
  | nil => rfl
  | cons segment segments ih =>
    obtain ⟨here, later⟩ := List.forall_mem_cons.mp names
    rw [List.foldl_cons, resolveSegment_of_not_step here, ih later, List.reverse_cons,
      List.append_assoc, List.singleton_append]

theorem length_foldl_resolveSegment (segments before : List (List Char)) :
    (segments.foldl resolveSegment before).length ≤ segments.length + before.length := by
  induction segments generalizing before with
  | nil => simp
  | cons segment segments ih =>
    have rest := ih (resolveSegment before segment)
    by_cases step : IsStep segment
    · have fewer := length_resolveSegment_of_step before step
      simp only [List.foldl_cons, List.length_cons]
      omega
    · rw [resolveSegment_of_not_step step] at rest
      simp only [List.foldl_cons, resolveSegment_of_not_step step, List.length_cons] at rest ⊢
      omega

/-- Every step costs at least the segment that it is itself. -/
theorem length_foldl_resolveSegment_lt (before : List (List Char)) (member : segment ∈ segments)
    (step : IsStep segment) :
    (segments.foldl resolveSegment before).length < segments.length + before.length := by
  obtain ⟨front, behind, rfl⟩ := List.append_of_mem member
  rw [List.foldl_append, List.foldl_cons]
  have first := length_foldl_resolveSegment front before
  have here := length_resolveSegment_of_step (front.foldl resolveSegment before) step
  have rest := length_foldl_resolveSegment behind
    (resolveSegment (front.foldl resolveSegment before) segment)
  simp only [List.length_append, List.length_cons]
  omega

theorem mem_foldl_resolveSegment {other : List Char}
    (member : other ∈ segments.foldl resolveSegment before) :
    other ∈ before ∨ other ∈ segments ∧ ¬ IsStep other := by
  induction segments generalizing before with
  | nil => exact .inl member
  | cons segment segments ih =>
    rcases ih member with earlier | ⟨later, name⟩
    · rcases mem_resolveSegment earlier with earlier | ⟨rfl, name⟩
      · exact .inl earlier
      · exact .inr ⟨List.mem_cons_self, name⟩
    · exact .inr ⟨List.mem_cons_of_mem segment later, name⟩

theorem mem_resolved (member : segment ∈ ((Text.splitOn '/' path).foldl resolveSegment []).reverse) :
    segment ∈ Text.splitOn '/' path ∧ ¬ IsStep segment := by
  rcases mem_foldl_resolveSegment (List.mem_reverse.mp member) with none | some
  · cases none
  · exact some

theorem resolveDots_eq_self (names : ∀ segment ∈ Text.splitOn '/' path, ¬ IsStep segment) :
    resolveDots path = path := by
  rw [resolveDots, foldl_resolveSegment names, List.append_nil, List.reverse_reverse,
    Text.join_splitOn]

theorem splitOn_resolveDots (path : List Char) :
    let resolved := ((Text.splitOn '/' path).foldl resolveSegment []).reverse
    Text.splitOn '/' (resolveDots path) = if resolved = [] then [[]] else resolved := by
  intro resolved
  rw [resolveDots]
  by_cases none : resolved = []
  · rw [if_pos none, show ((Text.splitOn '/' path).foldl resolveSegment []).reverse = [] from none]
    rfl
  · rw [if_neg none]
    exact Text.splitOn_join none fun _ member => Text.not_mem_of_mem_splitOn (mem_resolved member).1

/-- No step is left. -/
theorem not_step_of_mem_resolveDots (member : segment ∈ Text.splitOn '/' (resolveDots path)) :
    ¬ IsStep segment := by
  rw [splitOn_resolveDots] at member
  split_ifs at member
  · rw [List.mem_singleton.mp member]
    simp [IsStep]
  · exact (mem_resolved member).2

theorem mem_resolveDots {c : Char} (member : c ∈ resolveDots path) : c = '/' ∨ c ∈ path := by
  rcases Text.mem_join member with slash | ⟨segment, listed, inside⟩
  · exact .inl slash
  · exact .inr (Text.mem_of_mem_splitOn (mem_resolved listed).1 inside)

/-- A path loses a slash with every step that is taken. -/
theorem count_resolveDots_lt (member : segment ∈ Text.splitOn '/' path) (step : IsStep segment)
    (slash : '/' ∈ path) : (resolveDots path).count '/' < path.count '/' := by
  have fewer := length_foldl_resolveSegment_lt [] member step
  have pieces := Text.length_splitOn '/' (resolveDots path)
  have some : 0 < path.count '/' := List.count_pos_iff.mpr slash
  rw [splitOn_resolveDots] at pieces
  rw [Text.length_splitOn] at fewer
  split_ifs at pieces with none
  · simp only [List.length_singleton] at pieces
    omega
  · simp only [List.length_reverse, List.length_nil] at pieces fewer
    omega

example : resolveDots "/v3/orgs/../members/.".toList = "/v3/members".toList := by decide

/-! ## Segments that are written again -/

/-- Segments that become others in writing hold an escape. -/
theorem forall₂_splitOn_encodeKeeping {safe : Char → Bool} (slash : safe '/' = true) (text : List Char) :
    List.Forall₂ (fun written segment => written = segment ∨ '%' ∈ written)
      (Text.splitOn '/' (Percent.encodeKeeping safe text)) (Text.splitOn '/' text) := by
  -- What a character becomes goes to the first segment of the rest.
  have front {written read rest again : List Char} (noSlash : '/' ∉ written) (plain : '/' ∉ read)
      (same : written = read ∨ '%' ∈ written)
      (ih : List.Forall₂ (fun written segment => written = segment ∨ '%' ∈ written)
        (Text.splitOn '/' again) (Text.splitOn '/' rest)) :
      List.Forall₂ (fun written segment => written = segment ∨ '%' ∈ written)
        (Text.splitOn '/' (written ++ again)) (Text.splitOn '/' (read ++ rest)) := by
    obtain ⟨first, more, pieces⟩ := List.exists_cons_of_ne_nil (Text.splitOn_ne_nil '/' rest)
    obtain ⟨other, others, segments⟩ := List.exists_cons_of_ne_nil (Text.splitOn_ne_nil '/' again)
    rw [pieces, segments] at ih
    obtain ⟨here, later⟩ := List.forall₂_cons.mp ih
    rw [Text.splitOn_front plain pieces, Text.splitOn_front noSlash segments]
    refine .cons ?_ later
    simp only [List.mem_append]
    rcases same with rfl | escaped
    · rcases here with rfl | behind
      · exact .inl rfl
      · exact .inr (.inr behind)
    · exact .inr (.inl escaped)
  have notSlash {c : Char} (hex : Percent.isHex c = true) : '/' ≠ c := by
    rintro rfl
    cases hex
  fun_induction Percent.encodeKeeping safe text with
  | case1 => exact .cons (.inl rfl) .nil
  | case2 a b rest hex ih =>
    obtain ⟨first, second⟩ := Bool.and_eq_true_iff.mp hex
    have plain : '/' ∉ ['%', a, b] := by
      simp [notSlash first, notSlash second]
    exact front plain plain (.inl rfl) ih
  | case3 a b rest hex ih =>
    have noSlash : '/' ∉ Percent.encodeChar safe '%' := by
      intro member
      cases Percent.eq_of_mem_encodeChar (by decide) member
    exact front noSlash (by decide) (Percent.encodeChar_cases safe '%') ih
  | case4 c rest other ih =>
    by_cases separates : c = '/'
    · rw [separates, Percent.encodeChar, if_pos slash, List.singleton_append, Text.splitOn,
        if_pos rfl, Text.splitOn, if_pos rfl]
      exact .cons (.inl rfl) ih
    · have noSlash : '/' ∉ Percent.encodeChar safe c := by
        intro member
        exact separates (Percent.eq_of_mem_encodeChar (by decide) member).symm
      have plain : '/' ∉ [c] := by
        simp [Ne.symm separates]
      exact front noSlash plain (Percent.encodeChar_cases safe c) ih

/-! ## What is read -/

/-- A URL that tells more than a path. Of such a one the steps are resolved. -/
def IsAbsolute (url : Url) : Prop :=
  url.scheme ≠ [] ∨ url.userinfo ≠ [] ∨ url.host ≠ [] ∨ url.port ≠ none

/-- What holds of every URL that is read: its parts stay as they are when they are written again, and
its steps are resolved. -/
structure Normal (url : Url) : Prop where
  path : ∀ c ∈ url.path, isPathChar c = true
  query : ∀ query, url.query = some query → ∀ c ∈ query, isQueryChar c = true
  resolved : url.IsAbsolute → ∀ segment ∈ Text.splitOn '/' url.path, ¬ IsStep segment

variable {scheme authority extra front : List Char} {query fragment : Option (List Char)} {url base : Url}

theorem hasParts_iff {scheme userinfo host : List Char} {port : Option Int} :
    (!scheme.isEmpty || (!userinfo.isEmpty || !host.isEmpty || port.isSome)) = true ↔
      scheme ≠ [] ∨ userinfo ≠ [] ∨ host ≠ [] ∨ port ≠ none := by
  simp [Option.isSome_iff_ne_none, or_assoc]

theorem ofParts?_path (made : ofParts? scheme authority path query fragment = some url) :
    (url.IsAbsolute → url.path = Percent.encodeKeeping isPathChar (resolveDots path)) ∧
      (¬ url.IsAbsolute → url.path = Percent.encodeKeeping isPathChar path) ∧
      url.query = query.map (Percent.encodeKeeping isQueryChar) := by
  unfold ofParts? at made
  cases host : Host.normalize? (splitHost (splitUserinfo authority).2).1 with
  | none => simp [host] at made
  | some normal =>
    simp only [host, Option.bind_eq_bind, Option.bind_some] at made
    obtain ⟨port, -, made⟩ := Option.bind_eq_some_iff.mp made
    split at made
    · cases made
    · cases made
      simp only [hasParts_iff, IsAbsolute, ne_eq, List.map_eq_nil_iff]
      refine ⟨?_, ?_, trivial⟩
      · intro absolute
        rw [if_pos absolute]
      · intro relative
        rw [if_neg relative]

theorem normal_of_ofParts? (made : ofParts? scheme authority path query fragment = some url) :
    url.Normal := by
  obtain ⟨resolved, unresolved, asked⟩ := ofParts?_path made
  constructor
  · intro c member
    by_cases absolute : url.IsAbsolute
    · rw [resolved absolute] at member
      exact isPathChar_of_mem_encodeKeeping member
    · rw [unresolved absolute] at member
      exact isPathChar_of_mem_encodeKeeping member
  · intro written some c member
    rw [asked] at some
    obtain ⟨read, -, rfl⟩ := Option.map_eq_some_iff.mp some
    exact isQueryChar_of_mem_encodeKeeping member
  · intro absolute segment member step
    rw [resolved absolute] at member
    obtain ⟨index, inside, rfl⟩ := List.getElem_of_mem member
    have pairs := forall₂_splitOn_encodeKeeping (show isPathChar '/' = true by decide) (resolveDots path)
    rcases pairs.get inside (pairs.length_eq ▸ inside) with same | escaped
    · rw [List.get_eq_getElem, List.get_eq_getElem] at same
      rw [same] at step
      exact not_step_of_mem_resolveDots (List.getElem_mem _) step
    · rw [List.get_eq_getElem] at escaped
      rcases step with here | up
      · simp [here] at escaped
      · simp [up] at escaped

theorem not_isAbsolute_of_ofParts? (made : ofParts? [] [] path query fragment = some url) :
    ¬ url.IsAbsolute := by
  have blank : Percent.encodeKeeping isUserinfoChar [] = [] := rfl
  simp [ofParts?, splitUserinfo, splitAt, splitHost, Host.normalize?, readPort?, blank] at made
  obtain ⟨-, rfl⟩ := made
  simp [IsAbsolute]

theorem parse?_normal {text : List Char} (parsed : parse? text = some url) : url.Normal := by
  unfold parse? at parsed
  split at parsed
  · exact normal_of_ofParts? parsed
  · cases parsed

/-! ## Longer targets -/

/-- The path of a URL as it is asked for: there is always one. -/
def rooted (url : Url) : List Char := if url.path.isEmpty then ['/'] else url.path

theorem rooted_of_ne_nil (filled : url.path ≠ []) : url.rooted = url.path := by
  simp [rooted, filled]

theorem target_of_no_query (unasked : url.query = none) : url.target = url.rooted := by
  simp [target, rooted, unasked]

theorem target_of_query {query : List Char} (asking : url.query = some query) :
    url.target = url.rooted ++ '?' :: query := by
  simp [target, rooted, asking]

theorem Normal.rooted (normal : url.Normal) : ∀ c ∈ url.rooted, isPathChar c = true := by
  intro c member
  unfold Url.rooted at member
  split_ifs at member
  · rw [List.mem_singleton.mp member]
    decide
  · exact normal.path c member

theorem Normal.rooted_resolved (normal : url.Normal) (absolute : url.IsAbsolute) :
    ∀ segment ∈ Text.splitOn '/' url.rooted, ¬ IsStep segment := by
  intro segment member
  unfold Url.rooted at member
  split_ifs at member
  · have blank : Text.splitOn '/' ['/'] = [[], []] := rfl
    simp only [blank, List.mem_cons, List.not_mem_nil, or_false, or_self] at member
    simp [member, IsStep]
  · exact normal.resolved absolute segment member

theorem question_not_mem {text : List Char} (plain : ∀ c ∈ text, isPathChar c = true) : '?' ∉ text := by
  intro member
  cases plain '?' member

theorem isAbsolute_of_withTarget? {text : List Char} (made : withTarget? base text = some url)
    (absolute : url.IsAbsolute) : base.IsAbsolute := by
  by_contra relative
  simp only [IsAbsolute, ne_eq, not_or, not_not] at relative
  obtain ⟨scheme, userinfo, host, port⟩ := relative
  have authority : base.authority = [] := by
    simp [Url.authority, userinfo, host, port]
  obtain ⟨path, query, parts⟩ := withTarget?_eq_some made
  rw [scheme, authority] at parts
  exact not_isAbsolute_of_ofParts? parts absolute

theorem ofParts?_of_withTarget? {text : List Char} (made : withTarget? base text = some url) :
    ofParts? base.scheme base.authority (splitAt '?' text).1 (splitAt '?' text).2 base.fragment =
      some url := by
  unfold withTarget? at made
  dsimp only at made
  split at made
  · exact made
  · cases made

/-- With a longer target and no query, a URL leads where the path does with its steps resolved. -/
theorem withTarget?_path (normal : base.Normal) (unasked : base.query = none)
    (plain : ∀ c ∈ extra, isPathChar c = true)
    (made : withTarget? base (base.target ++ extra) = some url) :
    url.query = none ∧ (url.IsAbsolute → url.path = resolveDots (base.target ++ extra)) ∧
      (¬ url.IsAbsolute → url.path = base.target ++ extra) := by
  have all : ∀ c ∈ base.target ++ extra, isPathChar c = true := by
    rw [target_of_no_query unasked]
    intro c member
    rcases List.mem_append.mp member with before | behind
    · exact normal.rooted c before
    · exact plain c behind
  have parts := ofParts?_of_withTarget? made
  rw [splitAt_of_not_mem (question_not_mem all)] at parts
  obtain ⟨resolved, unresolved, none⟩ := ofParts?_path parts
  refine ⟨none, ?_, ?_⟩
  · intro absolute
    rw [resolved absolute]
    apply Percent.encodeKeeping_eq_self
    intro c member
    rcases mem_resolveDots member with rfl | before
    · decide
    · exact all c before
  · intro relative
    rw [unresolved relative]
    exact Percent.encodeKeeping_eq_self all

/-- What is added to the target of a URL with a query is added to the query. -/
theorem withTarget?_query (normal : base.Normal) {query : List Char} (asking : base.query = some query)
    (plain : ∀ c ∈ extra, isPathChar c = true)
    (made : withTarget? base (base.target ++ extra) = some url) :
    url.rooted = base.rooted ∧ url.query = some (query ++ extra) := by
  have parts := ofParts?_of_withTarget? made
  rw [target_of_query asking, List.append_assoc, List.cons_append,
    splitAt_append (question_not_mem normal.rooted)] at parts
  obtain ⟨resolved, unresolved, asked⟩ := ofParts?_path parts
  have path : url.path = base.rooted := by
    by_cases absolute : url.IsAbsolute
    · rw [resolved absolute, resolveDots_eq_self
        (normal.rooted_resolved (isAbsolute_of_withTarget? made absolute))]
      exact Percent.encodeKeeping_eq_self normal.rooted
    · rw [unresolved absolute]
      exact Percent.encodeKeeping_eq_self normal.rooted
  have written : Percent.encodeKeeping isQueryChar (query ++ extra) = query ++ extra := by
    apply Percent.encodeKeeping_eq_self
    intro c member
    rcases List.mem_append.mp member with before | behind
    · exact normal.query query asking c before
    · exact isQueryChar_of_isPathChar (plain c behind)
  have filled : url.path ≠ [] := by
    rw [path, Url.rooted]
    split_ifs with empty
    · exact List.cons_ne_nil _ _
    · simpa using empty
  refine ⟨?_, ?_⟩
  · rw [rooted_of_ne_nil filled, path]
  · rw [asked, Option.map_some, written]

/-- A target without steps is the one that is meant. -/
theorem withTarget?_target (normal : base.Normal) (plain : ∀ c ∈ extra, isPathChar c = true)
    (made : withTarget? base (base.target ++ extra) = some url)
    (names : base.query = none → url.IsAbsolute →
      ∀ segment ∈ Text.splitOn '/' (base.target ++ extra), ¬ IsStep segment) :
    url.target = base.target ++ extra := by
  cases query : base.query with
  | none =>
    obtain ⟨alsoUnasked, resolved, unresolved⟩ := withTarget?_path normal query plain made
    have path : url.path = base.target ++ extra := by
      by_cases absolute : url.IsAbsolute
      · rw [resolved absolute, resolveDots_eq_self (names query absolute)]
      · exact unresolved absolute
    have filled : url.path ≠ [] := by
      rw [path, target_of_no_query query, Url.rooted]
      split_ifs with empty
      · simp
      · simp_all
    rw [target_of_no_query alsoUnasked, rooted_of_ne_nil filled, path]
  | some written =>
    obtain ⟨same, asked⟩ := withTarget?_query normal query plain made
    rw [target_of_query asked, target_of_query query, same, List.append_assoc, List.cons_append]

/-! ## Bases -/

theorem base?_normal {text : List Char} (read : base? text = some base) :
    base.Normal ∧ ∃ front, base.target = front ++ ['/'] := by
  unfold base? at read
  obtain ⟨url, parsed, read⟩ := Option.bind_eq_some_iff.mp read
  have normal := parse?_normal parsed
  split at read
  case isTrue ends =>
    cases read
    exact ⟨normal, List.getLast?_eq_some_iff.mp ends⟩
  case isFalse =>
    refine ⟨normal_of_ofParts? (ofParts?_of_withTarget? read), url.target, ?_⟩
    apply withTarget?_target normal (List.forall_mem_singleton.mpr (by decide)) read
    intro unasked absolute segment member
    rw [Text.splitOn_append_separator] at member
    rcases List.mem_append.mp member with before | behind
    · rw [target_of_no_query unasked] at before
      exact normal.rooted_resolved (isAbsolute_of_withTarget? read absolute) segment before
    · rw [List.mem_singleton.mp behind]
      simp [IsStep]

/-! ## Joining -/

theorem parse?_path {relative : Url} (plain : ∀ c ∈ extra, isPathChar c = true)
    (solid : extra.head? ≠ some '/') (parsed : parse? ('/' :: extra) = some relative) :
    relative.target = '/' :: extra := by
  have all : ∀ c ∈ '/' :: extra, isPathChar c = true := List.forall_mem_cons.mpr ⟨by decide, plain⟩
  have noScheme : splitScheme ('/' :: extra) = ([], '/' :: extra) := rfl
  have noAuthority : splitAuthority ('/' :: extra) = ([], '/' :: extra) := by
    cases extra with
    | nil => rfl
    | cons c rest =>
      have other : c ≠ '/' := by simpa using solid
      simp [splitAuthority, other]
  have noMark : '#' ∉ '/' :: extra := by
    intro member
    cases all '#' member
  unfold parse? at parsed
  split at parsed
  · simp only [noScheme, noAuthority, splitAt_of_not_mem noMark,
      splitAt_of_not_mem (question_not_mem all)] at parsed
    obtain ⟨-, unresolved, unasked⟩ := ofParts?_path parsed
    have path : relative.path = '/' :: extra := by
      rw [unresolved (not_isAbsolute_of_ofParts? parsed)]
      exact Percent.encodeKeeping_eq_self all
    rw [target_of_no_query unasked, rooted_of_ne_nil (by simp [path]), path]
  · cases parsed

/-- A path is joined to a base by adding it to the target of the base. -/
theorem withTarget?_of_join? (plain : ∀ c ∈ extra, isPathChar c = true) (solid : extra.head? ≠ some '/')
    (joined : join? base ('/' :: extra) = some url) :
    withTarget? base (base.target ++ extra) = some url := by
  obtain ⟨relative, parsed, joined⟩ := Option.bind_eq_some_iff.mp joined
  have behind : relative.target.dropWhile (· == '/') = extra := by
    rw [parse?_path plain solid parsed]
    cases extra with
    | nil => rfl
    | cons c rest =>
      have other : c ≠ '/' := by simpa using solid
      simp [other]
  rwa [behind] at joined

section Joined

variable (read : ∃ text, base? text = some base) (plain : ∀ c ∈ extra, isPathChar c = true)
  (solid : extra.head? ≠ some '/') (joined : join? base ('/' :: extra) = some url)
include read plain solid joined

/-- The target of a joined path without steps is the one of the base with the path behind it. -/
theorem join?_target (names : base.query = none → url.IsAbsolute →
    ∀ segment ∈ Text.splitOn '/' extra, ¬ IsStep segment) : url.target = base.target ++ extra := by
  obtain ⟨text, read⟩ := read
  obtain ⟨normal, front, ends⟩ := base?_normal read
  have made := withTarget?_of_join? plain solid joined
  apply withTarget?_target normal plain made
  intro unasked absolute segment member
  have before : segment ∈ Text.splitOn '/' front → ¬ IsStep segment := by
    intro listed
    apply normal.rooted_resolved (isAbsolute_of_withTarget? made absolute)
    rw [← target_of_no_query unasked, ends, Text.splitOn_append_separator]
    exact List.mem_append_left _ listed
  rw [ends, List.append_assoc, List.singleton_append, Text.splitOn_append_separator] at member
  rcases List.mem_append.mp member with listed | behind
  · exact before listed
  · exact names unasked absolute segment behind

/-- With a step in the path, the target has fewer segments than that. -/
theorem join?_fewer (unasked : base.query = none) (absolute : url.IsAbsolute) {segment : List Char}
    (member : segment ∈ Text.splitOn '/' extra) (step : IsStep segment) (slash : '/' ∈ extra) :
    url.target.count '/' < (base.target ++ extra).count '/' := by
  obtain ⟨text, read⟩ := read
  obtain ⟨normal, front, ends⟩ := base?_normal read
  obtain ⟨alsoUnasked, resolved, -⟩ :=
    withTarget?_path normal unasked plain (withTarget?_of_join? plain solid joined)
  have listed : segment ∈ Text.splitOn '/' (base.target ++ extra) := by
    rw [ends, List.append_assoc, List.singleton_append, Text.splitOn_append_separator]
    exact List.mem_append_right _ member
  have fewer := count_resolveDots_lt listed step (List.mem_append_right _ slash)
  have some : 0 < extra.count '/' := List.count_pos_iff.mpr slash
  rw [target_of_no_query alsoUnasked, rooted, resolved absolute]
  split_ifs with empty
  · simp only [ends, List.count_append, List.count_singleton_self]
    omega
  · exact fewer

end Joined

end Url

end RegistryGate
