import Mathlib.Data.List.Forall2
import RegistryGate.Log.Template
import RegistryGate.Proofs.PlainValues

/-!
# What fields take

A field takes an argument for its width and one for its precision, if these are asterisks, and then the
one that it writes. So each step of filling a field takes from the head of the arguments what a list of
takers takes, and fails if they take nothing there (`Uses`). Positional arguments fill a template whose
takers take them one by one (`fills_positional_iff`); named ones fill one whose fields each find a value,
but for a first field that takes the whole of them (`fills_serves_iff`).
-/

namespace RegistryGate.Log

open Json (bind_eq_ok)

/-- What takes an argument. -/
inductive Taker where
  /-- A width or a precision with its limit. -/
  | extent (limit : Nat)
  | value (conversion : Conversion)
  /-- A field that no argument helps. -/
  | never

/-- The conversion can write the value. -/
def Conversion.Writes (conversion : Conversion) (value : Datum String) : Prop :=
  ∃ operand, conversion.read value = .ok operand

/-- The argument suits the taker. -/
def Taker.Takes : Taker → Datum String → Prop
  | .extent limit, given => ∃ count, Extent.ofArgument limit given = .ok count
  | .value conversion, given => conversion.Writes given
  | .never, _ => False

theorem not_takes_never {given : List (Datum String)} :
    ¬ List.Forall₂ Taker.Takes [.never] given := by
  intro takes
  cases takes with
  | cons takes _ => exact takes

def Extent.takers (limit : Nat) : Option Extent → List Taker
  | none => []
  | some (.given value) => if limit < value then [.never] else []
  | some .taken => [.extent limit]

def Directive.takers (directive : Directive) (conversion : Conversion) : List Taker :=
  Extent.takers widthLimit directive.width ++
    (Extent.takers precisionLimit directive.precision ++ [.value conversion])

theorem Directive.takers_ne_nil (directive : Directive) (conversion : Conversion) :
    directive.takers conversion ≠ [] := by
  simp only [takers, ne_eq, List.append_eq_nil_iff, List.cons_ne_nil, and_false, not_false_eq_true]

theorem forall₂_append_iff {α β : Type} {R : α → β → Prop} {front back : List α} {whole : List β} :
    List.Forall₂ R (front ++ back) whole ↔ ∃ first second, whole = first ++ second ∧
      List.Forall₂ R front first ∧ List.Forall₂ R back second := by
  constructor
  · intro related
    refine ⟨whole.take front.length, whole.drop front.length, (List.take_append_drop ..).symm, ?_, ?_⟩
    · simpa only [List.take_left] using List.forall₂_take front.length related
    · simpa only [List.drop_left] using List.forall₂_drop front.length related
  · rintro ⟨first, second, rfl, one, two⟩
    exact List.rel_append one two

/-! ## Steps -/

/-- The step takes from the head of the arguments what the takers take and leaves the others. It fails if
they do not take what is there. -/
def Uses {α : Type} (step : Filler α) (takers : List Taker) : Prop :=
  ∀ pending keyed left, (∃ result, step.run ⟨pending, keyed⟩ = .ok (result, left)) ↔
    ∃ given rest, pending = given ++ rest ∧ left = ⟨rest, keyed⟩ ∧ List.Forall₂ Taker.Takes takers given

theorem uses_pure {α : Type} (result : α) : Uses (pure result) [] := by
  intro pending keyed left
  constructor
  · rintro ⟨_, ⟨⟩⟩
    exact ⟨[], pending, rfl, rfl, .nil⟩
  · rintro ⟨_, rest, rfl, rfl, ⟨⟩⟩
    exact ⟨result, rfl⟩

/-- A step that fails does not get to the other takers. -/
theorem uses_throw {α : Type} {fault : TemplateFault} {taker : Taker} {others : List Taker}
    (never : ∀ value, ¬ taker.Takes value) : Uses (throw fault : Filler α) (taker :: others) := by
  intro pending keyed left
  constructor
  · rintro ⟨_, ⟨⟩⟩
  · rintro ⟨given, rest, -, -, takes⟩
    cases takes with
    | cons takes _ => exact absurd takes (never _)

theorem Uses.bind {α β : Type} {first : Filler α} {second : α → Filler β} {takers others : List Taker}
    (one : Uses first takers) (two : ∀ result, Uses (second result) others) :
    Uses (first >>= second) (takers ++ others) := by
  intro pending keyed left
  constructor
  · rintro ⟨result, ok⟩
    obtain ⟨⟨between, supply⟩, first_ok, second_ok⟩ := bind_eq_ok ok
    obtain ⟨given, rest, rfl, rfl, takes⟩ := (one pending keyed supply).mp ⟨between, first_ok⟩
    obtain ⟨more, behind, rfl, rfl, takesMore⟩ := (two between rest keyed left).mp ⟨result, second_ok⟩
    exact ⟨given ++ more, behind, (List.append_assoc ..).symm, rfl, List.rel_append takes takesMore⟩
  · rintro ⟨given, rest, rfl, rfl, takes⟩
    obtain ⟨taken, more, rfl, takes, takesMore⟩ := forall₂_append_iff.mp takes
    obtain ⟨between, first_ok⟩ := (one _ keyed _).mpr ⟨taken, more ++ rest, rfl, rfl, takes⟩
    obtain ⟨result, second_ok⟩ := (two between _ keyed _).mpr ⟨more, rest, rfl, rfl, takesMore⟩
    refine ⟨result, ?_⟩
    rw [List.append_assoc, StateT.run_bind, first_ok]
    exact second_ok

/-- What takes one argument and looks at nothing else. -/
theorem uses_take {α : Type} {read : Datum String → Except TemplateFault α} {taker : Taker}
    (reads : ∀ value, (∃ result, read value = .ok result) ↔ taker.Takes value) :
    Uses (do read (← take)) [taker] := by
  intro pending keyed left
  cases pending with
  | nil =>
    constructor
    · rintro ⟨_, ⟨⟩⟩
    · rintro ⟨given, rest, none, -, takes⟩
      obtain ⟨rfl, -⟩ := List.append_eq_nil_iff.mp none.symm
      cases takes
  | cons value pending =>
    constructor
    · rintro ⟨result, ok⟩
      obtain ⟨found, read_ok, ok⟩ := bind_eq_ok (x := read value) ok
      cases ok
      exact ⟨[value], pending, rfl, rfl, .cons ((reads value).mp ⟨result, read_ok⟩) .nil⟩
    · rintro ⟨given, rest, same, rfl, takes⟩
      cases takes with
      | cons takes none =>
        cases none
        obtain ⟨rfl, rfl⟩ := List.cons.inj same
        obtain ⟨result, read_ok⟩ := (reads value).mpr takes
        refine ⟨result, ?_⟩
        show (read value >>= fun result => pure (result, (⟨pending, keyed⟩ : Supply))) = _
        rw [read_ok]
        rfl

theorem uses_extent (limit : Nat) (extent : Option Extent) :
    Uses (Extent.read limit extent) (Extent.takers limit extent) := by
  cases extent with
  | none => exact uses_pure none
  | some extent =>
    cases extent with
    | given value =>
      rw [Extent.read, Extent.takers]
      split
      · exact uses_throw fun _ => id
      · exact uses_pure _
    | taken => exact uses_take fun _ => Iff.rfl

theorem uses_layout (directive : Directive) :
    Uses directive.layout
      (Extent.takers widthLimit directive.width ++ Extent.takers precisionLimit directive.precision) := by
  refine (uses_extent widthLimit directive.width).bind fun width => ?_
  rw [← List.append_nil (Extent.takers precisionLimit directive.precision)]
  exact (uses_extent precisionLimit directive.precision).bind fun precision => uses_pure _

theorem uses_serve (directive : Directive) (conversion : Conversion) :
    Uses (directive.serve conversion) (directive.takers conversion) := by
  rw [Directive.takers, ← List.append_assoc]
  refine (uses_layout directive).bind fun layout => ?_
  split
  · rename_i missing
    refine uses_throw fun value => ?_
    rintro ⟨operand, read⟩
    rw [missing] at read
    cases read
  · refine uses_take fun value => ?_
    constructor
    · rintro ⟨filling, ok⟩
      obtain ⟨operand, read, -⟩ := bind_eq_ok ok
      exact ⟨operand, read⟩
    · rintro ⟨operand, read⟩
      refine ⟨⟨conversion, layout, value, operand⟩, ?_⟩
      rw [Filling.ofArgument, read]
      rfl

/-- What a field is served with: the argument is one of the supply, and the conversion can read it. -/
structure Served (conversion : Conversion) (supply : Supply) (filling : Filling) (left : Supply) :
    Prop where
  asked : filling.conversion = conversion
  read : conversion.read filling.value = .ok filling.operand
  value : filling.value ∈ supply.pending
  pending : left.pending ⊆ supply.pending
  keyed : left.keyed = supply.keyed

theorem served_of_ok {directive : Directive} {conversion : Conversion} {supply left : Supply}
    {filling : Filling} (ok : (directive.serve conversion).run supply = .ok (filling, left)) :
    Served conversion supply filling left := by
  obtain ⟨⟨layout, rest⟩, layout_ok, ok⟩ := bind_eq_ok ok
  obtain ⟨given, pending, before, rfl, -⟩ :=
    (uses_layout directive supply.pending supply.keyed rest).mp ⟨layout, layout_ok⟩
  dsimp only at ok
  split at ok
  · cases ok
  · obtain ⟨⟨value, behind⟩, take_ok, ok⟩ := bind_eq_ok ok
    cases pending with
    | nil => cases take_ok
    | cons first pending =>
      cases take_ok
      obtain ⟨filling, accepted, ok⟩ := bind_eq_ok (x := Filling.ofArgument conversion layout value) ok
      cases ok
      obtain ⟨operand, read, accepted⟩ := bind_eq_ok accepted
      cases accepted
      refine ⟨rfl, read, ?_, fun value member => ?_, rfl⟩
      · rw [before]
        exact List.mem_append_right _ List.mem_cons_self
      · rw [before]
        exact List.mem_append_right _ (List.mem_cons_of_mem _ member)

/-! ## Demands -/

/-- Whether a piece asks something of the arguments. -/
def Piece.isDemand : Piece → Bool
  | .char _ => false
  | .percent => false
  | .field .. => true
  | .openKey => true

def demands (pieces : List Piece) : List Piece := pieces.filter Piece.isDemand

/-- What takes arguments by their position. -/
def Piece.takers : Piece → List Taker
  | .char _ => []
  | .percent => []
  | .field none directive conversion => directive.takers conversion
  | .field (some _) .. => [.never]
  | .openKey => [.never]

theorem demands_append (first second : List Piece) :
    demands (first ++ second) = demands first ++ demands second := List.filter_append ..

theorem demands_cons_plain {piece : Piece} (plain : piece.isDemand = false) (parts : List Piece) :
    demands (piece :: parts) = demands parts :=
  List.filter_cons_of_neg (by rw [plain]; decide)

theorem demands_cons {piece : Piece} (demand : piece.isDemand = true) (parts : List Piece) :
    demands (piece :: parts) = piece :: demands parts :=
  List.filter_cons_of_pos demand

theorem Piece.takers_ne_nil {piece : Piece} (demand : piece.isDemand = true) : piece.takers ≠ [] := by
  cases piece with
  | field key directive conversion =>
    cases key with
    | none => exact directive.takers_ne_nil conversion
    | some key => exact List.cons_ne_nil _ _
  | openKey => exact List.cons_ne_nil _ _
  | _ => cases demand

theorem Piece.takers_plain {piece : Piece} (plain : piece.isDemand = false) : piece.takers = [] := by
  cases piece with
  | char c => rfl
  | percent => rfl
  | _ => cases plain

/-- Only demands take arguments. -/
theorem flatMap_takers_demands (parts : List Piece) :
    (demands parts).flatMap Piece.takers = parts.flatMap Piece.takers := by
  induction parts with
  | nil => rfl
  | cons piece parts ih =>
    cases demand : piece.isDemand with
    | false => rw [demands_cons_plain demand, ih, List.flatMap_cons, Piece.takers_plain demand,
        List.nil_append]
    | true => rw [demands_cons demand, List.flatMap_cons, List.flatMap_cons, ih]

/-! ## Filling -/

def Fills (supply : Supply) (pieces : List Piece) : Prop := ∃ text, fill supply pieces = .ok text

variable {supply : Supply} {parts : List Piece} {named : Datum String} {pending : List (Datum String)}
  {keyed : Option (Datum String)}

theorem fills_nil_of_named : Fills ⟨pending, some named⟩ [] := ⟨[], rfl⟩

theorem fills_plain {piece : Piece} (plain : piece.isDemand = false) :
    Fills supply (piece :: parts) ↔ Fills supply parts := by
  unfold Fills
  cases piece with
  | char c =>
    rw [fill]
    cases fill supply parts <;> simp [bind, Except.bind, pure, Except.pure]
  | percent =>
    rw [fill]
    cases fill supply parts <;> simp [bind, Except.bind, pure, Except.pure]
  | _ => cases plain

theorem Supply.lookUp_key_eq_ok_iff {key : String} {found : Supply} :
    supply.lookUp (some key) = .ok found ↔ ∃ entries value, supply.keyed = some (.mapping entries) ∧
      Entries.get? entries key = some value ∧ found = ⟨[value], supply.keyed⟩ := by
  rw [Supply.lookUp]
  constructor
  · intro lookedUp
    split at lookedUp
    · rename_i entries same
      split at lookedUp
      · rename_i value bound
        cases lookedUp
        exact ⟨entries, value, same, bound, rfl⟩
      · cases lookedUp
    · cases lookedUp
  · rintro ⟨entries, value, same, bound, rfl⟩
    simp only [same, bound]

/-- A field is filled after its key is looked up, by what its takers take then. -/
theorem fills_field {key : Option String} {directive : Directive} {conversion : Conversion} :
    Fills supply (.field key directive conversion :: parts) ↔ ∃ found given rest,
      supply.lookUp key = .ok found ∧ found.pending = given ++ rest ∧
        List.Forall₂ Taker.Takes (directive.takers conversion) given ∧ Fills ⟨rest, found.keyed⟩ parts := by
  constructor
  · rintro ⟨text, filled⟩
    obtain ⟨found, lookedUp, filled⟩ := bind_eq_ok filled
    obtain ⟨⟨filling, left⟩, served, filled⟩ := bind_eq_ok filled
    obtain ⟨behind, others, -⟩ := bind_eq_ok filled
    obtain ⟨given, rest, before, rfl, takes⟩ :=
      (uses_serve directive conversion found.pending found.keyed left).mp ⟨filling, served⟩
    exact ⟨found, given, rest, lookedUp, before, takes, behind, others⟩
  · rintro ⟨found, given, rest, lookedUp, before, takes, behind, others⟩
    obtain ⟨filling, served⟩ :=
      (uses_serve directive conversion found.pending found.keyed ⟨rest, found.keyed⟩).mpr
        ⟨given, rest, before, rfl, takes⟩
    refine ⟨filling.written ++ behind, ?_⟩
    simp only [fill, lookedUp, served, others, bind, Except.bind, pure, Except.pure]

/-- The piece is a field with a key, and takes the value that the key has among the named ones. -/
def Finds (named : Datum String) (piece : Piece) : Prop :=
  ∃ key directive conversion entries value, piece = .field (some key) directive conversion ∧
    named = .mapping entries ∧ Entries.get? entries key = some value ∧
      List.Forall₂ Taker.Takes (directive.takers conversion) [value]

/-- A piece with a demand takes arguments from the head, or it finds its value among the named ones and
nothing else is left then. -/
theorem fills_demand {piece : Piece} (demand : piece.isDemand = true) :
    Fills ⟨pending, keyed⟩ (piece :: parts) ↔
      (∃ given rest, pending = given ++ rest ∧ List.Forall₂ Taker.Takes piece.takers given ∧
        Fills ⟨rest, keyed⟩ parts) ∨
      ∃ named, keyed = some named ∧ Finds named piece ∧ Fills ⟨[], keyed⟩ parts := by
  cases piece with
  | char c => cases demand
  | percent => cases demand
  | openKey =>
    constructor
    · rintro ⟨text, ⟨⟩⟩
    · rintro (⟨given, rest, -, takes, -⟩ | ⟨named, -, ⟨_, _, _, _, _, ⟨⟩, _⟩, -⟩)
      exact absurd takes not_takes_never
  | field key directive conversion =>
    rw [fills_field]
    cases key with
    | none =>
      constructor
      · rintro ⟨found, given, rest, ⟨⟩, before, takes, others⟩
        exact .inl ⟨given, rest, before, takes, others⟩
      · rintro (⟨given, rest, before, takes, others⟩ | ⟨named, -, ⟨_, _, _, _, _, ⟨⟩, _⟩, -⟩)
        exact ⟨_, given, rest, rfl, before, takes, others⟩
    | some key =>
      constructor
      · rintro ⟨found, given, rest, lookedUp, before, takes, others⟩
        obtain ⟨entries, value, same, bound, rfl⟩ := Supply.lookUp_key_eq_ok_iff.mp lookedUp
        have solid : given ≠ [] := by
          rintro rfl
          exact directive.takers_ne_nil conversion (List.forall₂_nil_right_iff.mp takes)
        obtain ⟨rfl, rfl⟩ : given = [value] ∧ rest = [] := by
          obtain ⟨first, given, rfl⟩ := List.exists_cons_of_ne_nil solid
          obtain ⟨rfl, none⟩ := List.cons.inj before
          obtain ⟨rfl, rfl⟩ := List.append_eq_nil_iff.mp none.symm
          exact ⟨rfl, rfl⟩
        have finds : Finds (.mapping entries) (.field (some key) directive conversion) :=
          ⟨key, directive, conversion, entries, value, rfl, rfl, bound, takes⟩
        exact .inr ⟨_, same, finds, others⟩
      · rintro (⟨given, rest, -, takes, -⟩ |
          ⟨named, rfl, ⟨_, _, _, entries, value, ⟨⟩, rfl, bound, takes⟩, others⟩)
        · exact absurd takes not_takes_never
        · refine ⟨⟨[value], some (.mapping entries)⟩, [value], [], ?_, rfl, takes, others⟩
          exact Supply.lookUp_key_eq_ok_iff.mpr ⟨entries, value, rfl, bound, rfl⟩

/-- Positional arguments fill a template whose takers take them one by one. -/
theorem fills_positional_iff :
    Fills ⟨pending, none⟩ parts ↔ List.Forall₂ Taker.Takes (parts.flatMap Piece.takers) pending := by
  induction parts generalizing pending with
  | nil =>
    cases pending with
    | nil => exact ⟨fun _ => .nil, fun _ => ⟨[], rfl⟩⟩
    | cons value pending => exact ⟨by rintro ⟨text, ⟨⟩⟩, by rintro ⟨⟩⟩
  | cons piece parts ih =>
    rw [List.flatMap_cons]
    cases demand : piece.isDemand with
    | false => rw [fills_plain demand, Piece.takers_plain demand, List.nil_append, ih]
    | true =>
      rw [fills_demand demand, forall₂_append_iff]
      simp only [reduceCtorEq, false_and, exists_false, or_false, ih]

/-- The demands are fields with keys that find their values, but for a first one that may take the whole
of the arguments. -/
def Serves (named : Datum String) (demanded : List Piece) : Prop :=
  ∃ first others, demanded = first ++ others ∧
    (first = [] ∨ ∃ piece, first = [piece] ∧ List.Forall₂ Taker.Takes piece.takers [named]) ∧
    ∀ piece ∈ others, Finds named piece

theorem serves_cons_iff {piece : Piece} {demanded : List Piece} :
    Serves named (piece :: demanded) ↔
      List.Forall₂ Taker.Takes piece.takers [named] ∧ (∀ other ∈ demanded, Finds named other) ∨
        Finds named piece ∧ ∀ other ∈ demanded, Finds named other := by
  constructor
  · rintro ⟨first, others, same, rfl | ⟨only, rfl, takes⟩, finds⟩
    · rw [List.nil_append] at same
      subst same
      exact .inr (List.forall_mem_cons.mp finds)
    · cases same
      exact .inl ⟨takes, finds⟩
  · rintro (⟨takes, finds⟩ | ⟨found, finds⟩)
    · exact ⟨[piece], demanded, rfl, .inr ⟨piece, rfl, takes⟩, finds⟩
    · exact ⟨[], _, rfl, .inl rfl, List.forall_mem_cons.mpr ⟨found, finds⟩⟩

/-- When the arguments are used up, a template is filled from the named values. -/
theorem fills_named_iff :
    Fills ⟨[], some named⟩ parts ↔ ∀ piece ∈ demands parts, Finds named piece := by
  induction parts with
  | nil => exact ⟨fun _ piece member => absurd member List.not_mem_nil, fun _ => fills_nil_of_named⟩
  | cons piece parts ih =>
    cases demand : piece.isDemand with
    | false => rw [fills_plain demand, demands_cons_plain demand, ih]
    | true =>
      rw [fills_demand demand, demands_cons demand, List.forall_mem_cons, ih]
      constructor
      · rintro (⟨given, rest, none, takes, -⟩ | ⟨_, ⟨⟩, found⟩)
        · obtain ⟨rfl, -⟩ := List.append_eq_nil_iff.mp none.symm
          exact absurd (List.forall₂_nil_right_iff.mp takes) (Piece.takers_ne_nil demand)
        · exact found
      · exact fun found => .inr ⟨named, rfl, found⟩

theorem fills_serves_iff : Fills ⟨[named], some named⟩ parts ↔ Serves named (demands parts) := by
  induction parts with
  | nil =>
    refine ⟨fun _ => ?_, fun _ => fills_nil_of_named⟩
    exact ⟨[], [], rfl, .inl rfl, fun piece member => absurd member List.not_mem_nil⟩
  | cons piece parts ih =>
    cases demand : piece.isDemand with
    | false => rw [fills_plain demand, demands_cons_plain demand, ih]
    | true =>
      rw [fills_demand demand, demands_cons demand, serves_cons_iff, ← fills_named_iff]
      constructor
      · rintro (⟨given, rest, whole, takes, others⟩ | ⟨_, ⟨⟩, found⟩)
        · cases given with
          | nil => exact absurd (List.forall₂_nil_right_iff.mp takes) (Piece.takers_ne_nil demand)
          | cons first given =>
            obtain ⟨rfl, none⟩ := List.cons.inj whole
            obtain ⟨rfl, rfl⟩ := List.append_eq_nil_iff.mp none.symm
            exact .inl ⟨takes, others⟩
        · exact .inr found
      · rintro (⟨takes, others⟩ | found)
        · exact .inl ⟨[named], [], rfl, takes, others⟩
        · exact .inr ⟨named, rfl, found⟩

/-- Fewer demands are served as well. -/
theorem Serves.sublist {demanded fewer : List Piece} (serves : Serves named demanded)
    (sub : fewer.Sublist demanded) : Serves named fewer := by
  obtain ⟨first, others, rfl, whole, finds⟩ := serves
  obtain ⟨front, back, rfl, subFirst, subOthers⟩ := List.sublist_append_iff.mp sub
  refine ⟨front, back, rfl, ?_, fun piece member => finds piece (subOthers.subset member)⟩
  rcases whole with rfl | ⟨piece, rfl, takes⟩
  · exact .inl (List.sublist_nil.mp subFirst)
  · cases subFirst with
    | cons _ none => exact .inl (List.sublist_nil.mp none)
    | cons_cons _ none =>
      obtain rfl := List.sublist_nil.mp none
      exact .inr ⟨piece, rfl, takes⟩

end RegistryGate.Log
