/-!
# Sets of names

A set of names is kept as its list in strictly increasing code-point order, so that two sets with
the same members are equal and the list is fit to be shown.
-/

namespace RegistryGate

/-- A finite set of names. -/
structure NameSet where
  names : List String
  increasing : names.Pairwise (· < ·)
deriving DecidableEq

namespace NameSet

/-- A name put in its place in an increasing list, unless it is there. -/
def place (name : String) : List String → List String
  | [] => [name]
  | first :: rest =>
    if name = first then first :: rest
    else if name < first then name :: first :: rest
    else first :: place name rest

theorem mem_place {name other : String} {names : List String} :
    other ∈ place name names ↔ other = name ∨ other ∈ names := by
  induction names with
  | nil => simp [place]
  | cons first rest ih =>
    unfold place
    split
    · rename_i h
      subst h
      simp
    · split
      · simp
      · simp [ih, or_left_comm]

theorem pairwise_place {name : String} {names : List String} (h : names.Pairwise (· < ·)) :
    (place name names).Pairwise (· < ·) := by
  induction names with
  | nil => simp [place]
  | cons first rest ih =>
    have below : ∀ other ∈ rest, first < other := (List.pairwise_cons.1 h).1
    unfold place
    split
    · exact h
    · rename_i different
      split
      · rename_i lower
        refine List.pairwise_cons.2 ⟨fun other member => ?_, h⟩
        rcases List.mem_cons.1 member with rfl | member
        · exact lower
        · exact String.lt_trans lower (below other member)
      · rename_i notLower
        have lower : first < name := by
          rcases String.le_total name first with le | le
          · exact absurd (String.le_antisymm le (String.not_lt.1 notLower)) different
          · exact String.not_le.1 fun ge => different (String.le_antisymm ge le)
        refine List.pairwise_cons.2 ⟨fun other member => ?_, ih h.of_cons⟩
        rcases mem_place.1 member with rfl | member
        · exact lower
        · exact below other member

def empty : NameSet := ⟨[], .nil⟩

instance : Inhabited NameSet := ⟨empty⟩

def insert (set : NameSet) (name : String) : NameSet :=
  ⟨place name set.names, pairwise_place set.increasing⟩

def ofList (names : List String) : NameSet := names.foldl insert empty

instance : Membership String NameSet := ⟨fun set name => name ∈ set.names⟩

instance (name : String) (set : NameSet) : Decidable (name ∈ set) :=
  inferInstanceAs (Decidable (name ∈ set.names))

def isEmpty (set : NameSet) : Bool := set.names.isEmpty

def size (set : NameSet) : Nat := set.names.length

theorem mem_insert {set : NameSet} {name other : String} :
    other ∈ set.insert name ↔ other = name ∨ other ∈ set := mem_place

theorem mem_ofList {names : List String} {name : String} : name ∈ ofList names ↔ name ∈ names := by
  have general : ∀ (names : List String) (set : NameSet),
      name ∈ names.foldl insert set ↔ name ∈ names ∨ name ∈ set := by
    intro names
    induction names with
    | nil => simp
    | cons first rest ih =>
      intro set
      rw [List.foldl_cons, ih, mem_insert, List.mem_cons]
      constructor
      · rintro (h | h | h) <;> simp [h]
      · rintro ((h | h) | h) <;> simp [h]
  have := general names empty
  rw [ofList, this]
  exact ⟨fun h => h.resolve_right (List.not_mem_nil), Or.inl⟩

end NameSet

end RegistryGate
