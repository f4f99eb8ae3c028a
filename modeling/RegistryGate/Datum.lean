import RegistryGate.Number.Shortest
import RegistryGate.Text.Quoted

/-!
# Dynamic values

Options come from a configuration file, documents from the network and arguments from log calls, and
each may hold anything. A datum is such a value; `τ` is the type of its texts, `String` where the
source vouches for them and `WideText` where it does not. `describe` writes a datum as messages show
it.
-/

namespace RegistryGate

/-- A value of unknown shape. A mapping lists its entries in order, each key once. -/
inductive Datum (τ : Type) where
  | null
  | bool (value : Bool)
  | int (value : Int)
  | real (value : Binary64)
  | text (value : τ)
  | bytes (value : List UInt8)
  | list (items : List (Datum τ))
  | tuple (items : List (Datum τ))
  | mapping (entries : List (τ × Datum τ))
  /-- An exception with a text. -/
  | failure (value : τ)
deriving Inhabited

/-! ## Entries -/

namespace Entries

variable {κ α : Type} [DecidableEq κ]

def get? (entries : List (κ × α)) (key : κ) : Option α :=
  (entries.find? (·.1 = key)).map (·.2)

/-- Binds a key: in its old place if it has one, else at the end. -/
def insert (entries : List (κ × α)) (key : κ) (value : α) : List (κ × α) :=
  match entries with
  | [] => [(key, value)]
  | entry :: rest => if entry.1 = key then (key, value) :: rest else entry :: insert rest key value

/-- The entries that binding the pairs in order leaves: each key in its first place with its last
value. -/
def ofPairs (pairs : List (κ × α)) : List (κ × α) :=
  pairs.foldl (fun entries pair => insert entries pair.1 pair.2) []

theorem get?_insert (entries : List (κ × α)) (key other : κ) (value : α) :
    get? (insert entries key value) other =
      if key = other then some value else get? entries other := by
  induction entries with
  | nil => by_cases h : key = other <;> simp [insert, get?, h]
  | cons entry rest ih =>
    obtain ⟨k, v⟩ := entry
    by_cases hk : k = key
    · subst hk
      by_cases h : k = other <;> simp [insert, get?, h]
    · by_cases h : k = other
      · subst h
        simp [insert, get?, hk, Ne.symm hk]
      · simp only [get?] at ih
        simp [insert, get?, hk, h, ih]

theorem isSome_get? (entries : List (κ × α)) (key : κ) :
    (get? entries key).isSome = true ↔ key ∈ entries.map (·.1) := by
  simp only [get?, Option.isSome_map, List.find?_isSome, decide_eq_true_eq, List.mem_map]

theorem get?_map {β : Type} (entries : List (κ × α)) (change : κ → α → β) (key : κ) :
    get? (entries.map fun entry => (entry.1, change entry.1 entry.2)) key =
      (get? entries key).map (change key) := by
  unfold get?
  rw [List.find?_map]
  show ((entries.find? (·.1 = key)).map _).map _ = _
  cases found : entries.find? (·.1 = key) with
  | none => rfl
  | some entry =>
    have same : entry.1 = key := by simpa using List.find?_some found
    rw [← same]
    rfl

theorem mem_insert {entries : List (κ × α)} {key : κ} {value : α} {entry : κ × α}
    (member : entry ∈ insert entries key value) : entry = (key, value) ∨ entry ∈ entries := by
  induction entries with
  | nil => exact .inl (List.mem_singleton.mp member)
  | cons first rest ih =>
    rw [insert] at member
    split at member
    · rcases List.mem_cons.mp member with same | later
      · exact .inl same
      · exact .inr (List.mem_cons_of_mem _ later)
    · rcases List.mem_cons.mp member with rfl | later
      · exact .inr List.mem_cons_self
      · rcases ih later with same | inside
        · exact .inl same
        · exact .inr (List.mem_cons_of_mem _ inside)

/-- Binding pairs makes up no entries. -/
theorem mem_ofPairs {pairs : List (κ × α)} {entry : κ × α} (member : entry ∈ ofPairs pairs) :
    entry ∈ pairs := by
  have fold : ∀ (rest before : List (κ × α)),
      entry ∈ rest.foldl (fun entries pair => insert entries pair.1 pair.2) before →
        entry ∈ before ∨ entry ∈ rest := by
    intro rest
    induction rest with
    | nil => exact fun before inside => .inl inside
    | cons pair rest ih =>
      intro before inside
      rcases ih _ inside with early | later
      · rcases mem_insert early with rfl | already
        · exact .inr List.mem_cons_self
        · exact .inl already
      · exact .inr (List.mem_cons_of_mem _ later)
  rcases fold pairs [] member with nothing | inside
  · exact absurd nothing List.not_mem_nil
  · exact inside

theorem insert_of_fresh {entries : List (κ × α)} {key : κ} (value : α)
    (fresh : ∀ entry ∈ entries, entry.1 ≠ key) :
    insert entries key value = entries ++ [(key, value)] := by
  induction entries with
  | nil => rfl
  | cons entry rest ih =>
    have later := ih fun other member => fresh other (List.mem_cons_of_mem _ member)
    rw [insert, if_neg (fresh entry List.mem_cons_self), later, List.cons_append]

/-- Binding pairs with different keys keeps them as they are. -/
theorem ofPairs_of_nodup {pairs : List (κ × α)} (different : (pairs.map (·.1)).Nodup) :
    ofPairs pairs = pairs := by
  have fold : ∀ (rest before : List (κ × α)), ((before ++ rest).map (·.1)).Nodup →
      rest.foldl (fun entries pair => insert entries pair.1 pair.2) before = before ++ rest := by
    intro rest
    induction rest with
    | nil => exact fun before _ => (List.append_nil before).symm
    | cons pair rest ih =>
      intro before nodup
      have fresh : ∀ entry ∈ before, entry.1 ≠ pair.1 := by
        intro entry member same
        rw [List.map_append] at nodup
        refine (List.nodup_append.mp nodup).2.2 entry.1 (List.mem_map_of_mem member) pair.1 ?_ same
        exact List.mem_map_of_mem List.mem_cons_self
      rw [List.foldl_cons, insert_of_fresh pair.2 fresh, ih]
      · simp
      · simpa using nodup
  exact fold pairs [] different

end Entries

/-- Whether a value holds nothing: null, false, a zero, or a text, byte string or collection without
contents. -/
def Datum.isEmptyValue : Datum String → Bool
  | .null => true
  | .bool value => !value
  | .int value => value == 0
  | .real value => value.isZero
  | .text value => value == ""
  | .bytes value => value.isEmpty
  | .list items => items.isEmpty
  | .tuple items => items.isEmpty
  | .mapping entries => entries.isEmpty
  | .failure _ => false

/-! ## Shown values -/

namespace Datum

variable {τ : Type}

def showBool (value : Bool) : String := if value then "True" else "False"

mutual

/-- A datum as messages show it, given how its texts are quoted. -/
def describe (quote : τ → String) : Datum τ → String
  | .null => "None"
  | .bool value => showBool value
  | .int value => toString value
  | .real value => value.text
  | .text value => quote value
  | .bytes value => Text.quotedBytes value
  | .list items => "[" ++ ", ".intercalate (showItems quote items) ++ "]"
  | .tuple items =>
    match items with
    | [item] => "(" ++ item.describe quote ++ ",)"
    | items => "(" ++ ", ".intercalate (showItems quote items) ++ ")"
  | .mapping entries => "\x7b" ++ ", ".intercalate (showEntries quote entries) ++ "\x7d"
  | .failure value => "Exception(" ++ quote value ++ ")"

def showItems (quote : τ → String) : List (Datum τ) → List String
  | [] => []
  | item :: rest => item.describe quote :: showItems quote rest

def showEntries (quote : τ → String) : List (τ × Datum τ) → List String
  | [] => []
  | (key, value) :: rest => (quote key ++ ": " ++ value.describe quote) :: showEntries quote rest

end

/-- A string datum as messages show it. -/
def shown (value : Datum String) : String :=
  value.describe fun text => Text.quoted (WideText.ofString text)

/-- A datum as text: a text is itself, an exception its text, all else what messages show. -/
def display : Datum String → String
  | .text value => value
  | .failure value => value
  | value => value.shown

mutual

/-- The datum with each text changed, if every one of them can be. -/
def mapText? {σ : Type} (f : τ → Option σ) : Datum τ → Option (Datum σ)
  | .null => some .null
  | .bool value => some (.bool value)
  | .int value => some (.int value)
  | .real value => some (.real value)
  | .text value => (f value).map .text
  | .bytes value => some (.bytes value)
  | .list items => (mapItems? f items).map .list
  | .tuple items => (mapItems? f items).map .tuple
  | .mapping entries => (mapEntries? f entries).map .mapping
  | .failure value => (f value).map .failure

def mapItems? {σ : Type} (f : τ → Option σ) : List (Datum τ) → Option (List (Datum σ))
  | [] => some []
  | item :: rest => do return (← item.mapText? f) :: (← mapItems? f rest)

def mapEntries? {σ : Type} (f : τ → Option σ) :
    List (τ × Datum τ) → Option (List (σ × Datum σ))
  | [] => some []
  | (key, value) :: rest => do
    return (← f key, ← value.mapText? f) :: (← mapEntries? f rest)

end

end Datum

end RegistryGate
