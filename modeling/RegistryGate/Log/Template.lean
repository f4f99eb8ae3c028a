import RegistryGate.Log.Conversion

/-!
# Message templates

A log call gives a template and its arguments. A percent sign in the template begins a field: an optional
key in parentheses, a directive, and a letter that says how the argument is written. Two percent signs
stand for one. `fill` puts the arguments into the fields from left to right and stops at the first fault.
-/

namespace RegistryGate.Log

inductive Piece where
  | char (c : Char)
  | percent
  | field (key : Option String) (directive : Directive) (conversion : Conversion)
  | openKey
deriving DecidableEq

/-! ## Reading a template -/

/-- Where the reader of a template stands. -/
inductive Spot where
  | text
  /-- Right behind a percent sign. -/
  | opened
  /-- Inside a key, of which the given characters are read, last one first; `depth` parentheses are
  open within it. -/
  | inKey (depth : Nat) (front : List Char)
  /-- In the directive of a field, with what is read of it. -/
  | inDirective (key : Option String) (part : Directive.Part) (directive : Directive)

namespace Spot

/-- A character in the directive of a field, or the letter behind it. -/
def readDirective (key : Option String) (part : Directive.Part) (directive : Directive) (c : Char) :
    Option Piece × Spot :=
  match directive.extend? part c with
  | some (part, directive) => (none, .inDirective key part directive)
  | none => (some (.field key directive (.ofLetter c)), .text)

/-- The piece that ends with a character, if one does, and the spot behind it. -/
def read : Spot → Char → Option Piece × Spot
  | .text, c => if c = '%' then (none, .opened) else (some (.char c), .text)
  | .opened, c =>
    if c = '%' then (some .percent, .text)
    else if c = '(' then (none, .inKey 0 [])
    else readDirective none .flags {} c
  | .inKey depth front, c =>
    if c = '(' then (none, .inKey (depth + 1) (c :: front))
    else if c = ')' then
      match depth with
      | 0 => (none, .inDirective (some (.ofList front.reverse)) .flags {})
      | depth + 1 => (none, .inKey depth (c :: front))
    else (none, .inKey depth (c :: front))
  | .inDirective key part directive, c => readDirective key part directive c

/-- The piece that is not complete at the end of a template. -/
def rest? : Spot → Option Piece
  | .text => none
  | .opened => some (.field none {} .missing)
  | .inKey .. => some .openKey
  | .inDirective key _ directive => some (.field key directive .missing)

end Spot

/-- The pieces of a template from a spot on. -/
def piecesFrom (spot : Spot) : List Char → List Piece
  | [] => spot.rest?.toList
  | c :: rest => (spot.read c).1.toList ++ piecesFrom (spot.read c).2 rest

def pieces (template : String) : List Piece := piecesFrom .text template.toList

/-! ## Filling a template -/

structure Supply where
  /-- The arguments for fields without a key, in order. -/
  pending : List (Datum String)
  /-- The value that keys are looked up in. -/
  keyed : Option (Datum String)

namespace Supply

/-- The supply of a record's arguments: a tuple gives its items in order and any other value itself.
Keys are for mappings; a list or a byte string also passes for one, but finds no key. -/
def ofArguments : Datum String → Supply
  | .tuple items => ⟨items, none⟩
  | .mapping entries => ⟨[.mapping entries], some (.mapping entries)⟩
  | .list items => ⟨[.list items], some (.list items)⟩
  | .bytes value => ⟨[.bytes value], some (.bytes value)⟩
  | value => ⟨[value], none⟩

/-- The supply after the look-up of a field's key: what is found becomes the only argument left. -/
def lookUp (supply : Supply) : Option String → Except TemplateFault Supply
  | none => .ok supply
  | some key =>
    match supply.keyed with
    | some (.mapping entries) =>
      match Entries.get? entries key with
      | some value => .ok { supply with pending := [value] }
      | none => .error (.missingKey key)
    | _ => .error .noKeys

end Supply

/-- A step of filling a field, which may take arguments from the supply. -/
abbrev Filler (α : Type) := StateT Supply (Except TemplateFault) α

/-- The next argument. -/
def take : Filler (Datum String) := fun supply =>
  match supply.pending with
  | [] => .error .tooFewArguments
  | value :: rest => .ok (value, { supply with pending := rest })

/-- A width or a precision that is an argument. The limit is that of the integers which hold it. -/
def Extent.ofArgument (limit : Nat) (value : Datum String) : Except TemplateFault (Option Int) := do
  let count ← wholeNumber value
  if -(limit : Int) - 1 ≤ count ∧ count ≤ limit then .ok (some count) else .error .infinite

/-- The width or the precision, if the directive has one. -/
def Extent.read (limit : Nat) : Option Extent → Filler (Option Int)
  | none => pure none
  | some (.given value) => if limit < value then throw .unknownConversion else pure (some value)
  | some .taken => do Extent.ofArgument limit (← take)

def widthLimit : Nat := 9223372036854775807

def precisionLimit : Nat := 2147483647

/-- The layout that a directive asks for. A negative width puts the argument to the left, a negative
precision is zero. -/
def Directive.layout (directive : Directive) : Filler Layout := do
  let width ← Extent.read widthLimit directive.width
  let precision ← Extent.read precisionLimit directive.precision
  return {
    directive
    left := directive.left || decide (width.getD 0 < 0)
    width := (width.getD 0).natAbs
    precision := precision.map Int.toNat }

/-- An argument in its field. -/
structure Filling where
  conversion : Conversion
  layout : Layout
  value : Datum String
  /-- What the conversion makes of the argument. -/
  operand : Operand

namespace Filling

/-- The argument in a field with the given layout. -/
def ofArgument (conversion : Conversion) (layout : Layout) (value : Datum String) :
    Except TemplateFault Filling := do
  return ⟨conversion, layout, value, ← conversion.read value⟩

def written (filling : Filling) : List Char := filling.layout.write filling.operand

end Filling

/-- What comes into a field. -/
def Directive.serve (directive : Directive) (conversion : Conversion) : Filler Filling := do
  let layout ← directive.layout
  if conversion = .missing then throw .missingConversion
  else do Filling.ofArgument conversion layout (← take)

/-- The text of the pieces with their fields filled. In the end no argument may be left over, unless
the arguments can be looked up by key. -/
def fill (supply : Supply) : List Piece → Except TemplateFault (List Char)
  | [] =>
    if supply.keyed.isNone && !supply.pending.isEmpty then .error .tooManyArguments else .ok []
  | .char c :: rest => do return c :: (← fill supply rest)
  | .percent :: rest => do return '%' :: (← fill supply rest)
  | .field key directive conversion :: rest => do
    let (filling, supply) ← (directive.serve conversion).run (← supply.lookUp key)
    return filling.written ++ (← fill supply rest)
  | .openKey :: _ => .error (if supply.keyed.isNone then .noKeys else .openKey)

def format (template : String) (arguments : Datum String) : Except TemplateFault String :=
  (fill (.ofArguments arguments) (pieces template)).map .ofList

end RegistryGate.Log
