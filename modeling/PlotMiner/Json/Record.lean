import PlotMiner.Json.Decode

/-!
# Decoding records

A record is described field by field, in declared order, each field being required or having a
default. The description knows how to check one field of an object, how to build the record from the
fields of an object that were found, and how to build it from the items of an array.
-/

namespace PlotMiner.Json

/-- The description of a record of type `α`, read from a source of type `S`. -/
structure Record (S α : Type) where
  /-- The names of the fields, with a check for the value of each. -/
  fields : List (String × (S → Except DecodeError Unit))
  /-- Builds the record from the fields of an object. -/
  ofFields : (String → Option S) → Except DecodeError α
  /-- Builds the record from the items of an array; `position` is the number of fields before, and
  `want` describes the whole record. The items after the last field are returned. -/
  ofItems : (position : Nat) → (want : String) → List S → Except DecodeError (α × List S)

namespace Record

variable {S α β : Type}

def pure (a : α) : Record S α where
  fields := []
  ofFields _ := .ok a
  ofItems _ _ items := .ok (a, items)

/-- One more field; `default` is what is taken when it is absent. -/
def andField (r : Record S (α → β)) (name : String) (item : S → Except DecodeError α)
    (default : Option α) : Record S β where
  fields := r.fields ++ [(name, fun s => (item s).map fun _ => ())]
  ofFields found := do
    let f ← r.ofFields found
    match found name, default with
    | some s, _ => return f (← item s)
    | none, some a => return f a
    | none, none => throw (.missingField name)
  ofItems position want items := do
    let (f, rest) ← r.ofItems position want items
    match rest, default with
    | s :: rest, _ => return (f (← item s), rest)
    | [], some a => return (f a, [])
    | [], none => throw (.invalidLength (position + r.fields.length) want)

def field [Source S] [Decode α] (r : Record S (α → β)) (name : String) : Record S β :=
  r.andField name decode none

def fieldD [Source S] [Decode α] (r : Record S (α → β)) (name : String) (default : α) :
    Record S β :=
  r.andField name decode (some default)

/-- The fields of an object that the record knows, each checked, in the order of the source. -/
def collect (r : Record S α) :
    List (Except DecodeError String × S) → List (String × S) →
      Except DecodeError (List (String × S))
  | [], found => .ok found.reverse
  | (name, s) :: rest, found => do
    let name ← name
    match r.fields.lookup name with
    | none => collect r rest found
    | some check =>
      if found.any (·.1 = name) then throw (.duplicateField name)
      else
        check s
        collect r rest ((name, s) :: found)

/-- How many items an array of a record has, in words. -/
def elements (n : Nat) : String := if n = 1 then "1 element" else s!"{n} elements"

def read [Source S] (type : String) (r : Record S α) (s : S) : Except DecodeError α := do
  match ← Source.view s with
  | .object fields =>
    let found ← r.collect (← fields) []
    r.ofFields fun name => found.lookup name
  | .array items =>
    let items ← items
    let (a, rest) ← r.ofItems 0 s!"struct {type} with {elements r.fields.length}" items
    if rest.isEmpty then return a else throw (Source.excess S items.length)
  | v => throw (.invalidType v.found s!"struct {type}")

end Record

/-- A type whose values are names: either the name itself, or an object whose only field has that
name and holds nothing. -/
def readVariant {S α : Type} [Source S] (known : List (String × α)) (s : S) :
    Except DecodeError α := do
  match ← Source.view s with
  | .string name => variant name
  | .object fields =>
    match ← fields with
    | [(name, payload)] =>
      let a ← variant (← name)
      match ← Source.view payload with
      | .null => return a
      | v => throw (.invalidType v.found "unit")
    | _ => throw (.invalidValue .object "map with a single key")
  | v => throw (.invalidType v.found "string or map")
where
  variant (name : String) : Except DecodeError α :=
    match known.lookup name with
    | some a => .ok a
    | none => .error (.unknownVariant name (known.map (·.1)))

end PlotMiner.Json
