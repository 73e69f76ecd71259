import PlotMiner.Json.Token
import PlotMiner.Json.Value

/-!
# JSON documents

A document is the tree of a text before any literal has been given its meaning: objects keep their
fields in the order of the text, repeated names included. The reader is a machine that takes one
token at a time and keeps the arrays and objects that are still open on a stack, so that it stops on
every text, however deep.

The value of a document exists only if all of its literals mean something and arrays and objects are
nested at most `maxDepth` deep.
-/

namespace PlotMiner.Json

inductive Document where
  | null
  | bool (b : Bool)
  | number (l : Numeral)
  | string (pieces : List Piece)
  | array (items : List Document)
  | object (fields : List (List Piece × Document))

instance : Inhabited Document := ⟨.null⟩

/-- An array or object that is still open. What it holds so far is kept in reverse. -/
inductive Frame where
  | array (items : List Document)
  /-- The name is the one whose value is being read. -/
  | object (fields : List (List Piece × Document)) (name : List Piece)

/-- What the reader expects next. -/
inductive ReadState where
  /-- A value. -/
  | beforeValue (stack : List Frame)
  /-- The first item of an array, or its end. -/
  | arrayOpened (stack : List Frame)
  /-- A comma and another item, or the end of the array. -/
  | afterItem (items : List Document) (stack : List Frame)
  /-- The first name of an object, or its end. -/
  | objectOpened (stack : List Frame)
  /-- A name. -/
  | beforeName (fields : List (List Piece × Document)) (stack : List Frame)
  /-- The colon after a name. -/
  | afterName (fields : List (List Piece × Document)) (name : List Piece) (stack : List Frame)
  /-- A comma and another field, or the end of the object. -/
  | afterField (fields : List (List Piece × Document)) (stack : List Frame)
  /-- Nothing: the document is complete. -/
  | done (d : Document)

namespace ReadState

/-- A value is complete and takes its place in the innermost open array or object. -/
def complete (d : Document) : List Frame → ReadState
  | [] => .done d
  | .array items :: stack => .afterItem (d :: items) stack
  | .object fields name :: stack => .afterField ((name, d) :: fields) stack

/-- The state after the first token of a value. -/
def startValue (t : Token) (stack : List Frame) : Option ReadState :=
  match t with
  | .null => some (complete .null stack)
  | .bool b => some (complete (.bool b) stack)
  | .number l => some (complete (.number l) stack)
  | .string pieces => some (complete (.string pieces) stack)
  | .arrayStart => some (.arrayOpened stack)
  | .objectStart => some (.objectOpened stack)
  | _ => none

def next (s : ReadState) (t : Token) : Option ReadState :=
  match s with
  | .beforeValue stack => startValue t stack
  | .arrayOpened stack =>
    if t = .arrayEnd then some (complete (.array []) stack)
    else startValue t (.array [] :: stack)
  | .afterItem items stack =>
    match t with
    | .comma => some (.beforeValue (.array items :: stack))
    | .arrayEnd => some (complete (.array items.reverse) stack)
    | _ => none
  | .objectOpened stack =>
    match t with
    | .string name => some (.afterName [] name stack)
    | .objectEnd => some (complete (.object []) stack)
    | _ => none
  | .beforeName fields stack =>
    match t with
    | .string name => some (.afterName fields name stack)
    | _ => none
  | .afterName fields name stack =>
    match t with
    | .colon => some (.beforeValue (.object fields name :: stack))
    | _ => none
  | .afterField fields stack =>
    match t with
    | .comma => some (.beforeName fields stack)
    | .objectEnd => some (complete (.object fields.reverse) stack)
    | _ => none
  | .done _ => none

def run (s : ReadState) : List Token → Option ReadState
  | [] => some s
  | t :: rest => (s.next t).bind fun s' => run s' rest

end ReadState

def Document.ofTokens? (ts : List Token) : Option Document :=
  match (ReadState.beforeValue []).run ts with
  | some (.done d) => some d
  | _ => none

def Document.parse? (cs : List Char) : Option Document := (tokens? cs).bind ofTokens?

/-- How deep arrays and objects may be nested in a value. -/
def maxDepth : Nat := 127

def stringOf (pieces : List Piece) : Except LiteralError String :=
  (Piece.chars pieces).map String.ofList

namespace Document

mutual

/-- The value of a document in which arrays and objects are nested at most `room` deep. -/
def toValue (room : Nat) : Document → Except LiteralError Value
  | .null => .ok .null
  | .bool b => .ok (.bool b)
  | .number l => return .number (← l.value)
  | .string pieces => return .string (← stringOf pieces)
  | .array items =>
    match room with
    | 0 => .error .tooDeep
    | room + 1 => return .array (← itemValues room items)
  | .object fields =>
    match room with
    | 0 => .error .tooDeep
    | room + 1 => return .object (sortFields (← fieldValues room fields))

def itemValues (room : Nat) : List Document → Except LiteralError (List Value)
  | [] => .ok []
  | d :: rest => return (← toValue room d) :: (← itemValues room rest)

def fieldValues (room : Nat) :
    List (List Piece × Document) → Except LiteralError (List (String × Value))
  | [] => .ok []
  | (name, d) :: rest => do
    let name ← stringOf name
    let value ← toValue room d
    return (name, value) :: (← fieldValues room rest)

end

end Document

def Value.parse? (cs : List Char) : Option Value := do
  let d ← Document.parse? cs
  (d.toValue maxDepth).toOption

end PlotMiner.Json
