import PlotMiner.Failure
import PlotMiner.Text.Utf8

/-!
# Paths and files

A path is a text. What it names is decided by its components: repeated slashes, a slash at the end
and a single dot anywhere but at the beginning add none. Two texts with the same components are the
same path, and paths are ordered by their components, not by their characters.

A file either is not there or has bytes; a text file has the bytes of a text.
-/

namespace PlotMiner

structure Path where
  text : String
deriving DecidableEq, Inhabited

namespace Path

inductive Component where
  | root
  | here
  | parent
  | name (s : String)
deriving DecidableEq

namespace Component

def rank : Component → Nat
  | root => 0
  | here => 1
  | parent => 2
  | name _ => 3

/-- Names are ordered by their characters, after everything that is no name. -/
def compare : Component → Component → Ordering
  | name a, name b => Ord.compare a b
  | a, b => Ord.compare a.rank b.rank

end Component

/-- The pieces of a text between slashes. -/
def pieces : List Char → List (List Char)
  | [] => [[]]
  | c :: rest =>
    match c, pieces rest with
    | '/', ps => [] :: ps
    | c, p :: ps => (c :: p) :: ps
    | c, [] => [[c]]

/-- The components that a piece between slashes adds, other than at the beginning. -/
def pieceComponent? (p : List Char) : Option Component :=
  if p = [] ∨ p = ['.'] then none
  else if p = ['.', '.'] then some .parent
  else some (.name (String.ofList p))

def isAbsolute (p : Path) : Bool := p.text.toList.head? == some '/'

def components (p : Path) : List Component :=
  let ps := pieces p.text.toList
  let first :=
    if p.isAbsolute then [Component.root]
    else if ps.head? = some ['.'] then [.here]
    else []
  first ++ ps.filterMap pieceComponent?

/-- Whether two texts are the same path. -/
def same (a b : Path) : Bool := a.components == b.components

def compareComponents : List Component → List Component → Ordering
  | [], [] => .eq
  | [], _ :: _ => .lt
  | _ :: _, [] => .gt
  | a :: as, b :: bs => (a.compare b).then (compareComponents as bs)

def compare (a b : Path) : Ordering := compareComponents a.components b.components

/-- `q` as seen from `p`: an absolute path is taken alone, and one slash separates the two where `p`
is not empty. -/
def join (p q : Path) : Path :=
  if q.isAbsolute then q
  else if p.text.isEmpty || p.text.toList.getLast? == some '/' then ⟨p.text ++ q.text⟩
  else ⟨p.text ++ "/" ++ q.text⟩

def names (p : Path) : List String :=
  p.components.filterMap fun
    | .name s => some s
    | _ => none

/-- Drops slashes, and dots between slashes, at the beginning. -/
def dropSlashes : List Char → List Char
  | '/' :: '.' :: '/' :: rest => dropSlashes ('/' :: rest)
  | '/' :: rest => dropSlashes rest
  | cs => cs

/-- The text of `p` as seen from `dir`, with whose text it begins. -/
def below (dir p : Path) : String :=
  String.ofList (dropSlashes (p.text.toList.drop dir.text.length))

def fileName? (p : Path) : Option String :=
  match p.components.getLast? with
  | some (.name s) => some s
  | _ => none

/-- What stands after the last dot of a file name, if anything stands before that dot. -/
def nameExtension? (name : String) : Option String :=
  let cs := name.toList
  let after := (cs.reverse.takeWhile (· ≠ '.')).reverse
  if cs.length ≤ after.length + 1 then none else some (String.ofList after)

def extension? (p : Path) : Option String := p.fileName?.bind nameExtension?

end Path

inductive FileError where
  | missing
  | notText
deriving DecidableEq

namespace FileError

def kind : FileError → FailureKind
  | missing => .notFound
  | notText => .invalidData

def message : FileError → String
  | missing => "No such file or directory"
  | notText => "stream did not contain valid UTF-8"

end FileError

/-- The text of a file, of which `contents` are the bytes if it is there. -/
def readText : Option (List UInt8) → Except FileError (List Char)
  | none => .error .missing
  | some bytes =>
    match Text.decodeUtf8? bytes with
    | some cs => .ok cs
    | none => .error .notText

end PlotMiner
