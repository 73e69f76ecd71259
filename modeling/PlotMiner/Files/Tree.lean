import PlotMiner.Files.Path

/-!
# File trees

What a file system holds: files with a size, and directories whose entries have names.
-/

namespace PlotMiner

inductive FileTree where
  | file (size : UInt64)
  | directory (entries : List (String × FileTree))

namespace FileTree

def empty : FileTree := .directory []

instance : Inhabited FileTree := ⟨empty⟩

def entries : FileTree → List (String × FileTree)
  | file _ => []
  | directory es => es

/-- What a path leads to, seen from the innermost of the directories in `chain`; the directory that
holds each of them stands after it. -/
def walk : (chain : List FileTree) → List Path.Component → Option FileTree
  | [], _ => none
  | at_ :: _, [] => some at_
  | at_ :: above, c :: rest =>
    match at_, c with
    | file _, _ => none
    | directory _, .root => walk [(at_ :: above).getLast (by simp)] rest
    | directory _, .here => walk (at_ :: above) rest
    | directory _, .parent => walk (if above.isEmpty then [at_] else above) rest
    | directory es, .name s =>
      match es.lookup s with
      | some t => walk (t :: at_ :: above) rest
      | none => none

def find? (t : FileTree) (p : Path) : Option FileTree := walk [t] p.components

/-- The entries of the directory at a path, if there is one and it can be read. An empty path names
nothing. -/
def list? (t : FileTree) (p : Path) : Option (List (String × FileTree)) :=
  if p.text.isEmpty then none
  else
    match t.find? p with
    | some (.directory es) => some es
    | _ => none

/-- Puts a subtree at the place that names lead to. Missing directories are made on the way. -/
def insert (t : FileTree) (names : List String) (sub : FileTree) : FileTree :=
  match names with
  | [] =>
    match t, sub with
    | .directory (e :: es), .directory [] => .directory (e :: es)
    | _, _ => sub
  | name :: rest =>
    let es := t.entries
    let old := (es.lookup name).getD empty
    let new := (name, old.insert rest sub)
    if es.any (·.1 == name) then
      .directory (es.map fun e => if e.1 == name then new else e)
    else .directory (es ++ [new])

end FileTree

end PlotMiner
