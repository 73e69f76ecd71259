import PlotMiner.Files.Tree

/-!
# Finding plot files

Plots are the regular files with the extension `plot` that stand directly inside the configured
directories. A directory that cannot be read is skipped, and one that is configured twice is
searched twice.
-/

namespace PlotMiner

def plotExtension : String := "plot"

structure PlotFile where
  path : Path
  size : UInt64
deriving DecidableEq

namespace PlotFile

/-- Files are ordered by their paths, and then by their sizes. -/
def le (a b : PlotFile) : Bool :=
  match a.path.compare b.path with
  | .lt => true
  | .gt => false
  | .eq => a.size ≤ b.size

/-- The plot file that an entry of a directory is, if it is one. -/
def ofChild? (dir : Path) (entry : String × FileTree) : Option PlotFile :=
  match entry.2 with
  | .file size =>
    let path := dir.join ⟨entry.1⟩
    if path.extension? = some plotExtension then some ⟨path, size⟩ else none
  | .directory _ => none

/-- The plot files directly inside a directory. -/
def inDirectory (t : FileTree) (dir : Path) : List PlotFile :=
  ((t.list? dir).getD []).filterMap (ofChild? dir)

/-- The plot files directly inside the directories, in order. -/
def find (t : FileTree) (dirs : List Path) : List PlotFile :=
  (dirs.flatMap (inDirectory t)).mergeSort le

end PlotFile

end PlotMiner
