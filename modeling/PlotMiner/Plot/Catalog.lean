import PlotMiner.Failure
import PlotMiner.Plot.Discovery
import PlotMiner.Plot.Filter
import PlotMiner.Plot.Memo

/-!
# The plots that the miner proves with

A catalog holds the plots whose size class is allowed, in the order in which they were opened. Plots
leave it when the key of their farmer turns out to be unknown. The hash of the plot ids and the
total size are taken once, when the catalog is made; the total covers the plots that were not
allowed as well.
-/

namespace PlotMiner

structure Plot where
  path : Path
  id : Bytes32
  k : UInt8
  memo : PlotMemo
  qualities : Bytes32 → Except Failure (List Blob)
  fullProof : Bytes32 → Nat → Except Failure Blob

/-- A plot that gives every challenge the same answers. Its full proofs end in the number of the
answer. -/
def Plot.steady (path : Path) (id : Bytes32) (k : UInt8) (memo : PlotMemo)
    (qualities : Except Failure (List Blob)) (proof : Except Failure Blob) : Plot where
  path := path
  id := id
  k := k
  memo := memo
  qualities _ := qualities
  fullProof _ index := proof.map fun b => ⟨b.toList ++ [UInt8.ofNat index]⟩

structure PlotCatalog where
  plots : List Plot
  /-- The hash of the ids of the plots that were there at the beginning. -/
  groupHash : Bytes32
  totalSize : UInt64

/-- Whether a size class is allowed. An empty list allows every one. -/
def kAllowed (allowed : List UInt8) (k : UInt8) : Bool := allowed.isEmpty || allowed.contains k

/-- The hash of the ids of plots, in their order. -/
def groupHashOf (plots : List Plot) : Bytes32 := Sha256.hash (plots.flatMap (·.id.wordOrder))

def totalSizeOf : List (Plot × UInt64) → Nat
  | [] => 0
  | (_, size) :: rest => size.toNat + totalSizeOf rest

namespace PlotCatalog

/-- The catalog of opened plots, each with its size, as long as 64 bits hold the sum of these. -/
def ofPlots? (opened : List (Plot × UInt64)) (allowed : List UInt8) : Option PlotCatalog :=
  let total := totalSizeOf opened
  if total < UInt64.size then
    let plots := (opened.map (·.1)).filter (kAllowed allowed ·.k)
    some ⟨plots, groupHashOf plots, UInt64.ofNat total⟩
  else none

/-- The catalog of the plot files in some directories. A file that cannot be opened is skipped. -/
def load? (t : FileTree) (dirs : List Path) (allowed : List UInt8) (openPlot : Path → Option Plot) :
    Option PlotCatalog :=
  ofPlots? ((PlotFile.find t dirs).filterMap fun f => (openPlot f.path).map (·, f.size)) allowed

def plotCount (c : PlotCatalog) : Nat := c.plots.length

end PlotCatalog

/-- The answers of a plot, numbered from `index` on. -/
def Plot.candidatesFrom (p : Plot) (index : Nat) : List Blob → List Candidate
  | [] => []
  | q :: rest => ⟨p.path, p.id, index, p.k, q, p.memo⟩ :: p.candidatesFrom (index + 1) rest

/-- The answers of a plot to a challenge; none when it does not take part or cannot be read. -/
def Plot.candidates (p : Plot) (challenge : Bytes32) (filterBits : UInt8) : List Candidate :=
  if passesFilter filterBits p.id challenge then
    match p.qualities challenge with
    | .ok qs => p.candidatesFrom 0 qs
    | .error _ => []
  else []

namespace PlotCatalog

def candidates (c : PlotCatalog) (challenge : Bytes32) (filterBits : UInt8) : List Candidate :=
  c.plots.flatMap (·.candidates challenge filterBits)

def find? (c : PlotCatalog) (path : Path) : Option Plot := c.plots.find? (·.path.same path)

/-- The full proof for an answer of the plot at a path. -/
def fullProof (c : PlotCatalog) (path : Path) (challenge : Bytes32) (index : Nat) :
    Except Failure Blob :=
  match c.find? path with
  | some p => p.fullProof challenge index
  | none => .error (.other .notFound s!"Plot is not loaded: {path.text}")

def revoke (c : PlotCatalog) (farmerKey : Bytes48) : PlotCatalog :=
  { c with plots := c.plots.filter (·.memo.farmerKey ≠ farmerKey) }

/-- How many plots go when those of a farmer are dropped. -/
def revokedCount (c : PlotCatalog) (farmerKey : Bytes48) : Nat :=
  c.plotCount - (c.revoke farmerKey).plotCount

end PlotCatalog

end PlotMiner
