import PlotMiner.Config
import PlotMiner.Node.Credentials
import PlotMiner.Node.Query

/-!
# The client of a node

A client knows where the node is and how to log in. Credentials that are configured stay as they
are; those from a cookie file are replaced whenever the file is read again with success.
-/

namespace PlotMiner

/-- The cookie files that exist, by their paths. -/
abbrev CookieFiles := Path → Option (List UInt8)

structure NodeClient where
  url : String
  /-- The cookie file that the credentials come from, if they come from one. -/
  cookie : Option Path
  credentials : Credentials
deriving DecidableEq

structure Request where
  authorization : String
  body : Json.Value

namespace NodeClient

def trimSlashes (s : String) : String :=
  String.ofList (s.toList.reverse.dropWhile (· = '/')).reverse

/-- The address of the node, and of the wallet if one is named. -/
def urlOf (rpc : RpcConfig) : String :=
  if rpc.wallet.isEmpty then rpc.host
  else trimSlashes rpc.host ++ "/wallet/" ++ rpc.wallet

/-- The client for a configuration; the cookie file is read only if user or password is missing. -/
def ofConfig (rpc : RpcConfig) (cookie : Option Path) (files : CookieFiles) :
    Except Failure NodeClient :=
  if rpc.user ≠ "" ∧ rpc.password ≠ "" then .ok ⟨urlOf rpc, none, ⟨rpc.user, rpc.password⟩⟩
  else
    match cookie with
    | none => .error (.other .invalidInput "cookie is empty, cannot connect to the node")
    | some path =>
      match Credentials.ofCookie path (files path) with
      | .ok c => .ok ⟨urlOf rpc, some path, c⟩
      | .error e => .error e.failure

/-- Reads the cookie file again, if there is one. Says whether the credentials were replaced. -/
def reloadCookie (c : NodeClient) (files : CookieFiles) : NodeClient × Except Failure Bool :=
  match c.cookie with
  | none => (c, .ok false)
  | some path =>
    match files path with
    | none => (c, .ok false)
    | some contents =>
      match Credentials.ofCookie path (some contents) with
      | .ok credentials => ({ c with credentials := credentials }, .ok true)
      | .error e => (c, .error e.failure)

def request {α : Type} (c : NodeClient) (q : Query α) : Request :=
  ⟨c.credentials.authorization, q.body⟩

end NodeClient

end PlotMiner
