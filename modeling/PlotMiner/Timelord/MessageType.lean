/-!
# Types of timelord messages

Each message names its type by a number. Those in the thousands come from the timelord, those in the
two thousands from the miner.
-/

namespace PlotMiner.Timelord

inductive MessageType where
  | pong
  | proof
  | ready
  | speed
  | calcReply
  | ping
  | calcRequest
  | querySpeed
deriving DecidableEq, Inhabited

namespace MessageType

def all : List MessageType :=
  [pong, proof, ready, speed, calcReply, ping, calcRequest, querySpeed]

def id : MessageType → Int
  | pong => 1000
  | proof => 1010
  | ready => 1020
  | speed => 1030
  | calcReply => 1040
  | ping => 2000
  | calcRequest => 2010
  | querySpeed => 2020

def name : MessageType → String
  | pong => "PONG"
  | proof => "PROOF"
  | ready => "READY"
  | speed => "SPEED"
  | calcReply => "CALC_REPLY"
  | ping => "PING"
  | calcRequest => "CALC"
  | querySpeed => "QUERY_SPEED"

def ofId? (n : Int) : Option MessageType := all.find? fun t => t.id = n

def ofName? (name : String) : Option MessageType := all.find? fun t => t.name = name

end MessageType

end PlotMiner.Timelord
