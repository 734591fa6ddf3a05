import Crossing.Log.Record

/-!
# Loggers and handlers

A logger hands the records that reach its level to its handlers, and each of these writes those of
its own levels to one place. A logger of level zero goes by the logger around it, which takes
warnings. Records of level zero and below are never taken.
-/

namespace Crossing.Log

/-- Where a handler writes. -/
inductive Sink where
  | out
  | error
  | file (path : String)
  deriving DecidableEq

structure Handler where
  sink : Sink
  level : Int
  /-- The level from which on records are left to other handlers. -/
  ceiling : Option Int := none
  deriving DecidableEq

def Handler.passes (h : Handler) (level : Int) : Bool :=
  decide (h.level ≤ level) && h.ceiling.all fun ceiling => decide (level < ceiling)

structure Logger where
  level : Int := 0
  handlers : List Handler := []
  deriving DecidableEq

namespace Logger

/-- The level from which on records are taken. -/
def threshold (l : Logger) : Int := if l.level = 0 then warningLevel else l.level

/-- Whether records of a level are taken at all. -/
def takes (l : Logger) (level : Int) : Bool := decide (0 < level) && decide (l.threshold ≤ level)

/-- The places that a record of a level is written to, in the order of the handlers. -/
def sinks (l : Logger) (level : Int) : List Sink :=
  if l.takes level then (l.handlers.filter (·.passes level)).map (·.sink) else []

end Logger

end Crossing.Log
