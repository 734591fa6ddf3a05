/-!
# Log records

What the stages of a run tell about their work. A stage returns its records with its result, in
the order they were made.
-/

namespace Crossing.Log

structure Record where
  level : Int
  logger : String
  message : String
  deriving DecidableEq

def debugLevel : Int := 10

def infoLevel : Int := 20

def warningLevel : Int := 30

def errorLevel : Int := 40

def criticalLevel : Int := 50

def debug (logger message : String) : Record := ⟨debugLevel, logger, message⟩

def info (logger message : String) : Record := ⟨infoLevel, logger, message⟩

def warning (logger message : String) : Record := ⟨warningLevel, logger, message⟩

/-- The name of a level; levels between the named ones are called by their number. -/
def levelName (level : Int) : String :=
  if level = criticalLevel then "CRITICAL"
  else if level = errorLevel then "ERROR"
  else if level = warningLevel then "WARNING"
  else if level = infoLevel then "INFO"
  else if level = debugLevel then "DEBUG"
  else if level = 0 then "NOTSET"
  else "Level " ++ toString level

end Crossing.Log
