import GraphQuery.Text.Quoted
import GraphQuery.Text.Upper

/-!
# Set-up of the log

The threshold below which events are dropped, and the stages that every other event goes through.
The threshold is given by name, in any case; the records of the database driver have a threshold
of their own, which is never below that of warnings.
-/
namespace GraphQuery.Log

/-- Some thresholds have two names. -/
def thresholds : List (String × Nat) :=
  [("CRITICAL", 50), ("FATAL", 50), ("ERROR", 40), ("WARN", 30), ("WARNING", 30), ("INFO", 20),
   ("DEBUG", 10), ("NOTSET", 0)]

inductive Stage where
  | boundVariables
  | level
  | timestamp
  | callSite
  | context
  | exceptionText
  | forwarding
  | json
  | console
deriving DecidableEq, Inhabited

structure Setup where
  threshold : Nat
  stages : List Stage
  /-- The threshold of the records of the database driver. -/
  driverThreshold : Nat
deriving DecidableEq, Inhabited

/-- The console writes exceptions itself; for lines of JSON they become texts first. -/
def stages (json : Bool) : List Stage :=
  [.boundVariables, .level, .timestamp, .callSite, .context] ++
    (if json then [.exceptionText] else []) ++ [.forwarding, if json then .json else .console]

/-- An absent or empty name leaves the choice to the default. -/
def chosenName (name : Option String) (default : String) : String :=
  match name with
  | some name => if name = "" then default else name
  | none => default

def unknownThreshold (name : String) : String := "Unknown log level: " ++ Text.quoted name

/-- Fails with a message when there is no threshold of the name. -/
def setup (name : Option String) (default : String) (json : Bool) : Except String Setup :=
  let name := Text.upper (chosenName name default)
  match thresholds.lookup name with
  | some threshold => .ok ⟨threshold, stages json, max threshold 30⟩
  | none => .error (unknownThreshold name)

end GraphQuery.Log
