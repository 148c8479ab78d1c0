import GraphQuery.Guard.Context
import GraphQuery.Log.Event

/-!
# Layers of error handling

A layer around a call reports the errors that leave it, to its handler or to the log, and lets
them go on or stops them. A failure is reported at its own level, any other error at the level of
the layer. Halting errors pass unreported. While a report is made, its trace is bound.
-/
namespace GraphQuery.Guard

/-- What a handler is told. -/
structure Report where
  error : Incident
  level : Level
  context : Context
  asynchronous : Bool
  /-- The variables bound meanwhile. -/
  bound : Log.Fields

structure Journal where
  /-- The variables that every event carries. -/
  bound : Log.Fields := []
  /-- The next trace number. -/
  traces : Nat := 0
  logs : List Log.Event := []
  handled : List Report := []

def Journal.log (event : Log.Event) (j : Journal) : Journal :=
  { j with logs := j.logs ++ [{ event with fields := j.bound.merge event.fields }] }

def bindTrace (trace : Nat) (bound : Log.Fields) : Log.Fields :=
  bound.put "trace_id" (.value (.int trace))

/-- Does something while a trace is bound, and restores what was bound before. -/
def Journal.during (trace : Nat) (act : Journal → Journal) (j : Journal) : Journal :=
  { act { j with bound := bindTrace trace j.bound } with bound := j.bound }

structure Layer where
  function : Function
  level : Level := .error
  reraise : Bool := true
  /-- Reports go to a handler and not to the log. -/
  handled : Bool := false
deriving Inhabited

namespace Layer

def event (context : Context) (level : Level) (e : Incident) : Log.Event :=
  ⟨level, context.function ++ " failed: " ++ e.text,
    [("exc_info", .error e), ("trace_id", .value (.int context.trace))] ++
      context.fields.map fun field => (field.1, .value (.text field.2))⟩

def tell (l : Layer) (e : Incident) (context : Context) (j : Journal) : Journal :=
  let level := e.level l.level
  if l.handled then
    let report : Report := ⟨e, level, context, l.function.asynchronous, j.bound⟩
    { j with handled := j.handled ++ [report] }
  else j.log (event context level e)

def report (l : Layer) (arguments : Arguments) (e : Incident) (j : Journal) : Journal :=
  let context := Context.capture e l.function arguments j.traces
  ({ j with traces := j.traces + 1 }).during context.trace (l.tell e context)

/-- What becomes of the outcome of a call on its way through the layer. -/
def pass (l : Layer) (arguments : Arguments) (outcome : Except Incident Value) (j : Journal) :
    Except Incident Value × Journal :=
  match outcome with
  | .ok v => (.ok v, j)
  | .error e =>
    if e.isHalting then (.error e, j)
    else (if l.reraise then .error e else .ok .null, l.report arguments e j)

/-- No trace stays bound. -/
@[simp] theorem bound_pass (l : Layer) (arguments : Arguments) (outcome : Except Incident Value)
    (j : Journal) : (l.pass arguments outcome j).2.bound = j.bound := by
  unfold pass
  split
  · rfl
  · split <;> rfl

theorem pass_error (l : Layer) (arguments : Arguments) (e : Incident) (j : Journal) :
    (l.pass arguments (.error e) j).1 =
      if e.isHalting || l.reraise then .error e else .ok .null := by
  rw [pass]
  cases e.isHalting <;> rfl

end Layer

/-- Nested layers, the innermost first, each with the arguments of its call. -/
def passAll (layers : List (Layer × Arguments)) (outcome : Except Incident Value) (j : Journal) :
    Except Incident Value × Journal :=
  layers.foldl (fun state layer => layer.1.pass layer.2 state.1 state.2) (outcome, j)

end GraphQuery.Guard
