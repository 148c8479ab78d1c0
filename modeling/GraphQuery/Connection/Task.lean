import GraphQuery.Connection.Basic
import GraphQuery.Connection.Row

/-!
# Tasks on a connection

Connecting, closing, using a session and running a query, cut at the points where they wait for
the database. A task runs from one such point to the next without another task in between. A
driver is held only when its connectivity has been verified; one that fails the check is closed. A
query runs in a session of its own, and a session is left whatever happens in it.
-/
namespace GraphQuery.Connection

structure Request where
  text : String
  params : Value
  /-- The query as it was handed over. -/
  argument : Value

/-- What a session is opened for: the work of its caller, or one query. -/
inductive Use where
  | work
  | query (r : Request)

inductive Goal where
  | connect
  | session (u : Use)

/-- What a task waits for. -/
inductive Phase where
  | verifying (driver : Nat) (goal : Goal)
  | discarding (driver : Nat) (goal : Goal) (reason : Incident)
  | closing (driver : Nat)
  | entering (u : Use)
  | working
  | sending (r : Request)
  | reading (r : Request) (rows : List Value)
  | leaving (u : Use) (outcome : Except Incident (List Value))

inductive Reply where
  /-- Done, and in reading: no more rows. -/
  | done
  /-- One more row, and in work: not done yet. -/
  | row (v : Value)
  | failed (e : Incident)

/-- How the calls go that do not wait: building a driver and opening a session. -/
structure Prompt where
  construction : Option Incident := none
  opening : Option Incident := none

inductive Progress where
  | waiting (p : Phase)
  | finished (outcome : Except Incident Value)

/-! ## The end of a query -/

def runFunction : Guard.Function :=
  ⟨"Neo4jDriver.run",
    [⟨"self", .either, false⟩, ⟨"query", .either, false⟩, ⟨"params", .either, true⟩], true⟩

def runLayer : Guard.Layer := ⟨runFunction, .error, true, false⟩

def refusal (target : Target) (text : String) (code : Code) (e : OutsideError) : Failure :=
  Failure.service ("Query execution failed: " ++ e.text) code
    (some ⟨"neo4j_driver", "run", .execution ⟨some target.uri, some text, some e.name⟩⟩)

/-- Errors of the database become failures; all others stay what they are. -/
def classified (target : Target) (text : String) : Incident → Incident
  | .outside e =>
    match e.family with
    | .unavailable => .failure (refusal target text .serviceUnavailable e) (some e)
    | .database => .failure (refusal target text .databaseQuery e) (some e)
    | _ => .outside e
  | e => e

def returned (r : Request) (outcome : Except Incident (List Value)) (c : Connection) :
    Except Incident Value × Connection :=
  match outcome with
  | .ok rows =>
    (.ok (.list rows),
      c.log .debug "Query returned rows" [("rows", .value (.int rows.length))])
  | .error e => (.error (classified c.target r.text e), c)

/-- The end of a run, which reports the error that leaves it. -/
def endRun (argument params : Value) (outcome : Except Incident Value) (c : Connection) :
    Progress × Connection :=
  let (outcome, journal) := runLayer.pass ⟨[.null, argument, params], []⟩ outcome c.journal
  (.finished outcome, { c with journal := journal })

def endQuery (r : Request) (outcome : Except Incident (List Value)) (c : Connection) :
    Progress × Connection :=
  let (outcome, c) := c.returned r outcome
  c.endRun r.argument r.params outcome

def endUse (u : Use) (outcome : Except Incident (List Value)) (c : Connection) :
    Progress × Connection :=
  match u with
  | .work => (.finished (outcome.map fun _ => .null), c)
  | .query r => c.endQuery r outcome

theorem endUse_query_error (r : Request) (e : Incident) (c : Connection) :
    (c.endUse (.query r) (.error e)).1 = .finished (.error (classified c.target r.text e)) := by
  simp only [endUse, endQuery, returned, endRun, Guard.Layer.pass_error]
  rw [show runLayer.reraise = true from rfl, Bool.or_true, if_pos rfl]

/-- An error before a session has begun. -/
def failGoal (goal : Goal) (e : Incident) (c : Connection) : Progress × Connection :=
  match goal with
  | .connect => (.finished (.error e), c)
  | .session u => c.endUse u (.error e)

/-! ## The steps -/

/-- A session asserts that a driver is held. -/
def noDriver : Incident := .outside ⟨"AssertionError", "", .ordinary⟩

def openSession (driver : Nat) (u : Use) (prompt : Prompt) (c : Connection) :
    Progress × Connection :=
  let c := c.signal (.openSession driver c.target.database)
  match prompt.opening with
  | some e => c.endUse u (.error e)
  | none => (.waiting (.entering u), c.signal .enterSession)

/-- Goes on when a driver should be held. -/
def proceed (goal : Goal) (prompt : Prompt) (c : Connection) : Progress × Connection :=
  match goal with
  | .connect => (.finished (.ok .null), c)
  | .session u =>
    match c.held with
    | some driver => c.openSession driver u prompt
    | none => c.endUse u (.error noDriver)

def buildDriver (goal : Goal) (prompt : Prompt) (c : Connection) : Progress × Connection :=
  let c := c.signal (.build c.target.uri c.target.username c.target.password)
  match prompt.construction with
  | some e => c.failGoal goal e
  | none =>
    let driver := c.built + 1
    (.waiting (.verifying driver goal), ({ c with built := driver }).signal (.verify driver))

def connectFor (goal : Goal) (prompt : Prompt) (c : Connection) : Progress × Connection :=
  if c.held.isSome then c.proceed goal prompt else c.buildDriver goal prompt

inductive Operation where
  | connect
  | close
  | session
  | run (r : Request)
  /-- Running what is neither a text nor has one. -/
  | misuse (argument params : Value)

namespace Operation

/-- Running a value, which has to be a text. -/
def ofValue (query params : Value) : Operation :=
  match query with
  | .text text => .run ⟨text, params, .text text⟩
  | v => .misuse v params

end Operation

def startClose (c : Connection) : Progress × Connection :=
  match c.held with
  | none => (.finished (.ok .null), c)
  | some driver => (.waiting (.closing driver), ({ c with held := none }).signal (.close driver))

def announce (r : Request) (c : Connection) : Connection :=
  c.log .debug "Executing query" [("query", .value (.text r.text)), ("params", .value r.params)]

/-- Runs a task up to the first point where it waits. -/
def start (op : Operation) (prompt : Prompt) (c : Connection) : Progress × Connection :=
  match op with
  | .connect => c.connectFor .connect prompt
  | .close => c.startClose
  | .session => c.connectFor (.session .work) prompt
  | .run r => (c.announce r).connectFor (.session (.query r)) prompt
  | .misuse argument params =>
    c.endRun argument params
      (.error (Fault.missingAttribute argument.fullTypeName "to_cypher").incident)

def hold (driver : Nat) (c : Connection) : Connection :=
  ({ c with held := some driver }).log .info "Connected to Neo4j"
    [("uri", .value (.text c.target.uri)), ("database", .value (textOrNull c.target.database))]

def sentParams (params : Value) : Value := if params.isTrue then params else .map []

def leave (u : Use) (outcome : Except Incident (List Value)) (c : Connection) :
    Progress × Connection :=
  let error := match outcome with
    | .ok _ => none
    | .error e => some e
  (.waiting (.leaving u outcome), c.signal (.exitSession error))

def closed (c : Connection) : Connection :=
  c.log .info "Closed Neo4j connection" [("uri", .value (.text c.target.uri))]

/-- Runs a task on from the point where it waits. -/
def resume (p : Phase) (reply : Reply) (prompt : Prompt) (c : Connection) :
    Progress × Connection :=
  match p, reply with
  | .verifying driver goal, .failed e =>
    (.waiting (.discarding driver goal e), c.signal (.close driver))
  | .verifying driver goal, _ => (c.hold driver).proceed goal prompt
  | .discarding _ goal _, .failed e => c.failGoal goal e
  | .discarding _ goal reason, _ => c.failGoal goal reason
  | .closing _, .failed e => (.finished (.error e), c)
  | .closing _, _ => (.finished (.ok .null), c.closed)
  | .entering u, .failed e => c.endUse u (.error e)
  | .entering .work, _ => (.waiting .working, c)
  | .entering (.query r), _ =>
    (.waiting (.sending r), c.signal (.send r.text (sentParams r.params)))
  | .working, .failed e => c.leave .work (.error e)
  | .working, .row _ => (.waiting .working, c)
  | .working, .done => c.leave .work (.ok [])
  | .sending r, .failed e => c.leave (.query r) (.error e)
  | .sending r, _ => (.waiting (.reading r []), c)
  | .reading r _, .failed e => c.leave (.query r) (.error e)
  | .reading r rows, .row v =>
    match readRow v with
    | .ok row => (.waiting (.reading r (rows ++ [row])), c)
    | .error fault => c.leave (.query r) (.error fault.incident)
  | .reading r rows, .done => c.leave (.query r) (.ok rows)
  | .leaving u _, .failed e => c.endUse u (.error e)
  | .leaving u outcome, _ => c.endUse u outcome

end GraphQuery.Connection
