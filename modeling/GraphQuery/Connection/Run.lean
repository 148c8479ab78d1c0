import GraphQuery.Connection.Task

/-!
# Runs of single tasks

A task that is alone on its connection runs to its end, the database answering at every point
where it waits.
-/
namespace GraphQuery.Connection

/-- How the database answers: the errors it raises, and the rows of any query. -/
structure Database where
  connectError : Option Incident := none
  runError : Option Incident := none
  rowError : Option Incident := none
  rows : List Value := []

namespace Database

def ending : Option Incident → Reply
  | some e => .failed e
  | none => .done

def reply (d : Database) : Phase → Reply
  | .verifying _ _ => ending d.connectError
  | .sending _ => ending d.runError
  | .reading _ rows =>
    match d.rows[rows.length]? with
    | some row => .row row
    | none => ending d.rowError
  | _ => .done

end Database

def drive (d : Database) : Nat → Progress × Connection → Progress × Connection
  | 0, state => state
  | fuel + 1, (.waiting p, c) => drive d fuel (c.resume p (d.reply p) {})
  | _ + 1, (.finished outcome, c) => (.finished outcome, c)

/-- Besides the rows a task waits at most for the connection, the session and their ends. -/
def complete (d : Database) (op : Operation) (c : Connection) :
    Except Incident Value × Connection :=
  match drive d (d.rows.length + 8) (c.start op {}) with
  | (.finished outcome, c) => (outcome, c)
  | (.waiting _, c) => (.ok .null, c)

end GraphQuery.Connection
