import GraphQuery.Guard.Layer

/-!
# Connections

A connection to a database holds at most one underlying driver, which is built when it is first
needed. The signals are the calls on the underlying drivers in the order in which they were made;
the drivers are numbered from one.
-/
namespace GraphQuery

structure Connection.Target where
  uri : String
  username : String
  password : String
  database : Option String
deriving DecidableEq, Inhabited

inductive Connection.Signal where
  | build (uri username password : String)
  | verify (driver : Nat)
  | openSession (driver : Nat) (database : Option String)
  | enterSession
  | send (text : String) (params : Value)
  | exitSession (error : Option Incident)
  | close (driver : Nat)

structure Connection where
  target : Connection.Target
  held : Option Nat
  built : Nat
  signals : List Connection.Signal
  journal : Guard.Journal

namespace Connection

def new (target : Target) : Connection := ⟨target, none, 0, [], {}⟩

def signal (s : Signal) (c : Connection) : Connection := { c with signals := c.signals ++ [s] }

def log (level : Level) (message : String) (fields : Log.Fields) (c : Connection) : Connection :=
  { c with journal := c.journal.log ⟨level, message, fields⟩ }

def textOrNull : Option String → Value
  | some s => .text s
  | none => .null

end Connection
end GraphQuery
