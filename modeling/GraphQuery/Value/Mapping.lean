import GraphQuery.Value.Order

/-!
# Mappings

Two keys are the same when they have the same value: numbers are compared across their types and
exactly, tuples member by member. A number that is not one, and a foreign object, are the same as
no other. A later entry under a present key keeps the key and its place and replaces the value.
-/
namespace GraphQuery

/-- The integer and the floating-point number have the same value. -/
def intIsFloat (n : Int) (x : Float) : Bool := compareToFloat? n x == some .eq

def Progression.same (p q : Progression) : Bool :=
  p.size == q.size && (p.size == 0 || (p.start == q.start && (p.size == 1 || p.step == q.step)))

mutual

def Value.same : Value → Value → Bool
  | .null, .null => true
  | .bool a, .bool b => a == b
  | .bool a, .int n => n == a.toInt
  | .bool a, .float x => intIsFloat a.toInt x
  | .int n, .bool b => n == b.toInt
  | .int m, .int n => m == n
  | .int n, .float x => intIsFloat n x
  | .float x, .bool b => intIsFloat b.toInt x
  | .float x, .int n => intIsFloat n x
  | .float x, .float y => x == y
  | .text s, .text t => s == t
  | .list xs, .list ys => sameItems xs ys
  | .tuple xs, .tuple ys => sameItems xs ys
  | .range p, .range q => p.same q
  | .regex p, .regex q => p == q
  | .bytes a, .bytes b => a == b
  | _, _ => false
termination_by structural v => v

def sameItems : List Value → List Value → Bool
  | [], [] => true
  | x :: xs, y :: ys => x.same y && sameItems xs ys
  | _, _ => false
termination_by structural vs => vs

end

def putEntry (key value : Value) : List (Value × Value) → List (Value × Value)
  | [] => [(key, value)]
  | entry :: entries =>
    if entry.1.same key then (entry.1, value) :: entries else entry :: putEntry key value entries

mutual

/-- The type that keeps a value from being a key: lists and mappings are none, nor are tuples that
hold one. -/
def Value.unhashable? : Value → Option String
  | .list _ => some "list"
  | .map _ => some "dict"
  | .tuple items => unhashableItem? items
  | .null => none
  | .bool _ => none
  | .int _ => none
  | .float _ => none
  | .text _ => none
  | .range _ => none
  | .regex _ => none
  | .bytes _ => none
  | .foreign _ => none
termination_by structural v => v

def unhashableItem? : List Value → Option String
  | [] => none
  | v :: vs =>
    match v.unhashable? with
    | some type => some type
    | none => unhashableItem? vs
termination_by structural vs => vs

end

mutual

/-- All keys of all mappings within a value can be keys. -/
def Value.wellKeyed : Value → Bool
  | .list items => wellKeyedItems items
  | .tuple items => wellKeyedItems items
  | .map entries => wellKeyedEntries entries
  | .null => true
  | .bool _ => true
  | .int _ => true
  | .float _ => true
  | .text _ => true
  | .range _ => true
  | .regex _ => true
  | .bytes _ => true
  | .foreign _ => true
termination_by structural v => v

def wellKeyedItems : List Value → Bool
  | [] => true
  | v :: vs => v.wellKeyed && wellKeyedItems vs
termination_by structural vs => vs

def wellKeyedEntries : List (Value × Value) → Bool
  | [] => true
  | (key, v) :: entries =>
    key.unhashable?.isNone && key.wellKeyed && v.wellKeyed && wellKeyedEntries entries
termination_by structural entries => entries

end

/-- The mapping that arises by entering the pairs in order. -/
def Value.ofPairs (pairs : List (Value × Value)) : Value :=
  .map (pairs.foldl (fun entries pair => putEntry pair.1 pair.2 entries) [])

end GraphQuery
