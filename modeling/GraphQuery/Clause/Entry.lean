import GraphQuery.Clause.Kind
import GraphQuery.NodePattern
import GraphQuery.Text.Upper

/-!
# Entries of mapping arguments

A mapping argument pairs variables with values. Each kind of clause reads an entry in its own
way and turns it into texts, or rejects it. Conditions take every value and descend into nested
mappings, joining the keys on the way by dots. An integer of too many digits is not written,
neither in a text nor in the message about a rejected value.
-/
namespace GraphQuery.Clause

/-- The failure of a rejected value, which its message shows. -/
def rejectionFailure (kind : Kind) (v : Value) : Failure :=
  Failure.unknownArgument ("Invalid argument for " ++ kind.keyword ++ ": " ++ v.inspect) v
    (some kind.title) "query_builder" (some kind.keyword)

/-- A value that cannot be shown is rejected for that. -/
def rejection (kind : Kind) (v : Value) : Fault :=
  if v.isWritable then .failure (rejectionFailure kind v) else .tooManyDigits

def entryRejection (kind : Kind) (key : String) (v : Value) : Fault :=
  rejection kind (.map [(.text key, v)])

def labels? : List Value → Option (List String)
  | [] => some []
  | .text label :: rest => (labels? rest).map (label :: ·)
  | _ => none

/-- A text is one label, several are given in a list, and a mapping gives the properties. -/
def nodeTexts (kind : Kind) (key : String) (v : Value) : Except Fault (List String) :=
  match v with
  | .text label => .ok [NodePattern.text ⟨key, [label], []⟩]
  | .list items | .tuple items =>
    match labels? items with
    | some labels => .ok [NodePattern.text ⟨key, labels, []⟩]
    | none => .error (entryRejection kind key v)
  | .map entries => (NodePattern.build ⟨key, [], entries⟩).map fun text => [text]
  | v => .error (entryRejection kind key v)

/-- A progression becomes a closed range that ends in its last member. -/
def rangeText (key : String) (p : Progression) : String :=
  if p.isEmpty then key ++ " IN []"
  else key ++ " IN RANGE(" ++ Decimal.intText p.start ++ ", " ++ Decimal.intText p.last ++
    (if p.step = 1 then "" else ", " ++ Decimal.intText p.step) ++ ")"

/-- Whether the numbers of the closed range can be written. -/
def isListable (p : Progression) : Bool :=
  p.isEmpty || writable p.start && writable p.last && writable p.step

def rangeCondition (key : String) (p : Progression) : Except Fault String :=
  if isListable p then .ok (rangeText key p) else .error .tooManyDigits

mutual

def conditionTexts (key : String) : Value → Except Fault (List String)
  | .map entries => conditionEntryTexts key entries
  | .list items => (Value.list items).written [key ++ " IN " ++ Value.literal (.list items)]
  | .tuple items => (Value.tuple items).written [key ++ " IN " ++ Value.literal (.list items)]
  | .null => .ok [key ++ " IS NULL"]
  | .regex pattern => .ok [key ++ " =~ " ++ textLiteral pattern]
  | .range p => (rangeCondition key p).map fun text => [text]
  | .bool b => .ok [key ++ " = " ++ Value.literal (.bool b)]
  | .int n => (Value.int n).written [key ++ " = " ++ Value.literal (.int n)]
  | .float x => .ok [key ++ " = " ++ Value.literal (.float x)]
  | .text s => .ok [key ++ " = " ++ Value.literal (.text s)]
  | .bytes data => .ok [key ++ " = " ++ Value.literal (.bytes data)]
  | .foreign label => .ok [key ++ " = " ++ Value.literal (.foreign label)]
termination_by structural v => v

def conditionEntryTexts (key : String) : List (Value × Value) → Except Fault (List String)
  | [] => .ok []
  | (name, v) :: entries => do
    let name ← name.shown
    let texts ← conditionTexts (key ++ "." ++ name) v
    return texts ++ (← conditionEntryTexts key entries)
termination_by structural entries => entries

end

/-- With `replace` a mapping takes the place of all properties, without it of those it names. -/
def assignmentTexts (replace : Bool) (key : String) (v : Value) : Except Fault (List String) :=
  match v with
  | .text label => .ok [key ++ ":" ++ label]
  | .map entries =>
    (Value.map entries).written
      (if replace then [key ++ " = " ++ propertyMap entries]
      else entries.map fun e => key ++ "." ++ e.1.display ++ " = " ++ e.2.literal)
  | v => .error (entryRejection .assignment key v)

def propertyNames (kind : Kind) (key : String) (v : Value) : Except Fault (List String) :=
  match v with
  | .text name => .ok [key ++ "." ++ name]
  | .list items | .tuple items =>
    (Value.list items).written (items.map fun item => key ++ "." ++ item.display)
  | v => .error (entryRejection kind key v)

mutual

def orderTexts (key : String) : Value → Except Fault (List String)
  | .text name => .ok [key ++ "." ++ name]
  | .map entries =>
    (Value.map entries).written
      (entries.map fun e => key ++ "." ++ e.1.display ++ " " ++ Text.upper e.2.display)
  | .list items => orderItemTexts key items
  | .tuple items => orderItemTexts key items
  | .null => .error (entryRejection .order key .null)
  | .bool b => .error (entryRejection .order key (.bool b))
  | .int n => .error (entryRejection .order key (.int n))
  | .float x => .error (entryRejection .order key (.float x))
  | .range p => .error (entryRejection .order key (.range p))
  | .regex pattern => .error (entryRejection .order key (.regex pattern))
  | .bytes data => .error (entryRejection .order key (.bytes data))
  | .foreign label => .error (entryRejection .order key (.foreign label))
termination_by structural v => v

def orderItemTexts (key : String) : List Value → Except Fault (List String)
  | [] => .ok []
  | item :: items =>
    match orderTexts key item with
    | .error e => .error e
    | .ok texts =>
      match orderItemTexts key items with
      | .error e => .error e
      | .ok rest => .ok (texts ++ rest)
termination_by structural items => items

end

def entryTexts (kind : Kind) (replace : Bool) (key : String) (v : Value) :
    Except Fault (List String) :=
  match kind with
  | .pattern | .optionalPattern | .creation | .uniqueCreation | .merge => nodeTexts kind key v
  | .condition => conditionTexts key v
  | .assignment => assignmentTexts replace key v
  | .removal | .result => propertyNames kind key v
  | .order => orderTexts key v
  | .start =>
    match v with
    | .text s => .ok [key ++ " = " ++ s]
    | v => .error (entryRejection kind key v)
  | .carry =>
    match v with
    | .text s => .ok [s ++ " AS " ++ key]
    | v => .error (entryRejection kind key v)
  | .unwind =>
    match v with
    | .text s => .ok [s ++ " AS " ++ key]
    | .list items | .tuple items =>
      (Value.list items).written [Value.literal (.list items) ++ " AS " ++ key]
    | v => .error (entryRejection kind key v)
  | .hint | .deletion | .limit | .skip => .error (entryRejection kind key v)

def entriesTexts (kind : Kind) (replace : Bool) :
    List (Value × Value) → Except Fault (List String)
  | [] => .ok []
  | (key, v) :: entries => do
    let name ← key.shown
    let texts ← entryTexts kind replace name v
    return texts ++ (← entriesTexts kind replace entries)

end GraphQuery.Clause
