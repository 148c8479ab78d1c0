/-!
# Joining texts
-/
namespace GraphQuery.Text

/-- The parts in order, with `separator` between neighbours. -/
def join (separator : String) : List String → String
  | [] => ""
  | [part] => part
  | part :: rest => part ++ separator ++ join separator rest

end GraphQuery.Text
