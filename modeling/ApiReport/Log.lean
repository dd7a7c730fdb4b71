import ApiReport.Value

/-!
# Log entries

Key definitions: `Log.Level`, `Log.Entry`, `Log.Stream`, `Log.Line`, `Log.labelled`,
`Log.arguments`, `Log.Entry.line`.
-/
namespace ApiReport.Log

/-- How grave an entry is. -/
inductive Level where
  | info
  | warn
  | error
  deriving DecidableEq, Repr

inductive Stream where
  | log
  | warn
  | error
  deriving DecidableEq, Repr

/-- The stream on which entries of a level are written. -/
def Level.stream : Level → Stream
  | info => .log
  | warn => .warn
  | error => .error

structure Entry where
  level : Level
  message : String
  deriving DecidableEq, Repr

structure Line where
  stream : Stream
  text : String
  deriving DecidableEq, Repr

/-- A message with the part of the program that it comes from. -/
def labelled (scope message : String) : String := "[" ++ scope ++ "] " ++ message

/-- What is written for a message with additional data; data that count as nothing are left out. -/
def arguments (scope message : String) (data : Option Value) : List Value :=
  .text (labelled scope message) :: (data.filter Value.isTruthy).toList

def Entry.line (scope : String) (e : Entry) : Line :=
  { stream := e.level.stream, text := labelled scope e.message }

end ApiReport.Log
