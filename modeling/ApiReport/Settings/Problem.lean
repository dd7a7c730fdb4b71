import ApiReport.Settings

/-!
# Problems with settings

Key definitions: `Settings.Problem`, `Settings.Problem.text`, `Settings.Checked`,
`Settings.Checked.apply`, `Settings.Checked.all`. Key theorems: `Settings.Checked.problems_apply`,
`Settings.Checked.problems_all`.
-/
namespace ApiReport

namespace Settings

/-- What can be wrong with a value. -/
inductive Wrong where
  | notText (kind : String)
  | notList (kind : String)
  | blank
  | noScanRoot
  | noExtension
  | noBareName
  | unknownZone
  deriving DecidableEq, Repr

def Wrong.text : Wrong → String
  | notText kind => "Expected string, received " ++ kind
  | notList kind => "Expected array, received " ++ kind
  | blank => "String must contain at least 1 character(s)"
  | noScanRoot => "at least one scan root is required"
  | noExtension => "must be a file extension such as .php"
  | noBareName => "must be a bare file name"
  | unknownZone => "unknown IANA time zone"

/-- Something wrong with a setting, or with one of its items. -/
structure Problem where
  key : Key
  item : Option Nat
  wrong : Wrong
  deriving DecidableEq, Repr

/-- A problem as the name of its setting, the place in the list if it is one of a list, and what is
wrong. -/
def Problem.text (p : Problem) : String :=
  p.key.name ++ (p.item.map fun i => "." ++ toString i).getD "" ++ ": " ++ p.wrong.text

/-- A value that has been checked, or all problems with it. -/
inductive Checked (α : Type) where
  | fine (a : α)
  | faulty (problems : List Problem)

namespace Checked

variable {α β : Type}

def problems : Checked α → List Problem
  | fine _ => []
  | faulty ps => ps

/-- A checked function applied to a checked value; the problems of both are kept. -/
def apply : Checked (α → β) → Checked α → Checked β
  | fine f, fine a => fine (f a)
  | f, a => faulty (f.problems ++ a.problems)

/-- A list of checked values as a checked list. -/
def all : List (Checked α) → Checked (List α)
  | [] => fine []
  | c :: cs => ((fine List.cons).apply c).apply (all cs)

theorem problems_apply (f : Checked (α → β)) (a : Checked α) :
    (f.apply a).problems = f.problems ++ a.problems := by
  cases f <;> cases a <;> rfl

theorem problems_all : ∀ cs : List (Checked α), (all cs).problems = cs.flatMap problems
  | [] => rfl
  | c :: cs => by
    rw [all, problems_apply, problems_apply, problems_all cs, List.flatMap_cons]
    rfl

end Checked

end Settings

end ApiReport
