import ApiReport.Text.Lower

/-!
# HTTP verbs

The five verbs that operations and registered routes may have, with their spelling as a key (lower
case) and as a method (upper case).

Key definitions: `Verb`, `Verb.ofKey?`, `Verb.ofAnyCase?`. Key theorems: `Verb.ofKey?_key`,
`Verb.ofKey?_eq_some`.
-/
namespace ApiReport

inductive Verb where
  | get
  | post
  | put
  | patch
  | delete
  deriving DecidableEq, Repr

namespace Verb

/-- Every verb, in the order in which they are documented. -/
def all : List Verb := [get, post, put, patch, delete]

def key : Verb → String
  | get => "get"
  | post => "post"
  | put => "put"
  | patch => "patch"
  | delete => "delete"

def method : Verb → String
  | get => "GET"
  | post => "POST"
  | put => "PUT"
  | patch => "PATCH"
  | delete => "DELETE"

def ofKey? (s : String) : Option Verb := all.find? fun v => v.key = s

theorem ofKey?_key (v : Verb) : ofKey? v.key = some v := by cases v <;> rfl

theorem ofKey?_eq_some {s : String} {v : Verb} (h : ofKey? s = some v) : s = v.key := by
  unfold ofKey? at h
  have hv := List.find?_some h
  exact (of_decide_eq_true hv).symm

/-- A text in lower case as far as ASCII letters go. -/
def asciiLower (s : String) : String := String.ofList (s.toList.map Char.toLower)

/-- The verb whose key is the lower case of a text. -/
def ofAnyCase? (s : String) : Option Verb := ofKey? (String.ofList (Text.lowercase s.toList))

end Verb

end ApiReport
