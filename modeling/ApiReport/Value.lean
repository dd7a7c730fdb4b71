import ApiReport.Number.Shortest
import ApiReport.Text.Units

/-!
# Document values

What a JSON or YAML document denotes. The entries of a mapping have distinct keys and stand in
enumeration order: first the keys that are whole numbers below 2³² - 1 in canonical decimal form,
ascending, then the others in the order in which they were first written. A key written twice keeps
its first position and its last value.

Tags of YAML ask for values that JSON has no form for: sets, ordered mappings, instants and the mark
of a merge. Nothing looks into one of them: only its kind counts, and whether it is an object.

Key definitions: `Special`, `Value`, `Value.kind`, `Value.isObject`, `indexOf?`, `Entries.put`,
`Entries.enumerate`, `Value.ofEntries`, `Value.isTruthy`, `Value.display`.
-/
namespace ApiReport

/-- The kinds of values that JSON has no form for. -/
inductive Special where
  | set
  | orderedMapping
  | instant
  | mergeMark
  deriving DecidableEq, Repr

/-- Sets, ordered mappings and instants are objects, though none of them has entries. -/
def Special.isObject : Special → Bool
  | set | orderedMapping | instant => true
  | mergeMark => false

/-- The name of a kind in messages. -/
def Special.kind : Special → String
  | set => "set"
  | orderedMapping => "map"
  | instant => "date"
  | mergeMark => "symbol"

theorem Special.kind_injective {x y : Special} (h : x.kind = y.kind) : x = y := by
  cases x <;> cases y <;> first | rfl | exact absurd h (by decide)

/-- What a document denotes. -/
inductive Value where
  | null
  | bool (b : Bool)
  | number (n : Number)
  | text (s : String)
  | list (items : List Value)
  | mapping (entries : List (String × Value))
  | special (s : Special)
  deriving Inhabited, Repr

/-- The number that a key denotes if it is the canonical decimal form of a number below 2³² - 1. -/
def indexOf? (key : String) : Option Nat :=
  match key.toList with
  | [] => none
  | ['0'] => some 0
  | c :: cs =>
    if c ≠ '0' && (c :: cs).all Char.isDigit && cs.length < 10 then
      let n := (c :: cs).foldl (fun n d => 10 * n + (d.toNat - 48)) 0
      if n < 4294967295 then some n else none
    else none

namespace Entries

/-- Sets the value of a key: in place if the key is there, else at the end. -/
def put {α : Type} (key : String) (value : α) : List (String × α) → List (String × α)
  | [] => [(key, value)]
  | (k, v) :: rest => if k = key then (k, value) :: rest else (k, v) :: put key value rest

/-- The entries left when pairs are written one after another. -/
def written {α : Type} (pairs : List (String × α)) : List (String × α) :=
  pairs.foldl (fun entries p => put p.1 p.2 entries) []

/-- The entries in enumeration order. -/
def enumerate {α : Type} (entries : List (String × α)) : List (String × α) :=
  let indexed := entries.filter fun p => (indexOf? p.1).isSome
  let named := entries.filter fun p => (indexOf? p.1).isNone
  indexed.mergeSort (fun a b => (indexOf? a.1).getD 0 ≤ (indexOf? b.1).getD 0) ++ named

end Entries

namespace Value

/-- The mapping that results from writing pairs one after another. -/
def ofEntries (pairs : List (String × Value)) : Value :=
  .mapping (Entries.enumerate (Entries.written pairs))

/-- What kind of value a value is. -/
def kind : Value → String
  | null => "null"
  | bool _ => "boolean"
  | number _ => "number"
  | text _ => "string"
  | list _ => "array"
  | mapping _ => "object"
  | special s => s.kind

/-- A special value is known by its kind. -/
theorem eq_special_of_kind {v : Value} {x : Special} (h : v.kind = x.kind) : v = special x := by
  cases v with
  | special y => exact congrArg special (Special.kind_injective h)
  | _ => cases x <;> simp [kind, Special.kind] at h

/-- Whether a value is an object and no list: a mapping, or one of the special objects. -/
def isObject : Value → Bool
  | mapping _ => true
  | special s => s.isObject
  | _ => false

/-- The entries of a mapping; no other value has entries. -/
def entries? : Value → Option (List (String × Value))
  | .mapping entries => some entries
  | _ => none

/-- The value of a key in a mapping. -/
def get? (key : String) : Value → Option Value
  | .mapping entries => entries.lookup key
  | _ => none

/-- Whether a value counts as something: null, false, zero, NaN and the empty text do not. -/
def isTruthy : Value → Bool
  | .null => false
  | .bool b => b
  | .number n => n.isTruthy
  | .text s => s != ""
  | .list _ | .mapping _ | .special _ => true

mutual

/-- A value as plain text: the items of a list separated by commas, null as an item left blank, any
mapping by one fixed text. A special value, which nothing shows, goes by its kind. -/
def display : Value → String
  | .null => "null"
  | .bool b => if b then "true" else "false"
  | .number n => n.text
  | .text s => s
  | .list items => displayItems items
  | .mapping _ => "[object Object]"
  | .special s => s.kind

/-- The items of a list for `display`. -/
def displayItems : List Value → String
  | [] => ""
  | [item] => displayItem item
  | item :: rest => displayItem item ++ "," ++ displayItems rest

/-- One item of a list for `display`. -/
def displayItem : Value → String
  | .null => ""
  | .bool b => if b then "true" else "false"
  | .number n => n.text
  | .text s => s
  | .list items => displayItems items
  | .mapping _ => "[object Object]"
  | .special s => s.kind

end

end Value

end ApiReport
