import ApiReport.Yaml.Node.Key

/-!
# What nodes denote

A node denotes a document value. An alias denotes the value of the last node before it that has its
anchor; the aliases of one anchor may not multiply into more than a hundred copies. A node that
contains itself would denote an object without end: it is not covered, and refused. An entry without
a value has the value null. Sets and ordered mappings go by their kind, whatever they hold.

Key definitions: `Anchored`, `AnchorTable`, `Node.denote`.
-/
namespace ApiReport.Yaml

/-- An anchored node: its value once it is complete, how often it has been used, how many copies one
use makes (zero while not known), the anchored nodes that it refers to, and whether it holds a
scalar. -/
structure Anchored where
  value : Option Value := none
  uses : Nat := 1
  copies : Nat := 0
  refers : List Nat := []
  hasScalar : Bool := false

/-- The anchored nodes so far, and the last node of each name. -/
structure AnchorTable where
  names : List (String × Nat) := []
  nodes : Array Anchored := #[]

/-- A value, the anchored nodes that it refers to, and whether it holds a scalar. -/
structure Meaning where
  value : Value
  refers : List Nat := []
  hasScalar : Bool := false

namespace AnchorTable

/-- Begins an anchored node. -/
def enter (t : AnchorTable) : Option String → AnchorTable × Option Nat
  | none => (t, none)
  | some name =>
    ({ names := (name, t.nodes.size) :: t.names, nodes := t.nodes.push {} }, some t.nodes.size)

def leave (t : AnchorTable) (id : Option Nat) (d : Meaning) : AnchorTable :=
  match id with
  | none => t
  | some id => { t with nodes := t.nodes.modify id fun a =>
      { a with value := some d.value, refers := d.refers, hasScalar := d.hasScalar } }

/-- How many copies one use of a node makes, by the nodes that it refers to. -/
def copiesOf (t : AnchorTable) (a : Anchored) : Nat :=
  a.refers.foldl (fun n id => max n ((t.nodes[id]?.map fun b => b.uses * b.copies).getD 0))
    (if a.hasScalar then 1 else 0)

/-- Uses the node that a name stands for. -/
def use (t : AnchorTable) (name : String) : Except Fault (Meaning × AnchorTable) :=
  match t.names.lookup name with
  | none => .error ⟨"alias " ++ name ++ " has no anchor before it", 0⟩
  | some id =>
    match t.nodes[id]? with
    | none => .error ⟨"alias " ++ name ++ " has no anchor before it", 0⟩
    | some a =>
      match a.value with
      | none => .error ⟨"node contains itself under the alias " ++ name, 0⟩
      | some v =>
        let a := { a with uses := a.uses + 1 }
        let a := if a.copies = 0 then { a with copies := t.copiesOf a } else a
        if 100 < a.uses * a.copies then .error ⟨"too many copies under the alias " ++ name, 0⟩
        else .ok ({ value := v, refers := [id] }, { t with nodes := t.nodes.modify id fun _ => a })

end AnchorTable

/-- Entries with the texts of their keys, from what keys and values denote. -/
def keyed (entries : List (Node × Option Node)) (pairs : List (Value × Value)) :
    Except Fault (List (String × Value)) :=
  (entries.zip pairs).mapM fun (e, k, v) => return (← e.1.keyText k, v)

/-- What a mapping denotes: a set if its tag says so. -/
def mappingValue (label : Label) (entries : List (Node × Option Node))
    (pairs : List (Value × Value)) : Except Fault Value :=
  if label.tag = some (coreTag "set") then .ok (.special .set)
  else (keyed entries pairs).map Value.ofEntries

/-- Whether a scalar is repeated among some keys. -/
def repeatsScalar : List Value → Bool
  | [] => false
  | k :: keys => keys.any (sameScalar k) || repeatsScalar keys

/-- What a sequence of pairs denotes: an ordered mapping if its tag says so, else the list of
mappings with one entry each. -/
def pairsValue (label : Label) (entries : List (Node × Option Node))
    (pairs : List (Value × Value)) : Except Fault Value :=
  if label.tag = some (coreTag "omap") then
    if repeatsScalar (pairs.map Prod.fst) then
      .error ⟨"ordered maps must not include duplicate keys", 0⟩
    else .ok (.special .orderedMapping)
  else (keyed entries pairs).map fun es => .list (es.map fun e => .mapping [e])

mutual

/-- The value that a node denotes. -/
def Node.denote (t : AnchorTable) : Node → Except Fault (Meaning × AnchorTable)
  | .alias name => t.use name
  | .scalar label _ _ v => do
    let (t, id) := t.enter label.anchor
    let d : Meaning := { value := v, hasScalar := true }
    return (d, t.leave id d)
  | .mapping label entries => do
    let (t, id) := t.enter label.anchor
    let (pairs, d, t) ← denoteEntries t entries
    let v ← mappingValue label entries pairs
    let d := { d with value := v }
    return (d, t.leave id d)
  | .sequence label items => do
    let (t, id) := t.enter label.anchor
    let (values, d, t) ← denoteItems t items
    let d := { d with value := .list values }
    return (d, t.leave id d)
  | .pairs label entries => do
    let (t, id) := t.enter label.anchor
    let (pairs, d, t) ← denoteEntries t entries
    let v ← pairsValue label entries pairs
    let d := { d with value := v }
    return (d, t.leave id d)

/-- The values of some nodes, and what they refer to and hold together. -/
def denoteItems (t : AnchorTable) : List Node → Except Fault (List Value × Meaning × AnchorTable)
  | [] => .ok ([], { value := .null }, t)
  | node :: rest => do
    let (d, t) ← node.denote t
    let (values, e, t) ← denoteItems t rest
    return (d.value :: values,
      { value := .null, refers := d.refers ++ e.refers, hasScalar := d.hasScalar || e.hasScalar },
      t)

/-- The keys and values of some entries, and what they refer to and hold together. -/
def denoteEntries (t : AnchorTable) :
    List (Node × Option Node) → Except Fault (List (Value × Value) × Meaning × AnchorTable)
  | [] => .ok ([], { value := .null }, t)
  | (key, node) :: rest => do
    let (k, t) ← key.denote t
    let (d, t) ← match node with
      | some node => node.denote t
      | none => .ok ({ value := .null }, t)
    let (pairs, e, t) ← denoteEntries t rest
    return ((k.value, d.value) :: pairs,
      { value := .null
        refers := k.refers ++ d.refers ++ e.refers
        hasScalar := k.hasScalar || d.hasScalar || e.hasScalar }, t)

end

end ApiReport.Yaml
