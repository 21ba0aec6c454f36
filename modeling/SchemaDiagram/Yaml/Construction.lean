import SchemaDiagram.Yaml.Node
import SchemaDiagram.Yaml.ScalarValue

/-!
What the nodes of a document stand for. A scalar has its value at once; a collection that is met is
built when its turn comes, after those that were met before it. So a collection may hold itself, and
of two faults the one further out counts.
-/

namespace SchemaDiagram.Yaml

variable [Platform]

inductive Meaning where
  | value (v : Value)
  | list (items : List Nat)
  | map (entries : List (Nat × Nat))
  | set (isEmpty : Bool)
  | pairs (count : Nat)
  deriving Repr, Inhabited

structure Construction where
  nodes : Array Node
  meanings : Array (Option Meaning)
  met : Array Nat := #[]
  deriving Repr

namespace Construction

abbrev Construct := StateT Construction (Except Fault)

def nodeIn (nodes : Array Node) (id : Nat) : Node :=
  nodes[id]?.getD Node.empty

def node (id : Nat) : Construct Node := do
  return nodeIn (← get).nodes id

def setEntries (id : Nat) (entries : List (Nat × Nat)) : Construct Unit :=
  modify fun c =>
    { c with nodes := c.nodes.modify id fun n => { n with content := .mapping entries } }

def setMeaning (id : Nat) (m : Meaning) : Construct Unit :=
  modify fun c => { c with meanings := c.meanings.setIfInBounds id (some m) }

def scalarText (nodes : Array Node) : Nat → Nat → Except Fault (List Char)
  | 0, _ => .error .tooDeep
  | fuel + 1, id =>
      match (nodeIn nodes id).content with
      | .scalar text => .ok text
      | .sequence _ => .error .malformed
      | .mapping entries =>
          match entries.find? fun e => (nodeIn nodes e.1).tag = .value with
          | some (_, v) => scalarText nodes fuel v
          | none => .error .malformed

def isScalar : Content → Bool
  | .scalar _ => true
  | _ => false

def scalarValue (nodes : Array Node) (id : Nat) : Except Fault Value := do
  let n := nodeIn nodes id
  let text ← scalarText nodes Platform.chainLength id
  if n.tag = .timestamp && !isScalar n.content then throw .dateInMapping
  ScalarValue.ofText n.tag text

def entriesOf (n : Node) : List (Nat × Nat) :=
  match n.content with
  | .mapping entries => entries
  | _ => []

def isMapping (n : Node) : Bool :=
  match n.content with
  | .mapping _ => true
  | _ => false

def retagKeys (nodes : Array Node) (entries : List (Nat × Nat)) : Array Node :=
  entries.foldl
    (fun nodes e => nodes.modify e.1 fun n => if n.tag = .value then { n with tag := .str } else n)
    nodes

/-- Puts the entries that a mapping merges before its own, those of the last of several mappings
first. The fuel bounds the merges of the document, and `depth` the merges inside each other. -/
def flatten (merged : List (Nat × Nat)) : Nat → Nat → Nat → Construct (List (Nat × Nat))
  | 0, _, _ => throw .malformed
  | _, 0, _ => throw .tooDeep
  | fuel + 1, depth + 1, id => do
      let nodes := (← get).nodes
      let entries := entriesOf (nodeIn nodes id)
      let own := entries.takeWhile fun e => (nodeIn nodes e.1).tag != .merge
      match entries.drop own.length with
      | [] =>
          let entries := merged ++ entries
          modify fun c => { c with nodes := retagKeys c.nodes entries }
          setEntries id entries
          return entries
      | (_, source) :: rest =>
          setEntries id (own ++ rest)
          let from? (id : Nat) : Construct (List (Nat × Nat)) := do
            if isMapping (← node id) then flatten [] fuel depth id else throw .malformed
          let more ← match (← node source).content with
            | .sequence items => do
                let parts ← items.mapM from?
                pure parts.reverse.flatten
            | _ => from? source
          flatten (merged ++ more) fuel (depth + 1) id

def isCollectionTag (tag : Tag) : Bool :=
  tag = .sequence || tag = .mapping || tag = .set || tag = .orderedMap || tag = .pairs

def construct (id : Nat) : Construct Unit := do
  let c ← get
  if (c.meanings[id]?.bind fun m => m).isSome then return
  if isCollectionTag (nodeIn c.nodes id).tag then
    modify fun c => { c with met := c.met.push id }
    setMeaning id (.list [])
  else setMeaning id (.value (← scalarValue c.nodes id))

def constructEntry (entry : Nat × Nat) : Construct Unit := do
  construct entry.1
  if isCollectionTag (← node entry.1).tag then throw .malformed
  construct entry.2

def constructEntries (bound id : Nat) : Construct (List (Nat × Nat)) := do
  let entries ← flatten [] bound Platform.chainLength id
  entries.forM constructEntry
  return entries

def constructPair (id : Nat) : Construct Unit := do
  match (← node id).content with
  | .mapping [(k, v)] =>
      construct k
      construct v
  | _ => throw .malformed

def complete (bound id : Nat) : Construct Unit := do
  let n ← node id
  match n.tag, n.content with
  | .sequence, .sequence items =>
      items.forM construct
      setMeaning id (.list items)
  | .mapping, .mapping _ => setMeaning id (.map (← constructEntries bound id))
  | .set, .mapping _ => setMeaning id (.set (← constructEntries bound id).isEmpty)
  | .orderedMap, .sequence items | .pairs, .sequence items =>
      items.forM constructPair
      setMeaning id (.pairs items.length)
  | _, _ => throw .malformed

def completeFrom (bound : Nat) : Nat → Nat → Construct Unit
  | 0, _ => return
  | fuel + 1, turn => do
      match (← get).met[turn]? with
      | none => return
      | some id =>
          complete bound id
          completeFrom bound fuel (turn + 1)

def entryBound (nodes : Array Node) : Nat :=
  nodes.foldl (fun n node => n + (entriesOf node).length) 1

def ofDocument (d : Document) : Except Fault Construction := do
  let start : Construction := { nodes := d.nodes, meanings := d.nodes.map fun _ => none }
  let work : Construct Unit := do
    construct d.root
    completeFrom (entryBound d.nodes) d.nodes.size 0
  let (_, c) ← work.run start
  return c

end Construction

namespace Meaning

def toValue (values : Array Value) : Meaning → Value
  | .value v => v
  | .list items => .list (items.map (seen values))
  | .map entries => .map (entries.map fun (k, v) => (seen values k, seen values v))
  | .set isEmpty => .set isEmpty
  | .pairs count => .pairs count
where
  seen (values : Array Value) (id : Nat) : Value :=
    values[id]?.getD .unseen

def values (meanings : Array (Option Meaning)) : Nat → Array Value
  | 0 => meanings.map fun _ => .unseen
  | depth + 1 =>
      let inner := values meanings depth
      meanings.map fun m => (m.map (toValue inner)).getD .unseen

end Meaning

def load (depth : Nat) (cs : List Char) : Except Fault Value := do
  match ← Document.ofTokens (Token.ofText cs) with
  | none => return .null
  | some d =>
      let c ← Construction.ofDocument d
      return (Meaning.values c.meanings depth)[d.root]?.getD .null

end SchemaDiagram.Yaml
