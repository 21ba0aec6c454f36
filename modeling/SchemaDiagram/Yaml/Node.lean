import SchemaDiagram.Yaml.Tag
import SchemaDiagram.Yaml.Token

/-!
The nodes of a YAML document. A node may stand in many places, also inside itself, so a node names
its parts by their numbers. Nodes are numbered in the order in which they start.
-/

namespace SchemaDiagram.Yaml

variable [Platform]

inductive Content where
  | scalar (text : List Char)
  | sequence (items : List Nat)
  | mapping (entries : List (Nat × Nat))
  deriving DecidableEq, Repr, Inhabited

structure Node where
  tag : Tag
  content : Content
  deriving DecidableEq, Repr, Inhabited

structure Document where
  nodes : Array Node
  root : Nat
  deriving DecidableEq, Repr

namespace Node

abbrev Handles := List (String × String)

def defaultHandles : Handles :=
  [("!", "!"), ("!!", Tag.repository)]

def tagName (handles : Handles) (t : WrittenTag) : Except Fault String :=
  match t.handle with
  | none => .ok t.suffix
  | some h => orMalformed ((handles.lookup h).map (· ++ t.suffix))

def isOpen (name : Option String) : Bool :=
  name.all (· = "!")

def scalarTag (name : Option String) (isPlain : Bool) (text : List Char) : Tag :=
  match name with
  | none => if isPlain then .ofPlain text else .str
  | some n => if n = "!" then .ofPlain text else .ofName n

def collectionTag (name : Option String) (fallback : Tag) : Tag :=
  match name with
  | none => fallback
  | some n => if n = "!" then fallback else .ofName n

def empty : Node :=
  ⟨.null, .scalar []⟩

def emptyUnder (name : Option String) : Node :=
  if isOpen name then empty else ⟨scalarTag name false [], .scalar []⟩

structure Assembly where
  tokens : List Token
  anchors : List (String × Nat) := []
  nodes : Array Node := #[]
  deriving DecidableEq, Repr

abbrev Assemble := StateT Assembly (Except Fault)

def peek : Assemble Token := do
  match (← get).tokens with
  | [] => throw .malformed
  | .broken f :: _ => throw f
  | t :: _ => return t

def advance : Assemble Unit :=
  modify fun a => { a with tokens := a.tokens.drop 1 }

def take (t : Token) : Assemble Bool := do
  if (← peek) = t then
    advance
    return true
  else return false

def require (t : Token) : Assemble Unit := do
  if !(← take t) then throw .malformed

def place (anchor : Option String) (n : Node) : Assemble Nat := do
  let a ← get
  let id := a.nodes.size
  match anchor with
  | none => set { a with nodes := a.nodes.push n }
  | some name =>
      if (a.anchors.lookup name).isSome then throw .malformed
      else set { a with nodes := a.nodes.push n, anchors := (name, id) :: a.anchors }
  return id

def placeEmpty : Assemble Nat :=
  place none empty

def fill (id : Nat) (content : Content) : Assemble Nat := do
  modify fun a => { a with nodes := a.nodes.modify id fun n => { n with content } }
  return id

def target (name : String) : Assemble Nat := do
  orMalformed ((← get).anchors.lookup name)

structure Properties where
  anchor : Option String := none
  tag : Option WrittenTag := none
  deriving DecidableEq, Repr

def properties : Assemble Properties := do
  match ← peek with
  | .anchor a =>
      advance
      match ← peek with
      | .tag t =>
          advance
          return { anchor := some a, tag := some t }
      | _ => return { anchor := some a }
  | .tag t =>
      advance
      match ← peek with
      | .anchor a =>
          advance
          return { anchor := some a, tag := some t }
      | _ => return { tag := some t }
  | _ => return {}

inductive Place where
  | flow
  | block
  | mappingBlock
  deriving DecidableEq, Repr

def endsBlockItem (t : Token) : Bool :=
  t = .item || t = .blockEnd

def endsBlockPart (t : Token) : Bool :=
  t = .key || t = .value || t = .blockEnd

def endsFlowPart (close t : Token) : Bool :=
  t = .flowSeparator || t = close

mutual

def read (handles : Handles) : Nat → Nat → Place → Assemble Nat
  | 0, _, _ => throw .malformed
  | _, 0, _ => throw .tooDeep
  | fuel + 1, depth + 1, position => do
      match ← peek with
      | .reference name =>
          advance
          target name
      | _ =>
          let props ← properties
          let name ← (props.tag.mapM (tagName handles) : Except Fault (Option String))
          let list := place props.anchor ⟨collectionTag name .sequence, .sequence []⟩
          let table := place props.anchor ⟨collectionTag name .mapping, .mapping []⟩
          match ← peek, position with
          | .scalar text isPlain, _ =>
              advance
              place props.anchor ⟨scalarTag name isPlain text, .scalar text⟩
          | .flowSequenceStart, _ =>
              let id ← list
              advance
              fill id (.sequence (← flowItems handles fuel depth true))
          | .flowMappingStart, _ =>
              let id ← table
              advance
              fill id (.mapping (← flowEntries handles fuel depth true))
          | .item, .mappingBlock =>
              let id ← list
              fill id (.sequence (← looseItems handles fuel depth))
          | .blockSequenceStart, .block | .blockSequenceStart, .mappingBlock =>
              let id ← list
              advance
              fill id (.sequence (← blockItems handles fuel depth))
          | .blockMappingStart, .block | .blockMappingStart, .mappingBlock =>
              let id ← table
              advance
              fill id (.mapping (← blockEntries handles fuel depth))
          | _, _ => if props = {} then throw .malformed else place props.anchor (emptyUnder name)

def blockItems (handles : Handles) : Nat → Nat → Assemble (List Nat)
  | 0, _ => throw .malformed
  | fuel + 1, depth => do
      if ← take .blockEnd then return []
      require .item
      let id ← if endsBlockItem (← peek) then placeEmpty else read handles fuel depth .block
      return id :: (← blockItems handles fuel depth)

def looseItems (handles : Handles) : Nat → Nat → Assemble (List Nat)
  | 0, _ => throw .malformed
  | fuel + 1, depth => do
      if !(← take .item) then return []
      let next ← peek
      let id ←
        if endsBlockItem next || endsBlockPart next then placeEmpty
        else read handles fuel depth .block
      return id :: (← looseItems handles fuel depth)

def blockEntries (handles : Handles) : Nat → Nat → Assemble (List (Nat × Nat))
  | 0, _ => throw .malformed
  | fuel + 1, depth => do
      if ← take .blockEnd then return []
      require .key
      let key ← blockPart handles fuel depth
      let value ← if ← take .value then blockPart handles fuel depth else placeEmpty
      return (key, value) :: (← blockEntries handles fuel depth)

def blockPart (handles : Handles) : Nat → Nat → Assemble Nat
  | 0, _ => throw .malformed
  | fuel + 1, depth => do
      if endsBlockPart (← peek) then placeEmpty else read handles fuel depth .mappingBlock

def flowItems (handles : Handles) : Nat → Nat → Bool → Assemble (List Nat)
  | 0, _, _ => throw .malformed
  | fuel + 1, depth, first => do
      if ← take .flowSequenceEnd then return []
      if !first then require .flowSeparator
      if ← take .flowSequenceEnd then return []
      let id ←
        if (← peek) = .key then flowPair handles fuel depth else read handles fuel depth .flow
      return id :: (← flowItems handles fuel depth false)

def flowPair (handles : Handles) : Nat → Nat → Assemble Nat
  | 0, _ => throw .malformed
  | _, 0 => throw .tooDeep
  | fuel + 1, depth + 1 => do
      let id ← place none ⟨.mapping, .mapping []⟩
      require .key
      let key ← flowPart handles fuel depth .flowSequenceEnd true
      let value ←
        if ← take .value then flowPart handles fuel depth .flowSequenceEnd false else placeEmpty
      fill id (.mapping [(key, value)])

def flowEntries (handles : Handles) : Nat → Nat → Bool → Assemble (List (Nat × Nat))
  | 0, _, _ => throw .malformed
  | fuel + 1, depth, first => do
      if ← take .flowMappingEnd then return []
      if !first then require .flowSeparator
      if ← take .flowMappingEnd then return []
      if ← take .key then
        let key ← flowPart handles fuel depth .flowMappingEnd true
        let value ←
          if ← take .value then flowPart handles fuel depth .flowMappingEnd false else placeEmpty
        return (key, value) :: (← flowEntries handles fuel depth false)
      else
        let key ← read handles fuel depth .flow
        let value ← placeEmpty
        return (key, value) :: (← flowEntries handles fuel depth false)

def flowPart (handles : Handles) : Nat → Nat → Token → Bool → Assemble Nat
  | 0, _, _, _ => throw .malformed
  | fuel + 1, depth, close, isKey => do
      let next ← peek
      if endsFlowPart close next || (isKey && next = .value) then placeEmpty
      else read handles fuel depth .flow

end

structure Directives where
  versionSeen : Bool := false
  handles : Handles := []
  deriving DecidableEq, Repr

def directives : Nat → Directives → Assemble Handles
  | 0, _ => throw .malformed
  | fuel + 1, d => do
      match ← peek with
      | .versionDirective major =>
          if d.versionSeen || major != 1 then throw .malformed
          advance
          directives fuel { d with versionSeen := true }
      | .tagDirective handle start =>
          if (d.handles.lookup handle).isSome then throw .malformed
          advance
          directives fuel { d with handles := (handle, start) :: d.handles }
      | .otherDirective =>
          advance
          directives fuel d
      | _ => return d.handles ++ defaultHandles

def startsDirective : Token → Bool
  | .versionDirective _ => true
  | .tagDirective _ _ => true
  | .otherDirective => true
  | _ => false

def opening (fuel : Nat) : Assemble Handles := do
  let handles ← directives fuel {}
  require .documentStart
  return handles

def skipDocumentEnds : Nat → Assemble Unit
  | 0 => return
  | fuel + 1 => do
      if ← take .documentEnd then skipDocumentEnds fuel

def marked (fuel : Nat) : Assemble Nat := do
  let handles ← opening fuel
  let next ← peek
  if startsDirective next || next = .documentStart || next = .documentEnd || next = .streamEnd then
    placeEmpty
  else read handles fuel Platform.nodeDepth .block

def single (fuel : Nat) : Assemble (Option Nat) := do
  let first ← peek
  if first = .streamEnd then return none
  let root ←
    if startsDirective first || first = .documentStart then marked fuel
    else read defaultHandles fuel Platform.nodeDepth .block
  skipDocumentEnds fuel
  if ← take .streamEnd then return some root
  discard (opening fuel)
  throw .malformed

end Node

def Document.ofTokens (ts : List Token) : Except Fault (Option Document) := do
  let (root, a) ← (Node.single (4 * ts.length + 4)).run { tokens := ts }
  return root.map fun root => { nodes := a.nodes, root }

end SchemaDiagram.Yaml
