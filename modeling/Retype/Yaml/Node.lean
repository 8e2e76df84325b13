import Retype.Yaml.Token

/-! YAML documents as trees.  A reference is replaced by what its anchor names. -/

namespace Retype.Yaml

inductive Node
  | scalar (tag : Option String) (style : Style) (text : String)
  | sequence (items : List Node)
  | mapping (entries : List (Node × Node))

instance : Inhabited Node := ⟨.sequence []⟩

namespace Node

def empty : Node := .scalar none .plain ""

end Node

/-- An anchor, and what it names once its node is read. -/
structure Anchor where
  name : List Char
  number : Nat
  node : Node

structure Reading where
  tokens : List Token
  /-- The anchors read so far, latest first. -/
  anchors : List Anchor := []
  /-- The values of the handles of tags. -/
  handles : List (List Char × List Char) := []

abbrev Reader := StateT Reading Option

namespace Reader

def peek : Reader (Option Token) := fun s => some (s.tokens.head?, s)

def skip : Reader Unit := modify fun s => { s with tokens := s.tokens.drop 1 }

/-- Takes the next token if it is the one. -/
def accept (t : Token) : Reader Bool := do
  if (← peek) == some t then
    skip
    pure true
  else pure false

/-- Whether the next token is one of these, or there is none. -/
def isNext (ts : List Token) : Reader Bool := do
  match ← peek with
  | some t => pure (ts.contains t)
  | none => pure true

def standardHandles : List (List Char × List Char) :=
  [(['!'], ['!']), (['!', '!'], "tag:yaml.org,2002:".toList)]

def resolveTag (handle suffix : List Char) : Reader String := do
  if handle.isEmpty then pure (String.ofList suffix)
  else
    match ((← get).handles ++ standardHandles).find? (·.1 == handle) with
    | some (_, value) => pure (String.ofList (value ++ suffix))
    | none => failure

def anchor? : Reader (Option (List Char)) := do
  match ← peek with
  | some (.anchor name) => skip; pure (some name)
  | _ => pure none

def tag? : Reader (Option String) := do
  match ← peek with
  | some (.tag handle suffix) => skip; pure (some (← resolveTag handle suffix))
  | _ => pure none

def properties : Reader (Option (List Char) × Option String) := do
  match ← anchor? with
  | some name => pure (some name, ← tag?)
  | none =>
    match ← tag? with
    | some tag => pure (← anchor?, some tag)
    | none => pure (none, none)

/-- Notes an anchor whose node is still to be read. -/
def openAnchor (name : Option (List Char)) : Reader Nat := do
  let number := (← get).anchors.length
  match name with
  | some n => modify fun s => { s with anchors := ⟨n, number, .mapping []⟩ :: s.anchors }
  | none => pure ()
  pure number

def closeAnchor (name : Option (List Char)) (number : Nat) (node : Node) : Reader Unit :=
  if name.isSome then
    modify fun s => { s with anchors := s.anchors.map fun a => if a.number = number then { a with node := node } else a }
  else pure ()

def referent (name : List Char) : Reader Node := do
  match (← get).anchors.find? (·.name == name) with
  | some a => pure a.node
  | none => failure

mutual
/-- A node.  Block collections may be ruled out, and so may a sequence that is indented no further. -/
def node : (fuel : Nat) → (block flush : Bool) → Reader Node
  | 0, _, _ => failure
  | fuel + 1, block, flush => do
    match ← peek with
    | some (.reference name) => skip; referent name
    | _ =>
      let (name, tag) ← properties
      let number ← openAnchor name
      let content ← content fuel block flush (name.isSome || tag.isSome) tag
      closeAnchor name number content
      pure content

def content : (fuel : Nat) → (block flush described : Bool) → (tag : Option String) → Reader Node
  | 0, _, _, _, _ => failure
  | fuel + 1, block, flush, described, tag => do
    match ← peek with
    | some (.scalar style text) => do
      skip
      pure (.scalar (tag.filter (· != "!")) style (String.ofList text))
    | some .entry => if flush then return .sequence (← flushEntries fuel) else missing described tag
    | some .flowSequence => do skip; return .sequence (← flowEntries fuel true)
    | some .flowMapping => do skip; return .mapping (← flowPairs fuel true)
    | some .blockSequence =>
      if block then do skip; return .sequence (← blockEntries fuel) else missing described tag
    | some .blockMapping =>
      if block then do skip; return .mapping (← blockPairs fuel) else missing described tag
    | _ => missing described tag

def missing (described : Bool) (tag : Option String) : Reader Node :=
  if described then pure (.scalar tag .plain "") else failure

/-- A node, or an empty one before certain tokens and at the end. -/
def nodeUnless : (fuel : Nat) → (block flush : Bool) → (stops : List Token) → Reader Node
  | 0, _, _, _ => failure
  | fuel + 1, block, flush, stops => do
    if ← isNext stops then pure .empty else node fuel block flush

def blockEntries : (fuel : Nat) → Reader (List Node)
  | 0 => failure
  | fuel + 1 => do
    if ← accept .entry then
      let n ← nodeUnless fuel true false [.entry, .blockEnd]
      return n :: (← blockEntries fuel)
    else if ← accept .blockEnd then pure []
    else failure

/-- The entries of a sequence that is indented no further than the mapping around it. -/
def flushEntries : (fuel : Nat) → Reader (List Node)
  | 0 => failure
  | fuel + 1 => do
    if ← accept .entry then
      let n ← nodeUnless fuel true false [.entry, .key, .value, .blockEnd]
      return n :: (← flushEntries fuel)
    else pure []

def blockPairs : (fuel : Nat) → Reader (List (Node × Node))
  | 0 => failure
  | fuel + 1 => do
    if ← accept .blockEnd then pure []
    else
      let stops := [Token.key, .value, .blockEnd]
      let key ← if ← accept .key then nodeUnless fuel true true stops else failure
      let value ← if ← accept .value then nodeUnless fuel true true stops else pure .empty
      return (key, value) :: (← blockPairs fuel)

/-- Entries of a sequence in brackets; a pair stands for a mapping of one entry. -/
def flowEntries : (fuel : Nat) → (first : Bool) → Reader (List Node)
  | 0, _ => failure
  | fuel + 1, first => do
    if ← accept .flowSequenceEnd then pure []
    else
      if !first then
        if !(← accept .separator) then failure
      if ← accept .flowSequenceEnd then pure []
      else
        let n ← if ← accept .key then do pure (Node.mapping [← flowPair fuel]) else node fuel false false
        return n :: (← flowEntries fuel false)

/-- A pair in brackets after its key mark.  Without a key the next mark is passed over. -/
def flowPair : (fuel : Nat) → Reader (Node × Node)
  | 0 => failure
  | fuel + 1 => do
    let stops := [Token.separator, .flowSequenceEnd]
    let key ← do
      if ← isNext (.value :: stops) then
        skip
        pure .empty
      else node fuel false false
    let value ← if ← accept .value then nodeUnless fuel false false stops else pure .empty
    pure (key, value)

def flowPairs : (fuel : Nat) → (first : Bool) → Reader (List (Node × Node))
  | 0, _ => failure
  | fuel + 1, first => do
    if ← accept .flowMappingEnd then pure []
    else
      if !first then
        if !(← accept .separator) then failure
      if ← accept .flowMappingEnd then pure []
      else
        let stops := [Token.separator, .flowMappingEnd]
        let pair ← do
          if ← accept .key then
            let key ← nodeUnless fuel false false (.value :: stops)
            let value ← if ← accept .value then nodeUnless fuel false false stops else pure .empty
            pure (key, value)
          else pure (← node fuel false false, .empty)
        return pair :: (← flowPairs fuel false)
end

def isVersion : Token → Bool
  | .version _ _ => true
  | _ => false

/-- Directives up to the start of a document; whether there was one is told. -/
def directives : (fuel : Nat) → (seen : List Token) → Reader Unit
  | 0, _ => failure
  | fuel + 1, seen => do
    match ← peek with
    | some (.version major minor) =>
      if seen.any isVersion || major != 1 || (minor != 1 && minor != 2) then failure
      else do skip; directives fuel (.version major minor :: seen)
    | some (.tagPrefix handle value) =>
      if (← get).handles.any (·.1 == handle) then failure
      else do
        skip
        modify fun s => { s with handles := (handle, value) :: s.handles }
        directives fuel seen
    | _ => pure ()

def beginsExplicitly : Option Token → Bool
  | some (.version _ _) => true
  | some (.tagPrefix _ _) => true
  | some .documentStart => true
  | _ => false

def endsContent : Option Token → Bool
  | some .documentEnd => true
  | none => true
  | t => beginsExplicitly t

/-- The node of the only document; none if the text holds no document at all. -/
def document (fuel : Nat) : Reader (Option Node) := do
  match ← peek with
  | none => pure none
  | first =>
    if beginsExplicitly first then
      directives fuel []
      if !(← accept .documentStart) then failure
    let n ← if endsContent (← peek) then pure .empty else node fuel true false
    pure (some n)

end Reader

/-- The document of a text, or `none` inside if there is none; more than one is an error. -/
def parse? (text : String) : Option (Option Node) := do
  let tokens ← tokens? text
  let (n, s) ← (Reader.document (4 * tokens.length + 8)).run { tokens := tokens }
  if (s.tokens.dropWhile (· == .documentEnd)).isEmpty then some n else none

end Retype.Yaml
