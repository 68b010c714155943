import ClassSchema.Table
import ClassSchema.Yaml.Node

/-! # Nodes from tokens

The tokens of one document are put together into a linked node. An anchor is numbered by how many
distinct names were anchored before it, and an alias must name an anchor that came before. Where the
tokens break off or do not fit, the node holds a broken node at that place and nothing after it.
-/

namespace ClassSchema.Yaml

/-- What is left of the tokens, and the number of each anchor name met so far. -/
structure Position where
  tokens : List Token
  anchors : Table Nat

namespace Position

/-- The position with other tokens left. -/
def leaving (position : Position) (tokens : List Token) : Position :=
  { position with tokens := tokens }

/-- The position once an anchor was met, if one was. -/
def withAnchor (position : Position) : Option String → Position
  | none => position
  | some name => { position with anchors := position.anchors.set name position.anchors.length }

/-- The node, anchored if it has an anchor. -/
def anchorNode (position : Position) (anchor : Option String) (node : LinkedNode) : LinkedNode :=
  if anchor.isSome then .anchored position.anchors.length node else node

end Position

/-- The tag handles that need no directive. -/
def defaultHandles : Table String :=
  [("!", "!"), ("!!", "tag:yaml.org,2002:")]

/-- The tag handles that the directives at the front define; a second version, an unknown version and
a handle defined twice are refused. -/
def directives? (versionSeen : Bool) (handles : Table String) :
    List Token → Option (Table String × List Token)
  | .versionDirective major minor :: rest =>
    if versionSeen || major != 1 || (minor != 1 && minor != 2) then none
    else directives? true handles rest
  | .tagDirective handle expansion :: rest =>
    if handles.has handle then none else directives? versionSeen (handles ++ [(handle, expansion)]) rest
  | rest => some (handles ++ defaultHandles, rest)

/-- The full tag for a handle and a suffix; an unknown handle is refused. -/
def fullTag? (handles : Table String) (handle suffix : String) : Option String :=
  if handle.isEmpty then some suffix else (handles.get? handle).map (· ++ suffix)

/-- The anchor and the tag of a node. -/
structure Properties where
  anchor : Option String
  tag : Option String

/-- Whether a node has an anchor or a tag. -/
def Properties.isPresent (properties : Properties) : Bool :=
  properties.anchor.isSome || properties.tag.isSome

/-- The anchor and the tag at the front, in either order. -/
def properties? (handles : Table String) : List Token → Option (Properties × List Token)
  | .anchor name :: .tag handle suffix :: rest =>
    (fullTag? handles handle suffix).map fun tag => (⟨some name, some tag⟩, rest)
  | .anchor name :: rest => some (⟨some name, none⟩, rest)
  | .tag handle suffix :: .anchor name :: rest =>
    (fullTag? handles handle suffix).map fun tag => (⟨some name, some tag⟩, rest)
  | .tag handle suffix :: rest =>
    (fullTag? handles handle suffix).map fun tag => (⟨none, some tag⟩, rest)
  | rest => some (⟨none, none⟩, rest)

/-- The tag of a written scalar: a lone exclamation mark is none. -/
def scalarTag (tag : Option String) : Option String :=
  tag.filter (· != "!")

mutual

/-- Read a node; `inBlock` says whether a block collection may start here, `indentless` whether a block
sequence may stand at the indentation of its key. -/
def readNode (fuel : Nat) (handles : Table String) (inBlock indentless : Bool) (position : Position) :
    LinkedNode × Option Position :=
  match fuel, position.tokens with
  | _ + 1, .alias name :: rest =>
    match position.anchors.get? name with
    | some id => (.alias id, some (position.leaving rest))
    | none => (.broken, none)
  | fuel + 1, tokens =>
    match properties? handles tokens with
    | none => (.broken, none)
    | some (properties, rest) =>
      let anchored (node : LinkedNode) := position.anchorNode properties.anchor node
      let inside (rest : List Token) := (position.withAnchor properties.anchor).leaving rest
      let tag := properties.tag
      match rest with
      | .scalar style text :: rest =>
        (anchored (.scalar (scalarTag tag) style text), some (inside rest))
      | .flowSequenceStart :: rest =>
        let (items, next) := readFlowItems fuel handles true (inside rest)
        (anchored (.sequence tag items), next)
      | .flowMappingStart :: rest =>
        let (entries, next) := readFlowEntries fuel handles true (inside rest)
        (anchored (.mapping tag entries), next)
      | token :: after =>
        if indentless && token == .blockEntry then
          let (items, next) := readIndentlessItems fuel handles (inside (token :: after))
          (anchored (.sequence tag items), next)
        else if inBlock && token == .blockSequenceStart then
          let (items, next) := readBlockItems fuel handles (inside after)
          (anchored (.sequence tag items), next)
        else if inBlock && token == .blockMappingStart then
          let (entries, next) := readBlockEntries fuel handles (inside after)
          (anchored (.mapping tag entries), next)
        else if properties.isPresent then
          (anchored (.scalar tag .plain ""), some (inside (token :: after)))
        else (.broken, none)
      | [] => (.broken, none)
  | _, _ => (.broken, none)

/-- Read a node unless one of the tokens in `closers` comes next, where an empty scalar stands. -/
def readNodeUnless (fuel : Nat) (handles : Table String) (closers : List Token)
    (inBlock indentless : Bool) (position : Position) : LinkedNode × Option Position :=
  match fuel, position.tokens with
  | fuel + 1, token :: rest =>
    if closers.contains token then (.empty, some (position.leaving (token :: rest)))
    else readNode fuel handles inBlock indentless position
  | _, _ => (.broken, none)

/-- Read the items of a block sequence and its end. -/
def readBlockItems (fuel : Nat) (handles : Table String) (position : Position) :
    List LinkedNode × Option Position :=
  match fuel, position.tokens with
  | fuel + 1, .blockEntry :: rest =>
    match readNodeUnless fuel handles [.blockEntry, .blockEnd] true false (position.leaving rest) with
    | (item, none) => ([item], none)
    | (item, some next) =>
      let (items, next) := readBlockItems fuel handles next
      (item :: items, next)
  | _ + 1, .blockEnd :: rest => ([], some (position.leaving rest))
  | _, _ => ([.broken], none)

/-- Read the items of a block sequence at the indentation of its key. -/
def readIndentlessItems (fuel : Nat) (handles : Table String) (position : Position) :
    List LinkedNode × Option Position :=
  match fuel, position.tokens with
  | fuel + 1, .blockEntry :: rest =>
    match readNodeUnless fuel handles [.blockEntry, .key, .value, .blockEnd] true false
        (position.leaving rest) with
    | (item, none) => ([item], none)
    | (item, some next) =>
      let (items, next) := readIndentlessItems fuel handles next
      (item :: items, next)
  | _ + 1, _ :: _ => ([], some position)
  | _, _ => ([.broken], none)

/-- Read the entries of a block mapping and its end. -/
def readBlockEntries (fuel : Nat) (handles : Table String) (position : Position) :
    List (LinkedNode × LinkedNode) × Option Position :=
  match fuel, position.tokens with
  | fuel + 1, .key :: rest =>
    match readNodeUnless fuel handles [.key, .value, .blockEnd] true true (position.leaving rest) with
    | (key, none) => ([(key, .broken)], none)
    | (key, some next) => readBlockValue fuel handles key next
  | _ + 1, .blockEnd :: rest => ([], some (position.leaving rest))
  | _, _ => ([(.broken, .broken)], none)

/-- Read the value of a key of a block mapping, and the further entries. -/
def readBlockValue (fuel : Nat) (handles : Table String) (key : LinkedNode) (position : Position) :
    List (LinkedNode × LinkedNode) × Option Position :=
  match fuel, position.tokens with
  | fuel + 1, .value :: rest =>
    match readNodeUnless fuel handles [.key, .value, .blockEnd] true true (position.leaving rest) with
    | (value, none) => ([(key, value)], none)
    | (value, some next) =>
      let (entries, next) := readBlockEntries fuel handles next
      ((key, value) :: entries, next)
  | fuel + 1, _ :: _ =>
    let (entries, next) := readBlockEntries fuel handles position
    ((key, .empty) :: entries, next)
  | _, _ => ([(key, .broken)], none)

/-- Read the items of a flow sequence and its end; a comma stands before all but the first. -/
def readFlowItems (fuel : Nat) (handles : Table String) (isFirst : Bool) (position : Position) :
    List LinkedNode × Option Position :=
  match fuel, position.tokens with
  | _ + 1, .flowSequenceEnd :: rest => ([], some (position.leaving rest))
  | fuel + 1, .flowEntry :: rest =>
    if isFirst then ([.broken], none) else readFlowItem fuel handles (position.leaving rest)
  | fuel + 1, _ :: _ =>
    if isFirst then readFlowItem fuel handles position else ([.broken], none)
  | _, _ => ([.broken], none)

/-- Read an item of a flow sequence, or its end, and the further items. -/
def readFlowItem (fuel : Nat) (handles : Table String) (position : Position) :
    List LinkedNode × Option Position :=
  match fuel, position.tokens with
  | _ + 1, .flowSequenceEnd :: rest => ([], some (position.leaving rest))
  | fuel + 1, .key :: rest =>
    match readFlowPair fuel handles (position.leaving rest) with
    | (item, none) => ([item], none)
    | (item, some next) =>
      let (items, next) := readFlowItems fuel handles false next
      (item :: items, next)
  | fuel + 1, _ :: _ =>
    match readNode fuel handles false false position with
    | (item, none) => ([item], none)
    | (item, some next) =>
      let (items, next) := readFlowItems fuel handles false next
      (item :: items, next)
  | _, _ => ([.broken], none)

/-- Read a mapping of one pair that stands in a flow sequence, after its key indicator. Where the key is
missing, the token after the indicator is passed over. -/
def readFlowPair (fuel : Nat) (handles : Table String) (position : Position) :
    LinkedNode × Option Position :=
  match fuel, position.tokens with
  | fuel + 1, token :: rest =>
    let (key, next) :=
      if [Token.value, .flowEntry, .flowSequenceEnd].contains token then
        (LinkedNode.empty, some (position.leaving rest))
      else readNode fuel handles false false position
    match next with
    | none => (.mapping none [(key, .broken)], none)
    | some next =>
      let (value, next) := readFlowValue fuel handles .flowSequenceEnd next
      (.mapping none [(key, value)], next)
  | _, _ => (.mapping none [(.broken, .broken)], none)

/-- Read the value of a key inside a flow collection that `closer` ends. -/
def readFlowValue (fuel : Nat) (handles : Table String) (closer : Token) (position : Position) :
    LinkedNode × Option Position :=
  match fuel, position.tokens with
  | fuel + 1, .value :: rest =>
    readNodeUnless fuel handles [.flowEntry, closer] false false (position.leaving rest)
  | _ + 1, _ :: _ => (.empty, some position)
  | _, _ => (.broken, none)

/-- Read the entries of a flow mapping and its end; a comma stands before all but the first. -/
def readFlowEntries (fuel : Nat) (handles : Table String) (isFirst : Bool) (position : Position) :
    List (LinkedNode × LinkedNode) × Option Position :=
  match fuel, position.tokens with
  | _ + 1, .flowMappingEnd :: rest => ([], some (position.leaving rest))
  | fuel + 1, .flowEntry :: rest =>
    if isFirst then ([(.broken, .broken)], none) else readFlowPairs fuel handles (position.leaving rest)
  | fuel + 1, _ :: _ =>
    if isFirst then readFlowPairs fuel handles position else ([(.broken, .broken)], none)
  | _, _ => ([(.broken, .broken)], none)

/-- Read an entry of a flow mapping, or its end, and the further entries. -/
def readFlowPairs (fuel : Nat) (handles : Table String) (position : Position) :
    List (LinkedNode × LinkedNode) × Option Position :=
  match fuel, position.tokens with
  | _ + 1, .flowMappingEnd :: rest => ([], some (position.leaving rest))
  | fuel + 1, .key :: rest =>
    match readNodeUnless fuel handles [.value, .flowEntry, .flowMappingEnd] false false
        (position.leaving rest) with
    | (key, none) => ([(key, .broken)], none)
    | (key, some next) =>
      match readFlowValue fuel handles .flowMappingEnd next with
      | (value, none) => ([(key, value)], none)
      | (value, some next) =>
        let (entries, next) := readFlowEntries fuel handles false next
        ((key, value) :: entries, next)
  | fuel + 1, _ :: _ =>
    match readNode fuel handles false false position with
    | (key, none) => ([(key, .broken)], none)
    | (key, some next) =>
      let (entries, next) := readFlowEntries fuel handles false next
      ((key, .empty) :: entries, next)
  | _, _ => ([(.broken, .broken)], none)

end

/-- Whether the document ends or another one begins with the token. -/
def endsDocument : Token → Bool
  | .versionDirective .. | .tagDirective .. | .documentStart | .documentEnd | .streamEnd => true
  | _ => false

/-- The first document of a text and the tokens after it, `none` where they cannot be read. A text
without a document reads as an empty scalar. -/
def readDocument (tokens : List Token) : LinkedNode × Option (List Token) :=
  let fuel := 4 * tokens.length + 4
  let readRoot (handles : Table String) (tokens : List Token) : LinkedNode × Option (List Token) :=
    let (root, next) := readNode fuel handles true false ⟨tokens, []⟩
    (root, next.map Position.tokens)
  match tokens with
  | [] => (.broken, none)
  | .streamEnd :: rest => (.empty, some (.streamEnd :: rest))
  | token :: rest =>
    if endsDocument token && token != .documentEnd then
      match directives? false [] (token :: rest) with
      | some (handles, .documentStart :: next :: rest) =>
        if endsDocument next then (.empty, some (next :: rest)) else readRoot handles (next :: rest)
      | _ => (.broken, none)
    else readRoot defaultHandles (token :: rest)

end ClassSchema.Yaml
