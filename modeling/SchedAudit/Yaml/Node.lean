import SchedAudit.Yaml.Token

/-!
# YAML nodes

Tokens become a tree of nodes. `Node.ofTokens?` follows the grammar of YAML downwards; every call
reads at least the token it was chosen for, or is one step nearer to such a call, so a number of
steps proportional to the tokens is enough.

An anchor gives a node a number, and an alias refers to that number: the nodes behind the numbers
are kept in a list beside the tree (`Document.anchored`), so that a node may be referred to many
times without being copied.
-/

namespace SchedAudit.Yaml

/-- A YAML value. The tag of a node is none where none is written. -/
inductive Node where
  | scalar (tag : Option String) (style : Style) (text : String)
  | sequence (elements : List Node)
  | mapping (pairs : List (Node × Node))
  /-- the node of an anchor with this number -/
  | alias (number : Nat)
deriving Repr

namespace Node

/-- The scalar that stands where nothing is written. -/
def absent : Node := .scalar none .plain ""

end Node

/-- A node with an anchor. -/
structure Anchored where
  /-- the number of the anchor -/
  number : Nat
  /-- how many tokens were left where the node starts -/
  left : Nat
  /-- the node -/
  node : Node

/-- What is known while tokens are read. -/
structure Context where
  /-- tag handles and what they stand for -/
  handles : List (String × String)
  /-- the names of anchors and their numbers, the newest first -/
  names : List (String × Nat) := []
  /-- the nodes with anchors that are complete -/
  anchored : List Anchored := []

namespace Context

/-- Gives a name a number: how many names there are. A name may be used again. -/
def bind (ctx : Context) (name : String) : Context × Nat :=
  let number := ctx.names.length
  ({ ctx with names := (name, number) :: ctx.names.filter (·.1 != name) }, number)

/-- The number of a name. -/
def number? (ctx : Context) (name : String) : Option Nat := ctx.names.lookup name

/-- The full form of a tag. Without a handle it is complete already. -/
def tag? (ctx : Context) (handle suffix : String) : Option String :=
  if handle.isEmpty then some suffix else (ctx.handles.lookup handle).map (· ++ suffix)

/-- The handles that need no directive. -/
def standardHandles : List (String × String) := [("!", "!"), ("!!", "tag:yaml.org,2002:")]

end Context

/-- What is written in front of the content of a node, or nothing. -/
structure Properties where
  /-- the full tag -/
  tag : Option String := none
  /-- the name of the anchor -/
  anchor : Option String := none

/-- Reads an anchor and a tag in either order. -/
def properties? (ctx : Context) : List Token → Option (Properties × List Token)
  | .anchor name :: .tag handle suffix :: rest => do
    return (⟨some (← ctx.tag? handle suffix), some name⟩, rest)
  | .tag handle suffix :: .anchor name :: rest => do
    return (⟨some (← ctx.tag? handle suffix), some name⟩, rest)
  | .anchor name :: rest => some (⟨none, some name⟩, rest)
  | .tag handle suffix :: rest => do return (⟨some (← ctx.tag? handle suffix), none⟩, rest)
  | tokens => some ({}, tokens)

/-- Where a node stands, which says what it may be. -/
inductive Position where
  /-- between brackets, where there are no blocks -/
  | flow
  /-- a block -/
  | block
  /-- a key or value of a block mapping, where the dashes of a sequence need no indentation -/
  | pair
deriving Repr, DecidableEq

/-- Whether a token ends the key or value of a block mapping that nothing is written for. -/
def endsPair : Token → Bool
  | .key | .value | .blockEnd => true
  | _ => false

/-- Whether a token ends an element of a block sequence that nothing is written for. -/
def endsElement : Token → Bool
  | .blockElement | .blockEnd => true
  | _ => false

/-- What is left when something has been read: what is known by then, and the tokens behind. -/
abbrev Behind : Type := Context × List Token

mutual

/-- Reads a node. -/
def node? : Nat → Position → Context → List Token → Option (Node × Behind)
  | 0, _, _, _ => none
  | _ + 1, _, ctx, .alias name :: rest => do return (.alias (← ctx.number? name), ctx, rest)
  | fuel + 1, position, ctx, tokens => do
    let (props, behind) ← properties? ctx tokens
    let (ctx, number) :=
      match props.anchor with
      | some name => (ctx.bind name).map id some
      | none => (ctx, none)
    let (content, ctx, rest) ← content? fuel position props ctx behind
    match number with
    | some number =>
      return (content, { ctx with anchored := ⟨number, tokens.length, content⟩ :: ctx.anchored },
        rest)
    | none => return (content, ctx, rest)

/-- Reads what follows the properties of a node. A node with properties may be empty. A lone
exclamation mark in front of a scalar says nothing. -/
def content? : Nat → Position → Properties → Context → List Token → Option (Node × Behind)
  | 0, _, _, _, _ => none
  | fuel + 1, position, props, ctx, tokens =>
    match tokens, position with
    | .blockElement :: _, .pair => dashes? fuel ctx [] tokens
    | .scalar style text :: rest, _ =>
      some (.scalar (props.tag.filter (· != "!")) style text, ctx, rest)
    | .flowSequenceStart :: rest, _ => flowSequence? fuel true ctx [] rest
    | .flowMappingStart :: rest, _ => flowMapping? fuel true ctx [] rest
    | .blockSequenceStart :: rest, .block => blockSequence? fuel ctx [] rest
    | .blockSequenceStart :: rest, .pair => blockSequence? fuel ctx [] rest
    | .blockMappingStart :: rest, .block => blockMapping? fuel ctx [] rest
    | .blockMappingStart :: rest, .pair => blockMapping? fuel ctx [] rest
    | _, _ =>
      if props.tag.isSome || props.anchor.isSome then
        some (.scalar props.tag .plain "", ctx, tokens)
      else none

/-- Reads the elements of a sequence whose dashes stand at the column of the mapping around it. -/
def dashes? : Nat → Context → List Node → List Token → Option (Node × Behind)
  | 0, _, _, _ => none
  | fuel + 1, ctx, found, .blockElement :: rest =>
    match rest with
    | t :: _ =>
      if endsElement t || endsPair t then dashes? fuel ctx (Node.absent :: found) rest
      else do
        let (n, ctx, rest) ← node? fuel .block ctx rest
        dashes? fuel ctx (n :: found) rest
    | [] => none
  | _ + 1, ctx, found, tokens => some (.sequence found.reverse, ctx, tokens)

/-- Reads the elements of a block sequence. -/
def blockSequence? : Nat → Context → List Node → List Token → Option (Node × Behind)
  | 0, _, _, _ => none
  | fuel + 1, ctx, found, .blockElement :: rest =>
    match rest with
    | t :: _ =>
      if endsElement t then blockSequence? fuel ctx (Node.absent :: found) rest
      else do
        let (n, ctx, rest) ← node? fuel .block ctx rest
        blockSequence? fuel ctx (n :: found) rest
    | [] => none
  | _ + 1, ctx, found, .blockEnd :: rest => some (.sequence found.reverse, ctx, rest)
  | _ + 1, _, _, _ => none

/-- Reads the pairs of a block mapping. -/
def blockMapping? : Nat → Context → List (Node × Node) → List Token → Option (Node × Behind)
  | 0, _, _, _ => none
  | fuel + 1, ctx, found, .key :: rest => do
    let (k, ctx, rest) ←
      match rest with
      | t :: _ => if endsPair t then some (Node.absent, ctx, rest) else node? fuel .pair ctx rest
      | [] => none
    match rest with
    | .value :: rest =>
      let (v, ctx, rest) ←
        match rest with
        | t :: _ => if endsPair t then some (Node.absent, ctx, rest) else node? fuel .pair ctx rest
        | [] => none
      blockMapping? fuel ctx ((k, v) :: found) rest
    | rest => blockMapping? fuel ctx ((k, Node.absent) :: found) rest
  | _ + 1, ctx, found, .blockEnd :: rest => some (.mapping found.reverse, ctx, rest)
  | _ + 1, _, _, _ => none

/-- Reads the elements of a sequence between brackets. Behind the first one a comma is needed, and
an element may be a single pair. -/
def flowSequence? : Nat → Bool → Context → List Node → List Token → Option (Node × Behind)
  | 0, _, _, _, _ => none
  | _ + 1, _, ctx, found, .flowSequenceEnd :: rest => some (.sequence found.reverse, ctx, rest)
  | fuel + 1, first, ctx, found, tokens => do
    let tokens ←
      match first, tokens with
      | true, tokens => some tokens
      | false, .flowElement :: rest => some rest
      | false, _ => none
    match tokens with
    | .flowSequenceEnd :: rest => return (.sequence found.reverse, ctx, rest)
    | .key :: rest =>
      let (pair, ctx, rest) ← singlePair? fuel ctx rest
      flowSequence? fuel false ctx (.mapping [pair] :: found) rest
    | tokens =>
      let (n, ctx, rest) ← node? fuel .flow ctx tokens
      flowSequence? fuel false ctx (n :: found) rest

/-- Reads a pair that is an element of a sequence between brackets. An empty key takes the place of
the token behind it. -/
def singlePair? : Nat → Context → List Token → Option ((Node × Node) × Behind)
  | 0, _, _ => none
  | fuel + 1, ctx, tokens => do
    let (k, ctx, rest) ←
      match tokens with
      | .value :: rest | .flowElement :: rest | .flowSequenceEnd :: rest =>
        some (Node.absent, ctx, rest)
      | tokens => node? fuel .flow ctx tokens
    match rest with
    | .value :: .flowElement :: rest => return ((k, Node.absent), ctx, .flowElement :: rest)
    | .value :: .flowSequenceEnd :: rest => return ((k, Node.absent), ctx, .flowSequenceEnd :: rest)
    | .value :: rest =>
      let (v, ctx, rest) ← node? fuel .flow ctx rest
      return ((k, v), ctx, rest)
    | rest => return ((k, Node.absent), ctx, rest)

/-- Reads the pairs of a mapping between brackets. Behind the first one a comma is needed, and a
key may stand alone. -/
def flowMapping? : Nat → Bool → Context → List (Node × Node) → List Token → Option (Node × Behind)
  | 0, _, _, _, _ => none
  | _ + 1, _, ctx, found, .flowMappingEnd :: rest => some (.mapping found.reverse, ctx, rest)
  | fuel + 1, first, ctx, found, tokens => do
    let tokens ←
      match first, tokens with
      | true, tokens => some tokens
      | false, .flowElement :: rest => some rest
      | false, _ => none
    match tokens with
    | .flowMappingEnd :: rest => return (.mapping found.reverse, ctx, rest)
    | .key :: rest =>
      let (k, ctx, rest) ←
        match rest with
        | .value :: _ | .flowElement :: _ | .flowMappingEnd :: _ => some (Node.absent, ctx, rest)
        | rest => node? fuel .flow ctx rest
      let (v, ctx, rest) ←
        match rest with
        | .value :: .flowElement :: rest => some (Node.absent, ctx, .flowElement :: rest)
        | .value :: .flowMappingEnd :: rest => some (Node.absent, ctx, .flowMappingEnd :: rest)
        | .value :: rest => node? fuel .flow ctx rest
        | rest => some (Node.absent, ctx, rest)
      flowMapping? fuel false ctx ((k, v) :: found) rest
    | tokens =>
      let (k, ctx, rest) ← node? fuel .flow ctx tokens
      flowMapping? fuel false ctx ((k, Node.absent) :: found) rest

end

/-! ## Documents -/

/-- The one document of a text. -/
structure Document where
  /-- the value; none where the text holds nothing but comments -/
  root : Option Node
  /-- the nodes with anchors -/
  anchored : List Anchored

/-- Reads the directives in front of a document. Only one version may be named, which must be 1.1 or
1.2, and no handle may be declared twice. -/
def directives? (versioned : Bool) (handles : List (String × String)) :
    List Token → Option (List (String × String) × List Token)
  | .version major minor :: rest =>
    if versioned || major ≠ 1 || (minor ≠ 1 && minor ≠ 2) then none
    else directives? true handles rest
  | .tagDirective handle target :: rest =>
    if handles.any (·.1 == handle) then none
    else directives? versioned ((handle, target) :: handles) rest
  | tokens => some (handles, tokens)

/-- Passes over the marks that end a document. -/
def dropDocumentEnds : List Token → List Token
  | .documentEnd :: rest => dropDocumentEnds rest
  | tokens => tokens

/-- Whether a token follows the content of a document. -/
def endsDocument : Token → Bool
  | .version .. | .tagDirective .. | .documentStart | .documentEnd | .streamEnd => true
  | _ => false

/-- The document of a list of tokens. A second document is an error. -/
def Document.ofTokens? (tokens : List Token) : Option Document := do
  let fuel := 4 * tokens.length + 4
  match tokens with
  | [.streamEnd] => return ⟨none, []⟩
  | _ =>
    let explicit :=
      tokens.head?.any fun t => endsDocument t && t != .documentEnd
    let (handles, tokens) ← if explicit then directives? false [] tokens else some ([], tokens)
    let ctx : Context := { handles := handles ++ Context.standardHandles }
    let (root, ctx, rest) ←
      match explicit, tokens with
      | true, .documentStart :: rest =>
        if rest.head?.any endsDocument then some (Node.absent, ctx, rest)
        else node? fuel .block ctx rest
      | true, _ => none
      | false, tokens => node? fuel .block ctx tokens
    match dropDocumentEnds rest with
    | [.streamEnd] => return ⟨some root, ctx.anchored⟩
    | _ => none

/-- The document of a text. -/
def Document.parse? (source : String) : Option Document :=
  (Token.scan? source.toList).bind Document.ofTokens?

/-- The node that an alias refers to, or the node itself. Of several nodes with one number the one
that starts last counts. -/
def Document.resolve? (d : Document) : Node → Option Node
  | .alias number =>
    let nodes := d.anchored.filter (·.number == number)
    (nodes.find? fun a => nodes.all fun b => a.left ≤ b.left).map (·.node)
  | n => some n

end SchedAudit.Yaml
