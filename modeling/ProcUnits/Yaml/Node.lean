import ProcUnits.Yaml.Token.Scan

/-!
Nodes: the tree that a YAML text shows, each scalar still with its style, its tag and the text
it was written as. What type a scalar has is not decided here.

* `Node`: the tree. An alias is replaced by the node it names; only an alias inside the node
  that it names is left, as `Node.loop`;
* `Node.ofTokens`: the trees of all documents of a text, or the reason why it is not YAML;
* `Node.documents`: the same from the text.
-/

namespace ProcUnits.Yaml

/-- A tree. -/
inductive Node where
  | scalar (style : Style) (tag : Option Tag) (text : String)
  | list (items : List Node)
  | map (entries : List (Node × Node))
  /-- An alias of a node that it is part of. -/
  | loop
  deriving Repr

namespace Node

/-- The node where a text has none. -/
def empty : Node := .scalar .plain none ""

instance : Inhabited Node := ⟨empty⟩

/-- The tokens that are left, and what the tokens before them have named. -/
structure Reader where
  edition : Edition
  tokens : List Token
  /-- The anchors of this document by name, the latest first. -/
  anchors : List (String × Nat) := []
  /-- The nodes that the anchors are on, as far as they are complete. -/
  anchored : List (Nat × Node) := []
  /-- What the handles of this document stand for. -/
  handles : List (String × String) := []
  nextAnchor : Nat := 0

/-- A step of reading. -/
abbrev Read := StateT Reader (Except Cause)

/-- The next token. -/
def peek : Read Token := do pure ((← get).tokens.head?.getD .streamEnd)

/-- The text is read strictly. -/
def isStrict : Read Bool := do pure ((← get).edition == .strict)

/-- Steps over a token. -/
def skip : Read Unit := modify fun r => { r with tokens := r.tokens.tail }

/-- The tag with its handle replaced by what it stands for. Of the handles that no directive
declares only the one of the format's own types and local ones have a meaning. -/
def resolveTag (t : Tag) : Read Tag := do
  match (← get).handles.lookup t.handle with
  | some start => pure { t with handle := start }
  | none =>
    if t.handle == "!!" then pure { t with handle := "tag:yaml.org,2002:" }
    else if 2 ≤ t.handle.length && t.handle.toList.getLast? == some '!' then
      throw (.unknownHandle t.handle)
    else pure t

/-- Names the node that follows. -/
def register (name : String) : Read Nat := do
  let r ← get
  set { r with anchors := (name, r.nextAnchor) :: r.anchors, nextAnchor := r.nextAnchor + 1 }
  pure r.nextAnchor

/-- Reads the anchor and the tag before a node, in either order. -/
def properties : Read (Option Nat × Option Tag) := do
  match ← peek with
  | .anchor name =>
    skip
    let id ← register name
    match ← peek with
    | .tag t =>
      skip
      pure (some id, some (← resolveTag t))
    | _ => pure (some id, none)
  | .tag t =>
    skip
    let t ← resolveTag t
    match ← peek with
    | .anchor name =>
      skip
      pure (some (← register name), some t)
    | _ => pure (none, some t)
  | _ => pure (none, none)

/-- What an alias stands for. -/
def aliased (name : String) : Read Node := do
  let r ← get
  match r.anchors.lookup name with
  | none => throw (.unknownAnchor name)
  | some id => pure ((r.anchored.lookup id).getD .loop)

mutual

/-- Reads a node. A block collection may stand there if `block`; a sequence that is not
indented deeper than its key may if `indentless`. The first number bounds the steps. -/
def read : Nat → Bool → Bool → Read Node
  | 0, _, _ => throw .node
  | n + 1, block, indentless => do
    if let .alias name := ← peek then
      skip
      return ← aliased name
    let (id, tag) ← properties
    let node ←
      match ← peek with
      | .blockEntry =>
        if indentless then pure (.list (← indentlessItems n))
        else if id.isSome || tag.isSome then pure (.scalar .plain tag "")
        else throw .node
      | .scalar style text =>
        skip
        pure (.scalar style tag text)
      | .flowSequenceStart =>
        skip
        pure (.list (← flowItems n true))
      | .flowMappingStart =>
        skip
        pure (.map (← flowEntries n true))
      | .blockSequenceStart =>
        if block then
          skip
          pure (.list (← blockItems n))
        else if id.isSome || tag.isSome then pure (.scalar .plain tag "")
        else throw .node
      | .blockMappingStart =>
        if block then
          skip
          pure (.map (← blockEntries n))
        else if id.isSome || tag.isSome then pure (.scalar .plain tag "")
        else throw .node
      | _ =>
        if id.isSome || tag.isSome then pure (.scalar .plain tag "")
        else throw .node
    if let some id := id then
      modify fun r => { r with anchored := (id, node) :: r.anchored }
    pure node

/-- Reads the items of a block sequence. -/
def blockItems : Nat → Read (List Node)
  | 0 => throw .collection
  | n + 1 => do
    match ← peek with
    | .blockEnd =>
      skip
      pure []
    | .blockEntry =>
      skip
      let item ←
        match ← peek with
        | .blockEntry | .blockEnd => pure .empty
        | _ => read n true false
      pure (item :: (← blockItems n))
    | _ => throw .collection

/-- Reads the items of a sequence that is not indented deeper than its key. -/
def indentlessItems : Nat → Read (List Node)
  | 0 => throw .collection
  | n + 1 => do
    match ← peek with
    | .blockEntry =>
      skip
      let item ←
        match ← peek with
        | .blockEntry | .key | .value | .blockEnd => pure .empty
        | _ => read n true false
      pure (item :: (← indentlessItems n))
    | _ => pure []

/-- Reads the entries of a block mapping. In the strict reading a value may stand without a
key. -/
def blockEntries : Nat → Read (List (Node × Node))
  | 0 => throw .collection
  | n + 1 => do
    match ← peek with
    | .blockEnd =>
      skip
      pure []
    | .key =>
      skip
      let key ←
        match ← peek with
        | .key | .value | .blockEnd => pure .empty
        | _ => read n true true
      let value ← blockValue n
      pure ((key, value) :: (← blockEntries n))
    | .value =>
      if !(← isStrict) then throw .collection
      let value ← blockValue n
      pure ((.empty, value) :: (← blockEntries n))
    | _ => throw .collection

/-- Reads the value of a block mapping's entry. -/
def blockValue : Nat → Read Node
  | 0 => throw .node
  | n + 1 => do
    match ← peek with
    | .value =>
      skip
      match ← peek with
      | .key | .value | .blockEnd => pure .empty
      | _ => read n true true
    | _ => pure .empty

/-- Reads the items of a flow sequence. An item with a key is a mapping of one entry. If nothing
stands between the mark of a key and the next indicator, the key is empty and the indicator
belongs to it. -/
def flowItems : Nat → Bool → Read (List Node)
  | 0, _ => throw .collection
  | n + 1, first => do
    if (← peek) == .flowSequenceEnd then
      skip
      return []
    if !first then
      if (← peek) == .flowEntry then skip else throw .collection
    match ← peek with
    | .flowSequenceEnd =>
      skip
      pure []
    | .key =>
      skip
      let key ←
        match ← peek with
        | .value | .flowEntry | .flowSequenceEnd =>
          skip
          pure .empty
        | _ => read n false false
      let value ←
        match ← peek with
        | .value =>
          skip
          match ← peek with
          | .flowEntry | .flowSequenceEnd => pure .empty
          | _ => read n false false
        | _ => pure .empty
      pure (.map [(key, value)] :: (← flowItems n false))
    | _ =>
      let item ← read n false false
      pure (item :: (← flowItems n false))

/-- Reads the entries of a flow mapping. In the strict reading a value may stand without a key. -/
def flowEntries : Nat → Bool → Read (List (Node × Node))
  | 0, _ => throw .collection
  | n + 1, first => do
    if (← peek) == .flowMappingEnd then
      skip
      return []
    if !first then
      if (← peek) == .flowEntry then skip else throw .collection
    match ← peek with
    | .flowMappingEnd =>
      skip
      pure []
    | .key =>
      skip
      let key ←
        match ← peek with
        | .value | .flowEntry | .flowMappingEnd => pure .empty
        | _ => read n false false
      let value ← flowValue n
      pure ((key, value) :: (← flowEntries n false))
    | .value =>
      if !(← isStrict) then throw .node
      let value ← flowValue n
      pure ((.empty, value) :: (← flowEntries n false))
    | _ =>
      let key ← read n false false
      pure ((key, .empty) :: (← flowEntries n false))

/-- Reads the value of a flow mapping's entry. -/
def flowValue : Nat → Read Node
  | 0 => throw .node
  | n + 1 => do
    match ← peek with
    | .value =>
      skip
      match ← peek with
      | .flowEntry | .flowMappingEnd => pure .empty
      | _ => read n false false
    | _ => pure .empty

end

/-! ### Documents -/

/-- Reads the directives before a document, of which one at most is for the version. In the strict
reading only the last directive counts; in the lenient one all do, and a handle has one at
most. -/
def directives : Nat → Bool → Read Unit
  | 0, _ => pure ()
  | n + 1, version => do
    let r ← get
    let strict := r.edition == .strict
    match ← peek with
    | .versionDirective =>
      if version then throw .document
      set { r with handles := if strict then [] else r.handles }
      skip
      directives n true
    | .tagDirective handle start =>
      if !strict && (r.handles.lookup handle).isSome then throw .document
      set { r with handles := (handle, start) :: if strict then [] else r.handles }
      skip
      directives n version
    | .otherDirective =>
      set { r with handles := [] }
      skip
      directives n version
    | _ => pure ()

/-- Steps over the markers of document ends. -/
def skipEnds : Nat → Read Unit
  | 0 => pure ()
  | n + 1 => do
    if (← peek) == .documentEnd then
      skip
      skipEnds n

/-- The token is a directive. -/
def isDirective : Token → Bool
  | .versionDirective | .tagDirective _ _ | .otherDirective => true
  | _ => false

/-- Reads the documents. One that has directives starts with a marker. So does one that follows
another; in the strict reading the end marker of that will do, and one may also stand before the
first document. -/
def documentsFrom : Nat → Bool → Read (List Node)
  | 0, _ => throw .document
  | n + 1, implicit => do
    let size := (← get).tokens.length + 1
    let strict ← isStrict
    if strict || !implicit then skipEnds size
    if (← peek) == .streamEnd then return []
    modify fun r => { r with anchors := [], handles := [] }
    let first ← peek
    let bare := implicit && !isDirective first && first != .documentStart
    let node ←
      if bare then read (3 * size) true false
      else
        directives size false
        if (← peek) != .documentStart then throw .document
        skip
        let start ← peek
        if isDirective start || [.documentStart, .documentEnd, .streamEnd].contains start then
          pure .empty
        else read (3 * size) true false
    let next ← peek
    if next == .documentEnd then skip
    else if strict && isDirective next then throw .document
    pure (node :: (← documentsFrom n (strict && next == .documentEnd)))

/-- The trees of the documents that the tokens are of. -/
def ofTokens (edition : Edition) (tokens : List Token) : Except Cause (List Node) :=
  (·.1) <$> (documentsFrom (tokens.length + 1) true).run { edition, tokens }

/-- The trees of the documents of a text. -/
def documents (edition : Edition) (text : List Char) : Except Cause (List Node) := do
  ofTokens edition (← Token.scan edition text)

end Node

end ProcUnits.Yaml
