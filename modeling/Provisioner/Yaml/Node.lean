import Provisioner.Yaml.Token.Lexer

/-!
# YAML nodes

The tree of a document, as far as the grammar carries.  A node that is broken off, and a
sequence or a mapping whose end is missing, say at which fault.

An alias is a leaf that holds the number of an anchor.  The nodes of the anchors stand
beside the tree, so that a node may hold an alias of itself.  An anchor gets the number of
names that were known before it; should a name be used twice, later names can get a number
that is taken already, and then the later node counts.

* `Document.ofText` reads the first document of a text, and whether another one follows.
* `Document.deref` is the node that an alias stands for.
-/

namespace Provisioner.Yaml

/-- A node of a document.  Nodes other than aliases say where they start. -/
inductive Node
  | scalar (at_ : Mark) (tag? : Option String) (text : String) (style : Style)
  | sequence (at_ : Mark) (items : List Node) (tail? : Option Fault)
  | mapping (at_ : Mark) (members : List (Node × Node)) (tail? : Option Fault)
  | alias (id : Nat)
  | nothing
  | broken (fault : Fault)
deriving Inhabited

/-- The first document of a text.  `nodes` holds the anchored nodes by their number, the one
that started last first; `fault?` is the fault at which the document breaks off. -/
structure Document where
  root : Node
  nodes : List (Nat × Node)
  fault? : Option Fault
  followed : Bool

namespace Document

/-- The node that an alias stands for; any other node is itself. -/
def deref (d : Document) : Node → Node
  | .alias id => ((d.nodes.find? (fun e => e.1 == id)).map (·.2)).getD .nothing
  | n => n

/-! ## From tokens to nodes -/

/-- The state of the reader: the tokens still to be read, the fault behind the last one, the
tag handles of the document, the names of anchors with their numbers, the anchored nodes
with the number of the token at which each started, and the fault that stopped the reader. -/
structure Reader where
  tokens : List Token
  tail? : Option Fault
  handles : List (String × String)
  names : List (String × Nat)
  nodes : List (Nat × Nat × Node)
  fault? : Option Fault

namespace Reader

/-- The next token. -/
def peek? (r : Reader) : Option Token := r.tokens.head?

/-- The kind of the next token. -/
def kind? (r : Reader) : Option Token.Kind := r.peek?.map (·.kind)

/-- The reader behind the next token. -/
def skip (r : Reader) : Reader := { r with tokens := r.tokens.drop 1 }

/-- The place of the next token. -/
def place (r : Reader) : Mark := (r.peek?.map (·.start)).getD .start

/-- The stopped reader, and a node that is broken off there. -/
def stop (r : Reader) (f : Fault) : Node × Reader :=
  (.broken f, { r with fault? := some f })

/-- Stops because something else should stand here, or because the tokens break off. -/
def refuse (r : Reader) (f : Fault) : Node × Reader :=
  match r.peek? with
  | some _ => r.stop f
  | none => r.stop (r.tail?.getD .endOfStream)

/-- Whether the next token is one of these, or there is none. -/
def sees (r : Reader) (kinds : List Token.Kind) : Bool :=
  match r.kind? with
  | some k => kinds.contains k
  | none => false

/-- An empty plain scalar. -/
def emptyScalar (m : Mark) : Node := .scalar m none "" .plain

/-- The number of an anchor's name. -/
def numberOf? (r : Reader) (name : String) : Option Nat :=
  (r.names.find? (fun e => e.1 == name)).map (·.2)

/-- Gives an anchor its number. -/
def declare (r : Reader) (name : String) : Nat × Reader :=
  let id := r.names.length
  let names := if (r.numberOf? name).isSome
    then r.names.map (fun e => if e.1 == name then (name, id) else e)
    else r.names ++ [(name, id)]
  (id, { r with names := names })

/-- The properties before a node: its anchor, and its tag with the place where it stands. -/
structure Properties where
  start : Mark
  anchor? : Option String
  tag? : Option (String × String × Mark)

/-- Reads the properties before a node. -/
def properties (r : Reader) : Properties × Reader :=
  let start := r.place
  match r.peek? with
  | some ⟨.anchor a, _, _⟩ =>
    let r := r.skip
    match r.peek? with
    | some ⟨.tag h s, m, _⟩ => (⟨start, some a, some (h, s, m)⟩, r.skip)
    | _ => (⟨start, some a, none⟩, r)
  | some ⟨.tag h s, m, _⟩ =>
    let r := r.skip
    match r.peek? with
    | some ⟨.anchor a, _, _⟩ => (⟨start, some a, some (h, s, m)⟩, r.skip)
    | _ => (⟨start, none, some (h, s, m)⟩, r)
  | _ => (⟨start, none, none⟩, r)

/-- The tag of a node, its handle put in full. -/
def fullTag (r : Reader) (p : Properties) : Except Fault (Option String) :=
  match p.tag? with
  | none => .ok none
  | some (handle, suffix, m) =>
    if handle.isEmpty then .ok (some suffix)
    else
      match r.handles.find? (fun e => e.1 == handle) with
      | some (_, leader) => .ok (some (leader ++ suffix))
      | none => .error (.inContext "while parsing a node" p.start "found undefined tag handle" m)

mutual

/-- Reads a node.  Only a block node may begin a block, and only where `dashes` allows it may
a sequence begin without one. -/
def readNode : Nat → (block dashes : Bool) → Reader → Node × Reader
  | 0, _, _, r => r.refuse .endOfStream
  | fuel + 1, block, dashes, r =>
    match r.peek? with
    | none => r.refuse .endOfStream
    | some ⟨.alias name, m, _⟩ =>
      match r.numberOf? name with
      | some id => (.alias id, r.skip)
      | none => r.skip.stop (.unknownAnchor m)
    | some _ =>
      let (p, r) := r.properties
      match r.peek?, r.fullTag p with
      | none, _ => r.refuse .endOfStream
      | some _, .error f => r.stop f
      | some _, .ok tag? =>
        let serial := r.tokens.length
        match p.anchor? with
        | none => readContent fuel block dashes p tag? r
        | some name =>
          let (id, r) := r.declare name
          let (node, r) := readContent fuel block dashes p tag? r
          (node, { r with nodes := (id, serial, node) :: r.nodes })

/-- Reads what stands behind the properties of a node. -/
def readContent : Nat → (block dashes : Bool) → Properties → Option String → Reader →
    Node × Reader
  | 0, _, _, _, _, r => r.refuse .endOfStream
  | fuel + 1, block, dashes, p, tag?, r =>
    match r.peek? with
    | none => r.refuse .endOfStream
    | some t =>
      if dashes && t.kind == .blockEntry then
        let (items, r) := readDashes fuel r
        (.sequence p.start items r.fault?, r)
      else
        match t.kind with
        | .scalar text style => (.scalar p.start tag? text style, r.skip)
        | .flowSequenceStart =>
          let (items, r) := readFlowItems fuel t.start true r.skip
          (.sequence p.start items r.fault?, r)
        | .flowMappingStart =>
          let (members, r) := readFlowMembers fuel t.start true r.skip
          (.mapping p.start members r.fault?, r)
        | kind =>
          if block && kind == .blockSequenceStart then
            let (items, r) := readBlockItems fuel t.start r.skip
            (.sequence p.start items r.fault?, r)
          else if block && kind == .blockMappingStart then
            let (members, r) := readBlockMembers fuel t.start r.skip
            (.mapping p.start members r.fault?, r)
          else if p.anchor?.isSome || tag?.isSome then (.scalar p.start tag? "" .plain, r)
          else
            r.refuse (.inContext
              (if block then "while parsing a block node" else "while parsing a flow node")
              p.start "did not find expected node content" t.start)

/-- Reads the items of a sequence that begins with a dash where its block does not. -/
def readDashes : Nat → Reader → List Node × Reader
  | 0, r => ([], (r.refuse .endOfStream).2)
  | fuel + 1, r =>
    match r.peek? with
    | none => ([], (r.refuse .endOfStream).2)
    | some t =>
      if t.kind != .blockEntry then ([], r)
      else
        let r := r.skip
        let (item, r) :=
          if r.sees [.blockEntry, .key, .value, .blockEnd] then (emptyScalar t.stop, r)
          else readNode fuel true false r
        if r.fault?.isSome then ([item], r)
        else
          let (items, r) := readDashes fuel r
          (item :: items, r)

/-- Reads the items of a block sequence that began at `since`. -/
def readBlockItems : Nat → Mark → Reader → List Node × Reader
  | 0, _, r => ([], (r.refuse .endOfStream).2)
  | fuel + 1, since, r =>
    match r.peek? with
    | none => ([], (r.refuse .endOfStream).2)
    | some t =>
      if t.kind == .blockEnd then ([], r.skip)
      else if t.kind == .blockEntry then
        let r := r.skip
        let (item, r) :=
          if r.sees [.blockEntry, .blockEnd] then (emptyScalar t.stop, r)
          else readNode fuel true false r
        if r.fault?.isSome then ([item], r)
        else
          let (items, r) := readBlockItems fuel since r
          (item :: items, r)
      else
        ([], (r.refuse (.inContext "while parsing a block collection" since
          "did not find expected '-' indicator" t.start)).2)

/-- Reads the members of a block mapping that began at `since`. -/
def readBlockMembers : Nat → Mark → Reader → List (Node × Node) × Reader
  | 0, _, r => ([], (r.refuse .endOfStream).2)
  | fuel + 1, since, r =>
    match r.peek? with
    | none => ([], (r.refuse .endOfStream).2)
    | some t =>
      if t.kind == .blockEnd then ([], r.skip)
      else if t.kind == .key then
        let r := r.skip
        let (key, r) :=
          if r.sees [.key, .value, .blockEnd] then (emptyScalar t.stop, r)
          else readNode fuel true true r
        if r.fault?.isSome then ([(key, .broken (r.fault?.getD .endOfStream))], r)
        else
          let (value, r) := readBlockValue fuel r
          if r.fault?.isSome then ([(key, value)], r)
          else
            let (members, r) := readBlockMembers fuel since r
            ((key, value) :: members, r)
      else
        ([], (r.refuse (.inContext "while parsing a block mapping" since
          "did not find expected key" t.start)).2)

/-- Reads the value of a member of a block mapping. -/
def readBlockValue : Nat → Reader → Node × Reader
  | 0, r => r.refuse .endOfStream
  | fuel + 1, r =>
    match r.peek? with
    | none => r.refuse .endOfStream
    | some t =>
      if t.kind == .value then
        let r := r.skip
        if r.sees [.key, .value, .blockEnd] then (emptyScalar t.stop, r)
        else readNode fuel true true r
      else (emptyScalar t.start, r)

/-- Reads the items of a flow sequence that began at `since`. -/
def readFlowItems : Nat → Mark → (first : Bool) → Reader → List Node × Reader
  | 0, _, _, r => ([], (r.refuse .endOfStream).2)
  | fuel + 1, since, first, r =>
    let item (r : Reader) : List Node × Reader :=
      match r.peek? with
      | none => ([], (r.refuse .endOfStream).2)
      | some t =>
        if t.kind == .flowSequenceEnd then ([], r.skip)
        else
          let (node, r) :=
            if t.kind == .key then readFlowPair fuel t.start r.skip else readNode fuel false false r
          if r.fault?.isSome then ([node], r)
          else
            let (items, r) := readFlowItems fuel since false r
            (node :: items, r)
    match r.peek? with
    | none => ([], (r.refuse .endOfStream).2)
    | some t =>
      if t.kind == .flowSequenceEnd then ([], r.skip)
      else if first then item r
      else if t.kind == .flowEntry then item r.skip
      else
        ([], (r.refuse (.inContext "while parsing a flow sequence" since
          "did not find expected ',' or ']'" t.start)).2)

/-- Reads a mapping of one member that stands in a flow sequence without braces. -/
def readFlowPair : Nat → Mark → Reader → Node × Reader
  | 0, _, r => r.refuse .endOfStream
  | fuel + 1, start, r =>
    match r.peek? with
    | none =>
      let (node, r) := r.refuse .endOfStream
      (.mapping start [(node, node)] r.fault?, r)
    | some t =>
      let (key, r) :=
        if r.sees [.value, .flowEntry, .flowSequenceEnd] then (emptyScalar t.stop, r.skip)
        else readNode fuel false false r
      if r.fault?.isSome then
        (.mapping start [(key, .broken (r.fault?.getD .endOfStream))] r.fault?, r)
      else
        let (value, r) := readFlowValue fuel .flowSequenceEnd r
        (.mapping start [(key, value)] r.fault?, r)

/-- Reads the value of a member in a flow collection that ends with `close`. -/
def readFlowValue : Nat → Token.Kind → Reader → Node × Reader
  | 0, _, r => r.refuse .endOfStream
  | fuel + 1, close, r =>
    match r.peek? with
    | none => r.refuse .endOfStream
    | some t =>
      if t.kind == .value then
        let r := r.skip
        match r.peek? with
        | none => r.refuse .endOfStream
        | some t =>
          if t.kind == .flowEntry || t.kind == close then (emptyScalar t.start, r)
          else readNode fuel false false r
      else (emptyScalar t.start, r)

/-- Reads the members of a flow mapping that began at `since`. -/
def readFlowMembers : Nat → Mark → (first : Bool) → Reader → List (Node × Node) × Reader
  | 0, _, _, r => ([], (r.refuse .endOfStream).2)
  | fuel + 1, since, first, r =>
    let member (r : Reader) : List (Node × Node) × Reader :=
      match r.peek? with
      | none => ([], (r.refuse .endOfStream).2)
      | some t =>
        if t.kind == .flowMappingEnd then ([], r.skip)
        else
          let explicit := t.kind == .key
          let r := if explicit then r.skip else r
          let (key, r) :=
            if explicit && r.sees [.value, .flowEntry, .flowMappingEnd] then
              (emptyScalar r.place, r)
            else readNode fuel false false r
          if r.fault?.isSome then ([(key, .broken (r.fault?.getD .endOfStream))], r)
          else
            let (value, r) :=
              if explicit then readFlowValue fuel .flowMappingEnd r else (emptyScalar r.place, r)
            if r.fault?.isSome then ([(key, value)], r)
            else
              let (members, r) := readFlowMembers fuel since false r
              ((key, value) :: members, r)
    match r.peek? with
    | none => ([], (r.refuse .endOfStream).2)
    | some t =>
      if t.kind == .flowMappingEnd then ([], r.skip)
      else if first then member r
      else if t.kind == .flowEntry then member r.skip
      else
        ([], (r.refuse (.inContext "while parsing a flow mapping" since
          "did not find expected ',' or '\x7d'" t.start)).2)

end

/-! ## Documents -/

/-- Reads the directives before a document; `version` says whether a version was given. -/
def readDirectives : Nat → (version : Bool) → Reader → Reader
  | 0, _, r => r
  | fuel + 1, version, r =>
    match r.peek? with
    | some ⟨.versionDirective major minor, m, _⟩ =>
      if version then (r.stop (.grammar "found duplicate %YAML directive" m none)).2
      else if major ≠ 1 ∨ (minor ≠ 1 ∧ minor ≠ 2) then
        (r.stop (.grammar "found incompatible YAML document" m none)).2
      else readDirectives fuel true r.skip
    | some ⟨.tagDirective handle leader, m, _⟩ =>
      if r.handles.any (fun e => e.1 == handle) then
        (r.stop (.grammar "found duplicate %TAG directive" m none)).2
      else readDirectives fuel version { r.skip with handles := r.handles ++ [(handle, leader)] }
    | _ => r

/-- The tag handles that every document knows. -/
def standardHandles : List (String × String) :=
  [("!", "!"), ("!!", "tag:yaml.org,2002:")]

/-- Reads the content of a document that may be empty. -/
def readBody (fuel : Nat) (r : Reader) : Node × Reader :=
  match r.peek? with
  | none => r.refuse .endOfStream
  | some t =>
    match t.kind with
    | .versionDirective .. | .tagDirective .. | .documentStart | .documentEnd | .streamEnd =>
      (emptyScalar t.start, r)
    | _ => readNode fuel true false r

/-- Passes over the end of a document.  A document without one ends at the next token, which
has to be there. -/
def readDocumentEnd (r : Reader) : Reader :=
  match r.peek? with
  | none => (r.refuse .endOfStream).2
  | some t => if t.kind == .documentEnd then r.skip else r

/-- The reader behind the ends of documents. -/
def skipDocumentEnds (r : Reader) : Reader :=
  { r with tokens := r.tokens.dropWhile (fun t => t.kind == .documentEnd) }

/-- The document that was read. -/
def document (root : Node) (r : Reader) : Document :=
  let nodes := r.nodes.mergeSort (fun a b => a.2.1 ≤ b.2.1)
  { root := root
    nodes := nodes.map (fun e => (e.1, e.2.2))
    fault? := r.fault?
    followed := !(skipDocumentEnds r).sees [.streamEnd] }

/-- Reads the first document.  Only directives need three dashes behind them. -/
def readDocument (fuel : Nat) (r : Reader) : Document :=
  match r.peek? with
  | none => document .nothing (r.refuse .endOfStream).2
  | some t =>
    match t.kind with
    | .streamEnd => document .nothing r
    | .versionDirective .. | .tagDirective .. | .documentStart =>
      let r := readDirectives fuel false r
      if r.fault?.isSome then document .nothing r
      else
        let handles := r.handles ++ standardHandles
        match r.peek? with
        | some ⟨.documentStart, _, _⟩ =>
          let (root, r) := readBody fuel { r.skip with handles := handles }
          document root (if r.fault?.isSome then r else r.readDocumentEnd)
        | _ =>
          document .nothing
            (r.refuse (.grammar "did not find expected <document start>" r.place none)).2
    | _ =>
      let (root, r) := readNode fuel true false { r with handles := standardHandles }
      document root (if r.fault?.isSome then r else r.readDocumentEnd)

end Reader

/-- Reads the first document of a text.  Every call takes a token or goes one level down, of
which there are at most three to a token. -/
def ofText (text : String) : Document :=
  let (tokens, tail?) := Lexer.tokens text
  Reader.readDocument (4 * tokens.length + 8) ⟨tokens, tail?, [], [], [], none⟩

end Document

end Provisioner.Yaml
