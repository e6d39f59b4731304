/-
# Documents

A text holds any number of documents of one node each.  An anchor gives a node a name under which
aliases repeat it.  Neither anchors nor directives reach beyond their document, and of the
directives before a document only the last one counts.

Reading takes the lexemes from left to right.  `fuel` bounds the steps; each lexeme leads to a few.
-/
import AccessRules.Yaml.Lexeme
import AccessRules.Yaml.Node

namespace AccessRules.Yaml

namespace Node

/-- The node that stands where nothing is written. -/
def missing : Node := null

/-! ## 1. The reader -/

/-- What is left to read, and the anchors so far.  Each anchor has a number, under which its node
is kept once it is complete. -/
structure Reader where
  lexemes : List Lexeme
  handles : TagHandles
  names : Assoc String Nat
  nodes : Assoc Nat Node
  anchors : Nat

/-- What can stand before a node: an anchor and a tag, in either order. -/
structure Properties where
  anchor : Option Nat
  tag : Option Tag

namespace Reader

/-- The reader at the start of a document. -/
def start (handles : TagHandles) (lexemes : List Lexeme) : Reader := ⟨lexemes, handles, [], [], 0⟩

/-- The next lexeme. -/
def next? (r : Reader) : Option Lexeme := r.lexemes.head?

/-- The reader after the next lexeme. -/
def skip (r : Reader) : Reader := { r with lexemes := r.lexemes.tail }

/-- Whether the next lexeme is one of the given ones. -/
def nextIs (r : Reader) (xs : List Lexeme) : Bool := r.next?.any xs.contains

/-- Registers an anchor. -/
def register (r : Reader) (name : String) : Nat × Reader :=
  let n := r.anchors
  (n, { r with names := Assoc.insert name n r.names, anchors := n + 1 })

/-- Keeps the node of an anchor, if there is one. -/
def keep (r : Reader) (anchor : Option Nat) (node : Node) : Reader :=
  match anchor with
  | some n => { r with nodes := Assoc.insert n node r.nodes }
  | none => r

/-- The node that an alias repeats. -/
def repeated? (r : Reader) (name : String) : Option Node :=
  (Assoc.find? name r.names).map fun n => (Assoc.find? n r.nodes).getD unfit

/-- Reads an anchor, if one comes next. -/
def anchor (r : Reader) : Option Nat × Reader :=
  match r.next? with
  | some (.anchor name) =>
    let (n, r) := r.skip.register name
    (some n, r)
  | _ => (none, r)

/-- Reads a tag, if one comes next. -/
def tag? (r : Reader) : Option (Option Tag × Reader) :=
  match r.next? with
  | some (.tag t) => (t.meaning? r.handles).map fun tag => (some tag, r.skip)
  | _ => some (none, r)

/-- Reads what stands before a node. -/
def properties? (r : Reader) : Option (Properties × Reader) :=
  match r.anchor with
  | (some n, r) => r.tag?.map fun (tag, r) => (⟨some n, tag⟩, r)
  | (none, r) =>
    r.tag?.map fun (tag, r) =>
      let (n, r) := if tag.isSome then r.anchor else (none, r)
      (⟨n, tag⟩, r)

end Reader

/-- Completes a node that was read. -/
def complete (anchor : Option Nat) (read : Option (Node × Reader)) : Option (Node × Reader) :=
  read.map fun (node, r) => (node, r.keep anchor node)

/-- Completes a mapping whose entries are given in reverse. -/
def completeMapping (entries : List (Node × Node)) (r : Reader) : Option (Node × Reader) :=
  (ofReversed? entries).map (·, r)

/-! ## 2. Collections -/

mutual

/-- Reads a node.  A block may stand only where `inBlock` says so, a sequence without indentation
of its own only where `indentless` does. -/
def read (fuel : Nat) (inBlock indentless : Bool) (r : Reader) : Option (Node × Reader) :=
  match fuel with
  | 0 => none
  | fuel + 1 =>
    match r.next? with
    | some (.alias name) => (r.repeated? name).map (·, r.skip)
    | _ =>
      match r.properties? with
      | none => none
      | some (p, r) =>
        match r.next? with
        | some (.scalar isPlain s) =>
          complete p.anchor (some (ofScalar isPlain p.tag s, r.skip))
        | some .flowSequence => complete p.anchor (readFlowItems fuel true [] r.skip)
        | some .flowMapping => complete p.anchor (readFlowEntries fuel true [] r.skip)
        | some .blockEntry =>
          if indentless then complete p.anchor (readIndentless fuel [] r)
          else readNothing p r
        | some .blockSequence =>
          if inBlock then complete p.anchor (readBlockItems fuel [] r.skip) else readNothing p r
        | some .blockMapping =>
          if inBlock then complete p.anchor (readBlockEntries fuel [] r.skip)
          else readNothing p r
        | _ => readNothing p r

/-- Reads the node that is missing behind an anchor or a tag, which is an empty scalar. -/
def readNothing (p : Properties) (r : Reader) : Option (Node × Reader) :=
  if p.anchor.isSome || p.tag.isSome then complete p.anchor (some (ofScalar true p.tag "", r))
  else none

/-- Reads the entries of a block sequence, given those before in reverse. -/
def readBlockItems (fuel : Nat) (done : List Node) (r : Reader) : Option (Node × Reader) :=
  match fuel with
  | 0 => none
  | fuel + 1 =>
    match r.next? with
    | some .blockEnd => some (sequence done.reverse, r.skip)
    | some .blockEntry =>
      let r := r.skip
      if r.nextIs [.blockEntry, .blockEnd] then readBlockItems fuel (missing :: done) r
      else
        match read fuel true false r with
        | some (node, r) => readBlockItems fuel (node :: done) r
        | none => none
    | _ => none

/-- Reads the entries of a sequence without indentation of its own. -/
def readIndentless (fuel : Nat) (done : List Node) (r : Reader) : Option (Node × Reader) :=
  match fuel with
  | 0 => none
  | fuel + 1 =>
    match r.next? with
    | some .blockEntry =>
      let r := r.skip
      if r.nextIs [.blockEntry, .key, .value, .blockEnd] then
        readIndentless fuel (missing :: done) r
      else
        match read fuel true false r with
        | some (node, r) => readIndentless fuel (node :: done) r
        | none => none
    | _ => some (sequence done.reverse, r)

/-- Reads the entries of a block mapping. -/
def readBlockEntries (fuel : Nat) (done : List (Node × Node)) (r : Reader) :
    Option (Node × Reader) :=
  match fuel with
  | 0 => none
  | fuel + 1 =>
    match r.next? with
    | some .blockEnd => completeMapping done r.skip
    | some .key =>
      match readPart fuel [.key, .value, .blockEnd] true r.skip with
      | none => none
      | some (name, r) =>
        match readBlockValue fuel r with
        | none => none
        | some (value, r) => readBlockEntries fuel ((name, value) :: done) r
    | some .value =>
      match readBlockValue fuel r with
      | none => none
      | some (value, r) => readBlockEntries fuel ((missing, value) :: done) r
    | _ => none

/-- Reads what stands behind the name of an entry of a block mapping. -/
def readBlockValue (fuel : Nat) (r : Reader) : Option (Node × Reader) :=
  match fuel with
  | 0 => none
  | fuel + 1 =>
    if r.nextIs [.value] then readPart fuel [.key, .value, .blockEnd] true r.skip
    else some (missing, r)

/-- Reads a node, or finds that there is none before one of the given lexemes. -/
def readPart (fuel : Nat) (stops : List Lexeme) (inBlock : Bool) (r : Reader) :
    Option (Node × Reader) :=
  match fuel with
  | 0 => none
  | fuel + 1 => if r.nextIs stops then some (missing, r) else read fuel inBlock inBlock r

/-- Reads the items of a flow sequence.  Items but the first come after a comma; an item with a
name is a mapping of one entry. -/
def readFlowItems (fuel : Nat) (isFirst : Bool) (done : List Node) (r : Reader) :
    Option (Node × Reader) :=
  match fuel with
  | 0 => none
  | fuel + 1 =>
    if r.nextIs [.flowSequenceEnd] then some (sequence done.reverse, r.skip)
    else if !isFirst && !r.nextIs [.flowEntry] then none
    else
      let r := if isFirst then r else r.skip
      match r.next? with
      | some .flowSequenceEnd => some (sequence done.reverse, r.skip)
      | some .key =>
        match readFlowName fuel r.skip with
        | none => none
        | some (name, r) =>
          match readFlowValue fuel [.flowEntry, .flowSequenceEnd] r with
          | none => none
          | some (value, r) =>
            match ofReversed? [(name, value)] with
            | none => none
            | some node => readFlowItems fuel false (node :: done) r
      | _ =>
        match read fuel false false r with
        | none => none
        | some (node, r) => readFlowItems fuel false (node :: done) r

/-- Reads the name of an entry within a flow sequence.  A lexeme that shows that the name is
missing is passed over. -/
def readFlowName (fuel : Nat) (r : Reader) : Option (Node × Reader) :=
  match fuel with
  | 0 => none
  | fuel + 1 =>
    if r.nextIs [.value, .flowEntry, .flowSequenceEnd] then some (missing, r.skip)
    else read fuel false false r

/-- Reads what stands behind the name of an entry in flow style. -/
def readFlowValue (fuel : Nat) (stops : List Lexeme) (r : Reader) : Option (Node × Reader) :=
  match fuel with
  | 0 => none
  | fuel + 1 =>
    if r.nextIs [.value] then readPart fuel stops false r.skip else some (missing, r)

/-- Reads the entries of a flow mapping. -/
def readFlowEntries (fuel : Nat) (isFirst : Bool) (done : List (Node × Node)) (r : Reader) :
    Option (Node × Reader) :=
  match fuel with
  | 0 => none
  | fuel + 1 =>
    if r.nextIs [.flowMappingEnd] then completeMapping done r.skip
    else if !isFirst && !r.nextIs [.flowEntry] then none
    else
      let stops := [.value, .flowEntry, .flowMappingEnd]
      let r := if isFirst then r else r.skip
      match r.next? with
      | some .flowMappingEnd => completeMapping done r.skip
      | some .key =>
        match readPart fuel stops false r.skip with
        | none => none
        | some (name, r) =>
          match readFlowValue fuel [.flowEntry, .flowMappingEnd] r with
          | none => none
          | some (value, r) => readFlowEntries fuel false ((name, value) :: done) r
      | some .value =>
        match readFlowValue fuel [.flowEntry, .flowMappingEnd] r with
        | none => none
        | some (value, r) => readFlowEntries fuel false ((missing, value) :: done) r
      | _ =>
        match read fuel false false r with
        | none => none
        | some (name, r) => readFlowEntries fuel false ((name, missing) :: done) r

end

/-! ## 3. Documents -/

/-- Enough steps for so many lexemes. -/
def enoughFuel (lexemes : List Lexeme) : Nat := 4 * lexemes.length + 4

/-- A node of a document and the lexemes behind it. -/
def readRoot (handles : TagHandles) (xs : List Lexeme) : Option (Node × List Lexeme) :=
  (read (enoughFuel xs) true false (.start handles xs)).map fun (node, r) => (node, r.lexemes)

/-- What handles stand for after a directive; those before it no longer count. -/
def handlesOf : Directive → TagHandles
  | .handle name lead => [(name, lead)]
  | .version => []
  | .unknown => []

/-- Reads the directives before a document, of which one at most may be on the version. -/
def readDirectives (versioned : Bool) (handles : TagHandles) :
    List Lexeme → Option (TagHandles × List Lexeme)
  | .directive d :: xs =>
    if d = .version then
      if versioned then none else readDirectives true (handlesOf d) xs
    else readDirectives versioned (handlesOf d) xs
  | xs => some (handles, xs)

/-- Whether a lexeme stands at the edge of a document. -/
def atEdge : Lexeme → Bool
  | .directive _ => true
  | .documentStart => true
  | .documentEnd => true
  | _ => false

/-- Reads the node of a document that starts with its mark. -/
def readMarked? (xs : List Lexeme) : Option (Node × List Lexeme) :=
  match readDirectives false [] xs with
  | some (handles, .documentStart :: xs) =>
    if xs.head?.all atEdge then some (missing, xs) else readRoot handles xs
  | _ => none

/-- Reads the documents from a place on.  A document may lack its mark at the start of the text and
behind the end of another document, and only there may directives stand. -/
def documentsFrom (fuel : Nat) (isFree : Bool) (xs : List Lexeme) : Option (List Node) :=
  match fuel with
  | 0 => none
  | fuel + 1 =>
    match xs.dropWhile (· == .documentEnd) with
    | [] => some []
    | x :: xs =>
      let read := if isFree && !atEdge x then readRoot [] (x :: xs) else readMarked? (x :: xs)
      match read with
      | none => none
      | some (node, .documentEnd :: xs) => (documentsFrom fuel true xs).map (node :: ·)
      | some (_, .directive _ :: _) => none
      | some (node, xs) => (documentsFrom fuel false xs).map (node :: ·)

/-- The documents of a text. -/
def documents? (s : String) : Option (List Node) :=
  (lexemes? s).bind fun xs => documentsFrom (xs.length + 1) true xs

end Node

end AccessRules.Yaml
