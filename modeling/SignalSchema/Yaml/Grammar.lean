import SignalSchema.Yaml.Node

/-!
# From tokens to nodes

The grammar of layer texts. A key or value that is not written is an absent node; where one may
be left out follows from the token after it.
-/

namespace SignalSchema.Yaml

/-- What tag handles stand for. -/
abbrev Handles := List (String × String)

/-- The handles that need no directive. -/
def Handles.standard : Handles := [("!", "!"), ("!!", "tag:yaml.org,2002:")]

namespace Grammar

/-- Whether one of the given tokens comes first. -/
def startsWith (tokens : List Token) (ends : List Token) : Bool :=
  tokens.head?.any ends.contains

/-- The tokens after the comma that comes before all parts but the first. -/
def afterComma? (first : Bool) (tokens : List Token) : Option (List Token) :=
  if first then some tokens
  else if startsWith tokens [.flowEntry] then some tokens.tail
  else none

/-- The full tag. -/
def tag? (handles : Handles) (handle rest : String) : Option String :=
  if handle.isEmpty then some rest else (handles.lookup handle).map (· ++ rest)

/-- An anchor and a tag in either order, of which both may be missing. -/
def readProperties (handles : Handles) : List Token → Option (Properties String × List Token)
  | .anchor name :: .tag handle rest :: tokens =>
    (tag? handles handle rest).map fun tag => (⟨some name, some tag⟩, tokens)
  | .anchor name :: tokens => some (⟨some name, none⟩, tokens)
  | .tag handle rest :: .anchor name :: tokens =>
    (tag? handles handle rest).map fun tag => (⟨some name, some tag⟩, tokens)
  | .tag handle rest :: tokens =>
    (tag? handles handle rest).map fun tag => (⟨none, some tag⟩, tokens)
  | tokens => some (Properties.empty, tokens)

/-- A scalar does not keep the tag that says nothing. -/
def scalarProperties (properties : Properties String) : Properties String :=
  if properties.tag == some "!" then { properties with tag := none } else properties

mutual
/-- A node. A block collection is only accepted if `block` is set, and a sequence at the
indentation of the mapping around it only if `level` is. -/
def readNode (handles : Handles) (block level : Bool) :
    Nat → List Token → Option (Node String × List Token)
  | 0, _ => none
  | _ + 1, .alias name :: tokens => some (.alias name, tokens)
  | fuel + 1, tokens => do
    let (properties, tokens) ← readProperties handles tokens
    let absent : Option (Node String × List Token) :=
      if properties.anchor.isNone && properties.tag.isNone then none
      else some (.scalar properties .plain "", tokens)
    match tokens with
    | .blockEntry :: _ =>
      if level then do
        let (items, tokens) ← readLevelItems handles fuel tokens
        some (.sequence properties items, tokens)
      else absent
    | .scalar style text :: tokens =>
      some (.scalar (scalarProperties properties) style text, tokens)
    | .flowSequence :: tokens => do
      let (items, tokens) ← readFlowItems handles true fuel tokens
      some (.sequence properties items, tokens)
    | .flowMapping :: tokens => do
      let (entries, tokens) ← readFlowEntries handles true fuel tokens
      some (.mapping properties entries, tokens)
    | .blockSequence :: tokens =>
      if block then do
        let (items, tokens) ← readBlockItems handles fuel tokens
        some (.sequence properties items, tokens)
      else absent
    | .blockMapping :: tokens =>
      if block then do
        let (entries, tokens) ← readBlockEntries handles fuel tokens
        some (.mapping properties entries, tokens)
      else absent
    | _ => absent
/-- A node, or an absent one if one of the tokens `ends` comes first. -/
def readOptional (handles : Handles) (block level : Bool) (ends : List Token) :
    Nat → List Token → Option (Node String × List Token)
  | 0, _ => none
  | fuel + 1, tokens =>
    if startsWith tokens ends then some (Node.absent, tokens)
    else readNode handles block level fuel tokens
/-- The value of a key, absent if it has no mark. -/
def readValue (handles : Handles) (block level : Bool) (ends : List Token) :
    Nat → List Token → Option (Node String × List Token)
  | 0, _ => none
  | fuel + 1, .value :: tokens => readOptional handles block level ends fuel tokens
  | _ + 1, tokens => some (Node.absent, tokens)
/-- The items of a block sequence up to its end. -/
def readBlockItems (handles : Handles) : Nat → List Token → Option (List (Node String) × List Token)
  | 0, _ => none
  | fuel + 1, .blockEntry :: tokens => do
    let (item, tokens) ← readOptional handles true false [.blockEntry, .blockEnd] fuel tokens
    let (rest, tokens) ← readBlockItems handles fuel tokens
    some (item :: rest, tokens)
  | _ + 1, .blockEnd :: tokens => some ([], tokens)
  | _ + 1, _ => none
/-- The items of a sequence at the indentation of the mapping around it. -/
def readLevelItems (handles : Handles) : Nat → List Token → Option (List (Node String) × List Token)
  | 0, _ => none
  | fuel + 1, .blockEntry :: tokens => do
    let (item, tokens) ←
      readOptional handles true false [.blockEntry, .key, .value, .blockEnd] fuel tokens
    let (rest, tokens) ← readLevelItems handles fuel tokens
    some (item :: rest, tokens)
  | _ + 1, tokens => some ([], tokens)
/-- The entries of a block mapping up to its end. -/
def readBlockEntries (handles : Handles) :
    Nat → List Token → Option (List (Node String × Node String) × List Token)
  | 0, _ => none
  | fuel + 1, .key :: tokens => do
    let ends := [Token.key, .value, .blockEnd]
    let (key, tokens) ← readOptional handles true true ends fuel tokens
    let (value, tokens) ← readValue handles true true ends fuel tokens
    let (rest, tokens) ← readBlockEntries handles fuel tokens
    some ((key, value) :: rest, tokens)
  | _ + 1, .blockEnd :: tokens => some ([], tokens)
  | _ + 1, _ => none
/-- The items of a flow sequence up to its end. A comma comes before all but the first. -/
def readFlowItems (handles : Handles) (first : Bool) :
    Nat → List Token → Option (List (Node String) × List Token)
  | 0, _ => none
  | fuel + 1, tokens =>
    if tokens.head? == some .flowSequenceEnd then some ([], tokens.tail)
    else do
      let tokens ← afterComma? first tokens
      match tokens with
      | .flowSequenceEnd :: tokens => some ([], tokens)
      | .key :: tokens => do
        let (pair, tokens) ← readPair handles fuel tokens
        let (rest, tokens) ← readFlowItems handles false fuel tokens
        some (.mapping Properties.empty [pair] :: rest, tokens)
      | tokens => do
        let (item, tokens) ← readNode handles false false fuel tokens
        let (rest, tokens) ← readFlowItems handles false fuel tokens
        some (item :: rest, tokens)
/-- A key and its value as an item of a flow sequence. If the key is absent, the token in its
place is passed over. -/
def readPair (handles : Handles) :
    Nat → List Token → Option ((Node String × Node String) × List Token)
  | 0, _ => none
  | fuel + 1, tokens => do
    let ends := [Token.flowEntry, .flowSequenceEnd]
    let (key, tokens) ←
      if startsWith tokens (.value :: ends) then some (Node.absent, tokens.tail)
      else readNode handles false false fuel tokens
    let (value, tokens) ← readValue handles false false ends fuel tokens
    some ((key, value), tokens)
/-- The entries of a flow mapping up to its end. A comma comes before all but the first. -/
def readFlowEntries (handles : Handles) (first : Bool) :
    Nat → List Token → Option (List (Node String × Node String) × List Token)
  | 0, _ => none
  | fuel + 1, tokens =>
    if tokens.head? == some .flowMappingEnd then some ([], tokens.tail)
    else do
      let tokens ← afterComma? first tokens
      match tokens with
      | .flowMappingEnd :: tokens => some ([], tokens)
      | .key :: tokens => do
        let ends := [Token.flowEntry, .flowMappingEnd]
        let (key, tokens) ← readOptional handles false false (.value :: ends) fuel tokens
        let (value, tokens) ← readValue handles false false ends fuel tokens
        let (rest, tokens) ← readFlowEntries handles false fuel tokens
        some ((key, value) :: rest, tokens)
      | tokens => do
        let (key, tokens) ← readNode handles false false fuel tokens
        let (rest, tokens) ← readFlowEntries handles false fuel tokens
        some ((key, Node.absent) :: rest, tokens)
end

/-- The directives in front of a document: the handles that they introduce. There is at most
one version and one meaning of a handle. -/
def readDirectives (version : Bool) (handles : Handles) : List Token → Option (Handles × List Token)
  | .version :: tokens => if version then none else readDirectives true handles tokens
  | .tagDirective handle text :: tokens =>
    if (handles.lookup handle).isSome then none
    else readDirectives version (handles ++ [(handle, text)]) tokens
  | tokens => some (handles, tokens)

/-- The only document of a text, absent if the text is empty. Only the mark of its end may come
after it. -/
def readDocument (tokens : List Token) : Option (Option (Node String)) := do
  let fuel := 3 * tokens.length + 3
  match tokens with
  | [] => some none
  | first :: _ =>
    let isExplicit :=
      match first with
      | .version => true
      | .tagDirective .. => true
      | .documentStart => true
      | _ => false
    let (node, tokens) ←
      if isExplicit then do
        let (handles, tokens) ← readDirectives false [] tokens
        match tokens with
        | .documentStart :: tokens =>
          let isEmpty :=
            match tokens with
            | [] => true
            | .version :: _ => true
            | .tagDirective .. :: _ => true
            | .documentStart :: _ => true
            | .documentEnd :: _ => true
            | _ => false
          if isEmpty then some (Node.absent, tokens)
          else readNode (handles ++ Handles.standard) true false fuel tokens
        | _ => none
      else readNode Handles.standard true false fuel tokens
    if tokens.all (· == .documentEnd) then some (some node) else none

end Grammar

end SignalSchema.Yaml
