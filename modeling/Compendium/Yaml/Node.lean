import Compendium.Yaml.Stream

/-!
# The value of a text

A text holds one document. Its tokens nest: a value may have an anchor and a tag, and an alias means
the value with that anchor again.
-/

namespace Compendium.Yaml

/-- What is known while tokens are read: the tokens left, the rules for tags, and the numbers of the
anchors by name, each name once. -/
structure Composing where
  tokens : List Token
  tagRules : List (String × String) := []
  anchors : List (String × Nat) := []

/-- Reads tokens, or refuses. -/
abbrev Compose (α : Type) := StateT Composing Option α

namespace Compose

def next : Compose (Option Token) := do
  return (← get).tokens.head?

/-- Passes the next token. -/
def drop : Compose Unit :=
  modify fun s => { s with tokens := s.tokens.drop 1 }

/-- Refuses. -/
def refuse {α : Type} : Compose α := fun _ => none

def isNext (ts : List Token) : Compose Bool := do
  match ← next with
  | some t => return ts.contains t
  | none => return false

/-- Passes the next token if it is a given one. -/
def pass (t : Token) : Compose Bool := do
  if ← isNext [t] then
    drop
    return true
  else return false

/-- A new anchor: its number is how many names there are. A name that is used again moves. -/
def newAnchor (name : String) : Compose Nat := do
  let n := (← get).anchors.length
  modify fun s => { s with anchors := (s.anchors.filter fun a => a.1 != name) ++ [(name, n)] }
  return n

def fullTag (handle suffix : String) : Compose String := do
  if handle.isEmpty then return suffix
  else
    match (← get).tagRules.find? fun r => r.1 == handle with
    | some (_, start) => return start ++ suffix
    | none => refuse

def anchor : Compose (Option Nat) := do
  match ← next with
  | some (.anchor name) =>
    drop
    return some (← newAnchor name)
  | _ => return none

def tag : Compose (Option String) := do
  match ← next with
  | some (.tag handle suffix) =>
    drop
    return some (← fullTag handle suffix)
  | _ => return none

/-- The anchor and the tag of a value, in either order. -/
def properties : Compose (Option Nat × Option String) := do
  match ← anchor with
  | some n => return (some n, ← tag)
  | none =>
    let t ← tag
    return (← anchor, t)

/-- How a value stands: in a block, in a block where a sequence needs no indentation, or in
brackets. -/
inductive Place where
  | block
  | blockValue
  | flow
  deriving DecidableEq, Repr

/-- The value of properties that nothing follows. -/
def bare (mark : Option Nat) (tag : Option String) : Compose Node :=
  if mark.isSome || tag.isSome then return .scalar mark ⟨.plain, tag, ""⟩ else refuse

/-- A value that is read, or nothing before one of some tokens. -/
def emptyBefore (ends : List Token) (read : Compose Node) : Compose Node := do
  if ← isNext ends then return .empty else read

mutual

/-- The value here. The first argument bounds how many steps it takes. -/
def node : Nat → Place → Compose Node
  | 0, _ => refuse
  | n + 1, place => do
    match ← next with
    | some (.alias name) =>
      drop
      match (← get).anchors.find? fun a => a.1 == name with
      | some (_, number) => return .again number
      | none => refuse
    | _ =>
      let (mark, tag) ← properties
      match ← next with
      | some (.scalar style text) =>
        drop
        return .scalar mark ⟨style, tag, text⟩
      | some .flowSequenceStart =>
        drop
        return .sequence mark (← flowItems n true [])
      | some .flowMappingStart =>
        drop
        return .mapping mark (← flowEntries n true [])
      | some .blockSequenceStart =>
        if place == .flow then bare mark tag
        else
          drop
          return .sequence mark (← blockItems n [])
      | some .blockMappingStart =>
        if place == .flow then bare mark tag
        else
          drop
          return .mapping mark (← blockEntries n [])
      | some .blockEntry =>
        if place == .blockValue then return .sequence mark (← openItems n [])
        else bare mark tag
      | _ => bare mark tag

def blockItems : Nat → List Node → Compose (List Node)
  | 0, _ => refuse
  | n + 1, acc => do
    if ← pass .blockEntry then
      let item ← emptyBefore [.blockEntry, .blockEnd] (node n .block)
      blockItems n (item :: acc)
    else if ← pass .blockEnd then return acc.reverse
    else refuse

/-- The items of a sequence that has no indentation of its own. -/
def openItems : Nat → List Node → Compose (List Node)
  | 0, _ => refuse
  | n + 1, acc => do
    if ← pass .blockEntry then
      let item ← emptyBefore [.blockEntry, .key, .value, .blockEnd] (node n .block)
      openItems n (item :: acc)
    else return acc.reverse

def blockEntries : Nat → List (Node × Node) → Compose (List (Node × Node))
  | 0, _ => refuse
  | n + 1, acc => do
    if ← pass .key then
      let key ← emptyBefore [.key, .value, .blockEnd] (node n .blockValue)
      let value ← if ← pass .value then emptyBefore [.key, .value, .blockEnd] (node n .blockValue)
        else pure .empty
      blockEntries n ((key, value) :: acc)
    else if ← pass .blockEnd then return acc.reverse
    else refuse

/-- The items of a sequence in brackets. A pair stands for a mapping with one entry. -/
def flowItems : Nat → Bool → List Node → Compose (List Node)
  | 0, _, _ => refuse
  | n + 1, first, acc => do
    if ← pass .flowSequenceEnd then return acc.reverse
    else
      let separated ← if first then pure true else pass .flowEntry
      if !separated then refuse
      else if ← pass .key then
        let ends := [.value, .flowEntry, .flowSequenceEnd]
        let missing ← isNext ends
        let key ← emptyBefore ends (node n .flow)
        if missing then drop
        let value ← if ← pass .value then emptyBefore [.flowEntry, .flowSequenceEnd] (node n .flow)
          else pure .empty
        flowItems n false (.mapping none [(key, value)] :: acc)
      else if ← pass .flowSequenceEnd then return acc.reverse
      else
        let item ← node n .flow
        flowItems n false (item :: acc)

/-- The entries of a mapping in brackets. -/
def flowEntries : Nat → Bool → List (Node × Node) → Compose (List (Node × Node))
  | 0, _, _ => refuse
  | n + 1, first, acc => do
    if ← pass .flowMappingEnd then return acc.reverse
    else
      let separated ← if first then pure true else pass .flowEntry
      if !separated then refuse
      else if ← pass .key then
        let key ← emptyBefore [.value, .flowEntry, .flowMappingEnd] (node n .flow)
        let value ← if ← pass .value then emptyBefore [.flowEntry, .flowMappingEnd] (node n .flow)
          else pure .empty
        flowEntries n false ((key, value) :: acc)
      else if ← pass .flowMappingEnd then return acc.reverse
      else
        let key ← node n .flow
        flowEntries n false ((key, .empty) :: acc)

end

/-- The directives before a document. The first argument bounds their number. -/
def directives : Nat → Bool → Compose Bool
  | 0, seen => return seen
  | n + 1, seen => do
    match ← next with
    | some (.version major minor) =>
      drop
      if seen || major != 1 || (minor != 1 && minor != 2) then refuse else directives n true
    | some (.tagRule handle start) =>
      drop
      if (← get).tagRules.any fun r => r.1 == handle then refuse
      else
        modify fun s => { s with tagRules := s.tagRules ++ [(handle, start)] }
        directives n seen
    | _ => return seen

/-- Whether a directive is next. -/
def startsDirective : Compose Bool := do
  match ← next with
  | some (.version _ _) => return true
  | some (.tagRule _ _) => return true
  | _ => return false

/-- The document here, if there is one; only marks of its end may follow it. -/
def document : Compose (Option Node) := do
  let size := 4 * (← get).tokens.length + 4
  match ← next with
  | none => return none
  | some _ =>
    let explicit := (← startsDirective) || (← isNext [.documentStart])
    let _ ← directives size false
    modify fun s => { s with tagRules := s.tagRules ++ [("!", "!"), ("!!", "tag:yaml.org,2002:")] }
    if explicit && !(← pass .documentStart) then refuse
    else
      let ended := (← startsDirective) || (← isNext [.documentStart, .documentEnd]) ||
        (← next).isNone
      let root ← if explicit && ended then pure .empty else node size .block
      if (← get).tokens.all fun t => t == .documentEnd then return some root else refuse

end Compose

/-- The value of a text with one document: `some none` for a text without any. -/
def Node.ofText? (text : String) : Option (Option Node) := do
  let tokens ← Token.ofText? text
  let (root, _) ← Compose.document.run { tokens }
  return root

end Compendium.Yaml
