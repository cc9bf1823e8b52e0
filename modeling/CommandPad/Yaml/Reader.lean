import CommandPad.Yaml.Node
import CommandPad.Yaml.Plain

/-!
# Reading values from YAML

A reader takes a node to a value of some type, or tells why the node is none. Scalars are read
alike, by what their text has to be. A record is read from a mapping: fields that are not given keep
their defaults, keys that are no fields are passed over, and no field may be given twice.
-/

namespace CommandPad.Yaml

/-- What is wrong with a value. -/
inductive Issue where
  | wrongType (found : Found) (expected : String)
  | wrongValue (text : List Char) (expected : String)
  | duplicateField (name : String)
  | unknownVariant (name : List Char) (variants : List String)
  deriving DecidableEq, Repr, Inhabited

/-- The wording. -/
def Issue.message : Issue → String
  | wrongType found expected => s!"invalid type: {found.message}, expected {expected}"
  | wrongValue text expected =>
    s!"invalid value: {(Found.string text).message}, expected {expected}"
  | duplicateField name => s!"duplicate field `{name}`"
  | unknownVariant name variants =>
    let list := ", ".intercalate (variants.map fun v => s!"`{v}`")
    s!"unknown variant `{String.ofList name}`, expected one of {list}"

/-- Where a value is: a mark, and the keys that lead to it from the root. A key that is an alias is
shown as `?`. -/
structure Place where
  mark : Mark
  path : List (List Char) := []
  deriving DecidableEq, Repr, Inhabited

/-- Why a text gives no value. -/
inductive Refusal where
  | failure (f : Failure)
  | severalDocuments
  | issue (i : Issue) (place : Option Place)
  deriving DecidableEq, Repr, Inhabited

/-- The wording. The path is left out at the root, and the mark at the very start. -/
def Refusal.message : Refusal → String
  | failure f => f.message
  | severalDocuments =>
    "deserializing from YAML containing more than one document is not supported"
  | issue i none => i.message
  | issue i (some p) =>
    let path := if p.path.isEmpty then "" else ".".intercalate (p.path.map String.ofList) ++ ": "
    let mark := if p.mark.isOrigin then "" else s!" at {p.mark.message}"
    path ++ i.message ++ mark

/-- The same refusal, at a place if it has none yet. -/
def Refusal.located (place : Place) : Refusal → Refusal
  | issue i none => .issue i (some place)
  | r => r

/-- A node of a document, and the keys that lead to it. -/
structure Site where
  document : Document
  path : List (List Char) := []
  node : Node
  deriving Repr, Inhabited

/-- Reads a value. -/
abbrev Reader (α : Type) := Site → Except Refusal α

/-- What a node holds, with aliases out of the way. -/
inductive Content where
  | scalar (s : Scalar)
  | collection (shape : Shape) (tag : Option (List Char)) (items : List Node)
  deriving Repr, Inhabited

/-- The tag of a node. -/
def Content.tag : Content → Option (List Char)
  | scalar s => s.tag
  | collection _ tag _ => tag

/-- The content of a node that is no alias. -/
def Node.content : Node → Except Refusal (Mark × Content)
  | .scalar mark _ s => .ok (mark, .scalar s)
  | .collection mark _ shape tag items => .ok (mark, .collection shape tag items)
  | .aliasOf mark _ => .error (.failure (.unknownAnchor mark))
  | .broken f => .error (.failure f)

/-- The content of a node or of what it is an alias of, with its place. -/
def Site.content (s : Site) : Except Refusal (Place × Content) := do
  let (mark, c) ← match s.node with
    | .aliasOf _ n => ((s.document.find? n).getD s.node).content
    | n => n.content
  return (⟨mark, s.path⟩, c)

/-- The text of one of the standard tags. -/
def coreTag (name : String) : List Char := ("tag:yaml.org,2002:" ++ name).toList

/-- A scalar that may be read as what a tag says: a plain one, or a literal block with the tag. -/
def Scalar.readsAs (s : Scalar) (tag : String) : Bool :=
  s.style == .plain || (s.style == .literal && s.tag == some (coreTag tag))

/-- What is wrong with a scalar where something else is expected. A standard tag says what the text
should be, and a text that is not comes first. -/
def Scalar.mismatch (s : Scalar) (expected : String) : Issue :=
  let tagged (found : Option Found) (kind : String) : Issue :=
    match found with
    | some f => .wrongType f expected
    | none => .wrongValue s.text kind
  let plain := Issue.wrongType (.ofPlain s.text) expected
  let text := Issue.wrongType (.string s.text) expected
  match s.tag with
  | none => if s.style = .plain then plain else text
  | some tag =>
    if tag = coreTag "bool" then tagged ((boolean? s.text).map .boolean) "a boolean"
    else if tag = coreTag "int" then tagged ((wideInteger? s.text).map .integer) "an integer"
    else if tag = coreTag "float" then tagged ((floating? s.text).map .floating) "a float"
    else if tag = coreTag "null" then
      tagged (if isNull s.text then some .unit else none) "null"
    else if tag.head? = some '!' ∧ s.style = .plain then plain
    else text

/-- What is wrong with a collection where something else is expected. -/
def Shape.mismatch (shape : Shape) (expected : String) : Issue :=
  .wrongType (match shape with | .sequence => .sequence | .mapping => .map) expected

/-- What is wrong with a node where something else is expected. -/
def Content.mismatch (expected : String) : Content → Issue
  | scalar s => s.mismatch expected
  | collection shape _ _ => shape.mismatch expected

namespace Reader

/-! ## Scalars -/

/-- Read a scalar. -/
def scalar (expected : String) (f : Scalar → Option α) : Reader α := fun s => do
  let (place, c) ← s.content
  let value := match c with
    | .scalar s => f s
    | .collection .. => none
  match value with
  | some a => return a
  | none => throw (.issue (c.mismatch expected) (some place))

/-- Read a text. Any scalar is one. -/
def text (expected : String) : Reader (List Char) := scalar expected (some ·.text)

/-- Read a truth value. -/
def boolean : Reader Bool :=
  scalar "a boolean" fun s => if s.readsAs "bool" then boolean? s.text else none

/-- Read a number of 64 bits. -/
def word : Reader Nat :=
  scalar "usize" fun s => if s.readsAs "int" then word? s.text else none

/-- The name after the exclamation mark that a tag starts with. -/
def localTag? : Option (List Char) → Option (List Char)
  | some ['!'] => some ['!']
  | some ('!' :: name) => some name
  | _ => none

/-- Read one of some names. The name may also be the tag of a value that is nothing. -/
def choice (variants : List (String × α)) : Reader α := fun s => do
  let (place, c) ← s.content
  let pick (name : List Char) (place : Option Place) : Except Refusal α :=
    match variants.find? (·.1.toList == name) with
    | some (_, a) => .ok a
    | none => .error (.issue (.unknownVariant name (variants.map (·.1))) place)
  let refuse (i : Issue) : Except Refusal α := .error (.issue i (some place))
  match localTag? c.tag, c with
  | some name, c => do
    let a ← pick name none
    match c with
    | .scalar s =>
      if s.style = .plain ∧ (s.text.isEmpty ∨ isNull s.text) then return a
      else refuse (.wrongValue s.text "null")
    | .collection shape _ _ => refuse (shape.mismatch "unit")
  | none, .scalar s => pick s.text (some place)
  | none, .collection shape _ _ => refuse (shape.mismatch "a YAML tag starting with '!'")

/-! ## Records -/

/-- A field of a record: its name, and how its value changes the record. -/
structure Field (σ : Type) where
  name : String
  read : σ → Reader σ

/-- What a key adds to a path. -/
def keyStep : Node → List Char
  | .scalar _ _ s => s.text
  | _ => ['?']

/-- Read keys and values in turn. `seen` are the fields that were given. -/
def entries (fields : List (Field σ)) (s : Site) :
    List String → List Node → σ → Except Refusal σ
  | _, [], a => .ok a
  | _, [key], a => do
    let _ ← text "field identifier" { s with node := key }
    return a
  | seen, key :: value :: rest, a => do
    let name ← text "field identifier" { s with node := key }
    match fields.find? (·.name.toList == name) with
    | none =>
      match value.failure? with
      | some f => throw (.failure f)
      | none => entries fields s seen rest a
    | some field =>
      if seen.contains field.name then throw (.issue (.duplicateField field.name) none)
      else
        let a ← field.read a { s with path := s.path ++ [keyStep key], node := value }
        entries fields s (field.name :: seen) rest a

/-- Read a record. `title` names it. -/
def record (title : String) (fields : List (Field σ)) (default : σ) : Reader σ := fun s => do
  let (place, c) ← s.content
  let refused := Refusal.issue (c.mismatch s!"struct {title}") (some place)
  match c with
  | .collection .mapping _ items =>
    (entries fields s [] items default).mapError (Refusal.located place)
  | .scalar s => if s.style = .plain ∧ s.text.isEmpty then return default else throw refused
  | .collection .sequence _ _ => throw refused

end Reader

/-- Read the only document of a text. A blank text gives `blank`. -/
def read (r : Reader α) (blank : α) (s : List Char) : Except Refusal α := do
  let d := Document.ofText s
  let a ← match d.root with
    | none => pure blank
    | some node => r { document := d, node }
  match d.failure with
  | some f => throw (.failure f)
  | none => if d.followed then throw .severalDocuments else return a

end CommandPad.Yaml
