import CommandPad.Yaml.Event

/-!
# YAML documents

The events of a document make a tree. Where the events break off, so does the tree: in the place of
the next value stands a node that tells why, and nothing comes after it.

Anchors are known by number. A new one gets the number of names there are so far; a name that is
given again gets that number too, and leaves it to the next new name. An alias means the last node
of its number in the whole document.
-/

namespace CommandPad.Yaml

/-- Why a document breaks off. -/
inductive Failure where
  | fault (f : Fault)
  | unknownAnchor (mark : Mark)
  deriving DecidableEq, Repr, Inhabited

/-- The wording. -/
def Failure.message : Failure → String
  | fault f => f.message
  | unknownAnchor m => if m.isOrigin then "unknown anchor" else s!"unknown anchor at {m.message}"

/-- The kind of a collection. -/
inductive Shape where
  | sequence
  | mapping
  deriving DecidableEq, Repr, Inhabited

/-- A value. The items of a mapping are its keys and values in turn. -/
inductive Node where
  | scalar (mark : Mark) (anchor : Option Nat) (s : Scalar)
  | aliasOf (mark : Mark) (target : Nat)
  | collection (mark : Mark) (anchor : Option Nat) (shape : Shape) (tag : Option (List Char))
    (items : List Node)
  | broken (f : Failure)
  deriving Repr, Inhabited

namespace Node

mutual

/-- The nodes that have an anchor, in reading order. -/
def anchored : Node → List (Nat × Node)
  | .scalar mark (some n) s => [(n, .scalar mark (some n) s)]
  | .collection mark (some n) shape tag items =>
    (n, .collection mark (some n) shape tag items) :: anchoredIn items
  | .collection _ none _ _ items => anchoredIn items
  | _ => []

/-- The nodes of a list that have an anchor. -/
def anchoredIn : List Node → List (Nat × Node)
  | [] => []
  | n :: ns => anchored n ++ anchoredIn ns

end

mutual

/-- Why a node breaks off, if it does. -/
def failure? : Node → Option Failure
  | .broken f => some f
  | .collection _ _ _ _ items => failureIn? items
  | _ => none

/-- Why a list of nodes breaks off, if it does. -/
def failureIn? : List Node → Option Failure
  | [] => none
  | n :: ns => failure? n <|> failureIn? ns

end

end Node

/-- What the first document of a text holds. -/
structure Document where
  /-- The value, unless the text is blank. -/
  root : Option Node := none
  /-- Why the document breaks off, if it does. -/
  failure : Option Failure := none
  /-- Something comes after it. -/
  followed : Bool := false
  deriving Repr, Inhabited

namespace Document

/-- The node that an alias means. -/
def find? (d : Document) (n : Nat) : Option Node :=
  (((d.root.map Node.anchored).getD []).findRev? (·.1 == n)).map (·.2)

/-- A collection that has not ended, with its items so far, the last one first. -/
structure OpenCollection where
  mark : Mark
  anchor : Option Nat
  shape : Shape
  tag : Option (List Char)
  items : List Node := []
  deriving Repr, Inhabited

/-- The collection when it ends here. -/
def OpenCollection.close (c : OpenCollection) : Node :=
  .collection c.mark c.anchor c.shape c.tag c.items.reverse

/-- A document in the making. -/
structure Builder where
  /-- Collections that have not ended, the innermost first. -/
  pending : List OpenCollection := []
  /-- The names of anchors, with their numbers. -/
  names : List (List Char × Nat) := []
  root : Option Node := none
  deriving Repr, Inhabited

namespace Builder

/-- Add a whole value. -/
def add (b : Builder) (n : Node) : Builder :=
  match b.pending with
  | [] => { b with root := some n }
  | c :: cs => { b with pending := { c with items := n :: c.items } :: cs }

/-- The number of an anchor, and the names with it. -/
def name (b : Builder) : Option (List Char) → Option Nat × Builder
  | none => (none, b)
  | some s =>
    let n := b.names.length
    (some n, { b with names := b.names.filter (·.1 != s) ++ [(s, n)] })

/-- Start a collection. -/
def enter (b : Builder) (mark : Mark) (anchor tag : Option (List Char)) (shape : Shape) :
    Builder :=
  let (n, b) := b.name anchor
  { b with pending := { mark, anchor := n, shape, tag } :: b.pending }

/-- End the innermost collection. -/
def leave (b : Builder) : Builder :=
  match b.pending with
  | [] => b
  | c :: cs => { b with pending := cs }.add c.close

/-- The document when it breaks off here. -/
def breakOff (b : Builder) (f : Failure) : Document :=
  let root :=
    match b.pending, b.root with
    | [], some n => n
    | cs, _ => cs.foldl (fun n c => { c with items := n :: c.items }.close) (.broken f)
  { root := some root, failure := some f }

end Builder

/-- Build a document from its events. `fault` is why there are no more, if the stream does not end.
-/
def build (fault : Option Fault) : List (Event × Mark) → Builder → Document
  | [], b =>
    match fault with
    | some f => b.breakOff (.fault f)
    | none => { root := b.root }
  | (e, mark) :: es, b =>
    match e with
    | .streamEnd => { root := b.root }
    | .documentStart => build fault es b
    | .documentEnd => { root := b.root, followed := (es.head?.map (·.1)) != some .streamEnd }
    | .aliasOf s =>
      match b.names.lookup s with
      | some n => build fault es (b.add (.aliasOf mark n))
      | none => b.breakOff (.unknownAnchor mark)
    | .scalar s =>
      let (n, b) := b.name s.anchor
      build fault es (b.add (.scalar mark n s))
    | .sequenceStart anchor tag => build fault es (b.enter mark anchor tag .sequence)
    | .mappingStart anchor tag => build fault es (b.enter mark anchor tag .mapping)
    | .sequenceEnd | .mappingEnd => build fault es b.leave

/-- The first document of a text. -/
def ofText (s : List Char) : Document :=
  let stream := events s
  build stream.fault stream.items {}

end Document

end CommandPad.Yaml
