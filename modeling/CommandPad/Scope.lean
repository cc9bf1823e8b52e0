/-!
# Scopes

A scope is what a bracket or a brace opens and the closer of the same kind closes: a list in
brackets, a compound in braces.

A `Delimiter` is one end of a scope, and `Delimiter.track` follows which scopes are open: an opener
opens one, a closer closes the innermost if it is of its kind and does nothing otherwise.

Results:
* `ofOpener?_opener`, `ofCloser?_closer`: each scope has one opener and one closer.
* `ofOpener?_eq_none_of_closer`: no character is both.
-/

namespace CommandPad

/-- The two kinds of scope. -/
inductive Scope where
  | bracket
  | brace
  deriving DecidableEq, Repr, Inhabited

namespace Scope

/-- The character that opens a scope. -/
def opener : Scope → Char
  | bracket => '['
  | brace => '{'

/-- The character that closes a scope. -/
def closer : Scope → Char
  | bracket => ']'
  | brace => '}'

/-- The scope that a character opens. -/
def ofOpener? (c : Char) : Option Scope :=
  if c = '[' then some bracket else if c = '{' then some brace else none

/-- The scope that a character closes. -/
def ofCloser? (c : Char) : Option Scope :=
  if c = ']' then some bracket else if c = '}' then some brace else none

end Scope

/-- An opening bracket or brace. -/
def isOpener (c : Char) : Bool := (Scope.ofOpener? c).isSome

/-- A closing bracket or brace. -/
def isCloser (c : Char) : Bool := (Scope.ofCloser? c).isSome

/-- The depth after a character: an opener goes one level down, a closer one level up, and a closer
at the top changes nothing. -/
def depthAfter (depth : Nat) (c : Char) : Nat :=
  if isOpener c then depth + 1 else if isCloser c then depth - 1 else depth

namespace Scope

@[simp] theorem ofOpener?_opener (s : Scope) : ofOpener? s.opener = some s := by cases s <;> rfl

@[simp] theorem ofCloser?_closer (s : Scope) : ofCloser? s.closer = some s := by cases s <;> rfl

theorem eq_opener_of_ofOpener? {c : Char} {s : Scope} (h : ofOpener? c = some s) :
    c = s.opener := by
  unfold ofOpener? at h
  split at h
  next hc => cases h; exact hc
  next =>
    split at h
    next hc => cases h; exact hc
    next => cases h

theorem eq_closer_of_ofCloser? {c : Char} {s : Scope} (h : ofCloser? c = some s) :
    c = s.closer := by
  unfold ofCloser? at h
  split at h
  next hc => cases h; exact hc
  next =>
    split at h
    next hc => cases h; exact hc
    next => cases h

theorem ofOpener?_eq_none_of_closer {c : Char} (h : isCloser c = true) : ofOpener? c = none := by
  obtain ⟨s, hs⟩ := Option.isSome_iff_exists.1 h
  rw [eq_closer_of_ofCloser? hs]
  cases s <;> rfl

end Scope

/-! ## The two ends of a scope -/

/-- An opener or a closer. -/
inductive Delimiter where
  | opens (s : Scope)
  | closes (s : Scope)
  deriving DecidableEq, Repr, Inhabited

namespace Delimiter

/-- The delimiter that a character is. -/
def ofChar? (c : Char) : Option Delimiter :=
  match Scope.ofOpener? c with
  | some s => some (opens s)
  | none => (Scope.ofCloser? c).map closes

/-- The character of a delimiter. -/
def char : Delimiter → Char
  | opens s => s.opener
  | closes s => s.closer

/-- The open scopes after a delimiter, innermost first. -/
def track : List Scope → Delimiter → List Scope
  | stack, opens s => s :: stack
  | [], closes _ => []
  | t :: stack, closes s => if t = s then stack else t :: stack

@[simp] theorem ofChar?_char (d : Delimiter) : ofChar? d.char = some d := by
  rcases d with (_ | _) | (_ | _) <;> rfl

theorem eq_char_of_ofChar? {c : Char} {d : Delimiter} (h : ofChar? c = some d) : c = d.char := by
  unfold ofChar? at h
  split at h
  next s hs =>
    obtain rfl := Option.some.inj h
    exact Scope.eq_opener_of_ofOpener? hs
  next =>
    obtain ⟨s, hs, rfl⟩ := Option.map_eq_some_iff.mp h
    exact Scope.eq_closer_of_ofCloser? hs

/-- A class of characters without the four delimiters has no delimiter in it. -/
theorem ofChar?_eq_none {P : Char → Bool} (hP : ∀ d : Delimiter, P d.char = false) {c : Char}
    (hc : P c = true) : ofChar? c = none := by
  rw [Option.eq_none_iff_forall_ne_some]
  intro d hd
  rw [eq_char_of_ofChar? hd, hP d] at hc
  exact Bool.false_ne_true hc

end Delimiter

end CommandPad
