import CommandPad.Scope

/-!
# Pairing delimiters

`Pairing.run` reads a row of delimiters, each with a reference, and pairs openers with closers. A
closer takes the innermost open scope if that is of its kind; then the two are linked. If it is of
the other kind, both the closer and that opener are flagged, and the scope stays open. A closer
with no scope open is flagged, and so is every opener that is left open in the end.

Nothing depends on what the references are.

Results:
* `stack_step`: the kinds of the open scopes are what `Delimiter.track` follows.
-/

namespace CommandPad

/-- What is known after a row of delimiters. `ρ` is the type of references. -/
structure Pairing (ρ : Type) where
  /-- The openers of the scopes that are open, innermost first. -/
  stack : List (Scope × ρ) := []
  /-- Openers with their closers, the latest closer first. -/
  links : List (ρ × ρ) := []
  /-- Delimiters without a proper partner. -/
  flagged : List ρ := []
  deriving DecidableEq, Repr

namespace Pairing

variable {ρ : Type}

/-- Read one more delimiter. -/
def step (p : Pairing ρ) : Delimiter × ρ → Pairing ρ
  | (.opens s, r) => { p with stack := (s, r) :: p.stack }
  | (.closes s, r) =>
    match p.stack with
    | [] => { p with flagged := r :: p.flagged }
    | (t, o) :: stack =>
      if t = s then { p with stack, links := (o, r) :: p.links }
      else { p with flagged := r :: o :: p.flagged }

/-- Read a row of delimiters. -/
def run (ds : List (Delimiter × ρ)) : Pairing ρ := ds.foldl step {}

/-- The openers that are left open, outermost first. -/
def unclosed (p : Pairing ρ) : List ρ := (p.stack.map Prod.snd).reverse

section
variable [DecidableEq ρ]

/-- Whether a delimiter is at fault: it was flagged, or it is left open. -/
def isFlawed (p : Pairing ρ) (r : ρ) : Bool :=
  p.flagged.contains r || p.stack.any (fun e => e.2 == r)

/-- The delimiter at the other end of the scope. -/
def partner? (p : Pairing ρ) (r : ρ) : Option ρ :=
  p.links.findSome? fun (o, c) => if o = r then some c else if c = r then some o else none

end

theorem stack_step (p : Pairing ρ) (d : Delimiter) (r : ρ) :
    (p.step (d, r)).stack.map Prod.fst = d.track (p.stack.map Prod.fst) := by
  rcases p with ⟨stack, _, _⟩
  cases d with
  | opens s => rfl
  | closes s =>
    cases stack with
    | nil => rfl
    | cons e stack =>
      obtain ⟨t, o⟩ := e
      simp only [step, Delimiter.track, List.map_cons]
      split <;> rfl

end Pairing

end CommandPad
