import CommandPad.Proofs.Symbol.Row
import CommandPad.Proofs.Symbol.Table

/-!
# Blocks of a text

A text that leaves no scope and no literal open is a block: what comes below it is read as if it stood
alone, and what it is itself does not depend on what comes below.

Cutting starts anew below a block (`Piece.pieces_append_newline`), and so does pairing, for a closer
below finds no scope open: the two rows of delimiters give two pairings side by side (`run_append`).
Their references lie on lines of their own, so each asks its own pairing.

Results:
* `run_append`: pairing after a row that leaves no scope open.
* `pairing_append_newline`: what pairing finds in a block and in what comes below.
* **`bare_lines_append_newline`**: but for kinds, which look across lines, the table of a block and what
  comes below has the lines of both tables, those of the second one moved down.
-/

namespace CommandPad

open Text
open Format.Item (quotingAfter)

/-! ## Two rows of delimiters -/

namespace Pairing

variable {ρ σ : Type} {P : ρ → Prop} {p q : Pairing ρ} {r : ρ}

/-- What is known after two rows, `p` after the first and `q` of the second alone, when the first one
leaves no scope open. -/
def beside (p q : Pairing ρ) : Pairing ρ where
  stack := q.stack
  links := q.links ++ p.links
  flagged := q.flagged ++ p.flagged

theorem step_beside (p q : Pairing ρ) (e : Delimiter × ρ) :
    (p.beside q).step e = p.beside (q.step e) := by
  obtain ⟨d, r⟩ := e
  rcases q with ⟨stack, links, flagged⟩
  cases d with
  | opens s => rfl
  | closes s =>
    cases stack with
    | nil => rfl
    | cons e stack =>
      simp only [step, beside]
      split <;> rfl

theorem foldl_step_beside (p q : Pairing ρ) (es : List (Delimiter × ρ)) :
    es.foldl step (p.beside q) = p.beside (es.foldl step q) := by
  induction es generalizing q with
  | nil => rfl
  | cons e es ih => rw [List.foldl_cons, List.foldl_cons, step_beside, ih]

/-- **After a row that leaves no scope open pairing starts anew.** -/
theorem run_append {ds : List (Delimiter × ρ)} (h : (run ds).stack = [])
    (es : List (Delimiter × ρ)) : run (ds ++ es) = (run ds).beside (run es) := by
  have hstart : (run ds).beside {} = run ds := by
    rw [beside, ← h]
    rfl
  rw [run, List.foldl_append, ← run, ← hstart, foldl_step_beside, hstart]
  rfl

/-- The kinds of the open scopes are what `Delimiter.track` follows along a row. -/
theorem stack_foldl_step (p : Pairing ρ) (ds : List (Delimiter × ρ)) :
    (ds.foldl step p).stack.map Prod.fst =
      (ds.map Prod.fst).foldl Delimiter.track (p.stack.map Prod.fst) := by
  induction ds generalizing p with
  | nil => rfl
  | cons e ds ih =>
    obtain ⟨d, r⟩ := e
    rw [List.foldl_cons, ih, stack_step]
    rfl

/-- All references satisfy `P`. -/
structure Among (P : ρ → Prop) (p : Pairing ρ) : Prop where
  stack : ∀ e ∈ p.stack, P e.2
  links : ∀ l ∈ p.links, P l.1 ∧ P l.2
  flagged : ∀ r ∈ p.flagged, P r

theorem Among.step (h : p.Among P) (hr : P r) (d : Delimiter) : (p.step (d, r)).Among P := by
  cases d with
  | opens s => exact ⟨List.forall_mem_cons.mpr ⟨hr, h.stack⟩, h.links, h.flagged⟩
  | closes s =>
    simp only [Pairing.step]
    split
    · exact ⟨h.stack, h.links, List.forall_mem_cons.mpr ⟨hr, h.flagged⟩⟩
    · rename_i t o stack hs
      have hstack := h.stack
      rw [hs, List.forall_mem_cons] at hstack
      split
      · exact ⟨hstack.2, List.forall_mem_cons.mpr ⟨⟨hstack.1, hr⟩, h.links⟩, h.flagged⟩
      · refine ⟨h.stack, h.links, List.forall_mem_cons.mpr ⟨hr, ?_⟩⟩
        exact List.forall_mem_cons.mpr ⟨hstack.1, h.flagged⟩

theorem Among.foldl_step (h : p.Among P) {ds : List (Delimiter × ρ)} (hds : ∀ e ∈ ds, P e.2) :
    (ds.foldl Pairing.step p).Among P := by
  induction ds generalizing p with
  | nil => exact h
  | cons e ds ih =>
    obtain ⟨he, hds⟩ := List.forall_mem_cons.mp hds
    exact ih (h.step he e.1) hds

/-- Pairing brings in no references of its own. -/
theorem among_run {ds : List (Delimiter × ρ)} (hds : ∀ e ∈ ds, P e.2) : (run ds).Among P :=
  Among.foldl_step ⟨by simp, by simp, by simp⟩ hds

theorem among_map {Q : σ → Prop} {f : ρ → σ} (hf : ∀ r, Q (f r)) (p : Pairing ρ) :
    (p.map f).Among Q where
  stack := by
    rintro e he
    obtain ⟨e, -, rfl⟩ := List.mem_map.mp he
    exact hf e.2
  links := by
    rintro l hl
    obtain ⟨l, -, rfl⟩ := List.mem_map.mp hl
    exact ⟨hf l.1, hf l.2⟩
  flagged := by
    rintro r hr
    obtain ⟨r, -, rfl⟩ := List.mem_map.mp hr
    exact hf r

section
variable [DecidableEq ρ]

/-- Of other references nothing is said. -/
theorem Among.isFlawed_eq_false (h : p.Among P) (hr : ¬ P r) : p.isFlawed r = false := by
  rw [isFlawed, Bool.or_eq_false_iff, List.any_eq_false]
  constructor
  · rw [← Bool.not_eq_true, List.contains_iff_mem]
    exact fun hmem => hr (h.flagged r hmem)
  · intro e he heq
    exact hr (beq_iff_eq.mp heq ▸ h.stack e he)

theorem Among.partner?_eq_none (h : p.Among P) (hr : ¬ P r) : p.partner? r = none := by
  rw [partner?, List.findSome?_eq_none_iff]
  intro l hl
  obtain ⟨ho, hc⟩ := h.links l hl
  have hone : l.1 ≠ r := fun heq => hr (heq ▸ ho)
  have htwo : l.2 ≠ r := fun heq => hr (heq ▸ hc)
  dsimp only
  rw [if_neg hone, if_neg htwo]

theorem isFlawed_beside (hp : p.stack = []) :
    (p.beside q).isFlawed r = (q.isFlawed r || p.isFlawed r) := by
  simp only [isFlawed, beside, hp, List.any_nil, Bool.or_false, List.contains_append]
  ac_rfl

theorem partner?_beside : (p.beside q).partner? r = (q.partner? r).or (p.partner? r) :=
  List.findSome?_append

end

end Pairing

/-! ## Moving a table down -/

/-- The place so many lines further down. -/
def SymbolRef.below (n : Nat) (r : SymbolRef) : SymbolRef := ⟨r.line + n, r.index⟩

theorem SymbolRef.below_injective {n : Nat} {q r : SymbolRef} (h : q.below n = r.below n) :
    q = r := by
  obtain ⟨hline, hindex⟩ := SymbolRef.mk.inj h
  obtain ⟨line, index⟩ := q
  obtain ⟨line', index'⟩ := r
  simp only [SymbolRef.mk.injEq] at hline hindex ⊢
  omega

/-- The symbol so many lines further down, and its sibling with it. -/
def Symbol.below (n : Nat) (a : Symbol) : Symbol :=
  { a with ref := a.ref.below n, sibling := a.sibling.map (·.below n) }

namespace SymbolTable

theorem place_append (ls ms : List (List Piece)) :
    place (ls ++ ms) = place ls ++ (place ms).map (·.map (Symbol.below ls.length)) := by
  rw [place, List.mapIdx_append]
  refine congrArg (place ls ++ ·) (List.ext_getElem? fun i => ?_)
  rw [List.getElem?_map, place, List.getElem?_mapIdx, List.getElem?_mapIdx]
  cases ms[i]? with
  | none => rfl
  | some ps =>
    refine congrArg some (List.ext_getElem? fun j => ?_)
    rw [List.getElem?_map, List.getElem?_mapIdx, List.getElem?_mapIdx]
    cases ps[j]? <;> rfl

theorem line_lt_of_mem_place {ls : List (List Piece)} {b : Symbol} (h : b ∈ (place ls).flatten) :
    b.ref.line < ls.length := by
  obtain ⟨row, hrow, hb⟩ := List.mem_flatten.mp h
  obtain ⟨i, hi, rfl⟩ := List.mem_mapIdx.mp hrow
  obtain ⟨j, hj, rfl⟩ := List.mem_mapIdx.mp hb
  exact hi

theorem delimiters_append (ls ms : List (List Symbol)) :
    delimiters (ls ++ ms) = delimiters ls ++ delimiters ms := by
  rw [delimiters, List.flatten_append, List.filterMap_append]
  rfl

theorem delimiters_below (n : Nat) (ls : List (List Symbol)) :
    delimiters (ls.map (·.map (Symbol.below n))) =
      (delimiters ls).map (Prod.map id (SymbolRef.below n)) := by
  rw [delimiters, ← List.map_flatten, List.filterMap_map, delimiters, List.map_filterMap]
  refine congrArg (List.filterMap · ls.flatten) ?_
  funext b
  rw [Function.comp_apply, Option.map_map]
  rfl

/-! ## Below a block -/

section
variable {s : List Char}

theorem stack_pairing_of_closed (h : (ofText s).unclosed = []) : (pairing s).stack = [] :=
  List.map_eq_nil_iff.mp (List.reverse_eq_nil_iff.mp h)

/-- What pairing leaves open is what cutting leaves open. -/
theorem foldl_track_of_closed (h : (ofText s).unclosed = []) :
    (Delimiter.ofText s).foldl Delimiter.track [] = [] := by
  have hstack := Pairing.stack_foldl_step {} (delimiters (placed s))
  rw [map_fst_delimiters] at hstack
  calc (Delimiter.ofText s).foldl Delimiter.track []
      = (pairing s).stack.map Prod.fst := hstack.symm
    _ = [] := by rw [stack_pairing_of_closed h, List.map_nil]

theorem length_pieces_eq_length_lines : (Piece.ofText s).length = (ofText s).lines.length := by
  rw [← map_toPiece_lines, List.length_map]

theorem line_lt_of_mem_delimiters {e : Delimiter × SymbolRef} (h : e ∈ delimiters (placed s)) :
    e.2.line < (ofText s).lines.length := by
  obtain ⟨b, hb, he⟩ := List.mem_filterMap.mp h
  obtain ⟨d, -, rfl⟩ := Option.map_eq_some_iff.mp he
  exact length_pieces_eq_length_lines ▸ line_lt_of_mem_place hb

/-- The references of a block are those of its lines. -/
theorem among_pairing (s : List Char) :
    (pairing s).Among fun r => r.line < (ofText s).lines.length :=
  Pairing.among_run fun _ he => line_lt_of_mem_delimiters he

variable (t : List Char) (hclosed : (ofText s).unclosed = [])
  (hliteral : quotingAfter .outside s = .outside)
include hclosed hliteral

theorem placed_append_newline : placed (s ++ '\n' :: t) =
    placed s ++ (placed t).map (·.map (Symbol.below (ofText s).lines.length)) := by
  rw [placed, Piece.pieces_append_newline t (foldl_track_of_closed hclosed) hliteral, place_append,
    length_pieces_eq_length_lines]
  rfl

/-- **A block and what comes below it are paired side by side.** -/
theorem pairing_append_newline : pairing (s ++ '\n' :: t) =
    (pairing s).beside ((pairing t).map (SymbolRef.below (ofText s).lines.length)) := by
  rw [pairing, placed_append_newline t hclosed hliteral, delimiters_append, delimiters_below,
    Pairing.run_append (stack_pairing_of_closed hclosed), Pairing.run_map]
  rfl

/-- A symbol of the block is marked as if nothing came below. -/
theorem mark_of_mem_placed {b : Symbol} (hb : b ∈ (placed s).flatten) :
    mark (pairing (s ++ '\n' :: t)) b = mark (pairing s) b := by
  have hline : b.ref.line < (ofText s).lines.length :=
    length_pieces_eq_length_lines ▸ line_lt_of_mem_place hb
  have hother : ((pairing t).map (SymbolRef.below (ofText s).lines.length)).Among
      fun r => (ofText s).lines.length ≤ r.line :=
    Pairing.among_map (f := SymbolRef.below (ofText s).lines.length)
      (Q := fun r => (ofText s).lines.length ≤ r.line) (fun r => Nat.le_add_left _ r.line) _
  have hnot : ¬ (ofText s).lines.length ≤ b.ref.line := Nat.not_le.mpr hline
  rw [pairing_append_newline t hclosed hliteral]
  unfold mark
  rw [Pairing.isFlawed_beside (stack_pairing_of_closed hclosed), Pairing.partner?_beside,
    hother.isFlawed_eq_false hnot, hother.partner?_eq_none hnot, Bool.false_or, Option.none_or]

/-- A symbol below the block is marked as if it stood there alone. -/
theorem mark_below (b : Symbol) :
    mark (pairing (s ++ '\n' :: t)) (b.below (ofText s).lines.length) =
      (mark (pairing t) b).below (ofText s).lines.length := by
  have hnot : ¬ (b.ref.below (ofText s).lines.length).line < (ofText s).lines.length :=
    Nat.not_lt.mpr (Nat.le_add_left _ b.ref.line)
  have hflawed : ((pairing t).map (SymbolRef.below (ofText s).lines.length)).isFlawed
      (b.ref.below (ofText s).lines.length) = (pairing t).isFlawed b.ref :=
    Pairing.isFlawed_map (fun _ _ h => SymbolRef.below_injective h)
      fun _ _ h => SymbolRef.below_injective h
  have hpartner : ((pairing t).map (SymbolRef.below (ofText s).lines.length)).partner?
      (b.ref.below (ofText s).lines.length) =
      ((pairing t).partner? b.ref).map (SymbolRef.below (ofText s).lines.length) :=
    Pairing.partner?_map fun _ _ =>
      ⟨fun h => SymbolRef.below_injective h, fun h => SymbolRef.below_injective h⟩
  rw [pairing_append_newline t hclosed hliteral]
  unfold mark
  change (if b.role.delimiter?.isSome then _ else _) = Symbol.below _ (if _ then _ else _)
  split
  · simp only [Symbol.below, Pairing.isFlawed_beside (stack_pairing_of_closed hclosed),
      Pairing.partner?_beside, (among_pairing s).isFlawed_eq_false hnot,
      (among_pairing s).partner?_eq_none hnot, hflawed, hpartner, Bool.or_false, Option.or_none]
  · rfl

/-- **What comes below a block is read as if it stood alone.** A text that leaves no scope and no
literal open has the same lines in its table whatever comes below it, and the lines of what comes
below, and the openers left open there, are its own, moved down. Only kinds look across lines. -/
theorem bare_lines_append_newline :
    (ofText (s ++ '\n' :: t)).lines.map (·.map bare) =
      (ofText s).lines.map (·.map bare) ++
        (ofText t).lines.map (·.map fun a => bare (a.below (ofText s).lines.length)) ∧
    (ofText (s ++ '\n' :: t)).unclosed =
      (ofText t).unclosed.map (SymbolRef.below (ofText s).lines.length) := by
  constructor
  · have ht : (ofText t).lines.map (·.map fun a => bare (a.below (ofText s).lines.length)) =
        (placed t).map (·.map fun b =>
          bare ((mark (pairing t) b).below (ofText s).lines.length)) := by
      have h := congrArg (List.map (List.map (Symbol.below (ofText s).lines.length)))
        (map_bare_lines t)
      simp only [List.map_map, Function.comp_def] at h
      exact h
    rw [map_bare_lines, map_bare_lines, ht, placed_append_newline t hclosed hliteral, List.map_append]
    congr 1
    · refine List.map_congr_left fun row hrow => List.map_congr_left fun b hb => ?_
      rw [mark_of_mem_placed t hclosed hliteral (List.mem_flatten.mpr ⟨row, hrow, hb⟩)]
    · rw [List.map_map]
      refine List.map_congr_left fun row _ => ?_
      rw [Function.comp_apply, List.map_map]
      refine List.map_congr_left fun b _ => ?_
      rw [Function.comp_apply, mark_below t hclosed hliteral]
  · change (pairing (s ++ '\n' :: t)).unclosed = (pairing t).unclosed.map _
    rw [pairing_append_newline t hclosed hliteral]
    simp only [Pairing.unclosed, Pairing.beside, Pairing.map, List.map_map, List.map_reverse]
    rfl

end

/-- A block over two lines, and a text below it that is at fault throughout: a closer that closes
nothing, a pair of different kinds, and an opener and a literal that are left open. -/
theorem bare_lines_command_below_block :
    let block := "[a=\"]\",\nb] c".toList
    let below := ['}', ' ', '[', '}', '\n', '{', ' ', '"', 'x']
    (ofText (block ++ '\n' :: below)).lines.map (·.map bare) =
      (ofText block).lines.map (·.map bare) ++
        (ofText below).lines.map (·.map fun a => bare (a.below 2)) ∧
    (ofText (block ++ '\n' :: below)).unclosed =
      (ofText below).unclosed.map (SymbolRef.below 2) := by
  intro block below
  exact bare_lines_append_newline below (by decide +kernel) (by decide +kernel)

end SymbolTable

end CommandPad
