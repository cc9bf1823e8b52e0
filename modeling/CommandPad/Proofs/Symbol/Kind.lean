import CommandPad.Proofs.Symbol.Piece
import CommandPad.Proofs.Text.Trim
import CommandPad.Symbol.Classify
import Mathlib.Tactic.SplitIfs

/-!
# What kinds say

Classifying gives every symbol a kind and leaves the rest of it alone (`map_classify`). The kind is
the one that the symbol shows by itself or, if it shows none, one that is named after a neighbour,
and no neighbour makes a delimiter of it.

So the kind tells delimiters from everything else, and which scope they belong to. Literals and
triples it tells from everything else as long as quotes stand in literals only.

Results:
* `shows_of_mem_classify`: where the kind of a symbol comes from.
* `kind_of_separator`: what stands alone behind blanks has the kind that belongs to it.
* `kind_of_delimiter`, `isScope_kind_iff`: a symbol has the kind of a delimiter exactly if it was cut
  as one.
* `kind_eq_string_iff`, `kind_eq_coordinate_iff`: the same for literals and for triples.
* `trimmed_of_delimiter`: without the blanks around it, a delimiter is one character.
-/

namespace CommandPad

open Text

/-! ## The kinds of delimiters -/

/-- The kind of the symbols at the two ends of a scope. -/
def Scope.kind : Scope → SymbolKind
  | bracket => .bracket
  | brace => .brace

/-- The scope that a delimiter is an end of. -/
def Delimiter.scope : Delimiter → Scope
  | opens s => s
  | closes s => s

theorem Scope.isScope_kind (s : Scope) : s.kind.isScope = true := by cases s <;> rfl

/-- The symbol is a delimiter: it has the kind and, but for blanks around it, the character. -/
def Symbol.IsEnd (a : Symbol) (d : Delimiter) : Prop :=
  a.kind = d.scope.kind ∧ a.trimmed = [d.char]

/-! ## Classifying -/

theorem length_kindsAfter (before : Option SymbolKind) (ss : List Symbol) :
    (kindsAfter before ss).length = ss.length := by
  induction ss generalizing before with
  | nil => rfl
  | cons s ss ih => rw [kindsAfter, List.length_cons, List.length_cons, ih]

section
variable {α : Type} {f : Symbol → α}

theorem map_withKinds (hf : ∀ (s : Symbol) (kind : SymbolKind), f { s with kind } = f s) :
    ∀ (line : List Symbol) (ks : List SymbolKind), line.length ≤ ks.length →
      (List.zipWith (fun s kind => { s with kind }) line ks).map f = line.map f
  | [], _, _ => rfl
  | s :: line, k :: ks, h => by
    rw [List.zipWith_cons_cons, List.map_cons, List.map_cons, hf,
      map_withKinds hf line ks (Nat.le_of_succ_le_succ h)]

theorem map_assignKinds (hf : ∀ (s : Symbol) (kind : SymbolKind), f { s with kind } = f s)
    (lines : List (List Symbol)) (ks : List SymbolKind) (h : ks.length = lines.flatten.length) :
    (assignKinds lines ks).map (·.map f) = lines.map (·.map f) := by
  induction lines generalizing ks with
  | nil => rfl
  | cons line lines ih =>
    rw [List.flatten_cons, List.length_append] at h
    rw [assignKinds, List.map_cons, List.map_cons, map_withKinds hf line ks (by omega),
      ih (ks.drop line.length) (by rw [List.length_drop]; omega)]

/-- **Classifying changes the kinds only.** -/
theorem map_classify (hf : ∀ (s : Symbol) (kind : SymbolKind), f { s with kind } = f s)
    (lines : List (List Symbol)) : (classify lines).map (·.map f) = lines.map (·.map f) :=
  map_assignKinds hf lines _ (length_kindsAfter none lines.flatten)

end

/-! ## Where kinds come from -/

/-- The kind is shown by the symbol itself, or named after neighbours. -/
def Symbol.Shows (s : Symbol) (k : SymbolKind) : Prop :=
  ∃ before after, k = s.ownKind?.getD (kindBetween before after)

theorem shows_of_mem_zip {ss : List Symbol} {before : Option SymbolKind} {e : Symbol × SymbolKind}
    (h : e ∈ ss.zip (kindsAfter before ss)) : e.1.Shows e.2 := by
  induction ss generalizing before with
  | nil => exact absurd h List.not_mem_nil
  | cons s ss ih =>
    rw [kindsAfter, List.zip_cons_cons] at h
    rcases List.mem_cons.mp h with rfl | h
    · exact ⟨_, _, rfl⟩
    · exact ih h

theorem zip_append_drop {α β : Type} : ∀ (l l' : List α) (ks : List β),
    (l ++ l').zip ks = l.zip ks ++ l'.zip (ks.drop l.length)
  | [], _, _ => rfl
  | _ :: _, _, [] => by simp
  | a :: l, l', k :: ks => congrArg ((a, k) :: ·) (zip_append_drop l l' ks)

theorem shows_of_mem_assignKinds {lines : List (List Symbol)} {ks : List SymbolKind}
    (h : ∀ e ∈ lines.flatten.zip ks, e.1.Shows e.2) :
    ∀ a ∈ (assignKinds lines ks).flatten, a.Shows a.kind := by
  induction lines generalizing ks with
  | nil => exact fun a ha => absurd ha List.not_mem_nil
  | cons line lines ih =>
    rw [List.flatten_cons, zip_append_drop] at h
    intro a ha
    rw [assignKinds, List.flatten_cons] at ha
    rcases List.mem_append.mp ha with ha | ha
    · rw [← List.map_uncurry_zip_eq_zipWith] at ha
      obtain ⟨e, he, rfl⟩ := List.mem_map.mp ha
      exact h e (List.mem_append_left _ he)
    · exact ih (fun e he => h e (List.mem_append_right _ he)) a ha

/-- **The kind of a classified symbol** is its own, or named after neighbours. -/
theorem shows_of_mem_classify {a : Symbol} {lines : List (List Symbol)}
    (h : a ∈ (classify lines).flatten) : a.Shows a.kind :=
  shows_of_mem_assignKinds (fun _ he => shows_of_mem_zip he) a h

/-! ## Which kinds are delimiters -/

theorem isScope_kindBetween (before after : Option SymbolKind) :
    (kindBetween before after).isScope = false := by
  unfold kindBetween
  split <;> rfl

/-- A blank text in front adds no character to look for. -/
theorem contains_blanks_append {blanks : List Char} (hb : allBlank blanks = true) {c x : Char}
    (hx : isBlank x = false) : (blanks ++ [c]).contains x = (x == c) := by
  have hnot : x ∉ blanks := by
    intro hm
    rw [List.all_eq_true.mp hb x hm] at hx
    exact Bool.false_ne_true hx.symm
  rw [Bool.eq_iff_iff]
  simp [hnot]

/-- The kind of a character that is always a symbol of its own. -/
def separatorKind? (c : Char) : Option SymbolKind :=
  if c = ',' then some .comma
  else if c = ':' then some .colon
  else if c = '=' then some .equal
  else if c = '.' then some .dot
  else if c = '[' ∨ c = ']' then some .bracket
  else if c = '{' ∨ c = '}' then some .brace
  else none

theorem separatorKind?_char (d : Delimiter) : separatorKind? d.char = some d.scope.kind := by
  rcases d with (_ | _) | (_ | _) <;> rfl

/-- A separator with blanks in front of it has the kind that belongs to it. -/
theorem kindOfText?_separator {blanks : List Char} (hb : allBlank blanks = true) {c : Char}
    {k : SymbolKind} (hk : separatorKind? c = some k) : kindOfText? (blanks ++ [c]) = some k := by
  have hc : ∀ x, isBlank x = false → (blanks ++ [c]).contains x = (x == c) :=
    fun x hx => contains_blanks_append hb hx
  unfold kindOfText?
  rw [hc '=' rfl, hc ',' rfl, hc ':' rfl, hc '\'' rfl, hc '{' rfl, hc '}' rfl, hc '[' rfl,
    hc ']' rfl, hc '.' rfl]
  unfold separatorKind? at hk
  split_ifs at hk with hcomma hcolon hequal hdot hbracket hbrace <;> obtain rfl := Option.some.inj hk
  · subst hcomma; rfl
  · subst hcolon; rfl
  · subst hequal; rfl
  · subst hdot; rfl
  · rcases hbracket with rfl | rfl <;> rfl
  · rcases hbrace with rfl | rfl <;> rfl

/-- A text without delimiters does not show the kind of one. -/
theorem isScope_kindOfText? {s : List Char} (hs : ∀ c ∈ s, Delimiter.ofChar? c = none)
    {k : SymbolKind} (hk : kindOfText? s = some k) : k.isScope = false := by
  have hc : ∀ d : Delimiter, s.contains d.char = false := by
    intro d
    rw [Bool.eq_false_iff]
    intro hm
    have := hs d.char (List.contains_iff_mem.mp hm)
    rw [Delimiter.ofChar?_char] at this
    exact absurd this (by simp)
  have hopen : s.contains '{' = false := hc (.opens .brace)
  have hclose : s.contains '}' = false := hc (.closes .brace)
  have hopen' : s.contains '[' = false := hc (.opens .bracket)
  have hclose' : s.contains ']' = false := hc (.closes .bracket)
  unfold kindOfText? at hk
  rw [hopen, hclose, hopen', hclose'] at hk
  simp only [Bool.or_self, Bool.false_eq_true, if_false] at hk
  split_ifs at hk <;> cases hk <;> rfl

namespace Symbol

variable {a : Symbol}

/-- **What stands alone behind blanks has the kind that belongs to it.** -/
theorem kind_of_separator (hk : a.Shows a.kind) (hliteral : a.role ≠ .literal)
    (hcoordinate : a.role ≠ .coordinate) {blanks : List Char} (hb : allBlank blanks = true)
    {c : Char} {k : SymbolKind} (hc : separatorKind? c = some k) (htext : a.text = blanks ++ [c]) :
    a.kind = k := by
  obtain ⟨before, after, hk⟩ := hk
  have hquote : a.text.contains '"' = false := by
    rw [htext, contains_blanks_append hb rfl, beq_eq_false_iff_ne]
    rintro rfl
    rw [show separatorKind? '"' = none from rfl] at hc
    exact absurd hc (by simp)
  have hown : a.ownKind? = some k := by
    rw [ownKind?, if_neg (by rw [hquote]; simpa using hliteral), if_neg hcoordinate, htext,
      kindOfText?_separator hb hc]
  rw [hk, hown]
  rfl

/-- **A delimiter has the kind of one.** -/
theorem kind_of_delimiter (hk : a.Shows a.kind) (hs : a.toPiece.Sound) {d : Delimiter}
    (hd : a.role = .delimiter d) : a.kind = d.scope.kind := by
  obtain ⟨blanks, hb, htext⟩ := hs.delimiter d hd
  exact kind_of_separator hk (by simp [hd]) (by simp [hd]) hb (separatorKind?_char d) htext

theorem isScope_ownKind? (hs : a.toPiece.Sound) (hr : a.role.delimiter? = none) {k : SymbolKind}
    (hown : a.ownKind? = some k) : k.isScope = false := by
  unfold ownKind? at hown
  split_ifs at hown with hliteral hcoordinate
  · cases hown
    rfl
  · cases hown
    rfl
  · have hplain : a.role = .plain := by
      cases hrole : a.role with
      | plain => rfl
      | literal => exact absurd (Or.inl hrole) hliteral
      | coordinate => exact absurd hrole hcoordinate
      | delimiter d => exact absurd (hrole ▸ hr) (by simp [Role.delimiter?])
    exact isScope_kindOfText? (hs.plain hplain) hown

/-- **The kind tells delimiters from everything else.** -/
theorem isScope_kind_iff (hk : a.Shows a.kind) (hs : a.toPiece.Sound) :
    a.kind.isScope = true ↔ a.role.delimiter?.isSome = true := by
  cases hr : a.role.delimiter? with
  | some d =>
    rw [kind_of_delimiter hk hs (Piece.delimiter?_eq_some_iff.mp hr)]
    exact iff_of_true d.scope.isScope_kind rfl
  | none =>
    refine iff_of_false ?_ Bool.false_ne_true
    obtain ⟨before, after, hk⟩ := hk
    rw [hk, Bool.not_eq_true]
    cases hown : a.ownKind? with
    | none => exact isScope_kindBetween before after
    | some k => exact isScope_ownKind? hs hr hown

theorem trimmed_of_text {blanks : List Char} (hb : allBlank blanks = true) {c : Char}
    (hc : Text.isBlank c = false) (htext : a.text = blanks ++ [c]) : a.trimmed = [c] := by
  have hsingle : trim [c] = [c] := by
    simp [trim, trimStart, trimEnd, dropEndWhile, hc]
  rw [trimmed, htext, trim_blanks_append hb, hsingle]

/-- Without the blanks around it, a delimiter is one character. -/
theorem trimmed_of_delimiter (hs : a.toPiece.Sound) {d : Delimiter} (hd : a.role = .delimiter d) :
    a.trimmed = [d.char] := by
  obtain ⟨blanks, hb, htext⟩ := hs.delimiter d hd
  exact trimmed_of_text hb d.isBlank_char htext

end Symbol

/-! ## Which kinds are literals and triples -/

/-- Kinds that symbols show by their roles only. -/
def SymbolKind.isOwn (k : SymbolKind) : Bool := k = .string || k = .coordinate

theorem isOwn_kindBetween (before after : Option SymbolKind) :
    (kindBetween before after).isOwn = false := by
  unfold kindBetween
  split <;> rfl

theorem isOwn_kindOfText? {s : List Char} {k : SymbolKind} (hk : kindOfText? s = some k) :
    k.isOwn = false := by
  unfold kindOfText? at hk
  split_ifs at hk <;> cases hk <;> rfl

namespace Symbol

variable {a : Symbol}

/-- Where quotes stand in literals only, the role decides about these kinds. -/
theorem kind_cases (hk : a.Shows a.kind) (hquote : '"' ∈ a.text → a.role = .literal) :
    (a.role = .literal ∧ a.kind = .string) ∨ (a.role = .coordinate ∧ a.kind = .coordinate) ∨
      (a.role ≠ .literal ∧ a.role ≠ .coordinate ∧ a.kind.isOwn = false) := by
  obtain ⟨before, after, hk⟩ := hk
  by_cases hliteral : a.role = .literal
  · refine Or.inl ⟨hliteral, ?_⟩
    rw [hk, ownKind?, if_pos (Or.inl hliteral)]
    rfl
  have hnot : ¬ (a.role = .literal ∨ a.text.contains '"' = true) := by
    rw [List.contains_iff_mem]
    exact fun h => hliteral (h.elim id hquote)
  rw [ownKind?, if_neg hnot] at hk
  by_cases hcoordinate : a.role = .coordinate
  · refine Or.inr (Or.inl ⟨hcoordinate, ?_⟩)
    rw [hk, if_pos hcoordinate]
    rfl
  refine Or.inr (Or.inr ⟨hliteral, hcoordinate, ?_⟩)
  rw [if_neg hcoordinate] at hk
  rw [hk]
  cases htext : kindOfText? a.text with
  | none => exact isOwn_kindBetween before after
  | some k => exact isOwn_kindOfText? htext

/-- **The kind tells literals from everything else.** -/
theorem kind_eq_string_iff (hk : a.Shows a.kind) (hquote : '"' ∈ a.text → a.role = .literal) :
    a.kind = .string ↔ a.role = .literal := by
  rcases kind_cases hk hquote with ⟨hrole, hkind⟩ | ⟨hrole, hkind⟩ | ⟨hrole, -, hown⟩
  · simp [hrole, hkind]
  · simp [hrole, hkind]
  · refine iff_of_false (fun hkind => ?_) hrole
    rw [hkind] at hown
    exact absurd hown (by decide)

/-- **The kind tells triples from everything else.** -/
theorem kind_eq_coordinate_iff (hk : a.Shows a.kind) (hquote : '"' ∈ a.text → a.role = .literal) :
    a.kind = .coordinate ↔ a.role = .coordinate := by
  rcases kind_cases hk hquote with ⟨hrole, hkind⟩ | ⟨hrole, hkind⟩ | ⟨-, hrole, hown⟩
  · simp [hrole, hkind]
  · simp [hrole, hkind]
  · refine iff_of_false (fun hkind => ?_) hrole
    rw [hkind] at hown
    exact absurd hown (by decide)

end Symbol

end CommandPad
