import CommandPad.Proofs.Symbol.Kind
import CommandPad.Proofs.Symbol.Pairing
import CommandPad.Symbol.Table
import CommandPad.Text.Lines

/-!
# What a symbol table says of delimiters

The delimiters of a table, in reading order, are those of its text (`getElem?_scopes`): the `k`-th one
has the flag and the partner that pairing gives to the `k`-th delimiter of the text. So what the table
says of faults and partners can be read off the word of delimiters, whatever lines and columns they
stand in.

Results:
* **`hasErrors_eq_false_iff`**: a text has no errors exactly if its delimiters are well-bracketed.
* **`wellPaired_ofText`**: siblings are a matching that does not cross, and flags and open scopes are
  what is left over.
* `outline_ofText`, `outline_congr`: the outline of a table is what pairing finds in the delimiters of
  its text, so texts with the same delimiters have the same outline.
-/

namespace CommandPad

open Text

/-! ## Places -/

/-- Reading order. -/
def SymbolRef.Before (q r : SymbolRef) : Prop :=
  q.line < r.line ∨ q.line = r.line ∧ q.index < r.index

theorem SymbolRef.Before.asymm {q r : SymbolRef} (h : q.Before r) : ¬ r.Before q := by
  unfold Before at *
  omega

theorem SymbolRef.Before.irrefl (q : SymbolRef) : ¬ q.Before q := fun h => h.asymm h

namespace SymbolTable

section
variable {α β : Type}

/-- What stands at a place in rows. -/
def cell? (rows : List (List α)) (r : SymbolRef) : Option α := (rows[r.line]?.getD [])[r.index]?

theorem cell?_map (f : α → β) (rows : List (List α)) (r : SymbolRef) :
    cell? (rows.map (·.map f)) r = (cell? rows r).map f := by
  unfold cell?
  rw [List.getElem?_map]
  cases rows[r.line]? with
  | none => rfl
  | some row => exact List.getElem?_map

theorem mem_flatten_iff_cell? {a : α} {rows : List (List α)} :
    a ∈ rows.flatten ↔ ∃ r, cell? rows r = some a := by
  rw [List.mem_flatten]
  constructor
  · rintro ⟨row, hrow, ha⟩
    obtain ⟨i, hi⟩ := List.mem_iff_getElem?.mp hrow
    obtain ⟨j, hj⟩ := List.mem_iff_getElem?.mp ha
    exact ⟨⟨i, j⟩, by simp [cell?, hi, hj]⟩
  · rintro ⟨⟨i, j⟩, h⟩
    unfold cell? at h
    cases hi : rows[i]? with
    | none => simp [hi] at h
    | some row =>
      simp only [hi, Option.getD_some] at h
      exact ⟨row, List.mem_of_getElem? hi, List.mem_of_getElem? h⟩

end

theorem cell?_place (lines : List (List Piece)) (r : SymbolRef) :
    cell? (place lines) r = (cell? lines r).map fun p => { toPiece := p, ref := r } := by
  unfold cell? place
  rw [List.getElem?_mapIdx]
  cases lines[r.line]? with
  | none => rfl
  | some ps => exact List.getElem?_mapIdx

theorem map_toPiece_place (lines : List (List Piece)) :
    (place lines).map (·.map Symbol.toPiece) = lines := by
  apply List.ext_getElem?
  intro i
  rw [List.getElem?_map, place, List.getElem?_mapIdx]
  cases lines[i]? with
  | none => rfl
  | some ps =>
    refine congrArg some (List.ext_getElem? fun j => ?_)
    rw [List.getElem?_map, List.getElem?_mapIdx]
    cases ps[j]? <;> rfl

/-- Symbols know their places, and stand in reading order. -/
theorem pairwise_before_place (lines : List (List Piece)) :
    ((place lines).flatten.map Symbol.ref).Pairwise SymbolRef.Before := by
  rw [List.pairwise_map, List.pairwise_flatten]
  constructor
  · intro row hrow
    obtain ⟨i, hi, rfl⟩ := List.mem_mapIdx.mp hrow
    rw [List.pairwise_iff_getElem]
    intro j k hj hk hjk
    rw [List.getElem_mapIdx, List.getElem_mapIdx]
    exact Or.inr ⟨rfl, hjk⟩
  · rw [List.pairwise_iff_getElem]
    intro i j hi hj hij a ha b hb
    simp only [place, List.getElem_mapIdx] at ha hb
    obtain ⟨_, -, rfl⟩ := List.mem_mapIdx.mp ha
    obtain ⟨_, -, rfl⟩ := List.mem_mapIdx.mp hb
    exact Or.inl hij

/-! ## The delimiters of a table -/

/-- The delimiters of a table, in reading order. -/
def scopes (t : SymbolTable) : List Symbol := t.symbols.filter (·.kind.isScope)

/-- The delimiters of a table: their characters, whether they are at fault, and which one of them is
at the other end. -/
def outline (t : SymbolTable) : List (List Char × Bool × Option Nat) :=
  t.scopes.map fun a => (a.trimmed, a.error, a.sibling.map (t.scopes.map Symbol.ref).idxOf)

/-! ## The table of a text -/

section
variable (s : List Char)

/-- The symbols of a text before they are marked and classified. -/
def placed : List (List Symbol) := place (Piece.ofText s)

/-- What pairing finds in a text. -/
def pairing : Pairing SymbolRef := Pairing.run (delimiters (placed s))

/-- A symbol without its kind. -/
def bare (a : Symbol) : Symbol := { a with kind := .normal }

theorem eq_of_bare_eq {a b : Symbol} (h : bare a = bare b) :
    a.toPiece = b.toPiece ∧ a.ref = b.ref ∧ a.error = b.error ∧ a.sibling = b.sibling := by
  have hpiece := congrArg Symbol.toPiece h
  have href := congrArg Symbol.ref h
  have herror := congrArg Symbol.error h
  have hsibling := congrArg Symbol.sibling h
  exact ⟨hpiece, href, herror, hsibling⟩

/-- But for the kinds, the symbols of a text are its pieces in their places, marked. -/
theorem map_bare_lines :
    (ofText s).lines.map (·.map bare) = (placed s).map (·.map fun b => bare (mark (pairing s) b)) := by
  have h := map_classify (f := bare) (fun _ _ => rfl) ((placed s).map (·.map (mark (pairing s))))
  rw [List.map_map] at h
  refine h.trans (List.map_congr_left fun row _ => ?_)
  exact List.map_map

theorem toPiece_mark (p : Pairing SymbolRef) (b : Symbol) : (mark p b).toPiece = b.toPiece := by
  unfold mark
  split <;> rfl

theorem map_toPiece_lines : (ofText s).lines.map (·.map Symbol.toPiece) = Piece.ofText s := by
  have h := congrArg (List.map (List.map Symbol.toPiece)) (map_bare_lines s)
  rw [List.map_map, List.map_map] at h
  refine Eq.trans ?_ (h.trans (Eq.trans ?_ (map_toPiece_place (Piece.ofText s))))
  · refine List.map_congr_left fun row _ => ?_
    simp [bare]
  · refine List.map_congr_left fun row _ => ?_
    simp [bare, toPiece_mark]

/-- A table has the lines of its text. -/
theorem length_lines_ofText : (ofText s).lines.length = (Text.lines s).length := by
  have h := congrArg List.length (map_toPiece_lines s)
  rw [List.length_map, Piece.length_pieces] at h
  rw [h, Text.lines, length_splitAt]

variable {s} {a : Symbol}

theorem sound_of_mem_symbols (h : a ∈ (ofText s).symbols) : a.toPiece.Sound := by
  have hmem : a.toPiece ∈ (ofText s).symbols.map Symbol.toPiece := List.mem_map_of_mem h
  rw [symbols, List.map_flatten, map_toPiece_lines] at hmem
  exact Piece.sound_of_mem_pieces hmem

theorem shows_of_mem_symbols (h : a ∈ (ofText s).symbols) : a.Shows a.kind :=
  shows_of_mem_classify h

/-- A symbol of a text comes from a place, and but for the kind it is what was placed there. -/
theorem exists_placed {q : SymbolRef} (h : (ofText s).get? q = some a) :
    ∃ p, bare a = bare (mark (pairing s) { toPiece := p, ref := q }) := by
  have hbare : cell? ((ofText s).lines.map (·.map bare)) q = some (bare a) := by
    rw [cell?_map]
    exact congrArg (Option.map bare) h
  rw [map_bare_lines, cell?_map, placed, cell?_place, Option.map_map] at hbare
  obtain ⟨p, -, hp⟩ := Option.map_eq_some_iff.mp hbare
  exact ⟨p, hp.symm⟩

theorem ref_mark (p : Pairing SymbolRef) (b : Symbol) : (mark p b).ref = b.ref := by
  unfold mark
  split <;> rfl

theorem ref_of_get? {q : SymbolRef} (h : (ofText s).get? q = some a) : a.ref = q := by
  obtain ⟨p, hp⟩ := exists_placed h
  exact (eq_of_bare_eq hp).2.1.trans (ref_mark _ _)

theorem mem_symbols_of_get? {q : SymbolRef} (h : (ofText s).get? q = some a) :
    a ∈ (ofText s).symbols :=
  mem_flatten_iff_cell?.mpr ⟨q, h⟩

theorem get?_ref (h : a ∈ (ofText s).symbols) : (ofText s).get? a.ref = some a := by
  obtain ⟨q, hq⟩ := mem_flatten_iff_cell?.mp h
  rw [ref_of_get? hq]
  exact hq

theorem isScope_iff_of_mem_symbols (h : a ∈ (ofText s).symbols) :
    a.kind.isScope = true ↔ a.role.delimiter?.isSome = true :=
  Symbol.isScope_kind_iff (shows_of_mem_symbols h) (sound_of_mem_symbols h)

/-- What is not a delimiter is not at fault and has no sibling. -/
theorem unmarked_of_not_isScope (h : a ∈ (ofText s).symbols) (hk : a.kind.isScope = false) :
    a.error = false ∧ a.sibling = none := by
  obtain ⟨p, hp⟩ := exists_placed (get?_ref h)
  obtain ⟨hpiece, -, herror, hsibling⟩ := eq_of_bare_eq hp
  rw [toPiece_mark] at hpiece
  have hrole : ¬ p.role.delimiter?.isSome = true := by
    rw [← congrArg Piece.role hpiece, ← isScope_iff_of_mem_symbols h, hk]
    exact Bool.false_ne_true
  rw [mark, if_neg hrole] at herror hsibling
  exact ⟨herror, hsibling⟩

end

/-! ## The delimiters one by one -/

section

/-- The delimiters among symbols with their places, either way. -/
theorem map_filter_delimiter? (ss : List Symbol) :
    (ss.filter fun b => b.role.delimiter?.isSome).map (fun b => (b.role.delimiter?, b.ref)) =
      (ss.filterMap fun b => b.role.delimiter?.map (·, b.ref)).map fun e => (some e.1, e.2) := by
  induction ss with
  | nil => rfl
  | cons b ss ih =>
    cases hb : b.role.delimiter? with
    | none => simpa [hb] using ih
    | some d => simpa [hb] using ih

variable (s : List Char)

theorem map_fst_delimiters : (delimiters (placed s)).map Prod.fst = Delimiter.ofText s := by
  rw [← Piece.delimiters_pieces, ← map_toPiece_place (Piece.ofText s), ← List.map_flatten,
    Piece.delimiters, List.filterMap_map, delimiters, List.map_filterMap]
  congr 1
  funext b
  rw [Option.map_map]
  exact Option.map_id'

theorem map_snd_delimiters : (delimiters (placed s)).map Prod.snd =
    ((placed s).flatten.filter fun b => b.role.delimiter?.isSome).map Symbol.ref := by
  have h := congrArg (List.map Prod.snd) (map_filter_delimiter? (placed s).flatten)
  rw [List.map_map, List.map_map] at h
  exact h.symm

/-- The references of the delimiters of a text are in reading order. -/
theorem pairwise_before_delimiters :
    ((delimiters (placed s)).map Prod.snd).Pairwise SymbolRef.Before := by
  rw [map_snd_delimiters]
  exact (pairwise_before_place (Piece.ofText s)).sublist
    ((List.filter_sublist (l := (placed s).flatten)).map Symbol.ref)

/-- But for the kinds, the delimiters of the table are the placed ones, marked. -/
theorem map_bare_scopes : (ofText s).scopes.map bare =
    ((placed s).flatten.filter fun b => b.role.delimiter?.isSome).map
      fun b => bare (mark (pairing s) b) := by
  let isDelimiter (a : Symbol) : Bool := a.role.delimiter?.isSome
  have hmark : ∀ b, isDelimiter (bare (mark (pairing s) b)) = isDelimiter b := fun b =>
    congrArg (fun p : Piece => p.role.delimiter?.isSome) (toPiece_mark (pairing s) b)
  have hbare : (ofText s).symbols.map bare =
      (placed s).flatten.map fun b => bare (mark (pairing s) b) := by
    rw [symbols, List.map_flatten, List.map_flatten, map_bare_lines]
  calc (ofText s).scopes.map bare
      = ((ofText s).symbols.filter (isDelimiter ∘ bare)).map bare := by
        refine congrArg (List.map bare) (List.filter_congr fun a ha => ?_)
        exact Bool.eq_iff_iff.mpr (isScope_iff_of_mem_symbols ha)
    _ = ((placed s).flatten.map fun b => bare (mark (pairing s) b)).filter isDelimiter := by
        rw [← List.filter_map, hbare]
    _ = _ := by
        rw [List.filter_map]
        exact congrArg (List.map _) (List.filter_congr fun b _ => hmark b)

/-- The `k`-th delimiter of a text is the `k`-th one that was paired, and is marked as pairing says. -/
theorem getElem?_scopes {s : List Char} {k : Nat} {a : Symbol} (h : (ofText s).scopes[k]? = some a) :
    ∃ d, a.role = .delimiter d ∧ (delimiters (placed s))[k]? = some (d, a.ref) ∧
      a.error = (pairing s).isFlawed a.ref ∧ a.sibling = (pairing s).partner? a.ref := by
  have hk := congrArg (·[k]?) (map_bare_scopes s)
  simp only [List.getElem?_map, h, Option.map_some] at hk
  obtain ⟨b, hb, hab⟩ := Option.map_eq_some_iff.mp hk.symm
  have hds := congrArg (·[k]?) (map_filter_delimiter? (placed s).flatten)
  simp only [List.getElem?_map, hb, Option.map_some] at hds
  obtain ⟨⟨d, r⟩, he, hdr⟩ := Option.map_eq_some_iff.mp hds.symm
  obtain ⟨hd, rfl⟩ := Prod.mk.inj hdr
  rw [mark, if_pos (by rw [← hd]; rfl)] at hab
  obtain ⟨hpiece, href, herror, hsibling⟩ := eq_of_bare_eq hab
  have hrole : a.role = .delimiter d :=
    (congrArg Piece.role hpiece).symm.trans (Piece.delimiter?_eq_some_iff.mp hd.symm)
  simp only at href herror hsibling
  rw [href] at he herror hsibling
  exact ⟨d, hrole, he, herror.symm, hsibling.symm⟩

end

/-! ## Counting the delimiters -/

section
variable {s : List Char} {j k : Nat} {a b : Symbol}

/-- What pairing finds in a text when its delimiters are counted from zero. -/
def counted (s : List Char) : Pairing Nat := Pairing.run (Delimiter.ofText s).zipIdx

theorem inv_counted (s : List Char) : (counted s).Inv (Delimiter.ofText s) := Pairing.inv_run _

theorem length_scopes (s : List Char) : (ofText s).scopes.length = (Delimiter.ofText s).length := by
  have hscopes := congrArg List.length (map_bare_scopes s)
  have hplaced := congrArg List.length (map_filter_delimiter? (placed s).flatten)
  simp only [List.length_map] at hscopes hplaced
  rw [hscopes, hplaced, ← map_fst_delimiters, List.length_map]
  rfl

theorem mem_symbols_of_scopes (h : (ofText s).scopes[k]? = some a) : a ∈ (ofText s).symbols :=
  (List.mem_filter.mp (List.mem_of_getElem? h)).1

theorem lt_of_scopes (h : (ofText s).scopes[k]? = some a) : k < (Delimiter.ofText s).length := by
  rw [← length_scopes]
  exact (List.getElem?_eq_some_iff.mp h).1

theorem exists_scopes_of_lt (h : k < (Delimiter.ofText s).length) :
    ∃ a, (ofText s).scopes[k]? = some a := by
  rw [← length_scopes] at h
  exact ⟨_, List.getElem?_eq_getElem h⟩

theorem nodup_delimiters (s : List Char) : ((delimiters (placed s)).map Prod.snd).Nodup := by
  refine (pairwise_before_delimiters s).imp fun {q r} hqr heq => ?_
  rw [heq] at hqr
  exact SymbolRef.Before.irrefl r hqr

/-- The places of the delimiters, in order. -/
theorem refAt_of_scopes (h : (ofText s).scopes[k]? = some a) :
    Pairing.refAt (delimiters (placed s)) k = a.ref := by
  obtain ⟨d, -, hk, -⟩ := getElem?_scopes h
  exact Pairing.refAt_of_getElem? hk

theorem before_of_lt (hj : (ofText s).scopes[j]? = some a) (hk : (ofText s).scopes[k]? = some b)
    (h : j < k) : a.ref.Before b.ref := by
  obtain ⟨_, -, hj, -⟩ := getElem?_scopes hj
  obtain ⟨_, -, hk, -⟩ := getElem?_scopes hk
  have hp := pairwise_before_delimiters s
  rw [List.pairwise_map, List.pairwise_iff_getElem] at hp
  obtain ⟨hjlt, hj⟩ := List.getElem?_eq_some_iff.mp hj
  obtain ⟨hklt, hk⟩ := List.getElem?_eq_some_iff.mp hk
  have := hp j k hjlt hklt h
  rwa [hj, hk] at this

/-- Numbers count in reading order. -/
theorem before_iff (hj : (ofText s).scopes[j]? = some a) (hk : (ofText s).scopes[k]? = some b) :
    a.ref.Before b.ref ↔ j < k := by
  refine ⟨fun h => ?_, before_of_lt hj hk⟩
  rcases Nat.lt_trichotomy j k with hjk | rfl | hkj
  · exact hjk
  · obtain rfl := Option.some.inj (hj.symm.trans hk)
    exact absurd h (SymbolRef.Before.irrefl _)
  · exact absurd h (before_of_lt hk hj hkj).asymm

/-- The flag of a delimiter is what pairing by numbers says of its number. -/
theorem error_of_scopes (h : (ofText s).scopes[k]? = some a) :
    a.error = (counted s).isFlawed k := by
  obtain ⟨d, -, hk, herror, -⟩ := getElem?_scopes h
  rw [herror, pairing, Pairing.isFlawed_run (nodup_delimiters s) hk, map_fst_delimiters]
  rfl

/-- So is its sibling. -/
theorem sibling_of_scopes (h : (ofText s).scopes[k]? = some a) :
    a.sibling = ((counted s).partner? k).map (Pairing.refAt (delimiters (placed s))) := by
  obtain ⟨d, -, hk, -, hsibling⟩ := getElem?_scopes h
  rw [hsibling, pairing, Pairing.partner?_run (nodup_delimiters s) hk, map_fst_delimiters]
  rfl

theorem mem_unclosed_of_scopes (h : (ofText s).scopes[k]? = some a) :
    a.ref ∈ (ofText s).unclosed ↔ k ∈ (counted s).unclosed := by
  obtain ⟨d, -, hk, -⟩ := getElem?_scopes h
  have := Pairing.mem_unclosed_run (nodup_delimiters s) hk
  rwa [map_fst_delimiters] at this

/-- The `k`-th delimiter of the table is the `k`-th delimiter of the text. -/
theorem isEnd_iff_of_scopes (h : (ofText s).scopes[k]? = some a) {d : Delimiter} :
    a.IsEnd d ↔ (Delimiter.ofText s)[k]? = some d := by
  obtain ⟨e, hrole, hk, -⟩ := getElem?_scopes h
  have hmem := mem_symbols_of_scopes h
  have hsound := sound_of_mem_symbols hmem
  have hkind := Symbol.kind_of_delimiter (shows_of_mem_symbols hmem) hsound hrole
  have htrimmed := Symbol.trimmed_of_delimiter hsound hrole
  rw [← map_fst_delimiters, List.getElem?_map, hk, Option.map_some, Option.some.injEq]
  constructor
  · rintro ⟨-, hd⟩
    have hchar : e.char = d.char := List.singleton_inj.mp (htrimmed.symm.trans hd)
    have hof : Delimiter.ofChar? e.char = some d := hchar ▸ Delimiter.ofChar?_char d
    rw [Delimiter.ofChar?_char] at hof
    exact Option.some.inj hof
  · rintro rfl
    exact ⟨hkind, htrimmed⟩

/-- Every delimiter of the table has its number. -/
theorem exists_scopes {q : SymbolRef} (h : (ofText s).get? q = some a)
    (hk : a.kind.isScope = true) : ∃ k : Nat, (ofText s).scopes[k]? = some a :=
  List.mem_iff_getElem?.mp (List.mem_filter.mpr ⟨mem_symbols_of_get? h, hk⟩)

end

/-! ## Faults -/

/-- Only delimiters can be at fault. -/
theorem hasErrors_eq_false_iff_scopes (s : List Char) : (ofText s).hasErrors = false ↔
    ∀ (k : Nat) (a : Symbol), (ofText s).scopes[k]? = some a → a.error = false := by
  rw [hasErrors, List.any_eq_false]
  constructor
  · intro h k a hk
    exact Bool.eq_false_iff.mpr (h a (mem_symbols_of_scopes hk))
  · intro h a ha
    rw [Bool.not_eq_true]
    cases hkind : a.kind.isScope with
    | false => exact (unmarked_of_not_isScope ha hkind).1
    | true =>
      obtain ⟨k, hk⟩ := exists_scopes (get?_ref ha) hkind
      exact h k a hk

/-- **A text has no errors exactly if its delimiters are well-bracketed.** -/
theorem hasErrors_eq_false_iff (s : List Char) :
    (ofText s).hasErrors = false ↔ Balanced (Delimiter.ofText s) := by
  calc (ofText s).hasErrors = false
      ↔ ∀ (k : Nat) (a : Symbol), (ofText s).scopes[k]? = some a → a.error = false :=
        hasErrors_eq_false_iff_scopes s
    _ ↔ ∀ k, k < (Delimiter.ofText s).length → (counted s).isFlawed k = false := by
        refine forall_congr' fun k => ⟨fun h hk => ?_, fun h a ha => ?_⟩
        · obtain ⟨a, ha⟩ := exists_scopes_of_lt hk
          exact (error_of_scopes ha).symm.trans (h a ha)
        · exact (error_of_scopes ha).trans (h (lt_of_scopes ha))
    _ ↔ (counted s).Clean := (inv_counted s).clean_iff.symm
    _ ↔ Balanced (Delimiter.ofText s) := by
        rw [counted, Pairing.clean_run_iff, List.zipIdx_map_fst]

-- A closer in a literal closes nothing.
example : (ofText ['[', '"', '}', '"', ']']).hasErrors = false := by decide +kernel

/-! ## Siblings -/

/-- What a table says of siblings, faults and open scopes makes sense together. -/
structure WellPaired (t : SymbolTable) : Prop where
  /-- A sibling points back. Of the two, one opens a scope and the other one closes it, and the opener
  comes first. -/
  sibling : ∀ q a r, t.get? q = some a → a.sibling = some r →
    ∃ b, t.get? r = some b ∧ b.sibling = some q ∧
      ∃ s, (q.Before r ∧ a.IsEnd (.opens s) ∧ b.IsEnd (.closes s)) ∨
        (r.Before q ∧ b.IsEnd (.opens s) ∧ a.IsEnd (.closes s))
  /-- Pairs of siblings do not cross. -/
  nested : ∀ q a r, t.get? q = some a → a.sibling = some r →
    ∀ q' a' r', t.get? q' = some a' → a'.sibling = some r' →
      ¬ (q.Before q' ∧ q'.Before r ∧ r.Before r')
  /-- Only delimiters have a sibling or are at fault. -/
  scope : ∀ q a, t.get? q = some a → a.sibling.isSome = true ∨ a.error = true →
    ∃ d, a.IsEnd d
  /-- A closer is at fault exactly if it has no sibling. -/
  closer : ∀ q a s, t.get? q = some a → a.IsEnd (.closes s) → (a.error = true ↔ a.sibling = none)
  /-- An opener has no sibling exactly if its scope is open at the end, and then it is at fault. -/
  opener : ∀ q a s, t.get? q = some a → a.IsEnd (.opens s) →
    (a.sibling = none ↔ q ∈ t.unclosed) ∧ (a.sibling = none → a.error = true)

section
variable {s : List Char} {q r : SymbolRef} {a : Symbol}

theorem isScope_of_isEnd {d : Delimiter} (h : a.IsEnd d) : a.kind.isScope = true := by
  rw [h.1]
  exact d.scope.isScope_kind

theorem sibling_eq_none_of_scopes {k : Nat} (h : (ofText s).scopes[k]? = some a) :
    a.sibling = none ↔ (counted s).partner? k = none := by
  rw [sibling_of_scopes h, Option.map_eq_none_iff]

/-- Siblings are partners among the counted delimiters. -/
theorem partner?_of_sibling (h : (ofText s).get? q = some a) (hr : a.sibling = some r) :
    ∃ (j k : Nat) (b : Symbol), (ofText s).scopes[j]? = some a ∧ (ofText s).scopes[k]? = some b ∧
      (counted s).partner? j = some k ∧ b.ref = r := by
  have hkind : a.kind.isScope = true := by
    rw [← Bool.not_eq_false]
    intro hk
    have := (unmarked_of_not_isScope (mem_symbols_of_get? h) hk).2
    rw [hr] at this
    exact absurd this (by simp)
  obtain ⟨j, hj⟩ := exists_scopes h hkind
  rw [sibling_of_scopes hj] at hr
  obtain ⟨k, hk, hkr⟩ := Option.map_eq_some_iff.mp hr
  obtain ⟨b, hb⟩ := exists_scopes_of_lt ((inv_counted s).partner?_lt hk)
  exact ⟨j, k, b, hj, hb, hk, (refAt_of_scopes hb).symm.trans hkr⟩

/-- **Siblings are a matching that does not cross**, and flags and open scopes are what is left over. -/
theorem wellPaired_ofText (s : List Char) : (ofText s).WellPaired where
  sibling := by
    intro q a r hq hr
    obtain ⟨j, k, b, hj, hk, hjk, rfl⟩ := partner?_of_sibling hq hr
    obtain rfl := ref_of_get? hq
    refine ⟨b, get?_ref (mem_symbols_of_scopes hk), ?_, ?_⟩
    · rw [sibling_of_scopes hk, (inv_counted s).partner?_symm hjk, Option.map_some,
        refAt_of_scopes hj]
    · simp only [before_iff hj hk, before_iff hk hj, isEnd_iff_of_scopes hj, isEnd_iff_of_scopes hk]
      rcases (inv_counted s).partner?_eq_some_iff.mp hjk with hl | hl
      · obtain ⟨hlt, t, hopens, hcloses⟩ := (inv_counted s).link _ hl
        exact ⟨t, Or.inl ⟨hlt, hopens, hcloses⟩⟩
      · obtain ⟨hlt, t, hopens, hcloses⟩ := (inv_counted s).link _ hl
        exact ⟨t, Or.inr ⟨hlt, hopens, hcloses⟩⟩
  nested := by
    intro q a r hq hr q' a' r' hq' hr'
    obtain ⟨j, k, b, hj, hk, hjk, rfl⟩ := partner?_of_sibling hq hr
    obtain ⟨j', k', b', hj', hk', hjk', rfl⟩ := partner?_of_sibling hq' hr'
    obtain rfl := ref_of_get? hq
    obtain rfl := ref_of_get? hq'
    rw [before_iff hj hj', before_iff hj' hk, before_iff hk hk']
    exact (inv_counted s).not_crossing hjk hjk'
  scope := by
    intro q a hq hmarked
    cases hkind : a.kind.isScope with
    | false =>
      obtain ⟨herror, hsibling⟩ := unmarked_of_not_isScope (mem_symbols_of_get? hq) hkind
      rw [herror, hsibling] at hmarked
      exact absurd hmarked (by simp)
    | true =>
      obtain ⟨k, hk⟩ := exists_scopes hq hkind
      exact ⟨_, (isEnd_iff_of_scopes hk).mpr (List.getElem?_eq_getElem (lt_of_scopes hk))⟩
  closer := by
    intro q a t hq hend
    obtain ⟨k, hk⟩ := exists_scopes hq (isScope_of_isEnd hend)
    rw [error_of_scopes hk, sibling_eq_none_of_scopes hk]
    exact (inv_counted s).isFlawed_closer ((isEnd_iff_of_scopes hk).mp hend)
  opener := by
    intro q a t hq hend
    obtain ⟨k, hk⟩ := exists_scopes hq (isScope_of_isEnd hend)
    obtain rfl := ref_of_get? hq
    rw [error_of_scopes hk, sibling_eq_none_of_scopes hk, mem_unclosed_of_scopes hk]
    obtain ⟨hopen, hflawed⟩ := (inv_counted s).unlinked_opener ((isEnd_iff_of_scopes hk).mp hend)
    exact ⟨hopen, fun hnone => hflawed (hopen.mp hnone)⟩

end

/-! ## Outlines -/

section
variable (s : List Char)

theorem map_ref_scopes :
    (ofText s).scopes.map Symbol.ref = (delimiters (placed s)).map Prod.snd := by
  have h := congrArg (List.map Symbol.ref) (map_bare_scopes s)
  rw [List.map_map, List.map_map] at h
  rw [map_snd_delimiters]
  refine h.trans (List.map_congr_left fun b _ => ?_)
  exact ref_mark (pairing s) b

/-- Looking up the places of the delimiters gives their numbers. -/
theorem idxOf_refAt {k : Nat} (hk : k < (Delimiter.ofText s).length) :
    ((ofText s).scopes.map Symbol.ref).idxOf (Pairing.refAt (delimiters (placed s)) k) = k := by
  obtain ⟨a, ha⟩ := exists_scopes_of_lt hk
  have href : ((ofText s).scopes.map Symbol.ref)[k]? = some a.ref := by
    rw [List.getElem?_map, ha]
    rfl
  have hnodup : ((ofText s).scopes.map Symbol.ref).Nodup := by
    rw [map_ref_scopes]
    exact nodup_delimiters s
  obtain ⟨hlt, href⟩ := List.getElem?_eq_some_iff.mp href
  rw [refAt_of_scopes ha, ← href]
  exact hnodup.idxOf_getElem k hlt

/-- The outline of a table is what pairing finds in the delimiters of its text. -/
theorem outline_ofText : (ofText s).outline = (Delimiter.ofText s).zipIdx.map fun e =>
    ([e.1.char], (counted s).isFlawed e.2, (counted s).partner? e.2) := by
  apply List.ext_getElem?
  intro k
  rw [outline, List.getElem?_map, List.getElem?_map, List.getElem?_zipIdx, Nat.zero_add]
  cases hk : (ofText s).scopes[k]? with
  | none =>
    rw [List.getElem?_eq_none_iff, length_scopes, ← List.getElem?_eq_none_iff] at hk
    rw [hk]
    rfl
  | some a =>
    have hd := List.getElem?_eq_getElem (lt_of_scopes hk)
    have hsibling : a.sibling.map ((ofText s).scopes.map Symbol.ref).idxOf =
        (counted s).partner? k := by
      rw [sibling_of_scopes hk]
      cases hm : (counted s).partner? k with
      | none => rfl
      | some m => exact congrArg some (idxOf_refAt s ((inv_counted s).partner?_lt hm))
    rw [hd, Option.map_some, Option.map_some, Option.map_some, hsibling, error_of_scopes hk,
      ((isEnd_iff_of_scopes hk).mpr hd).2]

-- An opener that a closer of the other kind found is at fault, and may be closed all the same.
example : (ofText ['[', '}', ']']).outline =
    [(['['], true, some 2), (['}'], true, none), ([']'], false, some 0)] := by decide +kernel

/-- **Texts with the same delimiters have the same outline.** -/
theorem outline_congr {s t : List Char} (h : Delimiter.ofText s = Delimiter.ofText t) :
    (ofText s).outline = (ofText t).outline := by
  rw [outline_ofText, outline_ofText, counted, counted, h]

end

end SymbolTable

end CommandPad
