import CommandPad.Proofs.Symbol.Indent
import CommandPad.Proofs.Symbol.Table

/-!
# Tables of reindented texts

The table of a text follows from the shapes of its pieces, blank ones aside, and from their places.
Delimiters are not blank, so pairing sees no other pieces. Kinds look past blank symbols and at
trimmed texts, so classifying gives every symbol the kind that it gives its shape among the shapes
(`shapes_withKinds`).

So it makes no difference to a table how a text is indented.

Results:
* `ownKind?_shape`: a symbol shows the kind that its shape shows.
* `shapes_symbols`: the shapes in a table are its placed shapes, marked and classified.
* **`shapeAt?_ofText_of_reindented`**: tables of reindented texts have the same shapes at the same
  places, blank ones aside, and leave the same openers open.
-/

namespace CommandPad

open Text

/-! ## The shape of a symbol -/

theorem kindOfText?_trim (s : List Char) : kindOfText? (trim s) = kindOfText? s := by
  have hc : ∀ c, isBlank c = false → (trim s).contains c = s.contains c :=
    fun c hc => contains_trim hc s
  unfold kindOfText?
  rw [hc '=' rfl, hc ',' rfl, hc ':' rfl, hc '\'' rfl, hc '{' rfl, hc '}' rfl, hc '[' rfl,
    hc ']' rfl, hc '.' rfl, hc '/' rfl, trim_trim]

namespace Symbol

/-- The symbol without the blanks around it, whatever its column. -/
def shape (a : Symbol) : Symbol := { a with toPiece := a.toPiece.shape }

variable (a : Symbol)

theorem isBlank_shape : a.shape.isBlank = a.isBlank := allBlank_trim a.text

/-- **A symbol shows the kind that its shape shows.** -/
theorem ownKind?_shape : a.shape.ownKind? = a.ownKind? := by
  unfold ownKind? shape Piece.shape
  dsimp only
  rw [contains_trim rfl, kindOfText?_trim]

end Symbol

/-! ## Classifying shapes -/

/-- The shapes of the symbols that are not blank. -/
def shapes (ss : List Symbol) : List Symbol := (ss.filter fun a => !a.isBlank).map Symbol.shape

theorem shapes_cons (a : Symbol) (ss : List Symbol) :
    shapes (a :: ss) = if a.isBlank then shapes ss else a.shape :: shapes ss := by
  unfold shapes
  rw [List.filter_cons]
  cases a.isBlank <;> rfl

theorem shapes_append (ss ss' : List Symbol) : shapes (ss ++ ss') = shapes ss ++ shapes ss' := by
  unfold shapes
  rw [List.filter_append, List.map_append]

theorem nearestKind?_cons (a : Symbol) (ss : List Symbol) :
    nearestKind? (a :: ss) = if a.isBlank then nearestKind? ss else a.ownKind? := by
  unfold nearestKind?
  rw [List.find?_cons]
  cases a.isBlank <;> rfl

/-- The nearest kind is that of a shape. -/
theorem nearestKind?_shapes (ss : List Symbol) : nearestKind? (shapes ss) = nearestKind? ss := by
  induction ss with
  | nil => rfl
  | cons a ss ih =>
    rw [shapes_cons, nearestKind?_cons]
    by_cases ha : a.isBlank = true
    · rw [if_pos ha, if_pos ha, ih]
    · rw [if_neg ha, if_neg ha, nearestKind?_cons, a.isBlank_shape, if_neg ha, a.ownKind?_shape]

/-- A row of symbols with the kinds that follow from the row and from the kind in front of it. -/
def withKinds (before : Option SymbolKind) (ss : List Symbol) : List Symbol :=
  List.zipWith (fun a kind => { a with kind }) ss (kindsAfter before ss)

theorem withKinds_cons (before : Option SymbolKind) (a : Symbol) (ss : List Symbol) :
    withKinds before (a :: ss) =
      { a with kind := a.ownKind?.getD (kindBetween before (nearestKind? ss)) } ::
        withKinds (if a.isBlank then before else a.ownKind?) ss := rfl

/-- **Classifying looks past blanks**: it gives symbols that are not blank the kinds that it gives
their shapes. -/
theorem shapes_withKinds (before : Option SymbolKind) (ss : List Symbol) :
    shapes (withKinds before ss) = withKinds before (shapes ss) := by
  induction ss generalizing before with
  | nil => rfl
  | cons a ss ih =>
    rw [withKinds_cons, shapes_cons, shapes_cons]
    change (if a.isBlank then _ else _) = _
    by_cases ha : a.isBlank = true
    · rw [if_pos ha, if_pos ha, if_pos ha, ih]
    · rw [if_neg ha, if_neg ha, if_neg ha, ih, withKinds_cons, a.isBlank_shape, if_neg ha,
        a.ownKind?_shape, nearestKind?_shapes]
      rfl

theorem flatten_assignKinds (lines : List (List Symbol)) (ks : List SymbolKind) :
    (assignKinds lines ks).flatten =
      List.zipWith (fun a kind => { a with kind }) lines.flatten ks := by
  induction lines generalizing ks with
  | nil => rfl
  | cons line lines ih =>
    rw [assignKinds, List.flatten_cons, List.flatten_cons, ih]
    simp only [← List.map_uncurry_zip_eq_zipWith]
    rw [zip_append_drop, List.map_append]

theorem flatten_classify (lines : List (List Symbol)) :
    (classify lines).flatten = withKinds none lines.flatten := flatten_assignKinds lines _

namespace SymbolTable

/-! ## Marking shapes -/

variable {s t : List Char}

theorem isBlank_mark (p : Pairing SymbolRef) (b : Symbol) : (mark p b).isBlank = b.isBlank :=
  congrArg (fun p : Piece => allBlank p.text) (toPiece_mark p b)

theorem shape_mark (p : Pairing SymbolRef) (b : Symbol) : (mark p b).shape = mark p b.shape := by
  unfold mark
  change _ = if b.role.delimiter?.isSome then _ else _
  split <;> rfl

theorem shapes_map_mark (p : Pairing SymbolRef) (ss : List Symbol) :
    shapes (ss.map (mark p)) = (shapes ss).map (mark p) := by
  induction ss with
  | nil => rfl
  | cons b ss ih =>
    rw [List.map_cons, shapes_cons, shapes_cons, isBlank_mark, ih, shape_mark]
    split <;> rfl

/-- **The shapes in a table** are its placed shapes, marked and classified. -/
theorem shapes_symbols (s : List Char) : shapes (ofText s).symbols =
    withKinds none ((shapes (placed s).flatten).map (mark (pairing s))) := by
  have hclassify : (ofText s).symbols =
      withKinds none ((placed s).flatten.map (mark (pairing s))) := by
    rw [List.map_flatten]
    exact flatten_classify _
  rw [hclassify, shapes_withKinds, shapes_map_mark]

/-! ## Placing shapes -/

/-- The pieces of a line with their places. -/
def placeRow (ref : Nat → SymbolRef) (ps : List Piece) : List Symbol :=
  ps.mapIdx fun i p => { toPiece := p, ref := ref i }

theorem placeRow_cons (ref : Nat → SymbolRef) (p : Piece) (ps : List Piece) :
    placeRow ref (p :: ps) =
      { toPiece := p, ref := ref 0 } :: placeRow (fun i => ref (i + 1)) ps :=
  List.mapIdx_cons

theorem shapes_placeRow_of_allBlank {ps : List Piece} (h : ∀ p ∈ ps, allBlank p.text = true)
    (ref : Nat → SymbolRef) : shapes (placeRow ref ps) = [] := by
  rw [shapes, List.map_eq_nil_iff, List.filter_eq_nil_iff]
  intro a ha
  obtain ⟨i, hi, rfl⟩ := List.mem_mapIdx.mp ha
  simp [Symbol.isBlank, h ps[i] (List.getElem_mem hi)]

/-- Pieces of the same shapes make symbols of the same shapes, in the same places. -/
theorem shapes_placeRow_congr {ps qs : List Piece} (h : Piece.shapeAt? ps = Piece.shapeAt? qs)
    (ref : Nat → SymbolRef) : shapes (placeRow ref ps) = shapes (placeRow ref qs) := by
  induction ps generalizing qs ref with
  | nil =>
    have hqs := Piece.shapeAt?_eq_none_iff.mp fun i => (congrFun h i).symm
    exact (shapes_placeRow_of_allBlank hqs ref).symm
  | cons p ps ih =>
    cases qs with
    | nil =>
      have hps := Piece.shapeAt?_eq_none_iff.mp (congrFun h)
      exact shapes_placeRow_of_allBlank hps ref
    | cons q qs =>
      have hhead := congrFun h 0
      have htail : Piece.shapeAt? ps = Piece.shapeAt? qs := funext fun i => congrFun h (i + 1)
      rw [Piece.shapeAt?_cons_zero, Piece.shapeAt?_cons_zero] at hhead
      rw [placeRow_cons, placeRow_cons, shapes_cons, shapes_cons, ih htail]
      change (if allBlank p.text then _ else _) = if allBlank q.text then _ else _
      by_cases hp : allBlank p.text = true <;> by_cases hq : allBlank q.text = true
      · rw [if_pos hp, if_pos hq]
      · rw [if_pos hp, if_neg hq] at hhead
        exact absurd hhead (by simp)
      · rw [if_neg hp, if_pos hq] at hhead
        exact absurd hhead (by simp)
      · rw [if_neg hp, if_neg hq] at hhead
        rw [if_neg hp, if_neg hq]
        have hshape : p.shape = q.shape := Option.some.inj hhead
        simp only [Symbol.shape, hshape]

theorem shapes_placeRows_congr {ls ms : List (List Piece)}
    (h : ls.map Piece.shapeAt? = ms.map Piece.shapeAt?) (ref : Nat → Nat → SymbolRef) :
    shapes (ls.mapIdx fun i => placeRow (ref i)).flatten =
      shapes (ms.mapIdx fun i => placeRow (ref i)).flatten := by
  induction ls generalizing ms ref with
  | nil =>
    obtain rfl := List.map_eq_nil_iff.mp h.symm
    rfl
  | cons ps ls ih =>
    obtain ⟨qs, ms, rfl, hhead, htail⟩ := List.map_eq_cons_iff.mp h.symm
    rw [List.mapIdx_cons, List.mapIdx_cons, List.flatten_cons, List.flatten_cons, shapes_append,
      shapes_append, shapes_placeRow_congr hhead.symm (ref 0), ih htail.symm fun i => ref (i + 1)]

theorem shapes_placed_congr
    (h : (Piece.ofText s).map Piece.shapeAt? = (Piece.ofText t).map Piece.shapeAt?) :
    shapes (placed s).flatten = shapes (placed t).flatten :=
  shapes_placeRows_congr h fun i j => ⟨i, j⟩

/-! ## Delimiters among shapes -/

/-- No delimiter is blank. -/
theorem delimiter?_of_isBlank {b : Symbol} (hs : b.toPiece.Sound) (hb : b.isBlank = true) :
    b.role.delimiter? = none := by
  cases hd : b.role.delimiter? with
  | none => rfl
  | some d =>
    obtain ⟨blanks, -, htext⟩ := hs.delimiter d (Piece.delimiter?_eq_some_iff.mp hd)
    have hchar : isBlank d.char = true :=
      List.all_eq_true.mp hb d.char (by rw [htext]; simp)
    rw [d.isBlank_char] at hchar
    exact absurd hchar Bool.false_ne_true

theorem sound_of_mem_placed {b : Symbol} (h : b ∈ (placed s).flatten) : b.toPiece.Sound := by
  refine Piece.sound_of_mem_pieces (s := s) ?_
  rw [← map_toPiece_place (Piece.ofText s), ← List.map_flatten]
  exact List.mem_map_of_mem h

/-- The delimiters of a text are among its shapes. -/
theorem delimiters_eq_shapes (s : List Char) : delimiters (placed s) =
    (shapes (placed s).flatten).filterMap fun b => b.role.delimiter?.map (·, b.ref) := by
  have hsound : ∀ b ∈ (placed s).flatten, b.toPiece.Sound := fun _ hb => sound_of_mem_placed hb
  unfold delimiters
  generalize (placed s).flatten = ss at hsound
  induction ss with
  | nil => rfl
  | cons b ss ih =>
    obtain ⟨hb, hss⟩ := List.forall_mem_cons.mp hsound
    rw [shapes_cons]
    by_cases hblank : b.isBlank = true
    · rw [if_pos hblank, ← ih hss, List.filterMap_cons, delimiter?_of_isBlank hb hblank]
      rfl
    · rw [if_neg hblank, List.filterMap_cons, List.filterMap_cons, ih hss]
      rfl

/-! ## Shapes by place -/

/-- The shape of the symbol at a place, if that is not blank. -/
def shapeAt? (t : SymbolTable) (r : SymbolRef) : Option Symbol :=
  ((t.get? r).filter fun a => !a.isBlank).map Symbol.shape

theorem shapeAt?_eq_some_iff {r : SymbolRef} {x : Symbol} :
    (ofText s).shapeAt? r = some x ↔ x ∈ shapes (ofText s).symbols ∧ x.ref = r := by
  simp only [shapeAt?, Option.map_eq_some_iff, Option.filter_eq_some_iff, shapes, List.mem_map,
    List.mem_filter]
  constructor
  · rintro ⟨a, ⟨ha, hsolid⟩, rfl⟩
    have href : a.ref = r := ref_of_get? ha
    exact ⟨⟨a, ⟨mem_symbols_of_get? ha, hsolid⟩, rfl⟩, href⟩
  · rintro ⟨⟨a, ⟨ha, hsolid⟩, rfl⟩, rfl⟩
    exact ⟨a, ⟨get?_ref ha, hsolid⟩, rfl⟩

/-- **Indentation makes no difference to a table.** Where blanks are put in or taken away in front of
lines that start outside every literal, or behind lines that end outside, the symbols that are not
blank have the same places and, but for blanks around them, the same texts, and the same kinds, flags
and siblings. The same openers are left open. -/
theorem shapeAt?_ofText_of_reindented (h : Reindented .outside (Text.lines s) (Text.lines t)) :
    (∀ r, (ofText s).shapeAt? r = (ofText t).shapeAt? r) ∧
      (ofText s).unclosed = (ofText t).unclosed := by
  have hplaced := shapes_placed_congr (Piece.shapes_of_reindented h)
  have hpairing : pairing s = pairing t := by
    rw [pairing, pairing, delimiters_eq_shapes, delimiters_eq_shapes, hplaced]
  have hshapes : shapes (ofText s).symbols = shapes (ofText t).symbols := by
    rw [shapes_symbols, shapes_symbols, hplaced, hpairing]
  refine ⟨fun r => Option.ext fun x => ?_, congrArg Pairing.unclosed hpairing⟩
  rw [shapeAt?_eq_some_iff, shapeAt?_eq_some_iff, hshapes]

/-- An opener is set back and gets a tab behind it, an empty line gets a blank symbol, and a literal
over two lines is moved as far as that may be: not at the start of its second line. -/
theorem shapeAt?_reindented_literal :
    (∀ r, (ofText [' ', '[', '\n', '\n', '"', 'a', '\n', ' ', '"', ']']).shapeAt? r =
      (ofText ['[', '\t', '\n', ' ', '\n', ' ', '"', 'a', '\n', ' ', '"', ']', ' ']).shapeAt? r) ∧
    (ofText [' ', '[', '\n', '\n', '"', 'a', '\n', ' ', '"', ']']).unclosed =
      (ofText ['[', '\t', '\n', ' ', '\n', ' ', '"', 'a', '\n', ' ', '"', ']', ' ']).unclosed :=
  shapeAt?_ofText_of_reindented <|
    .cons (.intro [' '] [] ['['] [] ['\t'] rfl rfl rfl rfl (.inl rfl) (.inl rfl)) <|
    .cons (.intro [] [' '] [] [] [] rfl rfl rfl rfl (.inl rfl) (.inl rfl)) <|
    .cons (.intro [] [' '] ['"', 'a'] [] [] rfl rfl rfl rfl (.inl rfl) (.inr rfl)) <|
    .cons (.intro [] [] [' ', '"', ']'] [] [' '] rfl rfl rfl rfl (.inr rfl) (.inl rfl)) <|
    .nil _

end SymbolTable

end CommandPad
