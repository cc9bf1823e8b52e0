import CommandPad.Symbol.Piece

/-!
# What pieces are cut from

The delimiters of a text are its brackets and braces outside literals. `Delimiter.scan` reads them
off the characters, and nothing else: no columns, no scopes, no triples.

Cutting finds the same ones. One step of it (`Cutting.Inv.read`) reads one character: it cuts a
delimiter exactly if the character is one, outside literals, and it leaves a state in order
(`Cutting.Inv`). What could go wrong is a triple, whose characters are passed over without a look;
there is no quote and no delimiter among them (`within_lengthAt?`).

Results:
* **`delimiters_pieces`**: the delimiters that are cut are those of the text, in order.
* `sound_of_mem_pieces`: a piece that is a delimiter has no text but that and blanks, and one that is
  plain has no delimiter in it.
* `length_pieces`: there is one line of pieces for each line of the text.
-/

namespace CommandPad

open Text

/-! ## The delimiters of a text -/

namespace Delimiter

/-- The delimiters of a text that starts in state `q`: the brackets and braces outside literals. -/
def scan : Quoting → List Char → List Delimiter
  | _, [] => []
  | q, c :: s => (if q.isInside then [] else (ofChar? c).toList) ++ scan (q.step c) s

/-- The delimiters of a text. -/
def ofText (s : List Char) : List Delimiter := scan .outside s

theorem scan_newline (q : Quoting) (s : List Char) :
    scan q ('\n' :: s) = scan (q.step '\n') s := by
  rw [scan]
  split <;> rfl

theorem isBlank_char (d : Delimiter) : isBlank d.char = false := by
  rcases d with (_ | _) | (_ | _) <;> rfl

theorem ofChar?_of_isBlank {c : Char} (h : isBlank c = true) : ofChar? c = none :=
  ofChar?_eq_none isBlank_char h

end Delimiter

/-! ## The characters of a triple -/

namespace Coordinates

/-- A character that can stand in a triple. -/
def inTriple (c : Char) : Bool :=
  isDecimalDigit c || c == '.' || c == '-' || c == '~' || c == '^' || c == ' '

/-- The first `n` characters of a text can stand in a triple. -/
def Within (n : Nat) (s : List Char) : Prop := ∀ c ∈ s.take n, inTriple c = true

theorem Within.zero (s : List Char) : Within 0 s := by simp [Within]

theorem Within.add {n m : Nat} {s : List Char} (hn : Within n s) (hm : Within m (s.drop n)) :
    Within (n + m) s := by
  intro c hc
  rw [List.take_add] at hc
  rcases List.mem_append.mp hc with hc | hc
  · exact hn c hc
  · exact hm c hc

theorem Within.cons {n : Nat} {c : Char} {s : List Char} (hc : inTriple c = true)
    (h : Within n s) : Within (1 + n) (c :: s) := by
  refine Within.add (fun d hd => ?_) h
  obtain rfl : d = c := by simpa using hd
  exact hc

theorem Within.takeWhile {p : Char → Bool} (hp : ∀ c, p c = true → inTriple c = true)
    (s : List Char) : Within (s.takeWhile p).length s := by
  intro c hc
  rw [← List.prefix_iff_eq_take.mp (List.takeWhile_prefix p)] at hc
  exact hp c (List.all_eq_true.mp List.all_takeWhile c hc)

theorem Within.digits (s : List Char) : Within (digitsLength s) s :=
  Within.takeWhile (fun c hc => by simp [inTriple, hc]) s

theorem Within.unsigned (s : List Char) : Within (unsignedLength s) s := by
  unfold unsignedLength
  dsimp only
  split
  · split
    · rename_i t ht
      rw [Nat.add_assoc]
      refine (Within.digits s).add ?_
      rw [ht]
      exact .cons rfl (.digits t)
    · exact .digits s
  · split
    · split
      · exact .cons rfl (.digits _)
      · exact .zero _
    · exact .zero _

theorem Within.number (s : List Char) : Within (numberLength s) s := by
  unfold numberLength
  split
  · split
    · exact .cons rfl (.unsigned _)
    · exact .zero _
  · exact .unsigned _

theorem Within.component {s : List Char} {n : Nat} (h : componentLength? s = some n) :
    Within n s := by
  unfold componentLength? at h
  split at h
  · obtain rfl := Option.some.inj h
    exact .cons rfl (.number _)
  · obtain rfl := Option.some.inj h
    exact .cons rfl (.number _)
  · split at h
    · obtain rfl := Option.some.inj h
      exact .number _
    · exact absurd h (by simp)

theorem Within.next {s : List Char} {n : Nat} (h : nextLength? s = some n) : Within n s := by
  unfold nextLength? at h
  dsimp only at h
  split at h
  · obtain ⟨m, hm, rfl⟩ := Option.map_eq_some_iff.mp h
    refine (Within.takeWhile (fun c hc => ?_) s).add (.component hm)
    simp [inTriple, beq_iff_eq.mp hc]
  · exact absurd h (by simp)

/-- A triple has none but its own characters. -/
theorem within_lengthAt? {s : List Char} {n : Nat} (h : lengthAt? s = some n) : Within n s := by
  unfold lengthAt? at h
  split at h
  · obtain ⟨h, -⟩ := Option.filter_eq_some_iff.mp h
    obtain ⟨first, hfirst, h⟩ := Option.bind_eq_some_iff.mp h
    obtain ⟨second, hsecond, h⟩ := Option.bind_eq_some_iff.mp h
    obtain ⟨third, hthird, h⟩ := Option.bind_eq_some_iff.mp h
    obtain rfl := Option.some.inj h
    refine ((Within.component hfirst).add (.next hsecond)).add ?_
    exact .next hthird
  · exact absurd h (by simp)

theorem ofChar?_of_inTriple {c : Char} (h : inTriple c = true) : Delimiter.ofChar? c = none :=
  Delimiter.ofChar?_eq_none (P := inTriple) (by rintro ((_ | _) | (_ | _)) <;> decide) h

theorem ne_quote_of_inTriple {c : Char} (h : inTriple c = true) : c ≠ '"' := by
  rintro rfl
  exact absurd h (by decide)

end Coordinates

/-! ## One step -/

namespace Piece

theorem delimiter?_eq_some_iff {r : Role} {d : Delimiter} :
    r.delimiter? = some d ↔ r = .delimiter d := by
  cases r <;> simp [Role.delimiter?]

/-- What the role of a piece says of its text. -/
structure Sound (p : Piece) : Prop where
  /-- A delimiter has nothing but blanks in front. -/
  delimiter : ∀ d, p.role = .delimiter d →
    ∃ blanks, allBlank blanks = true ∧ p.text = blanks ++ [d.char]
  /-- There is no delimiter in a plain piece. -/
  plain : p.role = .plain → ∀ c ∈ p.text, Delimiter.ofChar? c = none

/-- The delimiters among pieces. -/
def delimiters (ps : List Piece) : List Delimiter := ps.filterMap (·.role.delimiter?)

theorem delimiters_append (ps qs : List Piece) :
    delimiters (ps ++ qs) = delimiters ps ++ delimiters qs := List.filterMap_append

theorem Sound.of_plain {start : Nat} {text : List Char}
    (h : ∀ c ∈ text, Delimiter.ofChar? c = none) : Sound ⟨start, text, .plain⟩ :=
  ⟨fun _ hd => absurd hd (by simp), fun _ => h⟩

theorem Sound.of_literal {start : Nat} {text : List Char} : Sound ⟨start, text, .literal⟩ :=
  ⟨fun _ hd => absurd hd (by simp), fun hd => absurd hd (by simp)⟩

theorem Sound.of_coordinate {start : Nat} {text : List Char} : Sound ⟨start, text, .coordinate⟩ :=
  ⟨fun _ hd => absurd hd (by simp), fun hd => absurd hd (by simp)⟩

namespace Cutting

variable {st : Cutting} {c : Char} {rest : List Char}

/-- Between two characters, with `rest` still to read. -/
structure Inv (st : Cutting) (rest : List Char) : Prop where
  /-- Outside literals no delimiter is pending. -/
  pending : st.quoting = .outside → ∀ c ∈ st.pending, Delimiter.ofChar? c = none
  /-- What is left of a triple stands outside literals. -/
  ahead : 0 < st.ahead → st.quoting = .outside ∧ Coordinates.Within st.ahead rest

/-- What reading `c` in state `st` has to give, with `rest` after it. -/
structure Reads (st : Cutting) (c : Char) (rest : List Char) (out : List Piece × Cutting) :
    Prop where
  sound : ∀ p ∈ out.1, p.Sound
  delimiters : Piece.delimiters out.1 =
    if st.quoting.isInside then [] else (Delimiter.ofChar? c).toList
  quoting : out.2.quoting = st.quoting.step c
  inv : out.2.Inv rest

/-- A flush cuts nothing where only blanks are pending, and cuts what is pending elsewhere. -/
theorem flush_cases (st : Cutting) :
    allBlank st.pending = true ∧ st.flush = ([], st) ∨ st.flush = ([st.piece .plain], st.cut) := by
  unfold flush
  split
  · exact Or.inl ⟨by assumption, rfl⟩
  · exact Or.inr rfl

theorem allBlank_pending_flush (st : Cutting) : allBlank st.flush.2.pending = true := by
  rcases st.flush_cases with ⟨hb, hf⟩ | hf
  · rw [hf]
    exact hb
  · rw [hf]
    rfl

theorem quoting_flush (st : Cutting) : st.flush.2.quoting = st.quoting := by
  rcases st.flush_cases with ⟨-, hf⟩ | hf
  · rw [hf]
  · rw [hf]
    rfl

theorem ahead_flush (st : Cutting) : st.flush.2.ahead = st.ahead := by
  rcases st.flush_cases with ⟨-, hf⟩ | hf
  · rw [hf]
  · rw [hf]
    rfl

theorem delimiters_flush (st : Cutting) : Piece.delimiters st.flush.1 = [] := by
  rcases st.flush_cases with ⟨-, hf⟩ | hf <;> (rw [hf]; rfl)

theorem sound_flush (h : ∀ c ∈ st.pending, Delimiter.ofChar? c = none) :
    ∀ p ∈ st.flush.1, p.Sound := by
  rcases st.flush_cases with ⟨-, hf⟩ | hf <;> rw [hf]
  · exact fun _ hp => absurd hp List.not_mem_nil
  · intro p hp
    obtain rfl := List.mem_singleton.mp hp
    exact .of_plain fun c hc => h c (List.mem_reverse.mp hc)

theorem ofChar?_of_mem_blanks {s : List Char} (hs : allBlank s = true) :
    ∀ c ∈ s, Delimiter.ofChar? c = none :=
  fun c hc => Delimiter.ofChar?_of_isBlank (List.all_eq_true.mp hs c hc)

theorem step_outside (h : c ≠ '"') : Quoting.outside.step c = .outside := if_neg h

/-- A character that is a piece of its own. -/
theorem reads_single (h : st.Inv (c :: rest)) (hq : st.quoting = .outside) (ha : st.ahead = 0)
    (hc : c ≠ '"') (role : Role) (hrole : role.delimiter? = Delimiter.ofChar? c)
    (hplain : role = .plain ∨ ∃ d, role = .delimiter d) :
    Reads st c rest (st.single c role) := by
  have hblank := allBlank_pending_flush st
  refine ⟨fun p hp => ?_, ?_, ?_, fun _ => by simp [single, cut], ?_⟩
  · rcases List.mem_append.mp hp with hp | hp
    · exact sound_flush (h.pending hq) p hp
    · obtain rfl := List.mem_singleton.mp hp
      rcases hplain with rfl | ⟨d, rfl⟩
      · refine .of_plain fun b hb => ?_
        rcases List.mem_cons.mp (List.mem_reverse.mp hb) with rfl | hb
        · exact hrole.symm
        · exact ofChar?_of_mem_blanks hblank b hb
      · refine ⟨fun e he => ?_, fun he => absurd he (by simp [piece])⟩
        obtain rfl := Role.delimiter.inj he
        refine ⟨st.flush.2.pending.reverse, by simpa [allBlank] using hblank, ?_⟩
        rw [← Delimiter.eq_char_of_ofChar? hrole.symm]
        show (c :: st.flush.2.pending).reverse = _
        rw [List.reverse_cons]
  · rw [single, delimiters_append, delimiters_flush, hq, if_neg (by simp [Quoting.isInside]),
      ← hrole]
    cases hr : role.delimiter? <;> simp [Piece.delimiters, piece, hr]
  · show st.flush.2.quoting = _
    rw [quoting_flush, hq, step_outside hc]
  · intro hpos
    have : st.flush.2.ahead = 0 := (ahead_flush st).trans ha
    exact absurd (show 0 < st.flush.2.ahead from hpos) (by omega)

theorem reads_plain (h : st.Inv (c :: rest)) (hq : st.quoting = .outside) (ha : st.ahead = 0) :
    Reads st c rest (st.readPlain c) := by
  have hflush := sound_flush (h.pending hq)
  have hdel := delimiters_flush st
  have hblank := allBlank_pending_flush st
  have ha' : ¬ 0 < st.flush.2.ahead := by
    rw [ahead_flush, ha]
    exact Nat.lt_irrefl 0
  have hin : ¬ st.quoting.isInside = true := by
    rw [hq]
    exact Bool.false_ne_true
  unfold readPlain
  split
  · rename_i hc
    subst hc
    refine ⟨hflush, ?_, ?_, fun hout => ?_, fun hpos => absurd hpos ha'⟩
    · rw [if_neg hin]
      exact hdel
    · show st.flush.2.quoting.step '"' = _
      rw [quoting_flush]
    · have hout : st.flush.2.quoting.step '"' = .outside := hout
      rw [quoting_flush, hq] at hout
      exact absurd hout (by decide)
  rename_i hc
  split
  · rename_i hb
    have hnone := Delimiter.ofChar?_of_isBlank (Bool.and_eq_true_iff.mp hb).2
    refine ⟨hflush, ?_, ?_, fun _ => ?_, fun hpos => absurd hpos ha'⟩
    · rw [if_neg hin, hnone]
      exact hdel
    · show st.flush.2.quoting = _
      rw [quoting_flush, hq, step_outside hc]
    · exact List.forall_mem_cons.mpr ⟨hnone, ofChar?_of_mem_blanks hblank⟩
  split
  · rename_i hbreak
    have hnone : Delimiter.ofChar? c = none :=
      Delimiter.ofChar?_eq_none (P := isBreaking) (by rintro ((_ | _) | (_ | _)) <;> rfl) hbreak
    exact reads_single h hq ha hc .plain hnone.symm (Or.inl rfl)
  split
  · rename_i d hd
    have := reads_single h hq ha hc (.delimiter d) hd.symm (Or.inr ⟨d, rfl⟩)
    exact ⟨this.sound, this.delimiters, this.quoting, this.inv.pending, this.inv.ahead⟩
  · rename_i hnone
    refine ⟨fun _ hp => absurd hp List.not_mem_nil, ?_, ?_, fun _ => ?_, fun hpos => ?_⟩
    · rw [if_neg hin, hnone]
      rfl
    · show st.quoting = _
      rw [hq, step_outside hc]
    · exact List.forall_mem_cons.mpr ⟨hnone, h.pending hq⟩
    · exact absurd (show 0 < st.ahead from hpos) (by omega)

theorem reads_quoted (hq : st.quoting.isInside = true) (ha : st.ahead = 0) :
    Reads st c rest (st.readQuoted c) := by
  have ha' : ¬ 0 < st.ahead := by omega
  unfold readQuoted
  dsimp only
  split
  · rename_i hin
    refine ⟨fun _ hp => absurd hp List.not_mem_nil, (if_pos hq).symm, rfl, fun hout => ?_,
      fun hpos => absurd hpos ha'⟩
    have hout : st.quoting.step c = .outside := hout
    rw [hout] at hin
    exact absurd hin Bool.false_ne_true
  · refine ⟨fun p hp => ?_, (if_pos hq).symm, rfl, fun _ => by simp [cut],
      fun hpos => absurd hpos ha'⟩
    obtain rfl := List.mem_singleton.mp hp
    exact .of_literal

theorem reads_triple (h : st.Inv (c :: rest)) (hq : st.quoting = .outside) {n : Nat}
    (hn : Coordinates.Within (n + 1) (c :: rest)) : Reads st c rest (st.readTriple c n) := by
  have hc : Coordinates.inTriple c = true := hn c (by simp)
  have hrest : Coordinates.Within n rest := fun d hd => hn d (List.mem_cons_of_mem c hd)
  have hstep : st.quoting = st.quoting.step c := by
    rw [hq, step_outside (Coordinates.ne_quote_of_inTriple hc)]
  have hdel : [] = if st.quoting.isInside then [] else (Delimiter.ofChar? c).toList := by
    rw [Coordinates.ofChar?_of_inTriple hc]
    split <;> rfl
  unfold readTriple
  dsimp only
  split
  · rename_i h0
    refine ⟨fun p hp => ?_, hdel, hstep, fun _ => by simp [cut], fun hpos => ?_⟩
    · obtain rfl := List.mem_singleton.mp hp
      exact .of_coordinate
    · exact absurd (show 0 < n from hpos) (by omega)
  · refine ⟨fun _ hp => absurd hp List.not_mem_nil, hdel, hstep, fun _ => ?_, fun _ => ⟨hq, hrest⟩⟩
    exact List.forall_mem_cons.mpr ⟨Coordinates.ofChar?_of_inTriple hc, h.pending hq⟩

/-- What a step is: inside a triple, inside a literal, or outside both. -/
theorem Inv.read_cases (h : st.Inv (c :: rest)) :
    (∃ n, st.quoting = .outside ∧ Coordinates.Within (n + 1) (c :: rest) ∧
      st.read c rest = st.readTriple c n) ∨
    (st.quoting.isInside = true ∧ st.ahead = 0 ∧ st.read c rest = st.readQuoted c) ∨
    (st.quoting = .outside ∧ st.ahead = 0 ∧ st.read c rest = st.readPlain c) := by
  unfold Cutting.read
  split
  · rename_i n hn
    obtain ⟨hq, hwithin⟩ := h.ahead (by omega)
    rw [hn] at hwithin
    exact Or.inl ⟨n, hq, hwithin, rfl⟩
  · rename_i ha
    split
    · rename_i hin
      exact Or.inr (Or.inl ⟨hin, ha, rfl⟩)
    · rename_i hin
      have hq : st.quoting = .outside := by
        cases hq : st.quoting with
        | outside => rfl
        | inside e => exact absurd (hq ▸ rfl) hin
      split
      · rename_i n hn
        split at hn
        · exact Or.inl ⟨n, hq, Coordinates.within_lengthAt? hn, rfl⟩
        · exact absurd hn (by simp)
      · exact Or.inr (Or.inr ⟨hq, ha, rfl⟩)

/-- **One step of cutting**: it cuts a delimiter exactly if the character is one outside literals. -/
theorem Inv.read (h : st.Inv (c :: rest)) : Reads st c rest (st.read c rest) := by
  obtain ⟨n, hq, hwithin, hread⟩ | ⟨hin, ha, hread⟩ | ⟨hq, ha, hread⟩ := h.read_cases
  · rw [hread]
    exact reads_triple h hq hwithin
  · rw [hread]
    exact reads_quoted hin ha
  · rw [hread]
    exact reads_plain h hq ha

theorem Inv.nextLine (st : Cutting) (rest : List Char) : st.nextLine.Inv rest where
  pending := by simp [Cutting.nextLine]
  ahead := fun hpos => absurd hpos (by simp [Cutting.nextLine])

theorem delimiters_finish (st : Cutting) : Piece.delimiters st.finish = [] := by
  unfold finish
  split
  · rfl
  · split <;> rfl

theorem Inv.sound_finish (h : st.Inv rest) : ∀ p ∈ st.finish, p.Sound := by
  intro p hp
  unfold finish at hp
  split at hp
  · exact absurd hp List.not_mem_nil
  · obtain rfl := List.mem_singleton.mp hp
    cases hq : st.quoting with
    | outside => exact .of_plain fun c hc => h.pending hq c (List.mem_reverse.mp hc)
    | inside e => exact .of_literal

end Cutting

/-! ## A whole text -/

theorem flatten_onFirstLine (ps : List Piece) (lines : List (List Piece)) :
    (onFirstLine ps lines).flatten = ps ++ lines.flatten := by
  cases lines with
  | nil => simp [onFirstLine]
  | cons line lines => simp [onFirstLine]

theorem cutLines_ne_nil (st : Cutting) (s : List Char) : cutLines st s ≠ [] := by
  cases s with
  | nil => simp [cutLines]
  | cons c s =>
    rw [cutLines]
    split
    · simp
    · cases cutLines (st.read c s).2 s <;> simp [onFirstLine]

theorem length_cutLines (st : Cutting) (s : List Char) :
    (cutLines st s).length = s.count '\n' + 1 := by
  induction s generalizing st with
  | nil => rfl
  | cons c s ih =>
    rw [cutLines]
    split
    · rename_i hc
      rw [List.length_cons, ih, hc, List.count_cons_self]
    · rename_i hc
      obtain ⟨line, lines, hl⟩ := List.exists_cons_of_ne_nil (cutLines_ne_nil (st.read c s).2 s)
      have := ih (st.read c s).2
      rw [hl] at this ⊢
      rw [List.count_cons_of_ne hc, ← this]
      rfl

/-- There is one line of pieces for each line of the text. -/
theorem length_pieces (s : List Char) : (ofText s).length = s.count '\n' + 1 :=
  length_cutLines {} s

theorem cutLines_spec (s : List Char) (st : Cutting) (h : st.Inv s) :
    delimiters (cutLines st s).flatten = Delimiter.scan st.quoting s ∧
      ∀ p ∈ (cutLines st s).flatten, p.Sound := by
  induction s generalizing st with
  | nil =>
    rw [cutLines, List.flatten_singleton]
    exact ⟨st.delimiters_finish, h.sound_finish⟩
  | cons c s ih =>
    rw [cutLines, Delimiter.scan]
    split
    · rename_i hc
      obtain ⟨hdel, hsound⟩ := ih st.nextLine (.nextLine st s)
      have hnone : (if st.quoting.isInside then [] else (Delimiter.ofChar? c).toList) = [] := by
        rw [hc]
        split <;> rfl
      rw [List.flatten_cons, hnone, List.nil_append]
      refine ⟨?_, fun p hp => ?_⟩
      · rw [delimiters_append, st.delimiters_finish, List.nil_append, hdel, hc]
        rfl
      · rcases List.mem_append.mp hp with hp | hp
        · exact h.sound_finish p hp
        · exact hsound p hp
    · have hread := h.read
      obtain ⟨hdel, hsound⟩ := ih (st.read c s).2 hread.inv
      rw [flatten_onFirstLine]
      refine ⟨?_, fun p hp => ?_⟩
      · rw [delimiters_append, hread.delimiters, hdel, hread.quoting]
      · rcases List.mem_append.mp hp with hp | hp
        · exact hread.sound p hp
        · exact hsound p hp

theorem Cutting.Inv.start (s : List Char) : ({} : Cutting).Inv s where
  pending := by simp
  ahead := fun hpos => absurd hpos (Nat.lt_irrefl 0)

/-- **The delimiters that are cut are those of the text**, in order. -/
theorem delimiters_pieces (s : List Char) :
    delimiters (ofText s).flatten = Delimiter.ofText s :=
  (cutLines_spec s {} (.start s)).1

theorem sound_of_mem_pieces {s : List Char} {p : Piece} (h : p ∈ (ofText s).flatten) : p.Sound :=
  (cutLines_spec s {} (.start s)).2 p h

end Piece

end CommandPad
