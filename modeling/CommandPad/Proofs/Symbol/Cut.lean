import CommandPad.Proofs.Symbol.Indent
import CommandPad.Proofs.Symbol.Triple

/-!
# Where a line is cut

`Proper` says of a piece why it was cut where it was: from what stands in front of it on its line and
behind it, and from the scopes that are open there. `Cuts` says it of a row of pieces, and follows
the scopes from piece to piece.

Between two characters some are held back. `Ready` is what they keep to: outside literals there is
nothing among them that has to be a piece of its own; where no scope is open they are blanks and
then an argument without blanks, and no triple starts with that argument, unless it is one that is
being read. Each thing that a step can do (`Ready.read_cases`) keeps this, and cuts properly: it is
one of the `Steps`.

Results:
* `Single.proper`: what is always a piece of its own is cut properly.
* `Ready.read`: one step of cutting.
* **`Ready.cuts_row`**: a line is cut properly.
* **`exists_proper`**: so is every piece of a text, with the scopes that the delimiters before it
  leave open.
-/

namespace CommandPad

open Text

namespace Piece

open Coordinates (lengthAt?)

/-! ## Pieces that are cut properly -/

/-- A character that need not be a piece of its own: no quote, no delimiter, nothing that breaks. -/
def isPlain (c : Char) : Bool := c != '"' && !isBreaking c && (Delimiter.ofChar? c).isNone

/-- A character of an argument. -/
def isArgument (c : Char) : Bool := isPlain c && !isBlank c

/-- Why a piece was cut where it was, with `front` in front of it on its line, `rest` behind it, and
the scopes `stack` open. -/
structure Proper (front : List Char) (stack : List Scope) (p : Piece) (rest : List Char) : Prop where
  start : p.start = front.length
  /-- What breaks stands alone behind blanks. -/
  plain : p.role = .plain →
    (∃ w c, allBlank w = true ∧ isBreaking c = true ∧ p.text = w ++ [c]) ∨
      ∀ c ∈ p.text, isPlain c = true
  /-- Where no scope is open, blanks end an argument. -/
  argument : p.role = .plain → stack = [] → ∀ c ∈ trim p.text, isBlank c = false
  coordinate : p.role = .coordinate → stack = [] ∧
    lengthAt? (trimStart p.text ++ rest) = some (trimStart p.text).length
  /-- A triple that is passed over starts with a point right behind an argument. -/
  passed : p.role ≠ .literal → p.role ≠ .coordinate → stack = [] →
    lengthAt? (trimStart p.text ++ rest) = none ∨
      p.text = ['.'] ∧ ∃ c ∈ front.getLast?, isArgument c = true

/-- The scopes that are open after a piece. -/
def openAfter (stack : List Scope) (p : Piece) : List Scope :=
  p.role.delimiter?.toList.foldl Delimiter.track stack

/-- The row is cut properly from `line`, which stands behind `front`. -/
inductive Cuts : List Char → List Scope → List Char → List Piece → Prop
  | nil {front : List Char} {stack : List Scope} {line : List Char} : Cuts front stack line []
  | cons {front : List Char} {stack : List Scope} {p : Piece} {rest : List Char} {row : List Piece}
      (hp : Proper front stack p rest)
      (hrow : Cuts (front ++ p.text) (openAfter stack p) rest row) :
    Cuts front stack (p.text ++ rest) (p :: row)

theorem isPlain_of_isBlank {c : Char} (h : isBlank c = true) : isPlain c = true := by
  have hbreak : isBreaking c = false := by
    simp [isBreaking, ne_of_isBlank h (d := ',') rfl, ne_of_isBlank h (d := ':') rfl,
      ne_of_isBlank h (d := '=') rfl, ne_of_isBlank h (d := '.') rfl]
  simp [isPlain, hbreak, ne_of_isBlank h (d := '"') rfl, Delimiter.ofChar?_of_isBlank h]

theorem isBlank_of_isBreaking {c : Char} (h : isBreaking c = true) : isBlank c = false := by
  rw [← Bool.not_eq_true]
  intro hb
  have := isPlain_of_isBlank hb
  simp [isPlain, h] at this

theorem mem_of_mem_trimEnd {s : List Char} {c : Char} (h : c ∈ trimEnd s) : c ∈ s := by
  rw [← trimEnd_append s]
  exact List.mem_append_left _ h

theorem trimStart_append_singleton {s : List Char} {c : Char} (hc : isBlank c = false) :
    trimStart (s ++ [c]) = trimStart s ++ [c] := by
  rw [trimStart, List.dropWhile_append]
  split
  · rename_i h
    rw [trimStart, List.isEmpty_iff.mp h, List.dropWhile_cons_of_neg (by simp [hc])]
    rfl
  · rfl

theorem trimStart_append_singleton_of_ne {s : List Char} (hs : trimStart s ≠ []) (c : Char) :
    trimStart (s ++ [c]) = trimStart s ++ [c] := by
  rw [trimStart, List.dropWhile_append, if_neg (by rwa [List.isEmpty_iff])]
  rfl

/-! ## Characters that stand alone -/

/-- The character is always a piece of its own, with this role. -/
inductive Single : Char → Role → Prop
  | breaking {c : Char} (hc : isBreaking c = true) : Single c .plain
  | delimiter (d : Delimiter) : Single d.char (.delimiter d)

namespace Single

variable {c : Char} {role : Role}

theorem isBlank (h : Single c role) : isBlank c = false := by
  cases h with
  | breaking hc => exact isBlank_of_isBreaking hc
  | delimiter d => exact d.isBlank_char

/-- But for the point, no such character starts a triple. -/
theorem startsTriple (h : Single c role) : Coordinates.startsTriple c = false ∨ c = '.' := by
  cases h with
  | breaking hc =>
    simp only [isBreaking, Bool.or_eq_true, beq_iff_eq] at hc
    rcases hc with ((rfl | rfl) | rfl) | rfl
    · exact Or.inl (by decide)
    · exact Or.inl (by decide)
    · exact Or.inl (by decide)
    · exact Or.inr rfl
  | delimiter d => exact Or.inl (by rcases d with (_ | _) | (_ | _) <;> decide)

/-- It is cut properly with blanks in front, unless a triple starts with it. -/
theorem proper (h : Single c role) {w front rest : List Char} {stack : List Scope}
    (hw : allBlank w = true)
    (hleft : stack = [] → lengthAt? (c :: rest) = none ∨
      w = [] ∧ ∃ d ∈ front.getLast?, isArgument d = true) :
    Proper front stack ⟨front.length, w ++ [c], role⟩ rest := by
  have htrim : trimStart (w ++ [c]) = [c] := by
    rw [trimStart_append_singleton h.isBlank, trimStart_eq_nil_iff.mpr hw, List.nil_append]
  refine ⟨rfl, fun hplain => ?_, fun _ _ b hb => ?_, fun hcoordinate => ?_, fun _ _ hstack => ?_⟩
  · cases h with
    | breaking hc => exact Or.inl ⟨w, c, hw, hc, rfl⟩
    | delimiter d => exact absurd hplain (by simp)
  · rw [trim, htrim] at hb
    rw [List.mem_singleton.mp (mem_of_mem_trimEnd hb), h.isBlank]
  · cases h <;> exact absurd hcoordinate (by simp)
  · rw [htrim]
    rcases hleft hstack with hnone | ⟨rfl, hfront⟩
    · exact Or.inl hnone
    · rcases h.startsTriple with hc | rfl
      · exact Or.inl (by simp [lengthAt?, hc])
      · exact Or.inr ⟨rfl, hfront⟩

end Single

namespace Cutting

variable {st : Cutting} {c : Char} {n : Nat} {front rest : List Char}

/-! ## What is held back -/

/-- What is held back, without the blanks in front. -/
def solid (st : Cutting) : List Char := trimStart st.pending.reverse

theorem solid_eq_nil_iff : st.solid = [] ↔ allBlank st.pending = true := by
  rw [solid, trimStart_eq_nil_iff, allBlank_reverse]

/-- Between two characters of a line, with `rest` still to read. -/
structure Ready (st : Cutting) (rest : List Char) : Prop where
  plain : st.quoting = .outside → st.ahead = 0 → ∀ c ∈ st.pending, isPlain c = true
  argument : st.quoting = .outside → st.ahead = 0 → st.stack = [] →
    ∀ c ∈ st.solid, isBlank c = false
  passed : st.quoting = .outside → st.ahead = 0 → st.stack = [] → st.solid ≠ [] →
    lengthAt? (st.solid ++ rest) = none
  triple : 0 < st.ahead → st.quoting = .outside ∧ st.stack = [] ∧
    lengthAt? (st.solid ++ rest) = some (st.solid.length + st.ahead)

/-- Blanks may always be held back. -/
theorem Ready.of_allBlank (hp : allBlank st.pending = true) (ha : st.ahead = 0)
    (rest : List Char) : st.Ready rest := by
  have hsolid := solid_eq_nil_iff.mpr hp
  refine ⟨fun _ _ c hc => ?_, fun _ _ _ c hc => ?_, fun _ _ _ hne => absurd hsolid hne,
    fun hpos => absurd hpos (by omega)⟩
  · exact isPlain_of_isBlank (List.all_eq_true.mp hp c hc)
  · rw [hsolid] at hc
    exact absurd hc List.not_mem_nil

theorem Ready.of_nil (hp : st.pending = []) (ha : st.ahead = 0) (rest : List Char) :
    st.Ready rest :=
  .of_allBlank (by rw [hp]; rfl) ha rest

theorem Ready.of_inside (hq : st.quoting.isInside = true) (ha : st.ahead = 0) (rest : List Char) :
    st.Ready rest := by
  have hnot : st.quoting ≠ .outside := by
    intro h
    rw [h] at hq
    exact Bool.false_ne_true hq
  exact ⟨fun h => absurd h hnot, fun h => absurd h hnot, fun h => absurd h hnot,
    fun h => absurd h (by omega)⟩

/-- What is held back is a triple up to here, and `n + 1` characters of it are left. -/
def InTriple (st : Cutting) (text : List Char) (n : Nat) : Prop :=
  st.quoting = .outside ∧ st.stack = [] ∧
    lengthAt? (st.solid ++ text) = some (st.solid.length + (n + 1))

/-- What is held back starts no triple. -/
def Passes (st : Cutting) (text : List Char) : Prop :=
  st.stack = [] → lengthAt? (st.solid ++ text) = none

theorem lengthAt?_ne_zero (s : List Char) : lengthAt? s ≠ some 0 := by
  intro h
  obtain ⟨-, htriple, -⟩ := Coordinates.lengthAt?_eq_some_iff.mp h
  obtain ⟨c, t, heq, -⟩ := htriple.head
  exact absurd heq (by simp)

/-- **What a step is**: inside a triple, inside a literal, or outside both, where no triple starts. -/
theorem Ready.read_cases (h : st.Ready (c :: rest)) :
    (∃ n, st.InTriple (c :: rest) n ∧ st.read c rest = st.readTriple c n) ∨
    (st.quoting.isInside = true ∧ st.ahead = 0 ∧ st.read c rest = st.readQuoted c) ∨
    (st.quoting = .outside ∧ st.ahead = 0 ∧ st.Passes (c :: rest) ∧
      st.read c rest = st.readPlain c) := by
  unfold Cutting.read
  split
  · rename_i n hn
    have htriple := h.triple (by omega)
    rw [hn] at htriple
    exact Or.inl ⟨n, htriple, rfl⟩
  · rename_i ha
    split
    · rename_i hin
      exact Or.inr (Or.inl ⟨hin, ha, rfl⟩)
    rename_i hin
    have hq : st.quoting = .outside := by
      cases hq : st.quoting with
      | outside => rfl
      | inside e => exact absurd (hq ▸ rfl) hin
    have hstart : st.atStart = true → st.stack = [] ∧ st.solid = [] := by
      intro hs
      rw [atStart, Bool.and_eq_true, List.isEmpty_iff] at hs
      exact ⟨hs.1, solid_eq_nil_iff.mpr hs.2⟩
    split
    · rename_i n hn
      split at hn
      · rename_i hs
        obtain ⟨hstack, hsolid⟩ := hstart hs
        refine Or.inl ⟨n, ⟨hq, hstack, ?_⟩, rfl⟩
        rw [hsolid, List.nil_append, hn, List.length_nil, Nat.zero_add]
      · exact absurd hn (by simp)
    · rename_i hnone
      refine Or.inr (Or.inr ⟨hq, ha, fun hstack => ?_, rfl⟩)
      by_cases hsolid : st.solid = []
      · have hs : st.atStart = true := by
          rw [atStart, hstack, solid_eq_nil_iff.mp hsolid]
          rfl
        rw [if_pos hs] at hnone
        rw [hsolid, List.nil_append]
        cases hl : lengthAt? (c :: rest) with
        | none => rfl
        | some n =>
          cases n with
          | zero => exact absurd hl (lengthAt?_ne_zero _)
          | succ n => exact absurd hl (hnone n)
      · exact h.passed hq ha hstack hsolid

/-! ## What a step cuts -/

/-- The state is ready for the rest of the line, and puts the pieces `ps` properly in front of
whatever is cut properly from there on. -/
def Steps (front : List Char) (st : Cutting) (text : List Char) (ps : List Piece) (st' : Cutting)
    (rest : List Char) : Prop :=
  st'.Ready rest ∧ ∃ front', st'.start = front'.length ∧
    ∀ row, Cuts front' st'.stack (st'.pending.reverse ++ rest) row →
      Cuts front st.stack (st.pending.reverse ++ text) (ps ++ row)

/-- Where a character is only held back. -/
theorem Steps.push {st' : Cutting} (hstart : st.start = front.length)
    (hp : st'.pending = c :: st.pending) (hstack : st'.stack = st.stack)
    (hst : st'.start = st.start) (hready : st'.Ready rest) :
    Steps front st (c :: rest) [] st' rest := by
  refine ⟨hready, front, hst.trans hstart, fun row hrow => ?_⟩
  rw [hp, hstack, List.reverse_cons, List.append_assoc] at hrow
  exact hrow

/-- Where what is held back is cut, with the character. -/
theorem Steps.cut {st' : Cutting} {role : Role} (hp : st'.pending = c :: st.pending)
    (hst : st'.start = front.length) (hstack : st'.stack = st.stack) (hready : st'.cut.Ready rest)
    (hdelimiter : role.delimiter? = none)
    (hproper : Proper front st.stack (st'.piece role) rest) :
    Steps front st (c :: rest) [st'.piece role] st'.cut rest := by
  have htext : (st'.piece role).text = st.pending.reverse ++ [c] := by
    rw [piece, hp, List.reverse_cons]
  refine ⟨hready, front ++ (st'.piece role).text, ?_, fun row hrow => ?_⟩
  · rw [List.length_append, ← hst]
    simp [Cutting.cut, piece]
  · have hopen : openAfter st.stack (st'.piece role) = st.stack := by
      rw [openAfter, show (st'.piece role).role = role from rfl, hdelimiter]
      rfl
    have hrow : Cuts (front ++ (st'.piece role).text) st.stack rest row := hstack ▸ hrow
    have := Cuts.cons hproper (hopen.symm ▸ hrow)
    rwa [htext, List.append_assoc] at this

theorem solid_push {st' : Cutting} (hp : st'.pending = c :: st.pending)
    (hc : st.solid = [] → isBlank c = false) : st'.solid = st.solid ++ [c] := by
  rw [solid, hp, List.reverse_cons]
  by_cases hsolid : st.solid = []
  · exact trimStart_append_singleton (hc hsolid)
  · exact trimStart_append_singleton_of_ne hsolid c

/-- What is held back ends with a character that is no blank in front, unless it is all blank. -/
theorem exists_getLast?_solid (h : st.solid ≠ []) :
    ∃ d, st.pending.reverse.getLast? = some d ∧ d ∈ st.solid := by
  have hsuffix : st.solid <:+ st.pending.reverse := List.dropWhile_suffix _
  obtain ⟨u, hu⟩ := hsuffix
  refine ⟨st.solid.getLast h, ?_, List.getLast_mem h⟩
  rw [← hu, List.getLast?_append, List.getLast?_eq_some_getLast h]
  rfl

/-- Inside a triple. -/
theorem InTriple.steps (h : st.InTriple (c :: rest) n) (hstart : st.start = front.length) :
    Steps front st (c :: rest) (st.readTriple c n).1 (st.readTriple c n).2 rest := by
  obtain ⟨hq, hstack, hl⟩ := h
  have hc : st.solid = [] → isBlank c = false := by
    intro hsolid
    rw [← Bool.not_eq_true]
    intro hc
    rw [hsolid, List.nil_append, Coordinates.lengthAt?_of_isBlank hc] at hl
    exact absurd hl (by simp)
  have hsolid : ({ st.push c with ahead := n } : Cutting).solid = st.solid ++ [c] :=
    solid_push rfl hc
  unfold readTriple
  dsimp only
  split
  · rename_i h0
    subst h0
    refine .cut rfl hstart rfl (.of_nil rfl rfl rest) rfl ⟨hstart, nofun, nofun, fun _ => ?_, ?_⟩
    · refine ⟨hstack, ?_⟩
      change lengthAt? (({ st.push c with ahead := 0 } : Cutting).solid ++ rest) =
        some ({ st.push c with ahead := 0 } : Cutting).solid.length
      rw [hsolid, List.append_assoc, List.length_append]
      exact hl
    · exact fun _ hrole => absurd rfl hrole
  · rename_i hn
    refine .push hstart rfl rfl rfl ⟨fun _ h0 => absurd h0 hn, fun _ h0 => absurd h0 hn,
      fun _ h0 => absurd h0 hn, fun _ => ⟨hq, hstack, ?_⟩⟩
    rw [hsolid, List.append_assoc, List.length_append, List.length_singleton, Nat.add_assoc,
      Nat.add_comm 1]
    exact hl

/-- Inside a literal. -/
theorem steps_readQuoted (ha : st.ahead = 0) (hstart : st.start = front.length) :
    Steps front st (c :: rest) (st.readQuoted c).1 (st.readQuoted c).2 rest := by
  unfold readQuoted
  dsimp only
  split
  · rename_i hin
    refine .push hstart rfl rfl rfl (.of_inside ?_ ?_ rest)
    · exact hin
    · exact ha
  · refine .cut rfl hstart rfl (.of_nil ?_ ?_ rest) rfl
      ⟨hstart, nofun, nofun, nofun, fun hrole => absurd rfl hrole⟩
    · rfl
    · exact ha

/-! ### Outside literals and triples -/

section Plain

variable (h : st.Ready (c :: rest)) (hq : st.quoting = .outside) (ha : st.ahead = 0)
  (hpass : st.Passes (c :: rest)) (hstart : st.start = front.length)
include h hq ha hpass hstart

/-- What is flushed is cut properly. If a triple starts with the next character nevertheless, an
argument ends right in front of it. -/
theorem Ready.flush : ∃ front', st.flush.2.start = front'.length ∧
    (∀ row, Cuts front' st.stack (st.flush.2.pending.reverse ++ c :: rest) row →
      Cuts front st.stack (st.pending.reverse ++ c :: rest) (st.flush.1 ++ row)) ∧
    (st.stack = [] → lengthAt? (c :: rest) = none ∨
      st.flush.2.pending = [] ∧ ∃ d ∈ front'.getLast?, isArgument d = true) := by
  unfold Cutting.flush
  split
  · rename_i hblank
    refine ⟨front, hstart, fun row hrow => hrow, fun hstack => Or.inl ?_⟩
    have := hpass hstack
    rwa [solid_eq_nil_iff.mpr hblank] at this
  · rename_i hblank
    have hsolid : st.solid ≠ [] := fun hnil => hblank (solid_eq_nil_iff.mp hnil)
    refine ⟨front ++ st.pending.reverse, ?_, fun row hrow => ?_, fun hstack => Or.inr ⟨rfl, ?_⟩⟩
    · simp [Cutting.cut, hstart]
    · refine .cons (p := st.piece .plain) ⟨hstart, fun _ => Or.inr ?_, fun _ hstack => ?_,
        fun hrole => ?_, fun _ _ hstack => Or.inl ?_⟩ hrow
      · exact fun d hd => h.plain hq ha d (List.mem_reverse.mp hd)
      · exact fun d hd => h.argument hq ha hstack d (mem_of_mem_trimEnd hd)
      · exact absurd hrole (by simp [piece])
      · exact h.passed hq ha hstack hsolid
    · obtain ⟨d, hd, hsolid⟩ := exists_getLast?_solid hsolid
      refine ⟨d, ?_, ?_⟩
      · rw [List.getLast?_append, hd]
        rfl
      · have hmem : d ∈ st.pending := List.mem_reverse.mp (List.mem_of_getLast? hd)
        rw [isArgument, h.plain hq ha d hmem, h.argument hq ha hstack d hsolid]
        rfl

/-- What is flushed is cut properly, and the character is held back. -/
theorem Ready.steps_flush {st' : Cutting} (hp : st'.pending = c :: st.flush.2.pending)
    (hst : st'.start = st.flush.2.start) (hstack : st'.stack = st.flush.2.stack)
    (hready : st'.Ready rest) : Steps front st (c :: rest) st.flush.1 st' rest := by
  obtain ⟨front', hfront, hcuts, -⟩ := h.flush hq ha hpass hstart
  refine ⟨hready, front', hst.trans hfront, fun row hrow => hcuts row ?_⟩
  rw [hp, hstack, stack_flush, List.reverse_cons, List.append_assoc] at hrow
  exact hrow

/-- A character that is a piece of its own is cut properly, with what is flushed in front of it. -/
theorem Ready.steps_single {role : Role} (hsingle : Single c role) {st' : Cutting}
    (hp : st'.pending = []) (hahead : st'.ahead = 0) (hst : st'.start = (st.single c role).2.start)
    (hstack : st'.stack = role.delimiter?.toList.foldl Delimiter.track st.stack) :
    Steps front st (c :: rest) (st.single c role).1 st' rest := by
  obtain ⟨front', hfront, hcuts, hleft⟩ := h.flush hq ha hpass hstart
  have hblank : allBlank st.flush.2.pending.reverse = true := by
    rw [allBlank_reverse, allBlank_pending_flush]
  have hcut : (st.single c role).1 =
      st.flush.1 ++ [⟨front'.length, st.flush.2.pending.reverse ++ [c], role⟩] := by
    rw [← hfront, ← List.reverse_cons]
    rfl
  have hproper := hsingle.proper hblank fun hstack =>
    (hleft hstack).imp id (And.imp List.reverse_eq_nil_iff.mpr id)
  refine ⟨.of_nil hp hahead rest, front' ++ (st.flush.2.pending.reverse ++ [c]), ?_,
    fun row hrow => ?_⟩
  · rw [hst, List.length_append, ← hfront]
    simp [Cutting.single, Cutting.cut, push]
  · rw [hp, hstack] at hrow
    have hcons := Cuts.cons hproper hrow
    rw [List.append_assoc] at hcons
    rw [hcut, List.append_assoc]
    exact hcuts _ hcons

/-- Outside literals and triples. -/
theorem Ready.steps_readPlain :
    Steps front st (c :: rest) (st.readPlain c).1 (st.readPlain c).2 rest := by
  have hahead : st.flush.2.ahead = 0 := (ahead_flush st).trans ha
  unfold readPlain
  split
  · rename_i hquote
    subst hquote
    refine h.steps_flush hq ha hpass hstart rfl rfl rfl (.of_inside ?_ ?_ rest)
    · change (st.flush.2.quoting.step '"').isInside = true
      rw [quoting_flush, hq]
      rfl
    · exact hahead
  rename_i hquote
  split
  · rename_i hb
    have hblank : allBlank (st.flush.2.push c).pending = true := by
      rw [push, allBlank, List.all_cons, (Bool.and_eq_true_iff.mp hb).2]
      exact allBlank_pending_flush st
    exact h.steps_flush hq ha hpass hstart rfl rfl rfl (.of_allBlank hblank hahead rest)
  rename_i hb
  split
  · rename_i hbreak
    exact h.steps_single hq ha hpass hstart (.breaking hbreak) rfl hahead rfl (stack_flush st)
  rename_i hbreak
  split
  · rename_i d hd
    obtain rfl := Delimiter.eq_char_of_ofChar? hd
    refine h.steps_single hq ha hpass hstart (.delimiter d) rfl hahead rfl ?_
    exact congrArg (Delimiter.track · d) (stack_flush st)
  · rename_i hnone
    have hplain : isPlain c = true := by simp [isPlain, hquote, hbreak, hnone]
    have hc : st.stack = [] → isBlank c = false := by
      intro hstack
      simpa [hstack] using hb
    have hsolid : st.stack = [] → (st.push c).solid = st.solid ++ [c] :=
      fun hstack => solid_push rfl fun _ => hc hstack
    refine .push hstart rfl rfl rfl ⟨fun _ _ => ?_, fun _ _ hstack => ?_, fun _ _ hstack _ => ?_,
      fun hpos => ?_⟩
    · exact List.forall_mem_cons.mpr ⟨hplain, h.plain hq ha⟩
    · rw [hsolid hstack, List.forall_mem_append]
      exact ⟨h.argument hq ha hstack, by simpa using hc hstack⟩
    · rw [hsolid hstack, List.append_assoc]
      exact hpass hstack
    · exact absurd (show 0 < st.ahead from hpos) (by omega)

end Plain

/-- **One step of cutting.** -/
theorem Ready.read (h : st.Ready (c :: rest)) (hstart : st.start = front.length) :
    Steps front st (c :: rest) (st.read c rest).1 (st.read c rest).2 rest := by
  obtain ⟨n, htriple, hread⟩ | ⟨-, ha, hread⟩ | ⟨hq, ha, hpass, hread⟩ := h.read_cases
  · rw [hread]
    exact htriple.steps hstart
  · rw [hread]
    exact steps_readQuoted ha hstart
  · rw [hread]
    exact h.steps_readPlain hq ha hpass hstart

/-- What is left at the end of a line is cut properly there. -/
theorem Ready.cuts_finish (h : st.Ready []) (hstart : st.start = front.length) :
    Cuts front st.stack (st.pending.reverse ++ []) st.finish := by
  have ha : st.ahead = 0 := by
    rcases Nat.eq_zero_or_pos st.ahead with ha | ha
    · exact ha
    · obtain ⟨-, -, hl⟩ := h.triple ha
      have := Coordinates.lengthAt?_le_length hl
      rw [List.append_nil] at this
      omega
  unfold finish
  split
  · exact .nil
  split
  · exact .cons (p := st.piece .literal)
      ⟨hstart, nofun, nofun, nofun, fun hrole => absurd rfl hrole⟩ .nil
  · rename_i hin
    have hq : st.quoting = .outside := by
      cases hq : st.quoting with
      | outside => rfl
      | inside e => exact absurd (hq ▸ rfl) hin
    refine .cons (p := st.piece .plain) ⟨hstart, fun _ => Or.inr fun d hd => ?_,
      fun _ hstack d hd => ?_, nofun, fun _ _ hstack => Or.inl ?_⟩ .nil
    · exact h.plain hq ha d (List.mem_reverse.mp hd)
    · exact h.argument hq ha hstack d (mem_of_mem_trimEnd hd)
    · change lengthAt? (st.solid ++ []) = none
      by_cases hsolid : st.solid = []
      · rw [hsolid]
        rfl
      · exact h.passed hq ha hstack hsolid

/-- **A line is cut properly**, from whatever is held back on. -/
theorem Ready.cuts_row {line : List Char} (h : st.Ready line) (hstart : st.start = front.length) :
    Cuts front st.stack (st.pending.reverse ++ line) (st.row line) := by
  induction line generalizing st front with
  | nil => exact h.cuts_finish hstart
  | cons c line ih =>
    obtain ⟨hready, front', hfront, hcuts⟩ := h.read hstart
    rw [row_cons]
    exact hcuts _ (ih hready hfront)

end Cutting

/-! ## A whole text -/

section

open Cutting

variable {st : Cutting} {front line : List Char} {stack : List Scope} {row : List Piece}

theorem Cutting.Inv.stack_readLine (h : st.Inv line) : (st.readLine line).2.stack =
    (delimiters (st.readLine line).1).foldl Delimiter.track st.stack := by
  induction line generalizing st with
  | nil => rfl
  | cons c line ih =>
    rw [readLine, delimiters_append, List.foldl_append, ih h.read.inv, h.stack_read,
      h.read.delimiters]

/-- The scopes that a line passes on are those that its pieces leave open. -/
theorem Cutting.Inv.stack_afterLine (h : st.Inv line) : (st.afterLine line).stack =
    (delimiters (st.row line)).foldl Delimiter.track st.stack := by
  rw [row, delimiters_append, delimiters_finish, List.append_nil, ← h.stack_readLine]
  rfl

/-- **Every row is cut properly**, with the scopes that the rows before it leave open. -/
theorem cuts_rows {ls : List (List Char)} (stack : List Scope) (q : Quoting) {i : Nat}
    (hline : ls[i]? = some line) (hrow : (rows (lineStart stack q) ls)[i]? = some row) :
    Cuts [] ((delimiters ((rows (lineStart stack q) ls).take i).flatten).foldl Delimiter.track stack)
      line row := by
  induction ls generalizing stack q i with
  | nil => exact absurd hline (by simp)
  | cons l ls ih =>
    cases i with
    | zero =>
      obtain rfl := Option.some.inj hline
      obtain rfl := Option.some.inj hrow
      exact (Ready.of_nil rfl rfl l : (lineStart stack q).Ready l).cuts_row rfl
    | succ i =>
      obtain ⟨stack', hnext⟩ := afterLine_lineStart stack q l
      have hstack := (inv_lineStart stack q l).stack_afterLine
      rw [hnext] at hstack
      rw [rows, hnext] at hrow ⊢
      rw [List.take_succ_cons, List.flatten_cons, delimiters_append, List.foldl_append,
        show (delimiters ((lineStart stack q).row l)).foldl Delimiter.track stack = stack' from
          hstack.symm]
      exact ih stack' _ hline hrow

theorem Cuts.proper (h : Cuts front stack line row) {j : Nat} {p : Piece} (hj : row[j]? = some p) :
    ∃ before behind, line = before ++ p.text ++ behind ∧
      Proper (front ++ before) ((delimiters (row.take j)).foldl Delimiter.track stack) p behind := by
  induction h generalizing j with
  | nil => exact absurd hj (by simp)
  | @cons front stack p' rest row hp _ ih =>
    cases j with
    | zero =>
      obtain rfl := Option.some.inj hj
      exact ⟨[], rest, rfl, by rwa [List.append_nil]⟩
    | succ j =>
      obtain ⟨before, behind, rfl, hproper⟩ := ih hj
      refine ⟨p'.text ++ before, behind, by simp only [List.append_assoc], ?_⟩
      rw [List.append_assoc] at hproper
      have hopen : (delimiters ((p' :: row).take (j + 1))).foldl Delimiter.track stack =
          (delimiters (row.take j)).foldl Delimiter.track (openAfter stack p') := by
        rw [List.take_succ_cons, ← List.singleton_append, delimiters_append, List.foldl_append,
          openAfter]
        cases hd : p'.role.delimiter? <;> simp [delimiters, hd]
      rwa [hopen]

/-- **Every piece of a text is cut properly**, with the scopes that the delimiters before it leave
open. -/
theorem exists_proper {s : List Char} {i j : Nat} {p : Piece} (hline : (lines s)[i]? = some line)
    (hrow : (ofText s)[i]? = some row) (hj : row[j]? = some p) :
    ∃ before behind, line = before ++ p.text ++ behind ∧
      Proper before ((delimiters (((ofText s).take i).flatten ++ row.take j)).foldl
        Delimiter.track []) p behind := by
  have hcuts : Cuts [] ((delimiters ((ofText s).take i).flatten).foldl Delimiter.track []) line
      row := by
    rw [ofText_eq_rows] at hrow ⊢
    exact cuts_rows [] .outside hline hrow
  rw [delimiters_append, List.foldl_append]
  exact hcuts.proper hj

end

end Piece

end CommandPad
