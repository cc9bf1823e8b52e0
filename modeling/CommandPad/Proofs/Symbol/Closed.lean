import CommandPad.Proofs.Symbol.Block
import CommandPad.Proofs.Symbol.Cut

/-!
# Places where no scope is open

Whether a scope is open at a place is something that cutting follows while it goes along. The table
of a text does not hold it, but it can be read off there: no scope is open at a place exactly if
every opener before it has its closer before it (`ClosedBefore`). A pair that encloses the place is an
opener whose closer comes later, and an opener without a sibling encloses everything behind it.

Results:
* `Pairing.stack_run_eq_nil_iff`: the same for rows of delimiters, at the end of a first part.
* **`exists_proper_of_mem_symbols`**: a symbol is cut properly, and the scopes that are open there are
  none exactly if all is closed before it.
-/

namespace CommandPad

open Text

/-! ## Rows of delimiters -/

namespace Pairing

variable {ρ : Type} {p : Pairing ρ}

theorem mem_links_step {e : Delimiter × ρ} {l : ρ × ρ} (h : l ∈ (p.step e).links) :
    l ∈ p.links ∨ l.2 = e.2 := by
  obtain ⟨d, r⟩ := e
  cases d with
  | opens s => exact Or.inl h
  | closes s =>
    simp only [step] at h
    split at h
    · exact Or.inl h
    · split at h
      · rcases List.mem_cons.mp h with rfl | h
        · exact Or.inr rfl
        · exact Or.inl h
      · exact Or.inl h

theorem mem_links_step_of_mem (e : Delimiter × ρ) {l : ρ × ρ} (h : l ∈ p.links) :
    l ∈ (p.step e).links := by
  obtain ⟨d, r⟩ := e
  cases d with
  | opens s => exact h
  | closes s =>
    simp only [step]
    split
    · exact h
    · split
      · exact List.mem_cons_of_mem _ h
      · exact h

/-- A longer row has the links of the shorter one, and others only with their ends in the new part. -/
theorem mem_links_foldl_step (ds : List (Delimiter × ρ)) {l : ρ × ρ} :
    (l ∈ p.links → l ∈ (ds.foldl step p).links) ∧
      (l ∈ (ds.foldl step p).links → l ∈ p.links ∨ l.2 ∈ ds.map Prod.snd) := by
  induction ds generalizing p with
  | nil => exact ⟨id, Or.inl⟩
  | cons e ds ih =>
    refine ⟨fun h => ih.1 (mem_links_step_of_mem e h), fun h => ?_⟩
    rcases ih.2 h with h | h
    · rcases mem_links_step h with h | h
      · exact Or.inl h
      · exact Or.inr (List.mem_map.mpr ⟨e, List.mem_cons_self, h.symm⟩)
    · exact Or.inr (List.mem_cons_of_mem _ h)

/-- **No scope is open after the first part of a row exactly if every opener in it has its partner
there.** -/
theorem stack_run_eq_nil_iff (u v : List Delimiter) : (run u.zipIdx).stack = [] ↔
    ∀ i s, u[i]? = some (.opens s) →
      ∃ k, k < u.length ∧ (run (u ++ v).zipIdx).partner? i = some k := by
  have hfirst := inv_run u
  have hwhole := inv_run (u ++ v)
  have hrun : run (u ++ v).zipIdx = (v.zipIdx u.length).foldl step (run u.zipIdx) := by
    rw [run, List.zipIdx_append, List.foldl_append, Nat.zero_add]
    rfl
  constructor
  · intro hstack i s hi
    rcases hfirst.opener i s hi with hm | ⟨j, hj⟩
    · rw [hstack] at hm
      exact absurd hm List.not_mem_nil
    · refine ⟨j, hfirst.snd_lt hj, hwhole.partner?_eq_some_iff.mpr (Or.inl ?_)⟩
      rw [hrun]
      exact (mem_links_foldl_step _).1 hj
  · intro hall
    rw [List.eq_nil_iff_forall_not_mem]
    rintro ⟨s, o⟩ ho
    have hopener : u[o]? = some (.opens s) := hfirst.stack _ ho
    obtain ⟨k, hk, hpartner⟩ := hall o s hopener
    -- The partner is in the first part, so the two were linked there.
    have hold : ∀ l ∈ (run (u ++ v).zipIdx).links, l.2 < u.length → l ∈ (run u.zipIdx).links := by
      intro l hl hlt
      rw [hrun] at hl
      refine ((mem_links_foldl_step _).2 hl).resolve_right fun hmem => ?_
      obtain ⟨⟨d, m⟩, he, rfl⟩ := List.mem_map.mp hmem
      have := List.le_snd_of_mem_zipIdx he
      exact absurd hlt (Nat.not_lt.mpr this)
    rcases hwhole.partner?_eq_some_iff.mp hpartner with hl | hl
    · have hlt := (hwhole.link _ hl).1
      have hout := hfirst.outside _ ho _ (hold _ hl hk)
      simp only at hlt hout
      omega
    · have hlt := Inv.lt_of_getElem? hopener
      obtain ⟨-, t, -, hcloser⟩ := hfirst.link _ (hold _ hl hlt)
      rw [hopener] at hcloser
      exact absurd hcloser (by simp)

end Pairing

/-! ## Symbol tables -/

namespace SymbolTable

/-- Every opener before this place is matched by a closer that is before it, too. -/
def ClosedBefore (t : SymbolTable) (r : SymbolRef) : Prop :=
  ∀ a ∈ t.symbols, a.ref.Before r → ∀ s, a.IsEnd (.opens s) →
    ∃ b ∈ t.symbols, b.IsEnd (.closes s) ∧ a.sibling = some b.ref ∧ b.ref.Before r

/-! ### What stands before a place -/

section
variable {α β : Type}

/-- What stands before a place in rows. -/
def cellsBefore (rows : List (List α)) (r : SymbolRef) : List α :=
  (rows.take r.line).flatten ++ (rows[r.line]?.getD []).take r.index

theorem cellsBefore_map (f : α → β) (rows : List (List α)) (r : SymbolRef) :
    cellsBefore (rows.map (·.map f)) r = (cellsBefore rows r).map f := by
  unfold cellsBefore
  rw [List.map_append, List.map_flatten, List.map_take, List.getElem?_map, List.map_take]
  cases rows[r.line]? <;> rfl

theorem exists_flatten_eq {rows : List (List α)} {r : SymbolRef} {a : α}
    (h : cell? rows r = some a) : ∃ after, rows.flatten = cellsBefore rows r ++ a :: after := by
  unfold cell? at h
  cases hrow : rows[r.line]? with
  | none => simp [hrow] at h
  | some row =>
    rw [hrow, Option.getD_some] at h
    obtain ⟨hi, rfl⟩ := List.getElem?_eq_some_iff.mp hrow
    obtain ⟨hj, rfl⟩ := List.getElem?_eq_some_iff.mp h
    have hrow' : rows[r.line].take r.index ++
        rows[r.line][r.index] :: rows[r.line].drop (r.index + 1) = rows[r.line] := by
      rw [List.getElem_cons_drop, List.take_append_drop]
    refine ⟨rows[r.line].drop (r.index + 1) ++ (rows.drop (r.line + 1)).flatten, ?_⟩
    calc rows.flatten
        = (rows.take r.line ++ rows[r.line] :: rows.drop (r.line + 1)).flatten := by
          rw [List.getElem_cons_drop, List.take_append_drop]
      _ = (rows.take r.line).flatten ++ (rows[r.line].take r.index ++
            rows[r.line][r.index] :: rows[r.line].drop (r.index + 1) ++
              (rows.drop (r.line + 1)).flatten) := by
          rw [hrow', List.flatten_append, List.flatten_cons]
      _ = _ := by
          simp only [cellsBefore, hrow, Option.getD_some, List.append_assoc, List.cons_append]

end

section
variable {s : List Char} {k : Nat} {r : SymbolRef} {a b : Symbol} {p : Piece}

/-- The delimiters that are cut before a place. -/
def delimitersBefore (s : List Char) (r : SymbolRef) : List Delimiter :=
  Piece.delimiters (cellsBefore (Piece.ofText s) r)

/-- They are the first ones of the text, and numbered so. -/
theorem delimitersBefore_spec (h : cell? (Piece.ofText s) r = some p) :
    (∃ rest, Delimiter.ofText s = delimitersBefore s r ++ rest) ∧
      ∀ (k : Nat) (a : Symbol), (ofText s).scopes[k]? = some a →
        (a.ref.Before r ↔ k < (delimitersBefore s r).length) := by
  have hcell : cell? (placed s) r = some { toPiece := p, ref := r } := by
    rw [placed, cell?_place, h]
    rfl
  obtain ⟨after, hflatten⟩ := exists_flatten_eq hcell
  let entry (b : Symbol) : Option (Delimiter × SymbolRef) := b.role.delimiter?.map (·, b.ref)
  have hfst : ∀ bs : List Symbol,
      (bs.filterMap entry).map Prod.fst = Piece.delimiters (bs.map Symbol.toPiece) := by
    intro bs
    rw [Piece.delimiters, List.filterMap_map, List.map_filterMap]
    congr 1
    funext b
    simp only [entry, Function.comp_apply, Option.map_map]
    exact Option.map_id'
  have hbefore : ((cellsBefore (placed s) r).filterMap entry).map Prod.fst =
      delimitersBefore s r := by
    rw [hfst, ← cellsBefore_map, placed, map_toPiece_place, delimitersBefore]
  have hsplit : delimiters (placed s) = (cellsBefore (placed s) r).filterMap entry ++
      ({ toPiece := p, ref := r } :: after : List Symbol).filterMap entry := by
    rw [delimiters, hflatten, List.filterMap_append]
  have hlength := congrArg List.length hbefore
  rw [List.length_map] at hlength
  constructor
  · refine ⟨(({ toPiece := p, ref := r } :: after : List Symbol).filterMap entry).map Prod.fst, ?_⟩
    rw [← map_fst_delimiters, hsplit, List.map_append, hbefore]
  · intro k a hk
    obtain ⟨d, -, hk, -⟩ := getElem?_scopes hk
    have horder := pairwise_before_place (Piece.ofText s)
    rw [← placed, hflatten, List.map_append, List.map_cons, List.pairwise_append,
      List.pairwise_cons] at horder
    obtain ⟨-, ⟨hafter, -⟩, hcross⟩ := horder
    rw [hsplit, List.getElem?_append, hlength] at hk
    split at hk
    · rename_i hlt
      refine iff_of_true ?_ hlt
      obtain ⟨b, hb, he⟩ := List.mem_filterMap.mp (List.mem_of_getElem? hk)
      obtain ⟨_, -, heq⟩ := Option.map_eq_some_iff.mp he
      rw [← (Prod.mk.inj heq).2]
      exact hcross _ (List.mem_map_of_mem hb) r List.mem_cons_self
    · rename_i hge
      refine iff_of_false ?_ hge
      obtain ⟨b, hb, he⟩ := List.mem_filterMap.mp (List.mem_of_getElem? hk)
      obtain ⟨_, -, heq⟩ := Option.map_eq_some_iff.mp he
      rw [← (Prod.mk.inj heq).2]
      rcases List.mem_cons.mp hb with rfl | hb
      · exact SymbolRef.Before.irrefl r
      · exact (hafter _ (List.mem_map_of_mem hb)).asymm

/-- **All is closed before a place exactly if the delimiters before it leave no scope open.** -/
theorem closedBefore_iff (h : cell? (Piece.ofText s) r = some p) :
    (ofText s).ClosedBefore r ↔ (delimitersBefore s r).foldl Delimiter.track [] = [] := by
  obtain ⟨⟨rest, hword⟩, hbefore⟩ := delimitersBefore_spec h
  have hinv := inv_counted s
  have hstack : (delimitersBefore s r).foldl Delimiter.track [] = [] ↔
      ∀ i t, (delimitersBefore s r)[i]? = some (.opens t) →
        ∃ k, k < (delimitersBefore s r).length ∧ (counted s).partner? i = some k := by
    rw [counted, hword, ← Pairing.stack_run_eq_nil_iff, ← List.map_eq_nil_iff (f := Prod.fst),
      Pairing.run, Pairing.stack_foldl_step, List.zipIdx_map_fst]
    rfl
  have hget : ∀ {i : Nat} {d : Delimiter}, i < (delimitersBefore s r).length →
      ((Delimiter.ofText s)[i]? = some d ↔ (delimitersBefore s r)[i]? = some d) := by
    intro i d hi
    rw [hword, List.getElem?_append_left hi]
  rw [hstack]
  constructor
  · intro hclosed i t hi
    have hlt := Pairing.Inv.lt_of_getElem? hi
    have hi := (hget hlt).mpr hi
    obtain ⟨a, ha⟩ := exists_scopes_of_lt (Pairing.Inv.lt_of_getElem? hi)
    obtain ⟨b, -, -, hsibling, hb⟩ := hclosed a (mem_symbols_of_scopes ha)
      ((hbefore i a ha).mpr hlt) t ((isEnd_iff_of_scopes ha).mpr hi)
    rw [sibling_of_scopes ha] at hsibling
    obtain ⟨k, hk, href⟩ := Option.map_eq_some_iff.mp hsibling
    obtain ⟨c, hc⟩ := exists_scopes_of_lt (hinv.partner?_lt hk)
    refine ⟨k, (hbefore k c hc).mp ?_, hk⟩
    rwa [← refAt_of_scopes hc, href]
  · intro hpartner a ha href t hend
    obtain ⟨i, hi⟩ := exists_scopes (get?_ref ha) (isScope_of_isEnd hend)
    have hlt := (hbefore i a hi).mp href
    have hopener := (isEnd_iff_of_scopes hi).mp hend
    obtain ⟨k, hklt, hk⟩ := hpartner i t ((hget hlt).mp hopener)
    obtain ⟨b, hb⟩ := exists_scopes_of_lt (hinv.partner?_lt hk)
    refine ⟨b, mem_symbols_of_scopes hb, (isEnd_iff_of_scopes hb).mpr ?_, ?_,
      (hbefore k b hb).mpr hklt⟩
    · rcases hinv.partner?_eq_some_iff.mp hk with hl | hl
      · obtain ⟨-, t', ho, hc⟩ := hinv.link _ hl
        rw [hopener] at ho
        rw [hc, Delimiter.opens.inj (Option.some.inj ho)]
      · obtain ⟨-, t', -, hc⟩ := hinv.link _ hl
        rw [hopener] at hc
        exact absurd hc (by simp)
    · rw [sibling_of_scopes hi, hk, Option.map_some, refAt_of_scopes hb]

/-- **A symbol is cut properly from its line**, and the scopes that are open there are none exactly if
all is closed before it. -/
theorem exists_proper_of_mem_symbols (h : a ∈ (ofText s).symbols) :
    ∃ before behind stack, (Text.lines s)[a.ref.line]? = some (before ++ a.text ++ behind) ∧
      Piece.Proper before stack a.toPiece behind ∧
      ((ofText s).ClosedBefore a.ref ↔ stack = []) := by
  have hcell : cell? (Piece.ofText s) a.ref = some a.toPiece := by
    rw [← map_toPiece_lines, cell?_map]
    exact congrArg (Option.map Symbol.toPiece) (get?_ref h)
  have hclosed := closedBefore_iff hcell
  unfold cell? at hcell
  cases hrow : (Piece.ofText s)[a.ref.line]? with
  | none => simp [hrow] at hcell
  | some row =>
    rw [hrow, Option.getD_some] at hcell
    have hlt : a.ref.line < (Text.lines s).length := by
      have hlt := (List.getElem?_eq_some_iff.mp hrow).1
      rw [Piece.length_pieces] at hlt
      rwa [Text.lines, length_splitAt]
    have hline := List.getElem?_eq_getElem hlt
    obtain ⟨before, behind, heq, hproper⟩ := Piece.exists_proper hline hrow hcell
    refine ⟨before, behind, _, hline.trans (congrArg some heq), hproper, ?_⟩
    rw [hclosed, delimitersBefore, cellsBefore, hrow, Option.getD_some]

end

end SymbolTable

end CommandPad
