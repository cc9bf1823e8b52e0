import CommandPad.Symbol.Pairing

/-!
# What pairing finds

`Balanced` is the grammar of well-bracketed words over the two kinds of scope. Pairing finds no
fault in a row of delimiters exactly if they spell such a word.

On any other row pairing still gives a matching. `Pairing.Inv` says so of a row whose references
count its delimiters from zero: links lead from an opener to a later closer of its kind and do not
cross, what is open is not inside a link, and no opener and no closer is overlooked. Every delimiter
that is read keeps this (`Inv.step`), whatever it is.

Counting is no restriction: other references only rename what is found (`run_map`).

Results:
* **`clean_run_iff`**: no fault is found exactly if the word is well-bracketed.
* `inv_run`: the invariant holds of every row.
* `Inv.partner?_eq_some_iff`, `Inv.isFlawed_closer`, `Inv.unlinked_opener`: what pairing says of one
  delimiter.
* `partner?_map`, `isFlawed_map`: it says the same under other references.
-/

namespace CommandPad

/-! ## Well-bracketed words -/

/-- A well-bracketed word is empty, or a scope around a well-bracketed word, or two well-bracketed
words one after the other. -/
inductive Balanced : List Delimiter → Prop where
  | nil : Balanced []
  | nest (s : Scope) {ds : List Delimiter} (h : Balanced ds) :
    Balanced (.opens s :: (ds ++ [.closes s]))
  | append {ds es : List Delimiter} (hd : Balanced ds) (he : Balanced es) : Balanced (ds ++ es)

theorem Balanced.pair (s : Scope) : Balanced [.opens s, .closes s] := nest s nil

/-- An empty scope may stand anywhere. -/
theorem Balanced.insert_pair (s : Scope) {ds : List Delimiter} (h : Balanced ds) :
    ∀ u v, ds = u ++ v → Balanced (u ++ .opens s :: .closes s :: v) := by
  induction h with
  | nil =>
    intro u v heq
    obtain ⟨rfl, rfl⟩ := List.append_eq_nil_iff.mp heq.symm
    exact pair s
  | @nest t ds h ih =>
    intro u v heq
    have h₀ := nest t h
    cases u with
    | nil =>
      obtain rfl : .opens t :: (ds ++ [.closes t]) = v := heq
      have := append (pair s) h₀
      exact this
    | cons d u =>
      obtain ⟨rfl, hrest⟩ := List.cons.inj (heq.trans List.cons_append)
      rcases List.eq_nil_or_concat v with rfl | ⟨v, d, rfl⟩
      · rw [heq, List.append_nil] at h₀
        exact append h₀ (pair s)
      · rw [List.concat_eq_append, ← List.append_assoc] at hrest
        obtain ⟨hds, hd⟩ := List.append_inj' hrest rfl
        rw [List.concat_eq_append, ← hd]
        have := nest t (ih u v hds)
        rwa [List.append_assoc] at this
  | append hd he ihd ihe =>
    intro u v heq
    rcases List.append_eq_append_iff.mp heq with ⟨w, rfl, rfl⟩ | ⟨w, rfl, rfl⟩
    · rw [List.append_assoc]
      exact append hd (ihe w v rfl)
    · have := append (ihd u w rfl) he
      rwa [List.append_assoc] at this

namespace Pairing

variable {ρ σ : Type} {p : Pairing ρ}

/-- Nothing is flagged and nothing is left open. -/
def Clean (p : Pairing ρ) : Prop := p.flagged = [] ∧ p.stack = []

/-- A well-bracketed row leaves the open scopes and the flags as they were. -/
theorem foldl_step_of_balanced {word : List Delimiter} (h : Balanced word) :
    ∀ (ds : List (Delimiter × ρ)) (p : Pairing ρ), ds.map Prod.fst = word →
      (ds.foldl step p).stack = p.stack ∧ (ds.foldl step p).flagged = p.flagged := by
  induction h with
  | nil =>
    intro ds p hds
    rw [List.map_eq_nil_iff.mp hds]
    exact ⟨rfl, rfl⟩
  | nest s h ih =>
    intro ds p hds
    obtain ⟨⟨_, o⟩, rest, rfl, rfl, hrest⟩ := List.map_eq_cons_iff.mp hds
    obtain ⟨inner, last, rfl, hinner, hlast⟩ := List.map_eq_append_iff.mp hrest
    obtain ⟨⟨_, c⟩, rfl, rfl⟩ := List.map_eq_singleton_iff.mp hlast
    obtain ⟨hstack, hflagged⟩ := ih inner (p.step (.opens s, o)) hinner
    have hstack : (inner.foldl step (p.step (.opens s, o))).stack = (s, o) :: p.stack := hstack
    rw [List.foldl_cons, List.foldl_append, List.foldl_cons, List.foldl_nil]
    simp only [step.eq_2, hstack, if_true]
    exact ⟨trivial, hflagged⟩
  | append hd he ihd ihe =>
    intro ds p hds
    obtain ⟨front, back, rfl, hfront, hback⟩ := List.map_eq_append_iff.mp hds
    obtain ⟨hs, hf⟩ := ihd front p hfront
    obtain ⟨hs', hf'⟩ := ihe back (front.foldl step p) hback
    rw [List.foldl_append]
    exact ⟨hs'.trans hs, hf'.trans hf⟩

/-- A row without faults, with the openers of the open scopes in front of it, is well-bracketed. -/
theorem balanced_of_clean : ∀ (ds : List (Delimiter × ρ)) (p : Pairing ρ),
    (ds.foldl step p).Clean →
    p.flagged = [] ∧ Balanced ((p.stack.map Prod.fst).reverse.map .opens ++ ds.map Prod.fst)
  | [], p, h => by
    obtain ⟨hflagged, hstack⟩ := h
    refine ⟨hflagged, ?_⟩
    rw [show p.stack = [] from hstack]
    exact .nil
  | (.opens s, r) :: ds, p, h => by
    obtain ⟨hflagged, hrest⟩ := balanced_of_clean ds _ h
    refine ⟨hflagged, ?_⟩
    simpa [step] using hrest
  | (.closes s, r) :: ds, p, h => by
    obtain ⟨hflagged, hrest⟩ := balanced_of_clean ds _ h
    simp only [step] at hflagged hrest
    split at hflagged
    · exact absurd hflagged (by simp)
    · rename_i t o stack hstack
      split at hflagged
      · rename_i hts
        refine ⟨hflagged, ?_⟩
        simp only [hstack, hts, if_true] at hrest
        simpa [hstack, hts] using hrest.insert_pair s _ _ rfl
      · exact absurd hflagged (by simp)

/-- **Pairing finds no fault exactly if the word is well-bracketed.** -/
theorem clean_run_iff (ds : List (Delimiter × ρ)) :
    (run ds).Clean ↔ Balanced (ds.map Prod.fst) := by
  constructor
  · intro h
    exact (balanced_of_clean ds {} h).2
  · intro h
    obtain ⟨hstack, hflagged⟩ := foldl_step_of_balanced h ds {} rfl
    exact ⟨hflagged, hstack⟩

/-! ## Other references -/

/-- Put other references in place. -/
def map (f : ρ → σ) (p : Pairing ρ) : Pairing σ where
  stack := p.stack.map (Prod.map id f)
  links := p.links.map (Prod.map f f)
  flagged := p.flagged.map f

theorem step_map (f : ρ → σ) (p : Pairing ρ) (d : Delimiter) (r : ρ) :
    (p.map f).step (d, f r) = (p.step (d, r)).map f := by
  rcases p with ⟨stack, links, flagged⟩
  cases d with
  | opens s => rfl
  | closes s =>
    cases stack with
    | nil => rfl
    | cons e stack =>
      obtain ⟨t, o⟩ := e
      simp only [step, map, List.map_cons, Prod.map_apply, id_eq]
      split <;> rfl

/-- **Other references rename what is found.** -/
theorem run_map (f : ρ → σ) (ds : List (Delimiter × ρ)) :
    run (ds.map (Prod.map id f)) = (run ds).map f := by
  have h : ∀ p : Pairing ρ,
      (ds.map (Prod.map id f)).foldl step (p.map f) = (ds.foldl step p).map f := by
    induction ds with
    | nil => exact fun _ => rfl
    | cons e ds ih =>
      intro p
      rw [List.map_cons, List.foldl_cons, List.foldl_cons, ← ih]
      exact congrArg (List.foldl step · _) (step_map f p e.1 e.2)
  exact h {}

section
variable [DecidableEq ρ] [DecidableEq σ] {f : ρ → σ} {r : ρ}

theorem isFlawed_map (hflagged : ∀ r' ∈ p.flagged, f r' = f r → r' = r)
    (hstack : ∀ e ∈ p.stack, f e.2 = f r → e.2 = r) :
    (p.map f).isFlawed (f r) = p.isFlawed r := by
  rw [Bool.eq_iff_iff]
  simp only [isFlawed, map, Bool.or_eq_true, List.contains_iff_mem, List.mem_map, List.any_map,
    List.any_eq_true, Function.comp_apply, Prod.map_snd, beq_iff_eq]
  constructor
  · rintro (⟨r', hr', he⟩ | ⟨e, he, heq⟩)
    · exact Or.inl (hflagged r' hr' he ▸ hr')
    · exact Or.inr ⟨e, he, hstack e he heq⟩
  · rintro (hr | ⟨e, he, rfl⟩)
    · exact Or.inl ⟨r, hr, rfl⟩
    · exact Or.inr ⟨e, he, rfl⟩

theorem partner?_map
    (hlinks : ∀ l ∈ p.links, (f l.1 = f r → l.1 = r) ∧ (f l.2 = f r → l.2 = r)) :
    (p.map f).partner? (f r) = (p.partner? r).map f := by
  rcases p with ⟨stack, links, flagged⟩
  simp only [partner?, map] at hlinks ⊢
  induction links with
  | nil => rfl
  | cons l links ih =>
    obtain ⟨⟨ho, hc⟩, hrest⟩ := List.forall_mem_cons.mp hlinks
    have ho : f l.1 = f r ↔ l.1 = r := ⟨ho, congrArg f⟩
    have hc : f l.2 = f r ↔ l.2 = r := ⟨hc, congrArg f⟩
    rw [List.map_cons, List.findSome?_cons, List.findSome?_cons, ih hrest]
    simp only [Prod.map_fst, Prod.map_snd, ho, hc]
    by_cases h₁ : l.1 = r
    · rw [if_pos h₁, if_pos h₁]
      rfl
    · rw [if_neg h₁, if_neg h₁]
      by_cases h₂ : l.2 = r
      · rw [if_pos h₂, if_pos h₂]
        rfl
      · rw [if_neg h₂, if_neg h₂]

end

/-! ## The invariant -/

/-- Two links are side by side, or one is inside the other. -/
def Apart (l m : Nat × Nat) : Prop :=
  l.2 < m.1 ∨ m.2 < l.1 ∨ (l.1 < m.1 ∧ m.2 < l.2) ∨ (m.1 < l.1 ∧ l.2 < m.2)

/-- What pairing knows of a row of delimiters whose references are their places in it. -/
structure Inv (word : List Delimiter) (p : Pairing Nat) : Prop where
  /-- Inner scopes were opened later. -/
  sorted : p.stack.Pairwise fun e e' => e'.2 < e.2
  /-- An open scope is an opener. -/
  stack : ∀ e ∈ p.stack, word[e.2]? = some (.opens e.1)
  /-- A link leads from an opener to a later closer of its kind. -/
  link : ∀ l ∈ p.links, l.1 < l.2 ∧
    ∃ s, word[l.1]? = some (.opens s) ∧ word[l.2]? = some (.closes s)
  /-- Links do not cross, and share no end. -/
  nested : ∀ l ∈ p.links, ∀ m ∈ p.links, l = m ∨ Apart l m
  /-- No open scope starts inside a link. -/
  outside : ∀ e ∈ p.stack, ∀ l ∈ p.links, e.2 < l.1 ∨ l.2 < e.2
  /-- An opener is open, or the start of a link. -/
  opener : ∀ i s, word[i]? = some (.opens s) → (s, i) ∈ p.stack ∨ ∃ j, (i, j) ∈ p.links
  /-- A closer is flagged, or the end of a link, and not both. -/
  closer : ∀ j s, word[j]? = some (.closes s) → (j ∈ p.flagged ↔ ∀ i, (i, j) ∉ p.links)
  /-- What is flagged was read. -/
  flagged : ∀ r ∈ p.flagged, r < word.length

namespace Inv

variable {word : List Delimiter} {p : Pairing Nat}

theorem lt_of_getElem? {d : Delimiter} {i : Nat} (h : word[i]? = some d) : i < word.length :=
  (List.getElem?_eq_some_iff.mp h).1

theorem getElem?_concat {d e : Delimiter} {i : Nat} (h : word[i]? = some e) :
    (word ++ [d])[i]? = some e := by
  rw [List.getElem?_append_left (lt_of_getElem? h), h]

/-- The delimiter at a place of a longer row was there before, or is the new one. -/
theorem getElem?_of_concat {d e : Delimiter} {i : Nat} (h : (word ++ [d])[i]? = some e) :
    word[i]? = some e ∨ i = word.length ∧ d = e := by
  rcases Nat.lt_or_ge i word.length with hi | hi
  · rw [List.getElem?_append_left hi] at h
    exact Or.inl h
  · have hlt := lt_of_getElem? h
    rw [List.length_append, List.length_singleton] at hlt
    obtain rfl : i = word.length := by omega
    rw [List.getElem?_concat_length] at h
    exact Or.inr ⟨rfl, Option.some.inj h⟩

theorem snd_lt (h : Inv word p) {l : Nat × Nat} (hl : l ∈ p.links) : l.2 < word.length := by
  obtain ⟨-, s, -, hc⟩ := h.link l hl
  exact lt_of_getElem? hc

theorem nil : Inv [] {} where
  sorted := List.Pairwise.nil
  stack := by simp
  link := by simp
  nested := by simp
  outside := by simp
  opener := by simp
  closer := by simp
  flagged := by simp

/-- An opener is open. -/
theorem opens (h : Inv word p) (s : Scope) :
    Inv (word ++ [.opens s]) { p with stack := (s, word.length) :: p.stack } where
  sorted := List.pairwise_cons.mpr ⟨fun e he => lt_of_getElem? (h.stack e he), h.sorted⟩
  stack := by
    intro e he
    rcases List.mem_cons.mp he with rfl | he
    · exact List.getElem?_concat_length
    · exact getElem?_concat (h.stack e he)
  link := by
    intro l hl
    obtain ⟨hlt, t, ho, hc⟩ := h.link l hl
    exact ⟨hlt, t, getElem?_concat ho, getElem?_concat hc⟩
  nested := h.nested
  outside := by
    intro e he l hl
    rcases List.mem_cons.mp he with rfl | he
    · exact Or.inr (h.snd_lt hl)
    · exact h.outside e he l hl
  opener := by
    intro i t hi
    rcases getElem?_of_concat hi with hi | ⟨rfl, hd⟩
    · exact (h.opener i t hi).imp (List.mem_cons_of_mem _) id
    · obtain rfl := Delimiter.opens.inj hd
      exact Or.inl List.mem_cons_self
  closer := by
    intro j t hj
    rcases getElem?_of_concat hj with hj | ⟨-, hd⟩
    · exact h.closer j t hj
    · exact absurd hd (by simp)
  flagged := by
    intro r hr
    rw [List.length_append]
    exact Nat.lt_add_right 1 (h.flagged r hr)

/-- A closer that closes nothing is flagged, and openers may be flagged with it. -/
theorem stray (h : Inv word p) (s : Scope) (flags : List Nat)
    (hflags : ∀ r ∈ flags, ∃ t, word[r]? = some (.opens t)) :
    Inv (word ++ [.closes s]) { p with flagged := word.length :: flags ++ p.flagged } where
  sorted := h.sorted
  stack := fun e he => getElem?_concat (h.stack e he)
  link := by
    intro l hl
    obtain ⟨hlt, t, ho, hc⟩ := h.link l hl
    exact ⟨hlt, t, getElem?_concat ho, getElem?_concat hc⟩
  nested := h.nested
  outside := h.outside
  opener := by
    intro i t hi
    rcases getElem?_of_concat hi with hi | ⟨-, hd⟩
    · exact h.opener i t hi
    · exact absurd hd (by simp)
  closer := by
    intro j t hj
    rcases getElem?_of_concat hj with hj | ⟨rfl, -⟩
    · rw [← h.closer j t hj]
      have hne : j ≠ word.length := Nat.ne_of_lt (lt_of_getElem? hj)
      have hnot : j ∉ flags := by
        intro hm
        obtain ⟨t', ht'⟩ := hflags j hm
        rw [hj] at ht'
        exact absurd ht' (by simp)
      simp [hne, hnot]
    · refine iff_of_true (by simp) fun i hl => ?_
      exact absurd (h.snd_lt hl) (Nat.lt_irrefl _)
  flagged := by
    intro r hr
    rw [List.length_append, List.length_singleton]
    rcases List.mem_append.mp hr with hr | hr
    · rcases List.mem_cons.mp hr with rfl | hr
      · omega
      · obtain ⟨t, ht⟩ := hflags r hr
        have := lt_of_getElem? ht
        omega
    · have := h.flagged r hr
      omega

/-- A closer of the kind of the innermost open scope is linked to its opener. -/
theorem close (h : Inv word p) {s : Scope} {o : Nat} {stack : List (Scope × Nat)}
    (hs : p.stack = (s, o) :: stack) :
    Inv (word ++ [.closes s]) { p with stack, links := (o, word.length) :: p.links } := by
  have htop : (s, o) ∈ p.stack := hs ▸ List.mem_cons_self
  have hrest : ∀ e ∈ stack, e ∈ p.stack := fun e he => hs ▸ List.mem_cons_of_mem _ he
  have hsorted := h.sorted
  rw [hs, List.pairwise_cons] at hsorted
  have ho := h.stack _ htop
  have hapart : ∀ l ∈ p.links, Apart (o, word.length) l := by
    intro l hl
    have hlt := h.snd_lt hl
    unfold Apart
    rcases h.outside _ htop l hl with hout | hout <;> simp only at hout ⊢ <;> omega
  constructor
  · exact hsorted.2
  · exact fun e he => getElem?_concat (h.stack e (hrest e he))
  · intro l hl
    rcases List.mem_cons.mp hl with rfl | hl
    · exact ⟨lt_of_getElem? ho, s, getElem?_concat ho, List.getElem?_concat_length⟩
    · obtain ⟨hlt, t, ho, hc⟩ := h.link l hl
      exact ⟨hlt, t, getElem?_concat ho, getElem?_concat hc⟩
  · intro l hl m hm
    rcases List.mem_cons.mp hl with rfl | hl <;> rcases List.mem_cons.mp hm with rfl | hm
    · exact Or.inl rfl
    · exact Or.inr (hapart m hm)
    · have := hapart l hl
      unfold Apart at this ⊢
      exact Or.inr (by omega)
    · exact h.nested l hl m hm
  · intro e he l hl
    rcases List.mem_cons.mp hl with rfl | hl
    · exact Or.inl (hsorted.1 e he)
    · exact h.outside e (hrest e he) l hl
  · intro i t hi
    rcases getElem?_of_concat hi with hi | ⟨-, hd⟩
    · rcases h.opener i t hi with hm | ⟨j, hj⟩
      · rw [hs] at hm
        rcases List.mem_cons.mp hm with heq | hm
        · obtain ⟨-, rfl⟩ := Prod.mk.inj heq
          exact Or.inr ⟨_, List.mem_cons_self⟩
        · exact Or.inl hm
      · exact Or.inr ⟨j, List.mem_cons_of_mem _ hj⟩
    · exact absurd hd (by simp)
  · intro j t hj
    rcases getElem?_of_concat hj with hj | ⟨rfl, -⟩
    · have hne : j ≠ word.length := Nat.ne_of_lt (lt_of_getElem? hj)
      rw [h.closer j t hj]
      simp [hne]
    · refine iff_of_false (fun hm => Nat.lt_irrefl _ (h.flagged _ hm)) fun hnone => ?_
      exact hnone o List.mem_cons_self
  · intro r hr
    rw [List.length_append]
    exact Nat.lt_add_right 1 (h.flagged r hr)

/-- **Every delimiter that is read keeps the invariant.** -/
theorem step (h : Inv word p) (d : Delimiter) : Inv (word ++ [d]) (p.step (d, word.length)) := by
  cases d with
  | opens s => exact h.opens s
  | closes s =>
    simp only [Pairing.step]
    split
    · exact h.stray s [] (by simp)
    · rename_i t o stack hs
      split
      · rename_i hts
        subst hts
        exact h.close hs
      · have ho := h.stack (t, o) (hs ▸ List.mem_cons_self)
        exact h.stray s [o] (by simpa using ⟨t, ho⟩)

theorem foldl_step (h : Inv word p) (ds : List Delimiter) :
    Inv (word ++ ds) ((ds.zipIdx word.length).foldl Pairing.step p) := by
  induction ds generalizing word p with
  | nil => rwa [List.append_nil]
  | cons d ds ih =>
    have := ih (h.step d)
    rwa [List.append_assoc, List.singleton_append, List.length_append,
      List.length_singleton] at this

end Inv

/-- **The invariant holds of every row.** -/
theorem inv_run (word : List Delimiter) : Inv word (run word.zipIdx) := Inv.nil.foldl_step word

/-! ## What pairing says of one delimiter -/

theorem mem_unclosed {r : ρ} : r ∈ p.unclosed ↔ ∃ s, (s, r) ∈ p.stack := by
  simp [unclosed]

namespace Inv

variable {word : List Delimiter} {p : Pairing Nat} {i j : Nat} {s : Scope}

/-- A link is found from both of its ends, and nothing else is. -/
theorem partner?_eq_some_iff (h : Inv word p) :
    p.partner? i = some j ↔ (i, j) ∈ p.links ∨ (j, i) ∈ p.links := by
  have hfound : ∀ {j}, p.partner? i = some j → (i, j) ∈ p.links ∨ (j, i) ∈ p.links := by
    intro j hj
    obtain ⟨⟨o, c⟩, hl, hlj⟩ := List.exists_of_findSome?_eq_some hj
    simp only at hlj
    split at hlj
    · rename_i ho
      obtain rfl := Option.some.inj hlj
      exact Or.inl (ho ▸ hl)
    · split at hlj
      · rename_i hc
        obtain rfl := Option.some.inj hlj
        exact Or.inr (hc ▸ hl)
      · exact absurd hlj (by simp)
  refine ⟨hfound, fun hl => ?_⟩
  obtain ⟨k, hk⟩ : ∃ k, p.partner? i = some k := by
    rw [← Option.isSome_iff_exists, partner?, List.findSome?_isSome_iff]
    rcases hl with hl | hl
    · exact ⟨_, hl, by simp⟩
    · refine ⟨_, hl, ?_⟩
      dsimp only
      split
      · rfl
      · rw [if_pos rfl]
        rfl
  -- Two links with a common end are the same.
  have hsame : ∀ l ∈ p.links, ∀ m ∈ p.links,
      l.1 = m.1 ∨ l.2 = m.2 ∨ l.1 = m.2 ∨ l.2 = m.1 → l = m := by
    intro l hl m hm hend
    have hl' := (h.link l hl).1
    have hm' := (h.link m hm).1
    refine (h.nested l hl m hm).resolve_right fun hap => ?_
    unfold Apart at hap
    omega
  rw [hk]
  rcases hfound hk with hk | hk <;> rcases hl with hl | hl
  · exact congrArg some (Prod.mk.inj (hsame _ hk _ hl (by simp))).2
  · obtain ⟨rfl, rfl⟩ := Prod.mk.inj (hsame _ hk _ hl (by simp))
    rfl
  · obtain ⟨rfl, rfl⟩ := Prod.mk.inj (hsame _ hk _ hl (by simp))
    rfl
  · exact congrArg some (Prod.mk.inj (hsame _ hk _ hl (by simp))).1

theorem partner?_symm (h : Inv word p) (hij : p.partner? i = some j) : p.partner? j = some i :=
  h.partner?_eq_some_iff.mpr (h.partner?_eq_some_iff.mp hij).symm

/-- Of two partners, the first one opens a scope and the second one closes it. -/
theorem link_of_partner? (h : Inv word p) (hij : p.partner? i = some j) (hlt : i < j) :
    (i, j) ∈ p.links := by
  refine (h.partner?_eq_some_iff.mp hij).resolve_right fun hl => ?_
  exact Nat.lt_asymm hlt (h.link _ hl).1

theorem partner?_lt (h : Inv word p) (hij : p.partner? i = some j) : j < word.length := by
  rcases h.partner?_eq_some_iff.mp hij with hl | hl
  · exact h.snd_lt hl
  · exact Nat.lt_trans (h.link _ hl).1 (h.snd_lt hl)

/-- Partners do not cross. -/
theorem not_crossing (h : Inv word p) {i' j' : Nat} (hij : p.partner? i = some j)
    (hij' : p.partner? i' = some j') : ¬ (i < i' ∧ i' < j ∧ j < j') := by
  rintro ⟨h₁, h₂, h₃⟩
  have hl := h.link_of_partner? hij (by omega)
  have hl' := h.link_of_partner? hij' (by omega)
  rcases h.nested _ hl _ hl' with heq | hap
  · have := (Prod.mk.inj heq).1
    omega
  · unfold Apart at hap
    omega

theorem partner?_eq_none_iff (h : Inv word p) :
    p.partner? i = none ↔ ∀ j, (i, j) ∉ p.links ∧ (j, i) ∉ p.links := by
  rw [Option.eq_none_iff_forall_ne_some]
  simp only [ne_eq, h.partner?_eq_some_iff, not_or]

/-- A closer is at fault exactly if it has no partner. -/
theorem isFlawed_closer (h : Inv word p) (hj : word[j]? = some (.closes s)) :
    p.isFlawed j = true ↔ p.partner? j = none := by
  have hstack : ∀ e ∈ p.stack, e.2 ≠ j := by
    rintro e he rfl
    have := h.stack e he
    rw [hj] at this
    exact absurd this (by simp)
  have hstart : ∀ i, (j, i) ∉ p.links := by
    intro i hl
    obtain ⟨-, t, ho, -⟩ := h.link _ hl
    rw [hj] at ho
    exact absurd ho (by simp)
  rw [h.partner?_eq_none_iff, isFlawed, Bool.or_eq_true, List.contains_iff_mem, h.closer j s hj,
    List.any_eq_true]
  constructor
  · rintro (hnone | ⟨e, he, heq⟩)
    · exact fun i => ⟨hstart i, hnone i⟩
    · exact absurd (beq_iff_eq.mp heq) (hstack e he)
  · exact fun hnone => Or.inl fun i => (hnone i).2

/-- An opener has no partner exactly if it is left open, and then it is at fault. -/
theorem unlinked_opener (h : Inv word p) (hi : word[i]? = some (.opens s)) :
    (p.partner? i = none ↔ i ∈ p.unclosed) ∧ (i ∈ p.unclosed → p.isFlawed i = true) := by
  refine ⟨?_, fun hopen => ?_⟩
  · rw [h.partner?_eq_none_iff, mem_unclosed]
    constructor
    · intro hnone
      rcases h.opener i s hi with hm | ⟨j, hj⟩
      · exact ⟨s, hm⟩
      · exact absurd hj (hnone j).1
    · rintro ⟨t, hm⟩ j
      refine ⟨fun hl => ?_, fun hl => ?_⟩
      · have := h.outside _ hm _ hl
        have := (h.link _ hl).1
        simp only at *
        omega
      · obtain ⟨-, t', -, hc⟩ := h.link _ hl
        rw [hi] at hc
        exact absurd hc (by simp)
  · obtain ⟨t, hm⟩ := mem_unclosed.mp hopen
    rw [isFlawed, Bool.or_eq_true, List.any_eq_true]
    exact Or.inr ⟨_, hm, by simp⟩

/-- No delimiter is at fault exactly if pairing finds no fault. -/
theorem clean_iff (h : Inv word p) :
    p.Clean ↔ ∀ i, i < word.length → p.isFlawed i = false := by
  constructor
  · rintro ⟨hflagged, hstack⟩ i -
    rw [isFlawed, hflagged, hstack]
    rfl
  · intro hall
    constructor
    · rw [List.eq_nil_iff_forall_not_mem]
      intro r hr
      have := hall r (h.flagged r hr)
      simp [isFlawed, hr] at this
    · rw [List.eq_nil_iff_forall_not_mem]
      intro e he
      have := hall e.2 (lt_of_getElem? (h.stack e he))
      rw [isFlawed, Bool.or_eq_false_iff, List.any_eq_false] at this
      exact this.2 e he (by simp)

end Inv

/-! ## Rows with references of their own

A row whose references are all different is a row that counts its delimiters, under other names. -/

section
variable [Inhabited ρ]

/-- The reference of the delimiter at a place in a row. -/
def refAt (ds : List (Delimiter × ρ)) (k : Nat) : ρ := (ds[k]?.map Prod.snd).getD default

theorem refAt_of_getElem? {ds : List (Delimiter × ρ)} {k : Nat} {e : Delimiter × ρ}
    (h : ds[k]? = some e) : refAt ds k = e.2 := by
  rw [refAt, h]
  rfl

theorem run_eq_map (ds : List (Delimiter × ρ)) :
    run ds = (run (ds.map Prod.fst).zipIdx).map (refAt ds) := by
  rw [← run_map]
  congr 1
  apply List.ext_getElem?
  intro k
  rw [List.getElem?_map, List.getElem?_zipIdx, List.getElem?_map]
  cases h : ds[k]? with
  | none => rfl
  | some e => simp [refAt_of_getElem? h]

theorem refAt_inj {ds : List (Delimiter × ρ)} (hn : (ds.map Prod.snd).Nodup) {j k : Nat}
    (hj : j < ds.length) (hk : k < ds.length) (h : refAt ds j = refAt ds k) : j = k := by
  rw [refAt_of_getElem? (List.getElem?_eq_getElem hj),
    refAt_of_getElem? (List.getElem?_eq_getElem hk)] at h
  have hj' : j < (ds.map Prod.snd).length := by rwa [List.length_map]
  have hk' : k < (ds.map Prod.snd).length := by rwa [List.length_map]
  have heq : (ds.map Prod.snd)[j] = (ds.map Prod.snd)[k] := by
    rwa [List.getElem_map, List.getElem_map]
  exact (List.getElem_inj hn).mp heq

variable {ds : List (Delimiter × ρ)} {k : Nat} {e : Delimiter × ρ}

theorem mem_unclosed_run (hn : (ds.map Prod.snd).Nodup) (hk : ds[k]? = some e) :
    e.2 ∈ (run ds).unclosed ↔ k ∈ (run (ds.map Prod.fst).zipIdx).unclosed := by
  have hinv := inv_run (ds.map Prod.fst)
  have hlt := (List.getElem?_eq_some_iff.mp hk).1
  rw [run_eq_map ds, ← refAt_of_getElem? hk]
  simp only [mem_unclosed, map, List.mem_map]
  constructor
  · rintro ⟨s, o, ho, heq⟩
    have heq : refAt ds o.2 = refAt ds k := congrArg Prod.snd heq
    obtain rfl := refAt_inj hn (by simpa using Inv.lt_of_getElem? (hinv.stack o ho)) hlt heq
    exact ⟨o.1, ho⟩
  · rintro ⟨s, hs⟩
    exact ⟨s, _, hs, rfl⟩

variable [DecidableEq ρ]

theorem isFlawed_run (hn : (ds.map Prod.snd).Nodup) (hk : ds[k]? = some e) :
    (run ds).isFlawed e.2 = (run (ds.map Prod.fst).zipIdx).isFlawed k := by
  have hinv := inv_run (ds.map Prod.fst)
  have hlt := (List.getElem?_eq_some_iff.mp hk).1
  rw [run_eq_map ds, ← refAt_of_getElem? hk]
  refine isFlawed_map (fun i hi => ?_) fun o ho => ?_
  · exact refAt_inj hn (by simpa using hinv.flagged i hi) hlt
  · exact refAt_inj hn (by simpa using Inv.lt_of_getElem? (hinv.stack o ho)) hlt

theorem partner?_run (hn : (ds.map Prod.snd).Nodup) (hk : ds[k]? = some e) :
    (run ds).partner? e.2 = ((run (ds.map Prod.fst).zipIdx).partner? k).map (refAt ds) := by
  have hinv := inv_run (ds.map Prod.fst)
  have hlt := (List.getElem?_eq_some_iff.mp hk).1
  rw [run_eq_map ds, ← refAt_of_getElem? hk]
  refine partner?_map fun l hl => ?_
  have hend : l.2 < ds.length := by simpa using hinv.snd_lt hl
  have hstart := (hinv.link l hl).1
  exact ⟨refAt_inj hn (by omega) hlt, refAt_inj hn hend hlt⟩

end

end Pairing

end CommandPad
