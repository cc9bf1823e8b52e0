import CommandPad.Proofs.Format.Opening

/-!
# From the one-line form to the expanded form and back

Expanding a command opens gaps, and bringing it back onto one line closes those that the policy does
not keep. `reopen` is the two together, on spacings.

A gap that opens and stays changes the command. It takes two neighbours without a space between
which a line ends or an `=` is spaced, and which the policy would let a space stand between: at top
level these are most brackets, braces, commas and equals signs. `Snug` says that a row has no such
neighbours.

Results:
* `items_and_gaps_kept`: both forms have the items of the text, and the expanded form has white
  space wherever the one-line form has a space.
* `inline_expand_eq_iff`: the way there and back leaves the one-line form alone exactly if it is
  snug.
* `inline_expand_inline_expand`: going twice is going once, snug or not, because what the first way
  opens is apart in the second, and opens nothing beside it.
-/

namespace CommandPad.Format

open Text Item

variable (p : Policy)

/-! ## White space that stays -/

/-- What stands before the first item of a spacing. -/
theorem exists_blanks_before {h : Placed} {hs : List Placed} :
    ∀ {xs : List Item} {apart : Bool}, spacing apart xs = h :: hs →
    ∃ ws post, xs = ws ++ h.item :: post ∧ (∀ w ∈ ws, w.isBlank = true) ∧
      (apart = false → h.apart = true → ws ≠ []) ∧ solids post = hs.map Placed.item
  | [], _, hx => by simp at hx
  | x :: xs, apart, hx => by
    by_cases hb : x.isBlank = true
    · rw [spacing_blank hb] at hx
      obtain ⟨ws, post, rfl, hws, -, hpost⟩ := exists_blanks_before hx
      refine ⟨x :: ws, post, rfl, fun w hw => ?_, fun _ _ => List.cons_ne_nil x ws, hpost⟩
      rcases List.mem_cons.mp hw with rfl | hw
      · exact hb
      · exact hws w hw
    · have hb := isBlank_eq_false hb
      rw [spacing_solid hb] at hx
      obtain ⟨rfl, rfl⟩ := List.cons.inj hx
      refine ⟨[], xs, rfl, by simp, fun ha hh => ?_, (map_item_spacing false xs).symm⟩
      exact absurd (ha.symm.trans hh) Bool.false_ne_true

/-- Where an item stands apart in the spacing of a row, the row has blanks. -/
theorem exists_blanks_between {g h : Placed} {hs : List Placed} (hh : h.apart = true) :
    ∀ {xs : List Item} {apart : Bool} {gs : List Placed}, spacing apart xs = gs ++ g :: h :: hs →
    ∃ pre ws post, xs = pre ++ g.item :: (ws ++ h.item :: post) ∧ ws ≠ [] ∧
      (∀ w ∈ ws, w.isBlank = true) ∧ solids pre = gs.map Placed.item ∧
      solids post = hs.map Placed.item
  | [], _, gs, hx => by
    rw [spacing_nil] at hx
    exact absurd hx.symm (by simp)
  | x :: xs, apart, gs, hx => by
    by_cases hb : x.isBlank = true
    · rw [spacing_blank hb] at hx
      obtain ⟨pre, ws, post, rfl, hne, hws, hpre, hpost⟩ := exists_blanks_between hh hx
      exact ⟨x :: pre, ws, post, rfl, hne, hws, (solids_blank hb pre).trans hpre, hpost⟩
    · have hb := isBlank_eq_false hb
      rw [spacing_solid hb] at hx
      cases gs with
      | nil =>
        obtain ⟨rfl, hrest⟩ := List.cons.inj hx
        obtain ⟨ws, post, rfl, hws, hne, hpost⟩ := exists_blanks_before hrest
        exact ⟨[], ws, post, rfl, hne rfl hh, hws, rfl, hpost⟩
      | cons g' gs =>
        obtain ⟨rfl, hrest⟩ := List.cons.inj hx
        obtain ⟨pre, ws, post, rfl, hne, hws, hpre, hpost⟩ := exists_blanks_between hh hrest
        refine ⟨x :: pre, ws, post, rfl, hne, hws, ?_, hpost⟩
        rw [solids_solid hb, hpre, List.map_cons]

/-- Behind a blank the gaps open as they would behind it alone. -/
theorem opened_append_blank {x : Item} (hx : x.isBlank = true) (ys : List Item) :
    ∀ (xs : List Item) (apart : Bool) (before : Option Char), ∃ gs,
      opened p apart before (xs ++ x :: ys) = gs ++ opened p true (some x.glyph) ys ∧
        gs.map Placed.item = solids xs
  | [], apart, before => ⟨[], by rw [List.nil_append, opened_blank p hx]; rfl, rfl⟩
  | z :: xs, apart, before => by
    by_cases hz : z.isBlank = true
    · obtain ⟨gs, hgs, hitems⟩ := opened_append_blank hx ys xs true (some z.glyph)
      refine ⟨gs, ?_, ?_⟩
      · rw [List.cons_append, opened_blank p hz, hgs]
      · rw [hitems, solids_blank hz]
    · have hz := isBlank_eq_false hz
      obtain ⟨gs, hgs, hitems⟩ := opened_append_blank hx ys xs
        (opensAfter p before z (xs ++ x :: ys)) (some z.glyph)
      refine ⟨⟨z, apart, hz⟩ :: gs, ?_, ?_⟩
      · rw [List.cons_append, opened_solid p hz, hgs, List.cons_append]
      · rw [List.map_cons, hitems, solids_solid hz]

/-- **Formatting touches white space only, and takes no gap away.** Both forms have the items of the
text, each literal whole and in its place, and where the one-line form has a space between two
items, the expanded form has white space between the same two. -/
theorem items_and_gaps_kept (s : List Char) :
    solids (ofText (inline p s)) = solids (ofText s) ∧
    solids (ofText (expand p s)) = solids (ofText s) ∧
    ∀ pre a b post, a.isBlank = false → b.isBlank = false →
      ofText (inline p s) = pre ++ a :: .char ' ' :: b :: post →
      ∃ pre' ws post', ofText (expand p s) = pre' ++ a :: (ws ++ b :: post') ∧ ws ≠ [] ∧
        (∀ w ∈ ws, w.isBlank = true) ∧ solids pre' = solids pre ∧ solids post' = solids post := by
  refine ⟨?_, ?_, ?_⟩
  · rw [ofText_inline, solids_inlineItems]
  · exact solids_ofText_expand p s
  · intro pre a b post ha hb hs
    have hitems : inlineItems p (ofText s) = (pre ++ [a]) ++ .char ' ' :: b :: post := by
      rw [← ofText_inline, hs, List.append_assoc, List.singleton_append]
    obtain ⟨gs, hgs, hmap⟩ :=
      opened_append_blank p (x := .char ' ') rfl (b :: post) (pre ++ [a]) true none
    rw [← hitems, opened_solid p hb] at hgs
    rw [solids_append, solids_solid ha, solids_nil] at hmap
    -- The item right before the space is the last one of `gs`.
    obtain ⟨gs', g, rfl⟩ : ∃ gs' g, gs = gs' ++ [g] := by
      rcases List.eq_nil_or_concat gs with rfl | ⟨gs', g, rfl⟩
      · exact absurd hmap.symm (by simp)
      · exact ⟨gs', g, List.concat_eq_append⟩
    rw [List.map_append, List.map_singleton] at hmap
    obtain ⟨hpre', hg⟩ := List.append_inj' hmap rfl
    obtain rfl : g.item = a := (List.cons.inj hg).1
    have hlayout : spacing true (ofText (expand p s)) = _ :=
      (ofText_expand p s ▸ spacing_layoutItems p (newline_notMem_inlineItems p _)).trans hgs
    rw [List.append_assoc, List.singleton_append] at hlayout
    obtain ⟨pre', ws, post', heq, hne, hws, hpre, hpost⟩ := exists_blanks_between rfl hlayout
    exact ⟨pre', ws, post', heq, hne, hws, hpre.trans hpre',
      hpost.trans (map_item_opened p _ _ post)⟩

/-! ## There and back -/

/-- Open the gaps of a settled spacing, and settle it again. -/
def reopen (p : Policy) (apart : Bool) (depth : Nat) (before : Option Char) (gs : List Placed) :
    List Placed :=
  settle p depth before (opened p apart before (write gs))

/-- The character right in front of an item, given the item before it. -/
def inFront (g : Placed) (before : Option Char) : Option Char :=
  if g.apart then some ' ' else before

theorem head?_write_cons (g : Placed) (gs : List Placed) :
    (write (g :: gs)).head? = some (if g.apart then .char ' ' else g.item) := by
  rw [write_cons]
  cases g.apart <;> rfl

theorem opened_write_cons (apart : Bool) (before : Option Char) (g : Placed) (gs : List Placed) :
    opened p apart before (write (g :: gs)) =
      { g with apart := apart || g.apart } ::
        opened p (opensAfter p (inFront g before) g.item (write gs)) (some g.glyph) (write gs) := by
  rw [write_cons, inFront]
  cases h : g.apart with
  | true =>
    rw [if_pos rfl, if_pos rfl, List.singleton_append, opened_blank p rfl, opened_solid p g.solid,
      Bool.or_true]
    rfl
  | false =>
    rw [if_neg Bool.false_ne_true, if_neg Bool.false_ne_true, List.nil_append,
      opened_solid p g.solid, Bool.or_false]
    rfl

@[simp] theorem reopen_nil (apart : Bool) (depth : Nat) (before : Option Char) :
    reopen p apart depth before [] = [] := rfl

theorem reopen_cons (apart : Bool) (depth : Nat) (before : Option Char) (g : Placed)
    (gs : List Placed) :
    reopen p apart depth before (g :: gs) =
      { g with apart := (apart || g.apart) && keepsGap p depth before g.glyph } ::
        reopen p (opensAfter p (inFront g before) g.item (write gs)) (depthAfter depth g.glyph)
          (some g.glyph) gs := by
  rw [reopen, opened_write_cons]
  rfl

/-- Bringing the expanded form back onto one line reopens the spacing of the one-line form. -/
theorem inlineItems_layoutItems (xs : List Item) :
    inlineItems p (layoutItems p (inlineItems p xs)) =
      write (reopen p true 0 none (settle p 0 none (spacing true xs))) := by
  rw [inlineItems_eq_write p true, spacing_layoutItems p (newline_notMem_inlineItems p xs),
    inlineItems_eq_write p true xs]
  rfl

theorem ofText_inline_expand (s : List Char) :
    ofText (inline p (expand p s)) =
      write (reopen p true 0 none (settle p 0 none (spacing true (ofText s)))) := by
  rw [ofText_inline, ofText_expand, inlineItems_layoutItems]

/-! ## When nothing stays open -/

/-- The depth after a row that starts at a depth. -/
def depthIn (depth : Nat) (xs : List Item) : Nat := xs.foldl (fun d x => depthAfter d x.glyph) depth

/-- Wherever the expanded form opens a gap between two neighbours, the policy drops a space there. A
row that starts the text has depth zero and nothing in front. -/
def Snug (p : Policy) (depth : Nat) (before : Option Char) (xs : List Item) : Prop :=
  ∀ pre a b post, xs = pre ++ a :: b :: post → a.isBlank = false → b.isBlank = false →
    opensGap p ((pre.getLast?.map glyph).or before) a.glyph b.glyph (post.head?.map glyph) = true →
    p.dropsGap (depthIn depth (pre ++ [a])) a.glyph b.glyph = true

/-- The last of a row, or what is in front of it. -/
theorem getLast?_glyph_cons (before : Option Char) (x : Item) (xs : List Item) :
    ((x :: xs).getLast?.map glyph).or before = (xs.getLast?.map glyph).or (some x.glyph) := by
  rw [List.getLast?_cons]
  cases xs.getLast? <;> rfl

theorem snug_cons (depth : Nat) (before : Option Char) (x : Item) (xs : List Item) :
    Snug p depth before (x :: xs) ↔
      (x.isBlank = false → ∀ y ∈ xs.head?, y.isBlank = false →
        opensAfter p before x xs = true →
        p.dropsGap (depthAfter depth x.glyph) x.glyph y.glyph = true) ∧
      Snug p (depthAfter depth x.glyph) (some x.glyph) xs := by
  constructor
  · intro h
    refine ⟨fun hx y hy hb ho => ?_, fun pre a b post heq ha hb ho => ?_⟩
    · cases xs with
      | nil => exact absurd hy (by simp)
      | cons z rest =>
        obtain rfl := Option.some.inj hy
        exact h [] x z rest rfl hx hb ho
    · refine h (x :: pre) a b post (congrArg (x :: ·) heq) ha hb ?_
      rw [getLast?_glyph_cons]
      exact ho
  · rintro ⟨hhead, htail⟩ pre a b post heq ha hb ho
    cases pre with
    | nil =>
      obtain ⟨rfl, rfl⟩ := List.cons.inj heq
      exact hhead ha b rfl hb ho
    | cons z pre =>
      obtain ⟨rfl, rfl⟩ := List.cons.inj heq
      rw [getLast?_glyph_cons] at ho
      exact htail pre a b post rfl ha hb ho

theorem isBlank_space : (Item.char ' ').isBlank = true := rfl

theorem snug_write_cons (depth : Nat) (before : Option Char) (g : Placed) (gs : List Placed) :
    Snug p depth before (write (g :: gs)) ↔
      (∀ y ∈ (write gs).head?, y.isBlank = false →
        opensAfter p (inFront g before) g.item (write gs) = true →
        p.dropsGap (depthAfter depth g.glyph) g.glyph y.glyph = true) ∧
      Snug p (depthAfter depth g.glyph) (some g.glyph) (write gs) := by
  rw [write_cons, inFront]
  cases g.apart with
  | true =>
    rw [if_pos rfl, if_pos rfl, List.singleton_append, snug_cons, snug_cons]
    refine ⟨fun h => ⟨h.2.1 g.solid, h.2.2⟩, fun h => ⟨fun hs => ?_, fun _ => h.1, h.2⟩⟩
    exact absurd (isBlank_space.symm.trans hs) (by decide)
  | false =>
    rw [if_neg Bool.false_ne_true, if_neg Bool.false_ne_true, List.nil_append, snug_cons]
    exact ⟨fun h => ⟨h.1 g.solid, h.2⟩, fun h => ⟨fun _ => h.1, h.2⟩⟩

theorem settled_cons {depth : Nat} {before : Option Char} {g : Placed} {gs : List Placed}
    (h : settle p depth before (g :: gs) = g :: gs) :
    (g.apart = true → keepsGap p depth before g.glyph = true) ∧
      settle p (depthAfter depth g.glyph) (some g.glyph) gs = gs := by
  obtain ⟨hg, hgs⟩ := List.cons.inj h
  refine ⟨fun ha => ?_, hgs⟩
  have := congrArg Placed.apart hg
  simp only [ha, Bool.true_and] at this
  exact this

/-- A mark that the policy keeps stays, and none is added, unless a gap opens where it keeps one. -/
theorem reopened_eq_self_iff {g : Placed} {apart keeps : Bool}
    (hkeep : g.apart = true → keeps = true) :
    ({ g with apart := (apart || g.apart) && keeps } = g) ↔
      (g.apart = false → keeps = true → apart = false) := by
  rcases g with ⟨x, a, hx⟩
  simp only [Placed.mk.injEq, true_and]
  revert hkeep
  cases a <;> cases keeps <;> cases apart <;> simp

/-- What stands first in a row decides about the gap in front of it, whether it is read off the row
or off its spacing. -/
theorem forall_head?_write_iff {gs : List Placed} {depth : Nat} {a : Char} {opens : Bool} :
    (∀ y ∈ (write gs).head?, y.isBlank = false → opens = true →
        p.dropsGap depth a y.glyph = true) ↔
      ∀ g ∈ gs.head?, g.apart = false → keepsGap p depth (some a) g.glyph = true →
        opens = false := by
  cases gs with
  | nil => simp
  | cons g gs =>
    rw [head?_write_cons]
    cases ha : g.apart with
    | true => simp [ha, isBlank_space]
    | false =>
      simp only [List.head?_cons, Option.mem_some_iff, forall_eq', ha, if_neg Bool.false_ne_true,
        g.solid, keepsGap, Option.any_some, forall_const]
      show (opens = true → p.dropsGap _ _ g.glyph = true) ↔
        ((!p.dropsGap _ _ g.glyph) = true → opens = false)
      cases p.dropsGap depth a g.glyph <;> cases opens <;> simp

/-- A settled spacing is reopened to itself if it is snug, and if no gap opens in front of it. -/
theorem reopen_eq_self_iff : ∀ (gs : List Placed) (apart : Bool) (depth : Nat)
    (before : Option Char), settle p depth before gs = gs →
    (reopen p apart depth before gs = gs ↔
      (∀ g ∈ gs.head?, g.apart = false → keepsGap p depth before g.glyph = true →
        apart = false) ∧
      Snug p depth before (write gs))
  | [], apart, depth, before, _ => by
    refine ⟨fun _ => ⟨fun g hg => absurd hg (by simp), fun pre a b post heq => ?_⟩, fun _ => rfl⟩
    exact absurd heq.symm (by simp)
  | g :: gs, apart, depth, before, hs => by
    obtain ⟨hkeep, hrest⟩ := settled_cons p hs
    have ih := reopen_eq_self_iff gs (opensAfter p (inFront g before) g.item (write gs))
      (depthAfter depth g.glyph) (some g.glyph) hrest
    have hfirst : ∀ P : Placed → Prop, (∀ g' ∈ (g :: gs).head?, P g') ↔ P g := by simp
    rw [reopen_cons, List.cons.injEq, ih, snug_write_cons, hfirst, reopened_eq_self_iff hkeep,
      forall_head?_write_iff]

/-- **The way to the expanded form and back leaves the one-line form alone exactly if it is snug.** -/
theorem inline_expand_eq_iff (s : List Char) :
    inline p (expand p s) = inline p s ↔ Snug p 0 none (ofText (inline p s)) := by
  rw [← ofText_inj, ofText_inline_expand, ofText_inline, inlineItems_eq_write p true]
  refine ⟨fun h => ?_, fun h => congrArg write ?_⟩
  · exact ((reopen_eq_self_iff p _ true 0 none (settle_settle p 0 none _)).mp
      (write_injective h)).2
  · refine (reopen_eq_self_iff p _ true 0 none (settle_settle p 0 none _)).mpr ⟨?_, h⟩
    intro g _ _ hk
    exact absurd hk Bool.false_ne_true

/-- A compound that is glued to the argument before it at top level comes back with a space. -/
theorem inline_expand_glued_compound :
    inline {} (expand {} "give @s stone{Count:1b}".toList) = "give @s stone {Count:1b}".toList ∧
      inline {} "give @s stone{Count:1b}".toList = "give @s stone{Count:1b}".toList := by
  decide +kernel

/-! ## Going twice -/

/-- A newline opens between the same neighbours when a space comes to stand behind them. -/
theorem breaks_of_space {a b : Char} (h : breaks a b (some ' ') ≠ 0) (n : Option Char) :
    breaks a b n ≠ 0 := by
  unfold breaks at h ⊢
  by_cases h₁ : a = '\'' ∧ isOpener b = true
  · rw [if_pos h₁] at h
    exact absurd rfl h
  · rw [if_neg h₁] at h ⊢
    by_cases h₂ : b = '\'' ∧ (n.map isOpener).getD false = true
    · rw [if_pos h₂]
      exact Nat.one_ne_zero
    · have h₃ : ¬ (b = '\'' ∧ ((some ' ').map isOpener).getD false = true) :=
        fun hb => absurd hb.2 (by decide)
      rw [if_neg h₃] at h
      rw [if_neg h₂]
      exact h

/-- Two equals signs side by side stay side by side. -/
theorem opensGap_equals (before after : Option Char) :
    opensGap p before '=' '=' after = false := by
  have h₁ : isBareEquals before (some '=') = false := by simp [isBareEquals]
  have h₂ : isBareEquals (some '=') after = false := by simp [isBareEquals, operatorPrefixes]
  have h₃ : breaks '=' '=' after = 0 := rfl
  simp [opensGap, isSpaced, h₁, h₂, h₃]

/-- A gap that opened in front of `b` makes no other operator of it. -/
theorem isSpaced_of_opensGap_before {before n : Option Char} {a b : Char}
    (ho : opensGap p before a b n = true) (h : isSpaced p (some ' ') b n = true) :
    isSpaced p (some a) b n = true := by
  have hb : b = '=' := by
    simp only [isSpaced, Bool.and_eq_true, beq_iff_eq] at h
    exact h.1.2
  subst hb
  simp only [opensGap, Bool.or_eq_true, bne_iff_ne] at ho
  rcases ho with (ho | ho) | ho
  · have ha := not_operatorPrefix_of_breaks ho
    rw [← h]
    exact isSpaced_congr p fun _ => by rw [Option.any_some, ha]; decide
  · simp [isSpaced, isBareEquals] at ho
  · exact ho

/-- A gap that opened behind `b` makes no other operator of it. -/
theorem isSpaced_of_opensGap_after {before n : Option Char} {b c : Char}
    (ho : opensGap p before b c n = true) (h : isSpaced p before b (some ' ') = true) :
    isSpaced p before b (some c) = true := by
  have hb : b = '=' := by
    simp only [isSpaced, Bool.and_eq_true, beq_iff_eq] at h
    exact h.1.2
  subst hb
  have hc : c ≠ '=' := by
    rintro rfl
    rw [opensGap_equals] at ho
    exact Bool.false_ne_true ho
  have hsame : isBareEquals before (some c) = isBareEquals before (some ' ') := by
    have h₁ : (some c != some '=') = true := by simpa using hc
    have h₂ : (some ' ' != some '=') = true := by decide
    simp only [isBareEquals, h₁, h₂]
  unfold isSpaced at h ⊢
  rw [hsame]
  exact h

/-- What opens beside gaps that opened would have opened without them. -/
theorem opensGap_of_widened {before before' n n' : Option Char} {a b : Char}
    (hbefore : isSpaced p before' a (some b) = true → isSpaced p before a (some b) = true)
    (hafter : n' = n ∨ n' = some ' ' ∧ ∃ c m, n = some c ∧ opensGap p (some a) b c m = true)
    (h : opensGap p before' a b n' = true) : opensGap p before a b n = true := by
  simp only [opensGap, Bool.or_eq_true, bne_iff_ne] at h ⊢
  rcases h with (h | h) | h
  · refine Or.inl (Or.inl ?_)
    rcases hafter with rfl | ⟨rfl, -⟩
    · exact h
    · exact breaks_of_space h n
  · exact Or.inl (Or.inr (hbefore h))
  · refine Or.inr ?_
    rcases hafter with rfl | ⟨rfl, c, m, rfl, ho⟩
    · exact h
    · exact isSpaced_of_opensGap_after p ho h

/-- The character that comes first when a spacing is written. -/
def nextGlyph (gs : List Placed) : Option Char := (write gs).head?.map glyph

theorem nextGlyph_cons (g : Placed) (gs : List Placed) :
    nextGlyph (g :: gs) = some (if g.apart then ' ' else g.glyph) := by
  rw [nextGlyph, head?_write_cons]
  cases g.apart <;> rfl

theorem opensAfter_write_cons {h : Placed} (hh : h.apart = false) (before : Option Char) (x : Item)
    (hs : List Placed) : opensAfter p before x (write (h :: hs)) =
      opensGap p before x.glyph h.glyph (nextGlyph hs) := by
  rw [write_cons, hh]
  rfl

theorem opensAfter_eq_true {before : Option Char} {x : Item} {g : Placed} {gs : List Placed}
    (ha : g.apart = false) (h : opensAfter p before x (write (g :: gs)) = true) :
    ∃ m, opensGap p before x.glyph g.glyph m = true :=
  ⟨nextGlyph gs, opensAfter_write_cons p ha before x gs ▸ h⟩

/-- Reopening changes what comes first only where a gap opens in front of it. -/
theorem nextGlyph_reopen {gs : List Placed} {depth : Nat} {before : Option Char}
    (hs : settle p depth before gs = gs) (apart : Bool) :
    nextGlyph (reopen p apart depth before gs) = nextGlyph gs ∨
      nextGlyph (reopen p apart depth before gs) = some ' ' ∧ apart = true ∧
        ∃ g rest, gs = g :: rest ∧ g.apart = false := by
  cases gs with
  | nil => exact Or.inl rfl
  | cons g rest =>
    obtain ⟨hkeep, -⟩ := settled_cons p hs
    rw [reopen_cons, nextGlyph_cons, nextGlyph_cons]
    cases ha : g.apart with
    | true =>
      left
      simp [hkeep ha]
    | false =>
      cases hopen : apart && keepsGap p depth before g.glyph with
      | true =>
        right
        simp only [Bool.and_eq_true] at hopen
        exact ⟨by simp [hopen.1, hopen.2], hopen.1, g, rest, rfl, ha⟩
      | false =>
        left
        rw [Bool.or_false, hopen]
        rfl

/-- Where no gap opens behind `x`, none opens there when what follows has been reopened. -/
theorem opensAfter_reopen {before before' : Option Char} {x : Item} {g : Placed} {gs : List Placed}
    {depth : Nat} (hs : settle p depth (some x.glyph) (g :: gs) = g :: gs) (ha : g.apart = false)
    (hbefore : isSpaced p before' x.glyph (nextGlyph (g :: gs)) = true →
      isSpaced p before x.glyph (nextGlyph (g :: gs)) = true)
    (hclosed : opensAfter p before x (write (g :: gs)) = false) :
    opensAfter p before' x (write (reopen p false depth (some x.glyph) (g :: gs))) = false := by
  have hnext : ∀ h : Placed, h.apart = false → ∀ hs, nextGlyph (h :: hs) = some h.glyph := by
    intro h hh hs
    rw [nextGlyph_cons, hh, if_neg Bool.false_ne_true]
  rw [hnext g ha] at hbefore
  rw [opensAfter_write_cons p ha] at hclosed
  rw [reopen_cons, ha, Bool.or_false, Bool.false_and, opensAfter_write_cons p rfl, Bool.eq_false_iff]
  intro ho
  refine Bool.false_ne_true (hclosed.symm.trans (opensGap_of_widened p hbefore ?_ ho))
  rcases nextGlyph_reopen p (settled_cons p hs).2 _ with hsame | ⟨hspace, hopens, h, rest, rfl, hh⟩
  · exact Or.inl hsame
  · obtain ⟨m, hm⟩ := opensAfter_eq_true p hh hopens
    rw [inFront, ha] at hm
    exact Or.inr ⟨hspace, h.glyph, m, hnext h hh rest, hm⟩

/-- **Reopening twice is reopening once.** `apart` and `apart'` say whether a gap opens in front of
the first item in the first and in the second pass. The second opens none that the first did not,
and the space of one that the first opened makes no operator of the item behind it. -/
theorem reopen_reopen : ∀ (gs : List Placed) (apart apart' : Bool) (depth : Nat)
    (before : Option Char), settle p depth before gs = gs →
    (∀ g ∈ gs.head?, g.apart = false → keepsGap p depth before g.glyph = true →
      apart = false → apart' = false) →
    (apart = true → ∀ g rest, gs = g :: rest → g.apart = false →
      isSpaced p (some ' ') g.glyph (nextGlyph rest) = true →
      isSpaced p before g.glyph (nextGlyph rest) = true) →
    reopen p apart' depth before (reopen p apart depth before gs) =
      reopen p apart depth before gs
  | [], _, _, _, _, _, _, _ => rfl
  | g :: gs, apart, apart', depth, before, hs, hpass, hfront => by
    obtain ⟨hkeep, hrest⟩ := settled_cons p hs
    obtain ⟨g', hg'⟩ : ∃ g' : Placed,
        { g with apart := (apart || g.apart) && keepsGap p depth before g.glyph } = g' := ⟨_, rfl⟩
    have hitem : g'.item = g.item := by rw [← hg']
    have hglyph : g'.glyph = g.glyph := by rw [← hg']; rfl
    have hapart : g'.apart = ((apart || g.apart) && keepsGap p depth before g.glyph) := by rw [← hg']
    have hhead : { g' with apart := (apart' || g'.apart) && keepsGap p depth before g'.glyph } =
        g' := by
      rw [reopened_eq_self_iff, hglyph, hapart]
      · intro ha hk
        rw [hk, Bool.and_true, Bool.or_eq_false_iff] at ha
        exact hpass g rfl ha.2 hk ha.1
      · rw [hglyph, hapart, Bool.and_eq_true]
        exact And.right
    -- In front of `g` the second pass finds what the first did, or the space the first put there.
    have hbefore : isSpaced p (inFront g' before) g.glyph (nextGlyph gs) = true →
        isSpaced p (inFront g before) g.glyph (nextGlyph gs) = true := by
      rw [inFront, inFront, hapart]
      cases ha : g.apart with
      | true => simp [hkeep ha]
      | false =>
        rw [if_neg Bool.false_ne_true, Bool.or_false]
        cases hopen : apart && keepsGap p depth before g.glyph with
        | true =>
          rw [Bool.and_eq_true] at hopen
          exact hfront hopen.1 g gs rfl ha
        | false => exact id
    rw [reopen_cons, hg', reopen_cons, hhead, hitem, hglyph]
    refine congrArg (g' :: ·) (reopen_reopen gs _ _ _ _ hrest ?_ ?_)
    · intro h hh ha _ hclosed
      obtain ⟨rest, rfl⟩ : ∃ rest, gs = h :: rest := List.head?_eq_some_iff.mp hh
      rw [hclosed]
      exact opensAfter_reopen p hrest ha hbefore hclosed
    · rintro ho h rest rfl ha hspaced
      rw [opensAfter_write_cons p ha] at ho
      exact isSpaced_of_opensGap_before p ho hspaced

/-- What was laid out and brought back twice is what was once. -/
theorem inlineItems_layoutItems_twice (xs : List Item) :
    inlineItems p (layoutItems p (inlineItems p (layoutItems p (inlineItems p xs)))) =
      inlineItems p (layoutItems p (inlineItems p xs)) := by
  let gs := settle p 0 none (spacing true xs)
  have hfirst : inlineItems p (layoutItems p (inlineItems p xs)) = write (reopen p true 0 none gs) :=
    inlineItems_layoutItems p xs
  have htwice : reopen p true 0 none (reopen p true 0 none gs) = reopen p true 0 none gs := by
    refine reopen_reopen p gs true true 0 none (settle_settle p 0 none _) ?_ ?_
    · intro g _ _ hk
      exact absurd hk Bool.false_ne_true
    · intro _ g rest _ _ h
      rw [← h]
      exact isSpaced_congr p fun _ => by decide
  rw [inlineItems_layoutItems, ← spacing_inlineItems p true, hfirst, spacing_write, htwice]

/-- **Going to the expanded form and back twice is going once.** Whatever the first way there and
back opens or keeps, the second finds and leaves. -/
theorem inline_expand_inline_expand (s : List Char) :
    inline p (expand p (inline p (expand p s))) = inline p (expand p s) := by
  rw [← ofText_inj, ofText_inline, ofText_expand, ofText_inline, ofText_expand,
    inlineItems_inlineItems, inlineItems_layoutItems_twice]

end CommandPad.Format
