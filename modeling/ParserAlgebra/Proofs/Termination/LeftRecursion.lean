import Mathlib.Data.Finset.Card
import Mathlib.Data.Finset.Range
import Mathlib.Logic.Relation
import ParserAlgebra.Proofs.Termination.Strict
/-!
# Grammars without left recursion end

A cell occurs on the left of a parser if it may be run at the place where the
parser begins: no strict part of a sequence comes before it.  A grammar has left
recursion if a cell leads back to itself through left occurrences alone.  Then a
run may nest for ever without consuming anything.  Without left recursion every
run ends, and the nesting that it needs is bounded.

The measure of a cell with a text is the pair of the length of the text and the
rank of the cell, in this order.  The *rank* is the number of cells that can be
reached from it on the left.  Below a definition, a cell is run on a shorter
text, or it occurs on the left and has a smaller rank:

* `eval_ends`: the run of a parser on a text ends, if its cells end on all
  shorter texts, and those on the left on texts of the same length as well.
  Repetitions go on only after progress, so they add nothing to this.
* `enter_ends`: the pair as one number bounds the nesting, by induction on the
  limit.
* `run_terminates`: the statement about all runs of a grammar.
-/

namespace ParserAlgebra

variable {settings : Settings}

/-- A repetition ends if its steps end on all texts that are not longer. -/
theorem chain_ends {step : Text → Run Reply} {n : Nat}
    (h : ∀ t, t.length ≤ n → (step t).Ends) (bound : Nat) {input : Text}
    (hinput : input.length ≤ n) : (chain step bound input).Ends := by
  induction bound generalizing input with
  | zero =>
      exact Run.ends_bind (h input hinput) fun _ _ => Run.ends_pure _
  | succ bound ih =>
      refine Run.ends_bind (h input hinput) fun r _ => ?_
      split
      · split
        · next hlt =>
          have hrest := ih (Nat.le_trans (Nat.le_of_lt hlt) hinput)
          exact Run.ends_bind hrest fun _ _ => Run.ends_pure _
        · exact Run.ends_pure _
      · exact Run.ends_pure _

namespace Parser

variable {enter : Nat → Text → Run Reply}

/-- The cell occurs on the left: no strict part of a sequence comes before
it. -/
def Left : Parser → Nat → Prop
  | leaf _, _ => False
  | map p _, id => p.Left id
  | bind p f, id => p.Left id ∨ ¬ p.Strict ∧ ∃ v, (f v).Left id
  | orElse p q, id => p.Left id ∨ q.Left id
  | label _ p, id => p.Left id
  | ignore p, id => p.Left id
  | keepFirst p q, id => p.Left id ∨ ¬ p.Strict ∧ q.Left id
  | notFollowedBy p, id => p.Left id
  | append p q _, id => p.Left id ∨ ¬ p.Strict ∧ q.Left id
  | many p, id => p.Left id
  | lookAhead p, id => p.Left id
  | probe _ p, id => p.Left id
  | cell id', id => id' = id

theorem Left.refers {p : Parser} {id : Nat} (h : p.Left id) : p.Refers id := by
  induction p with
  | leaf l => exact h
  | map p f ih => exact ih h
  | bind p f ihp ihf =>
      rcases h with hp | ⟨-, v, hv⟩
      · exact Or.inl (ihp hp)
      · exact Or.inr ⟨v, ihf v hv⟩
  | orElse p q ihp ihq => exact h.imp ihp ihq
  | label text p ih => exact ih h
  | ignore p ih => exact ih h
  | keepFirst p q ihp ihq => exact h.imp ihp fun hq => ihq hq.2
  | notFollowedBy p ih => exact ih h
  | append p q concat ihp ihq => exact h.imp ihp fun hq => ihq hq.2
  | many p ih => exact ih h
  | lookAhead p ih => exact ih h
  | probe tag p ih => exact ih h
  | cell id' => exact h

theorem record_ends (r : Record) : (record settings r).Ends := by
  unfold record
  split
  · intro h
    cases h
  · exact Run.ends_pure _

/-- What the run of a parser on a text of length `n` asks of its cells. -/
structure CellsEnd (enter : Nat → Text → Run Reply) (p : Parser) (n : Nat) :
    Prop where
  suffix : ∀ id, p.Refers id → ∀ t, (enter id t).Yields (·.rest <:+ t)
  shorter : ∀ id, p.Refers id → ∀ t : Text, t.length < n → (enter id t).Ends
  left : ∀ id, p.Left id → ∀ t : Text, t.length ≤ n → (enter id t).Ends

/-- A part that begins where the whole begins. -/
theorem CellsEnd.part
    {p q : Parser} {n : Nat}
    (h : CellsEnd enter p n)
    (hrefers : ∀ id, q.Refers id → p.Refers id)
    (hleft : ∀ id, q.Left id → p.Left id) :
    CellsEnd enter q n where
  suffix id hid := h.suffix id (hrefers id hid)
  shorter id hid := h.shorter id (hrefers id hid)
  left id hid := h.left id (hleft id hid)

/-- A part that begins where another has succeeded: its cells are on the left
only if that part may have consumed nothing, and otherwise they are run on
shorter texts. -/
theorem CellsEnd.after
    {p first q : Parser} {n : Nat}
    (h : CellsEnd enter p n)
    (hrefers : ∀ id, q.Refers id → p.Refers id)
    (hleft : ¬ first.Strict → ∀ id, q.Left id → p.Left id)
    (hleaf : first.EachLeaf Leaf.WellBehaved)
    (hfirst : CellsEnd enter first n)
    {input : Text}
    (hinput : input.length ≤ n)
    {r : Reply}
    (hr : (first.eval settings enter input).outcome = .ok r)
    (hsucc : r.isSuccess) :
    CellsEnd enter q r.rest.length := by
  have hkeeps : first.EachLeaf Leaf.KeepsSuffix :=
    hleaf.mono fun _ hl => hl.keepsSuffix
  have hrest : r.rest <:+ input :=
    eval_yields_suffix hkeeps hfirst.suffix input r hr
  have hle := hrest.length_le
  refine ⟨fun id hid => h.suffix id (hrefers id hid), ?_, ?_⟩
  · intro id hid t ht
    exact h.shorter id (hrefers id hid) t (by omega)
  · intro id hid t ht
    by_cases hstrict : first.Strict
    · have hadv := eval_yields_advances hkeeps hfirst.suffix input r hr
      have hlt : r.rest.length < input.length := hadv hstrict hsucc
      exact h.shorter id (hrefers id hid.refers) t (by omega)
    · exact h.left id (hleft hstrict id hid) t (by omega)

/-- **A run ends if its cells do.**  The cells have to end on all texts
shorter than `n`, and those on the left on texts of length `n` too. -/
theorem eval_ends {p : Parser} (hleaf : p.EachLeaf Leaf.WellBehaved) {n : Nat}
    (hcells : CellsEnd enter p n) {input : Text} (hinput : input.length ≤ n) :
    (p.eval settings enter input).Ends := by
  induction p generalizing n input with
  | leaf l =>
      refine Run.ends_emit_bind ?_
      exact hleaf.run_ne_unfinished input
  | map p f ih =>
      have hp := ih hleaf (hcells.part (fun _ h => h) fun _ h => h) hinput
      exact Run.ends_emit_bind (Run.ends_bind hp fun r _ => Run.ends_ofExcept _)
  | bind p f ihp ihf =>
      have hcellsp : CellsEnd enter p n :=
        hcells.part (fun _ h => .inl h) fun _ h => .inl h
      have hp := ihp hleaf.1 hcellsp hinput
      refine Run.ends_emit_bind (Run.ends_bind hp fun r hr => ?_)
      have hf : ∀ v, r.isSuccess → ((f v).eval settings enter r.rest).Ends := by
        intro v hsucc
        have hcellsf : CellsEnd enter (f v) r.rest.length :=
          hcells.after (fun _ h => .inr ⟨v, h⟩)
            (fun hstrict _ h => .inr ⟨hstrict, v, h⟩)
            hleaf.1 hcellsp hinput hr hsucc
        exact ihf v (hleaf.2 v) hcellsf (Nat.le_refl _)
      cases r with
      | success v rest => exact hf v rfl
      | discarded rest => exact hf .nothing rfl
      | failure expected rest => exact Run.ends_pure _
  | orElse p q ihp ihq =>
      have hcellsp : CellsEnd enter p n :=
        hcells.part (fun _ h => .inl h) fun _ h => .inl h
      have hcellsq : CellsEnd enter q n :=
        hcells.part (fun _ h => .inr h) fun _ h => .inr h
      have hp := ihp hleaf.1 hcellsp hinput
      have hq := ihq hleaf.2 hcellsq hinput
      refine Run.ends_emit_bind (Run.ends_bind hp fun r _ => ?_)
      split
      · exact Run.ends_pure _
      · exact Run.ends_bind hq fun _ _ => Run.ends_pure _
  | label text p ih =>
      have hp := ih hleaf (hcells.part (fun _ h => h) fun _ h => h) hinput
      refine Run.ends_emit_bind (Run.ends_bind (record_ends _) fun _ _ => ?_)
      refine Run.ends_bind hp fun r _ => ?_
      cases r with
      | success v rest => exact Run.ends_pure _
      | discarded rest => exact Run.ends_pure _
      | failure expected rest =>
          exact Run.ends_bind (record_ends _) fun _ _ => Run.ends_pure _
  | ignore p ih =>
      have hp := ih hleaf (hcells.part (fun _ h => h) fun _ h => h) hinput
      exact Run.ends_emit_bind (Run.ends_bind hp fun _ _ => Run.ends_pure _)
  | keepFirst p q ihp ihq =>
      have hcellsp : CellsEnd enter p n :=
        hcells.part (fun _ h => .inl h) fun _ h => .inl h
      have hp := ihp hleaf.1 hcellsp hinput
      refine Run.ends_emit_bind (Run.ends_bind hp fun r hr => ?_)
      split
      · next hsucc =>
        have hcellsq : CellsEnd enter q r.rest.length :=
          hcells.after (fun _ h => .inr h)
            (fun hstrict _ h => .inr ⟨hstrict, h⟩)
            hleaf.1 hcellsp hinput hr hsucc
        have hq := ihq hleaf.2 hcellsq (Nat.le_refl _)
        exact Run.ends_bind hq fun _ _ => Run.ends_pure _
      · exact Run.ends_pure _
  | notFollowedBy p ih =>
      have hp := ih hleaf (hcells.part (fun _ h => h) fun _ h => h) hinput
      exact Run.ends_emit_bind (Run.ends_bind hp fun _ _ => Run.ends_pure _)
  | append p q concat ihp ihq =>
      have hcellsp : CellsEnd enter p n :=
        hcells.part (fun _ h => .inl h) fun _ h => .inl h
      have hp := ihp hleaf.1 hcellsp hinput
      refine Run.ends_emit_bind (Run.ends_bind hp fun r hr => ?_)
      split
      · next hsucc =>
        have hcellsq : CellsEnd enter q r.rest.length :=
          hcells.after (fun _ h => .inr h)
            (fun hstrict _ h => .inr ⟨hstrict, h⟩)
            hleaf.1 hcellsp hinput hr hsucc
        have hq := ihq hleaf.2 hcellsq (Nat.le_refl _)
        exact Run.ends_bind hq fun _ _ => Run.ends_ofExcept _
      · exact Run.ends_pure _
  | many p ih =>
      have hp : ∀ t : Text, t.length ≤ n → (p.eval settings enter t).Ends :=
        fun t ht => ih hleaf (hcells.part (fun _ h => h) fun _ h => h) ht
      have hchain := chain_ends hp input.length hinput
      exact Run.ends_emit_bind (Run.ends_bind hchain fun _ _ => Run.ends_pure _)
  | lookAhead p ih =>
      have hp := ih hleaf (hcells.part (fun _ h => h) fun _ h => h) hinput
      exact Run.ends_emit_bind (Run.ends_bind hp fun _ _ => Run.ends_pure _)
  | probe tag p ih =>
      have hp := ih hleaf (hcells.part (fun _ h => h) fun _ h => h) hinput
      exact Run.ends_emit_bind (Run.ends_emit_bind hp)
  | cell id =>
      exact Run.ends_emit_bind (hcells.left id rfl input hinput)

end Parser

namespace Grammar

variable {g : Grammar} {p : Parser} {x y : Nat}

/-- The second cell occurs on the left of the definition of the first. -/
def LeftCalls (g : Grammar) (x y : Nat) : Prop :=
  ∃ definition, g.cells[x]? = some (some definition) ∧ definition.Left y

/-- No cell leads back to itself on the left. -/
def NoLeftRecursion (g : Grammar) : Prop :=
  ∀ x, ¬ Relation.TransGen g.LeftCalls x x

open Classical in
/-- The cells that are reached on the left from a cell, itself included. -/
noncomputable def leftReach (g : Grammar) (x : Nat) : Finset Nat :=
  (Finset.range g.cells.length).filter (Relation.ReflTransGen g.LeftCalls x)

theorem mem_leftReach : y ∈ g.leftReach x ↔
    y < g.cells.length ∧ Relation.ReflTransGen g.LeftCalls x y := by
  simp only [leftReach, Finset.mem_filter, Finset.mem_range]

/-- The number of the cells that are reached on the left. -/
noncomputable def leftRank (g : Grammar) (x : Nat) : Nat := (g.leftReach x).card

theorem leftRank_le (x : Nat) : g.leftRank x ≤ g.cells.length := by
  have hsubset : g.leftReach x ⊆ Finset.range g.cells.length := by
    intro y hy
    exact Finset.mem_range.mpr (mem_leftReach.mp hy).1
  have hle := Finset.card_le_card hsubset
  rwa [Finset.card_range] at hle

/-- **The rank falls on the left.**  What `y` reaches is also reached from
`x`, and without left recursion `x` itself is not reached from `y`. -/
theorem leftRank_lt (hacyclic : g.NoLeftRecursion) (h : g.LeftCalls x y) :
    g.leftRank y < g.leftRank x := by
  have hsubset : g.leftReach y ⊆ g.leftReach x := by
    intro z hz
    obtain ⟨hlt, hreach⟩ := mem_leftReach.mp hz
    exact mem_leftReach.mpr ⟨hlt, .head h hreach⟩
  have hown : x ∈ g.leftReach x := by
    obtain ⟨definition, hcell, -⟩ := h
    obtain ⟨hlt, -⟩ := List.getElem?_eq_some_iff.mp hcell
    exact mem_leftReach.mpr ⟨hlt, .refl⟩
  have hnot : x ∉ g.leftReach y := by
    intro hx
    exact hacyclic x (.head' h (mem_leftReach.mp hx).2)
  apply Finset.card_lt_card
  exact Finset.ssubset_iff_of_subset hsubset |>.mpr ⟨x, hown, hnot⟩

/-- A function that falls along left calls excludes left recursion. -/
theorem noLeftRecursion_of_measure
    (measure : Nat → Nat)
    (h : ∀ x y, g.LeftCalls x y → measure y < measure x) :
    g.NoLeftRecursion := by
  have hfall : ∀ {x y}, Relation.TransGen g.LeftCalls x y →
      measure y < measure x := by
    intro x y hxy
    induction hxy with
    | single hcall => exact h _ _ hcall
    | tail _ hcall ih => exact Nat.lt_trans (h _ _ hcall) ih
  intro x hx
  exact Nat.lt_irrefl _ (hfall hx)

/-- The nesting that is enough for a cell and a text: the pair of the length
and the rank, as one number. -/
noncomputable def nesting (g : Grammar) (x : Nat) (input : Text) : Nat :=
  input.length * (g.cells.length + 1) + g.leftRank x

/-- On a shorter text any other cell needs less nesting. -/
theorem nesting_lt_of_length_lt {t input : Text} (h : t.length < input.length) :
    g.nesting y t < g.nesting x input := by
  have hrank := g.leftRank_le y
  have hmul : (t.length + 1) * (g.cells.length + 1) ≤
      input.length * (g.cells.length + 1) := Nat.mul_le_mul_right _ h
  unfold nesting
  rw [Nat.succ_mul] at hmul
  omega

/-- On a text that is not longer, a cell on the left needs less nesting. -/
theorem nesting_lt_of_leftCalls
    (hacyclic : g.NoLeftRecursion)
    (h : g.LeftCalls x y)
    {t input : Text}
    (ht : t.length ≤ input.length) :
    g.nesting y t < g.nesting x input := by
  have hrank := leftRank_lt hacyclic h
  have hmul : t.length * (g.cells.length + 1) ≤
      input.length * (g.cells.length + 1) := Nat.mul_le_mul_right _ ht
  unfold nesting
  omega

theorem nesting_lt {t : Text} {n : Nat} (ht : t.length ≤ n) :
    g.nesting x t < (n + 1) * (g.cells.length + 1) := by
  have hrank := g.leftRank_le x
  have hmul : t.length * (g.cells.length + 1) ≤ n * (g.cells.length + 1) :=
    Nat.mul_le_mul_right _ ht
  unfold nesting
  rw [Nat.succ_mul]
  omega

/-- The cells that a parser reaches end within the nesting of the measure. -/
theorem enter_ends
    (hleaf : g.EachLeaf Leaf.WellBehaved p)
    (hacyclic : g.NoLeftRecursion)
    (limit : Nat)
    (hx : g.Reaches p x)
    {input : Text}
    (h : g.nesting x input < limit) :
    (g.enter settings limit x input).Ends := by
  have hkeeps : g.EachLeaf Leaf.KeepsSuffix p :=
    hleaf.mono fun _ hl => hl.keepsSuffix
  induction limit generalizing x input with
  | zero => exact absurd h (Nat.not_lt_zero _)
  | succ limit ih =>
      simp only [enter]
      split
      · next definition hcell =>
        refine Parser.eval_ends (hleaf.reached hx hcell) ?_ (Nat.le_refl _)
        constructor
        · intro y hy t
          exact enter_yields_suffix hkeeps limit (hx.through hcell hy) t
        · intro y hy t ht
          have hlt := nesting_lt_of_length_lt (g := g) (x := x) (y := y) ht
          exact ih (hx.through hcell hy) (by omega)
        · intro y hy t ht
          have hcall : g.LeftCalls x y := ⟨definition, hcell, hy⟩
          have hlt := nesting_lt_of_leftCalls hacyclic hcall ht
          exact ih (hx.through hcell hy.refers) (by omega)
      · intro hundefined
        cases hundefined

/-- **Grammars without left recursion end.**  If all leaves are well behaved
and no cell leads back to itself on the left, then every run of every parser
ends: from a nesting on that depends only on the length of the input and the
number of cells, it is one and the same run. -/
theorem run_terminates
    (hleaf : g.EachLeaf Leaf.WellBehaved p)
    (hacyclic : g.NoLeftRecursion)
    (settings : Settings) (input : Text) :
    ∃ x : Run Reply, x.Ends ∧
      ∀ limit, (input.length + 1) * (g.cells.length + 1) ≤ limit →
        g.run settings limit p input = x := by
  have hkeeps : g.EachLeaf Leaf.KeepsSuffix p :=
    hleaf.mono fun _ hl => hl.keepsSuffix
  let enough := (input.length + 1) * (g.cells.length + 1)
  have hends : (g.run settings enough p input).Ends := by
    refine Parser.eval_ends hleaf.own ?_ (Nat.le_refl input.length)
    have hcell : ∀ x, g.Reaches p x → ∀ t : Text, t.length ≤ input.length →
        (g.enter settings enough x t).Ends := by
      intro x hx t ht
      exact enter_ends hleaf hacyclic enough hx (nesting_lt ht)
    constructor
    · intro x hx t
      exact enter_yields_suffix hkeeps enough (.here hx) t
    · intro x hx t ht
      exact hcell x (.here hx) t (Nat.le_of_lt ht)
    · intro x hx t ht
      exact hcell x (.here hx.refers) t ht
  refine ⟨g.run settings enough p input, hends, ?_⟩
  intro limit hlimit
  exact run_eq_of_ends hends hlimit

/-- A sum begins with a term, and everything else in it stands after a sign or
a parenthesis. -/
theorem sums_leftCalls (h : sums.LeftCalls x y) : x = 0 ∧ y = 1 := by
  obtain ⟨definition, hcell, hleft⟩ := h
  match x, hcell with
  | 0, hcell =>
      cases hcell
      rcases hleft with hterm | ⟨-, v, hsign | ⟨hsign, -⟩⟩
      · exact ⟨rfl, hterm.symm⟩
      · exact hsign.elim
      · exact absurd trivial hsign
  | 1, hcell =>
      cases hcell
      rcases hleft with ((hopen | ⟨hopen, -⟩) | ⟨-, hclose⟩) | hinteger
      · exact hopen.elim
      · exact absurd trivial hopen
      · exact hclose.elim
      · exact hinteger.elim
  | _ + 2, hcell => simp [sums] at hcell

/-- Sums have no left recursion, so the nesting for a text of seven code
points is bounded. -/
theorem sums_run_terminates : sums.NoLeftRecursion ∧
    ∃ x : Run Reply, x.Ends ∧ ∀ limit, 24 ≤ limit →
      sums.run {} limit (.cell 0) "(1+2)+3" = x := by
  have hleaf : sums.EachLeaf Leaf.WellBehaved (.cell 0) :=
    eachLeaf_sums (fun _ _ => trivial) trivial 0
  have hacyclic : sums.NoLeftRecursion := by
    apply noLeftRecursion_of_measure fun x => 1 - x
    intro x y h
    obtain ⟨rfl, rfl⟩ := sums_leftCalls h
    exact Nat.one_pos
  exact ⟨hacyclic, run_terminates hleaf hacyclic {} "(1+2)+3"⟩

end Grammar

end ParserAlgebra
