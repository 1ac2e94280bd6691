import Mathlib.Data.List.Induction
import ParserAlgebra.Parser.Event
/-!
# Brackets

An operation that joins two parsers can be applied to a longer list of them in
as many ways as there are to put brackets around the list.  A `Bracketing` is
one of these ways, as a binary tree with the parsers at its leaves, so what is
shown by induction on it holds however the brackets are put.

What a bracketed parser does itself and what the parsers in it do shows in the
events of its run: the runs of the parsers follow one another as blocks, and the
single events in between belong to the brackets (`Woven`).
-/

namespace ParserAlgebra

/-- A way to put brackets around a list of parsers. -/
inductive Bracketing : List Parser → Type where
  | alone (p : Parser) : Bracketing [p]
  | pair {ps qs : List Parser} (left : Bracketing ps) (right : Bracketing qs) :
      Bracketing (ps ++ qs)

namespace Bracketing

/-- The parser in brackets. -/
def parser (op : Parser → Parser → Parser) {ps : List Parser} : Bracketing ps → Parser
  | alone p => p
  | pair left right => op (left.parser op) (right.parser op)

/-- The parsers for the pairs of brackets, the outer ones before the inner. -/
def groups (op : Parser → Parser → Parser) {ps : List Parser} : Bracketing ps → List Parser
  | alone _ => []
  | pair left right =>
      op (left.parser op) (right.parser op) :: (left.groups op ++ right.groups op)

theorem ne_nil {ps : List Parser} (T : Bracketing ps) : ps ≠ [] := by
  induction T with
  | alone p => exact List.cons_ne_nil p []
  | pair left right ihleft _ => simp [ihleft]

/-- All brackets may open at the front. -/
theorem exists_parser_eq_foldl (op : Parser → Parser → Parser) (p : Parser)
    (ps : List Parser) : ∃ T : Bracketing (p :: ps), T.parser op = ps.foldl op p := by
  induction ps using List.reverseRecOn with
  | nil => exact ⟨alone p, rfl⟩
  | append_singleton ps q ih =>
      obtain ⟨T, hT⟩ := ih
      refine ⟨pair T (alone q), ?_⟩
      rw [List.foldl_append, ← hT]
      rfl

end Bracketing

/-- The events are those of the blocks, one block after another, and the single
ones between the blocks, in order. -/
inductive Woven : (single : List Event) → (blocks : List (List Event)) → List Event → Prop where
  | done : Woven [] [] []
  | single {single events : List Event} {blocks : List (List Event)} (e : Event)
      (h : Woven single blocks events) : Woven (e :: single) blocks (e :: events)
  | block {single events : List Event} {blocks : List (List Event)} (block : List Event)
      (h : Woven single blocks events) : Woven single (block :: blocks) (block ++ events)

namespace Woven

variable {single single' events events' : List Event} {blocks blocks' : List (List Event)}

theorem of_block (block : List Event) : Woven [] [block] block := by
  have h : Woven [] [block] (block ++ []) := Woven.done.block block
  rwa [List.append_nil] at h

theorem of_single (single : List Event) : Woven single [] single := by
  induction single with
  | nil => exact done
  | cons e single ih => exact ih.single e

theorem append (h : Woven single blocks events) (h' : Woven single' blocks' events') :
    Woven (single ++ single') (blocks ++ blocks') (events ++ events') := by
  induction h with
  | done => exact h'
  | single e _ ih => exact ih.single e
  | block b _ ih =>
      rw [List.append_assoc]
      exact ih.block b

end Woven

end ParserAlgebra
