import ParserAlgebra.Proofs.Bracketing
import ParserAlgebra.Proofs.Run.Rules
/-!
# Parsers in a row

Parsers in a row are run one after another, each on the text that the one before
it leaves, and the first that does not succeed is the last to be run.  `InRow`
records the runs that are made, with the outcome of the last of them.  Nothing is
said about what becomes of the outputs, so the ways to put parsers one after
another differ in what they make of a row and not in the row itself.

A row of two parts is the row of the first part, and after it that of the second
if the first succeeds (`InRow.split`).  This is how a row is compared with
parsers in brackets, since brackets cut a list of parsers in two.

The events of parsers in brackets are those of the runs of the row, one run after
another, and between them those of the brackets (`Run.Weaves`, `OfBrackets`).
-/

namespace ParserAlgebra

/-- The text that is left after a success. -/
def Outcome.left? : Outcome Reply → Option Text
  | .ok r => r.accepted?.map Prod.snd
  | .error _ => none

/-- The output of a success, unless it was thrown away. -/
def Outcome.kept? : Outcome Reply → Option Value
  | .ok (.success v _) => some v
  | _ => none

/-- One run of a row: a parser and the text that it is run on. -/
structure Leg where
  parser : Parser
  start : Text

/-- **A row of parsers**, whose answers are given, on a text: the runs that are
made, and the outcome of the last of them. -/
inductive InRow (answer : Parser → Text → Outcome Reply) :
    List Parser → Text → List Leg → Outcome Reply → Prop where
  /-- After the last parser there is nothing to run. -/
  | last (p : Parser) (input : Text) : InRow answer [p] input [⟨p, input⟩] (answer p input)
  /-- After a parser that does not succeed, none is run. -/
  | cut {p : Parser} (ps : List Parser) {input : Text} (h : (answer p input).left? = none) :
      InRow answer (p :: ps) input [⟨p, input⟩] (answer p input)
  /-- The next parser is run on what a success leaves. -/
  | next {p : Parser} {ps : List Parser} {input rest : Text} {legs : List Leg}
      {o : Outcome Reply} (h : (answer p input).left? = some rest)
      (hrow : InRow answer ps rest legs o) :
      InRow answer (p :: ps) input (⟨p, input⟩ :: legs) o

/-- The outputs of the runs of a row, without those that were thrown away. -/
def keptOutputs (answer : Parser → Text → Outcome Reply) (legs : List Leg) : List Value :=
  legs.filterMap fun l => (answer l.parser l.start).kept?

namespace Outcome

variable {o : Outcome Reply}

/-- No success: a stop, or a failure. -/
theorem left?_eq_none_iff :
    o.left? = none ↔ (∃ stop, o = .error stop) ∨ ∃ e t, o = .ok (.failure e t) := by
  cases o with
  | error stop => simp [left?]
  | ok r => cases r <;> simp [left?, Reply.accepted?]

theorem left?_eq_some_iff {rest : Text} :
    o.left? = some rest ↔ ∃ r v, o = .ok r ∧ r.accepted? = some (v, rest) := by
  cases o with
  | error stop => simp [left?]
  | ok r => simp [left?]

end Outcome

namespace InRow

variable {answer : Parser → Text → Outcome Reply} {p : Parser} {ps qs : List Parser}
variable {input : Text} {legs : List Leg} {o : Outcome Reply}

/-- One or more parsers can be run in a row on every text. -/
theorem exists_cons (answer : Parser → Text → Outcome Reply) (p : Parser)
    (ps : List Parser) (input : Text) : ∃ legs o, InRow answer (p :: ps) input legs o := by
  induction ps generalizing p input with
  | nil => exact ⟨_, _, last p input⟩
  | cons q ps ih =>
      cases hp : (answer p input).left? with
      | none => exact ⟨_, _, cut (q :: ps) hp⟩
      | some rest =>
          obtain ⟨legs, o, hrow⟩ := ih q rest
          exact ⟨_, _, next hp hrow⟩

theorem ne_nil (h : InRow answer ps input legs o) : ps ≠ [] := by
  cases h <;> exact List.cons_ne_nil _ _

/-- The row of a single parser is its run. -/
theorem eq_of_singleton (h : InRow answer [p] input legs o) :
    legs = [⟨p, input⟩] ∧ o = answer p input := by
  cases h with
  | last => exact ⟨rfl, rfl⟩
  | cut => exact ⟨rfl, rfl⟩
  | next _ hrow => exact absurd rfl hrow.ne_nil

/-- The row of two parts is that of the first, if this does not succeed, or else
that of the first and after it that of the second. -/
theorem split (hps : ps ≠ []) (hqs : qs ≠ []) (h : InRow answer (ps ++ qs) input legs o) :
    (InRow answer ps input legs o ∧ o.left? = none) ∨
    ∃ (before after : List Leg) (o' : Outcome Reply) (rest : Text),
      InRow answer ps input before o' ∧ o'.left? = some rest ∧
      InRow answer qs rest after o ∧ legs = before ++ after := by
  induction ps generalizing input legs with
  | nil => exact absurd rfl hps
  | cons p ps ih =>
      rw [List.cons_append] at h
      generalize hall : ps ++ qs = all at h
      cases h with
      | last => exact absurd (List.append_eq_nil_iff.mp hall).2 hqs
      | cut _ hcut => exact .inl ⟨cut ps hcut, hcut⟩
      | @next _ _ _ rest legs _ hnext hrow =>
          subst hall
          by_cases hlast : ps = []
          · subst hlast
            exact .inr ⟨[⟨p, input⟩], legs, _, rest, last p input, hnext, hrow, rfl⟩
          · rcases ih hlast hrow with ⟨hfirst, hcut⟩ |
              ⟨before, after, o', rest', hfirst, hleft, hsecond, rfl⟩
            · exact .inl ⟨next hnext hfirst, hcut⟩
            · exact .inr ⟨_, after, o', rest', next hnext hfirst, hleft, hsecond, rfl⟩

/-- There is one row of the same parsers on the same text. -/
theorem unique {legs' : List Leg} {o' : Outcome Reply} (h : InRow answer ps input legs o)
    (h' : InRow answer ps input legs' o') : legs' = legs ∧ o' = o := by
  induction h generalizing legs' o' with
  | last p input => exact h'.eq_of_singleton
  | cut ps hcut =>
      cases h' with
      | last => exact ⟨rfl, rfl⟩
      | cut => exact ⟨rfl, rfl⟩
      | next hnext => cases hcut.symm.trans hnext
  | next hnext hrow ih =>
      cases h' with
      | last => exact absurd rfl hrow.ne_nil
      | cut _ hcut => cases hcut.symm.trans hnext
      | next hnext' hrow' =>
          obtain rfl := Option.some.inj (hnext.symm.trans hnext')
          obtain ⟨rfl, rfl⟩ := ih hrow'
          exact ⟨rfl, rfl⟩

end InRow

/-- An event that brackets leave themselves: they are entered, as is what they
label, and they may leave records. -/
inductive OfBrackets (groups : List Parser) : Event → Prop where
  | entered {q : Parser} (h : q ∈ groups) (input : Text) : OfBrackets groups (.entered q input)
  | labelled {text : Text} {q : Parser} (h : q.label text ∈ groups) (input : Text) :
      OfBrackets groups (.entered q input)
  | logged (r : Record) : OfBrackets groups (.logged r)

namespace OfBrackets

variable {groups groups' ps qs : List Parser} {e : Event}

theorem mono (h : OfBrackets groups e) (hsub : groups ⊆ groups') : OfBrackets groups' e := by
  cases h with
  | entered h input => exact .entered (hsub h) input
  | labelled h input => exact .labelled (hsub h) input
  | logged r => exact .logged r

variable {op : Parser → Parser → Parser}

theorem pair_left {left : Bracketing ps} (h : OfBrackets (left.groups op) e)
    (right : Bracketing qs) :
    OfBrackets ((left.pair right).groups op) e :=
  h.mono fun _ hq => List.mem_cons_of_mem _ (List.mem_append_left _ hq)

theorem pair_right {right : Bracketing qs} (h : OfBrackets (right.groups op) e)
    (left : Bracketing ps) :
    OfBrackets ((left.pair right).groups op) e :=
  h.mono fun _ hq => List.mem_cons_of_mem _ (List.mem_append_right _ hq)

end OfBrackets

namespace Run

variable {α β : Type} {x : Run α} {f : α → Run β} {own own' : Event → Prop}
variable {blocks blocks' : List (List Event)} {a : α}

/-- The events of the run are those of the blocks, one block after another, and
between them single ones of its own. -/
def Weaves (x : Run α) (own : Event → Prop) (blocks : List (List Event)) : Prop :=
  ∃ single : List Event, (∀ e ∈ single, own e) ∧ Woven single blocks x.events

theorem weaves_events (x : Run α) (own : Event → Prop) : x.Weaves own [x.events] :=
  ⟨[], List.forall_mem_nil _, Woven.of_block _⟩

/-- All events of the run are its own. -/
theorem weaves_of_own (h : ∀ e ∈ x.events, own e) : x.Weaves own [] :=
  ⟨x.events, h, Woven.of_single _⟩

theorem Weaves.mono (h : x.Weaves own blocks) (hown : ∀ e, own e → own' e) :
    x.Weaves own' blocks := by
  obtain ⟨single, hsingle, hwoven⟩ := h
  exact ⟨single, fun e he => hown e (hsingle e he), hwoven⟩

theorem Weaves.bind_of_ok (hx : x.Weaves own blocks) (ha : x.outcome = .ok a)
    (hf : (f a).Weaves own blocks') : (x >>= f).Weaves own (blocks ++ blocks') := by
  obtain ⟨single, hsingle, hwoven⟩ := hx
  obtain ⟨single', hsingle', hwoven'⟩ := hf
  refine ⟨single ++ single', List.forall_mem_append.mpr ⟨hsingle, hsingle'⟩, ?_⟩
  rw [events_bind_of_ok ha]
  exact hwoven.append hwoven'

/-- What follows leaves events of its own and no others. -/
theorem Weaves.bind_own (hx : x.Weaves own blocks)
    (hf : ∀ a, x.outcome = .ok a → (f a).Weaves own []) : (x >>= f).Weaves own blocks := by
  cases hx' : x.outcome with
  | error stop =>
      obtain ⟨single, hsingle, hwoven⟩ := hx
      refine ⟨single, hsingle, ?_⟩
      simpa [events_bind, hx', Except.toOption] using hwoven
  | ok a =>
      rw [← List.append_nil blocks]
      exact hx.bind_of_ok hx' (hf a hx')

section Cut

variable {y : Run Reply} {next : Reply → Run Reply}

/-- After a stop there is nothing to go on from, and a failure stays as it is. -/
theorem outcome_bind_of_cut (hcut : y.outcome.left? = none)
    (hfailure : ∀ e t, next (.failure e t) = pure (.failure e t)) :
    (y >>= next).outcome = y.outcome := by
  rw [outcome_bind]
  obtain ⟨stop, hy⟩ | ⟨e, t, hy⟩ := Outcome.left?_eq_none_iff.mp hcut
  · rw [hy]
    rfl
  · rw [hy, Except.bind, hfailure]
    rfl

theorem Weaves.bind_of_cut (hy : y.Weaves own blocks) (hcut : y.outcome.left? = none)
    (hfailure : ∀ e t, next (.failure e t) = pure (.failure e t)) :
    (y >>= next).Weaves own blocks := by
  apply hy.bind_own
  intro r hr
  obtain ⟨stop, hstop⟩ | ⟨e, t, hfails⟩ := Outcome.left?_eq_none_iff.mp hcut
  · cases hr.symm.trans hstop
  · obtain rfl := Except.ok.inj (hr.symm.trans hfails)
    rw [hfailure]
    exact weaves_of_own (List.forall_mem_nil _)

end Cut

/-- The event that a run starts with is its own. -/
theorem weaves_emit_bind {e : Event} {f : Unit → Run β} (he : own e)
    (hf : (f ()).Weaves own blocks) : (emit e >>= f).Weaves own blocks := by
  have hemit : (emit e).Weaves own [] := by
    apply weaves_of_own
    intro e' he'
    rw [List.mem_singleton.mp he']
    exact he
  exact hemit.bind_of_ok rfl hf

end Run

namespace Grammar

/-- The outcome of a parser on a text, within a limit on nesting. -/
def answer (g : Grammar) (s : Settings) (limit : Nat) (p : Parser) (input : Text) :
    Outcome Reply :=
  (g.run s limit p input).outcome

/-- The events of one run of a row. -/
def legEvents (g : Grammar) (s : Settings) (limit : Nat) (l : Leg) : List Event :=
  (g.run s limit l.parser l.start).events

/-- The run of parsers in brackets has this outcome, and makes these runs of the
parsers, in order, and no others. -/
structure Follows (g : Grammar) (s : Settings) (limit : Nat)
    (op : Parser → Parser → Parser) {ps : List Parser} (T : Bracketing ps) (input : Text)
    (legs : List Leg) (o : Outcome Reply) : Prop where
  outcome : (g.run s limit (T.parser op) input).outcome = o
  events : (g.run s limit (T.parser op) input).Weaves (OfBrackets (T.groups op))
    (legs.map (g.legEvents s limit))

end Grammar

end ParserAlgebra
