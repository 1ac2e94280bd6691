import ParserAlgebra.Parser.Sequence
import ParserAlgebra.Parser.Terminal
import ParserAlgebra.Proofs.Sequence.Row
import ParserAlgebra.Proofs.Run.Outcome
/-!
# Brackets around a concatenation

Parsers whose outputs are joined may be put into brackets in any way if joining is
associative (`append_ignores_brackets`).  Joining has to be defined only for the
outputs that occur in the row, and for what is made of them; texts with texts and
lists with lists are such outputs for addition.

An output that was thrown away is not joined to anything, and a part of the row
that keeps no output is thrown away as a whole, whichever side of a pair it is.  So
the outcome depends on the list of kept outputs alone (`Joins`), and a pair of
brackets cuts this list in two, as it cuts the row.
-/

namespace ParserAlgebra

/-- Joining is defined for the values of a domain, does not lead out of it and is
associative. -/
structure Concatenates (concat : Value → Value → Except Fault Value)
    (domain : Value → Prop) : Prop where
  total : ∀ {u v}, domain u → domain v → ∃ w, concat u v = .ok w ∧ domain w
  assoc : ∀ {u v w uv vw}, domain u → domain v → domain w →
    concat u v = .ok uv → concat v w = .ok vw → concat uv w = concat u vw

namespace Value

def IsText (v : Value) : Prop := ∃ t, v = .text t

def IsList (v : Value) : Prop := ∃ vs, v = .list vs

theorem concatenates_add_isText : Concatenates add IsText where
  total := by
    rintro _ _ ⟨s, rfl⟩ ⟨t, rfl⟩
    exact ⟨.text (s ++ t), rfl, s ++ t, rfl⟩
  assoc := by
    rintro _ _ _ _ _ ⟨s, rfl⟩ ⟨t, rfl⟩ ⟨u, rfl⟩ ⟨⟩ ⟨⟩
    simp only [add, List.append_assoc]

theorem concatenates_add_isList : Concatenates add IsList where
  total := by
    rintro _ _ ⟨us, rfl⟩ ⟨vs, rfl⟩
    exact ⟨.list (us ++ vs), rfl, us ++ vs, rfl⟩
  assoc := by
    rintro _ _ _ _ _ ⟨us, rfl⟩ ⟨vs, rfl⟩ ⟨ws, rfl⟩ ⟨⟩ ⟨⟩
    simp only [add, List.append_assoc]

theorem foldlM_cons_of_ok {concat : Value → Value → Except Fault Value} {u v uv : Value}
    (h : concat u v = .ok uv) (vs : List Value) :
    (v :: vs).foldlM concat u = vs.foldlM concat uv := by
  rw [List.foldlM_cons, h]
  rfl

end Value

namespace Concatenates

variable {concat : Value → Value → Except Fault Value} {domain : Value → Prop}
variable {u v w : Value} {us vs : List Value}

theorem exists_foldlM (h : Concatenates concat domain) (hv : domain v)
    (hvs : ∀ x ∈ vs, domain x) : ∃ w, vs.foldlM concat v = .ok w ∧ domain w := by
  induction vs generalizing v with
  | nil => exact ⟨v, rfl, hv⟩
  | cons x vs ih =>
      obtain ⟨hx, hvs⟩ := List.forall_mem_cons.mp hvs
      obtain ⟨vx, hjoin, hvx⟩ := h.total hv hx
      rw [Value.foldlM_cons_of_ok hjoin]
      exact ih hvx hvs

/-- What comes first may as well be joined to the others when these are joined. -/
theorem foldlM_cons (h : Concatenates concat domain) (hu : domain u) (hv : domain v)
    (hvs : ∀ x ∈ vs, domain x) (hfold : vs.foldlM concat v = .ok w) :
    (v :: vs).foldlM concat u = concat u w := by
  obtain ⟨uv, huv, -⟩ := h.total hu hv
  rw [Value.foldlM_cons_of_ok huv]
  induction vs generalizing v uv with
  | nil =>
      obtain rfl := Except.ok.inj hfold
      exact huv.symm
  | cons x vs ih =>
      obtain ⟨hx, hvs⟩ := List.forall_mem_cons.mp hvs
      obtain ⟨vx, hvx, hdomain⟩ := h.total hv hx
      obtain ⟨uvx, huvx, -⟩ := h.total hu hdomain
      have hregroup : concat uv x = .ok uvx := (h.assoc hu hv hx huv hvx).trans huvx
      rw [Value.foldlM_cons_of_ok hvx] at hfold
      rw [Value.foldlM_cons_of_ok hregroup]
      exact ih hdomain hvs hfold uvx huvx

/-- Two lists of values may be joined each for itself. -/
theorem foldlM_append {u' w' : Value} (h : Concatenates concat domain) (hu : domain u)
    (hus : ∀ x ∈ us, domain x) (hv : domain v) (hvs : ∀ x ∈ vs, domain x)
    (hfold : us.foldlM concat u = .ok u') (hfold' : vs.foldlM concat v = .ok w') :
    (us ++ v :: vs).foldlM concat u = concat u' w' := by
  obtain ⟨x, hx, hdomain⟩ := h.exists_foldlM hu hus
  obtain rfl : x = u' := Except.ok.inj (hx.symm.trans hfold)
  rw [List.foldlM_append, hfold]
  exact h.foldlM_cons hdomain hv hvs hfold'

end Concatenates

/-- **The outcome of joined parsers**, from the outputs that their row keeps and the
outcome of the last run of it. -/
inductive Joins (concat : Value → Value → Except Fault Value) :
    List Value → Outcome Reply → Outcome Reply → Prop where
  | stopped (vs : List Value) (stop : Stop) : Joins concat vs (.error stop) (.error stop)
  /-- The first failure is the failure of all. -/
  | failed (vs : List Value) (e t : Text) :
      Joins concat vs (.ok (.failure e t)) (.ok (.failure e t))
  /-- All outputs were thrown away. -/
  | discarded {o : Outcome Reply} {last : Text} (h : o.left? = some last) :
      Joins concat [] o (.ok (.discarded last))
  /-- The kept outputs are joined in order. -/
  | joined {v w : Value} {vs : List Value} {o : Outcome Reply} {last : Text}
      (h : o.left? = some last) (hfold : vs.foldlM concat v = .ok w) :
      Joins concat (v :: vs) o (.ok (.success w last))

namespace Joins

variable {concat : Value → Value → Except Fault Value} {domain : Value → Prop}
variable {vs vs' : List Value} {o o' o'' : Outcome Reply}

/-- The outcome of a single parser. -/
theorem of_kept? (o : Outcome Reply) : Joins concat o.kept?.toList o o := by
  cases o with
  | error stop => exact .stopped _ stop
  | ok r =>
      cases r with
      | success v rest => exact .joined rfl rfl
      | discarded rest => exact .discarded rfl
      | failure e t => exact .failed _ e t

theorem left?_eq (h : Joins concat vs o o') : o'.left? = o.left? := by
  cases h with
  | stopped => rfl
  | failed => rfl
  | discarded h => exact h.symm
  | joined h hfold => exact h.symm

/-- A row that is cut short is cut short for all bracketings alike. -/
theorem eq_of_cut (h : Joins concat vs o o') (hcut : o.left? = none) : o' = o := by
  cases h with
  | stopped => rfl
  | failed => rfl
  | discarded h => cases hcut.symm.trans h
  | joined h hfold => cases hcut.symm.trans h

/-- The outcome is determined by the kept outputs and the last run. -/
theorem unique (h : Joins concat vs o o') (h' : Joins concat vs o o'') : o'' = o' := by
  cases h with
  | stopped => exact h'.eq_of_cut rfl
  | failed => exact h'.eq_of_cut rfl
  | discarded hleft =>
      cases h' with
      | stopped => cases hleft
      | failed => cases hleft
      | discarded hleft' => rw [Option.some.inj (hleft.symm.trans hleft')]
  | joined hleft hfold =>
      cases h' with
      | stopped => cases hleft
      | failed => cases hleft
      | joined hleft' hfold' =>
          rw [Option.some.inj (hleft.symm.trans hleft'),
            Except.ok.inj (hfold.symm.trans hfold')]

/-- Two replies are joined as the two lists of outputs are. -/
theorem append {r : Reply} (hconcat : Concatenates concat domain) (hvs : ∀ v ∈ vs, domain v)
    (hvs' : ∀ v ∈ vs', domain v) (h : Joins concat vs o' (.ok r)) (hr : r.isSuccess)
    (h' : Joins concat vs' o o'') :
    Joins concat (vs ++ vs') o
      (o''.bind fun r' => Outcome.ofExcept (r.append concat r')) := by
  cases h with
  | failed => cases hr
  | discarded hleft =>
      -- nothing is joined to the second reply
      cases o'' with
      | error stop => exact h'
      | ok r' => exact h'
  | @joined v w vs _ rest hleft hfold =>
      cases h' with
      | stopped => exact .stopped _ _
      | failed => exact .failed _ _ _
      | discarded hleft' =>
          rw [List.append_nil]
          exact .joined hleft' hfold
      | @joined v' w' vs' _ last hleft' hfold' =>
          obtain ⟨hv, hvs⟩ := List.forall_mem_cons.mp hvs
          obtain ⟨hv', hvs'⟩ := List.forall_mem_cons.mp hvs'
          have hboth := hconcat.foldlM_append hv hvs hv' hvs' hfold hfold'
          have hall : ∀ x ∈ vs ++ v' :: vs', domain x :=
            List.forall_mem_append.mpr ⟨hvs, List.forall_mem_cons.mpr ⟨hv', hvs'⟩⟩
          obtain ⟨x, hx, -⟩ := hconcat.exists_foldlM hv hall
          simp only [Except.bind, Reply.append, hboth.symm.trans hx]
          exact .joined hleft' hx

end Joins

theorem keptOutputs_append (answer : Parser → Text → Outcome Reply) (legs legs' : List Leg) :
    keptOutputs answer (legs ++ legs') = keptOutputs answer legs ++ keptOutputs answer legs' :=
  List.filterMap_append

theorem keptOutputs_singleton (answer : Parser → Text → Outcome Reply) (l : Leg) :
    keptOutputs answer [l] = (answer l.parser l.start).kept?.toList := by
  rw [keptOutputs, List.filterMap_cons]
  cases (answer l.parser l.start).kept? <;> rfl

namespace Grammar

variable {g : Grammar} {s : Settings} {limit : Nat} {p q : Parser} {input : Text}
variable {legs : List Leg} {o : Outcome Reply}
variable {concat : Value → Value → Except Fault Value} {domain : Value → Prop}

theorem run_append_eq :
    g.run s limit (p.append q concat) input = (do
      Run.emit (.entered (p.append q concat) input)
      let r ← g.run s limit p input
      if r.isSuccess then
        let r' ← g.run s limit q r.rest
        Run.ofExcept (r.append concat r')
      else return r) :=
  rfl

theorem outcome_run_append :
    (g.run s limit (p.append q concat) input).outcome =
      (g.run s limit p input).outcome.bind fun r =>
        if r.isSuccess then
          (g.run s limit q r.rest).outcome.bind fun r' => Outcome.ofExcept (r.append concat r')
        else .ok r := by
  rw [run_append_eq]
  simp only [Run.outcome_bind, Run.emit, Except.bind]
  cases (g.run s limit p input).outcome with
  | error stop => rfl
  | ok r =>
      simp only
      split
      · exact Run.outcome_bind _ _
      · rfl

namespace Follows

variable {ps qs : List Parser} {left : Bracketing ps} {right : Bracketing qs}

/-- If the left side is cut short, the right side is not run. -/
theorem append_of_cut
    (h : g.Follows s limit (fun q q' => q.append q' concat) left input legs o)
    (hcut : o.left? = none) :
    g.Follows s limit (fun q q' => q.append q' concat) (left.pair right) input legs o := by
  obtain ⟨rfl, hevents⟩ := h
  constructor
  · exact Run.outcome_bind_of_cut (y := g.run s limit (left.parser _) input) hcut fun _ _ => rfl
  · apply Run.weaves_emit_bind (.entered List.mem_cons_self input)
    have hown := hevents.mono fun _ he => he.pair_left right
    exact hown.bind_of_cut hcut fun _ _ => rfl

theorem append {r : Reply} {before after : List Leg} (hsuccess : r.isSuccess)
    (h : g.Follows s limit (fun q q' => q.append q' concat) left input before (.ok r))
    (h' : g.Follows s limit (fun q q' => q.append q' concat) right r.rest after o) :
    g.Follows s limit (fun q q' => q.append q' concat) (left.pair right) input
      (before ++ after) (o.bind fun r' => Outcome.ofExcept (r.append concat r')) := by
  obtain ⟨houtcome, hevents⟩ := h
  obtain ⟨houtcome', hevents'⟩ := h'
  constructor
  · rw [Bracketing.parser, outcome_run_append, houtcome]
    simp only [Except.bind, if_pos hsuccess, houtcome']
  · rw [List.map_append, Bracketing.parser, run_append_eq]
    apply Run.weaves_emit_bind (.entered List.mem_cons_self input)
    have hown := hevents.mono fun _ he => he.pair_left right
    have hown' := hevents'.mono fun _ he => he.pair_right left
    apply hown.bind_of_ok houtcome
    rw [if_pos hsuccess]
    apply hown'.bind_own
    intro r' _
    exact Run.weaves_of_own (List.forall_mem_nil _)

end Follows

/-- Parsers in brackets make the runs of their row, and join what it keeps. -/
theorem exists_follows_append (hconcat : Concatenates concat domain) {ps : List Parser}
    (T : Bracketing ps) (hrow : InRow (g.answer s limit) ps input legs o)
    (hkept : ∀ v ∈ keptOutputs (g.answer s limit) legs, domain v) :
    ∃ o', Joins concat (keptOutputs (g.answer s limit) legs) o o' ∧
      g.Follows s limit (fun q q' => q.append q' concat) T input legs o' := by
  induction T generalizing input legs o with
  | alone p =>
      obtain ⟨rfl, rfl⟩ := hrow.eq_of_singleton
      refine ⟨_, ?_, rfl, Run.weaves_events _ _⟩
      rw [keptOutputs_singleton]
      exact Joins.of_kept? _
  | pair left right ihleft ihright =>
      rcases hrow.split left.ne_nil right.ne_nil with ⟨hfirst, hcut⟩ |
        ⟨before, after, o', rest, hfirst, hleft, hsecond, rfl⟩
      · obtain ⟨o', hjoins, hfollows⟩ := ihleft hfirst hkept
        exact ⟨o', hjoins, hfollows.append_of_cut (hjoins.left?_eq.trans hcut)⟩
      · rw [keptOutputs_append] at hkept ⊢
        obtain ⟨hkept, hkept'⟩ := List.forall_mem_append.mp hkept
        obtain ⟨o₁, hjoins, hfollows⟩ := ihleft hfirst hkept
        obtain ⟨o₂, hjoins', hfollows'⟩ := ihright hsecond hkept'
        obtain ⟨r, v, rfl, haccept⟩ := Outcome.left?_eq_some_iff.mp (hjoins.left?_eq.trans hleft)
        have hsuccess := Reply.isSuccess_of_accepted? haccept
        obtain rfl := Reply.rest_of_accepted? haccept
        exact ⟨_, hjoins.append hconcat hkept hkept' hsuccess hjoins',
          hfollows.append hsuccess hfollows'⟩

/-- **Concatenation is independent of brackets.**  All ways to put brackets around the
same parsers make the runs of their row, and if joining is associative on the outputs
that the row keeps, they have the same outcome: the first failure, or the kept
outputs joined in order, or a success without an output if none is kept.
`Parser.assemble` is one of these ways for addition, which is associative on texts
and on lists. -/
theorem append_ignores_brackets (g : Grammar) (s : Settings) (limit : Nat) (p : Parser)
    (ps : List Parser) (input : Text) :
    (∃ T : Bracketing (p :: ps),
      Parser.assemble (p :: ps) = .ok (T.parser fun q q' => q.append q' Value.add)) ∧
    Concatenates Value.add Value.IsText ∧ Concatenates Value.add Value.IsList ∧
    ∃ (legs : List Leg) (o : Outcome Reply),
      InRow (g.answer s limit) (p :: ps) input legs o ∧
      ∀ (concat : Value → Value → Except Fault Value) (domain : Value → Prop),
        Concatenates concat domain →
        (∀ v ∈ keptOutputs (g.answer s limit) legs, domain v) →
        ∃ o', Joins concat (keptOutputs (g.answer s limit) legs) o o' ∧
          ∀ T : Bracketing (p :: ps),
            g.Follows s limit (fun q q' => q.append q' concat) T input legs o' := by
  refine ⟨?_, Value.concatenates_add_isText, Value.concatenates_add_isList, ?_⟩
  · obtain ⟨T, hT⟩ := Bracketing.exists_parser_eq_foldl Parser.add p ps
    exact ⟨T, congrArg Except.ok hT.symm⟩
  · obtain ⟨legs, o, hrow⟩ := InRow.exists_cons (g.answer s limit) p ps input
    refine ⟨legs, o, hrow, fun concat domain hconcat hkept => ?_⟩
    obtain ⟨T, -⟩ := Bracketing.exists_parser_eq_foldl Parser.add p ps
    obtain ⟨o', hjoins, -⟩ := exists_follows_append hconcat T hrow hkept
    refine ⟨o', hjoins, fun T => ?_⟩
    obtain ⟨o'', hjoins', hfollows⟩ := exists_follows_append hconcat T hrow hkept
    rwa [hjoins.unique hjoins'] at hfollows

/-- A letter, a hyphen that is thrown away, and another letter. -/
theorem hyphen_append :
    let a := Parser.char 'a'
    let hyphen := (Parser.char '-').ignore
    let b := Parser.char 'b'
    let answer := Grammar.answer {} {} 0
    let legs : List Leg := [⟨a, "a-b"⟩, ⟨hyphen, "-b"⟩, ⟨b, "b"⟩]
    InRow answer [a, hyphen, b] "a-b" legs (.ok (.success (.text "b") [])) ∧
    Concatenates Value.add Value.IsText ∧ (∀ v ∈ keptOutputs answer legs, v.IsText) ∧
    answer ((a.add hyphen).add b) "a-b" = .ok (.success (.text "ab") []) ∧
    answer (a.add (hyphen.add b)) "a-b" = .ok (.success (.text "ab") []) := by
  intro a hyphen b answer legs
  have hrow : InRow answer [a, hyphen, b] "a-b" legs (.ok (.success (.text "b") [])) :=
    .next rfl (.next rfl (.last b _))
  have hkept : ∀ v ∈ keptOutputs answer legs, v.IsText := by
    have hvalues : keptOutputs answer legs = [.text "a", .text "b"] := rfl
    rw [hvalues]
    intro v hv
    rcases List.mem_cons.mp hv with rfl | hv
    · exact ⟨_, rfl⟩
    · rw [List.mem_singleton.mp hv]
      exact ⟨_, rfl⟩
  let front : Bracketing [a, hyphen, b] :=
    ((Bracketing.alone a).pair (.alone hyphen)).pair (.alone b)
  let back : Bracketing [a, hyphen, b] :=
    (Bracketing.alone a).pair ((Bracketing.alone hyphen).pair (.alone b))
  obtain ⟨-, htext, -, legs', o, hrow', hall⟩ :=
    append_ignores_brackets {} {} 0 a [hyphen, b] "a-b"
  obtain ⟨rfl, rfl⟩ := hrow.unique hrow'
  obtain ⟨o', hjoins, hfollows⟩ := hall Value.add Value.IsText htext hkept
  have hjoined : Joins Value.add (keptOutputs answer legs) (.ok (.success (.text "b") []))
      (.ok (.success (.text "ab") [])) := Joins.joined rfl rfl
  obtain rfl := hjoined.unique hjoins
  exact ⟨hrow, htext, hkept, (hfollows front).outcome, (hfollows back).outcome⟩

end Grammar

end ParserAlgebra
