import ParserAlgebra.Parser.Repetition
import ParserAlgebra.Proofs.Remainder.Leaf
import ParserAlgebra.Proofs.Repetition
import ParserAlgebra.Proofs.Run.Conclusion
/-!
# Lists with separators

After its first item, a list is a repetition of a separator and an item.  What it reads
is said here of the two parsers and not of their repetition: from the text after an item
the list goes on over a separator and a further item as long as the two together take
something off the text (`FurtherItems`), and it ends at the text after an item where
they do not (`ListEnds`).  A separator that no item follows is therefore not part of the
list, even if it took much off the text, and neither is the beginning of an item that
fails.

* `exists_furtherItems`: from every text a list goes on to some end, by induction on the
  length of the text.
* `concludes_many_of_furtherItems`: the repetition reads the items up to this end.
* `separated_lists`: lists with at least one item, and lists that may be empty.
-/

namespace ParserAlgebra

/-- A list does not go on from a text: there is no separator, or no item after it, or the
two leave the text as it is. -/
inductive ListEnds (S R : Text → Reply → Prop) (t : Text) : Prop
  | noSeparator {e u : Text} (hsep : S t (.failure e u))
  | noItem {rsep : Reply} {w : Value} {u e u' : Text} (hsep : S t rsep)
      (haccept : rsep.accepted? = some (w, u)) (hitem : R u (.failure e u'))
  | noProgress {rsep r : Reply} {w v : Value} {u : Text} (hsep : S t rsep)
      (haccept : rsep.accepted? = some (w, u)) (hitem : R u r)
      (hstays : r.accepted? = some (v, t))

/-- The items with which a list goes on from the text after an item, and the text at
which it ends. -/
inductive FurtherItems (S R : Text → Reply → Prop) : Text → List Value → Text → Prop
  | done {t : Text} (hends : ListEnds S R t) : FurtherItems S R t [] t
  | more {t u rest last : Text} {rsep r : Reply} {w v : Value} {vs : List Value}
      (hsep : S t rsep) (haccept : rsep.accepted? = some (w, u)) (hitem : R u r)
      (haccept' : r.accepted? = some (v, rest)) (hlength : rest.length < t.length)
      (hrest : FurtherItems S R rest vs last) : FurtherItems S R t (v :: vs) last

/-- Where each text has replies, which leave ends of it, a list goes on to some end. -/
theorem exists_furtherItems {S R : Text → Reply → Prop}
    (hsep : ∀ t, ∃ r, S t r) (hitem : ∀ t, ∃ r, R t r)
    (hsepSuffix : ∀ t r, S t r → r.rest <:+ t) (hitemSuffix : ∀ t r, R t r → r.rest <:+ t)
    (t : Text) : ∃ vs last, FurtherItems S R t vs last := by
  induction hn : t.length using Nat.strongRecOn generalizing t with
  | ind n ih =>
      obtain ⟨rsep, hrsep⟩ := hsep t
      rcases rsep.fails_or_accepts with ⟨e, u, rfl⟩ | ⟨w, u, haccept⟩
      · exact ⟨[], t, .done (.noSeparator hrsep)⟩
      obtain ⟨r, hr⟩ := hitem u
      rcases r.fails_or_accepts with ⟨e, u', rfl⟩ | ⟨v, rest, haccept'⟩
      · exact ⟨[], t, .done (.noItem hrsep haccept hr)⟩
      by_cases hlength : rest.length < t.length
      · obtain ⟨vs, last, hrest⟩ := ih rest.length (hn ▸ hlength) rest rfl
        exact ⟨v :: vs, last, .more hrsep haccept hr haccept' hlength hrest⟩
      · have hu := hsepSuffix _ _ hrsep
        have hrest := hitemSuffix _ _ hr
        rw [Reply.rest_of_accepted? haccept] at hu
        rw [Reply.rest_of_accepted? haccept'] at hrest
        obtain rfl := (hrest.trans hu).eq_of_length_le (Nat.not_lt.mp hlength)
        exact ⟨[], rest, .done (.noProgress hrsep haccept hr haccept')⟩

namespace Grammar

variable {g : Grammar} {s : Settings} {sep p : Parser} {t last : Text} {vs : List Value}

/-- A list ends where a separator and an item make no link of a chain. -/
theorem exists_stalls_of_listEnds (h : ListEnds (g.Returns s sep) (g.Returns s p) t) :
    ∃ r, g.Returns s (sep.keepSecond p) t r ∧ r.Stalls t := by
  cases h with
  | noSeparator hsep =>
      refine ⟨_, returns_keepSecond_of_failure hsep, ?_⟩
      intro v rest hfailure
      cases hfailure
  | noItem hsep haccept hitem =>
      refine ⟨_, returns_keepSecond hsep haccept hitem, ?_⟩
      intro v rest hfailure
      cases hfailure
  | noProgress hsep haccept hitem hstays =>
      refine ⟨_, returns_keepSecond hsep haccept hitem, ?_⟩
      intro v rest hsuccess
      rw [hstays] at hsuccess
      cases hsuccess
      exact Nat.le_refl _

/-- The further items of a list are the outputs of a chain. -/
theorem exists_maximalChain_of_furtherItems
    (h : FurtherItems (g.Returns s sep) (g.Returns s p) t vs last) :
    ∃ links, MaximalChain (g.Returns s (sep.keepSecond p)) t links ∧
      links.map Prod.fst = vs ∧ lastRest t links = last := by
  induction h with
  | done hends =>
      obtain ⟨r, hreply, hstalls⟩ := exists_stalls_of_listEnds hends
      exact ⟨[], .done hreply hstalls, rfl, rfl⟩
  | @more t u rest last rsep r w v vs hsep haccept hitem haccept' hlength _ ih =>
      obtain ⟨links, hlinks, hvs, hlast⟩ := ih
      have hreply := returns_keepSecond hsep haccept hitem
      exact ⟨(v, rest) :: links, .more hreply haccept' hlength hlinks,
        congrArg (v :: ·) hvs, hlast⟩

theorem concludes_many_of_furtherItems
    (h : FurtherItems (g.Returns s sep) (g.Returns s p) t vs last) :
    g.Concludes s (sep.keepSecond p).many t (.ok (.success (.list vs) last)) := by
  obtain ⟨links, hlinks, rfl, rfl⟩ := exists_maximalChain_of_furtherItems h
  exact concludes_many hlinks

section

variable {input rest : Text} {r : Reply} {v : Value}

theorem concludes_sepBy1 (hp : g.Returns s p input r)
    (haccept : r.accepted? = some (v, rest))
    (h : FurtherItems (g.Returns s sep) (g.Returns s p) rest vs last) :
    g.Concludes s (.sepBy1 sep p) input (.ok (.success (.list (v :: vs)) last)) :=
  concludes_prepend (concludes_ok_iff.mpr hp) haccept (concludes_many_of_furtherItems h)

/-- The choice of the empty list changes nothing after a first item. -/
theorem concludes_sepBy (hp : g.Returns s p input r)
    (haccept : r.accepted? = some (v, rest))
    (h : FurtherItems (g.Returns s sep) (g.Returns s p) rest vs last) :
    g.Concludes s (.sepBy sep p) input (.ok (.success (.list (v :: vs)) last)) :=
  have hempty : g.Concludes s (.pure (.list [])) input (.ok (.success (.list []) input)) :=
    concludes_leaf rfl
  concludes_orElse_of_success (concludes_sepBy1 hp haccept h) rfl hempty

theorem concludes_sepBy_of_failure {e u : Text}
    (hp : g.Returns s p input (.failure e u)) :
    g.Concludes s (.sepBy sep p) input (.ok (.success (.list []) input)) :=
  have hempty : g.Concludes s (.pure (.list [])) input (.ok (.success (.list []) input)) :=
    concludes_leaf rfl
  have hitem := concludes_prepend_of_failure (concludes_ok_iff.mpr hp)
  concludes_orElse_of_failure hitem hempty rfl

end

/-- What the two kinds of lists make of a text. -/
structure ListsRead (g : Grammar) (s : Settings) (sep p : Parser) (input : Text) :
    Prop where
  /-- A list that must not be empty fails exactly as its first item does. -/
  failure : ∀ e u, g.Returns s (.sepBy1 sep p) input (.failure e u) ↔
    g.Returns s p input (.failure e u)
  /-- Otherwise it reads the first item and then goes on to its end. -/
  items : ∀ r v rest, g.Returns s p input r → r.accepted? = some (v, rest) →
    ∃ vs last, FurtherItems (g.Returns s sep) (g.Returns s p) rest vs last ∧
      g.Concludes s (.sepBy1 sep p) input (.ok (.success (.list (v :: vs)) last))
  /-- A list that may be empty is the same after a first item. -/
  same : ∀ r, g.Returns s p input r → r.isSuccess → ∀ o,
    g.Concludes s (.sepBy sep p) input o ↔ g.Concludes s (.sepBy1 sep p) input o
  /-- Without one, it is empty. -/
  empty : ∀ e u, g.Returns s p input (.failure e u) →
    g.Concludes s (.sepBy sep p) input (.ok (.success (.list []) input))
  never_fails : ∃ vs last,
    g.Concludes s (.sepBy sep p) input (.ok (.success (.list vs) last))

/-- **Lists with separators.**  If separators and items always give a reply, which
leaves an end of the text, then on every text a list reads its first item, and from
there it goes on over a separator and a further item as long as the two are found and
take something off the text. -/
theorem separated_lists
    (hsep : ∀ t, ∃ r, g.Returns s sep t r) (hp : ∀ t, ∃ r, g.Returns s p t r)
    (hsepSuffix : ∀ t r, g.Returns s sep t r → r.rest <:+ t)
    (hpSuffix : ∀ t r, g.Returns s p t r → r.rest <:+ t) (input : Text) :
    ListsRead g s sep p input := by
  have hfurther := exists_furtherItems hsep hp hsepSuffix hpSuffix
  obtain ⟨first, hfirst⟩ := hp input
  constructor
  case failure =>
    intro e u
    constructor
    · intro h
      rcases first.fails_or_accepts with ⟨e', u', rfl⟩ | ⟨v, rest, haccept⟩
      · have hfailure := concludes_prepend_of_failure
          (q := (sep.keepSecond p).many) (concludes_ok_iff.mpr hfirst)
        rwa [h.eq (concludes_ok_iff.mp hfailure)]
      · obtain ⟨vs, last, hrest⟩ := hfurther rest
        have hlist := concludes_sepBy1 hfirst haccept hrest
        cases h.eq (concludes_ok_iff.mp hlist)
    · intro h
      exact concludes_ok_iff.mp (concludes_prepend_of_failure (concludes_ok_iff.mpr h))
  case items =>
    intro r v rest hreply haccept
    obtain ⟨vs, last, hrest⟩ := hfurther rest
    exact ⟨vs, last, hrest, concludes_sepBy1 hreply haccept hrest⟩
  case same =>
    intro r hreply hsuccess o
    rcases r.fails_or_accepts with ⟨e, u, rfl⟩ | ⟨v, rest, haccept⟩
    · cases hsuccess
    · obtain ⟨vs, last, hrest⟩ := hfurther rest
      have hnonempty := concludes_sepBy1 hreply haccept hrest
      have hany := concludes_sepBy hreply haccept hrest
      constructor
      · intro h
        rwa [h.eq hany]
      · intro h
        rwa [h.eq hnonempty]
  case empty => exact fun e u hfailure => concludes_sepBy_of_failure hfailure
  case never_fails =>
    rcases first.fails_or_accepts with ⟨e, u, rfl⟩ | ⟨v, rest, haccept⟩
    · exact ⟨[], input, concludes_sepBy_of_failure hfirst⟩
    · obtain ⟨vs, last, hrest⟩ := hfurther rest
      exact ⟨_, last, concludes_sepBy hfirst haccept hrest⟩

/-- After the last digit a comma is left, because what follows it is no digit. -/
theorem digits_separated :
    (∀ t, ∃ r, ({} : Grammar).Returns {} (.char ',') t r) ∧
      (∀ t, ∃ r, ({} : Grammar).Returns {} .digit t r) ∧
      (∀ t r, ({} : Grammar).Returns {} (.char ',') t r → r.rest <:+ t) ∧
      (∀ t r, ({} : Grammar).Returns {} .digit t r → r.rest <:+ t) ∧
      ListsRead {} {} (.char ',') .digit "1,2,x" ∧
      ({} : Grammar).Concludes {} (.sepBy (.char ',') .digit) "1,2,x"
        (.ok (.success (.list [.text "1", .text "2"]) ",x")) := by
  have htotal : ∀ f label t, ∃ r, ({} : Grammar).Returns {} (.satisfy f label) t r := by
    intro f label t
    cases t with
    | nil => exact ⟨_, 0, rfl⟩
    | cons c t => exact ⟨_, 0, rfl⟩
  have hsuffix : ∀ f label t r, ({} : Grammar).Returns {} (.satisfy f label) t r →
      r.rest <:+ t := by
    intro f label t r ⟨limit, h⟩
    have hleaf : Leaf.KeepsSuffix (.satisfy f label) := trivial
    exact Leaf.suffix_of_run hleaf h
  have hread : ListsRead {} {} (.char ',') .digit "1,2,x" :=
    separated_lists (htotal _ _) (htotal _ _) (hsuffix _ _) (hsuffix _ _) "1,2,x"
  have hnonempty : ({} : Grammar).Concludes {} (.sepBy1 (.char ',') .digit) "1,2,x"
      (.ok (.success (.list [.text "1", .text "2"]) ",x")) := ⟨0, fun limit _ => rfl⟩
  exact ⟨htotal _ _, htotal _ _, hsuffix _ _, hsuffix _ _, hread,
    (hread.same _ ⟨0, rfl⟩ rfl _).mpr hnonempty⟩

end Grammar

end ParserAlgebra
