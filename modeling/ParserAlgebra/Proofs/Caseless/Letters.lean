import Mathlib.Algebra.Ring.Nat
import ParserAlgebra.Proofs.Caseless
/-!
# Lower case, code point by code point

A text in lower case consists of the forms of its code points, each in its place
(`lower_eq_flatten`).  By itself every code point has one form; in its place only a
capital sigma may have another one, namely that at the end of a word (`lowerAt_eq`).

Whether a word ends there depends on the neighbours, but only on what lower case does
not change: a code point and its lower-case form both have case or are the same
(`sameCase_lower`).  So two texts whose code points have the same forms by
themselves have their words in the same places (`endsWordAt_congr`).
-/

namespace ParserAlgebra

namespace CaseTable

/-- The letters of a run: each capital with its small letter, by number. -/
def Run.letters (r : Run) : List (Nat × Nat) :=
  (List.range ((r.last - r.first) / r.step + 1)).map fun k =>
    (r.first + k * r.step, (r.first + k * r.step + r.shift : Int).toNat)

/-- The capitals that have a small letter, each with it, by number. -/
def letters : List (Nat × Nat) := lowerRuns.flatMap Run.letters

/-- The set of the numbers in the ranges of a table, as a number with these bits.  It is
quicker to look up than the ranges. -/
def bits (ranges : List (Nat × Nat)) : Nat :=
  ranges.foldr (fun r n => (2 ^ (r.2 + 1 - r.1) - 1) <<< r.1 ||| n) 0

theorem testBit_bits (ranges : List (Nat × Nat)) (n : Nat) :
    (bits ranges).testBit n = inRanges ranges n := by
  induction ranges with
  | nil => exact Nat.zero_testBit n
  | cons r ranges ih =>
      have hrange : ((2 ^ (r.2 + 1 - r.1) - 1) <<< r.1).testBit n =
          (decide (r.1 ≤ n) && decide (n ≤ r.2)) := by
        rw [Nat.testBit_shiftLeft, Nat.testBit_two_pow_sub_one, Bool.eq_iff_iff]
        simp only [Bool.and_eq_true, decide_eq_true_eq]
        omega
      simp only [bits, List.foldr_cons, Nat.testBit_or, hrange]
      exact congrArg _ ih

/-- Capitals and small letters have case. -/
theorem cased_of_mem_letters {l : Nat × Nat} (h : l ∈ letters) :
    inRanges cased l.1 ∧ inRanges cased l.2 := by
  have hcased : ∀ r ∈ lowerRuns, ∀ l ∈ r.letters,
      (bits cased).testBit l.1 ∧ (bits cased).testBit l.2 := by decide +kernel
  obtain ⟨r, hr, hl⟩ := List.mem_flatMap.mp h
  rw [← testBit_bits, ← testBit_bits]
  exact hcased r hr l hl

/-- The capital sigma is the only capital whose small letter is a sigma, and that is the
one inside a word. -/
theorem sigma_of_mem_letters {l : Nat × Nat} (h : l ∈ letters) :
    l.2 < 0x110000 ∧ l.2 ≠ 0x3C2 ∧ (l.2 = 0x3C3 → l.1 = 0x3A3) := by
  have hsigma : ∀ r ∈ lowerRuns, ∀ l ∈ r.letters,
      l.2 < 0x110000 ∧ l.2 ≠ 0x3C2 ∧ (l.2 = 0x3C3 → l.1 = 0x3A3) := by decide +kernel
  obtain ⟨r, hr, hl⟩ := List.mem_flatMap.mp h
  exact hsigma r hr l hl

/-- No code point has case and is case-ignorable. -/
theorem not_caseIgnorable_of_cased {n : Nat} (h : inRanges cased n) :
    inRanges caseIgnorable n = false := by
  have hnone : bits cased &&& bits caseIgnorable = 0 := by decide +kernel
  have hbit := congrArg (Nat.testBit · n) hnone
  simpa only [Nat.testBit_and, testBit_bits, h, Bool.true_and, Nat.zero_testBit] using hbit

theorem mem_letters_of_mem_run {r : Run} (hr : r ∈ lowerRuns) {n : Nat} (hfirst : r.first ≤ n)
    (hlast : n ≤ r.last) (hstep : (n - r.first) % r.step = 0) :
    (n, ((n : Int) + r.shift).toNat) ∈ letters := by
  have hk : (n - r.first) / r.step * r.step = n - r.first :=
    Nat.div_mul_cancel (Nat.dvd_of_mod_eq_zero hstep)
  have hle : (n - r.first) / r.step ≤ (r.last - r.first) / r.step :=
    Nat.div_le_div_right (by omega)
  refine List.mem_flatMap.mpr ⟨r, hr, List.mem_map.mpr ⟨(n - r.first) / r.step, ?_, ?_⟩⟩
  · exact List.mem_range.mpr (by omega)
  · have hn : r.first + (n - r.first) = n := by omega
    have hn' : (r.first : Int) + ((n - r.first : Nat) : Int) = n := by omega
    rw [← Int.natCast_mul, hk, hn, hn']

end CaseTable

namespace CodePoint

theorem ext_value {c d : CodePoint} (h : c.value = d.value) : c = d := by
  cases c
  cases d
  cases h
  rfl

theorem value_ofNat {n : Nat} (h : n < 0x110000) : (ofNat n).value = n := by
  rw [ofNat, dif_pos h]

/-- A code point with a single other one as its lower-case form is a capital, and that
is its small letter. -/
theorem mem_letters_of_lower_eq {c d : CodePoint} (h : c.lower = [d]) (hne : d ≠ c) :
    (c.value, d.value) ∈ CaseTable.letters := by
  unfold lower at h
  split at h
  · -- among ASCII
    have hd := List.singleton_inj.mp h
    rw [toLower] at hd
    split at hd
    · next hupper =>
      simp only [isUpper, between, Bool.and_eq_true, decide_eq_true_eq] at hupper
      obtain ⟨hlo, hhi⟩ := hupper
      have hmem := CaseTable.mem_letters_of_mem_run (r := ⟨0x41, 0x5A, 1, 32⟩)
        List.mem_cons_self hlo hhi (Nat.mod_one _)
      have hlt : c.value + 32 < 0x110000 := by
        have : c.value ≤ 0x5A := hhi
        omega
      rw [← hd, value_ofNat hlt]
      exact hmem
    · exact absurd hd.symm hne
  · split at h
    · cases h
    · split at h
      · next r hr =>
        have hpred := List.find?_some hr
        simp only [Bool.and_eq_true, decide_eq_true_eq, beq_iff_eq] at hpred
        obtain ⟨⟨hfirst, hlast⟩, hstep⟩ := hpred
        have hmem := CaseTable.mem_letters_of_mem_run (List.mem_of_find?_eq_some hr)
          hfirst hlast hstep
        have hlt := (CaseTable.sigma_of_mem_letters hmem).1
        rw [← List.singleton_inj.mp h, value_ofNat hlt]
        exact hmem
      · exact absurd (List.singleton_inj.mp h).symm hne

/-- The dotted capital is told from all others by the length of its form. -/
theorem eq_dottedCapitalI_congr {c d : CodePoint} (h : c.lower = d.lower) :
    c = dottedCapitalI ↔ d = dottedCapitalI := by
  have hlength := congrArg List.length h
  rw [length_lower, length_lower] at hlength
  split at hlength <;> split at hlength <;> simp_all

theorem exists_lower_eq_singleton {c : CodePoint} (h : c ≠ dottedCapitalI) :
    ∃ d, c.lower = [d] := by
  have hlength := c.length_lower
  rw [if_neg h] at hlength
  exact List.length_eq_one_iff.mp hlength

/-- Lower case keeps case and what is ignored. -/
theorem sameCase_lower {c d : CodePoint} (h : c.lower = [d]) :
    c.isCased = d.isCased ∧ c.isCaseIgnorable = d.isCaseIgnorable := by
  by_cases hd : d = c
  · rw [hd]
    exact ⟨rfl, rfl⟩
  · obtain ⟨hcapital, hsmall⟩ := CaseTable.cased_of_mem_letters (mem_letters_of_lower_eq h hd)
    exact ⟨hcapital.trans hsmall.symm, (CaseTable.not_caseIgnorable_of_cased hcapital).trans
      (CaseTable.not_caseIgnorable_of_cased hsmall).symm⟩

theorem sameCase_of_lower_eq {c d : CodePoint} (h : c.lower = d.lower) :
    c.isCased = d.isCased ∧ c.isCaseIgnorable = d.isCaseIgnorable := by
  by_cases hdotted : c = dottedCapitalI
  · rw [hdotted, (eq_dottedCapitalI_congr h).mp hdotted]
    exact ⟨rfl, rfl⟩
  · obtain ⟨small, hsmall⟩ := exists_lower_eq_singleton hdotted
    obtain ⟨hcased, hignorable⟩ := sameCase_lower hsmall
    obtain ⟨hcased', hignorable'⟩ := sameCase_lower (h.symm.trans hsmall)
    exact ⟨hcased.trans hcased'.symm, hignorable.trans hignorable'.symm⟩

theorem lower_capitalSigma : capitalSigma.lower = [smallSigma] := by decide +kernel

theorem lower_smallSigma : smallSigma.lower = [smallSigma] := by decide +kernel

/-- Two sigmas have the small one inside a word as their form. -/
theorem eq_of_lower_eq_smallSigma {c : CodePoint} (h : c.lower = [smallSigma]) :
    c = capitalSigma ∨ c = smallSigma := by
  by_cases hc : smallSigma = c
  · exact .inr hc.symm
  · have hsigma := CaseTable.sigma_of_mem_letters (mem_letters_of_lower_eq h hc)
    exact .inl (ext_value (hsigma.2.2 rfl))

/-- The small sigma at the end of a word is no other code point's form. -/
theorem eq_of_lower_eq_finalSigma {c : CodePoint} (h : c.lower = [finalSigma]) :
    c = finalSigma := by
  by_cases hc : finalSigma = c
  · exact hc.symm
  · have hsigma := CaseTable.sigma_of_mem_letters (mem_letters_of_lower_eq h hc)
    exact absurd rfl hsigma.2.1

/-- The lower-case form of a code point that is at the end of a word or not. -/
def lowerInWord (atEnd : Bool) (c : CodePoint) : Text :=
  if c = capitalSigma ∧ atEnd then [finalSigma] else c.lower

theorem lowerInWord_of_ne {c : CodePoint} (h : c ≠ capitalSigma) (atEnd : Bool) :
    lowerInWord atEnd c = c.lower :=
  if_neg fun hc => h hc.1

theorem length_lowerInWord (atEnd : Bool) (c : CodePoint) :
    (lowerInWord atEnd c).length = if c = dottedCapitalI then 2 else 1 := by
  unfold lowerInWord
  split
  · next hsigma =>
    rw [hsigma.1]
    rfl
  · exact c.length_lower

/-- By itself a capital sigma is equal to a small one, and only inside a word it still is
so in its place. -/
theorem lowerInWord_capitalSigma_eq_iff (atEnd : Bool) :
    lowerInWord atEnd capitalSigma = [smallSigma] ↔ atEnd = false := by
  cases atEnd with
  | false => exact iff_of_true lower_capitalSigma rfl
  | true => exact iff_of_false (by decide) (by decide)

/-- What a capital sigma is equal to in its place, it is equal to by itself, but for the
small sigma at the end of a word. -/
theorem eq_finalSigma_or_lower_eq {c : CodePoint} {atEnd : Bool}
    (h : lowerInWord atEnd capitalSigma = c.lower) :
    c = finalSigma ∨ capitalSigma.lower = c.lower := by
  cases atEnd with
  | false => exact .inr h
  | true => exact .inl (eq_of_lower_eq_finalSigma h.symm)

/-- Two code points are these two, in one order or the other. -/
def Opposed (a b c d : CodePoint) : Prop := (c = a ∧ d = b) ∨ (c = b ∧ d = a)

/-- What is equal by itself is equal in its place as well, but for a capital sigma at the
end of a word and a small sigma. -/
theorem lowerInWord_eq_iff {c d : CodePoint} (h : c.lower = d.lower) (atEnd : Bool) :
    lowerInWord atEnd c = lowerInWord atEnd d ↔
      (Opposed capitalSigma smallSigma c d → atEnd = false) := by
  have hne : smallSigma ≠ capitalSigma := by decide
  by_cases hcd : c = d
  · subst hcd
    refine iff_of_true rfl ?_
    rintro (⟨rfl, hsmall⟩ | ⟨hsmall, rfl⟩)
    · exact absurd hsmall.symm hne
    · exact absurd hsmall.symm hne
  · by_cases hc : c = capitalSigma
    · subst hc
      obtain rfl := (eq_of_lower_eq_smallSigma (h.symm.trans lower_capitalSigma)).resolve_left
        (Ne.symm hcd)
      rw [lowerInWord_of_ne hne, lower_smallSigma, lowerInWord_capitalSigma_eq_iff]
      exact ⟨fun hend _ => hend, fun hend => hend (.inl ⟨rfl, rfl⟩)⟩
    · by_cases hd : d = capitalSigma
      · subst hd
        obtain rfl := (eq_of_lower_eq_smallSigma (h.trans lower_capitalSigma)).resolve_left hc
        rw [lowerInWord_of_ne hne, lower_smallSigma, eq_comm, lowerInWord_capitalSigma_eq_iff]
        exact ⟨fun hend _ => hend, fun hend => hend (.inr ⟨rfl, rfl⟩)⟩
      · rw [lowerInWord_of_ne hc, lowerInWord_of_ne hd]
        refine iff_of_true h ?_
        rintro (⟨hc', -⟩ | ⟨-, hd'⟩)
        · exact absurd hc' hc
        · exact absurd hd' hd

/-- What is equal in its place is equal by itself as well, but for a capital sigma and
the small sigma at the end of a word. -/
theorem lower_eq_iff {c d : CodePoint} {atEnd atEnd' : Bool}
    (h : lowerInWord atEnd c = lowerInWord atEnd' d) :
    c.lower = d.lower ↔ ¬ Opposed capitalSigma finalSigma c d := by
  have hne : capitalSigma.lower ≠ finalSigma.lower := by decide +kernel
  constructor
  · rintro hlower (⟨rfl, rfl⟩ | ⟨rfl, rfl⟩)
    · exact hne hlower
    · exact hne hlower.symm
  · intro hopposed
    by_cases hc : c = capitalSigma
    · subst hc
      by_cases hd : d = capitalSigma
      · rw [hd]
      · rw [lowerInWord_of_ne hd] at h
        exact (eq_finalSigma_or_lower_eq h).resolve_left fun hfinal =>
          hopposed (.inl ⟨rfl, hfinal⟩)
    · rw [lowerInWord_of_ne hc] at h
      by_cases hd : d = capitalSigma
      · subst hd
        exact ((eq_finalSigma_or_lower_eq h.symm).resolve_left fun hfinal =>
          hopposed (.inr ⟨hfinal, rfl⟩)).symm
      · rwa [lowerInWord_of_ne hd] at h

end CodePoint

namespace Text

open CodePoint (dottedCapitalI capitalSigma smallSigma finalSigma lowerInWord Opposed)

variable {s t : Text}

/-- The lower-case form of each code point by itself. -/
def lowerEach (text : Text) : List Text := text.map CodePoint.lower

/-- A word ends at this index: a letter comes before it, and none after it. -/
def endsWordAt (text : Text) (i : Nat) : Bool :=
  startsCased (text.take i).reverse && !startsCased (text.drop (i + 1))

/-- The lower-case form of each code point in its place. -/
def lowerInPlace (text : Text) : List Text :=
  text.mapIdx fun i c => lowerInWord (text.endsWordAt i) c

theorem lowerAt_eq (before : Text) (c : CodePoint) (after : Text) :
    lowerAt before c after = lowerInWord (startsCased before && !startsCased after) c := by
  unfold lowerAt
  split
  · next hc =>
    subst hc
    simp [lowerInWord, CodePoint.lower_capitalSigma]
  · next hc => rw [CodePoint.lowerInWord_of_ne hc]

theorem lower_go_eq (before text : Text) :
    lower.go before text = (text.mapIdx fun i c => lowerAt ((text.take i).reverse ++ before) c
      (text.drop (i + 1))).flatten := by
  induction text generalizing before with
  | nil => rfl
  | cons c text ih =>
      rw [lower.go, ih, List.mapIdx_cons, List.flatten_cons]
      simp

/-- A text in lower case consists of the forms of its code points in their places. -/
theorem lower_eq_flatten (text : Text) : lower text = text.lowerInPlace.flatten := by
  rw [lower, lower_go_eq]
  simp only [List.append_nil, lowerAt_eq]
  rfl

theorem lower_singleton_eq (c : CodePoint) : lower [c] = c.lower := by
  rw [lower_singleton, lowerAt_eq]
  simp [lowerInWord, startsCased]

theorem startsCased_cons (c : CodePoint) (text : Text) :
    startsCased (c :: text) = if c.isCaseIgnorable then startsCased text else c.isCased := by
  cases hignorable : c.isCaseIgnorable <;> simp [startsCased, hignorable]

theorem startsCased_congr (h : s.lowerEach = t.lowerEach) : startsCased s = startsCased t := by
  induction s generalizing t with
  | nil => rw [List.map_eq_nil_iff.mp h.symm]
  | cons c s ih =>
      obtain ⟨d, t', rfl, hd, ht⟩ := List.map_eq_cons_iff.mp h.symm
      obtain ⟨hcased, hignorable⟩ := CodePoint.sameCase_of_lower_eq hd
      rw [startsCased_cons, startsCased_cons, ih ht.symm, hcased, hignorable]

/-- Where the code points have the same forms by themselves, words end alike. -/
theorem endsWordAt_congr (h : s.lowerEach = t.lowerEach) (i : Nat) :
    s.endsWordAt i = t.endsWordAt i := by
  have hbefore : lowerEach (s.take i).reverse = lowerEach (t.take i).reverse := by
    simp only [lowerEach, List.map_reverse, List.map_take] at h ⊢
    rw [h]
  have hafter : lowerEach (s.drop (i + 1)) = lowerEach (t.drop (i + 1)) := by
    simp only [lowerEach, List.map_drop] at h ⊢
    rw [h]
  rw [endsWordAt, endsWordAt, startsCased_congr hbefore, startsCased_congr hafter]

theorem getElem?_lowerInPlace (text : Text) (i : Nat) :
    text.lowerInPlace[i]? = text[i]?.map (lowerInWord (text.endsWordAt i)) :=
  List.getElem?_mapIdx

theorem getElem?_lowerEach (text : Text) (i : Nat) :
    text.lowerEach[i]? = text[i]?.map CodePoint.lower :=
  List.getElem?_map

/-- At this index two texts have these two code points, in one order or the other. -/
def OpposedAt (a b : CodePoint) (s t : Text) (i : Nat) : Prop :=
  (s[i]? = some a ∧ t[i]? = some b) ∨ (s[i]? = some b ∧ t[i]? = some a)

theorem opposedAt_iff {a b c d : CodePoint} {i : Nat} (hs : s[i]? = some c) (ht : t[i]? = some d) :
    OpposedAt a b s t i ↔ Opposed a b c d := by
  simp only [OpposedAt, Opposed, hs, ht, Option.some.injEq]

theorem not_opposedAt_of_none {a b : CodePoint} {i : Nat} (h : s[i]? = none) :
    ¬ OpposedAt a b s t i := by
  simp [OpposedAt, h]

/-- Texts of one length are compared index by index. -/
theorem pairs_at {i : Nat} (h : s.length = t.length) :
    (s[i]? = none ∧ t[i]? = none) ∨ ∃ c d, s[i]? = some c ∧ t[i]? = some d := by
  by_cases hi : i < s.length
  · exact .inr ⟨_, _, List.getElem?_eq_getElem hi, List.getElem?_eq_getElem (h ▸ hi)⟩
  · exact .inl ⟨List.getElem?_eq_none (by omega), List.getElem?_eq_none (by omega)⟩

theorem lowerInPlace_eq_iff_of_lowerEach (h : s.lowerEach = t.lowerEach) :
    s.lowerInPlace = t.lowerInPlace ↔
      ∀ i, OpposedAt capitalSigma smallSigma s t i → s.endsWordAt i = false := by
  have hlength : s.length = t.length := by
    simpa [lowerEach] using congrArg List.length h
  rw [List.ext_getElem?_iff]
  refine forall_congr' fun i => ?_
  have hform := congrArg (·[i]?) h
  simp only [getElem?_lowerEach] at hform
  rw [getElem?_lowerInPlace, getElem?_lowerInPlace, ← endsWordAt_congr h]
  rcases pairs_at hlength (i := i) with ⟨hs, ht⟩ | ⟨c, d, hs, ht⟩
  · rw [hs, ht]
    exact iff_of_true rfl fun hopposed => absurd hopposed (not_opposedAt_of_none hs)
  · rw [opposedAt_iff hs ht, hs, ht, Option.map_some, Option.map_some, Option.some.injEq]
    rw [hs, ht] at hform
    exact CodePoint.lowerInWord_eq_iff (Option.some.inj hform) _

theorem lowerEach_eq_iff_of_lowerInPlace (h : s.lowerInPlace = t.lowerInPlace) :
    s.lowerEach = t.lowerEach ↔ ∀ i, ¬ OpposedAt capitalSigma finalSigma s t i := by
  have hlength : s.length = t.length := by
    simpa [lowerInPlace] using congrArg List.length h
  rw [List.ext_getElem?_iff]
  refine forall_congr' fun i => ?_
  have hform := congrArg (·[i]?) h
  simp only [getElem?_lowerInPlace] at hform
  rw [getElem?_lowerEach, getElem?_lowerEach]
  rcases pairs_at hlength (i := i) with ⟨hs, ht⟩ | ⟨c, d, hs, ht⟩
  · rw [hs, ht]
    exact iff_of_true rfl (not_opposedAt_of_none hs)
  · rw [opposedAt_iff hs ht, hs, ht, Option.map_some, Option.map_some, Option.some.injEq]
    rw [hs, ht] at hform
    exact CodePoint.lower_eq_iff (Option.some.inj hform)

theorem count_eq_of_same_places {c : CodePoint}
    (h : ∀ i : Nat, s[i]? = some c ↔ t[i]? = some c) : s.count c = t.count c := by
  induction s generalizing t with
  | nil =>
      refine (List.count_eq_zero_of_not_mem fun hc => ?_).symm
      obtain ⟨i, hi⟩ := List.getElem?_of_mem hc
      cases (h i).mpr hi
  | cons a s ih =>
      cases t with
      | nil =>
          refine List.count_eq_zero_of_not_mem fun hc => ?_
          obtain ⟨i, hi⟩ := List.getElem?_of_mem hc
          cases (h i).mp hi
      | cons b t =>
          have hhead : a = c ↔ b = c := by simpa using h 0
          have htail := ih fun i => by simpa using h (i + 1)
          rw [List.count_cons, List.count_cons, htail]
          simp only [beq_iff_eq, hhead]

/-- How many code points the form of a code point has. -/
def formLength (c : CodePoint) : Nat := if c = dottedCapitalI then 2 else 1

theorem map_length_lowerInPlace (text : Text) :
    text.lowerInPlace.map List.length = text.map formLength := by
  refine List.ext_getElem? fun i => ?_
  rw [List.getElem?_map, List.getElem?_map, getElem?_lowerInPlace, Option.map_map]
  refine congrArg (fun f => Option.map f text[i]?) (funext fun c => ?_)
  exact CodePoint.length_lowerInWord _ c

theorem map_length_lowerEach (text : Text) :
    text.lowerEach.map List.length = text.map formLength := by
  rw [lowerEach, List.map_map]
  exact List.map_congr_left fun c _ => c.length_lower

/-- Two texts that are equal in lower case are so code point by code point if the forms
have the same lengths. -/
theorem lowerInPlace_eq_iff (h : lower s = lower t) :
    s.lowerInPlace = t.lowerInPlace ↔ s.map formLength = t.map formLength := by
  rw [lower_eq_flatten, lower_eq_flatten] at h
  rw [List.eq_iff_flatten_eq, and_iff_right h, map_length_lowerInPlace,
    map_length_lowerInPlace]

theorem getElem?_eq_dottedCapitalI_iff {i : Nat} :
    s[i]? = some dottedCapitalI ↔ (s.map formLength)[i]? = some 2 := by
  rw [List.getElem?_map]
  cases s[i]? with
  | none => simp
  | some c => simp [formLength]

/-- The forms have the same lengths if the dotted capitals are in the same places. -/
theorem map_formLength_eq_iff (h : lower s = lower t) :
    s.map formLength = t.map formLength ↔
      ∀ i : Nat, s[i]? = some dottedCapitalI ↔ t[i]? = some dottedCapitalI := by
  constructor
  · intro hforms i
    rw [getElem?_eq_dottedCapitalI_iff, getElem?_eq_dottedCapitalI_iff, hforms]
  · intro hplaces
    have hlength := congrArg List.length h
    rw [length_lower, length_lower, count_eq_of_same_places hplaces] at hlength
    refine List.ext_getElem? fun i => ?_
    rw [List.getElem?_map, List.getElem?_map]
    rcases pairs_at (Nat.add_right_cancel hlength) (i := i) with ⟨hs, ht⟩ | ⟨c, d, hs, ht⟩
    · rw [hs, ht]
    · have hplace := hplaces i
      rw [hs, ht, Option.some.injEq, Option.some.injEq] at hplace
      rw [hs, ht, Option.map_some, Option.map_some]
      simp only [formLength, hplace]

theorem map_formLength_of_lowerEach (h : s.lowerEach = t.lowerEach) :
    s.map formLength = t.map formLength := by
  rw [← map_length_lowerEach, h, map_length_lowerEach]

/-- **From each to all.**  If the code points of two texts are equal in lower case each
for itself, the texts are equal in lower case, unless a capital sigma at the end of a
word in one of them is a small sigma in the other. -/
theorem lower_eq_iff_of_lowerEach (h : s.lowerEach = t.lowerEach) :
    lower s = lower t ↔
      ∀ i, OpposedAt capitalSigma smallSigma s t i → s.endsWordAt i = false := by
  rw [← lowerInPlace_eq_iff_of_lowerEach h]
  constructor
  · intro hlower
    exact (lowerInPlace_eq_iff hlower).mpr (map_formLength_of_lowerEach h)
  · intro hforms
    rw [lower_eq_flatten, lower_eq_flatten, hforms]

/-- **From all to each.**  If two texts are equal in lower case, their code points are so
each for itself, unless a dotted capital is in one of them where none is in the other,
or a capital sigma in one is a small sigma at the end of a word in the other. -/
theorem lowerEach_eq_iff_of_lower (h : lower s = lower t) :
    s.lowerEach = t.lowerEach ↔
      (∀ i : Nat, s[i]? = some dottedCapitalI ↔ t[i]? = some dottedCapitalI) ∧
      ∀ i, ¬ OpposedAt capitalSigma finalSigma s t i := by
  rw [← map_formLength_eq_iff h]
  constructor
  · intro heach
    have hforms := map_formLength_of_lowerEach heach
    have hplace := (lowerInPlace_eq_iff h).mpr hforms
    exact ⟨hforms, (lowerEach_eq_iff_of_lowerInPlace hplace).mp heach⟩
  · intro ⟨hforms, hopposed⟩
    have hplace := (lowerInPlace_eq_iff h).mpr hforms
    exact (lowerEach_eq_iff_of_lowerInPlace hplace).mpr hopposed

end Text
end ParserAlgebra
