import ParserAlgebra.Diagnosis
import ParserAlgebra.Value.Written
/-!
# Replies

The answer of a parser to a text: a success with an output and the rest of the text, a success
whose output was thrown away, or a failure with a label for what was expected and the text at the
point of failure.  Sequencing and choice do not tell the two kinds of success apart; concatenation
does, because a discarded output contributes nothing.

* `accepted?_alternative`: the alternative of two replies accepts what the first accepts, else
  what the second accepts.
* `append_failure` and its like: of two replies in sequence the first failure wins.
* `map_of_accepted?` and its like: what an operation does to a success follows from what the
  success accepts.
-/

namespace ParserAlgebra

/-- The answer of a parser. -/
inductive Reply where
  | success (output : Value) (rest : Text)
  /-- A success whose output was thrown away. -/
  | discarded (rest : Text)
  /-- A failure, at the point where `rest` is left. -/
  | failure (expected rest : Text)

namespace Reply

/-- The text that is left. -/
def rest : Reply → Text
  | success _ rest => rest
  | discarded rest => rest
  | failure _ rest => rest

def isSuccess : Reply → Bool
  | failure _ _ => false
  | _ => true

/-- The output and the rest of a success. -/
def accepted? : Reply → Option (Value × Text)
  | success v rest => some (v, rest)
  | discarded rest => some (.nothing, rest)
  | failure _ _ => none

/-- The output, which failures do not have. -/
def output : Reply → Except Fault Value
  | success v _ => .ok v
  | discarded _ => .ok .nothing
  | failure expected _ => .error (.outputOfFailure expected)

/-- The label, which only failures have. -/
def expected : Reply → Except Fault Text
  | failure expected _ => .ok expected
  | _ => .error .expectedOfSuccess

/-- Applies a function to the output of a success. -/
def map (f : Value → Except Fault Value) : Reply → Except Fault Reply
  | success v rest => do return success (← f v) rest
  | discarded rest => do return success (← f .nothing) rest
  | failure expected rest => .ok (failure expected rest)

/-- The first reply, unless it is a failure and the second is not. -/
def alternative : Reply → Reply → Reply
  | failure expected rest, s => if s.isSuccess then s else failure expected rest
  | r, _ => r

/-- Joins a reply with that of a parser run on its rest.  The first failure wins, and a discarded
output contributes nothing. -/
def append (concat : Value → Value → Except Fault Value) : Reply → Reply → Except Fault Reply
  | failure expected rest, _ => .ok (failure expected rest)
  | discarded _, s => .ok s
  | success _ _, failure expected rest => .ok (failure expected rest)
  | success v _, discarded rest => .ok (success v rest)
  | success v _, success w rest => do return success (← concat v w) rest

/-- Throws the output of a success away. -/
def ignore : Reply → Reply
  | success _ rest => discarded rest
  | r => r

/-- The same reply with another rest. -/
def withRest (rest : Text) : Reply → Reply
  | success v _ => success v rest
  | discarded _ => discarded rest
  | failure expected _ => failure expected rest

/-- Equality of replies: the same variant with equal parts. -/
def same : Reply → Reply → Bool
  | success u s, success v t => u.same v && s == t
  | discarded s, discarded t => s == t
  | failure e s, failure f t => e == f && s == t
  | _, _ => false

/-- The name of the variant in the written form. -/
def variant : Reply → String
  | success _ _ => "ParseSuccess"
  | discarded _ => "DiscardedSuccess"
  | failure _ _ => "ParseFailure"

/-- The written form, if the output has one. -/
def written? (r : Reply) : Option Text :=
  let close := Text.ofString "remainder=" ++ r.rest.quoted ++ Text.ofString ")"
  let start := Text.ofString (r.variant ++ "(")
  match r with
  | success v _ => v.written?.map fun t => start ++ t ++ Text.ofString ", " ++ close
  | discarded _ => some (start ++ close)
  | failure expected _ => some (start ++ expected.quoted ++ Text.ofString ", " ++ close)

/-- The diagnosis of a failure in a source, by default in its own rest.  In a source that does not
end with that rest the failure is located at the beginning. -/
def diagnosis (r : Reply) (source : Option Text) : Except Fault Diagnosis :=
  match r with
  | failure expected rest =>
    let source := source.getD rest
    let pos := if rest.isSuffixOf source then source.length - rest.length else 0
    .ok (.make source pos expected (some rest))
  | _ => .error .notAFailure

@[simp] theorem accepted?_eq_none_iff {r : Reply} : r.accepted? = none ↔ r.isSuccess = false := by
  cases r <;> simp [accepted?, isSuccess]

@[simp] theorem accepted?_alternative (r s : Reply) :
    (r.alternative s).accepted? = r.accepted?.or s.accepted? := by
  cases r <;> cases s <;> rfl

@[simp] theorem append_failure (concat : Value → Value → Except Fault Value) (e t : Text)
    (s : Reply) : append concat (failure e t) s = .ok (failure e t) := rfl

@[simp] theorem append_discarded (concat : Value → Value → Except Fault Value) (t : Text)
    (s : Reply) : append concat (discarded t) s = .ok s := rfl

@[simp] theorem rest_withRest (r : Reply) (t : Text) : (r.withRest t).rest = t := by
  cases r <;> rfl

theorem eq_failure_of_accepted? {r : Reply} (h : r.accepted? = none) :
    ∃ e t, r = failure e t := by
  cases r with
  | success v t => cases h
  | discarded t => cases h
  | failure e t => exact ⟨e, t, rfl⟩

theorem fails_or_accepts (r : Reply) :
    (∃ e t, r = failure e t) ∨ ∃ v t, r.accepted? = some (v, t) := by
  cases r with
  | success v t => exact .inr ⟨v, t, rfl⟩
  | discarded t => exact .inr ⟨.nothing, t, rfl⟩
  | failure e t => exact .inl ⟨e, t, rfl⟩

/-- A reply that is a success is not given up for another. -/
theorem alternative_of_isSuccess {r : Reply} (h : r.isSuccess) (s : Reply) :
    r.alternative s = r := by
  cases r with
  | success v rest => rfl
  | discarded rest => rfl
  | failure expected rest => cases h

/-- The first success of three is found however they are put together. -/
theorem alternative_assoc (r s u : Reply) :
    (r.alternative s).alternative u = r.alternative (s.alternative u) := by
  cases r <;> cases s <;> cases u <;> rfl

section Accepted

variable {r : Reply} {v : Value} {rest : Text}

theorem isSuccess_of_accepted? (h : r.accepted? = some (v, rest)) : r.isSuccess := by
  cases r <;> cases h <;> rfl

theorem rest_of_accepted? (h : r.accepted? = some (v, rest)) : r.rest = rest := by
  cases r <;> cases h <;> rfl

theorem map_of_accepted? (h : r.accepted? = some (v, rest)) (f : Value → Except Fault Value) :
    r.map f = do return success (← f v) rest := by
  cases r <;> cases h <;> rfl

theorem ignore_of_accepted? (h : r.accepted? = some (v, rest)) : r.ignore = discarded rest := by
  cases r <;> cases h <;> rfl

theorem alternative_of_accepted? (h : r.accepted? = some (v, rest)) (s : Reply) :
    r.alternative s = r := by
  cases r <;> cases h <;> rfl

end Accepted

end Reply

end ParserAlgebra
