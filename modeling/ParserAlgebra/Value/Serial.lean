import ParserAlgebra.Reply
/-!
# Serial numbers

Matches and functions are told apart by their serial numbers.  Keeping a value numbers each of them
that has no number yet, also inside lists and records and inside the values that a function holds.
What has a number keeps it, so all copies of a kept value remain the same.

* `written?_numbered`: serial numbers do not show in the written form.
-/

namespace ParserAlgebra

/-- A serial number, the next free one if it is missing. -/
def Value.serialOr (serial : Option Nat) : StateM Nat (Option Nat) :=
  match serial with
  | some m => return some m
  | none => modifyGet fun n => (some n, n + 1)

mutual

/-- The value with every match and function in it numbered. -/
def Value.numbered : Value → StateM Nat Value
  | .list vs => return .list (← Value.numberedAll vs)
  | .regexMatch m whole groups => return .regexMatch (← Value.serialOr m) whole groups
  | .record name v => return .record name (← Value.numbered v)
  | .function m f => do
    let m ← Value.serialOr m
    return .function m (← Function.numbered f)
  | v => return v

/-- The values of a list, numbered in order. -/
def Value.numberedAll : List Value → StateM Nat (List Value)
  | [] => return []
  | v :: vs => do
    let v ← Value.numbered v
    return v :: (← Value.numberedAll vs)

/-- The function with the values that it holds numbered. -/
def Function.numbered : Function → StateM Nat Function
  | .const v => return .const (← Value.numbered v)
  | .pairWith v => return .pairWith (← Value.numbered v)
  | .compose steps => return .compose (← Function.numberedAll steps)
  | f => return f

/-- The functions of a list, numbered in order. -/
def Function.numberedAll : List Function → StateM Nat (List Function)
  | [] => return []
  | f :: fs => do
    let f ← Function.numbered f
    return f :: (← Function.numberedAll fs)

end

namespace Value

mutual

/-- Serial numbers do not show. -/
theorem written?_numbered (v : Value) (n : Nat) : (v.numbered.run n).1.written? = v.written? := by
  cases v with
  | list vs =>
    change (list ((numberedAll vs).run n).1).written? = _
    simp only [written?, writtenAll?_numberedAll vs n]
  | _ => rfl

/-- Serial numbers do not show in any item of a list. -/
theorem writtenAll?_numberedAll (vs : List Value) (n : Nat) :
    writtenAll? ((numberedAll vs).run n).1 = writtenAll? vs := by
  cases vs with
  | nil => rfl
  | cons v vs =>
    change writtenAll? ((v.numbered.run n).1 ::
      ((numberedAll vs).run (v.numbered.run n).2).1) = _
    simp only [writtenAll?, written?_numbered v n, writtenAll?_numberedAll vs]

end

end Value

/-- The reply with its output numbered. -/
def Reply.numbered : Reply → StateM Nat Reply
  | success v rest => return success (← v.numbered) rest
  | r => return r

end ParserAlgebra
