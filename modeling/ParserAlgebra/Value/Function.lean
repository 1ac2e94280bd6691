import ParserAlgebra.Value.Basic
/-!
# Calling functions on values

The meaning of the function descriptions.  A function that does not take values of the kind of its
argument answers `Fault.wrongKind`; one that takes the kind but not this value gives its reason.
-/

namespace ParserAlgebra

namespace Value

/-- The concatenation of a list of texts. -/
def join : Value → Except Fault Value
  | .list vs =>
    match texts? vs with
    | some ts => .ok (.text ts.flatten)
    | none => .error .wrongKind
  | _ => .error .wrongKind

def upper : Value → Except Fault Value
  | .text t => .ok (.text (t.map CodePoint.toUpper))
  | _ => .error .wrongKind

def length : Value → Except Fault Value
  | .text t => .ok (.int t.length)
  | .list vs => .ok (.int vs.length)
  | _ => .error .wrongKind

/-- The integer of a text of one or more decimal digits. -/
def toInt : Value → Except Fault Value
  | .text t =>
    if !t.isEmpty && t.all Radix.decimal.hasDigit then (Numeral.read .decimal t).map (.int ·)
    else .error (.rejected "to_int")
  | _ => .error .wrongKind

def double : Value → Except Fault Value
  | .int n => .ok (.int (2 * n))
  | _ => .error .wrongKind

def head : Value → Except Fault Value
  | .text [] => .error (.rejected "head")
  | .text (c :: _) => .ok (.text [c])
  | .list [] => .error (.rejected "head")
  | .list (v :: _) => .ok v
  | _ => .error .wrongKind

/-- The value of a group: no value if it took no part in the match. -/
def ofGroup : Option Text → Value
  | some t => .text t
  | none => .nothing

/-- A group of a match by its number, the whole match being group zero. -/
def group (index : Int) : Value → Except Fault Value
  | .regexMatch _ whole groups =>
    if index < 0 then .error .noSuchGroup
    else
      match (some whole :: groups)[index.toNat]? with
      | some g => .ok (ofGroup g)
      | none => .error .noSuchGroup
  | _ => .error .wrongKind

end Value

mutual

/-- The result of a function on an argument. -/
def Function.call : Function → Value → Except Fault Value
  | .identity, v => .ok v
  | .wrap, v => .ok (.list [v])
  | .const u, _ => .ok u
  | .record name, v => .ok (.record name v)
  | .join, v => v.join
  | .upper, v => v.upper
  | .length, v => v.length
  | .toInt, v => v.toInt
  | .double, v => v.double
  | .head, v => v.head
  | .refuse reason, _ => .error (.rejected reason)
  | .pairing, v => .ok (.function none (.pairWith v))
  | .pairWith u, v => .ok (.list [u, v])
  | .group index, v => v.group index
  | .compose steps, v => Function.callAll steps v

/-- The result of calling one function after another. -/
def Function.callAll : List Function → Value → Except Fault Value
  | [], v => .ok v
  | f :: fs, v => do Function.callAll fs (← Function.call f v)

end

/-- Calls a value as a function; only functions can be called. -/
def Value.call : Value → Value → Except Fault Value
  | .function _ f, v => f.call v
  | _, _ => .error .wrongKind

end ParserAlgebra
