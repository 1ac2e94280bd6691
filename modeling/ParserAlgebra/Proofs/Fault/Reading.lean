import ParserAlgebra.Grammar
/-!
# Reading replies

A success has an output and no label, a failure has a label and no output.  The
accessors `Reply.output` and `Reply.expected` refuse, with a fault, to read what
is not there.  A run goes by the cases of a reply and takes what the case holds,
so nothing can be refused to it.  Here the same run is written with the
accessors: whatever puts parsers together asks a reply whether it is a success,
and then reads the one or the other from it.

* `Leaf.runReading`, `Parser.evalReading`, `Grammar.runReading`: runs that read
  replies through the accessors.
* `Grammar.runReading_eq`: they are the same runs, so no reading is refused.
  There is one lemma for each place at which a reply is read, and it says that
  the test before the reading is the right one.
-/

namespace ParserAlgebra

namespace Run

theorem ofExcept_ok_bind {α β : Type} (a : α) (f : α → Run β) :
    ofExcept (.ok a) >>= f = f a :=
  pure_bind a f

end Run

namespace Reply

/-- Goes on from the output of a success; a failure stays as it is. -/
def readSuccess (r : Reply) (next : Value → Text → Run Reply) : Run Reply :=
  if r.isSuccess then do next (← Run.ofExcept r.output) r.rest else return r

/-- Replaces a failure, whose label is read if debugging is on. -/
def readFailure (settings : Settings) (r : Reply) (record : Text → Record)
    (failure : Reply) : Run Reply :=
  if r.isSuccess then return r
  else do
    if settings.debug then Run.log (record (← Run.ofExcept r.expected))
    return failure

/-- The reply with another rest.  An output that was not thrown away is read. -/
def moveReading (rest : Text) : Reply → Except Fault Reply
  | discarded _ => .ok (discarded rest)
  | r => do return success (← r.output) rest

/-- Joins a reply with the next one, whose output is read if it is a success and
was not thrown away. -/
def appendReading (concat : Value → Value → Except Fault Value) :
    Reply → Reply → Except Fault Reply
  | failure expected rest, _ => .ok (failure expected rest)
  | discarded _, s => .ok s
  | success v _, s =>
    if s.isSuccess then
      match s with
      | discarded rest => .ok (success v rest)
      | s => do return success (← concat v (← s.output)) s.rest
    else .ok s

theorem readSuccess_eq (r : Reply) (next : Value → Text → Run Reply) :
    r.readSuccess next = r.onSuccess next := by
  cases r with
  | success v rest => exact Run.ofExcept_ok_bind v _
  | discarded rest => exact Run.ofExcept_ok_bind _ _
  | failure expected rest => rfl

theorem readFailure_eq (settings : Settings) (r : Reply) (record : Text → Record)
    (failure : Reply) :
    r.readFailure settings record failure = r.onFailure fun expected => do
      Parser.record settings (record expected)
      return failure := by
  cases r with
  | success v rest => rfl
  | discarded rest => rfl
  | failure expected rest =>
      simp only [readFailure, onFailure, Parser.record]
      cases settings.debug with
      | false => rfl
      | true => rfl

theorem moveReading_eq {r : Reply} (hr : r.isSuccess) (rest : Text) :
    r.moveReading rest = .ok (r.withRest rest) := by
  cases r with
  | success v t => rfl
  | discarded t => rfl
  | failure expected t => cases hr

theorem appendReading_eq (concat : Value → Value → Except Fault Value)
    (r s : Reply) : r.appendReading concat s = r.append concat s := by
  cases r with
  | success v rest => cases s <;> rfl
  | discarded rest => rfl
  | failure expected rest => rfl

end Reply

/-- A repetition that reads the output of each step after which it goes on. -/
def chainReading (step : Text → Run Reply) :
    (bound : Nat) → Text → Run (List Value × Text)
  | 0, input => do
    let _ ← step input
    return ([], input)
  | bound + 1, input => do
    let r ← step input
    if r.isSuccess ∧ r.rest.length < input.length then
      let v ← Run.ofExcept r.output
      let (vs, last) ← chainReading step bound r.rest
      return (v :: vs, last)
    else return ([], input)

theorem chainReading_eq (step : Text → Run Reply) (bound : Nat) (input : Text) :
    chainReading step bound input = chain step bound input := by
  induction bound generalizing input with
  | zero => rfl
  | succ bound ih =>
      simp only [chainReading, chain]
      congr 1
      funext r
      cases r with
      | success v rest =>
          simp only [Reply.isSuccess, Reply.rest, Reply.output, Reply.accepted?,
            Run.ofExcept_ok_bind, ih, true_and]
      | discarded rest =>
          simp only [Reply.isSuccess, Reply.rest, Reply.output, Reply.accepted?,
            Run.ofExcept_ok_bind, ih, true_and]
      | failure expected rest => rfl

namespace Leaf

/-- A run of code points that must not be empty: the run that may be empty, whose
output is read in any case. -/
def takeWhile1Reading (p : CodePoint → Bool) (label input : Text) :
    Outcome Reply := do
  let r ← (takeWhile p).run input
  match ← Outcome.ofExcept r.output with
  | .text [] => return .failure label input
  | _ => return r

theorem takeWhile1Reading_eq (p : CodePoint → Bool) (label input : Text) :
    takeWhile1Reading p label input = (takeWhile1 p label).run input := by
  show (match Value.text (input.takeWhile p) with
    | .text [] => .ok (.failure label input)
    | _ => .ok (.success (.text (input.takeWhile p)) (input.dropWhile p)) :
      Outcome Reply) = _
  simp only [run]
  cases input.takeWhile p with
  | nil => rfl
  | cons c digits => rfl

end Leaf

namespace Integer

/-- The reply for the digits that a leaf has found, or `failure` if it has found
none. -/
def readDigits (negative : Bool) (r : Radix) (digits failure : Reply) :
    Except Fault Reply :=
  if digits.isSuccess then do
    match ← digits.output with
    | .text t =>
      let n ← Numeral.read r t
      return .success (.int (if negative then -(n : Int) else n)) digits.rest
    | _ => .error .wrongKind
  else .ok failure

/-- Reads an integer, whose digits are found by a leaf. -/
def parseReading (radix : Option Radix) (input : Text) : Outcome Reply :=
  let (negative, rest) := splitSign input
  let plain (r : Radix) : Outcome Reply := do
    let digits ← Leaf.takeWhile1Reading r.hasDigit "takeWhile1" rest
    .ofExcept (readDigits negative r digits (.failure "integer" input))
  match radix with
  | some r => plain r
  | none =>
    match Radix.marked? rest with
    | some (mark, r, rest) => do
      let digits ← Leaf.takeWhile1Reading r.hasDigit (missingDigit mark r) rest
      .ofExcept (readDigits negative r digits digits)
    | none => plain .decimal

theorem readDigits_eq (negative : Bool) (r : Radix) (label text : Text)
    (failure : Reply) :
    (do
      let digits ← Leaf.takeWhile1Reading r.hasDigit label text
      .ofExcept (readDigits negative r digits failure) : Outcome Reply) =
      .ofExcept (ofDigits negative r text failure) := by
  rw [Leaf.takeWhile1Reading_eq]
  simp only [Leaf.run, ofDigits]
  cases (text.takeWhile r.hasDigit).isEmpty with
  | true => rfl
  | false => rfl

/-- A missing digit after a mark is reported by the reply of the leaf itself. -/
theorem readDigits_self_eq (negative : Bool) (r : Radix) (label text : Text) :
    (do
      let digits ← Leaf.takeWhile1Reading r.hasDigit label text
      .ofExcept (readDigits negative r digits digits) : Outcome Reply) =
      .ofExcept (ofDigits negative r text (.failure label text)) := by
  rw [Leaf.takeWhile1Reading_eq]
  simp only [Leaf.run, ofDigits]
  cases (text.takeWhile r.hasDigit).isEmpty with
  | true => rfl
  | false => rfl

theorem parseReading_eq (radix : Option Radix) (input : Text) :
    parseReading radix input = .ofExcept (parse radix input) := by
  unfold parseReading parse
  cases radix with
  | some r => exact readDigits_eq _ r _ _ _
  | none =>
      simp only
      cases Radix.marked? (splitSign input).2 with
      | none => exact readDigits_eq _ .decimal _ _ _
      | some found => exact readDigits_self_eq _ found.2.1 _ _

end Integer

namespace Leaf

/-- The reply of a leaf to a text.  Two leaves are made from another one and read
its reply. -/
def runReading : Leaf → Text → Outcome Reply
  | takeWhile1 p label, input => takeWhile1Reading p label input
  | integer radix, input => Integer.parseReading radix input
  | l, input => l.run input

theorem runReading_eq (l : Leaf) (input : Text) :
    l.runReading input = l.run input := by
  cases l with
  | takeWhile1 p label => exact takeWhile1Reading_eq p label input
  | integer radix => exact Integer.parseReading_eq radix input
  | _ => rfl

end Leaf

namespace Parser

/-- The run of a parser on an input, given the runs of the cells.  All that is
taken from a reply is read through the accessors. -/
def evalReading (settings : Settings) (enter : Nat → Text → Run Reply) :
    Parser → Text → Run Reply
  | leaf l, input => do
    Run.emit (.entered (leaf l) input)
    Run.ofOutcome (l.runReading input)
  | map p f, input => do
    Run.emit (.entered (map p f) input)
    let r ← p.evalReading settings enter input
    Run.ofExcept (r.map f)
  | bind p f, input => do
    Run.emit (.entered (bind p f) input)
    let r ← p.evalReading settings enter input
    r.readSuccess fun v rest => (f v).evalReading settings enter rest
  | orElse p q, input => do
    Run.emit (.entered (orElse p q) input)
    let r ← p.evalReading settings enter input
    if r.isSuccess && !settings.eagerChoice then return r
    else return r.alternative (← q.evalReading settings enter input)
  | label text p, input => do
    Run.emit (.entered (label text p) input)
    record settings (.trying text)
    let r ← p.evalReading settings enter input
    r.readFailure settings (fun expected => .failed text expected (input.take 20))
      (.failure text input)
  | ignore p, input => do
    Run.emit (.entered (ignore p) input)
    let r ← p.evalReading settings enter input
    return r.ignore
  | keepFirst p q, input => do
    Run.emit (.entered (keepFirst p q) input)
    let r ← p.evalReading settings enter input
    if r.isSuccess then
      let s ← q.evalReading settings enter r.rest
      if s.isSuccess then Run.ofExcept (r.moveReading s.rest) else return s
    else return r
  | notFollowedBy p, input => do
    Run.emit (.entered (notFollowedBy p) input)
    let r ← p.evalReading settings enter input
    return if r.isSuccess then .failure notFollowedByLabel input
      else .discarded input
  | append p q concat, input => do
    Run.emit (.entered (append p q concat) input)
    let r ← p.evalReading settings enter input
    if r.isSuccess then
      let s ← q.evalReading settings enter r.rest
      Run.ofExcept (r.appendReading concat s)
    else return r
  | many p, input => do
    Run.emit (.entered (many p) input)
    let (vs, rest) ← chainReading (p.evalReading settings enter) input.length input
    return .success (.list vs) rest
  | lookAhead p, input => do
    Run.emit (.entered (lookAhead p) input)
    let r ← p.evalReading settings enter input
    if r.isSuccess then Run.ofExcept (r.moveReading input) else return r
  | probe tag p, input => do
    Run.emit (.entered (probe tag p) input)
    Run.emit (.probed tag input)
    p.evalReading settings enter input
  | cell id, input => do
    Run.emit (.entered (cell id) input)
    enter id input

variable {settings : Settings} {enter : Nat → Text → Run Reply}

/-- **No reading is refused.**  Reading replies through the accessors is the same
as going by their cases. -/
theorem evalReading_eq (p : Parser) (input : Text) :
    p.evalReading settings enter input = p.eval settings enter input := by
  induction p generalizing input with
  | leaf l => simp only [evalReading, eval, Leaf.runReading_eq]
  | map p f ih => simp only [evalReading, eval, ih]
  | bind p f ihp ihf => simp only [evalReading, eval, ihp, ihf, Reply.readSuccess_eq]
  | orElse p q ihp ihq => simp only [evalReading, eval, ihp, ihq]
  | label text p ih => simp only [evalReading, eval, ih, Reply.readFailure_eq]
  | ignore p ih => simp only [evalReading, eval, ih]
  | keepFirst p q ihp ihq =>
      have hkeep : ∀ r : Reply, r.isSuccess → ∀ s : Reply,
          (if s.isSuccess then Run.ofExcept (r.moveReading s.rest) else return s) =
            (return if s.isSuccess then r.withRest s.rest else s : Run Reply) := by
        intro r hr s
        rw [Reply.moveReading_eq hr]
        split <;> rfl
      simp only [evalReading, eval, ihp, ihq]
      refine bind_congr fun _ => bind_congr fun r => ?_
      split
      · next hr => exact bind_congr fun s => hkeep r hr s
      · rfl
  | notFollowedBy p ih => simp only [evalReading, eval, ih]
  | append p q concat ihp ihq =>
      simp only [evalReading, eval, ihp, ihq, Reply.appendReading_eq]
  | many p ih =>
      simp only [evalReading, eval, chainReading_eq, funext ih]
  | lookAhead p ih =>
      simp only [evalReading, eval, ih]
      refine bind_congr fun _ => bind_congr fun r => ?_
      split
      · next hr =>
        rw [Reply.moveReading_eq hr]
        rfl
      · rfl
  | probe tag p ih => simp only [evalReading, eval, ih]
  | cell id => rfl

end Parser

namespace Grammar

/-- The run of a cell, with all that is taken from a reply read through the
accessors. -/
def enterReading (g : Grammar) (settings : Settings) :
    (limit id : Nat) → Text → Run Reply
  | 0, _, _ => .ofOutcome (.error .unfinished)
  | limit + 1, id, input =>
    match g.cells[id]? with
    | some (some definition) =>
      definition.evalReading settings (enterReading g settings limit) input
    | _ => .ofOutcome (.error (.fault .undefinedCell))

/-- The run of a parser, with all that is taken from a reply read through the
accessors. -/
def runReading (g : Grammar) (settings : Settings) (limit : Nat) (p : Parser)
    (input : Text) : Run Reply :=
  p.evalReading settings (g.enterReading settings limit) input

theorem enterReading_eq (g : Grammar) (settings : Settings) (limit : Nat) :
    g.enterReading settings limit = g.enter settings limit := by
  induction limit with
  | zero => rfl
  | succ limit ih =>
      funext id input
      simp only [enterReading, enter, ih]
      cases g.cells[id]? with
      | none => rfl
      | some cell =>
          cases cell with
          | none => rfl
          | some definition => exact Parser.evalReading_eq definition input

/-- No run is refused a reading. -/
theorem runReading_eq (g : Grammar) (settings : Settings) (limit : Nat)
    (p : Parser) (input : Text) :
    g.runReading settings limit p input = g.run settings limit p input := by
  rw [runReading, enterReading_eq, Parser.evalReading_eq, run]

end Grammar

end ParserAlgebra
