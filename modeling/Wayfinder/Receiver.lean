import Wayfinder.Bracket
import Wayfinder.Heading
import Wayfinder.Sweep
import Wayfinder.Text.Column

/-!
# Methods with a receiver

A line scanner for declarations such as `func (r *T) M(...)`.  Each line that holds
the heading of one is a declaration of its own, also inside the body of another.  A
declaration ends on the first line at which its parameter list and its body are
closed, or on the last line of the document.
-/

namespace Wayfinder

/-- A method declared with a receiver. -/
structure ReceiverMethod where
  /-- The type of the receiver, without the mark of a pointer. -/
  receiverType : String
  /-- The name of the receiver, empty if it has none. -/
  receiverName : String
  name : String
  /-- The column of the method's name on its first line. -/
  column : Nat
  startLine : Nat
  endLine : Nat
deriving Repr, DecidableEq

/-- Whether a line belongs to the declaration. -/
def ReceiverMethod.contains (method : ReceiverMethod) (line : Nat) : Bool :=
  method.startLine ≤ line && line ≤ method.endLine

namespace Counter

variable {m : Type → Type} [Monad m] (count : Counter m)

/-- The first of the following lines at which both depths balance.  Comment lines do not
count.  If there is none, it is the last of the lines, or `last` if there are no lines. -/
def endFrom (parens braces : Depth) (last : Nat) : List Line → m Nat
  | [] => return last
  | line :: more =>
      if line.isComment then endFrom parens braces line.index more
      else do
        let parens ← count parens line.chars
        let braces ← count braces line.chars
        if parens.isBalanced && braces.isBalanced then return line.index
        else endFrom parens braces line.index more

/-- The last line of a declaration, from the text behind the parenthesis that opens its
parameter list and from the lines that follow. -/
def endLineOf (start : Nat) (rest : List Char) (following : List Line) : m Nat := do
  let parens ← count ⟨.parens, 1⟩ rest
  let braces ← count.ofBraces rest
  if parens.isBalanced && braces.isBalanced then return start
  else count.endFrom parens braces start following

/-- The declaration that starts on a line, if one does. -/
def methodOfLine? (line : Line) (following : List Line) : m (Option ReceiverMethod) :=
  match Heading.receiver.read? line.chars with
  | none => return none
  | some reading =>
      match reading.group? 2, reading.group? 3 with
      | some type, some name => do
          let endLine ← count.endLineOf line.index reading.rest following
          return some {
            receiverType := type.text line.chars
            receiverName := ((reading.group? 1).map (·.text line.chars)).getD ""
            name := name.text line.chars
            column := Text.charColumn line.chars (name.byteStart line.chars)
            startLine := line.index
            endLine := endLine
          }
      | _, _ => return none

/-- Reads one line of a document for methods with a receiver. -/
def stepReceiver (document : Document) (found : List ReceiverMethod) (line : Line) :
    m (List ReceiverMethod) :=
  if line.isComment then return found
  else do
    match ← count.methodOfLine? line (document.linesAfter line.index) with
    | some method => return found ++ [method]
    | none => return found

end Counter

/-- Reads one line of a document. -/
def ReceiverMethod.step (document : Document) (found : List ReceiverMethod) (line : Line) :
    List ReceiverMethod :=
  Id.run (Counter.plain.stepReceiver document found line)

namespace Document

/-- The methods with a receiver declared in a document, in source order. -/
def receiverMethods (document : Document) : List ReceiverMethod :=
  sweep (ReceiverMethod.step document) [] document.lines

/-- The methods with a receiver declared in a document, unless the signal is raised at a
check, the first of which has number `check`. -/
def receiverMethodsUnless (document : Document) (signal : Signal) (check : Nat) :
    Except Cancelled (List ReceiverMethod) :=
  sweepUnless (ReceiverMethod.step document) signal check [] document.lines

end Document

end Wayfinder
