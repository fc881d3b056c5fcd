import TaskFlow.Json.Printer
import TaskFlow.Json.Scan
import TaskFlow.Text.Quoted

namespace TaskFlow.Json

/-- What parts are read from: a text, a value in memory, or parts that were set aside until a tag
was known. -/
inductive Source
  | text
  | value
  | buffered
  deriving DecidableEq, Repr

inductive Misfit
  | type (found expected : String)
  | value (found expected : String)
  | length (count : Nat) (expected : String)
  | missingField (name : String)
  | duplicateField (name : String)
  | unknownField (name : String) (known : List String)
  | unknownVariant (name : String) (known : List String)
  | spelling (cause : Cause)
  | other (reason : String)
  deriving DecidableEq, Repr

def ticked (name : String) : String := "`" ++ name ++ "`"

def expectedNames : List String → String
  | [] => "there are no variants"
  | [a] => "expected " ++ ticked a
  | [a, b] => "expected " ++ ticked a ++ " or " ++ ticked b
  | names => "expected one of " ++ ", ".intercalate (names.map ticked)

def Misfit.text : Misfit → String
  | .type found expected => "invalid type: " ++ found ++ ", expected " ++ expected
  | .value found expected => "invalid value: " ++ found ++ ", expected " ++ expected
  | .length n expected => "invalid length " ++ toString n ++ ", expected " ++ expected
  | .missingField name => "missing field " ++ ticked name
  | .duplicateField name => "duplicate field " ++ ticked name
  | .unknownField name known => "unknown field " ++ ticked name ++ ", " ++ expectedNames known
  | .unknownVariant name known => "unknown variant " ++ ticked name ++ ", " ++ expectedNames known
  | .spelling cause => cause.text
  | .other reason => reason

/-- How far the text of a value was read. Of a container, `parts` items or fields were read and
whatever then closes or continues it was looked at. -/
inductive Moment
  | before
  | first
  | after
  | inside (parts : Nat)
  | gap (parts : Nat)
  | next (parts : Nat)
  | key (part : Nat)
  | keyGap (part : Nat)
  deriving DecidableEq, Repr

/-- A place in a document: the way to a value through the parts of containers, and how far the
value was read. -/
structure Place where
  path : List Nat
  moment : Moment
  deriving DecidableEq, Repr

/-- Why reading a shape failed: a fault of the text, or a document that does not fit. -/
inductive Failure
  | fault (f : Fault)
  | misfit (m : Misfit) (place : Option Place)
  deriving DecidableEq, Repr

inductive Category
  | malformed
  | ended
  | shape
  deriving DecidableEq, Repr

namespace Failure

def ofCause (c : Cause) : Category := if c.isEnd then .ended else .malformed

def category : Failure → Category
  | .fault f => ofCause f.cause
  | .misfit (.spelling c) _ => ofCause c
  | .misfit .. => .shape

def reason : Failure → String
  | .fault f => f.cause.text
  | .misfit m _ => m.text

end Failure

namespace Place

def afterValue (cs : List Char) : List Char := (scan cs).2.getD []

/-- What follows the name of the field at the start of a text. -/
def afterName (cs : List Char) : List Char :=
  match scanString cs.length (cs.drop 1) with
  | .ok (_, rest) => rest
  | .error _ => []

/-- What follows the colon of the field at the start of a text. -/
def fieldValue (cs : List Char) : List Char := (skipSpace (afterName cs)).drop 1

/-- What follows the item or field at the start of a text. -/
def afterPart (keyed : Bool) (cs : List Char) : List Char :=
  afterValue (if keyed then fieldValue cs else cs)

/-- The text from a part of a container on, given what follows its opening bracket. -/
def partStart (keyed : Bool) : Nat → List Char → List Char
  | 0, cs => skipSpace cs
  | k + 1, cs => partStart keyed k ((skipSpace (afterPart keyed (skipSpace cs))).drop 1)

def afterParts (keyed : Bool) : Nat → List Char → List Char
  | 0, cs => cs
  | k + 1, cs => afterPart keyed (partStart keyed k cs)

/-- A text after a comma and white space, if a comma comes next. -/
def passComma (cs : List Char) : List Char :=
  match cs with
  | ',' :: rest => skipSpace rest
  | rest => rest

/-- How many bytes are unread at a moment of the value at the start of a text. -/
def leftAt (cs : List Char) (moment : Moment) : Nat :=
  let cs := skipSpace cs
  let keyed := cs.head? == some '{'
  let body := cs.drop 1
  match moment with
  | .before => Text.utf8Length cs
  | .first => Text.utf8Length cs - 1
  | .after => Text.utf8Length (afterValue cs)
  | .gap k => Text.utf8Length (skipSpace (afterParts keyed k body))
  | .next k => Text.utf8Length (passComma (skipSpace (afterParts keyed k body))) - 1
  | .key i => Text.utf8Length (afterName (partStart keyed i body))
  | .keyGap i => Text.utf8Length (skipSpace (afterName (partStart keyed i body)))
  | .inside k =>
    match skipSpace (afterParts keyed k body) with
    | [] => 0
    | c :: rest =>
      if c = (if keyed then '}' else ']') then Text.utf8Length rest
      else Text.utf8Length (if keyed then c :: rest else passComma (c :: rest))

/-- The text from a part of the value at the start of a text on, following a path of parts. -/
def follow : List Nat → List Char → List Char
  | [], cs => cs
  | i :: path, cs =>
    let cs := skipSpace cs
    let keyed := cs.head? == some '{'
    let part := partStart keyed i (cs.drop 1)
    follow path (if keyed then fieldValue part else part)

def left (p : Place) (s : String) : Nat := leftAt (follow p.path s.toList) p.moment

end Place

/-- The message of a failure in a text, with the position if there is one. -/
def Failure.message (e : Failure) (s : String) : String :=
  match e with
  | .fault f => f.message s
  | .misfit m none => m.text
  | .misfit m (some p) => m.text ++ (positionOf s (p.left s)).text

end TaskFlow.Json
