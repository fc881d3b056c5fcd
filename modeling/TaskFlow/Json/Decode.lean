import TaskFlow.Json.Failure

namespace TaskFlow.Json

abbrev Decoder (α : Type) := Source → Doc → Except Failure α

namespace Doc

def describe : Doc → String
  | .null => "null"
  | .bool b => "boolean " ++ ticked (if b then "true" else "false")
  | .num (.int n) => "integer " ++ ticked (toString n)
  | .num n => "floating point " ++ ticked n.text
  | .str s => "string " ++ Text.quoted s
  | .arr .. => "sequence"
  | .obj .. => "map"
  | _ => "value"

/-- Where a value that is read as a whole is found wanting. -/
def placeOf (src : Source) (d : Doc) : Option Place :=
  if src ≠ .text then none
  else match d with
    | .arr .. | .obj .. => some ⟨[], .before⟩
    | _ => some ⟨[], .after⟩

end Doc

namespace Decode

def at? (src : Source) (moment : Moment) : Option Place :=
  if src = .text then some ⟨[], moment⟩ else none

def wrongType {α : Type} (src : Source) (expected : String) (d : Doc) : Except Failure α :=
  match d with
  | .unreadable f => .error (.fault f)
  | .broken b => .error (.fault b.reading)
  | d => .error (.misfit (.type d.describe expected) (d.placeOf src))

def fail {α : Type} (src : Source) (m : Misfit) (moment : Moment) : Except Failure α :=
  .error (.misfit m (at? src moment))

def lift {α : Type} : Except Fault α → Except Failure α
  | .ok a => .ok a
  | .error f => .error (.fault f)

/-- A failure in a part of a container: a failure without a place was noticed after the part. -/
def inPart {α : Type} (src : Source) (i : Nat) : Except Failure α → Except Failure α
  | .error (.misfit m none) => .error (.misfit m (at? src (.inside (i + 1))))
  | .error (.misfit m (some p)) => .error (.misfit m (some ⟨i :: p.path, p.moment⟩))
  | r => r

def finish (cut : Option Break) : Except Failure Unit := lift (Doc.uncut Break.reading cut)

def json : Decoder Json := fun _ d => lift d.read

def string : Decoder String := fun src d =>
  match d with
  | .str s => .ok s
  | d => wrongType src "a string" d

/-- A natural number of 64 bits, under the name that messages give its type. -/
def natural (expected : String) : Decoder Nat := fun src d =>
  match d with
  | .num (.int n) =>
    if 0 ≤ n then .ok n.toNat else fail src (.value d.describe expected) .after
  | d => wrongType src expected d

def double : Decoder Double := fun src d =>
  match d with
  | .num n => .ok n.toDouble
  | d => wrongType src "f64" d

def single : Decoder Single := fun src d =>
  match d with
  | .num (.int n) => .ok (.ofInt n)
  | .num (.real x) => .ok x.convert
  | .num (.single x) => .ok x
  | d => wrongType src "f32" d

def optional {α : Type} (read : Decoder α) : Decoder (Option α) := fun src d =>
  match d with
  | .null => .ok none
  | d => (read src d).map some

def items {α : Type} (read : Decoder α) (src : Source) : Nat → List Doc → Except Failure (List α)
  | _, [] => .ok []
  | i, d :: ds => do
    let x ← inPart src i (read src d)
    let xs ← items read src (i + 1) ds
    return x :: xs

def list {α : Type} (read : Decoder α) : Decoder (List α) := fun src d =>
  match d with
  | .arr ds cut => do
    let xs ← items read src 0 ds
    finish cut
    return xs
  | d => wrongType src "a sequence" d

def elements (n : Nat) : String := toString n ++ if n = 1 then " element" else " elements"

/-- An array of which `count` items were wanted and `rest` are left over. -/
def noMore (src : Source) (count : Nat) (rest : List Doc) (cut : Option Break) :
    Except Failure Unit :=
  match src with
  | .text =>
    if rest.isEmpty then
      match cut with
      | none => .ok ()
      | some b =>
        match b.reading.cause with
        | .expectedListCommaOrEnd | .endInValue =>
          .error (.fault { b.reading with cause := .trailingCharacters })
        | _ => .error (.fault b.reading)
    else fail src (.spelling .trailingCharacters) (.next count)
  | .value =>
    if rest.isEmpty then .ok ()
    else fail src (.length (count + rest.length) "fewer elements in array") .before
  | .buffered =>
    if rest.isEmpty then .ok ()
    else fail src (.length (count + rest.length) (elements count ++ " in sequence")) .before

/-- A field of a record: its name, how it is read, and what it is if an object lacks it or an
array ends before it. -/
structure FieldSpec (α : Type) where
  name : String
  read : Decoder α
  absent : Option α := none
  beyond : Option α := none

inductive Fields : List Type → Type 1
  | nil : Fields []
  | cons {α : Type} {αs : List Type} (head : FieldSpec α) (tail : Fields αs) : Fields (α :: αs)

def Values : List Type → Type
  | [] => Unit
  | α :: αs => α × Values αs

/-- The values of the fields of a record that are known so far. -/
def Slots : List Type → Type
  | [] => Unit
  | α :: αs => Option α × Slots αs

namespace Fields

def names {αs : List Type} : Fields αs → List String
  | .nil => []
  | .cons f fs => f.name :: fs.names

def noSlots : {αs : List Type} → Fields αs → Slots αs
  | _, .nil => ()
  | _, .cons _ fs => (none, fs.noSlots)

inductive Stored (σ : Type)
  | unknown
  | duplicate
  | failed (e : Failure)
  | stored (s : σ)

def store (src : Source) (name : String) (d : Doc) :
    {αs : List Type} → Fields αs → Slots αs → Stored (Slots αs)
  | _, .nil, _ => .unknown
  | _, .cons f fs, (slot, slots) =>
    if f.name = name then
      if slot.isSome then .duplicate
      else match f.read src d with
        | .ok v => .stored (some v, slots)
        | .error e => .failed e
    else match fs.store src name d slots with
      | .unknown => .unknown
      | .duplicate => .duplicate
      | .failed e => .failed e
      | .stored slots => .stored (slot, slots)

def complete : {αs : List Type} → Fields αs → Slots αs → Except String (Values αs)
  | _, .nil, _ => .ok ()
  | _, .cons f fs, (slot, slots) => do
    let v ← match slot.or f.absent with
      | some v => .ok v
      | none => .error f.name
    let vs ← fs.complete slots
    return (v, vs)

/-- Reads the fields of an object from number `i` on; unless the record is `strict`, fields that
it does not have are passed over. -/
def readObject (src : Source) (strict : Bool) {αs : List Type} (fs : Fields αs) :
    Nat → List (Key × Doc) → Slots αs → Except Failure (Slots αs)
  | _, [], slots => .ok slots
  | i, (k, d) :: rest, slots => do
    let name ← lift k
    match fs.store src name d slots with
    | .unknown =>
      if strict then fail src (.unknownField name fs.names) (.keyGap i)
      else
        lift d.skip
        readObject src strict fs (i + 1) rest slots
    | .duplicate => fail src (.duplicateField name) (.keyGap i)
    | .failed e => inPart src i (.error e)
    | .stored slots => readObject src strict fs (i + 1) rest slots

/-- Reads the fields in order out of the items from number `i` on. The error without a failure is an
array that ends too early. -/
def readArray (src : Source) :
    {αs : List Type} → Fields αs → Nat → List Doc → Except (Option Failure) (Values αs × List Doc)
  | _, .nil, _, ds => .ok ((), ds)
  | _, .cons f fs, i, [] => do
    let v ← match f.beyond with
      | some v => .ok v
      | none => .error none
    let (vs, ds) ← fs.readArray src i []
    return ((v, vs), ds)
  | _, .cons f fs, i, d :: ds => do
    let v ← (inPart src i (f.read src d)).mapError some
    let (vs, ds) ← fs.readArray src (i + 1) ds
    return ((v, vs), ds)

end Fields

def record {α : Type} {αs : List Type} (title : String) (strict : Bool) (fs : Fields αs)
    (make : Values αs → α) : Decoder α := fun src d =>
  match d with
  | .obj fields cut => do
    let slots ← fs.readObject src strict 0 fields fs.noSlots
    finish cut
    match fs.complete slots with
    | .ok vs => return make vs
    | .error name => fail src (.missingField name) (.inside fields.length)
  | .arr ds cut =>
    match fs.readArray src 0 ds with
    | .error (some e) => .error e
    | .error none => do
      finish cut
      fail src (.length ds.length (title ++ " with " ++ elements fs.names.length))
        (.inside ds.length)
    | .ok (vs, rest) => do
      noMore src fs.names.length rest cut
      return make vs
  | d => wrongType src title d

/-- What an option of a choice carries: nothing, or a value. -/
inductive Carried (α : Type)
  | alone (a : α)
  | holding (read : Decoder α)

def unit : Decoder Unit := fun src d =>
  match src, d with
  | _, .null => .ok ()
  | .buffered, .obj [] none => .ok ()
  | src, d => wrongType src "unit" d

def Carried.read {α : Type} : Carried α → Decoder α
  | .alone a => fun src d => (unit src d).map fun _ => a
  | .holding read => read

/-- The name of an option: an option that carries a value cannot be named alone. -/
def Carried.named {α : Type} : Carried α → Except Failure α
  | .alone a => .ok a
  | .holding _ => .error (.misfit (.type "unit variant" "newtype variant") none)

def option {α : Type} (src : Source) (options : List (String × α)) (name : String)
    (moment : Moment) : Except Failure α :=
  match options.find? (·.1 == name) with
  | some (_, a) => .ok a
  | none => fail src (.unknownVariant name (options.map (·.1))) moment

/-- A choice: the name of an option, or an object whose only field has that name and what the
option carries. -/
def choice {α : Type} (options : List (String × Carried α)) : Decoder α := fun src d =>
  match d with
  | .str s => do
    let c ← option src options s .after
    c.named
  | .obj fields cut =>
    match src, fields with
    | .text, [] =>
      match cut with
      | none => fail src (.spelling .expectedValue) (.next 0)
      | some b =>
        let f := b.reading
        .error (.fault (if f.cause = .endInObject then ⟨.endInValue, f.left⟩ else f))
    | .text, (k, d) :: rest => do
      let name ← lift k
      let c ← option src options name (.key 0)
      let a ← match c.read src d with
        | .error (.misfit m (some p)) => .error (.misfit m (some ⟨0 :: p.path, p.moment⟩))
        | r => r
      match rest, cut with
      | [], none => return a
      | [], some b =>
        if b.reading.cause = .endInObject then .error (.fault b.reading)
        else fail src (.spelling .expectedValue) (.gap 1)
      | _, _ => fail src (.spelling .expectedValue) (.gap 1)
    | src, [(.ok name, d)] => do
      let c ← option src options name .before
      c.read src d
    | src, _ => fail src (.value "map" "map with a single key") .before
  | .unreadable f => .error (.fault f)
  | .broken b => .error (.fault b.reading)
  | d =>
    match src with
    | .text => fail src (.spelling .expectedValue) .first
    | _ => wrongType src "string or map" d

def names {α : Type} (options : List (String × α)) : Decoder α :=
  choice (options.map fun o => (o.1, .alone o.2))

/-- The name of an option of a choice whose tag is a field. -/
def tagName {α : Type} (options : List (String × α)) : Decoder α := fun src d =>
  match d with
  | .str s => option src options s .after
  | d => wrongType src "variant identifier" d

/-- Gathers the fields of an object, its tag apart, from number `i` on. -/
def splitTag {α : Type} (src : Source) (tag : String) (options : List (String × α)) :
    Nat → List (Key × Doc) → Option α → Except Failure (Option α × List (Key × Doc))
  | _, [], found => .ok (found, [])
  | i, (k, d) :: rest, found => do
    let name ← lift k
    if name = tag then
      if found.isSome then fail src (.duplicateField tag) (.keyGap i)
      else
        let a ← inPart src i (tagName options src d)
        splitTag src tag options (i + 1) rest (some a)
    else
      lift d.check
      let (found, others) ← splitTag src tag options (i + 1) rest found
      return (found, (k, d) :: others)

def checkItems : List Doc → Except Failure Unit
  | [] => .ok ()
  | d :: ds => do
    lift d.check
    checkItems ds

/-- A choice whose tag is a field among those of the option, or the first item of an array. -/
def tagged {α : Type} (title tag : String) (options : List (String × Decoder α)) : Decoder α :=
  fun src d =>
  match d with
  | .obj fields cut => do
    let (found, others) ← splitTag src tag options 0 fields none
    finish cut
    match found with
    | some read => read .buffered (.obj others none)
    | none => fail src (.missingField tag) (.inside fields.length)
  | .arr [] cut => do
    finish cut
    fail src (.missingField tag) (.inside 0)
  | .arr (d :: ds) cut => do
    let read ← inPart src 0 (tagName options src d)
    checkItems ds
    finish cut
    read .buffered (.arr ds none)
  | d => wrongType src title d

/-- An option of a tagged choice that has no fields of its own. -/
def bare {α : Type} (a : α) : Decoder α := fun src d =>
  match d with
  | .arr ds cut => do
    noMore src 0 ds cut
    return a
  | _ => .ok a

/-- What is known of a choice with its tag and content in two fields. -/
structure Adjacent (α : Type) where
  tag : Option (Decoder α) := none
  content : Option Doc := none
  value : Option α := none

/-- Reads the fields of an object with a tag and a content. Content before the tag is set aside; all
other fields are passed over. -/
def readAdjacent {α : Type} (src : Source) (tag content : String)
    (options : List (String × Decoder α)) :
    Nat → List (Key × Doc) → Adjacent α → Except Failure (Adjacent α)
  | _, [], known => .ok known
  | i, (k, d) :: rest, known => do
    let name ← lift k
    if name = tag then
      if known.tag.isSome then fail src (.duplicateField tag) (.keyGap i)
      else
        let read ← inPart src i (names options src d)
        match known.content with
        | none => readAdjacent src tag content options (i + 1) rest { known with tag := some read }
        | some c =>
          let a ← inPart src i (read .buffered c)
          readAdjacent src tag content options (i + 1) rest
            { known with tag := some read, value := some a }
    else if name = content then
      if known.content.isSome then fail src (.duplicateField content) (.keyGap i)
      else match known.tag with
        | some read =>
          let a ← inPart src i (read src d)
          readAdjacent src tag content options (i + 1) rest
            { known with content := some d, value := some a }
        | none =>
          lift d.check
          readAdjacent src tag content options (i + 1) rest { known with content := some d }
    else
      lift d.skip
      readAdjacent src tag content options (i + 1) rest known

/-- A choice with its tag in one field and what the option carries in another, or an array of the
two. -/
def adjacent {α : Type} (title tag content : String) (options : List (String × Decoder α)) :
    Decoder α := fun src d =>
  match d with
  | .obj fields cut => do
    let known ← readAdjacent src tag content options 0 fields {}
    finish cut
    match known.value with
    | some a => return a
    | none =>
      let missing := if known.tag.isSome then content else tag
      fail src (.missingField missing) (.inside fields.length)
  | .arr [] cut => do
    finish cut
    fail src (.length 0 title) (.inside 0)
  | .arr [t] cut => do
    let _ ← inPart src 0 (names options src t)
    finish cut
    fail src (.length 1 title) (.inside 1)
  | .arr (t :: c :: rest) cut => do
    let read ← inPart src 0 (names options src t)
    let a ← inPart src 1 (read src c)
    noMore src 2 rest cut
    return a
  | d => wrongType src title d

/-- Reads a value of one shape from a text that holds nothing else. -/
def fromText {α : Type} (read : Decoder α) (s : String) : Except Failure α := do
  let (d, rest) := scan s.toList
  let a ← read .text d
  lift (checkRest rest)
  return a

/-- Reads a value of one shape from the start of a text. -/
def fromStart {α : Type} (read : Decoder α) (s : String) : Except Failure α :=
  read .text (scan s.toList).1

def fromJson {α : Type} (read : Decoder α) (j : Json) : Except Failure α :=
  read .value (Doc.ofJson j)

end Decode

end TaskFlow.Json
