import TaskFlow.FileSystem.Basic

namespace TaskFlow

namespace Glob

inductive Member
  | one (c : Char)
  | range (low high : Char)
  deriving DecidableEq, Repr

inductive Token
  | char (c : Char)
  | anyChar
  | anySequence
  | anyFolders
  | oneOf (members : List Member)
  | noneOf (members : List Member)
  deriving DecidableEq, Repr

inductive Flaw
  | wildcards
  | recursiveWildcards
  | invalidRange
  deriving DecidableEq, Repr

/-- A flaw and the character it was noticed at. -/
structure PatternError where
  position : Nat
  flaw : Flaw
  deriving DecidableEq, Repr

def Flaw.text : Flaw → String
  | .wildcards => "wildcards are either regular `*` or recursive `**`"
  | .recursiveWildcards => "recursive wildcards must form a single path component"
  | .invalidRange => "invalid range pattern"

def PatternError.text (e : PatternError) : String :=
  "Pattern syntax error near position " ++ toString e.position ++ ": " ++ e.flaw.text

/-- The members of a set; a dash between two characters makes a range. -/
def members : List Char → List Member
  | a :: '-' :: b :: cs => .range a b :: members cs
  | a :: cs => .one a :: members cs
  | [] => []

/-- The members of a set up to the first closing bracket after its first character, and the rest. -/
def splitSet : List Char → Option (List Char × List Char)
  | [] => none
  | c :: cs =>
    match cs.dropWhile (· ≠ ']') with
    | [] => none
    | _ :: rest => some (c :: cs.takeWhile (· ≠ ']'), rest)

/-- A set of characters after its opening bracket. The first member may be a closing bracket, and an
exclamation mark before it excludes the members. -/
def set (cs : List Char) : Option (Token × List Char) :=
  match cs with
  | '!' :: cs => (splitSet cs).map fun (ms, rest) => (.noneOf (members ms), rest)
  | cs => (splitSet cs).map fun (ms, rest) => (.oneOf (members ms), rest)

/-- The tokens of a pattern from position `i` on, after the character `before`. -/
def tokensFrom : Nat → Nat → Option Char → List Char → Except PatternError (List Token)
  | 0, _, _, _ => .ok []
  | _ + 1, _, _, [] => .ok []
  | fuel + 1, i, before, c :: cs =>
    if c = '?' then do
      let ts ← tokensFrom fuel (i + 1) (some c) cs
      return .anyChar :: ts
    else if c = '*' then
      match cs with
      | '*' :: '*' :: _ => .error ⟨i + 2, .wildcards⟩
      | '*' :: rest =>
        if i = 0 ∨ before = some '/' then
          match rest with
          | [] => .ok [.anyFolders]
          | '/' :: rest => do
            let ts ← tokensFrom fuel (i + 3) (some '/') rest
            return .anyFolders :: ts
          | _ => .error ⟨i + 2, .recursiveWildcards⟩
        else .error ⟨i - 1, .recursiveWildcards⟩
      | rest => do
        let ts ← tokensFrom fuel (i + 1) (some c) rest
        return .anySequence :: ts
    else if c = '[' then
      match set cs with
      | none => .error ⟨i, .invalidRange⟩
      | some (t, rest) => do
        let ts ← tokensFrom fuel (i + 1 + (cs.length - rest.length)) (some ']') rest
        return t :: ts
    else do
      let ts ← tokensFrom fuel (i + 1) (some c) cs
      return .char c :: ts

def tokens (cs : List Char) : Except PatternError (List Token) :=
  tokensFrom (cs.length + 1) 0 none cs

def contains (ms : List Member) (c : Char) : Bool :=
  ms.any fun
    | .one d => c == d
    | .range a b => a ≤ c && c ≤ b

def Token.admits : Token → Char → Bool
  | .char d, c => c == d
  | .anyChar, _ => true
  | .oneOf ms, c => contains ms c
  | .noneOf ms, c => !contains ms c
  | .anySequence, _ | .anyFolders, _ => false

/-- A list and all that is left of it when its first elements are dropped. -/
def suffixes {α : Type} : List α → List (List α)
  | [] => [[]]
  | x :: xs => (x :: xs) :: suffixes xs

def covers : List Token → List Char → Bool
  | [], cs => cs.isEmpty
  | t :: ts, cs =>
    if t = .anySequence ∨ t = .anyFolders then (suffixes cs).any (covers ts)
    else match cs with
      | [] => false
      | c :: cs => t.admits c && covers ts cs

def Token.plain? : Token → Option Char
  | .char c => some c
  | _ => none

def literal? (ts : List Token) : Option String := (ts.mapM Token.plain?).map .ofList

def isRecursive (ts : List Token) : Bool := ts.contains .anyFolders

/-- A path one name further; the working folder itself is left out of the text. -/
def onwards (path name : String) : String :=
  if FileSystem.components path = [.current] then name else joinPath path name

/-- What a search looks through, and whether only folders are wanted. -/
structure Search where
  tree : FileSystem
  foldersOnly : Bool

namespace Search

def inside (s : Search) (path : String) : List String :=
  match s.tree.locate path with
  | .ok at_ => (s.tree.children at_).map fun c => onwards path c.1
  | .error _ => []

def answer (s : Search) (path : String) : List String :=
  if s.foldersOnly && !s.tree.isFolder path then [] else [path]

mutual

/-- The answers below a path. A name without wildcards is looked up, and the dotted names are tried
where the pattern starts with a dot. -/
def below (s : Search) : Nat → List (List Token) → String → List String
  | 0, _, _ => []
  | _ + 1, [], _ => []
  | fuel + 1, p :: ps, path =>
    let onward (q : String) : List String := if ps.isEmpty then s.answer q else below s fuel ps q
    match literal? p with
    | some name =>
      let q := onwards path name
      if name = "." ∨ name = ".." then (if s.tree.isFolder path then onward q else [])
      else if (s.tree.find q).isOk then onward q else []
    | none =>
      if s.tree.isFolder path then
        (if p.head? = some (.char '.') then
          (["..", "."].filter fun name => covers p name.toList).flatMap fun name =>
            onward (joinPath path name)
        else []) ++
          (s.inside path).flatMap fun q => at_ s fuel (p :: ps) q
      else []

/-- The answers at or below a path whose last name is still to be matched. -/
def at_ (s : Search) : Nat → List (List Token) → String → List String
  | 0, _, _ => []
  | _ + 1, [], _ => []
  | fuel + 1, p :: ps, path =>
    if isRecursive p then
      match ps.dropWhile isRecursive with
      | [] => if s.tree.isFolder path then path :: below s fuel [p] path else []
      | q :: qs =>
        named s fuel (q :: qs) path ++
          if s.tree.isFolder path then below s fuel (p :: q :: qs) path else []
    else named s fuel (p :: ps) path

/-- The answers at or below a path whose last name the first pattern has to match. -/
def named (s : Search) : Nat → List (List Token) → String → List String
  | 0, _, _ => []
  | _ + 1, [], _ => []
  | fuel + 1, p :: ps, path =>
    match (FileSystem.components path).getLast? with
    | some (.normal name) =>
      if covers p name.toList then if ps.isEmpty then s.answer path else below s fuel ps path
      else []
    | _ => []

end

end Search

/-- The names of a pattern after its root; nothing follows a slash at its end. -/
def names (pattern : List Char) : List (List Char) :=
  let parts := splitPath pattern
  if pattern ≠ [] ∧ parts.getLast? = some [] then parts.dropLast else parts

end Glob

namespace FileSystem

def depth (fs : FileSystem) : Nat :=
  (fs.entries.map (·.1.length)).foldl max fs.workingFolder.length

/-- The paths that a pattern matches, one for each way it does. A pattern that does not start with a
slash is searched for from the working folder. -/
def glob (fs : FileSystem) (pattern : String) : Except Glob.PatternError (List String) := do
  let cs := pattern.toList
  let _ ← Glob.tokens cs
  let ps ← (Glob.names (if isAbsolute pattern then cs.tail else cs)).mapM Glob.tokens
  let search : Glob.Search := ⟨fs, endsWithSlash pattern⟩
  return search.below (3 * (ps.length + 2) * (fs.depth + 2)) ps
    (if isAbsolute pattern then "/" else ".")

def isFile (fs : FileSystem) (path : String) : Bool :=
  match fs.find path with
  | .ok (.file _) => true
  | _ => false

def comparePaths (a b : String) : Ordering := compare (components a) (components b)

/-- The files that a pattern matches, in the order of their paths. -/
def globFiles (fs : FileSystem) (pattern : String) :
    Except Glob.PatternError (List String) := do
  let found ← fs.glob pattern
  return (found.filter fs.isFile).mergeSort fun a b => (comparePaths a b).isLE

end FileSystem

end TaskFlow
