import TaskFlow.Text.Utf8

namespace TaskFlow

inductive FileError
  | notFound
  | alreadyExists
  | notDirectory
  | isDirectory
  | nameTooLong
  | nulInPath
  deriving DecidableEq, Repr

def FileError.text : FileError → String
  | .notFound => "No such file or directory (os error 2)"
  | .alreadyExists => "File exists (os error 17)"
  | .notDirectory => "Not a directory (os error 20)"
  | .isDirectory => "Is a directory (os error 21)"
  | .nameTooLong => "File name too long (os error 36)"
  | .nulInPath => "file name contained an unexpected NUL byte"

inductive Node
  | file (content : Text.Bytes)
  | folder
  deriving DecidableEq, Repr

def Node.isFolder : Node → Bool
  | .folder => true
  | .file _ => false

/-- Where a node is: the names on the way to it from the root. -/
abbrev Location := List String

/-- A tree of files and folders. The folder in which relative paths start, and those around it, are
always there. -/
structure FileSystem where
  entries : List (Location × Node) := []
  workingFolder : Location := ["work"]
  deriving DecidableEq, Repr, Inhabited

/-- A step of a path; paths are compared step by step. -/
inductive Component
  | root
  | current
  | parent
  | normal (name : String)
  deriving DecidableEq, Repr

namespace Component

def rank : Component → Nat
  | .root => 0
  | .current => 1
  | .parent => 2
  | .normal _ => 3

def text : Component → String
  | .root => "/"
  | .current => "."
  | .parent => ".."
  | .normal name => name

def ofName (name : String) : Component :=
  if name = "." then .current else if name = ".." then .parent else .normal name

/-- Every way up comes before every name. -/
instance : Ord Component := ⟨compareLex (compareOn rank) (compareOn text)⟩

end Component

/-- The names between the slashes of a text, the empty ones too. -/
def splitPath (path : List Char) : List (List Char) := path.splitOn '/'

namespace FileSystem

def isAround (fs : FileSystem) (at_ : Location) : Bool := at_.isPrefixOf fs.workingFolder

def node? (fs : FileSystem) (at_ : Location) : Option Node :=
  if fs.isAround at_ then some .folder else (fs.entries.find? (·.1 == at_)).map (·.2)

def erase (fs : FileSystem) (at_ : Location) : FileSystem :=
  { fs with entries := fs.entries.filter fun e => !(e.1 == at_) }

def insert (fs : FileSystem) (at_ : Location) (n : Node) : FileSystem :=
  { fs with entries := (at_, n) :: (fs.erase at_).entries }

/-- The folder in a folder that leads on to the working folder. -/
def towardsWork (fs : FileSystem) (folder : Location) : Option String :=
  (folder.isPrefixOf? fs.workingFolder).bind List.head?

def children (fs : FileSystem) (folder : Location) : List (String × Node) :=
  (fs.towardsWork folder).toList.map (·, .folder) ++ fs.entries.filterMap fun e =>
    match e.1.getLast? with
    | some name =>
      if e.1.dropLast == folder && !fs.isAround e.1 then some (name, e.2) else none
    | none => none

def maxName : Nat := 255

def maxPath : Nat := 4095

/-- One step down a path from a folder; a name that a path can end with need not exist. -/
def step (here : Location) (name : String) : Except FileError Location :=
  if name = "." then .ok here
  else if name = ".." then .ok here.dropLast
  else if (Text.utf8 name).length > maxName then .error .nameTooLong
  else .ok (here ++ [name])

/-- The location that a path leads to through folders that exist; the last name need not. -/
def walk (fs : FileSystem) : Location → List String → Except FileError Location
  | here, [] => .ok here
  | here, name :: names => do
    match fs.node? here with
    | none => throw .notFound
    | some (.file _) => throw .notDirectory
    | some .folder => do
      let next ← step here name
      if names.isEmpty then return next
      if (fs.node? next).isNone then throw .notFound
      fs.walk next names

def namesOf (path : String) : List String :=
  ((splitPath path.toList).filter (· ≠ [])).map String.ofList

def admissible (path : String) : Except FileError Unit :=
  if path.isEmpty then .error .notFound
  else if path.toList.contains '\x00' then .error .nulInPath
  else if (Text.utf8 path).length > maxPath then .error .nameTooLong
  else .ok ()

def isAbsolute (path : String) : Bool := path.toList.head? == some '/'

def endsWithSlash (path : String) : Bool := path.toList.getLast? == some '/'

def origin (fs : FileSystem) (path : String) : Location :=
  if isAbsolute path then [] else fs.workingFolder

def locate (fs : FileSystem) (path : String) : Except FileError Location :=
  fs.walk (fs.origin path) (namesOf path)

/-- The location of a path, and the node there if there is one. A slash at the end asks for a
folder. -/
def resolve (fs : FileSystem) (path : String) : Except FileError (Location × Option Node) := do
  admissible path
  let at_ ← fs.locate path
  let n := fs.node? at_
  match n with
  | some (.file _) => if endsWithSlash path then throw .notDirectory else return (at_, n)
  | _ => return (at_, n)

def find (fs : FileSystem) (path : String) : Except FileError Node := do
  match ← fs.resolve path with
  | (_, some n) => return n
  | (_, none) => throw .notFound

def read (fs : FileSystem) (path : String) : Except FileError Text.Bytes := do
  match ← fs.find path with
  | .file content => return content
  | .folder => throw .isDirectory

def isFolder (fs : FileSystem) (path : String) : Bool :=
  match fs.find path with
  | .ok .folder => true
  | _ => false

def makeFolder (fs : FileSystem) (path : String) : Except FileError FileSystem := do
  match ← fs.resolve path with
  | (_, some _) => throw .alreadyExists
  | (at_, none) => return fs.insert at_ .folder

/-- The steps of a path. Single dots count only at the start of a relative path. -/
def components (path : String) : List Component :=
  if isAbsolute path then .root :: ((namesOf path).filter (· ≠ ".")).map .ofName
  else match namesOf path with
    | [] => []
    | n :: ns => .ofName n :: (ns.filter (· ≠ ".")).map .ofName

def ofComponents : List Component → String
  | .root :: cs => "/" ++ "/".intercalate (cs.map Component.text)
  | cs => "/".intercalate (cs.map Component.text)

/-- Makes the folders of a path, given its steps in reverse. The file system that is left is
returned with an error, too. -/
def makeFoldersUp (fs : FileSystem) : List Component → FileSystem × Except FileError Unit
  | [] => (fs, .ok ())
  | c :: up =>
    let path := ofComponents (c :: up).reverse
    match fs.makeFolder path with
    | .ok fs => (fs, .ok ())
    | .error .notFound =>
      match makeFoldersUp fs up with
      | (fs, .error e) => (fs, .error e)
      | (fs, .ok ()) =>
        match fs.makeFolder path with
        | .ok fs => (fs, .ok ())
        | .error e => (fs, if fs.isFolder path then .ok () else .error e)
    | .error e => (fs, if fs.isFolder path then .ok () else .error e)

def makeFolders (fs : FileSystem) (path : String) : FileSystem × Except FileError Unit :=
  fs.makeFoldersUp (components path).reverse

/-- Writes a file whose folder exists, in place of what it held before. -/
def putFile (fs : FileSystem) (path : String) (content : Text.Bytes) :
    Except FileError FileSystem := do
  admissible path
  let at_ ← fs.locate path
  match fs.node? at_ with
  | some .folder => throw .isDirectory
  | some (.file _) =>
    if endsWithSlash path then throw .isDirectory else return fs.insert at_ (.file content)
  | none =>
    if endsWithSlash path then throw .isDirectory else return fs.insert at_ (.file content)

def write (fs : FileSystem) (path : String) (content : Text.Bytes) :
    FileSystem × Except FileError Unit :=
  match fs.makeFoldersUp (components path).reverse.tail with
  | (fs, .error e) => (fs, .error e)
  | (fs, .ok ()) =>
    match fs.putFile path content with
    | .ok fs => (fs, .ok ())
    | .error e => (fs, .error e)

def remove (fs : FileSystem) (path : String) : Except FileError FileSystem := do
  match ← fs.resolve path with
  | (_, none) => throw .notFound
  | (_, some .folder) => throw .isDirectory
  | (at_, some (.file _)) => return fs.erase at_

def files (fs : FileSystem) : List (Location × Text.Bytes) :=
  fs.entries.filterMap fun e =>
    match e.2 with
    | .file content => some (e.1, content)
    | .folder => none

/-- The files that are not the same in an earlier file system. -/
def changed (fs earlier : FileSystem) : List (Location × Text.Bytes) :=
  fs.files.filter fun f => !(earlier.node? f.1 == some (.file f.2))

/-- The files below the working folder that have changed, with the names on the way from there. -/
def changes (fs earlier : FileSystem) : List (Location × Text.Bytes) :=
  (fs.changed earlier).filterMap fun f =>
    (fs.workingFolder.isPrefixOf? f.1).map fun names => (names, f.2)

end FileSystem

def joinPath (folder name : String) : String :=
  if FileSystem.isAbsolute name then name
  else if folder.isEmpty ∨ FileSystem.endsWithSlash folder then folder ++ name
  else folder ++ "/" ++ name

end TaskFlow
