/-!
# Files

A file system as a value: which places hold a file or a directory. A path is a text whose segments lie between
slashes; one that does not start with a slash starts at the home directory. The root is always a directory.

Main definitions: `Path.parent?`, `FileSystem.read`, `FileSystem.write`, `FileSystem.makeDirectories`.
-/

set_option autoImplicit false

namespace FormWiring

/-! ## Paths -/

namespace Path

/-- **Segments** of a path: the texts between its slashes. -/
def segments (path : String) : List String :=
  (path.toList.splitOn '/').map String.ofList

/-- **Path of segments.** -/
def ofSegments (segments : List String) : String :=
  "/".intercalate segments

/-- **Absolute paths** start with a slash. -/
def isAbsolute (path : String) : Bool :=
  path.toList.head? == some '/'

/-- **Segments without those at the end that lead nowhere**: empty ones and single dots, but for the very
first. -/
def dropIdle (isFirstKept : Bool) : List String → List String
  | [] => []
  | first :: rest =>
    let kept := (rest.reverse.dropWhile fun s => s == "" || s == ".").reverse
    if kept.isEmpty && !isFirstKept && first == "" then [] else first :: kept

/-- **Path of the directory** that holds what a path names, if the path has one. It is empty for a single
name. -/
def parent? (path : String) : Option String :=
  let absolute := isAbsolute path
  match dropIdle absolute (segments path) with
  | [] => none
  | [single] => if absolute then none else if single == "" then none else some ""
  | parts =>
    let rest := dropIdle absolute parts.dropLast
    some (if absolute && rest == [""] then "/" else ofSegments rest)

end Path

/-! ## File systems -/

/-- **Causes** of failure. -/
inductive FileError where
  | notFound
  | notADirectory
  | isADirectory
  | alreadyExists
  | invalidData
  | invalidPath
  deriving DecidableEq, Repr

/-- **Shown name** of a cause. -/
def FileError.message : FileError → String
  | .notFound => "<io NotFound>"
  | .notADirectory => "<io NotADirectory>"
  | .isADirectory => "<io IsADirectory>"
  | .alreadyExists => "<io AlreadyExists>"
  | .invalidData => "<io InvalidData>"
  | .invalidPath => "<io InvalidInput>"

/-- **What a place holds.** -/
inductive FileNode where
  | file (bytes : List UInt8)
  | directory
  deriving DecidableEq, Repr

/-- **Place** in a file system: names from the root. -/
abbrev Place : Type := List String

/-- **File system** with its home directory. -/
structure FileSystem where
  nodes : List (Place × FileNode) := []
  home : Place := []
  deriving DecidableEq, Repr, Inhabited

namespace FileSystem

/-- **What a place holds**, if anything. -/
def node? (fs : FileSystem) (place : Place) : Option FileNode :=
  if place = [] then some .directory else fs.nodes.lookup place

/-- **File system with a place filled.** -/
def put (fs : FileSystem) (place : Place) (node : FileNode) : FileSystem :=
  { fs with nodes := (place, node) :: fs.nodes.filter fun entry => entry.1 ≠ place }

/-! ## Finding places -/

/-- **Place reached** from a place along segments. Every place on the way must be a directory; the last one need
not exist. -/
def walk (fs : FileSystem) : List String → Place → Except FileError Place
  | [], place => .ok place
  | segment :: rest, place =>
    match fs.node? place with
    | none => .error .notFound
    | some (.file _) => .error .notADirectory
    | some .directory =>
      if segment = "" ∨ segment = "." then walk fs rest place
      else if segment = ".." then walk fs rest place.dropLast
      else walk fs rest (place ++ [segment])

/-- **Start** of a path. -/
def start (fs : FileSystem) (path : String) : Place :=
  if Path.isAbsolute path then [] else fs.home

/-- **Place and content** that a path names. -/
def find (fs : FileSystem) (path : String) : Except FileError (Place × FileNode) := do
  if path = "" then throw .notFound
  if path.toList.contains '\x00' then throw .invalidPath
  let place ← fs.walk (Path.segments path) (fs.start path)
  match fs.node? place with
  | some node => pure (place, node)
  | none => throw .notFound

/-- **Existing paths.** -/
def exists? (fs : FileSystem) (path : String) : Bool :=
  (fs.find path).isOk

/-- **Paths of directories.** -/
def isDirectory (fs : FileSystem) (path : String) : Bool :=
  match fs.find path with
  | .ok (_, .directory) => true
  | _ => false

/-- **Place that a path would fill**: the directory that holds it must exist. What names no entry of that
directory, such as a dot, gives none. -/
def newPlace? (fs : FileSystem) (path : String) : Except FileError (Option Place) := do
  if path = "" then throw .notFound
  if path.toList.contains '\x00' then throw .invalidPath
  let parts := ((Path.segments path).reverse.dropWhile (· == "")).reverse
  let place ← fs.walk (parts.dropLast) (fs.start path)
  match fs.node? place, parts.getLast? with
  | none, _ => throw .notFound
  | some (.file _), _ => throw .notADirectory
  | some .directory, some name =>
    if name = "" ∨ name = "." ∨ name = ".." then pure none else pure (some (place ++ [name]))
  | some .directory, none => pure none

/-! ## Reading and writing -/

/-- **Bytes of a file.** -/
def readBytes (fs : FileSystem) (path : String) : Except FileError (List UInt8) := do
  match ← fs.find path with
  | (_, .file bytes) => pure bytes
  | (_, .directory) => throw .isADirectory

/-- **Text of bytes**, if they are well formed. -/
def textOfBytes? (bytes : List UInt8) : Option String :=
  String.fromUTF8? ⟨bytes.toArray⟩

/-- **Bytes of a text.** -/
def bytesOfText (text : String) : List UInt8 :=
  text.toUTF8.toList

/-- **Text of a file.** -/
def read (fs : FileSystem) (path : String) : Except FileError String := do
  match textOfBytes? (← fs.readBytes path) with
  | some text => pure text
  | none => throw .invalidData

/-- **File system after a file is written**: made, or replaced. A path that ends in a slash names no file. -/
def write (fs : FileSystem) (path : String) (bytes : List UInt8) : Except FileError FileSystem := do
  match ← fs.newPlace? path with
  | none => throw .isADirectory
  | some place =>
    if path.toList.getLast? = some '/' ∨ fs.node? place = some .directory then throw .isADirectory
    pure (fs.put place (.file bytes))

/-! ## Making directories -/

/-- **File system after a directory is made.** -/
def makeDirectory (fs : FileSystem) (path : String) : Except FileError FileSystem := do
  match ← fs.newPlace? path with
  | none => throw .alreadyExists
  | some place =>
    if (fs.node? place).isSome then throw .alreadyExists
    pure (fs.put place .directory)

/-- **Directory made unless it is there**, and the file system after that. -/
def ensureDirectory (fs : FileSystem) (path : String) : Except FileError Unit × FileSystem :=
  match fs.makeDirectory path with
  | .ok fs => (.ok (), fs)
  | .error e => (if fs.isDirectory path then .ok () else .error e, fs)

/-- **Paths on the way** to a path, itself first; the fuel bounds their number. -/
def pathsTo : Nat → String → List String
  | 0, _ => []
  | fuel + 1, path =>
    if path = "" then []
    else path :: ((Path.parent? path).map (pathsTo fuel)).getD []

/-- **Directories made along paths**, the last path first. What was made stays, also when a later one fails. -/
def ensureAll (fs : FileSystem) : List String → Except FileError Unit × FileSystem
  | [] => (.ok (), fs)
  | path :: outer =>
    match fs.makeDirectory path with
    | .ok fs => (.ok (), fs)
    | .error .notFound =>
      match ensureAll fs outer with
      | (.ok (), fs) => fs.ensureDirectory path
      | failed => failed
    | .error e => (if fs.isDirectory path then .ok () else .error e, fs)

/-- **Directory made with all those that hold it.** -/
def makeDirectories (fs : FileSystem) (path : String) : Except FileError Unit × FileSystem :=
  fs.ensureAll (pathsTo (path.length + 1) path)

/-! ## Given files -/

/-- **File system with a directory at a place**, and all those that hold it. -/
def withDirectory (fs : FileSystem) (place : Place) : FileSystem :=
  ((List.range place.length).map fun n => place.take (n + 1)).foldl (fun fs place =>
    if (fs.node? place).isSome then fs else fs.put place .directory) fs

/-- **Place that a path names** when every segment is taken at its word. -/
def givenPlace (fs : FileSystem) (path : String) : Place :=
  (Path.segments path).foldl (fun place segment =>
    if segment = "" ∨ segment = "." then place
    else if segment = ".." then place.dropLast
    else place ++ [segment]) (fs.start path)

/-- **File system with a file given**, and the directories that hold it. -/
def withFile (fs : FileSystem) (path : String) (bytes : List UInt8) : FileSystem :=
  let place := fs.givenPlace path
  (fs.withDirectory place.dropLast).put place (.file bytes)

end FileSystem

end FormWiring
