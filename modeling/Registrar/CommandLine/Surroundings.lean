import Registrar.CommandLine.Source

/-!
# Surroundings

All that a run can read: standard input, files at known paths, and what every system has besides
them, such as the root directory and `/dev/null`. A path is followed name by name through a
`FileTree`; the `Place` it has come to remembers the directories above, so that `..` leads back.

* `Place.follow_append` — the names of a path are followed one after the other.
* `Place.enter_file` — nothing lies below a file.
* `Surroundings.read_file` — a file at a known path gives its bytes.
-/

set_option autoImplicit false

namespace Registrar.CommandLine

/-! ## File trees -/

/-- **A file tree**: a file, or a directory of named trees. -/
inductive FileTree where
  | file (bytes : List UInt8)
  | directory (entries : List (String × FileTree))

/-- A tree with the directories above it, the nearest first. -/
structure Place where
  here : FileTree
  above : List FileTree

/-- A name has no more bytes than this. -/
def nameLimit : Nat := 255

/-- A path has no more bytes than this. -/
def pathLimit : Nat := 4095

namespace Place

/-- The place one directory up; the root is above itself. -/
def parent (p : Place) : Place :=
  match p.above with
  | [] => p
  | tree :: above => ⟨tree, above⟩

/-- The place that a name in a path leads to. An empty name, as behind the last slash of a path,
and a dot lead nowhere but ask for a directory. -/
def enter (p : Place) (name : String) : Except SystemError Place :=
  match p.here with
  | .file _ => .error .notADirectory
  | .directory entries =>
      if name = "" ∨ name = "." then .ok p
      else if name = ".." then .ok p.parent
      else if nameLimit < name.utf8ByteSize then .error .nameTooLong
      else
        match entries.lookup name with
        | none => .error .noSuchFile
        | some tree => .ok ⟨tree, p.here :: p.above⟩

/-- The place that names lead to. -/
def follow (p : Place) (names : List String) : Except SystemError Place :=
  names.foldlM enter p

/-- **Names are followed one after the other.** -/
theorem follow_append (p : Place) (names more : List String) :
    p.follow (names ++ more) = p.follow names >>= fun place => place.follow more :=
  List.foldlM_append

/-- **Nothing lies below a file**, not even the file itself. -/
theorem enter_file (bytes : List UInt8) (above : List FileTree) (name : String) :
    enter ⟨.file bytes, above⟩ name = .error .notADirectory := rfl

end Place

/-! ## What a run can read -/

/-- **Surroundings**: the bytes of standard input and of files, by their paths. -/
structure Surroundings where
  standardInput : List UInt8
  files : List (String × List UInt8)

namespace Surroundings

/-- The directories below the root that hold nothing a run has to know. -/
def plainDirectories : List String :=
  [ "bin", "boot", "etc", "home", "lib", "media", "mnt", "opt", "root", "run", "sbin", "srv",
    "sys", "tmp", "usr", "var" ]

/-- What every system has: the usual directories, an empty device, and standard input under the
names that stand for it. -/
def root (s : Surroundings) : FileTree :=
  let descriptors := FileTree.directory [("0", .file s.standardInput)]
  .directory <|
    [ ("dev", .directory
        [("null", .file []), ("stdin", .file s.standardInput), ("fd", descriptors)]),
      ("proc", .directory [("self", .directory [("fd", descriptors)])]) ]
      ++ plainDirectories.map fun name => (name, .directory [])

/-- Where a path starts: at the root if a slash is in front, else in a working directory. -/
def start (s : Surroundings) (path : String) : Place :=
  if path.toList.head? = some '/' then ⟨s.root, []⟩ else ⟨.directory [], [s.root]⟩

/-- The names of a path. -/
def namesOf (path : String) : List String := (path.toList.splitOn '/').map String.ofList

/-- The tree at a path. -/
def find (s : Surroundings) (path : String) : Except SystemError FileTree :=
  match s.files.lookup path with
  | some bytes => .ok (.file bytes)
  | none =>
      if path = "" then .error .noSuchFile
      else if pathLimit < path.utf8ByteSize then .error .nameTooLong
      else ((s.start path).follow (namesOf path)).map (·.here)

/-- **The bytes of a source.** A directory opens but cannot be read. -/
def read (s : Surroundings) : Source → Except SourceError (List UInt8)
  | .standardInput => .ok s.standardInput
  | .file path =>
      match s.find path with
      | .error e => .error (.opening e)
      | .ok (.directory _) => .error (.reading .isADirectory)
      | .ok (.file bytes) => .ok bytes

/-- **A file at a known path gives its bytes.** -/
theorem read_file {s : Surroundings} {path : String} {bytes : List UInt8}
    (h : s.files.lookup path = some bytes) : s.read (.file path) = .ok bytes := by
  simp [read, find, h]

end Surroundings

end Registrar.CommandLine
