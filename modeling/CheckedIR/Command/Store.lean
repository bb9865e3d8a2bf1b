/-!
# Stores of files

Files and directories by their place, which is the list of names that lead to it from the root. A
path is followed name by name from the root or from the working directory, and every name but the
last has to lead to a directory.
-/

namespace CheckedIR.Command

abbrev Place := List String

def waypoints (p : Place) : List Place := (List.range (p.length + 1)).map fun n => p.take n

inductive StoreError
  | missing
  | notDirectory
  | isDirectory
  | isPresent
  | nameTooLong
  deriving DecidableEq, Repr

def StoreError.text : StoreError → String
  | .missing => "no such file or directory"
  | .notDirectory => "not a directory"
  | .isDirectory => "is a directory"
  | .isPresent => "file exists"
  | .nameTooLong => "file name too long"

structure StoreFailure where
  action : String
  path : String
  reason : StoreError
  deriving DecidableEq, Repr

def StoreFailure.text (f : StoreFailure) : String :=
  f.action ++ " " ++ f.path ++ ": " ++ f.reason.text

structure Store where
  workingDir : Place
  files : List (Place × String)
  dirs : List Place
  deriving DecidableEq, Repr

namespace Store

def empty (workingDir : Place) : Store := ⟨workingDir, [], waypoints workingDir⟩

def file? (s : Store) (p : Place) : Option String := s.files.lookup p

def isDir (s : Store) (p : Place) : Bool := p.isEmpty || s.dirs.contains p

def setFile (s : Store) (p : Place) (text : String) : Store :=
  { s with
    files :=
      if s.files.any (·.1 == p) then
        s.files.map fun e => if e.1 == p then (p, text) else e
      else s.files ++ [(p, text)] }

def addDir (s : Store) (p : Place) : Store :=
  if s.isDir p then s else { s with dirs := s.dirs ++ [p] }

def workingPath (s : Store) : String := "/" ++ "/".intercalate s.workingDir

/-! ## Following paths -/

def longestName : Nat := 255

def longestPath : Nat := 4095

def follow (s : Store) (here : Place) : List String → Except StoreError Place
  | [] => pure here
  | name :: rest =>
    if !s.isDir here then throw (if (s.file? here).isSome then .notDirectory else .missing)
    else if name.isEmpty || name == "." then s.follow here rest
    else if name == ".." then s.follow here.dropLast rest
    else if longestName < name.utf8ByteSize then throw .nameTooLong
    else s.follow (here ++ [name]) rest

/-- The place that a path leads to, whether something is there or not. -/
def locate (s : Store) (path : List Char) : Except StoreError Place :=
  if path.isEmpty then throw .missing
  else if longestPath < (String.ofList path).utf8ByteSize then throw .nameTooLong
  else
    s.follow (if path.head? == some '/' then [] else s.workingDir)
      ((path.splitOn '/').map String.ofList)

def read (s : Store) (path : String) : Except StoreFailure String :=
  match s.locate path.toList with
  | .error e => throw ⟨"open", path, e⟩
  | .ok p =>
    match s.file? p with
    | some text => pure text
    | none =>
      if s.isDir p then throw ⟨"read", path, .isDirectory⟩ else throw ⟨"open", path, .missing⟩

def write (s : Store) (path text : String) : Except StoreFailure Store :=
  match s.locate path.toList with
  | .error e => throw ⟨"open", path, e⟩
  | .ok p => if s.isDir p then throw ⟨"open", path, .isDirectory⟩ else pure (s.setFile p text)

/-! ## Making directories -/

def parent? (path : List Char) : Option (List Char) :=
  let before := ((path.reverse.dropWhile (· == '/')).dropWhile (· != '/')).reverse
  if 1 < before.length then some before.dropLast else none

def makeDir (s : Store) (path : List Char) : Except StoreFailure Store :=
  let bare := (path.reverse.dropWhile (· == '/')).reverse
  match s.locate bare with
  | .error e => throw ⟨"mkdir", String.ofList path, e⟩
  | .ok p =>
    if (s.file? p).isSome then throw ⟨"mkdir", String.ofList path, .isPresent⟩
    else pure (s.addDir p)

/-- Makes a directory and those that lead to it. Every parent is shorter than its path, so `fuel`
need not exceed the length of the path. -/
def makeDirs (fuel : Nat) (s : Store) (path : List Char) : Except StoreFailure Store :=
  let there :=
    match s.locate path with
    | .ok p => if s.isDir p then some true else (s.file? p).map fun _ => false
    | .error _ => none
  match there, fuel with
  | some true, _ => pure s
  | some false, _ => throw ⟨"mkdir", String.ofList path, .notDirectory⟩
  | none, 0 => s.makeDir path
  | none, fuel + 1 =>
    match parent? path with
    | some parent => do (← makeDirs fuel s parent).makeDir path
    | none => s.makeDir path

def ensureDir (s : Store) (path : String) : Except StoreFailure Store :=
  makeDirs path.length s path.toList

def put (s : Store) (path text : String) : Store :=
  let p := s.workingDir ++ (path.toList.splitOn '/').map String.ofList
  ((waypoints p.dropLast).foldl addDir s).setFile p text

def localFiles (s : Store) : List (String × String) :=
  s.files.filterMap fun (p, text) =>
    if s.workingDir.isPrefixOf p then
      some ("/".intercalate (p.drop s.workingDir.length), text)
    else none

end Store

end CheckedIR.Command
