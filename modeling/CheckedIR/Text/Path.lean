/-!
# File paths

Slash-separated paths: the last element, the directory, the extension, and the shortest
equivalent path. All functions are lexical and touch no file.
-/

namespace CheckedIR.Text.Path

def dropTrailing (p : Char → Bool) (cs : List Char) : List Char :=
  (cs.reverse.dropWhile p).reverse

def isSlash (c : Char) : Bool := c == '/'

/-- The last element of a path. Trailing slashes do not count; the empty path gives `.` and a
path of slashes only gives `/`. -/
def base (path : String) : String :=
  if path.isEmpty then "."
  else
    match dropTrailing isSlash path.toList with
    | [] => "/"
    | cs => String.ofList (cs.reverse.takeWhile (! isSlash ·)).reverse

def ext (path : String) : String :=
  let tail := path.toList.reverse.takeWhile (! isSlash ·)
  match tail.span (· != '.') with
  | (after, '.' :: _) => String.ofList ('.' :: after.reverse)
  | _ => ""

/-- Resolves the elements of a path from left to right on a stack. A parent element cancels the
element before it; at the root it vanishes, and in front of a relative path it stays. -/
def resolve (rooted : Bool) : List (List Char) → List (List Char) → List (List Char)
  | stack, [] => stack.reverse
  | stack, [] :: rest => resolve rooted stack rest
  | stack, ['.'] :: rest => resolve rooted stack rest
  | stack, ['.', '.'] :: rest =>
    match stack with
    | [] => if rooted then resolve rooted [] rest else resolve rooted [['.', '.']] rest
    | ['.', '.'] :: below => resolve rooted (['.', '.'] :: ['.', '.'] :: below) rest
    | _ :: below => resolve rooted below rest
  | stack, e :: rest => resolve rooted (e :: stack) rest

def clean (path : String) : String :=
  let cs := path.toList
  let rooted := cs.head? == some '/'
  let elements := resolve rooted [] (cs.splitOn '/')
  match rooted, elements with
  | true, es => String.ofList ('/' :: ['/'].intercalate es)
  | false, [] => "."
  | false, es => String.ofList (['/'].intercalate es)

def dir (path : String) : String :=
  clean (String.ofList (path.toList.reverse.dropWhile (! isSlash ·)).reverse)

def join (dir name : String) : String :=
  match dir.isEmpty, name.isEmpty with
  | true, true => ""
  | true, false => clean name
  | false, true => clean dir
  | false, false => clean (dir ++ "/" ++ name)

def absolute (cwd path : String) : String :=
  if path.toList.head? == some '/' then clean path else join cwd path

end CheckedIR.Text.Path
