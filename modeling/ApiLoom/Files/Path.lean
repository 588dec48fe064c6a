/-!
# Paths

A path is a start and the names that lead on from it.  Runs of slashes count as
one and names that are a single dot are dropped; two dots stay, because what they
mean depends on the directories passed.
-/

namespace ApiLoom

/-- Where a path starts: the working directory, the directory above all files that
are known, or a number of slashes. -/
inductive PathStart where
  | here
  | top
  | slashes (count : Nat)
deriving DecidableEq, Repr, Inhabited

structure Path where
  start : PathStart
  names : List String
deriving DecidableEq, Repr, Inhabited

namespace Path

/-! ### Text -/

def pieces : List Char → List (List Char)
  | [] => [[]]
  | c :: rest =>
    match pieces rest with
    | [] => [[c]]
    | first :: others => if c = '/' then [] :: first :: others else (c :: first) :: others

/-- More than two slashes at the start are the same as one. -/
def startOf (cs : List Char) : PathStart :=
  match (cs.takeWhile (· = '/')).length with
  | 0 => .here
  | 2 => .slashes 2
  | _ => .slashes 1

def ofText (s : String) : Path :=
  ⟨startOf s.toList, (pieces s.toList).filterMap fun piece =>
    if piece.isEmpty ∨ piece = ['.'] then none else some (String.ofList piece)⟩

/-- The text of a path; `home` is what the top directory is called. -/
def text (home : String) (p : Path) : String :=
  let tail := String.intercalate "/" p.names
  match p.start with
  | .here => if p.names.isEmpty then "." else tail
  | .slashes count => String.ofList (List.replicate count '/') ++ tail
  | .top => if p.names.isEmpty ∧ ¬home.isEmpty then home else home ++ "/" ++ tail

/-! ### Parts -/

/-- The last name, empty if there is none. -/
def name (p : Path) : String :=
  p.names.getLast?.getD ""

def parent (p : Path) : Path :=
  { p with names := p.names.dropLast }

def child (p : Path) (name : String) : Path :=
  { p with names := p.names ++ [name] }

/-- `q` as seen from `p`. -/
def join (p q : Path) : Path :=
  if q.start = .here then { p with names := p.names ++ q.names } else q

def follow (names : List String) (more : List String) : List String :=
  more.foldl (fun at_ name => if name = ".." then at_.dropLast else at_ ++ [name]) names

/-- The part of a name before its last dot and the part from there on.  A dot at
either end does not count. -/
def splitName (name : String) : String × String :=
  let cs := name.toList
  let tail := (cs.reverse.takeWhile (· ≠ '.')).reverse
  let stem := cs.take (cs.length - tail.length - 1)
  if stem.isEmpty ∨ tail.isEmpty then (name, "")
  else (String.ofList stem, String.ofList ('.' :: tail))

def stem (p : Path) : String := (splitName p.name).1

def suffix (p : Path) : String := (splitName p.name).2

end Path

end ApiLoom
