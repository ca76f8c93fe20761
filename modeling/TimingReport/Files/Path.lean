/-!
# Paths

A path is a text whose parts are separated by slashes. Empty parts and dots name
nothing, except a dot in front of a relative path. The parent of a path is the text in
front of its last part.
-/

namespace TimingReport.Files

/-- The texts between the slashes, of which there is always one. -/
def splitSlashes : List Char → List (List Char)
  | [] => [[]]
  | c :: rest =>
    if c = '/' then [] :: splitSlashes rest
    else
      match splitSlashes rest with
      | [] => [[c]]
      | part :: parts => (c :: part) :: parts

theorem splitSlashes_ne_nil (text : List Char) : splitSlashes text ≠ [] := by
  cases text with
  | nil => exact List.cons_ne_nil _ _
  | cons c rest =>
    rw [splitSlashes]
    split
    · exact List.cons_ne_nil _ _
    · split <;> exact List.cons_ne_nil _ _

def isRooted (path : String) : Bool := path.toList.head? = some '/'

/-- The parts of a path, without the slash of the root. -/
def parts (path : String) : List String :=
  let text := if isRooted path then path.toList.drop 1 else path.toList
  (splitSlashes text).map String.ofList

/-- Whether a part names nothing of its own. -/
def isIdle (part : String) : Bool := part = "" || part = "."

/-- Drops idle parts from the end of a path, whose parts are given from the last to the
first. -/
def dropIdle (rooted : Bool) : List String → List String
  | [] => []
  | ["."] => if rooted then [] else ["."]
  | part :: rest => if isIdle part then dropIdle rooted rest else part :: rest

/-- The path without its last part; the root and the empty path have none. -/
def parent? (path : String) : Option String :=
  let rooted := isRooted path
  match dropIdle rooted (parts path).reverse with
  | [] => none
  | _ :: before =>
    let front := if rooted then "/" else ""
    some (front ++ "/".intercalate (dropIdle rooted before).reverse)

/-- What tells two paths apart: whether they begin at the root, and the parts that name
something. -/
structure PathKey where
  rooted : Bool
  parts : List String
  deriving DecidableEq, Repr

def pathKey (path : String) : PathKey :=
  let rooted := isRooted path
  match parts path with
  | "." :: rest =>
    ⟨rooted, (if rooted then [] else ["."]) ++ rest.filter (fun part => !isIdle part)⟩
  | all => ⟨rooted, all.filter (fun part => !isIdle part)⟩

end TimingReport.Files
