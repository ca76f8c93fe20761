import TimingReport.Files.Path

/-!
# Files and directories

A store holds the files and directories that a report can see. Every operation follows a
path part by part, as an operating system does, and fails with the error that the system
gives. There are no links and no permissions, so nothing else stands in its way.
-/

namespace TimingReport.Files

inductive SystemError where
  | notFound
  | busy
  | notADirectory
  | isADirectory
  deriving DecidableEq, Repr

def SystemError.message : SystemError → String
  | .notFound => "No such file or directory (os error 2)"
  | .busy => "Device or resource busy (os error 16)"
  | .notADirectory => "Not a directory (os error 20)"
  | .isADirectory => "Is a directory (os error 21)"

/-- The names that lead from the root to a file or directory. -/
abbrev Location := List String

variable {α : Type}

inductive Node (α : Type) where
  | directory
  | file (content : α)
  deriving DecidableEq, Repr

/-- What is there, apart from the root, and where relative paths begin. -/
structure Store (α : Type) where
  entries : List (Location × Node α)
  workingDirectory : Location

namespace Store

def empty : Store α := ⟨[], []⟩

/-- What is at a location. The root is always there. -/
def node? (store : Store α) (location : Location) : Option (Node α) :=
  if location = [] then some .directory else store.entries.lookup location

/-- Replaces what is at a location. -/
def put (store : Store α) (location : Location) (node : Node α) : Store α :=
  let others := store.entries.filter (fun entry => entry.1 ≠ location)
  { store with entries := (location, node) :: others }

def remove (store : Store α) (location : Location) : Store α :=
  { store with entries := store.entries.filter (fun entry => entry.1 ≠ location) }

theorem lookup_filter_of_ne {location other : Location} (hne : other ≠ location)
    (entries : List (Location × Node α)) :
    (entries.filter (fun entry => entry.1 ≠ location)).lookup other =
      entries.lookup other := by
  induction entries with
  | nil => rfl
  | cons entry rest ih =>
    obtain ⟨found, node⟩ := entry
    by_cases hfound : found = location
    · have hother : (other == found) = false := by simp [hfound, hne]
      simp only [hfound, List.filter, ne_eq, not_true_eq_false, decide_false, ih]
      rw [← hfound, List.lookup_cons, hother]
    · simp only [List.filter, ne_eq, hfound, not_false_eq_true, decide_true,
        List.lookup_cons, ih]

@[simp]
theorem node?_put_self (store : Store α) {location : Location} (hroot : location ≠ [])
    (node : Node α) : (store.put location node).node? location = some node := by
  simp [node?, put, hroot]

theorem node?_put_of_ne (store : Store α) {location other : Location}
    (hne : other ≠ location) (node : Node α) :
    (store.put location node).node? other = store.node? other := by
  have hbeq : (other == location) = false := by simp [hne]
  simp only [node?, put, List.lookup_cons, hbeq, lookup_filter_of_ne hne]

theorem node?_remove_of_ne (store : Store α) {location other : Location}
    (hne : other ≠ location) :
    (store.remove location).node? other = store.node? other := by
  simp only [node?, remove, lookup_filter_of_ne hne]

/-- Goes from a directory to the directory that a part of a path names. -/
def enter (store : Store α) (directory : Location) (part : String) :
    Except SystemError Location :=
  if isIdle part then .ok directory
  else if part = ".." then .ok directory.dropLast
  else
    match store.node? (directory ++ [part]) with
    | none => .error .notFound
    | some (.file _) => .error .notADirectory
    | some .directory => .ok (directory ++ [part])

def origin (store : Store α) (path : String) : Location :=
  if isRooted path then [] else store.workingDirectory

/-- The directory that parts of a path lead to. -/
def walk (store : Store α) (start : Location) (parts : List String) :
    Except SystemError Location :=
  parts.foldlM store.enter start

/-- The directory in front of the last part of a path, and that part. -/
def enclosing (store : Store α) (path : String) :
    Except SystemError (Location × String) :=
  if path = "" then .error .notFound
  else
    (store.walk (store.origin path) (parts path).dropLast).map
      (·, (parts path).getLastD "")

/-- What a path names. -/
def lookup (store : Store α) (path : String) :
    Except SystemError (Location × Node α) := do
  let (directory, last) ← store.enclosing path
  if isIdle last || last = ".." then
    let location ← store.enter directory last
    .ok (location, .directory)
  else
    match store.node? (directory ++ [last]) with
    | none => .error .notFound
    | some node => .ok (directory ++ [last], node)

def isDirectory (store : Store α) (path : String) : Bool :=
  match store.lookup path with
  | .ok (_, .directory) => true
  | _ => false

def isFile (store : Store α) (path : String) : Bool :=
  match store.lookup path with
  | .ok (_, .file _) => true
  | _ => false

/-- The content of the file that a path names. -/
def read (store : Store α) (path : String) : Except SystemError α := do
  match ← store.lookup path with
  | (_, .directory) => .error .isADirectory
  | (_, .file content) => .ok content

/-- The place of a file that may not be there yet: its directory, its name, and whether
slashes follow the name. A path that ends in dots has no such place. -/
structure Place where
  directory : Location
  name : Option String
  slash : Bool

/-- The parts of a path up to its last name, and whether slashes follow. -/
def trimSlashes (all : List String) : List String × Bool :=
  let kept := (all.reverse.dropWhile (· = "")).reverse
  (kept, kept.length < all.length)

def place (store : Store α) (path : String) : Except SystemError Place :=
  let (kept, slash) := trimSlashes (parts path)
  if path = "" then .error .notFound
  else
    let last := kept.getLastD "."
    (store.walk (store.origin path) kept.dropLast).map
      (⟨·, if last = "." || last = ".." then none else some last, slash⟩)

/-- The location of the file that a path names, or that it would name if the file were
made. There is none behind dots or in front of a slash, which fail with the given
errors, nor where a directory is. -/
def fileLocation (store : Store α) (path : String) (dots slash : SystemError) :
    Except SystemError Location := do
  let place ← store.place path
  match place.name with
  | none => .error dots
  | some name =>
    let location := place.directory ++ [name]
    if place.slash then .error slash
    else
      match store.node? location with
      | some .directory => .error .isADirectory
      | _ => .ok location

/-- Moves the file at a location onto a path, in place of the file that may be there. -/
def moveOnto (store : Store α) (source : Location) (path : String) :
    Except SystemError (Store α) := do
  match store.node? source with
  | some (.file content) =>
    let location ← store.fileLocation path .busy .notADirectory
    .ok ((store.remove source).put location (.file content))
  | _ => .error .notFound

/-- Writes a file, which is made if it is not there. -/
def write (store : Store α) (path : String) (content : α) :
    Except SystemError (Store α) := do
  let location ← store.fileLocation path .isADirectory .isADirectory
  .ok (store.put location (.file content))

/-- The length of the last name of all entries together. -/
def nameLength (store : Store α) : Nat :=
  store.entries.foldr (fun entry length => (entry.1.getLastD "").length + length) 0

/-- A name between a stem and an ending that no entry has, as it is longer than all
their names together. -/
def freshName (store : Store α) (stem ending : String) : String :=
  stem ++ String.ofList (List.replicate (store.nameLength + 1) '0') ++ ending

end Store

end TimingReport.Files
