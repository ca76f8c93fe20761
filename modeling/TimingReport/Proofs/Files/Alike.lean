import TimingReport.Proofs.Fallible
import TimingReport.Proofs.Files.Frame

/-!
# Stores that are alike

Two stores are alike if they differ only in what some of their files hold.  Every path leads to
the same place in both, every operation fails in both with the same error or in none, and
stores that were alike before an operation are alike behind it.
-/

namespace TimingReport.Files.Store

open Fallible (Together)

variable {α : Type} {related : α → α → Prop}

/-- What stands at a location is the same, or two files with related contents. -/
inductive NodesAlike (related : α → α → Prop) : Option (Node α) → Option (Node α) → Prop where
  | same (node : Option (Node α)) : NodesAlike related node node
  | contents {content other : α} :
      related content other → NodesAlike related (some (.file content)) (some (.file other))

/-- The same locations are taken, and what stands there is alike. -/
structure Alike (related : α → α → Prop) (left right : Store α) : Prop where
  workingDirectory : right.workingDirectory = left.workingDirectory
  locations : right.entries.map Prod.fst = left.entries.map Prod.fst
  nodes : ∀ location, NodesAlike related (left.node? location) (right.node? location)

/-- The store with other content in the file at a location. -/
def rewrite (store : Store α) (location : Location) (content : α) : Store α :=
  { store with entries := store.entries.map fun entry =>
      if entry.1 = location then (location, .file content) else entry }

theorem lookup_rewrite (entries : List (Location × Node α)) (location : Location) (content : α)
    (place : Location) :
    (entries.map fun entry =>
      if entry.1 = location then (location, .file content) else entry).lookup
        place =
      if place = location then (entries.lookup place).map fun _ => .file content
      else entries.lookup place := by
  induction entries with
  | nil => simp
  | cons entry rest ih =>
    obtain ⟨found, node⟩ := entry
    rw [List.map_cons]
    by_cases hplace : place = found
    · subst hplace
      by_cases hlocation : place = location <;> simp [hlocation]
    · have hother : (place == found) = false := by simp [hplace]
      by_cases hlocation : found = location
      · subst hlocation
        simp [List.lookup_cons, hother, ih, hplace]
      · simp [List.lookup_cons, hother, ih, hlocation]

theorem node?_rewrite_self {store : Store α} {location : Location} {content : α}
    (hfile : store.node? location = some (.file content)) (other : α) :
    (store.rewrite location other).node? location = some (.file other) := by
  have hroot : location ≠ [] := by
    rintro rfl
    simp [node?] at hfile
  rw [node?, if_neg hroot] at hfile ⊢
  rw [rewrite, lookup_rewrite, if_pos rfl, hfile, Option.map_some]

/-- A file with related content makes a store that is alike. -/
theorem alike_rewrite {store : Store α} {location : Location} {content other : α}
    (hfile : store.node? location = some (.file content)) (hrelated : related content other) :
    Alike related store (store.rewrite location other) := by
  refine ⟨rfl, ?_, fun place => ?_⟩
  · rw [rewrite, List.map_map]
    refine List.map_congr_left fun entry _ => ?_
    by_cases hentry : entry.1 = location <;> simp [hentry]
  · by_cases hplace : place = location
    · subst hplace
      rw [hfile, node?_rewrite_self hfile]
      exact .contents hrelated
    · have hsame : (store.rewrite location other).node? place = store.node? place := by
        rw [node?, node?, rewrite, lookup_rewrite, if_neg hplace]
      rw [hsame]
      exact .same _

/-- What a path names is at its location. -/
theorem node?_of_lookup {store : Store α} {path : String} {location : Location} {content : α}
    (hfile : store.lookup path = .ok (location, .file content)) :
    store.node? location = some (.file content) := by
  simp only [lookup, bind, Except.bind] at hfile
  split at hfile
  · cases hfile
  · next found _ =>
    obtain ⟨directory, last⟩ := found
    dsimp only at hfile
    split at hfile
    · split at hfile <;> simp at hfile
    · split at hfile
      · cases hfile
      · next node hnode =>
        obtain ⟨rfl, rfl⟩ := Prod.mk.inj (Except.ok.inj hfile)
        exact hnode

theorem read_of_lookup {store : Store α} {path : String} {location : Location} {content : α}
    (hfile : store.lookup path = .ok (location, .file content)) :
    store.read path = .ok content := by
  rw [read, hfile]
  rfl

namespace Alike

variable {left right : Store α}

/-! ## Paths -/

theorem enter_eq (halike : Alike related left right) (directory : Location) (part : String) :
    right.enter directory part = left.enter directory part := by
  unfold enter
  have hnodes := halike.nodes (directory ++ [part])
  generalize left.node? (directory ++ [part]) = node at hnodes
  generalize right.node? (directory ++ [part]) = other at hnodes
  cases hnodes <;> rfl

theorem walk_eq (halike : Alike related left right) (start : Location) (parts : List String) :
    right.walk start parts = left.walk start parts := by
  have henter : right.enter = left.enter := by
    funext directory part
    exact halike.enter_eq directory part
  rw [walk, walk, henter]

theorem origin_eq (halike : Alike related left right) (path : String) :
    right.origin path = left.origin path := by
  rw [origin, origin, halike.workingDirectory]

theorem place_eq (halike : Alike related left right) (path : String) :
    right.place path = left.place path := by
  simp only [place, halike.origin_eq, halike.walk_eq]

theorem enclosing_eq (halike : Alike related left right) (path : String) :
    right.enclosing path = left.enclosing path := by
  simp only [enclosing, halike.origin_eq, halike.walk_eq]

/-- A path finds the same in both stores, or files with related contents. -/
theorem lookup_cases (halike : Alike related left right) (path : String) :
    right.lookup path = left.lookup path ∨
      ∃ location content other, related content other ∧
        left.lookup path = .ok (location, .file content) ∧
        right.lookup path = .ok (location, .file other) := by
  simp only [lookup, halike.enclosing_eq, bind, Except.bind]
  cases left.enclosing path with
  | error error => exact .inl rfl
  | ok found =>
    obtain ⟨directory, last⟩ := found
    simp only [halike.enter_eq]
    by_cases hidle : (isIdle last || decide (last = "..")) = true
    · simp only [if_pos hidle]
      exact .inl trivial
    · simp only [if_neg hidle]
      have hnodes := halike.nodes (directory ++ [last])
      generalize left.node? (directory ++ [last]) = node at hnodes
      generalize right.node? (directory ++ [last]) = other at hnodes
      cases hnodes with
      | same => exact .inl rfl
      | contents hrelated => exact .inr ⟨_, _, _, hrelated, rfl, rfl⟩

theorem isDirectory_eq (halike : Alike related left right) (path : String) :
    right.isDirectory path = left.isDirectory path := by
  rw [isDirectory, isDirectory]
  rcases halike.lookup_cases path with hsame | ⟨location, content, other, -, hleft, hright⟩
  · rw [hsame]
  · rw [hleft, hright]

theorem isFile_eq (halike : Alike related left right) (path : String) :
    right.isFile path = left.isFile path := by
  rw [isFile, isFile]
  rcases halike.lookup_cases path with hsame | ⟨location, content, other, -, hleft, hright⟩
  · rw [hsame]
  · rw [hleft, hright]

theorem read_cases (halike : Alike related left right) (path : String) :
    right.read path = left.read path ∨
      ∃ content other, related content other ∧ left.read path = .ok content ∧
        right.read path = .ok other := by
  rw [read, read]
  rcases halike.lookup_cases path with hsame | ⟨location, content, other, hrelated, hleft, hright⟩
  · rw [hsame]
    exact .inl rfl
  · rw [hleft, hright]
    exact .inr ⟨content, other, hrelated, rfl, rfl⟩

theorem fileLocation_eq (halike : Alike related left right) (path : String)
    (dots slash : SystemError) :
    right.fileLocation path dots slash = left.fileLocation path dots slash := by
  simp only [fileLocation, halike.place_eq, bind, Except.bind]
  cases left.place path with
  | error error => rfl
  | ok found =>
    obtain ⟨directory, name, slashFollows⟩ := found
    cases name with
    | none => rfl
    | some name =>
      have hnodes := halike.nodes (directory ++ [name])
      dsimp only
      generalize left.node? (directory ++ [name]) = node at hnodes
      generalize right.node? (directory ++ [name]) = other at hnodes
      cases hnodes <;> rfl

theorem sameDirectories (halike : Alike related left right) : SameDirectories left right := by
  refine ⟨halike.workingDirectory, fun location => ?_⟩
  have hnodes := halike.nodes location
  generalize left.node? location = node at hnodes
  generalize right.node? location = other at hnodes
  cases hnodes <;> simp

theorem nameLength_eq (store : Store α) :
    store.nameLength = (store.entries.map Prod.fst).foldr
      (fun location length => (location.getLastD "").length + length) 0 := by
  rw [nameLength, List.foldr_map]

theorem freshName_eq (halike : Alike related left right) (stem ending : String) :
    right.freshName stem ending = left.freshName stem ending := by
  rw [freshName, freshName, nameLength_eq, nameLength_eq, halike.locations]

/-! ## Changes -/

theorem map_fst_filter_ne (entries : List (Location × Node α)) (location : Location) :
    (entries.filter fun entry => entry.1 ≠ location).map Prod.fst =
      (entries.map Prod.fst).filter (· ≠ location) := by
  rw [List.filter_map]
  rfl

theorem remove (halike : Alike related left right) (location : Location) :
    Alike related (left.remove location) (right.remove location) := by
  refine ⟨halike.workingDirectory, ?_, fun other => ?_⟩
  · simp only [Store.remove, map_fst_filter_ne, halike.locations]
  · by_cases hother : other = location
    · subst hother
      have hgone : ∀ store : Store α, (store.remove other).node? other =
          if other = [] then some .directory else none := by
        intro store
        rw [node?]
        refine if_congr Iff.rfl rfl (List.lookup_eq_none_iff.2 fun entry hentry => ?_)
        have hne : entry.1 ≠ other := of_decide_eq_true (List.mem_filter.1 hentry).2
        simpa using hne.symm
      rw [hgone, hgone]
      exact .same _
    · rw [node?_remove_of_ne _ hother, node?_remove_of_ne _ hother]
      exact halike.nodes other

theorem put (halike : Alike related left right) (location : Location) {node other : Node α}
    (hnodes : NodesAlike related (some node) (some other)) :
    Alike related (left.put location node) (right.put location other) := by
  refine ⟨halike.workingDirectory, ?_, fun place => ?_⟩
  · simp only [Store.put, List.map_cons, map_fst_filter_ne, halike.locations]
  · by_cases hplace : place = location
    · subst hplace
      by_cases hroot : place = []
      · subst hroot
        exact .same _
      · rw [node?_put_self _ hroot, node?_put_self _ hroot]
        exact hnodes
    · rw [node?_put_of_ne _ hplace, node?_put_of_ne _ hplace]
      exact halike.nodes place

theorem moveOnto (halike : Alike related left right) (source : Location) (path : String) :
    Together (Alike related) (left.moveOnto source path) (right.moveOnto source path) := by
  have hnodes := halike.nodes source
  simp only [Store.moveOnto, halike.fileLocation_eq, bind, Except.bind]
  generalize left.node? source = node at hnodes
  generalize right.node? source = other at hnodes
  cases hnodes with
  | contents hrelated =>
    dsimp only
    cases left.fileLocation path .busy .notADirectory with
    | error error => exact .error error
    | ok location => exact .ok ((halike.remove source).put location (.contents hrelated))
  | same node =>
    rcases node with _ | _ | content
    · exact .error _
    · exact .error _
    · dsimp only
      cases left.fileLocation path .busy .notADirectory with
      | error error => exact .error error
      | ok location => exact .ok ((halike.remove source).put location (.same _))

theorem write (halike : Alike related left right) (path : String) (content : α) :
    Together (Alike related) (left.write path content) (right.write path content) := by
  simp only [Store.write, halike.fileLocation_eq, bind, Except.bind]
  cases left.fileLocation path .isADirectory .isADirectory with
  | error error => exact .error error
  | ok location => exact .ok (halike.put location (.same _))

end Alike

/-- The path of a file that gets other content names it as before. -/
theorem lookup_rewrite_file {store : Store α} {path : String} {location : Location} {content : α}
    (hfile : store.lookup path = .ok (location, .file content)) (other : α) :
    (store.rewrite location other).lookup path = .ok (location, .file other) := by
  have hnode := node?_of_lookup hfile
  have halike : Alike (fun left right => left = content ∧ right = other) store
      (store.rewrite location other) := alike_rewrite hnode ⟨rfl, rfl⟩
  rcases halike.lookup_cases path with hsame | ⟨_, _, _, ⟨rfl, rfl⟩, hleft, hright⟩
  · rw [hfile] at hsame
    have hcontent := (node?_of_lookup hsame).symm.trans (node?_rewrite_self hnode other)
    obtain rfl : content = other := by simpa using hcontent
    exact hsame
  · rw [hfile] at hleft
    obtain ⟨rfl, -⟩ := Prod.mk.inj (Except.ok.inj hleft)
    exact hright

end TimingReport.Files.Store
