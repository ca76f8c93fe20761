import Mathlib.Algebra.Order.BigOperators.Group.List
import Mathlib.Algebra.Order.Ring.Nat
import TimingReport.Files.Store

/-!
# What a write leaves alone

A path is followed through directories, so two stores with the same directories
agree on where every path leads.  Putting a file where no directory stands keeps
the directories; hence it changes what is found at its own location and nowhere
else, by whatever path the other locations are reached.
-/

namespace TimingReport.Files.Store

variable {α : Type}

/-- The same directories stand in both stores. -/
structure SameDirectories (before after : Store α) : Prop where
  workingDirectory : after.workingDirectory = before.workingDirectory
  directory_iff : ∀ location,
    after.node? location = some .directory ↔ before.node? location = some .directory

/-- The location of the file that a path names, or would name if it were there.
Paths that end in dots or slashes name no file. -/
def target? (store : Store α) (path : String) : Option Location :=
  match store.place path with
  | .ok ⟨directory, some name, false⟩ => some (directory ++ [name])
  | _ => none

/-- What a path names, if it names anything. -/
def view (store : Store α) (path : String) : Option (Location × Node α) :=
  (store.lookup path).toOption

/-! ## The same directories, the same ways -/

namespace SameDirectories

variable {before after : Store α}

theorem refl (store : Store α) : SameDirectories store store :=
  ⟨rfl, fun _ => Iff.rfl⟩

theorem symm (hsame : SameDirectories before after) : SameDirectories after before :=
  ⟨hsame.workingDirectory.symm, fun location => (hsame.directory_iff location).symm⟩

theorem trans {later : Store α} (hfirst : SameDirectories before after)
    (hsecond : SameDirectories after later) : SameDirectories before later :=
  ⟨hsecond.workingDirectory.trans hfirst.workingDirectory,
    fun location => (hsecond.directory_iff location).trans (hfirst.directory_iff location)⟩

theorem origin_eq (hsame : SameDirectories before after) (path : String) :
    after.origin path = before.origin path := by
  rw [origin, origin, hsame.workingDirectory]

theorem enter_of_ok (hsame : SameDirectories before after) {directory next : Location}
    {part : String} (henter : before.enter directory part = .ok next) :
    after.enter directory part = .ok next := by
  unfold enter at henter ⊢
  split at henter
  · next hidle => rwa [if_pos hidle]
  · next hidle =>
    rw [if_neg hidle]
    split at henter
    · next hdots => rwa [if_pos hdots]
    · next hdots =>
      rw [if_neg hdots]
      cases hnode : before.node? (directory ++ [part]) with
      | none => simp [hnode] at henter
      | some node =>
        cases node with
        | file content => simp [hnode] at henter
        | directory => simpa [hnode, (hsame.directory_iff _).2 hnode] using henter

theorem walk_of_ok (hsame : SameDirectories before after) {parts : List String} :
    ∀ {start stop : Location}, before.walk start parts = .ok stop →
      after.walk start parts = .ok stop := by
  induction parts with
  | nil => exact fun hwalk => hwalk
  | cons part rest ih =>
    intro start stop hwalk
    simp only [walk, List.foldlM_cons] at hwalk ⊢
    cases henter : before.enter start part with
    | error error => simp [henter, bind, Except.bind] at hwalk
    | ok next =>
      rw [hsame.enter_of_ok henter]
      rw [henter] at hwalk
      exact ih hwalk

theorem place_of_ok (hsame : SameDirectories before after) {path : String} {found : Place}
    (hplace : before.place path = .ok found) : after.place path = .ok found := by
  simp only [place] at hplace ⊢
  split at hplace
  · simp at hplace
  · next hpath =>
    rw [if_neg hpath, hsame.origin_eq]
    cases hwalk : before.walk (before.origin path) (trimSlashes (parts path)).1.dropLast with
    | error error => simp [hwalk, Except.map] at hplace
    | ok directory =>
      rw [hsame.walk_of_ok hwalk]
      rwa [hwalk] at hplace

theorem target?_eq (hsame : SameDirectories before after) (path : String) :
    after.target? path = before.target? path := by
  unfold target?
  cases hbefore : before.place path with
  | ok found => rw [hsame.place_of_ok hbefore]
  | error error =>
    cases hafter : after.place path with
    | ok found => simp [hsame.symm.place_of_ok hafter] at hbefore
    | error error => rfl

end SameDirectories

/-! ## What a path names -/

theorem exists_parts_eq (path : String) : ∃ front last, parts path = front ++ [last] := by
  have hparts : parts path ≠ [] := by
    simpa [parts] using splitSlashes_ne_nil _
  exact ⟨_, _, (List.dropLast_concat_getLast hparts).symm⟩

theorem trimSlashes_concat {last : String} (hlast : last ≠ "") (front : List String) :
    trimSlashes (front ++ [last]) = (front ++ [last], false) := by
  simp [trimSlashes, hlast]

theorem trimSlashes_slash (front : List String) : (trimSlashes (front ++ [""])).2 = true := by
  have hlength : ((front.reverse.dropWhile (· = "")).reverse).length ≤ front.length := by
    simpa using
      (List.dropWhile_sublist (fun part => decide (part = "")) (l := front.reverse)).length_le
  simp [trimSlashes] at hlength ⊢
  omega

/-- A path names a file if its last part is a name and the others lead to a directory. -/
theorem target?_eq_some_iff {store : Store α} {path last : String} {front : List String}
    (hparts : parts path = front ++ [last]) {location : Location} :
    store.target? path = some location ↔
      last ≠ "" ∧ last ≠ "." ∧ last ≠ ".." ∧
        ∃ directory, store.walk (store.origin path) front = .ok directory ∧
          location = directory ++ [last] := by
  by_cases hlast : last = ""
  · subst hlast
    have hslash := trimSlashes_slash front
    have hnone : store.target? path = none := by
      simp only [target?, place, hparts]
      split
      · next found hplace =>
        split at hplace
        · cases hplace
        · cases hwalk : store.walk (store.origin path) (trimSlashes (front ++ [""])).1.dropLast with
          | error error => simp [hwalk, Except.map] at hplace
          | ok directory => simp [hwalk, Except.map, hslash] at hplace
      · rfl
    simp [hnone]
  · have hpath : path ≠ "" := by
      rintro rfl
      have hempty : front ++ [last] = [""] := hparts.symm
      have hsingle : front = [] ∧ last = "" := by simpa [List.append_eq_cons_iff] using hempty
      exact hlast hsingle.2
    simp only [target?, place, hparts, trimSlashes_concat hlast, if_neg hpath,
      List.dropLast_concat, List.getLastD_concat]
    cases hwalk : store.walk (store.origin path) front with
    | error error => simp [Except.map]
    | ok directory =>
      by_cases hdots : last = "." ∨ last = ".."
      · rcases hdots with rfl | rfl <;> simp [Except.map]
      · rw [not_or] at hdots
        simp [Except.map, hlast, hdots, eq_comm]

/-- A path to a file is followed to the file's location. -/
theorem lookup_of_target? {store : Store α} {path : String} {location : Location}
    (htarget : store.target? path = some location) :
    store.lookup path =
      match store.node? location with
      | none => .error .notFound
      | some node => .ok (location, node) := by
  obtain ⟨front, last, hparts⟩ := exists_parts_eq path
  obtain ⟨hlast, hdot, hdots, directory, hwalk, rfl⟩ := (target?_eq_some_iff hparts).1 htarget
  have hpath : path ≠ "" := by
    rintro rfl
    simp [target?, place] at htarget
  have hidle : isIdle last = false := by simp [isIdle, hlast, hdot]
  simp only [lookup, enclosing, hpath, hparts, hwalk, hidle, hdots, if_false,
    List.dropLast_concat, List.getLastD_concat, bind, Except.bind, Except.map]
  cases store.node? (directory ++ [last]) <;> rfl

/-- A path that names no file names a directory or nothing. -/
theorem lookup_of_target?_none {before after : Store α} (hsame : SameDirectories before after)
    {path : String} (htarget : before.target? path = none) {found : Location × Node α}
    (hlookup : before.lookup path = .ok found) : after.lookup path = .ok found := by
  obtain ⟨front, last, hparts⟩ := exists_parts_eq path
  have hpath : path ≠ "" := by
    rintro rfl
    simp [lookup, enclosing, bind, Except.bind] at hlookup
  simp only [lookup, enclosing, hpath, hparts, if_false, List.dropLast_concat,
    List.getLastD_concat, hsame.origin_eq] at hlookup ⊢
  cases hwalk : before.walk (before.origin path) front with
  | error error => simp [hwalk, bind, Except.bind, Except.map] at hlookup
  | ok directory =>
    rw [hsame.walk_of_ok hwalk]
    simp only [hwalk, bind, Except.bind, Except.map] at hlookup ⊢
    by_cases hidle : (isIdle last || decide (last = "..")) = true
    · rw [if_pos hidle] at hlookup ⊢
      cases henter : before.enter directory last with
      | error error => simp [henter] at hlookup
      | ok next =>
        rw [hsame.enter_of_ok henter]
        simpa [henter] using hlookup
    · have hsome : before.target? path = some (directory ++ [last]) := by
        rw [target?_eq_some_iff hparts]
        simp [isIdle] at hidle
        exact ⟨hidle.1.1, hidle.1.2, hidle.2, directory, hwalk, rfl⟩
      rw [htarget] at hsome
      cases hsome

/-- Between stores with the same directories, what a path names can only change at
the location of the file that the path names. -/
theorem view_eq {before after : Store α} (hsame : SameDirectories before after)
    {path : String} (hfile : ∀ location, before.target? path = some location →
      after.node? location = before.node? location) :
    after.view path = before.view path := by
  unfold view
  cases htarget : before.target? path with
  | some location =>
    have hafter : after.target? path = some location := by rw [hsame.target?_eq, htarget]
    rw [lookup_of_target? htarget, lookup_of_target? hafter, hfile location htarget]
  | none =>
    have hafter : after.target? path = none := by rw [hsame.target?_eq, htarget]
    cases hbefore : before.lookup path with
    | ok found => rw [lookup_of_target?_none hsame htarget hbefore]
    | error error =>
      cases hlookup : after.lookup path with
      | error error => rfl
      | ok found =>
        have hback := lookup_of_target?_none hsame.symm hafter hlookup
        rw [hbefore] at hback
        cases hback

theorem read_ok_iff_view {store : Store α} {path : String} {content : α} :
    store.read path = .ok content ↔
      ∃ location, store.view path = some (location, .file content) := by
  rw [read, view]
  rcases store.lookup path with error | ⟨location, node⟩
  · simp [bind, Except.bind, Except.toOption]
  · cases node <;> simp [bind, Except.bind, Except.toOption]

/-! ## Putting and removing files -/

theorem sameDirectories_put {store : Store α} {location : Location}
    (hnode : store.node? location ≠ some .directory) (content : α) :
    SameDirectories store (store.put location (.file content)) := by
  refine ⟨rfl, fun other => ?_⟩
  by_cases hother : other = location
  · subst hother
    have hroot : other ≠ [] := by
      rintro rfl
      exact hnode rfl
    simp [node?_put_self store hroot, hnode]
  · rw [node?_put_of_ne store hother]

@[simp]
theorem remove_put (store : Store α) (location : Location) (node : Node α) :
    (store.put location node).remove location = store.remove location := by
  simp [remove, put, List.filter_filter]

@[simp]
theorem put_put (store : Store α) (location : Location) (first second : Node α) :
    (store.put location first).put location second = store.put location second := by
  simp [put, List.filter_filter]

theorem remove_of_node?_eq_none {store : Store α} {location : Location}
    (habsent : store.node? location = none) : store.remove location = store := by
  have hroot : location ≠ [] := by
    rintro rfl
    simp [node?] at habsent
  have hlookup : store.entries.lookup location = none := by simpa [node?, hroot] using habsent
  have hentries : ∀ entry ∈ store.entries, entry.1 ≠ location := by
    intro entry hentry heq
    have := List.lookup_eq_none_iff.1 hlookup entry hentry
    simp [heq] at this
  have hfilter : store.entries.filter (fun entry => entry.1 ≠ location) = store.entries :=
    List.filter_eq_self.2 (by simpa using hentries)
  rw [remove, hfilter]

theorem length_getLastD_le_nameLength {store : Store α} {entry : Location × Node α}
    (hentry : entry ∈ store.entries) : (entry.1.getLastD "").length ≤ store.nameLength := by
  obtain ⟨entries, workingDirectory⟩ := store
  simp only [nameLength] at hentry ⊢
  induction entries with
  | nil => simp at hentry
  | cons head rest ih =>
    rw [List.foldr_cons]
    rcases List.mem_cons.1 hentry with rfl | hrest
    · exact Nat.le_add_right _ _
    · exact (ih hrest).trans (Nat.le_add_left _ _)

/-- A fresh name is not taken in any directory. -/
theorem node?_freshName (store : Store α) (directory : Location) (stem ending : String) :
    store.node? (directory ++ [store.freshName stem ending]) = none := by
  have hroot : directory ++ [store.freshName stem ending] ≠ [] := by simp
  rw [node?, if_neg hroot, List.lookup_eq_none_iff]
  intro entry hentry
  have hlength := length_getLastD_le_nameLength hentry
  have hfresh : store.nameLength < (store.freshName stem ending).length := by
    simp [freshName]
    omega
  have hne : directory ++ [store.freshName stem ending] ≠ entry.1 := by
    intro heq
    rw [← heq] at hlength
    simp at hlength
    omega
  simpa using hne

/-! ## The operations -/

theorem fileLocation_ok_iff {store : Store α} {path : String} {dots slash : SystemError}
    {location : Location} :
    store.fileLocation path dots slash = .ok location ↔
      store.target? path = some location ∧ store.node? location ≠ some .directory := by
  simp only [fileLocation, target?, bind, Except.bind]
  cases hplace : store.place path with
  | error error => simp
  | ok found =>
    obtain ⟨directory, name, slashFollows⟩ := found
    cases name with
    | none => simp
    | some name =>
      cases slashFollows with
      | true => simp
      | false =>
        generalize hnode : store.node? (directory ++ [name]) = node
        simp only [hnode, Bool.false_eq_true, if_false, Option.some.injEq]
        constructor
        · intro hfound
          split at hfound
          · cases hfound
          · next hother =>
            have heq := Except.ok.inj hfound
            exact ⟨heq, by rw [← heq, hnode]; exact hother⟩
        · rintro ⟨rfl, hother⟩
          split
          · exact absurd hnode hother
          · rfl

/-- The path leads to a file, or to a place for one. -/
def CanHold (store : Store α) (path : String) : Prop :=
  ∃ location, store.target? path = some location ∧ store.node? location ≠ some .directory

theorem SameDirectories.canHold_iff {before after : Store α}
    (hsame : SameDirectories before after) (path : String) :
    after.CanHold path ↔ before.CanHold path := by
  simp only [CanHold, hsame.target?_eq, ne_eq, hsame.directory_iff]

/-- The content stands in the file that a path names, and nothing else has changed. -/
def Placed (content : α) (path : String) (before after : Store α) : Prop :=
  ∃ location, before.target? path = some location ∧
    before.node? location ≠ some .directory ∧ after = before.put location (.file content)

namespace Placed

variable {before after : Store α} {content : α} {path : String}

theorem sameDirectories (hplaced : Placed content path before after) :
    SameDirectories before after := by
  obtain ⟨location, -, hnode, rfl⟩ := hplaced
  exact sameDirectories_put hnode content

theorem node?_eq (hplaced : Placed content path before after) {other : Location}
    (hother : before.target? path ≠ some other) : after.node? other = before.node? other := by
  obtain ⟨location, htarget, -, rfl⟩ := hplaced
  refine node?_put_of_ne before ?_ _
  rintro rfl
  exact hother htarget

/-- Every path to the file that was put finds its content. -/
theorem read_of_target?_eq (hplaced : Placed content path before after) {other : String}
    (hother : before.target? other = before.target? path) : after.read other = .ok content := by
  have hafter := hplaced.sameDirectories.target?_eq other
  obtain ⟨location, htarget, hnode, rfl⟩ := hplaced
  have hroot : location ≠ [] := by
    rintro rfl
    exact hnode rfl
  rw [hother, htarget] at hafter
  simp [read, lookup_of_target? hafter, hroot, bind, Except.bind]

theorem read_eq (hplaced : Placed content path before after) : after.read path = .ok content :=
  hplaced.read_of_target?_eq rfl

/-- What was read before is read again, unless its file is the one that was put. -/
theorem read_of_read (hplaced : Placed content path before after) {other : String} {found : α}
    (hread : before.read other = .ok found) :
    after.read other =
      .ok (if before.target? other = before.target? path then content else found) := by
  split
  · next hsame => exact hplaced.read_of_target?_eq hsame
  · next hother =>
    rw [read_ok_iff_view] at hread ⊢
    rwa [view_eq hplaced.sameDirectories]
    intro location htarget
    exact hplaced.node?_eq fun hput => hother (htarget.trans hput.symm)

end Placed

theorem write_ok_iff {store after : Store α} {path : String} {content : α} :
    store.write path content = .ok after ↔ Placed content path store after := by
  simp only [write, bind, Except.bind]
  constructor
  · intro hwrite
    cases hlocation : store.fileLocation path .isADirectory .isADirectory with
    | error error => simp [hlocation] at hwrite
    | ok location =>
      obtain ⟨htarget, hnode⟩ := fileLocation_ok_iff.1 hlocation
      simp only [hlocation, Except.ok.injEq] at hwrite
      exact ⟨location, htarget, hnode, hwrite.symm⟩
  · rintro ⟨location, htarget, hnode, rfl⟩
    rw [fileLocation_ok_iff.2 ⟨htarget, hnode⟩]

theorem exists_write_iff {store : Store α} {path : String} {content : α} :
    (∃ after, store.write path content = .ok after) ↔ store.CanHold path := by
  simp only [write_ok_iff, Placed, CanHold]
  constructor
  · rintro ⟨_, location, htarget, hnode, -⟩
    exact ⟨location, htarget, hnode⟩
  · rintro ⟨location, htarget, hnode⟩
    exact ⟨_, location, htarget, hnode, rfl⟩

end TimingReport.Files.Store
