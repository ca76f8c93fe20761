import TimingReport.Proofs.Files.Alike

/-!
# Files that are written again

Where a path leads depends on directories alone, and a file that is written a second time stands
as it stood: writing the same files once more changes nothing.
-/

namespace TimingReport.Files.Store

variable {α : Type}

/-- Where directories stand is known without the contents of files. -/
theorem SameDirectories.isDirectory_eq {before after : Store α}
    (hsame : SameDirectories before after) (path : String) :
    after.isDirectory path = before.isDirectory path := by
  have hdirectory : ∀ {store other : Store α}, SameDirectories store other →
      store.isDirectory path = true → other.isDirectory path = true := by
    intro store other hsame hstore
    cases htarget : store.target? path with
    | none =>
      rw [isDirectory] at hstore ⊢
      split at hstore
      · next location hlookup => rw [lookup_of_target?_none hsame htarget hlookup]
      · cases hstore
    | some location =>
      have hother : other.target? path = some location := by rw [hsame.target?_eq, htarget]
      rw [isDirectory, lookup_of_target? htarget] at hstore
      rw [isDirectory, lookup_of_target? hother]
      rcases hnode : store.node? location with _ | node
      · simp [hnode] at hstore
      · cases node with
        | file content => simp [hnode] at hstore
        | directory => rw [(hsame.directory_iff location).2 hnode]
  exact Bool.eq_iff_iff.2 ⟨hdirectory hsame.symm, hdirectory hsame⟩

/-- What a file holds does not matter for where paths lead. -/
theorem alike_put (store : Store α) (location : Location) (content other : α) :
    Alike (fun _ _ => True) (store.put location (.file content))
      (store.put location (.file other)) := by
  refine ⟨rfl, rfl, fun place => ?_⟩
  by_cases hplace : place = location
  · subst hplace
    by_cases hroot : place = []
    · simpa [node?, hroot] using NodesAlike.same _
    · rw [node?_put_self store hroot, node?_put_self store hroot]
      exact .contents trivial
  · rw [node?_put_of_ne store hplace, node?_put_of_ne store hplace]
    exact .same _

/-- Files that are put again stand as they stood. -/
theorem put_put_again (store : Store α) (location other : Location) (node otherNode : Node α) :
    (((store.put location node).put other otherNode).put location node).put other otherNode =
      (store.put location node).put other otherNode := by
  by_cases hother : other = location
  · subst hother
    simp
  · have hne : location ≠ other := Ne.symm hother
    simp [put, List.filter_filter, hother, hne, Bool.and_comm, Bool.and_left_comm]

/-- A content that was written behind another file is written again behind that file. -/
theorem write_again {store after : Store α} {location : Location} {content written : α}
    {path : String} (hnode : store.node? location ≠ some .directory)
    (hwrite : (store.put location (.file content)).write path written = .ok after) :
    (after.put location (.file content)).write path written = .ok after := by
  obtain ⟨other, htarget, hother, rfl⟩ := write_ok_iff.1 hwrite
  have hfirst := sameDirectories_put hnode content
  have hsecond := hfirst.trans (sameDirectories_put hother written)
  have hthird := hsecond.trans (sameDirectories_put
    (mt (hsecond.directory_iff location).1 hnode) content)
  rw [hfirst.target?_eq] at htarget
  rw [ne_eq, hfirst.directory_iff] at hother
  refine write_ok_iff.2 ⟨other, ?_, ?_, (put_put_again ..).symm⟩
  · rw [hthird.target?_eq, htarget]
  · rwa [ne_eq, hthird.directory_iff]

theorem isFile_iff {store : Store α} {path : String} :
    store.isFile path = true ↔ ∃ content, store.read path = .ok content := by
  rw [isFile, read]
  rcases store.lookup path with error | ⟨location, _ | content⟩ <;>
    simp [bind, Except.bind]

/-- What is read afterwards was put there or was there before. -/
theorem Placed.read_cases {before after : Store α} {content found : α} {path other : String}
    (hplaced : Placed content path before after) (hread : after.read other = .ok found) :
    found = content ∨ before.read other = .ok found := by
  by_cases hsame : before.target? other = before.target? path
  · rw [hplaced.read_of_target?_eq hsame] at hread
    exact .inl (Except.ok.inj hread).symm
  · rw [read_ok_iff_view] at hread ⊢
    rw [view_eq hplaced.sameDirectories] at hread
    · exact .inr hread
    · intro location htarget
      exact hplaced.node?_eq fun hput => hsame (htarget.trans hput.symm)

end TimingReport.Files.Store
