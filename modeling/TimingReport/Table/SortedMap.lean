/-!
# Sorted association lists

Keys with values, in ascending order of the keys. Inserting keeps the order, so a table
lists its rows and columns in the order in which they are shown.
-/

namespace TimingReport.Table

variable {κ α : Type} [DecidableEq κ] [LT κ] [DecidableLT κ]

/-- Inserts a key into an ascending list, unless it is there. -/
def insertKey (key : κ) : List κ → List κ
  | [] => [key]
  | other :: rest =>
    if key < other then key :: other :: rest
    else if key = other then other :: rest
    else other :: insertKey key rest

/-- The keys in ascending order, each once. -/
def sortedKeys (keys : List κ) : List κ :=
  keys.foldl (fun sorted key => insertKey key sorted) []

/-- Changes the value of a key, which may be absent, in an ascending list. -/
def alter (key : κ) (change : Option α → α) : List (κ × α) → List (κ × α)
  | [] => [(key, change none)]
  | (other, value) :: rest =>
    if key < other then (key, change none) :: (other, value) :: rest
    else if key = other then (other, change (some value)) :: rest
    else (other, value) :: alter key change rest

omit [LT κ] [DecidableLT κ] in
theorem lookup_cons (key other : κ) (value : α) (rest : List (κ × α)) :
    ((other, value) :: rest).lookup key =
      if key = other then some value else rest.lookup key := by
  by_cases heq : key = other
  · simp [heq]
  · rw [List.lookup_cons, beq_false_of_ne heq, if_neg heq]

theorem mem_insertKey (x key : κ) (keys : List κ) :
    x ∈ insertKey key keys ↔ x = key ∨ x ∈ keys := by
  induction keys with
  | nil => simp [insertKey]
  | cons other rest ih =>
    rw [insertKey]
    split
    · simp
    · split
      · next heq => simp [heq]
      · rw [List.mem_cons, ih, List.mem_cons]
        exact or_left_comm

/-- Sorting keys neither loses nor invents one. -/
theorem mem_sortedKeys (x : κ) (keys : List κ) : x ∈ sortedKeys keys ↔ x ∈ keys := by
  have hfold : ∀ sorted : List κ,
      x ∈ keys.foldl (fun sorted key => insertKey key sorted) sorted ↔
        x ∈ keys ∨ x ∈ sorted := by
    induction keys with
    | nil => simp
    | cons key rest ih =>
      intro sorted
      rw [List.foldl_cons, ih, mem_insertKey, List.mem_cons, or_left_comm, or_assoc]
  simpa [sortedKeys] using hfold []

/-- Changing the value of a key leaves the values of the others. -/
theorem lookup_alter_of_ne {key x : κ} (hne : x ≠ key) (change : Option α → α)
    (entries : List (κ × α)) :
    (alter key change entries).lookup x = entries.lookup x := by
  induction entries with
  | nil => simp [alter, lookup_cons, hne]
  | cons entry rest ih =>
    obtain ⟨other, value⟩ := entry
    rw [alter]
    split
    · rw [lookup_cons, if_neg hne]
    · split
      · next heq => simp [lookup_cons, ← heq, hne]
      · rw [lookup_cons, lookup_cons, ih]

end TimingReport.Table
