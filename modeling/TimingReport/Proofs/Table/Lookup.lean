import Mathlib.Data.String.Basic
import Mathlib.Order.Defs.LinearOrder
import TimingReport.Table.SortedMap

/-!
# Looking up in sorted association lists

Over a linear order, inserting a key and changing a value keep the keys strictly
ascending, and a lookup sees exactly the change.
-/

namespace TimingReport.Table

variable {κ α β : Type}

/-- Every key is below all that follow it. -/
def Ascending [LT κ] (keys : List κ) : Prop := keys.Pairwise (· < ·)

section Keys

variable [LinearOrder κ]

theorem ascending_insertKey (key : κ) {keys : List κ} (hkeys : Ascending keys) :
    Ascending (insertKey key keys) := by
  induction keys with
  | nil => simp [insertKey, Ascending]
  | cons other rest ih =>
    obtain ⟨hother, hrest⟩ := List.pairwise_cons.1 hkeys
    rw [insertKey]
    split
    · next hlt =>
      refine List.pairwise_cons.2 ⟨fun x hx => ?_, hkeys⟩
      rcases List.mem_cons.1 hx with rfl | hx
      · exact hlt
      · exact hlt.trans (hother x hx)
    · next hnlt =>
      split
      · exact hkeys
      · next hne =>
        refine List.pairwise_cons.2 ⟨fun x hx => ?_, ih hrest⟩
        rcases (mem_insertKey x key rest).1 hx with rfl | hx
        · exact lt_of_le_of_ne (not_lt.1 hnlt) (Ne.symm hne)
        · exact hother x hx

theorem ascending_sortedKeys (keys : List κ) : Ascending (sortedKeys keys) := by
  have hfold : ∀ sorted : List κ, Ascending sorted →
      Ascending (keys.foldl (fun sorted key => insertKey key sorted) sorted) := by
    induction keys with
    | nil => exact fun _ hsorted => hsorted
    | cons key rest ih => exact fun _ hsorted => ih _ (ascending_insertKey key hsorted)
  exact hfold [] List.Pairwise.nil

end Keys

section Entries

variable [LinearOrder κ]

/-- The keys know nothing of the values. -/
theorem keys_alter (key : κ) (change : Option α → α) (entries : List (κ × α)) :
    (alter key change entries).map Prod.fst = insertKey key (entries.map Prod.fst) := by
  induction entries with
  | nil => rfl
  | cons entry rest ih =>
    obtain ⟨other, value⟩ := entry
    rw [alter, List.map_cons, insertKey]
    split
    · rfl
    · split
      · rfl
      · rw [List.map_cons, ih]

theorem lookup_eq_none_iff_not_mem (x : κ) (entries : List (κ × α)) :
    entries.lookup x = none ↔ x ∉ entries.map Prod.fst := by
  induction entries with
  | nil => simp
  | cons entry rest ih =>
    obtain ⟨other, value⟩ := entry
    rw [lookup_cons]
    by_cases heq : x = other
    · simp [heq]
    · simp [heq, ih]

/-- The changed key has the changed value. -/
theorem lookup_alter_self (key : κ) (change : Option α → α) {entries : List (κ × α)}
    (hentries : Ascending (entries.map Prod.fst)) :
    (alter key change entries).lookup key = some (change (entries.lookup key)) := by
  induction entries with
  | nil => simp [alter]
  | cons entry rest ih =>
    obtain ⟨other, value⟩ := entry
    obtain ⟨hother, hrest⟩ := List.pairwise_cons.1 hentries
    rw [alter, lookup_cons]
    split
    · next hlt =>
      have hmissing : rest.lookup key = none := by
        rw [lookup_eq_none_iff_not_mem]
        exact fun hmem => lt_asymm hlt (hother key hmem)
      rw [lookup_cons, if_pos rfl, if_neg hlt.ne, hmissing]
    · split
      · next heq => simp [heq]
      · next hne => rw [lookup_cons, if_neg hne, ih hrest]

/-- A value that does not depend on the old one is found in any order of the keys. -/
theorem lookup_alter_const (key : κ) (value : α) (entries : List (κ × α)) :
    (alter key (fun _ => value) entries).lookup key = some value := by
  induction entries with
  | nil => simp [alter]
  | cons entry rest ih =>
    obtain ⟨other, old⟩ := entry
    rw [alter]
    split
    · simp
    · split
      · next heq => simp [heq]
      · next hne => rw [lookup_cons, if_neg hne, ih]

theorem lookup_map_value (change : α → β) (x : κ) (entries : List (κ × α)) :
    (entries.map (fun entry => (entry.1, change entry.2))).lookup x =
      (entries.lookup x).map change := by
  induction entries with
  | nil => simp
  | cons entry rest ih =>
    obtain ⟨other, value⟩ := entry
    rw [List.map_cons, lookup_cons, lookup_cons, ih]
    split <;> rfl

theorem lookup_map_key (value : κ → α) (x : κ) (keys : List κ) :
    (keys.map (fun key => (key, value key))).lookup x =
      if x ∈ keys then some (value x) else none := by
  induction keys with
  | nil => simp
  | cons key rest ih =>
    rw [List.map_cons, lookup_cons, ih]
    by_cases heq : x = key
    · simp [heq]
    · simp [heq]

end Entries

end TimingReport.Table
