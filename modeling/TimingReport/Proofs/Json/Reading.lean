import TimingReport.Proofs.Json.Printing
import TimingReport.Table.SortedMap

/-!
# Reading values from documents

A document stands for a tree, and values are read from trees: a double from a number that it is
the nearest to, and a list of keyed values from the members of an object.  Every way of reading
gives one value at most, and from what was written for a value it gives the value.
-/

namespace TimingReport.Json

open TimingReport.Number
open TimingReport.Table (lookup_cons)

/-- The value of a member, if the tree is an object that has it. -/
def Tree.member? : Tree → String → Option Tree
  | .object members, key => members.lookup key
  | _, _ => none

/-- The keys of an object, in their order. -/
def Tree.keys : Tree → List String
  | .object members => members.map Prod.fst
  | _ => []

/-- The tree is a number, and the double is the nearest one to it, with its sign. -/
inductive Tree.ReadsDouble : Tree → Float → Prop where
  | intro {negative : Bool} {magnitude : ℚ} {x : Float} :
      IsNearest (signed negative magnitude) x → isNegative x = negative →
      ReadsDouble (.number negative magnitude) x

/-- A double, or null where there is none. -/
inductive Tree.ReadsBound : Tree → Option Float → Prop where
  | missing : ReadsBound .null none
  | double {tree : Tree} {x : Float} : tree.ReadsDouble x → ReadsBound tree (some x)

/-! ## Doubles -/

namespace Tree

variable {tree : Tree} {bound : Option Float}

theorem rightUnique_readsDouble : Relator.RightUnique ReadsDouble := by
  rintro tree x y ⟨hx, hxSign⟩ hy
  cases hy with
  | intro hy hySign => exact hx.unique hy (hxSign.trans hySign.symm)

theorem rightUnique_readsBound : Relator.RightUnique ReadsBound := by
  intro tree bound other hbound hother
  cases hbound with
  | missing =>
    cases hother with
    | missing => rfl
    | double hdouble => cases hdouble
  | double hdouble =>
    cases hother with
    | missing => cases hdouble
    | double hdouble' => rw [rightUnique_readsDouble hdouble hdouble']

theorem ReadsBound.eq_null_iff (htree : tree.ReadsBound bound) : tree = .null ↔ bound = none := by
  cases htree with
  | missing => simp
  | double hdouble =>
    cases hdouble with
    | intro => simp

theorem ReadsBound.readsDouble_iff (htree : tree.ReadsBound bound) (x : Float) :
    tree.ReadsDouble x ↔ bound = some x :=
  ⟨fun hdouble => rightUnique_readsBound htree (.double hdouble), by
    rintro rfl
    cases htree with
    | double hdouble => exact hdouble⟩

end Tree

theorem readsDouble_number {x : Float} (hfinite : isFinite x = true) :
    (Value.number x).tree.ReadsDouble x := by
  rw [Value.tree, if_pos hfinite]
  exact ⟨(numberText_chars hfinite).2, rfl⟩

theorem readsBound_ofOption {bound : Option Float}
    (hfinite : ∀ x ∈ bound, isFinite x = true) :
    (Value.ofOption .number bound).tree.ReadsBound bound := by
  cases bound with
  | none => exact .missing
  | some x => exact .double (readsDouble_number (hfinite x rfl))

/-! ## Lists of values -/

theorem itemTrees_strings (texts : List String) :
    itemTrees (texts.map .string) = texts.map .string := by
  rw [itemTrees_eq_map, List.map_map]
  rfl

theorem forall₂_itemTrees {α : Type} {relation : Tree → α → Prop} {encode : α → Value}
    {values : List α} (hvalues : ∀ value ∈ values, relation (encode value).tree value) :
    List.Forall₂ relation (itemTrees (values.map encode)) values := by
  rw [itemTrees_eq_map, List.map_map, List.forall₂_map_left_iff, List.forall₂_same]
  exact hvalues

/-! ## Keyed values -/

section Members

variable {κ α : Type} {key : κ → String} {relation : Tree → α → Prop}
  {members : List (String × Tree)} {entries : List (κ × α)}

/-- The members are the entries one by one: their keys are written by `key`, and their values are
read by the relation. -/
def ReadsMembers (key : κ → String) (relation : Tree → α → Prop) :
    List (String × Tree) → List (κ × α) → Prop :=
  List.Forall₂ fun member entry => member.1 = key entry.1 ∧ relation member.2 entry.2

theorem rightUnique_readsMembers (hkey : Function.Injective key)
    (hrelation : Relator.RightUnique relation) :
    Relator.RightUnique (ReadsMembers key relation) := by
  apply List.right_unique_forall₂'
  rintro member entry other ⟨hname, hvalue⟩ ⟨hname', hvalue'⟩
  exact Prod.ext (hkey (hname.symm.trans hname')) (hrelation hvalue hvalue')

theorem ReadsMembers.keys_eq (hmembers : ReadsMembers key relation members entries) :
    members.map Prod.fst = entries.map fun entry => key entry.1 := by
  induction hmembers with
  | nil => rfl
  | cons hhead _ ih => rw [List.map_cons, List.map_cons, hhead.1, ih]

/-- A member is there if and only if its entry is, and it is read as the entry. -/
theorem ReadsMembers.lookup [DecidableEq κ] (hkey : Function.Injective key)
    (hmembers : ReadsMembers key relation members entries) (k : κ) :
    Option.Rel relation (members.lookup (key k)) (entries.lookup k) := by
  induction hmembers with
  | nil => exact .none
  | @cons member entry _ _ hhead _ ih =>
    obtain ⟨name, tree⟩ := member
    obtain ⟨other, value⟩ := entry
    obtain ⟨rfl, hvalue⟩ := hhead
    by_cases hsame : k = other
    · rw [hsame, lookup_cons, lookup_cons, if_pos rfl, if_pos rfl]
      exact .some hvalue
    · rw [lookup_cons, lookup_cons, if_neg (hkey.ne hsame), if_neg hsame]
      exact ih

theorem readsMembers_memberTrees {encode : α → Value}
    (hentries : ∀ entry ∈ entries, relation (encode entry.2).tree entry.2) :
    ReadsMembers key relation
      (memberTrees (entries.map fun entry => (key entry.1, encode entry.2))) entries := by
  induction entries with
  | nil =>
    rw [List.map_nil, memberTrees]
    exact .nil
  | cons entry entries ih =>
    obtain ⟨hentry, hrest⟩ := List.forall_mem_cons.1 hentries
    rw [List.map_cons, memberTrees]
    exact .cons ⟨rfl, hentry⟩ (ih hrest)

end Members

end TimingReport.Json
