import Mathlib.Data.List.Forall2

/-!
# Computations that may fail

A list is worked through up to the first item that fails, and that item decides the
failure of the whole.
-/

namespace TimingReport.Fallible

variable {ε ε' α β : Type}

theorem map_ok_iff {f : α → β} {result : Except ε α} {b : β} :
    result.map f = .ok b ↔ ∃ a, result = .ok a ∧ f a = b := by
  cases result <;> simp [Except.map]

theorem map_error_iff {f : α → β} {result : Except ε α} {e : ε} :
    result.map f = .error e ↔ result = .error e := by
  cases result <;> simp [Except.map]

theorem bind_ok_iff {next : α → Except ε β} {result : Except ε α} {b : β} :
    result.bind next = .ok b ↔ ∃ a, result = .ok a ∧ next a = .ok b := by
  cases result <;> simp [Except.bind]

theorem bind_error_iff {next : α → Except ε β} {result : Except ε α} {e : ε} :
    result.bind next = .error e ↔ result = .error e ∨ ∃ a, result = .ok a ∧ next a = .error e := by
  cases result <;> simp [Except.bind]

theorem mapError_ok_iff {f : ε → ε'} {result : Except ε α} {a : α} :
    result.mapError f = .ok a ↔ result = .ok a := by
  cases result <;> simp [Except.mapError]

theorem mapError_error_iff {f : ε → ε'} {result : Except ε α} {e' : ε'} :
    result.mapError f = .error e' ↔ ∃ e, result = .error e ∧ f e = e' := by
  cases result <;> simp [Except.mapError]

theorem exists_of_isOk {result : Except ε α} (hok : result.isOk = true) : ∃ a, result = .ok a := by
  cases result with
  | ok a => exact ⟨a, rfl⟩
  | error e => cases hok

theorem exists_of_not_isOk {result : Except ε α} (hfails : result.isOk = false) :
    ∃ e, result = .error e := by
  cases result with
  | ok a => cases hfails
  | error e => exact ⟨e, rfl⟩

theorem toOption_eq_some_iff {result : Except ε α} {a : α} :
    result.toOption = some a ↔ result = .ok a := by
  cases result <;> simp [Except.toOption]

theorem mapM_cons (f : α → Except ε β) (x : α) (items : List α) :
    (x :: items).mapM f = (f x).bind fun y => (items.mapM f).map (y :: ·) :=
  List.mapM_cons

theorem mapM_ok_iff (f : α → Except ε β) (items : List α) (results : List β) :
    items.mapM f = .ok results ↔ List.Forall₂ (fun x y => f x = .ok y) items results := by
  induction items generalizing results with
  | nil =>
    rw [List.forall₂_nil_left_iff]
    constructor
    · intro h
      exact (Except.ok.inj h).symm
    · rintro rfl
      rfl
  | cons x items ih =>
    rw [mapM_cons, List.forall₂_cons_left_iff]
    cases hx : f x with
    | error e => simp [Except.bind]
    | ok y =>
      rw [Except.bind, map_ok_iff]
      constructor
      · rintro ⟨later, hlater, rfl⟩
        exact ⟨y, later, rfl, (ih later).1 hlater, rfl⟩
      · rintro ⟨_, later, hy, hlater, rfl⟩
        obtain rfl := Except.ok.inj hy
        exact ⟨later, (ih later).2 hlater, rfl⟩

theorem exists_of_mem_mapM {f : α → Except ε β} {items : List α} {results : List β}
    (hresults : items.mapM f = .ok results) {result : β} (hmem : result ∈ results) :
    ∃ item ∈ items, f item = .ok result := by
  rw [mapM_ok_iff] at hresults
  induction hresults with
  | nil => cases hmem
  | cons hitem _ ih =>
    rcases List.mem_cons.1 hmem with rfl | hlater
    · exact ⟨_, List.mem_cons_self, hitem⟩
    · obtain ⟨item, hitems, hresult⟩ := ih hlater
      exact ⟨item, List.mem_cons_of_mem _ hitems, hresult⟩

/-- The first item that fails gives the failure. -/
theorem mapM_error_iff (f : α → Except ε β) (items : List α) (e : ε) :
    items.mapM f = .error e ↔
      ∃ earlier x later, items = earlier ++ x :: later ∧
        (∀ y ∈ earlier, ∃ result, f y = .ok result) ∧ f x = .error e := by
  induction items with
  | nil =>
    refine iff_of_false (fun h => by cases h) ?_
    rintro ⟨earlier, x, later, hitems, -⟩
    simp at hitems
  | cons x items ih =>
    rw [mapM_cons]
    cases hx : f x with
    | error e' =>
      rw [Except.bind]
      constructor
      · intro h
        obtain rfl := Except.error.inj h
        exact ⟨[], x, items, rfl, by simp, hx⟩
      · rintro ⟨_ | ⟨y, earlier⟩, x', later, hitems, hearlier, hx'⟩
        · obtain rfl := (List.cons.inj hitems).1
          rw [hx] at hx'
          exact congrArg _ (Except.error.inj hx')
        · obtain rfl := (List.cons.inj hitems).1
          obtain ⟨result, hresult⟩ := hearlier x List.mem_cons_self
          rw [hx] at hresult
          cases hresult
    | ok y =>
      have hmap : (items.mapM f).map (y :: ·) = .error e ↔ items.mapM f = .error e := by
        cases items.mapM f <;> simp [Except.map]
      rw [Except.bind, hmap, ih]
      constructor
      · rintro ⟨earlier, x', later, rfl, hearlier, hx'⟩
        refine ⟨x :: earlier, x', later, rfl, fun z hz => ?_, hx'⟩
        rcases List.mem_cons.1 hz with rfl | hlater
        · exact ⟨y, hx⟩
        · exact hearlier z hlater
      · rintro ⟨_ | ⟨z, earlier⟩, x', later, hitems, hearlier, hx'⟩
        · obtain rfl := (List.cons.inj hitems).1
          rw [hx] at hx'
          cases hx'
        · obtain ⟨rfl, rfl⟩ := List.cons.inj hitems
          exact ⟨earlier, x', later, rfl, fun w hw => hearlier w (List.mem_cons_of_mem _ hw), hx'⟩

/-- A fold fails at the first item that cannot be taken in. -/
theorem foldlM_error_iff {f : β → α → Except ε β} {items : List α} {start : β} {e : ε} :
    items.foldlM f start = .error e ↔
      ∃ earlier x later reached, items = earlier ++ x :: later ∧
        earlier.foldlM f start = .ok reached ∧ f reached x = .error e := by
  induction items generalizing start with
  | nil =>
    refine iff_of_false (fun h => by cases h) ?_
    rintro ⟨earlier, x, later, reached, hitems, -⟩
    simp at hitems
  | cons x items ih =>
    rw [List.foldlM_cons]
    change (f start x).bind _ = _ ↔ _
    rw [bind_error_iff]
    constructor
    · rintro (herror | ⟨next, hnext, herror⟩)
      · exact ⟨[], x, items, start, rfl, rfl, herror⟩
      · obtain ⟨earlier, x', later, reached, rfl, hreached, herror⟩ := ih.1 herror
        refine ⟨x :: earlier, x', later, reached, rfl, ?_, herror⟩
        rw [List.foldlM_cons, hnext]
        exact hreached
    · rintro ⟨_ | ⟨y, earlier⟩, x', later, reached, hitems, hreached, herror⟩
      · obtain rfl := (List.cons.inj hitems).1
        obtain rfl := Except.ok.inj hreached
        exact .inl herror
      · obtain ⟨rfl, rfl⟩ := List.cons.inj hitems
        rw [List.foldlM_cons] at hreached
        obtain ⟨next, hnext, hreached⟩ := bind_ok_iff.1 hreached
        exact .inr ⟨next, hnext, ih.2 ⟨earlier, x', later, reached, rfl, hreached, herror⟩⟩

/-- Two computations fail with the same error, or both give results, which are related. -/
inductive Together {γ : Type} (relation : α → γ → Prop) : Except ε α → Except ε γ → Prop where
  | error (e : ε) : Together relation (.error e) (.error e)
  | ok {a : α} {c : γ} : relation a c → Together relation (.ok a) (.ok c)

/-- Items that are related have the same results, taken one by one or all together. -/
theorem forall₂_congr_of_related {γ : Type} {related : α → γ → Prop} {relation : α → β → Prop}
    {relation' : γ → β → Prop} (hsame : ∀ x y, related x y → ∀ result,
      relation x result ↔ relation' y result) {items : List α} {others : List γ}
    (hrelated : List.Forall₂ related items others) (results : List β) :
    List.Forall₂ relation items results ↔ List.Forall₂ relation' others results := by
  induction hrelated generalizing results with
  | nil => simp
  | cons hxy _ ih => simp only [List.forall₂_cons_left_iff, hsame _ _ hxy, ih]

/-- Items have results together exactly if each has one. -/
theorem exists_forall₂_iff (relation : α → β → Prop) (items : List α) :
    (∃ results, List.Forall₂ relation items results) ↔ ∀ x ∈ items, ∃ y, relation x y := by
  induction items with
  | nil => exact iff_of_true ⟨[], .nil⟩ (by simp)
  | cons x items ih =>
    rw [List.forall_mem_cons, ← ih]
    constructor
    · rintro ⟨_, _ | ⟨hx, hitems⟩⟩
      exact ⟨⟨_, hx⟩, _, hitems⟩
    · rintro ⟨⟨y, hx⟩, results, hitems⟩
      exact ⟨y :: results, .cons hx hitems⟩

end TimingReport.Fallible
