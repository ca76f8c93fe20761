import TimingReport.Proofs.Files.Frame

/-!
# The directory in front of a path

The parent of a path is a text again, in front of the last part that names something.  That
text is split into the parts it was joined from, so the check that the parent is a directory
and the way to a file of its path agree.
-/

namespace TimingReport.Files

/-! ## Splitting and joining -/

theorem splitSlashes_append_slash {part : List Char} (hpart : '/' ∉ part) (rest : List Char) :
    splitSlashes (part ++ '/' :: rest) = part :: splitSlashes rest := by
  induction part with
  | nil => rfl
  | cons c part ih =>
    rw [List.mem_cons, not_or] at hpart
    rw [List.cons_append, splitSlashes, if_neg (Ne.symm hpart.1), ih hpart.2]

theorem splitSlashes_of_not_mem {part : List Char} (hpart : '/' ∉ part) :
    splitSlashes part = [part] := by
  induction part with
  | nil => rfl
  | cons c part ih =>
    rw [List.mem_cons, not_or] at hpart
    rw [splitSlashes, if_neg (Ne.symm hpart.1), ih hpart.2]

/-- No part has a slash. -/
theorem slash_not_mem_of_mem_splitSlashes {text part : List Char}
    (hpart : part ∈ splitSlashes text) : '/' ∉ part := by
  induction text generalizing part with
  | nil => simp_all [splitSlashes]
  | cons c rest ih =>
    rw [splitSlashes] at hpart
    split at hpart
    · rcases List.mem_cons.1 hpart with rfl | hrest
      · exact List.not_mem_nil
      · exact ih hrest
    · next hslash =>
      cases hparts : splitSlashes rest with
      | nil => exact absurd hparts (splitSlashes_ne_nil rest)
      | cons first more =>
        rw [hparts] at hpart ih
        rcases List.mem_cons.1 hpart with rfl | hmore
        · rw [List.mem_cons, not_or]
          exact ⟨Ne.symm hslash, ih List.mem_cons_self⟩
        · exact ih (List.mem_cons_of_mem _ hmore)

theorem splitSlashes_intercalate {texts : List (List Char)} (hne : texts ≠ [])
    (htexts : ∀ text ∈ texts, '/' ∉ text) :
    splitSlashes (['/'].intercalate texts) = texts := by
  induction texts with
  | nil => exact absurd rfl hne
  | cons text rest ih =>
    rw [List.forall_mem_cons] at htexts
    cases rest with
    | nil => simpa using splitSlashes_of_not_mem htexts.1
    | cons next more =>
      rw [List.intercalate_cons_cons, List.append_assoc, List.singleton_append,
        splitSlashes_append_slash htexts.1, ih (List.cons_ne_nil _ _) htexts.2]

/-! ## Parts of a path -/

/-- The path that begins at the root or not, and has these parts. -/
def joined (rooted : Bool) (names : List String) : String :=
  (if rooted then "/" else "") ++ "/".intercalate names

theorem slash_not_mem_of_mem_parts {path part : String} (hpart : part ∈ parts path) :
    '/' ∉ part.toList := by
  rw [parts, List.mem_map] at hpart
  obtain ⟨text, htext, rfl⟩ := hpart
  rw [String.toList_ofList]
  exact slash_not_mem_of_mem_splitSlashes htext

/-- A path that does not begin with a slash does not begin with an empty part. -/
theorem head?_parts_ne {path : String} (hrooted : isRooted path = false) (hpath : path ≠ "") :
    (parts path).head? ≠ some "" := by
  have hslash : path.toList.head? ≠ some '/' := of_decide_eq_false hrooted
  rw [parts, hrooted]
  cases htext : path.toList with
  | nil => exact absurd (String.toList_eq_nil_iff.1 htext) hpath
  | cons c rest =>
    rw [htext, List.head?_cons, ne_eq, Option.some.injEq] at hslash
    simp only [Bool.false_eq_true, if_false, splitSlashes, hslash]
    cases splitSlashes rest <;> simp

theorem toList_joined (rooted : Bool) (names : List String) :
    (joined rooted names).toList =
      (if rooted then ['/'] else []) ++ ['/'].intercalate (names.map String.toList) := by
  rw [joined, String.toList_append, String.toList_intercalate]
  cases rooted <;> rfl

/-- A text that was joined from parts is split into them again. -/
theorem parts_joined {rooted : Bool} {names : List String} (hne : names ≠ [])
    (hnames : ∀ name ∈ names, '/' ∉ name.toList)
    (hfirst : rooted = false → names.head? ≠ some "") :
    isRooted (joined rooted names) = rooted ∧ parts (joined rooted names) = names := by
  have hrooted : isRooted (joined rooted names) = rooted := by
    rw [isRooted, toList_joined]
    cases rooted with
    | true => rfl
    | false =>
      obtain ⟨name, rest, rfl⟩ := List.exists_cons_of_ne_nil hne
      have hslash := hnames name List.mem_cons_self
      cases htext : name.toList with
      | nil => exact absurd (congrArg some (String.toList_eq_nil_iff.1 htext)) (hfirst rfl)
      | cons c text =>
        rw [htext, List.mem_cons, not_or] at hslash
        cases rest <;> simp [htext, List.intercalate_cons_cons, Ne.symm hslash.1]
  refine ⟨hrooted, ?_⟩
  have htexts : ∀ text ∈ names.map String.toList, '/' ∉ text := by simpa using hnames
  rw [parts, hrooted, toList_joined]
  have hdrop : (if rooted then
      ((if rooted then ['/'] else []) ++ ['/'].intercalate (names.map String.toList)).drop 1
      else (if rooted then ['/'] else []) ++ ['/'].intercalate (names.map String.toList)) =
        ['/'].intercalate (names.map String.toList) := by
    cases rooted <;> rfl
  simp only [hdrop]
  rw [splitSlashes_intercalate (by simpa using hne) htexts, List.map_map]
  simp

/-! ## The way to the last name -/

/-- Only idle parts are dropped. -/
theorem exists_append_dropIdle (rooted : Bool) (reversed : List String) :
    ∃ idle, (∀ part ∈ idle, isIdle part = true) ∧
      idle ++ dropIdle rooted reversed = reversed := by
  fun_induction dropIdle rooted reversed with
  | case1 => exact ⟨[], by simp, rfl⟩
  | case2 => exact ⟨["."], by simp [isIdle], rfl⟩
  | case3 => exact ⟨[], by simp, rfl⟩
  | case4 part rest _ hidle ih =>
    obtain ⟨idle, hall, hrest⟩ := ih
    exact ⟨part :: idle, List.forall_mem_cons.2 ⟨hidle, hall⟩, by rw [List.cons_append, hrest]⟩
  | case5 part rest _ _ => exact ⟨[], by simp, rfl⟩

namespace Store

variable {α : Type} {store : Store α}

theorem walk_append (start : Location) (front rest : List String) :
    store.walk start (front ++ rest) = store.walk start front >>= (store.walk · rest) :=
  List.foldlM_append

theorem walk_singleton (start : Location) (part : String) :
    store.walk start [part] = store.enter start part := by
  rw [walk, List.foldlM_cons]
  cases store.enter start part <;> rfl

/-- Idle parts lead nowhere else. -/
theorem walk_idle {idle : List String} (hidle : ∀ part ∈ idle, isIdle part = true)
    (start : Location) : store.walk start idle = .ok start := by
  induction idle with
  | nil => rfl
  | cons part rest ih =>
    rw [List.forall_mem_cons] at hidle
    rw [walk, List.foldlM_cons, enter, if_pos hidle.1]
    exact ih hidle.2

/-- A directory is entered by way of all parts of its path. -/
theorem exists_walk_of_isDirectory {path : String} (hdirectory : store.isDirectory path = true) :
    ∃ directory, store.walk (store.origin path) (parts path) = .ok directory := by
  obtain ⟨front, last, hparts⟩ := exists_parts_eq path
  rw [isDirectory, lookup, enclosing, hparts, List.dropLast_concat, List.getLastD_concat]
    at hdirectory
  rw [hparts, walk_append]
  by_cases hpath : path = ""
  · simp [hpath, bind, Except.bind] at hdirectory
  · cases hwalk : store.walk (store.origin path) front with
    | error error => simp [hpath, hwalk, bind, Except.bind, Except.map] at hdirectory
    | ok directory =>
      simp only [hpath, hwalk, if_false, bind, Except.bind, Except.map] at hdirectory ⊢
      rw [walk_singleton]
      cases henter : store.enter directory last with
      | ok next => exact ⟨next, rfl⟩
      | error error =>
        -- What cannot be entered is no directory.
        exfalso
        rw [enter] at henter
        by_cases hidle : isIdle last = true
        · rw [if_pos hidle] at henter
          cases henter
        · by_cases hdots : last = ".."
          · rw [if_neg hidle, if_pos hdots] at henter
            cases henter
          · rw [if_neg hidle, if_neg hdots] at henter
            simp only [hidle, hdots, decide_false, Bool.or_false] at hdirectory
            cases hnode : store.node? (directory ++ [last]) with
            | none => simp [hnode] at hdirectory
            | some node => cases node <;> simp_all

/-- Whether the directory that a file goes into is the one that its path begins in, or is
there. -/
def HasParent (store : Store α) (path : String) : Prop :=
  ∀ parent, parent? path = some parent → parent = "" ∨ store.isDirectory parent = true

theorem parent?_eq {path last : String} {front : List String}
    (hparts : parts path = front ++ [last]) (hlast : isIdle last = false) :
    parent? path =
      some (joined (isRooted path) (dropIdle (isRooted path) front.reverse).reverse) := by
  have hkept : dropIdle (isRooted path) (last :: front.reverse) = last :: front.reverse := by
    rw [dropIdle.eq_def]
    split
    · next heq => cases heq
    · next heq =>
      rw [List.cons.injEq] at heq
      rw [heq.1] at hlast
      cases hlast
    · next heq =>
      obtain ⟨rfl, rfl⟩ := List.cons.inj heq
      rw [hlast]
      rfl
  rw [parent?, hparts, List.reverse_concat, hkept]
  rfl

/-- Where the parent of a path is there, the parts in front of its name lead to it. -/
theorem exists_walk_of_hasParent {path last : String} {front : List String}
    (hparts : parts path = front ++ [last]) (hlast : isIdle last = false)
    (hparent : store.HasParent path) :
    ∃ directory, store.walk (store.origin path) front = .ok directory := by
  obtain ⟨idle, hidle, hfront⟩ := exists_append_dropIdle (isRooted path) front.reverse
  have hparent := hparent _ (parent?_eq hparts hlast)
  generalize hnames : (dropIdle (isRooted path) front.reverse).reverse = names at hparent
  have hsplit : front = names ++ idle.reverse := by
    rw [← hnames, ← List.reverse_append, hfront, List.reverse_reverse]
  have hskip : ∀ start, store.walk start idle.reverse = .ok start :=
    walk_idle (by simpa using hidle)
  rw [hsplit, walk_append]
  by_cases hempty : names = []
  · rw [hempty]
    exact ⟨_, hskip _⟩
  · have hpath : path ≠ "" := by
      rintro rfl
      have hname : (parts "").getLastD "" = last := by rw [hparts, List.getLastD_concat]
      rw [← hname] at hlast
      cases hlast
    have hfirst : isRooted path = false → names.head? ≠ some "" := by
      intro hrooted
      have hhead := head?_parts_ne hrooted hpath
      rwa [hparts, hsplit, List.append_assoc, List.head?_append_of_ne_nil _ hempty] at hhead
    have hslash : ∀ name ∈ names, '/' ∉ name.toList := fun name hname =>
      @slash_not_mem_of_mem_parts path name (by simp [hparts, hsplit, hname])
    obtain ⟨hrooted, hjoined⟩ := parts_joined hempty hslash hfirst
    rcases hparent with hnone | hdirectory
    · rw [hnone] at hrooted hjoined
      exact absurd (by rw [← hjoined]; rfl) (hfirst hrooted.symm)
    · obtain ⟨directory, hwalk⟩ := exists_walk_of_isDirectory hdirectory
      rw [hjoined, origin, hrooted] at hwalk
      rw [origin, hwalk]
      exact ⟨_, hskip _⟩

/-- A file can be put onto the path: the path is not empty, no slash follows its last name, nor
a slash and a dot, and it names no directory. -/
def TakesFile (store : Store α) (path : String) : Prop :=
  path ≠ "" ∧ isIdle ((parts path).getLastD "") = false ∧ store.isDirectory path = false

/-- Where the parent is there, a path that takes a file leads to a place for one. -/
theorem takesFile_iff {path : String} (hparent : store.HasParent path) :
    store.TakesFile path ↔ store.CanHold path := by
  obtain ⟨front, last, hparts⟩ := exists_parts_eq path
  rw [TakesFile, hparts, List.getLastD_concat]
  constructor
  · rintro ⟨hpath, hlast, hdirectory⟩
    obtain ⟨directory, hwalk⟩ := exists_walk_of_hasParent hparts hlast hparent
    by_cases hdots : last = ".."
    · -- Two dots behind a directory name a directory.
      subst hdots
      simp [isDirectory, lookup, enclosing, hpath, hparts, hwalk, enter, isIdle, bind,
        Except.bind, Except.map] at hdirectory
    · have htarget : store.target? path = some (directory ++ [last]) := by
        rw [target?_eq_some_iff hparts]
        simp only [isIdle, Bool.or_eq_false_iff, decide_eq_false_iff_not] at hlast
        exact ⟨hlast.1, hlast.2, hdots, directory, hwalk, rfl⟩
      refine ⟨_, htarget, fun hnode => ?_⟩
      rw [isDirectory, lookup_of_target? htarget, hnode] at hdirectory
      cases hdirectory
  · rintro ⟨location, htarget, hnode⟩
    obtain ⟨hlast, hdot, -⟩ := (target?_eq_some_iff hparts).1 htarget
    refine ⟨?_, by simp [isIdle, hlast, hdot], ?_⟩
    · rintro rfl
      simp [target?, place] at htarget
    · rw [isDirectory, lookup_of_target? htarget]
      cases hfound : store.node? location with
      | none => rfl
      | some node =>
        cases node with
        | file content => rfl
        | directory => exact absurd hfound hnode

end Store

end TimingReport.Files
