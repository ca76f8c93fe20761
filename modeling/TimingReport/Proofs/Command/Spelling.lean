import TimingReport.Proofs.Command.Entries

/-!
# Options in any spelling and any order

An option leaves a reading that settles to the choices it makes, however it is written and
whatever waits for its value in front of it.  The choices of different options touch different
entries of the plan, so a command line means the set of its options.
-/

namespace TimingReport.Command

open TimingReport.Fallible
open TimingReport.Pattern (Compiler)

/-- An option that is given, with its value if it takes one. -/
inductive Choice where
  | ofSetting (setting : Setting) (value : String)
  | unbounded
  deriving DecidableEq

namespace Choice

/-- The arguments that an option may be written as. -/
inductive Written : Choice → List String → Prop where
  | attached (setting : Setting) (value : String) :
      Written (.ofSetting setting value) ["--" ++ setting.name ++ "=" ++ value]
  | separate (setting : Setting) {value : String} :
      value.toList.head? ≠ some '-' →
      Written (.ofSetting setting value) ["--" ++ setting.name, value]
  | letter {setting : Setting} {letter : Char} {value : String} :
      setting.letter? = some letter → value.toList.head? ≠ some '-' →
      Written (.ofSetting setting value) [String.ofList ['-', letter], value]
  | unbounded : Written .unbounded ["--unbounded"]

/-- The setting that the option is about. -/
def setting? : Choice → Option Setting
  | .ofSetting setting _ => some setting
  | .unbounded => none

/-- The value of the option fits it. -/
def Fits (compile : Compiler) : Choice → Prop
  | .ofSetting setting value => ∃ entry, setting.Reads compile value entry
  | .unbounded => True

/-- Makes the choice, which may be done once. -/
def choose (choice : Choice) (choices : Choices) : Except Stop Choices :=
  match choice with
  | .ofSetting setting value => (setting.choose value choices).mapError .usage
  | .unbounded =>
    if choices.unbounded then .error (.usage (.repeated "--unbounded"))
    else .ok { choices with unbounded := true }

end Choice

/-! ## Arguments -/

theorem Setting.ofLetter?_of_letter? {setting : Setting} {letter : Char}
    (hletter : setting.letter? = some letter) : ofLetter? letter = some setting := by
  cases setting with
  | input | output =>
    obtain rfl := Option.some.inj hletter
    rfl
  | _ => cases hletter

namespace Argument

theorem ofText_name (setting : Setting) :
    ofText ("--" ++ setting.name) = .long setting.name none := by
  cases setting <;> rfl

theorem ofText_long {text : String} {c : Char} {rest : List Char}
    (htext : text.toList = '-' :: '-' :: c :: rest) :
    ofText text = match (c :: rest).dropWhile (· ≠ '=') with
      | [] => .long (String.ofList ((c :: rest).takeWhile (· ≠ '='))) none
      | _ :: value =>
        .long (String.ofList ((c :: rest).takeWhile (· ≠ '='))) (some (String.ofList value)) := by
  rw [ofText, htext]
  rfl

/-- A name and a value in one argument; an equals sign may also stand in the value. -/
theorem ofText_attached (setting : Setting) (value : String) :
    ofText ("--" ++ setting.name ++ "=" ++ value) = .long setting.name (some value) := by
  obtain ⟨c, rest, hname⟩ : ∃ c rest, setting.name.toList = c :: rest := by
    cases setting <;> exact ⟨_, _, rfl⟩
  have hplain : ∀ d ∈ c :: rest, decide (d ≠ '=') = true := by
    rw [← hname, ← List.all_eq_true]
    cases setting <;> rfl
  have htext : ("--" ++ setting.name ++ "=" ++ value).toList =
      '-' :: '-' :: c :: (rest ++ '=' :: value.toList) := by
    simp [String.toList_append, hname]
  have htake : (c :: (rest ++ '=' :: value.toList)).takeWhile (· ≠ '=') = c :: rest := by
    rw [← List.cons_append, List.takeWhile_append_of_pos hplain]
    simp
  have hdrop : (c :: (rest ++ '=' :: value.toList)).dropWhile (· ≠ '=') = '=' :: value.toList := by
    rw [← List.cons_append, List.dropWhile_append_of_pos hplain]
    simp
  rw [ofText_long htext, htake, hdrop, ← hname]
  simp only [String.ofList_toList]

theorem ofText_letter {setting : Setting} {letter : Char}
    (hletter : setting.letter? = some letter) :
    ofText (String.ofList ['-', letter]) = .short letter [] := by
  cases setting with
  | input | output =>
    obtain rfl := Option.some.inj hletter
    rfl
  | _ => cases hletter

theorem ofText_plain {text : String} (htext : text.toList.head? ≠ some '-') :
    ofText text = .plain text := by
  rw [ofText]
  split <;> simp_all

theorem ofText_ne_plain {text : String} {c : Char} {rest : List Char}
    (htext : text.toList = '-' :: c :: rest) (other : String) : ofText text ≠ .plain other := by
  by_cases hlong : c = '-' ∧ rest ≠ []
  · obtain ⟨rfl, hrest⟩ := hlong
    obtain ⟨d, rest, rfl⟩ := List.exists_cons_of_ne_nil hrest
    rw [ofText_long htext]
    split <;> simp
  · rw [ofText, htext]
    split <;> simp_all

end Argument

/-! ## Readings -/

namespace Reading

theorem takeSetting_none {reading : Reading} {choices : Choices}
    (hsettle : reading.settle = .ok choices) (setting : Setting) :
    reading.takeSetting setting none = .ok ⟨choices, some (setting, none)⟩ := by
  rw [takeSetting, hsettle]
  rfl

theorem takeAll_long {reading next : Reading} {argument : String} {setting : Setting}
    {value : Option String} (hargument : Argument.ofText argument = .long setting.name value)
    (htake : reading.takeSetting setting value = .ok next) (rest : List String) :
    reading.takeAll (argument :: rest) = next.takeAll rest := by
  simp only [takeAll, hargument, takeLong, Setting.ofName?_name, htake]

theorem takeAll_short {reading next : Reading} {argument : String} {setting : Setting}
    {letter : Char} (hletter : setting.letter? = some letter)
    (hargument : Argument.ofText argument = .short letter [])
    (htake : reading.takeSetting setting none = .ok next) (rest : List String) :
    reading.takeAll (argument :: rest) = next.takeAll rest := by
  simp only [takeAll, hargument, takeShort, Setting.ofLetter?_of_letter? hletter, htake]

theorem takeAll_value {value : String} (hvalue : value.toList.head? ≠ some '-') (choices : Choices)
    (setting : Setting) (rest : List String) :
    takeAll ⟨choices, some (setting, none)⟩ (value :: rest) =
      takeAll ⟨choices, some (setting, some value)⟩ rest := by
  simp only [takeAll, Argument.ofText_plain hvalue, takePlain]

/-- An option that is written leads to a reading that settles to its choice. -/
theorem exists_takeAll_of_written {choice : Choice} {written : List String}
    (hwritten : choice.Written written) {reading : Reading} {choices next : Choices}
    (hsettle : reading.settle = .ok choices) (hchoose : choice.choose choices = .ok next) :
    ∃ after : Reading, after.settle = .ok next ∧
      ∀ rest, reading.takeAll (written ++ rest) = after.takeAll rest := by
  cases hwritten with
  | attached setting value =>
    have htake : reading.takeSetting setting (some value) = .ok ⟨next, none⟩ := by
      have hjudged : (setting.choose value choices).mapError Stop.usage = .ok next := hchoose
      rw [takeSetting, hsettle]
      change ((setting.choose value choices).mapError Stop.usage).map _ = _
      rw [hjudged]
      rfl
    exact ⟨⟨next, none⟩, rfl, takeAll_long (Argument.ofText_attached setting value) htake⟩
  | @separate setting value hvalue =>
    -- the value is judged only later, so the choices of the reading stay as they are
    refine ⟨⟨choices, some (setting, some value)⟩, hchoose, fun rest => ?_⟩
    rw [List.cons_append,
      takeAll_long (Argument.ofText_name setting) (takeSetting_none hsettle setting)]
    exact takeAll_value hvalue choices setting rest
  | @letter setting letter value hletter hvalue =>
    refine ⟨⟨choices, some (setting, some value)⟩, hchoose, fun rest => ?_⟩
    rw [List.cons_append, takeAll_short hletter (Argument.ofText_letter hletter)
      (takeSetting_none hsettle setting)]
    exact takeAll_value hvalue choices setting rest
  | unbounded =>
    have htake : reading.takeUnbounded = .ok ⟨next, none⟩ := by
      rw [takeUnbounded, hsettle]
      simp only [Choice.choose] at hchoose
      split at hchoose
      · cases hchoose
      · next hfirst =>
        obtain rfl := Except.ok.inj hchoose
        exact if_neg hfirst
    have hargument : Argument.ofText "--unbounded" = .long "unbounded" none := rfl
    have hname : Setting.ofName? "unbounded" = none := rfl
    refine ⟨⟨next, none⟩, rfl, fun rest => ?_⟩
    simp only [List.cons_append, List.nil_append, takeAll, hargument, takeLong, hname, true_or,
      if_true, if_neg (by decide : ¬"unbounded" = "help"), htake]

/-- Options in a row make their choices one after the other. -/
theorem takeAll_of_written {order : List Choice} {written : List (List String)}
    (hwritten : List.Forall₂ Choice.Written order written) {reading : Reading}
    {choices final : Choices} (hsettle : reading.settle = .ok choices)
    (hchoose : order.foldlM (fun choices choice => choice.choose choices) choices = .ok final) :
    reading.takeAll written.flatten = .ok final := by
  -- along the options, with the reading in front of each as it settles there
  induction hwritten generalizing reading choices with
  | nil =>
    obtain rfl := Except.ok.inj hchoose
    exact hsettle
  | @cons choice arguments order written hfirst _ ih =>
    rw [List.foldlM_cons] at hchoose
    obtain ⟨next, hnext, hrest⟩ := bind_ok_iff.1 hchoose
    obtain ⟨after, hafter, htake⟩ := exists_takeAll_of_written hfirst hsettle hnext
    rw [List.flatten_cons, htake]
    exact ih hafter hrest

/-- A reading that does not settle takes no option. -/
theorem exists_takeLong_error {reading : Reading} {stop : Stop}
    (hsettle : reading.settle = .error stop) (name : String) (value : Option String) :
    ∃ stop, reading.takeLong name value = .error stop := by
  cases hsetting : Setting.ofName? name with
  | some setting => exact ⟨stop, by simp only [takeLong, hsetting, takeSetting, hsettle]; rfl⟩
  | none =>
    simp only [takeLong, hsetting]
    split_ifs with hknown hhelp
    · cases value with
      | some value => exact ⟨_, rfl⟩
      | none => exact ⟨stop, by rw [takeHelp, hsettle]; rfl⟩
    · cases value with
      | some value => exact ⟨_, rfl⟩
      | none => exact ⟨stop, by rw [takeUnbounded, hsettle]; rfl⟩
    · exact ⟨_, rfl⟩

theorem exists_takeShort_error {reading : Reading} {stop : Stop}
    (hsettle : reading.settle = .error stop) (letter : Char) (text : List Char) :
    ∃ stop, reading.takeShort letter text = .error stop := by
  cases hsetting : Setting.ofLetter? letter with
  | some setting => exact ⟨stop, by simp only [takeShort, hsetting, takeSetting, hsettle]; rfl⟩
  | none =>
    simp only [takeShort, hsetting]
    split_ifs
    · exact ⟨stop, by rw [takeHelp, hsettle]; rfl⟩
    · exact ⟨_, rfl⟩

/-- An option that waits for its value takes no argument that begins with a minus and goes on. -/
theorem exists_stop_of_minus {value : String} {c : Char} {text : List Char}
    (hvalue : value.toList = '-' :: c :: text) (choices : Choices) (setting : Setting)
    (rest : List String) :
    ∃ stop, takeAll ⟨choices, some (setting, none)⟩ (value :: rest) = .error stop := by
  have hwaits :
      settle ⟨choices, some (setting, none)⟩ = .error (.usage (.missingValue setting)) := rfl
  cases hargument : Argument.ofText value with
  | separator =>
    cases rest with
    | nil => exact ⟨_, by simp only [takeAll, hargument]; exact hwaits⟩
    | cons extra rest => exact ⟨_, by simp only [takeAll, hargument]; rfl⟩
  | plain other => exact absurd hargument (Argument.ofText_ne_plain hvalue other)
  | long name given =>
    obtain ⟨stop, hstop⟩ := exists_takeLong_error hwaits name given
    exact ⟨stop, by simp only [takeAll, hargument, hstop]⟩
  | short letter given =>
    obtain ⟨stop, hstop⟩ := exists_takeShort_error hwaits letter given
    exact ⟨stop, by simp only [takeAll, hargument, hstop]⟩

/-- So a value that begins with a minus and goes on has to stand in one argument with its option. -/
theorem exists_stop_of_separate_minus {reading : Reading} {choices : Choices}
    (hsettle : reading.settle = .ok choices) (setting : Setting) {value : String} {c : Char}
    {text : List Char} (hvalue : value.toList = '-' :: c :: text) (rest : List String) :
    ∃ stop, reading.takeAll (("--" ++ setting.name) :: value :: rest) = .error stop := by
  rw [takeAll_long (Argument.ofText_name setting) (takeSetting_none hsettle setting)]
  exact exists_stop_of_minus hvalue choices setting rest

end Reading

/-! ## What a command line means -/

/-- A plan that holds what the options say, and the defaults elsewhere. -/
structure Describes (compile : Compiler) (options : List Choice) (plan : Plan) : Prop where
  reads : ∀ setting value, .ofSetting setting value ∈ options →
    setting.Reads compile value (setting.entry plan)
  default : ∀ setting, some setting ∉ options.map Choice.setting? →
    setting.entry plan = setting.entry .default
  bounded : plan.bounded = false ↔ .unbounded ∈ options

section

variable {compile : Compiler}

theorem Describes.unique {options : List Choice} {plan other : Plan}
    (hplan : Describes compile options plan) (hother : Describes compile options other) :
    plan = other := by
  refine Setting.eq_of_entries (fun setting => ?_) ?_
  · by_cases hgiven : some setting ∈ options.map Choice.setting?
    · obtain ⟨choice, hchoice, hsetting⟩ := List.mem_map.1 hgiven
      cases choice with
      | unbounded => cases hsetting
      | ofSetting given value =>
        obtain rfl := Option.some.inj hsetting
        exact (hplan.reads _ value hchoice).unique (hother.reads _ value hchoice)
    · rw [hplan.default setting hgiven, hother.default setting hgiven]
  · have hsame := hplan.bounded.trans hother.bounded.symm
    cases hleft : plan.bounded <;> cases hright : other.bounded <;> simp_all

/-- The order of the options does not matter. -/
theorem Describes.of_perm {order options : List Choice} (hperm : order.Perm options) {plan : Plan}
    (hplan : Describes compile order plan) : Describes compile options plan := by
  refine ⟨fun setting value hmem => ?_, fun setting hmem => ?_, ?_⟩
  · exact hplan.reads setting value (hperm.mem_iff.2 hmem)
  · exact hplan.default setting (mt (hperm.map _).mem_iff.1 hmem)
  · rw [hplan.bounded, hperm.mem_iff]

/-- The choices that some options have led to. -/
structure Reflects (compile : Compiler) (done : List Choice) (choices : Choices) : Prop where
  plan : ∃ plan, choices.toPlan compile = .ok plan ∧ Describes compile done plan
  given : ∀ setting ∈ choices.given, some setting ∈ done.map Choice.setting?
  unbounded : choices.unbounded = true → .unbounded ∈ done

theorem reflects_default : Reflects compile [] .default := by
  have hdefault : Describes compile [] .default := ⟨by simp, fun _ _ => rfl, by simp [Plan.default]⟩
  exact ⟨⟨.default, rfl, hdefault⟩, by simp [Choices.default], by simp [Choices.default]⟩

/-- Putting the entry of a setting that has not been given makes the plan say one thing more. -/
theorem Describes.put {done : List Choice} {plan : Plan} (hplan : Describes compile done plan)
    {setting : Setting} {value : String} {entry : Entry}
    (hreads : setting.Reads compile value entry)
    (hnew : some setting ∉ done.map Choice.setting?) :
    Describes compile (done ++ [.ofSetting setting value]) (setting.put entry plan) := by
  refine ⟨fun other text hmem => ?_, fun other hmem => ?_, ?_⟩
  · rcases List.mem_append.1 hmem with hearlier | hlast
    · have hother : other ≠ setting := by
        rintro rfl
        exact hnew (List.mem_map_of_mem (f := Choice.setting?) hearlier)
      rw [Setting.entry_put_of_ne hother]
      exact hplan.reads other text hearlier
    · obtain ⟨rfl, rfl⟩ := Choice.ofSetting.inj (List.mem_singleton.1 hlast)
      rwa [hreads.entry_put]
  · rw [List.map_append, List.mem_append, not_or] at hmem
    have hother : other ≠ setting := by
      rintro rfl
      exact hmem.2 (List.mem_singleton.2 rfl)
    rw [Setting.entry_put_of_ne hother]
    exact hplan.default other hmem.1
  · rw [Setting.bounded_put, hplan.bounded]
    simp

theorem Describes.unbounded {done : List Choice} {plan : Plan}
    (hplan : Describes compile done plan) :
    Describes compile (done ++ [.unbounded]) { plan with bounded := false } := by
  have hentry : ∀ setting : Setting,
      setting.entry { plan with bounded := false } = setting.entry plan := fun setting => by
    cases setting <;> rfl
  refine ⟨fun setting value hmem => ?_, fun setting hmem => ?_, by simp⟩
  · rw [hentry]
    exact hplan.reads setting value (by simpa using hmem)
  · rw [hentry]
    exact hplan.default setting (by simpa [Choice.setting?] using hmem)

theorem toPlan_unbounded {choices : Choices} {plan : Plan}
    (hplan : choices.toPlan compile = .ok plan) :
    Choices.toPlan compile { choices with unbounded := true } =
      .ok { plan with bounded := false } := by
  rw [Choices.toPlan_eq, map_ok_iff] at hplan ⊢
  obtain ⟨tags, htags, rfl⟩ := hplan
  exact ⟨tags, htags, rfl⟩

/-- A new option whose value fits can be chosen. -/
theorem Reflects.exists_choose {done : List Choice} {choices : Choices}
    (hdone : Reflects compile done choices) {choice : Choice} (hfits : choice.Fits compile)
    (hnew : choice.setting? ∉ done.map Choice.setting?) :
    ∃ next, choice.choose choices = .ok next ∧ Reflects compile (done ++ [choice]) next := by
  obtain ⟨⟨plan, hplan, hdescribes⟩, hgiven, hunbounded⟩ := hdone
  cases choice with
  | ofSetting setting value =>
    obtain ⟨entry, hreads⟩ := hfits
    have hfirst : setting ∉ choices.given := mt (hgiven setting) hnew
    obtain ⟨next, hstore, hnext, hnextGiven, hnextUnbounded⟩ :=
      @Setting.Reads.exists_store compile setting value entry hreads
        { choices with given := setting :: choices.given } plan hplan
    refine ⟨next, ?_, ⟨_, hnext, hdescribes.put hreads hnew⟩, ?_, ?_⟩
    · rw [Choice.choose, Setting.choose, if_neg hfirst, hstore]
      rfl
    · rw [hnextGiven, List.map_append]
      intro other hother
      rcases List.mem_cons.1 hother with rfl | hearlier
      · exact List.mem_append_right _ (List.mem_singleton.2 rfl)
      · exact List.mem_append_left _ (hgiven other hearlier)
    · rw [hnextUnbounded]
      exact fun h => List.mem_append_left _ (hunbounded h)
  | unbounded =>
    have hfirst : ¬choices.unbounded = true := fun h =>
      hnew (List.mem_map_of_mem (f := Choice.setting?) (hunbounded h))
    have hplan' : ∃ plan, Choices.toPlan compile { choices with unbounded := true } = .ok plan ∧
        Describes compile (done ++ [.unbounded]) plan :=
      ⟨_, toPlan_unbounded hplan, hdescribes.unbounded⟩
    refine ⟨{ choices with unbounded := true }, if_neg hfirst, hplan', ?_, fun _ => by simp⟩
    rw [List.map_append]
    exact fun setting hsetting => List.mem_append_left _ (hgiven setting hsetting)

theorem Reflects.exists_foldlM {order done : List Choice} {choices : Choices}
    (hdone : Reflects compile done choices) (hfits : ∀ choice ∈ order, choice.Fits compile)
    (hdistinct : ((done ++ order).map Choice.setting?).Nodup) :
    ∃ final, order.foldlM (fun choices choice => choice.choose choices) choices = .ok final ∧
      Reflects compile (done ++ order) final := by
  -- along the options still to be chosen; `done` are those in front of them
  induction order generalizing done choices with
  | nil => exact ⟨choices, rfl, by rwa [List.append_nil]⟩
  | cons choice order ih =>
    obtain ⟨hchoice, horder⟩ := List.forall_mem_cons.1 hfits
    have hnew : choice.setting? ∉ done.map Choice.setting? := by
      rw [List.map_append, List.map_cons] at hdistinct
      exact fun hmem => List.disjoint_of_nodup_append hdistinct hmem List.mem_cons_self
    obtain ⟨next, hnext, hreflects⟩ := hdone.exists_choose hchoice hnew
    rw [List.append_cons] at hdistinct
    obtain ⟨final, hfinal, hall⟩ := ih hreflects horder hdistinct
    rw [List.append_cons]
    exact ⟨final, by rw [List.foldlM_cons, hnext]; exact hfinal, hall⟩

/-- Options with values that fit, each given once, describe one plan, in every order and however
each of them is written. -/
theorem planOfArguments_written {options : List Choice}
    (hdistinct : (options.map Choice.setting?).Nodup)
    (hfits : ∀ choice ∈ options, choice.Fits compile) :
    ∃ plan, Describes compile options plan ∧
      ∀ order written, order.Perm options → List.Forall₂ Choice.Written order written →
        planOfArguments compile written.flatten = .ok plan := by
  have hevery : ∀ order : List Choice, order.Perm options → ∃ final plan,
      order.foldlM (fun choices choice => choice.choose choices) .default = .ok final ∧
        final.toPlan compile = .ok plan ∧ Describes compile options plan := by
    intro order horder
    obtain ⟨final, hfinal, ⟨plan, hplan, hdescribes⟩, -, -⟩ :=
      reflects_default.exists_foldlM (fun choice hchoice => hfits choice (horder.mem_iff.1 hchoice))
        ((horder.map _).nodup_iff.2 hdistinct)
    exact ⟨final, plan, hfinal, hplan, hdescribes.of_perm horder⟩
  obtain ⟨-, plan, -, -, hdescribes⟩ := hevery options (List.Perm.refl _)
  refine ⟨plan, hdescribes, fun order written horder hwritten => ?_⟩
  obtain ⟨final, other, hfinal, hother, hotherDescribes⟩ := hevery order horder
  rw [hdescribes.unique hotherDescribes, ← hother, planOfArguments,
    Reading.takeAll_of_written hwritten rfl hfinal]
  rfl

/-- A path with an equals sign, a negative bound, a pattern and a resolution, in another order. -/
theorem planOfArguments_written_bound_and_tags :
    let compile := Compiler.reference
    ∃ plan, Describes compile [.ofSetting .input "output=a.csv", .unbounded, .ofSetting .yMax "-5",
        .ofSetting .tags "^(a|b)=", .ofSetting .dpi "100"] plan ∧
      planOfArguments compile ["--dpi", "100", "--y-max=-5", "--unbounded", "--tags=^(a|b)=", "-i",
        "output=a.csv"] = .ok plan := by
  intro compile
  obtain ⟨pattern, hpattern⟩ := Option.isSome_iff_exists.1
    (by decide +kernel : (compile "^(a|b)=").isSome = true)
  have hbound : Number.float "-5".toList = .ok (-5) := by decide +kernel
  have hdpi : Number.integer64 "100".toList = .ok 100 := by decide +kernel
  obtain ⟨hnumeral, -⟩ := (Number.signedInteger_ok_iff (by decide) _ _ _ _).1 hdpi
  have hfits : ∀ choice ∈ [Choice.ofSetting .input "output=a.csv", .unbounded,
      .ofSetting .yMax "-5", .ofSetting .tags "^(a|b)=", .ofSetting .dpi "100"],
      choice.Fits compile := by
    simp only [List.forall_mem_cons]
    exact ⟨⟨_, .path (by decide) (by decide)⟩, trivial, ⟨_, .number (by decide) hbound⟩,
      ⟨_, .pattern hpattern⟩, ⟨_, .count hnumeral (by decide) (by decide)⟩, List.forall_mem_nil _⟩
  obtain ⟨plan, hdescribes, hplan⟩ := planOfArguments_written (by decide) hfits
  refine ⟨plan, hdescribes, hplan [.ofSetting .dpi "100", .ofSetting .yMax "-5", .unbounded,
    .ofSetting .tags "^(a|b)=", .ofSetting .input "output=a.csv"]
    [["--dpi", "100"], ["--y-max=-5"], ["--unbounded"], ["--tags=^(a|b)="], ["-i", "output=a.csv"]]
    (by decide) ?_⟩
  exact .cons (.separate .dpi (by decide)) (.cons (.attached .yMax "-5") (.cons .unbounded
    (.cons (.attached .tags "^(a|b)=") (.cons (.letter rfl (by decide)) .nil))))

/-- A negative bound fits, but is taken for an option in an argument of its own. -/
theorem planOfArguments_separate_minus :
    let compile := Compiler.reference
    Choice.Fits compile (.ofSetting .yMax "-5") ∧
      planOfArguments compile ["--y-max", "-5"] = .error (.usage (.unknownArgument "-5")) ∧
      (planOfArguments compile ["--y-max=-5"]).map Plan.yMax = .ok (-5) := by
  have hbound : Number.float "-5".toList = .ok (-5) := by decide +kernel
  exact ⟨⟨_, .number (by decide) hbound⟩, rfl, by decide +kernel⟩

end

end TimingReport.Command
