import TimingReport.Command.Arguments
import TimingReport.Proofs.Number.Grammar

/-!
# Settings and the entries of a plan

A setting has one entry in a plan, and putting an entry leaves those of the other settings alone.
Storing a value puts what the value is read as; a tag pattern is put only when all arguments have
been read, so the plan is the one that the choices would give if the arguments ended there.  What
texts are patterns is up to a compiler.
-/

namespace TimingReport.Command

open TimingReport.Fallible
open TimingReport.Number (SignedNumeral)
open TimingReport.Pattern (Compiler TagPattern)

/-- What a plan holds for a setting. -/
inductive Entry where
  | path (path : Option String)
  | number (x : Float)
  | count (n : Nat)
  | rule (rule : DuplicateRule)
  | pattern (pattern : Option TagPattern)

namespace Setting

def entry (setting : Setting) (plan : Plan) : Entry :=
  match setting with
  | .input => .path (some plan.input)
  | .output => .path (some plan.output)
  | .summary => .path plan.summary
  | .font => .path plan.font
  | .width => .number plan.width
  | .height => .number plan.height
  | .fontSize => .number plan.fontSize
  | .yMax => .number plan.yMax
  | .dpi => .count plan.dpi
  | .onDuplicate => .rule plan.duplicateRule
  | .tags => .pattern plan.tags

/-- Puts an entry of the right kind into a plan. -/
def put (setting : Setting) (entry : Entry) (plan : Plan) : Plan :=
  match setting, entry with
  | .input, .path path => { plan with input := path.getD plan.input }
  | .output, .path path => { plan with output := path.getD plan.output }
  | .summary, .path path => { plan with summary := path }
  | .font, .path path => { plan with font := path }
  | .width, .number x => { plan with width := x }
  | .height, .number x => { plan with height := x }
  | .fontSize, .number x => { plan with fontSize := x }
  | .yMax, .number x => { plan with yMax := x }
  | .dpi, .count n => { plan with dpi := n }
  | .onDuplicate, .rule rule => { plan with duplicateRule := rule }
  | .tags, .pattern pattern => { plan with tags := pattern }
  | _, _ => plan

theorem entry_put_of_ne {setting other : Setting} (hother : other ≠ setting) (entry : Entry)
    (plan : Plan) : other.entry (setting.put entry plan) = other.entry plan := by
  cases setting <;> cases entry <;>
    first | rfl | (cases other <;> first | rfl | exact absurd rfl hother)

/-- The axis is no setting, so its choice may come before or after, and so may the tags. -/
theorem put_finished {setting : Setting} (hsetting : setting ≠ .tags) (entry : Entry) (plan : Plan)
    (bounded : Bool) (tags : Option TagPattern) :
    { setting.put entry plan with bounded := bounded, tags := tags } =
      setting.put entry { plan with bounded := bounded, tags := tags } := by
  cases setting <;> cases entry <;> first | rfl | exact absurd rfl hsetting

theorem bounded_put (setting : Setting) (entry : Entry) (plan : Plan) :
    (setting.put entry plan).bounded = plan.bounded := by
  cases setting <;> cases entry <;> rfl

/-- A plan is told by its entries and its axis. -/
theorem eq_of_entries {plan other : Plan}
    (hentries : ∀ setting : Setting, setting.entry plan = setting.entry other)
    (hbounded : plan.bounded = other.bounded) : plan = other := by
  have hinput := hentries .input
  have houtput := hentries .output
  have hsummary := hentries .summary
  have hfont := hentries .font
  have hwidth := hentries .width
  have hheight := hentries .height
  have hfontSize := hentries .fontSize
  have hyMax := hentries .yMax
  have hdpi := hentries .dpi
  have hrule := hentries .onDuplicate
  have htags := hentries .tags
  cases plan
  cases other
  simp_all [entry]

/-! ## Values -/

def paths : List Setting := [.input, .output, .summary, .font]

def numbers : List Setting := [.width, .height, .fontSize, .yMax]

/-- A value that fits a setting, and the entry that it is read as. -/
inductive Reads (compile : Compiler) : Setting → String → Entry → Prop where
  | path {setting : Setting} {value : String} :
      setting ∈ paths → value ≠ "" → Reads compile setting value (.path (some value))
  | number {setting : Setting} {value : String} {x : Float} :
      setting ∈ numbers → Number.float value.toList = .ok x →
      Reads compile setting value (.number x)
  | count {value : String} {n : Int} :
      SignedNumeral 10 value.toList n → 1 ≤ n → n ≤ 2 ^ 32 - 1 →
      Reads compile .dpi value (.count n.toNat)
  | rule (rule : DuplicateRule) : Reads compile .onDuplicate (ruleName rule) (.rule rule)
  | pattern {text : String} {pattern : TagPattern} :
      compile text = some pattern → Reads compile .tags text (.pattern (some pattern))

namespace Reads

variable {compile : Compiler} {setting : Setting} {value : String} {entry : Entry}

theorem entry_put (hreads : setting.Reads compile value entry) (plan : Plan) :
    setting.entry (setting.put entry plan) = entry := by
  cases hreads with
  | path hpath =>
    simp only [paths, List.mem_cons, List.not_mem_nil, or_false] at hpath
    rcases hpath with rfl | rfl | rfl | rfl <;> rfl
  | number hnumber =>
    simp only [numbers, List.mem_cons, List.not_mem_nil, or_false] at hnumber
    rcases hnumber with rfl | rfl | rfl | rfl <;> rfl
  | count => rfl
  | rule => rfl
  | pattern => rfl

/-- A value that fits is stored at once, but for a pattern. -/
theorem store_eq (hreads : setting.Reads compile value entry) (hsetting : setting ≠ .tags)
    (choices : Choices) :
    setting.store value choices =
      .ok { choices with plan := setting.put entry choices.plan } := by
  cases hreads with
  | path hpath hvalue =>
    have hread : setting.path value = .ok value := if_neg hvalue
    simp only [paths, List.mem_cons, List.not_mem_nil, or_false] at hpath
    rcases hpath with rfl | rfl | rfl | rfl <;> rw [store, hread] <;> rfl
  | @number _ _ x hnumber hfloat =>
    have hread : setting.float value = .ok x := by rw [Setting.float, hfloat]
    simp only [numbers, List.mem_cons, List.not_mem_nil, or_false] at hnumber
    rcases hnumber with rfl | rfl | rfl | rfl <;> rw [store, hread] <;> rfl
  | @count _ n hnumeral hlow hhigh =>
    have hinteger : Number.integer64 value.toList = .ok n :=
      (Number.signedInteger_ok_iff (by decide) _ _ _ _).2 ⟨hnumeral, by omega, by omega⟩
    have hread : positiveWord32 .dpi value = .ok n.toNat := by
      rw [positiveWord32, hinteger]
      exact if_pos ⟨hlow, hhigh⟩
    rw [store, hread]
    rfl
  | rule rule =>
    have hread : duplicateRule .onDuplicate (ruleName rule) = .ok rule := by
      cases rule <;> rfl
    rw [store, hread]
    rfl
  | pattern => exact absurd rfl hsetting

end Reads

end Setting

section

variable {compile : Compiler}

/-- The tag pattern of the choices, compiled if it is still a text. -/
def Choices.compiled (compile : Compiler) (choices : Choices) :
    Except Stop (Option TagPattern) :=
  match choices.tagPattern with
  | none => .ok choices.plan.tags
  | some text =>
    match compile text with
    | none => .error .badPattern
    | some pattern => .ok (some pattern)

theorem Choices.toPlan_eq (choices : Choices) :
    choices.toPlan compile = (choices.compiled compile).map fun tags =>
      { choices.plan with bounded := !choices.unbounded, tags := tags } := by
  simp only [toPlan, compiled]
  cases choices.tagPattern with
  | none => rfl
  | some text =>
    simp only
    cases compile text <;> rfl

namespace Setting

theorem toPlan_put {setting : Setting} (hsetting : setting ≠ .tags) (entry : Entry)
    {choices : Choices} {plan : Plan} (hplan : choices.toPlan compile = .ok plan) :
    Choices.toPlan compile { choices with plan := setting.put entry choices.plan } =
      .ok (setting.put entry plan) := by
  have htags : (setting.put entry choices.plan).tags = choices.plan.tags :=
    Entry.pattern.inj (entry_put_of_ne hsetting.symm entry choices.plan)
  have hcompiled :
      Choices.compiled compile { choices with plan := setting.put entry choices.plan } =
        choices.compiled compile := by
    simp only [Choices.compiled, htags]
  rw [Choices.toPlan_eq, map_ok_iff] at hplan ⊢
  obtain ⟨tags, htext, rfl⟩ := hplan
  exact ⟨tags, hcompiled.trans htext, put_finished hsetting entry choices.plan _ tags⟩

theorem toPlan_tagPattern {text : String} {pattern : TagPattern}
    (hpattern : compile text = some pattern) {choices : Choices} {plan : Plan}
    (hplan : choices.toPlan compile = .ok plan) :
    Choices.toPlan compile { choices with tagPattern := some text } =
      .ok (Setting.tags.put (.pattern (some pattern)) plan) := by
  have hcompiled : Choices.compiled compile { choices with tagPattern := some text } =
      .ok (some pattern) := by
    simp only [Choices.compiled, hpattern]
  rw [Choices.toPlan_eq, map_ok_iff] at hplan
  obtain ⟨tags, -, rfl⟩ := hplan
  rw [Choices.toPlan_eq, hcompiled]
  rfl

/-- Storing a value that fits puts its entry into the plan that the choices give. -/
theorem Reads.exists_store {setting : Setting} {value : String} {entry : Entry}
    (hreads : setting.Reads compile value entry) {choices : Choices} {plan : Plan}
    (hplan : choices.toPlan compile = .ok plan) :
    ∃ next, setting.store value choices = .ok next ∧
      next.toPlan compile = .ok (setting.put entry plan) ∧ next.given = choices.given ∧
      next.unbounded = choices.unbounded := by
  by_cases hsetting : setting = .tags
  · subst hsetting
    cases hreads with
    | path hpath => exact absurd hpath (by decide)
    | number hnumber => exact absurd hnumber (by decide)
    | pattern hpattern => exact ⟨_, rfl, toPlan_tagPattern hpattern hplan, rfl, rfl⟩
  · exact ⟨_, hreads.store_eq hsetting choices, toPlan_put hsetting entry hplan, rfl, rfl⟩

/-- A value is read in one way. -/
theorem Reads.unique {setting : Setting} {value : String} {entry other : Entry}
    (hreads : setting.Reads compile value entry)
    (hother : setting.Reads compile value other) : entry = other := by
  have hplan : Choices.default.toPlan compile = .ok Plan.default := rfl
  obtain ⟨next, hstore, hnext, -, -⟩ := hreads.exists_store hplan
  obtain ⟨next', hstore', hnext', -, -⟩ := hother.exists_store hplan
  obtain rfl := Except.ok.inj (hstore.symm.trans hstore')
  rw [← hreads.entry_put Plan.default, Except.ok.inj (hnext.symm.trans hnext'),
    hother.entry_put]

end Setting

end

end TimingReport.Command
