import TimingReport.Proofs.TimingLog.Grammar

/-!
# The splitter follows the grammar

The splitter is run on one part of a log after the other.  Each lemma says in which mode
a part leaves it, and that the open row has gained what the part stands for; the count of
bytes and lines goes on by itself.
-/

namespace TimingReport.TimingLog

namespace Splitter

/-- Takes bytes, and gives the rows that they end. -/
def take (splitter : Splitter) : List UInt8 → Splitter × List Row
  | [] => (splitter, [])
  | byte :: bytes =>
    let (next, row?) := splitter.step byte
    let (final, rows) := next.take bytes
    (final, row?.toList ++ rows)

/-- All rows of what remains of a log. -/
def rows (splitter : Splitter) (bytes : List UInt8) : List Row :=
  (splitter.take bytes).2 ++ (splitter.take bytes).1.finish.toList

theorem rows_cons (splitter : Splitter) (byte : UInt8) (bytes : List UInt8) :
    splitter.rows (byte :: bytes) =
      (splitter.step byte).2.toList ++ (splitter.step byte).1.rows bytes :=
  List.append_assoc _ _ _

theorem take_append (splitter : Splitter) (first second : List UInt8) :
    splitter.take (first ++ second) =
      (((splitter.take first).1.take second).1,
        (splitter.take first).2 ++ ((splitter.take first).1.take second).2) := by
  induction first generalizing splitter with
  | nil => rfl
  | cons byte first ih => simp only [List.cons_append, take, ih, List.append_assoc]

/-- The splitter behind some bytes, in another mode and with another open row. -/
def moved (splitter : Splitter) (bytes : List UInt8) (mode : Mode) (field : List UInt8)
    (fields : List (List UInt8)) : Splitter :=
  ⟨mode, splitter.byte + bytes.length, splitter.line + bytes.count lineFeed, splitter.start, field,
    fields⟩

theorem moved_moved (splitter : Splitter) (first second : List UInt8) (mode mode' : Mode)
    (field field' : List UInt8) (fields fields' : List (List UInt8)) :
    (splitter.moved first mode field fields).moved second mode' field' fields' =
      splitter.moved (first ++ second) mode' field' fields' := by
  simp only [moved, List.length_append, List.count_append, Nat.add_assoc]

theorem count_eq (splitter : Splitter) (byte : UInt8) :
    splitter.count byte = splitter.moved [byte] splitter.mode splitter.field splitter.fields := by
  by_cases hbyte : byte = lineFeed
  · subst hbyte
    rfl
  · simp [count, moved, hbyte]

/-- The bytes end no row and leave the splitter in a mode with an open row. -/
def Reaches (splitter : Splitter) (bytes : List UInt8) (mode : Mode) (field : List UInt8)
    (fields : List (List UInt8)) : Prop :=
  splitter.take bytes = (splitter.moved bytes mode field fields, [])

theorem reaches_nil (splitter : Splitter) :
    splitter.Reaches [] splitter.mode splitter.field splitter.fields := rfl

theorem Reaches.trans {splitter : Splitter} {first second : List UInt8} {mode mode' : Mode}
    {field field' : List UInt8} {fields fields' : List (List UInt8)}
    (hfirst : splitter.Reaches first mode field fields)
    (hsecond : (splitter.moved first mode field fields).Reaches second mode' field' fields') :
    splitter.Reaches (first ++ second) mode' field' fields' := by
  rw [Reaches, take_append, hfirst, hsecond, moved_moved, List.append_nil]

/-! ## Single bytes -/

theorem reaches_skip {splitter : Splitter} {byte : UInt8}
    (heffect : splitter.mode.effect byte = .skip) :
    splitter.Reaches [byte] splitter.mode splitter.field splitter.fields := by
  simp only [Reaches, take, step, heffect, apply, count_eq, Option.toList_none, List.append_nil]

theorem reaches_keep {splitter : Splitter} {byte : UInt8} {mode : Mode}
    (heffect : splitter.mode.effect byte = .keep mode) :
    splitter.Reaches [byte] mode (byte :: splitter.field) splitter.fields := by
  simp only [Reaches, take, step, heffect, apply, count_eq, Option.toList_none, List.append_nil]
  rfl

theorem reaches_enter {splitter : Splitter} {byte : UInt8} {mode : Mode}
    (heffect : splitter.mode.effect byte = .enter mode) :
    splitter.Reaches [byte] mode splitter.field splitter.fields := by
  simp only [Reaches, take, step, heffect, apply, count_eq, Option.toList_none, List.append_nil]
  rfl

theorem reaches_endField {splitter : Splitter} {byte : UInt8}
    (heffect : splitter.mode.effect byte = .endField) :
    splitter.Reaches [byte] .fieldStart [] (splitter.field.reverse :: splitter.fields) := by
  simp only [Reaches, take, step, heffect, apply, count_eq, Option.toList_none, List.append_nil]
  rfl

theorem plainEffect_inside {byte : UInt8} (hcomma : byte ≠ comma) (hend : endsRow byte = false) :
    plainEffect byte = .keep .plain := by
  rw [plainEffect, if_neg hcomma, if_neg (by simp [hend])]

theorem effect_inside {mode : Mode} (hmode : mode ≠ .quoted) {byte : UInt8} (hquote : byte ≠ quote)
    (hcomma : byte ≠ comma) (hend : endsRow byte = false) : mode.effect byte = .keep .plain := by
  cases mode with
  | quoted => exact absurd rfl hmode
  | _ => simp [Mode.effect, fieldStartEffect, hquote, hend, plainEffect_inside hcomma hend]

theorem effect_comma {mode : Mode} (hmode : mode ≠ .quoted) : mode.effect comma = .endField := by
  cases mode with
  | quoted => exact absurd rfl hmode
  | _ => rfl

theorem effect_endsRow {mode : Mode} (hquoted : mode ≠ .quoted) (hbetween : mode ≠ .between)
    {byte : UInt8} (hend : endsRow byte = true) : mode.effect byte = .endRow := by
  have hquote : byte ≠ quote := by
    rintro rfl
    exact absurd hend (by decide)
  have hcomma : byte ≠ comma := by
    rintro rfl
    exact absurd hend (by decide)
  cases mode with
  | quoted => exact absurd rfl hquoted
  | between => exact absurd rfl hbetween
  | _ => simp [Mode.effect, fieldStartEffect, plainEffect, hquote, hcomma, hend]

/-! ## Fields -/

theorem reaches_inside {splitter : Splitter} (hmode : splitter.mode = .plain) {text : List UInt8}
    (htext : Inside text) :
    splitter.Reaches text .plain (text.reverse ++ splitter.field) splitter.fields := by
  induction text generalizing splitter with
  | nil =>
    rw [← hmode]
    exact splitter.reaches_nil
  | cons byte text ih =>
    obtain ⟨hcomma, hend⟩ := htext byte List.mem_cons_self
    have hbyte : splitter.Reaches [byte] .plain (byte :: splitter.field) splitter.fields :=
      reaches_keep (by rw [hmode]; exact plainEffect_inside hcomma hend)
    have hrest := hbyte.trans (ih rfl fun b hb => htext b (List.mem_cons_of_mem _ hb))
    rw [List.reverse_cons, List.append_assoc]
    exact hrest

/-- The next byte begins a field. -/
structure StartsField (splitter : Splitter) : Prop where
  mode_cases : splitter.mode = .between ∨ splitter.mode = .fieldStart
  field_eq : splitter.field = []

/-- Some bytes of a field leave the splitter in an allowed mode; it is still between two
rows only if there were none. -/
def Extends (Allowed : Mode → Prop) (splitter : Splitter) (bytes field : List UInt8) : Prop :=
  ∃ mode, Allowed mode ∧ (mode = .between → splitter.mode = .between ∧ bytes = []) ∧
    splitter.Reaches bytes mode field splitter.fields

theorem extends_plainText {splitter : Splitter} (hmode : splitter.mode ≠ .quoted)
    {text : List UInt8} (htext : PlainText text) :
    Extends (· ≠ .quoted) splitter text (text.reverse ++ splitter.field) := by
  cases text with
  | nil => exact ⟨splitter.mode, hmode, fun h => ⟨h, rfl⟩, splitter.reaches_nil⟩
  | cons byte text =>
    obtain ⟨hcomma, hend⟩ := htext.inside byte List.mem_cons_self
    have hquote : byte ≠ quote := fun h => htext.no_quote (by rw [h]; rfl)
    have hbyte := reaches_keep (effect_inside hmode hquote hcomma hend)
    have hrest := hbyte.trans
      (reaches_inside rfl fun b hb => htext.inside b (List.mem_cons_of_mem _ hb))
    refine ⟨.plain, by simp, by simp, ?_⟩
    rw [List.reverse_cons, List.append_assoc]
    exact hrest

theorem reaches_quotedText {splitter : Splitter} (hmode : splitter.mode = .quoted)
    {text content : List UInt8} (htext : QuotedText text content) :
    splitter.Reaches text .quoted (content.reverse ++ splitter.field) splitter.fields := by
  induction htext generalizing splitter with
  | nil =>
    rw [← hmode]
    exact splitter.reaches_nil
  | @byte text content byte hbyte _ ih =>
    have hkeep : splitter.Reaches [byte] .quoted (byte :: splitter.field) splitter.fields :=
      reaches_keep (by rw [hmode, Mode.effect, if_neg hbyte])
    have hrest := hkeep.trans (ih rfl)
    rw [List.reverse_cons, List.append_assoc]
    exact hrest
  | @twice text content _ ih =>
    have hfirst : splitter.Reaches [quote] .quoteSeen splitter.field splitter.fields :=
      reaches_enter (by rw [hmode]; rfl)
    have hsecond := hfirst.trans (@reaches_keep _ quote .quoted rfl)
    have hrest := hsecond.trans (ih rfl)
    rw [List.reverse_cons, List.append_assoc]
    exact hrest

/-- A quote at the start of a field opens it. -/
theorem StartsField.reaches_quoted {splitter : Splitter} (hstart : StartsField splitter)
    {inner content : List UInt8} (hinner : QuotedText inner content) :
    splitter.Reaches (quote :: inner) .quoted content.reverse splitter.fields := by
  have heffect : splitter.mode.effect quote = .enter .quoted := by
    rcases hstart.mode_cases with h | h <;> rw [h] <;> rfl
  have hopen := reaches_enter heffect
  rw [hstart.field_eq] at hopen
  have hinside := hopen.trans (reaches_quotedText rfl hinner)
  change splitter.Reaches _ _ (content.reverse ++ []) _ at hinside
  rwa [List.append_nil] at hinside

theorem StartsField.extends_fieldText {splitter : Splitter} {text content : List UInt8}
    (hstart : StartsField splitter) (htext : FieldText text content) :
    Extends (· ≠ .quoted) splitter text content.reverse := by
  cases htext with
  | plain hplain =>
    have hquoted : splitter.mode ≠ .quoted := by
      rcases hstart.mode_cases with h | h <;> simp [h]
    have hextends := extends_plainText hquoted hplain
    rwa [hstart.field_eq, List.append_nil] at hextends
  | @quoted inner content tail hinner htail =>
    have hclose := (hstart.reaches_quoted hinner).trans (@reaches_enter _ quote .quoteSeen rfl)
    have hseen : (splitter.moved (quote :: inner ++ [quote]) .quoteSeen content.reverse
        splitter.fields).mode ≠ .quoted := Mode.noConfusion
    obtain ⟨mode, hmode, hbetween, htailReaches⟩ := extends_plainText hseen htail
    refine ⟨mode, hmode, fun h => Mode.noConfusion (hbetween h).1, ?_⟩
    have hall := hclose.trans htailReaches
    rw [List.append_assoc, List.cons_append] at hall
    rw [List.reverse_append]
    exact hall

/-- The last field of a log may leave the splitter within quotes. -/
theorem StartsField.extends_finalFieldText {splitter : Splitter} {text content : List UInt8}
    (hstart : StartsField splitter) (htext : FinalFieldText text content) :
    Extends (fun _ => True) splitter text content.reverse := by
  cases htext with
  | closed hclosed =>
    obtain ⟨mode, -, hbetween, hreaches⟩ := hstart.extends_fieldText hclosed
    exact ⟨mode, trivial, hbetween, hreaches⟩
  | unclosed hinner => exact ⟨.quoted, trivial, Mode.noConfusion, hstart.reaches_quoted hinner⟩

/-! ## Rows -/

/-- A row leaves the splitter in a mode that its last field allows, with its fields in the
open row. -/
theorem reaches_rowText {Last : List UInt8 → List UInt8 → Prop} {Allowed : Mode → Prop}
    (hlast : ∀ {splitter : Splitter} {text content : List UInt8}, StartsField splitter →
      Last text content → Extends Allowed splitter text content.reverse)
    {splitter : Splitter} (hstart : StartsField splitter) {text : List UInt8}
    {fields : List (List UInt8)} (htext : RowText Last text fields) :
    ∃ mode field earlier, Allowed mode ∧ (mode = .between → splitter.mode = .between ∧ text = []) ∧
      splitter.Reaches text mode field earlier ∧
      (field.reverse :: earlier).reverse = splitter.fields.reverse ++ fields := by
  induction htext generalizing splitter with
  | last hcontent =>
    obtain ⟨mode, hallowed, hbetween, hreaches⟩ := hlast hstart hcontent
    refine ⟨mode, _, _, hallowed, hbetween, hreaches, ?_⟩
    rw [List.reverse_reverse, List.reverse_cons]
  | @more text content rest fields hcontent _ ih =>
    obtain ⟨mode, hquoted, -, hreaches⟩ := hstart.extends_fieldText hcontent
    have hcomma := hreaches.trans (reaches_endField (effect_comma hquoted))
    obtain ⟨mode', field, earlier, hallowed, hbetween, hrest, hfields⟩ :=
      @ih (splitter.moved (text ++ [comma]) .fieldStart [] (content.reverse.reverse ::
        splitter.fields)) ⟨.inr rfl, rfl⟩
    refine ⟨mode', field, earlier, hallowed, fun h => Mode.noConfusion (hbetween h).1, ?_, ?_⟩
    · have hall := hcomma.trans hrest
      rw [List.append_assoc] at hall
      exact hall
    · rw [hfields]
      simp [moved]

theorem reaches_gap {splitter : Splitter} (hmode : splitter.mode = .between) {gap : List UInt8}
    (hgap : ∀ byte ∈ gap, endsRow byte = true) :
    splitter.Reaches gap .between splitter.field splitter.fields := by
  induction gap generalizing splitter with
  | nil =>
    rw [← hmode]
    exact splitter.reaches_nil
  | cons byte gap ih =>
    have hbyte : splitter.Reaches [byte] .between splitter.field splitter.fields := by
      have hskip : splitter.mode.effect byte = .skip := by
        rw [hmode, Mode.effect, if_pos (hgap byte List.mem_cons_self)]
      have hreaches := reaches_skip hskip
      rwa [hmode] at hreaches
    exact hbyte.trans (ih rfl fun b hb => hgap b (List.mem_cons_of_mem _ hb))

/-- The splitter between two rows. -/
def between (byte line : Nat) (start : Position) : Splitter := ⟨.between, byte, line, start, [], []⟩

/-- The splitter behind a row that it has given. -/
def next (splitter : Splitter) (bytes : List UInt8) : Splitter :=
  between (splitter.byte + bytes.length) (splitter.line + bytes.count lineFeed)
    ⟨splitter.byte + bytes.length, splitter.line + bytes.count lineFeed, splitter.start.row + 1⟩

theorem take_endRow {splitter : Splitter} {byte : UInt8}
    (heffect : splitter.mode.effect byte = .endRow) :
    splitter.take [byte] = (splitter.next [byte], [splitter.row]) := by
  simp only [take, step, heffect, apply, count_eq]
  rfl

theorem next_moved (splitter : Splitter) (first second : List UInt8) (mode : Mode)
    (field : List UInt8) (fields : List (List UInt8)) :
    (splitter.moved first mode field fields).next second = splitter.next (first ++ second) := by
  simp only [moved, next, List.length_append, List.count_append, Nat.add_assoc]

/-- A row that ends with the log. -/
theorem rows_of_reaches {splitter : Splitter} {bytes : List UInt8} {mode : Mode}
    {field : List UInt8} {fields : List (List UInt8)}
    (hreaches : splitter.Reaches bytes mode field fields) (hmode : mode ≠ .between) :
    splitter.rows bytes = [⟨splitter.start, (field.reverse :: fields).reverse⟩] := by
  have hfinish : (splitter.moved bytes mode field fields).finish =
      some ⟨splitter.start, (field.reverse :: fields).reverse⟩ := if_neg hmode
  rw [rows, hreaches, hfinish]
  rfl

/-- A row that ends before the log does. -/
theorem rows_of_endRow {splitter : Splitter} {bytes rest : List UInt8} {stop : UInt8} {mode : Mode}
    {field : List UInt8} {fields : List (List UInt8)}
    (hreaches : splitter.Reaches bytes mode field fields) (heffect : mode.effect stop = .endRow) :
    splitter.rows (bytes ++ stop :: rest) =
      ⟨splitter.start, (field.reverse :: fields).reverse⟩ ::
        (splitter.next (bytes ++ [stop])).rows rest := by
  have hend := @take_endRow (splitter.moved bytes mode field fields) stop heffect
  rw [next_moved] at hend
  rw [rows, rows, ← List.singleton_append, ← List.append_assoc, take_append,
    take_append splitter bytes [stop], hreaches, hend]
  rfl

/-- The row ends in front of a row and its text, read from between two rows. -/
theorem reaches_gap_rowText {Last : List UInt8 → List UInt8 → Prop} {Allowed : Mode → Prop}
    (hlast : ∀ {splitter : Splitter} {text content : List UInt8}, StartsField splitter →
      Last text content → Extends Allowed splitter text content.reverse)
    (byte line : Nat) (start : Position) {gap text : List UInt8} {fields : List (List UInt8)}
    (hgap : ∀ byte ∈ gap, endsRow byte = true) (htext : text ≠ [])
    (hrow : RowText Last text fields) :
    ∃ mode field earlier, Allowed mode ∧ mode ≠ .between ∧
      (between byte line start).Reaches (gap ++ text) mode field earlier ∧
      (field.reverse :: earlier).reverse = fields := by
  have hreaches : (between byte line start).Reaches gap .between [] [] := reaches_gap rfl hgap
  obtain ⟨mode, field, earlier, hallowed, hbetween, hrest, hfields⟩ :=
    @reaches_rowText _ _ hlast ((between byte line start).moved gap .between [] []) ⟨.inl rfl, rfl⟩
      _ _ hrow
  exact ⟨mode, field, earlier, hallowed, fun h => htext (hbetween h).2, hreaches.trans hrest,
    hfields⟩

/-- The rows of a log, each with the place where the one in front of it has ended. -/
def placedRows (byte line : Nat) (start : Position) : List PlacedRow → List Row
  | [] => []
  | row :: rest =>
    let byte := byte + row.bytes.length
    let line := line + row.bytes.count lineFeed
    ⟨start, row.fields⟩ :: placedRows byte line ⟨byte, line, start.row + 1⟩ rest

/-- The splitter gives the rows of a log. -/
theorem rows_between {bytes : List UInt8} {placed : List PlacedRow} (hlog : LogText bytes placed)
    (byte line : Nat) (start : Position) :
    (between byte line start).rows bytes = placedRows byte line start placed := by
  induction hlog generalizing byte line start with
  | @nil gap hgap =>
    have hreaches : (between byte line start).Reaches gap .between [] [] := reaches_gap rfl hgap
    rw [rows, hreaches]
    rfl
  | @last gap text fields hgap htext hrow =>
    obtain ⟨mode, field, earlier, -, hmode, hreaches, rfl⟩ :=
      reaches_gap_rowText StartsField.extends_finalFieldText byte line start hgap htext hrow
    rw [rows_of_reaches hreaches hmode]
    rfl
  | @cons gap text rest fields stop placed hgap htext hrow hstop _ ih =>
    obtain ⟨mode, field, earlier, hquoted, hmode, hreaches, rfl⟩ :=
      reaches_gap_rowText StartsField.extends_fieldText byte line start hgap htext hrow
    have hend := @rows_of_endRow _ _ rest _ _ _ _ hreaches (effect_endsRow hquoted hmode hstop)
    rw [← List.append_assoc, hend, next, ih, placedRows, PlacedRow.bytes, List.append_assoc]
    rfl

theorem initial_eq (skipped : Nat) : initial skipped = between skipped 1 ⟨0, 1, 0⟩ := rfl

end Splitter

end TimingReport.TimingLog
