import TimingReport.Proofs.TimingLog.Arrival

/-!
# Appending to a log

Behind a row end that no quotes take in, the splitter stands between two rows again, and only its
count of bytes, lines and rows tells that something has been taken.  The count says where a fault
is reported but not what is one, so the measurements of what is appended follow those in front.
-/

namespace TimingReport.TimingLog

open TimingReport.Fallible

/-! ## Back between two rows -/

namespace Splitter

/-- Between two rows no field is open. -/
def Settled (splitter : Splitter) : Prop :=
  splitter.mode = .between → splitter.field = [] ∧ splitter.fields = []

/-- Only the end of a row leads between two rows. -/
theorem ne_between_of_effect {mode next : Mode} {byte : UInt8}
    (heffect : mode.effect byte = .keep next ∨ mode.effect byte = .enter next) :
    next ≠ .between := by
  cases mode <;> grind [Mode.effect, fieldStartEffect, plainEffect]

theorem Settled.step {splitter : Splitter} (hsettled : splitter.Settled) (byte : UInt8) :
    (splitter.step byte).1.Settled := by
  rw [Splitter.step]
  cases heffect : splitter.mode.effect byte with
  | skip => exact hsettled
  | keep next => exact fun h => absurd h (ne_between_of_effect (.inl heffect))
  | enter next => exact fun h => absurd h (ne_between_of_effect (.inr heffect))
  | endField => exact fun h => Mode.noConfusion h
  | endRow => exact fun _ => ⟨rfl, rfl⟩

theorem Settled.take {splitter : Splitter} (hsettled : splitter.Settled) (bytes : List UInt8) :
    (splitter.take bytes).1.Settled := by
  induction bytes generalizing splitter with
  | nil => exact hsettled
  | cons byte bytes ih => exact ih (hsettled.step byte)

theorem Settled.eq_between {splitter : Splitter} (hsettled : splitter.Settled)
    (hmode : splitter.mode = .between) :
    splitter = between splitter.byte splitter.line splitter.start := by
  obtain ⟨hfield, hfields⟩ := hsettled hmode
  rw [between, ← hmode, ← hfield, ← hfields]

/-- A row end leads between two rows, unless quotes take it in. -/
theorem mode_step_rowEnd (splitter : Splitter) {stop : UInt8} (hstop : endsRow stop = true)
    (hquoted : (splitter.step stop).1.mode ≠ .quoted) : (splitter.step stop).1.mode = .between := by
  -- between two rows the row end is skipped, within quotes it is text, elsewhere it ends the row
  by_cases hbetween : splitter.mode = .between
  · have heffect : splitter.mode.effect stop = .skip := by
      rw [hbetween, Mode.effect, if_pos hstop]
    rw [step, heffect]
    exact hbetween
  · by_cases hinside : splitter.mode = .quoted
    · have hnot : stop ≠ quote := by
        rintro rfl
        exact absurd hstop (by decide)
      have heffect : splitter.mode.effect stop = .keep .quoted := by
        rw [hinside, Mode.effect, if_neg hnot]
      rw [step, heffect] at hquoted
      exact absurd rfl hquoted
    · rw [step, effect_endsRow hinside hbetween hstop]
      rfl

end Splitter

/-- The splitter behind a log; a byte order mark counts as bytes taken. -/
def splitterBehind (bytes : List UInt8) : Splitter :=
  ((Splitter.initial (if byteOrderMark.isPrefixOf bytes then byteOrderMark.length else 0)).take
    (withoutMark bytes)).1

theorem splitterBehind_concat (bytes : List UInt8) {stop : UInt8} (hstop : endsRow stop = true) :
    splitterBehind (bytes ++ [stop]) = ((splitterBehind bytes).step stop).1 := by
  have hmark := mark_prefix_concat_iff bytes hstop
  have htake : ∀ splitter : Splitter, ∀ body,
      (splitter.take (body ++ [stop])).1 = ((splitter.take body).1.step stop).1 := by
    intro splitter body
    rw [Splitter.take_append]
    rfl
  simp only [← List.isPrefixOf_iff_prefix] at hmark
  simp only [splitterBehind, withoutMark, hmark]
  split
  · next hbytes =>
    obtain ⟨rest, rfl⟩ := List.isPrefixOf_iff_prefix.1 hbytes
    rw [List.append_assoc, List.drop_left, List.drop_left, htake]
  · exact htake _ _

theorem exists_splitterBehind_eq {bytes : List UInt8} {stop : UInt8}
    (hlast : stop ∈ bytes.getLast?) (hstop : endsRow stop = true)
    (hquoted : (splitterBehind bytes).mode ≠ .quoted) :
    ∃ byte line start, splitterBehind bytes = .between byte line start := by
  have hsettled : (splitterBehind bytes).Settled :=
    Splitter.Settled.take (fun _ => ⟨rfl, rfl⟩) (withoutMark bytes)
  obtain ⟨front, rfl⟩ := List.getLast?_eq_some_iff.1 hlast
  rw [splitterBehind_concat front hstop] at hquoted hsettled ⊢
  exact ⟨_, _, _, hsettled.eq_between (Splitter.mode_step_rowEnd _ hstop hquoted)⟩

/-! ## What is appended -/

/-- The measurements of a log do not depend on the place where it begins. -/
theorem mapM_judged_rows_ok_iff {bytes : List UInt8} (hmark : ¬byteOrderMark <+: bytes)
    (byte line : Nat) (start : Position) (measurements : List Measurement) :
    ((Splitter.between byte line start).rows bytes).mapM Row.judged = .ok measurements ↔
      readLog (.ofBytes bytes) = .ok measurements := by
  obtain ⟨placed, hlog⟩ := exists_logText bytes
  have hwhole : withoutMark bytes = bytes :=
    if_neg fun hmarked => hmark (List.isPrefixOf_iff_prefix.1 hmarked)
  rw [Splitter.rows_between hlog, mapM_judged_placedRows_ok_iff]
  rw [← hwhole] at hlog
  exact (readLog_ok_iff hlog measurements).symm

theorem splitter_of_arrived {bytes : List UInt8} {progress : Progress}
    (harrived : arrived bytes = .ok progress) : progress.splitter = splitterBehind bytes := by
  rw [arrived, takeBytes_eq, map_ok_iff] at harrived
  obtain ⟨measurements, -, rfl⟩ := harrived
  rfl

/-- What follows a row end is read as a log of its own. -/
theorem readLog_append_ok_iff {first second : List UInt8} {measurements : List Measurement}
    (hlast : ∃ stop ∈ first.getLast?, endsRow stop = true)
    (hquoted : (splitterBehind first).mode ≠ .quoted) (hmark : ¬byteOrderMark <+: second)
    (hfirst : readLog (.ofBytes first) = .ok measurements) (all : List Measurement) :
    readLog (.ofBytes (first ++ second)) = .ok all ↔
      ∃ later, readLog (.ofBytes second) = .ok later ∧ measurements ++ later = all := by
  obtain ⟨stop, hmem, hstop⟩ := hlast
  obtain ⟨byte, line, start, hbehind⟩ := exists_splitterBehind_eq hmem hstop hquoted
  rw [readLog_ofBytes_eq, bind_ok_iff] at hfirst
  obtain ⟨progress, harrived, hfinish⟩ := hfirst
  have hsplitter : progress.splitter = .between byte line start := by
    rw [splitter_of_arrived harrived, hbehind]
  have hmeasurements : progress.measurements.toList = measurements := by
    rw [Progress.finish, hsplitter] at hfinish
    exact Except.ok.inj hfinish
  have hend : ∃ stop ∈ first, endsRow stop = true := ⟨stop, List.mem_of_getLast? hmem, hstop⟩
  have happend : readLog (.ofBytes (first ++ second)) =
      (((Splitter.between byte line start).rows second).mapM Row.judged).map
        (measurements ++ ·) := by
    rw [readLog_ofBytes_eq, arrived_append hend, harrived, ← hsplitter, ← hmeasurements,
      ← takeBytes_finish]
    rfl
  rw [happend, map_ok_iff]
  simp only [mapM_judged_rows_ok_iff hmark]

/-- Behind a log that is read and whose last byte ends a row, further bytes are read exactly if
they are read as a log of their own, and their measurements follow those of the log. -/
theorem readLog_append {first second : List UInt8} {measurements : List Measurement}
    (hlast : ∃ stop ∈ first.getLast?, endsRow stop = true)
    (hquoted : (splitterBehind first).mode ≠ .quoted) (hmark : ¬byteOrderMark <+: second)
    (hfirst : readLog (.ofBytes first) = .ok measurements) :
    ((∃ all, readLog (.ofBytes (first ++ second)) = .ok all) ↔
      ∃ later, readLog (.ofBytes second) = .ok later) ∧
    ∀ later, readLog (.ofBytes second) = .ok later →
      readLog (.ofBytes (first ++ second)) = .ok (measurements ++ later) := by
  have hall := readLog_append_ok_iff hlast hquoted hmark hfirst
  refine ⟨⟨?_, ?_⟩, fun later hlater => (hall _).2 ⟨later, hlater, rfl⟩⟩
  · rintro ⟨all, hread⟩
    obtain ⟨later, hlater, -⟩ := (hall all).1 hread
    exact ⟨later, hlater⟩
  · rintro ⟨later, hlater⟩
    exact ⟨measurements ++ later, (hall _).2 ⟨later, hlater, rfl⟩⟩

/-- A line end cut in two behind a byte order mark and a quoted tag: `0,"a",1` and `1,b,2`. -/
theorem readLog_append_cut_line_end :
    ∃ measurements later,
      readLog (.ofBytes (byteOrderMark ++ [48, 44, 34, 97, 34, 44, 49, 13])) = .ok measurements ∧
      readLog (.ofBytes [10, 49, 44, 98, 44, 50]) = .ok later ∧
      readLog (.ofBytes (byteOrderMark ++ [48, 44, 34, 97, 34, 44, 49, 13] ++
        [10, 49, 44, 98, 44, 50])) = .ok (measurements ++ later) := by
  have hreadFirst :
      (readLog (.ofBytes (byteOrderMark ++ [48, 44, 34, 97, 34, 44, 49, 13]))).isOk = true := by
    decide +kernel
  have hreadSecond : (readLog (.ofBytes [10, 49, 44, 98, 44, 50])).isOk = true := by decide +kernel
  obtain ⟨measurements, hfirst⟩ := exists_of_isOk hreadFirst
  obtain ⟨later, hsecond⟩ := exists_of_isOk hreadSecond
  have hlast : ∃ stop ∈ (byteOrderMark ++ [48, 44, 34, 97, 34, 44, 49, 13]).getLast?,
      endsRow stop = true := ⟨13, rfl, rfl⟩
  exact ⟨measurements, later, hfirst, hsecond,
    (readLog_append hlast (by decide +kernel) (by decide) hfirst).2 later hsecond⟩

end TimingReport.TimingLog
