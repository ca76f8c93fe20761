import TimingReport.Proofs.TimingLog.Arrival
import TimingReport.Proofs.TimingLog.FirstByte

/-!
# Reads of any size

The splitter takes one byte at a time and carries the open row from one read to the next, so it
makes no difference where the reads are cut: within a line end, a doubled quote, a character or a
number.  The one exception is a byte order mark that the first read does not bring together with
a byte behind it.  Alone in its read, the mark is taken for the end of the log; cut in two, it is
taken for the beginning of the first index.
-/

namespace TimingReport.TimingLog

open TimingReport.Fallible
open TimingReport.Number
open TimingReport.Text

/-- The log begins with a byte order mark, and the first of several reads brings no more of the
log than the mark. -/
def CutsMark (reads : List (List UInt8)) : Prop :=
  byteOrderMark <+: reads.flatten ∧
    ∃ first second rest, reads = first :: second :: rest ∧ first.length ≤ byteOrderMark.length

theorem brings_of_not_cutsMark {reads : List (List UInt8)} (hnonempty : [] ∉ reads)
    (hcut : ¬CutsMark reads) (hmark : reads ≠ [byteOrderMark]) :
    Source.Brings ⟨reads, none⟩ reads.flatten := by
  refine ⟨rfl, hnonempty, fun hmarked => ?_⟩
  cases reads with
  | nil => exact absurd (List.prefix_nil.1 hmarked) (by decide)
  | cons first rest =>
    rw [List.flatten_cons] at hmarked
    -- a first read shorter than the mark would be cut within it
    have hlength : byteOrderMark.length ≤ first.length := by
      cases rest with
      | nil => simpa using hmarked.length_le
      | cons second rest =>
        by_contra hshort
        exact hcut ⟨hmarked, first, second, rest, rfl, (Nat.lt_of_not_le hshort).le⟩
    have hfirst : byteOrderMark <+: first :=
      List.prefix_of_prefix_length_le hmarked (List.prefix_append first rest.flatten) hlength
    obtain ⟨behind, rfl⟩ := hfirst
    cases behind with
    | cons byte behind => exact ⟨byte, behind, rest, rfl⟩
    | nil =>
      rw [List.append_nil] at hcut hmark hmarked
      cases rest with
      | nil => exact absurd rfl hmark
      | cons second rest => exact absurd ⟨hmarked, _, second, rest, rfl, le_rfl⟩ hcut

theorem readLog_of_not_cutsMark {reads : List (List UInt8)} (hnonempty : [] ∉ reads)
    (hcut : ¬CutsMark reads) : readLog ⟨reads, none⟩ = readLog (.ofBytes reads.flatten) := by
  by_cases hmark : reads = [byteOrderMark]
  · rw [hmark]
    rfl
  · rw [(brings_of_not_cutsMark hnonempty hcut hmark).readLog_eq, readLog_ofBytes_eq]
    rfl

/-! ## A mark that is cut off -/

/-- Behind a read that is nothing but the mark, no more is read. -/
theorem readLog_mark_first (failure : Option String) (rest : List (List UInt8)) :
    readLog ⟨byteOrderMark :: rest, failure⟩ = .ok [] := rfl

/-- The characters that begin with the first byte of the mark lie behind all blanks. -/
theorem startsNoIndex_mark : StartsNoIndex 0xef := by
  intro c rest hencoded
  have hcode : 0xf000 ≤ c.toNat := by
    have hval : c.val.toNat = c.toNat := rfl
    have hbyte : (String.utf8EncodeChar c).head?.map UInt8.toNat = some 0xef := by
      rw [hencoded]
      rfl
    simp only [String.utf8EncodeChar, hval] at hbyte
    split_ifs at hbyte <;>
      simp only [List.head?_cons, Option.map_some, Option.some.injEq,
        UInt8.toNat_ofNat'] at hbyte <;>
      omega
  have hranges : ∀ range ∈ blankRanges, range.2 < 0xf000 := by decide
  refine ⟨?_, ?_, ?_, ?_⟩
  · rw [isBlank, inRanges, List.any_eq_false]
    intro range hrange hcontains
    have hbelow := hranges range hrange
    simp only [CodeRange.contains, Bool.and_eq_true, decide_eq_true_eq] at hcontains
    omega
  · rintro rfl
    exact absurd hcode (by decide)
  · rintro rfl
    exact absurd hcode (by decide)
  · cases hdigit : digitValue? 10 c with
    | none => rfl
    | some digit =>
      obtain ⟨hdecimal, -⟩ := (digitValue?_ten_iff c digit).1 hdigit
      simp only [isDecimalDigit, Bool.and_eq_true, decide_eq_true_eq] at hdecimal
      have hnine : c.toNat ≤ '9'.toNat := hdecimal.2
      exact absurd (hcode.trans hnine) (by decide)

theorem beginsField_mark : BeginsField 0xef := ⟨by decide, by decide, by decide⟩

/-- A mark that is not whole in the first read is a part of the first index. -/
theorem exists_fault_of_mark_cut {first : List UInt8} {rest : List (List UInt8)}
    (hnonempty : [] ∉ first :: rest) (hmarked : byteOrderMark <+: (first :: rest).flatten)
    (hcut : ¬byteOrderMark <+: first) :
    ∃ fault, readLog ⟨first :: rest, none⟩ = .error (.badRow ⟨0, 1, 0⟩ fault) := by
  obtain ⟨behind, hbehind⟩ := hmarked
  have hunmarked : ¬byteOrderMark.isPrefixOf first = true := by
    rwa [List.isPrefixOf_iff_prefix]
  have hread := calc
    readLog ⟨first :: rest, none⟩
      = ((Progress.initial 0).takeBytes (first :: rest).flatten).bind Progress.finish := by
        simp only [readLog, if_neg hunmarked, takeReads_eq _ _ hnonempty]
        rfl
    _ = (((Splitter.initial 0).rows (first :: rest).flatten).mapM Row.judged).map ([] ++ ·) :=
        takeBytes_finish _ _
  obtain ⟨fault, hfault⟩ := exists_fault_of_first_byte beginsField_mark startsNoIndex_mark 0 1
    ⟨0, 1, 0⟩ ([0xbb, 0xbf] ++ behind)
  rw [Splitter.initial_eq, ← hbehind] at hread
  exact ⟨fault, hread.trans (congrArg _ hfault)⟩

/-- A log may be cut into reads anywhere, but for a byte order mark, which is lost or taken for
text if the first read does not bring it together with a byte behind it. -/
theorem readLog_reads {reads : List (List UInt8)} (hnonempty : [] ∉ reads) :
    (¬CutsMark reads → readLog ⟨reads, none⟩ = readLog (.ofBytes reads.flatten)) ∧
      (CutsMark reads →
        (reads.head? = some byteOrderMark → readLog ⟨reads, none⟩ = .ok []) ∧
        (reads.head? ≠ some byteOrderMark →
          ∃ fault, readLog ⟨reads, none⟩ = .error (.badRow ⟨0, 1, 0⟩ fault))) := by
  refine ⟨readLog_of_not_cutsMark hnonempty, ?_⟩
  rintro ⟨hmarked, first, second, rest, rfl, hshort⟩
  refine ⟨fun hhead => ?_, fun hhead => ?_⟩
  · obtain rfl := Option.some.inj hhead
    exact readLog_mark_first none _
  · refine exists_fault_of_mark_cut hnonempty hmarked fun hwhole => hhead ?_
    rw [List.head?_cons, hwhole.eq_of_length_le hshort]

/-- The rows `0,"""a",1` and `1,é,2` behind a mark, cut within a doubled quote, a line end and a
character, and cut behind the mark and within it. -/
theorem readLog_reads_cut_everywhere :
    (readLog ⟨[[0xef, 0xbb, 0xbf, 48], [44, 34, 34], [34, 97, 34, 44, 49, 13], [10, 49, 44, 0xc3],
        [0xa9, 44, 50]], none⟩ =
      readLog (.ofBytes [0xef, 0xbb, 0xbf, 48, 44, 34, 34, 34, 97, 34, 44, 49, 13,
        10, 49, 44, 0xc3, 0xa9, 44, 50]) ∧
      (readLog (.ofBytes [0xef, 0xbb, 0xbf, 48, 44, 34, 34, 34, 97, 34, 44, 49, 13,
        10, 49, 44, 0xc3, 0xa9, 44, 50])).isOk = true) ∧
    readLog ⟨[byteOrderMark, [48, 44, 97, 44, 49]], none⟩ = .ok [] ∧
    ∃ fault, readLog ⟨[[0xef, 0xbb], [0xbf, 48, 44, 97, 44, 49]], none⟩ =
      .error (.badRow ⟨0, 1, 0⟩ fault) := by
  refine ⟨⟨(readLog_reads (by simp)).1 ?_, by decide +kernel⟩,
    ((readLog_reads (by simp [byteOrderMark])).2 ?_).1 rfl,
    ((readLog_reads (by simp)).2 ?_).2 (by decide)⟩
  · rintro ⟨-, first, second, rest, hreads, hshort⟩
    obtain rfl := (List.cons.inj hreads).1
    exact absurd hshort (by decide)
  · exact ⟨List.prefix_append _ _, _, _, [], rfl, le_rfl⟩
  · exact ⟨⟨[48, 44, 97, 44, 49], rfl⟩, _, _, [], rfl, by decide⟩

end TimingReport.TimingLog
