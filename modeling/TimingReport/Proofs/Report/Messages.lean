import TimingReport.Proofs.Number.Texts
import TimingReport.Proofs.Text.Quoted
import TimingReport.Report.Failure

/-!
# What the message of a duplicate tells

Between its own words the message has an index, a quoted tag and two times.  The index ends at a
comma, the tag at the first bare quote and a time at a blank, so no tag passes for the words
behind it, and the message tells which cell is a duplicate and what its two times are.
-/

namespace TimingReport.Report

open TimingReport.Json (integerText eq_of_append_eq)
open TimingReport.Number (Layout mem_integerText integerText_injective toList_toString
  ne_blank_of_mem_chars chars_injective)
open TimingReport.Text (quotedChars eq_of_quotedChars_append)

theorem ne_comma_of_mem {z : Int} : ∀ c ∈ integerText z, decide (c ≠ ',') = true := by
  intro c hc
  rw [decide_eq_true_iff]
  rintro rfl
  rcases mem_integerText hc with hminus | hdigit
  · cases hminus
  · cases hdigit

/-- The message piece by piece. -/
theorem toList_clashMessage (clash : Clash) :
    (clashMessage clash).toList = "duplicate entry for index ".toList ++
      (integerText clash.index ++ ',' :: (" tag ".toList ++
        (quotedChars clash.tag.toList ++ (" (values ".toList ++
          (Layout.plain.chars clash.first ++ ' ' :: ("and ".toList ++
            (Layout.plain.chars clash.second ++ [')']))))))) := by
  have hpieces : clashMessage clash = "duplicate entry for index " ++ toString clash.index ++
      ", tag " ++ Text.quoted clash.tag ++ " " ++ ("(values " ++ Layout.plain.text clash.first ++
        " and " ++ Layout.plain.text clash.second ++ ")") := rfl
  rw [hpieces]
  simp only [String.toList_append, toList_toString, Text.quoted, Layout.text,
    String.toList_ofList, List.append_assoc]
  rfl

/-- Two duplicates have the same message only if they are the same, whatever stands in their
tags: not even one that has the rest of a message in it is mistaken for another one. -/
theorem message_duplicate_eq_iff (left right : Clash) :
    (Failure.duplicate left).message = (Failure.duplicate right).message ↔
      left.index = right.index ∧ left.tag = right.tag ∧
        left.first = right.first ∧ left.second = right.second := by
  constructor
  · intro heq
    have hchars : (clashMessage left).toList = (clashMessage right).toList :=
      congrArg String.toList heq
    rw [toList_clashMessage, toList_clashMessage] at hchars
    -- Each cut leaves what follows it, so the pieces are compared from the left.
    obtain ⟨hindex, hbehind⟩ := eq_of_append_eq ne_comma_of_mem ne_comma_of_mem (by simp)
      (by simp) (List.append_cancel_left hchars)
    obtain ⟨htag, htimes⟩ :=
      eq_of_quotedChars_append (List.append_cancel_left (List.cons.inj hbehind).2)
    obtain ⟨hfirst, hlast⟩ := eq_of_append_eq (ne_blank_of_mem_chars Layout.plain left.first)
      (ne_blank_of_mem_chars Layout.plain right.first) (by simp) (by simp)
      (List.append_cancel_left htimes)
    have hsecond := List.append_cancel_right (List.append_cancel_left (List.cons.inj hlast).2)
    exact ⟨integerText_injective hindex, String.toList_inj.1 htag,
      chars_injective Layout.plain hfirst, chars_injective Layout.plain hsecond⟩
  · obtain ⟨index, tag, first, second⟩ := left
    obtain ⟨index', tag', first', second'⟩ := right
    rintro ⟨rfl, rfl, rfl, rfl⟩
    rfl

end TimingReport.Report
