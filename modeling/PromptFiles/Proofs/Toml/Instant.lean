import PromptFiles.Proofs.Calendar.Stamp
import PromptFiles.Proofs.Number.ReadBack
import PromptFiles.Toml.Datetime

/-!
# Dates and times in a document

A day in digits and a time stamp are read as values with the date that their numbers say, whatever
the time and the offset: `ofChars?_dayText` and `ofChars?_stampText`.
-/

namespace PromptFiles.Toml

open Calendar (Clock Zone dayText dayText_append stampText separators exists_padded_pair)
open Number (isDigit ofDigits padded)

def Day.text (d : Day) : List Char :=
  dayText d.date.year.toNat d.date.month d.date.day

theorem Day.year_lt (d : Day) : d.date.year.toNat < 10 ^ 4 := by
  have := d.year_le
  omega

theorem Day.ofParts?_self (d : Day) :
    Day.ofParts? d.date.year.toNat d.date.month d.date.day = some d := by
  have hyear : (d.date.year.toNat : Int) = d.date.year := Int.toNat_of_nonneg d.year_nonneg
  rw [Day.ofParts?, hyear, Calendar.ofParts?_self]
  exact dif_pos ⟨d.year_nonneg, d.year_le⟩

namespace Datetime

theorem two?_padded (h : n < 100) (rest : List Char) :
    two? (padded 2 n ++ rest) = some (n, rest) := by
  obtain ⟨a, b, hab, ha, hb, hn⟩ := exists_padded_pair h
  rw [hab]
  simp [two?, ha, hb, hn]

theorem exists_padded_four (h : n < 10 ^ 4) :
    ∃ a b c d, padded 4 n = [a, b, c, d] ∧ ∀ x ∈ [a, b, c, d], isDigit x = true := by
  have hlength : (padded 4 n).length = 4 := Number.length_padded h (by decide)
  match hp : padded 4 n, hlength with
  | [a, b, c, d], _ =>
    exact ⟨a, b, c, d, rfl, fun x hx => Number.isDigit_of_mem_padded (hp ▸ hx)⟩

theorem four?_padded (h : n < 10 ^ 4) (rest : List Char) :
    four? (padded 4 n ++ rest) = some (n, rest) := by
  obtain ⟨a, b, c, d, habcd, hdigit⟩ := exists_padded_four h
  have hall : [a, b, c, d].all isDigit = true := List.all_eq_true.mpr hdigit
  rw [habcd]
  simp only [List.cons_append, List.nil_append, four?, hall, if_true]
  rw [← habcd, Number.ofDigits_padded]

theorem char?_self (c : Char) (cs : List Char) : char? c (c :: cs) = some cs :=
  if_pos rfl

theorem day?_text (d : Day) (rest : List Char) : day? (d.text ++ rest) = some (d, rest) := by
  have hmonth := d.date.month_le
  have hday := d.date.day_le.trans (Calendar.daysInMonth_le d.date.year d.date.month)
  rw [day?, Day.text, dayText_append, four?_padded d.year_lt]
  simp only [Option.bind_eq_bind, Option.bind_some, char?_self,
    two?_padded (show d.date.month < 100 by omega), two?_padded (show d.date.day < 100 by omega),
    Day.ofParts?_self]
  rfl

theorem nanoseconds_lt {run : List Char} (h : ∀ c ∈ run, isDigit c = true) :
    nanoseconds run < Nat.pow 10 9 := by
  have hdigits : ∀ c ∈ (run ++ List.replicate 9 '0').take 9, isDigit c = true := by
    intro c hc
    rcases List.mem_append.mp (List.mem_of_mem_take hc) with hc | hc
    · exact h c hc
    · rw [List.eq_of_mem_replicate hc]
      decide
  have hlength : ((run ++ List.replicate 9 '0').take 9).length = 9 := by simp
  have hlt := Number.ofDigits_lt hdigits
  rwa [hlength] at hlt

theorem seconds?_text (clock : Clock) (zone : Zone) :
    seconds? (':' :: (padded 2 clock.second ++ (clock.fractionText ++ zone.text))) =
      some (clock.second, nanoseconds clock.fraction, zone.text) := by
  obtain ⟨⟨c, cs, hzone, hc, hpoint⟩, -⟩ := zone.text_ends
  have hsecond := clock.second_le
  rw [hzone, Clock.fractionText]
  simp only [seconds?, two?_padded (show clock.second < 100 by omega), Option.bind_eq_bind,
    Option.bind_some]
  by_cases hfraction : clock.fraction = []
  · have hzero : nanoseconds [] = 0 := by decide
    simp [hfraction, hpoint, hzero]
  · simp [hfraction, List.takeWhile_append_of_pos clock.isDigit_fraction,
      List.dropWhile_append_of_pos clock.isDigit_fraction, hc]

/-- The time of a clock, with its fraction cut to nanoseconds. -/
def timeOf (clock : Clock) : Time where
  hour := clock.hour
  minute := clock.minute
  second := clock.second
  nanosecond := nanoseconds clock.fraction
  hour_le := clock.hour_le
  minute_le := clock.minute_le
  second_le := clock.second_le.trans (by decide)
  nanosecond_lt := nanoseconds_lt clock.isDigit_fraction

theorem time?_text (clock : Clock) (zone : Zone) :
    time? (clock.text ++ zone.text) = some (timeOf clock, zone.text) := by
  have hhour := clock.hour_le
  have hminute := clock.minute_le
  have hparts : Time.ofParts? clock.hour clock.minute clock.second (nanoseconds clock.fraction) =
      some (timeOf clock) :=
    dif_pos ⟨clock.hour_le, clock.minute_le, (timeOf clock).second_le, (timeOf clock).nanosecond_lt⟩
  rw [time?, clock.text_append]
  simp only [Option.bind_eq_bind, Option.bind_some, two?_padded (show clock.hour < 100 by omega),
    char?_self, two?_padded (show clock.minute < 100 by omega), seconds?_text, hparts]
  rfl

theorem exists_offset? (zone : Zone) : ∃ o, offset? zone.text = some o := by
  cases zone with
  | utc => exact ⟨.utc, rfl⟩
  | offset negative hour minute hhour hminute =>
    obtain ⟨a, b, hab, ha, hb, hh⟩ := exists_padded_pair (n := hour) (by omega)
    obtain ⟨c, d, hcd, hc, hd, hm⟩ := exists_padded_pair (n := minute) (by omega)
    have hbound : -1440 < (if negative then (-1 : Int) else 1) * (hour * 60 + minute) ∧
        (if negative then (-1 : Int) else 1) * (hour * 60 + minute) < 1440 := by
      split <;> omega
    have hparts : Offset.ofParts? negative hour minute = some (.minutes _ hbound) := dif_pos hbound
    refine ⟨_, Eq.trans ?_ hparts⟩
    rw [Zone.text, hab, hcd]
    cases negative <;> simp [offset?, two?, char?, ha, hb, hc, hd, hh, hm, hhour, hminute]

theorem ofChars?_dayText (d : Day) : ofChars? d.text = some (.date d) := by
  have hday := day?_text d []
  rw [List.append_nil] at hday
  rw [ofChars?, hday]
  rfl

theorem ofChars?_stampText (d : Day) (hseparator : separator ∈ separators) (clock : Clock)
    (zone : Zone) : ∃ o, ofChars? (stampText d.text separator clock zone) =
      some (.stamp d (timeOf clock) (some o)) := by
  obtain ⟨o, ho⟩ := exists_offset? zone
  obtain ⟨⟨c, cs, hzone, -⟩, -⟩ := zone.text_ends
  have hne : zone.text ≠ [] := by simp [hzone]
  refine ⟨o, ?_⟩
  rw [ofChars?, stampText, day?_text]
  simp only [separators, List.mem_cons, List.not_mem_nil, or_false] at hseparator
  rcases hseparator with rfl | rfl | rfl <;> simp [afterDay?, time?_text, hne, ho]

end Datetime

end PromptFiles.Toml
