import PromptFiles.Proofs.Calendar.DateText

/-!
# Time stamps

A day in digits is read as the date with these numbers, if the calendar has it, and so is a time
stamp of that day: neither the time nor the offset moves the date. What begins with the numbers of
no date is no date in either shape, `dateOfText?_eq_none`.
-/

namespace PromptFiles.Calendar

open Number (isDigit ofDigits padded)
open Text (isBlank trim trimEnd trimStart)

/-- Year, month and day in digits, whether or not the calendar has such a day. -/
def dayText (year month day : Nat) : List Char :=
  padded 4 year ++ '-' :: padded 2 month ++ '-' :: padded 2 day

structure Clock where
  hour : Nat
  minute : Nat
  second : Nat
  fraction : List Char
  hour_le : hour ≤ 23
  minute_le : minute ≤ 59
  second_le : second ≤ 59
  isDigit_fraction : ∀ c ∈ fraction, isDigit c = true

def Clock.fractionText (clock : Clock) : List Char :=
  if clock.fraction = [] then [] else '.' :: clock.fraction

def Clock.text (clock : Clock) : List Char :=
  padded 2 clock.hour ++ ':' :: padded 2 clock.minute ++ ':' :: padded 2 clock.second ++
    clock.fractionText

inductive Zone where
  | utc
  | offset (negative : Bool) (hour minute : Nat) (hour_le : hour ≤ 23) (minute_le : minute ≤ 59)

def Zone.text : Zone → List Char
  | utc => ['Z']
  | offset negative hour minute _ _ =>
    (if negative then '-' else '+') :: padded 2 hour ++ ':' :: padded 2 minute

def separators : List Char :=
  ['T', 't', ' ']

def stampText (day : List Char) (separator : Char) (clock : Clock) (zone : Zone) : List Char :=
  day ++ separator :: (clock.text ++ zone.text)

inductive Shape where
  | plain
  | stamp (separator : Char) (clock : Clock) (zone : Zone) (mem : separator ∈ separators)

def Shape.text (day : List Char) : Shape → List Char
  | plain => day
  | stamp separator clock zone _ => stampText day separator clock zone

-- ---------------------------------------------------------------------------
-- Digits
-- ---------------------------------------------------------------------------

theorem exists_padded_pair (h : n < 100) : ∃ a b, padded 2 n = [a, b] ∧ isDigit a = true ∧
    isDigit b = true ∧ ofDigits [a, b] = n := by
  have hlength : (padded 2 n).length = 2 := Number.length_padded h (by decide)
  obtain ⟨a, b, hab⟩ := List.length_eq_two.mp hlength
  have hdigit (c : Char) (hc : c ∈ [a, b]) : isDigit c = true :=
    Number.isDigit_of_mem_padded (hab ▸ hc)
  exact ⟨a, b, hab, hdigit a (by simp), hdigit b (by simp), hab ▸ Number.ofDigits_padded 2 n⟩

theorem takePair?_padded (h : n < 100) (limit : Nat) (rest : List Char) :
    takePair? limit (padded 2 n ++ rest) = if n ≤ limit then some (n, rest) else none := by
  obtain ⟨a, b, hab, ha, hb, hn⟩ := exists_padded_pair h
  rw [hab]
  simp [takePair?, ha, hb, hn]

theorem eq_of_takePair? (h : n < 100) (hr : takePair? limit (padded 2 n ++ rest) = some r) :
    r = (n, rest) := by
  rw [takePair?_padded h] at hr
  split at hr <;> cases hr
  rfl

theorem takeFour?_padded (h : n < 10 ^ 4) (rest : List Char) :
    takeFour? (padded 4 n ++ rest) = some (n, rest) := by
  have hlength : (padded 4 n).length = 4 := Number.length_padded h (by decide)
  have hall : (padded 4 n).all isDigit = true :=
    List.all_eq_true.mpr fun c hc => Number.isDigit_of_mem_padded hc
  rw [takeFour?, List.take_left' hlength, List.drop_left' hlength]
  simp [hlength, hall, Number.ofDigits_padded]

theorem takeYear?_padded (h : year < 10 ^ 4) (rest : List Char) :
    takeYear? (padded 4 year ++ '-' :: rest) = some ((year : Int), '-' :: rest) := by
  have hyear : Date.yearText (year : Int) = padded 4 year := by
    rw [Date.yearText, if_pos (by omega), Int.toNat_natCast]
  rw [← hyear, takeYear?_yearText]

theorem takeChar?_self (c : Char) (cs : List Char) : takeChar? c (c :: cs) = some cs :=
  if_pos rfl

-- ---------------------------------------------------------------------------
-- Days
-- ---------------------------------------------------------------------------

theorem dayText_append (year month day : Nat) (rest : List Char) :
    dayText year month day ++ rest =
      padded 4 year ++ '-' :: (padded 2 month ++ '-' :: (padded 2 day ++ rest)) := by
  simp [dayText]

theorem exists_dayText (year month day : Nat) :
    ∃ c cs, dayText year month day = c :: cs ∧ isDigit c = true := by
  obtain ⟨c, cs, hcs⟩ := List.exists_cons_of_ne_nil (Number.padded_ne_nil 4 year)
  have hc : c ∈ padded 4 year := hcs ▸ List.mem_cons_self
  rw [dayText, hcs]
  exact ⟨c, _, rfl, Number.isDigit_of_mem_padded hc⟩

theorem trimStart_dayText (year month day : Nat) (rest : List Char) :
    trimStart (dayText year month day ++ rest) = dayText year month day ++ rest := by
  obtain ⟨c, cs, hcs, hc⟩ := exists_dayText year month day
  exact Text.trimStart_eq_self (by simpa [hcs] using isBlank_of_isDigit hc)

section
variable {year month day : Nat} (hyear : year < 10 ^ 4) (hmonth : month < 100) (hday : day < 100)
include hyear hmonth hday

theorem plainDate?_append (hrest : ∀ c ∈ rest.head?, isDigit c = false) :
    plainDate? (dayText year month day ++ rest) =
      if rest = [] then Date.ofParts? year month day else none := by
  have hdash (cs : List Char) : ∀ c ∈ ('-' :: cs).head?, isDigit c = false := by simp; decide
  rw [plainDate?, trimStart_dayText, dayText_append, takeYear?_padded hyear]
  simp [takeChar?_self, takeDigits?_pair hmonth (hdash _), takeDigits?_pair hday hrest]

theorem stampDate?_eq_some (h : stampDate? (dayText year month day ++ rest) = some d) :
    Date.ofParts? year month day = some d := by
  rw [stampDate?, dayText_append, takeFour?_padded hyear] at h
  simp only [Option.bind_eq_bind, Option.bind_some, takeChar?_self, Option.bind_eq_some_iff] at h
  obtain ⟨_, hm, _, hdash, _, hd, h⟩ := h
  obtain rfl := eq_of_takePair? hmonth hm
  cases hdash
  obtain rfl := eq_of_takePair? hday hd
  -- Whatever follows the day, the date is made of the numbers before it.
  obtain ⟨_, -, _, -, _, -, _, -, _, -, _, -, _, -, h⟩ := h
  split at h
  · exact h
  · cases h

end

theorem getLast?_dayText (year month day : Nat) :
    ∃ c, (dayText year month day).getLast? = some c ∧ isDigit c = true := by
  have hne := Number.padded_ne_nil 2 day
  have hmem := List.getLast_mem hne
  refine ⟨(padded 2 day).getLast hne, ?_, Number.isDigit_of_mem_padded hmem⟩
  rw [dayText, List.getLast?_append, List.getLast?_cons, List.getLast?_eq_some_getLast hne]
  rfl

-- ---------------------------------------------------------------------------
-- Times and offsets
-- ---------------------------------------------------------------------------

theorem Zone.text_ends (zone : Zone) :
    (∃ c cs, zone.text = c :: cs ∧ isDigit c = false ∧ c ≠ '.') ∧
      ∃ c, zone.text.getLast? = some c ∧ isBlank c = false := by
  cases zone with
  | utc => exact ⟨⟨'Z', [], rfl, by decide, by decide⟩, 'Z', rfl, by decide⟩
  | offset negative hour minute hhour hminute =>
    refine ⟨⟨_, _, rfl, ?_, ?_⟩, ?_⟩
    · cases negative <;> decide
    · cases negative <;> decide
    · have hne := Number.padded_ne_nil 2 minute
      have hmem := List.getLast_mem hne
      refine ⟨_, ?_, isBlank_of_isDigit (Number.isDigit_of_mem_padded hmem)⟩
      rw [Zone.text, List.getLast?_append, List.getLast?_cons, List.getLast?_eq_some_getLast hne]
      rfl

theorem isOffset_text (zone : Zone) : isOffset zone.text = true := by
  cases zone with
  | utc => rfl
  | offset negative hour minute hhour hminute =>
    obtain ⟨a, b, hab, ha, hb, hn⟩ := exists_padded_pair (n := hour) (by omega)
    obtain ⟨c, d, hcd, hc, hd, hm⟩ := exists_padded_pair (n := minute) (by omega)
    rw [Zone.text, hab, hcd]
    cases negative <;>
      simp [isOffset, isMinus, takePair?, takeChar?, ha, hb, hc, hd, hn, hm, hhour, hminute]

theorem skipFraction?_text (clock : Clock) (zone : Zone) :
    skipFraction? (clock.fractionText ++ zone.text) = some zone.text := by
  obtain ⟨⟨c, cs, hzone, hc, hpoint⟩, -⟩ := zone.text_ends
  rw [hzone, Clock.fractionText]
  split
  · rw [List.nil_append, skipFraction?]
    rintro _ ⟨rfl, -⟩
    exact hpoint rfl
  · rename_i hne
    rw [List.cons_append, skipFraction?, List.takeWhile_append_of_pos clock.isDigit_fraction,
      List.dropWhile_append_of_pos clock.isDigit_fraction,
      List.takeWhile_cons_of_neg (by simp [hc]), List.dropWhile_cons_of_neg (by simp [hc]),
      List.append_nil, if_neg hne]

theorem takeSeparator?_self (h : separator ∈ separators) (cs : List Char) :
    (takeChar? 'T' (separator :: cs) <|> takeChar? 't' (separator :: cs) <|>
      takeChar? ' ' (separator :: cs)) = some cs := by
  simp only [separators, List.mem_cons, List.not_mem_nil, or_false] at h
  rcases h with rfl | rfl | rfl <;> rfl

theorem head?_separator (h : separator ∈ separators) (cs : List Char) :
    ∀ c ∈ (separator :: cs).head?, isDigit c = false := by
  simp only [separators, List.mem_cons, List.not_mem_nil, or_false] at h
  rintro c ⟨⟩
  rcases h with rfl | rfl | rfl <;> decide

theorem Clock.text_append (clock : Clock) (rest : List Char) : clock.text ++ rest =
    padded 2 clock.hour ++ ':' :: (padded 2 clock.minute ++ ':' ::
      (padded 2 clock.second ++ (clock.fractionText ++ rest))) := by
  simp [Clock.text]

/-- The time and the offset are read, and do not count. -/
theorem stampDate?_stampText {year : Nat} (d : Date) (hyear : d.year = year) (hlt : year < 10 ^ 4)
    (hseparator : separator ∈ separators) (clock : Clock) (zone : Zone) :
    stampDate? (stampText (dayText year d.month d.day) separator clock zone) = some d := by
  have hmonth := d.month_le
  have hday := d.day_le.trans (daysInMonth_le d.year d.month)
  obtain ⟨hhour, hminute, hsecond⟩ := And.intro clock.hour_le (And.intro clock.minute_le
    clock.second_le)
  rw [stampDate?, stampText, dayText_append, takeFour?_padded hlt]
  simp only [Option.bind_eq_bind, Option.bind_some, takeChar?_self,
    takePair?_padded (show d.month < 100 by omega), if_pos hmonth,
    takePair?_padded (show d.day < 100 by omega), if_pos hday, takeSeparator?_self hseparator,
    clock.text_append, takePair?_padded (show clock.hour < 100 by omega), if_pos hhour,
    takePair?_padded (show clock.minute < 100 by omega), if_pos hminute,
    takePair?_padded (show clock.second < 100 by omega), if_pos (show clock.second ≤ 60 by omega),
    skipFraction?_text, isOffset_text]
  rw [← hyear, ofParts?_self]
  rfl

-- ---------------------------------------------------------------------------
-- Texts with white space around them
-- ---------------------------------------------------------------------------

section
variable {before after : List Char} (hbefore : ∀ c ∈ before, isBlank c = true)
  (hafter : ∀ c ∈ after, isBlank c = true)
include hbefore hafter

theorem trim_dayText_append (year month day : Nat) (rest : List Char) :
    trim (before ++ (dayText year month day ++ rest) ++ after) =
      dayText year month day ++ trimEnd rest := by
  obtain ⟨es, hes, hblank⟩ := Text.exists_trimEnd_append rest
  have hend : trimEnd (dayText year month day ++ trimEnd rest) =
      dayText year month day ++ trimEnd rest := by
    refine Text.trimEnd_eq_self fun c hc => ?_
    obtain ⟨digit, hdigit, hisDigit⟩ := getLast?_dayText year month day
    rw [List.getLast?_append, hdigit] at hc
    cases hlast : (trimEnd rest).getLast? with
    | none =>
      rw [hlast] at hc
      cases hc
      exact isBlank_of_isDigit hisDigit
    | some last =>
      rw [hlast] at hc
      cases hc
      exact Text.getLast?_trimEnd rest _ hlast
  rw [Text.trim_append_blank hafter, Text.trim_blank_append hbefore, trim, trimStart_dayText]
  nth_rewrite 1 [hes]
  rw [← List.append_assoc, Text.trimEnd_append_blank hblank, hend]

theorem dateOfText?_dayText {year : Nat} (d : Date) (hyear : d.year = year) (hlt : year < 10 ^ 4) :
    dateOfText? (String.ofList (before ++ dayText year d.month d.day ++ after)) = some d := by
  have hmonth := d.month_le
  have hday := d.day_le.trans (daysInMonth_le d.year d.month)
  have htrim := trim_dayText_append hbefore hafter year d.month d.day []
  rw [List.append_nil] at htrim
  rw [dateOfText?, String.toList_ofList, htrim, show trimEnd [] = [] from rfl,
    plainDate?_append hlt (by omega) (by omega) (by simp), if_pos rfl, ← hyear, ofParts?_self]
  rfl

theorem dateOfText?_stampText {year : Nat} (d : Date) (hyear : d.year = year)
    (hlt : year < 10 ^ 4) (hseparator : separator ∈ separators) (clock : Clock) (zone : Zone) :
    dateOfText? (String.ofList
        (before ++ stampText (dayText year d.month d.day) separator clock zone ++ after)) =
      some d := by
  have hmonth := d.month_le
  have hday := d.day_le.trans (daysInMonth_le d.year d.month)
  have hend : trimEnd (separator :: (clock.text ++ zone.text)) =
      separator :: (clock.text ++ zone.text) := by
    obtain ⟨-, c, hc, hblank⟩ := zone.text_ends
    refine Text.trimEnd_eq_self fun last hlast => ?_
    rw [← List.cons_append, List.getLast?_append, hc] at hlast
    cases hlast
    exact hblank
  have hplain : plainDate? (dayText year d.month d.day ++ separator :: (clock.text ++ zone.text)) =
      none := by
    rw [plainDate?_append hlt (show d.month < 100 by omega) (show d.day < 100 by omega)
      (head?_separator hseparator _), if_neg (List.cons_ne_nil _ _)]
  have hstamp := stampDate?_stampText d hyear hlt hseparator clock zone
  rw [stampText] at hstamp ⊢
  rw [dateOfText?, String.toList_ofList, trim_dayText_append hbefore hafter, hend, hplain, hstamp]
  rfl

/-- A text that begins with the numbers of no date is no date, whatever stands after them. -/
theorem dateOfText?_eq_none {year month day : Nat} (hyear : year < 10 ^ 4) (hmonth : month < 100)
    (hday : day < 100) (hrest : ∀ c ∈ rest.head?, isDigit c = false)
    (hnone : Date.ofParts? year month day = none) :
    dateOfText? (String.ofList (before ++ (dayText year month day ++ rest) ++ after)) = none := by
  have hhead : ∀ c ∈ (trimEnd rest).head?, isDigit c = false := by
    intro c hc
    obtain ⟨es, hes, -⟩ := Text.exists_trimEnd_append rest
    refine hrest c ?_
    rw [hes, List.head?_append, hc]
    rfl
  have hplain : plainDate? (dayText year month day ++ trimEnd rest) = none := by
    rw [plainDate?_append hyear hmonth hday hhead, hnone, ite_self]
  have hstamp : stampDate? (dayText year month day ++ trimEnd rest) = none := by
    refine Option.eq_none_iff_forall_ne_some.mpr fun d hd => ?_
    cases hnone.symm.trans (stampDate?_eq_some hyear hmonth hday hd)
  rw [dateOfText?, String.toList_ofList, trim_dayText_append hbefore hafter, hplain, hstamp]
  rfl

theorem dateOfText?_shape {year : Nat} (d : Date) (hyear : d.year = year) (hlt : year < 10 ^ 4)
    (shape : Shape) : dateOfText? (String.ofList
      (before ++ shape.text (dayText year d.month d.day) ++ after)) = some d := by
  cases shape with
  | plain => exact dateOfText?_dayText hbefore hafter d hyear hlt
  | stamp separator clock zone hseparator =>
    exact dateOfText?_stampText hbefore hafter d hyear hlt hseparator clock zone

theorem dateOfText?_shape_eq_none {year month day : Nat} (hyear : year < 10 ^ 4)
    (hmonth : month < 100) (hday : day < 100) (hnone : Date.ofParts? year month day = none)
    (shape : Shape) : dateOfText? (String.ofList
      (before ++ shape.text (dayText year month day) ++ after)) = none := by
  cases shape with
  | plain =>
    have hrest : ∀ c ∈ ([] : List Char).head?, isDigit c = false := by simp
    simpa [Shape.text] using dateOfText?_eq_none hbefore hafter hyear hmonth hday hrest hnone
  | stamp separator clock zone hseparator =>
    have hrest := head?_separator hseparator (clock.text ++ zone.text)
    exact dateOfText?_eq_none hbefore hafter hyear hmonth hday hrest hnone

end

end PromptFiles.Calendar
