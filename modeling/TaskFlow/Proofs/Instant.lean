import Mathlib.Tactic.IntervalCases
import TaskFlow.Instant
import TaskFlow.Proofs.Json.Lines

namespace TaskFlow

namespace CivilDate

/-- A year of an era by its century, its four years within the century and its place among these,
all counted from March. -/
structure YearOfEra (day year : Int) (c f y d : Int) : Prop where
  century : 0 ≤ c ∧ c ≤ 3
  four : 0 ≤ f ∧ f ≤ 24
  place : 0 ≤ y ∧ y ≤ 3
  rest : 0 ≤ d ∧ d ≤ 365
  day : day = 36524 * c + 1461 * f + 365 * y + d
  year : year = 100 * c + 4 * f + y
  leap : d = 365 → y = 3 ∧ (f = 24 → c = 3)

theorem exists_yearOfEra (day : Int) (h : 0 ≤ day ∧ day < 146097) : ∃ c f y d,
    YearOfEra day ((day - day / 1460 + day / 36524 - day / 146096) / 365) c f y d := by
  obtain last | within : day = 146096 ∨ day < 146096 := by omega
  · subst last
    exact ⟨3, 24, 3, 365, by omega, by omega, by omega, by omega, by omega, by omega, by omega⟩
  · obtain ⟨c, r, split, hc, hr⟩ : ∃ c r, day = 36524 * c + r ∧ (0 ≤ c ∧ c ≤ 3) ∧
        (0 ≤ r ∧ r < 36524) := ⟨day / 36524, day % 36524, by omega, by omega, by omega⟩
    obtain ⟨f, b, splitRest, hf, hb⟩ : ∃ f b, r = 1461 * f + b ∧ (0 ≤ f ∧ f ≤ 24) ∧
        (0 ≤ b ∧ b ≤ 1460) := ⟨r / 1461, r % 1461, by omega, by omega, by omega⟩
    have quotients : day / 1460 = 25 * c + f + (f + b + 24 * c) / 1460 ∧ day / 36524 = c ∧
        day / 146096 = 0 := by omega
    -- the last day of four years would count for a fifth one
    obtain ⟨y, hy⟩ : ∃ y, y = if b = 1460 then 3 else b / 365 := ⟨_, rfl⟩
    have whole : (day - day / 1460 + day / 36524 - day / 146096) / 365 = 100 * c + 4 * f + y := by
      rw [quotients.1, quotients.2.1, quotients.2.2]
      split at hy
      · omega
      · have carry : (f + b + 24 * c) / 1460 = 0 ∨
            (f + b + 24 * c) / 1460 = 1 ∧ 1364 ≤ b := by omega
        omega
    refine ⟨c, f, y, b - 365 * y, hc, hf, ?_, ?_, by omega, whole, ?_⟩ <;> split at hy <;> omega

theorem YearOfEra.daysBefore {day year c f y d : Int} (h : YearOfEra day year c f y d) :
    day - (365 * year + year / 4 - year / 100) = d := by
  obtain ⟨_, _, _, _, hday, hyear, _⟩ := h
  omega

/-- The day of the calendar with a place in an era: months and years are counted from March. -/
def ofEra (era year day : Int) : CivilDate :=
  let m := (5 * day + 2) / 153
  let month := if m < 10 then m + 3 else m - 9
  ⟨if month ≤ 2 then year + era * 400 + 1 else year + era * 400, month.toNat,
    (day - (153 * m + 2) / 5 + 1).toNat⟩

theorem exists_ofEra (days : Int) : ∃ year c f y d,
    YearOfEra ((days + 719468) % 146097) year c f y d ∧
      ofDays days = ofEra ((days + 719468) / 146097) year d := by
  obtain ⟨c, f, y, d, h⟩ := exists_yearOfEra ((days + 719468) % 146097) (by omega)
  refine ⟨_, c, f, y, d, h, ?_⟩
  rw [ofDays, h.daysBefore]
  rfl

/-- Up to December the year is the one that began in March; January and February are in the next
one. -/
theorem ofEra_eq (era year : Int) {day : Int} (h : 0 ≤ day ∧ day ≤ 365) : ∃ m e : Nat,
    (day : Int) = (153 * m + 2) / 5 + e ∧ (153 * (m + 1) + 2) / 5 > day ∧
    (m < 10 ∧ ofEra era year day = ⟨year + era * 400, m + 3, e + 1⟩ ∨
      10 ≤ m ∧ m < 12 ∧ ofEra era year day = ⟨year + era * 400 + 1, m - 9, e + 1⟩) := by
  refine ⟨((5 * day + 2) / 153).toNat, (day - (153 * ((5 * day + 2) / 153) + 2) / 5).toNat,
    by omega, by omega, ?_⟩
  obtain early | late : (5 * day + 2) / 153 < 10 ∨ 10 ≤ (5 * day + 2) / 153 := by omega
  · refine .inl ⟨by omega, ?_⟩
    simp only [ofEra, if_pos early]
    rw [if_neg (by omega)]
    congr 1 <;> omega
  · refine .inr ⟨by omega, by omega, ?_⟩
    simp only [ofEra, if_neg (not_lt.mpr late)]
    rw [if_pos (by omega)]
    congr 1 <;> omega

/-- The day of the calendar that lies a number of days after 1970 lies that number of days after
1970. -/
theorem toDays_ofDays (days : Int) : (ofDays days).toDays = days := by
  obtain ⟨year, c, f, y, d, era, date⟩ := exists_ofEra days
  have before := era.daysBefore
  have bounds : 0 ≤ year ∧ year ≤ 399 := by
    obtain ⟨_, _, _, _, _, hyear, _⟩ := era
    omega
  -- both forms count the years from March again
  have place (z : Int) (hz : z = year + (days + 719468) / 146097 * 400) :
      z / 400 = (days + 719468) / 146097 ∧ z % 400 = year := by omega
  obtain ⟨m, e, hd, -, ⟨early, date'⟩ | ⟨late, last, date'⟩⟩ :=
    ofEra_eq ((days + 719468) / 146097) year era.rest
  · obtain ⟨eras, years⟩ := place _ rfl
    have month : (((m + 3 : Nat) : Int) + 9) % 12 = m := by omega
    rw [date, date', toDays, if_neg (by simp)]
    dsimp only
    rw [eras, years, month]
    omega
  · obtain ⟨eras, years⟩ := place (year + (days + 719468) / 146097 * 400 + 1 - 1) (by omega)
    have month : (((m - 9 : Nat) : Int) + 9) % 12 = m := by omega
    rw [date, date', toDays, if_pos (by simp; omega)]
    dsimp only
    rw [eras, years, month]
    omega

theorem YearOfEra.isLeap {day year c f y : Int} (h : YearOfEra day year c f y 365) (era : Int) :
    isLeap (year + era * 400 + 1) = true := by
  obtain ⟨_, _, _, _, _, hyear, leap⟩ := h
  obtain ⟨rfl, century⟩ := leap rfl
  rw [CivilDate.isLeap, Bool.and_eq_true, Bool.or_eq_true, decide_eq_true_iff, decide_eq_true_iff,
    decide_eq_true_iff]
  omega

structure Valid (d : CivilDate) : Prop where
  month : 1 ≤ d.month ∧ d.month ≤ 12
  day : 1 ≤ d.day ∧ d.day ≤ daysInMonth d.year d.month

theorem daysInMonth_le (year : Int) (month : Nat) : daysInMonth year month ≤ 31 := by
  rw [daysInMonth]
  split
  · split <;> decide
  · split <;> decide

theorem valid_ofDays (days : Int) : (ofDays days).Valid := by
  obtain ⟨year, c, f, y, d, era, date⟩ := exists_ofEra days
  obtain ⟨m, e, hd, next, ⟨early, date'⟩ | ⟨late, last, date'⟩⟩ :=
    ofEra_eq ((days + 719468) / 146097) year era.rest
  · have long : e + 1 ≤ daysInMonth (year + (days + 719468) / 146097 * 400) (m + 3) := by
      interval_cases m <;> simp [daysInMonth] <;> omega
    rw [date, date']
    exact ⟨⟨by simp, by simp; omega⟩, by simp, long⟩
  · have long : e + 1 ≤ daysInMonth (year + (days + 719468) / 146097 * 400 + 1) (m - 9) := by
      obtain rfl | rfl : m = 10 ∨ m = 11 := by omega
      · simp [daysInMonth]
        omega
      · -- February has a 29th day only where the year has a 366th
        rw [daysInMonth, if_pos rfl]
        obtain rfl | less : d = 365 ∨ d < 365 := by have := era.rest; omega
        · rw [era.isLeap, if_pos rfl]
          omega
        · split <;> omega
    rw [date, date']
    exact ⟨⟨by simp; omega, by simp; omega⟩, by simp, long⟩

end CivilDate

namespace Instant

variable {ds rest : List Char} {width w n : Nat}

theorem digitsValue_replicate_append (k : Nat) (ds : List Char) :
    digitsValue (List.replicate k '0' ++ ds) = digitsValue ds := by
  have zeros : digitsValue (List.replicate k '0') = 0 := by
    induction k with
    | zero => rfl
    | succ k ih => exact ih
  rw [digitsValue, List.foldl_append]
  exact congrArg (ds.foldl _) zeros

theorem digitsValue_padded : digitsValue (padded width n) = n :=
  (digitsValue_replicate_append _ _).trans (Json.digitsValue_toDigits n)

theorem isDigit_of_mem_padded {c : Char} (h : c ∈ padded width n) : c.isDigit = true := by
  rcases List.mem_append.mp h with h | h
  · rw [List.eq_of_mem_replicate h]
    rfl
  · exact Nat.isDigit_of_mem_toDigits (by decide) (by decide) h

theorem length_padded (some : 0 < width) (h : n < 10 ^ width) : (padded width n).length = width := by
  have short := (Nat.length_toDigits_le_iff (by decide) some).mpr h
  rw [padded, List.length_append, List.length_replicate]
  omega

theorem skipBlank_of_isDigit {c : Char} (h : c.isDigit = true) (cs : List Char) :
    skipBlank (c :: cs) = c :: cs :=
  List.dropWhile_cons_of_neg (by rw [Json.StartsNumber.not_blank (.inr h)]; decide)

theorem padded_eq_cons (width n : Nat) : ∃ c cs, padded width n = c :: cs ∧ c.isDigit = true := by
  have some : padded width n ≠ [] := List.append_ne_nil_of_right_ne_nil _ Nat.toDigits_ne_nil
  obtain ⟨c, cs, h⟩ := List.exists_cons_of_ne_nil some
  exact ⟨c, cs, h, isDigit_of_mem_padded (h ▸ List.mem_cons_self ..)⟩

theorem skipBlank_padded : skipBlank (padded width n ++ rest) = padded width n ++ rest := by
  obtain ⟨c, cs, h, digit⟩ := padded_eq_cons width n
  rw [h, List.cons_append, skipBlank_of_isDigit digit]

/-- A number ends where its width does, or where no digit follows. -/
def EndsNumber (width w : Nat) (rest : List Char) : Prop :=
  width = w ∨ ∀ c ∈ rest.head?, c.isDigit = false

theorem takeWhile_take_digits (digits : ∀ c ∈ ds, c.isDigit = true) (le : ds.length ≤ w)
    (ends : EndsNumber ds.length w rest) : ((ds ++ rest).take w).takeWhile Char.isDigit = ds := by
  rw [List.take_append, List.take_of_length_le le, List.takeWhile_append_of_pos digits]
  refine (congrArg (ds ++ ·) ?_).trans (List.append_nil ds)
  rcases ends with exact_ | ends
  · rw [exact_, Nat.sub_self]
    rfl
  · cases rest with
    | nil => rw [List.take_nil]; rfl
    | cons c rest =>
      cases w - ds.length with
      | zero => rfl
      | succ k => exact List.takeWhile_cons_of_neg (by simp [ends c rfl])

/-- A padded number is read back, also by a reader of more digits if no digit follows. -/
theorem number_padded (some : 0 < width) (h : n < 10 ^ width) (le : width ≤ w) (small : w ≤ 18)
    (ends : EndsNumber width w rest) : number w (padded width n ++ rest) = .ok (n, rest) := by
  have length := length_padded some h
  have taken : ((padded width n ++ rest).take w).takeWhile Char.isDigit = padded width n :=
    takeWhile_take_digits (fun _ => isDigit_of_mem_padded) (by rwa [length]) (by rwa [length])
  obtain ⟨c, cs, first, -⟩ := padded_eq_cons width n
  have fits : n < UInt64.size / 2 := by
    calc n < 10 ^ width := h
      _ ≤ 10 ^ 18 := Nat.pow_le_pow_right (by decide) (le.trans small)
      _ < UInt64.size / 2 := by decide
  have value : (padded width n).foldl (fun n c => n * 10 + digit c) 0 = n := digitsValue_padded
  rw [number, taken, value, if_neg (by simp [first]), if_neg (by simp [first]), if_neg (by omega),
    List.drop_left]

theorem part_padded {low high : Nat} (h : n < 100) (within : low ≤ n ∧ n ≤ high) :
    part low high (padded 2 n ++ rest) = .ok (n, rest) := by
  refine bind_eq_ok.mpr ⟨(n, rest), ?_, ?_⟩
  · rw [skipBlank_padded]
    exact number_padded (by decide) h le_rfl (by decide) (.inl rfl)
  · dsimp only
    rw [if_neg (by omega)]
    rfl

theorem mark_cons {c : Char} (h : Text.isBlank c = false) : mark c (c :: rest) = .ok ((), rest) := by
  have skipped : skipBlank (c :: rest) = c :: rest := List.dropWhile_cons_of_neg (by rw [h]; decide)
  rw [mark, skipped]
  exact if_pos rfl

theorem year_text {y : Int} (h : 0 ≤ y ∧ y ≤ 9999) :
    year (yearText y ++ rest) = .ok (y, rest) := by
  have read : number 4 (padded 4 y.toNat ++ rest) = .ok (y.toNat, rest) :=
    number_padded (by decide) (by omega) le_rfl (by decide) (.inl rfl)
  have back : (y.toNat : Int) = y := Int.toNat_of_nonneg h.1
  obtain ⟨c, cs, first, digit⟩ := padded_eq_cons 4 y.toNat
  have minus : c ≠ '-' := by rintro rfl; cases digit
  have plus : c ≠ '+' := by rintro rfl; cases digit
  rw [year, yearText, if_pos h, skipBlank_padded]
  rw [first] at read ⊢
  rw [List.cons_append] at read ⊢
  split
  · next same => exact absurd (List.cons.inj same).1 minus
  · next same => exact absurd (List.cons.inj same).1 plus
  · refine bind_eq_ok.mpr ⟨_, read, bind_eq_ok.mpr ⟨(y, rest), ?_, ?_⟩⟩
    · exact congrArg (fun y : Int => Except.ok (y, rest)) back
    · exact if_neg (by omega)

/-- The digits of a fraction count for as many powers of ten as there are places left. -/
theorem fraction_padded (some : 0 < width) (le : width ≤ 9) (h : n < 10 ^ width)
    (ends : ∀ c ∈ rest.head?, c.isDigit = false) :
    fraction ('.' :: (padded width n ++ rest)) = .ok (n * 10 ^ (9 - width), rest) := by
  refine bind_eq_ok.mpr ⟨(n, rest), number_padded some h le (by decide) (.inr ends), ?_⟩
  have count : (padded width n ++ rest).length - rest.length = width := by
    rw [List.length_append, length_padded some h, Nat.add_sub_cancel]
  have done : rest.dropWhile Char.isDigit = rest := by
    cases rest with
    | nil => rfl
    | cons c rest => exact List.dropWhile_cons_of_neg (by simp [ends c rfl])
  dsimp only
  rw [count, done]
  rfl

theorem fraction_text {nanos : Nat} (h : nanos < perSecond) :
    fraction (fractionText nanos ++ 'Z' :: rest) = .ok (nanos, 'Z' :: rest) := by
  have ends : ∀ c ∈ ('Z' :: rest).head?, c.isDigit = false := by
    rintro c ⟨⟩
    rfl
  rw [perSecond] at h
  rw [fractionText]
  split
  · next none =>
    rw [none]
    rfl
  · split
    · next whole =>
      rw [List.cons_append, fraction_padded (by decide) (by decide) (by omega) ends]
      congr 2
      omega
    · split
      · next whole =>
        rw [List.cons_append, fraction_padded (by decide) (by decide) (by omega) ends]
        congr 2
        omega
      · rw [List.cons_append, fraction_padded (by decide) (by decide) (by omega) ends]
        congr 2
        omega

/-- An instant outside leap seconds, in a year of four digits. -/
structure Ordinary (t : Instant) : Prop where
  nanos : t.nanos < perSecond
  year : 0 ≤ (CivilDate.ofDays (t.seconds / 86400)).year ∧
    (CivilDate.ofDays (t.seconds / 86400)).year ≤ 9999

theorem ok_bind {α β : Type} (a : α) (f : α → Except Flaw β) : (Except.ok a >>= f) = f a := rfl

theorem parse_parts (t : Instant) {date : CivilDate} (hour minute second : Nat) {nanos : Nat}
    (hy : 0 ≤ date.year ∧ date.year ≤ 9999) (valid : date.Valid) (hh : hour ≤ 23)
    (hm : minute ≤ 59) (hs : second ≤ 59) (hn : nanos < perSecond)
    (seconds : t.seconds = date.toDays * 86400 + (hour * 3600 + minute * 60 + second))
    (subsecond : t.nanos = nanos) (same : CivilDate.ofDays (t.seconds / 86400) = date) :
    parse (.ofList (yearText date.year ++ '-' :: padded 2 date.month ++ '-' :: padded 2 date.day ++
      'T' :: padded 2 hour ++ ':' :: padded 2 minute ++ ':' :: padded 2 second ++
        fractionText nanos ++ ['Z'])) = .ok t := by
  obtain ⟨months, days⟩ := valid
  have long := days.2.trans (CivilDate.daysInMonth_le _ _)
  have dash : Text.isBlank '-' = false := by decide
  have colon : Text.isBlank ':' = false := by decide
  have utc : offset (skipBlank ['Z']) = .ok (0, []) := by rfl
  rw [parse, String.toList_ofList]
  -- each part is read back by its own lemma, from the year to the offset
  simp only [List.append_assoc, List.cons_append, year_text hy, ok_bind, mark_cons dash,
    mark_cons colon, part_padded (n := date.month) (by omega) months,
    part_padded (n := date.day) (by omega) ⟨days.1, long⟩,
    part_padded (n := hour) (by omega) ⟨Nat.zero_le _, hh⟩,
    part_padded (n := minute) (by omega) ⟨Nat.zero_le _, hm⟩,
    part_padded (n := second) (by omega) ⟨Nat.zero_le _, (hs.trans (by decide) : second ≤ 60)⟩,
    fraction_text hn, utc, true_or, if_true, pure_bind]
  have range : CivilDate.yearInRange date.year = true := by
    rw [CivilDate.yearInRange, Bool.and_eq_true, decide_eq_true_iff, decide_eq_true_iff]
    omega
  have clock : date.toDays * 86400 + (hour * 3600 + minute * 60 + (min second 59 : Nat)) - 0 =
      t.seconds := by
    rw [seconds, min_eq_left hs]
    omega
  have nothing : ¬skipBlank [] ≠ [] := not_not.mpr rfl
  rw [if_neg nothing, if_neg (by rw [range]; simp; omega), if_neg (by decide), clock, same, range,
    if_neg (by decide), if_neg (by omega), ← subsecond]
  rfl

theorem parse_text {t : Instant} (h : t.Ordinary) : parse t.text = .ok t := by
  have whole : ¬t.nanos ≥ perSecond := not_le.mpr h.nanos
  have days := CivilDate.toDays_ofDays (t.seconds / 86400)
  have clock := parse_parts t ((t.seconds % 86400).toNat / 3600)
    ((t.seconds % 86400).toNat / 60 % 60) ((t.seconds % 86400).toNat % 60) h.year
    (CivilDate.valid_ofDays _) (by omega) (by omega) (by omega) h.nanos (by omega) rfl rfl
  rw [text, calendarText, if_neg whole, if_neg whole, Nat.add_zero]
  exact clock

end Instant

end TaskFlow
