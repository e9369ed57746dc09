import Mathlib.Data.List.Induction
import Mathlib.Data.String.Basic
import Rulebook.Proofs.Outcome
import Rulebook.Proofs.Time.Calendar
import Rulebook.Schema.MomentText

/-!
# Times in texts

A time that a text can tell is told by its own text (`Moment.read_text`), and what is read of a text or a number is
such a time (`Moment.told_of_read`). Numbers of fixed width are read digit by digit.
-/

namespace Rulebook

namespace Date

/-- The last digits of a number. -/
def lastDigits : Nat → Nat → List Char
  | 0, _ => []
  | width + 1, n => lastDigits width (n / 10) ++ [Nat.digitChar (n % 10)]

/-- A number that is not too wide is its last digits, with zeros in front. -/
theorem to_list_padded {width n : Nat} (h : n < 10 ^ (width + 1)) :
    (padded (width + 1) n).toList = lastDigits (width + 1) n := by
  rw [padded, String.toList_ofList, Int.toNat_natCast, Decimal.padZeros, Decimal.digitChars]
  induction width generalizing n with
  | zero =>
      rw [Nat.toDigits_of_lt_base (by omega), lastDigits, Nat.mod_eq_of_lt (by omega)]
      rfl
  | succ width ih =>
      rw [lastDigits, ← ih (by omega)]
      by_cases hshort : n < 10
      · rw [Nat.toDigits_of_lt_base hshort, Nat.div_eq_of_lt hshort, Nat.mod_eq_of_lt hshort]
        simp [List.replicate_succ']
      · rw [Nat.toDigits_of_base_le (by omega) (by omega), List.length_append, List.length_singleton,
          Nat.add_sub_add_right, List.append_assoc]

/-- An integer that is not negative and not too wide is its last digits, with zeros in front. -/
theorem to_list_padded_int {width : Nat} {n : Int} (h : n.toNat < 10 ^ (width + 1)) :
    (padded (width + 1) n).toList = lastDigits (width + 1) n.toNat := by
  have hsame : padded (width + 1) n = padded (width + 1) n.toNat := by rw [padded, padded, Int.toNat_natCast]
  rw [hsame, to_list_padded h]

/-- The characters of a date, by its numbers. -/
theorem to_list_text {d : Date} (hyear : 1 ≤ d.year ∧ d.year ≤ 9999) (h : d.isValid = true) :
    d.text.toList = lastDigits 4 d.year.toNat ++ '-' :: (lastDigits 2 d.month.toNat ++ '-' ::
      lastDigits 2 d.day.toNat) := by
  simp only [isValid, Bool.and_eq_true, decide_eq_true_eq] at h
  obtain ⟨⟨⟨hmonth, hmonth'⟩, hday⟩, hday'⟩ := h
  have hlength : daysInMonth d.year d.month ≤ 31 := by
    unfold daysInMonth
    split <;> split <;> omega
  simp only [text, String.toList_append]
  rw [to_list_padded_int (by omega), to_list_padded_int (by omega), to_list_padded_int (by omega)]
  simp

end Date

namespace Schema.MomentText

/-- A digit is read as its value. -/
theorem digit_of_char {d : Nat} (h : d < 10) (reason : String) :
    digitOr reason (Nat.digitChar d) = .ok (d : Int) := by
  have hall : ∀ d < 10, Decimal.digit? (Nat.digitChar d) = some d := by decide
  rw [digitOr, hall d h]

/-- Two digits are read as their number. -/
theorem two_digits {n : Nat} (h : n < 100) (reason : String) (rest : List Char) :
    twoDigits reason (Date.lastDigits 2 n ++ rest) = .ok ((n : Int), rest) := by
  show twoDigits reason (Nat.digitChar (n / 10 % 10) :: Nat.digitChar (n % 10) :: rest) = _
  rw [twoDigits, digit_of_char (by omega), digit_of_char (by omega)]
  show Except.ok (10 * ((n / 10 % 10 : Nat) : Int) + ((n % 10 : Nat) : Int), rest) = _
  congr 2
  omega

/-- A date is read as itself. -/
theorem date_of_digits {year month day bytes : Nat} {rest : List Char} (hbytes : 10 ≤ bytes) (hyear : year < 10000)
    (h : (⟨year, month, day⟩ : Date).isValid = true) :
    date bytes (Date.lastDigits 4 year ++ '-' :: (Date.lastDigits 2 month ++ '-' ::
      (Date.lastDigits 2 day ++ rest))) = .ok (⟨year, month, day⟩, rest) := by
  have hfields := h
  simp only [Date.isValid, Bool.and_eq_true, decide_eq_true_eq] at hfields
  obtain ⟨⟨⟨hmonth, hmonth'⟩, hday⟩, hday'⟩ := hfields
  have hlength : daysInMonth year month ≤ 31 := by
    unfold daysInMonth
    split <;> split <;> omega
  show date bytes (Nat.digitChar (year / 10 / 10 / 10 % 10) :: Nat.digitChar (year / 10 / 10 % 10) ::
    Nat.digitChar (year / 10 % 10) :: Nat.digitChar (year % 10) :: '-' :: Nat.digitChar (month / 10 % 10) ::
    Nat.digitChar (month % 10) :: '-' :: Nat.digitChar (day / 10 % 10) :: Nat.digitChar (day % 10) :: rest) = _
  have hread : ∀ y m k : Int, y = year → m = month → k = day →
      (if (⟨y, m, k⟩ : Date).month < 1 ∨ 12 < (⟨y, m, k⟩ : Date).month then
          .error "month value is outside expected range of 1-12"
        else if !(⟨y, m, k⟩ : Date).isValid then .error "day value is outside expected range"
        else .ok (⟨y, m, k⟩, rest) : Reading (Date × List Char)) = .ok (⟨year, month, day⟩, rest) := by
    rintro _ _ _ rfl rfl rfl
    rw [if_neg (by dsimp only; omega), h]
    rfl
  rw [date, if_neg (by omega)]
  simp only [digit_of_char (Nat.mod_lt _ (by omega : 0 < 10)), bind, Except.bind, ne_eq, not_true_eq_false, if_false]
  exact hread _ _ _ (by omega) (by omega) (by omega)

/-- The last digits of a number are as many as are asked for. -/
theorem length_last_digits (width n : Nat) : (Date.lastDigits width n).length = width := by
  induction width generalizing n with
  | zero => rfl
  | succ width ih => rw [Date.lastDigits, List.length_append, ih, List.length_singleton]

/-- The last digits of a number are digits. -/
theorem digit_of_mem {width n : Nat} {c : Char} (h : c ∈ Date.lastDigits width n) : Decimal.isDigit c = true := by
  have hall : ∀ d < 10, Decimal.isDigit (Nat.digitChar d) = true := by decide
  induction width generalizing n with
  | zero => cases h
  | succ width ih =>
      obtain h | h := List.mem_append.mp h
      · exact ih h
      · rw [List.mem_singleton.mp h]
        exact hall _ (Nat.mod_lt _ (by omega))

/-- The last digits of a number stand for it, if it is not too wide. -/
theorem of_last_digits {width n : Nat} (h : n < 10 ^ width) : Decimal.ofDigits (Date.lastDigits width n) = n := by
  have hall : ∀ d < 10, Decimal.digit? (Nat.digitChar d) = some d := by decide
  induction width generalizing n with
  | zero =>
      obtain rfl : n = 0 := by omega
      rfl
  | succ width ih =>
      rw [Decimal.ofDigits, Date.lastDigits, List.foldl_append]
      show 10 * Decimal.ofDigits (Date.lastDigits width (n / 10)) + (Decimal.digit? (Nat.digitChar (n % 10))).getD 0 = n
      rw [ih (by omega), hall _ (Nat.mod_lt _ (by omega)), Option.getD_some]
      omega

/-- What comes after a time of day begins neither with a digit nor with a decimal mark. -/
def EndsTime (rest : List Char) : Prop := ∀ c ∈ rest.head?, Decimal.isDigit c = false ∧ c ≠ '.' ∧ c ≠ ','

/-- Six digits after the point are microseconds. -/
theorem fraction_of_digits {micros : Nat} {rest : List Char} (h : micros < 1000000) (hrest : EndsTime rest) :
    fraction (Date.lastDigits 6 micros ++ rest) = .ok ((micros : Int), rest) := by
  have hall : ∀ c ∈ Date.lastDigits 6 micros, Decimal.isDigit c = true := fun _ => digit_of_mem
  have hcut : rest.takeWhile Decimal.isDigit = [] ∧ rest.dropWhile Decimal.isDigit = rest := by
    cases rest with
    | nil => exact ⟨rfl, rfl⟩
    | cons c rest => simp [(hrest c rfl).1]
  have hsix : (Date.lastDigits 6 micros ++ List.replicate 6 '0').take 6 = Date.lastDigits 6 micros :=
    List.take_left' (length_last_digits 6 micros)
  rw [fraction, List.takeWhile_append_of_pos hall, List.dropWhile_append_of_pos hall, hcut.1, hcut.2,
    List.append_nil]
  dsimp only
  rw [hsix, of_last_digits h]
  rfl

/-- The microseconds as they are written: not at all if there are none. -/
def microsDigits (micros : Nat) : List Char := if micros = 0 then [] else '.' :: Date.lastDigits 6 micros

/-- Seconds and their fraction are read as themselves. -/
theorem seconds_of_digits {second micros : Nat} {rest : List Char} (hsecond : second < 60)
    (hmicros : micros < 1000000) (hrest : EndsTime rest) :
    seconds (':' :: (Date.lastDigits 2 second ++ (microsDigits micros ++ rest))) =
      .ok (second * microsPerSecond + micros, rest) := by
  have hless : ¬59 < (second : Int) := by omega
  rw [seconds, two_digits (by omega)]
  simp only [bind, Except.bind, if_neg hless]
  by_cases hnone : micros = 0
  · rw [microsDigits, if_pos hnone, List.nil_append, hnone]
    split
    next => exact absurd rfl (hrest '.' rfl).2.1
    next => exact absurd rfl (hrest ',' rfl).2.2
    next => simp
  · rw [microsDigits, if_neg hnone]
    show (fraction (Date.lastDigits 6 micros ++ rest)).map _ = _
    rw [fraction_of_digits hmicros hrest]
    rfl

/-- A time of day is read as itself. -/
theorem time_of_digits (hour minute second micros : Nat) {rest : List Char} (hhour : hour < 24)
    (hminute : minute < 60) (hsecond : second < 60) (hmicros : micros < 1000000) (hrest : EndsTime rest) :
    time (Date.lastDigits 2 hour ++ ':' :: (Date.lastDigits 2 minute ++ ':' ::
      (Date.lastDigits 2 second ++ (microsDigits micros ++ rest)))) =
    .ok ((hour * 60 + minute) * microsPerMinute + (second * microsPerSecond + micros), rest) := by
  have hclock : ¬23 < (hour : Int) ∧ ¬59 < (minute : Int) := by omega
  rw [time, if_neg (by simp [length_last_digits]; omega), two_digits (by omega)]
  simp only [bind, Except.bind, List.head?_cons, List.tail_cons, bne_self_eq_false, Bool.false_eq_true, if_false,
    two_digits (show minute < 100 by omega), if_neg hclock.1, if_neg hclock.2,
    seconds_of_digits hsecond hmicros hrest]
  rfl

/-- The offset as it is written. -/
def offsetDigits (n : Int) : List Char :=
  if n = 0 then ['Z']
  else (if n < 0 then '-' else '+') ::
    (Date.lastDigits 2 (n.natAbs / 3600) ++ ':' :: Date.lastDigits 2 (n.natAbs / 60 % 60))

/-- An offset of whole minutes is read as itself. -/
theorem offset_of_digits {n : Int} (hminutes : n % 60 = 0) (hday : n.natAbs < 86400) :
    offset (offsetDigits n) = .ok n := by
  rw [offsetDigits]
  split
  next hzero =>
    rw [hzero]
    rfl
  next hzero =>
    have hread : ∀ sign, sign = '-' ∧ n < 0 ∨ sign = '+' ∧ 0 < n →
        offset (sign :: (Date.lastDigits 2 (n.natAbs / 3600) ++ ':' ::
          Date.lastDigits 2 (n.natAbs / 60 % 60))) = .ok n := by
      intro sign hsign
      have hsigns : (sign == 'Z' || sign == 'z') = false ∧
          (sign != '+' && !(sign == '-' || sign == '\u2212')) = false := by
        obtain ⟨rfl, _⟩ | ⟨rfl, _⟩ := hsign <;> decide
      have hclock : ¬59 < ((n.natAbs / 60 % 60 : Nat) : Int) ∧ ¬23 < ((n.natAbs / 3600 : Nat) : Int) := by omega
      have hlast := two_digits (show n.natAbs / 60 % 60 < 100 by omega) "invalid timezone minute" []
      rw [List.append_nil] at hlast
      simp only [offset, hsigns.1, hsigns.2, Bool.false_eq_true, if_false, bind, Except.bind,
        two_digits (show n.natAbs / 3600 < 100 by omega), List.head?_cons, List.tail_cons, beq_self_eq_true, if_true,
        hlast, if_neg hclock.1, if_neg hclock.2, List.isEmpty_nil, Bool.not_true]
      obtain ⟨rfl, hneg⟩ | ⟨rfl, hneg⟩ := hsign
      · show Except.ok (-((((n.natAbs / 3600 : Nat) : Int) * 60 + ((n.natAbs / 60 % 60 : Nat) : Int)) * 60)) = _
        exact congrArg Except.ok (by omega)
      · show Except.ok ((((n.natAbs / 3600 : Nat) : Int) * 60 + ((n.natAbs / 60 % 60 : Nat) : Int)) * 60) = _
        exact congrArg Except.ok (by omega)
    split
    next hneg => exact hread '-' (.inl ⟨rfl, hneg⟩)
    next hneg => exact hread '+' (.inr ⟨rfl, by omega⟩)

end Schema.MomentText

namespace Moment

/-- A time can be told in a text: it is representable, and its offset is one of whole minutes and less than a
day. -/
structure IsTold (m : Moment) : Prop where
  inRange : Moment.inRange m.wall = true
  offset : ∀ n, m.offset = some n → n % 60 = 0 ∧ n.natAbs < 86400

/-- The characters after the time of day. -/
def offsetChars (m : Moment) : List Char := (m.offset.map Schema.MomentText.offsetDigits).getD []

/-- The characters of an offset of whole minutes that is not zero. -/
theorem to_list_offset_text {n : Int} (hzero : n ≠ 0) (hminutes : n % 60 = 0) (hday : n.natAbs < 86400) :
    (offsetText n).toList = Schema.MomentText.offsetDigits n := by
  have hshort : (n.natAbs : Int) % 60 = 0 := by omega
  have hhours : (n.natAbs : Int) / 3600 = ((n.natAbs / 3600 : Nat) : Int) := by omega
  have hrest : (n.natAbs : Int) / 60 % 60 = ((n.natAbs / 60 % 60 : Nat) : Int) := by omega
  rw [Schema.MomentText.offsetDigits, if_neg hzero, offsetText, if_pos hshort, hhours, hrest]
  simp only [String.toList_append]
  rw [Date.to_list_padded (by omega), Date.to_list_padded (by omega)]
  split <;> simp

/-- A time is written as its date, its time of day and its offset. -/
theorem to_list_text {m : Moment} (h : m.IsTold) :
    m.text.toList = m.date.text.toList ++ 'T' :: (m.timeText.toList ++ m.offsetChars) := by
  unfold text offsetChars
  split
  next hoffset => simp [hoffset]
  next hoffset => simp [hoffset, Schema.MomentText.offsetDigits]
  next n hzero hoffset =>
    obtain ⟨hminutes, hday⟩ := h.offset n hoffset
    have hne : n ≠ 0 := hzero
    simp [hoffset, to_list_offset_text hne hminutes hday]

/-- The characters of the time of day, by the numbers on the clock. -/
theorem to_list_time_text (m : Moment) :
    m.timeText.toList = Date.lastDigits 2 (m.timeOfDay / 3600000000).toNat ++ ':' ::
      (Date.lastDigits 2 (m.timeOfDay / 60000000 % 60).toNat ++ ':' ::
        (Date.lastDigits 2 (m.timeOfDay / 1000000 % 60).toNat ++
          Schema.MomentText.microsDigits (m.timeOfDay % 1000000).toNat)) := by
  have htime : 0 ≤ m.timeOfDay ∧ m.timeOfDay < 86400000000 := by
    have hday : microsPerDay = 86400000000 := rfl
    rw [timeOfDay, hday]
    omega
  show String.toList (if m.timeOfDay % 1000000 = 0 then
      Date.padded 2 (m.timeOfDay / 3600000000) ++ ":" ++ Date.padded 2 (m.timeOfDay / 60000000 % 60) ++ ":" ++
        Date.padded 2 (m.timeOfDay / 1000000 % 60)
    else
      Date.padded 2 (m.timeOfDay / 3600000000) ++ ":" ++ Date.padded 2 (m.timeOfDay / 60000000 % 60) ++ ":" ++
        Date.padded 2 (m.timeOfDay / 1000000 % 60) ++ "." ++ Date.padded 6 (m.timeOfDay % 1000000)) = _
  rw [apply_ite String.toList, Schema.MomentText.microsDigits]
  simp only [String.toList_append]
  rw [Date.to_list_padded_int (by omega), Date.to_list_padded_int (by omega), Date.to_list_padded_int (by omega),
    Date.to_list_padded_int (by omega)]
  by_cases hnone : m.timeOfDay % 1000000 = 0
  · rw [if_pos hnone, if_pos (by omega)]
    simp
  · rw [if_neg hnone, if_neg (by omega)]
    simp

/-- A text has at least as many bytes as characters. -/
theorem length_le_bytes (l : List Char) : l.length ≤ String.utf8Len l := by
  induction l with
  | nil => exact Nat.le_refl 0
  | cons c l ih =>
      have hchar := c.utf8Size_pos
      rw [String.utf8Len_cons, List.length_cons]
      omega

/-- What follows the time of day does not go on with it. -/
theorem ends_time (m : Moment) : Schema.MomentText.EndsTime m.offsetChars := by
  rw [offsetChars]
  cases m.offset with
  | none => exact nofun
  | some n =>
      intro c hc
      rw [Option.map_some, Option.getD_some, Schema.MomentText.offsetDigits] at hc
      split at hc
      · obtain rfl := Option.some.inj hc
        decide
      · obtain rfl := Option.some.inj hc
        split <;> decide

/-- A time that can be told in a text is read from its text. -/
theorem read_text {m : Moment} (h : m.IsTold) : Schema.MomentText.read m.text = .valid m := by
  have hday : microsPerDay = 86400000000 := rfl
  have hwall : 0 ≤ m.wall / microsPerDay ∧ m.wall / microsPerDay < daysBeforeYear 10000 := by
    have hrange := in_range_iff.mp h.inRange
    rw [endOfTime, hday] at hrange
    rw [hday]
    omega
  have hyear : 1 ≤ m.date.year ∧ m.date.year ≤ 9999 := Date.year_bounds hwall.1 hwall.2
  have hvalid : m.date.isValid = true := Date.valid_of_days _
  have htime : 0 ≤ m.timeOfDay ∧ m.timeOfDay < 86400000000 := by
    rw [timeOfDay, hday]
    omega
  have hchars : m.text.toList = Date.lastDigits 4 m.date.year.toNat ++ '-' ::
      (Date.lastDigits 2 m.date.month.toNat ++ '-' :: (Date.lastDigits 2 m.date.day.toNat ++ 'T' ::
        (m.timeText.toList ++ m.offsetChars))) := by
    rw [to_list_text h, Date.to_list_text hyear hvalid]
    simp
  have hbytes : 10 ≤ m.text.utf8ByteSize := by
    have hlength := length_le_bytes m.text.toList
    rw [String.utf8Len_toList, hchars] at hlength
    simp only [List.length_append, List.length_cons, Schema.MomentText.length_last_digits] at hlength
    omega
  have hfull : Schema.MomentText.full m.text.utf8ByteSize m.text.toList =
      .ok (m.date, m.timeOfDay, m.offset) := by
    rw [Schema.MomentText.full, hchars]
    have hfields := hvalid
    simp only [Date.isValid, Bool.and_eq_true, decide_eq_true_eq] at hfields
    have hdate : (⟨m.date.year.toNat, m.date.month.toNat, m.date.day.toNat⟩ : Date) = m.date := by
      rw [Int.toNat_of_nonneg (by omega), Int.toNat_of_nonneg (by omega), Int.toNat_of_nonneg (by omega)]
    rw [Schema.MomentText.date_of_digits hbytes (by omega) (by rw [hdate]; exact hvalid), hdate]
    simp only [bind, Except.bind]
    rw [if_neg (by decide), to_list_time_text]
    have htimes : (((m.timeOfDay / 3600000000).toNat : Int) * 60 + (m.timeOfDay / 60000000 % 60).toNat) *
        microsPerMinute + ((m.timeOfDay / 1000000 % 60).toNat * microsPerSecond + (m.timeOfDay % 1000000).toNat) =
        m.timeOfDay := by
      show (_ * 60 + _) * 60000000 + (_ * 1000000 + _) = _
      omega
    have hread := Schema.MomentText.time_of_digits (m.timeOfDay / 3600000000).toNat
      (m.timeOfDay / 60000000 % 60).toNat (m.timeOfDay / 1000000 % 60).toNat (m.timeOfDay % 1000000).toNat
      (by omega) (by omega) (by omega) (by omega) m.ends_time
    rw [htimes] at hread
    simp only [List.append_assoc, List.cons_append]
    rw [hread]
    dsimp only
    rw [offsetChars]
    cases hoffset : m.offset with
    | none => rfl
    | some n =>
        obtain ⟨hminutes, hshort⟩ := h.offset n hoffset
        have hsome : (Schema.MomentText.offsetDigits n).isEmpty = false := by
          rw [Schema.MomentText.offsetDigits]
          split <;> rfl
        rw [Option.map_some, Option.getD_some, hsome, if_neg Bool.false_ne_true,
          Schema.MomentText.offset_of_digits hminutes hshort]
        rfl
  have hwhole : Moment.ofDate m.date m.timeOfDay m.offset = m := by
    rcases m with ⟨wall, offset⟩
    show Moment.mk ((Date.ofDays (wall / microsPerDay)).toDays * microsPerDay + wall % microsPerDay) offset = _
    rw [Date.to_days_of_days, Int.ediv_mul_add_emod]
  rw [Schema.MomentText.read]
  dsimp only
  rw [hfull]
  dsimp only
  rw [if_neg (by omega), hwhole]

end Moment

namespace Schema.MomentText

/-- A digit that is read is one of ten. -/
theorem digit_bounds {reason : String} {c : Char} {d : Int} (h : digitOr reason c = .ok d) : 0 ≤ d ∧ d ≤ 9 := by
  rw [digitOr, Decimal.digit?] at h
  split at h
  next k hk =>
    obtain rfl := Except.ok.inj h
    split at hk
    next hc =>
      obtain rfl := Option.some.inj hk
      have hcode : c.toNat ≤ '9'.toNat := hc.2
      have hzero : '0'.toNat = 48 := rfl
      have hnine : '9'.toNat = 57 := rfl
      omega
    next => cases hk
  next => cases h

/-- Two digits that are read are a number below a hundred. -/
theorem two_digits_bounds {reason : String} {cs rest : List Char} {n : Int}
    (h : twoDigits reason cs = .ok (n, rest)) : 0 ≤ n ∧ n ≤ 99 := by
  match cs with
  | [] | [_] => cases h
  | a :: b :: cs =>
      obtain ⟨x, hx, h⟩ := Outcome.bind_eq_ok.mp h
      obtain ⟨y, hy, h⟩ := Outcome.bind_eq_ok.mp h
      obtain ⟨rfl, -⟩ := Prod.mk.inj (Except.ok.inj h)
      have hxbounds := digit_bounds hx
      have hybounds := digit_bounds hy
      omega

/-- A date that is read exists, and its year has four digits. -/
theorem date_bounds {bytes : Nat} {cs rest : List Char} {d : Date} (h : date bytes cs = .ok (d, rest)) :
    d.isValid = true ∧ d.year ≤ 9999 := by
  unfold date at h
  split at h
  next => cases h
  next =>
    split at h
    next =>
      obtain ⟨a, ha, h⟩ := Outcome.bind_eq_ok.mp h
      obtain ⟨b, hb, h⟩ := Outcome.bind_eq_ok.mp h
      obtain ⟨c, hc, h⟩ := Outcome.bind_eq_ok.mp h
      obtain ⟨k, hk, h⟩ := Outcome.bind_eq_ok.mp h
      have hthousands := digit_bounds ha
      have hhundreds := digit_bounds hb
      have htens := digit_bounds hc
      have hones := digit_bounds hk
      dsimp only at h
      split at h
      next => cases h
      next =>
        obtain ⟨_, _, h⟩ := Outcome.bind_eq_ok.mp h
        obtain ⟨_, _, h⟩ := Outcome.bind_eq_ok.mp h
        split at h
        next => cases h
        next =>
          obtain ⟨_, _, h⟩ := Outcome.bind_eq_ok.mp h
          obtain ⟨_, _, h⟩ := Outcome.bind_eq_ok.mp h
          split at h
          next => cases h
          next =>
            split at h
            next => cases h
            next hvalid =>
              obtain ⟨rfl, -⟩ := Prod.mk.inj (Except.ok.inj h)
              exact ⟨by simpa using hvalid, by dsimp only; omega⟩
    next => split at h <;> cases h
    next => cases h

/-- Digits stand for a number that is no wider than they are. -/
theorem of_digits_lt (l : List Char) : Decimal.ofDigits l < 10 ^ l.length := by
  induction l using List.reverseRecOn with
  | nil => decide
  | append_singleton l c ih =>
      have hdigit : (Decimal.digit? c).getD 0 ≤ 9 := by
        cases hd : Decimal.digit? c with
        | none => exact Nat.zero_le 9
        | some d =>
            have hread : digitOr "" c = .ok (d : Int) := by rw [digitOr, hd]
            have hbounds := digit_bounds hread
            rw [Option.getD_some]
            omega
      have hlast : Decimal.ofDigits (l ++ [c]) = 10 * Decimal.ofDigits l + (Decimal.digit? c).getD 0 :=
        List.foldl_append
      rw [hlast, List.length_append, List.length_singleton, Nat.pow_succ]
      omega

/-- The microseconds of a fraction are less than a second. -/
theorem fraction_bounds {cs rest : List Char} {n : Int} (h : fraction cs = .ok (n, rest)) :
    0 ≤ n ∧ n < microsPerSecond := by
  unfold fraction at h
  dsimp only at h
  split at h
  next => cases h
  next =>
    obtain ⟨rfl, -⟩ := Prod.mk.inj (Except.ok.inj h)
    have hlt := of_digits_lt ((List.takeWhile Decimal.isDigit cs ++ List.replicate 6 '0').take 6)
    have hlength : ((List.takeWhile Decimal.isDigit cs ++ List.replicate 6 '0').take 6).length = 6 := by simp
    rw [hlength] at hlt
    have hsecond : microsPerSecond = 1000000 := rfl
    omega

/-- Seconds that are read are less than a minute. -/
theorem seconds_bounds {cs rest : List Char} {n : Int} (h : seconds cs = .ok (n, rest)) :
    0 ≤ n ∧ n < microsPerMinute := by
  have hsecond : microsPerSecond = 1000000 := rfl
  have hminute : microsPerMinute = 60000000 := rfl
  rw [hminute]
  unfold seconds at h
  split at h
  next =>
    obtain ⟨⟨s, r⟩, hs, h⟩ := Outcome.bind_eq_ok.mp h
    have hbounds := two_digits_bounds hs
    dsimp only at h
    split at h
    next => cases h
    next =>
      have hwith : ∀ f : List Char, (fraction f).map (fun p => (s * microsPerSecond + p.1, p.2)) = .ok (n, rest) →
          0 ≤ n ∧ n < 60000000 := by
        intro f hf
        obtain ⟨⟨micros, r⟩, hmicros, hn⟩ := Outcome.map_eq_ok.mp hf
        obtain ⟨rfl, -⟩ := Prod.mk.inj hn
        have hfraction := fraction_bounds hmicros
        rw [hsecond] at hfraction ⊢
        omega
      split at h
      next => exact hwith _ h
      next => exact hwith _ h
      next =>
        obtain ⟨rfl, -⟩ := Prod.mk.inj (Except.ok.inj h)
        rw [hsecond]
        omega
  next =>
    obtain ⟨rfl, -⟩ := Prod.mk.inj (Except.ok.inj h)
    decide

/-- A time of day that is read is less than a day. -/
theorem time_bounds {cs rest : List Char} {n : Int} (h : time cs = .ok (n, rest)) : 0 ≤ n ∧ n < microsPerDay := by
  have hlength : microsPerMinute = 60000000 := rfl
  have hday : microsPerDay = 86400000000 := rfl
  unfold time at h
  split at h
  next => cases h
  next =>
    obtain ⟨⟨hour, r⟩, hhour, h⟩ := Outcome.bind_eq_ok.mp h
    have hhours := two_digits_bounds hhour
    dsimp only at h
    split at h
    next => cases h
    next =>
      obtain ⟨⟨minute, r⟩, hminute, h⟩ := Outcome.bind_eq_ok.mp h
      have hminutes := two_digits_bounds hminute
      dsimp only at h
      split at h
      next => cases h
      next =>
        split at h
        next => cases h
        next =>
          obtain ⟨⟨micros, r⟩, hmicros, hn⟩ := Outcome.map_eq_ok.mp h
          obtain ⟨rfl, -⟩ := Prod.mk.inj hn
          have hseconds := seconds_bounds hmicros
          rw [hlength] at hseconds ⊢
          rw [hday]
          omega

/-- An offset that is read is one of whole minutes and less than a day. -/
theorem offset_bounds {cs : List Char} {n : Int} (h : offset cs = .ok n) : n % 60 = 0 ∧ n.natAbs < 86400 := by
  unfold offset at h
  split at h
  next => cases h
  next =>
    split at h
    next =>
      split at h
      next =>
        obtain rfl := Except.ok.inj h
        decide
      next => cases h
    next =>
      dsimp only at h
      split at h
      next => cases h
      next =>
        obtain ⟨⟨hour, r⟩, hhour, h⟩ := Outcome.bind_eq_ok.mp h
        obtain ⟨⟨minute, r⟩, hminute, h⟩ := Outcome.bind_eq_ok.mp h
        have hhours := two_digits_bounds hhour
        have hminutes := two_digits_bounds hminute
        dsimp only at h
        split at h
        next => cases h
        next =>
          split at h
          next => cases h
          next =>
            split at h
            next => cases h
            next =>
              obtain rfl := Except.ok.inj h
              split <;> omega

end Schema.MomentText

namespace Moment

/-- A time of a date that exists can be told, if its offset can. -/
theorem told_of_date {d : Date} {micros : Int} {offset : Option Int} (hvalid : d.isValid = true)
    (hyear : 1 ≤ d.year ∧ d.year ≤ 9999) (hmicros : 0 ≤ micros ∧ micros < microsPerDay)
    (hoffset : ∀ n, offset = some n → n % 60 = 0 ∧ n.natAbs < 86400) : (ofDate d micros offset).IsTold := by
  have hday : microsPerDay = 86400000000 := rfl
  have hdays := Date.to_days_bounds hvalid hyear.1 hyear.2
  refine ⟨in_range_iff.mpr ?_, hoffset⟩
  show 0 ≤ d.toDays * microsPerDay + micros ∧ d.toDays * microsPerDay + micros < daysBeforeYear 10000 * microsPerDay
  rw [hday] at hmicros ⊢
  omega

end Moment

namespace Schema.MomentText

/-- The time of a number of seconds can be told. -/
theorem told_of_seconds {n micros : Int} {m : Moment} (hmicros : 0 ≤ micros ∧ micros < microsPerSecond)
    (h : ofSeconds n micros = .ok m) : m.IsTold := by
  unfold ofSeconds at h
  split at h
  next => cases h
  next =>
    split at h
    next => cases h
    next =>
      obtain rfl := Except.ok.inj h
      refine ⟨Moment.in_range_iff.mpr ?_, fun k hk => ?_⟩
      · have hend : Moment.endOfTime = 315537897600000000 := by decide
        have hepoch : epochDays = 719162 := by decide
        have hsecond : microsPerSecond = 1000000 := rfl
        show 0 ≤ (epochDays * 86400 + n) * microsPerSecond + micros ∧
          (epochDays * 86400 + n) * microsPerSecond + micros < Moment.endOfTime
        rw [hend, hepoch]
        rw [hsecond] at hmicros ⊢
        omega
      · obtain rfl := Option.some.inj hk
        decide

/-- The time of a number of seconds or milliseconds can be told. -/
theorem told_of_timestamp {n micros : Int} {m : Moment} (h : ofTimestamp n micros = .ok m) : m.IsTold := by
  have hrest : ∀ k : Int, 0 ≤ k % microsPerSecond ∧ k % microsPerSecond < microsPerSecond := by
    intro k
    have hsecond : microsPerSecond = 1000000 := rfl
    rw [hsecond]
    omega
  unfold ofTimestamp at h
  split at h
  · exact told_of_seconds (hrest _) h
  · exact told_of_seconds (hrest _) h

/-- What a reason does not turn into an issue is read. -/
theorem or_bad_eq_valid {α : Type} {r : Reading α} {a : α} (h : orBad r = .valid a) : r = .ok a := by
  cases r with
  | ok b => exact congrArg Except.ok (Checked.valid.inj h)
  | error reason => cases h

/-- The time that an integer stands for can be told. -/
theorem told_of_number {n : Int} {m : Moment} (h : ofNumber n = .valid m) : m.IsTold :=
  told_of_timestamp (or_bad_eq_valid h)

/-- The time that a number stands for can be told. -/
theorem told_of_float {x : Float} {m : Moment} (h : ofFloat x = .valid m) : m.IsTold := by
  unfold ofFloat at h
  split at h
  · cases h
  · exact told_of_timestamp (or_bad_eq_valid h)
  · exact told_of_timestamp (or_bad_eq_valid h)
  · exact told_of_timestamp (or_bad_eq_valid h)

/-- Date, time and offset that are read make a time that can be told. -/
theorem told_of_full {bytes : Nat} {cs : List Char} {d : Date} {micros : Int} {n : Option Int}
    (h : full bytes cs = .ok (d, micros, n)) (hyear : 1 ≤ d.year) : (Moment.ofDate d micros n).IsTold := by
  obtain ⟨⟨date, r⟩, hdate, h⟩ := Outcome.bind_eq_ok.mp h
  have hexists := date_bounds hdate
  dsimp only at h
  split at h
  next => cases h
  next =>
    split at h
    next => cases h
    next =>
      obtain ⟨⟨time, r⟩, htime, h⟩ := Outcome.bind_eq_ok.mp h
      have hclock := time_bounds htime
      dsimp only at h
      split at h
      next =>
        cases h
        exact Moment.told_of_date hexists.1 ⟨hyear, hexists.2⟩ hclock nofun
      next =>
        obtain ⟨k, hk, heq⟩ := Outcome.map_eq_ok.mp h
        cases heq
        refine Moment.told_of_date hexists.1 ⟨hyear, hexists.2⟩ hclock fun l hl => ?_
        obtain rfl := Option.some.inj hl
        exact offset_bounds hk

end Schema.MomentText

/-- A time that is read of a text can be told. -/
theorem Moment.told_of_read {s : String} {m : Moment} (h : Schema.MomentText.read s = .valid m) : m.IsTold := by
  unfold Schema.MomentText.read at h
  dsimp only at h
  split at h
  next hfull =>
    split at h
    next => cases h
    next hyear =>
      obtain rfl := Checked.valid.inj h
      exact Schema.MomentText.told_of_full hfull (by omega)
  next =>
    split at h
    next hstamp =>
      obtain rfl := Checked.valid.inj h
      obtain ⟨⟨n, micros⟩, _, hn⟩ := Option.bind_eq_some_iff.mp hstamp
      cases hread : Schema.MomentText.ofTimestamp n micros with
      | error reason =>
          rw [hread] at hn
          cases hn
      | ok k =>
          rw [hread] at hn
          obtain rfl := Option.some.inj hn
          exact Schema.MomentText.told_of_timestamp hread
    next =>
      split at h
      next hdate =>
        split at h
        next => cases h
        next hyear =>
          obtain rfl := Checked.valid.inj h
          have hexists := Schema.MomentText.date_bounds hdate
          have hday : microsPerDay = 86400000000 := rfl
          exact told_of_date hexists.1 ⟨by omega, hexists.2⟩ (by omega) nofun
      next => cases h
      next => cases h

end Rulebook
