import CodeSurvey.Proofs.Number.Layout
import CodeSurvey.Proofs.Time.Calendar
import CodeSurvey.Time.Stamp
import Mathlib.Data.List.TakeWhile

/-!
# Reading time stamps

The time stamp of a point in time is read as this point in time again, and only such points in
time are read from any text.
-/

namespace CodeSurvey

open Json.Number.Literal (AllDigits Breaks)

namespace Text

/-!
# Digits
-/

namespace Decimal

theorem isDigit_iff {c : Char} : isDigit c = true ↔ 48 ≤ c.toNat ∧ c.toNat ≤ 57 := by
  unfold isDigit
  rw [Bool.and_eq_true, decide_eq_true_iff, decide_eq_true_iff]
  rfl

theorem length_digits_le {n width : Nat} (hwidth : 0 < width) (h : n < 10 ^ width) :
    (digits n).length ≤ width := by
  fun_induction digits n generalizing width with
  | case1 n hn => exact hwidth
  | case2 n hn ih =>
      cases width with
      | zero => cases hwidth
      | succ width =>
          rw [List.length_append]
          have hlt : n / 10 < 10 ^ width := by
            rw [Nat.pow_succ] at h
            omega
          have hpos : 0 < width := by
            rcases Nat.eq_zero_or_pos width with rfl | hpos
            · simp at hlt
              omega
            · exact hpos
          exact Nat.succ_le_succ (ih hpos hlt)

theorem length_padded {n width : Nat} (hwidth : 0 < width) (h : n < 10 ^ width) :
    (padded width n).length = width := by
  have hle := length_digits_le hwidth h
  unfold padded
  simp only [List.length_append, List.length_replicate]
  omega

theorem value_padded (width n : Nat) : value (padded width n) = n := by
  unfold padded
  rw [value_append, value_zeros, value_digits]
  omega

theorem allDigits_padded (width n : Nat) : AllDigits (padded width n) := by
  intro c hc
  cases List.mem_append.mp hc with
  | inl hc =>
      rw [List.eq_of_mem_replicate hc]
      rfl
  | inr hc => exact isDigit_of_mem_digits hc

theorem padded_ne_nil (width n : Nat) : padded width n ≠ [] := fun h =>
  digits_ne_nil n (List.append_eq_nil_iff.mp h).2

theorem value_lt {ds : List Char} (h : AllDigits ds) : value ds < 10 ^ ds.length := by
  induction ds using List.reverseRecOn with
  | nil => decide
  | append_singleton ds d ih =>
      have hds := ih fun c hc => h c (List.mem_append_left _ hc)
      have hd : digitValue d < 10 := by
        have hdigit := isDigit_iff.mp (h d (List.mem_append_right _ (List.mem_singleton.mpr rfl)))
        exact Nat.sub_lt_left_of_lt_add hdigit.1 (Nat.lt_succ_of_le hdigit.2)
      rw [value_append_singleton, List.length_append, List.length_singleton, Nat.pow_succ]
      omega

end Decimal
end Text

namespace Time

/-- A point in time that a time stamp can show: its year is in the range of the years, and the
nanoseconds run on past a second only in the last second of a minute. -/
structure Instant.Printable (t : Instant) : Prop where
  year : Stamp.yearInRange (Stamp.date t).year = true
  nanos : t.nanos < 2 * nanosPerSecond
  leap : nanosPerSecond ≤ t.nanos -> t.seconds % 60 = 59

namespace Stamp

open Text.Decimal (isDigit padded value)

theorem trimStart_cons {c : Char} (h : Text.Blank.isBlank c = false) (cs : List Char) :
    Text.Blank.trimStart (c :: cs) = c :: cs :=
  List.dropWhile_cons_of_neg (by rw [h]; exact Bool.false_ne_true)

theorem isBlank_eq_false {c : Char} (h : isDigit c = true) : Text.Blank.isBlank c = false := by
  rcases Text.Decimal.isDigit_iff.mp h with ⟨hlow, hhigh⟩
  unfold Text.Blank.isBlank Text.Blank.ranges
  simp only [List.any_cons, List.any_nil, Bool.or_eq_false_iff, Bool.and_eq_false_iff,
    decide_eq_false_iff_not, and_true]
  omega

theorem trimStart_digits {ds : List Char} (hne : ds ≠ []) (h : AllDigits ds) (rest : List Char) :
    Text.Blank.trimStart (ds ++ rest) = ds ++ rest := by
  cases ds with
  | nil => exact absurd rfl hne
  | cons d ds => exact trimStart_cons (isBlank_eq_false (h d List.mem_cons_self)) _

theorem trimStart_padded (width n : Nat) (rest : List Char) :
    Text.Blank.trimStart (padded width n ++ rest) = padded width n ++ rest :=
  trimStart_digits (Text.Decimal.padded_ne_nil width n) (Text.Decimal.allDigits_padded width n) rest

/-!
# Reading what is written
-/

theorem number_append {width : Nat} {ds rest : List Char} (hne : ds ≠ []) (hall : AllDigits ds)
    (hwidth : ds.length ≤ width) (hrest : Breaks (rest.take (width - ds.length))) :
    number width (ds ++ rest) = some (value ds, rest) := by
  have htake : ((ds ++ rest).take width).takeWhile isDigit = ds := by
    rw [List.take_append, List.take_of_length_le hwidth]
    exact (Json.Number.Literal.takeWhile_append hall hrest).1
  unfold number
  simp only [htake]
  rw [if_neg (by rwa [List.isEmpty_iff]), List.drop_left]

theorem number_padded {width n : Nat} (hwidth : 0 < width) (h : n < 10 ^ width)
    (rest : List Char) : number width (padded width n ++ rest) = some (n, rest) := by
  have hlength := Text.Decimal.length_padded hwidth h
  have hrest : Breaks (rest.take (width - (padded width n).length)) := by
    rw [hlength, Nat.sub_self]
    exact nofun
  rw [number_append (Text.Decimal.padded_ne_nil width n) (Text.Decimal.allDigits_padded width n)
    (Nat.le_of_eq hlength) hrest, Text.Decimal.value_padded]

theorem number_length {width n : Nat} {rest : List Char} (hrest : Breaks rest) :
    number (padded width n ++ rest).length (padded width n ++ rest) = some (n, rest) := by
  have htake : rest.take ((padded width n ++ rest).length - (padded width n).length) = rest := by
    rw [List.length_append, Nat.add_sub_cancel_left, List.take_length]
  have hle : (padded width n).length ≤ (padded width n ++ rest).length := by
    rw [List.length_append]
    exact Nat.le_add_right _ _
  rw [number_append (Text.Decimal.padded_ne_nil width n) (Text.Decimal.allDigits_padded width n)
    hle (htake.symm ▸ hrest), Text.Decimal.value_padded]

theorem bounded_padded {low high n : Nat} (h : n < 100) (hlow : low ≤ n) (hhigh : n ≤ high)
    (rest : List Char) : bounded low high (padded 2 n ++ rest) = some (n, rest) := by
  unfold bounded
  rw [trimStart_padded, number_padded (by decide) h]
  exact if_pos ⟨hlow, hhigh⟩

theorem year_digits {ds : List Char} (hne : ds ≠ []) (h : AllDigits ds) (rest : List Char) :
    year (ds ++ rest) = (number 4 (ds ++ rest)).map fun (n, rest) => ((n : Int), rest) := by
  unfold year
  rw [trimStart_digits hne h]
  cases ds with
  | nil => exact absurd rfl hne
  | cons d ds =>
      have hd := h d List.mem_cons_self
      split
      next heq =>
        cases heq
        cases hd
      next heq =>
        cases heq
        cases hd
      next => rfl

theorem year_yearChars (y : Int) {rest : List Char} (hrest : Breaks rest) :
    year (yearChars y ++ rest) = some (y, rest) := by
  unfold yearChars
  split
  next h =>
    have hlt : y.toNat < 10 ^ 4 := by omega
    rw [year_digits (Text.Decimal.padded_ne_nil _ _) (Text.Decimal.allDigits_padded _ _),
      number_padded (by decide) hlt]
    show some ((y.toNat : Int), rest) = _
    rw [Int.toNat_of_nonneg h.1]
  next hwide =>
    split
    next hneg =>
      show (number (padded 4 y.natAbs ++ rest).length (padded 4 y.natAbs ++ rest)).map _ = _
      rw [number_length hrest]
      show some (-(y.natAbs : Int), rest) = _
      rw [Int.ofNat_natAbs_of_nonpos (Int.le_of_lt hneg), Int.neg_neg]
    next hpos =>
      show (number (padded 4 y.natAbs ++ rest).length (padded 4 y.natAbs ++ rest)).map _ = _
      rw [number_length hrest]
      show some ((y.natAbs : Int), rest) = _
      rw [Int.natAbs_of_nonneg (Int.not_lt.mp hpos)]

theorem fraction_digits {ds rest : List Char} (hne : ds ≠ []) (h : AllDigits ds)
    (hlength : ds.length ≤ 9) (hrest : Breaks rest) :
    fraction ('.' :: ds ++ rest) = some (value ds * 10 ^ (9 - ds.length), rest) := by
  have hsplit := Json.Number.Literal.takeWhile_append h hrest
  show fraction ('.' :: (ds ++ rest)) = _
  unfold fraction
  simp only [hsplit.1, List.take_of_length_le hlength]
  rw [if_neg (by rwa [List.isEmpty_iff]), List.drop_left]
  rfl

theorem fraction_padded {width n : Nat} (hwidth : 0 < width) (hnine : width ≤ 9)
    (h : n < 10 ^ width) {rest : List Char} (hrest : Breaks rest) :
    fraction ('.' :: padded width n ++ rest) = some (n * 10 ^ (9 - width), rest) := by
  have hlength := Text.Decimal.length_padded hwidth h
  rw [fraction_digits (Text.Decimal.padded_ne_nil _ _) (Text.Decimal.allDigits_padded _ _)
    (Nat.le_trans (Nat.le_of_eq hlength) hnine) hrest, hlength, Text.Decimal.value_padded]

theorem fraction_fractionChars (t : Instant) :
    fraction (fractionChars t ++ ['Z']) = some (t.nanos % Instant.nanosPerSecond, ['Z']) := by
  have hrest : Breaks ['Z'] := by
    rintro _ ⟨⟩
    rfl
  have hlt : t.nanos % Instant.nanosPerSecond < 1000000000 := Nat.mod_lt _ (by decide)
  unfold fractionChars
  generalize t.nanos % Instant.nanosPerSecond = nanos at hlt
  simp only
  split
  next hzero =>
    rw [hzero]
    rfl
  next =>
    split
    next hmillis =>
      rw [fraction_padded (by decide) (by decide) (by omega) hrest]
      show some (nanos / 1000000 * 1000000, _) = _
      rw [Nat.div_mul_cancel (Nat.dvd_of_mod_eq_zero hmillis)]
    next =>
      split
      next hmicros =>
        rw [fraction_padded (by decide) (by decide) (by omega) hrest]
        show some (nanos / 1000 * 1000, _) = _
        rw [Nat.div_mul_cancel (Nat.dvd_of_mod_eq_zero hmicros)]
      next =>
        rw [fraction_padded (by decide) (by decide) hlt hrest]
        show some (nanos * 1, _) = _
        rw [Nat.mul_one]

def secondOfDay (t : Instant) : Nat :=
  (t.seconds.fmod secondsPerDay).toNat

def shownSecond (t : Instant) : Nat :=
  secondOfDay t % 60 + if t.nanos ≥ Instant.nanosPerSecond then 1 else 0

theorem chars_eq (t : Instant) :
    chars fractionChars ['Z'] t =
      yearChars (date t).year ++ '-' :: (padded 2 (date t).month ++ '-' ::
        (padded 2 (date t).day ++ 'T' :: (padded 2 (secondOfDay t / 3600) ++ ':' ::
          (padded 2 (secondOfDay t / 60 % 60) ++ ':' ::
            (padded 2 (shownSecond t) ++ (fractionChars t ++ ['Z'])))))) := by
  unfold chars dateChars clockChars secondOfDay shownSecond secondOfDay
  simp only [List.append_assoc, List.cons_append]

theorem secondOfDay_spec (t : Instant) :
    secondOfDay t < 86400 ∧
      t.seconds.fdiv secondsPerDay * secondsPerDay + (secondOfDay t : Int) = t.seconds := by
  have hnonneg : 0 ≤ t.seconds.fmod secondsPerDay := Int.fmod_nonneg_of_pos _ (by decide)
  have hlt : t.seconds.fmod secondsPerDay < secondsPerDay := Int.fmod_lt_of_pos _ (by decide)
  constructor
  · exact (Int.toNat_lt hnonneg).mpr hlt
  · unfold secondOfDay
    rw [Int.toNat_of_nonneg hnonneg, Int.mul_comm]
    exact Int.mul_fdiv_add_fmod _ _

/-- Second 60 is shown in a leap second only. -/
theorem shownSecond_eq_iff {t : Instant} (h : t.Printable) :
    shownSecond t = 60 ↔ Instant.nanosPerSecond ≤ t.nanos := by
  rcases secondOfDay_spec t with ⟨_, hsum⟩
  unfold secondsPerDay at hsum
  unfold shownSecond
  split
  next hnanos =>
    have hleap := h.leap hnanos
    omega
  next hnanos => omega

theorem instant_eq {t : Instant} (h : t.Printable) :
    ({ seconds := (date t).days * secondsPerDay + (secondOfDay t / 3600 * 3600 +
          secondOfDay t / 60 % 60 * 60 +
          (if shownSecond t = 60 then 59 else shownSecond t) : Nat) - 0
       nanos := if shownSecond t = 60 then
          Instant.nanosPerSecond + t.nanos % Instant.nanosPerSecond
        else t.nanos % Instant.nanosPerSecond } : Instant) = t := by
  rcases secondOfDay_spec t with ⟨hlt, hsum⟩
  have hdays : (date t).days = t.seconds.fdiv secondsPerDay := Date.days_ofDays _
  have hshown := shownSecond_eq_iff h
  have hbound := h.nanos
  have hclock : secondOfDay t / 3600 * 3600 + secondOfDay t / 60 % 60 * 60 +
      (if shownSecond t = 60 then 59 else shownSecond t) = secondOfDay t := by
    have hsecond : (if shownSecond t = 60 then 59 else shownSecond t) = secondOfDay t % 60 := by
      split
      next hleap =>
        unfold shownSecond at hleap
        rw [if_pos (hshown.mp hleap)] at hleap
        omega
      next hcommon =>
        unfold shownSecond
        rw [if_neg fun hle => hcommon (hshown.mpr hle), Nat.add_zero]
    rw [hsecond]
    omega
  have hnanos : (if shownSecond t = 60 then
        Instant.nanosPerSecond + t.nanos % Instant.nanosPerSecond
      else t.nanos % Instant.nanosPerSecond) = t.nanos := by
    split
    next hleap =>
      have hle := hshown.mp hleap
      rw [Nat.mod_eq_sub_mod hle, Nat.mod_eq_of_lt (by omega)]
      omega
    next hcommon => exact Nat.mod_eq_of_lt (Nat.lt_of_not_le fun hle => hcommon (hshown.mpr hle))
  rw [hclock, hnanos, hdays, hsum, Int.sub_zero]

/-- The time stamp of a point in time is read as this point in time. -/
theorem ofText?_zulu {t : Instant} (h : t.Printable) : ofText? (zulu t) = some t := by
  have hvalid : (date t).isValid = true := Date.isValid_ofDays _
  rcases Date.isValid_iff.mp hvalid with ⟨hmonth, hmonth', hday, hday'⟩
  have hlast := Nat.le_trans hday' (Date.daysInMonth_le _ _)
  rcases secondOfDay_spec t with ⟨hlt, _⟩
  have hshown : shownSecond t ≤ 60 := by
    unfold shownSecond
    split
    · omega
    · omega
  unfold ofText? zulu
  rw [String.toList_ofList, chars_eq]
  unfold read?
  -- One part after the other is read, and the rest of the text is left for the next one.
  refine Option.bind_eq_some_iff.mpr ⟨_, year_yearChars _ (by rintro _ ⟨⟩; rfl), ?_⟩
  refine Option.bind_eq_some_iff.mpr ⟨_, rfl, ?_⟩
  refine Option.bind_eq_some_iff.mpr ⟨_, bounded_padded (by omega) hmonth hmonth' _, ?_⟩
  refine Option.bind_eq_some_iff.mpr ⟨_, rfl, ?_⟩
  refine Option.bind_eq_some_iff.mpr ⟨_, bounded_padded (by omega) hday hlast _, ?_⟩
  refine Option.bind_eq_some_iff.mpr ⟨_, rfl, ?_⟩
  refine Option.bind_eq_some_iff.mpr ⟨_, bounded_padded (by omega) (by omega) (by omega) _, ?_⟩
  refine Option.bind_eq_some_iff.mpr ⟨_, rfl, ?_⟩
  refine Option.bind_eq_some_iff.mpr ⟨_, bounded_padded (by omega) (by omega) (by omega) _, ?_⟩
  refine Option.bind_eq_some_iff.mpr ⟨_, rfl, ?_⟩
  refine Option.bind_eq_some_iff.mpr ⟨_, bounded_padded (by omega) (by omega) hshown _, ?_⟩
  refine Option.bind_eq_some_iff.mpr ⟨_, fraction_fractionChars t, ?_⟩
  refine Option.bind_eq_some_iff.mpr ⟨_, rfl, ?_⟩
  simp only
  rw [instant_eq h, if_pos h.year, if_pos]
  simp only [Bool.and_eq_true]
  exact ⟨⟨⟨rfl, hvalid⟩, h.year⟩, rfl⟩

-- A leap second, in a year with a sign.
example : ofText? "+12016-12-31T23:59:60.5Z" =
    some { seconds := 317052748799, nanos := 1500000000 } := by
  decide +kernel

/-!
# What is read
-/

theorem fraction_lt {cs rest : List Char} {n : Nat} (h : fraction cs = some (n, rest)) :
    n < Instant.nanosPerSecond := by
  unfold fraction at h
  split at h
  next digits =>
    let counted := (digits.takeWhile isDigit).take 9
    have hall : AllDigits counted := fun c hc =>
      List.mem_takeWhile_imp (List.mem_of_mem_take hc)
    have hlength : counted.length ≤ 9 := List.length_take_le _ _
    have hnanos : value counted * 10 ^ (9 - counted.length) < 10 ^ 9 := by
      calc value counted * 10 ^ (9 - counted.length)
          < 10 ^ counted.length * 10 ^ (9 - counted.length) :=
            Nat.mul_lt_mul_of_pos_right (Text.Decimal.value_lt hall) (by positivity)
        _ = 10 ^ 9 := by rw [← Nat.pow_add, Nat.add_sub_cancel' hlength]
    simp only [Option.ite_none_left_eq_some] at h
    rcases h with ⟨_, ⟨⟩⟩
    exact hnanos
  next =>
    cases h
    decide

theorem zone_mod {cs rest : List Char} {shift : Int} (h : zone cs = some (shift, rest)) :
    shift % 60 = 0 := by
  unfold zone at h
  split at h
  next =>
    cases h
    rfl
  next =>
    cases h
    rfl
  next =>
    split at h
    next =>
      cases h
      rfl
    next =>
      rcases Option.bind_eq_some_iff.mp h with ⟨sign, _, h⟩
      rcases Option.bind_eq_some_iff.mp h with ⟨⟨hours, _⟩, _, h⟩
      rcases Option.bind_eq_some_iff.mp h with ⟨⟨minutes, _⟩, _, h⟩
      cases h
      have hminutes : 60 ∣ hours * 3600 + minutes * 60 := by omega
      exact Int.emod_eq_zero_of_dvd (Dvd.dvd.mul_left (Int.natCast_dvd_natCast.mpr hminutes) sign)
  next => cases h

theorem printable_of_ofText? {s : String} {t : Instant} (h : ofText? s = some t) :
    t.Printable := by
  unfold ofText? read? at h
  rcases Option.bind_eq_some_iff.mp h with ⟨⟨year, _⟩, _, h⟩
  rcases Option.bind_eq_some_iff.mp h with ⟨_, _, h⟩
  rcases Option.bind_eq_some_iff.mp h with ⟨⟨month, _⟩, _, h⟩
  rcases Option.bind_eq_some_iff.mp h with ⟨_, _, h⟩
  rcases Option.bind_eq_some_iff.mp h with ⟨⟨day, _⟩, _, h⟩
  rcases Option.bind_eq_some_iff.mp h with ⟨_, _, h⟩
  rcases Option.bind_eq_some_iff.mp h with ⟨⟨hour, _⟩, _, h⟩
  rcases Option.bind_eq_some_iff.mp h with ⟨_, _, h⟩
  rcases Option.bind_eq_some_iff.mp h with ⟨⟨minute, _⟩, _, h⟩
  rcases Option.bind_eq_some_iff.mp h with ⟨_, _, h⟩
  rcases Option.bind_eq_some_iff.mp h with ⟨⟨second, _⟩, _, h⟩
  rcases Option.bind_eq_some_iff.mp h with ⟨⟨nanos, _⟩, hnanos, h⟩
  rcases Option.bind_eq_some_iff.mp h with ⟨⟨shift, _⟩, hshift, h⟩
  have hlt := fraction_lt hnanos
  have hwhole := zone_mod hshift
  simp only [Option.ite_none_right_eq_some] at h
  rcases h with ⟨_, hyear, ⟨⟩⟩
  constructor
  case year => exact hyear
  case nanos =>
    simp only
    split
    · omega
    · omega
  case leap =>
    unfold secondsPerDay
    simp only
    split
    next => omega
    next => exact fun hle => absurd hlt (Nat.not_lt.mpr hle)

end Stamp
end Time
end CodeSurvey
