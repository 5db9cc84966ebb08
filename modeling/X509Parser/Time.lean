import X509Parser.Ber.Primitives

/-!
# ASN.1 times

`ASN1Time::from_der` reads a UTCTime or a GeneralizedTime into a date and a time of day. The
time primitive is an external collaborator of the decoder (spec §6), so it is modelled from
the spec, in the profile of RFC 5280: `YYMMDDHHMMSSZ` with two-digit years meaning 1950 to
2049, or `YYYYMMDDHHMMSSZ`, and a date that exists.
-/

namespace X509Parser

set_option autoImplicit false

open Parser

def daysInMonth (year month : Nat) : Nat :=
  if month = 2 then
    if year % 4 = 0 ∧ (year % 100 ≠ 0 ∨ year % 400 = 0) then 29 else 28
  else if month = 4 ∨ month = 6 ∨ month = 9 ∨ month = 11 then 30 else 31

/-- A date that exists and a time of day, to the second, in a four-digit year. -/
def dateTimeValid (year month day hour minute second : Nat) : Bool :=
  decide (year < 10000 ∧ 1 ≤ month ∧ month ≤ 12 ∧ 1 ≤ day ∧ day ≤ daysInMonth year month ∧
    hour < 24 ∧ minute < 60 ∧ second < 60)

/-- `ASN1Time`: a UTC date and time of day. -/
structure ASN1Time where
  year : Nat
  month : Nat
  day : Nat
  hour : Nat
  minute : Nat
  second : Nat
  valid : dateTimeValid year month day hour minute second = true
  deriving DecidableEq

/-! ## Order and difference of times -/

/-- Days from the first of January of year 0 to that of `year`, in the proleptic Gregorian
calendar. -/
def daysBeforeYear (year : Nat) : Nat :=
  365 * year + (year + 3) / 4 - (year + 99) / 100 + (year + 399) / 400

/-- Days from the first of January to the first of `month`. -/
def daysBeforeMonth (year month : Nat) : Nat :=
  ((List.range (month - 1)).map fun m => daysInMonth year (m + 1)).sum

/-- Modelled from the spec: the instant an `ASN1Time` names, in seconds from the start of
year 0. `ASN1Time`'s order and difference, in `time.rs`, not in `src/`, are those of the
instants; times are to the second, as the decoder reads them. -/
def ASN1Time.timestamp (t : ASN1Time) : Nat :=
  (((daysBeforeYear t.year + daysBeforeMonth t.year t.month + (t.day - 1)) * 24 + t.hour) * 60 +
    t.minute) * 60 + t.second

instance : LE ASN1Time := ⟨fun a b => a.timestamp ≤ b.timestamp⟩

instance : LT ASN1Time := ⟨fun a b => a.timestamp < b.timestamp⟩

instance (a b : ASN1Time) : Decidable (a ≤ b) := inferInstanceAs (Decidable (a.timestamp ≤ b.timestamp))

instance (a b : ASN1Time) : Decidable (a < b) := inferInstanceAs (Decidable (a.timestamp < b.timestamp))

theorem ASN1Time.le_def (a b : ASN1Time) : a ≤ b ↔ a.timestamp ≤ b.timestamp := Iff.rfl

theorem ASN1Time.lt_def (a b : ASN1Time) : a < b ↔ a.timestamp < b.timestamp := Iff.rfl

/-- Modelled from the spec: `ASN1Time - ASN1Time`, the `std::time::Duration` from `b` to `a` in
seconds, or `None` when `b` is the later, whose duration would be negative. -/
def ASN1Time.sub (a b : ASN1Time) : Option Nat :=
  if b ≤ a then some (a.timestamp - b.timestamp) else none

/-- The value of some ASCII decimal digits, when they all are digits. -/
def decimal (bs : List UInt8) : Option Nat :=
  if bs.all fun b => 48 ≤ b.toNat && b.toNat ≤ 57 then
    some (hornerFrom 10 0 (bs.map fun b => b.toNat - 48))
  else none

/-- Consecutive decimal fields of the given widths, followed by the final `Z`. -/
def decimalFields : List Nat → List UInt8 → Option (List Nat)
  | [], bs => if bs = [90] then some [] else none
  | w :: ws, bs =>
    if w ≤ bs.length then
      match decimal (bs.take w), decimalFields ws (bs.drop w) with
      | some v, some vs => some (v :: vs)
      | _, _ => none
    else none

def mkTime (year month day hour minute second : Nat) : Option ASN1Time :=
  if h : dateTimeValid year month day hour minute second = true then
    some ⟨year, month, day, hour, minute, second, h⟩
  else none

/-- The content of a UTCTime, `YYMMDDHHMMSSZ`. -/
def utcTimeOfContent (c : List UInt8) : Option ASN1Time :=
  match decimalFields [2, 2, 2, 2, 2, 2] c with
  | some [yy, mo, d, h, mi, s] => mkTime (if yy < 50 then 2000 + yy else 1900 + yy) mo d h mi s
  | _ => none

/-- The content of a GeneralizedTime, `YYYYMMDDHHMMSSZ`. -/
def generalizedTimeOfContent (c : List UInt8) : Option ASN1Time :=
  match decimalFields [4, 2, 2, 2, 2, 2] c with
  | some [y, mo, d, h, mi, s] => mkTime y mo d h mi s
  | _ => none

/-- Modelled from the spec: `time::map_res(parse_der_*time, der_to_utctime)`, not in `src/`:
an element with the given tag whose content decodes to a time. -/
def parseTimeWithTag (tag : UInt32) (decode : List UInt8 → Option ASN1Time) :
    Parser ASN1Time := do
  let c ← berContentWithTag tag
  match decode c.bytes with
  | some t => pure t
  | none => fail (.nomError .mapRes)

/-- Modelled from the spec: `time::parse_choice_of_time`, not in `src/`, reads a UTCTime or
else a GeneralizedTime. -/
def parseChoiceOfTime : Parser ASN1Time :=
  alt (complete (parseTimeWithTag BerTag.utcTime utcTimeOfContent))
    (complete (parseTimeWithTag BerTag.generalizedTime generalizedTimeOfContent))

/-- Modelled from the spec: `ASN1Time::from_der`, not in `src/`, reads a time or fails with
`InvalidDate`. -/
def ASN1Time.fromDer : Parser ASN1Time := parseChoiceOfTime.orError .invalidDate

/-- Modelled from the spec: `ASN1Time::from_der_opt`, not in `src/`, reads a time if one is
there, and otherwise nothing. -/
def ASN1Time.fromDerOpt : Parser (Option ASN1Time) := (opt parseChoiceOfTime).orError .invalidDate

theorem parseChoiceOfTime_advances : parseChoiceOfTime.Advances :=
  have ht : ∀ tag decode, (parseTimeWithTag tag decode).Advances := fun _ _ =>
    Advances.bind' (Advances.berContentWithTag' _) fun _ => by
      split
      · exact Advances.pure' _
      · exact Advances.fail' _
  Advances.alt' (Advances.complete' (ht _ _)) (Advances.complete' (ht _ _))

theorem ASN1Time.fromDer_advances : ASN1Time.fromDer.Advances :=
  Advances.orError' _ parseChoiceOfTime_advances

theorem ASN1Time.fromDerOpt_advances : ASN1Time.fromDerOpt.Advances :=
  Advances.orError' _ (Advances.opt' parseChoiceOfTime_advances)

theorem parseChoiceOfTime_neverPanics : parseChoiceOfTime.NeverPanics :=
  have ht : ∀ tag decode, (parseTimeWithTag tag decode).NeverPanics := fun _ _ =>
    NeverPanics.bind' (NeverPanics.berContentWithTag' _) fun _ => by
      split
      · exact NeverPanics.pure' _
      · exact NeverPanics.fail' _
  NeverPanics.alt' (NeverPanics.complete' (ht _ _)) (NeverPanics.complete' (ht _ _))

theorem ASN1Time.fromDer_neverPanics : ASN1Time.fromDer.NeverPanics :=
  NeverPanics.orError' _ parseChoiceOfTime_neverPanics

theorem ASN1Time.fromDerOpt_neverPanics : ASN1Time.fromDerOpt.NeverPanics :=
  NeverPanics.orError' _ (NeverPanics.opt' parseChoiceOfTime_neverPanics)

/-! ## The DER encoding of a time -/

/-- `n` in `k` ASCII decimal digits. -/
def asciiDigits (k n : Nat) : List UInt8 := (digitsBE 10 k n).map fun d => UInt8.ofNat (48 + d)

/-- The digits after the year, `MMDDHHMMSSZ`. -/
def encodeMonthToSecond (t : ASN1Time) : List UInt8 :=
  asciiDigits 2 t.month ++ asciiDigits 2 t.day ++ asciiDigits 2 t.hour ++
    asciiDigits 2 t.minute ++ asciiDigits 2 t.second ++ [90]

/-- RFC 5280, 4.1.2.5: UTCTime for the years 1950 to 2049, GeneralizedTime otherwise. -/
def encodeTime (t : ASN1Time) : List UInt8 :=
  if 1950 ≤ t.year ∧ t.year < 2050 then
    encodeTLV .universal false BerTag.utcTime (asciiDigits 2 (t.year % 100) ++ encodeMonthToSecond t)
  else encodeTLV .universal false BerTag.generalizedTime (asciiDigits 4 t.year ++ encodeMonthToSecond t)

/-! ## A time reads back from its encoding -/

theorem decimal_asciiDigits (k n : Nat) : decimal (asciiDigits k n) = some (n % 10 ^ k) := by
  have hd : ∀ d ∈ digitsBE 10 k n, (UInt8.ofNat (48 + d)).toNat = 48 + d := fun d hd =>
    toNat_ofNat_digit (by have := digitsBE_lt (by decide) hd; omega)
  have hall : (asciiDigits k n).all (fun b => 48 ≤ b.toNat && b.toNat ≤ 57) = true := by
    rw [List.all_eq_true]
    intro b hb
    obtain ⟨d, hmem, rfl⟩ := List.mem_map.mp hb
    have := digitsBE_lt (by decide : 0 < 10) hmem
    simp [hd d hmem]; omega
  have hmap : (asciiDigits k n).map (fun b => b.toNat - 48) = digitsBE 10 k n := by
    simp only [asciiDigits, List.map_map]
    conv => rhs; rw [← List.map_id (digitsBE 10 k n)]
    exact List.map_congr_left fun d hmem => by simp [hd d hmem]
  rw [decimal, if_pos hall, hmap, hornerFrom_digitsBE]

theorem decimalFields_asciiDigits (w : Nat) (ws : List Nat) (n : Nat) (bs : List UInt8) :
    decimalFields (w :: ws) (asciiDigits w n ++ bs) =
      (decimalFields ws bs).map (n % 10 ^ w :: ·) := by
  have hlen : (asciiDigits w n).length = w := by simp [asciiDigits]
  simp only [decimalFields, List.length_append, hlen, Nat.le_add_right, if_true,
    List.take_left' hlen, List.drop_left' hlen, decimal_asciiDigits]
  cases decimalFields ws bs <;> rfl

theorem fields_lt_of_valid (t : ASN1Time) :
    t.year < 10000 ∧ 1 ≤ t.month ∧ t.month ≤ 12 ∧ 1 ≤ t.day ∧ t.day ≤ 31 ∧ t.hour < 24 ∧
      t.minute < 60 ∧ t.second < 60 := by
  have hv := t.valid
  have hdays : daysInMonth t.year t.month ≤ 31 := by unfold daysInMonth; split_ifs <;> omega
  simp only [dateTimeValid, decide_eq_true_eq] at hv
  omega

theorem mkTime_fields (t : ASN1Time) :
    mkTime t.year t.month t.day t.hour t.minute t.second = some t := by
  simp [mkTime, t.valid]

theorem decimalFields_encodeMonthToSecond (w : Nat) (y : Nat) (t : ASN1Time) :
    decimalFields [w, 2, 2, 2, 2, 2] (asciiDigits w y ++ encodeMonthToSecond t) =
      some [y % 10 ^ w, t.month, t.day, t.hour, t.minute, t.second] := by
  obtain ⟨-, -, hm, -, hd, hh, hmi, hs⟩ := fields_lt_of_valid t
  have h2 : ∀ k : Nat, k < 100 → k % 10 ^ 2 = k := fun k hk => Nat.mod_eq_of_lt hk
  simp only [encodeMonthToSecond, List.append_assoc, decimalFields_asciiDigits,
    h2 _ (by omega : t.month < 100), h2 _ (by omega : t.day < 100), h2 _ (by omega : t.hour < 100),
    h2 _ (by omega : t.minute < 100), h2 _ (by omega : t.second < 100)]
  rfl

theorem utcTimeOfContent_encode (t : ASN1Time) (hutc : 1950 ≤ t.year ∧ t.year < 2050) :
    utcTimeOfContent (asciiDigits 2 (t.year % 100) ++ encodeMonthToSecond t) = some t := by
  have hyear : (if t.year % 100 % 10 ^ 2 < 50 then 2000 + t.year % 100 % 10 ^ 2
      else 1900 + t.year % 100 % 10 ^ 2) = t.year := by
    split <;> omega
  simp only [utcTimeOfContent, decimalFields_encodeMonthToSecond, hyear, mkTime_fields]

theorem generalizedTimeOfContent_encode (t : ASN1Time) :
    generalizedTimeOfContent (asciiDigits 4 t.year ++ encodeMonthToSecond t) = some t := by
  have hy : t.year % 10 ^ 4 = t.year := Nat.mod_eq_of_lt (fields_lt_of_valid t).1
  simp only [generalizedTimeOfContent, decimalFields_encodeMonthToSecond, hy, mkTime_fields]

section RoundTrip

variable (pos : Nat) (rest : List UInt8)

theorem parseTimeWithTag_encodeTLV (tag : UInt32) (decode : List UInt8 → Option ASN1Time)
    (content : List UInt8) (hc : content.length < 2 ^ 64) {t : ASN1Time}
    (hd : decode content = some t) :
    parseTimeWithTag tag decode ⟨pos, encodeTLV .universal false tag content ++ rest⟩ =
      .ok ⟨pos + (encodeTLV .universal false tag content).length, rest⟩ t := by
  simp [parseTimeWithTag, berContentWithTag_encodeTLV pos rest _ _ _ _ hc, hd]

theorem parseTimeWithTag_other (decode : List UInt8 → Option ASN1Time) (c : BerClass) (st : Bool)
    {tag tag' : UInt32} (ht : tag' ≠ tag) (content : List UInt8) (hc : content.length < 2 ^ 64) :
    parseTimeWithTag tag decode ⟨pos, encodeTLV c st tag' content ++ rest⟩ =
      .error (.der .invalidTag) := by
  simp [parseTimeWithTag, berContentWithTag_other pos rest c st ht content hc]

theorem length_encodeMonthToSecond (t : ASN1Time) : (encodeMonthToSecond t).length = 11 := by
  simp [encodeMonthToSecond, asciiDigits]

theorem length_encodeTime_le (t : ASN1Time) : (encodeTime t).length ≤ 23 := by
  have h1 := length_encodeIdentifier_le .universal false BerTag.utcTime
  have h2 := length_encodeIdentifier_le .universal false BerTag.generalizedTime
  unfold encodeTime
  split <;> simp [asciiDigits, length_encodeMonthToSecond, encodeHeader, encodeLength] <;> omega

theorem parseChoiceOfTime_encodeTime (t : ASN1Time) :
    parseChoiceOfTime ⟨pos, encodeTime t ++ rest⟩ = .ok ⟨pos + (encodeTime t).length, rest⟩ t := by
  have hlen : ∀ w y, (asciiDigits w y ++ encodeMonthToSecond t).length = w + 11 := by
    simp [asciiDigits, length_encodeMonthToSecond]
  unfold encodeTime
  split
  · next hutc =>
    simp only [parseChoiceOfTime, alt, complete,
      parseTimeWithTag_encodeTLV pos rest _ _ _ (by rw [hlen]; omega : (asciiDigits 2 (t.year % 100) ++
        encodeMonthToSecond t).length < 2 ^ 64) (utcTimeOfContent_encode t hutc)]
  · have hc : (asciiDigits 4 t.year ++ encodeMonthToSecond t).length < 2 ^ 64 := by
      rw [hlen]; omega
    simp only [parseChoiceOfTime, alt, complete,
      parseTimeWithTag_other pos rest _ _ _ (show BerTag.generalizedTime ≠ BerTag.utcTime by decide) _ hc,
      parseTimeWithTag_encodeTLV pos rest _ _ _ hc (generalizedTimeOfContent_encode t)]

theorem ASN1Time.fromDer_encodeTime (t : ASN1Time) :
    ASN1Time.fromDer ⟨pos, encodeTime t ++ rest⟩ = .ok ⟨pos + (encodeTime t).length, rest⟩ t := by
  simp only [ASN1Time.fromDer, orError, parseChoiceOfTime_encodeTime]

theorem ASN1Time.fromDerOpt_encodeTime (t : ASN1Time) :
    ASN1Time.fromDerOpt ⟨pos, encodeTime t ++ rest⟩ =
      .ok ⟨pos + (encodeTime t).length, rest⟩ (some t) := by
  simp only [ASN1Time.fromDerOpt, orError, opt, parseChoiceOfTime_encodeTime]

/-- No time stands at the start of `bs`. -/
def TimeAbsent (bs : List UInt8) : Prop := ∀ p, ∃ e, parseChoiceOfTime ⟨p, bs⟩ = .error e

theorem timeAbsent_nil : TimeAbsent [] := fun _ => ⟨_, rfl⟩

theorem timeAbsent_encodeTLV (c : BerClass) (st : Bool) {t : UInt32} (h1 : t ≠ BerTag.utcTime)
    (h2 : t ≠ BerTag.generalizedTime) (content : List UInt8) (hc : content.length < 2 ^ 64) :
    TimeAbsent (encodeTLV c st t content ++ rest) := fun p =>
  ⟨.der .invalidTag, by simp only [parseChoiceOfTime, alt, complete,
    parseTimeWithTag_other p rest _ c st h1 content hc, parseTimeWithTag_other p rest _ c st h2 content hc]⟩

theorem ASN1Time.fromDerOpt_absent {bs : List UInt8} (h : TimeAbsent bs) :
    ASN1Time.fromDerOpt ⟨pos, bs⟩ = .ok ⟨pos, bs⟩ none := by
  obtain ⟨e, he⟩ := h pos
  simp only [ASN1Time.fromDerOpt, orError, opt, he]

end RoundTrip

end X509Parser
