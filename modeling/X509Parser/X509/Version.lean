import X509Parser.X509.Types

/-!
# Version fields

`X509Version::from_der` reads the `[0] EXPLICIT Version DEFAULT v1` of a certificate, and
`X509Version::from_der_required` the plain `INTEGER { v1(0) }` of a certification request.
Both match the header on its tag number alone, never on its class, and read the INTEGER right
after a header numbered 0 without looking at that header's length. On any other element the
latter answers `V1` and skips exactly one octet after the header, `&rem[1..]`, which panics when
nothing follows the header.
-/

namespace X509Parser

set_option autoImplicit false

open Parser

/-- `X509Version::from_der`. -/
def X509Version.fromDer : Parser X509Version := fun i =>
  (berReadElementHeader.orError .invalidVersion i).bind fun hdr rem =>
    if hdr.tag = 0 then ((X509Version.mk <$> parseBerU32).orError .invalidVersion) rem
    else .ok i .v1

/-- `X509Version::from_der_required`. -/
def X509Version.fromDerRequired : Parser X509Version := fun i =>
  (berReadElementHeader.orError .invalidVersion i).bind fun hdr rem =>
    if hdr.tag = 0 then ((X509Version.mk <$> parseBerU32).orError .invalidVersion) rem
    else if 1 ≤ rem.len then .ok (rem.drop 1) .v1 else .panic

theorem X509Version.fromDer_advances : X509Version.fromDer.Advances := fun i r a h => by
  obtain ⟨rem, hdr, hh, hk⟩ := IResult.bind_eq_ok.mp h
  obtain ⟨m, hm, rfl⟩ := Advances.orError' _ Advances.berReadElementHeader' i rem hdr hh
  split at hk
  · obtain ⟨n, hn, rfl⟩ := Advances.orError' _ (Advances.map' _ Advances.parseBerU32') _ r a hk
    exact Advances.trans hm rfl hn rfl
  · cases hk; exact ⟨0, Nat.zero_le _, Advances.drop_zero i⟩

theorem X509Version.fromDerRequired_advances : X509Version.fromDerRequired.Advances := fun i r a h => by
  obtain ⟨rem, hdr, hh, hk⟩ := IResult.bind_eq_ok.mp h
  obtain ⟨m, hm, rfl⟩ := Advances.orError' _ Advances.berReadElementHeader' i rem hdr hh
  split at hk
  · obtain ⟨n, hn, rfl⟩ := Advances.orError' _ (Advances.map' _ Advances.parseBerU32') _ r a hk
    exact Advances.trans hm rfl hn rfl
  · split at hk
    · cases hk; exact Advances.trans hm rfl (by assumption) rfl
    · cases hk

/-! ## The tag number decides -/

section TagNumber

variable {i rem : Slice} {hdr : BerObjectHeader}

/-- After a header, `from_der` looks at its tag number alone, never at its class or length. -/
theorem X509Version.fromDer_of_header (hh : berReadElementHeader i = .ok rem hdr) :
    X509Version.fromDer i =
      if hdr.tag = 0 then ((X509Version.mk <$> parseBerU32).orError .invalidVersion) rem
      else .ok i .v1 := by
  simp only [X509Version.fromDer, orError, hh, IResult.bind_ok]

theorem X509Version.fromDer_tag_ne_zero (hh : berReadElementHeader i = .ok rem hdr)
    (ht : hdr.tag ≠ 0) : X509Version.fromDer i = .ok i .v1 := by
  rw [X509Version.fromDer_of_header hh, if_neg ht]

/-- After a header numbered 0, a failure of `parse_ber_u32` is `InvalidVersion`. -/
theorem X509Version.fromDer_tag_zero_error (hh : berReadElementHeader i = .ok rem hdr)
    (ht : hdr.tag = 0) (hu : (parseBerU32 rem).IsErr) :
    X509Version.fromDer i = .error .invalidVersion := by
  rw [X509Version.fromDer_of_header hh, if_pos ht]
  rcases hu with hu | ⟨e, hu⟩ <;> simp only [orError, map_apply, hu, IResult.map_incomplete, IResult.map_error]

end TagNumber

/-- The DER encoding of a certificate's version: nothing for `v1`, the default, and
`[0] EXPLICIT INTEGER` otherwise. -/
def encodeVersion (v : X509Version) : List UInt8 :=
  if v = .v1 then [] else encodeTLV .contextSpecific true 0 (encodeInteger (integerContent v.val.toNat))

section RoundTrip

variable (pos : Nat) (rest : List UInt8)

theorem length_encodeInteger_integerContent (v : UInt32) :
    (encodeInteger (integerContent v.toNat)).length < 2 ^ 64 := by
  have hc := length_integerContent_le v.toNat v.toNat_lt_size
  have hi := length_encodeIdentifier_le .universal false BerTag.integer
  simp only [encodeInteger, length_encodeTLV, encodeHeader, List.length_append, encodeLength,
    if_pos (show (integerContent v.toNat).length < 128 by omega), List.length_singleton]
  omega

/-- Before any element not numbered 0, the default `v1` is returned and nothing is read. -/
theorem X509Version.fromDer_default (c : BerClass) (st : Bool) {t : UInt32} (ht : t ≠ 0)
    (content : List UInt8) (hc : content.length < 2 ^ 64) :
    X509Version.fromDer ⟨pos, encodeTLV c st t content ++ rest⟩ =
      .ok ⟨pos, encodeTLV c st t content ++ rest⟩ .v1 := by
  simp [X509Version.fromDer, orError, berReadElementHeader_encodeTLV pos rest c st t content hc, ht]

theorem X509Version.fromDer_encodeVersion (v : X509Version) (hv : v ≠ .v1) :
    X509Version.fromDer ⟨pos, encodeVersion v ++ rest⟩ =
      .ok ⟨pos + (encodeVersion v).length, rest⟩ v := by
  have hint := parseBerU32_encodeInteger
    (pos + (encodeHeader .contextSpecific true 0 (encodeInteger (integerContent v.val.toNat)).length).length)
    rest v.val
  simp only [encodeVersion, hv, if_false, X509Version.fromDer, orError, List.append_assoc,
    berReadElementHeader_encodeTLV pos _ _ _ _ _ (length_encodeInteger_integerContent v.val),
    IResult.bind_ok, if_true, map_apply, hint, IResult.map_ok, length_encodeTLV, Nat.add_assoc]

/-- An element numbered 0 of any class whose content is one INTEGER, read unsigned below 2^32,
is read whole as the version it holds. -/
theorem X509Version.fromDer_tag_zero_integer (c : BerClass) (st : Bool) (content : List UInt8)
    (hv : beValue content < 2 ^ 32) (hc : (encodeInteger content).length < 2 ^ 64) :
    X509Version.fromDer ⟨pos, encodeTLV c st 0 (encodeInteger content) ++ rest⟩ =
      .ok ⟨pos + (encodeTLV c st 0 (encodeInteger content)).length, rest⟩
        ⟨UInt32.ofNat (beValue content)⟩ := by
  have hint := parseBerU32_encodeInteger_of_lt
    (pos + (encodeHeader c st 0 (encodeInteger content).length).length) rest content
    ((length_lt_length_encodeTLV _ _ _ _).trans hc) hv
  simp only [X509Version.fromDer, orError, berReadElementHeader_encodeTLV pos rest _ _ _ _ hc,
    IResult.bind_ok, if_true, map_apply, hint, IResult.map_ok, length_encodeTLV, Nat.add_assoc]

/-- The tag number alone decides, for every class: a header not numbered 0 leaves the input to
the next field as `v1`; after one numbered 0 a failure of `parse_ber_u32` is `InvalidVersion`;
and an element numbered 0 holding exactly one INTEGER below 2^32 is read whole. -/
theorem X509Version.fromDer_reads_tag_number :
    (∀ (i rem : Slice) (hdr : BerObjectHeader), berReadElementHeader i = .ok rem hdr →
      hdr.tag ≠ 0 → X509Version.fromDer i = .ok i .v1) ∧
    (∀ (i rem : Slice) (hdr : BerObjectHeader), berReadElementHeader i = .ok rem hdr →
      hdr.tag = 0 → (parseBerU32 rem).IsErr → X509Version.fromDer i = .error .invalidVersion) ∧
    (∀ (pos : Nat) (rest : List UInt8) (c : BerClass) (st : Bool) (content : List UInt8),
      beValue content < 2 ^ 32 → (encodeInteger content).length < 2 ^ 64 →
      X509Version.fromDer ⟨pos, encodeTLV c st 0 (encodeInteger content) ++ rest⟩ =
        .ok ⟨pos + (encodeTLV c st 0 (encodeInteger content)).length, rest⟩
          ⟨UInt32.ofNat (beValue content)⟩) :=
  ⟨fun _ _ _ => X509Version.fromDer_tag_ne_zero, fun _ _ _ => X509Version.fromDer_tag_zero_error,
    X509Version.fromDer_tag_zero_integer⟩

/-- The three cases at a first element: a NULL, a `[0]` element holding a NULL, and an
APPLICATION element numbered 0 holding INTEGER 2. -/
theorem X509Version.fromDer_reads_tag_number_cases :
    X509Version.fromDer ⟨0, [0x05, 0x00]⟩ = .ok ⟨0, [0x05, 0x00]⟩ .v1 ∧
      X509Version.fromDer ⟨0, [0xA0, 0x01, 0x05, 0x00]⟩ = .error .invalidVersion ∧
      X509Version.fromDer ⟨0, encodeTLV .application false 0 (encodeInteger [0x02]) ++ []⟩ =
        .ok ⟨0 + (encodeTLV .application false 0 (encodeInteger [0x02])).length, []⟩
          ⟨UInt32.ofNat (beValue [0x02])⟩ :=
  have ⟨hother, hzero, hinteger⟩ := X509Version.fromDer_reads_tag_number
  ⟨hother _ ⟨2, []⟩ ⟨.universal, false, 5, .definite 0⟩ (by decide) (by decide),
    hzero _ ⟨2, [0x05, 0x00]⟩ ⟨.contextSpecific, true, 0, .definite 1⟩ (by decide) rfl (Or.inr ⟨_, rfl⟩),
    hinteger 0 [] .application false [0x02] (by decide) (by decide)⟩

/-- The class and the `[0]` length are never looked at: an APPLICATION element numbered 0 is
read as version 3, and a `[0]` element holding an INTEGER and a NULL succeeds, the NULL left
for the serial. -/
theorem X509Version.fromDer_ignores_class_and_length :
    X509Version.fromDer ⟨0, [0x40, 0x03, 0x02, 0x01, 0x02]⟩ = .ok ⟨5, []⟩ ⟨2⟩ ∧
      X509Version.fromDer ⟨0, [0xA0, 0x05, 0x02, 0x01, 0x02, 0x05, 0x00]⟩ =
        .ok ⟨5, [0x05, 0x00]⟩ ⟨2⟩ := by
  decide

/-- On a plain INTEGER, `from_der_required` answers `v1` whatever the value, and resumes one
octet into the content. -/
theorem X509Version.fromDerRequired_integer (content : List UInt8) (hne : content ≠ [])
    (hc : content.length < 2 ^ 64) :
    X509Version.fromDerRequired ⟨pos, encodeInteger content ++ rest⟩ =
      .ok ⟨pos + (encodeHeader .universal false BerTag.integer content.length).length + 1,
        content.drop 1 ++ rest⟩ .v1 := by
  have hlen : 1 ≤ content.length := List.length_pos.mpr hne
  simp [X509Version.fromDerRequired, orError, encodeInteger,
    berReadElementHeader_encodeTLV pos rest _ _ _ content hc, BerTag.integer,
    List.drop_append_of_le_length hlen, show 1 ≤ content.length + rest.length by omega]

/-- The `v1` of a certification request, INTEGER 0, is read whole. -/
theorem X509Version.fromDerRequired_encodeV1 :
    X509Version.fromDerRequired ⟨pos, encodeInteger (integerContent 0) ++ rest⟩ =
      .ok ⟨pos + (encodeInteger (integerContent 0)).length, rest⟩ .v1 := by
  rw [show integerContent 0 = [0] from rfl,
    X509Version.fromDerRequired_integer pos rest [0] (List.cons_ne_nil 0 []) (by decide)]
  simp [encodeInteger, Nat.add_assoc]

/-- On a bare header not numbered 0 that ends the input, `&rem[1..]` is out of range. -/
theorem X509Version.fromDerRequired_bare_header (c : BerClass) (st : Bool) {t : UInt32} (ht : t ≠ 0) :
    X509Version.fromDerRequired ⟨pos, encodeTLV c st t []⟩ = .panic := by
  have h := berReadElementHeader_encodeTLV pos [] c st t [] (by simp)
  simp only [List.append_nil] at h
  simp [X509Version.fromDerRequired, orError, h, ht]

/-- The value of the INTEGER is never read: `INTEGER 1` is answered `v1`, and after the
two-octet `INTEGER 128` reading resumes on the last content octet. -/
theorem X509Version.fromDerRequired_ignores_value :
    X509Version.fromDerRequired ⟨0, [0x02, 0x01, 0x01]⟩ = .ok ⟨3, []⟩ .v1 ∧
      X509Version.fromDerRequired ⟨0, [0x02, 0x02, 0x00, 0x80]⟩ = .ok ⟨3, [0x80]⟩ .v1 := by
  decide

end RoundTrip

/-! ## Panics -/

theorem X509Version.u32_neverPanics :
    ((X509Version.mk <$> parseBerU32).orError .invalidVersion).NeverPanics :=
  NeverPanics.orError' _ (NeverPanics.map' _ NeverPanics.parseBerU32')

theorem X509Version.fromDer_neverPanics : X509Version.fromDer.NeverPanics := fun i h => by
  rcases IResult.bind_eq_panic.mp h with h | ⟨rem, hdr, -, h⟩
  · exact NeverPanics.orError' _ NeverPanics.berReadElementHeader' i h
  · split at h
    · exact X509Version.u32_neverPanics rem h
    · cases h

/-- `from_der_required` panics exactly when the header it reads is not numbered 0 and ends its
input, where `&rem[1..]` is out of range. -/
theorem X509Version.fromDerRequired_eq_panic (i : Slice) :
    X509Version.fromDerRequired i = .panic ↔
      ∃ rem hdr, berReadElementHeader i = .ok rem hdr ∧ hdr.tag ≠ 0 ∧ rem.len = 0 := by
  unfold X509Version.fromDerRequired
  rw [IResult.bind_eq_panic, or_iff_right (NeverPanics.orError' _ NeverPanics.berReadElementHeader' i)]
  refine exists_congr fun rem => exists_congr fun hdr => and_congr orError_eq_ok ?_
  by_cases h0 : hdr.tag = 0
  · simp only [h0, if_true, ne_eq, not_true_eq_false, false_and, iff_false]
    exact X509Version.u32_neverPanics rem
  · simp only [h0, if_false, ne_eq, not_false_eq_true, true_and]
    split <;> simp <;> omega

end X509Parser
