import X509Parser.X509.Types

/-!
# Names

`X509Name::from_der` reads the RDNs of a Name with `many0`, the attributes of each RDN with
`many1`, and cuts `raw` from the start of the Name to where its RDN loop stopped. The loop
stops at the first element that is not an RDN, and the SEQUENCE container then drops what is
left of its content: that element and every RDN after it are skipped without an error, and
`raw` ends before them. Each attribute and each RDN consumes at least its header, so neither
loop ever raises nom's no-progress error, and every RDN read has an attribute.
-/

namespace X509Parser

set_option autoImplicit false

open Parser

/-- Modelled from the spec: `x509_parser::parse_attribute_value`, not in `src/`, reads the
value of an attribute as one element of any type (`attr_value: ANY`). -/
def parseAttributeValue : Parser DerObject := parseDer

/-- `AttributeTypeAndValue::from_der`. -/
def AttributeTypeAndValue.fromDer : Parser AttributeTypeAndValue :=
  parseBerSequenceDefinedG do
    let attrType ← parseDerOid.orError .invalidX509Name
    let attrValue ← parseAttributeValue.orError .invalidX509Name
    pure ⟨attrType, attrValue⟩

/-- `RelativeDistinguishedName::from_der`. -/
def RelativeDistinguishedName.fromDer : Parser RelativeDistinguishedName :=
  parseBerSetDefinedG do
    let set ← many1 (complete AttributeTypeAndValue.fromDer)
    pure ⟨set⟩

/-- `X509Name::from_der`. -/
def X509Name.fromDer : Parser X509Name := fun startI =>
  parseBerSequenceDefinedG (do
    let rdnSeq ← many0 (complete RelativeDistinguishedName.fromDer)
    let i ← remaining
    let raw ← sliceTo startI (startI.offset i)
    pure ⟨rdnSeq, raw⟩) startI

theorem X509Name.fromDer_advances : X509Name.fromDer.Advances := fun i =>
  Advances.parseBerContainer' _ i

/-- A Name that is read is a prefix of the input, and its raw span a prefix of that. -/
theorem X509Name.fromDer_raw_prefix {i r : Slice} {n : X509Name} (h : X509Name.fromDer i = .ok r n) :
    ∃ t, i.bytes = t ++ r.bytes ∧ IsElement t ∧ n.raw <+: t :=
  parseBerSequenceDefinedG_raw (RawUpTo.bind' _ _
    (Advances.many0' (Advances.complete' (Advances.parseBerContainer' _)))
    fun _ => RawUpTo.cut _ _ _ fun _ => rfl) h

theorem AttributeTypeAndValue.fromDer_neverPanics : AttributeTypeAndValue.fromDer.NeverPanics :=
  NeverPanics.parseBerSequenceDefinedG' <|
    NeverPanics.bind' (NeverPanics.orError' _ NeverPanics.parseDerOid') fun _ =>
    NeverPanics.bind' (NeverPanics.orError' _ NeverPanics.parseDer') fun _ => NeverPanics.pure' _

theorem RelativeDistinguishedName.fromDer_neverPanics : RelativeDistinguishedName.fromDer.NeverPanics :=
  NeverPanics.parseBerSetDefinedG' <|
    NeverPanics.bind' (NeverPanics.many1' (NeverPanics.complete' AttributeTypeAndValue.fromDer_neverPanics))
      fun _ => NeverPanics.pure' _

/-- The cut of a Name's raw span is in range: the Name decoder never panics. -/
theorem X509Name.fromDer_neverPanics : X509Name.fromDer.NeverPanics :=
  NeverPanics.assembler fun s =>
    PanicFreeOn.bind_inside (Advances.many0' (Advances.complete' (Advances.parseBerContainer' _)))
      (NeverPanics.many0' (NeverPanics.complete' RelativeDistinguishedName.fromDer_neverPanics))
      fun _ => PanicFreeOn.cut s _

theorem X509Name.fromDer_appendStable : X509Name.fromDer.AppendStable :=
  AppendStable.assembler <|
    CutStable.bind' (Advances.many0' (Advances.complete' (Advances.parseBerContainer' _))) fun _ =>
      CutStable.cut _

/-! ## DER encodings -/

def AttributeTypeAndValue.encode (a : AttributeTypeAndValue) : List UInt8 :=
  encodeSequence (encodeOid a.attrType ++ encodeDerObject a.attrValue)

def RelativeDistinguishedName.encode (r : RelativeDistinguishedName) : List UInt8 :=
  encodeSet (r.set.flatMap AttributeTypeAndValue.encode)

/-- The DER encoding of a Name with the given RDNs. -/
def encodeRdnSequence (rdns : List RelativeDistinguishedName) : List UInt8 :=
  encodeSequence (rdns.flatMap RelativeDistinguishedName.encode)

/-! ## A Name reads back from its encoding -/

section RoundTrip

variable (pos : Nat) (rest : List UInt8)

theorem AttributeTypeAndValue.fromDer_encode (a : AttributeTypeAndValue)
    (ha : a.encode.length < 2 ^ 64) :
    AttributeTypeAndValue.fromDer ⟨pos, a.encode ++ rest⟩ = .ok ⟨pos + a.encode.length, rest⟩ a := by
  have hc : (encodeOid a.attrType ++ encodeDerObject a.attrValue).length < 2 ^ 64 :=
    (length_lt_length_encodeTLV _ _ _ _).trans ha
  have ho : a.attrType.asn1.length < (encodeOid a.attrType).length := length_lt_length_encodeTLV _ _ _ _
  have hv : a.attrValue.content.length < (encodeDerObject a.attrValue).length :=
    length_lt_length_encodeTLV _ _ _ _
  rw [List.length_append] at hc
  have hder : ∀ p, parseDer ⟨p, encodeDerObject a.attrValue⟩ =
      .ok ⟨p + (encodeDerObject a.attrValue).length, []⟩ a.attrValue := fun p => by
    simpa using parseDer_encodeDerObject p [] a.attrValue (by omega)
  apply parseBerSequenceDefinedG_encodeSequence pos rest _ _ (by rw [List.length_append]; omega)
  simp only [bind_apply, orError, parseDerOid_encodeOid _ _ _ (by omega : a.attrType.asn1.length < 2 ^ 64),
    IResult.bind_ok, parseAttributeValue, hder, pure_apply]
  rfl

theorem AttributeTypeAndValue.encode_ne_nil (a : AttributeTypeAndValue) : a.encode ≠ [] :=
  List.ne_nil_of_length_pos (Nat.lt_of_le_of_lt (Nat.zero_le _) (length_lt_length_encodeTLV _ _ _ _))

theorem RelativeDistinguishedName.encode_ne_nil (r : RelativeDistinguishedName) : r.encode ≠ [] :=
  List.ne_nil_of_length_pos (Nat.lt_of_le_of_lt (Nat.zero_le _) (length_lt_length_encodeTLV _ _ _ _))

theorem complete_fromDer_nil_attribute (p : Nat) :
    complete AttributeTypeAndValue.fromDer ⟨p, []⟩ = .error (.nomError .complete) := rfl

theorem complete_fromDer_nil_rdn (p : Nat) :
    complete RelativeDistinguishedName.fromDer ⟨p, []⟩ = .error (.nomError .complete) := rfl

theorem RelativeDistinguishedName.fromDer_encode (r : RelativeDistinguishedName) (hr : r.set ≠ [])
    (h : r.encode.length < 2 ^ 64) :
    RelativeDistinguishedName.fromDer ⟨pos, r.encode ++ rest⟩ =
      .ok ⟨pos + r.encode.length, rest⟩ r := by
  obtain ⟨set⟩ := r
  cases set with
  | nil => exact absurd rfl hr
  | cons a as =>
    have hc := (length_lt_length_encodeTLV _ _ _ _).trans h
    have hreads : ReadsBack AttributeTypeAndValue.fromDer AttributeTypeAndValue.encode id (a :: as) :=
      fun b hb => ⟨b.encode_ne_nil, fun p q => AttributeTypeAndValue.fromDer_encode p q b
        ((length_le_length_flatMap_of_mem _ hb).trans_lt hc)⟩
    have hmany := many1_flatMap _ _ _ [] (fun p => ⟨_, complete_fromDer_nil_attribute p⟩) a as
      hreads.complete
    simp only [List.append_nil, List.map_id] at hmany
    apply parseBerSetDefinedG_encodeSet pos rest _ _ hc
    simp only [bind_apply, hmany, IResult.bind_ok, pure_apply]
    rfl

/-- The RDN loop reads the RDNs of a Name and stops, without an error, at the first element
that is not an RDN; the container drops that element and all that follows it. -/
theorem X509Name.fromDer_encode_append (rdns : List RelativeDistinguishedName)
    (hne : ∀ r ∈ rdns, r.set ≠ []) (junk : List UInt8)
    (hjunk : ∀ p, ∃ e, complete RelativeDistinguishedName.fromDer ⟨p, junk⟩ = .error e)
    (h : (encodeSequence (rdns.flatMap RelativeDistinguishedName.encode ++ junk)).length < 2 ^ 64) :
    X509Name.fromDer ⟨pos, encodeSequence (rdns.flatMap RelativeDistinguishedName.encode ++ junk) ++ rest⟩ =
      .ok ⟨pos + (encodeSequence (rdns.flatMap RelativeDistinguishedName.encode ++ junk)).length, rest⟩
        ⟨rdns, encodeHeader .universal true BerTag.sequence
          (rdns.flatMap RelativeDistinguishedName.encode ++ junk).length ++
          rdns.flatMap RelativeDistinguishedName.encode⟩ := by
  have hc := (length_lt_length_encodeTLV _ _ _ _).trans h
  simp only [List.length_append] at hc
  have hreads : ReadsBack RelativeDistinguishedName.fromDer RelativeDistinguishedName.encode id rdns :=
    fun r hr => ⟨r.encode_ne_nil, fun p q => RelativeDistinguishedName.fromDer_encode p q r (hne r hr)
      ((length_le_length_flatMap_of_mem _ hr).trans_lt (by omega))⟩
  apply parseBerSequenceDefinedG_encodeSequence pos rest _ _ (by simpa using hc)
  simp only [bind_apply, many0_flatMap _ _ _ junk hjunk rdns hreads.complete, List.map_id, IResult.bind_ok, remaining_apply,
    sliceTo, Slice.offset, Slice.len_mk, encodeSequence, encodeTLV, List.append_assoc, Nat.add_assoc,
    Nat.add_sub_cancel_left]
  rw [if_pos (by simp), ← List.append_assoc, ← List.length_append, List.take_left]
  rfl

theorem X509Name.fromDer_encodeRdnSequence (rdns : List RelativeDistinguishedName)
    (hne : ∀ r ∈ rdns, r.set ≠ []) (h : (encodeRdnSequence rdns).length < 2 ^ 64) :
    X509Name.fromDer ⟨pos, encodeRdnSequence rdns ++ rest⟩ =
      .ok ⟨pos + (encodeRdnSequence rdns).length, rest⟩ ⟨rdns, encodeRdnSequence rdns⟩ := by
  have := X509Name.fromDer_encode_append pos rest rdns hne []
    (fun p => ⟨_, complete_fromDer_nil_rdn p⟩) (by simpa using h)
  simpa [encodeRdnSequence, encodeSequence, encodeTLV] using this

end RoundTrip

/-! ## Where the RDN loop stops -/

/-- A NULL ahead of an RDN ends the RDN loop: the Name is read with no RDN, the RDN after the
NULL is dropped, and `raw` is the SEQUENCE header alone. -/
theorem X509Name.fromDer_drops_rdn_after_null :
    X509Name.fromDer ⟨0, [0x30, 0x0E, 0x05, 0x00,
      0x31, 0x0A, 0x30, 0x08, 0x06, 0x03, 0x55, 0x04, 0x03, 0x13, 0x01, 0x61]⟩ =
        .ok ⟨16, []⟩ ⟨[], [0x30, 0x0E]⟩ ∧
    RelativeDistinguishedName.fromDer
      ⟨4, [0x31, 0x0A, 0x30, 0x08, 0x06, 0x03, 0x55, 0x04, 0x03, 0x13, 0x01, 0x61]⟩ =
        .ok ⟨16, []⟩ ⟨[⟨⟨[0x55, 0x04, 0x03], rfl⟩, ⟨.universal, false, 19, [0x61]⟩⟩]⟩ := by
  decide

theorem X509Name.fromDer_stops_at_first_non_rdn :
    (∀ (pos : Nat) (rest : List UInt8) (rdns : List RelativeDistinguishedName),
      (∀ r ∈ rdns, r.set ≠ []) → ∀ junk : List UInt8,
      (∀ p, ∃ e, complete RelativeDistinguishedName.fromDer ⟨p, junk⟩ = .error e) →
      (encodeSequence (rdns.flatMap RelativeDistinguishedName.encode ++ junk)).length < 2 ^ 64 →
      X509Name.fromDer ⟨pos, encodeSequence (rdns.flatMap RelativeDistinguishedName.encode ++ junk) ++ rest⟩ =
        .ok ⟨pos + (encodeSequence (rdns.flatMap RelativeDistinguishedName.encode ++ junk)).length, rest⟩
          ⟨rdns, encodeHeader .universal true BerTag.sequence
            (rdns.flatMap RelativeDistinguishedName.encode ++ junk).length ++
            rdns.flatMap RelativeDistinguishedName.encode⟩) ∧
    ∀ {i r : Slice} {n : X509Name}, X509Name.fromDer i = .ok r n →
      ∃ t, i.bytes = t ++ r.bytes ∧ IsElement t ∧ n.raw <+: t :=
  ⟨X509Name.fromDer_encode_append, X509Name.fromDer_raw_prefix⟩

/-- `CN=a` followed by a NULL: the RDN is read, the NULL skipped. -/
theorem X509Name.fromDer_stops_at_null :
    X509Name.fromDer ⟨0, [0x30, 0x0E, 0x31, 0x0A, 0x30, 0x08, 0x06, 0x03, 0x55, 0x04, 0x03, 0x13, 0x01,
      0x61, 0x05, 0x00]⟩ =
        .ok ⟨16, []⟩ ⟨[⟨[⟨⟨[0x55, 0x04, 0x03], rfl⟩, ⟨.universal, false, 19, [0x61]⟩⟩]⟩],
          [0x30, 0x0E, 0x31, 0x0A, 0x30, 0x08, 0x06, 0x03, 0x55, 0x04, 0x03, 0x13, 0x01, 0x61]⟩ ∧
    ∃ t : List UInt8, [0x30, 0x0E, 0x31, 0x0A, 0x30, 0x08, 0x06, 0x03, 0x55, 0x04, 0x03, 0x13, 0x01, 0x61, 0x05, 0x00] =
      t ++ [] ∧ IsElement t ∧
      [0x30, 0x0E, 0x31, 0x0A, 0x30, 0x08, 0x06, 0x03, 0x55, 0x04, 0x03, 0x13, 0x01, 0x61] <+: t :=
  have h := X509Name.fromDer_stops_at_first_non_rdn.1 0 []
    [⟨[⟨⟨[0x55, 0x04, 0x03], rfl⟩, ⟨.universal, false, 19, [0x61]⟩⟩]⟩] (by decide) [0x05, 0x00]
    (fun _ => ⟨_, rfl⟩) (by decide)
  ⟨h, X509Name.fromDer_stops_at_first_non_rdn.2 h⟩

/-! ## The loops make progress -/

theorem AttributeTypeAndValue.fromDer_consumes : AttributeTypeAndValue.fromDer.Consumes 2 :=
  parseBerContainer_consumes _

theorem RelativeDistinguishedName.fromDer_consumes :
    RelativeDistinguishedName.fromDer.Consumes 2 :=
  parseBerContainer_consumes _

/-- Both element parsers of a Name consume at least a header, so neither loop raises an error of
its own: each reads at most half as many items as its input has octets and is decided within
that many rounds and one more, the `many1` of an RDN fails, with its own `Many1`, only when its
first attribute fails, and the `many0` of a Name never fails. -/
theorem name_loops_make_progress :
    AttributeTypeAndValue.fromDer.Consumes 2 ∧ RelativeDistinguishedName.fromDer.Consumes 2 ∧
    (∀ (i r : Slice) (a : AttributeTypeAndValue), complete AttributeTypeAndValue.fromDer i = .ok r a →
      many1 (complete AttributeTypeAndValue.fromDer) i =
        (manyLoop .many1 (complete AttributeTypeAndValue.fromDer) (r.len / 2 + 1) r).map (a :: ·)) ∧
    (∀ (i r : Slice) (as : List AttributeTypeAndValue),
      many1 (complete AttributeTypeAndValue.fromDer) i = .ok r as → r.len + 2 * as.length ≤ i.len) ∧
    (∀ (i : Slice) (e : X509Error), many1 (complete AttributeTypeAndValue.fromDer) i = .error e →
      e = .nomError .many1 ∧ ∃ e', complete AttributeTypeAndValue.fromDer i = .error e') ∧
    (∀ i : Slice, many0 (complete RelativeDistinguishedName.fromDer) i =
      manyLoop .many0 (complete RelativeDistinguishedName.fromDer) (i.len / 2 + 1) i) ∧
    (∀ (i r : Slice) (rdns : List RelativeDistinguishedName),
      many0 (complete RelativeDistinguishedName.fromDer) i = .ok r rdns → r.len + 2 * rdns.length ≤ i.len) ∧
    (∀ (i : Slice) (e : X509Error), many0 (complete RelativeDistinguishedName.fromDer) i ≠ .error e) :=
  have ha := AttributeTypeAndValue.fromDer_consumes.complete'
  have hr := RelativeDistinguishedName.fromDer_consumes.complete'
  ⟨AttributeTypeAndValue.fromDer_consumes, RelativeDistinguishedName.fromDer_consumes,
    fun _ _ _ => many1_rounds ha, fun _ _ _ => many1_length ha, fun _ _ => many1_error ha,
    many0_rounds hr, fun _ _ _ => many0_length hr, many0_ne_error hr⟩

/-- The loops at the content of the SET `CN=a`, at a NULL, and at no input. -/
theorem name_loops_make_progress_cases :
    many1 (complete AttributeTypeAndValue.fromDer)
        ⟨6, [0x30, 0x08, 0x06, 0x03, 0x55, 0x04, 0x03, 0x13, 0x01, 0x61]⟩ =
      (manyLoop .many1 (complete AttributeTypeAndValue.fromDer) (0 / 2 + 1) ⟨16, []⟩).map
        (⟨⟨[0x55, 0x04, 0x03], rfl⟩, ⟨.universal, false, 19, [0x61]⟩⟩ :: ·) ∧
    0 + 2 * 1 ≤ 10 ∧
    (∃ e, complete AttributeTypeAndValue.fromDer ⟨0, [0x05, 0x00]⟩ = .error e) ∧
    many0 (complete RelativeDistinguishedName.fromDer) ⟨0, []⟩ =
      manyLoop .many0 (complete RelativeDistinguishedName.fromDer) (0 / 2 + 1) ⟨0, []⟩ ∧
    0 + 2 * 0 ≤ 0 := by
  obtain ⟨-, -, hrounds, hlength, herror, hrounds0, hlength0, -⟩ := name_loops_make_progress
  exact ⟨hrounds _ ⟨16, []⟩ _ (by decide),
    hlength ⟨6, [0x30, 0x08, 0x06, 0x03, 0x55, 0x04, 0x03, 0x13, 0x01, 0x61]⟩ ⟨16, []⟩
      [⟨⟨[0x55, 0x04, 0x03], rfl⟩, ⟨.universal, false, 19, [0x61]⟩⟩] (by decide),
    (herror ⟨0, [0x05, 0x00]⟩ (.nomError .many1) (by decide)).2, hrounds0 _,
    hlength0 ⟨0, []⟩ ⟨0, []⟩ [] (by decide)⟩

/-- Every RDN `RelativeDistinguishedName::from_der` returns has at least one attribute. -/
theorem RelativeDistinguishedName.fromDer_set_ne_nil {i r : Slice} {rdn : RelativeDistinguishedName}
    (h : RelativeDistinguishedName.fromDer i = .ok r rdn) : rdn.set ≠ [] := by
  obtain ⟨hdr, n, len, r', -, -, -, -, hf⟩ := parseBerContainer_inv h
  split at hf
  · obtain ⟨j, set, hm, hk⟩ := IResult.bind_eq_ok.mp hf
    cases hk
    exact many1_ne_nil hm
  · cases hf

/-- Every RDN of a Name `X509Name::from_der` returns has at least one attribute. -/
theorem X509Name.fromDer_rdns_ne_nil {i r : Slice} {n : X509Name} (h : X509Name.fromDer i = .ok r n) :
    ∀ rdn ∈ n.rdnSeq, rdn.set ≠ [] := by
  obtain ⟨hdr, m, len, r', -, -, -, -, hf⟩ := parseBerContainer_inv h
  split at hf
  · obtain ⟨j, rdns, hm, hk⟩ := IResult.bind_eq_ok.mp hf
    simp only [bind_apply, remaining_apply, IResult.bind_ok, sliceTo] at hk
    split at hk
    · cases hk
      exact manyLoop_forall (fun _ _ _ hc => RelativeDistinguishedName.fromDer_set_ne_nil
        (complete_eq_ok hc)) _ _ hm
    · cases hk
  · cases hf

theorem X509Name.fromDer_rdns : X509Name.fromDer.Yields fun n => ∀ rdn ∈ n.rdnSeq, rdn.set ≠ [] :=
  fun _ _ _ h => X509Name.fromDer_rdns_ne_nil h

end X509Parser
