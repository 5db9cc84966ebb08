import X509Parser.X509.Extension
import X509Parser.X509.Version

/-!
# Certification requests

`X509CertificationRequestInfo::from_der` reads PKCS#10's CertificationRequestInfo: the version
through `X509Version::from_der_required`, the subject, the key and the `[0]` attributes, and
cuts its `raw` span as the TBS assemblers of certificates and CRLs do.
`X509CriAttribute::from_der` reads an attribute's OID and the header of its value SET, hands
what follows to the decoder registered for the OID, and takes as `value` the octets from the
SET's header to where that decoder stopped: for an OID with no decoder, the header alone.
A request built by the grammar reads back from its DER encoding, and a body whose first
element is not `[0]` and ends with its header makes the version step panic.
-/

namespace X509Parser

set_option autoImplicit false

open Parser

/-- Modelled from the spec: `der_read_element_header`, not in `src/`, reads a header as
`ber_read_element_header` does and refuses one not in DER's form: the length is definite and
the header octets are the canonical encoding of its fields. -/
def derReadElementHeader : Parser BerObjectHeader := fun i =>
  match berReadElementHeader i with
  | .ok r hdr =>
    match hdr.len with
    | .definite l =>
      if i.bytes.take (i.len - r.len) = encodeHeader hdr.berClass hdr.structured hdr.tag l then
        .ok r hdr
      else .error (.der .derConstraintFailed)
    | .indefinite => .error (.der .derConstraintFailed)
  | res => res

/-- Modelled from the spec: `cri_attributes::parser::parse_attribute`, not in `src/`: the
decoder registered for the OID reads on from the value SET's content; an OID with none is
`UnsupportedAttribute`, and nothing is read. -/
def parseAttribute (reg : Registry) (oid : Oid) : Parser ParsedCriAttribute := fun i =>
  match reg.attributeParser oid with
  | some p => p i
  | none => .ok i .unsupportedAttribute

/-- `X509CriAttribute::from_der`; the length `value_start.len() - i.len()` panics when it
underflows. -/
def X509CriAttribute.fromDer (reg : Registry) : Parser X509CriAttribute :=
  (parseBerSequenceDefinedG do
    let oid ← parseDerOid
    let valueStart ← remaining
    let hdr ← derReadElementHeader
    if hdr.tag ≠ BerTag.set then fail (.der .berTypeError)
    let parsedAttribute ← parseAttribute reg oid
    let i ← remaining
    let value ← if i.len ≤ valueStart.len then sliceTo valueStart (valueStart.len - i.len) else panic
    pure ⟨oid, value, parsedAttribute⟩).orError .invalidAttributes

/-- The OID-keyed map of an attribute list: `HashMap::insert` in list order. -/
def attributeMap (v : List X509CriAttribute) : OidMap X509CriAttribute :=
  v.foldl (fun m a => OidMap.insert m a.oid a) []

/-- Modelled from the spec: `x509_parser::parse_cri_attributes`, not in `src/`, reads the
`[0]` attributes, every element of whose content must be an attribute, into the OID-keyed
map, a later duplicate OID replacing an earlier one; a failure is `InvalidAttributes`. -/
def parseCriAttributes (reg : Registry) : Parser (OidMap X509CriAttribute) :=
  (parseBerContainer fun hdr =>
    if hdr.tag = 0 then
      attributeMap <$> allConsuming (many0 (complete (X509CriAttribute.fromDer reg)))
    else fail (.der .invalidTag)).orError .invalidAttributes

/-- The fields of `X509CertificationRequestInfo::from_der`, read on the content of its
SEQUENCE; `raw` is cut from `start_i` to where the last field stopped. -/
def X509CertificationRequestInfo.fields (reg : Registry) (startI : Slice) :
    Parser X509CertificationRequestInfo := do
  let version ← X509Version.fromDerRequired
  let subject ← X509Name.fromDer
  let subjectPki ← SubjectPublicKeyInfo.fromDer
  let attributes ← parseCriAttributes reg
  let i ← remaining
  let raw ← sliceTo startI (startI.offset i)
  pure ⟨version, subject, subjectPki, attributes, raw⟩

/-- `X509CertificationRequestInfo::from_der`. -/
def X509CertificationRequestInfo.fromDer (reg : Registry) : Parser X509CertificationRequestInfo :=
  fun startI => parseBerSequenceDefinedG (X509CertificationRequestInfo.fields reg startI) startI

/-- `X509CertificationRequest::from_der`. -/
def X509CertificationRequest.fromDer (reg : Registry) : Parser X509CertificationRequest :=
  parseBerSequenceDefinedG do
    let certificationRequestInfo ← X509CertificationRequestInfo.fromDer reg
    let signatureAlgorithm ← AlgorithmIdentifier.fromDer
    let signatureValue ← parseSignatureValue
    pure ⟨certificationRequestInfo, signatureAlgorithm, signatureValue⟩

theorem parseCriAttributes_advances (reg : Registry) : (parseCriAttributes reg).Advances :=
  Advances.orError' _ (Advances.parseBerContainer' _)

theorem X509CertificationRequestInfo.fields_rawUpTo (reg : Registry) (s : Slice) :
    RawUpTo X509CertificationRequestInfo.raw s (X509CertificationRequestInfo.fields reg s) :=
  RawUpTo.bind' _ _ X509Version.fromDerRequired_advances fun _ =>
    RawUpTo.bind' _ _ X509Name.fromDer_advances fun _ =>
    RawUpTo.bind' _ _ SubjectPublicKeyInfo.fromDer_advances fun _ =>
    RawUpTo.bind' _ _ (parseCriAttributes_advances reg) fun _ =>
    RawUpTo.cut _ _ _ fun _ => rfl

theorem X509CertificationRequest.fromDer_advances (reg : Registry) :
    (X509CertificationRequest.fromDer reg).Advances :=
  Advances.parseBerContainer' _

/-- On every body whose first element is a bare header, not numbered 0, that ends the body,
the version step panics. -/
theorem X509CertificationRequestInfo.fromDer_panics (reg : Registry) (pos : Nat)
    (rest : List UInt8) (c : BerClass) (st : Bool) {t : UInt32} (ht : t ≠ 0) :
    X509CertificationRequestInfo.fromDer reg ⟨pos, encodeSequence (encodeTLV c st t []) ++ rest⟩ =
      .panic := by
  have hlen : (encodeTLV c st t []).length < 2 ^ 64 := by
    have := length_encodeIdentifier_le c st t
    simp [encodeHeader, encodeLength]; omega
  rw [X509CertificationRequestInfo.fromDer, parseBerSequenceDefinedG, encodeSequence,
    parseBerContainer_encodeTLV_eq pos rest _ _ _ _ _ hlen]
  simp only [if_true, X509CertificationRequestInfo.fields, bind_apply,
    X509Version.fromDerRequired_bare_header _ c st ht, IResult.bind_panic]

/-- A request whose body holds a NULL and nothing else: the version step slices `&rem[1..]`
of the empty rest of the body. -/
theorem X509CertificationRequest.fromDer_panics_on_null_body (reg : Registry) :
    X509CertificationRequest.fromDer reg ⟨0, [0x30, 0x04, 0x30, 0x02, 0x05, 0x00]⟩ = .panic :=
  rfl

/-! ## Requests as the grammar builds them -/

/-- A CSR attribute: its OID, the content of its value SET, and what the attribute decoder
makes of it. -/
structure CriAttributeFields where
  oid : Oid
  values : List UInt8
  parsedAttribute : ParsedCriAttribute

/-- The values a CertificationRequestInfo is built from; its version is always `v1`. -/
structure CertificationRequestInfoFields where
  subject : List RelativeDistinguishedName
  subjectPki : SubjectPublicKeyInfo
  subjectPkiUnused : Fin 8
  attributes : List CriAttributeFields

structure CertificationRequestFields where
  info : CertificationRequestInfoFields
  signatureAlgorithm : AlgorithmIdentifier
  signatureValue : BitStringObject
  signatureUnused : Fin 8

def CriAttributeFields.encode (a : CriAttributeFields) : List UInt8 :=
  encodeSequence (encodeOid a.oid ++ encodeSet a.values)

/-- The version `v1` as INTEGER 0, the subject, the key, and the `[0]` attributes. -/
def CertificationRequestInfoFields.encode (c : CertificationRequestInfoFields) : List UInt8 :=
  encodeSequence (encodeInteger (integerContent 0) ++ encodeRdnSequence c.subject ++
    c.subjectPki.encode c.subjectPkiUnused ++
    encodeTLV .contextSpecific true 0 (c.attributes.flatMap CriAttributeFields.encode))

def CertificationRequestFields.encode (r : CertificationRequestFields) : List UInt8 :=
  encodeSequence (r.info.encode ++ r.signatureAlgorithm.encode ++
    encodeBitString r.signatureUnused r.signatureValue)

/-- The decoder registered for an attribute's OID reads exactly the content of its value SET,
into the attribute's parsed form; with none the parsed form is `UnsupportedAttribute`. -/
def Registry.AcceptsAttribute (reg : Registry) (a : CriAttributeFields) : Prop :=
  match reg.attributeParser a.oid with
  | some p => ∀ pos, p ⟨pos, a.values⟩ = .ok ⟨pos + a.values.length, []⟩ a.parsedAttribute
  | none => a.parsedAttribute = .unsupportedAttribute

/-- The `value` span `X509CriAttribute::from_der` cuts: the whole SET when a decoder is
registered for the OID, the SET's header alone when none is. -/
def CriAttributeFields.value (reg : Registry) (a : CriAttributeFields) : List UInt8 :=
  match reg.attributeParser a.oid with
  | some _ => encodeSet a.values
  | none => encodeHeader .universal true BerTag.set a.values.length

def CriAttributeFields.decoded (reg : Registry) (a : CriAttributeFields) : X509CriAttribute :=
  ⟨a.oid, a.value reg, a.parsedAttribute⟩

/-- The decoded request body: version `v1`, the subject's raw span its encoding, one map entry
per attribute, and the body's raw span its encoding. -/
def CertificationRequestInfoFields.decoded (reg : Registry) (c : CertificationRequestInfoFields) :
    X509CertificationRequestInfo :=
  ⟨.v1, ⟨c.subject, encodeRdnSequence c.subject⟩, c.subjectPki,
    c.attributes.map (fun a => (a.oid, a.decoded reg)), c.encode⟩

def CertificationRequestFields.decoded (reg : Registry) (r : CertificationRequestFields) :
    X509CertificationRequest :=
  ⟨r.info.decoded reg, r.signatureAlgorithm, r.signatureValue⟩

/-- What PKCS#10 asks of the values beyond their types: RDNs of at least one attribute, and
attributes with distinct OIDs that their decoders accept. -/
structure CertificationRequestInfoFields.WellFormed (reg : Registry)
    (c : CertificationRequestInfoFields) : Prop where
  subject_rdns : ∀ r ∈ c.subject, r.set ≠ []
  attributes : ∀ a ∈ c.attributes, reg.AcceptsAttribute a
  attributes_nodup : (c.attributes.map CriAttributeFields.oid).Nodup

/-- What the decoder makes of `c` when its attributes may repeat an OID: the map of the decoded
attributes, which keeps the last attribute of each OID. -/
def CertificationRequestInfoFields.read (reg : Registry) (c : CertificationRequestInfoFields) :
    X509CertificationRequestInfo :=
  { c.decoded reg with attributes := attributeMap (c.attributes.map (CriAttributeFields.decoded reg)) }

def CertificationRequestFields.read (reg : Registry) (r : CertificationRequestFields) :
    X509CertificationRequest :=
  ⟨r.info.read reg, r.signatureAlgorithm, r.signatureValue⟩

/-- What the decoder needs to read `c` back: a subject whose RDNs have an attribute, and
attributes their decoders accept, an OID possibly repeated. -/
structure CertificationRequestInfoFields.Readable (reg : Registry)
    (c : CertificationRequestInfoFields) : Prop where
  subject_rdns : ∀ r ∈ c.subject, r.set ≠ []
  attributes : ∀ a ∈ c.attributes, reg.AcceptsAttribute a

/-- With pairwise distinct OIDs the map holds one entry per attribute, in list order. -/
theorem attributeMap_of_nodup (v : List X509CriAttribute) (hv : (v.map X509CriAttribute.oid).Nodup) :
    attributeMap v = v.map fun a => (a.oid, a) := by
  simpa using OidMap.foldl_insert_of_nodup X509CriAttribute.oid v hv [] (by simp)

theorem CertificationRequestFields.read_eq_decoded {reg : Registry} {r : CertificationRequestFields}
    (h : r.info.WellFormed reg) : r.read reg = r.decoded reg := by
  have hmap : attributeMap (r.info.attributes.map (CriAttributeFields.decoded reg)) =
      r.info.attributes.map fun a => (a.oid, a.decoded reg) := by
    rw [attributeMap_of_nodup _ (by simpa [Function.comp_def, CriAttributeFields.decoded] using
      h.attributes_nodup)]
    simp [Function.comp_def, CriAttributeFields.decoded]
  simp only [CertificationRequestFields.read, CertificationRequestInfoFields.read, hmap]
  rfl

/-! ## A request reads back from its encoding -/

section RoundTrip

variable (reg : Registry) (pos : Nat) (rest : List UInt8)

theorem derReadElementHeader_encodeTLV (c : BerClass) (st : Bool) (t : UInt32)
    (content : List UInt8) (hc : content.length < 2 ^ 64) :
    derReadElementHeader ⟨pos, encodeTLV c st t content ++ rest⟩ =
      .ok ⟨pos + (encodeHeader c st t content.length).length, content ++ rest⟩
        ⟨c, st, t, .definite content.length⟩ := by
  unfold derReadElementHeader
  rw [berReadElementHeader_encodeTLV pos rest c st t content hc]
  simp only [Slice.len_mk, encodeTLV, List.append_assoc, List.length_append, Nat.add_sub_cancel,
    List.take_left, if_true]

/-- On an attribute SEQUENCE of an OID and a SET, the dispatch runs on exactly the SET's content;
`value` runs from the SET's header to where the dispatch stopped, and the slice panics only when
the dispatch returned more than the SET. -/
theorem X509CriAttribute.fromDer_encodeSet (o : Oid) (values : List UInt8)
    (h : (encodeSequence (encodeOid o ++ encodeSet values)).length < 2 ^ 64) :
    X509CriAttribute.fromDer reg ⟨pos, encodeSequence (encodeOid o ++ encodeSet values) ++ rest⟩ =
      match parseAttribute reg o ⟨pos + (encodeHeader .universal true BerTag.sequence
          (encodeOid o ++ encodeSet values).length).length + (encodeOid o).length +
          (encodeHeader .universal true BerTag.set values.length).length, values⟩ with
      | .ok i x =>
        if i.len ≤ (encodeSet values).length then
          .ok ⟨pos + (encodeSequence (encodeOid o ++ encodeSet values)).length, rest⟩
            ⟨o, (encodeSet values).take ((encodeSet values).length - i.len), x⟩
        else .panic
      | .panic => .panic
      | _ => .error .invalidAttributes := by
  have hc := (length_lt_length_encodeTLV _ _ _ _).trans h
  simp only [List.length_append] at hc
  have ho : o.asn1.length < (encodeOid o).length := length_lt_length_encodeTLV _ _ _ _
  have hv : values.length < (encodeSet values).length := length_lt_length_encodeTLV _ _ _ _
  have hhdr : ∀ p, derReadElementHeader ⟨p, encodeSet values⟩ =
      .ok ⟨p + (encodeHeader .universal true BerTag.set values.length).length, values⟩
        ⟨.universal, true, BerTag.set, .definite values.length⟩ := fun p => by
    simpa using derReadElementHeader_encodeTLV p [] _ _ _ values (by omega)
  simp only [X509CriAttribute.fromDer, orError, parseBerSequenceDefinedG, encodeSequence]
  rw [parseBerContainer_encodeTLV_eq pos rest _ _ _ _ _ (by simp only [List.length_append]; omega)]
  simp only [if_true, bind_apply, parseDerOid_encodeOid _ _ o (by omega), IResult.bind_ok,
    remaining_apply, hhdr, ne_eq, not_true_eq_false, if_false, pure_apply, Slice.len_mk]
  cases parseAttribute reg o _ with
  | ok i x =>
    by_cases hi : i.len ≤ (encodeSet values).length
    · simp only [IResult.bind_ok, bind_apply, remaining_apply, if_pos hi,
        sliceTo_of_le (s := ⟨_, encodeSet values⟩) (n := (encodeSet values).length - i.len)
          (Nat.sub_le _ _), pure_apply]
    · simp only [IResult.bind_ok, bind_apply, remaining_apply, if_neg hi, panic_apply,
        IResult.bind_panic]
  | _ => rfl

/-- An encoded attribute whose dispatch reads `k` octets of the SET's content: the value span
runs from the SET's header to there, and the attribute's SEQUENCE is consumed whole. -/
theorem X509CriAttribute.fromDer_encode_reads (a : CriAttributeFields) (h : a.encode.length < 2 ^ 64)
    (k : Nat) (hk : k ≤ a.values.length) (v : ParsedCriAttribute)
    (hd : ∀ p, parseAttribute reg a.oid ⟨p, a.values⟩ = .ok ⟨p + k, a.values.drop k⟩ v) :
    X509CriAttribute.fromDer reg ⟨pos, a.encode ++ rest⟩ =
      .ok ⟨pos + a.encode.length, rest⟩
        ⟨a.oid, (encodeSet a.values).take
          ((encodeHeader .universal true BerTag.set a.values.length).length + k), v⟩ := by
  have hset : (encodeSet a.values).length =
      (encodeHeader .universal true BerTag.set a.values.length).length + a.values.length :=
    length_encodeTLV _ _ _ _
  rw [CriAttributeFields.encode, X509CriAttribute.fromDer_encodeSet reg pos rest _ _ h, hd]
  simp only [Slice.len_mk, List.length_drop]
  rw [if_pos (by omega), hset, show (encodeHeader .universal true BerTag.set a.values.length).length +
    a.values.length - (a.values.length - k) =
      (encodeHeader .universal true BerTag.set a.values.length).length + k by omega]

theorem X509CriAttribute.fromDer_encode (a : CriAttributeFields) (ha : reg.AcceptsAttribute a)
    (h : a.encode.length < 2 ^ 64) :
    X509CriAttribute.fromDer reg ⟨pos, a.encode ++ rest⟩ =
      .ok ⟨pos + a.encode.length, rest⟩ (a.decoded reg) := by
  unfold Registry.AcceptsAttribute at ha
  unfold CriAttributeFields.decoded CriAttributeFields.value
  split at ha
  · next q hq =>
    rw [X509CriAttribute.fromDer_encode_reads reg pos rest a h a.values.length le_rfl a.parsedAttribute
      fun p => by simp [parseAttribute, hq, ha]]
    simp [encodeSet, encodeTLV]
  · next hq =>
    rw [X509CriAttribute.fromDer_encode_reads reg pos rest a h 0 (Nat.zero_le _) a.parsedAttribute
      fun p => by simp [parseAttribute, hq, ha]]
    simp [encodeSet, encodeTLV]

theorem CriAttributeFields.encode_ne_nil (a : CriAttributeFields) : a.encode ≠ [] :=
  List.ne_nil_of_length_pos (Nat.lt_of_le_of_lt (Nat.zero_le _) (length_lt_length_encodeTLV _ _ _ _))

theorem complete_fromDer_nil_criAttribute (p : Nat) :
    complete (X509CriAttribute.fromDer reg) ⟨p, []⟩ = .error .invalidAttributes := rfl

/-- The `[0]` attributes read back into the map of the decoded attributes. -/
theorem parseCriAttributes_encode (as : List CriAttributeFields)
    (has : ∀ a ∈ as, reg.AcceptsAttribute a)
    (h : (encodeTLV .contextSpecific true 0 (as.flatMap CriAttributeFields.encode)).length < 2 ^ 64) :
    parseCriAttributes reg
      ⟨pos, encodeTLV .contextSpecific true 0 (as.flatMap CriAttributeFields.encode) ++ rest⟩ =
      .ok ⟨pos + (encodeTLV .contextSpecific true 0 (as.flatMap CriAttributeFields.encode)).length, rest⟩
        (attributeMap (as.map (CriAttributeFields.decoded reg))) := by
  have hc := (length_lt_length_encodeTLV _ _ _ _).trans h
  have hreads : ReadsBack (X509CriAttribute.fromDer reg) CriAttributeFields.encode
      (CriAttributeFields.decoded reg) as :=
    fun a ha => ⟨a.encode_ne_nil, fun p q => X509CriAttribute.fromDer_encode reg p q a (has a ha)
      ((length_le_length_flatMap_of_mem _ ha).trans_lt hc)⟩
  have hm := many0_flatMap _ _ _ [] (fun p => ⟨_, complete_fromDer_nil_criAttribute reg p⟩) as
    hreads.complete
  simp only [List.append_nil] at hm
  simp only [parseCriAttributes, orError]
  rw [parseBerContainer_encodeTLV pos rest _ _ _ _ _ hc]
  simp only [if_true, map_apply, allConsuming, hm, Slice.len_mk, List.length_nil, IResult.map_ok]
  rfl

/-- A request body reads back from its encoding, the attributes into their map. -/
theorem X509CertificationRequestInfo.fromDer_encode_read (c : CertificationRequestInfoFields)
    (hrd : c.Readable reg) (h : c.encode.length < 2 ^ 64) :
    X509CertificationRequestInfo.fromDer reg ⟨pos, c.encode ++ rest⟩ =
      .ok ⟨pos + c.encode.length, rest⟩ (c.read reg) := by
  have hc0 := (length_lt_length_encodeTLV _ _ _ _).trans h
  have hc := hc0
  simp only [List.length_append] at hc
  have hattr : ∀ p, parseCriAttributes reg
      ⟨p, encodeTLV .contextSpecific true 0 (c.attributes.flatMap CriAttributeFields.encode)⟩ =
      .ok ⟨p + (encodeTLV .contextSpecific true 0 (c.attributes.flatMap CriAttributeFields.encode)).length,
        []⟩ (attributeMap (c.attributes.map (CriAttributeFields.decoded reg))) := fun p => by
    simpa using parseCriAttributes_encode reg p [] c.attributes hrd.attributes (by omega)
  apply parseBerSequenceDefinedG_encodeSequence pos rest _ _ hc0
  simp only [X509CertificationRequestInfo.fields, List.append_assoc, bind_apply, IResult.bind_ok,
    remaining_apply, pure_apply, X509Version.fromDerRequired_encodeV1,
    X509Name.fromDer_encodeRdnSequence _ _ c.subject hrd.subject_rdns (by omega),
    SubjectPublicKeyInfo.fromDer_encode _ _ c.subjectPkiUnused c.subjectPki (by omega), hattr]
  rw [sliceTo_offset_append pos c.encode rest ?_]
  · rfl
  · simp [CertificationRequestInfoFields.encode, encodeSequence, Nat.add_assoc]

theorem X509CertificationRequest.fromDer_encode_read (r : CertificationRequestFields)
    (hrd : r.info.Readable reg) (h : r.encode.length < 2 ^ 64) :
    X509CertificationRequest.fromDer reg ⟨pos, r.encode ++ rest⟩ =
      .ok ⟨pos + r.encode.length, rest⟩ (r.read reg) := by
  have hc := (length_lt_length_encodeTLV _ _ _ _).trans h
  simp only [List.length_append] at hc
  exact parseBerSequenceDefinedG_signed_encode pos rest _ X509CertificationRequest.mk _ _
    (fun p q => X509CertificationRequestInfo.fromDer_encode_read reg p q r.info hrd (by omega)) _ _ _ h

theorem X509CertificationRequest.fromDer_encodeRequest (r : CertificationRequestFields)
    (hwf : r.info.WellFormed reg) (h : r.encode.length < 2 ^ 64) :
    X509CertificationRequest.fromDer reg ⟨pos, r.encode ++ rest⟩ =
      .ok ⟨pos + r.encode.length, rest⟩ (r.decoded reg) := by
  rw [← CertificationRequestFields.read_eq_decoded hwf]
  exact X509CertificationRequest.fromDer_encode_read reg pos rest r ⟨hwf.subject_rdns, hwf.attributes⟩ h

/-- A request with a two-attribute RDN as subject, an extension request read by its registered
decoder and an attribute of an OID with none. -/
theorem X509CertificationRequest.fromDer_encode_two_attributes :
    let alg : AlgorithmIdentifier := ⟨⟨[0x2A], rfl⟩, none⟩
    let extReq : Oid := ⟨[0x2A, 0x86, 0x48, 0x86, 0xF7, 0x0D, 0x01, 0x09, 0x0E], rfl⟩
    let reg : Registry := ⟨fun _ => none, fun o =>
      if o = extReq then some (fun i => .ok ⟨i.pos + i.bytes.length, []⟩ (.extensionRequest [])) else none⟩
    let r : CertificationRequestFields :=
      ⟨⟨[⟨[⟨⟨[0x55, 0x04, 0x03], rfl⟩, ⟨.universal, false, 0x0C, [0x61]⟩⟩,
          ⟨⟨[0x55, 0x04, 0x0A], rfl⟩, ⟨.universal, false, 0x0C, [0x62, 0x63]⟩⟩]⟩],
        ⟨alg, ⟨[0x04, 0x01]⟩⟩, 0,
        [⟨extReq, [0x30, 0x00], .extensionRequest []⟩, ⟨⟨[0x2A], rfl⟩, [0x05, 0x00], .unsupportedAttribute⟩]⟩,
        alg, ⟨[0xAB]⟩, 3⟩
    X509CertificationRequest.fromDer reg ⟨0, r.encode ++ []⟩ = .ok ⟨0 + r.encode.length, []⟩ (r.decoded reg) :=
  X509CertificationRequest.fromDer_encodeRequest _ 0 [] _
    ⟨by decide, by simp [Registry.AcceptsAttribute], by decide⟩ (by decide)

end RoundTrip

/-! ## The value span of an attribute -/

theorem parseAttribute_advances (reg : Registry)
    (hreg : ∀ o p, reg.attributeParser o = some p → p.Advances) (o : Oid) :
    (parseAttribute reg o).Advances := fun i r x h => by
  unfold parseAttribute at h
  split at h
  · next p hp => exact hreg o p hp i r x h
  · cases h
    exact ⟨0, Nat.zero_le _, Advances.drop_zero i⟩

/-- The value of an attribute runs from its SET's header to where the attribute dispatch stopped,
for registered decoders that return a suffix of their input: a prefix of the SET holding its
header; the header alone for an OID with no decoder; the whole SET for a decoder that reads all
of its content; and the slice panics only where the decoder does. -/
theorem X509CriAttribute.fromDer_value_to_dispatch_end (reg : Registry)
    (hreg : ∀ o p, reg.attributeParser o = some p → p.Advances) (pos : Nat) (o : Oid)
    (values rest : List UInt8) (h : (encodeSequence (encodeOid o ++ encodeSet values)).length < 2 ^ 64) :
    (∀ r a, X509CriAttribute.fromDer reg ⟨pos, encodeSequence (encodeOid o ++ encodeSet values) ++ rest⟩ =
        .ok r a →
      r.bytes = rest ∧ a.oid = o ∧
        encodeHeader .universal true BerTag.set values.length <+: a.value ∧ a.value <+: encodeSet values) ∧
    (reg.attributeParser o = none →
      X509CriAttribute.fromDer reg ⟨pos, encodeSequence (encodeOid o ++ encodeSet values) ++ rest⟩ =
        .ok ⟨pos + (encodeSequence (encodeOid o ++ encodeSet values)).length, rest⟩
          ⟨o, encodeHeader .universal true BerTag.set values.length, .unsupportedAttribute⟩) ∧
    (∀ x, (∀ p, parseAttribute reg o ⟨p, values⟩ = .ok ⟨p + values.length, []⟩ x) →
      X509CriAttribute.fromDer reg ⟨pos, encodeSequence (encodeOid o ++ encodeSet values) ++ rest⟩ =
        .ok ⟨pos + (encodeSequence (encodeOid o ++ encodeSet values)).length, rest⟩
          ⟨o, encodeSet values, x⟩) ∧
    (X509CriAttribute.fromDer reg ⟨pos, encodeSequence (encodeOid o ++ encodeSet values) ++ rest⟩ =
        .panic → ∃ p, parseAttribute reg o ⟨p, values⟩ = .panic) := by
  have hset : encodeSet values = encodeHeader .universal true BerTag.set values.length ++ values := rfl
  have hle : ∀ p i x, parseAttribute reg o ⟨p, values⟩ = .ok i x →
      i.len ≤ (encodeSet values).length ∧ (encodeHeader .universal true BerTag.set values.length).length ≤
        (encodeSet values).length - i.len := fun p i x hpa => by
    obtain ⟨k, hk, rfl⟩ := parseAttribute_advances reg hreg o _ i x hpa
    simp only [Slice.len_drop, Slice.len_mk, hset, List.length_append] at hk ⊢
    omega
  rw [X509CriAttribute.fromDer_encodeSet reg pos rest o values h]
  refine ⟨fun r a hok => ?_, fun hnone => ?_, fun x hx => ?_, fun hp => ?_⟩
  · split at hok
    · next i x hpa =>
      rw [if_pos (hle _ i x hpa).1] at hok
      cases hok
      refine ⟨rfl, rfl, ?_, List.take_prefix _ _⟩
      have hn := (hle _ i x hpa).2
      generalize (encodeSet values).length - i.len = n at hn ⊢
      rw [hset, List.take_append_eq_append_take, List.take_of_length_le hn]
      exact List.prefix_append _ _
    all_goals cases hok
  · simp only [parseAttribute, hnone, Slice.len_mk, hset, List.length_append, Nat.le_add_left, if_true,
      Nat.add_sub_cancel, List.take_left]
  · simp only [hx, Slice.len_mk, List.length_nil, Nat.zero_le, if_true, Nat.sub_zero, List.take_length]
  · split at hp
    · next i x hpa => rw [if_pos (hle _ i x hpa).1] at hp; cases hp
    · exact ⟨_, ‹_›⟩
    · cases hp

/-- With no decoder registered, an attribute with a NULL in its value SET: the value is the
SET's header alone. -/
theorem X509CriAttribute.fromDer_unregistered_value :
    X509CriAttribute.fromDer ⟨fun _ => none, fun _ => none⟩
      ⟨0, [0x30, 0x07, 0x06, 0x01, 0x2A, 0x31, 0x02, 0x05, 0x00]⟩ =
        .ok ⟨9, []⟩ ⟨⟨[0x2A], rfl⟩, [0x31, 0x02], .unsupportedAttribute⟩ := by
  decide

/-- The law at that attribute, under the registry with no decoder. -/
theorem X509CriAttribute.fromDer_value_to_dispatch_end_unregistered :
    (⟨fun _ => none, fun _ => none⟩ : Registry).attributeParser ⟨[0x2A], rfl⟩ = none ∧
    X509CriAttribute.fromDer ⟨fun _ => none, fun _ => none⟩
      ⟨0, encodeSequence (encodeOid ⟨[0x2A], rfl⟩ ++ encodeSet [0x05, 0x00]) ++ []⟩ =
        .ok ⟨0 + (encodeSequence (encodeOid ⟨[0x2A], rfl⟩ ++ encodeSet [0x05, 0x00])).length, []⟩
          ⟨⟨[0x2A], rfl⟩, encodeHeader .universal true BerTag.set [0x05, 0x00].length,
            .unsupportedAttribute⟩ :=
  have ⟨_, hnone, _, _⟩ := X509CriAttribute.fromDer_value_to_dispatch_end ⟨fun _ => none, fun _ => none⟩
    (fun _ _ h => by cases h) 0 ⟨[0x2A], rfl⟩ [0x05, 0x00] [] (by decide)
  ⟨rfl, hnone rfl⟩

/-! ## Panics and values of decoded requests

The value of an attribute is cut in range whenever the registered attribute decoders consume a
prefix of their input and never panic, and so is the raw span of a request body. What is left
is `&rem[1..]` in the version step: a request decoder panics exactly where that slice is out of
range.
-/

section Safety

variable (reg : Registry)

theorem attributeMap_get? (v : List X509CriAttribute) (k : Oid) :
    (attributeMap v).get? k = (v.filter fun a => a.oid = k).getLast? := by
  rw [attributeMap, OidMap.get?_foldl_insert, OidMap.get?, Option.or_none]

theorem attributeMap_nodup (v : List X509CriAttribute) : ((attributeMap v).map Prod.fst).Nodup :=
  OidMap.nodup_keys_foldl_insert X509CriAttribute.oid v List.nodup_nil

theorem derReadElementHeader_eq_ok {i r : Slice} {hdr : BerObjectHeader}
    (h : derReadElementHeader i = .ok r hdr) : berReadElementHeader i = .ok r hdr := by
  unfold derReadElementHeader at h
  split at h
  · next hb =>
    split at h
    · split at h
      · exact hb.trans h
      · cases h
    · cases h
  · exact h

theorem derReadElementHeader_advances : derReadElementHeader.Advances := fun i r hdr h =>
  Advances.berReadElementHeader' i r hdr (derReadElementHeader_eq_ok h)

theorem derReadElementHeader_neverPanics : derReadElementHeader.NeverPanics := fun i => by
  unfold derReadElementHeader
  split
  · split
    · split <;> exact nofun
    · exact nofun
  · exact NeverPanics.berReadElementHeader' i

theorem parseAttribute_neverPanics (hnp : ∀ o p, reg.attributeParser o = some p → p.NeverPanics)
    (o : Oid) : (parseAttribute reg o).NeverPanics := fun i => by
  unfold parseAttribute
  split
  · next p hp => exact hnp o p hp i
  · exact nofun

/-- The end of an attribute: on an input no longer than the SET's, the value is cut in range. -/
theorem criAttributeValue_panicFree (valueStart : Slice) (oid : Oid) (pa : ParsedCriAttribute) :
    PanicFreeOn (·.len ≤ valueStart.len) (do
      let i ← remaining
      let value ← if i.len ≤ valueStart.len then sliceTo valueStart (valueStart.len - i.len) else panic
      pure (X509CriAttribute.mk oid value pa)) := fun d hd h => by
  simp only [bind_apply, remaining_apply, IResult.bind_ok, if_pos hd, sliceTo, if_pos (Nat.sub_le _ _)] at h
  cases h

theorem X509CriAttribute.fromDer_neverPanics
    (hadv : ∀ o p, reg.attributeParser o = some p → p.Advances)
    (hnp : ∀ o p, reg.attributeParser o = some p → p.NeverPanics) :
    (X509CriAttribute.fromDer reg).NeverPanics :=
  have hS : ∀ (v d : Slice) (n : Nat), d.len ≤ v.len → n ≤ d.len → (d.drop n).len ≤ v.len :=
    fun _ _ _ hd _ => by rw [Slice.len_drop]; omega
  NeverPanics.orError' _ <| NeverPanics.parseBerSequenceDefinedG' <|
    NeverPanics.bind' NeverPanics.parseDerOid' fun oid v =>
      have hjp : ∀ _ : PUnit, PanicFreeOn (·.len ≤ v.len) _ := fun _ =>
        PanicFreeOn.bind' (hS v) (parseAttribute_advances reg hadv oid) (parseAttribute_neverPanics reg hnp oid)
          fun pa => criAttributeValue_panicFree v oid pa
      PanicFreeOn.bind' (hS v) derReadElementHeader_advances derReadElementHeader_neverPanics
        (fun _ => PanicFreeOn.ite'
          (PanicFreeOn.bind' (hS v) (Advances.fail' _) (NeverPanics.fail' _) hjp)
          (PanicFreeOn.bind' (hS v) (Advances.pure' _) (NeverPanics.pure' _) hjp)) v le_rfl

theorem parseCriAttributes_neverPanics
    (hadv : ∀ o p, reg.attributeParser o = some p → p.Advances)
    (hnp : ∀ o p, reg.attributeParser o = some p → p.NeverPanics) :
    (parseCriAttributes reg).NeverPanics :=
  NeverPanics.orError' _ <| NeverPanics.parseBerContainer' fun _ =>
    NeverPanics.ite' (NeverPanics.map' _ (NeverPanics.allConsuming' (NeverPanics.many0'
      (NeverPanics.complete' (X509CriAttribute.fromDer_neverPanics reg hadv hnp))))) (NeverPanics.fail' _)

theorem parseCriAttributes_map :
    (parseCriAttributes reg).Yields fun m => ∃ v, m = attributeMap v :=
  Yields.orError' _ <| Yields.parseBerContainer' fun _ =>
    Yields.ite' (Yields.map_right fun v => ⟨v, rfl⟩) (Yields.fail' _)

theorem X509CriAttribute.fromDer_consumes : (X509CriAttribute.fromDer reg).Consumes 2 :=
  Consumes.orError' _ (parseBerContainer_consumes _)

theorem X509CertificationRequestInfo.fromDer_appendStable :
    (X509CertificationRequestInfo.fromDer reg).AppendStable :=
  AppendStable.assembler <|
    CutStable.bind' X509Version.fromDerRequired_advances fun _ =>
    CutStable.bind' X509Name.fromDer_advances fun _ =>
    CutStable.bind' SubjectPublicKeyInfo.fromDer_advances fun _ =>
    CutStable.bind' (parseCriAttributes_advances reg) fun _ => CutStable.cut _

/-- A request body panics exactly where its version step panics on the body's content. -/
theorem X509CertificationRequestInfo.fromDer_eq_panic
    (hadv : ∀ o p, reg.attributeParser o = some p → p.Advances)
    (hnp : ∀ o p, reg.attributeParser o = some p → p.NeverPanics) (i : Slice) :
    X509CertificationRequestInfo.fromDer reg i = .panic ↔
      ∃ hdr n len, readHeader i.bytes = .ok hdr n ∧ hdr.len = .definite len ∧ n + len ≤ i.len ∧
        hdr.tag = BerTag.sequence ∧ X509Version.fromDerRequired ((i.drop n).take len) = .panic := by
  unfold X509CertificationRequestInfo.fromDer
  rw [parseBerSequenceDefinedG, parseBerContainer_eq_panic]
  refine exists_congr fun hdr => exists_congr fun n => exists_congr fun len => ?_
  refine ⟨fun ⟨hh, hl, hle, hf⟩ => ?_, fun ⟨hh, hl, hle, ht, hv⟩ => ⟨hh, hl, hle, ?_⟩⟩
  · split at hf
    · refine ⟨hh, hl, hle, ‹_›, (PanicFreeOn.bind_eq_panic X509Version.fromDerRequired_advances
        (fun _ => ?_) (Slice.inside_drop_take hle)).mp hf⟩
      exact PanicFreeOn.bind_inside X509Name.fromDer_advances X509Name.fromDer_neverPanics fun _ =>
        PanicFreeOn.bind_inside SubjectPublicKeyInfo.fromDer_advances
          SubjectPublicKeyInfo.fromDer_neverPanics fun _ =>
        PanicFreeOn.bind_inside (parseCriAttributes_advances reg) (parseCriAttributes_neverPanics reg hadv hnp)
          fun _ => PanicFreeOn.cut i _
    · cases hf
  · rw [if_pos ht, X509CertificationRequestInfo.fields, bind_apply, hv, IResult.bind_panic]

/-- A request panics exactly where its body does, on the content of the request's SEQUENCE. -/
theorem X509CertificationRequest.fromDer_eq_panic (i : Slice) :
    X509CertificationRequest.fromDer reg i = .panic ↔
      ∃ hdr n len, readHeader i.bytes = .ok hdr n ∧ hdr.len = .definite len ∧ n + len ≤ i.len ∧
        hdr.tag = BerTag.sequence ∧ X509CertificationRequestInfo.fromDer reg ((i.drop n).take len) = .panic := by
  rw [X509CertificationRequest.fromDer, parseBerSequenceDefinedG, parseBerContainer_eq_panic]
  refine exists_congr fun hdr => exists_congr fun n => exists_congr fun len => ?_
  refine ⟨fun ⟨hh, hl, hle, hf⟩ => ?_, fun ⟨hh, hl, hle, ht, hv⟩ => ⟨hh, hl, hle, ?_⟩⟩
  · split at hf
    · refine ⟨hh, hl, hle, ‹_›, ?_⟩
      rcases IResult.bind_eq_panic.mp hf with h | ⟨_, _, -, h⟩
      · exact h
      · exact absurd h (NeverPanics.bind' AlgorithmIdentifier.fromDer_neverPanics (fun _ =>
          NeverPanics.bind' parseSignatureValue_neverPanics fun _ => NeverPanics.pure' _) _)
    · cases hf
  · rw [if_pos ht, bind_apply, hv, IResult.bind_panic]

/-- What every request body the decoder returns satisfies: every RDN of its subject has an
attribute, and its attribute map is the map of an attribute list, so it holds each OID once. -/
structure X509CertificationRequestInfo.Invariant (x : X509CertificationRequestInfo) : Prop where
  subject_rdns : ∀ rdn ∈ x.subject.rdnSeq, rdn.set ≠ []
  attributes : ∃ v, x.attributes = attributeMap v

theorem X509CertificationRequestInfo.fromDer_invariant :
    (X509CertificationRequestInfo.fromDer reg).Yields X509CertificationRequestInfo.Invariant :=
  fun s => Yields.parseBerSequenceDefinedG' (Yields.bind_right fun _ =>
    Yields.bind' X509Name.fromDer_rdns fun _ hsub => Yields.bind_right fun _ =>
    Yields.bind' (parseCriAttributes_map reg) fun _ ha => Yields.bind_right fun _ =>
    Yields.bind_right fun _ => Yields.pure' ⟨hsub, ha⟩) s

theorem X509CertificationRequest.fromDer_invariant :
    (X509CertificationRequest.fromDer reg).Yields fun r => r.certificationRequestInfo.Invariant :=
  Yields.parseBerSequenceDefinedG' <|
    Yields.bind' (X509CertificationRequestInfo.fromDer_invariant reg) fun _ h =>
      Yields.bind_right fun _ => Yields.bind_right fun _ => Yields.pure' h

end Safety

end X509Parser
