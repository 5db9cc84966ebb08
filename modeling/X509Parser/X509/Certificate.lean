import X509Parser.X509.Extension
import X509Parser.X509.Version

/-!
# Certificates

`TbsCertificate::from_der` reads the fields of RFC 5280's TBSCertificate in order and cuts its
`raw` span from its start to where the last field stopped; `X509Certificate::from_der` adds the
signature algorithm and value. A certificate built by the grammar reads back from its DER
encoding with every field, both Names' raw spans and the TBS raw span.
-/

namespace X509Parser

set_option autoImplicit false

open Parser

/-- The fields of `TbsCertificate::from_der`, read on the content of its SEQUENCE; `raw` is cut
from `start_i` to where the last field stopped. -/
def TbsCertificate.fields (reg : Registry) (startI : Slice) : Parser TbsCertificate := do
  let version ← X509Version.fromDer
  let serial ← parseSerial
  let signature ← AlgorithmIdentifier.fromDer
  let issuer ← X509Name.fromDer
  let validity ← Validity.fromDer
  let subject ← X509Name.fromDer
  let subjectPki ← SubjectPublicKeyInfo.fromDer
  let issuerUid ← UniqueIdentifier.fromDerIssuer
  let subjectUid ← UniqueIdentifier.fromDerSubject
  let extensions ← parseExtensions reg 3
  let i ← remaining
  let raw ← sliceTo startI (startI.offset i)
  pure ⟨version, serial.2, signature, issuer, validity, subject, subjectPki, issuerUid, subjectUid,
    extensions, raw, serial.1⟩

/-- `TbsCertificate::from_der`. -/
def TbsCertificate.fromDer (reg : Registry) : Parser TbsCertificate := fun startI =>
  parseBerSequenceDefinedG (TbsCertificate.fields reg startI) startI

/-- `X509Certificate::from_der`. -/
def X509Certificate.fromDer (reg : Registry) : Parser X509Certificate :=
  parseBerSequenceDefinedG do
    let tbsCertificate ← TbsCertificate.fromDer reg
    let signatureAlgorithm ← AlgorithmIdentifier.fromDer
    let signatureValue ← parseSignatureValue
    pure ⟨tbsCertificate, signatureAlgorithm, signatureValue⟩

theorem TbsCertificate.fields_rawUpTo (reg : Registry) (s : Slice) :
    RawUpTo TbsCertificate.raw s (TbsCertificate.fields reg s) :=
  RawUpTo.bind' _ _ X509Version.fromDer_advances fun _ =>
    RawUpTo.bind' _ _ parseSerial_advances fun _ =>
    RawUpTo.bind' _ _ AlgorithmIdentifier.fromDer_advances fun _ =>
    RawUpTo.bind' _ _ X509Name.fromDer_advances fun _ =>
    RawUpTo.bind' _ _ Validity.fromDer_advances fun _ =>
    RawUpTo.bind' _ _ X509Name.fromDer_advances fun _ =>
    RawUpTo.bind' _ _ SubjectPublicKeyInfo.fromDer_advances fun _ =>
    RawUpTo.bind' _ _ (Advances.orError' _ (UniqueIdentifier.parse_advances _)) fun _ =>
    RawUpTo.bind' _ _ (Advances.orError' _ (UniqueIdentifier.parse_advances _)) fun _ =>
    RawUpTo.bind' _ _ (parseExtensions_advances reg 3) fun _ =>
    RawUpTo.cut _ _ _ fun _ => rfl

theorem TbsCertificate.fromDer_advances (reg : Registry) : (TbsCertificate.fromDer reg).Advances :=
  fun i => Advances.parseBerContainer' _ i

theorem X509Certificate.fromDer_advances (reg : Registry) : (X509Certificate.fromDer reg).Advances :=
  Advances.parseBerContainer' _

/-! ## Certificates as the grammar builds them -/

/-- The values a TBSCertificate is built from; an absent extension list is `none`, and each
BIT STRING has its count of unused bits, which the decoder drops. -/
structure TbsCertificateFields where
  version : X509Version
  serial : Nat
  signature : AlgorithmIdentifier
  issuer : List RelativeDistinguishedName
  validity : Validity
  subject : List RelativeDistinguishedName
  subjectPki : SubjectPublicKeyInfo
  subjectPkiUnused : Fin 8
  issuerUid : Option UniqueIdentifier
  issuerUidUnused : Fin 8
  subjectUid : Option UniqueIdentifier
  subjectUidUnused : Fin 8
  extensions : Option (List X509Extension)

structure CertificateFields where
  tbs : TbsCertificateFields
  signatureAlgorithm : AlgorithmIdentifier
  signatureValue : BitStringObject
  signatureUnused : Fin 8

def TbsCertificateFields.encode (c : TbsCertificateFields) : List UInt8 :=
  encodeSequence (encodeVersion c.version ++ encodeSerial c.serial ++ c.signature.encode ++
    encodeRdnSequence c.issuer ++ c.validity.encode ++ encodeRdnSequence c.subject ++
    c.subjectPki.encode c.subjectPkiUnused ++ encodeUniqueIdentifier 1 c.issuerUidUnused c.issuerUid ++
    encodeUniqueIdentifier 2 c.subjectUidUnused c.subjectUid ++ encodeExtensions 3 c.extensions)

def CertificateFields.encode (c : CertificateFields) : List UInt8 :=
  encodeSequence (c.tbs.encode ++ c.signatureAlgorithm.encode ++
    encodeBitString c.signatureUnused c.signatureValue)

/-- The decoded TBS certificate that holds exactly the values of `c`: one map entry per
extension, each Name's raw span its encoding, the TBS raw span the TBS encoding. -/
def TbsCertificateFields.decoded (c : TbsCertificateFields) : TbsCertificate :=
  ⟨c.version, c.serial, c.signature, ⟨c.issuer, encodeRdnSequence c.issuer⟩, c.validity,
    ⟨c.subject, encodeRdnSequence c.subject⟩, c.subjectPki, c.issuerUid, c.subjectUid,
    (c.extensions.getD []).map (fun e => (e.oid, e)), c.encode, integerContent c.serial⟩

def CertificateFields.decoded (c : CertificateFields) : X509Certificate :=
  ⟨c.tbs.decoded, c.signatureAlgorithm, c.signatureValue⟩

/-- What the decoder makes of `c` when its extension list may repeat an OID: the map of the
list, which keeps the last extension of each OID. -/
def TbsCertificateFields.read (c : TbsCertificateFields) : TbsCertificate :=
  { c.decoded with extensions := extensionMap (c.extensions.getD []) }

def CertificateFields.read (c : CertificateFields) : X509Certificate :=
  ⟨c.tbs.read, c.signatureAlgorithm, c.signatureValue⟩

/-- What RFC 5280 asks of the values beyond their types: RDNs of at least one attribute, and
extensions with distinct OIDs that their decoders accept. -/
structure TbsCertificateFields.WellFormed (reg : Registry) (c : TbsCertificateFields) : Prop where
  issuer_rdns : ∀ r ∈ c.issuer, r.set ≠ []
  subject_rdns : ∀ r ∈ c.subject, r.set ≠ []
  extensions : reg.ExtensionsWellFormed c.extensions

/-- What the decoder needs to read `c` back: RDNs of at least one attribute, and extensions
their decoders accept, an OID possibly repeated. -/
structure TbsCertificateFields.Readable (reg : Registry) (c : TbsCertificateFields) : Prop where
  issuer_rdns : ∀ r ∈ c.issuer, r.set ≠ []
  subject_rdns : ∀ r ∈ c.subject, r.set ≠ []
  extensions : reg.ExtensionsAccepted c.extensions

theorem TbsCertificateFields.WellFormed.readable {reg : Registry} {c : TbsCertificateFields}
    (h : c.WellFormed reg) : c.Readable reg :=
  ⟨h.issuer_rdns, h.subject_rdns, h.extensions.accepted⟩

/-- With distinct extension OIDs the map holds one entry per extension. -/
theorem CertificateFields.read_eq_decoded {reg : Registry} {c : CertificateFields}
    (h : c.tbs.WellFormed reg) : c.read = c.decoded := by
  simp only [CertificateFields.read, TbsCertificateFields.read, extensionMap_getD reg h.extensions]
  rfl

/-! ## The optional tail of a TBSCertificate -/

/-- No `[t]` unique identifier stands at the start of `bs`. -/
def UidAbsent (t : UInt32) (bs : List UInt8) : Prop :=
  ∀ p, (parseBerTaggedImplicitBitString t ⟨p, bs⟩).IsErr

theorem uidAbsent_nil (t : UInt32) : UidAbsent t [] := fun _ => .inl rfl

theorem uidAbsent_encodeUniqueIdentifier {t t' : UInt32} (ht : t' ≠ t) (n : Fin 8)
    (u : Option UniqueIdentifier) (hu : (encodeUniqueIdentifier t' n u).length < 2 ^ 64) {bs : List UInt8}
    (hbs : UidAbsent t bs) : UidAbsent t (encodeUniqueIdentifier t' n u ++ bs) := by
  cases u with
  | none => simpa [encodeUniqueIdentifier] using hbs
  | some u =>
    exact fun p => parseBerTaggedImplicitBitString_other p bs _ _ ht _
      ((length_lt_length_encodeTLV _ _ _ _).trans hu)

theorem uidAbsent_encodeExtensions {t t' : UInt32} (ht : t' ≠ t) (ex : Option (List X509Extension))
    (hex : (encodeExtensions t' ex).length < 2 ^ 64) : UidAbsent t (encodeExtensions t' ex) := by
  cases ex with
  | none => exact uidAbsent_nil t
  | some es =>
    intro p
    simpa using parseBerTaggedImplicitBitString_other p [] _ _ ht _
      ((length_lt_length_encodeTLV _ _ _ _).trans hex)

section RoundTrip

variable (reg : Registry) (pos : Nat) (rest : List UInt8)

theorem X509Version.fromDer_encodeVersion_serial (v : X509Version) (n : Nat)
    (hn : (integerContent n).length < 2 ^ 64) :
    X509Version.fromDer ⟨pos, encodeVersion v ++ (encodeSerial n ++ rest)⟩ =
      .ok ⟨pos + (encodeVersion v).length, encodeSerial n ++ rest⟩ v := by
  by_cases hv : v = .v1
  · subst hv
    simpa [encodeVersion, encodeSerial, encodeInteger] using
      X509Version.fromDer_default pos rest .universal false (by decide : BerTag.integer ≠ 0) _ hn
  · simpa using X509Version.fromDer_encodeVersion pos (encodeSerial n ++ rest) v hv

theorem UniqueIdentifier.parse_encodeUniqueIdentifier (t : UInt32) (n : Fin 8) (u : Option UniqueIdentifier)
    (hu : (encodeUniqueIdentifier t n u).length < 2 ^ 64) (bs : List UInt8) (hbs : UidAbsent t bs) :
    UniqueIdentifier.parse t ⟨pos, encodeUniqueIdentifier t n u ++ bs⟩ =
      .ok ⟨pos + (encodeUniqueIdentifier t n u).length, bs⟩ u := by
  cases u with
  | none => simpa [encodeUniqueIdentifier] using UniqueIdentifier.parse_absent t (hbs pos)
  | some u =>
    exact UniqueIdentifier.parse_encode pos bs t n u ((length_lt_length_encodeTLV _ _ _ _).trans hu)

/-- A TBS certificate reads back from its encoding, the extension list into its map. -/
theorem TbsCertificate.fromDer_encode_read (c : TbsCertificateFields) (hrd : c.Readable reg)
    (h : c.encode.length < 2 ^ 64) :
    TbsCertificate.fromDer reg ⟨pos, c.encode ++ rest⟩ = .ok ⟨pos + c.encode.length, rest⟩ c.read := by
  have hc0 := (length_lt_length_encodeTLV _ _ _ _).trans h
  have hc := hc0
  simp only [List.length_append] at hc
  have hn : (integerContent c.serial).length < (encodeSerial c.serial).length :=
    length_lt_length_encodeTLV _ _ _ _
  have htail2 : UidAbsent 2 (encodeExtensions 3 c.extensions) :=
    uidAbsent_encodeExtensions (by decide) _ (by omega)
  have htail1 : UidAbsent 1 (encodeUniqueIdentifier 2 c.subjectUidUnused c.subjectUid ++
      encodeExtensions 3 c.extensions) :=
    uidAbsent_encodeUniqueIdentifier (by decide) _ _ (by omega)
      (uidAbsent_encodeExtensions (by decide) _ (by omega))
  have hext := fun p => parseExtensions_encodeExtensions reg p 3 c.extensions hrd.extensions (by omega)
  apply parseBerSequenceDefinedG_encodeSequence pos rest _ _ hc0
  simp only [TbsCertificate.fields, List.append_assoc, bind_apply, IResult.bind_ok, remaining_apply,
    pure_apply, X509Version.fromDer_encodeVersion_serial _ _ c.version c.serial (by omega),
    parseSerial_encodeSerial _ _ c.serial (by omega),
    AlgorithmIdentifier.fromDer_encode _ _ c.signature (by omega),
    X509Name.fromDer_encodeRdnSequence _ _ c.issuer hrd.issuer_rdns (by omega),
    Validity.fromDer_encode, X509Name.fromDer_encodeRdnSequence _ _ c.subject hrd.subject_rdns (by omega),
    SubjectPublicKeyInfo.fromDer_encode _ _ c.subjectPkiUnused c.subjectPki (by omega),
    UniqueIdentifier.fromDerIssuer, UniqueIdentifier.fromDerSubject, orError,
    UniqueIdentifier.parse_encodeUniqueIdentifier _ 1 c.issuerUidUnused c.issuerUid (by omega) _ htail1,
    UniqueIdentifier.parse_encodeUniqueIdentifier _ 2 c.subjectUidUnused c.subjectUid (by omega) _ htail2,
    hext]
  rw [sliceTo_offset_append pos c.encode rest ?_]
  · rfl
  · simp [TbsCertificateFields.encode, encodeSequence, Nat.add_assoc]

theorem X509Certificate.fromDer_encode_read (c : CertificateFields) (hrd : c.tbs.Readable reg)
    (h : c.encode.length < 2 ^ 64) :
    X509Certificate.fromDer reg ⟨pos, c.encode ++ rest⟩ = .ok ⟨pos + c.encode.length, rest⟩ c.read := by
  have hc := (length_lt_length_encodeTLV _ _ _ _).trans h
  simp only [List.length_append] at hc
  exact parseBerSequenceDefinedG_signed_encode pos rest _ X509Certificate.mk _ _
    (fun p q => TbsCertificate.fromDer_encode_read reg p q c.tbs hrd (by omega)) _ _ _ h

theorem X509Certificate.fromDer_encodeCertificate (c : CertificateFields) (hwf : c.tbs.WellFormed reg)
    (h : c.encode.length < 2 ^ 64) :
    X509Certificate.fromDer reg ⟨pos, c.encode ++ rest⟩ =
      .ok ⟨pos + c.encode.length, rest⟩ c.decoded := by
  rw [← CertificateFields.read_eq_decoded hwf]
  exact X509Certificate.fromDer_encode_read reg pos rest c hwf.readable h

set_option maxRecDepth 4000 in
/-- A version 3 certificate with two-RDN Names, both unique identifiers, a critical and a
non-critical extension and BIT STRINGs with unused bits, under a registry with no decoder. -/
theorem X509Certificate.fromDer_encode_v3 :
    let t : ASN1Time := ⟨2024, 1, 1, 0, 0, 0, rfl⟩
    let alg : AlgorithmIdentifier := ⟨⟨[0x2A], rfl⟩, none⟩
    let name : List RelativeDistinguishedName :=
      [⟨[⟨⟨[0x55, 0x04, 0x06], rfl⟩, ⟨.universal, false, 0x13, [0x46, 0x52]⟩⟩]⟩,
        ⟨[⟨⟨[0x55, 0x04, 0x03], rfl⟩, ⟨.universal, false, 0x0C, [0x61]⟩⟩]⟩]
    let c : CertificateFields := ⟨⟨.v3, 258, alg, name, ⟨t, t⟩, name, ⟨alg, ⟨[0xA0]⟩⟩, 4,
      some ⟨⟨[0x01]⟩⟩, 7, some ⟨⟨[0x02]⟩⟩, 1,
      some [⟨⟨[0x2A, 0x03], rfl⟩, true, [0x00], .unsupportedExtension⟩,
        ⟨⟨[0x2A, 0x04], rfl⟩, false, [0x01, 0x02], .unsupportedExtension⟩]⟩, alg, ⟨[0xFF, 0x80]⟩, 7⟩
    X509Certificate.fromDer ⟨fun _ => none, fun _ => none⟩ ⟨0, c.encode ++ []⟩ =
      .ok ⟨0 + c.encode.length, []⟩ c.decoded :=
  X509Certificate.fromDer_encodeCertificate _ 0 [] _
    ⟨by decide, by decide, by simp [Registry.ExtensionsWellFormed, Registry.AcceptsExtension]⟩
    (by decide)

end RoundTrip

/-! ## Panics and values of decoded certificates -/

section Safety

variable (reg : Registry)

theorem TbsCertificate.fromDer_neverPanics
    (hreg : ∀ o p, reg.extensionParser o = some p → p.NeverPanics) :
    (TbsCertificate.fromDer reg).NeverPanics :=
  NeverPanics.assembler fun s =>
    PanicFreeOn.bind_inside X509Version.fromDer_advances X509Version.fromDer_neverPanics fun _ =>
    PanicFreeOn.bind_inside parseSerial_advances parseSerial_neverPanics fun _ =>
    PanicFreeOn.bind_inside AlgorithmIdentifier.fromDer_advances AlgorithmIdentifier.fromDer_neverPanics
      fun _ =>
    PanicFreeOn.bind_inside X509Name.fromDer_advances X509Name.fromDer_neverPanics fun _ =>
    PanicFreeOn.bind_inside Validity.fromDer_advances Validity.fromDer_neverPanics fun _ =>
    PanicFreeOn.bind_inside X509Name.fromDer_advances X509Name.fromDer_neverPanics fun _ =>
    PanicFreeOn.bind_inside SubjectPublicKeyInfo.fromDer_advances SubjectPublicKeyInfo.fromDer_neverPanics
      fun _ =>
    PanicFreeOn.bind_inside (Advances.orError' _ (UniqueIdentifier.parse_advances _))
      (NeverPanics.orError' _ (UniqueIdentifier.parse_neverPanics _)) fun _ =>
    PanicFreeOn.bind_inside (Advances.orError' _ (UniqueIdentifier.parse_advances _))
      (NeverPanics.orError' _ (UniqueIdentifier.parse_neverPanics _)) fun _ =>
    PanicFreeOn.bind_inside (parseExtensions_advances reg 3) (parseExtensions_neverPanics reg hreg 3)
      fun _ => PanicFreeOn.cut s _

theorem X509Certificate.fromDer_neverPanics
    (hreg : ∀ o p, reg.extensionParser o = some p → p.NeverPanics) :
    (X509Certificate.fromDer reg).NeverPanics :=
  NeverPanics.parseBerSequenceDefinedG' <|
    NeverPanics.bind' (TbsCertificate.fromDer_neverPanics reg hreg) fun _ =>
    NeverPanics.bind' AlgorithmIdentifier.fromDer_neverPanics fun _ =>
    NeverPanics.bind' parseSignatureValue_neverPanics fun _ => NeverPanics.pure' _

theorem TbsCertificate.fromDer_appendStable : (TbsCertificate.fromDer reg).AppendStable :=
  AppendStable.assembler <|
    CutStable.bind' X509Version.fromDer_advances fun _ => CutStable.bind' parseSerial_advances fun _ =>
    CutStable.bind' AlgorithmIdentifier.fromDer_advances fun _ =>
    CutStable.bind' X509Name.fromDer_advances fun _ => CutStable.bind' Validity.fromDer_advances fun _ =>
    CutStable.bind' X509Name.fromDer_advances fun _ =>
    CutStable.bind' SubjectPublicKeyInfo.fromDer_advances fun _ =>
    CutStable.bind' (Advances.orError' _ (UniqueIdentifier.parse_advances _)) fun _ =>
    CutStable.bind' (Advances.orError' _ (UniqueIdentifier.parse_advances _)) fun _ =>
    CutStable.bind' (parseExtensions_advances reg 3) fun _ => CutStable.cut _

/-- What every TBS certificate the decoder returns satisfies: its serial number is the value of
its raw serial octets, every RDN of its Names has an attribute, and its extension map is the map
of an extension list, so that it holds each OID once. -/
structure TbsCertificate.Invariant (x : TbsCertificate) : Prop where
  serial : x.serial = beValue x.rawSerial
  issuer_rdns : ∀ rdn ∈ x.issuer.rdnSeq, rdn.set ≠ []
  subject_rdns : ∀ rdn ∈ x.subject.rdnSeq, rdn.set ≠ []
  extensions : ∃ v, x.extensions = extensionMap v

theorem TbsCertificate.fromDer_invariant : (TbsCertificate.fromDer reg).Yields TbsCertificate.Invariant :=
  fun s => Yields.parseBerSequenceDefinedG' (Yields.bind_right fun _ =>
    Yields.bind' parseSerial_value fun _ hs => Yields.bind_right fun _ =>
    Yields.bind' X509Name.fromDer_rdns fun _ hi => Yields.bind_right fun _ =>
    Yields.bind' X509Name.fromDer_rdns fun _ hsub => Yields.bind_right fun _ =>
    Yields.bind_right fun _ => Yields.bind_right fun _ =>
    Yields.bind' (parseExtensions_map reg 3) fun _ hx => Yields.bind_right fun _ =>
    Yields.bind_right fun _ => Yields.pure' ⟨hs, hi, hsub, hx⟩) s

theorem X509Certificate.fromDer_invariant :
    (X509Certificate.fromDer reg).Yields fun x => x.tbsCertificate.Invariant :=
  Yields.parseBerSequenceDefinedG' <|
    Yields.bind' (TbsCertificate.fromDer_invariant reg) fun _ ht => Yields.bind_right fun _ =>
    Yields.bind_right fun _ => Yields.pure' ht

end Safety

end X509Parser
