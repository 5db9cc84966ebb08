import X509Parser.X509.Certificate

/-!
# Certificate revocation lists

`TbsCertList::from_der` reads RFC 5280's TBSCertList, whose optional fields are recognised by
the tag of the next element, and `RevokedCertificate::from_der` each revoked entry. An entry's
`crlEntryExtensions` is read under `opt(complete(..))`: when it is present but malformed the
entry is still read, with an empty extension map, and the entry's SEQUENCE container drops
the rest of its content.
-/

namespace X509Parser

set_option autoImplicit false

open Parser

/-- `RevokedCertificate::from_der`. -/
def RevokedCertificate.fromDer (reg : Registry) : Parser RevokedCertificate :=
  parseBerSequenceDefinedG do
    let serial ← parseSerial
    let revocationDate ← ASN1Time.fromDer
    let extensions ← opt (complete do
      let v ← parseExtensionSequence reg
      extensionsSequenceToMap v)
    pure ⟨serial.2, revocationDate, extensions.getD [], serial.1⟩

/-- Modelled from the spec: `x509_parser::parse_revoked_certificates`, not in `src/`, reads
the SEQUENCE OF revoked entries, every element of which must be an entry. -/
def parseRevokedCertificates (reg : Registry) : Parser (List RevokedCertificate) :=
  parseBerSequenceDefinedG (allConsuming (many0 (complete (RevokedCertificate.fromDer reg))))

/-- The fields of `TbsCertList::from_der`, read on the content of its SEQUENCE; `raw` is cut
from `start_i` to where the last field stopped. -/
def TbsCertList.fields (reg : Registry) (startI : Slice) : Parser TbsCertList := do
  let version ← (opt (X509Version.mk <$> parseBerU32)).orError .invalidVersion
  let signature ← AlgorithmIdentifier.fromDer
  let issuer ← X509Name.fromDer
  let thisUpdate ← ASN1Time.fromDer
  let nextUpdate ← ASN1Time.fromDerOpt
  let revokedCertificates ← opt (complete (parseRevokedCertificates reg))
  let extensions ← parseExtensions reg 0
  let i ← remaining
  let raw ← sliceTo startI (startI.offset i)
  pure ⟨version, signature, issuer, thisUpdate, nextUpdate, revokedCertificates.getD [],
    extensions, raw⟩

/-- `TbsCertList::from_der`. -/
def TbsCertList.fromDer (reg : Registry) : Parser TbsCertList := fun startI =>
  parseBerSequenceDefinedG (TbsCertList.fields reg startI) startI

/-- `CertificateRevocationList::from_der`. -/
def CertificateRevocationList.fromDer (reg : Registry) : Parser CertificateRevocationList :=
  parseBerSequenceDefinedG do
    let tbsCertList ← TbsCertList.fromDer reg
    let signatureAlgorithm ← AlgorithmIdentifier.fromDer
    let signatureValue ← parseSignatureValue
    pure ⟨tbsCertList, signatureAlgorithm, signatureValue⟩

theorem TbsCertList.fields_rawUpTo (reg : Registry) (s : Slice) :
    RawUpTo TbsCertList.raw s (TbsCertList.fields reg s) :=
  RawUpTo.bind' _ _ (Advances.orError' _ (Advances.opt' (Advances.map' _ Advances.parseBerU32'))) fun _ =>
    RawUpTo.bind' _ _ AlgorithmIdentifier.fromDer_advances fun _ =>
    RawUpTo.bind' _ _ X509Name.fromDer_advances fun _ =>
    RawUpTo.bind' _ _ ASN1Time.fromDer_advances fun _ =>
    RawUpTo.bind' _ _ ASN1Time.fromDerOpt_advances fun _ =>
    RawUpTo.bind' _ _ (Advances.opt' (Advances.complete' (Advances.parseBerContainer' _))) fun _ =>
    RawUpTo.bind' _ _ (parseExtensions_advances reg 0) fun _ =>
    RawUpTo.cut _ _ _ fun _ => rfl

theorem CertificateRevocationList.fromDer_advances (reg : Registry) :
    (CertificateRevocationList.fromDer reg).Advances :=
  Advances.parseBerContainer' _

/-! ## Revocation lists as the grammar builds them -/

/-- A revoked entry; an absent `crlEntryExtensions` is `none`. -/
structure RevokedCertificateFields where
  userCertificate : Nat
  revocationDate : ASN1Time
  extensions : Option (List X509Extension)

/-- The values a TBSCertList is built from; an empty revoked list is omitted. -/
structure TbsCertListFields where
  version : Option X509Version
  signature : AlgorithmIdentifier
  issuer : List RelativeDistinguishedName
  thisUpdate : ASN1Time
  nextUpdate : Option ASN1Time
  revokedCertificates : List RevokedCertificateFields
  extensions : Option (List X509Extension)

structure CrlFields where
  tbs : TbsCertListFields
  signatureAlgorithm : AlgorithmIdentifier
  signatureValue : BitStringObject
  signatureUnused : Fin 8

def RevokedCertificateFields.encode (e : RevokedCertificateFields) : List UInt8 :=
  encodeSequence (encodeSerial e.userCertificate ++ encodeTime e.revocationDate ++
    (e.extensions.map fun es => encodeSequence (es.flatMap X509Extension.encode)).getD [])

/-- The revoked list, left out when empty. -/
def encodeRevokedCertificates : List RevokedCertificateFields → List UInt8
  | [] => []
  | rs => encodeSequence (rs.flatMap RevokedCertificateFields.encode)

def TbsCertListFields.encode (l : TbsCertListFields) : List UInt8 :=
  encodeSequence ((l.version.map fun v => encodeInteger (integerContent v.val.toNat)).getD [] ++
    l.signature.encode ++ encodeRdnSequence l.issuer ++ encodeTime l.thisUpdate ++
    (l.nextUpdate.map encodeTime).getD [] ++ encodeRevokedCertificates l.revokedCertificates ++
    encodeExtensions 0 l.extensions)

def CrlFields.encode (l : CrlFields) : List UInt8 :=
  encodeSequence (l.tbs.encode ++ l.signatureAlgorithm.encode ++
    encodeBitString l.signatureUnused l.signatureValue)

def RevokedCertificateFields.decoded (e : RevokedCertificateFields) : RevokedCertificate :=
  ⟨e.userCertificate, e.revocationDate, (e.extensions.getD []).map (fun x => (x.oid, x)),
    integerContent e.userCertificate⟩

def TbsCertListFields.decoded (l : TbsCertListFields) : TbsCertList :=
  ⟨l.version, l.signature, ⟨l.issuer, encodeRdnSequence l.issuer⟩, l.thisUpdate, l.nextUpdate,
    l.revokedCertificates.map RevokedCertificateFields.decoded,
    (l.extensions.getD []).map (fun e => (e.oid, e)), l.encode⟩

def CrlFields.decoded (l : CrlFields) : CertificateRevocationList :=
  ⟨l.tbs.decoded, l.signatureAlgorithm, l.signatureValue⟩

structure TbsCertListFields.WellFormed (reg : Registry) (l : TbsCertListFields) : Prop where
  issuer_rdns : ∀ r ∈ l.issuer, r.set ≠ []
  entry_extensions : ∀ e ∈ l.revokedCertificates, reg.ExtensionsWellFormed e.extensions
  extensions : reg.ExtensionsWellFormed l.extensions

/-- What the decoder makes of an entry, and of a list, whose extension lists may repeat an OID:
each map keeps the last extension of each OID. -/
def RevokedCertificateFields.read (e : RevokedCertificateFields) : RevokedCertificate :=
  { e.decoded with extensions := extensionMap (e.extensions.getD []) }

def TbsCertListFields.read (l : TbsCertListFields) : TbsCertList :=
  { l.decoded with
    revokedCertificates := l.revokedCertificates.map RevokedCertificateFields.read
    extensions := extensionMap (l.extensions.getD []) }

def CrlFields.read (l : CrlFields) : CertificateRevocationList :=
  ⟨l.tbs.read, l.signatureAlgorithm, l.signatureValue⟩

/-- What the decoder needs to read `l` back: an issuer whose RDNs have an attribute, and
extensions their decoders accept, an OID possibly repeated. -/
structure TbsCertListFields.Readable (reg : Registry) (l : TbsCertListFields) : Prop where
  issuer_rdns : ∀ r ∈ l.issuer, r.set ≠ []
  entry_extensions : ∀ e ∈ l.revokedCertificates, reg.ExtensionsAccepted e.extensions
  extensions : reg.ExtensionsAccepted l.extensions

theorem TbsCertListFields.WellFormed.readable {reg : Registry} {l : TbsCertListFields}
    (h : l.WellFormed reg) : l.Readable reg :=
  ⟨h.issuer_rdns, fun e he => (h.entry_extensions e he).accepted, h.extensions.accepted⟩

/-- With distinct extension OIDs each map holds one entry per extension. -/
theorem CrlFields.read_eq_decoded {reg : Registry} {l : CrlFields} (h : l.tbs.WellFormed reg) :
    l.read = l.decoded := by
  have hrev : l.tbs.revokedCertificates.map RevokedCertificateFields.read =
      l.tbs.revokedCertificates.map RevokedCertificateFields.decoded :=
    List.map_congr_left fun e he => by
      simp only [RevokedCertificateFields.read, extensionMap_getD reg (h.entry_extensions e he)]
      rfl
  simp only [CrlFields.read, TbsCertListFields.read, hrev, extensionMap_getD reg h.extensions]
  rfl

/-! ## The optional fields of a TBSCertList -/

section RoundTrip

variable (reg : Registry) (pos : Nat) (rest : List UInt8)

theorem getD_map_extensionMap (ex : Option (List X509Extension)) :
    (ex.map extensionMap).getD [] = extensionMap (ex.getD []) := by
  cases ex <;> rfl

/-- An entry's optional extension list, last in the entry, reads back into its map. -/
theorem entryExtensions_encode (ex : Option (List X509Extension)) (hex : reg.ExtensionsAccepted ex)
    (h : ((ex.map fun es => encodeSequence (es.flatMap X509Extension.encode)).getD []).length < 2 ^ 64) :
    opt (complete do
        let v ← parseExtensionSequence reg
        extensionsSequenceToMap v)
      ⟨pos, (ex.map fun es => encodeSequence (es.flatMap X509Extension.encode)).getD []⟩ =
      .ok ⟨pos + ((ex.map fun es => encodeSequence (es.flatMap X509Extension.encode)).getD []).length, []⟩
        (ex.map extensionMap) := by
  cases ex with
  | none => rfl
  | some es =>
    have hseq := parseExtensionSequence_encode reg pos [] es (hex es rfl) h
    simp only [List.append_nil] at hseq
    simp only [Option.map_some', Option.getD_some, opt, complete, bind_apply, hseq, IResult.bind_ok,
      extensionsSequenceToMap]

theorem RevokedCertificate.fromDer_encode_read (e : RevokedCertificateFields)
    (hex : reg.ExtensionsAccepted e.extensions) (h : e.encode.length < 2 ^ 64) :
    RevokedCertificate.fromDer reg ⟨pos, e.encode ++ rest⟩ =
      .ok ⟨pos + e.encode.length, rest⟩ e.read := by
  have hc0 := (length_lt_length_encodeTLV _ _ _ _).trans h
  have hc := hc0
  simp only [List.length_append] at hc
  have hn : (integerContent e.userCertificate).length < (encodeSerial e.userCertificate).length :=
    length_lt_length_encodeTLV _ _ _ _
  have hext := fun p => entryExtensions_encode reg p e.extensions hex (by omega)
  apply parseBerSequenceDefinedG_encodeSequence pos rest _ _ hc0
  simp only [List.append_assoc, bind_apply, IResult.bind_ok, pure_apply,
    parseSerial_encodeSerial _ _ e.userCertificate (by omega), ASN1Time.fromDer_encodeTime, hext,
    getD_map_extensionMap]
  rfl

theorem encodeRevokedCertificates_of_ne_nil {rs : List RevokedCertificateFields} (hrs : rs ≠ []) :
    encodeRevokedCertificates rs = encodeSequence (rs.flatMap RevokedCertificateFields.encode) := by
  cases rs with
  | nil => exact absurd rfl hrs
  | cons r rs => rfl

theorem complete_fromDer_nil_revoked (p : Nat) :
    complete (RevokedCertificate.fromDer reg) ⟨p, []⟩ = .error (.nomError .complete) := rfl

/-- The revoked list reads back, and an omitted one leaves the CRL extensions unread. -/
theorem revokedCertificates_encode (rs : List RevokedCertificateFields)
    (hex : ∀ e ∈ rs, reg.ExtensionsAccepted e.extensions) (ex : Option (List X509Extension))
    (h : (encodeRevokedCertificates rs ++ encodeExtensions 0 ex).length < 2 ^ 64) :
    opt (complete (parseRevokedCertificates reg))
      ⟨pos, encodeRevokedCertificates rs ++ encodeExtensions 0 ex⟩ =
      .ok ⟨pos + (encodeRevokedCertificates rs).length, encodeExtensions 0 ex⟩
        (if rs.isEmpty then none else some (rs.map RevokedCertificateFields.read)) := by
  rw [List.length_append] at h
  cases rs with
  | nil =>
    cases ex with
    | none => rfl
    | some es =>
      have h' : (encodeExtensions 0 (some es)).length < 2 ^ 64 := by
        simpa [encodeRevokedCertificates] using h
      have hx : (encodeSequence (es.flatMap X509Extension.encode)).length < 2 ^ 64 :=
        (length_lt_length_encodeTLV .contextSpecific true 0 _).trans h'
      have hother := parseBerSequenceDefinedG_other pos []
        (allConsuming (many0 (complete (RevokedCertificate.fromDer reg)))) .contextSpecific true
        (show (0 : UInt32) ≠ BerTag.sequence by decide) _ hx
      simp only [List.append_nil] at hother
      simp only [encodeRevokedCertificates, encodeExtensions, List.nil_append, opt, complete,
        parseRevokedCertificates, hother, List.length_nil, Nat.add_zero, List.isEmpty_nil, if_true]
  | cons r rs' =>
    rw [encodeRevokedCertificates_of_ne_nil (List.cons_ne_nil r rs')] at h ⊢
    have hc := (length_lt_length_encodeTLV _ _ _ _).trans (by omega : (encodeSequence
      ((r :: rs').flatMap RevokedCertificateFields.encode)).length < 2 ^ 64)
    have hreads : ReadsBack (RevokedCertificate.fromDer reg) RevokedCertificateFields.encode
        RevokedCertificateFields.read (r :: rs') := fun e he => ⟨List.ne_nil_of_length_pos
          (Nat.lt_of_le_of_lt (Nat.zero_le _) (length_lt_length_encodeTLV _ _ _ _)), fun p q =>
        RevokedCertificate.fromDer_encode_read reg p q e (hex e he)
          ((length_le_length_flatMap_of_mem _ he).trans_lt hc)⟩
    have hseq := parseBerSequenceDefinedG_many0_flatMap pos (encodeExtensions 0 ex) _ _ _
      (fun p => ⟨_, complete_fromDer_nil_revoked reg p⟩) _ hreads.complete hc
    simp only [opt, complete, parseRevokedCertificates, hseq, List.isEmpty_cons, Bool.false_eq_true,
      if_false]

theorem getD_revoked (rs : List RevokedCertificateFields) :
    (if rs.isEmpty then none else some (rs.map RevokedCertificateFields.read)).getD [] =
      rs.map RevokedCertificateFields.read := by
  cases rs <;> rfl

/-- No time stands before the revoked list and the CRL extensions. -/
theorem timeAbsent_revoked (rs : List RevokedCertificateFields) (ex : Option (List X509Extension))
    (h : (encodeRevokedCertificates rs ++ encodeExtensions 0 ex).length < 2 ^ 64) :
    TimeAbsent (encodeRevokedCertificates rs ++ encodeExtensions 0 ex) := by
  rw [List.length_append] at h
  cases rs with
  | nil =>
    cases ex with
    | none => exact timeAbsent_nil
    | some es =>
      have h' : (encodeExtensions 0 (some es)).length < 2 ^ 64 := by
        simpa [encodeRevokedCertificates] using h
      simpa [encodeRevokedCertificates, encodeExtensions] using
        timeAbsent_encodeTLV [] .contextSpecific true (by decide) (by decide) _
          ((length_lt_length_encodeTLV .contextSpecific true 0 _).trans h')
  | cons r rs =>
    rw [encodeRevokedCertificates_of_ne_nil (List.cons_ne_nil r rs)] at h ⊢
    have hl := length_lt_length_encodeTLV .universal true BerTag.sequence
      ((r :: rs).flatMap RevokedCertificateFields.encode)
    exact timeAbsent_encodeTLV _ .universal true (by decide) (by decide) _
      (hl.trans (by unfold encodeSequence at h; omega))

theorem crlVersion_encode (v : Option X509Version) (a : AlgorithmIdentifier)
    (ha : a.encode.length < 2 ^ 64) (bs : List UInt8) :
    (opt (X509Version.mk <$> parseBerU32)).orError .invalidVersion
      ⟨pos, (v.map fun v => encodeInteger (integerContent v.val.toNat)).getD [] ++ (a.encode ++ bs)⟩ =
      .ok ⟨pos + ((v.map fun v => encodeInteger (integerContent v.val.toNat)).getD []).length,
        a.encode ++ bs⟩ v := by
  cases v with
  | none =>
    have hc := (length_lt_length_encodeTLV _ _ _ _).trans ha
    have hu : parseBerU32 ⟨pos, a.encode ++ bs⟩ = .error (.der .invalidTag) := by
      simp [parseBerU32, parseBerInteger, AlgorithmIdentifier.encode, encodeSequence,
        berContentWithTag_other pos bs _ _ (show BerTag.sequence ≠ BerTag.integer by decide) _ hc]
    simp [orError, opt, hu]
  | some v => simp [orError, opt, parseBerU32_encodeInteger]

theorem nextUpdate_encode (t : Option ASN1Time) (bs : List UInt8) (hbs : TimeAbsent bs) :
    ASN1Time.fromDerOpt ⟨pos, (t.map encodeTime).getD [] ++ bs⟩ =
      .ok ⟨pos + ((t.map encodeTime).getD []).length, bs⟩ t := by
  cases t with
  | none => simpa using ASN1Time.fromDerOpt_absent pos hbs
  | some t => exact ASN1Time.fromDerOpt_encodeTime pos bs t

/-- A TBS revocation list reads back from its encoding, each extension list into its map. -/
theorem TbsCertList.fromDer_encode_read (l : TbsCertListFields) (hrd : l.Readable reg)
    (h : l.encode.length < 2 ^ 64) :
    TbsCertList.fromDer reg ⟨pos, l.encode ++ rest⟩ = .ok ⟨pos + l.encode.length, rest⟩ l.read := by
  have hc0 := (length_lt_length_encodeTLV _ _ _ _).trans h
  have hc := hc0
  simp only [List.length_append] at hc
  have htail : (encodeRevokedCertificates l.revokedCertificates ++ encodeExtensions 0 l.extensions).length <
      2 ^ 64 := by
    simp only [List.length_append]; omega
  have hrev := fun p => revokedCertificates_encode reg p l.revokedCertificates hrd.entry_extensions
    l.extensions htail
  have hnext := fun p => nextUpdate_encode p l.nextUpdate _ (timeAbsent_revoked _ _ htail)
  have hext := fun p => parseExtensions_encodeExtensions reg p 0 l.extensions hrd.extensions (by omega)
  apply parseBerSequenceDefinedG_encodeSequence pos rest _ _ hc0
  simp only [TbsCertList.fields, List.append_assoc, bind_apply, IResult.bind_ok, remaining_apply, pure_apply,
    crlVersion_encode _ l.version l.signature (by omega),
    AlgorithmIdentifier.fromDer_encode _ _ l.signature (by omega),
    X509Name.fromDer_encodeRdnSequence _ _ l.issuer hrd.issuer_rdns (by omega),
    ASN1Time.fromDer_encodeTime, hnext, hrev, hext, getD_revoked]
  rw [sliceTo_offset_append pos l.encode rest ?_]
  · rfl
  · simp [TbsCertListFields.encode, encodeSequence, Nat.add_assoc]

theorem CertificateRevocationList.fromDer_encode_read (l : CrlFields) (hrd : l.tbs.Readable reg)
    (h : l.encode.length < 2 ^ 64) :
    CertificateRevocationList.fromDer reg ⟨pos, l.encode ++ rest⟩ =
      .ok ⟨pos + l.encode.length, rest⟩ l.read := by
  have hc := (length_lt_length_encodeTLV _ _ _ _).trans h
  simp only [List.length_append] at hc
  exact parseBerSequenceDefinedG_signed_encode pos rest _ CertificateRevocationList.mk _ _
    (fun p q => TbsCertList.fromDer_encode_read reg p q l.tbs hrd (by omega)) _ _ _ h

theorem CertificateRevocationList.fromDer_encodeCrl (l : CrlFields) (hwf : l.tbs.WellFormed reg)
    (h : l.encode.length < 2 ^ 64) :
    CertificateRevocationList.fromDer reg ⟨pos, l.encode ++ rest⟩ =
      .ok ⟨pos + l.encode.length, rest⟩ l.decoded := by
  rw [← CrlFields.read_eq_decoded hwf]
  exact CertificateRevocationList.fromDer_encode_read reg pos rest l hwf.readable h

set_option maxRecDepth 4000 in
/-- A version 2 CRL with a two-RDN issuer, a next update, two revoked entries, one with an
extension, and two CRL extensions, under a registry with no decoder. -/
theorem CertificateRevocationList.fromDer_encode_v2 :
    let t : ASN1Time := ⟨2024, 1, 1, 0, 0, 0, rfl⟩
    let t' : ASN1Time := ⟨2024, 2, 1, 12, 30, 0, rfl⟩
    let alg : AlgorithmIdentifier := ⟨⟨[0x2A], rfl⟩, none⟩
    let ext : X509Extension := ⟨⟨[0x2A, 0x03], rfl⟩, false, [0x0A, 0x01, 0x01], .unsupportedExtension⟩
    let l : CrlFields := ⟨⟨some .v2, alg,
      [⟨[⟨⟨[0x55, 0x04, 0x06], rfl⟩, ⟨.universal, false, 0x13, [0x46, 0x52]⟩⟩]⟩,
        ⟨[⟨⟨[0x55, 0x04, 0x03], rfl⟩, ⟨.universal, false, 0x0C, [0x61]⟩⟩]⟩],
      t, some t', [⟨1, t, some [ext]⟩, ⟨300, t', none⟩],
      some [⟨⟨[0x2A, 0x04], rfl⟩, false, [0x02, 0x01, 0x05], .unsupportedExtension⟩,
        ⟨⟨[0x2A, 0x05], rfl⟩, true, [], .unsupportedExtension⟩]⟩, alg, ⟨[0xFF, 0xF0]⟩, 4⟩
    CertificateRevocationList.fromDer ⟨fun _ => none, fun _ => none⟩ ⟨0, l.encode ++ []⟩ =
      .ok ⟨0 + l.encode.length, []⟩ l.decoded :=
  CertificateRevocationList.fromDer_encodeCrl _ 0 [] _
    ⟨by decide, by simp [Registry.ExtensionsWellFormed, Registry.AcceptsExtension],
      by simp [Registry.ExtensionsWellFormed, Registry.AcceptsExtension]⟩ (by decide)

end RoundTrip

/-- A CRL with one entry, serial 1, whose `crlEntryExtensions` is a SEQUENCE holding a NULL:
the CRL is read, and the entry with an empty extension map. -/
theorem CertificateRevocationList.fromDer_drops_malformed_entry_extensions :
    (CertificateRevocationList.fromDer ⟨fun _ => none, fun _ => none⟩ ⟨0,
      [0x30, 0x3A,
        0x30, 0x30,
          0x30, 0x03, 0x06, 0x01, 0x2A,
          0x30, 0x00,
          0x17, 0x0D, 0x32, 0x34, 0x30, 0x31, 0x30, 0x31, 0x30, 0x30, 0x30, 0x30, 0x30, 0x30, 0x5A,
          0x30, 0x18,
            0x30, 0x16,
              0x02, 0x01, 0x01,
              0x17, 0x0D, 0x32, 0x34, 0x30, 0x31, 0x30, 0x31, 0x30, 0x30, 0x30, 0x30, 0x30, 0x30, 0x5A,
              0x30, 0x02, 0x05, 0x00,
        0x30, 0x03, 0x06, 0x01, 0x2A,
        0x03, 0x01, 0x00]⟩).map
      (fun crl => crl.tbsCertList.revokedCertificates.map fun e => (e.userCertificate, e.extensions)) =
      .ok ⟨60, []⟩ [(1, [])] := by
  decide

/-! ## Panics and values of decoded revocation lists -/

section Safety

variable (reg : Registry)

theorem RevokedCertificate.fromDer_neverPanics
    (hreg : ∀ o p, reg.extensionParser o = some p → p.NeverPanics) :
    (RevokedCertificate.fromDer reg).NeverPanics :=
  NeverPanics.parseBerSequenceDefinedG' <|
    NeverPanics.bind' parseSerial_neverPanics fun _ =>
    NeverPanics.bind' ASN1Time.fromDer_neverPanics fun _ =>
    NeverPanics.bind' (NeverPanics.opt' (NeverPanics.complete' (extensionList_neverPanics reg hreg))) fun _ =>
      NeverPanics.pure' _

theorem parseRevokedCertificates_neverPanics
    (hreg : ∀ o p, reg.extensionParser o = some p → p.NeverPanics) :
    (parseRevokedCertificates reg).NeverPanics :=
  NeverPanics.parseBerSequenceDefinedG' <| NeverPanics.allConsuming' <| NeverPanics.many0' <|
    NeverPanics.complete' (RevokedCertificate.fromDer_neverPanics reg hreg)

theorem TbsCertList.fromDer_neverPanics
    (hreg : ∀ o p, reg.extensionParser o = some p → p.NeverPanics) :
    (TbsCertList.fromDer reg).NeverPanics :=
  NeverPanics.assembler fun s =>
    PanicFreeOn.bind_inside (Advances.orError' _ (Advances.opt' (Advances.map' _ Advances.parseBerU32')))
      (NeverPanics.orError' _ (NeverPanics.opt' (NeverPanics.map' _ NeverPanics.parseBerU32'))) fun _ =>
    PanicFreeOn.bind_inside AlgorithmIdentifier.fromDer_advances AlgorithmIdentifier.fromDer_neverPanics
      fun _ =>
    PanicFreeOn.bind_inside X509Name.fromDer_advances X509Name.fromDer_neverPanics fun _ =>
    PanicFreeOn.bind_inside ASN1Time.fromDer_advances ASN1Time.fromDer_neverPanics fun _ =>
    PanicFreeOn.bind_inside ASN1Time.fromDerOpt_advances ASN1Time.fromDerOpt_neverPanics fun _ =>
    PanicFreeOn.bind_inside (Advances.opt' (Advances.complete' (Advances.parseBerContainer' _)))
      (NeverPanics.opt' (NeverPanics.complete' (parseRevokedCertificates_neverPanics reg hreg))) fun _ =>
    PanicFreeOn.bind_inside (parseExtensions_advances reg 0) (parseExtensions_neverPanics reg hreg 0)
      fun _ => PanicFreeOn.cut s _

theorem CertificateRevocationList.fromDer_neverPanics
    (hreg : ∀ o p, reg.extensionParser o = some p → p.NeverPanics) :
    (CertificateRevocationList.fromDer reg).NeverPanics :=
  NeverPanics.parseBerSequenceDefinedG' <|
    NeverPanics.bind' (TbsCertList.fromDer_neverPanics reg hreg) fun _ =>
    NeverPanics.bind' AlgorithmIdentifier.fromDer_neverPanics fun _ =>
    NeverPanics.bind' parseSignatureValue_neverPanics fun _ => NeverPanics.pure' _

theorem RevokedCertificate.fromDer_consumes : (RevokedCertificate.fromDer reg).Consumes 2 :=
  parseBerContainer_consumes _

theorem TbsCertList.fromDer_appendStable : (TbsCertList.fromDer reg).AppendStable :=
  AppendStable.assembler <|
    CutStable.bind' (Advances.orError' _ (Advances.opt' (Advances.map' _ Advances.parseBerU32'))) fun _ =>
    CutStable.bind' AlgorithmIdentifier.fromDer_advances fun _ =>
    CutStable.bind' X509Name.fromDer_advances fun _ => CutStable.bind' ASN1Time.fromDer_advances fun _ =>
    CutStable.bind' ASN1Time.fromDerOpt_advances fun _ =>
    CutStable.bind' (Advances.opt' (Advances.complete' (Advances.parseBerContainer' _))) fun _ =>
    CutStable.bind' (parseExtensions_advances reg 0) fun _ => CutStable.cut _

/-- What every revoked entry the decoder returns satisfies: its serial number is the value of
its raw serial octets, and its extension map is the map of an extension list. -/
structure RevokedCertificate.Invariant (e : RevokedCertificate) : Prop where
  serial : e.userCertificate = beValue e.rawSerial
  extensions : ∃ v, e.extensions = extensionMap v

/-- What every TBS revocation list the decoder returns satisfies: every RDN of its issuer has an
attribute, every entry satisfies the entry invariant, and its extension map is the map of an
extension list. -/
structure TbsCertList.Invariant (l : TbsCertList) : Prop where
  issuer_rdns : ∀ rdn ∈ l.issuer.rdnSeq, rdn.set ≠ []
  revoked : ∀ e ∈ l.revokedCertificates, e.Invariant
  extensions : ∃ v, l.extensions = extensionMap v

theorem RevokedCertificate.fromDer_invariant :
    (RevokedCertificate.fromDer reg).Yields RevokedCertificate.Invariant :=
  Yields.parseBerSequenceDefinedG' <|
    Yields.bind' parseSerial_value fun _ hs => Yields.bind_right fun _ =>
    Yields.bind' (Yields.opt' (Yields.complete' (extensionList_map reg))) fun o ho =>
      Yields.pure' ⟨hs, by
        cases o with
        | none => exact ⟨[], rfl⟩
        | some m => exact ho m rfl⟩

theorem parseRevokedCertificates_invariant :
    (parseRevokedCertificates reg).Yields fun es => ∀ e ∈ es, e.Invariant :=
  Yields.parseBerSequenceDefinedG' <| Yields.allConsuming' <| Yields.many0' <|
    Yields.complete' (RevokedCertificate.fromDer_invariant reg)

theorem TbsCertList.fromDer_invariant : (TbsCertList.fromDer reg).Yields TbsCertList.Invariant :=
  fun s => Yields.parseBerSequenceDefinedG' (Yields.bind_right fun _ => Yields.bind_right fun _ =>
    Yields.bind' X509Name.fromDer_rdns fun _ hi => Yields.bind_right fun _ => Yields.bind_right fun _ =>
    Yields.bind' (Yields.opt' (Yields.complete' (parseRevokedCertificates_invariant reg))) fun o ho =>
    Yields.bind' (parseExtensions_map reg 0) fun _ hx => Yields.bind_right fun _ =>
    Yields.bind_right fun _ => Yields.pure' ⟨hi, by
      cases o with
      | none => exact fun _ h => nomatch h
      | some es => exact ho es rfl, hx⟩) s

theorem CertificateRevocationList.fromDer_invariant :
    (CertificateRevocationList.fromDer reg).Yields fun l => l.tbsCertList.Invariant :=
  Yields.parseBerSequenceDefinedG' <|
    Yields.bind' (TbsCertList.fromDer_invariant reg) fun _ ht => Yields.bind_right fun _ =>
    Yields.bind_right fun _ => Yields.pure' ht

end Safety

end X509Parser
