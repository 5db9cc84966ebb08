import X509Parser.X509.Lookup
import X509Parser.X509.Accessors

/-!
# What the decoders guarantee on every input

Results over every byte string for the decoders of `x509.rs`, assembled from the per-decoder
lemmas of the modules before: what the envelopes consume and where the TBS raw spans end;
panics; trailing octets and loops; the invariants of the values returned; and what the
accessors read on the values the grammar builds.
-/

namespace X509Parser

set_option autoImplicit false

open Parser

/-! ## What the decoders consume -/

theorem envelope_decoders_frame_one_element (reg : Registry) :
    FramesOneElement (X509Certificate.fromDer reg) ∧
      FramesOneElement (CertificateRevocationList.fromDer reg) ∧
      FramesOneElement (X509CertificationRequest.fromDer reg) :=
  ⟨parseBerContainer_frames _, parseBerContainer_frames _, parseBerContainer_frames _⟩

/-- Where the raw span of a TBS assembler ends: the element it consumes is its raw span followed
by what its fields left of the SEQUENCE's content, so the span is the whole element exactly when
the fields read all of the content. -/
def RawEndsWhereFieldsStop {γ : Type} (decoder : Parser γ) (fields : Slice → Parser γ)
    (raw : γ → List UInt8) : Prop :=
  ∀ i r x, decoder i = .ok r x → ∃ hdr n len left, readHeader i.bytes = .ok hdr n ∧
    hdr.len = .definite len ∧ n + len ≤ i.len ∧ r = i.drop (n + len) ∧
    fields i ((i.drop n).take len) = .ok left x ∧ raw x ++ left.bytes = i.bytes.take (n + len) ∧
    (left.bytes = [] ↔ raw x = i.bytes.take (n + len))

theorem rawEndsWhereFieldsStop_of_rawUpTo {γ : Type} {fields : Slice → Parser γ}
    {raw : γ → List UInt8} (hg : ∀ s, RawUpTo raw s (fields s)) :
    RawEndsWhereFieldsStop (fun s => parseBerSequenceDefinedG (fields s) s) fields raw :=
  fun i _ _ h => by
    obtain ⟨hdr, n, len, left, hh, hl, hle, hr, hf, hx⟩ := parseBerSequenceDefinedG_raw_ends (hg i) h
    refine ⟨hdr, n, len, left, hh, hl, hle, hr, hf, hx, ?_⟩
    rw [← hx]
    exact (eq_comm.trans List.append_right_eq_self).symm

theorem tbs_raw_ends_where_fields_stop (reg : Registry) :
    RawEndsWhereFieldsStop (TbsCertificate.fromDer reg) (TbsCertificate.fields reg) TbsCertificate.raw ∧
      RawEndsWhereFieldsStop (TbsCertList.fromDer reg) (TbsCertList.fields reg) TbsCertList.raw ∧
      RawEndsWhereFieldsStop (X509CertificationRequestInfo.fromDer reg)
        (X509CertificationRequestInfo.fields reg) X509CertificationRequestInfo.raw :=
  ⟨rawEndsWhereFieldsStop_of_rawUpTo (TbsCertificate.fields_rawUpTo reg),
    rawEndsWhereFieldsStop_of_rawUpTo (TbsCertList.fields_rawUpTo reg),
    rawEndsWhereFieldsStop_of_rawUpTo (X509CertificationRequestInfo.fields_rawUpTo reg)⟩

/-- A request body whose content ends with a NULL after one attribute of an OID with no decoder:
the body is consumed whole, and its raw span stops before the NULL. -/
theorem X509CertificationRequestInfo.fromDer_raw_before_trailing_null :
    (X509CertificationRequestInfo.fromDer ⟨fun _ => none, fun _ => none⟩ ⟨0, [0x30, 0x1C,
      0x02, 0x01, 0x00, 0x30, 0x00, 0x30, 0x08, 0x30, 0x03, 0x06, 0x01, 0x2A, 0x03, 0x01, 0x00,
      0xA0, 0x09, 0x30, 0x07, 0x06, 0x01, 0x2A, 0x31, 0x02, 0x05, 0x00, 0x05, 0x00]⟩).map
        X509CertificationRequestInfo.raw =
      .ok ⟨30, []⟩ [0x30, 0x1C, 0x02, 0x01, 0x00, 0x30, 0x00, 0x30, 0x08, 0x30, 0x03, 0x06, 0x01, 0x2A,
        0x03, 0x01, 0x00, 0xA0, 0x09, 0x30, 0x07, 0x06, 0x01, 0x2A, 0x31, 0x02, 0x05, 0x00] :=
  rfl

/-! ## Panics -/

/-- With registered extension decoders that never panic, the decoders of Names, algorithm
identifiers, keys, extensions, certificates and revocation lists never panic, on any input:
every slice they cut is in range. -/
theorem decoders_never_panic (reg : Registry)
    (hreg : ∀ o p, reg.extensionParser o = some p → p.NeverPanics) :
    X509Name.fromDer.NeverPanics ∧ AlgorithmIdentifier.fromDer.NeverPanics ∧
      SubjectPublicKeyInfo.fromDer.NeverPanics ∧ (X509Extension.fromDer reg).NeverPanics ∧
      (TbsCertificate.fromDer reg).NeverPanics ∧ (X509Certificate.fromDer reg).NeverPanics ∧
      (CertificateRevocationList.fromDer reg).NeverPanics :=
  ⟨X509Name.fromDer_neverPanics, AlgorithmIdentifier.fromDer_neverPanics,
    SubjectPublicKeyInfo.fromDer_neverPanics, X509Extension.fromDer_neverPanics reg hreg,
    TbsCertificate.fromDer_neverPanics reg hreg, X509Certificate.fromDer_neverPanics reg hreg,
    CertificateRevocationList.fromDer_neverPanics reg hreg⟩

/-- Under the registry with no decoder. -/
theorem decoders_never_panic_unregistered :
    (∀ o p, (⟨fun _ => none, fun _ => none⟩ : Registry).extensionParser o = some p → p.NeverPanics) ∧
      (X509Certificate.fromDer ⟨fun _ => none, fun _ => none⟩).NeverPanics :=
  have ⟨_, _, _, _, _, hcert, _⟩ := decoders_never_panic ⟨fun _ => none, fun _ => none⟩ fun _ _ h => by
    cases h
  ⟨(fun _ _ h => by cases h), hcert⟩

/-- With registered attribute decoders that consume a prefix of their input and never panic, the
one panic of the request decoders is `&rem[1..]` in `X509Version::from_der_required`. That slice
is out of range exactly after a header not numbered 0 that ends the input; an attribute never
panics; a request body panics exactly where its version step does on the body's content; and a
request exactly where its body does. -/
theorem csr_decoders_panic_only_at_version_slice (reg : Registry)
    (hadv : ∀ o p, reg.attributeParser o = some p → p.Advances)
    (hnp : ∀ o p, reg.attributeParser o = some p → p.NeverPanics) :
    (∀ i : Slice, X509Version.fromDerRequired i = .panic ↔
      ∃ rem hdr, berReadElementHeader i = .ok rem hdr ∧ hdr.tag ≠ 0 ∧ rem.len = 0) ∧
    (X509CriAttribute.fromDer reg).NeverPanics ∧
    (∀ i : Slice, X509CertificationRequestInfo.fromDer reg i = .panic ↔
      ∃ hdr n len, readHeader i.bytes = .ok hdr n ∧ hdr.len = .definite len ∧ n + len ≤ i.len ∧
        hdr.tag = BerTag.sequence ∧ X509Version.fromDerRequired ((i.drop n).take len) = .panic) ∧
    (∀ i : Slice, X509CertificationRequest.fromDer reg i = .panic ↔
      ∃ hdr n len, readHeader i.bytes = .ok hdr n ∧ hdr.len = .definite len ∧ n + len ≤ i.len ∧
        hdr.tag = BerTag.sequence ∧
        X509CertificationRequestInfo.fromDer reg ((i.drop n).take len) = .panic) :=
  ⟨X509Version.fromDerRequired_eq_panic, X509CriAttribute.fromDer_neverPanics reg hadv hnp,
    X509CertificationRequestInfo.fromDer_eq_panic reg hadv hnp,
    X509CertificationRequest.fromDer_eq_panic reg⟩

/-- Under the registry with no decoder, the version step panics on a NULL that ends its input. -/
theorem csr_decoders_panic_only_at_version_slice_unregistered :
    (∀ o p, (⟨fun _ => none, fun _ => none⟩ : Registry).attributeParser o = some p → p.Advances) ∧
    (∀ o p, (⟨fun _ => none, fun _ => none⟩ : Registry).attributeParser o = some p →
      p.NeverPanics) ∧
    X509Version.fromDerRequired ⟨4, [0x05, 0x00]⟩ = .panic :=
  have ⟨hversion, _, _, _⟩ := csr_decoders_panic_only_at_version_slice ⟨fun _ => none, fun _ => none⟩
    (fun _ _ h => by cases h) fun _ _ h => by cases h
  ⟨(fun _ _ h => by cases h), (fun _ _ h => by cases h), (hversion _).mpr ⟨_, _, rfl, by decide, rfl⟩⟩

/-! ## Trailing octets and loops -/

/-- Every public decoder reads the same from an element whatever octets follow it, and leaves
those octets after what it leaves. -/
theorem decoders_ignore_trailing_octets (reg : Registry) :
    X509Name.fromDer.AppendStable ∧ (X509Extension.fromDer reg).AppendStable ∧
      (TbsCertificate.fromDer reg).AppendStable ∧ (X509Certificate.fromDer reg).AppendStable ∧
      (CertificateRevocationList.fromDer reg).AppendStable ∧
      (X509CertificationRequestInfo.fromDer reg).AppendStable ∧
      (X509CertificationRequest.fromDer reg).AppendStable :=
  ⟨X509Name.fromDer_appendStable, AppendStable.orError' _ (AppendStable.parseBerContainer' _),
    TbsCertificate.fromDer_appendStable reg, AppendStable.parseBerContainer' _,
    AppendStable.parseBerContainer' _, X509CertificationRequestInfo.fromDer_appendStable reg,
    AppendStable.parseBerContainer' _⟩

/-- On a whole element followed by any octets, the certificate, revocation-list, request and
extension decoders return what they return on the element alone, those octets following the
remainder. Once an element is whole, more input changes no value and no error; and the
`Incomplete` that a field cut short inside the element gives is final, for no further input
ends it. -/
theorem decoders_settle_on_whole_element (reg : Registry) {e : List UInt8} (he : IsElement e)
    (pos : Nat) (t : List UInt8) :
    X509Certificate.fromDer reg ⟨pos, e ++ t⟩ = (X509Certificate.fromDer reg ⟨pos, e⟩).appendRest t ∧
    CertificateRevocationList.fromDer reg ⟨pos, e ++ t⟩ =
      (CertificateRevocationList.fromDer reg ⟨pos, e⟩).appendRest t ∧
    X509CertificationRequest.fromDer reg ⟨pos, e ++ t⟩ =
      (X509CertificationRequest.fromDer reg ⟨pos, e⟩).appendRest t ∧
    X509Extension.fromDer reg ⟨pos, e ++ t⟩ = (X509Extension.fromDer reg ⟨pos, e⟩).appendRest t :=
  ⟨parseBerContainer_append_element _ he pos t, parseBerContainer_append_element _ he pos t,
    parseBerContainer_append_element _ he pos t,
    orError_appendRest _ (parseBerContainer_append_element _ he pos t)⟩

/-- A certificate envelope whose one octet of content is a TBS header cut short: the decoder
answers `Incomplete`, and still does with an octet more. -/
theorem decoders_settle_on_truncated_tbs :
    IsElement [0x30, 0x01, 0x30] ∧
      X509Certificate.fromDer ⟨fun _ => none, fun _ => none⟩ ⟨0, [0x30, 0x01, 0x30] ++ [0x00]⟩ =
        .incomplete := by
  have he : IsElement [0x30, 0x01, 0x30] := by decide
  obtain ⟨hcert, -, -, -⟩ := decoders_settle_on_whole_element ⟨fun _ => none, fun _ => none⟩ he 0 [0x00]
  exact ⟨he, hcert.trans rfl⟩

/-- The items of the extension, revoked-entry and attribute lists each consume at least a
header, so each loop reads at most one item per two octets and never raises nom's `Many0`
error. -/
theorem item_loops_make_progress (reg : Registry) :
    (∀ (i r : Slice) (es : List X509Extension),
      many0 (complete (X509Extension.fromDer reg)) i = .ok r es → r.len + 2 * es.length ≤ i.len) ∧
    (∀ (i : Slice) (e : X509Error), many0 (complete (X509Extension.fromDer reg)) i ≠ .error e) ∧
    (∀ (i r : Slice) (es : List RevokedCertificate),
      many0 (complete (RevokedCertificate.fromDer reg)) i = .ok r es → r.len + 2 * es.length ≤ i.len) ∧
    (∀ (i : Slice) (e : X509Error), many0 (complete (RevokedCertificate.fromDer reg)) i ≠ .error e) ∧
    (∀ (i r : Slice) (as : List X509CriAttribute),
      many0 (complete (X509CriAttribute.fromDer reg)) i = .ok r as → r.len + 2 * as.length ≤ i.len) ∧
    (∀ (i : Slice) (e : X509Error), many0 (complete (X509CriAttribute.fromDer reg)) i ≠ .error e) :=
  have hx := (X509Extension.fromDer_consumes reg).complete'
  have hr := (RevokedCertificate.fromDer_consumes reg).complete'
  have ha := (X509CriAttribute.fromDer_consumes reg).complete'
  ⟨fun _ _ _ => many0_length hx, many0_ne_error hx, fun _ _ _ => many0_length hr,
    many0_ne_error hr, fun _ _ _ => many0_length ha, many0_ne_error ha⟩

/-! ## Maps and values -/

/-- Every certificate, revocation list and request the decoders return satisfies the invariant
of its TBS part: serial numbers that are the value of their raw octets, Names without an empty
RDN, and maps that are the maps of the lists read. -/
theorem decoded_values_satisfy_invariants (reg : Registry) :
    (X509Certificate.fromDer reg).Yields (fun x => x.tbsCertificate.Invariant) ∧
      (CertificateRevocationList.fromDer reg).Yields (fun l => l.tbsCertList.Invariant) ∧
      (X509CertificationRequest.fromDer reg).Yields (fun r => r.certificationRequestInfo.Invariant) :=
  ⟨X509Certificate.fromDer_invariant reg, CertificateRevocationList.fromDer_invariant reg,
    X509CertificationRequest.fromDer_invariant reg⟩

/-- The text of the serial number of a certificate, or of a revoked entry, that the decoders
return determines the serial number. -/
theorem serial_text_determines_serial (reg : Registry) :
    (∀ (i j r s : Slice) (x y : X509Certificate), X509Certificate.fromDer reg i = .ok r x →
      X509Certificate.fromDer reg j = .ok s y →
      x.tbsCertificate.rawSerialAsString = y.tbsCertificate.rawSerialAsString →
      x.tbsCertificate.serial = y.tbsCertificate.serial) ∧
    (∀ (i j r s : Slice) (l m : CertificateRevocationList),
      CertificateRevocationList.fromDer reg i = .ok r l → CertificateRevocationList.fromDer reg j = .ok s m →
      ∀ e ∈ l.tbsCertList.revokedCertificates, ∀ e' ∈ m.tbsCertList.revokedCertificates,
        e.rawSerialAsString = e'.rawSerialAsString → e.userCertificate = e'.userCertificate) := by
  refine ⟨fun i j r s x y hx hy h => ?_, fun i j r s l m hl hm e he e' he' h => ?_⟩
  · rw [(X509Certificate.fromDer_invariant reg i r x hx).serial,
      (X509Certificate.fromDer_invariant reg j s y hy).serial, rawSerialAsString_injective h]
  · rw [((CertificateRevocationList.fromDer_invariant reg i r l hl).revoked e he).serial,
      ((CertificateRevocationList.fromDer_invariant reg j s m hm).revoked e' he').serial,
      rawSerialAsString_injective h]

/-! ## Accessors -/

/-- On every certificate and revocation list the grammar builds, with extension lists that may
repeat an OID, the decoder returns the grammar's value, and on it the extension accessors read
the last extension of their OID in the encoded list, and so on every revoked entry. -/
theorem decoded_accessors_read_last_extension (reg : Registry) (pos : Nat) (rest : List UInt8) :
    (∀ c : CertificateFields, c.tbs.Readable reg → c.encode.length < 2 ^ 64 →
      X509Certificate.fromDer reg ⟨pos, c.encode ++ rest⟩ = .ok ⟨pos + c.encode.length, rest⟩ c.read ∧
      (∀ (β : Type) (oid : Oid) (select : ParsedExtension → Option β),
        extensionOf c.read.tbsCertificate.extensions oid select =
          lastExtensionOf (c.tbs.extensions.getD []) oid select) ∧
      (c.read.tbsCertificate.isCa = true ↔ ∃ e pathLenConstraint,
        ((c.tbs.extensions.getD []).filter fun e => e.oid = oidX509ExtBasicConstraints).getLast? = some e ∧
          e.parsedExtension = .basicConstraints true pathLenConstraint)) ∧
    (∀ l : CrlFields, l.tbs.Readable reg → l.encode.length < 2 ^ 64 →
      CertificateRevocationList.fromDer reg ⟨pos, l.encode ++ rest⟩ =
        .ok ⟨pos + l.encode.length, rest⟩ l.read ∧
      (∀ (β : Type) (oid : Oid) (select : ParsedExtension → Option β),
        extensionOf l.read.tbsCertList.extensions oid select =
          lastExtensionOf (l.tbs.extensions.getD []) oid select) ∧
      l.read.crlNumber =
        (lastExtensionOf (l.tbs.extensions.getD []) oidX509ExtCrlNumber ParsedExtension.cRLNumber?).map
          Prod.snd ∧
      List.Forall₂ (fun (e : RevokedCertificate) (f : RevokedCertificateFields) =>
          ∀ (β : Type) (oid : Oid) (select : ParsedExtension → Option β),
            extensionOf e.extensions oid select = lastExtensionOf (f.extensions.getD []) oid select)
        l.read.tbsCertList.revokedCertificates l.tbs.revokedCertificates) :=
  ⟨fun c hrd h => ⟨X509Certificate.fromDer_encode_read reg pos rest c hrd h, c.read_accessors⟩,
    fun l hrd h => ⟨CertificateRevocationList.fromDer_encode_read reg pos rest l hrd h, l.read_accessors⟩⟩

/-- Two basic-constraints extensions, `cA` set then clear, in a certificate, and two CRL-number
extensions and an entry with two reason codes in a CRL, under decoders that read the value's
first octet. -/
theorem decoded_accessors_read_last_extension_repeated :
    let reg : Registry := ⟨fun o =>
      if o = oidX509ExtBasicConstraints then
        some fun i => .ok i (.basicConstraints (i.bytes.head? = some 0xFF) none)
      else if o = oidX509ExtCrlNumber then some fun i => .ok i (.cRLNumber (i.bytes.headD 0).toNat)
      else if o = oidX509ExtReasonCode then some fun i => .ok i (.reasonCode ⟨i.bytes.headD 0⟩)
      else none, fun _ => none⟩
    let t : ASN1Time := ⟨2024, 1, 1, 0, 0, 0, rfl⟩
    let alg : AlgorithmIdentifier := ⟨⟨[0x2A], rfl⟩, none⟩
    let c : CertificateFields := ⟨⟨.v3, 1, alg, [], ⟨t, t⟩, [], ⟨alg, ⟨[]⟩⟩, 0, none, 0, none, 0,
      some [⟨oidX509ExtBasicConstraints, true, [0xFF], .basicConstraints true none⟩,
        ⟨oidX509ExtBasicConstraints, true, [0x00], .basicConstraints false none⟩]⟩, alg, ⟨[]⟩, 0⟩
    let l : CrlFields := ⟨⟨some .v2, alg, [], t, none,
      [⟨7, t, some [⟨oidX509ExtReasonCode, false, [0x01], .reasonCode ⟨0x01⟩⟩,
        ⟨oidX509ExtReasonCode, false, [0x04], .reasonCode ⟨0x04⟩⟩]⟩],
      some [⟨oidX509ExtCrlNumber, false, [0x01], .cRLNumber 1⟩,
        ⟨oidX509ExtCrlNumber, false, [0x02], .cRLNumber 2⟩]⟩, alg, ⟨[]⟩, 0⟩
    (X509Certificate.fromDer reg ⟨0, c.encode ++ []⟩ = .ok ⟨0 + c.encode.length, []⟩ c.read ∧
      (∀ (β : Type) (oid : Oid) (select : ParsedExtension → Option β),
        extensionOf c.read.tbsCertificate.extensions oid select =
          lastExtensionOf (c.tbs.extensions.getD []) oid select) ∧
      (c.read.tbsCertificate.isCa = true ↔ ∃ e pathLenConstraint,
        ((c.tbs.extensions.getD []).filter fun e => e.oid = oidX509ExtBasicConstraints).getLast? = some e ∧
          e.parsedExtension = .basicConstraints true pathLenConstraint)) ∧
    (CertificateRevocationList.fromDer reg ⟨0, l.encode ++ []⟩ = .ok ⟨0 + l.encode.length, []⟩ l.read ∧
      (∀ (β : Type) (oid : Oid) (select : ParsedExtension → Option β),
        extensionOf l.read.tbsCertList.extensions oid select =
          lastExtensionOf (l.tbs.extensions.getD []) oid select) ∧
      l.read.crlNumber =
        (lastExtensionOf (l.tbs.extensions.getD []) oidX509ExtCrlNumber ParsedExtension.cRLNumber?).map
          Prod.snd ∧
      List.Forall₂ (fun (e : RevokedCertificate) (f : RevokedCertificateFields) =>
          ∀ (β : Type) (oid : Oid) (select : ParsedExtension → Option β),
            extensionOf e.extensions oid select = lastExtensionOf (f.extensions.getD []) oid select)
        l.read.tbsCertList.revokedCertificates l.tbs.revokedCertificates) :=
  have ⟨hcert, hcrl⟩ := decoded_accessors_read_last_extension _ 0 []
  ⟨hcert _ ⟨by decide, by decide, by
      simp [Registry.ExtensionsAccepted, Registry.AcceptsExtension, oidX509ExtBasicConstraints]⟩
      (by decide),
    hcrl _ ⟨by decide, by simp [Registry.ExtensionsAccepted, Registry.AcceptsExtension,
      oidX509ExtBasicConstraints, oidX509ExtCrlNumber, oidX509ExtReasonCode], by
        simp [Registry.ExtensionsAccepted, Registry.AcceptsExtension, oidX509ExtBasicConstraints,
          oidX509ExtCrlNumber]⟩ (by decide)⟩

/-- On every request the grammar builds, with attributes that may repeat an OID, the decoder
returns the grammar's value, and what `requested_extensions` finds on it are the extensions of
an extension-request attribute that is the last of its OID among the attributes read; it finds
nothing exactly when none of those last attributes is an extension request. -/
theorem decoded_requested_extensions_from_last_attribute (reg : Registry) (pos : Nat)
    (rest : List UInt8) :
    ∀ r : CertificationRequestFields, r.info.Readable reg → r.encode.length < 2 ^ 64 →
      X509CertificationRequest.fromDer reg ⟨pos, r.encode ++ rest⟩ =
        .ok ⟨pos + r.encode.length, rest⟩ (r.read reg) ∧
      (∀ l, (r.read reg).requestedExtensions = some l → ∃ k a m,
        ((r.info.attributes.map (CriAttributeFields.decoded reg)).filter fun b => b.oid = k).getLast? =
          some a ∧ a.parsedAttribute = .extensionRequest m ∧ l = m.map fun (_, ext) => ext.parsedExtension) ∧
      ((r.read reg).requestedExtensions = none ↔ ∀ k a m,
        ((r.info.attributes.map (CriAttributeFields.decoded reg)).filter fun b => b.oid = k).getLast? =
          some a → a.parsedAttribute ≠ .extensionRequest m) :=
  fun r hrd h => ⟨X509CertificationRequest.fromDer_encode_read reg pos rest r hrd h,
    (r.read reg).requestedExtensions_attributeMap rfl⟩

/-- Two extension requests under one OID and an attribute of an OID with no decoder. -/
theorem decoded_requested_extensions_from_last_attribute_repeated :
    let extReq : Oid := ⟨[0x2A, 0x86, 0x48, 0x86, 0xF7, 0x0D, 0x01, 0x09, 0x0E], rfl⟩
    let reg : Registry := ⟨fun _ => none, fun o =>
      if o = extReq then some (fun i => .ok ⟨i.pos + i.bytes.length, []⟩ (.extensionRequest [])) else none⟩
    let alg : AlgorithmIdentifier := ⟨⟨[0x2A], rfl⟩, none⟩
    let r : CertificationRequestFields := ⟨⟨[], ⟨alg, ⟨[]⟩⟩, 0,
      [⟨extReq, [0x30, 0x00], .extensionRequest []⟩, ⟨⟨[0x2A], rfl⟩, [0x05, 0x00], .unsupportedAttribute⟩,
        ⟨extReq, [0x30, 0x00, 0x05, 0x00], .extensionRequest []⟩]⟩, alg, ⟨[]⟩, 0⟩
    X509CertificationRequest.fromDer reg ⟨0, r.encode ++ []⟩ = .ok ⟨0 + r.encode.length, []⟩ (r.read reg) ∧
      (∀ l, (r.read reg).requestedExtensions = some l → ∃ k a m,
        ((r.info.attributes.map (CriAttributeFields.decoded reg)).filter fun b => b.oid = k).getLast? =
          some a ∧ a.parsedAttribute = .extensionRequest m ∧ l = m.map fun (_, ext) => ext.parsedExtension) ∧
      ((r.read reg).requestedExtensions = none ↔ ∀ k a m,
        ((r.info.attributes.map (CriAttributeFields.decoded reg)).filter fun b => b.oid = k).getLast? =
          some a → a.parsedAttribute ≠ .extensionRequest m) :=
  decoded_requested_extensions_from_last_attribute _ 0 [] _ ⟨by decide, by simp [Registry.AcceptsAttribute]⟩
    (by decide)

end X509Parser
