import X509Parser.X509.Name

/-!
# Algorithm identifiers, keys, validity, unique identifiers

The fixed-shape fields of the TBS structures, with two field readers of `x509_parser` that
`x509.rs` calls but `src/` does not hold: the serial number and the signature value. Each
reads back from its DER encoding.
-/

namespace X509Parser

set_option autoImplicit false

open Parser

/-- `AlgorithmIdentifier::from_der`. -/
def AlgorithmIdentifier.fromDer : Parser AlgorithmIdentifier :=
  parseBerSequenceDefinedG do
    let algorithm ← parseDerOid.orError .invalidAlgorithmIdentifier
    let parameters ← (opt (complete parseDer)).orError .invalidAlgorithmIdentifier
    pure ⟨algorithm, parameters⟩

/-- `SubjectPublicKeyInfo::from_der`; the count of unused bits is dropped. -/
def SubjectPublicKeyInfo.fromDer : Parser SubjectPublicKeyInfo :=
  parseBerSequenceDefinedG do
    let algorithm ← AlgorithmIdentifier.fromDer
    let subjectPublicKey ← ((·.2) <$> parseDerBitstring).orError .invalidSPKI
    pure ⟨algorithm, subjectPublicKey⟩

/-- `Validity::from_der`. -/
def Validity.fromDer : Parser Validity :=
  parseBerSequenceDefinedG do
    let notBefore ← ASN1Time.fromDer
    let notAfter ← ASN1Time.fromDer
    pure ⟨notBefore, notAfter⟩

/-- `UniqueIdentifier::parse`: an optional `[tag] IMPLICIT BIT STRING`. The content the
reader hands back is always a BIT STRING's, so the `BerTypeError` arm is unreachable. -/
def UniqueIdentifier.parse (tag : UInt32) : Parser (Option UniqueIdentifier) := do
  let obj ← parseBerOptional (parseBerTaggedImplicitBitString tag)
  pure (obj.map fun b => ⟨b.2⟩)

/-- `UniqueIdentifier::from_der_issuer`. -/
def UniqueIdentifier.fromDerIssuer : Parser (Option UniqueIdentifier) :=
  (UniqueIdentifier.parse 1).orError .invalidIssuerUID

/-- `UniqueIdentifier::from_der_subject`. -/
def UniqueIdentifier.fromDerSubject : Parser (Option UniqueIdentifier) :=
  (UniqueIdentifier.parse 2).orError .invalidSubjectUID

/-- Modelled from the spec: `x509_parser::parse_serial`, not in `src/`, reads the serial
number INTEGER and keeps both its content octets and their value as an unsigned integer. -/
def parseSerial : Parser (List UInt8 × Nat) :=
  (do let c ← parseBerInteger; pure (c, beValue c)).orError .invalidSerial

/-- Modelled from the spec: `x509_parser::parse_signature_value`, not in `src/`, reads the
signature BIT STRING and keeps its bits. -/
def parseSignatureValue : Parser BitStringObject :=
  ((·.2) <$> parseDerBitstring).orError .invalidSignatureValue

theorem AlgorithmIdentifier.fromDer_advances : AlgorithmIdentifier.fromDer.Advances :=
  Advances.parseBerContainer' _

theorem SubjectPublicKeyInfo.fromDer_advances : SubjectPublicKeyInfo.fromDer.Advances :=
  Advances.parseBerContainer' _

theorem Validity.fromDer_advances : Validity.fromDer.Advances := Advances.parseBerContainer' _

theorem UniqueIdentifier.parse_advances (tag : UInt32) : (UniqueIdentifier.parse tag).Advances :=
  Advances.bind' (Advances.parseBerOptional' (Advances.parseBerContainer' _)) fun _ => Advances.pure' _

theorem parseSerial_advances : parseSerial.Advances :=
  Advances.orError' _ (Advances.bind' Advances.parseBerInteger' fun _ => Advances.pure' _)

theorem parseSignatureValue_advances : parseSignatureValue.Advances :=
  Advances.orError' _ (Advances.map' _ Advances.parseDerBitstring')

theorem AlgorithmIdentifier.fromDer_neverPanics : AlgorithmIdentifier.fromDer.NeverPanics :=
  NeverPanics.parseBerSequenceDefinedG' <|
    NeverPanics.bind' (NeverPanics.orError' _ NeverPanics.parseDerOid') fun _ =>
    NeverPanics.bind' (NeverPanics.orError' _ (NeverPanics.opt' (NeverPanics.complete' NeverPanics.parseDer')))
      fun _ => NeverPanics.pure' _

theorem SubjectPublicKeyInfo.fromDer_neverPanics : SubjectPublicKeyInfo.fromDer.NeverPanics :=
  NeverPanics.parseBerSequenceDefinedG' <|
    NeverPanics.bind' AlgorithmIdentifier.fromDer_neverPanics fun _ =>
    NeverPanics.bind' (NeverPanics.orError' _ (NeverPanics.map' _ NeverPanics.parseDerBitstring')) fun _ =>
      NeverPanics.pure' _

theorem Validity.fromDer_neverPanics : Validity.fromDer.NeverPanics :=
  NeverPanics.parseBerSequenceDefinedG' <|
    NeverPanics.bind' ASN1Time.fromDer_neverPanics fun _ =>
    NeverPanics.bind' ASN1Time.fromDer_neverPanics fun _ => NeverPanics.pure' _

theorem UniqueIdentifier.parse_neverPanics (tag : UInt32) : (UniqueIdentifier.parse tag).NeverPanics :=
  NeverPanics.bind' (NeverPanics.parseBerOptional' (NeverPanics.parseBerTaggedImplicitBitString' _))
    fun _ => NeverPanics.pure' _

theorem parseSerial_neverPanics : parseSerial.NeverPanics :=
  NeverPanics.orError' _ (NeverPanics.bind' NeverPanics.parseBerInteger' fun _ => NeverPanics.pure' _)

theorem parseSignatureValue_neverPanics : parseSignatureValue.NeverPanics :=
  NeverPanics.orError' _ (NeverPanics.map' _ NeverPanics.parseDerBitstring')

/-- The serial number read is the unsigned value of the content octets kept beside it. -/
theorem parseSerial_value : parseSerial.Yields fun s => s.2 = beValue s.1 :=
  Yields.orError' _ (Yields.bind_right fun _ => Yields.pure' rfl)

/-! ## DER encodings -/

def AlgorithmIdentifier.encode (a : AlgorithmIdentifier) : List UInt8 :=
  encodeSequence (encodeOid a.algorithm ++ (a.parameters.map encodeDerObject).getD [])

/-- A key whose BIT STRING has `unused` unused bits. -/
def SubjectPublicKeyInfo.encode (unused : Fin 8) (s : SubjectPublicKeyInfo) : List UInt8 :=
  encodeSequence (s.algorithm.encode ++ encodeBitString unused s.subjectPublicKey)

def Validity.encode (v : Validity) : List UInt8 :=
  encodeSequence (encodeTime v.notBefore ++ encodeTime v.notAfter)

/-- An optional `[tag] IMPLICIT BIT STRING` with `unused` unused bits; nothing when absent. -/
def encodeUniqueIdentifier (tag : UInt32) (unused : Fin 8) : Option UniqueIdentifier → List UInt8
  | none => []
  | some u => encodeTLV .contextSpecific false tag (UInt8.ofNat unused :: u.bits.data)

/-- A serial number as the DER INTEGER of its value. -/
def encodeSerial (v : Nat) : List UInt8 := encodeInteger (integerContent v)

/-! ## Each field reads back from its encoding -/

section RoundTrip

variable (pos : Nat) (rest : List UInt8)

theorem opt_complete_parseDer_nil (p : Nat) :
    opt (complete parseDer) ⟨p, []⟩ = .ok ⟨p, []⟩ none := rfl

theorem AlgorithmIdentifier.fromDer_encode (a : AlgorithmIdentifier)
    (ha : a.encode.length < 2 ^ 64) :
    AlgorithmIdentifier.fromDer ⟨pos, a.encode ++ rest⟩ = .ok ⟨pos + a.encode.length, rest⟩ a := by
  obtain ⟨o, params⟩ := a
  have hc := (length_lt_length_encodeTLV _ _ _ _).trans ha
  have ho : o.asn1.length < (encodeOid o).length := length_lt_length_encodeTLV _ _ _ _
  simp only [List.length_append] at hc
  have hoid : ∀ p, parseDerOid ⟨p, encodeOid o⟩ = .ok ⟨p + (encodeOid o).length, []⟩ o := fun p => by
    simpa using parseDerOid_encodeOid p [] o (by omega)
  cases params with
  | none =>
    simp only [AlgorithmIdentifier.encode, Option.map_none', Option.getD_none, List.append_nil] at hc ⊢
    apply parseBerSequenceDefinedG_encodeSequence pos rest _ _ hc
    simp only [bind_apply, orError, hoid, IResult.bind_ok, opt_complete_parseDer_nil, pure_apply]
    rfl
  | some v =>
    have hv : v.content.length < (encodeDerObject v).length := length_lt_length_encodeTLV _ _ _ _
    simp only [AlgorithmIdentifier.encode, Option.map_some', Option.getD_some] at hc ⊢
    have hder : ∀ p, parseDer ⟨p, encodeDerObject v⟩ = .ok ⟨p + (encodeDerObject v).length, []⟩ v :=
      fun p => by simpa using parseDer_encodeDerObject p [] v (by omega)
    apply parseBerSequenceDefinedG_encodeSequence pos rest _ _ (by simpa using hc)
    simp only [bind_apply, orError, parseDerOid_encodeOid _ _ o (by omega), IResult.bind_ok, opt,
      complete, hder, pure_apply]
    rfl

theorem SubjectPublicKeyInfo.fromDer_encode (u : Fin 8) (s : SubjectPublicKeyInfo)
    (hs : (s.encode u).length < 2 ^ 64) :
    SubjectPublicKeyInfo.fromDer ⟨pos, s.encode u ++ rest⟩ = .ok ⟨pos + (s.encode u).length, rest⟩ s := by
  have hc := (length_lt_length_encodeTLV _ _ _ _).trans hs
  have hb : s.subjectPublicKey.data.length + 1 < (encodeBitString u s.subjectPublicKey).length :=
    length_lt_length_encodeTLV .universal false BerTag.bitString (UInt8.ofNat u :: _)
  simp only [List.length_append] at hc
  apply parseBerSequenceDefinedG_encodeSequence pos rest _ _ (by simpa using hc)
  have hbits : ∀ p, parseDerBitstring ⟨p, encodeBitString u s.subjectPublicKey⟩ =
      .ok ⟨p + (encodeBitString u s.subjectPublicKey).length, []⟩
        (UInt8.ofNat u, s.subjectPublicKey) := fun p => by
    simpa using parseDerBitstring_encodeBitString p [] u s.subjectPublicKey (by omega)
  simp only [bind_apply, AlgorithmIdentifier.fromDer_encode _ _ s.algorithm (by omega),
    IResult.bind_ok, orError, map_apply, hbits, IResult.map_ok, pure_apply]
  rfl

theorem Validity.fromDer_encode (v : Validity) :
    Validity.fromDer ⟨pos, v.encode ++ rest⟩ = .ok ⟨pos + v.encode.length, rest⟩ v := by
  have hc : (encodeTime v.notBefore ++ encodeTime v.notAfter).length < 2 ^ 64 := by
    have := length_encodeTime_le v.notBefore
    have := length_encodeTime_le v.notAfter
    simp only [List.length_append]; omega
  apply parseBerSequenceDefinedG_encodeSequence pos rest _ _ hc
  have hafter : ∀ p, ASN1Time.fromDer ⟨p, encodeTime v.notAfter⟩ =
      .ok ⟨p + (encodeTime v.notAfter).length, []⟩ v.notAfter := fun p => by
    simpa using ASN1Time.fromDer_encodeTime p [] v.notAfter
  simp only [bind_apply, ASN1Time.fromDer_encodeTime, IResult.bind_ok, hafter, pure_apply]
  rfl

/-- An absent unique identifier: any element the `[tag]` reader refuses is left unread. -/
theorem UniqueIdentifier.parse_absent (t : UInt32) {i : Slice}
    (h : (parseBerTaggedImplicitBitString t i).IsErr) : UniqueIdentifier.parse t i = .ok i none := by
  rcases h with h | ⟨e, h⟩ <;> simp [UniqueIdentifier.parse, parseBerOptional, h]

theorem UniqueIdentifier.parse_encode (t : UInt32) (n : Fin 8) (u : UniqueIdentifier)
    (hu : u.bits.data.length + 1 < 2 ^ 64) :
    UniqueIdentifier.parse t ⟨pos, encodeUniqueIdentifier t n (some u) ++ rest⟩ =
      .ok ⟨pos + (encodeUniqueIdentifier t n (some u)).length, rest⟩ (some u) := by
  simp [UniqueIdentifier.parse, encodeUniqueIdentifier, parseBerOptional,
    parseBerTaggedImplicitBitString_encode pos rest t n u.bits hu]

theorem parseSerial_encodeSerial (v : Nat) (hv : (integerContent v).length < 2 ^ 64) :
    parseSerial ⟨pos, encodeSerial v ++ rest⟩ =
      .ok ⟨pos + (encodeSerial v).length, rest⟩ (integerContent v, v) := by
  simp [parseSerial, encodeSerial, orError, parseBerInteger_encodeInteger pos rest _ hv,
    beValue_integerContent]

theorem parseSignatureValue_encodeBitString (u : Fin 8) (b : BitStringObject)
    (hb : b.data.length + 1 < 2 ^ 64) :
    parseSignatureValue ⟨pos, encodeBitString u b ++ rest⟩ =
      .ok ⟨pos + (encodeBitString u b).length, rest⟩ b := by
  simp [parseSignatureValue, orError, parseDerBitstring_encodeBitString pos rest u b hb]

/-- The shape certificates, CRLs and requests share: a signed body, the signature algorithm
and the signature, in one SEQUENCE. -/
theorem parseBerSequenceDefinedG_signed_encode {τ ε : Type} (body : Parser τ)
    (mk : τ → AlgorithmIdentifier → BitStringObject → ε) (enc : List UInt8) (b : τ)
    (hbody : ∀ p q, body ⟨p, enc ++ q⟩ = .ok ⟨p + enc.length, q⟩ b) (a : AlgorithmIdentifier)
    (u : Fin 8) (s : BitStringObject)
    (h : (encodeSequence (enc ++ a.encode ++ encodeBitString u s)).length < 2 ^ 64) :
    parseBerSequenceDefinedG (do
        let t ← body
        let alg ← AlgorithmIdentifier.fromDer
        let sig ← parseSignatureValue
        pure (mk t alg sig)) ⟨pos, encodeSequence (enc ++ a.encode ++ encodeBitString u s) ++ rest⟩ =
      .ok ⟨pos + (encodeSequence (enc ++ a.encode ++ encodeBitString u s)).length, rest⟩ (mk b a s) := by
  have hc0 := (length_lt_length_encodeTLV _ _ _ _).trans h
  have hc := hc0
  simp only [List.length_append] at hc
  have hb : s.data.length + 1 < (encodeBitString u s).length :=
    length_lt_length_encodeTLV .universal false BerTag.bitString (UInt8.ofNat u :: _)
  have hsig : ∀ p, parseSignatureValue ⟨p, encodeBitString u s⟩ =
      .ok ⟨p + (encodeBitString u s).length, []⟩ s := fun p => by
    simpa using parseSignatureValue_encodeBitString p [] u s (by omega)
  apply parseBerSequenceDefinedG_encodeSequence pos rest _ _ hc0
  simp only [List.append_assoc, bind_apply, hbody, IResult.bind_ok,
    AlgorithmIdentifier.fromDer_encode _ _ a (by omega), hsig, pure_apply]
  rfl

end RoundTrip

end X509Parser
