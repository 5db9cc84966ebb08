import X509Parser.Time

/-!
# The objects of `x509.rs`

The structures the decoders build, slices kept as their bytes. The OID-keyed decoder tables of
the extension and CSR-attribute parsers (not in `src/`) are a parameter, `Registry`.
-/

namespace X509Parser

set_option autoImplicit false

/-- `HashMap<Oid, α>`: keys in first-insertion order. -/
abbrev OidMap (α : Type) : Type := List (Oid × α)

namespace OidMap

variable {α : Type}

/-- `HashMap::insert`. -/
def insert (m : OidMap α) (k : Oid) (v : α) : OidMap α :=
  match m with
  | [] => [(k, v)]
  | (k', v') :: m => if k' = k then (k, v) :: m else (k', v') :: insert m k v

/-- `HashMap::get`. -/
def get? (m : OidMap α) (k : Oid) : Option α :=
  match m with
  | [] => none
  | (k', v) :: m => if k' = k then some v else get? m k

end OidMap

/-- `X509Version(u32)`. -/
structure X509Version where
  val : UInt32
  deriving DecidableEq, Repr

namespace X509Version
def v1 : X509Version := ⟨0⟩
def v2 : X509Version := ⟨1⟩
def v3 : X509Version := ⟨2⟩
end X509Version

/-- `ReasonCode(u8)`. -/
structure ReasonCode where
  val : UInt8
  deriving DecidableEq, Repr

/-- `ParsedExtension`, with the variants `x509.rs` inspects. -/
inductive ParsedExtension where
  | unsupportedExtension
  | basicConstraints (ca : Bool) (pathLenConstraint : Option UInt32)
  | keyUsage (flags : UInt16)
  | subjectKeyIdentifier (keyIdentifier : List UInt8)
  | reasonCode (code : ReasonCode)
  | invalidityDate (date : ASN1Time)
  | cRLNumber (number : Nat)
  deriving DecidableEq

/-- `X509Extension`. -/
structure X509Extension where
  oid : Oid
  critical : Bool
  value : List UInt8
  parsedExtension : ParsedExtension
  deriving DecidableEq

/-- `ParsedCriAttribute`. -/
inductive ParsedCriAttribute where
  | unsupportedAttribute
  | extensionRequest (extensions : OidMap X509Extension)
  deriving DecidableEq

/-- `X509CriAttribute`. -/
structure X509CriAttribute where
  oid : Oid
  value : List UInt8
  parsedAttribute : ParsedCriAttribute
  deriving DecidableEq

/-- `AttributeTypeAndValue`. -/
structure AttributeTypeAndValue where
  attrType : Oid
  attrValue : DerObject
  deriving DecidableEq

/-- `RelativeDistinguishedName`. -/
structure RelativeDistinguishedName where
  set : List AttributeTypeAndValue
  deriving DecidableEq

/-- `AlgorithmIdentifier`. -/
structure AlgorithmIdentifier where
  algorithm : Oid
  parameters : Option DerObject
  deriving DecidableEq

/-- `SubjectPublicKeyInfo`. -/
structure SubjectPublicKeyInfo where
  algorithm : AlgorithmIdentifier
  subjectPublicKey : BitStringObject
  deriving DecidableEq

/-- `X509Name`. -/
structure X509Name where
  rdnSeq : List RelativeDistinguishedName
  raw : List UInt8
  deriving DecidableEq

/-- `Validity`. -/
structure Validity where
  notBefore : ASN1Time
  notAfter : ASN1Time
  deriving DecidableEq

/-- `UniqueIdentifier(BitStringObject)`. -/
structure UniqueIdentifier where
  bits : BitStringObject
  deriving DecidableEq

/-- `TbsCertificate`. -/
structure TbsCertificate where
  version : X509Version
  serial : Nat
  signature : AlgorithmIdentifier
  issuer : X509Name
  validity : Validity
  subject : X509Name
  subjectPki : SubjectPublicKeyInfo
  issuerUid : Option UniqueIdentifier
  subjectUid : Option UniqueIdentifier
  extensions : OidMap X509Extension
  raw : List UInt8
  rawSerial : List UInt8
  deriving DecidableEq

/-- `RevokedCertificate`. -/
structure RevokedCertificate where
  userCertificate : Nat
  revocationDate : ASN1Time
  extensions : OidMap X509Extension
  rawSerial : List UInt8
  deriving DecidableEq

/-- `TbsCertList`. -/
structure TbsCertList where
  version : Option X509Version
  signature : AlgorithmIdentifier
  issuer : X509Name
  thisUpdate : ASN1Time
  nextUpdate : Option ASN1Time
  revokedCertificates : List RevokedCertificate
  extensions : OidMap X509Extension
  raw : List UInt8
  deriving DecidableEq

/-- `X509CertificationRequestInfo`. -/
structure X509CertificationRequestInfo where
  version : X509Version
  subject : X509Name
  subjectPki : SubjectPublicKeyInfo
  attributes : OidMap X509CriAttribute
  raw : List UInt8
  deriving DecidableEq

/-- `X509CertificationRequest`. -/
structure X509CertificationRequest where
  certificationRequestInfo : X509CertificationRequestInfo
  signatureAlgorithm : AlgorithmIdentifier
  signatureValue : BitStringObject
  deriving DecidableEq

/-- `X509Certificate`. -/
structure X509Certificate where
  tbsCertificate : TbsCertificate
  signatureAlgorithm : AlgorithmIdentifier
  signatureValue : BitStringObject
  deriving DecidableEq

/-- `CertificateRevocationList`. -/
structure CertificateRevocationList where
  tbsCertList : TbsCertList
  signatureAlgorithm : AlgorithmIdentifier
  signatureValue : BitStringObject
  deriving DecidableEq

/-- `EXTENSION_PARSERS` and the CSR-attribute table. -/
structure Registry where
  extensionParser : Oid → Option (Parser ParsedExtension)
  attributeParser : Oid → Option (Parser ParsedCriAttribute)

end X509Parser
