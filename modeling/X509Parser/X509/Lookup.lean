import X509Parser.X509.Crl
import X509Parser.X509.Csr

/-!
# Extension accessors

The extension accessors share one lookup, `extensionOf`, each with its own OID and variant. On
a map built by `HashMap::insert` in list order they read the last extension of their OID in the
list, whatever its parsed form.
-/

namespace X509Parser

set_option autoImplicit false

/-- `oid_registry::OID_X509_EXT_KEY_USAGE`, 2.5.29.15. -/
def oidX509ExtKeyUsage : Oid := ⟨[0x55, 0x1D, 0x0F], rfl⟩

/-- `oid_registry::OID_X509_EXT_BASIC_CONSTRAINTS`, 2.5.29.19. -/
def oidX509ExtBasicConstraints : Oid := ⟨[0x55, 0x1D, 0x13], rfl⟩

/-- `oid_registry::OID_X509_EXT_CRL_NUMBER`, 2.5.29.20. -/
def oidX509ExtCrlNumber : Oid := ⟨[0x55, 0x1D, 0x14], rfl⟩

/-- `oid_registry::OID_X509_EXT_REASON_CODE`, 2.5.29.21. -/
def oidX509ExtReasonCode : Oid := ⟨[0x55, 0x1D, 0x15], rfl⟩

/-- `oid_registry::OID_X509_EXT_INVALIDITY_DATE`, 2.5.29.24. -/
def oidX509ExtInvalidityDate : Oid := ⟨[0x55, 0x1D, 0x18], rfl⟩

namespace ParsedExtension

/-- `ParsedExtension::BasicConstraints(bc)`: `bc.ca` and `bc.path_len_constraint`. -/
def basicConstraints? : ParsedExtension → Option (Bool × Option UInt32)
  | .basicConstraints ca pathLenConstraint => some (ca, pathLenConstraint)
  | _ => none

/-- `ParsedExtension::KeyUsage(ku)`. -/
def keyUsage? : ParsedExtension → Option UInt16
  | .keyUsage flags => some flags
  | _ => none

/-- `ParsedExtension::ReasonCode(code)`. -/
def reasonCode? : ParsedExtension → Option ReasonCode
  | .reasonCode code => some code
  | _ => none

/-- `ParsedExtension::InvalidityDate(date)`. -/
def invalidityDate? : ParsedExtension → Option ASN1Time
  | .invalidityDate date => some date
  | _ => none

/-- `ParsedExtension::CRLNumber(num)`. -/
def cRLNumber? : ParsedExtension → Option Nat
  | .cRLNumber number => some number
  | _ => none

end ParsedExtension

/-- `self.extensions.get(&oid)?`, then the variant `select` takes, with the critical flag. -/
def extensionOf {β : Type} (extensions : OidMap X509Extension) (oid : Oid)
    (select : ParsedExtension → Option β) : Option (Bool × β) := do
  let ext ← extensions.get? oid
  let v ← select ext.parsedExtension
  pure (ext.critical, v)

/-- `TbsCertificate::basic_constraints`. -/
def TbsCertificate.basicConstraints (x : TbsCertificate) : Option (Bool × Bool × Option UInt32) :=
  extensionOf x.extensions oidX509ExtBasicConstraints ParsedExtension.basicConstraints?

/-- `TbsCertificate::key_usage`. -/
def TbsCertificate.keyUsage (x : TbsCertificate) : Option (Bool × UInt16) :=
  extensionOf x.extensions oidX509ExtKeyUsage ParsedExtension.keyUsage?

/-- `TbsCertificate::is_ca`. -/
def TbsCertificate.isCa (x : TbsCertificate) : Bool :=
  (x.basicConstraints.map fun bc => bc.2.1).getD false

/-- `RevokedCertificate::reason_code`. -/
def RevokedCertificate.reasonCode (e : RevokedCertificate) : Option (Bool × ReasonCode) :=
  extensionOf e.extensions oidX509ExtReasonCode ParsedExtension.reasonCode?

/-- `RevokedCertificate::invalidity_date`. -/
def RevokedCertificate.invalidityDate (e : RevokedCertificate) : Option (Bool × ASN1Time) :=
  extensionOf e.extensions oidX509ExtInvalidityDate ParsedExtension.invalidityDate?

/-- `CertificateRevocationList::crl_number`. -/
def CertificateRevocationList.crlNumber (crl : CertificateRevocationList) : Option Nat := do
  let ext ← crl.tbsCertList.extensions.get? oidX509ExtCrlNumber
  match ext.parsedExtension with
  | .cRLNumber number => some number
  | _ => none

/-- `X509CertificationRequest::requested_extensions`; `HashMap::values` is taken in insertion
order. -/
def X509CertificationRequest.requestedExtensions (r : X509CertificationRequest) :
    Option (List ParsedExtension) :=
  r.certificationRequestInfo.attributes.findSome? fun (_, attr) =>
    match attr.parsedAttribute with
    | .extensionRequest extensions => some (extensions.map fun (_, ext) => ext.parsedExtension)
    | _ => none

theorem CertificateRevocationList.crlNumber_eq (crl : CertificateRevocationList) :
    crl.crlNumber =
      (extensionOf crl.tbsCertList.extensions oidX509ExtCrlNumber ParsedExtension.cRLNumber?).map
        Prod.snd := by
  simp only [CertificateRevocationList.crlNumber, extensionOf]
  cases crl.tbsCertList.extensions.get? oidX509ExtCrlNumber with
  | none => rfl
  | some ext =>
    obtain ⟨_, _, _, parsed⟩ := ext
    cases parsed <;> rfl

/-! ## Accessors on the map of a list -/

/-- What an accessor reads from an extension list. -/
def lastExtensionOf {β : Type} (v : List X509Extension) (oid : Oid)
    (select : ParsedExtension → Option β) : Option (Bool × β) :=
  (v.filter fun e => e.oid = oid).getLast?.bind fun e => (select e.parsedExtension).map (e.critical, ·)

theorem extensionOf_extensionMap {β : Type} (v : List X509Extension) (oid : Oid)
    (select : ParsedExtension → Option β) :
    extensionOf (extensionMap v) oid select = lastExtensionOf v oid select := by
  rw [extensionOf, lastExtensionOf, extensionMap_get?]
  cases (v.filter fun e => e.oid = oid).getLast? with
  | none => rfl
  | some e =>
    show (select e.parsedExtension).bind _ = (select e.parsedExtension).map _
    cases select e.parsedExtension <;> rfl

theorem TbsCertificate.isCa_extensionMap (x : TbsCertificate) {v : List X509Extension}
    (hv : x.extensions = extensionMap v) :
    x.isCa = true ↔ ∃ e pathLenConstraint,
      (v.filter fun e => e.oid = oidX509ExtBasicConstraints).getLast? = some e ∧
        e.parsedExtension = .basicConstraints true pathLenConstraint := by
  rw [TbsCertificate.isCa, TbsCertificate.basicConstraints, hv, extensionOf_extensionMap,
    lastExtensionOf]
  cases (v.filter fun e => e.oid = oidX509ExtBasicConstraints).getLast? with
  | none => simp
  | some e =>
    obtain ⟨_, _, _, parsed⟩ := e
    cases parsed <;> simp [ParsedExtension.basicConstraints?]

theorem CertificateRevocationList.crlNumber_extensionMap (crl : CertificateRevocationList)
    {v : List X509Extension} (hv : crl.tbsCertList.extensions = extensionMap v) :
    crl.crlNumber = (lastExtensionOf v oidX509ExtCrlNumber ParsedExtension.cRLNumber?).map Prod.snd := by
  rw [crlNumber_eq, hv, extensionOf_extensionMap]

/-! ## Accessors on the values the grammar builds -/

theorem CertificateFields.read_accessors (c : CertificateFields) :
    (∀ (β : Type) (oid : Oid) (select : ParsedExtension → Option β),
      extensionOf c.read.tbsCertificate.extensions oid select =
        lastExtensionOf (c.tbs.extensions.getD []) oid select) ∧
    (c.read.tbsCertificate.isCa = true ↔ ∃ e pathLenConstraint,
      ((c.tbs.extensions.getD []).filter fun e => e.oid = oidX509ExtBasicConstraints).getLast? = some e ∧
        e.parsedExtension = .basicConstraints true pathLenConstraint) :=
  ⟨fun _ _ _ => extensionOf_extensionMap _ _ _, c.read.tbsCertificate.isCa_extensionMap rfl⟩

theorem CrlFields.read_accessors (l : CrlFields) :
    (∀ (β : Type) (oid : Oid) (select : ParsedExtension → Option β),
      extensionOf l.read.tbsCertList.extensions oid select =
        lastExtensionOf (l.tbs.extensions.getD []) oid select) ∧
    l.read.crlNumber =
      (lastExtensionOf (l.tbs.extensions.getD []) oidX509ExtCrlNumber ParsedExtension.cRLNumber?).map Prod.snd ∧
    List.Forall₂ (fun (e : RevokedCertificate) (f : RevokedCertificateFields) =>
        ∀ (β : Type) (oid : Oid) (select : ParsedExtension → Option β),
          extensionOf e.extensions oid select = lastExtensionOf (f.extensions.getD []) oid select)
      l.read.tbsCertList.revokedCertificates l.tbs.revokedCertificates :=
  ⟨fun _ _ _ => extensionOf_extensionMap _ _ _, l.read.crlNumber_extensionMap rfl,
    List.forall₂_map_left_iff.mpr (List.forall₂_same.mpr fun _ _ _ _ _ => extensionOf_extensionMap _ _ _)⟩

namespace OidMap

variable {α : Type}

theorem mem_iff_get? {m : OidMap α} (hm : (m.map Prod.fst).Nodup) (k : Oid) (a : α) :
    (k, a) ∈ m ↔ m.get? k = some a := by
  induction m with
  | nil => simp [get?]
  | cons kv m ih =>
    obtain ⟨k₀, v₀⟩ := kv
    simp only [List.map_cons, List.nodup_cons] at hm
    by_cases h : k₀ = k
    · subst h
      have hnot : (k₀, a) ∉ m := fun hmem => hm.1 (List.mem_map_of_mem Prod.fst hmem)
      simp [get?, hnot, eq_comm]
    · simp [get?, h, ih hm.2, Ne.symm h]

end OidMap

theorem mem_attributeMap (w : List X509CriAttribute) (k : Oid) (a : X509CriAttribute) :
    (k, a) ∈ attributeMap w ↔ (w.filter fun b => b.oid = k).getLast? = some a := by
  rw [OidMap.mem_iff_get? (attributeMap_nodup w), attributeMap_get?]

theorem X509CertificationRequest.requestedExtensions_attributeMap (r : X509CertificationRequest)
    {w : List X509CriAttribute} (hw : r.certificationRequestInfo.attributes = attributeMap w) :
    (∀ l, r.requestedExtensions = some l → ∃ k a m,
      (w.filter fun b => b.oid = k).getLast? = some a ∧ a.parsedAttribute = .extensionRequest m ∧
        l = m.map fun (_, ext) => ext.parsedExtension) ∧
    (r.requestedExtensions = none ↔ ∀ k a m,
      (w.filter fun b => b.oid = k).getLast? = some a → a.parsedAttribute ≠ .extensionRequest m) := by
  rw [X509CertificationRequest.requestedExtensions, hw]
  refine ⟨fun l h => ?_, List.findSome?_eq_none_iff.trans ⟨fun h k a m hlast hp => ?_, fun h ka hmem => ?_⟩⟩
  · obtain ⟨⟨k, a⟩, hmem, hf⟩ := List.exists_of_findSome?_eq_some h
    cases hp : a.parsedAttribute with
    | unsupportedAttribute => simp [hp] at hf
    | extensionRequest m =>
      simp only [hp, Option.some.injEq] at hf
      exact ⟨k, a, m, (mem_attributeMap w k a).1 hmem, hp, hf.symm⟩
  · simpa [hp] using h (k, a) ((mem_attributeMap w k a).2 hlast)
  · obtain ⟨k, a⟩ := ka
    cases hp : a.parsedAttribute with
    | unsupportedAttribute => simp [hp]
    | extensionRequest m => exact absurd hp (h k a m ((mem_attributeMap w k a).1 hmem))

end X509Parser
