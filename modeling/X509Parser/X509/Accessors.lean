import X509Parser.X509.Name

/-!
# Accessors of decoded values

The attribute iterators and the text of a Name, the validity checks, and the text of a serial.
A Rust `String` is its characters; what comes from other crates is a parameter.
-/

namespace X509Parser

set_option autoImplicit false

/-! ## Attributes of a Name -/

/-- `oid_registry::OID_X509_COMMON_NAME`, 2.5.4.3. -/
def oidX509CommonName : Oid := ⟨[0x55, 0x04, 0x03], rfl⟩

/-- `oid_registry::OID_X509_COUNTRY_NAME`, 2.5.4.6. -/
def oidX509CountryName : Oid := ⟨[0x55, 0x04, 0x06], rfl⟩

/-- `oid_registry::OID_X509_LOCALITY_NAME`, 2.5.4.7. -/
def oidX509LocalityName : Oid := ⟨[0x55, 0x04, 0x07], rfl⟩

/-- `oid_registry::OID_X509_STREET_ADDRESS`, 2.5.4.9. -/
def oidX509StreetAddress : Oid := ⟨[0x55, 0x04, 0x09], rfl⟩

/-- `oid_registry::OID_X509_ORGANIZATION_NAME`, 2.5.4.10. -/
def oidX509OrganizationName : Oid := ⟨[0x55, 0x04, 0x0A], rfl⟩

/-- `oid_registry::OID_X509_ORGANIZATIONAL_UNIT`, 2.5.4.11. -/
def oidX509OrganizationalUnit : Oid := ⟨[0x55, 0x04, 0x0B], rfl⟩

/-- `oid_registry::OID_PKCS9_EMAIL_ADDRESS`, 1.2.840.113549.1.9.1. -/
def oidPkcs9EmailAddress : Oid := ⟨[0x2A, 0x86, 0x48, 0x86, 0xF7, 0x0D, 0x01, 0x09, 0x01], rfl⟩

/-- `X509Name::iter_attributes`. -/
def X509Name.iterAttributes (n : X509Name) : List AttributeTypeAndValue :=
  (n.rdnSeq.map fun rdn => rdn.set).flatten

/-- `X509Name::iter_by_oid`. -/
def X509Name.iterByOid (n : X509Name) (oid : Oid) : List AttributeTypeAndValue :=
  n.iterAttributes.filter fun obj => obj.attrType == oid

/-- `X509Name::iter_common_name`. -/
def X509Name.iterCommonName (n : X509Name) : List AttributeTypeAndValue :=
  n.iterByOid oidX509CommonName

/-- `X509Name::iter_country`. -/
def X509Name.iterCountry (n : X509Name) : List AttributeTypeAndValue :=
  n.iterByOid oidX509CountryName

/-- `X509Name::iter_organization`. -/
def X509Name.iterOrganization (n : X509Name) : List AttributeTypeAndValue :=
  n.iterByOid oidX509OrganizationName

/-- `X509Name::iter_organizational_unit`. -/
def X509Name.iterOrganizationalUnit (n : X509Name) : List AttributeTypeAndValue :=
  n.iterByOid oidX509OrganizationalUnit

/-- `X509Name::iter_state_or_province`, documented as the StateOrProvinceName attributes. -/
def X509Name.iterStateOrProvince (n : X509Name) : List AttributeTypeAndValue :=
  n.iterByOid oidX509StreetAddress

/-- `X509Name::iter_locality`. -/
def X509Name.iterLocality (n : X509Name) : List AttributeTypeAndValue :=
  n.iterByOid oidX509LocalityName

/-- `X509Name::iter_email`. -/
def X509Name.iterEmail (n : X509Name) : List AttributeTypeAndValue :=
  n.iterByOid oidPkcs9EmailAddress

theorem X509Name.iterByOid_eq_flatMap (n : X509Name) (oid : Oid) :
    n.iterByOid oid = n.rdnSeq.flatMap fun rdn => rdn.set.filter fun a => a.attrType == oid := by
  simp only [X509Name.iterByOid, X509Name.iterAttributes, List.filter_flatten, List.map_map,
    List.flatMap]
  rfl

theorem X509Name.mem_iterByOid {n : X509Name} {oid : Oid} {a : AttributeTypeAndValue} :
    a ∈ n.iterByOid oid ↔ (∃ rdn ∈ n.rdnSeq, a ∈ rdn.set) ∧ a.attrType = oid := by
  simp [X509Name.iterByOid, X509Name.iterAttributes, List.mem_flatten, ← and_assoc, exists_and_right]

theorem X509Name.iterStateOrProvince_streetAddress {n : X509Name} {a : AttributeTypeAndValue}
    (h : a ∈ n.iterStateOrProvince) : a.attrType = oidX509StreetAddress :=
  (X509Name.mem_iterByOid.mp h).2

/-- A PrintableString of ASCII text, as `DerObject::from_obj` builds it. -/
def printableString (s : String) : DerObject :=
  ⟨.universal, false, 19, s.toList.map fun c => UInt8.ofNat c.toNat⟩

/-- The name of `test_x509_name`. -/
def testX509Name : X509Name :=
  ⟨[⟨[⟨oidX509CountryName, printableString "FR"⟩]⟩,
    ⟨[⟨⟨[0x55, 0x04, 0x08], rfl⟩, printableString "Some-State"⟩]⟩,
    ⟨[⟨oidX509OrganizationName, printableString "Internet Widgits Pty Ltd"⟩]⟩,
    ⟨[⟨oidX509CommonName, printableString "Test1"⟩, ⟨oidX509CommonName, printableString "Test2"⟩]⟩], []⟩

theorem X509Name.iterStateOrProvince_misses_state :
    testX509Name.iterStateOrProvince = [] ∧
      testX509Name.iterByOid ⟨[0x55, 0x04, 0x08], rfl⟩ =
        [⟨⟨[0x55, 0x04, 0x08], rfl⟩, printableString "Some-State"⟩] := by
  decide

/-! ## The text of a Name -/

def hexDigit (upper : Bool) (d : Nat) : Char :=
  if d < 10 then Char.ofNat (48 + d) else Char.ofNat ((if upper then 55 else 87) + d)

/-- `data_encoding::HEXUPPER.encode`: two upper-case digits per octet. -/
def hexupperEncode (bs : List UInt8) : List Char :=
  bs.flatMap fun b => [hexDigit true (b.toNat / 16), hexDigit true (b.toNat % 16)]

/-- der-parser's string view and `as_slice`, oid_registry's `oid2abbrev`, and `Oid`'s `Debug`. -/
structure NameFormat where
  stringContent : DerObject → Option (List Char)
  asSlice : DerObject → Option (List UInt8)
  oid2abbrev : Oid → Option (List Char)
  oidDebug : Oid → List Char

/-- `attribute_value_to_string`. -/
def attributeValueToString (fmt : NameFormat) (attr : DerObject) (_attrType : Oid) :
    Except X509Error (List Char) :=
  match fmt.stringContent attr with
  | some s => .ok s
  | none =>
    match fmt.asSlice attr with
    | some s => .ok (hexupperEncode s)
    | none => .error .invalidX509Name

/-- `x509name_to_string`. -/
def x509NameToString (fmt : NameFormat) (rdnSeq : List RelativeDistinguishedName) :
    Except X509Error (List Char) :=
  rdnSeq.foldl (fun (acc : Except X509Error (List Char)) rdn => acc.bind fun vec =>
      (rdn.set.foldl (fun (acc2 : Except X509Error (List Char)) attr => acc2.bind fun vec2 => do
          let valStr ← attributeValueToString fmt attr.attrValue attr.attrType
          let abbr := match fmt.oid2abbrev attr.attrType with
            | some s => s
            | none => fmt.oidDebug attr.attrType
          let rdn := abbr ++ ['='] ++ valStr
          pure (if vec2.length = 0 then rdn else vec2 ++ " + ".toList ++ rdn))
        (.ok [])).map fun v => if vec.length = 0 then v else vec ++ ", ".toList ++ v)
    (.ok [])

/-- `impl Display for X509Name`. -/
def X509Name.toString (fmt : NameFormat) (n : X509Name) : List Char :=
  match x509NameToString fmt n.rdnSeq with
  | .ok o => o
  | .error _ => "<X509Error: Invalid X.509 name>".toList

def NameFormat.printable (fmt : NameFormat) (v : DerObject) : Bool :=
  (fmt.stringContent v).isSome || (fmt.asSlice v).isSome

def NameFormat.label (fmt : NameFormat) (o : Oid) : List Char := (fmt.oid2abbrev o).getD (fmt.oidDebug o)

def NameFormat.render (fmt : NameFormat) (v : DerObject) : List Char :=
  match fmt.stringContent v with
  | some s => s
  | none => hexupperEncode ((fmt.asSlice v).getD [])

/-- The spec's format: RDNs joined with `", "`, the attributes of an RDN with `" + "`. -/
def nameJoin (fmt : NameFormat) (rdnSeq : List RelativeDistinguishedName) : List Char :=
  ", ".toList.intercalate (rdnSeq.map fun rdn =>
    " + ".toList.intercalate (rdn.set.map fun a => fmt.label a.attrType ++ ['='] ++ fmt.render a.attrValue))

section Join

variable {β : Type}

/-- The `match _vec.len() { 0 => piece, _ => _vec + sep + piece }` of both folds. -/
def appendSep (sep acc piece : List Char) : List Char :=
  if acc.length = 0 then piece else acc ++ sep ++ piece

theorem intercalate_cons (sep x : List Char) (xs : List (List Char)) :
    sep.intercalate (x :: xs) = x ++ xs.flatMap (sep ++ ·) := by
  induction xs generalizing x with
  | nil => simp [List.intercalate]
  | cons y ys ih =>
    rw [List.intercalate, List.intersperse_cons₂, List.flatten_cons, List.flatten_cons,
      ← List.intercalate, ih]
    simp

theorem foldl_appendSep_of_ne_nil (sep : List Char) (xs : List (List Char)) {acc : List Char}
    (h : acc ≠ []) : xs.foldl (appendSep sep) acc = acc ++ xs.flatMap (sep ++ ·) := by
  induction xs generalizing acc with
  | nil => simp
  | cons x xs ih =>
    have hne : acc ++ sep ++ x ≠ [] := by simp [h]
    rw [List.foldl_cons, appendSep, if_neg (by simpa using h), ih hne]
    simp

theorem foldl_appendSep_nil (sep : List Char) (xs : List (List Char)) (h : ∀ x ∈ xs, x ≠ []) :
    xs.foldl (appendSep sep) [] = sep.intercalate xs := by
  cases xs with
  | nil => rfl
  | cons x xs =>
    rw [List.foldl_cons, appendSep, if_pos List.length_nil, intercalate_cons,
      foldl_appendSep_of_ne_nil sep xs (h x (List.mem_cons_self _ _))]

theorem foldl_bind_error (step : List Char → β → Except X509Error (List Char)) (e : X509Error)
    (xs : List β) :
    xs.foldl (fun (acc : Except X509Error (List Char)) x => acc.bind fun v => step v x) (.error e) =
      .error e := by
  induction xs with
  | nil => rfl
  | cons x xs ih => exact ih

theorem foldl_bind_appendSep (sep : List Char) (f : β → Except X509Error (List Char))
    (step : List Char → β → Except X509Error (List Char))
    (hstep : ∀ v x, step v x = (f x).map (appendSep sep v)) (xs : List β) (a : List Char) :
    xs.foldl (fun (acc : Except X509Error (List Char)) x => acc.bind fun v => step v x) (.ok a) =
      (xs.mapM f).map fun ps => ps.foldl (appendSep sep) a := by
  induction xs generalizing a with
  | nil => rfl
  | cons x xs ih =>
    simp only [List.foldl_cons, List.mapM_cons]
    rw [show (Except.ok a : Except X509Error (List Char)).bind (fun v => step v x) =
      (f x).map (appendSep sep a) from hstep a x]
    cases f x with
    | error e => exact foldl_bind_error step e xs
    | ok p =>
      rw [show (Except.ok p : Except X509Error (List Char)).map (appendSep sep a) =
        .ok (appendSep sep a p) from rfl, ih]
      cases xs.mapM f <;> rfl

theorem mapM_ite {γ : Type} (f : β → Except X509Error γ) (P : β → Prop) [DecidablePred P]
    (g : β → γ) (e : X509Error) (hf : ∀ x, f x = if P x then .ok (g x) else .error e) (xs : List β) :
    xs.mapM f = if ∀ x ∈ xs, P x then .ok (xs.map g) else .error e := by
  induction xs with
  | nil => rfl
  | cons x xs ih =>
    rw [List.mapM_cons, hf x, ih]
    by_cases hx : P x
    · by_cases hxs : ∀ y ∈ xs, P y
      · rw [if_pos hx, if_pos hxs, if_pos (List.forall_mem_cons.mpr ⟨hx, hxs⟩)]
        rfl
      · rw [if_pos hx, if_neg hxs, if_neg fun h => hxs (List.forall_mem_cons.mp h).2]
        rfl
    · rw [if_neg hx, if_neg fun h => hx (List.forall_mem_cons.mp h).1]
      rfl

end Join

theorem attributeValueToString_eq (fmt : NameFormat) (v : DerObject) (o : Oid) :
    attributeValueToString fmt v o = if fmt.printable v then .ok (fmt.render v) else .error .invalidX509Name := by
  unfold attributeValueToString NameFormat.printable NameFormat.render
  cases fmt.stringContent v <;> cases fmt.asSlice v <;> rfl

def attributeText (fmt : NameFormat) (a : AttributeTypeAndValue) : Except X509Error (List Char) :=
  (attributeValueToString fmt a.attrValue a.attrType).map fun s => fmt.label a.attrType ++ ['='] ++ s

theorem attributeText_eq (fmt : NameFormat) (a : AttributeTypeAndValue) :
    attributeText fmt a = if fmt.printable a.attrValue then
      .ok (fmt.label a.attrType ++ ['='] ++ fmt.render a.attrValue) else .error .invalidX509Name := by
  rw [attributeText, attributeValueToString_eq]
  split <;> rfl

theorem x509NameToString_eq_join (fmt : NameFormat) (rdnSeq : List RelativeDistinguishedName)
    (hne : ∀ rdn ∈ rdnSeq, rdn.set ≠ []) :
    x509NameToString fmt rdnSeq =
      if ∀ rdn ∈ rdnSeq, ∀ a ∈ rdn.set, fmt.printable a.attrValue then .ok (nameJoin fmt rdnSeq)
      else .error .invalidX509Name := by
  have hg : ∀ rdn ∈ rdnSeq, " + ".toList.intercalate
      (rdn.set.map fun a => fmt.label a.attrType ++ ['='] ++ fmt.render a.attrValue) ≠ [] := by
    intro rdn hr
    obtain ⟨a, as, hs⟩ := List.exists_cons_of_ne_nil (hne rdn hr)
    simp [hs, intercalate_cons]
  unfold x509NameToString
  -- The outer fold is the `mapM` of the RDNs' texts, each the `mapM` of its attributes' texts.
  erw [foldl_bind_appendSep ", ".toList _ _ (fun _ _ => rfl)]
  rw [mapM_ite _ (fun rdn => ∀ a ∈ rdn.set, fmt.printable a.attrValue)
    (fun rdn => " + ".toList.intercalate
      (rdn.set.map fun a => fmt.label a.attrType ++ ['='] ++ fmt.render a.attrValue)) _ fun rdn => ?_]
  · split
    · rw [Except.map, foldl_appendSep_nil _ _ (by simpa using hg)]
      rfl
    · rfl
  · erw [foldl_bind_appendSep " + ".toList (attributeText fmt) _ fun v x => by
      unfold attributeText NameFormat.label
      cases attributeValueToString fmt x.attrValue x.attrType <;>
        cases fmt.oid2abbrev x.attrType <;> rfl]
    rw [mapM_ite _ _ _ _ (attributeText_eq fmt)]
    split
    · rw [Except.map, foldl_appendSep_nil _ _ fun x hx => by
        obtain ⟨a, -, rfl⟩ := List.mem_map.mp hx
        simp]
    · rfl

/-- oid_registry's abbreviations for `test_x509_name`. -/
def testNameFormat : NameFormat where
  stringContent v := if v.tag = 19 then some (v.content.map fun b => Char.ofNat b.toNat) else none
  asSlice v := some v.content
  oid2abbrev o :=
    if o = oidX509CountryName then some "C".toList
    else if o = ⟨[0x55, 0x04, 0x08], rfl⟩ then some "ST".toList
    else if o = oidX509OrganizationName then some "O".toList
    else if o = oidX509CommonName then some "CN".toList
    else none
  oidDebug _ := []

theorem x509NameToString_eq_join_test :
    (∀ rdn ∈ testX509Name.rdnSeq, rdn.set ≠ []) ∧
      x509NameToString testNameFormat testX509Name.rdnSeq =
        if ∀ rdn ∈ testX509Name.rdnSeq, ∀ a ∈ rdn.set, testNameFormat.printable a.attrValue then
          .ok (nameJoin testNameFormat testX509Name.rdnSeq)
        else .error .invalidX509Name :=
  have hne : ∀ rdn ∈ testX509Name.rdnSeq, rdn.set ≠ [] := by decide
  ⟨hne, x509NameToString_eq_join testNameFormat testX509Name.rdnSeq hne⟩

theorem X509Name.toString_fromDer (fmt : NameFormat) {i r : Slice} {n : X509Name}
    (h : X509Name.fromDer i = .ok r n) :
    n.toString fmt = if ∀ rdn ∈ n.rdnSeq, ∀ a ∈ rdn.set, fmt.printable a.attrValue then
      nameJoin fmt n.rdnSeq else "<X509Error: Invalid X.509 name>".toList := by
  rw [X509Name.toString, x509NameToString_eq_join fmt _ (X509Name.fromDer_rdns_ne_nil h)]
  split_ifs <;> rfl

theorem X509Name.toString_fromDer_common_name :
    X509Name.fromDer ⟨0, [0x30, 0x0C, 0x31, 0x0A, 0x30, 0x08, 0x06, 0x03, 0x55, 0x04, 0x03, 0x13, 0x01, 0x61]⟩ =
        .ok ⟨14, []⟩ ⟨[⟨[⟨oidX509CommonName, printableString "a"⟩]⟩],
          [0x30, 0x0C, 0x31, 0x0A, 0x30, 0x08, 0x06, 0x03, 0x55, 0x04, 0x03, 0x13, 0x01, 0x61]⟩ ∧
      X509Name.toString testNameFormat ⟨[⟨[⟨oidX509CommonName, printableString "a"⟩]⟩],
          [0x30, 0x0C, 0x31, 0x0A, 0x30, 0x08, 0x06, 0x03, 0x55, 0x04, 0x03, 0x13, 0x01, 0x61]⟩ =
        if ∀ rdn ∈ [(⟨[⟨oidX509CommonName, printableString "a"⟩]⟩ : RelativeDistinguishedName)],
            ∀ a ∈ rdn.set, testNameFormat.printable a.attrValue then
          nameJoin testNameFormat [⟨[⟨oidX509CommonName, printableString "a"⟩]⟩]
        else "<X509Error: Invalid X.509 name>".toList :=
  have h : X509Name.fromDer ⟨0, [0x30, 0x0C, 0x31, 0x0A, 0x30, 0x08, 0x06, 0x03, 0x55, 0x04, 0x03, 0x13,
      0x01, 0x61]⟩ = .ok ⟨14, []⟩ ⟨[⟨[⟨oidX509CommonName, printableString "a"⟩]⟩],
        [0x30, 0x0C, 0x31, 0x0A, 0x30, 0x08, 0x06, 0x03, 0x55, 0x04, 0x03, 0x13, 0x01, 0x61]⟩ := by
    decide
  ⟨h, X509Name.toString_fromDer testNameFormat h⟩

example : testX509Name.toString testNameFormat =
    "C=FR, ST=Some-State, O=Internet Widgits Pty Ltd, CN=Test1 + CN=Test2".toList := by
  decide

/-! ## Validity -/

/-- `Validity::is_valid_at`. -/
def Validity.isValidAt (v : Validity) (time : ASN1Time) : Bool :=
  decide (v.notBefore ≤ time) && decide (time < v.notAfter)

/-- `Validity::time_to_expiration`, at the time `now` the code reads from the clock. -/
def Validity.timeToExpiration (v : Validity) (now : ASN1Time) : Option Nat :=
  if !v.isValidAt now then none else v.notAfter.sub now

/-- `Validity::is_valid`, at the time `now` the code reads from the clock. -/
def Validity.isValid (v : Validity) (now : ASN1Time) : Bool := v.isValidAt now

theorem Validity.isValidAt_iff (v : Validity) (t : ASN1Time) :
    v.isValidAt t = true ↔ v.notBefore ≤ t ∧ t < v.notAfter := by
  simp [Validity.isValidAt]

theorem Validity.timeToExpiration_eq (v : Validity) (now : ASN1Time) :
    v.timeToExpiration now = if v.notBefore ≤ now ∧ now < v.notAfter then
      some (v.notAfter.timestamp - now.timestamp) else none := by
  unfold Validity.timeToExpiration
  by_cases hv : v.notBefore ≤ now ∧ now < v.notAfter
  · have hlt := (ASN1Time.lt_def _ _).mp hv.2
    rw [if_pos hv, (Validity.isValidAt_iff v now).mpr hv, if_neg (by decide), ASN1Time.sub,
      if_pos ((ASN1Time.le_def _ _).mpr (Nat.le_of_lt hlt))]
  · rw [if_neg hv, Bool.eq_false_iff.mpr (mt (Validity.isValidAt_iff v now).mp hv)]
    rfl

theorem Validity.timeToExpiration_half_open (v : Validity) (now : ASN1Time) :
    ((∃ d, v.timeToExpiration now = some d) ↔ v.isValidAt now = true) ∧
    (v.isValidAt now = true ↔ v.notBefore ≤ now ∧ now < v.notAfter) ∧
    (∀ d, v.timeToExpiration now = some d → v.notAfter.sub now = some d ∧ 0 < d) ∧
    (now < v.notBefore → v.timeToExpiration now = none) ∧
    (v.notAfter ≤ now → v.timeToExpiration now = none) ∧
    (v.notAfter ≤ v.notBefore → v.timeToExpiration now = none) := by
  have hnone : ¬(v.notBefore ≤ now ∧ now < v.notAfter) → v.timeToExpiration now = none := fun h => by
    rw [Validity.timeToExpiration_eq, if_neg h]
  simp only [Validity.isValidAt_iff]
  refine ⟨⟨fun ⟨d, hd⟩ => Classical.byContradiction fun h => by simp [hnone h] at hd,
      fun h => ⟨_, by rw [Validity.timeToExpiration_eq, if_pos h]⟩⟩, trivial, fun d hd => ?_,
    fun h => hnone fun hv => ?_, fun h => hnone fun hv => ?_, fun h => hnone fun hv => ?_⟩
  · rw [Validity.timeToExpiration_eq] at hd
    split_ifs at hd with hv
    obtain rfl := Option.some.inj hd
    have hlt := (ASN1Time.lt_def _ _).mp hv.2
    rw [ASN1Time.sub, if_pos ((ASN1Time.le_def _ _).mpr (Nat.le_of_lt hlt))]
    exact ⟨rfl, by omega⟩
  all_goals simp only [ASN1Time.le_def, ASN1Time.lt_def] at h hv; omega

theorem Validity.timeToExpiration_half_open_cases :
    (Validity.timeToExpiration ⟨⟨2024, 1, 1, 0, 0, 0, rfl⟩, ⟨2024, 1, 1, 0, 1, 0, rfl⟩⟩
        ⟨2024, 1, 1, 0, 0, 30, rfl⟩ = some 30 ∧
      ASN1Time.sub ⟨2024, 1, 1, 0, 1, 0, rfl⟩ ⟨2024, 1, 1, 0, 0, 30, rfl⟩ = some 30 ∧ 0 < 30) ∧
    Validity.timeToExpiration ⟨⟨2024, 1, 1, 0, 0, 0, rfl⟩, ⟨2024, 1, 1, 0, 1, 0, rfl⟩⟩
      ⟨2023, 12, 31, 23, 59, 59, rfl⟩ = none ∧
    Validity.timeToExpiration ⟨⟨2024, 1, 1, 0, 0, 0, rfl⟩, ⟨2024, 1, 1, 0, 1, 0, rfl⟩⟩
      ⟨2024, 1, 1, 0, 1, 0, rfl⟩ = none ∧
    Validity.timeToExpiration ⟨⟨2024, 1, 1, 0, 1, 0, rfl⟩, ⟨2024, 1, 1, 0, 0, 0, rfl⟩⟩
      ⟨2024, 1, 1, 0, 0, 30, rfl⟩ = none := by
  have h30 : Validity.timeToExpiration ⟨⟨2024, 1, 1, 0, 0, 0, rfl⟩, ⟨2024, 1, 1, 0, 1, 0, rfl⟩⟩
      ⟨2024, 1, 1, 0, 0, 30, rfl⟩ = some 30 := by decide
  obtain ⟨-, -, hsub, -, -, -⟩ := Validity.timeToExpiration_half_open
    ⟨⟨2024, 1, 1, 0, 0, 0, rfl⟩, ⟨2024, 1, 1, 0, 1, 0, rfl⟩⟩ ⟨2024, 1, 1, 0, 0, 30, rfl⟩
  obtain ⟨-, -, -, hearly, -, -⟩ := Validity.timeToExpiration_half_open
    ⟨⟨2024, 1, 1, 0, 0, 0, rfl⟩, ⟨2024, 1, 1, 0, 1, 0, rfl⟩⟩ ⟨2023, 12, 31, 23, 59, 59, rfl⟩
  obtain ⟨-, -, -, -, hend, -⟩ := Validity.timeToExpiration_half_open
    ⟨⟨2024, 1, 1, 0, 0, 0, rfl⟩, ⟨2024, 1, 1, 0, 1, 0, rfl⟩⟩ ⟨2024, 1, 1, 0, 1, 0, rfl⟩
  obtain ⟨-, -, -, -, -, hinverted⟩ := Validity.timeToExpiration_half_open
    ⟨⟨2024, 1, 1, 0, 1, 0, rfl⟩, ⟨2024, 1, 1, 0, 0, 0, rfl⟩⟩ ⟨2024, 1, 1, 0, 0, 30, rfl⟩
  exact ⟨⟨h30, hsub 30 h30⟩, hearly (by decide), hend (by decide), hinverted (by decide)⟩

/-! ## The text of a serial -/

/-- `format!("{:02x}", b)`. -/
def formatHex02 (b : UInt8) : List Char := [hexDigit false (b.toNat / 16), hexDigit false (b.toNat % 16)]

/-- The body of `raw_serial_as_string`, `s.pop()` included. -/
def rawSerialAsString (rawSerial : List UInt8) : List Char :=
  (rawSerial.foldl (fun a b => a ++ (formatHex02 b ++ [':'])) []).dropLast

/-- `TbsCertificate::raw_serial_as_string`. -/
def TbsCertificate.rawSerialAsString (t : TbsCertificate) : List Char :=
  X509Parser.rawSerialAsString t.rawSerial

/-- `RevokedCertificate::raw_serial_as_string`. -/
def RevokedCertificate.rawSerialAsString (r : RevokedCertificate) : List Char :=
  X509Parser.rawSerialAsString r.rawSerial

theorem foldl_formatHex02 (b : List UInt8) (acc : List Char) :
    b.foldl (fun a x => a ++ (formatHex02 x ++ [':'])) acc =
      acc ++ b.flatMap fun x => formatHex02 x ++ [':'] := by
  induction b generalizing acc with
  | nil => simp
  | cons x xs ih => rw [List.foldl_cons, ih]; simp

theorem cons_flatMap_colon (xs : List UInt8) :
    ':' :: xs.flatMap (fun x => formatHex02 x ++ [':']) =
      (xs.map formatHex02).flatMap ([':'] ++ ·) ++ [':'] := by
  induction xs with
  | nil => rfl
  | cons x xs ih => simp [ih]

theorem rawSerialAsString_eq (b : List UInt8) :
    rawSerialAsString b = [':'].intercalate (b.map formatHex02) := by
  rw [rawSerialAsString, foldl_formatHex02, List.nil_append]
  cases b with
  | nil => rfl
  | cons x xs =>
    rw [List.flatMap_cons, List.map_cons, intercalate_cons, List.append_assoc, List.singleton_append,
      cons_flatMap_colon, ← List.append_assoc, List.dropLast_concat]

theorem rawSerialAsString_ne_nil {b : List UInt8} (hb : b ≠ []) : rawSerialAsString b ≠ [] := by
  obtain ⟨x, xs, rfl⟩ := List.exists_cons_of_ne_nil hb
  simp [rawSerialAsString_eq, intercalate_cons, formatHex02]

def hexValue (c : Char) : Option Nat :=
  if 48 ≤ c.toNat ∧ c.toNat ≤ 57 then some (c.toNat - 48)
  else if 97 ≤ c.toNat ∧ c.toNat ≤ 102 then some (c.toNat - 87) else none

def octetOfHex : List Char → Option UInt8
  | [hi, lo] => do pure (UInt8.ofNat (16 * (← hexValue hi) + (← hexValue lo)))
  | _ => none

/-- A serial's text read back: split at the colons, and each part read as an octet. -/
def serialOfString (s : List Char) : Option (List UInt8) := (s.splitOn ':').mapM octetOfHex

theorem hexValue_hexDigit {d : Nat} (hd : d < 16) : hexValue (hexDigit false d) = some d := by
  interval_cases d <;> rfl

theorem hexDigit_ne_colon {d : Nat} (hd : d < 16) : hexDigit false d ≠ ':' := by
  interval_cases d <;> decide

theorem octetOfHex_formatHex02 (b : UInt8) : octetOfHex (formatHex02 b) = some b := by
  have h16 : b.toNat < 256 := b.toNat_lt
  rw [formatHex02, octetOfHex, hexValue_hexDigit (by omega), hexValue_hexDigit (Nat.mod_lt _ (by omega))]
  simp only [Option.pure_def, Option.bind_eq_bind, Option.some_bind, Option.some.injEq]
  rw [Nat.div_add_mod]
  exact UInt8.toNat.inj (toNat_ofNat_digit h16)

theorem mapM_octetOfHex (b : List UInt8) : (b.map formatHex02).mapM octetOfHex = some b := by
  induction b with
  | nil => rfl
  | cons x xs ih =>
    rw [List.map_cons, List.mapM_cons, octetOfHex_formatHex02, ih]
    rfl

theorem serialOfString_rawSerialAsString {b : List UInt8} (hb : b ≠ []) :
    serialOfString (rawSerialAsString b) = some b := by
  have hcolon : ∀ l ∈ b.map formatHex02, ':' ∉ l := by
    intro l hl
    obtain ⟨x, -, rfl⟩ := List.mem_map.mp hl
    have h16 : x.toNat < 256 := x.toNat_lt
    simp only [formatHex02, List.mem_cons, List.mem_singleton, List.not_mem_nil, or_false, not_or]
    exact ⟨(hexDigit_ne_colon (by omega)).symm, (hexDigit_ne_colon (Nat.mod_lt _ (by omega))).symm⟩
  rw [serialOfString, rawSerialAsString_eq, List.splitOn_intercalate _ ':' hcolon (by simpa using hb),
    mapM_octetOfHex]

theorem rawSerialAsString_injective : Function.Injective rawSerialAsString := by
  intro b1 b2 h
  by_cases h1 : b1 = []
  · subst h1
    by_contra h2
    exact rawSerialAsString_ne_nil (Ne.symm h2) (h.symm.trans rfl)
  · have h2 : b2 ≠ [] := fun h2 => rawSerialAsString_ne_nil h1 (h.trans (by rw [h2]; rfl))
    have := serialOfString_rawSerialAsString h1
    rwa [h, serialOfString_rawSerialAsString h2, Option.some.injEq, eq_comm] at this

theorem rawSerialAsString_colon_joined :
    (∀ t : TbsCertificate, t.rawSerialAsString = [':'].intercalate (t.rawSerial.map formatHex02)) ∧
    (∀ r : RevokedCertificate,
      r.rawSerialAsString = [':'].intercalate (r.rawSerial.map formatHex02)) ∧
    Function.Injective rawSerialAsString ∧
    ∀ b : List UInt8, b = [] ∨ serialOfString (rawSerialAsString b) = some b :=
  ⟨fun t => rawSerialAsString_eq t.rawSerial, fun r => rawSerialAsString_eq r.rawSerial,
    rawSerialAsString_injective, fun b => (em (b = [])).imp_right serialOfString_rawSerialAsString⟩

example : rawSerialAsString [0x0A, 0xFF, 0x00] = "0a:ff:00".toList := by decide


end X509Parser
