import X509Parser.X509.Fields

/-!
# Extensions

`X509Extension::from_der` reads the OID, the critical flag and the OCTET STRING value, and
hands the value to the decoder registered for the OID. The flag is kept but nothing looks at
it: an unknown OID gives `UnsupportedExtension` whether the extension is critical or not.
The extension lists of certificates and CRLs are read into an OID-keyed map in which a later
duplicate replaces an earlier one.
-/

namespace X509Parser

set_option autoImplicit false

open Parser

/-- Modelled from the spec: `x509_parser::der_read_critical`, not in `src/`, reads the
optional BOOLEAN `critical`, false when absent. -/
def derReadCritical : Parser Bool := (fun o => o.getD false) <$> opt parseBerBool

/-- Modelled from the spec: `extensions::parser::parse_extension`, not in `src/`: the
decoder registered for the OID reads the value, an OID with none gives
`UnsupportedExtension`, and the input resumes after the value either way. -/
def parseExtension (reg : Registry) (value : Slice) (oid : Oid) : Parser ParsedExtension := fun i =>
  match reg.extensionParser oid with
  | none => .ok i .unsupportedExtension
  | some p => (p value).bind fun e _ => .ok i e

/-- `X509Extension::from_der`. -/
def X509Extension.fromDer (reg : Registry) : Parser X509Extension :=
  (parseBerSequenceDefinedG do
    let oid ← parseDerOid
    let critical ← derReadCritical
    let value ← parseDerOctetstring
    let parsedExtension ← parseExtension reg value oid
    pure ⟨oid, critical, value.bytes, parsedExtension⟩).orError .invalidExtensions

/-- Modelled from the spec: `x509_parser::parse_extension_sequence`, not in `src/`, reads a
SEQUENCE OF Extension, every element of which must be an extension. -/
def parseExtensionSequence (reg : Registry) : Parser (List X509Extension) :=
  parseBerSequenceDefinedG (allConsuming (many0 (complete (X509Extension.fromDer reg))))

/-- The OID-keyed map of an extension list: `HashMap::insert` in list order. -/
def extensionMap (v : List X509Extension) : OidMap X509Extension :=
  v.foldl (fun m e => OidMap.insert m e.oid e) []

/-- Modelled from the spec: `x509_parser::extensions_sequence_to_map`, not in `src/`, builds
the map, a later duplicate OID silently replacing an earlier one. -/
def extensionsSequenceToMap (v : List X509Extension) : Parser (OidMap X509Extension) := fun i =>
  .ok i (extensionMap v)

/-- Modelled from the spec: `x509_parser::parse_extensions`, not in `src/`, reads an optional
`[explicit_tag] EXPLICIT` SEQUENCE OF Extension into the map. When the next element does not
carry the tag number, or there is none, the map is empty and nothing is read; a present list
that fails is `InvalidExtensions`. -/
def parseExtensions (reg : Registry) (explicitTag : UInt32) : Parser (OidMap X509Extension) := fun i =>
  match berReadElementHeader i with
  | .ok _ hdr =>
    if hdr.tag = explicitTag then
      ((parseBerContainer fun _ => do
        let v ← parseExtensionSequence reg
        extensionsSequenceToMap v).orError .invalidExtensions) i
    else .ok i []
  | _ => .ok i []

theorem parseExtensions_advances (reg : Registry) (tag : UInt32) : (parseExtensions reg tag).Advances :=
  fun i r a h => by
    unfold parseExtensions at h
    split at h
    · split at h
      · exact Advances.orError' _ (Advances.parseBerContainer' _) i r a h
      · cases h; exact ⟨0, Nat.zero_le _, Advances.drop_zero i⟩
    · cases h; exact ⟨0, Nat.zero_le _, Advances.drop_zero i⟩

/-- An extension with the OID 1.2.3, no registered decoder and the critical flag set is read
as `UnsupportedExtension`, and not refused. -/
theorem X509Extension.fromDer_accepts_unknown_critical :
    X509Extension.fromDer ⟨fun _ => none, fun _ => none⟩
      ⟨0, [0x30, 0x0A, 0x06, 0x02, 0x2A, 0x03, 0x01, 0x01, 0xFF, 0x04, 0x01, 0x00]⟩ =
        .ok ⟨12, []⟩ ⟨⟨[0x2A, 0x03], rfl⟩, true, [0x00], .unsupportedExtension⟩ := by
  decide

/-! ## The map of an extension list -/

namespace OidMap

variable {α : Type}

theorem insert_of_not_mem (m : OidMap α) (k : Oid) (v : α) (hk : k ∉ m.map Prod.fst) :
    OidMap.insert m k v = m ++ [(k, v)] := by
  induction m with
  | nil => rfl
  | cons kv m ih =>
    obtain ⟨k', v'⟩ := kv
    simp only [List.map_cons, List.mem_cons, not_or] at hk
    simp [insert, Ne.symm hk.1, ih hk.2]

theorem get?_append_of_not_mem (m : OidMap α) (k : Oid) (v : α) (hk : k ∉ m.map Prod.fst) :
    OidMap.get? (m ++ [(k, v)]) k = some v := by
  induction m with
  | nil => simp [get?]
  | cons kv m ih =>
    obtain ⟨k', v'⟩ := kv
    simp only [List.map_cons, List.mem_cons, not_or] at hk
    simp [get?, Ne.symm hk.1, ih hk.2]

/-! `HashMap`'s laws: a lookup after an insert sees the value inserted under its key and the
map's value under any other, and the keys stay distinct. -/

@[simp] theorem get?_insert (m : OidMap α) (k k' : Oid) (v : α) :
    (OidMap.insert m k v).get? k' = if k = k' then some v else m.get? k' := by
  induction m with
  | nil => rfl
  | cons kv m ih =>
    obtain ⟨k₀, v₀⟩ := kv
    by_cases h0 : k₀ = k
    · subst h0
      by_cases h : k₀ = k' <;> simp [insert, get?, h]
    · by_cases h : k₀ = k'
      · subst h; simp [insert, get?, h0, Ne.symm h0]
      · simp [insert, get?, h0, h, ih]

theorem mem_keys_insert (m : OidMap α) (k k' : Oid) (v : α) :
    k' ∈ (OidMap.insert m k v).map Prod.fst ↔ k' = k ∨ k' ∈ m.map Prod.fst := by
  induction m with
  | nil => simp [insert]
  | cons kv m ih =>
    obtain ⟨k₀, v₀⟩ := kv
    by_cases h0 : k₀ = k
    · subst h0; simp [insert]
    · simp only [insert, if_neg h0, List.map_cons, List.mem_cons, ih]
      tauto

theorem nodup_keys_insert {m : OidMap α} (hm : (m.map Prod.fst).Nodup) (k : Oid) (v : α) :
    ((OidMap.insert m k v).map Prod.fst).Nodup := by
  induction m with
  | nil => simp [insert]
  | cons kv m ih =>
    obtain ⟨k₀, v₀⟩ := kv
    simp only [List.map_cons, List.nodup_cons] at hm
    by_cases h0 : k₀ = k
    · subst h0; simpa [insert] using hm
    · simp only [insert, if_neg h0, List.map_cons, List.nodup_cons, mem_keys_insert, not_or]
      exact ⟨⟨h0, hm.1⟩, ih hm.2⟩

end OidMap

/-- Inserting values under pairwise distinct keys, none of them in the map yet, appends them
in order. -/
theorem OidMap.foldl_insert_of_nodup {β : Type} (key : β → Oid) (v : List β)
    (hv : (v.map key).Nodup) (m : OidMap β) (hm : ∀ x ∈ v, key x ∉ m.map Prod.fst) :
    v.foldl (fun m x => OidMap.insert m (key x) x) m = m ++ v.map fun x => (key x, x) := by
  induction v generalizing m with
  | nil => simp
  | cons x v ih =>
    simp only [List.map_cons, List.nodup_cons, List.mem_map] at hv
    rw [List.foldl_cons, OidMap.insert_of_not_mem _ _ _ (hm x (List.mem_cons_self x v)),
      ih hv.2 _ fun y hy => ?_]
    · simp
    · simp only [List.map_append, List.map_cons, List.map_nil, List.mem_append, List.mem_singleton,
        not_or]
      exact ⟨hm y (List.mem_cons_of_mem x hy), fun h => hv.1 ⟨y, hy, h⟩⟩

/-- With pairwise distinct OIDs the map holds one entry per extension, in list order. -/
theorem extensionMap_of_nodup (v : List X509Extension) (hv : (v.map X509Extension.oid).Nodup) :
    extensionMap v = v.map fun e => (e.oid, e) := by
  simpa using OidMap.foldl_insert_of_nodup X509Extension.oid v hv [] (by simp)

section Fold

variable {β : Type} (key : β → Oid)

/-- Inserting a list in order: a key's value is that of the last element with the key, or the
map's when there is none. -/
theorem OidMap.get?_foldl_insert (v : List β) (m : OidMap β) (k : Oid) :
    (v.foldl (fun m x => OidMap.insert m (key x) x) m).get? k =
      (v.filter fun x => key x = k).getLast?.or (m.get? k) := by
  induction v generalizing m with
  | nil => simp
  | cons x v ih =>
    have hx : ((x :: v).filter fun x => key x = k) = ([x].filter fun x => key x = k) ++
        (v.filter fun x => key x = k) := List.filter_append [x] v
    rw [List.foldl_cons, ih, OidMap.get?_insert, hx, List.getLast?_append, Option.or_assoc]
    by_cases h : key x = k <;> simp [h]

theorem OidMap.nodup_keys_foldl_insert (v : List β) {m : OidMap β} (hm : (m.map Prod.fst).Nodup) :
    ((v.foldl (fun m x => OidMap.insert m (key x) x) m).map Prod.fst).Nodup := by
  induction v generalizing m with
  | nil => exact hm
  | cons x v ih => exact ih (OidMap.nodup_keys_insert hm _ _)

end Fold

theorem extensionMap_get? (v : List X509Extension) (k : Oid) :
    (extensionMap v).get? k = (v.filter fun e => e.oid = k).getLast? := by
  rw [extensionMap, OidMap.get?_foldl_insert, OidMap.get?, Option.or_none]

theorem extensionMap_nodup (v : List X509Extension) : ((extensionMap v).map Prod.fst).Nodup :=
  OidMap.nodup_keys_foldl_insert X509Extension.oid v List.nodup_nil

/-! ## Panics and values

With registered decoders that never panic, no extension reader does; and every map of
extensions read is the map of the list of extensions read.
-/

section Safety

variable (reg : Registry)

theorem parseExtension_neverPanics (hreg : ∀ o p, reg.extensionParser o = some p → p.NeverPanics)
    (value : Slice) (oid : Oid) : (parseExtension reg value oid).NeverPanics := fun i => by
  unfold parseExtension
  split
  · exact nofun
  · next p hp =>
    intro h
    rcases IResult.bind_eq_panic.mp h with h | ⟨_, _, -, h⟩
    exacts [hreg oid p hp value h, nomatch h]

theorem X509Extension.fromDer_neverPanics (hreg : ∀ o p, reg.extensionParser o = some p → p.NeverPanics) :
    (X509Extension.fromDer reg).NeverPanics :=
  NeverPanics.orError' _ <| NeverPanics.parseBerSequenceDefinedG' <|
    NeverPanics.bind' NeverPanics.parseDerOid' fun _ =>
    NeverPanics.bind' (NeverPanics.map' _ (NeverPanics.opt' NeverPanics.parseBerBool')) fun _ =>
    NeverPanics.bind' (NeverPanics.berContentWithTag' _) fun value =>
    NeverPanics.bind' (parseExtension_neverPanics reg hreg value _) fun _ => NeverPanics.pure' _

theorem parseExtensionSequence_neverPanics (hreg : ∀ o p, reg.extensionParser o = some p → p.NeverPanics) :
    (parseExtensionSequence reg).NeverPanics :=
  NeverPanics.parseBerSequenceDefinedG' <| NeverPanics.allConsuming' <| NeverPanics.many0' <|
    NeverPanics.complete' (X509Extension.fromDer_neverPanics reg hreg)

theorem X509Extension.fromDer_consumes : (X509Extension.fromDer reg).Consumes 2 :=
  Consumes.orError' _ (parseBerContainer_consumes _)

/-- The list read into the map of `parse_extensions`, and the map built from it. -/
theorem extensionList_neverPanics (hreg : ∀ o p, reg.extensionParser o = some p → p.NeverPanics) :
    (do let v ← parseExtensionSequence reg; extensionsSequenceToMap v).NeverPanics :=
  NeverPanics.bind' (parseExtensionSequence_neverPanics reg hreg) fun _ _ h => by cases h

theorem extensionList_map :
    (do let v ← parseExtensionSequence reg; extensionsSequenceToMap v).Yields
      fun m => ∃ v, m = extensionMap v :=
  Yields.bind_right fun v _ _ _ h => by cases h; exact ⟨v, rfl⟩

theorem parseExtensions_neverPanics (hreg : ∀ o p, reg.extensionParser o = some p → p.NeverPanics)
    (tag : UInt32) : (parseExtensions reg tag).NeverPanics := fun i => by
  unfold parseExtensions
  split
  · split
    · exact NeverPanics.orError' _ (NeverPanics.parseBerContainer' fun _ =>
        extensionList_neverPanics reg hreg) i
    · exact nofun
  · exact nofun

theorem parseExtensions_map (tag : UInt32) :
    (parseExtensions reg tag).Yields fun m => ∃ v, m = extensionMap v := fun i r m h => by
  unfold parseExtensions at h
  split at h
  · split at h
    · exact Yields.orError' _ (Yields.parseBerContainer' fun _ => extensionList_map reg) i r m h
    · cases h; exact ⟨[], rfl⟩
  · cases h; exact ⟨[], rfl⟩

end Safety

/-! ## DER encodings -/

/-- An extension, its `critical` flag left out when false as DER's DEFAULT asks. -/
def X509Extension.encode (e : X509Extension) : List UInt8 :=
  encodeSequence (encodeOid e.oid ++ (if e.critical then encodeBool true else []) ++
    encodeOctetString e.value)

/-- An optional `[tag] EXPLICIT` extension list; nothing when absent. -/
def encodeExtensions (tag : UInt32) : Option (List X509Extension) → List UInt8
  | none => []
  | some es => encodeTLV .contextSpecific true tag (encodeSequence (es.flatMap X509Extension.encode))

/-- The decoder registered for an extension's OID reads its value, wherever it stands, into
the extension's parsed form; with no decoder the parsed form is `UnsupportedExtension`. -/
def Registry.AcceptsExtension (reg : Registry) (e : X509Extension) : Prop :=
  match reg.extensionParser e.oid with
  | none => e.parsedExtension = .unsupportedExtension
  | some p => ∀ pos, ∃ r, p ⟨pos, e.value⟩ = .ok r e.parsedExtension

/-- An optional extension list as RFC 5280 builds it: contents the decoders accept, and
distinct OIDs. -/
def Registry.ExtensionsWellFormed (reg : Registry) (ex : Option (List X509Extension)) : Prop :=
  ∀ es ∈ ex, (∀ e ∈ es, reg.AcceptsExtension e) ∧ (es.map X509Extension.oid).Nodup

/-- An optional extension list whose contents the decoders accept; an OID may repeat. -/
def Registry.ExtensionsAccepted (reg : Registry) (ex : Option (List X509Extension)) : Prop :=
  ∀ es ∈ ex, ∀ e ∈ es, reg.AcceptsExtension e

theorem Registry.ExtensionsWellFormed.accepted {reg : Registry} {ex : Option (List X509Extension)}
    (h : reg.ExtensionsWellFormed ex) : reg.ExtensionsAccepted ex := fun es hes => (h es hes).1

theorem extensionMap_getD (reg : Registry) {ex : Option (List X509Extension)}
    (hwf : reg.ExtensionsWellFormed ex) :
    extensionMap (ex.getD []) = (ex.getD []).map fun e => (e.oid, e) := by
  cases ex with
  | none => rfl
  | some es => exact extensionMap_of_nodup es (hwf es rfl).2

/-! ## Extensions read back from their encoding -/

section RoundTrip

variable (reg : Registry) (pos : Nat) (rest : List UInt8)

theorem parseExtension_accepts (e : X509Extension) (he : reg.AcceptsExtension e) (p : Nat)
    (i : Slice) : parseExtension reg ⟨p, e.value⟩ e.oid i = .ok i e.parsedExtension := by
  unfold Registry.AcceptsExtension at he
  unfold parseExtension
  split
  · next hn => rw [hn] at he; rw [he]
  · next q hq =>
    rw [hq] at he
    obtain ⟨r, hr⟩ := he p
    rw [hr, IResult.bind_ok]

theorem derReadCritical_encodeBool :
    derReadCritical ⟨pos, encodeBool true ++ rest⟩ = .ok ⟨pos + (encodeBool true).length, rest⟩ true := by
  simp [derReadCritical, opt, parseBerBool_encodeBool]

theorem derReadCritical_absent (content : List UInt8) (hc : content.length < 2 ^ 64) :
    derReadCritical ⟨pos, encodeOctetString content ++ rest⟩ =
      .ok ⟨pos, encodeOctetString content ++ rest⟩ false := by
  simp [derReadCritical, opt, parseBerBool, encodeOctetString,
    berContentWithTag_other pos rest _ _ (show BerTag.octetString ≠ BerTag.boolean by decide) _ hc]

/-- The optional flag before the value: `TRUE` when critical, nothing otherwise. -/
theorem derReadCritical_encode (crit : Bool) (content : List UInt8) (hc : content.length < 2 ^ 64) :
    derReadCritical ⟨pos, (if crit then encodeBool true else []) ++ encodeOctetString content⟩ =
      .ok ⟨pos + (if crit then encodeBool true else []).length, encodeOctetString content⟩ crit := by
  cases crit
  · simpa using derReadCritical_absent pos [] content hc
  · simpa using derReadCritical_encodeBool pos (encodeOctetString content)

theorem X509Extension.fromDer_encode (e : X509Extension) (he : reg.AcceptsExtension e)
    (hlen : e.encode.length < 2 ^ 64) :
    X509Extension.fromDer reg ⟨pos, e.encode ++ rest⟩ = .ok ⟨pos + e.encode.length, rest⟩ e := by
  obtain ⟨o, crit, v, parsed⟩ := e
  have hc0 := (length_lt_length_encodeTLV _ _ _ _).trans hlen
  have hc := hc0
  have ho : o.asn1.length < (encodeOid o).length := length_lt_length_encodeTLV _ _ _ _
  have hv : v.length < (encodeOctetString v).length := length_lt_length_encodeTLV _ _ _ _
  simp only [List.length_append] at hc
  have hoct : ∀ p, parseDerOctetstring ⟨p, encodeOctetString v⟩ =
      .ok ⟨p + (encodeOctetString v).length, []⟩
        ⟨p + (encodeHeader .universal false BerTag.octetString v.length).length, v⟩ := fun p => by
    simpa using parseDerOctetstring_encodeOctetString p [] v (by omega)
  simp only [X509Extension.fromDer, X509Extension.encode, orError]
  rw [parseBerSequenceDefinedG_encodeSequence pos rest _ _ hc0]
  simp only [bind_apply, List.append_assoc, parseDerOid_encodeOid _ _ o (by omega), IResult.bind_ok,
    derReadCritical_encode _ crit v (by omega), hoct, parseExtension_accepts reg _ he, pure_apply]
  rfl

theorem X509Extension.encode_ne_nil (e : X509Extension) : e.encode ≠ [] :=
  List.ne_nil_of_length_pos (Nat.lt_of_le_of_lt (Nat.zero_le _) (length_lt_length_encodeTLV _ _ _ _))

theorem complete_fromDer_nil_extension (p : Nat) :
    complete (X509Extension.fromDer reg) ⟨p, []⟩ = .error .invalidExtensions := rfl

theorem parseExtensionSequence_encode (es : List X509Extension)
    (hes : ∀ e ∈ es, reg.AcceptsExtension e)
    (h : (encodeSequence (es.flatMap X509Extension.encode)).length < 2 ^ 64) :
    parseExtensionSequence reg ⟨pos, encodeSequence (es.flatMap X509Extension.encode) ++ rest⟩ =
      .ok ⟨pos + (encodeSequence (es.flatMap X509Extension.encode)).length, rest⟩ es := by
  have hc := (length_lt_length_encodeTLV _ _ _ _).trans h
  have hreads : ReadsBack (X509Extension.fromDer reg) X509Extension.encode id es :=
    fun e he => ⟨e.encode_ne_nil, fun p q => X509Extension.fromDer_encode reg p q e (hes e he)
      ((length_le_length_flatMap_of_mem _ he).trans_lt hc)⟩
  simpa using parseBerSequenceDefinedG_many0_flatMap pos rest _ _ _
    (fun p => ⟨_, complete_fromDer_nil_extension reg p⟩) es hreads.complete hc

theorem parseExtensions_nil (tag : UInt32) (p : Nat) :
    parseExtensions reg tag ⟨p, []⟩ = .ok ⟨p, []⟩ [] := rfl

theorem parseExtensions_encode (tag : UInt32) (es : List X509Extension)
    (hes : ∀ e ∈ es, reg.AcceptsExtension e) (h : (encodeExtensions tag (some es)).length < 2 ^ 64) :
    parseExtensions reg tag ⟨pos, encodeExtensions tag (some es) ++ rest⟩ =
      .ok ⟨pos + (encodeExtensions tag (some es)).length, rest⟩ (extensionMap es) := by
  have hc := (length_lt_length_encodeTLV _ _ _ _).trans h
  have hseq := parseExtensionSequence_encode reg
    (pos + (encodeHeader .contextSpecific true tag
      (encodeSequence (es.flatMap X509Extension.encode)).length).length) [] es hes hc
  simp only [List.append_nil] at hseq
  simp only [parseExtensions, encodeExtensions, berReadElementHeader_encodeTLV pos rest _ _ _ _ hc,
    if_true, orError]
  rw [parseBerContainer_encodeTLV pos rest _ _ _ _ _ hc]
  simp only [bind_apply, hseq, IResult.bind_ok]
  rfl

/-- An optional extension list, last in its structure, reads back into the map of the list: a
repeated OID keeps its last extension. -/
theorem parseExtensions_encodeExtensions (tag : UInt32) (ex : Option (List X509Extension))
    (hex : reg.ExtensionsAccepted ex) (h : (encodeExtensions tag ex).length < 2 ^ 64) :
    parseExtensions reg tag ⟨pos, encodeExtensions tag ex⟩ =
      .ok ⟨pos + (encodeExtensions tag ex).length, []⟩ (extensionMap (ex.getD [])) := by
  cases ex with
  | none => rfl
  | some es => simpa using parseExtensions_encode reg pos [] tag es (hex es rfl) h

/-- An extension whose OID has no registered decoder is read as `UnsupportedExtension`, its
critical flag kept and never checked. -/
theorem X509Extension.fromDer_unregistered (o : Oid) (hreg : reg.extensionParser o = none)
    (critical : Bool) (v : List UInt8)
    (h : (X509Extension.encode ⟨o, critical, v, .unsupportedExtension⟩).length < 2 ^ 64) :
    X509Extension.fromDer reg ⟨pos, X509Extension.encode ⟨o, critical, v, .unsupportedExtension⟩ ++ rest⟩ =
      .ok ⟨pos + (X509Extension.encode ⟨o, critical, v, .unsupportedExtension⟩).length, rest⟩
        ⟨o, critical, v, .unsupportedExtension⟩ :=
  X509Extension.fromDer_encode reg pos rest _ (by simp [Registry.AcceptsExtension, hreg]) h

/-- The critical extension 1.2.3 with value `00`, under a registry with no decoder. -/
theorem X509Extension.fromDer_unregistered_critical :
    X509Extension.fromDer ⟨fun _ => none, fun _ => none⟩
      ⟨0, X509Extension.encode ⟨⟨[0x2A, 0x03], rfl⟩, true, [0x00], .unsupportedExtension⟩ ++ []⟩ =
      .ok ⟨0 + (X509Extension.encode ⟨⟨[0x2A, 0x03], rfl⟩, true, [0x00], .unsupportedExtension⟩).length, []⟩
        ⟨⟨[0x2A, 0x03], rfl⟩, true, [0x00], .unsupportedExtension⟩ :=
  X509Extension.fromDer_unregistered _ 0 [] _ rfl true [0x00] (by decide)

end RoundTrip

end X509Parser
