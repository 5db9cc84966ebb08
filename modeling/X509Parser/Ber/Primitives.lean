import X509Parser.Ber.Header

/-!
# Containers and elementary types of the BER/DER codec

The external codec the decoders of `x509.rs` are built on, modelled from the spec's contract
for it (§4.1, §6): a container reads a header and hands exactly the declared content to its
field parser, dropping what the field parser leaves of it; the elementary readers check the
tag and the shape of the content. Indefinite lengths are refused.
-/

namespace X509Parser

set_option autoImplicit false

open Parser

/-- The content of an element of the given size; an indefinite length is refused. -/
def takeContent : BerSize → Parser Slice
  | .definite n => take n
  | .indefinite => fail (.der .invalidLength)

/-- The content of a container, taken with nom's complete `take`: short content is `Eof`. -/
def containerContent : BerSize → Parser Slice
  | .definite n => takeComplete n
  | .indefinite => fail (.der .invalidLength)

/-- `parse_ber_container`: the header, then `f` on exactly the declared content; whatever `f`
leaves of the content is dropped. -/
def parseBerContainer {α : Type} (f : BerObjectHeader → Parser α) : Parser α := do
  let hdr ← berReadElementHeader
  let data ← containerContent hdr.len
  within data (f hdr)

/-- `parse_ber_sequence_defined_g`. -/
def parseBerSequenceDefinedG {α : Type} (f : Parser α) : Parser α :=
  parseBerContainer fun hdr => if hdr.tag = BerTag.sequence then f else fail (.der .invalidTag)

/-- `parse_ber_set_defined_g`. -/
def parseBerSetDefinedG {α : Type} (f : Parser α) : Parser α :=
  parseBerContainer fun hdr => if hdr.tag = BerTag.set then f else fail (.der .invalidTag)

/-- `parse_ber_with_tag` up to the content octets: the header must carry `tag`. -/
def berContentWithTag (tag : UInt32) : Parser Slice := do
  let hdr ← berReadElementHeader
  if hdr.tag = tag then takeContent hdr.len else fail (.der .invalidTag)

/-- The content octets of an OBJECT IDENTIFIER are well formed: there is one, and the last
does not carry the continuation bit. -/
def oidContentValid (bs : List UInt8) : Bool :=
  match bs.getLast? with
  | some b => decide (b.toNat < 128)
  | none => false

/-- `der_parser::oid::Oid`, kept as its content octets. -/
structure Oid where
  asn1 : List UInt8
  valid : oidContentValid asn1 = true
  deriving DecidableEq

/-- `parse_der_oid` with `as_oid_val`. -/
def parseDerOid : Parser Oid := do
  let c ← berContentWithTag BerTag.oid
  if h : oidContentValid c.bytes = true then pure ⟨c.bytes, h⟩
  else fail (.der .invalidLength)

/-- `parse_ber_integer` with `as_slice`: the content octets of an INTEGER. -/
def parseBerInteger : Parser (List UInt8) := do
  let c ← berContentWithTag BerTag.integer
  pure c.bytes

/-- `parse_ber_u32`: an INTEGER whose value fits a `u32`. -/
def parseBerU32 : Parser UInt32 := do
  let c ← parseBerInteger
  if beValue c < 2 ^ 32 then pure (UInt32.ofNat (beValue c)) else fail (.der .integerTooLarge)

/-- `parse_ber_bool`: a BOOLEAN of one octet, true unless zero. -/
def parseBerBool : Parser Bool := do
  let c ← berContentWithTag BerTag.boolean
  match c.bytes with
  | [b] => pure (b != 0)
  | _ => fail (.der .invalidLength)

/-- `parse_der_octetstring` with `as_slice`: the content, as a slice of the input. -/
def parseDerOctetstring : Parser Slice := berContentWithTag BerTag.octetString

/-- `BitStringObject`: the octets of a BIT STRING after its unused-bits count. -/
structure BitStringObject where
  data : List UInt8
  deriving DecidableEq, Repr

/-- The content of a BIT STRING: the count of unused bits (at most seven), then the bits. -/
def readBitStringContent : Parser (UInt8 × BitStringObject) := fun i =>
  match i.bytes with
  | [] => .error (.der .invalidLength)
  | u :: d => if u.toNat ≤ 7 then .ok (i.drop i.len) (u, ⟨d⟩) else .error (.der .berValueError)

/-- `parse_der_bitstring`. -/
def parseDerBitstring : Parser (UInt8 × BitStringObject) := do
  let c ← berContentWithTag BerTag.bitString
  within c readBitStringContent

/-- `DerObject` as an ANY value: the fields of its header and its content octets. -/
structure DerObject where
  berClass : BerClass
  structured : Bool
  tag : UInt32
  content : List UInt8
  deriving DecidableEq, Repr

/-- `parse_der`: any one element of definite length. -/
def parseDer : Parser DerObject := do
  let hdr ← berReadElementHeader
  let c ← takeContent hdr.len
  pure ⟨hdr.berClass, hdr.structured, hdr.tag, c.bytes⟩

/-- `parse_ber_tagged_implicit(tag, parse_ber_content(BerTag::BitString))`: a non-universal
element numbered `tag` whose content is read as a BIT STRING's. -/
def parseBerTaggedImplicitBitString (tag : UInt32) : Parser (UInt8 × BitStringObject) :=
  parseBerContainer fun hdr =>
    if hdr.berClass = .universal then fail (.der .invalidClass)
    else if hdr.tag = tag then readBitStringContent
    else fail (.der .invalidTag)

/-- `parse_ber_optional`: any error gives `None` with nothing consumed. -/
def parseBerOptional {α : Type} (p : Parser α) : Parser (Option α) := fun i =>
  match p i with
  | .ok r a => .ok r (some a)
  | .panic => .panic
  | _ => .ok i none

/-! ## What a container does -/

section Container

variable {α : Type} {i r : Slice}

/-- A container that succeeds has read a header of definite length, run its field parser on
exactly the declared content, and resumed right after the element. -/
theorem parseBerContainer_inv {f : BerObjectHeader → Parser α} {v : α}
    (h : parseBerContainer f i = .ok r v) :
    ∃ hdr n len r', readHeader i.bytes = .ok hdr n ∧ hdr.len = .definite len ∧ n + len ≤ i.len ∧
      r = i.drop (n + len) ∧ f hdr ((i.drop n).take len) = .ok r' v := by
  simp only [parseBerContainer, bind_apply, IResult.bind_eq_ok, berReadElementHeader_eq_ok] at h
  obtain ⟨j, hdr, ⟨n, hh, rfl⟩, k, data, ht, hw⟩ := h
  have hn := (readHeader_take hh).1
  cases hl : hdr.len with
  | indefinite => simp [containerContent, hl] at ht
  | definite len =>
    rw [hl, containerContent, takeComplete_eq_ok, Slice.len_drop] at ht
    obtain ⟨hlen, rfl, rfl⟩ := ht
    obtain ⟨rfl, r', hf⟩ := within_eq_ok.mp hw
    exact ⟨hdr, n, len, r', hh, hl, by simp only [Slice.len] at hn hlen ⊢; omega, by rw [Slice.drop_drop], hf⟩

/-- A container consumes at least its header, which is at least two octets long. -/
theorem parseBerContainer_consumes (f : BerObjectHeader → Parser α) : (parseBerContainer f).Consumes 2 :=
  fun i r v h => by
    obtain ⟨hdr, n, len, r', hh, -, hle, rfl, -⟩ := parseBerContainer_inv h
    have := readHeader_two_le hh
    simp only [Slice.len_drop]
    omega

theorem Parser.Advances.berReadElementHeader' : berReadElementHeader.Advances := fun i _ _ h => by
  obtain ⟨n, hh, rfl⟩ := berReadElementHeader_eq_ok.mp h
  exact ⟨n, (readHeader_take hh).1, rfl⟩

theorem Parser.Advances.takeContent' (l : BerSize) : (takeContent l).Advances := by
  cases l with
  | definite n => exact Advances.take' n
  | indefinite => exact Advances.fail' _

theorem Parser.Advances.containerContent' (l : BerSize) : (containerContent l).Advances := by
  cases l with
  | definite n => exact Advances.takeComplete' n
  | indefinite => exact Advances.fail' _

theorem Parser.Advances.parseBerContainer' (f : BerObjectHeader → Parser α) :
    (parseBerContainer f).Advances :=
  Advances.bind' Advances.berReadElementHeader' fun hdr =>
    Advances.bind' (Advances.containerContent' hdr.len) fun data => Advances.within' data _

theorem Parser.Advances.berContentWithTag' (tag : UInt32) : (berContentWithTag tag).Advances :=
  Advances.bind' Advances.berReadElementHeader' fun _ =>
    Advances.ite' (Advances.takeContent' _) (Advances.fail' _)

theorem Parser.Advances.parseDerOid' : parseDerOid.Advances :=
  Advances.bind' (Advances.berContentWithTag' _) fun _ => by
    split
    · exact Advances.pure' _
    · exact Advances.fail' _

theorem Parser.Advances.parseBerInteger' : parseBerInteger.Advances :=
  Advances.bind' (Advances.berContentWithTag' _) fun _ => Advances.pure' _

theorem Parser.Advances.parseBerU32' : parseBerU32.Advances :=
  Advances.bind' Advances.parseBerInteger' fun _ => Advances.ite' (Advances.pure' _) (Advances.fail' _)

theorem Parser.Advances.parseBerBool' : parseBerBool.Advances :=
  Advances.bind' (Advances.berContentWithTag' _) fun _ => by
    split
    · exact Advances.pure' _
    · exact Advances.fail' _

theorem Parser.Advances.parseDerBitstring' : parseDerBitstring.Advances :=
  Advances.bind' (Advances.berContentWithTag' _) fun c => Advances.within' c _

theorem Parser.Advances.parseDer' : parseDer.Advances :=
  Advances.bind' Advances.berReadElementHeader' fun _ =>
    Advances.bind' (Advances.takeContent' _) fun _ => Advances.pure' _

theorem Parser.Advances.parseBerOptional' {p : Parser α} (hp : p.Advances) :
    (parseBerOptional p).Advances := fun i r a h => by
  unfold parseBerOptional at h
  split at h
  · next r' a' hpa => cases h; exact hp i r a' hpa
  · cases h
  · cases h; exact ⟨0, Nat.zero_le _, Advances.drop_zero i⟩

/-- What a container consumes is one whole element. -/
theorem parseBerContainer_element {f : BerObjectHeader → Parser α} {v : α}
    (h : parseBerContainer f i = .ok r v) : ∃ t, i.bytes = t ++ r.bytes ∧ IsElement t := by
  obtain ⟨hdr, n, len, r', hh, hl, hle, rfl, -⟩ := parseBerContainer_inv h
  exact ⟨i.bytes.take (n + len), by simp [Slice.drop], isElement_take hh hl hle⟩

/-- On a proper prefix of a whole element, a container fails before its field parser runs:
the header is cut, or the content is shorter than declared. -/
theorem parseBerContainer_truncated (f : BerObjectHeader → Parser α) {t q : List UInt8}
    (ht : IsElement t) (hq : q <+: t) (hne : q ≠ t) (pos : Nat) :
    (parseBerContainer f ⟨pos, q⟩).IsErr := by
  have hlt : q.length < t.length := lt_of_le_of_ne hq.length_le fun h => hne (hq.eq_of_length h)
  unfold IsElement at ht
  split at ht
  · next hdr n hh =>
    obtain ⟨hn, hl⟩ := ht
    by_cases hqn : q.length < n
    · cases hr : readHeader q with
      | ok h' n' => exact absurd hr (readHeader_prefix_ne_ok hh hq hqn h' n')
      | incomplete => left; simp [parseBerContainer, berReadElementHeader, hr]
      | invalid e => right; exact ⟨.der e, by simp [parseBerContainer, berReadElementHeader, hr]⟩
    · obtain ⟨s, rfl⟩ := hq
      have hq' : readHeader q = .ok hdr n := by
        have := (readHeader_take hh).2 (q.drop n)
        rwa [List.take_append_of_le_length (by omega), List.take_append_drop] at this
      right
      simp only [List.length_append] at hl hlt
      refine ⟨.nomError .eof, ?_⟩
      simp only [parseBerContainer, bind_apply, berReadElementHeader, hq', IResult.bind_ok, hl,
        containerContent, takeComplete, Slice.len_drop, Slice.len_mk]
      rw [if_neg (by omega)]
      rfl
  · exact ht.elim

/-- A decoder frames one element: what it consumes is one whole element, and it fails on every
proper prefix of that element. -/
def FramesOneElement {β : Type} (p : Parser β) : Prop :=
  ∀ i r x, p i = .ok r x → ∃ t, i.bytes = t ++ r.bytes ∧ IsElement t ∧
    ∀ q, q <+: t → q ≠ t → ∀ pos, (p ⟨pos, q⟩).IsErr

theorem parseBerContainer_frames (f : BerObjectHeader → Parser α) :
    FramesOneElement (parseBerContainer f) := fun _ _ _ h => by
  obtain ⟨t, hi, ht⟩ := parseBerContainer_element h
  exact ⟨t, hi, ht, fun q hq hne pos => parseBerContainer_truncated f ht hq hne pos⟩

/-- Where the raw span an assembler cuts inside a SEQUENCE ends: the element consumed is that
span followed by what the fields left of its content. -/
theorem parseBerSequenceDefinedG_raw_ends {γ : Type} {raw : γ → List UInt8} {g : Parser γ} {x : γ}
    (hg : RawUpTo raw i g) (h : parseBerSequenceDefinedG g i = .ok r x) :
    ∃ hdr n len left, readHeader i.bytes = .ok hdr n ∧ hdr.len = .definite len ∧ n + len ≤ i.len ∧
      r = i.drop (n + len) ∧ g ((i.drop n).take len) = .ok left x ∧
      raw x ++ left.bytes = i.bytes.take (n + len) := by
  obtain ⟨hdr, n, len, r', hh, hl, hle, rfl, hf⟩ := parseBerContainer_inv h
  split at hf
  · obtain ⟨k, hk, rfl, hx⟩ := hg _ _ _ hf
    refine ⟨hdr, n, len, _, hh, hl, hle, rfl, hf, ?_⟩
    simp only [Slice.drop, Slice.take, Slice.len, List.length_take, List.length_drop, le_inf_iff] at hk hx ⊢
    rw [hx, Nat.add_assoc, Nat.add_sub_cancel_left, List.take_add, List.take_add _ n len, List.append_assoc,
      List.append_cancel_left_eq]
    conv_rhs => rw [← List.take_append_drop k (List.take len _), List.take_take, Nat.min_eq_left hk.1]
  · cases hf

/-- The raw span an assembler cuts inside a SEQUENCE is a prefix of the element consumed. -/
theorem parseBerSequenceDefinedG_raw {γ : Type} {raw : γ → List UInt8} {g : Parser γ} {x : γ}
    (hg : RawUpTo raw i g) (h : parseBerSequenceDefinedG g i = .ok r x) :
    ∃ t, i.bytes = t ++ r.bytes ∧ IsElement t ∧ raw x <+: t := by
  obtain ⟨hdr, n, len, left, hh, hl, hle, rfl, -, hx⟩ := parseBerSequenceDefinedG_raw_ends hg h
  refine ⟨i.bytes.take (n + len), by simp [Slice.drop], isElement_take hh hl hle, ?_⟩
  exact hx ▸ List.prefix_append _ _

/-- A container whose header is read, of a definite length that fits: its field parser on the
content, resumed right after the element. -/
theorem parseBerContainer_eq {f : BerObjectHeader → Parser α} {hdr : BerObjectHeader} {n len : Nat}
    (hh : readHeader i.bytes = .ok hdr n) (hl : hdr.len = .definite len) (hle : n + len ≤ i.len) :
    parseBerContainer f i = (f hdr ((i.drop n).take len)).bind fun a _ => .ok (i.drop (n + len)) a := by
  simp only [parseBerContainer, bind_apply, berReadElementHeader, hh, IResult.bind_ok, hl,
    containerContent, takeComplete, Slice.len_drop, within]
  rw [if_pos (by omega), IResult.bind_ok, Slice.drop_drop]
  rfl

/-- On a whole element followed by more octets, a container returns what it returns on the
element alone, those octets following its remainder: its field parser sees the same content,
so every outcome, `Incomplete` included, is already fixed by the element. -/
theorem parseBerContainer_append_element (f : BerObjectHeader → Parser α) {e : List UInt8}
    (he : IsElement e) (pos : Nat) (t : List UInt8) :
    parseBerContainer f ⟨pos, e ++ t⟩ = (parseBerContainer f ⟨pos, e⟩).appendRest t := by
  unfold IsElement at he
  split at he
  · next hdr n hh =>
    obtain ⟨hn, hl⟩ := he
    have hh' : readHeader (e ++ t) = .ok hdr n := by
      have := (readHeader_take hh).2 (e.drop n ++ t)
      rwa [← List.append_assoc, List.take_append_drop] at this
    have hdata : ((Slice.mk pos (e ++ t)).drop n).take (e.length - n) =
        ((Slice.mk pos e).drop n).take (e.length - n) := by
      simp only [Slice.drop_mk, Slice.take_mk, List.drop_append_of_le_length hn,
        List.take_append_of_le_length (by simp : e.length - n ≤ (e.drop n).length)]
    rw [parseBerContainer_eq hh' hl (by simp; omega), parseBerContainer_eq hh hl (by simp; omega),
      hdata]
    cases f hdr ((Slice.mk pos e |>.drop n).take (e.length - n)) <;>
      simp [IResult.appendRest, Nat.add_sub_cancel' hn]
  · exact he.elim

/-- More octets after an element change nothing of what a container reads from it, when its
field parser reads the same from the content. -/
theorem parseBerContainer_append_of {f f' : BerObjectHeader → Parser α} {pos : Nat} {bs : List UInt8}
    {v : α} (hf' : ∀ hdr d r' (w : α), d.Inside ⟨pos, bs⟩ → f hdr d = .ok r' w → f' hdr d = .ok r' w)
    (h : parseBerContainer f ⟨pos, bs⟩ = .ok r v) (t : List UInt8) :
    parseBerContainer f' ⟨pos, bs ++ t⟩ = .ok ⟨r.pos, r.bytes ++ t⟩ v := by
  obtain ⟨hdr, n, len, r', hh, hl, hle, rfl, hf⟩ := parseBerContainer_inv h
  simp only [Slice.len_mk] at hle
  have hh' : readHeader (bs ++ t) = .ok hdr n := by
    have := (readHeader_take hh).2 (bs.drop n ++ t)
    rwa [← List.append_assoc, List.take_append_drop] at this
  have hdata : ((Slice.mk pos (bs ++ t)).drop n).take len = ((Slice.mk pos bs).drop n).take len := by
    simp only [Slice.drop_mk, Slice.take_mk, List.drop_append_of_le_length (by omega : n ≤ bs.length),
      List.take_append_of_le_length (by simp; omega : len ≤ (bs.drop n).length)]
  rw [parseBerContainer_eq (i := ⟨pos, bs ++ t⟩) hh' hl (by simp; omega), hdata,
    hf' hdr _ r' v (Slice.inside_drop_take (by simpa using hle)) hf, IResult.bind_ok]
  simp [List.drop_append_of_le_length (by omega : n + len ≤ bs.length)]

/-- More octets after an element change nothing of what a container reads from it. -/
theorem Parser.AppendStable.parseBerContainer' (f : BerObjectHeader → Parser α) :
    (parseBerContainer f).AppendStable := fun _ _ t _ _ h =>
  parseBerContainer_append_of (fun _ _ _ _ _ h => h) h t

/-- The same for an assembler whose raw span is cut from the start of its element. -/
theorem Parser.AppendStable.assembler {γ : Type} {g : Slice → Parser γ} (hg : CutStable g) :
    AppendStable fun s => parseBerSequenceDefinedG (g s) s := fun pos bs t _ _ h =>
  parseBerContainer_append_of (fun hdr d r' w hd hf => by
    split at hf
    · rw [if_pos ‹_›]; exact hg pos bs t d r' w hd hf
    · cases hf) h t

end Container

/-! ## Panics and values of the elementary readers -/

section Safety

variable {α : Type}

theorem Parser.NeverPanics.berReadElementHeader' : berReadElementHeader.NeverPanics := fun i => by
  unfold berReadElementHeader
  split <;> exact nofun

theorem Parser.NeverPanics.takeContent' (l : BerSize) : (takeContent l).NeverPanics := by
  cases l with
  | definite n => exact NeverPanics.take' n
  | indefinite => exact NeverPanics.fail' _

theorem Parser.NeverPanics.containerContent' (l : BerSize) : (containerContent l).NeverPanics := by
  cases l with
  | definite n => exact NeverPanics.takeComplete' n
  | indefinite => exact NeverPanics.fail' _

theorem Parser.NeverPanics.parseBerContainer' {f : BerObjectHeader → Parser α}
    (hf : ∀ hdr, (f hdr).NeverPanics) : (parseBerContainer f).NeverPanics :=
  NeverPanics.bind' NeverPanics.berReadElementHeader' fun hdr =>
    NeverPanics.bind' (NeverPanics.containerContent' hdr.len) fun data => NeverPanics.within' data (hf hdr)

theorem Parser.NeverPanics.parseBerSequenceDefinedG' {f : Parser α} (hf : f.NeverPanics) :
    (parseBerSequenceDefinedG f).NeverPanics :=
  NeverPanics.parseBerContainer' fun _ => NeverPanics.ite' hf (NeverPanics.fail' _)

theorem Parser.NeverPanics.parseBerSetDefinedG' {f : Parser α} (hf : f.NeverPanics) :
    (parseBerSetDefinedG f).NeverPanics :=
  NeverPanics.parseBerContainer' fun _ => NeverPanics.ite' hf (NeverPanics.fail' _)

/-- A container panics exactly where its field parser panics on the content of a header it read. -/
theorem parseBerContainer_eq_panic {f : BerObjectHeader → Parser α} {i : Slice} :
    parseBerContainer f i = .panic ↔ ∃ hdr n len, readHeader i.bytes = .ok hdr n ∧
      hdr.len = .definite len ∧ n + len ≤ i.len ∧ f hdr ((i.drop n).take len) = .panic := by
  constructor
  · intro h
    simp only [parseBerContainer, bind_apply] at h
    rcases IResult.bind_eq_panic.mp h with h | ⟨j, hdr, hh, h⟩
    · exact absurd h (NeverPanics.berReadElementHeader' i)
    obtain ⟨n, hrd, rfl⟩ := berReadElementHeader_eq_ok.mp hh
    rcases IResult.bind_eq_panic.mp h with h | ⟨j, data, ht, h⟩
    · exact absurd h (NeverPanics.containerContent' _ _)
    cases hl : hdr.len with
    | indefinite => simp [hl, containerContent] at ht
    | definite len =>
      rw [hl, containerContent, takeComplete_eq_ok, Slice.len_drop] at ht
      obtain ⟨hlen, rfl, rfl⟩ := ht
      rcases IResult.bind_eq_panic.mp h with h | ⟨_, _, -, h⟩
      · have := (readHeader_take hrd).1
        exact ⟨hdr, n, len, hrd, hl, by simp only [Slice.len_drop, Slice.len] at hlen this ⊢; omega, h⟩
      · cases h
  · rintro ⟨hdr, n, len, hh, hl, hle, hf⟩
    rw [parseBerContainer_eq hh hl hle, hf, IResult.bind_panic]

/-- An assembler that cuts its raw span from the start of its element never panics when its
field closure never panics inside that element. -/
theorem Parser.NeverPanics.assembler {γ : Type} {g : Slice → Parser γ}
    (hg : ∀ s, PanicFreeOn (·.Inside s) (g s)) :
    NeverPanics fun s => parseBerSequenceDefinedG (g s) s := fun s h => by
  obtain ⟨hdr, n, len, -, -, hle, hf⟩ := parseBerContainer_eq_panic.mp h
  split at hf
  · exact hg s _ (Slice.inside_drop_take hle) hf
  · cases hf

theorem Parser.NeverPanics.berContentWithTag' (tag : UInt32) : (berContentWithTag tag).NeverPanics :=
  NeverPanics.bind' NeverPanics.berReadElementHeader' fun _ =>
    NeverPanics.ite' (NeverPanics.takeContent' _) (NeverPanics.fail' _)

theorem Parser.NeverPanics.parseDerOid' : parseDerOid.NeverPanics :=
  NeverPanics.bind' (NeverPanics.berContentWithTag' _) fun _ => by
    split
    · exact NeverPanics.pure' _
    · exact NeverPanics.fail' _

theorem Parser.NeverPanics.parseBerInteger' : parseBerInteger.NeverPanics :=
  NeverPanics.bind' (NeverPanics.berContentWithTag' _) fun _ => NeverPanics.pure' _

theorem Parser.NeverPanics.parseBerU32' : parseBerU32.NeverPanics :=
  NeverPanics.bind' NeverPanics.parseBerInteger' fun _ =>
    NeverPanics.ite' (NeverPanics.pure' _) (NeverPanics.fail' _)

theorem Parser.NeverPanics.parseBerBool' : parseBerBool.NeverPanics :=
  NeverPanics.bind' (NeverPanics.berContentWithTag' _) fun _ => by
    split
    · exact NeverPanics.pure' _
    · exact NeverPanics.fail' _

theorem Parser.NeverPanics.readBitStringContent' : readBitStringContent.NeverPanics := fun i => by
  unfold readBitStringContent
  split
  · exact nofun
  · split <;> exact nofun

theorem Parser.NeverPanics.parseDerBitstring' : parseDerBitstring.NeverPanics :=
  NeverPanics.bind' (NeverPanics.berContentWithTag' _) fun c =>
    NeverPanics.within' c NeverPanics.readBitStringContent'

theorem Parser.NeverPanics.parseDer' : parseDer.NeverPanics :=
  NeverPanics.bind' NeverPanics.berReadElementHeader' fun _ =>
    NeverPanics.bind' (NeverPanics.takeContent' _) fun _ => NeverPanics.pure' _

theorem Parser.NeverPanics.parseBerTaggedImplicitBitString' (tag : UInt32) :
    (parseBerTaggedImplicitBitString tag).NeverPanics :=
  NeverPanics.parseBerContainer' fun _ => NeverPanics.ite' (NeverPanics.fail' _)
    (NeverPanics.ite' NeverPanics.readBitStringContent' (NeverPanics.fail' _))

theorem Parser.NeverPanics.parseBerOptional' {p : Parser α} (hp : p.NeverPanics) :
    (parseBerOptional p).NeverPanics := fun i => by
  unfold parseBerOptional
  split
  · exact nofun
  · exact absurd ‹_› (hp i)
  · exact nofun

theorem Parser.Yields.parseBerContainer' {P : α → Prop} {f : BerObjectHeader → Parser α}
    (hf : ∀ hdr, Yields P (f hdr)) : Yields P (parseBerContainer f) := fun _ _ _ h => by
  obtain ⟨hdr, n, len, r', -, -, -, -, hv⟩ := parseBerContainer_inv h
  exact hf hdr _ _ _ hv

theorem Parser.Yields.parseBerSequenceDefinedG' {P : α → Prop} {f : Parser α} (hf : Yields P f) :
    Yields P (parseBerSequenceDefinedG f) :=
  Yields.parseBerContainer' fun _ => Yields.ite' hf (Yields.fail' _)

theorem Parser.Yields.parseBerSetDefinedG' {P : α → Prop} {f : Parser α} (hf : Yields P f) :
    Yields P (parseBerSetDefinedG f) :=
  Yields.parseBerContainer' fun _ => Yields.ite' hf (Yields.fail' _)

end Safety

/-! ## DER encodings -/

def encodeSequence (content : List UInt8) : List UInt8 :=
  encodeTLV .universal true BerTag.sequence content

def encodeSet (content : List UInt8) : List UInt8 :=
  encodeTLV .universal true BerTag.set content

def encodeOid (o : Oid) : List UInt8 := encodeTLV .universal false BerTag.oid o.asn1

def encodeInteger (content : List UInt8) : List UInt8 :=
  encodeTLV .universal false BerTag.integer content

/-- The content octets of the DER INTEGER `v ≥ 0`: its fewest two's-complement octets. -/
def integerContent (v : Nat) : List UInt8 :=
  (digitsBE 256 (digitCount 256 (2 * v)) v).map UInt8.ofNat

def encodeBool (b : Bool) : List UInt8 :=
  encodeTLV .universal false BerTag.boolean [if b then 0xFF else 0]

def encodeOctetString (content : List UInt8) : List UInt8 :=
  encodeTLV .universal false BerTag.octetString content

/-- A BIT STRING with `unused` unused bits in its last octet. -/
def encodeBitString (unused : Fin 8) (b : BitStringObject) : List UInt8 :=
  encodeTLV .universal false BerTag.bitString (UInt8.ofNat unused :: b.data)

def encodeDerObject (o : DerObject) : List UInt8 :=
  encodeTLV o.berClass o.structured o.tag o.content

/-! ## Each element reads back from its encoding -/

section RoundTrip

variable (pos : Nat) (rest : List UInt8)

@[simp] theorem length_encodeTLV (c : BerClass) (st : Bool) (t : UInt32) (content : List UInt8) :
    (encodeTLV c st t content).length = (encodeHeader c st t content.length).length + content.length := by
  simp [encodeTLV]

theorem length_lt_length_encodeTLV (c : BerClass) (st : Bool) (t : UInt32)
    (content : List UInt8) : content.length < (encodeTLV c st t content).length := by
  have : 0 < (encodeIdentifier c st t).length := by
    simp only [encodeIdentifier]; split <;> simp
  simp [encodeHeader]; omega

theorem parseBerContainer_nil {α : Type} (f : BerObjectHeader → Parser α) :
    parseBerContainer f ⟨pos, []⟩ = .incomplete := rfl

theorem take_length_append (content : List UInt8) :
    take content.length ⟨pos, content ++ rest⟩ = .ok ⟨pos + content.length, rest⟩ ⟨pos, content⟩ := by
  simp [take, Slice.drop, Slice.take]

theorem takeComplete_length_append (content : List UInt8) :
    takeComplete content.length ⟨pos, content ++ rest⟩ =
      .ok ⟨pos + content.length, rest⟩ ⟨pos, content⟩ := by
  simp [takeComplete, Slice.drop, Slice.take]

theorem berReadElementHeader_encodeTLV (c : BerClass) (st : Bool) (t : UInt32)
    (content : List UInt8) (hc : content.length < 2 ^ 64) :
    berReadElementHeader ⟨pos, encodeTLV c st t content ++ rest⟩ =
      .ok ⟨pos + (encodeHeader c st t content.length).length, content ++ rest⟩
        ⟨c, st, t, .definite content.length⟩ := by
  rw [encodeTLV, List.append_assoc, berReadElementHeader_encodeHeader c st t _ hc]

/-- A container at an encoded element runs its field parser on exactly the content, and resumes
after the element on success. -/
theorem parseBerContainer_encodeTLV_eq {α : Type} (f : BerObjectHeader → Parser α) (c : BerClass)
    (st : Bool) (t : UInt32) (content : List UInt8) (hc : content.length < 2 ^ 64) :
    parseBerContainer f ⟨pos, encodeTLV c st t content ++ rest⟩ =
      (f ⟨c, st, t, .definite content.length⟩
        ⟨pos + (encodeHeader c st t content.length).length, content⟩).bind fun v _ =>
          .ok ⟨pos + (encodeTLV c st t content).length, rest⟩ v := by
  simp only [parseBerContainer, bind_apply, berReadElementHeader_encodeTLV pos rest c st t content hc,
    IResult.bind_ok, containerContent, takeComplete_length_append, within, length_encodeTLV, Nat.add_assoc]

theorem parseBerContainer_encodeTLV {α : Type} (f : BerObjectHeader → Parser α) (c : BerClass)
    (st : Bool) (t : UInt32) (content : List UInt8) (hc : content.length < 2 ^ 64) {r : Slice}
    {v : α} (hf : f ⟨c, st, t, .definite content.length⟩
      ⟨pos + (encodeHeader c st t content.length).length, content⟩ = .ok r v) :
    parseBerContainer f ⟨pos, encodeTLV c st t content ++ rest⟩ =
      .ok ⟨pos + (encodeTLV c st t content).length, rest⟩ v := by
  rw [parseBerContainer_encodeTLV_eq pos rest f c st t content hc, hf, IResult.bind_ok]

theorem parseBerSequenceDefinedG_encodeSequence {α : Type} (f : Parser α) (content : List UInt8)
    (hc : content.length < 2 ^ 64) {r : Slice} {v : α}
    (hf : f ⟨pos + (encodeHeader .universal true BerTag.sequence content.length).length, content⟩ =
      .ok r v) :
    parseBerSequenceDefinedG f ⟨pos, encodeSequence content ++ rest⟩ =
      .ok ⟨pos + (encodeSequence content).length, rest⟩ v :=
  parseBerContainer_encodeTLV pos rest _ _ _ _ content hc (by simpa using hf)

/-- A SEQUENCE OF elements that each read back, every element of the content required. -/
theorem parseBerSequenceDefinedG_many0_flatMap {β γ : Type} (p : Parser γ) (enc : β → List UInt8)
    (dec : β → γ) (hstop : ∀ pos, ∃ e, p ⟨pos, []⟩ = .error e) (xs : List β)
    (hr : ReadsBack p enc dec xs) (hc : (xs.flatMap enc).length < 2 ^ 64) :
    parseBerSequenceDefinedG (allConsuming (many0 p)) ⟨pos, encodeSequence (xs.flatMap enc) ++ rest⟩ =
      .ok ⟨pos + (encodeSequence (xs.flatMap enc)).length, rest⟩ (xs.map dec) := by
  have hm := many0_flatMap p enc dec [] hstop xs hr
  simp only [List.append_nil] at hm
  apply parseBerSequenceDefinedG_encodeSequence pos rest _ _ hc
  simp only [allConsuming, hm, Slice.len_mk, List.length_nil, if_true]
  rfl

theorem parseBerSequenceDefinedG_other {α : Type} (f : Parser α) (c : BerClass) (st : Bool) {t : UInt32}
    (ht : t ≠ BerTag.sequence) (content : List UInt8) (hc : content.length < 2 ^ 64) :
    parseBerSequenceDefinedG f ⟨pos, encodeTLV c st t content ++ rest⟩ = .error (.der .invalidTag) := by
  simp [parseBerSequenceDefinedG, parseBerContainer, berReadElementHeader_encodeTLV pos rest c st t content hc,
    containerContent, takeComplete_length_append, within, ht]

theorem parseBerSetDefinedG_encodeSet {α : Type} (f : Parser α) (content : List UInt8)
    (hc : content.length < 2 ^ 64) {r : Slice} {v : α}
    (hf : f ⟨pos + (encodeHeader .universal true BerTag.set content.length).length, content⟩ =
      .ok r v) :
    parseBerSetDefinedG f ⟨pos, encodeSet content ++ rest⟩ =
      .ok ⟨pos + (encodeSet content).length, rest⟩ v :=
  parseBerContainer_encodeTLV pos rest _ _ _ _ content hc (by simpa using hf)

theorem berContentWithTag_encodeTLV (c : BerClass) (st : Bool) (t : UInt32)
    (content : List UInt8) (hc : content.length < 2 ^ 64) :
    berContentWithTag t ⟨pos, encodeTLV c st t content ++ rest⟩ =
      .ok ⟨pos + (encodeTLV c st t content).length, rest⟩
        ⟨pos + (encodeHeader c st t content.length).length, content⟩ := by
  simp only [berContentWithTag, bind_apply, berReadElementHeader_encodeTLV pos rest c st t content hc,
    IResult.bind_ok, if_true, takeContent, take_length_append, length_encodeTLV, Nat.add_assoc]

theorem berContentWithTag_other (c : BerClass) (st : Bool) {t t' : UInt32} (ht : t' ≠ t)
    (content : List UInt8) (hc : content.length < 2 ^ 64) :
    berContentWithTag t ⟨pos, encodeTLV c st t' content ++ rest⟩ = .error (.der .invalidTag) := by
  simp [berContentWithTag, berReadElementHeader_encodeTLV pos rest c st t' content hc, ht]

theorem parseDerOid_encodeOid (o : Oid) (ho : o.asn1.length < 2 ^ 64) :
    parseDerOid ⟨pos, encodeOid o ++ rest⟩ = .ok ⟨pos + (encodeOid o).length, rest⟩ o := by
  simp [parseDerOid, encodeOid, berContentWithTag_encodeTLV pos rest _ _ _ _ ho, o.valid]

theorem parseBerInteger_encodeInteger (content : List UInt8) (hc : content.length < 2 ^ 64) :
    parseBerInteger ⟨pos, encodeInteger content ++ rest⟩ =
      .ok ⟨pos + (encodeInteger content).length, rest⟩ content := by
  simp [parseBerInteger, encodeInteger, berContentWithTag_encodeTLV pos rest _ _ _ _ hc]

theorem length_integerContent_le (v : Nat) (hv : v < 2 ^ 32) : (integerContent v).length ≤ 5 := by
  simp only [integerContent, List.length_map, length_digitsBE]
  exact digitCount_le (by decide) (by omega)

theorem beValue_integerContent (v : Nat) : beValue (integerContent v) = v := by
  rw [integerContent, beValue_digitsBE, Nat.mod_eq_of_lt]
  exact Nat.lt_of_le_of_lt (by omega) (lt_pow_digitCount (by decide) (2 * v))

/-- An INTEGER whose content octets, read unsigned, are below 2^32 is read as that number. -/
theorem parseBerU32_encodeInteger_of_lt (content : List UInt8) (hc : content.length < 2 ^ 64)
    (hv : beValue content < 2 ^ 32) :
    parseBerU32 ⟨pos, encodeInteger content ++ rest⟩ =
      .ok ⟨pos + (encodeInteger content).length, rest⟩ (UInt32.ofNat (beValue content)) := by
  simp only [parseBerU32, bind_apply, parseBerInteger_encodeInteger pos rest content hc,
    IResult.bind_ok, if_pos hv, pure_apply]

theorem parseBerU32_encodeInteger (v : UInt32) :
    parseBerU32 ⟨pos, encodeInteger (integerContent v.toNat) ++ rest⟩ =
      .ok ⟨pos + (encodeInteger (integerContent v.toNat)).length, rest⟩ v := by
  have hv : v.toNat < 2 ^ 32 := v.toNat_lt_size
  have hlen := length_integerContent_le v.toNat hv
  rw [parseBerU32_encodeInteger_of_lt pos rest _ (by omega) (by rwa [beValue_integerContent]),
    beValue_integerContent, UInt32.ofNat_toNat']

theorem parseBerBool_encodeBool (b : Bool) :
    parseBerBool ⟨pos, encodeBool b ++ rest⟩ = .ok ⟨pos + (encodeBool b).length, rest⟩ b := by
  cases b <;> simp [parseBerBool, encodeBool, berContentWithTag_encodeTLV pos rest _ _ _ _]

theorem parseDerOctetstring_encodeOctetString (content : List UInt8)
    (hc : content.length < 2 ^ 64) :
    parseDerOctetstring ⟨pos, encodeOctetString content ++ rest⟩ =
      .ok ⟨pos + (encodeOctetString content).length, rest⟩
        ⟨pos + (encodeHeader .universal false BerTag.octetString content.length).length, content⟩ :=
  berContentWithTag_encodeTLV pos rest _ _ _ _ hc

theorem readBitStringContent_unused (pos' : Nat) (u : Fin 8) (b : BitStringObject) :
    readBitStringContent ⟨pos', UInt8.ofNat u :: b.data⟩ =
      .ok ⟨pos' + (b.data.length + 1), []⟩ (UInt8.ofNat u, b) := by
  have hu : (UInt8.ofNat u).toNat ≤ 7 := by
    have := u.isLt
    simp [UInt8.toNat, UInt8.ofNat, Fin.ofNat]
    omega
  simp [readBitStringContent, hu, Slice.drop, Slice.len]

/-- A BIT STRING reads back with its unused-bits count, whatever the count. -/
theorem parseDerBitstring_encodeBitString (u : Fin 8) (b : BitStringObject)
    (hb : b.data.length + 1 < 2 ^ 64) :
    parseDerBitstring ⟨pos, encodeBitString u b ++ rest⟩ =
      .ok ⟨pos + (encodeBitString u b).length, rest⟩ (UInt8.ofNat u, b) := by
  simp [parseDerBitstring, encodeBitString,
    berContentWithTag_encodeTLV pos rest _ _ _ (UInt8.ofNat u :: b.data) hb, within,
    readBitStringContent_unused]

theorem parseDer_encodeDerObject (o : DerObject) (ho : o.content.length < 2 ^ 64) :
    parseDer ⟨pos, encodeDerObject o ++ rest⟩ = .ok ⟨pos + (encodeDerObject o).length, rest⟩ o := by
  simp [parseDer, encodeDerObject, berReadElementHeader_encodeTLV pos rest _ _ _ _ ho, takeContent,
    take_length_append, Nat.add_assoc]

theorem parseBerTaggedImplicitBitString_other (c : BerClass) (st : Bool) {t t' : UInt32} (ht : t' ≠ t)
    (content : List UInt8) (hc : content.length < 2 ^ 64) :
    (parseBerTaggedImplicitBitString t ⟨pos, encodeTLV c st t' content ++ rest⟩).IsErr := by
  simp only [parseBerTaggedImplicitBitString, parseBerContainer, bind_apply,
    berReadElementHeader_encodeTLV pos rest c st t' content hc, IResult.bind_ok, containerContent,
    takeComplete_length_append, within, ht, if_false]
  split <;> simp [IResult.IsErr]

theorem parseBerTaggedImplicitBitString_encode (t : UInt32) (u : Fin 8) (b : BitStringObject)
    (hb : b.data.length + 1 < 2 ^ 64) :
    parseBerTaggedImplicitBitString t
        ⟨pos, encodeTLV .contextSpecific false t (UInt8.ofNat u :: b.data) ++ rest⟩ =
      .ok ⟨pos + (encodeTLV .contextSpecific false t (UInt8.ofNat u :: b.data)).length, rest⟩
        (UInt8.ofNat u, b) :=
  parseBerContainer_encodeTLV pos rest _ _ _ _ (UInt8.ofNat u :: b.data) hb
    (by simpa using readBitStringContent_unused _ u b)

end RoundTrip

end X509Parser
