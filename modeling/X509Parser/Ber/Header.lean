import X509Parser.Nom

/-!
# BER element headers

The identifier octets (class, constructed bit, tag number, with the high-tag-number form
read into a `u32`) and the length octets (short form, long form of at most a `u64`, and the
indefinite form for constructed elements) of `der_parser`'s `ber_read_element_header`, with
the DER encoder of a header. A header reads back from its encoding, and reading depends only
on the octets the header spans, which is what makes a truncated element an error.
-/

namespace X509Parser

set_option autoImplicit false

/-- `BerClass`. -/
inductive BerClass where
  | universal | application | contextSpecific | «private»
  deriving DecidableEq, Repr

namespace BerClass

def ofBits : Nat → BerClass
  | 0 => universal
  | 1 => application
  | 2 => contextSpecific
  | _ => «private»

def bits : BerClass → Nat
  | universal => 0
  | application => 1
  | contextSpecific => 2
  | «private» => 3

@[simp] theorem ofBits_bits (c : BerClass) : ofBits c.bits = c := by cases c <;> rfl

theorem bits_lt (c : BerClass) : c.bits < 4 := by cases c <;> decide

end BerClass

/-- `BerSize`. -/
inductive BerSize where
  | definite (n : Nat)
  | indefinite
  deriving DecidableEq, Repr

/-- `BerObjectHeader`: class, constructed bit, tag number and length. -/
structure BerObjectHeader where
  berClass : BerClass
  structured : Bool
  tag : UInt32
  len : BerSize
  deriving DecidableEq, Repr

-- The `BerTag` numbers of the universal types the decoders ask for.
namespace BerTag
def boolean : UInt32 := 1
def integer : UInt32 := 2
def bitString : UInt32 := 3
def octetString : UInt32 := 4
def oid : UInt32 := 6
def sequence : UInt32 := 16
def set : UInt32 := 17
def utcTime : UInt32 := 23
def generalizedTime : UInt32 := 24
end BerTag

/-- What reading a part of a header gives: its value and the octets it spans, or why it
could not be read (the input ended, or it is malformed). -/
inductive Read (α : Type) where
  | ok (value : α) (n : Nat)
  | incomplete
  | invalid (e : BerError)
  deriving DecidableEq, Repr

/-- Value of big-endian base-`b` digits, continuing from `acc`. -/
def hornerFrom (b acc : Nat) (ds : List Nat) : Nat := ds.foldl (fun a d => a * b + d) acc

/-- `bytes_to_u64` without its overflow check: the big-endian value of some octets. -/
def beValue (bs : List UInt8) : Nat := hornerFrom 256 0 (bs.map UInt8.toNat)

/-- The high-tag-number octets of `parse_identifier`: at most `k` base-128 digits accumulated
into a `u32`, giving the tag number and how many octets it took. -/
def readTagNumber : Nat → Nat → List UInt8 → Option (Nat × Nat)
  | _, _, [] => none
  | 0, _, _ :: _ => none
  | k + 1, c, b :: bs =>
    if b.toNat < 128 then some ((c * 128 + b.toNat % 128) % 2 ^ 32, 1)
    else (readTagNumber k ((c * 128 + b.toNat % 128) % 2 ^ 32) bs).map fun p => (p.1, p.2 + 1)

/-- `parse_identifier`: class, constructed bit and tag number, and the octets they took. -/
def readIdentifier : List UInt8 → Read (BerClass × Bool × UInt32)
  | [] => .incomplete
  | b :: bs =>
    let c := BerClass.ofBits (b.toNat / 64)
    let s := decide (b.toNat / 32 % 2 = 1)
    if b.toNat % 32 = 31 then
      match readTagNumber 5 0 bs with
      | some (t, k) => .ok (c, s, UInt32.ofNat t) (k + 1)
      | none => .invalid .invalidTag
    else .ok (c, s, UInt32.ofNat (b.toNat % 32)) 1

/-- The length octets of `ber_read_element_header`, for an element with the given
constructed bit: the size and the octets it took. -/
def readLength (structured : Bool) : List UInt8 → Read BerSize
  | [] => .incomplete
  | l :: ls =>
    if l.toNat < 128 then .ok (.definite l.toNat) 1
    else if l.toNat = 128 then
      if structured then .ok .indefinite 1 else .invalid .constructExpected
    else if l.toNat = 255 then .invalid .invalidTag
    else if l.toNat - 128 ≤ ls.length then
      if beValue (ls.take (l.toNat - 128)) < 2 ^ 64 then
        .ok (.definite (beValue (ls.take (l.toNat - 128)))) (l.toNat - 128 + 1)
      else .invalid .invalidTag
    else .incomplete

/-- `ber_read_element_header` on bytes: the header and the octets it spans. -/
def readHeader (bs : List UInt8) : Read BerObjectHeader :=
  match readIdentifier bs with
  | .ok (c, s, t) k =>
    match readLength s (bs.drop k) with
    | .ok l m => .ok ⟨c, s, t, l⟩ (k + m)
    | .incomplete => .incomplete
    | .invalid e => .invalid e
  | .incomplete => .incomplete
  | .invalid e => .invalid e

/-- `ber_read_element_header`. -/
def berReadElementHeader : Parser BerObjectHeader := fun i =>
  match readHeader i.bytes with
  | .ok h n => .ok (i.drop n) h
  | .incomplete => .incomplete
  | .invalid e => .error (.der e)

/-! ## The DER encoding of a header -/

/-- Big-endian base-`b` digits of `n` in exactly `k` places. -/
def digitsBE (b : Nat) : Nat → Nat → List Nat
  | 0, _ => []
  | k + 1, n => digitsBE b k (n / b) ++ [n % b]

/-- How many base-`b` digits `n` has, at least one; `n` itself bounds the count. -/
def digitCount (b n : Nat) : Nat := go n n
where
  go : Nat → Nat → Nat
    | 0, _ => 1
    | fuel + 1, m => if m < b then 1 else go fuel (m / b) + 1

/-- Identifier octets: the low-tag form below 31, otherwise the base-128 digits of the tag
with the continuation bit on all but the last. -/
def encodeIdentifier (c : BerClass) (structured : Bool) (tag : UInt32) : List UInt8 :=
  let lead := c.bits * 64 + (if structured then 32 else 0)
  if tag.toNat < 31 then [UInt8.ofNat (lead + tag.toNat)]
  else UInt8.ofNat (lead + 31) ::
    ((digitsBE 128 (digitCount 128 tag.toNat - 1) (tag.toNat / 128)).map
      fun d => UInt8.ofNat (d + 128)) ++
      [UInt8.ofNat (tag.toNat % 128)]

/-- Length octets: the short form below 128, otherwise the minimal long form. -/
def encodeLength (n : Nat) : List UInt8 :=
  if n < 128 then [UInt8.ofNat n]
  else UInt8.ofNat (128 + digitCount 256 n) :: (digitsBE 256 (digitCount 256 n) n).map UInt8.ofNat

def encodeHeader (c : BerClass) (structured : Bool) (tag : UInt32) (n : Nat) : List UInt8 :=
  encodeIdentifier c structured tag ++ encodeLength n

/-- A whole element: its header and its content. -/
def encodeTLV (c : BerClass) (structured : Bool) (tag : UInt32) (content : List UInt8) :
    List UInt8 :=
  encodeHeader c structured tag content.length ++ content

/-! ## Digits -/

theorem hornerFrom_append (b acc : Nat) (ds es : List Nat) :
    hornerFrom b acc (ds ++ es) = hornerFrom b (hornerFrom b acc ds) es := by
  simp [hornerFrom, List.foldl_append]

theorem hornerFrom_digitsBE (b k n : Nat) : hornerFrom b 0 (digitsBE b k n) = n % b ^ k := by
  induction k generalizing n with
  | zero => simp [digitsBE, hornerFrom, Nat.mod_one]
  | succ k ih =>
    rw [digitsBE, hornerFrom_append, ih]
    simp only [hornerFrom, List.foldl_cons, List.foldl_nil]
    rw [Nat.pow_succ', Nat.mod_mul, Nat.mul_comm]
    omega

theorem digitsBE_lt {b : Nat} (hb : 0 < b) {k n d : Nat} (h : d ∈ digitsBE b k n) : d < b := by
  induction k generalizing n with
  | zero => simp [digitsBE] at h
  | succ k ih =>
    rcases List.mem_append.mp h with h | h
    · exact ih h
    · simp only [List.mem_singleton] at h; exact h ▸ Nat.mod_lt _ hb

@[simp] theorem length_digitsBE (b k n : Nat) : (digitsBE b k n).length = k := by
  induction k generalizing n <;> simp [digitsBE, *]

theorem toNat_ofNat_digit {d : Nat} (h : d < 256) : (UInt8.ofNat d).toNat = d :=
  UInt8.toNat_ofNat_of_lt h

theorem beValue_digitsBE (k n : Nat) :
    beValue ((digitsBE 256 k n).map UInt8.ofNat) = n % 256 ^ k := by
  have hmap : ((digitsBE 256 k n).map UInt8.ofNat).map UInt8.toNat = digitsBE 256 k n := by
    rw [List.map_map]
    conv => rhs; rw [← List.map_id (digitsBE 256 k n)]
    exact List.map_congr_left fun d hd => toNat_ofNat_digit (digitsBE_lt (by decide) hd)
  rw [beValue, hmap, hornerFrom_digitsBE]

theorem digitCount_go_pos (b fuel m : Nat) : 1 ≤ digitCount.go b fuel m := by
  cases fuel with
  | zero => simp [digitCount.go]
  | succ fuel => simp only [digitCount.go]; split <;> omega

theorem lt_pow_digitCount_go {b : Nat} (hb : 2 ≤ b) (fuel m : Nat) (hm : m ≤ fuel) :
    m < b ^ digitCount.go b fuel m := by
  induction fuel generalizing m with
  | zero => simp [digitCount.go]; omega
  | succ fuel ih =>
    simp only [digitCount.go]
    split
    · simpa using ‹m < b›
    · have hdiv : m / b ≤ fuel := by
        have : m / b < m := Nat.div_lt_self (by omega) (by omega)
        omega
      have h := ih (m / b) hdiv
      rw [Nat.pow_succ]
      have := Nat.lt_mul_div_succ m (show 0 < b by omega)
      calc m < b * (m / b + 1) := this
        _ ≤ b * b ^ digitCount.go b fuel (m / b) := Nat.mul_le_mul_left _ h
        _ = b ^ digitCount.go b fuel (m / b) * b := Nat.mul_comm _ _

theorem lt_pow_digitCount {b : Nat} (hb : 2 ≤ b) (n : Nat) : n < b ^ digitCount b n :=
  lt_pow_digitCount_go hb n n (Nat.le_refl n)

theorem digitCount_go_le {b : Nat} (fuel m k : Nat) (hk : 1 ≤ k)
    (hm : m < b ^ k) : digitCount.go b fuel m ≤ k := by
  induction fuel generalizing m k with
  | zero => simp [digitCount.go]; omega
  | succ fuel ih =>
    simp only [digitCount.go]
    split
    · exact hk
    · obtain ⟨k, rfl⟩ : ∃ j, k = j + 1 := ⟨k - 1, by omega⟩
      have hk' : 1 ≤ k := by
        rcases Nat.eq_zero_or_pos k with rfl | h
        · simp at hm; omega
        · exact h
      have := ih (m / b) k hk' (Nat.div_lt_of_lt_mul (by rw [Nat.pow_succ, Nat.mul_comm] at hm; exact hm))
      omega

theorem digitCount_le {b : Nat} {n k : Nat} (hk : 1 ≤ k) (hn : n < b ^ k) :
    digitCount b n ≤ k := digitCount_go_le n n k hk hn

theorem one_le_digitCount (b n : Nat) : 1 ≤ digitCount b n := digitCount_go_pos b n n

/-! ## A header reads back from its encoding -/

section RoundTrip

variable (c : BerClass) (s : Bool)

theorem identifier_lead_bits (t : Nat) (ht : t < 32) :
    (c.bits * 64 + (if s then 32 else 0) + t) < 256 ∧
    BerClass.ofBits ((c.bits * 64 + (if s then 32 else 0) + t) / 64) = c ∧
    decide ((c.bits * 64 + (if s then 32 else 0) + t) / 32 % 2 = 1) = s ∧
    (c.bits * 64 + (if s then 32 else 0) + t) % 32 = t := by
  have hc := c.bits_lt
  have hdiv : (c.bits * 64 + (if s then 32 else 0) + t) / 64 = c.bits := by split <;> omega
  refine ⟨by split <;> omega, by rw [hdiv, BerClass.ofBits_bits], ?_, by split <;> omega⟩
  cases s <;> simp <;> omega

theorem readTagNumber_digits (j : Nat) (ds : List Nat) (hds : ∀ x ∈ ds, x < 128) (d : Nat)
    (hd : d < 128) (rest : List UInt8) (acc : Nat) :
    readTagNumber (j + ds.length + 1) (acc % 2 ^ 32)
        ((ds.map fun x => UInt8.ofNat (x + 128)) ++ UInt8.ofNat d :: rest) =
      some (hornerFrom 128 acc (ds ++ [d]) % 2 ^ 32, ds.length + 1) := by
  induction ds generalizing acc with
  | nil =>
    have hdn : (UInt8.ofNat d).toNat = d := toNat_ofNat_digit (by omega)
    simp only [List.length_nil, Nat.add_zero, List.map_nil, List.nil_append, readTagNumber, hdn,
      hd, if_true, hornerFrom, List.foldl_cons, List.foldl_nil, Option.some.injEq, Prod.mk.injEq,
      and_true]
    omega
  | cons x xs ih =>
    have hx : x < 128 := hds x (List.mem_cons_self x xs)
    have hxn : (UInt8.ofNat (x + 128)).toNat = x + 128 :=
      toNat_ofNat_digit (by have := hds x (List.mem_cons_self x xs); omega)
    have hstep : (acc % 2 ^ 32 * 128 + (x + 128) % 128) % 2 ^ 32 = (acc * 128 + x) % 2 ^ 32 := by
      omega
    rw [show j + (x :: xs).length + 1 = (j + xs.length + 1) + 1 by simp; omega, List.map_cons,
      List.cons_append]
    simp only [readTagNumber, hxn, show ¬ (x + 128 < 128) by omega, if_false, hstep]
    rw [ih (fun y hy => hds y (List.mem_cons_of_mem x hy)) (acc * 128 + x)]
    rfl

theorem UInt32.ofNat_toNat' (t : UInt32) : UInt32.ofNat t.toNat = t :=
  UInt32.toNat.inj (UInt32.toNat_ofNat_of_lt t.toNat_lt_size)

theorem readIdentifier_encodeIdentifier (t : UInt32) (rest : List UInt8) :
    readIdentifier (encodeIdentifier c s t ++ rest) =
      .ok (c, s, t) (encodeIdentifier c s t).length := by
  have ht : t.toNat < 2 ^ 32 := t.toNat_lt_size
  by_cases hlow : t.toNat < 31
  · obtain ⟨hlt, hc, hs, ht'⟩ := identifier_lead_bits c s t.toNat (by omega)
    simp only [encodeIdentifier, hlow, if_true, List.singleton_append, readIdentifier,
      toNat_ofNat_digit hlt, hc, hs, ht', show t.toNat ≠ 31 by omega, if_false,
      List.length_singleton, UInt32.ofNat_toNat']
  · obtain ⟨hlt, hc, hs, h31⟩ := identifier_lead_bits c s 31 (by omega)
    have hcount : digitCount 128 t.toNat ≤ 5 := digitCount_le (by decide) (by omega)
    have hone := one_le_digitCount 128 t.toNat
    have hds := readTagNumber_digits (5 - digitCount 128 t.toNat)
      (digitsBE 128 (digitCount 128 t.toNat - 1) (t.toNat / 128))
      (fun x hx => digitsBE_lt (by decide) hx) (t.toNat % 128) (Nat.mod_lt _ (by decide)) rest 0
    have hdigits : digitsBE 128 (digitCount 128 t.toNat - 1) (t.toNat / 128) ++ [t.toNat % 128] =
        digitsBE 128 (digitCount 128 t.toNat) t.toNat := by
      conv => rhs; rw [show digitCount 128 t.toNat = digitCount 128 t.toNat - 1 + 1 by omega]
      rfl
    rw [length_digitsBE, show 5 - digitCount 128 t.toNat + (digitCount 128 t.toNat - 1) + 1 = 5 by
      omega, hdigits, hornerFrom_digitsBE, Nat.mod_eq_of_lt (lt_pow_digitCount (by decide) _),
      Nat.mod_eq_of_lt ht, Nat.zero_mod] at hds
    have henc : encodeIdentifier c s t ++ rest =
        UInt8.ofNat (c.bits * 64 + (if s then 32 else 0) + 31) ::
          ((digitsBE 128 (digitCount 128 t.toNat - 1) (t.toNat / 128)).map
            fun d => UInt8.ofNat (d + 128)) ++ UInt8.ofNat (t.toNat % 128) :: rest := by
      simp [encodeIdentifier, hlow]
    rw [henc, List.cons_append]
    simp only [readIdentifier]
    rw [toNat_ofNat_digit hlt]
    simp only [hc, hs, h31, if_true, hds, UInt32.ofNat_toNat']
    simp [encodeIdentifier, hlow]

/-- A tag number of 32 bits takes at most five base-128 digits. -/
theorem length_encodeIdentifier_le (t : UInt32) : (encodeIdentifier c s t).length ≤ 6 := by
  have hcount : digitCount 128 t.toNat ≤ 5 :=
    digitCount_le (by decide) (by have := t.toNat_lt_size; simp only [UInt32.size] at this; omega)
  by_cases hlow : t.toNat < 31
  · simp [encodeIdentifier, hlow]
  · simp [encodeIdentifier, hlow, length_digitsBE]; omega

theorem readLength_encodeLength (n : Nat) (hn : n < 2 ^ 64) (rest : List UInt8) :
    readLength s (encodeLength n ++ rest) = .ok (.definite n) (encodeLength n).length := by
  by_cases hshort : n < 128
  · simp [encodeLength, hshort, readLength, toNat_ofNat_digit (show n < 256 by omega)]
  · have hcount : digitCount 256 n ≤ 8 := digitCount_le (by decide) (by omega)
    have hone := one_le_digitCount 256 n
    have hbyte : (UInt8.ofNat (128 + digitCount 256 n)).toNat = 128 + digitCount 256 n :=
      toNat_ofNat_digit (by omega)
    have hval : beValue ((digitsBE 256 (digitCount 256 n) n).map UInt8.ofNat) = n := by
      rw [beValue_digitsBE, Nat.mod_eq_of_lt (lt_pow_digitCount (by decide) n)]
    have htake : ((digitsBE 256 (digitCount 256 n) n).map UInt8.ofNat ++ rest).take
        (digitCount 256 n) = (digitsBE 256 (digitCount 256 n) n).map UInt8.ofNat :=
      List.take_left' (by simp)
    simp only [encodeLength, hshort, if_false, List.cons_append, readLength, hbyte,
      show ¬ (128 + digitCount 256 n < 128) by omega,
      show 128 + digitCount 256 n ≠ 128 by omega, show 128 + digitCount 256 n ≠ 255 by omega,
      show 128 + digitCount 256 n - 128 = digitCount 256 n by omega, htake, hval, hn,
      if_false, if_true, List.length_cons, List.length_append, List.length_map,
      length_digitsBE, Nat.le_add_right]

theorem readHeader_encodeHeader (t : UInt32) (n : Nat) (hn : n < 2 ^ 64)
    (rest : List UInt8) :
    readHeader (encodeHeader c s t n ++ rest) = .ok ⟨c, s, t, .definite n⟩ (encodeHeader c s t n).length := by
  rw [encodeHeader, List.append_assoc]
  simp only [readHeader, readIdentifier_encodeIdentifier c s t, List.drop_left,
    readLength_encodeLength s n hn, List.length_append]

theorem berReadElementHeader_encodeHeader (t : UInt32) (n : Nat) (hn : n < 2 ^ 64)
    (pos : Nat) (rest : List UInt8) :
    berReadElementHeader ⟨pos, encodeHeader c s t n ++ rest⟩ =
      .ok ⟨pos + (encodeHeader c s t n).length, rest⟩ ⟨c, s, t, .definite n⟩ := by
  simp [berReadElementHeader, readHeader_encodeHeader c s t n hn]

end RoundTrip

/-! ## Reading depends only on the octets read -/

section Prefix

theorem readTagNumber_take {k acc : Nat} {bs : List UInt8} {t n : Nat}
    (h : readTagNumber k acc bs = some (t, n)) :
    n ≤ bs.length ∧ ∀ q, readTagNumber k acc (bs.take n ++ q) = some (t, n) := by
  induction bs generalizing k acc t n with
  | nil => cases k <;> simp [readTagNumber] at h
  | cons b bs ih =>
    cases k with
    | zero => simp [readTagNumber] at h
    | succ k =>
      simp only [readTagNumber] at h
      by_cases hb : b.toNat < 128
      · simp only [hb, if_true, Option.some.injEq, Prod.mk.injEq] at h
        obtain ⟨rfl, rfl⟩ := h
        exact ⟨by simp, fun q => by simp [readTagNumber, hb]⟩
      · simp only [hb, if_false, Option.map_eq_some'] at h
        obtain ⟨⟨t', n'⟩, h', hp⟩ := h
        simp only [Prod.mk.injEq] at hp
        obtain ⟨rfl, rfl⟩ := hp
        obtain ⟨hle, hq⟩ := ih h'
        exact ⟨by simp; omega, fun q => by
          simp only [List.take_succ_cons, List.cons_append, readTagNumber, if_neg hb, List.append_eq, hq q,
            Option.map_some']⟩

theorem readIdentifier_take {bs : List UInt8} {x : BerClass × Bool × UInt32} {k : Nat}
    (h : readIdentifier bs = .ok x k) :
    k ≤ bs.length ∧ ∀ q, readIdentifier (bs.take k ++ q) = .ok x k := by
  cases bs with
  | nil => simp [readIdentifier] at h
  | cons b bs =>
    simp only [readIdentifier] at h
    by_cases h31 : b.toNat % 32 = 31
    · simp only [h31, if_true] at h
      split at h
      · next t k' htag =>
        simp only [Read.ok.injEq] at h
        obtain ⟨rfl, rfl⟩ := h
        obtain ⟨hle, hq⟩ := readTagNumber_take htag
        exact ⟨by simp; omega, fun q => by simp [readIdentifier, h31, hq q]⟩
      · simp at h
    · simp only [h31, if_false, Read.ok.injEq] at h
      obtain ⟨rfl, rfl⟩ := h
      exact ⟨by simp, fun q => by simp [readIdentifier, h31]⟩

theorem readLength_take {st : Bool} {bs : List UInt8} {l : BerSize} {m : Nat}
    (h : readLength st bs = .ok l m) :
    m ≤ bs.length ∧ ∀ q, readLength st (bs.take m ++ q) = .ok l m := by
  cases bs with
  | nil => simp [readLength] at h
  | cons b bs =>
    simp only [readLength] at h
    split_ifs at h with h1 h2 h3 h4 h5 h6 <;> simp only [Read.ok.injEq] at h <;>
      obtain ⟨rfl, rfl⟩ := h
    · exact ⟨by simp, fun q => by simp [readLength, h1]⟩
    · exact ⟨by simp, fun q => by simp [readLength, h1, h2, h3]⟩
    · refine ⟨by simp; omega, fun q => ?_⟩
      have hlen : ((bs.take (b.toNat - 128)) ++ q).take (b.toNat - 128) =
          bs.take (b.toNat - 128) := List.take_left' (by simp; omega)
      simp only [List.take_succ_cons, List.cons_append, readLength, h1, h2, h4, hlen, h6,
        if_false, if_true, List.length_append, List.length_take, Nat.min_eq_left h5,
        Nat.le_add_right]

theorem readHeader_take {bs : List UInt8} {h : BerObjectHeader} {n : Nat}
    (hr : readHeader bs = .ok h n) :
    n ≤ bs.length ∧ ∀ q, readHeader (bs.take n ++ q) = .ok h n := by
  unfold readHeader at hr
  split at hr
  · next c st t k hid =>
    split at hr
    · next l m hlen =>
      simp only [Read.ok.injEq] at hr
      obtain ⟨rfl, rfl⟩ := hr
      obtain ⟨hk, hq⟩ := readIdentifier_take hid
      obtain ⟨hm, hq'⟩ := readLength_take hlen
      refine ⟨by simp at hm; omega, fun q => ?_⟩
      have hsplit : bs.take (k + m) ++ q = bs.take k ++ ((bs.drop k).take m ++ q) := by
        rw [List.take_add, List.append_assoc]
      have hdrop : (bs.take (k + m) ++ q).drop k = (bs.drop k).take m ++ q := by
        rw [hsplit, List.drop_left' (by simp; omega)]
      simp only [readHeader, hsplit ▸ hq _, ← hsplit, hdrop, hq']
    all_goals simp at hr
  all_goals simp at hr

theorem readHeader_two_le {bs : List UInt8} {h : BerObjectHeader} {n : Nat}
    (hr : readHeader bs = .ok h n) : 2 ≤ n := by
  unfold readHeader at hr
  split at hr
  · next c st t k hid =>
    have hk : 1 ≤ k := by
      cases bs with
      | nil => simp [readIdentifier] at hid
      | cons b bs =>
        simp only [readIdentifier] at hid
        split_ifs at hid
        · split at hid <;> simp only [Read.ok.injEq, reduceCtorEq] at hid; omega
        · simp only [Read.ok.injEq] at hid; omega
    split at hr
    · next l m hlen =>
      have hm : 1 ≤ m := by
        cases hbs : bs.drop k with
        | nil => simp [hbs, readLength] at hlen
        | cons b bs' =>
          simp only [hbs, readLength] at hlen
          split_ifs at hlen <;> simp only [Read.ok.injEq, reduceCtorEq] at hlen <;> omega
      simp only [Read.ok.injEq] at hr
      omega
    all_goals simp at hr
  all_goals simp at hr

/-- A header is read from no proper prefix of its own octets: headers are prefix-free. -/
theorem readHeader_prefix_ne_ok {bs q : List UInt8} {h : BerObjectHeader} {n : Nat}
    (hr : readHeader bs = .ok h n) (hq : q <+: bs) (hlt : q.length < n) (h' : BerObjectHeader)
    (n' : Nat) : readHeader q ≠ .ok h' n' := by
  intro hq'
  obtain ⟨hle, hext⟩ := readHeader_take hq'
  obtain ⟨s, rfl⟩ := hq
  have hs := hext (q.drop n' ++ s)
  rw [← List.append_assoc, List.take_append_drop, hr, Read.ok.injEq] at hs
  omega

/-- `t` is one whole element: a header of definite length, then exactly the content it
declares. -/
def IsElement (t : List UInt8) : Prop :=
  match readHeader t with
  | .ok hdr n => n ≤ t.length ∧ hdr.len = .definite (t.length - n)
  | _ => False

instance (t : List UInt8) : Decidable (IsElement t) :=
  match h : readHeader t with
  | .ok hdr n =>
    decidable_of_iff (n ≤ t.length ∧ hdr.len = .definite (t.length - n)) (by simp [IsElement, h])
  | .incomplete => isFalse (by simp [IsElement, h])
  | .invalid _ => isFalse (by simp [IsElement, h])

example : IsElement [0x05, 0x00] ∧ ¬IsElement [0x30, 0x02, 0x05] := by decide

theorem isElement_take {bs : List UInt8} {hdr : BerObjectHeader} {n len : Nat}
    (hh : readHeader bs = .ok hdr n) (hl : hdr.len = .definite len) (hle : n + len ≤ bs.length) :
    IsElement (bs.take (n + len)) := by
  have ht : readHeader (bs.take (n + len)) = .ok hdr n := by
    rw [List.take_add]; exact (readHeader_take hh).2 _
  simp only [IsElement, ht, List.length_take, hl, BerSize.definite.injEq]
  omega

theorem berReadElementHeader_eq_ok {i r : Slice} {h : BerObjectHeader} :
    berReadElementHeader i = .ok r h ↔ ∃ n, readHeader i.bytes = .ok h n ∧ r = i.drop n := by
  unfold berReadElementHeader
  split <;> simp_all
  constructor
  · rintro ⟨rfl, rfl⟩; exact ⟨_, ⟨rfl, rfl⟩, rfl⟩
  · rintro ⟨_, ⟨rfl, rfl⟩, rfl⟩; exact ⟨rfl, rfl⟩

end Prefix

end X509Parser
