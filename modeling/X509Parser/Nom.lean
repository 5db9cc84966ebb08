import Mathlib

/-!
# nom parsers over borrowed byte slices

A `&[u8]` is modelled by its bytes together with the offset of its first byte in the
buffer it was cut from: `Offset::offset` between a slice and a later remainder is then the
pointer difference the decoders take to cut their `raw` spans. A parser returns the
remainder and a value, or one of nom's errors, or panics; no combinator catches a panic.
-/

namespace X509Parser

set_option autoImplicit false

/-- `nom::error::ErrorKind`, the variants the combinators raise. -/
inductive ErrorKind where
  | many0 | many1 | eof | complete | mapRes
  deriving DecidableEq, Repr

/-- `der_parser::error::BerError`, the variants the primitive decoders raise. -/
inductive BerError where
  | berTypeError | berValueError | invalidTag | invalidClass | invalidLength
  | constructExpected | integerTooLarge | unsupported | derConstraintFailed
  deriving DecidableEq, Repr

/-- `x509_parser::error::X509Error`. -/
inductive X509Error where
  | invalidVersion | invalidSerial | invalidAlgorithmIdentifier | invalidX509Name
  | invalidDate | invalidSPKI | invalidSubjectUID | invalidIssuerUID | invalidExtensions
  | invalidAttributes | invalidSignatureValue
  | der (e : BerError)
  | nomError (kind : ErrorKind)
  deriving DecidableEq, Repr

/-- A borrowed `&[u8]`: where it starts in the input buffer, and its bytes. -/
structure Slice where
  pos : Nat
  bytes : List UInt8
  deriving DecidableEq, Repr

namespace Slice

def len (s : Slice) : Nat := s.bytes.length

/-- `&s[n..]`. -/
def drop (s : Slice) (n : Nat) : Slice := ⟨s.pos + n, s.bytes.drop n⟩

/-- `&s[..n]`. -/
def take (s : Slice) (n : Nat) : Slice := ⟨s.pos, s.bytes.take n⟩

/-- `Offset::offset`: how far `later` starts after `s` in their common buffer. -/
def offset (s later : Slice) : Nat := later.pos - s.pos

@[simp] theorem len_mk (p : Nat) (b : List UInt8) : (Slice.mk p b).len = b.length := rfl

@[simp] theorem drop_mk (p n : Nat) (b : List UInt8) :
    (Slice.mk p b).drop n = ⟨p + n, b.drop n⟩ := rfl

@[simp] theorem take_mk (p n : Nat) (b : List UInt8) :
    (Slice.mk p b).take n = ⟨p, b.take n⟩ := rfl

theorem drop_drop (s : Slice) (m n : Nat) : (s.drop m).drop n = s.drop (m + n) := by
  simp [drop, Nat.add_assoc, Nat.add_comm n m]

@[simp] theorem len_drop (s : Slice) (n : Nat) : (s.drop n).len = s.len - n := by
  simp [drop, len]

/-- `d` lies inside `s` in their common buffer. -/
def Inside (d s : Slice) : Prop := s.pos ≤ d.pos ∧ d.pos + d.len ≤ s.pos + s.len

theorem Inside.drop {d s : Slice} (h : d.Inside s) {n : Nat} (hn : n ≤ d.len) : (d.drop n).Inside s := by
  obtain ⟨h1, h2⟩ := h
  simp only [Inside, Slice.drop, len, List.length_drop] at *
  omega

/-- The content that a header of `n` octets declares, `m` octets long, lies inside the input. -/
theorem inside_drop_take {s : Slice} {n m : Nat} (h : n + m ≤ s.len) : ((s.drop n).take m).Inside s := by
  simp only [Inside, Slice.drop, Slice.take, len, List.length_take, List.length_drop] at h ⊢
  omega

end Slice

/-- `nom::IResult`, with the panic that unwinds through every combinator. -/
inductive IResult (α : Type) where
  | ok (rest : Slice) (value : α)
  | incomplete
  | error (e : X509Error)
  | panic
  deriving DecidableEq, Repr

namespace IResult

variable {α β : Type}

def bind (r : IResult α) (f : α → Slice → IResult β) : IResult β :=
  match r with
  | ok i a => f a i
  | incomplete => incomplete
  | error e => error e
  | panic => panic

def map (f : α → β) (r : IResult α) : IResult β := r.bind fun a i => ok i (f a)

/-- The run ended with an `Err` value, not a success and not a panic. -/
def IsErr (r : IResult α) : Prop := r = incomplete ∨ ∃ e, r = error e

@[simp] theorem bind_ok (i : Slice) (a : α) (f : α → Slice → IResult β) :
    (ok i a).bind f = f a i := rfl
@[simp] theorem bind_incomplete (f : α → Slice → IResult β) : incomplete.bind f = incomplete := rfl
@[simp] theorem bind_error (e : X509Error) (f : α → Slice → IResult β) :
    (error e).bind f = error e := rfl
@[simp] theorem bind_panic (f : α → Slice → IResult β) : panic.bind f = panic := rfl

@[simp] theorem map_ok (f : α → β) (i : Slice) (a : α) : (ok i a).map f = ok i (f a) := rfl
@[simp] theorem map_incomplete (f : α → β) : (incomplete : IResult α).map f = incomplete := rfl
@[simp] theorem map_error (f : α → β) (e : X509Error) :
    (error e : IResult α).map f = error e := rfl
@[simp] theorem map_panic (f : α → β) : (panic : IResult α).map f = panic := rfl

theorem bind_eq_ok {r : IResult α} {f : α → Slice → IResult β} {i : Slice} {b : β} :
    r.bind f = ok i b ↔ ∃ j a, r = ok j a ∧ f a j = ok i b := by
  cases r with
  | ok j a => exact ⟨fun h => ⟨j, a, rfl, h⟩, fun ⟨_, _, h, hf⟩ => by cases h; exact hf⟩
  | _ => simp [bind]

theorem map_eq_error {r : IResult α} {f : α → β} {e : X509Error} : r.map f = error e ↔ r = error e := by
  cases r <;> simp [map, bind]

theorem bind_eq_panic {r : IResult α} {f : α → Slice → IResult β} :
    r.bind f = panic ↔ r = panic ∨ ∃ j a, r = ok j a ∧ f a j = panic := by
  cases r with
  | ok j a =>
    simp only [bind_ok, reduceCtorEq, false_or]
    exact ⟨fun h => ⟨j, a, rfl, h⟩, fun ⟨_, _, h, hf⟩ => by cases h; exact hf⟩
  | _ => simp [bind]

theorem map_eq_panic {r : IResult α} {f : α → β} : r.map f = panic ↔ r = panic := by
  cases r <;> simp [map, bind]

theorem map_eq_ok {r : IResult α} {f : α → β} {i : Slice} {b : β} :
    r.map f = ok i b ↔ ∃ a, r = ok i a ∧ f a = b := by
  cases r with
  | ok j a => simp only [map, bind_ok, ok.injEq]; exact ⟨fun ⟨h1, h2⟩ => ⟨a, ⟨h1, rfl⟩, h2⟩,
      fun ⟨_, ⟨h1, h2⟩, h3⟩ => ⟨h1, h2 ▸ h3⟩⟩
  | _ => simp [map, bind]

/-- The outcome on an input with `t` appended, when the octets appended change nothing: the
same value with `t` after the remainder, or the same failure. -/
def appendRest (t : List UInt8) : IResult α → IResult α
  | ok r a => ok ⟨r.pos, r.bytes ++ t⟩ a
  | o => o

end IResult

/-- A nom parser on byte slices. -/
def Parser (α : Type) : Type := Slice → IResult α

instance : Monad Parser where
  pure a := fun i => .ok i a
  bind p f := fun i => (p i).bind f

namespace Parser

variable {α β : Type}

@[simp] theorem pure_apply (a : α) (i : Slice) : (pure a : Parser α) i = .ok i a := rfl

@[simp] theorem bind_apply (p : Parser α) (f : α → Parser β) (i : Slice) :
    (p >>= f) i = (p i).bind f := rfl

@[simp] theorem map_apply (f : α → β) (p : Parser α) (i : Slice) :
    (f <$> p) i = (p i).map f := rfl

/-- The input the parser is looking at, unconsumed: what the code names `i` between steps. -/
def remaining : Parser Slice := fun i => .ok i i

def fail (e : X509Error) : Parser α := fun _ => .error e

def panic : Parser α := fun _ => .panic

@[simp] theorem remaining_apply (i : Slice) : remaining i = .ok i i := rfl
@[simp] theorem fail_apply (e : X509Error) (i : Slice) : (fail e : Parser α) i = .error e := rfl
@[simp] theorem panic_apply (i : Slice) : (panic : Parser α) i = .panic := rfl

/-- `&s[..n]` taken while parsing: the first `n` bytes of `s`, or a panic past its end. -/
def sliceTo (s : Slice) (n : Nat) : Parser (List UInt8) := fun i =>
  if n ≤ s.len then .ok i (s.bytes.take n) else .panic

theorem sliceTo_of_le {s : Slice} {n : Nat} (h : n ≤ s.len) (i : Slice) :
    sliceTo s n i = .ok i (s.bytes.take n) := if_pos h

theorem sliceTo_offset_append (pos : Nat) (bs rest : List UInt8) {q : Slice} (hq : q.pos = pos + bs.length)
    (i : Slice) : sliceTo ⟨pos, bs ++ rest⟩ (Slice.offset ⟨pos, bs ++ rest⟩ q) i = .ok i bs := by
  simp [sliceTo, Slice.offset, hq]

/-- `nom::bytes::streaming::take`. -/
def take (n : Nat) : Parser Slice := fun i =>
  if n ≤ i.len then .ok (i.drop n) (i.take n) else .incomplete

/-- `nom::bytes::complete::take`: a short input is `Eof`, not `Incomplete`. -/
def takeComplete (n : Nat) : Parser Slice := fun i =>
  if n ≤ i.len then .ok (i.drop n) (i.take n) else .error (.nomError .eof)

/-- Run `p` on `data` and continue on the current input, dropping what `p` left of `data`. -/
def within (data : Slice) (p : Parser α) : Parser α := fun i => (p data).bind fun a _ => .ok i a

/-- `Result::or(Err(e))` and `map_err(|_| e)`: every nom error becomes `e`. -/
def orError (p : Parser α) (e : X509Error) : Parser α := fun i =>
  match p i with
  | .ok r a => .ok r a
  | .panic => .panic
  | _ => .error e

/-- `nom::combinator::opt`. -/
def opt (p : Parser α) : Parser (Option α) := fun i =>
  match p i with
  | .ok r a => .ok r (some a)
  | .error _ => .ok i none
  | .incomplete => .incomplete
  | .panic => .panic

/-- `nom::combinator::complete`. -/
def complete (p : Parser α) : Parser α := fun i =>
  match p i with
  | .incomplete => .error (.nomError .complete)
  | r => r

theorem complete_eq_ok {p : Parser α} {i r : Slice} {a : α} (h : complete p i = .ok r a) :
    p i = .ok r a := by
  unfold complete at h
  split at h
  · cases h
  · exact h

/-- `nom::branch::alt` of two parsers. -/
def alt (p q : Parser α) : Parser α := fun i =>
  match p i with
  | .error _ => q i
  | r => r

/-- `nom::combinator::all_consuming`. -/
def allConsuming (p : Parser α) : Parser α := fun i =>
  match p i with
  | .ok r a => if r.len = 0 then .ok r a else .error (.nomError .eof)
  | r => r

/-- The loop of `many0` and `many1`, for at most `fuel` more items: it stops at the first
`Err::Error`, and fails with `kind` when an item is read without consuming input. -/
def manyLoop (kind : ErrorKind) (p : Parser α) : Nat → Parser (List α)
  | 0 => fail (.nomError kind)
  | fuel + 1 => fun i =>
    match p i with
    | .ok r a => if r.len = i.len then .error (.nomError kind)
        else (manyLoop kind p fuel r).map (a :: ·)
    | .error _ => .ok i []
    | .incomplete => .incomplete
    | .panic => .panic

/-- `nom::multi::many0`; each item consumes a byte, so one more round than there are bytes
is never exhausted. -/
def many0 (p : Parser α) : Parser (List α) := fun i => manyLoop .many0 p (i.len + 1) i

/-- `nom::multi::many1`: when the first item fails with `Err::Error`, the loop fails with
`E::append(.., ErrorKind::Many1, ..)`, which `X509Error` turns into `NomError(Many1)`. -/
def many1 (p : Parser α) : Parser (List α) := fun i =>
  match p i with
  | .ok r a => (manyLoop .many1 p (r.len + 1) r).map (a :: ·)
  | .error _ => .error (.nomError .many1)
  | .incomplete => .incomplete
  | .panic => .panic

theorem many1_ne_nil {p : Parser α} {i r : Slice} {as : List α} (h : many1 p i = .ok r as) :
    as ≠ [] := by
  unfold many1 at h
  split at h
  · obtain ⟨bs, -, rfl⟩ := IResult.map_eq_ok.mp h
    exact List.cons_ne_nil _ _
  all_goals cases h

/-- Every item the loop returns is a value `p` returned. -/
theorem manyLoop_forall {p : Parser α} {P : α → Prop} (hp : ∀ i r a, p i = .ok r a → P a)
    (kind : ErrorKind) (fuel : Nat) {i r : Slice} {as : List α} (h : manyLoop kind p fuel i = .ok r as) :
    ∀ a ∈ as, P a := by
  induction fuel generalizing i as with
  | zero => cases h
  | succ fuel ih =>
    simp only [manyLoop] at h
    split at h
    · next r' a hpa =>
      split at h
      · cases h
      · obtain ⟨bs, hrest, rfl⟩ := IResult.map_eq_ok.mp h
        exact List.forall_mem_cons.mpr ⟨hp i r' a hpa, ih hrest⟩
    · cases h; simp
    all_goals cases h

/-! ## Repetition over concatenated encodings -/

section Concat

variable {β γ : Type} (p : Parser γ) (enc : β → List UInt8) (dec : β → γ)

/-- `p` reads every item of `xs` back from its encoding, wherever it stands, as `dec` of it. -/
def ReadsBack (xs : List β) : Prop :=
  ∀ x ∈ xs, enc x ≠ [] ∧
    ∀ pos rest, p ⟨pos, enc x ++ rest⟩ = .ok ⟨pos + (enc x).length, rest⟩ (dec x)

theorem ReadsBack.tail {p : Parser γ} {enc : β → List UInt8} {dec : β → γ} {x : β} {xs : List β}
    (h : ReadsBack p enc dec (x :: xs)) : ReadsBack p enc dec xs :=
  fun y hy => h y (List.mem_cons_of_mem x hy)

/-- What `p` reads back, `complete p` reads back. -/
theorem ReadsBack.complete {p : Parser γ} {enc : β → List UInt8} {dec : β → γ} {xs : List β}
    (h : ReadsBack p enc dec xs) : ReadsBack (complete p) enc dec xs :=
  fun x hx => ⟨(h x hx).1, fun pos rest => by simp only [Parser.complete, (h x hx).2 pos rest]⟩

theorem length_le_length_flatMap_of_mem {x : β} {xs : List β} (hx : x ∈ xs) :
    (enc x).length ≤ (xs.flatMap enc).length := by
  rw [List.flatMap_def]
  exact (List.sublist_flatten_of_mem (List.mem_map_of_mem enc hx)).length_le

theorem length_le_length_flatMap (xs : List β) (h : ∀ x ∈ xs, enc x ≠ []) :
    xs.length ≤ (xs.flatMap enc).length := by
  induction xs with
  | nil => simp
  | cons x xs ih =>
    have hx : 1 ≤ (enc x).length := List.length_pos.mpr (h x (List.mem_cons_self x xs))
    have := ih fun y hy => h y (List.mem_cons_of_mem x hy)
    simp only [List.flatMap_cons, List.length_append, List.length_cons]
    omega

theorem manyLoop_flatMap (kind : ErrorKind) (tail : List UInt8)
    (hstop : ∀ pos, ∃ e, p ⟨pos, tail⟩ = .error e) :
    ∀ (xs : List β), ReadsBack p enc dec xs → ∀ fuel, xs.length < fuel → ∀ pos,
      manyLoop kind p fuel ⟨pos, xs.flatMap enc ++ tail⟩ =
        .ok ⟨pos + (xs.flatMap enc).length, tail⟩ (xs.map dec) := by
  intro xs
  induction xs with
  | nil =>
    intro _ fuel hfuel pos
    obtain ⟨fuel, rfl⟩ : ∃ f, fuel = f + 1 := ⟨fuel - 1, by simp at hfuel; omega⟩
    obtain ⟨e, he⟩ := hstop pos
    simp [manyLoop, he]
  | cons x xs ih =>
    intro hr fuel hfuel pos
    obtain ⟨fuel, rfl⟩ : ∃ f, fuel = f + 1 := ⟨fuel - 1, by simp at hfuel; omega⟩
    obtain ⟨hne, hx⟩ := hr x (List.mem_cons_self x xs)
    have hlen : (enc x).length ≠ 0 := fun h => hne (List.eq_nil_of_length_eq_zero h)
    simp only [manyLoop, List.flatMap_cons, List.append_assoc, hx, Slice.len_mk, List.length_append]
    rw [if_neg (by omega), ih hr.tail fuel (by simp at hfuel; omega)]
    simp [Nat.add_assoc]

theorem many0_flatMap (tail : List UInt8) (hstop : ∀ pos, ∃ e, p ⟨pos, tail⟩ = .error e)
    (xs : List β) (hr : ReadsBack p enc dec xs) (pos : Nat) :
    many0 p ⟨pos, xs.flatMap enc ++ tail⟩ = .ok ⟨pos + (xs.flatMap enc).length, tail⟩ (xs.map dec) := by
  have := length_le_length_flatMap enc xs fun x hx => (hr x hx).1
  exact manyLoop_flatMap p enc dec .many0 tail hstop xs hr _
    (by simp only [Slice.len_mk, List.length_append]; omega) pos

theorem many1_flatMap (tail : List UInt8) (hstop : ∀ pos, ∃ e, p ⟨pos, tail⟩ = .error e)
    (x : β) (xs : List β) (hr : ReadsBack p enc dec (x :: xs)) (pos : Nat) :
    many1 p ⟨pos, (x :: xs).flatMap enc ++ tail⟩ =
      .ok ⟨pos + ((x :: xs).flatMap enc).length, tail⟩ ((x :: xs).map dec) := by
  have := length_le_length_flatMap enc xs fun y hy => (hr.tail y hy).1
  obtain ⟨-, hx⟩ := hr x (List.mem_cons_self x xs)
  simp only [many1, List.flatMap_cons, List.append_assoc, hx]
  rw [manyLoop_flatMap p enc dec .many1 tail hstop xs hr.tail _
    (by simp only [Slice.len_mk, List.length_append]; omega)]
  simp [Nat.add_assoc]

end Concat

/-! ## Parsers consume a prefix of their input -/

/-- When `p` succeeds, what is left is its input with some prefix consumed. -/
def Advances (p : Parser α) : Prop := ∀ i r a, p i = .ok r a → ∃ n ≤ i.len, r = i.drop n

namespace Advances

theorem drop_zero (i : Slice) : i = i.drop 0 := by cases i; simp

theorem trans {i r s : Slice} {m n : Nat} (hm : m ≤ i.len) (hr : r = i.drop m) (hn : n ≤ r.len)
    (hs : s = r.drop n) : ∃ k ≤ i.len, s = i.drop k :=
  ⟨m + n, by subst hr; simp at hn; omega, by rw [hs, hr, Slice.drop_drop]⟩

theorem pure' (a : α) : Advances (pure a : Parser α) := fun i r _ h => by
  cases h; exact ⟨0, Nat.zero_le _, drop_zero i⟩

theorem bind' {p : Parser α} {f : α → Parser β} (hp : Advances p) (hf : ∀ a, Advances (f a)) :
    Advances (p >>= f) := fun i r b h => by
  obtain ⟨j, a, hpa, hfa⟩ := IResult.bind_eq_ok.mp h
  obtain ⟨m, hm, rfl⟩ := hp i j a hpa
  obtain ⟨n, hn, rfl⟩ := hf a _ r b hfa
  exact trans hm rfl hn rfl

theorem map' {p : Parser α} (f : α → β) (hp : Advances p) : Advances (f <$> p) := fun i r b h => by
  obtain ⟨a, hpa, -⟩ := IResult.map_eq_ok.mp h
  exact hp i r a hpa

theorem remaining' : Advances remaining := fun i r _ h => by
  cases h; exact ⟨0, Nat.zero_le _, drop_zero i⟩

theorem fail' (e : X509Error) : Advances (fail e : Parser α) := fun _ _ _ h => by cases h

theorem panic' : Advances (panic : Parser α) := fun _ _ _ h => by cases h

theorem take' (n : Nat) : Advances (take n) := fun i r _ h => by
  unfold take at h
  split at h
  · cases h; exact ⟨n, by assumption, rfl⟩
  · cases h

theorem takeComplete' (n : Nat) : Advances (takeComplete n) := fun i r _ h => by
  unfold takeComplete at h
  split at h
  · cases h; exact ⟨n, by assumption, rfl⟩
  · cases h

theorem within' (data : Slice) (p : Parser α) : Advances (within data p) := fun i r a h => by
  obtain ⟨_, _, -, h⟩ := IResult.bind_eq_ok.mp h
  cases h; exact ⟨0, Nat.zero_le _, drop_zero i⟩

theorem orError' {p : Parser α} (e : X509Error) (hp : Advances p) : Advances (p.orError e) :=
  fun i r a h => by
    unfold orError at h
    split at h
    · next r' a' hpa => cases h; exact hp i r a hpa
    all_goals cases h

theorem opt' {p : Parser α} (hp : Advances p) : Advances (opt p) := fun i r a h => by
  unfold opt at h
  split at h
  · next r' a' hpa => cases h; exact hp i r a' hpa
  · cases h; exact ⟨0, Nat.zero_le _, drop_zero i⟩
  all_goals cases h

theorem complete' {p : Parser α} (hp : Advances p) : Advances (complete p) := fun i r a h => by
  unfold complete at h
  split at h
  · cases h
  · exact hp i r a h

theorem alt' {p q : Parser α} (hp : Advances p) (hq : Advances q) : Advances (alt p q) :=
  fun i r a h => by
    unfold alt at h
    split at h
    · exact hq i r a h
    · exact hp i r a h

theorem allConsuming' {p : Parser α} (hp : Advances p) : Advances (allConsuming p) :=
  fun i r a h => by
    unfold allConsuming at h
    split at h
    · next r' a' hpa =>
      split at h
      · cases h; exact hp i _ _ hpa
      · cases h
    · exact hp i r a h

theorem ite' {c : Prop} [Decidable c] {p q : Parser α} (hp : Advances p) (hq : Advances q) :
    Advances (if c then p else q) := by
  split <;> assumption

theorem manyLoop' (kind : ErrorKind) {p : Parser α} (hp : Advances p) (fuel : Nat) :
    Advances (manyLoop kind p fuel) := by
  induction fuel with
  | zero => exact fail' _
  | succ fuel ih =>
    intro i r as h
    simp only [manyLoop] at h
    split at h
    · next r' a hpa =>
      split at h
      · cases h
      · obtain ⟨bs, hrest, -⟩ := IResult.map_eq_ok.mp h
        obtain ⟨m, hm, rfl⟩ := hp i r' a hpa
        obtain ⟨n, hn, rfl⟩ := ih _ r bs hrest
        exact trans hm rfl hn rfl
    · cases h; exact ⟨0, Nat.zero_le _, drop_zero i⟩
    all_goals cases h

theorem many0' {p : Parser α} (hp : Advances p) : Advances (many0 p) := fun i =>
  manyLoop' .many0 hp (i.len + 1) i

theorem many1' {p : Parser α} (hp : Advances p) : Advances (many1 p) := fun i r as h => by
  unfold many1 at h
  split at h
  · next r' a hpa =>
    obtain ⟨bs, hrest, -⟩ := IResult.map_eq_ok.mp h
    obtain ⟨m, hm, rfl⟩ := hp i r' a hpa
    obtain ⟨n, hn, rfl⟩ := manyLoop' .many1 hp _ _ r bs hrest
    exact trans hm rfl hn rfl
  all_goals cases h

end Advances

/-! ## Progress

`many0` and `many1` fail with their own `ErrorKind` when an item is read without consuming
input, and the model's loop also when its rounds run out. For items that consume at least two
octets each, neither happens: the loop reads at most half as many items as there are octets,
and is decided within that many rounds and one more.
-/

/-- Every success of `p` consumes at least `n` octets. -/
def Consumes (n : Nat) (p : Parser α) : Prop := ∀ i r a, p i = .ok r a → r.len + n ≤ i.len

section Progress

variable {p : Parser α} (kind : ErrorKind)

theorem Consumes.orError' {n : Nat} (e : X509Error) (hp : Consumes n p) : Consumes n (p.orError e) :=
  fun i r a h => by
    unfold orError at h
    split at h
    · next hpa => cases h; exact hp i _ _ hpa
    all_goals cases h

theorem Consumes.complete' {n : Nat} (hp : Consumes n p) : Consumes n (complete p) :=
  fun i r a h => by
    unfold complete at h
    split at h
    · cases h
    · exact hp i r a h

theorem manyLoop_length (hp : Consumes 2 p) (fuel : Nat) {i r : Slice} {as : List α}
    (h : manyLoop kind p fuel i = .ok r as) : r.len + 2 * as.length ≤ i.len := by
  induction fuel generalizing i as with
  | zero => cases h
  | succ fuel ih =>
    simp only [manyLoop] at h
    split at h
    · next r' a hpa =>
      split at h
      · cases h
      · obtain ⟨bs, hrest, rfl⟩ := IResult.map_eq_ok.mp h
        have h1 := hp i r' a hpa
        have h2 := ih hrest
        simp only [List.length_cons]
        omega
    · cases h; simp
    all_goals cases h

theorem manyLoop_ne_error (hp : Consumes 2 p) (fuel : Nat) {i : Slice} (hf : i.len / 2 < fuel)
    (e : X509Error) : manyLoop kind p fuel i ≠ .error e := by
  induction fuel generalizing i with
  | zero => omega
  | succ fuel ih =>
    rcases hpi : p i with ⟨r, a⟩ | _ | _ | _ <;> simp only [manyLoop, hpi, ne_eq, reduceCtorEq,
      not_false_eq_true]
    have := hp i r a hpi
    rw [if_neg (by omega), IResult.map_eq_error]
    exact ih (by omega)

/-- Beyond half the length of the input, more rounds change nothing. -/
theorem manyLoop_congr_rounds (hp : Consumes 2 p) {f g : Nat} {i : Slice} (hf : i.len / 2 < f)
    (hg : i.len / 2 < g) : manyLoop kind p f i = manyLoop kind p g i := by
  induction f generalizing g i with
  | zero => omega
  | succ f ih =>
    obtain ⟨g, rfl⟩ : ∃ g', g = g' + 1 := ⟨g - 1, by omega⟩
    rcases hpi : p i with ⟨r, a⟩ | _ | _ | _ <;> simp only [manyLoop, hpi]
    have := hp i r a hpi
    rw [ih (g := g) (by omega) (by omega)]

theorem many0_rounds (hp : Consumes 2 p) (i : Slice) :
    many0 p i = manyLoop .many0 p (i.len / 2 + 1) i :=
  manyLoop_congr_rounds .many0 hp (by omega) (by omega)

theorem many0_length (hp : Consumes 2 p) {i r : Slice} {as : List α} (h : many0 p i = .ok r as) :
    r.len + 2 * as.length ≤ i.len :=
  manyLoop_length .many0 hp _ h

theorem many0_ne_error (hp : Consumes 2 p) (i : Slice) (e : X509Error) : many0 p i ≠ .error e :=
  manyLoop_ne_error .many0 hp _ (by omega) e

theorem many1_rounds (hp : Consumes 2 p) {i r : Slice} {a : α} (h : p i = .ok r a) :
    many1 p i = (manyLoop .many1 p (r.len / 2 + 1) r).map (a :: ·) := by
  simp only [many1, h, manyLoop_congr_rounds .many1 hp (by omega : r.len / 2 < r.len + 1)
    (by omega : r.len / 2 < r.len / 2 + 1)]

theorem many1_length (hp : Consumes 2 p) {i r : Slice} {as : List α} (h : many1 p i = .ok r as) :
    r.len + 2 * as.length ≤ i.len := by
  unfold many1 at h
  split at h
  · next r' a hpa =>
    obtain ⟨bs, hrest, rfl⟩ := IResult.map_eq_ok.mp h
    have h1 := hp i r' a hpa
    have h2 := manyLoop_length .many1 hp _ hrest
    simp only [List.length_cons]
    omega
  all_goals cases h

/-- `many1` fails only when its first item fails, and then with its own `Many1`. -/
theorem many1_error (hp : Consumes 2 p) {i : Slice} {e : X509Error} (h : many1 p i = .error e) :
    e = .nomError .many1 ∧ ∃ e', p i = .error e' := by
  unfold many1 at h
  split at h
  · next r a hpa =>
    exact absurd (IResult.map_eq_error.mp h) (manyLoop_ne_error .many1 hp _ (by omega) e)
  · next e' hpe => cases h; exact ⟨rfl, e', hpe⟩
  all_goals cases h

end Progress

theorem takeComplete_eq_ok {n : Nat} {i r d : Slice} :
    takeComplete n i = .ok r d ↔ n ≤ i.len ∧ r = i.drop n ∧ d = i.take n := by
  unfold takeComplete
  split <;> simp [*, eq_comm]

theorem within_eq_ok {data i r : Slice} {p : Parser α} {a : α} :
    within data p i = .ok r a ↔ r = i ∧ ∃ r', p data = .ok r' a := by
  simp only [within, IResult.bind_eq_ok, IResult.ok.injEq]
  exact ⟨fun ⟨r', a', hp, h1, h2⟩ => ⟨h1.symm, r', h2 ▸ hp⟩, fun ⟨h1, r', hp⟩ => ⟨r', a, hp, h1.symm, rfl⟩⟩

/-! ## Panics

No combinator catches a panic, and none raises one: a panic comes from an out-of-range slice
or from a registered decoder, and a parser that reaches neither returns or fails on every
input. A slice cut from the start of an element is in range on every input inside that
element, which is where the parser that cuts it runs (`PanicFreeOn`).
-/

/-- `p` returns or fails on every input: it never panics. -/
def NeverPanics (p : Parser α) : Prop := ∀ i, p i ≠ .panic

namespace NeverPanics

theorem pure' (a : α) : NeverPanics (pure a : Parser α) := fun _ h => by cases h

theorem bind' {p : Parser α} {f : α → Parser β} (hp : NeverPanics p) (hf : ∀ a, NeverPanics (f a)) :
    NeverPanics (p >>= f) := fun i h => by
  rcases IResult.bind_eq_panic.mp h with h | ⟨j, a, -, h⟩
  exacts [hp i h, hf a j h]

theorem map' {p : Parser α} (f : α → β) (hp : NeverPanics p) : NeverPanics (f <$> p) :=
  fun i h => hp i (IResult.map_eq_panic.mp h)

theorem remaining' : NeverPanics remaining := fun _ h => by cases h

theorem fail' (e : X509Error) : NeverPanics (fail e : Parser α) := fun _ h => by cases h

theorem take' (n : Nat) : NeverPanics (take n) := fun i => by
  unfold take
  split <;> exact nofun

theorem takeComplete' (n : Nat) : NeverPanics (takeComplete n) := fun i => by
  unfold takeComplete
  split <;> exact nofun

theorem within' (data : Slice) {p : Parser α} (hp : NeverPanics p) : NeverPanics (within data p) :=
  fun i h => by
    rcases IResult.bind_eq_panic.mp h with h | ⟨_, _, -, h⟩
    exacts [hp data h, nomatch h]

theorem orError' {p : Parser α} (e : X509Error) (hp : NeverPanics p) : NeverPanics (p.orError e) :=
  fun i => by
    unfold orError
    split
    · exact nofun
    · exact absurd ‹_› (hp i)
    · exact nofun

theorem opt' {p : Parser α} (hp : NeverPanics p) : NeverPanics (opt p) := fun i => by
  unfold opt
  split
  · exact nofun
  · exact nofun
  · exact nofun
  · exact absurd ‹_› (hp i)

theorem complete' {p : Parser α} (hp : NeverPanics p) : NeverPanics (complete p) := fun i => by
  unfold complete
  split
  · exact nofun
  · exact hp i

theorem alt' {p q : Parser α} (hp : NeverPanics p) (hq : NeverPanics q) : NeverPanics (alt p q) :=
  fun i => by
    unfold alt
    split
    · exact hq i
    · exact hp i

theorem allConsuming' {p : Parser α} (hp : NeverPanics p) : NeverPanics (allConsuming p) :=
  fun i => by
    unfold allConsuming
    split
    · split <;> exact nofun
    · exact hp i

theorem ite' {c : Prop} [Decidable c] {p q : Parser α} (hp : NeverPanics p) (hq : NeverPanics q) :
    NeverPanics (if c then p else q) := by
  split <;> assumption

theorem manyLoop' (kind : ErrorKind) {p : Parser α} (hp : NeverPanics p) (fuel : Nat) :
    NeverPanics (manyLoop kind p fuel) := by
  induction fuel with
  | zero => exact fail' _
  | succ fuel ih =>
    intro i
    simp only [manyLoop]
    split
    · split
      · exact nofun
      · exact fun h => ih _ (IResult.map_eq_panic.mp h)
    · exact nofun
    · exact nofun
    · exact absurd ‹_› (hp i)

theorem many0' {p : Parser α} (hp : NeverPanics p) : NeverPanics (many0 p) := fun i =>
  manyLoop' .many0 hp (i.len + 1) i

theorem many1' {p : Parser α} (hp : NeverPanics p) : NeverPanics (many1 p) := fun i => by
  unfold many1
  split
  · exact fun h => manyLoop' .many1 hp _ _ (IResult.map_eq_panic.mp h)
  · exact nofun
  · exact nofun
  · exact absurd ‹_› (hp i)

end NeverPanics

/-- `g` never panics on an input `S` admits. -/
def PanicFreeOn {γ : Type} (S : Slice → Prop) (g : Parser γ) : Prop := ∀ d, S d → g d ≠ .panic

namespace PanicFreeOn

variable {γ : Type} {S : Slice → Prop}

theorem of_neverPanics {g : Parser γ} (hg : NeverPanics g) : PanicFreeOn S g := fun d _ => hg d

theorem ite' {c : Prop} [Decidable c] {p q : Parser γ} (hp : PanicFreeOn S p) (hq : PanicFreeOn S q) :
    PanicFreeOn S (if c then p else q) := by
  split <;> assumption

/-- A step that consumes a prefix and never panics keeps the rest on inputs `S` admits, when
`S` admits what is left of every input it admits. -/
theorem bind' (hS : ∀ d n, S d → n ≤ d.len → S (d.drop n)) {p : Parser α} {k : α → Parser γ}
    (hp : p.Advances) (hp' : NeverPanics p) (hk : ∀ a, PanicFreeOn S (k a)) :
    PanicFreeOn S (p >>= k) := fun d hd h => by
  rcases IResult.bind_eq_panic.mp h with h | ⟨j, a, hpa, h⟩
  · exact hp' d h
  · obtain ⟨n, hn, rfl⟩ := hp d j a hpa
    exact hk a _ (hS d n hd hn) h

/-- Inside a slice, a step that consumes a prefix and never panics keeps the rest. -/
theorem bind_inside {s : Slice} {p : Parser α} {k : α → Parser γ} (hp : p.Advances)
    (hp' : NeverPanics p) (hk : ∀ a, PanicFreeOn (·.Inside s) (k a)) :
    PanicFreeOn (·.Inside s) (p >>= k) :=
  bind' (fun _ _ hd hn => hd.drop hn) hp hp' hk

/-- Inside a slice, a step that consumes a prefix, followed by steps that never panic there,
panics exactly where the step does. -/
theorem bind_eq_panic {s d : Slice} {p : Parser α} {k : α → Parser γ} (hp : p.Advances)
    (hk : ∀ a, PanicFreeOn (·.Inside s) (k a)) (hd : d.Inside s) : (p >>= k) d = .panic ↔ p d = .panic := by
  refine ⟨fun h => ?_, fun h => by rw [bind_apply, h, IResult.bind_panic]⟩
  rcases IResult.bind_eq_panic.mp h with h | ⟨j, a, hpa, h⟩
  · exact h
  · obtain ⟨m, hm, rfl⟩ := hp d j a hpa
    exact absurd h (hk a _ (hd.drop hm))

end PanicFreeOn

/-! ## Raw spans -/

section RawSpan

variable {γ : Type} (raw : γ → List UInt8) (s : Slice)

/-- Every value `g` returns on an input `d` carries, as its raw span, the bytes of `s` up to
where `g` stopped in `d`: so is `&start_i[..start_i.offset(i)]` cut after fields read from `d`. -/
def RawUpTo (g : Parser γ) : Prop :=
  ∀ d r x, g d = .ok r x → ∃ n ≤ d.len, r = d.drop n ∧ raw x = s.bytes.take (d.pos + n - s.pos)

theorem RawUpTo.bind' {p : Parser α} {k : α → Parser γ} (hp : p.Advances)
    (hk : ∀ a, RawUpTo raw s (k a)) : RawUpTo raw s (p >>= k) := fun d r x h => by
  obtain ⟨j, a, hpa, hka⟩ := IResult.bind_eq_ok.mp h
  obtain ⟨m, hm, rfl⟩ := hp d j a hpa
  obtain ⟨n, hn, rfl, hx⟩ := hk a _ r x hka
  rw [Slice.len_drop] at hn
  exact ⟨m + n, by omega, Slice.drop_drop .., by rw [hx, Slice.drop, Nat.add_assoc]⟩

/-- The end of an assembler: `let len = start_i.offset(i)` and `raw: &start_i[..len]`. -/
theorem RawUpTo.cut (mk : List UInt8 → γ) (hmk : ∀ b, raw (mk b) = b) :
    RawUpTo raw s (do let i ← remaining; let b ← sliceTo s (s.offset i); pure (mk b)) :=
  fun d r x h => by
    simp only [bind_apply, remaining_apply, IResult.bind_ok, sliceTo] at h
    split at h
    · cases h; exact ⟨0, Nat.zero_le _, Advances.drop_zero _, by rw [hmk, Slice.offset, Nat.add_zero]⟩
    · cases h

/-- The cut `&start_i[..start_i.offset(i)]` is in range wherever it is taken inside `s`. -/
theorem PanicFreeOn.cut (mk : List UInt8 → γ) :
    PanicFreeOn (·.Inside s) (do let i ← remaining; let b ← sliceTo s (s.offset i); pure (mk b)) :=
  fun d ⟨h1, h2⟩ h => by
    simp only [bind_apply, remaining_apply, IResult.bind_ok, sliceTo, Slice.offset] at h
    rw [if_pos (by omega)] at h
    cases h

/-- An assembler reads the same from any input inside its start `s` when octets are appended
to `s`: its raw span, cut from `s`, stays within the original octets. -/
def CutStable (g : Slice → Parser γ) : Prop :=
  ∀ (pos : Nat) (bs t : List UInt8) (d r : Slice) (x : γ), d.Inside ⟨pos, bs⟩ →
    g ⟨pos, bs⟩ d = .ok r x → g ⟨pos, bs ++ t⟩ d = .ok r x

theorem CutStable.bind' {p : Parser α} {k : Slice → α → Parser γ} (hp : p.Advances)
    (hk : ∀ a, CutStable fun s => k s a) : CutStable fun s => p >>= k s :=
  fun pos bs t d r x hd h => by
    obtain ⟨j, a, hpa, hka⟩ := IResult.bind_eq_ok.mp h
    obtain ⟨m, hm, rfl⟩ := hp d j a hpa
    show (p >>= k ⟨pos, bs ++ t⟩) d = _
    rw [bind_apply, hpa, IResult.bind_ok]
    exact hk a pos bs t _ r x (hd.drop hm) hka

theorem CutStable.cut (mk : List UInt8 → γ) :
    CutStable fun s => (do let i ← remaining; let b ← sliceTo s (s.offset i); pure (mk b)) :=
  fun pos bs t d r x _ h => by
    simp only [bind_apply, remaining_apply, IResult.bind_ok, sliceTo, Slice.len_mk, Slice.offset] at h ⊢
    split at h
    · next hn =>
      rw [if_pos (by simp; omega), List.take_append_of_le_length hn]
      exact h
    · cases h

end RawSpan

/-- `p` reads the same from its input when octets are appended to it, and leaves them after
what it leaves. -/
def AppendStable (p : Parser α) : Prop :=
  ∀ (pos : Nat) (bs t : List UInt8) (r : Slice) (a : α), p ⟨pos, bs⟩ = .ok r a →
    p ⟨pos, bs ++ t⟩ = .ok ⟨r.pos, r.bytes ++ t⟩ a

theorem AppendStable.orError' {p : Parser α} (e : X509Error) (hp : p.AppendStable) :
    (p.orError e).AppendStable := fun pos bs t r a h => by
  unfold orError at h ⊢
  split at h
  · next hpa => cases h; rw [hp pos bs t r a hpa]
  all_goals cases h

theorem orError_eq_ok {p : Parser α} {e : X509Error} {i r : Slice} {a : α} :
    p.orError e i = .ok r a ↔ p i = .ok r a := by
  unfold orError
  split <;> simp_all

theorem orError_appendRest {p : Parser α} (e : X509Error) {i j : Slice} {t : List UInt8}
    (h : p j = (p i).appendRest t) : p.orError e j = (p.orError e i).appendRest t := by
  unfold orError
  rw [h]
  cases p i <;> rfl

/-! ## What the values satisfy -/

/-- Every value `p` returns satisfies `P`. -/
def Yields (P : α → Prop) (p : Parser α) : Prop := ∀ i r a, p i = .ok r a → P a

namespace Yields

variable {P : β → Prop}

theorem pure' {b : β} (h : P b) : Yields P (pure b : Parser β) := fun _ _ _ hb => by
  cases hb; exact h

theorem fail' (e : X509Error) : Yields P (fail e : Parser β) := fun _ _ _ h => by cases h

theorem bind' {Q : α → Prop} {p : Parser α} {f : α → Parser β} (hp : Yields Q p)
    (hf : ∀ a, Q a → Yields P (f a)) : Yields P (p >>= f) := fun i r b h => by
  obtain ⟨j, a, hpa, hfa⟩ := IResult.bind_eq_ok.mp h
  exact hf a (hp i j a hpa) _ r b hfa

/-- A step whose value the invariant does not read. -/
theorem bind_right {p : Parser α} {f : α → Parser β} (hf : ∀ a, Yields P (f a)) : Yields P (p >>= f) :=
  fun i r b h => by
    obtain ⟨j, a, -, hfa⟩ := IResult.bind_eq_ok.mp h
    exact hf a _ r b hfa

theorem map' {Q : α → Prop} {p : Parser α} {f : α → β} (hp : Yields Q p) (hf : ∀ a, Q a → P (f a)) :
    Yields P (f <$> p) := fun i r b h => by
  obtain ⟨a, hpa, rfl⟩ := IResult.map_eq_ok.mp h
  exact hf a (hp i r a hpa)

/-- A map whose every result satisfies the invariant. -/
theorem map_right {p : Parser α} {f : α → β} (hf : ∀ a, P (f a)) : Yields P (f <$> p) :=
  fun i r b h => by
    obtain ⟨a, -, rfl⟩ := IResult.map_eq_ok.mp h
    exact hf a

theorem orError' {p : Parser β} (e : X509Error) (hp : Yields P p) : Yields P (p.orError e) :=
  fun i r b h => by
    unfold orError at h
    split at h
    · next hpb => cases h; exact hp i _ _ hpb
    all_goals cases h

theorem complete' {p : Parser β} (hp : Yields P p) : Yields P (complete p) := fun i r b h =>
  hp i r b (complete_eq_ok h)

theorem opt' {p : Parser β} (hp : Yields P p) : Yields (fun o => ∀ b ∈ o, P b) (opt p) :=
  fun i r o h => by
    unfold opt at h
    split at h
    · next hpb => cases h; exact fun b hb => Option.some_inj.mp hb ▸ hp i _ _ hpb
    · cases h; exact fun _ hb => nomatch hb
    all_goals cases h

theorem within' (data : Slice) {p : Parser β} (hp : Yields P p) : Yields P (within data p) :=
  fun _ _ b h => by
    obtain ⟨-, r', hpb⟩ := within_eq_ok.mp h
    exact hp data r' b hpb

theorem ite' {c : Prop} [Decidable c] {p q : Parser β} (hp : Yields P p) (hq : Yields P q) :
    Yields P (if c then p else q) := by
  split <;> assumption

theorem allConsuming' {p : Parser β} (hp : Yields P p) : Yields P (allConsuming p) :=
  fun i r b h => by
    unfold allConsuming at h
    split at h
    · next hpb =>
      split at h
      · cases h; exact hp i _ _ hpb
      · cases h
    · exact hp i r b h

theorem many0' {p : Parser β} (hp : Yields P p) : Yields (fun bs => ∀ b ∈ bs, P b) (many0 p) :=
  fun _ _ _ h => manyLoop_forall hp _ _ h

end Yields

end Parser

end X509Parser
