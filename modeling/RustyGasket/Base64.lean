import Mathlib.Data.List.Nodup

/-!
# Base64, with canonical padding

Three bytes are four symbols of an alphabet of 64; one or two bytes at the end are two
or three symbols, padded to four. The reader accepts what the writer writes and
nothing else: no other length, no other padding, no stray bits in the last symbol.

* `decode_encode`: what was written is read back;
* `decode_eq_some_iff`: a text has a reading exactly when it is the writing of that;
* `mem_encode`: what is written is in symbols of the alphabet only.
-/

namespace Base64

variable {α : Type*} [DecidableEq α]

/-- 64 distinct symbols, and one apart from them to pad with. -/
structure Alphabet (α : Type*) where
  symbols : List α
  pad : α
  size : symbols.length = 64
  distinct : symbols.Nodup
  apart : pad ∉ symbols

variable (A : Alphabet α)

/-- The symbol of six bits. -/
def Alphabet.symbol {α : Type*} (A : Alphabet α) (v : Fin 64) : α :=
  A.symbols.get (v.cast A.size.symm)

/-- The six bits a symbol stands for. -/
def Alphabet.value (c : α) : Option (Fin 64) :=
  if h : A.symbols.idxOf c < 64 then some ⟨A.symbols.idxOf c, h⟩ else none

def sextet (n : Nat) : Fin 64 := ⟨n % 64, Nat.mod_lt n (by decide)⟩

def encode {α : Type*} (A : Alphabet α) : List UInt8 → List α
  | [] => []
  | [x] => [A.symbol (sextet (x.toNat / 4)), A.symbol (sextet (x.toNat % 4 * 16)), A.pad, A.pad]
  | [x, y] => [A.symbol (sextet (x.toNat / 4)),
      A.symbol (sextet (x.toNat % 4 * 16 + y.toNat / 16)),
      A.symbol (sextet (y.toNat % 16 * 4)), A.pad]
  | x :: y :: z :: rest => A.symbol (sextet (x.toNat / 4)) ::
      A.symbol (sextet (x.toNat % 4 * 16 + y.toNat / 16)) ::
      A.symbol (sextet (y.toNat % 16 * 4 + z.toNat / 64)) :: A.symbol (sextet z.toNat) ::
      encode A rest

/-- The first byte of a group of four symbols. -/
def first (a b : Fin 64) : UInt8 := UInt8.ofNat (a.val * 4 + b.val / 16)

def second (b c : Fin 64) : UInt8 := UInt8.ofNat (b.val % 16 * 16 + c.val / 4)

def third (c d : Fin 64) : UInt8 := UInt8.ofNat (c.val % 4 * 64 + d.val)

/-- The last group, when it is padded. -/
def decodeLast (a b c d : α) : Option (List UInt8) := do
  let a ← A.value a
  let b ← A.value b
  if c = A.pad then
    if d = A.pad ∧ b.val % 16 = 0 then some [first a b] else none
  else
    let c ← A.value c
    if d = A.pad ∧ c.val % 4 = 0 then some [first a b, second b c] else none

def decode : List α → Option (List UInt8)
  | [] => some []
  | a :: b :: c :: d :: rest =>
    match A.value d with
    | some d => do
      let a ← A.value a
      let b ← A.value b
      let c ← A.value c
      let bytes ← decode rest
      return first a b :: second b c :: third c d :: bytes
    | none => if rest = [] then decodeLast A a b c d else none
  | _ => none

variable {A}

theorem value_symbol (v : Fin 64) : A.value (A.symbol v) = some v := by
  have found : A.symbols.idxOf (A.symbol v) = v.val := A.distinct.idxOf_getElem _ _
  rw [Alphabet.value, dif_pos (by rw [found]; exact v.isLt)]
  congr 1
  exact Fin.ext found

theorem symbol_of_value {c : α} {v : Fin 64} (h : A.value c = some v) : A.symbol v = c := by
  unfold Alphabet.value at h
  split at h
  next found =>
    cases h
    have bound : A.symbols.idxOf c < A.symbols.length := by rw [A.size]; exact found
    exact List.getElem_idxOf bound
  next => cases h

theorem value_pad : A.value A.pad = none := by
  unfold Alphabet.value
  rw [dif_neg]
  intro found
  rw [← A.size, List.idxOf_lt_length_iff] at found
  exact A.apart found

theorem symbol_ne_pad (v : Fin 64) : A.symbol v ≠ A.pad := by
  intro same
  have read := value_symbol (A := A) v
  rw [same, value_pad] at read
  cases read

/-! ## Bits -/

@[simp] theorem sextet_val (n : Nat) : (sextet n).val = n % 64 := rfl

@[simp] theorem first_toNat (a b : Fin 64) : (first a b).toNat = a.val * 4 + b.val / 16 := by
  rw [first, UInt8.toNat_ofNat']
  omega

@[simp] theorem second_toNat (b c : Fin 64) :
    (second b c).toNat = b.val % 16 * 16 + c.val / 4 := by
  rw [second, UInt8.toNat_ofNat']
  omega

@[simp] theorem third_toNat (c d : Fin 64) : (third c d).toNat = c.val % 4 * 64 + d.val := by
  rw [third, UInt8.toNat_ofNat']
  omega

theorem first_sextets (x : UInt8) (n : Nat) (small : n < 16) :
    first (sextet (x.toNat / 4)) (sextet (x.toNat % 4 * 16 + n)) = x := by
  have := x.toNat_lt
  apply UInt8.toNat_inj.mp
  rw [first_toNat, sextet_val, sextet_val]
  omega

theorem second_sextets (y : UInt8) (m n : Nat) (small : n < 4) :
    second (sextet (m % 4 * 16 + y.toNat / 16)) (sextet (y.toNat % 16 * 4 + n)) = y := by
  have := y.toNat_lt
  apply UInt8.toNat_inj.mp
  rw [second_toNat, sextet_val, sextet_val]
  omega

theorem third_sextets (z : UInt8) (m : Nat) :
    third (sextet (m % 16 * 4 + z.toNat / 64)) (sextet z.toNat) = z := by
  have := z.toNat_lt
  apply UInt8.toNat_inj.mp
  rw [third_toNat, sextet_val, sextet_val]
  omega

theorem sextet_first (a b : Fin 64) : sextet ((first a b).toNat / 4) = a := by
  apply Fin.ext
  rw [sextet_val, first_toNat]
  omega

theorem sextet_second (a b c : Fin 64) :
    sextet ((first a b).toNat % 4 * 16 + (second b c).toNat / 16) = b := by
  apply Fin.ext
  rw [sextet_val, first_toNat, second_toNat]
  omega

theorem sextet_third (b c d : Fin 64) :
    sextet ((second b c).toNat % 16 * 4 + (third c d).toNat / 64) = c := by
  apply Fin.ext
  rw [sextet_val, second_toNat, third_toNat]
  omega

theorem sextet_fourth (c d : Fin 64) : sextet (third c d).toNat = d := by
  apply Fin.ext
  rw [sextet_val, third_toNat]
  omega

theorem sextet_second_last (a b : Fin 64) (clear : b.val % 16 = 0) :
    sextet ((first a b).toNat % 4 * 16) = b := by
  apply Fin.ext
  rw [sextet_val, first_toNat]
  omega

theorem sextet_third_last (b c : Fin 64) (clear : c.val % 4 = 0) :
    sextet ((second b c).toNat % 16 * 4) = c := by
  apply Fin.ext
  rw [sextet_val, second_toNat]
  omega

/-! ## Round trips -/

variable (A)

theorem decode_encode (bytes : List UInt8) : decode A (encode A bytes) = some bytes := by
  induction bytes using encode.induct with
  | case1 => rfl
  | case2 x =>
    have back := first_sextets x 0 (by decide)
    simp [encode, decode, decodeLast, value_pad, value_symbol] at back ⊢
    exact back
  | case3 x y =>
    have := y.toNat_lt
    have back := first_sextets x (y.toNat / 16) (by omega)
    have back' := second_sextets y x.toNat 0 (by decide)
    simp [encode, decode, decodeLast, value_pad, value_symbol, symbol_ne_pad] at back back' ⊢
    exact ⟨back, back'⟩
  | case4 x y z rest ih =>
    have := y.toNat_lt
    have := z.toNat_lt
    have back := first_sextets x (y.toNat / 16) (by omega)
    have back' := second_sextets y x.toNat (z.toNat / 64) (by omega)
    have back'' := third_sextets z y.toNat
    simp [encode, decode, value_symbol, ih, back, back', back'']

theorem decodeLast_eq {a b c d : α} {bytes : List UInt8}
    (h : decodeLast A a b c d = some bytes) : [a, b, c, d] = encode A bytes := by
  unfold decodeLast at h
  obtain ⟨u, hu, h⟩ := Option.bind_eq_some_iff.mp h
  obtain ⟨v, hv, h⟩ := Option.bind_eq_some_iff.mp h
  split at h
  next pad =>
    split at h
    next ends =>
      cases h
      rw [encode, sextet_first, sextet_second_last u v ends.2, symbol_of_value hu,
        symbol_of_value hv, pad, ends.1]
    next => cases h
  next =>
    obtain ⟨w, hw, h⟩ := Option.bind_eq_some_iff.mp h
    split at h
    next ends =>
      cases h
      rw [encode, sextet_first, sextet_second, sextet_third_last v w ends.2, symbol_of_value hu,
        symbol_of_value hv, symbol_of_value hw, ends.1]
    next => cases h

theorem encode_of_decode {text : List α} {bytes : List UInt8} (h : decode A text = some bytes) :
    text = encode A bytes := by
  induction text using decode.induct A generalizing bytes with
  | case1 =>
    cases h
    rfl
  | case2 a b c d rest x hx ih =>
    simp only [decode, hx] at h
    obtain ⟨u, hu, h⟩ := Option.bind_eq_some_iff.mp h
    obtain ⟨v, hv, h⟩ := Option.bind_eq_some_iff.mp h
    obtain ⟨w, hw, h⟩ := Option.bind_eq_some_iff.mp h
    obtain ⟨tail, ht, h⟩ := Option.bind_eq_some_iff.mp h
    cases h
    rw [encode, sextet_first, sextet_second, sextet_third, sextet_fourth, symbol_of_value hu,
      symbol_of_value hv, symbol_of_value hw, symbol_of_value hx, ← ih ht]
  | case3 a b c d hd =>
    simp only [decode, hd, if_true] at h
    exact decodeLast_eq A h
  | case4 a b c d rest hd more =>
    simp only [decode, hd, if_neg more] at h
    cases h
  | case5 text short other =>
    rcases text with _ | ⟨a, _ | ⟨b, _ | ⟨c, _ | ⟨d, rest⟩⟩⟩⟩
    · exact absurd rfl short
    · cases h
    · cases h
    · cases h
    · exact absurd rfl (other a b c d rest)

/-- A text has a reading exactly when it is how that is written. -/
theorem decode_eq_some_iff (text : List α) (bytes : List UInt8) :
    decode A text = some bytes ↔ text = encode A bytes := by
  constructor
  · exact encode_of_decode A
  · rintro rfl
    exact decode_encode A bytes

omit [DecidableEq α] in
theorem mem_encode {bytes : List UInt8} {c : α} (h : c ∈ encode A bytes) :
    c ∈ A.symbols ∨ c = A.pad := by
  have known (v : Fin 64) : A.symbol v ∈ A.symbols := List.get_mem _ _
  induction bytes using encode.induct with
  | case1 => cases h
  | case2 x =>
    simp only [encode, List.mem_cons] at h
    grind
  | case3 x y =>
    simp only [encode, List.mem_cons] at h
    grind
  | case4 x y z rest ih =>
    simp only [encode, List.mem_cons] at h
    grind

end Base64
