import Mathlib.Tactic

/-!
# Strings of UTF-16 code units

A JavaScript string is any list of code units; a surrogate that is not part of a pair
stands for no character.  Where such a string becomes bytes, each lone surrogate is
replaced by U+FFFD.

## Main definitions

* `decode`, `encode` — code units as characters, and back.
* `WellFormed` — a string without lone surrogates.
* `utf8` — the bytes of a string.

## Main results

* `decode_encode_append` — the code units of characters are read as these characters.
* `eq_of_decode_eq` — strings without lone surrogates are told apart by their
  characters.
* `utf8_eq_iff` — the bytes of a string tell its characters, and no more.
-/

namespace Utf16

/-! ### Code units and characters -/

/-- The first code unit of a pair. -/
def isHigh (u : UInt16) : Bool := 0xD800 ≤ u.toNat ∧ u.toNat < 0xDC00

/-- The second code unit of a pair. -/
def isLow (u : UInt16) : Bool := 0xDC00 ≤ u.toNat ∧ u.toNat < 0xE000

/-- The character of a code unit on its own. -/
def single (u : UInt16) : Char :=
  if isHigh u || isLow u then '\uFFFD' else Char.ofNat u.toNat

/-- The character of a pair. -/
def pair (u v : UInt16) : Char :=
  Char.ofNat (0x10000 + (u.toNat - 0xD800) * 0x400 + (v.toNat - 0xDC00))

/-- The characters of a string, with its lone surrogates replaced. -/
def decode : List UInt16 → List Char
  | [] => []
  | [u] => [single u]
  | u :: v :: us =>
    if isHigh u && isLow v then pair u v :: decode us else single u :: decode (v :: us)

/-- The code units of a character. -/
def encodeChar (c : Char) : List UInt16 :=
  if c.toNat < 0x10000 then [UInt16.ofNat c.toNat]
  else [UInt16.ofNat (0xD800 + (c.toNat - 0x10000) / 0x400),
    UInt16.ofNat (0xDC00 + (c.toNat - 0x10000) % 0x400)]

/-- The code units of characters. -/
def encode (cs : List Char) : List UInt16 := cs.flatMap encodeChar

/-- The string has no lone surrogate. -/
def WellFormed (us : List UInt16) : Prop := encode (decode us) = us

/-- Whether a string is well formed can be decided. -/
instance (us : List UInt16) : Decidable (WellFormed us) := inferInstanceAs (Decidable (_ = _))

theorem encode_cons (c : Char) (cs : List Char) : encode (c :: cs) = encodeChar c ++ encode cs :=
  List.flatMap_cons

@[simp] theorem encode_append (cs ds : List Char) : encode (cs ++ ds) = encode cs ++ encode ds :=
  List.flatMap_append

theorem decode_cons {u : UInt16} (h : isHigh u = false) (us : List UInt16) :
    decode (u :: us) = single u :: decode us := by
  cases us with
  | nil => rfl
  | cons v us => simp [decode, h]

theorem decode_pair {u v : UInt16} (hu : isHigh u = true) (hv : isLow v = true)
    (us : List UInt16) : decode (u :: v :: us) = pair u v :: decode us := by
  simp [decode, hu, hv]

/-- A character is read back, whatever follows it. -/
theorem decode_encodeChar (c : Char) (us : List UInt16) :
    decode (encodeChar c ++ us) = c :: decode us := by
  have hvalid : c.toNat < 0xD800 ∨ (0xDFFF < c.toNat ∧ c.toNat < 0x110000) := c.valid
  unfold encodeChar
  split
  · next hsmall =>
    have hu : (UInt16.ofNat c.toNat).toNat = c.toNat := UInt16.toNat_ofNat_of_lt' hsmall
    have hhigh : isHigh (UInt16.ofNat c.toNat) = false := by
      simp only [isHigh, hu, decide_eq_false_iff_not]
      omega
    have hlow : isLow (UInt16.ofNat c.toNat) = false := by
      simp only [isLow, hu, decide_eq_false_iff_not]
      omega
    rw [List.singleton_append, decode_cons hhigh]
    simp [single, hhigh, hlow, hu]
  · next hlarge =>
    -- the two halves of `c - 0x10000` fit the two ranges of surrogates
    have hu : (UInt16.ofNat (0xD800 + (c.toNat - 0x10000) / 0x400)).toNat =
        0xD800 + (c.toNat - 0x10000) / 0x400 :=
      UInt16.toNat_ofNat_of_lt' (by simp only [UInt16.size]; omega)
    have hv : (UInt16.ofNat (0xDC00 + (c.toNat - 0x10000) % 0x400)).toNat =
        0xDC00 + (c.toNat - 0x10000) % 0x400 :=
      UInt16.toNat_ofNat_of_lt' (by simp only [UInt16.size]; omega)
    have hhigh : isHigh (UInt16.ofNat (0xD800 + (c.toNat - 0x10000) / 0x400)) = true := by
      simp only [isHigh, hu, decide_eq_true_eq]
      omega
    have hlow : isLow (UInt16.ofNat (0xDC00 + (c.toNat - 0x10000) % 0x400)) = true := by
      simp only [isLow, hv, decide_eq_true_eq]
      omega
    have hsum : 0x10000 + (0xD800 + (c.toNat - 0x10000) / 0x400 - 0xD800) * 0x400 +
        (0xDC00 + (c.toNat - 0x10000) % 0x400 - 0xDC00) = c.toNat := by omega
    rw [List.cons_append, List.singleton_append, decode_pair hhigh hlow]
    simp only [pair, hu, hv, hsum, Char.ofNat_toNat]

theorem decode_encode_append (cs : List Char) (us : List UInt16) :
    decode (encode cs ++ us) = cs ++ decode us := by
  induction cs with
  | nil => rfl
  | cons c cs ih => rw [encode_cons, List.append_assoc, decode_encodeChar, ih, List.cons_append]

@[simp] theorem decode_encode (cs : List Char) : decode (encode cs) = cs := by
  simpa [decode] using decode_encode_append cs []

theorem encode_injective : Function.Injective encode :=
  Function.LeftInverse.injective decode_encode

theorem wellFormed_encode (cs : List Char) : WellFormed (encode cs) := by
  simp [WellFormed]

theorem eq_of_decode_eq {us vs : List UInt16} (hu : WellFormed us) (hv : WellFormed vs)
    (h : decode us = decode vs) : us = vs := by
  rw [← hu, ← hv, h]

/-! ### Bytes -/

/-- The UTF-8 bytes of characters. -/
def charBytes (cs : List Char) : List UInt8 := cs.flatMap String.utf8EncodeChar

/-- The UTF-8 bytes of a string. -/
def utf8 (us : List UInt16) : List UInt8 := charBytes (decode us)

@[simp] theorem charBytes_append (cs ds : List Char) :
    charBytes (cs ++ ds) = charBytes cs ++ charBytes ds :=
  List.flatMap_append

theorem charBytes_injective : Function.Injective charBytes := by
  intro cs ds h
  have hbytes : cs.utf8Encode = ds.utf8Encode := congrArg List.toByteArray h
  have hread := List.utf8Decode?_utf8Encode (l := cs)
  rw [hbytes, List.utf8Decode?_utf8Encode] at hread
  simpa using hread.symm

@[simp] theorem utf8_encode_append (cs : List Char) (us : List UInt16) :
    utf8 (encode cs ++ us) = charBytes cs ++ utf8 us := by
  simp [utf8, decode_encode_append]

/-- An ASCII character shows in the bytes of ASCII characters only where it stands. -/
theorem notMem_charBytes {cs : List Char} {c : Char} (hcs : ∀ d ∈ cs, d.toNat < 0x80)
    (hc : c.toNat < 0x80) (h : c ∉ cs) : UInt8.ofNat c.toNat ∉ charBytes cs := by
  intro hmem
  obtain ⟨d, hd, hbyte⟩ := List.mem_flatMap.1 hmem
  have hsmall : d.toNat < 0x80 := hcs d hd
  have hone : String.utf8EncodeChar d = [UInt8.ofNat d.toNat] :=
    if_pos (Nat.le_of_lt_succ hsmall)
  rw [hone, List.mem_singleton] at hbyte
  have hnat := congrArg UInt8.toNat hbyte
  simp only [UInt8.toNat_ofNat'] at hnat
  rw [Nat.mod_eq_of_lt (by omega), Nat.mod_eq_of_lt (by omega)] at hnat
  exact h (Char.toNat_inj.1 hnat ▸ hd)

theorem utf8_eq_iff {us vs : List UInt16} : utf8 us = utf8 vs ↔ decode us = decode vs :=
  charBytes_injective.eq_iff

end Utf16
