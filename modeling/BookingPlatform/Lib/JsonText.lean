import Mathlib.Tactic

/-!
# JSON texts

What `JSON.stringify` prints for a value, and what `JSON.parse` reads.  The numbers are
of any type that has texts; a lone surrogate behind `\u` is not read.

## Main definitions

* `Value` — JSON values over numbers of some type.
* `print` — the text of a value.
* `parse` — the value of a text.
* `record` — an object whose members may be absent.

## Main results

* `parse_print` — a printed value is read back.
* `print_injective` — the text tells the value.
* `record_injective` — a record with absent members is told by its text as well.
-/

namespace JsonText

/-! ### Values -/

/-- A value; the members of an object in their order. -/
inductive Value (ν : Type)
  | null
  | bool (b : Bool)
  | num (x : ν)
  | str (s : String)
  | arr (xs : List (Value ν))
  | obj (members : List (String × Value ν))

/-- No object has two members of one name. -/
inductive Value.Valid {ν : Type} : Value ν → Prop
  | null : Valid .null
  | bool (b : Bool) : Valid (.bool b)
  | num (x : ν) : Valid (.num x)
  | str (s : String) : Valid (.str s)
  | arr {xs : List (Value ν)} : (∀ x ∈ xs, Valid x) → Valid (.arr xs)
  | obj {members : List (String × Value ν)} : (members.map Prod.fst).Nodup →
      (∀ m ∈ members, Valid m.2) → Valid (.obj members)

namespace Value

variable {ν : Type}

@[simp] theorem valid_null : (null : Value ν).Valid := .null

@[simp] theorem valid_bool (b : Bool) : (bool b : Value ν).Valid := .bool b

@[simp] theorem valid_num (x : ν) : (num x).Valid := .num x

@[simp] theorem valid_str (s : String) : (str s : Value ν).Valid := .str s

@[simp] theorem valid_arr {xs : List (Value ν)} : (arr xs).Valid ↔ ∀ x ∈ xs, x.Valid := by
  refine ⟨fun h => ?_, .arr⟩
  cases h with
  | arr h => exact h

@[simp] theorem valid_obj {members : List (String × Value ν)} :
    (obj members).Valid ↔ (members.map Prod.fst).Nodup ∧ ∀ m ∈ members, m.2.Valid := by
  refine ⟨fun h => ?_, fun h => .obj h.1 h.2⟩
  cases h with
  | obj hnodup h => exact ⟨hnodup, h⟩

end Value

/-- The characters of a number. -/
def isNumberChar (c : Char) : Bool :=
  c.isDigit || c == '-' || c == '+' || c == '.' || c == 'e' || c == 'E'

/-- How numbers are printed and read. -/
structure Numbers (ν : Type) where
  text : ν → List Char
  read : List Char → Option ν
  text_ne : ∀ x, text x ≠ []
  isNumberChar_text : ∀ x, ∀ c ∈ text x, isNumberChar c = true
  read_text : ∀ x, read (text x) = some x

/-! ### Printing -/

/-- A character as `JSON.stringify` prints it in a string. -/
def escapeChar (c : Char) : List Char :=
  if c = '"' then ['\\', '"']
  else if c = '\\' then ['\\', '\\']
  else if c = '\x08' then ['\\', 'b']
  else if c = '\x09' then ['\\', 't']
  else if c = '\x0a' then ['\\', 'n']
  else if c = '\x0c' then ['\\', 'f']
  else if c = '\x0d' then ['\\', 'r']
  else if c.toNat < 0x20 then
    ['\\', 'u', '0', '0', Nat.digitChar (c.toNat / 16), Nat.digitChar (c.toNat % 16)]
  else [c]

/-- A string as `JSON.stringify` prints it. -/
def quote (s : String) : List Char := '"' :: (s.toList.flatMap escapeChar ++ ['"'])

section Print

variable {ν : Type} (N : Numbers ν)

mutual

/-- `JSON.stringify`. -/
def print : Value ν → List Char
  | .null => ['n', 'u', 'l', 'l']
  | .bool true => ['t', 'r', 'u', 'e']
  | .bool false => ['f', 'a', 'l', 's', 'e']
  | .num x => N.text x
  | .str s => quote s
  | .arr xs => '[' :: (printElements [] xs ++ [']'])
  | .obj members => '{' :: (printMembers [] members ++ ['}'])

/-- Elements behind a separator. -/
def printElements (before : List Char) : List (Value ν) → List Char
  | [] => []
  | x :: xs => before ++ print x ++ printElements [','] xs

/-- Members behind a separator. -/
def printMembers (before : List Char) : List (String × Value ν) → List Char
  | [] => []
  | (name, x) :: members =>
    before ++ quote name ++ ':' :: print x ++ printMembers [','] members

end

end Print

/-! ### Reading -/

/-- The white space of JSON. -/
def isSpace (c : Char) : Bool := c == ' ' || c == '\x09' || c == '\x0a' || c == '\x0d'

/-- The text behind its white space. -/
def skip (cs : List Char) : List Char := cs.dropWhile isSpace

/-- The value of a hexadecimal digit. -/
def hexValue (c : Char) : Option ℕ :=
  if '0' ≤ c ∧ c ≤ '9' then some (c.toNat - 48)
  else if 'a' ≤ c ∧ c ≤ 'f' then some (c.toNat - 87)
  else if 'A' ≤ c ∧ c ≤ 'F' then some (c.toNat - 55)
  else none

/-- Four hexadecimal digits. -/
def readUnit : List Char → Option (ℕ × List Char)
  | c₁ :: c₂ :: c₃ :: c₄ :: cs => do
    let d₁ ← hexValue c₁
    let d₂ ← hexValue c₂
    let d₃ ← hexValue c₃
    let d₄ ← hexValue c₄
    return (4096 * d₁ + 256 * d₂ + 16 * d₃ + d₄, cs)
  | _ => none

/-- The character of a code unit behind `\u`, or of this and a second one. -/
def readUnicode (cs : List Char) : Option (Char × List Char) := do
  let (u, cs) ← readUnit cs
  if u < 0xD800 ∨ 0xDFFF < u then return (Char.ofNat u, cs)
  match cs with
  | '\\' :: 'u' :: cs =>
    let (v, cs) ← readUnit cs
    if u < 0xDC00 ∧ 0xDC00 ≤ v ∧ v ≤ 0xDFFF then
      return (Char.ofNat (0x10000 + (u - 0xD800) * 0x400 + (v - 0xDC00)), cs)
    else none
  | _ => none

/-- The character that a backslash and this one stand for. -/
def unescape : Char → Option Char
  | '"' => some '"'
  | '\\' => some '\\'
  | '/' => some '/'
  | 'b' => some '\x08'
  | 't' => some '\x09'
  | 'n' => some '\x0a'
  | 'f' => some '\x0c'
  | 'r' => some '\x0d'
  | _ => none

/-- One character of a string. -/
def readChar : List Char → Option (Char × List Char)
  | [] => none
  | c :: cs =>
    if c = '\\' then
      match cs with
      | [] => none
      | d :: cs => if d = 'u' then readUnicode cs else (unescape d).map fun e => (e, cs)
    else if c.toNat < 0x20 then none
    else some (c, cs)

/-- The characters up to the closing quote; each call reads one. -/
def readChars : ℕ → List Char → Option (List Char × List Char)
  | 0, _ => none
  | _ + 1, [] => none
  | n + 1, c :: cs =>
    if c = '"' then some ([], cs)
    else do
      let (d, cs) ← readChar (c :: cs)
      let (ds, cs) ← readChars n cs
      return (d :: ds, cs)

/-- A string behind its opening quote. -/
def readString (cs : List Char) : Option (String × List Char) :=
  (readChars cs.length cs).map fun (ds, cs) => (String.ofList ds, cs)

/-- Of several members of one name the last value stands, in the place of the first. -/
def setMember {ν : Type} (name : String) (x : Value ν) :
    List (String × Value ν) → List (String × Value ν)
  | [] => [(name, x)]
  | m :: members => if m.1 = name then (name, x) :: members else m :: setMember name x members

/-- The object of these members; of two with one name the later counts. -/
def ofMembers {ν : Type} (members : List (String × Value ν)) : Value ν :=
  .obj (members.foldl (fun ms m => setMember m.1 m.2 ms) [])

section Read

variable {ν : Type} (N : Numbers ν)

/-- Reads `null`, `true` or `false`. -/
def readLiteral (literal : List Char) (x : Value ν) (cs : List Char) :
    Option (Value ν × List Char) :=
  if literal <+: cs then some (x, cs.drop literal.length) else none

/-- The longest text of characters of a number has to be one. -/
def readNumber (cs : List Char) : Option (Value ν × List Char) :=
  (N.read (cs.takeWhile isNumberChar)).map fun x => (.num x, cs.dropWhile isNumberChar)

mutual

/-- One value.  Each call inside an array or an object comes after a character of its
own, so that the length of the text is fuel enough. -/
def readValue : ℕ → List Char → Option (Value ν × List Char)
  | 0, _ => none
  | n + 1, cs =>
    match skip cs with
    | [] => none
    | c :: cs =>
      if c = '"' then (readString cs).map fun (s, cs) => (.str s, cs)
      else if c = '[' then
        if (skip cs).head? = some ']' then some (.arr [], (skip cs).tail)
        else (readElements n cs).map fun (xs, cs) => (.arr xs, cs)
      else if c = '{' then
        if (skip cs).head? = some '}' then some (.obj [], (skip cs).tail)
        else (readMembers n cs).map fun (members, cs) => (ofMembers members, cs)
      else if c = 'n' then readLiteral ['u', 'l', 'l'] .null cs
      else if c = 't' then readLiteral ['r', 'u', 'e'] (.bool true) cs
      else if c = 'f' then readLiteral ['a', 'l', 's', 'e'] (.bool false) cs
      else readNumber N (c :: cs)

/-- Elements up to the closing bracket. -/
def readElements : ℕ → List Char → Option (List (Value ν) × List Char)
  | 0, _ => none
  | n + 1, cs => do
    let (x, cs) ← readValue n cs
    match skip cs with
    | ',' :: cs =>
      let (xs, cs) ← readElements n cs
      return (x :: xs, cs)
    | ']' :: cs => return ([x], cs)
    | _ => none

/-- Members up to the closing brace. -/
def readMembers : ℕ → List Char → Option (List (String × Value ν) × List Char)
  | 0, _ => none
  | n + 1, cs =>
    match skip cs with
    | '"' :: cs => do
      let (name, cs) ← readString cs
      match skip cs with
      | ':' :: cs =>
        let (x, cs) ← readValue n cs
        match skip cs with
        | ',' :: cs =>
          let (members, cs) ← readMembers n cs
          return ((name, x) :: members, cs)
        | '}' :: cs => return ([(name, x)], cs)
        | _ => none
      | _ => none
    | _ => none

end

/-- `JSON.parse`. -/
def parse (cs : List Char) : Option (Value ν) :=
  match readValue N cs.length cs with
  | some (x, rest) => if skip rest = [] then some x else none
  | none => none

end Read

/-! ### A string is read back -/

theorem skip_cons {c : Char} (h : isSpace c = false) (cs : List Char) :
    skip (c :: cs) = c :: cs := by
  simp [skip, h]

theorem hexValue_digitChar : ∀ n < 16, hexValue (Nat.digitChar n) = some n := by decide

theorem escapeChar_ne_nil (c : Char) : escapeChar c ≠ [] := by
  unfold escapeChar
  split_ifs <;> simp

/-- The escape of a character starts with a backslash, or is the character. -/
theorem escapeChar_cases (c : Char) :
    (∃ d, d ≠ 'u' ∧ unescape d = some c ∧ escapeChar c = ['\\', d]) ∨
    (c.toNat < 0x20 ∧ escapeChar c =
      ['\\', 'u', '0', '0', Nat.digitChar (c.toNat / 16), Nat.digitChar (c.toNat % 16)]) ∨
    (c ≠ '"' ∧ c ≠ '\\' ∧ ¬ c.toNat < 0x20 ∧ escapeChar c = [c]) := by
  unfold escapeChar
  split_ifs with hquote hback h8 h9 ha hc hd hcontrol
  · exact .inl ⟨'"', by decide, by rw [hquote]; rfl, rfl⟩
  · exact .inl ⟨'\\', by decide, by rw [hback]; rfl, rfl⟩
  · exact .inl ⟨'b', by decide, by rw [h8]; rfl, rfl⟩
  · exact .inl ⟨'t', by decide, by rw [h9]; rfl, rfl⟩
  · exact .inl ⟨'n', by decide, by rw [ha]; rfl, rfl⟩
  · exact .inl ⟨'f', by decide, by rw [hc]; rfl, rfl⟩
  · exact .inl ⟨'r', by decide, by rw [hd]; rfl, rfl⟩
  · exact .inr (.inl ⟨hcontrol, rfl⟩)
  · exact .inr (.inr ⟨hquote, hback, hcontrol, rfl⟩)

/-- **An escaped character is read back**, whatever follows it. -/
theorem readChar_escapeChar (c : Char) (rest : List Char) :
    readChar (escapeChar c ++ rest) = some (c, rest) := by
  rcases escapeChar_cases c with ⟨d, hd, hc, he⟩ | ⟨hc, he⟩ | ⟨-, hback, hc, he⟩
  · simp [he, readChar, hd, hc]
  · have hhigh := hexValue_digitChar (c.toNat / 16) (by omega)
    have hlow := hexValue_digitChar (c.toNat % 16) (by omega)
    have hzero : hexValue '0' = some 0 := by decide
    have hsum : 16 * (c.toNat / 16) + c.toNat % 16 = c.toNat := Nat.div_add_mod _ _
    have hsmall : c.toNat < 0xD800 := by omega
    simp [he, readChar, readUnicode, readUnit, hhigh, hlow, hzero, hsum, hsmall]
  · simp [he, readChar, hback, hc]

theorem head?_escapeChar (c : Char) (rest : List Char) :
    ∃ d ds, escapeChar c ++ rest = d :: ds ∧ d ≠ '"' := by
  rcases escapeChar_cases c with ⟨d, -, -, he⟩ | ⟨-, he⟩ | ⟨hquote, -, -, he⟩
  · exact ⟨'\\', d :: rest, by rw [he]; rfl, by decide⟩
  · exact ⟨'\\', _, by rw [he]; rfl, by decide⟩
  · exact ⟨c, rest, by rw [he]; rfl, hquote⟩

theorem readChars_escaped (s : List Char) (rest : List Char) {n : ℕ} (h : s.length < n) :
    readChars n (s.flatMap escapeChar ++ '"' :: rest) = some (s, rest) := by
  induction s generalizing n with
  | nil =>
    obtain ⟨n, rfl⟩ := Nat.exists_eq_add_of_lt h
    simp [readChars]
  | cons c s ih =>
    obtain ⟨n, rfl⟩ : ∃ m, n = m + 1 := Nat.exists_eq_add_one.mpr (by omega)
    obtain ⟨d, ds, hcons, hd⟩ := head?_escapeChar c (s.flatMap escapeChar ++ '"' :: rest)
    have hread := readChar_escapeChar c (s.flatMap escapeChar ++ '"' :: rest)
    rw [List.flatMap_cons, List.append_assoc, hcons, readChars, if_neg hd, ← hcons, hread]
    simp [ih (n := n) (by simpa using h)]

theorem length_le_flatMap_escapeChar (s : List Char) :
    s.length ≤ (s.flatMap escapeChar).length := by
  induction s with
  | nil => exact le_rfl
  | cons c s ih =>
    have hpos := List.length_pos_iff.mpr (escapeChar_ne_nil c)
    simp only [List.flatMap_cons, List.length_append, List.length_cons]
    omega

/-- **A quoted string is read back.** -/
theorem readString_escaped (s : String) (rest : List Char) :
    readString (s.toList.flatMap escapeChar ++ '"' :: rest) = some (s, rest) := by
  have hlength := length_le_flatMap_escapeChar s.toList
  have hread := readChars_escaped s.toList rest
    (n := (s.toList.flatMap escapeChar ++ '"' :: rest).length) (by
      rw [List.length_append, List.length_cons]
      omega)
  simp only [readString, hread, Option.map_some, String.ofList_toList]

/-! ### A value is read back -/

section RoundTrip

variable {ν : Type} {N : Numbers ν}

theorem isSpace_of_isNumberChar {c : Char} (h : isNumberChar c = true) : isSpace c = false := by
  by_contra hspace
  simp only [isSpace, Bool.not_eq_false, Bool.or_eq_true, beq_iff_eq] at hspace
  rcases hspace with ((rfl | rfl) | rfl) | rfl <;> exact absurd h (by decide)

/-- No other value starts like a number. -/
theorem ne_of_isNumberChar {c d : Char} (h : isNumberChar c = true)
    (hd : isNumberChar d = false) : c ≠ d := by
  rintro rfl
  rw [h] at hd
  cases hd

/-- The text of a value starts with a character of its own. -/
theorem print_cons (x : Value ν) :
    ∃ c cs, print N x = c :: cs ∧ isSpace c = false ∧ c ≠ ']' := by
  cases x with
  | null => exact ⟨_, _, rfl, by decide, by decide⟩
  | bool b => cases b <;> exact ⟨_, _, rfl, by decide, by decide⟩
  | num x =>
    obtain ⟨c, cs, htext⟩ := List.exists_cons_of_ne_nil (N.text_ne x)
    have hc := N.isNumberChar_text x c (by rw [htext]; exact List.mem_cons_self)
    exact ⟨c, cs, htext, isSpace_of_isNumberChar hc, ne_of_isNumberChar hc (by decide)⟩
  | str s => exact ⟨_, _, rfl, by decide, by decide⟩
  | arr xs => exact ⟨_, _, rfl, by decide, by decide⟩
  | obj members => exact ⟨_, _, rfl, by decide, by decide⟩

/-- The text does not go on with a character of a number. -/
def Ends (rest : List Char) : Prop := ∀ c ∈ rest.head?, isNumberChar c = false

theorem ends_nil : Ends [] := by simp [Ends]

theorem ends_cons {c : Char} (h : isNumberChar c = false) (rest : List Char) :
    Ends (c :: rest) := by
  simpa [Ends] using h

theorem readNumber_text (x : ν) {rest : List Char} (h : Ends rest) :
    readNumber N (N.text x ++ rest) = some (.num x, rest) := by
  have hrest : rest.takeWhile isNumberChar = [] ∧ rest.dropWhile isNumberChar = rest := by
    cases rest with
    | nil => simp
    | cons c cs => simp [h c rfl]
  rw [readNumber, List.takeWhile_append_of_pos (N.isNumberChar_text x),
    List.dropWhile_append_of_pos (N.isNumberChar_text x), hrest.1, hrest.2, List.append_nil,
    N.read_text, Option.map_some]

/-- The value is read from its text, whatever follows. -/
def ReadsBack (N : Numbers ν) (x : Value ν) : Prop :=
  ∀ n rest, (print N x).length ≤ n → Ends rest →
    readValue N n (print N x ++ rest) = some (x, rest)

/-! #### Arrays -/

theorem readElements_last {n : ℕ} {cs rest : List Char} {x : Value ν}
    (h : readValue N n cs = some (x, ']' :: rest)) :
    readElements N (n + 1) cs = some ([x], rest) := by
  have hskip : skip (']' :: rest) = ']' :: rest := skip_cons (by decide) rest
  simp [readElements, h, hskip]

theorem readElements_more {n : ℕ} {cs cs' rest : List Char} {x : Value ν} {xs : List (Value ν)}
    (h : readValue N n cs = some (x, ',' :: cs')) (hxs : readElements N n cs' = some (xs, rest)) :
    readElements N (n + 1) cs = some (x :: xs, rest) := by
  have hskip : skip (',' :: cs') = ',' :: cs' := skip_cons (by decide) cs'
  simp [readElements, h, hskip, hxs]

theorem printElements_singleton (x : Value ν) : printElements N [] [x] = print N x := by
  simp [printElements]

theorem printElements_cons (x y : Value ν) (ys : List (Value ν)) :
    printElements N [] (x :: y :: ys) = print N x ++ ',' :: printElements N [] (y :: ys) := by
  simp [printElements]

theorem readElements_print {x : Value ν} {xs : List (Value ν)}
    (h : ∀ y ∈ x :: xs, ReadsBack N y) (rest : List Char) {n : ℕ}
    (hn : (printElements N [] (x :: xs)).length < n) :
    readElements N n (printElements N [] (x :: xs) ++ ']' :: rest) = some (x :: xs, rest) := by
  induction xs generalizing x n with
  | nil =>
    obtain ⟨n, rfl⟩ : ∃ m, n = m + 1 := Nat.exists_eq_add_one.mpr (by omega)
    rw [printElements_singleton] at hn ⊢
    exact readElements_last (h x (by simp) n _ (by omega) (ends_cons (by decide) _))
  | cons y ys ih =>
    obtain ⟨n, rfl⟩ : ∃ m, n = m + 1 := Nat.exists_eq_add_one.mpr (by omega)
    rw [printElements_cons, List.length_append, List.length_cons] at hn
    rw [printElements_cons, List.append_assoc, List.cons_append]
    refine readElements_more (h x (by simp) n _ (by omega) (ends_cons (by decide) _)) ?_
    exact ih (fun z hz => h z (List.mem_cons_of_mem _ hz)) (by omega)

theorem readsBack_arr {xs : List (Value ν)} (h : ∀ x ∈ xs, ReadsBack N x) :
    ReadsBack N (.arr xs) := by
  intro n rest hn _
  obtain ⟨n, rfl⟩ : ∃ m, n = m + 1 :=
    Nat.exists_eq_add_one.mpr (lt_of_lt_of_le (by simp [print]) hn)
  cases xs with
  | nil =>
    simp [print, printElements, readValue, skip_cons (show isSpace '[' = false by decide),
      skip_cons (show isSpace ']' = false by decide)]
  | cons x xs =>
    simp only [print, List.length_cons, List.length_append, List.length_nil] at hn
    have hread := readElements_print h rest (n := n) (by omega)
    obtain ⟨c, cs, hx, hspace, hc⟩ := print_cons (N := N) x
    have hhead : (skip (printElements N [] (x :: xs) ++ ']' :: rest)).head? = some c := by
      simp [printElements, hx, skip_cons hspace]
    simp [print, readValue, skip_cons (show isSpace '[' = false by decide), hhead, hc, hread]

/-! #### Objects -/

theorem readMembers_last {n : ℕ} {cs cs' rest : List Char} {name : String} {x : Value ν}
    (hname : readString cs = some (name, ':' :: cs'))
    (h : readValue N n cs' = some (x, '}' :: rest)) :
    readMembers N (n + 1) ('"' :: cs) = some ([(name, x)], rest) := by
  have hquote : skip ('"' :: cs) = '"' :: cs := skip_cons (by decide) cs
  have hcolon : skip (':' :: cs') = ':' :: cs' := skip_cons (by decide) cs'
  have hskip : skip ('}' :: rest) = '}' :: rest := skip_cons (by decide) rest
  simp [readMembers, hquote, hname, hcolon, h, hskip]

theorem readMembers_more {n : ℕ} {cs cs' cs'' rest : List Char} {name : String} {x : Value ν}
    {members : List (String × Value ν)} (hname : readString cs = some (name, ':' :: cs'))
    (h : readValue N n cs' = some (x, ',' :: cs''))
    (hmembers : readMembers N n cs'' = some (members, rest)) :
    readMembers N (n + 1) ('"' :: cs) = some ((name, x) :: members, rest) := by
  have hquote : skip ('"' :: cs) = '"' :: cs := skip_cons (by decide) cs
  have hcolon : skip (':' :: cs') = ':' :: cs' := skip_cons (by decide) cs'
  have hskip : skip (',' :: cs'') = ',' :: cs'' := skip_cons (by decide) cs''
  simp [readMembers, hquote, hname, hcolon, h, hskip, hmembers]

/-- A member behind its opening quote. -/
def printMember (N : Numbers ν) (name : String) (x : Value ν) : List Char :=
  name.toList.flatMap escapeChar ++ '"' :: ':' :: print N x

theorem printMembers_singleton (name : String) (x : Value ν) :
    printMembers N [] [(name, x)] = '"' :: printMember N name x := by
  simp [printMembers, printMember, quote]

theorem printMembers_cons (name : String) (x : Value ν) (m : String × Value ν)
    (members : List (String × Value ν)) :
    printMembers N [] ((name, x) :: m :: members) =
      '"' :: (printMember N name x ++ ',' :: printMembers N [] (m :: members)) := by
  simp [printMembers, printMember, quote]

theorem readMembers_print {m : String × Value ν} {members : List (String × Value ν)}
    (h : ∀ l ∈ m :: members, ReadsBack N l.2) (rest : List Char) {n : ℕ}
    (hn : (printMembers N [] (m :: members)).length < n) :
    readMembers N n (printMembers N [] (m :: members) ++ '}' :: rest) =
      some (m :: members, rest) := by
  induction members generalizing m n with
  | nil =>
    obtain ⟨name, x⟩ := m
    obtain ⟨n, rfl⟩ : ∃ m, n = m + 1 := Nat.exists_eq_add_one.mpr (by omega)
    simp only [printMembers_singleton, printMember, List.length_cons, List.length_append] at hn
    rw [printMembers_singleton, printMember, List.cons_append, List.append_assoc,
      List.cons_append, List.cons_append]
    exact readMembers_last (readString_escaped name _)
      (h (name, x) (by simp) n _ (by simp only; omega) (ends_cons (by decide) _))
  | cons m' members ih =>
    obtain ⟨name, x⟩ := m
    obtain ⟨n, rfl⟩ : ∃ m, n = m + 1 := Nat.exists_eq_add_one.mpr (by omega)
    simp only [printMembers_cons, printMember, List.length_cons, List.length_append] at hn
    rw [printMembers_cons, printMember, List.cons_append, List.append_assoc, List.append_assoc,
      List.cons_append, List.cons_append]
    refine readMembers_more (readString_escaped name _)
      (h (name, x) (by simp) n _ (by simp only; omega) (ends_cons (by decide) _)) ?_
    exact ih (fun l hl => h l (List.mem_cons_of_mem _ hl)) (by omega)

theorem setMember_of_notMem {name : String} {x : Value ν} {members : List (String × Value ν)}
    (h : name ∉ members.map Prod.fst) : setMember name x members = members ++ [(name, x)] := by
  induction members with
  | nil => rfl
  | cons m members ih =>
    simp only [List.map_cons, List.mem_cons, not_or] at h
    rw [setMember, if_neg (Ne.symm h.1), ih h.2, List.cons_append]

/-- Members of different names are taken as they stand. -/
theorem ofMembers_of_nodup {members : List (String × Value ν)}
    (h : (members.map Prod.fst).Nodup) : ofMembers members = .obj members := by
  have hfold : ∀ rest acc : List (String × Value ν), ((acc ++ rest).map Prod.fst).Nodup →
      rest.foldl (fun ms m => setMember m.1 m.2 ms) acc = acc ++ rest := by
    intro rest
    induction rest with
    | nil => simp
    | cons m rest ih =>
      intro acc hnodup
      have hnew : m.1 ∉ acc.map Prod.fst := by
        intro hm
        rw [List.map_append, List.map_cons] at hnodup
        exact (List.nodup_append.mp hnodup).2.2 _ hm _ List.mem_cons_self rfl
      rw [List.foldl_cons, setMember_of_notMem hnew, ih _ (by simpa using hnodup)]
      simp
  rw [ofMembers, hfold members [] h, List.nil_append]

theorem readsBack_obj {members : List (String × Value ν)} (hnodup : (members.map Prod.fst).Nodup)
    (h : ∀ m ∈ members, ReadsBack N m.2) : ReadsBack N (.obj members) := by
  intro n rest hn _
  obtain ⟨n, rfl⟩ : ∃ m, n = m + 1 :=
    Nat.exists_eq_add_one.mpr (lt_of_lt_of_le (by simp [print]) hn)
  cases members with
  | nil =>
    simp [print, printMembers, readValue, skip_cons (show isSpace '{' = false by decide),
      skip_cons (show isSpace '}' = false by decide)]
  | cons m members =>
    simp only [print, List.length_cons, List.length_append, List.length_nil] at hn
    have hread := readMembers_print h rest (n := n) (by omega)
    have hhead : (skip (printMembers N [] (m :: members) ++ '}' :: rest)).head? = some '"' := by
      simp [printMembers, quote, skip_cons (show isSpace '"' = false by decide)]
    simp [print, readValue, skip_cons (show isSpace '{' = false by decide), hhead, hread,
      ofMembers_of_nodup hnodup]

/-! #### Values -/

theorem readsBack_num (x : ν) : ReadsBack N (.num x) := by
  intro n rest hn hends
  obtain ⟨c, cs, htext⟩ := List.exists_cons_of_ne_nil (N.text_ne x)
  obtain ⟨n, rfl⟩ : ∃ m, n = m + 1 := Nat.exists_eq_add_one.mpr (by
    rw [print, htext, List.length_cons] at hn
    omega)
  have hc := N.isNumberChar_text x c (by rw [htext]; exact List.mem_cons_self)
  have hne {d : Char} (hd : isNumberChar d = false) : c ≠ d := ne_of_isNumberChar hc hd
  have hskip : skip (N.text x ++ rest) = c :: (cs ++ rest) := by
    rw [htext, List.cons_append, skip_cons (isSpace_of_isNumberChar hc)]
  have hread := readNumber_text (N := N) x hends
  rw [htext, List.cons_append] at hread
  rw [print, readValue, hskip]
  simp only [hne (show isNumberChar '"' = false by decide),
    hne (show isNumberChar '[' = false by decide), hne (show isNumberChar '{' = false by decide),
    hne (show isNumberChar 'n' = false by decide), hne (show isNumberChar 't' = false by decide),
    hne (show isNumberChar 'f' = false by decide), if_false]
  exact hread

theorem readsBack_str (s : String) : ReadsBack N (.str s) := by
  intro n rest hn _
  obtain ⟨n, rfl⟩ : ∃ m, n = m + 1 :=
    Nat.exists_eq_add_one.mpr (lt_of_lt_of_le (by simp [print, quote]) hn)
  have hread := readString_escaped s rest
  simp [print, quote, readValue, skip_cons (show isSpace '"' = false by decide), hread]

theorem readsBack {x : Value ν} (h : x.Valid) : ReadsBack N x := by
  induction h with
  | null =>
    intro n rest hn _
    obtain ⟨n, rfl⟩ : ∃ m, n = m + 1 :=
      Nat.exists_eq_add_one.mpr (lt_of_lt_of_le (by simp [print]) hn)
    simp [print, readValue, readLiteral, skip_cons (show isSpace 'n' = false by decide)]
  | bool b =>
    intro n rest hn _
    obtain ⟨n, rfl⟩ : ∃ m, n = m + 1 :=
      Nat.exists_eq_add_one.mpr (lt_of_lt_of_le (by cases b <;> simp [print]) hn)
    cases b <;> simp [print, readValue, readLiteral,
      skip_cons (show isSpace 't' = false by decide),
      skip_cons (show isSpace 'f' = false by decide)]
  | num x => exact readsBack_num x
  | str s => exact readsBack_str s
  | arr _ ih => exact readsBack_arr ih
  | obj hnodup _ ih => exact readsBack_obj hnodup ih

/-- **A printed value is read back.** -/
theorem parse_print {x : Value ν} (h : x.Valid) : parse N (print N x) = some x := by
  have hread := readsBack (N := N) h (print N x).length [] le_rfl ends_nil
  rw [List.append_nil] at hread
  simp [parse, hread, skip]

/-- **The text tells the value.** -/
theorem print_injective {x y : Value ν} (hx : x.Valid) (hy : y.Valid)
    (h : print N x = print N y) : x = y := by
  have hread := parse_print (N := N) hx
  rw [h, parse_print hy] at hread
  exact (Option.some.inj hread).symm

end RoundTrip

/-! ### Records -/

section Record

variable {ν : Type}

/-- The members that are not `undefined`. -/
def present (members : List (String × Option (Value ν))) : List (String × Value ν) :=
  members.filterMap fun m => m.2.map fun x => (m.1, x)

/-- An object as it is printed: without the members that are `undefined`. -/
def record (members : List (String × Option (Value ν))) : Value ν := .obj (present members)

@[simp] theorem present_none (name : String) (members : List (String × Option (Value ν))) :
    present ((name, none) :: members) = present members := rfl

@[simp] theorem present_some (name : String) (x : Value ν)
    (members : List (String × Option (Value ν))) :
    present ((name, some x) :: members) = (name, x) :: present members := rfl

theorem map_fst_present (members : List (String × Option (Value ν))) :
    ((present members).map Prod.fst).Sublist (members.map Prod.fst) := by
  induction members with
  | nil => exact List.Sublist.refl _
  | cons m members ih =>
    obtain ⟨name, x⟩ := m
    cases x with
    | none => exact ih.cons name
    | some x => exact ih.cons_cons name

theorem notMem_present {name : String} {members : List (String × Option (Value ν))}
    (h : name ∉ members.map Prod.fst) (x : Value ν) : (name, x) ∉ present members :=
  fun hx => h ((map_fst_present members).subset (List.mem_map_of_mem hx))

theorem valid_record {members : List (String × Option (Value ν))}
    (hnodup : (members.map Prod.fst).Nodup) (h : ∀ m ∈ members, ∀ x ∈ m.2, x.Valid) :
    (record members).Valid := by
  refine .obj (hnodup.sublist (map_fst_present members)) fun m hm => ?_
  obtain ⟨l, hl, hx⟩ := List.mem_filterMap.mp hm
  obtain ⟨x, hsome, rfl⟩ := Option.map_eq_some_iff.mp hx
  exact h l hl x hsome

theorem present_injective {members members' : List (String × Option (Value ν))}
    (hnames : members.map Prod.fst = members'.map Prod.fst)
    (hnodup : (members.map Prod.fst).Nodup) (h : present members = present members') :
    members = members' := by
  induction members generalizing members' with
  | nil => exact (List.map_eq_nil_iff.mp hnames.symm).symm
  | cons m members ih =>
    cases members' with
    | nil => cases hnames
    | cons m' members' =>
      obtain ⟨name, x⟩ := m
      obtain ⟨name', x'⟩ := m'
      simp only [List.map_cons, List.cons.injEq] at hnames
      obtain ⟨rfl, hnames⟩ := hnames
      simp only [List.map_cons, List.nodup_cons] at hnodup
      obtain ⟨hnew, hnodup⟩ := hnodup
      cases x with
      | none =>
        cases x' with
        | none => rw [ih hnames hnodup h]
        | some y =>
          -- the member would be another one of the first record
          rw [present_none, present_some] at h
          exact absurd (h ▸ List.mem_cons_self) (notMem_present hnew y)
      | some y =>
        cases x' with
        | none =>
          rw [present_none, present_some] at h
          exact absurd (h ▸ List.mem_cons_self) (notMem_present (hnames ▸ hnew) y)
        | some y' =>
          rw [present_some, present_some, List.cons.injEq, Prod.mk.injEq] at h
          rw [h.1.2, ih hnames hnodup h.2]

/-- **Records of the same names are told by what they are printed as.** -/
theorem record_injective {members members' : List (String × Option (Value ν))}
    (hnames : members.map Prod.fst = members'.map Prod.fst)
    (hnodup : (members.map Prod.fst).Nodup) (h : record members = record members') :
    members = members' :=
  present_injective hnames hnodup (Value.obj.inj h)

end Record

end JsonText
