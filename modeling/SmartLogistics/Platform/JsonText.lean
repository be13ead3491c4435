import Mathlib.Data.Nat.Digits.Lemmas
import SmartLogistics.Platform.Http

/-!
# JSON texts

`json.dumps` writes ASCII: other characters are escaped as one or two `\u` units. `json.loads` reads
any layout back (`loads`). What is read as a float is left to `FloatFormat`: its texts are float
literals, and reading one gives the float it is the text of.

`loads_dumps`: reading what was written gives the value, for values that are sound (`Json.sound`):
strings of scalar values, finite floats, and distinct keys in every dict.
-/

set_option autoImplicit false

namespace SmartLogistics.Platform

/-! ## Strings -/

/-- A scalar value of Unicode: a code point that is not a surrogate. -/
def isScalar (c : Nat) : Bool :=
  decide (c < 0xD800) || (decide (0xDFFF < c) && decide (c < 0x110000))

/-- The digit of a number below 16, in lower case. -/
def hexDigit (n : Nat) : Char := if n < 10 then Char.ofNat (48 + n) else Char.ofNat (87 + n)

/-- `f"{n:04x}"`. -/
def hex4 (n : Nat) : List Char :=
  [hexDigit (n / 4096 % 16), hexDigit (n / 256 % 16), hexDigit (n / 16 % 16), hexDigit (n % 16)]

/-- The UTF-16 units of a code point. -/
def units (c : Nat) : List Nat :=
  if c < 0x10000 then [c]
  else [0xD800 + (c - 0x10000) / 0x400 % 0x400, 0xDC00 + (c - 0x10000) % 0x400]

/-- What `ensure_ascii` writes for a unit. -/
def escape (c : Nat) : List Char :=
  if c = 0x22 then ['\\', '"']
  else if c = 0x5C then ['\\', '\\']
  else if c = 0x0A then ['\\', 'n']
  else if c = 0x0D then ['\\', 'r']
  else if c = 0x09 then ['\\', 't']
  else if c = 0x0C then ['\\', 'f']
  else if c = 0x08 then ['\\', 'b']
  else if 0x20 ≤ c ∧ c ≤ 0x7E then [Char.ofNat c]
  else '\\' :: 'u' :: hex4 c

/-- `py_encode_basestring_ascii`. -/
def quote (text : PyStr) : List Char := '"' :: ((text.flatMap units).flatMap escape ++ ['"'])

/-- What a hexadecimal digit is worth, in either case. -/
def hexValue (c : Char) : Option Nat :=
  if '0' ≤ c ∧ c ≤ '9' then some (c.toNat - 48)
  else if 'a' ≤ c ∧ c ≤ 'f' then some (c.toNat - 87)
  else if 'A' ≤ c ∧ c ≤ 'F' then some (c.toNat - 55)
  else none

/-- `_decode_uXXXX`. -/
def hex4Value (a b c d : Char) : Option Nat :=
  (hexValue a).bind fun a => (hexValue b).bind fun b => (hexValue c).bind fun c =>
    (hexValue d).map fun d => 4096 * a + 256 * b + 16 * c + d

/-- `BACKSLASH`. -/
def unescape : Char → Option Nat
  | '"' => some 0x22
  | '\\' => some 0x5C
  | '/' => some 0x2F
  | 'b' => some 0x08
  | 'f' => some 0x0C
  | 'n' => some 0x0A
  | 'r' => some 0x0D
  | 't' => some 0x09
  | _ => none

/-- The units of a string literal after its opening quote, and what follows the literal. -/
def scanUnits : List Char → Option (List Nat × List Char)
  | [] => none
  | '"' :: rest => some ([], rest)
  | '\\' :: 'u' :: a :: b :: c :: d :: rest =>
    (hex4Value a b c d).bind fun unit => (scanUnits rest).map fun p => (unit :: p.1, p.2)
  | '\\' :: c :: rest =>
    (unescape c).bind fun unit => (scanUnits rest).map fun p => (unit :: p.1, p.2)
  | c :: rest =>
    -- a control character is refused
    if c.toNat < 0x20 then none else (scanUnits rest).map fun p => (c.toNat :: p.1, p.2)

/-- A surrogate pair is one character; a surrogate without its partner stays. -/
def joinUnits : List Nat → PyStr
  | high :: low :: rest =>
    if (0xD800 ≤ high ∧ high ≤ 0xDBFF) ∧ 0xDC00 ≤ low ∧ low ≤ 0xDFFF then
      (0x10000 + 0x400 * (high - 0xD800) + (low - 0xDC00)) :: joinUnits rest
    else high :: joinUnits (low :: rest)
  | rest => rest

/-- `scanstring`. -/
def scanString (text : List Char) : Option (PyStr × List Char) :=
  (scanUnits text).map fun p => (joinUnits p.1, p.2)

/-! ## Numbers -/

/-- A number in decimal digits. -/
def natText (n : Nat) : List Char :=
  if n = 0 then ['0'] else (Nat.digits 10 n).reverse.map fun d => Char.ofNat (48 + d)

/-- `int.__repr__`. -/
def intText (n : Int) : List Char := if n < 0 then '-' :: natText n.natAbs else natText n.natAbs

/-- A decimal digit. -/
def isDigit (c : Char) : Bool := decide ('0' ≤ c) && decide (c ≤ '9')

/-- `(?:0|[1-9][0-9]*)`. -/
def isNatLiteral (text : List Char) : Bool :=
  text.all isDigit && !text.isEmpty && (text == ['0'] || text.head? != some '0')

/-- The number that decimal digits write. -/
def natValue (text : List Char) : Nat := text.foldl (fun n c => 10 * n + (c.toNat - 48)) 0

/-- The literal without its sign. -/
def unsigned : List Char → List Char
  | '-' :: text => text
  | text => text

/-- `-?(?:0|[1-9][0-9]*)`. -/
def isIntLiteral (text : List Char) : Bool := isNatLiteral (unsigned text)

/-- The number that an optional sign and decimal digits write. -/
def intValue (text : List Char) : Int :=
  if text.head? = some '-' then -(natValue (unsigned text) : Int) else natValue text

/-- `([eE][-+]?[0-9]+)?`. -/
def isExponent : List Char → Bool
  | [] => true
  | c :: text => (c == 'e' || c == 'E') &&
    match text with
    | [] => false
    | sign :: digits => (isDigit sign && digits.all isDigit) ||
      ((sign == '-' || sign == '+') && digits.all isDigit && !digits.isEmpty)

/-- `(\.[0-9]+)?([eE][-+]?[0-9]+)?`, not empty. -/
def isFraction : List Char → Bool
  | [] => false
  | '.' :: text => !(text.takeWhile isDigit).isEmpty && isExponent (text.dropWhile isDigit)
  | text => isExponent text

/-- A number with a fraction or an exponent. -/
def isFloatLiteral (text : List Char) : Bool :=
  isNatLiteral ((unsigned text).takeWhile isDigit) && isFraction ((unsigned text).dropWhile isDigit)

/-- The characters of numbers. -/
def isNumeric (c : Char) : Bool :=
  isDigit c || c == '-' || c == '+' || c == '.' || c == 'e' || c == 'E'

/-- The bits are those of a number, not of a NaN or an infinity. -/
def isFinite (bits : BitVec 64) : Bool := (bits >>> 52) &&& 0x7FF != 0x7FF

/-- `float.__repr__` and `float`: the text of a number is a float literal, and reads back. -/
structure FloatFormat where
  text : BitVec 64 → List Char
  value : List Char → BitVec 64
  literal : ∀ bits, isFinite bits = true → isFloatLiteral (text bits) = true
  value_text : ∀ bits, isFinite bits = true → value (text bits) = bits

/-- What a literal is read as. -/
def FloatFormat.number (F : FloatFormat) (literal : List Char) : Option Json :=
  if isIntLiteral literal then some (.int (intValue literal))
  else if isFloatLiteral literal then some (.float (F.value literal))
  else none

/-! ## Documents -/

/-- What `separators` has behind the comma and the colon. -/
inductive Separators
  /-- `(",", ":")`. -/
  | compact
  /-- `(", ", ": ")`, the default. -/
  | spaced
  deriving DecidableEq, Repr

/-- What stands after a comma or a colon. -/
def Separators.gap : Separators → List Char
  | .compact => []
  | .spaced => [' ']

namespace Json

mutual

/-- `json.dumps`. -/
def dumps (F : FloatFormat) (sep : Separators) : Json → List Char
  | .null => ['n', 'u', 'l', 'l']
  | .bool true => ['t', 'r', 'u', 'e']
  | .bool false => ['f', 'a', 'l', 's', 'e']
  | .int value => intText value
  | .float bits => F.text bits
  | .string text => quote text
  | .array [] => ['[', ']']
  | .array (value :: rest) => '[' :: (dumps F sep value ++ dumpsElements F sep rest)
  | .object [] => ['{', '}']
  | .object ((key, value) :: rest) =>
    '{' :: (quote key ++ ':' :: (sep.gap ++ (dumps F sep value ++ dumpsMembers F sep rest)))

/-- The elements behind the first one, and the closing bracket. -/
def dumpsElements (F : FloatFormat) (sep : Separators) : List Json → List Char
  | [] => [']']
  | value :: rest => ',' :: (sep.gap ++ (dumps F sep value ++ dumpsElements F sep rest))

/-- The members of an object after the first, and its end. -/
def dumpsMembers (F : FloatFormat) (sep : Separators) : List (PyStr × Json) → List Char
  | [] => ['}']
  | (key, value) :: rest =>
    ',' :: (sep.gap ++ (quote key ++ ':' :: (sep.gap ++
      (dumps F sep value ++ dumpsMembers F sep rest))))

end

/-- `d[key] = value`. -/
def setItem (members : List (PyStr × Json)) (key : PyStr) (value : Json) : List (PyStr × Json) :=
  if members.any (·.1 == key) then members.map fun m => if m.1 = key then (key, value) else m
  else members ++ [(key, value)]

/-- `dict(pairs)`. -/
def ofPairs (pairs : List (PyStr × Json)) : List (PyStr × Json) :=
  pairs.foldl (fun members pair => setItem members pair.1 pair.2) []

end Json

/-- The white space of JSON. -/
def isBlank (c : Char) : Bool := c == ' ' || c == '\t' || c == '\n' || c == '\r'

/-- `WHITESPACE.match`. -/
def skipBlanks (text : List Char) : List Char := text.dropWhile isBlank

mutual

/-- `scan_once`, to a depth: the value at the start of the text, and what follows it. -/
def scanOnce (F : FloatFormat) : Nat → List Char → Option (Json × List Char)
  | 0, _ => none
  | depth + 1, text =>
    match text with
    | '"' :: rest => (scanString rest).map fun p => (.string p.1, p.2)
    | '{' :: rest =>
      match skipBlanks rest with
      | '}' :: rest => some (.object [], rest)
      | rest => (scanMembers F depth rest).map fun p => (.object (Json.ofPairs p.1), p.2)
    | '[' :: rest =>
      match skipBlanks rest with
      | ']' :: rest => some (.array [], rest)
      | rest => (scanElements F depth rest).map fun p => (.array p.1, p.2)
    | 'n' :: 'u' :: 'l' :: 'l' :: rest => some (.null, rest)
    | 't' :: 'r' :: 'u' :: 'e' :: rest => some (.bool true, rest)
    | 'f' :: 'a' :: 'l' :: 's' :: 'e' :: rest => some (.bool false, rest)
    | text => (F.number (text.takeWhile isNumeric)).map fun value =>
        (value, text.dropWhile isNumeric)

/-- The elements of an array that is not empty, to its closing bracket. -/
def scanElements (F : FloatFormat) : Nat → List Char → Option (List Json × List Char)
  | 0, _ => none
  | depth + 1, text =>
    (scanOnce F depth text).bind fun p =>
      match skipBlanks p.2 with
      | ']' :: rest => some ([p.1], rest)
      | ',' :: rest => (scanElements F depth (skipBlanks rest)).map fun q => (p.1 :: q.1, q.2)
      | _ => none

/-- The members of an object that is not empty, to its closing brace. -/
def scanMembers (F : FloatFormat) : Nat → List Char → Option (List (PyStr × Json) × List Char)
  | 0, _ => none
  | depth + 1, text =>
    match text with
    | '"' :: rest =>
      (scanString rest).bind fun key =>
        match skipBlanks key.2 with
        | ':' :: rest =>
          (scanOnce F depth (skipBlanks rest)).bind fun p =>
            match skipBlanks p.2 with
            | '}' :: rest => some ([(key.1, p.1)], rest)
            | ',' :: rest =>
              (scanMembers F depth (skipBlanks rest)).map fun q => ((key.1, p.1) :: q.1, q.2)
            | _ => none
        | _ => none
    | _ => none

end

/-- `json.loads`; none if it raises. -/
def loads (F : FloatFormat) (text : List Char) : Option Json :=
  (scanOnce F (text.length + 1) (skipBlanks text)).bind fun p =>
    if (skipBlanks p.2).isEmpty then some p.1 else none

namespace Json

mutual

/-- The strings are of scalar values, the floats are finite and the keys of a dict are distinct. -/
def sound : Json → Bool
  | .null => true
  | .bool _ => true
  | .int _ => true
  | .float bits => isFinite bits
  | .string text => text.all isScalar
  | .array elements => soundElements elements
  | .object members => decide ((members.map (·.1)).Nodup) && soundMembers members

/-- Every element is sound. -/
def soundElements : List Json → Bool
  | [] => true
  | value :: rest => value.sound && soundElements rest

/-- Every key is a text of scalar values and every value sound. -/
def soundMembers : List (PyStr × Json) → Bool
  | [] => true
  | (key, value) :: rest => key.all isScalar && value.sound && soundMembers rest

end

end Json

/-! ## Reading back strings -/

theorem hexValue_hexDigit : ∀ n < 16, hexValue (hexDigit n) = some n := by decide

/-- Four hexadecimal digits read back. -/
theorem hex4Value_hex4 {n : Nat} (h : n < 0x10000) :
    hex4Value (hexDigit (n / 4096 % 16)) (hexDigit (n / 256 % 16)) (hexDigit (n / 16 % 16))
      (hexDigit (n % 16)) = some n := by
  simp only [hex4Value, hexValue_hexDigit _ (Nat.mod_lt _ (by decide : 0 < 16)), Option.bind_some,
    Option.map_some, Option.some.injEq]
  omega

/-- A character that stands for itself. -/
theorem scanUnits_plain {c : Char} {rest : List Char} (hquote : c ≠ '"') (hslash : c ≠ '\\')
    (hcontrol : 0x20 ≤ c.toNat) :
    scanUnits (c :: rest) = (scanUnits rest).map fun p => (c.toNat :: p.1, p.2) := by
  rw [scanUnits]
  · exact if_neg (Nat.not_lt.2 hcontrol)
  · rintro rfl
    exact absurd rfl hquote
  · rintro a b c d rest rfl -
    exact absurd rfl hslash
  · rintro c rest rfl -
    exact absurd rfl hslash

/-- An escaped unit reads back. -/
theorem scanUnits_escape {c : Nat} (h : c < 0x10000) (rest : List Char) :
    scanUnits (escape c ++ rest) = (scanUnits rest).map fun p => (c :: p.1, p.2) := by
  unfold escape
  split
  · subst_vars
    rfl
  split
  · subst_vars
    rfl
  split
  · subst_vars
    rfl
  split
  · subst_vars
    rfl
  split
  · subst_vars
    rfl
  split
  · subst_vars
    rfl
  split
  · subst_vars
    rfl
  split
  · rename_i hquote hslash _ _ _ _ _ hprint
    have hc : (Char.ofNat c).toNat = c := by
      rw [Char.ofNat, dif_pos (Or.inl (by omega : c < 0xD800))]
      rfl
    have hne : ∀ d : Char, c ≠ d.toNat → Char.ofNat c ≠ d := by
      rintro d hd rfl
      exact hd hc.symm
    have hcontrol : 0x20 ≤ (Char.ofNat c).toNat := hc.symm ▸ hprint.1
    show scanUnits (Char.ofNat c :: rest) = _
    rw [scanUnits_plain (hne '"' hquote) (hne '\\' hslash) hcontrol, hc]
  · show scanUnits ('\\' :: 'u' :: hexDigit (c / 4096 % 16) :: hexDigit (c / 256 % 16) ::
      hexDigit (c / 16 % 16) :: hexDigit (c % 16) :: rest) = _
    rw [scanUnits, hex4Value_hex4 h]
    rfl

theorem scanUnits_escapes {text : List Nat} (h : ∀ c ∈ text, c < 0x10000) (rest : List Char) :
    scanUnits (text.flatMap escape ++ '"' :: rest) = some (text, rest) := by
  induction text with
  | nil => rfl
  | cons c text ih =>
    rw [List.flatMap_cons, List.append_assoc, scanUnits_escape (h c List.mem_cons_self),
      ih fun d hd => h d (List.mem_cons_of_mem _ hd)]
    rfl

theorem isScalar_iff {c : Nat} : isScalar c = true ↔ c < 0xD800 ∨ 0xDFFF < c ∧ c < 0x110000 := by
  simp [isScalar]

theorem units_lt {c : Nat} (h : isScalar c = true) : ∀ u ∈ units c, u < 0x10000 := by
  have hscalar := isScalar_iff.1 h
  intro u hu
  unfold units at hu
  split at hu
  · rename_i hlt
    rw [List.mem_singleton.1 hu]
    exact hlt
  · simp only [List.mem_cons, List.not_mem_nil, or_false] at hu
    omega

/-- The units of a scalar value are joined to it, whatever follows. -/
theorem joinUnits_units {c : Nat} (h : isScalar c = true) (rest : List Nat) :
    joinUnits (units c ++ rest) = c :: joinUnits rest := by
  have hscalar := isScalar_iff.1 h
  unfold units
  split
  · cases rest with
    | nil => rfl
    | cons low rest =>
      rw [List.singleton_append, joinUnits, if_neg (by omega)]
  · rw [List.cons_append, List.singleton_append, joinUnits, if_pos (by omega)]
    exact congrArg (· :: joinUnits rest) (by omega)

theorem joinUnits_flatMap {text : PyStr} (h : text.all isScalar = true) :
    joinUnits (text.flatMap units) = text := by
  induction text with
  | nil => rfl
  | cons c text ih =>
    rw [List.all_cons, Bool.and_eq_true] at h
    rw [List.flatMap_cons, joinUnits_units h.1, ih h.2]

/-- A string reads back. -/
theorem scanString_quote {text : PyStr} (h : text.all isScalar = true) (rest : List Char) :
    scanString ((text.flatMap units).flatMap escape ++ '"' :: rest) = some (text, rest) := by
  have hunits : ∀ u ∈ text.flatMap units, u < 0x10000 := by
    intro u hu
    obtain ⟨c, hc, hu⟩ := List.mem_flatMap.1 hu
    exact units_lt (List.all_eq_true.1 h c hc) u hu
  rw [scanString, scanUnits_escapes hunits, Option.map_some, joinUnits_flatMap h]

/-! ## Reading back numbers -/

theorem isDigit_ofNat : ∀ d < 10, isDigit (Char.ofNat (48 + d)) = true := by decide

theorem toNat_ofNat : ∀ d < 10, (Char.ofNat (48 + d)).toNat = 48 + d := by decide

/-- Decimal digits, the most significant first, have the value of the number. -/
theorem natValue_digits {digits : List Nat} (h : ∀ d ∈ digits, d < 10) :
    natValue (digits.reverse.map fun d => Char.ofNat (48 + d)) = Nat.ofDigits 10 digits := by
  induction digits with
  | nil => rfl
  | cons d digits ih =>
    have hd : (Char.ofNat (48 + d)).toNat = 48 + d := toNat_ofNat d (h d List.mem_cons_self)
    have hrest := ih fun d' hd' => h d' (List.mem_cons_of_mem _ hd')
    rw [natValue] at hrest ⊢
    rw [List.reverse_cons, List.map_append, List.foldl_append, hrest, Nat.ofDigits_cons]
    simp only [List.map_cons, List.map_nil, List.foldl_cons, List.foldl_nil, hd]
    omega

theorem natValue_natText (n : Nat) : natValue (natText n) = n := by
  unfold natText
  split
  · rename_i hzero
    rw [hzero]
    rfl
  · rw [natValue_digits fun d hd => Nat.digits_lt_base (by decide) hd, Nat.ofDigits_digits]

/-- The text of a number is a literal without superfluous zeros. -/
theorem isNatLiteral_natText (n : Nat) : isNatLiteral (natText n) = true := by
  unfold natText
  split
  · rfl
  · rename_i hzero
    have hne : Nat.digits 10 n ≠ [] := Nat.digits_ne_nil_iff_ne_zero.2 hzero
    have hlt : ∀ d ∈ Nat.digits 10 n, d < 10 := fun d hd => Nat.digits_lt_base (by decide) hd
    have hdigits : ((Nat.digits 10 n).reverse.map fun d => Char.ofNat (48 + d)).all isDigit =
        true := by
      rw [List.all_map, List.all_eq_true]
      intro d hd
      exact isDigit_ofNat d (hlt d (List.mem_reverse.1 hd))
    have hhead : ((Nat.digits 10 n).reverse.map fun d => Char.ofNat (48 + d)).head? ≠ some '0' := by
      rw [List.head?_map, List.head?_reverse, List.getLast?_eq_some_getLast hne, Option.map_some]
      intro heq
      have hlast := hlt _ (List.getLast_mem hne)
      have hchar := congrArg Char.toNat (Option.some.inj heq)
      rw [toNat_ofNat _ hlast] at hchar
      exact Nat.getLast_digit_ne_zero 10 hzero (Nat.add_left_cancel hchar)
    simp only [isNatLiteral, hdigits, Bool.true_and, Bool.and_eq_true, Bool.not_eq_true',
      List.isEmpty_eq_false_iff, ne_eq, List.map_eq_nil_iff, List.reverse_eq_nil_iff, hne,
      not_false_eq_true, Bool.or_eq_true, bne_iff_ne, hhead, or_true, and_self]

theorem isNatLiteral_ne_nil {text : List Char} (h : isNatLiteral text = true) : text ≠ [] := by
  rintro rfl
  cases h

theorem isDigit_of_isNatLiteral {text : List Char} (h : isNatLiteral text = true) {c : Char}
    (hc : c ∈ text) : isDigit c = true := by
  rw [isNatLiteral, Bool.and_eq_true, Bool.and_eq_true] at h
  exact List.all_eq_true.1 h.1.1 c hc

/-- A literal of a natural number has no sign. -/
theorem head?_of_isNatLiteral {text : List Char} (h : isNatLiteral text = true) :
    text.head? ≠ some '-' := by
  intro hhead
  have hdigit := isDigit_of_isNatLiteral h (List.mem_of_mem_head? hhead)
  revert hdigit
  decide

theorem unsigned_eq {text : List Char} (h : text.head? ≠ some '-') : unsigned text = text := by
  cases text with
  | nil => rfl
  | cons c text =>
    rw [unsigned]
    rintro rest heq
    cases heq
    exact h rfl

theorem isIntLiteral_intText (n : Int) : isIntLiteral (intText n) = true := by
  have hnat := isNatLiteral_natText n.natAbs
  unfold isIntLiteral intText
  split
  · exact hnat
  · rw [unsigned_eq (head?_of_isNatLiteral hnat)]
    exact hnat

/-- The text of an integer reads back. -/
theorem intValue_intText (n : Int) : intValue (intText n) = n := by
  have hhead := head?_of_isNatLiteral (isNatLiteral_natText n.natAbs)
  by_cases hneg : n < 0
  · rw [intValue, intText, if_pos hneg, if_pos (List.head?_cons ..)]
    show -(natValue (natText n.natAbs) : Int) = n
    rw [natValue_natText]
    omega
  · rw [intValue, intText, if_neg hneg, if_neg hhead, natValue_natText]
    omega

/-- The text is that of a number, as far as its characters tell. -/
def NumberText (text : List Char) : Prop :=
  (∀ c ∈ text, isNumeric c = true) ∧
    ∃ c rest, text = c :: rest ∧ (c = '-' ∨ isDigit c = true)

theorem isNumeric_of_isDigit {c : Char} (h : isDigit c = true) : isNumeric c = true := by
  simp [isNumeric, h]

theorem NumberText.of_unsigned {text : List Char}
    (hnumeric : ∀ c ∈ unsigned text, isNumeric c = true)
    (hhead : ∃ c rest, unsigned text = c :: rest ∧ isDigit c = true) : NumberText text := by
  unfold unsigned at hnumeric hhead
  split at hnumeric
  · refine ⟨fun c hc => ?_, '-', _, rfl, Or.inl rfl⟩
    rcases List.mem_cons.1 hc with rfl | hc
    · rfl
    · exact hnumeric c hc
  · rename_i hminus
    split at hhead
    · exact absurd rfl (hminus _)
    · obtain ⟨c, rest, heq, hdigit⟩ := hhead
      exact ⟨hnumeric, c, rest, heq, Or.inr hdigit⟩

theorem head_of_isNatLiteral {text : List Char} (h : isNatLiteral text = true) :
    ∃ c rest, text = c :: rest ∧ isDigit c = true := by
  obtain ⟨c, rest, rfl⟩ := List.exists_cons_of_ne_nil (isNatLiteral_ne_nil h)
  exact ⟨c, rest, rfl, isDigit_of_isNatLiteral h List.mem_cons_self⟩

theorem NumberText.of_isIntLiteral {text : List Char} (h : isIntLiteral text = true) :
    NumberText text :=
  .of_unsigned (fun _ hc => isNumeric_of_isDigit (isDigit_of_isNatLiteral h hc))
    (head_of_isNatLiteral h)

theorem isNumeric_of_isExponent {text : List Char} (h : isExponent text = true) :
    ∀ c ∈ text, isNumeric c = true := by
  have hdigits : ∀ digits : List Char, digits.all isDigit = true →
      ∀ c ∈ digits, isNumeric c = true := fun digits hall c hc =>
    isNumeric_of_isDigit (List.all_eq_true.1 hall c hc)
  unfold isExponent at h
  split at h
  · exact fun c hc => absurd hc List.not_mem_nil
  · rename_i e text
    rw [Bool.and_eq_true, Bool.or_eq_true, beq_iff_eq, beq_iff_eq] at h
    obtain ⟨he, htext⟩ := h
    intro c hc
    rcases List.mem_cons.1 hc with rfl | hc
    · rcases he with rfl | rfl <;> rfl
    · split at htext
      · cases htext
      · rename_i sign digits
        simp only [Bool.or_eq_true, Bool.and_eq_true, beq_iff_eq] at htext
        rcases htext with ⟨hsign, hall⟩ | ⟨⟨hsign, hall⟩, -⟩
        · rcases List.mem_cons.1 hc with rfl | hc
          · exact isNumeric_of_isDigit hsign
          · exact hdigits _ hall c hc
        · rcases List.mem_cons.1 hc with rfl | hc
          · rcases hsign with rfl | rfl <;> rfl
          · exact hdigits _ hall c hc

theorem isNumeric_of_isFraction {text : List Char} (h : isFraction text = true) :
    ∀ c ∈ text, isNumeric c = true := by
  unfold isFraction at h
  split at h
  · cases h
  · rename_i text
    rw [Bool.and_eq_true] at h
    intro c hc
    rcases List.mem_cons.1 hc with rfl | hc
    · rfl
    · rw [← List.takeWhile_append_dropWhile (p := isDigit) (l := text)] at hc
      rcases List.mem_append.1 hc with hc | hc
      · exact isNumeric_of_isDigit (List.mem_takeWhile_imp hc)
      · exact isNumeric_of_isExponent h.2 c hc
  · exact isNumeric_of_isExponent h

theorem NumberText.of_isFloatLiteral {text : List Char} (h : isFloatLiteral text = true) :
    NumberText text := by
  rw [isFloatLiteral, Bool.and_eq_true] at h
  refine .of_unsigned (fun c hc => ?_) ?_
  · rw [← List.takeWhile_append_dropWhile (p := isDigit) (l := unsigned text)] at hc
    rcases List.mem_append.1 hc with hc | hc
    · exact isNumeric_of_isDigit (isDigit_of_isNatLiteral h.1 hc)
    · exact isNumeric_of_isFraction h.2 c hc
  · obtain ⟨c, rest, heq, hdigit⟩ := head_of_isNatLiteral h.1
    refine ⟨c, rest ++ (unsigned text).dropWhile isDigit, ?_, hdigit⟩
    rw [← List.cons_append, ← heq, List.takeWhile_append_dropWhile]

/-- A float literal is no literal of an integer. -/
theorem not_isIntLiteral {text : List Char} (h : isFloatLiteral text = true) :
    isIntLiteral text = false := by
  rw [isFloatLiteral, Bool.and_eq_true] at h
  rw [Bool.eq_false_iff]
  intro hint
  have hnil : (unsigned text).dropWhile isDigit = [] := by
    rw [List.dropWhile_eq_nil_iff]
    exact fun c hc => isDigit_of_isNatLiteral hint hc
  rw [hnil] at h
  cases h.2

namespace FloatFormat

variable (F : FloatFormat)

theorem number_intText (n : Int) : F.number (intText n) = some (.int n) := by
  rw [number, if_pos (isIntLiteral_intText n), intValue_intText]

theorem number_text {bits : BitVec 64} (h : isFinite bits = true) :
    F.number (F.text bits) = some (.float bits) := by
  have hliteral := F.literal bits h
  have hint : ¬ isIntLiteral (F.text bits) = true := Bool.eq_false_iff.1 (not_isIntLiteral hliteral)
  rw [number, if_neg hint, if_pos hliteral, F.value_text bits h]

end FloatFormat

/-! ## Reading back documents -/

theorem skipBlanks_cons {c : Char} (h : isBlank c = false) (text : List Char) :
    skipBlanks (c :: text) = c :: text := by
  rw [skipBlanks, List.dropWhile_cons_of_neg (by rw [h]; exact Bool.false_ne_true)]

theorem skipBlanks_gap (sep : Separators) (text : List Char) :
    skipBlanks (sep.gap ++ text) = skipBlanks text := by
  cases sep with
  | compact => rfl
  | spaced => rfl

theorem gap_quote (sep : Separators) (text : List Char) :
    skipBlanks (sep.gap ++ '"' :: text) = '"' :: text := by
  rw [skipBlanks_gap, skipBlanks_cons rfl]

/-- What follows a number does not continue it. -/
def Stops (rest : List Char) : Prop := ∀ c ∈ rest.head?, isNumeric c = false

theorem stops_cons {c : Char} (h : isNumeric c = false) (rest : List Char) : Stops (c :: rest) := by
  intro d hd
  rw [List.head?_cons, Option.mem_some_iff] at hd
  exact hd ▸ h

theorem span_number {text rest : List Char} (htext : ∀ c ∈ text, isNumeric c = true)
    (hrest : Stops rest) :
    (text ++ rest).takeWhile isNumeric = text ∧ (text ++ rest).dropWhile isNumeric = rest := by
  have hnil : rest.takeWhile isNumeric = [] ∧ rest.dropWhile isNumeric = rest := by
    cases rest with
    | nil => exact ⟨rfl, rfl⟩
    | cons c rest =>
      have hc : ¬ isNumeric c = true := Bool.eq_false_iff.1 (hrest c (List.head?_cons ..))
      exact ⟨List.takeWhile_cons_of_neg hc, List.dropWhile_cons_of_neg hc⟩
  rw [List.takeWhile_append_of_pos htext, List.dropWhile_append_of_pos htext, hnil.1, hnil.2,
    List.append_nil]
  exact ⟨rfl, rfl⟩

/-- A number is read as its literal is. -/
theorem scanOnce_number (F : FloatFormat) (depth : Nat) {text rest : List Char}
    (htext : NumberText text) (hrest : Stops rest) :
    scanOnce F (depth + 1) (text ++ rest) = (F.number text).map fun value => (value, rest) := by
  obtain ⟨htake, hdrop⟩ := span_number htext.1 hrest
  obtain ⟨-, c, tail, rfl, hc⟩ := htext
  have hne : ∀ d : Char, d ≠ '-' → isDigit d = false → ∀ t, c :: (tail ++ rest) ≠ d :: t := by
    intro d hminus hdigit t heq
    rcases List.cons.inj heq with ⟨rfl, -⟩
    rcases hc with hc | hc
    · exact hminus hc
    · rw [hdigit] at hc
      cases hc
  rw [List.cons_append] at htake hdrop ⊢
  rw [scanOnce, htake, hdrop]
  -- none of the other forms starts like a number
  all_goals exact fun t heq => hne _ (by decide) (by decide) _ heq

namespace Json

/-- A key that is not there is added behind the others. -/
theorem ofPairs_eq {pairs : List (PyStr × Json)} (h : (pairs.map (·.1)).Nodup) :
    ofPairs pairs = pairs := by
  have key : ∀ (pairs members : List (PyStr × Json)), ((members ++ pairs).map (·.1)).Nodup →
      pairs.foldl (fun members pair => setItem members pair.1 pair.2) members =
        members ++ pairs := by
    intro pairs
    induction pairs with
    | nil => exact fun members _ => (List.append_nil members).symm
    | cons pair pairs ih =>
      intro members hnodup
      have hnew : members.any (·.1 == pair.1) = false := by
        rw [List.any_eq_false]
        intro m hm heq
        rw [List.map_append, List.map_cons] at hnodup
        exact (List.nodup_append.1 hnodup).2.2 _ (List.mem_map_of_mem hm) _ List.mem_cons_self
          (beq_iff_eq.1 heq)
      have hset : setItem members pair.1 pair.2 = members ++ [pair] := by
        rw [setItem, hnew]
        rfl
      rw [List.foldl_cons, hset, ih _ (by simpa using hnodup), List.append_assoc]
      rfl
  exact key pairs [] h

mutual

/-- How deep the calls of `scan_once` get, at most. -/
def size : Json → Nat
  | .null => 1
  | .bool _ => 1
  | .int _ => 1
  | .float _ => 1
  | .string _ => 1
  | .array elements => 1 + sizeElements elements
  | .object members => 1 + sizeMembers members

/-- The size of an array's elements, with one for each. -/
def sizeElements : List Json → Nat
  | [] => 0
  | value :: rest => 1 + value.size + sizeElements rest

/-- The size of an object's members, with one for each. -/
def sizeMembers : List (PyStr × Json) → Nat
  | [] => 0
  | (_, value) :: rest => 1 + value.size + sizeMembers rest

end

variable (F : FloatFormat) (sep : Separators)

/-- A document does not start with a blank, nor like the end of an array. -/
theorem head_dumps {value : Json} (h : value.sound = true) :
    ∃ c rest, value.dumps F sep = c :: rest ∧ isBlank c = false ∧ c ≠ ']' := by
  have hnumber : ∀ {text : List Char}, NumberText text →
      ∃ c rest, text = c :: rest ∧ isBlank c = false ∧ c ≠ ']' := by
    rintro text ⟨-, c, rest, rfl, hc⟩
    refine ⟨c, rest, rfl, ?_, ?_⟩
    · rcases hc with rfl | hc
      · rfl
      · rw [Bool.eq_false_iff]
        intro hblank
        simp only [isBlank, Bool.or_eq_true, beq_iff_eq] at hblank
        rcases hblank with ((rfl | rfl) | rfl) | rfl <;> cases hc
    · rintro rfl
      rcases hc with hc | hc <;> cases hc
  cases value with
  | null => exact ⟨_, _, rfl, rfl, by decide⟩
  | bool value => cases value <;> exact ⟨_, _, rfl, rfl, by decide⟩
  | int value => exact hnumber (.of_isIntLiteral (isIntLiteral_intText value))
  | float bits => exact hnumber (.of_isFloatLiteral (F.literal bits h))
  | string text => exact ⟨_, _, rfl, rfl, by decide⟩
  | array elements => cases elements <;> exact ⟨_, _, rfl, rfl, by decide⟩
  | object members =>
    rcases members with _ | ⟨⟨key, value⟩, rest⟩ <;> exact ⟨_, _, rfl, rfl, by decide⟩

theorem skipBlanks_dumps {value : Json} (h : value.sound = true) (rest : List Char) :
    skipBlanks (value.dumps F sep ++ rest) = value.dumps F sep ++ rest := by
  obtain ⟨c, tail, heq, hblank, -⟩ := head_dumps F sep h
  rw [heq, List.cons_append, skipBlanks_cons hblank]

theorem stops_dumpsElements (elements : List Json) (rest : List Char) :
    Stops (dumpsElements F sep elements ++ rest) := by
  cases elements with
  | nil => exact stops_cons rfl _
  | cons value elements => exact stops_cons rfl _

theorem stops_dumpsMembers (members : List (PyStr × Json)) (rest : List Char) :
    Stops (dumpsMembers F sep members ++ rest) := by
  rcases members with _ | ⟨⟨key, value⟩, members⟩ <;> exact stops_cons rfl _

theorem quote_append (text : PyStr) (rest : List Char) :
    quote text ++ rest = '"' :: ((text.flatMap units).flatMap escape ++ '"' :: rest) := by
  rw [quote, List.cons_append, List.append_assoc, List.singleton_append]

theorem one_le_size (value : Json) : 1 ≤ value.size := by
  cases value <;> simp [size]

end Json

section Scans

variable (F : FloatFormat) {depth : Nat} {text rest : List Char} {value : Json}

theorem scanOnce_array (hblank : skipBlanks text = text) (hne : ∀ t, text ≠ ']' :: t) :
    scanOnce F (depth + 1) ('[' :: text) =
      (scanElements F depth text).map fun p => (.array p.1, p.2) := by
  rw [scanOnce, hblank]
  split
  · exact absurd rfl (hne _)
  · rfl

theorem scanOnce_object (text : List Char) :
    scanOnce F (depth + 1) ('{' :: '"' :: text) =
      (scanMembers F depth ('"' :: text)).map fun p => (.object (Json.ofPairs p.1), p.2) := by
  rw [scanOnce]
  rfl

theorem scanElements_last (h : scanOnce F depth text = some (value, ']' :: rest)) :
    scanElements F (depth + 1) text = some ([value], rest) := by
  rw [scanElements, h]
  rfl

theorem scanElements_more (h : scanOnce F depth text = some (value, ',' :: rest)) :
    scanElements F (depth + 1) text =
      (scanElements F depth (skipBlanks rest)).map fun q => (value :: q.1, q.2) := by
  rw [scanElements, h]
  rfl

variable {key : PyStr} {text' : List Char}

theorem scanMembers_last (hkey : scanString text = some (key, ':' :: text'))
    (h : scanOnce F depth (skipBlanks text') = some (value, '}' :: rest)) :
    scanMembers F (depth + 1) ('"' :: text) = some ([(key, value)], rest) := by
  rw [scanMembers, hkey]
  show (scanOnce F depth (skipBlanks text')).bind _ = _
  rw [h]
  rfl

theorem scanMembers_more (hkey : scanString text = some (key, ':' :: text'))
    (h : scanOnce F depth (skipBlanks text') = some (value, ',' :: rest)) :
    scanMembers F (depth + 1) ('"' :: text) =
      (scanMembers F depth (skipBlanks rest)).map fun q => ((key, value) :: q.1, q.2) := by
  rw [scanMembers, hkey]
  show (scanOnce F depth (skipBlanks text')).bind _ = _
  rw [h]
  rfl

end Scans

namespace Json

variable (F : FloatFormat) (sep : Separators)

mutual

/-- A value is read from its text, whatever follows it. -/
theorem scanOnce_dumps : ∀ (value : Json) (depth : Nat) (rest : List Char), value.sound = true →
    value.size ≤ depth → Stops rest →
    scanOnce F depth (value.dumps F sep ++ rest) = some (value, rest)
  | value, 0, _, _, hdepth, _ => absurd (value.one_le_size.trans hdepth) (by decide)
  | .null, depth + 1, rest, _, _, _ => by
    rw [dumps]
    rfl
  | .bool true, depth + 1, rest, _, _, _ => by
    rw [dumps]
    rfl
  | .bool false, depth + 1, rest, _, _, _ => by
    rw [dumps]
    rfl
  | .int value, depth + 1, rest, _, _, hrest => by
    rw [dumps, scanOnce_number F depth (.of_isIntLiteral (isIntLiteral_intText value)) hrest,
      F.number_intText]
    rfl
  | .float bits, depth + 1, rest, hsound, _, hrest => by
    rw [dumps, scanOnce_number F depth (.of_isFloatLiteral (F.literal bits hsound)) hrest,
      F.number_text hsound]
    rfl
  | .string text, depth + 1, rest, hsound, _, _ => by
    rw [dumps, quote_append, scanOnce, scanString_quote hsound]
    rfl
  | .array [], depth + 1, rest, _, _, _ => by
    rw [dumps]
    rfl
  | .array (value :: values), depth + 1, rest, hsound, hdepth, _ => by
    rw [sound, soundElements, Bool.and_eq_true] at hsound
    rw [size, sizeElements] at hdepth
    have hscan := scanElements_dumps value values depth rest hsound.1 hsound.2 (by omega)
    obtain ⟨c, tail, heq, -, hne⟩ := head_dumps F sep hsound.1
    rw [dumps, List.cons_append, List.append_assoc,
      scanOnce_array F (skipBlanks_dumps F sep hsound.1 _) fun t ht => ?_, hscan]
    · rfl
    · rw [heq, List.cons_append] at ht
      exact hne (List.cons.inj ht).1
  | .object [], depth + 1, rest, _, _, _ => by
    rw [dumps]
    rfl
  | .object ((key, value) :: members), depth + 1, rest, hsound, hdepth, _ => by
    rw [sound, Bool.and_eq_true, decide_eq_true_eq, soundMembers, Bool.and_eq_true,
      Bool.and_eq_true] at hsound
    obtain ⟨hnodup, ⟨hkey, hvalue⟩, hmembers⟩ := hsound
    rw [size, sizeMembers] at hdepth
    have hscan := scanMembers_dumps key value members depth rest hkey hvalue hmembers (by omega)
    rw [quote_append] at hscan
    rw [dumps, List.cons_append, List.append_assoc, quote_append, scanOnce_object]
    simp only [List.cons_append, List.append_assoc]
    rw [hscan, Option.map_some, ofPairs_eq hnodup]

theorem scanElements_dumps : ∀ (value : Json) (values : List Json) (depth : Nat)
    (rest : List Char), value.sound = true → soundElements values = true →
    1 + value.size + sizeElements values ≤ depth →
    scanElements F depth (value.dumps F sep ++ (dumpsElements F sep values ++ rest)) =
      some (value :: values, rest)
  | _, _, 0, _, _, _, hdepth => by omega
  | value, values, depth + 1, rest, hvalue, hvalues, hdepth => by
    have hfirst := scanOnce_dumps value depth (dumpsElements F sep values ++ rest) hvalue
      (by omega) (stops_dumpsElements F sep _ _)
    cases values with
    | nil => exact scanElements_last F hfirst
    | cons next values =>
      rw [soundElements, Bool.and_eq_true] at hvalues
      rw [sizeElements] at hdepth
      have hscan := scanElements_dumps next values depth rest hvalues.1 hvalues.2 (by omega)
      rw [dumpsElements, List.cons_append, List.append_assoc, List.append_assoc] at hfirst ⊢
      rw [scanElements_more F hfirst, skipBlanks_gap, skipBlanks_dumps F sep hvalues.1, hscan]
      rfl

theorem scanMembers_dumps : ∀ (key : PyStr) (value : Json) (members : List (PyStr × Json))
    (depth : Nat) (rest : List Char), key.all isScalar = true → value.sound = true →
    soundMembers members = true → 1 + value.size + sizeMembers members ≤ depth →
    scanMembers F depth (quote key ++ ':' :: (sep.gap ++ (value.dumps F sep ++
      (dumpsMembers F sep members ++ rest)))) = some ((key, value) :: members, rest)
  | _, _, _, 0, _, _, _, _, hdepth => by omega
  | key, value, members, depth + 1, rest, hkey, hvalue, hmembers, hdepth => by
    have hfirst := scanOnce_dumps value depth (dumpsMembers F sep members ++ rest) hvalue
      (by omega) (stops_dumpsMembers F sep _ _)
    rw [← skipBlanks_dumps F sep hvalue, ← skipBlanks_gap sep] at hfirst
    rw [quote_append]
    rcases members with _ | ⟨⟨nextKey, next⟩, members⟩
    · exact scanMembers_last F (scanString_quote hkey _) hfirst
    · rw [soundMembers, Bool.and_eq_true, Bool.and_eq_true] at hmembers
      obtain ⟨⟨hnextKey, hnext⟩, hmembers⟩ := hmembers
      rw [sizeMembers] at hdepth
      have hscan := scanMembers_dumps nextKey next members depth rest hnextKey hnext hmembers
        (by omega)
      rw [quote_append] at hscan
      simp only [dumpsMembers, List.cons_append, List.append_assoc, quote_append] at hfirst ⊢
      rw [scanMembers_more F (scanString_quote hkey _) hfirst, gap_quote, hscan]
      rfl

end

mutual

theorem size_le_length :
    ∀ value : Json, value.sound = true → value.size ≤ (value.dumps F sep).length
  | .null, _ => by simp [size, dumps]
  | .bool true, _ => by simp [size, dumps]
  | .bool false, _ => by simp [size, dumps]
  | .int value, _ => by
    obtain ⟨-, c, rest, heq, -⟩ := NumberText.of_isIntLiteral (isIntLiteral_intText value)
    simp [size, dumps, heq]
  | .float bits, hsound => by
    obtain ⟨-, c, rest, heq, -⟩ := NumberText.of_isFloatLiteral (F.literal bits hsound)
    simp [size, dumps, heq]
  | .string text, _ => by simp [size, dumps, quote]
  | .array [], _ => by simp [size, sizeElements, dumps]
  | .array (value :: rest), hsound => by
    rw [sound, soundElements, Bool.and_eq_true] at hsound
    have hvalue := size_le_length value hsound.1
    have hrest := sizeElements_lt_length rest hsound.2
    simp only [size, sizeElements, dumps, List.length_cons, List.length_append]
    omega
  | .object [], _ => by simp [size, sizeMembers, dumps]
  | .object ((key, value) :: rest), hsound => by
    rw [sound, Bool.and_eq_true, soundMembers, Bool.and_eq_true, Bool.and_eq_true] at hsound
    have hvalue := size_le_length value hsound.2.1.2
    have hrest := sizeMembers_lt_length rest hsound.2.2
    simp only [size, sizeMembers, dumps, List.length_cons, List.length_append]
    omega

theorem sizeElements_lt_length : ∀ values : List Json, soundElements values = true →
    sizeElements values < (dumpsElements F sep values).length
  | [], _ => by simp [sizeElements, dumpsElements]
  | value :: rest, hsound => by
    rw [soundElements, Bool.and_eq_true] at hsound
    have hvalue := size_le_length value hsound.1
    have hrest := sizeElements_lt_length rest hsound.2
    simp only [sizeElements, dumpsElements, List.length_cons, List.length_append]
    omega

theorem sizeMembers_lt_length : ∀ members : List (PyStr × Json), soundMembers members = true →
    sizeMembers members < (dumpsMembers F sep members).length
  | [], _ => by simp [sizeMembers, dumpsMembers]
  | (key, value) :: rest, hsound => by
    rw [soundMembers, Bool.and_eq_true, Bool.and_eq_true] at hsound
    have hvalue := size_le_length value hsound.1.2
    have hrest := sizeMembers_lt_length rest hsound.2
    simp only [sizeMembers, dumpsMembers, List.length_cons, List.length_append]
    omega

end

end Json

/-- What `json.dumps` wrote, with either separators, `json.loads` reads back. -/
theorem loads_dumps (F : FloatFormat) (sep : Separators) {value : Json}
    (h : value.sound = true) : loads F (value.dumps F sep) = some value := by
  have hskip := Json.skipBlanks_dumps F sep h []
  have hsize := Json.size_le_length F sep value h
  have hscan := Json.scanOnce_dumps F sep value ((value.dumps F sep).length + 1) [] h (by omega)
    fun c hc => absurd hc (by simp)
  rw [List.append_nil] at hskip hscan
  rw [loads, hskip, hscan]
  rfl

end SmartLogistics.Platform
