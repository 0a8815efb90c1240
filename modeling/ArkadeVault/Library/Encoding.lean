import Mathlib
import ArkadeVault.Library.Bytes

/-!
# Hexadecimal, decimal, base64 and JSON texts

Text encodings with their readers. `hexEncode` writes two lower-case digits per byte, and
`hexDecode` reads digits of either case. `decimalDigits` writes a number without leading zeros, and
`readDecimal` reads any digits. `base64Decode` reads the padded standard alphabet and skips line
breaks; `rawURLEncode` and `rawURLDecode` are the encoding in the URL alphabet without padding.
`jsonStrings` writes a list of strings as a compact JSON array with the escapes of an HTML-safe
encoder, and `readStrings` reads any JSON array of strings: white space, every escape, surrogate
pairs and `null`.

`hexDecode_hexEncode`, `readDecimal_decimalDigits` and `readStrings_jsonStrings` are the round
trips, so that a stored text determines what was encoded.
-/

set_option autoImplicit false
set_option relaxedAutoImplicit false

namespace ArkadeVault.Library

/-! ### Hexadecimal -/

/-- The lower-case digit of a number below sixteen. -/
def hexDigit (value : ℕ) : Char := "0123456789abcdef".toList.getD value '0'

/-- The value of a digit of either case. -/
def hexValue (digit : Char) : Option ℕ :=
  if '0' ≤ digit ∧ digit ≤ '9' then some (digit.toNat - 48)
  else if 'a' ≤ digit ∧ digit ≤ 'f' then some (digit.toNat - 87)
  else if 'A' ≤ digit ∧ digit ≤ 'F' then some (digit.toNat - 55)
  else none

/-- The two digits of a byte. -/
def hexByte (byte : UInt8) : List Char :=
  [hexDigit (byte.toNat / 16), hexDigit (byte.toNat % 16)]

/-- The text of a byte string, two lower-case digits per byte. -/
def hexEncode (bytes : Bytes) : String := String.ofList (bytes.flatMap hexByte)

/-- The bytes of a list of digits, which must be even in number. -/
def hexBytes : List Char → Option Bytes
  | [] => some []
  | [_] => none
  | high :: low :: rest => do
    let first ← hexValue high
    let second ← hexValue low
    let bytes ← hexBytes rest
    pure (UInt8.ofNat (16 * first + second) :: bytes)

def hexDecode (text : String) : Option Bytes := hexBytes text.toList

theorem hexValue_hexDigit : ∀ value < 16, hexValue (hexDigit value) = some value := by
  decide

theorem hexBytes_flatMap (bytes : Bytes) : hexBytes (bytes.flatMap hexByte) = some bytes := by
  induction bytes with
  | nil => rfl
  | cons byte rest ih =>
    have hbyte := byte.toNat_lt
    have hhigh := hexValue_hexDigit (byte.toNat / 16) (by omega)
    have hlow := hexValue_hexDigit (byte.toNat % 16) (by omega)
    have hvalue : 16 * (byte.toNat / 16) + byte.toNat % 16 = byte.toNat := by omega
    rw [List.flatMap_cons, hexByte, List.cons_append, List.cons_append, List.nil_append, hexBytes,
      hhigh, hlow, ih]
    show some (UInt8.ofNat (16 * (byte.toNat / 16) + byte.toNat % 16) :: rest) = _
    rw [hvalue, UInt8.ofNat_toNat]

/-- A digit has a value when it is, in lower case, the digit of that value. -/
theorem hexValue_eq_some {digit : Char} {value : ℕ} :
    hexValue digit = some value ↔ value < 16 ∧ digit.toLower = hexDigit value := by
  by_cases hascii : digit.toNat < 128
  · have htable : ∀ code < 128, ∀ value < 16, hexValue (Char.ofNat code) = some value ↔
        (Char.ofNat code).toLower = hexDigit value := by decide +kernel
    have hbound : ∀ code < 128, ∀ value, hexValue (Char.ofNat code) = some value → value < 16 := by
      have hall : ∀ code < 128, ∀ value ∈ hexValue (Char.ofNat code), value < 16 := by
        decide +kernel
      exact hall
    have hcode := Char.ofNat_toNat digit
    constructor
    · intro hvalue
      have hsmall := hbound _ hascii value (by rwa [hcode])
      exact ⟨hsmall, hcode ▸ (htable _ hascii value hsmall).mp (by rwa [hcode])⟩
    · rintro ⟨hsmall, hlower⟩
      exact hcode ▸ (htable _ hascii value hsmall).mpr (by rwa [hcode])
  · have hdigits : ∀ value < 16, (hexDigit value).toNat < 128 := by decide
    have hhigh : ∀ limit : Char, limit.toNat < 128 → ¬ digit ≤ limit := by
      intro limit hlimit hle
      have hle' : digit.toNat ≤ limit.toNat := hle
      omega
    have hnone : hexValue digit = none := by
      simp [hexValue, hhigh '9' (by decide), hhigh 'f' (by decide), hhigh 'F' (by decide)]
    have hsame : digit.toLower = digit := by
      rw [Char.toLower, dif_neg]
      exact fun hupper ↦ hhigh 'Z' (by decide) hupper.2
    simp only [hnone, reduceCtorEq, hsame, false_iff, not_and]
    intro hvalue hdigit
    exact hascii (hdigit ▸ hdigits value hvalue)

/-- The digits of either case that a byte string is read from. -/
theorem hexBytes_eq_some {digits : List Char} {bytes : Bytes} :
    hexBytes digits = some bytes ↔ digits.map Char.toLower = bytes.flatMap hexByte := by
  induction digits using hexBytes.induct generalizing bytes with
  | case1 => cases bytes <;> simp [hexBytes, hexByte]
  | case2 digit => cases bytes <;> simp [hexBytes, hexByte]
  | case3 high low rest ih =>
    cases bytes with
    | nil => simp [hexBytes, Option.bind_eq_some_iff]
    | cons byte bytes =>
      have hsmall := byte.toNat_lt
      simp only [hexBytes, Option.bind_eq_bind, Option.bind_eq_some_iff, hexValue_eq_some, ih,
        Option.pure_def, Option.some.injEq, List.cons.injEq, List.map_cons, List.flatMap_cons,
        hexByte, List.cons_append, List.nil_append]
      constructor
      · rintro ⟨first, ⟨hfirst, hhigh⟩, second, ⟨hsecond, hlow⟩, _, hrest, rfl, rfl⟩
        have hbyte : (UInt8.ofNat (16 * first + second)).toNat = 16 * first + second := by
          rw [UInt8.toNat_ofNat', Nat.mod_eq_of_lt (by omega)]
        rw [hbyte, hhigh, hlow, hrest]
        exact ⟨congrArg hexDigit (by omega), congrArg hexDigit (by omega), rfl⟩
      · rintro ⟨hhigh, hlow, hrest⟩
        refine ⟨byte.toNat / 16, ⟨by omega, hhigh⟩, byte.toNat % 16, ⟨by omega, hlow⟩, bytes, hrest,
          ?_, rfl⟩
        rw [Nat.div_add_mod, UInt8.ofNat_toNat]

/-- A byte string reads back from its hexadecimal text. -/
@[simp] theorem hexDecode_hexEncode (bytes : Bytes) : hexDecode (hexEncode bytes) = some bytes := by
  simp [hexDecode, hexEncode, hexBytes_flatMap]

theorem hexEncode_injective : Function.Injective hexEncode := by
  intro left right hequal
  have hread := congrArg hexDecode hequal
  simpa using hread

theorem isSpace_hexDigit : ∀ value < 16, isSpace (hexDigit value) = false := by
  decide

/-- Every character of an encoded byte string is a digit. -/
theorem mem_hexEncode {bytes : Bytes} {c : Char} (hc : c ∈ (hexEncode bytes).toList) :
    ∃ value < 16, c = hexDigit value := by
  rw [hexEncode, String.toList_ofList, List.mem_flatMap] at hc
  obtain ⟨byte, -, hdigit⟩ := hc
  have hbyte := byte.toNat_lt
  simp only [hexByte, List.mem_cons, List.not_mem_nil, or_false] at hdigit
  rcases hdigit with rfl | rfl
  · exact ⟨byte.toNat / 16, by omega, rfl⟩
  · exact ⟨byte.toNat % 16, by omega, rfl⟩

/-- Hexadecimal text has no white space to trim. -/
@[simp] theorem trimSpace_hexEncode (bytes : Bytes) :
    trimSpace (hexEncode bytes) = hexEncode bytes := by
  refine trimSpace_of_forall fun c hc ↦ ?_
  obtain ⟨value, hvalue, rfl⟩ := mem_hexEncode hc
  exact isSpace_hexDigit value hvalue

theorem length_hexEncode (bytes : Bytes) : (hexEncode bytes).toList.length = 2 * bytes.length := by
  simp only [hexEncode, String.toList_ofList]
  induction bytes with
  | nil => rfl
  | cons byte rest ih =>
    rw [List.flatMap_cons, List.length_append, ih, List.length_cons]
    simp only [hexByte, List.length_cons, List.length_nil]
    omega

/-! ### Decimal -/

/-- The digit of a number below ten. -/
def decimalDigit (value : ℕ) : Char := Char.ofNat (48 + value)

/-- The decimal digits of a number, most significant first and without leading zeros. -/
def decimalDigits (number : ℕ) : List Char :=
  if number = 0 then ['0'] else (Nat.digits 10 number).reverse.map decimalDigit

def isDecimalDigit (c : Char) : Bool := '0' ≤ c && c ≤ '9'

/-- The number written by at least one decimal digit. -/
def readDecimal (digits : List Char) : Option ℕ :=
  if digits ≠ [] ∧ digits.all isDecimalDigit = true then
    some (digits.foldl (fun value digit ↦ 10 * value + (digit.toNat - 48)) 0)
  else none

theorem decimalDigit_spec : ∀ value < 10,
    isDecimalDigit (decimalDigit value) = true ∧ (decimalDigit value).toNat - 48 = value := by
  decide

/-- Every character of a written number is a digit. -/
theorem isDecimalDigit_of_mem {number : ℕ} {c : Char} (hc : c ∈ decimalDigits number) :
    isDecimalDigit c = true := by
  unfold decimalDigits at hc
  split at hc
  · rw [List.mem_singleton.mp hc]
    decide
  · obtain ⟨value, hvalue, rfl⟩ := List.mem_map.mp hc
    exact (decimalDigit_spec value
      (Nat.digits_lt_base (by norm_num) (List.mem_reverse.mp hvalue))).1

/-- `strconv.ParseUint` with base ten and 64 bits. -/
def parseUint64 (text : List Char) : Option ℕ :=
  (readDecimal text).filter fun number ↦ number < 2 ^ 64

theorem readDecimal_decimalDigits (number : ℕ) :
    readDecimal (decimalDigits number) = some number := by
  have hall : (decimalDigits number).all isDecimalDigit = true :=
    List.all_eq_true.mpr fun _ ↦ isDecimalDigit_of_mem
  by_cases hzero : number = 0
  · subst hzero
    decide
  have hdigits : ∀ digits : List ℕ, (∀ digit ∈ digits, digit < 10) →
      digits.foldr (fun digit value ↦ 10 * value + ((decimalDigit digit).toNat - 48)) 0 =
        Nat.ofDigits 10 digits := by
    intro digits hlt
    induction digits with
    | nil => rfl
    | cons digit rest ih =>
      rw [List.foldr_cons, ih fun other hother ↦ hlt other (List.mem_cons_of_mem _ hother),
        (decimalDigit_spec digit (hlt digit List.mem_cons_self)).2, Nat.ofDigits_cons,
        Nat.add_comm]
  have hne : decimalDigits number ≠ [] := by
    simp [decimalDigits, hzero, Nat.digits_eq_nil_iff_eq_zero]
  rw [readDecimal, if_pos ⟨hne, hall⟩, decimalDigits, if_neg hzero, List.foldl_map,
    List.foldl_reverse, hdigits _ fun _ hdigit ↦ Nat.digits_lt_base (by norm_num) hdigit,
    Nat.ofDigits_digits]

/-! ### Base64 -/

/-- The value of a character of the standard alphabet. -/
def base64Value (c : Char) : Option ℕ :=
  if 'A' ≤ c ∧ c ≤ 'Z' then some (c.toNat - 65)
  else if 'a' ≤ c ∧ c ≤ 'z' then some (c.toNat - 71)
  else if '0' ≤ c ∧ c ≤ '9' then some (c.toNat + 4)
  else if c = '+' then some 62
  else if c = '/' then some 63
  else none

/-- The bytes of groups of four characters, of which the last may be padded. -/
def base64Bytes : List Char → Option Bytes
  | [] => some []
  | [a, b, '=', '='] => do
    let first ← base64Value a
    let second ← base64Value b
    pure [UInt8.ofNat ((first * 64 + second) / 16)]
  | [a, b, c, '='] => do
    let first ← base64Value a
    let second ← base64Value b
    let third ← base64Value c
    let word := (first * 64 + second) * 64 + third
    pure [UInt8.ofNat (word / 1024), UInt8.ofNat (word / 4)]
  | a :: b :: c :: d :: rest => do
    let first ← base64Value a
    let second ← base64Value b
    let third ← base64Value c
    let fourth ← base64Value d
    let word := ((first * 64 + second) * 64 + third) * 64 + fourth
    let bytes ← base64Bytes rest
    pure (UInt8.ofNat (word / 65536) :: UInt8.ofNat (word / 256) :: UInt8.ofNat word :: bytes)
  | _ => none

def base64Decode (text : String) : Option Bytes :=
  base64Bytes (text.toList.filter fun c ↦ c ≠ '\r' && c ≠ '\n')

example : base64Decode "cHNidP8=" = some [0x70, 0x73, 0x62, 0x74, 0xff] := by decide +kernel

/-- The character of a six-bit value in the URL alphabet. -/
def rawURLChar (value : ℕ) : Char :=
  "ABCDEFGHIJKLMNOPQRSTUVWXYZabcdefghijklmnopqrstuvwxyz0123456789-_".toList.getD (value % 64) 'A'

/-- The value of a character of the URL alphabet. -/
def rawURLValue (c : Char) : Option ℕ :=
  if c = '-' then some 62 else if c = '_' then some 63
  else if c = '+' ∨ c = '/' then none else base64Value c

def rawURLChars : Bytes → List Char
  | [] => []
  | [a] => [rawURLChar (a.toNat / 4), rawURLChar (a.toNat * 16)]
  | [a, b] =>
    let word := a.toNat * 256 + b.toNat
    [rawURLChar (word / 1024), rawURLChar (word / 16), rawURLChar (word * 4)]
  | a :: b :: c :: rest =>
    let word := (a.toNat * 256 + b.toNat) * 256 + c.toNat
    rawURLChar (word / 262144) :: rawURLChar (word / 4096) :: rawURLChar (word / 64) ::
      rawURLChar word :: rawURLChars rest

def rawURLEncode (bytes : Bytes) : String := String.ofList (rawURLChars bytes)

theorem length_rawURLChars (bytes : Bytes) :
    (rawURLChars bytes).length = (4 * bytes.length + 2) / 3 := by
  fun_induction rawURLChars bytes with
  | case1 => rfl
  | case2 => simp
  | case3 => simp
  | case4 a b c rest word ih =>
    simp only [List.length_cons, ih]
    omega

/-- The bytes of groups of four characters, of which the last may be short. -/
def rawURLBytes : List Char → Option Bytes
  | [] => some []
  | [_] => none
  | [a, b] => do
    let first ← rawURLValue a
    let second ← rawURLValue b
    pure [UInt8.ofNat ((first * 64 + second) / 16)]
  | [a, b, c] => do
    let first ← rawURLValue a
    let second ← rawURLValue b
    let third ← rawURLValue c
    let word := (first * 64 + second) * 64 + third
    pure [UInt8.ofNat (word / 1024), UInt8.ofNat (word / 4)]
  | a :: b :: c :: d :: rest => do
    let first ← rawURLValue a
    let second ← rawURLValue b
    let third ← rawURLValue c
    let fourth ← rawURLValue d
    let word := ((first * 64 + second) * 64 + third) * 64 + fourth
    let bytes ← rawURLBytes rest
    pure (UInt8.ofNat (word / 65536) :: UInt8.ofNat (word / 256) :: UInt8.ofNat word :: bytes)

def rawURLDecode (text : String) : Option Bytes :=
  rawURLBytes (text.toList.filter fun c ↦ c ≠ '\r' && c ≠ '\n')

example : rawURLDecode (rawURLEncode [0xfb, 0xef, 0xff, 0x01]) = some [0xfb, 0xef, 0xff, 0x01] := by
  decide +kernel

/-! ### JSON strings -/

/-- The escape `\u` with four digits. -/
def unicodeEscape (code : ℕ) : List Char :=
  ['\\', 'u', hexDigit (code / 4096 % 16), hexDigit (code / 256 % 16), hexDigit (code / 16 % 16),
    hexDigit (code % 16)]

/-- The letter of the two-character escape of a character, if it has one. -/
def shortEscape (c : Char) : Option Char :=
  if c = '"' then some '"'
  else if c = '\\' then some '\\'
  else if c = '\x08' then some 'b'
  else if c = '\x0c' then some 'f'
  else if c = '\n' then some 'n'
  else if c = '\r' then some 'r'
  else if c = '\t' then some 't'
  else none

/-- The other characters that an HTML-safe encoder does not write as they are. -/
def codeEscaped (c : Char) : Prop :=
  c.toNat < 32 ∨ c = '<' ∨ c = '>' ∨ c = '&' ∨ c.toNat = 0x2028 ∨ c.toNat = 0x2029

instance : DecidablePred codeEscaped := fun c ↦
  inferInstanceAs (Decidable (c.toNat < 32 ∨ c = '<' ∨ c = '>' ∨ c = '&' ∨ c.toNat = 0x2028 ∨
    c.toNat = 0x2029))

/-- One character as an HTML-safe JSON encoder writes it. -/
def jsonChar (c : Char) : List Char :=
  match shortEscape c with
  | some letter => ['\\', letter]
  | none => if codeEscaped c then unicodeEscape c.toNat else [c]

/-- A text as a JSON string. -/
def jsonString (text : String) : List Char := '"' :: text.toList.flatMap jsonChar ++ ['"']

/-- The value of four digits. -/
def hexUnit (a b c d : Char) : Option ℕ := do
  let first ← hexValue a
  let second ← hexValue b
  let third ← hexValue c
  let fourth ← hexValue d
  pure (4096 * first + 256 * second + 16 * third + fourth)

/-- The character of an escape letter other than `u`. -/
def simpleEscape : Char → Option Char
  | '"' => some '"'
  | '\\' => some '\\'
  | '/' => some '/'
  | 'b' => some '\x08'
  | 'f' => some '\x0c'
  | 'n' => some '\n'
  | 'r' => some '\r'
  | 't' => some '\t'
  | _ => none

/-- The units of a JSON string behind its opening quote, and what follows the closing one. A unit is
a character or an escaped code. -/
def readUnits : List Char → Option (List (Char ⊕ ℕ) × List Char)
  | [] => none
  | '"' :: rest => some ([], rest)
  | '\\' :: 'u' :: a :: b :: c :: d :: rest => do
    let code ← hexUnit a b c d
    let read ← readUnits rest
    pure (.inr code :: read.1, read.2)
  | '\\' :: letter :: rest => do
    let c ← simpleEscape letter
    let read ← readUnits rest
    pure (.inl c :: read.1, read.2)
  | c :: rest =>
    if c.toNat < 32 ∨ c = '\\' then none
    else (readUnits rest).map fun read ↦ (.inl c :: read.1, read.2)

/-- Join each escaped surrogate pair into its character. -/
def joinUnits : List (Char ⊕ ℕ) → List (Char ⊕ ℕ)
  | [] => []
  | .inl c :: rest => .inl c :: joinUnits rest
  | .inr high :: rest =>
    match joinUnits rest with
    | .inr low :: more =>
      if 0xD800 ≤ high ∧ high < 0xDC00 ∧ 0xDC00 ≤ low ∧ low < 0xE000 then
        .inl (Char.ofNat ((high - 0xD800) * 1024 + (low - 0xDC00) + 0x10000)) :: more
      else .inr high :: .inr low :: more
    | joined => .inr high :: joined

/-- The character of a unit; half a surrogate pair is the replacement character. -/
def unitChar : Char ⊕ ℕ → Char
  | .inl c => c
  | .inr code => if 0xD800 ≤ code ∧ code < 0xE000 then '\uFFFD' else Char.ofNat code

/-- The text of a JSON string behind its opening quote, and what follows the closing one. -/
def readString (chars : List Char) : Option (String × List Char) :=
  (readUnits chars).map fun read ↦ (String.ofList ((joinUnits read.1).map unitChar), read.2)

example : readString "a\\u003c\\ud83d\\ude00\\n\"x".toList = some ("a<😀\n", ['x']) := by
  decide +kernel

/-- The unit that one written character is read as. -/
def writtenUnit (c : Char) : Char ⊕ ℕ :=
  if shortEscape c = none ∧ codeEscaped c then .inr c.toNat else .inl c

theorem simpleEscape_of_shortEscape {c letter : Char} (hshort : shortEscape c = some letter) :
    simpleEscape letter = some c ∧ letter ≠ 'u' := by
  unfold shortEscape at hshort
  split_ifs at hshort <;> cases hshort <;> subst_vars <;> decide

theorem codeEscaped_lt {c : Char} (hcoded : codeEscaped c) : c.toNat < 0x3000 := by
  rcases hcoded with hcontrol | rfl | rfl | rfl | hline | hparagraph
  · omega
  · decide
  · decide
  · decide
  · omega
  · omega

theorem hexUnit_unicodeEscape {code : ℕ} (hcode : code < 65536) :
    hexUnit (hexDigit (code / 4096 % 16)) (hexDigit (code / 256 % 16)) (hexDigit (code / 16 % 16))
      (hexDigit (code % 16)) = some code := by
  have hvalue := hexValue_hexDigit
  rw [hexUnit, hvalue _ (by omega), hvalue _ (by omega), hvalue _ (by omega), hvalue _ (by omega)]
  show some _ = some code
  congr 1
  omega

/-- A written character is read as one unit. -/
theorem readUnits_jsonChar (c : Char) (rest : List Char) :
    readUnits (jsonChar c ++ rest) =
      (readUnits rest).map fun read ↦ (writtenUnit c :: read.1, read.2) := by
  unfold jsonChar writtenUnit
  cases hshort : shortEscape c with
  | some letter =>
    obtain ⟨hsimple, hletter⟩ := simpleEscape_of_shortEscape hshort
    show readUnits ('\\' :: letter :: rest) = _
    rw [readUnits.eq_4 _ _ (by intro a b c d more heq; exact absurd heq hletter), hsimple]
    cases readUnits rest <;> simp
  | none =>
    by_cases hcoded : codeEscaped c
    · have hlt : c.toNat < 65536 := by
        have := codeEscaped_lt hcoded
        omega
      have hunit := hexUnit_unicodeEscape hlt
      simp only [if_pos hcoded, unicodeEscape, List.cons_append, List.nil_append, readUnits, hunit]
      cases readUnits rest <;> simp [hcoded]
    · simp only [if_neg hcoded, List.singleton_append]
      have hquote : c ≠ '"' := by
        rintro rfl
        simp [shortEscape] at hshort
      have hslash : c ≠ '\\' := by
        rintro rfl
        simp [shortEscape] at hshort
      have hcontrol : ¬ c.toNat < 32 := fun hlt ↦ hcoded (.inl hlt)
      rw [readUnits.eq_5 _ _ hquote (fun _ _ _ _ _ heq ↦ absurd heq hslash)
        (fun _ _ heq ↦ absurd heq hslash), if_neg (by simp [hcontrol, hslash])]
      simp [hcoded]

theorem readUnits_flatMap (chars rest : List Char) :
    readUnits (chars.flatMap jsonChar ++ '"' :: rest) = some (chars.map writtenUnit, rest) := by
  induction chars with
  | nil => rfl
  | cons c chars ih =>
    rw [List.flatMap_cons, List.append_assoc, readUnits_jsonChar, ih]
    rfl

theorem writtenUnit_cases (c : Char) :
    writtenUnit c = .inl c ∨ writtenUnit c = .inr c.toNat ∧ c.toNat < 0x3000 := by
  unfold writtenUnit
  by_cases hcoded : shortEscape c = none ∧ codeEscaped c
  · rw [if_pos hcoded]
    exact .inr ⟨rfl, codeEscaped_lt hcoded.2⟩
  · rw [if_neg hcoded]
    exact .inl rfl

theorem unitChar_writtenUnit (c : Char) : unitChar (writtenUnit c) = c := by
  rcases writtenUnit_cases c with hchar | ⟨hcode, hlt⟩
  · rw [hchar]
    rfl
  · rw [hcode]
    show (if 0xD800 ≤ c.toNat ∧ c.toNat < 0xE000 then '\uFFFD' else Char.ofNat c.toNat) = c
    rw [if_neg (by omega), Char.ofNat_toNat]

/-- No written unit is half a surrogate pair. -/
theorem joinUnits_written (chars : List Char) :
    joinUnits (chars.map writtenUnit) = chars.map writtenUnit := by
  induction chars with
  | nil => rfl
  | cons c chars ih =>
    rw [List.map_cons]
    rcases writtenUnit_cases c with hchar | ⟨hcode, hlt⟩
    · rw [hchar, joinUnits, ih]
    · rw [hcode, joinUnits, ih]
      split
      · rename_i low more hmore
        rw [if_neg (by omega), hmore]
      · rfl

/-- A JSON string reads back as its text. -/
theorem readString_jsonString (text : String) (rest : List Char) :
    readString (text.toList.flatMap jsonChar ++ '"' :: rest) = some (text, rest) := by
  have hchars : (text.toList.map writtenUnit).map unitChar = text.toList := by
    rw [List.map_map]
    exact List.map_id'' unitChar_writtenUnit _
  rw [readString, readUnits_flatMap, Option.map_some, joinUnits_written, hchars,
    String.ofList_toList]

/-! ### JSON arrays of strings -/

/-- The items of an array, separated by commas. -/
def jsonItems : List String → List Char
  | [] => []
  | [text] => jsonString text
  | text :: rest => jsonString text ++ ',' :: jsonItems rest

/-- A list of strings as a JSON array. -/
def jsonStrings (texts : List String) : String := String.ofList ('[' :: jsonItems texts ++ [']'])

/-- JSON white space is skipped. -/
def skipBlank (chars : List Char) : List Char :=
  chars.dropWhile fun c ↦ c = ' ' || c = '\t' || c = '\n' || c = '\r'

/-- One item: a string, or `null`, which leaves the zero value. -/
def readItem : List Char → Option (String × List Char)
  | '"' :: rest => readString rest
  | 'n' :: 'u' :: 'l' :: 'l' :: rest => some ("", rest)
  | _ => none

/-- At most `bound` items and the closing bracket. -/
def readItems : ℕ → List Char → Option (List String × List Char)
  | 0, _ => none
  | bound + 1, chars => do
    let item ← readItem (skipBlank chars)
    match skipBlank item.2 with
    | ']' :: rest => pure ([item.1], rest)
    | ',' :: rest =>
      let items ← readItems bound rest
      pure (item.1 :: items.1, items.2)
    | _ => none

/-- The value, if nothing but white space is left. -/
def atEnd {α : Type} (value : α) (rest : List Char) : Option α :=
  if skipBlank rest = [] then some value else none

/-- A JSON array of strings, or `null`. -/
def readStrings (text : String) : Option (List String) :=
  match skipBlank text.toList with
  | '[' :: rest =>
    match skipBlank rest with
    | ']' :: more => atEnd [] more
    | items => do
      let read ← readItems items.length items
      atEnd read.1 read.2
  | 'n' :: 'u' :: 'l' :: 'l' :: rest => atEnd [] rest
  | _ => none

example : readStrings " [ \"a\" ,null]\n" = some ["a", ""] := by decide +kernel

theorem readItem_jsonString (text : String) (rest : List Char) :
    readItem (skipBlank (jsonString text ++ rest)) = some (text, rest) := by
  show readString ((text.toList.flatMap jsonChar ++ ['"']) ++ rest) = _
  rw [List.append_assoc, List.singleton_append, readString_jsonString]

theorem readItems_jsonItems {bound : ℕ} {texts : List String} (hne : texts ≠ [])
    (hbound : texts.length ≤ bound) :
    readItems bound (jsonItems texts ++ [']']) = some (texts, []) := by
  induction texts generalizing bound with
  | nil => exact absurd rfl hne
  | cons text rest ih =>
    obtain ⟨bound, rfl⟩ : ∃ less, bound = less + 1 :=
      ⟨bound - 1, by rw [List.length_cons] at hbound; omega⟩
    cases rest with
    | nil =>
      rw [jsonItems, readItems, readItem_jsonString]
      rfl
    | cons next rest =>
      have hrest : readItems bound (jsonItems (next :: rest) ++ [']']) = some (next :: rest, []) :=
        ih (by simp) (by simpa using hbound)
      rw [jsonItems, List.append_assoc, List.cons_append, readItems, readItem_jsonString]
      show (readItems bound (jsonItems (next :: rest) ++ [']']) >>= fun items ↦
        some (text :: items.1, items.2)) = _
      rw [hrest]
      rfl
      · simp

theorem length_le_jsonItems (texts : List String) : texts.length ≤ (jsonItems texts).length := by
  induction texts with
  | nil => simp
  | cons text rest ih =>
    cases rest with
    | nil => simp [jsonItems, jsonString]
    | cons next rest =>
      rw [jsonItems, List.length_append, List.length_cons]
      · rw [List.length_cons (a := ',')]
        omega
      · simp

/-- A list of strings reads back from its JSON array. -/
theorem readStrings_jsonStrings {texts : List String} (hne : texts ≠ []) :
    readStrings (jsonStrings texts) = some texts := by
  have hlength : texts.length ≤ (jsonItems texts ++ [']']).length := by
    rw [List.length_append]
    exact (length_le_jsonItems texts).trans (Nat.le_add_right _ _)
  have hitems := readItems_jsonItems hne hlength
  obtain ⟨chars, hchars⟩ : ∃ chars, jsonItems texts ++ [']'] = '"' :: chars := by
    match texts, hne with
    | [text], _ => exact ⟨_, rfl⟩
    | text :: next :: rest, _ => exact ⟨_, rfl⟩
  unfold readStrings jsonStrings
  rw [String.toList_ofList, List.cons_append]
  show (match skipBlank (jsonItems texts ++ [']']) with
    | ']' :: more => atEnd [] more
    | items => do
      let read ← readItems items.length items
      atEnd read.1 read.2) = _
  have hskip : skipBlank (jsonItems texts ++ [']']) = jsonItems texts ++ [']'] := by
    rw [hchars]
    rfl
  rw [hskip]
  rw [hchars] at hitems ⊢
  show (readItems _ _ >>= fun read ↦ atEnd read.1 read.2) = _
  rw [hitems]
  rfl

end ArkadeVault.Library
