import Mathlib

/-!
# Byte strings, texts and timestamps

`Bytes` is a byte string, `textBytes` the bytes of a text, `littleEndian` a number in a fixed
number of bytes, least significant first. `trimSpace` removes the white space around a text and
`lowerText` maps its characters; the case mapping is a parameter, so that nothing depends on the
Unicode tables.

A timestamp column holds a text. `StoredTime` is such a text together with what the parser of
RFC 3339 makes of it; `StoredTime.stamp` is the text written for an instant. An instant is a number
of nanoseconds since the Unix epoch. The layout has no fraction, so a stamp reads back as the
instant truncated to its second (`stamp_parsed`), never later than the instant and less than one
second before it.

Scope. Calendar years 0 to 9999: outside them the layout has no fixed width.
-/

set_option autoImplicit false
set_option relaxedAutoImplicit false

namespace ArkadeVault.Library

/-- A byte string. -/
abbrev Bytes := List UInt8

instance Bytes.lawfulBEq : LawfulBEq Bytes := inferInstance

/-- The bytes of a text. -/
def textBytes (text : String) : Bytes := text.toUTF8.data.toList

/-- The text of some bytes; bytes that are no UTF-8 have none. -/
def bytesText (bytes : Bytes) : String := (String.fromUTF8? ⟨bytes.toArray⟩).getD ""

@[simp] theorem bytesText_textBytes (text : String) : bytesText (textBytes text) = text := by
  have hbytes : (⟨(textBytes text).toArray⟩ : ByteArray) = text.toUTF8 := by
    simp [textBytes]
  have hvalid : text.toUTF8.IsValidUTF8 := text.isValidUTF8
  rw [bytesText, hbytes, String.fromUTF8?, dif_pos hvalid]
  rfl

/-- One byte 32 times. -/
def filled (byte : UInt8) : Bytes := List.replicate 32 byte

theorem length_filled (byte : UInt8) : (filled byte).length = 32 := List.length_replicate

/-- The sum of the bytes, in the place of a hash where an example is computed. -/
def checksum (bytes : Bytes) : Bytes := filled bytes.sum

theorem length_checksum (bytes : Bytes) : (checksum bytes).length = 32 := length_filled _

/-- The `width` low bytes of a number, least significant first. -/
def littleEndian : ℕ → ℕ → Bytes
  | 0, _ => []
  | width + 1, number => UInt8.ofNat number :: littleEndian width (number / 256)

/-! ### Texts -/

/-- The characters with the Unicode property `White_Space`. -/
def isSpace (c : Char) : Bool :=
  (9 ≤ c.toNat && c.toNat ≤ 13) || c.toNat = 0x20 || c.toNat = 0x85 || c.toNat = 0xA0 ||
    c.toNat = 0x1680 || (0x2000 ≤ c.toNat && c.toNat ≤ 0x200A) || c.toNat = 0x2028 ||
    c.toNat = 0x2029 || c.toNat = 0x202F || c.toNat = 0x205F || c.toNat = 0x3000

/-- The text without the white space at its two ends. -/
def trimSpace (text : String) : String :=
  String.ofList ((text.toList.dropWhile isSpace).reverse.dropWhile isSpace).reverse

/-- The text with every character mapped to lower case. -/
def lowerText (lower : Char → Char) (text : String) : String :=
  String.ofList (text.toList.map lower)

theorem dropWhile_eq_self {chars : List Char} (hhead : ∀ c ∈ chars.head?, isSpace c = false) :
    chars.dropWhile isSpace = chars := by
  cases chars with
  | nil => rfl
  | cons c rest => rw [List.dropWhile_cons_of_neg (by simp [hhead c rfl])]

/-- A text with no white space at its ends is trimmed already. -/
theorem trimSpace_eq_self {text : String} (hhead : ∀ c ∈ text.toList.head?, isSpace c = false)
    (hlast : ∀ c ∈ text.toList.getLast?, isSpace c = false) : trimSpace text = text := by
  rw [trimSpace, dropWhile_eq_self hhead, dropWhile_eq_self (by simpa using hlast),
    List.reverse_reverse, String.ofList_toList]

theorem trimSpace_of_forall {text : String} (hchars : ∀ c ∈ text.toList, isSpace c = false) :
    trimSpace text = text :=
  trimSpace_eq_self (fun c hc ↦ hchars c (List.mem_of_mem_head? hc))
    (fun c hc ↦ hchars c (List.mem_of_mem_getLast? hc))

theorem length_textBytes (text : String) : (textBytes text).length = String.utf8Len text.toList := by
  have hlist := String.utf8ByteSize_ofList text.toList
  rw [String.ofList_toList] at hlist
  exact hlist

/-- Where every character takes one byte, the bytes are as many as the characters. -/
theorem length_textBytes_of_ascii {text : String} (hascii : ∀ c ∈ text.toList, c.utf8Size = 1) :
    (textBytes text).length = text.toList.length := by
  rw [length_textBytes]
  generalize text.toList = chars at hascii
  induction chars with
  | nil => rfl
  | cons c rest ih =>
    rw [String.utf8Len, ih fun other hother ↦ hascii other (List.mem_cons_of_mem _ hother),
      hascii c List.mem_cons_self, List.length_cons]

/-- A character takes four bytes at most. -/
theorem length_textBytes_le (text : String) : (textBytes text).length ≤ 4 * text.length := by
  have hchars : ∀ chars : List Char, String.utf8Len chars ≤ 4 * chars.length := by
    intro chars
    induction chars with
    | nil => simp [String.utf8Len]
    | cons c rest ih =>
      have hc := c.utf8Size_le_four
      simp only [String.utf8Len, List.length_cons]
      omega
  rw [length_textBytes, ← String.length_toList]
  exact hchars text.toList

/-! ### Calendar -/

/-- Nanoseconds in a second. -/
def second : Int := 1000000000

/-- A decimal of at least `width` digits. -/
def paddedDecimal (width number : ℕ) : String :=
  let digits := toString number
  String.ofList (List.replicate (width - digits.length) '0') ++ digits

/-- Year, month and day of a day counted from the Unix epoch. -/
def civilDate (day : Int) : Int × ℕ × ℕ :=
  -- years are counted from March, so that the leap day is the last day of a year
  let shifted := day + 719468
  let era := shifted / 146097
  let dayOfEra := shifted % 146097
  let yearOfEra :=
    (dayOfEra - dayOfEra / 1460 + dayOfEra / 36524 - dayOfEra / 146096) / 365
  let dayOfYear := dayOfEra - (365 * yearOfEra + yearOfEra / 4 - yearOfEra / 100)
  let monthFromMarch := (5 * dayOfYear + 2) / 153
  let dayOfMonth := dayOfYear - (153 * monthFromMarch + 2) / 5 + 1
  let month := if monthFromMarch < 10 then monthFromMarch + 3 else monthFromMarch - 9
  let year := yearOfEra + era * 400 + if month ≤ 2 then 1 else 0
  (year, month.toNat, dayOfMonth.toNat)

/-- The UTC text of an instant in the layout `2006-01-02T15:04:05Z`. -/
def formatRFC3339 (instant : Int) : String :=
  let seconds := instant / second
  let date := civilDate (seconds / 86400)
  let clock := (seconds % 86400).toNat
  let year := (if date.1 < 0 then "-" else "") ++ paddedDecimal 4 date.1.natAbs
  year ++ "-" ++ paddedDecimal 2 date.2.1 ++ "-" ++ paddedDecimal 2 date.2.2 ++ "T" ++
    paddedDecimal 2 (clock / 3600) ++ ":" ++ paddedDecimal 2 (clock / 60 % 60) ++ ":" ++
    paddedDecimal 2 (clock % 60) ++ "Z"

/-- The UTC text of an instant with its nanoseconds, without trailing zeros. -/
def formatRFC3339Nano (instant : Int) : String :=
  let fraction := (paddedDecimal 9 (instant % second).toNat).toList.reverse.dropWhile (· = '0')
  let seconds := String.ofList ((formatRFC3339 instant).toList.dropLast)
  seconds ++ (if fraction = [] then "" else "." ++ String.ofList fraction.reverse) ++ "Z"

theorem formatRFC3339Nano_ne_empty (instant : Int) : formatRFC3339Nano instant ≠ "" := by
  simp [formatRFC3339Nano]

/-! The length of a timestamp. -/

theorem length_paddedDecimal {width number digits : ℕ} (hpos : 0 < digits)
    (hsmall : number < 10 ^ digits) : (paddedDecimal width number).length ≤ width + digits := by
  have hdigits : (toString number).length ≤ digits := Nat.repr_length number digits hpos hsmall
  simp only [paddedDecimal, String.length_append, String.length_ofList, List.length_replicate]
  omega

/-- The instants of the source's clock: a 64-bit count of seconds. -/
def Representable (instant : Int) : Prop :=
  -2 ^ 63 ≤ instant / second ∧ instant / second < 2 ^ 63

theorem civilDate_bounds {day : Int} (hlow : -2 ^ 63 ≤ day) (hhigh : day < 2 ^ 63) :
    (civilDate day).1.natAbs < 10 ^ 20 ∧ (civilDate day).2.1 < 10 ^ 20 ∧
      (civilDate day).2.2 < 10 ^ 20 := by
  simp only [civilDate]
  refine ⟨?_, ?_, ?_⟩
  · split <;> omega
  · split <;> omega
  · omega

theorem length_formatRFC3339 {instant : Int} (hinstant : Representable instant) :
    (formatRFC3339 instant).length ≤ 150 := by
  obtain ⟨hlow, hhigh⟩ := hinstant
  have hdate := @civilDate_bounds (instant / second / 86400) (by omega) (by omega)
  simp only [formatRFC3339, String.length_append]
  generalize civilDate (instant / second / 86400) = date at hdate
  obtain ⟨hyear, hmonth, hday⟩ := hdate
  have hclock : (instant / second % 86400).toNat < 86400 := by omega
  generalize (instant / second % 86400).toNat = clock at hclock
  have hfour := @length_paddedDecimal 4 date.1.natAbs 20 (by omega) hyear
  have htwo : ∀ number, number < 10 ^ 20 → (paddedDecimal 2 number).length ≤ 22 :=
    fun number hsmall ↦ length_paddedDecimal (by omega) hsmall
  have hm := htwo date.2.1 hmonth
  have hd := htwo date.2.2 hday
  have hh := htwo (clock / 3600) (by omega)
  have hmin := htwo (clock / 60 % 60) (by omega)
  have hs := htwo (clock % 60) (by omega)
  have hsign : (if date.1 < 0 then "-" else "").length ≤ 1 := by split <;> decide
  have hdash : "-".length = 1 := rfl
  have hcolon : ":".length = 1 := rfl
  have htee : "T".length = 1 := rfl
  have hzulu : "Z".length = 1 := rfl
  omega

theorem length_formatRFC3339Nano {instant : Int} (hinstant : Representable instant) :
    (formatRFC3339Nano instant).length ≤ 200 := by
  have hseconds := length_formatRFC3339 hinstant
  have hnanos : (instant % second).toNat < 10 ^ 10 := by
    simp only [second]
    omega
  have hfraction := @length_paddedDecimal 9 _ 10 (by omega) hnanos
  simp only [formatRFC3339Nano, String.length_append]
  have hdropped : ((paddedDecimal 9 (instant % second).toNat).toList.reverse.dropWhile
      (· = '0')).length ≤ 19 := by
    refine (List.dropWhile_sublist _).length_le.trans ?_
    rw [List.length_reverse, String.length_toList]
    exact hfraction
  generalize (paddedDecimal 9 (instant % second).toNat).toList.reverse.dropWhile
    (· = '0') = fraction at hdropped
  have htail : (if fraction = [] then "" else "." ++ String.ofList fraction.reverse).length ≤
      20 := by
    split
    · decide
    · simp only [String.length_append, String.length_ofList, List.length_reverse]
      have hdot : ".".length = 1 := rfl
      omega
  rw [String.length_ofList, List.length_dropLast, String.length_toList]
  have hzulu : "Z".length = 1 := rfl
  omega

/-- A timestamp column: its text and the instant the text parses to, if it parses. -/
structure StoredTime where
  text : String
  parsed : Option Int
  deriving DecidableEq, Repr

namespace StoredTime

/-- The timestamp written for an instant. -/
def stamp (instant : Int) : StoredTime :=
  ⟨formatRFC3339 instant, some (instant / second * second)⟩

example : (stamp 1709210096789000000).text = "2024-02-29T12:34:56Z" := by decide +kernel

@[simp] theorem stamp_parsed (instant : Int) :
    (stamp instant).parsed = some (instant / second * second) := rfl

/-- A stamp reads back less than one second early and never late. -/
theorem stamp_bounds (instant : Int) :
    instant / second * second ≤ instant ∧ instant < instant / second * second + second := by
  simp only [second]
  omega

end StoredTime

end ArkadeVault.Library
