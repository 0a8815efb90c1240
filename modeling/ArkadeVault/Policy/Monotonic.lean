import Mathlib
import ArkadeVault.Library.Checks
import ArkadeVault.Library.Encoding

/-!
# The policy sequence file

The number of economic outflows is kept a second time, in a file outside the database. The file
holds a version line, the count and a MAC under the integrity key; `parseMonotonic` reads it line
by line and `read_format` is the round trip. `observe` compares the count of the database with the
file: it refuses a database that is behind, and writes the file when the database is ahead.

Writing replaces the file by a rename, so that the old or the new text is there at any time. What a
write does is given by its `WriteOutcome`: a reported error may or may not have replaced the file.

Scope. The file is a text, since everything written to it is ASCII; the temporary file and the
directory are represented by the outcome of the write.
-/

set_option autoImplicit false
set_option relaxedAutoImplicit false

namespace ArkadeVault.Policy

open Library

/-! ### The format -/

def monotonicFileVersion : String := "arkade-vault-policy-sequence/v2"

def monotonicMACDomain : String := "arkade-vault/policy-sequence/v2"

/-- The key of the sequence file, and HMAC-SHA256. -/
structure Monotonic where
  key : Bytes
  hmac : Bytes → Bytes → Bytes
  length_hmac : ∀ key payload, (hmac key payload).length = 32

/-- The content of the file, if there is one. -/
abbrev SequenceFile := Option (List Char)

namespace Monotonic

variable (sequence : Monotonic)

def mac (count : ℕ) : Bytes :=
  sequence.hmac sequence.key (textBytes monotonicMACDomain ++ (littleEndian 8 count).reverse)

/-- The text written for a count. -/
def format (count : ℕ) : List Char :=
  monotonicFileVersion.toList ++ '\n' :: "count=".toList ++ decimalDigits count ++
    '\n' :: "mac=".toList ++ (hexEncode (sequence.mac count)).toList ++ ['\n']

end Monotonic

/-- The value of a lower-case hexadecimal digit. -/
def unhex (c : Char) : Option ℕ :=
  if '0' ≤ c ∧ c ≤ '9' then some (c.toNat - 48)
  else if 'a' ≤ c ∧ c ≤ 'f' then some (c.toNat - 87)
  else none

def parseHexMAC (text : List Char) : Except String Bytes := do
  rejectIf (text.length ≠ 64) "monotonic counter MAC"
  rejectIf (text.all (fun digit ↦ (unhex digit).isSome) = false) "monotonic counter MAC"
  orReject (hexBytes text) "monotonic counter MAC"

/-- One round of the loop over the lines: the count and the MAC read so far. -/
def parseMonotonicLine (fields : ℕ × Bytes) (line : List Char) : Except String (ℕ × Bytes) := do
  let counted ← if "count=".toList.isPrefixOf line = true then do
      let count ← orReject (parseUint64 (line.drop 6)) "monotonic counter"
      pure (count, fields.2)
    else pure fields
  if "mac=".toList.isPrefixOf line = true then do
    let mac ← parseHexMAC (line.drop 4)
    pure (counted.1, mac)
  else pure counted

def parseMonotonic (raw : List Char) : Except String (ℕ × Bytes) := do
  let lines := raw.splitOn '\n'
  rejectIf (lines.length < 3 ∨ lines.head? ≠ some monotonicFileVersion.toList)
    "monotonic counter version"
  let fields ← lines.tail.foldlM parseMonotonicLine (0, [])
  rejectIf (fields.2.length ≠ 32) "monotonic counter MAC missing"
  pure fields

/-- What a write did: it succeeded, or it failed without or with an effect. -/
inductive WriteOutcome
  | done
  | lost
  | kept
  deriving DecidableEq, Repr

/-- What the file system does during one observation. -/
structure FileFaults where
  readFails : Bool
  write : WriteOutcome
  deriving DecidableEq, Repr

/-- No fault. -/
def FileFaults.none : FileFaults := ⟨false, .done⟩

namespace Monotonic

variable (sequence : Monotonic)

/-- The count of the file, or nothing without a file. -/
def read (file : SequenceFile) : Except String (Option ℕ) :=
  match file with
  | none => pure none
  | some raw => do
    let fields ← parseMonotonic raw
    rejectIf (fields.2 ≠ sequence.mac fields.1) "monotonic counter MAC mismatch"
    pure (some fields.1)

def write (outcome : WriteOutcome) (count : ℕ) (file : SequenceFile) :
    Except String Unit × SequenceFile :=
  match outcome with
  | .done => (.ok (), some (sequence.format count))
  | .lost => (.error "policy sequence write", file)
  | .kept => (.error "policy sequence write", some (sequence.format count))

/-- Compare the count of the database with the file, and advance the file. -/
def observe (faults : FileFaults) (dbCount : ℕ) (file : SequenceFile) :
    Except String Unit × SequenceFile :=
  if faults.readFails then (.error "policy sequence read", file) else
  match sequence.read file with
  | .error message => (.error message, file)
  | .ok none =>
    if dbCount ≠ 0 then
      (.error "policy sequence is missing for a non-empty policy ledger", file)
    else sequence.write faults.write 0 file
  | .ok (some fileCount) =>
    if dbCount < fileCount then
      (.error ("policy ledger is behind the external sequence (" ++ toString dbCount ++ " < " ++
        toString fileCount ++ "); refuse to start from a rolled-back database"), file)
    else if dbCount = fileCount then (.ok (), file)
    else sequence.write faults.write dbCount file

/-- The count in the file; a missing file counts nothing. -/
def count (file : SequenceFile) : ℕ := ((sequence.read file).toOption.join).getD 0

end Monotonic

/-! ### The round trip -/

section Format

variable (sequence : Monotonic)

theorem unhex_hexDigit : ∀ value < 16, (unhex (hexDigit value)).isSome = true := by decide

theorem hexDigit_ne_newline : ∀ value < 16, hexDigit value ≠ '\n' := by decide

theorem parseHexMAC_hexEncode {bytes : Bytes} (hlength : bytes.length = 32) :
    parseHexMAC (hexEncode bytes).toList = .ok bytes := by
  simp only [parseHexMAC, bind_eq_ok, rejectIf_eq_ok, orReject_eq_ok, not_not, Bool.not_eq_false]
  refine ⟨(), by rw [length_hexEncode, hlength], (), List.all_eq_true.mpr fun c hc ↦ ?_, ?_⟩
  · obtain ⟨value, hvalue, rfl⟩ := mem_hexEncode hc
    exact unhex_hexDigit value hvalue
  · rw [hexEncode, String.toList_ofList]
    exact hexBytes_flatMap bytes

/-- The lines of a written file. -/
theorem splitOn_format (count : ℕ) : (sequence.format count).splitOn '\n' =
    [monotonicFileVersion.toList, "count=".toList ++ decimalDigits count,
      "mac=".toList ++ (hexEncode (sequence.mac count)).toList, []] := by
  have hjoin : sequence.format count = ['\n'].intercalate
      [monotonicFileVersion.toList, "count=".toList ++ decimalDigits count,
        "mac=".toList ++ (hexEncode (sequence.mac count)).toList, []] := by
    simp [Monotonic.format, List.intercalate, List.intersperse]
  rw [hjoin, List.splitOn_intercalate]
  · simp only [List.forall_mem_cons, List.not_mem_nil, not_false_eq_true, false_imp_iff,
      implies_true, and_true, List.mem_append, not_or]
    refine ⟨by decide, ⟨by decide, fun hc ↦ ?_⟩, by decide, fun hc ↦ ?_⟩
    · exact absurd (isDecimalDigit_of_mem hc) (by decide)
    · obtain ⟨value, hvalue, heq⟩ := mem_hexEncode hc
      exact hexDigit_ne_newline value hvalue heq.symm
  · simp

theorem parse_countLine {count : ℕ} (hcount : count < 2 ^ 64) (fields : ℕ × Bytes) :
    parseMonotonicLine fields ("count=".toList ++ decimalDigits count) = .ok (count, fields.2) := by
  have hparse : parseUint64 (decimalDigits count) = some count := by
    simpa [parseUint64, readDecimal_decimalDigits] using hcount
  have hmac : "mac=".toList.isPrefixOf ("count=".toList ++ decimalDigits count) = false := rfl
  have hkind : "count=".toList.isPrefixOf ("count=".toList ++ decimalDigits count) = true :=
    List.isPrefixOf_iff_prefix.mpr (List.prefix_append _ _)
  have hdrop : ("count=".toList ++ decimalDigits count).drop 6 = decimalDigits count := rfl
  simp only [parseMonotonicLine, hkind, hmac, hdrop, hparse, if_true, Bool.false_eq_true, if_false,
    bind_eq_ok, orReject_eq_ok, pure_eq_ok]
  exact ⟨count, rfl, _, rfl, rfl⟩

theorem parse_macLine {bytes : Bytes} (hlength : bytes.length = 32) (fields : ℕ × Bytes) :
    parseMonotonicLine fields ("mac=".toList ++ (hexEncode bytes).toList) =
      .ok (fields.1, bytes) := by
  have hkind : "count=".toList.isPrefixOf ("mac=".toList ++ (hexEncode bytes).toList) = false :=
    rfl
  have hmac : "mac=".toList.isPrefixOf ("mac=".toList ++ (hexEncode bytes).toList) = true :=
    List.isPrefixOf_iff_prefix.mpr (List.prefix_append _ _)
  have hdrop : ("mac=".toList ++ (hexEncode bytes).toList).drop 4 = (hexEncode bytes).toList := rfl
  simp only [parseMonotonicLine, hkind, hmac, hdrop, parseHexMAC_hexEncode hlength, if_true,
    Bool.false_eq_true, if_false, bind_eq_ok, pure_eq_ok]
  exact ⟨fields, rfl, bytes, rfl, rfl⟩

/-- Reading a written file gives the count back. -/
theorem read_format {count : ℕ} (hcount : count < 2 ^ 64) :
    sequence.read (some (sequence.format count)) = .ok (some count) := by
  have hlength : (sequence.mac count).length = 32 := sequence.length_hmac _ _
  have hparse : parseMonotonic (sequence.format count) = .ok (count, sequence.mac count) := by
    simp only [parseMonotonic, splitOn_format, bind_eq_ok, rejectIf_eq_ok, pure_eq_ok,
      List.tail_cons, List.foldlM_cons, List.foldlM_nil, parse_countLine hcount,
      parse_macLine hlength]
    exact ⟨(), by simp, _, ⟨_, rfl, _, rfl, _, rfl, rfl⟩, (), by simp [hlength], rfl⟩
  simp [Monotonic.read, hparse]

end Format

/-! ### What an observation does -/

/-- The file as the code leaves it: missing, or written for a count. -/
inductive Monotonic.Holds (sequence : Monotonic) : SequenceFile → ℕ → Prop
  | missing : Holds sequence none 0
  | written (count : ℕ) (hcount : count < 2 ^ 64) :
      Holds sequence (some (sequence.format count)) count

section Observe

variable {sequence : Monotonic} {faults : FileFaults} {dbCount fileCount : ℕ}
  {file after : SequenceFile} {outcome : Except String Unit}

theorem Monotonic.Holds.count_eq (hholds : sequence.Holds file fileCount) :
    sequence.count file = fileCount := by
  cases hholds with
  | missing => rfl
  | written count hcount => simp [Monotonic.count, read_format sequence hcount, Except.toOption]

theorem write_spec (hwrite : sequence.write faults.write dbCount file = (outcome, after)) :
    (after = file ∧ outcome ≠ .ok ()) ∨ after = some (sequence.format dbCount) := by
  unfold Monotonic.write at hwrite
  split at hwrite <;> cases hwrite
  · exact .inr rfl
  · exact .inl ⟨rfl, by simp⟩
  · exact .inr rfl

/-- An observation leaves the file alone, or it writes the count of the database, which is not
behind the file. A success means that the file has that count. -/
theorem observe_spec (hholds : sequence.Holds file fileCount)
    (hobserve : sequence.observe faults dbCount file = (outcome, after)) :
    (after = file ∧ outcome ≠ .ok ()) ∨
      fileCount ≤ dbCount ∧ after = some (sequence.format dbCount) := by
  unfold Monotonic.observe at hobserve
  by_cases hread : faults.readFails = true
  · rw [if_pos hread] at hobserve
    cases hobserve
    exact .inl ⟨rfl, by simp⟩
  rw [if_neg hread] at hobserve
  cases hholds with
  | missing =>
    simp only [Monotonic.read] at hobserve
    by_cases hzero : dbCount = 0
    · subst hzero
      rcases write_spec hobserve with hlost | hkept
      · exact .inl hlost
      · exact .inr ⟨le_rfl, hkept⟩
    · simp only [pure, Except.pure, ne_eq, hzero, not_false_eq_true, if_true] at hobserve
      cases hobserve
      exact .inl ⟨rfl, by simp⟩
  | written count hcount =>
    simp only [read_format sequence hcount] at hobserve
    split at hobserve
    · cases hobserve
      exact .inl ⟨rfl, by simp⟩
    · rename_i hahead
      split at hobserve
      · rename_i hequal
        cases hobserve
        exact .inr ⟨hequal.ge, by rw [hequal]⟩
      · rcases write_spec hobserve with hlost | hkept
        · exact .inl hlost
        · exact .inr ⟨not_lt.mp hahead, hkept⟩

/-- A database that is behind the file is refused, whatever the file system does. -/
theorem observe_behind (hholds : sequence.Holds file fileCount) (hbehind : dbCount < fileCount) :
    (sequence.observe faults dbCount file).1 ≠ .ok () := by
  intro hok
  rcases observe_spec hholds (Prod.ext hok rfl : sequence.observe faults dbCount file =
    (.ok (), (sequence.observe faults dbCount file).2)) with ⟨-, hrefused⟩ | ⟨hahead, -⟩
  · exact hrefused rfl
  · omega

/-- Without faults a database that is not behind the file is accepted, unless the file is missing
for a database that has rows. -/
theorem observe_ahead (hholds : sequence.Holds file fileCount) (hahead : fileCount ≤ dbCount)
    (hmissing : file = none → dbCount = 0) :
    (sequence.observe .none dbCount file).1 = .ok () := by
  cases hholds with
  | missing => simp [Monotonic.observe, Monotonic.read, FileFaults.none, hmissing rfl,
      Monotonic.write, pure, Except.pure]
  | written count hcount =>
    simp only [Monotonic.observe, FileFaults.none, read_format sequence hcount, Bool.false_eq_true,
      if_false, not_lt.mpr hahead]
    split <;> rfl

end Observe

end ArkadeVault.Policy
