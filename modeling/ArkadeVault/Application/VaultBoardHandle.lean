import Mathlib
import ArkadeVault.Application.Spend
import ArkadeVault.Policy.Monotonic
import ArkadeVault.Policy.VaultBoardLedger

/-!
# The boarding service and its handles

The configuration of the boarding endpoints, and the signed handle that carries a prepared attempt
from the preparation to the phases. A handle is the JSON text of its claims and an HMAC over it,
both in unpadded base64, with a dot between them. `openVaultBoardHandle` checks the MAC, decodes the
claims and compares them with their canonical text. Every sealed handle opens to its claims
(`openVaultBoardHandle_seal`): base64 and each field of the text read back as they were written.

Scope. The decoder of claims reads canonical texts only: whatever else the JSON decoder of the
source accepts is refused there by the comparison that follows, with the same error.
-/

set_option autoImplicit false
set_option relaxedAutoImplicit false

namespace ArkadeVault.Application

open Library Policy

/-! ### Unpadded base64 -/

/-- The character of a value in the alphabet for URLs. -/
def urlDigit (value : ℕ) : Char :=
  "ABCDEFGHIJKLMNOPQRSTUVWXYZabcdefghijklmnopqrstuvwxyz0123456789-_".toList.getD value 'A'

/-- The characters of groups of three bytes, of which the last may be shorter. -/
def urlDigits : Bytes → List Char
  | [] => []
  | [a] =>
    let word := a.toNat * 16
    [urlDigit (word / 64), urlDigit (word % 64)]
  | [a, b] =>
    let word := (a.toNat * 256 + b.toNat) * 4
    [urlDigit (word / 4096), urlDigit (word / 64 % 64), urlDigit (word % 64)]
  | a :: b :: c :: rest =>
    let word := (a.toNat * 256 + b.toNat) * 256 + c.toNat
    urlDigit (word / 262144) :: urlDigit (word / 4096 % 64) :: urlDigit (word / 64 % 64) ::
      urlDigit (word % 64) :: urlDigits rest

/-- The standard character in place of one for URLs. -/
def standardDigit (c : Char) : Char := if c = '-' then '+' else if c = '_' then '/' else c

/-- The bytes of an unpadded text in the alphabet for URLs. -/
def rawURLDecode (text : List Char) : Option Bytes :=
  let chars := text.filter fun c ↦ c ≠ '\r' && c ≠ '\n'
  if chars.any (fun c ↦ c = '+' || c = '/' || c = '=') then none
  else base64Bytes (chars.map standardDigit ++ List.replicate ((4 - chars.length % 4) % 4) '=')

example : rawURLDecode (urlDigits [0xfb, 0xff, 0x00, 0x70]) = some [0xfb, 0xff, 0x00, 0x70] := by
  decide +kernel

/-! ### Claims -/

structure VaultBoardHandleClaims where
  version : UInt32
  kind : String
  vaultID : String
  operationID : String
  txid : String
  vout : UInt32
  attempt : UInt32
  receiverSats : Int64
  feeSats : Int64
  registerExpireAt : Int64
  deleteExpireAt : Int64
  deriving DecidableEq, Repr

/-- A signed number in decimal. -/
def intDigits (value : Int64) : List Char :=
  if value < 0 then '-' :: decimalDigits value.toInt.natAbs else decimalDigits value.toInt.natAbs

/-- The canonical JSON text of claims. -/
def claimsText (claims : VaultBoardHandleClaims) : List Char :=
  "\x7b\"version\":".toList ++ decimalDigits claims.version.toNat ++
  ",\"kind\":".toList ++ jsonString claims.kind ++
  ",\"vaultId\":".toList ++ jsonString claims.vaultID ++
  ",\"operationId\":".toList ++ jsonString claims.operationID ++
  ",\"txid\":".toList ++ jsonString claims.txid ++
  ",\"vout\":".toList ++ decimalDigits claims.vout.toNat ++
  ",\"attempt\":".toList ++ decimalDigits claims.attempt.toNat ++
  ",\"receiverSats\":".toList ++ intDigits claims.receiverSats ++
  ",\"feeSats\":".toList ++ intDigits claims.feeSats ++
  ",\"registerExpireAt\":".toList ++ intDigits claims.registerExpireAt ++
  ",\"deleteExpireAt\":".toList ++ intDigits claims.deleteExpireAt ++ ['\x7d']

/-- A number and what follows it. -/
def readNumber (chars : List Char) : Option (ℕ × List Char) :=
  (readDecimal (chars.takeWhile isDecimalDigit)).map fun number ↦
    (number, chars.dropWhile isDecimalDigit)

def readUint32 (chars : List Char) : Option (UInt32 × List Char) := do
  let read ← readNumber chars
  if read.1 < 2 ^ 32 then pure (UInt32.ofNat read.1, read.2) else none

def readInt64 : List Char → Option (Int64 × List Char)
  | '-' :: chars => do
    let read ← readNumber chars
    if read.1 ≤ 2 ^ 63 then pure (Int64.ofInt (-read.1), read.2) else none
  | chars => do
    let read ← readNumber chars
    if read.1 < 2 ^ 63 then pure (Int64.ofInt read.1, read.2) else none

def readQuoted : List Char → Option (String × List Char)
  | '"' :: chars => readString chars
  | _ => none

/-- A value behind a label. -/
def readField {α : Type} (label : String) (read : List Char → Option (α × List Char))
    (chars : List Char) : Option (α × List Char) :=
  (label.toList.isPrefixOf? chars).bind read

/-- The claims of a canonical payload. -/
def decodeClaims (payload : Bytes) : Option VaultBoardHandleClaims := do
  let chars := (bytesText payload).toList
  let (version, chars) ← readField "\x7b\"version\":" readUint32 chars
  let (kind, chars) ← readField ",\"kind\":" readQuoted chars
  let (vaultID, chars) ← readField ",\"vaultId\":" readQuoted chars
  let (operationID, chars) ← readField ",\"operationId\":" readQuoted chars
  let (txid, chars) ← readField ",\"txid\":" readQuoted chars
  let (vout, chars) ← readField ",\"vout\":" readUint32 chars
  let (attempt, chars) ← readField ",\"attempt\":" readUint32 chars
  let (receiverSats, chars) ← readField ",\"receiverSats\":" readInt64 chars
  let (feeSats, chars) ← readField ",\"feeSats\":" readInt64 chars
  let (registerExpireAt, chars) ← readField ",\"registerExpireAt\":" readInt64 chars
  let (deleteExpireAt, chars) ← readField ",\"deleteExpireAt\":" readInt64 chars
  if chars = ['\x7d'] then
    pure ⟨version, kind, vaultID, operationID, txid, vout, attempt, receiverSats, feeSats,
      registerExpireAt, deleteExpireAt⟩
  else none

/-! ### The service -/

/-- The boarding tree of a vault. Public keys are compressed. -/
structure VtxoBoardTree where
  boardingPub : Bytes
  cosignerPub : Bytes
  operatorPub : Bytes
  pkScript : Bytes
  collaborative : Bytes
  controlBlock : Bytes
  revealedScripts : List String
  deriving DecidableEq

/-- The x-only form of a compressed key. -/
def xOnly (pub : Bytes) : Bytes := pub.drop 1

/-- The boarding enrollment of a vault: the recorded script, and the tree as it is built again. -/
structure BoardEnrollment where
  pkScript : Bytes
  tree : Except String VtxoBoardTree

/-- The part of a register message that is checked. -/
structure RegisterMessage where
  onchainOutputIndexes : Option (List Int)
  validAt : Int64
  expireAt : Int64
  cosignersPublicKeys : List String
  deriving DecidableEq

structure DeleteMessage where
  expireAt : Int64
  deriving DecidableEq

/-- A node of a flat transaction tree, with the map of its children by output in the order of the
keys. -/
structure TxTreeNode where
  txid : String
  tx : String
  children : List (UInt32 × String)
  sorted : (children.map Prod.fst).Pairwise (· < ·)
  deriving DecidableEq

/-- What is read of an assembled transaction tree. -/
structure TxTree where
  root : Packet
  leaves : List Packet

/-- What other libraries compute for boarding. -/
structure BoardKit where
  parsePubKey : Bytes → Bool
  decodeRegister : String → Option RegisterMessage
  encodeRegister : RegisterMessage → Option String
  decodeDelete : String → Option DeleteMessage
  encodeDelete : DeleteMessage → Option String
  /-- The revealed script trees in the fields of an input. -/
  vtxoTaprootTrees : PInput → Except String (List (List String))
  newTxTree : List TxTreeNode → Except String TxTree
  /-- Validate a tree against its commitment, for a forfeit key and an expiry in seconds. -/
  validateVtxoTree : TxTree → Packet → Bytes → UInt32 → Except String Unit
  /-- The cosigner keys in the fields of an input. -/
  parseCosignerKeys : Packet → ℕ → Except String (List Bytes)
  /-- The script that one key may spend after some seconds. -/
  csvMultisigScript : Bytes → UInt32 → Except String Bytes
  /-- The aggregate of some keys, tweaked by a root. -/
  aggregateKeys : List Bytes → Bytes → Except String Bytes
  payToTaprootScript : Bytes → Except String Bytes
  /-- The fee of boarding an amount into one output, under some fee programs. -/
  evalBoarding : IntentFeePolicy → UInt64 → FeeOutput → Option FeeAmount

structure BoardService extends Service where
  boardKit : BoardKit
  boardLedger : BoardLedger
  sequence : Monotonic
  boards : String → Option BoardEnrollment
  /-- Whether the chain and the Operator are installed. -/
  runtime : Bool
  /-- The release's expiry of batch outputs, in seconds. -/
  batchExpiry : UInt32

/-! ### Handles -/

def vaultBoardHandleDomain : String := "arkade-vault/vault-board-v1-handle/v1"

def vaultBoardHandleMax : ℕ := 1536

def credentialIntegrityKey (service : BoardService) : Except AppError Bytes := do
  let key := service.boardLedger.integrityKey
  rejectIf (key.length ≠ 32 ∧ key.length ≠ 0)
    (.plain "credential integrity key must be 32 bytes")
  rejectIf (key.length ≠ 32) (.plain "credential integrity key is required")
  pure key

/-- The MAC of a handle's payload. -/
def handleMAC (service : BoardService) (key payload : Bytes) : Bytes :=
  service.boardLedger.hmac key (textBytes vaultBoardHandleDomain ++ payload)

def sealVaultBoardHandle (service : BoardService) (claims : VaultBoardHandleClaims) :
    Except AppError String := do
  rejectIf (claims.version ≠ 1 ∨ claims.vaultID = "" ∨ claims.operationID = "" ∨
    (requireTxid service.toService claims.txid).toOption = none)
    (.plain "vault-board-v1 handle claims")
  let payload := textBytes (String.ofList (claimsText claims))
  rejectIf (vaultBoardHandleMax < payload.length) (.plain "vault-board-v1 handle claims")
  let key ← credentialIntegrityKey service
  pure (String.ofList (urlDigits payload ++ '.' :: urlDigits (handleMAC service key payload)))

def openVaultBoardHandle (service : BoardService) (raw kind : String) :
    Except AppError VaultBoardHandleClaims := do
  let malformed := AppError.plain "vault-board-v1 handle"
  let chars := raw.toList
  rejectIf (raw = "" ∨ vaultBoardHandleMax * 2 < (textBytes raw).length ∨ chars.count '.' ≠ 1)
    malformed
  let payload ← orReject (rawURLDecode (chars.takeWhile (· ≠ '.'))) malformed
  rejectIf (payload.length = 0 ∨ vaultBoardHandleMax < payload.length) malformed
  let sig ← orReject (rawURLDecode ((chars.dropWhile (· ≠ '.')).drop 1)) malformed
  rejectIf (sig.length ≠ 32) malformed
  let key ← credentialIntegrityKey service
  rejectIf (sig ≠ handleMAC service key payload) malformed
  let claims ← orReject (decodeClaims payload) malformed
  rejectIf (claims.version ≠ 1 ∨ claims.kind ≠ kind ∨ claims.vaultID = "" ∨
    claims.operationID = "" ∨ (requireTxid service.toService claims.txid).toOption = none) malformed
  rejectIf (textBytes (String.ofList (claimsText claims)) ≠ payload) malformed
  pure claims

/-! ### Sealed handles open -/

/-- A character of the alphabet for URLs: its value in the standard alphabet, and what it is not. -/
theorem urlDigit_spec : ∀ value < 64,
    base64Value (standardDigit (urlDigit value)) = some value ∧
      standardDigit (urlDigit value) ≠ '=' ∧ (urlDigit value).utf8Size = 1 ∧
      (urlDigit value ≠ '\r' ∧ urlDigit value ≠ '\n' ∧ urlDigit value ≠ '.') ∧
      urlDigit value ≠ '+' ∧ urlDigit value ≠ '/' ∧ urlDigit value ≠ '=' := by
  decide +kernel

theorem mem_urlDigits {bytes : Bytes} {c : Char} (hc : c ∈ urlDigits bytes) :
    ∃ value < 64, c = urlDigit value := by
  fun_induction urlDigits bytes with
  | case1 => cases hc
  | case2 a word =>
    have ha := a.toNat_lt
    simp only [List.mem_cons, List.not_mem_nil, or_false] at hc
    rcases hc with rfl | rfl <;> exact ⟨_, by omega, rfl⟩
  | case3 a b word =>
    have ha := a.toNat_lt
    have hb := b.toNat_lt
    simp only [List.mem_cons, List.not_mem_nil, or_false] at hc
    rcases hc with rfl | rfl | rfl <;> exact ⟨_, by omega, rfl⟩
  | case4 a b c' rest word ih =>
    have ha := a.toNat_lt
    have hb := b.toNat_lt
    have hc' := c'.toNat_lt
    simp only [List.mem_cons] at hc
    rcases hc with rfl | rfl | rfl | rfl | hrest
    iterate 4 exact ⟨_, by omega, rfl⟩
    exact ih hrest

theorem length_urlDigits (bytes : Bytes) :
    (urlDigits bytes).length = (4 * bytes.length + 2) / 3 := by
  fun_induction urlDigits bytes with
  | case1 => rfl
  | case2 => simp
  | case3 => simp
  | case4 a b c rest word ih =>
    simp only [List.length_cons, ih]
    omega

theorem ofNat_toNat_uint8 {value : ℕ} {byte : UInt8} (hvalue : value % 256 = byte.toNat) :
    UInt8.ofNat value = byte :=
  UInt8.toNat_inj.mp (by rw [UInt8.toNat_ofNat', hvalue])

/-- The standard form of unpadded characters, padded, reads back as the bytes. -/
theorem base64Bytes_urlDigits (bytes : Bytes) :
    base64Bytes ((urlDigits bytes).map standardDigit ++
      List.replicate ((4 - (urlDigits bytes).length % 4) % 4) '=') = some bytes := by
  fun_induction urlDigits bytes with
  | case1 => rfl
  | case2 a word =>
    have ha := a.toNat_lt
    obtain ⟨hfirst, -⟩ := urlDigit_spec (word / 64) (by omega)
    obtain ⟨hsecond, -⟩ := urlDigit_spec (word % 64) (by omega)
    have hbyte : UInt8.ofNat ((word / 64 * 64 + word % 64) / 16) = a :=
      ofNat_toNat_uint8 (by omega)
    simp [base64Bytes, hfirst, hsecond, hbyte]
  | case3 a b word =>
    have ha := a.toNat_lt
    have hb := b.toNat_lt
    obtain ⟨hfirst, -⟩ := urlDigit_spec (word / 4096) (by omega)
    obtain ⟨hsecond, -⟩ := urlDigit_spec (word / 64 % 64) (by omega)
    obtain ⟨hthird, hpad, -⟩ := urlDigit_spec (word % 64) (by omega)
    have hword : (word / 4096 * 64 + word / 64 % 64) * 64 + word % 64 = word := by omega
    have hbyte : UInt8.ofNat (word / 1024) = a := ofNat_toNat_uint8 (by omega)
    have hbyte' : UInt8.ofNat (word / 4) = b := ofNat_toNat_uint8 (by omega)
    change base64Bytes [_, _, _, '='] = _
    rw [base64Bytes]
    · simp only [hfirst, hsecond, hthird, hword, hbyte, hbyte', Option.bind_eq_bind,
        Option.bind_some, Option.pure_def]
    · exact fun hthird' ↦ hpad hthird'
  | case4 a b c rest word ih =>
    have ha := a.toNat_lt
    have hb := b.toNat_lt
    have hc := c.toNat_lt
    obtain ⟨hfirst, -⟩ := urlDigit_spec (word / 262144) (by omega)
    obtain ⟨hsecond, -⟩ := urlDigit_spec (word / 4096 % 64) (by omega)
    obtain ⟨hthird, hpad, -⟩ := urlDigit_spec (word / 64 % 64) (by omega)
    obtain ⟨hfourth, hpad', -⟩ := urlDigit_spec (word % 64) (by omega)
    have hword : ((word / 262144 * 64 + word / 4096 % 64) * 64 + word / 64 % 64) * 64 +
        word % 64 = word := by omega
    have hbyte : UInt8.ofNat (word / 65536) = a := ofNat_toNat_uint8 (by omega)
    have hbyte' : UInt8.ofNat (word / 256) = b := ofNat_toNat_uint8 (by omega)
    have hbyte'' : UInt8.ofNat word = c := ofNat_toNat_uint8 (by omega)
    have hlength : (4 - ((urlDigits rest).length + 1 + 1 + 1 + 1) % 4) % 4 =
        (4 - (urlDigits rest).length % 4) % 4 := by omega
    simp only [List.map_cons, List.cons_append, List.length_cons, hlength]
    rw [base64Bytes]
    · simp only [hfirst, hsecond, hthird, hfourth, ih, hword, hbyte, hbyte', hbyte'',
        Option.bind_eq_bind, Option.bind_some, Option.pure_def]
    · exact fun hthird' _ _ ↦ hpad hthird'
    · exact fun hfourth' _ ↦ hpad' hfourth'

theorem rawURLDecode_urlDigits (bytes : Bytes) : rawURLDecode (urlDigits bytes) = some bytes := by
  have hfilter : (urlDigits bytes).filter (fun c ↦ c ≠ '\r' && c ≠ '\n') = urlDigits bytes := by
    refine List.filter_eq_self.mpr fun c hc ↦ ?_
    obtain ⟨value, hvalue, rfl⟩ := mem_urlDigits hc
    obtain ⟨-, -, -, ⟨hreturn, hnewline, -⟩, -⟩ := urlDigit_spec value hvalue
    simp [hreturn, hnewline]
  have hany : (urlDigits bytes).any (fun c ↦ c = '+' || c = '/' || c = '=') = false := by
    refine List.any_eq_false.mpr fun c hc ↦ ?_
    obtain ⟨value, hvalue, rfl⟩ := mem_urlDigits hc
    obtain ⟨-, -, -, -, hplus, hslash, hequals⟩ := urlDigit_spec value hvalue
    simp [hplus, hslash, hequals]
  rw [rawURLDecode, hfilter, hany]
  exact base64Bytes_urlDigits bytes

theorem readField_append {α : Type} (label : String) (read : List Char → Option (α × List Char))
    (chars : List Char) : readField label read (label.toList ++ chars) = read chars := by
  have hdrop : label.toList.isPrefixOf? (label.toList ++ chars) = some chars := by
    induction label.toList with
    | nil => simp
    | cons c rest ih => simp [List.isPrefixOf?, ih]
  rw [readField, hdrop, Option.bind_some]

theorem readQuoted_jsonString (text : String) (rest : List Char) :
    readQuoted (jsonString text ++ rest) = some (text, rest) := by
  simp only [jsonString, List.cons_append, List.append_assoc, List.nil_append, readQuoted,
    readString_jsonString]

/-- A written number ends where no digit follows. -/
theorem readNumber_decimalDigits (number : ℕ) {rest : List Char}
    (hrest : ∀ c ∈ rest.head?, isDecimalDigit c = false) :
    readNumber (decimalDigits number ++ rest) = some (number, rest) := by
  have hdigits : ∀ c ∈ decimalDigits number, isDecimalDigit c = true :=
    fun _ ↦ isDecimalDigit_of_mem
  have hnone : rest.takeWhile isDecimalDigit = [] ∧ rest.dropWhile isDecimalDigit = rest := by
    cases rest with
    | nil => exact ⟨rfl, rfl⟩
    | cons c rest =>
      have hc := hrest c rfl
      simp [hc]
  rw [readNumber, List.takeWhile_append_of_pos hdigits, List.dropWhile_append_of_pos hdigits,
    hnone.1, hnone.2, List.append_nil, readDecimal_decimalDigits, Option.map_some]

theorem readUint32_decimalDigits (value : UInt32) {rest : List Char}
    (hrest : ∀ c ∈ rest.head?, isDecimalDigit c = false) :
    readUint32 (decimalDigits value.toNat ++ rest) = some (value, rest) := by
  simp [readUint32, readNumber_decimalDigits _ hrest, value.toNat_lt]

theorem readInt64_intDigits (value : Int64) {rest : List Char}
    (hrest : ∀ c ∈ rest.head?, isDecimalDigit c = false) :
    readInt64 (intDigits value ++ rest) = some (value, rest) := by
  have hlow := Int64.le_toInt value
  have hhigh := Int64.toInt_lt value
  have hzero : (0 : Int64).toInt = 0 := by decide
  unfold intDigits
  split
  · rename_i hneg
    rw [Int64.lt_iff_toInt_lt, hzero] at hneg
    have habs : -(value.toInt.natAbs : Int) = value.toInt := by omega
    have hbound : value.toInt.natAbs ≤ 2 ^ 63 := by omega
    simp only [List.cons_append, readInt64, readNumber_decimalDigits _ hrest,
      Option.bind_eq_bind, Option.bind_some, if_pos hbound, habs, Int64.ofInt_toInt,
      Option.pure_def]
  · rename_i hneg
    rw [Int64.lt_iff_toInt_lt, hzero] at hneg
    have habs : (value.toInt.natAbs : Int) = value.toInt := by omega
    have hbound : value.toInt.natAbs < 2 ^ 63 := by omega
    have hread := readNumber_decimalDigits value.toInt.natAbs hrest
    unfold readInt64
    split
    · rename_i chars hchars
      have hne : decimalDigits value.toInt.natAbs ≠ [] := by
        intro hnil
        have hdecimal := readDecimal_decimalDigits value.toInt.natAbs
        rw [hnil] at hdecimal
        cases hdecimal
      obtain ⟨c, digits, hdigits⟩ := List.exists_cons_of_ne_nil hne
      have hc : isDecimalDigit c = true := isDecimalDigit_of_mem (hdigits ▸ List.mem_cons_self)
      rw [hdigits, List.cons_append, List.cons.injEq] at hchars
      rw [hchars.1] at hc
      cases hc
    · simp only [hread, Option.bind_eq_bind, Option.bind_some, if_pos hbound, habs,
        Int64.ofInt_toInt, Option.pure_def]

/-- A label starts with a comma, which is no digit. -/
theorem head_label {label : String} (hlabel : label.toList.head? = some ',') (rest : List Char) :
    ∀ c ∈ (label.toList ++ rest).head?, isDecimalDigit c = false := by
  intro c hc
  rw [List.head?_append, hlabel, Option.some_or, Option.mem_some_iff] at hc
  rw [← hc]
  rfl

/-- The canonical text of claims reads back as the claims. -/
theorem decodeClaims_claimsText (claims : VaultBoardHandleClaims) :
    decodeClaims (textBytes (String.ofList (claimsText claims))) = some claims := by
  have hlabels : ∀ label ∈ [",\"kind\":", ",\"attempt\":", ",\"receiverSats\":",
      ",\"feeSats\":", ",\"registerExpireAt\":", ",\"deleteExpireAt\":"],
      label.toList.head? = some ',' := by decide +kernel
  simp only [List.forall_mem_cons, List.not_mem_nil, false_imp_iff, implies_true,
    and_true] at hlabels
  obtain ⟨hkind, hattempt, hreceiver, hfee, hregister, hdelete⟩ := hlabels
  have hclose : ∀ c ∈ ['\x7d'].head?, isDecimalDigit c = false := by simp [isDecimalDigit]
  unfold decodeClaims claimsText
  simp only [bytesText_textBytes, String.toList_ofList, List.append_assoc, readField_append,
    readQuoted_jsonString, readUint32_decimalDigits _ (head_label hkind _),
    readUint32_decimalDigits _ (head_label hattempt _),
    readUint32_decimalDigits _ (head_label hreceiver _), readInt64_intDigits _ (head_label hfee _),
    readInt64_intDigits _ (head_label hregister _), readInt64_intDigits _ (head_label hdelete _),
    readInt64_intDigits _ hclose, Option.bind_eq_bind, Option.bind_some, if_true, Option.pure_def]

/-- A handle that was sealed opens to its claims. -/
theorem openVaultBoardHandle_seal {service : BoardService} {claims : VaultBoardHandleClaims}
    {raw : String} (hseal : sealVaultBoardHandle service claims = .ok raw) :
    openVaultBoardHandle service raw claims.kind = .ok claims := by
  simp only [sealVaultBoardHandle, bind_eq_ok, rejectIf_eq_ok, pure_eq_ok] at hseal
  obtain ⟨_, hclaims, _, hsize, key, hkey, rfl⟩ := hseal
  have hdecode := decodeClaims_claimsText claims
  have hnonempty : (textBytes (String.ofList (claimsText claims))).length ≠ 0 := by
    intro hzero
    have hnone : decodeClaims [] = none := by decide +kernel
    rw [List.length_eq_zero_iff.mp hzero, hnone] at hdecode
    cases hdecode
  generalize hpayload : textBytes (String.ofList (claimsText claims)) = payload at *
  have hmac : (handleMAC service key payload).length = 32 := service.boardLedger.length_hmac _ _
  generalize hsig : handleMAC service key payload = sig at *
  have hdot : ∀ {bytes : Bytes}, ∀ c ∈ urlDigits bytes, decide (c ≠ '.') = true := by
    intro bytes c hc
    obtain ⟨value, hvalue, rfl⟩ := mem_urlDigits hc
    simpa using (urlDigit_spec value hvalue).2.2.2.1.2.2
  have hlength : (textBytes (String.ofList (urlDigits payload ++ '.' :: urlDigits sig))).length =
      (urlDigits payload ++ '.' :: urlDigits sig).length := by
    rw [length_textBytes_of_ascii, String.toList_ofList]
    intro c hc
    rw [String.toList_ofList, List.mem_append, List.mem_cons] at hc
    rcases hc with hc | rfl | hc
    · obtain ⟨value, hvalue, rfl⟩ := mem_urlDigits hc
      exact (urlDigit_spec value hvalue).2.2.1
    · rfl
    · obtain ⟨value, hvalue, rfl⟩ := mem_urlDigits hc
      exact (urlDigit_spec value hvalue).2.2.1
  have hcount : (urlDigits payload ++ '.' :: urlDigits sig).count '.' = 1 := by
    have hnone : ∀ bytes : Bytes, (urlDigits bytes).count '.' = 0 := fun bytes ↦
      List.count_eq_zero.mpr fun hc ↦ by simpa using hdot _ hc
    rw [List.count_append, List.count_cons_self, hnone, hnone]
  have htake : (urlDigits payload ++ '.' :: urlDigits sig).takeWhile (· ≠ '.') =
      urlDigits payload := by
    rw [List.takeWhile_append_of_pos hdot]
    simp
  have hdrop : ((urlDigits payload ++ '.' :: urlDigits sig).dropWhile (· ≠ '.')).drop 1 =
      urlDigits sig := by
    rw [List.dropWhile_append_of_pos hdot]
    simp
  have htext : String.ofList (urlDigits payload ++ '.' :: urlDigits sig) ≠ "" := by
    intro hempty
    rw [hempty, List.length_append, List.length_cons] at hlength
    exact absurd hlength (Nat.succ_ne_zero _).symm
  have hraw : ¬ vaultBoardHandleMax * 2 <
      (textBytes (String.ofList (urlDigits payload ++ '.' :: urlDigits sig))).length := by
    rw [hlength, List.length_append, List.length_cons, length_urlDigits, length_urlDigits, hmac]
    unfold vaultBoardHandleMax at hsize ⊢
    omega
  simp only [openVaultBoardHandle, String.toList_ofList, htake, hdrop, hcount, bind_eq_ok,
    rejectIf_eq_ok, orReject_eq_ok, pure_eq_ok, not_or, ne_eq, not_not]
  simp only [not_or, ne_eq, not_not] at hclaims
  obtain ⟨hversion, hvault, hid, htxid⟩ := hclaims
  exact ⟨(), ⟨htext, hraw, trivial⟩, payload, rawURLDecode_urlDigits payload, (),
    ⟨hnonempty, hsize⟩, sig, rawURLDecode_urlDigits sig, (), hmac, key, hkey, (), hsig.symm, claims,
    hdecode, (), ⟨hversion, rfl, hvault, hid, htxid⟩, (), hpayload, rfl⟩

/-- Short claims can be sealed, and the handle opens to them. -/
theorem openVaultBoardHandle_sealed {service : BoardService} {claims : VaultBoardHandleClaims}
    (hclaims : ¬ (claims.version ≠ 1 ∨ claims.vaultID = "" ∨ claims.operationID = "" ∨
      (requireTxid service.toService claims.txid).toOption = none))
    (hlength : (claimsText claims).length ≤ 384)
    (hkey : service.boardLedger.integrityKey.length = 32) :
    openVaultBoardHandle service ((sealVaultBoardHandle service claims).toOption.getD "")
      claims.kind = .ok claims := by
  have hsize : ¬ vaultBoardHandleMax < (textBytes (String.ofList (claimsText claims))).length := by
    have hbytes := length_textBytes_le (String.ofList (claimsText claims))
    rw [← String.length_toList, String.toList_ofList] at hbytes
    unfold vaultBoardHandleMax
    omega
  have hintegrity : credentialIntegrityKey service = .ok service.boardLedger.integrityKey := by
    simp [credentialIntegrityKey, hkey, rejectIf_of_not, bind_eq_ok]
  obtain ⟨raw, hseal⟩ : ∃ raw, sealVaultBoardHandle service claims = .ok raw := by
    simp only [sealVaultBoardHandle, bind_eq_ok, rejectIf_eq_ok, pure_eq_ok]
    exact ⟨_, (), hclaims, (), hsize, _, hintegrity, rfl⟩
  rw [hseal]
  exact openVaultBoardHandle_seal hseal

end ArkadeVault.Application
