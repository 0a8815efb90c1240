import Mathlib
import ArkadeVault.Library.Bytes
import ArkadeVault.Library.Checks

/-!
# The CBOR subset of WebAuthn

`decodeCBOR` reads integers, byte and text strings, booleans and maps, with lengths of at most two
bytes, and returns what is left of the input. The encoders write the same subset.

The decoder calls itself on what is left of its input. The model bounds the depth of these calls,
and `decodeCBOR_eq` shows that a bound by the length of the input is none: the decoder satisfies the
equation of the source, and never runs out. The two directions are `decodeCBOR_sound` (what is read
is what was written, so nothing but the shortest form is accepted) and `decodeCBOR_encodeValue`
(what was written is read back, whatever follows it). They rest on `header_eq` and `header_read`,
which say when a first byte and a length are the header of an item.

Scope. A Go string is the list of its bytes. The integers of the source are 64-bit words of which
the decoder produces 17 bits; here they are integers.
-/

set_option autoImplicit false
set_option relaxedAutoImplicit false

namespace ArkadeVault.Webauthn

open Library

/-! ### Values and their encoding -/

inductive CborValue
  | int (intVal : Int)
  | bytes (bytes : Bytes)
  | text (text : Bytes)
  | map (mapVal : List (CborValue × CborValue))
  | bool (boolVal : Bool)
  deriving Repr

def encodeCBORUnsigned (n : ℕ) : Bytes :=
  if n < 24 then [UInt8.ofNat n]
  else if n < 256 then [24, UInt8.ofNat n]
  else [25, UInt8.ofNat (n / 256), UInt8.ofNat n]

/-- `hdr[0] |= major << 5`. -/
def withMajor (major : UInt8) : Bytes → Bytes
  | [] => []
  | first :: rest => (first ||| major <<< 5) :: rest

/-- The argument is the negative number itself; `^n` is taken as a 64-bit word. -/
def encodeCBORNegative (n : Int) : Bytes :=
  withMajor 1 (encodeCBORUnsigned ((-n - 1) % 2 ^ 64).toNat)

def encodeCBORBytes (bytes : Bytes) : Bytes :=
  withMajor 2 (encodeCBORUnsigned bytes.length) ++ bytes

def encodeCBORText (text : Bytes) : Bytes :=
  withMajor 3 (encodeCBORUnsigned text.length) ++ text

def encodeCBORMap (pairs : List Bytes) : Bytes :=
  withMajor 5 (encodeCBORUnsigned pairs.length) ++ pairs.flatten

def encodeCBORBool (value : Bool) : Bytes := if value then [0xf5] else [0xf4]

mutual

/-- The encoding of a value by the encoders. -/
def encodeValue : CborValue → Bytes
  | .int n => if 0 ≤ n then encodeCBORUnsigned n.toNat else encodeCBORNegative n
  | .bytes bytes => encodeCBORBytes bytes
  | .text text => encodeCBORText text
  | .map pairs => encodeCBORMap (encodePairs pairs)
  | .bool value => encodeCBORBool value

/-- The encodings of the entries of a map. -/
def encodePairs : List (CborValue × CborValue) → List Bytes
  | [] => []
  | (key, val) :: rest => (encodeValue key ++ encodeValue val) :: encodePairs rest

end

/-! ### Decoding -/

variable {n : ℕ} {input : Bytes}

def maxCBORBytes : ℕ := 4096

/-- A failure of the decoder. `depth` is none of the source: the bound of the model was reached. -/
inductive CborError
  | depth
  | message (text : String)
  deriving DecidableEq, Repr

def decodeCBORLen (ai : UInt8) (rest : Bytes) : Except CborError (ℕ × Bytes) :=
  if ai < 24 then .ok (ai.toNat, rest)
  else if ai = 24 then
    match rest with
    | [] => .error (.message "truncated cbor length")
    | n :: rest =>
      if n < 24 then .error (.message "non-minimal cbor length") else .ok (n.toNat, rest)
  else if ai = 25 then
    match rest with
    | high :: low :: rest =>
      let n := high.toNat * 256 + low.toNat
      if n ≤ 0xff then .error (.message "non-minimal cbor length") else .ok (n, rest)
    | _ => .error (.message "truncated cbor length")
  else .error (.message "unsupported cbor additional info")

def CborValue.IsKey : CborValue → Bool
  | .int _ => true
  | .text _ => true
  | _ => false

def sameCBORMapKey : CborValue → CborValue → Bool
  | .int one, .int other => one = other
  | .text one, .text other => one = other
  | _, _ => false

/-- The loop over the entries of a map, with the entries read so far. -/
def decodePairs (decode : Bytes → Except CborError (CborValue × Bytes)) :
    ℕ → List (CborValue × CborValue) → Bytes →
      Except CborError (List (CborValue × CborValue) × Bytes)
  | 0, pairs, rest => .ok (pairs, rest)
  | count + 1, pairs, rest => do
    let (key, next) ← decode rest
    rejectIf (key.IsKey = false) (.message "unsupported cbor map key")
    rejectIf (pairs.any (fun pair ↦ sameCBORMapKey pair.1 key) = true)
      (.message "duplicate cbor map key")
    let (val, next) ← decode next
    decodePairs decode count (pairs ++ [(key, val)]) next

/-- The switch of `decodeCBOR` over the major type, with the decoder it calls. -/
def decodeMajor (decode : Bytes → Except CborError (CborValue × Bytes)) (major ai : UInt8) (n : ℕ)
    (rest : Bytes) : Except CborError (CborValue × Bytes) :=
  if major = 0 then pure (.int n, rest)
  else if major = 1 then pure (.int (-n - 1), rest)
  else if major = 2 then do
    rejectIf (rest.length < n) (.message "truncated cbor bytes")
    pure (.bytes (rest.take n), rest.drop n)
  else if major = 3 then do
    rejectIf (rest.length < n) (.message "truncated cbor text")
    pure (.text (rest.take n), rest.drop n)
  else if major = 7 then
    if ai = 20 then pure (.bool false, rest)
    else if ai = 21 then pure (.bool true, rest)
    else .error (.message "unsupported cbor simple value")
  else if major = 5 then do
    rejectIf (16 < n) (.message "cbor map too large")
    let (pairs, rest) ← decodePairs decode n [] rest
    pure (.map pairs, rest)
  else .error (.message ("unsupported cbor major type " ++ toString major.toNat))

/-- The body of `decodeCBOR`, with the decoder it calls. -/
def decodeItem (decode : Bytes → Except CborError (CborValue × Bytes)) :
    Bytes → Except CborError (CborValue × Bytes)
  | [] => .error (.message "truncated cbor")
  | first :: tail => do
    rejectIf (maxCBORBytes < (first :: tail).length) (.message "cbor too large")
    let major := first >>> 5
    let ai := first &&& 0x1f
    let (n, rest) ← decodeCBORLen ai tail
    decodeMajor decode major ai n rest

/-- The decoder with a bound on the depth of its calls. -/
def decodeWithin : ℕ → Bytes → Except CborError (CborValue × Bytes)
  | 0, _ => .error .depth
  | depth + 1, input => decodeItem (decodeWithin depth) input

def decodeCBOR (input : Bytes) : Except CborError (CborValue × Bytes) :=
  decodeWithin (input.length + 1) input

/-! ### Headers -/

variable {decode : Bytes → Except CborError (CborValue × Bytes)} {rest : Bytes}

/-- A byte is put together from its major type and its additional information. -/
theorem byte_split (first : UInt8) :
    (first &&& (0x1f : UInt8)) ||| (first >>> 5) <<< 5 = first := by
  have hbits : ∀ bits : Fin 256, (UInt8.ofNat bits &&& (0x1f : UInt8)) |||
      (UInt8.ofNat bits >>> 5) <<< 5 = UInt8.ofNat bits := by decide +kernel
  have := hbits ⟨first.toNat, first.toNat_lt⟩
  rwa [UInt8.ofNat_toNat] at this

theorem byte_join {ai major : UInt8} (hai : ai < 32) (hmajor : major < 8) :
    (ai ||| major <<< 5) &&& (0x1f : UInt8) = ai ∧ (ai ||| major <<< 5) >>> 5 = major := by
  have hbits : ∀ ai : Fin 32, ∀ major : Fin 8,
      (UInt8.ofNat ai ||| UInt8.ofNat major <<< 5) &&& (0x1f : UInt8) = UInt8.ofNat ai ∧
      (UInt8.ofNat ai ||| UInt8.ofNat major <<< 5) >>> 5 = UInt8.ofNat major := by decide +kernel
  have := hbits ⟨ai.toNat, UInt8.lt_iff_toNat_lt.mp hai⟩
    ⟨major.toNat, UInt8.lt_iff_toNat_lt.mp hmajor⟩
  rwa [UInt8.ofNat_toNat, UInt8.ofNat_toNat] at this

/-- The length that is read is the one whose shortest form was written. -/
theorem decodeCBORLen_eq_ok {ai : UInt8} {tail : Bytes}
    (hlen : decodeCBORLen ai tail = .ok (n, rest)) :
    n < 65536 ∧ ai :: tail = encodeCBORUnsigned n ++ rest := by
  unfold decodeCBORLen at hlen
  split_ifs at hlen with hshort hone htwo
  · cases hlen
    have hlt : ai.toNat < 24 := UInt8.lt_iff_toNat_lt.mp hshort
    exact ⟨by omega, by simp [encodeCBORUnsigned, hlt]⟩
  · split at hlen
    · cases hlen
    · rename_i byte rest'
      split_ifs at hlen with hminimal
      cases hlen
      have hge : ¬ byte.toNat < 24 := fun hlt ↦ hminimal (UInt8.lt_iff_toNat_lt.mpr hlt)
      have hlt := byte.toNat_lt
      exact ⟨by omega, by simp [encodeCBORUnsigned, hge, hlt, hone]⟩
  · split at hlen
    · rename_i high low rest'
      dsimp only at hlen
      split_ifs at hlen with hminimal
      cases hlen
      have hhigh := high.toNat_lt
      have hlow := low.toNat_lt
      have hdiv : (high.toNat * 256 + low.toNat) / 256 = high.toNat := by omega
      have hmod : UInt8.ofNat (high.toNat * 256 + low.toNat) = low := by
        apply UInt8.toNat_inj.mp
        rw [UInt8.toNat_ofNat']
        omega
      refine ⟨by omega, ?_⟩
      rw [encodeCBORUnsigned, if_neg (by omega), if_neg (by omega), hdiv, hmod, UInt8.ofNat_toNat,
        htwo]
      rfl
    · cases hlen

theorem toNat_ofNat_of_lt (hn : n < 256) : (UInt8.ofNat n).toNat = n := by
  rw [UInt8.toNat_ofNat', Nat.mod_eq_of_lt hn]

/-- The shortest form of a length is read back. -/
theorem decodeCBORLen_encode (hn : n < 65536) (rest : Bytes) :
    ∃ ai tail, encodeCBORUnsigned n = ai :: tail ∧ ai < 32 ∧
      decodeCBORLen ai (tail ++ rest) = .ok (n, rest) := by
  unfold encodeCBORUnsigned
  split_ifs with hshort hone
  · have hword := toNat_ofNat_of_lt (show n < 256 by omega)
    have hlt : UInt8.ofNat n < 24 := UInt8.lt_iff_toNat_lt.mpr (by rw [hword]; exact hshort)
    refine ⟨UInt8.ofNat n, [], rfl, UInt8.lt_trans hlt (by decide), ?_⟩
    simp [decodeCBORLen, hlt, hword]
  · have hword := toNat_ofNat_of_lt hone
    have hge : ¬ UInt8.ofNat n < 24 := fun hlt ↦ hshort (hword ▸ UInt8.lt_iff_toNat_lt.mp hlt)
    refine ⟨24, [UInt8.ofNat n], rfl, by decide, ?_⟩
    simp [decodeCBORLen, hge, hword]
  · have hhigh := toNat_ofNat_of_lt (show n / 256 < 256 by omega)
    have hlow : (UInt8.ofNat n).toNat = n % 256 := UInt8.toNat_ofNat'
    have hvalue : (UInt8.ofNat (n / 256)).toNat * 256 + (UInt8.ofNat n).toNat = n := by
      rw [hhigh, hlow]
      omega
    refine ⟨25, [UInt8.ofNat (n / 256), UInt8.ofNat n], rfl, by decide, ?_⟩
    have hminimal : ¬ n ≤ 255 := by omega
    have h24 : ¬ (25 : UInt8) < 24 := by decide
    simp only [decodeCBORLen, h24, ↓reduceIte, List.cons_append, List.nil_append, hvalue, hminimal]
    rfl

theorem encodeCBORUnsigned_ne_nil (n : ℕ) : encodeCBORUnsigned n ≠ [] := by
  unfold encodeCBORUnsigned
  split_ifs <;> simp

theorem header_ne_nil (major : UInt8) (n : ℕ) : withMajor major (encodeCBORUnsigned n) ≠ [] := by
  cases hheader : encodeCBORUnsigned n with
  | nil => exact absurd hheader (encodeCBORUnsigned_ne_nil n)
  | cons => simp [withMajor]

/-- The header of an item that is read is the one that was written for its length. -/
theorem header_eq {first : UInt8} {tail : Bytes}
    (hlen : decodeCBORLen (first &&& 0x1f) tail = .ok (n, rest)) :
    n < 65536 ∧ first :: tail = withMajor (first >>> 5) (encodeCBORUnsigned n) ++ rest := by
  obtain ⟨hn, hencoded⟩ := decodeCBORLen_eq_ok hlen
  refine ⟨hn, ?_⟩
  cases hheader : encodeCBORUnsigned n with
  | nil => exact absurd hheader (encodeCBORUnsigned_ne_nil n)
  | cons ai more =>
    rw [hheader, List.cons_append, List.cons.injEq] at hencoded
    rw [withMajor, List.cons_append, ← hencoded.1, ← hencoded.2, byte_split]

/-- A header that was written is read back. -/
theorem header_read (hn : n < 65536) {major : UInt8} (hmajor : major < 8) (rest : Bytes) :
    ∃ first tail, withMajor major (encodeCBORUnsigned n) = first :: tail ∧
      first >>> 5 = major ∧ decodeCBORLen (first &&& 0x1f) (tail ++ rest) = .ok (n, rest) := by
  obtain ⟨ai, tail, hheader, hai, hlen⟩ := decodeCBORLen_encode hn rest
  obtain ⟨hlow, hhigh⟩ := byte_join hai hmajor
  exact ⟨ai ||| major <<< 5, tail, by rw [hheader, withMajor], hhigh, hlow.symm ▸ hlen⟩

/-! ### What is read is what was written -/

/-- No two entries have the same key. -/
def DistinctKeys (pairs : List (CborValue × CborValue)) : Prop :=
  pairs.Pairwise fun one other ↦ sameCBORMapKey one.1 other.1 = false

mutual

/-- The values of the subset: integers of 17 bits, strings, booleans, and maps of at most 16 entries
with distinct integers or texts as keys. -/
def CborValue.WellFormed : CborValue → Prop
  | .int n => -65536 ≤ n ∧ n ≤ 65535
  | .bytes _ => True
  | .text _ => True
  | .map pairs => pairs.length ≤ 16 ∧ DistinctKeys pairs ∧ PairsWellFormed pairs
  | .bool _ => True

def PairsWellFormed : List (CborValue × CborValue) → Prop
  | [] => True
  | (key, val) :: rest =>
    key.IsKey = true ∧ key.WellFormed ∧ val.WellFormed ∧ PairsWellFormed rest

end

/-- A decoder that inverts the encoders. -/
def Inverts (decode : Bytes → Except CborError (CborValue × Bytes)) : Prop :=
  ∀ input value rest, decode input = .ok (value, rest) →
    input = encodeValue value ++ rest ∧ value.WellFormed

theorem distinctKeys_concat {pairs : List (CborValue × CborValue)} {key val : CborValue}
    (hpairs : DistinctKeys pairs)
    (hkey : ¬ pairs.any (fun pair ↦ sameCBORMapKey pair.1 key) = true) :
    DistinctKeys (pairs ++ [(key, val)]) := by
  refine List.pairwise_append.mpr ⟨hpairs, List.pairwise_singleton _ _, ?_⟩
  rintro one hone other hother
  cases List.mem_singleton.mp hother
  simp only [List.any_eq_true, not_exists, not_and, Bool.not_eq_true] at hkey
  exact hkey one hone

theorem decodePairs_sound
    (hinverts : Inverts decode) {count : ℕ} {pairs out : List (CborValue × CborValue)}
    (hdistinct : DistinctKeys pairs)
    (hpairs : decodePairs decode count pairs input = .ok (out, rest)) :
    ∃ new, out = pairs ++ new ∧ new.length = count ∧
      input = (encodePairs new).flatten ++ rest ∧ DistinctKeys out ∧ PairsWellFormed new := by
  induction count generalizing pairs input with
  | zero =>
    cases hpairs
    exact ⟨[], by simp [encodePairs, PairsWellFormed, hdistinct]⟩
  | succ count ih =>
    simp only [decodePairs, bind_eq_ok, rejectIf_eq_ok, Prod.exists, Bool.not_eq_false] at hpairs
    obtain ⟨key, afterKey, hkey, _, hkind, _, hfresh, val, afterVal, hval, hrest⟩ := hpairs
    obtain ⟨new, rfl, hlength, hencoded, hout, hnew⟩ :=
      ih (distinctKeys_concat hdistinct hfresh) hrest
    obtain ⟨hkeyInput, hkeyForm⟩ := hinverts _ _ _ hkey
    obtain ⟨hvalInput, hvalForm⟩ := hinverts _ _ _ hval
    refine ⟨(key, val) :: new, by simp, by simp [hlength], ?_, by simpa using hout, ?_⟩
    · simp [hkeyInput, hvalInput, hencoded, encodePairs]
    · exact ⟨hkind, hkeyForm, hvalForm, hnew⟩

theorem length_encodePairs (pairs : List (CborValue × CborValue)) :
    (encodePairs pairs).length = pairs.length := by
  induction pairs with
  | nil => rfl
  | cons pair rest ih => simp [encodePairs, ih]

theorem withMajor_zero (header : Bytes) : withMajor 0 header = header := by
  cases header with
  | nil => rfl
  | cons first rest =>
    have hzero : first ||| (0 : UInt8) <<< 5 = first := by simp
    rw [withMajor, hzero]

theorem encodeValue_negative (hn : n < 65536) :
    encodeValue (.int (-n - 1)) = withMajor 1 (encodeCBORUnsigned n) := by
  have hneg : ¬ (0 : Int) ≤ -n - 1 := by omega
  have hword : ((-(-(n : Int) - 1) - 1) % 2 ^ 64).toNat = n := by omega
  rw [encodeValue, if_neg hneg, encodeCBORNegative, hword]

theorem decodeItem_sound (hinverts : Inverts decode) : Inverts (decodeItem decode) := by
  intro input value rest hitem
  cases input with
  | nil => cases hitem
  | cons first tail =>
    simp only [decodeItem, bind_eq_ok, rejectIf_eq_ok, Prod.exists] at hitem
    obtain ⟨_, -, n, after, hlen, hitem⟩ := hitem
    obtain ⟨hn, hheader⟩ := header_eq hlen
    unfold decodeMajor at hitem
    split_ifs at hitem with hmajor hmajor hmajor hmajor hmajor hfalse htrue hmajor
    · cases hitem
      rw [hheader, hmajor, withMajor_zero]
      exact ⟨by simp [encodeValue], by simp only [CborValue.WellFormed]; omega⟩
    · cases hitem
      rw [hheader, hmajor, encodeValue_negative hn]
      exact ⟨rfl, by simp only [CborValue.WellFormed]; omega⟩
    · simp only [bind_eq_ok, rejectIf_eq_ok, pure_eq_ok, Prod.mk.injEq] at hitem
      obtain ⟨_, hlength, rfl, rfl⟩ := hitem
      have htake : (after.take n).length = n := List.length_take_of_le (Nat.le_of_not_lt hlength)
      rw [hheader, hmajor, encodeValue, encodeCBORBytes, htake, List.append_assoc,
        List.take_append_drop]
      exact ⟨rfl, trivial⟩
    · simp only [bind_eq_ok, rejectIf_eq_ok, pure_eq_ok, Prod.mk.injEq] at hitem
      obtain ⟨_, hlength, rfl, rfl⟩ := hitem
      have htake : (after.take n).length = n := List.length_take_of_le (Nat.le_of_not_lt hlength)
      rw [hheader, hmajor, encodeValue, encodeCBORText, htake, List.append_assoc,
        List.take_append_drop]
      exact ⟨rfl, trivial⟩
    · cases hitem
      rw [hfalse] at hlen
      cases hlen
      rw [hheader, hmajor]
      exact ⟨rfl, trivial⟩
    · cases hitem
      rw [htrue] at hlen
      cases hlen
      rw [hheader, hmajor]
      exact ⟨rfl, trivial⟩
    · simp only [bind_eq_ok, rejectIf_eq_ok, pure_eq_ok, Prod.exists, Prod.mk.injEq] at hitem
      obtain ⟨_, hcount, pairs, left, hpairs, rfl, rfl⟩ := hitem
      obtain ⟨new, rfl, hlength, hencoded, hdistinct, hnew⟩ :=
        decodePairs_sound hinverts List.Pairwise.nil hpairs
      have hentries : (encodePairs pairs).length = n := by rw [length_encodePairs, hlength]
      rw [hheader, hmajor, encodeValue, encodeCBORMap, hentries, hencoded, List.append_assoc]
      refine ⟨rfl, ?_⟩
      simp only [CborValue.WellFormed]
      exact ⟨by omega, hdistinct, hnew⟩

theorem decodeWithin_sound (depth : ℕ) : Inverts (decodeWithin depth) := by
  induction depth with
  | zero =>
    intro input value rest hread
    cases hread
  | succ depth ih => exact decodeItem_sound ih

theorem decodeCBOR_sound : Inverts decodeCBOR := fun input ↦ decodeWithin_sound _ input

/-- An encoding is not empty. -/
theorem encodeValue_ne_nil (value : CborValue) : encodeValue value ≠ [] := by
  cases value with
  | int n =>
    rw [encodeValue]
    split_ifs
    · exact encodeCBORUnsigned_ne_nil _
    · exact header_ne_nil _ _
  | bytes bytes => simp [encodeValue, encodeCBORBytes, header_ne_nil]
  | text text => simp [encodeValue, encodeCBORText, header_ne_nil]
  | map pairs => simp [encodeValue, encodeCBORMap, header_ne_nil]
  | bool value => cases value <;> simp [encodeValue, encodeCBORBool]

/-! ### The depth of the calls -/

/-- A decoder leaves less than it was given. -/
theorem Inverts.shrinks (hinverts : Inverts decode) {value : CborValue}
    (hread : decode input = .ok (value, rest)) : rest.length < input.length := by
  have hpos := List.length_pos_of_ne_nil (encodeValue_ne_nil value)
  rw [(hinverts _ _ _ hread).1, List.length_append]
  omega

theorem decodePairs_congr {other : Bytes → Except CborError (CborValue × Bytes)}
    (hinverts : Inverts decode) {bound : ℕ}
    (hsame : ∀ input, input.length < bound → decode input = other input) (count : ℕ)
    (pairs : List (CborValue × CborValue)) (hinput : input.length < bound) :
    decodePairs decode count pairs input = decodePairs other count pairs input := by
  induction count generalizing pairs input with
  | zero => rfl
  | succ count ih =>
    simp only [decodePairs, ← hsame input hinput]
    cases hkey : decode input with
    | error error => rfl
    | ok read =>
      obtain ⟨key, afterKey⟩ := read
      have hshort := hinverts.shrinks hkey
      simp only [ok_bind]
      refine bind_congr fun _ ↦ bind_congr fun _ ↦ ?_
      rw [← hsame afterKey (by omega)]
      cases hval : decode afterKey with
      | error error => rfl
      | ok read =>
        obtain ⟨val, afterVal⟩ := read
        exact ih _ ((hinverts.shrinks hval).trans (hshort.trans hinput))

/-- The body depends on the decoder it calls only for shorter inputs. -/
theorem decodeItem_congr {other : Bytes → Except CborError (CborValue × Bytes)}
    (hinverts : Inverts decode)
    (hsame : ∀ shorter, shorter.length < input.length → decode shorter = other shorter) :
    decodeItem decode input = decodeItem other input := by
  cases input with
  | nil => rfl
  | cons first tail =>
    simp only [decodeItem]
    refine bind_congr fun _ ↦ ?_
    cases hlen : decodeCBORLen (first &&& 0x1f) tail with
    | error error => rfl
    | ok read =>
      obtain ⟨n, rest⟩ := read
      have hheader := (header_eq hlen).2
      have hrest : rest.length < (first :: tail).length := by
        have hpos := List.length_pos_of_ne_nil (header_ne_nil (first >>> 5) n)
        rw [hheader, List.length_append]
        omega
      simp only [ok_bind, decodeMajor, decodePairs_congr hinverts hsame n [] hrest]

/-- More depth than the input is long changes nothing. -/
theorem decodeWithin_succ {depth : ℕ} (hdepth : input.length < depth) :
    decodeWithin depth input = decodeWithin (depth + 1) input := by
  induction depth generalizing input with
  | zero => omega
  | succ depth ih =>
    exact decodeItem_congr (decodeWithin_sound depth) fun shorter hshorter ↦ ih (by omega)

theorem decodeWithin_eq {depth : ℕ} (hdepth : input.length < depth) :
    decodeWithin depth input = decodeCBOR input := by
  induction depth, hdepth using Nat.le_induction with
  | base => rfl
  | succ depth hle ih => rw [← decodeWithin_succ hle, ih]

/-- The decoder is its body with itself as the decoder it calls. -/
theorem decodeCBOR_eq (input : Bytes) : decodeCBOR input = decodeItem decodeCBOR input :=
  decodeItem_congr (decodeWithin_sound input.length) fun _ ↦ decodeWithin_eq

theorem decodePairs_ne_depth (hinverts : Inverts decode) {bound : ℕ}
    (hdecode : ∀ input, input.length < bound → decode input ≠ .error .depth) (count : ℕ)
    (pairs : List (CborValue × CborValue)) (hinput : input.length < bound) :
    decodePairs decode count pairs input ≠ .error .depth := by
  induction count generalizing pairs input with
  | zero => simp [decodePairs]
  | succ count ih =>
    refine bind_ne_error (hdecode input hinput) fun ⟨key, afterKey⟩ hkey ↦ ?_
    have hshort := hinverts.shrinks hkey
    refine bind_ne_error (rejectIf_ne_error (by simp)) fun _ _ ↦
      bind_ne_error (rejectIf_ne_error (by simp)) fun _ _ ↦
        bind_ne_error (hdecode afterKey (by omega)) fun ⟨val, afterVal⟩ hval ↦ ?_
    have hshorter := hinverts.shrinks hval
    exact ih _ (by omega)

theorem decodeCBORLen_ne_depth (ai : UInt8) (rest : Bytes) :
    decodeCBORLen ai rest ≠ .error .depth := by
  unfold decodeCBORLen
  split_ifs
  · simp
  · split <;> simp
    split_ifs <;> simp
  · split <;> simp
    split_ifs <;> simp
  · simp

/-- The decoder never reaches its bound. -/
theorem decodeCBOR_ne_depth (input : Bytes) : decodeCBOR input ≠ .error .depth := by
  induction hlength : input.length using Nat.strong_induction_on generalizing input with
  | _ length ih =>
    subst hlength
    rw [decodeCBOR_eq]
    cases input with
    | nil => simp [decodeItem]
    | cons first tail =>
      refine bind_ne_error (rejectIf_ne_error (by simp)) fun _ _ ↦
        bind_ne_error (decodeCBORLen_ne_depth _ _) fun ⟨n, rest⟩ hlen ↦ ?_
      have hshort : rest.length < (first :: tail).length := by
        have hpos := List.length_pos_of_ne_nil (header_ne_nil (first >>> 5) n)
        rw [(header_eq hlen).2, List.length_append]
        omega
      simp only [decodeMajor]
      split_ifs
      · simp
      · simp
      · exact bind_ne_error (rejectIf_ne_error (by simp)) fun _ _ ↦ by simp
      · exact bind_ne_error (rejectIf_ne_error (by simp)) fun _ _ ↦ by simp
      · simp
      · simp
      · simp
      · refine bind_ne_error (rejectIf_ne_error (by simp)) fun _ _ ↦
          bind_ne_error ?_ fun _ _ ↦ by simp
        exact decodePairs_ne_depth decodeCBOR_sound
          (fun shorter hshorter ↦ ih _ hshorter shorter rfl) n [] hshort
      · simp

/-! ### What was written is read back -/

/-- After a header that was written, the switch is reached with its major type and length. -/
theorem decodeCBOR_header (hn : n < 65536) {major : UInt8} (hmajor : major < 8) (body : Bytes)
    (hlength : (withMajor major (encodeCBORUnsigned n) ++ body).length ≤ maxCBORBytes) :
    ∃ ai, decodeCBOR (withMajor major (encodeCBORUnsigned n) ++ body) =
      decodeMajor decodeCBOR major ai n body := by
  obtain ⟨first, tail, hheader, hfirst, hlen⟩ := header_read hn hmajor body
  refine ⟨first &&& 0x1f, ?_⟩
  rw [hheader, List.cons_append] at hlength ⊢
  rw [decodeCBOR_eq]
  simp only [decodeItem, rejectIf_of_not (Nat.not_lt.mpr hlength), ok_bind, hlen, hfirst]

/-- A string that fits the input has a length of two bytes. -/
theorem length_lt_of_fits {header body : Bytes}
    (hlength : (header ++ body ++ rest).length ≤ maxCBORBytes) : body.length < 65536 := by
  simp only [List.length_append, maxCBORBytes] at hlength
  omega

mutual

theorem decodeCBOR_encodeValue (value : CborValue) (hvalue : value.WellFormed) (rest : Bytes)
    (hlength : (encodeValue value ++ rest).length ≤ maxCBORBytes) :
    decodeCBOR (encodeValue value ++ rest) = .ok (value, rest) := by
  match value with
  | .int n =>
    simp only [CborValue.WellFormed] at hvalue
    by_cases hsign : 0 ≤ n
    · have hencode : encodeValue (.int n) = withMajor 0 (encodeCBORUnsigned n.toNat) := by
        rw [encodeValue, if_pos hsign, withMajor_zero]
      rw [hencode] at hlength ⊢
      obtain ⟨ai, hread⟩ := decodeCBOR_header (by omega) (by decide) rest hlength
      rw [hread]
      simp [decodeMajor, Int.toNat_of_nonneg hsign]
    · obtain ⟨k, rfl⟩ : ∃ k : ℕ, n = -k - 1 := ⟨(-n - 1).toNat, by omega⟩
      rw [encodeValue_negative (by omega)] at hlength ⊢
      obtain ⟨ai, hread⟩ := decodeCBOR_header (by omega) (by decide) rest hlength
      rw [hread]
      rfl
  | .bytes bytes =>
    simp only [encodeValue, encodeCBORBytes] at hlength ⊢
    have hbytes := length_lt_of_fits hlength
    rw [List.append_assoc] at hlength ⊢
    obtain ⟨ai, hread⟩ := decodeCBOR_header hbytes (by decide) (bytes ++ rest) hlength
    rw [hread]
    simp [decodeMajor, rejectIf]
  | .text text =>
    simp only [encodeValue, encodeCBORText] at hlength ⊢
    have htext := length_lt_of_fits hlength
    rw [List.append_assoc] at hlength ⊢
    obtain ⟨ai, hread⟩ := decodeCBOR_header htext (by decide) (text ++ rest) hlength
    rw [hread]
    simp [decodeMajor, rejectIf]
  | .bool value =>
    have hfits : ∀ first : UInt8, ¬ maxCBORBytes < (first :: rest).length := fun first ↦ by
      cases value <;> simp [encodeValue, encodeCBORBool] at hlength ⊢ <;> exact hlength
    cases value with
    | false =>
      simp only [encodeValue, encodeCBORBool, Bool.false_eq_true, ↓reduceIte, List.singleton_append]
      rw [decodeCBOR_eq]
      simp only [decodeItem, rejectIf_of_not (hfits _), ok_bind]
      rfl
    | true =>
      simp only [encodeValue, encodeCBORBool, ↓reduceIte, List.singleton_append]
      rw [decodeCBOR_eq]
      simp only [decodeItem, rejectIf_of_not (hfits _), ok_bind]
      rfl
  | .map pairs =>
    simp only [CborValue.WellFormed] at hvalue
    obtain ⟨hcount, hdistinct, hpairs⟩ := hvalue
    simp only [encodeValue, encodeCBORMap, length_encodePairs, List.append_assoc] at hlength ⊢
    obtain ⟨ai, hread⟩ := decodeCBOR_header (show pairs.length < 65536 by omega) (by decide)
      ((encodePairs pairs).flatten ++ rest) hlength
    have hentries : ((encodePairs pairs).flatten ++ rest).length ≤ maxCBORBytes :=
      le_trans (by simp) hlength
    have hloop := decodePairs_encodePairs pairs hpairs [] hdistinct rest hentries
    rw [hread]
    simp only [decodeMajor, rejectIf_of_not (Nat.not_lt.mpr hcount), ok_bind, hloop]
    rfl

theorem decodePairs_encodePairs (new : List (CborValue × CborValue)) (hnew : PairsWellFormed new)
    (pairs : List (CborValue × CborValue)) (hdistinct : DistinctKeys (pairs ++ new)) (rest : Bytes)
    (hlength : ((encodePairs new).flatten ++ rest).length ≤ maxCBORBytes) :
    decodePairs decodeCBOR new.length pairs ((encodePairs new).flatten ++ rest) =
      .ok (pairs ++ new, rest) := by
  match new with
  | [] => simp [encodePairs, decodePairs]
  | (key, val) :: new =>
    simp only [PairsWellFormed] at hnew
    obtain ⟨hkind, hkey, hval, hnew⟩ := hnew
    simp only [encodePairs, List.flatten_cons, List.append_assoc] at hlength ⊢
    have hvalLength : (encodeValue val ++ ((encodePairs new).flatten ++ rest)).length ≤
        maxCBORBytes := le_trans (by simp) hlength
    have hnewLength : ((encodePairs new).flatten ++ rest).length ≤ maxCBORBytes :=
      le_trans (by simp) hvalLength
    have hfresh : ¬ pairs.any (fun pair ↦ sameCBORMapKey pair.1 key) = true := by
      simp only [List.any_eq_true, not_exists, not_and, Bool.not_eq_true]
      intro pair hpair
      exact (List.pairwise_append.mp hdistinct).2.2 pair hpair (key, val) List.mem_cons_self
    have hrest := decodePairs_encodePairs new hnew (pairs ++ [(key, val)])
      (by simpa using hdistinct) rest hnewLength
    simp only [List.length_cons, decodePairs, decodeCBOR_encodeValue key hkey _ hlength, ok_bind,
      rejectIf_of_not (show ¬ key.IsKey = false by simp [hkind]), rejectIf_of_not hfresh,
      decodeCBOR_encodeValue val hval _ hvalLength, hrest]
    simp

end

/-- An input has at most one reading. -/
theorem reading_unique {value other : CborValue} (hvalue : value.WellFormed)
    (hother : other.WellFormed) {left : Bytes}
    (hlength : (encodeValue value ++ rest).length ≤ maxCBORBytes)
    (hsame : encodeValue value ++ rest = encodeValue other ++ left) :
    value = other ∧ rest = left := by
  have hread := decodeCBOR_encodeValue value hvalue rest hlength
  rw [hsame, decodeCBOR_encodeValue other hother left (hsame ▸ hlength)] at hread
  cases hread
  exact ⟨rfl, rfl⟩

/-- What is read is within the size limit. -/
theorem length_of_decodeCBOR {value : CborValue}
    (hread : decodeCBOR input = .ok (value, rest)) : input.length ≤ maxCBORBytes := by
  rw [decodeCBOR_eq] at hread
  cases input with
  | nil => exact Nat.zero_le _
  | cons first tail =>
    simp only [decodeItem, bind_eq_ok, rejectIf_eq_ok] at hread
    exact Nat.le_of_not_lt hread.choose_spec.1

/-- The decoder and the encoders are inverse to each other. The decoder returns on every input. What
it accepts is the encoding of the value it returns, of at least one byte, followed by what it
leaves; so only the shortest forms are accepted. The encoding of every value of the subset is read
back, whatever follows it within the size limit, and an input has at most one reading. -/
theorem decodeCBOR_inverse :
    (∀ input, decodeCBOR input = decodeItem decodeCBOR input ∧
      decodeCBOR input ≠ .error .depth) ∧
    (∀ input value rest, decodeCBOR input = .ok (value, rest) →
      input = encodeValue value ++ rest ∧ 0 < (encodeValue value).length ∧ value.WellFormed) ∧
    (∀ value, value.WellFormed → ∀ rest, (encodeValue value ++ rest).length ≤ maxCBORBytes →
      decodeCBOR (encodeValue value ++ rest) = .ok (value, rest)) ∧
    (∀ value other, value.WellFormed → other.WellFormed → ∀ rest left,
      (encodeValue value ++ rest).length ≤ maxCBORBytes →
      encodeValue value ++ rest = encodeValue other ++ left → value = other ∧ rest = left) := by
  refine ⟨fun input ↦ ⟨decodeCBOR_eq input, decodeCBOR_ne_depth input⟩,
    fun input value rest hread ↦ ?_, decodeCBOR_encodeValue,
    fun value other hvalue hother rest left ↦ reading_unique hvalue hother⟩
  obtain ⟨hinput, hform⟩ := decodeCBOR_sound input value rest hread
  exact ⟨hinput, List.length_pos_of_ne_nil (encodeValue_ne_nil value), hform⟩

/-- A map with two entries, followed by one more byte. -/
example : decodeCBOR [0xa2, 0x01, 0x02, 0x61, 0x61, 0xf5, 0x07] =
    .ok (.map [(.int 1, .int 2), (.text [0x61], .bool true)], [0x07]) := by
  rfl

end ArkadeVault.Webauthn
