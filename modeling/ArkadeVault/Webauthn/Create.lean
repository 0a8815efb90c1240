import Mathlib
import ArkadeVault.Library.Framing
import ArkadeVault.Webauthn.Cbor

/-!
# Attested credentials

The authenticator data of a create ceremony is a header of 55 bytes, whose last two are the length
of the credential id, then the id, the public key as a CBOR map and, if the extension flag of the
header is set, a CBOR map of extensions. `extractAttestedCredential` reads it; the authenticator
data comes inside an attestation object, itself a CBOR map, that `parseAttestationObject` reads.

`Layout` is what the bytes mean. The reader accepts only data that has a layout, which is then the
only one (`extractAttestedCredential_layout`), and it reads back what the builders of the package
write (`extractAttestedCredential_built`, `parseAttestationObject_encode`). All of it goes through
the two directions of the CBOR decoder.

Scope. P-256, SHA-256 and the quoting of a text in an error are parameters: `Primitives` states of
them that the decompression of a point inverts its compression.
-/

set_option autoImplicit false
set_option relaxedAutoImplicit false

namespace ArkadeVault.Webauthn

open Library

/-! ### Points -/

/-- The compressed form of a point. -/
def compressXY (x y : Bytes) : Bytes :=
  (if y.getLast?.getD 0 &&& (1 : UInt8) = 1 then 0x03 else 0x02) :: x

/-- The standard library as far as it is used here. -/
structure Primitives where
  sha256 : Bytes → Bytes
  /-- What `%q` prints for a text. -/
  quote : Bytes → String
  /-- Whether `ecdsa.ParseUncompressedPublicKey` accepts the coordinates. -/
  onCurve : Bytes → Bytes → Bool
  /-- The coordinates, of 32 bytes each, that `elliptic.UnmarshalCompressed` gives. -/
  unmarshalCompressed : Bytes → Option (Bytes × Bytes)
  length_sha256 : ∀ input, (sha256 input).length = 32
  decompress_compress : ∀ x y, x.length = 32 → y.length = 32 → onCurve x y = true →
    unmarshalCompressed (compressXY x y) = some (x, y)
  compress_decompress : ∀ compressed x y, unmarshalCompressed compressed = some (x, y) →
    x.length = 32 ∧ y.length = 32 ∧ onCurve x y = true ∧ compressXY x y = compressed

section Ceremonies

variable (primitives : Primitives)

/-- A public key is its two coordinates. -/
def parseCompressedP256 (compressed : Bytes) : Except String (Bytes × Bytes) := do
  rejectIf (compressed.length ≠ 33) "p256 must be 33-byte compressed"
  rejectIf (compressed.head? ≠ some 0x02 ∧ compressed.head? ≠ some 0x03) "p256 compressed prefix"
  let (x, y) ← orReject (primitives.unmarshalCompressed compressed) "p256 point is off-curve"
  rejectIf (primitives.onCurve x y = false) "p256 point is off-curve"
  pure (x, y)

def compressedP256XY (x y : Bytes) : Except String Bytes := do
  rejectIf (x.length ≠ 32 ∨ y.length ≠ 32) "p256 coordinates"
  rejectIf (primitives.onCurve x y = false) "p256 point is off-curve"
  let _ ← parseCompressedP256 primitives (compressXY x y)
  pure (compressXY x y)

/-! ### Reading -/

namespace CborValue

def mapInt (value : CborValue) (key : Int) : Option CborValue :=
  match value with
  | .map pairs => pairs.findSome? fun pair ↦ match pair.1 with
    | .int name => if name = key then some pair.2 else none
    | _ => none
  | _ => none

def mapText (value : CborValue) (key : Bytes) : Option CborValue :=
  match value with
  | .map pairs => pairs.findSome? fun pair ↦ match pair.1 with
    | .text name => if name = key then some pair.2 else none
    | _ => none
  | _ => none

def toInt? : CborValue → Option Int
  | .int n => some n
  | _ => none

def toBytes? : CborValue → Option Bytes
  | .bytes raw => some raw
  | _ => none

def toText? : CborValue → Option Bytes
  | .text raw => some raw
  | _ => none

def toMap? : CborValue → Option (List (CborValue × CborValue))
  | .map pairs => some pairs
  | _ => none

end CborValue

def coseKtyEC2 : Int := 2
def coseAlgES256 : Int := -7
def coseCrvP256 : Int := 1

def CborError.text : CborError → String
  | .depth => ""
  | .message text => text

/-- A coordinate of the key: 32 bytes under a label. -/
def coseCoordinate (key : CborValue) (label : Int) (error : String) : Except String Bytes := do
  let coordinate ← orReject ((key.mapInt label).bind CborValue.toBytes?) error
  rejectIf (coordinate.length ≠ 32) error
  pure coordinate

def parseCOSEES256 (raw : Bytes) : Except String (Bytes × Bytes) := do
  let (val, rest) ← mapFailure (fun error ↦ "cose key: " ++ CborError.text error) (decodeCBOR raw)
  rejectIf ((val.mapInt 1).bind CborValue.toInt? ≠ some coseKtyEC2) "cose kty must be EC2"
  rejectIf ((val.mapInt 3).bind CborValue.toInt? ≠ some coseAlgES256) "cose alg must be ES256"
  rejectIf ((val.mapInt (-1)).bind CborValue.toInt? ≠ some coseCrvP256) "cose curve must be P-256"
  let x ← coseCoordinate val (-2) "cose x must be 32 bytes"
  let y ← coseCoordinate val (-3) "cose y must be 32 bytes"
  let compressed ← compressedP256XY primitives x y
  pure (compressed, rest)

structure CreateResult where
  credentialID : Bytes
  webAuthnP256 : Bytes
  deriving DecidableEq, Repr

/-- Position of the credential id: behind hash, flags, counter, AAGUID and length. -/
def attestedHeader : ℕ := 37 + 16 + 2

def flagUP : UInt8 := 1
def flagUV : UInt8 := 4
def flagAT : UInt8 := 64
def flagED : UInt8 := 128

/-- Whether the extension flag is set. -/
def extensionFlag (auth : Bytes) : Bool := auth.getD 32 0 &&& flagED ≠ 0

/-- The length of the credential id, of two bytes. -/
def credentialLength (auth : Bytes) : ℕ := (auth.getD 53 0).toNat * 256 + (auth.getD 54 0).toNat

/-- What follows the key: one nonempty map if the flag is set, and nothing otherwise. -/
def checkExtensions (flagged : Bool) (rest : Bytes) : Except String Unit :=
  if flagged = true then do
    rejectIf (rest.length = 0) "authenticator extensions required"
    let (ext, left) ← mapFailure
      (fun error ↦ "authenticator extensions: " ++ CborError.text error) (decodeCBOR rest)
    let entries ← orReject ext.toMap? "authenticator extensions must be a non-empty map"
    rejectIf (entries.length = 0) "authenticator extensions must be a non-empty map"
    rejectIf (left.length ≠ 0) "trailing authenticator extension data"
  else rejectIf (rest.length ≠ 0) "unexpected trailing authenticator data"

def extractAttestedCredential (auth : Bytes) : Except String CreateResult := do
  rejectIf (auth.length < attestedHeader) "attested credential data truncated"
  let credLen := credentialLength auth
  rejectIf (credLen = 0 ∨ auth.length ≤ attestedHeader + credLen)
    "attested credential id truncated"
  let credID := (auth.drop attestedHeader).take credLen
  let (compressed, rest) ← parseCOSEES256 primitives (auth.drop (attestedHeader + credLen))
  checkExtensions (extensionFlag auth) rest
  pure ⟨credID, compressed⟩

def parseAttestationObject (raw : Bytes) : Except String Bytes := do
  let (val, rest) ← mapFailure (fun error ↦ "attestationObject: " ++ CborError.text error)
    (decodeCBOR raw)
  rejectIf (rest.length ≠ 0) "attestationObject trailing data"
  let format ← orReject ((val.mapText (textBytes "fmt")).bind CborValue.toText?)
    "attestationObject fmt required"
  rejectIf (format ≠ textBytes "none")
    ("unsupported attestation format " ++ primitives.quote format)
  let auth ← orReject ((val.mapText (textBytes "authData")).bind CborValue.toBytes?)
    "attestationObject authData required"
  rejectIf (auth.length < 37) "attestationObject authData required"
  pure auth

/-! ### Building -/

def encodeCOSEES256 (compressed : Bytes) : Except String Bytes := do
  let (x, y) ← parseCompressedP256 primitives compressed
  pure (encodeCBORMap [
    encodeCBORUnsigned 1 ++ encodeCBORUnsigned coseKtyEC2.toNat,
    encodeCBORUnsigned 3 ++ encodeCBORNegative coseAlgES256,
    encodeCBORNegative (-1) ++ encodeCBORUnsigned coseCrvP256.toNat,
    encodeCBORNegative (-2) ++ encodeCBORBytes x,
    encodeCBORNegative (-3) ++ encodeCBORBytes y])

def encodeNoneAttestationObject (authData : Bytes) : Bytes :=
  encodeCBORMap [
    encodeCBORText (textBytes "fmt") ++ encodeCBORText (textBytes "none"),
    encodeCBORText (textBytes "authData") ++ encodeCBORBytes authData,
    encodeCBORText (textBytes "attStmt") ++ encodeCBORMap []]

def attestedAuthenticatorData (rpID : String) (credID compressedP256 extensions : Bytes) :
    Except String Bytes := do
  let cose ← encodeCOSEES256 primitives compressedP256
  rejectIf (credID.length = 0 ∨ 1024 < credID.length) "credential id required"
  let flags := flagUP ||| flagUV ||| flagAT ||| if 0 < extensions.length then flagED else 0
  pure (primitives.sha256 (textBytes rpID) ++ [flags] ++ [0, 0, 0, 0] ++ List.replicate 16 0 ++
    [UInt8.ofNat (credID.length / 256), UInt8.ofNat credID.length] ++ credID ++ cose ++ extensions)

end Ceremonies

/-! ### Keys -/

section Keys

variable {primitives : Primitives} {x y compressed : Bytes}

theorem compressXY_shape (x y : Bytes) :
    (compressXY x y).length = x.length + 1 ∧
      ((compressXY x y).head? = some 0x02 ∨ (compressXY x y).head? = some 0x03) := by
  unfold compressXY
  split <;> simp

theorem parseCompressedP256_eq_ok
    (hparse : parseCompressedP256 primitives compressed = .ok (x, y)) :
    x.length = 32 ∧ y.length = 32 ∧ primitives.onCurve x y = true ∧
      compressXY x y = compressed := by
  simp only [parseCompressedP256, bind_eq_ok, rejectIf_eq_ok, orReject_eq_ok, pure_eq_ok,
    Prod.exists, Prod.mk.injEq] at hparse
  obtain ⟨_, -, _, -, _, _, hpoint, _, -, rfl, rfl⟩ := hparse
  exact primitives.compress_decompress _ _ _ hpoint

/-- The coordinates of a point are accepted, and give its compressed form. -/
theorem compressedP256XY_of_onCurve (hx : x.length = 32) (hy : y.length = 32)
    (hcurve : primitives.onCurve x y = true) :
    compressedP256XY primitives x y = .ok (compressXY x y) := by
  obtain ⟨hlength, hhead⟩ := compressXY_shape x y
  have hparse : parseCompressedP256 primitives (compressXY x y) = .ok (x, y) := by
    simp only [parseCompressedP256, primitives.decompress_compress x y hx hy hcurve, orReject,
      ok_bind, hcurve]
    rw [rejectIf_of_not (by omega), rejectIf_of_not (by tauto), rejectIf_of_not (by simp)]
    rfl
  simp only [compressedP256XY, hparse, ok_bind]
  rw [rejectIf_of_not (by omega), rejectIf_of_not (by simp [hcurve])]
  rfl

/-- The map of a key. -/
def coseMap (x y : Bytes) : List (CborValue × CborValue) :=
  [(.int 1, .int coseKtyEC2), (.int 3, .int coseAlgES256), (.int (-1), .int coseCrvP256),
    (.int (-2), .bytes x), (.int (-3), .bytes y)]

theorem coseMap_wellFormed (x y : Bytes) : (CborValue.map (coseMap x y)).WellFormed := by
  simp [CborValue.WellFormed, PairsWellFormed, coseMap, DistinctKeys, sameCBORMapKey,
    CborValue.IsKey, coseKtyEC2, coseAlgES256, coseCrvP256]

/-- A key takes 77 bytes. -/
theorem length_coseMap (hx : x.length = 32) (hy : y.length = 32) :
    (encodeValue (.map (coseMap x y))).length = 77 := by
  have hword (bytes : Bytes) (hbytes : bytes.length = 32) : (encodeCBORBytes bytes).length = 34 := by
    rw [encodeCBORBytes, hbytes, List.length_append, hbytes]
    rfl
  simp only [encodeValue, encodePairs, coseMap, encodeCBORMap, List.length_append,
    List.length_flatten, List.map_cons, List.sum_cons, hword x hx, hword y hy]
  rfl

theorem encodeCOSEES256_eq (hparse : parseCompressedP256 primitives compressed = .ok (x, y)) :
    encodeCOSEES256 primitives compressed = .ok (encodeValue (.map (coseMap x y))) := by
  simp only [encodeCOSEES256, hparse, ok_bind]
  simp [encodeValue, encodePairs, coseMap, coseKtyEC2, coseAlgES256, coseCrvP256]

/-- A key that was written is read back. -/
theorem parseCOSEES256_coseMap (hx : x.length = 32) (hy : y.length = 32)
    (hcurve : primitives.onCurve x y = true) (rest : Bytes)
    (hlength : (encodeValue (.map (coseMap x y)) ++ rest).length ≤ maxCBORBytes) :
    parseCOSEES256 primitives (encodeValue (.map (coseMap x y)) ++ rest) =
      .ok (compressXY x y, rest) := by
  have hread := decodeCBOR_encodeValue _ (coseMap_wellFormed x y) rest hlength
  simp only [parseCOSEES256, hread, mapFailure, ok_bind]
  simp [coseCoordinate, coseMap, CborValue.mapInt, CborValue.toInt?, CborValue.toBytes?, rejectIf,
    orReject, hx, hy, compressedP256XY_of_onCurve hx hy hcurve]

theorem coseCoordinate_eq_ok {key : CborValue} {label : Int} {error : String} {coordinate : Bytes}
    (hread : coseCoordinate key label error = .ok coordinate) :
    key.mapInt label = some (.bytes coordinate) := by
  simp only [coseCoordinate, bind_eq_ok, orReject_eq_ok, rejectIf_eq_ok, pure_eq_ok] at hread
  obtain ⟨_, hfound, _, -, rfl⟩ := hread
  obtain ⟨value, hvalue, hbytes⟩ := Option.bind_eq_some_iff.mp hfound
  cases value <;> simp [CborValue.toBytes?] at hbytes
  rw [hvalue, hbytes]

/-- A key that is read is one map, and its coordinates are those of the compressed form. -/
theorem parseCOSEES256_eq_ok {raw rest : Bytes}
    (hparse : parseCOSEES256 primitives raw = .ok (compressed, rest)) :
    ∃ pairs, raw = encodeValue (.map pairs) ++ rest ∧ (CborValue.map pairs).WellFormed ∧
      raw.length ≤ maxCBORBytes ∧
      ∃ x y, (CborValue.map pairs).mapInt (-2) = some (.bytes x) ∧
        (CborValue.map pairs).mapInt (-3) = some (.bytes y) ∧ compressed = compressXY x y := by
  simp only [parseCOSEES256, bind_eq_ok, mapFailure_eq_ok, rejectIf_eq_ok, pure_eq_ok,
    Prod.exists, Prod.mk.injEq] at hparse
  obtain ⟨value, left, hread, _, -, _, -, _, -, x, hx, y, hy, _, hpoint, rfl, rfl⟩ := hparse
  obtain ⟨hraw, hform⟩ := decodeCBOR_sound raw value left hread
  have hlabel := coseCoordinate_eq_ok hx
  cases value with
  | map pairs =>
    simp only [compressedP256XY, bind_eq_ok, rejectIf_eq_ok, pure_eq_ok] at hpoint
    obtain ⟨_, -, _, -, _, -, rfl⟩ := hpoint
    exact ⟨pairs, hraw, hform, length_of_decodeCBOR hread, x, y, hlabel,
      coseCoordinate_eq_ok hy, rfl⟩
  | int n => cases hlabel
  | bytes bytes => cases hlabel
  | text text => cases hlabel
  | bool value => cases hlabel

end Keys

/-! ### The layout of authenticator data -/

/-- The parts of authenticator data. -/
structure Layout where
  header : Bytes
  credentialID : Bytes
  key : List (CborValue × CborValue)
  extensions : Option (List (CborValue × CborValue))

namespace Layout

def extensionBytes (layout : Layout) : Bytes :=
  layout.extensions.elim [] fun entries ↦ encodeValue (.map entries)

/-- The data consists of these parts: a header that gives the length of the id, the id, one map, and
one nonempty map more if and only if the flag is set. -/
structure Describes (layout : Layout) (auth : Bytes) : Prop where
  whole : auth = layout.header ++ (layout.credentialID ++
    (encodeValue (.map layout.key) ++ layout.extensionBytes))
  header : layout.header.length = attestedHeader
  credential : layout.credentialID.length = credentialLength auth
  key : (CborValue.map layout.key).WellFormed
  flag : layout.extensions.isSome = extensionFlag auth
  extensions : ∀ entries, layout.extensions = some entries →
    entries ≠ [] ∧ (CborValue.map entries).WellFormed

variable {layout other : Layout} {auth : Bytes}

theorem Describes.drop (hlayout : layout.Describes auth) :
    auth.drop (attestedHeader + credentialLength auth) =
      encodeValue (.map layout.key) ++ layout.extensionBytes := by
  have hlength : attestedHeader + credentialLength auth =
      (layout.header ++ layout.credentialID).length := by
    rw [List.length_append, hlayout.header, hlayout.credential]
  rw [hlength]
  conv_lhs => rw [hlayout.whole, ← List.append_assoc]
  exact List.drop_left

/-- Data whose key and extensions are within the size limit has one layout at most. -/
theorem Describes.unique
    (hlength : (auth.drop (attestedHeader + credentialLength auth)).length ≤ maxCBORBytes)
    (hlayout : layout.Describes auth) (hother : other.Describes auth) : layout = other := by
  have hparts := hlayout.whole.symm.trans hother.whole
  obtain ⟨hheader, hparts⟩ := List.append_inj hparts (hlayout.header.trans hother.header.symm)
  obtain ⟨hcredential, hparts⟩ :=
    List.append_inj hparts (hlayout.credential.trans hother.credential.symm)
  rw [hlayout.drop] at hlength
  obtain ⟨hkey, hextensions⟩ := reading_unique hlayout.key hother.key hlength hparts
  have hflag := hlayout.flag.trans hother.flag.symm
  have hsame : layout.extensions = other.extensions := by
    cases hone : layout.extensions with
    | none =>
      have htwo : other.extensions = none := by simpa [hone] using hflag
      exact htwo.symm
    | some entries =>
      obtain ⟨more, htwo⟩ := Option.isSome_iff_exists.mp (hflag.symm.trans (by simp [hone]))
      simp only [extensionBytes, hone, htwo, Option.elim_some] at hextensions hlength
      have hfits : (encodeValue (.map entries) ++ []).length ≤ maxCBORBytes := by
        rw [List.append_nil]
        exact le_trans (by simp) hlength
      have hmaps := (reading_unique (hlayout.extensions entries hone).2
        (hother.extensions more htwo).2 hfits (congrArg (· ++ []) hextensions)).1
      cases hmaps
      exact htwo.symm
  obtain ⟨header, credentialID, key, extensions⟩ := layout
  obtain ⟨header', credentialID', key', extensions'⟩ := other
  cases hkey
  cases hheader
  cases hcredential
  cases hsame
  rfl

end Layout

/-! ### Reading and building -/

section Results

variable {primitives : Primitives} {auth : Bytes} {result : CreateResult}

theorem checkExtensions_eq_ok {flagged : Bool} {rest : Bytes}
    (hcheck : checkExtensions flagged rest = .ok ()) :
    ∃ extensions : Option (List (CborValue × CborValue)), extensions.isSome = flagged ∧
      rest = (extensions.elim [] fun entries ↦ encodeValue (.map entries)) ∧
      ∀ entries, extensions = some entries →
        entries ≠ [] ∧ (CborValue.map entries).WellFormed := by
  unfold checkExtensions at hcheck
  split at hcheck
  · rename_i hflagged
    simp only [bind_eq_ok, rejectIf_eq_ok, mapFailure_eq_ok, orReject_eq_ok, Prod.exists,
      not_not, List.length_eq_zero_iff] at hcheck
    obtain ⟨_, -, value, left, hread, entries, hmap, _, hne, rfl⟩ := hcheck
    obtain ⟨hrest, hform⟩ := decodeCBOR_sound rest value [] hread
    cases value <;> simp only [CborValue.toMap?, Option.some.injEq, reduceCtorEq] at hmap
    cases hmap
    refine ⟨some entries, hflagged.symm, by simpa using hrest, fun other hother ↦ ?_⟩
    cases hother
    exact ⟨hne, hform⟩
  · rename_i hflagged
    simp only [rejectIf_eq_ok, not_not, List.length_eq_zero_iff] at hcheck
    exact ⟨none, by simpa using hflagged, hcheck, by simp⟩

/-- Accepted data has exactly one layout, with the id and the key that are returned. -/
theorem extractAttestedCredential_layout
    (hextract : extractAttestedCredential primitives auth = .ok result) :
    ∃ layout : Layout, layout.Describes auth ∧ result.credentialID = layout.credentialID ∧
      (∃ x y, (CborValue.map layout.key).mapInt (-2) = some (.bytes x) ∧
        (CborValue.map layout.key).mapInt (-3) = some (.bytes y) ∧
        result.webAuthnP256 = compressXY x y) ∧
      ∀ other : Layout, other.Describes auth → other = layout := by
  simp only [extractAttestedCredential, bind_eq_ok, rejectIf_eq_ok, pure_eq_ok, Prod.exists,
    not_or, Nat.not_lt, Nat.not_le] at hextract
  obtain ⟨_, hheader, _, ⟨-, hcredential⟩, compressed, rest, hkey, _, hcheck, rfl⟩ := hextract
  obtain ⟨pairs, hraw, hform, hfits, hpoint⟩ := parseCOSEES256_eq_ok hkey
  obtain ⟨extensions, hflag, hrest, hentries⟩ := checkExtensions_eq_ok hcheck
  have hlayout : Layout.Describes ⟨auth.take attestedHeader,
      (auth.drop attestedHeader).take (credentialLength auth), pairs, extensions⟩ auth := by
    refine ⟨?_, by simp [hheader], ?_, hform, hflag, hentries⟩
    · rw [Layout.extensionBytes, ← hrest, ← hraw, ← List.drop_drop, List.take_append_drop,
        List.take_append_drop]
    · simp only [List.length_take, List.length_drop]
      omega
  exact ⟨_, hlayout, rfl, hpoint, fun other hother ↦ hother.unique hfits hlayout⟩

/-- Extensions of an authenticator: none, or one nonempty map. -/
def IsExtensions (extensions : Bytes) : Prop :=
  extensions = [] ∨ ∃ entries, entries ≠ [] ∧ (CborValue.map entries).WellFormed ∧
    extensions = encodeValue (.map entries)

theorem checkExtensions_of_isExtensions {extensions : Bytes} (hextensions : IsExtensions extensions)
    (hlength : extensions.length ≤ maxCBORBytes) :
    checkExtensions (decide (0 < extensions.length)) extensions = .ok () := by
  rcases hextensions with rfl | ⟨entries, hne, hform, rfl⟩
  · rfl
  · have hpos := List.length_pos_of_ne_nil (encodeValue_ne_nil (.map entries))
    have hread : decodeCBOR (encodeValue (.map entries)) = .ok (.map entries, []) := by
      have := decodeCBOR_encodeValue (.map entries) hform [] (by simpa using hlength)
      rwa [List.append_nil] at this
    rw [checkExtensions, if_pos (decide_eq_true hpos), rejectIf_of_not (Nat.ne_of_gt hpos), hread]
    simp [rejectIf, mapFailure, CborValue.toMap?, orReject, hne]

/-- The header that the builder writes. -/
def builtHeader (primitives : Primitives) (rpID : String) (credID extensions : Bytes) : Bytes :=
  primitives.sha256 (textBytes rpID) ++
    ((flagUP ||| flagUV ||| flagAT ||| if 0 < extensions.length then flagED else 0) ::
      ([0, 0, 0, 0] ++ List.replicate 16 0 ++
        [UInt8.ofNat (credID.length / 256), UInt8.ofNat credID.length]))

theorem length_builtHeader (primitives : Primitives) (rpID : String)
    (credID extensions : Bytes) :
    (builtHeader primitives rpID credID extensions).length = attestedHeader := by
  simp [builtHeader, primitives.length_sha256, attestedHeader]

theorem getD_builtHeader (primitives : Primitives) (rpID : String)
    (credID extensions rest : Bytes) (index : ℕ) :
    (builtHeader primitives rpID credID extensions ++ rest).getD (32 + index) 0 =
      (((flagUP ||| flagUV ||| flagAT ||| if 0 < extensions.length then flagED else 0) ::
        ([0, 0, 0, 0] ++ List.replicate 16 0 ++
          [UInt8.ofNat (credID.length / 256), UInt8.ofNat credID.length])) ++ rest).getD
            index 0 := by
  rw [builtHeader, List.append_assoc, List.getD_append_right _ _ _ _
    (by rw [primitives.length_sha256]; omega), primitives.length_sha256, Nat.add_sub_cancel_left]

theorem extensionFlag_built (rpID : String) (credID extensions rest : Bytes) :
    extensionFlag (builtHeader primitives rpID credID extensions ++ rest) =
      decide (0 < extensions.length) := by
  have hflags := getD_builtHeader primitives rpID credID extensions rest 0
  simp only [Nat.add_zero, List.cons_append, List.getD_cons_zero] at hflags
  rw [extensionFlag, hflags]
  by_cases hextensions : 0 < extensions.length
  · rw [if_pos hextensions, decide_eq_true hextensions]
    rfl
  · rw [if_neg hextensions, decide_eq_false hextensions]
    rfl

theorem credentialLength_built {credID : Bytes} (hcredID : credID.length < 65536) (rpID : String)
    (extensions rest : Bytes) :
    credentialLength (builtHeader primitives rpID credID extensions ++ rest) = credID.length := by
  have hhigh := getD_builtHeader primitives rpID credID extensions rest 21
  have hlow := getD_builtHeader primitives rpID credID extensions rest 22
  have hhigh' : (builtHeader primitives rpID credID extensions ++ rest).getD 53 0 =
      UInt8.ofNat (credID.length / 256) := hhigh.trans rfl
  have hlow' : (builtHeader primitives rpID credID extensions ++ rest).getD 54 0 =
      UInt8.ofNat credID.length := hlow.trans rfl
  rw [credentialLength, hhigh', hlow', toNat_ofNat_of_lt (by omega), UInt8.toNat_ofNat']
  omega

theorem attestedAuthenticatorData_eq {x y credID compressed : Bytes}
    (hparse : parseCompressedP256 primitives compressed = .ok (x, y)) (hpos : 1 ≤ credID.length)
    (hshort : credID.length ≤ 1024) (rpID : String) (extensions : Bytes) :
    attestedAuthenticatorData primitives rpID credID compressed extensions =
      .ok (builtHeader primitives rpID credID extensions ++
        (credID ++ (encodeValue (.map (coseMap x y)) ++ extensions))) := by
  simp only [attestedAuthenticatorData, encodeCOSEES256_eq hparse, ok_bind, builtHeader]
  rw [rejectIf_of_not (by omega), ok_bind]
  simp only [List.append_assoc, List.cons_append, List.nil_append]
  rfl

/-- What the builder writes is read back. -/
theorem extractAttestedCredential_built {x y credID compressed extensions : Bytes}
    (hparse : parseCompressedP256 primitives compressed = .ok (x, y)) (hpos : 1 ≤ credID.length)
    (hshort : credID.length ≤ 1024) (hextensions : IsExtensions extensions)
    (hfits : 77 + extensions.length ≤ maxCBORBytes) (rpID : String) :
    extractAttestedCredential primitives (builtHeader primitives rpID credID extensions ++
      (credID ++ (encodeValue (.map (coseMap x y)) ++ extensions))) =
        .ok ⟨credID, compressed⟩ := by
  obtain ⟨hx, hy, hcurve, hcompressed⟩ := parseCompressedP256_eq_ok hparse
  have hheader := length_builtHeader primitives rpID credID extensions
  have hkey := length_coseMap hx hy
  have hcheck := checkExtensions_of_isExtensions hextensions (by omega)
  have hread := parseCOSEES256_coseMap hx hy hcurve extensions (by simpa [hkey] using hfits)
  simp only [extractAttestedCredential, extensionFlag_built,
    credentialLength_built (show credID.length < 65536 by omega)]
  rw [rejectIf_of_not (by simp only [List.length_append]; omega), ok_bind,
    rejectIf_of_not (by simp only [List.length_append]; omega), ok_bind, ← List.drop_drop,
    ← hheader, List.drop_left, List.drop_left, hread, ok_bind, hcheck, ok_bind, List.take_left,
    hcompressed]
  rfl

/-- The map of an attestation object without a statement. -/
def noneMap (authData : Bytes) : List (CborValue × CborValue) :=
  [(.text (textBytes "fmt"), .text (textBytes "none")),
    (.text (textBytes "authData"), .bytes authData), (.text (textBytes "attStmt"), .map [])]

theorem noneMap_wellFormed (authData : Bytes) :
    (CborValue.map (noneMap authData)).WellFormed := by
  simp [CborValue.WellFormed, PairsWellFormed, noneMap, DistinctKeys, sameCBORMapKey,
    CborValue.IsKey]

/-- The authenticator data inside an attestation object is read back. -/
theorem parseAttestationObject_encode {authData : Bytes} (hlong : 37 ≤ authData.length)
    (hfits : (encodeNoneAttestationObject authData).length ≤ maxCBORBytes) :
    parseAttestationObject primitives (encodeNoneAttestationObject authData) = .ok authData := by
  have hencode : encodeNoneAttestationObject authData = encodeValue (.map (noneMap authData)) := by
    simp [encodeNoneAttestationObject, encodeValue, encodePairs, noneMap]
  have hread : decodeCBOR (encodeNoneAttestationObject authData) =
      .ok (.map (noneMap authData), []) := by
    rw [hencode] at hfits ⊢
    have := decodeCBOR_encodeValue _ (noneMap_wellFormed authData) [] (by simpa using hfits)
    rwa [List.append_nil] at this
  have hformat : (CborValue.map (noneMap authData)).mapText (textBytes "fmt") =
      some (.text (textBytes "none")) := by
    simp [CborValue.mapText, noneMap]
  have hauth : (CborValue.map (noneMap authData)).mapText (textBytes "authData") =
      some (.bytes authData) := by
    simp [CborValue.mapText, noneMap]
  simp [parseAttestationObject, hread, mapFailure, rejectIf, orReject, hformat, hauth,
    CborValue.toText?, CborValue.toBytes?, hlong]

end Results

/-- Attested credentials are parsed uniquely and completely. What the package builds, for every id
of 1 to 1024 bytes, every valid key and all extensions that fit, is read back, and so is the
authenticator data from an attestation object that fits. Accepted data consists in exactly one way
of header, id, one map and, if and only if the flag is set, one nonempty map more. -/
theorem attestedCredential_parsed (primitives : Primitives) :
    (∀ rpID credID compressed extensions, 1 ≤ credID.length → credID.length ≤ 1024 →
      (∃ point, parseCompressedP256 primitives compressed = .ok point) →
      IsExtensions extensions → 77 + extensions.length ≤ maxCBORBytes →
      ∃ auth, attestedAuthenticatorData primitives rpID credID compressed extensions = .ok auth ∧
        extractAttestedCredential primitives auth = .ok ⟨credID, compressed⟩ ∧
        ((encodeNoneAttestationObject auth).length ≤ maxCBORBytes →
          parseAttestationObject primitives (encodeNoneAttestationObject auth) = .ok auth)) ∧
    (∀ auth result, extractAttestedCredential primitives auth = .ok result →
      ∃ layout : Layout, layout.Describes auth ∧ result.credentialID = layout.credentialID ∧
        (∃ x y, (CborValue.map layout.key).mapInt (-2) = some (.bytes x) ∧
          (CborValue.map layout.key).mapInt (-3) = some (.bytes y) ∧
          result.webAuthnP256 = compressXY x y) ∧
        ∀ other : Layout, other.Describes auth → other = layout) := by
  refine ⟨fun rpID credID compressed extensions hpos hshort hpoint hextensions hfits ↦ ?_,
    fun auth result ↦ extractAttestedCredential_layout⟩
  obtain ⟨⟨x, y⟩, hparse⟩ := hpoint
  refine ⟨_, attestedAuthenticatorData_eq hparse hpos hshort rpID extensions,
    extractAttestedCredential_built hparse hpos hshort hextensions hfits rpID,
    parseAttestationObject_encode ?_⟩
  rw [List.length_append, length_builtHeader, attestedHeader]
  omega

namespace CreateSample

/-- The point of the private key one, as in `create_test.go`. -/
def x : Bytes :=
  [0x6b, 0x17, 0xd1, 0xf2, 0xe1, 0x2c, 0x42, 0x47, 0xf8, 0xbc, 0xe6, 0xe5, 0x63, 0xa4, 0x40, 0xf2,
    0x77, 0x03, 0x7d, 0x81, 0x2d, 0xeb, 0x33, 0xa0, 0xf4, 0xa1, 0x39, 0x45, 0xd8, 0x98, 0xc2, 0x96]

def y : Bytes :=
  [0x4f, 0xe3, 0x42, 0xe2, 0xfe, 0x1a, 0x7f, 0x9b, 0x8e, 0xe7, 0xeb, 0x4a, 0x7c, 0x0f, 0x9e, 0x16,
    0x2b, 0xce, 0x33, 0x57, 0x6b, 0x31, 0x5e, 0xce, 0xcb, 0xb6, 0x40, 0x68, 0x37, 0xbf, 0x51, 0xf5]

/-- The library on this one point. -/
def primitives : Primitives where
  sha256 := checksum
  quote := bytesText
  onCurve := fun first second ↦ first = x ∧ second = y
  unmarshalCompressed := fun compressed ↦ if compressed = compressXY x y then some (x, y) else none
  length_sha256 := length_checksum
  decompress_compress := by
    intro first second _ _ hpoint
    obtain ⟨rfl, rfl⟩ := of_decide_eq_true hpoint
    exact if_pos rfl
  compress_decompress := by
    intro compressed first second hpoint
    split_ifs at hpoint with hcompressed
    cases hpoint
    exact ⟨rfl, rfl, by simp, hcompressed.symm⟩

/-- The extensions `{"prf": true}`. -/
def extensions : Bytes := encodeValue (.map [(.text (textBytes "prf"), .bool true)])

end CreateSample

open CreateSample in
/-- An id of two bytes and one extension. -/
theorem attestedCredential_parsed_generator :
    ∃ auth, attestedAuthenticatorData primitives "rp" [7, 8] (0x03 :: x) extensions = .ok auth ∧
      extractAttestedCredential primitives auth = .ok ⟨[7, 8], 0x03 :: x⟩ ∧
      parseAttestationObject primitives (encodeNoneAttestationObject auth) = .ok auth := by
  have hform : (CborValue.map [(.text (textBytes "prf"), .bool true)]).WellFormed := by
    simp [CborValue.WellFormed, PairsWellFormed, DistinctKeys, CborValue.IsKey]
  obtain ⟨auth, hbuilt, hread, hparse⟩ := (attestedCredential_parsed primitives).1 "rp" [7, 8]
    (0x03 :: x) extensions (by decide) (by decide) ⟨(x, y), by decide +kernel⟩
    (.inr ⟨_, by simp, hform, rfl⟩) (by decide +kernel)
  refine ⟨auth, hbuilt, hread, hparse ?_⟩
  have hlength : (attestedAuthenticatorData primitives "rp" [7, 8] (0x03 :: x) extensions).map
      (fun auth ↦ decide ((encodeNoneAttestationObject auth).length ≤ maxCBORBytes)) =
        .ok true := by
    decide +kernel
  rw [hbuilt] at hlength
  exact of_decide_eq_true (Except.ok.inj hlength)

end ArkadeVault.Webauthn
