import Mathlib
import ArkadeVault.Library.Bytes

/-!
# Payloads that can be read back

A payload is a concatenation. Where each part tells its own end, equal payloads have equal parts:
a number in a fixed width (`littleEndian_append`), a field behind its length (`frame_append`), a
fixed number of such fields (`frames_append`). Each lemma is an equivalence with an arbitrary rest,
so that a layout is read back from left to right by rewriting.

Where two parts merely follow each other, the border between them is lost: equal payloads have
equal parts or the border lies elsewhere (`append_eq_iff_shifted`).
-/

set_option autoImplicit false
set_option relaxedAutoImplicit false

namespace ArkadeVault.Library

/-! ### Numbers of a fixed width -/

@[simp] theorem length_littleEndian (width number : ℕ) :
    (littleEndian width number).length = width := by
  induction width generalizing number with
  | zero => rfl
  | succ width ih => rw [littleEndian, List.length_cons, ih]

/-- The low bytes of two numbers agree when the numbers do up to the width. -/
theorem littleEndian_inj {width first second : ℕ} :
    littleEndian width first = littleEndian width second ↔
      first % 256 ^ width = second % 256 ^ width := by
  induction width generalizing first second with
  | zero => simp [littleEndian, Nat.mod_one]
  | succ width ih =>
    have hbyte : UInt8.ofNat first = UInt8.ofNat second ↔ first % 256 = second % 256 := by
      rw [← UInt8.toNat_inj, UInt8.toNat_ofNat', UInt8.toNat_ofNat']
    rw [littleEndian, littleEndian, List.cons.injEq, ih, hbyte, Nat.pow_succ', Nat.mod_mul,
      Nat.mod_mul]
    have hfirst := Nat.mod_lt first (show 0 < 256 by decide)
    have hsecond := Nat.mod_lt second (show 0 < 256 by decide)
    constructor
    · rintro ⟨hlow, hhigh⟩
      rw [hlow, hhigh]
    · intro hsum
      omega

/-- A number of a fixed width is read back from the front of a payload, up to its width. -/
theorem littleEndian_append {width first second : ℕ} {rest rest' : Bytes} :
    littleEndian width first ++ rest = littleEndian width second ++ rest' ↔
      first % 256 ^ width = second % 256 ^ width ∧ rest = rest' := by
  rw [← littleEndian_inj]
  constructor
  · intro heq
    exact List.append_inj heq (by simp)
  · rintro ⟨hnumber, rfl⟩
    rw [hnumber]

theorem UInt32.toNat_mod_bytes (x : UInt32) : x.toNat % 256 ^ 4 = x.toNat :=
  Nat.mod_eq_of_lt x.toNat_lt

theorem UInt64.toNat_mod_bytes (x : UInt64) : x.toNat % 256 ^ 8 = x.toNat :=
  Nat.mod_eq_of_lt x.toNat_lt

/-- A 32-bit word is read back from four bytes. -/
@[simp] theorem littleEndian_word32 {x y : UInt32} {rest rest' : Bytes} :
    littleEndian 4 x.toNat ++ rest = littleEndian 4 y.toNat ++ rest' ↔ x = y ∧ rest = rest' := by
  rw [littleEndian_append, UInt32.toNat_mod_bytes, UInt32.toNat_mod_bytes, UInt32.toNat_inj]

/-- A 64-bit word is read back from eight bytes. -/
@[simp] theorem littleEndian_word64 {x y : UInt64} {rest rest' : Bytes} :
    littleEndian 8 x.toNat ++ rest = littleEndian 8 y.toNat ++ rest' ↔ x = y ∧ rest = rest' := by
  rw [littleEndian_append, UInt64.toNat_mod_bytes, UInt64.toNat_mod_bytes, UInt64.toNat_inj]

@[simp] theorem littleEndian_last32 {x y : UInt32} :
    littleEndian 4 x.toNat = littleEndian 4 y.toNat ↔ x = y := by
  rw [← List.append_nil (littleEndian 4 x.toNat), ← List.append_nil (littleEndian 4 y.toNat),
    littleEndian_word32]
  exact and_iff_left rfl

@[simp] theorem littleEndian_last64 {x y : UInt64} :
    littleEndian 8 x.toNat = littleEndian 8 y.toNat ↔ x = y := by
  rw [← List.append_nil (littleEndian 8 x.toNat), ← List.append_nil (littleEndian 8 y.toNat),
    littleEndian_word64]
  exact and_iff_left rfl

/-! ### Fields behind their lengths -/

/-- A field behind its length in four bytes. -/
def frame (field : Bytes) : Bytes := littleEndian 4 field.length ++ field

/-- Whether the length of a field fits its prefix. -/
def Fits (field : Bytes) : Prop := field.length ≤ 2 ^ 32 - 1

/-- A field is read back from the front of a payload. -/
theorem frame_append {field field' rest rest' : Bytes} (hfield : Fits field)
    (hfield' : Fits field') :
    frame field ++ rest = frame field' ++ rest' ↔ field = field' ∧ rest = rest' := by
  unfold Fits at hfield hfield'
  constructor
  · intro heq
    rw [frame, frame, List.append_assoc, List.append_assoc, littleEndian_append,
      Nat.mod_eq_of_lt (by omega), Nat.mod_eq_of_lt (by omega)] at heq
    exact List.append_inj heq.2 heq.1
  · rintro ⟨rfl, rfl⟩
    rfl

/-- A field at the end of a payload. -/
theorem frame_inj {field field' : Bytes} (hfield : Fits field) (hfield' : Fits field') :
    frame field = frame field' ↔ field = field' := by
  rw [← List.append_nil (frame field), ← List.append_nil (frame field'),
    frame_append hfield hfield']
  exact and_iff_left rfl

/-- Some fields, each behind its length. -/
def frames (fields : List Bytes) : Bytes := fields.flatMap frame

@[simp] theorem frames_nil : frames [] = [] := rfl

@[simp] theorem frames_cons (field : Bytes) (fields : List Bytes) :
    frames (field :: fields) = frame field ++ frames fields := rfl

/-- A known number of entries that can each be read back is read back from the front of a
payload. -/
theorem flatMap_append {α : Type} {encode : α → Bytes} {entries entries' : List α}
    {rest rest' : Bytes} (hcount : entries.length = entries'.length)
    (hread : ∀ entry ∈ entries, ∀ entry' ∈ entries', ∀ rest rest',
      encode entry ++ rest = encode entry' ++ rest' ↔ entry = entry' ∧ rest = rest') :
    entries.flatMap encode ++ rest = entries'.flatMap encode ++ rest' ↔
      entries = entries' ∧ rest = rest' := by
  induction entries generalizing entries' with
  | nil =>
    rw [List.length_nil, eq_comm, List.length_eq_zero_iff] at hcount
    subst hcount
    simp
  | cons entry entries ih =>
    obtain ⟨entry', entries', rfl⟩ := List.exists_cons_of_length_eq_add_one hcount.symm
    rw [List.length_cons, List.length_cons, Nat.add_right_cancel_iff] at hcount
    have hfirst := hread entry List.mem_cons_self entry' List.mem_cons_self
    have hothers := ih hcount fun old hold old' hold' ↦
      hread old (List.mem_cons_of_mem _ hold) old' (List.mem_cons_of_mem _ hold')
    rw [List.flatMap_cons, List.flatMap_cons, List.append_assoc, List.append_assoc, hfirst,
      hothers, List.cons.injEq, and_assoc]

/-- A known number of fields is read back from the front of a payload. -/
theorem frames_append {fields fields' : List Bytes} {rest rest' : Bytes}
    (hcount : fields.length = fields'.length) (hfits : ∀ field ∈ fields, Fits field)
    (hfits' : ∀ field ∈ fields', Fits field) :
    frames fields ++ rest = frames fields' ++ rest' ↔ fields = fields' ∧ rest = rest' :=
  flatMap_append hcount fun _ hfield _ hfield' _ _ ↦
    frame_append (hfits _ hfield) (hfits' _ hfield')

/-! ### Parts without a border -/

/-- Two parts and two others of the same bytes in all, with the border elsewhere: some bytes pass
from one part to the other. -/
def Shifted (first rest first' rest' : Bytes) : Prop :=
  ∃ moved, moved ≠ [] ∧ (first' = first ++ moved ∧ rest = moved ++ rest' ∨
    first = first' ++ moved ∧ rest' = moved ++ rest)

theorem append_eq_iff_shifted {first rest first' rest' : Bytes} :
    first ++ rest = first' ++ rest' ↔
      (first = first' ∧ rest = rest') ∨ Shifted first rest first' rest' := by
  constructor
  · intro heq
    rcases List.append_eq_append_iff.mp heq with ⟨moved, hfirst, hrest⟩ | ⟨moved, hfirst, hrest⟩
    · by_cases hmoved : moved = []
      · exact .inl ⟨by simp [hfirst, hmoved], by simp [hrest, hmoved]⟩
      · exact .inr ⟨moved, hmoved, .inl ⟨hfirst, hrest⟩⟩
    · by_cases hmoved : moved = []
      · exact .inl ⟨by simp [hfirst, hmoved], by simp [hrest, hmoved]⟩
      · exact .inr ⟨moved, hmoved, .inr ⟨hfirst, hrest⟩⟩
  · rintro (⟨rfl, rfl⟩ | ⟨moved, -, ⟨rfl, rfl⟩ | ⟨rfl, rfl⟩⟩) <;> simp

/-- Parts of the same length do not shift. -/
theorem Shifted.length_ne {first rest first' rest' : Bytes}
    (hshifted : Shifted first rest first' rest') : first.length ≠ first'.length := by
  obtain ⟨moved, hmoved, ⟨rfl, -⟩ | ⟨rfl, -⟩⟩ := hshifted <;> simpa using hmoved

/-- A payload that is shared only by equal values and by those that `shifts` relates separates
exactly the others, and so does a hash of it that has no collision between the two payloads. -/
theorem separates_of_eq_iff {α β : Type} {payload : α → Bytes} {left right : α} {shifts : Prop}
    (hiff : payload left = payload right ↔ left = right ∨ shifts) (hne : shifts → left ≠ right)
    (hash : Bytes → β) :
    ((left ≠ right → payload left ≠ payload right) ↔ ¬ shifts) ∧
      ((hash (payload left) = hash (payload right) → payload left = payload right) → ¬ shifts →
        (hash (payload left) = hash (payload right) ↔ left = right)) := by
  refine ⟨⟨fun hdistinct hshifts ↦ ?_, fun hshifts hother heq ↦ ?_⟩, fun hfree hshifts ↦ ?_⟩
  · exact hdistinct (hne hshifts) (hiff.mpr (.inr hshifts))
  · exact (hiff.mp heq).elim hother hshifts
  · exact ⟨fun hhash ↦ (hiff.mp (hfree hhash)).resolve_right hshifts, fun heq ↦ by rw [heq]⟩

/-! ### Texts -/

theorem textBytes_injective : Function.Injective textBytes := by
  intro first second heq
  rw [← bytesText_textBytes first, heq, bytesText_textBytes]

@[simp] theorem textBytes_inj {first second : String} :
    textBytes first = textBytes second ↔ first = second :=
  textBytes_injective.eq_iff

theorem textBytes_append (first second : String) :
    textBytes (first ++ second) = textBytes first ++ textBytes second := by
  simp [textBytes]

end ArkadeVault.Library
