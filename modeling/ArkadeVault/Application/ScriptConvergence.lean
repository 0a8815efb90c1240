import Mathlib
import ArkadeVault.Application.TransitionTrees

/-!
# The covenant that describes its own packet

An authorization script contains the envelope of the packet that will carry the script, and the
envelope depends on the length of the script. The service assembles the script with no envelope,
takes the envelope for the length it got, and tries again until the envelope stays the same, eight
times at most.

All but one of the items of the script are the same in every round (`HasSlot`), so the length of the
script is that of the envelope up to a constant. The lengths of the envelopes therefore do not
decrease from round to round. They take at most six values, so that one of the first six envelopes
is followed by one of equal length, and then the next two envelopes are equal. `exists_stable` is
this argument, and `buildTransitionScript_converges` the consequence for the loop.

Scope. The script builder and the packet codec belong to other libraries; `ScriptBuilder` and
`PacketEnvelopes` say what is used of them.
-/

set_option autoImplicit false
set_option relaxedAutoImplicit false

namespace ArkadeVault.Application

open Library

/-! ### Code outside the repository -/

/-- A script builder: it appends the encoding of every item, within the limits on the size of a
script and of its elements. -/
structure ScriptBuilder (service : SavingsService) (push : ScriptItem → Bytes) : Prop where
  builds : ∀ items, (∀ bytes, .data bytes ∈ items → bytes.length ≤ 520) →
    (items.flatMap push).length ≤ 10000 → service.buildScript items = .ok (items.flatMap push)
  op : ∀ code, (push (.op code)).length = 1
  /-- A sign and 64 bits take nine bytes, behind one opcode. -/
  int : ∀ value, (push (.int value)).length ≤ 10
  empty : (push (.data [])).length = 1
  short : ∀ bytes, 2 ≤ bytes.length → bytes.length ≤ 75 →
    push (.data bytes) = UInt8.ofNat bytes.length :: bytes

/-- The envelopes of packets, by the length of the script that a packet carries: the output that
carries a packet is its envelope and its content. -/
structure PacketEnvelopes (service : SavingsService) (phoneBound : Bool) (envelope : ℕ → Bytes) :
    Prop where
  output : ∀ length, 0 < length → ∃ content, service.packetContent length phoneBound = .ok content ∧
    service.packetOutput length phoneBound = .ok (envelope length ++ content)
  size : ∀ length, 0 < length → 2 ≤ (envelope length).length ∧ (envelope length).length ≤ 75
  monotone : ∀ shorter longer, 0 < shorter → shorter ≤ longer →
    (envelope shorter).length ≤ (envelope longer).length
  few : ∃ sizes : Finset ℕ, sizes.card ≤ 6 ∧ ∀ length, 0 < length →
    (envelope length).length ∈ sizes

/-! ### The items of a script -/

/-- Items that are the same for every envelope, apart from the push of the envelope itself. -/
def HasSlot (items : Bytes → List ScriptItem) : Prop :=
  ∃ before after, ∀ envelope, items envelope = before ++ .data envelope :: after

theorem HasSlot.here (after : List ScriptItem) : HasSlot fun envelope ↦ .data envelope :: after :=
  ⟨[], after, fun _ ↦ rfl⟩

theorem HasSlot.cons (item : ScriptItem) {items : Bytes → List ScriptItem} (hslot : HasSlot items) :
    HasSlot fun envelope ↦ item :: items envelope := by
  obtain ⟨before, after, heq⟩ := hslot
  exact ⟨item :: before, after, fun envelope ↦ congrArg (item :: ·) (heq envelope)⟩

section Service

variable {service : SavingsService} {push : ScriptItem → Bytes} {dest phone : Bytes}
  {witnessBytes absoluteFeeCapSats feerateCapSatPerV : Int64}

/-- The items of an authorization script. -/
theorem assembleTransitionScript_items (service : SavingsService) (dest phone : Bytes)
    (witnessBytes absoluteFeeCapSats feerateCapSatPerV : Int64) :
    ∃ items : Bytes → List ScriptItem,
      (∀ envelope, assembleTransitionScript service dest envelope phone witnessBytes
        absoluteFeeCapSats feerateCapSatPerV = service.buildScript (items envelope)) ∧
      HasSlot items ∧ (∀ envelope, (items envelope).length ≤ 110) ∧
      ∀ envelope bytes, .data bytes ∈ items envelope →
        bytes = dest ∨ bytes = [0x4e, 0x73] ∨ bytes = envelope ∨
          0 < phone.length ∧ bytes = 0x11 :: phone := by
  refine ⟨fun envelope ↦ _, fun envelope ↦ rfl, ?_, fun envelope ↦ ?_, fun envelope bytes hmem ↦ ?_⟩
  · simp only [List.cons_append, List.nil_append]
    repeat' first | exact HasSlot.here _ | refine HasSlot.cons _ ?_
  · split_ifs <;> simp
  · split_ifs at hmem with hphone <;> simpa [hphone] using hmem

/-- An envelope that a round may start with. -/
def Pushable (envelope : Bytes) : Prop :=
  envelope = [] ∨ 2 ≤ envelope.length ∧ envelope.length ≤ 75

theorem ScriptBuilder.length_data (hbuilder : ScriptBuilder service push) {bytes : Bytes}
    (hbytes : Pushable bytes) : (push (.data bytes)).length = bytes.length + 1 := by
  rcases hbytes with rfl | ⟨hlow, hhigh⟩
  · exact hbuilder.empty
  · rw [hbuilder.short bytes hlow hhigh, List.length_cons]

theorem ScriptBuilder.length_push (hbuilder : ScriptBuilder service push) {item : ScriptItem}
    (hdata : ∀ bytes, item = .data bytes → Pushable bytes) : (push item).length ≤ 76 := by
  cases item with
  | op code =>
    rw [hbuilder.op code]
    omega
  | int value => exact (hbuilder.int value).trans (by omega)
  | data bytes =>
    have hbytes := hdata bytes rfl
    rw [hbuilder.length_data hbytes]
    rcases hbytes with rfl | hsize
    · decide
    · omega

theorem length_flatMap_le {α β : Type} {f : α → List β} {bound : ℕ} {list : List α}
    (hbound : ∀ a ∈ list, (f a).length ≤ bound) :
    (list.flatMap f).length ≤ list.length * bound := by
  induction list with
  | nil => simp
  | cons a list ih =>
    have hfirst := hbound a List.mem_cons_self
    have hrest := ih fun b hb ↦ hbound b (List.mem_cons_of_mem a hb)
    rw [List.flatMap_cons, List.length_append, List.length_cons, Nat.add_mul, Nat.one_mul]
    omega

/-- Every envelope gives a script, whose length is that of the envelope up to a constant. -/
theorem assembleTransitionScript_eq_ok (hbuilder : ScriptBuilder service push)
    (hdest : dest.length = 32) (hphone : phone = [] ∨ phone.length = 33) :
    ∃ front back : Bytes, ∀ envelope, Pushable envelope →
      assembleTransitionScript service dest envelope phone witnessBytes absoluteFeeCapSats
        feerateCapSatPerV = .ok (front ++ push (.data envelope) ++ back) := by
  obtain ⟨items, hbuild, ⟨before, after, hslot⟩, hcount, hdata⟩ := assembleTransitionScript_items
    service dest phone witnessBytes absoluteFeeCapSats feerateCapSatPerV
  refine ⟨before.flatMap push, after.flatMap push, fun envelope henvelope ↦ ?_⟩
  have hpushable : ∀ bytes, .data bytes ∈ items envelope → Pushable bytes := by
    intro bytes hmem
    rcases hdata envelope bytes hmem with rfl | rfl | rfl | ⟨hpos, rfl⟩
    · exact .inr ⟨by omega, by omega⟩
    · exact .inr ⟨by decide, by decide⟩
    · exact henvelope
    · rcases hphone with rfl | hlength
      · exact absurd hpos (by simp)
      · exact .inr ⟨by simp [hlength], by simp [hlength]⟩
  have hsize : ((items envelope).flatMap push).length ≤ 10000 := by
    have hle : ((items envelope).flatMap push).length ≤ (items envelope).length * 76 :=
      length_flatMap_le fun item hitem ↦ hbuilder.length_push fun bytes heq ↦
        hpushable bytes (heq ▸ hitem)
    have hmany := hcount envelope
    omega
  have helement : ∀ bytes, .data bytes ∈ items envelope → bytes.length ≤ 520 := by
    intro bytes hmem
    rcases hpushable bytes hmem with rfl | ⟨-, hhigh⟩
    · simp
    · omega
  rw [hbuild, hbuilder.builds _ helement hsize, hslot, List.flatMap_append, List.flatMap_cons,
    List.append_assoc]

/-! ### The rounds -/

/-- The envelope that a round starts with, for scripts of `base` bytes around it. -/
def roundEnvelope (envelope : ℕ → Bytes) (base : ℕ) : ℕ → Bytes
  | 0 => []
  | round + 1 => envelope (base + (roundEnvelope envelope base round).length + 1)

section Rounds

variable {phoneBound : Bool} {envelope : ℕ → Bytes} {base : ℕ}

theorem PacketEnvelopes.computed (hpacket : PacketEnvelopes service phoneBound envelope)
    {length : ℕ} (hpos : 0 < length) :
    exactPacketOutputPrefix service length phoneBound = .ok (envelope length) := by
  obtain ⟨content, hcontent, houtput⟩ := hpacket.output length hpos
  obtain ⟨hlow, -⟩ := hpacket.size length hpos
  simp only [exactPacketOutputPrefix, hcontent, houtput, ok_bind, List.length_append,
    Nat.add_sub_cancel, List.drop_left, List.take_left]
  rw [rejectIf_of_not (by omega), ok_bind,
    rejectIf_of_not (by simp only [ne_eq, not_true_eq_false, or_false]; omega)]
  rfl

theorem PacketEnvelopes.pushable (hpacket : PacketEnvelopes service phoneBound envelope)
    (round : ℕ) : Pushable (roundEnvelope envelope base round) := by
  cases round with
  | zero => exact .inl rfl
  | succ round => exact .inr (hpacket.size _ (by omega))

/-- The envelopes do not become shorter from round to round. -/
theorem PacketEnvelopes.length_mono (hpacket : PacketEnvelopes service phoneBound envelope) :
    Monotone fun round ↦ (roundEnvelope envelope base round).length := by
  refine monotone_nat_of_le_succ fun round ↦ ?_
  induction round with
  | zero => exact Nat.zero_le _
  | succ round ih => exact hpacket.monotone _ _ (by omega) (by simpa using ih)

/-- One of the first eight rounds ends with the envelope it started with. -/
theorem PacketEnvelopes.exists_stable (hpacket : PacketEnvelopes service phoneBound envelope) :
    ∃ round < 8, roundEnvelope envelope base (round + 1) = roundEnvelope envelope base round := by
  obtain ⟨sizes, hcard, hsizes⟩ := hpacket.few
  have hmono : Monotone fun round ↦ (roundEnvelope envelope base round).length :=
    hpacket.length_mono
  have hmaps : ∀ round ∈ Finset.Icc 1 7, (roundEnvelope envelope base round).length ∈ sizes := by
    intro round hround
    obtain ⟨earlier, rfl⟩ := Nat.exists_eq_add_of_le' (Finset.mem_Icc.mp hround).1
    exact hsizes _ (by omega)
  have hfewer : sizes.card < (Finset.Icc 1 7).card := by
    rw [Nat.card_Icc]
    omega
  obtain ⟨first, second, hlt, hbound, heq⟩ : ∃ first second, first < second ∧ second ≤ 7 ∧
      (roundEnvelope envelope base first).length = (roundEnvelope envelope base second).length := by
    obtain ⟨first, hfirst, second, hsecond, hne, heq⟩ :=
      Finset.exists_ne_map_eq_of_card_lt_of_maps_to hfewer hmaps
    rcases lt_or_gt_of_ne hne with hlt | hgt
    · exact ⟨first, second, hlt, (Finset.mem_Icc.mp hsecond).2, heq⟩
    · exact ⟨second, first, hgt, (Finset.mem_Icc.mp hfirst).2, heq.symm⟩
  have hsame : (roundEnvelope envelope base (first + 1)).length =
      (roundEnvelope envelope base first).length :=
    le_antisymm (heq ▸ hmono (Nat.succ_le_of_lt hlt)) (hmono (Nat.le_succ first))
  refine ⟨first + 1, by omega, ?_⟩
  rw [roundEnvelope, hsame]
  rfl

/-- The loop returns the script of the first round that ends with the envelope it started with. -/
theorem convergeTransitionScript_eq_ok {assemble : Bytes → Except String Bytes}
    (envelopeOf : ℕ → Except String Bytes) (start : ℕ → Bytes) (script : ℕ → Bytes)
    (hassemble : ∀ round, assemble (start round) = .ok (script round))
    (hnext : ∀ round, envelopeOf (script round).length = .ok (start (round + 1)))
    {rounds first : ℕ}
    (hstable : ∃ round, first ≤ round ∧ round < first + rounds ∧
      start (round + 1) = start round) :
    ∃ round, start (round + 1) = start round ∧
      convergeTransitionScript assemble envelopeOf rounds (start first) = .ok (script round) := by
  induction rounds generalizing first with
  | zero =>
    obtain ⟨round, hlow, hhigh, -⟩ := hstable
    omega
  | succ rounds ih =>
    by_cases hdone : start (first + 1) = start first
    · exact ⟨first, hdone, by simp [convergeTransitionScript, hassemble, hnext, hdone, ok_bind]⟩
    · obtain ⟨stable, hlow, hhigh, heq⟩ := hstable
      have hlater : first ≠ stable := fun hfirst ↦ hdone (hfirst ▸ heq)
      obtain ⟨round, hround, hresult⟩ := @ih (first + 1) ⟨stable, by omega, by omega, heq⟩
      exact ⟨round, hround, by
        simpa [convergeTransitionScript, hassemble, hnext, hdone, ok_bind] using hresult⟩

/-- Where every envelope is pushed between the same bytes, the loop ends with a script around the
envelope for its own length. -/
theorem converges_of_assembles (hbuilder : ScriptBuilder service push)
    (hpacket : PacketEnvelopes service phoneBound envelope)
    {assemble : Bytes → Except String Bytes} {front back : Bytes}
    (hassemble : ∀ bytes, Pushable bytes →
      assemble bytes = .ok (front ++ push (.data bytes) ++ back)) :
    ∃ script, convergeTransitionScript assemble
        (fun length ↦ exactPacketOutputPrefix service length phoneBound) 8 [] = .ok script ∧
      0 < script.length ∧ script = front ++ push (.data (envelope script.length)) ++ back := by
  let start := roundEnvelope envelope (front.length + back.length)
  let script := fun round ↦ front ++ push (.data (start round)) ++ back
  have hpushable : ∀ round, Pushable (start round) := fun round ↦ hpacket.pushable round
  have hlength : ∀ round, (script round).length =
      front.length + back.length + (start round).length + 1 := by
    intro round
    simp only [script, List.length_append, hbuilder.length_data (hpushable round)]
    omega
  have hnext : ∀ round, start (round + 1) = envelope (script round).length := by
    intro round
    rw [hlength]
    rfl
  obtain ⟨stable, hstable, heq⟩ : ∃ round < 8, start (round + 1) = start round :=
    hpacket.exists_stable
  obtain ⟨round, hround, hresult⟩ := convergeTransitionScript_eq_ok
    (fun length ↦ exactPacketOutputPrefix service length phoneBound) start script
    (fun round ↦ hassemble _ (hpushable round))
    (fun round ↦ by rw [hpacket.computed (by rw [hlength]; omega), hnext])
    ⟨stable, Nat.zero_le _, (by omega : stable < 0 + 8), heq⟩
  refine ⟨script round, hresult, by rw [hlength]; omega, ?_⟩
  rw [← hnext, hround]

end Rounds

/-! ### Convergence -/

theorem parseCanonicalCompressedP256_length {compressed : Bytes} {mark : Unit}
    (hparse : parseCanonicalCompressedP256 service compressed = .ok mark) :
    compressed.length = 33 := by
  simp only [parseCanonicalCompressedP256, bind_eq_ok, rejectIf_eq_ok, not_not, ne_eq] at hparse
  obtain ⟨-, hlength, -⟩ := hparse
  exact hlength

/-- The script that is built for a valid destination, an optional phone key, a positive witness size
and fee caps within bounds is the one assembled with the envelope for its own length. -/
theorem buildTransitionScript_converges (service : SavingsService) (push : ScriptItem → Bytes)
    (hbuilder : ScriptBuilder service push) (destScript phoneDirect : Bytes)
    (witnessBytes absoluteFeeCapSats feerateCapSatPerV : Int64) (envelope : ℕ → Bytes)
    (hpacket : PacketEnvelopes service (decide (0 < phoneDirect.length)) envelope)
    (hdest : destScript.length = 34 ∧ destScript.take 2 = [0x51, 0x20])
    (hphone : phoneDirect = [] ∨ parseCanonicalCompressedP256 service phoneDirect = .ok ())
    (hwitness : 0 < witnessBytes)
    (hfee : 0 ≤ absoluteFeeCapSats ∧ absoluteFeeCapSats ≤ 100000)
    (hrate : 1 ≤ feerateCapSatPerV ∧ feerateCapSatPerV ≤ 100) :
    ∃ script, buildTransitionScript service destScript phoneDirect witnessBytes absoluteFeeCapSats
        feerateCapSatPerV = .ok script ∧
      exactPacketOutputPrefix service script.length (decide (0 < phoneDirect.length)) =
        .ok (envelope script.length) ∧
      assembleTransitionScript service (destScript.drop 2) (envelope script.length) phoneDirect
        witnessBytes absoluteFeeCapSats feerateCapSatPerV = .ok script ∧
      ∃ front back, script = front ++ UInt8.ofNat (envelope script.length).length ::
        envelope script.length ++ back := by
  have hprogram : p2trProgram destScript = .ok (destScript.drop 2) := by
    simp [p2trProgram, hdest, rejectIf]
  have hkey : phoneDirect = [] ∨ phoneDirect.length = 33 :=
    hphone.imp_right parseCanonicalCompressedP256_length
  obtain ⟨front, back, hassemble⟩ := @assembleTransitionScript_eq_ok service push
    (destScript.drop 2) phoneDirect witnessBytes absoluteFeeCapSats feerateCapSatPerV hbuilder
    (by simp [hdest.1]) hkey
  obtain ⟨script, hloop, hpos, hscript⟩ := converges_of_assembles hbuilder hpacket hassemble
  obtain ⟨hlow, hhigh⟩ := hpacket.size script.length hpos
  refine ⟨script, ?_, hpacket.computed hpos, ?_, front, back, ?_⟩
  · have hchecked : (if 0 < phoneDirect.length then
        parseCanonicalCompressedP256 service phoneDirect else pure ()) = .ok () := by
      split_ifs with hbound
      · rcases hphone with rfl | hparse
        · exact absurd hbound (by simp)
        · exact hparse
      · rfl
    rw [buildTransitionScript, hprogram, ok_bind, rejectIf_of_not (by simpa using hwitness),
      ok_bind, rejectIf_of_not (by simpa using hfee), ok_bind,
      rejectIf_of_not (by simpa using hrate), ok_bind, hchecked, ok_bind, hloop]
  · rw [hassemble _ (.inr ⟨hlow, hhigh⟩), ← hscript]
  · rw [← hbuilder.short _ hlow hhigh, ← hscript]

end Service

namespace ConvergenceSample

/-- Minimal pushes of data; numbers in their full width. -/
def push : ScriptItem → Bytes
  | .op _ => [0xff]
  | .int value => 8 :: littleEndian 8 value.toUInt64.toNat
  | .data [] => [0]
  | .data bytes =>
    if bytes.length ≤ 75 then UInt8.ofNat bytes.length :: bytes
    else 0x4d :: littleEndian 2 bytes.length ++ bytes

/-- The limit on the size of an element. -/
def fits : ScriptItem → Bool
  | .data bytes => bytes.length ≤ 520
  | _ => true

def buildScript (items : List ScriptItem) : Except String Bytes :=
  if items.all fits ∧ (items.flatMap push).length ≤ 10000 then .ok (items.flatMap push)
  else .error "script too large"

/-- The push of a packet into an output that cannot be spent. -/
def envelope (length : ℕ) : Bytes :=
  if length ≤ 75 then [0x6a, UInt8.ofNat length]
  else if length ≤ 255 then [0x6a, 0x4c, UInt8.ofNat length]
  else 0x6a :: 0x4d :: littleEndian 2 length

def service : SavingsService := { TreesSample.service with
  buildScript := buildScript
  packetContent := fun length _ ↦ .ok (List.replicate length 0)
  packetOutput := fun length _ ↦ .ok (envelope length ++ List.replicate length 0) }

theorem scriptBuilder : ScriptBuilder service push where
  builds := by
    intro items hdata hsize
    refine if_pos ⟨List.all_eq_true.mpr fun item hitem ↦ ?_, hsize⟩
    cases item with
    | op code => rfl
    | int value => rfl
    | data bytes => exact decide_eq_true (hdata bytes hitem)
  op := fun _ ↦ rfl
  int := by
    intro value
    simp [push]
  empty := rfl
  short := by
    intro bytes hlow hhigh
    cases bytes with
    | nil => simp at hlow
    | cons c rest => exact if_pos hhigh

theorem length_envelope (length : ℕ) : (envelope length).length =
    if length ≤ 75 then 2 else if length ≤ 255 then 3 else 4 := by
  unfold envelope
  split_ifs <;> simp

theorem packetEnvelopes (phoneBound : Bool) : PacketEnvelopes service phoneBound envelope where
  output := fun length _ ↦ ⟨List.replicate length 0, rfl, rfl⟩
  size := by
    intro length _
    rw [length_envelope]
    split_ifs <;> omega
  monotone := by
    intro shorter longer _ hle
    rw [length_envelope, length_envelope]
    split_ifs <;> omega
  few := by
    refine ⟨{2, 3, 4}, by decide, fun length _ ↦ ?_⟩
    rw [length_envelope]
    split_ifs <;> decide

end ConvergenceSample

theorem buildTransitionScript_converges_sample : ∃ script,
    buildTransitionScript ConvergenceSample.service ([0x51, 0x20] ++ List.replicate 32 7) [] 399
        1000 10 = .ok script ∧
      ∃ front back, script = front ++
        UInt8.ofNat (ConvergenceSample.envelope script.length).length ::
          ConvergenceSample.envelope script.length ++ back := by
  obtain ⟨script, hbuild, -, -, hembedded⟩ := buildTransitionScript_converges
    ConvergenceSample.service ConvergenceSample.push ConvergenceSample.scriptBuilder
    ([0x51, 0x20] ++ List.replicate 32 7) [] 399 1000 10 ConvergenceSample.envelope
    (ConvergenceSample.packetEnvelopes _) (by decide) (.inl rfl) (by decide) (by decide)
    (by decide)
  exact ⟨script, hbuild, hembedded⟩

end ArkadeVault.Application
