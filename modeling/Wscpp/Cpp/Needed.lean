import Wscpp.Cpp.Parser

/-!
# How many bytes the frame parser asks for

`parser::bytes_needed` is meant for a caller that reads from a stream: it says how many bytes the
parser needs to get on, the caller reads that many and hands them to `parse`.  `Parser.drive` is
this caller.  It makes turn after turn until `parse` gives a frame, and keeps a record of them.

What `parse` loses of a chunk (`Wscpp.Cpp.Parser`) a caller of this kind would never notice, since
it hands over whole parts of a frame; `Parser.drives_step_iff` is the rule for such a part.  But
the answer of `bytes_needed` is wrong in two states.  Where an extended length comes next, the
member that it compares with 65535 still holds the marker 126 or 127 of the second byte, so that
the eight bytes of a 64-bit length are asked for two by two; `parse` does not touch two bytes there
and loses them.  And in front of an empty payload it asks for nothing, while `parse` ends the frame
only when it is given a byte.  In both cases the loop goes on for ever (`Parser.drive_of_stuck`).
`drives_iff` says that nothing else goes wrong.
-/

namespace Wscpp.Cpp

open Words Incremental
open Rs (Done State)

namespace Parser

/-! ## The loop -/

/-- `bytes_needed`.  The member `bytes_read_` is 0 at all times. -/
def bytesNeeded (p : Parser) : ℕ :=
  match p.state with
  | .header => 2
  | .payloadLengthExt =>
      if p.header.payloadLen ≤ 125 then 0 else if p.header.payloadLen ≤ 65535 then 2 else 8
  | .maskingKey => if p.header.mask then 4 else 0
  | .payload => p.payloadRemaining

/-- A turn of the loop: the answer of `bytes_needed`, the bytes handed over, and how many of them
`parse` consumed. -/
structure Turn where
  needed : ℕ
  fed : List UInt8
  consumed : ℕ
  deriving DecidableEq, Repr

/-- The turn gets the bytes it asks for and gets on by them. -/
def Turn.Useful (t : Turn) : Prop := t.fed.length = t.needed ∧ 0 < t.consumed

/-- The turn that the parser takes when `bytes` are still to come. -/
def turn (host : Endian) (p : Parser) (bytes : List UInt8) : Turn where
  needed := p.bytesNeeded
  fed := bytes.take p.bytesNeeded
  consumed := (pump (sub host) p (bytes.take p.bytesNeeded)).2.2

/-- At most `n` turns on `bytes`, up to the one that gives a frame: the turns and the frame.  There
is none after an error, nor if the turns do not suffice. -/
def drive (host : Endian) :
    ℕ → Parser → List UInt8 → Option (List Turn × FrameHeader × List UInt8)
  | 0, _, _ => none
  | n + 1, p, bytes =>
      match parse host p (bytes.take p.bytesNeeded) with
      | (_, .complete header payload) => some ([turn host p bytes], header, payload)
      | (_, .error) => none
      | (p', .incomplete) =>
          (drive host n p' (bytes.drop p.bytesNeeded)).map fun r =>
            (turn host p bytes :: r.1, r.2)

/-- The loop ends with this frame after useful turns that used up the bytes. -/
def Drives (host : Endian) (p : Parser) (bytes : List UInt8) (r : FrameHeader × List UInt8) :
    Prop :=
  ∃ n turns, drive host n p bytes = some (turns, r) ∧ (∀ t ∈ turns, t.Useful) ∧
    (turns.map Turn.fed).flatten = bytes

/-! ## Rules for the loop -/

lemma pump_of_whole {host : Endian} {p p' : Parser} {piece : List UInt8} (hne : piece ≠ [])
    (h : sub host p piece = (p', none, piece.length)) :
    pump (sub host) p piece = (p', none, piece.length) := by
  rw [pump_of_eat (List.length_pos_iff.mpr hne) hne h, List.drop_length, pump_nil]
  rfl

lemma drive_of_whole {host : Endian} {p p' : Parser} {piece : List UInt8} (hne : piece ≠ [])
    (hneeded : p.bytesNeeded = piece.length) (h : sub host p piece = (p', none, piece.length))
    (n : ℕ) (rest : List UInt8) :
    drive host (n + 1) p (piece ++ rest) =
      (drive host n p' rest).map fun r =>
        (⟨piece.length, piece, piece.length⟩ :: r.1, r.2) := by
  have hpump := pump_of_whole hne h
  have htake : (piece ++ rest).take p.bytesNeeded = piece := by
    rw [hneeded, List.take_left]
  have hdrop : (piece ++ rest).drop p.bytesNeeded = rest := by
    rw [hneeded, List.drop_left]
  have hturn : turn host p (piece ++ rest) = ⟨piece.length, piece, piece.length⟩ := by
    rw [turn, htake, hpump, hneeded]
  rw [drive, htake, hdrop, hturn, parse, hpump]

/-- **A part of a frame.**  Where `bytes_needed` asks for a part that the sub-parser eats as a
whole, the loop gets over it. -/
lemma drives_step_iff {host : Endian} {p p' : Parser} {piece : List UInt8} (hne : piece ≠ [])
    (hneeded : p.bytesNeeded = piece.length) (h : sub host p piece = (p', none, piece.length))
    (rest : List UInt8) (r : FrameHeader × List UInt8) :
    Drives host p (piece ++ rest) r ↔ Drives host p' rest r := by
  have hdrive := drive_of_whole hne hneeded h
  constructor
  · rintro ⟨n, turns, hsome, huseful, hflat⟩
    cases n with
    | zero => cases hsome
    | succ n =>
        rw [hdrive, Option.map_eq_some_iff] at hsome
        obtain ⟨⟨turns', r'⟩, hrest, heq⟩ := hsome
        obtain ⟨rfl, rfl⟩ := Prod.mk.inj heq
        rw [List.map_cons, List.flatten_cons] at hflat
        exact ⟨n, turns', hrest, fun t ht => huseful t (List.mem_cons_of_mem _ ht),
          List.append_cancel_left hflat⟩
  · rintro ⟨n, turns, hsome, huseful, hflat⟩
    refine ⟨n + 1, ⟨piece.length, piece, piece.length⟩ :: turns, ?_, ?_, ?_⟩
    · rw [hdrive, hsome]
      rfl
    · intro t ht
      rcases List.mem_cons.mp ht with rfl | ht
      · exact ⟨rfl, List.length_pos_iff.mpr hne⟩
      · exact huseful t ht
    · rw [List.map_cons, List.flatten_cons, hflat]

/-- The last part of a frame. -/
lemma drives_of_last {host : Endian} {p p' : Parser} {piece : List UInt8} (hne : piece ≠ [])
    (hneeded : p.bytesNeeded = piece.length)
    (h : sub host p piece = (p', some .complete, piece.length)) :
    Drives host p piece (p'.header, p'.buffer) := by
  have hpump := pump_of_some hne h
  have htake : piece.take p.bytesNeeded = piece := by
    rw [hneeded, List.take_length]
  have hturn : turn host p piece = ⟨piece.length, piece, piece.length⟩ := by
    rw [turn, htake, hpump, hneeded]
  refine ⟨1, [turn host p piece], ?_, ?_, ?_⟩
  · rw [drive, htake, parse, hpump]
  · rw [hturn]
    simpa [Turn.Useful] using List.length_pos_iff.mpr hne
  · simp [hturn]

/-- **The loop that never ends.**  A parser that no chunk of the length it asks for changes is
asked again and again. -/
lemma drive_of_stuck {host : Endian} {p : Parser}
    (h : ∀ chunk : List UInt8, chunk.length ≤ p.bytesNeeded →
      parse host p chunk = (p, .incomplete)) (n : ℕ) (bytes : List UInt8) :
    drive host n p bytes = none := by
  induction n generalizing bytes with
  | zero => rfl
  | succ n ih =>
      rw [drive, h _ (List.length_take_le _ _)]
      simp only [ih, Option.map_none]

lemma not_drives_of_stuck {host : Endian} {p : Parser}
    (h : ∀ chunk : List UInt8, chunk.length ≤ p.bytesNeeded →
      parse host p chunk = (p, .incomplete)) (bytes : List UInt8)
    (r : FrameHeader × List UInt8) : ¬Drives host p bytes r := by
  rintro ⟨n, turns, hsome, -, -⟩
  rw [drive_of_stuck h] at hsome
  cases hsome

/-! ## The parts of a frame -/

/-- The header of a frame before its key is read, with the length `n`. -/
def openHeader (f : WireFrame) (n : ℕ) : FrameHeader :=
  ⟨f.fin, f.rsv1, f.rsv2, f.rsv3, f.op, f.key.isSome, n, Key.zero⟩

/-- The parser in front of the key, if there is one, and of the payload. -/
def atKey (f : WireFrame) : Parser :=
  ⟨if f.key.isSome then .maskingKey else .payload, openHeader f f.payload.length, [],
    f.payload.length⟩

/-- The parser in front of the payload. -/
def atPayload (f : WireFrame) : Parser :=
  ⟨.payload, { openHeader f f.payload.length with maskingKey := f.key.getD Key.zero }, [],
    f.payload.length⟩

/-- The two bytes at the front of a frame. -/
def frontBytes (f : WireFrame) : List UInt8 :=
  [firstByte f.fin f.rsv1 f.rsv2 f.rsv3 f.op,
    secondByte f.key.isSome (f.form.code f.payload.length)]

lemma encode_eq (f : WireFrame) :
    f.encode = frontBytes f ++ (f.form.bytes f.payload.length ++
      (keyBytes f.key ++ maskedWith f.key f.payload)) := by
  simp [WireFrame.encode, encodeParts, frontBytes]

lemma frontBytes_ne_nil (f : WireFrame) : frontBytes f ≠ [] := List.cons_ne_nil _ _

lemma sub_frontBytes (host : Endian) {f : WireFrame} {op : Opcode}
    (hop : Opcode.fromU8 f.op = some op) :
    sub host new (frontBytes f) =
      if f.form.code f.payload.length ≤ 125 then
        (⟨if f.key.isSome then .maskingKey else .payload,
          openHeader f (f.form.code f.payload.length), [], f.form.code f.payload.length⟩, none, 2)
      else
        (⟨.payloadLengthExt, openHeader f (f.form.code f.payload.length), [], 0⟩, none, 2) := by
  obtain ⟨h1, h2, h3, h4, h5⟩ := firstByte_bits f.fin f.rsv1 f.rsv2 f.rsv3 f.op f.op_lt
  obtain ⟨h6, h7⟩ := secondByte_bits f.key.isSome _ (LenForm.code_lt f.form_holds)
  have hlt := LenForm.code_lt f.form_holds
  have hgood : ¬¬(f.op ≤ 0x02 ∨ (0x08 ≤ f.op ∧ f.op ≤ 0x0A)) := by
    rw [← Opcode.fromU8_isSome_iff, hop]
    simp
  simp only [sub, new, frontBytes, parseHeader, h1, h2, h3, h4, h5, h6, h7, if_neg hgood]
  by_cases hshort : f.form.code f.payload.length ≤ 125
  · rw [if_pos hshort, if_pos hshort]
    rfl
  · rw [if_neg hshort, if_neg hshort, if_pos (by omega)]
    rfl

/-- A 16-bit length is read as a whole. -/
lemma sub_length (host : Endian) {f : WireFrame} (hform : f.form = .ext16) :
    sub host ⟨.payloadLengthExt, openHeader f 126, [], 0⟩ (beBytes 2 f.payload.length) =
      (atKey f, none, 2) := by
  have hlt : f.payload.length < 2 ^ 16 := by
    have hholds := f.form_holds
    rw [hform] at hholds
    exact hholds
  have htake : (beBytes 2 f.payload.length).take 2 = beBytes 2 f.payload.length :=
    List.take_of_length_le (by simp)
  simp only [sub, parsePayloadLength, openHeader, if_pos, length_beBytes, Nat.lt_irrefl, if_false,
    htake, beFold_beBytes (n := 2) hlt, setPayloadLength]
  rw [if_neg (by omega)]
  rfl

lemma sub_key (host : Endian) {f : WireFrame} {k : Key} (hkey : f.key = some k) :
    sub host (atKey f) k.toList = (atPayload f, none, 4) := by
  simp only [sub, atKey, atPayload, hkey, Option.isSome_some, if_true, Key.toList, parseMaskingKey,
    openHeader, Option.getD_some]

/-- The payload is read as a whole. -/
lemma sub_payload (host : Endian) {f : WireFrame} (hne : f.payload ≠ []) :
    sub host (atPayload f) (maskedWith f.key f.payload) =
      (⟨.header, (atPayload f).header, f.payload, 0⟩, some .complete, f.payload.length) := by
  have hzero : f.payload.length ≠ 0 := fun h => hne (List.eq_nil_of_length_eq_zero h)
  have htake : (maskedWith f.key f.payload).take f.payload.length = maskedWith f.key f.payload :=
    List.take_of_length_le (by simp)
  have hpiece : (if f.key.isSome then
      copyAndUnmask host (f.key.getD Key.zero) 0 (maskedWith f.key f.payload)
      else maskedWith f.key f.payload) = f.payload := by
    cases f.key with
    | none => rfl
    | some k => simp [copyAndUnmask, Mask.copyAndUnmask_eq, maskedWith]
  simp only [sub, atPayload, parsePayload, openHeader, if_neg hzero, length_maskedWith, min_self,
    List.length_nil, htake, hpiece, List.nil_append, Nat.sub_self, if_true]

/-! ## Getting through a frame -/

/-- The key, if there is one. -/
lemma drives_key_iff (host : Endian) (f : WireFrame) (rest : List UInt8)
    (r : FrameHeader × List UInt8) :
    Drives host (atKey f) (keyBytes f.key ++ rest) r ↔ Drives host (atPayload f) rest r := by
  cases hkey : f.key with
  | none =>
      have hsame : atKey f = atPayload f := by
        simp [atKey, atPayload, openHeader, hkey]
      rw [hsame]
      rfl
  | some k =>
      have hneeded : (atKey f).bytesNeeded = k.toList.length := by
        simp [bytesNeeded, atKey, openHeader, hkey, Key.toList]
      exact drives_step_iff (by simp [Key.toList]) hneeded (sub_key host hkey) rest r

/-- **The header of a frame**, where its length is not a 64-bit one. -/
lemma drives_header_iff (host : Endian) {f : WireFrame} {op : Opcode}
    (hop : Opcode.fromU8 f.op = some op) (hform : f.form ≠ .ext64)
    (r : FrameHeader × List UInt8) :
    Drives host new f.encode r ↔
      Drives host (atPayload f) (maskedWith f.key f.payload) r := by
  have hfront := sub_frontBytes host hop
  have hholds := f.form_holds
  rw [encode_eq, ← drives_key_iff]
  cases hf : f.form with
  | short =>
      rw [hf] at hholds hfront
      rw [if_pos (by exact hholds)] at hfront
      exact drives_step_iff (frontBytes_ne_nil f) rfl hfront _ r
  | ext16 =>
      rw [hf, if_neg (by simp [LenForm.code])] at hfront
      rw [drives_step_iff (frontBytes_ne_nil f) rfl hfront]
      have hlength := sub_length host hf
      exact drives_step_iff (List.ne_nil_of_length_pos (by simp [LenForm.bytes]))
        (by simp [bytesNeeded, LenForm.bytes, openHeader]; rfl)
        (by simpa [LenForm.bytes, LenForm.code] using hlength) _ r
  | ext64 => exact absurd hf hform

lemma parse_of_stall {host : Endian} {p : Parser} {chunk : List UInt8}
    (h : sub host p chunk = (p, none, 0)) : parse host p chunk = (p, .incomplete) := by
  rcases eq_or_ne chunk [] with rfl | hne
  · rfl
  · rw [parse, pump_of_stall hne h]

/-- In front of a 64-bit length two bytes are asked for, which are not looked at. -/
lemma not_drives_ext64 (host : Endian) {f : WireFrame} {op : Opcode}
    (hop : Opcode.fromU8 f.op = some op) (hform : f.form = .ext64)
    (r : FrameHeader × List UInt8) : ¬Drives host new f.encode r := by
  have hfront := sub_frontBytes host hop
  rw [hform, if_neg (by simp [LenForm.code])] at hfront
  rw [encode_eq, drives_step_iff (frontBytes_ne_nil f) rfl hfront]
  apply not_drives_of_stuck
  intro chunk hlen
  have hfew : chunk.length < 8 :=
    Nat.lt_of_le_of_lt hlen (by simp [bytesNeeded, openHeader, LenForm.code])
  apply parse_of_stall
  simp [sub, parsePayloadLength, openHeader, LenForm.code, hfew]

lemma not_drives_empty (host : Endian) {f : WireFrame} (hnil : f.payload = [])
    (bytes : List UInt8) (r : FrameHeader × List UInt8) : ¬Drives host (atPayload f) bytes r := by
  apply not_drives_of_stuck
  intro chunk hlen
  have hneeded : (atPayload f).bytesNeeded = 0 := by
    simp [bytesNeeded, atPayload, hnil]
  rw [hneeded] at hlen
  rw [List.eq_nil_of_length_eq_zero (Nat.le_zero.mp hlen)]
  rfl

end Parser

/-- **When `bytes_needed` drives the parser.**  For a frame with a known opcode, in any of the
three length classes, with or without a key: the loop that hands over as many bytes of the frame
as `bytes_needed` asks for makes only useful turns, uses up the frame and ends with it, if and only
if the length is not written in 64 bits and the payload is not empty. -/
theorem drives_iff (host : Endian) {f : WireFrame} {op : Opcode}
    (hop : Opcode.fromU8 f.op = some op) :
    Parser.Drives host .new f.encode
        (⟨f.fin, f.rsv1, f.rsv2, f.rsv3, f.op, f.key.isSome, f.payload.length,
          f.key.getD Key.zero⟩, f.payload) ↔
      f.form ≠ .ext64 ∧ f.payload ≠ [] := by
  constructor
  · intro h
    have hform : f.form ≠ .ext64 := fun hform => Parser.not_drives_ext64 host hop hform _ h
    rw [Parser.drives_header_iff host hop hform] at h
    exact ⟨hform, fun hnil => Parser.not_drives_empty host hnil _ _ h⟩
  · rintro ⟨hform, hne⟩
    rw [Parser.drives_header_iff host hop hform]
    have hmasked : maskedWith f.key f.payload ≠ [] := by
      rw [← List.length_pos_iff, length_maskedWith]
      exact List.length_pos_iff.mpr hne
    have hsub := Parser.sub_payload host hne
    rw [← length_maskedWith f.key] at hsub
    have hneeded : (Parser.atPayload f).bytesNeeded = (maskedWith f.key f.payload).length :=
      (length_maskedWith f.key f.payload).symm
    exact Parser.drives_of_last hmasked hneeded hsub

/-- `81 02 48 69` in two turns of two bytes. -/
theorem drives_hi :
    Parser.Drives .big .new [0x81, 0x02, 0x48, 0x69]
      (⟨true, false, false, false, 1, false, 2, Key.zero⟩, [0x48, 0x69]) := by
  have h := (drives_iff .big (f := hi.wire) (Opcode.fromU8_toU8 .text)).mpr ⟨by decide, by decide⟩
  exact h

lemma holds_zeros : LenForm.ext64.Holds (List.replicate 65536 (0 : UInt8)).length := by
  rw [List.length_replicate]
  decide

lemma binary_lt : (2 : UInt8).toNat < 16 := by decide

/-- An unmasked binary frame of 65536 zero bytes. -/
def zeros : WireFrame :=
  ⟨true, false, false, false, 2, .ext64, none, List.replicate 65536 0, binary_lt, holds_zeros⟩

/-- The loop does not end for the empty ping `89 00`, nor for a frame of 65536 bytes, however many
turns it makes. -/
theorem drive_never_ends :
    (¬∀ (host : Endian) (f : WireFrame) (op : Opcode), Opcode.fromU8 f.op = some op →
      Parser.Drives host .new f.encode
        (⟨f.fin, f.rsv1, f.rsv2, f.rsv3, f.op, f.key.isSome, f.payload.length,
          f.key.getD Key.zero⟩, f.payload)) ∧
    (¬∃ r, Parser.Drives .little .new [0x89, 0x00] r) ∧
    ¬∃ r, Parser.Drives .little .new zeros.encode r := by
  have hping : ¬∃ r, Parser.Drives .little .new [0x89, 0x00] r := by
    rintro ⟨r, hr⟩
    have hpayload := (Parser.drives_header_iff .little (f := emptyPing.wire)
      (Opcode.fromU8_toU8 .ping) (by decide) r).mp hr
    exact Parser.not_drives_empty .little rfl _ r hpayload
  have hzeros : ¬∃ r, Parser.Drives .little .new zeros.encode r := by
    rintro ⟨r, hr⟩
    exact Parser.not_drives_ext64 .little (Opcode.fromU8_toU8 .binary) rfl r hr
  refine ⟨fun hall => hzeros ⟨_, hall .little zeros .binary rfl⟩, hping, hzeros⟩

end Wscpp.Cpp
