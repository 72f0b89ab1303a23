import Wscpp.Cpp.Connection

/-!
# What the reader hands over

Between the two bytes that `read_one_frame` waits for and the call of `handle_frame` lie the
extended length, the key, the checks of the header and the payload, and any of them may end the
turn.  `Connection.handed` is the connection at the moment of that call: the header as it was read,
and `payload_buffer_` as `read_payload` has filled it.

`readOneFrame_cases` says all that a turn can do, in terms of it: a frame is handed over and
handled, or the header is refused, or the turn ends without either and has written nothing.
-/

namespace Wscpp.Cpp

namespace Connection

variable (p : Platform)

/-! ## The frame handed over -/

/-- The first assignments of `parse_header`. -/
def withBytes (c : Connection) (first second : UInt8) : Connection :=
  { c with
    currentHeader := { c.currentHeader with
      fin := first &&& 0x80 != 0
      rsv1 := first &&& 0x40 != 0
      rsv2 := first &&& 0x20 != 0
      rsv3 := first &&& 0x10 != 0
      op := first &&& 0x0F
      mask := second &&& 0x80 != 0
      payloadLen := (second &&& 0x7F).toNat } }

/-- The connection once `parse_header` has read a header, before it is checked. -/
def headed (c : Connection) : Option Connection :=
  match readExact c 2 with
  | some ([first, second], c) => (readLength (c.withBytes first second)).bind readKey
  | _ => none

/-- The connection in which `read_payload` calls `handle_frame`, if it does. -/
def filled (c : Connection) : Option Connection :=
  if c.currentHeader.payloadLen = 0 then some c
  else
    let size := c.currentHeader.payloadLen % 2 ^ p.bits
    if 2 ^ (p.bits - 1) ≤ size then none
    else
      (readExact c size).map fun (data, c) =>
        { c with
          payloadBuffer :=
            if c.currentHeader.mask then applyMask p.host c.currentHeader.maskingKey data
            else data }

/-- The connection in which `read_one_frame` calls `read_payload`, if it does. -/
def accepted (c : Connection) : Option Connection :=
  if !c.isOpen then none
  else (headed c).bind fun c => if (headerFailure p c).isSome then none else some c

/-- The connection in which `read_one_frame` calls `handle_frame`, if it does. -/
def handed (c : Connection) : Option Connection := (accepted p c).bind (filled p)

variable {p} {c c' d : Connection}

/-! ## Shapes -/

lemma readExact_shape {size : ℕ} {data : List UInt8} (h : readExact c size = some (data, c')) :
    size ≤ c.input.length ∧ data = c.input.take size ∧
      c' = { c with input := c.input.drop size } := by
  rw [readExact] at h
  split_ifs at h with hle
  obtain ⟨rfl, rfl⟩ := Prod.mk.inj (Option.some.inj h)
  exact ⟨hle, rfl, rfl⟩

lemma readLength_shape (h : readLength c = some c') :
    ∃ header input, c' = { c with currentHeader := header, input := input } := by
  simp only [readLength, readExact] at h
  split_ifs at h
  all_goals simp only [Option.map_some, Option.map_none, Option.some.injEq, reduceCtorEq] at h
  all_goals exact ⟨_, _, h.symm⟩

lemma readKey_shape (h : readKey c = some c') :
    ∃ header input, c' = { c with currentHeader := header, input := input } := by
  rw [readKey] at h
  split_ifs at h
  · split at h
    · rename_i k0 k1 k2 k3 c₁ hread
      obtain ⟨-, -, rfl⟩ := readExact_shape hread
      exact ⟨_, _, (Option.some.inj h).symm⟩
    · simp at h
  · exact ⟨c.currentHeader, c.input, (Option.some.inj h).symm⟩

/-- So does the whole header. -/
lemma headed_shape (h : headed c = some d) :
    ∃ header input, d = { c with currentHeader := header, input := input } := by
  rw [headed] at h
  split at h
  · rename_i first second c₁ hread
    obtain ⟨-, -, rfl⟩ := readExact_shape hread
    obtain ⟨c₂, hlength, hkey⟩ := Option.bind_eq_some_iff.mp h
    obtain ⟨header, input, rfl⟩ := readLength_shape hlength
    obtain ⟨header', input', rfl⟩ := readKey_shape hkey
    exact ⟨header', input', rfl⟩
  · cases h

lemma accepted_shape (h : accepted p c = some d) :
    ∃ header input, d = { c with currentHeader := header, input := input } := by
  rw [accepted] at h
  split_ifs at h
  obtain ⟨c₁, hheaded, hgood⟩ := Option.bind_eq_some_iff.mp h
  split_ifs at hgood
  obtain rfl := Option.some.inj hgood
  exact headed_shape hheaded

/-- What `read_payload` makes of a payload that is not empty. -/
lemma filled_of_pos (hpos : 1 ≤ c.currentHeader.payloadLen) (h : filled p c = some d) :
    c.currentHeader.payloadLen % 2 ^ p.bits ≤ c.input.length ∧
      d.payloadBuffer.length = c.currentHeader.payloadLen % 2 ^ p.bits ∧
      c.currentHeader.payloadLen % 2 ^ p.bits < 2 ^ (p.bits - 1) ∧
      ∃ buffer, d = { c with
        input := c.input.drop (c.currentHeader.payloadLen % 2 ^ p.bits)
        payloadBuffer := buffer } := by
  rw [filled, if_neg (by omega)] at h
  dsimp only at h
  split_ifs at h with hsize
  obtain ⟨⟨data, c₁⟩, hread, heq⟩ := Option.map_eq_some_iff.mp h
  obtain ⟨hle, rfl, rfl⟩ := readExact_shape hread
  have hlen : (c.input.take (c.currentHeader.payloadLen % 2 ^ p.bits)).length =
      c.currentHeader.payloadLen % 2 ^ p.bits := List.length_take_of_le hle
  refine ⟨hle, ?_, Nat.not_le.mp hsize, _, heq.symm⟩
  rw [← heq]
  dsimp only
  split
  · rw [applyMask, Mask.applyMask_eq, Mask.length_xorKey, hlen]
  · exact hlen

lemma filled_shape (h : filled p c = some d) :
    ∃ input buffer, d = { c with input := input, payloadBuffer := buffer } := by
  rcases Nat.eq_zero_or_pos c.currentHeader.payloadLen with hzero | hpos
  · rw [filled, if_pos hzero] at h
    exact ⟨c.input, c.payloadBuffer, (Option.some.inj h).symm⟩
  · obtain ⟨-, -, -, buffer, hd⟩ := filled_of_pos hpos h
    exact ⟨_, buffer, hd⟩

lemma handed_shape (h : handed p c = some d) :
    ∃ header input buffer,
      d = { c with currentHeader := header, input := input, payloadBuffer := buffer } := by
  obtain ⟨c₁, haccepted, hfilled⟩ := Option.bind_eq_some_iff.mp h
  obtain ⟨header, input, rfl⟩ := accepted_shape haccepted
  obtain ⟨input', buffer, rfl⟩ := filled_shape hfilled
  exact ⟨header, input', buffer, rfl⟩

/-- `payload_buffer_` is a vector. -/
lemma handed_buffer_lt (hbuffer : c.payloadBuffer.length < 2 ^ 63) (h : handed p c = some d) :
    d.payloadBuffer.length < 2 ^ 63 := by
  obtain ⟨c₁, haccepted, hfilled⟩ := Option.bind_eq_some_iff.mp h
  obtain ⟨header, input, rfl⟩ := accepted_shape haccepted
  rcases Nat.eq_zero_or_pos header.payloadLen with hzero | hpos
  · rw [filled, if_pos hzero] at hfilled
    obtain rfl := Option.some.inj hfilled
    exact hbuffer
  · obtain ⟨-, hlen, hlt, -⟩ := filled_of_pos (by exact hpos) hfilled
    have hbits : 2 ^ (p.bits - 1) ≤ 2 ^ 63 :=
      Nat.pow_le_pow_right (by decide) (Nat.sub_le_sub_right p.bits_le 1)
    omega

/-! ## A turn of the reader -/

variable (p c) in
/-- What a turn of the reader can come to. -/
inductive ReadEnd : Connection → Prop
  /-- The frame is handed over. -/
  | handled {d : Connection} (h : handed p c = some d) : ReadEnd (handleFrame p d)
  /-- The header is refused. -/
  | refused {d : Connection} {reason : String} (hheaded : headed c = some d)
      (hbad : headerFailure p d = some reason) : ReadEnd (failProtocol p d reason)
  /-- Nothing is handed over and nothing is written. -/
  | unread {d : Connection} (hrole : d.role = c.role)
      (hdeflate : d.permessageDeflate = c.permessageDeflate) (hwire : d.wire = c.wire) : ReadEnd d

lemma readPayload_of_filled (h : filled p c = some d) :
    readPayload p c = (handleFrame p d, false) := by
  rw [filled] at h
  rw [readPayload]
  split_ifs at h ⊢ with hzero
  · obtain rfl := Option.some.inj h
    rfl
  · dsimp only at h ⊢
    split_ifs at h ⊢ with hsize
    obtain ⟨⟨data, c₁⟩, hread, rfl⟩ := Option.map_eq_some_iff.mp h
    rw [hread]

lemma readPayload_of_not_filled (h : filled p c = none) :
    (readPayload p c).1.role = c.role ∧
      (readPayload p c).1.permessageDeflate = c.permessageDeflate ∧
      (readPayload p c).1.wire = c.wire := by
  rw [filled] at h
  rw [readPayload]
  split_ifs at h ⊢ with hzero
  dsimp only at h ⊢
  split_ifs at h ⊢ with hsize
  · exact ⟨rfl, rfl, rfl⟩
  · rw [Option.map_eq_none_iff.mp h]
    exact ⟨rfl, rfl, rfl⟩

lemma parseHeader_eq_withBytes (c : Connection) (first second : UInt8) :
    parseHeader p c first second =
      match (readLength (c.withBytes first second)) with
      | none => ({ c.withBytes first second with input := [] }, true)
      | some c =>
          match readKey c with
          | none => ({ c with input := [] }, true)
          | some c => parseRest p c := rfl

/-- **One turn of the reader.** -/
lemma readOneFrame_cases (p : Platform) (c : Connection) : ReadEnd p c (readOneFrame p c).1 := by
  rw [readOneFrame]
  split
  · exact .unread rfl rfl rfl
  · rename_i hopen
    split
    · rename_i first second c₁ hread
      have hshape := readExact_shape hread
      obtain ⟨-, -, rfl⟩ := hshape
      -- `parse_header` reads the length and then the key, where `headed` puts both together
      have hheaded : headed c = (readLength (({ c with input := c.input.drop 2 } :
          Connection).withBytes first second)).bind readKey := by
        rw [headed, hread]
      rw [parseHeader_eq_withBytes]
      cases hlength : readLength (({ c with input := c.input.drop 2 } :
          Connection).withBytes first second) with
      | none => exact .unread rfl rfl rfl
      | some c₂ =>
          obtain ⟨header, input, rfl⟩ := readLength_shape hlength
          rw [hlength, Option.bind_some] at hheaded
          simp only
          cases hkey : readKey _ with
          | none => exact .unread rfl rfl rfl
          | some c₃ =>
              rw [hkey] at hheaded
              have haccepted : accepted p c =
                  if (headerFailure p c₃).isSome then none else some c₃ := by
                rw [accepted, if_neg hopen, hheaded]
                rfl
              -- the header is read; what is left is its check and the payload
              simp only [parseRest, validateFrameHeader]
              cases hbad : headerFailure p c₃ with
              | some reason => exact .refused hheaded hbad
              | none =>
                  rw [hbad] at haccepted
                  have hhanded : handed p c = filled p c₃ := by
                    rw [handed, haccepted]
                    rfl
                  cases hfilled : filled p c₃ with
                  | some d =>
                      simp only [readPayload_of_filled hfilled]
                      exact .handled (hhanded.trans hfilled)
                  | none =>
                      obtain ⟨header', input', rfl⟩ := headed_shape hheaded
                      obtain ⟨hrole, hdeflate, hwire⟩ := readPayload_of_not_filled hfilled
                      simp only
                      split
                      · rename_i c₄ heq
                        rw [heq] at hrole hdeflate hwire
                        exact .unread hrole hdeflate hwire
                      · rename_i c₄ heq
                        rw [heq] at hrole hdeflate hwire
                        exact .unread hrole hdeflate hwire
    · exact .unread rfl rfl rfl

end Connection

end Wscpp.Cpp
