import Wscpp.Cpp.Handed
import Wscpp.Cpp.Needed

/-!
# Lengths and the width of a word

A frame declares its length in 64 bits, and all three decoders narrow it to the native word: the
frame parser of wscpp when it stores the length in `payload_remaining_`, the connection when it
resizes `payload_buffer_`, and the parser of ws-rs each time it takes a piece of the payload.  Where
a word has 64 bits nothing is lost.  Where it has fewer, a length of `2 ^ bits` or more loses its
upper part: wscpp hands over a frame that is shorter than its header says, and reads the rest of
the payload as further frames; ws-rs stops taking bytes once the lower part of what is missing is
zero.

The model of the frame parser in `Wscpp.Cpp.Parser` is that of a 64-bit word, and `Parser.subAt` is
the same with any other (`Parser.parseAt_eq_parse`).  Beside the parser it counts the payload bytes
of the frame under way, and `Parser.Counted` is what the count, the buffer and the length have to do
with each other.

`reserve` throws where the narrowed length is more than a vector can have.  The call then ends
behind the part of the frame it has read, as it does on a chunk that ends there, so nothing is
missing from the runs.
-/

namespace Wscpp

open Words Incremental
open Rs (Done State)

namespace Cpp

namespace Parser

/-! ## The frame parser of wscpp -/

/-- What a `size_t` keeps of `payload_remaining_`. -/
def narrow (bits : ℕ) (p : Parser) : Parser :=
  { p with payloadRemaining := p.payloadRemaining % 2 ^ bits }

/-- The `switch` of `parse` where a `size_t` has `bits` bits, with the number of payload bytes
consumed for the frame under way. -/
def subAt (bits : ℕ) (host : Endian) (s : Parser × ℕ) (data : List UInt8) :
    (Parser × ℕ) × Option Done × ℕ :=
  match sub host s.1 data with
  | (p, result, consumed) =>
      ((p.narrow bits, if s.1.state = .payload then s.2 + consumed else 0), result, consumed)

/-- A frame that `COMPLETE` stores, and the number of payload bytes consumed for it. -/
structure Completed where
  header : FrameHeader
  payload : List UInt8
  consumed : ℕ
  deriving DecidableEq, Repr

/-- `parse`, and the frame it stores if it gives `COMPLETE`. -/
def parseAt (bits : ℕ) (host : Endian) (s : Parser × ℕ) (data : List UInt8) :
    (Parser × ℕ) × Option Completed :=
  match pump (subAt bits host) s data with
  | (s, some .complete, _) => ((new, 0), some ⟨s.1.header, s.1.buffer, s.2⟩)
  | (s, _, _) => (s, none)

/-- What a caller does with the parser. -/
inductive ParserCall
  | parse (data : List UInt8)
  | reset

/-- The frames that successive calls complete. -/
def completed (bits : ℕ) (host : Endian) : Parser × ℕ → List ParserCall → List Completed
  | _, [] => []
  | _, .reset :: calls => completed bits host (new, 0) calls
  | s, .parse data :: calls =>
      (parseAt bits host s data).2.toList ++
        completed bits host (parseAt bits host s data).1 calls

/-- What is known of the frame under way: the buffer has the bytes that were counted, and with
those to come they make up what a word keeps of the length. -/
def Counted (bits : ℕ) (s : Parser × ℕ) : Prop :=
  match s.1.state with
  | .header | .payloadLengthExt => True
  | .maskingKey => s.1.buffer = []
  | .payload =>
      s.1.buffer.length = s.2 ∧ s.2 + s.1.payloadRemaining = s.1.header.payloadLen % 2 ^ bits

/-- What is known of a completed frame. -/
def Whole (bits : ℕ) (s : Parser × ℕ) : Prop :=
  s.1.buffer.length = s.1.header.payloadLen % 2 ^ bits ∧
    s.2 = s.1.header.payloadLen % 2 ^ bits

lemma counted_afterLength {bits : ℕ} {p : Parser} (hbuffer : p.buffer = [])
    (hstate : p.state = if p.header.mask then .maskingKey else .payload)
    (hrem : p.payloadRemaining = p.header.payloadLen) : Counted bits (p.narrow bits, 0) := by
  rw [Counted]
  show match p.state with
    | .header | .payloadLengthExt => True
    | .maskingKey => p.buffer = []
    | .payload =>
        p.buffer.length = 0 ∧ 0 + p.payloadRemaining % 2 ^ bits = p.header.payloadLen % 2 ^ bits
  rw [hstate, hbuffer, hrem]
  cases p.header.mask with
  | true => rfl
  | false => exact ⟨rfl, Nat.zero_add _⟩

/-- A turn that is not in the payload completes nothing. -/
lemma counted_parseHeader (bits : ℕ) {p : Parser} (hstate : p.state = .header)
    (data : List UInt8) :
    Counted bits ((parseHeader p data).1.narrow bits, 0) ∧
      (parseHeader p data).2.1 ≠ some .complete := by
  have hsame : ∀ header, Counted bits (narrow bits { p with header := header }, 0) := by
    intro header
    rw [Counted]
    simp only [narrow, hstate]
  rcases data with _ | ⟨first, _ | ⟨second, data⟩⟩
  · exact ⟨hsame p.header, by simp [parseHeader]⟩
  · exact ⟨hsame p.header, by simp [parseHeader]⟩
  · simp only [parseHeader]
    split
    · exact ⟨hsame _, by simp⟩
    · split
      · exact ⟨counted_afterLength rfl rfl rfl, by simp⟩
      · split
        · exact ⟨trivial, by simp⟩
        · exact ⟨hsame _, by simp⟩

lemma counted_parsePayloadLength (bits : ℕ) {p : Parser} (hstate : p.state = .payloadLengthExt)
    (data : List UInt8) :
    Counted bits ((parsePayloadLength p data).1.narrow bits, 0) ∧
      (parsePayloadLength p data).2.1 ≠ some .complete := by
  have hsame : ∀ header, Counted bits (narrow bits { p with header := header }, 0) := by
    intro header
    rw [Counted]
    simp only [narrow, hstate]
  have hset : ∀ n k, Counted bits ((setPayloadLength p n k).1.narrow bits, 0) ∧
      (setPayloadLength p n k).2.1 ≠ some .complete := by
    intro n k
    rw [setPayloadLength]
    dsimp only
    split
    · exact ⟨hsame _, by simp⟩
    · exact ⟨counted_afterLength rfl rfl rfl, by simp⟩
  rw [parsePayloadLength]
  split_ifs
  · exact ⟨hsame p.header, by simp⟩
  · exact hset _ _
  · exact ⟨hsame p.header, by simp⟩
  · exact hset _ _

lemma counted_parseMaskingKey (bits : ℕ) {p : Parser} (hstate : p.state = .maskingKey)
    (hbuffer : p.buffer = []) (data : List UInt8) :
    Counted bits ((parseMaskingKey p data).1.narrow bits, 0) ∧
      (parseMaskingKey p data).2.1 ≠ some .complete := by
  have hsame : Counted bits (narrow bits p, 0) := by
    rw [Counted]
    simp only [narrow, hstate, hbuffer]
  rcases data with _ | ⟨k0, _ | ⟨k1, _ | ⟨k2, _ | ⟨k3, data⟩⟩⟩⟩
  · exact ⟨hsame, by simp [parseMaskingKey]⟩
  · exact ⟨hsame, by simp [parseMaskingKey]⟩
  · exact ⟨hsame, by simp [parseMaskingKey]⟩
  · exact ⟨hsame, by simp [parseMaskingKey]⟩
  · refine ⟨?_, by simp [parseMaskingKey]⟩
    show p.buffer.length = 0 ∧ 0 + p.header.payloadLen % 2 ^ bits = p.header.payloadLen % 2 ^ bits
    exact ⟨by rw [hbuffer]; rfl, Nat.zero_add _⟩

lemma counted_parsePayload (bits : ℕ) (host : Endian) {p : Parser} {n : ℕ}
    (hstate : p.state = .payload) (hlen : p.buffer.length = n)
    (hsum : n + p.payloadRemaining = p.header.payloadLen % 2 ^ bits) (data : List UInt8) :
    let t := parsePayload host p data
    (t.2.1 = none → Counted bits (t.1.narrow bits, n + t.2.2)) ∧
      (t.2.1 ≠ none → Whole bits (t.1.narrow bits, n + t.2.2)) := by
  intro t
  have hlt : p.payloadRemaining < 2 ^ bits := by
    have := Nat.mod_lt p.header.payloadLen (Nat.two_pow_pos bits)
    omega
  by_cases hzero : p.payloadRemaining = 0
  · -- nothing is left to take: the frame is complete
    have ht : t = ({ p with state := .header }, some .complete, 0) := by
      simp only [t, parsePayload, if_pos hzero]
    rw [ht]
    refine ⟨by simp, fun _ => ⟨?_, ?_⟩⟩
    · show p.buffer.length = p.header.payloadLen % 2 ^ bits
      omega
    · show n + 0 = p.header.payloadLen % 2 ^ bits
      omega
  · generalize hread : min p.payloadRemaining data.length = k
    generalize hpiece : (if p.header.mask then
      copyAndUnmask host p.header.maskingKey p.buffer.length (data.take k) else data.take k) = piece
    have hk : piece.length = k := by
      rw [← hpiece]
      split
      · rw [copyAndUnmask, Mask.copyAndUnmask_eq, Mask.length_xorKey,
          List.length_take_of_le (by omega)]
      · exact List.length_take_of_le (by omega)
    -- what is left is no more than before, so nothing is cut off
    have hrest : (p.payloadRemaining - k) % 2 ^ bits = p.payloadRemaining - k :=
      Nat.mod_eq_of_lt (by omega)
    by_cases hdone : p.payloadRemaining - k = 0
    · have ht : t = ({ p with
          state := .header
          buffer := p.buffer ++ piece
          payloadRemaining := p.payloadRemaining - k }, some .complete, k) := by
        simp only [t, parsePayload, if_neg hzero, hread, hpiece, if_pos hdone]
      rw [ht]
      refine ⟨by simp, fun _ => ⟨?_, ?_⟩⟩
      · show (p.buffer ++ piece).length = p.header.payloadLen % 2 ^ bits
        rw [List.length_append]
        omega
      · show n + k = p.header.payloadLen % 2 ^ bits
        omega
    · have ht : t = ({ p with
          buffer := p.buffer ++ piece
          payloadRemaining := p.payloadRemaining - k }, none, k) := by
        simp only [t, parsePayload, if_neg hzero, hread, hpiece, if_neg hdone]
      rw [ht]
      -- the count goes on
      refine ⟨fun _ => ?_, by simp⟩
      rw [Counted]
      simp only [narrow, hstate, List.length_append, hrest]
      omega

/-- **One turn** keeps the count, and a completed frame has what a word keeps of its length. -/
lemma counted_subAt (bits : ℕ) (host : Endian) {s : Parser × ℕ} (h : Counted bits s)
    (data : List UInt8) :
    ((subAt bits host s data).2.1 ≠ some .complete → Counted bits (subAt bits host s data).1) ∧
      ((subAt bits host s data).2.1 = some .complete → Whole bits (subAt bits host s data).1) := by
  obtain ⟨p, n⟩ := s
  rw [subAt, sub]
  rw [Counted] at h
  cases hstate : p.state with
  | header =>
      obtain ⟨hcount, hne⟩ := counted_parseHeader bits hstate data
      exact ⟨fun _ => by simpa using hcount, fun hc => absurd hc hne⟩
  | payloadLengthExt =>
      obtain ⟨hcount, hne⟩ := counted_parsePayloadLength bits hstate data
      exact ⟨fun _ => by simpa using hcount, fun hc => absurd hc hne⟩
  | maskingKey =>
      simp only [hstate] at h
      obtain ⟨hcount, hne⟩ := counted_parseMaskingKey bits hstate h data
      exact ⟨fun _ => by simpa using hcount, fun hc => absurd hc hne⟩
  | payload =>
      simp only [hstate] at h
      obtain ⟨hmore, hdone⟩ := counted_parsePayload bits host hstate h.1 h.2 data
      simp only [if_true]
      refine ⟨fun hne => ?_, fun hc => hdone (by simp [hc])⟩
      have hnone : (parsePayload host p data).2.1 = none := by
        simp only [parsePayload] at hne ⊢
        split_ifs at hne ⊢ <;> simp_all
      exact hmore hnone

/-- **One call** keeps the count. -/
lemma counted_parseAt (bits : ℕ) (host : Endian) {s : Parser × ℕ} (h : Counted bits s)
    (data : List UInt8) :
    Counted bits (parseAt bits host s data).1 ∧
      ∀ r ∈ (parseAt bits host s data).2,
        r.payload.length = r.header.payloadLen % 2 ^ bits ∧
          r.consumed = r.header.payloadLen % 2 ^ bits := by
  have hgo : ∀ t a t' k, Counted bits t → subAt bits host t a = (t', none, k) →
      Counted bits t' := by
    intro t a t' k ht hsub
    have hturn := (counted_subAt bits host ht a).1
    rw [hsub] at hturn
    exact hturn (by simp)
  have hstop : ∀ t a t' r k, Counted bits t → subAt bits host t a = (t', some r, k) →
      if r = .complete then Whole bits t' else Counted bits t' := by
    intro t a t' r k ht hsub
    have hturn := counted_subAt bits host ht a
    rw [hsub] at hturn
    cases r with
    | complete => exact hturn.2 rfl
    | error => exact hturn.1 (by simp)
  obtain ⟨hnone, hsome⟩ := pump_rule
    (Q := fun t r => if r = Done.complete then Whole bits t else Counted bits t) hgo hstop h data
  rw [parseAt]
  rcases hpump : pump (subAt bits host) s data with ⟨t, _ | _ | _, k⟩
  · exact ⟨hnone t k hpump, by simp⟩
  · have hwhole : Whole bits t := hsome t .complete k hpump
    refine ⟨trivial, fun r hr => ?_⟩
    obtain rfl := Option.some.inj hr
    exact hwhole
  · exact ⟨hsome t .error k hpump, by simp⟩

/-- **Every run of calls**: a completed frame has what a word keeps of its length. -/
lemma counted_completed (bits : ℕ) (host : Endian) {s : Parser × ℕ} (h : Counted bits s)
    (calls : List ParserCall) {r : Completed} (hr : r ∈ completed bits host s calls) :
    r.payload.length = r.header.payloadLen % 2 ^ bits ∧
      r.consumed = r.header.payloadLen % 2 ^ bits := by
  induction calls generalizing s with
  | nil => simp [completed] at hr
  | cons call calls ih =>
      cases call with
      | reset => exact ih (s := (new, 0)) trivial hr
      | parse data =>
          obtain ⟨hnext, hthis⟩ := counted_parseAt bits host h data
          rw [completed, List.mem_append, Option.mem_toList] at hr
          rcases hr with hr | hr
          · exact hthis r hr
          · exact ih hnext hr

/-! ## A word of 64 bits -/

lemma subAt_agree (host : Endian) (s : Parser × ℕ) (p : Parser) (data : List UInt8)
    (h : s.1 = p ∧ ∃ q, Same p q) :
    Agree (fun s p => s.1 = p ∧ ∃ q, Same p q) IsError (subAt 64 host s data)
      (sub host p data) := by
  obtain ⟨rfl, q, hq⟩ := h
  rw [subAt]
  rcases sub_agree host s.1 q data hq with ⟨r, hbad, hr, -⟩ | ⟨hsame, -⟩
  · exact .inl ⟨r, hbad, hr, hr⟩
  · have hwide : narrow 64 (sub host s.1 data).1 = (sub host s.1 data).1 := by
      obtain ⟨hp, hsized⟩ := hsame
      have hlt : (sub host s.1 data).1.payloadRemaining < 2 ^ 64 := by
        rw [hp]
        exact Nat.lt_trans hsized.2.1 (by decide)
      rw [narrow, Nat.mod_eq_of_lt hlt]
    exact .inr ⟨⟨hwide, _, hsame⟩, rfl⟩

/-- **With 64 bits this is the parser of `Wscpp.Cpp.Parser`**: what `feed` gives are the frames
completed up to the first error. -/
lemma feed_prefix_completed (host : Endian) {s : Parser × ℕ} {q : Rs.Parser} (hq : Same s.1 q)
    (chunks : List (List UInt8)) :
    feed host s.1 chunks <+:
      (completed 64 host s (chunks.map .parse)).map fun r => (r.header, r.payload) := by
  induction chunks generalizing s q with
  | nil => exact List.prefix_rfl
  | cons chunk chunks ih =>
      have hagree := pump_agree (subAt_agree host) (s := s) ⟨rfl, q, hq⟩ chunk
      rw [feed, List.map_cons, completed, parse, parseAt, List.map_append]
      generalize pump (subAt 64 host) s chunk = x at hagree ⊢
      generalize pump (sub host) s.1 chunk = y at hagree ⊢
      rcases x with ⟨t, rt, k⟩
      rcases y with ⟨p, rp, j⟩
      rcases hagree with ⟨r, hbad, hrt, hrp⟩ | ⟨⟨hp, q', hq'⟩, heq⟩
      · obtain rfl : rp = some r := hrp
        obtain rfl : r = .error := hbad
        exact List.nil_prefix
      · obtain rfl : t.1 = p := hp
        obtain ⟨rfl, rfl⟩ := Prod.mk.inj heq
        rcases rt with _ | _ | _
        · exact ih hq'
        · exact List.prefix_cons_inj _ |>.mpr (ih (s := (new, 0)) ⟨rfl, sized_fresh⟩)
        · exact List.nil_prefix

end Parser

end Cpp

/-! ## The parser of ws-rs -/

namespace Rs.Parser

/-- A call in the payload gets on exactly if the lower part of what is missing is not zero. -/
lemma parse_consumes_iff (bits : ℕ) {q : Parser} (hstate : q.state = .payload)
    (hpos : 0 < q.payloadRemaining) {data : List UInt8} (hne : data ≠ []) :
    0 < (parse bits q data).2.2 ↔ q.payloadRemaining % 2 ^ bits ≠ 0 := by
  have hlen : 0 < data.length := List.length_pos_iff.mpr hne
  have hsub : sub bits q data = parsePayload bits q data := by
    rw [sub, hstate]
  rw [parse]
  by_cases hzero : q.payloadRemaining % 2 ^ bits = 0
  · have hstall : sub bits q data =
        ({ q with buffer := q.buffer ++ unmaskPiece q.header q.buffer.length [] }, none, 0) := by
      rw [hsub, parsePayload, if_neg (by omega)]
      simp only [hzero, Nat.zero_min, Nat.sub_zero, List.take_zero, if_neg hpos.ne']
    rw [pump_of_stall hne hstall]
    simp [hzero]
  · refine iff_of_true ?_ hzero
    have heaten : (sub bits q data).2.2 = min (q.payloadRemaining % 2 ^ bits) data.length := by
      rw [hsub, parsePayload, if_neg (by omega)]
      dsimp only
      split <;> rfl
    rcases hturn : sub bits q data with ⟨q', _ | r, k⟩
    · rw [hturn] at heaten
      dsimp only at heaten
      rw [pump_of_eat (by omega) hne hturn]
      dsimp only
      omega
    · rw [hturn] at heaten
      dsimp only at heaten
      rw [pump_of_some hne hturn]
      dsimp only
      omega

end Rs.Parser

/-! ## All three -/

lemma mod_two_pow_eq_iff {n bits : ℕ} : n % 2 ^ bits = n ↔ n < 2 ^ bits :=
  ⟨fun h => h ▸ Nat.mod_lt n (Nat.two_pow_pos bits), Nat.mod_eq_of_lt⟩

/-- **When a frame is as long as it says.**  For words of any width: a frame that `frame::parser`
completes has as many bytes as its header says, and so many were consumed for it, if and only if
this length fits in a word; the same holds of a frame with a payload that the connection of wscpp
hands to `handle_frame`; and the parser of ws-rs, in a payload and given a byte, consumes one if and
only if the lower `bits` bits of what is missing are not zero. -/
theorem lengths_agree_iff (bits : ℕ) :
    (∀ (host : Endian) (calls : List Cpp.Parser.ParserCall),
      ∀ r ∈ Cpp.Parser.completed bits host (.new, 0) calls,
        (r.payload.length = r.header.payloadLen ∧ r.consumed = r.header.payloadLen) ↔
          r.header.payloadLen < 2 ^ bits) ∧
    (∀ (p : Cpp.Platform) (c d d' : Cpp.Connection), p.bits = bits →
      Cpp.Connection.accepted p c = some d → 1 ≤ d.currentHeader.payloadLen →
        Cpp.Connection.filled p d = some d' →
          ((d'.payloadBuffer.length = d'.currentHeader.payloadLen ∧
              d'.currentHeader.payloadLen ≤ d.input.length ∧
              d'.input = d.input.drop d'.currentHeader.payloadLen) ↔
            d'.currentHeader.payloadLen < 2 ^ bits)) ∧
    (∀ (q : Rs.Parser) (data : List UInt8), q.state = .payload → 0 < q.payloadRemaining →
      data ≠ [] →
        (0 < (Rs.Parser.parse bits q data).2.2 ↔ q.payloadRemaining % 2 ^ bits ≠ 0)) := by
  refine ⟨?_, ?_, ?_⟩
  · intro host calls r hr
    obtain ⟨hpayload, hconsumed⟩ := Cpp.Parser.counted_completed bits host
      (show Cpp.Parser.Counted bits (.new, 0) from trivial) calls hr
    rw [hpayload, hconsumed, and_self, mod_two_pow_eq_iff]
  · rintro p c d d' rfl - hpos hfilled
    obtain ⟨hle, hlen, -, buffer, rfl⟩ := Cpp.Connection.filled_of_pos hpos hfilled
    dsimp only at hlen ⊢
    constructor
    · intro h
      exact mod_two_pow_eq_iff.mp (hlen.symm.trans h.1)
    · intro hlt
      rw [Nat.mod_eq_of_lt hlt] at hle hlen ⊢
      exact ⟨hlen, hle, rfl⟩
  · intro q data hstate hpos hne
    exact Rs.Parser.parse_consumes_iff bits hstate hpos hne

lemma word32_le : 32 ≤ 64 := by decide

/-- A host with words of 32 bits. -/
def platform32 : Cpp.Platform := { Cpp.plainPlatform with bits := 32, bits_le := word32_le }

/-- A ws-rs parser in front of a payload. -/
def atPayload (n : ℕ) : Rs.Parser := { Rs.Parser.new with state := .payload, payloadRemaining := n }

/-- Words of 32 bits do for the frame `82 01 41`. -/
theorem lengths_agree_short :
    let r : Cpp.Parser.Completed :=
      ⟨⟨true, false, false, false, 2, false, 1, Key.zero⟩, [0x41], 1⟩
    let c := Cpp.Connection.new .client false [0x82, 0x01, 0x41]
    r ∈ Cpp.Parser.completed 32 .big (.new, 0) [.parse [0x82], .parse [0x82, 0x01], .parse [0x41]] ∧
    (r.payload.length = r.header.payloadLen ∧ r.consumed = r.header.payloadLen) ∧
    (∃ d d', Cpp.Connection.accepted platform32 c = some d ∧
      Cpp.Connection.filled platform32 d = some d' ∧
      d'.payloadBuffer.length = d'.currentHeader.payloadLen) ∧
    0 < (Rs.Parser.parse 32 (atPayload 1) [0x41]).2.2 := by
  obtain ⟨hparser, hconnection, hport⟩ := lengths_agree_iff 32
  have hmem : (⟨⟨true, false, false, false, 2, false, 1, Key.zero⟩, [0x41], 1⟩ :
      Cpp.Parser.Completed) ∈ Cpp.Parser.completed 32 .big (.new, 0)
        [.parse [0x82], .parse [0x82, 0x01], .parse [0x41]] := by decide +kernel
  refine ⟨hmem, (hparser .big _ _ hmem).mpr (by decide), ?_,
    (hport (atPayload 1) [0x41] rfl (by decide) (by decide)).mpr (by decide)⟩
  obtain ⟨d, d', haccepted, hpos, hfilled, hlen⟩ :
      ∃ d d', Cpp.Connection.accepted platform32 (.new .client false [0x82, 0x01, 0x41]) = some d ∧
        1 ≤ d.currentHeader.payloadLen ∧ Cpp.Connection.filled platform32 d = some d' ∧
          d'.currentHeader.payloadLen < 2 ^ 32 :=
    ⟨_, _, rfl, by decide, rfl, by decide⟩
  exact ⟨d, d', haccepted, hfilled,
    ((hconnection platform32 _ d d' rfl haccepted hpos hfilled).mpr hlen).1⟩

/-- The header of a frame of `2 ^ 32` bytes: with words of 32 bits both decoders of wscpp take the
frame for an empty one, and the parser of ws-rs takes none of its bytes. -/
theorem lengths_disagree_word32 :
    (¬∀ (host : Endian) (calls : List Cpp.Parser.ParserCall),
      ∀ r ∈ Cpp.Parser.completed 32 host (.new, 0) calls, 1 ≤ r.header.payloadLen →
        r.payload.length = r.header.payloadLen ∧ r.consumed = r.header.payloadLen) ∧
    (¬∀ (p : Cpp.Platform) (c d d' : Cpp.Connection), p.bits = 32 →
      Cpp.Connection.accepted p c = some d → 1 ≤ d.currentHeader.payloadLen →
        Cpp.Connection.filled p d = some d' →
          d'.payloadBuffer.length = d'.currentHeader.payloadLen) ∧
    (¬∀ (q : Rs.Parser) (data : List UInt8), q.state = .payload → 0 < q.payloadRemaining →
      data ≠ [] → 0 < (Rs.Parser.parse 32 q data).2.2) ∧
    Cpp.Parser.completed 32 .little (.new, 0)
        [.parse [0x82, 0x7F, 0, 0, 0, 1, 0, 0, 0, 0, 0x88, 0x00]] =
      [⟨⟨true, false, false, false, 2, false, 2 ^ 32, Key.zero⟩, [], 0⟩] := by
  have hparser : Cpp.Parser.completed 32 .little (.new, 0)
      [.parse [0x82, 0x7F, 0, 0, 0, 1, 0, 0, 0, 0, 0x88, 0x00]] =
        [⟨⟨true, false, false, false, 2, false, 2 ^ 32, Key.zero⟩, [], 0⟩] := by decide +kernel
  refine ⟨fun hall => ?_, fun hall => ?_, fun hall => ?_, hparser⟩
  · have h := hall .little _ _ (hparser ▸ List.mem_singleton_self _) (by decide)
    exact absurd h.1 (by decide)
  · have h := hall platform32 (.new .client false [0x82, 0x7F, 0, 0, 0, 1, 0, 0, 0, 0]) _ _ rfl rfl
      (by decide) rfl
    exact absurd h (by decide)
  · have h := hall (atPayload (2 ^ 32)) [0x41] rfl (by decide) (by decide)
    exact absurd h (by decide)

end Wscpp
