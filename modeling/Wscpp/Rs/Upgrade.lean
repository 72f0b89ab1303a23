import Wscpp.Handshake.Messages
import Wscpp.Rs.Segmentation
import Wscpp.Rs.Session

/-!
# The ws-rs upgrade

`client_upgrade` and `server_upgrade` of `handshake.rs` and `blocking/handshake.rs`, which agree
statement for statement.  Both read the peer's header block with `read_until_headers_end`: reads of
at most 1024 bytes go into a buffer until the buffer contains an empty line, and the whole buffer
is then parsed and dropped.  The connection is made from the stream afterwards, with an empty
buffer of its own.

So the bytes that the last of these reads took from behind the empty line are in no buffer any
more, and the size limit, which is looked at after each read, depends on where the reads end.
`readUntilHeadersEnd_of_block` says which of these happens for a given script of reads, in terms of
the places where reads end (`ReadEnd`); `upgrade_boundary_iff` says for which two scripts of one
stream the difference cannot be seen.
-/

namespace Wscpp.Rs

open Lines Utf8

/-! ## Reading the block -/

lemma Chunk.drop_ne_nil {chunk : Chunk} {size : ℕ} (h : ¬chunk.bytes.length ≤ size) :
    chunk.bytes.drop size ≠ [] := by
  simpa using h

lemma Chunk.length_drop_le (chunk : Chunk) (size : ℕ) :
    (chunk.bytes.drop size).length ≤ readChunk := by
  have hle := chunk.length_le
  rw [List.length_drop]
  omega

/-- What a shorter read leaves of the bytes that were there. -/
def Chunk.drop (chunk : Chunk) (size : ℕ) (h : ¬chunk.bytes.length ≤ size) : Chunk where
  bytes := chunk.bytes.drop size
  ne_nil := Chunk.drop_ne_nil h
  length_le := chunk.length_drop_le size

/-- The result of `read`. -/
inductive ReadResult
  | data (bytes : List UInt8)
  | closed
  | error
  deriving DecidableEq, Repr

/-- `read` into a buffer of the given size. -/
def readInto (size : ℕ) : List ReadEvent → ReadResult × List ReadEvent
  | [] => (.closed, [])
  | .error :: input => (.error, input)
  | .data chunk :: input =>
      if h : chunk.bytes.length ≤ size then (.data chunk.bytes, input)
      else (.data (chunk.bytes.take size), .data (chunk.drop size h) :: input)

/-- The size of the scratch space of `read_until_headers_end`. -/
def headerChunk : ℕ := 1024

/-- The size limit of `read_until_headers_end`. -/
def headerLimit : ℕ := 64 * 1024

/-- The loop of `read_until_headers_end`.  The first argument bounds the number of reads. -/
def headersLoop : ℕ → List UInt8 → List ReadEvent →
    Except UpgradeError (List UInt8) × List ReadEvent
  | 0, _, input => (.error .io, input)
  | n + 1, buf, input =>
      match readInto headerChunk input with
      | (.error, input) => (.error .io, input)
      | (.closed, input) => (.error (.handshake "connection closed during handshake"), input)
      | (.data bytes, input) =>
          if occursIn headersEnd (buf ++ bytes) then (.ok (buf ++ bytes), input)
          else if (buf ++ bytes).length > headerLimit then
            (.error (.handshake "message too large"), input)
          else headersLoop n (buf ++ bytes) input

/-- `read_until_headers_end`: every read but the last gives a byte. -/
def readUntilHeadersEnd (input : List ReadEvent) :
    Except UpgradeError (List UInt8) × List ReadEvent :=
  headersLoop ((inputBytes input).length + 1) [] input

/-! ## Checking the block -/

/-- `HandshakeExtensions`. -/
structure HandshakeExtensions where
  permessageDeflate : Bool
  deriving DecidableEq, Repr

/-- `parse_client_upgrade`. -/
def parseClientUpgrade (raw : List UInt8) : Except UpgradeError (List UInt8 × Headers) :=
  match parseHttpHeaders raw with
  | .error err => .error err
  | .ok (line, headers) =>
      if !validateClientRequest headers then .error (.handshake "invalid upgrade request")
      else .ok (line, headers)

/-- `parse_server_response`. -/
def parseServerResponse (raw : List UInt8) : Except UpgradeError Unit :=
  if !(strBytes "HTTP/1.1 101").isPrefixOf raw then .error (.handshake "expected HTTP 101")
  else
    match parseHttpHeaders raw with
    | .error err => .error err
    | .ok (_, headers) =>
        match headers.find (strBytes "sec-websocket-accept") with
        | none => .error (.handshake "missing Sec-WebSocket-Accept")
        | some _ => .ok ()

/-- `verify_server_accept`. -/
def verifyServerAccept (d : Digest) (clientKey acceptHeader : List UInt8) : Bool :=
  computeAccept d clientKey == acceptHeader

/-- What `client_upgrade` does with the response, as a string. -/
def checkResponse (d : Digest) (key : List UInt8) (requestDeflate : Bool) (raw : List UInt8) :
    Except UpgradeError HandshakeExtensions :=
  match parseServerResponse raw with
  | .error err => .error err
  | .ok () =>
      match parseHttpHeaders raw with
      | .error err => .error err
      | .ok (_, headers) =>
          match headers.find (strBytes "sec-websocket-accept") with
          | none => .error (.handshake "missing accept header")
          | some accept =>
              if !verifyServerAccept d key accept then .error (.handshake "accept key mismatch")
              else .ok ⟨requestDeflate && offersDeflate headers⟩

/-- What `server_upgrade` does with the request, as a string: the response it writes and the
extensions. -/
def checkRequest (d : Digest) (raw : List UInt8) :
    Except UpgradeError (List UInt8 × HandshakeExtensions) :=
  match parseClientUpgrade raw with
  | .error err => .error err
  | .ok (_, headers) =>
      match headers.find (strBytes "sec-websocket-key") with
      | none => .error (.handshake "missing key")
      | some key =>
          let deflate := offersDeflate headers
          .ok (buildServerResponse (computeAccept d key) (if deflate then some offer else none),
            ⟨deflate⟩)

/-! ## Upgrades -/

/-- What an upgrade returns, the bytes it has written, and the reads still to come. -/
structure Upgrade where
  result : Except UpgradeError HandshakeExtensions
  written : List UInt8
  input : List ReadEvent
  deriving DecidableEq

/-- The bytes that one `write_all` and `flush` put out. -/
def WriteOutcome.out : WriteOutcome → List UInt8 → List UInt8
  | .failed, _ => []
  | _, bytes => bytes

/-- What an upgrade does not choose or is called with: the digest, the key that `generate_key`
gives, the arguments of `client_upgrade`, and what becomes of its one write. -/
structure Opening where
  digest : Digest
  key : List UInt8
  host : List UInt8
  port : List UInt8
  path : List UInt8
  requestDeflate : Bool
  write : WriteOutcome

/-- The request of a client. -/
def Opening.request (o : Opening) : List UInt8 :=
  buildClientRequest o.host o.port o.path o.key (if o.requestDeflate then some offer else none)

/-- `client_upgrade`. -/
def clientUpgrade (o : Opening) (input : List ReadEvent) : Upgrade :=
  match o.write with
  | .done =>
      match readUntilHeadersEnd input with
      | (.error err, input) => ⟨.error err, o.request, input⟩
      | (.ok response, input) =>
          ⟨checkResponse o.digest o.key o.requestDeflate (fromUtf8Lossy response), o.request, input⟩
  | w => ⟨.error .io, w.out o.request, input⟩

/-- `server_upgrade`. -/
def serverUpgrade (o : Opening) (input : List ReadEvent) : Upgrade :=
  match readUntilHeadersEnd input with
  | (.error err, input) => ⟨.error err, [], input⟩
  | (.ok request, input) =>
      match checkRequest o.digest (fromUtf8Lossy request) with
      | .error err => ⟨.error err, [], input⟩
      | .ok (response, extensions) =>
          match o.write with
          | .done => ⟨.ok extensions, response, input⟩
          | w => ⟨.error .io, w.out response, input⟩

/-- The upgrade of either end. -/
def upgrade (o : Opening) : Role → List ReadEvent → Upgrade
  | .client, input => clientUpgrade o input
  | .server, input => serverUpgrade o input

/-! ## Where reads end -/

/-- The sizes of the reads that take so many bytes which are there. -/
def chunkSizes (n : ℕ) : List ℕ :=
  List.replicate (n / headerChunk) headerChunk ++
    if n % headerChunk = 0 then [] else [n % headerChunk]

/-- The sizes of the reads of `read_until_headers_end` on a script, if it took all of it. -/
def readSizes : List ReadEvent → List ℕ
  | [] => []
  | .data chunk :: input => chunkSizes chunk.bytes.length ++ readSizes input
  | .error :: input => readSizes input

/-- With `start` bytes read before, a read ends behind byte `n`. -/
def ReadEnd (start : ℕ) (input : List ReadEvent) (n : ℕ) : Prop :=
  ∃ k, start + ((readSizes input).take k).sum = n

lemma ReadEnd.le {start n : ℕ} {input : List ReadEvent} (h : ReadEnd start input n) :
    start ≤ n := by
  obtain ⟨k, rfl⟩ := h
  exact Nat.le_add_right _ _

/-- The reads end behind the first of them, and where the others do. -/
lemma readEnd_iff {size : ℕ} {input later : List ReadEvent}
    (h : readSizes input = size :: readSizes later) (start n : ℕ) :
    ReadEnd start input n ↔ start = n ∨ ReadEnd (start + size) later n := by
  unfold ReadEnd
  rw [h]
  constructor
  · rintro ⟨k, hk⟩
    cases k with
    | zero => exact .inl (by simpa using hk)
    | succ k =>
        rw [List.take_succ_cons, List.sum_cons] at hk
        exact .inr ⟨k, by omega⟩
  · rintro (rfl | ⟨k, hk⟩)
    · exact ⟨0, by simp⟩
    · refine ⟨k + 1, ?_⟩
      rw [List.take_succ_cons, List.sum_cons]
      omega

lemma chunkSizes_of_le {n : ℕ} (hpos : 0 < n) (h : n ≤ headerChunk) : chunkSizes n = [n] := by
  unfold chunkSizes headerChunk at *
  rcases Nat.lt_or_eq_of_le h with hlt | rfl
  · rw [Nat.div_eq_of_lt hlt, Nat.mod_eq_of_lt hlt, if_neg (by omega)]
    rfl
  · rfl

lemma chunkSizes_of_lt {n : ℕ} (h : headerChunk < n) :
    chunkSizes n = headerChunk :: chunkSizes (n - headerChunk) := by
  have hdiv : n / headerChunk = (n - headerChunk) / headerChunk + 1 := by
    unfold headerChunk at *
    omega
  have hmod : n % headerChunk = (n - headerChunk) % headerChunk := by
    unfold headerChunk at *
    omega
  unfold chunkSizes
  rw [hdiv, hmod, List.replicate_succ, List.cons_append]

/-- A read takes its bytes from the front of the stream. -/
lemma inputBytes_of_readInto {size : ℕ} {input later : List ReadEvent} {bytes : List UInt8}
    (h : readInto size input = (.data bytes, later)) :
    inputBytes input = bytes ++ inputBytes later := by
  match input with
  | [] => simp [readInto] at h
  | .error :: input => simp [readInto] at h
  | .data chunk :: input =>
      rw [readInto] at h
      split at h
      · simp only [Prod.mk.injEq, ReadResult.data.injEq] at h
        obtain ⟨rfl, rfl⟩ := h
        rfl
      · simp only [Prod.mk.injEq, ReadResult.data.injEq] at h
        obtain ⟨rfl, rfl⟩ := h
        rw [inputBytes, inputBytes, ← List.append_assoc, Chunk.drop, List.take_append_drop]

/-- **One read**, of a script without errors that has bytes left. -/
lemma readInto_data {input : List ReadEvent} (herrors : readErrors input = 0)
    (hne : inputBytes input ≠ []) :
    ∃ bytes later, readInto headerChunk input = (.data bytes, later) ∧ bytes ≠ [] ∧
      inputBytes input = bytes ++ inputBytes later ∧ readErrors later = 0 ∧
      readSizes input = bytes.length :: readSizes later := by
  match input, herrors, hne with
  | [], _, hne => exact absurd rfl hne
  | .error :: input, herrors, _ => simp [readErrors] at herrors
  | .data chunk :: input, herrors, _ =>
      have hpos := List.length_pos_of_ne_nil chunk.ne_nil
      by_cases h : chunk.bytes.length ≤ headerChunk
      · refine ⟨chunk.bytes, input, by rw [readInto, dif_pos h], chunk.ne_nil, rfl, herrors, ?_⟩
        rw [readSizes, chunkSizes_of_le hpos h]
        rfl
      · have htake : (chunk.bytes.take headerChunk).length = headerChunk := by
          rw [List.length_take]
          omega
        refine ⟨chunk.bytes.take headerChunk, .data (chunk.drop headerChunk h) :: input,
          by rw [readInto, dif_neg h], ?_, ?_, herrors, ?_⟩
        · intro hnil
          rw [hnil] at htake
          exact absurd htake (by decide)
        · exact inputBytes_of_readInto (by rw [readInto, dif_neg h])
        · rw [htake, readSizes, readSizes, chunkSizes_of_lt (by omega), Chunk.drop,
            List.length_drop, List.cons_append]

/-! ## The block and what follows it -/

/-- The upgrade header block of a stream: it ends with the first empty line. -/
def HeaderBlock (block : List UInt8) : Prop := EndsFirst headersEnd block

/-- A read ends within the block, beyond the limit. -/
def TooLarge (block : List UInt8) (start : ℕ) (input : List ReadEvent) : Prop :=
  ∃ n, ReadEnd start input n ∧ headerLimit < n ∧ n < block.length

lemma not_tooLarge {block : List UInt8} (h : block.length ≤ headerLimit) {start : ℕ}
    {input : List ReadEvent} : ¬TooLarge block start input := by
  rintro ⟨n, -, hbig, hsmall⟩
  omega

section Read

variable {block : List UInt8} {input later : List ReadEvent} {start size : ℕ}

/-- A read within the limit does not change whether a later one ends beyond it. -/
lemma tooLarge_iff (hsizes : readSizes input = size :: readSizes later) (h : start ≤ headerLimit) :
    TooLarge block start input ↔ TooLarge block (start + size) later := by
  have hends := readEnd_iff hsizes
  constructor
  · rintro ⟨n, hend, hn⟩
    rcases (hends _ _).mp hend with rfl | hend
    · omega
    · exact ⟨n, hend, hn⟩
  · rintro ⟨n, hend, hn⟩
    exact ⟨n, (hends _ _).mpr (.inr hend), hn⟩

lemma not_tooLarge_of_read (hsizes : readSizes input = size :: readSizes later)
    (h : start ≤ headerLimit) (hdone : block.length ≤ start + size) :
    ¬TooLarge block start input := by
  rw [tooLarge_iff hsizes h]
  rintro ⟨n, hend, -, hsmall⟩
  have hle := hend.le
  omega

/-- A read ends with the block if this one does, when it is the first to reach the end. -/
lemma readEnd_length_iff (hsizes : readSizes input = size :: readSizes later)
    (hlt : start < block.length) (hdone : block.length ≤ start + size) :
    ReadEnd start input block.length ↔ start + size = block.length := by
  rw [readEnd_iff hsizes]
  constructor
  · rintro (heq | hend)
    · omega
    · have hle := hend.le
      omega
  · intro heq
    exact .inr ⟨0, by simpa using heq⟩

end Read

/-- **The loop on a stream with a block in front.**  It fails when a read ends within the block
beyond the limit.  Otherwise it returns the block with what the last read took from behind it,
which is nothing when a read ends with the block. -/
lemma headersLoop_of_block {block rest : List UInt8} (hblock : HeaderBlock block) (fuel : ℕ)
    {buf : List UInt8} {input : List ReadEvent} (herrors : readErrors input = 0)
    (hstream : buf ++ inputBytes input = block ++ rest) (hlt : buf.length < block.length)
    (hlimit : buf.length ≤ headerLimit) (hfuel : (inputBytes input).length < fuel) :
    (TooLarge block buf.length input ∧
      (headersLoop fuel buf input).1 = .error (.handshake "message too large")) ∨
    (¬TooLarge block buf.length input ∧ ∃ got later,
      headersLoop fuel buf input = (.ok got, later) ∧ block <+: got ∧
        got ++ inputBytes later = block ++ rest ∧ readErrors later = 0 ∧
        (got = block ↔ ReadEnd buf.length input block.length)) := by
  induction fuel generalizing buf input with
  | zero => omega
  | succ fuel ih =>
      have hne : inputBytes input ≠ [] := by
        intro hnil
        have hlen := congrArg List.length hstream
        rw [hnil] at hlen
        simp only [List.length_append, List.length_nil] at hlen
        omega
      obtain ⟨bytes, later, hread, hbytes, hsplit, hlater, hsizes⟩ := readInto_data herrors hne
      have hstream' : (buf ++ bytes) ++ inputBytes later = block ++ rest := by
        rw [List.append_assoc, ← hsplit, hstream]
      have hpre : buf ++ bytes <+: block ++ rest := ⟨inputBytes later, hstream'⟩
      have hseen := hblock.infix_iff hpre
      have hlength : (buf ++ bytes).length = buf.length + bytes.length := List.length_append
      rw [headersLoop, hread]
      dsimp only
      by_cases hdone : block.length ≤ (buf ++ bytes).length
      · -- the terminator is in the buffer
        have hoccurs : occursIn headersEnd (buf ++ bytes) = true := by
          rw [occursIn, decide_eq_true_eq]
          exact hseen.mpr hdone
        have hfront : block <+: buf ++ bytes :=
          List.prefix_of_prefix_length_le (List.prefix_append _ _) hpre hdone
        rw [if_pos hoccurs]
        rw [hlength] at hdone
        refine .inr ⟨not_tooLarge_of_read hsizes hlimit hdone, buf ++ bytes, later, rfl, hfront,
          hstream', hlater, ?_⟩
        rw [readEnd_length_iff hsizes hlt hdone, ← hlength]
        constructor
        · intro heq
          rw [heq]
        · intro heq
          exact (hfront.eq_of_length heq.symm).symm
      · have hoccurs : ¬occursIn headersEnd (buf ++ bytes) = true := by
          rw [occursIn, decide_eq_true_eq, hseen]
          exact hdone
        rw [if_neg hoccurs]
        by_cases hbig : (buf ++ bytes).length > headerLimit
        · -- too large, with more of the block to come
          rw [if_pos hbig]
          refine .inl ⟨⟨buf.length + bytes.length, ?_, by omega, by omega⟩, rfl⟩
          exact (readEnd_iff hsizes _ _).mpr (.inr ⟨0, by simp⟩)
        · rw [if_neg hbig]
          have hfuel' : (inputBytes later).length < fuel := by
            have hlen := congrArg List.length hsplit
            have hpos := List.length_pos_of_ne_nil hbytes
            rw [List.length_append] at hlen
            omega
          rcases ih hlater hstream' (by omega) (by omega) hfuel' with
            ⟨htoo, herr⟩ | ⟨htoo, got, last, hloop, hfront, hgot, hlast, halign⟩
          · rw [hlength, ← tooLarge_iff hsizes hlimit] at htoo
            exact .inl ⟨htoo, herr⟩
          · rw [hlength, ← tooLarge_iff hsizes hlimit] at htoo
            refine .inr ⟨htoo, got, last, hloop, hfront, hgot, hlast, ?_⟩
            rw [halign, readEnd_iff hsizes, hlength]
            exact (or_iff_right hlt.ne).symm

lemma HeaderBlock.ne_nil {block : List UInt8} (h : HeaderBlock block) : block ≠ [] := by
  rintro rfl
  have hnil := List.suffix_nil.mp h.1
  exact absurd hnil (by decide)

/-- **`read_until_headers_end` on a stream with a block in front.** -/
theorem readUntilHeadersEnd_of_block {block rest : List UInt8} (hblock : HeaderBlock block)
    {input : List ReadEvent} (herrors : readErrors input = 0)
    (hstream : inputBytes input = block ++ rest) :
    (TooLarge block 0 input ∧
      (readUntilHeadersEnd input).1 = .error (.handshake "message too large")) ∨
    (¬TooLarge block 0 input ∧ ∃ got later,
      readUntilHeadersEnd input = (.ok got, later) ∧ block <+: got ∧
        got ++ inputBytes later = block ++ rest ∧ readErrors later = 0 ∧
        (got = block ↔ ReadEnd 0 input block.length)) := by
  have hpos : ([] : List UInt8).length < block.length := List.length_pos_of_ne_nil hblock.ne_nil
  exact headersLoop_of_block hblock _ herrors hstream hpos (Nat.zero_le _) (Nat.lt_succ_self _)

/-- What was read has the end of a block in it, and is the front of the stream. -/
lemma headersLoop_ok (fuel : ℕ) {buf got : List UInt8} {input later : List ReadEvent}
    (h : headersLoop fuel buf input = (.ok got, later)) :
    headersEnd <:+: got ∧ ∃ t, got ++ t = buf ++ inputBytes input := by
  induction fuel generalizing buf input with
  | zero => simp [headersLoop] at h
  | succ fuel ih =>
      rw [headersLoop] at h
      rcases hread : readInto headerChunk input with ⟨r, next⟩
      rw [hread] at h
      cases r with
      | closed => simp at h
      | error => simp at h
      | data bytes =>
          have hbytes := inputBytes_of_readInto hread
          dsimp only at h
          split at h
          · rename_i hoccurs
            simp only [Prod.mk.injEq, Except.ok.injEq] at h
            obtain ⟨rfl, rfl⟩ := h
            rw [occursIn, decide_eq_true_eq] at hoccurs
            exact ⟨hoccurs, inputBytes next, by rw [hbytes, List.append_assoc]⟩
          · split at h
            · simp at h
            · obtain ⟨hend, t, ht⟩ := ih h
              exact ⟨hend, t, by rw [ht, hbytes, List.append_assoc]⟩

lemma exists_block_of_ok {input later : List ReadEvent} {got : List UInt8}
    (h : readUntilHeadersEnd input = (.ok got, later)) :
    ∃ block rest, HeaderBlock block ∧ inputBytes input = block ++ rest := by
  obtain ⟨hend, t, ht⟩ := headersLoop_ok _ h
  rw [List.nil_append] at ht
  have hoccurs : headersEnd <:+: inputBytes input := hend.trans ⟨[], t, by simpa using ht⟩
  exact exists_endsFirst_of_infix (by decide) hoccurs

/-! ## The checks see the block only -/

/-- The bytes behind the block do not matter for the headers. -/
lemma parseHttpHeaders_block_append {block : List UInt8} (hblock : HeaderBlock block)
    (extra : List UInt8) :
    parseHttpHeaders (fromUtf8Lossy (block ++ extra)) = parseHttpHeaders (fromUtf8Lossy block) := by
  obtain ⟨front, rfl⟩ := hblock.1
  have hpair : cr ≠ lf := by decide
  have hends : ([] : List UInt8).isEmpty = true := rfl
  have hlines : ∀ t, splitPair cr lf (fromUtf8Lossy (front ++ headersEnd ++ t)) =
      splitPair cr lf (fromUtf8Lossy front) ++ [] :: splitPair cr lf (fromUtf8Lossy t) := by
    intro t
    have hdecode : fromUtf8Lossy (front ++ headersEnd ++ t) =
        fromUtf8Lossy front ++ cr :: lf :: ([] ++ cr :: lf :: fromUtf8Lossy t) := by
      have hfirst := fromUtf8Lossy_crlf front (crlf ++ t)
      have hsecond := fromUtf8Lossy_crlf [] t
      rw [List.nil_append] at hsecond
      rw [hsecond] at hfirst
      simpa [headersEnd, crlf, fromUtf8Lossy, lossyLoop] using hfirst
    rw [hdecode, splitPair_append hpair, splitPair_append hpair]
    rfl
  obtain ⟨first, lines, hfront⟩ :=
    List.exists_cons_of_ne_nil (splitPair_ne_nil cr lf (fromUtf8Lossy front))
  have hwhole := hlines extra
  have halone := hlines []
  rw [List.append_nil] at halone
  rw [hfront, List.cons_append] at hwhole halone
  rw [parseHttpHeaders, parseHttpHeaders, hwhole, halone]
  simp only [headerLines_of_ends hends]

/-- A text without a carriage return is in front of the whole when it is in front of the block. -/
lemma isPrefixOf_block_append {block : List UInt8} (hblock : HeaderBlock block)
    {text : List UInt8} (htext : cr ∉ text) (extra : List UInt8) :
    text.isPrefixOf (fromUtf8Lossy (block ++ extra)) =
      text.isPrefixOf (fromUtf8Lossy block) := by
  obtain ⟨front, rfl⟩ := hblock.1
  have hcr : cr.toNat ≤ 0x7F := by decide
  have hdecode : ∀ t, text <+: fromUtf8Lossy (front ++ headersEnd ++ t) ↔
      text <+: fromUtf8Lossy front := by
    intro t
    have hcut := fromUtf8Lossy_append_ascii hcr front (lf :: cr :: lf :: t)
    have heq : front ++ headersEnd ++ t = front ++ cr :: lf :: cr :: lf :: t := by
      simp [headersEnd, crlf]
    rw [heq, hcut, prefix_append_cons_iff htext]
  have halone := hdecode []
  rw [List.append_nil] at halone
  rw [Bool.eq_iff_iff, List.isPrefixOf_iff_prefix, List.isPrefixOf_iff_prefix, hdecode extra,
    halone]

lemma checkResponse_block_append {block : List UInt8} (hblock : HeaderBlock block) (d : Digest)
    (key : List UInt8) (requestDeflate : Bool) (extra : List UInt8) :
    checkResponse d key requestDeflate (fromUtf8Lossy (block ++ extra)) =
      checkResponse d key requestDeflate (fromUtf8Lossy block) := by
  have hstatus : cr ∉ strBytes "HTTP/1.1 101" := by decide
  unfold checkResponse parseServerResponse
  rw [parseHttpHeaders_block_append hblock, isPrefixOf_block_append hblock hstatus]

/-- What `client_upgrade` makes sure of. -/
lemma checkResponse_ok_iff (d : Digest) (key : List UInt8) (requestDeflate : Bool)
    (raw : List UInt8) :
    (∃ ext, checkResponse d key requestDeflate raw = .ok ext) ↔
      strBytes "HTTP/1.1 101" <+: raw ∧ ∃ line headers, parseHttpHeaders raw = .ok (line, headers) ∧
        headers.find (strBytes "sec-websocket-accept") = some (computeAccept d key) := by
  unfold checkResponse parseServerResponse
  rw [← List.isPrefixOf_iff_prefix]
  cases (strBytes "HTTP/1.1 101").isPrefixOf raw with
  | false => simp
  | true =>
      cases hparse : parseHttpHeaders raw with
      | error err => simp
      | ok r =>
          obtain ⟨line, headers⟩ := r
          cases hfound : headers.find (strBytes "sec-websocket-accept") with
          | none => simp [hfound]
          | some accept =>
              by_cases haccept : accept = computeAccept d key
              · simp [hfound, verifyServerAccept, haccept]
              · simp [hfound, verifyServerAccept, haccept, Ne.symm haccept]

lemma checkRequest_block_append {block : List UInt8} (hblock : HeaderBlock block) (d : Digest)
    (extra : List UInt8) :
    checkRequest d (fromUtf8Lossy (block ++ extra)) = checkRequest d (fromUtf8Lossy block) := by
  unfold checkRequest parseClientUpgrade
  rw [parseHttpHeaders_block_append hblock]

/-! ## The boundary -/

/-- What an end makes of the peer's header block when it has read it, or would have made of it. -/
def decision (o : Opening) : Role → List UInt8 → Except UpgradeError HandshakeExtensions
  | .client, block =>
      match o.write with
      | .done => checkResponse o.digest o.key o.requestDeflate (fromUtf8Lossy block)
      | _ => .error .io
  | .server, block =>
      match checkRequest o.digest (fromUtf8Lossy block), o.write with
      | .error err, _ => .error err
      | .ok (_, extensions), .done => .ok extensions
      | .ok _, _ => .error .io

lemma decision_block_append (o : Opening) (role : Role) {block : List UInt8}
    (hblock : HeaderBlock block) (extra : List UInt8) :
    decision o role (block ++ extra) = decision o role block := by
  cases role with
  | client => simp only [decision, checkResponse_block_append hblock]
  | server => simp only [decision, checkRequest_block_append hblock]

/-- An upgrade that has read something decides by it. -/
lemma upgrade_of_ok (o : Opening) (role : Role) {input later : List ReadEvent} {got : List UInt8}
    (h : readUntilHeadersEnd input = (.ok got, later)) :
    (upgrade o role input).result = decision o role got ∧
      ∀ ext, (upgrade o role input).result = .ok ext → (upgrade o role input).input = later := by
  cases role with
  | client =>
      unfold upgrade clientUpgrade decision
      cases o.write with
      | done => simp [h]
      | failed => simp
      | unflushed => simp
  | server =>
      simp only [upgrade, serverUpgrade, decision, h]
      cases checkRequest o.digest (fromUtf8Lossy got) with
      | error err => simp
      | ok r => cases o.write <;> simp

lemma upgrade_of_error (o : Opening) (role : Role) {input : List ReadEvent} {err : UpgradeError}
    (h : (readUntilHeadersEnd input).1 = .error err) :
    ∃ err', (upgrade o role input).result = .error err' := by
  cases hread : readUntilHeadersEnd input with
  | mk r later =>
      rw [hread] at h
      dsimp only at h
      subst h
      cases role with
      | client =>
          unfold upgrade clientUpgrade
          cases o.write with
          | done => exact ⟨err, by simp [hread]⟩
          | failed => exact ⟨.io, rfl⟩
          | unflushed => exact ⟨.io, rfl⟩
      | server => exact ⟨err, by simp [upgrade, serverUpgrade, hread]⟩

/-- **An upgrade on a stream with a block in front**: it fails when a read ends within the block
beyond the limit, and otherwise decides by the block.  The bytes behind the block are left when a
read ends with it. -/
lemma upgrade_of_block (o : Opening) (role : Role) {block rest : List UInt8}
    (hblock : HeaderBlock block) {input : List ReadEvent} (herrors : readErrors input = 0)
    (hstream : inputBytes input = block ++ rest) :
    (TooLarge block 0 input ∧ ∃ err, (upgrade o role input).result = .error err) ∨
    (¬TooLarge block 0 input ∧ (upgrade o role input).result = decision o role block ∧
      ∀ ext, (upgrade o role input).result = .ok ext →
        readErrors (upgrade o role input).input = 0 ∧
        (inputBytes (upgrade o role input).input = rest ↔ ReadEnd 0 input block.length)) := by
  rcases readUntilHeadersEnd_of_block hblock herrors hstream with
    ⟨htoo, herr⟩ | ⟨htoo, got, later, hread, ⟨extra, rfl⟩, hgot, hlater, halign⟩
  · exact .inl ⟨htoo, upgrade_of_error o role herr⟩
  · obtain ⟨hresult, hinput⟩ := upgrade_of_ok o role hread
    refine .inr ⟨htoo, ?_, ?_⟩
    · rw [hresult, decision_block_append o role hblock]
    · intro ext hext
      rw [hinput ext hext, ← halign]
      refine ⟨hlater, ?_⟩
      rw [List.append_assoc, List.append_cancel_left_eq] at hgot
      rw [← hgot]
      simp [eq_comm]

/-- The frames of a script without errors depend on its bytes only. -/
lemma readFrames_eq_of_bytes (e : Env) (role : Role) (deflate : Bool) {a b : List ReadEvent}
    (ha : readErrors a = 0) (hb : readErrors b = 0) (hbytes : inputBytes a = inputBytes b) (k : ℕ) :
    Connection.readFrames e k (.new a role deflate) =
      Connection.readFrames e k (.new b role deflate) := by
  rw [Connection.readFrames_of_no_errors e k (Connection.alike_whole e rfl role deflate) rfl ha,
    Connection.readFrames_of_no_errors e k (Connection.alike_whole e rfl role deflate) rfl hb,
    hbytes]

/-- Two scripts of one stream, with `rest` behind the header block, come to the same: one decision,
the same frames, and no byte behind the block is lost. -/
structure SameSession (e : Env) (o : Opening) (role : Role) (rest : List UInt8)
    (a b : List ReadEvent) : Prop where
  decision : (upgrade o role a).result.toOption = (upgrade o role b).result.toOption
  frames : ∀ ext, (upgrade o role a).result = .ok ext → ∀ k,
    Connection.readFrames e k (.new (upgrade o role a).input role ext.permessageDeflate) =
      Connection.readFrames e k (.new (upgrade o role b).input role ext.permessageDeflate)
  kept : ∀ ext, (upgrade o role a).result = .ok ext →
    inputBytes (upgrade o role a).input = rest ∧ inputBytes (upgrade o role b).input = rest

lemma sameSession_of_refused {e : Env} {o : Opening} {role : Role} {rest : List UInt8}
    {a b : List ReadEvent} {errA errB : UpgradeError}
    (ha : (upgrade o role a).result = .error errA) (hb : (upgrade o role b).result = .error errB) :
    SameSession e o role rest a b := by
  refine ⟨by rw [ha, hb]; rfl, ?_, ?_⟩
  · intro ext hext
    rw [ha] at hext
    exact absurd hext (by simp)
  · intro ext hext
    rw [ha] at hext
    exact absurd hext (by simp)

lemma exists_error_of_not_ok {α : Type} {r : Except UpgradeError α} (h : ∀ x, r ≠ .ok x) :
    ∃ err, r = .error err := by
  cases r with
  | error err => exact ⟨err, rfl⟩
  | ok x => exact absurd rfl (h x)

/-- **The upgrade boundary.**  Two scripts of one stream come to the same exactly when the block is
refused in any case, or both have a read that ends within the block beyond the limit, or neither
has and in both a read ends with the block. -/
theorem upgrade_boundary_iff (e : Env) (o : Opening) (role : Role) {block rest : List UInt8}
    (hblock : HeaderBlock block) {a b : List ReadEvent} (ha : readErrors a = 0)
    (hb : readErrors b = 0) (hstreamA : inputBytes a = block ++ rest)
    (hstreamB : inputBytes b = block ++ rest) :
    SameSession e o role rest a b ↔
      (∀ ext, decision o role block ≠ .ok ext) ∨ (TooLarge block 0 a ∧ TooLarge block 0 b) ∨
        (¬TooLarge block 0 a ∧ ¬TooLarge block 0 b ∧
          ReadEnd 0 a block.length ∧ ReadEnd 0 b block.length) := by
  rcases upgrade_of_block o role hblock ha hstreamA with
      ⟨hlargeA, errA, hresA⟩ | ⟨hfitsA, hresA, hrestA⟩ <;>
    rcases upgrade_of_block o role hblock hb hstreamB with
      ⟨hlargeB, errB, hresB⟩ | ⟨hfitsB, hresB, hrestB⟩
  · exact iff_of_true (sameSession_of_refused hresA hresB) (.inr (.inl ⟨hlargeA, hlargeB⟩))
  · -- only `a` is too large, so the decisions differ when `b` accepts
    constructor
    · intro h
      refine .inl fun ext hext => ?_
      have hsame := h.decision
      rw [hresA, hresB, hext] at hsame
      simp [Except.toOption] at hsame
    · rintro (hno | ⟨-, hlargeB⟩ | ⟨hfitsA, -⟩)
      · obtain ⟨err, herr⟩ := exists_error_of_not_ok hno
        exact sameSession_of_refused hresA (hresB.trans herr)
      · exact absurd hlargeB hfitsB
      · exact absurd hlargeA hfitsA
  · constructor
    · intro h
      refine .inl fun ext hext => ?_
      have hsame := h.decision
      rw [hresA, hresB, hext] at hsame
      simp [Except.toOption] at hsame
    · rintro (hno | ⟨hlargeA, -⟩ | ⟨-, hfitsB, -⟩)
      · obtain ⟨err, herr⟩ := exists_error_of_not_ok hno
        exact sameSession_of_refused (hresA.trans herr) hresB
      · exact absurd hlargeA hfitsA
      · exact absurd hlargeB hfitsB
  · by_cases hno : ∀ ext, decision o role block ≠ .ok ext
    · obtain ⟨err, herr⟩ := exists_error_of_not_ok hno
      exact iff_of_true (sameSession_of_refused (hresA.trans herr) (hresB.trans herr)) (.inl hno)
    · -- both accept; what is left of the stream is what follows the block when a read ends there
      simp only [not_forall, not_not] at hno
      obtain ⟨ext, hext⟩ := hno
      obtain ⟨herrA, hkeptA⟩ := hrestA ext (hresA.trans hext)
      obtain ⟨herrB, hkeptB⟩ := hrestB ext (hresB.trans hext)
      constructor
      · intro h
        obtain ⟨hA, hB⟩ := h.kept ext (hresA.trans hext)
        exact .inr (.inr ⟨hfitsA, hfitsB, hkeptA.mp hA, hkeptB.mp hB⟩)
      · rintro (hno | ⟨hlargeA, -⟩ | ⟨-, -, hendA, hendB⟩)
        · exact absurd hext (hno ext)
        · exact absurd hlargeA hfitsA
        · have hA := hkeptA.mpr hendA
          have hB := hkeptB.mpr hendB
          refine ⟨by rw [hresA, hresB], ?_, fun _ _ => ⟨hA, hB⟩⟩
          intro ext' _ k
          exact readFrames_eq_of_bytes e role _ herrA herrB (hA.trans hB.symm) k

/-- A request for the sample key. -/
def sampleRequest : List UInt8 :=
  buildClientRequest (strBytes "localhost") [] (strBytes "/") sampleKey none

/-- A frame of a client: the text `A`. -/
def sampleFrame : List UInt8 := [0x81, 0x81, 0, 0, 0, 0, 0x41]

/-- A server's upgrade with the sample digest. -/
def sampleOpening : Opening where
  digest := sampleDigest
  key := []
  host := []
  port := []
  path := []
  requestDeflate := false
  write := .done

lemma sampleRequest_headerBlock : HeaderBlock sampleRequest := by
  have hlocal : OneLine (strBytes "localhost") := by unfold OneLine; decide
  have hnone : OneLine [] := by unfold OneLine; decide
  have hplain := requestFields_plain false hlocal hnone bareText_sampleKey.oneLine
  unfold sampleRequest
  rw [buildClientRequest_eq]
  exact endsFirst_render (by decide) (by decide) fun f hf => (hplain f hf).2

lemma sampleRequest_fits :
    sampleRequest ++ sampleFrame ≠ [] ∧ (sampleRequest ++ sampleFrame).length ≤ readChunk ∧
      sampleRequest ≠ [] ∧ sampleRequest.length ≤ readChunk ∧ sampleFrame ≠ [] ∧
      sampleFrame.length ≤ readChunk := by
  decide +kernel

/-- The request and the frame in one read. -/
def oneRead : List ReadEvent :=
  [.data ⟨sampleRequest ++ sampleFrame, sampleRequest_fits.1, sampleRequest_fits.2.1⟩]

/-- The request and the frame in two reads. -/
def twoReads : List ReadEvent :=
  [.data ⟨sampleRequest, sampleRequest_fits.2.2.1, sampleRequest_fits.2.2.2.1⟩,
    .data ⟨sampleFrame, sampleRequest_fits.2.2.2.2.1, sampleRequest_fits.2.2.2.2.2⟩]

/-- A server accepts the request in two reads and in one.  In the former it then reads the frame,
in the latter the stream ends for it. -/
theorem upgrade_loses_frame :
    HeaderBlock sampleRequest ∧ inputBytes twoReads = sampleRequest ++ sampleFrame ∧
      inputBytes oneRead = sampleRequest ++ sampleFrame ∧
      readErrors twoReads = 0 ∧ readErrors oneRead = 0 ∧
      Connection.readFrames Connection.plainEnv 1
          (.new (upgrade sampleOpening .server twoReads).input .server false) =
        [.ok (some ⟨⟨true, false, false, false, .text, true, 1, Key.zero⟩, [0x41]⟩)] ∧
      Connection.readFrames Connection.plainEnv 1
          (.new (upgrade sampleOpening .server oneRead).input .server false) = [.ok none] ∧
      ¬SameSession Connection.plainEnv sampleOpening .server sampleFrame twoReads oneRead := by
  have haccepts : (upgrade sampleOpening .server twoReads).result = .ok ⟨false⟩ := by
    decide +kernel
  have htwo : Connection.readFrames Connection.plainEnv 1
      (.new (upgrade sampleOpening .server twoReads).input .server false) =
        [.ok (some ⟨⟨true, false, false, false, .text, true, 1, Key.zero⟩, [0x41]⟩)] := by
    decide +kernel
  have hone : Connection.readFrames Connection.plainEnv 1
      (.new (upgrade sampleOpening .server oneRead).input .server false) = [.ok none] := by
    decide +kernel
  refine ⟨sampleRequest_headerBlock, by simp [twoReads, inputBytes], by simp [oneRead, inputBytes],
    rfl, rfl, htwo, hone, ?_⟩
  intro h
  have hsame := h.frames _ haccepts 1
  rw [htwo, hone] at hsame
  simp at hsame

/-- The request and the halves of the frame in three reads. -/
def threeReads : List ReadEvent :=
  [.data ⟨sampleRequest, sampleRequest_fits.2.2.1, sampleRequest_fits.2.2.2.1⟩,
    .data ⟨[0x81, 0x81], by decide, by decide⟩, .data ⟨[0, 0, 0, 0, 0x41], by decide, by decide⟩]

/-- With a read that ends with the request, nothing is lost. -/
theorem upgrade_boundary_sample :
    SameSession Connection.plainEnv sampleOpening .server sampleFrame twoReads threeReads := by
  have hshort : sampleRequest.length ≤ headerLimit := sampleRequest_fits.2.2.2.1
  have hsmall : ∀ input, ¬TooLarge sampleRequest 0 input := fun _ => not_tooLarge hshort
  have hend : ∀ chunk : Chunk, chunk.bytes = sampleRequest → ∀ input,
      ReadEnd 0 (.data chunk :: input) sampleRequest.length := by
    intro chunk hchunk input
    refine ⟨1, ?_⟩
    have hsizes : chunkSizes sampleRequest.length = [sampleRequest.length] :=
      chunkSizes_of_le (List.length_pos_of_ne_nil sampleRequest_fits.2.2.1) (by decide +kernel)
    simp [readSizes, hchunk, hsizes]
  exact (upgrade_boundary_iff Connection.plainEnv sampleOpening .server sampleRequest_headerBlock
    rfl rfl (by simp [twoReads, inputBytes]) (by simp [threeReads, inputBytes, sampleFrame])).mpr
      (.inr (.inr ⟨hsmall _, hsmall _, hend _ rfl _, hend _ rfl _⟩))

end Wscpp.Rs
