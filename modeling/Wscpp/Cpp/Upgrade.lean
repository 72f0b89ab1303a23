import Wscpp.Handshake.Messages

/-!
# The wscpp upgrade

The two functions `perform_handshake` of `client.cpp` and `server.cpp`, with `read_until` of the
sockets below them.  The bytes that the peer sends are a list; when it is used up the next read
fails.  `linux_socket::read_until` reads byte after byte until the last ones are the delimiter, so
how the bytes arrive does not matter.  `asio::read_until` reads what there is until the delimiter
occurs; what it takes from behind the delimiter stays in the buffer and is parsed with the rest.
The buffer is local to `perform_handshake`, so these bytes never reach the reader: frames sent right
behind the upgrade are there after it with `linux_socket`, and with `asio_socket` when a read ended
with the block (`performHandshake_boundary_iff`).

The client looks for `101` in the status line and at nothing else of the response, but for the
extension (`Client.performHandshake_ok_iff`).  wscpp is built with
`WSCPP_ENABLE_DEFLATE`.
-/

namespace Wscpp.Cpp

open Lines Utf8

/-! ## Reading the block -/

/-- The sockets; with asio, how many bytes behind the delimiter are read with it. -/
inductive Transport
  | linux
  | asio (beyond : ℕ)
  deriving DecidableEq, Repr

/-- `read_until(buf, "\r\n\r\n")`: the bytes in the buffer and those still to come. -/
def readUntil (t : Transport) (stream : List UInt8) : Option (List UInt8 × List UInt8) :=
  match takeUntil headersEnd [] stream with
  | none => none
  | some (block, rest) =>
      match t with
      | .linux => some (block, rest)
      | .asio beyond => some (block ++ rest.take beyond, rest.drop beyond)

/-- What keeps an upgrade from succeeding: an error of the socket, the client's error code, or what
the server reports. -/
inductive HandshakeError
  | socket
  | handshakeFailed
  | refused (text : String)
  deriving DecidableEq, Repr

/-- What `perform_handshake` comes to, with the value of `permessage_deflate` when it succeeds, the
bytes it has written, and those still to come. -/
structure Handshake where
  result : Except HandshakeError Bool
  written : List UInt8
  input : List UInt8
  deriving DecidableEq

/-! ## The client -/

/-- The settings of a client and what it does not choose: the key that `generate_key` gives, the
transport and whether its one write succeeds. -/
structure Opening where
  key : List UInt8
  host : List UInt8
  port : List UInt8
  path : List UInt8
  requestDeflate : Bool
  transport : Transport
  write : Bool

/-- The request of a client. -/
def Opening.request (o : Opening) : List UInt8 :=
  buildClientRequest o.host o.port o.path o.key (if o.requestDeflate then offer else [])

/-- What the client does with a response. -/
def checkResponse (requestDeflate : Bool) (response : List UInt8) : Except HandshakeError Bool :=
  match parseHttpHeaders response with
  | none => .error .handshakeFailed
  | some (statusLine, headers) =>
      if !occursIn (strBytes "101") statusLine then .error .handshakeFailed
      else .ok (requestDeflate && offersDeflate headers)

/-- `client::impl::perform_handshake`. -/
def Client.performHandshake (o : Opening) (stream : List UInt8) : Handshake :=
  if !o.write then ⟨.error .socket, [], stream⟩
  else
    match readUntil o.transport stream with
    | none => ⟨.error .socket, o.request, []⟩
    | some (response, rest) => ⟨checkResponse o.requestDeflate response, o.request, rest⟩

/-! ## The server -/

/-- What the server does with a request: the response and the value of `permessage_deflate`. -/
def checkRequest (d : Digest) (raw : List UInt8) :
    Except HandshakeError (List UInt8 × Bool) :=
  match parseHttpHeaders raw with
  | none => .error (.refused "Invalid HTTP request")
  | some (_, headers) =>
      if !validateClientRequest headers then .error (.refused "Invalid WebSocket handshake")
      else
        let accept := computeAccept d ((headers.find (strBytes "sec-websocket-key")).getD [])
        let deflate := offersDeflate headers
        .ok (buildServerResponse accept (if deflate then offer else []), deflate)

/-- `server::impl::perform_handshake`. -/
def Server.performHandshake (d : Digest) (t : Transport) (write : Bool) (stream : List UInt8) :
    Handshake :=
  match readUntil t stream with
  | none => ⟨.error .socket, [], []⟩
  | some (raw, rest) =>
      match checkRequest d raw with
      | .error err => ⟨.error err, [], rest⟩
      | .ok (response, deflate) =>
          if write then ⟨.ok deflate, response, rest⟩ else ⟨.error .socket, [], rest⟩

/-! ## What is read of a stream with a block in front -/

lemma headersEnd_ne_nil : headersEnd ≠ [] := by decide

lemma readUntil_of_block (t : Transport) {block : List UInt8} (h : EndsFirst headersEnd block)
    (rest : List UInt8) :
    ∃ extra later, readUntil t (block ++ rest) = some (block ++ extra, later) ∧
      extra ++ later = rest := by
  have htake := takeUntil_of_endsFirst headersEnd_ne_nil h rest
  cases t with
  | linux => exact ⟨[], rest, by simp [readUntil, htake], rfl⟩
  | asio beyond =>
      exact ⟨rest.take beyond, rest.drop beyond, by simp [readUntil, htake],
        List.take_append_drop ..⟩

lemma exists_block_of_readUntil {t : Transport} {stream got later : List UInt8}
    (h : readUntil t stream = some (got, later)) :
    ∃ block rest, EndsFirst headersEnd block ∧ stream = block ++ rest := by
  unfold readUntil at h
  cases htake : takeUntil headersEnd [] stream with
  | none => simp [htake] at h
  | some r =>
      obtain ⟨hblock, heq⟩ := takeUntil_eq_some headersEnd_ne_nil htake
      exact ⟨r.1, r.2, hblock, heq⟩

/-! ## What the client looks at -/

/-- The first line, as the client takes it from a response. -/
def firstLine (s : List UInt8) : List UInt8 := dropCr ((getlines s).headD [])

/-- A text with a line feed in it has a first line, which does not depend on what follows. -/
lemma parseHttpHeaders_of_mem {s : List UInt8} (h : lf ∈ s) (t : List UInt8) :
    ∃ headers, parseHttpHeaders (s ++ t) = some (firstLine s, headers) := by
  obtain ⟨x, y, rfl, hx⟩ := List.eq_append_cons_of_mem h
  have hwhole : getlines (x ++ lf :: y ++ t) = x :: getlines (y ++ t) := by
    rw [List.append_assoc, List.cons_append, getlines_append hx]
  rw [parseHttpHeaders, hwhole, firstLine, getlines_append hx]
  exact ⟨_, rfl⟩

lemma lf_mem_of_endsFirst {block : List UInt8} (h : EndsFirst headersEnd block) : lf ∈ block :=
  h.1.subset (by decide)

lemma checkResponse_ok_iff {block : List UInt8} (h : EndsFirst headersEnd block)
    (requestDeflate : Bool) (extra : List UInt8) :
    (∃ deflate, checkResponse requestDeflate (block ++ extra) = .ok deflate) ↔
      occursIn (strBytes "101") (firstLine block) = true := by
  obtain ⟨headers, hparse⟩ := parseHttpHeaders_of_mem (lf_mem_of_endsFirst h) extra
  unfold checkResponse
  rw [hparse]
  cases hoccurs : occursIn (strBytes "101") (firstLine block) <;> simp [hoccurs]

/-- **When a client's upgrade succeeds**: its write does, the response has an empty line, and `101`
occurs in its first line. -/
theorem Client.performHandshake_ok_iff (o : Opening) (stream : List UInt8) :
    (∃ deflate, (Client.performHandshake o stream).result = .ok deflate) ↔
      o.write = true ∧ ∃ block rest, EndsFirst headersEnd block ∧ stream = block ++ rest ∧
        occursIn (strBytes "101") (firstLine block) = true := by
  unfold Client.performHandshake
  cases hwrite : o.write with
  | false => simp
  | true =>
      simp only [Bool.not_true, Bool.false_eq_true, if_false, true_and]
      constructor
      · rintro ⟨deflate, hok⟩
        cases hread : readUntil o.transport stream with
        | none => simp [hread] at hok
        | some r =>
            obtain ⟨block, rest, hblock, rfl⟩ := exists_block_of_readUntil hread
            obtain ⟨extra, later, hread', -⟩ := readUntil_of_block o.transport hblock rest
            rw [hread'] at hok
            exact ⟨block, rest, hblock, rfl,
              (checkResponse_ok_iff hblock o.requestDeflate extra).mp ⟨deflate, hok⟩⟩
      · rintro ⟨block, rest, hblock, rfl, hoccurs⟩
        obtain ⟨extra, later, hread, -⟩ := readUntil_of_block o.transport hblock rest
        rw [hread]
        exact (checkResponse_ok_iff hblock o.requestDeflate extra).mpr hoccurs

/-! ## In segments

What one read of the socket can give is a segment of the stream.  With asio these are taken whole,
so that they say how many bytes behind the delimiter are read with it. -/

/-- The two sockets. -/
inductive Socket
  | linux
  | asio
  deriving DecidableEq, Repr

/-- `read_until(buf, "\r\n\r\n")` of a socket: the bytes in the buffer and the segments still to
come. -/
def Socket.readUntil (s : Socket) (segs : List (List UInt8)) :
    Option (List UInt8 × List (List UInt8)) :=
  match s with
  | .linux => takeUntilIn headersEnd [] segs
  | .asio => takeSegments headersEnd [] segs

/-- What is there after an upgrade: the value of `permessage_deflate`, the text that
`parse_http_headers` was given, and the segments that the reader will see. -/
structure Upgraded where
  deflate : Bool
  text : List UInt8
  unread : List (List UInt8)
  deriving DecidableEq

/-- The two sides of an upgrade. -/
inductive Party
  | client (o : Opening)
  | server (d : Digest) (write : Bool)

/-- What a party does with the text it has read. -/
def Party.check : Party → List UInt8 → Except HandshakeError Bool
  | .client o, text => checkResponse o.requestDeflate text
  | .server d write, text =>
      match checkRequest d text with
      | .error err => .error err
      | .ok (_, deflate) => if write then .ok deflate else .error .socket

/-- Whether a party gets as far as reading. -/
def Party.reads : Party → Bool
  | .client o => o.write
  | .server _ _ => true

/-- `perform_handshake` of either side, on a socket that gives the stream in segments. -/
def Party.performHandshake (p : Party) (s : Socket) (segs : List (List UInt8)) :
    Except HandshakeError Upgraded :=
  if !p.reads then .error .socket
  else
    match s.readUntil segs with
    | none => .error .socket
    | some (text, left) => (p.check text).map fun deflate => ⟨deflate, text, left⟩

/-- The transport that reads a stream as the socket reads its segments. -/
def Socket.transport (s : Socket) (segs : List (List UInt8)) : Transport :=
  match s with
  | .linux => .linux
  | .asio =>
      match takeSegments headersEnd [] segs, takeUntil headersEnd [] segs.flatten with
      | some (got, _), some (block, _) => .asio (got.length - block.length)
      | _, _ => .asio 0

/-- **The segments behind the transports.**  A socket reads segments as its transport reads the
stream. -/
theorem Socket.readUntil_eq (s : Socket) (segs : List (List UInt8)) :
    (s.readUntil segs).map (fun r => (r.1, r.2.flatten)) =
      Cpp.readUntil (s.transport segs) segs.flatten := by
  cases s with
  | linux =>
      rw [Socket.readUntil, takeUntilIn_eq, Cpp.readUntil]
      cases takeUntil headersEnd [] segs.flatten <;> rfl
  | asio =>
      cases htake : takeUntil headersEnd [] segs.flatten with
      | none =>
          have hnone : takeSegments headersEnd [] segs = none := by
            cases hsegs : takeSegments headersEnd [] segs with
            | none => rfl
            | some r =>
                obtain ⟨block, rest, hblock, heq⟩ :=
                  exists_endsFirst_of_infix headersEnd_ne_nil (infix_of_takeSegments hsegs)
                rw [List.nil_append] at heq
                rw [heq, takeUntil_of_endsFirst headersEnd_ne_nil hblock] at htake
                exact absurd htake (by simp)
          simp [Socket.readUntil, hnone, Cpp.readUntil, htake]
      | some r =>
          obtain ⟨block, rest⟩ := r
          obtain ⟨hblock, heq⟩ := takeUntil_eq_some headersEnd_ne_nil htake
          obtain ⟨got, left, hsegs, hwhole, ⟨extra, rfl⟩, -⟩ := takeSegments_eq_block_iff hblock heq
          rw [List.append_assoc] at hwhole
          have hrest : extra ++ left.flatten = rest := List.append_cancel_left hwhole
          subst hrest
          simp [Socket.readUntil, Socket.transport, Cpp.readUntil, hsegs, htake]

/-- A client's upgrade on a socket is the one on the stream. -/
theorem Party.performHandshake_client (o : Opening) (s : Socket) (segs : List (List UInt8)) :
    ((Party.client o).performHandshake s segs).map Upgraded.deflate =
      (Client.performHandshake { o with transport := s.transport segs } segs.flatten).result := by
  have hread := s.readUntil_eq segs
  unfold Party.performHandshake Client.performHandshake
  cases hwrite : o.write with
  | false => simp [Party.reads, hwrite, Except.map]
  | true =>
      simp only [Party.reads, hwrite, Bool.not_true, Bool.false_eq_true, if_false]
      rw [← hread]
      cases s.readUntil segs with
      | none => rfl
      | some r =>
          simp only [Party.check, Option.map_some]
          cases checkResponse o.requestDeflate r.1 <;> rfl

/-- A server's upgrade on a socket is the one on the stream. -/
theorem Party.performHandshake_server (d : Digest) (write : Bool) (s : Socket)
    (segs : List (List UInt8)) :
    ((Party.server d write).performHandshake s segs).map Upgraded.deflate =
      (Server.performHandshake d (s.transport segs) write segs.flatten).result := by
  have hread := s.readUntil_eq segs
  unfold Party.performHandshake Server.performHandshake
  simp only [Party.reads, Bool.not_true, Bool.false_eq_true, if_false]
  rw [← hread]
  cases s.readUntil segs with
  | none => rfl
  | some r =>
      simp only [Party.check, Option.map_some]
      cases checkRequest d r.1 with
      | error err => rfl
      | ok a => cases write <;> rfl

/-! ## The boundary -/

/-- `std::getline` goes on behind a line feed. -/
lemma getlines_append_lf (x y : List UInt8) :
    getlines (x ++ lf :: y) = getlines (x ++ [lf]) ++ getlines y := by
  induction x with
  | nil => rfl
  | cons b x ih =>
      by_cases hb : b = lf
      · rw [List.cons_append, List.cons_append, getlines, getlines, if_pos hb, if_pos hb, ih]
        rfl
      · have hmem : lf ∈ x ++ [lf] := by simp
        obtain ⟨line, more, hline, hnone⟩ := List.eq_append_cons_of_mem hmem
        have hcons : getlines (x ++ [lf]) = line :: getlines more := by
          rw [hline, getlines_append hnone]
        rw [List.cons_append, List.cons_append, getlines, getlines, if_neg hb, if_neg hb, ih, hcons]
        rfl

/-- The bytes behind the block do not matter for the headers. -/
lemma parseHttpHeaders_block_append {block : List UInt8} (h : EndsFirst headersEnd block)
    (extra : List UInt8) : parseHttpHeaders (block ++ extra) = parseHttpHeaders block := by
  obtain ⟨front, rfl⟩ := h.1
  have hends : endsHeaders [cr] = true := rfl
  have hlines : ∀ t, getlines (front ++ headersEnd ++ t) =
      getlines (front ++ crlf) ++ [cr] :: getlines t := by
    intro t
    have hfirst := getlines_append_lf (front ++ [cr]) (cr :: lf :: t)
    have hsecond : getlines (cr :: lf :: t) = [cr] :: getlines t :=
      getlines_append (by decide : lf ∉ [cr]) t
    rw [hsecond] at hfirst
    simpa [headersEnd, crlf] using hfirst
  have hne : getlines (front ++ crlf) ≠ [] := by
    have hmem : lf ∈ front ++ crlf := by simp [crlf]
    obtain ⟨line, more, hline, hnone⟩ := List.eq_append_cons_of_mem hmem
    rw [hline, getlines_append hnone]
    simp
  obtain ⟨first, lines, hfront⟩ := List.exists_cons_of_ne_nil hne
  have hwhole := hlines extra
  have halone := hlines []
  rw [List.append_nil] at halone
  rw [hfront, List.cons_append] at hwhole halone
  rw [parseHttpHeaders, parseHttpHeaders, hwhole, halone]
  simp only [headerLines_of_ends hends]

/-- A party decides on the block, whatever was read with it. -/
lemma Party.check_block_append (p : Party) {block : List UInt8} (h : EndsFirst headersEnd block)
    (extra : List UInt8) : p.check (block ++ extra) = p.check block := by
  cases p with
  | client o => simp only [Party.check, checkResponse, parseHttpHeaders_block_append h]
  | server d write => simp only [Party.check, checkRequest, parseHttpHeaders_block_append h]

/-- What a socket has read when the block is in front: the block alone exactly with the sockets and
segments that stop there. -/
lemma Socket.readUntil_of_block (s : Socket) {block rest : List UInt8}
    (h : EndsFirst headersEnd block) {segs : List (List UInt8)}
    (hsegs : segs.flatten = block ++ rest) :
    ∃ extra left, s.readUntil segs = some (block ++ extra, left) ∧ extra ++ left.flatten = rest ∧
      (extra = [] ↔ s = .linux ∨ CutAt block segs) := by
  cases s with
  | linux =>
      have hread := takeUntilIn_eq headersEnd [] segs
      rw [hsegs, takeUntil_of_endsFirst headersEnd_ne_nil h, Option.map_eq_some_iff] at hread
      obtain ⟨⟨got, left⟩, htake, hgot⟩ := hread
      simp only [Prod.mk.injEq] at hgot
      obtain ⟨rfl, hleft⟩ := hgot
      exact ⟨[], left, by simpa [Socket.readUntil] using htake, hleft, by simp⟩
  | asio =>
      obtain ⟨got, left, htake, hwhole, ⟨extra, rfl⟩, hcut⟩ := takeSegments_eq_block_iff h hsegs
      rw [List.append_assoc] at hwhole
      refine ⟨extra, left, htake, List.append_cancel_left hwhole, ?_⟩
      rw [← hcut]
      simp

/-- An upgrade that succeeds on one socket succeeds on each, and they differ in what they have read
behind the block. -/
lemma Party.performHandshake_of_block {p : Party} {s : Socket} {block rest : List UInt8}
    (hblock : EndsFirst headersEnd block) {segs : List (List UInt8)}
    (hsegs : segs.flatten = block ++ rest) {u : Upgraded}
    (hu : p.performHandshake s segs = .ok u) (s' : Socket) :
    ∃ extra left, p.performHandshake s' segs = .ok ⟨u.deflate, block ++ extra, left⟩ ∧
      extra ++ left.flatten = rest ∧ (extra = [] ↔ s' = .linux ∨ CutAt block segs) := by
  obtain ⟨extra, left, hread, -⟩ := s.readUntil_of_block hblock hsegs
  obtain ⟨extra', left', hread', hrest', hextra'⟩ := s'.readUntil_of_block hblock hsegs
  refine ⟨extra', left', ?_, hrest', hextra'⟩
  unfold Party.performHandshake at hu ⊢
  rw [hread] at hu
  rw [hread']
  simp only [p.check_block_append hblock] at hu ⊢
  cases hreads : p.reads with
  | false => simp [hreads] at hu
  | true =>
      cases hcheck : p.check block with
      | error err => simp [hreads, hcheck, Except.map] at hu
      | ok deflate =>
          simp only [hreads, hcheck, Except.map, Bool.not_true, Bool.false_eq_true, if_false,
            Except.ok.injEq] at hu ⊢
          rw [← hu]

/-- **The boundary of an upgrade.**  When the header block of a stream is accepted, the text that is
parsed is the block and the reader sees exactly the bytes behind it if and only if the socket is
`linux_socket` or a read ended with the block; and the two sockets agree if and only if a read did.
-/
theorem performHandshake_boundary_iff (p : Party) (s : Socket) {block rest : List UInt8}
    (hblock : EndsFirst headersEnd block) {segs : List (List UInt8)}
    (hsegs : segs.flatten = block ++ rest) {u : Upgraded}
    (hu : p.performHandshake s segs = .ok u) :
    (u.text = block ∧ u.unread.flatten = rest ↔ s = .linux ∨ CutAt block segs) ∧
      ((∀ s', ∃ v, p.performHandshake s' segs = .ok v ∧
        v.text = u.text ∧ v.unread.flatten = u.unread.flatten) ↔ CutAt block segs) := by
  obtain ⟨extra, left, hs, hrest, hextra⟩ := Party.performHandshake_of_block hblock hsegs hu s
  rw [hu, Except.ok.injEq] at hs
  rw [hs]
  refine ⟨?_, ?_, ?_⟩
  · rw [← hextra]
    constructor
    · rintro ⟨htext, -⟩
      exact List.append_right_eq_self.mp htext
    · rintro rfl
      exact ⟨List.append_nil block, hrest⟩
  · intro hagree
    obtain ⟨extraL, leftL, hlinux, -, hextraL⟩ :=
      Party.performHandshake_of_block hblock hsegs hu .linux
    obtain ⟨extraA, leftA, hasio, -, hextraA⟩ :=
      Party.performHandshake_of_block hblock hsegs hu .asio
    obtain ⟨v, hv, htext, -⟩ := hagree .linux
    obtain ⟨w, hw, htext', -⟩ := hagree .asio
    rw [hlinux, Except.ok.injEq] at hv
    rw [hasio, Except.ok.injEq] at hw
    rw [← hv] at htext
    rw [← hw, ← htext] at htext'
    -- `linux_socket` takes nothing beyond the block, so neither does asio
    have hnil : extraL = [] := hextraL.mpr (.inl rfl)
    have hsame : extraA = extraL := List.append_cancel_left htext'
    rcases hextraA.mp (hsame.trans hnil) with habs | hcut
    · cases habs
    · exact hcut
  · intro hcut s'
    obtain ⟨extra', left', hs', hrest', hextra'⟩ :=
      Party.performHandshake_of_block hblock hsegs hu s'
    -- with a read that ends with the block, no socket takes more
    have hnil : extra = [] := hextra.mpr (.inr hcut)
    have hnil' : extra' = [] := hextra'.mpr (.inr hcut)
    refine ⟨_, hs', by rw [hnil, hnil'], ?_⟩
    rw [hnil, List.nil_append] at hrest
    rw [hnil', List.nil_append] at hrest'
    rw [hrest, hrest']

/-- A response that a client accepts. -/
def switching : List UInt8 := strBytes "HTTP/1.1 101 Switching Protocols" ++ headersEnd

/-- A client without extensions. -/
def plainOpening : Opening where
  key := strBytes "dGhlIHNhbXBsZSBub25jZQ=="
  host := strBytes "localhost"
  port := strBytes "8080"
  path := strBytes "/"
  requestDeflate := false
  transport := .linux
  write := true

/-- An unmasked text frame that says hi. -/
def hiFrame : List UInt8 := [0x81, 0x02, 0x68, 0x69]

lemma switching_endsFirst : EndsFirst headersEnd switching := by
  have htake : takeUntil headersEnd [] switching = some (switching, []) := by decide +kernel
  exact (takeUntil_eq_some headersEnd_ne_nil htake).1

/-- A response and a frame in two segments: the frame is there on either socket. -/
theorem boundary_of_two_segments :
    (Party.client plainOpening).performHandshake .asio [switching, hiFrame] =
        .ok ⟨false, switching, [hiFrame]⟩ ∧
      (switching = switching ∧ [hiFrame].flatten = hiFrame ↔
        Socket.asio = .linux ∨ CutAt switching [switching, hiFrame]) := by
  have hok : (Party.client plainOpening).performHandshake .asio [switching, hiFrame] =
      .ok ⟨false, switching, [hiFrame]⟩ := by decide +kernel
  exact ⟨hok, (performHandshake_boundary_iff _ _ switching_endsFirst (by simp) hok).1⟩

/-- **Lost behind the upgrade.**  The same in one segment: with `asio_socket` the frame is in the
text that is parsed, and nothing is left for the reader. -/
theorem asio_loses_pipelined_frame :
    EndsFirst headersEnd switching ∧ [switching ++ hiFrame].flatten = switching ++ hiFrame ∧
      (Party.client plainOpening).performHandshake .linux [switching ++ hiFrame] =
        .ok ⟨false, switching, [hiFrame]⟩ ∧
      (Party.client plainOpening).performHandshake .asio [switching ++ hiFrame] =
        .ok ⟨false, switching ++ hiFrame, []⟩ ∧
      switching ++ hiFrame ≠ switching ∧ ([] : List (List UInt8)).flatten ≠ hiFrame := by
  refine ⟨switching_endsFirst, by simp, by decide +kernel, by decide +kernel, ?_, ?_⟩
  · simp [hiFrame]
  · simp [hiFrame]

end Wscpp.Cpp
