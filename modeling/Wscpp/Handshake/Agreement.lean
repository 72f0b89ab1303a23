import Wscpp.Cpp.Upgrade
import Wscpp.Rs.Upgrade

/-!
# The opening handshake between two ends

A client and a server, each of either implementation, with the upgrade functions of
`Wscpp.Cpp.Upgrade` and `Wscpp.Rs.Upgrade`.  The requests of both are one rendered block, and so
are the responses; each server reads the client's key and offer from it and each client the accept
key and the grant, whatever way the bytes arrive in and whatever follows them
(`handshake_agreement`).

The other direction, what a client that has succeeded knows of the response, is `SoundResponse`: a
client of wscpp knows nothing of it beyond a `101` in the first line, and one of ws-rs all of it
but where the status code ends (`client_soundness_iff`).
-/

namespace Wscpp

open Lines Utf8

/-! ## The two implementations -/

/-- Which implementation an end has. -/
inductive Impl
  | cpp
  | rs
  deriving DecidableEq, Repr

namespace Impl

/-- The request that a client writes. -/
def request (client : Impl) (host port path key : List UInt8) (requestDeflate : Bool) :
    List UInt8 :=
  match client with
  | .cpp => Cpp.buildClientRequest host port path key (if requestDeflate then offer else [])
  | .rs => Rs.buildClientRequest host port path key (if requestDeflate then some offer else none)

/-- The response that a server writes. -/
def response (server : Impl) (accept : List UInt8) (deflate : Bool) : List UInt8 :=
  match server with
  | .cpp => Cpp.buildServerResponse accept (if deflate then offer else [])
  | .rs => Rs.buildServerResponse accept (if deflate then some offer else none)

lemma request_eq (client : Impl) (host port path key : List UInt8) (requestDeflate : Bool) :
    client.request host port path key requestDeflate =
      renderHeaders (requestLine path)
        (requestFields host port key (extensionOf requestDeflate)) := by
  cases client with
  | cpp =>
      have heq := Cpp.buildClientRequest_eq host port path key (extensionOf_ne requestDeflate)
      cases requestDeflate <;> exact heq
  | rs => exact Rs.buildClientRequest_eq host port path key (extensionOf requestDeflate)

lemma response_eq (server : Impl) (accept : List UInt8) (deflate : Bool) :
    server.response accept deflate =
      renderHeaders statusLine (responseFields accept (extensionOf deflate)) := by
  cases server with
  | cpp =>
      have heq := Cpp.buildServerResponse_eq accept (extensionOf_ne deflate)
      cases deflate <;> exact heq
  | rs => exact Rs.buildServerResponse_eq accept (extensionOf deflate)

/-- A server that is sent a request, in whatever way it arrives and whatever follows it, finds the
key in it, writes the response and ends with the flag. -/
def ServerAccepts (server : Impl) (d : Digest) (request key response : List UInt8)
    (deflate : Bool) : Prop :=
  match server with
  | .cpp => ∀ (t : Cpp.Transport) (rest : List UInt8), ∃ got later line headers,
      Cpp.readUntil t (request ++ rest) = some (got, later) ∧
      Cpp.parseHttpHeaders got = some (line, headers) ∧ validateClientRequest headers = true ∧
      headers.find (strBytes "sec-websocket-key") = some key ∧
      Cpp.Server.performHandshake d t true (request ++ rest) = ⟨.ok deflate, response, later⟩
  | .rs => ∀ (o : Rs.Opening) (rest : List UInt8) (input : List Rs.ReadEvent),
      o.digest = d → o.write = .done → Rs.readErrors input = 0 →
      Rs.inputBytes input = request ++ rest → ∃ got later line headers,
      Rs.readUntilHeadersEnd input = (.ok got, later) ∧
      Rs.parseHttpHeaders (fromUtf8Lossy got) = .ok (line, headers) ∧
      validateClientRequest headers = true ∧
      headers.find (strBytes "sec-websocket-key") = some key ∧
      Rs.serverUpgrade o input = ⟨.ok ⟨deflate⟩, response, later⟩

/-- A client with the given arguments and key, when its write succeeds, writes the request and,
sent the response in whatever way and whatever follows it, ends with the flag. -/
def ClientAccepts (client : Impl) (d : Digest) (host port path key : List UInt8)
    (requestDeflate : Bool) (response : List UInt8) (deflate : Bool) : Prop :=
  match client with
  | .cpp => ∀ (t : Cpp.Transport) (rest : List UInt8), ∃ later,
      Cpp.Client.performHandshake ⟨key, host, port, path, requestDeflate, t, true⟩
          (response ++ rest) =
        ⟨.ok deflate, client.request host port path key requestDeflate, later⟩
  | .rs => ∀ (rest : List UInt8) (input : List Rs.ReadEvent), Rs.readErrors input = 0 →
      Rs.inputBytes input = response ++ rest → ∃ later,
      Rs.clientUpgrade ⟨d, key, host, port, path, requestDeflate, .done⟩ input =
        ⟨.ok ⟨deflate⟩, client.request host port path key requestDeflate, later⟩

end Impl

/-! ## The server's side -/

section Server

variable {host port path key : List UInt8}

lemma lf_notMem_requestLine (hpath : OneLine path) : lf ∉ requestLine path := by
  have hfront : lf ∉ strBytes "GET " := by decide
  have hback : lf ∉ strBytes " HTTP/1.1" := by decide
  simp [requestLine, hfront, hback, hpath.2]

lemma requestLine_ne_nil : requestLine path ≠ [] := by
  have hfront : strBytes "GET " ≠ [] := by decide
  simp [requestLine, hfront]

lemma endsFirst_request (hhost : OneLine host) (hport : OneLine port) (hpath : OneLine path)
    (hkey : OneLine key) (deflate : Bool) :
    EndsFirst headersEnd
      (renderHeaders (requestLine path) (requestFields host port key (extensionOf deflate))) :=
  Rs.endsFirst_render (lf_notMem_requestLine hpath) requestLine_ne_nil
    fun f hf => (requestFields_plain deflate hhost hport hkey f hf).2

lemma serverAccepts_cpp (d : Digest) (hhost : OneLine host) (hport : OneLine port)
    (hpath : OneLine path) (hkey : BareText key) (deflate : Bool) :
    Impl.cpp.ServerAccepts d
      (renderHeaders (requestLine path) (requestFields host port key (extensionOf deflate))) key
      (Impl.cpp.response (computeAccept d key) deflate) deflate := by
  intro t rest
  have hplain := requestFields_plain deflate hhost hport hkey.oneLine
  have hblock := endsFirst_request hhost hport hpath hkey.oneLine deflate
  obtain ⟨extra, later, hread, -⟩ := Cpp.readUntil_of_block t hblock rest
  have hparse := Cpp.parseHttpHeaders_render (lf_notMem_requestLine hpath)
    (fun f hf => (hplain f hf).2) extra
  obtain ⟨hvalid, hfound, hoffers⟩ := request_headers deflate Cpp.keepsBare hkey rfl
  refine ⟨_, later, _, _, hread, hparse, hvalid, hfound, ?_⟩
  simp [Cpp.Server.performHandshake, hread, Cpp.checkRequest, hparse, hvalid, hfound, hoffers,
    Impl.response]

lemma serverAccepts_rs (d : Digest) (hhost : OneLine host) (hport : OneLine port)
    (hpath : OneLine path) (hkey : BareText key) (deflate : Bool)
    (hsize : (renderHeaders (requestLine path)
      (requestFields host port key (extensionOf deflate))).length ≤ 64 * 1024) :
    Impl.rs.ServerAccepts d
      (renderHeaders (requestLine path) (requestFields host port key (extensionOf deflate))) key
      (Impl.rs.response (computeAccept d key) deflate) deflate := by
  intro o rest input hdigest hwrite herrors hstream
  have hplain := requestFields_plain deflate hhost hport hkey.oneLine
  have hnames := asciiNames_of_names fun f hf => (hplain f hf).1
  have hblock := endsFirst_request hhost hport hpath hkey.oneLine deflate
  rcases Rs.readUntilHeadersEnd_of_block hblock herrors hstream with
    ⟨htoo, -⟩ | ⟨-, got, later, hread, ⟨extra, rfl⟩, -⟩
  · exact absurd htoo (Rs.not_tooLarge hsize)
  · have hparse := Rs.parseHttpHeaders_lossy_render (lf_notMem_requestLine hpath)
      (fun f hf => (hplain f hf).2) hnames extra
    obtain ⟨hvalid, hfound, hoffers⟩ := request_headers deflate Rs.keepsBare hkey rfl
    refine ⟨_, later, _, _, hread, hparse, hvalid, hfound, ?_⟩
    simp [Rs.serverUpgrade, hread, Rs.checkRequest, Rs.parseClientUpgrade, hparse, hvalid, hfound,
      hoffers, hdigest, hwrite, Impl.response]

end Server

/-! ## The client's side -/

section Client

variable {accept : List UInt8}

lemma lf_notMem_statusLine : lf ∉ statusLine := by decide

lemma endsFirst_response (haccept : OneLine accept) (deflate : Bool) :
    EndsFirst headersEnd
      (renderHeaders statusLine (responseFields accept (extensionOf deflate))) :=
  Rs.endsFirst_render lf_notMem_statusLine (by decide)
    fun f hf => (responseFields_plain deflate haccept f hf).2

lemma clientAccepts_cpp (d : Digest) (host port path key : List UInt8) (haccept : BareText accept)
    (deflate : Bool) :
    Impl.cpp.ClientAccepts d host port path key deflate
      (renderHeaders statusLine (responseFields accept (extensionOf deflate))) deflate := by
  intro t rest
  have hplain := responseFields_plain deflate haccept.oneLine
  have hblock := endsFirst_response haccept.oneLine deflate
  obtain ⟨extra, later, hread, -⟩ := Cpp.readUntil_of_block t hblock rest
  have hparse := Cpp.parseHttpHeaders_render lf_notMem_statusLine
    (fun f hf => (hplain f hf).2) extra
  obtain ⟨-, hoffers⟩ := response_headers deflate Cpp.keepsBare haccept rfl
  have hstatus : occursIn (strBytes "101") statusLine = true := by decide
  refine ⟨later, ?_⟩
  simp [Cpp.Client.performHandshake, hread, Cpp.checkResponse, hparse, hstatus, hoffers,
    Cpp.Opening.request, Impl.request]

/-- The response that is decoded begins with its status line. -/
lemma isPrefixOf_response (accept : List UInt8) (deflate : Bool) (extra : List UInt8) :
    (strBytes "HTTP/1.1 101").isPrefixOf (fromUtf8Lossy
      (renderHeaders statusLine (responseFields accept (extensionOf deflate)) ++ extra)) =
        true := by
  have hascii : ∀ c ∈ statusLine, c.toNat ≤ 0x7F := by decide +kernel
  have hfront : strBytes "HTTP/1.1 101" <+: statusLine := by decide
  have hdecode := fromUtf8Lossy_ascii_append hascii
    (crlf ++ ((responseFields accept (extensionOf deflate)).flatMap fun f =>
      renderField f ++ crlf) ++ crlf ++ extra)
  have heq : renderHeaders statusLine (responseFields accept (extensionOf deflate)) ++ extra =
      statusLine ++ (crlf ++ ((responseFields accept (extensionOf deflate)).flatMap fun f =>
        renderField f ++ crlf) ++ crlf ++ extra) := by
    simp [renderHeaders]
  rw [heq, hdecode, List.isPrefixOf_iff_prefix]
  exact hfront.trans (List.prefix_append _ _)

lemma clientAccepts_rs (d : Digest) (host port path : List UInt8) {key : List UInt8}
    (haccept : BareText (computeAccept d key)) (hlength : (computeAccept d key).length = 28)
    (deflate : Bool) :
    Impl.rs.ClientAccepts d host port path key deflate
      (renderHeaders statusLine (responseFields (computeAccept d key) (extensionOf deflate)))
      deflate := by
  intro rest input herrors hstream
  have hplain := responseFields_plain deflate haccept.oneLine
  have hnames := asciiNames_of_names fun f hf => (hplain f hf).1
  have hblock := endsFirst_response haccept.oneLine deflate
  rcases Rs.readUntilHeadersEnd_of_block hblock herrors hstream with
    ⟨htoo, -⟩ | ⟨-, got, later, hread, ⟨extra, rfl⟩, -⟩
  · exact absurd htoo (Rs.not_tooLarge (length_response_le deflate hlength))
  · have hparse := Rs.parseHttpHeaders_lossy_render lf_notMem_statusLine
      (fun f hf => (hplain f hf).2) hnames extra
    have hstarts := isPrefixOf_response (computeAccept d key) deflate extra
    obtain ⟨hfound, hoffers⟩ := response_headers deflate Rs.keepsBare haccept rfl
    refine ⟨later, ?_⟩
    simp [Rs.clientUpgrade, hread, Rs.checkResponse, Rs.parseServerResponse, hstarts, hparse,
      hfound, Rs.verifyServerAccept, hoffers, Rs.Opening.request, Impl.request]

end Client

/-! ## Agreement -/

/-- **The opening handshake agrees**, for every pairing: the server accepts the client's request and
finds the client's key in it, the client accepts the server's response to that key, and both end
with what the client asked for. -/
theorem handshake_agreement (client server : Impl) {d : Digest} (hd : d.Documented)
    {host port path : List UInt8} (hhost : OneLine host) (hport : OneLine port)
    (hpath : OneLine path) (nonce : List UInt8) (requestDeflate : Bool)
    (hsize : (client.request host port path (d.base64 nonce) requestDeflate).length ≤ 64 * 1024) :
    server.ServerAccepts d (client.request host port path (d.base64 nonce) requestDeflate)
        (d.base64 nonce)
        (server.response (computeAccept d (d.base64 nonce)) requestDeflate) requestDeflate ∧
      client.ClientAccepts d host port path (d.base64 nonce) requestDeflate
        (server.response (computeAccept d (d.base64 nonce)) requestDeflate) requestDeflate := by
  have hkey := hd.bare nonce
  have haccept : BareText (computeAccept d (d.base64 nonce)) := hd.bare _
  have hlength : (computeAccept d (d.base64 nonce)).length = 28 := hd.length _
  rw [Impl.request_eq] at hsize ⊢
  constructor
  · cases server with
    | cpp => exact serverAccepts_cpp d hhost hport hpath hkey requestDeflate
    | rs => exact serverAccepts_rs d hhost hport hpath hkey requestDeflate hsize
  · rw [Impl.response_eq]
    cases client with
    | cpp => exact clientAccepts_cpp d host port path _ haccept requestDeflate
    | rs => exact clientAccepts_rs d host port path haccept hlength requestDeflate

lemma oneLine_strBytes {text : String} (h : cr ∉ strBytes text ∧ lf ∉ strBytes text) :
    OneLine (strBytes text) := h

/-- A client of ws-rs and a server of wscpp, with a path that looks like header fields. -/
theorem handshake_agreement_sample :
    Impl.cpp.ServerAccepts sampleDigest
        (Impl.rs.request (strBytes "localhost") (strBytes "8080")
          (strBytes "/?upgrade: permessage-deflate") sampleKey true) sampleKey
        (Impl.cpp.response sampleAccept true) true ∧
      Impl.rs.ClientAccepts sampleDigest (strBytes "localhost") (strBytes "8080")
        (strBytes "/?upgrade: permessage-deflate") sampleKey true
        (Impl.cpp.response sampleAccept true) true :=
  handshake_agreement .rs .cpp sampleDigest_documented (oneLine_strBytes (by decide))
    (oneLine_strBytes (by decide)) (oneLine_strBytes (by decide)) (strBytes "the sample nonce") true
    (by decide +kernel)

/-! ## Soundness of a client's success -/

/-- The status line of HTTP/1.1 with the code 101. -/
def SwitchingLine (line : List UInt8) : Prop :=
  line = strBytes "HTTP/1.1 101" ∨ ∃ reason, line = strBytes "HTTP/1.1 101" ++ blank :: reason

/-- A response that switches protocols for the client with the given key: the header block, whose
lines end with CR LF, has that status line and the right accept key. -/
def SoundResponse (d : Digest) (key stream : List UInt8) : Prop :=
  ∃ block rest line headers, EndsFirst headersEnd block ∧ stream = block ++ rest ∧
    Rs.parseHttpHeaders (fromUtf8Lossy block) = .ok (line, headers) ∧ SwitchingLine line ∧
    headers.find (strBytes "sec-websocket-accept") = some (computeAccept d key)

/-- A ws-rs client with the given key, reading the stream in some way, refuses it for its accept
key. -/
def RefusesAccept (d : Digest) (key stream : List UInt8) : Prop :=
  ∃ (o : Rs.Opening) (input : List Rs.ReadEvent), o.digest = d ∧ o.key = key ∧
    Rs.readErrors input = 0 ∧ Rs.inputBytes input = stream ∧
    ((Rs.clientUpgrade o input).result = .error (.handshake "missing Sec-WebSocket-Accept") ∨
      (Rs.clientUpgrade o input).result = .error (.handshake "missing accept header") ∨
      (Rs.clientUpgrade o input).result = .error (.handshake "accept key mismatch"))

/-- The first line of a text begins with what the text begins with, up to a carriage return. -/
lemma starts_line_iff {raw line : List UInt8} {headers : Headers}
    (hparse : Rs.parseHttpHeaders raw = .ok (line, headers)) {text : List UInt8} (h : cr ∉ text) :
    text <+: raw ↔ text <+: line := by
  unfold Rs.parseHttpHeaders at hparse
  cases hsplit : splitPair cr lf raw with
  | nil => simp [hsplit] at hparse
  | cons first lines =>
      simp only [hsplit, Except.ok.injEq, Prod.mk.injEq] at hparse
      obtain ⟨rfl, -⟩ := hparse
      rcases eq_of_splitPair hsplit with rfl | ⟨y, rfl⟩
      · rfl
      · exact prefix_append_cons_iff h _ _

lemma SwitchingLine.starts {line : List UInt8} (h : SwitchingLine line) :
    strBytes "HTTP/1.1 101" <+: line := by
  rcases h with rfl | ⟨reason, rfl⟩
  · exact List.prefix_rfl
  · exact List.prefix_append _ _

lemma cr_notMem_status : cr ∉ strBytes "HTTP/1.1 101" := by decide

/-- What `client_upgrade` comes to on a stream with a block in front. -/
lemma clientUpgrade_of_block (o : Rs.Opening) {block rest : List UInt8}
    (hblock : EndsFirst headersEnd block) {input : List Rs.ReadEvent}
    (herrors : Rs.readErrors input = 0) (hstream : Rs.inputBytes input = block ++ rest) :
    (o.write ≠ .done ∧ (Rs.clientUpgrade o input).result = .error .io) ∨
    (Rs.TooLarge block 0 input ∧
      (Rs.clientUpgrade o input).result = .error (.handshake "message too large")) ∨
    (o.write = .done ∧ ¬Rs.TooLarge block 0 input ∧ (Rs.clientUpgrade o input).result =
      Rs.checkResponse o.digest o.key o.requestDeflate (fromUtf8Lossy block)) := by
  unfold Rs.clientUpgrade
  cases hwrite : o.write with
  | failed => exact .inl ⟨by simp, rfl⟩
  | unflushed => exact .inl ⟨by simp, rfl⟩
  | done =>
      right
      rcases Rs.readUntilHeadersEnd_of_block hblock herrors hstream with
        ⟨htoo, herr⟩ | ⟨htoo, got, later, hread, ⟨extra, rfl⟩, -⟩
      · left
        rcases hread : Rs.readUntilHeadersEnd input with ⟨r, later⟩
        rw [hread] at herr
        dsimp only at herr
        subst herr
        exact ⟨htoo, rfl⟩
      · right
        rw [hread]
        exact ⟨rfl, htoo, Rs.checkResponse_block_append hblock _ _ _ _⟩

lemma exists_block_of_clientUpgrade {o : Rs.Opening} {input : List Rs.ReadEvent}
    {ext : Rs.HandshakeExtensions} (h : (Rs.clientUpgrade o input).result = .ok ext) :
    ∃ block rest, EndsFirst headersEnd block ∧ Rs.inputBytes input = block ++ rest := by
  unfold Rs.clientUpgrade at h
  cases hwrite : o.write with
  | failed => simp [hwrite] at h
  | unflushed => simp [hwrite] at h
  | done =>
      rcases hread : Rs.readUntilHeadersEnd input with ⟨got, later⟩
      cases got with
      | error err => simp [hwrite, hread] at h
      | ok got => exact Rs.exists_block_of_ok hread

/-- A sound response is not refused for its accept key. -/
lemma SoundResponse.not_refusesAccept {d : Digest} {key stream : List UInt8}
    (h : SoundResponse d key stream) : ¬RefusesAccept d key stream := by
  obtain ⟨block, rest, line, headers, hblock, rfl, hparse, hline, hfound⟩ := h
  rintro ⟨o, input, rfl, rfl, herrors, hstream, hrefused⟩
  have hraw := (starts_line_iff hparse cr_notMem_status).mpr hline.starts
  obtain ⟨ext, hok⟩ := (Rs.checkResponse_ok_iff o.digest o.key o.requestDeflate _).mpr
    ⟨hraw, line, headers, hparse, hfound⟩
  rcases clientUpgrade_of_block o hblock herrors hstream with ⟨-, hres⟩ | ⟨-, hres⟩ | ⟨-, -, hres⟩
  · simp [hres] at hrefused
  · simp [hres] at hrefused
  · simp [hres, hok] at hrefused

/-- What soundness says about a given block. -/
lemma SoundResponse.of_block {d : Digest} {key stream block rest : List UInt8}
    (h : SoundResponse d key stream) (hblock : EndsFirst headersEnd block)
    (hstream : stream = block ++ rest) {line : List UInt8} {headers : Headers}
    (hparse : Rs.parseHttpHeaders (fromUtf8Lossy block) = .ok (line, headers)) :
    SwitchingLine line ∧
      headers.find (strBytes "sec-websocket-accept") = some (computeAccept d key) := by
  obtain ⟨block', rest', line', headers', hblock', hstream', hparse', hline, hfound⟩ := h
  obtain ⟨rfl, -⟩ := hblock.eq_of_append_eq hblock' (hstream.symm.trans hstream')
  rw [hparse] at hparse'
  simp only [Except.ok.injEq, Prod.mk.injEq] at hparse'
  obtain ⟨rfl, rfl⟩ := hparse'
  exact ⟨hline, hfound⟩

/-- The response of a server to the key is sound. -/
lemma soundResponse_response {d : Digest} (hd : d.Documented) (key : List UInt8) (deflate : Bool)
    (rest : List UInt8) :
    SoundResponse d key
      (renderHeaders statusLine (responseFields (computeAccept d key) (extensionOf deflate)) ++
        rest) := by
  have haccept : BareText (computeAccept d key) := hd.bare _
  have hplain := responseFields_plain deflate haccept.oneLine
  have hnames := asciiNames_of_names fun f hf => (hplain f hf).1
  have hparse := Rs.parseHttpHeaders_lossy_render lf_notMem_statusLine
    (fun f hf => (hplain f hf).2) hnames []
  rw [List.append_nil] at hparse
  refine ⟨_, rest, _, _, endsFirst_response haccept.oneLine deflate, rfl, hparse, ?_,
    (response_headers deflate Rs.keepsBare haccept rfl).1⟩
  exact .inr ⟨strBytes "Switching Protocols", by decide⟩

/-- What a wscpp client takes for a response: `101` occurs in the first line, but it is not a sound
one. -/
def Cpp.Unchecked (d : Digest) (o : Cpp.Opening) (stream : List UInt8) : Prop :=
  o.write = true ∧ (∃ block rest, EndsFirst headersEnd block ∧ stream = block ++ rest ∧
    occursIn (strBytes "101") (Cpp.firstLine block) = true) ∧ ¬SoundResponse d o.key stream

/-- What a ws-rs client takes for a response: the accept key is right, but the status line goes on
behind `HTTP/1.1 101` with something else than a space. -/
def Rs.Unchecked (o : Rs.Opening) (input : List Rs.ReadEvent) : Prop :=
  o.write = .done ∧ ∃ block rest line headers, EndsFirst headersEnd block ∧
    Rs.inputBytes input = block ++ rest ∧ ¬Rs.TooLarge block 0 input ∧
    Rs.parseHttpHeaders (fromUtf8Lossy block) = .ok (line, headers) ∧
    strBytes "HTTP/1.1 101" <+: line ∧ ¬SwitchingLine line ∧
    headers.find (strBytes "sec-websocket-accept") = some (computeAccept o.digest o.key)

/-- A wscpp client is sound on a response exactly when it is not an unchecked one. -/
lemma Cpp.client_sound_iff (d : Digest) (o : Cpp.Opening) (stream : List UInt8) :
    (∀ deflate, (Cpp.Client.performHandshake o stream).result = .ok deflate →
      SoundResponse d o.key stream ∧ ¬RefusesAccept d o.key stream) ↔
        ¬Cpp.Unchecked d o stream := by
  constructor
  · rintro h ⟨hwrite, hblock, hunsound⟩
    obtain ⟨deflate, hok⟩ := (Cpp.Client.performHandshake_ok_iff o stream).mpr ⟨hwrite, hblock⟩
    exact hunsound (h deflate hok).1
  · intro h deflate hok
    obtain ⟨hwrite, hblock⟩ := (Cpp.Client.performHandshake_ok_iff o stream).mp ⟨deflate, hok⟩
    have hsound : SoundResponse d o.key stream := by
      by_contra hunsound
      exact h ⟨hwrite, hblock, hunsound⟩
    exact ⟨hsound, hsound.not_refusesAccept⟩

/-- A ws-rs client is sound on a response exactly when it is not an unchecked one. -/
lemma Rs.client_sound_iff (o : Rs.Opening) {input : List Rs.ReadEvent}
    (herrors : Rs.readErrors input = 0) :
    (∀ ext, (Rs.clientUpgrade o input).result = .ok ext →
      SoundResponse o.digest o.key (Rs.inputBytes input)) ↔ ¬Rs.Unchecked o input := by
  constructor
  · rintro h ⟨hwrite, block, rest, line, headers, hblock, hstream, hfits, hparse, hstarts, hline,
      hfound⟩
    have hraw := (starts_line_iff hparse cr_notMem_status).mpr hstarts
    obtain ⟨ext, hok⟩ := (Rs.checkResponse_ok_iff o.digest o.key o.requestDeflate _).mpr
      ⟨hraw, line, headers, hparse, hfound⟩
    rcases clientUpgrade_of_block o hblock herrors hstream with
      ⟨hfails, -⟩ | ⟨htoo, -⟩ | ⟨-, -, hres⟩
    · exact hfails hwrite
    · exact hfits htoo
    · exact hline ((h ext (hres.trans hok)).of_block hblock hstream hparse).1
  · intro h ext hok
    obtain ⟨block, rest, hblock, hstream⟩ := exists_block_of_clientUpgrade hok
    rcases clientUpgrade_of_block o hblock herrors hstream with
      ⟨-, hres⟩ | ⟨-, hres⟩ | ⟨hwrite, hfits, hres⟩
    · simp [hres] at hok
    · simp [hres] at hok
    · obtain ⟨hraw, line, headers, hparse, hfound⟩ :=
        (Rs.checkResponse_ok_iff o.digest o.key o.requestDeflate _).mp ⟨ext, hres.symm.trans hok⟩
      have hstarts := (starts_line_iff hparse cr_notMem_status).mp hraw
      have hline : SwitchingLine line := by
        by_contra hline
        exact h ⟨hwrite, block, rest, line, headers, hblock, hstream, hfits, hparse, hstarts, hline,
          hfound⟩
      exact ⟨block, rest, line, headers, hblock, hstream, hparse, hline, hfound⟩

/-- **Soundness of a client's success**, in both implementations, for every key and every response:
exactly the responses it does not check are the exceptions. -/
theorem client_soundness_iff (d : Digest) (o : Cpp.Opening) (stream : List UInt8)
    (r : Rs.Opening) {input : List Rs.ReadEvent} (herrors : Rs.readErrors input = 0) :
    ((∀ deflate, (Cpp.Client.performHandshake o stream).result = .ok deflate →
      SoundResponse d o.key stream ∧ ¬RefusesAccept d o.key stream) ↔
        ¬Cpp.Unchecked d o stream) ∧
      ((∀ ext, (Rs.clientUpgrade r input).result = .ok ext →
        SoundResponse r.digest r.key (Rs.inputBytes input)) ↔ ¬Rs.Unchecked r input) :=
  ⟨Cpp.client_sound_iff d o stream, Rs.client_sound_iff r herrors⟩

lemma SoundResponse.not_unchecked {o : Rs.Opening} {input : List Rs.ReadEvent}
    (h : SoundResponse o.digest o.key (Rs.inputBytes input)) : ¬Rs.Unchecked o input := by
  rintro ⟨-, block, rest, line, headers, hblock, hstream, -, hparse, -, hline, -⟩
  exact hline (h.of_block hblock hstream hparse).1

/-- A wscpp client with the sample key. -/
def sampleClient : Cpp.Opening where
  key := sampleKey
  host := strBytes "localhost"
  port := strBytes "80"
  path := strBytes "/"
  requestDeflate := false
  transport := .linux
  write := true

/-- A ws-rs client with the sample key. -/
def sampleRsClient : Rs.Opening where
  digest := sampleDigest
  key := sampleKey
  host := strBytes "localhost"
  port := strBytes "80"
  path := strBytes "/"
  requestDeflate := false
  write := .done

/-- A response without an accept key. -/
def unboundResponse : List UInt8 := renderHeaders statusLine []

/-- A response with the accept key for the sample key and a status code of four digits. -/
def longCodeResponse : List UInt8 :=
  renderHeaders (strBytes "HTTP/1.1 1010 Switching Protocols")
    [(strBytes "Sec-WebSocket-Accept", sampleAccept)]

lemma longCodeResponse_fits :
    longCodeResponse ≠ [] ∧ longCodeResponse.length ≤ Rs.readChunk := by decide +kernel

/-- A wscpp client opens a session on a response without an accept key, which a ws-rs client
refuses for that, and a ws-rs client on one with another status code. -/
theorem client_unsound :
    ¬(∀ deflate, (Cpp.Client.performHandshake sampleClient unboundResponse).result = .ok deflate →
        SoundResponse sampleDigest sampleKey unboundResponse ∧
          ¬RefusesAccept sampleDigest sampleKey unboundResponse) ∧
      ¬(∀ ext, (Rs.clientUpgrade sampleRsClient [.data ⟨longCodeResponse, longCodeResponse_fits.1,
          longCodeResponse_fits.2⟩]).result = .ok ext →
        SoundResponse sampleDigest sampleKey longCodeResponse) := by
  constructor
  · intro h
    -- wscpp: no accept key at all
    have hok : (Cpp.Client.performHandshake sampleClient unboundResponse).result = .ok false := by
      decide +kernel
    have hblock : EndsFirst headersEnd unboundResponse :=
      Rs.endsFirst_render lf_notMem_statusLine (by decide) (by simp)
    have hparse : Rs.parseHttpHeaders (fromUtf8Lossy unboundResponse) =
        .ok (statusLine, .empty) := by
      decide +kernel
    obtain ⟨-, hfound⟩ := (h false hok).1.of_block hblock (List.append_nil _).symm hparse
    exact absurd hfound (by decide)
  · intro h
    -- ws-rs: the right key, behind a status code that only begins with 101
    have hok : (Rs.clientUpgrade sampleRsClient [.data ⟨longCodeResponse, longCodeResponse_fits.1,
        longCodeResponse_fits.2⟩]).result = .ok ⟨false⟩ := by
      decide +kernel
    have hplain : ∀ f ∈ [(strBytes "Sec-WebSocket-Accept", sampleAccept)], PlainField f := by
      intro f hf
      obtain rfl := List.mem_singleton.mp hf
      exact plainField_of_name (by decide) bareText_sampleAccept.cr_notMem
        bareText_sampleAccept.lf_notMem
    have hblock : EndsFirst headersEnd longCodeResponse :=
      Rs.endsFirst_render (by decide) (by decide) hplain
    have hparse : Rs.parseHttpHeaders (fromUtf8Lossy longCodeResponse) =
        .ok (strBytes "HTTP/1.1 1010 Switching Protocols",
          [(strBytes "sec-websocket-accept", sampleAccept)]) := by
      decide +kernel
    obtain ⟨hline, -⟩ := (h _ hok).of_block hblock (List.append_nil _).symm hparse
    rcases hline with hline | ⟨reason, hline⟩
    · exact absurd hline (by decide)
    · have hcut : strBytes "HTTP/1.1 1010 Switching Protocols" =
          strBytes "HTTP/1.1 101" ++ 0x30 :: strBytes " Switching Protocols" := by
        decide
      rw [hcut, List.append_cancel_left_eq, List.cons.injEq] at hline
      exact absurd hline.1 (by decide)

/-- The response of a server to the sample key. -/
def sampleResponse : List UInt8 := Impl.cpp.response sampleAccept false

lemma sampleResponse_fits : sampleResponse ≠ [] ∧ sampleResponse.length ≤ Rs.readChunk := by
  decide +kernel

lemma sampleResponse_sound : SoundResponse sampleDigest sampleKey sampleResponse := by
  have hsound := soundResponse_response sampleDigest_documented sampleKey false []
  rw [List.append_nil, ← Impl.response_eq .cpp] at hsound
  exact hsound

/-- On the response of a server both clients are sound. -/
theorem client_soundness_sample :
    (∀ deflate, (Cpp.Client.performHandshake sampleClient sampleResponse).result = .ok deflate →
      SoundResponse sampleDigest sampleKey sampleResponse ∧
        ¬RefusesAccept sampleDigest sampleKey sampleResponse) ∧
      (∀ ext, (Rs.clientUpgrade sampleRsClient
          [.data ⟨sampleResponse, sampleResponse_fits.1, sampleResponse_fits.2⟩]).result = .ok ext →
        SoundResponse sampleDigest sampleKey (sampleResponse ++ [])) := by
  have hiff := client_soundness_iff sampleDigest sampleClient sampleResponse sampleRsClient
    (show Rs.readErrors [.data ⟨sampleResponse, sampleResponse_fits.1, sampleResponse_fits.2⟩] = 0
      from rfl)
  refine ⟨hiff.1.mpr ?_, hiff.2.mpr ?_⟩
  · rintro ⟨-, -, hunsound⟩
    exact hunsound sampleResponse_sound
  · apply SoundResponse.not_unchecked
    rw [Rs.inputBytes, Rs.inputBytes, List.append_nil]
    exact sampleResponse_sound

end Wscpp
