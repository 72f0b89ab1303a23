import Wscpp.Handshake.Headers
import Wscpp.Text

/-!
# The messages of the opening handshake

The request and the response that `handshake.cpp` and `handshake.rs` build, and what either side
reads off the headers of the other.  The builders are written as the sources write them, string
after string, and then shown to render a first line and a list of fields (`requestFields`,
`responseFields`), which is the form that the parsers are proved about.

SHA-1 and base64 come from OpenSSL on one side and from two crates on the other; they are the
fields of `Digest`.  What the handshake needs of their output is `Digest.Documented`.

A ws-rs endpoint turns the bytes it has read into a string with `String::from_utf8_lossy` before
it parses them.  Line breaks, colons and the names of the fields are ASCII, so this changes the
request line and the values and nothing else (`Rs.parseHttpHeaders_lossy_render`).
-/

namespace Wscpp

open Lines Utf8

/-! ## Accept keys -/

/-- SHA-1 and base64. -/
structure Digest where
  sha1 : List UInt8 → List UInt8
  base64 : List UInt8 → List UInt8

/-- `MAGIC`. -/
def magic : List UInt8 := strBytes "258EAFA5-E914-47DA-95CA-C5AB0DC85B11"

/-- `compute_accept`. -/
def computeAccept (d : Digest) (key : List UInt8) : List UInt8 := d.base64 (d.sha1 (key ++ magic))

/-- A text that stands as it is behind `": "` in a header line. -/
structure BareText (s : List UInt8) : Prop where
  valid : ValidUtf8 s
  cr_notMem : cr ∉ s
  lf_notMem : lf ∉ s
  no_white : Rs.leadingWhite s = 0

/-- What the code relies on: base64 gives a text without line breaks or white space in front, and
the text of a SHA-1 digest has 28 characters. -/
structure Digest.Documented (d : Digest) : Prop where
  bare : ∀ bs, BareText (d.base64 bs)
  length : ∀ bs, (d.base64 (d.sha1 bs)).length = 28

/-- The key of the tests of both implementations. -/
def sampleKey : List UInt8 := strBytes "dGhlIHNhbXBsZSBub25jZQ=="

/-- The accept key of these tests. -/
def sampleAccept : List UInt8 := strBytes "s3pPLMBiTxaQ9kYGzzhZRbK+xOo="

/-- The SHA-1 digest of the key with the magic string. -/
def sampleHash : List UInt8 :=
  [179, 122, 79, 44, 192, 98, 79, 22, 144, 246, 70, 6, 207, 56, 89, 69, 178, 190, 196, 234]

/-- SHA-1 and base64 as far as these tests need them: the digest of the key, its text, and the text
of the nonce that the key stands for. -/
def sampleDigest : Digest where
  sha1 _ := sampleHash
  base64 bs := if bs = strBytes "the sample nonce" then sampleKey else sampleAccept

lemma bareText_sampleKey : BareText sampleKey :=
  ⟨validUtf8_strBytes _, by decide, by decide, by decide⟩

lemma bareText_sampleAccept : BareText sampleAccept :=
  ⟨validUtf8_strBytes _, by decide, by decide, by decide⟩

lemma sampleDigest_documented : sampleDigest.Documented where
  bare bs := by
    unfold sampleDigest
    dsimp only
    split
    · exact bareText_sampleKey
    · exact bareText_sampleAccept
  length _ := by
    have hlength : (sampleDigest.base64 sampleHash).length = 28 := by decide
    exact hlength

/-! ## Extensions -/

/-- `OFFER`, `permessage_deflate_offer`. -/
def offer : List UInt8 :=
  strBytes "permessage-deflate; client_no_context_takeover; server_no_context_takeover"

/-- `header_offers_permessage_deflate`. -/
def headerOffersPermessageDeflate (extensionsHeader : List UInt8) : Bool :=
  occursIn (strBytes "permessage-deflate") extensionsHeader

/-- The lookup of the extensions header with the test, which all four upgrades make. -/
def offersDeflate (headers : Headers) : Bool :=
  match headers.find (strBytes "sec-websocket-extensions") with
  | some value => headerOffersPermessageDeflate value
  | none => false

/-! ## Requests -/

/-- `validate_client_request`. -/
def validateClientRequest (headers : Headers) : Bool :=
  match headers.find (strBytes "upgrade"), headers.find (strBytes "connection"),
    headers.find (strBytes "sec-websocket-version"),
    headers.find (strBytes "sec-websocket-key") with
  | some upgrade, some connection, some version, some _ =>
      toLower upgrade == strBytes "websocket" &&
        occursIn (strBytes "upgrade") (toLower connection) && version == strBytes "13"
  | _, _, _, _ => false

/-- `build_client_request` of wscpp; no extensions are the empty string. -/
def Cpp.buildClientRequest (host port path key extensions : List UInt8) : List UInt8 :=
  strBytes "GET " ++ path ++ strBytes " HTTP/1.1\r\n" ++
  strBytes "Host: " ++ host ++
  (if port ≠ [] ∧ port ≠ strBytes "80" ∧ port ≠ strBytes "443" then strBytes ":" ++ port else []) ++
  strBytes "\r\n" ++
  strBytes "Upgrade: websocket\r\n" ++
  strBytes "Connection: Upgrade\r\n" ++
  strBytes "Sec-WebSocket-Key: " ++ key ++ strBytes "\r\n" ++
  strBytes "Sec-WebSocket-Version: 13\r\n" ++
  (if extensions ≠ [] then
    strBytes "Sec-WebSocket-Extensions: " ++ extensions ++ strBytes "\r\n" else []) ++
  strBytes "\r\n"

/-- `build_client_request` of ws-rs. -/
def Rs.buildClientRequest (host port path key : List UInt8) (extensions : Option (List UInt8)) :
    List UInt8 :=
  strBytes "GET " ++ path ++ strBytes " HTTP/1.1\r\nHost: " ++ host ++
  (if port ≠ [] ∧ port ≠ strBytes "80" ∧ port ≠ strBytes "443" then strBytes ":" ++ port else []) ++
  strBytes "\r\nUpgrade: websocket\r\nConnection: Upgrade\r\n" ++
  (strBytes "Sec-WebSocket-Key: " ++ key ++ strBytes "\r\n") ++
  strBytes "Sec-WebSocket-Version: 13\r\n" ++
  (match extensions with
    | some ext => strBytes "Sec-WebSocket-Extensions: " ++ ext ++ strBytes "\r\n"
    | none => []) ++
  strBytes "\r\n"

/-- The request line. -/
def requestLine (path : List UInt8) : List UInt8 := strBytes "GET " ++ path ++ strBytes " HTTP/1.1"

/-- The value of the `Host` field. -/
def hostValue (host port : List UInt8) : List UInt8 :=
  host ++
    if port ≠ [] ∧ port ≠ strBytes "80" ∧ port ≠ strBytes "443" then colon :: port else []

/-- The field of an extension, when there is one. -/
def extensionFields (extensions : Option (List UInt8)) : List (List UInt8 × List UInt8) :=
  match extensions with
  | some ext => [(strBytes "Sec-WebSocket-Extensions", ext)]
  | none => []

/-- The fields of a request. -/
def requestFields (host port key : List UInt8) (extensions : Option (List UInt8)) :
    List (List UInt8 × List UInt8) :=
  [(strBytes "Host", hostValue host port), (strBytes "Upgrade", strBytes "websocket"),
    (strBytes "Connection", strBytes "Upgrade"), (strBytes "Sec-WebSocket-Key", key),
    (strBytes "Sec-WebSocket-Version", strBytes "13")] ++ extensionFields extensions

/-! ## Responses -/

/-- `build_server_response` of wscpp; no extensions are the empty string. -/
def Cpp.buildServerResponse (acceptKey extensions : List UInt8) : List UInt8 :=
  strBytes "HTTP/1.1 101 Switching Protocols\r\n" ++
  strBytes "Upgrade: websocket\r\n" ++
  strBytes "Connection: Upgrade\r\n" ++
  strBytes "Sec-WebSocket-Accept: " ++ acceptKey ++ strBytes "\r\n" ++
  (if extensions ≠ [] then
    strBytes "Sec-WebSocket-Extensions: " ++ extensions ++ strBytes "\r\n" else []) ++
  strBytes "\r\n"

/-- `build_server_response` of ws-rs. -/
def Rs.buildServerResponse (acceptKey : List UInt8) (extensions : Option (List UInt8)) :
    List UInt8 :=
  strBytes "HTTP/1.1 101 Switching Protocols\r\n" ++
  strBytes "Upgrade: websocket\r\n" ++
  strBytes "Connection: Upgrade\r\n" ++
  (strBytes "Sec-WebSocket-Accept: " ++ acceptKey ++ strBytes "\r\n") ++
  (match extensions with
    | some ext => strBytes "Sec-WebSocket-Extensions: " ++ ext ++ strBytes "\r\n"
    | none => []) ++
  strBytes "\r\n"

/-- The status line. -/
def statusLine : List UInt8 := strBytes "HTTP/1.1 101 Switching Protocols"

/-- The fields of a response. -/
def responseFields (acceptKey : List UInt8) (extensions : Option (List UInt8)) :
    List (List UInt8 × List UInt8) :=
  [(strBytes "Upgrade", strBytes "websocket"), (strBytes "Connection", strBytes "Upgrade"),
    (strBytes "Sec-WebSocket-Accept", acceptKey)] ++ extensionFields extensions

/-! ## The builders render -/

section Strings

lemma strBytes_crlf : strBytes "\r\n" = crlf := by decide

lemma strBytes_colon : strBytes ":" = [colon] := by decide

lemma strBytes_version : strBytes " HTTP/1.1\r\n" = strBytes " HTTP/1.1" ++ crlf := by
  decide

lemma strBytes_host : strBytes "Host: " = strBytes "Host" ++ [colon, blank] := by decide

lemma strBytes_version_host : strBytes " HTTP/1.1\r\nHost: " =
    strBytes " HTTP/1.1" ++ crlf ++ strBytes "Host" ++ [colon, blank] := by
  decide

lemma strBytes_upgrade : strBytes "Upgrade: websocket\r\n" =
    strBytes "Upgrade" ++ [colon, blank] ++ strBytes "websocket" ++ crlf := by
  decide

lemma strBytes_connection : strBytes "Connection: Upgrade\r\n" =
    strBytes "Connection" ++ [colon, blank] ++ strBytes "Upgrade" ++ crlf := by
  decide

lemma strBytes_upgrade_connection :
    strBytes "\r\nUpgrade: websocket\r\nConnection: Upgrade\r\n" =
      crlf ++ strBytes "Upgrade" ++ [colon, blank] ++ strBytes "websocket" ++ crlf ++
        strBytes "Connection" ++ [colon, blank] ++ strBytes "Upgrade" ++ crlf := by
  decide

lemma strBytes_key :
    strBytes "Sec-WebSocket-Key: " = strBytes "Sec-WebSocket-Key" ++ [colon, blank] := by
  decide

lemma strBytes_version_field : strBytes "Sec-WebSocket-Version: 13\r\n" =
    strBytes "Sec-WebSocket-Version" ++ [colon, blank] ++ strBytes "13" ++ crlf := by
  decide

lemma strBytes_extensions : strBytes "Sec-WebSocket-Extensions: " =
    strBytes "Sec-WebSocket-Extensions" ++ [colon, blank] := by
  decide

lemma strBytes_status :
    strBytes "HTTP/1.1 101 Switching Protocols\r\n" = statusLine ++ crlf := by
  decide

lemma strBytes_accept :
    strBytes "Sec-WebSocket-Accept: " = strBytes "Sec-WebSocket-Accept" ++ [colon, blank] := by
  decide

end Strings

lemma Cpp.buildClientRequest_eq (host port path key : List UInt8)
    {extensions : Option (List UInt8)} (hext : extensions ≠ some []) :
    Cpp.buildClientRequest host port path key (extensions.getD []) =
      renderHeaders (requestLine path) (requestFields host port key extensions) := by
  unfold Cpp.buildClientRequest renderHeaders requestFields requestLine hostValue
  rw [strBytes_version, strBytes_host, strBytes_colon, strBytes_crlf, strBytes_upgrade,
    strBytes_connection, strBytes_key, strBytes_version_field, strBytes_extensions]
  cases extensions with
  | none => simp [extensionFields, renderField]
  | some ext =>
      have hne : ext ≠ [] := fun h => hext (by rw [h])
      simp [extensionFields, renderField, hne]

lemma Rs.buildClientRequest_eq (host port path key : List UInt8)
    (extensions : Option (List UInt8)) :
    Rs.buildClientRequest host port path key extensions =
      renderHeaders (requestLine path) (requestFields host port key extensions) := by
  unfold Rs.buildClientRequest renderHeaders requestFields requestLine hostValue
  rw [strBytes_version_host, strBytes_colon, strBytes_crlf, strBytes_upgrade_connection,
    strBytes_key, strBytes_version_field, strBytes_extensions]
  cases extensions with
  | none => simp [extensionFields, renderField]
  | some ext => simp [extensionFields, renderField]

lemma Cpp.buildServerResponse_eq (acceptKey : List UInt8) {extensions : Option (List UInt8)}
    (hext : extensions ≠ some []) :
    Cpp.buildServerResponse acceptKey (extensions.getD []) =
      renderHeaders statusLine (responseFields acceptKey extensions) := by
  unfold Cpp.buildServerResponse renderHeaders responseFields
  rw [strBytes_status, strBytes_crlf, strBytes_upgrade, strBytes_connection, strBytes_accept,
    strBytes_extensions]
  cases extensions with
  | none => simp [extensionFields, renderField]
  | some ext =>
      have hne : ext ≠ [] := fun h => hext (by rw [h])
      simp [extensionFields, renderField, hne]

lemma Rs.buildServerResponse_eq (acceptKey : List UInt8) (extensions : Option (List UInt8)) :
    Rs.buildServerResponse acceptKey extensions =
      renderHeaders statusLine (responseFields acceptKey extensions) := by
  unfold Rs.buildServerResponse renderHeaders responseFields
  rw [strBytes_status, strBytes_crlf, strBytes_upgrade, strBytes_connection, strBytes_accept,
    strBytes_extensions]
  cases extensions with
  | none => simp [extensionFields, renderField]
  | some ext => simp [extensionFields, renderField]

/-! ## Lossy decoding of a block -/

namespace Rs

/-- The names of the fields are ASCII. -/
def AsciiNames (fields : List (List UInt8 × List UInt8)) : Prop :=
  ∀ f ∈ fields, ∀ b ∈ f.1, b.toNat ≤ 0x7F

/-- What is read of a value: the spaces at the front go after the decoding. -/
def decodedValue (value : List UInt8) : List UInt8 := trimStart (fromUtf8Lossy value)

/-- A field with its value decoded. -/
def lossyField (f : List UInt8 × List UInt8) : List UInt8 × List UInt8 := (f.1, fromUtf8Lossy f.2)

lemma fromUtf8Lossy_crlf (a b : List UInt8) :
    fromUtf8Lossy (a ++ crlf ++ b) = fromUtf8Lossy a ++ crlf ++ fromUtf8Lossy b := by
  have hcr : cr.toNat ≤ 0x7F := by decide
  have hlf : lf.toNat ≤ 0x7F := by decide
  have hsecond : fromUtf8Lossy (lf :: b) = lf :: fromUtf8Lossy b :=
    fromUtf8Lossy_append_ascii hlf [] b
  have hfirst := fromUtf8Lossy_append_ascii hcr a (lf :: b)
  rw [hsecond] at hfirst
  simpa [crlf] using hfirst

lemma fromUtf8Lossy_renderField {f : List UInt8 × List UInt8} (h : ∀ b ∈ f.1, b.toNat ≤ 0x7F) :
    fromUtf8Lossy (renderField f) = renderField (lossyField f) := by
  have hascii : ∀ b ∈ f.1 ++ [colon, blank], b.toNat ≤ 0x7F := by
    intro b hb
    rcases List.mem_append.mp hb with hb | hb
    · exact h b hb
    · have hends : ∀ b ∈ [colon, blank], b.toNat ≤ 0x7F := by decide +kernel
      exact hends b hb
  exact fromUtf8Lossy_ascii_append hascii f.2

/-- The decoded block is the block of the decoded line and values. -/
lemma fromUtf8Lossy_render (first : List UInt8) {fields : List (List UInt8 × List UInt8)}
    (h : AsciiNames fields) (t : List UInt8) :
    fromUtf8Lossy (renderHeaders first fields ++ t) =
      renderHeaders (fromUtf8Lossy first) (fields.map lossyField) ++ fromUtf8Lossy t := by
  have hrest : ∀ fs : List (List UInt8 × List UInt8), AsciiNames fs →
      fromUtf8Lossy ((fs.flatMap fun f => renderField f ++ crlf) ++ crlf ++ t) =
        ((fs.map lossyField).flatMap fun f => renderField f ++ crlf) ++ crlf ++
          fromUtf8Lossy t := by
    intro fs hfs
    induction fs with
    | nil => exact fromUtf8Lossy_crlf [] t
    | cons f fs ih =>
        have hcut := fromUtf8Lossy_crlf (renderField f)
          ((fs.flatMap fun f => renderField f ++ crlf) ++ crlf ++ t)
        rw [ih fun g hg => hfs g (List.mem_cons_of_mem _ hg),
          fromUtf8Lossy_renderField (hfs f (by simp))] at hcut
        simpa using hcut
  have hcut := fromUtf8Lossy_crlf first
    ((fields.flatMap fun f => renderField f ++ crlf) ++ crlf ++ t)
  rw [hrest fields h] at hcut
  simpa [renderHeaders] using hcut

lemma plainField_lossy {f : List UInt8 × List UInt8} (h : PlainField f) :
    PlainField (lossyField f) where
  name_colon := h.name_colon
  name_cr := h.name_cr
  name_lf := h.name_lf
  name_trim := h.name_trim
  value_cr := notMem_fromUtf8Lossy (by decide) h.value_cr
  value_lf := notMem_fromUtf8Lossy (by decide) h.value_lf

/-- **ws-rs parses the decoded block back**: it sees the decoded values. -/
theorem parseHttpHeaders_lossy_render {first : List UInt8}
    {fields : List (List UInt8 × List UInt8)} (hfirst : lf ∉ first)
    (hfields : ∀ f ∈ fields, PlainField f) (hnames : AsciiNames fields) (t : List UInt8) :
    parseHttpHeaders (fromUtf8Lossy (renderHeaders first fields ++ t)) =
      .ok (fromUtf8Lossy first, Headers.ofFields decodedValue fields) := by
  have hlossy : ∀ f ∈ fields.map lossyField, PlainField f := by
    intro f hf
    obtain ⟨g, hg, rfl⟩ := List.mem_map.mp hf
    exact plainField_lossy (hfields g hg)
  rw [fromUtf8Lossy_render first hnames,
    parseHttpHeaders_render (notMem_fromUtf8Lossy (by decide) hfirst) hlossy]
  simp [Headers.ofFields, lossyField, decodedValue, Function.comp_def]

end Rs

/-! ## The headers of a request and of a response -/

/-- A field of a list whose names are distinct is found under its name. -/
lemma Headers.find_ofFields {value : List UInt8 → List UInt8}
    {fields : List (List UInt8 × List UInt8)} (hnodup : (fields.map fun f => toLower f.1).Nodup)
    {f : List UInt8 × List UInt8} (hf : f ∈ fields) :
    (Headers.ofFields value fields).find (toLower f.1) = some (value f.2) := by
  obtain ⟨before, behind, rfl⟩ := List.append_of_mem hf
  unfold Headers.find Headers.ofFields
  rw [List.lookup_eq_some_iff]
  refine ⟨(behind.map fun f => (toLower f.1, value f.2)).reverse,
    (before.map fun f => (toLower f.1, value f.2)).reverse, by simp, ?_⟩
  intro p hp
  rw [List.mem_reverse, List.mem_map] at hp
  obtain ⟨g, hg, rfl⟩ := hp
  rw [List.map_append, List.map_cons] at hnodup
  have hnotMem := (List.nodup_cons.mp (List.nodup_append.mp hnodup).2.1).1
  rw [bne_iff_ne]
  intro heq
  exact hnotMem (List.mem_map.mpr ⟨g, hg, heq.symm⟩)

lemma Headers.find_ofFields_none {value : List UInt8 → List UInt8}
    {fields : List (List UInt8 × List UInt8)} {name : List UInt8}
    (h : name ∉ fields.map fun f => toLower f.1) :
    (Headers.ofFields value fields).find name = none := by
  unfold Headers.find Headers.ofFields
  rw [List.lookup_eq_none_iff]
  intro p hp
  rw [List.mem_reverse, List.mem_map] at hp
  obtain ⟨f, hf, rfl⟩ := hp
  rw [bne_iff_ne]
  intro heq
  exact h (List.mem_map.mpr ⟨f, hf, heq.symm⟩)

/-- A parser keeps a bare value. -/
def KeepsBare (value : List UInt8 → List UInt8) : Prop := ∀ v, BareText v → value v = v

lemma Cpp.keepsBare : KeepsBare Cpp.dropBlanks :=
  fun _ hv => Cpp.dropBlanks_of_leadingWhite hv.no_white

lemma Rs.keepsBare : KeepsBare Rs.decodedValue := by
  intro v hv
  rw [Rs.decodedValue, fromUtf8Lossy_of_valid hv.valid, Rs.trimStart_of_leadingWhite hv.no_white]

lemma bareText_websocket : BareText (strBytes "websocket") :=
  ⟨validUtf8_strBytes _, by decide, by decide, by decide⟩

lemma bareText_upgrade : BareText (strBytes "Upgrade") :=
  ⟨validUtf8_strBytes _, by decide, by decide, by decide⟩

lemma bareText_version : BareText (strBytes "13") :=
  ⟨validUtf8_strBytes _, by decide, by decide, by decide⟩

lemma bareText_offer : BareText offer :=
  ⟨validUtf8_strBytes _, by decide, by decide, by decide⟩

/-- The names of the handshake's fields. -/
def fieldNames : List (List UInt8) :=
  [strBytes "Host", strBytes "Upgrade", strBytes "Connection", strBytes "Sec-WebSocket-Key",
    strBytes "Sec-WebSocket-Version", strBytes "Sec-WebSocket-Accept",
    strBytes "Sec-WebSocket-Extensions"]

lemma plainField_of_name {f : List UInt8 × List UInt8} (hname : f.1 ∈ fieldNames)
    (hcr : cr ∉ f.2) (hlf : lf ∉ f.2) : PlainField f := by
  have hnames : ∀ n ∈ fieldNames, colon ∉ n ∧ cr ∉ n ∧ lf ∉ n ∧ Rs.trim n = n := by
    decide
  obtain ⟨h1, h2, h3, h4⟩ := hnames f.1 hname
  exact ⟨h1, h2, h3, h4, hcr, hlf⟩

lemma asciiNames_of_names {fields : List (List UInt8 × List UInt8)}
    (hnames : ∀ f ∈ fields, f.1 ∈ fieldNames) : Rs.AsciiNames fields := by
  have hascii : ∀ n ∈ fieldNames, ∀ b ∈ n, b.toNat ≤ 0x7F := by decide +kernel
  intro f hf
  exact hascii f.1 (hnames f hf)

/-- The extension that a flag asks for or grants. -/
def extensionOf (deflate : Bool) : Option (List UInt8) := if deflate then some offer else none

lemma extensionOf_ne (deflate : Bool) : extensionOf deflate ≠ some [] := by
  have hoffer : offer ≠ [] := by decide
  cases deflate
  · simp [extensionOf]
  · simpa [extensionOf] using hoffer

/-- Whether the headers offer permessage-deflate, for fields that have the flag's extension. -/
lemma offersDeflate_ofFields {value : List UInt8 → List UInt8} (hvalue : KeepsBare value)
    {base : List (List UInt8 × List UInt8)} {deflate : Bool}
    (hnodup : ((base ++ extensionFields (extensionOf deflate)).map fun f => toLower f.1).Nodup)
    (hbase : strBytes "sec-websocket-extensions" ∉ base.map fun f => toLower f.1) :
    offersDeflate (Headers.ofFields value (base ++ extensionFields (extensionOf deflate))) =
      deflate := by
  unfold offersDeflate
  cases deflate with
  | false =>
      have hnone : (Headers.ofFields value (base ++ extensionFields (extensionOf false))).find
          (strBytes "sec-websocket-extensions") = none :=
        Headers.find_ofFields_none (by simpa [extensionOf, extensionFields] using hbase)
      rw [hnone]
  | true =>
      have hname : strBytes "sec-websocket-extensions" =
          toLower (strBytes "Sec-WebSocket-Extensions") := by
        decide
      have hmem : (strBytes "Sec-WebSocket-Extensions", offer) ∈
          base ++ extensionFields (extensionOf true) := by
        simp [extensionOf, extensionFields]
      rw [hname, Headers.find_ofFields hnodup hmem, hvalue _ bareText_offer]
      decide

section Request

variable {host port key : List UInt8} (deflate : Bool)

/-- A text without line breaks. -/
def OneLine (s : List UInt8) : Prop := cr ∉ s ∧ lf ∉ s

lemma BareText.oneLine {s : List UInt8} (h : BareText s) : OneLine s := ⟨h.cr_notMem, h.lf_notMem⟩

lemma oneLine_hostValue (hhost : OneLine host) (hport : OneLine port) :
    OneLine (hostValue host port) := by
  have hcr : cr ≠ colon := by decide
  have hlf : lf ≠ colon := by decide
  unfold hostValue
  split
  · simpa [OneLine, hcr, hlf, hhost.1, hhost.2] using hport
  · simpa using hhost

lemma requestFields_plain (hhost : OneLine host) (hport : OneLine port) (hkey : OneLine key) :
    ∀ f ∈ requestFields host port key (extensionOf deflate),
      f.1 ∈ fieldNames ∧ PlainField f := by
  have hvalue := oneLine_hostValue hhost hport
  have hall : ∀ f ∈ requestFields host port key (extensionOf deflate),
      f.1 ∈ fieldNames ∧ OneLine f.2 := by
    cases deflate <;>
      simp [requestFields, extensionOf, extensionFields, fieldNames, hvalue, hkey,
        bareText_websocket.oneLine, bareText_upgrade.oneLine, bareText_version.oneLine,
        bareText_offer.oneLine]
  intro f hf
  obtain ⟨hname, hline⟩ := hall f hf
  exact ⟨hname, plainField_of_name hname hline.1 hline.2⟩

lemma requestFields_nodup :
    ((requestFields host port key (extensionOf deflate)).map fun f => toLower f.1).Nodup := by
  have hnames : ∀ deflate : Bool,
      ((requestFields [] [] [] (extensionOf deflate)).map fun f => toLower f.1).Nodup := by
    decide
  have heq : (requestFields host port key (extensionOf deflate)).map (fun f => toLower f.1) =
      (requestFields [] [] [] (extensionOf deflate)).map fun f => toLower f.1 := by
    cases deflate <;> rfl
  rw [heq]
  exact hnames deflate

lemma find_request {value : List UInt8 → List UInt8} {name v : List UInt8}
    (h : (name, v) ∈ requestFields host port key (extensionOf deflate)) :
    (Headers.ofFields value (requestFields host port key (extensionOf deflate))).find
      (toLower name) = some (value v) :=
  Headers.find_ofFields (requestFields_nodup deflate) h

/-- **What a server reads off a request**, whichever parser it has: the request is valid, the key
is the client's, and permessage-deflate is offered when the client asks for it. -/
theorem request_headers {value : List UInt8 → List UInt8} (hvalue : KeepsBare value)
    (hkey : BareText key) {headers : Headers}
    (hheaders : headers =
      Headers.ofFields value (requestFields host port key (extensionOf deflate))) :
    validateClientRequest headers = true ∧
      headers.find (strBytes "sec-websocket-key") = some key ∧ offersDeflate headers = deflate := by
  have hupgrade : headers.find (strBytes "upgrade") = some (strBytes "websocket") := by
    rw [hheaders, ← hvalue _ bareText_websocket,
      show strBytes "upgrade" = toLower (strBytes "Upgrade") by decide]
    exact find_request deflate (by simp [requestFields])
  have hconnection : headers.find (strBytes "connection") = some (strBytes "Upgrade") := by
    rw [hheaders, ← hvalue _ bareText_upgrade,
      show strBytes "connection" = toLower (strBytes "Connection") by decide]
    exact find_request deflate (by simp [requestFields])
  have hversion : headers.find (strBytes "sec-websocket-version") = some (strBytes "13") := by
    rw [hheaders, ← hvalue _ bareText_version,
      show strBytes "sec-websocket-version" = toLower (strBytes "Sec-WebSocket-Version") by
        decide]
    exact find_request deflate (by simp [requestFields])
  have hfound : headers.find (strBytes "sec-websocket-key") = some key := by
    have hname : strBytes "sec-websocket-key" = toLower (strBytes "Sec-WebSocket-Key") := by decide
    have hmem : (strBytes "Sec-WebSocket-Key", key) ∈
        requestFields host port key (extensionOf deflate) := by
      simp [requestFields]
    rw [hheaders, hname, find_request deflate hmem, hvalue key hkey]
  refine ⟨?_, hfound, ?_⟩
  · -- the values are constants, and so are the tests on them
    have htests : (toLower (strBytes "websocket") == strBytes "websocket" &&
        occursIn (strBytes "upgrade") (toLower (strBytes "Upgrade")) &&
        strBytes "13" == strBytes "13") = true := by
      decide
    rw [validateClientRequest, hupgrade, hconnection, hversion, hfound]
    dsimp only
    exact htests
  · rw [hheaders]
    apply offersDeflate_ofFields hvalue (requestFields_nodup deflate)
    simp only [List.map_cons, List.map_nil]
    decide

end Request

section Response

variable {acceptKey : List UInt8} (deflate : Bool)

lemma responseFields_plain (haccept : OneLine acceptKey) :
    ∀ f ∈ responseFields acceptKey (extensionOf deflate), f.1 ∈ fieldNames ∧ PlainField f := by
  have hall : ∀ f ∈ responseFields acceptKey (extensionOf deflate),
      f.1 ∈ fieldNames ∧ OneLine f.2 := by
    cases deflate <;>
      simp [responseFields, extensionOf, extensionFields, fieldNames, haccept,
        bareText_websocket.oneLine, bareText_upgrade.oneLine, bareText_offer.oneLine]
  intro f hf
  obtain ⟨hname, hline⟩ := hall f hf
  exact ⟨hname, plainField_of_name hname hline.1 hline.2⟩

lemma responseFields_nodup :
    ((responseFields acceptKey (extensionOf deflate)).map fun f => toLower f.1).Nodup := by
  have hnames : ∀ deflate : Bool,
      ((responseFields [] (extensionOf deflate)).map fun f => toLower f.1).Nodup := by
    decide
  have heq : (responseFields acceptKey (extensionOf deflate)).map (fun f => toLower f.1) =
      (responseFields [] (extensionOf deflate)).map fun f => toLower f.1 := by
    cases deflate <;> rfl
  rw [heq]
  exact hnames deflate

/-- **What a client reads off a response**, whichever parser it has. -/
theorem response_headers {value : List UInt8 → List UInt8} (hvalue : KeepsBare value)
    (haccept : BareText acceptKey) {headers : Headers}
    (hheaders : headers =
      Headers.ofFields value (responseFields acceptKey (extensionOf deflate))) :
    headers.find (strBytes "sec-websocket-accept") = some acceptKey ∧
      offersDeflate headers = deflate := by
  constructor
  · have hname : strBytes "sec-websocket-accept" = toLower (strBytes "Sec-WebSocket-Accept") := by
      decide
    have hmem : (strBytes "Sec-WebSocket-Accept", acceptKey) ∈
        responseFields acceptKey (extensionOf deflate) := by
      simp [responseFields]
    rw [hheaders, hname, Headers.find_ofFields (responseFields_nodup deflate) hmem,
      hvalue acceptKey haccept]
  · rw [hheaders]
    apply offersDeflate_ofFields hvalue (responseFields_nodup deflate)
    simp only [List.map_cons, List.map_nil]
    decide

/-- A response is short. -/
lemma length_response_le (hlength : acceptKey.length = 28) :
    (renderHeaders statusLine (responseFields acceptKey (extensionOf deflate))).length ≤
      64 * 1024 := by
  have heq : (renderHeaders statusLine (responseFields acceptKey (extensionOf deflate))).length =
      (renderHeaders statusLine (responseFields [] (extensionOf deflate))).length + 28 := by
    simp [renderHeaders, responseFields, renderField, hlength]
    omega
  have hclosed : ∀ deflate : Bool,
      (renderHeaders statusLine (responseFields [] (extensionOf deflate))).length + 28 ≤
        64 * 1024 := by
    decide +kernel
  rw [heq]
  exact hclosed deflate

end Response

end Wscpp
