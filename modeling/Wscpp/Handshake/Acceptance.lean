import Wscpp.Cpp.Upgrade
import Wscpp.Rs.Upgrade

/-!
# Which requests a server accepts

`parse_http_headers` of wscpp and of ws-rs take a block apart in different ways
(`Wscpp.Handshake.Headers`).  On the blocks that people write, ASCII text with a value that does not
begin with white space, both give the same first line and the same map (`headers_agree`): the names
in lower case, for each the value of its last field, and nothing of what follows the block.

`validate_client_request` is the same on both sides.  It does not look at the request line and only
asks for a key to be there; it wants `websocket` to be all of the Upgrade value, and looks for
`upgrade` and for `permessage-deflate` anywhere in two other values.  That is neither more nor less
than RFC 6455, section 4.2.1, asks for (`acceptance_is_not_rfc`).  What a server accepts is then
decided by the last values of five fields, however the names are written, in whatever order the
fields stand, and whatever white space stands before the values (`accepts_iff`).  For wscpp that
white space has to be spaces: it does not take tabs off.
-/

namespace Wscpp

open Lines Utf8

/-! ## The last value of a field -/

/-- The value of the last field of a name, given in lower case. -/
def lastValue (fields : List (List UInt8 × List UInt8)) (name : List UInt8) :
    Option (List UInt8) :=
  (fields.reverse.find? fun f => toLower f.1 == name).map Prod.snd

lemma lookup_map (value : List UInt8 → List UInt8) (name : List UInt8)
    (fields : List (List UInt8 × List UInt8)) :
    List.lookup name (fields.map fun f => (toLower f.1, value f.2)) =
      (fields.find? fun f => toLower f.1 == name).map fun f => value f.2 := by
  induction fields with
  | nil => rfl
  | cons f fields ih =>
      rw [List.map_cons, List.lookup_cons, List.find?_cons, Bool.beq_comm]
      cases toLower f.1 == name with
      | true => rfl
      | false => exact ih

lemma Headers.find_ofFields_last (value : List UInt8 → List UInt8) (name : List UInt8)
    (fields : List (List UInt8 × List UInt8)) :
    (Headers.ofFields value fields).find name = (lastValue fields name).map value := by
  rw [Headers.find, Headers.ofFields, ← List.map_reverse, lookup_map, lastValue, Option.map_map]
  rfl

/-- Two ways to trim that do the same to every value. -/
lemma Headers.ofFields_congr {value value' : List UInt8 → List UInt8}
    {fields : List (List UInt8 × List UInt8)} (h : ∀ f ∈ fields, value f.2 = value' f.2) :
    Headers.ofFields value fields = Headers.ofFields value' fields := by
  unfold Headers.ofFields
  congr 1
  apply List.map_congr_left
  intro f hf
  rw [h f hf]

/-! ## ASCII text -/

/-- The white space of ASCII. -/
def asciiWhite : List UInt8 := [0x09, 0x0A, 0x0B, 0x0C, 0x0D, 0x20]

lemma Rs.ascii_of_isWhiteSpace {u : List UInt8} (h : Rs.isWhiteSpace u = true)
    (hascii : ∀ b ∈ u, b < 0x80) : ∃ b ∈ asciiWhite, u = [b] := by
  have table : ∀ w ∈ Rs.whiteSpaceChars.map String.utf8EncodeChar, (∀ b ∈ w, b < 0x80) →
      ∃ b ∈ asciiWhite, w = [b] := by
    decide +kernel
  exact table u (List.contains_iff_mem.mp h) hascii

/-- No white space is found in front of ASCII text that does not begin with any. -/
lemma Rs.leadingWhite_of_ascii {s : List UInt8} (hascii : ∀ b ∈ s, b < 0x80)
    (hfirst : ∀ b ∈ s.head?, b ∉ asciiWhite) : Rs.leadingWhite s = 0 := by
  have hno : ∀ n, Rs.isWhiteSpace (s.take n) = false := by
    intro n
    by_contra hwhite
    obtain ⟨b, hb, heq⟩ := Rs.ascii_of_isWhiteSpace (u := s.take n) (by simpa using hwhite)
      fun b hb => hascii b (List.mem_of_mem_take hb)
    cases s with
    | nil => simp at heq
    | cons a s =>
        cases n with
        | zero => simp at heq
        | succ n =>
            obtain ⟨rfl, -⟩ := List.cons.inj heq
            exact hfirst a rfl hb
  rw [Rs.leadingWhite, hno 1, hno 2, hno 3]
  rfl

lemma Rs.trailingWhite_of_ascii {s : List UInt8} (hascii : ∀ b ∈ s, b < 0x80)
    (hwhite : ∀ b ∈ s, b ∉ asciiWhite) : Rs.trailingWhite s = 0 := by
  have hno : ∀ n, Rs.isWhiteSpace (s.take n).reverse = false := by
    intro n
    by_contra htake
    have hmem : ∀ b ∈ (s.take n).reverse, b ∈ s := fun b hb =>
      List.mem_of_mem_take (List.mem_reverse.mp hb)
    obtain ⟨b, hb, heq⟩ := Rs.ascii_of_isWhiteSpace (u := (s.take n).reverse) (by simpa using htake)
      fun b hb => hascii b (hmem b hb)
    exact hwhite b (hmem b (by simp [heq])) hb
  rw [Rs.trailingWhite, hno 1, hno 2, hno 3]
  rfl

/-- ASCII text without white space is not trimmed. -/
lemma Rs.trim_of_ascii {s : List UInt8} (hascii : ∀ b ∈ s, b < 0x80)
    (hwhite : ∀ b ∈ s, b ∉ asciiWhite) : Rs.trim s = s := by
  have hstart : Rs.trimStart s = s :=
    Rs.trimStart_of_leadingWhite (Rs.leadingWhite_of_ascii hascii fun b hb =>
      hwhite b (List.mem_of_mem_head? hb))
  have hend : Rs.trimEnd s = s := by
    rw [Rs.trimEnd]
    cases hlen : s.length with
    | zero => simp [Rs.dropWhite]
    | succ n =>
        have hnone : Rs.trailingWhite s.reverse = 0 :=
          Rs.trailingWhite_of_ascii (by simpa using hascii) (by simpa using hwhite)
        rw [Rs.dropWhite, if_pos hnone, List.reverse_reverse]
  rw [Rs.trim, hstart, hend]

/-- The name of a header field. -/
structure FieldName (name : List UInt8) : Prop where
  ascii : ∀ b ∈ name, b < 0x80
  colon_notMem : colon ∉ name
  white : ∀ b ∈ name, b ∉ asciiWhite

lemma FieldName.plainField {name value : List UInt8} (h : FieldName name) (hvalue : OneLine value) :
    PlainField (name, value) where
  name_colon := h.colon_notMem
  name_cr hmem := h.white cr hmem (by decide)
  name_lf hmem := h.white lf hmem (by decide)
  name_trim := Rs.trim_of_ascii h.ascii h.white
  value_cr := hvalue.1
  value_lf := hvalue.2

/-! ## The two parsers -/

/-- **The two parsers agree and invert rendering.**  For every first line without CR or LF, every
list of fields of ASCII text, with names (empty or not) that have no colon or white space in them
and values without CR or LF that do not begin with white space, and every text behind the block,
both parsers give the first line and one and the same map, in which each name, in lower case, has
the value of its last field and no other name has any. -/
theorem headers_agree {first : List UInt8} {fields : List (List UInt8 × List UInt8)}
    (hfirst : OneLine first)
    (hfields : ∀ f ∈ fields, FieldName f.1 ∧ (∀ b ∈ f.2, b < 0x80) ∧ OneLine f.2 ∧
      ∀ b ∈ f.2.head?, b ∉ asciiWhite) (t : List UInt8) :
    ∃ headers : Headers,
      Cpp.parseHttpHeaders (renderHeaders first fields ++ t) = some (first, headers) ∧
      Rs.parseHttpHeaders (renderHeaders first fields ++ t) = .ok (first, headers) ∧
      ∀ name, headers.find name = lastValue fields name := by
  have hplain : ∀ f ∈ fields, PlainField f := fun f hf =>
    (hfields f hf).1.plainField (hfields f hf).2.2.1
  have hwhite : ∀ f ∈ fields, Rs.leadingWhite f.2 = 0 := fun f hf =>
    Rs.leadingWhite_of_ascii (hfields f hf).2.1 (hfields f hf).2.2.2
  have hcpp : Headers.ofFields Cpp.dropBlanks fields = Headers.ofFields id fields :=
    Headers.ofFields_congr fun f hf => Cpp.dropBlanks_of_leadingWhite (hwhite f hf)
  have hrs : Headers.ofFields Rs.trimStart fields = Headers.ofFields id fields :=
    Headers.ofFields_congr fun f hf => Rs.trimStart_of_leadingWhite (hwhite f hf)
  refine ⟨Headers.ofFields id fields, ?_, ?_, fun name => ?_⟩
  · rw [Cpp.parseHttpHeaders_render hfirst.2 hplain, hcpp]
  · rw [Rs.parseHttpHeaders_render hfirst.2 hplain, hrs]
  · rw [Headers.find_ofFields_last, Option.map_id, id_eq]

/-- A field given twice, in two spellings, with a colon in a value, and one without a value. -/
def sampleFields : List (List UInt8 × List UInt8) :=
  [(strBytes "Host", strBytes "a:1"), (strBytes "X", []), (strBytes "HOST", strBytes "b")]

/-- Both parsers on a block of these fields, with a line behind it. -/
theorem headers_agree_twice :
    ∃ headers : Headers,
      Cpp.parseHttpHeaders (strBytes "GET / HTTP/1.1\r\nHost: a:1\r\nX: \r\nHOST: b\r\n\r\nY: z") =
        some (strBytes "GET / HTTP/1.1", headers) ∧
      Rs.parseHttpHeaders (strBytes "GET / HTTP/1.1\r\nHost: a:1\r\nX: \r\nHOST: b\r\n\r\nY: z") =
        .ok (strBytes "GET / HTTP/1.1", headers) ∧
      headers.find (strBytes "host") = some (strBytes "b") ∧
      headers.find (strBytes "x") = some [] ∧ headers.find (strBytes "y") = none := by
  have hfirst : OneLine (strBytes "GET / HTTP/1.1") := ⟨by decide, by decide⟩
  have hfields : ∀ f ∈ sampleFields, FieldName f.1 ∧ (∀ b ∈ f.2, b < 0x80) ∧ OneLine f.2 ∧
      ∀ b ∈ f.2.head?, b ∉ asciiWhite := by
    have table : ∀ f ∈ sampleFields, ((∀ b ∈ f.1, b < 0x80) ∧ colon ∉ f.1 ∧
        ∀ b ∈ f.1, b ∉ asciiWhite) ∧ (∀ b ∈ f.2, b < 0x80) ∧ (cr ∉ f.2 ∧ lf ∉ f.2) ∧
          ∀ b ∈ f.2.head?, b ∉ asciiWhite := by
      decide +kernel
    intro f hf
    obtain ⟨⟨hascii, hcolon, hwhite⟩, hvalue⟩ := table f hf
    exact ⟨⟨hascii, hcolon, hwhite⟩, hvalue⟩
  obtain ⟨headers, hcpp, hrs, hfind⟩ := headers_agree hfirst hfields (strBytes "Y: z")
  refine ⟨headers, hcpp, hrs, ?_, ?_, ?_⟩
  · rw [hfind]
    decide +kernel
  · rw [hfind]
    decide +kernel
  · rw [hfind]
    decide +kernel

/-! ## Acceptance -/

/-- `'\t'`. -/
def tab : UInt8 := 0x09

/-- A header field as a request has it: the name, the spaces and tabs behind the colon, and the
value with what stands behind it on the line. -/
structure HttpField where
  name : List UInt8
  lead : List UInt8
  value : List UInt8
  name_ok : FieldName name
  lead_ok : ∀ b ∈ lead, b = blank ∨ b = tab
  value_ok : OneLine value
  value_first : Rs.leadingWhite value = 0

namespace HttpField

/-- The line, as the name and what stands behind the colon. -/
def raw (f : HttpField) : List UInt8 × List UInt8 := (f.name, f.lead ++ f.value)

/-- The name and the value. -/
def pair (f : HttpField) : List UInt8 × List UInt8 := (f.name, f.value)

lemma plainField_raw (f : HttpField) : PlainField f.raw := by
  refine f.name_ok.plainField ⟨?_, ?_⟩
  · rw [List.mem_append]
    rintro (hlead | hvalue)
    · exact absurd (f.lead_ok cr hlead) (by decide)
    · exact f.value_ok.1 hvalue
  · rw [List.mem_append]
    rintro (hlead | hvalue)
    · exact absurd (f.lead_ok lf hlead) (by decide)
    · exact f.value_ok.2 hvalue

/-- ws-rs takes the spaces and tabs off. -/
lemma trimStart_raw (f : HttpField) : Rs.trimStart f.raw.2 = f.value := by
  have hlead : ∀ lead : List UInt8, (∀ b ∈ lead, b = blank ∨ b = tab) →
      Rs.trimStart (lead ++ f.value) = f.value := by
    intro lead
    induction lead with
    | nil => exact fun _ => Rs.trimStart_of_leadingWhite f.value_first
    | cons b lead ih =>
        intro h
        have hwhite : Rs.isWhiteSpace [b] = true := by
          rcases h b (by simp) with rfl | rfl <;> decide
        rw [List.cons_append, Rs.trimStart_cons hwhite]
        exact ih fun a ha => h a (List.mem_cons_of_mem _ ha)
  exact hlead f.lead f.lead_ok

lemma dropBlanks_raw {f : HttpField} (h : tab ∉ f.lead) : Cpp.dropBlanks f.raw.2 = f.value := by
  have hblank : ∀ b ∈ f.lead, (b == blank) = true := by
    intro b hb
    rcases f.lead_ok b hb with rfl | rfl
    · rfl
    · exact absurd hb h
  show (f.lead ++ f.value).dropWhile (· == blank) = f.value
  rw [List.dropWhile_append_of_pos hblank]
  exact Cpp.dropBlanks_of_leadingWhite f.value_first

end HttpField

/-- The text of a request. -/
def requestBlock (first : List UInt8) (fields : List HttpField) : List UInt8 :=
  renderRaw first (fields.map HttpField.raw)

/-- What both parsers make of the fields of a request, if they take off what stands before the
values. -/
lemma ofFields_raw {value : List UInt8 → List UInt8} {fields : List HttpField}
    (h : ∀ f ∈ fields, value f.raw.2 = f.value) :
    Headers.ofFields value (fields.map HttpField.raw) =
      Headers.ofFields id (fields.map HttpField.pair) := by
  simp only [Headers.ofFields, List.map_map]
  congr 1
  apply List.map_congr_left
  intro f hf
  exact Prod.ext rfl (h f hf)

/-- The last value of a name among the fields of a request. -/
def lastOf (fields : List HttpField) (name : String) : Option (List UInt8) :=
  lastValue (fields.map HttpField.pair) (strBytes name)

/-- What the servers look at: the last Upgrade value is `websocket`, the last Connection value has
`upgrade` in it, both in any case; the last version is `13`, and there is a key. -/
structure Accepted (fields : List HttpField) : Prop where
  upgrade : (lastOf fields "upgrade").map toLower = some (strBytes "websocket")
  connection : ∃ value ∈ lastOf fields "connection", strBytes "upgrade" <:+: toLower value
  version : lastOf fields "sec-websocket-version" = some (strBytes "13")
  key : (lastOf fields "sec-websocket-key").isSome = true

/-- The last value of the extensions has `permessage-deflate` in it. -/
def Offered (fields : List HttpField) : Prop :=
  ∃ value ∈ lastOf fields "sec-websocket-extensions", strBytes "permessage-deflate" <:+: value

/-- The map of a request. -/
def requestHeaders (fields : List HttpField) : Headers :=
  Headers.ofFields id (fields.map HttpField.pair)

lemma find_requestHeaders (fields : List HttpField) (name : String) :
    (requestHeaders fields).find (strBytes name) = lastOf fields name := by
  rw [requestHeaders, Headers.find_ofFields_last, Option.map_id, id_eq, lastOf]

lemma validateClientRequest_iff (fields : List HttpField) :
    validateClientRequest (requestHeaders fields) = true ↔ Accepted fields := by
  rw [validateClientRequest, find_requestHeaders, find_requestHeaders, find_requestHeaders,
    find_requestHeaders]
  constructor
  · intro h
    split at h
    · rename_i upgrade connection version key hupgrade hconnection hversion hkey
      simp only [Bool.and_eq_true, beq_iff_eq, occursIn, decide_eq_true_eq] at h
      refine ⟨?_, ⟨connection, hconnection, h.1.2⟩, ?_, ?_⟩
      · rw [hupgrade, Option.map_some, h.1.1]
      · rw [hversion, h.2]
      · rw [hkey]
        rfl
    · cases h
  · rintro ⟨hupgrade, ⟨connection, hconnection, hinfix⟩, hversion, hkey⟩
    obtain ⟨upgrade, hupgrade, hlower⟩ := Option.map_eq_some_iff.mp hupgrade
    obtain ⟨key, hkey⟩ := Option.isSome_iff_exists.mp hkey
    rw [hupgrade, hconnection, hversion, hkey]
    simp [hlower, occursIn, hinfix]

lemma offersDeflate_iff (fields : List HttpField) :
    offersDeflate (requestHeaders fields) = true ↔ Offered fields := by
  rw [offersDeflate, find_requestHeaders, Offered]
  cases lastOf fields "sec-websocket-extensions" with
  | none => simp
  | some value => simp [headerOffersPermessageDeflate, occursIn]

/-- **Which requests a server accepts.**  For every first line and every list of header fields,
their names in any case, in any order and repeated or not, with any spaces and tabs behind the
colon, and for whatever follows the block: the server of ws-rs accepts if and only if the last
Upgrade value is `websocket` in any case, the last Connection value has `upgrade` in it in any case,
the last version is `13` and there is a key, and it grants permessage-deflate if and only if the
last extensions value has this in it; and so does the server of wscpp, where no tab stands behind a
colon. -/
theorem accepts_iff (d : Digest) {first : List UInt8} (hfirst : OneLine first)
    (fields : List HttpField) (t : List UInt8) (deflate : Bool) :
    ((∃ response, Rs.checkRequest d (requestBlock first fields ++ t) =
        .ok (response, ⟨deflate⟩)) ↔
      Accepted fields ∧ (deflate = true ↔ Offered fields)) ∧
    ((∀ f ∈ fields, tab ∉ f.lead) →
      ((∃ response, Cpp.checkRequest d (requestBlock first fields ++ t) =
          .ok (response, deflate)) ↔
        Accepted fields ∧ (deflate = true ↔ Offered fields))) := by
  have hplain : ∀ f ∈ fields.map HttpField.raw, PlainField f := by
    intro f hf
    obtain ⟨g, -, rfl⟩ := List.mem_map.mp hf
    exact g.plainField_raw
  -- what is granted is what the test finds
  have hdeflate : (deflate = true ↔ Offered fields) ↔
      offersDeflate (requestHeaders fields) = deflate := by
    rw [← offersDeflate_iff]
    cases deflate <;> cases offersDeflate (requestHeaders fields) <;> simp
  rw [hdeflate, ← validateClientRequest_iff]
  constructor
  · have hparse : Rs.parseHttpHeaders (requestBlock first fields ++ t) =
        .ok (first, requestHeaders fields) := by
      rw [requestBlock, Rs.parseHttpHeaders_raw hfirst.2 hplain,
        ofFields_raw fun f _ => f.trimStart_raw, requestHeaders]
    rw [Rs.checkRequest, Rs.parseClientUpgrade, hparse]
    dsimp only
    cases hvalid : validateClientRequest (requestHeaders fields) with
    | false => simp
    | true =>
        -- ws-rs reads the key once more, and it is there
        obtain ⟨key, hkey⟩ := Option.isSome_iff_exists.mp
          ((validateClientRequest_iff fields).mp hvalid).key
        simp [find_requestHeaders, hkey]
  · intro htab
    have hparse : Cpp.parseHttpHeaders (requestBlock first fields ++ t) =
        some (first, requestHeaders fields) := by
      rw [requestBlock, Cpp.parseHttpHeaders_raw hfirst.2 hplain,
        ofFields_raw fun f hf => HttpField.dropBlanks_raw (htab f hf), requestHeaders]
    rw [Cpp.checkRequest, hparse]
    dsimp only
    cases hvalid : validateClientRequest (requestHeaders fields) with
    | false => simp
    | true => simp

/-! ## RFC 6455 -/

/-- Spaces and tabs. -/
def isOws (b : UInt8) : Bool := b == blank || b == tab

/-- A text without the spaces and tabs around it. -/
def trimOws (s : List UInt8) : List UInt8 := (s.dropWhile isOws).rdropWhile isOws

/-- `','`. -/
def comma : UInt8 := 0x2C

/-- `';'`. -/
def semicolon : UInt8 := 0x3B

/-- The elements of a list in a value. -/
def elements (value : List UInt8) : List (List UInt8) := (value.splitOn comma).map trimOws

/-- The symbols of base64. -/
def base64Symbols : List UInt8 :=
  strBytes "ABCDEFGHIJKLMNOPQRSTUVWXYZabcdefghijklmnopqrstuvwxyz0123456789+/"

/-- The base64 form of 16 bytes: 21 symbols, one whose last four bits are zero, and the padding. -/
def IsNonce (value : List UInt8) : Prop :=
  (∀ b ∈ value.take 21, b ∈ base64Symbols) ∧ value.length = 24 ∧
    ∃ b ∈ strBytes "AQgw", value.drop 21 = b :: strBytes "=="

/-- The requests of RFC 6455, section 4.2.1. -/
structure RfcRequest (first : List UInt8) (fields : List HttpField) : Prop where
  line : ∃ target, target ≠ [] ∧ blank ∉ target ∧
    first = strBytes "GET " ++ target ++ strBytes " HTTP/1.1"
  upgrade : ∃ f ∈ fields, toLower f.name = strBytes "upgrade" ∧
    strBytes "websocket" ∈ (elements f.value).map toLower
  connection : ∃ f ∈ fields, toLower f.name = strBytes "connection" ∧
    strBytes "upgrade" ∈ (elements f.value).map toLower
  version : ∃ f ∈ fields, toLower f.name = strBytes "sec-websocket-version" ∧
    trimOws f.value = strBytes "13"
  key : ∃ f ∈ fields, toLower f.name = strBytes "sec-websocket-key" ∧ IsNonce (trimOws f.value)

/-- The requests that offer permessage-deflate: an extension of this name, with parameters or
without. -/
def RfcOffer (fields : List HttpField) : Prop :=
  ∃ f ∈ fields, toLower f.name = strBytes "sec-websocket-extensions" ∧
    ∃ element ∈ elements f.value,
      trimOws (element.takeWhile (· != semicolon)) = strBytes "permessage-deflate"

/-- What a field has to satisfy, in a form that can be evaluated. -/
def HttpField.Spelled (name lead value : List UInt8) : Prop :=
  ((∀ b ∈ name, b < 0x80) ∧ colon ∉ name ∧ ∀ b ∈ name, b ∉ asciiWhite) ∧
    (∀ b ∈ lead, b = blank ∨ b = tab) ∧ (cr ∉ value ∧ lf ∉ value) ∧ Rs.leadingWhite value = 0

instance (name lead value : List UInt8) : Decidable (HttpField.Spelled name lead value) :=
  inferInstanceAs (Decidable ((_ ∧ _ ∧ _) ∧ _ ∧ _ ∧ _))

/-- A field from its parts. -/
def HttpField.spell {name lead value : List UInt8} (h : HttpField.Spelled name lead value) :
    HttpField :=
  ⟨name, lead, value, ⟨h.1.1, h.1.2.1, h.1.2.2⟩, h.2.1, h.2.2.1, h.2.2.2⟩

lemma spelled_upgrade : HttpField.Spelled (strBytes "UPGRADE") [blank, blank]
    (strBytes "WebSocket") := by decide +kernel

lemma spelled_upgrade_list : HttpField.Spelled (strBytes "Upgrade") [blank]
    (strBytes "websocket, h2c") := by decide +kernel

lemma spelled_connection : HttpField.Spelled (strBytes "Connection") []
    (strBytes "keep-alive, Upgrade") := by decide +kernel

lemma spelled_version : HttpField.Spelled (strBytes "sec-websocket-version") [blank]
    (strBytes "13") := by decide +kernel

lemma spelled_key : HttpField.Spelled (strBytes "Sec-WebSocket-Key") [blank] sampleKey := by
  decide +kernel

lemma spelled_extensions : HttpField.Spelled (strBytes "Sec-WebSocket-Extensions") [blank]
    (strBytes "x-permessage-deflate-y") := by decide +kernel

/-- A request in an unusual spelling; the extension it offers is another one. -/
def oddRequest : List HttpField :=
  [.spell spelled_version, .spell spelled_key, .spell spelled_connection, .spell spelled_upgrade,
    .spell spelled_extensions]

/-- The same with a list of protocols to upgrade to. -/
def listRequest : List HttpField :=
  [.spell spelled_upgrade_list, .spell spelled_connection, .spell spelled_key,
    .spell spelled_version]

/-- Both servers accept the request, whatever its first line is, and grant the extension. -/
theorem accepts_odd :
    Accepted oddRequest ∧
    (∃ response, Rs.checkRequest sampleDigest
      (requestBlock (strBytes "GET / HTTP/1.1") oddRequest ++ []) = .ok (response, ⟨true⟩)) ∧
    ∃ response, Cpp.checkRequest sampleDigest
      (requestBlock (strBytes "GET / HTTP/1.1") oddRequest ++ []) = .ok (response, true) := by
  have hfirst : OneLine (strBytes "GET / HTTP/1.1") := ⟨by decide, by decide⟩
  have haccepted : Accepted oddRequest :=
    ⟨by decide +kernel, ⟨strBytes "keep-alive, Upgrade", by decide +kernel, by decide +kernel⟩,
      by decide +kernel, by decide +kernel⟩
  have hoffered : Offered oddRequest :=
    ⟨strBytes "x-permessage-deflate-y", by decide +kernel, by decide +kernel⟩
  obtain ⟨hrs, hcpp⟩ := accepts_iff sampleDigest hfirst oddRequest [] true
  exact ⟨haccepted, hrs.mpr ⟨haccepted, iff_of_true rfl hoffered⟩,
    (hcpp (by decide +kernel)).mpr ⟨haccepted, iff_of_true rfl hoffered⟩⟩

/-- Both servers accept a POST request, and grant an extension that is not permessage-deflate; both
refuse a request that names websocket among other protocols. -/
theorem acceptance_is_not_rfc :
    (¬∀ (d : Digest) (first : List UInt8) (fields : List HttpField), OneLine first →
      ((∃ r, Cpp.checkRequest d (requestBlock first fields) = .ok r) ↔
        RfcRequest first fields)) ∧
    (¬∀ (d : Digest) (first : List UInt8) (fields : List HttpField), OneLine first →
      ((∃ r, Rs.checkRequest d (requestBlock first fields) = .ok r) ↔
        RfcRequest first fields)) ∧
    ((Cpp.checkRequest sampleDigest
        (requestBlock (strBytes "POST / HTTP/1.0") oddRequest)).toOption.map Prod.snd =
          some true ∧
      (Rs.checkRequest sampleDigest
        (requestBlock (strBytes "POST / HTTP/1.0") oddRequest)).toOption.map Prod.snd =
          some ⟨true⟩ ∧
      ¬RfcRequest (strBytes "POST / HTTP/1.0") oddRequest ∧ ¬RfcOffer oddRequest) ∧
    ((Cpp.checkRequest sampleDigest (requestBlock (strBytes "GET / HTTP/1.1") listRequest)).isOk =
        false ∧
      (Rs.checkRequest sampleDigest (requestBlock (strBytes "GET / HTTP/1.1") listRequest)).isOk =
        false ∧
      RfcRequest (strBytes "GET / HTTP/1.1") listRequest) := by
  have hline : OneLine (strBytes "GET / HTTP/1.1") := ⟨by decide, by decide⟩
  -- the request line of the first is not a GET
  have hpost : ¬RfcRequest (strBytes "POST / HTTP/1.0") oddRequest := by
    rintro ⟨⟨target, -, -, heq⟩, -⟩
    have hhead : (strBytes "POST / HTTP/1.0").head? = (strBytes "GET ").head? := by
      rw [heq, List.append_assoc, List.head?_append_of_ne_nil _ (by decide)]
    exact absurd hhead (by decide)
  have hoffer : ¬RfcOffer oddRequest := by
    rw [RfcOffer]
    decide +kernel
  have hnonce : IsNonce (trimOws sampleKey) := by
    rw [IsNonce]
    decide +kernel
  -- and the second keeps every rule
  have hlist : RfcRequest (strBytes "GET / HTTP/1.1") listRequest :=
    ⟨⟨strBytes "/", by decide, by decide, by decide⟩,
      ⟨.spell spelled_upgrade_list, by simp [listRequest], by decide +kernel, by decide +kernel⟩,
      ⟨.spell spelled_connection, by simp [listRequest], by decide +kernel, by decide +kernel⟩,
      ⟨.spell spelled_version, by simp [listRequest], by decide +kernel, by decide +kernel⟩,
      ⟨.spell spelled_key, by simp [listRequest], by decide +kernel, hnonce⟩⟩
  have hcpp : (Cpp.checkRequest sampleDigest
      (requestBlock (strBytes "GET / HTTP/1.1") listRequest)).isOk = false := by decide +kernel
  have hrs : (Rs.checkRequest sampleDigest
      (requestBlock (strBytes "GET / HTTP/1.1") listRequest)).isOk = false := by decide +kernel
  refine ⟨fun hall => ?_, fun hall => ?_, ⟨by decide +kernel, by decide +kernel, hpost, hoffer⟩,
    hcpp, hrs, hlist⟩
  · obtain ⟨r, hr⟩ := (hall sampleDigest _ _ hline).mpr hlist
    rw [hr] at hcpp
    cases hcpp
  · obtain ⟨r, hr⟩ := (hall sampleDigest _ _ hline).mpr hlist
    rw [hr] at hrs
    cases hrs

end Wscpp
