import Wscpp.Handshake.Headers

/-!
# The URL of a wscpp client

`client::connect` takes a URL apart with `parse_url`: at the first `"://"`, then at the first slash
behind it, then at the first colon in front of that slash.  `WsUri` has the URIs of RFC 6455,
section 3, part by part: a scheme, which is `ws` or `wss` in upper or lower case, a host, an
optional port of any number of digits, an optional path and an optional query.  (The names are those
without a general delimiter, which is more than RFC 3986 allows.)  `WsUri.render` is the text, and
`WsUri.info` what a client has to know of it: whether to use TLS, the host, the port, and the
resource name for the request.

The three cuts are right as long as the first slash is that of the path and the first colon that of
the port (`parseUrl_of_plain`).  Four kinds of URI are not plain, and with each of them `parse_url`
gives something wrong (`parseUrl_iff`):

* the literal of an IPv6 address has colons of its own, so that the host ends inside it;
* a query may stand behind the host without a path, so that it goes to the host or to the port;
* a colon may stand without digits behind it, which means the port of the scheme, and the port given
  back is empty;
* `wss` may be spelled with upper-case letters, and the comparison is one of bytes, so that neither
  TLS nor its port is taken.
-/

namespace Wscpp.Cpp

open Lines Utf8

/-! ## The source -/

/-- `'/'`. -/
def slash : UInt8 := 0x2F

/-- `'?'`. -/
def questionMark : UInt8 := 0x3F

/-- `"://"`. -/
def schemeEnd : List UInt8 := colon :: [slash, slash]

/-- `url_info`. -/
structure UrlInfo where
  scheme : List UInt8
  host : List UInt8
  port : List UInt8
  path : List UInt8
  secure : Bool
  deriving DecidableEq, Repr

/-- The end of `parse_url`, on what stands in front of the path. -/
def parseAuthority (scheme path : List UInt8) (secure : Bool) (work : List UInt8) : UrlInfo :=
  match splitFirst colon work with
  | some (host, port) => ⟨scheme, host, port, path, secure⟩
  | none => ⟨scheme, work, if secure then strBytes "443" else strBytes "80", path, secure⟩

/-- The middle of `parse_url`, on what stands behind the scheme. -/
def parseTarget (scheme : List UInt8) (secure : Bool) (work : List UInt8) : UrlInfo :=
  match splitFirst slash work with
  | some (work, path) => parseAuthority scheme (slash :: path) secure work
  | none => parseAuthority scheme (strBytes "/") secure work

/-- `parse_url`. -/
def parseUrl (url : List UInt8) : UrlInfo :=
  match splitList schemeEnd url with
  | some (scheme, work) => parseTarget scheme (scheme == strBytes "wss") work
  | none => parseTarget (strBytes "ws") false url

/-! ## The grammar -/

/-- The general delimiters of RFC 3986: none of them is part of a name. -/
def genDelims : List UInt8 := strBytes ":/?#[]@"

/-- The symbols of an IPv6 address. -/
def ipv6Symbols : List UInt8 := strBytes "0123456789abcdefABCDEF:."

/-- The digits. -/
def digits : List UInt8 := strBytes "0123456789"

/-- `'#'`, which begins a fragment. -/
def numberSign : UInt8 := 0x23

/-- A host: a registered name or an IPv4 address, or the literal of an IPv6 address, which has a
colon. -/
inductive UriHost
  | name (text : List UInt8) (h : ∀ b ∈ text, b ∉ genDelims)
  | ipv6 (address : List UInt8) (h : ∀ b ∈ address, b ∈ ipv6Symbols) (hcolon : colon ∈ address)

namespace UriHost

/-- The host in a URI. -/
def render : UriHost → List UInt8
  | name text _ => text
  | ipv6 address _ _ => strBytes "[" ++ address ++ strBytes "]"

/-- Whether it is the literal of an IPv6 address. -/
def isIpv6 : UriHost → Bool
  | name _ _ => false
  | ipv6 _ _ _ => true

end UriHost

/-- A `ws-URI` or `wss-URI`, whose scheme may be spelled in either case.  The port is without its
colon, the path without its slash and the query without its question mark. -/
structure WsUri where
  scheme : List UInt8
  host : UriHost
  port : Option (List UInt8)
  path : Option (List UInt8)
  query : Option (List UInt8)
  scheme_name : toLower scheme = strBytes "ws" ∨ toLower scheme = strBytes "wss"
  port_digits : ∀ text ∈ port, ∀ b ∈ text, b ∈ digits
  path_plain : ∀ text ∈ path, questionMark ∉ text ∧ numberSign ∉ text
  query_plain : ∀ text ∈ query, numberSign ∉ text

namespace WsUri

/-- The URI asks for TLS. -/
def secure (u : WsUri) : Bool := toLower u.scheme == strBytes "wss"

/-- The port of the scheme. -/
def defaultPort (u : WsUri) : List UInt8 := if u.secure then strBytes "443" else strBytes "80"

/-- An optional part with what stands before it. -/
def optional (mark : UInt8) : Option (List UInt8) → List UInt8
  | none => []
  | some text => mark :: text

/-- The host and the port. -/
def authority (u : WsUri) : List UInt8 := u.host.render ++ optional colon u.port

/-- The text of the URI. -/
def render (u : WsUri) : List UInt8 :=
  u.scheme ++ schemeEnd ++
    (u.authority ++ optional slash u.path ++ optional questionMark u.query)

/-- The port given or, if there is none or it is empty, that of the scheme. -/
def effectivePort (u : WsUri) : List UInt8 :=
  match u.port with
  | none | some [] => u.defaultPort
  | some text => text

/-- What a client has to know: the port to connect to, and as path the resource name. -/
def info (u : WsUri) : UrlInfo where
  scheme := u.scheme
  host := u.host.render
  port := u.effectivePort
  path := (slash :: u.path.getD []) ++ optional questionMark u.query
  secure := u.secure

/-- The first slash is that of the path, the first colon that of a port, and the scheme is spelled
in the way that `parse_url` looks for. -/
structure Plain (u : WsUri) : Prop where
  name : u.host.isIpv6 = false
  path : u.path.isSome = true ∨ u.query = none
  port : u.port ≠ some []
  scheme : u.secure = true → u.scheme = strBytes "wss"

end WsUri

/-! ## The cuts -/

lemma WsUri.colon_notMem_scheme (u : WsUri) : colon ∉ u.scheme := by
  intro hmem
  have hlower : colon ∈ toLower u.scheme := List.mem_map.mpr ⟨colon, hmem, by decide⟩
  rcases u.scheme_name with hname | hname
  · rw [hname] at hlower
    exact absurd hlower (by decide)
  · rw [hname] at hlower
    exact absurd hlower (by decide)

/-- What `parse_url` compares, against what the scheme says. -/
lemma WsUri.scheme_beq_iff (u : WsUri) :
    (u.scheme == strBytes "wss") = u.secure ↔ (u.secure = true → u.scheme = strBytes "wss") := by
  have hspelled : u.scheme = strBytes "wss" → u.secure = true := by
    intro heq
    rw [secure, heq]
    decide
  cases hsecure : u.secure with
  | true => simp
  | false =>
      have hne : u.scheme ≠ strBytes "wss" := by
        intro heq
        rw [hspelled heq] at hsecure
        cases hsecure
      simpa using hne

/-- The scheme of the URI is found. -/
lemma parseUrl_render (u : WsUri) :
    parseUrl u.render = parseTarget u.scheme (u.scheme == strBytes "wss")
      (u.authority ++ WsUri.optional slash u.path ++ WsUri.optional questionMark u.query) := by
  have hsplit : splitList schemeEnd u.render = some (u.scheme,
      u.authority ++ WsUri.optional slash u.path ++ WsUri.optional questionMark u.query) := by
    rw [WsUri.render, List.append_assoc]
    exact splitList_append u.colon_notMem_scheme _
  rw [parseUrl, hsplit]

lemma notMem_of_genDelim {text : List UInt8} (h : ∀ b ∈ text, b ∉ genDelims) {a : UInt8}
    (ha : a ∈ genDelims) : a ∉ text := fun hmem => h a hmem ha

lemma notMem_of_ipv6 {address : List UInt8} (h : ∀ b ∈ address, b ∈ ipv6Symbols) {a : UInt8}
    (ha : a ∉ ipv6Symbols) : a ∉ address := fun hmem => ha (h a hmem)

lemma WsUri.notMem_port (u : WsUri) {a : UInt8} (ha : a ∉ digits) {text : List UInt8}
    (h : u.port = some text) : a ∉ text := fun hmem => ha (u.port_digits text h a hmem)

/-- No slash stands in front of the path. -/
lemma WsUri.slash_notMem_authority (u : WsUri) : slash ∉ u.authority := by
  have hport : slash ∉ optional colon u.port := by
    cases hp : u.port with
    | none => simp [optional]
    | some text =>
        have htext := u.notMem_port (a := slash) (by decide) hp
        simpa [optional, htext] using show slash ≠ colon by decide
  have hhost : slash ∉ u.host.render := by
    cases u.host with
    | name text h => exact notMem_of_genDelim h (by decide)
    | ipv6 address h hcolon =>
        have haddress := notMem_of_ipv6 h (a := slash) (by decide)
        simp only [UriHost.render, List.mem_append, not_or]
        exact ⟨⟨by decide, haddress⟩, by decide⟩
  rw [authority, List.mem_append]
  exact fun h => h.elim hhost hport

/-- **Where the cuts are right.** -/
lemma parseUrl_of_plain {u : WsUri} (h : u.Plain) : parseUrl u.render = u.info := by
  have hsecure := u.scheme_beq_iff.mpr h.scheme
  -- the port, once the path is off
  have hauthority : ∀ path, parseAuthority u.scheme path u.secure u.authority =
      { u.info with path := path } := by
    intro path
    have hname := h.name
    cases hhost : u.host with
    | ipv6 address h hcolon => rw [hhost] at hname; cases hname
    | name text hplain =>
        have hcolon : colon ∉ text := notMem_of_genDelim hplain (by decide)
        rw [parseAuthority, WsUri.authority, hhost]
        cases hport : u.port with
        | none =>
            simp only [UriHost.render, WsUri.optional, List.append_nil]
            rw [splitFirst_of_notMem hcolon]
            simp [WsUri.info, WsUri.effectivePort, WsUri.defaultPort, hhost, hport, UriHost.render]
        | some port =>
            obtain ⟨digit, more, rfl⟩ := List.exists_cons_of_ne_nil (l := port)
              fun hnil => h.port (hport.trans (congrArg some hnil))
            simp only [UriHost.render, WsUri.optional]
            rw [splitFirst_append hcolon]
            simp [WsUri.info, WsUri.effectivePort, hhost, hport, UriHost.render]
  rw [parseUrl_render, hsecure, parseTarget]
  cases hp : u.path with
  | some path =>
      rw [List.append_assoc, WsUri.optional, List.cons_append,
        splitFirst_append u.slash_notMem_authority]
      simp only [hauthority]
      simp [WsUri.info, hp]
  | none =>
      have hquery : u.query = none := by simpa [hp] using h.path
      rw [hquery]
      simp only [WsUri.optional, List.append_nil]
      rw [splitFirst_of_notMem u.slash_notMem_authority]
      simp only [hauthority]
      simp [WsUri.info, hp, hquery, WsUri.optional]
      rfl

/-! ## Where they are not -/

/-- What stands behind the authority goes with it up to the first slash. -/
lemma parseTarget_append {a : List UInt8} (ha : slash ∉ a) (scheme : List UInt8) (secure : Bool)
    (rest : List UInt8) :
    ∃ front path, parseTarget scheme secure (a ++ rest) =
        parseAuthority scheme path secure (a ++ front) ∧
      ∀ b t, rest = b :: t → b ≠ slash → ∃ t', front = b :: t' := by
  by_cases hmem : slash ∈ rest
  · obtain ⟨x, y, rfl, hx, -⟩ := splitFirst_of_mem hmem
    have hax : slash ∉ a ++ x := by simp [ha, hx]
    refine ⟨x, slash :: y, ?_, ?_⟩
    · rw [parseTarget, ← List.append_assoc, splitFirst_append hax]
    · intro b t heq hb
      cases x with
      | nil => exact absurd (List.cons.inj heq).1.symm hb
      | cons b' x =>
          rw [List.cons_append] at heq
          exact ⟨x, by rw [(List.cons.inj heq).1]⟩
  · have harest : slash ∉ a ++ rest := by simp [ha, hmem]
    refine ⟨rest, strBytes "/", ?_, fun b t heq _ => ⟨t, heq⟩⟩
    rw [parseTarget, splitFirst_of_notMem harest]

/-- Whether TLS is used is decided with the scheme. -/
lemma parseUrl_secure (u : WsUri) : (parseUrl u.render).secure = (u.scheme == strBytes "wss") := by
  rw [parseUrl_render, parseTarget]
  split
  · rw [parseAuthority]
    split <;> rfl
  · rw [parseAuthority]
    split <;> rfl

/-- **The literal of an IPv6 address** is cut at its first colon. -/
lemma parseUrl_of_ipv6 {u : WsUri} (h : u.host.isIpv6 = true) :
    (parseUrl u.render).host.length < u.host.render.length := by
  obtain ⟨front, path, hparse, -⟩ := parseTarget_append u.slash_notMem_authority u.scheme
    (u.scheme == strBytes "wss")
    (WsUri.optional slash u.path ++ WsUri.optional questionMark u.query)
  rw [parseUrl_render, List.append_assoc, hparse, WsUri.authority]
  cases hhost : u.host with
  | name text hplain => rw [hhost] at h; cases h
  | ipv6 address hsymbols hcolon =>
      obtain ⟨x, y, rfl, hx, -⟩ := splitFirst_of_mem hcolon
      have hfront : colon ∉ strBytes "[" ++ x := by
        rw [List.mem_append]
        exact fun h => h.elim (by decide) hx
      have hsplit : (UriHost.ipv6 (x ++ colon :: y) hsymbols hcolon).render ++
          WsUri.optional colon u.port ++ front = (strBytes "[" ++ x) ++
            colon :: (y ++ strBytes "]" ++ WsUri.optional colon u.port ++ front) := by
        simp [UriHost.render]
      rw [parseAuthority, hsplit, splitFirst_append hfront]
      simp only [UriHost.render, List.length_append, List.length_cons]
      omega

/-- The port to connect to is made of digits. -/
lemma WsUri.questionMark_notMem_effectivePort (u : WsUri) : questionMark ∉ u.effectivePort := by
  have hdefault : questionMark ∉ u.defaultPort := by
    rw [defaultPort]
    split <;> decide
  rw [effectivePort]
  split
  · exact hdefault
  · exact hdefault
  · rename_i text hport
    exact u.notMem_port (by decide) hport

/-- **Behind a colon** `parse_url` takes what there is. -/
lemma parseUrl_of_port {u : WsUri} (hname : u.host.isIpv6 = false) {port : List UInt8}
    (hport : u.port = some port) :
    ∃ front, (parseUrl u.render).port = port ++ front ∧
      (∀ query, u.path = none → u.query = some query → questionMark ∈ front) ∧
      (u.path.isSome = true ∨ u.query = none → front = []) := by
  cases hhost : u.host with
  | ipv6 address h hcolon => rw [hhost] at hname; cases hname
  | name text hplain =>
      have hcolon : colon ∉ text := notMem_of_genDelim hplain (by decide)
      -- the name has no colon, so the cut is behind it
      have hcut : ∀ scheme secure path front,
          (parseAuthority scheme path secure (u.authority ++ front)).port = port ++ front := by
        intro scheme secure path front
        rw [parseAuthority, WsUri.authority, hhost, hport, WsUri.optional, UriHost.render,
          List.append_assoc, List.cons_append, splitFirst_append hcolon]
      rw [parseUrl_render]
      cases hpath : u.path with
      | some path =>
          refine ⟨[], ?_, by simp, fun _ => rfl⟩
          rw [List.append_assoc, WsUri.optional, List.cons_append, parseTarget,
            splitFirst_append u.slash_notMem_authority]
          simpa using hcut _ _ _ []
      | none =>
          -- without a path, the query is searched for the slash
          obtain ⟨front, path, hparse, hfront⟩ := parseTarget_append u.slash_notMem_authority
            u.scheme (u.scheme == strBytes "wss") (WsUri.optional questionMark u.query)
          cases hquery : u.query with
          | none =>
              refine ⟨[], ?_, by simp, fun _ => rfl⟩
              simp only [WsUri.optional, List.append_nil]
              rw [parseTarget, splitFirst_of_notMem u.slash_notMem_authority]
              simpa using hcut _ _ _ []
          | some query =>
              rw [hquery] at hparse hfront
              obtain ⟨front, rfl⟩ := hfront questionMark query rfl (by decide)
              refine ⟨questionMark :: front, ?_, by simp, by simp⟩
              rw [show WsUri.optional slash none = [] from rfl, List.append_nil, hparse]
              exact hcut _ _ _ _

/-- **A query without a path** goes to the host or to the port. -/
lemma parseUrl_of_query {u : WsUri} (hname : u.host.isIpv6 = false) (hpath : u.path = none)
    {query : List UInt8} (hquery : u.query = some query) : parseUrl u.render ≠ u.info := by
  intro heq
  cases hport : u.port with
  | some port =>
      -- a port is made of digits, and this one has the question mark
      obtain ⟨front, hparse, hmark, -⟩ := parseUrl_of_port hname hport
      have hmem : questionMark ∈ u.effectivePort := by
        rw [show u.effectivePort = u.info.port from rfl, ← heq, hparse]
        exact List.mem_append_right _ (hmark query hpath hquery)
      exact u.questionMark_notMem_effectivePort hmem
  | none =>
      obtain ⟨front, path, hparse, hfront⟩ := parseTarget_append u.slash_notMem_authority u.scheme
        (u.scheme == strBytes "wss") (WsUri.optional questionMark u.query)
      rw [parseUrl_render, hpath, show WsUri.optional slash none = [] from rfl, List.append_nil,
        hparse, parseAuthority, WsUri.authority] at heq
      obtain ⟨front, rfl⟩ := hfront questionMark query (by rw [hquery]; rfl) (by decide)
      cases hhost : u.host with
      | ipv6 address h hcolon => rw [hhost] at hname; cases hname
      | name text hplain =>
          have hcolon : colon ∉ text := notMem_of_genDelim hplain (by decide)
          rw [hhost, hport, WsUri.optional, UriHost.render, List.append_nil] at heq
          have hhosts := congrArg (List.length ∘ UrlInfo.host) heq
          by_cases hmem : colon ∈ front
          · obtain ⟨x, y, rfl, hx, -⟩ := splitFirst_of_mem hmem
            have hbefore : colon ∉ text ++ questionMark :: x := by
              simp only [List.mem_append, List.mem_cons, not_or]
              exact ⟨hcolon, by decide, hx⟩
            have hsplit : text ++ questionMark :: (x ++ colon :: y) =
                (text ++ questionMark :: x) ++ colon :: y := by simp
            rw [hsplit, splitFirst_append hbefore] at hhosts
            simp [WsUri.info, hhost, UriHost.render] at hhosts
          · have hall : colon ∉ text ++ questionMark :: front := by
              simp only [List.mem_append, List.mem_cons, not_or]
              exact ⟨hcolon, by decide, hmem⟩
            rw [splitFirst_of_notMem hall] at hhosts
            simp [WsUri.info, hhost, UriHost.render] at hhosts

/-- **A colon without a port** gives an empty one. -/
lemma parseUrl_of_empty_port {u : WsUri} (hname : u.host.isIpv6 = false)
    (hpath : u.path.isSome = true ∨ u.query = none) (hport : u.port = some []) :
    parseUrl u.render ≠ u.info := by
  intro heq
  obtain ⟨front, hparse, -, hfront⟩ := parseUrl_of_port hname hport
  rw [hfront hpath, heq] at hparse
  have hdefault : u.info.port = u.defaultPort := by
    simp [WsUri.info, WsUri.effectivePort, hport]
  rw [hdefault, WsUri.defaultPort] at hparse
  split at hparse
  · exact absurd hparse (by decide)
  · exact absurd hparse (by decide)

/-- **When `parse_url` is right.**  For every URI, `parse_url` gives the scheme, the host, the port,
the resource name and whether TLS is asked for, if and only if the host is not the literal of an
IPv6 address, there is a path or no query, no colon stands without a port, and `wss` is spelled in
lower case. -/
theorem parseUrl_iff (u : WsUri) :
    parseUrl u.render = u.info ↔
      u.host.isIpv6 = false ∧ (u.path.isSome = true ∨ u.query = none) ∧ u.port ≠ some [] ∧
        (u.secure = true → u.scheme = strBytes "wss") := by
  refine ⟨fun heq => ?_, fun ⟨hname, hpath, hport, hscheme⟩ =>
    parseUrl_of_plain ⟨hname, hpath, hport, hscheme⟩⟩
  have hname : u.host.isIpv6 = false := by
    by_contra hipv6
    have hshort := parseUrl_of_ipv6 (u := u) (by simpa using hipv6)
    rw [heq] at hshort
    exact absurd hshort (Nat.lt_irrefl _)
  have hpath : u.path.isSome = true ∨ u.query = none := by
    cases hpath : u.path with
    | some path => exact .inl rfl
    | none =>
        cases hquery : u.query with
        | none => exact .inr rfl
        | some query => exact absurd heq (parseUrl_of_query hname hpath hquery)
  refine ⟨hname, hpath, fun hport => parseUrl_of_empty_port hname hpath hport heq, ?_⟩
  rw [← u.scheme_beq_iff, ← parseUrl_secure, heq]
  rfl

/-- The URI `wss://example.com:8443/chat?to=a/b://c`. -/
example : parseUrl (strBytes "wss://example.com:8443/chat?to=a/b://c") =
    ⟨strBytes "wss", strBytes "example.com", strBytes "8443", strBytes "/chat?to=a/b://c",
      true⟩ := by
  decide +kernel

/-- `WSS://h/chat`. -/
def shouted : WsUri where
  scheme := strBytes "WSS"
  host := .name (strBytes "h") (by decide +kernel)
  port := none
  path := some (strBytes "chat")
  query := none
  scheme_name := .inr (by decide)
  port_digits := by simp
  path_plain := by
    intro text htext
    obtain rfl := Option.some.inj htext
    decide
  query_plain := by simp

/-- The host of `ws://[::1]/` becomes a bracket, that of `ws://h?q` keeps the query, `ws://h:/` has
no port any more, and `WSS://h/chat` is taken for a URI without TLS. -/
theorem parseUrl_wrong :
    (¬∀ u : WsUri, parseUrl u.render = u.info) ∧
    parseUrl (strBytes "ws://[::1]/") =
      ⟨strBytes "ws", strBytes "[", strBytes ":1]", strBytes "/", false⟩ ∧
    parseUrl (strBytes "ws://h?q") =
      ⟨strBytes "ws", strBytes "h?q", strBytes "80", strBytes "/", false⟩ ∧
    parseUrl (strBytes "ws://h:/") =
      ⟨strBytes "ws", strBytes "h", [], strBytes "/", false⟩ ∧
    shouted.render = strBytes "WSS://h/chat" ∧ shouted.info.secure = true ∧
    parseUrl (strBytes "WSS://h/chat") =
      ⟨strBytes "WSS", strBytes "h", strBytes "80", strBytes "/chat", false⟩ := by
  have hrender : shouted.render = strBytes "WSS://h/chat" := by decide
  have hshouted : parseUrl (strBytes "WSS://h/chat") =
      ⟨strBytes "WSS", strBytes "h", strBytes "80", strBytes "/chat", false⟩ := by
    decide +kernel
  refine ⟨fun hall => ?_, by decide +kernel, by decide +kernel, by decide +kernel, hrender,
    by decide, hshouted⟩
  have hsecure := congrArg UrlInfo.secure (hall shouted)
  rw [hrender, hshouted] at hsecure
  exact absurd hsecure (by decide)

end Wscpp.Cpp
