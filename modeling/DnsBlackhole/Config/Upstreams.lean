/-
  Addresses and servers in the configuration (`config.rs`): socket addresses of
  the standard library, hostnames, upstream and bootstrap servers, and lists of
  clients.

  An error is its message.  `parseUrl` is `reqwest::Url::parse`.
-/
import DnsBlackhole.Filter.LocalReverse

namespace DnsBlackhole.Config

/-! ## Socket addresses -/

structure SocketAddr where
  ip : IpAddr
  port : UInt16
  /-- The zone of an IPv6 address. -/
  scopeId : ℕ := 0
  deriving DecidableEq

def readPort : Reader UInt16 := fun t => do
  let (_, t) ← readGivenChar ':' t
  let (port, t) ← readNumber 10 t.length true 65536 t
  some (.ofNat port, t)

def readScopeId : Reader ℕ := fun t => do
  let (_, t) ← readGivenChar '%' t
  readNumber 10 t.length true 4294967296 t

def readSocketAddrV4 : Reader SocketAddr := fun t => do
  let (ip, t) ← readIpv4Addr t
  let (port, t) ← readPort t
  some (⟨.v4 ip, port, 0⟩, t)

def readSocketAddrV6 : Reader SocketAddr := fun t => do
  let (_, t) ← readGivenChar '[' t
  let (ip, t) ← readIpv6Addr t
  let (scopeId, t) := (readScopeId t).getD (0, t)
  let (_, t) ← readGivenChar ']' t
  let (port, t) ← readPort t
  some (⟨.v6 ip, port, scopeId⟩, t)

def SocketAddr.display (addr : SocketAddr) : Text :=
  let port := ':' :: Nat.toDigits 10 addr.port.toNat
  match addr.ip with
  | .v4 ip => ip.display ++ port
  | .v6 ip =>
    let scope := if addr.scopeId = 0 then [] else '%' :: Nat.toDigits 10 addr.scopeId
    '[' :: ip.display ++ scope ++ ']' :: port

/-- `SocketAddr::from_str`. -/
def parseSocketAddr (t : Text) : Option SocketAddr :=
  parseWith (fun t => (readSocketAddrV4 t).or (readSocketAddrV6 t)) t

/-! ## Lines -/

def isComment (t : Text) : Bool := t.isEmpty || t.startsWith '#' || t.startsWith '!'

/-- The lines that say something, trimmed. -/
def configLines (value : Text) : List Text := (value.lines.map Text.trim).filter (!isComment ·)

/-- The same, with the index of each line. -/
def numberedLines (value : Text) : List (Text × ℕ) :=
  (value.lines.zipIdx.map fun (line, index) => (line.trim, index)).filter (!isComment ·.1)

/-- The number of a line. -/
def lineNumber (index : ℕ) : Text := Nat.toDigits 10 (index + 1)

/-- The first word of each line that has one and is not a comment. -/
def firstWords (value : Text) : List (Text × ℕ) :=
  (value.lines.zipIdx.map fun (line, index) =>
    (line.splitWhitespace.headD [], index)).filter (!isComment ·.1)

def require (ok : Prop) [Decidable ok] (message : Text) : Except Text Unit :=
  if ok then .ok () else .error message

theorem require_eq_ok {ok : Prop} [Decidable ok] {message : Text} :
    require ok message = .ok () ↔ ok := by
  unfold require
  split_ifs with hok
  · exact iff_of_true rfl hok
  · exact iff_of_false (fun h => by cases h) hok

theorem require_bind_eq_ok {α : Type} {ok : Prop} [Decidable ok] {message : Text}
    {f : Unit → Except Text α} {a : α} :
    (require ok message >>= f) = .ok a ↔ ok ∧ f () = .ok a := by
  unfold require
  split_ifs with hok
  · exact ⟨fun h => ⟨hok, h⟩, fun h => h.2⟩
  · exact ⟨nofun, fun h => absurd h.1 hok⟩

/-- `Option::ok_or` -/
def okOr {α : Type} (value : Option α) (message : Text) : Except Text α :=
  match value with
  | some a => .ok a
  | none => .error message

theorem okOr_eq_ok {α : Type} {value : Option α} {message : Text} {a : α} :
    okOr value message = .ok a ↔ value = some a := by
  cases value with
  | none => exact iff_of_false (fun h => by cases h) fun h => by cases h
  | some b => exact ⟨fun h => by cases h; rfl, fun h => by cases h; rfl⟩

/-! ## Hostnames and networks -/

def normalizeHostname (value : Text) : Option Text :=
  let hostname := (value.trim.trimEndMatches '.').toAsciiLowercase
  if hostname = [] ∨ 253 < hostname.len then none
  else if (hostname.split (· == '.')).any fun label =>
    label.isEmpty || 63 < label.len || label.startsWith '-' || label.endsWith '-' then none
  else if !hostname.all fun ch => ch.isAlphanum || ch == '-' || ch == '.' then none
  else some hostname

/-- A host, perhaps in brackets, and its port. -/
def splitHostPort (value : Text) : Option (Text × UInt16) :=
  let withPort := do
    let (host, port) ← value.rsplitOnce (· == ':')
    let port ← port.parseU16
    let bracket (c : Char) : Bool := c == '[' || c == ']'
    some ((host.dropWhile bracket).rdropWhile bracket, port)
  withPort.or ((normalizeHostname value).map fun _ => (value, 53))

def validateIpOrCidr (value : Text) : Bool :=
  (parseIpAddr value).isSome ||
    match value.splitOnce (· == '/') with
    | some (ip, prefixLen) =>
      match parseIpAddr ip, Filter.parseU8 prefixLen with
      | some (.v4 _), some prefixLen => prefixLen ≤ 32
      | some (.v6 _), some prefixLen => prefixLen ≤ 128
      | _, _ => false
    | none => false

def validateClientList (value label : Text) : Except Text Unit :=
  (firstWords value).forM fun (item, index) =>
    require (validateIpOrCidr item) (label ++ "第 ".toList ++ lineNumber index ++
      " 行必须是 IP 地址或 CIDR 网段：".toList ++ item)

/-! ## Servers -/

/-- What the program asks of a `Url`. -/
structure Url where
  scheme : Text
  username : Text
  password : Option Text
  hostStr : Option Text
  port : Option UInt16
  portOrKnownDefault : Option UInt16
  path : Text
  query : Option Text
  fragment : Option Text

inductive UpstreamServer
  | udp (addr : SocketAddr)
  | udpHostname (hostname : Text) (port : UInt16)
  | doh (url : Text)
  | tls (hostname : Text) (port : UInt16)
  | quic (hostname : Text) (port : UInt16)
  deriving DecidableEq

/-- `is_insecure_doh` -/
def UpstreamServer.isInsecureDoh : UpstreamServer → Bool
  | doh url => "http://".toList.isPrefixOf url
  | _ => false

def parseDnsUpstream (value : Text) : Except Text UpstreamServer :=
  let trimmed := value.trim
  if trimmed = [] then .error "上游 DNS 不能为空".toList
  else match parseSocketAddr trimmed, parseIpAddr trimmed, (do
      let (host, port) ← splitHostPort trimmed
      let host ← normalizeHostname host
      some (host, port)) with
    | some addr, _, _ => .ok (.udp addr)
    | none, some ip, _ => .ok (.udp { ip, port := 53 })
    | none, none, some (hostname, port) => .ok (.udpHostname hostname port)
    | none, none, none =>
      .error "上游 DNS 必须是 IP、IP:端口、域名:端口、DoH、DoT 或 DoQ 地址".toList

section
variable (parseUrl : Text → Except Text Url)

def parseEncryptedUpstream (value expectedScheme : Text) (build : Text → UInt16 → UpstreamServer) :
    Except Text UpstreamServer := do
  let url ← (parseUrl value).mapError ("加密 DNS 地址无效：".toList ++ ·)
  require (url.scheme = expectedScheme ∧ url.username = [] ∧ url.password = none ∧
      url.query = none ∧ url.fragment = none ∧ (url.path = [] ∨ url.path = ['/']))
    (expectedScheme.toAsciiUppercase ++ " 上游格式必须是 ".toList ++ expectedScheme ++
      "://主机名[:端口]".toList)
  let hostname ← okOr (url.hostStr.bind normalizeHostname) "加密 DNS 上游必须包含有效主机名".toList
  require ((parseIpAddr hostname).isNone)
    "加密 DNS 上游必须使用证书对应的主机名，不能直接填写 IP".toList
  return build hostname (url.port.getD 853)

def parseDohUpstream (value : Text) : Except Text UpstreamServer := do
  let url ← (parseUrl value).mapError ("DoH 地址无效：".toList ++ ·)
  require (url.hostStr.isSome ∧ url.portOrKnownDefault.isSome)
    "DoH 地址必须包含有效主机名和端口".toList
  return .doh value

def parseUpstreamServer (value : Text) (allowInsecureHttp : Bool) : Except Text UpstreamServer :=
  if "tls://".toList.isPrefixOf value then
    parseEncryptedUpstream parseUrl value "tls".toList .tls
  else if "quic://".toList.isPrefixOf value then
    parseEncryptedUpstream parseUrl value "quic".toList .quic
  else if "https://".toList.isPrefixOf value then parseDohUpstream parseUrl value
  else if "http://".toList.isPrefixOf value then
    if allowInsecureHttp then parseDohUpstream parseUrl value
    else .error ("HTTP DoH 上游不安全。默认只允许 HTTPS DoH；".toList ++
      "如确需使用，请在安全防护中启用“允许不安全 HTTP”。".toList)
  else parseDnsUpstream value

def parseOptionalUpstreamServers (value : Text) (allowInsecureHttp : Bool) :
    Except Text (List UpstreamServer) :=
  (configLines value).mapM fun line => parseUpstreamServer parseUrl line allowInsecureHttp

def parseUpstreamServers (value : Text) (allowInsecureHttp : Bool) :
    Except Text (List UpstreamServer) := do
  let servers ← parseOptionalUpstreamServers parseUrl value allowInsecureHttp
  require (servers ≠ []) "上游 DNS 不能为空".toList
  return servers

end

def parseBootstrapServers (value : Text) : Except Text (List SocketAddr) :=
  (firstWords value).mapM fun (item, index) =>
    okOr ((parseSocketAddr item).or ((parseIpAddr item).map fun ip => { ip, port := 53 }))
      ("Bootstrap DNS 第 ".toList ++ lineNumber index ++ " 行必须是 IP 或 IP:端口：".toList ++ item)

end DnsBlackhole.Config
