import Mathlib.Data.List.DropRight
import Multiplexd.Lib.Json
import Multiplexd.Limits
import Multiplexd.Mime

/-!
# The configuration

`conf_parse` takes an object from the JSON codec, loads it with clamps and changes of unit, and checks
and completes what it has loaded; `conf_dump` goes the other way (`conf.c`). The codec itself is a
parameter: it restores every field it was given, puts the default of the schema where there was none and
refuses what the schema forbids (`conf_schema.gen.c`). A raw fragment of a dynamic map is taken in the
parsed form that `json_obj_next` walks. The build is one with TLS and with TCP_NOTSENT_LOWAT.
-/

namespace Multiplexd

abbrev Octets := List UInt8

def uintMax : Nat := 2 ^ 32 - 1

def uintmaxMax : Nat := 2 ^ 64 - 1

/-- The cast of `unsigned`. -/
def unsigned (n : Nat) : Nat := n % 2 ^ 32

/-- `CLAMP` -/
def clamp (v lo hi : Nat) : Nat := if v < lo then lo else if hi < v then hi else v

def addrMaxStrlen : Nat := 261
def tlsPskMinLen : Nat := 32
def tlsPskMaxLen : Nat := 64
def confMaxsize : Nat := 65535

/-! ### What the codec reads and writes -/

/-- A raw fragment, as `json_obj_next` walks it: the members with the string each holds, if it is one,
and whether the walk comes to the end of the object. -/
inductive Fragment where
  | object (members : List (Octets × Option Octets)) (closed : Bool)
  | other
deriving DecidableEq

structure JsonConfTls where
  alpn : Option Octets := none
  cert : Option Octets := none
  ciphersuites : Option Octets := none
  key : Option Octets := none
  sni : Option Octets := none
  authcerts : List Octets := []
  pskJson : Option Fragment := none
  kernelOffload : Bool := true
  socketOffload : Bool := false
deriving DecidableEq

/-- `json_conf_tcp` and `json_conf_mux_tcp` -/
structure JsonConfTcp where
  backlog : Nat := 16
  notsentLowat : Nat
  rcvbuf : Nat := 0
  sndbuf : Nat := 0
  keepalive : Bool
  nodelay : Bool := true
  reuseport : Bool := false
deriving DecidableEq

structure JsonConfMuxMemPressure where
  hi : Nat := 0
  lo : Nat := 0
deriving DecidableEq

structure JsonConfMuxLossymux where
  idleTimeout : Nat := 60
  queue : Nat := 64
  enabled : Bool := false
deriving DecidableEq

structure JsonConfMux where
  lossymux : JsonConfMuxLossymux := {}
  memPressure : JsonConfMuxMemPressure := {}
  tcp : JsonConfTcp := { notsentLowat := 131072, keepalive := false }
  connectTimeout : Nat := 15
  idleTimeout : Nat := 0
  keepalive : Nat := 7200
  maxFrameSize : Nat := 16384
  maxHalfopen : Nat := 256
  maxStreams : Nat := 0
  readahead : Nat := 131072
  resumeTimeout : Nat := 600
  sendTimeout : Nat := 15
  sessionWindow : Nat := 0
  streamWindow : Nat := 0
  nodelay : Bool := true
deriving DecidableEq

structure JsonConfIdentity where
  claim : Option Octets := none
  muxConnect : List Octets := []
  listenJson : Option Fragment := none
  verify : Bool := false
deriving DecidableEq

structure JsonConf where
  identity : JsonConfIdentity := {}
  mux : JsonConfMux := {}
  tcp : JsonConfTcp := { notsentLowat := 0, keepalive := true }
  tls : JsonConfTls := {}
  apiListen : Option Octets := none
  connect : Option Octets := none
  listen : Option Octets := none
  log : Option Octets := none
  maxStartups : Option Octets := none
  muxConnect : Option Octets := none
  muxListen : Option Octets := none
  type : Option Octets := none
  loglevel : Nat := 4
  maxSessions : Nat := 0
deriving DecidableEq

def sniDefault : Octets := ascii "example.com"

namespace JsonConf

def withinLen (n : Nat) (s : Option Octets) : Bool := s.all fun s => s.length ≤ n

def logEnum : List Octets :=
  [ascii "stdout", ascii "stderr", ascii "terminal", ascii "syslog", ascii "discard"]

def tcpValid (tcp : JsonConfTcp) : Bool :=
  1 ≤ tcp.backlog && tcp.backlog ≤ 4096 && tcp.notsentLowat ≤ uintmaxMax && tcp.rcvbuf ≤ uintmaxMax &&
    tcp.sndbuf ≤ uintmaxMax

def muxValid (mux : JsonConfMux) : Bool :=
  1 ≤ mux.lossymux.idleTimeout && mux.lossymux.idleTimeout ≤ 86400 && 1 ≤ mux.lossymux.queue &&
    mux.lossymux.queue ≤ 65535 && mux.memPressure.hi ≤ uintmaxMax && mux.memPressure.lo ≤ uintmaxMax &&
    tcpValid mux.tcp && mux.connectTimeout ≤ 86400 && mux.idleTimeout ≤ 86400 && mux.keepalive ≤ 86400 &&
    1024 ≤ mux.maxFrameSize && mux.maxFrameSize ≤ 65543 && mux.maxHalfopen ≤ 4096 &&
    mux.maxStreams ≤ uintmaxMax && mux.readahead ≤ 16777216 && mux.resumeTimeout ≤ 86400 &&
    mux.sendTimeout ≤ 86400 && mux.sessionWindow ≤ 1073725440 && mux.streamWindow ≤ 1073725440

def identityValid (identity : JsonConfIdentity) : Bool :=
  withinLen 63 identity.claim && identity.muxConnect.all fun s => s.length ≤ 261

/-- The constraints of the schema. Of `tls.authcerts` only a list that is given is checked, and an empty
one is refused, so that every list is as good as another here. -/
def valid (obj : JsonConf) : Bool :=
  identityValid obj.identity && muxValid obj.mux && tcpValid obj.tcp && withinLen 261 obj.apiListen &&
    withinLen 261 obj.connect && withinLen 261 obj.listen && (obj.log.all fun s => logEnum.contains s) &&
    withinLen 261 obj.muxConnect && withinLen 261 obj.muxListen && obj.loglevel ≤ uintmaxMax &&
    obj.maxSessions ≤ uintmaxMax

def withDefaults (obj : JsonConf) : JsonConf :=
  { obj with tls := { obj.tls with sni := obj.tls.sni.or (some sniDefault) } }

end JsonConf

/-- The codec of a configuration, over texts `T`; `indent` is that of `json_marshal`. -/
structure ConfCodec (T : Type) where
  length : T → Nat
  jsonUnmarshal : T → Option JsonConf
  jsonMarshal : JsonConf → Option Octets → Option T
  /-- What is accepted meets the constraints of the schema and has its defaults. -/
  accepted : ∀ {text obj}, jsonUnmarshal text = some obj → obj.valid ∧ obj.withDefaults = obj
  /-- What is written reads back with every field it was given. -/
  restored : ∀ {obj indent text}, jsonMarshal obj indent = some text → obj.valid →
    jsonUnmarshal text = some obj.withDefaults

structure SocketOpts where
  tcpKeepalive : Bool
  tcpNodelay : Bool
  tcpReuseport : Bool
  tcpSndbuf : Nat
  tcpRcvbuf : Nat
  tcpNotsentLowat : Nat
  backlog : Nat
deriving DecidableEq

/-- `struct mux_session_config`, as far as it is configured. The C type of the numbers is `int`; what
is loaded into them fits. -/
structure MuxConf where
  nodelay : Bool
  maxHalfopen : Nat
  maxStreams : Nat
  connectTimeout : Nat
  keepalive : Nat
  timeout : Nat
  sendTimeout : Nat
  idleTimeout : Nat
  resumeTimeout : Nat
  sessionWindow : Nat
  streamWindow : Nat
  maxFramePayload : Nat
  readahead : Nat
  memPressureHi : Nat
  memPressureLo : Nat
  lossymux : Bool
  lossymuxIdleTimeout : Nat
  lossymuxQueue : Nat
deriving DecidableEq

structure PskEntry where
  id : Octets
  hex : Octets
deriving DecidableEq

structure IdentityPeer where
  id : Octets
  listen : Option Octets
deriving DecidableEq

structure ConfIdentity where
  claim : Option Octets
  muxConnect : List Octets
  peers : List IdentityPeer
  verify : Bool
deriving DecidableEq

structure ConfTls where
  cert : Option Octets
  key : Option Octets
  ciphersuites : Option Octets
  sni : Option Octets
  alpn : Option Octets
  authcerts : List Octets
  authcertsBundle : Option Octets
  kernelOffload : Bool
  socketOffload : Bool
  psk : List PskEntry
deriving DecidableEq

structure Config where
  type : Option Octets
  apiListen : Option Octets
  muxListen : Option Octets
  muxConnect : Option Octets
  listen : Option Octets
  connect : Option Octets
  tls : ConfTls
  mux : MuxConf
  muxTcp : SocketOpts
  tcp : SocketOpts
  identity : ConfIdentity
  log : Option Octets
  loglevel : Nat
  maxSessions : Nat
  startupLimitStart : Nat
  startupLimitRate : Nat
  startupLimitFull : Nat
deriving DecidableEq

/-- Why a configuration is refused. -/
inductive ConfError where
  | tooLarge
  | unmarshal
  | embeddedNul (field : String)
  | maxStartups
  | notAnObject (field : String)
  | notAString (field : String) (key : Octets)
  | malformedObject (field : String)
  | duplicatePsk (id : Octets)
  | unsupportedType
  | malformedType
  | unsupportedVersion
  | noTransport
  | pskExclusive
  | pskIdentity (id : Octets)
  | pskLength (id : Octets)
  | pskNotHex (id : Octets)
  | incompleteTls
  | verifyWithPsk
  | verifyWithoutTls
  | startupRate
  | startupRange
  | memPressure
  | listenKey (id : Octets)
  | listenAddress (id : Octets)
  | claimRequired
  | inlineField (field : String)
deriving DecidableEq

def confStrndup (field : String) (s : Octets) : Except ConfError Octets :=
  if 0 ∈ s then .error (.embeddedNul field) else .ok s

/-- `STRNDUP_FIELD` -/
def strndupField (field : String) : Option Octets → Except ConfError (Option Octets)
  | none => .ok none
  | some s => (confStrndup field s).map some

def confLoadStringArr (field : String) (src : List Octets) : Except ConfError (List Octets) :=
  src.mapM (confStrndup field)

def parseStartupsField (s : Octets) (sep : Option UInt8) : Option (Nat × Octets) :=
  if (s.head?.map Json.Compact.isDigit).getD false then
    let (v, rest) := Json.Compact.readDecimal s
    if rest.head? ≠ sep ∨ Json.intMax < v then none else some (v, rest.drop 1)
  else none

/-- `conf_parse_max_startups`: start, rate and full, which are 0 where there is none. The text ends at its
first NUL. -/
def confParseMaxStartups : Option Octets → Except ConfError (Nat × Nat × Nat)
  | none => .ok (0, 0, 0)
  | some s =>
    let parsed := do
      let (start, s) ← parseStartupsField (s.takeWhile (· ≠ 0)) (some Json.colon)
      let (rate, s) ← parseStartupsField s (some Json.colon)
      let (full, _) ← parseStartupsField s none
      some (start, rate, full)
    match parsed with
    | none => .error .maxStartups
    | some limits => .ok limits

/-- One round of `conf_walk_map`: a key that begins with a minus sign is a comment. -/
def confWalkPair {α : Type} (field : String) (cb : List α → Octets → Octets → Except ConfError (List α))
    (entries : List α) (member : Octets × Option Octets) : Except ConfError (List α) :=
  if member.1.head? = some 0x2d then .ok entries
  else
    match member.2 with
    | none => .error (.notAString field member.1)
    | some s => cb entries member.1 s

def confWalkMap {α : Type} (field : String) (cb : List α → Octets → Octets → Except ConfError (List α)) :
    Option Fragment → Except ConfError (List α)
  | none => .ok []
  | some .other => .error (.notAnObject field)
  | some (.object members closed) => do
    let entries ← members.foldlM (confWalkPair field cb) []
    if closed then .ok entries else .error (.malformedObject field)

def pskMapCb (psk : List PskEntry) (key val : Octets) : Except ConfError (List PskEntry) :=
  if psk.any (·.id = key) then .error (.duplicatePsk key)
  else do
    let id ← confStrndup "tls.psk key" key
    let hex ← confStrndup "tls.psk value" val
    .ok (psk ++ [{ id := id, hex := hex }])

/-- `identity_listen_cb`: the last value of a key wins, in the place of the first. -/
def identityListenCb (peers : List IdentityPeer) (key val : Octets) : Except ConfError (List IdentityPeer) :=
  if peers.any (·.id = key) then do
    let listen ← confStrndup "identity.listen value" val
    .ok (peers.map fun p => if p.id = key then { p with listen := some listen } else p)
  else do
    let id ← confStrndup "identity.listen key" key
    let listen ← confStrndup "identity.listen value" val
    .ok (peers ++ [{ id := id, listen := some listen }])

def confLoadTls (obj : JsonConfTls) : Except ConfError ConfTls := do
  let cert ← strndupField "tls.cert" obj.cert
  let key ← strndupField "tls.key" obj.key
  let ciphersuites ← strndupField "tls.ciphersuites" obj.ciphersuites
  let sni ← strndupField "tls.sni" obj.sni
  let alpn ← strndupField "tls.alpn" obj.alpn
  let authcerts ← confLoadStringArr "tls.authcerts[]" obj.authcerts
  let psk ← confWalkMap "tls.psk" pskMapCb obj.pskJson
  .ok {
    cert, key, ciphersuites, sni, alpn, authcerts, psk
    authcertsBundle := none
    socketOffload := obj.socketOffload
    kernelOffload := obj.socketOffload && obj.kernelOffload }

/-- `LOAD_SOCKET_OPTS` -/
def loadSocketOpts (src : JsonConfTcp) : SocketOpts where
  tcpReuseport := src.reuseport
  tcpKeepalive := src.keepalive
  tcpNodelay := src.nodelay
  tcpSndbuf := min src.sndbuf Json.intMax
  tcpRcvbuf := min src.rcvbuf Json.intMax
  tcpNotsentLowat := min src.notsentLowat Json.intMax
  backlog := src.backlog

/-- A window in octets, in units. -/
def windowUnits (octets : Nat) : Nat := if octets = 0 then 0 else clamp (octets / windowUnit) 4 65535

def confLoadMux (obj : JsonConfMux) : MuxConf where
  nodelay := obj.nodelay
  maxHalfopen := obj.maxHalfopen
  maxStreams := min obj.maxStreams Json.intMax
  connectTimeout := obj.connectTimeout
  keepalive := obj.keepalive
  timeout := 0
  sendTimeout := obj.sendTimeout
  idleTimeout := obj.idleTimeout
  resumeTimeout := obj.resumeTimeout
  sessionWindow := windowUnits obj.sessionWindow
  streamWindow := windowUnits obj.streamWindow
  maxFramePayload := clamp (obj.maxFrameSize - frameHeaderSize) minFramePayload maxPayloadSize
  readahead := obj.readahead
  memPressureHi := min obj.memPressure.hi Json.intMax
  memPressureLo := min obj.memPressure.lo Json.intMax
  lossymux := obj.lossymux.enabled
  lossymuxIdleTimeout := obj.lossymux.idleTimeout
  lossymuxQueue := obj.lossymux.queue

def confLoadIdentity (obj : JsonConfIdentity) : Except ConfError ConfIdentity := do
  let claim ← strndupField "identity.claim" obj.claim
  let muxConnect ← confLoadStringArr "identity.mux_connect[]" obj.muxConnect
  let peers ← confWalkMap "identity.listen" identityListenCb obj.listenJson
  .ok { claim, muxConnect, peers, verify := obj.verify }

def confLoad (obj : JsonConf) : Except ConfError Config := do
  let type ← strndupField "type" obj.type
  let apiListen ← strndupField "api_listen" obj.apiListen
  let muxListen ← strndupField "mux_listen" obj.muxListen
  let muxConnect ← strndupField "mux_connect" obj.muxConnect
  let listen ← strndupField "listen" obj.listen
  let connect ← strndupField "connect" obj.connect
  let log ← strndupField "log" obj.log
  let startups ← confParseMaxStartups obj.maxStartups
  let tls ← confLoadTls obj.tls
  let identity ← confLoadIdentity obj.identity
  .ok {
    type, apiListen, muxListen, muxConnect, listen, connect, log, tls, identity
    mux := confLoadMux obj.mux
    muxTcp := loadSocketOpts obj.mux.tcp
    tcp := loadSocketOpts obj.tcp
    loglevel := min obj.loglevel Json.intMax
    maxSessions := min obj.maxSessions Json.intMax
    startupLimitStart := startups.1
    startupLimitRate := startups.2.1
    startupLimitFull := startups.2.2 }

/-! ### `conf_check` -/

def clampTimeout (v : Nat) : Nat := if 0 < v then clamp v 10 86400 else 0

def confDeriveMuxTimeout (mux : MuxConf) : MuxConf :=
  let keepalive := clampTimeout mux.keepalive
  { mux with keepalive, timeout := if 0 < keepalive then keepalive + max (keepalive / 10) 90 else 0 }

def resolveLo (hi lo : Nat) : Nat := if 0 < hi ∧ lo = 0 then hi / 2 else lo

/-- The part of `conf_normalize` that is about sessions. -/
def normalizeMux (mux : MuxConf) : MuxConf :=
  let mux := confDeriveMuxTimeout mux
  { mux with
    sendTimeout := clampTimeout mux.sendTimeout
    connectTimeout := clampTimeout mux.connectTimeout
    resumeTimeout := clampTimeout mux.resumeTimeout
    idleTimeout := clampTimeout mux.idleTimeout
    memPressureLo := resolveLo mux.memPressureHi mux.memPressureLo }

/-- `conf_normalize`; LOG_LEVEL_SILENCE is 0 and LOG_LEVEL_VERYVERBOSE is 8. -/
def confNormalize (conf : Config) : Config :=
  { conf with mux := normalizeMux conf.mux, loglevel := clamp conf.loglevel 0 8 }

def confType : Octets := ascii "application/x-multiplexd-config; version=1"

def confCheckType : Option Octets → Except ConfError Unit
  | none => .ok ()
  | some type =>
    match mimeCheckMedia type (ascii "x-multiplexd-config") with
    | .badType => .error .unsupportedType
    | .malformed => .error .malformedType
    | .ok version => if version = some (ascii "1") then .ok () else .error .unsupportedVersion

def pskIsSpace (c : UInt8) : Bool := c = 0x20 || c = 0x09 || c = 0x0d || c = 0x0a

def pskTrim (s : Octets) : Octets := (s.dropWhile pskIsSpace).rdropWhile pskIsSpace

def isxdigit (c : UInt8) : Bool :=
  (0x30 ≤ c && c ≤ 0x39) || (0x41 ≤ c && c ≤ 0x46) || (0x61 ≤ c && c ≤ 0x66)

def confCheckPskKey (e : PskEntry) : Except ConfError Unit :=
  if e.hex.length % 2 ≠ 0 ∨ e.hex.length / 2 < tlsPskMinLen ∨ tlsPskMaxLen < e.hex.length / 2 then
    .error (.pskLength e.id)
  else if e.hex.all isxdigit then .ok ()
  else .error (.pskNotHex e.id)

/-- A reference to a file. -/
def isReference (s : Octets) : Bool := s.head? = some 0x40

/-- The loop of `conf_check_psk`. -/
def confCheckPskEntry (e : PskEntry) : Except ConfError PskEntry :=
  if maxClaimLen < e.id.length then .error (.pskIdentity e.id)
  else if isReference e.hex then .ok e
  else do
    let e : PskEntry := { e with hex := pskTrim e.hex }
    confCheckPskKey e
    .ok e

/-- The credentials of `conf_check`: none, all three of a certificate or keys alone. -/
def confCheckTls (conf : Config) : Except ConfError Config := do
  let hasCert := conf.tls.cert.isSome
  let hasKey := conf.tls.key.isSome
  let hasAuthcerts := conf.tls.authcerts ≠ []
  if conf.tls.psk ≠ [] then
    if hasCert ∨ hasKey ∨ hasAuthcerts then .error .pskExclusive
    else
      let psk ← conf.tls.psk.mapM confCheckPskEntry
      if conf.identity.verify then .error .verifyWithPsk
      -- no certificate is there to be selected by a name
      else .ok { conf with tls := { conf.tls with psk, sni := none } }
  else if (hasCert ∧ hasKey ∧ hasAuthcerts) ∨ (¬ hasCert ∧ ¬ hasKey ∧ ¬ hasAuthcerts) then
    if conf.identity.verify ∧ ¬ hasCert then .error .verifyWithoutTls else .ok conf
  else .error .incompleteTls

def confCheckLimits (conf : Config) : Except ConfError Unit :=
  if 100 < conf.startupLimitRate then .error .startupRate
  else if 0 < conf.startupLimitStart ∧ 0 < conf.startupLimitFull ∧
      conf.startupLimitFull ≤ conf.startupLimitStart then .error .startupRange
  else if 0 < conf.mux.memPressureHi ∧ 0 < conf.mux.memPressureLo ∧
      conf.mux.memPressureHi < conf.mux.memPressureLo then .error .memPressure
  else .ok ()

def confCheckPeer (p : IdentityPeer) : Except ConfError Unit :=
  if maxClaimLen < p.id.length then .error (.listenKey p.id)
  else
    match p.listen with
    | none => .ok ()
    | some listen => if addrMaxStrlen < listen.length then .error (.listenAddress p.id) else .ok ()

def confCheck (conf : Config) : Except ConfError Config := do
  confCheckType conf.type
  if conf.muxListen.isNone ∧ conf.muxConnect.isNone ∧ conf.identity.muxConnect = [] then .error .noTransport
  else do
    let conf ← confCheckTls conf
    let conf := confNormalize conf
    confCheckLimits conf
    conf.identity.peers.forM confCheckPeer
    if (conf.identity.muxConnect ≠ [] ∨ conf.identity.peers ≠ []) ∧ conf.identity.claim.isNone then
      .error .claimRequired
    else .ok conf

def confParse {T : Type} (codec : ConfCodec T) (text : T) : Except ConfError Config :=
  if confMaxsize < codec.length text then .error .tooLarge
  else
    match codec.jsonUnmarshal text with
    | none => .error .unmarshal
    | some obj => confLoad obj >>= confCheck

/-- `build_listen_json`; a map without an entry is absent. -/
def buildListenJson (peers : List IdentityPeer) : Option Fragment :=
  match peers.filterMap fun p => p.listen.map fun listen => (p.id, some listen) with
  | [] => none
  | members => some (.object members true)

def buildPskJson (psk : List PskEntry) : Option Fragment :=
  match psk with
  | [] => none
  | _ => some (.object (psk.map fun e => (e.id, some e.hex)) true)

def dumpSocketOpts (opts : SocketOpts) : JsonConfTcp where
  reuseport := opts.tcpReuseport
  keepalive := opts.tcpKeepalive
  nodelay := opts.tcpNodelay
  sndbuf := opts.tcpSndbuf
  rcvbuf := opts.tcpRcvbuf
  notsentLowat := opts.tcpNotsentLowat
  backlog := unsigned opts.backlog

def dumpMaxStartups (conf : Config) : Option Octets :=
  if 0 < conf.startupLimitStart ∨ 0 < conf.startupLimitRate ∨ 0 < conf.startupLimitFull then
    some (Json.decimal conf.startupLimitStart ++ Json.colon :: Json.decimal conf.startupLimitRate ++
      Json.colon :: Json.decimal conf.startupLimitFull)
  else none

def dumpMux (mux : MuxConf) (tcp : SocketOpts) : JsonConfMux where
  nodelay := mux.nodelay
  tcp := dumpSocketOpts tcp
  maxHalfopen := unsigned mux.maxHalfopen
  maxStreams := mux.maxStreams
  connectTimeout := unsigned mux.connectTimeout
  keepalive := unsigned mux.keepalive
  sendTimeout := unsigned mux.sendTimeout
  idleTimeout := unsigned mux.idleTimeout
  resumeTimeout := unsigned mux.resumeTimeout
  sessionWindow := unsigned (mux.sessionWindow * windowUnit)
  streamWindow := unsigned (mux.streamWindow * windowUnit)
  readahead := unsigned mux.readahead
  maxFrameSize := unsigned (mux.maxFramePayload + frameHeaderSize)
  memPressure := { hi := mux.memPressureHi, lo := mux.memPressureLo }
  lossymux :=
    { enabled := mux.lossymux, idleTimeout := unsigned mux.lossymuxIdleTimeout, queue := unsigned mux.lossymuxQueue }

/-- The object that `conf_dump` marshals. -/
def confObject (conf : Config) : JsonConf where
  type := some confType
  apiListen := conf.apiListen
  muxListen := conf.muxListen
  muxConnect := conf.muxConnect
  listen := conf.listen
  connect := conf.connect
  log := conf.log
  loglevel := unsigned conf.loglevel
  maxSessions := conf.maxSessions
  maxStartups := dumpMaxStartups conf
  tls :=
    { cert := conf.tls.cert, key := conf.tls.key, ciphersuites := conf.tls.ciphersuites, sni := conf.tls.sni
      alpn := conf.tls.alpn, authcerts := conf.tls.authcerts, kernelOffload := conf.tls.kernelOffload
      socketOffload := conf.tls.socketOffload, pskJson := buildPskJson conf.tls.psk }
  mux := dumpMux conf.mux conf.muxTcp
  tcp := dumpSocketOpts conf.tcp
  identity :=
    { claim := conf.identity.claim, muxConnect := conf.identity.muxConnect
      listenJson := buildListenJson conf.identity.peers, verify := conf.identity.verify }

/-- `conf_dump`: nothing where the text cannot be written or is larger than what is read. -/
def confDump {T : Type} (codec : ConfCodec T) (conf : Config) (indent : Option Octets) : Option T :=
  (codec.jsonMarshal (confObject conf) indent).filter fun text => 0 < codec.length text ∧ codec.length text ≤ confMaxsize

abbrev Files := Octets → Option Octets

def inlineField (files : Files) (field : String) (s : Octets) : Except ConfError Octets :=
  if isReference s then
    match files s.tail with
    | none => .error (.inlineField field)
    | some content =>
      if confMaxsize < content.length then .error (.inlineField field)
      else if 0 ∈ content then .error (.embeddedNul field)
      else .ok content
  else .ok s

def inlinePsk (files : Files) (e : PskEntry) : Except ConfError PskEntry :=
  if isReference e.hex then do
    let content ← inlineField files "tls.psk" e.hex
    let e : PskEntry := { e with hex := pskTrim content }
    confCheckPskKey e
    .ok e
  else .ok e

def confInlinePem (files : Files) (conf : Config) : Except ConfError Config := do
  let cert ← conf.tls.cert.mapM (inlineField files "tls.cert")
  let key ← conf.tls.key.mapM (inlineField files "tls.key")
  let authcerts ← conf.tls.authcerts.mapM (inlineField files "tls.authcerts")
  let psk ← conf.tls.psk.mapM (inlinePsk files)
  let authcertsBundle := if authcerts = [] then none else some (authcerts.flatMap fun c => c ++ [0x0a])
  .ok { conf with tls := { conf.tls with cert, key, authcerts, psk, authcertsBundle } }

/-- `conf_erase_credentials`: every text is overwritten with NUL and so left empty. -/
def confEraseCredentials (conf : Config) : Config :=
  { conf with
    tls :=
      { conf.tls with
        cert := conf.tls.cert.map fun _ => []
        key := conf.tls.key.map fun _ => []
        authcerts := conf.tls.authcerts.map fun _ => []
        authcertsBundle := conf.tls.authcertsBundle.map fun _ => []
        psk := conf.tls.psk.map fun e => { e with hex := [] } } }

end Multiplexd
