import Mathlib.Data.List.TakeWhile
import Multiplexd.Lib.Base64
import Multiplexd.Mime
import Multiplexd.Escape
import Multiplexd.Mux.Owner

/-!
# Hello messages

`proto_hello_build` and `proto_hello_parse` of `mux/handshake.c`, with the generated marshaller of
`proto_schema.gen.c` between them and the JSON text. A decoded JSON string has a length of its own and
may hold a NUL; the parser reads it as a C string as well, and refuses it where the two readings differ.
-/

namespace Multiplexd

open Json (lbrace rbrace dquote colon comma marshalString decimal)

/-- `MUX_MAX_HELLO_JSON_SIZE`. -/
def maxHelloJsonSize : Nat := 573

/-- `PROTO_TYPE`. -/
def protoType : List UInt8 := ascii "application/x-multiplexd-proto; version=1"

/-- `SESSION_ID_B64`. -/
def sessionIdB64 : Nat := 24

def SessionId := { s : List UInt8 // s.length = 16 }
deriving DecidableEq

/-- What lies before the terminator. -/
def cstr (s : List UInt8) : List UInt8 := s.takeWhile (· ≠ 0)

def strlen (s : List UInt8) : Nat := (cstr s).length

/-- `enum proto_msgid`. -/
inductive ProtoMsgid where
  | clientHello
  | serverHello
deriving Repr, DecidableEq

def ProtoMsgid.value : ProtoMsgid → Nat
  | .clientHello => 0
  | .serverHello => 1

/-- `struct proto_hello`. Of the members with a presence flag only those present are here. -/
structure ProtoHello where
  version : Nat
  msgid : Int
  sessionId : Option SessionId
  hasResumeSeq : Bool
  resumeSeq : UInt32
  identity : Option (List UInt8)
  rejectInbound : Bool
  lossymux : Bool
deriving DecidableEq

/-- `struct json_proto_extensions`. -/
structure JsonProtoExtensions where
  identity : Option (List UInt8)
  lossymux : Bool
  rejectInbound : Bool
deriving Repr, DecidableEq

/-- `struct json_proto`. -/
structure JsonProto where
  extensions : JsonProtoExtensions
  sessionId : Option (List UInt8)
  type : Option (List UInt8)
  resumeSeq : UInt32
  msgid : Int
deriving Repr, DecidableEq

namespace JsonProto

def key (name : String) : List UInt8 := dquote :: ascii name ++ [dquote, colon]

def emitBool (b : Bool) : List UInt8 := if b then ascii "true" else ascii "false"

/-- A string field that is left out where it is `NULL`. -/
def emitOptional (name : String) : Option (List UInt8) → Option (List UInt8)
  | none => some []
  | some s => (marshalString s).map fun t => key name ++ t ++ [comma]

/-- A string field that stands empty where it is `NULL`. -/
def emitRequired : Option (List UInt8) → Option (List UInt8)
  | none => some [dquote, dquote]
  | some s => marshalString s

/-- `json_marshal_proto_extensions_impl` without an indent. The comma after the last field is taken
back. -/
def marshalExtensions (obj : JsonProtoExtensions) : Option (List UInt8) := do
  let identity ← emitOptional "identity" obj.identity
  let fields := identity ++ (key "lossymux" ++ emitBool obj.lossymux ++ [comma])
    ++ (key "reject_inbound" ++ emitBool obj.rejectInbound ++ [comma])
  return lbrace :: fields.dropLast ++ [rbrace]

/-- `printf` with `%jd`. -/
def emitInt (n : Int) : List UInt8 := if n < 0 then 0x2d :: decimal n.natAbs else decimal n.natAbs

def text (obj : JsonProto) (extensions sessionId type : List UInt8) : List UInt8 :=
  let fields := (key "extensions" ++ extensions ++ [comma]) ++ (key "msgid" ++ emitInt obj.msgid ++ [comma])
    ++ (key "resume_seq" ++ decimal obj.resumeSeq.toNat ++ [comma]) ++ sessionId ++ (key "type" ++ type ++ [comma])
  lbrace :: fields.dropLast ++ [rbrace]

/-- `json_marshal_proto` without an indent. -/
def marshal (obj : JsonProto) : Option (List UInt8) := do
  let extensions ← marshalExtensions obj.extensions
  let sessionId ← emitOptional "session_id" obj.sessionId
  let type ← emitRequired obj.type
  let text := obj.text extensions sessionId type
  if text.length ≤ Json.intMax then some text else none

def parseString : Json → Option (List UInt8)
  | .str s => some s
  | _ => none

def parseBool : Json → Option Bool
  | .bool b => some b
  | _ => none

def parseImax : Json → Option Int
  | .num true n => if n ≤ 2 ^ 63 then some (-n) else none
  | .num false n => if n < 2 ^ 63 then some n else none
  | _ => none

/-- `json_parse_uint`. A minus sign is refused even before a zero. -/
def parseUint : Json → Option UInt32
  | .num false n => if n < 2 ^ 32 then some (UInt32.ofNat n) else none
  | _ => none

/-- One turn of the loop of `json_unmarshal_proto_extensions`. -/
def extensionsField (obj : JsonProtoExtensions) : List UInt8 × Json → Option JsonProtoExtensions
  | (k, v) =>
    if k = ascii "identity" then do
      let s ← parseString v
      if s.length > 255 then none else return { obj with identity := some s }
    else if k = ascii "lossymux" then (parseBool v).map fun b => { obj with lossymux := b }
    else if k = ascii "reject_inbound" then (parseBool v).map fun b => { obj with rejectInbound := b }
    else some obj

def unmarshalExtensions : Json → Option JsonProtoExtensions
  | .obj fields => fields.foldlM extensionsField { identity := none, lossymux := false, rejectInbound := false }
  | _ => none

/-- The object being filled, and which of the required fields have been seen. -/
structure Reading where
  obj : JsonProto
  sawMsgid : Bool
  sawType : Bool

def Reading.start : Reading where
  obj :=
    { extensions := { identity := none, lossymux := false, rejectInbound := false }
      sessionId := none, type := none, resumeSeq := 0, msgid := 0 }
  sawMsgid := false
  sawType := false

/-- One turn of the loop of `json_unmarshal_proto`. -/
def field (r : Reading) : List UInt8 × Json → Option Reading
  | (k, v) =>
    if k = ascii "extensions" then
      (unmarshalExtensions v).map fun e => { r with obj := { r.obj with extensions := e } }
    else if k = ascii "msgid" then do
      let n ← parseImax v
      if n ≠ 0 ∧ n ≠ 1 then none else return { r with obj := { r.obj with msgid := n }, sawMsgid := true }
    else if k = ascii "resume_seq" then
      (parseUint v).map fun n => { r with obj := { r.obj with resumeSeq := n } }
    else if k = ascii "session_id" then do
      let s ← parseString v
      if s.length < 24 ∨ s.length > 24 then none else return { r with obj := { r.obj with sessionId := some s } }
    else if k = ascii "type" then
      (parseString v).map fun s => { r with obj := { r.obj with type := some s }, sawType := true }
    else some r

def unmarshal : Json → Option JsonProto
  | .obj fields => do
    let r ← fields.foldlM field Reading.start
    if r.sawMsgid && r.sawType then some r.obj else none
  | _ => none

end JsonProto

/-- The object `proto_hello_build` marshals. -/
def ProtoHello.raw (msg : ProtoHello) : JsonProto where
  type := some protoType
  msgid := msg.msgid
  sessionId := msg.sessionId.map fun id => Base64.encode id.val
  resumeSeq := if msg.hasResumeSeq then msg.resumeSeq else 0
  extensions :=
    { rejectInbound := msg.rejectInbound
      lossymux := msg.lossymux
      identity := msg.identity.map cstr }

/-- `proto_hello_build`: the payload, or nothing where it does not leave room for a terminator. -/
def protoHelloBuild (payloadCap : Nat) (msg : ProtoHello) : Option (List UInt8) :=
  match msg.raw.marshal with
  | none => none
  | some json => if json.length = 0 ∨ json.length ≥ payloadCap then none else some json

/-- What `mux_handshake_enqueue_hello` reads of a session. `mux.h` keeps the payload cap in its range. -/
structure HelloContext where
  maxPayload : Nat
  min_le : minFramePayload ≤ maxPayload
  le_max : maxPayload ≤ maxPayloadSize
  rejectInbound : Bool
  lossymux : Bool
  sessionId : Option SessionId
  recvSeq : UInt32
  identity : Option CStr

namespace HelloContext

def claim (ss : HelloContext) : Option (List UInt8) :=
  match ss.identity with
  | none => none
  | some s => if s.val.length ≤ maxClaimLen then some s.val else none

def message (ss : HelloContext) (msgid : ProtoMsgid) (includeResumeSeq : Bool) : ProtoHello where
  version := 0
  msgid := msgid.value
  rejectInbound := ss.rejectInbound
  lossymux := ss.lossymux
  sessionId := ss.sessionId
  hasResumeSeq := includeResumeSeq
  resumeSeq := if includeResumeSeq then ss.recvSeq else 0
  identity := ss.claim

/-- The hello that `mux_handshake_enqueue_hello` builds in the frame it was given. -/
def buildHello (ss : HelloContext) (msgid : ProtoMsgid) (includeResumeSeq : Bool) : Option (List UInt8) :=
  protoHelloBuild ss.maxPayload (ss.message msgid includeResumeSeq)

theorem buildHello_lt {ss : HelloContext} {msgid : ProtoMsgid} {includeResumeSeq : Bool} {json : List UInt8}
    (h : ss.buildHello msgid includeResumeSeq = some json) : json.length < 65536 := by
  have hmax : ss.maxPayload ≤ 65535 := ss.le_max
  unfold buildHello protoHelloBuild at h
  split at h
  · cases h
  · split at h
    · cases h
    · cases h
      omega

/-- The session id and the count of frames received as the session has them; the rest is the configuration. -/
def ofSession (conf : HelloContext) (ss : Session) : HelloContext :=
  { conf with
    sessionId := if ss.hasSessionId then some ⟨toBytes 16 ss.sessionId.toNat, toBytes_length 16 _⟩ else none
    recvSeq := UInt32.ofNat ss.recvSeq }

/-- `mux_handshake_enqueue_hello`. A frame that could not be had, or a hello that could not be built in it,
resets the session. -/
def enqueueHello (conf : HelloContext) (ss : Session) (msgid : ProtoMsgid) (includeResumeSeq : Bool) : Bool × Session :=
  match ss.frameGet with
  | (false, ss) => (false, ss.reset)
  | (true, ss) =>
    match h : (conf.ofSession ss).buildHello msgid includeResumeSeq with
    | none => (false, ss.reset)
    | some json =>
      let hello : Frame :=
        { version := 0, flags := 0, streamId := 0, extra := 0, payload := json, payload_lt := buildHello_lt h }
      (true, { ss with
        sendbuf := ss.sendbuf ++ [{ items := [⟨hello, ss.births⟩], cap := ss.maxPayload }]
        births := ss.births + 1
        txPending := true
        unreported := if includeResumeSeq then 0 else ss.unreported
        ownHello := some (ss.hello (msgid = .serverHello) includeResumeSeq) })

end HelloContext

def parseVersion (version : List UInt8) : Option Nat :=
  match version with
  | [] => none
  | c :: _ =>
    if c < 0x31 ∨ c > 0x39 then none
    else if version.all Json.Compact.isDigit then
      let parsed := version.foldl (fun n d => 10 * n + (d.toNat - 0x30)) 0
      if parsed = 0 ∨ parsed > 255 then none else some parsed
    else none

def protoParseType (type : List UInt8) : Option Nat :=
  if type.length > maxPayloadSize then none
  else if strlen type ≠ type.length then none
  else
    match mimeCheckMedia (cstr type) (ascii "x-multiplexd-proto") with
    | .ok (some version) => parseVersion version
    | _ => none

def protoParseSessionId (str : List UInt8) : Option SessionId :=
  if str.length ≠ sessionIdB64 ∨ strlen str ≠ sessionIdB64 then none
  else
    match Base64.decode str with
    | none => none
    | some s => if h : s.length = 16 then some ⟨s, h⟩ else none

/-- The identity of `proto_hello_parse`. What is kept is a C string in a field of 256 octets. -/
def protoParseIdentity (str : List UInt8) : Option (List UInt8) :=
  if str.length ≥ 256 then none
  else if strlen str ≠ str.length then none
  else some (cstr str)

/-- A field that may be `NULL`. -/
def optional {α β : Type} (f : α → Option β) : Option α → Option (Option β)
  | none => some none
  | some a => (f a).map some

def protoHelloParse [JsonReader] (json : List UInt8) : Option ProtoHello :=
  if json.length > maxPayloadSize then none
  else do
    let obj ← (JsonReader.parse json).bind JsonProto.unmarshal
    let type ← obj.type
    let version ← protoParseType type
    let sessionId ← optional protoParseSessionId obj.sessionId
    let identity ← optional protoParseIdentity obj.extensions.identity
    return {
      version
      msgid := obj.msgid
      rejectInbound := obj.extensions.rejectInbound
      lossymux := obj.extensions.lossymux
      sessionId
      hasResumeSeq := false
      resumeSeq := obj.resumeSeq
      identity }

namespace JsonProto

def optionalMember (name : String) : Option (List UInt8) → List (List UInt8 × Json)
  | none => []
  | some s => [(ascii name, .str s)]

def extensionsDoc (obj : JsonProtoExtensions) : Json :=
  .obj (optionalMember "identity" obj.identity
    ++ [(ascii "lossymux", .bool obj.lossymux), (ascii "reject_inbound", .bool obj.rejectInbound)])

def doc (obj : JsonProto) : Json :=
  .obj ([(ascii "extensions", extensionsDoc obj.extensions), (ascii "msgid", .num (obj.msgid < 0) obj.msgid.natAbs),
      (ascii "resume_seq", .num false obj.resumeSeq.toNat)]
    ++ (optionalMember "session_id" obj.sessionId ++ [(ascii "type", .str (obj.type.getD []))]))

variable {t : List UInt8}

theorem emitMembers_cons (name : String) {v : Json} {vt : List UInt8} {rest : List (List UInt8 × Json)}
    (hname : Json.plainText (ascii name) = true ∧ (ascii name).length < 1000) (hv : v.render = some vt)
    (hrest : Json.emitMembers rest = some t) :
    Json.emitMembers ((ascii name, v) :: rest) = some (key name ++ vt ++ [comma] ++ t) := by
  rw [Json.emitMembers, Json.marshalString_of_plain (Json.plain_of_plainText hname.1) hname.2, hv, hrest]
  simp [key]

theorem emitMembers_optional (name : String) {s : Option (List UInt8)}
    (hname : Json.plainText (ascii name) = true ∧ (ascii name).length < 1000) (h : emitOptional name s = some t) :
    Json.emitMembers (optionalMember name s) = some t := by
  cases s with
  | none => exact h
  | some s =>
    obtain ⟨u, hu, rfl⟩ := Option.map_eq_some_iff.mp h
    rw [optionalMember, emitMembers_cons name hname (show Json.render (.str s) = some u by rw [Json.render, hu]) Json.emitMembers_nil, List.append_nil]

theorem render_extensionsDoc {obj : JsonProtoExtensions} (h : marshalExtensions obj = some t) :
    (extensionsDoc obj).render = some t := by
  simp only [marshalExtensions, bind, Option.bind_eq_some_iff] at h
  obtain ⟨identity, hid, heq⟩ := h
  cases heq
  have hbool (b : Bool) : Json.render (.bool b) = some (emitBool b) := by rw [Json.render, emitBool]
  have hmembers := emitMembers_cons "lossymux" (by decide) (hbool obj.lossymux)
    (emitMembers_cons "reject_inbound" (by decide) (hbool obj.rejectInbound) Json.emitMembers_nil)
  have hemit := Json.emitMembers_append (optionalMember "identity" obj.identity)
    [(ascii "lossymux", .bool obj.lossymux), (ascii "reject_inbound", .bool obj.rejectInbound)]
  rw [emitMembers_optional _ (by decide) hid, hmembers] at hemit
  rw [extensionsDoc, Json.render, Json.renderMembers_eq_dropLast (by simp) hemit]
  simp

theorem render_doc {obj : JsonProto} (h : obj.marshal = some t) : obj.doc.render = some t := by
  simp only [marshal, bind, Option.bind_eq_some_iff] at h
  obtain ⟨extensions, hext, sessionId, hsid, type, htype, heq⟩ := h
  split at heq
  on_goal 2 => cases heq
  cases heq
  have hmsgid : Json.render (.num (obj.msgid < 0) obj.msgid.natAbs) = some (emitInt obj.msgid) := by
    by_cases hneg : obj.msgid < 0 <;> simp [Json.render, emitInt, hneg]
  have hseq : Json.render (.num false obj.resumeSeq.toNat) = some (decimal obj.resumeSeq.toNat) := by
    simp [Json.render]
  have hstr : Json.render (.str (obj.type.getD [])) = some type := by
    rw [Json.render, ← htype]
    cases obj.type <;> rfl
  have hlast := Json.emitMembers_append (optionalMember "session_id" obj.sessionId) [(ascii "type", .str (obj.type.getD []))]
  rw [emitMembers_optional _ (by decide) hsid, emitMembers_cons "type" (by decide) hstr Json.emitMembers_nil] at hlast
  have hemit := emitMembers_cons "extensions" (by decide) (render_extensionsDoc hext)
    (emitMembers_cons "msgid" (by decide) hmsgid (emitMembers_cons "resume_seq" (by decide) hseq hlast))
  rw [doc, Json.render, Json.renderMembers_eq_dropLast (by simp) (by simpa using hemit)]
  simp [text]

end JsonProto

theorem key_length (name : String) : (JsonProto.key name).length = (ascii name).length + 3 := by
  simp [JsonProto.key]

theorem emitBool_length_le (b : Bool) : (JsonProto.emitBool b).length ≤ 5 := by
  cases b <;> decide

theorem decimal_length_le (n : UInt32) : (decimal n.toNat).length ≤ 10 := by
  rw [decimal, List.length_map, Nat.length_toDigits_le_iff (by decide) (by decide)]
  exact Nat.lt_trans n.toNat_lt (by decide)

theorem plain_encode (s : List UInt8) : ∀ c ∈ Base64.encode s, Json.Plain c := by
  intro c hc
  have hletter : ∀ n < 64, Json.Plain (Base64.letter n) := by decide
  obtain rfl | ⟨n, hn, rfl⟩ := Base64.mem_encode hc
  · decide
  · exact hletter n hn

theorem encode_length_sessionId (id : SessionId) : (Base64.encode id.val).length = sessionIdB64 := by
  rw [Base64.encode_length, id.property]
  rfl

namespace JsonProto

theorem emitOptional_length_le {name : String} {s : List UInt8} {t : List UInt8} (h : emitOptional name (some s) = some t) :
    t.length ≤ (ascii name).length + 6 * s.length + 6 := by
  obtain ⟨u, hu, rfl⟩ := Option.map_eq_some_iff.mp h
  have hsize := Json.quoted_length_le s
  rw [← Json.eq_quoted_of_marshalString hu] at hsize
  simp only [List.length_append, key_length, List.length_singleton]
  omega

theorem marshalExtensions_length_le (obj : JsonProtoExtensions) {identity : List UInt8}
    (hid : emitOptional "identity" obj.identity = some identity) :
    ∃ t, marshalExtensions obj = some t ∧ t.length ≤ identity.length + 41 := by
  have hlossy := emitBool_length_le obj.lossymux
  have hreject := emitBool_length_le obj.rejectInbound
  have hnames : (ascii "lossymux").length = 8 ∧ (ascii "reject_inbound").length = 14 := by decide
  refine ⟨_, by rw [marshalExtensions, hid]; rfl, ?_⟩
  simp only [List.length_append, List.length_cons, List.length_nil, List.length_dropLast, key_length]
  omega

theorem emitOptional_sessionId (id : Option SessionId) :
    ∃ t, emitOptional "session_id" (id.map fun id => Base64.encode id.val) = some t ∧ t.length ≤ 40 := by
  cases id with
  | none => exact ⟨[], rfl, Nat.zero_le _⟩
  | some id =>
    have hlen := encode_length_sessionId id
    have hname : (ascii "session_id").length = 10 := by decide
    have hplain := Json.marshalString_of_plain (plain_encode id.val) (by rw [hlen]; decide)
    refine ⟨_, by rw [Option.map_some, emitOptional, hplain]; rfl, ?_⟩
    simp only [List.length_append, List.length_cons, List.length_nil, key_length, hlen, hname]
    decide

end JsonProto

theorem JsonProto.marshal_eq {obj : JsonProto} {extensions sessionId type : List UInt8}
    (hext : marshalExtensions obj.extensions = some extensions) (hsid : emitOptional "session_id" obj.sessionId = some sessionId)
    (htype : emitRequired obj.type = some type) (hsize : (obj.text extensions sessionId type).length ≤ Json.intMax) :
    obj.marshal = some (obj.text extensions sessionId type) := by
  rw [marshal, hext, hsid, htype]
  exact if_pos hsize

def ProtoHello.Writable (msg : ProtoHello) : Prop := ∀ s ∈ msg.identity, (marshalString (cstr s)).isSome

theorem marshal_raw (msg : ProtoHello) (msgid : ProtoMsgid) (hmsgid : msg.msgid = msgid.value)
    (hlen : ∀ s ∈ msg.identity, (cstr s).length ≤ maxClaimLen) (hwritable : msg.Writable) :
    ∃ t, msg.raw.marshal = some t ∧ 0 < t.length ∧ t.length ≤ maxHelloJsonSize := by
  obtain ⟨identity, hid, hidlen⟩ : ∃ t, JsonProto.emitOptional "identity" (msg.identity.map cstr) = some t ∧ t.length ≤ 392 := by
    cases hsome : msg.identity with
    | none => exact ⟨[], rfl, Nat.zero_le _⟩
    | some s =>
      obtain ⟨u, hu⟩ := Option.isSome_iff_exists.mp (hwritable s hsome)
      have hemit : JsonProto.emitOptional "identity" ((some s).map cstr) = some (JsonProto.key "identity" ++ u ++ [comma]) := by
        rw [Option.map_some, JsonProto.emitOptional, hu]
        rfl
      have hbound := JsonProto.emitOptional_length_le hemit
      have hclaim := hlen s hsome
      have hname : (ascii "identity").length = 8 := by decide
      unfold maxClaimLen at hclaim
      exact ⟨_, hemit, by omega⟩
  obtain ⟨extensions, hext, hextlen⟩ := JsonProto.marshalExtensions_length_le msg.raw.extensions hid
  obtain ⟨sessionId, hsid, hsidlen⟩ := JsonProto.emitOptional_sessionId msg.sessionId
  have htype : JsonProto.emitRequired (some protoType) = some (dquote :: protoType ++ [dquote]) :=
    Json.marshalString_of_plain (Json.plain_of_plainText (by decide)) (by decide)
  have hdigit : (JsonProto.emitInt msg.raw.msgid).length = 1 := by
    change (JsonProto.emitInt msg.msgid).length = 1
    rw [hmsgid]
    cases msgid <;> decide
  have hseq := decimal_length_le msg.raw.resumeSeq
  have hnames : (ascii "extensions").length = 10 ∧ (ascii "msgid").length = 5 ∧ (ascii "resume_seq").length = 10
      ∧ (ascii "type").length = 4 ∧ protoType.length = 41 := by decide
  have hsize : (msg.raw.text extensions sessionId (dquote :: protoType ++ [dquote])).length ≤ maxHelloJsonSize := by
    simp only [JsonProto.text, List.length_append, List.length_cons, List.length_nil, List.length_dropLast, key_length,
      maxHelloJsonSize]
    omega
  refine ⟨msg.raw.text extensions sessionId (dquote :: protoType ++ [dquote]), ?_, Nat.succ_pos _, hsize⟩
  exact JsonProto.marshal_eq hext hsid htype (Nat.le_trans hsize (by decide))

namespace JsonProto

variable {obj : JsonProtoExtensions} {v : Json} {k : List UInt8} {r : Reading} {members : List (List UInt8 × Json)}

theorem unmarshalExtensions_doc (hid : ∀ s ∈ obj.identity, s.length ≤ 255) :
    unmarshalExtensions (extensionsDoc obj) = some obj := by
  have hbools (e : JsonProtoExtensions) :
      [(ascii "lossymux", Json.bool obj.lossymux), (ascii "reject_inbound", .bool obj.rejectInbound)].foldlM extensionsField e
        = some { e with lossymux := obj.lossymux, rejectInbound := obj.rejectInbound } := by
    rw [List.foldlM_cons, extensionsField, if_neg (by decide), if_pos rfl]
    change List.foldlM extensionsField _ _ = _
    rw [List.foldlM_cons, extensionsField, if_neg (by decide), if_neg (by decide), if_pos rfl]
    rfl
  rw [extensionsDoc, unmarshalExtensions, List.foldlM_append]
  cases hsome : obj.identity with
  | none =>
    change List.foldlM extensionsField _ _ = _
    rw [hbools, ← hsome]
  | some s =>
    have hlen := hid s hsome
    have hfield (e : JsonProtoExtensions) :
        [(ascii "identity", Json.str s)].foldlM extensionsField e = some { e with identity := some s } := by
      rw [List.foldlM_cons, extensionsField, if_pos rfl]
      change (if s.length > 255 then none else some _) >>= _ = _
      rw [if_neg (by omega)]
      rfl
    rw [optionalMember, hfield]
    change List.foldlM extensionsField _ _ = _
    rw [hbools, ← hsome]

theorem unmarshal_doc {obj : JsonProto} (msgid : ProtoMsgid) {type : List UInt8} (hmsgid : obj.msgid = msgid.value)
    (htype : obj.type = some type) (hsid : ∀ s ∈ obj.sessionId, s.length = 24)
    (hid : ∀ s ∈ obj.extensions.identity, s.length ≤ 255) : unmarshal obj.doc = some obj := by
  have hfirst : [(ascii "extensions", extensionsDoc obj.extensions), (ascii "msgid", Json.num (obj.msgid < 0) obj.msgid.natAbs),
      (ascii "resume_seq", .num false obj.resumeSeq.toNat)].foldlM field Reading.start
      = some { obj := { obj with sessionId := none, type := none }, sawMsgid := true, sawType := false } := by
    have hparse : parseImax (.num (obj.msgid < 0) obj.msgid.natAbs) = some obj.msgid ∧ ¬ (obj.msgid ≠ 0 ∧ obj.msgid ≠ 1) := by
      rw [hmsgid]
      cases msgid <;> decide
    have huint : parseUint (.num false obj.resumeSeq.toNat) = some obj.resumeSeq := by
      rw [parseUint, if_pos obj.resumeSeq.toNat_lt, UInt32.ofNat_toNat]
    rw [List.foldlM_cons, field, if_pos rfl, unmarshalExtensions_doc hid]
    change List.foldlM field _ _ = _
    rw [List.foldlM_cons, field, if_neg (by decide), if_pos rfl, hparse.1]
    change (if obj.msgid ≠ 0 ∧ obj.msgid ≠ 1 then none else some _) >>= _ = _
    rw [if_neg hparse.2]
    change List.foldlM field _ _ = _
    rw [List.foldlM_cons, field, if_neg (by decide), if_neg (by decide), if_pos rfl, huint]
    rfl
  have hlast (r : Reading) : [(ascii "type", Json.str type)].foldlM field r
      = some { r with obj := { r.obj with type := some type }, sawType := true } := by
    rw [List.foldlM_cons, field, if_neg (by decide), if_neg (by decide), if_neg (by decide),
      if_neg (by decide), if_pos rfl]
    rfl
  have hmiddle (r : Reading) (hr : r.obj.sessionId = none) : (optionalMember "session_id" obj.sessionId).foldlM field r
      = some { r with obj := { r.obj with sessionId := obj.sessionId } } := by
    cases hsome : obj.sessionId with
    | none =>
      obtain ⟨⟨_, sessionId, _, _, _⟩, _, _⟩ := r
      subst hr
      rfl
    | some s =>
      have hlen := hsid s hsome
      rw [optionalMember, List.foldlM_cons, field, if_neg (by decide), if_neg (by decide),
        if_neg (by decide), if_pos rfl]
      change (if s.length < 24 ∨ s.length > 24 then none else some _) >>= _ = _
      rw [if_neg (by omega)]
      rfl
  rw [doc, unmarshal, List.foldlM_append, hfirst]
  change (List.foldlM field _ _ >>= _) = _
  rw [List.foldlM_append, hmiddle _ rfl, htype, Option.getD_some]
  change (List.foldlM field _ _ >>= _) = _
  rw [hlast, ← htype]
  rfl

/-! ### What the fields hold in the end -/

theorem parseString_eq_some {s : List UInt8} (h : parseString v = some s) : v = .str s := by
  cases v <;> cases h
  rfl

/-- What one turn over the extensions does. -/
theorem extensionsField_cases {obj' : JsonProtoExtensions} (h : extensionsField obj (k, v) = some obj') :
    (k = ascii "identity" ∧ ∃ s, v = .str s ∧ s.length ≤ 255 ∧ obj'.identity = some s)
      ∨ (k ≠ ascii "identity" ∧ obj'.identity = obj.identity) := by
  rw [extensionsField] at h
  split at h
  · rename_i hk
    obtain ⟨s, hs, h⟩ := Option.bind_eq_some_iff.mp h
    split at h
    · cases h
    · cases h
      exact .inl ⟨hk, s, parseString_eq_some hs, by omega, rfl⟩
  · rename_i hk
    refine .inr ⟨hk, ?_⟩
    split at h
    · obtain ⟨b, -, rfl⟩ := Option.map_eq_some_iff.mp h
      rfl
    split at h
    · obtain ⟨b, -, rfl⟩ := Option.map_eq_some_iff.mp h
      rfl
    · cases h
      rfl

theorem unmarshalExtensions_identity (h : unmarshalExtensions v = some obj) : ∃ members, v = .obj members ∧
      ((Json.last (ascii "identity") members = none ∧ obj.identity = none)
        ∨ ∃ s, Json.last (ascii "identity") members = some (.str s) ∧ s.length ≤ 255 ∧ obj.identity = some s) := by
  cases v with
  | obj members =>
    refine ⟨members, rfl, ?_⟩
    rw [unmarshalExtensions] at h
    have hlast := Json.foldlM_last (ascii "identity") (fun v => (parseString v).filter fun s => s.length ≤ 255)
      JsonProtoExtensions.identity ?_ ?_ h
    · obtain hnone | ⟨v, s, hlast, hread, hget⟩ := hlast
      · exact .inl hnone
      · obtain ⟨hs, hlen⟩ := Option.filter_eq_some_iff.mp hread
        exact .inr ⟨s, parseString_eq_some hs ▸ hlast, of_decide_eq_true hlen, hget⟩
    · intro obj v obj' hstep
      obtain ⟨-, s, rfl, hlen, hs⟩ | ⟨hk, -⟩ := extensionsField_cases hstep
      · exact ⟨s, Option.filter_eq_some_iff.mpr ⟨rfl, decide_eq_true hlen⟩, hs⟩
      · exact absurd rfl hk
    · intro obj k v obj' hstep hne
      obtain ⟨hk, -⟩ | ⟨-, hkeep⟩ := extensionsField_cases hstep
      · exact absurd hk hne
      · exact hkeep
  | str | num | bool | other => cases h

theorem field_cases {r' : Reading} (h : field r (k, v) = some r') :
    (k = ascii "extensions" ∧ ∃ e, unmarshalExtensions v = some e ∧ r'.obj.extensions = e
        ∧ r'.obj.sessionId = r.obj.sessionId ∧ r'.obj.type = r.obj.type)
      ∨ (k = ascii "session_id" ∧ ∃ s, v = .str s ∧ s.length = 24 ∧ r'.obj.sessionId = some s
        ∧ r'.obj.extensions = r.obj.extensions ∧ r'.obj.type = r.obj.type)
      ∨ (k = ascii "type" ∧ ∃ s, v = .str s ∧ r'.obj.type = some s
        ∧ r'.obj.extensions = r.obj.extensions ∧ r'.obj.sessionId = r.obj.sessionId)
      ∨ (k ≠ ascii "extensions" ∧ k ≠ ascii "session_id" ∧ k ≠ ascii "type"
        ∧ r'.obj.extensions = r.obj.extensions ∧ r'.obj.sessionId = r.obj.sessionId ∧ r'.obj.type = r.obj.type) := by
  rw [field] at h
  split at h
  · rename_i hk
    obtain ⟨e, he, rfl⟩ := Option.map_eq_some_iff.mp h
    exact .inl ⟨hk, e, he, rfl, rfl, rfl⟩
  rename_i hext
  split at h
  · rename_i hk
    obtain ⟨n, -, h⟩ := Option.bind_eq_some_iff.mp h
    split at h
    · cases h
    · cases h
      subst hk
      exact .inr (.inr (.inr ⟨by decide, by decide, by decide, rfl, rfl, rfl⟩))
  split at h
  · rename_i hk
    obtain ⟨n, -, rfl⟩ := Option.map_eq_some_iff.mp h
    subst hk
    exact .inr (.inr (.inr ⟨by decide, by decide, by decide, rfl, rfl, rfl⟩))
  split at h
  · rename_i hk
    obtain ⟨s, hs, h⟩ := Option.bind_eq_some_iff.mp h
    split at h
    · cases h
    · cases h
      exact .inr (.inl ⟨hk, s, parseString_eq_some hs, by omega, rfl, rfl, rfl⟩)
  rename_i hsid
  split at h
  · rename_i hk
    obtain ⟨s, hs, rfl⟩ := Option.map_eq_some_iff.mp h
    exact .inr (.inr (.inl ⟨hk, s, parseString_eq_some hs, rfl, rfl, rfl⟩))
  · rename_i htype
    cases h
    exact .inr (.inr (.inr ⟨hext, hsid, htype, rfl, rfl, rfl⟩))

theorem last_type (h : members.foldlM field Reading.start = some r) :
    (Json.last (ascii "type") members = none ∧ r.obj.type = none)
      ∨ ∃ s, Json.last (ascii "type") members = some (.str s) ∧ r.obj.type = some s := by
  have hlast := Json.foldlM_last (ascii "type") parseString (fun r => r.obj.type) ?_ ?_ h
  · obtain hnone | ⟨v, s, hlast, hread, hget⟩ := hlast
    · exact .inl hnone
    · exact .inr ⟨s, parseString_eq_some hread ▸ hlast, hget⟩
  · intro r v r' hstep
    obtain ⟨hk, -⟩ | ⟨hk, -⟩ | ⟨-, s, rfl, hs, -⟩ | ⟨-, -, hk, -⟩ := field_cases hstep
    · exact absurd hk (by decide)
    · exact absurd hk (by decide)
    · exact ⟨s, rfl, hs⟩
    · exact absurd rfl hk
  · intro r k v r' hstep hne
    obtain ⟨-, e, -, -, -, hkeep⟩ | ⟨-, s, -, -, -, -, hkeep⟩ | ⟨hk, -⟩ | ⟨-, -, -, -, -, hkeep⟩ := field_cases hstep
    · exact hkeep
    · exact hkeep
    · exact absurd hk hne
    · exact hkeep

theorem last_sessionId (h : members.foldlM field Reading.start = some r) :
    (Json.last (ascii "session_id") members = none ∧ r.obj.sessionId = none)
      ∨ ∃ s, Json.last (ascii "session_id") members = some (.str s) ∧ r.obj.sessionId = some s := by
  have hlast := Json.foldlM_last (ascii "session_id") parseString (fun r => r.obj.sessionId) ?_ ?_ h
  · obtain hnone | ⟨v, s, hlast, hread, hget⟩ := hlast
    · exact .inl hnone
    · exact .inr ⟨s, parseString_eq_some hread ▸ hlast, hget⟩
  · intro r v r' hstep
    obtain ⟨hk, -⟩ | ⟨-, s, rfl, -, hs, -⟩ | ⟨hk, -⟩ | ⟨-, hk, -⟩ := field_cases hstep
    · exact absurd hk (by decide)
    · exact ⟨s, rfl, hs⟩
    · exact absurd hk (by decide)
    · exact absurd rfl hk
  · intro r k v r' hstep hne
    obtain ⟨-, e, -, -, hkeep, -⟩ | ⟨hk, -⟩ | ⟨-, s, -, -, -, hkeep⟩ | ⟨-, -, -, -, hkeep, -⟩ := field_cases hstep
    · exact hkeep
    · exact absurd hk hne
    · exact hkeep
    · exact hkeep

theorem last_extensions (h : members.foldlM field Reading.start = some r) :
    (Json.last (ascii "extensions") members = none ∧ r.obj.extensions.identity = none)
      ∨ ∃ v, Json.last (ascii "extensions") members = some v ∧ unmarshalExtensions v = some r.obj.extensions := by
  have hlast := Json.foldlM_last (ascii "extensions") unmarshalExtensions (fun r => some r.obj.extensions) ?_ ?_ h
  · obtain ⟨hnone, hget⟩ | ⟨v, e, hlast, hread, hget⟩ := hlast
    · exact .inl ⟨hnone, by rw [Option.some.inj hget]; rfl⟩
    · exact .inr ⟨v, hlast, hread.trans hget.symm⟩
  · intro r v r' hstep
    obtain ⟨-, e, he, hget, -⟩ | ⟨hk, -⟩ | ⟨hk, -⟩ | ⟨hk, -⟩ := field_cases hstep
    · exact ⟨e, he, congrArg some hget⟩
    · exact absurd hk (by decide)
    · exact absurd hk (by decide)
    · exact absurd rfl hk
  · intro r k v r' hstep hne
    obtain ⟨hk, -⟩ | ⟨-, s, -, -, -, hkeep, -⟩ | ⟨-, s, -, -, hkeep, -⟩ | ⟨-, -, -, hkeep, -⟩ := field_cases hstep
    · exact absurd hk hne
    · exact congrArg some hkeep
    · exact congrArg some hkeep
    · exact congrArg some hkeep

end JsonProto

variable {s : List UInt8}

theorem cstr_of_notMem (hs : 0 ∉ s) : cstr s = s := by
  apply List.takeWhile_eq_self_iff.mpr
  intro c hc
  exact decide_eq_true fun hzero => hs (hzero ▸ hc)

theorem notMem_of_strlen_eq (hs : strlen s = s.length) : 0 ∉ s := by
  have hself : cstr s = s := (List.takeWhile_prefix fun c => decide (c ≠ 0)).eq_of_length hs
  intro hzero
  have hne := List.takeWhile_eq_self_iff.mp hself 0 hzero
  exact absurd rfl (of_decide_eq_true hne)

theorem strlen_of_notMem (hs : 0 ∉ s) : strlen s = s.length := by
  rw [strlen, cstr_of_notMem hs]

theorem protoParseIdentity_of_notMem (hs : 0 ∉ s) (hlen : s.length ≤ 255) : protoParseIdentity s = some s := by
  rw [protoParseIdentity, if_neg (by omega), if_neg (by rw [strlen_of_notMem hs]; exact fun h => h rfl), cstr_of_notMem hs]

theorem protoParseIdentity_eq_some {i : List UInt8} (h : protoParseIdentity s = some i) : i = s ∧ 0 ∉ s ∧ s.length ≤ 255 := by
  unfold protoParseIdentity at h
  split at h
  · cases h
  split at h
  · cases h
  · rename_i hlen hstr
    have hzero := notMem_of_strlen_eq (Decidable.not_not.mp hstr)
    cases h
    exact ⟨cstr_of_notMem hzero, hzero, by omega⟩

theorem protoParseSessionId_encode (id : SessionId) : protoParseSessionId (Base64.encode id.val) = some id := by
  have hlen := encode_length_sessionId id
  have hzero : 0 ∉ Base64.encode id.val := fun h => absurd (plain_encode id.val 0 h) (by decide)
  rw [protoParseSessionId, strlen_of_notMem hzero, hlen, if_neg (by simp), Base64.decode_encode]
  exact dif_pos id.property

theorem protoParseSessionId_eq_some {id : SessionId} (h : protoParseSessionId s = some id) :
    s.length = 24 ∧ 0 ∉ s ∧ Base64.decode s = some id.val := by
  unfold protoParseSessionId at h
  split at h
  · cases h
  rename_i hlen
  obtain ⟨hlen, hstr⟩ := not_or.mp hlen
  rw [Decidable.not_not] at hlen hstr
  split at h
  · cases h
  rename_i t ht
  split at h
  · cases h
    exact ⟨hlen, notMem_of_strlen_eq (hstr.trans hlen.symm), ht⟩
  · cases h

/-- The type is judged as a whole. -/
theorem protoParseType_eq_some {n : Nat} (h : protoParseType s = some n) :
    0 ∉ s ∧ ∃ version, mimeCheckMedia s (ascii "x-multiplexd-proto") = .ok (some version) ∧ parseVersion version = some n := by
  unfold protoParseType at h
  split at h
  · cases h
  split at h
  · cases h
  rename_i hstr
  have hzero := notMem_of_strlen_eq (Decidable.not_not.mp hstr)
  rw [cstr_of_notMem hzero] at h
  split at h
  · rename_i version hcheck
    exact ⟨hzero, version, hcheck, h⟩
  · cases h

/-! ### The round trip -/

section Reader

variable [JsonReader]

variable {json : List UInt8}

theorem protoHelloParse_eq {obj : JsonProto} {type : List UInt8} {version : Nat} {sessionId : Option SessionId}
    {identity : Option (List UInt8)} (hlen : json.length ≤ maxPayloadSize)
    (hread : (JsonReader.parse json).bind JsonProto.unmarshal = some obj) (htype : obj.type = some type)
    (hversion : protoParseType type = some version) (hsid : optional protoParseSessionId obj.sessionId = some sessionId)
    (hid : optional protoParseIdentity obj.extensions.identity = some identity) :
    protoHelloParse json = some
      { version, msgid := obj.msgid, rejectInbound := obj.extensions.rejectInbound, lossymux := obj.extensions.lossymux,
        sessionId, hasResumeSeq := false, resumeSeq := obj.resumeSeq, identity } := by
  rw [protoHelloParse, if_neg (by omega), hread, Option.bind_eq_bind, Option.bind_some, htype, Option.bind_eq_bind,
    Option.bind_some, hversion, Option.bind_eq_bind, Option.bind_some, hsid, Option.bind_eq_bind, Option.bind_some, hid]
  rfl

/-- A hello that fits a frame is read back as it was written. -/
theorem protoHelloParse_marshal {msg : ProtoHello} (msgid : ProtoMsgid) {t : List UInt8} (hmsgid : msg.msgid = msgid.value)
    (hclaim : ∀ s ∈ msg.identity, 0 ∉ s ∧ s.length ≤ maxClaimLen) (ht : msg.raw.marshal = some t)
    (hlen : t.length ≤ maxPayloadSize) : protoHelloParse t = some
      { msg with version := 1, hasResumeSeq := false, resumeSeq := if msg.hasResumeSeq then msg.resumeSeq else 0 } := by
  have hidentity : msg.raw.extensions.identity = msg.identity := by
    change msg.identity.map cstr = msg.identity
    cases hsome : msg.identity with
    | none => rfl
    | some s => exact congrArg some (cstr_of_notMem (hclaim s hsome).1)
  have hread : (JsonReader.parse t).bind JsonProto.unmarshal = some msg.raw := by
    rw [JsonReader.parse_render (JsonProto.render_doc ht)]
    refine JsonProto.unmarshal_doc msgid hmsgid rfl ?_ ?_
    · intro s hs
      obtain ⟨id, -, rfl⟩ := Option.map_eq_some_iff.mp hs
      exact encode_length_sessionId id
    · intro s hs
      exact Nat.le_trans (hclaim s (hidentity ▸ hs)).2 (by decide)
  have htype : protoParseType protoType = some 1 := by decide +kernel
  have hsid : optional protoParseSessionId msg.raw.sessionId = some msg.sessionId := by
    change optional protoParseSessionId (msg.sessionId.map fun id => Base64.encode id.val) = _
    cases msg.sessionId with
    | none => rfl
    | some id => rw [Option.map_some, optional, protoParseSessionId_encode]; rfl
  have hid : optional protoParseIdentity msg.raw.extensions.identity = some msg.identity := by
    rw [hidentity]
    cases hsome : msg.identity with
    | none => rfl
    | some s =>
      obtain ⟨hzero, hlen⟩ := hclaim s hsome
      rw [optional, protoParseIdentity_of_notMem hzero (Nat.le_trans hlen (by decide))]
      rfl
  exact protoHelloParse_eq hlen hread rfl htype hsid hid

/-- The strings a hello was read from: each the whole of the last member of its name, without a NUL. -/
structure ReadsWhole (members : List (List UInt8 × Json)) (hello : ProtoHello) : Prop where
  type : ∃ s version, Json.last (ascii "type") members = some (.str s) ∧ 0 ∉ s
    ∧ mimeCheckMedia s (ascii "x-multiplexd-proto") = .ok (some version) ∧ parseVersion version = some hello.version
  sessionId_none : hello.sessionId = none → Json.last (ascii "session_id") members = none
  sessionId_some : ∀ id, hello.sessionId = some id → ∃ s, Json.last (ascii "session_id") members = some (.str s)
    ∧ s.length = 24 ∧ 0 ∉ s ∧ Base64.decode s = some id.val
  identity_none : hello.identity = none → Json.last (ascii "extensions") members = none
    ∨ ∃ extensions, Json.last (ascii "extensions") members = some (.obj extensions)
      ∧ Json.last (ascii "identity") extensions = none
  identity_some : ∀ s, hello.identity = some s → ∃ extensions,
    Json.last (ascii "extensions") members = some (.obj extensions)
      ∧ Json.last (ascii "identity") extensions = some (.str s) ∧ s.length ≤ 255 ∧ 0 ∉ s

omit [JsonReader] in
theorem optional_eq_some {α β : Type} {f : α → Option β} {a : Option α} {b : Option β} (h : optional f a = some b) :
    (a = none ∧ b = none) ∨ ∃ x y, a = some x ∧ f x = some y ∧ b = some y := by
  cases a with
  | none =>
    cases h
    exact .inl ⟨rfl, rfl⟩
  | some x =>
    obtain ⟨y, hy, rfl⟩ := Option.map_eq_some_iff.mp h
    exact .inr ⟨x, y, rfl, hy, rfl⟩

theorem readsWhole_of_parse {hello : ProtoHello} (h : protoHelloParse json = some hello) :
    ∃ members, JsonReader.parse json = some (.obj members) ∧ ReadsWhole members hello := by
  unfold protoHelloParse at h
  split at h
  · cases h
  simp only [bind, Option.bind_eq_some_iff] at h
  obtain ⟨obj, ⟨v, hv, hobj⟩, type, htype, version, hversion, sessionId, hsid, identity, hid, heq⟩ := h
  cases heq
  cases v with
  | str | num | bool | other => cases hobj
  | obj members =>
    refine ⟨members, hv, ?_⟩
    obtain ⟨r, hr, hobj⟩ := Option.bind_eq_some_iff.mp hobj
    split at hobj
    on_goal 2 => cases hobj
    cases hobj
    obtain ⟨hzero, text, hcheck, hparse⟩ := protoParseType_eq_some hversion
    refine ⟨?_, ?_, ?_, ?_, ?_⟩
    · obtain ⟨-, hnone⟩ | ⟨s, hlast, hs⟩ := JsonProto.last_type hr
      · exact absurd (hnone.symm.trans htype) (by simp)
      · cases hs.symm.trans htype
        exact ⟨_, text, hlast, hzero, hcheck, hparse⟩
    · rintro rfl
      obtain ⟨hlast, -⟩ | ⟨s, hlast, hs⟩ := JsonProto.last_sessionId hr
      · exact hlast
      · obtain ⟨hnone, -⟩ | ⟨x, y, -, -, hy⟩ := optional_eq_some hsid
        · exact absurd (hs.symm.trans hnone) (by simp)
        · cases hy
    · rintro id rfl
      obtain ⟨-, hnone⟩ | ⟨x, y, hx, hparse, hy⟩ := optional_eq_some hsid
      · cases hnone
      cases hy
      obtain ⟨-, hnone⟩ | ⟨s, hlast, hs⟩ := JsonProto.last_sessionId hr
      · exact absurd (hnone.symm.trans hx) (by simp)
      · cases hs.symm.trans hx
        exact ⟨_, hlast, protoParseSessionId_eq_some hparse⟩
    · rintro rfl
      obtain ⟨hlast, -⟩ | ⟨v, hlast, hext⟩ := JsonProto.last_extensions hr
      · exact .inl hlast
      obtain ⟨extensions, rfl, ⟨hnone, -⟩ | ⟨s, -, -, hs⟩⟩ := JsonProto.unmarshalExtensions_identity hext
      · exact .inr ⟨extensions, hlast, hnone⟩
      · obtain ⟨hnone, -⟩ | ⟨x, y, -, -, hy⟩ := optional_eq_some hid
        · exact absurd (hs.symm.trans hnone) (by simp)
        · cases hy
    · rintro i rfl
      obtain ⟨-, hnone⟩ | ⟨x, y, hx, hparse, hy⟩ := optional_eq_some hid
      · cases hnone
      cases hy
      obtain ⟨hi, hzero, hlen⟩ := protoParseIdentity_eq_some hparse
      obtain ⟨-, hnone⟩ | ⟨v, hlast, hext⟩ := JsonProto.last_extensions hr
      · exact absurd (hnone.symm.trans hx) (by simp)
      obtain ⟨extensions, rfl, ⟨-, hnone⟩ | ⟨s, hidentity, -, hs⟩⟩ := JsonProto.unmarshalExtensions_identity hext
      · exact absurd (hnone.symm.trans hx) (by simp)
      · cases hs.symm.trans hx
        rw [hi]
        exact ⟨extensions, hlast, hidentity, hlen, hzero⟩

namespace HelloContext

omit [JsonReader] in
theorem claim_spec {ss : HelloContext} {s : List UInt8} (h : s ∈ ss.claim) : 0 ∉ s ∧ s.length ≤ maxClaimLen := by
  unfold claim at h
  split at h
  · cases h
  · rename_i t ht
    split at h
    · cases h
      exact ⟨t.property, ‹_›⟩
    · cases h

end HelloContext

theorem HelloContext.buildHello_reads (ss : HelloContext) (msgid : ProtoMsgid) (includeResumeSeq : Bool)
    (hwritable : ∀ s ∈ ss.claim, (marshalString s).isSome) :
    ∃ json, ss.buildHello msgid includeResumeSeq = some json ∧ json.length < minFramePayload
      ∧ protoHelloParse json = some
        { version := 1, msgid := msgid.value, sessionId := ss.sessionId, hasResumeSeq := false,
          resumeSeq := if includeResumeSeq then ss.recvSeq else 0, identity := ss.claim,
          rejectInbound := ss.rejectInbound, lossymux := ss.lossymux } := by
  have hclaim : ∀ s ∈ ss.claim, 0 ∉ s ∧ s.length ≤ maxClaimLen := fun s hs => HelloContext.claim_spec hs
  obtain ⟨json, hmarshal, hpos, hsize⟩ := marshal_raw (ss.message msgid includeResumeSeq) msgid rfl
    (fun s hs => by rw [cstr_of_notMem (hclaim s hs).1]; exact (hclaim s hs).2)
    (fun s hs => by rw [cstr_of_notMem (hclaim s hs).1]; exact hwritable s hs)
  have hfits : json.length < minFramePayload := Nat.lt_of_le_of_lt hsize (by decide)
  refine ⟨json, ?_, hfits, ?_⟩
  · have hcap := ss.min_le
    rw [HelloContext.buildHello, protoHelloBuild, hmarshal]
    exact if_neg (by omega)
  · have hparse := protoHelloParse_marshal msgid rfl hclaim hmarshal (Nat.le_trans hsize (by decide))
    rw [hparse]
    cases includeResumeSeq <;> rfl

theorem HelloContext.buildHello_isSome (ss : HelloContext) (msgid : ProtoMsgid) (includeResumeSeq : Bool) :
    (ss.buildHello msgid includeResumeSeq).isSome ↔ ∀ s ∈ ss.claim, (marshalString s).isSome := by
  constructor
  · intro hsome s hs
    have hzero := (HelloContext.claim_spec hs).1
    rw [buildHello, protoHelloBuild] at hsome
    split at hsome
    · cases hsome
    rename_i json hjson
    simp only [JsonProto.marshal, JsonProto.marshalExtensions, bind, Option.bind_eq_some_iff] at hjson
    obtain ⟨extensions, ⟨identity, hid, -⟩, -⟩ := hjson
    have hraw : (ss.message msgid includeResumeSeq).raw.extensions.identity = some s := by
      change ss.claim.map cstr = some s
      rw [show ss.claim = some s from hs, Option.map_some, cstr_of_notMem hzero]
    rw [hraw] at hid
    obtain ⟨t, ht, -⟩ := Option.map_eq_some_iff.mp hid
    rw [ht, Option.isSome_some]
  · intro hwritable
    obtain ⟨json, hjson, -⟩ := ss.buildHello_reads msgid includeResumeSeq hwritable
    rw [hjson, Option.isSome_some]

/-- A hello is queued exactly when a frame can be had and the identity claim, if there is one, can be
written; it is then the last entry of the send buffer, by itself. In every other case the session is reset. -/
theorem HelloContext.enqueueHello_queued (conf : HelloContext) (ss : Session) (msgid : ProtoMsgid)
    (includeResumeSeq : Bool) :
    ((conf.enqueueHello ss msgid includeResumeSeq).1 = true ↔
        ss.frameGet.1 = true ∧ ∀ s ∈ conf.claim, (marshalString s).isSome) ∧
      ((conf.enqueueHello ss msgid includeResumeSeq).1 = true → ∃ hello,
        (conf.enqueueHello ss msgid includeResumeSeq).2.sendbuf =
          ss.sendbuf ++ [{ items := [⟨hello, ss.births⟩], cap := ss.maxPayload }] ∧
        (conf.enqueueHello ss msgid includeResumeSeq).2.txPending = true ∧
        (conf.ofSession ss).buildHello msgid includeResumeSeq = some hello.payload) ∧
      ((conf.enqueueHello ss msgid includeResumeSeq).1 = false →
        (conf.enqueueHello ss msgid includeResumeSeq).2 = ss.frameGet.2.reset ∧
        (conf.enqueueHello ss msgid includeResumeSeq).2.state = .closed) := by
  have hbuilt := (conf.ofSession ss).buildHello_isSome msgid includeResumeSeq
  obtain ⟨ok, allocs, hget⟩ := ss.frameGet_eq
  have hreset := (ss.withAllocs allocs).reset_state
  unfold enqueueHello
  rw [hget]
  cases ok with
  | false => exact ⟨iff_of_false nofun nofun, nofun, fun _ => ⟨rfl, hreset⟩⟩
  | true =>
    dsimp only
    split
    · rename_i hnone
      rw [show (conf.ofSession ss).buildHello msgid includeResumeSeq = none from hnone] at hbuilt
      exact ⟨iff_of_false nofun fun h => absurd (hbuilt.2 h.2) nofun, nofun, fun _ => ⟨rfl, hreset⟩⟩
    · rename_i json hjson
      exact ⟨iff_of_true rfl ⟨rfl, hbuilt.1 (Option.isSome_of_eq_some hjson)⟩, fun _ => ⟨_, rfl, rfl, hjson⟩, nofun⟩

theorem hello_round_trip :
    (∀ (ss : HelloContext) (msgid : ProtoMsgid) (includeResumeSeq : Bool), (∀ s ∈ ss.claim, (marshalString s).isSome) →
      ∃ json, ss.buildHello msgid includeResumeSeq = some json ∧ json.length < minFramePayload
        ∧ protoHelloParse json = some
          { version := 1, msgid := msgid.value, sessionId := ss.sessionId, hasResumeSeq := false,
            resumeSeq := if includeResumeSeq then ss.recvSeq else 0, identity := ss.claim,
            rejectInbound := ss.rejectInbound, lossymux := ss.lossymux })
    ∧ ∀ (json : List UInt8) (hello : ProtoHello), protoHelloParse json = some hello →
      ∃ members, JsonReader.parse json = some (.obj members) ∧ ReadsWhole members hello :=
  ⟨fun ss msgid includeResumeSeq hwritable => ss.buildHello_reads msgid includeResumeSeq hwritable,
    fun _ _ h => readsWhole_of_parse h⟩

/-- A claim whose octets are escaped in each of the writer's ways, and one that it copies. -/
def escapedClaim : HelloContext where
  maxPayload := minFramePayload
  min_le := Nat.le_refl _
  le_max := by decide
  rejectInbound := true
  lossymux := false
  sessionId := some ⟨List.replicate 16 0xff, rfl⟩
  recvSeq := 7
  identity := some ⟨[0x22, 0x0a, 0x01, 0x61], by decide⟩

omit [JsonReader] in
theorem hello_round_trip_escaped :
    marshalString [0x22, 0x0a, 0x01, 0x61] = some (ascii "\"\\\"\\n\\u0001a\"") ∧
      ∃ json, escapedClaim.buildHello .clientHello true = some json ∧ json.length < minFramePayload ∧
        @protoHelloParse Json.Compact.reader json = some
          { version := 1, msgid := 0, sessionId := escapedClaim.sessionId, hasResumeSeq := false, resumeSeq := 7,
            identity := some [0x22, 0x0a, 0x01, 0x61], rejectInbound := true, lossymux := false } :=
  ⟨by decide +kernel, (@hello_round_trip Json.Compact.reader).1 escapedClaim .clientHello true (by decide +kernel)⟩

omit [JsonReader] in
theorem bitVec_ofBytes_toBytes (id : BitVec 128) : BitVec.ofNat 128 (ofBytes (toBytes 16 id.toNat)) = id := by
  rw [ofBytes_toBytes, Nat.mod_eq_of_lt (show id.toNat < 256 ^ 16 from id.isLt), BitVec.ofNat_toNat, BitVec.setWidth_eq]

/-- What a session sends for the hello of `Lifecycle.lean`; what it does not say is taken from `ss`. -/
def HelloContext.forHello (ss : HelloContext) (h : Hello) : HelloContext :=
  { ss with
    sessionId := h.sessionId.map fun id => ⟨toBytes 16 id.toNat, toBytes_length 16 _⟩
    recvSeq := h.resumeSeq }

@[reducible] def HelloContext.codec (ss : HelloContext) (hwritable : ∀ s ∈ ss.claim, (marshalString s).isSome) : HelloCodec where
  build h := ((ss.forHello h).buildHello (if h.server then .serverHello else .clientHello) true).getD []
  build_lt := by
    intro h
    obtain ⟨json, hjson, hlen, -⟩ := (ss.forHello h).buildHello_reads (if h.server then .serverHello else .clientHello) true hwritable
    rw [hjson, Option.getD_some]
    exact Nat.lt_trans hlen (by decide)
  parse json := (protoHelloParse json).map fun (m : ProtoHello) =>
    { server := decide (m.msgid = (1 : Int))
      sessionId := m.sessionId.map fun id => BitVec.ofNat 128 (ofBytes id.val)
      resumeSeq := m.resumeSeq }
  parse_build := by
    intro h
    obtain ⟨json, hjson, -, hparse⟩ :=
      (ss.forHello h).buildHello_reads (if h.server then .serverHello else .clientHello) true hwritable
    have hid : (h.sessionId.map fun id => (⟨toBytes 16 id.toNat, toBytes_length 16 _⟩ : SessionId)).map
        (fun id => BitVec.ofNat 128 (ofBytes id.val)) = h.sessionId := by
      cases h.sessionId with
      | none => rfl
      | some id => exact congrArg some (bitVec_ofBytes_toBytes id)
    have hserver : decide (((if h.server then ProtoMsgid.serverHello else .clientHello).value : Int) = 1) = h.server := by
      cases h.server <;> rfl
    rw [hjson, Option.getD_some, hparse]
    change some (Hello.mk _ (Option.map _ (Option.map _ h.sessionId)) h.resumeSeq) = some h
    rw [hserver]
    exact congrArg (fun id => some (Hello.mk h.server id h.resumeSeq)) hid

omit [JsonReader] in
theorem HelloContext.buildHello_ofSession (conf : HelloContext) (ss : Session) (msgid : ProtoMsgid)
    (server includeResumeSeq : Bool) :
    (conf.ofSession ss).buildHello msgid includeResumeSeq =
      (conf.forHello (ss.hello server includeResumeSeq)).buildHello msgid true := by
  have hraw : ((conf.ofSession ss).message msgid includeResumeSeq).raw =
      ((conf.forHello (ss.hello server includeResumeSeq)).message msgid true).raw := by
    unfold ProtoHello.raw message ofSession forHello Session.hello
    cases ss.hasSessionId <;> cases includeResumeSeq <;> rfl
  unfold buildHello protoHelloBuild
  rw [hraw]
  rfl

/-- With a claim that can be written, queueing a hello is what `Lifecycle.lean` takes it to be. -/
theorem HelloContext.enqueueHello_eq (conf : HelloContext) (hwritable : ∀ s ∈ conf.claim, (marshalString s).isSome)
    (ss : Session) (server includeResumeSeq : Bool) :
    conf.enqueueHello ss (if server then .serverHello else .clientHello) includeResumeSeq =
      @Session.enqueueHello (conf.codec hwritable) ss server includeResumeSeq := by
  unfold enqueueHello Session.enqueueHello
  cases ss.frameGet with | mk ok ss =>
  cases ok with
  | false => rfl
  | true =>
    have hsession := conf.buildHello_ofSession ss (if server then .serverHello else .clientHello) server includeResumeSeq
    dsimp only
    split
    · rename_i hnone
      have hsome := ((conf.ofSession ss).buildHello_isSome (if server then .serverHello else .clientHello)
        includeResumeSeq).2 hwritable
      rw [hnone] at hsome
      cases hsome
    · rename_i json hjson
      rw [hjson] at hsession
      have hid : decide ((if server then ProtoMsgid.serverHello else .clientHello) = .serverHello) = server := by
        cases server <;> rfl
      have hbuild : @HelloCodec.build (conf.codec hwritable) (ss.hello server includeResumeSeq) = json :=
        congrArg (Option.getD · []) hsession.symm
      simp only [hid, helloFrame, hbuild]
      rfl

end Reader

end Multiplexd
