import Multiplexd.Conf.RoundTrip
import Multiplexd.Lib.Run

/-!
# What `GET /config` shows of the credentials

A configuration is installed at the start or by a reload: its references to files are resolved, the keys go
into a table and the credentials into TLS contexts, and the texts are erased before the server holds the
configuration. A reload that fails at any point leaves the one that is held. So two configurations that
differ in credentials alone are dumped alike, whatever is refused later.

What files hold and what the allocator, the TLS library and the listeners answer are inputs of each
attempt.
-/

namespace Multiplexd

/-- What `server_make_tls_contexts` passes to the TLS library of the credentials. -/
structure TlsContext where
  cert : Option Octets
  key : Option Octets
  authcerts : Option Octets
  psk : Option PskEntry
deriving DecidableEq

structure Installation where
  files : Files
  calloc : Bool
  tlsPskLabel : Octets → Bool
  tlsCtxServer : TlsContext → Bool
  tlsCtxClient : TlsContext → Bool
  prepareListeners : Bool
  reloadIdentities : Bool

structure ConfigServer where
  conf : Config
  serverTlsctx : Option TlsContext
  clientTlsctx : Option TlsContext
  psk : Option (List PskEntry)
  shuttingDown : Bool
deriving DecidableEq

namespace ConfigServer

/-- `server_psk_table_new`, where a configuration has keys at all; the table keeps them by identity. -/
def pskTable (w : Installation) (conf : Config) : Option (Option (List PskEntry)) :=
  if conf.tls.psk = [] then some none
  else if w.calloc ∧ conf.tls.psk.all fun e => w.tlsPskLabel e.hex then some (some conf.tls.psk)
  else none

/-- `server_make_tls_contexts`: the contexts, unless one could not be made, and what is left of the
configuration. -/
def serverMakeTlsContexts (w : Installation) (conf : Config) (psk : Option (List PskEntry)) :
    Option (Option TlsContext × Option TlsContext) × Config :=
  if psk.isNone ∧ (conf.tls.cert.isNone ∨ conf.tls.key.isNone) then (some (none, none), conf)
  else
    let tlsConf : TlsContext :=
      { cert := conf.tls.cert, key := conf.tls.key, authcerts := conf.tls.authcertsBundle
        psk := psk.bind List.head? }
    let needServer : Bool := conf.muxListen.isSome
    let needClient : Bool := conf.muxConnect.isSome || conf.identity.muxConnect ≠ []
    let ok := (!needServer || w.tlsCtxServer tlsConf) && (!needClient || w.tlsCtxClient tlsConf)
    let contexts := (if needServer then some tlsConf else none, if needClient then some tlsConf else none)
    (if ok then some contexts else none, confEraseCredentials conf)

def new (w : Installation) (conf : Config) : Option ConfigServer := do
  let psk ← pskTable w conf
  let (contexts, conf) := serverMakeTlsContexts w conf psk
  let (serverTlsctx, clientTlsctx) ← contexts
  some { conf, serverTlsctx, clientTlsctx, psk, shuttingDown := false }

/-- `main`, from the configuration that was parsed to the server. -/
def boot (w : Installation) (conf : Config) : Option ConfigServer :=
  match confInlinePem w.files conf with
  | .error _ => none
  | .ok conf => new w conf

def applyConfig (w : Installation) (s : ConfigServer) (newConf : Config) : Bool × ConfigServer :=
  if s.shuttingDown then (false, s)
  else
    match confInlinePem w.files newConf with
    | .error _ => (false, s)
    | .ok newConf =>
      match pskTable w newConf with
      | none => (false, s)
      | some psk =>
        match serverMakeTlsContexts w newConf psk with
        | (none, _) => (false, s)
        | (some (serverTlsctx, clientTlsctx), newConf) =>
          if w.prepareListeners ∧ w.reloadIdentities then
            (true, { s with conf := newConf, serverTlsctx, clientTlsctx, psk })
          else (false, s)

inductive HttpStatus where
  | ok
  | noContent
  | badRequest
  | forbidden
  | lengthRequired
  | internalServerError
deriving DecidableEq

section Api

variable {T : Type} (codec : ConfCodec T)

/-- `handle_config_get`; `append` tells whether the body found room. -/
def handleConfigGet (append : Bool) (s : ConfigServer) : HttpStatus × Option T :=
  match confDump codec s.conf none with
  | none => (.internalServerError, none)
  | some json => if append then (.ok, some json) else (.internalServerError, none)

/-- `handle_config_put`; a request without a length has no body. -/
def handleConfigPut (w : Installation) (s : ConfigServer) (body : Option T) : HttpStatus × ConfigServer :=
  match body with
  | none => (.lengthRequired, s)
  | some body =>
    if codec.length body = 0 then (.badRequest, s)
    else
      match confParse codec body with
      | .error _ => (.badRequest, s)
      | .ok newConf =>
        if s.conf.apiListen ≠ newConf.apiListen then (.forbidden, s)
        else
          match applyConfig w s newConf with
          | (false, s) => (.internalServerError, s)
          | (true, s) => (.noContent, s)

/-- `server_reload`; there is no text where there is no path or the file cannot be read. -/
def reload (w : Installation) (s : ConfigServer) (file : Option T) : Bool × ConfigServer :=
  match file with
  | none => (false, s)
  | some text =>
    match confParse codec text with
    | .error _ => (false, s)
    | .ok newConf => applyConfig w s newConf

/-- What reaches the server later: a request, SIGHUP, or the signal that ends it. -/
inductive Attempt (T : Type) where
  | put (w : Installation) (body : Option T)
  | sighup (w : Installation) (file : Option T)
  | sigterm

def attempt (s : ConfigServer) : Attempt T → Bool × ConfigServer
  | .put w body => ((handleConfigPut codec w s body).1 = .noContent, (handleConfigPut codec w s body).2)
  | .sighup w file => reload codec w s file
  | .sigterm => (false, { s with shuttingDown := true })

def step (s : ConfigServer) (a : Attempt T) : ConfigServer := (attempt codec s a).2

/-- The attempt did not install anything. -/
def Fails (s : ConfigServer) (a : Attempt T) : Prop := (attempt codec s a).1 = false

end Api

end ConfigServer

/-- Everything is the same but the contents of the certificate, the private key, the certificates that are
trusted and the keys that are shared. -/
structure Config.SameButSecrets (a b : Config) : Prop where
  rest : { a with tls := b.tls } = b
  cert : a.tls.cert.isSome = b.tls.cert.isSome
  key : a.tls.key.isSome = b.tls.key.isSome
  authcerts : a.tls.authcerts.length = b.tls.authcerts.length
  psk : a.tls.psk.map (·.id) = b.tls.psk.map (·.id)
  ciphersuites : a.tls.ciphersuites = b.tls.ciphersuites
  sni : a.tls.sni = b.tls.sni
  alpn : a.tls.alpn = b.tls.alpn
  kernelOffload : a.tls.kernelOffload = b.tls.kernelOffload
  socketOffload : a.tls.socketOffload = b.tls.socketOffload

namespace Config.SameButSecrets

theorem of_confInlinePem {files : Files} {conf conf' : Config} (h : confInlinePem files conf = .ok conf') :
    conf.SameButSecrets conf' := by
  simp only [confInlinePem, Except.bind_eq_ok] at h
  obtain ⟨cert, hcert, key, hkey, authcerts, hauthcerts, psk, hpsk, heq⟩ := h
  cases heq
  exact
    { rest := rfl
      cert := (Except.option_mapM_spec hcert).1.symm
      key := (Except.option_mapM_spec hkey).1.symm
      authcerts := (Except.mapM_forall₂ hauthcerts).length_eq
      psk := (Except.map_eq_of_mapM hpsk fun e e' he => (inlinePsk_spec he).1).symm
      ciphersuites := rfl, sni := rfl, alpn := rfl, kernelOffload := rfl, socketOffload := rfl }

theorem confObject_erase {a b : Config} (h : a.SameButSecrets b) :
    confObject (confEraseCredentials a) = confObject (confEraseCredentials b) := by
  have hmap : ∀ {o o' : Option Octets}, o.isSome = o'.isSome →
      (o.map fun _ => ([] : Octets)) = o'.map fun _ => [] := by
    intro o o' hsome
    cases o <;> cases o' <;> simp_all
  have hauthcerts : (a.tls.authcerts.map fun _ => ([] : Octets)) = b.tls.authcerts.map fun _ => [] := by
    rw [List.map_const', List.map_const', h.authcerts]
  have hpsk : (a.tls.psk.map fun e => ({ e with hex := [] } : PskEntry)) =
      b.tls.psk.map fun e => { e with hex := [] } := by
    have hids := congrArg (List.map fun id => ({ id := id, hex := [] } : PskEntry)) h.psk
    rw [List.map_map, List.map_map] at hids
    exact hids
  obtain ⟨tls, rfl⟩ : ∃ tls, b = { a with tls := tls } := ⟨b.tls, h.rest.symm⟩
  simp only [confObject, confEraseCredentials, hmap h.cert, hmap h.key, hauthcerts, hpsk, h.ciphersuites, h.sni,
    h.alpn, h.kernelOffload, h.socketOffload]
  rfl

end Config.SameButSecrets

namespace ConfigServer

variable {conf conf' : Config} {w : Installation} {s : ConfigServer}

theorem erase_of_plaintext {files : Files} (h : confInlinePem files conf = .ok conf')
    (hmode : TlsMode conf'.tls conf'.identity.verify) (hpsk : conf'.tls.psk = [])
    (hnone : conf'.tls.cert.isNone ∨ conf'.tls.key.isNone) : confEraseCredentials conf' = conf' := by
  cases hmode with
  | psk hkeys => exact absurd hpsk hkeys
  | certificate _ hcert hkey =>
    rw [← Option.not_isSome, ← Option.not_isSome, hcert, hkey] at hnone
    simp at hnone
  | plaintext _ hcert hkey hauthcerts =>
    simp only [confInlinePem, Except.bind_eq_ok] at h
    obtain ⟨cert, _, key, _, authcerts, _, psk, _, heq⟩ := h
    cases heq
    dsimp only at hcert hkey hauthcerts hpsk
    simp [confEraseCredentials, hcert, hkey, hauthcerts, hpsk]

theorem serverMakeTlsContexts_conf {psk : Option (List PskEntry)}
    (hinline : confInlinePem w.files conf = .ok conf') (hsettled : conf.Settled) (hpsk : pskTable w conf' = some psk) :
    (serverMakeTlsContexts w conf' psk).2 = confEraseCredentials conf' := by
  unfold serverMakeTlsContexts
  split_ifs with hnone
  · have hempty : conf'.tls.psk = [] := by
      unfold pskTable at hpsk
      split_ifs at hpsk with hempty
      · exact hempty
      · cases hpsk
        cases hnone.1
    exact (erase_of_plaintext hinline (confInlinePem_settled hinline hsettled).checked.mode hempty hnone.2).symm
  · rfl

/-- A configuration that was parsed is put in place, at the start or by a reload. -/
inductive Installs (conf : Config) : ConfigServer → Prop
  | startup (w : Installation) {s : ConfigServer} (h : boot w conf = some s) : Installs conf s
  | reload (w : Installation) {s₀ s : ConfigServer} (h : applyConfig w s₀ conf = (true, s)) : Installs conf s

theorem boot_eq_some (h : boot w conf = some s) :
    ∃ conf' psk, confInlinePem w.files conf = .ok conf' ∧ pskTable w conf' = some psk ∧
      s.conf = (serverMakeTlsContexts w conf' psk).2 := by
  unfold boot at h
  split at h
  · cases h
  · rename_i conf' hinline
    unfold new at h
    obtain ⟨psk, hpsk, h⟩ := Option.bind_eq_some_iff.1 h
    obtain ⟨contexts, hcontexts, h⟩ := Option.bind_eq_some_iff.1 h
    cases h
    exact ⟨conf', psk, hinline, hpsk, rfl⟩

theorem applyConfig_cases (w : Installation) (s : ConfigServer) (newConf : Config) :
    applyConfig w s newConf = (false, s) ∨
      ∃ conf' psk, confInlinePem w.files newConf = .ok conf' ∧ pskTable w conf' = some psk ∧
        (applyConfig w s newConf).1 = true ∧
        (applyConfig w s newConf).2.conf = (serverMakeTlsContexts w conf' psk).2 := by
  unfold applyConfig
  split
  · exact .inl rfl
  · split
    · exact .inl rfl
    · rename_i conf' hinline
      split
      · exact .inl rfl
      · rename_i psk hpsk
        split
        · exact .inl rfl
        · rename_i hcontexts
          split
          · refine .inr ⟨conf', psk, hinline, hpsk, rfl, ?_⟩
            rw [hcontexts]
          · exact .inl rfl

theorem Installs.inlined (h : Installs conf s) (hsettled : conf.Settled) :
    ∃ files conf', confInlinePem files conf = .ok conf' ∧ s.conf = confEraseCredentials conf' := by
  obtain ⟨w, conf', psk, hinline, hpsk, hconf⟩ : ∃ w : Installation, ∃ conf' psk,
      confInlinePem w.files conf = .ok conf' ∧ pskTable w conf' = some psk ∧
        s.conf = (serverMakeTlsContexts w conf' psk).2 := by
    cases h with
    | startup w h => exact ⟨w, boot_eq_some h⟩
    | @reload w s₀ _ h =>
      rcases applyConfig_cases w s₀ conf with hfalse | ⟨conf', psk, hinline, hpsk, _, hconf⟩
      · rw [h] at hfalse
        cases hfalse
      · rw [h] at hconf
        exact ⟨w, conf', psk, hinline, hpsk, hconf⟩
  exact ⟨w.files, conf', hinline, by rw [hconf, serverMakeTlsContexts_conf hinline hsettled hpsk]⟩

theorem Installs.confObject_conf (h : Installs conf s) (hsettled : conf.Settled) :
    confObject s.conf = confObject (confEraseCredentials conf) := by
  obtain ⟨files, conf', hinline, hconf⟩ := h.inlined hsettled
  rw [hconf]
  exact (Config.SameButSecrets.of_confInlinePem hinline).confObject_erase.symm

/-- No text of a credential is left: whatever certificate, key, trusted certificate, bundle or PSK the
configuration had is an empty text. -/
structure Erased (conf : Config) : Prop where
  cert : ∀ t ∈ conf.tls.cert, t = []
  key : ∀ t ∈ conf.tls.key, t = []
  authcerts : ∀ t ∈ conf.tls.authcerts, t = []
  authcertsBundle : ∀ t ∈ conf.tls.authcertsBundle, t = []
  psk : ∀ e ∈ conf.tls.psk, e.hex = []

theorem confEraseCredentials_erased (conf : Config) : Erased (confEraseCredentials conf) where
  cert := by simp [confEraseCredentials]
  key := by simp [confEraseCredentials]
  authcerts := by simp [confEraseCredentials]
  authcertsBundle := by simp [confEraseCredentials]
  psk := by simp [confEraseCredentials]

theorem Installs.erased (h : Installs conf s) (hsettled : conf.Settled) :
    Erased s.conf ∧ s.conf.apiListen = conf.apiListen := by
  obtain ⟨files, conf', hinline, hconf⟩ := h.inlined hsettled
  have hapi := congrArg Config.apiListen (Config.SameButSecrets.of_confInlinePem hinline).rest
  rw [hconf]
  exact ⟨confEraseCredentials_erased _, hapi.symm⟩

/-! ### Later attempts -/

section Later

variable {T : Type} {codec : ConfCodec T}

variable {w : Installation} {s : ConfigServer}

theorem applyConfig_of_fails {newConf : Config}
    (h : (applyConfig w s newConf).1 = false) : (applyConfig w s newConf).2 = s := by
  rcases applyConfig_cases w s newConf with hfalse | ⟨_, _, _, _, htrue, _⟩
  · rw [hfalse]
  · rw [htrue] at h
    cases h

variable (codec)

theorem handleConfigPut_cases (w : Installation) (s : ConfigServer) (body : Option T) :
    (handleConfigPut codec w s body).2 = s ∨ (handleConfigPut codec w s body).1 = .noContent ∧
      ∃ text newConf, confParse codec text = .ok newConf ∧ newConf.apiListen = s.conf.apiListen ∧
        applyConfig w s newConf = (true, (handleConfigPut codec w s body).2) := by
  unfold handleConfigPut
  split
  · exact .inl rfl
  · split
    · exact .inl rfl
    · split
      · exact .inl rfl
      · rename_i newConf hparse
        split
        · exact .inl rfl
        · rename_i hapi
          have hsame := @applyConfig_of_fails w s newConf
          revert hsame
          cases happly : applyConfig w s newConf with
          | mk ok s' =>
            cases ok with
            | false => exact fun hsame => .inl (hsame rfl)
            | true => exact fun _ => .inr ⟨rfl, _, newConf, hparse, (not_not.mp hapi).symm, happly⟩

theorem step_cases (s : ConfigServer) (a : Attempt T) : (step codec s a).conf = s.conf ∨ (attempt codec s a).1 = true ∧
    ∃ text newConf, confParse codec text = .ok newConf ∧ Installs newConf (step codec s a) ∧
      ((∃ w body, a = .put w body) → newConf.apiListen = s.conf.apiListen) := by
  cases a with
  | put w body =>
    rcases handleConfigPut_cases codec w s body with hsame | ⟨hstatus, text, newConf, hparse, hapi, happly⟩
    · exact .inl (congrArg conf hsame)
    · exact .inr ⟨decide_eq_true hstatus, text, newConf, hparse, .reload w happly, fun _ => hapi⟩
  | sighup w file =>
    unfold step
    rw [attempt]
    unfold reload
    split
    · exact .inl rfl
    · split
      · exact .inl rfl
      · rename_i newConf hparse
        by_cases hok : (applyConfig w s newConf).1 = true
        · exact .inr ⟨hok, _, newConf, hparse, .reload w (Prod.ext hok rfl), nofun⟩
        · exact .inl (congrArg conf (applyConfig_of_fails (Bool.eq_false_iff.mpr hok)))
  | sigterm => exact .inl rfl

variable {codec}

theorem conf_step_of_fails {a : Attempt T} (h : Fails codec s a) : (step codec s a).conf = s.conf :=
  (step_cases codec s a).resolve_right fun hok => absurd (h.symm.trans hok.1) (by decide)

theorem conf_run_of_fails {attempts : List (Attempt T)}
    (h : Along (step codec) (Fails codec) s attempts) : (runFrom (step codec) s attempts).conf = s.conf :=
  runFrom_invariant (fun s' => s'.conf = s.conf) (fun _ _ hconf hfails => (conf_step_of_fails hfails).trans hconf) rfl h

variable (codec)

/-- Whatever is requested and reloaded, the server holds no credential: the texts of the configuration
that it started with, and of every one that has replaced it, have been erased. -/
theorem run_erased {text : T} {conf : Config} (hparse : confParse codec text = .ok conf)
    (hboot : boot w conf = some s) (attempts : List (Attempt T)) :
    Erased (runFrom (step codec) s attempts).conf := by
  refine runFrom_invariant_always (fun s' : ConfigServer => Erased s'.conf) (fun s a h => ?_)
    ((Installs.startup w hboot).erased (confParse_settled hparse).1).1 attempts
  rcases step_cases codec s a with hsame | ⟨-, _, _, hparse, hinstalls, -⟩
  · rwa [hsame]
  · exact (hinstalls.erased (confParse_settled hparse).1).1

/-- Requests to the API never change the address it listens on. -/
theorem run_apiListen (s : ConfigServer) (requests : List (Installation × Option T)) :
    (runFrom (step codec) s (requests.map fun r => .put r.1 r.2)).conf.apiListen = s.conf.apiListen := by
  induction requests generalizing s with
  | nil => rfl
  | cons r requests ih =>
    refine (ih _).trans ?_
    rcases step_cases codec s (.put r.1 r.2) with hsame | ⟨-, _, _, hparse, hinstalls, hapi⟩
    · rw [hsame]
    · exact (hinstalls.erased (confParse_settled hparse).1).2.trans (hapi ⟨r.1, r.2, rfl⟩)

end Later

/-- Two configurations that were parsed and differ in credentials alone are shown alike once they are
installed, and after whatever sequences of reloads that fail. -/
theorem handleConfigGet_reveals_no_credential {T : Type} (codec : ConfCodec T) (textA textB : T) (confA confB : Config)
    (hA : confParse codec textA = .ok confA) (hB : confParse codec textB = .ok confB)
    (hsame : confA.SameButSecrets confB) (sA sB : ConfigServer) (hsA : Installs confA sA) (hsB : Installs confB sB)
    (attemptsA attemptsB : List (Attempt T)) (hfailsA : Along (step codec) (Fails codec) sA attemptsA)
    (hfailsB : Along (step codec) (Fails codec) sB attemptsB) (append : Bool) :
    handleConfigGet codec append (runFrom (step codec) sA attemptsA) =
      handleConfigGet codec append (runFrom (step codec) sB attemptsB) := by
  have hobject : confObject sA.conf = confObject sB.conf :=
    calc confObject sA.conf
      _ = confObject (confEraseCredentials confA) := hsA.confObject_conf (confParse_settled hA).1
      _ = confObject (confEraseCredentials confB) := hsame.confObject_erase
      _ = confObject sB.conf := (hsB.confObject_conf (confParse_settled hB).1).symm
  unfold handleConfigGet confDump
  rw [conf_run_of_fails hfailsA, conf_run_of_fails hfailsB, hobject]

/-- The sample with another key. -/
def sampleKeyed (c : UInt8) : JsonConf :=
  { sampleObject with
    tls := { pskJson := some (.object [(ascii "edge", some (List.replicate 64 c))] true) } }

def granted : Installation where
  files _ := none
  calloc := true
  tlsPskLabel _ := true
  tlsCtxServer _ := true
  tlsCtxClient _ := true
  prepareListeners := true
  reloadIdentities := true

/-- What is parsed of it. -/
def keyedConf (c : UInt8) : Config where
  type := none
  apiListen := none
  muxListen := none
  muxConnect := some (ascii "192.0.2.1:1")
  listen := none
  connect := none
  tls :=
    { cert := none, key := none, ciphersuites := none, sni := none, alpn := none, authcerts := []
      authcertsBundle := none, kernelOffload := false, socketOffload := false
      psk := [{ id := ascii "edge", hex := List.replicate 64 c }] }
  mux :=
    { nodelay := true, maxHalfopen := 256, maxStreams := 0, connectTimeout := 15, keepalive := 7200, timeout := 7920
      sendTimeout := 10, idleTimeout := 0, resumeTimeout := 600, sessionWindow := 6, streamWindow := 0
      maxFramePayload := 16376, readahead := 131072, memPressureHi := 0, memPressureLo := 0, lossymux := false
      lossymuxIdleTimeout := 60, lossymuxQueue := 64 }
  muxTcp := loadSocketOpts { notsentLowat := 131072, keepalive := false }
  tcp := loadSocketOpts { notsentLowat := 0, keepalive := true }
  identity := { claim := none, muxConnect := [], peers := [], verify := false }
  log := none
  loglevel := 8
  maxSessions := 0
  startupLimitStart := 0
  startupLimitRate := 0
  startupLimitFull := 0

def keyedServer (c : UInt8) : ConfigServer where
  conf := confEraseCredentials (keyedConf c)
  serverTlsctx := none
  clientTlsctx :=
    some { cert := none, key := none, authcerts := none, psk := some { id := ascii "edge", hex := List.replicate 64 c } }
  psk := some (keyedConf c).tls.psk
  shuttingDown := false

theorem handleConfigGet_reveals_no_credential_keyed :
    confParse objectCodec (sampleKeyed 0x61) = .ok (keyedConf 0x61) ∧
      confParse objectCodec (sampleKeyed 0x62) = .ok (keyedConf 0x62) ∧
      boot granted (keyedConf 0x61) = some (keyedServer 0x61) ∧
      applyConfig granted (keyedServer 0x61) (keyedConf 0x62) = (true, keyedServer 0x62) ∧
      keyedServer 0x61 ≠ keyedServer 0x62 ∧
      handleConfigGet objectCodec true (runFrom (step objectCodec) (keyedServer 0x61) [.put granted none, .sigterm]) =
        handleConfigGet objectCodec true (keyedServer 0x62) := by
  have hparse : confParse objectCodec (sampleKeyed 0x61) = .ok (keyedConf 0x61) ∧
      confParse objectCodec (sampleKeyed 0x62) = .ok (keyedConf 0x62) := by decide +kernel
  have hsame : (keyedConf 0x61).SameButSecrets (keyedConf 0x62) := by
    constructor <;> rfl
  have hboot : boot granted (keyedConf 0x61) = some (keyedServer 0x61) := rfl
  have hreload : applyConfig granted (keyedServer 0x61) (keyedConf 0x62) = (true, keyedServer 0x62) := rfl
  refine ⟨hparse.1, hparse.2, hboot, hreload, ?_, ?_⟩
  · intro heq
    have hpsk := congrArg ConfigServer.psk heq
    revert hpsk
    decide
  · exact handleConfigGet_reveals_no_credential objectCodec _ _ _ _ hparse.1 hparse.2 hsame _ _ (.startup granted hboot)
      (.reload granted hreload) [.put granted none, .sigterm] [] ⟨rfl, rfl, trivial⟩ trivial true

theorem run_erased_keyed : boot granted (keyedConf 0x61) = some (keyedServer 0x61) ∧
    (keyedServer 0x61).conf.tls.psk = [{ id := ascii "edge", hex := [] }] ∧ ¬ Erased (keyedConf 0x61) ∧
    Erased (runFrom (step objectCodec) (keyedServer 0x61) [.put granted none, .sigterm]).conf := by
  have hparse : confParse objectCodec (sampleKeyed 0x61) = .ok (keyedConf 0x61) := by decide +kernel
  have hboot : boot granted (keyedConf 0x61) = some (keyedServer 0x61) := rfl
  refine ⟨hboot, rfl, fun h => ?_, run_erased objectCodec hparse hboot _⟩
  exact absurd (h.psk _ (List.mem_singleton_self _)) (by decide)

end ConfigServer

end Multiplexd
