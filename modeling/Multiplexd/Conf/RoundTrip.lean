import Multiplexd.Conf.Fields

/-!
# A dumped configuration reads back

What `conf_parse` returns is settled: every clamp has been taken, every unit is whole, every key is
trimmed, and the maps hold each key once. A settled configuration is loaded from its own dump as it is,
and the checks find nothing left to change. Resolving the references to files keeps it settled, so a
dump may be taken before or after that.
-/

namespace Multiplexd

open Json (intMax)

structure IdentityStored (identity : ConfIdentity) : Prop where
  claim : ∀ s ∈ identity.claim, NulFree s
  claimLen : JsonConf.withinLen 63 identity.claim
  muxConnect : ∀ s ∈ identity.muxConnect, NulFree s
  muxConnectLen : identity.muxConnect.all fun s => s.length ≤ 261
  peers : PeersStored identity.peers

theorem confLoadIdentity_stored {obj : JsonConfIdentity} {identity : ConfIdentity}
    (h : confLoadIdentity obj = .ok identity) (hvalid : JsonConf.identityValid obj) : IdentityStored identity := by
  simp only [confLoadIdentity, Except.bind_eq_ok] at h
  obtain ⟨claim, hclaim, muxConnect, hmuxConnect, peers, hpeers, heq⟩ := h
  cases heq
  obtain ⟨hclaim', rfl⟩ := strndupField_eq_ok.1 hclaim
  obtain ⟨hmuxConnect', rfl⟩ := confLoadStringArr_eq_ok hmuxConnect
  simp only [JsonConf.identityValid, Bool.and_eq_true] at hvalid
  exact
    { claim := hclaim', claimLen := hvalid.1, muxConnect := hmuxConnect', muxConnectLen := hvalid.2
      peers := confWalkMap_listen hpeers }

variable {conf conf' : Config} {files : Files}

theorem confLoadIdentity_dump (h : IdentityStored conf.identity) :
    confLoadIdentity (confObject conf).identity = .ok conf.identity := by
  simp only [confLoadIdentity, confObject, strndupField_self _ h.claim, confLoadStringArr_self _ h.muxConnect,
    confWalkMap_buildListenJson h.peers, Except.ok_bind]

/-! ### Settled configurations -/

/-- The texts of the addresses. -/
def Config.addresses (conf : Config) : List (Option Octets) :=
  [conf.apiListen, conf.muxListen, conf.muxConnect, conf.listen, conf.connect]

/-- What `confLoad` leaves. -/
structure Config.Loaded (conf : Config) : Prop where
  addresses : ∀ s ∈ conf.addresses, (∀ x ∈ s, NulFree x) ∧ JsonConf.withinLen 261 s
  log : (∀ x ∈ conf.log, NulFree x) ∧ conf.log.all fun s => JsonConf.logEnum.contains s
  tls : TlsStored conf.tls
  mux : conf.mux.Fits
  muxTcp : conf.muxTcp.Fits
  tcp : conf.tcp.Fits
  identity : IdentityStored conf.identity
  loglevel : conf.loglevel ≤ intMax
  maxSessions : conf.maxSessions ≤ intMax
  startups : conf.startupLimitStart ≤ intMax ∧ conf.startupLimitRate ≤ intMax ∧ conf.startupLimitFull ≤ intMax

/-- What `confCheck` has checked and completed. -/
structure Config.Checked (conf : Config) : Prop where
  transport : ¬ (conf.muxListen.isNone ∧ conf.muxConnect.isNone ∧ conf.identity.muxConnect = [])
  mode : TlsMode conf.tls conf.identity.verify
  psk : ∀ e ∈ conf.tls.psk, confCheckPskEntry e = .ok e
  mux : normalizeMux { conf.mux with timeout := 0 } = conf.mux
  loglevel : conf.loglevel ≤ 8
  limits : confCheckLimits conf = .ok ()
  peers : conf.identity.peers.forM confCheckPeer = .ok ()
  claim : ¬ ((conf.identity.muxConnect ≠ [] ∨ conf.identity.peers ≠ []) ∧ conf.identity.claim.isNone)

structure Config.Settled (conf : Config) : Prop where
  loaded : conf.Loaded
  checked : conf.Checked

theorem confLoad_loaded {obj : JsonConf} (h : confLoad obj = .ok conf) (hvalid : obj.valid) :
    conf.Loaded ∧ conf.tls.sni = obj.tls.sni ∧ conf.tls.authcertsBundle = none := by
  simp only [confLoad, Except.bind_eq_ok] at h
  obtain ⟨type, htype, apiListen, hapiListen, muxListen, hmuxListen, muxConnect, hmuxConnect, listen, hlisten,
    connect, hconnect, log, hlog, startups, hstartups, tls, htls, identity, hidentity, heq⟩ := h
  cases heq
  obtain ⟨hapiListen', rfl⟩ := strndupField_eq_ok.1 hapiListen
  obtain ⟨hmuxListen', rfl⟩ := strndupField_eq_ok.1 hmuxListen
  obtain ⟨hmuxConnect', rfl⟩ := strndupField_eq_ok.1 hmuxConnect
  obtain ⟨hlisten', rfl⟩ := strndupField_eq_ok.1 hlisten
  obtain ⟨hconnect', rfl⟩ := strndupField_eq_ok.1 hconnect
  obtain ⟨hlog', rfl⟩ := strndupField_eq_ok.1 hlog
  obtain ⟨htls', hsni⟩ := confLoadTls_spec htls
  simp only [JsonConf.valid, Bool.and_eq_true] at hvalid
  obtain ⟨⟨⟨⟨⟨⟨⟨⟨⟨⟨hvidentity, hvmux⟩, hvtcp⟩, hvapi⟩, hvconnect⟩, hvlisten⟩, hvlog⟩, hvmuxConnect⟩, hvmuxListen⟩,
    _⟩, _⟩ := hvalid
  have hvmuxTcp : JsonConf.tcpValid obj.mux.tcp := by
    simp only [JsonConf.muxValid, Bool.and_eq_true] at hvmux
    tauto
  refine ⟨?_, hsni⟩
  exact
    { addresses := by
        simp only [Config.addresses, List.forall_mem_cons]
        exact ⟨⟨hapiListen', hvapi⟩, ⟨hmuxListen', hvmuxListen⟩, ⟨hmuxConnect', hvmuxConnect⟩, ⟨hlisten', hvlisten⟩,
          ⟨hconnect', hvconnect⟩, by simp⟩
      log := ⟨hlog', hvlog⟩
      tls := htls'
      mux := confLoadMux_fits hvmux
      muxTcp := loadSocketOpts_fits hvmuxTcp
      tcp := loadSocketOpts_fits hvtcp
      identity := confLoadIdentity_stored hidentity hvidentity
      loglevel := Nat.min_le_right _ _
      maxSessions := Nat.min_le_right _ _
      startups := confParseMaxStartups_le hstartups }

theorem confCheck_settled (h : confCheck conf = .ok conf') (hloaded : conf.Loaded)
    (hsni : conf.tls.sni.isSome) : conf'.Settled ∧ conf'.tls.authcertsBundle = conf.tls.authcertsBundle := by
  unfold confCheck at h
  obtain ⟨_, htype, h⟩ := Except.bind_eq_ok.1 h
  split_ifs at h with htransport
  obtain ⟨checked, hchecked, h⟩ := Except.bind_eq_ok.1 h
  obtain ⟨_, hlimits, h⟩ := Except.bind_eq_ok.1 h
  obtain ⟨_, hpeers, h⟩ := Except.bind_eq_ok.1 h
  split_ifs at h with hclaim
  cases h
  obtain ⟨hmode, hstored, hpsk, heq, hbundle⟩ := confCheckTls_spec hchecked hloaded.tls hsni
  obtain ⟨tls, rfl⟩ : ∃ tls, checked = { conf with tls := tls } := ⟨_, heq⟩
  have hlevel := clamp_mem conf.loglevel (Nat.zero_le 8)
  refine ⟨?_, hbundle⟩
  constructor
  case loaded =>
    exact
      { addresses := hloaded.addresses
        log := hloaded.log
        tls := hstored
        mux := normalizeMux_fits hloaded.mux
        muxTcp := hloaded.muxTcp
        tcp := hloaded.tcp
        identity := hloaded.identity
        loglevel := hlevel.2.trans (by decide)
        maxSessions := hloaded.maxSessions
        startups := hloaded.startups }
  case checked =>
    exact
      { transport := htransport
        mode := hmode
        psk := hpsk
        mux := normalizeMux_idem conf.mux
        loglevel := hlevel.2
        limits := hlimits
        peers := hpeers
        claim := hclaim }

theorem confParse_settled {T : Type} {codec : ConfCodec T} {text : T}
    (h : confParse codec text = .ok conf) : conf.Settled ∧ conf.tls.authcertsBundle = none := by
  unfold confParse at h
  split_ifs at h with hlength
  split at h
  · cases h
  · rename_i obj hobj
    obtain ⟨hvalid, hdefaults⟩ := codec.accepted hobj
    obtain ⟨loaded, hload, hcheck⟩ := Except.bind_eq_ok.1 h
    obtain ⟨hloaded, hsni, hbundle⟩ := confLoad_loaded hload hvalid
    have hname : loaded.tls.sni.isSome := by
      rw [hsni, ← hdefaults]
      cases hname : obj.tls.sni <;> simp [JsonConf.withDefaults, hname]
    obtain ⟨hsettled, hsame⟩ := confCheck_settled hcheck hloaded hname
    exact ⟨hsettled, hsame.trans hbundle⟩

theorem inlineField_nulFree {field : String} {s t : Octets} (h : inlineField files field s = .ok t)
    (hs : NulFree s) : NulFree t := by
  unfold inlineField at h
  split at h
  · split at h
    · cases h
    · split_ifs at h with hlength hnul
      cases h
      exact hnul
  · cases h
    exact hs

theorem inlinePsk_spec {e e' : PskEntry} (h : inlinePsk files e = .ok e') :
    e'.id = e.id ∧ (NulFree e.hex → NulFree e'.hex) ∧
      (confCheckPskEntry e = .ok e → confCheckPskEntry e' = .ok e') := by
  unfold inlinePsk at h
  split at h
  · obtain ⟨content, hcontent, h⟩ := Except.bind_eq_ok.1 h
    obtain ⟨_, hkey, h⟩ := Except.bind_eq_ok.1 h
    cases h
    refine ⟨rfl, fun hnul => pskTrim_nulFree (inlineField_nulFree hcontent hnul), fun hchecked => ?_⟩
    exact confCheckPskEntry_of_key (confCheckPskEntry_spec hchecked).2.2.1 hkey
  · cases h
    exact ⟨rfl, id, id⟩

theorem TlsMode.of_sameShape {tls tls' : ConfTls} {verify : Bool} (h : TlsMode tls verify)
    (hcert : tls'.cert.isSome = tls.cert.isSome) (hkey : tls'.key.isSome = tls.key.isSome)
    (hauthcerts : tls'.authcerts.length = tls.authcerts.length) (hpsk : tls'.psk.length = tls.psk.length)
    (hsni : tls'.sni = tls.sni) : TlsMode tls' verify := by
  have hnone : ∀ {o o' : Option Octets}, o'.isSome = o.isSome → o = none → o' = none := by
    intro o o' hsome ho
    simpa [ho] using hsome
  have hnil : ∀ {α : Type} {l l' : List α}, l'.length = l.length → (l' = [] ↔ l = []) := by
    intro α l l' hlength
    rw [← List.length_eq_zero_iff, hlength, List.length_eq_zero_iff]
  cases h with
  | psk h₁ h₂ h₃ h₄ h₅ hverify =>
    exact .psk (mt (hnil hpsk).1 h₁) (hnone hcert h₂) (hnone hkey h₃) ((hnil hauthcerts).2 h₄) (hsni.trans h₅) hverify
  | certificate h₁ h₂ h₃ h₄ h₅ =>
    exact .certificate ((hnil hpsk).2 h₁) (hcert.trans h₂) (hkey.trans h₃) (mt (hnil hauthcerts).1 h₄) (hsni ▸ h₅)
  | plaintext h₁ h₂ h₃ h₄ h₅ hverify =>
    exact .plaintext ((hnil hpsk).2 h₁) (hnone hcert h₂) (hnone hkey h₃) ((hnil hauthcerts).2 h₄) (hsni ▸ h₅) hverify

theorem confInlinePem_settled (h : confInlinePem files conf = .ok conf')
    (hsettled : conf.Settled) : conf'.Settled := by
  obtain ⟨hloaded, hchecked⟩ := hsettled
  simp only [confInlinePem, Except.bind_eq_ok] at h
  obtain ⟨cert, hcert, key, hkey, authcerts, hauthcerts, psk, hpsk, heq⟩ := h
  cases heq
  have hcert' := Except.option_mapM_spec hcert
  have hkey' := Except.option_mapM_spec hkey
  have htls := hloaded.tls
  constructor
  case loaded =>
    refine { hloaded with tls := { htls with cert := ?_, key := ?_, authcerts := ?_, psk := ?_ } }
    · intro t ht
      obtain ⟨s, hs, hst⟩ := hcert'.2 t ht
      exact inlineField_nulFree hst (htls.cert s hs)
    · intro t ht
      obtain ⟨s, hs, hst⟩ := hkey'.2 t ht
      exact inlineField_nulFree hst (htls.key s hs)
    · intro t ht
      obtain ⟨s, hs, hst⟩ := Except.exists_of_mem_mapM hauthcerts ht
      exact inlineField_nulFree hst (htls.authcerts s hs)
    · exact htls.psk.mapM (fun e e' he => (inlinePsk_spec he).1) (fun e e' he => (inlinePsk_spec he).2.1) hpsk
  case checked =>
    refine { hchecked with mode := ?_, psk := ?_ }
    · exact hchecked.mode.of_sameShape hcert'.1 hkey'.1 (Except.mapM_forall₂ hauthcerts).length_eq.symm
        (Except.mapM_forall₂ hpsk).length_eq.symm rfl
    · intro e' he'
      obtain ⟨e, he, hee'⟩ := Except.exists_of_mem_mapM hpsk he'
      exact (inlinePsk_spec hee').2.2 (hchecked.psk e he)

/-! ### The dump -/

theorem confObject_valid (h : conf.Loaded) : (confObject conf).valid := by
  have hle : intMax ≤ uintmaxMax := by decide
  have hunsigned : intMax ≤ uintMax := by decide
  have haddresses := h.addresses
  simp only [Config.addresses, List.forall_mem_cons] at haddresses
  obtain ⟨hapi, hmuxListen, hmuxConnect, hlisten, hconnect, -⟩ := haddresses
  have hidentity : JsonConf.identityValid (confObject conf).identity := by
    simp only [JsonConf.identityValid, confObject, Bool.and_eq_true]
    exact ⟨h.identity.claimLen, h.identity.muxConnectLen⟩
  have hlevel : unsigned conf.loglevel ≤ uintmaxMax := by
    rw [unsigned_of_le (h.loglevel.trans hunsigned)]
    exact h.loglevel.trans hle
  simp only [JsonConf.valid, Bool.and_eq_true, decide_eq_true_eq]
  exact ⟨⟨⟨⟨⟨⟨⟨⟨⟨⟨hidentity, dumpMux_valid h.mux h.muxTcp⟩, dumpSocketOpts_valid h.tcp⟩, hapi.2⟩, hconnect.2⟩,
    hlisten.2⟩, h.log.2⟩, hmuxConnect.2⟩, hmuxListen.2⟩, hlevel⟩, h.maxSessions.trans hle⟩

def Config.reloaded (conf : Config) : Config :=
  { conf with
    type := some confType
    tls := { conf.tls with sni := conf.tls.sni.or (some sniDefault), authcertsBundle := none }
    mux := { conf.mux with timeout := 0 } }

theorem confLoad_dump (h : conf.Loaded) : confLoad (confObject conf).withDefaults = .ok conf.reloaded := by
  have hunsigned : intMax ≤ uintMax := by decide
  have haddresses := h.addresses
  simp only [Config.addresses, List.forall_mem_cons] at haddresses
  obtain ⟨hapi, hmuxListen, hmuxConnect, hlisten, hconnect, -⟩ := haddresses
  have htype : strndupField "type" (some confType) = .ok (some confType) :=
    strndupField_self _ (by intro s hs; cases hs; unfold NulFree; decide)
  have hstartups : confParseMaxStartups (confObject conf).withDefaults.maxStartups = _ :=
    confParseMaxStartups_dump h.startups
  have htls := confLoadTls_dump h.tls
  have hidentity : confLoadIdentity (confObject conf).withDefaults.identity = _ := confLoadIdentity_dump h.identity
  simp only [confObject, JsonConf.withDefaults] at hstartups htls hidentity
  simp only [confLoad, confObject, JsonConf.withDefaults, htype, strndupField_self _ hapi.1,
    strndupField_self _ hmuxListen.1, strndupField_self _ hmuxConnect.1, strndupField_self _ hlisten.1,
    strndupField_self _ hconnect.1, strndupField_self _ h.log.1, hstartups, htls, hidentity,
    confLoadMux_dump h.mux, loadSocketOpts_dump h.tcp, unsigned_of_le (h.loglevel.trans hunsigned),
    Nat.min_eq_left h.loglevel, Nat.min_eq_left h.maxSessions, Except.ok_bind, Config.reloaded]
  rw [show loadSocketOpts (dumpMux conf.mux conf.muxTcp).tcp = conf.muxTcp from loadSocketOpts_dump h.muxTcp]

theorem confCheckType_confType : confCheckType (some confType) = .ok () := by decide +kernel

/-- The same configuration, with the type that a dump names and without the bundle that only the inlining of
the references makes. -/
def Config.dumped (conf : Config) : Config :=
  { conf with type := some confType, tls := { conf.tls with authcertsBundle := none } }

theorem confCheck_reloaded (h : conf.Checked) : confCheck conf.reloaded = .ok conf.dumped := by
  have htls : confCheckTls conf.reloaded =
      .ok { conf.reloaded with tls := { conf.tls with authcertsBundle := none } } := by
    refine confCheckTls_self ?_ h.psk rfl
    exact h.mode.of_sameShape rfl rfl rfl rfl rfl
  have hnormalize : confNormalize { conf.reloaded with tls := { conf.tls with authcertsBundle := none } } =
      conf.dumped := by
    simp only [confNormalize, Config.reloaded, Config.dumped, h.mux, clamp_of_mem (Nat.zero_le _) h.loglevel]
  unfold confCheck
  have htransport : ¬ (conf.reloaded.muxListen.isNone ∧ conf.reloaded.muxConnect.isNone ∧
      conf.reloaded.identity.muxConnect = []) := h.transport
  have hlimits : confCheckLimits conf.dumped = .ok () := h.limits
  have hpeers : conf.dumped.identity.peers.forM confCheckPeer = .ok () := h.peers
  have hclaim : ¬ ((conf.dumped.identity.muxConnect ≠ [] ∨ conf.dumped.identity.peers ≠ []) ∧
      conf.dumped.identity.claim.isNone) := h.claim
  rw [show conf.reloaded.type = some confType from rfl, confCheckType_confType, Except.ok_bind, if_neg htransport,
    htls, Except.ok_bind]
  dsimp only at hnormalize ⊢
  rw [hnormalize, hlimits, Except.ok_bind, hpeers, Except.ok_bind, if_neg hclaim]

theorem confParse_confDump {T : Type} {codec : ConfCodec T} {indent : Option Octets} {dump : T}
    (h : conf.Settled) (hdump : confDump codec conf indent = some dump) :
    confParse codec dump = .ok conf.dumped := by
  unfold confDump at hdump
  obtain ⟨hmarshal, hlength⟩ := Option.filter_eq_some_iff.1 hdump
  rw [decide_eq_true_eq] at hlength
  unfold confParse
  rw [if_neg (by omega), codec.restored hmarshal (confObject_valid h.loaded)]
  dsimp only
  rw [confLoad_dump h.loaded, Except.ok_bind, confCheck_reloaded h.checked]

/-- The dump of a configuration that was parsed is parsed as the same configuration, but for the literal
type, and dumps as the same text. Resolving the references to files first changes nothing about that; the
bundle that this makes is not part of a dump. -/
theorem parse_dump_parse {T : Type} (codec : ConfCodec T) (text : T) (conf : Config)
    (hparse : confParse codec text = .ok conf) :
    (∀ indent dump, confDump codec conf indent = some dump →
      confParse codec dump = .ok { conf with type := some confType } ∧
        ∀ indent', confDump codec { conf with type := some confType } indent' = confDump codec conf indent') ∧
    (∀ files inlined indent dump, confInlinePem files conf = .ok inlined →
      confDump codec inlined indent = some dump →
      confParse codec dump =
          .ok { inlined with type := some confType, tls := { inlined.tls with authcertsBundle := none } } ∧
        ∀ indent', confDump codec
            { inlined with type := some confType, tls := { inlined.tls with authcertsBundle := none } } indent' =
          confDump codec inlined indent') := by
  obtain ⟨hsettled, hbundle⟩ := confParse_settled hparse
  refine ⟨fun indent dump hdump => ⟨?_, fun _ => rfl⟩, fun files inlined indent dump hinline hdump => ⟨?_, fun _ => rfl⟩⟩
  · rw [confParse_confDump hsettled hdump, Config.dumped, ← hbundle]
  · exact confParse_confDump (confInlinePem_settled hinline hsettled) hdump

def objectCodec : ConfCodec JsonConf where
  length _ := 1
  jsonUnmarshal obj := if obj.valid then some obj.withDefaults else none
  jsonMarshal obj _ := some obj
  accepted := by
    intro text obj h
    split_ifs at h with hvalid
    cases h
    refine ⟨hvalid, ?_⟩
    cases hname : text.tls.sni <;> simp [JsonConf.withDefaults, hname]
  restored := by
    intro obj indent text h hvalid
    cases h
    rw [if_pos hvalid]

/-- A client with a key that is written with blanks around it, a window that is not a whole number of units
and a timeout below the least. -/
def sampleObject : JsonConf where
  muxConnect := some (ascii "192.0.2.1:1")
  loglevel := 20
  tls := { pskJson := some (.object [(ascii "edge", some (ascii " " ++ List.replicate 64 0x61 ++ ascii " "))] true) }
  mux := { sessionWindow := 100000, sendTimeout := 3 }

theorem parse_dump_parse_sample :
    ∃ conf dump, confParse objectCodec sampleObject = .ok conf ∧ confDump objectCodec conf none = some dump ∧
      dump ≠ sampleObject ∧ confParse objectCodec dump = .ok { conf with type := some confType } := by
  have hok : (confParse objectCodec sampleObject).isOk = true := by decide +kernel
  cases hparse : confParse objectCodec sampleObject with
  | error e =>
    rw [hparse] at hok
    cases hok
  | ok conf =>
    have hdump : confDump objectCodec conf none = some (confObject conf) := rfl
    refine ⟨conf, confObject conf, rfl, hdump, ?_, ((parse_dump_parse objectCodec sampleObject conf hparse).1 none _ hdump).1⟩
    intro heq
    have htype := congrArg JsonConf.type heq
    cases htype

end Multiplexd
