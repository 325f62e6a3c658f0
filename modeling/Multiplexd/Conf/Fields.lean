import Mathlib.Data.List.Nodup
import Multiplexd.Conf.Model
import Multiplexd.Lib.Fallible

/-!
# The parts of a configuration

What `conf_load` leaves in each part of a configuration, and that the same part is loaded again from its
dump: texts without a NUL, numbers that the clamps and the changes of unit no longer move, maps that hold
each key once, and keys that are trimmed already.
-/

namespace Multiplexd

open Json (intMax)

/-- A text that `conf_strndup` takes. -/
def NulFree (s : Octets) : Prop := 0 ∉ s

variable {field : String} {s : Octets} {n lo hi units : Nat} {opts : SocketOpts} {mux : MuxConf}
  {frag : Option Fragment} {psk : List PskEntry} {peers : List IdentityPeer} {conf : Config} {e : PskEntry}
  {tls : ConfTls}

theorem confStrndup_eq_ok {t : Octets} : confStrndup field s = .ok t ↔ NulFree s ∧ s = t := by
  unfold confStrndup NulFree
  split <;> simp_all

theorem confStrndup_self (field : String) (hs : NulFree s) : confStrndup field s = .ok s :=
  confStrndup_eq_ok.2 ⟨hs, rfl⟩

theorem strndupField_eq_ok {s t : Option Octets} :
    strndupField field s = .ok t ↔ (∀ x ∈ s, NulFree x) ∧ s = t := by
  cases s with
  | none => simp [strndupField]
  | some x =>
    rw [strndupField, confStrndup]
    unfold NulFree
    split <;> simp_all [Except.map]

theorem strndupField_self {s : Option Octets} (field : String) (hs : ∀ x ∈ s, NulFree x) :
    strndupField field s = .ok s := strndupField_eq_ok.2 ⟨hs, rfl⟩

theorem confLoadStringArr_eq_ok {src arr : List Octets}
    (h : confLoadStringArr field src = .ok arr) : (∀ s ∈ arr, NulFree s) ∧ src = arr := by
  have hall := Except.mapM_forall₂ h
  clear h
  induction hall with
  | nil => simp
  | cons hcopy _ ih =>
    obtain ⟨hnul, rfl⟩ := confStrndup_eq_ok.1 hcopy
    exact ⟨List.forall_mem_cons.2 ⟨hnul, ih.1⟩, by rw [ih.2]⟩

theorem confLoadStringArr_self {arr : List Octets} (field : String) (h : ∀ s ∈ arr, NulFree s) :
    confLoadStringArr field arr = .ok arr := Except.mapM_self fun s hs => confStrndup_self field (h s hs)

theorem unsigned_of_le (hn : n ≤ uintMax) : unsigned n = n := by
  unfold unsigned uintMax at *
  exact Nat.mod_eq_of_lt (by omega)

theorem clamp_of_mem {v : Nat} (hlo : lo ≤ v) (hhi : v ≤ hi) : clamp v lo hi = v := by
  unfold clamp
  rw [if_neg (by omega), if_neg (by omega)]

theorem clamp_mem (v : Nat) (h : lo ≤ hi) : lo ≤ clamp v lo hi ∧ clamp v lo hi ≤ hi := by
  unfold clamp
  split_ifs <;> omega

/-- What `loadSocketOpts` leaves. -/
structure SocketOpts.Fits (opts : SocketOpts) : Prop where
  sndbuf : opts.tcpSndbuf ≤ intMax
  rcvbuf : opts.tcpRcvbuf ≤ intMax
  notsentLowat : opts.tcpNotsentLowat ≤ intMax
  backlog : 1 ≤ opts.backlog ∧ opts.backlog ≤ 4096

theorem loadSocketOpts_fits {src : JsonConfTcp} (h : JsonConf.tcpValid src) : (loadSocketOpts src).Fits := by
  simp only [JsonConf.tcpValid, Bool.and_eq_true, decide_eq_true_eq] at h
  exact
    { sndbuf := Nat.min_le_right _ _
      rcvbuf := Nat.min_le_right _ _
      notsentLowat := Nat.min_le_right _ _
      backlog := h.1.1.1 }

theorem loadSocketOpts_dump (h : opts.Fits) : loadSocketOpts (dumpSocketOpts opts) = opts := by
  have hbacklog : unsigned opts.backlog = opts.backlog :=
    unsigned_of_le (h.backlog.2.trans (by decide))
  simp only [loadSocketOpts, dumpSocketOpts, Nat.min_eq_left h.sndbuf, Nat.min_eq_left h.rcvbuf,
    Nat.min_eq_left h.notsentLowat, hbacklog]

theorem dumpSocketOpts_valid (h : opts.Fits) : JsonConf.tcpValid (dumpSocketOpts opts) := by
  have hle : intMax ≤ uintmaxMax := by decide
  have hbacklog : unsigned opts.backlog = opts.backlog :=
    unsigned_of_le (h.backlog.2.trans (by decide))
  simp only [JsonConf.tcpValid, dumpSocketOpts, hbacklog, Bool.and_eq_true, decide_eq_true_eq]
  exact ⟨⟨⟨h.backlog, h.notsentLowat.trans hle⟩, h.rcvbuf.trans hle⟩, h.sndbuf.trans hle⟩

/-! ### Windows, frames and timeouts -/

/-- A window in whole units. -/
def WholeWindow (units : Nat) : Prop := units = 0 ∨ 4 ≤ units ∧ units ≤ 65535

theorem windowUnits_whole (octets : Nat) : WholeWindow (windowUnits octets) := by
  unfold windowUnits WholeWindow
  split
  · exact .inl rfl
  · exact .inr (clamp_mem _ (by decide))

theorem windowOctets_le (h : WholeWindow units) : units * windowUnit ≤ 1073725440 := by
  unfold WholeWindow at h
  unfold windowUnit
  omega

theorem windowUnits_octets (h : WholeWindow units) : windowUnits (units * windowUnit) = units := by
  unfold windowUnits
  rcases h with rfl | h
  · rfl
  · have hpos : 0 < windowUnit := by decide
    rw [if_neg (Nat.mul_ne_zero (by omega) hpos.ne'), Nat.mul_div_cancel _ hpos, clamp_of_mem h.1 h.2]

theorem clampTimeout_idem (v : Nat) : clampTimeout (clampTimeout v) = clampTimeout v := by
  unfold clampTimeout
  split
  · have hmem := clamp_mem v (show 10 ≤ 86400 by decide)
    rw [if_pos (by omega), clamp_of_mem hmem.1 hmem.2]
  · rfl

theorem clampTimeout_le (v : Nat) : clampTimeout v ≤ 86400 := by
  unfold clampTimeout
  split
  · exact (clamp_mem v (by decide)).2
  · exact Nat.zero_le _

/-- What `confLoadMux` leaves. -/
structure MuxConf.Fits (mux : MuxConf) : Prop where
  maxHalfopen : mux.maxHalfopen ≤ 4096
  maxStreams : mux.maxStreams ≤ intMax
  connectTimeout : mux.connectTimeout ≤ 86400
  keepalive : mux.keepalive ≤ 86400
  sendTimeout : mux.sendTimeout ≤ 86400
  idleTimeout : mux.idleTimeout ≤ 86400
  resumeTimeout : mux.resumeTimeout ≤ 86400
  sessionWindow : WholeWindow mux.sessionWindow
  streamWindow : WholeWindow mux.streamWindow
  maxFramePayload : minFramePayload ≤ mux.maxFramePayload ∧ mux.maxFramePayload ≤ maxPayloadSize
  readahead : mux.readahead ≤ 16777216
  memPressureHi : mux.memPressureHi ≤ intMax
  memPressureLo : mux.memPressureLo ≤ intMax
  lossymuxIdleTimeout : 1 ≤ mux.lossymuxIdleTimeout ∧ mux.lossymuxIdleTimeout ≤ 86400
  lossymuxQueue : 1 ≤ mux.lossymuxQueue ∧ mux.lossymuxQueue ≤ 65535

theorem confLoadMux_fits {obj : JsonConfMux} (h : JsonConf.muxValid obj) : (confLoadMux obj).Fits := by
  simp only [JsonConf.muxValid, Bool.and_eq_true, decide_eq_true_eq] at h
  constructor
  case maxStreams => exact Nat.min_le_right _ _
  case memPressureHi => exact Nat.min_le_right _ _
  case memPressureLo => exact Nat.min_le_right _ _
  case sessionWindow => exact windowUnits_whole _
  case streamWindow => exact windowUnits_whole _
  case maxFramePayload => exact clamp_mem _ (by decide)
  all_goals
    simp only [confLoadMux]
    tauto

/-- No cast of a dump cuts anything off. -/
theorem dumpMux_eq (h : mux.Fits) (tcp : SocketOpts) :
    dumpMux mux tcp =
      { nodelay := mux.nodelay
        tcp := dumpSocketOpts tcp
        maxHalfopen := mux.maxHalfopen
        maxStreams := mux.maxStreams
        connectTimeout := mux.connectTimeout
        keepalive := mux.keepalive
        sendTimeout := mux.sendTimeout
        idleTimeout := mux.idleTimeout
        resumeTimeout := mux.resumeTimeout
        sessionWindow := mux.sessionWindow * windowUnit
        streamWindow := mux.streamWindow * windowUnit
        readahead := mux.readahead
        maxFrameSize := mux.maxFramePayload + frameHeaderSize
        memPressure := { hi := mux.memPressureHi, lo := mux.memPressureLo }
        lossymux :=
          { enabled := mux.lossymux, idleTimeout := mux.lossymuxIdleTimeout, queue := mux.lossymuxQueue } } := by
  have hframe : mux.maxFramePayload + frameHeaderSize ≤ 65543 := Nat.add_le_add_right h.maxFramePayload.2 8
  have hfits {n bound : Nat} (hn : n ≤ bound) (hbound : bound ≤ uintMax) : unsigned n = n :=
    unsigned_of_le (hn.trans hbound)
  simp only [dumpMux, hfits h.maxHalfopen (by decide), hfits h.connectTimeout (by decide),
    hfits h.keepalive (by decide), hfits h.sendTimeout (by decide), hfits h.idleTimeout (by decide),
    hfits h.resumeTimeout (by decide), hfits (windowOctets_le h.sessionWindow) (by decide),
    hfits (windowOctets_le h.streamWindow) (by decide), hfits h.readahead (by decide),
    hfits hframe (by decide), hfits h.lossymuxIdleTimeout.2 (by decide), hfits h.lossymuxQueue.2 (by decide)]

theorem dumpMux_valid {tcp : SocketOpts} (h : mux.Fits) (htcp : tcp.Fits) :
    JsonConf.muxValid (dumpMux mux tcp) := by
  have hle : intMax ≤ uintmaxMax := by decide
  have hframe : 1024 ≤ mux.maxFramePayload + frameHeaderSize ∧ mux.maxFramePayload + frameHeaderSize ≤ 65543 :=
    ⟨Nat.add_le_add_right h.maxFramePayload.1 8, Nat.add_le_add_right h.maxFramePayload.2 8⟩
  have hsession := windowOctets_le h.sessionWindow
  have hstream := windowOctets_le h.streamWindow
  have hhi := h.memPressureHi.trans hle
  have hlo := h.memPressureLo.trans hle
  have hstreams := h.maxStreams.trans hle
  have hsocket := dumpSocketOpts_valid htcp
  rw [dumpMux_eq h]
  simp only [JsonConf.muxValid, Bool.and_eq_true, decide_eq_true_eq]
  have h₁ := h.lossymuxIdleTimeout
  have h₂ := h.lossymuxQueue
  have h₃ := h.maxHalfopen
  have h₄ := h.connectTimeout
  have h₅ := h.keepalive
  have h₆ := h.sendTimeout
  have h₇ := h.idleTimeout
  have h₈ := h.resumeTimeout
  have h₉ := h.readahead
  and_intros <;> first | exact hsocket | omega

theorem confLoadMux_dump (h : mux.Fits) (tcp : SocketOpts) :
    confLoadMux (dumpMux mux tcp) = { mux with timeout := 0 } := by
  have hframe : clamp (mux.maxFramePayload + frameHeaderSize - frameHeaderSize) minFramePayload
      maxPayloadSize = mux.maxFramePayload := by
    rw [Nat.add_sub_cancel]
    exact clamp_of_mem h.maxFramePayload.1 h.maxFramePayload.2
  rw [dumpMux_eq h]
  simp only [confLoadMux, windowUnits_octets h.sessionWindow, windowUnits_octets h.streamWindow, hframe,
    Nat.min_eq_left h.maxStreams,
    Nat.min_eq_left h.memPressureHi, Nat.min_eq_left h.memPressureLo]

theorem resolveLo_idem (hi lo : Nat) : resolveLo hi (resolveLo hi lo) = resolveLo hi lo := by
  unfold resolveLo
  split_ifs <;> omega

theorem normalizeMux_fits (h : mux.Fits) : (normalizeMux mux).Fits := by
  have hlo : resolveLo mux.memPressureHi mux.memPressureLo ≤ intMax := by
    have hhi := h.memPressureHi
    have hlo := h.memPressureLo
    unfold resolveLo
    split_ifs <;> omega
  exact
    { h with
      connectTimeout := clampTimeout_le _
      keepalive := clampTimeout_le _
      sendTimeout := clampTimeout_le _
      idleTimeout := clampTimeout_le _
      resumeTimeout := clampTimeout_le _
      memPressureLo := hlo }

/-- What has been normalized is normal, and its derived timeout needs not be stored. -/
theorem normalizeMux_idem (mux : MuxConf) :
    normalizeMux { normalizeMux mux with timeout := 0 } = normalizeMux mux := by
  simp only [normalizeMux, confDeriveMuxTimeout, clampTimeout_idem, resolveLo_idem]

/-! ### Maps -/

section Maps

variable {α : Type} {field : String} {cb : List α → Octets → Octets → Except ConfError (List α)}

theorem confWalkMap_invariant (inv : List α → Prop) (hnil : inv [])
    (hstep : ∀ entries key val entries', key.head? ≠ some 0x2d → inv entries →
      cb entries key val = .ok entries' → inv entries')
    {frag : Option Fragment} {entries : List α} (h : confWalkMap field cb frag = .ok entries) : inv entries := by
  cases frag with
  | none =>
    cases h
    exact hnil
  | some frag =>
    cases frag with
    | other => cases h
    | object members closed =>
      rw [confWalkMap, Except.bind_eq_ok] at h
      obtain ⟨entries', hfold, hclosed⟩ := h
      have hinv : inv entries' := by
        refine Except.foldlM_invariant inv (fun entries member entries' hinv hmember => ?_) hnil hfold
        obtain ⟨key, val⟩ := member
        unfold confWalkPair at hmember
        split at hmember
        · cases hmember
          exact hinv
        · rename_i hplain
          cases val with
          | none => cases hmember
          | some s => exact hstep entries key s entries' hplain hinv hmember
      split at hclosed
      · cases hclosed
        exact hinv
      · cases hclosed

theorem confWalkMap_members {key val : α → Octets} {l : List α} (hplain : ∀ e ∈ l, (key e).head? ≠ some 0x2d)
    (hcb : ∀ front e back, l = front ++ e :: back → cb front (key e) (val e) = .ok (front ++ [e])) :
    confWalkMap field cb (some (.object (l.map fun e => (key e, some (val e))) true)) = .ok l := by
  have hfold : ∀ front back, l = front ++ back →
      (back.map fun e => (key e, some (val e))).foldlM (confWalkPair field cb) front = .ok l := by
    intro front back
    induction back generalizing front with
    | nil =>
      rintro rfl
      simp only [List.map_nil, List.foldlM_nil, List.append_nil]
      rfl
    | cons e back ih =>
      intro hl
      have he : e ∈ l := by simp [hl]
      rw [List.map_cons, List.foldlM_cons, confWalkPair, if_neg (hplain e he)]
      dsimp only
      rw [hcb front e back hl]
      exact ih (front ++ [e]) (by simp [hl])
  rw [confWalkMap, hfold [] l rfl]
  rfl

end Maps

/-- The keys of a map as it is loaded. -/
structure MapKeys (ids : List Octets) : Prop where
  nodup : ids.Nodup
  nulFree : ∀ id ∈ ids, NulFree id
  plain : ∀ id ∈ ids, id.head? ≠ some 0x2d

theorem MapKeys.concat {ids : List Octets} (h : MapKeys ids) {id : Octets} (hnew : id ∉ ids) (hnul : NulFree id)
    (hplain : id.head? ≠ some 0x2d) : MapKeys (ids ++ [id]) where
  nodup := List.nodup_append.2 ⟨h.nodup, List.nodup_singleton id, fun a ha b hb hab => hnew (by simp_all)⟩
  nulFree := by simpa [or_imp, forall_and] using ⟨h.nulFree, hnul⟩
  plain := by simpa [or_imp, forall_and] using ⟨h.plain, hplain⟩

theorem MapKeys.not_any {β : Type} {id : β → Octets} {front back : List β} {e : β}
    (h : MapKeys ((front ++ e :: back).map id)) : ¬ front.any fun d => id d = id e := by
  have hnodup := h.nodup
  rw [List.map_append, List.nodup_append] at hnodup
  intro hany
  obtain ⟨d, hd, heq⟩ := List.any_eq_true.1 hany
  exact hnodup.2.2 (id d) (List.mem_map_of_mem hd) (id e) (by simp) (by simpa using heq)

/-- `tls.psk` as it is loaded. -/
structure PskStored (psk : List PskEntry) : Prop where
  keys : MapKeys (psk.map (·.id))
  nulFree : ∀ e ∈ psk, NulFree e.hex

theorem confWalkMap_psk (h : confWalkMap "tls.psk" pskMapCb frag = .ok psk) : PskStored psk := by
  refine confWalkMap_invariant PskStored ⟨⟨List.nodup_nil, by simp, by simp⟩, by simp⟩
    (fun psk key val psk' hplain hpsk hcb => ?_) h
  unfold pskMapCb at hcb
  split at hcb
  · cases hcb
  · rename_i hnew
    obtain ⟨id, hid, hcb⟩ := Except.bind_eq_ok.1 hcb
    obtain ⟨hex, hhex, hcb⟩ := Except.bind_eq_ok.1 hcb
    obtain ⟨hidnul, rfl⟩ := confStrndup_eq_ok.1 hid
    obtain ⟨hhexnul, rfl⟩ := confStrndup_eq_ok.1 hhex
    cases hcb
    constructor
    · rw [List.map_append]
      exact hpsk.keys.concat (by simpa using hnew) hidnul hplain
    · simpa [or_imp, forall_and] using ⟨hpsk.nulFree, hhexnul⟩

theorem confWalkMap_buildPskJson (h : PskStored psk) :
    confWalkMap "tls.psk" pskMapCb (buildPskJson psk) = .ok psk := by
  unfold buildPskJson
  split
  · rfl
  · refine confWalkMap_members (fun e he => h.keys.plain _ (List.mem_map_of_mem he)) fun front e back hpsk => ?_
    have he : e ∈ psk := by simp [hpsk]
    have hnew : ¬ front.any (·.id = e.id) := MapKeys.not_any (hpsk ▸ h.keys)
    rw [pskMapCb, if_neg hnew, confStrndup_self _ (h.keys.nulFree _ (List.mem_map_of_mem he)),
      confStrndup_self _ (h.nulFree e he)]
    rfl

/-- `identity.listen` as it is loaded. -/
structure PeersStored (peers : List IdentityPeer) : Prop where
  keys : MapKeys (peers.map (·.id))
  listen : ∀ p ∈ peers, ∃ listen, p.listen = some listen ∧ NulFree listen

theorem confWalkMap_listen
    (h : confWalkMap "identity.listen" identityListenCb frag = .ok peers) : PeersStored peers := by
  refine confWalkMap_invariant PeersStored ⟨⟨List.nodup_nil, by simp, by simp⟩, by simp⟩
    (fun peers key val peers' hplain hpeers hcb => ?_) h
  unfold identityListenCb at hcb
  split at hcb
  · obtain ⟨listen, hlisten, hcb⟩ := Except.bind_eq_ok.1 hcb
    obtain ⟨hnul, rfl⟩ := confStrndup_eq_ok.1 hlisten
    cases hcb
    constructor
    · have hids : (peers.map fun p => if p.id = key then { p with listen := some val } else p).map (·.id) =
          peers.map (·.id) := by
        rw [List.map_map]
        refine List.map_congr_left fun p _ => ?_
        simp only [Function.comp_apply]
        split <;> rfl
      rw [hids]
      exact hpeers.keys
    · intro p' hp'
      obtain ⟨p, hp, rfl⟩ := List.mem_map.1 hp'
      split
      · exact ⟨val, rfl, hnul⟩
      · exact hpeers.listen p hp
  · rename_i hnew
    obtain ⟨id, hid, hcb⟩ := Except.bind_eq_ok.1 hcb
    obtain ⟨listen, hlisten, hcb⟩ := Except.bind_eq_ok.1 hcb
    obtain ⟨hidnul, rfl⟩ := confStrndup_eq_ok.1 hid
    obtain ⟨hnul, rfl⟩ := confStrndup_eq_ok.1 hlisten
    cases hcb
    constructor
    · rw [List.map_append]
      exact hpeers.keys.concat (by simpa using hnew) hidnul hplain
    · intro p hp
      rcases List.mem_append.1 hp with hp | hp
      · exact hpeers.listen p hp
      · rw [List.mem_singleton.1 hp]
        exact ⟨val, rfl, hnul⟩

theorem confWalkMap_buildListenJson (h : PeersStored peers) :
    confWalkMap "identity.listen" identityListenCb (buildListenJson peers) = .ok peers := by
  have hmembers : (peers.filterMap fun p => p.listen.map fun listen => (p.id, some listen)) =
      peers.map fun p => (p.id, some (p.listen.getD [])) := by
    rw [← List.filterMap_eq_map]
    refine List.filterMap_congr fun p hp => ?_
    obtain ⟨listen, hlisten, -⟩ := h.listen p hp
    simp [hlisten]
  unfold buildListenJson
  rw [hmembers]
  split
  · rename_i hnil
    rw [List.map_eq_nil_iff.1 hnil]
    rfl
  · refine confWalkMap_members (fun p hp => h.keys.plain _ (List.mem_map_of_mem hp)) fun front p back hpeers => ?_
    have hp : p ∈ peers := by simp [hpeers]
    obtain ⟨listen, hlisten, hnul⟩ := h.listen p hp
    have hnew : ¬ front.any (·.id = p.id) := MapKeys.not_any (hpeers ▸ h.keys)
    rw [identityListenCb, if_neg hnew, confStrndup_self _ (h.keys.nulFree _ (List.mem_map_of_mem hp)), hlisten,
      Option.getD_some, confStrndup_self _ hnul]
    simp only [Except.ok_bind, ← hlisten]

theorem parseStartupsField_decimal (hn : n ≤ intMax) {rest : Octets} (hrest : Json.Compact.Stops rest) :
    parseStartupsField (Json.decimal n ++ rest) rest.head? = some (n, rest.drop 1) := by
  have hhead : ((Json.decimal n ++ rest).head?.map Json.Compact.isDigit).getD false = true := by
    obtain ⟨c, cs, hcs, hc⟩ := Json.Compact.decimal_eq_cons n
    simp [hcs, hc]
  rw [parseStartupsField, if_pos hhead, Json.Compact.readDecimal_decimal n hrest]
  dsimp only
  rw [if_neg]
  rintro (hne | hlt)
  · exact hne rfl
  · exact absurd hn (Nat.not_le_of_lt hlt)

theorem decimal_nulFree (n : Nat) : NulFree (Json.decimal n) := by
  intro hmem
  obtain ⟨c, hc, hzero⟩ := List.mem_map.1 hmem
  have hdigit := (Json.Compact.isDigit_of_char (Nat.isDigit_of_mem_toDigits (by decide) (by decide) hc)).1
  rw [hzero] at hdigit
  exact absurd hdigit (by decide)

theorem confParseMaxStartups_le {s : Option Octets} {limits : Nat × Nat × Nat}
    (h : confParseMaxStartups s = .ok limits) :
    limits.1 ≤ intMax ∧ limits.2.1 ≤ intMax ∧ limits.2.2 ≤ intMax := by
  have hfield {s rest : Octets} {sep : Option UInt8} {n : Nat} (hparse : parseStartupsField s sep = some (n, rest)) :
      n ≤ intMax := by
    unfold parseStartupsField at hparse
    dsimp only at hparse
    split_ifs at hparse with _ hbad
    obtain ⟨rfl, -⟩ := Prod.mk.inj (Option.some.inj hparse)
    omega
  cases s with
  | none =>
    cases h
    exact ⟨Nat.zero_le _, Nat.zero_le _, Nat.zero_le _⟩
  | some s =>
    unfold confParseMaxStartups at h
    dsimp only at h
    split at h
    · cases h
    · rename_i parsed hparsed
      cases h
      simp only [bind, Option.bind_eq_some_iff, Prod.exists] at hparsed
      obtain ⟨start, s₁, hstart, rate, s₂, hrate, full, s₃, hfull, heq⟩ := hparsed
      cases heq
      exact ⟨hfield hstart, hfield hrate, hfield hfull⟩

theorem confParseMaxStartups_dump
    (h : conf.startupLimitStart ≤ intMax ∧ conf.startupLimitRate ≤ intMax ∧ conf.startupLimitFull ≤ intMax) :
    confParseMaxStartups (dumpMaxStartups conf) =
      .ok (conf.startupLimitStart, conf.startupLimitRate, conf.startupLimitFull) := by
  unfold dumpMaxStartups
  split
  · have hcolon : ∀ rest, Json.Compact.Stops (Json.colon :: rest) := by
      intro rest c hc
      cases hc
      decide
    have hstart := parseStartupsField_decimal h.1
      (hcolon (Json.decimal conf.startupLimitRate ++ Json.colon :: Json.decimal conf.startupLimitFull))
    have hrate := parseStartupsField_decimal h.2.1 (hcolon (Json.decimal conf.startupLimitFull))
    have hend : Json.Compact.Stops [] := by simp [Json.Compact.Stops]
    have hfull := parseStartupsField_decimal h.2.2 hend
    have hnul : ∀ c ∈ Json.decimal conf.startupLimitStart ++ Json.colon :: Json.decimal conf.startupLimitRate ++
        Json.colon :: Json.decimal conf.startupLimitFull, decide (c ≠ 0) = true := by
      intro c hc
      simp only [List.mem_append, List.mem_cons] at hc
      have h₁ := decimal_nulFree conf.startupLimitStart
      have h₂ := decimal_nulFree conf.startupLimitRate
      have h₃ := decimal_nulFree conf.startupLimitFull
      rw [decide_eq_true_eq]
      rintro rfl
      rcases hc with (hc | hc | hc) | hc | hc
      · exact h₁ hc
      · exact absurd hc (by decide)
      · exact h₂ hc
      · exact absurd hc (by decide)
      · exact h₃ hc
    have hwhole := List.takeWhile_eq_self_iff.2 hnul
    simp only [List.append_nil, List.head?_nil, List.drop_nil] at hfull
    simp only [List.head?_cons, List.drop_one, List.tail_cons] at hstart hrate
    rw [confParseMaxStartups, hwhole]
    simp only [List.append_assoc, List.cons_append, hstart, hrate, hfull, bind, Option.bind_some]
  · rename_i hnone
    have hzero : conf.startupLimitStart = 0 ∧ conf.startupLimitRate = 0 ∧ conf.startupLimitFull = 0 := by omega
    rw [hzero.1, hzero.2.1, hzero.2.2]
    rfl

theorem pskTrim_nulFree (h : NulFree s) : NulFree (pskTrim s) := by
  intro hmem
  unfold pskTrim List.rdropWhile at hmem
  rw [List.mem_reverse] at hmem
  have hmid := List.mem_reverse.1 ((List.dropWhile_suffix _).subset hmem)
  exact h ((List.dropWhile_suffix _).subset hmid)

theorem pskIsSpace_of_isxdigit {c : UInt8} (h : isxdigit c) : pskIsSpace c = false := by
  unfold isxdigit at h
  unfold pskIsSpace
  grind

/-- A key is not touched by trimming. -/
theorem pskTrim_of_hex (h : s.all isxdigit) : pskTrim s = s := by
  have hspace : ∀ c ∈ s, pskIsSpace c = false := fun c hc =>
    pskIsSpace_of_isxdigit (List.all_eq_true.1 h c hc)
  have hdrop : s.dropWhile pskIsSpace = s := by
    cases s with
    | nil => rfl
    | cons c s => simp [hspace c]
  rw [pskTrim, hdrop, List.rdropWhile_eq_self_iff]
  intro hne
  simp [hspace _ (List.getLast_mem hne)]

theorem not_isReference_of_hex (h : s.all isxdigit) : isReference s = false := by
  cases s with
  | nil => rfl
  | cons c s =>
    have hc : isxdigit c := List.all_eq_true.1 h c List.mem_cons_self
    simp only [isReference, List.head?_cons, Option.some.injEq, decide_eq_false_iff_not]
    rintro rfl
    exact absurd hc (by decide)

theorem hex_of_confCheckPskKey {u : Unit} (h : confCheckPskKey e = .ok u) : e.hex.all isxdigit := by
  unfold confCheckPskKey at h
  split_ifs at h with hlen hhex
  exact hhex

theorem confCheckPskEntry_of_key {u : Unit} (hid : e.id.length ≤ maxClaimLen)
    (h : confCheckPskKey e = .ok u) : confCheckPskEntry e = .ok e := by
  have hhex := hex_of_confCheckPskKey h
  rw [confCheckPskEntry, if_neg (Nat.not_lt_of_le hid), if_neg (by simp [not_isReference_of_hex hhex]),
    pskTrim_of_hex hhex]
  dsimp only
  rw [h]
  rfl

theorem confCheckPskEntry_spec {e' : PskEntry} (h : confCheckPskEntry e = .ok e') :
    e'.id = e.id ∧ confCheckPskEntry e' = .ok e' ∧ e'.id.length ≤ maxClaimLen ∧ (NulFree e.hex → NulFree e'.hex) := by
  have h' := h
  unfold confCheckPskEntry at h'
  split_ifs at h' with hid href
  · cases h'
    exact ⟨rfl, h, by omega, id⟩
  · rw [Except.bind_eq_ok] at h'
    obtain ⟨u, hkey, heq⟩ := h'
    cases heq
    exact ⟨rfl, confCheckPskEntry_of_key (by simpa using hid) hkey, by simpa using hid, pskTrim_nulFree⟩

/-! ### TLS -/

inductive TlsMode (tls : ConfTls) (verify : Bool) : Prop
  | psk (hpsk : tls.psk ≠ []) (hcert : tls.cert = none) (hkey : tls.key = none) (hauthcerts : tls.authcerts = [])
      (hsni : tls.sni = none) (hverify : verify = false)
  | certificate (hpsk : tls.psk = []) (hcert : tls.cert.isSome) (hkey : tls.key.isSome)
      (hauthcerts : tls.authcerts ≠ []) (hsni : tls.sni.isSome)
  | plaintext (hpsk : tls.psk = []) (hcert : tls.cert = none) (hkey : tls.key = none)
      (hauthcerts : tls.authcerts = []) (hsni : tls.sni.isSome) (hverify : verify = false)

/-- What `confLoadTls` leaves. -/
structure TlsStored (tls : ConfTls) : Prop where
  cert : ∀ s ∈ tls.cert, NulFree s
  key : ∀ s ∈ tls.key, NulFree s
  ciphersuites : ∀ s ∈ tls.ciphersuites, NulFree s
  sni : ∀ s ∈ tls.sni, NulFree s
  alpn : ∀ s ∈ tls.alpn, NulFree s
  authcerts : ∀ s ∈ tls.authcerts, NulFree s
  psk : PskStored tls.psk
  offload : tls.kernelOffload → tls.socketOffload

theorem confLoadTls_spec {obj : JsonConfTls} (h : confLoadTls obj = .ok tls) :
    TlsStored tls ∧ tls.sni = obj.sni ∧ tls.authcertsBundle = none := by
  simp only [confLoadTls, Except.bind_eq_ok] at h
  obtain ⟨cert, hcert, key, hkey, ciphersuites, hciphersuites, sni, hsni, alpn, halpn, authcerts, hauthcerts, psk,
    hpsk, heq⟩ := h
  cases heq
  obtain ⟨hcert', rfl⟩ := strndupField_eq_ok.1 hcert
  obtain ⟨hkey', rfl⟩ := strndupField_eq_ok.1 hkey
  obtain ⟨hciphersuites', rfl⟩ := strndupField_eq_ok.1 hciphersuites
  obtain ⟨hsni', rfl⟩ := strndupField_eq_ok.1 hsni
  obtain ⟨halpn', rfl⟩ := strndupField_eq_ok.1 halpn
  refine ⟨?_, rfl, rfl⟩
  exact
    { cert := hcert', key := hkey', ciphersuites := hciphersuites', sni := hsni', alpn := halpn'
      authcerts := (confLoadStringArr_eq_ok hauthcerts).1
      psk := confWalkMap_psk hpsk
      offload := fun hkernel => (Bool.and_eq_true _ _ ▸ hkernel).1 }

/-- The TLS part of a dump is loaded as it was, but for the name of the schema. -/
theorem confLoadTls_dump (h : TlsStored conf.tls) : confLoadTls (confObject conf).withDefaults.tls =
      .ok { conf.tls with sni := conf.tls.sni.or (some sniDefault), authcertsBundle := none } := by
  have hsni : ∀ s ∈ conf.tls.sni.or (some sniDefault), NulFree s := by
    intro s hs
    cases hold : conf.tls.sni with
    | none =>
      rw [hold] at hs
      cases hs
      unfold NulFree
      decide
    | some t =>
      rw [hold] at hs
      cases hs
      exact h.sni _ (by rw [hold]; rfl)
  have hkernel : (conf.tls.socketOffload && conf.tls.kernelOffload) = conf.tls.kernelOffload := by
    have hoffload := h.offload
    cases hk : conf.tls.kernelOffload with
    | false => simp
    | true => simp [hoffload hk]
  simp only [confLoadTls, confObject, JsonConf.withDefaults, strndupField_self _ h.cert, strndupField_self _ h.key,
    strndupField_self _ h.ciphersuites, strndupField_self _ hsni, strndupField_self _ h.alpn,
    confLoadStringArr_self _ h.authcerts, confWalkMap_buildPskJson h.psk, Except.ok_bind, hkernel]

theorem PskStored.mapM {f : PskEntry → Except ConfError PskEntry} {psk' : List PskEntry} (h : PskStored psk)
    (hid : ∀ e e', f e = .ok e' → e'.id = e.id)
    (hf : ∀ e e', f e = .ok e' → NulFree e.hex → NulFree e'.hex) (hmap : psk.mapM f = .ok psk') :
    PskStored psk' where
  keys := by
    rw [Except.map_eq_of_mapM hmap hid]
    exact h.keys
  nulFree := by
    intro e' he'
    obtain ⟨e, he, hfe⟩ := Except.exists_of_mem_mapM hmap he'
    exact hf e e' hfe (h.nulFree e he)

theorem confCheckTls_spec {conf' : Config} (h : confCheckTls conf = .ok conf') (hstored : TlsStored conf.tls)
    (hsni : conf.tls.sni.isSome) :
    TlsMode conf'.tls conf'.identity.verify ∧ TlsStored conf'.tls ∧
      (∀ e ∈ conf'.tls.psk, confCheckPskEntry e = .ok e) ∧ conf' = { conf with tls := conf'.tls } ∧
      conf'.tls.authcertsBundle = conf.tls.authcertsBundle := by
  unfold confCheckTls at h
  dsimp only at h
  split_ifs at h with hpsk hcredentials hverify hcomplete hverify
  · obtain ⟨psk, _, herr⟩ := Except.bind_eq_ok.1 h
    cases herr
  · obtain ⟨psk, hchecked, heq⟩ := Except.bind_eq_ok.1 h
    cases heq
    simp only [not_or, Option.not_isSome_iff_eq_none, ne_eq, not_not] at hcredentials
    obtain ⟨hcert, hkey, hauthcerts⟩ := hcredentials
    have hpsk' : psk ≠ [] := by
      rintro rfl
      exact hpsk (List.forall₂_nil_right_iff.1 (Except.mapM_forall₂ hchecked))
    refine ⟨.psk hpsk' hcert hkey hauthcerts rfl (by simpa using hverify), ?_, ?_, rfl, rfl⟩
    · exact
        { hstored with
          sni := by simp
          psk := hstored.psk.mapM (fun e e' he => (confCheckPskEntry_spec he).1)
            (fun e e' he => (confCheckPskEntry_spec he).2.2.2) hchecked }
    · intro e' he'
      obtain ⟨e, he, hee'⟩ := Except.exists_of_mem_mapM hchecked he'
      exact (confCheckPskEntry_spec hee').2.1
  · cases h
    rw [ne_eq, not_not] at hpsk
    refine ⟨?_, hstored, by simp [hpsk], rfl, rfl⟩
    rcases hcomplete with ⟨hcert, hkey, hauthcerts⟩ | ⟨hcert, hkey, hauthcerts⟩
    · exact .certificate hpsk hcert hkey hauthcerts hsni
    · rw [Option.not_isSome_iff_eq_none] at hcert hkey
      exact .plaintext hpsk hcert hkey (by simpa using hauthcerts) hsni (by simpa [hcert] using hverify)

/-- The credentials of a configuration that has been checked pass again, with the name that the schema adds
taken away again where there are keys. -/
theorem confCheckTls_self (hmode : TlsMode tls conf.identity.verify)
    (hchecked : ∀ e ∈ tls.psk, confCheckPskEntry e = .ok e)
    (htls : conf.tls = { tls with sni := tls.sni.or (some sniDefault) }) :
    confCheckTls conf = .ok { conf with tls := tls } := by
  obtain ⟨type, apiListen, muxListen, muxConnect, listen, connect, _, mux, muxTcp, tcp, identity, log, loglevel,
    maxSessions, startupLimitStart, startupLimitRate, startupLimitFull⟩ := conf
  obtain ⟨cert, key, ciphersuites, sni, alpn, authcerts, authcertsBundle, kernelOffload, socketOffload, psk⟩ := tls
  cases htls
  cases hmode with
  | psk hpsk hcert hkey hauthcerts hsni hverify =>
    dsimp only at hpsk hcert hkey hauthcerts hsni hverify hchecked
    simp [confCheckTls, hpsk, hcert, hkey, hauthcerts, hsni, hverify, Except.mapM_self hchecked]
  | certificate hpsk hcert hkey hauthcerts hsni =>
    dsimp only at hpsk hcert hkey hauthcerts hsni
    obtain ⟨name, rfl⟩ := Option.isSome_iff_exists.1 hsni
    simp [confCheckTls, hpsk, hcert, hkey, hauthcerts]
  | plaintext hpsk hcert hkey hauthcerts hsni hverify =>
    dsimp only at hpsk hcert hkey hauthcerts hsni hverify
    obtain ⟨name, rfl⟩ := Option.isSome_iff_exists.1 hsni
    simp [confCheckTls, hpsk, hcert, hkey, hauthcerts, hverify]

end Multiplexd
