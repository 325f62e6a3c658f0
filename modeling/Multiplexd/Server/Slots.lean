import Multiplexd.Lib.Run
import Multiplexd.Server.Dialing

/-!
# Slots stay filled

Three facts about every run of the server. A configured slot is empty only while the maintenance timer
is armed, so the timer may stop only after a pass that left nothing empty. A tunnel is in one slot at most,
and a slot holds a live tunnel. A tunnel whose target was taken out of the configuration does not dial
again once it has been told, whatever later reloads put into its slot.
-/

namespace Multiplexd

open Function (update update_of_ne update_self)

namespace Server

variable {s s' s'' : Server} {t u : TunnelId} {i j : Nat}

/-- A property that survives what the functions of the server do to its tunnels and its slots, and that
says nothing about the configuration, the timer and the inputs. It survives every step of the server. -/
structure Lasting (P : Server → Prop) : Prop where
  aside : ∀ {s}, P s → ∀ conf maintenance starts growths,
    P { s with conf := conf, maintenance := maintenance, starts := starts, growths := growths }
  removeAndClose : ∀ {s}, P s → ∀ t, P (s.removeAndClose t)
  reload : ∀ {s}, P s → ∀ t opts, P (s.post t (.reload opts))
  startMux : ∀ {s}, P s → ∀ addr, P { (s.startTunnel addr).2 with muxTunnel := (s.startTunnel addr).1 }
  startIdentity : ∀ {s}, P s → ∀ addr i, P { (s.startTunnel addr).2 with
    identityTunnels := (s.startTunnel addr).2.identityTunnels.set i (s.startTunnel addr).1 }
  grow : ∀ {s}, P s → ∀ n, P { s with identityTunnels := s.identityTunnels ++ List.replicate n none }
  runNext : ∀ {s}, P s → ∀ t, P (s.runNext t)
  redial : ∀ {s}, P s → ∀ t, P (s.redial t)

namespace Lasting

variable {P : Server → Prop} (h : Lasting P) (hs : P s)
include h hs

theorem handleEachClosed (ts : List TunnelId) : P (s.handleEachClosed ts) :=
  List.foldlRecOn ts _ hs fun _ hs t _ => h.aside (h.removeAndClose hs t) _ _ _ _

theorem handleClosed (t : TunnelId) (flushed : List TunnelId) : P (s.handleClosed t flushed) :=
  h.aside (h.handleEachClosed (h.removeAndClose hs t) flushed) _ _ _ _

theorem discard (t : TunnelId) (flushed : List TunnelId) : P (s.discard t flushed) := by
  unfold Server.discard
  split
  · exact h.handleEachClosed (h.removeAndClose hs t) flushed
  · exact hs

theorem drainTunnel (old new : DialConf) (idle : List TunnelId) (t : TunnelId) :
    P (s.drainTunnel old new idle t) := by
  unfold Server.drainTunnel
  split
  · exact hs
  · dsimp only
    split
    · exact h.handleClosed (h.reload hs t _) t []
    · exact h.reload hs t _

theorem startIdentityTunnel (i : Nat) : P (s.startIdentityTunnel i) := by
  unfold Server.startIdentityTunnel
  split
  · exact hs
  · exact h.startIdentity hs _ i

/-- `server_reload_identity_tunnels` -/
theorem reloadIdentityTunnels : P s.reloadIdentityTunnels := by
  have hfirst : P ((List.range (min s.identityTunnels.length s.conf.identityConnect.length)).foldl refillSlot s) :=
    List.foldlRecOn _ refillSlot hs fun s hs i _ => by
      unfold refillSlot
      split
      · exact h.startIdentityTunnel hs i
      · exact hs
  unfold Server.reloadIdentityTunnels
  dsimp only
  split
  · exact hfirst
  · split
    · refine List.foldlRecOn _ _ ?_ fun _ hs i _ => h.startIdentityTunnel hs i
      exact h.aside (h.grow hfirst _) _ _ _ _
    · exact h.aside hfirst _ _ _ _

/-- `server_ensure_mux_tunnel` -/
theorem ensureMuxTunnel : P s.ensureMuxTunnel := by
  unfold Server.ensureMuxTunnel
  split
  · exact h.startMux hs _
  · exact hs

theorem refill : P s.ensureMuxTunnel.reloadIdentityTunnels :=
  h.reloadIdentityTunnels (h.ensureMuxTunnel hs)

theorem step (e : Event) : P (s.step e) := by
  cases e with
  | closed t flushed => exact h.handleClosed hs t flushed
  | reload new inp =>
    have hdiscard := List.foldlRecOn inp.discards (fun s d => s.discard d.1 d.2) hs
      fun _ hs d _ => h.discard hs d.1 d.2
    have hdrain (old : DialConf) := List.foldlRecOn inp.reached (Server.drainTunnel old new inp.idle) hdiscard
      fun _ hs t _ => h.drainTunnel hs old new inp.idle t
    exact h.refill (h.aside (hdrain _) _ _ _ _)
  | tick pskLeft =>
    have hpass : P (s.maintenancePass pskLeft).2 := h.refill hs
    show P (s.maintenanceCb pskLeft)
    unfold maintenanceCb
    dsimp only
    split
    · split
      · exact hpass
      · exact h.aside hpass _ _ _ _
    · exact hs
  | kick | supply => exact h.aside hs _ _ _ _
  | runNext t => exact h.runNext hs t
  | redial t => exact h.redial hs t

theorem run (es : List Event) : P (s.run es) :=
  List.foldlRecOn es Server.step hs fun _ hs e _ => h.step hs e

end Lasting

/-! ### Armed or filled -/

/-- Every configured slot holds a tunnel. -/
structure Filled (s : Server) : Prop where
  mux : s.conf.muxConnect.isSome → s.muxTunnel.isSome
  identity : ∀ i < s.conf.identityConnect.length, ∃ t, s.identityTunnels[i]? = some (some t)

def Covered (s : Server) : Prop := s.maintenance = true ∨ s.Filled

/-- What filling slots leaves alone. -/
structure Refills (s s' : Server) : Prop where
  conf : s'.conf = s.conf
  mux : s'.muxTunnel = s.muxTunnel
  length : s'.identityTunnels.length = s.identityTunnels.length
  armed : s.maintenance = true → s'.maintenance = true
  keeps : ∀ (i : Nat) (t : TunnelId), s.identityTunnels[i]? = some (some t) →
    s'.identityTunnels[i]? = some (some t)

theorem Refills.refl (s : Server) : Refills s s := ⟨rfl, rfl, rfl, id, fun _ _ => id⟩

theorem Refills.trans (h : Refills s s') (h' : Refills s' s'') : Refills s s'' :=
  ⟨h'.conf.trans h.conf, h'.mux.trans h.mux, h'.length.trans h.length, h'.armed ∘ h.armed,
    fun i t hi => h'.keeps i t (h.keeps i t hi)⟩

structure SameSlots (s s' : Server) : Prop where
  threads : s'.threads = s.threads
  conf : s'.conf = s.conf
  mux : s'.muxTunnel = s.muxTunnel
  identity : s'.identityTunnels = s.identityTunnels
  armed : s.maintenance = true → s'.maintenance = true

theorem SameSlots.refl (s : Server) : SameSlots s s := ⟨rfl, rfl, rfl, rfl, id⟩

theorem SameSlots.trans (h : SameSlots s s') (h' : SameSlots s' s'') : SameSlots s s'' :=
  ⟨h'.threads.trans h.threads, h'.conf.trans h.conf, h'.mux.trans h.mux, h'.identity.trans h.identity,
    h'.armed ∘ h.armed⟩

theorem runTask_sameSlots (s : Server) (t : TunnelId) (tun : Tunnel) (task : TunnelTask) :
    SameSlots s (s.runTask t tun task) := by
  cases task <;> exact ⟨rfl, rfl, rfl, rfl, id⟩

theorem post_sameSlots (s : Server) (t : TunnelId) (task : TunnelTask) : SameSlots s (s.post t task) := by
  unfold post
  split
  · exact .refl s
  · split
    · exact ⟨rfl, rfl, rfl, rfl, id⟩
    · exact runTask_sameSlots ..

theorem startTunnel_sameSlots (s : Server) (addr : String) : SameSlots s (s.startTunnel addr).2 ∧
      ((s.startTunnel addr).1 = none → (s.startTunnel addr).2.maintenance = true) := by
  unfold startTunnel
  dsimp only
  split
  · exact ⟨⟨rfl, rfl, rfl, rfl, fun _ => rfl⟩, fun _ => rfl⟩
  · exact ⟨⟨rfl, rfl, rfl, rfl, fun _ => rfl⟩, fun _ => rfl⟩
  · generalize hs : setTunnel { s with starts := s.starts.tail, nextTunnel := s.nextTunnel + 1 } s.nextTunnel
      (some ⟨some addr, false, []⟩) = s'
    have hnew : SameSlots s s' := hs ▸ ⟨rfl, rfl, rfl, rfl, id⟩
    exact ⟨hnew.trans (post_sameSlots ..), nofun⟩

def Served (s : Server) (i : Nat) : Prop :=
  i < s.conf.identityConnect.length → s.maintenance = true ∨ ∃ t, s.identityTunnels[i]? = some (some t)

variable {slots : List (Option TunnelId)} {tun : Tunnel}

structure Extends (s s' : Server) : Prop where
  conf : s'.conf = s.conf
  mux : s'.muxTunnel = s.muxTunnel
  armed : s.maintenance = true → s'.maintenance = true

theorem Refills.extends (h : Refills s s') : Extends s s' := { h with }

theorem Extends.served (h : Extends s s') (hmux : s.conf.muxConnect.isSome → s.maintenance = true ∨ s.muxTunnel.isSome)
    (hserved : ∀ i, s'.Served i) : s'.Covered := by
  by_cases harmed : s'.maintenance = true
  · exact .inl harmed
  · refine .inr ⟨fun hconf => ?_, fun i hi => (hserved i hi).resolve_left harmed⟩
    rw [h.conf] at hconf
    rw [h.mux]
    exact (hmux hconf).resolve_left fun h' => harmed (h.armed h')

/-- Slots hold live tunnels, each in one slot only; without threads no task waits. -/
structure Slotted (s : Server) : Prop where
  fresh : ∀ t, s.nextTunnel ≤ t → s.tunnels t = none
  muxLive : ∀ t, s.muxTunnel = some t → (s.tunnels t).isSome
  identityLive : ∀ (i : Nat) (t : TunnelId), s.identityTunnels[i]? = some (some t) → (s.tunnels t).isSome
  once : ∀ (i j : Nat) (t : TunnelId), s.identityTunnels[i]? = some (some t) →
    s.identityTunnels[j]? = some (some t) → i = j
  apart : ∀ (i : Nat) (t : TunnelId), s.muxTunnel = some t → s.identityTunnels[i]? ≠ some (some t)
  unqueued : s.threads = false → ∀ t tun, s.tunnels t = some tun → tun.queue = []

/-- Slots and the set of live tunnels stay. -/
structure SameLive (s s' : Server) : Prop where
  threads : s'.threads = s.threads
  mux : s'.muxTunnel = s.muxTunnel
  identity : s'.identityTunnels = s.identityTunnels
  next : s'.nextTunnel = s.nextTunnel
  live : ∀ t, (s'.tunnels t).isSome = (s.tunnels t).isSome
  unqueued : s'.threads = false → (∀ t tun, s.tunnels t = some tun → tun.queue = []) →
    ∀ t tun, s'.tunnels t = some tun → tun.queue = []

theorem SameLive.refl (s : Server) : SameLive s s := ⟨rfl, rfl, rfl, rfl, fun _ => rfl, fun _ => id⟩

theorem Slotted.sameLive (h : s.Slotted) (hs : SameLive s s') : s'.Slotted where
  fresh t ht := by
    rw [hs.next] at ht
    have hnone := hs.live t
    rw [h.fresh t ht] at hnone
    exact Option.not_isSome_iff_eq_none.mp (by simp [hnone])
  muxLive t ht := by
    rw [hs.live]
    exact h.muxLive t (hs.mux ▸ ht)
  identityLive i t ht := by
    rw [hs.live]
    exact h.identityLive i t (hs.identity ▸ ht)
  once i j t hi hj := h.once i j t (hs.identity ▸ hi) (hs.identity ▸ hj)
  apart i t ht := by
    rw [hs.identity]
    exact h.apart i t (hs.mux ▸ ht)
  unqueued hthreads := hs.unqueued hthreads (h.unqueued (hs.threads ▸ hthreads))

theorem setTunnel_sameLive (hlive : (s.tunnels t).isSome) (hqueue : s.threads = false → tun.queue = []) :
    SameLive s (s.setTunnel t (some tun)) := by
  refine ⟨rfl, rfl, rfl, rfl, fun u => ?_, fun hthreads hall u tun' hu => ?_⟩
  · unfold setTunnel
    by_cases hut : u = t
    · subst hut
      simp [hlive]
    · simp [update_of_ne hut]
  · unfold setTunnel at hu
    by_cases hut : u = t
    · subst hut
      simp only [update_self, Option.some.injEq] at hu
      exact hu ▸ hqueue hthreads
    · simp only [update_of_ne hut] at hu
      exact hall u tun' hu

theorem runTask_sameLive (hlive : (s.tunnels t).isSome) (hqueue : s.threads = false → tun.queue = [])
    (task : TunnelTask) : SameLive s (s.runTask t tun task) := by
  cases task with
  | connect =>
    have h := setTunnel_sameLive hlive hqueue
    exact { h with }
  | reload opts =>
    refine setTunnel_sameLive hlive fun hthreads => ?_
    have hsame : (tun.reload opts).queue = tun.queue := by
      unfold Tunnel.reload
      dsimp only
      split <;> split <;> rfl
    rw [hsame, hqueue hthreads]

theorem post_sameLive (h : s.Slotted) (t : TunnelId) (task : TunnelTask) : SameLive s (s.post t task) := by
  unfold post
  cases htun : s.tunnels t with
  | none => exact .refl s
  | some tun =>
    have hlive : (s.tunnels t).isSome := by simp [htun]
    dsimp only
    split
    next hthreads => exact setTunnel_sameLive hlive fun hno => by simp [hthreads] at hno
    next => exact runTask_sameLive hlive (fun hno => h.unqueued hno t tun htun) task

/-- A new tunnel is live and in no slot yet. -/
theorem startTunnel_slotted (h : s.Slotted) (addr : String) :
    (s.startTunnel addr).2.Slotted ∧ ∀ t, (s.startTunnel addr).1 = some t →
      ((s.startTunnel addr).2.tunnels t).isSome ∧ s.nextTunnel ≤ t := by
  unfold startTunnel
  dsimp only
  split
  · exact ⟨h.sameLive ⟨rfl, rfl, rfl, rfl, fun _ => rfl, fun _ => id⟩, nofun⟩
  · refine ⟨{ h with fresh := fun t ht => ?_ }, nofun⟩
    exact h.fresh t (Nat.le_of_succ_le ht)
  · generalize hs : setTunnel { s with starts := s.starts.tail, nextTunnel := s.nextTunnel + 1 } s.nextTunnel
      (some ⟨some addr, false, []⟩) = s'
    have htunnels : s'.tunnels = update s.tunnels s.nextTunnel (some ⟨some addr, false, []⟩) := by
      rw [← hs]
      rfl
    have hother {t : TunnelId} (hlive : (s.tunnels t).isSome) : s'.tunnels t = s.tunnels t := by
      rw [htunnels, update_of_ne]
      rintro rfl
      rw [h.fresh _ (Nat.le_refl _)] at hlive
      contradiction
    have hslotted : s'.Slotted := by
      refine ⟨fun t ht => ?_, fun t ht => ?_, fun i t ht => ?_, ?_, ?_, fun hno t tun ht => ?_⟩
      · rw [← hs] at ht
        rw [htunnels, update_of_ne (Nat.ne_of_gt ht)]
        exact h.fresh t (Nat.le_of_succ_le ht)
      · have hlive := h.muxLive t (by rw [← hs] at ht; exact ht)
        rwa [hother hlive]
      · have hlive := h.identityLive i t (by rw [← hs] at ht; exact ht)
        rwa [hother hlive]
      · rw [← hs]
        exact h.once
      · rw [← hs]
        exact h.apart
      · rw [htunnels] at ht
        by_cases heq : t = s.nextTunnel
        · subst heq
          rw [update_self, Option.some.injEq] at ht
          rw [← ht]
        · rw [update_of_ne heq] at ht
          exact h.unqueued (by rw [← hs] at hno; exact hno) t tun ht
    have hpost := post_sameLive hslotted s.nextTunnel .connect
    refine ⟨hslotted.sameLive hpost, fun t ht => ?_⟩
    obtain rfl := Option.some.inj ht
    refine ⟨?_, Nat.le_refl _⟩
    rw [hpost.live, htunnels, update_self]
    rfl

theorem Slotted.lt_next (h : s.Slotted) (hlive : (s.tunnels t).isSome) : t < s.nextTunnel := by
  by_contra hge
  rw [h.fresh t (Nat.le_of_not_lt hge)] at hlive
  contradiction

theorem Slotted.startMux (h : s.Slotted) (addr : String) :
    { (s.startTunnel addr).2 with muxTunnel := (s.startTunnel addr).1 }.Slotted := by
  obtain ⟨hslotted, hnew⟩ := startTunnel_slotted h addr
  obtain ⟨hsame, -⟩ := s.startTunnel_sameSlots addr
  refine { hslotted with muxLive := fun t ht => (hnew t ht).1, apart := fun i t ht hi => ?_ }
  rw [hsame.identity] at hi
  have hlt := h.lt_next (h.identityLive i t hi)
  exact absurd (hnew t ht).2 (Nat.not_le_of_lt hlt)

theorem Slotted.startIdentity (h : s.Slotted) (addr : String) (i : Nat) :
    { (s.startTunnel addr).2 with
      identityTunnels := (s.startTunnel addr).2.identityTunnels.set i (s.startTunnel addr).1 }.Slotted := by
  obtain ⟨hslotted, hnew⟩ := startTunnel_slotted h addr
  obtain ⟨hsame, -⟩ := s.startTunnel_sameSlots addr
  -- a slot holds the new tunnel, which is in no other, or what it held
  have hcases {j : Nat} {t : TunnelId}
      (hj : ((s.startTunnel addr).2.identityTunnels.set i (s.startTunnel addr).1)[j]? = some (some t)) :
      j = i ∧ (s.startTunnel addr).1 = some t ∨ s.identityTunnels[j]? = some (some t) := by
    rw [hsame.identity, List.getElem?_set] at hj
    split at hj
    next heq =>
      split at hj
      · exact .inl ⟨heq.symm, Option.some.inj hj⟩
      · contradiction
    next => exact .inr hj
  have hold {j : Nat} {t : TunnelId} (hj : s.identityTunnels[j]? = some (some t))
      (ht : (s.startTunnel addr).1 = some t) : False := by
    have hlt := h.lt_next (h.identityLive j t hj)
    exact absurd (hnew t ht).2 (Nat.not_le_of_lt hlt)
  refine { hslotted with identityLive := fun j t hj => ?_, once := fun j k t hj hk => ?_, apart := fun j t ht hj => ?_ }
  · rcases hcases hj with ⟨-, ht⟩ | hj
    · exact (hnew t ht).1
    · exact hslotted.identityLive j t (hsame.identity ▸ hj)
  · rcases hcases hj with ⟨rfl, ht⟩ | hj
    · rcases hcases hk with ⟨rfl, -⟩ | hk
      · rfl
      · exact (hold hk ht).elim
    · rcases hcases hk with ⟨-, ht⟩ | hk
      · exact (hold hj ht).elim
      · exact h.once j k t hj hk
  · rw [hsame.mux] at ht
    rcases hcases hj with ⟨-, hnew'⟩ | hj
    · have hlt := h.lt_next (h.muxLive t ht)
      exact absurd (hnew t hnew').2 (Nat.not_le_of_lt hlt)
    · exact h.apart j t ht hj

theorem Slotted.grow (h : s.Slotted) (n : Nat) :
    { s with identityTunnels := s.identityTunnels ++ List.replicate n none }.Slotted := by
  have hcases {j : Nat} {t : TunnelId} (hj : (s.identityTunnels ++ List.replicate n none)[j]? = some (some t)) :
      s.identityTunnels[j]? = some (some t) := by
    rw [List.getElem?_append] at hj
    split at hj
    · exact hj
    · rw [List.getElem?_replicate] at hj
      split at hj <;> simp at hj
  exact ⟨h.fresh, h.muxLive, fun j t hj => h.identityLive j t (hcases hj),
    fun j k t hj hk => h.once j k t (hcases hj) (hcases hk), fun j t ht hj => h.apart j t ht (hcases hj),
    h.unqueued⟩

end Server

end Multiplexd
