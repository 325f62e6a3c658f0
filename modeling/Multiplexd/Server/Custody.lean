import Mathlib.Data.List.Nodup
import Multiplexd.Server.Handoff

/-!
# A transport has one owner

Two things are kept by every step. The ledger: whatever has come to exist is owned once, by a session or by
an attach task in a queue, or has been closed once. The order of a tunnel's queue: no attach comes after
the teardown, because a thread that posts one holds the lock of the registry that the tunnel is still in, and
the teardown of a tunnel is posted after it has left the registry.
-/

namespace Multiplexd

open Function (update_idem update_of_ne update_self)

namespace TunnelWork

def parts : TunnelWork → List Resource
  | .attach transport => transport.parts
  | .teardown | .other => []

/-- Nothing that needs the session comes after the teardown. -/
def Orderly : List TunnelWork → Prop
  | [] => True
  | .teardown :: queue => ∀ w ∈ queue, w = .other
  | .attach _ :: queue | .other :: queue => Orderly queue

variable {queue : List TunnelWork}

theorem orderly_append_other (h : Orderly queue) : Orderly (queue ++ [.other]) := by
  induction queue with
  | nil => trivial
  | cons w queue ih =>
    cases w with
    | attach _ => exact ih h
    | other => exact ih h
    | teardown =>
      intro w hw
      rcases List.mem_append.mp hw with hw | hw
      · exact h w hw
      · exact List.mem_singleton.mp hw

theorem orderly_of_other (h : ∀ w ∈ queue, w = .other) : Orderly queue := by
  induction queue with
  | nil => trivial
  | cons w queue ih =>
    obtain rfl := h w List.mem_cons_self
    exact ih fun v hv => h v (List.mem_cons_of_mem _ hv)

theorem orderly_append (h : .teardown ∉ queue) (w : TunnelWork) : Orderly (queue ++ [w]) := by
  induction queue with
  | nil => cases w <;> simp [Orderly]
  | cons v queue ih =>
    have hqueue := ih fun hm => h (List.mem_cons_of_mem _ hm)
    cases v with
    | attach _ => exact hqueue
    | other => exact hqueue
    | teardown => exact absurd List.mem_cons_self h

end TunnelWork

/-- What the thread's way through a hello has left of its session: the transport, unless it was handed off. -/
def ResumeStep.Left (session : Option Custodian) : ResumeStep → Prop
  | .none => True
  | .pinned _ own => own.fd.isSome ∧ session = some ⟨.handshake, own⟩
  | .handedOff handled own | .decided handled own =>
    own.fd.isSome ∧ session = some ⟨.handshake, if handled then .empty else own⟩

namespace AcceptedTunnel

/-- What the tunnel's session and the tasks in its queue own. -/
def holdings (tun : AcceptedTunnel) : List Resource :=
  (tun.session.map fun c => c.transport.parts).getD [] ++ tun.queue.flatMap TunnelWork.parts

/-- How often a tunnel that may be there owns the resource. -/
def weight (r : Resource) (tun : Option AcceptedTunnel) : Nat := ((tun.map holdings).getD []).count r

theorem weight_some (r : Resource) (tun : AcceptedTunnel) :
    weight r (some tun) = ((tun.session.map fun c => c.transport.parts).getD []).count r
      + (tun.queue.flatMap TunnelWork.parts).count r := by
  simp [weight, holdings, List.count_append]

/-- The state of a tunnel fits where its thread and the server's thread are. -/
structure Fit (closing : Closing) (t : TunnelId) (tun : AcceptedTunnel) : Prop where
  proper : ∀ c, tun.session = some c → tun.resume = .none → c.Proper
  gone : tun.session = none → tun.registered = false ∧ tun.resume = .none ∧ ∀ w ∈ tun.queue, w = .other
  orderly : TunnelWork.Orderly tun.queue
  whole : tun.registered = true ∨ closing = .posting t → .teardown ∉ tun.queue ∧ tun.session ≠ none
  closing : tun.registered = false ↔ closing = .posting t ∨ closing = .joining t
  exited : tun.exited = true → tun.session = none
  resume : tun.resume.Left tun.session

variable {t : TunnelId}

/-- The thread is in no hello, and its session is as it should be. -/
theorem Fit.working {closing : Closing} {tun tun' : AcceptedTunnel} {c d : Custodian} (h : Fit closing t tun) (hc : tun.session = some c)
    (hd : tun'.session = some d) (hproper : d.Proper) (hresume : tun'.resume = .none)
    (horderly : TunnelWork.Orderly tun'.queue) (hsub : ∀ w ∈ tun'.queue, w ∈ tun.queue)
    (hreg : tun'.registered = tun.registered) (hexited : tun'.exited = tun.exited) : Fit closing t tun' where
  proper c' hc' _ := by
    obtain rfl : d = c' := Option.some.inj (hd.symm.trans hc')
    exact hproper
  gone h := by simp [hd] at h
  orderly := horderly
  whole hw := ⟨fun hm => (h.whole (hreg ▸ hw)).1 (hsub _ hm), by simp [hd]⟩
  closing := hreg ▸ h.closing
  exited he := by simp [h.exited (hexited ▸ he)] at hc
  resume := by rw [hresume]; trivial

theorem Fit.congr {closing closing' : Closing} {tun : AcceptedTunnel} (h : Fit closing t tun)
    (hpost : closing' = .posting t ↔ closing = .posting t) (hjoin : closing' = .joining t ↔ closing = .joining t) :
    Fit closing' t tun :=
  { h with
    whole := fun hw => h.whole (hw.imp_right hpost.mp)
    closing := by rw [hpost, hjoin]; exact h.closing }

end AcceptedTunnel

namespace Handoff

open AcceptedTunnel (weight weight_some Fit)

/-- Everything that has come to exist is owned once or has been closed once. -/
structure Ledger (tunnels : TunnelId → Option AcceptedTunnel) (nextTunnel : TunnelId) (created closed : List Resource)
    (nextResource : Nat) : Prop where
  balance : ∀ r, census (weight r) nextTunnel tunnels + closed.count r = created.count r
  nodup : created.Nodup
  below : ∀ n, nextResource ≤ n → .fd n ∉ created ∧ .tlsconn n ∉ created ∧ .identity n ∉ created

/-- A thread that holds the lock found its target in the registry. -/
def Pinned (tunnels : TunnelId → Option AcceptedTunnel) : Prop :=
  ∀ t tun target own, tunnels t = some tun → tun.resume = .pinned target own →
    ∃ old, tunnels target = some old ∧ old.registered = true

structure Ordered (tunnels : TunnelId → Option AcceptedTunnel) (nextTunnel : TunnelId) (closing : Closing) : Prop where
  bounded : ∀ t, nextTunnel ≤ t → tunnels t = none
  fit : ∀ t tun, tunnels t = some tun → Fit closing t tun
  pinned : Pinned tunnels
  closing : ∀ t, closing = .posting t ∨ closing = .joining t → (tunnels t).isSome

structure Sound (s : Handoff) : Prop where
  ledger : Ledger s.tunnels s.nextTunnel s.created s.closed s.nextResource
  ordered : Ordered s.tunnels s.nextTunnel s.closing
  intact : s.crashed = false

variable {s : Handoff} {t : TunnelId} {tun tun' : AcceptedTunnel}

variable {tunnels : TunnelId → Option AcceptedTunnel} {n target : TunnelId} {closing : Closing}
  {created closed : List Resource} {nextResource : Nat} {o : Option AcceptedTunnel} {c : Custodian}
  {own : MuxTransport}

theorem Ordered.lt (h : Ordered tunnels n closing) (ht : tunnels t = some tun) : t < n :=
  Nat.lt_of_not_le fun hle => by simp [h.bounded t hle] at ht

/-- One tunnel's holdings change, and what has been closed with them. -/
theorem Ledger.update {closed' : List Resource} (h : Ledger tunnels n created closed nextResource) (ht : t < n)
    (hbal : ∀ r, weight r (tunnels t) + closed.count r = weight r o + closed'.count r) :
    Ledger (Function.update tunnels t o) n created closed' nextResource := by
  refine ⟨fun r => ?_, h.nodup, h.below⟩
  have h₁ := h.balance r
  have h₂ := census_update (weight r) ht tunnels o
  have h₃ := hbal r
  omega

/-- A tunnel changes and stays in the registry if it was there. -/
theorem Pinned.update (h : Pinned tunnels) (ht : tunnels t = some tun) (hreg : tun'.registered = tun.registered)
    (hpins : ∀ target own, tun'.resume = .pinned target own → ∃ old, tunnels target = some old ∧ old.registered = true) :
    Pinned (Function.update tunnels t (some tun')) := by
  have hkept : ∀ target, (∃ old, tunnels target = some old ∧ old.registered = true) →
      ∃ old, Function.update tunnels t (some tun') target = some old ∧ old.registered = true := by
    rintro target ⟨old, hold, hr⟩
    by_cases hu : target = t
    · subst hu
      obtain rfl : tun = old := Option.some.inj (ht.symm.trans hold)
      exact ⟨tun', by simp, hreg.trans hr⟩
    · exact ⟨old, by rwa [update_of_ne hu], hr⟩
  intro u v target own hv hp
  by_cases hu : u = t
  · subst hu
    obtain rfl : tun' = v := by simpa using hv
    exact hkept target (hpins target own hp)
  · rw [update_of_ne hu] at hv
    exact hkept target (h u v target own hv hp)

/-- One tunnel changes or goes, and the server's thread is not concerned with another. -/
theorem Ordered.change {closing' : Closing} (h : Ordered tunnels n closing) (ht : tunnels t = some tun)
    (hfit : ∀ tun', o = some tun' → Fit closing' t tun')
    (hothers : ∀ u, u ≠ t → (closing' = .posting u ↔ closing = .posting u) ∧ (closing' = .joining u ↔ closing = .joining u))
    (hpinned : Pinned (Function.update tunnels t o))
    (hclosing : closing' = .posting t ∨ closing' = .joining t → o.isSome) :
    Ordered (Function.update tunnels t o) n closing' := by
  refine ⟨fun u hu => ?_, fun u v hv => ?_, hpinned, fun u hu => ?_⟩
  · have hne : u ≠ t := fun heq => by simp [h.bounded t (heq ▸ hu)] at ht
    rw [update_of_ne hne]
    exact h.bounded u hu
  · by_cases heq : u = t
    · subst heq
      exact hfit v (by simpa using hv)
    · rw [update_of_ne heq] at hv
      obtain ⟨hpost, hjoin⟩ := hothers u heq
      exact (h.fit u v hv).congr hpost hjoin
  · by_cases heq : u = t
    · subst heq
      simpa using hclosing hu
    · rw [update_of_ne heq]
      obtain ⟨hpost, hjoin⟩ := hothers u heq
      exact h.closing u (hu.imp hpost.mp hjoin.mp)

/-- One tunnel changes in a way that fits and stays in the registry if it was there. -/
theorem Ordered.update (h : Ordered tunnels n closing) (ht : tunnels t = some tun) (hfit : Fit closing t tun')
    (hreg : tun'.registered = tun.registered)
    (hpins : ∀ target own, tun'.resume = .pinned target own → ∃ old, tunnels target = some old ∧ old.registered = true) :
    Ordered (Function.update tunnels t (some tun')) n closing :=
  h.change ht (fun _ hv => Option.some.inj hv ▸ hfit) (fun _ _ => ⟨Iff.rfl, Iff.rfl⟩) (h.pinned.update ht hreg hpins)
    fun _ => rfl

theorem Sound.setTunnel_closing (hs : s.Sound) (ht : s.tunnels t = some tun) (hfit : Fit s.closing t tun')
    (hreg : tun'.registered = tun.registered) (hpins : ∀ target own, tun'.resume = .pinned target own →
      ∃ old, s.tunnels target = some old ∧ old.registered = true) (hbal : ∀ r, weight r (some tun) = weight r (some tun') + closed.count r) :
    { s.setTunnel t tun' with closed := s.closed ++ closed }.Sound :=
  ⟨hs.ledger.update (hs.ordered.lt ht) fun r => by rw [ht, hbal r, List.count_append]; omega, hs.ordered.update ht hfit hreg hpins, hs.intact⟩

/-- A step of a tunnel's thread, which changes that tunnel alone. -/
theorem Sound.setTunnel (hs : s.Sound) (ht : s.tunnels t = some tun) (hfit : Fit s.closing t tun')
    (hreg : tun'.registered = tun.registered) (hpins : ∀ target own, tun'.resume = .pinned target own →
      ∃ old, s.tunnels target = some old ∧ old.registered = true)
    (hbal : ∀ r, weight r (some tun) = weight r (some tun')) : (s.setTunnel t tun').Sound := by
  have h : { s.setTunnel t tun' with closed := s.closed ++ [] }.Sound := hs.setTunnel_closing ht hfit hreg hpins hbal
  rw [List.append_nil] at h
  exact h

/-! ### The tunnels' threads -/

theorem Sound.settle {d : Disposal} (hs : s.Sound) (ht : s.tunnels t = some tun) (hc : tun.session = some c)
    (hbal : Custodian.Balanced c.transport.parts d) (hproper : d.1.Proper) :
    (s.settle t { tun with resume := .none } d).Sound := by
  have hfit := hs.ordered.fit t tun ht
  have hfit' : Fit s.closing t { tun with session := some d.1, resume := .none } :=
    hfit.working hc rfl hproper rfl hfit.orderly (fun _ => id) rfl rfl
  refine hs.setTunnel_closing ht hfit' rfl (fun _ _ h => nomatch h) fun r => ?_
  have h := hbal r
  simp only [weight_some, hc, Option.map_some, Option.getD_some]
  omega

theorem Sound.onSession (hs : s.Sound) (t : TunnelId) (f : Custodian → Option Disposal)
    (hf : ∀ c d, c.Proper → f c = some d → Custodian.Balanced c.transport.parts d ∧ d.1.Proper) :
    (s.onSession t f).Sound := by
  unfold Handoff.onSession
  split
  case h_2 => exact hs
  case h_1 tun ht =>
    split
    case h_2 => exact hs
    case h_1 c hresume hc =>
      cases hd : f c with
      | none => exact hs
      | some d =>
        obtain ⟨hbal, hproper⟩ := hf c d ((hs.ordered.fit t tun ht).proper c hc hresume) hd
        have h := hs.settle ht hc hbal hproper
        rw [← hresume] at h
        exact h

theorem Sound.start (hs : s.Sound) (t : TunnelId) (fails : Bool) : (s.step (.start t fails)).Sound := by
  refine hs.onSession t _ fun c d hc hd => ?_
  split at hd
  case isFalse => simp at hd
  case isTrue hstate =>
    obtain rfl := Option.some.inj hd
    cases fails with
    | true => exact ⟨c.reset_balanced, (Custodian.reset_proper fun _ => hc).1⟩
    | false =>
      refine ⟨{ c with state := .handshake }.balanced_refl, ⟨fun h => by simp at h, fun _ => ?_⟩⟩
      exact hc.equipped (.inl hstate)

theorem Sound.suspend (hs : s.Sound) (t : TunnelId) (oom : Bool) : (s.step (.suspend t oom)).Sound := by
  refine hs.onSession t _ fun c d hc hd => ?_
  split at hd
  case isFalse => simp at hd
  case isTrue =>
    obtain rfl := Option.some.inj hd
    exact ⟨c.suspend_balanced oom, c.suspend_proper oom⟩

theorem Sound.shutdown (hs : s.Sound) (t : TunnelId) : (s.step (.shutdown t)).Sound :=
  hs.onSession t _ fun c d hc hd => by
    obtain rfl := Option.some.inj hd
    exact ⟨c.initiateShutdown_balanced, Custodian.initiateShutdown_proper fun _ => hc⟩

theorem Sound.closeWait (hs : s.Sound) (t : TunnelId) : (s.step (.closeWait t)).Sound := by
  refine hs.onSession t _ fun c d hc hd => ?_
  split at hd
  case isFalse => simp at hd
  case isTrue =>
    obtain rfl := Option.some.inj hd
    exact ⟨{ c with state := .closeWait }.balanced_refl, fun h => by simp at h, fun h => by simp at h⟩

theorem Sound.reset (hs : s.Sound) (t : TunnelId) : (s.step (.reset t)).Sound :=
  hs.onSession t _ fun c d hc hd => by
    obtain rfl := Option.some.inj hd
    exact ⟨c.reset_balanced, (Custodian.reset_proper fun _ => hc).1⟩

/-- A task gets into the queue of a tunnel. -/
theorem Sound.push (hs : s.Sound) (ht : s.tunnels t = some tun) {w : TunnelWork}
    (horderly : TunnelWork.Orderly (tun.queue ++ [w])) (hgone : tun.session = none → w = .other)
    (hw : w = .teardown → tun.registered = false ∧ s.closing ≠ .posting t) (hparts : w.parts = []) :
    (s.setTunnel t { tun with queue := tun.queue ++ [w] }).Sound := by
  have hfit := hs.ordered.fit t tun ht
  have hfit' : Fit s.closing t { tun with queue := tun.queue ++ [w] } := by
    refine { hfit with
      gone := fun h => ⟨(hfit.gone h).1, (hfit.gone h).2.1, fun v hv => ?_⟩
      orderly := horderly
      whole := fun h => ⟨fun hm => ?_, (hfit.whole h).2⟩ }
    · rcases List.mem_append.mp hv with hv | hv
      · exact (hfit.gone h).2.2 v hv
      · exact (List.mem_singleton.mp hv).trans (hgone h)
    · rcases List.mem_append.mp hm with hm | hm
      · exact (hfit.whole h).1 hm
      · obtain ⟨hreg, hne⟩ := hw (List.mem_singleton.mp hm).symm
        rcases h with h | h
        · simp [hreg] at h
        · exact hne h
  exact hs.setTunnel ht hfit' rfl (fun target own h => hs.ordered.pinned t tun target own ht h) fun r => by
    simp [weight_some, hparts]

/-- Something new comes to exist. Until it is put where it belongs it is entered as closed. -/
theorem Ledger.create {fresh : List Resource} (h : Ledger tunnels n created closed nextResource) (hnodup : fresh.Nodup)
    (hnew : ∀ r ∈ fresh, r = .fd nextResource ∨ r = .tlsconn nextResource ∨ r = .identity nextResource) :
    Ledger tunnels n (created ++ fresh) (closed ++ fresh) (nextResource + 1) := by
  have hold := h.below nextResource (Nat.le_refl _)
  refine ⟨fun r => ?_, List.nodup_append.mpr ⟨h.nodup, hnodup, ?_⟩, fun m hm => ?_⟩
  · have hbal := h.balance r
    simp only [List.count_append]
    omega
  · rintro r hr _ hf rfl
    rcases hnew r hf with rfl | rfl | rfl
    · exact hold.1 hr
    · exact hold.2.1 hr
    · exact hold.2.2 hr
  · obtain ⟨h₁, h₂, h₃⟩ := h.below m (Nat.le_of_succ_le hm)
    have hne : m ≠ nextResource := fun h => Nat.not_succ_le_self _ (h ▸ hm)
    refine ⟨fun hr => ?_, fun hr => ?_, fun hr => ?_⟩
    · rcases List.mem_append.mp hr with hr | hr
      · exact h₁ hr
      · simpa [hne] using hnew _ hr
    · rcases List.mem_append.mp hr with hr | hr
      · exact h₂ hr
      · simpa [hne] using hnew _ hr
    · rcases List.mem_append.mp hr with hr | hr
      · exact h₃ hr
      · simpa [hne] using hnew _ hr

theorem Sound.accept (hs : s.Sound) (tls : Bool) (outcome : AcceptOutcome) : (s.accept tls outcome).Sound := by
  let transport : MuxTransport := ⟨some s.nextResource, if tls then some s.nextResource else none, none⟩
  have hledger : Ledger s.tunnels s.nextTunnel (s.created ++ transport.parts) (s.closed ++ transport.parts)
      (s.nextResource + 1) := by
    refine hs.ledger.create ?_ fun r hr => ?_
    · cases tls <;> simp [transport, MuxTransport.parts]
    · cases tls with
      | false => exact .inl (by simpa [transport, MuxTransport.parts] using hr)
      | true =>
        have hr : r = .fd s.nextResource ∨ r = .tlsconn s.nextResource := by
          simpa [transport, MuxTransport.parts] using hr
        exact hr.imp_right .inl
  cases outcome with
  | fails => exact ⟨hledger, hs.ordered, hs.intact⟩
  | ok =>
    have hfree : s.tunnels s.nextTunnel = none := hs.ordered.bounded _ (Nat.le_refl _)
    refine ⟨⟨fun r => ?_, hledger.nodup, hledger.below⟩, ⟨fun u hu => ?_, fun u v hv => ?_, ?_, fun u hu => ?_⟩, hs.intact⟩
    · have hbal := hledger.balance r
      simp only [Handoff.accept, census_succ_update, weight_some, Option.map_some, Option.getD_some, List.flatMap_nil,
        List.count_nil]
      simp only [List.count_append, transport] at hbal ⊢
      omega
    · have hne : u ≠ s.nextTunnel := fun h => Nat.not_succ_le_self _ (h ▸ hu)
      simp only [Handoff.accept, update_of_ne hne]
      exact hs.ordered.bounded u (Nat.le_of_succ_le hu)
    · by_cases heq : u = s.nextTunnel
      · subst heq
        obtain rfl : (⟨some ⟨.init, transport⟩, [], .none, true, false⟩ : AcceptedTunnel) = v := by
          simpa [Handoff.accept] using hv
        have hnot : ¬ (s.closing = .posting s.nextTunnel ∨ s.closing = .joining s.nextTunnel) := fun h => by
          simpa [hfree] using hs.ordered.closing s.nextTunnel h
        refine ⟨fun c hc _ => ?_, fun h => by simp at h, trivial, fun _ => by simp, ?_, fun h => by simp at h, trivial⟩
        · obtain rfl := Option.some.inj hc
          exact ⟨fun h => by simp at h, fun _ => rfl⟩
        · exact ⟨fun h => by simp at h, fun h => absurd h hnot⟩
      · simp only [Handoff.accept, update_of_ne heq] at hv
        exact hs.ordered.fit u v hv
    · intro u v target own hv hp
      simp only [Handoff.accept] at hv ⊢
      by_cases heq : u = s.nextTunnel
      · subst heq
        simp only [update_self, Option.some.injEq] at hv
        subst hv
        simp at hp
      · rw [update_of_ne heq] at hv
        obtain ⟨old, hold, hr⟩ := hs.ordered.pinned u v target own hv hp
        have hne : target ≠ s.nextTunnel := fun h => by simp [h, hfree] at hold
        exact ⟨old, by rwa [update_of_ne hne], hr⟩
    · simp only [Handoff.accept]
      by_cases heq : u = s.nextTunnel
      · subst heq
        simp
      · rw [update_of_ne heq]
        exact hs.ordered.closing u hu

/-- A thread goes a step through a hello without touching what the tunnel owns. -/
theorem Sound.setResume (hs : s.Sound) (ht : s.tunnels t = some tun) (hc : tun.session = some c)
    {resume : ResumeStep} (hnone : resume ≠ .none) (hleft : resume.Left (some c))
    (hpins : ∀ target own, resume = .pinned target own → ∃ old, s.tunnels target = some old ∧ old.registered = true) :
    (s.setTunnel t { tun with resume := resume }).Sound := by
  have hfit := hs.ordered.fit t tun ht
  refine hs.setTunnel ht ?_ rfl hpins fun r => by simp only [weight_some]
  exact { hfit with
    proper := fun c _ h => absurd h hnone
    gone := fun h => by simp [hc] at h
    resume := hc ▸ hleft }

theorem lookup_registered {seen : SessionState} (h : s.lookup target seen = true) :
    ∃ old, s.tunnels target = some old ∧ old.registered = true := by
  simp only [lookup, Bool.and_eq_true, Option.any_eq_true] at h
  exact h.1

theorem Sound.greet (hs : s.Sound) (ht : s.tunnels t = some tun) (hc : tun.session = some c)
    (hnone : tun.resume = .none) (hstate : c.state = .handshake) (verified : Bool) (sessionId : Option TunnelId)
    (seen : SessionState) : (s.greet t tun c verified sessionId seen).Sound := by
  have hproper := (hs.ordered.fit t tun ht).proper c hc hnone
  have hown : c.transport.fd.isSome := hproper.equipped (.inr hstate)
  have hc' : some c = some ⟨.handshake, c.transport⟩ := by rw [← hstate]
  unfold Handoff.greet
  cases verified with
  | false =>
    have h := hs.settle ht hc c.reset_balanced (Custodian.reset_proper fun _ => hproper).1
    rw [← hnone] at h
    exact h
  | true =>
    have hfresh : (s.setTunnel t { tun with resume := .decided false c.transport }).Sound :=
      hs.setResume ht hc (by simp) ⟨hown, hc'⟩ fun _ _ h => nomatch h
    cases sessionId with
    | none => exact hfresh
    | some target =>
      cases hfound : s.lookup target seen with
      | false => simpa [hfound] using hfresh
      | true =>
        have hpinned : (s.setTunnel t { tun with resume := .pinned target c.transport }).Sound :=
          hs.setResume ht hc (by simp) ⟨hown, hc'⟩ fun _ _ h => by
            cases h
            exact lookup_registered hfound
        simpa [hfound] using hpinned

theorem Sound.claimIdentity (hs : s.Sound) (ht : s.tunnels t = some tun) (hc : tun.session = some c)
    (hnone : tun.resume = .none) : (s.claimIdentity t tun c).1.Sound := by
  have hfit := hs.ordered.fit t tun ht
  have hproper := hfit.proper c hc hnone
  have hledger : Ledger s.tunnels s.nextTunnel (s.created ++ [.identity s.nextResource])
      (s.closed ++ [.identity s.nextResource]) (s.nextResource + 1) :=
    hs.ledger.create (List.nodup_singleton _) fun r hr => .inr (.inr (List.mem_singleton.mp hr))
  refine ⟨hledger.update (hs.ordered.lt ht) fun r => ?_, hs.ordered.update ht ?_ rfl fun _ _ h => ?_, hs.intact⟩
  · simp only [Handoff.claimIdentity, ht, weight_some, hc, Option.map_some, Option.getD_some, MuxTransport.parts,
      List.count_append, Option.toList_some, List.map_cons, List.map_nil]
    omega
  · exact hfit.working hc rfl ⟨hproper.vacant, hproper.equipped⟩ hnone hfit.orderly (fun _ => id) rfl rfl
  · simp [hnone] at h

theorem Sound.hello (hs : s.Sound) (ht : s.tunnels t = some tun) (hc : tun.session = some c)
    (hnone : tun.resume = .none) (hstate : c.state = .handshake) (claims verified : Bool) (sessionId : Option TunnelId)
    (seen : SessionState) : (s.hello t tun c claims verified sessionId seen).Sound := by
  cases claims with
  | false => exact hs.greet ht hc hnone hstate verified sessionId seen
  | true =>
    have ht' : (s.claimIdentity t tun c).1.tunnels t = some { tun with session := some (s.claimIdentity t tun c).2 } :=
      update_self ..
    exact (hs.claimIdentity ht hc hnone).greet ht' rfl hnone hstate verified sessionId seen

theorem Sound.unpin (hs : s.Sound) (t : TunnelId) : (s.step (.unpin t)).Sound := by
  simp only [Handoff.step]
  split
  case h_2 => exact hs
  case h_1 tun ht =>
    split
    case h_2 => exact hs
    case h_1 handled own hresume =>
      have hleft := (hs.ordered.fit t tun ht).resume
      rw [hresume] at hleft
      exact hs.setResume ht hleft.2 (by simp) ⟨hleft.1, rfl⟩ fun _ _ h => nomatch h

theorem Sound.finish (hs : s.Sound) (ht : s.tunnels t = some tun) (hc : tun.session = some c)
    {handled : Bool} (hresume : tun.resume = .decided handled own) (admitted helloFails : Bool)
    (react : Custodian.OnEstablished) : (s.finish t tun c handled admitted helloFails react).Sound := by
  have hleft := (hs.ordered.fit t tun ht).resume
  rw [hresume] at hleft
  have hstate : c.state = .handshake := by
    rw [Option.some.inj (hc.symm.trans hleft.2)]
  unfold Handoff.finish
  split
  · exact hs.settle ht hc c.reset_balanced (Custodian.reset_proper fun h => by simp [hstate] at h).1
  · exact hs.settle ht hc (c.handshakeDone_balanced react) (c.handshakeDone_proper react)

/-- An attach gets into the queue of a tunnel that is in the registry. -/
theorem Fit.attach {old : AcceptedTunnel} (h : Fit closing t old) (hreg : old.registered = true)
    (transport : MuxTransport) : Fit closing t { old with queue := old.queue ++ [.attach transport] } := by
  obtain ⟨htear, hses⟩ := h.whole (.inl hreg)
  refine { h with
    gone := fun hg => absurd hg hses
    orderly := TunnelWork.orderly_append htear _
    whole := fun _ => ⟨fun hm => ?_, hses⟩ }
  rcases List.mem_append.mp hm with hm | hm
  · exact htear hm
  · simp at hm

theorem Sound.handoff (hs : s.Sound) (ht : s.tunnels t = some tun) (hc : tun.session = some c) (hresume : tun.resume = .pinned target own) (identityOk oom : Bool) :
    (s.handoff t tun c target own identityOk oom).Sound := by
  have hfit := hs.ordered.fit t tun ht
  have hleft := hfit.resume
  rw [hresume] at hleft
  obtain rfl : (⟨.handshake, own⟩ : Custodian) = c := Option.some.inj (hleft.2.symm.trans hc)
  have hkept : (s.setTunnel t { tun with resume := .handedOff false own }).Sound :=
    hs.setResume ht hc (by simp) ⟨hleft.1, rfl⟩ fun _ _ h => nomatch h
  unfold Handoff.handoff
  split
  · exact hkept
  dsimp only [Custodian.detach]
  -- the transport is off the session, which is on its way out
  set tun₁ : AcceptedTunnel := { tun with session := some ⟨.handshake, .empty⟩, resume := .handedOff true own } with htun₁
  have hfit₁ : Fit s.closing t tun₁ := { hfit with
    proper := fun c _ h => by simp [htun₁] at h
    gone := fun h => by simp [htun₁] at h
    whole := fun h => ⟨(hfit.whole h).1, by simp [htun₁]⟩
    exited := fun h => by simp [hfit.exited h] at hc
    resume := ⟨hleft.1, rfl⟩ }
  have hledger₁ : Ledger (Function.update s.tunnels t (some tun₁)) s.nextTunnel s.created (s.closed ++ own.parts)
      s.nextResource := hs.ledger.update (hs.ordered.lt ht) fun r => by
    simp only [ht, weight_some, hc, htun₁, Option.map_some, Option.getD_some, List.count_append, MuxTransport.parts,
      MuxTransport.empty, Option.toList_none, List.map_nil, List.count_nil]
    omega
  have hordered₁ : Ordered (Function.update s.tunnels t (some tun₁)) s.nextTunnel s.closing :=
    hs.ordered.update ht hfit₁ rfl fun _ _ h => by simp [htun₁] at h
  have hpinned : ∃ old, Function.update s.tunnels t (some tun₁) target = some old ∧ old.registered = true := by
    obtain ⟨old, hold, hreg⟩ := hs.ordered.pinned t tun target own ht hresume
    by_cases heq : target = t
    · subst heq
      obtain rfl : tun = old := Option.some.inj (ht.symm.trans hold)
      exact ⟨tun₁, by simp, hreg⟩
    · exact ⟨old, by rwa [update_of_ne heq], hreg⟩
  obtain ⟨old, hold, hreg⟩ := hpinned
  have hold' : (s.setTunnel t tun₁).tunnels target = some old := hold
  rw [hold']
  dsimp only [Handoff.post]
  split
  case isTrue =>
    -- the queue owns the transport
    rw [if_pos rfl]
    refine ⟨hledger₁.update (hordered₁.lt hold) fun r => ?_, hordered₁.update hold ?_ rfl fun tg own' h => ?_, hs.intact⟩
    · simp only [hold, weight_some, List.flatMap_append, List.flatMap_cons, List.flatMap_nil, List.append_nil,
        TunnelWork.parts, List.count_append, Handoff.setTunnel]
      omega
    · exact Fit.attach (hordered₁.fit target old hold) hreg own
    · exact hordered₁.pinned target old tg own' hold h
  case isFalse =>
    have heq : (s.setTunnel t tun₁).setTunnel t
        { tun with session := some (Custodian.reattach ⟨.handshake, .empty⟩ own), resume := .handedOff false own }
        = s.setTunnel t { tun with resume := .handedOff false own } := by
      simp only [Handoff.setTunnel, update_idem, Custodian.reattach, hc]
    simpa only [Bool.false_eq_true, if_false, heq] using hkept

theorem Sound.postOther (hs : s.Sound) (t : TunnelId) : (s.step (.postOther t)).Sound := by
  simp only [Handoff.step]
  split
  case h_2 => exact hs
  case h_1 tun ht =>
    unfold Handoff.post
    split
    · exact hs.push ht (TunnelWork.orderly_append_other (hs.ordered.fit t tun ht).orderly) (fun _ => rfl)
        (fun h => nomatch h) rfl
    · exact hs

theorem Sound.runTask (hs : s.Sound) (ht : s.tunnels t = some tun) (hnone : tun.resume = .none)
    (inp : Custodian.AttachInput) : (s.runTask t tun inp).Sound := by
  have hfit := hs.ordered.fit t tun ht
  have hpins : ∀ target own, tun.resume = .pinned target own →
      ∃ old, s.tunnels target = some old ∧ old.registered = true := fun _ _ h => by simp [hnone] at h
  unfold Handoff.runTask
  split
  case h_1 => exact hs
  case h_2 queue hq =>
    have horderly := hfit.orderly
    rw [hq] at horderly
    refine hs.setTunnel ht ?_ rfl hpins fun r => by simp [weight_some, hq, TunnelWork.parts]
    exact { hfit with
      gone := fun h => ⟨(hfit.gone h).1, (hfit.gone h).2.1, fun w hw => (hfit.gone h).2.2 w (by simp [hq, hw])⟩
      orderly := horderly
      whole := fun h => ⟨fun hm => (hfit.whole h).1 (by simp [hq, hm]), (hfit.whole h).2⟩ }
  case h_3 transport queue hq =>
    have horderly := hfit.orderly
    rw [hq] at horderly
    -- the session is there, since no attach is left once it has gone
    cases hc : tun.session with
    | none =>
      have := (hfit.gone hc).2.2 (.attach transport) (by simp [hq])
      simp at this
    | some c =>
      obtain ⟨hbal, hproper⟩ := Custodian.resumeAttach_spec (hfit.proper c hc hnone) transport inp
      have hfit' : Fit s.closing t { tun with session := some (c.resumeAttach transport inp).1, queue := queue } :=
        hfit.working hc rfl hproper hnone horderly (fun w hw => by simp [hq, hw]) rfl rfl
      refine hs.setTunnel_closing ht hfit' rfl hpins fun r => ?_
      have h := hbal r
      simp only [weight_some, hc, hq, Option.map_some, Option.getD_some, List.flatMap_cons, TunnelWork.parts,
        List.count_append] at h ⊢
      omega
  case h_4 queue hq =>
    have horderly := hfit.orderly
    rw [hq] at horderly
    have htear : .teardown ∈ tun.queue := by simp [hq]
    cases hc : tun.session with
    | none =>
      have := (hfit.gone hc).2.2 .teardown htear
      simp at this
    | some c =>
      -- a tunnel with a teardown in its queue has left the registry
      have hreg : tun.registered = false := by
        cases h : tun.registered with
        | false => rfl
        | true => exact absurd htear (hfit.whole (.inl h)).1
      have hposting : s.closing ≠ .posting t := fun h => (hfit.whole (.inr h)).1 htear
      have hfit' : Fit s.closing t { tun with session := none, queue := queue } := { hfit with
        proper := fun c h => by simp at h
        gone := fun _ => ⟨hreg, hnone, horderly⟩
        orderly := TunnelWork.orderly_of_other horderly
        whole := fun h => by simp [hreg, hposting] at h
        exited := fun _ => rfl
        resume := by rw [hnone]; trivial }
      refine hs.setTunnel_closing ht hfit' rfl hpins fun r => ?_
      simp only [weight_some, hc, hq, Option.map_some, Option.getD_some, Option.map_none, Option.getD_none,
        List.flatMap_cons, TunnelWork.parts, List.count_append, List.count_nil, Custodian.close_count]
      omega

theorem Sound.exit (hs : s.Sound) (t : TunnelId) : (s.step (.exit t)).Sound := by
  simp only [Handoff.step]
  split
  case h_2 => exact hs
  case h_1 tun ht =>
    split
    case isFalse => exact hs
    case isTrue h =>
      have hfit := hs.ordered.fit t tun ht
      exact hs.setTunnel ht { hfit with exited := fun _ => h.1 } rfl
        (fun target own h => hs.ordered.pinned t tun target own ht h) fun r => by simp only [weight_some]

/-- While the exclusive lock is held no thread holds it shared. -/
theorem not_pinned_of_not_locked (hs : s.Sound) (hlocked : s.locked = false) (t : TunnelId) (tun : AcceptedTunnel)
    (target : TunnelId) (own : MuxTransport) (ht : s.tunnels t = some tun) : tun.resume ≠ .pinned target own := by
  intro h
  simp only [locked, List.any_eq_false, List.mem_range] at hlocked
  have := hlocked t (hs.ordered.lt ht)
  simp [ht, h, ResumeStep.holdsLock] at this

theorem Sound.unregister (hs : s.Sound) (t : TunnelId) : (s.step (.unregister t)).Sound := by
  simp only [Handoff.step]
  split
  case h_2 => exact hs
  case h_1 tun hclosing ht =>
    split
    case isTrue => exact hs
    case isFalse hlocked =>
      have hlocked : s.locked = false := by simpa using hlocked
      have hfit := hs.ordered.fit t tun ht
      have hreg : tun.registered = true := by
        cases h : tun.registered with
        | true => rfl
        | false => simpa [hclosing] using hfit.closing.mp h
      have hfit' : Fit (.posting t) t { tun with registered := false } := { hfit with
        gone := fun h => ⟨rfl, (hfit.gone h).2⟩
        whole := fun _ => hfit.whole (.inl hreg)
        closing := by simp }
      have hpinned : Pinned (Function.update s.tunnels t (some { tun with registered := false })) := by
        intro u v target own hv hp
        by_cases heq : u = t
        · subst heq
          obtain rfl : { tun with registered := false } = v := by simpa using hv
          exact absurd hp (not_pinned_of_not_locked hs hlocked u tun target own ht)
        · rw [update_of_ne heq] at hv
          exact absurd hp (not_pinned_of_not_locked hs hlocked u v target own hv)
      refine ⟨?_, hs.ordered.change ht (fun _ h => Option.some.inj h ▸ hfit') (fun u hu => ?_) hpinned fun _ => rfl, hs.intact⟩
      · exact hs.ledger.update (hs.ordered.lt ht) fun r => by simp only [ht, weight_some, Handoff.setTunnel]
      · simp [hclosing, Ne.symm hu]

theorem Sound.postTeardown (hs : s.Sound) : (s.step .postTeardown).Sound := by
  simp only [Handoff.step]
  split
  case h_2 => exact hs
  case h_1 t hclosing =>
    obtain ⟨tun, ht⟩ := Option.isSome_iff_exists.mp (hs.ordered.closing t (.inl hclosing))
    rw [ht]
    dsimp only [Handoff.post]
    split
    case isFalse => exact hs
    case isTrue =>
      have hfit := hs.ordered.fit t tun ht
      obtain ⟨htear, hses⟩ := hfit.whole (.inr hclosing)
      have hreg : tun.registered = false := hfit.closing.mpr (.inl hclosing)
      have hfit' : Fit (.joining t) t { tun with queue := tun.queue ++ [.teardown] } := { hfit with
        gone := fun h => absurd h hses
        orderly := TunnelWork.orderly_append htear _
        whole := fun h => by simp [hreg] at h
        closing := by simp [hreg] }
      rw [if_pos rfl]
      refine ⟨?_, hs.ordered.change ht (fun _ h => Option.some.inj h ▸ hfit') (fun u hu => ?_) ?_ fun _ => rfl, hs.intact⟩
      · exact hs.ledger.update (hs.ordered.lt ht) fun r => by simp [ht, weight_some, TunnelWork.parts, Handoff.setTunnel]
      · simp [hclosing, Ne.symm hu]
      · exact hs.ordered.pinned.update ht rfl fun target own h => hs.ordered.pinned t tun target own ht h

/-- The queue of a tunnel whose thread has ended owns nothing. -/
theorem weight_exited (h : Fit closing t tun) (hexited : tun.exited = true) (r : Resource) :
    weight r (some tun) = 0 := by
  have hses := h.exited hexited
  have hqueue : tun.queue.flatMap TunnelWork.parts = [] :=
    List.flatMap_eq_nil_iff.mpr fun w hw => by rw [(h.gone hses).2.2 w hw]; rfl
  simp [weight_some, hses, hqueue]

theorem Sound.join (hs : s.Sound) : (s.step .join).Sound := by
  simp only [Handoff.step]
  split
  case h_2 => exact hs
  case h_1 t hclosing =>
    obtain ⟨tun, ht⟩ := Option.isSome_iff_exists.mp (hs.ordered.closing t (.inr hclosing))
    rw [ht]
    dsimp only
    split
    case isFalse => exact hs
    case isTrue hexited =>
      have hfit := hs.ordered.fit t tun ht
      have hreg : tun.registered = false := hfit.closing.mpr (.inr hclosing)
      have hpinned : Pinned (Function.update s.tunnels t none) := by
        intro u v target own hv hp
        have hu : u ≠ t := fun h => by simp [h] at hv
        rw [update_of_ne hu] at hv
        obtain ⟨old, hold, hr⟩ := hs.ordered.pinned u v target own hv hp
        have htarget : target ≠ t := by
          rintro rfl
          obtain rfl : tun = old := Option.some.inj (ht.symm.trans hold)
          simp [hreg] at hr
        exact ⟨old, by rwa [update_of_ne htarget], hr⟩
      refine ⟨?_, hs.ordered.change ht (fun _ h => nomatch h) (fun u hu => ?_) hpinned fun h => by simp at h, hs.intact⟩
      · exact hs.ledger.update (hs.ordered.lt ht) fun r => by rw [ht, weight_exited hfit hexited]; simp [weight]
      · simp [hclosing, Ne.symm hu]

/-- Whatever a thread does next keeps every resource with one owner. -/
theorem Sound.step (hs : s.Sound) (a : Act) : (s.step a).Sound := by
  cases a with
  | accept tls outcome => exact hs.accept tls outcome
  | start t fails => exact hs.start t fails
  | suspend t oom => exact hs.suspend t oom
  | shutdown t => exact hs.shutdown t
  | closeWait t => exact hs.closeWait t
  | reset t => exact hs.reset t
  | unpin t => exact hs.unpin t
  | postOther t => exact hs.postOther t
  | exit t => exact hs.exit t
  | unregister t => exact hs.unregister t
  | postTeardown => exact hs.postTeardown
  | join => exact hs.join
  | hello t claims verified sessionId seen =>
    simp only [Handoff.step]
    split
    case h_2 => exact hs
    case h_1 tun ht =>
      split
      case h_2 => exact hs
      case h_1 c hnone hc =>
        split
        case isTrue hstate => exact hs.hello ht hc hnone hstate claims verified sessionId seen
        case isFalse => exact hs
  | handoff t identityOk oom =>
    simp only [Handoff.step]
    split
    case h_2 => exact hs
    case h_1 tun ht =>
      split
      case h_2 => exact hs
      case h_1 target own c hresume hc => exact hs.handoff ht hc hresume identityOk oom
  | finish t admitted helloFails react =>
    simp only [Handoff.step]
    split
    case h_2 => exact hs
    case h_1 tun ht =>
      split
      case h_2 => exact hs
      case h_1 handled own c hresume hc => exact hs.finish ht hc hresume admitted helloFails react
  | runTask t inp =>
    simp only [Handoff.step]
    split
    case h_2 => exact hs
    case h_1 tun ht =>
      split
      case isTrue hnone => exact hs.runTask ht hnone inp
      case isFalse => exact hs

theorem new_sound (capacity : Nat) : (new capacity).Sound := by
  refine ⟨⟨fun r => ?_, List.nodup_nil, fun n _ => by simp [new]⟩, ⟨fun _ _ => rfl, fun t tun h => by simp [new] at h,
    fun t tun _ _ h => by simp [new] at h, fun t h => by simp [new] at h⟩, rfl⟩
  simp [new, census]

theorem run_sound (capacity : Nat) (acts : List Act) : (run capacity acts).Sound :=
  List.foldlRecOn acts Handoff.step (new_sound capacity) fun _ hs a _ => hs.step a

/-- How many sessions and queued attach tasks own the resource. -/
def owners (s : Handoff) (r : Resource) : Nat := census (weight r) s.nextTunnel s.tunnels

/-- In every run a descriptor, TLS connection or claimed identity is owned by exactly one session or attach
task until it is closed, which happens once, at the latest when the tunnels are gone. Nothing runs on a
session or tunnel that has been freed. A session whose hand-off was not queued continues on the transport it
had as a fresh session. -/
theorem one_owner (capacity : Nat) (acts : List Act) :
    (∀ r ∈ (run capacity acts).created,
      (run capacity acts).owners r + (run capacity acts).closed.count r = 1)
    ∧ (∀ r, r ∉ (run capacity acts).created →
      (run capacity acts).owners r = 0 ∧ r ∉ (run capacity acts).closed)
    ∧ ((∀ t, (run capacity acts).tunnels t = none) →
      ∀ r ∈ (run capacity acts).created, (run capacity acts).closed.count r = 1)
    ∧ (run capacity acts).crashed = false
    ∧ ∀ t tun own, (run capacity acts).tunnels t = some tun → tun.resume = .decided false own →
      own.fd.isSome ∧ tun.session = some ⟨.handshake, own⟩
      ∧ ((run capacity acts).step (.finish t true false .stay)).tunnels t
        = some { tun with session := some ⟨.established, own⟩, resume := .none } := by
  have hs := run_sound capacity acts
  generalize run capacity acts = s at hs
  have honce : ∀ r ∈ s.created, s.owners r + s.closed.count r = 1 := fun r hr => by
    rw [owners, hs.ledger.balance r]
    exact List.count_eq_one_of_mem hs.ledger.nodup hr
  refine ⟨honce, fun r hr => ?_, fun hgone r hr => ?_, hs.intact, fun t tun own ht hresume => ?_⟩
  · have hbal := hs.ledger.balance r
    rw [List.count_eq_zero_of_not_mem hr] at hbal
    exact ⟨by rw [owners]; omega, List.count_eq_zero.mp (by omega)⟩
  · have h := honce r hr
    rwa [owners, census_eq_zero (fun t => by rw [hgone t]; rfl), Nat.zero_add] at h
  · have hleft := (hs.ordered.fit t tun ht).resume
    rw [hresume] at hleft
    obtain ⟨hfd, hses⟩ := hleft
    have hses : tun.session = some ⟨.handshake, own⟩ := by simpa using hses
    refine ⟨hfd, hses, ?_⟩
    simp [step, ht, hresume, hses, finish, settle, setTunnel, Custodian.handshakeDone]

/-- A session that lost its transport is resumed on a second one. -/
example :
    let s := run 1 [.accept true .ok, .start 0 false, .hello 0 false true none .init, .finish 0 true false .stay,
      .suspend 0 false, .accept true .ok, .start 1 false, .hello 1 true true (some 0) .suspended,
      .handoff 1 true false, .unpin 1, .runTask 0 ⟨false, false, false, false, .stay⟩, .finish 1 true false .stay]
    (s.tunnels 0).bind (·.session) = some ⟨.established, ⟨some 1, some 1, some 2⟩⟩ ∧ s.closed = [.fd 0, .tlsconn 0] := by
  decide

end Handoff

end Multiplexd
