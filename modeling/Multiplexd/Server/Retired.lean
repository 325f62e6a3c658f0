import Multiplexd.Server.Slots

/-!
# Retired tunnels do not dial

A reload that takes the target of a tunnel out of the configuration turns the tunnel's reconnecting off.
With threads the task that does so waits in the tunnel's queue behind tasks posted earlier; until it runs
the tunnel may dial, but only to addresses it had been given before. Nothing turns reconnecting on again,
so later reloads, which may put a new target into the slot while the tunnel drains, cannot revive it.
-/

namespace Multiplexd

open Function (update_of_ne update_self)

def Tunnel.Leaving (addrs : List (Option String)) (tun : Tunnel) : Prop :=
  ∃ pre opts post, tun.queue = pre ++ .reload opts :: post ∧ opts.disableReconnect = true ∧
    tun.connectAddr ∈ addrs ∧
    (∀ o, TunnelTask.reload o ∈ pre → o.updateConnectAddr = true → o.connectAddr ∈ addrs) ∧
    TunnelTask.connect ∉ post

namespace Tunnel

variable {tun : Tunnel} {addrs : List (Option String)} {opts : ReloadOpts}

@[simp] theorem reload_queue (tun : Tunnel) (opts : ReloadOpts) : (tun.reload opts).queue = tun.queue := by
  unfold reload
  dsimp only
  split <;> split <;> rfl

theorem reload_shuttingDown (h : tun.shuttingDown = true ∨ opts.disableReconnect = true) :
    (tun.reload opts).shuttingDown = true := by
  unfold reload
  dsimp only
  rcases h with h | h
  · split <;> split <;> simp [h]
  · rw [if_pos h]

theorem reload_connectAddr (tun : Tunnel) (opts : ReloadOpts) :
    (tun.reload opts).connectAddr = if opts.updateConnectAddr then opts.connectAddr else tun.connectAddr := by
  unfold reload
  dsimp only
  split <;> split <;> rfl

theorem Leaving.append (h : tun.Leaving addrs) (opts : ReloadOpts) :
    Leaving addrs { tun with queue := tun.queue ++ [.reload opts] } := by
  obtain ⟨pre, o, post, hqueue, hoff, haddr, hpre, hpost⟩ := h
  exact ⟨pre, o, post ++ [.reload opts], by simp [hqueue], hoff, haddr, hpre, by simpa using hpost⟩

theorem Leaving.pending (h : tun.Leaving addrs) : tun.queue.any TunnelTask.disables = true := by
  obtain ⟨pre, o, post, hqueue, hoff, -⟩ := h
  rw [hqueue]
  simp [TunnelTask.disables, hoff]

end Tunnel

namespace Server

variable {s s' s'' : Server} {t u : TunnelId} {n : Nat} {addrs : List (Option String)}

/-! ### Told or about to be told -/

/-- From `n` dials on, `t` has dialed only while the task that retires it was waiting. -/
structure Retiring (n : Nat) (addrs : List (Option String)) (t : TunnelId) (s : Server) : Prop where
  known : t < s.nextTunnel
  tunnel : ∀ tun, s.tunnels t = some tun →
    tun.shuttingDown = true ∧ TunnelTask.connect ∉ tun.queue ∨ s.threads = true ∧ tun.Leaving addrs
  length : n ≤ s.dials.length
  dials : ∀ d ∈ s.dials.drop n, d.tunnel = t → s.threads = true ∧ d.addr ∈ addrs

/-- An operation that neither dials nor speaks to `t`. -/
theorem Retiring.apart (h : Retiring n addrs t s) (hthreads : s'.threads = s.threads)
    (hnext : s.nextTunnel ≤ s'.nextTunnel) (htunnel : s'.tunnels t = s.tunnels t ∨ s'.tunnels t = none)
    (hdials : s'.dials = s.dials) : Retiring n addrs t s' := by
  refine ⟨Nat.lt_of_lt_of_le h.known hnext, fun tun htun => ?_, hdials ▸ h.length, ?_⟩
  · rcases htunnel with heq | hnone
    · rw [hthreads]
      exact h.tunnel tun (heq ▸ htun)
    · rw [hnone] at htun
      contradiction
  · rw [hdials, hthreads]
    exact h.dials

variable {tun : Tunnel} {old new : DialConf}

section

variable (h : Retiring n addrs t s)
include h

theorem Retiring.doConnect
    (hdial : u = t → s.threads = true ∧ tun.connectAddr ∈ addrs) :
    Retiring n addrs t (s.doConnect u tun) := by
  refine ⟨h.known, h.tunnel, ?_, fun d hd ht => ?_⟩
  · simp only [Server.doConnect, List.length_append]
    exact Nat.le_add_right_of_le h.length
  · simp only [Server.doConnect, List.drop_append_of_le_length h.length, List.mem_append, List.mem_singleton] at hd
    rcases hd with hd | rfl
    · exact h.dials d hd ht
    · exact hdial ht

theorem Retiring.setTunnel
    (htun : u = t → tun.shuttingDown = true ∧ TunnelTask.connect ∉ tun.queue ∨
      s.threads = true ∧ tun.Leaving addrs) : Retiring n addrs t (s.setTunnel u (some tun)) := by
  refine { h with tunnel := fun tun' htun' => ?_ }
  unfold Server.setTunnel at htun'
  by_cases hut : u = t
  · subst hut
    simp only [update_self, Option.some.injEq] at htun'
    exact htun' ▸ htun rfl
  · simp only [update_of_ne (Ne.symm hut)] at htun'
    exact h.tunnel tun' htun'

theorem Retiring.post (u : TunnelId) (opts : ReloadOpts) :
    Retiring n addrs t (s.post u (.reload opts)) := by
  unfold Server.post
  cases htun : s.tunnels u with
  | none => exact h
  | some tun =>
    dsimp only
    split
    next hthreads =>
      refine h.setTunnel fun hut => ?_
      subst hut
      rcases h.tunnel tun htun with ⟨hdown, hconnect⟩ | ⟨-, hleaving⟩
      · exact .inl ⟨hdown, by simpa using hconnect⟩
      · exact .inr ⟨hthreads, hleaving.append opts⟩
    next hthreads =>
      refine h.setTunnel fun hut => ?_
      subst hut
      rcases h.tunnel tun htun with ⟨hdown, hconnect⟩ | ⟨hno, -⟩
      · exact .inl ⟨Tunnel.reload_shuttingDown (.inl hdown), by rwa [Tunnel.reload_queue]⟩
      · exact absurd hno hthreads

theorem Retiring.runNext (u : TunnelId) : Retiring n addrs t (s.runNext u) := by
  unfold Server.runNext
  cases htun : s.tunnels u with
  | none => exact h
  | some tun =>
    dsimp only
    split
    · exact h
    next task queue hqueue =>
      by_cases hut : u = t
      · subst hut
        rcases h.tunnel tun htun with ⟨hdown, hconnect⟩ | ⟨hthreads, pre, opts, post, hpost, hoff, haddr, hpre, hclean⟩
        · rw [hqueue, List.mem_cons, not_or] at hconnect
          cases task with
          | connect => exact absurd rfl hconnect.1
          | reload o =>
            exact h.setTunnel fun _ => .inl ⟨Tunnel.reload_shuttingDown (.inl hdown), by
              rw [Tunnel.reload_queue]
              exact hconnect.2⟩
        · rw [hqueue] at hpost
          cases pre with
          | nil =>
            -- the task that retires the tunnel runs
            simp only [List.nil_append, List.cons.injEq] at hpost
            obtain ⟨rfl, rfl⟩ := hpost
            exact h.setTunnel fun _ => .inl ⟨Tunnel.reload_shuttingDown (.inr hoff), by
              rw [Tunnel.reload_queue]
              exact hclean⟩
          | cons first pre =>
            simp only [List.cons_append, List.cons.injEq] at hpost
            obtain ⟨rfl, rfl⟩ := hpost
            cases task with
            | connect =>
              have hleaving : Tunnel.Leaving addrs { tun with queue := pre ++ .reload opts :: post } :=
                ⟨pre, opts, post, rfl, hoff, haddr, fun o ho => hpre o (by simp [ho]), hclean⟩
              exact (h.setTunnel fun _ => .inr ⟨hthreads, hleaving⟩).doConnect fun _ => ⟨hthreads, haddr⟩
            | reload o =>
              refine h.setTunnel fun _ => .inr ⟨hthreads, pre, opts, post, by rw [Tunnel.reload_queue], hoff, ?_,
                fun o' ho' => hpre o' (by simp [ho']), hclean⟩
              rw [Tunnel.reload_connectAddr]
              split
              next hupdate => exact hpre o (by simp) hupdate
              next => exact haddr
      · cases task with
        | connect => exact (h.setTunnel fun heq => absurd heq hut).doConnect fun heq => absurd heq hut
        | reload o => exact h.setTunnel fun heq => absurd heq hut

theorem Retiring.redial (u : TunnelId) : Retiring n addrs t (s.redial u) := by
  unfold Server.redial
  cases htun : s.tunnels u with
  | none => exact h
  | some tun =>
    dsimp only
    split
    · exact h
    next hoff =>
      refine h.doConnect fun hut => ?_
      subst hut
      simp only [Tunnel.reconnectOff, Bool.or_eq_true, not_or] at hoff
      rcases h.tunnel tun htun with ⟨hdown, -⟩ | ⟨hthreads, _, _, _, -, -, haddr, -⟩
      · exact absurd hdown hoff.2
      · exact ⟨hthreads, haddr⟩

theorem Retiring.removeAndClose (u : TunnelId) :
    Retiring n addrs t (s.removeAndClose u) := by
  refine h.apart rfl (Nat.le_refl _) ?_ rfl
  by_cases hut : t = u
  · subst hut
    exact .inr (update_self ..)
  · exact .inl (update_of_ne hut ..)

/-- A new tunnel is another tunnel. -/
theorem Retiring.startTunnel (addr : String) :
    Retiring n addrs t (s.startTunnel addr).2 := by
  have hne : t ≠ s.nextTunnel := Nat.ne_of_lt h.known
  unfold Server.startTunnel
  dsimp only
  split
  · exact h.apart rfl (Nat.le_refl _) (.inl rfl) rfl
  · exact h.apart rfl (Nat.le_succ _) (.inl rfl) rfl
  · generalize hs : Server.setTunnel { s with starts := s.starts.tail, nextTunnel := s.nextTunnel + 1 } s.nextTunnel
      (some ⟨some addr, false, []⟩) = s'
    have hnew : Retiring n addrs t s' := by
      rw [← hs]
      exact h.apart rfl (Nat.le_succ _) (.inl (update_of_ne hne ..)) rfl
    unfold Server.post
    cases htun : s'.tunnels s.nextTunnel with
    | none => exact hnew
    | some tun =>
      dsimp only
      split
      · exact hnew.setTunnel fun heq => absurd heq.symm hne
      · exact (hnew.setTunnel fun heq => absurd heq.symm hne).doConnect fun heq => absurd heq.symm hne

end

structure Awaits (t : TunnelId) (s s' : Server) : Prop where
  conf : s'.conf = s.conf
  threads : s'.threads = s.threads
  next : s'.nextTunnel = s.nextTunnel
  dials : s'.dials = s.dials
  tunnel : s'.tunnels t = none ∨ s'.tunnels t = s.tunnels t ∧ (s.muxTunnel = some t → s'.muxTunnel = some t) ∧
    ∀ i : Nat, s.identityTunnels[i]? = some (some t) → s'.identityTunnels[i]? = some (some t)

theorem Awaits.refl (t : TunnelId) (s : Server) : Awaits t s s :=
  ⟨rfl, rfl, rfl, rfl, .inr ⟨rfl, id, fun _ => id⟩⟩

theorem Awaits.trans (h : Awaits t s s') (h' : Awaits t s' s'') : Awaits t s s'' := by
  refine ⟨h'.conf.trans h.conf, h'.threads.trans h.threads, h'.next.trans h.next, h'.dials.trans h.dials, ?_⟩
  rcases h'.tunnel with hnone | ⟨heq', hmux', hslots'⟩
  · exact .inl hnone
  · rcases h.tunnel with hnone | ⟨heq, hmux, hslots⟩
    · exact .inl (heq'.trans hnone)
    · exact .inr ⟨heq'.trans heq, hmux' ∘ hmux, fun i hi => hslots' i (hslots i hi)⟩

end Server

end Multiplexd
