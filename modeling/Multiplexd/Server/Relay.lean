import Multiplexd.Lib.Links
import Multiplexd.Lib.Run

/-!
# Events on their way to the owner

A tunnel hands the events of its session to the owner's loop by posting tasks to a ring that the owner
shares with all tunnels and that may be full. An event that the ring refuses waits on the tunnel's
backlog, a list linked through the events themselves, which a timer posts again, oldest first.

The owner's loop takes the tasks off the ring and frees them, so the memory of an event that has been
posted may come back from the allocator at any time after that.
-/

namespace Multiplexd

open Function (update update_of_ne)

/-- `enum mux_event`. -/
inductive MuxEventKind where
  | connect
  | connectFailed
  | established
  | lost
  | suspended
  | resumed
  | streamEstablished
  | closed
deriving Repr, DecidableEq

abbrev EventAddr := Nat

/-- The callbacks of the owner that are set. -/
structure RelayCallbacks where
  onEstablished : Bool
  onResumed : Bool
  onEvent : Bool
deriving Repr, DecidableEq

/-- The relay of a tunnel. `events` holds the event at every address that is allocated, `next` the links,
`ring` the tasks of this tunnel on the owner's ring. The last three fields are history: the events that the
owner wanted when they were emitted, those the ring has accepted, and those handed to the owner. -/
structure Relay (δ : Type*) where
  cb : RelayCallbacks
  disconnected : Bool
  events : EventAddr → Option (MuxEventKind × δ)
  next : EventAddr → Option EventAddr
  backlog : Ends EventAddr
  retryArmed : Bool
  ring : List EventAddr
  wanted : List (MuxEventKind × δ)
  accepted : List (MuxEventKind × δ)
  invoked : List (MuxEventKind × δ)

/-- What happens to a relay. -/
inductive RelayEvent (δ : Type*) where
  /-- The session emits an event; `mem` is what `malloc` returns, `accepts` what the ring answers. -/
  | emit (event : MuxEventKind) (data : δ) (mem : Option EventAddr) (accepts : Bool)
  /-- `w_relay_retry` fires; the ring answers one post after the other, and refuses from then on. -/
  | retry (accepts : List Bool)
  /-- The owner's loop runs the first task of this tunnel. -/
  | dispatch
  /-- `tunnel_close_final` -/
  | disconnect

namespace Relay

variable {δ : Type*} (t : Relay δ)

/-- A tunnel as it is created. -/
def new (cb : RelayCallbacks) : Relay δ where
  cb := cb
  disconnected := false
  events := fun _ => none
  next := fun _ => none
  backlog := Ends.empty
  retryArmed := false
  ring := []
  wanted := []
  accepted := []
  invoked := []

def relayWanted (cb : RelayCallbacks) : MuxEventKind → Bool
  | .established => cb.onEstablished
  | .resumed => cb.onResumed
  | _ => cb.onEvent

/-- `relay_try_post`, when the ring has room: the ring owns the event from now on. -/
def post (ev : EventAddr) : Relay δ :=
  { t with ring := t.ring ++ [ev], accepted := t.accepted ++ (t.events ev).toList }

def delay (ev : EventAddr) : Relay δ :=
  { t with
    next := if t.backlog.head = none then t.next else
      match t.backlog.tail with
      | some tail => update t.next tail (some ev)
      | none => t.next
    backlog := ⟨if t.backlog.head = none then some ev else t.backlog.head, some ev⟩
    retryArmed := true }

def relayEvent (event : MuxEventKind) (data : δ) (mem : Option EventAddr) (accepts : Bool) : Relay δ :=
  if !relayWanted t.cb event then t
  else
    let t := { t with wanted := t.wanted ++ [(event, data)] }
    if t.disconnected then t
    else
      match mem with
      | none => t
      | some ev =>
        let t := { t with
          events := update t.events ev (some (event, data))
          next := update t.next ev none }
        if t.backlog.head = none ∧ accepts = true then t.post ev else t.delay ev

/-- `relay_backlog_free` from `ev` on; `fuel` bounds the turns. -/
def freeFrom : Nat → Option EventAddr → Relay δ → Relay δ
  | fuel + 1, some ev, t => freeFrom fuel (t.next ev) { t with events := update t.events ev none }
  | _, _, t => t

def backlogFree : Relay δ :=
  freeFrom t.wanted.length t.backlog.head { t with backlog := Ends.empty }

/-- The loop of `relay_retry_cb`. -/
def repost : List Bool → Relay δ → Relay δ
  | accepts, t =>
    match t.backlog.head, accepts with
    | none, _ => { t with backlog := ⟨none, none⟩, retryArmed := false }
    | some ev, true :: accepts => repost accepts { t.post ev with backlog := ⟨t.next ev, t.backlog.tail⟩ }
    | some _, _ => t

def retryCb (accepts : List Bool) : Relay δ :=
  if t.disconnected then { t.backlogFree with retryArmed := false } else t.repost accepts

/-- `relay_dispatch`, for the first task on the ring. -/
def dispatch : Relay δ :=
  match t.ring with
  | [] => t
  | ev :: ring =>
    { t with
      ring := ring
      events := update t.events ev none
      invoked := if t.disconnected then t.invoked else t.invoked ++ (t.events ev).toList }

def step : RelayEvent δ → Relay δ
  | .emit event data mem accepts => t.relayEvent event data mem accepts
  | .retry accepts => if t.retryArmed then t.retryCb accepts else t
  | .dispatch => t.dispatch
  | .disconnect => { t with disconnected := true }

/-- `malloc` gives memory that nobody else holds. -/
def Allocates : RelayEvent δ → Prop
  | .emit _ _ mem _ => ∃ ev, mem = some ev ∧ t.events ev = none
  | _ => True

/-- A step of a connected relay that has memory. -/
def Connected (e : RelayEvent δ) : Prop :=
  t.Allocates e ∧ (match e with | .disconnect => False | _ => True)

/-! ### The order of the events -/

/-- The backlog lies at `xs` and holds `rest`, the ring holds `pending`: between them and what has been
handed over, every wanted event is in its place. -/
structure Ordered (t : Relay δ) (xs : List EventAddr) (rest pending : List (MuxEventKind × δ)) : Prop where
  connected : t.disconnected = false
  nodup : xs.Nodup
  apart : ∀ ev ∈ xs, ev ∉ t.ring
  ringNodup : t.ring.Nodup
  head : t.backlog.head = xs.head?
  tail : xs ≠ [] → t.backlog.tail = xs.getLast?
  linked : Linked t.next xs
  held : xs.map t.events = rest.map some
  posted : t.ring.map t.events = pending.map some
  wanted : t.wanted = t.accepted ++ rest
  accepted : t.accepted = t.invoked ++ pending

variable {t : Relay δ} {xs : List EventAddr} {rest pending : List (MuxEventKind × δ)} {ev : EventAddr}

theorem new_ordered (cb : RelayCallbacks) : (new cb : Relay δ).Ordered [] [] [] :=
  ⟨rfl, .nil, nofun, .nil, rfl, nofun, trivial, rfl, rfl, rfl, rfl⟩

theorem map_update_of_notMem {α β : Type*} [DecidableEq α] (f : α → β) {a : α} {l : List α} (h : a ∉ l) (b : β) :
    l.map (update f a b) = l.map f :=
  List.map_congr_left fun c hc => update_of_ne (fun heq : c = a => h (heq ▸ hc)) ..

theorem notMem_of_fresh {l : List EventAddr} {es : List (MuxEventKind × δ)} (h : l.map t.events = es.map some)
    (hfresh : t.events ev = none) : ev ∉ l := by
  intro hmem
  have hsome : t.events ev ∈ es.map some := h ▸ List.mem_map_of_mem hmem
  rw [hfresh] at hsome
  simp at hsome

theorem Ordered.created (h : t.Ordered xs rest pending) (hfresh : t.events ev = none) (e : MuxEventKind × δ) :
    Ordered { t with
      events := update t.events ev (some e), next := update t.next ev none } xs rest pending :=
  { h with
    linked := h.linked.update_of_notMem (notMem_of_fresh h.held hfresh) none
    held := (map_update_of_notMem _ (notMem_of_fresh h.held hfresh) _).trans h.held
    posted := (map_update_of_notMem _ (notMem_of_fresh h.posted hfresh) _).trans h.posted }

/-- The head of the backlog is posted. -/
theorem Ordered.post (h : t.Ordered (ev :: xs) rest pending) : ∃ e rest', rest = e :: rest' ∧
      Ordered { t.post ev with backlog := ⟨t.next ev, t.backlog.tail⟩ } xs rest' (pending ++ [e]) := by
  have hheld := h.held
  cases rest with
  | nil => simp at hheld
  | cons e rest =>
    rw [List.map_cons, List.map_cons, List.cons.injEq] at hheld
    have hnodup := List.nodup_cons.mp h.nodup
    have happart := h.apart ev List.mem_cons_self
    refine ⟨e, rest, rfl, h.connected, hnodup.2, fun b hb hring => ?_, ?_, h.linked.1, fun hne => ?_, h.linked.2,
      hheld.2, ?_, ?_, ?_⟩
    · rcases List.mem_append.mp hring with hring | hring
      · exact h.apart b (List.mem_cons_of_mem ev hb) hring
      · exact hnodup.1 (List.mem_singleton.mp hring ▸ hb)
    · refine List.nodup_append.mpr ⟨h.ringNodup, List.nodup_singleton ev, fun b hb c hc heq => happart ?_⟩
      rw [List.mem_singleton.mp hc] at heq
      exact heq ▸ hb
    · have htail := h.tail (by simp)
      rw [List.getLast?_cons] at htail
      cases hlast : xs.getLast? with
      | none => exact absurd (List.getLast?_eq_none_iff.mp hlast) hne
      | some b => simpa [hlast] using htail
    · simp [Relay.post, h.posted, hheld.1]
    · simp [Relay.post, h.wanted, hheld.1]
    · simp [Relay.post, h.accepted, hheld.1]

theorem Ordered.repost (h : t.Ordered xs rest pending) (harmed : xs ≠ [] → t.retryArmed = true) (accepts : List Bool) :
    ∃ xs' rest' pending', (t.repost accepts).Ordered xs' rest' pending' ∧
      (xs' ≠ [] → (t.repost accepts).retryArmed = true) := by
  induction accepts generalizing t xs rest pending with
  | nil =>
    unfold Relay.repost
    cases xs with
    | nil =>
      rw [show t.backlog.head = none from h.head]
      exact ⟨[], rest, pending, { h with head := rfl, tail := nofun }, nofun⟩
    | cons ev xs =>
      rw [show t.backlog.head = some ev from h.head]
      exact ⟨ev :: xs, rest, pending, h, harmed⟩
  | cons ok accepts ih =>
    unfold Relay.repost
    cases xs with
    | nil =>
      rw [show t.backlog.head = none from h.head]
      exact ⟨[], rest, pending, { h with head := rfl, tail := nofun }, nofun⟩
    | cons ev xs =>
      rw [show t.backlog.head = some ev from h.head]
      cases ok with
      | false => exact ⟨ev :: xs, rest, pending, h, harmed⟩
      | true =>
        obtain ⟨e, rest', -, hposted⟩ := h.post
        exact ih hposted fun _ => harmed (by simp)

/-- An event joins the backlog. -/
theorem Ordered.delay (h : t.Ordered xs rest pending) (hfresh : t.events ev = none) (e : MuxEventKind × δ) :
    Ordered (Relay.delay { t with
      wanted := t.wanted ++ [e]
      events := update t.events ev (some e)
      next := update t.next ev none } ev) (xs ++ [ev]) (rest ++ [e]) pending := by
  have hnew := h.created hfresh e
  have hxs := notMem_of_fresh h.held hfresh
  have hring := notMem_of_fresh h.posted hfresh
  have hspans : Ends.Spans t.next ⟨xs.head?, xs.getLast?⟩ xs := ⟨h.nodup, rfl, rfl, h.linked⟩
  have hpush := hspans.push hxs
  refine ⟨h.connected, hpush.nodup, fun b hb => ?_, h.ringNodup, ?_, fun _ => ?_, ?_, ?_, hnew.posted, ?_, h.accepted⟩
  · rcases List.mem_append.mp hb with hb | hb
    · exact h.apart b hb
    · exact List.mem_singleton.mp hb ▸ hring
  · cases xs with
    | nil => simp [Relay.delay, h.head]
    | cons b xs => simp [Relay.delay, h.head]
  · simp [Relay.delay]
  · have hlinked := hpush.linked
    cases xs with
    | nil => simpa [Relay.delay, Ends.pushNext, h.head] using hlinked
    | cons b xs =>
      obtain ⟨last, hlast⟩ : ∃ last, (b :: xs).getLast? = some last := Option.isSome_iff_exists.mp (by simp)
      have htail : t.backlog.tail = some last := (h.tail (by simp)).trans hlast
      simpa [Relay.delay, Ends.pushNext, h.head, htail, hlast] using hlinked
  · have hheld : xs.map (update t.events ev (some e)) = rest.map some := hnew.held
    simp [Relay.delay, hheld]
  · simp [Relay.delay, h.wanted]

theorem Ordered.postDirect (h : t.Ordered [] rest pending) (hfresh : t.events ev = none) (e : MuxEventKind × δ) :
    Ordered (Relay.post { t with
      wanted := t.wanted ++ [e]
      events := update t.events ev (some e)
      next := update t.next ev none } ev) [] rest (pending ++ [e]) := by
  have hnew := h.created hfresh e
  have hring := notMem_of_fresh h.posted hfresh
  have hrest : rest = [] := by simpa using h.held
  have hposted : t.ring.map (update t.events ev (some e)) = pending.map some := hnew.posted
  refine ⟨h.connected, .nil, nofun, ?_, h.head, nofun, trivial, h.held, ?_, ?_, ?_⟩
  · refine List.nodup_append.mpr ⟨h.ringNodup, List.nodup_singleton ev, fun b hb c hc heq => hring ?_⟩
    rw [List.mem_singleton.mp hc] at heq
    exact heq ▸ hb
  · simp [Relay.post, hposted]
  · simp [Relay.post, h.wanted, hrest]
  · simp [Relay.post, h.accepted]

theorem Ordered.dispatch (h : t.Ordered xs rest pending) : ∃ pending', t.dispatch.Ordered xs rest pending' := by
  have hposted := h.posted
  unfold Relay.dispatch
  split
  · exact ⟨pending, h⟩
  next ev ring hring =>
    rw [hring] at hposted
    cases pending with
    | nil => simp at hposted
    | cons e pending =>
      rw [List.map_cons, List.map_cons, List.cons.injEq] at hposted
      have hnodup := List.nodup_cons.mp (hring ▸ h.ringNodup)
      have hxs : ev ∉ xs := fun hmem => h.apart ev hmem (by simp [hring])
      refine ⟨pending, h.connected, h.nodup, fun b hb hmem => h.apart b hb (by simp [hring, hmem]), hnodup.2, h.head,
        h.tail, h.linked, (map_update_of_notMem _ hxs _).trans h.held,
        (map_update_of_notMem _ hnodup.1 _).trans hposted.2, h.wanted, ?_⟩
      simp [h.connected, h.accepted, hposted.1]

/-- Every wanted event has been accepted or waits in its turn, and the timer is armed while one waits. -/
def InOrder (t : Relay δ) : Prop := ∃ xs rest pending, t.Ordered xs rest pending ∧ (xs ≠ [] → t.retryArmed = true)

theorem step_inOrder (t : Relay δ) (e : RelayEvent δ) (h : t.InOrder) (he : t.Connected e) : (t.step e).InOrder := by
  obtain ⟨xs, rest, pending, hordered, harmed⟩ := h
  cases e with
  | emit event data mem accepts =>
    obtain ⟨⟨ev, rfl, hfresh⟩, -⟩ := he
    rw [step, relayEvent]
    split
    · exact ⟨xs, rest, pending, hordered, harmed⟩
    dsimp only
    split
    next hdisconnected => exact absurd (hordered.connected.symm.trans hdisconnected) nofun
    split
    next hdirect =>
      obtain rfl : xs = [] := by simpa [hordered.head] using hdirect.1
      exact ⟨[], rest, _, hordered.postDirect hfresh (event, data), nofun⟩
    · exact ⟨_, _, pending, hordered.delay hfresh (event, data), fun _ => rfl⟩
  | retry accepts =>
    rw [step]
    split
    · rw [retryCb, hordered.connected]
      exact hordered.repost harmed accepts
    · exact ⟨xs, rest, pending, hordered, harmed⟩
  | dispatch =>
    obtain ⟨pending', hdispatched⟩ := hordered.dispatch
    refine ⟨xs, rest, pending', hdispatched, fun hne => ?_⟩
    have hsame : t.dispatch.retryArmed = t.retryArmed := by
      unfold Relay.dispatch
      split <;> rfl
    exact hsame.trans (harmed hne)
  | disconnect => exact absurd he.2 id

/-! ### What is wanted -/

/-- The event that is emitted, where the owner has a callback for it. -/
def asked (cb : RelayCallbacks) : RelayEvent δ → Option (MuxEventKind × δ)
  | .emit event data _ _ => if relayWanted cb event then some (event, data) else none
  | _ => none

theorem freeFrom_asks (fuel : Nat) (at? : Option EventAddr) (t : Relay δ) :
    (freeFrom fuel at? t).wanted = t.wanted ∧ (freeFrom fuel at? t).cb = t.cb := by
  induction fuel generalizing at? t with
  | zero => exact ⟨rfl, rfl⟩
  | succ fuel ih =>
    cases at? with
    | none => exact ⟨rfl, rfl⟩
    | some ev => exact ih (t.next ev) { t with events := update t.events ev none }

theorem repost_asks (accepts : List Bool) (t : Relay δ) :
    (t.repost accepts).wanted = t.wanted ∧ (t.repost accepts).cb = t.cb := by
  induction accepts generalizing t with
  | nil =>
    unfold Relay.repost
    cases t.backlog.head <;> exact ⟨rfl, rfl⟩
  | cons ok accepts ih =>
    unfold Relay.repost
    cases hhead : t.backlog.head with
    | none => exact ⟨rfl, rfl⟩
    | some ev =>
      cases ok with
      | false => exact ⟨rfl, rfl⟩
      | true => exact ih { t.post ev with backlog := ⟨t.next ev, t.backlog.tail⟩ }

theorem step_asks (t : Relay δ) (e : RelayEvent δ) :
    (t.step e).wanted = t.wanted ++ (asked t.cb e).toList ∧ (t.step e).cb = t.cb := by
  cases e with
  | emit event data mem accepts =>
    simp only [step, relayEvent, asked]
    cases relayWanted t.cb event with
    | false => simp
    | true =>
      simp only [Bool.not_true, Bool.false_eq_true, ↓reduceIte, Option.toList_some]
      split
      · exact ⟨rfl, rfl⟩
      · cases mem with
        | none => exact ⟨rfl, rfl⟩
        | some ev =>
          dsimp only
          split <;> exact ⟨rfl, rfl⟩
  | retry accepts =>
    simp only [step, asked, Option.toList_none, List.append_nil]
    split
    · unfold retryCb
      split
      · exact freeFrom_asks _ _ { t with backlog := Ends.empty }
      · exact repost_asks accepts t
    · exact ⟨rfl, rfl⟩
  | dispatch =>
    simp only [step, asked, Option.toList_none, List.append_nil, Relay.dispatch]
    split <;> exact ⟨rfl, rfl⟩
  | disconnect => simp [step, asked]

theorem run_wanted (t : Relay δ) (es : List (RelayEvent δ)) :
    (runFrom step t es).wanted = t.wanted ++ es.filterMap (asked t.cb) := by
  induction es generalizing t with
  | nil => simp [runFrom]
  | cons e es ih =>
    obtain ⟨hwanted, hcb⟩ := t.step_asks e
    have hrest := ih (t.step e)
    rw [hcb, hwanted] at hrest
    rw [runFrom_cons, hrest, List.append_assoc]
    cases h : asked t.cb e <;> simp [h]

/-- Before the relay is disconnected, and while there is memory, the ring has accepted a first part of the
events that were emitted and wanted, and the backlog holds the others, in order; the owner has been handed a
first part of what the ring accepted; and the timer is armed while the backlog is not empty. -/
theorem relay_in_order (cb : RelayCallbacks) (es : List (RelayEvent δ))
    (hes : Along step Connected (new cb) es) :
    let t := runFrom step (new cb) es
    t.invoked <+: t.accepted ∧
    ∃ xs rest, es.filterMap (asked cb) = t.accepted ++ rest ∧ t.backlog.head = xs.head? ∧ Linked t.next xs ∧
      xs.map t.events = rest.map some ∧ (t.backlog.head ≠ none → t.retryArmed = true) := by
  have hrun : InOrder (runFrom step (new cb) es) :=
    runFrom_invariant InOrder step_inOrder ⟨[], [], [], new_ordered cb, nofun⟩ hes
  obtain ⟨xs, rest, pending, hordered, harmed⟩ := hrun
  have hwanted : _ = es.filterMap (asked cb) := run_wanted (new cb) es
  refine ⟨⟨pending, hordered.accepted.symm⟩, xs, rest, hwanted.symm.trans hordered.wanted, hordered.head,
    hordered.linked, hordered.held, fun hne => harmed ?_⟩
  rintro rfl
  exact hne hordered.head

/-- Three events against a ring that refuses the first post: none overtakes the one that waits. -/
theorem relay_in_order_refused : let es : List (RelayEvent Nat) :=
      [.emit .established 0 (some 7) false, .emit .lost 1 (some 3) true, .retry [true, false], .dispatch,
        .emit .closed 2 (some 7) true]
    let t := runFrom step (new ⟨true, true, true⟩) es
    Along step Connected (new ⟨true, true, true⟩) es ∧ t.accepted = [(.established, 0)] ∧
      ∃ xs rest, [(.established, 0), (.lost, 1), (.closed, 2)] = t.accepted ++ rest ∧ t.backlog.head = xs.head? ∧
        Linked t.next xs ∧ xs.map t.events = rest.map some ∧ (t.backlog.head ≠ none → t.retryArmed = true) := by
  have hes : Along step Connected (new ⟨true, true, true⟩)
      ([.emit .established 0 (some 7) false, .emit .lost 1 (some 3) true, .retry [true, false], .dispatch,
        .emit .closed 2 (some 7) true] : List (RelayEvent Nat)) :=
    ⟨⟨⟨7, rfl, rfl⟩, trivial⟩, ⟨⟨3, rfl, rfl⟩, trivial⟩, ⟨trivial, trivial⟩, ⟨trivial, trivial⟩,
      ⟨⟨7, rfl, rfl⟩, trivial⟩, trivial⟩
  exact ⟨hes, rfl, (relay_in_order ⟨true, true, true⟩ _ hes).2⟩

end Relay

end Multiplexd
