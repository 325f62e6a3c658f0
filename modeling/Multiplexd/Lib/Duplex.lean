import Mathlib.Data.List.Induction
import Mathlib.Data.List.Infix
import Mathlib.Logic.Function.Basic
import Multiplexd.Lib.Run

/-!
# Two parties joined by two FIFO channels

A machine reacts to events of its own and to messages, and hands messages to a channel. Two copies of
one machine, each at one end of a channel in either direction, make a system whose runs interleave the
two parties in any order. Every message that was handed over is delivered once, in order, or is still
under way (`Duplex.Fifo`).

An invariant of the system is found one party at a time: what a party guarantees about the messages it
has handed over is what the other one may assume of those it takes (`Duplex.invariant`).
-/

namespace Multiplexd

open Function (update update_of_ne update_self)

/-- One party: `act` is an event of its own, `take` the arrival of a message, and both hand messages to
the channel. -/
structure Machine (σ ε ι φ : Type*) where
  act : σ → ε → σ × List φ
  take : σ → ι → φ → σ × List φ

/-- The two parties, the messages under way to each, and all those each has handed over and taken. -/
structure Duplex (σ φ : Type*) where
  party : Bool → σ
  queue : Bool → List φ
  sent : Bool → List φ
  taken : Bool → List φ

inductive DuplexEvent (ε ι : Type*) where
  | act (p : Bool) (e : ε)
  | deliver (p : Bool) (i : ι)

variable {σ ε ι φ : Type*}

namespace Duplex

/-- Nothing is under way yet. -/
def new (s : Bool → σ) : Duplex σ φ where
  party := s
  queue := fun _ => []
  sent := fun _ => []
  taken := fun _ => []

def put (d : Duplex σ φ) (p : Bool) (r : σ × List φ) : Duplex σ φ where
  party := update d.party p r.1
  queue := update d.queue (!p) (d.queue (!p) ++ r.2)
  sent := update d.sent p (d.sent p ++ r.2)
  taken := d.taken

def pop (d : Duplex σ φ) (p : Bool) (f : φ) (rest : List φ) : Duplex σ φ :=
  { d with
    queue := update d.queue p rest
    taken := update d.taken p (d.taken p ++ [f]) }

def deliver (M : Machine σ ε ι φ) (d : Duplex σ φ) (p : Bool) (i : ι) : Duplex σ φ :=
  match d.queue p with
  | [] => d
  | f :: rest => (d.pop p f rest).put p (M.take (d.party p) i f)

def step (M : Machine σ ε ι φ) (d : Duplex σ φ) : DuplexEvent ε ι → Duplex σ φ
  | .act p e => d.put p (M.act (d.party p) e)
  | .deliver p i => d.deliver M p i

def run (M : Machine σ ε ι φ) (d : Duplex σ φ) (es : List (DuplexEvent ε ι)) : Duplex σ φ :=
  runFrom (step M) d es

/-- What one party handed over is what the other one took, followed by what is under way. -/
def Fifo (d : Duplex σ φ) : Prop := ∀ p, d.sent (!p) = d.taken p ++ d.queue p

theorem Fifo.new (s : Bool → σ) : Fifo (new s : Duplex σ φ) := fun _ => rfl

variable {d : Duplex σ φ} {M : Machine σ ε ι φ} {inv : Bool → σ → List φ → List φ → Prop} {s : Bool → σ}

theorem Fifo.put (h : Fifo d) (p : Bool) (r : σ × List φ) : Fifo (d.put p r) := by
  intro q
  by_cases hq : q = p
  · subst hq
    have hne : (!q) ≠ q := by simp
    simp only [Duplex.put, update_of_ne hne, update_of_ne hne.symm]
    exact h q
  · have hq' : q = !p := Bool.eq_not.mpr hq
    subst hq'
    simp only [Duplex.put, Bool.not_not, update_self, ← List.append_assoc]
    rw [← h (!p), Bool.not_not]

theorem Fifo.pop (h : Fifo d) {p : Bool} {f : φ} {rest : List φ} (hq : d.queue p = f :: rest) :
    Fifo (d.pop p f rest) := by
  intro q
  by_cases hqp : q = p
  · subst hqp
    simp only [Duplex.pop, update_self, List.append_assoc, List.cons_append, List.nil_append]
    rw [h q, hq]
  · simp only [Duplex.pop, update_of_ne hqp]
    exact h q

theorem Fifo.step (h : Fifo d) (e : DuplexEvent ε ι) : Fifo (d.step M e) := by
  cases e with
  | act p e => exact h.put p _
  | deliver p i =>
    show Fifo (d.deliver M p i)
    unfold Duplex.deliver
    split
    · exact h
    next hq => exact (h.pop hq).put p _

theorem Fifo.run (h : Fifo d) (es : List (DuplexEvent ε ι)) : Fifo (d.run M es) :=
  runFrom_invariant_always Fifo (fun _ e h => h.step e) h es

/-- A sequence of moves in which `t` is taken. -/
structure Moves (M : Machine σ ε ι φ) (d d' : Duplex σ φ) (p : Bool) : Prop where
  other : d'.party (!p) = d.party (!p) ∧ d'.sent (!p) = d.sent (!p) ∧ d'.taken (!p) = d.taken (!p)
  own : (∃ e, d'.party p = (M.act (d.party p) e).1 ∧ d'.sent p = d.sent p ++ (M.act (d.party p) e).2 ∧
      d'.taken p = d.taken p) ∨
    ∃ i f rest, d.sent (!p) = d.taken p ++ f :: rest ∧ d.taken (!p) <+: d.sent p ∧
      d'.party p = (M.take (d.party p) i f).1 ∧ d'.sent p = d.sent p ++ (M.take (d.party p) i f).2 ∧
      d'.taken p = d.taken p ++ [f]

theorem Fifo.step_cases (h : Fifo d) (e : DuplexEvent ε ι) : d.step M e = d ∨ ∃ p, Moves M d (d.step M e) p := by
  have hne : ∀ p : Bool, (!p) ≠ p := by decide
  cases e with
  | act p e =>
    refine .inr ⟨p, ?_, .inl ⟨e, ?_⟩⟩
    · simp only [Duplex.step, Duplex.put, update_of_ne (hne p), and_self]
    · simp only [Duplex.step, Duplex.put, update_self, and_self]
  | deliver p i =>
    show d.deliver M p i = d ∨ ∃ q, Moves M d (d.deliver M p i) q
    unfold Duplex.deliver
    split
    · exact .inl rfl
    next f rest hq =>
      refine .inr ⟨p, ?_, .inr ⟨i, f, rest, by rw [h p, hq], ⟨_, by simpa using (h (!p)).symm⟩, ?_⟩⟩
      · simp only [Duplex.put, Duplex.pop, update_of_ne (hne p), and_self]
      · simp only [Duplex.put, Duplex.pop, update_self, and_self]

/-- An invariant of each party over its state, what it has handed over and what it has taken. A party
that takes a message may use the invariant of the other one, and that all it has taken, the new message
included, was handed over by the other one, which in turn took only what this one handed over. -/
structure Keeps (M : Machine σ ε ι φ) (inv : Bool → σ → List φ → List φ → Prop) : Prop where
  act : ∀ p s sent taken e, inv p s sent taken → inv p (M.act s e).1 (sent ++ (M.act s e).2) taken
  take : ∀ p s sent taken s' sent' taken' i f rest, inv p s sent taken → inv (!p) s' sent' taken' →
    sent' = taken ++ f :: rest → taken' <+: sent →
    inv p (M.take s i f).1 (sent ++ (M.take s i f).2) (taken ++ [f])

theorem invariant (hM : Keeps M inv) (hs : ∀ p, inv p (s p) [] []) (es : List (DuplexEvent ε ι)) (p : Bool) :
    inv p (((new s).run M es).party p) (((new s).run M es).sent p) (((new s).run M es).taken p) := by
  refine (runFrom_invariant_always
    (fun d : Duplex σ φ => Fifo d ∧ ∀ p, inv p (d.party p) (d.sent p) (d.taken p)) ?_ ⟨.new s, hs⟩ es).2 p
  intro d e ⟨hfifo, hinv⟩
  refine ⟨hfifo.step e, fun q => ?_⟩
  rcases hfifo.step_cases (M := M) e with heq | ⟨p, ⟨hparty, hsent, htaken⟩, hown⟩
  · rw [heq]
    exact hinv q
  by_cases hq : q = p
  · subst hq
    rcases hown with ⟨e, hparty, hsent, htaken⟩ | ⟨i, f, rest, hnext, hback, hparty, hsent, htaken⟩ <;>
      rw [hparty, hsent, htaken]
    · exact hM.act q _ _ _ e (hinv q)
    · exact hM.take q _ _ _ _ _ _ i f rest (hinv q) (hinv !q) hnext hback
  · rw [Bool.eq_not.mpr hq, hparty, hsent, htaken]
    exact hinv (!p)

/-- What a party that is calm says is in order as long as what it takes is. Two parties that are calm
throughout say nothing else: the first one to break the rules would have no reason to. -/
theorem legal_run {calm : σ → List φ → Prop} (legal : Bool → List φ → Prop) (hM : Keeps M inv)
    (hs : ∀ p, inv p (s p) [] []) (hlegal : ∀ p, legal p [])
    (hstep : ∀ p s sent taken sent', inv p s sent taken → calm s taken → taken <+: sent' → legal (!p) sent' →
      legal p sent)
    (es : List (DuplexEvent ε ι))
    (hcalm : ∀ es₀ ∈ es.inits, ∀ p, calm (((new s).run M es₀).party p) (((new s).run M es₀).taken p)) (p : Bool) :
    legal p (((new s).run M es).sent p) := by
  simp only [List.mem_inits] at hcalm
  induction es using List.reverseRecOn generalizing p with
  | nil => exact hlegal p
  | append_singleton es e ih =>
    have hold := fun p => ih p fun es₀ h => hcalm es₀ (h.trans (List.prefix_append es [e]))
    have hnow := hcalm (es ++ [e]) (List.prefix_refl _)
    have hinv := invariant hM hs (es ++ [e])
    have hfifo := Fifo.run (M := M) (.new s) es
    have hfifo' := Fifo.run (M := M) (.new s) (es ++ [e])
    have hsnoc : (new s).run M (es ++ [e]) = ((new s).run M es).step M e := runFrom_append _ _ _ _
    rw [hsnoc] at hnow hinv hfifo' ⊢
    rcases hfifo.step_cases (M := M) e with heq | ⟨q, ⟨-, hsent, -⟩, -⟩
    · rw [heq]
      exact hold p
    · have hother := hold (!q)
      rw [← hsent] at hother
      by_cases hpq : p = q
      · exact hpq ▸ hstep q _ _ _ _ (hinv q) (hnow q) ⟨_, (hfifo' q).symm⟩ hother
      · exact Bool.eq_not.mpr hpq ▸ hother

end Duplex

end Multiplexd
