import Descent.Lexer.Stream
import Descent.Proofs.HandOff

/-!
# Schedules

When a lexer is asked for a token, its two sides take turns as its schedule says until there is an
answer. Whatever the schedule is, the answer comes, and it is the next one of the tokens that the
machine emits on its own (`Lexer.Serves.next`). The schedules leave nothing out: every way for the
two sides to come to the next answer is that of a schedule (`Pipeline.Exchange.scheduled`).
-/

namespace Descent

variable {ι τ ω : Type} {states : ι → Routine ι τ ω} {text : List Char} {first : ι} {n total : Nat}
  {emitted ts : List (Token τ)} {answers : List (Option (Token τ))} {how : Ending}
  {p p' q : Pipeline ι τ ω} {l l' : Lexer ι τ ω}

def Consumer.stage : Consumer → Nat
  | .waiting => 2
  | .joining => 1
  | .idle | .dropped => 0

namespace Pipeline

/-- How far the consumer is from its answer after `n` of the steps of the machine. -/
def distance (total n : Nat) (p : Pipeline ι τ ω) : Nat :=
  2 * (total - n) + p.producer.stage + p.consumer.stage

theorem distance_le (total n : Nat) (p : Pipeline ι τ ω) : p.distance total n ≤ 2 * total + 7 := by
  have hp : p.producer.stage ≤ 5 := by cases p.producer <;> simp [Producer.stage]
  have hc : p.consumer.stage ≤ 2 := by cases p.consumer <;> simp [Consumer.stage]
  unfold distance
  omega

theorem Orderly.distance_pos (total : Nat) (h : Orderly states text first n emitted answers p)
    (hc : p.consumer ≠ .idle) : 0 < p.distance total n := by
  have hk := h.phase.kept
  have hs : 0 < p.consumer.stage := by
    cases hcons : p.consumer <;> simp_all [Consumer.stage]
  unfold distance
  omega

/-- A step of the consumer gives its answer or comes closer to it. -/
theorem Consumed.answer_or_closer {answer : Option (Option (Token τ))} (total n : Nat)
    (h : Consumed p answer p') :
    match answer with
    | some _ => p'.consumer = .idle
    | none => p'.consumer ≠ .idle ∧ p'.distance total n < p.distance total n := by
  cases h with
  | take | crash | join => rfl
  | learn hw | close hw =>
    refine ⟨nofun, ?_⟩
    simp [distance, hw, Consumer.stage]

theorem Orderly.le_total (h : Orderly states text first n emitted answers p)
    (hl : Lexes states text first total ts how) : n ≤ total := by
  obtain ⟨m, hm⟩ := hl
  exact h.machine.le_of_ends hm

theorem Orderly.emitted_prefix (h : Orderly states text first n emitted answers p)
    (hl : Lexes states text first total ts how) : emitted <+: ts := by
  have hn := h.le_total hl
  obtain ⟨m, hm⟩ := hl
  exact h.machine.prefix_of_le hm hn

/-- A step of the producer brings the consumer closer to its answer. -/
theorem Orderly.produce_closer (h : Orderly states text first n emitted answers p)
    (hl : Lexes states text first total ts how) (hp : p.produce states = some p') :
    ∃ k, Orderly states text first k (emitted ++ p.emitting.toList) answers p' ∧
      p'.consumer = p.consumer ∧ p'.distance total k < p.distance total n := by
  obtain ⟨k, hk, hlt⟩ := h.produce hp
  have hc := (produced_of_produce h.connected h.phase.kept hp).consumer
  have hn := h.le_total hl
  have hk' := hk.le_total hl
  refine ⟨k, hk, hc, ?_⟩
  unfold distance
  rw [hc]
  omega

/-- The answer is the next one of the tokens that the machine emits on its own. -/
theorem Orderly.answer_eq {answer : Option (Token τ)}
    (h : Orderly states text first n emitted (answers ++ [answer]) p)
    (hl : Lexes states text first total ts how) : answer = ts[answers.reduceOption.length]? := by
  have hflow := h.flow
  rw [List.reduceOption_append] at hflow
  cases answer with
  | some t =>
    obtain ⟨rest, hrest⟩ := h.emitted_prefix hl
    rw [← hrest, ← hflow]
    simp [List.reduceOption]
  | none =>
    obtain ⟨how', hl', -, -, -, -, hall⟩ := h.exhausted (by simp)
    obtain ⟨-, rfl, -⟩ := hl.unique hl'
    rw [List.reduceOption_append] at hall
    rw [← hall]
    simp [List.reduceOption]

end Pipeline

namespace Lexer

open Pipeline

/-! ## Answers -/

/-- A step is one of either side. -/
theorem of_step {answer : Option (Option (Token τ))} (h : l.step = some (answer, l')) :
    ∃ p, l' = { l with pipe := p, clock := l.clock + 1 } ∧
      (answer = none ∧ l.pipe.produce l.states = some p ∨ l.pipe.consume = some (answer, p)) := by
  unfold step at h
  obtain ⟨⟨answer', p⟩, hchosen, he⟩ := Option.map_eq_some_iff.1 h
  cases he
  refine ⟨p, rfl, ?_⟩
  split at hchosen
  · rcases Option.or_eq_some_iff.1 hchosen with hp | ⟨-, hc⟩
    · obtain ⟨p', hp, he⟩ := Option.map_eq_some_iff.1 hp
      cases he
      exact .inl ⟨rfl, hp⟩
    · exact .inr hc
  · rcases Option.or_eq_some_iff.1 hchosen with hc | ⟨-, hp⟩
    · exact .inr hc
    · obtain ⟨p', hp, he⟩ := Option.map_eq_some_iff.1 hp
      cases he
      exact .inl ⟨rfl, hp⟩

/-- There is one if either side can take one. -/
theorem step_isSome (h : (l.pipe.produce l.states).isSome ∨ l.pipe.consume.isSome) :
    l.step.isSome := by
  unfold step
  rw [Option.isSome_map]
  split
  · simpa using h
  · simpa using h.symm

/-- Whatever the schedule is, there is an answer after as many steps as it is away. -/
theorem await_answers : ∀ {fuel n : Nat} {emitted : List (Token τ)} {l : Lexer ι τ ω},
    Orderly l.states text first n emitted answers l.pipe → l.pipe.consumer ≠ .idle →
    Lexes l.states text first total ts how → l.pipe.distance total n ≤ fuel →
    ∃ answer l', await fuel l = some (answer, l') ∧ l'.states = l.states ∧
      l'.patience = l.patience ∧ l'.pipe.consumer = .idle ∧
      ∃ k emitted', Orderly l.states text first k emitted' (answers ++ [answer]) l'.pipe
  | 0, n, _, l, ho, hc, _, hd => by
    have hpos := ho.distance_pos total hc
    omega
  | fuel + 1, n, emitted, l, ho, hc, hl, hd => by
    have hlive := step_isSome (ho.phase.live hc l.states)
    obtain ⟨⟨answer, l'⟩, hs⟩ := Option.isSome_iff_exists.1 hlive
    unfold await
    rw [hs]
    obtain ⟨p, rfl, ⟨rfl, hp⟩ | hp⟩ := of_step hs
    · obtain ⟨k, ho', hc', hlt⟩ := ho.produce_closer hl hp
      have hd' : p.distance total k ≤ fuel := by omega
      exact await_answers ho' (hc'.symm ▸ hc) hl hd'
    · have ho' := ho.consume hp
      have hstep := (consumed_of_consume hp).answer_or_closer total n
      cases answer with
      | some answer => exact ⟨answer, _, rfl, rfl, rfl, hstep, n, emitted, ho'⟩
      | none =>
        obtain ⟨hc', hlt⟩ := hstep
        have hd' : p.distance total n ≤ fuel := by omega
        rw [Option.toList_none, List.append_nil] at ho'
        exact await_answers ho' hc' hl hd'

/-- A lexer with time enough whose machine comes to its end with the tokens `ts`, between two
calls, after these answers. -/
structure Serves (ts : List (Token τ)) (how : Ending) (answers : List (Option (Token τ)))
    (l : Lexer ι τ ω) : Prop where
  run : ∃ text first total n emitted, Lexes l.states text first total ts how ∧
    2 * total + 7 ≤ l.patience ∧ Orderly l.states text first n emitted answers l.pipe
  idle : l.pipe.consumer = .idle

/-- The next call gives the next token, or nothing if there is none. -/
theorem Serves.next (h : Serves ts how answers l) :
    ∃ l', l.next = some (ts[answers.reduceOption.length]?, l') ∧ l'.states = l.states ∧
      Serves ts how (answers ++ [ts[answers.reduceOption.length]?]) l' := by
  obtain ⟨⟨text, first, total, n, emitted, hl, hpat, ho⟩, hi⟩ := h
  obtain ⟨answer, l', hw, hs, hpat', hi', k, emitted', ho'⟩ :=
    await_answers (l := { l with pipe := l.pipe.ask }) (ho.ask hi) nofun hl
      (Nat.le_trans (distance_le total n _) hpat)
  have hs : l'.states = l.states := hs
  have hpat' : l'.patience = l.patience := hpat'
  rw [← ho'.answer_eq hl]
  refine ⟨l', hw, hs, ⟨text, first, total, k, emitted', ?_, ?_, ?_⟩, hi'⟩
  · rwa [hs]
  · rwa [hpat']
  · rwa [hs]

/-- The answers are the first tokens. -/
theorem Serves.prefix (h : Serves ts how answers l) : answers.reduceOption <+: ts := by
  obtain ⟨⟨text, first, total, n, emitted, hl, -, ho⟩, -⟩ := h
  exact List.IsPrefix.trans ⟨l.pipe.inFlight, ho.flow⟩ (ho.emitted_prefix hl)

/-- After an answer without a token, whatever the two sides still do leaves the error as it is. -/
theorem Serves.err_eq (h : Serves ts how answers l) (ha : none ∈ answers)
    {emitted' : List (Token τ)} {answers' : List (Option (Token τ))}
    (he : Exchange l.states l.pipe emitted' answers' p) : p.err = how.error := by
  obtain ⟨⟨text, first, total, n, emitted, hl, -, ho⟩, -⟩ := h
  obtain ⟨how', hl', hend, hch, hj, herr, -⟩ := ho.exhausted ha
  obtain ⟨-, -, rfl⟩ := hl.unique hl'
  exact (he.over hend hch hj).2.1.trans herr

end Lexer

/-! ## All interleavings -/

namespace Pipeline

def withConsumer (p : Pipeline ι τ ω) (c : Consumer) : Pipeline ι τ ω := { p with consumer := c }

/-- All that the producer knows of its consumer is whether it is still there. -/
theorem produce_withConsumer (states : ι → Routine ι τ ω) {c : Consumer}
    (hp : p.consumer ≠ .dropped) (hc : c ≠ .dropped) :
    (p.withConsumer c).produce states =
      (p.produce states).map fun p' => p'.withConsumer c := by
  obtain ⟨m, producer, disconnected, channel, consumer, joined, err, journal⟩ := p
  dsimp only at hp
  cases producer with
  | running r =>
    cases r with
    | emit tag k | goto i => cases disconnected <;> rfl
    | read k | peek k | backup k | dropSpan k | view k | note w k | stop | fail e | panic => rfl
  | sending t r | reporting e =>
    cases channel <;> simp [produce, withConsumer, resume, finish, record, hp, hc]
  | leaving how | closed how | ended how => rfl

def asking (p : Pipeline ι τ ω) : Pipeline ι τ ω :=
  if p.consumer = .idle then p.ask else p

/-- What the producer does before it is asked, it may as well do afterwards. -/
theorem produce_asking (hk : p.consumer ≠ .dropped) (hp : p.produce states = some p') :
    p'.consumer = p.consumer ∧ p.asking.produce states = some p'.asking := by
  have hself : p.produce states = (p.produce states).map fun p' => p'.withConsumer p.consumer :=
    produce_withConsumer states hk hk
  rw [hp] at hself
  have hc : p'.consumer = p.consumer := by
    rw [Option.some.inj hself]
    rfl
  refine ⟨hc, ?_⟩
  unfold asking
  rw [hc]
  split
  · have hask := produce_withConsumer states (c := .waiting) hk nofun
    rwa [hp] at hask
  · exact hp

theorem busy_of_consume {answer : Option (Option (Token τ))}
    (h : p.consume = some (answer, p')) : p.consumer ≠ .idle := by
  intro hi
  simp [consume, hi] at h

end Pipeline

namespace Lexer

open Pipeline

/-- The lexer takes these turns next, the producer's where the list says so. -/
def Takes (turns : List Bool) (l : Lexer ι τ ω) : Prop :=
  ∀ i b, turns[i]? = some b → l.producerFirst (l.clock + i) = b

theorem takes_append_singleton {turns : List Bool} {b : Bool} (h : l.Takes (turns ++ [b])) :
    l.Takes turns ∧ l.producerFirst (l.clock + turns.length) = b := by
  refine ⟨fun i b' hi => h i b' ?_, h _ _ (by simp)⟩
  rw [List.getElem?_append_left (List.getElem?_eq_some_iff.1 hi).1, hi]

/-- The lexer after so many steps. -/
def moved (l : Lexer ι τ ω) (p : Pipeline ι τ ω) (steps : Nat) : Lexer ι τ ω :=
  { l with pipe := p, clock := l.clock + steps }

theorem step_produce {k : Nat} (hp : p.produce l.states = some p')
    (hl : l.producerFirst (l.clock + k) = true) :
    (l.moved p k).step = some (none, l.moved p' (k + 1)) := by
  simp [step, moved, hl, hp, Nat.add_assoc]

theorem step_consume {k : Nat} {answer : Option (Option (Token τ))}
    (hp : p.consume = some (answer, p')) (hl : l.producerFirst (l.clock + k) = false) :
    (l.moved p k).step = some (answer, l.moved p' (k + 1)) := by
  simp [step, moved, hl, hp, Nat.add_assoc]

end Lexer

namespace Pipeline

open Lexer

/-- The turns since an answer are those of a lexer that has been waiting all the time. -/
theorem Exchange.awaited (hi : p.consumer = .idle) (h : Exchange states p emitted answers q) :
    answers = [] → q.consumer ≠ .dropped ∧ ∃ turns : List Bool, ∀ l : Lexer ι τ ω,
      l.states = states → l.Takes turns → ∀ fuel, await (fuel + turns.length) (l.moved p.ask 0) =
        await fuel (l.moved q.asking turns.length) := by
  induction h with
  | start =>
    intro _
    refine ⟨by simp [hi], [], fun l _ _ fuel => ?_⟩
    rw [asking, if_pos hi]
    rfl
  | @produce _ answers q q' _ hp ih =>
    intro ha
    obtain ⟨hk, turns, hturns⟩ := ih ha
    obtain ⟨hc, hp'⟩ := produce_asking hk hp
    refine ⟨hc ▸ hk, turns ++ [true], fun l hs ht fuel => ?_⟩
    obtain ⟨ht, hlast⟩ := takes_append_singleton ht
    rw [← hs] at hp'
    rw [List.length_append, List.length_singleton, ← Nat.add_assoc, Nat.add_right_comm,
      hturns l hs ht, await, step_produce hp' hlast]
  | @consume _ answers q answer q' _ hp ih =>
    intro ha
    obtain ⟨hbefore, hnone⟩ := List.append_eq_nil_iff.1 ha
    obtain rfl : answer = none := Option.toList_eq_nil_iff.1 hnone
    obtain ⟨-, turns, hturns⟩ := ih hbefore
    have hq : q.asking = q := if_neg (busy_of_consume hp)
    have hc' : q'.consumer = .joining := by
      cases consumed_of_consume hp <;> rfl
    have hq' : q'.asking = q' := if_neg (by simp [hc'])
    refine ⟨by simp [hc'], turns ++ [false], fun l hs ht fuel => ?_⟩
    obtain ⟨ht, hlast⟩ := takes_append_singleton ht
    rw [List.length_append, List.length_singleton, ← Nat.add_assoc, Nat.add_right_comm,
      hturns l hs ht, hq, hq', await, step_consume hp hlast]
  | ask _ hi' ih =>
    intro ha
    obtain ⟨-, turns, hturns⟩ := ih ha
    refine ⟨nofun, turns, ?_⟩
    rwa [asking, if_pos hi'] at hturns

/-- However the two sides come from one answer to the next, also when the producer does not wait to
be asked: a lexer that takes the same turns and has the time does the same. -/
theorem Exchange.scheduled {answer : Option (Token τ)} (hi : p.consumer = .idle)
    (h : Exchange states p emitted [] q) (hq : q.consume = some (some answer, p')) :
    ∃ turns : List Bool, ∀ l : Lexer ι τ ω, l.states = states → l.pipe = p → l.Takes turns →
      turns.length ≤ l.patience → l.next = some (answer, l.moved p' turns.length) := by
  obtain ⟨-, turns, hturns⟩ := h.awaited hi rfl
  refine ⟨turns ++ [false], fun l hs hl ht hpat => ?_⟩
  obtain ⟨ht, hlast⟩ := takes_append_singleton ht
  rw [List.length_append, List.length_singleton] at hpat ⊢
  obtain ⟨fuel, hfuel⟩ : ∃ fuel, l.patience = fuel + 1 + turns.length :=
    ⟨l.patience - (turns.length + 1), by omega⟩
  have hasking : q.asking = q := if_neg (busy_of_consume hq)
  have hstart : ({ l with pipe := l.pipe.ask } : Lexer ι τ ω) = l.moved p.ask 0 := by
    rw [hl]
    rfl
  rw [next, hstart, hfuel, hturns l hs ht, hasking, await, step_consume hq hlast]

end Pipeline

end Descent
