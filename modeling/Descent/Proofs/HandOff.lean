import Descent.Proofs.Emission
import Mathlib.Data.List.ReduceOption

/-!
# From the producer to the consumer: `Lexer::next` / `Lexer::err`

`Pipeline.Exchange` is every way for the two sides to take turns while the consumer stays and asks
as often as it likes. For the consumer there are three phases (`Phase`): it is served; it knows that
nothing more will come and waits for the end of the producer; it has seen that end. Whatever the
turns are, it is given the tokens of the machine in order, all of them before it is told that there
are no more, and never waits in vain (`tokens_in_order`). What it is told of the end is how the
machine has ended, and stays so (`error_of_ending`).
-/

namespace Descent

variable {ι τ ω : Type}

namespace Producer

/-- What is left to do for the states. -/
def rest : Producer ι τ ω → Routine ι τ ω
  | running r | sending _ r => r
  | reporting e => .fail e
  | leaving how | closed how | ended how => how.routine

/-- How the states have ended, if nothing is left to do for them. -/
def ending? : Producer ι τ ω → Option Ending
  | running _ | sending _ _ | reporting _ => none
  | leaving how | closed how | ended how => some how

/-- Steps of the producer that are no steps of its machine bring it closer to zero. -/
def stage : Producer ι τ ω → Nat
  | sending _ _ => 5
  | running _ => 4
  | reporting _ => 3
  | leaving _ => 2
  | closed _ => 1
  | ended _ => 0

end Producer

namespace Pipeline

/-- The machine as it is when the emission that the producer is in the middle of is over. -/
def settled (p : Pipeline ι τ ω) : Machine :=
  match p.producer with
  | .sending _ _ => p.machine.close
  | _ => p.machine

/-- The token that the next step of the producer begins to emit. -/
def emitting (p : Pipeline ι τ ω) : Option (Token τ) :=
  match p.producer with
  | .running (.emit tag _) => some (p.machine.token tag)
  | _ => none

def carried (p : Pipeline ι τ ω) : Option (Token τ) :=
  match p.channel with
  | some (.token t) => some t
  | _ => none

def held (p : Pipeline ι τ ω) : Option (Token τ) :=
  match p.producer with
  | .sending t _ => some t
  | _ => none

/-- The tokens that have been emitted and not been given to the consumer yet. -/
def inFlight (p : Pipeline ι τ ω) : List (Token τ) := p.carried.toList ++ p.held.toList

/-- Steps of a pipeline whose consumer stays: the tokens emitted since `p₀`, the answers that the
consumer has been given since, both first one first, and the pipeline. -/
inductive Exchange (states : ι → Routine ι τ ω) (p₀ : Pipeline ι τ ω) :
    List (Token τ) → List (Option (Token τ)) → Pipeline ι τ ω → Prop
  | start : Exchange states p₀ [] [] p₀
  | produce {emitted answers p p'} : Exchange states p₀ emitted answers p →
      p.produce states = some p' → Exchange states p₀ (emitted ++ p.emitting.toList) answers p'
  | consume {emitted answers p answer p'} : Exchange states p₀ emitted answers p →
      p.consume = some (answer, p') → Exchange states p₀ emitted (answers ++ answer.toList) p'
  | ask {emitted answers p} : Exchange states p₀ emitted answers p → p.consumer = .idle →
      Exchange states p₀ emitted answers p.ask

variable {states : ι → Routine ι τ ω} {text : List Char} {first : ι} {p p' : Pipeline ι τ ω}

/-! ## Steps of the producer -/

/-- Whether the channel holds an error is the same as whether the producer has come to it. -/
def Reported (p : Pipeline ι τ ω) : Prop :=
  ∀ e, p.channel = some (.fatal e) ↔ p.producer.ending? = some (.failed e)

/-- A step of the producer is one of its machine, or gets it ready for the next one. -/
inductive Progress (states : ι → Routine ι τ ω) (p p' : Pipeline ι τ ω) : Prop
  | step (machine : p.producer.rest.step states p.settled =
        some (p.emitting, p'.settled, p'.producer.rest))
      (stage : p'.producer.stage ≤ p.producer.stage + 1)
  | ready (settled : p'.settled = p.settled) (rest : p'.producer.rest = p.producer.rest)
      (emitting : p.emitting = none) (stage : p'.producer.stage < p.producer.stage)

/-- What a step of the producer does while the consumer stays. -/
structure Produced (states : ι → Routine ι τ ω) (p p' : Pipeline ι τ ω) : Prop where
  connected : p'.disconnected = false
  consumer : p'.consumer = p.consumer
  joined : p'.joined = p.joined
  err : p'.err = p.err
  inFlight : p'.inFlight = p.inFlight ++ p.emitting.toList
  progress : Progress states p p'
  reported : p.Reported → p'.Reported
  /-- Once its states have ended, the producer leaves the channel alone. -/
  ending {how : Ending} : p.producer.ending? = some how →
    p'.producer.ending? = some how ∧ p'.channel = p.channel

theorem produced_advance {r : Routine ι τ ω} (hd : p.disconnected = false)
    (hr : p.producer = .running r) : Produced states p (p.advance states r) := by
  obtain ⟨m, producer, disconnected, channel, consumer, joined, err, journal⟩ := p
  dsimp only at hd hr
  subst hd hr
  have hflight : ∀ ts : List (Token τ), ts = ts ++ [] := fun ts => (List.append_nil ts).symm
  cases r with
  | read k | peek k | backup k | dropSpan k | view k | note w k | goto i =>
    exact ⟨rfl, rfl, rfl, rfl, hflight _, .step rfl (Nat.le_succ 4), id, nofun⟩
  | emit tag k =>
    refine ⟨rfl, rfl, rfl, rfl, ?_, .step rfl (Nat.le_refl 5), id, nofun⟩
    exact congrArg (· ++ [m.token tag]) (hflight _)
  | stop | panic =>
    have hstage : 2 < 4 := by decide
    refine ⟨rfl, rfl, rfl, rfl, hflight _, .ready rfl rfl rfl hstage, fun h e => ?_, nofun⟩
    exact (h e).trans ⟨nofun, nofun⟩
  | fail e =>
    exact ⟨rfl, rfl, rfl, rfl, hflight _, .ready rfl rfl rfl (Nat.lt_succ_self 3), id, nofun⟩

theorem produced_of_produce (hd : p.disconnected = false) (hk : p.consumer ≠ .dropped)
    (h : p.produce states = some p') : Produced states p p' := by
  cases hr : p.producer with
  | running r =>
    simp only [produce, hr, Option.some.injEq] at h
    rw [← h]
    exact produced_advance hd hr
  | sending t r =>
    obtain ⟨m, producer, disconnected, channel, consumer, joined, err, journal⟩ := p
    dsimp only at hd hk hr
    subst hd hr
    cases channel with
    | some message => simp [produce, hk] at h
    | none =>
      simp only [produce, hk, if_false, Option.isNone_none, if_true, Option.some.injEq] at h
      subst h
      exact ⟨rfl, rfl, rfl, rfl, rfl, .ready rfl rfl rfl (by simp [Producer.stage, resume]),
        fun _ e => ⟨nofun, nofun⟩, nofun⟩
  | reporting e =>
    obtain ⟨m, producer, disconnected, channel, consumer, joined, err, journal⟩ := p
    dsimp only at hd hk hr
    subst hd hr
    cases channel with
    | some message => simp [produce, hk] at h
    | none =>
      simp only [produce, hk, if_false, Option.isNone_none, if_true, Option.some.injEq] at h
      subst h
      refine ⟨rfl, rfl, rfl, rfl, rfl, .ready rfl rfl rfl ?_, fun _ e' => ?_, nofun⟩
      · simp [Producer.stage, finish, record]
      · simp [finish, record, Producer.ending?]
  | leaving how | closed how =>
    obtain ⟨m, producer, disconnected, channel, consumer, joined, err, journal⟩ := p
    dsimp only at hd hk hr
    subst hd hr
    simp only [produce, Option.some.injEq] at h
    subst h
    exact ⟨rfl, rfl, rfl, rfl, (List.append_nil _).symm,
      .ready rfl rfl rfl (by simp [Producer.stage]), id, fun h => ⟨h, rfl⟩⟩
  | ended how => simp [produce, hr] at h

/-! ## Steps of the consumer -/

/-- What a step of the consumer does. -/
inductive Consumed (p : Pipeline ι τ ω) : Option (Option (Token τ)) → Pipeline ι τ ω → Prop
  | take {t} (waiting : p.consumer = .waiting) (channel : p.channel = some (.token t)) :
    Consumed p (some (some t)) { p with channel := none, consumer := .idle }
  | learn {e} (waiting : p.consumer = .waiting) (channel : p.channel = some (.fatal e)) :
    Consumed p none { p with channel := none, consumer := .joining, err := some e }
  | close {how} (waiting : p.consumer = .waiting) (channel : p.channel = none)
      (ending : p.producer.ending? = some how) :
    Consumed p none { p with channel := none, consumer := .joining }
  /-- The first time that a crashed producer is found. -/
  | crash (joining : p.consumer = .joining) (ended : p.producer = .ended .panicked)
      (joined : p.joined = false) :
    Consumed p (some none) ({ p with
      consumer := .idle, joined := true, err := p.err.or (some .panicked) }.record .crashed)
  | join {how} (joining : p.consumer = .joining) (ended : p.producer = .ended how)
      (known : how = .panicked → p.joined = true) :
    Consumed p (some none) { p with consumer := .idle, joined := true }

theorem consumed_of_consume {answer : Option (Option (Token τ))}
    (h : p.consume = some (answer, p')) : Consumed p answer p' := by
  cases hcons : p.consumer with
  | idle | dropped => simp [consume, hcons] at h
  | waiting =>
    simp only [consume, hcons] at h
    cases hchan : p.channel with
    | none =>
      cases hprod : p.producer with
      | running r | sending t r | reporting e | leaving how => simp [hchan, hprod] at h
      | closed how | ended how =>
        simp only [hchan, hprod, Option.some.injEq, Prod.mk.injEq] at h
        obtain ⟨rfl, rfl⟩ := h
        have hending : p.producer.ending? = some how := by rw [hprod, Producer.ending?]
        exact hprod ▸ .close hcons hchan hending
    | some message =>
      cases message with
      | token t =>
        simp only [hchan, Option.some.injEq, Prod.mk.injEq] at h
        obtain ⟨rfl, rfl⟩ := h
        exact .take hcons hchan
      | fatal e =>
        simp only [hchan, Option.some.injEq, Prod.mk.injEq] at h
        obtain ⟨rfl, rfl⟩ := h
        exact .learn hcons hchan
  | joining =>
    simp only [consume, hcons] at h
    cases hprod : p.producer with
    | running r | sending t r | reporting e | leaving how | closed how => simp [hprod] at h
    | ended how =>
      simp only [hprod] at h
      split at h
      · rename_i hnew
        obtain ⟨rfl, hjoined⟩ := hnew
        cases h
        exact hprod ▸ .crash hcons hprod (by simpa using hjoined)
      · rename_i hold
        cases h
        exact hprod ▸ .join hcons hprod (by simpa using hold)

/-! ## Phases -/

/-- How far the consumer is, after its answers. -/
inductive Phase (p : Pipeline ι τ ω) (answers : List (Option (Token τ))) : Prop
  /-- It does not know of an end yet. -/
  | serving (unanswered : none ∉ answers) (consumer : p.consumer = .idle ∨ p.consumer = .waiting)
      (joined : p.joined = false) (err : p.err = none) (reported : p.Reported)
  /-- Nothing more will come. An error that the producer has reported is known already. -/
  | joining {how : Ending} (unanswered : none ∉ answers) (consumer : p.consumer = .joining)
      (joined : p.joined = false) (channel : p.channel = none)
      (ending : p.producer.ending? = some how) (err : p.err = how.reported)
  /-- It has been told that there is nothing more. -/
  | over {how : Ending} (answered : none ∈ answers) (consumer : p.consumer ≠ .dropped)
      (joined : p.joined = true) (channel : p.channel = none) (ended : p.producer = .ended how)
      (err : p.err = how.error)

variable {emitted : List (Token τ)} {answers : List (Option (Token τ))}

theorem Phase.kept (h : p.Phase answers) : p.consumer ≠ .dropped := by
  rcases h with ⟨-, h | h, -⟩ | ⟨-, h, -⟩ | ⟨-, h, -⟩ <;> simp [h]

theorem Phase.produce (h : p.Phase answers) (hd : p.disconnected = false)
    (hp : p.produce states = some p') : p'.Phase answers := by
  have hstep := produced_of_produce hd h.kept hp
  rcases h with ⟨hn, hc, hj, he, hr⟩ | ⟨hn, hc, hj, hch, hend, he⟩ | ⟨-, -, -, -, hend, -⟩
  · rw [← hstep.consumer] at hc
    exact .serving hn hc (hstep.joined.trans hj) (hstep.err.trans he) (hstep.reported hr)
  · obtain ⟨hend', hch'⟩ := hstep.ending hend
    exact .joining hn (hstep.consumer.trans hc) (hstep.joined.trans hj) (hch'.trans hch) hend'
      (hstep.err.trans he)
  · simp [Pipeline.produce, hend] at hp

theorem Phase.consume {answer : Option (Option (Token τ))} (h : p.Phase answers)
    (hp : p.consume = some (answer, p')) : p'.Phase (answers ++ answer.toList) := by
  have hstep := consumed_of_consume hp
  rcases h with ⟨hn, hc, hj, he, hr⟩ | @⟨how, hn, hc, hj, hch, hend, he⟩ |
    ⟨ha, hc, hj, hch, hend, he⟩
  · cases hstep with
    | take _ hch =>
      refine .serving (by simpa using hn) (.inl rfl) hj he fun e => ?_
      constructor
      · intro he'
        cases he'
      · intro hend
        -- the channel would hold the error instead of the token
        simpa [hch] using (hr e).2 hend
    | @learn e _ hch =>
      have hend := (hr e).1 hch
      exact .joining (by simpa using hn) rfl hj rfl hend rfl
    | @close how _ hch hend =>
      refine .joining (by simpa using hn) rfl hj rfl hend ?_
      cases how with
      | failed e => simpa [hch] using (hr e).2 hend
      | stopped | panicked => exact he
    | crash hc' | join hc' => simp [hc'] at hc
  · cases hstep with
    | take hc' | learn hc' | close hc' => simp [hc'] at hc
    | crash _ hend' _ =>
      obtain rfl : .panicked = how := by simpa [hend', Producer.ending?] using hend
      refine .over (by simp) (by simp [record]) rfl hch hend' ?_
      simp [record, he, Ending.reported, Ending.error]
    | @join how' _ hend' hknown =>
      obtain rfl : how' = how := by simpa [hend', Producer.ending?] using hend
      refine .over (by simp) (by simp) rfl hch hend' (he.trans ?_)
      cases how' with
      | panicked => simp [hj] at hknown
      | stopped | failed e => rfl
  · cases hstep with
    | take _ hch' | learn _ hch' => simp [hch] at hch'
    | close => exact .over (by simp [ha]) (by simp) hj rfl hend he
    | crash _ _ hj' => simp [hj] at hj'
    | join => exact .over (by simp) (by simp) rfl hch hend he

theorem Phase.ask (h : p.Phase answers) (hi : p.consumer = .idle) : p.ask.Phase answers := by
  rcases h with ⟨hn, hc, hj, he, hr⟩ | ⟨hn, hc, hj, hch, hend, he⟩ | ⟨ha, hc, hj, hch, hend, he⟩
  · exact .serving hn (.inr rfl) hj he hr
  · simp [hc] at hi
  · exact .over ha nofun hj hch hend he

/-- While it is asked for a token, one of the two sides can take a step. -/
theorem Phase.live (h : p.Phase answers) (hc : p.consumer ≠ .idle) (states : ι → Routine ι τ ω) :
    (p.produce states).isSome ∨ p.consume.isSome := by
  have hk := h.kept
  rcases h with ⟨hn, hc', hj, he, hr⟩ | ⟨hn, hc', hj, hch, hend, he⟩ | ⟨ha, -, hj, hch, hend, he⟩
  · obtain hw : p.consumer = .waiting := hc'.resolve_left hc
    cases hch : p.channel with
    | some message => cases message <;> simp [Pipeline.consume, hw, hch]
    | none => cases hprod : p.producer <;> simp [Pipeline.produce, Pipeline.consume, hw, hch, hprod]
  · cases hprod : p.producer <;> simp_all [Pipeline.produce, Pipeline.consume, Producer.ending?]
    split <;> simp
  · cases hcons : p.consumer with
    | idle | dropped => simp_all
    | waiting => simp [Pipeline.consume, hcons, hch, hend]
    | joining =>
      right
      simp only [Pipeline.consume, hcons, hend]
      split <;> simp

/-! ## Whole exchanges -/

/-- What holds of a pipeline after its machine has made so many steps and emitted these tokens, and
the consumer has been given these answers. -/
structure Orderly (states : ι → Routine ι τ ω) (text : List Char) (first : ι) (steps : Nat)
    (emitted : List (Token τ)) (answers : List (Option (Token τ))) (p : Pipeline ι τ ω) : Prop where
  connected : p.disconnected = false
  machine : Emits states (.ofText text) (states first) steps emitted p.settled p.producer.rest
  flow : answers.reduceOption ++ p.inFlight = emitted
  phase : p.Phase answers

variable {n : Nat}

theorem orderly_start (states : ι → Routine ι τ ω) (text : List Char) (first : ι) :
    Orderly states text first 0 [] [] (start text (states first)) where
  connected := rfl
  machine := .start
  flow := rfl
  phase := .serving (by simp) (.inl rfl) rfl rfl fun _ => ⟨nofun, nofun⟩

/-- The producer comes closer to its end with every step. -/
theorem Orderly.produce (h : Orderly states text first n emitted answers p)
    (hp : p.produce states = some p') :
    ∃ k, Orderly states text first k (emitted ++ p.emitting.toList) answers p' ∧
      p'.producer.stage + 2 * n < p.producer.stage + 2 * k := by
  have hstep := produced_of_produce h.connected h.phase.kept hp
  have hphase := h.phase.produce h.connected hp
  have hflow : answers.reduceOption ++ p'.inFlight = emitted ++ p.emitting.toList := by
    rw [hstep.inFlight, ← h.flow, List.append_assoc]
  rcases hstep.progress with ⟨hm, hs⟩ | ⟨hset, hrest, hnone, hs⟩
  · exact ⟨n + 1, ⟨hstep.connected, h.machine.step hm, hflow, hphase⟩, by omega⟩
  · refine ⟨n, ⟨hstep.connected, ?_, hflow, hphase⟩, by omega⟩
    rw [hset, hrest, hnone, Option.toList_none, List.append_nil]
    exact h.machine

theorem inFlight_consumed {answer : Option (Option (Token τ))} (h : Consumed p answer p') :
    answer.toList.reduceOption ++ p'.inFlight = p.inFlight := by
  cases h with
  | take _ hch => simp [inFlight, carried, held, hch, List.reduceOption]
  | learn _ hch | close _ hch => simp [inFlight, carried, held, hch, List.reduceOption]
  | crash | join => rfl

theorem Orderly.consume {answer : Option (Option (Token τ))}
    (h : Orderly states text first n emitted answers p) (hp : p.consume = some (answer, p')) :
    Orderly states text first n emitted (answers ++ answer.toList) p' := by
  have hstep := consumed_of_consume hp
  refine ⟨?_, ?_, ?_, h.phase.consume hp⟩
  · cases hstep <;> exact h.connected
  · cases hstep <;> exact h.machine
  · rw [List.reduceOption_append, List.append_assoc, inFlight_consumed hstep, h.flow]

theorem Orderly.ask (h : Orderly states text first n emitted answers p) (hi : p.consumer = .idle) :
    Orderly states text first n emitted answers p.ask :=
  ⟨h.connected, h.machine, h.flow, h.phase.ask hi⟩

theorem Exchange.orderly {p₀ : Pipeline ι τ ω} {emitted₀ : List (Token τ)}
    {answers₀ : List (Option (Token τ))} {n₀ : Nat}
    (h₀ : Orderly states text first n₀ emitted₀ answers₀ p₀)
    (h : Exchange states p₀ emitted answers p) :
    ∃ n, Orderly states text first n (emitted₀ ++ emitted) (answers₀ ++ answers) p := by
  induction h with
  | start => exact ⟨n₀, by simpa using h₀⟩
  | produce _ hp ih =>
    obtain ⟨n, ih⟩ := ih
    obtain ⟨k, hk, -⟩ := ih.produce hp
    exact ⟨k, by rwa [← List.append_assoc]⟩
  | consume _ hp ih =>
    obtain ⟨n, ih⟩ := ih
    exact ⟨n, by simpa only [List.append_assoc] using ih.consume hp⟩
  | ask _ hi ih =>
    obtain ⟨n, ih⟩ := ih
    exact ⟨n, ih.ask hi⟩

/-- A pipeline that a text has been put into, after some steps. -/
theorem Exchange.orderly_start
    (h : Exchange states (.start text (states first)) emitted answers p) :
    ∃ n, Orderly states text first n emitted answers p :=
  h.orderly (Pipeline.orderly_start states text first)

/-- When the consumer has been told that there are no more tokens, the machine has come to its end
and all that it has emitted has been given. -/
theorem Orderly.exhausted (h : Orderly states text first n emitted answers p)
    (ha : none ∈ answers) : ∃ how, Lexes states text first n emitted how ∧
      p.producer = .ended how ∧ p.channel = none ∧ p.joined = true ∧ p.err = how.error ∧
      answers.reduceOption = emitted := by
  rcases h.phase with ⟨hn, -⟩ | ⟨hn, -⟩ | @⟨how, -, -, hj, hch, hend, he⟩
  · exact absurd ha hn
  · exact absurd ha hn
  · refine ⟨how, ⟨p.settled, ?_⟩, hend, hch, hj, he, ?_⟩
    · simpa [hend, Producer.rest] using h.machine
    · simpa [inFlight, carried, held, hch, hend] using h.flow

/-- Whatever turns the producer and its consumer take, the consumer has been given the first of the
tokens that the machine has emitted, in order. When it is told that there are no more, the machine
has come to its end, and the tokens are all that it emits on its own. While it is asked for a token,
the pipeline is never stuck. -/
theorem tokens_in_order (h : Exchange states (.start text (states first)) emitted answers p) :
    answers.reduceOption <+: emitted ∧
    (∃ n, Emits states (.ofText text) (states first) n emitted p.settled p.producer.rest) ∧
    (none ∈ answers → answers.reduceOption = emitted ∧
      ∃ n how, Lexes states text first n emitted how ∧ p.producer = .ended how) ∧
    (p.consumer ≠ .idle → (p.produce states).isSome ∨ p.consume.isSome) := by
  obtain ⟨n, ho⟩ := h.orderly_start
  refine ⟨⟨p.inFlight, ho.flow⟩, ⟨n, ho.machine⟩, fun ha => ?_, fun hc => ho.phase.live hc states⟩
  obtain ⟨how, hl, hend, -, -, -, ht⟩ := ho.exhausted ha
  exact ⟨ht, n, how, hl, hend⟩

/-- Two states: the first publishes a character and goes on to the second, which publishes the next
one and ends as `how` says. -/
def twoStates (how : Ending) : Bool → Routine Bool Bool Empty
  | false => .read fun _ => .emit true (.goto true)
  | true => .read fun _ => .emit false how.routine

def firstToken : Token Bool := ⟨true, String.ofList ['é'], 1, 0, 2⟩

def secondToken : Token Bool := ⟨false, String.ofList ['b'], 1, 2, 1⟩

/-- The consumer asks before there is anything, and later lets the producer wait with a token, and
again with an error. -/
theorem twoStates_in_order : ∃ p,
    Exchange (twoStates (.failed (.message "b")))
      (.start ['é', 'b'] (twoStates (.failed (.message "b")) false))
      [firstToken, secondToken] [some firstToken, some secondToken, none] p ∧
    [some firstToken, some secondToken, none].reduceOption = [firstToken, secondToken] ∧
    ∃ n how, Lexes (twoStates (.failed (.message "b"))) ['é', 'b'] false n
      [firstToken, secondToken] how ∧ p.producer = .ended how := by
  have initial : Exchange (twoStates (.failed (.message "b")))
    (.start ['é', 'b'] (twoStates (.failed (.message "b")) false)) [] [] _ := .start
  have full := initial.ask rfl |>.produce rfl |>.produce rfl |>.produce rfl |>.produce rfl
    |>.produce rfl |>.produce rfl
  have failed := full.consume rfl |>.produce rfl |>.produce rfl
  have learned := failed.ask rfl |>.consume rfl |>.produce rfl |>.ask rfl |>.consume rfl
  have done := learned.produce rfl |>.produce rfl |>.consume rfl
  obtain ⟨-, -, hall, -⟩ := tokens_in_order done
  have hnone : none ∈ [some firstToken, some secondToken, none] := by simp
  exact ⟨_, done, hall hnone⟩

/-! ## After the end -/

/-- Once the consumer has seen the end of the producer, nothing changes any more. -/
theorem Exchange.over {p₀ : Pipeline ι τ ω} {how : Ending} (hend : p₀.producer = .ended how)
    (hch : p₀.channel = none) (hj : p₀.joined = true)
    (h : Exchange states p₀ emitted answers p) :
    (∀ answer ∈ answers, answer = none) ∧ p.err = p₀.err ∧
      p.producer = .ended how ∧ p.channel = none ∧ p.joined = true := by
  induction h with
  | start => exact ⟨by simp, rfl, hend, hch, hj⟩
  | produce _ hp ih =>
    obtain ⟨-, -, hend, -⟩ := ih
    simp [Pipeline.produce, hend] at hp
  | consume _ hp ih =>
    obtain ⟨hn, he, hend, hch, hj⟩ := ih
    cases consumed_of_consume hp with
    | take _ hch' | learn _ hch' => simp [hch] at hch'
    | close => exact ⟨by simpa using hn, he, hend, rfl, hj⟩
    | crash _ _ hj' => simp [hj] at hj'
    | join =>
      refine ⟨?_, he, hend, hch, rfl⟩
      intro answer ha
      rcases List.mem_append.1 ha with ha | ha
      · exact hn answer ha
      · simpa using ha
  | ask _ _ ih => exact ih

/-- If it asks again, it is told again that there is nothing. -/
theorem ask_again {how : Ending} (hend : p.producer = .ended how) (hch : p.channel = none)
    (hj : p.joined = true) (hi : p.consumer = .idle) :
    ∃ q, p.ask.consume = some (none, q) ∧ q.consume = some (some none, p) := by
  obtain ⟨m, producer, disconnected, channel, consumer, joined, err, journal⟩ := p
  dsimp only at hend hch hj hi
  subst hend hch hj hi
  exact ⟨_, rfl, by simp [ask, consume]⟩

/-- Whatever turns the two sides take, there is no error before the consumer is told that there are
no more tokens; while it is being told, an error that has been reported is known already. Afterwards
the error is the one that has ended the machine. A state may report on its own that it has crashed,
which looks like a crash. Then every time that the consumer asks it is told the same, and the error
stays. -/
theorem error_of_ending (h : Exchange states (.start text (states first)) emitted answers p) :
    (none ∉ answers → p.consumer ≠ .joining → p.err = none) ∧
    (none ∈ answers → ∃ n how, Lexes states text first n emitted how ∧
      (p.err = none ↔ how = .stopped) ∧
      (∀ e, e ≠ .panicked → (p.err = some e ↔ how = .failed e)) ∧
      (p.err = some .panicked ↔ how = .panicked ∨ how = .failed .panicked) ∧
      ∀ {emitted' answers' p'}, Exchange states p emitted' answers' p' →
        (∀ answer ∈ answers', answer = none) ∧ p'.err = p.err ∧
        (p'.consumer = .idle →
          ∃ q, p'.ask.consume = some (none, q) ∧ q.consume = some (some none, p'))) := by
  obtain ⟨n, ho⟩ := h.orderly_start
  constructor
  · intro hn hc
    rcases ho.phase with ⟨-, -, -, he, -⟩ | ⟨-, hc', -⟩ | ⟨ha, -⟩
    · exact he
    · exact absurd hc' hc
    · exact absurd ha hn
  · intro ha
    obtain ⟨how, hl, hend, hch, hj, he, -⟩ := ho.exhausted ha
    refine ⟨n, how, hl, ?_, ?_, ?_, ?_⟩
    · rw [he, Ending.error_eq_none]
    · intro e hne
      rw [he, Ending.error_eq_some]
      simp [hne]
    · rw [he, Ending.error_eq_some]
      simp [or_comm]
    · intro emitted' answers' p' h'
      obtain ⟨hn, he', hend', hch', hj'⟩ := h'.over hend hch hj
      exact ⟨hn, he', ask_again hend' hch' hj'⟩

/-- The second state crashes, and the consumer asks once more after it has been told the end. -/
theorem twoStates_crash : ∃ p,
    Exchange (twoStates .panicked) (.start ['é', 'b'] (twoStates .panicked false))
      [firstToken, secondToken] [some firstToken, some secondToken, none] p ∧
    p.err = some .panicked ∧
    ∃ q, p.ask.consume = some (none, q) ∧ q.consume = some (some none, p) := by
  have initial : Exchange (twoStates .panicked)
    (.start ['é', 'b'] (twoStates .panicked false)) [] [] _ := .start
  have first := initial.produce rfl |>.produce rfl |>.produce rfl |>.ask rfl |>.consume rfl
  have second := first.produce rfl |>.produce rfl |>.produce rfl |>.produce rfl |>.ask rfl
    |>.consume rfl
  have done := second.ask rfl |>.produce rfl |>.produce rfl |>.consume rfl |>.produce rfl
    |>.consume rfl
  have hnone : none ∈ [some firstToken, some secondToken, none] := by simp
  obtain ⟨n, how, -, -, -, -, hstays⟩ := (error_of_ending done).2 hnone
  exact ⟨_, done, rfl, (hstays .start).2.2 rfl⟩

/-- The second state ends with the error that a crash would leave. The consumer is told of a crash,
and in no run of these states on the text is there one. -/
theorem twoStates_feigned_crash : ∃ p n,
    Exchange (twoStates (.failed .panicked))
      (.start ['é', 'b'] (twoStates (.failed .panicked) false))
      [firstToken, secondToken] [some firstToken, some secondToken, none] p ∧
    p.err = some .panicked ∧
    Lexes (twoStates (.failed .panicked)) ['é', 'b'] false n [firstToken, secondToken]
      (.failed .panicked) ∧
    ∀ {k ts how}, Lexes (twoStates (.failed .panicked)) ['é', 'b'] false k ts how →
      how ≠ .panicked := by
  have initial : Exchange (twoStates (.failed .panicked))
    (.start ['é', 'b'] (twoStates (.failed .panicked) false)) [] [] _ := .start
  have first := initial.produce rfl |>.produce rfl |>.produce rfl |>.ask rfl |>.consume rfl
  have second := first.produce rfl |>.produce rfl |>.produce rfl |>.produce rfl |>.ask rfl
    |>.consume rfl
  have done := second.ask rfl |>.produce rfl |>.produce rfl |>.consume rfl |>.produce rfl
    |>.produce rfl |>.consume rfl
  have hnone : none ∈ [some firstToken, some secondToken, none] := by simp
  obtain ⟨n, ho⟩ := done.orderly_start
  obtain ⟨how, hl, hend, -⟩ := ho.exhausted hnone
  cases hend
  refine ⟨_, n, done, rfl, hl, fun hl' hp => ?_⟩
  obtain ⟨-, -, heq⟩ := hl.unique hl'
  cases heq.trans hp

end Pipeline
end Descent
