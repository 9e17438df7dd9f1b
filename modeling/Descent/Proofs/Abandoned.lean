import Descent.Proofs.HandOff
import Descent.Proofs.Runs

/-!
# A producer without a consumer

The consumer may go away at any moment, also while the producer waits for it with a token. What the
producer does from then on is `Pipeline.Abandoned`, and `Run.abandoned` says that nothing else can
happen. Main theorem `drop_stops_producer`: the producer never waits again; its machine is the one
that it would have beside a consumer who goes on taking tokens; and once it has tried to emit a
token it enters no other state, and comes to its end.
-/

namespace Descent.Pipeline

variable {ι τ ω : Type}

/-- The state that a step of the producer from `p` to `q` goes on to. -/
def entered (p q : Pipeline ι τ ω) : Option ι :=
  match p.producer, q.producer with
  | .running (.goto i), .running _ => some i
  | _, _ => none

/-- Steps of the producer alone: the tokens emitted and the states entered since `p₀`, both first
one first, and the pipeline. -/
inductive Abandoned (states : ι → Routine ι τ ω) (p₀ : Pipeline ι τ ω) :
    List (Token τ) → List ι → Pipeline ι τ ω → Prop
  | start : Abandoned states p₀ [] [] p₀
  | produce {discarded started q q'} : Abandoned states p₀ discarded started q →
      q.produce states = some q' →
      Abandoned states p₀ (discarded ++ q.emitting.toList) (started ++ (q.entered q').toList) q'

/-- The producer can come to its end alone. Since there is only one step that it can take each time,
it does. -/
def Ends (states : ι → Routine ι τ ω) (p : Pipeline ι τ ω) : Prop :=
  ∃ discarded started q, Abandoned states p discarded started q ∧ q.hasEnded = true

/-- An emission has found that nobody takes the token, or is about to find it. -/
def Refused (p : Pipeline ι τ ω) : Prop := p.disconnected = true ∨ p.held.isSome

/-- Without a consumer `q` is what `p` is with one, except that it has ended where `p` is about to
enter another state. -/
structure Follows (p q : Pipeline ι τ ω) : Prop where
  machine : q.machine = p.machine
  producer : q.producer = p.producer ∨ q.disconnected = true ∧
    q.producer.ending? = some .stopped ∧ ∃ i, p.producer = .running (.goto i)

variable {states : ι → Routine ι τ ω} {text : List Char} {first : ι} {n : Nat}
  {emitted discarded : List (Token τ)} {answers : List (Option (Token τ))} {started : List ι}
  {p p' q q' : Pipeline ι τ ω}

/-! ## Steps without a consumer -/

/-- What a step of the producer does when the consumer is gone. -/
structure Unheard (q q' : Pipeline ι τ ω) : Prop where
  consumer : q'.consumer = .dropped
  channel : q'.channel = q.channel
  refused : q.Refused → q'.Refused ∧ q.entered q' = none
  emitting : q.emitting.isSome → q'.Refused

theorem unheard_of_produce (hc : q.consumer = .dropped) (h : q.produce states = some q') :
    Unheard q q' := by
  obtain ⟨m, producer, disconnected, channel, consumer, joined, err, journal⟩ := q
  dsimp only at hc
  subst hc
  cases producer with
  | running r =>
    cases r with
    | read k | peek k | backup k | dropSpan k | view k | note w k | stop | fail e | panic =>
      cases h
      exact ⟨rfl, rfl, fun hr => ⟨hr.imp_right nofun, rfl⟩, nofun⟩
    | emit tag k =>
      cases disconnected with
      | true =>
        cases h
        exact ⟨rfl, rfl, fun _ => ⟨.inl rfl, rfl⟩, fun _ => .inl rfl⟩
      | false =>
        cases h
        exact ⟨rfl, rfl, fun _ => ⟨.inr rfl, rfl⟩, fun _ => .inr rfl⟩
    | goto i =>
      cases disconnected with
      | true =>
        cases h
        exact ⟨rfl, rfl, fun _ => ⟨.inl rfl, rfl⟩, nofun⟩
      | false =>
        cases h
        refine ⟨rfl, rfl, fun hr => ?_, nofun⟩
        rcases hr with hr | hr <;> cases hr
  | sending t r =>
    cases h
    exact ⟨rfl, rfl, fun _ => ⟨.inl rfl, rfl⟩, nofun⟩
  | reporting e | leaving how | closed how =>
    cases h
    exact ⟨rfl, rfl, fun hr => ⟨hr.imp_right nofun, rfl⟩, nofun⟩
  | ended how => cases h

/-- Without a consumer the producer waits for nothing. -/
theorem hasEnded_of_produce (hc : q.consumer = .dropped) (h : q.produce states = none) :
    q.hasEnded = true := by
  cases hp : q.producer with
  | running r | leaving how | closed how => simp [produce, hp] at h
  | sending t r | reporting e => simp [produce, hp, hc] at h
  | ended how => rw [hasEnded, hp]

/-! ## All steps without a consumer -/

theorem Abandoned.unheard {p₀ : Pipeline ι τ ω} (hc : p₀.consumer = .dropped)
    (h : Abandoned states p₀ discarded started q) :
    q.consumer = .dropped ∧ q.channel = p₀.channel := by
  induction h with
  | start => exact ⟨hc, rfl⟩
  | produce _ hp ih =>
    have hstep := unheard_of_produce ih.1 hp
    exact ⟨hstep.consumer, hstep.channel.trans ih.2⟩

/-- Once an emission has been refused, no state is entered. -/
theorem Abandoned.refused {p₀ : Pipeline ι τ ω} (hc : p₀.consumer = .dropped) (hr : p₀.Refused)
    (h : Abandoned states p₀ discarded started q) : q.Refused ∧ started = [] := by
  induction h with
  | start => exact ⟨hr, rfl⟩
  | produce h hp ih =>
    obtain ⟨hr', hnone⟩ := (unheard_of_produce (h.unheard hc).1 hp).refused ih.1
    refine ⟨hr', ?_⟩
    rw [ih.2, hnone]
    rfl

theorem Abandoned.refused_of_discarded {p₀ : Pipeline ι τ ω} (hc : p₀.consumer = .dropped)
    (h : Abandoned states p₀ discarded started q) (hne : discarded ≠ []) : q.Refused := by
  induction h with
  | start => exact absurd rfl hne
  | @produce discarded started q q' h hp ih =>
    have hstep := unheard_of_produce (h.unheard hc).1 hp
    cases he : q.emitting with
    | some t => exact hstep.emitting (by rw [he]; rfl)
    | none =>
      rw [he, Option.toList_none, List.append_nil] at hne
      exact (hstep.refused (ih hne)).1

theorem Abandoned.trans {p₀ : Pipeline ι τ ω} {discarded' : List (Token τ)} {started' : List ι}
    (h : Abandoned states p₀ discarded started p) (h' : Abandoned states p discarded' started' q) :
    Abandoned states p₀ (discarded ++ discarded') (started ++ started') q := by
  induction h' with
  | start => simpa using h
  | produce _ hp ih => simpa only [List.append_assoc] using ih.produce hp

theorem Ends.of_produce (h : Ends states p') (hp : p.produce states = some p') : Ends states p := by
  obtain ⟨discarded, started, q, ha, hq⟩ := h
  exact ⟨_, _, q, (Abandoned.start.produce hp).trans ha, hq⟩

theorem ends_of_leaving {how : Ending} (hp : q.producer = .leaving how) : Ends states q := by
  have hended : Ends states { q with producer := .ended how } := ⟨[], [], _, .start, rfl⟩
  have hclosed : Ends states { q with producer := .closed how } := hended.of_produce rfl
  exact hclosed.of_produce (by simp [produce, hp])

theorem ends_of_reporting {e : LexError} (hc : q.consumer = .dropped)
    (hp : q.producer = .reporting e) : Ends states q := by
  have hfinished : Ends states (q.finish (.failed e)) := ends_of_leaving rfl
  exact hfinished.of_produce (by simp [produce, hp, hc])

theorem Ends.of_advance {r : Routine ι τ ω} (hp : q.producer = .running r)
    (h : Ends states (q.advance states r)) : Ends states q :=
  h.of_produce (by simp only [produce, hp])

/-- A state comes to its end, and after a refused emission it is the last one. -/
theorem ends_of_running {r : Routine ι τ ω} : ∀ {q : Pipeline ι τ ω}, q.consumer = .dropped →
    q.disconnected = true → q.producer = .running r → Ends states q := by
  induction r with
  | read k ih | peek k ih | view k ih =>
    intro q hc hd hp
    exact .of_advance hp (ih _ hc hd rfl)
  | backup k ih | dropSpan k ih | note w k ih =>
    intro q hc hd hp
    exact .of_advance hp (ih hc hd rfl)
  | emit tag k ih =>
    intro q hc hd hp
    refine .of_advance hp ?_
    simp only [advance, record, hd, if_true]
    exact ih hc rfl rfl
  | goto i =>
    intro q hc hd hp
    refine .of_advance hp ?_
    simp only [advance, hd, if_true]
    exact ends_of_leaving rfl
  | stop | panic =>
    intro q hc hd hp
    exact .of_advance hp (ends_of_leaving rfl)
  | fail e =>
    intro q hc hd hp
    exact .of_advance hp (ends_of_reporting hc rfl)

theorem Refused.ends (hr : q.Refused) (hc : q.consumer = .dropped) : Ends states q := by
  cases hp : q.producer with
  | running r =>
    have hd : q.disconnected = true := hr.resolve_right (by simp [held, hp])
    exact ends_of_running hc hd hp
  | sending t r =>
    have hresumed : Ends states ({ q with disconnected := true }.resume q.machine.close r) :=
      ends_of_running hc rfl rfl
    exact hresumed.of_produce (by simp [produce, hp, hc])
  | reporting e => exact ends_of_reporting hc hp
  | leaving how => exact ends_of_leaving hp
  | closed how =>
    have hended : Ends states { q with producer := .ended how } := ⟨[], [], _, .start, rfl⟩
    exact hended.of_produce (by simp [produce, hp])
  | ended how => exact ⟨[], [], q, .start, by rw [hasEnded, hp]⟩

/-! ## Beside a consumer -/

theorem Exchange.trans {p₀ : Pipeline ι τ ω} {emitted' : List (Token τ)}
    {answers' : List (Option (Token τ))} (h : Exchange states p₀ emitted answers p)
    (h' : Exchange states p emitted' answers' q) :
    Exchange states p₀ (emitted ++ emitted') (answers ++ answers') q := by
  induction h' with
  | start => simpa using h
  | produce _ hp ih => simpa only [List.append_assoc] using ih.produce hp
  | consume _ hp ih => simpa only [List.append_assoc] using ih.consume hp
  | ask _ hi ih => exact ih.ask hi

theorem consume_token {t : Token τ} (hw : p.consumer = .waiting)
    (hch : p.channel = some (.token t)) :
    p.consume = some (some (some t), { p with channel := none, consumer := .idle }) := by
  simp only [consume, hw, hch]

/-- A consumer that takes what there is makes room in the channel. -/
theorem Orderly.room (h : Orderly states text first n emitted answers p)
    (hend : p.producer.ending? = none) :
    ∃ more p', Exchange states p [] more p' ∧ p'.machine = p.machine ∧
      p'.producer = p.producer ∧ p'.consumer ≠ .dropped ∧ p'.channel = none := by
  rcases h.phase with ⟨-, hc, -, -, hr⟩ | ⟨-, -, -, -, hend', -⟩ | ⟨-, -, -, -, hend', -⟩
  · cases hch : p.channel with
    | none => exact ⟨[], p, .start, rfl, rfl, h.phase.kept, hch⟩
    | some message =>
      cases message with
      | fatal e =>
        rw [(hr e).1 hch] at hend
        cases hend
      | token t =>
        rcases hc with hi | hw
        · have hask : Exchange states p [] [] p.ask := .ask .start hi
          exact ⟨_, _, hask.consume (consume_token (p := p.ask) rfl hch), rfl, rfl, nofun, rfl⟩
        · exact ⟨_, _, Exchange.start.consume (consume_token hw hch), rfl, rfl, nofun, rfl⟩
  · rw [hend'] at hend
    cases hend
  · rw [hend', Producer.ending?] at hend
    cases hend

theorem Orderly.sends {t : Token τ} {r : Routine ι τ ω}
    (h : Orderly states text first n emitted answers p) (hp : p.producer = .sending t r) :
    ∃ more p', Exchange states p [] more p' ∧ p'.machine = p.machine.close ∧
      p'.producer = .running r := by
  obtain ⟨more, p₁, hroom, hm, hp₁, hk, hch⟩ := h.room (by rw [hp, Producer.ending?])
  rw [hp] at hp₁
  have hnone : p₁.emitting = none := by rw [emitting, hp₁]
  have hstep : p₁.produce states =
      some ({ p₁ with channel := some (.token t) }.resume p₁.machine.close r) := by
    simp [Pipeline.produce, hp₁, hk, hch]
  have hsent := hroom.produce hstep
  rw [hnone] at hsent
  exact ⟨more, _, hsent, congrArg Machine.close hm, rfl⟩

theorem Orderly.reports {e : LexError} (h : Orderly states text first n emitted answers p)
    (hp : p.producer = .reporting e) :
    ∃ more p', Exchange states p [] more p' ∧ p'.machine = p.machine ∧
      p'.producer = .leaving (.failed e) := by
  obtain ⟨more, p₁, hroom, hm, hp₁, hk, hch⟩ := h.room (by rw [hp, Producer.ending?])
  rw [hp] at hp₁
  have hnone : p₁.emitting = none := by rw [emitting, hp₁]
  have hstep : p₁.produce states =
      some ({ p₁ with channel := some (.fatal e) }.finish (.failed e)) := by
    simp [Pipeline.produce, hp₁, hk, hch]
  have hsent := hroom.produce hstep
  rw [hnone] at hsent
  exact ⟨more, _, hsent, hm, rfl⟩

theorem emitting_congr (hm : q.machine = p.machine) (hp : q.producer = p.producer) :
    q.emitting = p.emitting := by
  unfold emitting
  rw [hp, hm]

theorem follows_advance {r : Routine ι τ ω} (h : Orderly states text first n emitted answers p)
    (hm : q.machine = p.machine) (hp : p.producer = .running r) :
    ∃ more p', Exchange states p p.emitting.toList more p' ∧ Follows p' (q.advance states r) := by
  obtain ⟨m, producer, disconnected, channel, consumer, joined, err, journal⟩ := q
  dsimp only at hm
  subst hm
  have hx : Exchange states p p.emitting.toList [] (p.advance states r) :=
    .produce .start (by simp only [Pipeline.produce, hp])
  cases r with
  | read k | peek k | backup k | dropSpan k | view k | note w k | stop | fail e | panic =>
    exact ⟨[], _, hx, rfl, .inl rfl⟩
  | emit tag k =>
    have hmachine : (p.advance states (.emit tag k)).machine = p.machine := by
      simp [advance, record, h.connected]
    have hsending : (p.advance states (.emit tag k)).producer =
        .sending (p.machine.token tag) k := by
      simp [advance, record, h.connected]
    cases disconnected with
    | false => exact ⟨[], _, hx, hmachine.symm, .inl hsending.symm⟩
    | true =>
      -- The consumer takes a token if need be, so that this one gets into the channel.
      obtain ⟨k', ho⟩ := hx.orderly h
      obtain ⟨more, p', hx', hm', hp'⟩ := ho.sends hsending
      rw [hmachine] at hm'
      exact ⟨more, p', by simpa using hx.trans hx', hm'.symm, .inl hp'.symm⟩
  | goto i =>
    cases disconnected with
    | false =>
      have hentered : p.advance states (.goto i) = p.resume p.machine (states i) := by
        simp [advance, h.connected]
      rw [hentered] at hx
      exact ⟨[], _, hx, rfl, .inl rfl⟩
    | true =>
      have hnone : p.emitting = none := by rw [emitting, hp]
      rw [hnone]
      exact ⟨[], p, .start, rfl, .inr ⟨rfl, rfl, i, hp⟩⟩

/-- What the producer does without a consumer, it can do beside one who takes the tokens. -/
theorem Follows.produce (hf : Follows p q) (h : Orderly states text first n emitted answers p)
    (hc : q.consumer = .dropped) (hq : q.produce states = some q') :
    ∃ more p', Exchange states p q.emitting.toList more p' ∧ Follows p' q' := by
  obtain ⟨hm, hp | ⟨hd, hend, i, hp⟩⟩ := hf
  · rw [emitting_congr hm hp]
    rw [Pipeline.produce, hp] at hq
    cases hr : p.producer with
    | running r =>
      simp only [hr, Option.some.injEq] at hq
      rw [← hq]
      exact follows_advance h hm hr
    | sending t r =>
      simp only [hr, hc, if_true, Option.some.injEq] at hq
      have hnone : p.emitting = none := by rw [emitting, hr]
      obtain ⟨more, p', hx, hm', hp'⟩ := h.sends hr
      rw [hnone, ← hq]
      exact ⟨more, p', hx, (congrArg Machine.close hm).trans hm'.symm, .inl hp'.symm⟩
    | reporting e =>
      simp only [hr, hc, if_true, Option.some.injEq] at hq
      have hnone : p.emitting = none := by rw [emitting, hr]
      obtain ⟨more, p', hx, hm', hp'⟩ := h.reports hr
      rw [hnone, ← hq]
      exact ⟨more, p', hx, hm.trans hm'.symm, .inl hp'.symm⟩
    | leaving how =>
      simp only [hr, Option.some.injEq] at hq
      have hstep : p.produce states = some { p with producer := .closed how } := by
        simp only [Pipeline.produce, hr]
      rw [← hq]
      exact ⟨[], _, .produce .start hstep, hm, .inl rfl⟩
    | closed how =>
      simp only [hr, Option.some.injEq] at hq
      have hstep : p.produce states = some { p with producer := .ended how } := by
        simp only [Pipeline.produce, hr]
      rw [← hq]
      exact ⟨[], _, .produce .start hstep, hm, .inl rfl⟩
    | ended how => simp [hr] at hq
  · -- It has stopped instead of entering the state, and only its end is left.
    cases hr : q.producer with
    | running r | sending t r | reporting e => simp [hr, Producer.ending?] at hend
    | leaving how | closed how =>
      have hnone : q.emitting = none := by rw [emitting, hr]
      simp only [Pipeline.produce, hr, Option.some.injEq] at hq
      rw [hr] at hend
      rw [hnone, ← hq]
      exact ⟨[], p, .start, hm, .inr ⟨hd, hend, i, hp⟩⟩
    | ended how => simp [Pipeline.produce, hr] at hq

theorem Abandoned.follows (h : Orderly states text first n emitted answers p)
    (ha : Abandoned states p.drop discarded started q) :
    ∃ more p', Exchange states p discarded more p' ∧ Follows p' q := by
  induction ha with
  | start => exact ⟨[], p, .start, rfl, .inl rfl⟩
  | produce ha hp ih =>
    obtain ⟨more, p', hx, hf⟩ := ih
    obtain ⟨k, ho⟩ := hx.orderly h
    obtain ⟨later, p'', hx', hf'⟩ := hf.produce ho (ha.unheard rfl).1 hp
    exact ⟨more ++ later, p'', hx.trans hx', hf'⟩

/-- In every run in which the consumer goes away, the two sides take turns up to then, and the
producer goes on alone. -/
theorem Run.abandoned {spans : List (Closed τ)} (h : Run states text first spans answers q) :
    (∃ emitted, Exchange states (.start text (states first)) emitted answers q) ∨
    q.consumer = .dropped ∧ ∃ emitted p discarded started,
      Exchange states (.start text (states first)) emitted answers p ∧ p.consumer = .idle ∧
      Abandoned states p.drop discarded started q := by
  induction h with
  | start => exact .inl ⟨[], .start⟩
  | produce _ hp ih =>
    obtain ⟨emitted, hx⟩ | ⟨hc, emitted, p, discarded, started, hx, hi, ha⟩ := ih
    · exact .inl ⟨_, hx.produce hp⟩
    · exact .inr ⟨(unheard_of_produce hc hp).consumer, emitted, p, _, _, hx, hi, ha.produce hp⟩
  | consume _ hp ih =>
    obtain ⟨emitted, hx⟩ | ⟨hc, -⟩ := ih
    · exact .inl ⟨emitted, hx.consume hp⟩
    · simp [Pipeline.consume, hc] at hp
  | ask _ hi ih =>
    obtain ⟨emitted, hx⟩ | ⟨hc, -⟩ := ih
    · exact .inl ⟨emitted, hx.ask hi⟩
    · simp [hc] at hi
  | @drop _ _ p _ hi ih =>
    obtain ⟨emitted, hx⟩ | ⟨hc, -⟩ := ih
    · exact .inr ⟨rfl, emitted, p, [], [], hx, hi, .start⟩
    · simp [hc] at hi

/-- The consumer goes away at any moment. What it has taken are the first of the tokens emitted so
far. From then on the producer never waits, and nothing gets into the channel. Beside a consumer who
goes on taking tokens it would have the same machine after the same calls, and emit what it now
discards. When it has been in the middle of an emission, or has begun one since, no further state is
entered, and it comes to its end. -/
theorem drop_stops_producer
    (h : Exchange states (.start text (states first)) emitted answers p)
    (ha : Abandoned states p.drop discarded started q) :
    answers.reduceOption <+: emitted ∧
    (∃ more p', Exchange states p discarded more p' ∧ Follows p' q) ∧
    (q.produce states = none → q.hasEnded = true) ∧ q.channel = none ∧
    (p.held.toList ++ discarded ≠ [] → Ends states q ∧
      ∀ discarded' started' q', Abandoned states q discarded' started' q' → started' = []) := by
  obtain ⟨n, ho⟩ := h.orderly_start
  obtain ⟨hc, hch⟩ := ha.unheard rfl
  refine ⟨⟨p.inFlight, ho.flow⟩, ha.follows ho, hasEnded_of_produce hc, hch, fun hne => ?_⟩
  have hr : q.Refused := by
    by_cases hd : discarded = []
    · rw [hd, List.append_nil] at hne
      have hheld : p.drop.Refused := .inr (by cases hp : p.held <;> simp_all [held, drop])
      exact (ha.refused rfl hheld).1
    · exact ha.refused_of_discarded rfl hd
  exact ⟨hr.ends hc, fun _ _ _ ha' => (ha'.refused hc hr).2⟩

/-- A state that publishes two characters, and goes on to itself. -/
def pairs : Unit → Routine Unit Unit Empty
  | () => .read fun _ => .emit () <| .read fun _ => .emit () <| .goto ()

def letter (c : Char) (i : Nat) : Token Unit := ⟨(), String.ofList [c], 1, i, 1⟩

/-- The consumer has taken one token, the next one is in the channel, and the one after it waits. -/
def blocked : Pipeline Unit Unit Empty where
  machine := ⟨['c', 'b', 'a'], ['d', 'e'], 2, 3, [1], 1⟩
  producer := .sending (letter 'c' 2) (.read fun _ => .emit () <| .goto ())
  disconnected := false
  channel := some (.token (letter 'b' 1))
  consumer := .idle
  joined := false
  err := none
  journal := [.emitted 2 1, .emitted 1 1, .emitted 0 1, .started 5]

/-- The consumer goes away. The token that waits is discarded, and so is the second one of the
state, which is not entered again. -/
theorem pairs_stopped : ∃ q,
    Exchange pairs (.start ['a', 'b', 'c', 'd', 'e'] (pairs ()))
      [letter 'a' 0, letter 'b' 1, letter 'c' 2] [some (letter 'a' 0)] blocked ∧
    blocked.produce pairs = none ∧ Abandoned pairs blocked.drop [letter 'd' 3] [] q ∧
    [letter 'a' 0] <+: [letter 'a' 0, letter 'b' 1, letter 'c' 2] ∧
    (∃ more p', Exchange pairs blocked [letter 'd' 3] more p' ∧ Follows p' q) ∧ Ends pairs q ∧
    ∀ discarded started q', Abandoned pairs q discarded started q' → started = [] := by
  have initial : Exchange pairs (.start ['a', 'b', 'c', 'd', 'e'] (pairs ())) [] [] _ := .start
  have first := initial.produce rfl |>.produce rfl |>.produce rfl |>.ask rfl |>.consume rfl
  have second := first.produce rfl |>.produce rfl |>.produce rfl |>.produce rfl
  have third : Exchange pairs (.start ['a', 'b', 'c', 'd', 'e'] (pairs ()))
      [letter 'a' 0, letter 'b' 1, letter 'c' 2] [some (letter 'a' 0)] blocked :=
    second.produce rfl |>.produce rfl
  have dropped : Abandoned pairs blocked.drop [] [] blocked.drop := .start
  have fourth : Abandoned pairs blocked.drop [letter 'd' 3] [] _ :=
    dropped.produce rfl |>.produce rfl |>.produce rfl
  obtain ⟨htaken, hsame, -, -, hends⟩ := drop_stops_producer third fourth
  obtain ⟨hend, hstop⟩ := hends (by simp)
  exact ⟨_, third, rfl, fourth, htaken, hsame, hend, hstop⟩

end Descent.Pipeline
