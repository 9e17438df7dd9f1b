import Descent.Lexer.Pipeline
import Descent.Proofs.Tiling

/-!
# Runs of a pipeline

`Pipeline.Run` is every way for the two sides to take turns, with the consumer asking and leaving
as it likes; it keeps the spans that have been closed and the answers of the consumer. Apart from
closing spans, the producer does to its machine what a state calls (`Run.calls`), so what holds
after all calls holds in all runs: `spans_tile`.
-/

namespace Descent.Pipeline

variable {ι τ ω : Type}

/-- The span that the next step of the producer closes. Without a consumer a token is discarded at
once; otherwise its span is closed when the token is in the channel. -/
def closing (p : Pipeline ι τ ω) : Option (Closed τ) :=
  match p.producer with
  | .running (.emit tag _) => if p.disconnected then some (.token (p.machine.token tag)) else none
  | .running (.dropSpan _) => some (.dropped p.machine.start p.machine.pos)
  | .sending t _ => some (.token t)
  | _ => none

/-- Runs from the start of a text in a state: the spans that have been closed, the answers that the
consumer has been given, both first one first, and the pipeline. -/
inductive Run (states : ι → Routine ι τ ω) (text : List Char) (first : ι) :
    List (Closed τ) → List (Option (Token τ)) → Pipeline ι τ ω → Prop
  | start : Run states text first [] [] (.start text (states first))
  | produce {spans answers p p'} : Run states text first spans answers p →
      p.produce states = some p' → Run states text first (spans ++ p.closing.toList) answers p'
  | consume {spans answers p answer p'} : Run states text first spans answers p →
      p.consume = some (answer, p') →
      Run states text first spans (answers ++ answer.toList) p'
  | ask {spans answers p} : Run states text first spans answers p → p.consumer = .idle →
      Run states text first spans answers p.ask
  | drop {spans answers p} : Run states text first spans answers p → p.consumer = .idle →
      Run states text first spans answers p.drop

variable {states : ι → Routine ι τ ω} {text : List Char} {first : ι} {p p' : Pipeline ι τ ω}

/-! ## Steps of the producer -/

/-- A token that waits for the channel is the pending text of the machine. -/
def Faithful (p : Pipeline ι τ ω) : Prop :=
  ∀ t r, p.producer = .sending t r → ∃ tag, t = p.machine.token tag

/-- What a step of the producer does to its machine and to the channel. -/
structure Produces (p p' : Pipeline ι τ ω) : Prop where
  machine : (p'.machine = p.machine ∧ p.closing = none) ∨
    ∃ call, p'.machine = p.machine.call call ∧ p.closing = p.machine.closing call
  channel : ∀ t, p'.channel = some (.token t) →
    p.channel = some (.token t) ∨ p.closing = some (.token t)
  faithful : p'.Faithful

theorem advance_produces {r : Routine ι τ ω} (h : p.producer = .running r) :
    p.Produces (p.advance states r) := by
  obtain ⟨m, producer, disconnected, channel, consumer, joined, err, journal⟩ := p
  change producer = .running r at h
  subst h
  cases r with
  | read k => exact ⟨.inr ⟨.read, rfl, rfl⟩, fun _ => .inl, nofun⟩
  | peek k => exact ⟨.inr ⟨.peek, rfl, rfl⟩, fun _ => .inl, nofun⟩
  | backup k => exact ⟨.inr ⟨.backup, rfl, rfl⟩, fun _ => .inl, nofun⟩
  | dropSpan k => exact ⟨.inr ⟨.dropSpan, rfl, rfl⟩, fun _ => .inl, nofun⟩
  | emit tag k =>
    cases disconnected with
    | true => exact ⟨.inr ⟨.emit tag, rfl, rfl⟩, fun _ => .inl, nofun⟩
    | false =>
      refine ⟨.inl ⟨rfl, rfl⟩, fun _ => .inl, fun t r ht => ⟨tag, ?_⟩⟩
      cases ht
      rfl
  | goto i => cases disconnected <;> exact ⟨.inl ⟨rfl, rfl⟩, fun _ => .inl, nofun⟩
  | view k => exact ⟨.inl ⟨rfl, rfl⟩, fun _ => .inl, nofun⟩
  | note w k => exact ⟨.inl ⟨rfl, rfl⟩, fun _ => .inl, nofun⟩
  | stop => exact ⟨.inl ⟨rfl, rfl⟩, fun _ => .inl, nofun⟩
  | fail e => exact ⟨.inl ⟨rfl, rfl⟩, fun _ => .inl, nofun⟩
  | panic => exact ⟨.inl ⟨rfl, rfl⟩, fun _ => .inl, nofun⟩

theorem produce_produces (hf : p.Faithful) (h : p.produce states = some p') : p.Produces p' := by
  cases hp : p.producer with
  | running r =>
    simp only [produce, hp, Option.some.injEq] at h
    rw [← h]
    exact advance_produces hp
  | sending t r =>
    obtain ⟨tag, rfl⟩ := hf t r hp
    have hc : p.closing = some (.token (p.machine.token tag)) := by rw [closing, hp]
    simp only [produce, hp] at h
    split at h
    · cases h
      exact ⟨.inr ⟨.emit tag, rfl, hc⟩, fun _ => .inl, nofun⟩
    · split at h
      · cases h
        refine ⟨.inr ⟨.emit tag, rfl, hc⟩, fun t ht => .inr ?_, nofun⟩
        cases ht
        exact hc
      · cases h
  | reporting e =>
    have hc : p.closing = none := by rw [closing, hp]
    simp only [produce, hp] at h
    split at h
    · cases h
      exact ⟨.inl ⟨rfl, hc⟩, fun _ => .inl, nofun⟩
    · split at h
      · cases h
        exact ⟨.inl ⟨rfl, hc⟩, nofun, nofun⟩
      · cases h
  | leaving how | closed how =>
    have hc : p.closing = none := by rw [closing, hp]
    simp only [produce, hp, Option.some.injEq] at h
    rw [← h]
    exact ⟨.inl ⟨rfl, hc⟩, fun _ => .inl, nofun⟩
  | ended how =>
    simp only [produce, hp] at h
    cases h

/-! ## Steps of the consumer -/

/-- What a step of the consumer leaves alone, and where its answer and the channel come from. -/
structure Consumes (p : Pipeline ι τ ω) (answer : Option (Option (Token τ)))
    (p' : Pipeline ι τ ω) : Prop where
  machine : p'.machine = p.machine
  producer : p'.producer = p.producer
  answer : ∀ t, answer = some (some t) → p.channel = some (.token t)
  channel : ∀ t, p'.channel = some (.token t) → p.channel = some (.token t)

theorem consume_consumes {answer : Option (Option (Token τ))}
    (h : p.consume = some (answer, p')) : p.Consumes answer p' := by
  cases hcons : p.consumer with
  | idle | dropped =>
    simp only [consume, hcons] at h
    cases h
  | waiting =>
    simp only [consume, hcons] at h
    cases hchan : p.channel with
    | none =>
      cases hprod : p.producer with
      | running r | sending t r | reporting e | leaving how =>
        simp only [hchan, hprod] at h
        cases h
      | closed how | ended how =>
        simp only [hchan, hprod, Option.some.injEq, Prod.mk.injEq] at h
        obtain ⟨rfl, rfl⟩ := h
        exact ⟨rfl, hprod.symm, nofun, nofun⟩
    | some message =>
      cases message with
      | token t =>
        simp only [hchan, Option.some.injEq, Prod.mk.injEq] at h
        obtain ⟨rfl, rfl⟩ := h
        refine ⟨rfl, rfl, ?_, nofun⟩
        rintro t' ⟨⟩
        exact hchan
      | fatal e =>
        simp only [hchan, Option.some.injEq, Prod.mk.injEq] at h
        obtain ⟨rfl, rfl⟩ := h
        exact ⟨rfl, rfl, nofun, nofun⟩
  | joining =>
    simp only [consume, hcons] at h
    cases hprod : p.producer with
    | running r | sending t r | reporting e | leaving how | closed how =>
      simp only [hprod] at h
      cases h
    | ended how =>
      simp only [hprod] at h
      split at h
      all_goals
        cases h
        exact ⟨rfl, hprod.symm, nofun, fun _ => id⟩

/-! ## Whole runs -/

variable {spans : List (Closed τ)} {answers : List (Option (Token τ))}

theorem Run.faithful (h : Run states text first spans answers p) : p.Faithful := by
  induction h with
  | start => exact nofun
  | produce _ hp ih => exact (produce_produces ih hp).faithful
  | consume _ hc ih =>
    have hstep := consume_consumes hc
    rwa [Faithful, hstep.producer, hstep.machine]
  | ask _ _ ih => exact ih
  | drop _ _ ih => exact ih

/-- In every run the machine is one that some calls have led to, which have closed the spans of
the run. -/
theorem Run.calls (h : Run states text first spans answers p) :
    ∃ calls : List (Call τ),
      p.machine = Machine.run text calls ∧ spans = Machine.spans text calls := by
  induction h with
  | start => exact ⟨[], rfl, rfl⟩
  | produce hrun hp ih =>
    obtain ⟨calls, hm, hs⟩ := ih
    rcases (produce_produces hrun.faithful hp).machine with ⟨hm', hc⟩ | ⟨call, hm', hc⟩
    · refine ⟨calls, hm'.trans hm, ?_⟩
      rw [hc, hs, Option.toList_none, List.append_nil]
    · refine ⟨call :: calls, ?_, ?_⟩
      · rw [hm', hm]
        rfl
      · rw [hc, hs, hm]
        rfl
  | consume _ hc ih =>
    rw [(consume_consumes hc).machine]
    exact ih
  | ask _ _ ih => exact ih
  | drop _ _ ih => exact ih

/-- The consumer has only been given tokens whose spans have been closed. -/
theorem Run.given (h : Run states text first spans answers p) :
    (∀ t, some t ∈ answers → .token t ∈ spans) ∧
      ∀ t, p.channel = some (.token t) → .token t ∈ spans := by
  induction h with
  | start => exact ⟨nofun, nofun⟩
  | produce hrun hp ih =>
    have hstep := produce_produces hrun.faithful hp
    refine ⟨fun t ht => List.mem_append_left _ (ih.1 t ht), fun t ht => ?_⟩
    rcases hstep.channel t ht with hc | hc
    · exact List.mem_append_left _ (ih.2 t hc)
    · rw [hc]
      exact List.mem_append_right _ (List.mem_singleton_self _)
  | consume _ hc ih =>
    have hstep := consume_consumes hc
    refine ⟨fun t ht => ?_, fun t ht => ih.2 t (hstep.channel t ht)⟩
    rcases List.mem_append.1 ht with ht | ht
    · exact ih.1 t ht
    · exact ih.2 t (hstep.answer t (Option.mem_toList.1 ht))
  | ask _ _ ih => exact ih
  | drop _ _ ih => exact ⟨ih.1, nofun⟩

/-- In every run the spans that have been closed tile the text from its start up to the start of
the pending text. A token, also one that the consumer has been given, carries the text between its
boundaries and the line where it ends. Once nothing is left to close, the spans together are the
whole text. -/
theorem spans_tile (h : Run states text first spans answers p) :
    Contiguous 0 spans p.machine.start ∧
    Text.slice? text 0 p.machine.start = some (spans.flatMap (Closed.body text)) ∧
    (∀ s ∈ spans, Text.slice? text s.start s.stop = some (s.body text)) ∧
    (∀ t, .token t ∈ spans → ∃ upTo,
      Text.slice? text 0 (t.start + t.span) = some upTo ∧ t.line = 1 + Text.breaks upTo) ∧
    (∀ t, some t ∈ answers → .token t ∈ spans) ∧
    (p.machine.start = Text.width text → spans.flatMap (Closed.body text) = text) := by
  obtain ⟨calls, hm, rfl⟩ := h.calls
  obtain ⟨closed, hcut, htiles⟩ := Machine.tiles_run text calls
  rw [← hm] at hcut
  refine ⟨?_, ?_, htiles.slices, htiles.lines, h.given.1, fun hend => ?_⟩
  · rw [hcut.start]
    exact htiles.contiguous
  · rw [htiles.bodies]
    exact hcut.slice
  · rw [htiles.bodies]
    exact hcut.whole hend

/-- A state that publishes two words. Between them it steps back over a line feed and, after it has
dropped the line feed, steps back once too often. -/
def twoWords : Routine Unit Bool Unit :=
  .read fun _ => .read fun _ => .backup <| .emit true <|
  .read fun _ => .dropSpan <| .backup <|
  .read fun _ => .emit true .stop

def firstWord : Token Bool := ⟨true, String.ofList ['é'], 1, 0, 2⟩

def secondWord : Token Bool := ⟨true, String.ofList ['b'], 2, 3, 1⟩

theorem twoWords_tile : ∃ p,
    Run (fun _ => twoWords) ['é', '\n', 'b'] ()
      [.token firstWord, .dropped 2 3, .token secondWord] [some firstWord] p ∧
    Contiguous 0 [.token firstWord, .dropped 2 3, .token secondWord] p.machine.start ∧
    [.token firstWord, .dropped 2 3, .token secondWord].flatMap
      (Closed.body ['é', '\n', 'b']) = ['é', '\n', 'b'] := by
  have initial : Run (fun _ => twoWords) ['é', '\n', 'b'] () [] [] _ := .start
  have first := initial.produce rfl |>.produce rfl |>.produce rfl |>.produce rfl |>.produce rfl
  have second := first.produce rfl |>.produce rfl |>.produce rfl |>.produce rfl |>.produce rfl
  -- The second word waits until the consumer has taken the first one.
  have taken := second.ask rfl |>.consume rfl
  have done := taken.produce rfl |>.produce rfl
  obtain ⟨hcontiguous, -, -, -, -, hwhole⟩ := spans_tile done
  exact ⟨_, done, hcontiguous, hwhole rfl⟩

end Descent.Pipeline
