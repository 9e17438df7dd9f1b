import Descent.Proofs.Calls

/-!
# The spans that a machine closes: `Machine::emit` / `Machine::drop_span`

A span is closed as a token or dropped. Whatever a state calls, the spans that have been closed so
far, one after the other, cover the text up to the start of the pending text: `Tiles` says so, and
`tiles_run` that it holds after all calls.
-/

namespace Descent

variable {τ : Type}

/-- A span that has been closed. -/
inductive Closed (τ : Type)
  | token (t : Token τ)
  | dropped (start stop : Nat)

namespace Closed

def start : Closed τ → Nat
  | token t => t.start
  | dropped start _ => start

def stop : Closed τ → Nat
  | token t => t.start + t.span
  | dropped _ stop => stop

/-- A token has its own text; that of a dropped span is what lies in `text` between its ends. -/
def body (text : List Char) : Closed τ → List Char
  | token t => t.body.toList
  | dropped start stop => (Text.slice? text start stop).getD []

/-- The span lies after `closed` and its text is `pending`. -/
structure Covers (text closed pending : List Char) (s : Closed τ) : Prop where
  start : s.start = Text.width closed
  stop : s.stop = Text.width (closed ++ pending)
  body : s.body text = pending
  line : ∀ t, s = token t → t.line = 1 + Text.breaks (closed ++ pending)

end Closed

/-- Each span starts where the one before it ends, from `lo` to `hi`. -/
def Contiguous : (lo : Nat) → List (Closed τ) → (hi : Nat) → Prop
  | lo, [], hi => lo = hi
  | lo, s :: spans, hi => s.start = lo ∧ Contiguous s.stop spans hi

theorem contiguous_concat {s : Closed τ} :
    ∀ {lo hi : Nat} {spans : List (Closed τ)}, Contiguous lo spans hi → s.start = hi →
      Contiguous lo (spans ++ [s]) s.stop
  | _, _, [], h, hs => ⟨hs.trans h.symm, rfl⟩
  | _, _, _ :: _, h, hs => ⟨h.1, contiguous_concat h.2 hs⟩

/-- The spans cover `closed`, the first part of `text`, and what they say is true of it. -/
structure Tiles (text closed : List Char) (spans : List (Closed τ)) : Prop where
  contiguous : Contiguous 0 spans (Text.width closed)
  bodies : spans.flatMap (Closed.body text) = closed
  slices : ∀ s ∈ spans, Text.slice? text s.start s.stop = some (s.body text)
  lines : ∀ t, Closed.token t ∈ spans → ∃ upTo,
    Text.slice? text 0 (t.start + t.span) = some upTo ∧ t.line = 1 + Text.breaks upTo

theorem tiles_nil (text : List Char) : Tiles (τ := τ) text [] [] where
  contiguous := rfl
  bodies := rfl
  slices := by simp
  lines := by simp

/-- One more span, which covers what comes next. -/
theorem Tiles.concat {closed pending rest : List Char} {spans : List (Closed τ)} {s : Closed τ}
    (h : Tiles (closed ++ pending ++ rest) closed spans)
    (hs : s.Covers (closed ++ pending ++ rest) closed pending) :
    Tiles (closed ++ pending ++ rest) (closed ++ pending) (spans ++ [s]) where
  contiguous := by
    rw [← hs.stop]
    exact contiguous_concat h.contiguous hs.start
  bodies := by
    rw [List.flatMap_append, h.bodies, List.flatMap_singleton, hs.body]
  slices s' hs' := by
    rcases List.mem_append.1 hs' with hs' | hs'
    · exact h.slices s' hs'
    · rw [List.mem_singleton.1 hs', hs.start, hs.stop, hs.body]
      exact Text.slice?_append closed pending rest
  lines t ht := by
    rcases List.mem_append.1 ht with ht | ht
    · exact h.lines t ht
    · have hst : s = .token t := (List.mem_singleton.1 ht).symm
      have hstop : t.start + t.span = Text.width (closed ++ pending) := by
        rw [← hs.stop, hst]
        rfl
      refine ⟨closed ++ pending, ?_, hs.line t hst⟩
      rw [hstop]
      exact Text.slice?_append [] (closed ++ pending) rest

namespace Machine

/-- The span that a call closes. -/
def closing (m : Machine) : Call τ → Option (Closed τ)
  | .emit tag => some (.token (m.token tag))
  | .dropSpan => some (.dropped m.start m.pos)
  | .read | .peek | .backup => none

/-- The spans that some calls close, first one first. The latest call comes first. -/
def spans (text : List Char) : List (Call τ) → List (Closed τ)
  | [] => []
  | call :: earlier => spans text earlier ++ ((run text earlier).closing call).toList

variable {m : Machine} {text closed pending rest : List Char} {ends : Nat}

theorem Places.covers_token (h : m.Places closed pending rest ends) (tag : τ) :
    (Closed.token (m.token tag)).Covers text closed pending where
  start := h.start
  stop := by
    have hpos : m.start ≤ m.pos := by
      rw [h.start, h.pos, Text.width_append]
      omega
    show m.start + (m.pos - m.start) = _
    rw [Nat.add_sub_cancel' hpos, h.pos]
  body := by
    show m.body.toList = pending
    rw [h.body, String.toList_ofList]
  line t ht := by
    cases ht
    exact h.line

theorem Places.covers_dropped (h : m.Places closed pending rest ends) :
    (Closed.dropped (τ := τ) m.start m.pos).Covers (closed ++ pending ++ rest) closed pending where
  start := h.start
  stop := h.pos
  body := by
    show (Text.slice? _ m.start m.pos).getD [] = pending
    rw [h.start, h.pos, Text.slice?_append]
    rfl
  line t ht := by cases ht

/-- The spans end where the pending text of the machine starts. -/
def Tiled (text : List Char) (spans : List (Closed τ)) (m : Machine) : Prop :=
  ∃ closed, Cut text closed m ∧ Tiles text closed spans

theorem Tiled.call {spans : List (Closed τ)} (h : Tiled text spans m) (call : Call τ) :
    Tiled text (spans ++ (m.closing call).toList) (m.call call) := by
  obtain ⟨closed, hc, ht⟩ := h
  cases call with
  | read => exact ⟨closed, hc.read, by simpa [closing] using ht⟩
  | peek => exact ⟨closed, hc.peek, by simpa [closing] using ht⟩
  | backup => exact ⟨closed, hc.backup, by simpa [closing] using ht⟩
  | emit tag =>
    obtain ⟨pending, rest, ends, rfl, hp⟩ := hc
    exact ⟨closed ++ pending, hp.cut_close, ht.concat (hp.covers_token tag)⟩
  | dropSpan =>
    obtain ⟨pending, rest, ends, rfl, hp⟩ := hc
    exact ⟨closed ++ pending, hp.cut_close, ht.concat hp.covers_dropped⟩

theorem tiles_run (text : List Char) :
    ∀ calls : List (Call τ), Tiled text (spans text calls) (run text calls)
  | [] => ⟨[], ⟨[], text, 0, rfl, places_ofText text⟩, tiles_nil text⟩
  | call :: earlier => (tiles_run text earlier).call call

/-- What is closed is the text up to the start of the pending text. -/
theorem Cut.slice (h : Cut text closed m) : Text.slice? text 0 m.start = some closed := by
  obtain ⟨pending, rest, ends, rfl, h⟩ := h
  rw [h.start, List.append_assoc]
  exact Text.slice?_append [] closed (pending ++ rest)

theorem Cut.start (h : Cut text closed m) : m.start = Text.width closed := by
  obtain ⟨pending, rest, ends, -, h⟩ := h
  exact h.start

/-- With nothing left to close, everything is closed. -/
theorem Cut.whole (h : Cut text closed m) (hend : m.start = Text.width text) : closed = text := by
  have hs := h.slice
  rw [hend] at hs
  have hw := Text.slice?_append [] text []
  rw [List.nil_append, List.append_nil] at hw
  exact (Option.some.inj (hw.symm.trans hs)).symm

end Machine
end Descent
