import Descent.Lexer.Machine

/-!
# Calls on a lexing machine: `Machine`

What a machine keeps while a state calls it, in any order. `Places` cuts the text of a machine in
three, and says of the offsets, the widths and the line of the machine how they follow from the
parts. Every call keeps it (`Cut.call`), so it holds after all calls (`cut_run`).

A step back leads to the machine as it was before the latest read that has not been undone:
`undoable` collects these machines along the calls, and `backup_run` is the statement.
-/

namespace Descent

/-- A call that a state makes on its machine. -/
inductive Call (τ : Type)
  | read
  | peek
  | backup
  /-- Publish the pending text. -/
  | emit (tag : τ)
  /-- Drop the pending text. -/
  | dropSpan

namespace Machine

variable {τ : Type}

def call : Call τ → Machine → Machine
  | .read, m => m.read.2
  | .peek, m => m.peek.2
  | .backup, m => m.backup
  | .emit _, m => m.close
  | .dropSpan, m => m.close

/-- The machine after some calls, of which the latest comes first. -/
def run (text : List Char) : List (Call τ) → Machine
  | [] => ofText text
  | call :: earlier => (run text earlier).call call

/-! ## Undoing reads -/

/-- The machines before the reads that have not been undone since a span was closed, latest
first. -/
def undoable (text : List Char) : List (Call τ) → List Machine
  | [] => []
  | .read :: earlier => run text earlier :: undoable text earlier
  | .peek :: earlier => undoable text earlier
  | .backup :: earlier => (undoable text earlier).tail
  | .emit _ :: _ | .dropSpan :: _ => []

section

variable {m : Machine} {widths : List Nat}

theorem backup_of_widths_nil (h : m.widths = []) : m.backup = m := by
  unfold backup
  rw [h]

theorem backup_of_widths_zero (h : m.widths = 0 :: widths) :
    m.backup = { m with widths := widths } := by
  unfold backup
  rw [h]
  rfl

theorem backup_of_widths_pos {w : Nat} {c : Char} {rest : List Char} (h : m.widths = w :: widths)
    (hw : 0 < w) (hb : m.before = c :: rest) :
    m.backup =
      { m with
        before := rest
        after := c :: m.after
        pos := m.pos - w
        widths := widths
        line := if c = '\n' then m.line - 1 else m.line } := by
  obtain ⟨k, rfl⟩ := Nat.exists_eq_add_of_lt hw
  unfold backup
  rw [h, hb]
  rfl

end

/-- Going back after a read leads to the same machine, also at the end of the text. -/
theorem backup_read (m : Machine) : m.read.2.backup = m := by
  obtain ⟨before, after, start, pos, widths, line⟩ := m
  cases after with
  | nil => rfl
  | cons c rest =>
    unfold read
    rw [backup_of_widths_pos rfl c.utf8Size_pos rfl]
    by_cases hc : c = '\n'
    · simp [hc]
    · simp [hc]

theorem peek_eq (m : Machine) : m.peek = (m.after.head?, m) := by
  have hb : m.peek = (m.read.1, m.read.2.backup) := rfl
  rw [hb, backup_read]
  unfold read
  cases m.after with
  | nil => rfl
  | cons c rest => rfl

/-- Steps back from `m` lead to the machines of the list, one after the other, and then nowhere. -/
inductive Undoes : Machine → List Machine → Prop
  | none {m} : m.widths = [] → Undoes m []
  | one {m earlier rest} : m.backup = earlier → Undoes earlier rest → Undoes m (earlier :: rest)

theorem undoes_run (text : List Char) :
    ∀ calls : List (Call τ), Undoes (run text calls) (undoable text calls)
  | [] => .none rfl
  | .read :: earlier => .one (backup_read _) (undoes_run text earlier)
  | .peek :: earlier => by
    have h := undoes_run text earlier
    show Undoes (run text earlier).peek.2 (undoable text earlier)
    rwa [peek_eq]
  | .backup :: earlier => by
    show Undoes (run text earlier).backup (undoable text earlier).tail
    have h := undoes_run text earlier
    generalize undoable text earlier = stack at h ⊢
    cases h with
    | none hw =>
      rw [backup_of_widths_nil hw]
      exact .none hw
    | one hb hu =>
      rw [hb]
      exact hu
  | .emit _ :: _ => .none rfl
  | .dropSpan :: _ => .none rfl

/-- A step back undoes the latest read that has not been undone, and nothing if there is none. -/
theorem backup_run (text : List Char) (calls : List (Call τ)) :
    (run text calls).backup = (undoable text calls).headD (run text calls) := by
  have h := undoes_run text calls
  generalize undoable text calls = stack at h ⊢
  cases h with
  | none hw => exact backup_of_widths_nil hw
  | one hb _ => exact hb

/-! ## The parts of the text -/

/-- `closed` lies in spans that have been closed, `pending` has been read since, `rest` lies ahead;
the latest `ends` reads have met the end of the text. -/
structure Places (m : Machine) (closed pending rest : List Char) (ends : Nat) : Prop where
  before : m.before = (closed ++ pending).reverse
  after : m.after = rest
  start : m.start = Text.width closed
  pos : m.pos = Text.width (closed ++ pending)
  widths : m.widths.reverse = pending.map Char.utf8Size ++ List.replicate ends 0
  ends : ends ≠ 0 → rest = []
  line : m.line = 1 + Text.breaks (closed ++ pending)

variable {m : Machine} {closed pending rest : List Char} {c : Char} {ends : Nat}

theorem places_ofText (text : List Char) : (ofText text).Places [] [] text 0 where
  before := rfl
  after := rfl
  start := rfl
  pos := rfl
  widths := rfl
  ends h := absurd rfl h
  line := rfl

theorem Places.read_end (h : m.Places closed pending [] ends) :
    m.read.1 = none ∧ m.read.2.Places closed pending [] (ends + 1) := by
  have hr : m.read = (none, { m with widths := 0 :: m.widths }) := by
    unfold read
    rw [h.after]
  rw [hr]
  refine ⟨rfl, h.before, h.after, h.start, h.pos, ?_, fun _ => rfl, h.line⟩
  rw [List.reverse_cons, h.widths, List.append_assoc, List.replicate_succ']

theorem Places.read_char (h : m.Places closed pending (c :: rest) ends) :
    m.read.1 = some c ∧ m.read.2.Places closed (pending ++ [c]) rest 0 := by
  have hends : ends = 0 := by
    by_cases hne : ends = 0
    · exact hne
    · exact absurd (h.ends hne) (by simp)
  have hw : m.widths.reverse = pending.map Char.utf8Size := by
    rw [h.widths, hends]
    simp
  unfold read
  rw [h.after]
  refine ⟨rfl, ?_, rfl, h.start, ?_, ?_, fun hne => absurd rfl hne, ?_⟩
  · simp [h.before]
  · simp [h.pos, Nat.add_assoc]
  · simp [hw]
  · by_cases hc : c = '\n'
    · simp [h.line, hc]
      omega
    · simp [h.line, hc]

theorem Places.widths_nil (h : m.Places closed [] rest 0) : m.widths = [] := by
  have hw := h.widths
  simpa using hw

theorem Places.widths_end (h : m.Places closed pending rest (ends + 1)) :
    m.widths = 0 :: (pending.map Char.utf8Size ++ List.replicate ends 0).reverse := by
  rw [← List.reverse_inj, h.widths, List.reverse_cons, List.reverse_reverse, List.append_assoc,
    List.replicate_succ']

theorem Places.widths_char (h : m.Places closed (pending ++ [c]) rest 0) :
    m.widths = c.utf8Size :: (pending.map Char.utf8Size).reverse := by
  rw [← List.reverse_inj, h.widths]
  simp

theorem Places.before_char (h : m.Places closed (pending ++ [c]) rest ends) :
    m.before = c :: (closed ++ pending).reverse := by
  rw [h.before]
  simp

/-- Back over a read that has met the end of the text. -/
theorem Places.backup_end (h : m.Places closed pending rest (ends + 1)) :
    m.backup.Places closed pending rest ends := by
  rw [backup_of_widths_zero h.widths_end]
  refine ⟨h.before, h.after, h.start, h.pos, ?_, fun _ => h.ends (by omega), h.line⟩
  simp

/-- Back over a character. -/
theorem Places.backup_char (h : m.Places closed (pending ++ [c]) rest 0) :
    m.backup.Places closed pending (c :: rest) 0 := by
  rw [backup_of_widths_pos h.widths_char c.utf8Size_pos h.before_char]
  refine ⟨rfl, ?_, h.start, ?_, ?_, fun hne => absurd rfl hne, ?_⟩
  · simp [h.after]
  · simp [h.pos]
    omega
  · simp
  · by_cases hc : c = '\n'
    · simp [h.line, hc]
      omega
    · simp [h.line, hc]

theorem Places.close (h : m.Places closed pending rest ends) :
    m.close.Places (closed ++ pending) [] rest 0 where
  before := by simp [Machine.close, h.before]
  after := h.after
  start := h.pos
  pos := by simp [Machine.close, h.pos]
  widths := rfl
  ends hne := absurd rfl hne
  line := by simp [Machine.close, h.line]

/-- The pending text is what has been read since a span was closed. -/
theorem Places.body (h : m.Places closed pending rest ends) : m.body = String.ofList pending := by
  have hcount : (m.widths.filter (· ≠ 0)).length = pending.length := by
    have hf : m.widths.reverse.filter (· ≠ 0) = pending.map Char.utf8Size := by
      rw [h.widths, List.filter_append]
      have hp : (pending.map Char.utf8Size).filter (· ≠ 0) = pending.map Char.utf8Size := by
        rw [List.filter_eq_self]
        intro w hw
        obtain ⟨x, -, rfl⟩ := List.mem_map.1 hw
        simp [Nat.ne_of_gt x.utf8Size_pos]
      have he : (List.replicate ends 0).filter (· ≠ 0) = [] := by simp
      rw [hp, he, List.append_nil]
    rw [← List.length_reverse, ← List.filter_reverse, hf, List.length_map]
  unfold Machine.body
  rw [hcount, h.before, List.reverse_append, List.take_left' (by simp), List.reverse_reverse]

/-- The text is cut where the machine says, with `closed` in front. -/
def Cut (text closed : List Char) (m : Machine) : Prop :=
  ∃ pending rest ends, text = closed ++ pending ++ rest ∧ m.Places closed pending rest ends

section

variable {text : List Char}

theorem Cut.read (h : Cut text closed m) : Cut text closed m.read.2 := by
  obtain ⟨pending, rest, ends, rfl, h⟩ := h
  cases rest with
  | nil => exact ⟨pending, [], ends + 1, rfl, h.read_end.2⟩
  | cons c rest =>
    refine ⟨pending ++ [c], rest, 0, ?_, h.read_char.2⟩
    simp

theorem Cut.backup (h : Cut text closed m) : Cut text closed m.backup := by
  obtain ⟨pending, rest, ends, rfl, h⟩ := h
  cases ends with
  | succ ends => exact ⟨pending, rest, ends, rfl, h.backup_end⟩
  | zero =>
    rcases List.eq_nil_or_concat pending with rfl | ⟨init, c, rfl⟩
    · rw [backup_of_widths_nil h.widths_nil]
      exact ⟨[], rest, 0, rfl, h⟩
    · rw [List.concat_eq_append] at h ⊢
      refine ⟨init, c :: rest, 0, ?_, h.backup_char⟩
      simp

theorem Cut.peek (h : Cut text closed m) : Cut text closed m.peek.2 := by
  rw [peek_eq]
  exact h

theorem Places.cut_close (h : m.Places closed pending rest ends) :
    Cut (closed ++ pending ++ rest) (closed ++ pending) m.close :=
  ⟨[], rest, 0, by simp, h.close⟩

/-- A call either leaves what is closed as it is or adds all that is pending to it. -/
theorem Cut.call (h : Cut text closed m) (call : Call τ) :
    ∃ closed', Cut text closed' (m.call call) := by
  cases call with
  | read => exact ⟨closed, h.read⟩
  | peek => exact ⟨closed, h.peek⟩
  | backup => exact ⟨closed, h.backup⟩
  | emit tag =>
    obtain ⟨pending, rest, ends, rfl, h⟩ := h
    exact ⟨closed ++ pending, h.cut_close⟩
  | dropSpan =>
    obtain ⟨pending, rest, ends, rfl, h⟩ := h
    exact ⟨closed ++ pending, h.cut_close⟩

end

theorem cut_run (text : List Char) :
    ∀ calls : List (Call τ), ∃ closed, Cut text closed (run text calls)
  | [] => ⟨[], [], text, 0, rfl, places_ofText text⟩
  | call :: earlier => by
    obtain ⟨closed, h⟩ := cut_run text earlier
    exact h.call call

end Machine
end Descent
