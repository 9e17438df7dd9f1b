import Descent.Proofs.Calls
import Descent.Proofs.Emission

/-!
# Scanning: `Machine::read` / `Machine::peek` / `Machine::backup`

A state goes past the characters that a predicate holds for in one of two ways: it looks at the
next character before each read, or it reads and steps back over the first character that is too
much. At the end of the text the second way leaves a read behind that has met the end, so the two
machines need not be equal; `Places` tells them apart in that count alone.

Main theorem `Machine.scans_agree`: both loops end, past the same characters, and what is closed
after them is the same token and leaves the same machine.
-/

namespace Descent

variable {ι τ ω : Type} {p : Char → Bool}

namespace Machine

/-! ## Two loops -/

/-- Read while the next character is one that `p` holds for, looking before each step; none if the
loop is not over after so many rounds. -/
def readWhile (p : Char → Bool) : (rounds : Nat) → Machine → Option Machine
  | 0, _ => none
  | rounds + 1, m =>
    match m.peek with
    | (none, m) => some m
    | (some c, m) => if p c then readWhile p rounds m.read.2 else some m

/-- Read up to the first character that `p` does not hold for, and step back over it. -/
def readUntilFail (p : Char → Bool) : (rounds : Nat) → Machine → Option Machine
  | 0, _ => none
  | rounds + 1, m =>
    match m.read with
    | (none, m) => some m
    | (some c, m) => if p c then readUntilFail p rounds m else some m.backup

/-- `a` is `m` past the characters that come next and that `p` holds for, as far as they go. -/
structure Scanned (p : Char → Bool) (m a : Machine) : Prop where
  start : a.start = m.start
  pos : a.pos = m.pos + Text.width (m.after.takeWhile p)
  line : a.line = m.line + Text.breaks (m.after.takeWhile p)
  after : a.after = m.after.dropWhile p

variable {m a b : Machine} {closed pending rest : List Char} {ends ends' rounds : Nat}

theorem readWhile_succ (p : Char → Bool) (rounds : Nat) (m : Machine) :
    m.readWhile p (rounds + 1) =
      match m.after with
      | [] => some m
      | c :: _ => if p c then m.read.2.readWhile p rounds else some m := by
  rw [readWhile, peek_eq]
  cases m.after with
  | nil => rfl
  | cons c rest => rfl

theorem readUntilFail_succ (p : Char → Bool) (rounds : Nat) (m : Machine) :
    m.readUntilFail p (rounds + 1) =
      match m.after with
      | [] => some m.read.2
      | c :: _ => if p c then m.read.2.readUntilFail p rounds else some m := by
  -- the step back over the character that fails undoes its read
  have hback := backup_read m
  rw [readUntilFail]
  cases h : m.after with
  | nil => simp only [read, h]
  | cons c rest =>
    have hr : m.read = (some c, m.read.2) := by simp only [read, h]
    rw [hr]
    dsimp only
    rw [hback]

/-! ## Where they end -/

/-- Both loops decide by the next character alone and differ in what they do at the end of the
text. By induction on what lies ahead. -/
theorem Places.scan {loop : Nat → Machine → Option Machine} {atEnd : Machine → Machine}
    (hloop : ∀ rounds m, loop (rounds + 1) m =
      match m.after with
      | [] => some (atEnd m)
      | c :: _ => if p c then loop rounds m.read.2 else some m)
    (hend : ∀ {m pending ends}, m.Places closed pending [] ends →
      ∃ ends', (atEnd m).Places closed pending [] ends')
    (h : m.Places closed pending rest ends) :
    ∃ a ends', a.Places closed (pending ++ rest.takeWhile p) (rest.dropWhile p) ends' ∧
      ∀ rounds, rest.length < rounds → loop rounds m = some a := by
  induction rest generalizing m pending ends with
  | nil =>
    obtain ⟨ends', hp⟩ := hend h
    refine ⟨atEnd m, ends', by simpa using hp, fun rounds hr => ?_⟩
    obtain ⟨rounds, rfl⟩ := Nat.exists_eq_add_of_lt hr
    rw [hloop, h.after]
  | cons c rest ih =>
    cases hc : p c with
    | true =>
      obtain ⟨a, ends', hp, ha⟩ := ih h.read_char.2
      rw [List.takeWhile_cons_of_pos hc, List.dropWhile_cons_of_pos hc, List.append_cons]
      refine ⟨a, ends', hp, fun rounds hr => ?_⟩
      obtain ⟨rounds, rfl⟩ := Nat.exists_eq_add_of_lt hr
      rw [hloop, h.after]
      exact (if_pos hc).trans (ha _ (by simp only [List.length_cons]; omega))
    | false =>
      have hneg : ¬ p c = true := by simp [hc]
      rw [List.takeWhile_cons_of_neg hneg, List.dropWhile_cons_of_neg hneg, List.append_nil]
      refine ⟨m, ends, h, fun rounds hr => ?_⟩
      obtain ⟨rounds, rfl⟩ := Nat.exists_eq_add_of_lt hr
      rw [hloop, h.after]
      exact if_neg hneg

/-- Only the number of reads at the end of the text is not told by the parts of it. -/
theorem Places.close_eq (ha : a.Places closed pending rest ends)
    (hb : b.Places closed pending rest ends') : a.close = b.close := by
  simp only [Machine.close, Machine.mk.injEq]
  exact ⟨ha.before.trans hb.before.symm, ha.after.trans hb.after.symm, ha.pos.trans hb.pos.symm,
    ha.pos.trans hb.pos.symm, trivial, ha.line.trans hb.line.symm⟩

theorem Places.token_eq (ha : a.Places closed pending rest ends)
    (hb : b.Places closed pending rest ends') (tag : τ) : a.token tag = b.token tag := by
  simp only [Machine.token, ha.body, hb.body, ha.line, hb.line, ha.start, hb.start, ha.pos, hb.pos]

theorem Places.scanned (hm : m.Places closed pending rest ends)
    (ha : a.Places closed (pending ++ rest.takeWhile p) (rest.dropWhile p) ends') :
    Scanned p m a where
  start := ha.start.trans hm.start.symm
  pos := by
    rw [ha.pos, hm.pos, hm.after, ← List.append_assoc, Text.width_append _ (rest.takeWhile p)]
  line := by
    rw [ha.line, hm.line, hm.after, ← List.append_assoc, Text.breaks_append _ (rest.takeWhile p),
      Nat.add_assoc]
  after := by rw [ha.after, hm.after]

end Machine

/-! ## In a state -/

variable {states : ι → Routine ι τ ω} {m a : Machine} {k : Routine ι τ ω} {rounds : Nat}

theorem Emits.trans {m₁ m₂ : Machine} {r r₁ r₂ : Routine ι τ ω} {n n' : Nat}
    {ts us : List (Token τ)}
    (h : Emits states m r n ts m₁ r₁) (h' : Emits states m₁ r₁ n' us m₂ r₂) :
    Emits states m r (n + n') (ts ++ us) m₂ r₂ := by
  induction h' with
  | start => rwa [List.append_nil]
  | step _ hs ih =>
    rw [← List.append_assoc]
    exact ih.step hs

/-- The loop of a state goes where the loop goes, without emitting anything. -/
theorem emits_peekLoop (states : ι → Routine ι τ ω) (k : Routine ι τ ω)
    (h : m.readWhile p rounds = some a) : ∃ n, Emits states m (.peekLoop p k rounds) n [] a k := by
  induction rounds generalizing m with
  | zero => cases h
  | succ rounds ih =>
    have hlook : Emits states m (.peekLoop p k (rounds + 1)) 1 [] m
        (if m.after.head?.any p then .read fun _ => .peekLoop p k rounds else k) :=
      .step (t := none) .start (by simp [Routine.peekLoop, Routine.step, Machine.peek_eq])
    rw [Machine.readWhile_succ] at h
    cases hafter : m.after with
    | nil =>
      rw [hafter] at h hlook
      cases h
      exact ⟨1, hlook⟩
    | cons c rest =>
      rw [hafter] at h hlook
      cases hc : p c with
      | true =>
        obtain ⟨n, hn⟩ := ih (by simpa [hc] using h)
        have hread : Emits states m (.peekLoop p k (rounds + 1)) 2 [] m.read.2
            (.peekLoop p k rounds) := hlook.step (t := none) (by simp [hc, Routine.step])
        exact ⟨_, hread.trans hn⟩
      | false =>
        obtain rfl : m = a := by simpa [hc] using h
        exact ⟨1, by simpa [hc] using hlook⟩

theorem emits_readLoop (states : ι → Routine ι τ ω) (k : Routine ι τ ω)
    (h : m.readUntilFail p rounds = some a) :
    ∃ n, Emits states m (.readLoop p k rounds) n [] a k := by
  induction rounds generalizing m with
  | zero => cases h
  | succ rounds ih =>
    rw [Machine.readUntilFail_succ] at h
    cases hafter : m.after with
    | nil =>
      have hnone : m.read.1 = none := by rw [Machine.read, hafter]
      rw [hafter] at h
      cases h
      exact ⟨1, .step (t := none) .start (by simp [Routine.readLoop, Routine.step, hnone])⟩
    | cons c rest =>
      have hsome : m.read.1 = some c := by rw [Machine.read, hafter]
      have hread : Emits states m (.readLoop p k (rounds + 1)) 1 [] m.read.2
          (if p c then .readLoop p k rounds else .backup k) :=
        .step (t := none) .start (by simp [Routine.readLoop, Routine.step, hsome])
      rw [hafter] at h
      cases hc : p c with
      | true =>
        obtain ⟨n, hn⟩ := ih (by simpa [hc] using h)
        simp only [hc, if_true] at hread
        exact ⟨_, hread.trans hn⟩
      | false =>
        obtain rfl : m = a := by simpa [hc] using h
        refine ⟨2, hread.step (t := none) ?_⟩
        simp [hc, Routine.step, Machine.backup_read]

/-- Wherever the calls of a state have led, the two loops end, past the characters that come next
and that `p` holds for, as far as they go. A token that is published then, and the machine after
that or after the text has been dropped, do not tell which loop it was; nor do the loops of states
that publish a token after them. -/
theorem Machine.scans_agree (text : List Char) (calls : List (Call τ)) (p : Char → Bool) :
    ∃ a b, (∀ rounds, (run text calls).after.length < rounds →
        (run text calls).readWhile p rounds = some a ∧
          (run text calls).readUntilFail p rounds = some b) ∧
      Scanned p (run text calls) a ∧ Scanned p (run text calls) b ∧
      (∀ tag : τ, a.token tag = b.token tag ∧ a.call (.emit tag) = b.call (.emit tag)) ∧
      a.call (.dropSpan : Call τ) = b.call (.dropSpan : Call τ) ∧
      ∀ {ι ω : Type} (states : ι → Routine ι τ ω) (tag : τ) (k : Routine ι τ ω),
        (∃ n, Emits states (run text calls) (.readWhile p (.emit tag k)) n [a.token tag] a.close
          k) ∧
        ∃ n, Emits states (run text calls) (.readUntilFail p (.emit tag k)) n [a.token tag] a.close
          k := by
  obtain ⟨closed, pending, rest, ends, -, hm⟩ := cut_run text calls
  obtain ⟨a, _, hpa, ha⟩ := hm.scan (readWhile_succ p) fun h => ⟨_, h⟩
  obtain ⟨b, _, hpb, hb⟩ := hm.scan (readUntilFail_succ p) fun h => ⟨_, h.read_end.2⟩
  have hclose : a.close = b.close := hpa.close_eq hpb
  rw [← hm.after] at ha hb
  refine ⟨a, b, fun rounds hr => ⟨ha rounds hr, hb rounds hr⟩, hm.scanned hpa, hm.scanned hpb,
    fun tag => ⟨hpa.token_eq hpb tag, hclose⟩, hclose, fun states tag k => ⟨?_, ?_⟩⟩
  · obtain ⟨n, hn⟩ := emits_peekLoop states (.emit tag k) (ha _ (Nat.lt_succ_self _))
    have hview : Emits states (run text calls) (.readWhile p (.emit tag k)) 1 [] (run text calls)
      (.peekLoop p (.emit tag k) _) := .step (t := none) .start rfl
    exact ⟨_, (hview.trans hn).step (t := some (a.token tag)) rfl⟩
  · obtain ⟨n, hn⟩ := emits_readLoop states (.emit tag k) (hb _ (Nat.lt_succ_self _))
    have hview : Emits states (run text calls) (.readUntilFail p (.emit tag k)) 1 []
      (run text calls) (.readLoop p (.emit tag k) _) := .step (t := none) .start rfl
    rw [hpa.token_eq hpb tag, hclose]
    exact ⟨_, (hview.trans hn).step (t := some (b.token tag)) rfl⟩

/-- At the end of the text the two machines themselves are different. -/
example : ((Machine.ofText ['a']).readWhile (· = 'a') 2).map Machine.widths = some [1] ∧
    ((Machine.ofText ['a']).readUntilFail (· = 'a') 2).map Machine.widths = some [0, 1] := by
  decide

end Descent
