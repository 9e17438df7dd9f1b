import Descent.Proofs.Longest
import Descent.Regex.Size

/-!
# Automata that find the preferred match

An automaton follows all ways through a pattern at once. Whether it finds what the most preferred
way takes up can be decided for an eager pattern at the start of a text: a search comes to finitely
many stages, each a front of nodes together with the patterns for the rest of a match, and a thread
accepts where one of these may take up nothing (`Automaton.Tracks`).

Main theorem `Engine.automata_reads`: by such a check the engine that follows automata is known to
read a pattern in written form.
-/

namespace Descent.Regex

namespace Automaton

variable {a : Automaton} {holds holds' : Look → Bool} {start : Nat} {nodes : List Nat}

/-! ## Threads from the start -/

/-- Threads that began at the start of the text. -/
def threads (nodes : List Nat) : List Thread := nodes.map (⟨·, 0⟩)

theorem threads_map_node {ts : List Thread} (h : ∀ t ∈ ts, t.start = 0) :
    threads (ts.map Thread.node) = ts := by
  unfold threads
  rw [List.map_map]
  refine (List.map_congr_left fun t ht => ?_).trans (List.map_id ts)
  show (⟨t.node, 0⟩ : Thread) = t
  rw [← h t ht]

theorem spread_start (holds : Look → Bool) {t : Thread} (fuel : Nat) (todo : List Nat) (f : Front)
    (h : t ∈ (a.spread holds start fuel todo f).threads) : t ∈ f.threads ∨ t.start = start := by
  induction fuel generalizing todo f with
  | zero => exact .inl h
  | succ fuel ih =>
    cases todo with
    | nil => exact .inl h
    | cons i todo =>
      -- a thread that is new here begins at `start`
      have hcons : ∀ todo' seen,
          t ∈ (a.spread holds start fuel todo' ⟨seen, ⟨i, start⟩ :: f.threads⟩).threads →
          t ∈ f.threads ∨ t.start = start := by
        intro todo' seen h
        rcases ih _ _ h with h | h
        · rcases List.mem_cons.1 h with rfl | h
          · exact .inr rfl
          · exact .inl h
        · exact .inr h
      unfold spread at h
      dsimp only at h
      split at h
      · exact ih _ _ h
      · split at h
        · exact ih _ ⟨f.seen.add i, f.threads⟩ h
        · exact hcons _ _ h
        · exact hcons _ _ h
        · exact hcons _ _ h

theorem gather_start (holds : Look → Bool) {ts : List Thread} (h : ∀ t ∈ ts, t.start = 0) :
    ∀ t ∈ (a.gather holds ts).threads, t.start = 0 := by
  have hfold : ∀ f : Front, (∀ t ∈ f.threads, t.start = 0) →
      ∀ t ∈ (ts.foldl (a.arrive holds) f).threads, t.start = 0 := by
    induction ts with
    | nil => exact fun f hf => hf
    | cons t ts ih =>
      intro f hf
      obtain ⟨ht, hts⟩ := List.forall_mem_cons.1 h
      refine ih hts _ fun t' ht' => ?_
      obtain ht' | ht' := spread_start holds _ _ f ht'
      · exact hf t' ht'
      · rw [ht', ht]
  exact hfold _ (List.forall_mem_nil _)

/-! ## Conditions on the start only -/

/-- The only condition is that the text starts. -/
def AsksStart (a : Automaton) : Prop := ∀ i l j, a.node i = .ask l j → l = .textStart

theorem AsksStart.spread_congr (ha : a.AsksStart) (h : holds .textStart = holds' .textStart)
    (start : Nat) : ∀ fuel todo f, a.spread holds start fuel todo f =
      a.spread holds' start fuel todo f
  | 0, _, _ => rfl
  | fuel + 1, [], _ => rfl
  | fuel + 1, i :: todo, f => by
    unfold spread
    dsimp only
    cases hi : a.node i with
    | ask l j =>
      cases ha i l j hi
      simp only [h, ha.spread_congr h start fuel]
    | accept | read | fork => simp only [ha.spread_congr h start fuel]

theorem AsksStart.gather_congr (ha : a.AsksStart) (h : holds .textStart = holds' .textStart)
    (ts : List Thread) : a.gather holds ts = a.gather holds' ts := by
  have harrive : a.arrive holds = a.arrive holds' := by
    funext f t
    exact ha.spread_congr h t.start _ _ f
  unfold gather
  rw [harrive]

/-- What is known of the start of the text is all there is to know of it. -/
theorem AsksStart.settle_eq (ha : a.AsksStart) (site : Site) (ts : List Thread) :
    a.settle (Look.holdsBehind site) (Look.holds site) ts = ts := by
  refine if_neg fun h => ?_
  obtain ⟨t, -, ht⟩ := List.any_eq_true.1 h
  unfold waitsAt at ht
  cases hn : a.node t.node with
  | ask l j =>
    cases ha _ l j hn
    simp [hn, Look.holdsBehind] at ht
  | accept | read | fork => simp [hn] at ht

/-! ## Fronts of nodes -/

/-- The nodes of the threads at a place where threads arrive at `nodes`. -/
def front (a : Automaton) (atStart : Bool) (nodes : List Nat) : List Nat :=
  (a.gather (fun _ => atStart) (threads nodes)).threads.reverse.map Thread.node

/-- Where threads at these nodes go on after the character with the code point `n`. Those after one
that accepts are given up. -/
def moves (a : Automaton) (n : Nat) (nodes : List Nat) : List Nat :=
  (nodes.takeWhile fun i => !(a.node i == .accept)).filterMap fun i =>
    match a.node i with
    | .read s next => if s.ranges.has n then some next else none
    | _ => none

theorem AsksStart.gather_threads (h : a.AsksStart) {atStart : Bool}
    (hh : holds .textStart = atStart) (nodes : List Nat) :
    (a.gather holds (threads nodes)).threads.reverse = threads (a.front atStart nodes) := by
  have hknown : a.gather holds (threads nodes) = a.gather (fun _ => atStart) (threads nodes) :=
    h.gather_congr hh _
  rw [hknown, front, threads_map_node]
  intro t ht
  refine gather_start _ (fun t ht => ?_) t (List.mem_reverse.1 ht)
  obtain ⟨i, -, rfl⟩ := List.mem_map.1 ht
  rfl

theorem filterMap_after? (a : Automaton) (c : Char) (nodes : List Nat) :
    ((threads nodes).takeWhile (!a.accepts ·)).filterMap (a.after? c) =
      threads (a.moves c.toNat nodes) := by
  unfold threads moves
  rw [List.takeWhile_map, List.filterMap_map, List.map_filterMap]
  refine List.filterMap_congr fun i _ => ?_
  unfold Function.comp after? CharSet.has
  dsimp only
  cases a.node i with
  | read s next => cases hc : s.ranges.has c.toNat <;> simp [hc]
  | accept | ask | fork => rfl

/-- A thread that accepts makes the text so far a match. -/
theorem map_find?_accepts (a : Automaton) (nodes : List Nat) (index : Nat) :
    ((threads nodes).find? a.accepts).map (fun t => (⟨t.start, index⟩ : Span)) =
      if nodes.any (a.node · == .accept) then some ⟨0, index⟩ else none := by
  have hfind : (threads nodes).find? a.accepts =
      (nodes.find? (a.node · == .accept)).map (⟨·, 0⟩) := List.find?_map ..
  rw [hfind, Option.map_map]
  cases hn : nodes.find? (a.node · == .accept) with
  | none => rw [List.any_eq_false.2 (List.find?_eq_none.1 hn)]; rfl
  | some i =>
    have hi := List.find?_some (p := (a.node · == .accept)) hn
    rw [List.any_eq_true.2 ⟨i, List.mem_of_find?_eq_some hn, hi⟩]
    rfl

/-! ## Stages -/

/-- A stage of the search for a match. -/
structure Stage where
  /-- The nodes of the threads, the most preferred first. -/
  nodes : List Nat
  /-- What describes the rest of a match. -/
  left : List Pattern
  deriving DecidableEq

def opening (a : Automaton) (p : Pattern) : Stage := ⟨a.front true [a.start], [p]⟩

/-- Where a search goes on after the character with the code point `n`. -/
def next (a : Automaton) (n : Nat) (s : Stage) : Stage :=
  ⟨a.front false (a.moves n s.nodes), Pattern.step n s.left⟩

/-- The stages of a search for the pattern, if there are not too many. -/
def survey (a : Automaton) (p : Pattern) : List Stage :=
  explore (p.kinds.map a.next) 1000 [a.opening p] []

/-- Whether the node asks for the start of the text only, and reads a set that changes at `points`
only. -/
def Node.fits (points : List Nat) : Node → Bool
  | .ask l _ => l == .textStart
  | .read s _ => s.points.all (points.contains ·)
  | .accept | .fork _ _ => true

/-- A search with the automaton goes through these stages only, and a thread accepts where one of
the patterns may take up nothing. -/
structure Tracks (a : Automaton) (p : Pattern) (stages : List Stage) : Prop where
  anchored : a.anchored = true
  wordless : a.asksWords = false
  fits : ∀ x ∈ a.nodes.toList, Node.fits p.points x = true
  opening : a.opening p ∈ stages
  next : ∀ s ∈ stages, ∀ n ∈ p.kinds, a.next n s ∈ stages
  ends : ∀ s ∈ stages, s.nodes.any (a.node · == .accept) = s.left.any Pattern.nullable
  eager : ∀ s ∈ stages, ∀ q ∈ s.left, q.eager = true
  points : ∀ s ∈ stages, ∀ q ∈ s.left, ∀ b ∈ q.points, b ∈ p.points

instance (a : Automaton) (p : Pattern) (stages : List Stage) : Decidable (a.Tracks p stages) :=
  decidable_of_iff (a.anchored = true ∧ a.asksWords = false ∧
      (∀ x ∈ a.nodes.toList, Node.fits p.points x = true) ∧ a.opening p ∈ stages ∧
      (∀ s ∈ stages, ∀ n ∈ p.kinds, a.next n s ∈ stages) ∧
      (∀ s ∈ stages, s.nodes.any (a.node · == .accept) = s.left.any Pattern.nullable) ∧
      (∀ s ∈ stages, ∀ q ∈ s.left, q.eager = true) ∧
      ∀ s ∈ stages, ∀ q ∈ s.left, ∀ b ∈ q.points, b ∈ p.points)
    ⟨fun ⟨h₁, h₂, h₃, h₄, h₅, h₆, h₇, h₈⟩ => ⟨h₁, h₂, h₃, h₄, h₅, h₆, h₇, h₈⟩,
      fun ⟨h₁, h₂, h₃, h₄, h₅, h₆, h₇, h₈⟩ => ⟨h₁, h₂, h₃, h₄, h₅, h₆, h₇, h₈⟩⟩

namespace Tracks

variable {p : Pattern} {stages : List Stage} {s : Stage} {n m : Nat}

theorem fits_node (h : a.Tracks p stages) {i : Nat} {x : Node} (hi : a.node i = x) :
    Node.fits p.points x = true := by
  unfold node at hi
  rw [Array.getD_eq_getD_getElem?] at hi
  cases hx : a.nodes[i]? with
  | none => simp [← hi, hx, Node.fits]
  | some y =>
    obtain rfl : y = x := by simpa [hx] using hi
    exact h.fits y (Array.mem_toList_iff.2 (Array.mem_of_getElem? hx))

theorem asksStart (h : a.Tracks p stages) : a.AsksStart := fun _ _ _ hi => eq_of_beq (h.fits_node hi)

theorem moves_congr (h : a.Tracks p stages) (hnm : ∀ b ∈ p.points, b ≤ n ↔ b ≤ m)
    (nodes : List Nat) : a.moves n nodes = a.moves m nodes := by
  unfold moves
  refine List.filterMap_congr fun i _ => ?_
  cases hi : a.node i with
  | read s next =>
    have hs := CharSet.has_congr fun b hb =>
      hnm b (List.contains_iff_mem.1 (List.all_eq_true.1 (h.fits_node hi) b hb))
    simp only [hs]
  | accept | ask | fork => rfl

theorem next_mem (h : a.Tracks p stages) (hs : s ∈ stages) (n : Nat) : a.next n s ∈ stages := by
  obtain ⟨m, hm, hnm⟩ := p.exists_kind n
  have hleft : Pattern.step n s.left = Pattern.step m s.left :=
    Pattern.step_congr fun q hq b hb => hnm b (h.points s hs q hq b hb)
  rw [Automaton.next, h.moves_congr hnm, hleft]
  exact h.next s hs m hm

/-- There is no match any more when there are no threads. -/
theorem lead_eq_none (h : a.Tracks p stages) (hs : s ∈ stages) (hn : s.nodes = [])
    (prev : Option Char) (text : List Char) : Pattern.lead s.left ⟨prev, text⟩ = none := by
  have hend : s.left.any Pattern.nullable = false := by rw [← h.ends s hs, hn]; rfl
  induction text generalizing s prev with
  | nil => rw [Pattern.lead_nil (h.eager s hs), hend]; rfl
  | cons c text ih =>
    have hnext : (a.next c.toNat s).nodes = [] := by
      rw [Automaton.next, hn]
      rfl
    have hmem := h.next_mem hs c.toNat
    have hrest : Pattern.lead (Pattern.step c.toNat s.left) ⟨some c, text⟩ = none :=
      ih hmem hnext (some c) (by rw [← h.ends _ hmem, hnext]; rfl)
    rw [Pattern.lead_cons (h.eager s hs), hend, hrest]
    rfl

/-! ## Searches -/

/-- The best match, once what is found at the stage is taken into account. -/
def best (s : Stage) (index : Nat) (old : Option Span) : Option Span :=
  (if s.left.any Pattern.nullable then some ⟨0, index⟩ else none).or old

theorem found_eq (h : a.Tracks p stages) (hs : s ∈ stages) (index : Nat) (old : Option Span) :
    (((threads s.nodes).find? a.accepts).map fun t => (⟨t.start, index⟩ : Span)).or old =
      best s index old := by
  rw [map_find?_accepts, h.ends s hs, best]

theorem follow_nil (h : a.Tracks p stages) (hs : s ∈ stages) (prev : Option Char) (index : Nat)
    (old : Option Span) :
    a.follow a.waiting prev index [] (threads s.nodes) old = some (best s index old) := by
  have hset : a.settle (a.waiting.known ⟨prev, []⟩) (Look.holds ⟨prev, []⟩) (threads s.nodes) =
      threads s.nodes := h.asksStart.settle_eq _ _
  rw [← h.found_eq hs, follow]
  simp only [hset]
  cases (threads s.nodes).find? a.accepts <;> rfl

/-- A search stops early if there is no thread left and there was none that accepts. -/
theorem follow_cons (h : a.Tracks p stages) (hs : s ∈ stages) (prev : Option Char) (c : Char)
    (rest : List Char) (index : Nat) (old : Option Span) :
    a.follow a.waiting prev index (c :: rest) (threads s.nodes) old =
      a.follow a.waiting (some c) (index + 1) rest (threads (a.next c.toNat s).nodes)
        (best s index old) ∨
    (a.next c.toNat s).nodes = [] ∧
      a.follow a.waiting prev index (c :: rest) (threads s.nodes) old =
        some (best s index old) := by
  have hset : a.settle (a.waiting.known ⟨prev, c :: rest⟩) (Look.holds ⟨prev, c :: rest⟩)
      (threads s.nodes) = threads s.nodes := h.asksStart.settle_eq _ _
  have hforeign : a.waiting.foreign c = false := by
    show (a.asksWords && _) = false
    rw [h.wordless, Bool.false_and]
  have hgather := h.asksStart.gather_threads
    (rfl : a.waiting.known ⟨some c, rest⟩ .textStart = false) (a.moves c.toNat s.nodes)
  have hnone : a.moves c.toNat s.nodes = [] → (a.next c.toNat s).nodes = [] := by
    intro hm
    rw [Automaton.next, hm]
    rfl
  rw [follow]
  simp only [hforeign, hset, h.found_eq hs, h.anchored, filterMap_after?, hgather, Bool.not_true,
    Bool.and_false, Bool.false_eq_true, if_false]
  split
  · next hempty =>
    obtain ⟨hm, -⟩ := Bool.and_eq_true_iff.1 hempty
    exact .inr ⟨hnone (by simpa [threads] using hm), rfl⟩
  · exact .inl rfl

/-- By induction on the text: what the most preferred way takes up is found in what remains, or else
the best match so far stays what it is. -/
theorem follow_eq (h : a.Tracks p stages) (hs : s ∈ stages) (prev : Option Char) (index : Nat)
    (text : List Char) (old : Option Span) :
    a.follow a.waiting prev index text (threads s.nodes) old =
      some (((Pattern.lead s.left ⟨prev, text⟩).map fun k => ⟨0, index + k⟩).or old) := by
  induction text generalizing s prev index old with
  | nil =>
    rw [h.follow_nil hs, Pattern.lead_nil (h.eager s hs), best]
    cases s.left.any Pattern.nullable <;> rfl
  | cons c text ih =>
    have hmem := h.next_mem hs c.toNat
    have hlead := Pattern.lead_cons (h.eager s hs) prev c text
    have hbest : (((Pattern.lead (a.next c.toNat s).left ⟨some c, text⟩).map
        fun k => (⟨0, index + 1 + k⟩ : Span)).or (best s index old)) =
          ((Pattern.lead s.left ⟨prev, c :: text⟩).map fun k => ⟨0, index + k⟩).or old := by
      rw [hlead, best, ← Option.or_assoc, Option.map_or, Option.map_map]
      congr 2
      · refine congrArg (Option.map · _) (funext fun k => ?_)
        show (⟨0, index + 1 + k⟩ : Span) = ⟨0, index + (k + 1)⟩
        rw [Nat.add_right_comm, Nat.add_assoc]
      · cases s.left.any Pattern.nullable <;> rfl
    obtain hf | ⟨hn, hf⟩ := h.follow_cons hs prev c text index old
    · rw [hf, ih hmem, hbest]
    · rw [hf, ← hbest, h.lead_eq_none hmem hn]
      rfl

/-- What is found is what the most preferred way takes up at the start of the text. -/
theorem find?_eq (h : a.Tracks p stages) : a.find? = p.ways.atStart.first := by
  funext text
  have hstart := h.asksStart.gather_threads
    (rfl : a.waiting.known ⟨none, text⟩ .textStart = true) [a.start]
  have hsearch : a.search a.waiting text =
      some ((Pattern.lead [p] ⟨none, text⟩).map fun k => ⟨0, k⟩) := by
    have hfollow := h.follow_eq h.opening none 0 text none
    simp only [Nat.zero_add, Option.or_none] at hfollow
    exact (congrArg (a.follow _ none 0 text · none) hstart).trans hfollow
  rw [find?, hsearch, Ways.first_atStart, Pattern.lead, Pattern.among, List.flatMap_singleton]

end Tracks
end Automaton

/-- The engine that follows automata reads a pattern whose automaton is small enough and keeps track
of the pattern. -/
theorem Engine.automata_reads {source : String} {p : Pattern}
    (h : (Pattern.read? (tied source)).any (fun q =>
      q.fits && decide (q.automaton.Tracks p (q.automaton.survey p))) = true) :
    Engine.automata.Reads source p := by
  obtain ⟨q, hq, hfits, htracks⟩ : ∃ q, Pattern.read? (tied source) = some q ∧ q.fits = true ∧
      q.automaton.Tracks p (q.automaton.survey p) := by
    simpa only [Option.any_eq_true, Bool.and_eq_true, decide_eq_true_eq] using h
  show ((Pattern.read? (tied source)).filter Pattern.fits).map _ = _
  rw [hq, Option.filter_some, if_pos hfits, Option.map_some, htracks.find?_eq]

end Descent.Regex
