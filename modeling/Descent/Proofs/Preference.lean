import Descent.Proofs.Languages
import Descent.Regex.Ways

/-!
# Ways that prefer more

Of the ways to match a pattern those come first that are preferred, which need not be the ones that
take up most. A pattern is eager if it prefers to take up something: its repetitions are greedy, and
an alternative that may take up nothing is not tried before another.

Main theorem `Pattern.lead_cons`: of several eager patterns, what the most preferred way takes up
after a first character is what it does for the patterns that can follow this character. If there is
no such way, nothing is taken up, provided that one of the patterns allows for it.
-/

namespace Descent.Regex

theorem Site.length_skip_le (s : Site) (k : Nat) : (s.skip k).rest.length ≤ s.rest.length := by
  induction k generalizing s with
  | zero => exact Nat.le_refl _
  | succ k ih =>
    obtain ⟨prev, _ | ⟨c, rest⟩⟩ := s
    · exact Nat.le_refl _
    · exact Nat.le_succ_of_le (ih ⟨some c, rest⟩)

theorem Site.skip_lt (s : Site) {k n : Nat} (hk : k ≠ 0) (hn : s.rest.length ≤ n + 1) :
    (s.skip k).rest.length ≤ n := by
  obtain ⟨k, rfl⟩ := Nat.exists_eq_succ_of_ne_zero hk
  obtain ⟨prev, _ | ⟨c, rest⟩⟩ := s
  · exact Nat.zero_le n
  · exact Nat.le_trans (Site.length_skip_le ⟨some c, rest⟩ k) (Nat.le_of_succ_le_succ hn)

/-! ## Ways after a character -/

namespace Ways

variable {W W' V V' : Ways} {s : Site} {prev : Option Char} {c : Char} {rest : List Char}
  {n m : Nat}

theorem seq_congr (h : ∀ k, V (s.skip k) = V' (s.skip k)) : W.seq V s = W.seq V' s := by
  simp only [seq, h]

/-- The ways of the second pattern follow those of the first one that take up something, and then
those that take up nothing. -/
theorem seq_cons {last : List Nat}
    (h : W ⟨prev, c :: rest⟩ = (W' ⟨some c, rest⟩).map (· + 1) ++ last) :
    W.seq V ⟨prev, c :: rest⟩ = (W'.seq V ⟨some c, rest⟩).map (· + 1) ++
      last.flatMap fun k => (V (Site.skip k ⟨prev, c :: rest⟩)).map (k + ·) := by
  unfold seq
  rw [h, List.flatMap_append, List.flatMap_map, List.map_flatMap]
  congr 1
  refine List.flatMap_congr fun k _ => ?_
  rw [List.map_map]
  exact List.map_congr_left fun j _ => Nat.succ_add k j

/-- If the first pattern takes up something, so does the sequence. -/
theorem seq_succ (h : W ⟨prev, c :: rest⟩ = (W' ⟨some c, rest⟩).map (· + 1)) :
    W.seq V ⟨prev, c :: rest⟩ = (W'.seq V ⟨some c, rest⟩).map (· + 1) := by
  simpa using seq_cons (V := V) (h.trans (List.append_nil _).symm)

theorem rounds_nil (h : W ⟨prev, []⟩ = []) (n : Nat) : W.rounds true n ⟨prev, []⟩ = [0] := by
  cases n with
  | zero => rfl
  | succ n => simp [rounds, h]

theorem rounds_cons (h : W ⟨prev, c :: rest⟩ = (W' ⟨some c, rest⟩).map (· + 1)) :
    W.rounds true (n + 1) ⟨prev, c :: rest⟩ =
      (W'.seq (W.rounds true n) ⟨some c, rest⟩).map (· + 1) ++ [0] := by
  rw [← seq_succ h, rounds, if_pos rfl, seq, h, List.flatMap_map, List.flatMap_map]
  simp

/-- Rounds that take up something are done with a text in as many as there are characters. -/
theorem rounds_eq_of_le (hend : ∀ prev, W ⟨prev, []⟩ = []) (hpos : ∀ s, 0 ∉ W s)
    (hn : s.rest.length ≤ n) (hm : s.rest.length ≤ m) :
    W.rounds true n s = W.rounds true m s := by
  induction n generalizing m s with
  | zero =>
    obtain ⟨prev, _ | ⟨c, rest⟩⟩ := s
    · rw [rounds_nil (hend prev), rounds_nil (hend prev)]
    · cases hn
  | succ n ih =>
    cases m with
    | zero =>
      obtain ⟨prev, _ | ⟨c, rest⟩⟩ := s
      · rw [rounds_nil (hend prev), rounds_nil (hend prev)]
      · cases hm
    | succ m =>
      have hagain : ∀ k ∈ W s, (if k = 0 then [0] else (W.rounds true n (s.skip k)).map (k + ·)) =
          if k = 0 then [0] else (W.rounds true m (s.skip k)).map (k + ·) := by
        intro k hk
        have hk0 : k ≠ 0 := fun h0 => hpos s (h0 ▸ hk)
        rw [if_neg hk0, if_neg hk0, ih (s.skip_lt hk0 hn) (s.skip_lt hk0 hm)]
      rw [rounds, rounds, List.flatMap_congr hagain]

end Ways

namespace Pattern

/-- Whether the pattern prefers to take up something, and asks nothing about places. -/
def eager : Pattern → Bool
  | empty | literal _ | set _ => true
  | look _ => false
  | cat p q => p.eager && q.eager
  | alt p q => p.eager && !p.nullable && q.eager
  | «repeat» least most greedy p =>
    greedy && most.all (least ≤ ·) && p.eager && !p.nullable
  | group _ p => p.eager

/-- The ways to match one of several patterns, the first one preferred. -/
def among (ps : List Pattern) : Ways := fun s => ps.flatMap (·.ways s)

variable {p q : Pattern} {ps qs : List Pattern} {s : Site} {prev : Option Char} {c : Char}
  {rest : List Char}

theorem among_append (ps qs : List Pattern) (s : Site) :
    among (ps ++ qs) s = among ps s ++ among qs s :=
  List.flatMap_append ..

theorem among_map_cat (ps : List Pattern) (q : Pattern) (s : Site) :
    among (ps.map (cat · q)) s = (among ps).seq q.ways s := by
  rw [among, List.flatMap_map, Ways.seq, among, List.flatMap_assoc]
  rfl

/-- At the end of the text only the way that takes up nothing is left. -/
theorem ways_nil (h : p.eager = true) (prev : Option Char) :
    p.ways ⟨prev, []⟩ = if p.nullable then [0] else [] := by
  induction p with
  | empty => rfl
  | literal t => cases t <;> rfl
  | set cs => rfl
  | look l => cases h
  | cat p q hp hq =>
    obtain ⟨hpe, hqe⟩ := Bool.and_eq_true_iff.1 h
    cases hn : p.nullable <;> simp [ways, Ways.seq, hp hpe, nullable, hn, Site.skip, hq hqe]
  | alt p q hp hq =>
    simp only [eager, Bool.and_eq_true, Bool.not_eq_true'] at h
    simp [ways, hp h.1.1, hq h.2, nullable, h.1.2]
  | group number p hp => exact hp h
  | «repeat» least most greedy p hp =>
    simp only [eager, Bool.and_eq_true, Bool.not_eq_true'] at h
    obtain ⟨⟨⟨rfl, hm⟩, he⟩, hn⟩ := h
    have hend : p.ways ⟨prev, []⟩ = [] := by simp [hp he, hn]
    cases least with
    | zero => simp [ways, Ways.repeated, Ways.rounds_nil hend, nullable]
    | succ least => simp [ways, Ways.repeated, Ways.seq, hend, nullable, hn]

/-- A repetition goes on as it does after its first round. -/
theorem ways_repeat_cons {least : Nat} {most : Option Nat} (hl : most.all (least ≤ ·) = true)
    (hend : ∀ prev, p.ways ⟨prev, []⟩ = []) (hpos : ∀ s, 0 ∉ p.ways s)
    (hp : p.ways ⟨prev, c :: rest⟩ = (among (p.after c.toNat) ⟨some c, rest⟩).map (· + 1)) :
    («repeat» least most true p).ways ⟨prev, c :: rest⟩ =
      (among ((«repeat» least most true p).after c.toNat) ⟨some c, rest⟩).map (· + 1) ++
        if least = 0 then [0] else [] := by
  by_cases h0 : most = some 0
  · obtain rfl : least = 0 := by simpa [h0] using hl
    simp [h0, ways, Ways.repeated, Ways.rounds, after, among]
  rw [after, if_neg h0, among_map_cat]
  cases least with
  | zero =>
    cases most with
    | none =>
      refine (Ways.rounds_cons hp).trans ?_
      congr 2
      exact Ways.seq_congr fun k =>
        Ways.rounds_eq_of_le hend hpos (Site.length_skip_le _ k) (Nat.le_refl _)
    | some m =>
      obtain ⟨m, rfl⟩ := Nat.exists_eq_succ_of_ne_zero fun hm => h0 (congrArg some hm)
      exact Ways.rounds_cons hp
  | succ least => exact (Ways.seq_succ hp).trans (List.append_nil _).symm

/-- The ways that take up a first character are those of what can follow it, and come before the one
that takes up nothing: by induction on the pattern. -/
theorem ways_cons (h : p.eager = true) (prev : Option Char) (c : Char) (rest : List Char) :
    p.ways ⟨prev, c :: rest⟩ =
      (among (p.after c.toNat) ⟨some c, rest⟩).map (· + 1) ++ if p.nullable then [0] else [] := by
  induction p generalizing prev c rest with
  | empty => rfl
  | literal t =>
    cases t with
    | nil => rfl
    | cons x t =>
      have hx : x.toNat = c.toNat ↔ x = c := Char.toNat_inj
      by_cases hxc : x = c
      · by_cases ht : t.isPrefixOf rest <;> simp [ways, after, hxc, ht, among, nullable]
      · simp [ways, after, hx, hxc, among, nullable]
  | set cs =>
    have hs : cs.ranges.has c.toNat = cs.has c := rfl
    cases hc : cs.has c <;> simp [ways, after, hs, hc, among, nullable]
  | look l => cases h
  | group number p hp => exact hp h prev c rest
  | alt p q hp hq =>
    simp only [eager, Bool.and_eq_true, Bool.not_eq_true'] at h
    obtain ⟨⟨hpe, hpn⟩, hqe⟩ := h
    simp [ways, hp hpe, hq hqe, after, among_append, nullable, hpn]
  | cat p q hp hq =>
    obtain ⟨hpe, hqe⟩ := Bool.and_eq_true_iff.1 h
    rw [ways, Ways.seq_cons (hp hpe prev c rest), after, among_append, among_map_cat]
    cases hn : p.nullable
    · simp [nullable, hn, among]
    · simp [nullable, hn, Site.skip, hq hqe prev c rest]
  | «repeat» least most greedy p hp =>
    simp only [eager, Bool.and_eq_true, Bool.not_eq_true'] at h
    obtain ⟨⟨⟨rfl, hl⟩, he⟩, hn⟩ := h
    have hend : ∀ prev, p.ways ⟨prev, []⟩ = [] := fun prev => by simp [ways_nil he, hn]
    have hcons : ∀ prev c rest, p.ways ⟨prev, c :: rest⟩ =
        (among (p.after c.toNat) ⟨some c, rest⟩).map (· + 1) := fun prev c rest => by
      simp [hp he, hn]
    have hpos : ∀ s, 0 ∉ p.ways s := by
      rintro ⟨prev, _ | ⟨c, rest⟩⟩
      · simp [hend]
      · simp [hcons]
    rw [ways_repeat_cons hl hend hpos (hcons prev c rest)]
    simp [nullable, hl, hn]

/-! ## Several patterns -/

/-- The patterns up to the first one that may take up nothing, behind which no way is tried. -/
def preferred : List Pattern → List Pattern
  | [] => []
  | p :: ps => if p.nullable then [p] else p :: preferred ps

/-- What can follow the character with the code point `n`, after one of several patterns. -/
def step (n : Nat) (ps : List Pattern) : List Pattern := (preferred ps).flatMap (after n)

/-- How many characters the most preferred way takes up. -/
def lead (ps : List Pattern) (s : Site) : Option Nat := (among ps s).head?

theorem lead_append (ps qs : List Pattern) (s : Site) :
    lead (ps ++ qs) s = (lead ps s).or (lead qs s) := by
  rw [lead, among_append, List.head?_append]
  rfl

theorem lead_nil (h : ∀ p ∈ ps, p.eager = true) (prev : Option Char) :
    lead ps ⟨prev, []⟩ = if ps.any nullable then some 0 else none := by
  induction ps with
  | nil => rfl
  | cons p ps ih =>
    obtain ⟨hp, hps⟩ := List.forall_mem_cons.1 h
    have hcons : lead (p :: ps) ⟨prev, []⟩ = (p.ways ⟨prev, []⟩).head?.or (lead ps ⟨prev, []⟩) :=
      List.head?_append
    rw [hcons, ways_nil hp, ih hps, List.any_cons]
    cases p.nullable <;> rfl

/-- The most preferred way goes on after a first character if it can. -/
theorem lead_cons (h : ∀ p ∈ ps, p.eager = true) (prev : Option Char) (c : Char)
    (rest : List Char) : lead ps ⟨prev, c :: rest⟩ =
      ((lead (step c.toNat ps) ⟨some c, rest⟩).map (· + 1)).or
        (if ps.any nullable then some 0 else none) := by
  induction ps with
  | nil => rfl
  | cons p ps ih =>
    obtain ⟨hp, hps⟩ := List.forall_mem_cons.1 h
    have hcons : lead (p :: ps) ⟨prev, c :: rest⟩ =
        (p.ways ⟨prev, c :: rest⟩).head?.or (lead ps ⟨prev, c :: rest⟩) := List.head?_append
    rw [hcons, ways_cons hp, List.head?_append, List.head?_map, List.any_cons]
    cases hn : p.nullable
    · have hstep : step c.toNat (p :: ps) = p.after c.toNat ++ step c.toNat ps := by
        simp [step, preferred, hn]
      rw [hstep, lead_append, ih hps]
      simp [lead, Option.map_or, Option.or_assoc]
    · have hstep : step c.toNat (p :: ps) = p.after c.toNat := by
        simp [step, preferred, hn]
      rw [hstep]
      cases hl : (among (p.after c.toNat) ⟨some c, rest⟩).head? <;> simp [lead, hl]

end Pattern
end Descent.Regex
