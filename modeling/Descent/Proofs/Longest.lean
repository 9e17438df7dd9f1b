import Descent.Proofs.Preference
import Mathlib.Data.List.Dedup

/-!
# Longest matches

The most preferred match need not be the longest. Whether it is can be decided for an eager pattern:
a search comes to finitely many stages, each a list of patterns that describe the rest of a match,
and no pattern may be lost behind one that takes up nothing (`Pattern.Charted`). Characters between
the same limits of ranges lead to the same stage, so that one of each kind is enough to go from one
stage to all that follow it.

Main theorem `Pattern.Charted.first_longest`. The charts themselves are computed (`Pattern.chart`).
-/

namespace Descent.Regex

variable {c : Char} {w text : List Char}

/-- The longest prefix of the text that is in the language. -/
structure Longest (L : List Char → Prop) (text w : List Char) : Prop where
  mem : L w
  isPrefix : w <+: text
  longest {v : List Char} : L v → v <+: text → v <+: w

theorem Longest.cons {L : List Char → Prop} (h : Longest (fun w => L (c :: w)) text w) :
    Longest L (c :: text) (c :: w) := by
  refine ⟨h.mem, (List.prefix_cons_inj c).2 h.isPrefix, fun {v} hv hp => ?_⟩
  obtain rfl | ⟨v, rfl, hp'⟩ := List.prefix_cons_iff.1 hp
  · exact List.nil_prefix
  · exact (List.prefix_cons_inj c).2 (h.longest hv hp')

theorem longest_nil {L : List Char → Prop} (h : L []) (hno : ∀ v, v <+: text → ¬ L (c :: v)) :
    Longest L (c :: text) [] := by
  refine ⟨h, List.nil_prefix, fun {v} hv hp => ?_⟩
  obtain rfl | ⟨v, rfl, hp'⟩ := List.prefix_cons_iff.1 hp
  · exact List.prefix_rfl
  · exact absurd hv (hno v hp')

/-! ## Stages -/

/-- The states that moves lead to from those of `todo`, and the ones of `seen`. -/
def explore {σ : Type} [DecidableEq σ] (moves : List (σ → σ)) :
    (fuel : Nat) → (todo seen : List σ) → List σ
  | 0, _, seen => seen
  | _, [], seen => seen
  | fuel + 1, s :: todo, seen =>
    if s ∈ seen then explore moves fuel todo seen
    else explore moves fuel (moves.map (· s) ++ todo) (s :: seen)

/-- Of the limits that a number has reached, the last has reached the same ones. -/
theorem exists_limit (points : List Nat) (x : Nat) :
    ∃ n ∈ 0 :: points, n ≤ x ∧ ∀ b ∈ points, b ≤ x ↔ b ≤ n := by
  induction points with
  | nil => exact ⟨0, by simp, Nat.zero_le x, by simp⟩
  | cons b bs ih =>
    obtain ⟨n, hn, hle, h⟩ := ih
    by_cases hb : b ≤ x ∧ n < b
    · refine ⟨b, by simp, hb.1, List.forall_mem_cons.2 ⟨by omega, fun b' hb' => ?_⟩⟩
      have := h b' hb'
      omega
    · refine ⟨n, ?_, hle, List.forall_mem_cons.2 ⟨by omega, h⟩⟩
      rcases List.mem_cons.1 hn with rfl | hn <;> simp [*]

namespace Pattern

/-- One code point of every kind that the pattern tells apart. -/
def kinds (p : Pattern) : List Nat := 0 :: p.points.dedup

theorem exists_kind (p : Pattern) (n : Nat) : ∃ m ∈ p.kinds, ∀ b ∈ p.points, b ≤ n ↔ b ≤ m := by
  obtain ⟨m, hm, -, h⟩ := exists_limit p.points.dedup n
  exact ⟨m, hm, fun b hb => h b (List.mem_dedup.2 hb)⟩

/-- The stages of a search, if there are not too many. -/
def chart (p : Pattern) : List (List Pattern) := explore (p.kinds.map step) 1000 [[p]] []

/-- A search for the pattern goes through these stages only. In each the patterns are eager, and
those behind one that may take up nothing stand before it as well. -/
structure Charted (p : Pattern) (stages : List (List Pattern)) : Prop where
  first : [p] ∈ stages
  next : ∀ ps ∈ stages, ∀ n ∈ p.kinds, step n ps ∈ stages
  eager : ∀ ps ∈ stages, ∀ q ∈ ps, q.eager = true
  kept : ∀ ps ∈ stages, ∀ q ∈ ps, q ∈ preferred ps
  points : ∀ ps ∈ stages, ∀ q ∈ ps, ∀ b ∈ q.points, b ∈ p.points

instance (p : Pattern) (stages : List (List Pattern)) : Decidable (Charted p stages) :=
  decidable_of_iff ([p] ∈ stages ∧ (∀ ps ∈ stages, ∀ n ∈ p.kinds, step n ps ∈ stages) ∧
      (∀ ps ∈ stages, ∀ q ∈ ps, q.eager = true) ∧ (∀ ps ∈ stages, ∀ q ∈ ps, q ∈ preferred ps) ∧
      ∀ ps ∈ stages, ∀ q ∈ ps, ∀ b ∈ q.points, b ∈ p.points)
    ⟨fun ⟨h₁, h₂, h₃, h₄, h₅⟩ => ⟨h₁, h₂, h₃, h₄, h₅⟩,
      fun ⟨h₁, h₂, h₃, h₄, h₅⟩ => ⟨h₁, h₂, h₃, h₄, h₅⟩⟩

/-- One of the patterns describes the text. -/
def Allows (ps : List Pattern) (w : List Char) : Prop := ∃ p ∈ ps, p.Matches w

variable {p q : Pattern} {ps : List Pattern} {stages : List (List Pattern)} {n m : Nat}

theorem allows_singleton (p : Pattern) : Allows [p] = p.Matches := by
  funext w
  simp [Allows]

theorem allows_nil (ps : List Pattern) : Allows ps [] ↔ ps.any nullable = true := by
  simp only [Allows, matches_nil, List.any_eq_true]

theorem mem_of_mem_preferred (h : q ∈ preferred ps) : q ∈ ps := by
  induction ps with
  | nil => exact h
  | cons p ps ih =>
    unfold preferred at h
    split at h
    · exact List.mem_cons.2 (.inl (List.mem_singleton.1 h))
    · rcases List.mem_cons.1 h with h | h
      · exact List.mem_cons.2 (.inl h)
      · exact List.mem_cons_of_mem p (ih h)

theorem step_congr (h : ∀ q ∈ ps, ∀ b ∈ q.points, b ≤ n ↔ b ≤ m) : step n ps = step m ps :=
  List.flatMap_congr fun q hq => after_congr q (h q (mem_of_mem_preferred hq))

namespace Charted

theorem step_congr (h : p.Charted stages) (hs : ps ∈ stages)
    (hnm : ∀ b ∈ p.points, b ≤ n ↔ b ≤ m) : step n ps = step m ps :=
  Pattern.step_congr fun q hq b hb => hnm b (h.points ps hs q hq b hb)

theorem step_mem (h : p.Charted stages) (hs : ps ∈ stages) (n : Nat) : step n ps ∈ stages := by
  obtain ⟨m, hm, hnm⟩ := p.exists_kind n
  rw [h.step_congr hs hnm]
  exact h.next ps hs m hm

theorem allows_cons (h : p.Charted stages) (hs : ps ∈ stages) (c : Char) (w : List Char) :
    Allows ps (c :: w) ↔ Allows (step c.toNat ps) w := by
  simp only [Allows, step, matches_cons, List.mem_flatMap]
  constructor
  · rintro ⟨q, hq, r, hr, hw⟩
    exact ⟨r, ⟨q, h.kept ps hs q hq, hr⟩, hw⟩
  · rintro ⟨r, ⟨q, hq, hr⟩, hw⟩
    exact ⟨q, mem_of_mem_preferred hq, r, hr, hw⟩

/-- The most preferred way is the longest: by induction on the text. -/
theorem lead_longest (h : p.Charted stages) (hs : ps ∈ stages) (prev : Option Char)
    (text : List Char) :
    (∃ w, Longest (Allows ps) text w ∧ lead ps ⟨prev, text⟩ = some w.length) ∨
      (∀ w, w <+: text → ¬ Allows ps w) ∧ lead ps ⟨prev, text⟩ = none := by
  induction text generalizing ps prev with
  | nil =>
    rw [lead_nil (h.eager ps hs)]
    by_cases hn : ps.any nullable = true
    · exact .inl ⟨[], ⟨(allows_nil ps).2 hn, List.prefix_rfl, fun _ hp => hp⟩, if_pos hn⟩
    · refine .inr ⟨fun w hw => ?_, if_neg hn⟩
      rw [List.prefix_nil.1 hw, allows_nil]
      exact hn
  | cons c text ih =>
    have hcons : Allows (step c.toNat ps) = fun w => Allows ps (c :: w) :=
      funext fun w => propext (h.allows_cons hs c w).symm
    have hnext := ih (h.step_mem hs c.toNat) (some c)
    rw [hcons] at hnext
    rw [lead_cons (h.eager ps hs)]
    obtain ⟨w, hw, hlead⟩ | ⟨hno, hlead⟩ := hnext
    · exact .inl ⟨c :: w, hw.cons, by rw [hlead]; rfl⟩
    · rw [hlead]
      by_cases hn : ps.any nullable = true
      · exact .inl ⟨[], longest_nil ((allows_nil ps).2 hn) hno, if_pos hn⟩
      · refine .inr ⟨fun w hw => ?_, if_neg hn⟩
        obtain rfl | ⟨v, rfl, hv⟩ := List.prefix_cons_iff.1 hw
        · rwa [allows_nil]
        · exact hno v hv

/-- At the start of a text the longest prefix is found that the pattern describes, and nothing if
there is none. -/
theorem first_longest (h : p.Charted stages) (text : List Char) :
    (∃ w, Longest p.Matches text w ∧ p.ways.atStart.first text = some ⟨0, w.length⟩) ∨
      (∀ w, w <+: text → ¬ p.Matches w) ∧ p.ways.atStart.first text = none := by
  have hlead : p.ways.atStart.first text = (lead [p] ⟨none, text⟩).map (⟨0, ·⟩) := by
    rw [Ways.first_atStart, lead, among, List.flatMap_singleton]
  have hlong := h.lead_longest h.first none text
  rw [hlead, ← allows_singleton p]
  obtain ⟨w, hw, hl⟩ | ⟨hno, hl⟩ := hlong
  · exact .inl ⟨w, hw, by rw [hl]; rfl⟩
  · exact .inr ⟨hno, by rw [hl]; rfl⟩

end Charted

/-! ## Where texts go on -/

/-- From the stage only characters of the set lead on. -/
def Needs (p : Pattern) (ps : List Pattern) (set : CharSet) : Prop :=
  (∀ b ∈ set.points, b ∈ p.points) ∧ ∀ n ∈ p.kinds, set.ranges.has n = false → step n ps = []

instance (p : Pattern) (ps : List Pattern) (set : CharSet) : Decidable (p.Needs ps set) :=
  inferInstanceAs (Decidable (_ ∧ _))

/-- Only characters of the set make a longer match out of a match. -/
def Extends (p : Pattern) (stages : List (List Pattern)) (set : CharSet) : Prop :=
  ∀ ps ∈ stages, ps.any nullable = true → p.Needs ps set

instance (p : Pattern) (stages : List (List Pattern)) (set : CharSet) :
    Decidable (p.Extends stages set) :=
  inferInstanceAs (Decidable (∀ _ ∈ _, _))

namespace Charted

variable {set : CharSet} {rest : List Char}

theorem needed (h : p.Charted stages) (hs : ps ∈ stages) (hn : p.Needs ps set)
    (hc : Allows ps (c :: w)) : set.has c = true := by
  obtain ⟨m, hm, hkind⟩ := p.exists_kind c.toNat
  by_contra hset
  have hm' : set.ranges.has m = false := by
    rw [← CharSet.has_congr fun b hb => hkind b (hn.1 b hb)]
    exact Bool.eq_false_iff.2 hset
  obtain ⟨q, hq, -⟩ := (h.allows_cons hs c w).1 hc
  rw [h.step_congr hs hkind, hn.2 m hm hm'] at hq
  cases hq

theorem head_mem (h : p.Charted stages) (hn : p.Needs [p] set) (hw : p.Matches (c :: w)) :
    set.has c = true :=
  h.needed h.first hn (by rwa [allows_singleton])

/-- A match is the longest if nothing follows that could make it longer: by induction on it. -/
theorem allows_append (h : p.Charted stages) (he : p.Extends stages set) (hs : ps ∈ stages)
    (hw : Allows ps w) (ht : Allows ps (w ++ c :: rest)) : set.has c = true := by
  induction w generalizing ps with
  | nil => exact h.needed hs (he ps hs ((allows_nil ps).1 hw)) ht
  | cons x w ih =>
    exact ih (h.step_mem hs _) ((h.allows_cons hs x w).1 hw) ((h.allows_cons hs x _).1 ht)

theorem longest_append (h : p.Charted stages) (he : p.Extends stages set) (hw : p.Matches w)
    (hrest : ∀ c ∈ rest.head?, set.has c = false) : Longest p.Matches (w ++ rest) w := by
  refine ⟨hw, List.prefix_append w rest, fun {v} hv hp => ?_⟩
  obtain hp | ⟨t, rfl⟩ := List.prefix_or_prefix_of_prefix hp (List.prefix_append w rest)
  · exact hp
  · cases t with
    | nil => simp
    | cons c t =>
      obtain ⟨u, rfl⟩ := (List.prefix_append_right_inj w).1 hp
      rw [← allows_singleton] at hw hv
      have := h.allows_append he h.first hw hv
      simp [hrest c (by simp)] at this

end Charted
end Pattern
end Descent.Regex
