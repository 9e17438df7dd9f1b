import Descent.Regex.Basic
import Mathlib.Data.List.Basic

/-!
# Languages of patterns

`Pattern.Matches` says which texts a pattern describes, by its constructors and without an
automaton. What can follow a first character is described by other patterns (`Pattern.after`), so
that texts can be tested character by character: main theorem `Pattern.matches_cons`. These patterns
depend on the character only through the ranges that it lies in (`Pattern.after_congr`).
-/

namespace Descent.Regex

/-! ## Ranges -/

namespace CharSet

/-- Where membership may change: at the first of the characters of a range, and after the last. -/
def points (s : CharSet) : List Nat := s.ranges.toList.flatMap fun (lo, hi) => [lo, hi + 1]

variable {s : CharSet} {n m : Nat}

theorem search_congr {t : Text.Ranges} (h : ∀ r ∈ t, (r.1 ≤ n ↔ r.1 ≤ m) ∧ (r.2 < n ↔ r.2 < m)) :
    ∀ fuel lo hi, t.search n fuel lo hi = t.search m fuel lo hi
  | 0, _, _ => rfl
  | fuel + 1, lo, hi => by
    unfold Text.Ranges.search
    dsimp only
    cases hr : t[(lo + hi) / 2]? with
    | none => rfl
    | some r =>
      obtain ⟨hlo, hhi⟩ := h r (Array.mem_of_getElem? hr)
      have hlt : n < r.1 ↔ m < r.1 := by omega
      simp only [hlt, hhi, search_congr h fuel]

theorem has_congr (h : ∀ b ∈ s.points, b ≤ n ↔ b ≤ m) : s.ranges.has n = s.ranges.has m := by
  refine search_congr (fun r hr => ?_) _ _ _
  have hp : ∀ b ∈ [r.1, r.2 + 1], b ≤ n ↔ b ≤ m :=
    fun b hb => h b (List.mem_flatMap.2 ⟨r, Array.mem_toList_iff.2 hr, hb⟩)
  exact ⟨hp _ (by simp), hp (r.2 + 1) (by simp)⟩

theorem exists_range_of_search {t : Text.Ranges} : ∀ {fuel lo hi : Nat},
    t.search n fuel lo hi = true → ∃ r ∈ t, r.1 ≤ n ∧ n ≤ r.2
  | fuel + 1, lo, hi, h => by
    unfold Text.Ranges.search at h
    dsimp only at h
    cases hr : t[(lo + hi) / 2]? with
    | none => simp [hr] at h
    | some r =>
      simp only [hr] at h
      split at h
      · split at h
        · exact exists_range_of_search h
        · split at h
          · exact exists_range_of_search h
          · exact ⟨r, Array.mem_of_getElem? hr, by omega, by omega⟩
      · cases h

theorem exists_range_of_has {c : Char} (h : s.has c = true) :
    ∃ r ∈ s.ranges.toList, r.1 ≤ c.toNat ∧ c.toNat ≤ r.2 := by
  obtain ⟨r, hr, hc⟩ := exists_range_of_search h
  exact ⟨r, Array.mem_toList_iff.2 hr, hc⟩

end CharSet

namespace Pattern

/-! ## Texts of a pattern -/

/-- The texts that a pattern describes. A condition on a place has no text of its own. -/
def Matches : Pattern → List Char → Prop
  | empty, w | look _, w => w = []
  | literal s, w => w = s
  | set s, w => ∃ c, s.has c = true ∧ w = [c]
  | cat p q, w => ∃ u v, p.Matches u ∧ q.Matches v ∧ u ++ v = w
  | alt p q, w => p.Matches w ∨ q.Matches w
  | «repeat» least most _ p, w => ∃ us : List (List Char), least ≤ us.length ∧
    (∀ k ∈ most, us.length ≤ k) ∧ (∀ u ∈ us, p.Matches u) ∧ us.flatten = w
  | group _ p, w => p.Matches w

variable {p q : Pattern} {c : Char} {w : List Char} {n m : Nat}

/-! ## The empty text -/

/-- Whether the pattern describes the empty text. -/
def nullable : Pattern → Bool
  | empty | look _ => true
  | literal s => s.isEmpty
  | set _ => false
  | cat p q => p.nullable && q.nullable
  | alt p q => p.nullable || q.nullable
  | «repeat» least most _ p => most.all (least ≤ ·) && (least == 0 || p.nullable)
  | group _ p => p.nullable

theorem matches_nil (p : Pattern) : p.Matches [] ↔ p.nullable = true := by
  induction p with
  | empty | look => simp [Matches, nullable]
  | literal s => cases s <;> simp [Matches, nullable]
  | set s => simp [Matches, nullable]
  | cat p q hp hq => simp [Matches, nullable, ← hp, ← hq]
  | alt p q hp hq => simp [Matches, nullable, ← hp, ← hq]
  | group number p hp => simpa only [Matches, nullable] using hp
  | «repeat» least most greedy p hp =>
    simp only [Matches, nullable, Bool.and_eq_true, Bool.or_eq_true, beq_iff_eq, ← hp,
      Option.all_eq_true, decide_eq_true_eq]
    constructor
    · rintro ⟨us, hl, hm, hus, hflat⟩
      refine ⟨fun k hk => Nat.le_trans hl (hm k hk), ?_⟩
      cases us with
      | nil => exact .inl (Nat.le_zero.1 hl)
      | cons u us =>
        obtain ⟨rfl, -⟩ := List.append_eq_nil_iff.1 hflat
        exact .inr (hus _ (by simp))
    · rintro ⟨hm, hn⟩
      refine ⟨List.replicate least [], by simp, by simpa using hm, fun u hu => ?_, by simp⟩
      obtain ⟨hne, rfl⟩ := List.mem_replicate.1 hu
      exact hn.resolve_left hne

/-! ## After a character -/

/-- What can follow the character with the code point `n`. -/
def after (n : Nat) : Pattern → List Pattern
  | empty | look _ | literal [] => []
  | literal (x :: s) => if x.toNat = n then [literal s] else []
  | set s => if s.ranges.has n then [empty] else []
  | cat p q => (p.after n).map (cat · q) ++ if p.nullable then q.after n else []
  | alt p q => p.after n ++ q.after n
  | «repeat» least most greedy p =>
    if most = some 0 then []
    else (p.after n).map (cat · («repeat» (least - 1) (most.map (· - 1)) greedy p))
  | group _ p => p.after n

/-- Of the rounds of a repetition that begin with a character, one that consumes nothing can as well
come after the first that consumes something. -/
theorem flatten_eq_cons {us : List (List Char)} (h : us.flatten = c :: w)
    (hp : ∀ u ∈ us, p.Matches u) : ∃ (u : List Char) (vs : List (List Char)),
      p.Matches (c :: u) ∧ (∀ v ∈ vs, p.Matches v) ∧ u ++ vs.flatten = w ∧
        us.length = vs.length + 1 := by
  induction us with
  | nil => cases h
  | cons u us ih =>
    obtain ⟨hu, hus⟩ := List.forall_mem_cons.1 hp
    cases u with
    | nil =>
      obtain ⟨u, vs, hc, hvs, hw, hl⟩ := ih h hus
      exact ⟨u, [] :: vs, hc, List.forall_mem_cons.2 ⟨hu, hvs⟩, hw, by simp [hl]⟩
    | cons x u =>
      obtain ⟨rfl, hw⟩ := List.cons.inj h
      exact ⟨u, us, hu, hus, hw, rfl⟩

theorem matches_cat_cons : (cat p q).Matches (c :: w) ↔
    (∃ u v, p.Matches (c :: u) ∧ q.Matches v ∧ u ++ v = w) ∨ p.Matches [] ∧ q.Matches (c :: w) := by
  constructor
  · rintro ⟨u, v, hu, hv, h⟩
    cases u with
    | nil =>
      obtain rfl : v = c :: w := h
      exact .inr ⟨hu, hv⟩
    | cons x u =>
      obtain ⟨rfl, hw⟩ := List.cons.inj h
      exact .inl ⟨u, v, hu, hv, hw⟩
  · rintro (⟨u, v, hu, hv, rfl⟩ | ⟨hp, hq⟩)
    · exact ⟨c :: u, v, hu, hv, rfl⟩
    · exact ⟨[], c :: w, hp, hq, rfl⟩

theorem matches_repeat_cons {least : Nat} {most : Option Nat} {greedy : Bool} :
    («repeat» least most greedy p).Matches (c :: w) ↔ most ≠ some 0 ∧
      ∃ u v, p.Matches (c :: u) ∧
        («repeat» (least - 1) (most.map (· - 1)) greedy p).Matches v ∧ u ++ v = w := by
  constructor
  · rintro ⟨us, hl, hm, hus, h⟩
    obtain ⟨u, vs, hu, hvs, hw, hlen⟩ := flatten_eq_cons h hus
    refine ⟨?_, u, vs.flatten, hu, ⟨vs, by omega, fun k hk => ?_, hvs, rfl⟩, hw⟩
    · rintro rfl
      exact absurd (hm 0 rfl) (by omega)
    · obtain ⟨j, hj, rfl⟩ := Option.map_eq_some_iff.1 hk
      have := hm j hj
      omega
  · rintro ⟨hne, u, _, hu, ⟨vs, hl, hm, hvs, rfl⟩, rfl⟩
    refine ⟨(c :: u) :: vs, by simp only [List.length_cons]; omega, fun k hk => ?_,
      List.forall_mem_cons.2 ⟨hu, hvs⟩, rfl⟩
    have hpos : k ≠ 0 := by
      rintro rfl
      exact hne hk
    have := hm (k - 1) (Option.map_eq_some_iff.2 ⟨k, hk, rfl⟩)
    simp only [List.length_cons]
    omega

theorem matches_map_cat {ps : List Pattern} :
    (∃ r ∈ ps.map (cat · q), r.Matches w) ↔
      ∃ u v, (∃ p ∈ ps, p.Matches u) ∧ q.Matches v ∧ u ++ v = w := by
  constructor
  · rintro ⟨_, hr, hm⟩
    obtain ⟨p, hp, rfl⟩ := List.mem_map.1 hr
    obtain ⟨u, v, hu, hv, hw⟩ := hm
    exact ⟨u, v, ⟨p, hp, hu⟩, hv, hw⟩
  · rintro ⟨u, v, ⟨p, hp, hu⟩, hv, hw⟩
    exact ⟨_, List.mem_map.2 ⟨p, hp, rfl⟩, u, v, hu, hv, hw⟩

/-- A text that begins with a character is one that does, and then one that can follow it: by
induction on the pattern. -/
theorem matches_cons (p : Pattern) (c : Char) (w : List Char) :
    p.Matches (c :: w) ↔ ∃ q ∈ p.after c.toNat, q.Matches w := by
  induction p generalizing w with
  | empty | look => simp [Matches, after]
  | literal s =>
    cases s with
    | nil => simp [Matches, after]
    | cons x s =>
      have hx : x.toNat = c.toNat ↔ c = x := by
        rw [eq_comm, Char.toNat_inj]
      by_cases h : c = x <;> simp [Matches, after, hx, h]
  | set s =>
    have hs : s.ranges.has c.toNat = s.has c := rfl
    cases h : s.has c <;> simp [Matches, after, hs, h]
  | alt p q hp hq => simp only [Matches, after, hp, hq, List.mem_append, or_and_right, exists_or]
  | group number p hp => exact hp w
  | cat p q hp hq =>
    simp only [matches_cat_cons, after, hp, hq, matches_nil, List.mem_append, or_and_right,
      exists_or, matches_map_cat]
    cases p.nullable <;> simp
  | «repeat» least most greedy p hp =>
    rw [matches_repeat_cons]
    by_cases h : most = some 0
    · simp [after, h]
    · simp only [after, if_neg h, matches_map_cat, hp]
      exact and_iff_right h

/-- The texts of a pattern can be tested character by character. -/
instance decidableMatches : (p : Pattern) → (w : List Char) → Decidable (p.Matches w)
  | p, [] => decidable_of_iff _ (matches_nil p).symm
  | p, c :: w =>
    have : DecidablePred fun q : Pattern => q.Matches w := fun q => decidableMatches q w
    decidable_of_iff _ (matches_cons p c w).symm

/-! ## Characters alike -/

/-- The code points where it may change what can follow. -/
def points : Pattern → List Nat
  | empty | look _ => []
  | literal s => s.flatMap fun x => [x.toNat, x.toNat + 1]
  | set s => s.points
  | cat p q | alt p q => p.points ++ q.points
  | «repeat» _ _ _ p | group _ p => p.points

theorem after_congr (p : Pattern) (h : ∀ b ∈ p.points, b ≤ n ↔ b ≤ m) : p.after n = p.after m := by
  induction p with
  | empty | look => rfl
  | literal s =>
    cases s with
    | nil => rfl
    | cons x s =>
      have hx : ∀ b ∈ [x.toNat, x.toNat + 1], b ≤ n ↔ b ≤ m :=
        fun b hb => h b (List.mem_flatMap.2 ⟨x, by simp, hb⟩)
      have hlo := hx x.toNat (by simp)
      have hhi := hx (x.toNat + 1) (by simp)
      have heq : x.toNat = n ↔ x.toNat = m := by omega
      simp only [after, heq]
  | set s => simp only [after, CharSet.has_congr h]
  | cat p q hp hq | alt p q hp hq =>
    obtain ⟨h₁, h₂⟩ := List.forall_mem_append.1 h
    simp only [after, hp h₁, hq h₂]
  | «repeat» least most greedy p hp => simp only [after, hp h]
  | group number p hp => exact hp h

end Pattern
end Descent.Regex
