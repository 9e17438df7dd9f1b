import Descent.Proofs.Supply
import Mathlib.Data.List.OfFn

/-!
# Guarded recursion

A reference to a definition is guarded if something that cannot succeed without consuming has to
succeed between the two, in one sequence (`Grammar.Guarded`). Main theorem `Grammar.Guarded.total`:
if all references are guarded, every run over an input of which at most `k` is left ends, and fuel
`k + 1` is enough for it.

The proof is by induction on the grammar, for every `k` at once. Where a reference may be reached
without consumption it has to be total up to `k`, which the enclosing definition cannot promise;
anywhere else it only has to be so below `k`, which is what the definition's own induction gives.
-/

namespace Descent

/-- The definitions around a place in a grammar, innermost first. -/
inductive Enclosing (ε : Type) (S : Signature) : List Type → Type 1
  | nil : Enclosing ε S []
  | cons {Γ : List Type} {α : Type} (cell : Nat) (body : Grammar ε S (α :: Γ) α)
    (K : Enclosing ε S Γ) : Enclosing ε S (α :: Γ)

def Enclosing.env {σ ε : Type} {S : Signature} [Cursor σ ε] [Element ε] [Interprets S σ] (n : Nat) :
    {Γ : List Type} → Enclosing ε S Γ → Env σ Γ
  | _, nil => Env.nil
  | _, cons cell body K => Env.cons (Grammar.run n (.fix cell body) (K.env n)) (K.env n)

namespace Grammar

variable {ε : Type} {S : Signature} [Element ε]

section Definitions

variable (σ : Type) [Cursor σ ε] [Interprets S σ]

/-- Wherever `p` is run inside the definitions `K`, it does not succeed without consuming. -/
def Advances {Γ : List Type} {α : Type} (K : Enclosing ε S Γ) (p : Grammar ε S Γ α) : Prop :=
  ∀ n, Parser.Consumes (run n p (K.env n) : Parser σ α)

/-- The references that may stand inside a new definition: those that might stand around it. -/
def inside {Γ : List Type} {α : Type} (free : ∀ β, Var Γ β → Prop) : ∀ β, Var (α :: Γ) β → Prop
  | _, .here => False
  | _, .there v => free _ v

/-- Every reference in the grammar, which stands inside the definitions `K`, is guarded or `free`: a
variable becomes free where something has been consumed since its definition began. No part of it
that is counted needs more memory than can be asked for. -/
def Guarded : {Γ : List Type} → {α : Type} → Grammar ε S Γ α → (K : Enclosing ε S Γ) →
    (free : ∀ β, Var Γ β → Prop) → Prop
  | _, _, item _ _, _, _ | _, _, any, _, _ | _, _, ret _, _, _ | _, _, fail _, _, _
  | _, _, eof, _, _ | _, _, prim _, _, _ => True
  | _, _, ref v, _, free => free _ v
  | _, _, finish p, K, free | _, _, map _ p, K, free | _, _, tryMap _ p, K, free
  | _, _, check _ _ p, K, free | _, _, attempt p, K, free | _, _, opt p, K, free
  | _, _, lookAhead p, K, free | _, _, named _ p, K, free | _, _, many p, K, free
  | _, _, many1 p, K, free | _, _, skipMany p, K, free | _, _, skipMany1 p, K, free
  | _, _, scope _ p, K, free => p.Guarded K free
  | _, _, count size n p, K, free => size * n ≤ Parser.largestAllocation ∧ p.Guarded K free
  | _, _, bind p f, K, free =>
    p.Guarded K free ∧ ∀ v, (f v).Guarded K fun β x => free β x ∨ p.Advances σ K
  | _, _, all _ ps, K, free =>
    ∀ i, (ps i).Guarded K fun β x => free β x ∨ ∃ j < i, (ps j).Advances σ K
  | _, _, right p q, K, free | _, _, left p q, K, free | _, _, chainLeft p q, K, free
  | _, _, chainRight p q, K, free | _, _, sepBy q p, K, free | _, _, sepBy1 q p, K, free =>
    p.Guarded K free ∧ q.Guarded K fun β x => free β x ∨ p.Advances σ K
  | _, _, or p q, K, free | _, _, manyTill p q, K, free => p.Guarded K free ∧ q.Guarded K free
  | _, _, choice _ ps, K, free | _, _, tryChoice _ ps, K, free => ∀ i, (ps i).Guarded K free
  | _, _, fix cell p, K, free => p.Guarded (.cons cell p K) (inside free)

end Definitions

variable {σ : Type} [Cursor σ ε] [Interprets S σ] {Γ : List Type} {α β : Type} {P : Supply σ}
  {K : Enclosing ε S Γ} {free : ∀ β, Var Γ β → Prop} {n k : Nat} {ρ : Env σ Γ}

theorem env_moves (hS : ∀ {β : Type} (p : S.Prim β), P.Moves (Interprets.prim p)) :
    ∀ {Γ : List Type} (K : Enclosing ε S Γ) {β : Type} (v : Var Γ β), P.Moves (K.env n v)
  | _, .cons cell body K, _, .here => run_ahead hS (.fix cell body) (env_moves hS K)
  | _, .cons _ _ K, _, .there v => env_moves hS K v

/-- The bound parsers go no further than the definitions do, and are total as far as these can be
relied on. -/
structure Bounds (P : Supply σ) (K : Enclosing ε S Γ) (free : ∀ β, Var Γ β → Prop) (n k : Nat)
    (ρ : Env σ Γ) : Prop where
  le {β : Type} (v : Var Γ β) (c : σ) (r : Reply σ β) : ρ v c = some r → K.env n v c = some r
  upTo {β : Type} (v : Var Γ β) : free β v → P.Total (ρ v) k
  below {β : Type} (v : Var Γ β) {j : Nat} : j < k → P.Total (ρ v) j

namespace Bounds

theorem nil {free : ∀ β, Var [] β → Prop} : Bounds P (.nil : Enclosing ε S []) free n k Env.nil :=
  ⟨(fun v => nomatch v), (fun v => nomatch v), (fun v => nomatch v)⟩

/-- With less left every reference can be relied on. -/
theorem lower {free' : ∀ β, Var Γ β → Prop} {j : Nat} (h : Bounds P K free n k ρ) (hj : j < k) :
    Bounds P K free' n j ρ :=
  ⟨h.le, fun v _ => h.below v hj, fun v _ hi => h.below v (Nat.lt_trans hi hj)⟩

theorem weaken {free' : ∀ β, Var Γ β → Prop} (h : Bounds P K free n k ρ)
    (hf : ∀ β v, free' β v → free β v) : Bounds P K free' n k ρ :=
  ⟨h.le, fun v hv => h.upTo v (hf _ v hv), h.below⟩

theorem moves (hS : ∀ {β : Type} (p : S.Prim β), P.Moves (Interprets.prim p))
    (h : Bounds P K free n k ρ) (p : Grammar ε S Γ α) : P.Moves (run n p ρ) :=
  run_ahead hS p fun v c r hr => env_moves hS K v c r (h.le v c r hr)

theorem consumes (h : Bounds P K free n k ρ) {p : Grammar ε S Γ α} (hp : p.Advances σ K) :
    (run n p ρ : Parser σ α).Consumes :=
  fun c v d hr => hp n c v d (run_le (Nat.le_refl n) p h.le hr)

/-- A grammar that stands after `p` in sequence. -/
theorem follows {p : Grammar ε S Γ α} {q : Grammar ε S Γ β} (h : Bounds P K free n k ρ)
    (hq : ∀ {j : Nat}, j ≤ k → Bounds P K (fun β x => free β x ∨ p.Advances σ K) n j ρ →
      P.Total (run n q ρ) j) : P.Follows (run n p ρ) (run n q ρ) k where
  upTo ha := by
    refine hq (Nat.le_refl k) (h.weaken fun _ _ hv => hv.resolve_right fun hp => ?_)
    exact ha (h.consumes hp)
  below hj := hq (Nat.le_of_lt hj) (h.lower hj)

end Bounds

/-- Fuel `k + 1` is enough for a guarded grammar and at most `k` left. -/
theorem Guarded.total (hS : ∀ {β : Type} (p : S.Prim β), P.Moves (Interprets.prim p))
    (ht : ∀ {β : Type} (p : S.Prim β) (k : Nat), P.Total (Interprets.prim p) k)
    (g : Grammar ε S Γ α) : ∀ {K : Enclosing ε S Γ} {free : ∀ β, Var Γ β → Prop} {k : Nat}
      {ρ : Env σ Γ}, g.Guarded σ K free → k < n → Bounds P K free n k ρ →
      P.Total (run n g ρ) k := by
  induction g with
  | item _ rule => exact fun _ _ _ => Supply.total_item rule
  | any => exact fun _ _ _ => Supply.total_any
  | ret v => exact fun _ _ _ => Supply.total_pure v
  | fail message => exact fun _ _ _ => Supply.total_of_ready fun _ _ => ⟨_, rfl⟩
  | eof => exact fun _ _ _ => Supply.total_eof
  | finish p ih => exact fun hg hk hb => (ih hg hk hb).finish (hb.moves hS p)
  | map f p ih => exact fun hg hk hb => (ih hg hk hb).map f
  | tryMap f p ih => exact fun hg hk hb => (ih hg hk hb).tryMap f
  | check ok message p ih => exact fun hg hk hb => (ih hg hk hb).check ok message
  | bind p f ih ihf =>
    intro K free k ρ ⟨hp, hf⟩ hk hb
    refine (ih hp hk hb).andThen (hb.moves hS p) fun v => hb.follows fun hj hb' => ?_
    exact ihf v (hf v) (Nat.lt_of_le_of_lt hj hk) hb'
  | all _ ps ih =>
    intro K free k ρ hps hk hb
    refine Supply.Total.all (fun i => hb.moves hS (ps i)) (fun i hi => ?_) fun i j hj => ?_
    · refine ih i (hps i) hk (hb.weaken fun β v hv => hv.resolve_right ?_)
      rintro ⟨j, hj, ha⟩
      exact hi j hj (hb.consumes ha)
    · exact ih i (hps i) (Nat.lt_trans hj hk) (hb.lower hj)
  | right p q ihp ihq =>
    intro K free k ρ ⟨hp, hq⟩ hk hb
    refine (ihp hp hk hb).andThen (hb.moves hS p) fun _ => hb.follows fun hj hb' => ?_
    exact ihq hq (Nat.lt_of_le_of_lt hj hk) hb'
  | left p q ihp ihq =>
    intro K free k ρ ⟨hp, hq⟩ hk hb
    refine (ihp hp hk hb).andThen (hb.moves hS p) fun _ => (hb.follows fun hj hb' => ?_).map _
    exact ihq hq (Nat.lt_of_le_of_lt hj hk) hb'
  | or p q ihp ihq => exact fun hg hk hb => (ihp hg.1 hk hb).or (hb.moves hS p) (ihq hg.2 hk hb)
  | attempt p ih => exact fun hg hk hb => (ih hg hk hb).attempt
  | choice label ps ih =>
    refine fun hg hk hb => Supply.Total.choice label (List.forall_mem_ofFn_iff.2 fun i => ?_)
    exact ⟨ih i (hg i) hk hb, hb.moves hS (ps i)⟩
  | tryChoice label ps ih =>
    refine fun hg hk hb => Supply.Total.tryChoice label (List.forall_mem_ofFn_iff.2 fun i => ?_)
    exact ⟨ih i (hg i) hk hb, hb.moves hS (ps i)⟩
  | opt p ih => exact fun hg hk hb => (ih hg hk hb).opt
  | lookAhead p ih => exact fun hg hk hb => (ih hg hk hb).lookAhead
  | named label p ih => exact fun hg hk hb => (ih hg hk hb).mapError (.named label)
  | many p ih =>
    exact fun hg hk hb => (ih hg hk hb).manyFrom (hb.moves hS p) [] hk (Nat.le_refl _)
  | many1 p ih =>
    intro K free k ρ hg hk hb
    have hp := ih hg hk hb
    have hm := hb.moves hS p
    exact hp.andThen hm fun v => (hp.manyFrom hm [v] hk (Nat.le_refl k)).follows
  | count size m p ih => exact fun hg hk hb => (ih hg.2 hk hb).count (hb.moves hS p) hg.1
  | sepBy sep p ihs ihp =>
    intro K free k ρ ⟨hp, hs⟩ hk hb
    refine (ihp hp hk hb).sepBy (hb.moves hS p) (hb.follows fun hj hb' => ?_) (hb.moves hS sep) hk
    exact ihs hs (Nat.lt_of_le_of_lt hj hk) hb'
  | sepBy1 sep p ihs ihp =>
    intro K free k ρ ⟨hp, hs⟩ hk hb
    refine (ihp hp hk hb).sepBy1 (hb.moves hS p) (hb.follows fun hj hb' => ?_) (hb.moves hS sep) hk
    exact ihs hs (Nat.lt_of_le_of_lt hj hk) hb'
  | manyTill p stop ihp ihs =>
    intro K free k ρ ⟨hp, hs⟩ hk hb
    exact (ihp hp hk hb).tillFrom (hb.moves hS p) (ihs hs hk hb) (hb.moves hS stop) [] hk
      (Nat.le_refl k)
  | skipMany p ih => exact fun hg hk hb => (ih hg hk hb).skipMany (hb.moves hS p) hk
  | skipMany1 p ih =>
    intro K free k ρ hg hk hb
    have hp := ih hg hk hb
    have hm := hb.moves hS p
    exact hp.andThen hm fun _ => (hp.skipMany hm hk).follows
  | chainLeft p op ihp iho =>
    intro K free k ρ ⟨hp, ho⟩ hk hb
    show P.Total ((run n p ρ).chainLeft n (run n op ρ)) k
    rw [Parser.chainLeft_eq_many]
    refine (ihp hp hk hb).chain _ (hb.moves hS p) (hb.follows fun hj hb' => ?_) (hb.moves hS op) hk
    exact iho ho (Nat.lt_of_le_of_lt hj hk) hb'
  | chainRight p op ihp iho =>
    intro K free k ρ ⟨hp, ho⟩ hk hb
    refine (ihp hp hk hb).chain _ (hb.moves hS p) (hb.follows fun hj hb' => ?_) (hb.moves hS op) hk
    exact iho ho (Nat.lt_of_le_of_lt hj hk) hb'
  | fix cell p ih =>
    intro K free k ρ hg hk hb
    refine Supply.total_fixpoint (fun depth hd j hj hself => ?_) (Nat.le_refl n) hk (Nat.le_refl k)
    intro c hc hl
    have hv := P.visit cell c
    refine ih hg (Nat.lt_of_le_of_lt hj hk) ⟨?_, ?_, ?_⟩ _ (P.ready hv hc)
      (Nat.le_trans (P.left_le hv hc) hl)
    · rintro β (_ | v) d r hr
      · exact fixpoint_le (Nat.le_refl n) (Nat.le_of_lt hd) cell p hb.le hr
      · exact hb.le v d r hr
    · rintro β (_ | v) hf
      · exact hf.elim
      · exact (hb.upTo v hf).mono hj
    · rintro β (_ | v) i hi
      · exact hself i hi
      · exact hb.below v (Nat.lt_of_lt_of_le hi hj)
  | ref v => exact fun hv _ hb => hb.upTo v hv
  | prim p => exact fun _ _ _ => ht p _
  | scope s p ih => exact fun hg hk hb => (ih hg hk hb).judge _

end Grammar
end Descent
