import Descent.Proofs.Cells
import Descent.Proofs.Limits
import Mathlib.Order.Filter.AtTopBot.Prod

/-!
# Runs through cells

A grammar with its definitions in cells runs as the grammar does. In a world where everything that
is looked at is found to be what it was built from, the one run ends as the other and looks at the
cells that the other enters (`Links.yields`, `Links.of_run`), and the name that is told is the
grammar's name (`Links.tells`).

The two use up fuel differently, since cells are entered inside of each other: how deep the one run
goes is bounded for each definition, and how deep the other goes, for all of them together. So they
are compared in the limit, by induction on the grammar and, for a definition, on how deep it enters
itself.
-/

namespace Descent

open Filter

namespace Definitions

variable {σ ε α W : Type} {S : Signature} {L : Nat → Type} {Γ : List Type}
  {P : Definitions ε S L} {get : Nat → W → Nat × W} {w : W}

/-! ## Names -/

theorem Truthful.after (hw : P.Truthful get w) (cells : List Nat) :
    P.Truthful get (Amid.after (onward get) cells w) := by
  intro cells' cell
  rw [← Amid.after_append]
  exact hw _ _

/-- In truthful worlds this comes to `v`, and to look at these cells. With too little fuel it comes
to nothing, whatever the world is. -/
structure Yields (P : Definitions ε S L) (get : Nat → W → Nat × W) {β : Type}
    (act : Nat → StateT W Option β) (v : β) (cells : List Nat) : Prop where
  uniform (m : Nat) : (∀ w, P.Truthful get w → act m w = none) ∨
    ∀ w, P.Truthful get w → act m w = some (v, Amid.after (onward get) cells w)
  ends : ∀ᶠ m in atTop, ∀ w, P.Truthful get w →
    act m w = some (v, Amid.after (onward get) cells w)

namespace Yields

variable {β γ : Type} {act : Nat → StateT W Option β} {v : β} {cells : List Nat}

theorem pure (v : β) : P.Yields get (fun _ => Pure.pure v) v [] where
  uniform _ := .inr fun _ _ => rfl
  ends := .of_forall fun _ _ _ => rfl

theorem bind {f : Nat → β → StateT W Option γ} {v' : γ} {cells' : List Nat}
    (h : P.Yields get act v cells) (h' : P.Yields get (f · v) v' cells') :
    P.Yields get (fun m => act m >>= f m) v' (cells ++ cells') := by
  have hb (m : Nat) (w : W) : (act m >>= f m) w = (act m w).bind fun r => f m r.1 r.2 := rfl
  refine ⟨fun m => ?_, ?_⟩
  · rcases h.uniform m with hm | hm
    · exact .inl fun w hw => by rw [hb, hm w hw, Option.bind_none]
    · rcases h'.uniform m with hm' | hm'
      · exact .inl fun w hw => by rw [hb, hm w hw, Option.bind_some, hm' _ (hw.after cells)]
      · refine .inr fun w hw => ?_
        rw [hb, hm w hw, Option.bind_some, hm' _ (hw.after cells), Amid.after_append]
  · filter_upwards [h.ends, h'.ends] with m hm hm' w hw
    rw [hb, hm w hw, Option.bind_some, hm' _ (hw.after cells), Amid.after_append]

theorem map (f : β → γ) (h : P.Yields get act v cells) :
    P.Yields get (fun m => act m >>= fun x => Pure.pure (f x)) (f v) cells := by
  have hf := h.bind (f := fun _ x => Pure.pure (f x)) (pure (f v))
  rwa [List.append_nil] at hf

theorem ofFn : ∀ {n : Nat} {act : Fin n → Nat → StateT W Option β} {v : Fin n → β}
    {cells : Fin n → List Nat}, (∀ i, P.Yields get (act i) (v i) (cells i)) →
    P.Yields get (fun m => (List.ofFn fun i => act i m).mapM id) (List.ofFn v)
      (List.ofFn cells).flatten
  | 0, _, _, _, _ => by
    simp only [List.ofFn_zero, List.mapM_nil]
    exact pure _
  | n + 1, _, v, _, h => by
    simp only [List.ofFn_succ, List.mapM_cons, List.flatten_cons]
    exact (h 0).bind ((ofFn fun i => h i.succ).map (v 0 :: ·))

end Yields

theorem tellLink_prim (m : Nat) (p : S.Prim α) :
    P.tellLink get m (.prim p) = pure (S.primName p) := by
  cases m <;> rfl

theorem tellLink_link : ∀ {Γ : List Type} (B : Binders L Γ) {α : Type} (v : Var Γ α) (m : Nat),
    P.tellLink get m (B.link v) = pure Grammar.referenceName
  | _, .cons _ _, _, .here, m => by cases m <;> rfl
  | _, .cons _ B, _, .there v, m => tellLink_link B v m

/-- What is told through cells is the name of the grammar. -/
theorem Links.tells {B : Binders L Γ} {g : Grammar ε S Γ α} {l : Linked ε S L α}
    (h : P.Links B g l) : P.Yields get (fun m => P.tell get m l) g.name g.namingCells := by
  induction h with
  | item | any | ret | fail | eof | choice | tryChoice | named => exact .pure _
  | finish _ ih | map _ ih | tryMap _ ih | check _ ih | attempt _ ih | scope _ ih => exact ih
  | bind _ _ ih | opt _ ih | lookAhead _ ih | many _ ih | many1 _ ih | count _ ih
  | skipMany _ ih | skipMany1 _ ih => exact ih.map _
  | all _ ih => exact (Yields.ofFn ih).map _
  | right _ _ ihp ihq => exact ihq.bind (ihp.map _)
  | left _ _ ihp ihq | or _ _ ihp ihq | manyTill _ _ ihp ihq | chainLeft _ _ ihp ihq
  | chainRight _ _ ihp ihq => exact ihp.bind (ihq.map _)
  | sepBy _ _ ihs ihp | sepBy1 _ _ ihs ihp => exact ihp.bind (ihs.map _)
  | @ref Γ B α v =>
    have hname : (fun m => P.tell get m (.prim (B.link v) : Linked ε S L α)) = fun _ => pure _ :=
      funext fun m => tellLink_link B v m
    exact hname ▸ .pure _
  | @prim Γ B α p =>
    have hname : (fun m => P.tell get m (.prim (.prim p) : Linked ε S L α)) = fun _ => pure _ :=
      funext fun m => tellLink_prim m p
    exact hname ▸ .pure _
  | @fix Γ B cell body _ ih =>
    have hsucc (m : Nat) {w : W} (hw : P.Truthful get w) :
        P.tell get (m + 1) (.prim (.own cell)) w =
          P.tell get m (P.held cell (P.built cell)) (onward get cell w) := by
      have hbuilt : (get cell w).1 = P.built cell := hw [] cell
      rw [← hbuilt]
      rfl
    refine ⟨fun m => ?_, ?_⟩
    · cases m with
      | zero => exact .inl fun _ _ => rfl
      | succ m =>
        rcases ih.uniform m with hm | hm
        · exact .inl fun w hw => (hsucc m hw).trans (hm _ (hw.after [cell]))
        · exact .inr fun w hw => (hsucc m hw).trans (hm _ (hw.after [cell]))
    · filter_upwards [(tendsto_sub_atTop_nat 1).eventually ih.ends, eventually_ge_atTop 1]
        with m hm h1 w hw
      obtain ⟨m, rfl⟩ := Nat.exists_eq_add_of_le' h1
      exact (hsucc m hw).trans (hm _ (hw.after [cell]))

variable [Cursor σ ε] [Element ε] [Interprets S σ]

/-! ## The same world -/

section

variable (hget : ∀ cell w, (get cell w).1 = P.built cell)

include hget

theorem enter_succ (n depth cell : Nat) (c : Amid (onward get) σ) :
    P.enter get n (depth + 1) cell c =
      P.run get n depth (P.held cell (P.built cell)) (Cursor.visit cell c) := by
  rw [← hget cell c.world]
  rfl

/-- A definition that enters itself `m` times, from its body: a look at the cell is one entry. -/
theorem tends_enter {cell n : Nat} {body : Grammar ε S (L cell :: Γ) (L cell)}
    {ρ : Env (Amid (onward get) σ) Γ}
    (hbody : ∀ {self : Parser (Amid (onward get) σ) (L cell)},
      Parser.Tends (atTop ×ˢ atTop) self (fun x => P.enter get x.1 x.2 cell) →
      Parser.Tends (atTop ×ˢ atTop) (body.run n (Env.cons self ρ))
        fun x => P.run get x.1 x.2 (P.held cell (P.built cell))) (m : Nat) :
    Parser.Tends (atTop ×ˢ atTop)
      (Parser.fixpoint (fun self c => body.run n (Env.cons self ρ) (Cursor.visit cell c)) m)
      fun x => P.enter get x.1 x.2 cell := by
  induction m with
  | zero => exact fun c r hr => nomatch hr
  | succ m ih =>
    intro c r hr
    -- one look less is left inside of the cell
    have hinside : Tendsto (fun x : Nat × Nat => (x.1, x.2 - 1)) (atTop ×ˢ atTop)
      (atTop ×ˢ atTop) := tendsto_fst.prodMk ((tendsto_sub_atTop_nat 1).comp tendsto_snd)
    filter_upwards [hinside.eventually (hbody ih (Cursor.visit cell c) r hr),
      tendsto_snd.eventually_ge_atTop 1] with x hx h1
    obtain ⟨d, hd⟩ := Nat.exists_eq_add_of_le' h1
    rw [hd, enter_succ hget]
    simpa [hd] using hx

/-- However a run of the grammar ends, so does one through cells if it has enough fuel. -/
theorem Links.tends {B : Binders L Γ} {g : Grammar ε S Γ α} {l : Linked ε S L α}
    (h : P.Links B g l) (n : Nat) {ρ : Env (Amid (onward get) σ) Γ}
    (hρ : ∀ {β : Type} (v : Var Γ β), Parser.Tends (atTop ×ˢ atTop) (ρ v)
      fun x => P.run get x.1 x.2 (.prim (B.link v))) :
    Parser.Tends (atTop ×ˢ atTop) (g.run n ρ) fun x => P.run get x.1 x.2 l := by
  have hfuel : Tendsto Prod.fst (atTop ×ˢ atTop : Filter (Nat × Nat)) atTop := tendsto_fst
  induction h with
  | item | any | ret | fail | eof | prim => exact .const _
  | finish _ ih => exact (ih hρ).finish
  | map _ ih => exact (ih hρ).map _
  | tryMap _ ih => exact (ih hρ).tryMap _
  | check _ ih => exact (ih hρ).check _ _
  | bind _ _ ih ihf => exact (ih hρ).andThen fun v => ihf v hρ
  | all _ ih => exact .all fun i => ih i hρ
  | right _ _ ihp ihq => exact (ihp hρ).right (ihq hρ)
  | left _ _ ihp ihq => exact (ihp hρ).left (ihq hρ)
  | or _ _ ihp ihq => exact (ihp hρ).or (ihq hρ)
  | attempt _ ih => exact (ih hρ).attempt
  | choice _ ih => exact .choice _ fun i => ih i hρ
  | tryChoice _ ih => exact .tryChoice _ fun i => ih i hρ
  | opt _ ih => exact (ih hρ).opt
  | lookAhead _ ih => exact (ih hρ).lookAhead
  | named _ ih => exact (ih hρ).mapError _
  | many _ ih => exact .manyFrom hfuel (ih hρ) n []
  | many1 _ ih => exact (ih hρ).andThen fun v => .manyFrom hfuel (ih hρ) n [v]
  | count _ ih => exact (ih hρ).count _ _
  | sepBy _ _ ihs ihp => exact .sepBy hfuel (ihs hρ) (ihp hρ) n
  | sepBy1 _ _ ihs ihp => exact (ihp hρ).andThen fun v => .sepFrom hfuel (ihs hρ) (ihp hρ) n [v]
  | manyTill _ _ ihp ihs => exact .tillFrom hfuel (ihp hρ) (ihs hρ) n []
  | skipMany _ ih => exact .skipMany hfuel (ih hρ) n
  | skipMany1 _ ih => exact (ih hρ).andThen fun _ => .skipMany hfuel (ih hρ) n
  | chainLeft _ _ ihp iho => exact .chainLeft hfuel (ihp hρ) (iho hρ) n
  | chainRight _ _ ihp iho =>
    exact (ihp hρ).andThen fun _ => (Parser.Tends.manyFrom hfuel ((iho hρ).pair (ihp hρ)) n []).map _
  | fix _ ih =>
    refine tends_enter hget (fun hself => ih fun v => ?_) n
    cases v with
    | here => exact hself
    | there v => exact hρ v
  | ref => exact hρ _
  | scope _ ih => exact (ih hρ).judge _

/-- Looks at a cell inside of each other, from what the body of the definition does between them. -/
theorem enter_tends {cell m depth : Nat} {body : Grammar ε S (L cell :: Γ) (L cell)}
    {ρ : Nat → Env (Amid (onward get) σ) Γ}
    (hbody : ∀ k ≤ depth, ∀ {self : Nat → Parser (Amid (onward get) σ) (L cell)},
      (∀ j ≤ k, Parser.Tends atTop (P.enter get m j cell) self) →
      Parser.Tends atTop (P.run get m k (P.held cell (P.built cell)))
        fun n => body.run n (Env.cons (self n) (ρ n))) :
    Parser.Tends atTop (P.enter get m depth cell) fun n =>
      Parser.fixpoint (fun self c => body.run n (Env.cons self (ρ n)) (Cursor.visit cell c)) n := by
  have hdepth : ∀ d ≤ depth, ∀ k ≤ d, Parser.Tends atTop (P.enter get m k cell) fun n =>
      Parser.fixpoint (fun self c => body.run n (Env.cons self (ρ n)) (Cursor.visit cell c)) d := by
    intro d
    induction d with
    | zero =>
      intro _ k hk c r hr
      obtain rfl := Nat.le_zero.1 hk
      cases hr
    | succ d ih =>
      intro hd k hk c r hr
      cases k with
      | zero => cases hr
      | succ k =>
        rw [enter_succ hget] at hr
        exact hbody k (by omega) (fun j hj => ih (by omega) j (by omega)) _ r hr
  intro c r hr
  filter_upwards [hdepth depth (Nat.le_refl _) depth (Nat.le_refl _) c r hr,
    eventually_ge_atTop depth] with n hn hle
  exact Grammar.fixpoint_le (Nat.le_refl n) hle cell body (fun _ _ _ h => h) hn

/-- However a run through cells ends, so does one of the grammar if it has enough fuel. -/
theorem Links.tends_run {B : Binders L Γ} {g : Grammar ε S Γ α} {l : Linked ε S L α}
    (h : P.Links B g l) (m depth : Nat) {ρ : Nat → Env (Amid (onward get) σ) Γ}
    (hρ : ∀ {β : Type} (v : Var Γ β), ∀ d ≤ depth,
      Parser.Tends atTop (P.run get m d (.prim (B.link v))) fun n => ρ n v) :
    Parser.Tends atTop (P.run get m depth l) fun n => g.run n (ρ n) := by
  have hfuel : Tendsto id (atTop : Filter Nat) atTop := tendsto_id
  induction h generalizing depth with
  | item | any | ret | fail | eof | prim => exact .const _
  | finish _ ih => exact (ih _ hρ).finish
  | map _ ih => exact (ih _ hρ).map _
  | tryMap _ ih => exact (ih _ hρ).tryMap _
  | check _ ih => exact (ih _ hρ).check _ _
  | bind _ _ ih ihf => exact (ih _ hρ).andThen fun v => ihf v _ hρ
  | all _ ih => exact .all fun i => ih i _ hρ
  | right _ _ ihp ihq => exact (ihp _ hρ).right (ihq _ hρ)
  | left _ _ ihp ihq => exact (ihp _ hρ).left (ihq _ hρ)
  | or _ _ ihp ihq => exact (ihp _ hρ).or (ihq _ hρ)
  | attempt _ ih => exact (ih _ hρ).attempt
  | choice _ ih => exact .choice _ fun i => ih i _ hρ
  | tryChoice _ ih => exact .tryChoice _ fun i => ih i _ hρ
  | opt _ ih => exact (ih _ hρ).opt
  | lookAhead _ ih => exact (ih _ hρ).lookAhead
  | named _ ih => exact (ih _ hρ).mapError _
  | many _ ih => exact .manyFrom hfuel (ih _ hρ) m []
  | many1 _ ih => exact (ih _ hρ).andThen fun v => .manyFrom hfuel (ih _ hρ) m [v]
  | count _ ih => exact (ih _ hρ).count _ _
  | sepBy _ _ ihs ihp => exact .sepBy hfuel (ihs _ hρ) (ihp _ hρ) m
  | sepBy1 _ _ ihs ihp =>
    exact (ihp _ hρ).andThen fun v => .sepFrom hfuel (ihs _ hρ) (ihp _ hρ) m [v]
  | manyTill _ _ ihp ihs => exact .tillFrom hfuel (ihp _ hρ) (ihs _ hρ) m []
  | skipMany _ ih => exact .skipMany hfuel (ih _ hρ) m
  | skipMany1 _ ih => exact (ih _ hρ).andThen fun _ => .skipMany hfuel (ih _ hρ) m
  | chainLeft _ _ ihp iho => exact .chainLeft hfuel (ihp _ hρ) (iho _ hρ) m
  | chainRight _ _ ihp iho =>
    exact (ihp _ hρ).andThen fun _ =>
      (Parser.Tends.manyFrom hfuel ((iho _ hρ).pair (ihp _ hρ)) m []).map _
  | fix _ ih =>
    refine enter_tends hget fun k hk _ hself => ih k fun v j hj => ?_
    cases v with
    | here => exact hself j hj
    | there v => exact hρ v j (hj.trans hk)
  | ref => exact hρ _ depth (Nat.le_refl _)
  | scope _ ih => exact (ih _ hρ).judge _

end

/-! ## Truthful worlds -/

/-- A run in a world of its own, as it is seen from a run that began in the world `w`. -/
def beside (P : Definitions ε S L) (get : Nat → W → Nat × W) (w : W) :
    View (Amid (onward P.alone) σ) (Amid (onward get) σ) :=
  Amid.through (f := fun cells => Amid.after (onward get) cells.reverse w) fun cell cells => by
    simp [onward, alone, Amid.after_append]

omit [Element ε] in
theorem beside_respects {run : ∀ cell, Parser (Amid (onward P.alone) σ) (L cell)}
    {run' : ∀ cell, Parser (Amid (onward get) σ) (L cell)}
    (h : ∀ cell c, run' cell ((P.beside get w).see c) = (run cell c).map (P.beside get w).reply) :
    letI := Interprets.links (S := S) run
    letI := Interprets.links (S := S) run'
    (P.beside get w : View (Amid _ σ) _).Respects (S.linked L) :=
  let _ := Interprets.links (S := S) run
  let _ := Interprets.links (S := S) run'
  { prim := fun p c =>
      match p with
      | .own cell | .back cell => h cell c
      | .prim p => (Amid.through_respects _ S).prim p c
    scope := fun _ _ _ _ => rfl }

/-- In a truthful world a run does as in a world of its own. -/
theorem Truthful.enter (hw : P.Truthful get w) (n depth cell : Nat) (c : Amid (onward P.alone) σ) :
    P.enter get n depth cell ((P.beside get w).see c) =
      (P.enter P.alone n depth cell c).map (P.beside get w).reply := by
  induction depth generalizing cell c with
  | zero => rfl
  | succ depth ih =>
    let _ := Interprets.links (S := S) (P.enter P.alone n depth (σ := σ))
    let _ := Interprets.links (S := S) (P.enter get n depth (σ := σ))
    have hheld : (get cell (Amid.after (onward get) c.world.reverse w)).1 = P.built cell := hw _ _
    have hrun := View.parser (beside_respects ih) n (P.held cell (P.built cell))
      (Cursor.visit cell c)
    rw [← (P.beside get w).visit] at hrun
    simp only [Definitions.enter, beside, Amid.through, hheld]
    exact hrun

theorem Truthful.run (hw : P.Truthful get w) (n depth : Nat) (l : Linked ε S L α) (c : σ) :
    P.run get n depth l ⟨c, w⟩ = (P.run P.alone n depth l ⟨c, []⟩).map fun r =>
      ⟨r.result, r.cursor.inner, Amid.after (onward get) r.cursor.world.reverse w⟩ :=
  let _ := Interprets.links (S := S) (P.enter P.alone n depth (σ := σ))
  let _ := Interprets.links (S := S) (P.enter get n depth (σ := σ))
  View.parser (beside_respects (hw.enter n depth)) n l ⟨c, []⟩

/-- What a run through cells does in a truthful world, a run of the grammar does. -/
theorem Links.of_run {g : Grammar ε S [] α} {l : Linked ε S L α} (h : P.Links .nil g l) (m : Nat)
    (c : σ) : (∀ w, P.Truthful get w → P.parse get m l c w = none) ∨
      ∃ n r, g.parser n c = some r ∧ ∀ w, P.Truthful get w →
        P.parse get m l c w = some (r, Amid.after (onward get) (g.looks n c) w) := by
  cases hr : P.run P.alone m m l ⟨c, []⟩ with
  | none =>
    refine .inl fun w hw => ?_
    rw [parse, hw.run, hr]
    rfl
  | some r =>
    have hlim := h.tends_run (σ := σ) (fun _ _ => rfl) m m (ρ := fun _ => Env.nil)
      (fun v => nomatch v) _ _ hr
    obtain ⟨n, hn⟩ := hlim.exists
    have hn : (g.parser n : Parser (Amid (onward P.alone) σ) α) ⟨c, []⟩ = some r := hn
    rw [Grammar.parser_amid] at hn
    obtain ⟨r', hr', rfl⟩ := Option.map_eq_some_iff.1 hn
    refine .inr ⟨n, r', hr', fun w hw => ?_⟩
    have hlook : onward P.alone = Amid.remember := rfl
    simp [parse, hw.run, hr, hlook, Amid.after_remember]

/-- What a run of the grammar does, a run through cells does in all truthful worlds. -/
theorem Links.yields {g : Grammar ε S [] α} {l : Linked ε S L α} (h : P.Links .nil g l) {n : Nat}
    {c : σ} {r : Reply σ α} (hr : g.parser n c = some r) :
    P.Yields get (fun m => P.parse get m l c) r (g.looks n c) where
  uniform m := by
    rcases h.of_run m c with hm | ⟨n', r', hr', hm⟩
    · exact .inl hm
    · obtain ⟨hr', hlooks⟩ := Grammar.looks_unique hr hr'
      exact .inr fun w hw => by rw [hm w hw, ← hr', ← hlooks]
  ends := by
    have hin : (g.parser n : Parser (Amid (onward P.alone) σ) α) ⟨c, []⟩ =
        some ⟨r.result, r.cursor, (g.looks n c).reverse⟩ := Grammar.parser_remember hr
    have hpair : Tendsto (fun m : Nat => (m, m)) atTop (atTop ×ˢ atTop) :=
      tendsto_id.prodMk tendsto_id
    have hlim := h.tends (σ := σ) (fun _ _ => rfl) n (ρ := Env.nil) (fun v => nomatch v) _ _ hin
    filter_upwards [hpair.eventually hlim] with m hm w hw
    rw [parse, hw.run, hm]
    simp

end Definitions
end Descent
