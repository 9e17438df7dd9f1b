import Descent.Parser.Chain

/-!
# The loops are one

The loops over separated values, over values that are thrown away and over steps of an operator and
an operand each have a body of their own. They all go round like `many`, and differ only in what
they make of the values: `sepFrom_eq_manyFrom`, `skipMany_eq_many`, `chainLeft_eq_many`. A loop that
wants a first value is that value and then the loop without it: `many1_eq`, `sepBy1_eq`.
-/

namespace Descent.Parser

variable {σ ε α β : Type} [Cursor σ ε]

/-! ## One round -/

theorem manyFrom_succ (p : Parser σ α) (n : Nat) (values : List α) (start : σ) :
    p.manyFrom (n + 1) values start =
      match p start with
      | none => none
      | some ⟨.error _, c⟩ => some ⟨.ok values.reverse, Cursor.restore c start⟩
      | some ⟨.ok v, c⟩ =>
        if Cursor.offset c = Cursor.offset start then some ⟨.ok (v :: values).reverse, c⟩
        else manyFrom p n (v :: values) c := rfl

theorem tillFrom_succ (p : Parser σ α) (stop : Parser σ β) (n : Nat) (values : List α)
    (start : σ) :
    p.tillFrom stop (n + 1) values start =
      match stop start with
      | none => none
      | some ⟨.ok _, c⟩ => some ⟨.ok values.reverse, c⟩
      | some ⟨.error e, c⟩ =>
        match p (Cursor.restore c start) with
        | none => none
        | some ⟨.error f, d⟩ => some ⟨.error f, d⟩
        | some ⟨.ok v, d⟩ =>
          if Cursor.offset d = Cursor.offset (Cursor.restore c start) then some ⟨.error e, d⟩
          else tillFrom p stop n (v :: values) d := rfl

/-! ## Values -/

/-- A loop over changed values is a loop with its values changed. -/
theorem manyFrom_map (f : α → β) (p : Parser σ α) : ∀ (n : Nat) (values : List α),
    (p.map f).manyFrom n (values.map f) = (p.manyFrom n values).map (List.map f)
  | 0, _ => rfl
  | n + 1, values => by
    funext start
    have ih := fun v => congrFun (manyFrom_map f p n (v :: values))
    unfold manyFrom map andThen
    dsimp only
    match p start with
    | none => rfl
    | some ⟨.error _, _⟩ => simp [pure]
    | some ⟨.ok v, c⟩ =>
      dsimp only [pure]
      split
      · simp
      · exact ih v c

/-- The values read so far come first. -/
theorem manyFrom_eq_map (p : Parser σ α) : ∀ (n : Nat) (values : List α),
    p.manyFrom n values = (p.manyFrom n []).map (values.reverse ++ ·)
  | 0, _ => rfl
  | n + 1, values => by
    funext start
    have ih := fun v c => congrFun (manyFrom_eq_map p n (v :: values)) c
    have ih' := fun v c => congrFun (manyFrom_eq_map p n [v]) c
    rw [manyFrom_succ]
    unfold map andThen
    rw [manyFrom_succ]
    match p start with
    | none => rfl
    | some ⟨.error _, c⟩ => simp [pure]
    | some ⟨.ok v, c⟩ =>
      dsimp only
      split
      · simp [pure]
      · rw [ih v c, ih' v c]
        unfold map andThen
        match p.manyFrom n [] c with
        | none => rfl
        | some ⟨.error f, d⟩ => rfl
        | some ⟨.ok vs, d⟩ => simp [pure]

/-- The loop never fails: the iteration that does is undone. -/
theorem manyFrom_succeeds {p : Parser σ α} : ∀ {n : Nat} {values : List α} {c : σ}
    {r : Reply σ (List α)}, p.manyFrom n values c = some r → ∃ vs, r.result = .ok vs
  | n + 1, values, c, r, h => by
    rw [manyFrom_succ] at h
    match hp : p c with
    | none => simp [hp] at h
    | some ⟨.error _, d⟩ =>
      rw [hp] at h
      cases h
      exact ⟨_, rfl⟩
    | some ⟨.ok v, d⟩ =>
      simp only [hp] at h
      split at h
      · cases h
        exact ⟨_, rfl⟩
      · exact manyFrom_succeeds h

/-- The values read so far come first. -/
theorem tillFrom_eq_map (p : Parser σ α) (stop : Parser σ β) : ∀ (n : Nat) (values : List α),
    p.tillFrom stop n values = (p.tillFrom stop n []).map (values.reverse ++ ·)
  | 0, _ => rfl
  | n + 1, values => by
    funext start
    have ih := fun v c => congrFun (tillFrom_eq_map p stop n (v :: values)) c
    have ih' := fun v c => congrFun (tillFrom_eq_map p stop n [v]) c
    unfold tillFrom map andThen
    dsimp only
    match stop start with
    | none => rfl
    | some ⟨.ok _, c⟩ => simp [pure]
    | some ⟨.error e, c⟩ =>
      dsimp only
      match p (Cursor.restore c start) with
      | none => rfl
      | some ⟨.error f, c⟩ => rfl
      | some ⟨.ok v, c⟩ =>
        dsimp only
        split
        · rfl
        · rw [ih v c, ih' v c]
          unfold map andThen
          match p.tillFrom stop n [] c with
          | none => rfl
          | some ⟨.error f, d⟩ => rfl
          | some ⟨.ok vs, d⟩ => simp [pure]

/-- Of an operator and an operand the operand alone. -/
theorem pair_map_snd (p : Parser σ α) (q : Parser σ β) : (p.pair q).map Prod.snd = p.right q := by
  funext c
  unfold pair right map andThen
  match p c with
  | none => rfl
  | some ⟨.error _, _⟩ => rfl
  | some ⟨.ok v, d⟩ =>
    dsimp only
    match q d with
    | none => rfl
    | some ⟨.error _, _⟩ => rfl
    | some ⟨.ok w, _⟩ => rfl

theorem andThen_map {γ : Type} (p : Parser σ α) (f : α → Parser σ β) (g : β → γ) :
    (p.andThen f).map g = p.andThen fun v => (f v).map g := by
  funext c
  unfold map andThen
  match p c with
  | none => rfl
  | some ⟨.error _, _⟩ => rfl
  | some ⟨.ok _, _⟩ => rfl

theorem andThen_eq_some_iff {p : Parser σ α} {f : α → Parser σ β} {c : σ} {r : Reply σ β} :
    p.andThen f c = some r ↔
      (∃ e d, p c = some ⟨.error e, d⟩ ∧ ⟨.error e, d⟩ = r) ∨
        ∃ v d, p c = some ⟨.ok v, d⟩ ∧ f v d = some r := by
  unfold andThen
  match p c with
  | none => simp
  | some ⟨.error e, d⟩ => simp [and_assoc]
  | some ⟨.ok v, d⟩ => simp [and_assoc]

theorem map_eq_some_iff {p : Parser σ α} {f : α → β} {c : σ} {r : Reply σ β} :
    p.map f c = some r ↔ ∃ r', p c = some r' ∧ ⟨r'.result.map f, r'.cursor⟩ = r := by
  unfold map andThen
  match p c with
  | none => simp
  | some ⟨.error e, d⟩ => simp [Except.map]
  | some ⟨.ok v, d⟩ => simp [Except.map, pure]

/-- A failure that is undone in favour of a value. -/
theorem orValue_eq_some_iff {p : Parser σ α} {v : α} {c : σ} {r : Reply σ α} :
    p.opt.map (·.getD v) c = some r ↔
      (∃ e d, p c = some ⟨.error e, d⟩ ∧ ⟨.ok v, Cursor.restore d c⟩ = r) ∨
        ∃ w d, p c = some ⟨.ok w, d⟩ ∧ ⟨.ok w, d⟩ = r := by
  unfold map andThen opt
  match p c with
  | none => simp
  | some ⟨.error e, d⟩ => simp [pure, and_assoc]
  | some ⟨.ok w, d⟩ => simp [pure, and_assoc]

theorem map_eq_ok {f : α → β} {p : Parser σ α} {c d : σ} {w : β}
    (h : p.map f c = some ⟨.ok w, d⟩) : ∃ v, p c = some ⟨.ok v, d⟩ ∧ f v = w := by
  unfold map andThen at h
  match hp : p c, h with
  | some ⟨.ok v, _⟩, h =>
    cases h
    exact ⟨v, rfl, rfl⟩

/-! ## Bodies -/

/-- Values with separators between are separators and values, over and over. -/
theorem sepFrom_eq_manyFrom (sep : Parser σ β) (p : Parser σ α) :
    ∀ (n : Nat) (values : List α), sepFrom sep p n values = manyFrom (sep.right p) n values
  | 0, _ => rfl
  | n + 1, values => by
    funext start
    unfold sepFrom manyFrom
    simp only [sepFrom_eq_manyFrom sep p n]

theorem skipMany_eq_map (p : Parser σ α) :
    ∀ (n : Nat) (values : List α), p.skipMany n = (p.manyFrom n values).map fun _ => ()
  | 0, _ => rfl
  | n + 1, values => by
    funext start
    have ih := fun v => congrFun (skipMany_eq_map p n (v :: values))
    unfold skipMany manyFrom map andThen
    dsimp only
    match p start with
    | none => rfl
    | some ⟨.error _, _⟩ => rfl
    | some ⟨.ok v, c⟩ =>
      dsimp only
      split
      · rfl
      · exact ih v c

/-- Skipping is collecting, with the values thrown away. -/
theorem skipMany_eq_many (n : Nat) (p : Parser σ α) : p.skipMany n = (p.many n).map fun _ => () :=
  skipMany_eq_map p n []

theorem chainFrom_eq_map (step : Parser σ ((α → α → α) × α)) (first : α) :
    ∀ (n : Nat) (values : List ((α → α → α) × α)),
      chainFrom step n (values.foldr (fun step acc => step.1 acc step.2) first) =
        (step.manyFrom n values).map (List.foldl (fun acc step => step.1 acc step.2) first)
  | 0, _ => rfl
  | n + 1, values => by
    funext start
    have ih := fun v => congrFun (chainFrom_eq_map step first n (v :: values))
    unfold chainFrom manyFrom map andThen
    dsimp only
    match step start with
    | none => rfl
    | some ⟨.error _, _⟩ => simp [pure]
    | some ⟨.ok (f, x), c⟩ =>
      dsimp only
      split
      · simp [pure]
      · exact ih (f, x) c

/-- Folding from the left as one goes is folding at the end. -/
theorem chainLeft_eq_many (n : Nat) (p : Parser σ α) (op : Parser σ (α → α → α)) :
    p.chainLeft n op = p.andThen fun first =>
      ((op.pair p).many n).map (List.foldl (fun acc step => step.1 acc step.2) first) := by
  unfold chainLeft
  congr 1
  funext first
  exact chainFrom_eq_map (op.pair p) first n []

/-! ## First values -/

/-- A first value, and then as many as there are. -/
theorem many1_eq (n : Nat) (p : Parser σ α) :
    p.many1 n = p.andThen fun v => (p.many n).map (v :: ·) := by
  unfold many1 many
  congr 1
  funext v
  exact manyFrom_eq_map p n [v]

theorem sepBy1_eq (n : Nat) (sep : Parser σ β) (p : Parser σ α) :
    sepBy1 n sep p = p.andThen fun v => ((sep.right p).many n).map (v :: ·) := by
  unfold sepBy1 many
  congr 1
  funext v
  rw [sepFrom_eq_manyFrom]
  exact manyFrom_eq_map (sep.right p) n [v]

/-- Without a first value there are none: nothing else makes the loop with one fail. -/
theorem sepBy_eq (n : Nat) (sep : Parser σ β) (p : Parser σ α) :
    sepBy n sep p = (sepBy1 n sep p).opt.map (·.getD []) := by
  funext start
  unfold sepBy sepBy1 map opt andThen
  dsimp only
  match p start with
  | none => rfl
  | some ⟨.error _, c⟩ => rfl
  | some ⟨.ok v, c⟩ =>
    dsimp only
    match hs : sepFrom sep p n [v] c with
    | none => rfl
    | some ⟨.ok vs, d⟩ => rfl
    | some ⟨.error e, d⟩ =>
      rw [sepFrom_eq_manyFrom] at hs
      obtain ⟨vs, h⟩ := manyFrom_succeeds hs
      cases h

theorem skipMany1_eq_many1 (n : Nat) (p : Parser σ α) :
    p.skipMany1 n = (p.many1 n).map fun _ => () := by
  unfold skipMany1 many1
  rw [andThen_map]
  congr 1
  funext v
  exact skipMany_eq_map p n [v]

end Descent.Parser
