/-!
# Widths of characters and texts

Offsets into a text count the bytes of its UTF-8 form. Texts are lists of characters, so an offset
is a *boundary* when some first part of the list is exactly that wide. Main statement
`slice?_append`: between two boundaries a slice is the part of the text that lies there.
-/

namespace Descent.Text

def width : List Char → Nat
  | [] => 0
  | c :: cs => c.utf8Size + width cs

/-- What follows the first `n` bytes, if a character ends there. -/
def dropBytes? : Nat → List Char → Option (List Char)
  | 0, cs => some cs
  | _ + 1, [] => none
  | n + 1, c :: cs => if c.utf8Size ≤ n + 1 then dropBytes? (n + 1 - c.utf8Size) cs else none

/-- The first `n` bytes, if a character ends there. -/
def takeBytes? : Nat → List Char → Option (List Char)
  | 0, _ => some []
  | _ + 1, [] => none
  | n + 1, c :: cs =>
    if c.utf8Size ≤ n + 1 then (takeBytes? (n + 1 - c.utf8Size) cs).map (c :: ·) else none

/-- The text between two offsets; none if they are out of order, past the end, or inside a
character. -/
def slice? (cs : List Char) (lo hi : Nat) : Option (List Char) :=
  if lo ≤ hi then (dropBytes? lo cs).bind (takeBytes? (hi - lo)) else none

/-- The number of line feeds. -/
def breaks : List Char → Nat
  | [] => 0
  | c :: cs => (if c = '\n' then 1 else 0) + breaks cs

@[simp] theorem width_nil : width [] = 0 := rfl

@[simp] theorem width_cons (c : Char) (cs : List Char) :
    width (c :: cs) = c.utf8Size + width cs := rfl

@[simp] theorem width_append (as bs : List Char) : width (as ++ bs) = width as + width bs := by
  induction as with
  | nil => simp
  | cons c as ih => simp [ih, Nat.add_assoc]

@[simp] theorem breaks_append (as bs : List Char) : breaks (as ++ bs) = breaks as + breaks bs := by
  induction as with
  | nil => simp [breaks]
  | cons c as ih => simp [breaks, ih, Nat.add_assoc]

@[simp] theorem width_reverse (cs : List Char) : width cs.reverse = width cs := by
  induction cs with
  | nil => rfl
  | cons c cs ih => simp [ih, Nat.add_comm]

@[simp] theorem width_eq_zero {cs : List Char} : width cs = 0 ↔ cs = [] := by
  cases cs with
  | nil => simp
  | cons c cs => simp [Nat.ne_of_gt c.utf8Size_pos]

@[simp] theorem breaks_nil : breaks [] = 0 := rfl

@[simp] theorem breaks_cons (c : Char) (cs : List Char) :
    breaks (c :: cs) = (if c = '\n' then 1 else 0) + breaks cs := rfl

@[simp] theorem breaks_reverse (cs : List Char) : breaks cs.reverse = breaks cs := by
  induction cs with
  | nil => rfl
  | cons c cs ih => simp [ih, Nat.add_comm]

theorem dropBytes?_add (as bs : List Char) (n : Nat) :
    dropBytes? (width as + n) (as ++ bs) = dropBytes? n bs := by
  induction as with
  | nil => simp
  | cons c as ih =>
    obtain ⟨k, hk⟩ := Nat.exists_eq_add_of_lt c.utf8Size_pos
    have e : width (c :: as) + n = (k + width as + n) + 1 := by simp [hk]; omega
    rw [e, List.cons_append, dropBytes?, if_pos (by omega)]
    rwa [show k + width as + n + 1 - c.utf8Size = width as + n by omega]

theorem dropBytes?_append (as bs : List Char) : dropBytes? (width as) (as ++ bs) = some bs := by
  have h := dropBytes?_add as bs 0
  simpa [dropBytes?] using h

theorem takeBytes?_append (as bs : List Char) : takeBytes? (width as) (as ++ bs) = some as := by
  induction as with
  | nil => simp [takeBytes?]
  | cons c as ih =>
    obtain ⟨k, hk⟩ := Nat.exists_eq_add_of_lt c.utf8Size_pos
    have e : width (c :: as) = (k + width as) + 1 := by simp [hk]; omega
    rw [e, List.cons_append, takeBytes?, if_pos (by omega)]
    rw [show k + width as + 1 - c.utf8Size = width as by omega, ih]
    rfl

/-- Between two boundaries lies the text between them. -/
theorem slice?_append (as bs cs : List Char) :
    slice? (as ++ bs ++ cs) (width as) (width (as ++ bs)) = some bs := by
  simp [slice?, List.append_assoc, dropBytes?_append, takeBytes?_append]

/-- A slice that does not reach into a first part of the text. -/
theorem slice?_add (as bs : List Char) (lo hi : Nat) :
    slice? (as ++ bs) (width as + lo) (width as + hi) = slice? bs lo hi := by
  unfold slice?
  by_cases h : lo ≤ hi
  · have hw : width as + hi - (width as + lo) = hi - lo := by omega
    rw [if_pos h, if_pos (by omega), dropBytes?_add, hw]
  · rw [if_neg h, if_neg (by omega)]

/-- A boundary divides a text in one way. -/
theorem append_inj {as bs cs ds : List Char} (h : as ++ bs = cs ++ ds) (hw : width as = width cs) :
    as = cs ∧ bs = ds := by
  have htake := takeBytes?_append as bs
  have hdrop := dropBytes?_append as bs
  rw [h, hw, takeBytes?_append] at htake
  rw [h, hw, dropBytes?_append] at hdrop
  exact ⟨(Option.some.inj htake).symm, (Option.some.inj hdrop).symm⟩

end Descent.Text
