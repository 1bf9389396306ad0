import Dimensional.Error

/-!
# Results that may fail

Facts about sequences of steps that may fail, and names for what a result can fail with
(`Fallible.Raises`), for what it can be besides (`Fallible.Meets`), and for how it compares with
another (`Fallible.Related`, `Fallible.AgreesUnless`): each is proved of a computation from what is
proved of its steps.
-/

namespace Dimensional.Fallible

variable {ε α β γ : Type}

theorem map_map (x : Except ε α) (f : α → β) (g : β → γ) :
    (x.map f).map g = x.map fun a => g (f a) := by
  cases x <;> rfl

theorem bind_then_map (x : Except ε α) (f : α → Except ε β) (g : β → γ) :
    (x >>= f).map g = x >>= fun a => (f a).map g := by
  cases x <;> rfl

theorem map_then_bind (x : Except ε α) (f : α → β) (g : β → Except ε γ) :
    x.map f >>= g = x >>= fun a => g (f a) := by
  cases x <;> rfl

theorem bind_eq_ok_iff {x : Except ε α} {f : α → Except ε β} {b : β} :
    (x >>= f) = .ok b ↔ ∃ a, x = .ok a ∧ f a = .ok b := by
  cases x <;> simp [bind, Except.bind]

theorem map_eq_ok_iff {x : Except ε α} {f : α → β} {b : β} :
    x.map f = .ok b ↔ ∃ a, x = .ok a ∧ f a = b := by
  cases x <;> simp [Except.map]

theorem map_eq_error_iff {x : Except ε α} {f : α → β} {e : ε} :
    x.map f = .error e ↔ x = .error e := by
  cases x <;> simp [Except.map]

/-- Errors that are put in other terms in the end may be so at every step. -/
theorem mapError_bind {δ : Type} (x : Except ε α) (f : α → Except ε β) (g : ε → δ) :
    (x >>= f).mapError g = x.mapError g >>= fun a => (f a).mapError g := by
  cases x <;> rfl

/-- Each member of a list has a result, or else the first that has none decides the error.  That
it is the first is said by `find?`, which passes over members with a result. -/
theorem mapM_cases (f : α → Except ε β) (as : List α) :
    (∃ bs, as.mapM f = .ok bs ∧ bs.length = as.length ∧ ∀ a ∈ as, ∃ b, f a = .ok b) ∨
      ∃ a e, as.find? (fun a => !(f a).isOk) = some a ∧ f a = .error e ∧ as.mapM f = .error e := by
  induction as with
  | nil => exact .inl ⟨[], rfl, rfl, List.forall_mem_nil _⟩
  | cons a as ih =>
    rw [List.mapM_cons, List.find?_cons]
    -- A failure here is the first one; otherwise the rest decides.
    cases ha : f a with
    | error e => exact .inr ⟨a, e, rfl, ha, rfl⟩
    | ok b =>
      rcases ih with ⟨bs, hbs, hlen, hall⟩ | ⟨a', e, hfind, ha', he⟩
      · rw [hbs]
        exact .inl ⟨b :: bs, rfl, by rw [List.length_cons, hlen, List.length_cons],
          List.forall_mem_cons.2 ⟨⟨b, ha⟩, hall⟩⟩
      · rw [he]
        exact .inr ⟨a', e, hfind, ha', rfl⟩

/-- Whatever error the result is, it is one of these.  Nothing is said of a result that is no
error, so every lemma below holds of computations that may well succeed. -/
def Raises (P : Error → Prop) (x : Except Error α) : Prop := ∀ e, x = .error e → P e

variable {P Q : Error → Prop} {x : Except Error α}

theorem raises_ok (a : α) : Raises P (.ok a) := by
  intro e h
  cases h

theorem raises_error {e : Error} (h : P e) : Raises P (.error e : Except Error α) := by
  intro e' h'
  cases h'
  exact h

theorem Raises.mono (h : Raises P x) (hPQ : ∀ e, P e → Q e) : Raises Q x :=
  fun e he => hPQ e (h e he)

theorem raises_bind {f : α → Except Error β} (hx : Raises P x) (hf : ∀ a, Raises P (f a)) :
    Raises P (x >>= f) := by
  intro e h
  cases x with
  | error e' => exact hx e (by cases h; rfl)
  | ok a => exact hf a e h

theorem raises_map {f : α → β} (hx : Raises P x) : Raises P (x.map f) := by
  intro e h
  cases x with
  | error e' => exact hx e (by cases h; rfl)
  | ok a => cases h

theorem raises_mapM {f : β → Except Error α} (h : ∀ b, Raises P (f b)) (bs : List β) :
    Raises P (bs.mapM f) := by
  induction bs with
  | nil => exact raises_ok _
  | cons b bs ih =>
    rw [List.mapM_cons]
    exact raises_bind (h b) fun _ => raises_bind ih fun _ => raises_ok _

theorem raises_foldlM {f : α → β → Except Error α} (h : ∀ a b, Raises P (f a b)) (a : α)
    (bs : List β) : Raises P (bs.foldlM f a) := by
  induction bs generalizing a with
  | nil => exact raises_ok _
  | cons b bs ih =>
    rw [List.foldlM_cons]
    exact raises_bind (h a b) ih

/-! ### Results and errors together

`Meets` says of a result what `Raises` says of an error.  A later step may rely on what an
earlier one came to (`Meets.bind`), which is why the values of the steps are kept and not only
their errors. -/

/-- A result that is one of these, or an error that is one of those. -/
def Meets (R : α → Prop) (P : Error → Prop) : Except Error α → Prop
  | .ok a => R a
  | .error e => P e

section

variable {R : α → Prop} {S : β → Prop}

theorem Meets.mono {R' : α → Prop} (h : Meets R P x) (hR : ∀ a, R a → R' a) : Meets R' P x := by
  cases x with
  | ok a => exact hR a h
  | error e => exact h

/-- The next step may take for granted that the one before gave this result.  It is handed the
value together with what holds of it. -/
theorem Meets.bind {f : α → Except Error β} (h : Meets R P x)
    (hf : ∀ a, x = .ok a → R a → Meets S P (f a)) : Meets S P (x >>= f) := by
  cases x with
  | ok a => exact hf a rfl h
  | error e => exact h

theorem Meets.raises (h : Meets R P x) : Raises P x := by
  rintro e rfl
  exact h

theorem Raises.meets (h : Raises P x) : Meets (fun _ => True) P x := by
  cases x with
  | ok a => trivial
  | error e => exact h e rfl

end

/-! ### Results of two computations

Two computations of the same shape are compared step by step.  As long as the steps are related
the whole is, and where the relation makes no difference any more, equality is left
(`Related.map_eq`). -/

/-- Two results are the same error, or values that are related.  It is the relation to carry
along two runs of which one forgets something: errors must match to the letter, values only up
to `R`. -/
inductive Related {ε : Type} (R : α → β → Prop) : Except ε α → Except ε β → Prop where
  | ok {a : α} {b : β} : R a b → Related R (.ok a) (.ok b)
  | error {e : ε} : Related R (.error e) (.error e)

section

variable {δ : Type} {R : α → β → Prop} {S : γ → δ → Prop} {y : Except ε α} {z : Except ε β}

theorem Related.mono {R' : α → β → Prop} (h : Related R y z) (hR : ∀ a b, R a b → R' a b) :
    Related R' y z := by
  cases h with
  | ok hab => exact .ok (hR _ _ hab)
  | error => exact .error

theorem Related.bind {f : α → Except ε γ} {g : β → Except ε δ} (h : Related R y z)
    (hfg : ∀ a b, R a b → Related S (f a) (g b)) : Related S (y >>= f) (z >>= g) := by
  cases h with
  | ok hab => exact hfg _ _ hab
  | error => exact .error

theorem Related.map {f : α → γ} {g : β → δ} (h : Related R y z)
    (hfg : ∀ a b, R a b → S (f a) (g b)) : Related S (y.map f) (z.map g) := by
  cases h with
  | ok hab => exact .ok (hfg _ _ hab)
  | error => exact .error

theorem Related.mapError {ζ : Type} (f : ε → ζ) (h : Related R y z) :
    Related R (y.mapError f) (z.mapError f) := by
  cases h with
  | ok hab => exact .ok hab
  | error => exact .error

/-- Equal results are related by whatever relates their values to themselves. -/
theorem related_of_eq {R : α → α → Prop} {y z : Except ε α} (h : y = z)
    (hR : ∀ a, y = .ok a → R a a) : Related R y z := by
  subst h
  cases y with
  | error e => exact .error
  | ok a => exact .ok (hR a rfl)

theorem Related.map_eq {f : α → γ} {g : β → γ} (h : Related R y z)
    (hfg : ∀ a b, R a b → f a = g b) : y.map f = z.map g := by
  cases h with
  | ok hab => exact congrArg Except.ok (hfg _ _ hab)
  | error => rfl

end

/-! ### Checks that are added, or made stricter -/

/-- Two results are equal, or the first is one of these errors. -/
def AgreesUnless (P : Error → Prop) (x y : Except Error α) : Prop :=
  x = y ∨ Meets (fun _ => False) P x

section

variable {y : Except Error α} {f g : α → Except Error β}

theorem AgreesUnless.bind (h : AgreesUnless P x y)
    (hfg : ∀ a, x = .ok a → AgreesUnless P (f a) (g a)) :
    AgreesUnless P (x >>= f) (y >>= g) := by
  obtain rfl | hfails := h
  · cases x with
    | error e => exact .inl rfl
    | ok a => exact hfg a rfl
  · exact .inr (hfails.bind fun _ _ => False.elim)

theorem AgreesUnless.map {f : α → β} (h : AgreesUnless P x y) :
    AgreesUnless P (x.map f) (y.map f) :=
  h.bind fun _ _ => .inl rfl

/-- A check that lets more pass agrees with the stricter one, unless that refuses. -/
theorem agreesUnless_ite {c c' : Prop} [Decidable c] [Decidable c'] (hc : c → c')
    (hx : Meets (fun _ => False) P x) :
    AgreesUnless P (if c then y else x) (if c' then y else x) := by
  by_cases h : c
  · rw [if_pos h, if_pos (hc h)]
    exact .inl rfl
  · rw [if_neg h]
    exact .inr hx

end

end Dimensional.Fallible
