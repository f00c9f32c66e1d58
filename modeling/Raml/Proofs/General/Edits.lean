import Raml.Edit

/-! # Results of edits

What an edit leaves of the state, with its outcome, apart from the events it
tells. A run of edits is described by what each of them leaves; the first that
fails ends it and leaves the state as it is.
-/

namespace Raml

variable {σ α β : Type}

def Change.result (c : Change σ α) : σ × Except Fault α := (c.state, c.outcome)

namespace Edit

@[simp] theorem result_pure (a : α) (s : σ) : ((pure a : Edit σ α) s).result = (s, .ok a) := rfl

@[simp] theorem result_get (s : σ) : ((get : Edit σ σ) s).result = (s, .ok s) := rfl

@[simp] theorem result_set (s s' : σ) : (set s' s).result = (s', .ok ()) := rfl

@[simp] theorem result_traced (x : Traced α) (s : σ) :
    ((x : Edit σ α) s).result = (s, x.outcome) := rfl

@[simp] theorem result_except (x : Except Fault α) (s : σ) :
    ((x : Edit σ α) s).result = (s, x) := rfl

@[simp] theorem result_fail (f : Fault) (s : σ) :
    ((fail f : Edit σ α) s).result = (s, .error f) := rfl

theorem result_bind (x : Edit σ α) (f : α → Edit σ β) (s : σ) :
    ((x >>= f) s).result =
      match (x s).result with
      | (s', .ok a) => (f a s').result
      | (s', .error e) => (s', .error e) := by
  show (bind x f s).result = _
  unfold bind Change.result
  cases h : (x s).outcome <;> simp [h]

theorem result_bind_ok {x : Edit σ α} {s s' : σ} {a : α} (h : (x s).result = (s', .ok a))
    (f : α → Edit σ β) : ((x >>= f) s).result = (f a s').result := by
  rw [result_bind, h]

theorem outcome_bind_ok (a : α) (f : α → Edit σ β) (s : σ) :
    ((((.ok a : Except Fault α) : Edit σ α) >>= f) s).outcome = (f a s).outcome := rfl

theorem result_bind_error {x : Edit σ α} {s s' : σ} {e : Fault} (h : (x s).result = (s', .error e))
    (f : α → Edit σ β) : ((x >>= f) s).result = (s', .error e) := by
  rw [result_bind, h]

/-- What each edit of a run keeps, whether it succeeds or not, the whole run keeps. -/
theorem forEach_keeps {f : α → Edit σ Unit} {P : σ → Prop} {xs : List α}
    (step : ∀ a ∈ xs, ∀ s, P s → P (f a s).result.1) {s : σ} (h : P s) :
    P (forEach f xs s).result.1 := by
  induction xs generalizing s with
  | nil => exact h
  | cons a rest ih =>
      have hstep := step a (by simp) s h
      have hrest := fun b hb => step b (List.mem_cons_of_mem a hb)
      rw [forEach]
      rcases hr : (f a s).result with ⟨s', outcome⟩
      rw [hr] at hstep
      cases outcome with
      | error e =>
          rw [result_bind_error hr]
          exact hstep
      | ok u =>
          rw [result_bind_ok hr]
          exact ih hrest hstep

/-- A run that succeeds leaves behind what each of its edits establishes and the later ones keep. -/
theorem forEach_establishes {f : α → Edit σ Unit} {P : σ → Prop} {Q : α → σ → Prop} {xs : List α}
    (step : ∀ a ∈ xs, ∀ s, P s → P (f a s).result.1)
    (frame : ∀ a ∈ xs, ∀ b, ∀ s, P s → Q b s → Q b (f a s).result.1)
    (establish : ∀ a ∈ xs, ∀ s s', P s → (f a s).result = (s', .ok ()) → Q a s') {s s' : σ}
    (h : P s) (hrun : (forEach f xs s).result = (s', .ok ())) : ∀ a ∈ xs, Q a s' := by
  induction xs generalizing s with
  | nil => simp
  | cons a rest ih =>
      have hrest := fun b hb => step b (List.mem_cons_of_mem a hb)
      have hframe := fun b hb => frame b (List.mem_cons_of_mem a hb)
      rw [forEach] at hrun
      rcases hr : (f a s).result with ⟨t, outcome⟩
      cases outcome with
      | error e =>
          rw [result_bind_error hr] at hrun
          cases hrun
      | ok u =>
          rw [result_bind_ok hr] at hrun
          have ht : P t := by
            have := step a (by simp) s h
            rwa [hr] at this
          -- what the first edit establishes is one more condition that the later ones keep
          have hkeep : Q a (forEach f rest t).result.1 :=
            (forEach_keeps (P := fun s => P s ∧ Q a s)
              (fun b hb s hs => ⟨hrest b hb s hs.1, hframe b hb a s hs.1 hs.2⟩)
              ⟨ht, establish a (by simp) s t h hr⟩).2
          rw [hrun] at hkeep
          intro b hb
          rcases List.mem_cons.1 hb with rfl | hb
          · exact hkeep
          · exact ih hrest hframe (fun c hc => establish c (List.mem_cons_of_mem a hc)) ht hrun b hb

/-- A run that fails fails at one of its edits, on a state that the earlier ones leave. -/
theorem exists_of_forEach_error {f : α → Edit σ Unit} {P : σ → Prop} {xs : List α}
    (step : ∀ a ∈ xs, ∀ s, P s → P (f a s).result.1) {s s' : σ} {e : Fault} (h : P s)
    (hrun : (forEach f xs s).result = (s', .error e)) :
    ∃ a ∈ xs, ∃ t, P t ∧ (f a t).result = (s', .error e) := by
  induction xs generalizing s with
  | nil => cases hrun
  | cons a rest ih =>
      rw [forEach] at hrun
      rcases hr : (f a s).result with ⟨t, outcome⟩
      cases outcome with
      | error e' =>
          rw [result_bind_error hr] at hrun
          exact ⟨a, by simp, s, h, by rw [hr, hrun]⟩
      | ok u =>
          rw [result_bind_ok hr] at hrun
          have ht : P t := by
            have := step a (by simp) s h
            rwa [hr] at this
          obtain ⟨b, hb, t', ht', he⟩ :=
            ih (fun b hb => step b (List.mem_cons_of_mem a hb)) ht hrun
          exact ⟨b, List.mem_cons_of_mem a hb, t', ht', he⟩

/-! ## Keeping a condition -/

section Keeping

variable {P : σ → Prop}

/-- Whether an edit keeps a condition on the state, also when it fails. -/
def Keeps (P : σ → Prop) (x : Edit σ α) : Prop := ∀ s, P s → P (x s).result.1

theorem Keeps.pure (a : α) : Keeps P (Pure.pure a : Edit σ α) := fun _ h => h

theorem Keeps.get : Keeps P (Edit.get : Edit σ σ) := fun _ h => h

theorem Keeps.set {s : σ} (h : P s) : Keeps P (Edit.set s) := fun _ _ => h

theorem Keeps.except (x : Except Fault α) : Keeps P (x : Edit σ α) := fun _ h => h

theorem Keeps.bind {x : Edit σ α} {f : α → Edit σ β} (hx : Keeps P x) (hf : ∀ a, Keeps P (f a)) :
    Keeps P (x >>= f) := by
  intro s hs
  have hfirst := hx s hs
  rcases hr : (x s).result with ⟨s', e | a⟩
  · rw [result_bind_error hr]
    rwa [hr] at hfirst
  · rw [result_bind_ok hr]
    rw [hr] at hfirst
    exact hf a s' hfirst

theorem Keeps.forEach {f : α → Edit σ Unit} {xs : List α} (h : ∀ a, Keeps P (f a)) :
    Keeps P (Edit.forEach f xs) := fun _ hs => forEach_keeps (fun a _ => h a) hs

end Keeping

end Edit

end Raml
