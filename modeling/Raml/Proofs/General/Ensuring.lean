import Raml.Proofs.DataType.Building
import Raml.Proofs.General.Edits

/-! # What operations ensure

An operation ensures a condition if its result satisfies it whenever there is
one; an edit does so from a condition on the state, and for the state that it
leaves as well. There is one rule for each way to put operations together, so
that a long definition is followed line by line.
-/

namespace Raml

/-! ## Records -/

namespace Checked

variable {α β : Type} {Q : α → Prop} {R : β → Prop}

/-- Whether a record, if it can be read, satisfies a condition. -/
def Ensures (x : Checked α) (Q : α → Prop) : Prop := ∀ a, x = .ok a → Q a

theorem Ensures.map {f : α → β} (x : Checked α) (h : ∀ a, R (f a)) : (f <$> x).Ensures R := by
  intro b hb
  obtain ⟨a, -, rfl⟩ := (map_eq_ok_iff f x b).1 hb
  exact h a

theorem Ensures.seq {f : Checked (α → β)} {x : Checked α} (hx : x.Ensures Q)
    (hf : f.Ensures fun g => ∀ a, Q a → R (g a)) : (f <*> x).Ensures R := by
  intro b hb
  obtain ⟨g, a, hg, ha, rfl⟩ := (seq_eq_ok_iff f x b).1 hb
  exact hf g hg a (hx a ha)

/-- One more field that does not matter for the condition. -/
theorem Ensures.skip {f : Checked (α → β)} {x : Checked α} (hf : f.Ensures fun g => ∀ a, R (g a)) :
    (f <*> x).Ensures R :=
  seq (Q := fun _ => True) (fun _ _ => True.intro) fun g hg a _ => hf g hg a

end Checked

/-! ## Results -/

namespace Traced

variable {α β : Type} {Q : α → Prop} {R : β → Prop}

/-- Whether the result of an operation, if there is one, satisfies a condition. -/
def Ensures (x : Traced α) (Q : α → Prop) : Prop := ∀ a, x.outcome = .ok a → Q a

theorem Ensures.trivial (x : Traced α) : x.Ensures fun _ => True := fun _ _ => True.intro

theorem Ensures.pure {a : α} (h : Q a) : (Pure.pure a : Traced α).Ensures Q := by
  intro a' ha'
  obtain rfl := Except.ok.inj ha'
  exact h

theorem Ensures.ofExcept {x : Except Fault α} (h : ∀ a, x = .ok a → Q a) :
    (Traced.ofExcept x).Ensures Q := h

theorem Ensures.fault (f : Fault) : (Traced.ofExcept (.error f) : Traced α).Ensures Q :=
  fun _ h => nomatch h

theorem Ensures.ofChecked {x : Checked α} {record : Record} (h : x.Ensures Q) :
    (Traced.ofExcept (x.toExcept record)).Ensures Q :=
  fun a ha => h a ((Checked.toExcept_eq_ok_iff record x a).1 ha)

theorem Ensures.bind {x : Traced α} {f : α → Traced β} (hx : x.Ensures Q)
    (hf : ∀ a, Q a → (f a).Ensures R) : (x >>= f).Ensures R := by
  intro b hb
  rw [outcome_bind, Except.bind_eq_ok_iff] at hb
  obtain ⟨a, ha, hb⟩ := hb
  exact hf a (hx a ha) b hb

theorem Ensures.then {x : Traced α} {f : α → Traced β} (hf : ∀ a, (f a).Ensures R) :
    (x >>= f).Ensures R :=
  (Ensures.trivial x).bind fun a _ => hf a

theorem Ensures.map {x : Traced α} {f : α → β} (hx : x.Ensures fun a => R (f a)) :
    (f <$> x).Ensures R := by
  rw [← bind_pure_comp]
  exact hx.bind fun _ h => .pure h

theorem Ensures.mapM {f : α → Traced β} {xs : List α} (h : ∀ a ∈ xs, (f a).Ensures R) :
    (xs.mapM f).Ensures fun ys => ∀ y ∈ ys, R y := by
  induction xs with
  | nil => exact .pure (by simp)
  | cons a rest ih =>
      rw [List.mapM_cons]
      refine (h a (by simp)).bind fun b hb => ?_
      refine (ih fun a' ha' => h a' (List.mem_cons_of_mem _ ha')).bind fun bs hbs => .pure ?_
      exact List.forall_mem_cons.2 ⟨hb, hbs⟩

theorem Ensures.records {v : Value} {read : Value → Value → Traced α} {R : String × α → Prop}
    (h : ∀ entries, v.optionalEntries = .ok entries → ∀ e ∈ entries,
      (read e.1 e.2).Ensures fun a => R (e.1.shown, a)) :
    (v.records read).Ensures fun t => ∀ e ∈ t, R e := by
  refine bind (Q := fun entries => v.optionalEntries = .ok entries) (fun _ h => h) ?_
  intro entries hentries
  have heach : ∀ e ∈ entries, (do return (e.1.shown, ← read e.1 e.2) :
      Traced (String × α)).Ensures R :=
    fun e he => (h entries hentries e he).bind fun _ ha => .pure ha
  exact (mapM heach).bind fun records hrecords => .pure fun e he =>
    hrecords e (Table.mem_of_mem_ofList he)

theorem Ensures.ite {c : Prop} [Decidable c] {x y : Traced α} (hx : x.Ensures Q)
    (hy : y.Ensures Q) : (if c then x else y).Ensures Q := by
  split
  · exact hx
  · exact hy

end Traced

/-! ## Edits -/

namespace Edit

variable {σ τ α β : Type} {P : σ → Prop} {Q : α → σ → Prop} {R : β → σ → Prop}

instance : LawfulMonad (Edit σ) := LawfulMonad.mk' (Edit σ)
  (fun x => by
    funext s
    show bind x _ s = x s
    unfold bind
    rcases x s with ⟨events, state, e | a⟩
    · rfl
    · exact congrArg (Change.mk · state (.ok a)) (List.append_nil events))
  (fun a f => by
    funext s
    simp [Bind.bind, Pure.pure, bind])
  (fun x f g => by
    funext s
    simp only [Bind.bind, bind]
    cases (x s).outcome with
    | error e => rfl
    | ok a => cases h : (f a (x s).state).outcome <;> simp [h])

/-- Whether an edit that succeeds leads from one condition on the state to another. -/
def Ensures (P : σ → Prop) (x : Edit σ α) (Q : α → σ → Prop) : Prop :=
  ∀ s, P s → ∀ a s', (x s).result = (s', .ok a) → Q a s'

theorem Ensures.pure {a : α} (h : ∀ s, P s → Q a s) : Ensures P (Pure.pure a) Q := by
  intro s hs a' s' hrun
  cases hrun
  exact h s hs

theorem Ensures.set {t : σ} {R : Unit → σ → Prop} (h : ∀ s, P s → R () t) :
    Ensures P (Edit.set t) R := by
  intro s hs a s' hrun
  cases hrun
  exact h s hs

theorem Ensures.modify {f : σ → σ} {R : Unit → σ → Prop} (h : ∀ s, P s → R () (f s)) :
    Ensures P (Edit.modify f) R := by
  intro s hs a s' hrun
  cases hrun
  exact h s hs

theorem Ensures.fail (f : Fault) : Ensures P (Edit.fail f) Q := by
  intro s hs a s' hrun
  cases hrun

theorem Ensures.bind {x : Edit σ α} {f : α → Edit σ β} (hx : Ensures P x Q)
    (hf : ∀ a, Ensures (Q a) (f a) R) : Ensures P (x >>= f) R := by
  intro s hs b s' hrun
  rcases hr : (x s).result with ⟨t, outcome⟩
  cases outcome with
  | error e =>
      rw [result_bind_error hr] at hrun
      cases hrun
  | ok a =>
      rw [result_bind_ok hr] at hrun
      exact hf a t (hx s hs a t hr) b s' hrun

theorem Ensures.keep {x : Edit σ α} {f : α → Edit σ β} (hx : Ensures P x fun _ => P)
    (hf : ∀ a, Ensures P (f a) R) : Ensures P (x >>= f) R :=
  hx.bind hf

theorem Ensures.traced {x : Traced α} {f : α → Edit σ β}
    (h : ∀ a, x.outcome = .ok a → Ensures P (f a) R) : Ensures P ((x : Edit σ α) >>= f) R := by
  intro s hs b s' hrun
  rw [result_bind, result_traced] at hrun
  cases ha : x.outcome with
  | error e =>
      rw [ha] at hrun
      cases hrun
  | ok a =>
      rw [ha] at hrun
      exact h a ha s hs b s' hrun

theorem Ensures.except {x : Except Fault α} {f : α → Edit σ β}
    (h : ∀ a, x = .ok a → Ensures P (f a) R) : Ensures P ((x : Edit σ α) >>= f) R :=
  Ensures.traced (x := Traced.ofExcept x) h

theorem Ensures.last {x : Traced α} (h : ∀ s, P s → ∀ a, Q a s) :
    Ensures P (x : Edit σ α) Q := by
  intro s hs a s' hrun
  rw [result_traced] at hrun
  obtain ⟨rfl, -⟩ := Prod.mk.inj hrun
  exact h s hs a

theorem Ensures.get {f : σ → Edit σ β} (h : ∀ s, P s → Ensures (· = s) (f s) R) :
    Ensures P (Edit.get >>= f) R := by
  intro s hs b s' hrun
  rw [result_bind_ok (result_get s)] at hrun
  exact h s hs s rfl b s' hrun

theorem Ensures.forEach {f : α → Edit σ Unit} {xs : List α}
    (h : ∀ a ∈ xs, Ensures P (f a) fun _ => P) : Ensures P (Edit.forEach f xs) fun _ => P := by
  induction xs with
  | nil => exact .pure fun _ => id
  | cons a rest ih =>
      exact (h a (by simp)).bind fun _ => ih fun b hb => h b (List.mem_cons_of_mem a hb)

theorem Ensures.mapM {f : α → Edit σ β} {xs : List α} {Q : β → Prop}
    (h : ∀ a ∈ xs, Ensures P (f a) fun b s => Q b ∧ P s) :
    Ensures P (xs.mapM f) fun bs s => (∀ b ∈ bs, Q b) ∧ P s := by
  induction xs with
  | nil => exact .pure fun s hs => ⟨by simp, hs⟩
  | cons a rest ih =>
      rw [List.mapM_cons]
      refine (h a (by simp)).bind fun b s ⟨hb, hs⟩ => ?_
      have hrest := ih fun a' ha' => h a' (List.mem_cons_of_mem _ ha')
      refine hrest.bind (fun bs => ?_) s hs
      exact .pure fun s ⟨hbs, hs⟩ => ⟨List.forall_mem_cons.2 ⟨hb, hbs⟩, hs⟩

theorem Ensures.onPart {part : σ → τ} {replace : τ → σ → σ} {x : Edit τ α}
    (h : ∀ s, P s → Ensures (· = part s) x fun a t => Q a (replace t s)) :
    Ensures P (Edit.onPart part replace x) Q := by
  intro s hs a s' hrun
  have hpart := h s hs (part s) rfl a (x (part s)).state
  simp only [Edit.onPart, Change.result, Prod.mk.injEq] at hrun
  obtain ⟨rfl, ha⟩ := hrun
  exact hpart (by simp only [Change.result, ha])

end Edit

end Raml
