import Raml.Proofs.Validation.SchemaFaults
import Raml.Validation.Scalar

/-! # Faults of scalar checks

A value of a scalar type is accepted, violates a constraint, or cannot be
checked: a regular expression is wrong, or a number is out of its domain. Only
the check of a JSON schema can come to a fault of another kind, and it alone
can go on endlessly, where the schema refers to itself.
-/

namespace Raml

namespace Validation

theorem family_of_isViolation {f : Fault} (h : isViolation f = true) : f.family = .validation := by
  cases f <;> first | rfl | cases h

/-- A violation, or a facet that a value cannot be compared with. -/
def IsPlainFault (f : Fault) : Prop :=
  isViolation f = true ∨ f = .badPattern ∨ f = .overflow ∨ f = .badValue

theorem IsPlainFault.violation (subject : String) (c : Constraint) :
    IsPlainFault (.violation subject c) := .inl rfl

theorem IsPlainFault.ne_endless {f : Fault} (h : IsPlainFault f) : f ≠ .endless := by
  rintro rfl
  rcases h with h | h | h | h <;> cases h

theorem IsPlainFault.family {f : Fault} (h : IsPlainFault f) :
    f.family = .validation ∨ f.family = .other := by
  rcases h with h | rfl | rfl | rfl
  · exact .inl (family_of_isViolation h)
  · exact .inr rfl
  · exact .inr rfl
  · exact .inr rfl

/-- Whether a check fails with violations and unusable facets alone. -/
abbrev Plain {α : Type} (x : Except Fault α) : Prop := FailsOnly IsPlainFault x

section Requirements

variable {P : Fault → Prop} {subject : String} (hviolation : ∀ k, P (.violation subject k))
include hviolation

theorem failsOnly_require (holds : Bool) (k : Constraint) :
    FailsOnly P (require subject holds k) := by
  unfold require
  split
  · exact .ok _
  · exact FailsOnly.error_iff.2 (hviolation k)

theorem failsOnly_requireBound {α : Type} (bound : Option α) (keeps : α → Bool)
    (k : α → Constraint) : FailsOnly P (requireBound subject bound keeps k) := by
  unfold requireBound
  split
  · exact .ok _
  · exact failsOnly_require hviolation _ _

theorem failsOnly_requirePattern {pattern : Option String} (s : String)
    (hpattern : ∀ source f, pattern = some source →
      Json.Assertion.patternOf source = .error f → P f) :
    FailsOnly P (requirePattern subject pattern s) := by
  cases pattern with
  | none => exact .ok _
  | some source =>
      have hread : FailsOnly P (Json.Assertion.patternOf source) := fun f => hpattern source f rfl
      have hoccurs : FailsOnly P (Engines.occurs source s) := hread.map _
      exact hoccurs.bind fun _ => failsOnly_require hviolation _ _

theorem failsOnly_checkBounds {f : NumberFacets} {n : Number}
    (hdivisor : ∀ m fault, f.multipleOf = some m → divides m n = .error fault → P fault) :
    FailsOnly P (checkBounds subject f n) := by
  have hmultiple : FailsOnly P (requireMultiple subject f.multipleOf n) := by
    unfold requireMultiple
    split
    · exact .ok _
    · next m hm =>
        split
        · exact .ok _
        · have hdivides : FailsOnly P (divides m n) := fun fault => hdivisor m fault hm
          exact hdivides.bind fun _ => failsOnly_require hviolation _ _
  exact (failsOnly_requireBound hviolation _ _ _).bind fun _ =>
    (failsOnly_requireBound hviolation _ _ _).bind fun _ => hmultiple

end Requirements

theorem failsOnly_requireMember {P : Fault → Prop} {c : Common}
    (hviolation : ∀ k, P (.violation c.name k)) (v : Value) : FailsOnly P (requireMember c v) :=
  failsOnly_requireBound hviolation _ _ _

/-- Whether a facet is one that a value cannot be compared with: a regular expression that cannot
be read, or a divisor that does not allow for a remainder. -/
inductive CannotCompare : Scalar → Value → Fault → Prop
  | pattern {f : TextFacets} {v : Value} {source : String} {fault : Fault}
      (hpattern : f.pattern = some source)
      (hfault : Json.Assertion.patternOf source = .error fault) : CannotCompare (.string f) v fault
  | divisor {f : NumberFacets} {s : Scalar} {v : Value} {m n : Number} {fault : Fault}
      (hs : s = .number f ∨ s = .integer f) (hdivisor : f.multipleOf = some m)
      (hn : Json.number? v = some n) (hfault : divides m n = .error fault) :
      CannotCompare s v fault

theorem CannotCompare.isPlainFault {s : Scalar} {v : Value} {fault : Fault}
    (h : CannotCompare s v fault) : IsPlainFault fault := by
  cases h with
  | pattern hpattern hfault =>
      unfold Json.Assertion.patternOf at hfault
      split at hfault
      · cases hfault
      · exact .inr (.inl (Except.error.inj hfault).symm)
      · exact .inr (.inr (.inl (Except.error.inj hfault).symm))
      · exact .inr (.inr (.inr (Except.error.inj hfault).symm))
  | divisor hs hdivisor hn hfault =>
      unfold divides at hfault
      split at hfault
      · split at hfault
        · cases hfault
        · exact .inr (.inr (.inr (Except.error.inj hfault).symm))
      · exact .inr (.inr (.inl (Except.error.inj hfault).symm))

/-- Any check but that of a JSON schema fails with violations under the name of the type, because
of a facet that the value cannot be compared with, or because a document cannot be encoded. -/
theorem failsOnly_checkScalar {P : Fault → Prop} {c : Common} {s : Scalar} {v : Value}
    (hs : ∀ schema, s ≠ .json schema) (hviolation : ∀ k, P (.violation c.name k))
    (hcannot : ∀ f, CannotCompare s v f → P f)
    (hencode : ∀ schema text f, s = .xml schema → Engines.isXml text = .error f → P f) :
    FailsOnly P (checkScalar c s v) := by
  cases s with
  | any => exact failsOnly_requireMember hviolation v
  | string f =>
      cases v with
      | text s =>
          exact (failsOnly_requireBound hviolation _ _ _).bind fun _ =>
            (failsOnly_requireBound hviolation _ _ _).bind fun _ =>
              (failsOnly_requirePattern hviolation s fun source fault hsource hfault =>
                hcannot _ (.pattern hsource hfault)).bind fun _ =>
                  failsOnly_requireMember hviolation _
      | _ => exact FailsOnly.error_iff.2 (hviolation _)
  | number f =>
      simp only [checkScalar, checkNumber]
      split
      · next n hn =>
          exact (failsOnly_checkBounds hviolation fun m fault hm hfault =>
            hcannot _ (.divisor (.inl rfl) hm hn hfault)).bind fun _ =>
              failsOnly_requireMember hviolation _
      · exact FailsOnly.error_iff.2 (hviolation _)
  | integer f =>
      cases v with
      | int n =>
          have hformat : FailsOnly P (requireFormat c.name f.format n) := by
            unfold requireFormat
            split
            · exact .ok _
            · exact failsOnly_requireBound hviolation _ _ _
          exact hformat.bind fun _ => (failsOnly_checkBounds hviolation fun m fault hm hfault =>
            hcannot _ (.divisor (.inr rfl) hm rfl hfault)).bind fun _ =>
              failsOnly_requireMember hviolation _
      | _ => exact FailsOnly.error_iff.2 (hviolation _)
  | boolean =>
      cases v with
      | bool b => exact failsOnly_requireMember hviolation _
      | _ => exact FailsOnly.error_iff.2 (hviolation _)
  | nil => exact failsOnly_require hviolation _ _
  | file f =>
      cases v with
      | bytes content =>
          exact (failsOnly_requireBound hviolation _ _ _).bind fun _ =>
            failsOnly_requireBound hviolation _ _ _
      | _ => exact FailsOnly.error_iff.2 (hviolation _)
  | json schema => exact absurd rfl (hs schema)
  | xml schema =>
      cases v with
      | text s =>
          have hread : FailsOnly P (Engines.isXml s) := fun f => hencode schema s f rfl
          exact hread.bind fun _ => failsOnly_require hviolation _ _
      | _ => exact FailsOnly.error_iff.2 (hviolation _)
  | temporal kind format =>
      exact (failsOnly_require hviolation _ _).bind fun _ => failsOnly_requireMember hviolation _

theorem plain_readsXml (s : String) : Plain (readsXml s) := by
  unfold readsXml
  split
  · exact FailsOnly.error_iff.2 (.inr (.inr (.inr rfl)))
  · exact .ok _

/-- Only the check of a JSON schema fails in other ways. -/
theorem plain_checkScalar {s : Scalar} (hs : ∀ schema, s ≠ .json schema) (c : Common) (v : Value) :
    Plain (checkScalar c s v) :=
  failsOnly_checkScalar hs (.violation _) (fun _ => CannotCompare.isPlainFault)
    fun _ text f _ => plain_readsXml text f

theorem plain_decodeJson (subject : String) (v : Value) : Plain (decodeJson subject v) := by
  cases v with
  | text s =>
      simp only [decodeJson, Engines.decode, decodeText]
      cases Json.read s with
      | ok v => exact .ok _
      | error failure =>
          cases failure with
          | malformed problem offset => exact FailsOnly.error_iff.2 (.violation _ _)
          | tooManyDigits => exact FailsOnly.error_iff.2 (.inr (.inr (.inr rfl)))
  | _ => exact .ok _

/-- No scalar check speaks of the name of a type. -/
theorem checkScalar_family {c : Common} {s : Scalar} {v : Value} {f : Fault}
    (h : checkScalar c s v = .error f) :
    f.family = .validation ∨ f.family = .other ∨ f.family = .schema := by
  by_cases hs : ∃ schema, s = .json schema
  · obtain ⟨schema, rfl⟩ := hs
    rcases Except.bind_eq_error_iff.1 h with h | ⟨v', -, h⟩
    · exact (plain_decodeJson _ _ f h).family.imp_right .inl
    · cases hverdict : Engines.verdict schema v' with
      | satisfied => simp only [hverdict, reduceCtorEq] at h
      | broken message =>
          simp only [hverdict] at h
          obtain rfl := Except.error.inj h
          exact .inl rfl
      | noSchema =>
          simp only [hverdict] at h
          obtain rfl := Except.error.inj h
          exact .inr (.inr rfl)
      | failed fault =>
          simp only [hverdict] at h
          obtain rfl := Except.error.inj h
          exact .inr (.inl (Json.verdict_failed hverdict))
  · have hplain := plain_checkScalar (fun schema he => hs ⟨schema, he⟩) c v f h
    exact hplain.family.imp_right .inl

theorem checkScalar_endless {c : Common} {s : Scalar} {v : Value}
    (h : checkScalar c s v = .error .endless) : ∃ schema, s = .json schema := by
  by_contra hs
  exact (plain_checkScalar (fun schema he => hs ⟨schema, he⟩) c v _ h).ne_endless rfl

end Validation

end Raml
