import Raml.Proofs.Validation.Conformance

/-! # What is accepted

A check accepts a value exactly if every requirement that it makes is met, in
whatever order it makes them. A type of the same kind that makes no other
requirements, and asks its nested types for no more, accepts at least the same
values: of its bounds each is left out or the same, and an object has no
properties beside those of the other, unless it lets undeclared ones pass.
-/

namespace Raml

open DataType

namespace Validation

/-! ## Scalars -/

theorem requireMember_eq_ok_iff {c : Common} {v : Value} :
    requireMember c v = .ok () ↔ c.Lists v := by
  simp [requireMember, requireBound_eq_ok_iff, Common.Lists, List.any_eq_true, Value.same_iff]

theorem requireSize_eq_ok_iff {subject : String} {least most : Option Int} {size : Nat}
    {c c' : Int → Constraint} :
    requireBound subject least (fun n => n ≤ size) c = .ok () ∧
      requireBound subject most (fun n => size ≤ n) c' = .ok () ↔ WithinBounds least most size := by
  simp only [requireBound_eq_ok_iff, decide_eq_true_eq]
  exact ⟨fun h => ⟨h.1, h.2⟩, fun h => ⟨h.least, h.most⟩⟩

theorem requireMultiple_eq_ok_iff {subject : String} {divisor : Option Number} {n : Number} :
    requireMultiple subject divisor n = .ok () ↔
      ∀ m, divisor = some m → m.isZero = true ∨ m.IsMultiple n := by
  cases divisor with
  | none => simp [requireMultiple]
  | some m =>
      by_cases hzero : m.isZero = true
      · simp [requireMultiple, hzero]
      · rw [show requireMultiple subject (some m) n = _ from if_neg hzero, Except.bind_eq_ok_iff]
        simp [hzero, isMultiple_iff]

theorem checkBounds_eq_ok_iff {subject : String} {f : NumberFacets} {n : Number} :
    checkBounds subject f n = .ok () ↔ f.Admits n := by
  rw [checkBounds, Except.then_eq_ok_iff, Except.then_eq_ok_iff, requireMultiple_eq_ok_iff]
  simp only [requireBound_eq_ok_iff, not_less_iff]
  exact ⟨fun h => ⟨h.1, h.2.1, h.2.2⟩, fun h => ⟨h.minimum, h.maximum, h.multipleOf⟩⟩

theorem requireFormat_eq_ok_iff {subject : String} {format : Option String} {n : Int} :
    requireFormat subject format n = .ok () ↔ FitsFormat format n := by
  cases format with
  | none => simp [requireFormat, FitsFormat]
  | some word =>
      simp only [requireFormat, requireBound_eq_ok_iff, formatWidth?_eq_some_iff, fits_iff,
        FitsFormat, Option.some.injEq]
      exact ⟨fun h _ width hword => hword ▸ h width, fun h width => h word width rfl⟩

section Scalars

variable [Engines]

theorem requirePattern_eq_ok_iff {subject s : String} {pattern : Option String} :
    requirePattern subject pattern s = .ok () ↔
      ∀ source, pattern = some source → Finds source s := by
  cases pattern with
  | none => simp [requirePattern]
  | some source =>
      rw [requirePattern, Except.bind_eq_ok_iff]
      simp [require_eq_ok_iff, Finds]

theorem checkJson_of_satisfied {c : Common} {schema : Mapping} {v : Value}
    {document : Engines.Document} (hdocument : v.IsDocument document)
    (h : Engines.verdict schema document = .satisfied) : checkJson c schema v = .ok () := by
  have hdecode : decodeJson c.name v = .ok document := by
    cases hdocument with
    | written hdecodes => simp only [decodeJson, hdecodes]
    | decoded hnoText =>
        cases v with
        | text s => exact absurd rfl (hnoText s)
        | _ => rfl
  simp only [checkJson, hdecode, Bind.bind, Except.bind, h]

theorem checkScalar_eq_ok_iff {c : Common} {s : Scalar} {v : Value} :
    checkScalar c s v = .ok () ↔ s.Admits c v := by
  refine ⟨(decides_checkScalar c s v).accepted, fun h => ?_⟩
  cases h with
  | any henum => exact requireMember_eq_ok_iff.2 henum
  | string hlength hpattern henum =>
      rw [checkScalar, checkText, Except.then_eq_ok_iff, Except.then_eq_ok_iff,
        Except.then_eq_ok_iff, ← and_assoc, requireSize_eq_ok_iff, requirePattern_eq_ok_iff,
        requireMember_eq_ok_iff]
      exact ⟨hlength, hpattern, henum⟩
  | number hnumber hsize henum =>
      simp only [checkScalar, checkNumber, number?_eq_some_iff.2 hnumber]
      exact Except.then_eq_ok_iff.2 ⟨checkBounds_eq_ok_iff.2 hsize,
        requireMember_eq_ok_iff.2 henum⟩
  | integer hformat hsize henum =>
      rw [checkScalar, checkInteger, Except.then_eq_ok_iff, Except.then_eq_ok_iff,
        requireFormat_eq_ok_iff, checkBounds_eq_ok_iff, requireMember_eq_ok_iff]
      exact ⟨hformat, hsize, henum⟩
  | boolean henum => exact requireMember_eq_ok_iff.2 henum
  | nil => rfl
  | file hsize =>
      rw [checkScalar, checkFile, Except.then_eq_ok_iff, requireSize_eq_ok_iff]
      exact hsize
  | json hdocument hsatisfied => exact checkJson_of_satisfied hdocument hsatisfied
  | xml hwell => exact Except.bind_eq_ok_iff.2 ⟨_, hwell, (require_eq_ok_iff _ _ _).2 rfl⟩
  | temporal htext henum =>
      exact Except.then_eq_ok_iff.2 ⟨(require_eq_ok_iff _ _ _).2
        ((formatOf_accepts_iff _ _ _).2 htext), requireMember_eq_ok_iff.2 henum⟩

end Scalars

/-! ## Structured types -/

section Structured

variable {check : Check} {c : Common}

theorem checkProperties_eq_ok_iff {entries : Mapping} {properties : List (String × DataType)} :
    checkProperties check entries properties = .ok () ↔ ∀ key t, (key, t) ∈ properties →
      (t.required = true → (entries.field? key).isSome = true) ∧
        ∀ w, entries.field? key = some w → check t w = .ok () := by
  refine ⟨(decides_checkProperties (fun _ _ => .self) entries properties).accepted, fun h => ?_⟩
  induction properties with
  | nil => rfl
  | cons p rest ih =>
      obtain ⟨key, t⟩ := p
      obtain ⟨hrequired, hpresent⟩ := h key t (by simp)
      rw [checkProperties_cons, Except.then_eq_ok_iff]
      refine ⟨?_, ih fun k u hu => h k u (List.mem_cons_of_mem _ hu)⟩
      cases hw : entries.field? key with
      | some w => exact hpresent w hw
      | none => simpa [hw] using hrequired

theorem checkObject_eq_ok_iff {f : ObjectFacets} {properties : List (String × DataType)}
    {v : Value} : checkObject check c f properties v = .ok () ↔ ∃ entries, v = .map entries ∧
      WithinBounds f.minProperties f.maxProperties entries.length ∧
      checkProperties check entries properties = .ok () ∧
      (f.additionalProperties = false →
        ∀ k ∈ Table.keys entries, ∃ key ∈ Table.keys properties, k = .text key) ∧ c.Lists v := by
  cases v with
  | map entries =>
      simp only [Value.map.injEq, exists_eq_left']
      rw [checkObject, Except.then_eq_ok_iff, Except.then_eq_ok_iff, Except.then_eq_ok_iff,
        Except.then_eq_ok_iff, ← and_assoc, requireSize_eq_ok_iff, requireMember_eq_ok_iff,
        require_eq_ok_iff, Bool.or_eq_true, List.isEmpty_iff, undeclaredKeys_eq_nil_iff]
      cases f.additionalProperties <;> simp
  | _ => simp [checkObject]

theorem checkItems_eq_ok_iff {items : Option DataType} {vs : List Value} :
    checkItems check items vs = .ok () ↔ ∀ t, items = some t → ∀ w ∈ vs, check t w = .ok () := by
  refine ⟨(decides_checkItems (fun _ _ => .self) items vs).accepted, fun h => ?_⟩
  cases items with
  | none => rfl
  | some t =>
      have heach := h t rfl
      clear h
      induction vs with
      | nil => rfl
      | cons w rest ih =>
          exact Except.then_eq_ok_iff.2 ⟨heach w (by simp), ih fun w' hw' =>
            heach w' (List.mem_cons_of_mem _ hw')⟩

theorem checkArray_eq_ok_iff {f : ArrayFacets} {items : Option DataType} {v : Value} :
    checkArray check c f items v = .ok () ↔ ∃ vs, v.items? = some vs ∧
      WithinBounds f.minItems f.maxItems vs.length ∧
      (f.uniqueItems = true → allDiffer vs = true) ∧
      (∀ t, items = some t → ∀ w ∈ vs, check t w = .ok ()) ∧ c.Lists v := by
  unfold checkArray
  cases v.items? with
  | none => simp
  | some vs =>
      simp only [Option.some.injEq, exists_eq_left']
      rw [Except.then_eq_ok_iff, Except.then_eq_ok_iff, Except.then_eq_ok_iff,
        Except.then_eq_ok_iff, ← and_assoc, requireSize_eq_ok_iff, requireMember_eq_ok_iff,
        require_eq_ok_iff, checkItems_eq_ok_iff, Bool.or_eq_true]
      cases f.uniqueItems <;> simp

theorem checkUnion_eq_ok_iff {members : List DataType} {v : Value} :
    checkUnion check c members v = .ok () ↔
      someAccepts check v members = .ok true ∧ c.Lists v := by
  rw [checkUnion, Except.bind_eq_ok_iff]
  simp only [Except.then_eq_ok_iff, require_eq_ok_iff, requireMember_eq_ok_iff]
  constructor
  · rintro ⟨accepted, hsearch, rfl, hlists⟩
    exact ⟨hsearch, hlists⟩
  · rintro ⟨hsearch, hlists⟩
    exact ⟨true, hsearch, rfl, hlists⟩

end Structured

end Validation

/-! ## Fewer requirements -/

/-- Whether a bound is left out, or the same as another. -/
def NoStricter {α : Type} (x y : Option α) : Prop := ∀ a, x = some a → y = some a

theorem NoStricter.refl {α : Type} (x : Option α) : NoStricter x x := fun _ => id

theorem NoStricter.left_out {α : Type} (y : Option α) : NoStricter none y := fun _ h => nomatch h

theorem WithinBounds.mono {least most least' most' : Option Int} {size : Nat}
    (h : WithinBounds least most size) (hleast : NoStricter least' least)
    (hmost : NoStricter most' most) : WithinBounds least' most' size :=
  ⟨fun n hn => h.least n (hleast n hn), fun n hn => h.most n (hmost n hn)⟩

theorem Common.Lists.mono {c c' : Common} {v : Value} (h : c.Lists v)
    (henum : NoStricter c'.enum c.enum) : c'.Lists v :=
  fun members hmembers => h members (henum members hmembers)

/-- Whether the bounds of a text are no others than those of another one. -/
structure TextFacets.NoStricter (f g : TextFacets) : Prop where
  pattern : Raml.NoStricter f.pattern g.pattern
  minLength : Raml.NoStricter f.minLength g.minLength
  maxLength : Raml.NoStricter f.maxLength g.maxLength

/-- Whether the bounds of a number are no others than those of another one, in the same format. -/
structure NumberFacets.NoStricter (f g : NumberFacets) : Prop where
  minimum : Raml.NoStricter f.minimum g.minimum
  maximum : Raml.NoStricter f.maximum g.maximum
  multipleOf : Raml.NoStricter f.multipleOf g.multipleOf
  format : f.format = g.format

/-- Whether the bounds of a file are no others than those of another one. -/
structure FileFacets.NoStricter (f g : FileFacets) : Prop where
  minLength : Raml.NoStricter f.minLength g.minLength
  maxLength : Raml.NoStricter f.maxLength g.maxLength

/-- Whether the bounds of an object are no others than those of another one, and as closed. -/
structure ObjectFacets.NoStricter (f g : ObjectFacets) : Prop where
  minProperties : Raml.NoStricter f.minProperties g.minProperties
  maxProperties : Raml.NoStricter f.maxProperties g.maxProperties
  additionalProperties : f.additionalProperties = g.additionalProperties

/-- Whether the bounds of an array are no others than those of another one. -/
structure ArrayFacets.NoStricter (f g : ArrayFacets) : Prop where
  minItems : Raml.NoStricter f.minItems g.minItems
  maxItems : Raml.NoStricter f.maxItems g.maxItems
  uniqueItems : f.uniqueItems = true → g.uniqueItems = true

theorem NumberFacets.Admits.mono {f g : NumberFacets} {n : Number} (h : g.Admits n)
    (hf : f.NoStricter g) : f.Admits n where
  minimum m hm := h.minimum m (hf.minimum m hm)
  maximum m hm := h.maximum m (hf.maximum m hm)
  multipleOf m hm := h.multipleOf m (hf.multipleOf m hm)

/-- Whether a scalar is of the same kind as another and has no other bounds. -/
inductive Scalar.NoStricter : Scalar → Scalar → Prop
  | same (s : Scalar) : NoStricter s s
  | string {f g : TextFacets} (h : f.NoStricter g) : NoStricter (.string f) (.string g)
  | number {f g : NumberFacets} (h : f.NoStricter g) : NoStricter (.number f) (.number g)
  | integer {f g : NumberFacets} (h : f.NoStricter g) : NoStricter (.integer f) (.integer g)
  | file {f g : FileFacets} (h : f.NoStricter g) : NoStricter (.file f) (.file g)

theorem Scalar.Admits.mono {c c' : Common} {s t : Scalar} {v : Value} (h : t.Admits c' v)
    (henum : Raml.NoStricter c.enum c'.enum) (hs : s.NoStricter t) : s.Admits c v := by
  cases hs with
  | same =>
      cases h with
      | any hlists => exact .any (hlists.mono henum)
      | string hlength hpattern hlists => exact .string hlength hpattern (hlists.mono henum)
      | number hnumber hsize hlists => exact .number hnumber hsize (hlists.mono henum)
      | integer hformat hsize hlists => exact .integer hformat hsize (hlists.mono henum)
      | boolean hlists => exact .boolean (hlists.mono henum)
      | nil => exact .nil
      | file hsize => exact .file hsize
      | json hdocument hsatisfies => exact .json hdocument hsatisfies
      | xml hwell => exact .xml hwell
      | temporal haccepts hlists => exact .temporal haccepts (hlists.mono henum)
  | string hf =>
      cases h with
      | string hlength hpattern hlists =>
          exact .string (hlength.mono hf.minLength hf.maxLength)
            (fun source hsource => hpattern source (hf.pattern source hsource))
            (hlists.mono henum)
  | number hf =>
      cases h with
      | number hnumber hsize hlists => exact .number hnumber (hsize.mono hf) (hlists.mono henum)
  | integer hf =>
      cases h with
      | integer hformat hsize hlists =>
          exact .integer (hf.format ▸ hformat) (hsize.mono hf) (hlists.mono henum)
  | file hf =>
      cases h with
      | file hsize => exact .file (hsize.mono hf.minLength hf.maxLength)

/-- Whether a type is of the same kind as another and makes no other requirements, given which nested
types of the other are related to its own. -/
inductive DataType.NoStricter (S : DataType → DataType → Prop) : DataType → DataType → Prop
  | scalar {c c' : Common} {s t : Scalar} (henum : Raml.NoStricter c.enum c'.enum)
      (hs : s.NoStricter t) : NoStricter S (.scalar c s) (.scalar c' t)
  | object {c c' : Common} {f g : ObjectFacets} {ps qs : List (String × DataType)}
      (henum : Raml.NoStricter c.enum c'.enum) (hf : f.NoStricter g)
      (hproperties : ∀ key t, (key, t) ∈ ps →
        ∃ u, (key, u) ∈ qs ∧ t.required = u.required ∧ S t u)
      (hclosed : f.additionalProperties = false → Table.keys qs ⊆ Table.keys ps) :
      NoStricter S (.object c f ps) (.object c' g qs)
  | array {c c' : Common} {f g : ArrayFacets} {t u : Option DataType}
      (henum : Raml.NoStricter c.enum c'.enum) (hf : f.NoStricter g) (h : Option.Rel S t u) :
      NoStricter S (.array c f t) (.array c' g u)
  | union {c c' : Common} {ts us : List DataType} (henum : Raml.NoStricter c.enum c'.enum)
      (h : List.Forall₂ S ts us) : NoStricter S (.union c ts) (.union c' us)

namespace Validation

variable {r : Registry} {S : DataType → DataType → Prop}

/-- At each level, what is accepted is accepted by a type that makes no other requirements. -/
theorem validateWithin_of_noStricter {x y : DataType} (h : x.NoStricter S y) {n : Nat} {v : Value}
    (hasked : ∀ t u w, S t u → BornOut (validateWithin r n u w) (validateWithin r n t w))
    (hy : validateWithin r (n + 1) y v = .ok ()) : validateWithin r (n + 1) x v = .ok () := by
  cases h with
  | scalar henum hs =>
      exact checkScalar_eq_ok_iff.2 ((checkScalar_eq_ok_iff.1 hy).mono henum hs)
  | object henum hf hproperties hclosed =>
      obtain ⟨entries, rfl, hsize, hparts, hdeclared, hlists⟩ := checkObject_eq_ok_iff.1 hy
      refine checkObject_eq_ok_iff.2 ⟨entries, rfl, hsize.mono hf.minProperties hf.maxProperties,
        checkProperties_eq_ok_iff.2 fun key t ht => ?_, fun hadditional k hk => ?_,
        hlists.mono henum⟩
      · obtain ⟨u, hu, hrequired, hS⟩ := hproperties key t ht
        obtain ⟨hpresent, haccepted⟩ := checkProperties_eq_ok_iff.1 hparts key u hu
        exact ⟨fun h => hpresent (hrequired ▸ h), fun w hw =>
          (hasked t u w hS).eq_ok (haccepted w hw)⟩
      · obtain ⟨key, hkey, rfl⟩ := hdeclared (hf.additionalProperties ▸ hadditional) k hk
        exact ⟨key, hclosed hadditional hkey, rfl⟩
  | array henum hf h =>
      obtain ⟨vs, hvs, hsize, hunique, heach, hlists⟩ := checkArray_eq_ok_iff.1 hy
      refine checkArray_eq_ok_iff.2 ⟨vs, hvs, hsize.mono hf.minItems hf.maxItems,
        fun hx => hunique (hf.uniqueItems hx), fun t ht w hw => ?_, hlists.mono henum⟩
      subst ht
      obtain ⟨u, rfl, hS⟩ := exists_of_rel h
      exact (hasked t u w hS).eq_ok (heach u rfl w hw)
  | @union c c' ts us henum h =>
      -- the search is the same for both, so only the enumeration is left to compare
      have hsame : BornOut (checkUnion (validateWithin r n) c' us v)
          (checkUnion (validateWithin r n) c' ts v) :=
        checkUnion_bornOut rfl (h.flip.imp fun u t hS => hasked t u v hS)
      obtain ⟨hsearch, hlists⟩ := checkUnion_eq_ok_iff.1 (hsame.eq_ok hy)
      exact checkUnion_eq_ok_iff.2 ⟨hsearch, hlists.mono henum⟩

end Validation

end Raml
