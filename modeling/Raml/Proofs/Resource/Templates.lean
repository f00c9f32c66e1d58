import Raml.Api.Query
import Raml.Proofs.DataType.Building
import Raml.Proofs.General.Table
import Raml.Proofs.Parameter.Patterns

/-! # What templates match

A URI fits a template if it is cut into one piece for each part of the template
and each piece fits its part. The pattern of a template matches the URIs that
fit, and looking up a resource finds the first one whose template a URI fits.
-/

namespace Raml

open Pattern

/-! ## Pieces of a URI -/

namespace Parameter

/-- The parameter declares no pattern; an empty one is as good as none. -/
def DeclaresNoPattern (p : Parameter) : Prop :=
  ∀ pattern, p.pattern = some pattern → pattern = ""

def HasExpression (p : Parameter) : Prop :=
  ∃ node, Pattern.read p.matchPattern = .ok node

/-- The parameter's pattern is an expression that matches a text in full. -/
def MatchesInFull (p : Parameter) (piece : List Char) : Prop :=
  ∃ node, Pattern.read p.matchPattern = .ok node ∧ node.matchesAll (String.ofList piece) = true

/-- The texts that the parameter's pattern matches in full. -/
def language (p : Parameter) : Language Char :=
  {piece | p.MatchesInFull piece}

theorem DeclaresNoPattern.filter {p : Parameter} (h : p.DeclaresNoPattern) :
    p.pattern.filter (· ≠ "") = none := by
  rw [Option.filter_eq_none_iff]
  intro pattern hpattern
  simpa using h pattern hpattern

end Parameter

/-- A piece of a URI fits a part of a template: a literal is itself, a placeholder of a parameter
is what the parameter's pattern matches in full, and any other placeholder has no slashes. Only an
optional one may be empty. -/
inductive TemplatePart.Fits (parameters : Parameters) : TemplatePart → List Char → Prop
  | literal (c : Char) : Fits parameters (.literal c) [c]
  | undeclared {optional : Bool} {key : String} {piece : List Char} :
      parameters.get? key = none → '/' ∉ piece → (optional = false → piece ≠ []) →
        Fits parameters (.placeholder optional key) piece
  | declared {optional : Bool} {key : String} {p : Parameter} {piece : List Char} :
      parameters.get? key = some p → p.MatchesInFull piece →
        Fits parameters (.placeholder optional key) piece
  | omitted {key : String} {p : Parameter} :
      parameters.get? key = some p → Fits parameters (.placeholder true key) []

namespace TemplatePart

def language (parameters : Parameters) (part : TemplatePart) : Language Char :=
  {piece | part.Fits parameters piece}

variable {parameters : Parameters} {optional : Bool} {key : String} {piece : List Char}

theorem fits_literal {c : Char} : (literal c).Fits parameters piece ↔ piece = [c] := by
  constructor
  · rintro ⟨⟩
    rfl
  · rintro rfl
    exact .literal c

theorem fits_undeclared (h : parameters.get? key = none) :
    (placeholder optional key).Fits parameters piece ↔
      '/' ∉ piece ∧ (optional = false → piece ≠ []) := by
  constructor
  · intro hfits
    cases hfits with
    | undeclared _ hslash hempty => exact ⟨hslash, hempty⟩
    | declared hkey _ => rw [h] at hkey; cases hkey
    | omitted hkey => rw [h] at hkey; cases hkey
  · rintro ⟨hslash, hempty⟩
    exact .undeclared h hslash hempty

theorem fits_declared {p : Parameter} (h : parameters.get? key = some p) :
    (placeholder optional key).Fits parameters piece ↔
      p.MatchesInFull piece ∨ optional = true ∧ piece = [] := by
  constructor
  · intro hfits
    cases hfits with
    | undeclared hkey _ _ => rw [h] at hkey; cases hkey
    | declared hkey hmatches =>
        rw [h] at hkey
        exact .inl (Option.some.inj hkey ▸ hmatches)
    | omitted _ => exact .inr ⟨rfl, rfl⟩
  · rintro (hmatches | ⟨rfl, rfl⟩)
    · exact .declared h hmatches
    · exact .omitted h

end TemplatePart

def Template.Fits (parameters : Parameters) (t : Template) (text : List Char) : Prop :=
  ∃ pieces, List.Forall₂ (TemplatePart.Fits parameters) t pieces ∧ pieces.flatten = text

def Template.language (parameters : Parameters) (t : Template) : Language Char :=
  {text | t.Fits parameters text}

def TemplatePart.written : TemplatePart → List Char
  | .literal c => [c]
  | .placeholder optional key =>
      (if optional then ['~'] else []) ++ '\x7b' :: (key.toList ++ ['\x7d'])

namespace Template

theorem readKey?_written {cs rest : List Char} {key : String}
    (h : readKey? cs = some (key, rest)) : key.toList ++ '\x7d' :: rest = cs := by
  have hwhole := List.takeWhile_append_dropWhile (p := fun c => decide (c ≠ '\x7d')) (l := cs)
  cases hdrop : cs.dropWhile (fun c => decide (c ≠ '\x7d')) with
  | nil => simp only [readKey?, hdrop, reduceCtorEq] at h
  | cons c behind =>
      have hc : c = '\x7d' := by
        have hhead := List.head?_dropWhile_not (fun c => decide (c ≠ '\x7d')) cs
        rw [hdrop] at hhead
        simpa using hhead
      simp only [readKey?, hdrop, Option.some.injEq, Prod.mk.injEq] at h
      obtain ⟨rfl, rfl⟩ := h
      rw [hdrop, hc] at hwhole
      rw [String.toList_ofList]
      exact hwhole

theorem readPlaceholder?_written {cs rest : List Char} {part : TemplatePart}
    (h : readPlaceholder? cs = some (part, rest)) : part.written ++ rest = cs := by
  unfold readPlaceholder? at h
  split at h
  · obtain ⟨p, hkey, hp⟩ := Option.map_eq_some_iff.1 h
    obtain ⟨rfl, rfl⟩ := Prod.mk.inj hp
    simp [TemplatePart.written, ← readKey?_written hkey]
  · obtain ⟨p, hkey, hp⟩ := Option.map_eq_some_iff.1 h
    obtain ⟨rfl, rfl⟩ := Prod.mk.inj hp
    simp [TemplatePart.written, ← readKey?_written hkey]
  · cases h

theorem written_ofUri (uri : String) :
    (ofUri uri).flatMap TemplatePart.written = uri.toList := by
  rw [ofUri]
  fun_induction ofChars uri.toList with
  | case1 cs part rest h hlt ih => rw [List.flatMap_cons, ih, readPlaceholder?_written h]
  | case2 h => rfl
  | case3 c rest h ih =>
      rw [List.flatMap_cons, ih]
      rfl

end Template

/-! ## Patterns of parts -/

/-- Every parameter has a pattern that it does not declare and that is an expression. -/
def Parameters.HaveExpressions (parameters : Parameters) : Prop :=
  ∀ key p, parameters.get? key = some p → p.DeclaresNoPattern ∧ p.HasExpression

theorem Parameters.HaveExpressions.ofAll {parameters : Parameters}
    (h : ∀ e ∈ parameters, e.2.pattern.getD "" = "" ∧
      (Pattern.read e.2.matchPattern).toOption.isSome = true) : parameters.HaveExpressions := by
  intro key p hp
  obtain ⟨k, -, hmem⟩ := Table.mem_of_get? hp
  obtain ⟨hpattern, hread⟩ := h _ hmem
  refine ⟨fun pattern heq => ?_, ?_⟩
  · rw [heq] at hpattern
    exact hpattern
  · cases hnode : Pattern.read p.matchPattern with
    | ok node => exact ⟨node, hnode⟩
    | error e =>
        rw [hnode] at hread
        cases hread

theorem withoutAnchors_anchored (body : String) :
    Template.withoutAnchors ("^" ++ body ++ "$") = body :=
  String.toList_inj.1 (by simp [Template.withoutAnchors, Text.startsIn])

theorem Parameter.language_eq {p : Parameter} {body : String} {L : Language Char}
    (heq : p.matchPattern = "^" ++ body ++ "$") (hbody : Denotes body L) : p.language = L := by
  obtain ⟨node, hread, hmatches, -⟩ := hbody.read
  refine Language.ext fun piece => ?_
  have hpiece := hmatches (String.ofList piece)
  rw [String.toList_ofList] at hpiece
  rw [← hpiece]
  constructor
  · rintro ⟨node', hnode, h⟩
    rw [heq, hread] at hnode
    exact Except.ok.inj hnode ▸ h
  · exact fun h => ⟨node, heq ▸ hread, h⟩

theorem Parameter.denotes_withoutAnchors {p : Parameter} (hpattern : p.DeclaresNoPattern)
    (hexpression : p.HasExpression) :
    Denotes (Template.withoutAnchors p.matchPattern) p.language := by
  obtain ⟨node, hread⟩ := hexpression
  obtain ⟨body, L, heq, hbody⟩ := p.isAnchored_matchPattern hpattern.filter hread
  rw [p.language_eq heq hbody, heq, withoutAnchors_anchored]
  exact hbody

theorem denotes_slashless :
    Denotes "([^/]*)" (exactly (· != '/') 0 * upTo (· != '/') none) := by
  have hpieces : Denotes "[^/]*" _ :=
    ⟨_, rfl, readsChar_notSlash.rounds '*' [] (by decide) fun _ => rfl⟩
  exact hpieces.choice.capture

namespace Template

section Patterns

variable {parameters : Parameters}

theorem denotes_undeclared {key : String} (hkey : parameters.get? key = none) (optional : Bool) :
    Denotes (partPattern parameters (.placeholder optional key))
      ((TemplatePart.placeholder optional key).language parameters) := by
  have hfits : ∀ piece, _ ↔ piece ∈ (TemplatePart.placeholder optional key).language _ :=
    fun _ => (TemplatePart.fits_undeclared hkey).symm
  rw [partPattern, hkey]
  cases optional with
  | false =>
      refine denotes_slashless_nonempty.congr fun piece => ?_
      refine mem_slashless.trans (Iff.trans ?_ (hfits piece))
      rw [Nat.one_le_iff_ne_zero, ne_eq, List.length_eq_zero_iff]
      simp
  | true =>
      refine denotes_slashless.congr fun piece => ?_
      refine mem_slashless.trans (Iff.trans ?_ (hfits piece))
      simp

theorem denotes_declared {key : String} {p : Parameter} (hkey : parameters.get? key = some p)
    (hpattern : p.DeclaresNoPattern) (hexpression : p.HasExpression) (optional : Bool) :
    Denotes (partPattern parameters (.placeholder optional key))
      ((TemplatePart.placeholder optional key).language parameters) := by
  have hinner := (p.denotes_withoutAnchors hpattern hexpression).choice.capture
  have hfits : ∀ piece, _ ↔ piece ∈ (TemplatePart.placeholder optional key).language _ :=
    fun _ => (TemplatePart.fits_declared hkey).symm
  rw [partPattern, hkey]
  cases optional with
  | false =>
      refine hinner.congr fun piece => Iff.trans ?_ (hfits piece)
      exact (or_iff_left (by simp)).symm
  | true =>
      -- An optional placeholder has an empty group as its second alternative.
      have hempty : Denotes "()" 1 := denotes_empty.choice.capture
      have hall := (hinner.choiceOr hempty.choice).capture
      have hwritten : "(" ++ ("(" ++ withoutAnchors p.matchPattern ++ ")" ++ "|" ++ "()") ++ ")" =
          "((" ++ withoutAnchors p.matchPattern ++ ")|())" :=
        String.toList_inj.1 (by simp)
      rw [hwritten] at hall
      refine hall.congr fun piece => Iff.trans ?_ (hfits piece)
      exact or_congr_right (and_iff_right rfl).symm

variable (h : parameters.HaveExpressions)
include h

theorem denotes_partPattern (part : TemplatePart) :
    Denotes (partPattern parameters part) (part.language parameters) := by
  cases part with
  | literal c =>
      refine (denotes_escape c.toString).congr fun piece => ?_
      rw [Char.toString_eq_singleton, String.toList_singleton]
      exact TemplatePart.fits_literal.symm
  | placeholder optional key =>
      cases hkey : parameters.get? key with
      | none => exact denotes_undeclared hkey optional
      | some p =>
          obtain ⟨hpattern, hexpression⟩ := h key p hkey
          exact denotes_declared hkey hpattern hexpression optional

theorem denotes_parts (t : Template) :
    Denotes (String.join (t.map (partPattern parameters))) (t.language parameters) := by
  induction t with
  | nil =>
      refine denotes_empty.congr fun text => ?_
      constructor
      · rintro rfl
        exact ⟨[], .nil, rfl⟩
      · rintro ⟨_, ⟨⟩, rfl⟩
        rfl
  | cons part rest ih =>
      rw [List.map_cons, String.join_cons]
      refine ((denotes_partPattern h part).append ih).congr fun text => ?_
      rw [Language.mem_mul]
      constructor
      · rintro ⟨piece, hpiece, _, ⟨pieces, hpieces, rfl⟩, rfl⟩
        exact ⟨piece :: pieces, .cons hpiece hpieces, rfl⟩
      · rintro ⟨_, hall, rfl⟩
        cases hall with
        | cons hpiece hpieces => exact ⟨_, hpiece, _, ⟨_, hpieces, rfl⟩, rfl⟩

theorem exists_node (t : Template) : ∃ node, Pattern.read (t.pattern parameters) = .ok node ∧
    ∀ text : String, '\n' ∉ text.toList →
      (node.matchesStart text = true ↔ t.Fits parameters text.toList) := by
  obtain ⟨node, hread, -, hmatches⟩ := (denotes_parts h t).read
  exact ⟨node, hread, hmatches⟩

end Patterns

end Template

/-! ## Queries -/

theorem withoutQuery_toList (uri : String) :
    (withoutQuery uri).toList = uri.toList.takeWhile (· ≠ '?') := by
  rw [withoutQuery, Text.before, String.toList_ofList]

theorem withoutQuery_of_not_mem {path : String} (h : '?' ∉ path.toList) :
    withoutQuery path = path := by
  have hall : ∀ c ∈ path.toList, decide (c ≠ '?') = true := fun c hc =>
    decide_eq_true fun hc' => h (hc' ▸ hc)
  rw [withoutQuery, Text.before, List.takeWhile_eq_self_iff.2 hall, String.ofList_toList]

/-- Whatever query follows the part before the query, that part is found again. -/
theorem withoutQuery_append (uri query : String) :
    withoutQuery (withoutQuery uri ++ "?" ++ query) = withoutQuery uri := by
  apply String.toList_inj.1
  have hpath : ∀ c ∈ (withoutQuery uri).toList, decide (c ≠ '?') = true := by
    rw [withoutQuery_toList]
    exact fun c hc => List.mem_takeWhile_imp (p := fun c => decide (c ≠ '?')) hc
  rw [withoutQuery_toList, String.toList_append, String.toList_append, List.append_assoc,
    List.takeWhile_append_of_pos hpath]
  simp

theorem withoutQuery_withoutQuery (uri : String) :
    withoutQuery (withoutQuery uri) = withoutQuery uri := by
  apply String.toList_inj.1
  rw [withoutQuery_toList (withoutQuery uri), withoutQuery_toList uri, List.takeWhile_takeWhile]
  simp

/-! ## Resources -/

def Resource.FitsUri (r : Resource) (uri : String) : Prop :=
  (Template.ofUri r.uri).Fits r.uriParameters (withoutQuery uri).toList

theorem Resource.matchesUri_eq {r : Resource} (h : r.uriParameters.HaveExpressions) {uri : String}
    (hline : '\n' ∉ (withoutQuery uri).toList) :
    ∃ b, r.matchesUri uri = .ok b ∧ (b = true ↔ r.FitsUri uri) := by
  obtain ⟨node, hread, hmatches⟩ := Template.exists_node h (Template.ofUri r.uri)
  refine ⟨node.matchesStart (withoutQuery uri), ?_, hmatches _ hline⟩
  have hpattern : Json.Assertion.patternOf r.uriPattern = .ok node := by
    rw [Json.Assertion.patternOf, Resource.uriPattern, hread]
  rw [Resource.matchesUri, hpattern]
  rfl

namespace Api

section Lookup

variable {resources : List Resource} {uri : String}

theorem firstMatch_cons {r : Resource} {b : Bool} (h : r.matchesUri uri = .ok b)
    (rest : List Resource) :
    firstMatch uri (r :: rest) = if b = true then .ok r else firstMatch uri rest := by
  simp only [firstMatch, h, bind, Except.bind]

variable (h : ∀ r ∈ resources, ∃ b, r.matchesUri uri = .ok b ∧ (b = true ↔ r.FitsUri uri))
include h

theorem firstMatch_ok_iff {r : Resource} : firstMatch uri resources = .ok r ↔
    ∃ before after, resources = before ++ r :: after ∧ r.FitsUri uri ∧
      ∀ s ∈ before, ¬ s.FitsUri uri := by
  induction resources with
  | nil => simp [firstMatch]
  | cons s rest ih =>
      rw [List.forall_mem_cons] at h
      obtain ⟨b, hmatches, hfits⟩ := h.1
      rw [firstMatch_cons hmatches]
      by_cases hb : b = true
      · rw [if_pos hb]
        constructor
        · rintro ⟨⟩
          exact ⟨[], rest, rfl, hfits.1 hb, by simp⟩
        · rintro ⟨before, after, heq, -, hbefore⟩
          cases before with
          | nil => rw [(List.cons.inj heq).1]
          | cons t before =>
              obtain ⟨rfl, -⟩ := List.cons.inj heq
              exact absurd (hfits.1 hb) (hbefore s List.mem_cons_self)
      · -- the first resource does not fit, so it is one of those before
        have hs : ¬ s.FitsUri uri := fun hs => hb (hfits.2 hs)
        rw [if_neg hb, ih h.2]
        constructor
        · rintro ⟨before, after, rfl, hr, hbefore⟩
          refine ⟨s :: before, after, rfl, hr, ?_⟩
          rw [List.forall_mem_cons]
          exact ⟨hs, hbefore⟩
        · rintro ⟨before, after, heq, hr, hbefore⟩
          cases before with
          | nil => exact absurd ((List.cons.inj heq).1 ▸ hr) hs
          | cons t before =>
              obtain ⟨rfl, rfl⟩ := List.cons.inj heq
              rw [List.forall_mem_cons] at hbefore
              exact ⟨before, after, rfl, hr, hbefore.2⟩

theorem firstMatch_error_iff {fault : Fault} : firstMatch uri resources = .error fault ↔
    fault = .resourceNotFound uri ∧ ∀ r ∈ resources, ¬ r.FitsUri uri := by
  induction resources with
  | nil => simp [firstMatch, eq_comm]
  | cons s rest ih =>
      rw [List.forall_mem_cons] at h
      obtain ⟨b, hmatches, hfits⟩ := h.1
      rw [firstMatch_cons hmatches, List.forall_mem_cons]
      by_cases hb : b = true
      · rw [if_pos hb]
        constructor
        · rintro ⟨⟩
        · exact fun hnone => absurd (hfits.1 hb) hnone.2.1
      · rw [if_neg hb, ih h.2]
        have hs : ¬ s.FitsUri uri := fun hs => hb (hfits.2 hs)
        exact and_congr_right' (and_iff_right hs).symm

end Lookup

/-- A resource matches a URI exactly if the URI fits its template, and looking up a URI finds the
first resource, in the order of the tree, whose template it fits. The query does not matter. -/
theorem resourceByUri_first {a : Api} (h : ∀ r ∈ a.allResources, r.uriParameters.HaveExpressions)
    {uri : String} (hline : '\n' ∉ (withoutQuery uri).toList) :
    (∀ r ∈ a.allResources, (r.matchesUri uri = .ok true ↔ r.FitsUri uri) ∧
      (r.matchesUri uri = .ok false ↔ ¬ r.FitsUri uri)) ∧
    (∀ r, a.resourceByUri uri = .ok r ↔
      ∃ before after, a.allResources = before ++ r :: after ∧ r.FitsUri uri ∧
        ∀ s ∈ before, ¬ s.FitsUri uri) ∧
    (∀ fault, a.resourceByUri uri = .error fault ↔
      fault = .resourceNotFound (withoutQuery uri) ∧ ∀ r ∈ a.allResources, ¬ r.FitsUri uri) ∧
    a.resourceByUri (withoutQuery uri) = a.resourceByUri uri ∧
    ∀ query, a.resourceByUri (withoutQuery uri ++ "?" ++ query) = a.resourceByUri uri := by
  have hfits : ∀ r : Resource, r.FitsUri (withoutQuery uri) ↔ r.FitsUri uri := fun r => by
    rw [Resource.FitsUri, withoutQuery_withoutQuery, Resource.FitsUri]
  have hmatches : ∀ r ∈ a.allResources, ∃ b, r.matchesUri (withoutQuery uri) = .ok b ∧
      (b = true ↔ r.FitsUri (withoutQuery uri)) := fun r hr =>
    Resource.matchesUri_eq (h r hr) (by rwa [withoutQuery_withoutQuery])
  refine ⟨fun r hr => ?_, fun r => ?_, fun fault => ?_, ?_, fun query => ?_⟩
  · obtain ⟨b, hb, hiff⟩ := Resource.matchesUri_eq (h r hr) hline
    rw [hb, ← hiff]
    cases b <;> simp
  · rw [resourceByUri, firstMatch_ok_iff hmatches]
    simp only [hfits]
  · rw [resourceByUri, firstMatch_error_iff hmatches]
    simp only [hfits]
  · rw [resourceByUri, withoutQuery_withoutQuery, resourceByUri]
  · rw [resourceByUri, withoutQuery_append, resourceByUri]

/-- A parameter that says nothing but its type and its values. -/
def bareParameter (key type : String) (enum : Option (List Value)) : Parameter :=
  ⟨key, type, none, none, enum, none, none, none, none, none, .null, false, true, .null, none⟩

/-- A resource without methods and nested resources. -/
def bareResource (uri : String) (uriParameters : Parameters) : Resource :=
  ⟨uri, uri, uri, none, [], uriParameters, [], [], [], []⟩

/-- An order by its number, in one of two formats or in none that is said. -/
def order : Resource :=
  bareResource "/orders/\x7bid\x7d~\x7bformat\x7d"
    [("id", bareParameter "id" "integer" none),
      ("format", bareParameter "format" "string" (some [.text ".json", .text ".xml"]))]

def orderList : Resource :=
  bareResource "/orders/\x7bname\x7d" []

def orders : Api :=
  { ofTitle "Orders" with
    resources := [(order.uri, order), (orderList.uri, orderList)] }

theorem orders_haveExpressions :
    ∀ r ∈ orders.allResources, r.uriParameters.HaveExpressions := by
  have hresources : orders.allResources = [order, orderList] := rfl
  rw [hresources, List.forall_mem_cons, List.forall_mem_singleton]
  exact ⟨.ofAll (by decide +kernel), .ofAll (by decide)⟩

/-- An order in a format is found whatever the query; a name that is no number leads to the list. -/
theorem resourceByUri_first_orders :
    orders.resourceByUri "/orders/12.xml?full" = .ok order ∧
      orders.resourceByUri "/orders/new" = .ok orderList := by
  obtain ⟨hmatches, hfirst, -⟩ := resourceByUri_first orders_haveExpressions
    (by decide : '\n' ∉ (withoutQuery "/orders/12.xml?full").toList)
  obtain ⟨hmatches', hfirst', -⟩ := resourceByUri_first orders_haveExpressions
    (by decide : '\n' ∉ (withoutQuery "/orders/new").toList)
  have horder : order ∈ orders.allResources := List.mem_cons_self
  have horderList : orderList ∈ orders.allResources := List.mem_cons_of_mem _ List.mem_cons_self
  have hfits := (hmatches order horder).1.1 (Except.eq_ok_of_toOption (by decide +kernel))
  have hfits' := (hmatches' orderList horderList).1.1 (Except.eq_ok_of_toOption (by decide +kernel))
  have hnot := (hmatches' order horder).2.1 (Except.eq_ok_of_toOption (by decide +kernel))
  constructor
  · exact (hfirst order).2 ⟨[], [orderList], rfl, hfits, by simp⟩
  · refine (hfirst' orderList).2 ⟨[order], [], rfl, hfits', ?_⟩
    rw [List.forall_mem_singleton]
    exact hnot

end Api

end Raml
