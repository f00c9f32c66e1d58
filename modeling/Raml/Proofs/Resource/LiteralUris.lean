import Raml.Proofs.Resource.RoutedParameters

/-! # URIs without placeholders

A URI is literal if no brace that is opened in it is closed later on. The pattern of its template is
its own text with the special characters escaped, so whatever the parameters are it matches that
text. The anchor at the end of the pattern also holds before a line feed that ends the candidate:
what is matched is the URI itself, or the URI and a line feed.
-/

namespace Raml

open Pattern

namespace Template

/-- Whether a brace is opened and closed later on. -/
def HoldsPlaceholder (cs : List Char) : Prop :=
  ∃ before key after, cs = before ++ '\x7b' :: (key ++ '\x7d' :: after)

variable {cs : List Char}

theorem HoldsPlaceholder.cons (h : HoldsPlaceholder cs) (c : Char) :
    HoldsPlaceholder (c :: cs) := by
  obtain ⟨before, key, after, rfl⟩ := h
  exact ⟨c :: before, key, after, rfl⟩

theorem readKey?_eq_none (h : '\x7d' ∉ cs) : readKey? cs = none := by
  have hall : ∀ c ∈ cs, decide (c ≠ '\x7d') = true := fun c hc =>
    decide_eq_true (ne_of_mem_of_not_mem hc h)
  have hdrop : cs.dropWhile (fun c => decide (c ≠ '\x7d')) = [] :=
    List.dropWhile_eq_nil_iff.2 hall
  simp only [readKey?, hdrop]

theorem readPlaceholder?_eq_none (h : ¬ HoldsPlaceholder cs) : readPlaceholder? cs = none := by
  have hopen : ∀ before rest, cs = before ++ '\x7b' :: rest → readKey? rest = none := by
    intro before rest hcs
    refine readKey?_eq_none fun hmem => h ?_
    obtain ⟨key, after, hrest⟩ := List.append_of_mem hmem
    exact ⟨before, key, after, hrest ▸ hcs⟩
  unfold readPlaceholder?
  split
  · rw [hopen ['~'] _ rfl]
    rfl
  · rw [hopen [] _ rfl]
    rfl
  · rfl

theorem not_holdsPlaceholder (h : '\x7d' ∉ cs) : ¬ HoldsPlaceholder cs := by
  intro hholds
  obtain ⟨before, key, after, rfl⟩ := hholds
  simp at h

/-- A text is read as literal characters throughout if it holds no placeholder. -/
theorem ofChars_of_not_holdsPlaceholder (h : ¬ HoldsPlaceholder cs) :
    ofChars cs = cs.map .literal := by
  induction cs with
  | nil =>
      rw [ofChars]
      rfl
  | cons c rest ih =>
      rw [ofChars_literal (readPlaceholder?_eq_none h), ih fun hrest => h (hrest.cons c)]
      rfl

theorem denotes_map_literal (parameters : Parameters) (cs : List Char) :
    Denotes (String.join ((cs.map TemplatePart.literal).map (partPattern parameters))) {cs} := by
  have hnone : Denotes (String.join (([] : Template).map (partPattern parameters))) 1 :=
    denotes_empty
  have hall := denotes_literals hnone cs
  rw [List.append_nil, mul_one] at hall
  exact hall

end Template

namespace Resource

/-- No placeholder stands in the URI of the resource. -/
def IsLiteral (r : Resource) : Prop := ¬ Template.HoldsPlaceholder r.uri.toList

/-- A resource whose URI is literal matches its URI, and its URI with a line feed behind it,
whatever its parameters are. -/
theorem matchesUri_literal {r : Resource} (h : r.IsLiteral) (candidate : String) :
    ∃ b, r.matchesUri candidate = .ok b ∧
      (b = true ↔ withoutQuery candidate = r.uri ∨ withoutQuery candidate = r.uri ++ "\n") := by
  obtain ⟨ts, htokens, hreads⟩ := Template.denotes_map_literal r.uriParameters r.uri.toList
  obtain ⟨node, nodes, hread, hrun, htakes⟩ := read_anchored htokens hreads
  have hpattern : Json.Assertion.patternOf r.uriPattern = .ok node := by
    rw [uriPattern, Template.ofUri, Template.ofChars_of_not_holdsPlaceholder h]
    exact patternOf_eq_ok_iff.2 hread
  refine ⟨node.matchesStart (withoutQuery candidate), ?_, ?_⟩
  · rw [matchesUri, hpattern]
    rfl
  · rw [matchesStart_anchored_iff hrun htakes]
    refine or_congr String.toList_inj ?_
    rw [← String.toList_inj, String.toList_append]
    exact exists_eq_left

/-- Special characters and a brace that is never closed stand for themselves. -/
def draft : Resource := Api.bareResource "/drafts (v1.0)/\x7bnew" []

theorem matchesUri_literal_draft : draft.IsLiteral ∧
    draft.matchesUri "/drafts (v1.0)/\x7bnew?full" = .ok true ∧
    draft.matchesUri "/drafts (v1x0)/\x7bnew" = .ok false := by
  have hliteral : draft.IsLiteral := Template.not_holdsPlaceholder (by decide)
  obtain ⟨b, hmatches, hiff⟩ := matchesUri_literal hliteral "/drafts (v1.0)/\x7bnew?full"
  obtain ⟨b', hmatches', hiff'⟩ := matchesUri_literal hliteral "/drafts (v1x0)/\x7bnew"
  have hb : b = true := hiff.2 (by decide)
  have hb' : b' = false := Bool.eq_false_iff.2 fun heq => absurd (hiff'.1 heq) (by decide)
  exact ⟨hliteral, hb ▸ hmatches, hb' ▸ hmatches'⟩

/-- A candidate that ends in a line feed is matched although it is not the URI. -/
theorem not_only_own_text :
    ¬ ∀ r : Resource, r.IsLiteral → '?' ∉ r.uri.toList → ∀ candidate,
      (r.matchesUri candidate = .ok true ↔ withoutQuery candidate = r.uri) := by
  intro hclaim
  have hliteral : (Api.bareResource "/songs" []).IsLiteral :=
    Template.not_holdsPlaceholder (by decide)
  have hmatches : (Api.bareResource "/songs" []).matchesUri "/songs\n" = .ok true :=
    Except.eq_ok_of_toOption (by decide +kernel)
  have hsame := (hclaim _ hliteral (by decide) "/songs\n").1 hmatches
  exact absurd hsame (by decide)

end Resource

end Raml
